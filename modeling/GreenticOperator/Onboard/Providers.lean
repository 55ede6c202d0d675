import GreenticOperator.Onboard.Submit
import GreenticOperator.Wizard.Store

/-!
# Tenants and teams of a bundle

`src/onboard/providers.rs`. An onboarding lists the tenants of the bundle with their teams, and makes new ones.
A name that is asked for is trimmed and put in lower case, and has to be an identifier.
-/

namespace Onboard

open Disk Disk.Files HttpUtil Json Wizard

variable {α : Type}

/-! ## Listing -/

/-- A tenant with its teams, as it is listed. -/
structure TenantListing where
  tenant : String
  teams : List String
deriving DecidableEq, Repr

/-- The directories in a directory, in the order in which it is read. -/
def directoriesIn (disk : Store α) (dir : Path) : List String :=
  (disk.entries dir).filter fun name => disk.isDir (dir ++ [name])

/-- The teams of a tenant, which has none where their directory cannot be read. -/
def teamsIn (bundle : Path) (disk : Store α) (tenant : String) : List String :=
  let teamsDir := bundle ++ ["tenants", tenant, "teams"]
  if disk.isDir teamsDir then directoriesIn disk teamsDir else []

def tenantsIn (bundle : Path) (disk : Store α) : Except HttpResponse (List TenantListing) :=
  let tenantsDir := under bundle ["tenants"]
  if !disk.isThere tenantsDir then .ok []
  else if !disk.isDir tenantsDir.path then .error (errorResponse 500 "read tenants dir: not a directory")
  else .ok ((directoriesIn disk tenantsDir.path).map fun tenant => ⟨tenant, teamsIn bundle disk tenant⟩)

/-- The tenant `default` is listed also where it is not there. -/
def withDefault (tenants : List TenantListing) : List TenantListing :=
  if tenants.any (·.tenant == "default") then tenants else ⟨"default", []⟩ :: tenants

def TenantListing.toJson (listing : TenantListing) : Value :=
  .ofFields [("tenant", .string listing.tenant), ("teams", .array (listing.teams.map Value.string))]

def listTenants (bundle : Path) (disk : Store α) : Except HttpResponse HttpResponse :=
  (tenantsIn bundle disk).map fun tenants =>
    jsonResponse 200 (.ofFields [("tenants", .array ((withDefault tenants).map TenantListing.toJson))])

/-! ## Making -/

def isValidIdentifier (s : String) : Bool :=
  !s.isEmpty && s.toList.all (fun c => c.isAlphanum || c == '-') && !Text.startsWithChar '-' s && !Text.endsWithChar '-' s

/-- A name in the body of a request. -/
def bodyName (body : Value) (field : String) : String :=
  Text.toAsciiLowercase (Text.trim ((textField body field).getD ""))

def requireName (field name : String) : Except HttpResponse Unit :=
  if name = "" then .error (errorResponse 400 (field ++ " name is required")) else .ok ()

def requireIdentifier (field name : String) : Except HttpResponse Unit :=
  if isValidIdentifier name then .ok ()
  else .error (errorResponse 400 (field ++ " name must be alphanumeric with hyphens only"))

def requestedTenant (body : Value) : Except HttpResponse String := do
  let tenant := bodyName body "tenant"
  requireName "tenant" tenant
  requireIdentifier "tenant" tenant
  return tenant

def requestedTeam (body : Value) : Except HttpResponse (String × String) := do
  let tenant := bodyName body "tenant"
  let team := bodyName body "team"
  requireName "tenant" tenant
  requireName "team" team
  requireIdentifier "tenant" tenant
  requireIdentifier "team" team
  return (tenant, team)

/-- The answer to a request that makes something: the tenants that there are then. -/
def made (bundle : Path) (what : String) (outcome : Except String Unit × Store α) :
    Except HttpResponse HttpResponse × Store α :=
  match outcome with
  | (.error err, disk) => (.error (errorResponse 500 (what ++ err)), disk)
  | (.ok (), disk) => (listTenants bundle disk, disk)

def createTenant (bundle : Path) (body : Value) (disk : Store α) : Except HttpResponse HttpResponse × Store α :=
  match requestedTenant body with
  | .error response => (.error response, disk)
  | .ok tenant => made bundle "create tenant: " ((addTenant bundle tenant).run disk)

def createTeam (bundle : Path) (body : Value) (disk : Store α) : Except HttpResponse HttpResponse × Store α :=
  match requestedTeam body with
  | .error response => (.error response, disk)
  | .ok (tenant, team) => made bundle "create team: " ((addTeam bundle tenant team).run disk)

end Onboard
