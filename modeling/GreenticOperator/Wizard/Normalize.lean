import GreenticOperator.Wizard.Answers
import GreenticOperator.Wizard.Plan

/-!
# What the answers of the wizard ask for

`src/cli.rs`, `src/wizard.rs`. Each list of answers is turned into what a request takes, whichever
form its items were given in. Blank items are passed over.
-/

namespace Wizard

open Project (TenantSelection AccessChangeSelection AccessOperation)

def notBlank (value : String) : Bool := !(Text.trim value).isEmpty

/-- Items that differ in a key, the first of each. -/
def retainFirst {α κ : Type} [DecidableEq κ] (key : α → κ) (seen : List κ) : List α → List α
  | [] => []
  | item :: rest =>
    if key item ∈ seen then retainFirst key seen rest else item :: retainFirst key (key item :: seen) rest

/-! ## Operations and targets -/

def WizardUpdateOp.all : List WizardUpdateOp :=
  [.PacksAdd, .PacksRemove, .ProvidersAdd, .ProvidersRemove, .TenantsAdd, .TenantsRemove, .AccessChange]

def WizardUpdateOp.parse (value : String) : Option WizardUpdateOp :=
  match value with
  | "packs_add" => some .PacksAdd
  | "packs_remove" => some .PacksRemove
  | "providers_add" => some .ProvidersAdd
  | "providers_remove" => some .ProvidersRemove
  | "tenants_add" => some .TenantsAdd
  | "tenants_remove" => some .TenantsRemove
  | "access_change" => some .AccessChange
  | _ => none

def WizardRemoveTarget.all : List WizardRemoveTarget := [.Packs, .Providers, .TenantsTeams]

def WizardRemoveTarget.parse (value : String) : Option WizardRemoveTarget :=
  match value with
  | "packs" => some .Packs
  | "providers" => some .Providers
  | "tenants_teams" => some .TenantsTeams
  | _ => none

def normalizeUpdateOps (values : List WizardUpdateOpAnswer) : List WizardUpdateOp :=
  let given := values.filterMap fun
    | .Op raw => WizardUpdateOp.parse (Text.trim raw)
    | .Item op => WizardUpdateOp.parse (Text.trim op)
  WizardUpdateOp.all.filter given.contains

def normalizeRemoveTargets (values : List WizardRemoveTargetAnswer) : List WizardRemoveTarget :=
  let given := values.filterMap fun
    | .Target raw => WizardRemoveTarget.parse (Text.trim raw)
    | .Item targetType target => (targetType.or target).bind fun raw => WizardRemoveTarget.parse (Text.trim raw)
  WizardRemoveTarget.all.filter given.contains

/-! ## Packs, providers and tenants -/

def normalizePackRefs (values : List WizardPackRefAnswer) : List String :=
  (values.map fun
    | .Ref raw => raw
    | .Item packRef .. => packRef).filter notBlank

def normalizeCatalogPacks (values : List WizardCatalogPackAnswer) : List String :=
  (values.map fun
    | .Id raw => raw
    | .Item id => id).filter notBlank

def normalizeCustomProviderRefs (values : List WizardCustomProviderRefAnswer) : List String :=
  (values.map fun
    | .Ref raw => raw
    | .Item packRef => packRef).filter notBlank

/-- A provider given as a text is kept also where it is blank. -/
def normalizeProviderIds (values : List WizardProviderAnswer) : List String :=
  values.filterMap fun
    | .Id raw => some raw
    | .Item providerId id => (providerId.or id).filter notBlank

def normalizeTargets (values : List WizardTargetAnswer) : List String :=
  (values.map fun
    | .Target raw => raw
    | .Item tenantId (some team) => s!"{tenantId}:{team}"
    | .Item tenantId none => tenantId).filter notBlank

/-- A tenant, and a team after a colon. -/
def parseWizardTarget (input : String) : Except String (String × Option String) :=
  let (before, after) := Text.splitOnce ':' (Text.trim input)
  if (Text.trim input).isEmpty then .error "target must not be empty"
  else if (Text.trim before).isEmpty then .error "target tenant must not be empty"
  else .ok (Text.trim before, (after.map Text.trim).filter fun value => !value.isEmpty)

def normalizeTargetSelections (values : List WizardTargetAnswer) : List TenantSelection :=
  values.filterMap fun
    | .Target raw =>
      (parseWizardTarget raw).toOption.map fun (tenant, team) => { tenant, team, allowPaths := [] }
    | .Item tenantId teamId =>
      if (Text.trim tenantId).isEmpty then none
      else some { tenant := Text.trim tenantId, team := teamId.filter notBlank, allowPaths := [] }

/-! ## Scopes -/

/-- The id that a scope needs, or an error that names it. -/
def requiredId (what name : String) (given : Option String) : Except String String :=
  match given.filter notBlank with
  | some id => .ok id
  | none => .error s!"{what} requires {name}"

def removeScopeOf (scope tenantId teamId : Option String) : Except String (Option PackScope) :=
  match (scope.map Text.trim).filter fun value => !value.isEmpty with
  | none => .ok none
  | some "bundle" => .ok (some .Bundle)
  | some "global" => .ok (some .Global)
  | some "tenant" => do return some (.Tenant (← requiredId "packs_remove scope=tenant" "tenant_id" tenantId))
  | some "team" => do
    let tenantId ← requiredId "packs_remove scope=team" "tenant_id" tenantId
    let teamId ← requiredId "packs_remove scope=team" "team_id" teamId
    return some (.Team tenantId teamId)
  | some other => .error s!"unsupported packs_remove scope {other}"

def packRemoveOf : WizardPackRemoveAnswer → Except String (Option PackRemoveSelection)
  | .Pack raw =>
    if (Text.trim raw).isEmpty then .ok none
    else .ok (some { packIdentifier := Text.trim raw, scope := none })
  | .Item packIdentifier packId packRef scope tenantId teamId =>
    let identifier := Text.trim (((packIdentifier.or packId).or packRef).getD "")
    if identifier.isEmpty then .ok none
    else do return some { packIdentifier := identifier, scope := ← removeScopeOf scope tenantId teamId }

def normalizePackRemoves (values : List WizardPackRemoveAnswer) : Except String (List PackRemoveSelection) := do
  return (← values.mapM packRemoveOf).filterMap id

def accessScopeOf (accessScope tenantId teamId : Option String) : Except String PackScope :=
  match accessScope.map Text.trim with
  | none => .ok .Global
  | some "" => .ok .Global
  | some "all_tenants" => .ok .Global
  | some "tenant_all_teams" => do
    return .Tenant (← requiredId "access_scope=tenant_all_teams" "tenant_id" tenantId)
  | some "specific_team" => do
    let tenantId ← requiredId "access_scope=specific_team" "tenant_id" tenantId
    let teamId ← requiredId "access_scope=specific_team" "team_id" teamId
    return .Team tenantId teamId
  | some other => .error s!"unsupported access_scope {other}"

def isYes (value : String) : Bool :=
  Text.eqIgnoreAsciiCase (Text.trim value) "y" || Text.eqIgnoreAsciiCase (Text.trim value) "yes"

def defaultAssignmentOf : WizardPackRefAnswer → Except String (Option PackDefaultSelection)
  | .Ref _ => .ok none
  | .Item packRef accessScope makeDefaultPack tenantId teamId =>
    if (makeDefaultPack.map isYes).getD false then do
      return some { packIdentifier := packRef, scope := ← accessScopeOf accessScope tenantId teamId }
    else .ok none

def normalizeDefaultAssignmentsFromPackRefs (values : List WizardPackRefAnswer) :
    Except String (List PackDefaultSelection) := do
  return (← values.mapM defaultAssignmentOf).filterMap id

/-! ## Access -/

def allowAdd (packId tenantId : String) (teamId : Option String) : AccessChangeSelection where
  packId := packId
  operation := .AllowAdd
  tenantId := tenantId
  teamId := teamId

/-- Who a pack is given to; ids are trimmed here, the scope is not. -/
def accessOfScope (tenants : List TenantSelection) (packRef scope : String) (tenantId teamId : Option String) :
    Except String (List AccessChangeSelection) :=
  match scope with
  | "all_tenants" => .ok (tenants.map fun target => allowAdd packRef target.tenant target.team)
  | "" => .ok (tenants.map fun target => allowAdd packRef target.tenant target.team)
  | "tenant_all_teams" => do
    let tenantId ← requiredId "access_scope=tenant_all_teams" "tenant_id" (tenantId.map Text.trim)
    return [allowAdd packRef tenantId none]
  | "specific_team" => do
    let tenantId ← requiredId "access_scope=specific_team" "tenant_id" (tenantId.map Text.trim)
    let teamId ← requiredId "access_scope=specific_team" "team_id" (teamId.map Text.trim)
    return [allowAdd packRef tenantId (some teamId)]
  | other => .error s!"unsupported access_scope {other}"

def accessOfPackRef (tenants : List TenantSelection) :
    WizardPackRefAnswer → Except String (List AccessChangeSelection)
  | .Ref packRef =>
    if notBlank packRef then accessOfScope tenants (Text.trim packRef) "all_tenants" none none else .ok []
  | .Item packRef accessScope _ tenantId teamId =>
    if notBlank packRef then
      accessOfScope tenants (Text.trim packRef) (accessScope.getD "all_tenants") tenantId teamId
    else .ok []

def normalizeAccessChangesFromPackRefs (values : List WizardPackRefAnswer) (tenants : List TenantSelection) :
    Except String (List AccessChangeSelection) := do
  let changes ← values.mapM (accessOfPackRef tenants)
  return retainFirst (fun change => (change.packId, change.tenantId, change.teamId.getD "")) [] changes.flatten

def normalizeAccessChanges (values : List WizardAccessChangeAnswer) : List AccessChangeSelection :=
  values.filterMap fun
    | .Item packId packRef operation tenantId teamId =>
      ((packId.or packRef).filter notBlank).map fun packId =>
        { packId
          operation :=
            match (operation.map Text.trim).getD "allow_add" with
            | "allow_add" => .AllowAdd
            | "allow_remove" => .AllowRemove
            | _ => .AllowAdd
          tenantId
          teamId }

/-- Every tenant is given every pack. -/
def allAccess (tenants : List TenantSelection) (packRefs : List String) : List AccessChangeSelection :=
  tenants.flatMap fun tenant => packRefs.map fun packRef => allowAdd packRef tenant.tenant tenant.team

def accessChangesOfMode (accessMode : Option String) (tenants : List TenantSelection) (packRefs : List String)
    (existing : List AccessChangeSelection) : Except String (List AccessChangeSelection) :=
  match (accessMode.map Text.trim).filter fun value => !value.isEmpty with
  | some "all_selected_get_all_packs" => .ok (existing ++ allAccess tenants packRefs)
  | some "per_pack_matrix" =>
    if existing.isEmpty then .error "access_mode=per_pack_matrix requires non-empty access_change entries"
    else .ok existing
  | some other =>
    .error s!"unsupported access_mode {other}; expected all_selected_get_all_packs or per_pack_matrix"
  | none => .ok (if existing.isEmpty then allAccess tenants packRefs else existing)

def buildAccessChanges (mode : WizardMode) (accessMode : Option String) (tenants : List TenantSelection)
    (packRefs : List String) (existing : List AccessChangeSelection) :
    Except String (List AccessChangeSelection) := do
  if mode ≠ .Create then return existing
  let changes ← accessChangesOfMode accessMode tenants packRefs existing
  return retainFirst
    (fun change => (change.packId, change.operation, change.tenantId, change.teamId.getD "")) [] changes

end Wizard
