import GreenticOperator.Gmap.Parse
import GreenticOperator.Project.Resolve

/-!
# Access changes in a bundle

`src/wizard.rs`. A change of access names tenants and teams. They are added where they are missing,
their policies are changed, the project is resolved again, and the manifests of the tenants and
teams named are copied to where the bundle is started from.
-/

namespace Project

open Disk Gmap

structure TenantSelection where
  tenant : String
  team : Option String
  allowPaths : List String
deriving DecidableEq, Repr

inductive AccessOperation
  | AllowAdd
  | AllowRemove
deriving DecidableEq, Repr

def AccessOperation.policy : AccessOperation → Policy
  | .AllowAdd => .Public
  | .AllowRemove => .Forbidden

structure AccessChangeSelection where
  packId : String
  operation : AccessOperation
  tenantId : String
  teamId : Option String
deriving DecidableEq, Repr

/-- What a change of access finds: how each change of a policy ends, the run of the resolver, and
how each copy ends. -/
structure ApplyInput where
  upsert : Pair → String → Policy → Except String Unit
  sync : SyncInput
  copy : Pair → WriteOutcome

/-- `remove_tenant_or_team`, with its warnings. -/
def removeTenantOrTeam (selection : TenantSelection) (bundle : Bundle) : Bundle × List String :=
  let teamName := selection.team.getD ""
  let absent := s!"tenant/team {selection.tenant}:{teamName} already absent"
  match selection.team with
  | some team =>
    if bundle.tenants.any fun entry => entry.name == selection.tenant && entry.teams.contains team then
      (removeTeam selection.tenant team bundle, [])
    else (bundle, [absent])
  | none =>
    if bundle.tenants.any (·.name == selection.tenant) then (removeTenant selection.tenant bundle, [])
    else (bundle, [absent])

def ensureTenantAndTeam (pair : Pair) (bundle : Bundle) : Bundle :=
  let bundle := addTenant pair.1 bundle
  match pair.2 with
  | some team => if team = "" then bundle else addTeam pair.1 team bundle
  | none => bundle

/-- The order in which the pairs to copy are gone through. -/
def pairLe : Pair → Pair → Bool
  | (tenant, team), (tenant', team') =>
    tenant < tenant' || tenant = tenant' && match team, team' with
      | none, _ => true
      | some _, none => false
      | some team, some team' => team ≤ team'

/-- The pairs named, each with its changes of policies. -/
def changesOf (tenants : List TenantSelection) (accessChanges : List AccessChangeSelection) :
    List (Pair × List (String × Policy)) :=
  (tenants.map fun selection => ((selection.tenant, selection.team),
      (selection.allowPaths.filter fun path => Text.trim path ≠ "").map fun path => (path, .Public)))
    ++ accessChanges.map fun change => ((change.tenantId, change.teamId), [(change.packId, change.operation.policy)])

/-- The loop over the changes, which ends at the first policy that cannot be changed. -/
def applyChanges (upsert : Pair → String → Policy → Except String Unit) :
    List (Pair × List (String × Policy)) → Bundle → Bundle × Except String Unit
  | [], bundle => (bundle, .ok ())
  | (pair, policies) :: rest, bundle =>
    match policies.forM fun policy => upsert pair policy.1 policy.2 with
    | .error message => (ensureTenantAndTeam pair bundle, .error message)
    | .ok () => applyChanges upsert rest (ensureTenantAndTeam pair bundle)

/-- The set of pairs to copy the manifests of. -/
def copyTargets (changes : List (Pair × List (String × Policy))) : List Pair :=
  (changes.map Prod.fst).dedup.insertionSort fun a b => pairLe a b = true

/-- What was copied, with the warnings. -/
structure Copied where
  files : List String
  warnings : List String
deriving DecidableEq, Repr

/-- `copy_resolved_for_targets`. A pair is gone through once; a manifest that is not there is left
out with a warning. -/
def copyResolvedForTargets (copy : Pair → WriteOutcome) (seen : List Pair) :
    List Pair → Bundle → Bundle × Except String Copied
  | [], bundle => (bundle, .ok ⟨[], []⟩)
  | pair :: rest, bundle =>
    if pair ∈ seen then copyResolvedForTargets copy seen rest bundle
    else
      let filename := resolvedManifestFilename pair
      match bundle.resolved filename with
      | none =>
        let src := join (join (join bundle.root "state") "resolved") filename
        let (bundle, result) := copyResolvedForTargets copy (pair :: seen) rest bundle
        (bundle, result.map fun copied =>
          { copied with warnings := s!"resolved manifest {src} missing after resolver run" :: copied.warnings })
      | some file =>
        match bundle.copies.write filename file (copy pair) with
        | (copies, .error message) => ({ bundle with copies }, .error message)
        | (copies, .ok ()) =>
          let (bundle, result) := copyResolvedForTargets copy (pair :: seen) rest { bundle with copies }
          (bundle, result.map fun copied => { copied with files := filename :: copied.files })

/-- Without changes nothing is resolved or copied. -/
def applyAccessAndSync (input : ApplyInput) (tenants : List TenantSelection)
    (accessChanges : List AccessChangeSelection) (bundle : Bundle) : Bundle × Except String Copied :=
  let changes := changesOf tenants accessChanges
  match applyChanges input.upsert changes bundle with
  | (bundle, .error message) => (bundle, .error message)
  | (bundle, .ok ()) =>
    if copyTargets changes = [] then (bundle, .ok ⟨[], []⟩)
    else
      match syncProject input.sync bundle with
      | (bundle, .error message) => (bundle, .error message)
      | (bundle, .ok ()) => copyResolvedForTargets input.copy [] (copyTargets changes) bundle

end Project
