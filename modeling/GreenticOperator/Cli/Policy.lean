import GreenticOperator.Wizard.Store

/-!
# Allowing and forbidding in a demo

`src/cli.rs`. `demo allow` and `demo forbid` change one rule of a tenant or of one of its teams, resolve
the project again, and copy the manifest of that tenant and team to where the demo is started from.
Without a team they take the team `default` of the tenant, where it has one.
-/

namespace Cli

open Disk Disk.Files Wizard
open Project (Pair)

structure DemoPolicyArgs where
  bundle : Path
  bundleText : String
  tenant : String
  team : Option String
  path : String

variable {α : Type}

def DemoPolicyArgs.effectiveTeam (args : DemoPolicyArgs) (disk : Store α) : Option String :=
  match args.team with
  | some team => some team
  | none =>
    if disk.isThere (under args.bundle ["tenants", args.tenant, "teams", "default"]) then some "default" else none

def demoResolvedManifestPath (bundle : Path) (pair : Pair) : Place :=
  under bundle ["resolved", Project.resolvedManifestFilename pair]

def demoStateResolvedManifestPath (bundle : Path) (pair : Pair) : Place :=
  under bundle ["state", "resolved", Project.resolvedManifestFilename pair]

def copyResolvedManifest (args : DemoPolicyArgs) (pair : Pair) : Eff (Store α) Unit := do
  let src := demoStateResolvedManifestPath args.bundle pair
  if ← thereAt src then do
    createParents (demoResolvedManifestPath args.bundle pair)
    copyFile src (demoResolvedManifestPath args.bundle pair)
  else
    Eff.fail ("resolved manifest not found at "
      ++ join (join (join args.bundleText "state") "resolved") (Project.resolvedManifestFilename pair))

/-- `DemoPolicyArgs::run`. How the gmap is written, the scan of packs and providers and the manifests that
are built are given. -/
def demoPolicy (args : DemoPolicyArgs) (policy : Gmap.Policy) (writing : Writing α) (scanned : Except String Unit)
    (manifest : Pair → String) : Eff (Store α) Unit := do
  let team ← Eff.read args.effectiveTeam
  upsertPolicyBy writing (demoBundleGmapPath args.bundle (args.tenant, team)) args.path policy
  syncProject args.bundle scanned manifest
  copyResolvedManifest args (args.tenant, team)

end Cli
