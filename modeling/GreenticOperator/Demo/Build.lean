import GreenticOperator.Lib.Tree
import GreenticOperator.Wizard.Store
import Mathlib.Algebra.Order.Ring.Int

/-!
# Building a demo bundle

`src/demo/build.rs`. A bundle is built from the manifests of a project that were resolved before: the
packs they list, the files of their tenants and the manifests themselves are copied to another
directory. The tree may have changed since the manifests were written.
-/

namespace Demo

open Disk Disk.Files
open Wizard (Content Store thereAt readText writeText sortDedup)

/-- A resolved manifest as it is read back; what it says of policies is only carried along. -/
structure ResolvedManifest (P : Type) where
  version : String
  tenant : String
  team : Option String
  projectRoot : String
  providers : List (String × List String)
  packs : List String
  envPassthrough : List String
  policy : P
deriving DecidableEq, Repr

/-- How manifests are read and written. -/
structure Yaml (P : Type) where
  parse : String → Except String (ResolvedManifest P)
  print : ResolvedManifest P → String

structure BuildOptions where
  outDir : Path
  tenant : Option String
  team : Option String
  allowPackDirs : Bool
  onlyUsedProviders : Bool
  runDoctor : Bool

/-- Whether the environment skips the doctor, and what the doctor says where `greentic-pack` is found. -/
structure DoctorInput where
  skipDoctor : Bool
  packCommand : Option (Except String Unit)

variable {α P : Type}

def requireDoctor (input : DoctorInput) (options : BuildOptions) : Except String Unit :=
  if options.runDoctor && !input.skipDoctor then
    match input.packCommand with
    | none => .error "greentic-pack command is required for demo doctor"
    | some result => result
  else .ok ()

/-! ## Manifests -/

def resolvedDir (project : Path) : Place := under project ["state", "resolved"]

def selectedFilename (tenant : String) : Option String → String
  | some team => tenant ++ "." ++ team ++ ".yaml"
  | none => tenant ++ ".yaml"

/-- The manifests in a directory, in the order of their names. -/
def manifestNames (disk : Store α) (dir : Path) : List String :=
  ((disk.entries dir).filter fun name =>
    (disk.read (dir ++ [name])).isSome && extension (dir ++ [name]) == some "yaml").insertionSort (· ≤ ·)

def selectManifests (project : Path) (tenant team : Option String) : Eff (Store α) (List Place) :=
  match tenant with
  | some tenant => do
    let path := under project ["state", "resolved", selectedFilename tenant team]
    if ← thereAt path then return [path] else return []
  | none => do
    if ← Eff.read fun disk => disk.isDir (resolvedDir project).path then
      let names ← Eff.read fun disk => manifestNames disk (resolvedDir project).path
      return names.map (resolvedDir project).child
    else Eff.fail "not a directory"

def loadManifest (yaml : Yaml P) (path : Place) : Eff (Store α) (ResolvedManifest P) := do
  Eff.lift (yaml.parse (← readText path))

def loadManifests (yaml : Yaml P) : List Place → Eff (Store α) (List (Place × ResolvedManifest P))
  | [] => return []
  | path :: paths => do
    let manifest ← loadManifest yaml path
    return (path, manifest) :: (← loadManifests yaml paths)

def writeManifest (yaml : Yaml P) (path : Place) (manifest : ResolvedManifest P) : Eff (Store α) Unit := do
  createParents path
  writeText path (yaml.print manifest)

def demoMetadata : String := "version: \"1\"\nproject_root: \"./\"\n"

def writeDemoMetadata (path : Place) : Eff (Store α) Unit := writeText path demoMetadata

/-! ## Copying -/

/-- The target is cut before anything is copied, so that a file copied to itself is left empty. -/
def copyFile (src dst : Place) : Eff (Store α) Unit := do
  createParents dst
  let content ← readFile src
  writeFile dst (if src.path = dst.path then .text "" else content)

/-- A round of the loop over the entries of a directory. -/
def copyEntry (copyDir : Place → Place → Eff (Store α) Unit) (src dst : Place) (name : String) :
    Eff (Store α) Unit := do
  if ← Eff.read fun disk => disk.isDir (src.child name).path then copyDir (src.child name) (dst.child name)
  else copyFile (src.child name) (dst.child name)

/-- `copy_dir`, as deep as the fuel goes. Without a source it does nothing. -/
def copyDirWithin : Nat → Place → Place → Eff (Store α) Unit
  | 0, _, _ => Eff.fail "file name too long"
  | fuel + 1, src, dst => do
    if ← thereAt src then
      createDirs dst
      if ← Eff.read fun disk => disk.isDir src.path then
        let names ← Eff.read fun disk => disk.entries src.path
        names.forM (copyEntry (copyDirWithin fuel) src dst)
      else Eff.fail "not a directory"
    else return ()

/-- More names than any path of the disk has. -/
def depth (disk : Store α) : Nat := ((disk.files.map Prod.fst ++ disk.dirs).map List.length).sum + 1

def copyDir (src dst : Place) : Eff (Store α) Unit := do
  copyDirWithin (← Eff.read depth) src dst

/-! ## The bundle -/

def createBundleDirectories (bundle : Path) : Eff (Store α) Unit := do
  createDirs (.at bundle)
  ["providers", "packs", "tenants", "resolved", "state"].forM fun name => createDirs (under bundle [name])

def ResolvedManifest.providerPaths (manifest : ResolvedManifest P) : List String :=
  manifest.providers.flatMap Prod.snd

def usedProviderPaths (loaded : List (Place × ResolvedManifest P)) : List String :=
  sortDedup (loaded.flatMap fun entry => entry.2.providerPaths)

def copyProviders (project : Path) (options : BuildOptions) (loaded : List (Place × ResolvedManifest P)) :
    Eff (Store α) Unit :=
  if options.onlyUsedProviders then
    (usedProviderPaths loaded).forM fun path => copyFile (under project [path]) (under options.outDir [path])
  else copyDir (under project ["providers"]) (under options.outDir ["providers"])

def copyPack (project : Path) (options : BuildOptions) (pack : String) : Eff (Store α) Unit :=
  if Text.endsWith ".gtpack" pack then copyFile (under project [pack]) (under options.outDir [pack])
  else if options.allowPackDirs then copyDir (under project [pack]) (under options.outDir [pack])
  else Eff.fail ("Pack directory not allowed in demo bundle: " ++ pack ++ " (use --allow-pack-dirs)")

/-- A round of the loop over the manifests. -/
def copyManifest (yaml : Yaml P) (project : Path) (options : BuildOptions) (entry : Place × ResolvedManifest P) :
    Eff (Store α) Unit := do
  entry.2.packs.forM (copyPack project options)
  match entry.1.path.getLast? with
  | none => Eff.fail "Invalid manifest filename"
  | some filename =>
    writeManifest yaml (under options.outDir ["resolved", filename]) { entry.2 with projectRoot := "./" }

def tenantsToCopy (loaded : List (Place × ResolvedManifest P)) : List String :=
  sortDedup (loaded.map fun entry => entry.2.tenant)

def copyTenant (project : Path) (options : BuildOptions) (tenant : String) : Eff (Store α) Unit := do
  if ← thereAt (under project ["tenants", tenant]) then
    copyDir (under project ["tenants", tenant]) (under options.outDir ["tenants", tenant])
  else return ()

/-- What is done with the manifests that are selected. -/
def buildFrom (yaml : Yaml P) (project : Path) (options : BuildOptions) (manifests : List Place) :
    Eff (Store α) Unit := do
  createBundleDirectories options.outDir
  let loaded ← loadManifests yaml manifests
  copyProviders project options loaded
  loaded.forM (copyManifest yaml project options)
  (tenantsToCopy loaded).forM (copyTenant project options)
  writeDemoMetadata (under options.outDir ["greentic.demo.yaml"])

def buildBundle (yaml : Yaml P) (input : DoctorInput) (project : Path) (options : BuildOptions) :
    Eff (Store α) Unit := do
  Eff.lift (requireDoctor input options)
  if ← thereAt (resolvedDir project) then
    let manifests ← selectManifests project options.tenant options.team
    if manifests.isEmpty then Eff.fail "No resolved manifests found for selection."
    else buildFrom yaml project options manifests
  else Eff.fail "Resolved manifests not found. Run `greentic-operator dev sync` first."

end Demo
