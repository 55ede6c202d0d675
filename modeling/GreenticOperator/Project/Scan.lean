import GreenticOperator.Project.Resolve
import GreenticOperator.Wizard.Store

/-!
# What a project has to resolve

`src/project/resolve.rs`. The providers of a project are the packs in the directories of `providers`, its
packs the entries of `packs`. Both are listed by their paths from the root.
-/

namespace Project

open Disk Disk.Files
open Wizard (Store)

variable {α : Type}

/-- The path of an entry from the root. -/
def relativePath (names : Path) : String := Text.joinWith '/' names

def isGtpack (disk : Store α) (path : Path) : Bool :=
  (disk.read path).isSome && extension path == some "gtpack"

/-- The packs in the directory of a domain. -/
def domainPacks (root : Path) (disk : Store α) (domain : String) : List String :=
  (((disk.entries (root ++ ["providers", domain])).filter fun name =>
    isGtpack disk (root ++ ["providers", domain, name])).map fun name =>
      relativePath ["providers", domain, name]).insertionSort (· ≤ ·)

def scanProviders (root : Path) (disk : Store α) : Except String (List (String × List String)) :=
  if !disk.isThere (under root ["providers"]) then .ok []
  else if !disk.isDir (under root ["providers"]).path then .error "not a directory"
  else
    let domains := (disk.entries (root ++ ["providers"])).filter fun domain =>
      disk.isDir (root ++ ["providers", domain])
    .ok ((domains.insertionSort (· ≤ ·)).map fun domain => (domain, domainPacks root disk domain))

def scanPacks (root : Path) (disk : Store α) : Except String (List String) :=
  if !disk.isThere (under root ["packs"]) then .ok []
  else if !disk.isDir (under root ["packs"]).path then .error "not a directory"
  else .ok ((((disk.entries (root ++ ["packs"])).filter fun name =>
    disk.isDir (root ++ ["packs", name]) || isGtpack disk (root ++ ["packs", name])).map fun name =>
      relativePath ["packs", name]).insertionSort (· ≤ ·))

def scanSources (root : Path) (disk : Store α) : Except String Sources := do
  let providers ← scanProviders root disk
  let packs ← scanPacks root disk
  return ⟨providers, packs⟩

end Project
