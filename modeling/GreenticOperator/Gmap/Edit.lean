import GreenticOperator.Gmap.Parse
import Mathlib.Data.List.Sort

/-!
# Editing the access map

`src/gmap/edit.rs`. `upsertPolicy` gives a rule path its policy. A file with comments or
blank lines keeps its lines and is edited in place; any other file is parsed, changed,
sorted by `canonicalKey` and rendered anew.
-/

namespace Gmap

def policyString : Policy → String
  | .Public => "public"
  | .Forbidden => "forbidden"

/-- The line `path = policy`. -/
def ruleLine (path : String) (policy : Policy) : String :=
  path ++ " = " ++ policyString policy

/-- The rules with the policy of the first rule of that path changed, where there is one. -/
def setFirst (path : GmapPath) (policy : Policy) : List GmapRule → Option (List GmapRule)
  | [] => none
  | rule :: rest =>
    if rule.path = path then some ({ rule with policy } :: rest)
    else (setFirst path policy rest).map (rule :: ·)

def upsertRule (rules : List GmapRule) (rulePath : String) (policy : Policy) :
    Except String (List GmapRule) := do
  let parsedPath ← parsePath rulePath 0
  match setFirst parsedPath policy rules with
  | some rules => return rules
  | none => return rules ++ [{ path := parsedPath, policy, line := rules.length + 1 }]

/-- The loop of `upsert_preserving_lines`: the lines with the first rule of that printed
path rewritten, and whether there was one. -/
def replaceLine (rulePath : String) (policy : Policy) :
    List String → Except String (List String × Bool)
  | [] => .ok ([], false)
  | line :: rest => do
    let trimmed := Text.trim line
    if skipsLine trimmed then
      let (rest, updated) ← replaceLine rulePath policy rest
      return (line :: rest, updated)
    else
      let rule ← parseRuleLine trimmed 0
      if rule.path.toString = rulePath then
        return (ruleLine rulePath policy :: rest, true)
      else
        let (rest, updated) ← replaceLine rulePath policy rest
        return (line :: rest, updated)

def upsertPreservingLines (contents rulePath : String) (policy : Policy) :
    Except String String := do
  let (lines, updated) ← replaceLine rulePath policy (Text.split '\n' contents)
  let lines :=
    if updated then lines
    else
      let lines :=
        if !lines.isEmpty && !(lines.getLast?.map (· == "")).getD true then lines ++ [""] else lines
      lines ++ [ruleLine rulePath policy]
  let output := Text.joinWith '\n' lines
  return if Text.endsWithChar '\n' output then output else output ++ "\n"

def renderRules (rules : List GmapRule) : String :=
  rules.foldl (fun output rule => output ++ (ruleLine rule.path.toString rule.policy ++ "\n")) ""

/-- The sort key of a canonical file: the global rule, then `pack/_`, then packs, flows
and nodes. -/
def canonicalKey : GmapPath → Nat × String × String × String
  | ⟨none, none, none⟩ => (0, "", "", "")
  | ⟨some pack, none, none⟩ => (2, pack, "", "")
  | ⟨some pack, some flow, none⟩ => if flow = "_" then (1, pack, "", "") else (3, pack, flow, "")
  | ⟨some pack, some flow, some node⟩ => (4, pack, flow, node)
  | _ => (0, "", "", "")

/-- The lexicographic order of sort keys. -/
def keyLe (a b : Nat × String × String × String) : Bool :=
  ((compare a.1 b.1).then <| (compare a.2.1 b.2.1).then <|
    (compare a.2.2.1 b.2.2.1).then (compare a.2.2.2 b.2.2.2)) != .gt

def sortRules (rules : List GmapRule) : List GmapRule :=
  rules.insertionSort fun a b => keyLe (canonicalKey a.path) (canonicalKey b.path) = true

def containsCommentsOrBlanks (contents : String) : Bool :=
  (Text.lines contents).any fun line => skipsLine (Text.trim line)

/-- `upsert_policy`: what is written over a file whose contents are `file` (`none` where
there is no file). -/
def upsertPolicy (file : Option String) (rulePath : String) (policy : Policy) :
    Except String String := do
  let contents := file.getD ""
  if containsCommentsOrBlanks contents then
    upsertPreservingLines contents rulePath policy
  else
    let rules ← parseStr contents
    let rules ← upsertRule rules rulePath policy
    return renderRules (sortRules rules)

example : upsertPolicy (some "demo/_ = forbidden\n_ = forbidden\n") "demo/main" .Public
    = .ok "_ = forbidden\ndemo/_ = forbidden\ndemo/main = public\n" := by decide

example : upsertPolicy (some "# team rules\n_ = forbidden\n") "demo" .Public
    = .ok "# team rules\n_ = forbidden\n\ndemo = public\n" := by decide

end Gmap
