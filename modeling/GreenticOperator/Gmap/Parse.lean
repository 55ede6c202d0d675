import GreenticOperator.Lib.Text

/-!
# The access map — rules, paths and their text form

`src/gmap/parse.rs`. A gmap file is a list of lines `path = policy`; blank lines and
lines that start with `#` carry no rule. A path is `_` (everything), or one to three
segments `pack`, `pack/flow`, `pack/flow/node`, where the flow `_` stands for every flow
of the pack.
-/

namespace Gmap

inductive Policy
  | Public
  | Forbidden
deriving DecidableEq, Repr

/-- `GmapPath`: what a rule speaks about. Parsing never builds a flow without a pack or a
node without a flow, but the type allows them. -/
structure GmapPath where
  pack : Option String
  flow : Option String
  node : Option String
deriving DecidableEq, Repr

structure GmapRule where
  path : GmapPath
  policy : Policy
  line : Nat
deriving DecidableEq, Repr

/-- The text of a path. Path shapes that parsing never builds print like the global one. -/
def GmapPath.toString : GmapPath → String
  | ⟨some pack, none, none⟩ => pack
  | ⟨some pack, some flow, none⟩ => pack ++ "/" ++ flow
  | ⟨some pack, some flow, some node⟩ => pack ++ "/" ++ flow ++ "/" ++ node
  | _ => "_"

def parsePath (raw : String) (lineNumber : Nat) : Except String GmapPath :=
  if raw = "_" then .ok ⟨none, none, none⟩
  else
    match (Text.split '/' raw).filter (fun seg => seg != "") with
    | [] => .error s!"Invalid path on line {lineNumber}: empty path"
    | [pack] => .ok ⟨some pack, none, none⟩
    | [pack, flow] => .ok ⟨some pack, some flow, none⟩
    | [pack, flow, node] => .ok ⟨some pack, some flow, some node⟩
    | _ => .error s!"Invalid path on line {lineNumber}: too many segments"

def parsePolicy (raw : String) (lineNumber : Nat) : Except String Policy :=
  if raw = "public" then .ok .Public
  else if raw = "forbidden" then .ok .Forbidden
  else .error s!"Invalid policy on line {lineNumber}: {raw}"

/-- One rule line, cut at its first `=`. -/
def parseRuleLine (line : String) (lineNumber : Nat) : Except String GmapRule :=
  let parts := Text.splitOnce '=' line
  let rawPath := Text.trim parts.1
  if rawPath = "" then .error s!"Invalid rule line {lineNumber}: missing path"
  else
    match parts.2.map Text.trim with
    | none => .error s!"Invalid rule line {lineNumber}: missing policy"
    | some rawPolicy =>
      if rawPolicy = "" then .error s!"Invalid rule line {lineNumber}: missing policy"
      else do
        let path ← parsePath rawPath lineNumber
        let policy ← parsePolicy rawPolicy lineNumber
        return { path, policy, line := lineNumber }

/-- Lines that carry no rule: blank once trimmed, or a comment. -/
def skipsLine (trimmed : String) : Bool :=
  trimmed == "" || Text.startsWithChar '#' trimmed

/-- The walk of `parse_str` over the lines from index `idx` on. -/
def parseLines : List String → Nat → Except String (List GmapRule)
  | [], _ => .ok []
  | line :: rest, idx => do
    let trimmed := Text.trim line
    if skipsLine trimmed then
      parseLines rest (idx + 1)
    else
      let rule ← parseRuleLine trimmed (idx + 1)
      let rules ← parseLines rest (idx + 1)
      return rule :: rules

def parseStr (contents : String) : Except String (List GmapRule) :=
  parseLines (Text.lines contents) 0

example : parseStr "# team\n_ = forbidden\npack/main = public\n"
    = .ok [⟨⟨none, none, none⟩, .Forbidden, 2⟩, ⟨⟨some "pack", some "main", none⟩, .Public, 3⟩] := by
  decide

/-!
## The access decision

`src/gmap/eval.rs`. One walk over the rules keeps the most specific match, and the later
one among equally specific matches.
-/

structure MatchDecision where
  policy : Policy
  rank : Nat
deriving DecidableEq, Repr

def matchesTarget (rule target : GmapPath) : Bool :=
  match rule with
  | ⟨none, none, none⟩ => true
  | ⟨some pack, none, none⟩ => target.pack == some pack
  | ⟨some pack, some flow, none⟩ =>
    if flow == "_" then target.pack == some pack
    else target.pack == some pack && target.flow == some flow
  | ⟨some pack, some flow, some node⟩ =>
    target.pack == some pack && target.flow == some flow && target.node == some node
  | _ => false

def specificityRank : GmapPath → Nat
  | ⟨none, none, none⟩ => 0
  | ⟨some _, none, none⟩ => 3
  | ⟨some _, some flow, none⟩ => if flow == "_" then 2 else 4
  | ⟨some _, some _, some _⟩ => 5
  | _ => 0

/-- The loop of `eval_policy` from index `idx` on, with the decision kept so far and the
index it was kept at. -/
def evalPolicyFrom (target : GmapPath) :
    List GmapRule → Nat → Option MatchDecision → Nat → Option MatchDecision
  | [], _, best, _ => best
  | rule :: rules, idx, best, bestIndex =>
    if !matchesTarget rule.path target then
      evalPolicyFrom target rules (idx + 1) best bestIndex
    else
      let rank := specificityRank rule.path
      let candidate : MatchDecision := ⟨rule.policy, rank⟩
      match best with
      | none => evalPolicyFrom target rules (idx + 1) (some candidate) idx
      | some current =>
        if rank > current.rank || (rank == current.rank && idx > bestIndex) then
          evalPolicyFrom target rules (idx + 1) (some candidate) idx
        else
          evalPolicyFrom target rules (idx + 1) best bestIndex

def evalPolicy (rules : List GmapRule) (target : GmapPath) : Option MatchDecision :=
  evalPolicyFrom target rules 0 none 0

def evalWithOverlay (tenantRules teamRules : List GmapRule) (target : GmapPath) : Option MatchDecision :=
  (evalPolicy teamRules target).or (evalPolicy tenantRules target)

end Gmap
