import GreenticOperator.Demo.Repl
import GreenticOperator.Laws.QaSetup

/-!
# Whether a dialogue ends

`src/demo/repl.rs`, `src/qa_setup_wizard.rs`. The loops of the dialogue take the end of the input for a blank
line, which they pass over. So they end where a command ends them, within the reads of the lines, and otherwise read
on forever (`loops_end_iff`). The wizard that shows cards looks for the end of the input, and always ends.
-/

namespace Demo.Repl

open Json Json.Value Prompt
open Card (CardView detectAdaptiveCardView)
open Commands
open QaSetup (FormSpec QuestionSpec Terminal Collected collectLine mergeInputs renderQaCard Answered
  validateAnswersAgainstFormSpec knownInput promptFormSpecAnswers runInteractiveCardWizard)

variable {ω κ : Type} {flow : Flow ω κ} {repl : DemoRepl ω κ} {s s' : Session ω κ} {line : String} {script : List String}
  {reads : Nat}

/-! ## Commands that end a dialogue -/

/-- A line ends a dialogue: it quits, or it is a click on an action there is, after which the flow does not wait. -/
def EndsDialogue (flow : Flow ω κ) (s : Session ω κ) (line : String) : Prop :=
  s.place = .command ∧ Text.trim line ≠ "" ∧
    (parseCommand (Text.trim line) = .ok .Quit
      ∨ ∃ actionId, parseCommand (Text.trim line) = .ok (.Click actionId) ∧ knownAction s.repl.currentCard actionId = true
        ∧ ∀ s', s.repl.click flow actionId ≠ .again s')

/-- Nothing of a dialogue is left by the lines of its input: the flow does not wait at all, or a line ends it after those
before it. -/
def EndsByCommand (flow : Flow ω κ) (repl : DemoRepl ω κ) (script : List String) : Prop :=
  ∀ s, repl.untilBlocked flow = .again s →
    ∃ front line back s', script = front ++ line :: back ∧ (dialogue flow).feed front s = .again s'
      ∧ EndsDialogue flow s' line

/-- All commands but two leave the dialogue to the next line. -/
theorem commandLine_goes_on {command : DemoCommand} (hblank : Text.trim line ≠ "")
    (hparse : parseCommand (Text.trim line) = .ok command) (hquit : command ≠ .Quit)
    (hclick : ∀ actionId, command ≠ .Click actionId) : ∃ s', (commandLine flow repl line).2 = .again s' := by
  unfold commandLine
  rw [if_neg hblank, hparse]
  cases command with
  | Show => exact ⟨_, rfl⟩
  | Json => exact ⟨_, rfl⟩
  | Help => exact ⟨_, rfl⟩
  | Back =>
    dsimp only
    split
    next => exact ⟨_, rfl⟩
    next => exact ⟨_, rfl⟩
  | Setup provider =>
    dsimp only
    split
    next => exact ⟨_, rfl⟩
    next => exact ⟨_, rfl⟩
  | Input field value =>
    dsimp only
    split
    next => exact ⟨_, rfl⟩
    next => exact ⟨_, rfl⟩
  | Click actionId => exact absurd rfl (hclick actionId)
  | Quit => exact absurd rfl hquit

theorem commandLine_done_iff :
    (∃ r, (commandLine flow repl line).2 = .done r) ↔ EndsDialogue flow { repl, place := .command } line := by
  unfold EndsDialogue
  by_cases hblank : Text.trim line = ""
  · rw [commandLine, if_pos hblank]
    exact iff_of_false nofun fun h => h.2.1 hblank
  · cases hparse : parseCommand (Text.trim line) with
    | error reason =>
      rw [commandLine, if_neg hblank, hparse]
      refine iff_of_false nofun ?_
      rintro ⟨-, -, h | ⟨actionId, h, -⟩⟩
      · cases h
      · cases h
    | ok command =>
      by_cases hquit : command = .Quit
      · subst hquit
        rw [commandLine, if_neg hblank, hparse]
        exact iff_of_true ⟨_, rfl⟩ ⟨rfl, hblank, Or.inl rfl⟩
      · by_cases hclick : ∃ actionId, command = .Click actionId
        · obtain ⟨actionId, rfl⟩ := hclick
          rw [commandLine, if_neg hblank, hparse]
          dsimp only
          cases hknown : knownAction repl.currentCard actionId with
          | false =>
            refine iff_of_false nofun ?_
            rintro ⟨-, -, h | ⟨other, h, hother, -⟩⟩
            · cases h
            · cases h
              exact absurd (hknown.symm.trans hother) nofun
          | true =>
            rw [if_pos rfl]
            dsimp only
            constructor
            · rintro ⟨r, hr⟩
              refine ⟨rfl, hblank, Or.inr ⟨actionId, rfl, hknown, ?_⟩⟩
              intro s' hs'
              rw [hr] at hs'
              cases hs'
            · rintro ⟨-, -, h | ⟨other, h, -, hends⟩⟩
              · cases h
              · cases h
                cases hturn : repl.click flow actionId with
                | again s' => exact absurd hturn (hends s')
                | done r => exact ⟨r, rfl⟩
        · obtain ⟨s', hs'⟩ := @commandLine_goes_on _ _ flow repl line command hblank hparse hquit (not_exists.mp hclick)
          rw [hs']
          refine iff_of_false nofun ?_
          rintro ⟨-, -, h | ⟨actionId, h, -⟩⟩
          · exact hquit (Except.ok.inj h)
          · exact hclick ⟨actionId, Except.ok.inj h⟩

/-- A line ends a dialogue where it does one of the two things that end it. -/
theorem onLine_done_iff : (∃ r, (dialogue flow).onLine s line = .done r) ↔ EndsDialogue flow s line := by
  obtain ⟨repl, place⟩ := s
  cases place with
  | command => exact commandLine_done_iff
  | setup form answers questionId => exact iff_of_false nofun fun h => absurd h.1 nofun

theorem onEnd_dialogue (flow : Flow ω κ) (s : Session ω κ) : (dialogue flow).onEnd s = .again s := by
  obtain ⟨repl, place⟩ := s
  cases place with
  | command => rfl
  | setup form answers questionId => rfl

/-- **A dialogue** that is given a read for each line ends where a line ends it. -/
theorem isSome_run_iff (flow : Flow ω κ) (repl : DemoRepl ω κ) (h : script.length ≤ reads) :
    (repl.run flow reads script).isSome ↔ EndsByCommand flow repl script := by
  unfold DemoRepl.run EndsByCommand
  cases hstart : repl.untilBlocked flow with
  | done r => exact iff_of_true rfl nofun
  | again s =>
    dsimp only
    rw [Loop.isSome_run_iff (onEnd_dialogue flow) h]
    constructor
    · rintro ⟨r, hr⟩ _ ⟨⟩
      obtain ⟨front, line, back, s', hscript, hfront, hline⟩ := Loop.feed_eq_done_iff.mp hr
      exact ⟨front, line, back, s', hscript, hfront, onLine_done_iff.mp ⟨r, hline⟩⟩
    · intro hends
      obtain ⟨front, line, back, s', hscript, hfront, hline⟩ := hends s rfl
      obtain ⟨r, hr⟩ := onLine_done_iff.mpr hline
      exact ⟨r, Loop.feed_eq_done_iff.mpr ⟨front, line, back, s', hscript, hfront, hr⟩⟩

/-! ## The loops -/

/-- **Loops that read lines.** With a read for each line and each question, or with any number beyond that, the dialogue
ends where a command among its lines ends it, and a form where its lines answer it; the wizard that shows cards always
ends. -/
theorem loops_end_iff (flow : Flow ω κ) (repl : DemoRepl ω κ) (form : FormSpec) (script : List String) :
    (∀ reads, script.length ≤ reads → ((repl.run flow reads script).isSome ↔ EndsByCommand flow repl script))
    ∧ (∀ reads, script.length + form.questions.length ≤ reads →
      ((promptFormSpecAnswers flow.terminal form reads script).isSome ↔ Answered flow.terminal form.questions script))
    ∧ (runInteractiveCardWizard flow.terminal form (script.length + 1) script).isSome :=
  ⟨fun _ h => isSome_run_iff flow repl h,
    fun _ h => QaSetup.isSome_promptFormSpecAnswers_iff flow.terminal form h,
    QaSetup.isSome_runInteractiveCardWizard flow.terminal form script⟩

/-! ### A flow that always waits -/

/-- A flow that counts how often it was blocked, and a form that asks the same question over and over. -/
def waitingFlow : Flow Unit Nat where
  execute _ _ snapshot := ((), .waiting none (snapshot.getD 0 + 1) (.object []))
  terminal := { QaSetup.plainTerminal with renderCard := fun _ answers => (answers, some "lanes") }
  packToFormSpec _ := some { questions := [QaSetup.lanes] }

def waitingRepl : DemoRepl Unit Nat :=
  .new { initialInput := .object [], pendingInput := none, snapshot := none, stores := () }

/-- No number of reads is enough once the input is at its end: not for the commands, not for a setup that was begun, not
for a question that has to be answered. -/
theorem waiting_never_ends :
    (¬∃ reads, (waitingRepl.run waitingFlow reads []).isSome)
    ∧ (¬∃ reads, (waitingRepl.run waitingFlow reads ["@setup"]).isSome)
    ∧ ¬∃ reads, (promptFormSpecAnswers waitingFlow.terminal { questions := [QaSetup.lanes] } reads []).isSome := by
  refine ⟨?_, ?_, ?_⟩
  · rintro ⟨reads, h⟩
    have hnone : waitingRepl.run waitingFlow reads [] = none := Loop.run_nil_of_stays (onEnd_dialogue waitingFlow _) reads
    rw [hnone] at h
    cases h
  · rintro ⟨reads, h⟩
    have hnone : waitingRepl.run waitingFlow reads ["@setup"] = none := by
      cases reads with
      | zero => rfl
      | succ reads => exact Loop.run_nil_of_stays (onEnd_dialogue waitingFlow _) reads
    rw [hnone] at h
    cases h
  · rintro ⟨reads, h⟩
    have hnone : promptFormSpecAnswers waitingFlow.terminal { questions := [QaSetup.lanes] } reads [] = none :=
      Loop.run_nil_of_stays rfl reads
    rw [hnone] at h
    cases h

end Demo.Repl
