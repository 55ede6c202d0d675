import GreenticOperator.Demo.Repl

/-!
# Going back in a dialogue

`src/demo/repl.rs`, `src/demo/history.rs`. The history has, below what is shown now, what was shown when each click
was made that was not undone. Going back shows that again, with the inputs there were when it was shown first.
The runner goes on from where the flow is, and inputs that were set since are not in the history, so it is the state
before the click where there are none and the flow is where it was (`keeps_iff_meets`).
-/

namespace Demo.Repl

open Json Json.Value Prompt
open Card (CardView detectAdaptiveCardView)
open Commands
open QaSetup (FormSpec Terminal Collected collectLine mergeInputs renderQaCard validateAnswersAgainstFormSpec knownInput)

variable {ω κ : Type}

/-! ## What is to be restored -/

/-- What a user goes on from: the card that is shown, the inputs that are set, and where the flow is. -/
structure View (κ : Type) where
  currentCard : Option CardView
  pendingInputs : List (String × String)
  snapshot : Option κ

def DemoRepl.view (repl : DemoRepl ω κ) : View κ := ⟨repl.currentCard, repl.pendingInputs, repl.runner.snapshot⟩

/-- A click: what the user saw when it was made, and what had been kept of that. -/
structure ClickMade (κ : Type) where
  view : View κ
  kept : Option Snapshot

/-- The clicks that are not undone, the latest first, and what the user saw at the command before a setup. -/
structure Memory (κ : Type) where
  clicks : List (ClickMade κ)
  atCommand : View κ

/-- A line that a dialogue reads, with what was before it and what is after it. -/
structure LineRead (ω κ : Type) where
  memory : Memory κ
  before : Session ω κ
  event : Event
  after : Session ω κ

/-- The memory with the command that is read now. -/
def Memory.looks (memory : Memory κ) (s : Session ω κ) : Memory κ :=
  match s.place with
  | .command => { memory with atCommand := s.repl.view }
  | .setup .. => memory

def Memory.next (memory : Memory κ) (s : Session ω κ) (event : Event) : Memory κ :=
  match event with
  | .clicked => { memory with clicks := ⟨s.repl.view, s.repl.history.head?⟩ :: memory.clicks }
  | .restored => { memory with clicks := memory.clicks.tail }
  | _ => memory

/-- The lines of an input that leave a dialogue to the next one. -/
def linesRead (flow : Flow ω κ) : Memory κ → Session ω κ → List String → List (LineRead ω κ)
  | _, _, [] => []
  | memory, s, line :: rest =>
    let memory := memory.looks s
    match s.readLine flow line with
    | (event, .again after) =>
      { memory, before := s, event, after } :: linesRead flow (memory.next s event) after rest
    | (_, .done _) => []

/-- The lines that are read in a dialogue from its start. -/
def DemoRepl.linesRead (flow : Flow ω κ) (repl : DemoRepl ω κ) (script : List String) : List (LineRead ω κ) :=
  match repl.untilBlocked flow with
  | .again s => Repl.linesRead flow { clicks := [], atCommand := s.repl.view } s script
  | .done _ => []

/-- **What is promised of a line**: going back restores the view before the last click that was not undone, and a command
that fails leaves the view as it is, a setup that which there was before it. -/
def LineRead.Keeps (read : LineRead ω κ) : Prop :=
  match read.event with
  | .restored => ∃ click rest, read.memory.clicks = click :: rest ∧ read.after.repl.view = click.view
  | .refused => read.after.repl.view = read.before.repl.view
  | .setupFailed => read.after.repl.view = read.memory.atCommand
  | _ => True

/-- A click was made on what had been kept, no card being shown and no input being set in between. -/
def ClickMade.AsKept (click : ClickMade κ) : Prop :=
  ∃ kept, click.kept = some kept ∧ kept.card = click.view.currentCard ∧ kept.pendingInputs = click.view.pendingInputs

/-- **What a line has to meet**: the click that is undone was made on what had been kept, and the flow is where it was
then; a setup that fails has shown no card and taken no input. -/
def LineRead.Meets (read : LineRead ω κ) : Prop :=
  match read.event with
  | .restored => ∀ click ∈ read.memory.clicks.head?, click.AsKept ∧ read.before.repl.runner.snapshot = click.view.snapshot
  | .setupFailed => read.before.repl.view = read.memory.atCommand
  | _ => True

/-! ## What a line does -/

section Steps

variable {flow : Flow ω κ} {repl : DemoRepl ω κ} {s after : Session ω κ} {line : String} {event : Event}
  {memory : Memory κ} {script : List String} {read : LineRead ω κ}

/-- All that a line does to the history, and to the view where it fails or goes back. -/
def Effect (s : Session ω κ) (event : Event) (after : Session ω κ) : Prop :=
  match event with
  | .clicked => ∃ new, after.repl.history = new :: s.repl.history
  | .restored => ∃ top previous rest, s.repl.history = top :: previous :: rest ∧ after.repl.history = previous :: rest
    ∧ after.repl.view = ⟨previous.card, previous.pendingInputs, s.repl.runner.snapshot⟩
  | .set => after.repl.history = s.repl.history
  | .asked => after.repl.history = s.repl.history
  | _ => after.repl = s.repl

theorem effect_click {actionId : String} (h : repl.click flow actionId = .again after) :
    Effect { repl, place := .command } .clicked after := by
  unfold DemoRepl.click DemoRepl.untilBlocked at h
  dsimp only at h
  split at h
  next =>
    cases h
    exact ⟨_, rfl⟩
  next => cases h
  next => cases h

theorem effect_handleSetup (flow : Flow ω κ) (repl : DemoRepl ω κ) (form : FormSpec) (answers : Value) (place : Place) :
    Effect { repl, place } (handleSetup flow repl form answers).1 (handleSetup flow repl form answers).2 := by
  unfold handleSetup
  split
  split
  next =>
    split
    next => exact rfl
    next => exact rfl
  next =>
    dsimp only
    split
    next => exact rfl
    next => exact rfl

theorem effect_commandLine (h : commandLine flow repl line = (event, .again after)) :
    Effect { repl, place := .command } event after := by
  unfold commandLine at h
  dsimp only at h
  split at h
  next =>
    cases h
    exact rfl
  next =>
    split at h
    next =>
      cases h
      exact rfl
    next =>
      cases h
      exact rfl
    next =>
      cases h
      exact rfl
    next =>
      -- Going back: the history has one snapshot at least below the latest.
      split at h
      next history snapshot hback =>
        cases h
        unfold goBack at hback
        split at hback
        next top _ rest hhistory =>
          cases hback
          exact ⟨top, _, rest, hhistory, rfl, rfl⟩
        next => cases hback
      next =>
        cases h
        exact rfl
    next =>
      split at h
      next form _ =>
        cases h
        exact effect_handleSetup flow repl form (.object []) .command
      next =>
        cases h
        exact rfl
    next => cases h
    next =>
      split at h
      next =>
        cases h
        exact rfl
      next =>
        cases h
        exact rfl
    next actionId _ =>
      split at h
      next =>
        obtain ⟨rfl, hclick⟩ := Prod.mk.inj h
        exact effect_click hclick
      next =>
        cases h
        exact rfl
    next =>
      cases h
      exact rfl

theorem effect_setupLine (flow : Flow ω κ) (repl : DemoRepl ω κ) (form : FormSpec) (answers : Value)
    (questionId line : String) :
    Effect { repl, place := .setup form answers questionId } (setupLine flow repl form answers questionId line).1
      (setupLine flow repl form answers questionId line).2 := by
  unfold setupLine
  dsimp only
  split
  next => exact rfl
  next => exact rfl
  next => exact rfl
  next => exact effect_handleSetup flow repl form _ _
  next => exact rfl

theorem readLine_command (flow : Flow ω κ) (repl : DemoRepl ω κ) (line : String) :
    Session.readLine flow { repl, place := .command } line = commandLine flow repl line := rfl

theorem readLine_setup (flow : Flow ω κ) (repl : DemoRepl ω κ) (form : FormSpec) (answers : Value)
    (questionId line : String) : Session.readLine flow { repl, place := .setup form answers questionId } line
      = ((setupLine flow repl form answers questionId line).1,
        .again (setupLine flow repl form answers questionId line).2) := rfl

theorem effect_readLine (h : s.readLine flow line = (event, .again after)) : Effect s event after := by
  obtain ⟨repl, place⟩ := s
  cases place with
  | command =>
    rw [readLine_command] at h
    exact effect_commandLine h
  | setup form answers questionId =>
    rw [readLine_setup, Prod.mk.injEq, Turn.again.injEq] at h
    obtain ⟨rfl, rfl⟩ := h
    exact effect_setupLine flow repl form answers questionId line

/-! ## Runs -/

/-- The history has what is shown now, and below that what was kept for each click that is not undone. -/
def Inv (memory : Memory κ) (s : Session ω κ) : Prop :=
  ∃ top kept, s.repl.history = top :: kept ∧ memory.clicks.map ClickMade.kept = kept.map some

theorem inv_untilBlocked (h : repl.untilBlocked flow = .again s) (hhistory : repl.history = []) :
    Inv { clicks := [], atCommand := s.repl.view } s := by
  unfold DemoRepl.untilBlocked at h
  dsimp only at h
  split at h
  next =>
    cases h
    rw [hhistory]
    exact ⟨_, [], rfl, rfl⟩
  next => cases h
  next => cases h

theorem clicks_looks (memory : Memory κ) (s : Session ω κ) : (memory.looks s).clicks = memory.clicks := by
  unfold Memory.looks
  split
  next => rfl
  next => rfl

theorem Inv.next (h : Inv memory s) (heffect : Effect s event after) : Inv (memory.next s event) after := by
  obtain ⟨top, kept, hhistory, hclicks⟩ := h
  cases event with
  | clicked =>
    obtain ⟨new, hnew⟩ := heffect
    refine ⟨new, top :: kept, hnew.trans (congrArg (List.cons new) hhistory), ?_⟩
    show s.repl.history.head? :: memory.clicks.map ClickMade.kept = some top :: kept.map some
    rw [hhistory, hclicks]
    rfl
  | restored =>
    obtain ⟨_, previous, rest, hbefore, hafter, -⟩ := heffect
    cases hhistory.symm.trans hbefore
    refine ⟨previous, rest, hafter, ?_⟩
    show memory.clicks.tail.map ClickMade.kept = rest.map some
    rw [List.map_tail, hclicks]
    rfl
  | set => exact ⟨top, kept, heffect.trans hhistory, hclicks⟩
  | asked => exact ⟨top, kept, heffect.trans hhistory, hclicks⟩
  | shown => exact ⟨top, kept, (congrArg DemoRepl.history heffect).trans hhistory, hclicks⟩
  | refused => exact ⟨top, kept, (congrArg DemoRepl.history heffect).trans hhistory, hclicks⟩
  | setupDone => exact ⟨top, kept, (congrArg DemoRepl.history heffect).trans hhistory, hclicks⟩
  | setupFailed => exact ⟨top, kept, (congrArg DemoRepl.history heffect).trans hhistory, hclicks⟩
  | quit => exact ⟨top, kept, (congrArg DemoRepl.history heffect).trans hhistory, hclicks⟩

/-- **One line**: it keeps what is promised exactly where it meets what it has to. -/
theorem keeps_iff_meets_of_effect (h : Inv memory s) (heffect : Effect s event after) :
    LineRead.Keeps ⟨memory, s, event, after⟩ ↔ LineRead.Meets ⟨memory, s, event, after⟩ := by
  obtain ⟨top, kept, hhistory, hclicks⟩ := h
  cases event with
  | restored =>
    obtain ⟨_, previous, rest, hbefore, -, hview⟩ := heffect
    cases hhistory.symm.trans hbefore
    obtain ⟨click, clicks, hmemory, hkept, -⟩ := List.map_eq_cons_iff.mp hclicks
    unfold LineRead.Keeps LineRead.Meets
    dsimp only
    rw [hview, hmemory]
    constructor
    · rintro ⟨_, _, ⟨⟩, heq⟩ _ ⟨⟩
      rw [← heq]
      exact ⟨⟨previous, hkept, by rw [← heq], by rw [← heq]⟩, rfl⟩
    · intro hmeets
      obtain ⟨⟨same, hsame, hcard, hinputs⟩, hsnapshot⟩ := hmeets click rfl
      cases hkept.symm.trans hsame
      refine ⟨click, clicks, rfl, ?_⟩
      rw [hcard, hinputs, hsnapshot]
  | refused => exact iff_of_true (congrArg DemoRepl.view heffect) trivial
  | setupFailed =>
    unfold LineRead.Keeps LineRead.Meets
    dsimp only
    rw [show after.repl = s.repl from heffect]
  | clicked => exact Iff.rfl
  | set => exact Iff.rfl
  | asked => exact Iff.rfl
  | shown => exact Iff.rfl
  | setupDone => exact Iff.rfl
  | quit => exact Iff.rfl

theorem keeps_iff_meets_of_inv (h : Inv memory s) (hread : read ∈ linesRead flow memory s script) :
    read.Keeps ↔ read.Meets := by
  induction script generalizing memory s with
  | nil => cases hread
  | cons line rest ih =>
    have hlooks : Inv (memory.looks s) s := by
      obtain ⟨top, kept, hhistory, hclicks⟩ := h
      exact ⟨top, kept, hhistory, by rw [clicks_looks, hclicks]⟩
    unfold linesRead at hread
    dsimp only at hread
    split at hread
    next event after hline =>
      have heffect := effect_readLine hline
      rcases List.mem_cons.mp hread with rfl | hread
      · exact keeps_iff_meets_of_effect hlooks heffect
      · exact ih (hlooks.next heffect) hread
    next => cases hread

/-- **Going back over runs.** In a dialogue all lines keep what is promised exactly where all of them meet what they
have to. -/
theorem keeps_iff_meets (flow : Flow ω κ) (runner : DemoRunner ω κ) (script : List String) :
    (∀ read ∈ (DemoRepl.new runner).linesRead flow script, read.Keeps)
      ↔ ∀ read ∈ (DemoRepl.new runner).linesRead flow script, read.Meets := by
  have heach : ∀ read ∈ (DemoRepl.new runner).linesRead flow script, (read.Keeps ↔ read.Meets) := by
    intro read hread
    unfold DemoRepl.linesRead at hread
    split at hread
    next s hstart => exact keeps_iff_meets_of_inv (inv_untilBlocked hstart rfl) hread
    next => cases hread
  exact ⟨fun h read hread => (heach read hread).mp (h read hread), fun h read hread => (heach read hread).mpr (h read hread)⟩

end Steps

/-! ### A flow that counts -/

/-- A flow that waits each time, and whose snapshot says how often. -/
def countingFlow : Flow Unit Nat where
  execute _ _ snapshot := ((), .waiting none (snapshot.getD 0 + 1) (.object []))
  terminal :=
    { parseF64 := fun _ => none
      renderCard := fun _ answers => (answers, none)
      promptPasswordAtEnd := .ok ""
      overflowChecks := true }
  packToFormSpec _ := none

def countingRunner : DemoRunner Unit Nat :=
  { initialInput := .object [], pendingInput := none, snapshot := none, stores := () }

/-- After a click and going back the flow is not where it was when the click was made. -/
theorem back_leaves_snapshot :
    ¬∀ read ∈ (DemoRepl.new countingRunner).linesRead countingFlow ["@click go", "@back"], read.Keeps := by
  intro h
  have hreads : ((DemoRepl.new countingRunner).linesRead countingFlow ["@click go", "@back"]).map
      (fun read => (read.event, read.memory.clicks.map (·.view.snapshot), read.after.repl.runner.snapshot))
      = [(.clicked, [], some 2), (.restored, [some 1], some 2)] := by decide +kernel
  obtain ⟨read, hread, heq⟩ : ∃ read ∈ (DemoRepl.new countingRunner).linesRead countingFlow ["@click go", "@back"],
      (read.event, read.memory.clicks.map (·.view.snapshot), read.after.repl.runner.snapshot)
        = (.restored, [some 1], some 2) := by
    apply List.mem_map.mp
    rw [hreads]
    exact List.mem_cons_of_mem _ List.mem_cons_self
  obtain ⟨hevent, hrest⟩ := Prod.mk.inj heq
  obtain ⟨hclicks, hsnapshot⟩ := Prod.mk.inj hrest
  have hkeeps := h read hread
  unfold LineRead.Keeps at hkeeps
  rw [hevent] at hkeeps
  obtain ⟨click, rest, hmemory, hview⟩ := hkeeps
  rw [hmemory, List.map_cons] at hclicks
  have hthen : click.view.snapshot = some 1 := (List.cons.inj hclicks).1
  have hnow : click.view.snapshot = some 2 := (congrArg View.snapshot hview).symm.trans hsnapshot
  exact absurd (hthen.symm.trans hnow) (by decide)

end Demo.Repl
