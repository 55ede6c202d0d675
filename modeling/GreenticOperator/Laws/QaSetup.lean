import GreenticOperator.QaSetup

/-!
# What a line answers

`src/qa_setup_wizard.rs`. A line that answers a question with choices is looked at as a number first and as the
text of a choice then, in the words that it is normalized to (`replyTo_of_choices`). A question that has to be
answered is asked again and again at the end of the input, so a form is gone through exactly where its lines
answer all such questions (`isSome_promptFormSpecAnswers_iff`).
-/

namespace QaSetup

open Json Json.Value Prompt

variable {terminal : Terminal} {question : QuestionSpec} {choices : List String} {line typed choice : String}

/-! ## Choices -/

/-- The choice that has a number, counted from one. -/
def numbered (choices : List String) (typed : String) : Option String :=
  (parseUsize typed).bind fun n => if n = 0 then none else choices[n - 1]?

theorem chooseBy_of_numbered {kind : QuestionType} (h : numbered choices typed = some choice) :
    chooseBy terminal kind choices typed = .answer (some (.string choice)) := by
  obtain ⟨n, hn, hchoice⟩ := Option.bind_eq_some_iff.mp h
  unfold chooseBy
  rw [hn]
  cases n with
  | zero => cases hchoice
  | succ i =>
    have hchoice : choices[i]? = some choice := hchoice
    dsimp only
    rw [hchoice]

theorem chooseBy_of_not_numbered {kind : QuestionType} (hzero : parseUsize typed ≠ some 0)
    (h : numbered choices typed = none) :
    chooseBy terminal kind choices typed = chooseTyped terminal kind choices typed := by
  unfold chooseBy
  cases hn : parseUsize typed with
  | none => rfl
  | some n =>
    cases n with
    | zero => exact absurd hn hzero
    | succ i =>
      have hchoice : choices[i]? = none := by
        rw [numbered, hn] at h
        exact h
      dsimp only
      rw [hchoice]

theorem chooseTyped_of_mem {kind : QuestionType} (h : typed ∈ choices) :
    chooseTyped terminal kind choices typed = .answer (some (parseTypedValue terminal kind typed)) :=
  if_pos (List.contains_iff_mem.mpr h)

theorem chooseTyped_of_not_mem {kind : QuestionType} (h : typed ∉ choices) :
    ∃ message, chooseTyped terminal kind choices typed = .again message :=
  ⟨_, if_neg (List.contains_iff_mem.not.mpr h)⟩

/-! ## The question that is asked -/

/-- A line is refused: the question is asked again, and what follows decides. -/
def AskedAgain (terminal : Terminal) (question : QuestionSpec) (line : String) : Prop :=
  ∀ reads rest, (askFormSpecQuestion terminal question).run (reads + 1) (line :: rest) ()
    = (askFormSpecQuestion terminal question).run reads rest ()

/-- A line is taken for the answer. -/
def Answers (terminal : Terminal) (question : QuestionSpec) (line : String) (value : Option Value) : Prop :=
  ∀ reads rest, (askFormSpecQuestion terminal question).run (reads + 1) (line :: rest) () = some (.answered value)

theorem askedAgain_of_replyTo {message : String} (h : replyTo terminal question line = .again message) :
    AskedAgain terminal question line := by
  intro reads rest
  simp only [Loop.run, askFormSpecQuestion, h, turnOf]

theorem answers_of_replyTo {value : Option Value} (h : replyTo terminal question line = .answer value) :
    Answers terminal question line value := by
  intro reads rest
  simp only [Loop.run, askFormSpecQuestion, h, turnOf]

/-- The words that a line is taken for. -/
def wordsOf (question : QuestionSpec) (line : String) : String := normalizeAnswer (Text.trim line) question.kind

/-- **What a line does** for a question with choices. A blank line leaves it to the default; any other is looked at in
its words: whether they fit the pattern, then whether they are the number of a choice, then whether they are the text
of one. -/
structure ReadsAsAsked (terminal : Terminal) (question : QuestionSpec) (choices : List String) (line : String) : Prop where
  default : Text.trim line = "" → ∀ value, question.defaultValue = some value →
    Answers terminal question line (some (parseTypedValue terminal question.kind value))
  missing : Text.trim line = "" → question.defaultValue = none → question.required = true →
    AskedAgain terminal question line
  skipped : Text.trim line = "" → question.defaultValue = none → question.required = false →
    Answers terminal question line none
  unfit : Text.trim line ≠ "" → failsPattern question (wordsOf question line) ≠ none → AskedAgain terminal question line
  byNumber : Text.trim line ≠ "" → failsPattern question (wordsOf question line) = none →
    ∀ choice, numbered choices (wordsOf question line) = some choice →
      Answers terminal question line (some (.string choice))
  byText : Text.trim line ≠ "" → failsPattern question (wordsOf question line) = none →
    numbered choices (wordsOf question line) = none → wordsOf question line ∈ choices →
      Answers terminal question line (some (parseTypedValue terminal question.kind (wordsOf question line)))
  other : Text.trim line ≠ "" → failsPattern question (wordsOf question line) = none →
    numbered choices (wordsOf question line) = none → wordsOf question line ∉ choices →
      AskedAgain terminal question line

theorem replyTo_blank (h : Text.trim line = "") : replyTo terminal question line
    = match question.defaultValue with
      | some value => .answer (some (parseTypedValue terminal question.kind value))
      | none => if question.required then .again "  This field is required." else .answer none :=
  if_pos h

theorem replyTo_unfit {pattern : String} (h : Text.trim line ≠ "")
    (hpattern : failsPattern question (wordsOf question line) = some pattern) :
    replyTo terminal question line = .again s!"  Invalid format. Expected pattern: {pattern}" := by
  unfold replyTo
  rw [if_neg h]
  dsimp only
  rw [← wordsOf, hpattern]

theorem replyTo_choice (hchoices : question.choices = some choices) (hne : choices ≠ []) (h : Text.trim line ≠ "")
    (hpattern : failsPattern question (wordsOf question line) = none) :
    replyTo terminal question line = chooseBy terminal question.kind choices (wordsOf question line) := by
  cases choices with
  | nil => exact absurd rfl hne
  | cons first rest =>
    unfold replyTo
    rw [if_neg h]
    dsimp only
    rw [← wordsOf, hpattern, hchoices]

/-- **Choices.** A line other than the number zero is never too much for a question with choices: it does what is
asked of it. -/
theorem readsAsAsked_of_choices (hchoices : question.choices = some choices) (hne : choices ≠ [])
    (hzero : parseUsize (wordsOf question line) ≠ some 0) : ReadsAsAsked terminal question choices line where
  default hblank value hdefault := by
    apply answers_of_replyTo
    rw [replyTo_blank hblank, hdefault]
  missing hblank hdefault hrequired := by
    apply askedAgain_of_replyTo
    rw [replyTo_blank hblank, hdefault, hrequired]
    rfl
  skipped hblank hdefault hrequired := by
    apply answers_of_replyTo
    rw [replyTo_blank hblank, hdefault, hrequired]
    rfl
  unfit hline hpattern := by
    obtain ⟨pattern, hpattern⟩ := Option.ne_none_iff_exists'.mp hpattern
    exact askedAgain_of_replyTo (replyTo_unfit hline hpattern)
  byNumber hline hpattern choice hchoice := by
    apply answers_of_replyTo
    rw [replyTo_choice hchoices hne hline hpattern, chooseBy_of_numbered hchoice]
  byText hline hpattern hnone hmem := by
    apply answers_of_replyTo
    rw [replyTo_choice hchoices hne hline hpattern, chooseBy_of_not_numbered hzero hnone, chooseTyped_of_mem hmem]
  other hline hpattern hnone hmem := by
    obtain ⟨message, hmessage⟩ := @chooseTyped_of_not_mem terminal choices (wordsOf question line) question.kind hmem
    apply askedAgain_of_replyTo
    rw [replyTo_choice hchoices hne hline hpattern, chooseBy_of_not_numbered hzero hnone, hmessage]

/-! ### Choices that are numbers -/

/-- Nothing is done for a text that is no integer. -/
def plainTerminal : Terminal where
  parseF64 _ := none
  renderCard _ answers := (answers, none)
  promptPasswordAtEnd := .error "read secret: unexpected end of file"
  overflowChecks := true

/-- A question that is to be answered with one of two numbers, listed the other way round. -/
def lanes : QuestionSpec where
  id := "lanes"
  kind := .Enum
  description := none
  required := true
  choices := some ["2", "1"]
  defaultValue := none
  secret := false
  constraint := none

theorem readsAsAsked_lanes : ReadsAsAsked plainTerminal lanes ["2", "1"] "1\n" :=
  readsAsAsked_of_choices rfl (by decide) (by decide +kernel)

/-- The choice that a line means: the one whose text it is, or else the one whose number it is. -/
def meant (choices : List String) (typed : String) : Option String :=
  if typed ∈ choices then some typed else numbered choices typed

/-- What is expected of a line: the choice that it means is taken, as it is or as a value of its kind; where it means
none the question is asked again. -/
def SelectsMeant (terminal : Terminal) (question : QuestionSpec) (choices : List String) (line : String) : Prop :=
  match meant choices (Text.trim line) with
  | some choice => Answers terminal question line (some (.string choice))
    ∨ Answers terminal question line (some (parseTypedValue terminal question.kind choice))
  | none => AskedAgain terminal question line

/-- The number of a choice goes before the text of another, and zero is too much. -/
theorem lanes_not_selected : ¬SelectsMeant plainTerminal lanes ["2", "1"] "1\n"
    ∧ (askFormSpecQuestion plainTerminal lanes).run 1 ["0\n"] () = some .panicked := by
  have hmeant : meant ["2", "1"] (Text.trim "1\n") = some "1" := by decide +kernel
  have htaken : Answers plainTerminal lanes "1\n" (some (.string "2")) := answers_of_replyTo rfl
  refine ⟨?_, rfl⟩
  unfold SelectsMeant
  rw [hmeant]
  intro h
  have hother : Answers plainTerminal lanes "1\n" (some (.string "1")) := h.elim id id
  have hsame := (htaken 0 []).symm.trans (hother 0 [])
  simp at hsame

/-! ## Forms at the end of the input -/

section Forms

variable {s : FormState} {questions : List QuestionSpec} {answers : List (String × Value)} {script : List String}
  {reads : Nat}

/-- A line for which a question is asked again. -/
def refuses (terminal : Terminal) (question : QuestionSpec) (line : String) : Bool :=
  replyTo terminal question line matches .again _

/-- A question is not asked for ever at the end of the input. -/
def endsAtEnd (terminal : Terminal) (question : QuestionSpec) : Bool :=
  !(replyAtEnd terminal question matches .ok (.again _))

/-- **The lines answer all questions of a form** that have to be answered: each question passes over lines that it
refuses, and takes the next one; where there is none it is one that the end of the input answers. What fails, or
panics, ends it all. -/
def Answered (terminal : Terminal) : List QuestionSpec → List String → Prop
  | [], _ => True
  | question :: rest, script =>
    if question.id = "" then Answered terminal rest script
    else
      match script.dropWhile (refuses terminal question) with
      | line :: back => replyTo terminal question line matches .panicked ∨ Answered terminal rest back
      | [] => endsAtEnd terminal question
        ∧ ((replyAtEnd terminal question matches .ok (.answer _)) → Answered terminal rest [])

/-- What is left of a form, from the next question on. -/
def runFrom (terminal : Terminal) (questions : List QuestionSpec) (answers : List (String × Value)) (reads : Nat)
    (script : List String) : Option FormEnd :=
  match nextQuestion questions answers with
  | .done r => some r
  | .again s => (promptLoop terminal).run reads script s

theorem run_of_refuses (h : refuses terminal s.question line = true) (reads : Nat) (rest : List String) :
    (promptLoop terminal).run (reads + 1) (line :: rest) s = (promptLoop terminal).run reads rest s := by
  unfold refuses at h
  split at h
  next hreply => simp only [Loop.run, promptLoop, askFormSpecQuestion, hreply, turnOf, afterRead]
  next => cases h

/-- Lines that are refused are passed over. -/
theorem run_of_all_refuses {front back : List String} (h : ∀ line ∈ front, refuses terminal s.question line = true)
    (reads : Nat) :
    (promptLoop terminal).run (reads + front.length) (front ++ back) s = (promptLoop terminal).run reads back s := by
  induction front with
  | nil => rfl
  | cons line front ih =>
    rw [List.length_cons, ← Nat.add_assoc, List.cons_append, run_of_refuses (h line List.mem_cons_self)]
    exact ih fun other hother => h other (List.mem_cons_of_mem line hother)

theorem run_cons_of_next (h : (promptLoop terminal).onLine s line = nextQuestion questions answers) (reads : Nat)
    (rest : List String) :
    (promptLoop terminal).run (reads + 1) (line :: rest) s = runFrom terminal questions answers reads rest := by
  rw [Loop.run, h, runFrom]
  cases nextQuestion questions answers with
  | again next => rfl
  | done r => rfl

theorem run_nil_of_next (h : (promptLoop terminal).onEnd s = nextQuestion questions answers) (reads : Nat) :
    (promptLoop terminal).run (reads + 1) [] s = runFrom terminal questions answers reads [] := by
  rw [Loop.run, h, runFrom]
  cases nextQuestion questions answers with
  | again next => rfl
  | done r => rfl

/-- What an answer leaves of a form is the next question. -/
theorem afterRead_answered (s : FormState) (value : Option Value) :
    ∃ answers, afterRead s (.done (.answered value)) = nextQuestion s.rest answers := by
  cases value with
  | none => exact ⟨s.answers, rfl⟩
  | some value => exact ⟨insertField s.question.id value s.answers, rfl⟩

/-- What holds of a form from the next question on, where it has so many reads. -/
def EndsIfAnswered (terminal : Terminal) (questions : List QuestionSpec) : Prop :=
  ∀ answers reads script, script.length + questions.length ≤ reads →
    ((runFrom terminal questions answers reads script).isSome ↔ Answered terminal questions script)

/-- A question that takes a line. -/
theorem isSome_run_cons_iff (hrest : EndsIfAnswered terminal s.rest) (hline : refuses terminal s.question line = false)
    {back : List String} (hreads : back.length + s.rest.length ≤ reads) :
    ((promptLoop terminal).run (reads + 1) (line :: back) s).isSome
      ↔ replyTo terminal s.question line matches .panicked ∨ Answered terminal s.rest back := by
  cases hreply : replyTo terminal s.question line with
  | answer value =>
    obtain ⟨answers, hnext⟩ := afterRead_answered s value
    have hturn : (promptLoop terminal).onLine s line = nextQuestion s.rest answers := by
      simp only [promptLoop, askFormSpecQuestion, hreply, turnOf, hnext]
    rw [run_cons_of_next hturn, hrest answers reads back hreads]
    exact (or_iff_right nofun).symm
  | again message =>
    unfold refuses at hline
    rw [hreply] at hline
    cases hline
  | panicked =>
    simp only [Loop.run, promptLoop, askFormSpecQuestion, hreply, turnOf, afterRead]
    exact iff_of_true rfl (Or.inl trivial)

/-- A question that is asked at the end of the input. -/
theorem isSome_run_nil_iff (hrest : EndsIfAnswered terminal s.rest) (hreads : s.rest.length ≤ reads) :
    ((promptLoop terminal).run (reads + 1) [] s).isSome
      ↔ endsAtEnd terminal s.question
        ∧ ((replyAtEnd terminal s.question matches .ok (.answer _)) → Answered terminal s.rest []) := by
  unfold endsAtEnd
  cases hreply : replyAtEnd terminal s.question with
  | error reason =>
    simp only [Loop.run, promptLoop, askFormSpecQuestion, hreply, turnOf, afterRead]
    exact iff_of_true rfl ⟨rfl, fun h => absurd h Bool.false_ne_true⟩
  | ok reply =>
    cases reply with
    | answer value =>
      obtain ⟨answers, hnext⟩ := afterRead_answered s value
      have hturn : (promptLoop terminal).onEnd s = nextQuestion s.rest answers := by
        simp only [promptLoop, askFormSpecQuestion, hreply, turnOf, hnext]
      have hlength : ([] : List String).length + s.rest.length ≤ reads := by
        rw [List.length_nil, Nat.zero_add]
        exact hreads
      rw [run_nil_of_next hturn, hrest answers reads [] hlength]
      exact ⟨fun h => ⟨rfl, fun _ => h⟩, fun h => h.2 rfl⟩
    | again message =>
      have hstays : (promptLoop terminal).onEnd s = .again s := by
        simp only [promptLoop, askFormSpecQuestion, hreply, turnOf, afterRead]
      rw [Loop.run_nil_of_stays hstays]
      exact iff_of_false Bool.false_ne_true fun h => absurd h.1 Bool.false_ne_true
    | panicked =>
      simp only [Loop.run, promptLoop, askFormSpecQuestion, hreply, turnOf, afterRead]
      exact iff_of_true rfl ⟨rfl, fun h => absurd h Bool.false_ne_true⟩

/-- **One question of a form.** -/
theorem isSome_run_question_iff (hrest : EndsIfAnswered terminal s.rest) (hid : s.question.id ≠ "")
    (hreads : script.length + (s.rest.length + 1) ≤ reads) :
    ((promptLoop terminal).run reads script s).isSome ↔ Answered terminal (s.question :: s.rest) script := by
  have hsplit := (List.takeWhile_append_dropWhile (p := refuses terminal s.question) (l := script)).symm
  have hfront : ∀ line ∈ script.takeWhile (refuses terminal s.question), refuses terminal s.question line = true :=
    fun line hmem => List.mem_takeWhile_imp hmem
  have hlength := congrArg List.length hsplit
  rw [List.length_append] at hlength
  rw [Answered, if_neg hid]
  generalize script.takeWhile (refuses terminal s.question) = front at hsplit hfront hlength
  generalize hback : script.dropWhile (refuses terminal s.question) = back at hsplit hlength ⊢
  obtain ⟨left, rfl⟩ : ∃ left, reads = left + 1 + front.length := ⟨reads - 1 - front.length, by omega⟩
  rw [hsplit, run_of_all_refuses hfront]
  cases back with
  | nil =>
    rw [List.length_nil] at hlength
    exact isSome_run_nil_iff hrest (by omega)
  | cons line back =>
    rw [List.length_cons] at hlength
    have hline : refuses terminal s.question line = false := by
      have hhead := List.head?_dropWhile_not (refuses terminal s.question) script
      rw [hback] at hhead
      exact hhead
    exact isSome_run_cons_iff hrest hline (by omega)

/-- **A form** is gone through where its lines answer it, with a read for each line and each question. -/
theorem endsIfAnswered (terminal : Terminal) (questions : List QuestionSpec) : EndsIfAnswered terminal questions := by
  induction questions with
  | nil => exact fun answers reads script _ => iff_of_true rfl trivial
  | cons question rest ih =>
    intro answers reads script hreads
    rw [List.length_cons] at hreads
    by_cases hid : question.id = ""
    · rw [runFrom, nextQuestion, if_pos hid, Answered, if_pos hid]
      exact ih answers reads script (by omega)
    · rw [runFrom, nextQuestion, if_neg hid]
      exact isSome_run_question_iff ih hid hreads

theorem isSome_promptFormSpecAnswers_iff (terminal : Terminal) (form : FormSpec) {script : List String} {reads : Nat}
    (h : script.length + form.questions.length ≤ reads) :
    (promptFormSpecAnswers terminal form reads script).isSome ↔ Answered terminal form.questions script :=
  endsIfAnswered terminal form.questions [] reads script h

/-- The wizard that shows cards ends at the end of the input at the latest. -/
theorem isSome_runInteractiveCardWizard (terminal : Terminal) (form : FormSpec) (script : List String) :
    (runInteractiveCardWizard terminal form (script.length + 1) script).isSome := by
  unfold runInteractiveCardWizard
  split
  next => rfl
  next => exact Loop.isSome_run_of_onEnd fun _ => ⟨_, rfl⟩

end Forms

end QaSetup
