import GreenticOperator.HttpIngress.Pipeline
import GreenticOperator.Laws.HttpIngress.TelegramForm

/-!
# What the pipeline keeps in every interleaving

However the threads of requests take their turns, a thread answers each envelope of its batch once and
dispatches each reply once, both in order, unless the sending of a reply fails or a form cannot be settled
(`handled_of_run`). The books of a thread (`Accounts`) are kept by each of its steps.
-/

namespace HttpIngress

open Json MessagingUniversal Threads

/-! ## One envelope and its form -/

/-- An envelope with what the form that it takes adds to it. -/
def settle (taken : Option TelegramFormState) (envelope : Message) : Message :=
  taken.elim envelope fun form => injectSubmit form (withText form envelope)

/-- The forms that are left once one is taken. -/
def leftForms (taken : Option (String × TelegramFormState)) (forms : TelegramFormStore) : TelegramFormStore :=
  taken.elim forms fun entry => Function.update forms entry.1 none

def tookEvents (taken : Option (String × TelegramFormState)) : List Event :=
  (taken.map fun entry => Event.took entry.1 entry.2).toList

theorem takenForm_eq {p : Pipeline} (h : p.hasForms = true) (forms : TelegramFormStore) (envelope : Message) :
    takenForm p forms envelope = (claims envelope).bind fun chat => (forms chat).map (Prod.mk chat) := by
  unfold takenForm claims
  rw [h, Bool.true_and]
  by_cases hpending : hasPendingForm true envelope = true
  · rw [if_pos hpending, if_pos hpending]
    cases envelope.meta "chat_id" with
    | none => rfl
    | some chat =>
      change ((forms chat).bind fun form => some (chat, form)) = (forms chat).map (Prod.mk chat)
      cases forms chat <;> rfl
  · rw [if_neg hpending, if_neg hpending]
    rfl

theorem forms_of_takenForm {p : Pipeline} {forms : TelegramFormStore} {envelope : Message} {chat : String}
    {form : TelegramFormState} (h : takenForm p forms envelope = some (chat, form)) : forms chat = some form := by
  cases hforms : p.hasForms with
  | false =>
    unfold takenForm at h
    rw [hforms] at h
    cases h
  | true =>
    rw [takenForm_eq hforms] at h
    obtain ⟨other, -, h⟩ := Option.bind_eq_some_iff.mp h
    obtain ⟨found, hfound, h⟩ := Option.map_eq_some_iff.mp h
    cases h
    exact hfound

theorem withText_of_injectText {form : TelegramFormState} {envelope filled : Message}
    (h : injectText form envelope = some filled) : filled = withText form envelope := by
  classical
  rw [injectText_eq] at h
  split at h
  · exact (Option.some.inj h).symm
  · cases h

theorem preprocessOne_settle {p : Pipeline} {forms : TelegramFormStore} {envelope result : Message}
    {store : Option TelegramFormStore}
    (h : preprocessOne (if p.hasForms then some forms else none) envelope = some (result, store)) :
    result = settle ((takenForm p forms envelope).map Prod.snd) envelope
      ∧ store.getD forms = leftForms (takenForm p forms envelope) forms := by
  cases hforms : p.hasForms with
  | false =>
    have hnone : takenForm p forms envelope = none := by
      unfold takenForm
      rw [hforms]
      rfl
    have hkept : preprocessOne none envelope = some (envelope, none) := by
      unfold preprocessOne
      split <;> rfl
    rw [hforms, if_neg Bool.false_ne_true, hkept] at h
    cases h
    rw [hnone]
    exact ⟨rfl, rfl⟩
  | true =>
    rw [hforms, if_pos rfl, preprocessOne_some] at h
    rw [takenForm_eq hforms]
    cases hclaims : claims envelope with
    | none =>
      rw [hclaims] at h
      cases h
      exact ⟨rfl, by rw [leftBy, hclaims]; rfl⟩
    | some chat =>
      rw [hclaims, Option.bind_some] at h
      rw [Option.bind_some]
      have hleft : leftBy forms envelope = Function.update forms chat none := by rw [leftBy, hclaims]
      cases hform : forms chat with
      | none =>
        rw [hform] at h
        cases h
        refine ⟨rfl, ?_⟩
        rw [Option.getD_some, hleft]
        exact Function.update_eq_self_iff.mpr hform.symm
      | some form =>
        rw [hform] at h
        obtain ⟨filled, hfilled, h⟩ := Option.map_eq_some_iff.mp h
        cases h
        refine ⟨?_, by rw [Option.getD_some, hleft]; rfl⟩
        rw [withText_of_injectText hfilled]
        rfl

/-- **The form step of an envelope**: it gets what its form adds to it, or the thread panics; either way the
form is taken. -/
theorem prepare_cases (p : Pipeline) (envelope : Message) (todo done : List Message) (s : Shared) :
    (prepare p envelope todo done s).shared = { s with forms := leftForms (takenForm p s.forms envelope) s.forms }
      ∧ ((prepare p envelope todo done s).thread = { p with phase := .panicked }
          ∧ (prepare p envelope todo done s).done = tookEvents (takenForm p s.forms envelope)
        ∨ (prepare p envelope todo done s).thread = { p with
              phase := .preparing todo (done ++ [settle ((takenForm p s.forms envelope).map Prod.snd) envelope]) }
          ∧ (prepare p envelope todo done s).done = tookEvents (takenForm p s.forms envelope)
            ++ [.prepared envelope ((takenForm p s.forms envelope).map Prod.snd)
              (settle ((takenForm p s.forms envelope).map Prod.snd) envelope)]) := by
  unfold prepare
  cases hstep : preprocessOne (if p.hasForms then some s.forms else none) envelope with
  | none =>
    refine ⟨?_, .inl ⟨rfl, rfl⟩⟩
    cases takenForm p s.forms envelope <;> rfl
  | some outcome =>
    obtain ⟨result, store⟩ := outcome
    obtain ⟨hresult, hstore⟩ := preprocessOne_settle hstep
    dsimp only
    rw [hstore, ← hresult]
    exact ⟨rfl, .inr ⟨rfl, rfl⟩⟩

/-! ## What a thread has done -/

/-- An envelope, the form it took, and what was made of it. -/
structure Prepared where
  original : Message
  taken : Option TelegramFormState
  result : Message

def Event.asPrepared : Event → Option Prepared
  | .prepared original taken result => some ⟨original, taken, result⟩
  | _ => none

def Event.asAnswer : Event → Option (Message × List Message)
  | .answered envelope replies => some (envelope, replies)
  | _ => none

def Event.asDispatched : Event → Option Message
  | .dispatched reply _ => some reply
  | _ => none

def preparedIn (events : List Event) : List Prepared := events.filterMap Event.asPrepared

def answeredIn (events : List Event) : List (Message × List Message) := events.filterMap Event.asAnswer

def dispatchedIn (events : List Event) : List Message := events.filterMap Event.asDispatched

@[simp] theorem preparedIn_append (events later : List Event) :
    preparedIn (events ++ later) = preparedIn events ++ preparedIn later := List.filterMap_append

@[simp] theorem answeredIn_append (events later : List Event) :
    answeredIn (events ++ later) = answeredIn events ++ answeredIn later := List.filterMap_append

@[simp] theorem dispatchedIn_append (events later : List Event) :
    dispatchedIn (events ++ later) = dispatchedIn events ++ dispatchedIn later := List.filterMap_append

/-- Events of a kind that the books of a thread do not look at. -/
def Quiet (events : List Event) : Prop := preparedIn events = [] ∧ answeredIn events = [] ∧ dispatchedIn events = []

theorem quiet_nil : Quiet [] := ⟨rfl, rfl, rfl⟩

theorem quiet_tookEvents (taken : Option (String × TelegramFormState)) : Quiet (tookEvents taken) := by
  cases taken <;> exact ⟨rfl, rfl, rfl⟩

/-- The books of a thread by its phase: which envelopes are settled, which of these are answered, and which
replies are dispatched. -/
def Balanced (batch : List Message) (events : List Event) : Phase → Prop
  | .preparing todo done => batch = (preparedIn events).map Prepared.original ++ todo
      ∧ done = (preparedIn events).map Prepared.result ∧ answeredIn events = [] ∧ dispatchedIn events = []
  | .answering todo => batch = (preparedIn events).map Prepared.original
      ∧ (preparedIn events).map Prepared.result = (answeredIn events).map Prod.fst ++ todo
      ∧ (answeredIn events).flatMap Prod.snd = dispatchedIn events
  | .sending replies todo => batch = (preparedIn events).map Prepared.original
      ∧ (preparedIn events).map Prepared.result = (answeredIn events).map Prod.fst ++ todo
      ∧ (answeredIn events).flatMap Prod.snd = dispatchedIn events ++ replies
  | .finished => batch = (preparedIn events).map Prepared.original
      ∧ (preparedIn events).map Prepared.result = (answeredIn events).map Prod.fst
      ∧ (answeredIn events).flatMap Prod.snd = dispatchedIn events
  | .failed _ => batch = (preparedIn events).map Prepared.original
      ∧ (∃ todo, (preparedIn events).map Prepared.result = (answeredIn events).map Prod.fst ++ todo)
      ∧ ∃ reply rest, (answeredIn events).flatMap Prod.snd = dispatchedIn events ++ reply :: rest
  | .panicked => (∃ envelope todo, batch = (preparedIn events).map Prepared.original ++ envelope :: todo)
      ∧ answeredIn events = [] ∧ dispatchedIn events = []

/-- Whenever an envelope is answered, the replies to those before it are dispatched. -/
def InTurns (events : List Event) : Prop :=
  Throughout (fun before event => event.asAnswer ≠ none → dispatchedIn before = (answeredIn before).flatMap Prod.snd)
    events

/-- Events that answer nothing leave the turns as they are. -/
theorem InTurns.append {events later : List Event} (h : InTurns events) (hlater : answeredIn later = []) :
    InTurns (events ++ later) := by
  induction later using List.reverseRecOn with
  | nil => rwa [List.append_nil]
  | append_singleton later event ih =>
    rw [answeredIn_append, List.append_eq_nil_iff] at hlater
    rw [← List.append_assoc]
    refine Throughout.append (ih hlater.1) fun hanswers => absurd ?_ hanswers
    exact List.filterMap_eq_nil_iff.mp hlater.2 event List.mem_cons_self

/-- The books of a thread, where each envelope is settled by the form it took. -/
structure Accounts (p : Pipeline) (events : List Event) : Prop where
  balanced : Balanced p.batch events p.phase
  settled : ∀ entry ∈ preparedIn events, entry.result = settle entry.taken entry.original
  inTurns : InTurns events

section Steps

variable {codec : MessageCodec} {o : Outside} {p : Pipeline} {s : Shared} {events : List Event}

theorem accounts_prepare {envelope : Message} {todo done : List Message}
    (hphase : p.phase = .preparing (envelope :: todo) done) (h : Accounts p events) :
    Accounts (prepare p envelope todo done s).thread (events ++ (prepare p envelope todo done s).done) := by
  obtain ⟨hbalanced, hsettled, hturns⟩ := h
  rw [hphase] at hbalanced
  obtain ⟨hbatch, hdone, hanswered, hdispatched⟩ := hbalanced
  obtain ⟨hprepared, hquiet⟩ := quiet_tookEvents (takenForm p s.forms envelope)
  obtain ⟨-, ⟨hthread, hevents⟩ | ⟨hthread, hevents⟩⟩ := prepare_cases p envelope todo done s
  · rw [hthread, hevents]
    refine ⟨⟨⟨envelope, todo, ?_⟩, ?_, ?_⟩, ?_, hturns.append hquiet.1⟩
    · rw [preparedIn_append, hprepared, List.append_nil]
      exact hbatch
    · rw [answeredIn_append, hanswered, hquiet.1]
      rfl
    · rw [dispatchedIn_append, hdispatched, hquiet.2]
      rfl
    · rw [preparedIn_append, hprepared, List.append_nil]
      exact hsettled
  · rw [hthread, hevents]
    have hmore : preparedIn (events ++ (tookEvents (takenForm p s.forms envelope)
        ++ [.prepared envelope ((takenForm p s.forms envelope).map Prod.snd)
          (settle ((takenForm p s.forms envelope).map Prod.snd) envelope)]))
        = preparedIn events ++ [⟨envelope, (takenForm p s.forms envelope).map Prod.snd,
          settle ((takenForm p s.forms envelope).map Prod.snd) envelope⟩] := by
      rw [preparedIn_append, preparedIn_append, hprepared]
      rfl
    have hquietMore : answeredIn (tookEvents (takenForm p s.forms envelope)
        ++ [.prepared envelope ((takenForm p s.forms envelope).map Prod.snd)
          (settle ((takenForm p s.forms envelope).map Prod.snd) envelope)]) = [] := by
      rw [answeredIn_append, hquiet.1]
      rfl
    refine ⟨⟨?_, ?_, ?_, ?_⟩, fun entry hentry => ?_, hturns.append hquietMore⟩
    · rw [hmore, List.map_append, List.append_assoc]
      exact hbatch
    · rw [hmore, List.map_append, hdone]
      rfl
    · rw [answeredIn_append, answeredIn_append, hanswered, hquiet.1]
      rfl
    · rw [dispatchedIn_append, dispatchedIn_append, hdispatched, hquiet.2]
      rfl
    · rw [hmore] at hentry
      rcases List.mem_append.mp hentry with hentry | hentry
      · exact hsettled entry hentry
      · rw [List.mem_singleton.mp hentry]

/-- What is done for an answer is neither an answer nor a dispatch. -/
theorem quiet_answer (envelope : Message) : Quiet (answer codec o p envelope s).events := by
  have hnone : ∀ {α : Type} (value : Option α) (event : α → Event), (∀ a, Quiet [event a]) →
      Quiet (value.map event).toList := by
    intro α value event hevent
    cases value with
    | none => exact quiet_nil
    | some a => exact hevent a
  unfold answer
  split
  · unfold answerMcp
    split <;> exact ⟨rfl, rfl, rfl⟩
  · split
    · unfold answerSaveToken
      split
      · obtain ⟨hprepared, hanswered, hdispatched⟩ := hnone _ (Event.wrote p.ctx.tenant) fun _ => ⟨rfl, rfl, rfl⟩
        refine ⟨?_, ?_, ?_⟩
        · rw [preparedIn_append, hprepared]
          rfl
        · rw [answeredIn_append, hanswered]
          rfl
        · rw [dispatchedIn_append, hdispatched]
          rfl
      · exact quiet_nil
    · split
      · exact hnone _ _ fun _ => ⟨rfl, rfl, rfl⟩
      · split <;> exact quiet_nil

theorem accounts_answer {envelope : Message} {todo : List Message} {done : List Event} {replies : List Message}
    (hphase : p.phase = .answering (envelope :: todo)) (hquiet : Quiet done) (h : Accounts p events) :
    Accounts { p with phase := .sending replies todo } (events ++ (done ++ [.answered envelope replies])) := by
  obtain ⟨⟨hbatch, hresults, hreplies⟩, hsettled⟩ : Balanced p.batch events (.answering (envelope :: todo)) ∧ _ :=
    ⟨hphase ▸ h.balanced, h.settled⟩
  have hturns : InTurns (events ++ (done ++ [.answered envelope replies])) := by
    rw [← List.append_assoc]
    refine Throughout.append (h.inTurns.append hquiet.2.1) fun _ => ?_
    rw [dispatchedIn_append, answeredIn_append, hquiet.2.1, hquiet.2.2, List.append_nil, List.append_nil, hreplies]
  obtain ⟨hprepared, hanswered, hdispatched⟩ := hquiet
  have hsame : preparedIn (events ++ (done ++ [.answered envelope replies])) = preparedIn events := by
    rw [preparedIn_append, preparedIn_append, hprepared]
    exact List.append_nil _
  have hmore : answeredIn (events ++ (done ++ [.answered envelope replies]))
      = answeredIn events ++ [(envelope, replies)] := by
    rw [answeredIn_append, answeredIn_append, hanswered]
    rfl
  refine ⟨⟨?_, ?_, ?_⟩, ?_, hturns⟩
  · rw [hsame]
    exact hbatch
  · rw [hsame, hmore, List.map_append, List.append_assoc]
    exact hresults
  · rw [hmore, List.flatMap_append, hreplies, dispatchedIn_append, dispatchedIn_append, hdispatched]
    simp [dispatchedIn, Event.asDispatched]
  · rw [hsame]
    exact hsettled

def storedEvents (asked : Option (String × TelegramFormState)) : List Event :=
  (asked.map fun entry => Event.stored entry.1 entry.2).toList

theorem quiet_storedEvents (asked : Option (String × TelegramFormState)) : Quiet (storedEvents asked) := by
  cases asked <;> exact ⟨rfl, rfl, rfl⟩

/-- **The sending of a reply**: what it asks of its chat is kept, and it is dispatched or the thread fails. -/
theorem dispatch_cases (base64Encode : List UInt8 → String) (reply : Message) (replies todo : List Message) :
    ∃ asked, (asked = none ∨ asked = askedForm codec p reply)
      ∧ (dispatch codec o p base64Encode reply replies todo s).shared.forms = (storeForm asked s).forms
      ∧ (dispatch codec o p base64Encode reply replies todo s).shared.tokens = s.tokens
      ∧ ((∃ err, (dispatch codec o p base64Encode reply replies todo s).thread = { p with phase := .failed err }
          ∧ (dispatch codec o p base64Encode reply replies todo s).done = storedEvents asked)
        ∨ ∃ how, (dispatch codec o p base64Encode reply replies todo s).thread
            = { p with phase := .sending replies todo }
          ∧ (dispatch codec o p base64Encode reply replies todo s).done
            = storedEvents asked ++ [.dispatched reply how]) := by
  have htokens : ∀ asked, (storeForm asked s).tokens = s.tokens := by
    intro asked
    cases asked <;> rfl
  unfold dispatch
  dsimp only
  split
  · refine ⟨none, .inl rfl, ?_⟩
    split <;> exact ⟨rfl, rfl, .inr ⟨_, rfl, rfl⟩⟩
  · refine ⟨askedForm codec p reply, .inr rfl, ?_⟩
    cases (callProvider codec o p base64Encode reply).2 with
    | error err => exact ⟨rfl, htokens _, .inl ⟨err, rfl, rfl⟩⟩
    | ok outcome =>
      dsimp only
      split <;> exact ⟨rfl, htokens _, .inr ⟨_, rfl, rfl⟩⟩

theorem accounts_dispatch {base64Encode : List UInt8 → String} {reply : Message} {replies todo : List Message}
    (hphase : p.phase = .sending (reply :: replies) todo) (h : Accounts p events) :
    Accounts (dispatch codec o p base64Encode reply replies todo s).thread
      (events ++ (dispatch codec o p base64Encode reply replies todo s).done) := by
  obtain ⟨⟨hbatch, hresults, hreplies⟩, hsettled⟩ : Balanced p.batch events (.sending (reply :: replies) todo) ∧ _ :=
    ⟨hphase ▸ h.balanced, h.settled⟩
  obtain ⟨asked, -, -, -, ⟨err, hthread, hdone⟩ | ⟨how, hthread, hdone⟩⟩ :=
    @dispatch_cases codec o p s base64Encode reply replies todo
  · obtain ⟨hprepared, hanswered, hdispatched⟩ := quiet_storedEvents asked
    rw [hthread, hdone]
    refine ⟨⟨?_, ⟨todo, ?_⟩, reply, replies, ?_⟩, ?_, h.inTurns.append hanswered⟩
    · rw [preparedIn_append, hprepared, List.append_nil]
      exact hbatch
    · rw [preparedIn_append, hprepared, List.append_nil, answeredIn_append, hanswered, List.append_nil]
      exact hresults
    · rw [answeredIn_append, hanswered, List.append_nil, dispatchedIn_append, hdispatched, List.append_nil]
      exact hreplies
    · rw [preparedIn_append, hprepared, List.append_nil]
      exact hsettled
  · obtain ⟨hprepared, hanswered, hdispatched⟩ := quiet_storedEvents asked
    rw [hthread, hdone]
    have hsame : preparedIn (events ++ (storedEvents asked ++ [.dispatched reply how])) = preparedIn events := by
      rw [preparedIn_append, preparedIn_append, hprepared]
      exact List.append_nil _
    have hanswers : answeredIn (events ++ (storedEvents asked ++ [.dispatched reply how])) = answeredIn events := by
      rw [answeredIn_append, answeredIn_append, hanswered]
      exact List.append_nil _
    have hquiet : answeredIn (storedEvents asked ++ [.dispatched reply how]) = [] := by
      rw [answeredIn_append, hanswered]
      rfl
    refine ⟨⟨?_, ?_, ?_⟩, ?_, h.inTurns.append hquiet⟩
    · rw [hsame]
      exact hbatch
    · rw [hsame, hanswers]
      exact hresults
    · rw [hanswers, hreplies, dispatchedIn_append, dispatchedIn_append, hdispatched, List.nil_append, List.append_assoc]
      rfl
    · rw [hsame]
      exact hsettled

/-- **One step keeps the books of its thread.** -/
theorem accounts_step (base64Encode : List UInt8 → String) (h : Accounts p events) :
    Accounts (step codec o p base64Encode s).thread (events ++ (step codec o p base64Encode s).done) := by
  unfold step
  split
  next done hphase =>
    obtain ⟨hbatch, hdone, hanswered, hdispatched⟩ : Balanced p.batch events (.preparing [] done) :=
      hphase ▸ h.balanced
    rw [List.append_nil]
    refine ⟨⟨?_, ?_, ?_⟩, h.settled, h.inTurns⟩
    · rw [hbatch, List.append_nil]
    · rw [hanswered, hdone]
      rfl
    · rw [hanswered, hdispatched]
      rfl
  next envelope todo done hphase => exact accounts_prepare hphase h
  next hphase =>
    obtain ⟨hbatch, hresults, hreplies⟩ : Balanced p.batch events (.answering []) := hphase ▸ h.balanced
    rw [List.append_nil]
    exact ⟨⟨hbatch, hresults.trans (List.append_nil _), hreplies⟩, h.settled, h.inTurns⟩
  next envelope todo hphase => exact accounts_answer hphase (quiet_answer envelope) h
  next todo hphase =>
    obtain ⟨hbatch, hresults, hreplies⟩ : Balanced p.batch events (.sending [] todo) := hphase ▸ h.balanced
    rw [List.append_nil]
    exact ⟨⟨hbatch, hresults, hreplies.trans (List.append_nil _)⟩, h.settled, h.inTurns⟩
  next reply replies todo hphase => exact accounts_dispatch hphase h
  all_goals
    rw [List.append_nil]
    exact h

end Steps

/-- What is handled of a batch: its envelopes are settled in their order, each with the form it took; none is
answered before all are settled; the replies to one are dispatched, in their order, before the next is answered
(`inTurns`); and at the end nothing is left. -/
structure BatchHandled (p : Pipeline) (events : List Event) : Prop where
  prepared : (preparedIn events).map Prepared.original <+: p.batch
  settled : ∀ entry ∈ preparedIn events, entry.result = settle entry.taken entry.original
  answered : (answeredIn events).map Prod.fst <+: (preparedIn events).map Prepared.result
  afterAll : answeredIn events ≠ [] → (preparedIn events).map Prepared.original = p.batch
  dispatched : dispatchedIn events <+: (answeredIn events).flatMap Prod.snd
  inTurns : InTurns events
  complete : p.phase = .finished → (preparedIn events).map Prepared.original = p.batch
    ∧ (answeredIn events).map Prod.fst = (preparedIn events).map Prepared.result
    ∧ dispatchedIn events = (answeredIn events).flatMap Prod.snd

theorem prefix_of_eq {α : Type} {l l' : List α} (h : l = l') : l <+: l' := h ▸ List.prefix_rfl

theorem Accounts.batchHandled {p : Pipeline} {events : List Event} (h : Accounts p events) : BatchHandled p events := by
  obtain ⟨hbalanced, hsettled, hturns⟩ := h
  cases hphase : p.phase <;> rw [hphase] at hbalanced
  case preparing todo done =>
    obtain ⟨hbatch, -, hanswered, hdispatched⟩ := hbalanced
    refine ⟨⟨todo, hbatch.symm⟩, hsettled, ?_, fun h => absurd hanswered h, ?_, hturns, fun h => ?_⟩
    · rw [hanswered]
      exact List.nil_prefix
    · rw [hdispatched]
      exact List.nil_prefix
    · rw [hphase] at h
      cases h
  case answering todo =>
    obtain ⟨hbatch, hresults, hreplies⟩ := hbalanced
    refine ⟨prefix_of_eq hbatch.symm, hsettled, ⟨todo, hresults.symm⟩, fun _ => hbatch.symm, prefix_of_eq hreplies.symm,
      hturns, fun h => ?_⟩
    rw [hphase] at h
    cases h
  case sending replies todo =>
    obtain ⟨hbatch, hresults, hreplies⟩ := hbalanced
    refine ⟨prefix_of_eq hbatch.symm, hsettled, ⟨todo, hresults.symm⟩, fun _ => hbatch.symm, ⟨replies, hreplies.symm⟩,
      hturns, fun h => ?_⟩
    rw [hphase] at h
    cases h
  case finished =>
    obtain ⟨hbatch, hresults, hreplies⟩ := hbalanced
    exact ⟨prefix_of_eq hbatch.symm, hsettled, prefix_of_eq hresults.symm, fun _ => hbatch.symm,
      prefix_of_eq hreplies.symm, hturns, fun _ => ⟨hbatch.symm, hresults.symm, hreplies.symm⟩⟩
  case failed err =>
    obtain ⟨hbatch, ⟨todo, hresults⟩, reply, rest, hreplies⟩ := hbalanced
    refine ⟨prefix_of_eq hbatch.symm, hsettled, ⟨todo, hresults.symm⟩, fun _ => hbatch.symm,
      ⟨reply :: rest, hreplies.symm⟩, hturns, fun h => ?_⟩
    rw [hphase] at h
    cases h
  case panicked =>
    obtain ⟨⟨envelope, todo, hbatch⟩, hanswered, hdispatched⟩ := hbalanced
    refine ⟨⟨envelope :: todo, hbatch.symm⟩, hsettled, ?_, fun h => absurd hanswered h, ?_, hturns, fun h => ?_⟩
    · rw [hanswered]
      exact List.nil_prefix
    · rw [hdispatched]
      exact List.nil_prefix
    · rw [hphase] at h
      cases h

/-! ## Every interleaving -/

/-- The threads of requests, each as it is started. -/
def Starts (ops : List (Op Pipeline Outside)) : Prop :=
  ∀ p, .begin p ∈ ops → p.phase = .preparing p.batch []

section Runs

variable {codec : MessageCodec} {base64Encode : List UInt8 → String} {ops : List (Op Pipeline Outside)} {shared : Shared}
  {i : Nat} {p : Pipeline}

theorem accounts_of_run (hstarts : Starts ops) (hp : (after codec base64Encode ops shared).threads[i]? = some p) :
    Accounts p (own i (after codec base64Encode ops shared).record) := by
  refine @own_of_run _ _ _ _ Accounts _ ops shared (fun p hp => ⟨?_, ?_, throughout_nil⟩)
    (fun _ _ _ _ _ _ h => accounts_step base64Encode h) i p hp
  · rw [hstarts p hp]
    exact ⟨rfl, rfl, rfl, rfl⟩
  · exact fun entry hentry => absurd hentry List.not_mem_nil

/-- **Every envelope is answered once, and every reply dispatched once**, however the threads take their turns. -/
theorem handled_of_run (hstarts : Starts ops) (hp : (after codec base64Encode ops shared).threads[i]? = some p) :
    BatchHandled p (own i (after codec base64Encode ops shared).record) :=
  (accounts_of_run hstarts hp).batchHandled

end Runs

/-! ## A conversation -/

mutual

/-- The text of a value that has no number and no character to escape. -/
def compact : Value → String
  | .string s => "\"" ++ s ++ "\""
  | .bool b => if b then "true" else "false"
  | .array items => "[" ++ String.intercalate "," (compactItems items) ++ "]"
  | .object fields => "\x7b" ++ String.intercalate "," (compactFields fields) ++ "\x7d"
  | _ => "null"

def compactItems : List Value → List String
  | [] => []
  | item :: rest => compact item :: compactItems rest

def compactFields : List (String × Value) → List String
  | [] => []
  | (key, v) :: rest => ("\"" ++ key ++ "\":" ++ compact v) :: compactFields rest

end

/-- The cards of the conversation, in which GitHub cannot be reached. -/
def shownCards : List Value := [authRequiredCard, tokenInvalidCard "unreachable", mcpErrorCard "unreachable"]

def shownCodec : MessageCodec where
  fromStr text := shownCards.find? fun card => compact card == text
  toText := compact
  toValue message := .ofOption message.text
  readMessage _ := none

def shownOutside : Outside where
  readCard _ _ := none
  secretsEnv := none
  github := {
    callTool _ _ _ := .error "unreachable"
    renderCard _ _ _ := .null
    getAuthenticatedUser _ := .error "unreachable"
    buildConnectedCard _ := .null }
  runFlow _ _ _ _ := .error "no flow"
  reply _ _ := .error "no provider"
  canonicalType := "messaging.telegram.bot"
  tokenWrite := .done
  newId := "reply"
  now := "now"

/-- The provider sends what it is given. -/
def shownSending : Outside :=
  { shownOutside with
    reply _ _ := .ok {
      success := true, output := some (.object [("ok", .bool true)]), raw := none, error := none, mode := .Exec } }

def shownMessage (text : Option String) (metadata : List (String × String)) : Message :=
  { text, metadata, others := ⟨"message", "session", [], []⟩ }

def shownThread (message : Message) : Pipeline :=
  routeMessagingEnvelopes (fun _ => false) (fun _ => .error "no pack") "bundle" "messaging-telegram"
    ⟨"acme", none, none⟩ [message] false true

/-- A chat asks for its repositories and is asked for a token; it answers, and asks again. The threads of the two
answers take turns. -/
def shownOps : List (Op Pipeline Outside) :=
  .begin (shownThread (shownMessage (some "hi") [("action", "mcp"), ("chat_id", "chat"), ("tool", "list_repos")]))
    :: List.replicate 4 (.advance 0 shownSending)
    ++ .begin (shownThread (shownMessage (some "ghp_1") [("chat_id", "chat")]))
    :: .begin (shownThread (shownMessage none [("action", "mcp"), ("chat_id", "chat"), ("tool", "list_repos")]))
    :: [.advance 1 shownSending, .advance 2 shownSending, .advance 0 shownSending, .advance 1 shownSending,
      .advance 2 shownSending, .advance 1 shownSending, .advance 2 shownSending]
    ++ List.replicate 3 (.advance 1 shownSending) ++ List.replicate 3 (.advance 2 shownSending)

def shown : Threads.State Pipeline Shared Event :=
  after shownCodec (fun _ => "") shownOps ⟨fun _ => none, fun _ => none, fun _ => []⟩

/-- What is begun in the conversation is begun as it is started. -/
theorem starts_shown : Starts shownOps := by
  intro p hp
  simp only [shownOps, List.replicate, List.cons_append, List.nil_append, List.mem_cons, List.not_mem_nil,
    Op.begin.injEq, reduceCtorEq, or_false, false_or] at hp
  rcases hp with rfl | rfl | rfl <;> rfl

/-- The thread of the second request has answered its one envelope and dispatched the reply. -/
theorem handled_shown : ∃ p, shown.threads[1]? = some p ∧ BatchHandled p (own 1 shown.record) := by
  obtain ⟨p, hp⟩ := Option.isSome_iff_exists.mp (by decide +kernel : shown.threads[1]?.isSome = true)
  exact ⟨p, hp, handled_of_run starts_shown hp⟩

end HttpIngress
