import GreenticOperator.Laws.HttpIngress.Pipeline
import GreenticOperator.Lib.HashMap

/-!
# Forms and tokens in every interleaving

The threads of the pipeline share the forms of chats and the tokens of tenants. However they take their turns,
a form is taken once, and is the one that its chat was asked for last (`taken_of_run`); who answers the form for
signing in to GitHub signs the tenant in (`signIn_of_run`); and a tool is called with a token that is common to
all, or with the last one that was given in a message of its own tenant (`called_of_run`).
-/

namespace HttpIngress

open Json MessagingUniversal Threads

/-! ## The forms of chats -/

/-- What an event does to the form of a chat: one is put there or taken away. -/
def Event.formEffect (chat : String) : Event → Option (Option TelegramFormState)
  | .stored chatId form => if chatId = chat then some (some form) else none
  | .took chatId _ => if chatId = chat then some none else none
  | _ => none

/-- The form that a chat is asked for after what was done. -/
def pending (record : List (Nat × Event)) (chat : String) : Option TelegramFormState :=
  ((record.filterMap fun entry => entry.2.formEffect chat).getLast?).getD none

theorem pending_append (record : List (Nat × Event)) (entry : Nat × Event) (chat : String) :
    pending (record ++ [entry]) chat = (entry.2.formEffect chat).getD (pending record chat) := by
  unfold pending
  rw [List.filterMap_append]
  cases heffect : entry.2.formEffect chat with
  | none => simp [heffect]
  | some effect => simp [heffect]

/-- A form that is pending was asked for by one who is the last to have done anything to it. -/
theorem exists_stored_of_pending {record : List (Nat × Event)} {chat : String} {form : TelegramFormState}
    (h : pending record chat = some form) : ∃ front j back, record = front ++ (j, .stored chat form) :: back
      ∧ ∀ entry ∈ back, entry.2.formEffect chat = none := by
  induction record using List.reverseRecOn with
  | nil => cases h
  | append_singleton record entry ih =>
    rw [pending_append] at h
    cases heffect : entry.2.formEffect chat with
    | none =>
      rw [heffect, Option.getD_none] at h
      obtain ⟨front, j, back, rfl, hback⟩ := ih h
      refine ⟨front, j, back ++ [entry], by simp, fun other hother => ?_⟩
      rcases List.mem_append.mp hother with hother | hother
      · exact hback other hother
      · rw [List.mem_singleton.mp hother, heffect]
    | some effect =>
      rw [heffect, Option.getD_some] at h
      subst h
      obtain ⟨j, event⟩ := entry
      have hstored : event = .stored chat form := by
        cases event with
        | stored chatId asked =>
          rw [Event.formEffect] at heffect
          split at heffect
          next hchat =>
            rw [hchat, Option.some.inj (Option.some.inj heffect)]
          next => cases heffect
        | took chatId taken =>
          rw [Event.formEffect] at heffect
          split at heffect <;> cases heffect
        | _ => cases heffect
      exact ⟨record, j, [], by rw [hstored], fun _ hother => absurd hother List.not_mem_nil⟩

/-- A form that is taken is the pending one of its chat. -/
def TakesPending (front : List (Nat × Event)) (entry : Nat × Event) : Prop :=
  ∀ chat form, entry.2 = .took chat form → pending front chat = some form

/-- The store holds the pending forms, and what was taken was pending. -/
structure FormsKept (forms : TelegramFormStore) (record : List (Nat × Event)) : Prop where
  forms : ∀ chat, forms chat = pending record chat
  taken : Throughout TakesPending record

theorem FormsKept.append {forms forms' : TelegramFormStore} {record : List (Nat × Event)} {entry : Nat × Event}
    (h : FormsKept forms record) (hforms : ∀ chat, forms' chat = (entry.2.formEffect chat).getD (forms chat))
    (htook : ∀ chat form, entry.2 = .took chat form → forms chat = some form) :
    FormsKept forms' (record ++ [entry]) := by
  refine ⟨fun chat => ?_, h.taken.append fun chat form hentry => ?_⟩
  · rw [hforms, pending_append, h.forms]
  · rw [← h.forms]
    exact htook chat form hentry

theorem FormsKept.quiet {forms : TelegramFormStore} {record : List (Nat × Event)} (h : FormsKept forms record)
    (i : Nat) {done : List Event} (hquiet : ∀ event ∈ done, ∀ chat, event.formEffect chat = none) :
    FormsKept forms (record ++ done.map (Prod.mk i)) := by
  induction done using List.reverseRecOn with
  | nil => simpa using h
  | append_singleton done event ih =>
    rw [List.map_append, ← List.append_assoc]
    have hlast := hquiet event (List.mem_append_right _ List.mem_cons_self)
    refine (ih fun other hother => hquiet other (List.mem_append_left _ hother)).append (fun chat => ?_)
      fun chat form htook => ?_
    · dsimp only
      rw [hlast chat]
      rfl
    · dsimp only at htook
      have hnone := hlast chat
      rw [htook, Event.formEffect, if_pos rfl] at hnone
      cases hnone

theorem FormsKept.took {p : Pipeline} {forms : TelegramFormStore} {record : List (Nat × Event)}
    (h : FormsKept forms record) (i : Nat) (envelope : Message) :
    FormsKept (leftForms (takenForm p forms envelope) forms)
      (record ++ (tookEvents (takenForm p forms envelope)).map (Prod.mk i)) := by
  cases htaken : takenForm p forms envelope with
  | none => simpa [leftForms, tookEvents] using h
  | some entry =>
    obtain ⟨chatId, form⟩ := entry
    have hform := forms_of_takenForm htaken
    refine h.append (fun chat => ?_) fun chat taken htook => ?_
    · dsimp only [leftForms, Option.elim]
      rw [Event.formEffect, Function.update_apply]
      by_cases hchat : chatId = chat
      · rw [if_pos hchat, if_pos hchat.symm, Option.getD_some]
      · rw [if_neg hchat, if_neg (Ne.symm hchat), Option.getD_none]
    · cases htook
      exact hform

theorem FormsKept.stored {s : Shared} {record : List (Nat × Event)} (h : FormsKept s.forms record) (i : Nat)
    (asked : Option (String × TelegramFormState)) :
    FormsKept (storeForm asked s).forms (record ++ (storedEvents asked).map (Prod.mk i)) := by
  cases asked with
  | none => simpa [storeForm, storedEvents] using h
  | some entry =>
    obtain ⟨chatId, form⟩ := entry
    refine h.append (fun chat => ?_) fun chat taken htook => by cases htook
    dsimp only [storeForm, TelegramFormStore.put]
    rw [Event.formEffect, Function.update_apply]
    by_cases hchat : chatId = chat
    · rw [if_pos hchat, if_pos hchat.symm, Option.getD_some]
    · rw [if_neg hchat, if_neg (Ne.symm hchat), Option.getD_none]

section FormSteps

variable {codec : MessageCodec} {o : Outside} {p : Pipeline} {s : Shared}

/-- An answer leaves the forms as they are. -/
theorem answer_forms (envelope : Message) : (answer codec o p envelope s).shared.forms = s.forms
    ∧ ∀ event ∈ (answer codec o p envelope s).events, ∀ chat, event.formEffect chat = none := by
  have hsave : ∀ contents, (saveGithubToken p.ctx.tenant contents s).forms = s.forms := by
    intro contents
    cases contents <;> rfl
  unfold answer
  split
  · unfold answerMcp
    split
    · refine ⟨rfl, fun event hevent chat => ?_⟩
      rw [List.mem_singleton.mp hevent]
      rfl
    · exact ⟨rfl, fun event hevent => absurd hevent List.not_mem_nil⟩
  · split
    · unfold answerSaveToken
      split
      · refine ⟨hsave _, fun event hevent chat => ?_⟩
        rcases List.mem_append.mp hevent with hevent | hevent
        · rw [Option.mem_toList, Option.map_eq_some_iff] at hevent
          obtain ⟨contents, -, rfl⟩ := hevent
          rfl
        · rw [List.mem_singleton.mp hevent]
          rfl
      · exact ⟨rfl, fun event hevent => absurd hevent List.not_mem_nil⟩
    · split
      · refine ⟨rfl, fun event hevent chat => ?_⟩
        unfold answerConnected at hevent
        rw [Option.mem_toList, Option.map_eq_some_iff] at hevent
        obtain ⟨token, -, rfl⟩ := hevent
        rfl
      · split <;> exact ⟨rfl, fun event hevent => absurd hevent List.not_mem_nil⟩

/-- **One step keeps the forms.** -/
theorem formsKept_step (base64Encode : List UInt8 → String) (i : Nat) {record : List (Nat × Event)}
    (h : FormsKept s.forms record) : FormsKept (step codec o p base64Encode s).shared.forms
      (record ++ (step codec o p base64Encode s).done.map (Prod.mk i)) := by
  have hrest : ∀ {forms : TelegramFormStore} {first : List Event} {event : Event},
      FormsKept forms (record ++ first.map (Prod.mk i)) → (∀ chat, event.formEffect chat = none) →
      FormsKept forms (record ++ (first ++ [event]).map (Prod.mk i)) := by
    intro forms first event hfirst hevent
    rw [List.map_append, ← List.append_assoc]
    refine hfirst.quiet i fun other hother => ?_
    rw [List.mem_singleton.mp hother]
    exact hevent
  unfold step
  split
  next => exact h.quiet i fun _ hevent => absurd hevent List.not_mem_nil
  next envelope todo done hphase =>
    obtain ⟨hshared, ⟨-, hdone⟩ | ⟨-, hdone⟩⟩ := prepare_cases p envelope todo done s
    · rw [hshared, hdone]
      exact h.took i envelope
    · rw [hshared, hdone]
      exact hrest (h.took i envelope) fun _ => rfl
  next => exact h.quiet i fun _ hevent => absurd hevent List.not_mem_nil
  next envelope todo hphase =>
    obtain ⟨hforms, hevents⟩ := @answer_forms codec o p s envelope
    dsimp only
    rw [hforms]
    exact hrest (h.quiet i hevents) fun _ => rfl
  next => exact h.quiet i fun _ hevent => absurd hevent List.not_mem_nil
  next reply replies todo hphase =>
    obtain ⟨asked, -, hforms, -, ⟨err, -, hdone⟩ | ⟨how, -, hdone⟩⟩ :=
      @dispatch_cases codec o p s base64Encode reply replies todo
    · rw [hforms, hdone]
      exact h.stored i asked
    · rw [hforms, hdone]
      exact hrest (h.stored i asked) fun _ => rfl
  all_goals exact h.quiet i fun _ hevent => absurd hevent List.not_mem_nil

end FormSteps

/-! ## The tokens of tenants -/

/-- A message that gives a token: what is written of it. -/
def Gives (envelope : Message) (contents : String) : Prop :=
  envelope.meta "action" = some "save_token" ∧ ∃ token, envelope.meta "github_token" = some token ∧ token ≠ ""
    ∧ contents = Text.trim token

def Event.asWrite : Event → Option (String × String)
  | .wrote tenant contents => some (tenant, contents)
  | _ => none

/-- What was written to the files of tenants. -/
def writesIn (record : List (Nat × Event)) : List (String × String) := record.filterMap fun entry => entry.2.asWrite

/-- A token that a tool is called with is the common one, or the one that the tenant was given last. -/
def CallsOwn (front : List (Nat × Event)) (entry : Nat × Event) : Prop :=
  ∀ tenant common token, entry.2 = .called tenant common token → common = some token
    ∨ common = none ∧ token ≠ "" ∧ ∃ contents, LastWins.last (writesIn front) tenant = some contents
      ∧ Text.trim contents = token

structure TokensKept (tokens : String → Option String) (record : List (Nat × Event)) : Prop where
  tokens : ∀ tenant, tokens tenant = LastWins.last (writesIn record) tenant
  called : Throughout CallsOwn record

/-- An event that has nothing to do with tokens. -/
def Event.tokenless : Event → Bool
  | .wrote _ _ => false
  | .called _ _ _ => false
  | _ => true

theorem TokensKept.tokenless {tokens : String → Option String} {record : List (Nat × Event)}
    (h : TokensKept tokens record) (i : Nat) {done : List Event}
    (hdone : ∀ event ∈ done, event.tokenless = true) : TokensKept tokens (record ++ done.map (Prod.mk i)) := by
  induction done using List.reverseRecOn with
  | nil => simpa using h
  | append_singleton done event ih =>
    obtain ⟨htokens, hcalled⟩ := ih fun other hother => hdone other (List.mem_append_left _ hother)
    have hevent := hdone event (List.mem_append_right _ List.mem_cons_self)
    rw [List.map_append, ← List.append_assoc]
    refine ⟨fun tenant => ?_, hcalled.append fun tenant common token heq => ?_⟩
    · rw [htokens, writesIn, writesIn, List.filterMap_append]
      cases event with
      | wrote => cases hevent
      | _ => simp [Event.asWrite]
    · dsimp only at heq
      rw [heq] at hevent
      cases hevent

section TokenSteps

variable {codec : MessageCodec} {o : Outside} {p : Pipeline} {s : Shared}

/-- **What an answer does with tokens**: nothing, or it uses the token of the tenant, or it writes one. -/
theorem answer_tokens (envelope : Message) :
    (answer codec o p envelope s).shared.tokens = s.tokens
        ∧ (∀ event ∈ (answer codec o p envelope s).events, event.tokenless = true)
        ∧ (∀ contents, ¬Gives envelope contents)
      ∨ (∃ token, readGithubToken o p.ctx.tenant s = some token
        ∧ (answer codec o p envelope s).shared.tokens = s.tokens
        ∧ (answer codec o p envelope s).events = [.called p.ctx.tenant (commonToken o) token]
        ∧ ∀ contents, ¬Gives envelope contents)
      ∨ ∃ token, Gives envelope (Text.trim token)
        ∧ (answer codec o p envelope s).shared
          = saveGithubToken p.ctx.tenant (writtenToken o.tokenWrite token) s
        ∧ (answer codec o p envelope s).events
          = ((writtenToken o.tokenWrite token).map (Event.wrote p.ctx.tenant)).toList ++ [.verified p.ctx.tenant token] := by
  unfold answer
  by_cases hmcp : envelope.meta "action" = some "mcp"
  · have hgives : ∀ contents, ¬Gives envelope contents := by
      rintro contents ⟨haction, -⟩
      rw [hmcp] at haction
      exact absurd (Option.some.inj haction) (by decide)
    rw [if_pos hmcp]
    unfold answerMcp
    cases htoken : readGithubToken o p.ctx.tenant s with
    | some token => exact .inr (.inl ⟨token, rfl, rfl, rfl, hgives⟩)
    | none => exact .inl ⟨rfl, fun event hevent => absurd hevent List.not_mem_nil, hgives⟩
  · rw [if_neg hmcp]
    by_cases hsave : envelope.meta "action" = some "save_token"
    · rw [if_pos hsave]
      unfold answerSaveToken
      cases htoken : (envelope.meta "github_token").filter (· ≠ "") with
      | some token =>
        obtain ⟨hmeta, hne⟩ := Option.filter_eq_some_iff.mp htoken
        exact .inr (.inr ⟨token, ⟨hsave, token, hmeta, of_decide_eq_true hne, rfl⟩, rfl, rfl⟩)
      | none =>
        refine .inl ⟨rfl, fun event hevent => absurd hevent List.not_mem_nil, ?_⟩
        rintro contents ⟨-, token, hmeta, hne, -⟩
        rw [hmeta] at htoken
        simp [hne] at htoken
    · have hgives : ∀ contents, ¬Gives envelope contents := fun contents h => hsave h.1
      rw [if_neg hsave]
      split
      · unfold answerConnected
        cases htoken : readGithubToken o p.ctx.tenant s with
        | some token => exact .inr (.inl ⟨token, rfl, rfl, rfl, hgives⟩)
        | none => exact .inl ⟨rfl, fun event hevent => absurd hevent List.not_mem_nil, hgives⟩
      · split <;> exact .inl ⟨rfl, fun event hevent => absurd hevent List.not_mem_nil, hgives⟩

/-- The token that is read is the common one, or the one of the tenant's file. -/
theorem readGithubToken_cases {tenant token : String} (h : readGithubToken o tenant s = some token) :
    commonToken o = some token ∨ commonToken o = none ∧ token ≠ "" ∧ ∃ contents, s.tokens tenant = some contents
      ∧ Text.trim contents = token := by
  unfold readGithubToken at h
  cases hcommon : commonToken o with
  | some common =>
    rw [hcommon, Option.some_or] at h
    exact .inl h
  | none =>
    rw [hcommon, Option.none_or] at h
    obtain ⟨htoken, hne⟩ := Option.filter_eq_some_iff.mp h
    obtain ⟨contents, hcontents, htrim⟩ := Option.map_eq_some_iff.mp htoken
    exact .inr ⟨rfl, of_decide_eq_true hne, contents, hcontents, htrim⟩

theorem tokenless_tookEvents (taken : Option (String × TelegramFormState)) :
    ∀ event ∈ tookEvents taken, event.tokenless = true := by
  intro event hevent
  unfold tookEvents at hevent
  rw [Option.mem_toList, Option.map_eq_some_iff] at hevent
  obtain ⟨entry, -, rfl⟩ := hevent
  rfl

theorem tokenless_storedEvents (asked : Option (String × TelegramFormState)) :
    ∀ event ∈ storedEvents asked, event.tokenless = true := by
  intro event hevent
  unfold storedEvents at hevent
  rw [Option.mem_toList, Option.map_eq_some_iff] at hevent
  obtain ⟨entry, -, rfl⟩ := hevent
  rfl

theorem tokenless_concat {first : List Event} {event : Event} (hfirst : ∀ other ∈ first, other.tokenless = true)
    (hevent : event.tokenless = true) : ∀ other ∈ first ++ [event], other.tokenless = true := by
  intro other hother
  rcases List.mem_append.mp hother with hother | hother
  · exact hfirst other hother
  · rw [List.mem_singleton.mp hother]
    exact hevent

/-- A step that neither writes nor uses a token, or the answer to an envelope. -/
theorem step_tokens (base64Encode : List UInt8 → String) :
    (step codec o p base64Encode s).shared.tokens = s.tokens
        ∧ (∀ event ∈ (step codec o p base64Encode s).done, event.tokenless = true ∧ event.asAnswer = none)
      ∨ ∃ envelope, (step codec o p base64Encode s).shared = (answer codec o p envelope s).shared
        ∧ (step codec o p base64Encode s).done = (answer codec o p envelope s).events
          ++ [.answered envelope (answer codec o p envelope s).replies] := by
  have hnone : ∀ event ∈ ([] : List Event), event.tokenless = true ∧ event.asAnswer = none :=
    fun _ hevent => absurd hevent List.not_mem_nil
  have hall : ∀ {done : List Event}, (∀ event ∈ done, event.tokenless = true) → answeredIn done = [] →
      ∀ event ∈ done, event.tokenless = true ∧ event.asAnswer = none := by
    intro done htokenless hanswered event hevent
    refine ⟨htokenless event hevent, ?_⟩
    exact List.filterMap_eq_nil_iff.mp hanswered event hevent
  unfold step
  split
  next => exact .inl ⟨rfl, hnone⟩
  next envelope todo done hphase =>
    have hquiet := (quiet_tookEvents (takenForm p s.forms envelope)).2.1
    obtain ⟨hshared, ⟨-, hdone⟩ | ⟨-, hdone⟩⟩ := prepare_cases p envelope todo done s
    · rw [hshared, hdone]
      exact .inl ⟨rfl, hall (tokenless_tookEvents _) hquiet⟩
    · rw [hshared, hdone]
      refine .inl ⟨rfl, hall (tokenless_concat (tokenless_tookEvents _) rfl) ?_⟩
      rw [answeredIn_append, hquiet]
      rfl
  next => exact .inl ⟨rfl, hnone⟩
  next envelope todo hphase => exact .inr ⟨envelope, rfl, rfl⟩
  next => exact .inl ⟨rfl, hnone⟩
  next reply replies todo hphase =>
    obtain ⟨asked, -, -, htokens, ⟨err, -, hdone⟩ | ⟨how, -, hdone⟩⟩ :=
      @dispatch_cases codec o p s base64Encode reply replies todo
    · rw [htokens, hdone]
      exact .inl ⟨rfl, hall (tokenless_storedEvents asked) (quiet_storedEvents asked).2.1⟩
    · rw [htokens, hdone]
      refine .inl ⟨rfl, hall (tokenless_concat (tokenless_storedEvents asked) rfl) ?_⟩
      rw [answeredIn_append, (quiet_storedEvents asked).2.1]
      rfl
  all_goals exact .inl ⟨rfl, hnone⟩

/-- **One step keeps the tokens.** -/
theorem tokensKept_step (base64Encode : List UInt8 → String) (i : Nat) {record : List (Nat × Event)}
    (h : TokensKept s.tokens record) : TokensKept (step codec o p base64Encode s).shared.tokens
      (record ++ (step codec o p base64Encode s).done.map (Prod.mk i)) := by
  rcases @step_tokens codec o p s base64Encode with ⟨htokens, hdone⟩ | ⟨envelope, hshared, hdone⟩
  · rw [htokens]
    exact h.tokenless i fun event hevent => (hdone event hevent).1
  · rw [hshared, hdone]
    rcases @answer_tokens codec o p s envelope with ⟨htokens, hevents, -⟩ | ⟨token, hread, htokens, hevents, -⟩
      | ⟨token, -, hsaved, hevents⟩
    · rw [htokens]
      exact h.tokenless i (tokenless_concat hevents rfl)
    · -- The token that is used is read from the files that what was written left.
      rw [htokens, hevents, List.map_append, ← List.append_assoc]
      refine TokensKept.tokenless ⟨fun tenant => ?_, h.called.append fun tenant common used heq => ?_⟩ i
        fun event hevent => by rw [List.mem_singleton.mp hevent]; rfl
      · rw [h.tokens, writesIn, writesIn, List.filterMap_append]
        simp [Event.asWrite]
      · cases heq
        simp only [← h.tokens]
        exact readGithubToken_cases hread
    · rw [hsaved, hevents, List.append_assoc, List.map_append, ← List.append_assoc]
      refine TokensKept.tokenless ?_ i fun event hevent => ?_
      · cases hwritten : writtenToken o.tokenWrite token with
        | none => simpa [saveGithubToken] using h
        | some contents =>
          refine ⟨fun tenant => ?_, h.called.append fun tenant common used heq => by cases heq⟩
          dsimp only [saveGithubToken]
          rw [writesIn, List.filterMap_append, Function.update_apply]
          change _ = LastWins.last (writesIn record ++ [(p.ctx.tenant, contents)]) tenant
          rw [LastWins.last_append, LastWins.last_singleton, ← h.tokens]
          by_cases htenant : tenant = p.ctx.tenant
          · rw [if_pos htenant, if_pos htenant.symm, Option.some_or]
          · rw [if_neg htenant, if_neg (Ne.symm htenant), Option.none_or]
      · rcases List.mem_append.mp hevent with hevent | hevent
        · rw [List.mem_singleton.mp hevent]
          rfl
        · rw [List.mem_singleton.mp hevent]
          rfl

/-- The tokens of a thread: the calls it makes are for its tenant, and it writes what it is given. -/
structure TokenBooks (p : Pipeline) (events : List Event) : Prop where
  called : ∀ tenant common token, .called tenant common token ∈ events → tenant = p.ctx.tenant
  wrote : ∀ tenant contents, .wrote tenant contents ∈ events →
    tenant = p.ctx.tenant ∧ ∃ entry ∈ answeredIn events, Gives entry.1 contents
  given : ∀ entry ∈ answeredIn events, ∀ contents, Gives entry.1 contents → .wrote p.ctx.tenant contents ∈ events

theorem TokenBooks.append {q : Pipeline} {events later : List Event} (h : TokenBooks p events) (hctx : q.ctx = p.ctx)
    (hcalled : ∀ tenant common token, .called tenant common token ∈ later → tenant = p.ctx.tenant)
    (hwrote : ∀ tenant contents, .wrote tenant contents ∈ later →
      tenant = p.ctx.tenant ∧ ∃ entry ∈ answeredIn later, Gives entry.1 contents)
    (hgiven : ∀ entry ∈ answeredIn later, ∀ contents, Gives entry.1 contents → .wrote p.ctx.tenant contents ∈ later) :
    TokenBooks q (events ++ later) := by
  obtain ⟨hcalled', hwrote', hgiven'⟩ := h
  rw [← hctx] at hcalled hwrote hgiven hcalled' hwrote' hgiven'
  refine ⟨fun tenant common token hmem => ?_, fun tenant contents hmem => ?_, fun entry hentry contents hgives => ?_⟩
  · exact (List.mem_append.mp hmem).elim (hcalled' tenant common token) (hcalled tenant common token)
  · rw [answeredIn_append]
    rcases List.mem_append.mp hmem with hmem | hmem
    · obtain ⟨htenant, entry, hentry, hgives⟩ := hwrote' tenant contents hmem
      exact ⟨htenant, entry, List.mem_append_left _ hentry, hgives⟩
    · obtain ⟨htenant, entry, hentry, hgives⟩ := hwrote tenant contents hmem
      exact ⟨htenant, entry, List.mem_append_right _ hentry, hgives⟩
  · rw [answeredIn_append] at hentry
    rcases List.mem_append.mp hentry with hentry | hentry
    · exact List.mem_append_left _ (hgiven' entry hentry contents hgives)
    · exact List.mem_append_right _ (hgiven entry hentry contents hgives)

theorem gives_unique {envelope : Message} {contents other : String} (h : Gives envelope contents)
    (hother : Gives envelope other) : contents = other := by
  obtain ⟨-, token, hmeta, -, rfl⟩ := h
  obtain ⟨-, given, hgiven, -, rfl⟩ := hother
  rw [hmeta, Option.some.injEq] at hgiven
  rw [hgiven]

/-- A step changes nothing of its call but the phase. -/
theorem step_thread (base64Encode : List UInt8 → String) :
    ∃ phase, (step codec o p base64Encode s).thread = { p with phase := phase } := by
  unfold step
  split
  next => exact ⟨_, rfl⟩
  next envelope todo done hphase =>
    obtain ⟨-, ⟨hthread, -⟩ | ⟨hthread, -⟩⟩ := prepare_cases p envelope todo done s <;> exact ⟨_, hthread⟩
  next => exact ⟨_, rfl⟩
  next => exact ⟨_, rfl⟩
  next => exact ⟨_, rfl⟩
  next reply replies todo hphase =>
    obtain ⟨-, -, -, -, ⟨err, hthread, -⟩ | ⟨how, hthread, -⟩⟩ :=
      @dispatch_cases codec o p s base64Encode reply replies todo <;> exact ⟨_, hthread⟩
  all_goals exact ⟨p.phase, rfl⟩

theorem step_ctx (base64Encode : List UInt8 → String) : (step codec o p base64Encode s).thread.ctx = p.ctx := by
  obtain ⟨phase, hthread⟩ := @step_thread codec o p s base64Encode
  rw [hthread]

/-- One step keeps the books on tokens, where what it writes is written. -/
theorem tokenBooks_step (base64Encode : List UInt8 → String) {events : List Event} (hwrite : o.tokenWrite = .done)
    (h : TokenBooks p events) :
    TokenBooks (step codec o p base64Encode s).thread (events ++ (step codec o p base64Encode s).done) := by
  have hplain : ∀ {later : List Event}, (∀ event ∈ later, event.tokenless = true) →
      (∀ entry ∈ answeredIn later, ∀ contents, ¬Gives entry.1 contents) →
      TokenBooks (step codec o p base64Encode s).thread (events ++ later) := by
    intro later hlater hnone
    refine h.append (step_ctx base64Encode) (fun tenant common token hmem => ?_) (fun tenant contents hmem => ?_)
      fun entry hentry contents hgives => absurd hgives (hnone entry hentry contents)
    · cases hlater _ hmem
    · cases hlater _ hmem
  rcases @step_tokens codec o p s base64Encode with ⟨-, hdone⟩ | ⟨envelope, -, hdone⟩
  · refine hplain (fun event hevent => (hdone event hevent).1) fun entry hentry => ?_
    have hnone : answeredIn (step codec o p base64Encode s).done = [] :=
      List.filterMap_eq_nil_iff.mpr fun event hevent => (hdone event hevent).2
    rw [hnone] at hentry
    exact absurd hentry List.not_mem_nil
  · have hone : answeredIn (step codec o p base64Encode s).done
        = [(envelope, (answer codec o p envelope s).replies)] := by
      rw [hdone, answeredIn_append, (quiet_answer envelope).2.1]
      rfl
    rcases @answer_tokens codec o p s envelope with ⟨-, hevents, hnone⟩ | ⟨token, -, -, hevents, hnone⟩
      | ⟨token, hgives, -, hevents⟩
    · refine hplain (fun event hevent => ?_) fun entry hentry => ?_
      · rw [hdone] at hevent
        exact tokenless_concat hevents rfl event hevent
      · rw [hone, List.mem_singleton] at hentry
        rw [hentry]
        exact hnone
    · refine h.append (step_ctx base64Encode) (fun tenant common used hmem => ?_) (fun tenant contents hmem => ?_)
        fun entry hentry contents hgives => ?_
      · rw [hdone, hevents] at hmem
        simp only [List.mem_append, List.mem_singleton, reduceCtorEq, or_false, Event.called.injEq] at hmem
        exact hmem.1
      · rw [hdone, hevents] at hmem
        simp at hmem
      · rw [hone, List.mem_singleton] at hentry
        rw [hentry] at hgives
        exact absurd hgives (hnone contents)
    · rw [hwrite] at hevents
      refine h.append (step_ctx base64Encode) (fun tenant common used hmem => ?_) (fun tenant contents hmem => ?_)
        fun entry hentry contents hother => ?_
      · rw [hdone, hevents] at hmem
        simp [writtenToken] at hmem
      · rw [hdone, hevents] at hmem
        simp only [writtenToken, Option.map_some, Option.toList_some, List.mem_append, List.mem_singleton, reduceCtorEq,
          or_false, Event.wrote.injEq] at hmem
        obtain ⟨rfl, rfl⟩ := hmem
        exact ⟨rfl, _, hone ▸ List.mem_singleton_self _, hgives⟩
      · rw [hone, List.mem_singleton] at hentry
        rw [hentry] at hother
        rw [hdone, hevents, gives_unique hother hgives]
        simp [writtenToken]

end TokenSteps

/-! ## What chats are asked for -/

section AskedSteps

variable {codec : MessageCodec} {o : Outside} {p : Pipeline} {s : Shared}

theorem mem_storedEvents {asked : Option (String × TelegramFormState)} {chat : String} {form : TelegramFormState}
    (h : .stored chat form ∈ storedEvents asked) : asked = some (chat, form) := by
  unfold storedEvents at h
  rw [Option.mem_toList, Option.map_eq_some_iff] at h
  obtain ⟨⟨chatId, other⟩, rfl, h⟩ := h
  cases h
  rfl

/-- A form is stored where the reply that asks for it is sent. -/
theorem step_stored {base64Encode : List UInt8 → String} {chat : String} {form : TelegramFormState}
    (h : .stored chat form ∈ (step codec o p base64Encode s).done) :
    ∃ reply replies todo, p.phase = .sending (reply :: replies) todo ∧ askedForm codec p reply = some (chat, form) := by
  unfold step at h
  split at h
  next => exact absurd h List.not_mem_nil
  next envelope todo done hphase =>
    have htook : .stored chat form ∉ tookEvents (takenForm p s.forms envelope) := by
      unfold tookEvents
      cases takenForm p s.forms envelope <;> simp
    obtain ⟨-, ⟨-, hdone⟩ | ⟨-, hdone⟩⟩ := prepare_cases p envelope todo done s
    · rw [hdone] at h
      exact absurd h htook
    · rw [hdone] at h
      simp only [List.mem_append, List.mem_singleton, reduceCtorEq, or_false] at h
      exact absurd h htook
  next => exact absurd h List.not_mem_nil
  next envelope todo hphase =>
    rcases List.mem_append.mp h with h | h
    · have hnone := (@answer_forms codec o p s envelope).2 _ h chat
      rw [Event.formEffect, if_pos rfl] at hnone
      cases hnone
    · cases List.mem_singleton.mp h
  next => exact absurd h List.not_mem_nil
  next reply replies todo hphase =>
    refine ⟨reply, replies, todo, hphase, ?_⟩
    obtain ⟨asked, hasked, -, -, hthread⟩ := @dispatch_cases codec o p s base64Encode reply replies todo
    have hform : asked = some (chat, form) := by
      rcases hthread with ⟨err, -, hdone⟩ | ⟨how, -, hdone⟩
      · exact mem_storedEvents (hdone ▸ h)
      · rw [hdone] at h
        simp only [List.mem_append, List.mem_singleton, reduceCtorEq, or_false] at h
        exact mem_storedEvents h
    rcases hasked with rfl | rfl
    · cases hform
    · exact hform
  all_goals exact absurd h List.not_mem_nil

/-- The books of a thread, where each form it has stored is what one of its replies asks for. -/
structure AskedBooks (codec : MessageCodec) (p : Pipeline) (events : List Event) : Prop where
  accounts : Accounts p events
  asked : ∀ chat form, .stored chat form ∈ events →
    ∃ reply ∈ (answeredIn events).flatMap Prod.snd, askedForm codec p reply = some (chat, form)

theorem askedBooks_step (base64Encode : List UInt8 → String) {events : List Event} (h : AskedBooks codec p events) :
    AskedBooks codec (step codec o p base64Encode s).thread (events ++ (step codec o p base64Encode s).done) := by
  refine ⟨accounts_step base64Encode h.accounts, fun chat form hstored => ?_⟩
  have hthread : askedForm codec (step codec o p base64Encode s).thread = askedForm codec p := by
    obtain ⟨phase, hthread⟩ := @step_thread codec o p s base64Encode
    rw [hthread]
    rfl
  obtain ⟨reply, hreply, hasked⟩ : ∃ reply ∈ (answeredIn events).flatMap Prod.snd,
      askedForm codec p reply = some (chat, form) := by
    rcases List.mem_append.mp hstored with hbefore | hnow
    · exact h.asked chat form hbefore
    · obtain ⟨reply, replies, todo, hphase, hasked⟩ := step_stored hnow
      obtain ⟨-, -, hreplies⟩ : Balanced p.batch events (.sending (reply :: replies) todo) :=
        hphase ▸ h.accounts.balanced
      refine ⟨reply, ?_, hasked⟩
      rw [hreplies]
      exact List.mem_append_right _ List.mem_cons_self
  refine ⟨reply, ?_, hthread ▸ hasked⟩
  rw [answeredIn_append, List.flatMap_append]
  exact List.mem_append_left _ hreply

end AskedSteps

/-- The form of a chat that is asked to sign in to GitHub. -/
def signInForm : TelegramFormState := ⟨["github_token"], [("action", "save_token")]⟩

/-- **The two cards that ask for a token** ask for the same form, where a card is read back as it is written. -/
theorem askedForm_signIn {codec : MessageCodec} {p : Pipeline} {reply : Message} {card : Value} {chat : String}
    (htelegram : p.provider = "messaging-telegram") (hforms : p.hasForms = true)
    (hcard : card = oauthPersonalCard ∨ card = authRequiredCard)
    (hread : (reply.meta "adaptive_card").bind codec.fromStr = some card)
    (hchat : (reply.meta "chat_id").or reply.others.receivers.head? = some chat) :
    askedForm codec p reply = some (chat, signInForm) := by
  have hform : extractFormStateFromCard codec.fromStr codec.toText reply = some signInForm := by
    unfold extractFormStateFromCard
    rw [hread]
    rcases hcard with rfl | rfl <;> rfl
  rw [askedForm, if_pos ⟨htelegram, hforms⟩, hform, hchat]
  rfl

/-- A text that answers the sign-in form is given as a token. -/
theorem gives_signIn {original : Message} {text : String} (htext : original.text = some text) (hne : text ≠ "") :
    Gives (settle (some signInForm) original) (Text.trim text) := by
  have hfilled : settle (some signInForm) original
      = (Envelope.insert original "github_token" text).insert "action" "save_token" := by
    change injectSubmit signInForm (withText signInForm original) = _
    unfold withText
    rw [htext]
    rfl
  rw [hfilled]
  refine ⟨?_, text, ?_, hne, rfl⟩
  · rw [meta_insert, if_pos rfl]
  · rw [meta_insert, if_neg (by decide), meta_insert, if_pos rfl]

/-! ## Every interleaving -/

section Runs

variable {codec : MessageCodec} {base64Encode : List UInt8 → String} {ops : List (Op Pipeline Outside)} {shared : Shared}
  {i : Nat} {p : Pipeline}

theorem askedBooks_of_run (hstarts : Starts ops) (hp : (after codec base64Encode ops shared).threads[i]? = some p) :
    AskedBooks codec p (own i (after codec base64Encode ops shared).record) := by
  refine @own_of_run _ _ _ _ (AskedBooks codec) _ ops shared (fun p hp => ⟨⟨?_, ?_, throughout_nil⟩, ?_⟩)
    (fun _ _ _ _ _ _ h => askedBooks_step base64Encode h) i p hp
  · rw [hstarts p hp]
    exact ⟨rfl, rfl, rfl, rfl⟩
  · exact fun entry hentry => absurd hentry List.not_mem_nil
  · exact fun _ _ h => absurd h List.not_mem_nil

theorem tokenBooks_of_run (hwrites : ∀ j o, .advance j o ∈ ops → o.tokenWrite = .done)
    (hp : (after codec base64Encode ops shared).threads[i]? = some p) :
    TokenBooks p (own i (after codec base64Encode ops shared).record) := by
  refine @own_of_run _ _ _ _ TokenBooks _ ops shared (fun p _ => ⟨?_, ?_, ?_⟩)
    (fun j o hop _ _ _ h => tokenBooks_step base64Encode (hwrites j o hop) h) i p hp
  · exact fun _ _ _ h => absurd h List.not_mem_nil
  · exact fun _ _ h => absurd h List.not_mem_nil
  · exact fun _ h => absurd h List.not_mem_nil

theorem formsKept_of_run (hforms : shared.forms = fun _ => none) :
    FormsKept (after codec base64Encode ops shared).shared.forms (after codec base64Encode ops shared).record := by
  refine @shared_of_run _ _ _ _ (fun shared record => FormsKept shared.forms record) _ ops shared
    ⟨fun chat => ?_, throughout_nil⟩ fun i _ _ _ _ _ h => formsKept_step base64Encode i h
  rw [hforms]
  rfl

theorem tokensKept_of_run (htokens : shared.tokens = fun _ => none) :
    TokensKept (after codec base64Encode ops shared).shared.tokens (after codec base64Encode ops shared).record := by
  refine @shared_of_run _ _ _ _ (fun shared record => TokensKept shared.tokens record) _ ops shared
    ⟨fun tenant => ?_, throughout_nil⟩ fun i _ _ _ _ _ h => tokensKept_step base64Encode i h
  rw [htokens]
  rfl

/-- **A form is taken once**, in every interleaving: whoever takes one takes what its chat was asked for last, by a
reply of a thread for Telegram, and nobody has taken or replaced it in between. -/
theorem taken_of_run (hstarts : Starts ops) (hforms : shared.forms = fun _ => none) {front back : List (Nat × Event)}
    {chat : String} {form : TelegramFormState}
    (hrecord : (after codec base64Encode ops shared).record = front ++ (i, .took chat form) :: back) :
    ∃ earlier j later, front = earlier ++ (j, .stored chat form) :: later
      ∧ (∀ entry ∈ later, entry.2.formEffect chat = none)
      ∧ ∃ q, (after codec base64Encode ops shared).threads[j]? = some q
        ∧ ∃ reply ∈ (answeredIn (own j (after codec base64Encode ops shared).record)).flatMap Prod.snd,
          askedForm codec q reply = some (chat, form) := by
  obtain ⟨earlier, j, later, rfl, hlater⟩ := exists_stored_of_pending
    ((formsKept_of_run hforms).taken front (i, .took chat form) back hrecord chat form rfl)
  have hstored : (j, .stored chat form) ∈ (after codec base64Encode ops shared).record := by
    rw [hrecord]
    simp
  obtain ⟨q, hq⟩ := exists_thread_of_run hstored
  exact ⟨earlier, j, later, rfl, hlater, q, hq, (askedBooks_of_run hstarts hq).asked chat form (mem_own_iff.mpr hstored)⟩

/-- **Who answers the sign-in form signs in**: where a thread comes to its end, the text of each message that took the
form is written to the file of its tenant. -/
theorem signIn_of_run (hstarts : Starts ops) (hwrites : ∀ j o, .advance j o ∈ ops → o.tokenWrite = .done)
    (hp : (after codec base64Encode ops shared).threads[i]? = some p) (hover : p.phase = .finished)
    {entry : Prepared} {text : String} (hentry : entry ∈ preparedIn (own i (after codec base64Encode ops shared).record))
    (htaken : entry.taken = some signInForm) (htext : entry.original.text = some text) (hne : text ≠ "") :
    (i, .wrote p.ctx.tenant (Text.trim text)) ∈ (after codec base64Encode ops shared).record := by
  have hhandled := handled_of_run hstarts hp
  have hresult : entry.result ∈ (answeredIn (own i (after codec base64Encode ops shared).record)).map Prod.fst := by
    rw [(hhandled.complete hover).2.1]
    exact List.mem_map_of_mem hentry
  obtain ⟨answer, hanswer, hfst⟩ := List.mem_map.mp hresult
  have hgives : Gives answer.1 (Text.trim text) := by
    rw [hfst, hhandled.settled entry hentry, htaken]
    exact gives_signIn htext hne
  exact mem_own_iff.mp ((tokenBooks_of_run hwrites hp).given answer hanswer _ hgives)

/-- **A tool is called with the common token or with the one its tenant was given last**, in every interleaving of the
threads of all tenants: a token that is not common was given in a message of the tenant itself. -/
theorem called_of_run (htokens : shared.tokens = fun _ => none)
    (hwrites : ∀ j o, .advance j o ∈ ops → o.tokenWrite = .done) {front back : List (Nat × Event)}
    {tenant token : String} {common : Option String} (hp : (after codec base64Encode ops shared).threads[i]? = some p)
    (hrecord : (after codec base64Encode ops shared).record = front ++ (i, .called tenant common token) :: back) :
    tenant = p.ctx.tenant ∧ (common = some token ∨ common = none ∧ token ≠ "" ∧ ∃ j contents,
      (j, .wrote tenant contents) ∈ front ∧ LastWins.last (writesIn front) tenant = some contents
      ∧ Text.trim contents = token
      ∧ ∀ q, (after codec base64Encode ops shared).threads[j]? = some q → q.ctx.tenant = tenant
        ∧ ∃ entry ∈ answeredIn (own j (after codec base64Encode ops shared).record), Gives entry.1 contents) := by
  have hcalls : (i, .called tenant common token) ∈ (after codec base64Encode ops shared).record := by
    rw [hrecord]
    exact List.mem_append_right _ List.mem_cons_self
  refine ⟨(tokenBooks_of_run hwrites hp).called tenant common token (mem_own_iff.mpr hcalls), ?_⟩
  rcases (tokensKept_of_run htokens).called front _ back hrecord tenant common token rfl with
    hcommon | ⟨hcommon, hne, contents, hlast, htrim⟩
  · exact .inl hcommon
  · obtain ⟨⟨j, event⟩, hmem, hwrite⟩ := List.mem_filterMap.mp (HashMap.mem_of_last hlast)
    have hevent : event = .wrote tenant contents := by
      cases event with
      | wrote other written =>
        cases hwrite
        rfl
      | _ => cases hwrite
    rw [hevent] at hmem
    refine .inr ⟨hcommon, hne, j, contents, hmem, hlast, htrim, fun q hq => ?_⟩
    have hown : .wrote tenant contents ∈ own j (after codec base64Encode ops shared).record := by
      rw [mem_own_iff, hrecord]
      exact List.mem_append_left _ hmem
    obtain ⟨htenant, hgiven⟩ := (tokenBooks_of_run hwrites hq).wrote tenant contents hown
    exact ⟨htenant.symm, hgiven⟩

end Runs

/-! ## The conversation -/

def Event.asTook : Event → Option (String × TelegramFormState)
  | .took chatId form => some (chatId, form)
  | _ => none

def Event.asCalled : Event → Option (String × Option String × String)
  | .called tenant common token => some (tenant, common, token)
  | _ => none

theorem mem_of_asTook {events : List Event} {chat : String} {form : TelegramFormState}
    (h : (chat, form) ∈ events.filterMap Event.asTook) : .took chat form ∈ events := by
  obtain ⟨event, hevent, htook⟩ := List.mem_filterMap.mp h
  cases event with
  | took chatId taken =>
    cases htook
    exact hevent
  | _ => cases htook

theorem mem_of_asCalled {events : List Event} {tenant token : String} {common : Option String}
    (h : (tenant, common, token) ∈ events.filterMap Event.asCalled) : .called tenant common token ∈ events := by
  obtain ⟨event, hevent, hcalled⟩ := List.mem_filterMap.mp h
  cases event with
  | called =>
    cases hcalled
    exact hevent
  | _ => cases hcalled

theorem writes_shown : ∀ j o, .advance j o ∈ shownOps → o.tokenWrite = .done := by
  intro j o ho
  simp only [shownOps, List.replicate, List.cons_append, List.nil_append, List.mem_cons, List.not_mem_nil,
    Op.advance.injEq, reduceCtorEq, or_false, false_or] at ho
  have houtside : o = shownSending := by tauto
  rw [houtside]
  rfl

/-- The form that is taken is the one that the first thread has asked for. -/
theorem taken_shown : ∃ front back, shown.record = front ++ (1, .took "chat" signInForm) :: back
    ∧ ∃ earlier j later, front = earlier ++ (j, .stored "chat" signInForm) :: later
      ∧ (∀ entry ∈ later, entry.2.formEffect "chat" = none)
      ∧ ∃ q, shown.threads[j]? = some q ∧ ∃ reply ∈ (answeredIn (own j shown.record)).flatMap Prod.snd,
        askedForm shownCodec q reply = some ("chat", signInForm) := by
  have htook : .took "chat" signInForm ∈ own 1 shown.record := mem_of_asTook (by decide +kernel)
  obtain ⟨front, back, hrecord⟩ := List.append_of_mem (mem_own_iff.mp htook)
  exact ⟨front, back, hrecord, taken_of_run starts_shown rfl hrecord⟩

/-- The text that answers the form is written to the file of the tenant. -/
theorem signIn_shown : (1, .wrote "acme" (Text.trim "ghp_1")) ∈ shown.record := by
  obtain ⟨p, hp⟩ := Option.isSome_iff_exists.mp (by decide +kernel : shown.threads[1]?.isSome = true)
  have hcall : shown.threads[1]?.map (fun p => (p.phase matches .finished, p.ctx.tenant)) = some (true, "acme") := by
    decide +kernel
  rw [hp, Option.map_some, Option.some.injEq, Prod.mk.injEq] at hcall
  obtain ⟨hover, htenant⟩ := hcall
  have hover : p.phase = .finished := by
    cases hphase : p.phase with
    | finished => rfl
    | _ =>
      rw [hphase] at hover
      cases hover
  obtain ⟨entry, hentry⟩ := Option.isSome_iff_exists.mp
    (by decide +kernel : (preparedIn (own 1 shown.record)).head?.isSome = true)
  have hform : (preparedIn (own 1 shown.record)).head?.map (fun entry => (entry.taken, entry.original.text))
      = some (some signInForm, some "ghp_1") := by decide +kernel
  rw [hentry, Option.map_some, Option.some.injEq, Prod.mk.injEq] at hform
  rw [← htenant]
  exact signIn_of_run starts_shown writes_shown hp hover (List.mem_of_head? hentry) hform.1 hform.2 (by decide)

/-- The tool is called with the token that the chat has given in the meantime. -/
theorem called_shown : ∃ front back, shown.record = front ++ (2, .called "acme" none "ghp_1") :: back
    ∧ ∃ j contents, (j, .wrote "acme" contents) ∈ front ∧ LastWins.last (writesIn front) "acme" = some contents
      ∧ Text.trim contents = "ghp_1" := by
  obtain ⟨p, hp⟩ := Option.isSome_iff_exists.mp (by decide +kernel : shown.threads[2]?.isSome = true)
  have hcalled : .called "acme" none "ghp_1" ∈ own 2 shown.record := mem_of_asCalled (by decide +kernel)
  obtain ⟨front, back, hrecord⟩ := List.append_of_mem (mem_own_iff.mp hcalled)
  refine ⟨front, back, hrecord, ?_⟩
  obtain ⟨-, hcommon | ⟨-, -, j, contents, hwrote, hlast, htrim, -⟩⟩ := called_of_run rfl writes_shown hp hrecord
  · cases hcommon
  · exact ⟨j, contents, hwrote, hlast, htrim⟩

end HttpIngress
