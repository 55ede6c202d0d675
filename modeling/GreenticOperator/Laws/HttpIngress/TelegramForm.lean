import GreenticOperator.Laws.Demo.Card
import GreenticOperator.Lib.Bytes

/-!
# Whether the answers to forms are settled rightly

The first answer of a chat takes the form of the chat (`Takes`), gets the data that the card submits and
puts its text under the first input; all other envelopes stay as they are (`preprocess_some`). The text is
cut for the log at its eighth byte, and nothing is asked of the other inputs. So a batch is settled rightly
exactly where each text that is logged can be cut there and each other input has a value already
(`settlesRightly_iff`).
-/

namespace HttpIngress

open Json Demo.Card
open Text (CutsAt byteLength)

variable {ρ : Type} {forms : TelegramFormStore} {form : TelegramFormState} {envelope : Envelope ρ}
  {envelopes results : List (Envelope ρ)}

/-! ## Who takes which form -/

/-- The chat whose form an envelope answers. -/
def claims (envelope : Envelope ρ) : Option String :=
  if hasPendingForm true envelope then envelope.meta "chat_id" else none

/-- The forms that are left after an envelope. -/
def leftBy (forms : TelegramFormStore) (envelope : Envelope ρ) : TelegramFormStore :=
  match claims envelope with
  | some chat => Function.update forms chat none
  | none => forms

/-- An envelope takes a form: it is the first that answers a form of its chat. -/
def Takes (forms : TelegramFormStore) (envelopes : List (Envelope ρ)) (i : Nat) (form : TelegramFormState) : Prop :=
  ∃ envelope chat, envelopes[i]? = some envelope ∧ claims envelope = some chat ∧ forms chat = some form
    ∧ ∀ j < i, ∀ earlier, envelopes[j]? = some earlier → claims earlier ≠ some chat

theorem leftBy_eq_some_iff {chat : String} :
    leftBy forms envelope chat = some form ↔ claims envelope ≠ some chat ∧ forms chat = some form := by
  unfold leftBy
  cases hclaims : claims envelope with
  | none => exact (and_iff_right nofun).symm
  | some other =>
    dsimp only
    by_cases hchat : chat = other
    · subst hchat
      rw [Function.update_self]
      exact iff_of_false nofun fun h => h.1 rfl
    · rw [Function.update_of_ne hchat]
      exact (and_iff_right fun heq => hchat (Option.some.inj heq).symm).symm

theorem takes_zero_iff : Takes forms (envelope :: envelopes) 0 form ↔ (claims envelope).bind forms = some form := by
  constructor
  · rintro ⟨first, chat, hfirst, hclaims, hform, -⟩
    cases hfirst
    rw [hclaims]
    exact hform
  · intro h
    obtain ⟨chat, hclaims, hform⟩ := Option.bind_eq_some_iff.mp h
    exact ⟨envelope, chat, rfl, hclaims, hform, fun _ hlt => absurd hlt (Nat.not_lt_zero _)⟩

theorem takes_succ_iff {i : Nat} :
    Takes forms (envelope :: envelopes) (i + 1) form ↔ Takes (leftBy forms envelope) envelopes i form := by
  constructor
  · rintro ⟨taker, chat, htaker, hclaims, hform, hfirst⟩
    refine ⟨taker, chat, htaker, hclaims, leftBy_eq_some_iff.mpr ⟨hfirst 0 (Nat.succ_pos i) envelope rfl, hform⟩, ?_⟩
    intro j hlt earlier hearlier
    exact hfirst (j + 1) (Nat.succ_lt_succ hlt) earlier hearlier
  · rintro ⟨taker, chat, htaker, hclaims, hform, hfirst⟩
    obtain ⟨hnot, hform⟩ := leftBy_eq_some_iff.mp hform
    refine ⟨taker, chat, htaker, hclaims, hform, ?_⟩
    intro j hlt earlier hearlier
    cases j with
    | zero =>
      cases hearlier
      exact hnot
    | succ j => exact hfirst j (Nat.lt_of_succ_lt_succ hlt) earlier hearlier

/-! ## One envelope -/

/-- The text under the first input, where there are both. -/
def withText (form : TelegramFormState) (envelope : Envelope ρ) : Envelope ρ :=
  match envelope.text, form.inputIds.head? with
  | some text, some firstId => envelope.insert firstId text
  | _, _ => envelope

/-- The text that is put under an input can be logged: it is short, or it can be cut at its eighth byte. -/
def Loggable (form : TelegramFormState) (envelope : Envelope ρ) : Prop :=
  ∀ text, envelope.text = some text → form.inputIds ≠ [] → byteLength text.toList ≤ 8 ∨ CutsAt 8 text.toList

theorem isSome_textPreview_iff (text : String) :
    (textPreview text).isSome = true ↔ byteLength text.toList ≤ 8 ∨ CutsAt 8 text.toList := by
  unfold textPreview
  change (if byteLength text.toList ≤ 8 then _ else _ : Option String).isSome = true ↔ _
  split
  next hshort => exact iff_of_true rfl (Or.inl hshort)
  next hlong => rw [Option.isSome_map, Text.isSome_splitAtByte_iff, or_iff_right hlong]

theorem injectText_eq (form : TelegramFormState) (envelope : Envelope ρ) [Decidable (Loggable form envelope)] :
    injectText form envelope = if Loggable form envelope then some (withText form envelope) else none := by
  unfold injectText withText
  cases htext : envelope.text with
  | none =>
    have hyes : Loggable form envelope := by
      intro text h
      rw [htext] at h
      cases h
    rw [if_pos hyes]
  | some text =>
    cases hids : form.inputIds with
    | nil =>
      have hyes : Loggable form envelope := fun _ _ hne => absurd hids hne
      rw [if_pos hyes]
      rfl
    | cons firstId rest =>
      have hiff : Loggable form envelope ↔ (textPreview text).isSome = true := by
        rw [isSome_textPreview_iff]
        constructor
        · intro h
          exact h text htext (by rw [hids]; nofun)
        · intro h other hother _
          rw [htext, Option.some.injEq] at hother
          exact hother ▸ h
      rw [List.head?_cons]
      dsimp only
      cases hpreview : textPreview text with
      | none =>
        rw [hpreview] at hiff
        rw [if_neg fun h => nomatch hiff.mp h]
        rfl
      | some preview =>
        rw [hpreview] at hiff
        rw [if_pos (hiff.mpr rfl)]
        rfl

theorem preprocessOne_some (forms : TelegramFormStore) (envelope : Envelope ρ) :
    preprocessOne (some forms) envelope
      = match (claims envelope).bind forms with
        | some form =>
          (injectText form envelope).map fun filled => (injectSubmit form filled, some (leftBy forms envelope))
        | none => some (envelope, some (leftBy forms envelope)) := by
  unfold preprocessOne leftBy claims
  rw [Option.isSome_some]
  by_cases hpending : hasPendingForm true envelope = true
  · rw [if_pos hpending, if_pos hpending]
    cases hchat : envelope.meta "chat_id" with
    | none => rfl
    | some chat =>
      dsimp only [TelegramFormStore.take]
      rw [Option.bind_some]
      cases forms chat with
      | none => rfl
      | some form => rfl
  · rw [if_neg hpending, if_neg hpending]
    rfl

theorem preprocess_none (envelopes : List (Envelope ρ)) : preprocess none envelopes = some (envelopes, none) := by
  induction envelopes with
  | nil => rfl
  | cons envelope envelopes ih =>
    have hone : preprocessOne none envelope = some (envelope, none) := by
      unfold preprocessOne
      split
      · rfl
      · rfl
    rw [preprocess, hone]
    show (preprocess none envelopes).bind _ = _
    rw [ih]
    rfl

/-! ## A batch -/

/-- What becomes of a batch of envelopes. -/
structure Settled (forms left : TelegramFormStore) (envelopes results : List (Envelope ρ)) : Prop where
  length : results.length = envelopes.length
  taken : ∀ {i : Nat} {envelope : Envelope ρ} {form : TelegramFormState}, envelopes[i]? = some envelope →
    Takes forms envelopes i form → results[i]? = some (injectSubmit form (withText form envelope))
  kept : ∀ {i : Nat} {envelope : Envelope ρ}, envelopes[i]? = some envelope →
    (∀ form, ¬ Takes forms envelopes i form) → results[i]? = some envelope
  used : ∀ {envelope : Envelope ρ} {chat : String}, envelope ∈ envelopes → claims envelope = some chat → left chat = none
  unused : ∀ {chat : String}, (∀ envelope ∈ envelopes, claims envelope ≠ some chat) → left chat = forms chat

theorem leftBy_of_claims_ne {chat : String} (h : claims envelope ≠ some chat) :
    leftBy forms envelope chat = forms chat := by
  refine Option.ext fun form => ?_
  rw [leftBy_eq_some_iff, and_iff_right h]

theorem leftBy_eq_none_of_claims {chat : String} (h : claims envelope = some chat) :
    leftBy forms envelope chat = none :=
  Option.eq_none_iff_forall_not_mem.mpr fun _ hform => (leftBy_eq_some_iff.mp hform).1 h

/-- One envelope before a batch. -/
theorem Settled.cons {left : TelegramFormStore} {done : Envelope ρ}
    (h : Settled (leftBy forms envelope) left envelopes results)
    (htaken : ∀ form, (claims envelope).bind forms = some form → done = injectSubmit form (withText form envelope))
    (hkept : (claims envelope).bind forms = none → done = envelope) :
    Settled forms left (envelope :: envelopes) (done :: results) where
  length := congrArg Nat.succ h.length
  taken := by
    intro i taker form htaker htakes
    cases i with
    | zero =>
      cases htaker
      exact congrArg some (htaken form (takes_zero_iff.mp htakes))
    | succ i => exact h.taken htaker (takes_succ_iff.mp htakes)
  kept := by
    intro i other hother hnot
    cases i with
    | zero =>
      cases hother
      refine congrArg some (hkept ?_)
      exact Option.eq_none_iff_forall_not_mem.mpr fun form hform => hnot form (takes_zero_iff.mpr hform)
    | succ i => exact h.kept hother fun form htakes => hnot form (takes_succ_iff.mpr htakes)
  used := by
    intro other chat hmem hclaims
    by_cases hlater : ∃ later ∈ envelopes, claims later = some chat
    · obtain ⟨later, hlater, hclaims⟩ := hlater
      exact h.used hlater hclaims
    · have hfirst : other = envelope := by
        rcases List.mem_cons.mp hmem with heq | hmem
        · exact heq
        · exact absurd ⟨other, hmem, hclaims⟩ hlater
      rw [h.unused fun later hmem hclaims => hlater ⟨later, hmem, hclaims⟩]
      exact leftBy_eq_none_of_claims (hfirst ▸ hclaims)
  unused := by
    intro chat hnone
    rw [h.unused fun later hmem => hnone later (List.mem_cons_of_mem envelope hmem)]
    exact leftBy_of_claims_ne (hnone envelope List.mem_cons_self)

/-- **A batch is settled, where every text that is put under an input can be logged.** By induction on the
batch, from the forms that its first envelope leaves. -/
theorem preprocess_some (h : ∀ i envelope form, envelopes[i]? = some envelope → Takes forms envelopes i form →
      Loggable form envelope) :
    ∃ results left, preprocess (some forms) envelopes = some (results, some left)
      ∧ Settled forms left envelopes results := by
  classical
  induction envelopes generalizing forms with
  | nil => exact ⟨[], forms, rfl, ⟨rfl, nofun, nofun, nofun, fun _ => rfl⟩⟩
  | cons envelope envelopes ih =>
    have hlater : ∀ i other form, envelopes[i]? = some other → Takes (leftBy forms envelope) envelopes i form →
        Loggable form other :=
      fun i other form hother htakes => h (i + 1) other form hother (takes_succ_iff.mpr htakes)
    obtain ⟨results, left, hrest, hsettled⟩ := ih hlater
    cases hform : (claims envelope).bind forms with
    | none =>
      refine ⟨envelope :: results, left, ?_, hsettled.cons ?_ fun _ => rfl⟩
      · rw [preprocess, preprocessOne_some, hform]
        show (preprocess (some (leftBy forms envelope)) envelopes).bind _ = _
        rw [hrest]
        rfl
      · intro form hsome
        rw [hform] at hsome
        cases hsome
    | some form =>
      have hlog := h 0 envelope form rfl (takes_zero_iff.mpr hform)
      refine ⟨injectSubmit form (withText form envelope) :: results, left, ?_, hsettled.cons ?_ ?_⟩
      · rw [preprocess, preprocessOne_some, hform]
        dsimp only
        rw [injectText_eq, if_pos hlog]
        show (preprocess (some (leftBy forms envelope)) envelopes).bind _ = _
        rw [hrest]
        rfl
      · intro other hother
        rw [hform, Option.some.injEq] at hother
        rw [hother]
      · intro hnone
        rw [hform] at hnone
        cases hnone

/-- The thread panics where one of them cannot. -/
theorem loggable_of_preprocess (h : (preprocess (some forms) envelopes).isSome = true) :
    ∀ i envelope form, envelopes[i]? = some envelope → Takes forms envelopes i form → Loggable form envelope := by
  classical
  induction envelopes generalizing forms with
  | nil => exact fun _ _ _ hsome => nomatch hsome
  | cons envelope envelopes ih =>
    rw [preprocess, preprocessOne_some] at h
    have hlog : ∀ form, (claims envelope).bind forms = some form → Loggable form envelope := by
      intro form hform
      rw [hform] at h
      dsimp only at h
      rw [injectText_eq] at h
      by_contra hnot
      rw [if_neg hnot] at h
      cases h
    have hrest : (preprocess (some (leftBy forms envelope)) envelopes).isSome = true := by
      cases hform : (claims envelope).bind forms with
      | none =>
        rw [hform] at h
        change ((preprocess (some (leftBy forms envelope)) envelopes).bind _).isSome = true at h
        exact Option.isSome_of_isSome_bind h
      | some form =>
        rw [hform] at h
        dsimp only at h
        rw [injectText_eq, if_pos (hlog form hform)] at h
        change ((preprocess (some (leftBy forms envelope)) envelopes).bind _).isSome = true at h
        exact Option.isSome_of_isSome_bind h
    intro i other form hother htakes
    cases i with
    | zero =>
      cases hother
      exact hlog form (takes_zero_iff.mp htakes)
    | succ i => exact ih hrest i other form hother (takes_succ_iff.mp htakes)

/-! ## Settled rightly -/

def formsOf (store : Option TelegramFormStore) : TelegramFormStore := store.getD fun _ => none

/-- The envelopes are the same but for their metadata; where the form of a chat is answered, one envelope gets it and
the chat has no form any more; and a submission is added where every input has a value. -/
structure Rightly (forms left : TelegramFormStore) (envelopes results : List (Envelope ρ)) : Prop where
  same : results.map (fun envelope => (envelope.text, envelope.others))
    = envelopes.map fun envelope => (envelope.text, envelope.others)
  once : ∀ chat form, forms chat = some form → (∃ envelope ∈ envelopes, claims envelope = some chat) →
    left chat = none ∧ ∃ (i : Nat) (envelope : Envelope ρ), envelopes[i]? = some envelope ∧ claims envelope = some chat
      ∧ results[i]? = some (injectSubmit form (withText form envelope))
      ∧ ∀ j ≠ i, ∀ other, envelopes[j]? = some other → claims other = some chat → results[j]? = some other
  untouched : ∀ (i : Nat) (envelope : Envelope ρ), envelopes[i]? = some envelope → (claims envelope).bind forms = none →
    results[i]? = some envelope
  unclaimed : ∀ chat, (∀ envelope ∈ envelopes, claims envelope ≠ some chat) → left chat = forms chat
  complete : ∀ i envelope form, envelopes[i]? = some envelope → Takes forms envelopes i form → form.submitData ≠ [] →
    ∀ id ∈ form.inputIds, ((withText form envelope).meta id).isSome = true

/-- The thread does not panic, and the batch is settled rightly. -/
def SettlesRightly (store : Option TelegramFormStore) (envelopes : List (Envelope ρ)) : Prop :=
  ∃ results left, preprocess store envelopes = some (results, left)
    ∧ Rightly (formsOf store) (formsOf left) envelopes results

/-- An envelope suits a form: its text can be logged, and where the card submits data, each input but the first has a
value already, and the first has one or gets the text. -/
structure Suits (form : TelegramFormState) (envelope : Envelope ρ) : Prop where
  loggable : Loggable form envelope
  valued : form.submitData ≠ [] → ∀ id ∈ form.inputIds,
    (envelope.meta id).isSome = true ∨ form.inputIds.head? = some id ∧ envelope.text.isSome = true

theorem meta_insert (envelope : Envelope ρ) (key value id : String) :
    (envelope.insert key value).meta id = if id = key then some value else envelope.meta id :=
  SortedMap.lookup_alter_const key id value envelope.metadata

theorem isSome_meta_withText_iff {id : String} : ((withText form envelope).meta id).isSome = true
    ↔ (envelope.meta id).isSome = true ∨ form.inputIds.head? = some id ∧ envelope.text.isSome = true := by
  unfold withText
  cases envelope.text with
  | none => exact (or_iff_left fun h => nomatch h.2).symm
  | some text =>
    cases form.inputIds.head? with
    | none => exact (or_iff_left fun h => nomatch h.1).symm
    | some firstId =>
      dsimp only
      rw [meta_insert]
      by_cases hid : id = firstId
      · rw [if_pos hid]
        exact iff_of_true rfl (Or.inr ⟨congrArg some hid.symm, rfl⟩)
      · rw [if_neg hid]
        exact (or_iff_left fun h => hid (Option.some.inj h.1).symm).symm

theorem besides_injectSubmit (form : TelegramFormState) (envelope : Envelope ρ) :
    ((injectSubmit form envelope).text, (injectSubmit form envelope).others) = (envelope.text, envelope.others) := by
  unfold injectSubmit
  induction form.submitData generalizing envelope with
  | nil => rfl
  | cons entry entries ih => exact ih (envelope.insert entry.1 entry.2)

theorem besides_withText (form : TelegramFormState) (envelope : Envelope ρ) :
    ((withText form envelope).text, (withText form envelope).others) = (envelope.text, envelope.others) := by
  unfold withText
  split
  · rfl
  · rfl

/-- No form is left for an envelope after another of its chat. -/
theorem not_takes_of_earlier {i j : Nat} {earlier : Envelope ρ} {chat : String} (hlt : i < j)
    (hearlier : envelopes[i]? = some earlier) (hclaims : claims earlier = some chat)
    (henvelope : envelopes[j]? = some envelope) (hsame : claims envelope = some chat) :
    ¬ Takes forms envelopes j form := by
  rintro ⟨taker, other, htaker, hother, -, hfirst⟩
  obtain rfl := Option.some.inj (htaker.symm.trans henvelope)
  obtain rfl := Option.some.inj (hother.symm.trans hsame)
  exact hfirst i hlt earlier hearlier hclaims

theorem Settled.rightly {left : TelegramFormStore} (h : Settled forms left envelopes results)
    (hvalued : ∀ i envelope form, envelopes[i]? = some envelope → Takes forms envelopes i form → Suits form envelope) :
    Rightly forms left envelopes results where
  same := by
    refine List.ext_getElem? fun i => ?_
    rw [List.getElem?_map, List.getElem?_map]
    cases henvelope : envelopes[i]? with
    | none =>
      have hnone : results[i]? = none := by
        rw [List.getElem?_eq_none_iff] at henvelope ⊢
        exact h.length ▸ henvelope
      rw [hnone]
    | some envelope =>
      by_cases htakes : ∃ form, Takes forms envelopes i form
      · obtain ⟨form, htakes⟩ := htakes
        rw [h.taken henvelope htakes]
        exact congrArg some ((besides_injectSubmit form _).trans (besides_withText form envelope))
      · rw [h.kept henvelope fun form hform => htakes ⟨form, hform⟩]
  once := by
    intro chat form hform hclaimed
    obtain ⟨envelope, hmem, hclaims⟩ := hclaimed
    refine ⟨h.used hmem hclaims, ?_⟩
    have hexists : ∃ (i : Nat) (envelope : Envelope ρ), envelopes[i]? = some envelope ∧ claims envelope = some chat := by
      obtain ⟨i, hi⟩ := List.mem_iff_getElem?.mp hmem
      exact ⟨i, envelope, hi, hclaims⟩
    classical
    obtain ⟨first, hfirst, hfirstClaims⟩ := Nat.find_spec hexists
    have hleast : ∀ j < Nat.find hexists, ∀ earlier, envelopes[j]? = some earlier → claims earlier ≠ some chat :=
      fun j hlt earlier hearlier hsame => Nat.find_min hexists hlt ⟨earlier, hearlier, hsame⟩
    refine ⟨Nat.find hexists, first, hfirst, hfirstClaims, ?_, ?_⟩
    · exact h.taken hfirst ⟨first, chat, hfirst, hfirstClaims, hform, hleast⟩
    · intro j hne other hother hsame
      have hlt : Nat.find hexists < j := by
        rcases Nat.lt_or_gt_of_ne hne with hlt | hlt
        · exact absurd hsame (hleast j hlt other hother)
        · exact hlt
      exact h.kept hother fun form => not_takes_of_earlier hlt hfirst hfirstClaims hother hsame
  untouched := by
    intro i envelope henvelope hnone
    refine h.kept henvelope fun form htakes => ?_
    obtain ⟨taker, chat, htaker, hclaims, hform, -⟩ := htakes
    obtain rfl := Option.some.inj (htaker.symm.trans henvelope)
    rw [hclaims, Option.bind_some, hform] at hnone
    cases hnone
  unclaimed := fun _ => h.unused
  complete := by
    intro i envelope form henvelope htakes hsubmit id hid
    exact isSome_meta_withText_iff.mpr ((hvalued i envelope form henvelope htakes).valued hsubmit id hid)

/-- **When a batch is settled rightly.** Each envelope that takes a form suits it. -/
theorem settlesRightly_iff (store : Option TelegramFormStore) (envelopes : List (Envelope ρ)) :
    SettlesRightly store envelopes ↔ ∀ i envelope form, envelopes[i]? = some envelope →
      Takes (formsOf store) envelopes i form → Suits form envelope := by
  constructor
  · rintro ⟨results, left, hrun, hrightly⟩ i envelope form henvelope htakes
    refine ⟨?_, ?_⟩
    · cases store with
      | none =>
        obtain ⟨_, _, _, _, hform, _⟩ := htakes
        cases hform
      | some forms => exact loggable_of_preprocess (Option.isSome_of_eq_some hrun) i envelope form henvelope htakes
    · intro hsubmit id hid
      exact isSome_meta_withText_iff.mp (hrightly.complete i envelope form henvelope htakes hsubmit id hid)
  · intro hsuits
    cases store with
    | none =>
      refine ⟨envelopes, none, preprocess_none envelopes, rfl, nofun, fun _ _ henvelope _ => henvelope,
        fun _ _ => rfl, ?_⟩
      rintro i envelope form - ⟨_, _, _, _, hform, _⟩
      cases hform
    | some forms =>
      have hlog : ∀ i envelope form, envelopes[i]? = some envelope → Takes forms envelopes i form →
          Loggable form envelope :=
        fun i envelope form henvelope htakes => (hsuits i envelope form henvelope htakes).loggable
      obtain ⟨results, left, hrun, hsettled⟩ := preprocess_some hlog
      exact ⟨results, some left, hrun, hsettled.rightly hsuits⟩

/-! ## Forms of cards -/

/-- The form of a card asks for something, and for nothing that the parser does not list. -/
theorem inputIds_of_extractFormStateFromCard {fromStr : String → Option Value} {toText : Value → String}
    (h : extractFormStateFromCard fromStr toText envelope = some form) : form.inputIds ≠ [] ∧
      ∃ card body, (envelope.meta "adaptive_card").bind fromStr = some card ∧ getArray card "body" = some body
        ∧ form.inputIds.Sublist (textIds (collectInputs body)) := by
  obtain ⟨card, hcard, hrest⟩ := Option.bind_eq_some_iff.mp h
  obtain ⟨body, hbody, hform⟩ := Option.bind_eq_some_iff.mp hrest
  split at hform
  next => cases hform
  next hids =>
    cases hform
    exact ⟨hids, card, body, hcard, hbody, collectInputIds_sublist body⟩

/-- A form that is put is the one that is taken. -/
theorem take_put (forms : TelegramFormStore) (chatId : String) (form : TelegramFormState) :
    (forms.put chatId form).take chatId = (some form, Function.update forms chatId none) := by
  unfold TelegramFormStore.put TelegramFormStore.take
  rw [Function.update_self, Function.update_idem]

/-! ## Two batches -/

def tokenForm : TelegramFormState := ⟨["token", "owner"], [("action", "save_token")]⟩

/-- A text whose eighth byte is in a character makes the thread panic; and an answer to a form of two inputs is
submitted with a value for the first alone. -/
theorem form_answers_go_wrong :
    preprocess (some fun chat => if chat = "42" then some tokenForm else none)
        [(⟨some "1234567é", [("chat_id", "42")], ()⟩ : Envelope Unit)] = none
    ∧ ((preprocess (some fun chat => if chat = "42" then some tokenForm else none)
        [(⟨some "secret", [("chat_id", "42")], ()⟩ : Envelope Unit)]).map Prod.fst)
      = some [⟨some "secret", [("action", "save_token"), ("chat_id", "42"), ("token", "secret")], ()⟩] := by
  decide +kernel

end HttpIngress
