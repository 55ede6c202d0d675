import Mathlib.Data.Set.Card

/-!
# FirstMatch — edits of the first entry that has a key

Some entries of a list have a key. An edit changes the first entry that has its key, where there is
something to change, and may add an entry where there is none. `Edit.Lawful` says that an edit keeps
the key and a part of the entry, and leaves nothing to do.

Edits with one edit for each key change only first entries of their keys (`framed_applyAll`), are
counted by the positions at which the lists differ (`updates_applyAll`), and do nothing when they
are made again (`applyAll_again`).
-/

namespace FirstMatch

universe u v w

variable {κ : Type u} {ε : Type v} {β : Type w}

/-- What becomes of the entry of a key, where there is something to do, and what is added where it has none. -/
structure Edit (κ : Type u) (ε : Type v) where
  key : κ
  change : ε → Option ε
  fresh : Option ε

/-- The entries after edits, how many were changed or added, and the keys that had no entry. -/
structure Done (κ : Type u) (ε : Type v) where
  entries : List ε
  updates : Nat
  absent : List κ

section Edits

variable [DecidableEq κ] (key : ε → Option κ)

def editFirst (edit : Edit κ ε) : List ε → Option (List ε × Nat)
  | [] => none
  | entry :: rest =>
    if key entry = some edit.key then
      match edit.change entry with
      | some changed => some (changed :: rest, 1)
      | none => some (entry :: rest, 0)
    else (editFirst edit rest).map fun (rest, updates) => (entry :: rest, updates)

def apply (edit : Edit κ ε) (entries : List ε) : Done κ ε :=
  match editFirst key edit entries with
  | some (entries, updates) => ⟨entries, updates, []⟩
  | none =>
    match edit.fresh with
    | some entry => ⟨entries ++ [entry], 1, [edit.key]⟩
    | none => ⟨entries, 0, [edit.key]⟩

def applyAll : List (Edit κ ε) → List ε → Done κ ε
  | [], entries => ⟨entries, 0, []⟩
  | edit :: edits, entries =>
    let first := apply key edit entries
    let rest := applyAll edits first.entries
    ⟨rest.entries, first.updates + rest.updates, first.absent ++ rest.absent⟩

/-- The first entry that has a key. -/
def entryOf (k : κ) (entries : List ε) : Option ε := entries.find? fun entry => key entry = some k

end Edits

/-! ## First entries -/

/-- The entry at a position is the first that has a key. -/
def IsFirst (key : ε → Option κ) (k : κ) (entries : List ε) (i : Nat) : Prop :=
  ∃ entry, entries[i]? = some entry ∧ key entry = some k
    ∧ ∀ j < i, ∀ other, entries[j]? = some other → key other ≠ some k

theorem isFirst_cons {key : ε → Option κ} {k : κ} {entries : List ε} {i : Nat} {entry : ε}
    (hentry : key entry ≠ some k) (h : IsFirst key k entries i) : IsFirst key k (entry :: entries) (i + 1) := by
  obtain ⟨found, hfound, hkey, hbefore⟩ := h
  refine ⟨found, by rwa [List.getElem?_cons_succ], hkey, fun j hj other hother => ?_⟩
  cases j with
  | zero =>
    rw [List.getElem?_cons_zero, Option.some.injEq] at hother
    exact hother ▸ hentry
  | succ j =>
    rw [List.getElem?_cons_succ] at hother
    exact hbefore j (by omega) other hother

theorem IsFirst.key_eq {key : ε → Option κ} {k : κ} {entries : List ε} {i : Nat} {entry : ε}
    (h : IsFirst key k entries i) (hentry : entries[i]? = some entry) : key entry = some k := by
  obtain ⟨found, hfound, hkey, -⟩ := h
  cases hentry.symm.trans hfound
  exact hkey

theorem IsFirst.key_inj {key : ε → Option κ} {k k' : κ} {entries : List ε} {i : Nat} (h : IsFirst key k entries i) (h' : IsFirst key k' entries i) : k = k' := by
  obtain ⟨entry, hentry, hkey, -⟩ := h
  exact Option.some.inj (hkey.symm.trans (h'.key_eq hentry))

/-- Only first entries of the keys are changed or added; what is kept of an entry, and its key, stay. -/
structure Framed (key : ε → Option κ) (part : ε → β) (keys : List κ) (entries after : List ε) : Prop where
  kept : ∀ (i : Nat) (entry : ε), entries[i]? = some entry →
    ∃ entry', after[i]? = some entry' ∧ key entry' = key entry ∧ part entry' = part entry
  changed : ∀ i : Nat, after[i]? ≠ entries[i]? → ∃ k ∈ keys, IsFirst key k after i

section Framed

variable {key : ε → Option κ} {part : ε → β} {keys keys' : List κ} {entries middle after : List ε}

theorem Framed.refl (entries : List ε) : Framed key part keys entries entries where
  kept _ entry hentry := ⟨entry, hentry, rfl, rfl⟩
  changed _ hne := absurd rfl hne

theorem Framed.mono (h : Framed key part keys entries after) (hkeys : keys ⊆ keys') :
    Framed key part keys' entries after where
  kept := h.kept
  changed i hne := by
    obtain ⟨k, hk, hfirst⟩ := h.changed i hne
    exact ⟨k, hkeys hk, hfirst⟩

theorem Framed.map {γ : Type*} (h : Framed key part keys entries after) (f : β → γ) :
    Framed key (f ∘ part) keys entries after where
  kept i entry hentry := by
    obtain ⟨entry', hentry', hkey, hpart⟩ := h.kept i entry hentry
    exact ⟨entry', hentry', hkey, congrArg f hpart⟩
  changed := h.changed

/-- A first entry of its key stays one, where entries keep their keys. -/
theorem isFirst_of_kept (hkept : ∀ (i : Nat) (entry : ε), entries[i]? = some entry →
      ∃ entry', after[i]? = some entry' ∧ key entry' = key entry ∧ part entry' = part entry)
    {k : κ} {i : Nat} (hfirst : IsFirst key k entries i) : IsFirst key k after i := by
  obtain ⟨entry, hentry, hkey, hbefore⟩ := hfirst
  obtain ⟨entry', hentry', hkey', -⟩ := hkept i entry hentry
  refine ⟨entry', hentry', hkey'.trans hkey, fun j hj other hother => ?_⟩
  have hlength : j < entries.length := Nat.lt_trans hj (List.getElem?_eq_some_iff.mp hentry).1
  obtain ⟨other', hother', hsame, -⟩ := hkept j entries[j] (List.getElem?_eq_getElem hlength)
  cases hother.symm.trans hother'
  rw [hsame]
  exact hbefore j hj _ (List.getElem?_eq_getElem hlength)

theorem Framed.isFirst (h : Framed key part keys entries after) {k : κ} {i : Nat} (hfirst : IsFirst key k entries i) :
    IsFirst key k after i := isFirst_of_kept h.kept hfirst

theorem Framed.trans (h : Framed key part keys entries middle) (h' : Framed key part keys middle after) :
    Framed key part keys entries after where
  kept i entry hentry := by
    obtain ⟨between, hbetween, hkey, hpart⟩ := h.kept i entry hentry
    obtain ⟨last, hlast, hkey', hpart'⟩ := h'.kept i between hbetween
    exact ⟨last, hlast, hkey'.trans hkey, hpart'.trans hpart⟩
  changed i hne := by
    by_cases hsame : after[i]? = middle[i]?
    · obtain ⟨k, hk, hfirst⟩ := h.changed i (hsame ▸ hne)
      exact ⟨k, hk, h'.isFirst hfirst⟩
    · exact h'.changed i hsame

end Framed

/-! ## Lawful edits -/

/-- An edit keeps the key and a part of its entry, and there is nothing to do once it was made. -/
structure Edit.Lawful (key : ε → Option κ) (part : ε → β) (edit : Edit κ ε) : Prop where
  key_change : ∀ {entry changed : ε}, key entry = some edit.key → edit.change entry = some changed →
    key changed = key entry
  part_change : ∀ {entry changed : ε}, key entry = some edit.key → edit.change entry = some changed →
    part changed = part entry
  settled_change : ∀ {entry changed : ε}, key entry = some edit.key → edit.change entry = some changed →
    edit.change changed = none
  key_fresh : ∀ {entry : ε}, edit.fresh = some entry → key entry = some edit.key
  settled_fresh : ∀ {entry : ε}, edit.fresh = some entry → edit.change entry = none

theorem Edit.Lawful.ne_of_change {key : ε → Option κ} {part : ε → β} {edit : Edit κ ε} (h : edit.Lawful key part)
    {entry changed : ε} (hkey : key entry = some edit.key) (hchange : edit.change entry = some changed) :
    changed ≠ entry := by
  rintro rfl
  rw [h.settled_change hkey hchange] at hchange
  cases hchange

section Apply

variable [DecidableEq κ] {key : ε → Option κ} {part : ε → β} {edit : Edit κ ε} {entries : List ε}

/-- There is nothing to do for an edit. -/
def Settled (key : ε → Option κ) (edit : Edit κ ε) (entries : List ε) : Prop :=
  match entryOf key edit.key entries with
  | some entry => edit.change entry = none
  | none => edit.fresh = none

theorem editFirst_eq_none_iff : editFirst key edit entries = none ↔ entryOf key edit.key entries = none := by
  induction entries with
  | nil => exact iff_of_true rfl rfl
  | cons entry entries ih =>
    unfold editFirst entryOf
    rw [List.find?_cons]
    by_cases hkey : key entry = some edit.key
    · rw [if_pos hkey, decide_eq_true hkey]
      refine iff_of_false ?_ nofun
      split <;> nofun
    · rw [if_neg hkey, decide_eq_false hkey, Option.map_eq_none_iff]
      exact ih

/-- **What editing the first entry does**: nothing, where there is nothing to do, or one change. -/
theorem editFirst_cases {after : List ε} {updates : Nat} (h : editFirst key edit entries = some (after, updates)) :
    ∃ i entry, entries[i]? = some entry ∧ IsFirst key edit.key entries i ∧ entryOf key edit.key entries = some entry
      ∧ ((edit.change entry = none ∧ after = entries ∧ updates = 0)
        ∨ ∃ changed, edit.change entry = some changed ∧ after = entries.set i changed ∧ updates = 1) := by
  induction entries generalizing after updates with
  | nil => cases h
  | cons entry entries ih =>
    unfold editFirst at h
    unfold entryOf
    rw [List.find?_cons]
    by_cases hkey : key entry = some edit.key
    · rw [if_pos hkey] at h
      rw [decide_eq_true hkey]
      refine ⟨0, entry, rfl, ⟨entry, rfl, hkey, fun j hj => absurd hj (Nat.not_lt_zero j)⟩, rfl, ?_⟩
      split at h
      next changed hchange =>
        cases h
        exact .inr ⟨changed, hchange, rfl, rfl⟩
      next hchange =>
        cases h
        exact .inl ⟨hchange, rfl, rfl⟩
    · rw [if_neg hkey] at h
      rw [decide_eq_false hkey]
      obtain ⟨⟨rest, n⟩, hrest, heq⟩ := Option.map_eq_some_iff.mp h
      cases heq
      obtain ⟨i, found, hfound, hfirst, hentry, hcases⟩ := ih hrest
      refine ⟨i + 1, found, hfound, isFirst_cons hkey hfirst, hentry, ?_⟩
      rcases hcases with ⟨hnone, rfl, rfl⟩ | ⟨changed, hchange, rfl, rfl⟩
      · exact .inl ⟨hnone, rfl, rfl⟩
      · exact .inr ⟨changed, hchange, rfl, rfl⟩

/-- What an edit comes to: nothing, a change of the first entry of its key, or one more entry. -/
inductive Step (key : ε → Option κ) (edit : Edit κ ε) (entries : List ε) : List ε → Nat → Prop
  | none (h : Settled key edit entries) : Step key edit entries entries 0
  | change {i : Nat} {entry changed : ε} (hentry : entries[i]? = some entry) (hfirst : IsFirst key edit.key entries i)
    (hfound : entryOf key edit.key entries = some entry) (hchange : edit.change entry = some changed) :
    Step key edit entries (entries.set i changed) 1
  | add {entry : ε} (hnone : entryOf key edit.key entries = Option.none) (hfresh : edit.fresh = some entry) :
    Step key edit entries (entries ++ [entry]) 1

theorem step_apply (key : ε → Option κ) (edit : Edit κ ε) (entries : List ε) :
    Step key edit entries (apply key edit entries).entries (apply key edit entries).updates := by
  unfold apply
  split
  next after updates h =>
    obtain ⟨i, entry, hentry, hfirst, hfound, ⟨hnone, rfl, rfl⟩ | ⟨changed, hchange, rfl, rfl⟩⟩ := editFirst_cases h
    · refine .none ?_
      unfold Settled
      rw [hfound]
      exact hnone
    · exact .change hentry hfirst hfound hchange
  next h =>
    have hnone := editFirst_eq_none_iff.mp h
    split
    next entry hfresh => exact .add hnone hfresh
    next hfresh =>
      refine .none ?_
      unfold Settled
      rw [hnone]
      exact hfresh

theorem entryOf_eq_none_iff {k : κ} : entryOf key k entries = none ↔ ∀ entry ∈ entries, key entry ≠ some k := by
  unfold entryOf
  rw [List.find?_eq_none]
  simp

/-- With nothing to do an edit does nothing. -/
theorem apply_of_settled (h : Settled key edit entries) :
    (apply key edit entries).entries = entries ∧ (apply key edit entries).updates = 0 := by
  have hstep := step_apply key edit entries
  generalize (apply key edit entries).entries = after at hstep
  generalize (apply key edit entries).updates = updates at hstep
  unfold Settled at h
  cases hstep with
  | none => exact ⟨rfl, rfl⟩
  | change hentry hfirst hfound hchange =>
    rw [hfound] at h
    cases hchange.symm.trans h
  | add hnone hfresh =>
    rw [hnone] at h
    cases hfresh.symm.trans h

end Apply

/-! ## One edit -/

section Step

variable [DecidableEq κ] {key : ε → Option κ} {part : ε → β} {edit : Edit κ ε} {entries after : List ε} {updates : Nat}

theorem entryOf_eq_some_iff {k : κ} {entry : ε} :
    entryOf key k entries = some entry ↔ ∃ i, entries[i]? = some entry ∧ IsFirst key k entries i := by
  unfold entryOf IsFirst
  rw [List.find?_eq_some_iff_getElem]
  simp only [decide_eq_true_eq, Bool.not_eq_true', decide_eq_false_iff_not]
  constructor
  · rintro ⟨hkey, i, hi, rfl, hbefore⟩
    refine ⟨i, List.getElem?_eq_getElem hi, _, List.getElem?_eq_getElem hi, hkey, fun j hj other hother => ?_⟩
    obtain ⟨_, rfl⟩ := List.getElem?_eq_some_iff.mp hother
    exact hbefore j hj
  · rintro ⟨i, hentry, found, hfound, hkey, hbefore⟩
    cases hentry.symm.trans hfound
    obtain ⟨hi, rfl⟩ := List.getElem?_eq_some_iff.mp hentry
    exact ⟨hkey, i, hi, rfl, fun j hj => hbefore j hj _ (List.getElem?_eq_getElem (Nat.lt_trans hj hi))⟩

/-- A key that is not edited keeps its entry. -/
theorem Framed.entryOf_of_not_mem {keys : List κ} (h : Framed key part keys entries after) {k : κ} (hk : k ∉ keys) :
    entryOf key k after = entryOf key k entries := by
  have hsame : ∀ i, IsFirst key k after i → after[i]? = entries[i]? := by
    intro i hfirst
    by_contra hne
    obtain ⟨k', hk', hfirst'⟩ := h.changed i hne
    exact hk (hfirst.key_inj hfirst' ▸ hk')
  cases hentries : entryOf key k entries with
  | some entry =>
    obtain ⟨i, hentry, hfirst⟩ := entryOf_eq_some_iff.mp hentries
    exact entryOf_eq_some_iff.mpr ⟨i, (hsame i (h.isFirst hfirst)).trans hentry, h.isFirst hfirst⟩
  | none =>
    rw [Option.eq_none_iff_forall_ne_some]
    intro entry hafter
    obtain ⟨i, hentry, hfirst⟩ := entryOf_eq_some_iff.mp hafter
    have hbefore := hsame i hfirst
    obtain ⟨found, hfound, hkey, -⟩ := hfirst
    rw [hbefore] at hfound
    exact entryOf_eq_none_iff.mp hentries found (List.mem_of_getElem? hfound) hkey

theorem Settled.of_framed {keys : List κ} (h : Settled key edit entries) (hframed : Framed key part keys entries after)
    (hk : edit.key ∉ keys) : Settled key edit after := by
  unfold Settled
  rw [hframed.entryOf_of_not_mem hk]
  exact h

theorem Step.framed (h : Step key edit entries after updates) (hlawful : edit.Lawful key part) :
    Framed key part [edit.key] entries after := by
  cases h with
  | none => exact .refl entries
  | @change i entry changed hentry hfirst hfound hchange =>
    have hi := (List.getElem?_eq_some_iff.mp hentry).1
    have hkey := hfirst.key_eq hentry
    have hset : ∀ j, (entries.set i changed)[j]? = if i = j then some changed else entries[j]? := by
      intro j
      by_cases heq : i = j
      · rw [← heq, List.getElem?_set_self hi, if_pos rfl]
      · rw [List.getElem?_set_ne heq, if_neg heq]
    have hkept : ∀ (j : Nat) (other : ε), entries[j]? = some other →
        ∃ other', (entries.set i changed)[j]? = some other' ∧ key other' = key other ∧ part other' = part other := by
      intro j other hother
      rw [hset]
      split
      next heq =>
        subst heq
        cases hentry.symm.trans hother
        exact ⟨changed, rfl, hlawful.key_change hkey hchange, hlawful.part_change hkey hchange⟩
      next => exact ⟨other, hother, rfl, rfl⟩
    refine ⟨hkept, fun j hne => ?_⟩
    have heq : i = j := by
      by_contra hij
      rw [hset, if_neg hij] at hne
      exact hne rfl
    subst heq
    exact ⟨edit.key, List.mem_singleton_self _, isFirst_of_kept hkept hfirst⟩
  | @add entry hnone hfresh =>
    have hold : ∀ (j : Nat) (other : ε), entries[j]? = some other → (entries ++ [entry])[j]? = some other := by
      intro j other hother
      rw [List.getElem?_append_left (List.getElem?_eq_some_iff.mp hother).1]
      exact hother
    refine ⟨fun j other hother => ⟨other, hold j other hother, rfl, rfl⟩, fun j hne => ?_⟩
    -- what differs lies behind the entries, so it is the one that was added
    have hlength : entries.length ≤ j := by
      by_contra hlt
      rw [hold j entries[j] (List.getElem?_eq_getElem (by omega)), List.getElem?_eq_getElem (by omega)] at hne
      exact hne rfl
    rw [List.getElem?_append_right hlength, List.getElem?_eq_none hlength] at hne
    have hj : j = entries.length := by
      cases hsub : j - entries.length with
      | zero => omega
      | succ n =>
        rw [hsub] at hne
        exact absurd rfl hne
    subst hj
    refine ⟨edit.key, List.mem_singleton_self _, entry, List.getElem?_concat_length, hlawful.key_fresh hfresh, ?_⟩
    intro i hi other hother
    rw [List.getElem?_append_left hi] at hother
    exact entryOf_eq_none_iff.mp hnone other (List.mem_of_getElem? hother)

/-- An edit that was made leaves nothing to do. -/
theorem Step.settled (h : Step key edit entries after updates) (hlawful : edit.Lawful key part) :
    Settled key edit after := by
  have hframed := h.framed hlawful
  cases h with
  | none hsettled => exact hsettled
  | @change i entry changed hentry hfirst hfound hchange =>
    have hi := (List.getElem?_eq_some_iff.mp hentry).1
    have hchanged : entryOf key edit.key (entries.set i changed) = some changed :=
      entryOf_eq_some_iff.mpr ⟨i, List.getElem?_set_self hi, hframed.isFirst hfirst⟩
    unfold Settled
    rw [hchanged]
    exact hlawful.settled_change (hfirst.key_eq hentry) hchange
  | @add entry hnone hfresh =>
    have hadded : entryOf key edit.key (entries ++ [entry]) = some entry := by
      unfold entryOf at hnone ⊢
      rw [List.find?_append, hnone, Option.none_or, List.find?_cons, decide_eq_true (hlawful.key_fresh hfresh)]
    unfold Settled
    rw [hadded]
    exact hlawful.settled_fresh hfresh

/-- The positions at which two lists differ. -/
def differs (entries after : List ε) : Set Nat := { i | after[i]? ≠ entries[i]? }

theorem differs_self (entries : List ε) : differs entries entries = ∅ :=
  Set.eq_empty_iff_forall_notMem.mpr fun _ h => h rfl

/-- An update is counted where the lists differ. -/
theorem Step.differs_cases (h : Step key edit entries after updates) (hlawful : edit.Lawful key part) :
    (updates = 0 ∧ after = entries) ∨ (updates = 1 ∧ ∃ i, differs entries after = {i}) := by
  cases h with
  | none => exact .inl ⟨rfl, rfl⟩
  | @change i entry changed hentry hfirst hfound hchange =>
    refine .inr ⟨rfl, i, Set.ext fun j => ?_⟩
    have hi := (List.getElem?_eq_some_iff.mp hentry).1
    show (entries.set i changed)[j]? ≠ entries[j]? ↔ j = i
    by_cases hj : j = i
    · subst hj
      rw [List.getElem?_set_self hi, hentry]
      exact iff_of_true (fun heq => hlawful.ne_of_change (hfirst.key_eq hentry) hchange (Option.some.inj heq)) rfl
    · rw [List.getElem?_set_ne (Ne.symm hj)]
      exact iff_of_false (fun hne => hne rfl) hj
  | @add entry hnone hfresh =>
    refine .inr ⟨rfl, entries.length, Set.ext fun j => ?_⟩
    show (entries ++ [entry])[j]? ≠ entries[j]? ↔ j = entries.length
    rcases Nat.lt_trichotomy j entries.length with hj | rfl | hj
    · rw [List.getElem?_append_left hj]
      exact iff_of_false (fun hne => hne rfl) (by omega)
    · rw [List.getElem?_concat_length, List.getElem?_eq_none (Nat.le_refl _)]
      exact iff_of_true nofun rfl
    · rw [List.getElem?_eq_none (by rw [List.length_append, List.length_singleton]; omega),
        List.getElem?_eq_none (Nat.le_of_lt hj)]
      exact iff_of_false (fun hne => hne rfl) (by omega)

end Step

/-! ## Edits one after another -/

section All

variable [DecidableEq κ] {key : ε → Option κ} {part : ε → β} {edits : List (Edit κ ε)} {entries : List ε}

/-- There is one edit for each key. -/
def OneEach (edits : List (Edit κ ε)) : Prop := ∀ a ∈ edits, ∀ b ∈ edits, a.key = b.key → a = b

theorem framed_applyAll (hlawful : ∀ edit ∈ edits, edit.Lawful key part) :
    Framed key part (edits.map (·.key)) entries (applyAll key edits entries).entries := by
  induction edits generalizing entries with
  | nil => exact .refl entries
  | cons edit edits ih =>
    have hfirst := (step_apply key edit entries).framed (hlawful edit List.mem_cons_self)
    have hrest := @ih (apply key edit entries).entries fun other hother => hlawful other (List.mem_cons_of_mem edit hother)
    have hkey : [edit.key] ⊆ (edit :: edits).map (·.key) := by simp
    exact (hfirst.mono hkey).trans (hrest.mono (List.subset_cons_self _ _))

/-- Other edits leave an entry as it is that has nothing to do. -/
theorem Settled.applyAll {edit : Edit κ ε} (h : Settled key edit entries)
    (hlawful : ∀ other ∈ edits, other.Lawful key part) (hsame : ∀ other ∈ edits, other.key = edit.key → other = edit) :
    Settled key edit (applyAll key edits entries).entries
      ∧ ∀ i, IsFirst key edit.key entries i → (FirstMatch.applyAll key edits entries).entries[i]? = entries[i]? := by
  induction edits generalizing entries with
  | nil => exact ⟨h, fun _ _ => rfl⟩
  | cons other edits ih =>
    have hframed := (step_apply key other entries).framed (hlawful other List.mem_cons_self)
    have hstep : Settled key edit (apply key other entries).entries
        ∧ ∀ i, IsFirst key edit.key entries i → (apply key other entries).entries[i]? = entries[i]? := by
      by_cases hkey : other.key = edit.key
      · cases hsame other List.mem_cons_self hkey
        rw [(apply_of_settled h).1]
        exact ⟨h, fun _ _ => rfl⟩
      · refine ⟨h.of_framed hframed fun hmem => hkey (List.mem_singleton.mp hmem).symm, fun i hfirst => ?_⟩
        by_contra hne
        obtain ⟨k, hk, hfirst'⟩ := hframed.changed i hne
        exact hkey ((List.mem_singleton.mp hk).symm.trans (hfirst'.key_inj (hframed.isFirst hfirst)))
    obtain ⟨hrest, hpositions⟩ := ih hstep.1 (fun next hnext => hlawful next (List.mem_cons_of_mem other hnext))
      fun next hnext => hsame next (List.mem_cons_of_mem other hnext)
    exact ⟨hrest, fun i hfirst => (hpositions i (hframed.isFirst hfirst)).trans (hstep.2 i hfirst)⟩

theorem settled_applyAll (hlawful : ∀ edit ∈ edits, edit.Lawful key part) (hone : OneEach edits) :
    ∀ edit ∈ edits, Settled key edit (applyAll key edits entries).entries := by
  induction edits generalizing entries with
  | nil => nofun
  | cons edit edits ih =>
    have hrest := fun other hother => hlawful other (List.mem_cons_of_mem edit hother)
    intro other hother
    rcases List.mem_cons.mp hother with rfl | hother
    · have hsettled := (step_apply key other entries).settled (hlawful other List.mem_cons_self)
      exact (hsettled.applyAll hrest fun next hnext hkey =>
        hone next (List.mem_cons_of_mem other hnext) other List.mem_cons_self hkey).1
    · exact ih hrest (fun a ha b hb => hone a (List.mem_cons_of_mem edit ha) b (List.mem_cons_of_mem edit hb)) other hother

theorem applyAll_of_settled (h : ∀ edit ∈ edits, Settled key edit entries) :
    (applyAll key edits entries).entries = entries ∧ (applyAll key edits entries).updates = 0 := by
  induction edits with
  | nil => exact ⟨rfl, rfl⟩
  | cons edit edits ih =>
    obtain ⟨hentries, hupdates⟩ := apply_of_settled (h edit List.mem_cons_self)
    have hrest := ih fun other hother => h other (List.mem_cons_of_mem edit hother)
    unfold applyAll
    dsimp only
    rw [hentries, hupdates, Nat.zero_add]
    exact hrest

/-- **Edits that are made again** do nothing. -/
theorem applyAll_again (hlawful : ∀ edit ∈ edits, edit.Lawful key part) (hone : OneEach edits) :
    (applyAll key edits (applyAll key edits entries).entries).entries = (applyAll key edits entries).entries
      ∧ (applyAll key edits (applyAll key edits entries).entries).updates = 0 :=
  applyAll_of_settled (settled_applyAll hlawful hone)

/-- **What is counted** are the positions at which the entries differ afterwards. -/
theorem updates_applyAll (hlawful : ∀ edit ∈ edits, edit.Lawful key part) (hone : OneEach edits) :
    (differs entries (applyAll key edits entries).entries).Finite
      ∧ (applyAll key edits entries).updates = (differs entries (applyAll key edits entries).entries).ncard := by
  induction edits generalizing entries with
  | nil =>
    show (differs entries entries).Finite ∧ 0 = (differs entries entries).ncard
    rw [differs_self, Set.ncard_empty]
    exact ⟨Set.finite_empty, rfl⟩
  | cons edit edits ih =>
    have hrest := fun other hother => hlawful other (List.mem_cons_of_mem edit hother)
    have hsame : ∀ other ∈ edits, other.key = edit.key → other = edit := fun other hother =>
      hone other (List.mem_cons_of_mem edit hother) edit List.mem_cons_self
    obtain ⟨hfinite, hcount⟩ := @ih (apply key edit entries).entries hrest
      fun a ha b hb => hone a (List.mem_cons_of_mem edit ha) b (List.mem_cons_of_mem edit hb)
    have hstep := step_apply key edit entries
    have hframed := hstep.framed (hlawful edit List.mem_cons_self)
    have hkept := (hstep.settled (hlawful edit List.mem_cons_self)).applyAll hrest hsame
    unfold applyAll
    dsimp only
    rcases hstep.differs_cases (hlawful edit List.mem_cons_self) with ⟨hzero, hentries⟩ | ⟨hone, i, hdiffers⟩
    · rw [hentries] at hfinite hcount ⊢
      rw [hzero, Nat.zero_add]
      exact ⟨hfinite, hcount⟩
    · -- the position that changed first is not changed again
      have hi : (apply key edit entries).entries[i]? ≠ entries[i]? := by
        have hmem : i ∈ differs entries (apply key edit entries).entries := hdiffers ▸ Set.mem_singleton i
        exact hmem
      obtain ⟨k, hk, hfirst⟩ := hframed.changed i hi
      have hstays := hkept.2 i (List.mem_singleton.mp hk ▸ hfirst)
      have hunion : differs entries (applyAll key edits (apply key edit entries).entries).entries
          = insert i (differs (apply key edit entries).entries
            (applyAll key edits (apply key edit entries).entries).entries) := by
        refine Set.ext fun j => ?_
        rw [Set.mem_insert_iff]
        by_cases hj : j = i
        · subst hj
          refine iff_of_true ?_ (.inl rfl)
          show _ ≠ _
          rw [hstays]
          exact hi
        · have hsamej : (apply key edit entries).entries[j]? = entries[j]? := by
            by_contra hne
            have hmem : j ∈ differs entries (apply key edit entries).entries := hne
            rw [hdiffers] at hmem
            exact hj hmem
          rw [or_iff_right hj]
          show _ ≠ _ ↔ _ ≠ _
          rw [hsamej]
      have hnew : i ∉ differs (apply key edit entries).entries
          (applyAll key edits (apply key edit entries).entries).entries := fun hmem => hmem hstays
      rw [hunion, Set.ncard_insert_of_notMem hnew hfinite, ← hcount, hone, Nat.add_comm]
      exact ⟨hfinite.insert i, rfl⟩

end All

end FirstMatch
