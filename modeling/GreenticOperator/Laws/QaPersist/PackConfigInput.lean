import GreenticOperator.QaPersist.PackConfigInput

/-!
# The input for a pack's configuration

What is written: the visible answers that are not empty, each on its side, where the names can be
made part of the path and of the references.
-/

namespace QaPersist

open Disk Json

variable {render : Value → String} {resolveVisibility : VisibilityResolver} {envId bundleId packId : String}
  {config config' : Answers} {formSpec : FormSpec}

/-! ## Segments -/

theorem validateSegment_ok_iff {label value : String} : validateSegment label value = .ok () ↔ Plain value := by
  unfold validateSegment
  constructor
  · intro h
    split at h
    next => cases h
    next hempty =>
      split at h
      next => cases h
      next hslash =>
        split at h
        next => cases h
        next hdots =>
          obtain ⟨hdot, hdots⟩ := not_or.mp hdots
          exact ⟨hempty, hdot, hdots, hslash⟩
  · intro h
    rw [if_neg h.not_empty, if_neg h.no_slash, if_neg (not_or.mpr ⟨h.not_dot, h.not_dots⟩)]

theorem exists_error_of_not_plain {label value : String} (h : ¬Plain value) :
    ∃ message, validateSegment label value = .error message := by
  cases hvalid : validateSegment label value with
  | error message => exact ⟨message, rfl⟩
  | ok _ => exact absurd (validateSegment_ok_iff.mp hvalid) h

/-! ## The entries -/

/-- The answer to a key, where it is not empty. -/
def presentAt (render : Value → String) (fields : List (String × Value)) (key : String) : Option Value :=
  (fields.lookup key).filter fun v => !isBlank (textOf render v)

theorem presentAt_cons_self {key : String} {v : Value} {rest : List (String × Value)} :
    presentAt render ((key, v) :: rest) key = if isBlank (textOf render v) then none else some v := by
  unfold presentAt
  rw [List.lookup_cons_self, Option.filter_some]
  cases isBlank (textOf render v) <;> rfl

theorem presentAt_cons_of_ne {key name : String} {v : Value} {rest : List (String × Value)} (h : key ≠ name) :
    presentAt render ((name, v) :: rest) key = presentAt render rest key := by
  unfold presentAt
  rw [List.lookup_cons, beq_eq_false_iff_ne.mpr h]

theorem presentAt_of_not_mem {fields : List (String × Value)} {key : String} (h : key ∉ fields.map Prod.fst) :
    presentAt render fields key = none := by
  unfold presentAt
  rw [List.lookup_eq_none_iff.mpr, Option.filter_none]
  intro field hfield
  exact bne_iff_ne.mpr fun heq => h (heq ▸ List.mem_map_of_mem hfield)

/-- What the loop makes of some answers, from the entries so far. -/
structure Splits (render : Value → String) (visibleIds secretIds : List String) (uriOf : String → String)
    (fields nonSecret : List (String × Value)) (secretRefs : List (String × String))
    (nonSecret' : List (String × Value)) (secretRefs' : List (String × String)) : Prop where
  ordered : SortedMap.Ordered nonSecret'
  ordered_refs : SortedMap.Ordered secretRefs'
  nonSecret : ∀ key, nonSecret'.lookup key
    = (if key ∈ visibleIds ∧ key ∉ secretIds then presentAt render fields key else none).or (nonSecret.lookup key)
  secretRefs : ∀ key, secretRefs'.lookup key
    = (if key ∈ visibleIds ∧ key ∈ secretIds then (presentAt render fields key).map fun _ => uriOf key
        else none).or (secretRefs.lookup key)

theorem Splits.congr {visibleIds secretIds : List String} {uriOf : String → String}
    {fields fields' nonSecret nonSecret' : List (String × Value)} {secretRefs secretRefs' : List (String × String)}
    (hsame : ∀ key ∈ visibleIds, presentAt render fields' key = presentAt render fields key)
    (h : Splits render visibleIds secretIds uriOf fields nonSecret secretRefs nonSecret' secretRefs') :
    Splits render visibleIds secretIds uriOf fields' nonSecret secretRefs nonSecret' secretRefs' := by
  refine ⟨h.ordered, h.ordered_refs, fun key => ?_, fun key => ?_⟩
  · rw [h.nonSecret]
    by_cases hkey : key ∈ visibleIds
    · rw [hsame key hkey]
    · rw [if_neg fun hand => hkey hand.1, if_neg fun hand => hkey hand.1]
  · rw [h.secretRefs]
    by_cases hkey : key ∈ visibleIds
    · rw [hsame key hkey]
    · rw [if_neg fun hand => hkey hand.1, if_neg fun hand => hkey hand.1]

/-- One entry more in front, for a secret. -/
theorem Splits.cons_secret {visibleIds secretIds : List String} {uriOf : String → String}
    {rest nonSecret nonSecret' : List (String × Value)} {secretRefs secretRefs' : List (String × String)}
    {name : String} {v : Value} (hname : name ∉ rest.map Prod.fst) (hvisible : name ∈ visibleIds)
    (hsecret : name ∈ secretIds) (hpresent : isBlank (textOf render v) = false)
    (hrefs : SortedMap.Ordered secretRefs)
    (h : Splits render visibleIds secretIds uriOf rest nonSecret
      (SortedMap.alter name (fun _ => uriOf name) secretRefs) nonSecret' secretRefs') :
    Splits render visibleIds secretIds uriOf ((name, v) :: rest) nonSecret secretRefs nonSecret' secretRefs' := by
  refine ⟨h.ordered, h.ordered_refs, fun key => ?_, fun key => ?_⟩
  · rw [h.nonSecret]
    by_cases hkey : key = name
    · subst hkey
      rw [if_neg fun hand => hand.2 hsecret, if_neg fun hand => hand.2 hsecret]
    · rw [presentAt_cons_of_ne hkey]
  · rw [h.secretRefs, SortedMap.lookup_alter _ _ _ hrefs]
    by_cases hkey : key = name
    · subst hkey
      simp only [if_pos (And.intro hvisible hsecret)]
      rw [presentAt_of_not_mem hname, if_pos trivial, presentAt_cons_self, hpresent]
      rfl
    · rw [presentAt_cons_of_ne hkey, if_neg hkey]

/-- One entry more in front, for any other answer. -/
theorem Splits.cons_nonSecret {visibleIds secretIds : List String} {uriOf : String → String}
    {rest nonSecret nonSecret' : List (String × Value)} {secretRefs secretRefs' : List (String × String)}
    {name : String} {v : Value} (hname : name ∉ rest.map Prod.fst) (hvisible : name ∈ visibleIds)
    (hsecret : name ∉ secretIds) (hpresent : isBlank (textOf render v) = false)
    (hordered : SortedMap.Ordered nonSecret)
    (h : Splits render visibleIds secretIds uriOf rest (SortedMap.alter name (fun _ => v) nonSecret) secretRefs
      nonSecret' secretRefs') :
    Splits render visibleIds secretIds uriOf ((name, v) :: rest) nonSecret secretRefs nonSecret' secretRefs' := by
  refine ⟨h.ordered, h.ordered_refs, fun key => ?_, fun key => ?_⟩
  · rw [h.nonSecret, SortedMap.lookup_alter _ _ _ hordered]
    by_cases hkey : key = name
    · subst hkey
      simp only [if_pos (And.intro hvisible hsecret)]
      rw [presentAt_of_not_mem hname, if_pos trivial, presentAt_cons_self, hpresent]
      rfl
    · rw [presentAt_cons_of_ne hkey, if_neg hkey]
  · rw [h.secretRefs]
    by_cases hkey : key = name
    · subst hkey
      rw [if_neg fun hand => hsecret hand.2, if_neg fun hand => hsecret hand.2]
    · rw [presentAt_cons_of_ne hkey]

/-- What the loop gives: an error for a secret that cannot be named, or the entries. -/
def Gives (render : Value → String) (visibleIds secretIds : List String) (uriOf : String → String)
    (fields nonSecret : List (String × Value)) (secretRefs : List (String × String)) :
    Except String (List (String × Value) × List (String × String)) → Prop
  | .error _ => ∃ key ∈ visibleIds, key ∈ secretIds ∧ presentAt render fields key ≠ none ∧ ¬Plain key
  | .ok (nonSecret', secretRefs') =>
    (∀ key ∈ visibleIds, key ∈ secretIds → presentAt render fields key ≠ none → Plain key)
      ∧ Splits render visibleIds secretIds uriOf fields nonSecret secretRefs nonSecret' secretRefs'

theorem Gives.congr {visibleIds secretIds : List String} {uriOf : String → String}
    {fields fields' nonSecret : List (String × Value)} {secretRefs : List (String × String)}
    {result : Except String (List (String × Value) × List (String × String))}
    (hsame : ∀ key ∈ visibleIds, presentAt render fields' key = presentAt render fields key)
    (h : Gives render visibleIds secretIds uriOf fields nonSecret secretRefs result) :
    Gives render visibleIds secretIds uriOf fields' nonSecret secretRefs result := by
  cases result with
  | error message =>
    obtain ⟨key, hkey, hsecret, hpresent, hplain⟩ := h
    exact ⟨key, hkey, hsecret, hsame key hkey ▸ hpresent, hplain⟩
  | ok entries =>
    exact ⟨fun key hkey hsecret hpresent => h.1 key hkey hsecret (hsame key hkey ▸ hpresent), h.2.congr hsame⟩

/-- One entry more in front, which the rest does not name again. -/
theorem Gives.cons {visibleIds secretIds : List String} {uriOf : String → String}
    {rest nonSecret nonSecret₁ : List (String × Value)} {secretRefs secretRefs₁ : List (String × String)}
    {name : String} {v : Value} {result : Except String (List (String × Value) × List (String × String))}
    (hname : name ∉ rest.map Prod.fst) (hplain : name ∈ secretIds → Plain name)
    (hsplits : ∀ {nonSecret' secretRefs'},
      Splits render visibleIds secretIds uriOf rest nonSecret₁ secretRefs₁ nonSecret' secretRefs' →
      Splits render visibleIds secretIds uriOf ((name, v) :: rest) nonSecret secretRefs nonSecret' secretRefs')
    (h : Gives render visibleIds secretIds uriOf rest nonSecret₁ secretRefs₁ result) :
    Gives render visibleIds secretIds uriOf ((name, v) :: rest) nonSecret secretRefs result := by
  cases result with
  | error message =>
    obtain ⟨key, hkey, hsecret, hthere, hnot⟩ := h
    have hne : key ≠ name := fun heq => hthere (heq ▸ presentAt_of_not_mem hname)
    refine ⟨key, hkey, hsecret, ?_, hnot⟩
    rwa [presentAt_cons_of_ne hne]
  | ok entries =>
    refine ⟨fun key hkey hsecret hthere => ?_, hsplits h.2⟩
    by_cases heq : key = name
    · exact heq ▸ hplain (heq ▸ hsecret)
    · exact h.1 key hkey hsecret (presentAt_cons_of_ne heq ▸ hthere)

/-- **The loop over the answers** puts each visible answer where it belongs. -/
theorem gives_splitAnswers {visibleIds secretIds : List String} {uriOf : String → String}
    {fields : List (String × Value)} (hdistinct : (fields.map Prod.fst).Nodup)
    {nonSecret : List (String × Value)} {secretRefs : List (String × String)}
    (hordered : SortedMap.Ordered nonSecret) (hrefs : SortedMap.Ordered secretRefs) :
    Gives render visibleIds secretIds uriOf fields nonSecret secretRefs
      (splitAnswers render visibleIds secretIds uriOf fields nonSecret secretRefs) := by
  induction fields generalizing nonSecret secretRefs with
  | nil =>
    refine ⟨fun key _ _ h => absurd rfl h, hordered, hrefs, fun key => ?_, fun key => ?_⟩
    · rw [show presentAt render [] key = none from rfl, ite_self, Option.none_or]
    · rw [show presentAt render [] key = none from rfl, Option.map_none, ite_self, Option.none_or]
  | cons field rest ih =>
    obtain ⟨name, v⟩ := field
    obtain ⟨hname, hrest⟩ := List.nodup_cons.mp hdistinct
    unfold splitAnswers
    split
    next hvisible =>
      exact (ih hrest hordered hrefs).congr fun key hkey =>
        presentAt_cons_of_ne fun heq => hvisible (heq ▸ hkey)
    next hvisible =>
      replace hvisible := not_not.mp hvisible
      split
      next hblank =>
        refine (ih hrest hordered hrefs).congr fun key _ => ?_
        by_cases heq : key = name
        · rw [heq, presentAt_cons_self, if_pos hblank, presentAt_of_not_mem hname]
        · exact presentAt_cons_of_ne heq
      next hpresent =>
        replace hpresent := Bool.eq_false_iff.mpr hpresent
        split
        next hsecret =>
          by_cases hplain : Plain name
          · rw [validateSegment_ok_iff.mpr hplain]
            have hrest := ih hrest hordered (SortedMap.ordered_alter name (fun _ => uriOf name) hrefs)
            exact hrest.cons hname (fun _ => hplain) fun hsplits =>
              hsplits.cons_secret hname hvisible hsecret hpresent hrefs
          · obtain ⟨message, hmessage⟩ := exists_error_of_not_plain hplain
            rw [hmessage]
            refine ⟨name, hvisible, hsecret, ?_, hplain⟩
            rw [presentAt_cons_self, hpresent]
            exact Option.some_ne_none v
        next hsecret =>
          have hrest := ih hrest (SortedMap.ordered_alter name (fun _ => v) hordered) hrefs
          exact hrest.cons hname (fun h => absurd h hsecret) fun hsplits =>
            hsplits.cons_nonSecret hname hvisible hsecret hpresent hordered

/-! ## What is written -/

/-- The answer to a key, where it is not empty. -/
def answeredAt (render : Value → String) (answers : Value) (key : String) : Option Value :=
  (answers.get key).filter fun v => !isBlank (textOf render v)

/-- Names that the paths and references can be made of. -/
structure Accepted (render : Value → String) (resolveVisibility : VisibilityResolver)
    (envId bundleId packId : String) (config : Answers) (formSpec : FormSpec) : Prop where
  env : Plain envId
  bundle : Plain bundleId
  pack : Plain packId
  secrets : ∀ key ∈ visibleQuestionIds resolveVisibility formSpec config.value, key ∈ secretIds formSpec →
    answeredAt render config.value key ≠ none → Plain key

/-- The entries that are written: the visible answers, each on its side. -/
structure Entries (render : Value → String) (resolveVisibility : VisibilityResolver)
    (envId bundleId packId : String) (config : Answers) (formSpec : FormSpec)
    (nonSecret : List (String × Value)) (secretRefs : List (String × String)) : Prop where
  ordered : SortedMap.Ordered nonSecret
  ordered_refs : SortedMap.Ordered secretRefs
  nonSecret : ∀ key, nonSecret.lookup key =
    if key ∈ visibleQuestionIds resolveVisibility formSpec config.value ∧ key ∉ secretIds formSpec then
      answeredAt render config.value key else none
  secretRefs : ∀ key, secretRefs.lookup key =
    if key ∈ visibleQuestionIds resolveVisibility formSpec config.value ∧ key ∈ secretIds formSpec then
      (answeredAt render config.value key).map fun _ => s!"secret://{envId}/{bundleId}/{packId}/{key}" else none

def inputOf (envId bundleId packId : String) (nonSecret : List (String × Value))
    (secretRefs : List (String × String)) : Option PackConfigInput :=
  if nonSecret = [] ∧ secretRefs = [] then none
  else some { schema := packConfigInputSchema, packId, envId, bundleId, nonSecret, secretRefs }

theorem answeredAt_of_object {fields : List (String × Value)} (h : config.value = .object fields) (key : String) :
    answeredAt render config.value key = presentAt render fields key := by
  unfold answeredAt
  rw [h]
  rfl

/-- Without answers nothing is written. -/
theorem entries_nil (h : ∀ key, answeredAt render config.value key = none) :
    Entries render resolveVisibility envId bundleId packId config formSpec [] [] := by
  refine ⟨.nil, .nil, fun key => ?_, fun key => ?_⟩
  · rw [h, ite_self]
    rfl
  · rw [h, Option.map_none, ite_self]
    rfl

/-- A name that is no segment is rejected. -/
theorem packConfigInput_of_not_plain (h : ¬(Plain envId ∧ Plain bundleId ∧ Plain packId)) :
    ∃ message, packConfigInput render resolveVisibility envId bundleId packId config formSpec = .error message := by
  unfold packConfigInput
  by_cases henv : Plain envId
  case neg =>
    obtain ⟨message, hmessage⟩ := exists_error_of_not_plain henv
    rw [hmessage]
    exact ⟨message, rfl⟩
  rw [validateSegment_ok_iff.mpr henv]
  by_cases hbundle : Plain bundleId
  case neg =>
    obtain ⟨message, hmessage⟩ := exists_error_of_not_plain hbundle
    rw [hmessage]
    exact ⟨message, rfl⟩
  rw [validateSegment_ok_iff.mpr hbundle]
  obtain ⟨message, hmessage⟩ := exists_error_of_not_plain fun hpack => h ⟨henv, hbundle, hpack⟩
  rw [hmessage]
  exact ⟨message, rfl⟩

/-- What the loop gives for names that are segments. -/
theorem packConfigInput_of_object (henv : Plain envId) (hbundle : Plain bundleId) (hpack : Plain packId)
    {fields : List (String × Value)} (hvalue : config.value = .object fields) (hfields : fields ≠ []) :
    packConfigInput render resolveVisibility envId bundleId packId config formSpec
      = (splitAnswers render (visibleQuestionIds resolveVisibility formSpec config.value) (secretIds formSpec)
          (fun key => s!"secret://{envId}/{bundleId}/{packId}/{key}") fields [] []).map fun entries =>
        inputOf envId bundleId packId entries.1 entries.2 := by
  unfold packConfigInput
  rw [validateSegment_ok_iff.mpr henv, validateSegment_ok_iff.mpr hbundle, validateSegment_ok_iff.mpr hpack, hvalue]
  dsimp only [bind, Except.bind, pure, Except.pure, Value.asObject]
  rw [if_neg hfields]
  cases splitAnswers render (visibleQuestionIds resolveVisibility formSpec (.object fields)) (secretIds formSpec)
    (fun key => s!"secret://{envId}/{bundleId}/{packId}/{key}") fields [] [] with
  | error message => rfl
  | ok entries =>
    dsimp only [Except.map]
    unfold inputOf
    split <;> rfl

/-- Without answers nothing is written. -/
theorem packConfigInput_of_unanswered (henv : Plain envId) (hbundle : Plain bundleId) (hpack : Plain packId)
    (h : ∀ fields, config.value = .object fields → fields = []) :
    packConfigInput render resolveVisibility envId bundleId packId config formSpec = .ok none
      ∧ ∀ key, answeredAt render config.value key = none := by
  unfold packConfigInput
  rw [validateSegment_ok_iff.mpr henv, validateSegment_ok_iff.mpr hbundle, validateSegment_ok_iff.mpr hpack]
  cases hvalue : config.value with
  | object fields =>
    obtain rfl := h fields hvalue
    exact ⟨rfl, fun _ => rfl⟩
  | _ => exact ⟨rfl, fun _ => rfl⟩

/-- **What a call is to write**: nothing where a name is not accepted, and otherwise the entries. -/
theorem packConfigInput_cases (render : Value → String) (resolveVisibility : VisibilityResolver)
    (envId bundleId packId : String) (config : Answers) (formSpec : FormSpec) :
    ((∃ message, packConfigInput render resolveVisibility envId bundleId packId config formSpec = .error message)
        ∧ ¬Accepted render resolveVisibility envId bundleId packId config formSpec)
      ∨ (Accepted render resolveVisibility envId bundleId packId config formSpec
        ∧ ∃ nonSecret secretRefs,
          Entries render resolveVisibility envId bundleId packId config formSpec nonSecret secretRefs
          ∧ packConfigInput render resolveVisibility envId bundleId packId config formSpec
            = .ok (inputOf envId bundleId packId nonSecret secretRefs)) := by
  by_cases hnames : Plain envId ∧ Plain bundleId ∧ Plain packId
  case neg => exact .inl ⟨packConfigInput_of_not_plain hnames, fun h => hnames ⟨h.env, h.bundle, h.pack⟩⟩
  obtain ⟨henv, hbundle, hpack⟩ := hnames
  by_cases hfields : ∀ fields, config.value = .object fields → fields = []
  · obtain ⟨hemitted, hnone⟩ := packConfigInput_of_unanswered henv hbundle hpack hfields
    exact .inr ⟨⟨henv, hbundle, hpack, fun key _ _ hkey => absurd (hnone key) hkey⟩, [], [], entries_nil hnone, hemitted⟩
  push Not at hfields
  obtain ⟨fields, hvalue, hfields⟩ := hfields
  have hat : ∀ key, answeredAt render config.value key = presentAt render fields key := answeredAt_of_object hvalue
  have hgives : Gives render (visibleQuestionIds resolveVisibility formSpec config.value) (secretIds formSpec)
      (fun key => s!"secret://{envId}/{bundleId}/{packId}/{key}") fields [] [] _ :=
    gives_splitAnswers (config.distinct fields hvalue) SortedMap.ordered_nil SortedMap.ordered_nil
  rw [packConfigInput_of_object henv hbundle hpack hvalue hfields]
  revert hgives
  generalize splitAnswers render _ _ _ fields [] [] = result
  intro hgives
  cases result with
  | error message =>
    obtain ⟨key, hkey, hsecret, hpresent, hplain⟩ := hgives
    refine .inl ⟨⟨message, rfl⟩, fun h => hplain (h.secrets key hkey hsecret ?_)⟩
    rwa [hat]
  | ok entries =>
    obtain ⟨hplain, hsplits⟩ := hgives
    refine .inr ⟨⟨henv, hbundle, hpack, fun key hkey hsecret hthere => ?_⟩, entries.1, entries.2,
      ⟨hsplits.ordered, hsplits.ordered_refs, fun key => ?_, fun key => ?_⟩, rfl⟩
    · exact hplain key hkey hsecret (hat key ▸ hthere)
    · rw [hsplits.nonSecret, hat]
      exact Option.or_none
    · rw [hsplits.secretRefs, hat]
      exact Option.or_none

end QaPersist
