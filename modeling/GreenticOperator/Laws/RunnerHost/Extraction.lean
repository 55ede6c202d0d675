import GreenticOperator.Laws.RunnerHost.Gate

/-!
# Where a bearer token is found

A payload has nine places for a bearer token. `recognised` are the values of all of them,
whatever else the payload holds; `visible` are the texts the extractor comes to look at.
The two differ: of the six single paths only the first that holds any text is looked at, and
of an object of headers only two spellings of the name.

`noShadow_iff` says when no token is overlooked: the first text looked at that is not blank
must be a bearer value, and headers in an object must have the token in one of the two
spellings.
-/

namespace RunnerHost

open Json Domains Capabilities DemoRunnerHost

/-! ## Bearer values -/

/-- The bearer value of a text: nothing where the text is blank but for the scheme. -/
def bearerValue (raw : String) : Option String :=
  if Text.trim raw = "Bearer" then none else parseBearerValue raw

def isBlank (raw : String) : Bool := (Text.trim raw).isEmpty

theorem parseBearerValue_bare {raw : String} (h : Text.trim raw = "Bearer") :
    parseBearerValue raw = some "Bearer" := by
  unfold parseBearerValue
  rw [h]
  decide

/-- A text has a token exactly where it is not blank: what follows the scheme in a trimmed
text ends in something that is not white space. -/
theorem isSome_parseBearerValue (raw : String) : (parseBearerValue raw).isSome = !isBlank raw := by
  unfold parseBearerValue isBlank
  cases hblank : (Text.trim raw).isEmpty with
  | true =>
    simp only [hblank, ↓reduceIte]
    rfl
  | false =>
    simp only [hblank, Bool.false_eq_true, ↓reduceIte]
    cases hstrip : Text.stripPrefix "Bearer " (Text.trim raw) with
    | none => rfl
    | some rest =>
      have hrest : (Text.trim rest).isEmpty = false :=
        Text.stripPrefix_trim_not_blank (c := ' ') (by decide) (by decide) hstrip
      simp only [hrest, Bool.false_eq_true, ↓reduceIte]
      rfl

/-! ## The places -/

/-- The texts under a header's name, in either form of headers. -/
def textOfEntry (entry : Value) : Option String := do
  let name ← ((entry.get "name").or (entry.get "key")).bind Value.asStr
  if Text.eqIgnoreAsciiCase name "authorization" then (entry.get "value").bind Value.asStr else none

def textOfField (field : String × Value) : Option String :=
  if Text.eqIgnoreAsciiCase field.1 "authorization" then field.2.asStr else none

/-- The texts of all authorization headers. -/
def headerTexts : Value → List String
  | .object map => map.filterMap textOfField
  | .array values => values.filterMap textOfEntry
  | _ => []

def spellings : List String := ["authorization", "Authorization"]

/-- The texts of the authorization headers that are looked at. -/
def visibleHeaderTexts : Value → List String
  | .object map => spellings.filterMap fun key => (map.lookup key).bind Value.asStr
  | .array values => values.filterMap textOfEntry
  | _ => []

def pathText (payload : Value) (path : String) : Option String := (payload.pointer path).bind Value.asStr

/-- The bearer values of all the places. -/
def recognised (payload : Value) : List String :=
  (bearerPaths.filterMap (pathText payload)
    ++ (payload.get "headers").elim [] headerTexts
    ++ (pathText payload "/metadata/authorization").toList).filterMap bearerValue

/-- The texts that are looked at, in their order. -/
def visible (payload : Value) : List String :=
  (bearerPaths.findSome? (pathText payload)).toList
    ++ (payload.get "headers").elim [] visibleHeaderTexts
    ++ (pathText payload "/metadata/authorization").toList

theorem findSome_filterMap {α β γ : Type} (f : α → Option β) (g : β → Option γ) (l : List α) :
    (l.filterMap f).findSome? g = l.findSome? fun a => (f a).bind g := by
  induction l with
  | nil => rfl
  | cons a l ih =>
    rw [List.filterMap_cons, List.findSome?_cons]
    cases h : f a with
    | none => exact ih
    | some b =>
      rw [List.findSome?_cons, Option.bind_some, ih]

theorem findSome_toList {β γ : Type} (g : β → Option γ) (o : Option β) : o.toList.findSome? g = o.bind g := by
  cases o with
  | none => rfl
  | some b =>
    rw [Option.toList_some, List.findSome?_singleton]
    rfl

theorem extractBearerFromHeaders_eq (headers : Value) :
    extractBearerFromHeaders headers = (visibleHeaderTexts headers).findSome? parseBearerValue := by
  cases headers with
  | object map => exact (findSome_filterMap _ _ _).symm
  | array values =>
    show values.findSome? bearerOfEntry = (values.filterMap textOfEntry).findSome? parseBearerValue
    rw [findSome_filterMap]
    congr 1
    funext entry
    unfold bearerOfEntry textOfEntry
    cases ((entry.get "name").or (entry.get "key")).bind Value.asStr with
    | none => simp only [Option.bind_eq_bind, Option.bind_none]
    | some name =>
      simp only [Option.bind_eq_bind, Option.bind_some]
      split <;> rfl
  | null => rfl
  | bool b => rfl
  | number n => rfl
  | string s => rfl

/-- **The extractor reads the first text it looks at** that is not blank. -/
theorem extractBearerToken_eq (payload : Value) :
    extractBearerToken payload = (visible payload).findSome? parseBearerValue := by
  unfold extractBearerToken visible
  rw [List.findSome?_append, List.findSome?_append, findSome_toList, findSome_toList, Option.or_assoc]
  congr 2
  cases payload.get "headers" with
  | none => rfl
  | some headers => exact extractBearerFromHeaders_eq headers

theorem mem_headerTexts_of_visible {headers : Value} {raw : String}
    (h : raw ∈ visibleHeaderTexts headers) : raw ∈ headerTexts headers := by
  cases headers with
  | object map =>
    obtain ⟨key, hkey, htext⟩ := List.mem_filterMap.mp h
    obtain ⟨v, hv, htext⟩ := Option.bind_eq_some_iff.mp htext
    have hmem : (key, v) ∈ map := by
      obtain ⟨before, after, hmap, -⟩ := List.lookup_eq_some_iff.mp hv
      rw [hmap]
      exact List.mem_append_right before List.mem_cons_self
    refine List.mem_filterMap.mpr ⟨(key, v), hmem, ?_⟩
    unfold textOfField
    have hname : Text.eqIgnoreAsciiCase key "authorization" = true := by
      rcases List.mem_pair.mp hkey with rfl | rfl <;> decide
    rw [if_pos hname]
    exact htext
  | array values => exact h
  | null => exact h
  | bool b => exact h
  | number n => exact h
  | string s => exact h

/-- What is looked at is in one of the places. -/
theorem mem_places_of_visible {payload : Value} {raw : String} (h : raw ∈ visible payload) :
    raw ∈ bearerPaths.filterMap (pathText payload)
      ++ (payload.get "headers").elim [] headerTexts
      ++ (pathText payload "/metadata/authorization").toList := by
  unfold visible at h
  rcases List.mem_append.mp h with h | h
  · refine List.mem_append_left _ ?_
    rcases List.mem_append.mp h with h | h
    · obtain ⟨path, hpath, htext⟩ := List.exists_of_findSome?_eq_some (Option.mem_toList.mp h)
      exact List.mem_append_left _ (List.mem_filterMap.mpr ⟨path, hpath, htext⟩)
    · refine List.mem_append_right _ ?_
      cases hheaders : payload.get "headers" with
      | none =>
        rw [hheaders] at h
        exact h
      | some headers =>
        rw [hheaders] at h
        exact mem_headerTexts_of_visible h
  · exact List.mem_append_right _ h

/-! ## Finding a token where there is one -/

/-- Where a place holds a bearer value, one such value is found. -/
def Finds (payload : Value) : Prop :=
  recognised payload ≠ [] → ∃ token ∈ recognised payload, extractBearerToken payload = some token

/-- Some text that is looked at is not blank, and the first such is more than the scheme,
unless there is no bearer value at all. -/
def Uncovered (payload : Value) : Prop :=
  recognised payload = [] ∨ ∃ raw, (visible payload).find? (fun raw => !isBlank raw) = some raw
    ∧ (Text.trim raw ≠ "Bearer" ∨ "Bearer" ∈ recognised payload)

theorem findSome_eq_find {α β : Type} (f : α → Option β) (l : List α) :
    l.findSome? f = (l.find? fun a => (f a).isSome).bind f := by
  induction l with
  | nil => rfl
  | cons a l ih =>
    rw [List.findSome?_cons, List.find?_cons]
    cases h : f a with
    | none =>
      simp only [Option.isSome_none]
      exact ih
    | some b =>
      simp only [Option.isSome_some, Option.bind_some]
      exact h.symm

theorem extractBearerToken_eq_find (payload : Value) :
    extractBearerToken payload
      = ((visible payload).find? fun raw => !isBlank raw).bind parseBearerValue := by
  simp only [extractBearerToken_eq, findSome_eq_find, isSome_parseBearerValue]

theorem finds_of_uncovered {payload : Value} (h : Uncovered payload) : Finds payload := by
  intro hsome
  rcases h with h | ⟨raw, hraw, hscheme⟩
  · exact absurd h hsome
  · rw [extractBearerToken_eq_find, hraw, Option.bind_some]
    by_cases hbare : Text.trim raw = "Bearer"
    · exact ⟨"Bearer", hscheme.resolve_left (not_not_intro hbare), parseBearerValue_bare hbare⟩
    · have hblank := List.find?_some hraw
      have hparse : (parseBearerValue raw).isSome = true := (isSome_parseBearerValue raw).trans hblank
      obtain ⟨token, htoken⟩ := Option.isSome_iff_exists.mp hparse
      refine ⟨token, List.mem_filterMap.mpr ⟨raw, ?_, ?_⟩, htoken⟩
      · exact mem_places_of_visible (List.mem_of_find?_eq_some hraw)
      · unfold bearerValue
        rw [if_neg hbare]
        exact htoken

theorem uncovered_of_finds {payload : Value} (h : Finds payload) : Uncovered payload := by
  by_cases hnone : recognised payload = []
  · exact Or.inl hnone
  · obtain ⟨token, htoken, hfound⟩ := h hnone
    rw [extractBearerToken_eq_find] at hfound
    obtain ⟨raw, hraw, hparse⟩ := Option.bind_eq_some_iff.mp hfound
    refine Or.inr ⟨raw, hraw, ?_⟩
    by_cases hbare : Text.trim raw = "Bearer"
    · rw [parseBearerValue_bare hbare, Option.some.injEq] at hparse
      exact Or.inr (hparse ▸ htoken)
    · exact Or.inl hbare

/-! ## Validating the token that is found -/

/-- Where a validator is in scope and the operation is not exempt, the gate lets the payload
through only after the validator was asked about one of its bearer values. -/
def Validates (payload : Value) : Prop :=
  ∀ host s envelope payloadBytes ctx log binding envelope' log',
    host.codec.fromSlice payloadBytes = some payload → validator host ctx = some binding →
    Text.startsWith exemptOp envelope.opName = false → recognised payload ≠ [] →
    (evaluateTokenValidationPreHook host s envelope payloadBytes ctx).run log
      = (.ok (.Continue, envelope'), log') →
    ∃ pack request token, token ∈ recognised payload ∧ request.get "token" = some (.string token)
      ∧ log' = log
        ++ [.invoke .tokenValidation (validationCall ctx binding pack request) s.tokenValidation]

/-- The request names the token that was found. -/
theorem token_of_request {payload request : Value} {token : String}
    (htoken : extractBearerToken payload = some token)
    (h : extractTokenValidationRequest payload = some request) :
    request.get "token" = some (.string token) := by
  unfold extractTokenValidationRequest at h
  rw [htoken] at h
  cases h
  refine Value.get_ofFields_cons fun field hfield => ?_
  rcases List.mem_append.mp hfield with hfield | hfield
  · rcases List.mem_append.mp hfield with hfield | hfield
    · obtain ⟨_, -, rfl⟩ := Option.map_eq_some_iff.mp (Option.mem_toList.mp hfield)
      exact (by decide : "token" ≠ "issuer")
    · obtain ⟨_, -, rfl⟩ := Option.map_eq_some_iff.mp (Option.mem_toList.mp hfield)
      exact (by decide : "token" ≠ "audience")
  · obtain ⟨_, -, rfl⟩ := Option.map_eq_some_iff.mp (Option.mem_toList.mp hfield)
    exact (by decide : "token" ≠ "scopes")

theorem validates_of_finds {payload : Value} (h : Finds payload) : Validates payload := by
  intro host s envelope payloadBytes ctx log binding envelope' log' hpayload hbinding hexempt hsome hrun
  obtain ⟨token, htoken, hfound⟩ := h hsome
  obtain ⟨request, hrequest⟩ :=
    (carriesToken_iff host payloadBytes).mp ⟨payload, token, hpayload, hfound⟩
  have hasked : extractTokenValidationRequest payload = some request := by
    unfold tokenRequest at hrequest
    rw [hpayload] at hrequest
    exact hrequest
  by_cases hready : isBindingReady s.disk ctx.tenant ctx.team binding = .ok true
  · cases hpack : host.packsByPath binding.packPath with
    | none => exact absurd hrun (gate_refuses hexempt hrequest hbinding (Or.inr hpack) envelope' log')
    | some pack =>
      rw [gate_asks hexempt hrequest hbinding hready hpack] at hrun
      exact ⟨pack, request, token, htoken, token_of_request hfound hasked, (Prod.mk.inj hrun).2.symm⟩
  · exact absurd hrun (gate_refuses hexempt hrequest hbinding (Or.inl hready) envelope' log')

/-! ## The two forms of headers -/

/-- The headers of an object as an array of names and values. -/
def arrayForm (map : List (String × Value)) : Value :=
  .array (map.map fun field => .object [("name", .string field.1), ("value", field.2)])

/-- Headers in an object give the token that the same headers in an array give. -/
def FormsAgree (payload : Value) : Prop :=
  ∀ map, payload.get "headers" = some (.object map) →
    extractBearerFromHeaders (.object map) = extractBearerFromHeaders (arrayForm map)

/-- Of headers in an object, the first of any spelling that is not blank, if there is one,
says the same as the first of the two spellings that is not blank. -/
def Spelled (payload : Value) : Prop :=
  ∀ map raw, payload.get "headers" = some (.object map) →
    (map.filterMap textOfField).find? (fun raw => !isBlank raw) = some raw →
    ∃ plain, (visibleHeaderTexts (.object map)).find? (fun raw => !isBlank raw) = some plain
      ∧ parseBearerValue plain = parseBearerValue raw

theorem headerTexts_arrayForm (map : List (String × Value)) :
    visibleHeaderTexts (arrayForm map) = map.filterMap textOfField := by
  show (map.map _).filterMap textOfEntry = _
  rw [List.filterMap_map]
  rfl

theorem extractBearerFromHeaders_eq_find (headers : Value) :
    extractBearerFromHeaders headers
      = ((visibleHeaderTexts headers).find? fun raw => !isBlank raw).bind parseBearerValue := by
  simp only [extractBearerFromHeaders_eq, findSome_eq_find, isSome_parseBearerValue]

theorem formsAgree_iff (payload : Value) : FormsAgree payload ↔ Spelled payload := by
  constructor
  · intro h map raw hheaders hraw
    have hagree := h map hheaders
    rw [extractBearerFromHeaders_eq_find, extractBearerFromHeaders_eq_find, headerTexts_arrayForm, hraw,
      Option.bind_some] at hagree
    have hblank := List.find?_some hraw
    have hparse : (parseBearerValue raw).isSome = true := (isSome_parseBearerValue raw).trans hblank
    obtain ⟨token, htoken⟩ := Option.isSome_iff_exists.mp hparse
    rw [htoken] at hagree
    obtain ⟨plain, hplain, hsame⟩ := Option.bind_eq_some_iff.mp hagree
    exact ⟨plain, hplain, hsame.trans htoken.symm⟩
  · intro h map hheaders
    rw [extractBearerFromHeaders_eq_find, extractBearerFromHeaders_eq_find, headerTexts_arrayForm]
    cases hraw : (map.filterMap textOfField).find? fun raw => !isBlank raw with
    | some raw =>
      obtain ⟨plain, hplain, hsame⟩ := h map raw hheaders hraw
      rw [hplain, Option.bind_some, Option.bind_some, hsame]
    | none =>
      have hnone : (visibleHeaderTexts (.object map)).find? (fun raw => !isBlank raw) = none := by
        rw [List.find?_eq_none] at hraw ⊢
        exact fun plain hplain => hraw plain (mem_headerTexts_of_visible hplain)
      rw [hnone]

/-! ## No token is overlooked -/

/-- No bearer value is overlooked because of where it stands or how its name is spelled. -/
structure NoShadow (payload : Value) : Prop where
  finds : Finds payload
  validates : Validates payload
  formsAgree : FormsAgree payload

/-- **No bearer value is overlooked exactly** where what is looked at first holds one and
headers in an object are spelled in one of the two ways. -/
theorem noShadow_iff (payload : Value) : NoShadow payload ↔ Uncovered payload ∧ Spelled payload := by
  constructor
  · exact fun h => ⟨uncovered_of_finds h.finds, (formsAgree_iff payload).mp h.formsAgree⟩
  · rintro ⟨huncovered, hspelled⟩
    have hfinds := finds_of_uncovered huncovered
    exact ⟨hfinds, validates_of_finds hfinds, (formsAgree_iff payload).mpr hspelled⟩

/-- A blank text in one place hides the token in another. -/
theorem blank_token_hides_authorization : ¬ ∀ payload, NoShadow payload := by
  intro h
  have hfinds := (h (.object [("authorization", .string "Bearer abc"), ("token", .string "")])).finds
  obtain ⟨token, -, hfound⟩ := hfinds (by decide +kernel)
  revert hfound
  have hnone : extractBearerToken (.object [("authorization", .string "Bearer abc"), ("token", .string "")])
      = none := by decide +kernel
  rw [hnone]
  exact nofun

/-- A header in capitals is found in an array and not in an object. -/
example :
    extractBearerFromHeaders (.object [("AUTHORIZATION", .string "Bearer abc")]) = none
      ∧ extractBearerFromHeaders (arrayForm [("AUTHORIZATION", .string "Bearer abc")]) = some "abc" := by
  decide +kernel

end RunnerHost
