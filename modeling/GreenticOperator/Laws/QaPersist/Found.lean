import GreenticOperator.Laws.SecretName
import GreenticOperator.QaPersist.Secrets

/-!
# Secrets that are written are found

Whatever a writer stores, the check of the provider is to ask for it, and each key it reports as
saved is to have its own answer in the store (`SecretsFound`). The check does not know the provider
that stands in for an empty one, and keys with one canonical name overwrite each other
(`secretsFound_iff`).
-/

namespace QaPersist

open Json SecretName SecretsGate

variable {render : Value → String} {resolveVisibility : VisibilityResolver} {seed : SeedApply}
  {env tenant : String} {team : Option String} {provider : String} {config : Answers}

/-! ## Secret URIs -/

/-- What a URI begins with, up to the name of its secret. -/
def uriFront (env tenant team provider : String) : List Char :=
  secretsScheme.toList ++ env.toList ++ '/' :: tenant.toList ++ '/' :: team.toList ++ '/' :: provider.toList

theorem toList_uri (env tenant team provider name : String) :
    (secretsScheme ++ Text.joinWith '/' [env, tenant, team, provider, name]).toList
      = uriFront env tenant team provider ++ '/' :: name.toList := by
  simp [uriFront, Text.joinWith, List.intercalate]

theorem toList_canonicalSecretUri (key : String) :
    (canonicalSecretUri env tenant team provider key).toList
      = uriFront env tenant (canonicalTeam team) (if provider = "" then "messaging" else provider)
        ++ '/' :: (canonicalSecretName key).toList := toList_uri ..

theorem canonicalSecretUri_inj {key key' : String} :
    canonicalSecretUri env tenant team provider key = canonicalSecretUri env tenant team provider key'
      ↔ canonicalSecretName key = canonicalSecretName key' := by
  rw [← String.toList_inj, toList_canonicalSecretUri, toList_canonicalSecretUri, List.append_cancel_left_eq,
    List.cons_inj_right, String.toList_inj]

/-- The last segment of a URI is the name of its secret. -/
theorem lastSegment_canonicalSecretUri (key : String) :
    (Text.split '/' (canonicalSecretUri env tenant team provider key)).getLast?
      = some (canonicalSecretName key) := by
  unfold Text.split
  rw [toList_canonicalSecretUri, List.splitOn_append_cons_self, List.map_append, List.getLast?_append,
    List.splitOn_eq_singleton (slash_not_mem_canonicalSecretName key), List.map_singleton,
    List.getLast?_singleton, String.ofList_toList, Option.some_or]

/-- The check asks for the URI a key is stored under exactly where the provider is not empty. -/
theorem mem_candidates_iff {key : String} :
    canonicalSecretUri env tenant team provider key
        ∈ secretUriCandidates env tenant (canonicalTeam team) key provider ↔ provider ≠ "" := by
  unfold secretUriCandidates
  rw [List.mem_singleton, ← String.toList_inj, toList_canonicalSecretUri, toList_uri]
  by_cases h : provider = ""
  · refine iff_of_false (fun heq => ?_) (not_not.mpr h)
    rw [if_pos h, h] at heq
    simp [uriFront] at heq
  · rw [if_neg h]
    exact iff_of_true rfl h

/-! ## Seeding -/

theorem foldl_put_of_forall {entries : List SeedEntry} {uri : String} {value : List UInt8} {store : Store}
    (hall : ∀ e ∈ entries, e.uri = uri → e.value = value)
    (h : store uri = some value ∨ ∃ e ∈ entries, e.uri = uri) :
    entries.foldl Store.put store uri = some value := by
  induction entries generalizing store with
  | nil =>
    rcases h with h | ⟨e, he, -⟩
    · exact h
    · cases he
  | cons entry entries ih =>
    rw [List.foldl_cons]
    refine ih (fun e he => hall e (List.mem_cons_of_mem entry he)) ?_
    by_cases huri : entry.uri = uri
    · left
      unfold Store.put
      rw [← huri, Function.update_self, hall entry List.mem_cons_self huri]
    · rcases h with h | ⟨e, he, heuri⟩
      · left
        unfold Store.put
        rw [Function.update_of_ne (Ne.symm huri), h]
      · rcases List.mem_cons.mp he with rfl | he
        · exact absurd heuri huri
        · exact .inr ⟨e, he, heuri⟩

theorem applyEntries_ok {entries : List SeedEntry} {keys saved : List String} {store after : Store}
    (hnil : entries = [] → keys = []) (h : applyEntries seed store entries keys = (after, .ok saved)) :
    saved = keys ∧ after = entries.foldl Store.put store := by
  unfold applyEntries at h
  split at h
  next hentries =>
    cases h
    exact ⟨(hnil hentries).symm, by rw [hentries, List.foldl_nil]⟩
  next =>
    dsimp only at h
    split at h
    next => cases h
    next hfailed =>
      cases h
      exact ⟨rfl, seed.written store entries (not_not.mp hfailed)⟩

/-! ## The writers -/

/-- The text the answers give a key, where it is not empty. -/
def answerText (render : Value → String) (config : Answers) (key : String) : Option String :=
  (config.value.get key).bind (presentText render)

inductive Writer
  | qaSecrets (formSpec : FormSpec)
  | allConfig (pack : Option (Except String PackArchive))

def Writer.run (render : Value → String) (resolveVisibility : VisibilityResolver) (opened : Except String Unit)
    (seed : SeedApply) (env tenant : String) (team : Option String) (provider : String) (config : Answers)
    (store : Store) : Writer → Store × Except PersistError (List String)
  | .qaSecrets formSpec =>
    persistQaSecrets render resolveVisibility seed env tenant team provider config formSpec store
  | .allConfig pack => persistAllConfigAsSecrets render opened seed env tenant team provider config pack store

/-- Keys a writer looks at. -/
def Writer.Asked (resolveVisibility : VisibilityResolver) (config : Answers) (key : String) : Writer → Prop
  | .qaSecrets formSpec => key ∈ visibleQuestionIds resolveVisibility formSpec config.value
  | .allConfig _ => True

/-- Keys a writer looks at that have an answer. -/
def Writer.Answered (render : Value → String) (resolveVisibility : VisibilityResolver) (config : Answers)
    (w : Writer) (key : String) : Prop :=
  w.Asked resolveVisibility config key ∧ answerText render config key ≠ none

/-- What a writer that returns the saved keys did: it put entries into the store, one for each
key, and other entries under other URIs only. -/
structure Stored (render : Value → String) (config : Answers) (uriOf : String → String)
    (store after : Store) (saved : List String) (entries : List SeedEntry) : Prop where
  after_eq : after = entries.foldl Store.put store
  of_saved : ∀ key ∈ saved, ∃ e ∈ entries, e.uri = uriOf key
  of_entry : ∀ e ∈ entries, (∃ key ∈ saved, e.uri = uriOf key ∧ (answerText render config key).map textBytes = some e.value)
    ∨ ∀ key ∈ saved, e.uri ≠ uriOf key

theorem Stored.nil {uriOf : String → String} {store : Store} : Stored render config uriOf store store [] [] :=
  ⟨rfl, nofun, nofun⟩

/-- Entries of answers, followed by entries under other URIs. -/
theorem stored_of_answers {uriOf : String → String} {store after : Store} {description : String}
    {answers : List (String × String)} {others : List SeedEntry}
    (hanswers : ∀ answer ∈ answers, answerText render config answer.1 = some answer.2)
    (hothers : ∀ e ∈ others, ∀ key ∈ answers.map Prod.fst, e.uri ≠ uriOf key)
    (hafter : after = (answers.map (seedEntry uriOf description) ++ others).foldl Store.put store) :
    Stored render config uriOf store after (answers.map Prod.fst)
      (answers.map (seedEntry uriOf description) ++ others) := by
  refine ⟨hafter, fun key hkey => ?_, fun e he => ?_⟩
  · obtain ⟨answer, hanswer, rfl⟩ := List.mem_map.mp hkey
    exact ⟨seedEntry uriOf description answer,
      List.mem_append_left _ (List.mem_map_of_mem hanswer), rfl⟩
  · rcases List.mem_append.mp he with he | he
    · obtain ⟨answer, hanswer, rfl⟩ := List.mem_map.mp he
      exact .inl ⟨answer.1, List.mem_map_of_mem hanswer, rfl, congrArg _ (hanswers answer hanswer)⟩
    · exact .inr (hothers e he)

theorem answerText_of_object {fields : List (String × Value)} (h : config.value.asObject = some fields)
    (key : String) : answerText render config key = (fields.lookup key).bind (presentText render) := by
  unfold answerText
  cases hvalue : config.value <;> rw [hvalue] at h <;> cases h
  rfl

theorem answerText_of_not_object (h : config.value.asObject = none) (key : String) :
    answerText render config key = none := by
  unfold answerText
  cases hvalue : config.value with
  | object fields => rw [hvalue] at h; cases h
  | _ => rfl

theorem mem_visibleAnswers {fields : List (String × Value)} {ids : List String} {key text : String} :
    (key, text) ∈ visibleAnswers render fields ids
      ↔ key ∈ ids ∧ (fields.lookup key).bind (presentText render) = some text := by
  unfold visibleAnswers
  rw [List.mem_filterMap]
  constructor
  · rintro ⟨id, hid, htext⟩
    obtain ⟨_, htext, heq⟩ := Option.map_eq_some_iff.mp htext
    cases heq
    exact ⟨hid, htext⟩
  · rintro ⟨hkey, htext⟩
    exact ⟨key, hkey, by rw [htext]; rfl⟩

theorem mem_allAnswers {fields : List (String × Value)} (hfields : config.value.asObject = some fields)
    {key text : String} : (key, text) ∈ allAnswers render fields ↔ answerText render config key = some text := by
  have hobject : config.value = .object fields := by
    cases hvalue : config.value <;> rw [hvalue] at hfields <;> cases hfields
    rfl
  unfold allAnswers
  rw [answerText_of_object hfields, List.mem_filterMap, Option.bind_eq_some_iff]
  simp only [Value.lookup_eq_some_iff (config.distinct fields hobject)]
  constructor
  · rintro ⟨⟨name, v⟩, hmem, htext⟩
    obtain ⟨_, htext, heq⟩ := Option.map_eq_some_iff.mp htext
    cases heq
    exact ⟨v, hmem, htext⟩
  · rintro ⟨v, hmem, htext⟩
    exact ⟨(key, v), hmem, by dsimp only; rw [htext]; rfl⟩

theorem keys_of_answers {answers : List (String × String)} {keep : String → Prop}
    (h : ∀ key text, (key, text) ∈ answers ↔ keep key ∧ answerText render config key = some text)
    (key : String) : key ∈ answers.map Prod.fst ↔ keep key ∧ answerText render config key ≠ none := by
  rw [List.mem_map]
  constructor
  · rintro ⟨⟨key, text⟩, hmem, rfl⟩
    obtain ⟨hkeep, htext⟩ := (h key text).mp hmem
    exact ⟨hkeep, htext ▸ Option.some_ne_none text⟩
  · rintro ⟨hkeep, hne⟩
    obtain ⟨text, htext⟩ := Option.ne_none_iff_exists'.mp hne
    exact ⟨(key, text), (h key text).mpr ⟨hkeep, htext⟩, rfl⟩

theorem stored_of_persistQaSecrets {formSpec : FormSpec} {store after : Store} {saved : List String}
    (h : persistQaSecrets render resolveVisibility seed env tenant team provider config formSpec store
      = (after, .ok saved)) :
    (∀ key, key ∈ saved ↔ (Writer.qaSecrets formSpec).Answered render resolveVisibility config key)
      ∧ ∃ entries, Stored render config (canonicalSecretUri env tenant team provider) store after saved entries := by
  unfold persistQaSecrets at h
  dsimp only at h
  split at h
  next hids =>
    cases h
    refine ⟨fun key => iff_of_false List.not_mem_nil fun hkey => ?_, [], Stored.nil⟩
    have hasked : key ∈ visibleQuestionIds resolveVisibility formSpec config.value := hkey.1
    rw [hids] at hasked
    exact List.not_mem_nil hasked
  next =>
    split at h
    next hnone =>
      cases h
      exact ⟨fun key => iff_of_false List.not_mem_nil fun hkey =>
        hkey.2 (answerText_of_not_object hnone key), [], Stored.nil⟩
    next fields hfields =>
      obtain ⟨rfl, hafter⟩ := applyEntries_ok (fun hnil => by rw [List.map_eq_nil_iff.mp hnil, List.map_nil]) h
      have hmem : ∀ key text, (key, text) ∈ visibleAnswers render fields
            (visibleQuestionIds resolveVisibility formSpec config.value)
          ↔ key ∈ visibleQuestionIds resolveVisibility formSpec config.value
            ∧ answerText render config key = some text := by
        intro key text
        rw [mem_visibleAnswers, answerText_of_object hfields]
      rw [← List.append_nil (List.map _ _)] at hafter
      exact ⟨keys_of_answers hmem, _, stored_of_answers (fun answer hanswer => ((hmem _ _).mp hanswer).2)
        (fun e he => absurd he List.not_mem_nil) hafter⟩

/-- No alias has the URI of an answer: its name is the name of none of them. -/
theorem uri_ne_of_mem_aliases {fields : List (String × Value)} {answers : List (String × String)}
    {description : String} {requirements : List String} {e : SeedEntry}
    (he : e ∈ secretRequirementAliases render (canonicalSecretUri env tenant team provider) fields
      (answers.map (seedEntry (canonicalSecretUri env tenant team provider) description)) provider requirements)
    {key : String} (hkey : key ∈ answers.map Prod.fst) : e.uri ≠ canonicalSecretUri env tenant team provider key := by
  unfold secretRequirementAliases at he
  obtain ⟨reqKey, -, he⟩ := List.mem_filterMap.mp he
  dsimp only at he
  split at he
  next => cases he
  next hnew =>
    obtain ⟨text, -, rfl⟩ := Option.map_eq_some_iff.mp he
    intro heq
    have hname : canonicalSecretName reqKey = canonicalSecretName key := by
      rw [← canonicalSecretUri_inj.mp heq, canonicalSecretName_idem]
    obtain ⟨answer, hanswer, rfl⟩ := List.mem_map.mp hkey
    refine hnew (List.mem_filterMap.mpr ⟨_, List.mem_map_of_mem hanswer, ?_⟩)
    rw [hname]
    exact lastSegment_canonicalSecretUri answer.1

theorem exists_aliases (fields : List (String × Value)) (answers : List (String × String)) (description : String)
    (pack : Option (Except String PackArchive)) :
    ∃ others, seedSecretRequirementAliases render (canonicalSecretUri env tenant team provider) fields
        (answers.map (seedEntry (canonicalSecretUri env tenant team provider) description)) provider pack
        = answers.map (seedEntry (canonicalSecretUri env tenant team provider) description) ++ others
      ∧ ∀ e ∈ others, ∀ key ∈ answers.map Prod.fst, e.uri ≠ canonicalSecretUri env tenant team provider key := by
  unfold seedSecretRequirementAliases
  split
  next => exact ⟨[], (List.append_nil _).symm, fun e he => absurd he List.not_mem_nil⟩
  next requirements _ => exact ⟨_, rfl, fun e he key hkey => uri_ne_of_mem_aliases he hkey⟩

theorem stored_of_persistAllConfigAsSecrets {opened : Except String Unit}
    {pack : Option (Except String PackArchive)} {store after : Store} {saved : List String}
    (h : persistAllConfigAsSecrets render opened seed env tenant team provider config pack store
      = (after, .ok saved)) :
    (∀ key, key ∈ saved ↔ (Writer.allConfig pack).Answered render resolveVisibility config key)
      ∧ ∃ entries, Stored render config (canonicalSecretUri env tenant team provider) store after saved entries := by
  unfold persistAllConfigAsSecrets at h
  split at h
  next hnone =>
    cases h
    exact ⟨fun key => iff_of_false List.not_mem_nil fun hkey =>
      hkey.2 (answerText_of_not_object hnone key), [], Stored.nil⟩
  next fields hfields =>
    split at h
    next hnil =>
      cases h
      refine ⟨fun key => iff_of_false List.not_mem_nil fun hkey => hkey.2 ?_, [], Stored.nil⟩
      rw [answerText_of_object hfields, hnil]
      rfl
    next =>
      split at h
      next => cases h
      next =>
        obtain ⟨others, hentries, hothers⟩ := exists_aliases fields (allAnswers render fields) _ pack
        dsimp only at h
        rw [hentries] at h
        obtain ⟨rfl, hafter⟩ := applyEntries_ok (fun hnil => by
          rw [List.map_eq_nil_iff.mp (List.append_eq_nil_iff.mp hnil).1, List.map_nil]) h
        have hmem : ∀ key text, (key, text) ∈ allAnswers render fields
            ↔ (Writer.allConfig pack).Asked resolveVisibility config key ∧ answerText render config key = some text := by
          intro key text
          rw [mem_allAnswers hfields]
          exact (and_iff_right trivial).symm
        exact ⟨keys_of_answers hmem, _, stored_of_answers (fun answer hanswer => ((hmem _ _).mp hanswer).2)
          hothers hafter⟩

theorem Writer.stored_of_run {w : Writer} {opened : Except String Unit} {store after : Store} {saved : List String}
    (h : w.run render resolveVisibility opened seed env tenant team provider config store = (after, .ok saved)) :
    (∀ key, key ∈ saved ↔ w.Answered render resolveVisibility config key)
      ∧ ∃ entries, Stored render config (canonicalSecretUri env tenant team provider) store after saved entries := by
  cases w with
  | qaSecrets formSpec => exact stored_of_persistQaSecrets h
  | allConfig pack => exact stored_of_persistAllConfigAsSecrets h

/-- Each answer is found under the URI of its key, where the keys have URIs of their own. -/
theorem Stored.holds {uriOf : String → String} {store after : Store} {saved : List String}
    {entries : List SeedEntry} (h : Stored render config uriOf store after saved entries)
    (hapart : ∀ key ∈ saved, ∀ key' ∈ saved, uriOf key = uriOf key' → key = key')
    {key text : String} (hkey : key ∈ saved) (htext : answerText render config key = some text) :
    after (uriOf key) = some (textBytes text) := by
  rw [h.after_eq]
  refine foldl_put_of_forall (fun e he heuri => ?_) (.inr (h.of_saved key hkey))
  rcases h.of_entry e he with ⟨key', hkey', heuri', htext'⟩ | hother
  · have hsame := hapart key hkey key' hkey' (heuri.symm.trans heuri')
    rw [← hsame, htext, Option.map_some] at htext'
    exact (Option.some.inj htext').symm
  · exact absurd heuri (hother key hkey)

/-! ## Found exactly -/

/-- **What is written is found**: the check probes the URI each required key is stored under, and
a writer that returns the saved keys has each one's own answer in the store. -/
structure SecretsFound (toLowercase : Lowercase) (render : Value → String) (resolveVisibility : VisibilityResolver)
    (env tenant : String) (team : Option String) (provider : String) (pack : Except String PackArchive)
    (config : Answers) (w : Writer) : Prop where
  probed : ∀ keys, loadSecretKeysFromPack toLowercase pack = .ok keys → ∀ key ∈ keys,
    ∀ (SecretError : Type) (manager : SecretsManager SecretError),
      canonicalSecretUri env tenant team provider key ∈ (checkKey manager env tenant team provider key).probed
  holds : ∀ (opened : Except String Unit) (seed : SeedApply) (store after : Store) (saved : List String),
    w.run render resolveVisibility opened seed env tenant team provider config store = (after, .ok saved) →
    ∀ key ∈ saved, ∃ v, config.value.get key = some v
      ∧ after (canonicalSecretUri env tenant team provider key) = some (textBytes (textOf render v))
  apart : ∀ (opened : Except String Unit) (seed : SeedApply) (store after : Store) (saved : List String),
    w.run render resolveVisibility opened seed env tenant team provider config store = (after, .ok saved) →
    ∀ key ∈ saved, ∀ key' ∈ saved,
      canonicalSecretUri env tenant team provider key = canonicalSecretUri env tenant team provider key' → key = key'

/-- Answered keys have canonical names of their own. -/
def NamesApart (render : Value → String) (resolveVisibility : VisibilityResolver) (config : Answers) (w : Writer) :
    Prop :=
  ∀ key key', w.Answered render resolveVisibility config key → w.Answered render resolveVisibility config key' →
    canonicalSecretName key = canonicalSecretName key' → key = key'

theorem probed_checkKey {SecretError : Type} (manager : SecretsManager SecretError) (key : String) :
    (checkKey manager env tenant team provider key).probed
      = secretUriCandidates env tenant (canonicalTeam team) key provider := by
  unfold checkKey secretUriCandidates probeCandidates
  split <;> rfl

theorem text_of_answerText {key text : String} (h : answerText render config key = some text) :
    ∃ v, config.value.get key = some v ∧ text = textOf render v := by
  obtain ⟨v, hget, htext⟩ := Option.bind_eq_some_iff.mp h
  exact ⟨v, hget, (Option.some.inj (Option.filter_eq_some_iff.mp htext).1).symm⟩

/-- A store that takes every entry. -/
def SeedApply.all : SeedApply where
  apply store entries := (entries.foldl Store.put store, [])
  written _ _ _ := rfl

theorem applyEntries_all (store : Store) (entries : List SeedEntry) (keys : List String) :
    ∃ after saved, applyEntries .all store entries keys = (after, .ok saved) := by
  unfold applyEntries
  split
  · exact ⟨_, _, rfl⟩
  · exact ⟨_, _, rfl⟩

/-- Where the store opens and takes every entry, a writer returns. -/
theorem Writer.run_all (w : Writer) (store : Store) :
    ∃ after saved, w.run render resolveVisibility (.ok ()) .all env tenant team provider config store
      = (after, .ok saved) := by
  cases w with
  | qaSecrets formSpec =>
    unfold Writer.run persistQaSecrets
    dsimp only
    split
    · exact ⟨_, _, rfl⟩
    · split
      · exact ⟨_, _, rfl⟩
      · exact applyEntries_all ..
  | allConfig pack =>
    unfold Writer.run persistAllConfigAsSecrets
    dsimp only
    split
    · exact ⟨_, _, rfl⟩
    · split
      · exact ⟨_, _, rfl⟩
      · exact applyEntries_all ..

/-- **Secrets that are written are found exactly** where the provider is not empty or no key is
required, and no two answered keys have one canonical name. -/
theorem secretsFound_iff (toLowercase : Lowercase) (render : Value → String) (resolveVisibility : VisibilityResolver)
    (env tenant : String) (team : Option String) (provider : String) (pack : Except String PackArchive)
    (config : Answers) (w : Writer) :
    SecretsFound toLowercase render resolveVisibility env tenant team provider pack config w
      ↔ (provider = "" → ∀ keys, loadSecretKeysFromPack toLowercase pack = .ok keys → keys = [])
        ∧ NamesApart render resolveVisibility config w := by
  constructor
  · intro h
    constructor
    · intro hprovider keys hkeys
      refine List.eq_nil_iff_forall_not_mem.mpr fun key hkey => ?_
      have hprobed := h.probed keys hkeys key hkey String fun _ => .error ""
      rw [probed_checkKey] at hprobed
      exact mem_candidates_iff.mp hprobed hprovider
    · intro key key' hkey hkey' hname
      obtain ⟨after, saved, hrun⟩ := w.run_all (fun _ => none)
      obtain ⟨hsaved, -⟩ := Writer.stored_of_run hrun
      exact h.apart _ _ _ _ _ hrun key ((hsaved key).mpr hkey) key' ((hsaved key').mpr hkey')
        (canonicalSecretUri_inj.mpr hname)
  · rintro ⟨hprovider, hnames⟩
    have hapart : ∀ saved : List String, (∀ key, key ∈ saved ↔ w.Answered render resolveVisibility config key) →
        ∀ key ∈ saved, ∀ key' ∈ saved, canonicalSecretUri env tenant team provider key
          = canonicalSecretUri env tenant team provider key' → key = key' :=
      fun saved hsaved key hkey key' hkey' huri =>
        hnames key key' ((hsaved key).mp hkey) ((hsaved key').mp hkey') (canonicalSecretUri_inj.mp huri)
    refine ⟨fun keys hkeys key hkey _ manager => ?_, fun opened seed store after saved hrun key hkey => ?_,
      fun opened seed store after saved hrun => hapart saved (Writer.stored_of_run hrun).1⟩
    · rw [probed_checkKey]
      exact mem_candidates_iff.mpr fun hempty =>
        List.not_mem_nil (hprovider hempty keys hkeys ▸ hkey)
    · obtain ⟨hsaved, entries, hstored⟩ := Writer.stored_of_run hrun
      obtain ⟨text, htext⟩ := Option.ne_none_iff_exists'.mp ((hsaved key).mp hkey).2
      obtain ⟨v, hget, rfl⟩ := text_of_answerText htext
      exact ⟨v, hget, hstored.holds (hapart saved hsaved) hkey htext⟩

/-! ## An answer that is overwritten -/

/-- Answers to two keys that differ in the case of a letter. -/
def twoCases : Answers where
  value := .object [("API_KEY", .string "first"), ("api_key", .string "second")]
  distinct fields h := by
    cases h
    decide

/-- The second answer overwrites the first, and both keys are reported as saved. -/
theorem overwrites_answer : ¬ ∀ (toLowercase : Lowercase) (render : Value → String)
    (resolveVisibility : VisibilityResolver) (env tenant : String) (team : Option String) (provider : String)
    (pack : Except String PackArchive) (config : Answers) (w : Writer),
    SecretsFound toLowercase render resolveVisibility env tenant team provider pack config w := by
  intro h
  have hfound := h id (fun _ => "") (fun _ _ _ => none) "dev" "acme" none "messaging-slack" (.error "")
    twoCases (.allConfig none)
  have hsame := hfound.apart (.ok ()) .all (fun _ => none) _ ["API_KEY", "api_key"] rfl
    "API_KEY" List.mem_cons_self "api_key" (List.mem_cons_of_mem _ List.mem_cons_self)
    (canonicalSecretUri_inj.mpr (by decide +kernel))
  exact absurd hsame (by decide)

end QaPersist
