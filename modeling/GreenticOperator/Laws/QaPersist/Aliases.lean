import GreenticOperator.Laws.QaPersist.Found

/-!
# Aliases for required secrets

A provider may require a secret under a longer name than its answer has: `webex_bot_token` for the
answer `bot_token`. An alias is then stored, and only under names no answer has, so that every
answer stays (`Aliased`). The answer an alias takes is one whose name the required name ends
with. It need not end with it at an underscore, and of several such answers the first counts, not
the longest (`aliased_first`).
-/

namespace QaPersist

open Json SecretName SecretsGate

/-- What an alias of a required name holds, by a rule for its text. -/
abbrev AliasRule := List (String × String) → String → String → Prop

/-- The required name is a name, or ends with it after an underscore. -/
def EndsAtBoundary (name required : String) : Prop :=
  required = name ∨ ∃ front, required = front ++ "_" ++ name

/-- The text of an answer whose name ends the required one at an underscore, and none longer does. -/
def longestAtBoundary : AliasRule := fun answers required text =>
  ∃ key, (key, text) ∈ answers ∧ EndsAtBoundary (canonicalSecretName key) required
    ∧ ∀ other ∈ answers, EndsAtBoundary (canonicalSecretName other.1) required →
        (canonicalSecretName other.1).length ≤ (canonicalSecretName key).length

/-- The text of the first answer whose name ends the required one. -/
def firstEnding : AliasRule := fun answers required text =>
  ∃ before key after, answers = before ++ (key, text) :: after
    ∧ Text.endsWith (canonicalSecretName key) required = true
    ∧ ∀ other ∈ before, Text.endsWith (canonicalSecretName other.1) required = false

/-- **What seeding comes to**: the entries of the answers stay and keep their values in any store;
each entry added is for a required name that no answer has, with a text by the rule. -/
structure Aliased (rule : AliasRule) (uriOf : String → String) (answers : List (String × String))
    (entries : List SeedEntry) (requirements : List String) (after : List SeedEntry) : Prop where
  kept : entries <+: after
  unchanged : ∀ (store : Store), ∀ e ∈ entries,
    after.foldl Store.put store e.uri = entries.foldl Store.put store e.uri
  added : ∀ e ∈ after.drop entries.length, ∃ key ∈ requirements,
    (∀ answer ∈ answers, canonicalSecretName answer.1 ≠ canonicalSecretName key)
      ∧ e.uri = uriOf (canonicalSecretName key)
      ∧ ∃ text, e.value = textBytes text ∧ rule answers (canonicalSecretName key) text

/-! ## The answer that is taken -/

/-- The first match among the fields is the first among the answers that are not empty. -/
theorem firstEnding_of_matchedValue {render : Value → String} {fields : List (String × Value)}
    {required text : String} (h : matchedValue render fields required = some text) :
    firstEnding (allAnswers render fields) required text := by
  unfold matchedValue at h
  obtain ⟨before, ⟨key, v⟩, after, rfl, htext, hbefore⟩ := List.findSome?_eq_some_iff.mp h
  dsimp only at htext
  split at htext
  next hends =>
    refine ⟨allAnswers render before, key, allAnswers render after, ?_, hends, ?_⟩
    · unfold allAnswers
      rw [List.filterMap_append, List.filterMap_cons]
      simp only [htext, Option.map_some]
    · intro other hother
      obtain ⟨⟨name, w⟩, hmem, hpresent⟩ := List.mem_filterMap.mp hother
      obtain ⟨found, hfound, rfl⟩ := Option.map_eq_some_iff.mp hpresent
      have hnone := hbefore (name, w) hmem
      dsimp only at hnone
      cases hname : Text.endsWith (canonicalSecretName name) required with
      | false => rfl
      | true =>
        rw [if_pos hname, hfound] at hnone
        cases hnone
  next => cases htext

/-! ## The entries -/

/-- Entries under other URIs leave the value under a URI. -/
theorem foldl_put_of_ne {entries : List SeedEntry} {uri : String} (store : Store)
    (h : ∀ e ∈ entries, e.uri ≠ uri) : entries.foldl Store.put store uri = store uri := by
  induction entries generalizing store with
  | nil => rfl
  | cons entry entries ih =>
    rw [List.foldl_cons, ih _ fun e he => h e (List.mem_cons_of_mem entry he)]
    exact Function.update_of_ne (Ne.symm (h entry List.mem_cons_self)) _ _

variable {render : Value → String} {env tenant : String} {team : Option String} {provider : String}

theorem seedEntry_uri (uriOf : String → String) (description key text : String) :
    (seedEntry uriOf description (key, text)).uri = uriOf key := rfl

/-- The aliases of required names are for names of their own, each with the first answer that ends
it. -/
theorem alias_of_mem {fields : List (String × Value)} {description : String}
    {requirements : List String} {e : SeedEntry}
    (he : e ∈ secretRequirementAliases render (canonicalSecretUri env tenant team provider) fields
      ((allAnswers render fields).map (seedEntry (canonicalSecretUri env tenant team provider) description))
      provider requirements) :
    ∃ key ∈ requirements,
      (∀ answer ∈ allAnswers render fields, canonicalSecretName answer.1 ≠ canonicalSecretName key)
        ∧ e.uri = canonicalSecretUri env tenant team provider (canonicalSecretName key)
        ∧ ∃ text, e.value = textBytes text ∧ firstEnding (allAnswers render fields) (canonicalSecretName key) text := by
  have hapart : ∀ key ∈ (allAnswers render fields).map Prod.fst,
      e.uri ≠ canonicalSecretUri env tenant team provider key := fun _ => uri_ne_of_mem_aliases he
  unfold secretRequirementAliases at he
  obtain ⟨key, hkey, he⟩ := List.mem_filterMap.mp he
  dsimp only at he
  split at he
  next => cases he
  next =>
    obtain ⟨text, htext, rfl⟩ := Option.map_eq_some_iff.mp he
    refine ⟨key, hkey, fun answer hanswer hname => ?_, seedEntry_uri _ _ _ _, text, rfl,
      firstEnding_of_matchedValue htext⟩
    refine hapart answer.1 (List.mem_map_of_mem hanswer) ?_
    rw [seedEntry_uri, canonicalSecretUri_inj, canonicalSecretName_idem, hname]

/-- What the answers of an object come to with their aliases. -/
def seeded (render : Value → String) (env tenant : String) (team : Option String) (provider : String)
    (description : String) (config : Value) (requirements : List String) : List SeedEntry :=
  let fields := config.asObject.getD []
  let uriOf := canonicalSecretUri env tenant team provider
  let entries := (allAnswers render fields).map (seedEntry uriOf description)
  entries ++ secretRequirementAliases render uriOf fields entries provider requirements

/-- For a pack that names its requirements, seeding comes to that. -/
theorem seedSecretRequirementAliases_eq {pack : Option (Except String PackArchive)}
    {requirements : List String} (h : pack.bind readSecretRequirements = some requirements)
    (fields : List (String × Value)) (description : String) :
    seedSecretRequirementAliases render (canonicalSecretUri env tenant team provider) fields
        ((allAnswers render fields).map (seedEntry (canonicalSecretUri env tenant team provider) description))
        provider pack
      = seeded render env tenant team provider description (.object fields) requirements := by
  unfold seedSecretRequirementAliases
  rw [h]
  rfl

/-- Seeding promises this of every object of answers, given in any order. -/
structure SeedsAliases (rule : AliasRule) (render : Value → String) (env tenant : String)
    (team : Option String) (provider description : String) (given : List (String × Value))
    (requirements : List String) : Prop where
  aliased : ∀ fields, Value.ofFields given = .object fields →
    Aliased rule (canonicalSecretUri env tenant team provider) (allAnswers render fields)
      ((allAnswers render fields).map (seedEntry (canonicalSecretUri env tenant team provider) description))
      requirements
      (seeded render env tenant team provider description (Value.ofFields given) requirements)
  orderless : (given.map Prod.fst).Nodup → ∀ other, given.Perm other →
    seeded render env tenant team provider description (Value.ofFields given) requirements
      = seeded render env tenant team provider description (Value.ofFields other) requirements

/-- **Seeding keeps every answer, and takes the first that ends a required name.** -/
theorem aliased_first (render : Value → String) (env tenant : String) (team : Option String)
    (provider description : String) (given : List (String × Value)) (requirements : List String) :
    SeedsAliases firstEnding render env tenant team provider description given requirements where
  aliased fields hfields := by
    have hseeded : seeded render env tenant team provider description (Value.ofFields given) requirements
        = (allAnswers render fields).map (seedEntry (canonicalSecretUri env tenant team provider) description)
          ++ secretRequirementAliases render (canonicalSecretUri env tenant team provider) fields
            ((allAnswers render fields).map
              (seedEntry (canonicalSecretUri env tenant team provider) description)) provider requirements := by
      rw [hfields]
      rfl
    rw [hseeded]
    refine ⟨List.prefix_append _ _, fun store e he => ?_, fun e he => ?_⟩
    · obtain ⟨answer, hanswer, rfl⟩ := List.mem_map.mp he
      rw [List.foldl_append]
      exact foldl_put_of_ne _ fun other hother =>
        uri_ne_of_mem_aliases hother (List.mem_map_of_mem hanswer)
    · rw [List.drop_left] at he
      exact alias_of_mem he
  orderless hnodup other hperm := by
    rw [Value.ofFields_eq_of_perm hperm hnodup]

theorem not_endsAtBoundary_en : ¬ EndsAtBoundary "en" "webex_bot_token" := by
  rintro (heq | ⟨front, heq⟩)
  · exact absurd heq (by decide)
  · -- Before its last two letters the name has no underscore.
    have hlast := congrArg (fun name : String => name.toList.reverse) heq
    simp at hlast

/-- The answer to a question about the language is stored as a token whose name ends in it. -/
theorem language_is_token : ¬ ∀ (render : Value → String) (env tenant : String) (team : Option String)
    (provider description : String) (given : List (String × Value)) (requirements : List String),
    SeedsAliases longestAtBoundary render env tenant team provider description given requirements := by
  intro h
  have hseeds := h (fun _ => "") "dev" "acme" none "messaging-webex" "answers"
    [("en", .string "English")] ["WEBEX_BOT_TOKEN"]
  obtain ⟨key, hkey, -, -, text, -, other, hother, hends, -⟩ := (hseeds.aliased _ rfl).added
    { uri := "secrets://dev/acme/_/messaging-webex/webex_bot_token", value := textBytes "English",
      description := some "alias from WEBEX_BOT_TOKEN for messaging-webex" } (by decide +kernel)
  have hanswers : (other, text) ∈ [("en", "English")] := hother
  rw [List.mem_singleton] at hkey
  cases List.mem_singleton.mp hanswers
  rw [hkey, show canonicalSecretName "WEBEX_BOT_TOKEN" = "webex_bot_token" from by decide +kernel,
    show canonicalSecretName "en" = "en" from by decide +kernel] at hends
  exact not_endsAtBoundary_en hends

end QaPersist
