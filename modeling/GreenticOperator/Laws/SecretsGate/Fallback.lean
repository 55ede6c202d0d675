import GreenticOperator.SecretsGate.Check

/-!
# Reading under the wildcard team

A read is meant to look under the wildcard team where the secret is not found under its own, and
to report whatever else goes wrong (`ReadAsMeant`). It looks there on any error, and what goes wrong
there is not reported (`readsAsMeant_iff`). In every case it depends on nothing but the entries that
differ in the team (`read_congr`).
-/

namespace SecretsGate

/-- The path with the wildcard as its team. -/
def wildcardPath (path : String) : String :=
  match Text.stripPrefix secretsScheme path with
  | none => path
  | some trimmed =>
    match Text.split '/' trimmed with
    | [env, tenant, _, provider, key] =>
      secretsScheme ++ Text.joinWith '/' [env, tenant, "_", provider, key]
    | _ => path

/-- A path that has the same environment, tenant, provider and key, or is the same path. -/
def SameButTeam (path other : String) : Prop :=
  other = path ∨ ∃ env tenant team team' provider key,
    path = secretsScheme ++ Text.joinWith '/' [env, tenant, team, provider, key]
      ∧ other = secretsScheme ++ Text.joinWith '/' [env, tenant, team', provider, key]

variable {SecretError : Type} {inner other : SecretsManager SecretError} {path : String}

/-- What a read should give. -/
def meant (isNotFound : SecretError → Bool) (inner : SecretsManager SecretError) (path : String) :
    Except SecretError (List UInt8) :=
  match inner path with
  | .ok value => .ok value
  | .error err => if isNotFound err then inner (wildcardPath path) else .error err

theorem wildcardPath_of_fallback {fallbackPath : String} (h : teamWildcardFallback path = some fallbackPath) :
    wildcardPath path = fallbackPath := by
  unfold teamWildcardFallback at h
  obtain ⟨trimmed, hstrip, h⟩ := Option.bind_eq_some_iff.mp h
  split at h
  next env tenant team provider key hsplit =>
    unfold wildcardPath
    rw [hstrip]
    dsimp only
    rw [hsplit]
    split at h
    next => cases h
    next => exact Option.some.inj h
  next => cases h

theorem sameButTeam_of_fallback {fallbackPath : String} (h : teamWildcardFallback path = some fallbackPath) :
    SameButTeam path fallbackPath := by
  unfold teamWildcardFallback at h
  obtain ⟨trimmed, hstrip, h⟩ := Option.bind_eq_some_iff.mp h
  split at h
  next env tenant team provider key hsplit =>
    split at h
    next => cases h
    next =>
      refine .inr ⟨env, tenant, team, "_", provider, key, ?_, (Option.some.inj h).symm⟩
      rw [← hsplit, Text.joinWith_split]
      exact Text.stripPrefix_eq_some_iff.mp hstrip
  next => cases h

/-- **A read stays with its entries**: managers that agree on the paths that differ in the team
only are read alike. -/
theorem read_congr (h : ∀ q, SameButTeam path q → inner q = other q) :
    LoggingSecretsManager.read inner path = LoggingSecretsManager.read other path := by
  unfold LoggingSecretsManager.read
  rw [h path (.inl rfl)]
  cases other path with
  | ok value => rfl
  | error err =>
    dsimp only
    cases hfallback : teamWildcardFallback path with
    | none => rfl
    | some fallbackPath =>
      dsimp only
      rw [h fallbackPath (sameButTeam_of_fallback hfallback)]

/-- A read that gives what it should, from the entries of its place only. -/
structure ReadAsMeant (isNotFound : SecretError → Bool) (inner : SecretsManager SecretError) (path : String) :
    Prop where
  result : LoggingSecretsManager.read inner path = meant isNotFound inner path
  stays : ∀ other : SecretsManager SecretError, (∀ q, SameButTeam path q → inner q = other q) →
    LoggingSecretsManager.read other path = LoggingSecretsManager.read inner path

/-- What the inner manager may answer so that a read gives what it should: a secret that is not
found has a fallback that is there, or the same error under the wildcard; any other error has no
fallback that is there. -/
def FallbackFits (isNotFound : SecretError → Bool) (inner : SecretsManager SecretError) (path : String) : Prop :=
  ∀ err, inner path = .error err →
    if isNotFound err then
      (∃ fallbackPath value, teamWildcardFallback path = some fallbackPath ∧ inner fallbackPath = .ok value)
        ∨ inner (wildcardPath path) = .error err
    else ∀ fallbackPath value, teamWildcardFallback path = some fallbackPath → inner fallbackPath ≠ .ok value

theorem read_eq_meant_iff (isNotFound : SecretError → Bool) (inner : SecretsManager SecretError) (path : String) :
    LoggingSecretsManager.read inner path = meant isNotFound inner path
      ↔ FallbackFits isNotFound inner path := by
  unfold LoggingSecretsManager.read meant FallbackFits
  cases hinner : inner path with
  | ok value => exact iff_of_true rfl nofun
  | error err =>
    dsimp only
    have hforall : ∀ p : SecretError → Prop, (∀ e, (Except.error err : Except SecretError (List UInt8)) = .error e
        → p e) ↔ p err := fun p => ⟨fun h => h err rfl, fun h e he => Except.error.inj he ▸ h⟩
    rw [hforall]
    cases hfallback : teamWildcardFallback path with
    | none =>
      cases isNotFound err with
      | true => simp [eq_comm]
      | false => simp
    | some fallbackPath =>
      rw [wildcardPath_of_fallback hfallback]
      cases hread : inner fallbackPath with
      | ok value => cases isNotFound err <;> simp [hread]
      | error other =>
        cases isNotFound err with
        | true => simp [hread, eq_comm]
        | false =>
          refine iff_of_true (by simp [hread]) fun otherPath value hpath => ?_
          cases hpath
          rw [hread]
          nofun

/-- **Reads give what they should exactly** where the answers of the inner manager fit. -/
theorem readAsMeant_iff (isNotFound : SecretError → Bool) (inner : SecretsManager SecretError) (path : String) :
    ReadAsMeant isNotFound inner path ↔ FallbackFits isNotFound inner path := by
  rw [← read_eq_meant_iff]
  exact ⟨fun h => h.result, fun h => ⟨h, fun other hother => read_congr fun q hq => (hother q hq).symm⟩⟩

/-! ## An error that is replaced -/

/-- A store that refuses the team its secret and has one for the tenant. -/
def refusing : SecretsManager String := fun path =>
  if path = "secrets://prod/acme/sales/messaging-slack/token" then .error "permission denied"
  else if path = "secrets://prod/acme/_/messaging-slack/token" then .ok [115]
  else .error "not found"

/-- The secret of the tenant is given in place of the refusal. -/
theorem refusal_replaced : ¬ ∀ (SecretError : Type) (isNotFound : SecretError → Bool)
    (inner : SecretsManager SecretError) (path : String), ReadAsMeant isNotFound inner path := by
  intro h
  have hread := (h String (· == "not found") refusing "secrets://prod/acme/sales/messaging-slack/token").result
  exact absurd hread (by decide +kernel)

end SecretsGate
