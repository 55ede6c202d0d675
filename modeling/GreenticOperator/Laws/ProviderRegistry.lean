import GreenticOperator.Lib.HashMap
import GreenticOperator.Lib.Run
import GreenticOperator.ProviderRegistry

/-!
# What is served from the cache

A catalog that was fetched is kept under the slug of its reference, which many references share. An offline
resolution of a reference serves what was fetched for whatever reference with this slug was fetched last, and
the index itself for a slug of that name. A run in which no fetch brings anything for another reference of the
same slug, nor for the index, serves each reference what was last fetched for it, and nothing before
(`offline_serves_last`).
-/

namespace ProviderRegistry

variable {serde : Serde} {cache : Cache} {resolution : Resolution} {registry : Registry} {reference r digest : String}
  {bytes : List UInt8}

/-! ## Where cached files are -/

open Disk (Plain)

theorem toLower_ne_slash {ch : Char} (h : Text.isAsciiAlphanumeric ch = true) : ch.toLower ≠ '/' := by
  intro heq
  unfold Char.toLower at heq
  split at heq
  next hupper =>
    have hval : (ch.val + 32).toNat = 47 := congrArg (fun c => c.val.toNat) heq
    have hlow : 65 ≤ ch.val.toNat := hupper.1
    have hhigh : ch.val.toNat ≤ 90 := hupper.2
    rw [UInt32.toNat_add, show (32 : UInt32).toNat = 32 from rfl] at hval
    omega
  next =>
    subst heq
    revert h
    decide

theorem not_mem_slugChars (prevDash : Bool) (chars : List Char) : '/' ∉ slugChars prevDash chars := by
  induction chars generalizing prevDash with
  | nil => exact List.not_mem_nil
  | cons ch rest ih =>
    unfold slugChars
    split
    next halnum => exact List.not_mem_cons_of_ne_of_not_mem (toLower_ne_slash halnum).symm (ih false)
    next =>
      split
      · exact ih true
      · exact List.not_mem_cons_of_ne_of_not_mem (by decide) (ih true)

/-- A slug is the stem of a file in one directory. -/
theorem plain_slug (value : String) : Plain (slug value ++ ".json") := by
  have hslash : '/' ∉ (slug value).toList := by
    unfold slug
    dsimp only
    split
    · decide
    · intro hmem
      unfold Text.trimMatches Text.trimEndMatches Text.trimStartMatches at hmem
      rw [String.toList_ofList, String.toList_ofList] at hmem
      have hmem := (List.dropWhile_sublist _).subset ((List.rdropWhile_prefix _ _).subset hmem)
      rw [String.toList_ofList] at hmem
      exact not_mem_slugChars _ _ hmem
  have hlong : ∀ other : String, other.length ≤ 2 → slug value ++ ".json" ≠ other := by
    intro other hshort heq
    rw [← heq, String.length_append, show ".json".length = 5 from rfl] at hshort
    omega
  refine ⟨hlong "" (by decide), hlong "." (by decide), hlong ".." (by decide), ?_⟩
  rw [String.toList_append, List.mem_append, not_or]
  exact ⟨hslash, by decide⟩

/-- Files of the cache are in one place only if they are the same. -/
theorem path_injective (bundle reference other digest digest' : String) :
    (Disk.resolve ((cachePathForRef reference).path bundle) = Disk.resolve ((cachePathForRef other).path bundle)
        → slug reference = slug other)
      ∧ (Disk.resolve ((cachePathForDigest digest).path bundle) = Disk.resolve ((cachePathForDigest digest').path bundle)
        → slug digest = slug digest')
      ∧ Disk.resolve ((cachePathForRef reference).path bundle)
        ≠ Disk.resolve ((cachePathForDigest digest).path bundle) := by
  have hend : ∀ {a b : String}, a ++ ".json" = b ++ ".json" → a = b := fun {a b} h => by
    have hlist := congrArg String.toList h
    rw [String.toList_append, String.toList_append] at hlist
    exact String.toList_inj.mp (List.append_cancel_right hlist)
  refine ⟨fun h => ?_, fun h => ?_, fun h => ?_⟩
  · rw [cachePathForRef, cachePathForRef, CacheFile.path, CacheFile.path, Disk.resolve_join _ (plain_slug _),
      Disk.resolve_join _ (plain_slug _)] at h
    exact hend (List.singleton_inj.mp (List.append_cancel_left h))
  · rw [cachePathForDigest, cachePathForDigest, CacheFile.path, CacheFile.path, Disk.resolve_join _ (plain_slug _),
      Disk.resolve_join _ (plain_slug _)] at h
    exact hend (List.singleton_inj.mp (List.append_cancel_left h))
  · -- One is a directory below the other.
    have hdir : ∀ dir, Disk.resolve (Disk.join dir "by-digest") = Disk.resolve dir ++ ["by-digest"] := fun dir =>
      Disk.resolve_join dir (by decide)
    have hlength := congrArg List.length h
    rw [cachePathForRef, cachePathForDigest, CacheFile.path, CacheFile.path, Disk.resolve_join _ (plain_slug _),
      Disk.resolve_join _ (plain_slug _), hdir, List.length_append, List.length_append,
      List.length_append] at hlength
    simp only [List.length_singleton] at hlength
    omega

/-! ## What a fetch does -/

/-- The digest that the index has for a reference. -/
def Recorded (serde : Serde) (cache : Cache) (reference digest : String) : Prop :=
  ∃ refs, cache.refs serde = .ok refs ∧ refs.lookup reference = some digest

def Cache.noted (cache : Cache) (reference : String) (bytes : List UInt8) : Cache :=
  { cache with fetches := cache.fetches ++ [(reference, bytes)] }

/-- The cache with the bytes under both their names. -/
def Cache.stored (cache : Cache) (reference digest : String) (bytes : List UInt8) : Cache :=
  { cache with
    files := Function.update (Function.update cache.files (cachePathForDigest digest) (some (.fetched bytes)))
      (cachePathForRef reference) (some (.fetched bytes)) }

/-- The cache with an entry more in its index, where that can be read. -/
def Cache.indexed (serde : Serde) (reference digest : String) (cache : Cache) : Cache :=
  match cache.refs serde with
  | .ok refs =>
    { cache with
      files := Function.update cache.files cacheIndexPath
        (some (.index (SortedMap.alter reference (fun _ => digest) refs))) }
  | .error _ => cache

@[simp] theorem loadCacheIndex_run (serde : Serde) (cache : Cache) :
    (loadCacheIndex serde).run cache = (cache.refs serde, cache) := rfl

@[simp] theorem write_run (file : CacheFile) (contents : Contents) (cache : Cache) : (Cache.write file contents).run cache
    = (.ok (), { cache with files := Function.update cache.files file (some contents) }) := rfl

@[simp] theorem note_run (reference : String) (bytes : List UInt8) (cache : Cache) :
    (Cache.note reference bytes).run cache = (.ok (), cache.noted reference bytes) := rfl

theorem cacheRemoteRegistryFile_state (serde : Serde) (reference digest : String) (bytes : List UInt8) (cache : Cache) :
    ((cacheRemoteRegistryFile serde reference digest bytes).run cache).2
      = (cache.stored reference digest bytes).indexed serde reference digest := by
  unfold cacheRemoteRegistryFile
  rw [Eff.bind_run, write_run]
  dsimp only
  rw [Eff.bind_run, write_run]
  dsimp only
  rw [← Cache.stored, Eff.bind_run, loadCacheIndex_run, Cache.indexed]
  cases (cache.stored reference digest bytes).refs serde with
  | ok refs => rfl
  | error err => rfl

/-- What a fetch that brought bytes makes of the cache. -/
inductive Kept (serde : Serde) (cache : Cache) (reference digest : String) (bytes : List UInt8) : Cache → Prop
  | noted : Recorded serde cache reference digest → Kept serde cache reference digest bytes (cache.noted reference bytes)
  | stored : Kept serde cache reference digest bytes
      (((cache.noted reference bytes).stored reference digest bytes).indexed serde reference digest)

theorem keepFetched_state (serde : Serde) (reference : String) (priorDigest : Option String) (fetched : Fetched)
    (cache : Cache) : ((keepFetched serde reference priorDigest fetched).run cache).2
      = match fetched.bytes with
        | .error _ => cache
        | .ok bytes =>
          if priorDigest = some fetched.digest
              ∧ (resolveExistingCacheForDigest reference fetched.digest cache).isSome = true then
            cache.noted reference bytes
          else ((cache.noted reference bytes).stored reference fetched.digest bytes).indexed serde reference
            fetched.digest := by
  unfold keepFetched
  cases fetched.bytes with
  | error err =>
    dsimp only
    rw [Eff.bind_run, Eff.read_run]
    dsimp only
    split <;> rfl
  | ok bytes =>
    have hexisting : (if priorDigest = some fetched.digest then
        resolveExistingCacheForDigest reference fetched.digest (cache.noted reference bytes) else none).isSome = true
        ↔ priorDigest = some fetched.digest
          ∧ (resolveExistingCacheForDigest reference fetched.digest cache).isSome = true := by
      by_cases hdigest : priorDigest = some fetched.digest
      · rw [if_pos hdigest, and_iff_right hdigest]
        rfl
      · simp [hdigest]
    dsimp only
    rw [Eff.bind_run, note_run]
    dsimp only
    rw [Eff.bind_run, Eff.read_run]
    dsimp only
    split
    next existing hsome =>
      rw [if_pos (hexisting.mp (Option.isSome_iff_exists.mpr ⟨existing, hsome⟩))]
      rfl
    next hnone =>
      have hnot := hexisting.not.mp (by rw [hnone]; exact Bool.false_ne_true)
      rw [if_neg hnot, Eff.bind_run, Eff.lift_run]
      exact cacheRemoteRegistryFile_state _ _ _ _ _

/-- What a registry gives for a reference. -/
def Gives (registry : Registry) (reference digest : String) (bytes : List UInt8) : Prop :=
  ∃ mapped fetched, mapRemoteRegistryRef registry reference = .ok mapped ∧ registry.fetch mapped = .ok fetched
    ∧ fetched.digest = digest ∧ fetched.bytes = .ok bytes

theorem fetch_cases (serde : Serde) (registry : Registry) (reference : String) (cache : Cache) :
    ((fetchRemoteRegistryToCache serde registry reference).run cache).2 = cache
      ∨ ∃ digest bytes, Gives registry reference digest bytes
        ∧ Kept serde cache reference digest bytes ((fetchRemoteRegistryToCache serde registry reference).run cache).2 := by
  unfold fetchRemoteRegistryToCache
  rw [Eff.bind_run, Eff.lift_run]
  cases hmapped : mapRemoteRegistryRef registry reference with
  | error err => exact .inl rfl
  | ok mapped =>
    dsimp only
    rw [Eff.bind_run, loadCacheIndex_run]
    cases hrefs : cache.refs serde with
    | error err => exact .inl rfl
    | ok refs =>
      dsimp only
      rw [Eff.bind_run, Eff.lift_run]
      cases hfetch : registry.fetch mapped with
      | error err => exact .inl rfl
      | ok fetched =>
        dsimp only
        rw [keepFetched_state]
        cases hbytes : fetched.bytes with
        | error err => exact .inl rfl
        | ok bytes =>
          refine .inr ⟨fetched.digest, bytes, ⟨mapped, fetched, hmapped, hfetch, rfl, hbytes⟩, ?_⟩
          dsimp only
          split
          next hdigest => exact .noted ⟨refs, hrefs, hdigest.1⟩
          next => exact .stored

/-! ## What a resolution does -/

/-- What the index leads to for a reference. -/
def byDigestOf (cache : Cache) (reference : String) (refs : Refs) : Option CacheFile :=
  match refs.lookup reference with
  | none => none
  | some digest =>
    if (cache.files (cachePathForDigest digest)).isSome then some (cachePathForDigest digest) else none

theorem resolveCachedByDigest_run (serde : Serde) (reference : String) (cache : Cache) :
    (resolveCachedByDigest serde reference).run cache = ((cache.refs serde).map (byDigestOf cache reference), cache) := by
  unfold resolveCachedByDigest
  rw [Eff.bind_run, loadCacheIndex_run]
  cases cache.refs serde with
  | error err => rfl
  | ok refs =>
    dsimp only
    have hresult : (Except.ok refs : Except String Refs).map (byDigestOf cache reference)
        = .ok (byDigestOf cache reference refs) := rfl
    rw [hresult, byDigestOf]
    cases refs.lookup reference with
    | none => rfl
    | some digest => rfl

/-- The resolution fetches for a reference: it is asked for it online, and to refresh it or finds nothing cached. -/
structure Fetches (serde : Serde) (cache : Cache) (resolution : Resolution) (reference : String) : Prop where
  asked : resolution.reference = some reference
  online : resolution.offline = false
  needed : resolution.refresh = true
    ∨ ∀ refs, cache.refs serde = .ok refs →
      Resolution.fromCache reference (byDigestOf cache reference refs) cache = none

theorem refreshed_state (serde : Serde) (resolution : Resolution) (reference : String)
    (cachedByDigest : Option CacheFile) (cache : Cache) :
    ((resolution.refreshed serde reference cachedByDigest).run cache).2
      = ((fetchRemoteRegistryToCache serde resolution.registry reference).run cache).2 := by
  unfold Resolution.refreshed
  rw [Eff.bind_run, Eff.attempt_run]
  generalize (fetchRemoteRegistryToCache serde resolution.registry reference).run cache = ran
  obtain ⟨result, after⟩ := ran
  cases result with
  | ok path => rfl
  | error err =>
    dsimp only
    rw [Eff.bind_run, Eff.read_run]
    dsimp only
    split <;> rfl

theorem cachedOrFetched_state (serde : Serde) (resolution : Resolution) (reference : String)
    (cachedByDigest : Option CacheFile) (cache : Cache) :
    ((resolution.cachedOrFetched serde reference cachedByDigest).run cache).2
      = if resolution.offline = false ∧ Resolution.fromCache reference cachedByDigest cache = none then
          ((fetchRemoteRegistryToCache serde resolution.registry reference).run cache).2
        else cache := by
  unfold Resolution.cachedOrFetched
  rw [Eff.bind_run, Eff.read_run]
  dsimp only
  split
  next path hpath =>
    rw [if_neg (fun h => by rw [hpath] at h; cases h.2)]
    rfl
  next hnone =>
    split
    next hoffline =>
      rw [if_neg (fun h => by rw [hoffline] at h; cases h.1)]
      rfl
    next hoffline =>
      rw [if_pos ⟨Bool.eq_false_iff.mpr hoffline, hnone⟩, Eff.bind_run, Eff.attempt_run]
      generalize (fetchRemoteRegistryToCache serde resolution.registry reference).run cache = ran
      obtain ⟨result, after⟩ := ran
      cases result <;> rfl

/-- A remote reference is fetched, or leaves the cache as it is. -/
theorem resolveRemote_state (serde : Serde) {resolution : Resolution} {reference : String}
    (hreference : resolution.reference = some reference) (cache : Cache) :
    ((resolution.resolveRemote serde reference).run cache).2 = cache
      ∨ (Fetches serde cache resolution reference
        ∧ ((resolution.resolveRemote serde reference).run cache).2
          = ((fetchRemoteRegistryToCache serde resolution.registry reference).run cache).2) := by
  unfold Resolution.resolveRemote
  rw [Eff.bind_run, resolveCachedByDigest_run]
  cases hrefs : cache.refs serde with
  | error err => exact .inl rfl
  | ok refs =>
    show ((ite _ _ _ : Eff Cache CacheFile).run cache).2 = cache ∨ _ ∧ ((ite _ _ _ : Eff Cache CacheFile).run cache).2 = _
    split
    next hrefresh =>
      rw [refreshed_state]
      rw [Bool.and_eq_true, Bool.not_eq_true'] at hrefresh
      exact .inr ⟨⟨hreference, hrefresh.1, .inl hrefresh.2⟩, rfl⟩
    next =>
      rw [cachedOrFetched_state]
      split
      next hnone =>
        refine .inr ⟨⟨hreference, hnone.1, .inr fun other hother => ?_⟩, rfl⟩
        rw [← Except.ok.inj (hrefs.symm.trans hother)]
        exact hnone.2
      next => exact .inl rfl

/-- **What a resolution can do to the cache**: nothing, or what a fetch does that it makes. -/
theorem exec_cases (serde : Serde) (resolution : Resolution) (cache : Cache) :
    resolution.exec serde cache = cache
      ∨ ∃ reference digest bytes, Fetches serde cache resolution reference
        ∧ Gives resolution.registry reference digest bytes
        ∧ Kept serde cache reference digest bytes (resolution.exec serde cache) := by
  unfold Resolution.exec Resolution.resolveCatalogPath
  split
  · exact .inl rfl
  · split
    · exact .inl rfl
    next reference hreference =>
      split
      · split <;> exact .inl rfl
      next =>
        have hsame : ((do return some (.cached (← resolution.resolveRemote serde reference)) :
            Eff Cache (Option CatalogPath)).run cache).2 = ((resolution.resolveRemote serde reference).run cache).2 := by
          rw [Eff.bind_run]
          generalize (resolution.resolveRemote serde reference).run cache = ran
          obtain ⟨result, after⟩ := ran
          cases result <;> rfl
        rw [hsame]
        rcases resolveRemote_state serde hreference cache with hkept | ⟨hfetches, hstate⟩
        · exact .inl hkept
        · rw [hstate]
          refine (fetch_cases serde resolution.registry reference cache).imp_right ?_
          rintro ⟨digest, bytes, hgives, hkept⟩
          exact ⟨reference, digest, bytes, hfetches, hgives, hkept⟩

/-! ## What an offline resolution serves -/

/-- **Faithful** to a remote reference: what is served offline for it are the bytes last fetched for it. -/
def Faithful (serde : Serde) (r : String) (cache : Cache) : Prop :=
  ∀ (resolution : Resolution) (path : CatalogPath), resolution.catalogFile = none → resolution.reference = some r →
    parseLocalRegistryRef r = none → resolution.offline = true →
    ((resolution.resolveCatalogPath serde).run cache).1 = .ok (some path) →
    ∃ file bytes, path = .cached file ∧ LastWins.last cache.fetches r = some bytes
      ∧ (cache.files file).map (Contents.bytes serde) = some bytes

theorem offline_eq_ok {path : CatalogPath} (hfile : resolution.catalogFile = none)
    (hreference : resolution.reference = some r) (hremote : parseLocalRegistryRef r = none)
    (hoffline : resolution.offline = true)
    (h : ((resolution.resolveCatalogPath serde).run cache).1 = .ok (some path)) :
    ∃ refs file, cache.refs serde = .ok refs ∧ Resolution.fromCache r (byDigestOf cache r refs) cache = some file
      ∧ path = .cached file := by
  unfold Resolution.resolveCatalogPath at h
  rw [hfile, hreference] at h
  dsimp only at h
  rw [hremote] at h
  dsimp only at h
  unfold Resolution.resolveRemote Resolution.cachedOrFetched at h
  rw [hoffline, Eff.bind_run, Eff.bind_run, resolveCachedByDigest_run] at h
  cases hrefs : cache.refs serde with
  | error err =>
    rw [hrefs] at h
    cases h
  | ok refs =>
    rw [hrefs] at h
    simp only [Except.map, Bool.not_true, Bool.false_and, Bool.false_eq_true, if_false, if_true, Eff.bind_run,
      Eff.read_run] at h
    cases hfrom : Resolution.fromCache r (byDigestOf cache r refs) cache with
    | none =>
      rw [hfrom] at h
      cases h
    | some file =>
      rw [hfrom] at h
      exact ⟨refs, file, rfl, hfrom, (Option.some.inj (Except.ok.inj h)).symm⟩

/-- A fetch that leaves alone what is cached for a reference, or is for it. -/
structure Apart (serde : Serde) (r : String) (cache : Cache) (reference digest : String) (bytes : List UInt8) :
    Prop where
  leaves_index : slug reference ≠ "index"
  off_index : slug r ≠ "index"
  own_slug : slug reference = slug r → reference = r
  same_bytes : reference = r → Recorded serde cache r digest → LastWins.last cache.fetches r = some bytes

/-- A resolution that makes no fetch but such. -/
def Clear (serde : Serde) (r : String) (cache : Cache) (resolution : Resolution) : Prop :=
  ∀ reference digest bytes, Fetches serde cache resolution reference →
    Gives resolution.registry reference digest bytes → Apart serde r cache reference digest bytes

/-- What is cached for a reference is what was last fetched for it. -/
structure Sound (r : String) (cache : Cache) : Prop where
  named : cache.files (cachePathForRef r) = (LastWins.last cache.fetches r).map Contents.fetched
  index : cache.files cacheIndexPath = none
    ∨ ∃ refs, cache.files cacheIndexPath = some (.index refs) ∧ SortedMap.Ordered refs
      ∧ ∀ digest, refs.lookup r = some digest → (LastWins.last cache.fetches r).isSome = true

theorem sound_empty (r : String) : Sound r .empty := ⟨rfl, .inl rfl⟩

/-- A sound cache has an index. -/
theorem Sound.exists_refs (h : Sound r cache) (serde : Serde) :
    ∃ refs, cache.refs serde = .ok refs ∧ SortedMap.Ordered refs
      ∧ ∀ digest, refs.lookup r = some digest → (LastWins.last cache.fetches r).isSome = true := by
  unfold Cache.refs
  rcases h.index with hnone | ⟨refs, hindex, hordered, hrefs⟩
  · rw [hnone]
    exact ⟨[], rfl, SortedMap.ordered_nil, nofun⟩
  · rw [hindex]
    exact ⟨refs, rfl, hordered, hrefs⟩

theorem faithful_of_sound (h : Sound r cache) : Faithful serde r cache := by
  intro resolution path hfile hreference hremote hoffline hpath
  obtain ⟨refs, file, hrefs, hfrom, rfl⟩ := offline_eq_ok hfile hreference hremote hoffline hpath
  obtain ⟨refs', hrefs', -, hrecorded⟩ := h.exists_refs serde
  cases hrefs.symm.trans hrefs'
  cases hlast : LastWins.last cache.fetches r with
  | some bytes =>
    have hnamed : cache.files (cachePathForRef r) = some (.fetched bytes) := by
      rw [h.named, hlast]
      rfl
    rw [Resolution.fromCache, hnamed] at hfrom
    cases hfrom
    exact ⟨_, bytes, rfl, rfl, by rw [hnamed]; rfl⟩
  | none =>
    -- The index has no digest for what was never fetched.
    have hlookup : refs.lookup r = none := by
      cases hlookup : refs.lookup r with
      | none => rfl
      | some digest =>
        have hsome := hrecorded digest hlookup
        rw [hlast] at hsome
        cases hsome
    have hnamed : cache.files (cachePathForRef r) = none := by
      rw [h.named, hlast]
      rfl
    rw [Resolution.fromCache, hnamed, byDigestOf, hlookup] at hfrom
    cases hfrom

theorem last_noted (cache : Cache) (reference : String) (bytes : List UInt8) :
    LastWins.last (cache.noted reference bytes).fetches r
      = if reference = r then some bytes else LastWins.last cache.fetches r := by
  rw [Cache.noted, LastWins.last_append, LastWins.last_singleton]
  split
  · rfl
  · exact Option.none_or

theorem cachePathForRef_ne_index (h : slug reference ≠ "index") : cachePathForRef reference ≠ cacheIndexPath :=
  fun heq => h (CacheFile.named.inj heq)

theorem sound_noted (hsound : Sound r cache) (hapart : Apart serde r cache reference digest bytes)
    (hrecorded : Recorded serde cache reference digest) : Sound r (cache.noted reference bytes) := by
  have hlast : LastWins.last (cache.noted reference bytes).fetches r = LastWins.last cache.fetches r := by
    rw [last_noted]
    split
    next heq => rw [hapart.same_bytes heq (heq ▸ hrecorded)]
    next => rfl
  refine ⟨?_, ?_⟩
  · rw [hlast]
    exact hsound.named
  · rw [hlast]
    exact hsound.index

theorem indexed_of_refs {refs : Refs} (h : cache.refs serde = .ok refs) :
    cache.indexed serde reference digest
      = ⟨Function.update cache.files cacheIndexPath
          (some (.index (SortedMap.alter reference (fun _ => digest) refs))), cache.fetches⟩ := by
  rw [Cache.indexed, h]

/-- The file of another name than the reference's is kept. -/
theorem files_stored_of_ne {stem : String} (h : stem ≠ slug reference) :
    (cache.stored reference digest bytes).files (.named stem) = cache.files (.named stem) := by
  have hname : CacheFile.named stem ≠ cachePathForRef reference := fun heq => h (CacheFile.named.inj heq)
  have hdigest : CacheFile.named stem ≠ cachePathForDigest digest := nofun
  simp only [Cache.stored]
  rw [Function.update_of_ne hname, Function.update_of_ne hdigest]

theorem files_stored_self :
    (cache.stored reference digest bytes).files (cachePathForRef reference) = some (.fetched bytes) := by
  simp only [Cache.stored]
  rw [Function.update_self]

theorem sound_stored (hsound : Sound r cache) (hapart : Apart serde r cache reference digest bytes) :
    Sound r (((cache.noted reference bytes).stored reference digest bytes).indexed serde reference digest) := by
  obtain ⟨refs, hrefs, hordered, hrecorded⟩ := hsound.exists_refs serde
  have hindex : ((cache.noted reference bytes).stored reference digest bytes).refs serde = .ok refs := by
    rw [← hrefs, Cache.refs, Cache.refs, cacheIndexPath, files_stored_of_ne hapart.leaves_index.symm]
    rfl
  rw [indexed_of_refs hindex]
  refine ⟨?_, .inr ⟨SortedMap.alter reference (fun _ => digest) refs, ?_,
    SortedMap.ordered_alter reference _ hordered, fun other hother => ?_⟩⟩
  · dsimp only
    rw [Function.update_of_ne (cachePathForRef_ne_index hapart.off_index)]
    refine Eq.trans ?_ (congrArg (Option.map Contents.fetched) (last_noted cache reference bytes).symm)
    by_cases heq : reference = r
    · rw [if_pos heq, ← heq]
      exact files_stored_self
    · rw [if_neg heq, cachePathForRef, files_stored_of_ne fun hslug => heq (hapart.own_slug hslug.symm)]
      exact hsound.named
  · dsimp only
    rw [Function.update_self]
  · have hlast := last_noted (r := r) cache reference bytes
    refine (congrArg Option.isSome hlast).trans ?_
    split
    · rfl
    next hne =>
      rw [SortedMap.lookup_alter reference r _ hordered, if_neg (Ne.symm hne)] at hother
      exact hrecorded other hother

theorem sound_exec (hclear : Clear serde r cache resolution) (hsound : Sound r cache) :
    Sound r (resolution.exec serde cache) := by
  rcases exec_cases serde resolution cache with hsame | ⟨reference, digest, bytes, hfetches, hgives, hkept⟩
  · rw [hsame]
    exact hsound
  · have hapart := hclear reference digest bytes hfetches hgives
    generalize resolution.exec serde cache = after at hkept ⊢
    cases hkept with
    | noted hrecorded => exact sound_noted hsound hapart hrecorded
    | stored => exact sound_stored hsound hapart

/-- **What is served offline**: in a run whose fetches leave alone what is cached for a reference, or are for it
and bring the same bytes with the same digest, an offline resolution of it serves the bytes last fetched for it,
if it serves anything. -/
theorem offline_serves_last (serde : Serde) (r : String) (resolutions : List Resolution)
    (h : ∀ step ∈ Run.steps (Resolution.exec serde) resolutions .empty, Clear serde r step.1 step.2) :
    Faithful serde r (Run.run (Resolution.exec serde) resolutions .empty)
      ∧ ∀ step ∈ Run.steps (Resolution.exec serde) resolutions .empty, Faithful serde r step.1 := by
  obtain ⟨hend, hsteps⟩ := Run.invariant_run (sound_empty r)
    (fun _ _ hclear hsound => sound_exec hclear hsound) h
  exact ⟨faithful_of_sound hend, fun step hstep => faithful_of_sound (hsteps step hstep)⟩

/-! ## Two references -/

/-- Nothing is read or written as an index here but what the cache has. -/
def noSerde : Serde := ⟨fun _ => [], fun _ => .error "invalid type"⟩

/-- A registry with one catalog, of no providers, for all that is asked of it. -/
def emptyCatalogs : Registry where
  repoBase := none
  storeBase := none
  fetchPackToCache _ := .ok ⟨"sha256:4f53", .ok [0x5B, 0x5D]⟩
  fetchRegistryBytesViaOci _ := .error "no layers"

def resolutionOf (reference : String) (offline : Bool) : Resolution where
  catalogFile := none
  providerRegistryRef := some reference
  offline
  refresh := false
  bundle := "/bundle"
  localExists _ := false
  registry := emptyCatalogs

theorem offline_serves_stable :
    Faithful noSerde "oci://ghcr.io/a/providers:stable"
        (Run.run (Resolution.exec noSerde) [resolutionOf "oci://ghcr.io/a/providers:stable" false] .empty)
      ∧ ∀ step ∈ Run.steps (Resolution.exec noSerde) [resolutionOf "oci://ghcr.io/a/providers:stable" false] .empty,
        Faithful noSerde "oci://ghcr.io/a/providers:stable" step.1 := by
  refine offline_serves_last noSerde "oci://ghcr.io/a/providers:stable" _ fun step hstep => ?_
  rw [List.mem_singleton.mp hstep]
  rintro reference digest bytes ⟨hasked, -, -⟩ -
  have hreference : reference = "oci://ghcr.io/a/providers:stable" := by
    refine Option.some.inj (hasked.symm.trans ?_)
    decide +kernel
  subst hreference
  refine ⟨by decide +kernel, by decide +kernel, fun _ => rfl, fun _ hrecorded => ?_⟩
  obtain ⟨refs, hrefs, hlookup⟩ := hrecorded
  cases hrefs
  cases hlookup

/-- A reference that was never resolved is served what was fetched for another one. -/
theorem other_reference_served : ¬ ∀ (serde : Serde) (r : String) (resolutions : List Resolution),
    Faithful serde r (Run.run (Resolution.exec serde) resolutions .empty) := by
  intro h
  obtain ⟨file, bytes, -, hlast, -⟩ := h noSerde "oci://ghcr.io/a-b" [resolutionOf "oci://ghcr.io/a/b" false]
    (resolutionOf "oci://ghcr.io/a-b" true) (.cached (.named "oci-ghcr-io-a-b")) rfl (by decide +kernel)
    (by decide +kernel) rfl (by decide +kernel)
  revert hlast
  have hnone : LastWins.last (Run.run (Resolution.exec noSerde) [resolutionOf "oci://ghcr.io/a/b" false] .empty).fetches
      "oci://ghcr.io/a-b" = none := by
    decide +kernel
  rw [hnone]
  exact nofun

end ProviderRegistry
