import GreenticOperator.Laws.StaticRoutes.Reserved
import GreenticOperator.Lib.Directory
import GreenticOperator.StaticRoutes.Serve

/-!
# Assets stay under the source root

Whatever a request asks of a route, what is tried to be read lies in the route's own pack, and its
path is the source root of the route followed by at least one plain name (`Contained`). The names of
the source root are plain because the descriptor was normalized, the names after it because the
asset's path is normalized again before it is read (`serveStaticAsset_contained`), whether the
request, the index file or the fallback names it.

On the disk this is a place below the pack's own (`resolve_of_contained`).
-/

namespace StaticRoutes

open Disk (Plain)

variable {store : PackStore} {descriptor : StaticRouteDescriptor}

/-! ## Normalized paths -/

theorem normalizeRelativeAssetPath_eq_some {path normalized : String}
    (h : normalizeRelativeAssetPath path = some normalized) :
    ∃ segments, segments ≠ [] ∧ (∀ segment ∈ segments, Plain segment)
      ∧ Text.split '/' normalized = segments := by
  unfold normalizeRelativeAssetPath at h
  dsimp only at h
  split at h
  · cases h
  next hcheck =>
    cases h
    rw [Bool.or_eq_true, Bool.or_eq_true, not_or, not_or] at hcheck
    obtain ⟨⟨-, hparent⟩, hempty⟩ := hcheck
    have hplain : ∀ segment ∈ (Text.split '/' path).filter fun segment => segment ≠ "" && segment ≠ ".",
        Plain segment := by
      intro segment hmem
      obtain ⟨hsplit, hne⟩ := List.mem_filter.mp hmem
      obtain ⟨piece, hpiece, rfl⟩ := List.mem_map.mp hsplit
      have hslash : '/' ∉ piece := Text.not_mem_of_mem_splitOn hpiece
      have hup : String.ofList piece ≠ ".." := by
        intro heq
        rw [heq] at hmem
        exact hparent (List.contains_iff_mem.mpr hmem)
      simp only [ne_eq, Bool.and_eq_true, decide_eq_true_eq] at hne
      exact (Disk.plain_iff _).mpr ⟨hne.1, hne.2, hup, by rwa [String.toList_ofList]⟩
    have hne : ((Text.split '/' path).filter fun segment => segment ≠ "" && segment ≠ ".") ≠ [] := by
      intro hnil
      exact hempty (List.isEmpty_iff.mpr hnil)
    exact ⟨_, hne, hplain, Text.split_joinWith hne fun segment hmem => (hplain segment hmem).no_slash⟩

/-- The source root of a descriptor that was normalized. -/
theorem sourceRoot_of_normalize {packId packPath : String} {idx : Nat} {route : StaticRouteRecord}
    (h : normalizeRouteDescriptor packId packPath idx route = .ok descriptor) :
    normalizeRelativeAssetPath route.sourceRoot = some descriptor.sourceRoot
      ∧ descriptor.packPath = packPath := by
  unfold normalizeRouteDescriptor at h
  simp only [Outcome.throw_eq] at h
  split at h
  · cases h
  · obtain ⟨_, -, h⟩ := Outcome.bind_eq_ok_iff.mp h
    split at h
    · cases h
    · split at h
      · cases h
      · cases hroot : normalizeRelativeAssetPath route.sourceRoot with
        | none =>
          rw [hroot] at h
          cases h
        | some sourceRoot =>
          rw [hroot] at h
          obtain ⟨_, hpure, h⟩ := Outcome.bind_eq_ok_iff.mp h
          cases hpure
          obtain ⟨_, -, h⟩ := Outcome.bind_eq_ok_iff.mp h
          obtain ⟨_, -, h⟩ := Outcome.bind_eq_ok_iff.mp h
          obtain ⟨_, -, h⟩ := Outcome.bind_eq_ok_iff.mp h
          cases h
          exact ⟨rfl, rfl⟩

/-! ## What is tried -/

/-- A path of an asset under the source root of a route. -/
structure Contained (descriptor : StaticRouteDescriptor) (assetPath : String) : Prop where
  below : ∃ names, names ≠ [] ∧ Text.split '/' assetPath = Text.split '/' descriptor.sourceRoot ++ names
  plain : ∀ name ∈ Text.split '/' assetPath, Plain name

/-- An access to an asset under the source root of a route, in the route's pack. -/
def Access.Within (descriptor : StaticRouteDescriptor) (access : Access) : Prop :=
  ∃ assetPath, Contained descriptor assetPath
    ∧ (access = .file (Disk.join descriptor.packPath assetPath) ∨ access = .entry descriptor.packPath assetPath)

theorem Contained.relative {assetPath : String} (h : Contained descriptor assetPath) :
    Text.startsWithChar '/' assetPath = false := by
  unfold Text.startsWithChar
  cases hlist : assetPath.toList with
  | nil => rfl
  | cons c rest =>
    by_cases hc : c = '/'
    · have hempty : "" ∈ Text.split '/' assetPath := by
        rw [Text.split, hlist, List.splitOn_cons_eq_if_modifyHead, if_pos (beq_iff_eq.mpr hc), List.map_cons]
        exact List.mem_cons_self
      exact absurd rfl (h.plain "" hempty).not_empty
    · simpa using hc

/-- On the disk the asset is below the source root in the pack. -/
theorem resolve_of_contained {assetPath : String} (h : Contained descriptor assetPath) :
    ∃ names, names ≠ [] ∧ Disk.resolve (Disk.join descriptor.packPath assetPath)
      = Disk.resolve descriptor.packPath ++ Text.split '/' descriptor.sourceRoot ++ names := by
  obtain ⟨names, hne, hsplit⟩ := h.below
  refine ⟨names, hne, ?_⟩
  rw [Disk.resolve_join_of_relative _ h.relative, Disk.foldl_enter_plain h.plain, hsplit, List.append_assoc]

theorem split_append_slash (a b : String) :
    Text.split '/' (a ++ "/" ++ b) = Text.split '/' a ++ Text.split '/' b := by
  rw [Text.split, String.toList_append, String.toList_append, List.append_assoc,
    show "/".toList = ['/'] from rfl, List.singleton_append, List.splitOn_append_cons_self, List.map_append]
  rfl

/-- Everything tried since is an asset under the source root. -/
def AddsWithin (descriptor : StaticRouteDescriptor) (before after : List Access) : Prop :=
  ∀ access ∈ after, access ∈ before ∨ access.Within descriptor

/-- A computation that tries to read nothing but assets under the source root. -/
abbrev StaysWithin {α : Type} (descriptor : StaticRouteDescriptor) (x : Eff (List Access) α) : Prop :=
  x.Moves (AddsWithin descriptor)

theorem AddsWithin.refl (tried : List Access) : AddsWithin descriptor tried tried := fun _ h => .inl h

theorem AddsWithin.trans {a b c : List Access} (hab : AddsWithin descriptor a b)
    (hbc : AddsWithin descriptor b c) : AddsWithin descriptor a c := by
  intro access hmem
  rcases hbc access hmem with h | h
  · exact hab access h
  · exact .inr h

section Serve

variable (hroot : ∀ name ∈ Text.split '/' descriptor.sourceRoot, Plain name)
include hroot

omit hroot in
theorem tryRead_staysWithin {access : Access} {found : Found} (h : access.Within descriptor) :
    StaysWithin descriptor (tryRead access found) := by
  intro tried other hother
  rcases List.mem_append.mp hother with hother | hother
  · exact .inl hother
  · rw [List.mem_singleton.mp hother]
    exact .inr h

omit hroot in
theorem readPackAssetBytes_staysWithin {assetPath : String} (h : Contained descriptor assetPath) :
    StaysWithin descriptor (readPackAssetBytes store descriptor.packPath assetPath) := by
  unfold readPackAssetBytes
  split
  · exact tryRead_staysWithin ⟨assetPath, h, .inl rfl⟩
  · exact tryRead_staysWithin ⟨assetPath, h, .inr rfl⟩

/-- The asset that a normalized path names is under the source root. -/
theorem contained_of_normalize {path assetPath : String} (h : normalizeRelativeAssetPath path = some assetPath) :
    Contained descriptor (descriptor.sourceRoot ++ "/" ++ assetPath) := by
  obtain ⟨names, hne, hplain, hsplit⟩ := normalizeRelativeAssetPath_eq_some h
  have hfull := split_append_slash descriptor.sourceRoot assetPath
  rw [hsplit] at hfull
  refine ⟨⟨names, hne, hfull⟩, fun name hname => ?_⟩
  rw [hfull] at hname
  rcases List.mem_append.mp hname with hname | hname
  · exact hroot name hname
  · exact hplain name hname

theorem serveStaticAsset_staysWithin (assetPath : String) :
    StaysWithin descriptor (serveStaticAsset store descriptor assetPath) := by
  unfold serveStaticAsset normalizeRelativeRequestPath
  cases hnormal : normalizeRelativeAssetPath assetPath with
  | none => exact Eff.Moves.pure AddsWithin.refl none
  | some normalized =>
    refine Eff.Moves.bind (R := AddsWithin descriptor) AddsWithin.trans
      (readPackAssetBytes_staysWithin (contained_of_normalize hroot hnormal)) fun found => ?_
    cases found with
    | none => exact Eff.Moves.pure AddsWithin.refl none
    | some body => exact Eff.Moves.pure AddsWithin.refl _

/-- **No candidate leads out** of the source root, whatever text it is. -/
theorem serveFirst_staysWithin (candidates : List String) :
    StaysWithin descriptor (serveFirst store descriptor candidates) := by
  induction candidates with
  | nil => exact Eff.Moves.pure AddsWithin.refl _
  | cons assetPath rest ih =>
    refine Eff.Moves.bind (R := AddsWithin descriptor) AddsWithin.trans
      (Eff.Moves.attempt (serveStaticAsset_staysWithin hroot assetPath)) fun result => ?_
    cases result with
    | error err => exact Eff.Moves.pure AddsWithin.refl _
    | ok found =>
      cases found with
      | none => exact ih
      | some asset => exact Eff.Moves.pure AddsWithin.refl _

end Serve

/-- **Assets are contained**: whatever is asked of a normalized route, everything that is tried to be
read is in the pack of the route, under its source root. -/
theorem serveStaticRoute_contained (store : PackStore) {packId packPath : String} {idx : Nat}
    {route : StaticRouteRecord} {descriptor : StaticRouteDescriptor}
    (h : normalizeRouteDescriptor packId packPath idx route = .ok descriptor) (assetPath : String)
    (requestIsDirectory : Bool) :
    descriptor.packPath = packPath
      ∧ ∀ access ∈ ((serveStaticRoute store ⟨descriptor, assetPath, requestIsDirectory⟩).run []).2,
        access.Within descriptor := by
  obtain ⟨hsource, hpack⟩ := sourceRoot_of_normalize h
  obtain ⟨_, -, hplain, hsplit⟩ := normalizeRelativeAssetPath_eq_some hsource
  refine ⟨hpack, fun access hmem => ?_⟩
  rcases serveFirst_staysWithin (hsplit ▸ hplain) _ [] access hmem with hnil | hwithin
  · exact absurd hnil List.not_mem_nil
  · exact hwithin

def webRoute : StaticRouteRecord where
  id := none
  publicPath := "/web"
  sourceRoot := "./assets//web"
  indexFile := some "index.html"
  spaFallback := some "index.html"
  tenant := false
  team := false
  cache := none

def webDescriptor : StaticRouteDescriptor where
  routeId := "web::0"
  packId := "web"
  packPath := "packs/web.gtpack"
  publicPath := "/web"
  sourceRoot := "assets/web"
  indexFile := some "index.html"
  spaFallback := some "index.html"
  tenantScoped := false
  teamScoped := false
  cacheStrategy := .None
  routeSegments := [.Literal "web"]
  scope := none

def noAssets : PackStore := ⟨fun _ => false, fun _ => .ok none, fun _ _ => .ok none⟩

/-- A request that goes up reads nothing but the fallback. -/
theorem serveStaticRoute_contained_up :
    webDescriptor.packPath = "packs/web.gtpack"
      ∧ ∀ access ∈ ((serveStaticRoute noAssets ⟨webDescriptor, "../secrets.yaml", false⟩).run []).2,
        access.Within webDescriptor := by
  have h : normalizeRouteDescriptor "web" "packs/web.gtpack" 0 webRoute = .ok webDescriptor := by rfl
  exact serveStaticRoute_contained noAssets h "../secrets.yaml" false

/-! ## Requests -/

theorem descriptor_of_matchRequest {plan : StaticRoutePlan} {requestPath : String} {found : StaticRouteMatch}
    (h : (ActiveRouteTable.fromPlan plan).matchRequest requestPath = some found) :
    found.descriptor ∈ plan.routes := by
  obtain ⟨route, hroute, hfound⟩ := List.exists_of_findSome?_eq_some h
  have hmem := (List.perm_insertionSort Precedes plan.routes).mem_iff.mp hroute
  split at hfound
  · cases hfound
  · split at hfound
    · cases hfound
    · cases hfound
      exact hmem

/-- What any request to a bundle's routes reads is an asset of one of its packs. -/
theorem serveRequest_contained (store : PackStore) (packs : List PackFile) (reserved : ReservedRouteSet)
    (requestPath : String) :
    ∀ access ∈ ((serveRequest store (.fromPlan (discoverFromBundle packs reserved)) requestPath).run []).2,
      ∃ descriptor ∈ (discoverFromBundle packs reserved).routes,
        access.Within descriptor ∧ ∃ pack ∈ packs, descriptor.packPath = pack.path := by
  intro access hmem
  unfold serveRequest at hmem
  cases hmatch : (ActiveRouteTable.fromPlan (discoverFromBundle packs reserved)).matchRequest requestPath with
  | none =>
    rw [hmatch] at hmem
    cases hmem
  | some found =>
    rw [hmatch] at hmem
    have hroute := descriptor_of_matchRequest hmatch
    obtain ⟨pack, hpack, packId, idx, record, hnormal⟩ := declared packs reserved _ hroute
    obtain ⟨hsource, hpath⟩ := sourceRoot_of_normalize hnormal
    obtain ⟨_, -, hplain, hsplit⟩ := normalizeRelativeAssetPath_eq_some hsource
    have hstays : StaysWithin found.descriptor
        (serveStaticRoute store found >>= fun response => pure (some response)) :=
      Eff.Moves.bind (R := AddsWithin found.descriptor) AddsWithin.trans (serveFirst_staysWithin (hsplit ▸ hplain) _) fun response =>
        Eff.Moves.pure AddsWithin.refl _
    rcases hstays [] access hmem with hnil | hwithin
    · exact absurd hnil List.not_mem_nil
    · exact ⟨_, hroute, hwithin, pack, hpack, hpath⟩

end StaticRoutes
