import GreenticOperator.ProviderRegistry
import GreenticOperator.Wizard.PackId

/-!
# The wizard and the provider registry map references

Both put the base of a repository or a store before a target, unless the target names a registry. The
provider registry looks for a host in its first part; the wizard takes any target with a path and a
tag or a digest as it is, so such a target without a host is fetched from another registry
(`mapPackReference_eq_iff`).
-/

namespace Wizard

open ProviderRegistry (Registry looksLikeExplicitOciRef mapRemoteRegistryRef)

/-- A target with a path and a tag or a digest, and no host. -/
def LacksHost (target : String) : Prop :=
  (target.toList.contains '/' && (target.toList.contains '@' || target.toList.contains ':')) = true
    ∧ looksLikeExplicitOciRef target = false

instance (target : String) : Decidable (LacksHost target) := inferInstanceAs (Decidable (_ ∧ _))

/-- A base of nothing but slashes before a target that begins with exactly one. -/
def JoinsToItself (target : String) (base : Option String) : Prop :=
  base.map (Text.trimEndMatches '/') = some "" ∧ target.toList.head? = some '/' ∧ target.toList.tail.head? ≠ some '/'

/-- A target that both map alike. -/
def TargetAlike (target : String) (base : Option String) : Prop := LacksHost target → JoinsToItself target base

/-- A reference that both map alike: of a repository or a store by its target, else without a scheme. -/
def MapsAlike (repoBase storeBase : Option String) (reference : String) : Prop :=
  match Text.stripPrefix "oci://" (Text.trim reference) with
  | some _ => True
  | none =>
    match Text.stripPrefix "repo://" (Text.trim reference) with
    | some target => TargetAlike target repoBase
    | none =>
      match Text.stripPrefix "store://" (Text.trim reference) with
      | some target => TargetAlike target storeBase
      | none => Text.contains "://" (Text.trim reference) = false

theorem join_eq_self_iff {base target : String} :
    Text.trimEndMatches '/' base ++ "/" ++ Text.trimStartMatches '/' target = target
      ↔ JoinsToItself target (some base) := by
  have hparts := List.takeWhile_append_dropWhile (p := (· == '/')) (l := target.toList)
  have hjoin : Text.trimEndMatches '/' base ++ "/" ++ Text.trimStartMatches '/' target = target
      ↔ base.toList.rdropWhile (· == '/') ++ ['/'] = target.toList.takeWhile (· == '/') := by
    rw [← String.toList_inj, String.toList_append, String.toList_append, Text.trimEndMatches, Text.trimStartMatches,
      String.toList_ofList, String.toList_ofList, String.toList_ofList]
    constructor
    · intro h
      refine @List.append_cancel_right _ _ (target.toList.dropWhile (· == '/')) _ ?_
      rw [hparts]
      exact h
    · intro h
      rw [h, hparts]
  rw [hjoin]
  unfold JoinsToItself
  rw [Option.map_some, Option.some.injEq]
  constructor
  · intro h
    -- what is left of the base ends in no slash, and stands before slashes only
    have hbase : base.toList.rdropWhile (· == '/') = [] := by
      by_contra hne
      have hlast := List.rdropWhile_last_not (· == '/') base.toList hne
      refine hlast ?_
      refine List.mem_takeWhile_imp (p := (· == '/')) (l := target.toList) ?_
      rw [← h]
      exact List.mem_append_left _ (List.getLast_mem hne)
    rw [hbase, List.nil_append] at h
    rw [Text.trimEndMatches, hbase, ← hparts, ← h]
    refine ⟨rfl, rfl, ?_⟩
    intro hhead
    have hdrop : (target.toList.dropWhile (· == '/')).head? = some '/' := hhead
    have hnot := List.head?_dropWhile_not (· == '/') target.toList
    rw [hdrop] at hnot
    cases hnot
  · rintro ⟨hbase, hhead, htail⟩
    have hnil : base.toList.rdropWhile (· == '/') = [] := by
      rw [Text.trimEndMatches] at hbase
      have hlist := congrArg String.toList hbase
      rwa [String.toList_ofList] at hlist
    obtain ⟨rest, hrest⟩ := List.head?_eq_some_iff.mp hhead
    rw [hnil, hrest, List.takeWhile_cons]
    rw [hrest, List.tail_cons] at htail
    cases rest with
    | nil => rfl
    | cons c rest =>
      have hc : (c == '/') = false := beq_eq_false_iff_ne.mpr fun heq => htail (congrArg some heq)
      simp [hc]

/-- What the two do with a target. -/
theorem mapRegistryTarget_eq_iff {target : String} {base : Option String} :
    mapRegistryTarget target base = ProviderRegistry.mapRegistryTarget target base ↔ TargetAlike target base := by
  unfold mapRegistryTarget ProviderRegistry.mapRegistryTarget TargetAlike LacksHost
  by_cases hpath : (target.toList.contains '/' && (target.toList.contains '@' || target.toList.contains ':')) = true
  · rw [if_pos hpath]
    by_cases hhost : looksLikeExplicitOciRef target = true
    · rw [if_pos hhost]
      refine iff_of_true rfl fun hlacks => ?_
      rw [hhost] at hlacks
      cases hlacks.2
    · rw [if_neg hhost]
      have hlacks := Bool.eq_false_iff.mpr hhost
      cases base with
      | none =>
        refine iff_of_false nofun fun h => ?_
        cases (h ⟨hpath, hlacks⟩).1
      | some base =>
        rw [Option.map_some, Option.some.injEq, eq_comm, join_eq_self_iff]
        exact ⟨fun h _ => h, fun h => h ⟨hpath, hlacks⟩⟩
  · have hhost : looksLikeExplicitOciRef target = false := by
      unfold looksLikeExplicitOciRef
      rw [if_pos]
      rw [Bool.eq_false_iff.mpr hpath]
      rfl
    rw [if_neg hpath, hhost, if_neg (by decide)]
    exact iff_of_true rfl fun hlacks => absurd hlacks.1 hpath

theorem mapped_eq_iff {a b : Option String} {message : String} :
    (match a with | some mapped => .ok mapped | none => .error message : Except String String)
      = (match b with | some mapped => .ok mapped | none => .error message) ↔ a = b := by
  cases a with
  | none =>
    cases b with
    | none => exact iff_of_true rfl rfl
    | some _ => exact iff_of_false nofun nofun
  | some a =>
    cases b with
    | none => exact iff_of_false nofun nofun
    | some b => rw [Except.ok.injEq, Option.some.injEq]

/-- **The two mappings agree** exactly on references that map alike. -/
theorem mapPackReference_eq_iff (registry : Registry) (reference : String) :
    mapPackReference registry.repoBase registry.storeBase reference = mapRemoteRegistryRef registry reference
      ↔ MapsAlike registry.repoBase registry.storeBase reference := by
  unfold mapPackReference mapRemoteRegistryRef MapsAlike
  dsimp only
  cases Text.stripPrefix "oci://" (Text.trim reference) with
  | some rest => exact iff_of_true rfl trivial
  | none =>
    cases Text.stripPrefix "repo://" (Text.trim reference) with
    | some target => exact mapped_eq_iff.trans mapRegistryTarget_eq_iff
    | none =>
      cases Text.stripPrefix "store://" (Text.trim reference) with
      | some target => exact mapped_eq_iff.trans mapRegistryTarget_eq_iff
      | none =>
        dsimp only
        split
        next hscheme => exact iff_of_false nofun (by rw [hscheme]; nofun)
        next hscheme => exact iff_of_true rfl (Bool.eq_false_iff.mpr hscheme)

/-- A tagged pack of a repository is fetched from the base by the one, and not by the other. -/
theorem tagged_pack_mapped_apart :
    mapPackReference (some "ghcr.io/org") none "repo://providers/catalog@latest" = .ok "providers/catalog@latest"
      ∧ mapRemoteRegistryRef ⟨some "ghcr.io/org", none, fun _ => .error "", fun _ => .error ""⟩
          "repo://providers/catalog@latest" = .ok "ghcr.io/org/providers/catalog@latest" := by
  constructor <;> decide

end Wizard
