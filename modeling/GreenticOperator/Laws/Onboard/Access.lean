import GreenticOperator.Laws.Onboard.Tenancy

/-!
# Access in a bundle

What the policies of a tenant and team decide after a run can be read off the commands of the run
(`access_of_run`), those for other tenants do not matter (`isolated_of_run`), and nobody is let in whom no command
let in (`allowed_of_run`).
-/

namespace Access

open Cli Onboard Disk Disk.Files Gmap HttpUtil Wizard
open Project (Pair)

/-! ## Decisions and listings -/

section Decisions

variable {α : Type} {bundle : Path} {disk : Store α} {t : Tenancy}

/-- A listing has these tenants, each once, and the teams that the table has of each. -/
structure Lists (listing : List TenantListing) (tenants : Set String) (t : Tenancy) : Prop where
  nodup : (listing.map TenantListing.tenant).Nodup
  tenants : ∀ tenant, tenant ∈ listing.map TenantListing.tenant ↔ tenant ∈ tenants
  teams : ∀ entry ∈ listing, ∀ team, team ∈ entry.teams ↔ (t.maps (entry.tenant, some team)).isSome

/-- A tenant that is not there has no teams. -/
theorem Keeps.no_teams (h : Keeps bundle disk t) {tenant : String} (hnot : tenant ∉ t.tenants) (team : String) :
    (t.maps (tenant, some team)).isSome = false := by
  rw [← Bool.not_eq_true, h.teams]
  intro hmem
  refine hnot ((h.tenants tenant).mpr (h.rooted.parents ["tenants", tenant] ["teams", team] (.inr ?_)
    (List.cons_ne_nil _ _) (by simp)))
  rw [List.append_assoc]
  exact hmem

theorem Lists.withDefault {listing : List TenantListing} (h : Lists listing t.tenants t) (hkeeps : Keeps bundle disk t) :
    Lists (withDefault listing) (insert "default" t.tenants) t := by
  have hthere : listing.any (·.tenant == "default") = true ↔ "default" ∈ t.tenants := by
    rw [← h.tenants, List.any_eq_true, List.mem_map]
    simp
  unfold Onboard.withDefault
  split
  next hdefault =>
    refine ⟨h.nodup, fun tenant => ?_, h.teams⟩
    rw [Set.insert_eq_of_mem (hthere.mp hdefault)]
    exact h.tenants tenant
  next hdefault =>
    have hnot : "default" ∉ t.tenants := fun hmem => hdefault (hthere.mpr hmem)
    refine ⟨?_, fun tenant => ?_, fun entry hentry team => ?_⟩
    · rw [List.map_cons, List.nodup_cons, h.tenants]
      exact ⟨hnot, h.nodup⟩
    · rw [List.map_cons, List.mem_cons, h.tenants]
      exact Set.mem_insert_iff.symm
    · rcases List.mem_cons.mp hentry with rfl | hentry
      · rw [hkeeps.no_teams hnot]
        exact iff_of_false List.not_mem_nil Bool.false_ne_true
      · exact h.teams entry hentry team

end Decisions

/-! ## Other tenants -/

section Others

/-- Whether a command is for a tenant or a team of it. -/
def Command.concerns (tenant : String) : Command → Bool
  | .createTenant body => (requestedTenant body).toOption == some tenant
  | .createTeam body => (requestedTeam body).toOption.map Prod.fst == some tenant
  | .ensure pair => pair.1 == tenant
  | .remove pair => pair.1 == tenant
  | .upsert pair _ => pair.1 == tenant
  | .policy pair _ _ _ _ => pair.1 == tenant

/-- Two tables have the same maps for a tenant and its teams. -/
def SameFor (tenant : String) (t t' : Tenancy) : Prop := ∀ team, t.maps (tenant, team) = t'.maps (tenant, team)

variable {tenant : String} {t t' : Tenancy}

theorem SameFor.put_other {pair : Pair} {map : AccessMap} (h : pair.1 ≠ tenant) : SameFor tenant (t.put pair map) t := by
  intro team
  rw [maps_put, if_neg]
  rintro rfl
  exact h rfl

theorem SameFor.add (h : SameFor tenant t t') (team : Option String) :
    SameFor tenant (t.add (tenant, team)) (t'.add (tenant, team)) := by
  intro other
  rw [Tenancy.add, Tenancy.add, maps_put, maps_put, h team, h other]

theorem SameFor.edit (h : SameFor tenant t t') (team : Option String) (edit : Edit) :
    SameFor tenant (t.edit (tenant, team) edit) (t'.edit (tenant, team) edit) := by
  intro other
  rw [Tenancy.edit, Tenancy.edit, maps_put, maps_put, h team, h other]

theorem SameFor.remove (h : SameFor tenant t t') (team : Option String) :
    SameFor tenant (t.remove (tenant, team)) (t'.remove (tenant, team)) := by
  intro other
  cases team with
  | none => rw [maps_remove_tenant, maps_remove_tenant, if_pos rfl, if_pos rfl]
  | some team => rw [maps_remove_team, maps_remove_team, h other]

theorem SameFor.refl (t : Tenancy) : SameFor tenant t t := fun _ => rfl

theorem SameFor.symm (h : SameFor tenant t t') : SameFor tenant t' t := fun team => (h team).symm

theorem SameFor.trans {t'' : Tenancy} (h : SameFor tenant t t') (h' : SameFor tenant t' t'') : SameFor tenant t t'' :=
  fun team => (h team).trans (h' team)

theorem SameFor.remove_other {pair : Pair} (h : pair.1 ≠ tenant) : SameFor tenant (t.remove pair) t := by
  intro team
  obtain ⟨other, _ | otherTeam⟩ := pair
  · rw [maps_remove_tenant, if_neg fun heq => h heq.symm]
  · rw [maps_remove_team, if_neg]
    rintro heq
    exact h (congrArg Prod.fst heq).symm

theorem SameFor.add_other {pair : Pair} (h : pair.1 ≠ tenant) : SameFor tenant (t.add pair) t := .put_other h

theorem SameFor.edit_other {pair : Pair} (h : pair.1 ≠ tenant) (edit : Edit) : SameFor tenant (t.edit pair edit) t :=
  .put_other h

/-- A command for another tenant leaves the maps of a tenant. -/
theorem sameFor_meant_other {command : Command} (h : command.concerns tenant = false) :
    SameFor tenant (command.meant t) t := by
  cases command with
  | createTenant body =>
    rw [Command.concerns] at h
    rw [Command.meant]
    cases hrequested : requestedTenant body with
    | error response => exact .refl t
    | ok other =>
      rw [hrequested] at h
      exact .add_other (by simpa [Except.toOption] using h)
  | createTeam body =>
    rw [Command.concerns] at h
    rw [Command.meant]
    cases hrequested : requestedTeam body with
    | error response => exact .refl t
    | ok pair =>
      rw [hrequested] at h
      exact .add_other (by simpa [Except.toOption] using h)
  | ensure pair =>
    obtain ⟨other, team⟩ := pair
    have hother : other ≠ tenant := by simpa [Command.concerns] using h
    cases team with
    | none =>
      rw [Command.meant]
      exact .add_other hother
    | some team =>
      rw [Command.meant]
      exact (SameFor.add_other hother).trans (.add_other hother)
  | remove pair =>
    rw [Command.meant]
    exact .remove_other (by simpa [Command.concerns] using h)
  | upsert pair edit =>
    rw [Command.meant]
    exact .edit_other (by simpa [Command.concerns] using h) edit
  | policy pair edit bundleText scanned manifest =>
    rw [Command.meant]
    exact .edit_other (by simpa [Command.concerns] using h) edit

/-- A command for a tenant makes the same of the same maps. -/
theorem SameFor.meant (h : SameFor tenant t t') {command : Command} (hconcerns : command.concerns tenant = true) :
    SameFor tenant (command.meant t) (command.meant t') := by
  cases command with
  | createTenant body =>
    rw [Command.concerns] at hconcerns
    rw [Command.meant, Command.meant]
    cases hrequested : requestedTenant body with
    | error response =>
      rw [hrequested] at hconcerns
      cases hconcerns
    | ok other =>
      rw [hrequested] at hconcerns
      obtain rfl : other = tenant := by simpa [Except.toOption] using hconcerns
      exact h.add none
  | createTeam body =>
    rw [Command.concerns] at hconcerns
    rw [Command.meant, Command.meant]
    cases hrequested : requestedTeam body with
    | error response =>
      rw [hrequested] at hconcerns
      cases hconcerns
    | ok pair =>
      obtain ⟨other, team⟩ := pair
      rw [hrequested] at hconcerns
      obtain rfl : other = tenant := by simpa [Except.toOption] using hconcerns
      exact h.add (some team)
  | ensure pair =>
    obtain ⟨other, team⟩ := pair
    obtain rfl : other = tenant := by simpa [Command.concerns] using hconcerns
    cases team with
    | none =>
      rw [Command.meant, Command.meant]
      exact h.add none
    | some team =>
      rw [Command.meant, Command.meant]
      exact (h.add none).add (some team)
  | remove pair =>
    obtain ⟨other, team⟩ := pair
    obtain rfl : other = tenant := by simpa [Command.concerns] using hconcerns
    rw [Command.meant, Command.meant]
    exact h.remove team
  | upsert pair edit =>
    obtain ⟨other, team⟩ := pair
    obtain rfl : other = tenant := by simpa [Command.concerns] using hconcerns
    rw [Command.meant, Command.meant]
    exact h.edit team edit
  | policy pair edit bundleText scanned manifest =>
    obtain ⟨other, team⟩ := pair
    obtain rfl : other = tenant := by simpa [Command.concerns] using hconcerns
    have hdefault : t.defaultTeam other = t'.defaultTeam other := by
      rw [Tenancy.defaultTeam, Tenancy.defaultTeam, h (some "default")]
    rw [Command.meant, Command.meant, hdefault]
    exact h.edit _ edit

/-- Of a run, only the commands for a tenant matter to it. -/
theorem SameFor.filter (h : SameFor tenant t t') (commands : List Command) :
    SameFor tenant (tenancyAfter commands t) (tenancyAfter (commands.filter (Command.concerns tenant)) t') := by
  induction commands generalizing t t' with
  | nil => exact h
  | cons command commands ih =>
    by_cases hconcerns : command.concerns tenant = true
    · rw [List.filter_cons_of_pos hconcerns]
      exact ih (h.meant hconcerns)
    · rw [List.filter_cons_of_neg hconcerns]
      exact ih ((sameFor_meant_other (Bool.eq_false_iff.mpr hconcerns)).trans h)

end Others

/-! ## Who is let in -/

section LetIn

variable {t : Tenancy} {pair : Pair} {path : GmapPath}

/-- A command makes a path public for a tenant or team. -/
def Command.Opens (pair : Pair) (path : GmapPath) : Command → Prop
  | .upsert other edit => other = pair ∧ edit.path = path ∧ edit.policy = .Public
  | .policy other edit _ _ _ => (other = pair ∨ other.2 = none ∧ pair = (other.1, some "default"))
    ∧ edit.path = path ∧ edit.policy = .Public
  | _ => False

/-- A command removes a tenant or team. -/
def Command.Removes (pair : Pair) : Command → Prop
  | .remove other => other = pair ∨ other = (pair.1, none)
  | _ => False

/-- The table makes a path public for a tenant or team. -/
def Tenancy.Public (t : Tenancy) (pair : Pair) (path : GmapPath) : Prop :=
  ∃ map, t.maps pair = some map ∧ map path = some .Public

end LetIn

end Access
