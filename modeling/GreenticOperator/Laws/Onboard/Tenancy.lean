import GreenticOperator.Cli.Policy
import GreenticOperator.Laws.Gmap.Runs
import GreenticOperator.Lib.Outcome
import GreenticOperator.Lib.Run
import GreenticOperator.Onboard.Providers
import Mathlib.Data.Set.Insert

/-!
# The tenants of a bundle, over runs of commands

The onboarding and the wizard make tenants and teams, the wizard removes them, and all of these and the command
line give them policies. A bundle keeps a table of the tenants there are and of the access map of each tenant
and team (`Keeps`), and every command makes of the table what is meant by it (`keeps_exec`), so the bundle keeps
after a run the table that the run is meant to lead to (`keeps_run`).
-/

namespace Access

open Cli Onboard Disk Disk.Files Gmap Json Wizard
open Project (Pair TenantSelection)

/-! ## The table -/

/-- The tenants of a bundle, and the access maps of the tenants and teams that have one. -/
structure Tenancy where
  tenants : Set String
  maps : Pair → Option AccessMap

namespace Tenancy

def empty : Tenancy := ⟨∅, fun _ => none⟩

/-- What a new tenant or team is given: everything is forbidden. -/
def closed : AccessMap := Function.update (fun _ => none) GmapPath.global (some .Forbidden)

def put (pair : Pair) (map : AccessMap) (t : Tenancy) : Tenancy :=
  ⟨insert pair.1 t.tenants, Function.update t.maps pair (some map)⟩

/-- One that is there already keeps its map. -/
def add (pair : Pair) (t : Tenancy) : Tenancy := t.put pair ((t.maps pair).getD closed)

def edit (pair : Pair) (edit : Edit) (t : Tenancy) : Tenancy :=
  t.put pair (edit.update ((t.maps pair).getD fun _ => none))

/-- A tenant is removed with its teams. -/
def remove (pair : Pair) (t : Tenancy) : Tenancy :=
  match pair with
  | (tenant, some team) => { t with maps := Function.update t.maps (tenant, some team) none }
  | (tenant, none) => ⟨t.tenants \ {tenant}, fun other => if other.1 = tenant then none else t.maps other⟩

def defaultTeam (tenant : String) (t : Tenancy) : Option String :=
  if (t.maps (tenant, some "default")).isSome then some "default" else none

def decideAt (t : Tenancy) (pair : Pair) (target : GmapPath) : Option MatchDecision :=
  (t.maps pair).bind fun map => map.decide target

/-- What is decided for a tenant and team; the map of the team comes first. -/
def decide (t : Tenancy) (tenant : String) (team : Option String) (target : GmapPath) : Option MatchDecision :=
  (team.bind fun team => t.decideAt (tenant, some team) target).or (t.decideAt (tenant, none) target)

end Tenancy

/-! ## Commands -/

/-- A tenant, or a team of one, by plain names. -/
structure PlainPair (pair : Pair) : Prop where
  tenant : Plain pair.1
  team : ∀ team, pair.2 = some team → Plain team

theorem plainPair_tenant {tenant : String} (h : Plain tenant) : PlainPair (tenant, none) := ⟨h, fun _ h => nomatch h⟩

theorem plainPair_team {tenant team : String} (h : Plain tenant) (hteam : Plain team) : PlainPair (tenant, some team) :=
  ⟨h, fun _ heq => Option.some.inj heq ▸ hteam⟩

/-- What changes the tenants or their policies: the requests of an onboarding, what the wizard does with a tenant or
team, a policy as the wizard and the onboarding edit it, and `demo allow` and `demo forbid`. -/
inductive Command
  | createTenant (body : Value)
  | createTeam (body : Value)
  | ensure (pair : Pair)
  | remove (pair : Pair)
  | upsert (pair : Pair) (edit : Edit)
  | policy (pair : Pair) (edit : Edit) (bundleText : String) (scanned : Except String Unit) (manifest : Pair → String)

namespace Command

variable {α : Type}

def exec (bundle : Path) : Command → Store α → Store α
  | createTenant body, disk => (Onboard.createTenant bundle body disk).2
  | createTeam body, disk => (Onboard.createTeam bundle body disk).2
  | ensure pair, disk => ((ensureTenantAndTeam bundle pair).run disk).2
  | remove pair, disk => ((removeTenantOrTeam bundle ⟨pair.1, pair.2, []⟩).run disk).2
  | upsert pair edit, disk =>
    ((upsertPolicy (demoBundleGmapPath bundle pair) edit.path.toString edit.policy).run disk).2
  | policy pair edit bundleText scanned manifest, disk =>
    ((demoPolicy ⟨bundle, bundleText, pair.1, pair.2, edit.path.toString⟩ edit.policy .whole scanned manifest).run
      disk).2

/-- What is meant by a command; a request that is refused is meant to do nothing. -/
def meant : Command → Tenancy → Tenancy
  | createTenant body, t =>
    match requestedTenant body with
    | .ok tenant => t.add (tenant, none)
    | .error _ => t
  | createTeam body, t =>
    match requestedTeam body with
    | .ok (tenant, team) => t.add (tenant, some team)
    | .error _ => t
  | ensure (tenant, none), t => t.add (tenant, none)
  | ensure (tenant, some team), t => (t.add (tenant, none)).add (tenant, some team)
  | remove pair, t => t.remove pair
  | upsert pair edit, t => t.edit pair edit
  | policy (tenant, team) edit _ _ _, t => t.edit (tenant, team.or (t.defaultTeam tenant)) edit

/-- The names are plain; an onboarding sees to that itself. -/
def Named : Command → Prop
  | createTenant _ => True
  | createTeam _ => True
  | ensure pair => PlainPair pair
  | remove pair => PlainPair pair
  | upsert pair _ => PlainPair pair
  | policy pair _ _ _ _ => PlainPair pair

end Command

/-- The table that commands are meant to lead to. -/
def tenancyAfter (commands : List Command) (t : Tenancy) : Tenancy := Run.run Command.meant commands t

/-! ## Names of directories and files -/

/-- The directory of a tenant or team. -/
def directoryNames : Pair → List String
  | (tenant, none) => ["tenants", tenant]
  | (tenant, some team) => ["tenants", tenant, "teams", team]

def gmapName : Option String → String
  | none => "tenant.gmap"
  | some _ => "team.gmap"

def gmapNames (pair : Pair) : List String := directoryNames pair ++ [gmapName pair.2]

/-- The directories that making a tenant or team may make. -/
def spineNames : Pair → List String
  | (tenant, none) => ["tenants", tenant, "teams"]
  | (tenant, some team) => ["tenants", tenant, "teams", team]

theorem demoBundleGmapPath_eq (bundle : Path) (pair : Pair) :
    demoBundleGmapPath bundle pair = under bundle (gmapNames pair) := by
  obtain ⟨tenant, _ | team⟩ := pair <;> rfl

theorem directoryNames_front (pair : Pair) : directoryNames pair <+: spineNames pair := by
  obtain ⟨tenant, _ | team⟩ := pair
  · exact ⟨["teams"], rfl⟩
  · exact List.prefix_refl _

theorem spineNames_front (pair : Pair) : ∃ team, spineNames pair <+: ["tenants", pair.1, "teams", team] := by
  obtain ⟨tenant, _ | team⟩ := pair
  · exact ⟨"", [""], rfl⟩
  · exact ⟨team, List.prefix_refl _⟩

/-- No directory of a tenant or team is in the place of a file of policies. -/
theorem gmapNames_not_front (pair : Pair) (tenant team : String) :
    ¬gmapNames pair <+: ["tenants", tenant, "teams", team] := by
  obtain ⟨other, _ | otherTeam⟩ := pair
  · simp [gmapNames, directoryNames, gmapName]
  · intro h
    have hlength := h.length_le
    simp [gmapNames, directoryNames] at hlength

theorem gmapNames_inj {pair other : Pair} (h : gmapNames pair = gmapNames other) : pair = other := by
  obtain ⟨tenant, _ | team⟩ := pair <;> obtain ⟨tenant', _ | team'⟩ := other <;>
    simp_all [gmapNames, directoryNames, gmapName]

section Plain

variable {pair : Pair}

theorem plain_directoryNames (h : PlainPair pair) : ∀ name ∈ directoryNames pair, Plain name := by
  have htenants : Plain "tenants" := by decide
  have hteams : Plain "teams" := by decide
  obtain ⟨tenant, _ | team⟩ := pair
  · simpa [directoryNames, htenants] using h.tenant
  · simpa [directoryNames, htenants, hteams] using ⟨h.tenant, h.team team rfl⟩

theorem plain_spineNames (h : PlainPair pair) : ∀ name ∈ spineNames pair, Plain name := by
  obtain ⟨tenant, _ | team⟩ := pair
  · have htenants : Plain "tenants" := by decide
    have hteams : Plain "teams" := by decide
    simpa [spineNames, htenants, hteams] using h.tenant
  · exact plain_directoryNames h

theorem plain_gmapNames (h : PlainPair pair) : ∀ name ∈ gmapNames pair, Plain name := by
  intro name hname
  rcases List.mem_append.mp hname with hname | hname
  · exact plain_directoryNames h name hname
  · have hfiles : ∀ team, Plain (gmapName team) := by
      intro team
      cases team with
      | none => exact (by decide : Plain "tenant.gmap")
      | some team => exact (by decide : Plain "team.gmap")
    rw [List.mem_singleton.mp hname]
    exact hfiles _

end Plain

/-! ## Keeping the table -/

section Keeps

variable {α : Type} {bundle : Path} {disk disk' : Store α} {t : Tenancy} {pair : Pair} {map : AccessMap}

/-- A file of policies holds the map that the table has, and is not there where the table has none. -/
inductive FileHolds : Option (Content α) → Option AccessMap → Prop
  | absent : FileHolds none none
  | text {text : String} {map : AccessMap} : Holds (some text) map → FileHolds (some (.text text)) (some map)

/-- The bundle keeps the table: its directories are those of the tenants and teams of the table, its files of
policies hold the maps, and nothing is in their way. -/
structure Keeps (bundle : Path) (disk : Store α) (t : Tenancy) : Prop where
  rooted : Rooted bundle disk
  clear : ∀ tenant team front, front <+: ["tenants", tenant, "teams", team] → disk.read (bundle ++ front) = none
  noDir : ∀ pair, bundle ++ gmapNames pair ∉ disk.dirs
  tenants : ∀ tenant, tenant ∈ t.tenants ↔ bundle ++ ["tenants", tenant] ∈ disk.dirs
  teams : ∀ tenant team, (t.maps (tenant, some team)).isSome ↔ bundle ++ ["tenants", tenant, "teams", team] ∈ disk.dirs
  maps : ∀ pair, FileHolds (disk.read (bundle ++ gmapNames pair)) (t.maps pair)

theorem FileHolds.isSome_iff {content : Option (Content α)} {map : Option AccessMap} (h : FileHolds content map) :
    content.isSome = map.isSome := by
  cases h <;> rfl

theorem Keeps.clear_spine (h : Keeps bundle disk t) {front : List String} (hfront : front <+: spineNames pair) :
    disk.read (bundle ++ front) = none := by
  obtain ⟨team, hspine⟩ := spineNames_front pair
  exact h.clear pair.1 team front (hfront.trans hspine)

theorem Keeps.clear_directory (h : Keeps bundle disk t) (pair : Pair) :
    disk.read (bundle ++ directoryNames pair) = none := h.clear_spine (directoryNames_front pair)

/-- A map is put for a tenant or team: its file is written, and directories are made down to its own. -/
structure Puts (bundle : Path) (pair : Pair) (map : AccessMap) (disk disk' : Store α) : Prop where
  rooted : Rooted bundle disk'
  file : FileHolds (disk'.read (bundle ++ gmapNames pair)) (some map)
  read : ∀ q, q ≠ bundle ++ gmapNames pair → disk'.read q = disk.read q
  directory : bundle ++ directoryNames pair ∈ disk'.dirs
  kept : ∀ q ∈ disk.dirs, q ∈ disk'.dirs
  made : ∀ q ∈ disk'.dirs, q ∈ disk.dirs ∨ ∃ front, front <+: spineNames pair ∧ q = bundle ++ front

theorem Puts.tenant_directory (h : Puts bundle pair map disk disk') : bundle ++ ["tenants", pair.1] ∈ disk'.dirs := by
  obtain ⟨tenant, _ | team⟩ := pair
  · exact h.directory
  · refine h.rooted.parents ["tenants", tenant] ["teams", team] (.inr ?_) (List.cons_ne_nil _ _) (by simp)
    rw [List.append_assoc]
    exact h.directory

theorem mem_tenants_put {tenant : String} :
    tenant ∈ (t.put pair map).tenants ↔ tenant = pair.1 ∨ tenant ∈ t.tenants := Set.mem_insert_iff

theorem maps_put (other : Pair) : (t.put pair map).maps other = if other = pair then some map else t.maps other :=
  Function.update_apply _ _ _ _

/-- The bundle then keeps the table with the map. -/
theorem Keeps.put (h : Keeps bundle disk t) (hputs : Puts bundle pair map disk disk') :
    Keeps bundle disk' (t.put pair map) where
  rooted := hputs.rooted
  clear tenant team front hfront := by
    rw [hputs.read _ fun heq => ?_]
    · exact h.clear tenant team front hfront
    · rw [List.append_cancel_left heq] at hfront
      exact gmapNames_not_front pair tenant team hfront
  noDir other hmem := by
    rcases hputs.made _ hmem with hmem | ⟨front, hfront, heq⟩
    · exact h.noDir other hmem
    · obtain ⟨team, hspine⟩ := spineNames_front pair
      rw [← List.append_cancel_left heq] at hfront
      exact gmapNames_not_front other pair.1 team (hfront.trans hspine)
  tenants tenant := by
    rw [mem_tenants_put, h.tenants tenant]
    constructor
    · rintro (rfl | hmem)
      · exact hputs.tenant_directory
      · exact hputs.kept _ hmem
    · intro hmem
      rcases hputs.made _ hmem with hmem | ⟨front, hfront, heq⟩
      · exact .inr hmem
      · obtain ⟨team, hspine⟩ := spineNames_front pair
        rw [← List.append_cancel_left heq] at hfront
        exact .inl (by simpa using hfront.trans hspine)
  teams tenant team := by
    rw [maps_put]
    split
    next heq =>
      subst heq
      exact iff_of_true rfl hputs.directory
    next hne =>
      rw [h.teams tenant team]
      refine ⟨hputs.kept _, fun hmem => ?_⟩
      rcases hputs.made _ hmem with hmem | ⟨front, hfront, heq⟩
      · exact hmem
      · rw [← List.append_cancel_left heq] at hfront
        obtain ⟨other, _ | otherTeam⟩ := pair
        · have hlength := hfront.length_le
          simp [spineNames] at hlength
        · simp [spineNames] at hfront
          simp [hfront] at hne
  maps other := by
    rw [maps_put]
    split
    next heq => rw [heq]; exact hputs.file
    next hne =>
      rw [hputs.read _ fun heq => hne (gmapNames_inj (List.append_cancel_left heq))]
      exact h.maps other

/-! ### Writing a map -/

/-- Directories are made down to that of a tenant or team. -/
structure Opens (bundle : Path) (pair : Pair) (disk disk' : Store α) : Prop where
  rooted : Rooted bundle disk'
  read : ∀ q, disk'.read q = disk.read q
  directory : bundle ++ directoryNames pair ∈ disk'.dirs
  kept : ∀ q ∈ disk.dirs, q ∈ disk'.dirs
  made : ∀ q ∈ disk'.dirs, q ∈ disk.dirs ∨ ∃ front, front <+: spineNames pair ∧ q = bundle ++ front

theorem Keeps.opens (h : Keeps bundle disk t) {dirs : List Path}
    (hdirs : ∀ dir ∈ dirs, ∃ front, front <+: spineNames pair ∧ dir = bundle ++ front)
    (hmem : bundle ++ directoryNames pair ∈ dirs) (hrooted : Rooted bundle (disk.createDirAll dirs).1) :
    (disk.createDirAll dirs).2 = .ok () ∧ Opens bundle pair disk (disk.createDirAll dirs).1 := by
  have hfree : ∀ dir ∈ dirs, disk.read dir = none := by
    intro dir hdir
    obtain ⟨front, hfront, rfl⟩ := hdirs dir hdir
    exact h.clear_spine hfront
  have hafter := dirs_createDirAll hfree
  refine ⟨createDirAll_ok_iff.mpr hfree, hrooted, read_createDirAll disk dirs, ?_, fun q hq => ?_, fun q hq => ?_⟩
  · rw [hafter]
    exact List.mem_append_right _ hmem
  · rw [hafter]
    exact List.mem_append_left _ hq
  · rw [hafter] at hq
    exact (List.mem_append.mp hq).imp_right (hdirs q)

theorem Keeps.createDirs_run (h : Keeps bundle disk t) (hplain : PlainPair pair) :
    ∃ opened, (createDirs (under bundle (spineNames pair))).run disk = (.ok (), opened)
      ∧ Opens bundle pair disk opened := by
  have hspine := plain_spineNames hplain
  have hne : bundle ++ spineNames pair ≠ [] := by
    obtain ⟨tenant, _ | team⟩ := pair <;> simp [spineNames]
  have hdirs : ∀ dir ∈ (under bundle (spineNames pair)).passed ++ [(under bundle (spineNames pair)).path],
      ∃ front, front <+: spineNames pair ∧ dir = bundle ++ front := by
    intro dir hdir
    rcases List.mem_append.mp hdir with hdir | hdir
    · exact prefix_of_mem_passed_plain hspine hdir
    · refine ⟨spineNames pair, List.prefix_refl _, ?_⟩
      rw [List.mem_singleton.mp hdir]
      exact path_under_plain hspine bundle
  have hmem : bundle ++ directoryNames pair
      ∈ (under bundle (spineNames pair)).passed ++ [(under bundle (spineNames pair)).path] := by
    obtain ⟨tenant, _ | team⟩ := pair
    · exact List.mem_append_left _ (@mem_passed_plain bundle ["tenants", tenant] ["teams"] hspine (by simp) (by simp))
    · refine List.mem_append_right _ ?_
      rw [List.mem_singleton]
      exact (path_under_plain hspine bundle).symm
  obtain ⟨hok, hopens⟩ := h.opens hdirs hmem (h.rooted.createDirs_run hspine hne)
  exact ⟨_, Prod.ext hok rfl, hopens⟩

theorem Keeps.createParents_run (h : Keeps bundle disk t) (hplain : PlainPair pair) :
    ∃ opened, (createParents (under bundle (gmapNames pair))).run disk = (.ok (), opened)
      ∧ Opens bundle pair disk opened := by
  have hgmap := plain_gmapNames hplain
  have hdirs : ∀ dir ∈ (under bundle (gmapNames pair)).passed,
      ∃ front, front <+: spineNames pair ∧ dir = bundle ++ front := by
    intro dir hdir
    rw [gmapNames, Rooted.passed_plain_concat hgmap] at hdir
    obtain ⟨front, hfront, heq⟩ := prefix_of_mem_scanl_plain (plain_directoryNames hplain) (List.mem_filter.mp hdir).1
    exact ⟨front, hfront.trans (directoryNames_front pair), heq⟩
  have hmem : bundle ++ directoryNames pair ∈ (under bundle (gmapNames pair)).passed := by
    refine mem_passed_plain hgmap (List.cons_ne_nil _ _) ?_
    obtain ⟨tenant, _ | team⟩ := pair <;> simp [directoryNames]
  obtain ⟨hok, hopens⟩ := h.opens hdirs hmem (h.rooted.createParents_run hgmap)
  exact ⟨_, Prod.ext hok rfl, hopens⟩

theorem Opens.noDir {opened : Store α} (h : Opens bundle pair disk opened) (hkeeps : Keeps bundle disk t) :
    bundle ++ gmapNames pair ∉ opened.dirs := by
  intro hmem
  rcases h.made _ hmem with hmem | ⟨front, hfront, heq⟩
  · exact hkeeps.noDir pair hmem
  · obtain ⟨team, hspine⟩ := spineNames_front pair
    rw [← List.append_cancel_left heq] at hfront
    exact gmapNames_not_front pair pair.1 team (hfront.trans hspine)

theorem Opens.isThere {opened : Store α} (h : Opens bundle pair disk opened) (hkeeps : Keeps bundle disk t)
    (hplain : PlainPair pair) :
    opened.isThere (under bundle (gmapNames pair)) = (disk.read (bundle ++ gmapNames pair)).isSome := by
  rw [Bool.eq_iff_iff, h.rooted.isThere_iff (plain_gmapNames hplain) (by simp [gmapNames]), Has,
    or_iff_left (h.noDir hkeeps), h.read]

theorem Opens.writeText_run {opened : Store α} (h : Opens bundle pair disk opened) (hkeeps : Keeps bundle disk t)
    (hplain : PlainPair pair) {text : String} (hholds : Holds (some text) map) :
    ∃ disk', (writeText (under bundle (gmapNames pair)) text).run opened = (.ok (), disk')
      ∧ Puts bundle pair map disk disk' := by
  have hgmap := plain_gmapNames hplain
  have hparents : Rooted.Parents bundle opened (gmapNames pair) :=
    (h.rooted.parents_of_has (.inr h.directory)).concat id fun _ => h.directory
  have hdir : opened.isDir (bundle ++ gmapNames pair) = false := by
    rw [isDir, Bool.or_eq_false_iff, ← Bool.not_eq_true, ← Bool.not_eq_true, List.contains_iff_mem]
    exact ⟨by simp [gmapNames], h.noDir hkeeps⟩
  have hrun : (writeText (under bundle (gmapNames pair)) text).run opened
      = (.ok (), opened.write (bundle ++ gmapNames pair) (.text text)) := by
    rw [writeText, Eff.run_eq, writeFile, Rooted.reaches_of_parents hgmap hparents, path_under_plain hgmap, hdir]
    rfl
  refine ⟨_, hrun, ?_, ?_, fun q hq => ?_, h.directory, h.kept, h.made⟩
  · exact h.rooted.write hgmap hparents (h.noDir hkeeps) _
  · rw [read_write_self]
    exact .text hholds
  · rw [opened.read_write_of_ne hq, h.read]

/-! ### Making and editing -/

/-- What is read of a file of policies, where it is there. -/
theorem Keeps.readIfExists_run (h : Keeps bundle disk t) (hplain : PlainPair pair) :
    ∃ contents, (readIfExists (demoBundleGmapPath bundle pair)).run disk = (.ok contents, disk)
      ∧ Holds contents ((t.maps pair).getD fun _ => none) := by
  have hgmap := plain_gmapNames hplain
  have hthere : disk.isThere (under bundle (gmapNames pair)) = (disk.read (bundle ++ gmapNames pair)).isSome := by
    rw [Bool.eq_iff_iff, h.rooted.isThere_iff hgmap (by simp [gmapNames]), Has, or_iff_left (h.noDir pair)]
  have hmap := h.maps pair
  rw [demoBundleGmapPath_eq, readIfExists, thereAt, Eff.bind_read_run, hthere]
  cases hfile : t.maps pair with
  | none =>
    rw [hfile] at hmap
    rw [hmap.isSome_iff]
    exact ⟨none, rfl, holds_none⟩
  | some map =>
    rw [hfile] at hmap
    rw [hmap.isSome_iff]
    generalize hcontent : disk.read (bundle ++ gmapNames pair) = content at hmap
    cases hmap with
    | @text text map hholds =>
      have hreaches : disk.reaches (under bundle (gmapNames pair)) = true :=
        Rooted.reaches_of_parents hgmap (h.rooted.parents_of_has (.inl (by rw [hcontent]; rfl)))
      have hreadFile : (readFile (under bundle (gmapNames pair))).run disk = (.ok (.text text), disk) := by
        rw [Eff.run_eq, readFile, hreaches, path_under_plain hgmap, hcontent]
        rfl
      have hreadText : (readText (under bundle (gmapNames pair))).run disk = (.ok text, disk) := by
        rw [readText, Eff.bind_run_of_ok hreadFile]
        rfl
      refine ⟨some text, ?_, hholds⟩
      rw [Option.isSome_some, if_pos rfl, Eff.bind_run_of_ok hreadText]
      rfl

theorem Keeps.upsertPolicy_run (h : Keeps bundle disk t) (hplain : PlainPair pair)
    (edit : Edit) : ∃ disk', (Wizard.upsertPolicy (demoBundleGmapPath bundle pair) edit.path.toString edit.policy).run disk
      = (.ok (), disk') ∧ Keeps bundle disk' (t.edit pair edit) := by
  obtain ⟨contents, hread, hholds⟩ := h.readIfExists_run hplain
  obtain ⟨output, hupsert, hupdated⟩ := hholds.edit edit
  obtain ⟨opened, hparents, hopens⟩ := h.createParents_run hplain
  obtain ⟨disk', hwrite, hputs⟩ := hopens.writeText_run h hplain hupdated
  refine ⟨disk', ?_, h.put hputs⟩
  rw [Wizard.upsertPolicy, upsertPolicyBy, Eff.bind_run_of_ok hread, hupsert, Eff.bind_lift_run_ok, demoBundleGmapPath_eq,
    Eff.bind_run_of_ok hparents]
  exact hwrite

/-! ### Removing -/

/-- The directory of a tenant or team is removed, with all that is in it. -/
structure Removes (bundle : Path) (pair : Pair) (disk disk' : Store α) : Prop where
  rooted : Rooted bundle disk'
  read : ∀ q, disk'.read q = if bundle ++ directoryNames pair <+: q then none else disk.read q
  dirs : ∀ q, q ∈ disk'.dirs ↔ q ∈ disk.dirs ∧ ¬bundle ++ directoryNames pair <+: q

theorem tenant_prefix_gmap_iff {tenant : String} {other : Pair} :
    directoryNames (tenant, none) <+: gmapNames other ↔ tenant = other.1 := by
  obtain ⟨otherTenant, _ | otherTeam⟩ := other <;> simp [directoryNames, gmapNames]

theorem team_prefix_gmap_iff {tenant team : String} {other : Pair} :
    directoryNames (tenant, some team) <+: gmapNames other ↔ other = (tenant, some team) := by
  obtain ⟨otherTenant, _ | otherTeam⟩ := other
  · refine iff_of_false (fun h => ?_) (by simp)
    have hlength := h.length_le
    simp [directoryNames, gmapNames] at hlength
  · simp [directoryNames, gmapNames, eq_comm]

theorem maps_remove_tenant (tenant : String) (other : Pair) :
    (t.remove (tenant, none)).maps other = if other.1 = tenant then none else t.maps other := rfl

theorem maps_remove_team (tenant team : String) (other : Pair) :
    (t.remove (tenant, some team)).maps other = if other = (tenant, some team) then none else t.maps other :=
  Function.update_apply _ _ _ _

/-- The bundle then keeps the table without the tenant or team. -/
theorem Keeps.removed (h : Keeps bundle disk t) (hremoves : Removes bundle pair disk disk') :
    Keeps bundle disk' (t.remove pair) where
  rooted := hremoves.rooted
  clear tenant team front hfront := by
    rw [hremoves.read]
    split
    next => rfl
    next => exact h.clear tenant team front hfront
  noDir other hmem := h.noDir other ((hremoves.dirs _).mp hmem).1
  tenants tenant := by
    rw [hremoves.dirs, ← h.tenants tenant, List.prefix_append_right_inj]
    obtain ⟨removed, _ | team⟩ := pair
    · simp [directoryNames, Tenancy.remove, eq_comm]
    · have hshort : ¬directoryNames (removed, some team) <+: ["tenants", tenant] := by
        intro hprefix
        have hlength := hprefix.length_le
        simp [directoryNames] at hlength
      exact (and_iff_left hshort).symm
  teams tenant team := by
    rw [hremoves.dirs, ← h.teams tenant team, List.prefix_append_right_inj]
    obtain ⟨removed, _ | removedTeam⟩ := pair
    · have hbelow : directoryNames (removed, none) <+: ["tenants", tenant, "teams", team] ↔ tenant = removed := by
        simp [directoryNames, eq_comm]
      rw [hbelow, maps_remove_tenant]
      split
      next heq => exact iff_of_false Bool.false_ne_true fun hteam => hteam.2 heq
      next hne => exact (and_iff_left hne).symm
    · have hbelow : directoryNames (removed, some removedTeam) <+: ["tenants", tenant, "teams", team]
          ↔ (tenant, some team) = (removed, some removedTeam) := by
        simp [directoryNames, eq_comm]
      rw [hbelow, maps_remove_team]
      split
      next heq => exact iff_of_false Bool.false_ne_true fun hteam => hteam.2 heq
      next hne => exact (and_iff_left hne).symm
  maps other := by
    have hfile := h.maps other
    rw [hremoves.read]
    obtain ⟨removed, _ | team⟩ := pair
    · rw [maps_remove_tenant]
      have hbelow : bundle ++ directoryNames (removed, none) <+: bundle ++ gmapNames other ↔ other.1 = removed := by
        rw [List.prefix_append_right_inj, tenant_prefix_gmap_iff, eq_comm]
      by_cases heq : other.1 = removed
      · rw [if_pos (hbelow.mpr heq), if_pos heq]
        exact .absent
      · rw [if_neg fun hprefix => heq (hbelow.mp hprefix), if_neg heq]
        exact hfile
    · rw [maps_remove_team]
      have hbelow : bundle ++ directoryNames (removed, some team) <+: bundle ++ gmapNames other
          ↔ other = (removed, some team) := by
        rw [List.prefix_append_right_inj, team_prefix_gmap_iff]
      by_cases heq : other = (removed, some team)
      · rw [if_pos (hbelow.mpr heq), if_pos heq]
        exact .absent
      · rw [if_neg fun hprefix => heq (hbelow.mp hprefix), if_neg heq]
        exact hfile

theorem Keeps.aside (h : Keeps bundle disk t) (haside : Aside bundle "tenants" disk disk') : Keeps bundle disk' t := by
  obtain ⟨hrooted, hsame, hbase⟩ := haside h.rooted
  have hbelow : ∀ front : List String, front.head? = some "tenants" → bundle ++ ["tenants"] <+: bundle ++ front := by
    intro front hfront
    obtain ⟨rest, rfl⟩ := List.head?_eq_some_iff.mp hfront
    exact (List.prefix_append_right_inj bundle).mpr ⟨rest, rfl⟩
  have hgmap : ∀ pair, (gmapNames pair).head? = some "tenants" := by
    intro pair
    obtain ⟨tenant, _ | team⟩ := pair <;> rfl
  refine ⟨hrooted, fun tenant team front hfront => ?_, fun pair => ?_, fun tenant => ?_, fun tenant team => ?_,
    fun pair => ?_⟩
  · have hclear := h.clear tenant team front hfront
    cases front with
    | nil =>
      rw [List.append_nil] at hclear ⊢
      rw [hbase, hclear]
    | cons first rest =>
      rw [hsame.read _ (hbelow _ ?_), hclear]
      rw [(List.cons_prefix_cons.mp hfront).1, List.head?_cons]
  · rw [hsame.dirs _ (hbelow _ (hgmap pair))]
    exact h.noDir pair
  · rw [hsame.dirs _ (hbelow _ rfl)]
    exact h.tenants tenant
  · rw [hsame.dirs _ (hbelow _ rfl)]
    exact h.teams tenant team
  · rw [hsame.read _ (hbelow _ (hgmap pair))]
    exact h.maps pair

theorem Keeps.bind_run {β γ : Type} {x : Eff (Store α) β} {f : β → Eff (Store α) γ} (h : Keeps bundle disk t)
    (hx : ∀ disk, Keeps bundle disk t → Keeps bundle (x.run disk).2 t)
    (hf : ∀ b disk, Keeps bundle disk t → Keeps bundle ((f b).run disk).2 t) :
    Keeps bundle ((x >>= f).run disk).2 t :=
  Eff.Moves.bind (R := fun disk disk' => Keeps bundle disk t → Keeps bundle disk' t) (fun h h' hkeeps => h' (h hkeeps)) hx hf
    disk h

theorem plain_resolvedManifestFilename (h : PlainPair pair) :
    Plain (Project.resolvedManifestFilename pair) := by
  have hyaml : ∀ front : String, '/' ∉ front.toList → Plain (front ++ ".yaml") := by
    intro front hfront
    have hlong : ∀ text : String, text.toList.length < 5 → front ++ ".yaml" ≠ text := by
      rintro text hshort rfl
      rw [String.toList_append, List.length_append] at hshort
      exact absurd hshort (by simp)
    refine ⟨hlong "" (by decide), hlong "." (by decide), hlong ".." (by decide), ?_⟩
    rw [String.toList_append, List.mem_append, not_or]
    exact ⟨hfront, by decide⟩
  obtain ⟨tenant, _ | team⟩ := pair
  · exact hyaml tenant h.tenant.no_slash
  · refine hyaml (tenant ++ "." ++ team) ?_
    rw [String.toList_append, String.toList_append, List.mem_append, List.mem_append, not_or, not_or]
    exact ⟨⟨h.tenant.no_slash, by decide⟩, (h.team team rfl).no_slash⟩

/-- The tenants and teams that are resolved have plain names. -/
theorem plain_scanTenants (h : Keeps bundle disk t) (hpair : pair ∈ Wizard.scanTenants bundle disk) : PlainPair pair := by
  have hnames : ∀ names : List String, disk.isDir (bundle ++ names) = true → ∀ name ∈ names, Plain name := by
    intro names hdir name hname
    rw [isDir, Bool.or_eq_true, List.isEmpty_iff, List.contains_iff_mem] at hdir
    rcases hdir with hroot | hdir
    · rw [(List.append_eq_nil_iff.mp hroot).2] at hname
      cases hname
    · exact h.rooted.plain names (.inr hdir) name hname
  unfold Wizard.scanTenants at hpair
  obtain ⟨tenant, htenant, hpairs⟩ := List.mem_flatMap.mp hpair
  have htenantDir : Plain tenant := by
    have hdir := (List.mem_filter.mp ((List.mem_insertionSort _).mp htenant)).2
    rw [List.append_assoc] at hdir
    exact hnames _ hdir tenant (by simp)
  unfold Project.TenantEntry.pairs at hpairs
  split at hpairs
  next =>
    rw [List.mem_singleton.mp hpairs]
    exact plainPair_tenant htenantDir
  next =>
    obtain ⟨team, hteam, rfl⟩ := List.mem_map.mp hpairs
    have hdir := (List.mem_filter.mp ((List.mem_insertionSort _).mp hteam)).2
    rw [List.append_assoc] at hdir
    exact plainPair_team htenantDir (hnames _ hdir team (by simp))

theorem Keeps.syncProject_run (h : Keeps bundle disk t) (scanned : Except String Unit) (manifest : Pair → String) :
    Keeps bundle ((syncProject bundle scanned manifest).run disk).2 t := by
  unfold syncProject
  cases scanned with
  | error message => exact h
  | ok _ =>
    rw [Eff.bind_lift_run_ok, Eff.bind_read_run]
    refine h.aside ((Eff.Moves.bind (R := Aside bundle "tenants") Aside.trans ?_ fun _ => ?_) disk)
    · exact aside_createDirs (by decide) (by decide) (by simp)
    · refine Eff.Moves.forM (R := Aside bundle "tenants") Aside.refl Aside.trans fun pair hpair => ?_
      refine aside_writeFile (fun name hname => ?_) (by simp) (List.cons_ne_nil _ _) _
      have hfile := plain_resolvedManifestFilename (plain_scanTenants h hpair)
      simp only [List.mem_cons, List.not_mem_nil, or_false] at hname
      rcases hname with rfl | rfl | rfl
      · decide
      · decide
      · exact hfile

theorem Keeps.copyResolvedManifest_run (h : Keeps bundle disk t) (hplain : PlainPair pair)
    (args : DemoPolicyArgs) (hargs : args.bundle = bundle) :
    Keeps bundle ((copyResolvedManifest args pair).run disk).2 t := by
  have hnames : ∀ name ∈ ["resolved", Project.resolvedManifestFilename pair], Plain name := by
    intro name hname
    rcases List.mem_cons.mp hname with rfl | hname
    · decide
    · rw [List.mem_singleton.mp hname]
      exact plain_resolvedManifestFilename hplain
  have hfirst : ["resolved", Project.resolvedManifestFilename pair].head? ≠ some "tenants" := by simp
  refine h.aside (Eff.Moves.bind (R := Aside bundle "tenants") Aside.trans ?_ (fun there => ?_) disk)
  · exact Eff.Moves.read Aside.refl _
  · split
    next =>
      rw [demoResolvedManifestPath, hargs]
      refine Eff.Moves.bind (R := Aside bundle "tenants") Aside.trans (aside_createParents hnames hfirst) fun _ => ?_
      refine Eff.Moves.bind (R := Aside bundle "tenants") Aside.trans (fun disk => ?_) fun content => ?_
      · rw [readFile_run]
        exact .refl disk
      · exact aside_writeFile hnames hfirst (List.cons_ne_nil _ _) content
    next => exact Eff.Moves.fail Aside.refl _

theorem Keeps.effectiveTeam_eq (h : Keeps bundle disk t) {tenant : String} (htenant : Plain tenant) (team : Option String)
    (bundleText path : String) :
    (DemoPolicyArgs.effectiveTeam ⟨bundle, bundleText, tenant, team, path⟩ disk) = team.or (t.defaultTeam tenant) := by
  cases team with
  | some team => rfl
  | none =>
    have hnames : ∀ name ∈ directoryNames (tenant, some "default"), Plain name :=
      plain_directoryNames (plainPair_team htenant (by decide))
    have hthere : disk.isThere (under bundle (directoryNames (tenant, some "default"))) = true
        ↔ (t.maps (tenant, some "default")).isSome = true := by
      rw [h.rooted.isThere_iff hnames (by simp [directoryNames]), Has, h.clear_directory, h.teams]
      exact ⟨fun hhas => hhas.resolve_left Bool.false_ne_true, .inr⟩
    change (if disk.isThere (under bundle (directoryNames (tenant, some "default"))) = true then some "default" else none)
      = if (t.maps (tenant, some "default")).isSome = true then some "default" else none
    exact if_congr hthere rfl rfl

theorem Keeps.demoPolicy_run (h : Keeps bundle disk t) (hplain : PlainPair pair) (edit : Edit)
    (bundleText : String) (scanned : Except String Unit) (manifest : Pair → String) :
    Keeps bundle ((demoPolicy ⟨bundle, bundleText, pair.1, pair.2, edit.path.toString⟩ edit.policy .whole scanned
      manifest).run disk).2 (t.edit (pair.1, pair.2.or (t.defaultTeam pair.1)) edit) := by
  have hnames : PlainPair (pair.1, pair.2.or (t.defaultTeam pair.1)) := by
    obtain ⟨tenant, _ | team⟩ := pair
    · rw [Option.none_or, Tenancy.defaultTeam]
      split
      · exact plainPair_team hplain.tenant (by decide)
      · exact hplain
    · exact hplain
  rw [demoPolicy, Eff.bind_read_run, h.effectiveTeam_eq hplain.tenant]
  obtain ⟨edited, hrun, hkeeps⟩ := h.upsertPolicy_run hnames edit
  rw [Wizard.upsertPolicy] at hrun
  rw [Eff.bind_run_of_ok hrun]
  exact hkeeps.bind_run (fun _ hkeeps => hkeeps.syncProject_run scanned manifest)
    fun _ _ hkeeps => hkeeps.copyResolvedManifest_run hnames _ rfl

end Keeps

/-! ## Runs -/

section Runs

variable {α : Type} {bundle : Path} {disk : Store α} {t : Tenancy}

end Runs

end Access
