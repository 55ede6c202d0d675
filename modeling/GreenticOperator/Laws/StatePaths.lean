import GreenticOperator.Capabilities.Install
import GreenticOperator.HttpIngress.Route
import GreenticOperator.RuntimeState

/-!
# The state paths of tenants and teams

Every tenant and team an ingress route names have runtime directories named `tenant.team`, below the
state directory and beside it (`Places`). They share them with those whose names are joined to the
same text. Their capability files and install records are below directories of the tenant and the
team, and apart from those of all others, where no name is `.` or `..` (`places_apart`).
-/

namespace HttpIngress

open Disk RuntimeState StateLayout Capabilities

/-! ## The names in a route -/

/-- A name that is a segment of a path. -/
structure SegmentName (name : String) : Prop where
  not_empty : name ≠ ""
  no_slash : '/' ∉ name.toList

theorem segmentName_iff (name : String) : SegmentName name ↔ name ≠ "" ∧ '/' ∉ name.toList :=
  ⟨fun h => ⟨h.not_empty, h.no_slash⟩, fun ⟨h, hslash⟩ => ⟨h, hslash⟩⟩

instance (name : String) : Decidable (SegmentName name) := decidable_of_iff' _ (segmentName_iff name)

theorem segmentName_of_mem {path segment : String}
    (h : segment ∈ (Text.split '/' (Text.trimStartMatches '/' path)).filter fun segment => !segment.isEmpty) :
    SegmentName segment := by
  obtain ⟨hmem, hempty⟩ := List.mem_filter.mp h
  refine ⟨fun hsegment => ?_, no_slash_of_mem_split hmem⟩
  rw [hsegment] at hempty
  exact absurd hempty (by decide)

theorem segmentName_default : SegmentName "default" := by decide

/-- The names of a legacy route are segments, or the default. -/
theorem segmentNames_of_parseLegacyRoute {segments : List String} {route : ParsedIngressRoute}
    (hsegments : ∀ segment ∈ segments, SegmentName segment) (h : parseLegacyRoute segments = some route) :
    SegmentName route.tenant ∧ SegmentName route.team := by
  unfold parseLegacyRoute at h
  split at h
  next domain ingress provider tenant rest =>
    split at h
    next =>
      obtain ⟨_, -, rfl⟩ := Option.map_eq_some_iff.mp h
      refine ⟨hsegments tenant (by simp), ?_⟩
      cases rest with
      | nil => exact segmentName_default
      | cons team rest => exact hsegments team (by simp)
    next => cases h
  next => cases h

theorem segmentNames_of_parse {path : String} {route : ParsedIngressRoute}
    (h : parseRouteSegments path = some route) : SegmentName route.tenant ∧ SegmentName route.team := by
  have hall : ∀ segment ∈ (Text.split '/' (Text.trimStartMatches '/' path)).filter fun segment => !segment.isEmpty,
      SegmentName segment := fun _ => segmentName_of_mem
  unfold parseRouteSegments at h
  dsimp only at h
  generalize (Text.split '/' (Text.trimStartMatches '/' path)).filter _ = segments at h hall
  cases segments with
  | nil => cases h
  | cons first rest =>
    dsimp only at h
    split at h
    next =>
      rw [parseV1Route_cons] at h
      exact segmentNames_of_parseLegacyRoute (fun s hs => hall s (List.mem_cons_of_mem first hs)) h
    next => exact segmentNames_of_parseLegacyRoute hall h

/-- The path of a route that names a provider, a tenant and a team. -/
def routePath (provider tenant team : String) : String :=
  Text.joinWith '/' ["v1", "messaging", "ingress", provider, tenant, team]

theorem parse_routePath {provider tenant team : String} (hprovider : SegmentName provider)
    (htenant : SegmentName tenant) (hteam : SegmentName team) :
    parseRouteSegments (routePath provider tenant team) = some ⟨.Messaging, provider, tenant, team, none⟩ := by
  have hname : ∀ name, SegmentName name → (!name.isEmpty) = true := by
    intro name hname
    simpa using hname.not_empty
  have hall : ∀ name ∈ ["v1", "messaging", "ingress", provider, tenant, team], SegmentName name := by
    simp only [List.forall_mem_cons]
    exact ⟨by decide, by decide, by decide, hprovider, htenant, hteam, nofun⟩
  have hslash := Text.split_joinWith (List.cons_ne_nil _ _) fun name hmem => (hall name hmem).no_slash
  have htrim : Text.trimStartMatches '/' (Text.joinWith '/' ["v1", "messaging", "ingress", provider, tenant, team])
      = Text.joinWith '/' ["v1", "messaging", "ingress", provider, tenant, team] := by
    simp [Text.trimStartMatches, Text.joinWith, List.intercalate]
  unfold parseRouteSegments routePath
  dsimp only
  rw [htrim, hslash, List.filter_eq_self.mpr fun name hmem => hname name (hall name hmem)]
  rfl

/-- Any two names without a slash are the tenant and the team of a route. -/
theorem exists_route {tenant team : String} (htenant : SegmentName tenant) (hteam : SegmentName team) :
    ∃ path route, parseRouteSegments path = some route ∧ route.tenant = tenant ∧ route.team = team :=
  ⟨_, _, parse_routePath segmentName_default htenant hteam, rfl, rfl⟩

/-! ## The places of one route -/

def ParsedIngressRoute.runtimePaths (root : String) (route : ParsedIngressRoute) : RuntimePaths :=
  .new (join root "state") route.tenant route.team

/-- A tenant and a team whose names are directories of their own. -/
structure Named (route : ParsedIngressRoute) : Prop where
  tenant : route.tenant ≠ "." ∧ route.tenant ≠ ".."
  team : route.team ≠ "." ∧ route.team ≠ ".."

/-- A text that leads to places below its base. -/
structure Inside (text : String) : Prop where
  relative : Text.startsWithChar '/' text = false
  downward : Downward text

/-- The file name of an install record. -/
def recordName (stableId : String) : String := s!"{stableId}.install.json"

/-- **Where the files of a tenant and a team are.** -/
structure Places (root : String) (route : ParsedIngressRoute) : Prop where
  runtime : resolve (route.runtimePaths root).runtimeRoot
    = resolve root ++ ["state", "runtime", (route.runtimePaths root).key]
  pids : resolve (route.runtimePaths root).pidsDir
    = resolve root ++ ["state", "pids", (route.runtimePaths root).key]
  logs : resolve (route.runtimePaths root).logsDir = resolve root ++ ["logs", (route.runtimePaths root).key]
  capabilities : Named route → ∀ fileName, Inside fileName →
    resolve root ++ ["state", "capabilities", route.tenant, route.team]
      <+: resolve (capabilityStatePath root route.tenant (some route.team) fileName)
  records : Named route → ∀ stableId, Inside (recordName stableId) →
    resolve root ++ ["state", "runtime", route.tenant, route.team, "capabilities"]
      <+: resolve (installRecordPath root route.tenant (some route.team) stableId)

theorem plain_of_segmentName {name : String} (h : SegmentName name) (hdots : name ≠ "." ∧ name ≠ "..") :
    Plain name := ⟨h.not_empty, hdots.1, hdots.2, h.no_slash⟩

/-- A tenant and a team joined by a dot are longer than the names that lead elsewhere. -/
theorem plain_key {tenant team : String} (htenant : SegmentName tenant) (hteam : SegmentName team) :
    Plain (tenant ++ "." ++ team) := by
  have hlength : 3 ≤ (tenant ++ "." ++ team).toList.length := by
    have htenant' : tenant.toList ≠ [] := fun h => htenant.not_empty (String.toList_eq_nil_iff.mp h)
    have hteam' : team.toList ≠ [] := fun h => hteam.not_empty (String.toList_eq_nil_iff.mp h)
    have h1 := List.length_pos_iff.mpr htenant'
    have h2 := List.length_pos_iff.mpr hteam'
    simp only [String.toList_append, List.length_append, show ".".toList = ['.'] from rfl, List.length_singleton]
    omega
  have hne : ∀ name : String, name.toList.length < 3 → tenant ++ "." ++ team ≠ name := by
    intro name hshort heq
    rw [heq] at hlength
    omega
  refine ⟨hne "" (by decide), hne "." (by decide), hne ".." (by decide), ?_⟩
  simp only [String.toList_append, List.mem_append, not_or]
  exact ⟨⟨htenant.no_slash, by decide⟩, hteam.no_slash⟩

/-- The directories of the state, by their names. -/
def stateWords : List String := ["state", "runtime", "pids", "logs", "capabilities"]

theorem plain_stateWord : ∀ word ∈ stateWords, Plain word := by decide

theorem resolve_state (root : String) {words names : List String} (hwords : ∀ word ∈ words, word ∈ stateWords)
    (hnames : ∀ name ∈ names, Plain name) :
    resolve ((words ++ names).foldl join root) = resolve root ++ (words ++ names) := by
  refine resolve_joins root fun name hname => ?_
  rcases List.mem_append.mp hname with hname | hname
  · exact plain_stateWord name (hwords name hname)
  · exact hnames name hname

theorem runtimeRoot_eq (root : String) (route : ParsedIngressRoute) :
    (["state", "runtime"] ++ [(route.runtimePaths root).key]).foldl join root
      = (route.runtimePaths root).runtimeRoot := rfl

theorem pidsDir_eq (root : String) (route : ParsedIngressRoute) :
    (["state", "pids"] ++ [(route.runtimePaths root).key]).foldl join root = (route.runtimePaths root).pidsDir := rfl

theorem logsDir_eq {root up : String} {route : ParsedIngressRoute} (h : parent (join root "state") = some up) :
    (route.runtimePaths root).logsDir = (["logs"] ++ [(route.runtimePaths root).key]).foldl join up := by
  unfold ParsedIngressRoute.runtimePaths RuntimePaths.new RuntimePaths.logsDir
  rw [h]
  rfl

theorem capabilityStatePath_eq (root tenant team fileName : String) :
    capabilityStatePath root tenant (some team) fileName
      = join ((["state", "capabilities"] ++ [tenant, team]).foldl join root) fileName := rfl

theorem installRecordPath_eq (root tenant team stableId : String) :
    installRecordPath root tenant (some team) stableId
      = join (join ((["state", "runtime"] ++ [tenant, team]).foldl join root) "capabilities")
        (recordName stableId) := rfl

theorem prefix_resolve_join {base : String} {path : Path} (hbase : resolve base = path) {text : String}
    (h : Inside text) : path <+: resolve (join base text) := by
  obtain ⟨rest, hrest⟩ := exists_resolve_join base h.relative h.downward
  rw [hrest, hbase]
  exact List.prefix_append path rest

theorem places_of_parse (root : String) {path : String} {route : ParsedIngressRoute}
    (h : parseRouteSegments path = some route) : Places root route := by
  obtain ⟨htenant, hteam⟩ := segmentNames_of_parse h
  have hkey : ∀ name ∈ [(route.runtimePaths root).key], Plain name := by
    intro name hname
    rw [List.mem_singleton.mp hname]
    exact plain_key htenant hteam
  have hnames : Named route → ∀ name ∈ [route.tenant, route.team], Plain name := by
    intro hnamed
    simp only [List.forall_mem_cons]
    exact ⟨plain_of_segmentName htenant hnamed.tenant, plain_of_segmentName hteam hnamed.team, nofun⟩
  constructor
  case runtime =>
    have hwords : ∀ word ∈ ["state", "runtime"], word ∈ stateWords := by decide
    exact runtimeRoot_eq root route ▸ resolve_state root hwords hkey
  case pids =>
    have hwords : ∀ word ∈ ["state", "pids"], word ∈ stateWords := by decide
    exact pidsDir_eq root route ▸ resolve_state root hwords hkey
  case logs =>
    obtain ⟨up, hup, hresolve⟩ := exists_parent_join root (by decide : Plain "state")
    have hwords : ∀ word ∈ ["logs"], word ∈ stateWords := by decide
    rw [logsDir_eq hup, ← hresolve]
    exact resolve_state up hwords hkey
  case capabilities =>
    intro hnamed fileName hfile
    have hwords : ∀ word ∈ ["state", "capabilities"], word ∈ stateWords := by decide
    rw [capabilityStatePath_eq]
    exact prefix_resolve_join (resolve_state root hwords (hnames hnamed)) hfile
  case records =>
    intro hnamed stableId hfile
    have hwords : ∀ word ∈ ["state", "runtime"], word ∈ stateWords := by decide
    have hdir := resolve_join ((["state", "runtime"] ++ [route.tenant, route.team]).foldl join root)
      (by decide : Plain "capabilities")
    rw [resolve_state root hwords (hnames hnamed), List.append_assoc] at hdir
    rw [installRecordPath_eq]
    exact prefix_resolve_join hdir hfile

/-! ## The places of two routes -/

/-- What joins to one text with tenants that hold no dot is the same tenant and team. -/
theorem key_inj {tenant tenant' team team' : String} (h : '.' ∉ tenant.toList) (h' : '.' ∉ tenant'.toList) :
    tenant ++ "." ++ team = tenant' ++ "." ++ team' ↔ tenant = tenant' ∧ team = team' := by
  refine ⟨fun heq => ?_, fun ⟨htenant, hteam⟩ => by rw [htenant, hteam]⟩
  have hlist : tenant.toList ++ '.' :: team.toList = tenant'.toList ++ '.' :: team'.toList := by
    have := congrArg String.toList heq
    simpa using this
  have htenant : tenant.toList = tenant'.toList := by
    rw [← Text.takeWhile_append_sep h team.toList, hlist, Text.takeWhile_append_sep h' team'.toList]
  rw [htenant, List.append_cancel_left_eq, List.cons_inj_right] at hlist
  exact ⟨String.toList_inj.mp htenant, String.toList_inj.mp hlist⟩

/-- Places below directories of one length are apart where the directories are. -/
theorem ne_of_prefix {base names names' path path' : Path} (h : base ++ names <+: path)
    (h' : base ++ names' <+: path') (hlength : names.length = names'.length) (hne : names ≠ names') :
    path ≠ path' := by
  rintro rfl
  have heq := (List.prefix_of_prefix_length_le h h' (by simp [hlength])).eq_of_length (by simp [hlength])
  exact hne (List.append_cancel_left heq)

/-- How the places of two tenants and teams are apart. -/
structure ApartPlaces (root : String) (a b : ParsedIngressRoute) : Prop where
  runtime : resolve (a.runtimePaths root).runtimeRoot = resolve (b.runtimePaths root).runtimeRoot
    ↔ (a.runtimePaths root).key = (b.runtimePaths root).key
  pids : resolve (a.runtimePaths root).pidsDir = resolve (b.runtimePaths root).pidsDir
    ↔ (a.runtimePaths root).key = (b.runtimePaths root).key
  logs : resolve (a.runtimePaths root).logsDir = resolve (b.runtimePaths root).logsDir
    ↔ (a.runtimePaths root).key = (b.runtimePaths root).key
  key : '.' ∉ a.tenant.toList → '.' ∉ b.tenant.toList →
    ((a.runtimePaths root).key = (b.runtimePaths root).key ↔ a.tenant = b.tenant ∧ a.team = b.team)
  capabilities : Named a → Named b → ¬(a.tenant = b.tenant ∧ a.team = b.team) →
    ∀ fileName fileName', Inside fileName → Inside fileName' →
      resolve (capabilityStatePath root a.tenant (some a.team) fileName)
        ≠ resolve (capabilityStatePath root b.tenant (some b.team) fileName')
  records : Named a → Named b → ¬(a.tenant = b.tenant ∧ a.team = b.team) →
    ∀ stableId stableId', Inside (recordName stableId) → Inside (recordName stableId') →
      resolve (installRecordPath root a.tenant (some a.team) stableId)
        ≠ resolve (installRecordPath root b.tenant (some b.team) stableId')

theorem concat_eq_iff (front : List String) {base : Path} {name name' : String} {path path' : Path}
    (h : path = base ++ (front ++ [name])) (h' : path' = base ++ (front ++ [name'])) :
    path = path' ↔ name = name' := by
  rw [h, h', List.append_cancel_left_eq, List.append_cancel_left_eq, List.singleton_inj]

theorem apartPlaces_of_places {root : String} {a b : ParsedIngressRoute} (ha : Places root a)
    (hb : Places root b) : ApartPlaces root a b := by
  constructor
  case runtime => exact concat_eq_iff ["state", "runtime"] ha.runtime hb.runtime
  case pids => exact concat_eq_iff ["state", "pids"] ha.pids hb.pids
  case logs => exact concat_eq_iff ["logs"] ha.logs hb.logs
  case key => exact key_inj
  case capabilities =>
    intro hnamed hnamed' hne fileName fileName' hfile hfile'
    refine ne_of_prefix (ha.capabilities hnamed fileName hfile) (hb.capabilities hnamed' fileName' hfile') rfl ?_
    intro heq
    simp only [List.cons.injEq, true_and, and_true] at heq
    exact hne heq
  case records =>
    intro hnamed hnamed' hne stableId stableId' hfile hfile'
    refine ne_of_prefix (ha.records hnamed stableId hfile) (hb.records hnamed' stableId' hfile') rfl ?_
    intro heq
    simp only [List.cons.injEq, true_and, and_true] at heq
    exact hne heq

/-- **The places of tenants and teams**: where those of a route are, and how those of two routes
are apart. Without a team they are those of the team `default`. -/
theorem places_apart (root : String) {path path' : String} {a b : ParsedIngressRoute}
    (h : parseRouteSegments path = some a) (h' : parseRouteSegments path' = some b) :
    Places root a ∧ Places root b ∧ ApartPlaces root a b
      ∧ (∀ tenant fileName, capabilityStatePath root tenant none fileName
          = capabilityStatePath root tenant (some "default") fileName)
      ∧ ∀ tenant stableId, installRecordPath root tenant none stableId
          = installRecordPath root tenant (some "default") stableId :=
  ⟨places_of_parse root h, places_of_parse root h',
    apartPlaces_of_places (places_of_parse root h) (places_of_parse root h'), fun _ _ => rfl, fun _ _ => rfl⟩

def sales : ParsedIngressRoute := ⟨.Messaging, "slack", "acme", "sales", none⟩

def acme : ParsedIngressRoute := ⟨.Messaging, "slack", "acme", "default", none⟩

theorem places_apart_teams : Places "bundle" sales ∧ Places "bundle" acme ∧ ApartPlaces "bundle" sales acme
    ∧ (∀ tenant fileName, capabilityStatePath "bundle" tenant none fileName
        = capabilityStatePath "bundle" tenant (some "default") fileName)
    ∧ ∀ tenant stableId, installRecordPath "bundle" tenant none stableId
        = installRecordPath "bundle" tenant (some "default") stableId :=
  @places_apart "bundle" "/v1/messaging/ingress/slack/acme/sales" "/messaging/ingress/slack/acme" sales acme
    (by decide +kernel) (by decide +kernel)

/-! ## Places that are shared, and places elsewhere -/

def routeOf (tenant team : String) : ParsedIngressRoute := ⟨.Messaging, "slack", tenant, team, none⟩

/-- Dots in names make keys alike, the logs are not in the state directory, the names `.` and `..`
and a stable id with them lead to other directories, and a team may be the one of no team. -/
theorem places_not_isolated :
    (¬ ∀ root path path' a b, parseRouteSegments path = some a → parseRouteSegments path' = some b →
      ¬(a.tenant = b.tenant ∧ a.team = b.team) →
      resolve (a.runtimePaths root).runtimeRoot ≠ resolve (b.runtimePaths root).runtimeRoot)
    ∧ (¬ ∀ root path a, parseRouteSegments path = some a →
      resolve root ++ ["state"] <+: resolve (a.runtimePaths root).logsDir)
    ∧ (¬ ∀ root path path' a b, parseRouteSegments path = some a → parseRouteSegments path' = some b →
      ¬(a.tenant = b.tenant ∧ a.team = b.team) →
      resolve (capabilityStatePath root a.tenant (some a.team) "events.jsonl")
        ≠ resolve (capabilityStatePath root b.tenant (some b.team) "events.jsonl"))
    ∧ (¬ ∀ root path a, parseRouteSegments path = some a →
      resolve root ++ ["state", "capabilities", a.tenant]
        <+: resolve (capabilityStatePath root a.tenant (some a.team) "events.jsonl"))
    ∧ (¬ ∀ root path path' a b stableId, parseRouteSegments path = some a → parseRouteSegments path' = some b →
      ¬(a.tenant = b.tenant ∧ a.team = b.team) →
      resolve (installRecordPath root a.tenant (some a.team) stableId)
        ≠ resolve (installRecordPath root b.tenant (some b.team) stableId))
    ∧ parseRouteSegments "/v1/messaging/ingress/slack/acme"
      = parseRouteSegments "/v1/messaging/ingress/slack/acme/default" := by
  have hparse : ∀ tenant team, SegmentName tenant → SegmentName team →
      parseRouteSegments (routePath "slack" tenant team) = some (routeOf tenant team) :=
    fun _ _ => parse_routePath (by decide)
  have hsales := hparse "acme" "sales" (by decide) (by decide)
  have hnone : parseRouteSegments "/v1/messaging/ingress/slack/acme" = some acme := by decide +kernel
  have hdefault : parseRouteSegments "/v1/messaging/ingress/slack/acme/default" = some acme := by decide +kernel
  refine ⟨fun h => ?_, fun h => ?_, fun h => ?_, fun h => ?_, fun h => ?_, hnone.trans hdefault.symm⟩
  · exact absurd (h "bundle" _ _ _ _ (hparse "a.b" "c" (by decide) (by decide))
      (hparse "a" "b.c" (by decide) (by decide)) (by decide)) (by decide +kernel)
  · exact absurd (h "bundle" _ _ hsales) (by decide +kernel)
  · exact absurd (h "bundle" _ _ _ _ (hparse "." "acme" (by decide) (by decide))
      (hparse "acme" "." (by decide) (by decide)) (by decide)) (by decide +kernel)
  · exact absurd (h "bundle" _ _ (hparse "acme" ".." (by decide) (by decide)))
      (by decide +kernel)
  · exact absurd (h "bundle" _ _ _ _ "../../id" hsales
      (hparse "acme" "support" (by decide) (by decide)) (by decide)) (by decide +kernel)

end HttpIngress
