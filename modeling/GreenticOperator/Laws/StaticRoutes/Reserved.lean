import GreenticOperator.HttpIngress.Route
import GreenticOperator.Laws.StaticRoutes.Match
import GreenticOperator.Lib.Outcome
import GreenticOperator.StaticRoutes.Discover

/-!
# Static routes and the paths of the operator

A route may take a request of the operator's although its public path conflicts with none of
the reserved paths: it may be a shorter path, begin with a placeholder, hold an empty
segment, or differ in the case of its letters. Exactly the routes that cross one of the
operator's paths segment by segment do (`crosses_iff`), and a discovered plan keeps off the
operator's requests exactly where none of its routes crosses (`staysClear_iff`).
-/

namespace StaticRoutes

open Domains

/-! ## The requests of the operator -/

/-- A request for a reserved path, for one below a reserved prefix, or for an ingress route. -/
def OperatorPath (reserved : ReservedRouteSet) (path : String) : Prop :=
  (∃ exact ∈ reserved.exactPaths, parts path = parts exact)
  ∨ (∃ front ∈ reserved.prefixPaths, parts front <+: parts path)
  ∨ (HttpIngress.parseRouteSegments path).isSome = true

def domains : List Domain := [.Messaging, .Events, .Secrets, .OAuth]

/-- The words that the path of an ingress request of a domain begins with. -/
def ingressWords (domain : Domain) : List (List String) :=
  [["v1", domainName domain, "ingress"], [domainName domain, "ingress"]]

/-- On the length they share, a route's literals are the same as the words it meets. -/
def crosses (same : String → String → Bool) : List RouteScopeSegment → List String → Bool
  | .Literal text :: route, word :: words => same text word && crosses same route words
  | _ :: route, _ :: words => crosses same route words
  | _, _ => true

/-- No request of the operator is taken by the route. -/
def staysClear (reserved : ReservedRouteSet) (route : List RouteScopeSegment) : Bool :=
  (reserved.exactPaths.all fun exact => !segmentsMatch route (segmentsOf exact))
  && (reserved.prefixPaths.all fun front => !crosses (· == ·) route (segmentsOf front))
  && domains.all fun domain =>
    (ingressWords domain).all fun words => !crosses Text.eqIgnoreAsciiCase route words

/-! ## Crossing -/

/-- A request that begins with words that are the same. -/
def BeginsWith (same : String → String → Bool) (words request : List String) : Prop :=
  ∃ front rest, request = front ++ rest
    ∧ List.Forall₂ (fun text word => same text word = true) front words

theorem beginsWith_cons_iff {same : String → String → Bool} {word text : String}
    {words request : List String} :
    BeginsWith same (word :: words) (text :: request) ↔
      same text word = true ∧ BeginsWith same words request := by
  constructor
  · rintro ⟨front, rest, heq, hall⟩
    cases hall with
    | cons hword hall =>
      rw [List.cons_append, List.cons.injEq] at heq
      obtain ⟨rfl, hrequest⟩ := heq
      exact ⟨hword, _, rest, hrequest, hall⟩
  · rintro ⟨hword, front, rest, rfl, hall⟩
    exact ⟨text :: front, rest, rfl, .cons hword hall⟩

theorem crosses_cons_iff {same : String → String → Bool} (hsame : ∀ word, same word word = true)
    {segment : RouteScopeSegment} {route : List RouteScopeSegment} {word : String} {words : List String}
    (hsegment : segment.takesSome = true) (hword : IsSegment word) :
    crosses same (segment :: route) (word :: words) = true ↔
      (∃ text, IsSegment text ∧ segment.accepts text = true ∧ same text word = true)
        ∧ crosses same route words = true := by
  cases segment with
  | Literal text =>
    have htext : IsSegment text := of_decide_eq_true hsegment
    simp only [crosses, Bool.and_eq_true, RouteScopeSegment.accepts, beq_iff_eq]
    refine and_congr_left fun _ => ⟨fun h => ⟨text, htext, rfl, h⟩, ?_⟩
    rintro ⟨_, -, rfl, h⟩
    exact h
  | Tenant | Team =>
    exact ⟨fun h => ⟨⟨word, hword, rfl, hsame word⟩, h⟩, fun h => h.2⟩

/-- A route crosses some words exactly where it takes a request that begins with words that
are the same. -/
theorem crosses_iff {same : String → String → Bool} (hsame : ∀ word, same word word = true)
    {route : List RouteScopeSegment} {words : List String}
    (hroute : route.all RouteScopeSegment.takesSome = true) (hwords : ∀ word ∈ words, IsSegment word) :
    crosses same route words = true ↔
      ∃ request, (∀ text ∈ request, IsSegment text) ∧ Covers route request
        ∧ BeginsWith same words request := by
  induction route generalizing words with
  | nil =>
    refine ⟨fun _ => ⟨words, hwords, covers_nil words, words, [], (List.append_nil words).symm, ?_⟩,
      fun _ => ?_⟩
    · exact List.forall₂_same.mpr fun word _ => hsame word
    · unfold crosses
      rfl
  | cons segment route ih =>
    cases words with
    | nil =>
      obtain ⟨request, hrequest, hcovers⟩ := all_takesSome_iff.mp hroute
      refine ⟨fun _ => ⟨request, hrequest, hcovers, [], request, rfl, .nil⟩, fun _ => ?_⟩
      cases segment <;> rfl
    | cons word words =>
      rw [List.all_cons, Bool.and_eq_true] at hroute
      obtain ⟨hword, hwords⟩ := List.forall_mem_cons.mp hwords
      rw [crosses_cons_iff hsame hroute.1 hword, ih hroute.2 hwords]
      constructor
      · rintro ⟨⟨text, htext, haccepts, hsameWord⟩, request, hrequest, hcovers, hbegins⟩
        exact ⟨text :: request, List.forall_mem_cons.mpr ⟨htext, hrequest⟩,
          covers_cons_iff.mpr ⟨haccepts, hcovers⟩, beginsWith_cons_iff.mpr ⟨hsameWord, hbegins⟩⟩
      · rintro ⟨request, hrequest, hcovers, hbegins⟩
        cases request with
        | nil => exact absurd hcovers not_covers_cons_nil
        | cons text request =>
          obtain ⟨haccepts, hcovers⟩ := covers_cons_iff.mp hcovers
          obtain ⟨hsameWord, hbegins⟩ := beginsWith_cons_iff.mp hbegins
          obtain ⟨htext, hrequest⟩ := List.forall_mem_cons.mp hrequest
          exact ⟨⟨text, htext, haccepts, hsameWord⟩, request, hrequest, hcovers, hbegins⟩

/-- A request may always go on. -/
theorem Covers.append {route : List RouteScopeSegment} {request : List String} (h : Covers route request)
    (more : List String) : Covers route (request ++ more) := by
  obtain ⟨front, rest, rfl, hall⟩ := h
  exact ⟨front, rest ++ more, List.append_assoc front rest more, hall⟩

theorem BeginsWith.append {same : String → String → Bool} {words request : List String}
    (h : BeginsWith same words request) (more : List String) :
    BeginsWith same words (request ++ more) := by
  obtain ⟨front, rest, rfl, hall⟩ := h
  exact ⟨front, rest ++ more, List.append_assoc front rest more, hall⟩

/-! ## The ingress routes -/

theorem parseDomain_isSome_iff {text : String} :
    (HttpIngress.parseDomain text).isSome = true ↔
      ∃ domain ∈ domains, Text.eqIgnoreAsciiCase text (domainName domain) = true := by
  unfold HttpIngress.parseDomain
  rw [List.find?_isSome]
  rfl

theorem parseLegacyRoute_isSome_iff {segments : List String} :
    (HttpIngress.parseLegacyRoute segments).isSome = true ↔
      ∃ domain ∈ domains, BeginsWith Text.eqIgnoreAsciiCase [domainName domain, "ingress"] segments
        ∧ 4 ≤ segments.length := by
  constructor
  · intro h
    unfold HttpIngress.parseLegacyRoute at h
    split at h
    next first ingress provider tenant rest =>
      split at h
      next hingress =>
        rw [Option.isSome_map, parseDomain_isSome_iff] at h
        obtain ⟨domain, hdomain, hfirst⟩ := h
        refine ⟨domain, hdomain, ⟨[first, ingress], provider :: tenant :: rest, rfl, ?_⟩, ?_⟩
        · exact .cons hfirst (.cons hingress .nil)
        · simp only [List.length_cons]
          omega
      next => cases h
    next => cases h
  · rintro ⟨domain, hdomain, ⟨front, rest, rfl, hall⟩, hlength⟩
    obtain ⟨first, tail, hfirst, htail, rfl⟩ := List.forall₂_cons_right_iff.mp hall
    obtain ⟨ingress, none, hingress, hnone, rfl⟩ := List.forall₂_cons_right_iff.mp htail
    rw [List.forall₂_nil_right_iff] at hnone
    subst hnone
    match rest, hlength with
    | provider :: tenant :: rest, _ =>
      change (if _ then _ else _ : Option HttpIngress.ParsedIngressRoute).isSome = true
      rw [if_pos hingress, Option.isSome_map, parseDomain_isSome_iff]
      exact ⟨domain, hdomain, hfirst⟩

theorem not_v1_of_domain {text : String} {domain : Domain}
    (h : Text.eqIgnoreAsciiCase text (domainName domain) = true) :
    Text.eqIgnoreAsciiCase text "v1" = false := by
  unfold Text.eqIgnoreAsciiCase at h ⊢
  rw [beq_iff_eq] at h
  rw [h]
  cases domain <;> decide +kernel

/-- A path is read by its parts. -/
theorem parseRouteSegments_eq (path : String) : HttpIngress.parseRouteSegments path = match parts path with
    | [] => none
    | first :: rest =>
      if Text.eqIgnoreAsciiCase first "v1" then HttpIngress.parseLegacyRoute rest
      else HttpIngress.parseLegacyRoute (first :: rest) := by
  rw [← segmentsOf_eq_parts]
  unfold HttpIngress.parseRouteSegments segmentsOf
  generalize (Text.split '/' (Text.trimStartMatches '/' path)).filter _ = segments
  cases segments with
  | nil => rfl
  | cons first rest => simp only [HttpIngress.parseV1Route_cons]

/-- An ingress request is one that begins with the words of a domain, in any case, and has
two segments more. -/
theorem parseRouteSegments_isSome_iff {path : String} :
    (HttpIngress.parseRouteSegments path).isSome = true ↔
      ∃ domain ∈ domains, ∃ words ∈ ingressWords domain,
        BeginsWith Text.eqIgnoreAsciiCase words (parts path) ∧ words.length + 2 ≤ (parts path).length := by
  rw [parseRouteSegments_eq]
  have hshort : ∀ {domain : Domain} {words : List String}, words ∈ ingressWords domain →
      words = ["v1", domainName domain, "ingress"] ∨ words = [domainName domain, "ingress"] := by
    intro domain words hwords
    simpa only [ingressWords, List.mem_cons, List.not_mem_nil, or_false] using hwords
  cases parts path with
  | nil =>
    refine ⟨nofun, ?_⟩
    rintro ⟨domain, -, words, -, -, hlength⟩
    exact absurd hlength (by simp)
  | cons first rest =>
    dsimp only
    cases hv1 : Text.eqIgnoreAsciiCase first "v1" with
    | true =>
      rw [if_pos rfl, parseLegacyRoute_isSome_iff]
      constructor
      · rintro ⟨domain, hdomain, hbegins, hlength⟩
        refine ⟨domain, hdomain, _, List.mem_cons_self, beginsWith_cons_iff.mpr ⟨hv1, hbegins⟩, ?_⟩
        simp only [List.length_cons, List.length_nil]
        omega
      · rintro ⟨domain, hdomain, words, hwords, hbegins, hlength⟩
        rcases hshort hwords with rfl | rfl
        · refine ⟨domain, hdomain, (beginsWith_cons_iff.mp hbegins).2, ?_⟩
          simp only [List.length_cons, List.length_nil] at hlength
          omega
        · rw [not_v1_of_domain (beginsWith_cons_iff.mp hbegins).1] at hv1
          cases hv1
    | false =>
      rw [if_neg Bool.false_ne_true, parseLegacyRoute_isSome_iff]
      constructor
      · rintro ⟨domain, hdomain, hbegins, hlength⟩
        exact ⟨domain, hdomain, _, List.mem_cons_of_mem _ List.mem_cons_self, hbegins, hlength⟩
      · rintro ⟨domain, hdomain, words, hwords, hbegins, hlength⟩
        rcases hshort hwords with rfl | rfl
        · rw [(beginsWith_cons_iff.mp hbegins).1] at hv1
          cases hv1
        · exact ⟨domain, hdomain, hbegins, hlength⟩

/-! ## Routes that stay clear -/

theorem beginsWith_eq_iff {words request : List String} :
    BeginsWith (· == ·) words request ↔ words <+: request := by
  constructor
  · rintro ⟨front, rest, rfl, hall⟩
    have heq : front = words := by
      rw [← List.forall₂_eq_eq_eq]
      exact hall.imp fun _ _ h => beq_iff_eq.mp h
    exact heq ▸ List.prefix_append front rest
  · rintro ⟨rest, rfl⟩
    exact ⟨words, rest, rfl, List.forall₂_same.mpr fun _ _ => beq_self_eq_true _⟩

theorem isSegment_of_mem_ingressWords {domain : Domain} {words : List String}
    (h : words ∈ ingressWords domain) : ∀ word ∈ words, IsSegment word := by
  revert words
  cases domain <;> decide +kernel

/-- A route stays clear exactly where it takes no request of the operator. -/
theorem staysClear_iff {reserved : ReservedRouteSet} {route : List RouteScopeSegment}
    (hroute : route.all RouteScopeSegment.takesSome = true) :
    staysClear reserved route = true ↔
      ∀ path, OperatorPath reserved path → ¬ Covers route (parts path) := by
  have hparts : ∀ path, ∀ word ∈ parts path, IsSegment word :=
    fun path word hword => isSegment_of_mem_parts hword
  have hcase : ∀ word, Text.eqIgnoreAsciiCase word word = true := fun _ => beq_self_eq_true _
  have hbeq : ∀ word : String, (word == word) = true := fun _ => beq_self_eq_true _
  simp only [staysClear, Bool.and_eq_true, List.all_eq_true, Bool.not_eq_true', ← Bool.not_eq_true,
    segmentsMatch_iff, segmentsOf_eq_parts]
  constructor
  · rintro ⟨⟨hexact, hprefix⟩, hingress⟩ path hpath hcovers
    rcases hpath with ⟨exact, hmem, heq⟩ | ⟨front, hmem, hbelow⟩ | hparsed
    · exact hexact exact hmem (heq ▸ hcovers)
    · exact hprefix front hmem ((crosses_iff hbeq hroute (hparts front)).mpr
        ⟨parts path, hparts path, hcovers, beginsWith_eq_iff.mpr hbelow⟩)
    · obtain ⟨domain, hdomain, words, hwords, hbegins, -⟩ := parseRouteSegments_isSome_iff.mp hparsed
      exact hingress domain hdomain words hwords
        ((crosses_iff hcase hroute (isSegment_of_mem_ingressWords hwords)).mpr
          ⟨parts path, hparts path, hcovers, hbegins⟩)
  · intro h
    refine ⟨⟨fun exact hmem => h exact (.inl ⟨exact, hmem, rfl⟩), fun front hmem hcrosses => ?_⟩,
      fun domain hdomain words hwords hcrosses => ?_⟩
    · obtain ⟨request, hrequest, hcovers, hbegins⟩ :=
        (crosses_iff hbeq hroute (hparts front)).mp hcrosses
      rw [← parts_pathOf hrequest] at hcovers hbegins
      exact h (pathOf request) (.inr (.inl ⟨front, hmem, beginsWith_eq_iff.mp hbegins⟩)) hcovers
    · -- the request goes on with a provider and a tenant
      obtain ⟨request, hrequest, hcovers, hbegins⟩ :=
        (crosses_iff hcase hroute (isSegment_of_mem_ingressWords hwords)).mp hcrosses
      have hlonger : ∀ text ∈ request ++ ["x", "x"], IsSegment text := by
        intro text htext
        rcases List.mem_append.mp htext with htext | htext
        · exact hrequest text htext
        · simp only [List.mem_cons, List.not_mem_nil, or_false, or_self] at htext
          exact htext ▸ (by decide)
      have hlength : words.length ≤ request.length := by
        obtain ⟨front, rest, rfl, hall⟩ := hbegins
        rw [List.length_append, hall.length_eq]
        omega
      have hparsed : (HttpIngress.parseRouteSegments (pathOf (request ++ ["x", "x"]))).isSome = true := by
        refine parseRouteSegments_isSome_iff.mpr ⟨domain, hdomain, words, hwords, ?_⟩
        rw [parts_pathOf hlonger, List.length_append]
        exact ⟨hbegins.append _, Nat.add_le_add_right hlength 2⟩
      refine h _ (.inr (.inr hparsed)) ?_
      rw [parts_pathOf hlonger]
      exact hcovers.append _

/-! ## Discovered routes -/

theorem takesSome_of_parseSegment {text : String} {segment : RouteScopeSegment} (htext : IsSegment text)
    (h : parseSegment text = .ok segment) : segment.takesSome = true := by
  unfold parseSegment at h
  split at h
  · cases h
    rfl
  · split at h
    · cases h
      rfl
    · split at h
      · cases h
      · cases h
        exact decide_eq_true htext

theorem checkTeam_ok {parsed route : List RouteScopeSegment} (h : checkTeam parsed = .ok route) :
    route = parsed := by
  unfold checkTeam at h
  split at h
  · split at h
    · cases h
    · split at h
      · cases h
      · exact (Except.ok.inj h).symm
  · exact (Except.ok.inj h).symm

/-- The literals of a parsed path are segments of it. -/
theorem takesSome_of_parseRouteSegments {path : String} {route : List RouteScopeSegment}
    (h : parseRouteSegments path = .ok route) : route.all RouteScopeSegment.takesSome = true := by
  unfold parseRouteSegments at h
  rw [segmentsOf_eq_parts] at h
  have hparts : ∀ text ∈ parts path, IsSegment text := fun text htext => isSegment_of_mem_parts htext
  generalize parts path = segments at h hparts
  cases segments with
  | nil => cases h
  | cons first rest =>
    obtain ⟨parsed, hparsed, hcheck⟩ := Outcome.bind_eq_ok_iff.mp h
    rw [checkTeam_ok hcheck, List.all_eq_true]
    intro segment hsegment
    obtain ⟨text, htext, hparse⟩ := Outcome.exists_of_mem_mapM_ok hparsed hsegment
    exact takesSome_of_parseSegment (hparts text htext) hparse

/-- What holds of every route that discovery makes. -/
def Discovered (route : StaticRouteDescriptor) : Prop :=
  route.scope = none ∧ parseRouteSegments route.publicPath = .ok route.routeSegments

theorem discovered_of_normalize {packId packPath : String} {idx : Nat} {record : StaticRouteRecord}
    {route : StaticRouteDescriptor} (h : normalizeRouteDescriptor packId packPath idx record = .ok route) :
    Discovered route := by
  unfold normalizeRouteDescriptor at h
  simp only [Outcome.throw_eq] at h
  split at h
  · cases h
  · obtain ⟨segments, hsegments, h⟩ := Outcome.bind_eq_ok_iff.mp h
    split at h
    · cases h
    · split at h
      · cases h
      · split at h <;> obtain ⟨sourceRoot, hroot, h⟩ := Outcome.bind_eq_ok_iff.mp h
        · obtain ⟨indexFile, -, h⟩ := Outcome.bind_eq_ok_iff.mp h
          obtain ⟨spaFallback, -, h⟩ := Outcome.bind_eq_ok_iff.mp h
          obtain ⟨cacheStrategy, -, h⟩ := Outcome.bind_eq_ok_iff.mp h
          rw [← Except.ok.inj h]
          refine ⟨rfl, ?_⟩
          dsimp only
          exact hsegments
        · cases hroot

/-- A route that the pack at a path declares. -/
def DeclaredAt (packPath : String) (route : StaticRouteDescriptor) : Prop :=
  ∃ packId idx record, normalizeRouteDescriptor packId packPath idx record = .ok route

theorem declaredAt_of_read {pack : PackFile} {routes : List StaticRouteDescriptor}
    (h : readPackStaticRoutes pack = .ok (some routes)) : ∀ route ∈ routes, DeclaredAt pack.path route := by
  unfold readPackStaticRoutes at h
  simp only [Outcome.throw_eq] at h
  obtain ⟨manifest, -, h⟩ := Outcome.bind_eq_ok_iff.mp h
  cases hext : manifest.extensions.bind (·.lookup extStaticRoutesV1) with
  | none =>
    rw [hext] at h
    cases h
  | some extension =>
    rw [hext] at h
    dsimp only at h
    split at h
    · cases h
    · cases h
    · split at h
      · cases h
      · split at h
        · cases h
        · obtain ⟨found, hfound, h⟩ := Outcome.bind_eq_ok_iff.mp h
          cases h
          intro route hroute
          obtain ⟨item, -, hitem⟩ := Outcome.exists_of_mem_mapM_ok hfound hroute
          exact ⟨_, _, _, hitem⟩

/-- The routes of a plan with one more pack are those of the plan and those the pack declares. -/
theorem mem_addPack {plan : StaticRoutePlan} {pack : PackFile} {route : StaticRouteDescriptor}
    (h : route ∈ (addPack plan pack).routes) : route ∈ plan.routes ∨ DeclaredAt pack.path route := by
  unfold addPack at h
  cases hread : readPackStaticRoutes pack with
  | error err =>
    rw [hread] at h
    exact .inl h
  | ok found =>
    rw [hread] at h
    cases found with
    | none => exact .inl h
    | some descriptors =>
      rcases List.mem_append.mp h with h | h
      · exact .inl h
      · exact .inr (declaredAt_of_read hread route h)

/-- Every route of a discovered plan is one that a pack of the bundle declares. -/
theorem declared (packs : List PackFile) (reserved : ReservedRouteSet) :
    ∀ route ∈ (discoverFromBundle packs reserved).routes, ∃ pack ∈ packs, DeclaredAt pack.path route := by
  have hall : ∀ plan : StaticRoutePlan, ∀ route ∈ (packs.foldl addPack plan).routes,
      route ∈ plan.routes ∨ ∃ pack ∈ packs, DeclaredAt pack.path route := by
    induction packs with
    | nil => exact fun _ _ h => .inl h
    | cons pack packs ih =>
      intro plan route hroute
      rcases ih _ route hroute with h | ⟨other, hother, h⟩
      · rcases mem_addPack h with h | h
        · exact .inl h
        · exact .inr ⟨pack, List.mem_cons_self, h⟩
      · exact .inr ⟨other, List.mem_cons_of_mem _ hother, h⟩
  intro route hroute
  rcases hall _ route hroute with h | h
  · exact absurd h List.not_mem_nil
  · exact h

theorem discovered (packs : List PackFile) (reserved : ReservedRouteSet) :
    ∀ route ∈ (discoverFromBundle packs reserved).routes, Discovered route := by
  intro route hroute
  obtain ⟨_, -, _, _, _, h⟩ := declared packs reserved route hroute
  exact discovered_of_normalize h

/-- The legacy matcher finds nothing exactly where no route covers the request. -/
theorem matchRequest_eq_none_iff {plan : StaticRoutePlan} (hlegacy : ∀ route ∈ plan.routes, route.scope = none)
    (path : String) :
    (ActiveRouteTable.fromPlan plan).matchRequest path = none ↔
      ∀ route ∈ plan.routes, ¬ Covers route.routeSegments (parts path) := by
  have hfound := (longestOf_matchScope plan path none).found
  rw [← Option.not_isSome_iff_eq_none]
  change ¬ (matchScope (ActiveRouteTable.fromPlan plan) path none).isSome = true ↔ _
  rw [hfound]
  push Not
  exact ⟨fun h route hmem => h route hmem (hlegacy route hmem), fun h route hmem _ => h route hmem⟩

/-- **A discovered plan keeps off the requests of the operator** exactly where each of its
routes stays clear of the operator's paths. -/
theorem shadows_nothing_iff (packs : List PackFile) :
    ((discoverFromBundle packs .operatorDefaults).blockingFailures = [] →
      ∀ path, OperatorPath .operatorDefaults path →
        (ActiveRouteTable.fromPlan (discoverFromBundle packs .operatorDefaults)).matchRequest path = none) ↔
    ((discoverFromBundle packs .operatorDefaults).blockingFailures = [] →
      ∀ route ∈ (discoverFromBundle packs .operatorDefaults).routes,
        staysClear .operatorDefaults route.routeSegments = true) := by
  have hall := discovered packs .operatorDefaults
  generalize discoverFromBundle packs .operatorDefaults = plan at hall
  refine imp_congr_right fun _ => ?_
  have hclear : ∀ route ∈ plan.routes, (staysClear .operatorDefaults route.routeSegments = true ↔
      ∀ path, OperatorPath .operatorDefaults path → ¬ Covers route.routeSegments (parts path)) :=
    fun route hmem => staysClear_iff (takesSome_of_parseRouteSegments (hall route hmem).2)
  have hnone := matchRequest_eq_none_iff fun route hmem => (hall route hmem).1
  constructor
  · exact fun h route hmem => (hclear route hmem).mpr fun path hpath => (hnone path).mp (h path hpath) route hmem
  · exact fun h path hpath => (hnone path).mpr fun route hmem =>
      (hclear route hmem).mp (h route hmem) path hpath

/-- A pack that serves its assets at `/v1`. -/
def v1Pack : PackFile where
  path := "web.gtpack"
  manifest := .ok {
    packId := "web"
    extensions := some [(extStaticRoutesV1, ⟨some (.Other (.object [("routes", .array [.object
      [("id", .string "web"), ("public_path", .string "/v1"), ("source_root", .string "assets")]])]))⟩)] }

theorem v1_shadows_ingress :
    ¬ ∀ packs, (discoverFromBundle packs .operatorDefaults).blockingFailures = [] →
      ∀ path, OperatorPath .operatorDefaults path →
        (ActiveRouteTable.fromPlan (discoverFromBundle packs .operatorDefaults)).matchRequest path = none := by
  intro h
  have hpath : OperatorPath .operatorDefaults "/v1/messaging/ingress/telegram/demo" :=
    .inr (.inr (by decide +kernel))
  exact absurd (h [v1Pack] (by decide +kernel) _ hpath) (by decide +kernel)

end StaticRoutes
