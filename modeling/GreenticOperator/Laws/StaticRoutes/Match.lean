import GreenticOperator.StaticRoutes.Serve
import GreenticOperator.Lib.StableSort

/-!
# The route that serves a request

The table keeps routes with more segments first, so the first route that is accepted and
matches has the most segments of all that are and do. Sorting commutes with leaving routes
out, so routes that are not accepted have no part in the answer. Both hold of the legacy
routes and of the routes of each revision (`matches_longest`).
-/

namespace StaticRoutes

/-- The non-empty pieces of a path between its slashes. -/
def parts (path : String) : List String := (Text.split '/' path).filter (· ≠ "")

/-- A route takes a request segment by segment, and the request may go on. -/
def Covers (route : List RouteScopeSegment) (request : List String) : Prop :=
  ∃ front rest, request = front ++ rest
    ∧ List.Forall₂ (fun segment text => segment.accepts text = true) route front

/-- An answer for a request among the routes of one scope: there is one exactly when such a
route covers the request, and it is one of those with the most segments. -/
structure LongestOf (routes : List StaticRouteDescriptor) (scope : Option RevisionScope) (path : String)
    (answer : Option StaticRouteMatch) : Prop where
  found : answer.isSome = true ↔
    ∃ route ∈ routes, route.scope = scope ∧ Covers route.routeSegments (parts path)
  covers : ∀ m, answer = some m →
    m.descriptor ∈ routes ∧ m.descriptor.scope = scope ∧ Covers m.descriptor.routeSegments (parts path)
  longest : ∀ m, answer = some m → ∀ route ∈ routes, route.scope = scope →
    Covers route.routeSegments (parts path) →
    route.routeSegments.length ≤ m.descriptor.routeSegments.length
  assetPath : ∀ m, answer = some m →
    m.assetPath = Text.joinWith '/' ((parts path).drop m.descriptor.routeSegments.length)

/-! ## Segments -/

/-- Slashes at the start of a path make empty segments, which vanish either way. -/
theorem segmentsOf_eq_parts (path : String) : segmentsOf path = parts path := by
  have hempty : (fun segment : String => !segment.isEmpty) = fun segment => decide (segment ≠ "") := by
    funext segment
    rw [Bool.eq_iff_iff]
    simp
  unfold segmentsOf parts
  rw [hempty, Text.filter_split_trimStartMatches]

theorem covers_nil (request : List String) : Covers [] request := ⟨[], request, rfl, .nil⟩

theorem covers_cons_iff {segment : RouteScopeSegment} {route : List RouteScopeSegment} {text : String}
    {request : List String} :
    Covers (segment :: route) (text :: request) ↔ segment.accepts text = true ∧ Covers route request := by
  constructor
  · rintro ⟨front, rest, heq, hall⟩
    cases hall with
    | cons hsegment hall =>
      rw [List.cons_append, List.cons.injEq] at heq
      obtain ⟨rfl, hrequest⟩ := heq
      exact ⟨hsegment, _, rest, hrequest, hall⟩
  · rintro ⟨hsegment, front, rest, rfl, hall⟩
    exact ⟨text :: front, rest, rfl, .cons hsegment hall⟩

theorem not_covers_cons_nil {segment : RouteScopeSegment} {route : List RouteScopeSegment} :
    ¬ Covers (segment :: route) [] := by
  rintro ⟨front, rest, heq, hall⟩
  cases hall
  cases heq

theorem segmentsMatch_iff {route : List RouteScopeSegment} {request : List String} :
    segmentsMatch route request = true ↔ Covers route request := by
  induction route generalizing request with
  | nil => simp [segmentsMatch, covers_nil]
  | cons segment route ih =>
    cases request with
    | nil => simp [segmentsMatch, not_covers_cons_nil]
    | cons text request =>
      rw [covers_cons_iff, ← ih]
      simp only [segmentsMatch, List.length_cons, Nat.add_le_add_iff_right, List.zip_cons_cons,
        List.all_cons, Bool.and_eq_true, decide_eq_true_eq]
      tauto

/-! ## The answer of the table -/

instance : Std.Total Precedes where
  total a b := by
    unfold Precedes
    rcases Nat.lt_trichotomy a.routeSegments.length b.routeSegments.length with h | h | h
    · exact .inr (.inl h)
    · rcases le_total a.publicPath b.publicPath with hpath | hpath
      · exact .inl (.inr ⟨h, hpath⟩)
      · exact .inr (.inr ⟨h.symm, hpath⟩)
    · exact .inl (.inl h)

instance : IsTrans StaticRouteDescriptor Precedes where
  trans a b c := by
    rintro (hab | ⟨hab, hpab⟩) (hbc | ⟨hbc, hpbc⟩)
    · exact .inl (by omega)
    · exact .inl (by omega)
    · exact .inl (by omega)
    · exact .inr ⟨by omega, hpab.trans hpbc⟩

theorem length_le_of_precedes {a b : StaticRouteDescriptor} (h : Precedes a b) :
    b.routeSegments.length ≤ a.routeSegments.length := by
  rcases h with h | ⟨h, -⟩
  · exact h.le
  · exact h.ge

/-- The answer a route gives to a request. -/
def answerOf (path : String) (descriptor : StaticRouteDescriptor) : StaticRouteMatch where
  descriptor
  assetPath := Text.joinWith '/' ((parts path).drop descriptor.routeSegments.length)
  requestIsDirectory := Text.endsWithChar '/' path

/-- The first matching route of those that are accepted. -/
theorem matchFirst_eq (plan : StaticRoutePlan) (path : String) (accept : StaticRouteDescriptor → Bool) :
    (ActiveRouteTable.fromPlan plan).matchFirst path accept
      = (((plan.routes.filter accept).insertionSort Precedes).find?
          fun route => segmentsMatch route.routeSegments (parts path)).map (answerOf path) := by
  rw [← StableSort.filter_insertionSort, List.find?_filter]
  unfold ActiveRouteTable.matchFirst ActiveRouteTable.fromPlan
  rw [segmentsOf_eq_parts]
  induction plan.routes.insertionSort Precedes with
  | nil => rfl
  | cons route routes ih =>
    rw [List.findSome?_cons, List.find?_cons]
    cases haccept : accept route with
    | false => simpa using ih
    | true =>
      cases hmatch : segmentsMatch route.routeSegments (parts path) with
      | false => simpa using ih
      | true => simp [answerOf]

/-- The legacy matcher and the matcher of a revision accept the routes of one scope. -/
def matchScope (table : ActiveRouteTable) (path : String) : Option RevisionScope → Option StaticRouteMatch
  | none => table.matchRequest path
  | some scope => table.matchRequestForRevision path scope

theorem matchScope_eq (table : ActiveRouteTable) (path : String) (scope : Option RevisionScope) :
    matchScope table path scope = table.matchFirst path fun descriptor => descriptor.scope == scope := by
  cases scope with
  | none =>
    change table.matchFirst path _ = _
    congr 1
    funext descriptor
    cases descriptor.scope <;> rfl
  | some scope =>
    change table.matchFirst path _ = _
    congr 1
    funext descriptor
    cases descriptor.scope with
    | none => rfl
    | some s =>
      obtain ⟨_, _, _⟩ := s
      obtain ⟨_, _, _⟩ := scope
      rw [Bool.eq_iff_iff]
      simp [and_assoc]

/-- The routes of a scope decide the answer, in the order they were found in. -/
theorem matchScope_congr {plan other : StaticRoutePlan} {scope : Option RevisionScope}
    (h : plan.routes.filter (·.scope == scope) = other.routes.filter (·.scope == scope)) (path : String) :
    matchScope (ActiveRouteTable.fromPlan plan) path scope
      = matchScope (ActiveRouteTable.fromPlan other) path scope := by
  rw [matchScope_eq, matchScope_eq, matchFirst_eq, matchFirst_eq, h]

/-- The answer is a route of the scope with the most segments of all that cover the request. -/
theorem longestOf_matchScope (plan : StaticRoutePlan) (path : String) (scope : Option RevisionScope) :
    LongestOf plan.routes scope path (matchScope (ActiveRouteTable.fromPlan plan) path scope) := by
  rw [matchScope_eq, matchFirst_eq]
  have hmem : ∀ {route}, route ∈ plan.routes.filter (·.scope == scope) ↔
      route ∈ plan.routes ∧ route.scope = scope := by
    intro route
    rw [List.mem_filter, beq_iff_eq]
  have hanswer : ∀ m, (((plan.routes.filter (·.scope == scope)).insertionSort Precedes).find?
      fun route => segmentsMatch route.routeSegments (parts path)).map (answerOf path) = some m →
      ∃ route, ((plan.routes.filter (·.scope == scope)).insertionSort Precedes).find?
        (fun route => segmentsMatch route.routeSegments (parts path)) = some route
          ∧ m = answerOf path route := by
    intro m hm
    obtain ⟨route, hroute, rfl⟩ := Option.map_eq_some_iff.mp hm
    exact ⟨route, hroute, rfl⟩
  constructor
  case found =>
    rw [Option.isSome_map, List.find?_isSome]
    constructor
    · rintro ⟨route, hroute, hmatch⟩
      obtain ⟨hin, hscope⟩ := hmem.mp ((List.mem_insertionSort _).mp hroute)
      exact ⟨route, hin, hscope, segmentsMatch_iff.mp hmatch⟩
    · rintro ⟨route, hin, hscope, hcovers⟩
      exact ⟨route, (List.mem_insertionSort _).mpr (hmem.mpr ⟨hin, hscope⟩),
        segmentsMatch_iff.mpr hcovers⟩
  case covers =>
    intro m hm
    obtain ⟨route, hroute, rfl⟩ := hanswer m hm
    obtain ⟨hin, hscope⟩ := hmem.mp ((List.mem_insertionSort _).mp (List.mem_of_find?_eq_some hroute))
    have hmatch := List.find?_some hroute
    exact ⟨hin, hscope, segmentsMatch_iff.mp hmatch⟩
  case longest =>
    intro m hm route hin hscope hcovers
    obtain ⟨first, hfirst, rfl⟩ := hanswer m hm
    rcases StableSort.rel_of_find?_insertionSort hfirst (hmem.mpr ⟨hin, hscope⟩)
      (segmentsMatch_iff.mpr hcovers) with rfl | hprecedes
    · exact le_rfl
    · exact length_le_of_precedes hprecedes
  case assetPath =>
    intro m hm
    obtain ⟨route, -, rfl⟩ := hanswer m hm
    rfl

/-- **Both matchers answer with the longest route of their scope**, whatever routes of other
scopes the table holds: the legacy matcher of the routes without a scope, the matcher of a
revision of the routes with exactly its deployment, bundle and revision. -/
theorem matches_longest (plan : StaticRoutePlan) (path : String) :
    LongestOf plan.routes none path ((ActiveRouteTable.fromPlan plan).matchRequest path)
    ∧ (∀ scope, LongestOf plan.routes (some scope) path
        ((ActiveRouteTable.fromPlan plan).matchRequestForRevision path scope))
    ∧ ∀ other : StaticRoutePlan,
      (plan.routes.filter (·.scope == none) = other.routes.filter (·.scope == none) →
        (ActiveRouteTable.fromPlan plan).matchRequest path
          = (ActiveRouteTable.fromPlan other).matchRequest path)
      ∧ ∀ scope, plan.routes.filter (·.scope == some scope) = other.routes.filter (·.scope == some scope) →
        (ActiveRouteTable.fromPlan plan).matchRequestForRevision path scope
          = (ActiveRouteTable.fromPlan other).matchRequestForRevision path scope :=
  ⟨longestOf_matchScope plan path none, fun scope => longestOf_matchScope plan path (some scope),
    fun other => ⟨fun h => @matchScope_congr plan other none h path,
      fun scope h => @matchScope_congr plan other (some scope) h path⟩⟩

/-!
## Routes that take the same request

Validation compares the texts of public paths, a request is matched segment by segment. Two
routes take a request in common exactly where their segments agree on the length they share,
a placeholder agreeing with everything (`exists_covers_both_iff`). So a plan that validation
accepts is unambiguous exactly where no two of its routes agree so (`unambiguous_iff`). Where all
routes are without placeholders and plainly written, validation is enough (`unambiguous_of_plain`).
-/

/-- A text that can be a segment of a request. -/
def IsSegment (text : String) : Prop := text ≠ "" ∧ '/' ∉ text.toList

instance (text : String) : Decidable (IsSegment text) := inferInstanceAs (Decidable (_ ∧ _))

/-- Some segment of a request is taken. -/
def RouteScopeSegment.takesSome : RouteScopeSegment → Bool
  | Literal text => decide (IsSegment text)
  | _ => true

/-- Some segment of a request is taken by both. -/
def RouteScopeSegment.meets : RouteScopeSegment → RouteScopeSegment → Bool
  | Literal a, Literal b => decide (a = b ∧ IsSegment a)
  | Literal a, _ => decide (IsSegment a)
  | _, b => b.takesSome

/-- Two routes agree on the length they share, and the longer one takes some request. -/
def agree : List RouteScopeSegment → List RouteScopeSegment → Bool
  | [], route => route.all RouteScopeSegment.takesSome
  | route, [] => route.all RouteScopeSegment.takesSome
  | a :: left, b :: right => a.meets b && agree left right

/-! ### Requests -/

theorem isSegment_of_mem_parts {path text : String} (h : text ∈ parts path) : IsSegment text := by
  obtain ⟨hsplit, hne⟩ := List.mem_filter.mp h
  obtain ⟨piece, hpiece, rfl⟩ := List.mem_map.mp hsplit
  refine ⟨of_decide_eq_true hne, ?_⟩
  rw [String.toList_ofList]
  exact Text.not_mem_of_mem_splitOn hpiece

/-- A path with given segments. -/
def pathOf (segments : List String) : String := Text.joinWith '/' ("" :: segments)

theorem parts_pathOf {segments : List String} (h : ∀ text ∈ segments, IsSegment text) :
    parts (pathOf segments) = segments := by
  have hsplit : Text.split '/' (pathOf segments) = "" :: segments := by
    refine Text.split_joinWith (List.cons_ne_nil _ _) fun text htext => ?_
    rcases List.mem_cons.mp htext with rfl | htext
    · exact List.not_mem_nil
    · exact (h text htext).2
  unfold parts
  rw [hsplit, List.filter_cons_of_neg (by simp), List.filter_eq_self]
  exact fun text htext => decide_eq_true (h text htext).1

/-! ### Agreement -/

theorem takesSome_iff {segment : RouteScopeSegment} :
    segment.takesSome = true ↔ ∃ text, IsSegment text ∧ segment.accepts text = true := by
  cases segment with
  | Literal text =>
    simp only [RouteScopeSegment.takesSome, RouteScopeSegment.accepts, decide_eq_true_eq, beq_iff_eq]
    exact ⟨fun h => ⟨text, h, rfl⟩, fun ⟨_, h, heq⟩ => heq ▸ h⟩
  | Tenant | Team => exact ⟨fun _ => ⟨"x", by decide, rfl⟩, fun _ => rfl⟩

theorem meets_iff {a b : RouteScopeSegment} :
    a.meets b = true ↔
      ∃ text, IsSegment text ∧ a.accepts text = true ∧ b.accepts text = true := by
  cases a with
  | Literal left =>
    cases b with
    | Literal right =>
      simp only [RouteScopeSegment.meets, RouteScopeSegment.accepts, decide_eq_true_eq, beq_iff_eq]
      constructor
      · rintro ⟨rfl, h⟩
        exact ⟨left, h, rfl, rfl⟩
      · rintro ⟨text, h, rfl, rfl⟩
        exact ⟨rfl, h⟩
    | Tenant | Team =>
      simp only [RouteScopeSegment.meets, RouteScopeSegment.accepts, decide_eq_true_eq, beq_iff_eq,
        and_true]
      exact ⟨fun h => ⟨left, h, rfl⟩, fun ⟨_, h, heq⟩ => heq ▸ h⟩
  | Tenant | Team =>
    simp only [RouteScopeSegment.meets, takesSome_iff, RouteScopeSegment.accepts, true_and]

theorem all_takesSome_iff {route : List RouteScopeSegment} :
    route.all RouteScopeSegment.takesSome = true ↔
      ∃ request, (∀ text ∈ request, IsSegment text) ∧ Covers route request := by
  induction route with
  | nil => exact ⟨fun _ => ⟨[], nofun, covers_nil []⟩, fun _ => rfl⟩
  | cons segment route ih =>
    rw [List.all_cons, Bool.and_eq_true, takesSome_iff, ih]
    constructor
    · rintro ⟨⟨text, htext, haccepts⟩, request, hrequest, hcovers⟩
      exact ⟨text :: request, List.forall_mem_cons.mpr ⟨htext, hrequest⟩,
        covers_cons_iff.mpr ⟨haccepts, hcovers⟩⟩
    · rintro ⟨request, hrequest, hcovers⟩
      cases request with
      | nil => exact absurd hcovers not_covers_cons_nil
      | cons text request =>
        obtain ⟨haccepts, hcovers⟩ := covers_cons_iff.mp hcovers
        obtain ⟨htext, hrequest⟩ := List.forall_mem_cons.mp hrequest
        exact ⟨⟨text, htext, haccepts⟩, request, hrequest, hcovers⟩

/-- Two routes agree exactly where they take a list of segments in common. -/
theorem agree_iff {left right : List RouteScopeSegment} :
    agree left right = true ↔
      ∃ request, (∀ text ∈ request, IsSegment text) ∧ Covers left request ∧ Covers right request := by
  induction left generalizing right with
  | nil =>
    unfold agree
    simp only [all_takesSome_iff, covers_nil, true_and]
  | cons a left ih =>
    cases right with
    | nil =>
      unfold agree
      simp only [all_takesSome_iff, covers_nil, and_true]
    | cons b right =>
      rw [agree, Bool.and_eq_true, meets_iff, ih]
      constructor
      · rintro ⟨⟨text, htext, ha, hb⟩, request, hrequest, hleft, hright⟩
        exact ⟨text :: request, List.forall_mem_cons.mpr ⟨htext, hrequest⟩,
          covers_cons_iff.mpr ⟨ha, hleft⟩, covers_cons_iff.mpr ⟨hb, hright⟩⟩
      · rintro ⟨request, hrequest, hleft, hright⟩
        cases request with
        | nil => exact absurd hleft not_covers_cons_nil
        | cons text request =>
          obtain ⟨ha, hleft⟩ := covers_cons_iff.mp hleft
          obtain ⟨hb, hright⟩ := covers_cons_iff.mp hright
          obtain ⟨htext, hrequest⟩ := List.forall_mem_cons.mp hrequest
          exact ⟨⟨text, htext, ha, hb⟩, request, hrequest, hleft, hright⟩

theorem exists_covers_both_iff {left right : List RouteScopeSegment} :
    (∃ path, Covers left (parts path) ∧ Covers right (parts path)) ↔ agree left right = true := by
  rw [agree_iff]
  constructor
  · rintro ⟨path, hleft, hright⟩
    exact ⟨parts path, fun text htext => isSegment_of_mem_parts htext, hleft, hright⟩
  · rintro ⟨request, hrequest, hleft, hright⟩
    refine ⟨pathOf request, ?_⟩
    rw [parts_pathOf hrequest]
    exact ⟨hleft, hright⟩

/-! ### Plans -/

/-- Validation leaves a plan without failures. -/
def Accepted (plan : StaticRoutePlan) (reserved : ReservedRouteSet) : Prop :=
  (validatePlan plan reserved).blockingFailures = []

/-- How many routes of a plan take a request. -/
def matchCount (plan : StaticRoutePlan) (path : String) : Nat :=
  plan.routes.countP fun route => segmentsMatch route.routeSegments (segmentsOf path)

theorem countP_le_one_iff {α : Type} {p : α → Bool} {l : List α} :
    l.countP p ≤ 1 ↔ l.Pairwise fun a b => ¬ (p a = true ∧ p b = true) := by
  induction l with
  | nil => simp
  | cons a l ih =>
    rw [List.pairwise_cons, ← ih]
    cases ha : p a with
    | false => simp [ha]
    | true =>
      have hzero : l.countP p + 1 ≤ 1 ↔ l.countP p = 0 := by omega
      rw [List.countP_cons_of_pos ha, hzero, List.countP_eq_zero]
      constructor
      · intro h
        exact ⟨fun b hb hboth => h b hb hboth.2, by rw [List.countP_eq_zero.mpr h]; omega⟩
      · exact fun h b hb hpb => h.1 b hb ⟨rfl, hpb⟩

theorem forall_pairwise_iff {α β : Type} {R : β → α → α → Prop} {l : List α} :
    (∀ x, l.Pairwise (R x)) ↔ l.Pairwise fun a b => ∀ x, R x a b := by
  induction l with
  | nil => simp
  | cons a l ih =>
    simp only [List.pairwise_cons, forall_and, ih]
    exact and_congr_left fun _ => ⟨fun h b hb x => h x b hb, fun h x b hb => h b hb x⟩

/-- Every request is taken by at most one route exactly where no two routes agree. -/
theorem matchCount_le_one_iff {plan : StaticRoutePlan} :
    (∀ path, matchCount plan path ≤ 1) ↔
      plan.routes.Pairwise fun a b => agree a.routeSegments b.routeSegments = false := by
  simp only [matchCount, countP_le_one_iff, forall_pairwise_iff, segmentsOf_eq_parts,
    segmentsMatch_iff, ← not_exists, exists_covers_both_iff, Bool.not_eq_true]

/-! ### What validation establishes -/

theorem claimFailures_eq_nil {reserved : ReservedRouteSet} {seen : List (String × String)}
    {routes : List StaticRouteDescriptor} :
    claimFailures reserved seen routes = [] ↔
      (∀ route ∈ routes, reserved.conflictsWith route.publicPath = false
        ∧ seen.lookup route.publicPath = none) ∧ (routes.map (·.publicPath)).Nodup := by
  induction routes generalizing seen with
  | nil => simp [claimFailures]
  | cons route rest ih =>
    have hseen : ∀ path, List.lookup path ((route.publicPath, route.routeId) :: seen) = none
        ↔ path ≠ route.publicPath ∧ seen.lookup path = none := by
      intro path
      rw [List.lookup_cons]
      by_cases heq : path = route.publicPath
      · simp [heq]
      · rw [beq_false_of_ne heq]
        simp [heq]
    simp only [claimFailures, List.append_eq_nil_iff, ih, hseen, List.forall_mem_cons, List.map_cons,
      List.nodup_cons, List.mem_map]
    cases reserved.conflictsWith route.publicPath with
    | true => simp
    | false =>
      cases seen.lookup route.publicPath with
      | some existing => simp
      | none =>
        simp
        grind

theorem overlapFailures_eq_nil {routes : List StaticRouteDescriptor} :
    overlapFailures routes = [] ↔
      routes.Pairwise fun a b => pathsOverlap a.publicPath b.publicPath = false := by
  induction routes with
  | nil => simp [overlapFailures]
  | cons left rest ih =>
    simp [overlapFailures, ih, List.pairwise_cons, List.filter_eq_nil_iff]

/-- **What validation establishes**: no route has a public path of the operator's, and no two have
public paths one of which is, or is below, the other. -/
theorem accepted_iff {plan : StaticRoutePlan} {reserved : ReservedRouteSet} :
    Accepted plan reserved ↔
      plan.blockingFailures = [] ∧ (∀ route ∈ plan.routes, reserved.conflictsWith route.publicPath = false)
        ∧ plan.routes.Pairwise fun a b => pathsOverlap a.publicPath b.publicPath = false := by
  unfold Accepted validatePlan
  simp only [List.append_eq_nil_iff, claimFailures_eq_nil, overlapFailures_eq_nil, List.lookup_nil, and_true,
    and_assoc]
  refine and_congr_right fun _ => and_congr_right fun _ => and_iff_right_of_imp fun hpairwise => ?_
  refine List.pairwise_map.mpr (hpairwise.imp fun hoverlap heq => ?_)
  simp [pathsOverlap, pathHasPrefix, heq] at hoverlap

theorem intercalate_slash (front : List Char) (words : List String) :
    ['/'].intercalate (front :: words.map String.toList) = front ++ words.flatMap fun word => '/' :: word.toList := by
  induction words generalizing front with
  | nil => simp
  | cons word words ih =>
    rw [List.map_cons, List.intercalate_cons_cons, ih, List.flatMap_cons]
    simp

theorem toList_pathOf (words : List String) :
    (pathOf words).toList = words.flatMap fun word => '/' :: word.toList := by
  unfold pathOf Text.joinWith
  rw [String.toList_ofList, List.map_cons, intercalate_slash]
  rfl

theorem trimEndMatches_pathOf {words : List String} (h : ∀ text ∈ words, IsSegment text) :
    Text.trimEndMatches '/' (pathOf words) = pathOf words := by
  unfold Text.trimEndMatches
  rw [List.rdropWhile_eq_self_iff.mpr, String.ofList_toList]
  intro hne
  rcases List.eq_nil_or_concat words with rfl | ⟨front, last, rfl⟩
  · exact absurd rfl hne
  · obtain ⟨hlast, hslash⟩ := h last (by simp)
    have hne' : last.toList ≠ [] := fun hnil => hlast (String.toList_eq_nil_iff.mp hnil)
    simp only [toList_pathOf, List.concat_eq_append, List.flatMap_append, List.flatMap_singleton,
      List.getLast_append_of_ne_nil, ne_eq, reduceCtorEq, not_false_eq_true, List.getLast_cons hne']
    intro heq
    exact hslash (of_decide_eq_true heq ▸ List.getLast_mem hne')

/-- A path is at or below another where it begins with its segments. -/
theorem pathHasPrefix_pathOf {words path : List String} (h : ∀ text ∈ words, IsSegment text)
    (hfront : words <+: path) : pathHasPrefix (pathOf path) (pathOf words) = true := by
  obtain ⟨rest, rfl⟩ := hfront
  have happend : pathOf (words ++ rest) = pathOf words ++ pathOf rest := by
    apply String.toList_inj.mp
    simp [toList_pathOf]
  unfold pathHasPrefix
  rw [trimEndMatches_pathOf h, Text.stripPrefix_eq_some_iff.mpr happend]
  cases rest with
  | nil => simp
  | cons word rest => simp [Text.startsWithChar, toList_pathOf]

theorem prefix_of_agree {left right : List String}
    (h : agree (left.map .Literal) (right.map .Literal) = true) : left <+: right ∨ right <+: left := by
  induction left generalizing right with
  | nil => exact .inl (List.nil_prefix)
  | cons a left ih =>
    cases right with
    | nil => exact .inr List.nil_prefix
    | cons b right =>
      obtain ⟨hmeets, hagree⟩ := Bool.and_eq_true_iff.mp h
      obtain ⟨rfl, -⟩ := of_decide_eq_true hmeets
      simpa [List.cons_prefix_cons] using ih hagree

/-- A route whose public path is its segments, which are all texts. -/
def WrittenPlainly (route : StaticRouteDescriptor) : Prop :=
  ∃ words : List String, (∀ text ∈ words, IsSegment text) ∧ route.publicPath = pathOf words
    ∧ route.routeSegments = words.map .Literal

/-- **Validation decides right on routes without placeholders** that are written with one slash
before each segment. -/
theorem unambiguous_of_plain {plan : StaticRoutePlan} {reserved : ReservedRouteSet}
    (h : Accepted plan reserved) (hplain : ∀ route ∈ plan.routes, WrittenPlainly route) (path : String) :
    matchCount plan path ≤ 1 := by
  refine matchCount_le_one_iff.mpr ?_ path
  obtain ⟨-, -, hpairwise⟩ := accepted_iff.mp h
  refine hpairwise.imp_of_mem fun {a b} ha hb hoverlap => ?_
  obtain ⟨left, hleft, hpathLeft, hsegmentsLeft⟩ := hplain a ha
  obtain ⟨right, hright, hpathRight, hsegmentsRight⟩ := hplain b hb
  rw [hpathLeft, hpathRight, pathsOverlap, Bool.or_eq_false_iff] at hoverlap
  rw [hsegmentsLeft, hsegmentsRight, ← Bool.not_eq_true]
  intro hagree
  rcases prefix_of_agree hagree with hfront | hfront
  · exact absurd (pathHasPrefix_pathOf hleft hfront) (by simp [hoverlap.2])
  · exact absurd (pathHasPrefix_pathOf hright hfront) (by simp [hoverlap.1])

/-! ### Unambiguous plans -/

/-- **A plan that validation accepts is unambiguous** exactly where no two of its routes
agree on the length they share. -/
theorem unambiguous_iff (plan : StaticRoutePlan) (reserved : ReservedRouteSet) :
    (Accepted plan reserved → ∀ path, matchCount plan path ≤ 1) ↔
      (Accepted plan reserved →
        plan.routes.Pairwise fun a b => agree a.routeSegments b.routeSegments = false) := by
  rw [matchCount_le_one_iff]

/-- A legacy route at a public path. -/
def routeAt (publicPath : String) (segments : List RouteScopeSegment) : StaticRouteDescriptor where
  routeId := publicPath
  packId := "web"
  packPath := "web.gtpack"
  publicPath
  sourceRoot := "assets"
  indexFile := none
  spaFallback := none
  tenantScoped := segments.contains .Tenant
  teamScoped := segments.contains .Team
  cacheStrategy := .None
  routeSegments := segments
  scope := none

/-- A tenant's page and a page with a name of its own. -/
def tenantAndDocs : StaticRoutePlan where
  routes := [routeAt "/v1/{tenant}" [.Literal "v1", .Tenant],
    routeAt "/v1/docs" [.Literal "v1", .Literal "docs"]]
  warnings := []
  blockingFailures := []

theorem docs_taken_twice :
    ¬ ∀ plan reserved, (∀ route ∈ plan.routes, route.scope = none) → Accepted plan reserved →
      ∀ path, matchCount plan path ≤ 1 := by
  intro h
  have haccepted : Accepted tenantAndDocs .operatorDefaults := by
    unfold Accepted
    decide +kernel
  exact absurd (h tenantAndDocs .operatorDefaults (by decide +kernel) haccepted "/v1/docs/app.js")
    (by decide +kernel)

end StaticRoutes
