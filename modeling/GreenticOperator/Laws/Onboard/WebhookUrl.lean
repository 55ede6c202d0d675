import GreenticOperator.Laws.StaticRoutes.Reserved
import GreenticOperator.Onboard.Submit
import GreenticOperator.Onboard.WebhookSetup

/-!
# The address a webhook is registered under, and the route it is read as

The address is joined of names as they are, and its path is read segment by segment. So it leads back
to the tenant and the team it was registered for exactly where the names are segments of a path: not
empty, and without a slash, a question mark or a hash (`route_buildWebhookUrl_iff`).
-/

namespace Onboard

open HttpIngress (ParsedIngressRoute parseRouteSegments)
open StaticRoutes (IsSegment parts pathOf isSegment_of_mem_parts parts_pathOf parseRouteSegments_eq)

/-- The path of an address: what stands between its host and a query or a fragment. -/
def urlPath (url : String) : String :=
  String.ofList (((((Text.afterFirst "://" url).getD "").toList.dropWhile fun c => c != '/' && c != '?' && c != '#')).takeWhile
    fun c => c != '?' && c != '#')

/-- A name that is a segment of an address. -/
structure IsName (text : String) : Prop where
  segment : IsSegment text
  no_query : '?' ∉ text.toList
  no_fragment : '#' ∉ text.toList

/-- A host ends where a path, a query or a fragment begins. -/
structure IsHost (host : String) : Prop where
  not_empty : host ≠ ""
  chars : ∀ c ∈ host.toList, c ≠ '/' ∧ c ≠ '?' ∧ c ≠ '#'

/-- An https address of a host, with any slashes behind it. -/
def httpsBase (host : String) (slashes : Nat) : String :=
  "https://" ++ host ++ String.ofList (List.replicate slashes '/')

theorem afterFirst_https (rest : String) : Text.afterFirst "://" ("https://" ++ rest) = some rest := by
  have htails : ("https://" ++ rest).toList.tails.find? "://".toList.isPrefixOf
      = some ("://".toList ++ rest.toList) := by
    rw [String.toList_append]
    rfl
  unfold Text.afterFirst
  rw [htails, Option.map_some, List.drop_left, String.ofList_toList]

theorem trimEndMatches_httpsBase {host : String} (h : IsHost host) (slashes : Nat) :
    Text.trimEndMatches '/' (httpsBase host slashes) = "https://" ++ host := by
  have hslashes : ∀ l : List Char, (l ++ List.replicate slashes '/').rdropWhile (· == '/') = l.rdropWhile (· == '/') := by
    intro l
    induction slashes with
    | zero => rw [List.replicate_zero, List.append_nil]
    | succ n ih => rw [List.replicate_succ', ← List.append_assoc, List.rdropWhile_concat_pos _ _ _ rfl, ih]
  have hlast : (("https://" ++ host).toList).rdropWhile (· == '/') = ("https://" ++ host).toList := by
    rw [String.toList_append]
    have hne : host.toList ≠ [] := fun hnil => h.not_empty (String.toList_eq_nil_iff.mp hnil)
    obtain ⟨init, last, hhost⟩ := List.eq_nil_or_concat' host.toList |>.resolve_left hne
    have hchar := h.chars last (hhost ▸ List.mem_append_right _ (List.mem_singleton_self last))
    rw [hhost, ← List.append_assoc, List.rdropWhile_concat_neg]
    exact fun heq => hchar.1 (beq_iff_eq.mp heq)
  unfold Text.trimEndMatches httpsBase
  rw [String.toList_append, String.toList_ofList, hslashes, hlast, String.ofList_toList]

/-- The path of an address of a host is what follows the host, up to a query or a fragment. -/
theorem urlPath_of_host {host : String} (h : IsHost host) (path : String) (hpath : path.toList.head? = some '/') :
    urlPath ("https://" ++ host ++ path) = String.ofList (path.toList.takeWhile fun c => c != '?' && c != '#') := by
  unfold urlPath
  rw [String.append_assoc, afterFirst_https, Option.getD_some, String.toList_append]
  have hhost : ∀ c ∈ host.toList, (c != '/' && c != '?' && c != '#') = true := by
    intro c hc
    obtain ⟨hslash, hquery, hfragment⟩ := h.chars c hc
    simp [hslash, hquery, hfragment]
  obtain ⟨rest, hrest⟩ := List.head?_eq_some_iff.mp hpath
  rw [List.dropWhile_append_of_pos hhost, hrest, List.dropWhile_cons_of_neg (by decide)]

/-! ## Reading a path -/

/-- The route names parts of the path, and the default team. -/
theorem mem_parts_of_parsed {path : String} {route : ParsedIngressRoute} (h : parseRouteSegments path = some route) :
    route.provider ∈ parts path ∧ route.tenant ∈ parts path ∧ (route.team ∈ parts path ∨ route.team = "default") := by
  have hlegacy : ∀ segments : List String, HttpIngress.parseLegacyRoute segments = some route →
      route.provider ∈ segments ∧ route.tenant ∈ segments ∧ (route.team ∈ segments ∨ route.team = "default") := by
    intro segments hparsed
    unfold HttpIngress.parseLegacyRoute at hparsed
    split at hparsed
    next domain ingress provider tenant rest =>
      split at hparsed
      next =>
        obtain ⟨found, -, rfl⟩ := Option.map_eq_some_iff.mp hparsed
        refine ⟨by simp, by simp, ?_⟩
        cases rest with
        | nil => exact .inr rfl
        | cons team rest => exact .inl (by simp)
      next => cases hparsed
    next => cases hparsed
  rw [parseRouteSegments_eq] at h
  cases hparts : parts path with
  | nil =>
    rw [hparts] at h
    cases h
  | cons first rest =>
    rw [hparts] at h
    dsimp only at h
    split at h
    · obtain ⟨hprovider, htenant, hteam⟩ := hlegacy rest h
      exact ⟨List.mem_cons_of_mem _ hprovider, List.mem_cons_of_mem _ htenant, hteam.imp_left (List.mem_cons_of_mem _)⟩
    · exact hlegacy _ h

theorem subset_of_mem_parts {path text : String} (h : text ∈ parts path) : ∀ c ∈ text.toList, c ∈ path.toList := by
  intro c hc
  unfold parts Text.split at h
  obtain ⟨piece, hpiece, rfl⟩ := List.mem_map.mp (List.mem_filter.mp h).1
  rw [String.toList_ofList] at hc
  have hcount := (Text.countP_piece (p := (· == c)) hpiece).1
  have hpos : 0 < piece.countP (· == c) := List.countP_pos_iff.mpr ⟨c, hc, beq_self_eq_true c⟩
  obtain ⟨d, hd, heq⟩ := List.countP_pos_iff.mp (Nat.lt_of_lt_of_le hpos hcount)
  exact beq_iff_eq.mp heq ▸ hd

/-! ## The round trip -/

/-- What is behind the host of the address of a webhook. -/
def webhookPath (providerId tenant team : String) : String :=
  "/v1/messaging/ingress/" ++ providerId ++ "/" ++ tenant ++ "/" ++ team

theorem buildWebhookUrl_eq {host : String} (h : IsHost host) (slashes : Nat) (providerId tenant team : String) :
    buildWebhookUrl (httpsBase host slashes) providerId tenant team
      = "https://" ++ host ++ webhookPath providerId tenant team := by
  unfold buildWebhookUrl webhookPath
  rw [trimEndMatches_httpsBase h]
  simp only [String.append_assoc]

theorem webhookPath_eq (providerId tenant team : String) :
    webhookPath providerId tenant team = pathOf ["v1", "messaging", "ingress", providerId, tenant, team] := by
  unfold webhookPath pathOf Text.joinWith
  rw [← String.toList_inj, String.toList_ofList]
  simp [String.toList_append, List.intercalate]

/-- The address of names is read as them. -/
theorem parse_webhookPath {providerId tenant team : String} (hprovider : IsSegment providerId) (htenant : IsSegment tenant)
    (hteam : IsSegment team) : parseRouteSegments (webhookPath providerId tenant team)
      = some ⟨.Messaging, providerId, tenant, team, none⟩ := by
  have hsegments : ∀ text ∈ ["v1", "messaging", "ingress", providerId, tenant, team], IsSegment text := by
    intro text htext
    simp only [List.mem_cons, List.not_mem_nil, or_false] at htext
    rcases htext with rfl | rfl | rfl | rfl | rfl | rfl
    · decide
    · decide
    · decide
    · exact hprovider
    · exact htenant
    · exact hteam
  have hv1 : Text.eqIgnoreAsciiCase "v1" "v1" = true := beq_self_eq_true _
  have hingress : Text.eqIgnoreAsciiCase "ingress" "ingress" = true := beq_self_eq_true _
  have hdomain : HttpIngress.parseDomain "messaging" = some .Messaging := by decide
  rw [webhookPath_eq, parseRouteSegments_eq, parts_pathOf hsegments]
  dsimp only
  rw [if_pos hv1]
  unfold HttpIngress.parseLegacyRoute
  dsimp only
  rw [if_pos hingress, hdomain]
  rfl

/-- A part of the path of an address is a name. -/
theorem isName_of_mem_parts {path text : String}
    (h : text ∈ parts (String.ofList (path.toList.takeWhile fun c => c != '?' && c != '#'))) : IsName text := by
  have hchars := subset_of_mem_parts h
  rw [String.toList_ofList] at hchars
  refine ⟨isSegment_of_mem_parts h, fun hquery => ?_, fun hfragment => ?_⟩
  · have hkept := List.mem_takeWhile_imp (hchars _ hquery)
    simp at hkept
  · have hkept := List.mem_takeWhile_imp (hchars _ hfragment)
    simp at hkept

/-- **The address of a webhook leads back** to the provider, the tenant and the team it was registered
for exactly where they are names. -/
theorem route_buildWebhookUrl_iff {host : String} (hhost : IsHost host) (slashes : Nat) (providerId tenant : String)
    (team : Option String) :
    parseRouteSegments (urlPath (buildWebhookUrl (httpsBase host slashes) providerId tenant (team.getD "default")))
        = some ⟨.Messaging, providerId, tenant, team.getD "default", none⟩
      ↔ IsName providerId ∧ IsName tenant ∧ IsName (team.getD "default") := by
  have hslash : (webhookPath providerId tenant (team.getD "default")).toList.head? = some '/' := by
    unfold webhookPath
    simp only [String.toList_append]
    rfl
  rw [buildWebhookUrl_eq hhost, urlPath_of_host hhost _ hslash]
  constructor
  · intro hparsed
    obtain ⟨hprovider, htenant, hteam⟩ := mem_parts_of_parsed hparsed
    refine ⟨isName_of_mem_parts hprovider, isName_of_mem_parts htenant, ?_⟩
    rcases hteam with hteam | hteam
    · exact isName_of_mem_parts hteam
    · have hdefault : team.getD "default" = "default" := hteam
      rw [hdefault]
      exact ⟨by decide, by decide, by decide⟩
  · rintro ⟨hprovider, htenant, hteam⟩
    have hkeep : (webhookPath providerId tenant (team.getD "default")).toList.takeWhile (fun c => c != '?' && c != '#')
        = (webhookPath providerId tenant (team.getD "default")).toList := by
      rw [List.takeWhile_eq_self_iff]
      intro c hc
      have hname : ∀ {text : String}, IsName text → c ∈ text.toList → (c != '?' && c != '#') = true := by
        intro text htext hmem
        rw [Bool.and_eq_true, bne_iff_ne, bne_iff_ne]
        exact ⟨fun heq => htext.no_query (heq ▸ hmem), fun heq => htext.no_fragment (heq ▸ hmem)⟩
      unfold webhookPath at hc
      simp only [String.toList_append, List.mem_append] at hc
      rcases hc with ((((hc | hc) | hc) | hc) | hc) | hc
      · exact List.all_eq_true.mp (by decide : ("/v1/messaging/ingress/".toList.all fun c => c != '?' && c != '#') = true) c hc
      · exact hname hprovider hc
      · exact List.all_eq_true.mp (by decide : ("/".toList.all fun c => c != '?' && c != '#') = true) c hc
      · exact hname htenant hc
      · exact List.all_eq_true.mp (by decide : ("/".toList.all fun c => c != '?' && c != '#') = true) c hc
      · exact hname hteam hc
    rw [hkeep, String.ofList_toList]
    exact parse_webhookPath hprovider.segment htenant.segment hteam.segment

theorem route_buildWebhookUrl_telegram :
    parseRouteSegments (urlPath (buildWebhookUrl (httpsBase "bot.example" 1) "messaging-telegram" "acme"
        (Option.getD none "default"))) = some ⟨.Messaging, "messaging-telegram", "acme", Option.getD none "default", none⟩
      ↔ IsName "messaging-telegram" ∧ IsName "acme" ∧ IsName (Option.getD none "default") :=
  route_buildWebhookUrl_iff ⟨by decide, List.forall_iff_forall_mem.mp (by decide)⟩ 1 "messaging-telegram" "acme" none

/-- What a request may ask for: a tenant with a slash. -/
def slashedTenant : Json.Value :=
  .object [("provider_id", .string "messaging-telegram"), ("tenant", .string "acme/emea")]

/-- A tenant with a slash is accepted, and its webhook leads to another tenant. -/
theorem slashed_tenant_leads_elsewhere :
    (parseRequest slashedTenant).toOption.map (fun params => (params.providerId, params.tenant, params.team))
        = some ("messaging-telegram", "acme/emea", none)
      ∧ parseRouteSegments (urlPath (buildWebhookUrl (httpsBase "bot.example" 0) "messaging-telegram" "acme/emea"
          (Option.getD none "default"))) = some ⟨.Messaging, "messaging-telegram", "acme", "emea", some "default"⟩ := by
  constructor
  · decide
  · decide +kernel

/-- A webhook is registered under the address of a provider that is a name. -/
theorem isName_of_requested {providerId tenant : String} {team : Option String} {config : Json.Value} {url webhookUrl : String}
    (h : tryProviderSetupWebhook providerId tenant team config = .requested url webhookUrl) : IsName providerId := by
  have hcases : ∀ short, (Text.stripPrefix "messaging-" providerId).getD providerId = short →
      providerId = short ∨ providerId = "messaging-" ++ short := by
    intro short hshort
    cases hstrip : Text.stripPrefix "messaging-" providerId with
    | none =>
      rw [hstrip] at hshort
      exact .inl hshort
    | some rest =>
      rw [hstrip] at hshort
      have hrest : rest = short := hshort
      exact .inr (hrest ▸ Text.stripPrefix_eq_some_iff.mp hstrip)
  unfold tryProviderSetupWebhook at h
  split at h
  next => cases h
  next =>
    dsimp only at h
    split at h
    next => cases h
    next =>
      split at h
      next hshort =>
        rcases hcases _ hshort with rfl | rfl
        · exact ⟨by decide, by decide, by decide⟩
        · exact ⟨by decide, by decide, by decide⟩
      next =>
        split at h
        next hshort =>
          rcases hcases _ hshort with rfl | rfl
          · exact ⟨by decide, by decide, by decide⟩
          · exact ⟨by decide, by decide, by decide⟩
        next =>
          split at h
          next hshort =>
            rcases hcases _ hshort with rfl | rfl
            · exact ⟨by decide, by decide, by decide⟩
            · exact ⟨by decide, by decide, by decide⟩
          next => cases h

end Onboard
