import GreenticOperator.Lib.Bytes
import GreenticOperator.Lib.Fresh
import GreenticOperator.Laws.Onboard.Webex

/-!
# Whether the webhooks of Webex converge

Nothing is asked of the resource and the event of a webhook, nor whether another has the name or the
address, and two pairs have the same names where a colon is in them. So the webhooks are set up rightly
exactly under conditions on the names, the token and the webhooks that are there (`setsUpRightly_iff`).
-/

namespace Onboard.Webex

open Json Json.Value
open Text (CutsAt byteLength)

/-! ## The names -/

section Names

variable {tenant team url : String} {hooks shown after : List Hook} {hook : Hook} {subscription : Subscription}

theorem mem_subscriptions_iff : subscription ∈ subscriptions tenant team ↔
    subscription = ⟨"messages", "created", baseName tenant team⟩
      ∨ subscription = ⟨"attachmentActions", "created", baseName tenant team ++ ":cards"⟩ := by
  unfold subscriptions
  rw [List.mem_cons, List.mem_singleton]

/-- The names of one pair differ. -/
theorem baseName_ne_cards (tenant team : String) : baseName tenant team ≠ baseName tenant team ++ ":cards" := by
  intro h
  have hlength := congrArg String.length h
  rw [String.length_append] at hlength
  have hcards : ":cards".length = 6 := rfl
  omega

/-- Of one pair, the subscription follows from the name. -/
theorem eq_of_name_eq {other : Subscription} (h : subscription ∈ subscriptions tenant team)
    (hother : other ∈ subscriptions tenant team) (hname : subscription.name = other.name) : subscription = other := by
  rcases mem_subscriptions_iff.mp h with rfl | rfl
  · rcases mem_subscriptions_iff.mp hother with rfl | rfl
    · rfl
    · exact absurd hname (baseName_ne_cards tenant team)
  · rcases mem_subscriptions_iff.mp hother with rfl | rfl
    · exact absurd hname.symm (baseName_ne_cards tenant team)
    · rfl

/-- A webhook is reached under its own name alone. -/
theorem reached_iff (h : subscription ∈ subscriptions tenant team) (hname : hook.name = subscription.name) :
    reached shown (subscriptions tenant team) hook = true ↔ firstNamed shown subscription = some hook := by
  unfold reached
  rw [List.any_eq_true]
  constructor
  · rintro ⟨other, hother, hfirst⟩
    have hfirst := beq_iff_eq.mp hfirst
    have hsame := eq_of_name_eq h hother (hname.symm.trans (name_of_firstNamed hfirst))
    exact hsame ▸ hfirst
  · intro hfirst
    exact ⟨subscription, h, beq_iff_eq.mpr hfirst⟩

/-! ## What it is to converge -/

/-- A webhook is for the resource and the event of a subscription, at the address. -/
def Serves (url : String) (subscription : Subscription) (hook : Hook) : Prop :=
  hook.resource = subscription.resource ∧ hook.event = subscription.event ∧ hook.targetUrl = url

instance : Decidable (Serves url subscription hook) := inferInstanceAs (Decidable (_ ∧ _ ∧ _))

/-- Exactly one webhook will be for the subscription at the address, and the first under its name has it. -/
structure Reconcilable (hooks shown : List Hook) (url tenant team : String) (subscription : Subscription) : Prop where
  one : hooks.countP (fun hook => decide (hook.resource = subscription.resource ∧ hook.event = subscription.event
      ∧ (hook.targetUrl = url ∨ reached shown (subscriptions tenant team) hook = true)))
    + (if (firstNamed shown subscription).isNone then 1 else 0) = 1
  first : ∀ hook, firstNamed hooks subscription = some hook →
    hook.targetUrl = url ∨ firstNamed shown subscription = some hook

theorem countP_after (h : After hooks shown url (subscriptions tenant team) after)
    (hmem : subscription ∈ subscriptions tenant team) :
    after.countP (fun hook => decide (Serves url subscription hook))
      = hooks.countP (fun hook => decide (hook.resource = subscription.resource ∧ hook.event = subscription.event
          ∧ (hook.targetUrl = url ∨ reached shown (subscriptions tenant team) hook = true)))
        + (if (firstNamed shown subscription).isNone then 1 else 0) := by
  obtain ⟨-, created, rfl, hcreated⟩ := h
  rw [List.countP_append, List.countP_map]
  congr 1
  · refine List.countP_congr fun hook _ => ?_
    rw [Function.comp_apply, decide_eq_true_iff, decide_eq_true_iff]
    unfold Serves
    rw [resource_touch, event_touch, targetUrl_touch]
    split
    next hreached => simp [hreached]
    next hreached => simp [hreached]
  · have hserves : created.countP (fun hook => decide (Serves url subscription hook))
        = (created.map besidesId).countP (fun made => decide (made.2.2.1 = subscription.resource
            ∧ made.2.2.2 = subscription.event ∧ made.2.1 = url)) := by
      rw [List.countP_map]
      rfl
    have hmade : created.countP (fun hook => decide (Serves url subscription hook))
        = (subscriptions tenant team).countP (fun other => decide (other.resource = subscription.resource
            ∧ other.event = subscription.event) && (firstNamed shown other).isNone) := by
      rw [hserves, hcreated, List.countP_map, List.countP_filter]
      refine List.countP_congr fun other _ => ?_
      rw [Function.comp_apply]
      simp [made]
    rw [hmade]
    unfold subscriptions
    rcases mem_subscriptions_iff.mp hmem with rfl | rfl
    · rw [List.countP_cons, List.countP_cons, List.countP_nil]
      simp
    · rw [List.countP_cons, List.countP_cons, List.countP_nil]
      simp

/-- The first webhook under a name afterwards. -/
theorem firstNamed_after_of_some (h : After hooks shown url (subscriptions tenant team) after)
    (hfirst : firstNamed hooks subscription = some hook) :
    firstNamed after subscription = some (touch shown url (subscriptions tenant team) hook) := by
  obtain ⟨-, created, rfl, -⟩ := h
  unfold firstNamed at hfirst ⊢
  have hname : (fun hook : Hook => hook.name == subscription.name) ∘ touch shown url (subscriptions tenant team)
      = fun hook => hook.name == subscription.name := by
    funext hook
    rw [Function.comp_apply, name_touch]
  rw [List.find?_append, List.find?_map, hname, hfirst]
  rfl

/-- A name that no webhook had has the one that was made for it. -/
theorem firstNamed_after_of_none (h : After hooks shown url (subscriptions tenant team) after) (hshown : shown ⊆ hooks)
    (hmem : subscription ∈ subscriptions tenant team) (hfirst : firstNamed hooks subscription = none) :
    ∃ found, firstNamed after subscription = some found ∧ found.targetUrl = url := by
  have hnotShown : firstNamed shown subscription = none := by
    refine List.find?_eq_none.mpr fun hook hhook => ?_
    exact List.find?_eq_none.mp hfirst hook (hshown hhook)
  obtain ⟨-, created, rfl, hcreated⟩ := h
  have hwanted : made url subscription ∈ created.map besidesId := by
    rw [hcreated]
    refine List.mem_map_of_mem (List.mem_filter.mpr ⟨hmem, ?_⟩)
    rw [hnotShown]
    rfl
  obtain ⟨new, hnew, heq⟩ := List.mem_map.mp hwanted
  have hold : (hooks.map (touch shown url (subscriptions tenant team))).find?
      (fun hook => hook.name == subscription.name) = none := by
    refine List.find?_eq_none.mpr fun hook hhook => ?_
    obtain ⟨before, hbefore, rfl⟩ := List.mem_map.mp hhook
    rw [name_touch]
    exact List.find?_eq_none.mp hfirst before hbefore
  have hsome : (created.find? fun hook => hook.name == subscription.name).isSome = true := by
    rw [List.find?_isSome]
    exact ⟨new, hnew, beq_iff_eq.mpr (congrArg Prod.fst heq)⟩
  obtain ⟨found, hfound⟩ := Option.isSome_iff_exists.mp hsome
  refine ⟨found, ?_, ?_⟩
  · unfold firstNamed
    rw [List.find?_append, hold, hfound]
    rfl
  · have hin : besidesId found ∈ created.map besidesId := List.mem_map_of_mem (List.mem_of_find?_eq_some hfound)
    rw [hcreated] at hin
    obtain ⟨other, -, hother⟩ := List.mem_map.mp hin
    exact (congrArg (fun parts => parts.2.1) hother).symm

/-- Every name has the address first afterwards exactly where what was first under it had it, or was shown first. -/
theorem upToDate_after_iff (h : After hooks shown url (subscriptions tenant team) after) (hshown : shown ⊆ hooks)
    (hmem : subscription ∈ subscriptions tenant team) :
    (∃ found, firstNamed after subscription = some found ∧ found.targetUrl = url)
      ↔ ∀ hook, firstNamed hooks subscription = some hook →
          hook.targetUrl = url ∨ firstNamed shown subscription = some hook := by
  cases hfirst : firstNamed hooks subscription with
  | none => exact iff_of_true (firstNamed_after_of_none h hshown hmem hfirst) nofun
  | some found =>
    rw [firstNamed_after_of_some h hfirst]
    have hreached : reached shown (subscriptions tenant team) found = true ↔ firstNamed shown subscription = some found :=
      reached_iff hmem (name_of_firstNamed hfirst)
    constructor
    · rintro ⟨last, hlast, hurl⟩ hook hhook
      rw [← Option.some.inj hlast, targetUrl_touch] at hurl
      rw [← Option.some.inj hhook]
      split at hurl
      next hyes => exact Or.inr (hreached.mp hyes)
      next => exact Or.inl hurl
    · intro hboth
      refine ⟨_, rfl, ?_⟩
      rw [targetUrl_touch]
      rcases hboth found rfl with hurl | hshownFirst
      · rw [hurl, ite_self]
      · rw [if_pos (hreached.mpr hshownFirst)]

/-- A name that is not one of the pair's is left as it is. -/
def Managed (tenant team name : String) : Prop := name ∈ (subscriptions tenant team).map (·.name)

instance (tenant team name : String) : Decidable (Managed tenant team name) :=
  inferInstanceAs (Decidable (_ ∈ List.map _ _))

theorem others_after (h : After hooks shown url (subscriptions tenant team) after) :
    after.filter (fun hook => decide (¬ Managed tenant team hook.name))
      = hooks.filter fun hook => decide (¬ Managed tenant team hook.name) := by
  obtain ⟨-, created, rfl, hcreated⟩ := h
  have hnew : created.filter (fun hook => decide (¬ Managed tenant team hook.name)) = [] := by
    refine List.filter_eq_nil_iff.mpr fun hook hhook => ?_
    have hin : besidesId hook ∈ created.map besidesId := List.mem_map_of_mem hhook
    rw [hcreated] at hin
    obtain ⟨other, hother, heq⟩ := List.mem_map.mp hin
    have hname : hook.name = other.name := (congrArg Prod.fst heq).symm
    rw [decide_eq_true_iff, not_not, hname]
    exact List.mem_map_of_mem (List.mem_of_mem_filter hother)
  rw [List.filter_append, hnew, List.append_nil]
  clear hcreated hnew
  induction hooks with
  | nil => rfl
  | cons hook hooks ih =>
    rw [List.map_cons, List.filter_cons, List.filter_cons, name_touch, ih]
    by_cases hmanaged : Managed tenant team hook.name
    · rw [decide_eq_false (not_not.mpr hmanaged)]
      rfl
    · have hnot : reached shown (subscriptions tenant team) hook = false := by
        rw [Bool.eq_false_iff]
        intro hreached
        obtain ⟨subscription, hmem, hfirst⟩ := List.any_eq_true.mp hreached
        have hname := name_of_firstNamed (beq_iff_eq.mp hfirst)
        exact hmanaged (List.mem_map.mpr ⟨subscription, hmem, hname.symm⟩)
      have hsame : touch shown url (subscriptions tenant team) hook = hook := by
        unfold touch
        rw [hnot]
        rfl
      rw [hsame]

/-- The names of a pair, and those of another that has the same. -/
theorem name_ne_of_pair_ne {tenant' team' : String} (htenant : ':' ∉ tenant.toList) (hteam : ':' ∉ team.toList)
    (hpair : (tenant', team') ≠ (tenant, team)) {other : Subscription} (hmem : subscription ∈ subscriptions tenant team)
    (hother : other ∈ subscriptions tenant' team') : subscription.name ≠ other.name := by
  have hbase : ∀ tenant team : String, (baseName tenant team).toList
      = "greentic:".toList ++ (tenant.toList ++ ':' :: team.toList) ++ ":webex".toList := by
    intro tenant team
    unfold baseName
    simp only [String.toList_append, List.append_assoc]
    rfl
  have hsame : ∀ front back : List Char, "greentic:".toList ++ (tenant.toList ++ ':' :: team.toList) ++ front
      = "greentic:".toList ++ (tenant'.toList ++ ':' :: team'.toList) ++ back → front = back → False := by
    rintro front _ heq rfl
    have hmiddle := List.append_cancel_left (List.append_cancel_right heq)
    obtain ⟨htenants, -, hteams⟩ := (List.append_cons_inj_of_notMem htenant hteam).mp hmiddle
    exact hpair (Prod.ext (String.toList_injective htenants.symm) (String.toList_injective hteams.symm))
  intro hname
  have hname := congrArg String.toList hname
  rcases mem_subscriptions_iff.mp hmem with rfl | rfl <;> rcases mem_subscriptions_iff.mp hother with rfl | rfl
  · rw [hbase, hbase] at hname
    exact hsame _ _ hname rfl
  · -- The one ends in `:webex` and the other in `:cards`.
    rw [String.toList_append, hbase, hbase] at hname
    have hends := (List.append_inj' hname rfl).2
    exact absurd hends (by decide)
  · rw [String.toList_append, hbase, hbase] at hname
    have hends := (List.append_inj' hname rfl).2
    exact absurd hends (by decide)
  · rw [String.toList_append, String.toList_append, hbase, hbase] at hname
    exact hsame _ _ (List.append_cancel_right hname) rfl

theorem exists_of_mem_colon {text : String} (h : ':' ∈ text.toList) : ∃ front back, text = front ++ ":" ++ back := by
  obtain ⟨front, back, heq⟩ := List.append_of_mem h
  refine ⟨String.ofList front, String.ofList back, String.toList_injective ?_⟩
  rw [heq, String.toList_append, String.toList_append, String.toList_ofList (l := front),
    String.toList_ofList (l := back), List.append_assoc]
  rfl

/-- **The names of a pair are its own** exactly where no colon is in it. -/
theorem names_apart_iff : (∀ tenant' team', (tenant', team') ≠ (tenant, team) →
      ∀ subscription ∈ subscriptions tenant team, ∀ other ∈ subscriptions tenant' team',
        subscription.name ≠ other.name)
    ↔ ':' ∉ tenant.toList ∧ ':' ∉ team.toList := by
  constructor
  · intro h
    have hclash : ∀ tenant' team', baseName tenant team = baseName tenant' team' →
        (tenant', team') = (tenant, team) := by
      intro tenant' team' hname
      by_contra hpair
      exact h tenant' team' hpair _ List.mem_cons_self _ List.mem_cons_self hname
    constructor
    · intro hcolon
      obtain ⟨front, back, htenant⟩ := exists_of_mem_colon hcolon
      have hsame := hclash front (back ++ ":" ++ team) (by
        rw [htenant]
        unfold baseName
        simp only [String.append_assoc])
      have hlength := congrArg String.length (congrArg Prod.fst hsame)
      dsimp only at hlength
      rw [htenant, String.length_append, String.length_append] at hlength
      have hone : ":".length = 1 := rfl
      omega
    · intro hcolon
      obtain ⟨front, back, hteam⟩ := exists_of_mem_colon hcolon
      have hsame := hclash (tenant ++ ":" ++ front) back (by
        rw [hteam]
        unfold baseName
        simp only [String.append_assoc])
      have hlength := congrArg String.length (congrArg Prod.fst hsame)
      dsimp only at hlength
      rw [String.length_append, String.length_append] at hlength
      have hone : ":".length = 1 := rfl
      omega
  · rintro ⟨htenant, hteam⟩ tenant' team' hpair subscription hmem other hother
    exact name_ne_of_pair_ne htenant hteam hpair hmem hother

end Names

/-! ## A service that never fails -/

def numbered (n : Nat) : String := String.ofList (List.replicate n 'x')

theorem numbered_injective : Function.Injective numbered := by
  intro m n h
  have hlength := congrArg (fun text => text.toList.length) h
  simpa [numbered] using hlength

/-- An id that no webhook has. -/
def freshId (hooks : List Hook) : String :=
  numbered (Fresh.firstFree (hooks.map (·.id)) numbered (hooks.map (·.id)).length 0)

theorem freshId_not_mem (hooks : List Hook) : freshId hooks ∉ hooks.map (·.id) :=
  Fresh.firstFree_not_mem (hooks.map (·.id)) numbered_injective 0

/-- A webhook in a list. -/
def listed (hook : Hook) : Value :=
  ofFields [("id", string hook.id), ("name", string hook.name), ("targetUrl", string hook.targetUrl)]

/-- The service answers every request, and lists the webhooks that are given. -/
def steady (shown : List Hook) : Service where
  list _ := .ok (object [("items", array (shown.map listed))])
  create name targetUrl resource event hooks :=
    (.ok (200, null), hooks ++ [⟨freshId hooks, name, targetUrl, resource, event⟩])
  update id name targetUrl hooks :=
    if id ∈ hooks.map (·.id) then
      (.ok (200, null), hooks.map fun hook => if hook.id = id then { hook with name, targetUrl } else hook)
    else (.error "not found", hooks)

theorem lawful_steady (shown : List Hook) : (steady shown).Lawful where
  create_ok := by
    intro name targetUrl resource event hooks after status body hcall _
    obtain ⟨-, rfl⟩ := Prod.mk.inj hcall
    exact ⟨freshId hooks, freshId_not_mem hooks, rfl⟩
  update_ok := by
    intro id name targetUrl hooks after status body hcall _
    change (if id ∈ hooks.map (·.id) then _ else _) = _ at hcall
    split at hcall
    next hmem => exact ⟨hmem, (Prod.mk.inj hcall).2.symm⟩
    next => cases (Prod.mk.inj hcall).1

theorem readHook_listed (hook : Hook) : readHook (listed hook) = some (hook.name, hook.id, hook.targetUrl) := by
  have hnodup : ["id", "name", "targetUrl"].Nodup := by decide
  have hget : ∀ key, (listed hook).get key = List.lookup key
      [("id", string hook.id), ("name", string hook.name), ("targetUrl", string hook.targetUrl)] :=
    get_ofFields hnodup
  unfold readHook stringField
  rw [hget, hget, hget]
  rfl

theorem listsAs_steady (hooks shown : List Hook) : (steady shown).ListsAs hooks shown := by
  intro items hitems
  have heq : items = shown.map listed := (Except.ok.inj hitems).symm
  rw [heq]
  unfold Reads
  rw [List.filterMap_map, ← List.filterMap_eq_map]
  congr 1
  funext hook
  exact readHook_listed hook

section Steady

variable {listing hooks shown before : List Hook} {items : List Value} {url : String} {done : List Subscription}

theorem isOk_reconcileOne_steady (hreads : Reads items shown) (hshown : shown ⊆ hooks) {subscription : Subscription}
    (h : After hooks shown url done before) :
    isOk (webexReconcileOne (steady listing) items url subscription before).1 = true := by
  rw [webexReconcileOne_eq hreads]
  cases hfirst : firstNamed shown subscription with
  | none => exact isOk_ofFields true (by simp)
  | some found =>
    dsimp only
    split
    next => exact isOk_ofFields true (by simp)
    next =>
      have hmem : found.id ∈ before.map (·.id) := by
        obtain ⟨-, created, rfl, -⟩ := h
        rw [List.map_append, List.mem_append]
        refine Or.inl (List.mem_map.mpr ⟨touch shown url done found, ?_, id_touch found⟩)
        exact List.mem_map_of_mem (hshown (mem_of_firstNamed hfirst))
      have hcall : (steady listing).update found.id subscription.name url before = (.ok (200, null), before.map fun hook =>
          if hook.id = found.id then { hook with name := subscription.name, targetUrl := url } else hook) := if_pos hmem
      unfold webexUpdateWebhook
      rw [hcall]
      exact isOk_ofFields true (by simp)

theorem reconcileAll_steady (hreads : Reads items shown) (hshown : shown ⊆ hooks) (rest : List Subscription)
    (h : After hooks shown url done before) :
    (Webex.reconcileAll (steady listing) items url rest before).1.1 = true := by
  induction rest generalizing done before with
  | nil => rfl
  | cons subscription rest ih =>
    have hone : isOk (webexReconcileOne (steady listing) items url subscription before).1 = true :=
      isOk_reconcileOne_steady hreads hshown h
    have hafter : After hooks shown url (done ++ [subscription])
        (webexReconcileOne (steady listing) items url subscription before).2 :=
      h.reconcileOne (lawful_steady listing) hreads hshown rfl hone
    unfold Webex.reconcileAll
    dsimp only
    rw [hone, ih hafter]
    rfl

end Steady

/-! ## The setup -/

/-- The ends of a token can be shown: it is short, or it can be cut five bytes from the one and four from the other. -/
def Previewable (token : String) : Prop :=
  byteLength token.toList ≤ 10 ∨ CutsAt 5 token.toList ∧ CutsAt (byteLength token.toList - 4) token.toList

theorem isSome_tokenPreview_iff (token : String) : (tokenPreview token).isSome = true ↔ Previewable token := by
  unfold tokenPreview Previewable
  change (if byteLength token.toList ≤ 10 then _ else _ : Option String).isSome = true ↔ _
  by_cases hshort : byteLength token.toList ≤ 10
  · rw [if_pos hshort]
    exact iff_of_true rfl (Or.inl hshort)
  · rw [if_neg hshort, or_iff_right hshort, ← Text.isSome_splitAtByte_iff, ← Text.isSome_splitAtByte_iff]
    change ((Text.splitAtByte 5 token.toList).bind _).isSome = true ↔ _
    cases Text.splitAtByte 5 token.toList with
    | none => exact iff_of_false nofun (fun h => nomatch h.1)
    | some front =>
      rw [Option.bind_some]
      change ((Text.splitAtByte (byteLength token.toList - 4) token.toList).bind _).isSome = true ↔ _
      cases Text.splitAtByte (byteLength token.toList - 4) token.toList with
      | none => exact iff_of_false nofun (fun h => nomatch h.2)
      | some back => exact iff_of_true rfl ⟨rfl, rfl⟩

section Setup

variable {service : Service} {config : Value} {url tenant team : String} {hooks shown after : List Hook}

theorem setupWebexWebhook_of_skipped (h : botToken config = "") :
    setupWebexWebhook service config url tenant team hooks = (.skipped, hooks) := if_pos h

theorem setupWebexWebhook_of_not_previewable (h : botToken config ≠ "") (hnot : ¬ Previewable (botToken config)) :
    setupWebexWebhook service config url tenant team hooks = (.panicked, hooks) := by
  have hnone : tokenPreview (botToken config) = none := by
    rwa [← Option.not_isSome_iff_eq_none, isSome_tokenPreview_iff]
  unfold setupWebexWebhook
  rw [if_neg h, hnone]

theorem setupWebexWebhook_of_previewable (h : botToken config ≠ "") (hpreview : Previewable (botToken config)) :
    setupWebexWebhook service config url tenant team hooks
      = match webexListWebhooks service hooks with
        | .error err =>
          (.answered (ofFields [("ok", bool false), ("error", string err), ("webhook_url", string url)]), hooks)
        | .ok items =>
          (.answered (ofFields [("ok", bool (reconcileAll service items url (subscriptions tenant team) hooks).1.1),
            ("webhook_url", string url),
            ("webhooks", array (reconcileAll service items url (subscriptions tenant team) hooks).1.2)]),
            (reconcileAll service items url (subscriptions tenant team) hooks).2) := by
  obtain ⟨preview, hsome⟩ := Option.isSome_iff_exists.mp ((isSome_tokenPreview_iff (botToken config)).mpr hpreview)
  unfold setupWebexWebhook
  cases webexListWebhooks service hooks with
  | error => simp only [if_neg h, hsome]
  | ok items => simp only [if_neg h, hsome]

/-- **What a setup that reports success leaves.** -/
theorem after_of_reportsOk (hids : (hooks.map (·.id)).Nodup) (hlawful : service.Lawful)
    (hlists : service.ListsAs hooks shown) (hshown : shown ⊆ hooks)
    (hok : (setupWebexWebhook service config url tenant team hooks).1.reportsOk = true) :
    After hooks shown url (subscriptions tenant team) (setupWebexWebhook service config url tenant team hooks).2 := by
  by_cases htoken : botToken config = ""
  · rw [setupWebexWebhook_of_skipped htoken] at hok
    cases hok
  · by_cases hpreview : Previewable (botToken config)
    · rw [setupWebexWebhook_of_previewable htoken hpreview] at hok ⊢
      cases hlist : webexListWebhooks service hooks with
      | error err =>
        rw [hlist] at hok
        have hfalse : isOk (ofFields [("ok", bool false), ("error", string err), ("webhook_url", string url)]) = false :=
          isOk_ofFields false (by simp)
        exact absurd (hfalse.symm.trans hok) nofun
      | ok items =>
        rw [hlist] at hok
        have hall : (reconcileAll service items url (subscriptions tenant team) hooks).1.1 = true :=
          (isOk_ofFields _ (by simp)).symm.trans hok
        have hrun : reconcileAll service items url (subscriptions tenant team) hooks
            = ((true, (reconcileAll service items url (subscriptions tenant team) hooks).1.2),
              (reconcileAll service items url (subscriptions tenant team) hooks).2) := by
          rw [← hall]
        exact (after_nil hids shown url).reconcileAll hlawful (hlists items hlist) hshown hrun
    · rw [setupWebexWebhook_of_not_previewable htoken hpreview] at hok
      cases hok

/-- A steady service lets the setup succeed. -/
theorem reportsOk_steady (url tenant team : String) (htoken : botToken config ≠ "")
    (hpreview : Previewable (botToken config))
    (hids : (hooks.map (·.id)).Nodup) (hshown : shown ⊆ hooks) :
    (setupWebexWebhook (steady shown) config url tenant team hooks).1.reportsOk = true := by
  rw [setupWebexWebhook_of_previewable htoken hpreview]
  have hall : (reconcileAll (steady shown) (shown.map listed) url (subscriptions tenant team) hooks).1.1 = true :=
    reconcileAll_steady (listsAs_steady hooks shown _ rfl) hshown _ (after_nil hids shown url)
  exact (isOk_ofFields _ (by simp)).trans hall

/-- Where every name is listed first with the address, a setup changes nothing. -/
theorem setupWebexWebhook_of_upToDate (hlists : service.ListsAs hooks shown)
    (h : ∀ subscription ∈ subscriptions tenant team, ∃ found,
      firstNamed shown subscription = some found ∧ found.targetUrl = url) :
    (setupWebexWebhook service config url tenant team hooks).2 = hooks := by
  by_cases htoken : botToken config = ""
  · rw [setupWebexWebhook_of_skipped htoken]
  · by_cases hpreview : Previewable (botToken config)
    · rw [setupWebexWebhook_of_previewable htoken hpreview]
      cases hlist : webexListWebhooks service hooks with
      | error => rfl
      | ok items => exact reconcileAll_of_upToDate (hlists items hlist) h
    · rw [setupWebexWebhook_of_not_previewable htoken hpreview]

/-- Whether there is a first request depends on the token alone. -/
theorem requested_iff (service : Service) (config : Value) (url tenant team : String) (hooks : List Hook) :
    (∃ result, (setupWebexWebhook service config url tenant team hooks).1 = .answered result)
      ↔ ∃ request, Onboard.setupWebexWebhook config url = .requested request url := by
  by_cases htoken : botToken config = ""
  · have hskipped : Onboard.setupWebexWebhook config url = .skipped := if_pos htoken
    rw [setupWebexWebhook_of_skipped htoken, hskipped]
    refine iff_of_false ?_ ?_
    · rintro ⟨_, h⟩
      cases h
    · rintro ⟨_, h⟩
      cases h
  · have hrequest : Onboard.setupWebexWebhook config url = _ := if_neg htoken
    rw [hrequest]
    cases hpreview : tokenPreview (botToken config) with
    | none =>
      have hnot : ¬ Previewable (botToken config) := by
        rw [← isSome_tokenPreview_iff, hpreview]
        exact Bool.false_ne_true
      unfold botToken at hpreview
      rw [hpreview]
      rw [setupWebexWebhook_of_not_previewable htoken hnot]
      refine iff_of_false ?_ ?_
      · rintro ⟨_, h⟩
        cases h
      · rintro ⟨_, h⟩
        cases h
    | some preview =>
      have hyes : Previewable (botToken config) := by
        rw [← isSome_tokenPreview_iff, hpreview]
        rfl
      unfold botToken at hpreview
      rw [hpreview]
      rw [setupWebexWebhook_of_previewable htoken hyes]
      refine iff_of_true ?_ ⟨_, rfl⟩
      split
      next => exact ⟨_, rfl⟩
      next => exact ⟨_, rfl⟩

/-- And where it changes nothing, every name is listed first with the address. -/
theorem upToDate_of_after_self (h : After hooks hooks url (subscriptions tenant team) hooks) {subscription : Subscription}
    (hmem : subscription ∈ subscriptions tenant team) :
    ∃ found, firstNamed hooks subscription = some found ∧ found.targetUrl = url := by
  obtain ⟨-, created, heq, hcreated⟩ := h
  have hlength := congrArg List.length heq
  rw [List.length_append, List.length_map] at hlength
  have hnil : created = [] := List.length_eq_zero_iff.mp (by omega)
  rw [hnil, List.append_nil] at heq
  cases hfirst : firstNamed hooks subscription with
  | none =>
    have hwanted : subscription ∈ (subscriptions tenant team).filter fun s => (firstNamed hooks s).isNone :=
      List.mem_filter.mpr ⟨hmem, by rw [hfirst]; rfl⟩
    rw [hnil, List.map_nil] at hcreated
    rw [List.map_eq_nil_iff.mp hcreated.symm] at hwanted
    cases hwanted
  | some found =>
    refine ⟨found, rfl, ?_⟩
    have htouched : ∀ hook ∈ hooks, touch hooks url (subscriptions tenant team) hook = hook :=
      List.map_inj_left.mp (heq.symm.trans (List.map_id hooks).symm)
    have hreached := (reached_iff hmem (name_of_firstNamed hfirst)).mpr hfirst
    have hurl := congrArg Hook.targetUrl (htouched found (mem_of_firstNamed hfirst))
    rwa [targetUrl_touch, if_pos hreached, eq_comm] at hurl

/-! ## Set up rightly -/

/-- The webhooks after a setup that reports success: one for each subscription at the address, those under other
names as they were, and no change by another setup of a service that lists them. -/
structure Converged (config : Value) (url tenant team : String) (before after : List Hook) : Prop where
  one : ∀ subscription ∈ subscriptions tenant team,
    after.countP (fun hook => decide (Serves url subscription hook)) = 1
  others : after.filter (fun hook => decide (¬ Managed tenant team hook.name))
    = before.filter fun hook => decide (¬ Managed tenant team hook.name)
  again : ∀ service : Service, service.Lawful → service.ListsAs after after →
    (setupWebexWebhook service config url tenant team after).2 = after

/-- Whatever the service does, the setup does not panic, and what it leaves where it reports success converged; and
no other pair has one of the names. -/
structure SetsUpRightly (config : Value) (url tenant team : String) (hooks shown : List Hook) : Prop where
  noPanic : ∀ service : Service, (setupWebexWebhook service config url tenant team hooks).1 ≠ .panicked
  converges : ∀ service : Service, service.Lawful → service.ListsAs hooks shown →
    (setupWebexWebhook service config url tenant team hooks).1.reportsOk = true →
      Converged config url tenant team hooks (setupWebexWebhook service config url tenant team hooks).2
  apart : ∀ tenant' team', (tenant', team') ≠ (tenant, team) → ∀ subscription ∈ subscriptions tenant team,
    ∀ other ∈ subscriptions tenant' team', subscription.name ≠ other.name

theorem converged_of_reconcilable (hshown : shown ⊆ hooks) (h : After hooks shown url (subscriptions tenant team) after)
    (hall : ∀ subscription ∈ subscriptions tenant team, Reconcilable hooks shown url tenant team subscription) :
    Converged config url tenant team hooks after where
  one subscription hmem := (countP_after h hmem).trans (hall subscription hmem).one
  others := others_after h
  again _ _ hlists := setupWebexWebhook_of_upToDate hlists fun subscription hmem =>
    (upToDate_after_iff h hshown hmem).mpr (hall subscription hmem).first

theorem reconcilable_of_converged (htoken : botToken config ≠ "") (hpreview : Previewable (botToken config))
    (hshown : shown ⊆ hooks) (h : After hooks shown url (subscriptions tenant team) after)
    (hconverged : Converged config url tenant team hooks after) {subscription : Subscription}
    (hmem : subscription ∈ subscriptions tenant team) : Reconcilable hooks shown url tenant team subscription where
  one := (countP_after h hmem).symm.trans (hconverged.one subscription hmem)
  first := by
    have hself := after_of_reportsOk h.1 (lawful_steady after) (listsAs_steady after after) (fun _ => id)
      (reportsOk_steady url tenant team htoken hpreview h.1 fun _ => id)
    rw [hconverged.again (steady after) (lawful_steady after) (listsAs_steady after after)] at hself
    exact (upToDate_after_iff h hshown hmem).mp (upToDate_of_after_self hself hmem)

end Setup

/-- **When the webhooks are set up rightly.** No colon is in the tenant or the team; and where there is a token, its
ends can be shown, and for each subscription one webhook has its resource and event and the address or is reached,
where none is made, and the first under its name has the address or is the first that is shown. -/
theorem setsUpRightly_iff (config : Value) (url tenant team : String) {hooks shown : List Hook}
    (hids : (hooks.map (·.id)).Nodup) (hshown : shown ⊆ hooks) :
    SetsUpRightly config url tenant team hooks shown ↔ (':' ∉ tenant.toList ∧ ':' ∉ team.toList)
      ∧ (botToken config = "" ∨ Previewable (botToken config)
          ∧ ∀ subscription ∈ subscriptions tenant team, Reconcilable hooks shown url tenant team subscription) := by
  constructor
  · intro h
    refine ⟨names_apart_iff.mp h.apart, or_iff_not_imp_left.mpr fun htoken => ?_⟩
    have hpreview : Previewable (botToken config) := by
      by_contra hnot
      exact h.noPanic (steady shown) (congrArg Prod.fst (setupWebexWebhook_of_not_previewable htoken hnot))
    have hok := reportsOk_steady url tenant team htoken hpreview hids hshown
    have hafter := after_of_reportsOk hids (lawful_steady shown) (listsAs_steady hooks shown) hshown hok
    have hconverged := h.converges (steady shown) (lawful_steady shown) (listsAs_steady hooks shown) hok
    exact ⟨hpreview, fun subscription hmem =>
      reconcilable_of_converged htoken hpreview hshown hafter hconverged hmem⟩
  · rintro ⟨hcolons, hrest⟩
    refine ⟨?_, ?_, names_apart_iff.mpr hcolons⟩
    · intro service hpanic
      rcases hrest with htoken | ⟨hpreview, -⟩
      · rw [setupWebexWebhook_of_skipped htoken] at hpanic
        cases hpanic
      · by_cases htoken : botToken config = ""
        · rw [setupWebexWebhook_of_skipped htoken] at hpanic
          cases hpanic
        · rw [setupWebexWebhook_of_previewable htoken hpreview] at hpanic
          split at hpanic
          next => cases hpanic
          next => cases hpanic
    · intro service hlawful hlists hok
      have hafter := after_of_reportsOk hids hlawful hlists hshown hok
      rcases hrest with htoken | ⟨-, hall⟩
      · rw [setupWebexWebhook_of_skipped htoken] at hok
        cases hok
      · exact converged_of_reconcilable hshown hafter hall

/-- A webhook for messages that has an older address, beside one that is not the pair's. -/
theorem setsUpRightly_older :
    SetsUpRightly (object [("bot_token", string "token-of-the-bot")]) "https://new.example/in" "demo" "default"
    [⟨"h1", "greentic:demo:default:webex", "https://old.example/in", "messages", "created"⟩,
      ⟨"h2", "rooms", "https://rooms.example", "rooms", "created"⟩]
    [⟨"h1", "greentic:demo:default:webex", "https://old.example/in", "messages", "created"⟩] := by
  refine (setsUpRightly_iff _ _ _ _ (by decide) (by decide)).mpr ⟨by decide, Or.inr ⟨Or.inr (by decide), ?_⟩⟩
  intro subscription hmem
  rcases mem_subscriptions_iff.mp hmem with rfl | rfl
  · refine ⟨by decide, fun hook hfirst => Or.inr ?_⟩
    rw [← hfirst]
    decide
  · exact ⟨by decide, nofun⟩

/-- Two webhooks of one name and one address, as two setups at once leave them. -/
def twiceMade : List Hook :=
  [⟨"h1", "greentic:demo:default:webex", "https://new.example/in", "messages", "created"⟩,
    ⟨"h2", "greentic:demo:default:webex", "https://new.example/in", "messages", "created"⟩]

/-- A setup reports success and both of them stay. -/
theorem twiceMade_stays :
    ¬ SetsUpRightly (object [("bot_token", string "token-of-the-bot")]) "https://new.example/in" "demo" "default"
      twiceMade twiceMade := by
  intro h
  have hok : (setupWebexWebhook (steady twiceMade) (object [("bot_token", string "token-of-the-bot")])
      "https://new.example/in" "demo" "default" twiceMade).1.reportsOk = true := by decide +kernel
  have hone := (h.converges (steady twiceMade) (lawful_steady _) (listsAs_steady _ _) hok).one _ List.mem_cons_self
  have htwo : (setupWebexWebhook (steady twiceMade) (object [("bot_token", string "token-of-the-bot")])
      "https://new.example/in" "demo" "default" twiceMade).2.countP (fun hook => decide (Serves "https://new.example/in"
        ⟨"messages", "created", baseName "demo" "default"⟩ hook)) = 2 := by decide +kernel
  omega

end Onboard.Webex
