import GreenticOperator.Onboard.WebhookSetup

/-!
# What a setup leaves of the webhooks of Webex

Where a setup reports that all is well, the webhooks that were listed first under the names of a tenant
and a team have the address, and one was made for each name that was not listed (`After`), whatever else
the service did.
-/

namespace Onboard.Webex

open Json Json.Value

/-! ## The service -/

/-- What the service does where it reports success. -/
structure Service.Lawful (service : Service) : Prop where
  create_ok : ∀ {name targetUrl resource event : String} {hooks after : List Hook} {status : Nat} {body : Value},
    service.create name targetUrl resource event hooks = (.ok (status, body), after) → isSuccess status = true →
      ∃ id, id ∉ hooks.map (·.id) ∧ after = hooks ++ [⟨id, name, targetUrl, resource, event⟩]
  update_ok : ∀ {id name targetUrl : String} {hooks after : List Hook} {status : Nat} {body : Value},
    service.update id name targetUrl hooks = (.ok (status, body), after) → isSuccess status = true →
      id ∈ hooks.map (·.id)
        ∧ after = hooks.map fun hook => if hook.id = id then { hook with name, targetUrl } else hook

/-- What is read of an item of a list. -/
def readHook (item : Value) : Option (String × String × String) :=
  (stringField item "name").map fun name =>
    (name, (stringField item "id").getD "", (stringField item "targetUrl").getD "")

/-- What is read of the items are webhooks. -/
def Reads (items : List Value) (shown : List Hook) : Prop :=
  items.filterMap readHook = shown.map fun hook => (hook.name, hook.id, hook.targetUrl)

/-- Where the service lists webhooks, these are shown; a body without items shows none. -/
def Service.ListsAs (service : Service) (hooks shown : List Hook) : Prop :=
  ∀ items, webexListWebhooks service hooks = .ok items → Reads items shown

/-- The first webhook that is shown under the name of a subscription. -/
def firstNamed (shown : List Hook) (subscription : Subscription) : Option Hook :=
  shown.find? fun hook => hook.name == subscription.name

theorem name_of_firstNamed {shown : List Hook} {subscription : Subscription} {hook : Hook}
    (h : firstNamed shown subscription = some hook) : hook.name = subscription.name := by
  have hname := List.find?_some (p := fun hook : Hook => hook.name == subscription.name) h
  exact beq_iff_eq.mp hname

theorem mem_of_firstNamed {shown : List Hook} {subscription : Subscription} {hook : Hook}
    (h : firstNamed shown subscription = some hook) : hook ∈ shown := List.mem_of_find?_eq_some h

/-- What is found among the items is the first webhook of the name. -/
theorem find_of_reads {items : List Value} {shown : List Hook} (h : Reads items shown) (subscription : Subscription) :
    (items.find? fun item => stringField item "name" == some subscription.name).bind readHook
      = (firstNamed shown subscription).map fun hook => (hook.name, hook.id, hook.targetUrl) := by
  have hitems : (items.find? fun item => stringField item "name" == some subscription.name).bind readHook
      = (items.filterMap readHook).find? fun triple => triple.1 == subscription.name := by
    clear h
    induction items with
    | nil => rfl
    | cons item items ih =>
      rw [List.find?_cons, List.filterMap_cons]
      cases hname : stringField item "name" with
      | none =>
        have hread : readHook item = none := by rw [readHook, hname]; rfl
        rw [hread]
        exact ih
      | some name =>
        have hread : readHook item
            = some (name, (stringField item "id").getD "", (stringField item "targetUrl").getD "") := by
          rw [readHook, hname]
          rfl
        rw [hread]
        dsimp only
        rw [List.find?_cons]
        by_cases heq : name = subscription.name
        · rw [heq, beq_self_eq_true, beq_self_eq_true]
          rw [heq] at hread
          exact hread
        · rw [beq_eq_false_iff_ne.mpr heq, beq_eq_false_iff_ne.mpr fun h => heq (Option.some.inj h)]
          exact ih
  rw [hitems, h, List.find?_map]
  rfl

/-! ## What becomes of the webhooks -/

section After

variable {hooks shown after : List Hook} {url : String} {done : List Subscription}

/-- A webhook was shown first under the name of one of the subscriptions. -/
def reached (shown : List Hook) (done : List Subscription) (hook : Hook) : Bool :=
  done.any fun subscription => firstNamed shown subscription == some hook

def touch (shown : List Hook) (url : String) (done : List Subscription) (hook : Hook) : Hook :=
  if reached shown done hook then { hook with targetUrl := url } else hook

@[simp] theorem id_touch (hook : Hook) : (touch shown url done hook).id = hook.id := by
  unfold touch
  split <;> rfl

@[simp] theorem name_touch (hook : Hook) : (touch shown url done hook).name = hook.name := by
  unfold touch
  split <;> rfl

@[simp] theorem resource_touch (hook : Hook) : (touch shown url done hook).resource = hook.resource := by
  unfold touch
  split <;> rfl

@[simp] theorem event_touch (hook : Hook) : (touch shown url done hook).event = hook.event := by
  unfold touch
  split <;> rfl

theorem targetUrl_touch (hook : Hook) :
    (touch shown url done hook).targetUrl = if reached shown done hook then url else hook.targetUrl := by
  unfold touch
  split <;> rfl

/-- What was made for a subscription, but for its id. -/
def made (url : String) (subscription : Subscription) : String × String × String × String :=
  (subscription.name, url, subscription.resource, subscription.event)

def besidesId (hook : Hook) : String × String × String × String :=
  (hook.name, hook.targetUrl, hook.resource, hook.event)

/-- **The webhooks after subscriptions**: those shown first have the address, and one is made for each name
that was not shown. -/
def After (hooks shown : List Hook) (url : String) (done : List Subscription) (after : List Hook) : Prop :=
  (after.map (·.id)).Nodup ∧ ∃ created, after = hooks.map (touch shown url done) ++ created
    ∧ created.map besidesId = (done.filter fun subscription => (firstNamed shown subscription).isNone).map (made url)

theorem after_nil (hids : (hooks.map (·.id)).Nodup) (shown : List Hook) (url : String) :
    After hooks shown url [] hooks := by
  refine ⟨hids, [], ?_, rfl⟩
  have hid : hooks.map (touch shown url []) = hooks := List.map_congr_left (fun _ _ => rfl) |>.trans (List.map_id hooks)
  rw [hid, List.append_nil]

theorem reached_concat (subscription : Subscription) (hook : Hook) :
    reached shown (done ++ [subscription]) hook
      = (reached shown done hook || firstNamed shown subscription == some hook) := by
  unfold reached
  rw [List.any_append, List.any_cons, List.any_nil, Bool.or_false]

theorem touch_of_not_shown {subscription : Subscription} (h : firstNamed shown subscription = none) :
    touch shown url (done ++ [subscription]) = touch shown url done := by
  funext hook
  unfold touch
  have hother : (none == some hook) = false := rfl
  rw [reached_concat, h, hother, Bool.or_false]

theorem touch_concat {subscription : Subscription} {found : Hook} (h : firstNamed shown subscription = some found)
    (hook : Hook) : touch shown url (done ++ [subscription]) hook
      = if hook = found then { hook with targetUrl := url } else touch shown url done hook := by
  unfold touch
  rw [reached_concat, h]
  by_cases heq : hook = found
  · rw [if_pos heq, heq]
    simp
  · rw [if_neg heq]
    have hne : (some found == some hook) = false := beq_eq_false_iff_ne.mpr fun hsome => heq (Option.some.inj hsome).symm
    rw [hne, Bool.or_false]

/-- A webhook that is made. -/
theorem After.create (h : After hooks shown url done after) {subscription : Subscription}
    (hnone : firstNamed shown subscription = none) {id : String} (hid : id ∉ after.map (·.id)) :
    After hooks shown url (done ++ [subscription])
      (after ++ [⟨id, subscription.name, url, subscription.resource, subscription.event⟩]) := by
  obtain ⟨hids, created, rfl, hcreated⟩ := h
  refine ⟨?_, created ++ [⟨id, subscription.name, url, subscription.resource, subscription.event⟩], ?_, ?_⟩
  · rw [List.map_append, List.nodup_append]
    refine ⟨hids, List.nodup_singleton _, ?_⟩
    rintro other hother _ hnew rfl
    have heq : other = id := List.mem_singleton.mp hnew
    exact hid (heq ▸ hother)
  · rw [touch_of_not_shown hnone, List.append_assoc]
  · rw [List.map_append, hcreated, List.filter_append, List.map_append, List.filter_cons_of_pos (by rw [hnone]; rfl)]
    rfl

/-- A webhook that is shown, with the address. -/
theorem After.update {subscription : Subscription} {found : Hook} (h : After hooks shown url done after)
    (hfound : firstNamed shown subscription = some found)
    {result : List Hook} (hresult : result = after.map fun hook =>
      if hook.id = found.id then { hook with name := subscription.name, targetUrl := url } else hook)
    (hmem : found ∈ hooks) : After hooks shown url (done ++ [subscription]) result := by
  obtain ⟨hids, created, rfl, hcreated⟩ := h
  subst hresult
  have hname := name_of_firstNamed hfound
  rw [List.map_append, List.map_map, List.nodup_append] at hids
  obtain ⟨hold, hnew, hapart⟩ := hids
  have hkeep : ∀ hook ∈ created, hook.id ≠ found.id := by
    intro hook hhook heq
    refine hapart found.id ?_ hook.id (List.mem_map_of_mem hhook) heq.symm
    exact List.mem_map.mpr ⟨found, hmem, id_touch found⟩
  have hcreatedSame : created.map (fun hook =>
      if hook.id = found.id then { hook with name := subscription.name, targetUrl := url } else hook) = created := by
    refine (List.map_congr_left fun hook hhook => ?_).trans (List.map_id created)
    rw [if_neg (hkeep hook hhook)]
    rfl
  have htouched : (hooks.map (touch shown url done)).map (fun hook =>
      if hook.id = found.id then { hook with name := subscription.name, targetUrl := url } else hook)
      = hooks.map (touch shown url (done ++ [subscription])) := by
    rw [List.map_map]
    refine List.map_congr_left fun hook hhook => ?_
    rw [Function.comp_apply, touch_concat hfound, id_touch]
    by_cases hid : hook.id = found.id
    · have heq : hook = found := by
        refine List.inj_on_of_nodup_map hold hhook hmem ?_
        rw [Function.comp_apply, Function.comp_apply, id_touch, id_touch, hid]
      subst heq
      rw [if_pos rfl, if_pos rfl, ← hname]
      unfold touch
      split <;> rfl
    · rw [if_neg hid, if_neg fun heq => hid (congrArg Hook.id heq)]
  have hsame : ((hooks.map (touch shown url done) ++ created).map fun hook =>
      if hook.id = found.id then { hook with name := subscription.name, targetUrl := url } else hook)
      = hooks.map (touch shown url (done ++ [subscription])) ++ created := by
    rw [List.map_append, htouched, hcreatedSame]
  refine ⟨?_, created, hsame, ?_⟩
  · rw [hsame, List.map_append, List.map_map, List.nodup_append]
    have hidsSame : (fun hook : Hook => hook.id) ∘ touch shown url (done ++ [subscription])
        = (fun hook : Hook => hook.id) ∘ touch shown url done := by
      funext hook
      rw [Function.comp_apply, Function.comp_apply, id_touch, id_touch]
    rw [hidsSame]
    exact ⟨hold, hnew, hapart⟩
  · rw [List.filter_append, List.filter_cons_of_neg (by rw [hfound]; nofun), List.filter_nil, List.append_nil]
    exact hcreated

/-- A webhook that is shown and has the address. -/
theorem After.upToDate {subscription : Subscription} {found : Hook} (h : After hooks shown url done after)
    (hfound : firstNamed shown subscription = some found) (hurl : found.targetUrl = url) :
    After hooks shown url (done ++ [subscription]) after := by
  obtain ⟨hids, created, rfl, hcreated⟩ := h
  have hsame : hooks.map (touch shown url (done ++ [subscription])) = hooks.map (touch shown url done) := by
    refine List.map_congr_left fun hook _ => ?_
    rw [touch_concat hfound]
    by_cases heq : hook = found
    · subst heq
      rw [if_pos rfl]
      unfold touch
      split
      · rfl
      · rw [← hurl]
    · rw [if_neg heq]
  refine ⟨hids, created, ?_, ?_⟩
  · rw [hsame]
  · rw [List.filter_append, List.filter_cons_of_neg (by rw [hfound]; nofun), List.filter_nil, List.append_nil]
    exact hcreated

end After

/-! ## What the code does -/

theorem isOk_ofFields (b : Bool) {rest : List (String × Value)} (h : ∀ field ∈ rest, "ok" ≠ field.1) :
    isOk (ofFields (("ok", bool b) :: rest)) = b := by
  unfold isOk
  rw [get_ofFields_cons h]
  rfl

section Run

variable {service : Service} {items : List Value} {hooks shown before after : List Hook} {url : String}
  {done : List Subscription} {result : Value}

/-- One subscription, by what is shown under its name. -/
theorem webexReconcileOne_eq (hreads : Reads items shown) (subscription : Subscription) (before : List Hook) :
    webexReconcileOne service items url subscription before
      = match firstNamed shown subscription with
        | some found =>
          if found.targetUrl = url then
            (ofFields [("ok", bool true), ("webhook_id", string found.id), ("action", string "noop")], before)
          else webexUpdateWebhook service found.id subscription.name url before
        | none => webexCreateWebhookWithResource service subscription.name url subscription.resource
            subscription.event before := by
  have hfound := find_of_reads hreads subscription
  unfold webexReconcileOne
  cases hitem : items.find? fun item => stringField item "name" == some subscription.name with
  | none =>
    rw [hitem] at hfound
    cases hfirst : firstNamed shown subscription with
    | none => rfl
    | some found =>
      rw [hfirst] at hfound
      cases hfound
  | some item =>
    have hname := List.find?_some (p := fun item => stringField item "name" == some subscription.name) hitem
    have hread : readHook item = some (subscription.name, (stringField item "id").getD "",
        (stringField item "targetUrl").getD "") := by
      rw [readHook, beq_iff_eq.mp hname]
      rfl
    rw [hitem, Option.bind_some, hread] at hfound
    cases hfirst : firstNamed shown subscription with
    | none =>
      rw [hfirst] at hfound
      cases hfound
    | some found =>
      rw [hfirst, Option.map_some, Option.some.injEq, Prod.mk.injEq, Prod.mk.injEq] at hfound
      dsimp only
      rw [hfound.2.1, hfound.2.2]

theorem After.reconcileOne (hlawful : service.Lawful) (hreads : Reads items shown) (hshown : shown ⊆ hooks)
    {subscription : Subscription} (h : After hooks shown url done before)
    (hrun : webexReconcileOne service items url subscription before = (result, after)) (hok : isOk result = true) :
    After hooks shown url (done ++ [subscription]) after := by
  rw [webexReconcileOne_eq hreads] at hrun
  cases hfirst : firstNamed shown subscription with
  | some found =>
    rw [hfirst] at hrun
    dsimp only at hrun
    split at hrun
    next hurl =>
      obtain ⟨-, rfl⟩ := Prod.mk.inj hrun
      exact h.upToDate hfirst hurl
    next =>
      unfold webexUpdateWebhook at hrun
      split at hrun
      next status parsed after' hcall =>
        obtain ⟨rfl, rfl⟩ := Prod.mk.inj hrun
        rw [isOk_ofFields _ (by simp)] at hok
        obtain ⟨-, hafter⟩ := hlawful.update_ok hcall hok
        exact h.update hfirst hafter (hshown (mem_of_firstNamed hfirst))
      next =>
        obtain ⟨rfl, rfl⟩ := Prod.mk.inj hrun
        rw [isOk_ofFields _ (by simp)] at hok
        cases hok
  | none =>
    rw [hfirst] at hrun
    dsimp only at hrun
    unfold webexCreateWebhookWithResource at hrun
    split at hrun
    next status parsed after' hcall =>
      obtain ⟨rfl, rfl⟩ := Prod.mk.inj hrun
      rw [isOk_ofFields _ (by simp)] at hok
      obtain ⟨id, hid, rfl⟩ := hlawful.create_ok hcall hok
      exact h.create hfirst hid
    next =>
      obtain ⟨rfl, rfl⟩ := Prod.mk.inj hrun
      rw [isOk_ofFields _ (by simp)] at hok
      cases hok

/-- The loop, by induction on the subscriptions that are left. -/
theorem After.reconcileAll (hlawful : service.Lawful) (hreads : Reads items shown) (hshown : shown ⊆ hooks)
    {rest : List Subscription} (h : After hooks shown url done before) {results : List Value}
    (hrun : Webex.reconcileAll service items url rest before = ((true, results), after)) :
    After hooks shown url (done ++ rest) after := by
  induction rest generalizing done before results with
  | nil =>
    cases hrun
    rwa [List.append_nil]
  | cons subscription rest ih =>
    unfold Webex.reconcileAll at hrun
    cases hone : webexReconcileOne service items url subscription before with
    | mk result middle =>
      cases hall : Webex.reconcileAll service items url rest middle with
      | mk outcome last =>
        rw [hone] at hrun
        dsimp only at hrun
        rw [hall] at hrun
        obtain ⟨heads, rfl⟩ := Prod.mk.inj hrun
        obtain ⟨hand, -⟩ := Prod.mk.inj heads
        obtain ⟨hok, hrest⟩ := Bool.and_eq_true_iff.mp hand
        have hlast : Webex.reconcileAll service items url rest middle = ((true, outcome.2), last) := by
          rw [hall, ← hrest]
        have hafter := ih (h.reconcileOne hlawful hreads hshown hone hok) hlast
        rwa [List.append_assoc] at hafter

/-- Where every name is shown first with the address, nothing is done. -/
theorem reconcileAll_of_upToDate (hreads : Reads items shown) {rest : List Subscription}
    (h : ∀ subscription ∈ rest, ∃ found, firstNamed shown subscription = some found ∧ found.targetUrl = url) :
    (Webex.reconcileAll service items url rest before).2 = before := by
  induction rest with
  | nil => rfl
  | cons subscription rest ih =>
    obtain ⟨found, hfirst, hurl⟩ := h subscription List.mem_cons_self
    unfold Webex.reconcileAll
    rw [webexReconcileOne_eq hreads, hfirst]
    dsimp only
    rw [if_pos hurl]
    exact ih fun other hother => h other (List.mem_cons_of_mem subscription hother)

end Run

end Onboard.Webex
