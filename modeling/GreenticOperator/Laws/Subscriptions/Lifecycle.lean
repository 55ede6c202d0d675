import GreenticOperator.Laws.Subscriptions.Store
import GreenticOperator.Subscriptions.Scheduler

/-!
# What a renewal keeps

A renewal builds the new state from the request, the service's own context and the
provider's answer (`renewBinding_ok`), so whatever none of these carries is lost: the
notification URL and the client state always, the tenant and team where the service runs
under others, the subscription id where the answer leaves it out. `renewals_keep_iff` says
that nothing else is: a run keeps every binding it renews exactly when each renewed state
has the service's tenant and team, neither of the two lost fields, and an answer with a
subscription id.

`renewEach_run` reads `renew_due` as such a run.
-/

namespace Subscriptions

open Disk RunnerHost RuntimeState SubscriptionService SubscriptionStore Scheduler

/-! ## One renewal -/

variable (scheduler : Scheduler)

/-- The call a renewal of a state with that subscription id makes. -/
def renewCall (now : Int64) (state : SubscriptionState) (subscriptionId : String) : Call where
  provider := state.provider
  op := "subscription_renew"
  payload := .renew state.provider subscriptionId (some (nextExpirationTarget now state))
    (state.user.getD scheduler.service.defaultUserRef)
  context := scheduler.service.context

/-- The state a renewal writes, given the provider's answer. -/
def renewedState (state : SubscriptionState) (response : Option Json.Value) : SubscriptionState :=
  .fromProviderResult state.provider scheduler.service.context.tenant
    scheduler.service.context.team state.bindingId state.resource state.changeTypes none none
    state.user response

variable {scheduler}

theorem ensureSuccess_ok {outcome checked : FlowOutcome} (h : ensureSuccess outcome = .ok checked) :
    checked = outcome := by
  unfold ensureSuccess at h
  split at h
  next => exact (Except.ok.inj h).symm
  next => cases h

/-- What a renewed state was made of. -/
theorem renewOnce_ok {now : Int64} {state renewed : SubscriptionState} {w w' : World}
    (h : (scheduler.service.renewOnce state.provider (renewRequest now state)).run w
      = (.ok renewed, w')) :
    ∃ subscriptionId outcome,
      state.subscriptionId = some subscriptionId
        ∧ scheduler.service.runnerHost w.calls (renewCall scheduler now state subscriptionId)
          = .ok outcome
        ∧ renewed = renewedState scheduler state outcome.output
        ∧ w' = { w with calls := w.calls ++ [renewCall scheduler now state subscriptionId] } := by
  unfold renewOnce at h
  obtain ⟨payload, hpayload, h⟩ := Eff.bind_lift_ok h
  obtain ⟨outcome, w2, hinvoke, h⟩ := Eff.bind_run_ok h
  obtain ⟨checked, hsuccess, h⟩ := Eff.bind_lift_ok h
  obtain ⟨rfl, rfl⟩ := Eff.pure_run_ok h
  rw [ensureSuccess_ok hsuccess]
  obtain ⟨hanswer, rfl⟩ := Prod.mk.inj hinvoke
  unfold buildRenewPayload at hpayload
  split at hpayload
  next => cases hpayload
  next subscriptionId hid =>
    obtain rfl := Except.ok.inj hpayload
    exact ⟨subscriptionId, outcome, hid, hanswer, rfl, rfl⟩

theorem scheduler_writeState_ok {state : SubscriptionState} {w w' : World}
    (h : (scheduler.writeState state).run w = (.ok (), w')) :
    scheduler.store.writeState w.disk state = .ok w'.disk
      ∧ w'.writes = w.writes ++ [(scheduler.store.pathOf state, state)] := by
  unfold Scheduler.writeState at h
  rw [Eff.bind_run, Eff.read_run] at h
  obtain ⟨disk', hdisk, h⟩ := Eff.bind_lift_ok h
  rw [Eff.modify_run, Prod.mk.injEq] at h
  rw [← h.2]
  exact ⟨hdisk, rfl⟩

/-- **What a successful renewal did**: one call, answered, and one write. -/
theorem renewBinding_ok {now : Int64} {state : SubscriptionState} {w w' : World}
    (h : (scheduler.renewBinding now state).run w = (.ok (), w')) :
    ∃ subscriptionId outcome,
      state.subscriptionId = some subscriptionId
        ∧ scheduler.service.runnerHost w.calls (renewCall scheduler now state subscriptionId)
          = .ok outcome
        ∧ scheduler.store.writeState w.disk (renewedState scheduler state outcome.output)
          = .ok w'.disk
        ∧ w'.writes = w.writes ++ [(scheduler.store.pathOf (renewedState scheduler state outcome.output),
            renewedState scheduler state outcome.output)] := by
  unfold renewBinding at h
  obtain ⟨_, w1, hattempt, h⟩ := Eff.bind_run_ok h
  obtain ⟨-, rfl⟩ := Prod.mk.inj hattempt
  obtain ⟨renewed, w2, hrenew, hwrite⟩ := Eff.bind_run_ok h
  obtain ⟨subscriptionId, outcome, hid, hanswer, rfl, rfl⟩ := renewOnce_ok hrenew
  obtain ⟨hdisk, hwrites⟩ := scheduler_writeState_ok hwrite
  exact ⟨subscriptionId, outcome, hid, hanswer, hdisk, hwrites⟩

/-! ## What it keeps -/

/-- A renewed state is the same binding, watches the same resource in the same way, and is
still renewable. -/
structure SameBinding (state renewed : SubscriptionState) : Prop where
  provider : renewed.provider = state.provider
  tenant : renewed.tenant = state.tenant
  team : renewed.team = state.team
  bindingId : renewed.bindingId = state.bindingId
  resource : renewed.resource = state.resource
  changeTypes : renewed.changeTypes = state.changeTypes
  user : renewed.user = state.user
  notificationUrl : renewed.notificationUrl = state.notificationUrl
  clientState : renewed.clientState = state.clientState
  renewable : state.subscriptionId.isSome = true → renewed.subscriptionId.isSome = true

/-- What a renewal of a state does between two worlds: it writes one state of the same
binding, at the path of the state it renews, and no other stored state changes. -/
structure Keeps (scheduler : Scheduler) (state : SubscriptionState) (before after : World) :
    Prop where
  written : ∃ renewed, SameBinding state renewed
    ∧ after.writes = before.writes ++ [(scheduler.store.pathOf state, renewed)]
    ∧ after.disk.read (scheduler.store.pathOf state) = some (.value renewed)
  others : ∀ path, isStateFile path = true → path ≠ scheduler.store.pathOf state →
    after.disk.read path = before.disk.read path

/-- The condition under which a renewal keeps its binding: the service runs under the
state's tenant and team, the state has neither of the fields no request carries, and the
provider answers with a subscription id. -/
structure KeepsWhen (scheduler : Scheduler) (now : Int64) (state : SubscriptionState)
    (before : World) : Prop where
  tenant : scheduler.service.context.tenant = state.tenant
  team : scheduler.service.context.team = state.team
  notificationUrl : state.notificationUrl = none
  clientState : state.clientState = none
  answered : ∀ subscriptionId outcome, state.subscriptionId = some subscriptionId →
    scheduler.service.runnerHost before.calls (renewCall scheduler now state subscriptionId)
      = .ok outcome →
    (responseText "subscription_id" outcome.output).isSome = true

theorem sameBinding_renewedState {state : SubscriptionState} {response : Option Json.Value}
    (htenant : scheduler.service.context.tenant = state.tenant)
    (hteam : scheduler.service.context.team = state.team)
    (hurl : state.notificationUrl = none) (hclient : state.clientState = none)
    (hid : (responseText "subscription_id" response).isSome = true) :
    SameBinding state (renewedState scheduler state response) where
  provider := rfl
  tenant := htenant
  team := hteam
  bindingId := rfl
  resource := rfl
  changeTypes := rfl
  user := rfl
  notificationUrl := hurl.symm
  clientState := hclient.symm
  renewable := fun _ => hid

theorem pathOf_eq {store : SubscriptionStore} {state renewed : SubscriptionState}
    (h : SameBinding state renewed) : store.pathOf renewed = store.pathOf state := by
  unfold pathOf
  rw [h.provider, h.tenant, h.team, h.bindingId]

/-- **One renewal keeps its binding exactly under the condition.** -/
theorem keeps_iff {now : Int64} {state : SubscriptionState} {w w' : World}
    (h : (scheduler.renewBinding now state).run w = (.ok (), w')) :
    Keeps scheduler state w w' ↔ KeepsWhen scheduler now state w := by
  obtain ⟨subscriptionId, outcome, hid, hanswer, hdisk, hwrites⟩ := renewBinding_ok h
  obtain ⟨hself, hothers⟩ := writeState_ok hdisk
  constructor
  · intro hkeeps
    obtain ⟨renewed, hsame, hwritten, -⟩ := hkeeps.written
    rw [hwrites, List.append_cancel_left_eq, List.cons.injEq, Prod.mk.injEq] at hwritten
    obtain ⟨⟨-, rfl⟩, -⟩ := hwritten
    refine ⟨hsame.tenant, hsame.team, hsame.notificationUrl.symm, hsame.clientState.symm, ?_⟩
    intro subscriptionId' outcome' hid' hanswer'
    rw [hid, Option.some.injEq] at hid'
    subst hid'
    rw [hanswer, Except.ok.injEq] at hanswer'
    subst hanswer'
    exact hsame.renewable (by rw [hid]; rfl)
  · intro hwhen
    have hsame := sameBinding_renewedState hwhen.tenant hwhen.team hwhen.notificationUrl
      hwhen.clientState (hwhen.answered subscriptionId outcome hid hanswer)
    have hpath : scheduler.store.pathOf (renewedState scheduler state outcome.output)
      = scheduler.store.pathOf state := pathOf_eq hsame
    rw [hpath] at hwrites hself hothers
    exact ⟨⟨_, hsame, hwrites, hself⟩, hothers⟩

/-! ## Runs -/

/-- The renewals a loop of `renew_due` makes, as operations. -/
def renewOps (now skewMs : Int64) : (Nat → Int64) → List SubscriptionState → List Op
  | _, [] => []
  | readings, state :: rest =>
    if isDue now skewMs state then
      .renew (readings 0) state :: renewOps now skewMs (fun i => readings (i + 1)) rest
    else renewOps now skewMs readings rest

/-- The loop of `renew_due` is a run of renewals, each going on after the one before. -/
theorem renewEach_run (now skewMs : Int64) (readings : Nat → Int64)
    (states : List SubscriptionState) (w : World) :
    (scheduler.renewEach now skewMs readings states).run w
      = (.ok (), Run.run scheduler.exec (renewOps now skewMs readings states) w) := by
  induction states generalizing readings w with
  | nil => rfl
  | cons state rest ih =>
    unfold renewEach renewOps
    split
    next =>
      rw [Eff.bind_run, Eff.attempt_run]
      exact ih (fun i => readings (i + 1)) _
    next => exact ih readings w

/-- Every successful renewal of a run has the property. -/
def EveryRenewal (scheduler : Scheduler) (ops : List Op) (w : World)
    (holds : Int64 → SubscriptionState → World → World → Prop) : Prop :=
  ∀ step ∈ Run.steps scheduler.exec ops w, ∀ now state, step.2 = .renew now state →
    ∀ after, (scheduler.renewBinding now state).run step.1 = (.ok (), after) →
      holds now state step.1 after

/-- **A run keeps every binding it renews exactly where each renewal meets the condition.** -/
theorem renewals_keep_iff (scheduler : Scheduler) (ops : List Op) (w : World) :
    EveryRenewal scheduler ops w (fun _ state before after => Keeps scheduler state before after)
      ↔ EveryRenewal scheduler ops w (fun now state before _ => KeepsWhen scheduler now state before) := by
  constructor
  · intro h step hstep now state hop after hok
    exact (keeps_iff hok).mp (h step hstep now state hop after hok)
  · intro h step hstep now state hop after hok
    exact (keeps_iff hok).mpr (h step hstep now state hop after hok)

/-- A provider that answers every call with the same subscription. -/
def steadyProvider : ProviderRunner := fun _ _ =>
  .ok { success := true
        output := some (.object [("expiration_unix_ms", .number (.posInt 1700086400000)),
          ("subscription_id", .string "sub-1")])
        raw := none, error := none, mode := .Exec }

def demoScheduler : Scheduler where
  service := { runnerHost := steadyProvider, context := ⟨"demo", some "default", none⟩ }
  store := ⟨"/state/subscriptions"⟩

def emptyWorld : World := { disk := Disk.Files.empty, calls := [], writes := [], attempts := [] }

/-- A mail binding with a webhook. -/
def webhookState : SubscriptionState where
  bindingId := "bind-1"
  provider := "messaging.email"
  tenant := "demo"
  team := some "default"
  resource := some "/me/messages"
  changeTypes := ["created"]
  notificationUrl := some "https://example.com/webhook"
  clientState := some "state"
  user := none
  subscriptionId := some "sub-1"
  expirationUnixMs := some 1700000000000
  lastError := none

theorem webhookState_renewed :
    ∃ after, (demoScheduler.renewBinding 1700000000000 webhookState).run emptyWorld
      = (.ok (), after) := by
  have hok : ((demoScheduler.renewBinding 1700000000000 webhookState).run emptyWorld).1 = .ok () := by
    decide +kernel
  exact ⟨_, Prod.ext hok rfl⟩

/-- Renewed under its own tenant and team, it loses the URL its notifications go to. -/
theorem renewal_loses_notificationUrl :
    ¬ ∀ (scheduler : Scheduler) (ops : List Op) (w : World),
      EveryRenewal scheduler ops w fun _ state before after =>
        Keeps scheduler state before after := by
  intro h
  obtain ⟨after, hok⟩ := webhookState_renewed
  have hkeeps := h demoScheduler [.renew 1700000000000 webhookState] emptyWorld
    (emptyWorld, .renew 1700000000000 webhookState) List.mem_cons_self _ _ rfl after hok
  exact absurd ((keeps_iff hok).mp hkeeps).notificationUrl (by decide)

end Subscriptions
