import GreenticOperator.Laws.Subscriptions.Lifecycle
import GreenticOperator.Lib.Outcome
import GreenticOperator.Subscriptions.Scheduler

/-!
# Ensuring twice

Ensuring the desired subscriptions a second time should leave the states of the first: one for each
entry, at the place it had, and none of two different entries at one place (`EnsuredTwice`). An
entry without a binding id is given a new one in every run, and two entries may name one place.
`ensuredTwice_iff` says that there is nothing else: both runs are a list of writes, and what a state
file holds after them is decided by the last write to it (`read_of_writes`).
-/

namespace Subscriptions

open Disk RunnerHost RuntimeState SubscriptionService SubscriptionStore

/-! ## What is promised -/

/-- A state without what its provider returned. -/
def SubscriptionState.asked (state : SubscriptionState) : SubscriptionState :=
  { state with subscriptionId := none, expirationUnixMs := none, lastError := none }

/-- A state file without what a provider returned. -/
def askedContents : Contents SubscriptionState → Contents SubscriptionState
  | .value state => .value state.asked
  | contents => contents

/-- What is asked for an entry under a binding id. -/
def askedFor (scheduler : Scheduler) (providerId bindingId : String) (entry : DemoDesiredSubscription) :
    SubscriptionState :=
  let request := toRequest entry bindingId
  .fromProviderResult providerId scheduler.service.context.tenant scheduler.service.context.team bindingId
    request.resource request.changeTypes request.notificationUrl request.clientState request.user none

/-- What is asked for an entry, where its provider is found. -/
def desiredState (scheduler : Scheduler) (source : ProviderSource) (newId : String)
    (entry : DemoDesiredSubscription) : Option SubscriptionState :=
  (source.resolve entry).toOption.map fun providerId =>
    askedFor scheduler providerId (entry.bindingId.getD newId) entry

/-- The place of an entry's state. -/
def desiredPath (scheduler : Scheduler) (source : ProviderSource) (newId : String)
    (entry : DemoDesiredSubscription) : Option Path :=
  (desiredState scheduler source newId entry).map scheduler.store.pathOf

/-- Places of state files that the store lists. -/
def Listed (store : SubscriptionStore) (path : Path) : Prop :=
  isStateFile path = true ∧ (resolve store.base).isPrefixOf path = true

/-- **Ensuring twice is ensuring once**, between the disks before the first run, after it, and after
the second: each entry has its state after the first run, which the second writes over; other states
stay, and different entries have places of their own. -/
structure EnsuredTwice (scheduler : Scheduler) (source : ProviderSource)
    (desired : List DemoDesiredSubscription) (newId newId' : Nat → String)
    (before once twice : StateFiles) : Prop where
  same : ∀ path, Listed scheduler.store path →
    (twice.read path).map askedContents = (once.read path).map askedContents
  stored : ∀ i entry, desired[i]? = some entry → ∃ path,
    desiredPath scheduler source (newId i) entry = some path ∧ Listed scheduler.store path
      ∧ (once.read path).map askedContents
        = (desiredState scheduler source (newId i) entry).map Contents.value
  again : ∀ i entry, desired[i]? = some entry →
    desiredPath scheduler source (newId' i) entry = desiredPath scheduler source (newId i) entry
  apart : ∀ i j a b, desired[i]? = some a → desired[j]? = some b → a ≠ b →
    desiredPath scheduler source (newId i) a ≠ desiredPath scheduler source (newId j) b
  others : ∀ path, Listed scheduler.store path →
    (∀ i entry, desired[i]? = some entry → desiredPath scheduler source (newId i) entry ≠ some path) →
    once.read path = before.read path

/-- Every entry has a binding id, and a place in the store that no different entry has. -/
structure PlacedApart (scheduler : Scheduler) (source : ProviderSource)
    (desired : List DemoDesiredSubscription) : Prop where
  bound : ∀ entry ∈ desired, entry.bindingId ≠ none
  apart : ∀ a ∈ desired, ∀ b ∈ desired, a ≠ b →
    desiredPath scheduler source "" a ≠ desiredPath scheduler source "" b
  listed : ∀ entry ∈ desired, ∀ path, desiredPath scheduler source "" entry = some path →
    Listed scheduler.store path

/-! ## What a list of writes leaves -/

/-- Writes one after another; a state file holds the last state written to it. -/
theorem read_of_writes {store : SubscriptionStore} {states : List SubscriptionState}
    {disk disk' : StateFiles} (h : states.foldlM store.writeState disk = .ok disk') {path : Path}
    (hpath : isStateFile path = true) :
    disk'.read path
      = ((states.reverse.find? fun state => store.pathOf state == path).map Contents.value).or
          (disk.read path) := by
  induction states generalizing disk with
  | nil =>
    cases h
    simp
  | cons state states ih =>
    rw [List.foldlM_cons] at h
    obtain ⟨disk1, hwrite, hrest⟩ := Outcome.bind_eq_ok_iff.mp h
    obtain ⟨hself, hothers⟩ := writeState_ok hwrite
    rw [ih hrest, List.reverse_cons, List.find?_append]
    by_cases heq : store.pathOf state = path
    · subst heq
      rw [hself]
      cases states.reverse.find? fun other => store.pathOf other == store.pathOf state <;> simp
    · rw [hothers path hpath (Ne.symm heq)]
      have hno : ([state].find? fun other => store.pathOf other == path) = none := by
        simp [heq]
      rw [hno, Option.or_none]

/-! ## One run -/

variable {scheduler : Scheduler} {source : ProviderSource}

/-- **What ensuring one subscription did**: one answered call, and one write of what was asked for
with the answer of the provider. -/
theorem ensureOnce_ok {providerId : String} {entry : DemoDesiredSubscription} {bindingId : String}
    {w w' : World}
    (h : (scheduler.ensureOnce providerId (toRequest entry bindingId)).run w = (.ok (), w')) :
    ∃ state, state.asked = askedFor scheduler providerId bindingId entry
      ∧ scheduler.store.writeState w.disk state = .ok w'.disk := by
  unfold Scheduler.ensureOnce at h
  obtain ⟨state, w1, hensure, hwrite⟩ := Eff.bind_run_ok h
  unfold SubscriptionService.ensureOnce at hensure
  obtain ⟨payload, -, hensure⟩ := Eff.bind_lift_ok hensure
  obtain ⟨outcome, w2, hinvoke, hensure⟩ := Eff.bind_run_ok hensure
  obtain ⟨checked, -, hensure⟩ := Eff.bind_lift_ok hensure
  obtain ⟨rfl, rfl⟩ := Eff.pure_run_ok hensure
  obtain ⟨-, rfl⟩ := Prod.mk.inj hinvoke
  exact ⟨_, rfl, (scheduler_writeState_ok hwrite).1⟩

/-- **A run is a list of writes**, one for each entry. -/
theorem writes_of_run {desired : List DemoDesiredSubscription} {newId : Nat → String} {w w' : World}
    (h : (ensureDesiredSubscriptions scheduler source newId desired).run w = (.ok (), w')) :
    ∃ states : List SubscriptionState, states.length = desired.length
      ∧ states.foldlM scheduler.store.writeState w.disk = .ok w'.disk
      ∧ ∀ i entry, desired[i]? = some entry →
          ∃ state, states[i]? = some state
            ∧ desiredState scheduler source (newId i) entry = some state.asked := by
  induction desired generalizing newId w with
  | nil =>
    obtain ⟨-, rfl⟩ := Prod.mk.inj h
    exact ⟨[], rfl, rfl, nofun⟩
  | cons entry rest ih =>
    rw [ensureDesiredSubscriptions] at h
    obtain ⟨providerId, hresolve, h⟩ := Eff.bind_lift_ok h
    obtain ⟨_, w1, hensure, hrest⟩ := Eff.bind_run_ok h
    obtain ⟨state, hasked, hwrite⟩ := ensureOnce_ok hensure
    obtain ⟨states, hlength, hwrites, hstates⟩ := ih hrest
    refine ⟨state :: states, ?_, ?_, fun i other hother => ?_⟩
    · rw [List.length_cons, List.length_cons, hlength]
    · rw [List.foldlM_cons]
      exact Outcome.bind_eq_ok_iff.mpr ⟨w1.disk, hwrite, hwrites⟩
    · cases i with
      | zero =>
        rw [List.getElem?_cons_zero, Option.some.injEq] at hother
        subst hother
        refine ⟨state, rfl, ?_⟩
        unfold desiredState
        rw [hresolve, hasked]
        rfl
      | succ i =>
        rw [List.getElem?_cons_succ] at hother
        exact hstates i other hother

/-! ## The places of a run -/

theorem pathOf_asked (store : SubscriptionStore) (state : SubscriptionState) :
    store.pathOf state.asked = store.pathOf state := rfl

theorem desiredPath_of_state {newId : String} {entry : DemoDesiredSubscription} {state : SubscriptionState}
    (h : desiredState scheduler source newId entry = some state.asked) :
    desiredPath scheduler source newId entry = some (scheduler.store.pathOf state) := by
  unfold desiredPath
  rw [h, Option.map_some, pathOf_asked]

section Run

variable {desired : List DemoDesiredSubscription} {newId : Nat → String} {w w' : World}
  (h : (ensureDesiredSubscriptions scheduler source newId desired).run w = (.ok (), w'))

include h

/-- The provider of every entry was found. -/
theorem exists_path_of_run {i : Nat} {entry : DemoDesiredSubscription} (hentry : desired[i]? = some entry) :
    ∃ path, desiredPath scheduler source (newId i) entry = some path := by
  obtain ⟨states, -, -, hstates⟩ := writes_of_run h
  obtain ⟨state, -, hdesired⟩ := hstates i entry hentry
  exact ⟨_, desiredPath_of_state hdesired⟩

/-- A state file that is the place of no entry stays. -/
theorem read_other {path : Path} (hpath : isStateFile path = true)
    (hnone : ∀ i entry, desired[i]? = some entry → desiredPath scheduler source (newId i) entry ≠ some path) :
    w'.disk.read path = w.disk.read path := by
  obtain ⟨states, hlength, hwrites, hstates⟩ := writes_of_run h
  have hfind : (states.reverse.find? fun state => scheduler.store.pathOf state == path) = none := by
    rw [List.find?_eq_none]
    intro state hstate heq
    obtain ⟨i, hi, hget⟩ := List.mem_iff_getElem.mp (List.mem_reverse.mp hstate)
    obtain ⟨state', hstate', hdesired⟩ :=
      hstates i desired[i] (List.getElem?_eq_getElem (hlength ▸ hi))
    have hsame : state' = state := by
      rw [List.getElem?_eq_getElem hi, Option.some.injEq] at hstate'
      rw [← hstate', hget]
    refine hnone i _ (List.getElem?_eq_getElem (hlength ▸ hi)) ?_
    rw [desiredPath_of_state hdesired, hsame, eq_of_beq heq]
  rw [read_of_writes hwrites hpath, hfind, Option.map_none, Option.none_or]

/-- **The place of an entry holds its state**, where no other state is written there. -/
theorem read_entry {i : Nat} {entry : DemoDesiredSubscription} (hentry : desired[i]? = some entry)
    {path : Path} (hplace : desiredPath scheduler source (newId i) entry = some path)
    (hpath : isStateFile path = true)
    (halone : ∀ j other, desired[j]? = some other → desiredPath scheduler source (newId j) other = some path →
      desiredState scheduler source (newId j) other = desiredState scheduler source (newId i) entry) :
    (w'.disk.read path).map askedContents
      = (desiredState scheduler source (newId i) entry).map Contents.value := by
  obtain ⟨states, hlength, hwrites, hstates⟩ := writes_of_run h
  rw [read_of_writes hwrites hpath]
  cases hfind : states.reverse.find? fun state => scheduler.store.pathOf state == path with
  | none =>
    -- The entry itself was written there.
    obtain ⟨state, hstate, hdesired⟩ := hstates i entry hentry
    rw [desiredPath_of_state hdesired, Option.some.injEq] at hplace
    have hno := List.find?_eq_none.mp hfind state (List.mem_reverse.mpr (List.mem_of_getElem? hstate))
    exact absurd (beq_iff_eq.mpr hplace) hno
  | some state =>
    have hlast : scheduler.store.pathOf state = path := by simpa using List.find?_some hfind
    obtain ⟨j, hj, hget⟩ :=
      List.mem_iff_getElem.mp (List.mem_reverse.mp (List.mem_of_find?_eq_some hfind))
    have hother : desired[j]? = some desired[j] := List.getElem?_eq_getElem (hlength ▸ hj)
    obtain ⟨state', hstate', hdesired⟩ := hstates j desired[j] hother
    have hsame : state' = state := by
      rw [List.getElem?_eq_getElem hj, Option.some.injEq] at hstate'
      rw [← hstate', hget]
    subst hsame
    have hwritten := halone j _ hother (by rw [desiredPath_of_state hdesired, hlast])
    rw [← hwritten, hdesired]
    rfl

end Run

/-! ## Ids -/

/-- Ids that are made anew in every run, and are plain names. -/
structure NewIds (newId newId' : Nat → String) : Prop where
  plain : ∀ i, newId i ≠ "" ∧ '/' ∉ (newId i).toList
  plain' : ∀ i, newId' i ≠ "" ∧ '/' ∉ (newId' i).toList
  fresh : ∀ i, newId i ≠ newId' i

/-- A binding id of its own keeps an entry from being given one. -/
theorem desiredState_of_bound {entry : DemoDesiredSubscription} (h : entry.bindingId ≠ none)
    (newId newId' : String) :
    desiredState scheduler source newId entry = desiredState scheduler source newId' entry := by
  obtain ⟨bindingId, hbinding⟩ := Option.ne_none_iff_exists'.mp h
  unfold desiredState
  rw [hbinding, Option.getD_some, Option.getD_some]

theorem desiredPath_of_bound {entry : DemoDesiredSubscription} (h : entry.bindingId ≠ none)
    (newId newId' : String) :
    desiredPath scheduler source newId entry = desiredPath scheduler source newId' entry := by
  unfold desiredPath
  rw [desiredState_of_bound h newId newId']

/-- The place of an entry without a binding id ends in the id it was given. -/
theorem getLast_of_unbound {entry : DemoDesiredSubscription} (h : entry.bindingId = none) {newId : String}
    (hplain : newId ≠ "" ∧ '/' ∉ newId.toList) {path : Path}
    (hplace : desiredPath scheduler source newId entry = some path) :
    path.getLast? = some (newId ++ ".json") := by
  unfold desiredPath desiredState at hplace
  rw [h, Option.getD_none] at hplace
  obtain ⟨state, hstate, rfl⟩ := Option.map_eq_some_iff.mp hplace
  obtain ⟨providerId, -, rfl⟩ := Option.map_eq_some_iff.mp hstate
  have hid : (askedFor scheduler providerId newId entry).key.bindingId = newId := rfl
  rw [← path_keyPlace, keyPlace_eq, path_place, hid, resolve_join _ (plain_json hplain),
    List.getLast?_append, List.getLast?_singleton, Option.some_or]

/-! ## Exactly -/

/-- **Ensuring twice is ensuring once exactly** where every entry has a binding id and a listed place,
and different entries have different places. -/
theorem ensuredTwice_iff (scheduler : Scheduler) (source : ProviderSource)
    (desired : List DemoDesiredSubscription) (newId newId' : Nat → String) (hids : NewIds newId newId')
    (w once twice : World)
    (hfirst : (ensureDesiredSubscriptions scheduler source newId desired).run w = (.ok (), once))
    (hsecond : (ensureDesiredSubscriptions scheduler source newId' desired).run once = (.ok (), twice)) :
    EnsuredTwice scheduler source desired newId newId' w.disk once.disk twice.disk
      ↔ PlacedApart scheduler source desired := by
  constructor
  · intro h
    have hbound : ∀ entry ∈ desired, entry.bindingId ≠ none := by
      intro entry hentry hnone
      obtain ⟨i, hi⟩ := List.getElem?_of_mem hentry
      obtain ⟨path, hplace⟩ := exists_path_of_run hfirst hi
      have hlast := getLast_of_unbound hnone (hids.plain i) hplace
      have hlast' := getLast_of_unbound hnone (hids.plain' i) ((h.again i entry hi).trans hplace)
      rw [hlast, Option.some.injEq, String.append_left_inj] at hlast'
      exact hids.fresh i hlast'
    refine ⟨hbound, fun a ha b hb hne => ?_, fun entry hentry path hplace => ?_⟩
    · obtain ⟨i, hi⟩ := List.getElem?_of_mem ha
      obtain ⟨j, hj⟩ := List.getElem?_of_mem hb
      rw [desiredPath_of_bound (hbound a ha) "" (newId i), desiredPath_of_bound (hbound b hb) "" (newId j)]
      exact h.apart i j a b hi hj hne
    · obtain ⟨i, hi⟩ := List.getElem?_of_mem hentry
      obtain ⟨path', hplace', hlisted, -⟩ := h.stored i entry hi
      rw [desiredPath_of_bound (hbound entry hentry) "" (newId i), hplace', Option.some.injEq] at hplace
      exact hplace ▸ hlisted
  · intro h
    have hpath : ∀ (i : Nat) (entry), desired[i]? = some entry → ∀ newId : String,
        desiredPath scheduler source newId entry = desiredPath scheduler source "" entry :=
      fun i entry hi newId => desiredPath_of_bound (h.bound entry (List.mem_of_getElem? hi)) newId ""
    have hstate : ∀ (i : Nat) (entry), desired[i]? = some entry → ∀ newId : String,
        desiredState scheduler source newId entry = desiredState scheduler source "" entry :=
      fun i entry hi newId => desiredState_of_bound (h.bound entry (List.mem_of_getElem? hi)) newId ""
    -- Two entries at one place are the same entry, so they have the same state.
    have hone : ∀ (i j : Nat) (a b), desired[i]? = some a → desired[j]? = some b →
        desiredPath scheduler source "" a = desiredPath scheduler source "" b → a = b := by
      intro i j a b hi hj heq
      by_contra hne
      exact h.apart a (List.mem_of_getElem? hi) b (List.mem_of_getElem? hj) hne heq
    have hread : ∀ (newId : Nat → String) (before after : World),
        (ensureDesiredSubscriptions scheduler source newId desired).run before = (.ok (), after) →
        ∀ (i : Nat) (entry path), desired[i]? = some entry → desiredPath scheduler source "" entry = some path →
          (after.disk.read path).map askedContents
            = (desiredState scheduler source "" entry).map Contents.value := by
      intro newId before after hrun i entry path hi hplace
      rw [← hstate i entry hi (newId i)]
      refine read_entry hrun hi ((hpath i entry hi _).trans hplace)
        (h.listed entry (List.mem_of_getElem? hi) path hplace).1 fun j other hj hother => ?_
      rw [hpath j other hj] at hother
      rw [hone j i other entry hj hi (hother.trans hplace.symm)]
      exact (hstate i entry hi _).trans (hstate i entry hi _).symm
    refine ⟨fun path hlisted => ?_, fun i entry hi => ?_, fun i entry hi => ?_, fun i j a b hi hj hne => ?_,
      fun path hlisted hnone => ?_⟩
    · by_cases hplaced : ∃ (i : Nat) (entry : _), desired[i]? = some entry
          ∧ desiredPath scheduler source "" entry = some path
      · obtain ⟨i, entry, hi, hplace⟩ := hplaced
        rw [hread newId' once twice hsecond i entry path hi hplace,
          hread newId w once hfirst i entry path hi hplace]
      · rw [read_other hsecond hlisted.1]
        intro i entry hi heq
        exact hplaced ⟨i, entry, hi, (hpath i entry hi _).symm.trans heq⟩
    · obtain ⟨path, hplace⟩ := exists_path_of_run hfirst hi
      have hplace' := (hpath i entry hi _).symm.trans hplace
      refine ⟨path, hplace, h.listed entry (List.mem_of_getElem? hi) path hplace', ?_⟩
      rw [hread newId w once hfirst i entry path hi hplace', hstate i entry hi (newId i)]
    · rw [hpath i entry hi (newId' i), hpath i entry hi (newId i)]
    · rw [hpath i a hi (newId i), hpath j b hj (newId j)]
      exact h.apart a (List.mem_of_getElem? hi) b (List.mem_of_getElem? hj) hne
    · exact read_other hfirst hlisted.1 hnone

/-! ## An entry without a binding id -/

def mailSource : ProviderSource where
  bundle :=
    { isDemoBundle := true
      packs := .ok [⟨"messaging.email", "/bundle/providers/messaging/messaging-email.gtpack", []⟩]
      manifest := none }
  discovered := .ok [("/bundle/providers/messaging/messaging-email.gtpack", "messaging.email")]

def mailEntry (bindingId : Option String) : DemoDesiredSubscription where
  provider := "messaging.email"
  resource := "/me/messages"
  changeTypes := ["created"]
  notificationUrl := some "https://example.com/webhook"
  clientState := none
  bindingId
  user := none

/-- The ids of a first run, and of a second. -/
def firstId : String := "8c5e7b3a-1f0d-4a52-9d36-0b2c4e6f8a10"

def secondId : String := "f47ac10b-58cc-4372-a567-0e02b2c3d479"

theorem newIds_first_second : NewIds (fun _ => firstId) (fun _ => secondId) where
  plain _ := ⟨by decide, by decide⟩
  plain' _ := ⟨by decide, by decide⟩
  fresh _ := by decide

/-- Ensuring one mail subscription. -/
def ensureMail (bindingId : Option String) (newId : String) : Eff World Unit :=
  ensureDesiredSubscriptions demoScheduler mailSource (fun _ => newId) [mailEntry bindingId]

/-- The world after ensuring it in an empty store. -/
def mailOnce (bindingId : Option String) : World := ((ensureMail bindingId firstId).run emptyWorld).2

def mailTwice (bindingId : Option String) : World :=
  ((ensureMail bindingId secondId).run (mailOnce bindingId)).2

/-- With a binding id of its own it is ensured twice as it is ensured once. -/
theorem bound_mail_ensuredTwice :
    EnsuredTwice demoScheduler mailSource [mailEntry (some "mail")] (fun _ => firstId) (fun _ => secondId)
        emptyWorld.disk (mailOnce (some "mail")).disk (mailTwice (some "mail")).disk
      ↔ PlacedApart demoScheduler mailSource [mailEntry (some "mail")] :=
  ensuredTwice_iff demoScheduler mailSource [mailEntry (some "mail")] (fun _ => firstId) (fun _ => secondId)
    newIds_first_second emptyWorld (mailOnce (some "mail")) (mailTwice (some "mail"))
    (Eff.run_eq_of_fst (x := ensureMail (some "mail") firstId) (by decide +kernel))
    (Eff.run_eq_of_fst (x := ensureMail (some "mail") secondId) (by decide +kernel))

/-- Without one, the second run stores a second state, under a new id. -/
theorem mail_piles_up :
    ¬ ∀ (scheduler : Scheduler) (source : ProviderSource) (desired : List DemoDesiredSubscription)
      (newId newId' : Nat → String), NewIds newId newId' → ∀ w once twice : World,
      (ensureDesiredSubscriptions scheduler source newId desired).run w = (.ok (), once) →
      (ensureDesiredSubscriptions scheduler source newId' desired).run once = (.ok (), twice) →
      EnsuredTwice scheduler source desired newId newId' w.disk once.disk twice.disk := by
  intro h
  have htwice := h demoScheduler mailSource [mailEntry none] (fun _ => firstId) (fun _ => secondId)
    newIds_first_second emptyWorld (mailOnce none) (mailTwice none)
    (Eff.run_eq_of_fst (x := ensureMail none firstId) (by decide +kernel))
    (Eff.run_eq_of_fst (x := ensureMail none secondId) (by decide +kernel))
  exact absurd (htwice.again 0 (mailEntry none) rfl) (by decide +kernel)

end Subscriptions
