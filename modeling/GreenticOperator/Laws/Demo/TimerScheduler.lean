import GreenticOperator.Demo.TimerScheduler
import GreenticOperator.Lib.Outcome

/-!
# Whether timers run in time and stop

Every handler of a manifest has an interval of at least a second, and so the instant at which it is due
next is after the one before. But the instant is added to the clock without a look at its range, and the
loop ends for a message alone: where the handle is dropped it goes on without waiting, and a stop in a pass
still lets the rest of the pass run. In runs without such steps all is as it should be
(`scheduler_over_runs`).
-/

namespace Demo.TimerScheduler

open Json Json.Value
open Card (getStr getArray)

/-! ## Intervals of manifests -/

theorem one_le_max (n : UInt64) : 1 ≤ max n 1 := by
  rw [UInt64.le_iff_toNat_le]
  unfold max instMaxUInt64
  show _ ≤ (if n ≤ 1 then 1 else n).toNat
  split
  next => exact Nat.le_refl _
  next h =>
    rw [UInt64.le_iff_toNat_le] at h
    omega

theorem one_le_of_parseTimerHandlerEntry {value : Value} {provider : String} {interval : UInt64}
    (hinterval : 1 ≤ interval) {handler : TimerHandlerConfig}
    (h : parseTimerHandlerEntry value provider interval = some handler) : 1 ≤ handler.intervalSeconds := by
  unfold parseTimerHandlerEntry at h
  split at h
  next =>
    cases h
    exact hinterval
  next =>
    obtain ⟨opId, -, rfl⟩ := Option.map_eq_some_iff.mp h
    exact one_le_max _

theorem one_le_of_parseTimerOp {op handlerId : String} {interval seconds : UInt64} (hinterval : 1 ≤ interval)
    (h : parseTimerOp op interval = some (handlerId, seconds)) : 1 ≤ seconds := by
  unfold parseTimerOp at h
  split at h
  next =>
    cases h
    exact hinterval
  next =>
    obtain ⟨tail, -, heq⟩ := Option.map_eq_some_iff.mp h
    split at heq
    next =>
      cases heq
      exact hinterval
    next =>
      split at heq
      next =>
        cases heq
        exact one_le_max _
      next =>
        cases heq
        exact hinterval

theorem one_le_of_mem_entriesOf {value : Value} {provider : String} {interval : UInt64} (hinterval : 1 ≤ interval)
    {handler : TimerHandlerConfig} (h : handler ∈ entriesOf value provider interval) : 1 ≤ handler.intervalSeconds := by
  obtain ⟨key, -, hentry⟩ := List.mem_flatMap.mp h
  obtain ⟨entry, -, hparse⟩ := List.mem_filterMap.mp hentry
  exact one_le_of_parseTimerHandlerEntry hinterval hparse

theorem one_le_of_parseExplicitTimerHandlers {manifest : Value} {provider : String} {interval : UInt64}
    (hinterval : 1 ≤ interval) {handlers : List TimerHandlerConfig}
    (h : parseExplicitTimerHandlers manifest provider interval = .ok handlers) :
    ∀ handler ∈ handlers, 1 ≤ handler.intervalSeconds := by
  obtain ⟨inline, -, h⟩ := Outcome.bind_eq_ok_iff.mp h
  dsimp only at h
  split at h
  next =>
    cases h
    exact fun handler hmem => one_le_of_mem_entriesOf hinterval hmem
  next =>
    cases h
    intro handler hmem
    obtain ⟨entry, -, hmap⟩ := List.mem_flatMap.mp hmem
    obtain ⟨found, hfound, rfl⟩ := List.mem_map.mp hmap
    have hone := one_le_of_mem_entriesOf hinterval hfound
    split
    · exact hone
    · exact hone

theorem one_le_of_handlersOf {interval : UInt64} {provider : DetectedProvider} {handlers : List TimerHandlerConfig}
    (h : handlersOf interval provider = .ok handlers) : ∀ handler ∈ handlers, 1 ≤ handler.intervalSeconds := by
  obtain ⟨manifest, -, h⟩ := Outcome.bind_eq_ok_iff.mp h
  obtain ⟨explicit, hexplicit, h⟩ := Outcome.bind_eq_ok_iff.mp h
  split at h
  next =>
    cases h
    exact one_le_of_parseExplicitTimerHandlers (one_le_max _) hexplicit
  next =>
    obtain ⟨ops, -, h⟩ := Outcome.bind_eq_ok_iff.mp h
    cases h
    intro handler hmem
    obtain ⟨op, -, hparse⟩ := List.mem_filterMap.mp hmem
    obtain ⟨found, hfound, rfl⟩ := Option.map_eq_some_iff.mp hparse
    exact one_le_of_parseTimerOp (one_le_max _) hfound

/-- Every interval that a manifest carries is at least a second. -/
theorem one_le_of_discoverTimerHandlers {interval : UInt64} {providers : List DetectedProvider}
    {handlers : List TimerHandlerConfig} (h : discoverTimerHandlers interval providers = .ok handlers) :
    ∀ handler ∈ handlers, 1 ≤ handler.intervalSeconds := by
  induction providers generalizing handlers with
  | nil =>
    cases h
    exact nofun
  | cons provider providers ih =>
    obtain ⟨first, hfirst, h⟩ := Outcome.bind_eq_ok_iff.mp h
    obtain ⟨others, hothers, h⟩ := Outcome.bind_eq_ok_iff.mp h
    cases h
    intro handler hmem
    rcases List.mem_append.mp hmem with hmem | hmem
    · unfold handlersIfEvents at hfirst
      split at hfirst
      next => exact one_le_of_handlersOf hfirst handler hmem
      next =>
        cases hfirst
        cases hmem
    · exact ih hothers handler hmem

/-! ## The loop -/

theorem addSeconds_isSome_iff {limit now : Nat} {seconds : UInt64} :
    (addSeconds limit now seconds).isSome ↔ now + 10 ^ 9 * seconds.toNat ≤ limit := by
  unfold addSeconds
  split
  next h => exact ⟨fun _ => h, fun _ => rfl⟩
  next h => exact ⟨nofun, (absurd · h)⟩

theorem lt_of_addSeconds {limit now due : Nat} {seconds : UInt64} (hone : 1 ≤ seconds)
    (h : addSeconds limit now seconds = some due) : now < due := by
  have hpos : 0 < seconds.toNat := UInt64.le_iff_toNat_le.mp hone
  unfold addSeconds at h
  split at h
  next =>
    cases h
    exact Nat.lt_add_of_pos_right (Nat.mul_pos (Nat.pow_pos (by decide)) hpos)
  next => cases h

section Loop

variable {limit : Nat} {handlers : List TimerHandlerConfig} {s s' : State} {event : Event} {events : List Event}

def Point.timers : Point → List ScheduledTimer
  | .building _ built => built
  | .top timers => timers
  | .passing _ looked rest => looked ++ rest
  | .running _ looked timer rest => looked ++ timer :: rest
  | .waiting _ timers => timers
  | .ended => []
  | .panicked => []

/-- The handlers that a thread has or is still to schedule. -/
def Point.configs : Point → List TimerHandlerConfig
  | .building handlers built => built.map (·.config) ++ handlers
  | point => point.timers.map (·.config)

/-- No timer that is still to be looked at in the pass is due. -/
def Point.Quiet : Point → Prop
  | .passing now _ rest => ∀ timer ∈ rest, now < timer.nextTick
  | .running now _ _ rest => ∀ timer ∈ rest, now < timer.nextTick
  | _ => True

/-- The steps to the end, once a message is sent and no timer is due. -/
def Point.stepsLeft : Point → Nat
  | .building todo built => built.length + 2 * todo.length + 4
  | .top timers => timers.length + 3
  | .passing _ _ rest => rest.length + 2
  | .running _ _ _ rest => rest.length + 3
  | .waiting _ _ => 1
  | _ => 0

/-- The instant at which a timer is due next is one that the clock has. -/
def Fits (limit : Nat) (s : State) : Prop :=
  match s.point with
  | .building (handler :: _) _ => s.time + 10 ^ 9 * (max handler.intervalSeconds 1).toNat ≤ limit
  | .running _ _ timer _ => s.time + 10 ^ 9 * timer.config.intervalSeconds.toNat ≤ limit
  | _ => True

/-- **What a step has to meet**: instants fit the clock, the handle is stopped and not dropped while the thread runs,
and no timer is due that is still to be looked at when it is stopped, or when a pass begins after that. -/
structure Meets (limit : Nat) (s : State) (event : Event) : Prop where
  fits : event.isLoop = true → Fits limit s
  notDropped : event = .dropped → s.point = .ended
  quiet : event = .stopped → s.point.Quiet
  begins : event = .looked → s.closed = true → ∀ timer ∈ s.point.timers, s.time < timer.nextTick

/-- What a step says is right: an instant is after the one before, and a handler is run when it is due. -/
def Event.Right : Event → Prop
  | .advanced old new => old < new
  | .ran due time => due ≤ time
  | _ => True

/-- What holds of the thread in every state. -/
structure Inv (handlers : List TimerHandlerConfig) (s : State) : Prop where
  alive : s.point ≠ .panicked
  configs : ∀ config ∈ s.point.configs, config ∈ handlers
  count : s.point.configs.length ≤ handlers.length
  passing : ∀ now looked rest, s.point = .passing now looked rest → now ≤ s.time
  running : ∀ now looked timer rest, s.point = .running now looked timer rest → timer.nextTick ≤ now ∧ now ≤ s.time
  closed : s.closed = true → s.point = .ended ∨ s.sent = true ∧ s.point.Quiet

theorem inv_start (handlers : List TimerHandlerConfig) (time : Nat) : Inv handlers (start handlers time) := by
  unfold start
  split
  next => exact ⟨nofun, nofun, Nat.zero_le _, nofun, nofun, nofun⟩
  next => exact ⟨nofun, fun config hmem => hmem, Nat.le_refl _, nofun, nofun, nofun⟩

/-- The thread moves on with the timers it has. -/
theorem Inv.move (h : Inv handlers s) {point : Point} (halive : point ≠ .panicked)
    (hconfigs : point.configs.Sublist s.point.configs)
    (hpassing : ∀ now looked rest, point = .passing now looked rest → now ≤ s.time)
    (hrunning : ∀ now looked timer rest, point = .running now looked timer rest → timer.nextTick ≤ now ∧ now ≤ s.time)
    (hclosed : s.closed = true → point = .ended ∨ s.sent = true ∧ point.Quiet) : Inv handlers { s with point } where
  alive := halive
  configs config hmem := h.configs config (hconfigs.subset hmem)
  count := hconfigs.length_le.trans h.count
  passing := hpassing
  running := hrunning
  closed := hclosed

/-- Once the handle is gone and the thread has not ended, a message was sent and all is quiet. -/
theorem Inv.quiet (h : Inv handlers s) (hpoint : s.point ≠ .ended) (hclosed : s.closed = true) :
    s.sent = true ∧ s.point.Quiet := (h.closed hclosed).resolve_left hpoint

/-- What a step of the thread does: it keeps what holds, is right, and once the handle is gone runs nothing and comes
nearer to the end. -/
structure Proceeds (handlers : List TimerHandlerConfig) (s : State) (event : Event) (s' : State) : Prop where
  inv : Inv handlers s'
  right : event.Right
  nearer : s.closed = true → (∀ due time, event ≠ .ran due time) ∧ s'.point.stepsLeft < s.point.stepsLeft

variable {outcome : Option String}

theorem isLoop_of_loopStep (h : loopStep limit outcome s = some (event, s')) : event.isLoop = true := by
  unfold loopStep at h
  grind [Event.isLoop]

theorem closed_of_loopStep (h : loopStep limit outcome s = some (event, s')) : s'.closed = s.closed := by
  unfold loopStep at h
  grind

/-- The thread ends for a message alone. -/
theorem not_ended_of_loopStep (hsent : s.sent = false) (h : loopStep limit outcome s = some (event, s')) :
    s'.sent = s.sent ∧ s'.point ≠ .ended := by
  unfold loopStep at h
  grind

theorem proceeds_building {todo : List TimerHandlerConfig} {built : List ScheduledTimer} (h : Inv handlers s)
    (hfits : Fits limit s) (hpoint : s.point = .building todo built)
    (hstep : loopStep limit outcome s = some (event, s')) : Proceeds handlers s event s' := by
  have hsent (hclosed : s.closed = true) : s.sent = true := (h.quiet (by rw [hpoint]; nofun) hclosed).1
  unfold loopStep at hstep
  unfold Fits at hfits
  rw [hpoint] at hstep hfits
  cases todo with
  | nil =>
    cases hstep
    refine ⟨h.move nofun ?_ nofun nofun fun hclosed => Or.inr ⟨hsent hclosed, trivial⟩, trivial, ?_⟩
    · rw [hpoint]
      exact List.sublist_append_left _ _
    · rw [hpoint]
      exact fun _ => ⟨nofun, Nat.lt_succ_self _⟩
  | cons handler rest =>
    obtain ⟨due, hdue⟩ := Option.isSome_iff_exists.mp (addSeconds_isSome_iff.mpr hfits)
    dsimp only at hstep
    rw [hdue] at hstep
    cases hstep
    refine ⟨h.move nofun ?_ nofun nofun fun hclosed => Or.inr ⟨hsent hclosed, trivial⟩, trivial, ?_⟩
    · rw [hpoint]
      show (List.map _ (built ++ [_]) ++ rest).Sublist (List.map _ built ++ handler :: rest)
      rw [List.map_append, List.append_assoc]
      exact List.Sublist.refl _
    · rw [hpoint]
      refine fun _ => ⟨nofun, ?_⟩
      show (built ++ [_]).length + 2 * rest.length + 4 < built.length + 2 * (rest.length + 1) + 4
      rw [List.length_append, List.length_singleton]
      omega

theorem proceeds_top {timers : List ScheduledTimer} (h : Inv handlers s)
    (hbegins : s.closed = true → ∀ timer ∈ s.point.timers, s.time < timer.nextTick) (hpoint : s.point = .top timers)
    (hstep : loopStep limit outcome s = some (event, s')) : Proceeds handlers s event s' := by
  have hsent (hclosed : s.closed = true) : s.sent = true := (h.quiet (by rw [hpoint]; nofun) hclosed).1
  unfold loopStep at hstep
  rw [hpoint] at hstep hbegins
  cases hstep
  refine ⟨h.move nofun ?_ ?_ nofun fun hclosed => Or.inr ⟨hsent hclosed, hbegins hclosed⟩, trivial, ?_⟩
  · rw [hpoint]
    exact List.Sublist.refl _
  · rintro now looked rest ⟨⟩
    exact Nat.le_refl _
  · rw [hpoint]
    exact fun _ => ⟨nofun, Nat.lt_succ_self _⟩

theorem proceeds_passing {now : Nat} {looked rest : List ScheduledTimer} (h : Inv handlers s)
    (hpoint : s.point = .passing now looked rest) (hstep : loopStep limit outcome s = some (event, s')) :
    Proceeds handlers s event s' := by
  have hnow := h.passing now looked rest hpoint
  have hquiet : s.closed = true → s.sent = true ∧ ∀ timer ∈ rest, now < timer.nextTick := by
    intro hclosed
    have hboth := h.quiet (by rw [hpoint]; nofun) hclosed
    rw [hpoint] at hboth
    exact hboth
  unfold loopStep at hstep
  rw [hpoint] at hstep
  cases rest with
  | nil =>
    cases hstep
    refine ⟨h.move nofun ?_ nofun nofun ?_, trivial, ?_⟩
    · rw [hpoint]
      show (List.map _ looked).Sublist (List.map _ (looked ++ []))
      rw [List.append_nil]
    · exact fun hclosed => Or.inr ⟨(hquiet hclosed).1, trivial⟩
    · rw [hpoint]
      exact fun _ => ⟨nofun, Nat.lt_succ_self _⟩
  | cons timer rest =>
    dsimp only at hstep
    split at hstep
    next =>
      cases hstep
      refine ⟨h.move nofun ?_ ?_ nofun ?_, trivial, ?_⟩
      · rw [hpoint]
        show (List.map _ (looked ++ [timer] ++ rest)).Sublist (List.map _ (looked ++ timer :: rest))
        rw [List.append_assoc]
        exact List.Sublist.refl _
      · rintro _ _ _ ⟨⟩
        exact hnow
      · intro hclosed
        obtain ⟨hsent, hnone⟩ := hquiet hclosed
        exact Or.inr ⟨hsent, fun other hother => hnone other (List.mem_cons_of_mem timer hother)⟩
      · rw [hpoint]
        exact fun _ => ⟨nofun, Nat.lt_succ_self _⟩
    next hdue =>
      -- A handler that is due is run, and then the handle is still there.
      have hopen : s.closed ≠ true := fun hclosed => hdue ((hquiet hclosed).2 timer List.mem_cons_self)
      cases hstep
      have hreached : timer.nextTick ≤ now := Nat.le_of_not_lt hdue
      refine ⟨h.move nofun ?_ nofun ?_ (absurd · hopen), ?_, (absurd · hopen)⟩
      · rw [hpoint]
        exact List.Sublist.refl _
      · rintro _ _ _ _ ⟨⟩
        exact ⟨hreached, hnow⟩
      · exact hreached.trans hnow

theorem proceeds_running {now : Nat} {looked rest : List ScheduledTimer} {timer : ScheduledTimer}
    (hone : ∀ handler ∈ handlers, 1 ≤ handler.intervalSeconds) (h : Inv handlers s) (hfits : Fits limit s)
    (hpoint : s.point = .running now looked timer rest) (hstep : loopStep limit outcome s = some (event, s')) :
    Proceeds handlers s event s' := by
  obtain ⟨hdue, hnow⟩ := h.running now looked timer rest hpoint
  have hquiet : s.closed = true → s.sent = true ∧ ∀ timer ∈ rest, now < timer.nextTick := by
    intro hclosed
    have hboth := h.quiet (by rw [hpoint]; nofun) hclosed
    rw [hpoint] at hboth
    exact hboth
  have hinterval : 1 ≤ timer.config.intervalSeconds := by
    have hmem : timer.config ∈ s.point.configs := by
      rw [hpoint]
      exact List.mem_map_of_mem (List.mem_append_right looked List.mem_cons_self)
    exact hone _ (h.configs _ hmem)
  unfold loopStep at hstep
  unfold Fits at hfits
  rw [hpoint] at hstep hfits
  obtain ⟨next, hnext⟩ := Option.isSome_iff_exists.mp (addSeconds_isSome_iff.mpr hfits)
  dsimp only at hstep
  rw [hnext] at hstep
  cases hstep
  refine ⟨h.move nofun ?_ ?_ nofun ?_, ?_, ?_⟩
  · rw [hpoint]
    show (List.map _ (looked ++ [_] ++ rest)).Sublist (List.map _ (looked ++ timer :: rest))
    simp only [List.append_assoc, List.singleton_append, List.map_append, List.map_cons]
    exact List.Sublist.refl _
  · rintro _ _ _ ⟨⟩
    exact hnow
  · exact fun hclosed => Or.inr (hquiet hclosed)
  · calc timer.nextTick ≤ s.time := hdue.trans hnow
      _ < next := lt_of_addSeconds hinterval hnext
  · rw [hpoint]
    exact fun _ => ⟨nofun, Nat.lt_succ_self _⟩

theorem proceeds_waiting {wake : Nat} {timers : List ScheduledTimer} (h : Inv handlers s)
    (hpoint : s.point = .waiting wake timers) (hstep : loopStep limit outcome s = some (event, s')) :
    Proceeds handlers s event s' := by
  unfold loopStep at hstep
  rw [hpoint] at hstep
  dsimp only at hstep
  split at hstep
  next =>
    cases hstep
    refine ⟨h.move nofun (List.nil_sublist _) nofun nofun fun _ => Or.inl rfl, trivial, ?_⟩
    rw [hpoint]
    exact fun _ => ⟨nofun, Nat.one_pos⟩
  next hsent =>
    have hopen : s.closed ≠ true := fun hclosed => hsent (h.quiet (by rw [hpoint]; nofun) hclosed).1
    split at hstep
    next =>
      cases hstep
      refine ⟨h.move nofun ?_ nofun nofun (absurd · hopen), trivial, (absurd · hopen)⟩
      rw [hpoint]
      exact List.Sublist.refl _
    next => cases hstep

/-- **One step of the thread.** -/
theorem proceeds_of_loopStep (hone : ∀ handler ∈ handlers, 1 ≤ handler.intervalSeconds) (h : Inv handlers s)
    (hok : Meets limit s event) (hstep : loopStep limit outcome s = some (event, s')) :
    Proceeds handlers s event s' := by
  have hfits := hok.fits (isLoop_of_loopStep hstep)
  cases hpoint : s.point with
  | building todo built => exact proceeds_building h hfits hpoint hstep
  | top timers =>
    refine proceeds_top h (hok.begins ?_) hpoint hstep
    unfold loopStep at hstep
    rw [hpoint] at hstep
    cases hstep
    rfl
  | passing now looked rest => exact proceeds_passing h hpoint hstep
  | running now looked timer rest => exact proceeds_running hone h hfits hpoint hstep
  | waiting wake timers => exact proceeds_waiting h hpoint hstep
  | ended =>
    unfold loopStep at hstep
    rw [hpoint] at hstep
    cases hstep
  | panicked =>
    unfold loopStep at hstep
    rw [hpoint] at hstep
    cases hstep

/-! ## Runs -/

/-- What holds of the thread holds after any step that meets its condition. -/
theorem Inv.step (hone : ∀ handler ∈ handlers, 1 ≤ handler.intervalSeconds) (h : Inv handlers s)
    (hstep : Step limit s event s') (hok : Meets limit s event) : Inv handlers s' ∧ event.Right := by
  cases hstep with
  | loop outcome hloop =>
    have hproceeds := proceeds_of_loopStep hone h hok hloop
    exact ⟨hproceeds.inv, hproceeds.right⟩
  | elapse htime =>
    refine ⟨⟨h.alive, h.configs, h.count, ?_, ?_, h.closed⟩, trivial⟩
    · intro now looked rest hpoint
      exact (h.passing now looked rest hpoint).trans htime
    · intro now looked timer rest hpoint
      obtain ⟨hdue, hnow⟩ := h.running now looked timer rest hpoint
      exact ⟨hdue, hnow.trans htime⟩
  | stop hopen =>
    refine ⟨⟨h.alive, h.configs, h.count, h.passing, h.running, ?_⟩, trivial⟩
    intro _
    exact Or.inr ⟨rfl, hok.quiet rfl⟩
  | drop hopen =>
    refine ⟨⟨h.alive, h.configs, h.count, h.passing, h.running, ?_⟩, trivial⟩
    intro _
    exact Or.inl (hok.notDropped rfl)

/-- In a run all that holds of the thread holds to the end, and every step is right. -/
theorem Inv.runs (hone : ∀ handler ∈ handlers, 1 ≤ handler.intervalSeconds) (h : Inv handlers s)
    (hruns : Runs limit (Meets limit) s events s') : Inv handlers s' ∧ ∀ event ∈ events, event.Right := by
  induction hruns with
  | nil => exact ⟨h, nofun⟩
  | cons hstep hok _ ih =>
    obtain ⟨hnext, hright⟩ := h.step hone hstep hok
    obtain ⟨hlast, hrest⟩ := ih hnext
    refine ⟨hlast, ?_⟩
    intro event hmem
    rcases List.mem_cons.mp hmem with rfl | hmem
    · exact hright
    · exact hrest event hmem

/-- A thread that is left by its handle runs no handler any more, and each of its steps brings it nearer to the end. -/
theorem Inv.runs_closed (hone : ∀ handler ∈ handlers, 1 ≤ handler.intervalSeconds) (h : Inv handlers s)
    (hclosed : s.closed = true) (hruns : Runs limit (Meets limit) s events s') :
    s'.closed = true ∧ (∀ due time, Event.ran due time ∉ events) ∧
      events.countP Event.isLoop + s'.point.stepsLeft ≤ s.point.stepsLeft := by
  induction hruns with
  | nil => exact ⟨hclosed, fun _ _ => List.not_mem_nil, Nat.le_of_eq (Nat.zero_add _)⟩
  | @cons s middle s' event events hstep hok _ ih =>
    have hnext := (h.step hone hstep hok).1
    have hmove : middle.closed = true ∧ (∀ due time, event ≠ .ran due time) ∧
        [event].countP Event.isLoop + middle.point.stepsLeft ≤ s.point.stepsLeft := by
      cases hstep with
      | loop outcome hloop =>
        obtain ⟨hnone, hless⟩ := (proceeds_of_loopStep hone h hok hloop).nearer hclosed
        refine ⟨(closed_of_loopStep hloop).trans hclosed, hnone, ?_⟩
        rw [List.countP_singleton, if_pos (isLoop_of_loopStep hloop)]
        omega
      | elapse htime => exact ⟨hclosed, nofun, Nat.le_of_eq (Nat.zero_add _)⟩
      | stop hopen => exact absurd (hopen.symm.trans hclosed) nofun
      | drop hopen => exact absurd (hopen.symm.trans hclosed) nofun
    obtain ⟨hclosed', hnone, hcount⟩ := hmove
    obtain ⟨hlast, hrest, hsum⟩ := ih hnext hclosed'
    refine ⟨hlast, ?_, ?_⟩
    · intro due time hmem
      rcases List.mem_cons.mp hmem with heq | hmem
      · exact hnone due time heq.symm
      · exact hrest due time hmem
    · rw [← List.singleton_append, List.countP_append]
      omega

/-- Once a message is sent the thread has ended, has panicked or takes a step. -/
theorem loopStep_isSome_of_sent (hsent : s.sent = true) (hended : s.point ≠ .ended) (halive : s.point ≠ .panicked) :
    (loopStep limit outcome s).isSome := by
  unfold loopStep
  split
  next => split <;> rfl
  next => rfl
  next => rfl
  next => split <;> rfl
  next => split <;> rfl
  next => rfl
  next => rw [if_pos hsent]; rfl
  next h => exact absurd h hended
  next h => exact absurd h halive

/-- A thread that is left by its handle has ended or takes a step. -/
theorem Inv.goes_on (h : Inv handlers s) (hclosed : s.closed = true) (limit : Nat) :
    s.point = .ended ∨ ∀ outcome, (loopStep limit outcome s).isSome := by
  rcases h.closed hclosed with hended | ⟨hsent, -⟩
  · exact Or.inl hended
  · exact or_iff_not_imp_left.mpr fun hended _ => loopStep_isSome_of_sent hsent hended h.alive

/-- The steps that are left are not many more than the handlers. -/
theorem Inv.stepsLeft_le (h : Inv handlers s) : s.point.stepsLeft ≤ 2 * handlers.length + 4 := by
  have hcount := h.count
  cases hpoint : s.point with
  | building todo built =>
    rw [hpoint] at hcount
    simp only [Point.configs, List.length_append, List.length_map] at hcount
    show built.length + 2 * todo.length + 4 ≤ _
    omega
  | top timers =>
    rw [hpoint] at hcount
    simp only [Point.configs, Point.timers, List.length_map] at hcount
    show timers.length + 3 ≤ _
    omega
  | passing now looked rest =>
    rw [hpoint] at hcount
    simp only [Point.configs, Point.timers, List.length_map, List.length_append] at hcount
    show rest.length + 2 ≤ _
    omega
  | running now looked timer rest =>
    rw [hpoint] at hcount
    simp only [Point.configs, Point.timers, List.length_map, List.length_append, List.length_cons] at hcount
    show rest.length + 3 ≤ _
    omega
  | waiting wake timers =>
    show 1 ≤ _
    omega
  | ended => exact Nat.zero_le _
  | panicked => exact Nat.zero_le _

/-- A handle that is dropped sends no message, and then the thread never ends. -/
theorem never_ends_of_dropped {Ok : State → Event → Prop} (hsent : s.sent = false) (hclosed : s.closed = true)
    (hpoint : s.point ≠ .ended) (hruns : Runs limit Ok s events s') : s'.point ≠ .ended := by
  induction hruns with
  | nil => exact hpoint
  | cons hstep _ _ ih =>
    cases hstep with
    | loop outcome hloop =>
      obtain ⟨hsame, hnot⟩ := not_ended_of_loopStep hsent hloop
      exact ih (hsame.trans hsent) ((closed_of_loopStep hloop).trans hclosed) hnot
    | elapse htime => exact ih hsent hclosed hpoint
    | stop hopen => exact absurd (hopen.symm.trans hclosed) nofun
    | drop hopen => exact absurd (hopen.symm.trans hclosed) nofun

end Loop

/-- A handler that the manifest of some pack carries. -/
def Discovered (handler : TimerHandlerConfig) : Prop :=
  ∃ interval providers handlers, discoverTimerHandlers interval providers = .ok handlers ∧ handler ∈ handlers

/-- **What is promised of the timers**, in the runs whose steps meet a condition: no panic, an instant that is due next
is after the one before, no handler runs before it is due; and once the handle is gone none runs, and the thread comes
to its end in so many steps and is never kept from the next of them. -/
def RunsSafely (limit : Nat) (Ok : State → Event → Prop) (handlers : List TimerHandlerConfig) : Prop :=
  ∀ time events s, Runs limit Ok (start handlers time) events s →
    s.point ≠ .panicked ∧ (∀ event ∈ events, event.Right) ∧
    (s.closed = true → ∀ later s', Runs limit Ok s later s' →
      (∀ due time, Event.ran due time ∉ later) ∧ later.countP Event.isLoop ≤ 2 * handlers.length + 4 ∧
      (s'.point = .ended ∨ ∀ outcome, (loopStep limit outcome s').isSome))

/-- **The scheduler over runs.** Where instants fit the clock, and the handle is stopped while no timer that is still to
be looked at is due, every set of handlers that manifests carry runs as is promised. -/
theorem scheduler_over_runs {handlers : List TimerHandlerConfig}
    (hmanifest : ∀ handler ∈ handlers, Discovered handler) (limit : Nat) : RunsSafely limit (Meets limit) handlers := by
  have hone : ∀ handler ∈ handlers, 1 ≤ handler.intervalSeconds := by
    intro handler hmem
    obtain ⟨interval, providers, found, hfound, hin⟩ := hmanifest handler hmem
    exact one_le_of_discoverTimerHandlers hfound handler hin
  intro time events s hruns
  obtain ⟨hinv, hright⟩ := (inv_start handlers time).runs hone hruns
  refine ⟨hinv.alive, hright, ?_⟩
  intro hclosed later s' hlater
  obtain ⟨hclosed', hnone, hcount⟩ := hinv.runs_closed hone hclosed hlater
  have hinv' := (hinv.runs hone hlater).1
  refine ⟨hnone, ?_, hinv'.goes_on hclosed' limit⟩
  calc later.countP Event.isLoop ≤ s.point.stepsLeft := (Nat.le_add_right _ _).trans hcount
    _ ≤ 2 * handlers.length + 4 := hinv.stepsLeft_le

/-! ### A handler that is run every so many seconds -/

/-- A provider whose manifest names one operation and its interval. -/
def tickProvider (seconds : UInt64) : DetectedProvider where
  providerId := "events-timer"
  domain := "events"
  manifest := .ok (.object [("extensions", .object [("greentic.provider-extension.v1", .object [("inline",
    .object [("timers", .array [.object [("interval_seconds", .number (.posInt seconds)), ("op_id", .string "tick")]])])])])])

def tick (intervalSeconds : UInt64) : TimerHandlerConfig := ⟨"events-timer", "tick", "default", intervalSeconds⟩

theorem discovered_tick (seconds : UInt64) : Discovered (tick (max seconds 1)) :=
  ⟨60, [tickProvider seconds], [tick (max seconds 1)], rfl, List.mem_singleton_self _⟩

theorem Runs.thread {limit : Nat} {Ok : State → Event → Prop} {s s'' : State} {event : Event} {events : List Event}
    (s' : State) (hstep : loopStep limit none s = some (event, s')) (hok : Ok s event)
    (hrest : Runs limit Ok s' events s'') : Runs limit Ok s (event :: events) s'' :=
  .cons (.loop none hstep) hok hrest

theorem Meets.of_open {limit : Nat} {s : State} {event : Event} (hloop : event.isLoop = true) (hfits : Fits limit s)
    (hopen : s.closed = false) : Meets limit s event where
  fits _ := hfits
  notDropped h := by
    subst h
    cases hloop
  quiet h := by
    subst h
    cases hloop
  begins _ hclosed := absurd (hopen.symm.trans hclosed) nofun

/-- The handler is run when it is due, and the thread ends once it is stopped. -/
theorem runs_tick : Runs (2 ^ 93) (Meets (2 ^ 93)) (start [tick 5] 0)
    [.built, .started, .looked, .skipped, .slept, .elapsed, .woke, .looked, .ran 5000000000 5000000000,
      .advanced 5000000000 10000000000, .slept, .stopped, .finished] ⟨5000000000, true, true, .ended⟩ := by
  let first : ScheduledTimer := ⟨tick 5, 5000000000, none⟩
  let second : ScheduledTimer := ⟨tick 5, 10000000000, none⟩
  refine .thread ⟨0, false, false, .building [] [first]⟩ (by decide +kernel) (.of_open rfl ?_ rfl) ?_
  · show 0 + 10 ^ 9 * (5 : UInt64).toNat ≤ 2 ^ 93
    decide
  refine .thread ⟨0, false, false, .top [first]⟩ rfl (.of_open rfl trivial rfl) ?_
  refine .thread ⟨0, false, false, .passing 0 [] [first]⟩ rfl (.of_open rfl trivial rfl) ?_
  refine .thread ⟨0, false, false, .passing 0 [first] []⟩ rfl (.of_open rfl trivial rfl) ?_
  refine .thread ⟨0, false, false, .waiting 5000000000 [first]⟩ (by decide +kernel) (.of_open rfl trivial rfl) ?_
  refine .cons (.elapse _ (Nat.zero_le 5000000000)) ⟨nofun, nofun, nofun, nofun⟩ ?_
  refine .thread ⟨5000000000, false, false, .top [first]⟩ (by decide +kernel) (.of_open rfl trivial rfl) ?_
  refine .thread ⟨5000000000, false, false, .passing 5000000000 [] [first]⟩ rfl (.of_open rfl trivial rfl) ?_
  refine .thread ⟨5000000000, false, false, .running 5000000000 [] first []⟩ (by decide +kernel)
    (.of_open rfl trivial rfl) ?_
  refine .thread ⟨5000000000, false, false, .passing 5000000000 [second] []⟩ (by decide +kernel) (.of_open rfl ?_ rfl) ?_
  · show 5000000000 + 10 ^ 9 * (5 : UInt64).toNat ≤ 2 ^ 93
    decide
  refine .thread ⟨5000000000, false, false, .waiting 10000000000 [second]⟩ (by decide +kernel)
    (.of_open rfl trivial rfl) ?_
  refine .cons (.stop _ rfl) ⟨nofun, nofun, fun _ => trivial, nofun⟩ ?_
  refine .thread ⟨5000000000, true, true, .ended⟩ rfl ⟨fun _ => trivial, nofun, nofun, nofun⟩ ?_
  exact .nil _

theorem scheduler_over_runs_tick : RunsSafely (2 ^ 93) (Meets (2 ^ 93)) [tick 5] ∧
    ∃ events s, Runs (2 ^ 93) (Meets (2 ^ 93)) (start [tick 5] 0) events s ∧ s.closed = true ∧ s.point = .ended := by
  constructor
  · refine scheduler_over_runs ?_ (2 ^ 93)
    intro handler hmem
    rw [List.mem_singleton.mp hmem]
    exact discovered_tick 5
  · exact ⟨_, _, runs_tick, rfl, rfl⟩

/-- An interval of the longest kind is not added to the clock, and a handle that is dropped leaves a thread that runs
its handler. -/
theorem scheduler_panics_and_runs_on :
    (Discovered (tick 18446744073709551615) ∧
      ¬RunsSafely ((2 ^ 63 - 1) * 10 ^ 9) (fun _ _ => True) [tick 18446744073709551615]) ∧
    Discovered (tick 1) ∧ ¬RunsSafely ((2 ^ 63 - 1) * 10 ^ 9) (fun _ _ => True) [tick 1] := by
  refine ⟨⟨discovered_tick 18446744073709551615, ?_⟩, discovered_tick 1, ?_⟩
  · intro h
    refine (h 0 [.overflowed] ⟨0, false, false, .panicked⟩ ?_).1 rfl
    exact .thread ⟨0, false, false, .panicked⟩ (by decide +kernel) trivial (.nil _)
  · intro h
    let timer : ScheduledTimer := ⟨tick 1, 1000000000, none⟩
    have hrun := h 0 [.built, .started, .dropped] ⟨0, false, true, .top [timer]⟩ ?_
    · refine (hrun.2.2 rfl [.elapsed, .looked, .ran 1000000000 1000000000]
        ⟨1000000000, false, true, .running 1000000000 [] timer []⟩ ?_).1 1000000000 1000000000 ?_
      · refine .cons (.elapse _ (Nat.zero_le 1000000000)) trivial ?_
        refine .thread ⟨1000000000, false, true, .passing 1000000000 [] [timer]⟩ rfl trivial ?_
        refine .thread ⟨1000000000, false, true, .running 1000000000 [] timer []⟩ (by decide +kernel) trivial ?_
        exact .nil _
      · simp only [List.mem_cons, true_or, or_true]
    · refine .thread ⟨0, false, false, .building [] [timer]⟩ (by decide +kernel) trivial ?_
      refine .thread ⟨0, false, false, .top [timer]⟩ rfl trivial ?_
      exact .cons (.drop _ rfl) trivial (.nil _)

end Demo.TimerScheduler
