/-!
# Eff — computations that change a state and may fail

An `Eff σ α` takes the state it starts in to the state it ends in, with a value or an error
text. What was done before an error stays done. The laws say how a sequence runs
(`bind_run`) and how a successful one comes apart (`bind_run_ok`).
-/

universe u

/-- A computation over a state that may fail. -/
def Eff (σ : Type u) (α : Type) : Type u := σ → Except String α × σ

namespace Eff

variable {σ : Type u} {α β : Type}

def run (x : Eff σ α) (s : σ) : Except String α × σ := x s

instance : Monad (Eff σ) where
  pure a := fun s => (.ok a, s)
  bind x f := fun s =>
    match x s with
    | (.ok a, s') => f a s'
    | (.error e, s') => (.error e, s')

/-- A computation that only looks at the state. -/
def read (f : σ → α) : Eff σ α := fun s => (.ok (f s), s)

/-- A computation that only changes the state. -/
def modify (f : σ → σ) : Eff σ Unit := fun s => (.ok (), f s)

def fail (message : String) : Eff σ α := fun s => (.error message, s)

/-- The value or the error of something already computed. -/
def lift (x : Except String α) : Eff σ α := fun s => (x, s)

/-- A computation whose failure is its value. -/
def attempt (x : Eff σ α) : Eff σ (Except String α) := fun s =>
  ((.ok (x s).1), (x s).2)

/-- A computation over a part of the state. -/
def within {τ : Type u} (part : σ → τ) (put : τ → σ → σ) (x : Eff τ α) : Eff σ α := fun s =>
  ((x (part s)).1, put (x (part s)).2 s)

theorem run_eq (x : Eff σ α) (s : σ) : x.run s = x s := rfl

@[simp] theorem pure_run (a : α) (s : σ) : (pure a : Eff σ α).run s = (.ok a, s) := rfl

theorem bind_run (x : Eff σ α) (f : α → Eff σ β) (s : σ) :
    (x >>= f).run s
      = match x.run s with
        | (.ok a, s') => (f a).run s'
        | (.error e, s') => (.error e, s') := rfl

@[simp] theorem read_run (f : σ → α) (s : σ) : (read f).run s = (.ok (f s), s) := rfl

@[simp] theorem modify_run (f : σ → σ) (s : σ) : (modify f).run s = (.ok (), f s) := rfl

@[simp] theorem lift_run (x : Except String α) (s : σ) : (lift x).run s = (x, s) := rfl

@[simp] theorem attempt_run (x : Eff σ α) (s : σ) :
    x.attempt.run s = (.ok (x.run s).1, (x.run s).2) := rfl

@[simp] theorem within_run {τ : Type u} (part : σ → τ) (put : τ → σ → σ) (x : Eff τ α) (s : σ) :
    (within part put x).run s = ((x.run (part s)).1, put (x.run (part s)).2 s) := rfl

/-- A run, taken apart by its outcome. -/
theorem run_eq_of_fst {x : Eff σ α} {s : σ} {r : Except String α} (h : (x.run s).1 = r) :
    x.run s = (r, (x.run s).2) := Prod.ext h rfl

theorem bind_run_of_ok {x : Eff σ α} {f : α → Eff σ β} {s s' : σ} {a : α}
    (h : x.run s = (.ok a, s')) : (x >>= f).run s = (f a).run s' := by
  rw [bind_run, h]

theorem bind_run_of_error {x : Eff σ α} {f : α → Eff σ β} {s s' : σ} {e : String}
    (h : x.run s = (.error e, s')) : (x >>= f).run s = (.error e, s') := by
  rw [bind_run, h]

theorem bind_lift_run_ok (a : α) (f : α → Eff σ β) (s : σ) : (lift (.ok a) >>= f).run s = (f a).run s := rfl

theorem bind_lift_run_error (e : String) (f : α → Eff σ β) (s : σ) :
    (lift (.error e) >>= f).run s = (.error e, s) := rfl

theorem bind_read_run (g : σ → α) (f : α → Eff σ β) (s : σ) : (read g >>= f).run s = (f (g s)).run s := rfl

theorem bind_within_of_ok {τ : Type u} {part : σ → τ} {put : τ → σ → σ} {x : Eff τ α} {f : α → Eff σ β}
    {s : σ} {t : τ} {a : α} (h : x.run (part s) = (.ok a, t)) :
    (within part put x >>= f).run s = (f a).run (put t s) :=
  bind_run_of_ok (by rw [within_run, h])

theorem bind_within_of_error {τ : Type u} {part : σ → τ} {put : τ → σ → σ} {x : Eff τ α}
    {f : α → Eff σ β} {s : σ} {t : τ} {e : String} (h : x.run (part s) = (.error e, t)) :
    (within part put x >>= f).run s = (.error e, put t s) :=
  bind_run_of_error (by rw [within_run, h])

/-- **A sequence that succeeded** had a first part that did. -/
theorem bind_run_ok {x : Eff σ α} {f : α → Eff σ β} {s s'' : σ} {b : β}
    (h : (x >>= f).run s = (.ok b, s'')) :
    ∃ a s', x.run s = (.ok a, s') ∧ (f a).run s' = (.ok b, s'') := by
  rw [bind_run] at h
  cases hx : x.run s with
  | mk result s' =>
    rw [hx] at h
    cases result with
    | ok a => exact ⟨a, s', rfl, h⟩
    | error e => cases h

theorem pure_run_ok {a b : α} {s s' : σ} (h : (pure a : Eff σ α).run s = (.ok b, s')) :
    a = b ∧ s = s' := by
  rw [pure_run, Prod.mk.injEq, Except.ok.injEq] at h
  exact h

theorem bind_lift_ok {x : Except String α} {f : α → Eff σ β} {s s' : σ} {b : β}
    (h : (lift x >>= f).run s = (.ok b, s')) : ∃ a, x = .ok a ∧ (f a).run s = (.ok b, s') := by
  obtain ⟨a, s'', hlift, hrest⟩ := bind_run_ok h
  obtain ⟨hx, rfl⟩ := Prod.mk.inj hlift
  exact ⟨a, hx, hrest⟩

/-! ## Frames -/

variable {γ : Type}

/-- A computation that leaves a part of the state as it is, failed or not. -/
def Leaves (part : σ → γ) (x : Eff σ α) : Prop := ∀ s, part (x.run s).2 = part s

theorem Leaves.pure (part : σ → γ) (a : α) : Leaves part (Pure.pure a : Eff σ α) := fun _ => rfl

theorem Leaves.lift (part : σ → γ) (x : Except String α) : Leaves part (Eff.lift x) := fun _ => rfl

theorem Leaves.read (part : σ → γ) (f : σ → α) : Leaves part (Eff.read f) := fun _ => rfl

theorem Leaves.bind {part : σ → γ} {x : Eff σ α} {f : α → Eff σ β} (hx : Leaves part x)
    (hf : ∀ a, Leaves part (f a)) : Leaves part (x >>= f) := by
  intro s
  have hx := hx s
  rw [bind_run]
  cases h : x.run s with
  | mk result s' =>
    rw [h] at hx
    cases result with
    | ok a => exact (hf a s').trans hx
    | error e => exact hx

/-- A computation that moves the state along a relation, failed or not. -/
def Moves (R : σ → σ → Prop) (x : Eff σ α) : Prop := ∀ s, R s (x.run s).2

section Moves

variable {R : σ → σ → Prop}

theorem Moves.pure (hrefl : ∀ s, R s s) (a : α) : Moves R (Pure.pure a : Eff σ α) := hrefl

theorem Moves.lift (hrefl : ∀ s, R s s) (x : Except String α) : Moves R (Eff.lift x) := hrefl

theorem Moves.attempt {x : Eff σ α} (hx : Moves R x) : Moves R x.attempt := hx

theorem Moves.bind (htrans : ∀ {a b c}, R a b → R b c → R a c) {x : Eff σ α} {f : α → Eff σ β}
    (hx : Moves R x) (hf : ∀ a, Moves R (f a)) : Moves R (x >>= f) := by
  intro s
  have hx := hx s
  rw [bind_run]
  cases h : x.run s with
  | mk result s' =>
    rw [h] at hx
    cases result with
    | ok a => exact htrans hx (hf a s')
    | error e => exact hx

theorem Moves.read (hrefl : ∀ s, R s s) (f : σ → α) : Moves R (Eff.read f) := hrefl

theorem Moves.fail (hrefl : ∀ s, R s s) (message : String) : Moves R (Eff.fail message : Eff σ α) := hrefl

theorem Moves.forM (hrefl : ∀ s, R s s) (htrans : ∀ {a b c}, R a b → R b c → R a c) {l : List α}
    {f : α → Eff σ PUnit} (h : ∀ a ∈ l, Moves R (f a)) : Moves R (l.forM f) := by
  induction l with
  | nil => exact hrefl
  | cons a l ih =>
    change Moves R (f a >>= fun _ => l.forM f)
    refine Moves.bind (R := R) @htrans (h a List.mem_cons_self) fun _ => ?_
    exact ih fun b hb => h b (List.mem_cons_of_mem a hb)

/-- A loop that succeeded, seen from one of its rounds: what came before it and what came after. -/
theorem forM_run_ok (hrefl : ∀ s, R s s) (htrans : ∀ {a b c}, R a b → R b c → R a c) {l : List α}
    {f : α → Eff σ PUnit} (hstep : ∀ a ∈ l, ∀ {s s'}, (f a).run s = (.ok (), s') → R s s') {s s' : σ}
    (h : (l.forM f).run s = (.ok (), s')) :
    R s s' ∧ ∀ a ∈ l, ∃ s₁ s₂, R s s₁ ∧ (f a).run s₁ = (.ok (), s₂) ∧ R s₂ s' := by
  induction l generalizing s with
  | nil =>
    obtain ⟨-, rfl⟩ := Prod.mk.inj h
    exact ⟨hrefl s, nofun⟩
  | cons a l ih =>
    change (f a >>= fun _ => l.forM f).run s = (.ok (), s') at h
    obtain ⟨_, s₁, hfirst, hrest⟩ := bind_run_ok h
    obtain ⟨hlater, hrounds⟩ := ih (fun b hb => hstep b (List.mem_cons_of_mem a hb)) hrest
    have hround := hstep a List.mem_cons_self hfirst
    refine ⟨htrans hround hlater, fun b hb => ?_⟩
    rcases List.mem_cons.mp hb with rfl | hb
    · exact ⟨s, s₁, hrefl s, hfirst, hlater⟩
    · obtain ⟨s₂, s₃, hbefore, hrun, hafter⟩ := hrounds b hb
      exact ⟨s₂, s₃, htrans hround hbefore, hrun, hafter⟩

/-- Loops whose rounds are the same where something holds that every round keeps. -/
theorem forM_run_congr {p : σ → Prop} {l : List α} {f g : α → Eff σ PUnit}
    (hkeep : ∀ a ∈ l, ∀ s, p s → p ((f a).run s).2) (h : ∀ a ∈ l, ∀ s, p s → (f a).run s = (g a).run s) {s : σ}
    (hs : p s) : (l.forM f).run s = (l.forM g).run s := by
  induction l generalizing s with
  | nil => rfl
  | cons a l ih =>
    change (f a >>= fun _ => l.forM f).run s = (g a >>= fun _ => l.forM g).run s
    have hnext := hkeep a List.mem_cons_self s hs
    have hsame := h a List.mem_cons_self s hs
    rw [bind_run, bind_run, ← hsame]
    cases hrun : (f a).run s with
    | mk result s' =>
      rw [hrun] at hnext
      cases result with
      | ok => exact ih (fun b hb => hkeep b (List.mem_cons_of_mem a hb)) (fun b hb => h b (List.mem_cons_of_mem a hb)) hnext
      | error => rfl

end Moves

/-! ## Logs -/

section Logs

variable {ε : Type u} {x : Eff (List ε) α} {f : α → Eff (List ε) β}

/-- What a computation gives from an empty log. -/
def result (x : Eff (List ε) α) : Except String α := (x.run []).1

/-- What a computation writes into an empty log. -/
def written (x : Eff (List ε) α) : List ε := (x.run []).2

/-- A computation that adds the same to every log, and gives the same. -/
def Appends (x : Eff (List ε) α) : Prop := ∀ log, x.run log = (result x, log ++ written x)

theorem Appends.pure (a : α) : Appends (Pure.pure a : Eff (List ε) α) := fun log =>
  congrArg (Prod.mk (Except.ok a)) (List.append_nil log).symm

theorem Appends.lift (r : Except String α) : Appends (Eff.lift r : Eff (List ε) α) := fun log =>
  congrArg (Prod.mk r) (List.append_nil log).symm

theorem Appends.fail (message : String) : Appends (Eff.fail message : Eff (List ε) α) := fun log =>
  congrArg (Prod.mk (Except.error message)) (List.append_nil log).symm

theorem run_nil {r : Except String α} (h : result x = r) : x.run [] = (r, written x) := Prod.ext h rfl

/-- A sequence whose first part succeeds. -/
theorem run_bind_of_ok {a : α} (hf : ∀ a, Appends (f a)) (h : result x = .ok a) :
    result (x >>= f) = result (f a) ∧ written (x >>= f) = written x ++ written (f a) := by
  have hrun : (x >>= f).run [] = (result (f a), written x ++ written (f a)) := by
    rw [bind_run_of_ok (run_nil h), hf a]
  exact Prod.mk.inj hrun

/-- A sequence whose first part fails. -/
theorem run_bind_of_error {e : String} (h : result x = .error e) :
    result (x >>= f) = .error e ∧ written (x >>= f) = written x := by
  have hrun : (x >>= f).run [] = (.error e, written x) := bind_run_of_error (run_nil h)
  exact Prod.mk.inj hrun

theorem Appends.bind (hx : Appends x) (hf : ∀ a, Appends (f a)) : Appends (x >>= f) := by
  intro log
  cases h : result x with
  | ok a =>
    obtain ⟨hresult, hwritten⟩ := run_bind_of_ok hf h
    rw [hresult, hwritten, ← List.append_assoc, bind_run_of_ok ((hx log).trans (by rw [h])), hf a]
  | error e =>
    obtain ⟨hresult, hwritten⟩ := @run_bind_of_error _ _ _ x f e h
    rw [hresult, hwritten, bind_run_of_error ((hx log).trans (by rw [h]))]

/-- What a sequence writes, one of its parts writes. -/
theorem mem_written_bind (hf : ∀ a, Appends (f a)) {event : ε} (h : event ∈ written (x >>= f)) :
    event ∈ written x ∨ ∃ a, result x = .ok a ∧ event ∈ written (f a) := by
  cases hx : result x with
  | ok a =>
    rw [(run_bind_of_ok hf hx).2] at h
    exact (List.mem_append.mp h).imp id fun h => ⟨a, rfl, h⟩
  | error e =>
    rw [(run_bind_of_error hx).2] at h
    exact Or.inl h

end Logs

end Eff
