import Mathlib.Data.List.Basic

/-!
# Retry — attempts until one is final

An attempt is done, or fails in a way that another attempt may mend, or fails for good. A loop
makes attempts until one is done, fails for good, or is the last one allowed; what an attempt,
a pause and a last failure do is written to a log. `Loop.run_cases` names the last attempt and
says what the whole loop wrote.
-/

namespace Retry

universe u

inductive Attempt (α β : Type)
  | done (a : α)
  | failed (b : β) (retryable : Bool)

/-- What an attempt of a number does, what comes between it and the next, and what comes after
the last one where it fails. -/
structure Loop (ε : Type u) (α β : Type) where
  once : Nat → List ε × Attempt α β
  pause : Nat → β → List ε
  giveUp : Nat → β → List ε × α

variable {ε : Type u} {α β : Type}

namespace Loop

/-- Attempt `k`, with `left` more allowed. -/
def run (loop : Loop ε α β) (left k : Nat) : List ε × α :=
  match loop.once k with
  | (log, .done a) => (log, a)
  | (log, .failed b retryable) =>
    match left, retryable with
    | left + 1, true =>
      let (rest, a) := loop.run left (k + 1)
      (log ++ loop.pause k b ++ rest, a)
    | _, _ =>
      let (rest, a) := loop.giveUp k b
      (log ++ rest, a)

/-- What attempt `k` and the pause after it write. -/
def tried (loop : Loop ε α β) (k : Nat) : List ε :=
  match loop.once k with
  | (log, .done _) => log
  | (log, .failed b _) => log ++ loop.pause k b

/-- What `n` attempts from the `k`-th on write, with the pauses after them. -/
def passed (loop : Loop ε α β) (k : Nat) : Nat → List ε
  | 0 => []
  | n + 1 => loop.tried k ++ loop.passed (k + 1) n

variable {loop : Loop ε α β}

/-- **The last attempt** of a loop: every attempt before it failed in a way that may be mended,
and it is done, or failed for good, or no further one is allowed. -/
theorem run_cases (loop : Loop ε α β) (left k : Nat) :
    ∃ n, n ≤ left ∧ (∀ j, j < n → ∃ b, (loop.once (k + j)).2 = .failed b true)
      ∧ ((∃ a, (loop.once (k + n)).2 = .done a
            ∧ loop.run left k = (loop.passed k n ++ (loop.once (k + n)).1, a))
        ∨ ∃ b retryable, (loop.once (k + n)).2 = .failed b retryable
            ∧ (retryable = true → n = left)
            ∧ loop.run left k = (loop.passed k n ++ (loop.once (k + n)).1
                ++ (loop.giveUp (k + n) b).1, (loop.giveUp (k + n) b).2)) := by
  induction left generalizing k with
  | zero =>
    refine ⟨0, Nat.le_refl 0, nofun, ?_⟩
    unfold run
    rcases hk : loop.once k with ⟨log, a | ⟨b, retryable⟩⟩
    · exact .inl ⟨a, rfl, by simp [passed]⟩
    · exact .inr ⟨b, retryable, rfl, fun _ => rfl, by simp [passed]⟩
  | succ left ih =>
    rcases hk : loop.once k with ⟨log, a | ⟨b, retryable⟩⟩
    · refine ⟨0, Nat.zero_le _, nofun, .inl ⟨a, by rw [Nat.add_zero, hk], ?_⟩⟩
      unfold run
      simp [passed, hk]
    · cases retryable with
      | false =>
        refine ⟨0, Nat.zero_le _, nofun, .inr ⟨b, false, by rw [Nat.add_zero, hk], nofun, ?_⟩⟩
        unfold run
        simp [passed, hk]
      | true =>
        obtain ⟨n, hn, hearlier, hlast⟩ := ih (k + 1)
        have hnext : k + 1 + n = k + (n + 1) := by omega
        have hpassed : loop.passed k (n + 1) = log ++ loop.pause k b ++ loop.passed (k + 1) n := by
          simp only [passed, tried, hk]
        refine ⟨n + 1, Nat.succ_le_succ hn, ?_, ?_⟩
        · intro j hj
          cases j with
          | zero => exact ⟨b, by rw [Nat.add_zero, hk]⟩
          | succ j =>
            obtain ⟨b', hb'⟩ := hearlier j (Nat.lt_of_succ_lt_succ hj)
            exact ⟨b', by rw [← hb', show k + (j + 1) = k + 1 + j from by omega]⟩
        · rw [hnext] at hlast
          rw [run, hk, hpassed]
          rcases hlast with ⟨a, ha, hrun⟩ | ⟨b', retryable', hb', hfinal, hrun⟩
          · exact .inl ⟨a, ha, by simp only [hrun, List.append_assoc]⟩
          · refine .inr ⟨b', retryable', hb', fun h => by rw [hfinal h], ?_⟩
            simp only [hrun, List.append_assoc]

/-- What is written in the attempts passed is written in one of them. -/
theorem mem_passed {x : ε} {k n : Nat} (h : x ∈ loop.passed k n) :
    ∃ j, j < n ∧ x ∈ loop.tried (k + j) := by
  induction n generalizing k with
  | zero => cases h
  | succ n ih =>
    rcases List.mem_append.mp h with htried | hrest
    · exact ⟨0, Nat.succ_pos n, htried⟩
    · obtain ⟨j, hj, hx⟩ := ih hrest
      exact ⟨j + 1, Nat.succ_lt_succ hj, by rwa [show k + (j + 1) = k + 1 + j from by omega]⟩

/-- **What comes from a pause.** An entry of the whole loop that no attempt and no last failure
writes is written in the pause after an attempt that failed and was followed by another. -/
theorem mem_pause_of_mem_run {x : ε} {left k : Nat} (honce : ∀ j, x ∉ (loop.once j).1)
    (hgiveUp : ∀ j b, x ∉ (loop.giveUp j b).1) (h : x ∈ (loop.run left k).1) :
    ∃ j b, j < left ∧ (loop.once (k + j)).2 = .failed b true ∧ x ∈ loop.pause (k + j) b := by
  obtain ⟨n, hn, hearlier, hlast⟩ := loop.run_cases left k
  have hpassed : x ∈ loop.passed k n := by
    rcases hlast with ⟨a, -, hrun⟩ | ⟨b, retryable, -, -, hrun⟩
    · rw [hrun] at h
      exact (List.mem_append.mp h).resolve_right (honce _)
    · rw [hrun] at h
      have hbefore := (List.mem_append.mp h).resolve_right (hgiveUp _ b)
      exact (List.mem_append.mp hbefore).resolve_right (honce _)
  obtain ⟨j, hj, hx⟩ := mem_passed hpassed
  obtain ⟨b, hb⟩ := hearlier j hj
  refine ⟨j, b, Nat.lt_of_lt_of_le hj hn, hb, ?_⟩
  have hno := honce (k + j)
  unfold tried at hx
  generalize loop.once (k + j) = tried at hx hb hno
  obtain ⟨log, result⟩ := tried
  cases hb
  exact (List.mem_append.mp hx).resolve_left hno

/-- Attempts that each write the same number of entries of a kind, in pauses that write none. -/
theorem countP_passed {p : ε → Bool} {c k n : Nat}
    (h : ∀ j, j < n → (loop.tried (k + j)).countP p = c) :
    (loop.passed k n).countP p = n * c := by
  induction n generalizing k with
  | zero => simp [passed]
  | succ n ih =>
    have hrest : (loop.passed (k + 1) n).countP p = n * c :=
      ih fun j hj => by
        rw [show k + 1 + j = k + (j + 1) from by omega]
        exact h (j + 1) (Nat.succ_lt_succ hj)
    rw [passed, List.countP_append, hrest, ← h 0 (Nat.succ_pos n), Nat.add_zero, Nat.succ_mul,
      Nat.add_comm]

end Loop

end Retry
