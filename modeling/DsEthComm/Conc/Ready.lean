/-!
# Conc.Ready

The ready queue of a fixed-priority preemptive scheduler: highest priority
first, first come first served among equals.  The head is the running
thread; a thread that is preempted keeps its place ahead of its peers.
-/

namespace Conc

variable {τ : Type} (prio : τ → Nat)

/-- Make a thread ready, behind every thread of at least its priority. -/
def enqueue (t : τ) : List τ → List τ
  | [] => [t]
  | u :: us => if prio u < prio t then t :: u :: us else u :: enqueue t us

variable {prio}

theorem mem_enqueue {t u : τ} {q : List τ} : u ∈ enqueue prio t q ↔ u = t ∨ u ∈ q := by
  induction q with
  | nil => simp [enqueue]
  | cons v vs ih =>
      rw [enqueue]
      split
      · simp
      · simp only [List.mem_cons, ih]
        grind

/-- A thread of higher priority than `m` becomes ready before it. -/
theorem enqueue_before {t m : τ} (h : prio m < prio t) (hi lo : List τ) :
    enqueue prio t (hi ++ m :: lo) = enqueue prio t hi ++ m :: lo := by
  induction hi with
  | nil => simp [enqueue, h]
  | cons u us ih =>
      rw [List.cons_append, enqueue, enqueue]
      split
      · rfl
      · rw [ih, List.cons_append]

/-- A thread that does not outrank `m` or anyone before it becomes ready
behind `m`. -/
theorem enqueue_behind {t m : τ} {hi : List τ} (hhi : ∀ u ∈ hi, prio t ≤ prio u)
    (h : prio t ≤ prio m) (lo : List τ) :
    enqueue prio t (hi ++ m :: lo) = hi ++ m :: enqueue prio t lo := by
  induction hi with
  | nil => simp [enqueue, Nat.not_lt.mpr h]
  | cons u us ih =>
      have hu : ¬ prio u < prio t := Nat.not_lt.mpr (hhi u List.mem_cons_self)
      rw [List.cons_append, enqueue, if_neg hu,
        ih fun v hv => hhi v (List.mem_cons_of_mem _ hv), List.cons_append]

/-- A thread that outranks every ready thread runs at once. -/
theorem enqueue_top {t : τ} {q : List τ} (h : ∀ u ∈ q, prio u < prio t) :
    enqueue prio t q = t :: q := by
  cases q with
  | nil => rfl
  | cons u us => rw [enqueue, if_pos (h u List.mem_cons_self)]

/-- A thread that does not outrank the running one does not preempt it. -/
theorem enqueue_cons_of_le {t u : τ} (h : prio t ≤ prio u) (q : List τ) :
    enqueue prio t (u :: q) = u :: enqueue prio t q := by
  rw [enqueue, if_neg (Nat.not_lt.mpr h)]

end Conc
