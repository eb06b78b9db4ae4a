import Mathlib.Logic.Function.Basic

/-!
# Cyclic

A queue in a cyclic array.  The items of the queue are numbered from the
beginning of time, and item number `k` lies in cell `k % n` of an array of
`n` cells.  A reader and a writer only know the two numbers modulo `n`, as
the offsets at which the first item lies and the next one goes.

The offsets cannot tell a full array from an empty one, so at most `n - 1`
cells are used.
-/

namespace Cyclic

/-! ## Offsets -/

/-- How many items lie between two offsets. -/
def used (n rd wr : Nat) : Nat := if rd ≤ wr then wr - rd else n - (rd - wr)

/-- How many cells may still be filled. -/
def free (n rd wr : Nat) : Nat := if rd ≤ wr then n - 1 - wr + rd else rd - wr - 1

variable {n rd wr t s : Nat}

theorem used_add_free (hrd : rd < n) (hwr : wr < n) : used n rd wr + free n rd wr = n - 1 := by
  unfold used free
  split <;> omega

theorem used_self (rd : Nat) : used n rd rd = 0 := by
  simp [used]

/-- An offset after fewer than a whole turn. -/
theorem add_mod_eq {d : Nat} (hd : d ≤ n) (hn : 0 < n) :
    (t + d) % n = if t % n + d < n then t % n + d else t % n + d - n := by
  have hlt := Nat.mod_lt t hn
  rw [Nat.add_mod]
  split
  case isTrue h =>
    have hdn : d % n = d := Nat.mod_eq_of_lt (by omega)
    rw [hdn, Nat.mod_eq_of_lt h]
  case isFalse h =>
    by_cases hdn : d = n
    · subst hdn
      simp
    · rw [Nat.mod_eq_of_lt (by omega : d < n), Nat.mod_eq_sub_mod (by omega),
        Nat.mod_eq_of_lt (by omega)]

/-- The offsets tell how many items there are. -/
theorem used_mod (hle : t ≤ s) (hlt : s < t + n) : used n (t % n) (s % n) = s - t := by
  obtain ⟨d, rfl⟩ := Nat.exists_eq_add_of_le hle
  have hn : 0 < n := by omega
  have ht := Nat.mod_lt t hn
  rw [add_mod_eq (by omega) hn, used]
  split <;> split <;> omega

theorem free_mod (hle : t ≤ s) (hlt : s < t + n) :
    free n (t % n) (s % n) = n - 1 - (s - t) := by
  have hn : 0 < n := by omega
  have hsum := used_add_free (Nat.mod_lt t hn) (Nat.mod_lt s hn)
  rw [used_mod hle hlt] at hsum
  omega

/-- Two numbers less than a turn apart lie in different cells. -/
theorem mod_ne {i j : Nat} (hlt : i < j) (hturn : j < i + n) : i % n ≠ j % n := by
  intro h
  have hused := used_mod (Nat.le_of_lt hlt) hturn
  rw [h, used_self] at hused
  omega

/-! ## The items in the cells -/

variable {α : Type} {cells : Nat → α} {xs ys : List α}

/-- The items with numbers from `start` on are in their cells. -/
def Holds (n : Nat) (cells : Nat → α) (start : Nat) (xs : List α) : Prop :=
  ∀ i (h : i < xs.length), cells ((start + i) % n) = xs[i]

theorem holds_nil (cells : Nat → α) (start : Nat) : Holds n cells start [] := by
  intro i h
  simp at h

theorem holds_append {start : Nat} :
    Holds n cells start (xs ++ ys) ↔
      Holds n cells start xs ∧ Holds n cells (start + xs.length) ys := by
  constructor
  · intro h
    constructor
    · intro i hi
      rw [h i (by simp; omega), List.getElem_append_left hi]
    · intro i hi
      rw [Nat.add_assoc, h (xs.length + i) (by simp; omega),
        List.getElem_append_right (by omega)]
      simp
  · intro ⟨hxs, hys⟩ i hi
    by_cases hlt : i < xs.length
    · rw [List.getElem_append_left hlt, hxs i hlt]
    · have hlen : i - xs.length < ys.length := by
        rw [List.length_append] at hi
        omega
      rw [List.getElem_append_right (by omega), ← hys (i - xs.length) hlen]
      congr 2
      omega

theorem Holds.drop {start k : Nat} (h : Holds n cells start xs) (hk : k ≤ xs.length) :
    Holds n cells (start + k) (xs.drop k) := by
  rw [← List.take_append_drop k xs, holds_append] at h
  have hlen : (xs.take k).length = k := by simp; omega
  rw [hlen] at h
  exact h.2

theorem Holds.congr {start start' : Nat} (h : Holds n cells start xs)
    (hstart : start % n = start' % n) : Holds n cells start' xs := by
  intro i hi
  rw [← h i hi, Nat.add_mod, ← hstart, ← Nat.add_mod]

/-- What is not touched stays. -/
theorem Holds.frame {cells' : Nat → α} {start : Nat} (h : Holds n cells start xs)
    (heq : ∀ i < xs.length, cells' ((start + i) % n) = cells ((start + i) % n)) :
    Holds n cells' start xs := by
  intro i hi
  rw [heq i hi, h i hi]

/-- A cell that holds none of the items may change. -/
theorem Holds.update {start k : Nat} (h : Holds n cells start xs) (hk : start + xs.length ≤ k)
    (hturn : k < start + n) (x : α) :
    Holds n (Function.update cells (k % n) x) start xs := by
  intro i hi
  have hne : (start + i) % n ≠ k % n := mod_ne (by omega) (by omega)
  rw [Function.update_of_ne hne, h i hi]

/-- The next item goes behind the last. -/
theorem Holds.snoc {start : Nat} (h : Holds n cells start xs) (hfull : xs.length < n) (x : α) :
    Holds n (Function.update cells ((start + xs.length) % n) x) start (xs ++ [x]) := by
  rw [holds_append]
  constructor
  · exact h.update (Nat.le_refl _) (by omega) x
  · intro i hi
    simp only [List.length_singleton, Nat.lt_one_iff] at hi
    subst hi
    simp

/-- What lies between two offsets, in the order of the numbers. -/
def between (n : Nat) (cells : Nat → α) (rd wr : Nat) : List α :=
  (List.range (used n rd wr)).map fun i => cells ((rd + i) % n)

@[simp] theorem length_between : (between n cells rd wr).length = used n rd wr := by
  simp [between]

/-- The offsets tell which items there are. -/
theorem Holds.between_eq (h : Holds n cells t xs) (hlt : xs.length < n) :
    between n cells (t % n) ((t + xs.length) % n) = xs := by
  have hused : used n (t % n) ((t + xs.length) % n) = xs.length := by
    rw [used_mod (by omega) (by omega)]
    omega
  apply List.ext_getElem
  · simp [hused]
  · intro i h₁ h₂
    simp only [between, List.getElem_map, List.getElem_range, Nat.mod_add_mod]
    exact h i h₂

/-! ## Arrays as lists -/

section Lists

variable {buf : List α} {d : α} {start : Nat}

/-- Items that lie in one piece. -/
theorem Holds.take_drop (h : Holds buf.length (buf.getD · d) start xs)
    (hend : start + xs.length ≤ buf.length) : (buf.drop start).take xs.length = xs := by
  apply List.ext_getElem
  · simp
    omega
  · intro i h₁ h₂
    have hcell := h i h₂
    have hlt : start + i < buf.length := by omega
    simp only [Nat.mod_eq_of_lt hlt, List.getD_eq_getElem?_getD, List.getElem?_eq_getElem hlt,
      Option.getD_some] at hcell
    simp [hcell]

/-- Items that lie in two pieces, the second at the beginning. -/
theorem Holds.take_drop_wrapped (h : Holds buf.length (buf.getD · d) start xs)
    (hstart : start ≤ buf.length) (hend : buf.length ≤ start + xs.length)
    (hlen : xs.length ≤ buf.length) :
    (buf.drop start).take (buf.length - start) = xs.take (buf.length - start) ∧
      buf.take (xs.length - (buf.length - start)) = xs.drop (buf.length - start) := by
  rw [← List.take_append_drop (buf.length - start) xs, holds_append] at h
  have hfirst : (xs.take (buf.length - start)).length = buf.length - start := by
    simp
    omega
  have hsecond : (xs.drop (buf.length - start)).length = xs.length - (buf.length - start) := by
    simp
  constructor
  · have htake := h.1.take_drop (by omega)
    rwa [hfirst] at htake
  · have hzero : Holds buf.length (buf.getD · d) 0 (xs.drop (buf.length - start)) := by
      apply h.2.congr
      rw [hfirst, Nat.add_sub_cancel' hstart]
      simp
    have htake := hzero.take_drop (by omega)
    rwa [hsecond, List.drop_zero] at htake

theorem getD_set {i : Nat} (hi : i < buf.length) (x : α) :
    (fun j => (buf.set i x).getD j d) = Function.update (buf.getD · d) i x := by
  funext j
  by_cases hj : j = i
  · subst hj
    simp [hi]
  · simp [hj, List.getElem?_set_ne (Ne.symm hj)]

end Lists

end Cyclic
