import Mathlib.Logic.Function.Basic

/-!
# DsEthComm.Buffer

Arrays of C with checked accesses.  A cell holds a value or was never
written.  An access outside the array, and a read of a cell that was never
written, is a fault, so a function that ends without a fault stayed inside
its arrays and read only what was stored there.
-/

namespace DsEthComm

inductive Fault where
  | outside
  | uninitialised
deriving DecidableEq, Repr

/-- `T buf[n]`. -/
structure Buffer (α : Type) (n : Nat) where
  cell : Nat → Option α

namespace Buffer

variable {α : Type} {n : Nat}

/-- An array on the stack. -/
def uninitialised : Buffer α n := ⟨fun _ => none⟩

/-- An array in which every element is the same. -/
def filled (x : α) : Buffer α n := ⟨fun _ => some x⟩

/-- `buf[i]`. -/
def load (b : Buffer α n) (i : Nat) : Except Fault α :=
  if i < n then
    match b.cell i with
    | some x => .ok x
    | none => .error .uninitialised
  else .error .outside

/-- `buf[i] = x;`. -/
def store (b : Buffer α n) (i : Nat) (x : α) : Except Fault (Buffer α n) :=
  if i < n then .ok ⟨Function.update b.cell i (some x)⟩ else .error .outside

/-- `memcpy(buf, src, len)`. -/
def copyIn (b : Buffer α n) (src : Nat → α) (len : Nat) : Except Fault (Buffer α n) :=
  if len ≤ n then .ok ⟨fun j => if j < len then some (src j) else b.cell j⟩ else .error .outside

/-- The values that `memcpy(dst, buf + start, len)` copies. -/
def copyOut (b : Buffer α n) (start : Nat) : Nat → Except Fault (List α)
  | 0 => .ok []
  | len + 1 => do
      let x ← b.load start
      let xs ← b.copyOut (start + 1) len
      return x :: xs

/-- The array begins with these values. -/
def Holds (b : Buffer α n) (xs : List α) : Prop :=
  xs.length ≤ n ∧ ∀ j < xs.length, b.cell j = xs[j]?

theorem Holds.load {b : Buffer α n} {xs : List α} (h : b.Holds xs) {i : Nat}
    (hi : i < xs.length) (d : α) : b.load i = .ok (xs.getD i d) := by
  have hcell : b.cell i = some (xs.getD i d) := by
    rw [h.2 i hi, List.getD_eq_getElem?_getD, List.getElem?_eq_getElem hi, Option.getD_some]
  rw [Buffer.load, if_pos (Nat.lt_of_lt_of_le hi h.1), hcell]

theorem Holds.store {b : Buffer α n} {xs : List α} (h : b.Holds xs) {i : Nat}
    (hi : i < xs.length) (x : α) :
    ∃ b' : Buffer α n, b.store i x = .ok b' ∧ b'.Holds (xs.set i x) := by
  refine ⟨_, if_pos (Nat.lt_of_lt_of_le hi h.1), ?_, ?_⟩
  · rw [List.length_set]
    exact h.1
  · intro j hj
    rw [List.length_set] at hj
    rw [List.getElem?_set]
    by_cases hij : i = j
    · subst hij
      rw [if_pos rfl, if_pos hi]
      exact Function.update_self ..
    · rw [if_neg hij, ← h.2 j hj]
      exact Function.update_of_ne (Ne.symm hij) ..

theorem holds_copyIn (b : Buffer α n) (xs : List α) (d : α) (h : xs.length ≤ n) :
    ∃ b' : Buffer α n, b.copyIn (xs.getD · d) xs.length = .ok b' ∧ b'.Holds xs := by
  refine ⟨_, if_pos h, h, fun j hj => ?_⟩
  simp only [if_pos hj]
  rw [List.getD_eq_getElem?_getD, List.getElem?_eq_getElem hj, Option.getD_some]

/-- A copy out of the array faults, or copies the cells. -/
theorem copyOut_eq (b : Buffer α n) {start len : Nat} {f : Nat → α} (hn : start + len ≤ n)
    (hf : ∀ j < len, b.cell (start + j) = some (f j)) :
    b.copyOut start len = .ok ((List.range len).map f) := by
  induction len generalizing start f with
  | zero => rfl
  | succ len ih =>
      have hload : b.load start = .ok (f 0) := by
        have hcell := hf 0 (Nat.zero_lt_succ len)
        rw [Nat.add_zero] at hcell
        rw [load, if_pos (by omega), hcell]
      have hrest : b.copyOut (start + 1) len = .ok ((List.range len).map fun j => f (j + 1)) := by
        refine ih (by omega) fun j hj => ?_
        rw [← hf (j + 1) (by omega)]
        congr 1
        omega
      rw [copyOut, hload, hrest, List.range_succ_eq_map, List.map_cons, List.map_map]
      rfl

theorem Holds.copyOut {b : Buffer α n} {xs : List α} (h : b.Holds xs) :
    b.copyOut 0 xs.length = .ok xs := by
  cases xs with
  | nil => rfl
  | cons x xs =>
      have hf : ∀ j < (x :: xs).length, b.cell (0 + j) = some ((x :: xs).getD j x) := by
        intro j hj
        rw [Nat.zero_add, h.2 j hj, List.getD_eq_getElem?_getD, List.getElem?_eq_getElem hj,
          Option.getD_some]
      rw [copyOut_eq b (by rw [Nat.zero_add]; exact h.1) hf]
      congr 1
      apply List.ext_getElem
      · simp
      · intro j hj hj'
        rw [List.getElem_map, List.getElem_range, List.getD_eq_getElem?_getD,
          List.getElem?_eq_getElem hj', Option.getD_some]

/-- A copy that reaches over the end faults. -/
theorem copyOut_outside (b : Buffer α n) {start len : Nat} (hlen : 0 < len)
    (h : n < start + len) : ∃ e, b.copyOut start len = .error e := by
  induction len generalizing start with
  | zero => contradiction
  | succ len ih =>
      cases hload : b.load start with
      | error e =>
          refine ⟨e, ?_⟩
          rw [copyOut, hload]
          rfl
      | ok x =>
          have hin : start < n := by
            rw [load] at hload
            split at hload
            · assumption
            · contradiction
          obtain ⟨e, he⟩ : ∃ e, b.copyOut (start + 1) len = .error e := ih (by omega) (by omega)
          refine ⟨e, ?_⟩
          rw [copyOut, hload, he]
          rfl

end Buffer

end DsEthComm
