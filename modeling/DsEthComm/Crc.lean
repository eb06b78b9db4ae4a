import Mathlib.Algebra.Group.Nat.Defs
import Mathlib.Tactic.ByContra

/-!
# Crc

Cyclic redundancy checks, bit by bit.  The register shifts to the right, and
the polynomial is written with its bits reversed, so that its top bit is the
constant term.

Everything rests on two facts.  The register is linear: what becomes of a
difference does not depend on what it is a difference of.  And a register
that is fed no more bits than it has ends at zero exactly if it is fed its
own bits.  So no difference within as many bits as the register has can
vanish, wherever it lies.
-/

namespace Crc

variable {w : Nat} (poly : BitVec w)

/-- One bit. -/
def feed (c : BitVec w) (b : Bool) : BitVec w :=
  (c >>> 1) ^^^ (if c.getLsbD 0 != b then poly else 0#w)

/-- The bits of a message, one after another. -/
def register (c : BitVec w) (bits : List Bool) : BitVec w := bits.foldl (feed poly) c

@[simp] theorem register_nil (c : BitVec w) : register poly c [] = c := rfl

@[simp] theorem register_cons (c : BitVec w) (b : Bool) (bits : List Bool) :
    register poly c (b :: bits) = register poly (feed poly c b) bits := rfl

@[simp] theorem register_append (c : BitVec w) (xs ys : List Bool) :
    register poly c (xs ++ ys) = register poly (register poly c xs) ys :=
  List.foldl_append

/-! ## Linearity -/

theorem feed_xor (c d : BitVec w) (a b : Bool) :
    feed poly (c ^^^ d) (a ^^ b) = feed poly c a ^^^ feed poly d b := by
  apply BitVec.eq_of_getLsbD_eq
  intro i hi
  simp only [feed, BitVec.getLsbD_xor, BitVec.getLsbD_ushiftRight]
  cases c.getLsbD 0 <;> cases d.getLsbD 0 <;> cases a <;> cases b <;> simp <;>
    cases c.getLsbD (1 + i) <;> cases d.getLsbD (1 + i) <;> cases poly.getLsbD i <;> rfl

/-- The difference of two messages. -/
def difference (xs ys : List Bool) : List Bool := List.zipWith (· ^^ ·) xs ys

theorem register_xor (c d : BitVec w) {xs ys : List Bool} (h : xs.length = ys.length) :
    register poly (c ^^^ d) (difference xs ys) = register poly c xs ^^^ register poly d ys := by
  induction xs generalizing c d ys with
  | nil =>
      obtain rfl := List.length_eq_zero_iff.mp h.symm
      rfl
  | cons x xs ih =>
      cases ys with
      | nil => simp at h
      | cons y ys =>
          have hrest := ih (feed poly c x) (feed poly d y) (by simpa using h)
          rwa [← feed_xor] at hrest

/-! ## What ends at zero -/

/-- The first bits of a register. -/
def bitsOf (n : Nat) (c : BitVec w) : List Bool := (List.range n).map c.getLsbD

@[simp] theorem length_bitsOf (n : Nat) (c : BitVec w) : (bitsOf n c).length = n := by
  simp [bitsOf]

theorem bitsOf_succ (n : Nat) (c : BitVec w) :
    bitsOf (n + 1) c = c.getLsbD 0 :: bitsOf n (c >>> 1) := by
  simp [bitsOf, List.range_succ_eq_map, Nat.add_comm]

/-- Its own bit only shifts the register. -/
theorem feed_own (c : BitVec w) : feed poly c (c.getLsbD 0) = c >>> 1 := by
  simp [feed]

theorem toNat_ushiftRight_one (c : BitVec w) : (c >>> 1).toNat = c.toNat / 2 := by
  simp [Nat.shiftRight_eq_div_pow]

/-- Its own bits shift it out. -/
theorem register_own (n : Nat) (c : BitVec w) (h : c.toNat < 2 ^ n) :
    register poly c (bitsOf n c) = 0#w := by
  induction n generalizing c with
  | zero =>
      apply BitVec.eq_of_toNat_eq
      simpa [bitsOf] using h
  | succ n ih =>
      rw [bitsOf_succ, register_cons, feed_own]
      apply ih
      rw [toNat_ushiftRight_one]
      omega

variable {poly}

/-- A feed that leaves the top bit clear was the own bit. -/
theorem eq_own_of_feed {k : Nat} (hpoly : poly.msb = true) (hk : k < w) {c : BitVec w} {b : Bool}
    (h : (feed poly c b).toNat < 2 ^ k) : b = c.getLsbD 0 := by
  by_contra hne
  have hmsb : (feed poly c b).msb = true := by
    have hfed : (c.getLsbD 0 != b) = true := by
      cases hb : b <;> cases hc : c.getLsbD 0 <;> simp_all
    have htop : (c >>> 1).msb = false := by
      rw [BitVec.msb_ushiftRight]
      simp
    rw [feed, if_pos hfed, BitVec.msb_xor, htop, hpoly]
    rfl
  have hlow : 2 ^ (w - 1) ≤ (feed poly c b).toNat := by
    rw [BitVec.msb_eq_decide] at hmsb
    simpa using hmsb
  have hle : 2 ^ k ≤ 2 ^ (w - 1) := Nat.pow_le_pow_right (by decide) (by omega)
  omega

/-- Only its own bits take a register to zero, if they are no more than it has. -/
theorem own_of_register (hpoly : poly.msb = true) {bits : List Bool} (hlen : bits.length ≤ w)
    {c : BitVec w} (h : register poly c bits = 0#w) :
    c.toNat < 2 ^ bits.length ∧ bits = bitsOf bits.length c := by
  induction bits generalizing c with
  | nil =>
      obtain rfl : c = 0#w := h
      simp [bitsOf]
  | cons b bits ih =>
      rw [List.length_cons] at hlen ⊢
      obtain ⟨hlt, hbits⟩ := ih (Nat.le_of_succ_le hlen) h
      obtain rfl := eq_own_of_feed hpoly (Nat.lt_of_succ_le hlen) hlt
      rw [feed_own] at hlt hbits
      rw [toNat_ushiftRight_one] at hlt
      refine ⟨by rw [Nat.pow_succ]; omega, ?_⟩
      rw [bitsOf_succ, ← hbits]

/-- Bits that are all clear move no other register to zero. -/
theorem eq_zero_of_register (hpoly : poly.msb = true) {bits : List Bool}
    (hbits : ∀ b ∈ bits, b = false) {c : BitVec w} (h : register poly c bits = 0#w) : c = 0#w := by
  induction bits generalizing c with
  | nil => exact h
  | cons b bits ih =>
      obtain rfl := hbits b (by simp)
      have hfed := ih (fun b hb => hbits b (by simp [hb])) h
      have hw : 0 < w := by
        by_contra hzero
        obtain rfl : w = 0 := by omega
        simp [BitVec.of_length_zero] at hpoly
      have hzero : (feed poly c false).toNat < 2 ^ 0 := by simp [hfed]
      have hown := eq_own_of_feed hpoly hw hzero
      rw [hown, feed_own] at hfed
      apply BitVec.eq_of_getLsbD_eq
      intro i hi
      cases i with
      | zero => simpa using hown.symm
      | succ i =>
          have hbit := congrArg (·.getLsbD i) hfed
          simpa [Nat.add_comm] using hbit

/-! ## Bursts -/

theorem difference_self (xs : List Bool) : difference xs xs = List.replicate xs.length false := by
  induction xs with
  | nil => rfl
  | cons x xs ih =>
      rw [List.length_cons, List.replicate_succ, ← ih]
      simp [difference]

theorem eq_of_difference {xs ys : List Bool} (hlen : xs.length = ys.length)
    (h : ∀ b ∈ difference xs ys, b = false) : xs = ys := by
  induction xs generalizing ys with
  | nil => exact (List.length_eq_zero_iff.mp hlen.symm).symm
  | cons x xs ih =>
      cases ys with
      | nil => simp at hlen
      | cons y ys =>
          have hxy := h (x ^^ y) (by simp [difference])
          have hrest := ih (by simpa using hlen) fun b hb => h b (by
            simp only [difference, List.zipWith_cons_cons, List.mem_cons]
            exact Or.inr hb)
          simp_all

/-- Registers that differ stay different under equal bits. -/
theorem register_injective (hpoly : poly.msb = true) (suf : List Bool) {c d : BitVec w}
    (h : register poly c suf = register poly d suf) : c = d := by
  have hdiff := register_xor poly c d (rfl : suf.length = suf.length)
  rw [h, BitVec.xor_self, difference_self] at hdiff
  have hclear : ∀ b ∈ List.replicate suf.length false, b = false :=
    fun b => List.eq_of_mem_replicate
  exact BitVec.xor_eq_zero_iff.mp (eq_zero_of_register hpoly hclear hdiff)

/-- **Bursts are seen.**  Two messages that differ, but only within as many
bits as the register has, leave different registers. -/
theorem register_burst (hpoly : poly.msb = true) (c : BitVec w) (pre suf : List Bool)
    {xs ys : List Bool} (hlen : xs.length = ys.length) (hw : xs.length ≤ w) (hne : xs ≠ ys) :
    register poly c (pre ++ (xs ++ suf)) ≠ register poly c (pre ++ (ys ++ suf)) := by
  intro heq
  simp only [register_append] at heq
  generalize register poly c pre = s at heq
  have hmid := register_injective hpoly suf heq
  have hdiff := register_xor poly s s hlen
  have hlen' : (difference xs ys).length = xs.length := by simp [difference, hlen]
  rw [hmid, BitVec.xor_self, BitVec.xor_self] at hdiff
  obtain ⟨-, hbits⟩ := own_of_register hpoly (by omega) hdiff
  apply hne
  apply eq_of_difference hlen
  rw [hbits]
  simp [bitsOf]

/-! ## Several bits at once -/

/-- Clear bits that meet clear bits only shift. -/
theorem register_clear (n : Nat) (c : BitVec w) (h : ∀ i < n, c.getLsbD i = false) :
    register poly c (List.replicate n false) = c >>> n := by
  induction n generalizing c with
  | zero => simp
  | succ n ih =>
      have hzero := h 0 (Nat.zero_lt_succ n)
      have hown := feed_own poly c
      rw [hzero] at hown
      rw [List.replicate_succ, register_cons, hown, ih, ← BitVec.shiftRight_add, Nat.add_comm]
      intro i hi
      simpa [Nat.add_comm] using h (i + 1) (by omega)

/-- Bits that are fed are bits of the register. -/
theorem register_absorb (n : Nat) (c b : BitVec w) (h : b.toNat < 2 ^ n) :
    register poly c (bitsOf n b) = register poly (c ^^^ b) (List.replicate n false) := by
  have hdiff := register_xor poly c b (rfl : (bitsOf n b).length = (bitsOf n b).length)
  rw [difference_self, length_bitsOf, register_own poly n b h, BitVec.xor_zero] at hdiff
  exact hdiff.symm

/-- The low bits of the register decide, the others shift. -/
theorem register_split (n : Nat) (low high : BitVec w) (h : ∀ i < n, high.getLsbD i = false) :
    register poly (low ^^^ high) (List.replicate n false) =
      register poly low (List.replicate n false) ^^^ (high >>> n) := by
  have hsum := register_xor poly low high
    (rfl : (List.replicate n false).length = (List.replicate n false).length)
  rwa [difference_self, List.length_replicate, register_clear n high h] at hsum

end Crc
