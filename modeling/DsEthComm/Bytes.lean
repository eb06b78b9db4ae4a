/-!
# DsEthComm.Bytes

Bytes, their bits, and the one loop that every driver of this firmware
repeats on them: the in-place reversal of a buffer.
-/

namespace DsEthComm

/-- `uint8_t`. -/
abbrev Byte := BitVec 8

/-! ## Bits -/

/-- `((b >> i) & 0x01) != 0`. -/
def bit (b : Byte) (i : Nat) : Bool := (b >>> i) &&& 1#8 != 0#8

/-- Replace the bits of a mask. -/
def replaceBits (mask value b : Byte) : Byte := (b &&& ~~~mask) ||| value

theorem getLsbD_replaceBits (m v b : Byte) {i : Nat} (hi : i < 8) :
    (replaceBits m v b).getLsbD i = (b.getLsbD i && !m.getLsbD i || v.getLsbD i) := by
  simp [replaceBits, hi]

@[simp] theorem replaceBits_zero (b : Byte) : replaceBits 0 0 b = b := by
  revert b
  decide

@[simp] theorem replaceBits_all (v b : Byte) : replaceBits 0xFF#8 v b = v := by
  simp [replaceBits]

/-- Two replacements are one. -/
theorem replaceBits_replaceBits (m v m' v' b : Byte) :
    replaceBits m' v' (replaceBits m v b) = replaceBits (m ||| m') (replaceBits m' v' v) b := by
  apply BitVec.eq_of_getLsbD_eq
  intro i hi
  simp only [getLsbD_replaceBits _ _ _ hi, BitVec.getLsbD_or]
  cases b.getLsbD i <;> cases m.getLsbD i <;> cases m'.getLsbD i <;> simp

theorem replaceBits_idem (m v b : Byte) :
    replaceBits m v (replaceBits m v b) = replaceBits m v b := by
  apply BitVec.eq_of_getLsbD_eq
  intro i hi
  simp only [getLsbD_replaceBits _ _ _ hi]
  cases m.getLsbD i <;> cases v.getLsbD i <;> simp

/-- The replaced bits have the new values. -/
theorem replaceBits_and {m v : Byte} (h : v &&& m = v) (b : Byte) :
    replaceBits m v b &&& m = v := by
  apply BitVec.eq_of_getLsbD_eq
  intro i hi
  have hbit : (v.getLsbD i && m.getLsbD i) = v.getLsbD i := by
    rw [← BitVec.getLsbD_and, h]
  rw [BitVec.getLsbD_and, getLsbD_replaceBits _ _ _ hi]
  revert hbit
  cases b.getLsbD i <;> cases m.getLsbD i <;> cases v.getLsbD i <;> simp

/-- The other bits keep theirs. -/
theorem replaceBits_and_not {m v : Byte} (h : v &&& m = v) (b : Byte) :
    replaceBits m v b &&& ~~~m = b &&& ~~~m := by
  apply BitVec.eq_of_getLsbD_eq
  intro i hi
  have hbit : (v.getLsbD i && m.getLsbD i) = v.getLsbD i := by
    rw [← BitVec.getLsbD_and, h]
  simp only [BitVec.getLsbD_and, BitVec.getLsbD_not, getLsbD_replaceBits _ _ _ hi]
  revert hbit
  cases b.getLsbD i <;> cases m.getLsbD i <;> cases v.getLsbD i <;> simp

/-! ## In-place reversal -/

/-- The body of `for (i = 0; i < k; i++)` with `n` rounds left: swap
`buffer[i]` with `buffer[len - 1 - i]` through `tmp`. -/
def swapLoop (len : Nat) : Nat → Nat → List Byte → List Byte
  | 0, _, buffer => buffer
  | n + 1, i, buffer =>
      let tmp := buffer.getD i 0
      let buffer := buffer.set i (buffer.getD (len - 1 - i) 0)
      swapLoop len n (i + 1) (buffer.set (len - 1 - i) tmp)

/-- Copy a buffer and reverse it in place, `k = len / 2` rounds. -/
def reverseBuffer (buf : List Byte) : List Byte :=
  swapLoop buf.length (buf.length / 2) 0 buf

theorem length_swapLoop (len n i : Nat) (buffer : List Byte) :
    (swapLoop len n i buffer).length = buffer.length := by
  induction n generalizing i buffer with
  | zero => rfl
  | succ n ih => rw [swapLoop, ih]; simp

/-- One round of the loop swaps the positions `i` and `len - 1 - i`. -/
theorem getElem?_swap (len i : Nat) (buffer : List Byte) (hlen : buffer.length = len)
    (hi : 2 * i < len) (j : Nat) (hj : j < len) :
    ((buffer.set i (buffer.getD (len - 1 - i) 0)).set (len - 1 - i) (buffer.getD i 0))[j]? =
      if j = i ∨ j = len - 1 - i then buffer[len - 1 - j]? else buffer[j]? := by
  have hget : ∀ m, m < len → some (buffer.getD m 0) = buffer[m]? := by
    intro m hm
    rw [List.getD_eq_getElem?_getD, List.getElem?_eq_getElem (by omega), Option.getD_some]
  rw [List.getElem?_set, List.getElem?_set, List.length_set, hlen, hget i (by omega),
    hget (len - 1 - i) (by omega)]
  by_cases hk : j = len - 1 - i
  · have hmid : len - 1 - j = i := by omega
    rw [if_pos hk.symm, if_pos (by omega), if_pos (.inr hk), hmid]
  · rw [if_neg (Ne.symm hk)]
    by_cases hij : j = i
    · rw [if_pos hij.symm, if_pos (by omega), if_pos (.inl hij), hij]
    · rw [if_neg (Ne.symm hij), if_neg (by omega)]

/-- What the loop leaves at each position: the positions between `i` and
`len - 1 - i` that the remaining rounds reach are mirrored, the others are
kept. -/
theorem getElem?_swapLoop (len n i : Nat) (buffer : List Byte) (hlen : buffer.length = len)
    (hn : 2 * (i + n) ≤ len) (j : Nat) (hj : j < len) :
    (swapLoop len n i buffer)[j]? =
      if (i ≤ j ∧ j < i + n) ∨ (i ≤ len - 1 - j ∧ len - 1 - j < i + n) then
        buffer[len - 1 - j]?
      else buffer[j]? := by
  induction n generalizing i buffer with
  | zero =>
      rw [swapLoop, if_neg (by omega)]
  | succ n ih =>
      have hlen' : ((buffer.set i (buffer.getD (len - 1 - i) 0)).set (len - 1 - i)
          (buffer.getD i 0)).length = len := by simp [hlen]
      have hmid : len - 1 - (len - 1 - j) = j := by omega
      rw [swapLoop, ih (i + 1) _ hlen' (by omega), getElem?_swap len i buffer hlen (by omega) j hj,
        getElem?_swap len i buffer hlen (by omega) (len - 1 - j) (by omega), hmid]
      -- this round's two positions, then those of the rounds that remain
      by_cases hedge : j = i ∨ j = len - 1 - i
      · rw [if_neg (by omega), if_pos hedge, if_pos (by omega)]
      · have hmirror : ¬ (len - 1 - j = i ∨ len - 1 - j = len - 1 - i) := by omega
        rw [if_neg hedge, if_neg hmirror]
        exact ite_congr (propext (by omega)) (fun _ => rfl) (fun _ => rfl)

/-- **The loop reverses the buffer.** -/
@[simp] theorem reverseBuffer_eq (buf : List Byte) : reverseBuffer buf = buf.reverse := by
  apply List.ext_getElem?
  intro j
  by_cases hj : j < buf.length
  · rw [reverseBuffer, getElem?_swapLoop _ _ _ _ rfl (by omega) _ hj, List.getElem?_reverse hj]
    split
    · rfl
    · have hmid : buf.length - 1 - j = j := by omega
      rw [hmid]
  · rw [List.getElem?_eq_none, List.getElem?_eq_none]
    · rw [List.length_reverse]; omega
    · rw [reverseBuffer, length_swapLoop]; omega

end DsEthComm
