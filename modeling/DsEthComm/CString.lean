import DsEthComm.Bytes

/-!
# DsEthComm.CString

Strings of C in arrays of a fixed size, and the idiom with which this
firmware copies them: `strncpy` of all but the last byte, then a `NUL` in
the last.
-/

namespace DsEthComm

/-- A string without its `NUL`. -/
structure CStr where
  chars : List Byte
  nonzero : ∀ b ∈ chars, b ≠ 0#8
deriving DecidableEq

/-- A string literal. -/
def ascii (s : String) : List Byte := s.toList.map fun c => BitVec.ofNat 8 c.toNat

/-- `char buf[n]`. -/
structure CharArray (n : Nat) where
  bytes : List Byte
  size : bytes.length = n
deriving DecidableEq

namespace CharArray

variable {n : Nat}

/-- The bytes up to the first `NUL`. -/
def str (a : CharArray n) : List Byte := a.bytes.takeWhile (· ≠ 0#8)

/-- The array holds a string. -/
def Terminated (a : CharArray n) : Prop := 0#8 ∈ a.bytes

/-- `buf[i] = b;`. -/
def set (a : CharArray n) (i : Nat) (b : Byte) : CharArray n where
  bytes := a.bytes.set i b
  size := by rw [List.length_set, a.size]

/-- `strncpy(buf, src, k)`: at most `k` bytes of the string, then `NUL`s up to
`k`. -/
def strncpy (a : CharArray n) (src : List Byte) (k : Nat) (hk : k ≤ n) : CharArray n where
  bytes := src.take k ++ List.replicate (k - src.length) 0#8 ++ a.bytes.drop k
  size := by
    simp only [List.length_append, List.length_take, List.length_replicate, List.length_drop,
      a.size]
    omega

/-- `strncpy(buf, src, n - 1); buf[n - 1] = '\0';`. -/
def copy (a : CharArray n) (src : List Byte) : CharArray n :=
  (a.strncpy src (n - 1) (by omega)).set (n - 1) 0#8

theorem bytes_copy (a : CharArray n) (src : List Byte) (hn : 0 < n) :
    (a.copy src).bytes = src.take (n - 1) ++ 0#8 :: List.replicate (n - 1 - src.length) 0#8 := by
  obtain ⟨b, hb⟩ : ∃ b, a.bytes.drop (n - 1) = [b] := by
    rw [← List.length_eq_one_iff, List.length_drop, a.size]
    omega
  have hlen : (src.take (n - 1) ++ List.replicate (n - 1 - src.length) 0#8).length = n - 1 := by
    rw [List.length_append, List.length_take, List.length_replicate]
    omega
  have hset : (a.copy src).bytes =
      (src.take (n - 1) ++ List.replicate (n - 1 - src.length) 0#8 ++ [b]).set (n - 1) 0#8 := by
    rw [← hb]
    rfl
  rw [hset, List.set_append_right _ _ (by omega), hlen, Nat.sub_self, List.set_cons_zero,
    List.append_assoc, ← List.replicate_succ', List.replicate_succ]

theorem terminated_copy (a : CharArray n) (src : List Byte) (hn : 0 < n) :
    (a.copy src).Terminated := by
  rw [Terminated, bytes_copy a src hn]
  simp

/-- **The copy is the string, cut off at `n - 1`.** -/
theorem str_copy (a : CharArray n) {src : List Byte} (hsrc : ∀ b ∈ src, b ≠ 0#8) (hn : 0 < n) :
    (a.copy src).str = src.take (n - 1) := by
  have htake : ∀ b ∈ src.take (n - 1), (decide (b ≠ 0#8)) = true := by
    intro b hb
    exact decide_eq_true (hsrc b (List.mem_of_mem_take hb))
  rw [str, bytes_copy a src hn, List.takeWhile_append_of_pos htake]
  simp

theorem str_nonzero (a : CharArray n) : ∀ b ∈ a.str, b ≠ 0#8 := by
  intro b hb
  have hall := List.all_takeWhile (p := fun b : Byte => decide (b ≠ 0#8)) (l := a.bytes)
  exact of_decide_eq_true (List.all_eq_true.mp hall b hb)

end CharArray

end DsEthComm
