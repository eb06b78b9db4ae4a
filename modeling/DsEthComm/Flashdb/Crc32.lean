import DsEthComm.Bytes
import DsEthComm.Crc

/-!
# DsEthComm.Flashdb.Crc32

`fdb_calc_crc32`, which takes the bytes of a buffer one at a time through a
table of 256 words.

The table holds what eight bits do to a register, so that the function is the
cyclic redundancy check of the polynomial `0x04C11DB7`, bit by bit, low bit
first.  From there come what a caller relies on: a buffer can be passed in
pieces, and an error within 32 bits is seen wherever it lies.
-/

namespace DsEthComm.Flashdb

/-! ## The table -/

/-- `crc32_table`. -/
def crc32Table : List (BitVec 32) := [
  0x00000000#32, 0x77073096#32, 0xee0e612c#32, 0x990951ba#32, 0x076dc419#32, 0x706af48f#32,
  0xe963a535#32, 0x9e6495a3#32, 0x0edb8832#32, 0x79dcb8a4#32, 0xe0d5e91e#32, 0x97d2d988#32,
  0x09b64c2b#32, 0x7eb17cbd#32, 0xe7b82d07#32, 0x90bf1d91#32, 0x1db71064#32, 0x6ab020f2#32,
  0xf3b97148#32, 0x84be41de#32, 0x1adad47d#32, 0x6ddde4eb#32, 0xf4d4b551#32, 0x83d385c7#32,
  0x136c9856#32, 0x646ba8c0#32, 0xfd62f97a#32, 0x8a65c9ec#32, 0x14015c4f#32, 0x63066cd9#32,
  0xfa0f3d63#32, 0x8d080df5#32, 0x3b6e20c8#32, 0x4c69105e#32, 0xd56041e4#32, 0xa2677172#32,
  0x3c03e4d1#32, 0x4b04d447#32, 0xd20d85fd#32, 0xa50ab56b#32, 0x35b5a8fa#32, 0x42b2986c#32,
  0xdbbbc9d6#32, 0xacbcf940#32, 0x32d86ce3#32, 0x45df5c75#32, 0xdcd60dcf#32, 0xabd13d59#32,
  0x26d930ac#32, 0x51de003a#32, 0xc8d75180#32, 0xbfd06116#32, 0x21b4f4b5#32, 0x56b3c423#32,
  0xcfba9599#32, 0xb8bda50f#32, 0x2802b89e#32, 0x5f058808#32, 0xc60cd9b2#32, 0xb10be924#32,
  0x2f6f7c87#32, 0x58684c11#32, 0xc1611dab#32, 0xb6662d3d#32, 0x76dc4190#32, 0x01db7106#32,
  0x98d220bc#32, 0xefd5102a#32, 0x71b18589#32, 0x06b6b51f#32, 0x9fbfe4a5#32, 0xe8b8d433#32,
  0x7807c9a2#32, 0x0f00f934#32, 0x9609a88e#32, 0xe10e9818#32, 0x7f6a0dbb#32, 0x086d3d2d#32,
  0x91646c97#32, 0xe6635c01#32, 0x6b6b51f4#32, 0x1c6c6162#32, 0x856530d8#32, 0xf262004e#32,
  0x6c0695ed#32, 0x1b01a57b#32, 0x8208f4c1#32, 0xf50fc457#32, 0x65b0d9c6#32, 0x12b7e950#32,
  0x8bbeb8ea#32, 0xfcb9887c#32, 0x62dd1ddf#32, 0x15da2d49#32, 0x8cd37cf3#32, 0xfbd44c65#32,
  0x4db26158#32, 0x3ab551ce#32, 0xa3bc0074#32, 0xd4bb30e2#32, 0x4adfa541#32, 0x3dd895d7#32,
  0xa4d1c46d#32, 0xd3d6f4fb#32, 0x4369e96a#32, 0x346ed9fc#32, 0xad678846#32, 0xda60b8d0#32,
  0x44042d73#32, 0x33031de5#32, 0xaa0a4c5f#32, 0xdd0d7cc9#32, 0x5005713c#32, 0x270241aa#32,
  0xbe0b1010#32, 0xc90c2086#32, 0x5768b525#32, 0x206f85b3#32, 0xb966d409#32, 0xce61e49f#32,
  0x5edef90e#32, 0x29d9c998#32, 0xb0d09822#32, 0xc7d7a8b4#32, 0x59b33d17#32, 0x2eb40d81#32,
  0xb7bd5c3b#32, 0xc0ba6cad#32, 0xedb88320#32, 0x9abfb3b6#32, 0x03b6e20c#32, 0x74b1d29a#32,
  0xead54739#32, 0x9dd277af#32, 0x04db2615#32, 0x73dc1683#32, 0xe3630b12#32, 0x94643b84#32,
  0x0d6d6a3e#32, 0x7a6a5aa8#32, 0xe40ecf0b#32, 0x9309ff9d#32, 0x0a00ae27#32, 0x7d079eb1#32,
  0xf00f9344#32, 0x8708a3d2#32, 0x1e01f268#32, 0x6906c2fe#32, 0xf762575d#32, 0x806567cb#32,
  0x196c3671#32, 0x6e6b06e7#32, 0xfed41b76#32, 0x89d32be0#32, 0x10da7a5a#32, 0x67dd4acc#32,
  0xf9b9df6f#32, 0x8ebeeff9#32, 0x17b7be43#32, 0x60b08ed5#32, 0xd6d6a3e8#32, 0xa1d1937e#32,
  0x38d8c2c4#32, 0x4fdff252#32, 0xd1bb67f1#32, 0xa6bc5767#32, 0x3fb506dd#32, 0x48b2364b#32,
  0xd80d2bda#32, 0xaf0a1b4c#32, 0x36034af6#32, 0x41047a60#32, 0xdf60efc3#32, 0xa867df55#32,
  0x316e8eef#32, 0x4669be79#32, 0xcb61b38c#32, 0xbc66831a#32, 0x256fd2a0#32, 0x5268e236#32,
  0xcc0c7795#32, 0xbb0b4703#32, 0x220216b9#32, 0x5505262f#32, 0xc5ba3bbe#32, 0xb2bd0b28#32,
  0x2bb45a92#32, 0x5cb36a04#32, 0xc2d7ffa7#32, 0xb5d0cf31#32, 0x2cd99e8b#32, 0x5bdeae1d#32,
  0x9b64c2b0#32, 0xec63f226#32, 0x756aa39c#32, 0x026d930a#32, 0x9c0906a9#32, 0xeb0e363f#32,
  0x72076785#32, 0x05005713#32, 0x95bf4a82#32, 0xe2b87a14#32, 0x7bb12bae#32, 0x0cb61b38#32,
  0x92d28e9b#32, 0xe5d5be0d#32, 0x7cdcefb7#32, 0x0bdbdf21#32, 0x86d3d2d4#32, 0xf1d4e242#32,
  0x68ddb3f8#32, 0x1fda836e#32, 0x81be16cd#32, 0xf6b9265b#32, 0x6fb077e1#32, 0x18b74777#32,
  0x88085ae6#32, 0xff0f6a70#32, 0x66063bca#32, 0x11010b5c#32, 0x8f659eff#32, 0xf862ae69#32,
  0x616bffd3#32, 0x166ccf45#32, 0xa00ae278#32, 0xd70dd2ee#32, 0x4e048354#32, 0x3903b3c2#32,
  0xa7672661#32, 0xd06016f7#32, 0x4969474d#32, 0x3e6e77db#32, 0xaed16a4a#32, 0xd9d65adc#32,
  0x40df0b66#32, 0x37d83bf0#32, 0xa9bcae53#32, 0xdebb9ec5#32, 0x47b2cf7f#32, 0x30b5ffe9#32,
  0xbdbdf21c#32, 0xcabac28a#32, 0x53b39330#32, 0x24b4a3a6#32, 0xbad03605#32, 0xcdd70693#32,
  0x54de5729#32, 0x23d967bf#32, 0xb3667a2e#32, 0xc4614ab8#32, 0x5d681b02#32, 0x2a6f2b94#32,
  0xb40bbe37#32, 0xc30c8ea1#32, 0x5a05df1b#32, 0x2d02ef8d#32]

/-- The body of `while (size--)`. -/
def crc32Step (crc : BitVec 32) (p : Byte) : BitVec 32 :=
  crc32Table.getD ((crc ^^^ p.zeroExtend 32) &&& 0xFF#32).toNat 0#32 ^^^ (crc >>> 8)

/-- `fdb_calc_crc32`. -/
def fdbCalcCrc32 (crc : BitVec 32) (buf : List Byte) : BitVec 32 :=
  buf.foldl crc32Step (crc ^^^ 0xFFFFFFFF#32) ^^^ 0xFFFFFFFF#32

/-! ## Bit by bit -/

/-- The polynomial, its bits reversed. -/
def poly : BitVec 32 := 0xEDB88320#32

/-- The bits of a byte, low bit first. -/
def bitsOfByte (p : Byte) : List Bool := Crc.bitsOf 8 p

/-- The bits of a buffer. -/
def bitsOfBuf (buf : List Byte) : List Bool := buf.flatMap bitsOfByte

/-- A word of the table is what eight clear bits make of its index. -/
theorem crc32Table_eq :
    ∀ i < 256, crc32Table.getD i 0#32 =
      Crc.register poly (BitVec.ofNat 32 i) (List.replicate 8 false) := by
  decide +kernel

theorem bitsOfByte_eq (p : Byte) : bitsOfByte p = Crc.bitsOf 8 (p.zeroExtend 32) := by
  apply List.map_congr_left
  intro i hi
  have hlt : i < 32 := Nat.lt_of_lt_of_le (List.mem_range.mp hi) (by decide)
  simp [hlt]

/-- The low eight bits of a register and the others. -/
theorem low_xor_high (d : BitVec 32) : (d &&& 0xFF#32) ^^^ (d &&& ~~~0xFF#32) = d := by
  apply BitVec.eq_of_getLsbD_eq
  intro i hi
  simp only [BitVec.getLsbD_xor, BitVec.getLsbD_and, BitVec.getLsbD_not, hi, decide_true,
    Bool.true_and]
  cases d.getLsbD i <;> cases (0xFF#32).getLsbD i <;> rfl

theorem getLsbD_high (d : BitVec 32) {i : Nat} (hi : i < 8) :
    (d &&& ~~~0xFF#32).getLsbD i = false := by
  have hmask : ∀ i < 8, (~~~0xFF#32).getLsbD i = false := by decide
  rw [BitVec.getLsbD_and, hmask i hi, Bool.and_false]

/-- A byte is gone after eight shifts. -/
theorem high_shift (crc : BitVec 32) (p : Byte) :
    ((crc ^^^ p.zeroExtend 32) &&& ~~~0xFF#32) >>> 8 = crc >>> 8 := by
  have hmask : ∀ i < 24, (~~~0xFF#32).getLsbD (8 + i) = true := by decide
  apply BitVec.eq_of_getLsbD_eq
  intro i hi
  simp only [BitVec.getLsbD_ushiftRight, BitVec.getLsbD_and, BitVec.getLsbD_xor]
  by_cases hlow : i < 24
  · rw [hmask i hlow]
    simp
  · simp [BitVec.getLsbD_of_ge crc (8 + i) (by omega)]

/-- **A byte through the table is its eight bits.** -/
theorem crc32Step_eq (crc : BitVec 32) (p : Byte) :
    crc32Step crc p = Crc.register poly crc (bitsOfByte p) := by
  have hbyte : (p.zeroExtend 32).toNat < 2 ^ 8 := by
    simp
    omega
  have hindex : ((crc ^^^ p.zeroExtend 32) &&& 0xFF#32).toNat < 256 := by
    rw [BitVec.toNat_and]
    exact Nat.lt_of_le_of_lt Nat.and_le_right (by decide)
  rw [bitsOfByte_eq, Crc.register_absorb 8 crc _ hbyte, crc32Step, crc32Table_eq _ hindex,
    BitVec.ofNat_toNat, BitVec.setWidth_eq, ← high_shift crc p,
    ← Crc.register_split 8 _ _ fun i hi => getLsbD_high _ hi, low_xor_high]

/-- The buffer through the table is its bits. -/
theorem foldl_crc32Step (crc : BitVec 32) (buf : List Byte) :
    buf.foldl crc32Step crc = Crc.register poly crc (bitsOfBuf buf) := by
  induction buf generalizing crc with
  | nil => rfl
  | cons p buf ih =>
      rw [List.foldl_cons, ih, crc32Step_eq, ← Crc.register_append]
      rfl

/-- **The table is an optimisation**: `fdb_calc_crc32` is the check of the
polynomial, bit by bit. -/
theorem fdbCalcCrc32_eq (crc : BitVec 32) (buf : List Byte) :
    fdbCalcCrc32 crc buf = ~~~(Crc.register poly (~~~crc) (bitsOfBuf buf)) := by
  have hones : ∀ c : BitVec 32, c ^^^ 0xFFFFFFFF#32 = ~~~c := fun c => BitVec.xor_allOnes
  rw [fdbCalcCrc32, hones, hones, foldl_crc32Step]

/-! ## What callers rely on -/

theorem xor_ones_twice (crc : BitVec 32) : crc ^^^ 0xFFFFFFFF#32 ^^^ 0xFFFFFFFF#32 = crc := by
  rw [BitVec.xor_assoc, BitVec.xor_self, BitVec.xor_zero]

theorem fdbCalcCrc32_nil (crc : BitVec 32) : fdbCalcCrc32 crc [] = crc := xor_ones_twice crc

/-- **A buffer can be passed in pieces.** -/
theorem fdbCalcCrc32_append (crc : BitVec 32) (xs ys : List Byte) :
    fdbCalcCrc32 (fdbCalcCrc32 crc xs) ys = fdbCalcCrc32 crc (xs ++ ys) := by
  rw [fdbCalcCrc32, fdbCalcCrc32, fdbCalcCrc32, xor_ones_twice, List.foldl_append]

/-- The check begins with 0 and one byte. -/
example : fdbCalcCrc32 0#32 [0x31#8, 0x32#8, 0x33#8] = 0x884863D2#32 := by decide

theorem length_bitsOfBuf (buf : List Byte) : (bitsOfBuf buf).length = 8 * buf.length := by
  induction buf with
  | nil => rfl
  | cons p buf ih =>
      rw [bitsOfBuf, List.flatMap_cons, List.length_append, ← bitsOfBuf, ih, List.length_cons]
      simp [bitsOfByte]
      omega

theorem bitsOfByte_injective {p q : Byte} (h : bitsOfByte p = bitsOfByte q) : p = q := by
  apply BitVec.eq_of_getLsbD_eq
  intro i hi
  have hbit := congrArg (·[i]?) h
  simpa [bitsOfByte, Crc.bitsOf, hi] using hbit

/-- A buffer is its bits. -/
theorem bitsOfBuf_injective {xs ys : List Byte} (h : bitsOfBuf xs = bitsOfBuf ys) : xs = ys := by
  induction xs generalizing ys with
  | nil =>
      have hlen := congrArg List.length h
      rw [length_bitsOfBuf] at hlen
      cases ys with
      | nil => rfl
      | cons q ys => simp [length_bitsOfBuf] at hlen
  | cons p xs ih =>
      cases ys with
      | nil =>
          have hlen := congrArg List.length h
          simp [length_bitsOfBuf] at hlen
      | cons q ys =>
          simp only [bitsOfBuf, List.flatMap_cons] at h
          obtain ⟨hp, hxs⟩ := List.append_inj h (by simp [bitsOfByte])
          rw [bitsOfByte_injective hp, ih hxs]

/-- Two buffers differ in their bits only within a burst of 32. -/
def Burst (xs ys : List Byte) : Prop :=
  ∃ pre a b suf, a.length = b.length ∧ a.length ≤ 32 ∧
    bitsOfBuf xs = pre ++ (a ++ suf) ∧ bitsOfBuf ys = pre ++ (b ++ suf)

/-- **An error within 32 bits is seen.** -/
theorem fdbCalcCrc32_burst (crc : BitVec 32) {xs ys : List Byte} (h : Burst xs ys)
    (hne : xs ≠ ys) : fdbCalcCrc32 crc xs ≠ fdbCalcCrc32 crc ys := by
  obtain ⟨pre, a, b, suf, hlen, h32, hxs, hys⟩ := h
  have hab : a ≠ b := by
    rintro rfl
    exact hne (bitsOfBuf_injective (hxs.trans hys.symm))
  have hpoly : poly.msb = true := by decide
  intro heq
  have hregister := (BitVec.xor_left_inj _).mp heq
  rw [foldl_crc32Step, foldl_crc32Step, hxs, hys] at hregister
  exact Crc.register_burst hpoly _ pre suf hlen h32 hab hregister

end DsEthComm.Flashdb
