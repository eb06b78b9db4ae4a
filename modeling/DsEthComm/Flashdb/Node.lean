import DsEthComm.CString
import DsEthComm.Flashdb.Cache
import DsEthComm.Flashdb.Scan
import DsEthComm.Flashdb.Status

/-!
# DsEthComm.Flashdb.Node

A node of the KV store: the header of 24 bytes, the name and the value, as
`create_kv_blob` writes it and `read_kv` reads it.

A name of the greatest length that is accepted is not found, since `read_kv`
ends the name after 63 characters.
-/

namespace DsEthComm.Flashdb

open Conc W25qxx

/-! ## Status -/

/-- `FDB_KV_STATUS_NUM`. -/
def kvStatusNum : Nat := 6
/-- `FDB_KV_PRE_WRITE`. -/
def kvPreWrite : Nat := 1
/-- `FDB_KV_WRITE`. -/
def kvWrite : Nat := 2
/-- `FDB_KV_ERR_HDR`. -/
def kvErrHdr : Nat := 5

/-! ## Reading -/

/-- `struct fdb_kv`. -/
structure Kv where
  status : Nat
  crcIsOk : Bool
  nameLen : Nat
  len : Nat
  valueLen : Nat
  name : List Byte
  start : Nat
  value : Nat

/-- A node of which only the address is set. -/
def Kv.unread (start : Nat) : Kv :=
  ⟨0, false, 0, 0, 0, List.replicate kvNameMax 0#8, start, 0⟩

/-- A word of a header. -/
def word (hdr : List Byte) (i : Nat) : BitVec 32 :=
  littleEndian (hdr.getD i 0#8) (hdr.getD (i + 1) 0#8) (hdr.getD (i + 2) 0#8) (hdr.getD (i + 3) 0#8)

/-- The loop of `read_kv` that checks the data, `len` bytes of which are done. -/
def crcLoop (mem : Mem) (dataAddr crcDataLen len : Nat) (calcCrc32 : BitVec 32) : BitVec 32 :=
  if len < crcDataLen then
    let size := if len + 32 < crcDataLen then 32 else crcDataLen - len
    crcLoop mem dataAddr crcDataLen (len + size)
      (fdbCalcCrc32 calcCrc32 (slice mem (dataAddr + len) size))
  else calcCrc32
termination_by crcDataLen - len
decreasing_by
  split <;> omega

/-- `read_kv` where the reads deliver `mem`: the flash, the node and the result.
`perform` is what a write does. -/
def readKv (perform : Mem → (o : flash.Op) → Mem × flash.Res o) (mem : Mem) (maxSize : Nat)
    (kv : Kv) : Mem × Kv × Err :=
  let kvHdr := slice mem kv.start kvHdrDataSize
  let status := fdbGetStatus (kvHdr.take (statusTableSize kvStatusNum)) kvStatusNum
  let len := (word kvHdr 8).toNat
  if len = 0xFFFFFFFF ∨ len > maxSize ∨ len < kvHdrDataSize then
    -- "The KV length was not write"
    let kv := { kv with len := kvHdrDataSize, status := kvErrHdr, crcIsOk := false }
    if status ≠ kvErrHdr then
      (((fdbWriteStatus kv.start kvStatusNum kvErrHdr).eval perform mem).1, kv, .readErr)
    else (mem, kv, .readErr)
  else
    let kv := { kv with status := status, len := len }
    let calcCrc32 := fdbCalcCrc32 0#32 ((kvHdr.drop 16).take 4)
    let calcCrc32 := fdbCalcCrc32 calcCrc32 ((kvHdr.drop 20).take 4)
    let calcCrc32 := crcLoop mem (kv.start + kvHdrDataSize) (len - kvHdrDataSize) 0 calcCrc32
    let nameAddr := kv.start + kvHdrDataSize
    let nameLen := (kvHdr.getD 16 0#8).toNat
    if calcCrc32 ≠ word kvHdr 12 then
      let nameLen := if nameLen > kvNameMax then kvNameMax else nameLen
      (mem, { kv with
        crcIsOk := false
        name := slice mem nameAddr nameLen ++ kv.name.drop nameLen }, .readErr)
    else
      let name := slice mem nameAddr nameLen ++ kv.name.drop nameLen
      (mem, { kv with
        crcIsOk := true
        value := nameAddr + nameLen
        valueLen := (word kvHdr 20).toNat
        nameLen := nameLen
        name := name.set (if nameLen ≥ kvNameMax then kvNameMax - 1 else nameLen) 0#8 }, .noErr)

/-- `find_kv_cb`. -/
def findKvCb (kv : Kv) (key : List Byte) : Bool :=
  key.length = kv.nameLen ∧ kv.crcIsOk ∧ kv.status = kvWrite ∧ strncmpZero kv.name key key.length

/-! ## What is written -/

/-- The bytes of a word, low byte first. -/
def bytes32 (w : BitVec 32) : List Byte :=
  [w.setWidth 8, (w >>> 8).setWidth 8, (w >>> 16).setWidth 8, (w >>> 24).setWidth 8]

/-- `kv_hdr.name_len` with the bytes up to the next field. -/
def nameLenBytes (key : List Byte) : List Byte :=
  [BitVec.ofNat 8 key.length, 0xFF#8, 0xFF#8, 0xFF#8]

/-- The size of a node, of which `kv_hdr.len` has 32 bits. -/
def kvLen (key value : List Byte) : Nat := kvHdrDataSize + key.length + value.length

/-- `kv_hdr.crc32`. -/
def kvCrc32 (key value : List Byte) : BitVec 32 :=
  let crc32 := fdbCalcCrc32 0#32 (nameLenBytes key)
  let crc32 := fdbCalcCrc32 crc32 (bytes32 (BitVec.ofNat 32 value.length))
  let crc32 := fdbCalcCrc32 crc32 key
  fdbCalcCrc32 crc32 value

/-- The header behind the status. -/
def kvHdrBytes (key value : List Byte) : List Byte :=
  bytes32 kvMagicWord ++ (bytes32 (BitVec.ofNat 32 (kvLen key value)) ++
    (bytes32 (kvCrc32 key value) ++ (nameLenBytes key ++ bytes32 (BitVec.ofNat 32 value.length))))

/-! ## What is stored -/

theorem slice_add (mem : Mem) (addr m n : Nat) :
    slice mem addr (m + n) = slice mem addr m ++ slice mem (addr + m) n := by
  simp [slice, List.range_add, Nat.add_assoc]

@[simp] theorem length_slice (mem : Mem) (addr n : Nat) : (slice mem addr n).length = n := by
  simp [slice]

/-- Some bytes lie at an address. -/
def Stored (mem : Mem) (addr : Nat) (bytes : List Byte) : Prop :=
  slice mem addr bytes.length = bytes

theorem stored_append (mem : Mem) (addr : Nat) (xs ys : List Byte) :
    Stored mem addr (xs ++ ys) ↔ Stored mem addr xs ∧ Stored mem (addr + xs.length) ys := by
  rw [Stored, List.length_append, slice_add]
  exact ⟨fun h => List.append_inj h (length_slice mem addr xs.length), fun ⟨hx, hy⟩ => by
    rw [hx, hy]⟩

theorem littleEndian_bytes32 (w : BitVec 32) :
    littleEndian (w.setWidth 8) ((w >>> 8).setWidth 8) ((w >>> 16).setWidth 8)
      ((w >>> 24).setWidth 8) = w := by
  apply BitVec.eq_of_toNat_eq
  have hw := w.isLt
  simp only [littleEndian, BitVec.toNat_add, BitVec.toNat_shiftLeft, BitVec.truncate_eq_setWidth,
    BitVec.toNat_setWidth, BitVec.toNat_ushiftRight, Nat.shiftLeft_eq, Nat.shiftRight_eq_div_pow]
  omega

/-- A word that is stored is read from a header. -/
theorem word_slice {mem : Mem} {addr i : Nat} {w : BitVec 32}
    (h : Stored mem (addr + i) (bytes32 w)) (hi : i + 4 ≤ kvHdrDataSize) :
    word (slice mem addr kvHdrDataSize) i = w := by
  have hbyte : ∀ k < kvHdrDataSize, (slice mem addr kvHdrDataSize).getD k 0#8 = mem (addr + k) := by
    intro k hk
    simp [slice, hk]
  simp only [Stored, bytes32, slice, List.length_cons, List.length_nil, List.range_succ_eq_map,
    List.range_zero, List.map_cons, List.map_nil, List.cons.injEq] at h
  obtain ⟨h₀, h₁, h₂, h₃, -⟩ := h
  have hmem₀ : mem (addr + i) = w.setWidth 8 := h₀
  have hmem₁ : mem (addr + (i + 1)) = (w >>> 8).setWidth 8 := h₁
  have hmem₂ : mem (addr + (i + 2)) = (w >>> 16).setWidth 8 := h₂
  have hmem₃ : mem (addr + (i + 3)) = (w >>> 24).setWidth 8 := h₃
  rw [word, hbyte i (by omega), hbyte (i + 1) (by omega), hbyte (i + 2) (by omega),
    hbyte (i + 3) (by omega), hmem₀, hmem₁, hmem₂, hmem₃, littleEndian_bytes32]

theorem toNat_word_slice {mem : Mem} {addr i n : Nat}
    (h : Stored mem (addr + i) (bytes32 (BitVec.ofNat 32 n))) (hi : i + 4 ≤ kvHdrDataSize)
    (hn : n < 4294967296) : (word (slice mem addr kvHdrDataSize) i).toNat = n := by
  rw [word_slice h hi, BitVec.toNat_ofNat]
  exact Nat.mod_eq_of_lt hn

theorem slice_of_slice (mem : Mem) {addr i n m : Nat} (h : i + n ≤ m) :
    ((slice mem addr m).drop i).take n = slice mem (addr + i) n := by
  have hsplit : m = i + (n + (m - i - n)) := by omega
  rw [hsplit, slice_add, List.drop_left' (length_slice mem addr i), slice_add,
    List.take_left' (length_slice mem (addr + i) n)]

/-- The data is checked as a whole. -/
theorem crcLoop_eq (mem : Mem) (dataAddr crcDataLen len : Nat) (crc : BitVec 32)
    (h : len ≤ crcDataLen) :
    crcLoop mem dataAddr crcDataLen len crc =
      fdbCalcCrc32 crc (slice mem (dataAddr + len) (crcDataLen - len)) := by
  induction len, crc using crcLoop.induct mem dataAddr crcDataLen with
  | case1 len crc hlt size ih =>
      have hsize : len + size ≤ crcDataLen := by
        simp only [size]
        split <;> omega
      have hsplit : crcDataLen - len = size + (crcDataLen - (len + size)) := by omega
      have hdata : slice mem (dataAddr + len) (crcDataLen - len) =
          slice mem (dataAddr + len) size ++
            slice mem (dataAddr + (len + size)) (crcDataLen - (len + size)) := by
        rw [hsplit, slice_add, Nat.add_assoc]
      rw [crcLoop, if_pos hlt, hdata, ← fdbCalcCrc32_append]
      exact ih hsize
  | case2 len crc hlt =>
      have hzero : crcDataLen - len = 0 := by omega
      rw [crcLoop, if_neg hlt, hzero]
      exact (fdbCalcCrc32_nil crc).symm

/-! ## Reading what is stored -/

section Reading

variable {perform : Mem → (o : flash.Op) → Mem × flash.Res o}

/-- The node lies at an address, apart from its status. -/
def NodeAt (mem : Mem) (addr : Nat) (key value : List Byte) : Prop :=
  Stored mem (addr + kvMagicOffset) (kvHdrBytes key value ++ (key ++ value))

@[simp] theorem length_bytes32 (w : BitVec 32) : (bytes32 w).length = 4 := rfl

@[simp] theorem length_nameLenBytes (key : List Byte) : (nameLenBytes key).length = 4 := rfl

@[simp] theorem length_kvHdrBytes (key value : List Byte) : (kvHdrBytes key value).length = 20 := rfl

/-- The fields of a node. -/
structure Fields (mem : Mem) (addr : Nat) (key value : List Byte) : Prop where
  len : Stored mem (addr + 8) (bytes32 (BitVec.ofNat 32 (kvLen key value)))
  crc32 : Stored mem (addr + 12) (bytes32 (kvCrc32 key value))
  nameLen : Stored mem (addr + 16) (nameLenBytes key)
  valueLen : Stored mem (addr + 20) (bytes32 (BitVec.ofNat 32 value.length))
  name : Stored mem (addr + kvHdrDataSize) key
  data : Stored mem (addr + kvHdrDataSize + key.length) value

theorem NodeAt.fields {mem : Mem} {addr : Nat} {key value : List Byte}
    (h : NodeAt mem addr key value) : Fields mem addr key value := by
  simp only [NodeAt, kvHdrBytes, stored_append, List.length_append, length_bytes32,
    length_nameLenBytes, kvMagicOffset, Nat.add_assoc, Nat.reduceAdd] at h
  obtain ⟨⟨-, hlen, hcrc, hnameLen, hvalueLen⟩, hkey, hvalue⟩ := h
  exact ⟨hlen, hcrc, hnameLen, hvalueLen, hkey, Nat.add_assoc .. ▸ hvalue⟩

theorem le_kvLen (key value : List Byte) : kvHdrDataSize ≤ kvLen key value := by
  unfold kvLen
  omega

theorem value_le_kvLen (key value : List Byte) : value.length ≤ kvLen key value := by
  unfold kvLen
  omega

theorem kvCrc32_eq (key value : List Byte) :
    kvCrc32 key value = fdbCalcCrc32 0#32
      (nameLenBytes key ++ (bytes32 (BitVec.ofNat 32 value.length) ++ (key ++ value))) := by
  simp only [kvCrc32, fdbCalcCrc32_append, List.append_assoc]

/-- `read_kv` checks all that lies behind `kv_hdr.crc32`. -/
theorem crc_slice (mem : Mem) (addr : Nat) {len : Nat} (h : kvHdrDataSize ≤ len) :
    crcLoop mem (addr + kvHdrDataSize) (len - kvHdrDataSize) 0
        (fdbCalcCrc32 (fdbCalcCrc32 0#32 (((slice mem addr kvHdrDataSize).drop 16).take 4))
          (((slice mem addr kvHdrDataSize).drop 20).take 4)) =
      fdbCalcCrc32 0#32 (slice mem (addr + 16) (len - 16)) := by
  have hsplit : len - 16 = 4 + (4 + (len - kvHdrDataSize)) := by
    unfold kvHdrDataSize at h ⊢
    omega
  have hnameLen : 16 + 4 ≤ kvHdrDataSize := by decide
  have hvalueLen : 20 + 4 ≤ kvHdrDataSize := by decide
  rw [crcLoop_eq mem _ _ 0 _ (Nat.zero_le _), slice_of_slice mem hnameLen,
    slice_of_slice mem hvalueLen, fdbCalcCrc32_append, fdbCalcCrc32_append, hsplit, slice_add,
    slice_add]
  rfl

/-- `kv_hdr.crc32` is that of a node. -/
theorem NodeAt.crc {mem : Mem} {addr : Nat} {key value : List Byte}
    (h : NodeAt mem addr key value) :
    kvCrc32 key value = fdbCalcCrc32 0#32 (slice mem (addr + 16) (kvLen key value - 16)) := by
  obtain ⟨-, -, hn, hv, hk, hd⟩ := h.fields
  have hdata : Stored mem (addr + 16)
      (nameLenBytes key ++ (bytes32 (BitVec.ofNat 32 value.length) ++ (key ++ value))) :=
    (stored_append ..).mpr ⟨hn, (stored_append ..).mpr ⟨hv, (stored_append ..).mpr ⟨hk, hd⟩⟩⟩
  have hlen : kvLen key value - 16 =
      (nameLenBytes key ++ (bytes32 (BitVec.ofNat 32 value.length) ++ (key ++ value))).length := by
    simp only [kvLen, kvHdrDataSize, List.length_append, length_nameLenBytes, length_bytes32]
    omega
  rw [kvCrc32_eq, hlen, hdata]

/-- What `read_kv` finds in a node. -/
def Kv.found (kv : Kv) (status : Nat) (key value : List Byte) : Kv :=
  { kv with
    status := status
    len := kvLen key value
    crcIsOk := true
    value := kv.start + kvHdrDataSize + key.length
    valueLen := value.length
    nameLen := key.length
    name := (key ++ kv.name.drop key.length).set
      (if key.length ≥ kvNameMax then kvNameMax - 1 else key.length) 0#8 }

theorem status_slice (mem : Mem) (addr : Nat) :
    fdbGetStatus ((slice mem addr kvHdrDataSize).take (statusTableSize kvStatusNum)) kvStatusNum =
      statusAt mem addr kvStatusNum := by
  have hsize : 0 + statusTableSize kvStatusNum ≤ kvHdrDataSize := by decide
  have hslice := @slice_of_slice mem addr _ _ _ hsize
  rw [List.drop_zero, Nat.add_zero] at hslice
  rw [hslice, statusAt]

/-- **`read_kv` reads a node.** -/
theorem readKv_nodeAt {mem : Mem} {maxSize : Nat} {kv : Kv} {key value : List Byte}
    (h : NodeAt mem kv.start key value) (hkey : key.length < 256) (hlen : kvLen key value ≤ maxSize)
    (hmax : maxSize < 0xFFFFFFFF) :
    readKv perform mem maxSize kv =
      (mem, kv.found (statusAt mem kv.start kvStatusNum) key value, .noErr) := by
  obtain ⟨hl, hc, hn, hv, hk, -⟩ := h.fields
  have hvalueLen := value_le_kvLen key value
  have hlenWord := toNat_word_slice hl (by decide) (by omega)
  have hvalueWord := toNat_word_slice hv (by decide) (by omega)
  have hnameWord : ((slice mem kv.start kvHdrDataSize).getD 16 0#8).toNat = key.length := by
    have hbyte := congrArg (·.getD 0 0#8) hn
    have hcell : (slice mem kv.start kvHdrDataSize).getD 16 0#8 = BitVec.ofNat 8 key.length := by
      simpa [Stored, slice, nameLenBytes, kvHdrDataSize] using hbyte
    rw [hcell, BitVec.toNat_ofNat]
    exact Nat.mod_eq_of_lt hkey
  have hhdr := le_kvLen key value
  have hbounds : ¬(kvLen key value = 0xFFFFFFFF ∨ kvLen key value > maxSize ∨
      kvLen key value < kvHdrDataSize) := by
    omega
  have hkeyBytes : slice mem (kv.start + kvHdrDataSize) key.length = key := hk
  have hcrc := crc_slice mem kv.start hhdr
  simp only [readKv, hlenWord, if_neg hbounds, hcrc, ← h.crc, hnameWord, hvalueWord,
    word_slice hc (by decide : 12 + 4 ≤ kvHdrDataSize), status_slice, hkeyBytes]
  exact if_neg (not_not_intro rfl)

theorem Stored.congr {mem mem' : Mem} {addr : Nat} {bytes : List Byte}
    (h : Stored mem addr bytes)
    (hsame : ∀ x, addr ≤ x → x < addr + bytes.length → mem' x = mem x) :
    Stored mem' addr bytes := by
  have hslice : slice mem' addr bytes.length = slice mem addr bytes.length := by
    apply List.map_congr_left
    intro i hi
    have hlt := List.mem_range.mp hi
    exact hsame (addr + i) (by omega) (by omega)
  exact hslice.trans h

/-- **Damage to a node is seen**, if it is within 32 bits: `read_kv` fails, and
the node is found by no name. -/
theorem readKv_burst {mem mem' : Mem} {maxSize : Nat} {kv : Kv} {key value : List Byte}
    (h : NodeAt mem kv.start key value) (hlen : kvLen key value ≤ maxSize)
    (hmax : maxSize < 0xFFFFFFFF)
    (hsame : ∀ x, kv.start + 8 ≤ x → x < kv.start + 16 → mem' x = mem x)
    (hburst : Burst (slice mem' (kv.start + 16) (kvLen key value - 16))
      (slice mem (kv.start + 16) (kvLen key value - 16)))
    (hne : slice mem' (kv.start + 16) (kvLen key value - 16) ≠
      slice mem (kv.start + 16) (kvLen key value - 16)) :
    (readKv perform mem' maxSize kv).2.2 = .readErr ∧
      ∀ k, findKvCb (readKv perform mem' maxSize kv).2.1 k = false := by
  obtain ⟨hl, hc, -, -, -, -⟩ := h.fields
  have hl' : Stored mem' (kv.start + 8) (bytes32 (BitVec.ofNat 32 (kvLen key value))) :=
    hl.congr fun x hx hend => hsame x hx (by simp at hend; omega)
  have hc' : Stored mem' (kv.start + 12) (bytes32 (kvCrc32 key value)) :=
    hc.congr fun x hx hend => hsame x (by omega) (by simp at hend; omega)
  have hlenWord := toNat_word_slice hl' (by decide) (by omega)
  have hhdr := le_kvLen key value
  have hbounds : ¬(kvLen key value = 0xFFFFFFFF ∨ kvLen key value > maxSize ∨
      kvLen key value < kvHdrDataSize) := by
    omega
  have hcrc := crc_slice mem' kv.start hhdr
  have hwrong : fdbCalcCrc32 0#32 (slice mem' (kv.start + 16) (kvLen key value - 16)) ≠
      kvCrc32 key value := by
    rw [h.crc]
    exact fdbCalcCrc32_burst 0#32 hburst hne
  simp only [readKv, hlenWord, if_neg hbounds, hcrc,
    word_slice hc' (by decide : 12 + 4 ≤ kvHdrDataSize), if_pos hwrong]
  exact ⟨trivial, fun k => by simp [findKvCb]⟩

/-- A bit of the value is cleared. -/
theorem readKv_burst_value :
    (readKv norPerform
      (burn (burn (fun _ => 0xFF#8) 0x1004 (kvHdrBytes [0x61#8] [0x31#8] ++ [0x61#8, 0x31#8])) 0x1019
        [0x30#8]) 0x8000 (Kv.unread 0x1000)).2.2 = .readErr := by
  have hnode : NodeAt (burn (fun _ => 0xFF#8) 0x1004 (kvHdrBytes [0x61#8] [0x31#8] ++
      [0x61#8, 0x31#8])) 0x1000 [0x61#8] [0x31#8] := by
    unfold NodeAt Stored
    decide +kernel
  have hslice : slice (burn (fun _ => 0xFF#8) 0x1004 (kvHdrBytes [0x61#8] [0x31#8] ++
      [0x61#8, 0x31#8])) ((Kv.unread 0x1000).start + 16) (kvLen [0x61#8] [0x31#8] - 16) =
        [0x01#8, 0xFF#8, 0xFF#8, 0xFF#8, 0x01#8, 0x00#8, 0x00#8, 0x00#8, 0x61#8, 0x31#8] := by
    decide +kernel
  have hslice' : slice (burn (burn (fun _ => 0xFF#8) 0x1004 (kvHdrBytes [0x61#8] [0x31#8] ++
      [0x61#8, 0x31#8])) 0x1019 [0x30#8]) ((Kv.unread 0x1000).start + 16)
        (kvLen [0x61#8] [0x31#8] - 16) =
        [0x01#8, 0xFF#8, 0xFF#8, 0xFF#8, 0x01#8, 0x00#8, 0x00#8, 0x00#8, 0x61#8, 0x30#8] := by
    decide +kernel
  have hburst : Burst [0x01#8, 0xFF#8, 0xFF#8, 0xFF#8, 0x01#8, 0x00#8, 0x00#8, 0x00#8, 0x61#8, 0x30#8]
      [0x01#8, 0xFF#8, 0xFF#8, 0xFF#8, 0x01#8, 0x00#8, 0x00#8, 0x00#8, 0x61#8, 0x31#8] :=
    ⟨bitsOfBuf [0x01#8, 0xFF#8, 0xFF#8, 0xFF#8, 0x01#8, 0x00#8, 0x00#8, 0x00#8, 0x61#8],
      bitsOfByte 0x30#8, bitsOfByte 0x31#8, [], by decide, by decide, by decide, by decide⟩
  refine (@readKv_burst _ _ _ 0x8000 (Kv.unread 0x1000) [0x61#8] [0x31#8] hnode (by decide)
    (by decide) ?_ ?_ ?_).1
  · intro x _ hx
    have hbefore : x < 0x1000 + 16 := hx
    exact burn_outside _ fun hin => by omega
  · rw [hslice', hslice]
    exact hburst
  · rw [hslice', hslice]
    decide

end Reading

/-! ## Finding it -/

theorem strncmpZero_iff {b : List Byte} (hb : ∀ c ∈ b, c ≠ 0#8) (a : List Byte) :
    strncmpZero a b b.length = true ↔ b <+: a := by
  induction b generalizing a with
  | nil => simp [strncmpZero]
  | cons c b ih =>
      have hc := hb c (by simp)
      have hrest := ih fun x hx => hb x (by simp [hx])
      cases a with
      | nil => simp [strncmpZero, Ne.symm hc]
      | cons x a =>
          rw [List.length_cons, strncmpZero, List.cons_prefix_cons]
          by_cases hx : x = c
          · simp [hx, hc, hrest]
          · simp [hx, Ne.symm hx]

/-- The name that `read_kv` leaves begins with the name of the node, unless
that is too long. -/
theorem prefix_found {key k : CStr} (kv : Kv) (status : Nat) (value : List Byte)
    (hlen : k.chars.length = key.chars.length) :
    k.chars <+: (kv.found status key.chars value).name ↔
      k = key ∧ key.chars.length < kvNameMax := by
  have hprefix : ∀ xs ys : List Byte, k.chars.length = xs.length →
      (k.chars <+: xs ++ ys ↔ k.chars = xs) := by
    intro xs ys hsame
    rw [List.prefix_iff_eq_take, hsame, List.take_left' rfl]
  have hext : k.chars = key.chars ↔ k = key := by
    cases k
    cases key
    simp
  by_cases hshort : key.chars.length < kvNameMax
  · have hset : (kv.found status key.chars value).name =
        key.chars ++ (kv.name.drop key.chars.length).set 0 0#8 := by
      simp [Kv.found, Nat.not_le.mpr hshort, List.set_append_right]
    rw [hset, hprefix _ _ hlen, hext]
    simp [hshort]
  · -- the `NUL` falls into the name
    have hlast : kvNameMax - 1 < key.chars.length := by
      unfold kvNameMax at hshort ⊢
      omega
    have hset : (kv.found status key.chars value).name =
        key.chars.set (kvNameMax - 1) 0#8 ++ kv.name.drop key.chars.length := by
      simp [Kv.found, Nat.not_lt.mp hshort, List.set_append_left, hlast]
    rw [hset, hprefix _ _ (by simpa using hlen)]
    constructor
    · intro hsame
      have hmem : 0#8 ∈ k.chars := by
        rw [hsame]
        exact List.mem_set hlast 0#8
      exact absurd rfl (k.nonzero 0#8 hmem)
    · exact fun h => absurd h.2 hshort

/-- **A node is found by its name**, if that is shorter than
`FDB_KV_NAME_MAX`. -/
theorem findKvCb_found (kv : Kv) (status : Nat) (key k : CStr) (value : List Byte) :
    findKvCb (kv.found status key.chars value) k.chars = true ↔
      status = kvWrite ∧ k = key ∧ key.chars.length < kvNameMax := by
  have hname : k.chars.length = key.chars.length →
      (strncmpZero (kv.found status key.chars value).name k.chars k.chars.length = true ↔
        k = key ∧ key.chars.length < kvNameMax) := by
    intro hlen
    rw [strncmpZero_iff k.nonzero, prefix_found kv status value hlen]
  by_cases hlen : k.chars.length = key.chars.length
  · simp only [findKvCb, decide_eq_true_eq]
    rw [hname hlen]
    simp [Kv.found, hlen]
  · have hne : k ≠ key := by
      rintro rfl
      exact hlen rfl
    simp [findKvCb, Kv.found, hlen, hne]

end DsEthComm.Flashdb
