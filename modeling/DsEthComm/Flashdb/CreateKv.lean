import DsEthComm.Flashdb.Node

/-!
# DsEthComm.Flashdb.CreateKv

`create_kv_blob`, and what is in flash when a write of it fails, or the power
does.

A node goes to erased flash, first its status `FDB_KV_PRE_WRITE`, last
`FDB_KV_WRITE`.  The two differ in one bit, so that on a flash that is
programmed in place the node becomes visible with that bit, all at once.
-/

namespace DsEthComm.Flashdb

open Conc W25qxx

/-! ## The functions -/

/-- `FDB_SECTOR_STORE_STATUS_NUM`. -/
def sectorStoreStatusNum : Nat := 4
/-- `FDB_SECTOR_STORE_EMPTY`. -/
def sectorStoreEmpty : Nat := 1
/-- `FDB_SECTOR_STORE_USING`. -/
def sectorStoreUsing : Nat := 2
/-- `FDB_SECTOR_STORE_FULL`. -/
def sectorStoreFull : Nat := 3

/-- `SECTOR_HDR_DATA_SIZE`. -/
def sectorHdrDataSize : Nat := 16

/-- `FDB_SEC_REMAIN_THRESHOLD`. -/
def secRemainThreshold : BitVec 32 := BitVec.ofNat 32 (kvHdrDataSize + kvNameMax)

/-- `struct kvdb_sec_info` with what `update_sec_status` reads of it. -/
structure KvSecStatus extends KvSecInfo where
  store : Nat
  remain : BitVec 32

/-- `update_sec_status`: the result and `is_full`. -/
def updateSecStatus (sector : KvSecStatus) (newKvLen : BitVec 32) : Flash (Err × Bool) :=
  if sector.store = sectorStoreEmpty then do
    let result ← fdbWriteStatus sector.addr sectorStoreStatusNum sectorStoreUsing
    return (result, false)
  else if sector.store = sectorStoreUsing then
    if sector.remain < secRemainThreshold ∨ sector.remain - newKvLen < secRemainThreshold then do
      let result ← fdbWriteStatus sector.addr sectorStoreStatusNum sectorStoreFull
      return (result, true)
    else return (.noErr, false)
  else return (.noErr, false)

/-- `if (result == FDB_NO_ERR) result = ...`. -/
def ifOk (result : Err) (p : Flash Err) : Flash Err :=
  if result = .noErr then p else return result

/-- `write_kv_hdr`. -/
def writeKvHdr (addr : Nat) (key value : List Byte) : Flash Err := do
  let result ← fdbWriteStatus addr kvStatusNum kvPreWrite
  ifOk result (fdbFlashWrite (addr + kvMagicOffset) (kvHdrBytes key value))

/-- `align_write`.  With a granularity of one bit there is nothing to align. -/
def alignWrite (addr : Nat) (buf : List Byte) : Flash Err :=
  if buf.length > 0 then fdbFlashWrite addr buf else return .noErr

/-- `create_kv_blob` where `sector->empty_kv` is an address: the result, and
whether it sets `gc_request`. -/
def createKvBlob (secSize : Nat) (sector : KvSecStatus) (key value : List Byte) :
    Flash (Err × Bool) :=
  let kvAddr := sector.emptyKv
  let len := BitVec.ofNat 32 (kvLen key value)
  if key.length > kvNameMax then return (.kvNameErr, false)
  else if len.toNat > secSize - sectorHdrDataSize then return (.savedFull, false)
  else do
    let (result, isFull) ← updateSecStatus sector len
    let result ← ifOk result (writeKvHdr kvAddr key value)
    let result ← ifOk result (alignWrite (kvAddr + kvHdrDataSize) key)
    let result ← ifOk result (alignWrite (kvAddr + kvHdrDataSize + key.length) value)
    let result ← ifOk result (fdbWriteStatus kvAddr kvStatusNum kvWrite)
    return (result, result = .noErr && isFull)

/-! ## Where they write -/

/-- The flash is erased from an address on. -/
def Erased (mem : Mem) (addr n : Nat) : Prop :=
  ∀ x, addr ≤ x → x < addr + n → mem x = 0xFF#8

/-- The place of a node lies in one sector, behind its header. -/
def InSector (secSize addr n : Nat) : Prop :=
  sectorHdrDataSize ≤ addr % secSize ∧ addr % secSize + n ≤ secSize

instance (secSize addr n : Nat) : Decidable (InSector secSize addr n) :=
  inferInstanceAs (Decidable (_ ∧ _))

/-- Nothing has changed but for headers of sectors and a range. -/
def Same (secSize lo hi : Nat) (mem mem' : Mem) : Prop :=
  ∀ x, sectorHdrDataSize ≤ x % secSize → ¬(lo ≤ x ∧ x < hi) → mem' x = mem x

/-- Nothing has changed but for headers of sectors. -/
abbrev SameNodes (secSize : Nat) (mem mem' : Mem) : Prop := Same secSize 0 0 mem mem'

theorem Same.refl {secSize lo hi : Nat} (mem : Mem) : Same secSize lo hi mem mem :=
  fun _ _ _ => rfl

theorem Same.trans {secSize lo hi : Nat} {mem mem' mem'' : Mem} (h : Same secSize lo hi mem mem')
    (h' : Same secSize lo hi mem' mem'') : Same secSize lo hi mem mem'' :=
  fun x hx hout => (h' x hx hout).trans (h x hx hout)

theorem SameNodes.same {secSize lo hi : Nat} {mem mem' : Mem} (h : SameNodes secSize mem mem') :
    Same secSize lo hi mem mem' :=
  fun x hx _ => h x hx (by omega)

/-- The bytes of a node are no bytes of a header. -/
theorem InSector.behind_header {secSize addr n x : Nat} (h : InSector secSize addr n)
    (hx : addr ≤ x) (hend : x < addr + n) : sectorHdrDataSize ≤ x % secSize := by
  obtain ⟨hhdr, hfits⟩ := h
  have hdiv := Nat.div_add_mod addr secSize
  have hsplit : x = secSize * (addr / secSize) + (addr % secSize + (x - addr)) := by omega
  rw [hsplit, Nat.mul_add_mod, Nat.mod_eq_of_lt (by omega)]
  omega

/-- A place apart from the range has not changed. -/
theorem Same.at {secSize lo hi addr n : Nat} {mem mem' : Mem} (h : Same secSize lo hi mem mem')
    (hin : InSector secSize addr n) (hapart : addr + n ≤ lo ∨ hi ≤ addr) {x : Nat} (hx : addr ≤ x)
    (hend : x < addr + n) : mem' x = mem x :=
  h x (hin.behind_header hx hend) (by omega)

theorem SameNodes.at {secSize addr n : Nat} {mem mem' : Mem} (h : SameNodes secSize mem mem')
    (hin : InSector secSize addr n) {x : Nat} (hx : addr ≤ x) (hend : x < addr + n) :
    mem' x = mem x :=
  Same.at h hin (.inr (Nat.zero_le _)) hx hend

/-- The statuses of FlashDB lie in one byte. -/
theorem statusCut_outside (left : Byte) (mem : Mem) {addr statusNum statusIndex x : Nat}
    (h : statusIndex ≤ 8) (hx : x ≠ addr) :
    statusCut left mem addr statusNum statusIndex x = mem x := by
  have hbyte : (statusIndex - 1) / 8 = 0 := by omega
  unfold statusCut fdbSetStatus
  by_cases hpos : statusIndex > 0
  · simp only [hpos, if_true, hbyte]
    exact burn_outside mem (by simp; omega)
  · simp [hpos]

/-- A status in the header of a sector. -/
theorem sameNodes_statusCut (left : Byte) (mem : Mem) {secSize addr statusNum statusIndex : Nat}
    (h : statusIndex ≤ 8) (haddr : addr % secSize < sectorHdrDataSize) :
    SameNodes secSize mem (statusCut left mem addr statusNum statusIndex) := by
  intro x hx _
  apply statusCut_outside left mem h
  rintro rfl
  omega

/-! ## What lies in flash -/

theorem statusAt_eq (mem : Mem) (addr : Nat) :
    statusAt mem addr kvStatusNum = fdbGetStatus [mem addr] kvStatusNum := by
  simp [statusAt, slice, statusTableSize, kvStatusNum]

theorem NodeAt.congr {mem mem' : Mem} {addr : Nat} {key value : List Byte}
    (h : NodeAt mem addr key value)
    (hsame : ∀ x, addr < x → x < addr + kvLen key value → mem' x = mem x) :
    NodeAt mem' addr key value := by
  apply Stored.congr h
  intro x hx hend
  simp only [List.length_append, length_kvHdrBytes, kvMagicOffset] at hx hend
  exact hsame x (by omega) (by unfold kvLen kvHdrDataSize; omega)

theorem stored_burn {mem : Mem} {addr : Nat} {data : List Byte}
    (h : Erased mem addr data.length) : Stored (burn mem addr data) addr data := by
  apply List.ext_getElem?
  intro i
  by_cases hi : i < data.length
  · have hcell := h (addr + i) (by omega) (by omega)
    have hand : ∀ b : Byte, 0xFF#8 &&& b = b := fun b => by rw [BitVec.and_comm, and_erased]
    simp [slice, burn, hi, hcell, hand]
  · rw [List.getElem?_eq_none (by simp; omega), List.getElem?_eq_none (by omega)]

theorem statusAt_preWrite {mem : Mem} {addr : Nat} (h : mem addr = 0x7F#8) :
    statusAt mem addr kvStatusNum ≤ kvPreWrite := by
  rw [statusAt_eq, h]
  decide

theorem statusAt_erased {mem : Mem} {addr : Nat} (h : mem addr = 0xFF#8) :
    statusAt mem addr kvStatusNum = 0 := by
  rw [statusAt_eq, h]
  decide

theorem kvLen_pos (key value : List Byte) : 0 < kvLen key value :=
  Nat.lt_of_lt_of_le (by decide) (le_kvLen key value)

/-- A node is there, and its status says so. -/
structure Written (mem : Mem) (addr : Nat) (key value : List Byte) : Prop where
  node : NodeAt mem addr key value
  status : statusAt mem addr kvStatusNum = kvWrite
  name : key.length ≤ kvNameMax

/-- What may be left of a node: nothing that its status shows, or all of it.
The rest is as it was. -/
structure Atomic (secSize : Nat) (mem : Mem) (addr : Nat) (key value : List Byte) (mem' : Mem) :
    Prop where
  same : Same secSize addr (addr + kvLen key value) mem mem'
  hidden_or_written : statusAt mem' addr kvStatusNum ≤ kvPreWrite ∨ Written mem' addr key value

/-- Nothing of the node is written yet. -/
structure Fresh (secSize : Nat) (mem : Mem) (addr : Nat) (key value : List Byte) (mem' : Mem) :
    Prop where
  same : Same secSize addr (addr + kvLen key value) mem mem'
  erased : Erased mem' addr (kvLen key value)

/-- The node is being written: a part of it is there, and the rest is
erased. -/
structure Writing (secSize : Nat) (mem : Mem) (addr : Nat) (key value done : List Byte)
    (mem' : Mem) : Prop where
  same : Same secSize addr (addr + kvLen key value) mem mem'
  status : mem' addr = 0x7F#8
  stored : Stored mem' (addr + kvMagicOffset) done
  rest : ∀ x, addr + kvMagicOffset + done.length ≤ x → x < addr + kvLen key value → mem' x = 0xFF#8

/-- A function has come to `S` if it succeeds, and in any case left `C`. -/
def Reaches (C S : Mem → Prop) (result : Err) (mem : Mem) : Prop :=
  (result = .noErr → S mem) ∧ C mem

theorem reaches_of_ne {C S : Mem → Prop} {result : Err} {mem : Mem} (h : result ≠ .noErr)
    (hC : C mem) : Reaches C S result mem :=
  ⟨fun hok => absurd hok h, hC⟩

theorem safe_ifOk {P : Device flash Mem} {C S S' : Mem → Prop} {result : Err} {p : Flash Err}
    {mem : Mem} (h : Reaches C S result mem) (hp : S mem → P.Safe C (Reaches C S') p mem) :
    P.Safe C (Reaches C S') (ifOk result p) mem := by
  unfold ifOk
  split
  case isTrue hok => exact hp (h.1 hok)
  case isFalse herr => exact ⟨h.2, reaches_of_ne herr h.2⟩

section Create

variable {P : Device flash Mem} {secSize addr : Nat} {mem m : Mem} {key value done data : List Byte}

theorem Fresh.atomic (h : Fresh secSize mem addr key value m) :
    Atomic secSize mem addr key value m := by
  refine ⟨h.same, .inl ?_⟩
  rw [statusAt_erased (h.erased addr (Nat.le_refl _) (Nat.lt_add_of_pos_right (kvLen_pos ..)))]
  exact Nat.zero_le _

theorem Writing.atomic (h : Writing secSize mem addr key value done m) :
    Atomic secSize mem addr key value m :=
  ⟨h.same, .inl (statusAt_preWrite h.status)⟩

theorem Same.burn (h : Same secSize addr (addr + kvLen key value) mem m) {start : Nat}
    (hstart : addr ≤ start) (hend : start + data.length ≤ addr + kvLen key value) :
    Same secSize addr (addr + kvLen key value) mem (burn m start data) := by
  intro x hx hout
  rw [burn_outside m (by omega)]
  exact h x hx hout

theorem Same.statusCut (h : Same secSize addr (addr + kvLen key value) mem m) (left : Byte)
    {status : Nat} (hs : status ≤ 8) :
    Same secSize addr (addr + kvLen key value) mem (statusCut left m addr kvStatusNum status) := by
  intro x hx hout
  have hpos := kvLen_pos key value
  rw [statusCut_outside left m hs (by omega)]
  exact h x hx hout

/-! ## One write after another -/

/-- The first status. -/
theorem Fresh.safe_preWrite (hP : InPlace P) (h : Fresh secSize mem addr key value m) :
    P.Safe (Atomic secSize mem addr key value)
      (Reaches (Atomic secSize mem addr key value) (Writing secSize mem addr key value []))
      (fdbWriteStatus addr kvStatusNum kvPreWrite) m := by
  have hpos := kvLen_pos key value
  have herased : m addr = 0xFF#8 := h.erased addr (Nat.le_refl _) (by omega)
  have hsize : kvPreWrite ≤ 8 := by decide
  have hcut : ∀ left, Atomic secSize mem addr key value
      (statusCut left m addr kvStatusNum kvPreWrite) := by
    intro left
    have hhigh := (statusAt_cut left m addr (by decide : kvPreWrite < kvStatusNum)).2
    rw [statusAt_erased herased, Nat.zero_max] at hhigh
    exact ⟨h.same.statusCut left hsize, .inl hhigh⟩
  apply (hP.safe_fdbWriteStatus m addr kvStatusNum kvPreWrite).mono
  · rintro _ ⟨left, rfl⟩
    exact hcut left
  · rintro err m' ⟨hdone, left, rfl⟩
    refine ⟨fun hok => ?_, hcut left⟩
    rw [hdone hok]
    constructor
    case same => exact h.same.statusCut 0#8 hsize
    case status =>
      show burn m addr [0x7F#8 ||| 0#8] addr = 0x7F#8
      simp [burn, herased]
    case stored => rfl
    case rest =>
      intro x hx hlt
      have hoff : 0 < kvMagicOffset := by decide
      rw [statusCut_outside 0#8 m hsize (by omega)]
      exact h.erased x (by omega) hlt

/-- The next part. -/
theorem Writing.safe_write (hP : InPlace P) (h : Writing secSize mem addr key value done m)
    (hend : kvMagicOffset + done.length + data.length ≤ kvLen key value) :
    P.Safe (Atomic secSize mem addr key value)
      (Reaches (Atomic secSize mem addr key value)
        (Writing secSize mem addr key value (done ++ data)))
      (fdbFlashWrite (addr + kvMagicOffset + done.length) data) m := by
  have hoff : 0 < kvMagicOffset := by decide
  have hpart : ∀ left, Atomic secSize mem addr key value
      (burn m (addr + kvMagicOffset + done.length) (partly data left)) := by
    intro left
    have hle := length_partly data left
    refine ⟨h.same.burn (by omega) (by omega), .inl (statusAt_preWrite ?_)⟩
    rw [burn_outside m (by omega)]
    exact h.status
  apply (hP.safe_write m _ data).mono
  · rintro _ ⟨left, rfl⟩
    exact hpart left
  · rintro err m' ⟨hdone, left, rfl⟩
    refine ⟨fun hok => ?_, hpart left⟩
    rw [hdone hok]
    constructor
    case same => exact h.same.burn (by omega) (by omega)
    case status =>
      rw [burn_outside m (by omega)]
      exact h.status
    case stored =>
      rw [stored_append]
      constructor
      · exact h.stored.congr fun x _ hx => burn_outside m (by omega)
      · exact stored_burn fun x hx hlt => h.rest x hx (by omega)
    case rest =>
      intro x hx hlt
      rw [List.length_append] at hx
      rw [burn_outside m (by omega)]
      exact h.rest x (by omega) hlt

theorem Writing.safe_alignWrite (hP : InPlace P) (h : Writing secSize mem addr key value done m)
    (hend : kvMagicOffset + done.length + data.length ≤ kvLen key value) :
    P.Safe (Atomic secSize mem addr key value)
      (Reaches (Atomic secSize mem addr key value)
        (Writing secSize mem addr key value (done ++ data)))
      (alignWrite (addr + kvMagicOffset + done.length) data) m := by
  unfold alignWrite
  split
  case isTrue => exact h.safe_write hP hend
  case isFalse hempty =>
    obtain rfl : data = [] := List.length_eq_zero_iff.mp (by omega)
    rw [List.append_nil]
    exact ⟨h.atomic, fun _ => h, h.atomic⟩

theorem Fresh.safe_writeKvHdr (hP : InPlace P) (h : Fresh secSize mem addr key value m) :
    P.Safe (Atomic secSize mem addr key value)
      (Reaches (Atomic secSize mem addr key value)
        (Writing secSize mem addr key value (kvHdrBytes key value)))
      (writeKvHdr addr key value) m := by
  have hend : kvMagicOffset + ([] : List Byte).length + (kvHdrBytes key value).length ≤
      kvLen key value := by
    simpa [kvMagicOffset, kvHdrDataSize] using le_kvLen key value
  apply (h.safe_preWrite hP).bind fun _ hm => hm
  intro result m' hm
  apply safe_ifOk hm
  intro hw
  have hwrite := hw.safe_write hP hend
  rwa [List.nil_append, List.length_nil, Nat.add_zero] at hwrite

theorem Writing.safe_alignName (hP : InPlace P)
    (h : Writing secSize mem addr key value (kvHdrBytes key value) m) :
    P.Safe (Atomic secSize mem addr key value)
      (Reaches (Atomic secSize mem addr key value)
        (Writing secSize mem addr key value (kvHdrBytes key value ++ key)))
      (alignWrite (addr + kvHdrDataSize) key) m := by
  have hend : kvMagicOffset + (kvHdrBytes key value).length + key.length ≤ kvLen key value := by
    simp [kvMagicOffset, kvLen, kvHdrDataSize]
  have hwrite := h.safe_alignWrite hP hend
  rwa [length_kvHdrBytes, Nat.add_assoc addr] at hwrite

theorem Writing.safe_alignValue (hP : InPlace P)
    (h : Writing secSize mem addr key value (kvHdrBytes key value ++ key) m) :
    P.Safe (Atomic secSize mem addr key value)
      (Reaches (Atomic secSize mem addr key value)
        (Writing secSize mem addr key value (kvHdrBytes key value ++ key ++ value)))
      (alignWrite (addr + kvHdrDataSize + key.length) value) m := by
  have hend : kvMagicOffset + (kvHdrBytes key value ++ key).length + value.length ≤
      kvLen key value := by
    rw [List.length_append, length_kvHdrBytes, kvLen, kvHdrDataSize, kvMagicOffset]
    omega
  have hstart : addr + kvMagicOffset + (kvHdrBytes key value ++ key).length =
      addr + kvHdrDataSize + key.length := by
    rw [List.length_append, length_kvHdrBytes, kvHdrDataSize, kvMagicOffset]
    omega
  have hwrite := h.safe_alignWrite hP hend
  rwa [hstart] at hwrite

/-- The last status.  It differs from the first in one bit. -/
theorem Writing.safe_write_status (hP : InPlace P)
    (h : Writing secSize mem addr key value (kvHdrBytes key value ++ key ++ value) m)
    (hname : key.length ≤ kvNameMax) :
    P.Safe (Atomic secSize mem addr key value)
      (Reaches (Atomic secSize mem addr key value) (Written · addr key value))
      (fdbWriteStatus addr kvStatusNum kvWrite) m := by
  have hsize : kvWrite ≤ 8 := by decide
  have hnode : ∀ left, NodeAt (statusCut left m addr kvStatusNum kvWrite) addr key value := by
    intro left
    have hstored := h.stored
    rw [List.append_assoc] at hstored
    apply NodeAt.congr hstored
    intro x hx _
    exact statusCut_outside left m hsize (by omega)
  have hhigh : ∀ left, statusAt (statusCut left m addr kvStatusNum kvWrite) addr kvStatusNum ≤
      kvWrite := by
    intro left
    have hcut := (statusAt_cut left m addr (by decide : kvWrite < kvStatusNum)).2
    have hpre : statusAt m addr kvStatusNum ≤ kvWrite :=
      Nat.le_trans (statusAt_preWrite h.status) (by decide)
    rwa [Nat.max_eq_right hpre] at hcut
  have hcut : ∀ left, Atomic secSize mem addr key value
      (statusCut left m addr kvStatusNum kvWrite) := by
    intro left
    refine ⟨h.same.statusCut left hsize, ?_⟩
    rcases Nat.lt_or_eq_of_le (hhigh left) with hlt | heq
    · exact .inl (Nat.le_of_lt_succ hlt)
    · exact .inr ⟨hnode left, heq, hname⟩
  apply (hP.safe_fdbWriteStatus m addr kvStatusNum kvWrite).mono
  · rintro _ ⟨left, rfl⟩
    exact hcut left
  · rintro err m' ⟨hdone, left, rfl⟩
    refine ⟨fun hok => ?_, hcut left⟩
    rw [hdone hok]
    have hlow := le_statusAt m addr (by decide : kvWrite < kvStatusNum) (by decide)
    exact ⟨hnode 0#8, Nat.le_antisymm (hhigh 0#8) hlow, hname⟩

end Create

section Atomicity

variable {P : Device flash Mem} {secSize : Nat} {mem : Mem} {sector : KvSecStatus}
  {key value : List Byte}

/-- `update_sec_status` writes to the header of the sector. -/
theorem InPlace.safe_updateSecStatus (hP : InPlace P) (mem : Mem)
    (haddr : sector.addr % secSize = 0) (newKvLen : BitVec 32) :
    P.Safe (SameNodes secSize mem) (fun _ => SameNodes secSize mem)
      (updateSecStatus sector newKvLen) mem := by
  have hhdr : sector.addr % secSize < sectorHdrDataSize := by
    rw [haddr]
    decide
  have hstatus : ∀ status ≤ 8, P.Safe (SameNodes secSize mem) (fun _ => SameNodes secSize mem)
      (fdbWriteStatus sector.addr sectorStoreStatusNum status) mem := by
    intro status hs
    apply (hP.safe_fdbWriteStatus mem sector.addr sectorStoreStatusNum status).mono
    · rintro _ ⟨left, rfl⟩
      exact sameNodes_statusCut left mem hs hhdr
    · rintro _ _ ⟨-, left, rfl⟩
      exact sameNodes_statusCut left mem hs hhdr
  have hrefl : SameNodes secSize mem mem := Same.refl mem
  unfold updateSecStatus
  split
  · exact (hstatus sectorStoreUsing (by decide)).bind (fun _ h => h) fun _ _ h => ⟨h, h⟩
  split
  · split
    · exact (hstatus sectorStoreFull (by decide)).bind (fun _ h => h) fun _ _ h => ⟨h, h⟩
    · exact ⟨hrefl, hrefl⟩
  · exact ⟨hrefl, hrefl⟩

/-- **`create_kv_blob`** leaves nothing that the status shows, or the whole
node, and the node if it succeeds. -/
theorem InPlace.safe_createKvBlob (hP : InPlace P) (haddr : sector.addr % secSize = 0)
    (hin : InSector secSize sector.emptyKv (kvLen key value))
    (herased : Erased mem sector.emptyKv (kvLen key value)) :
    P.Safe (Atomic secSize mem sector.emptyKv key value)
      (fun r => Reaches (Atomic secSize mem sector.emptyKv key value)
        (Written · sector.emptyKv key value) r.1)
      (createKvBlob secSize sector key value) mem := by
  have hfresh : ∀ m, SameNodes secSize mem m → Fresh secSize mem sector.emptyKv key value m :=
    fun m h => ⟨h.same, fun x hx hend => (h.at hin hx hend).trans (herased x hx hend)⟩
  have hatomic := (hfresh mem (Same.refl mem)).atomic
  unfold createKvBlob
  simp only
  split
  case isTrue => exact ⟨hatomic, reaches_of_ne (by decide) hatomic⟩
  split
  case isTrue => exact ⟨hatomic, reaches_of_ne (by decide) hatomic⟩
  next hname _ =>
  apply (hP.safe_updateSecStatus mem haddr _).bind fun m hm => (hfresh m hm).atomic
  rintro ⟨result, isFull⟩ m hm
  have hm₀ : Reaches (Atomic secSize mem sector.emptyKv key value)
      (Fresh secSize mem sector.emptyKv key value) result m :=
    ⟨fun _ => hfresh m hm, (hfresh m hm).atomic⟩
  apply (safe_ifOk hm₀ fun h => h.safe_writeKvHdr hP).bind fun _ h => h
  intro result m hm
  apply (safe_ifOk hm fun h => h.safe_alignName hP).bind fun _ h => h
  intro result m hm
  apply (safe_ifOk hm fun h => h.safe_alignValue hP).bind fun _ h => h
  intro result m hm
  apply (safe_ifOk hm fun h => h.safe_write_status hP (Nat.le_of_not_lt hname)).bind fun _ h => h
  intro result m hm
  exact ⟨hm.2, hm⟩

theorem status_readKv (perform : Mem → (o : flash.Op) → Mem × flash.Res o) (mem : Mem)
    (maxSize : Nat) (kv : Kv) :
    (readKv perform mem maxSize kv).2.1.status = kvErrHdr ∨
      (readKv perform mem maxSize kv).2.1.status = statusAt mem kv.start kvStatusNum := by
  simp only [readKv, status_slice]
  split
  · split <;> exact Or.inl rfl
  · split <;> exact Or.inr rfl

variable {perform : Mem → (o : flash.Op) → Mem × flash.Res o} {maxSize : Nat} {kv : Kv}

/-- A node that is found is in status `FDB_KV_WRITE`. -/
theorem status_of_found {k : List Byte}
    (h : findKvCb (readKv perform mem maxSize kv).2.1 k = true) :
    statusAt mem kv.start kvStatusNum = kvWrite := by
  simp only [findKvCb, decide_eq_true_eq] at h
  obtain ⟨-, -, hstatus, -⟩ := h
  rcases status_readKv perform mem maxSize kv with herr | hread
  · rw [herr] at hstatus
    exact absurd hstatus (by decide)
  · rw [← hread, hstatus]

/-- A node that is hidden is not found. -/
theorem not_found_of_hidden (h : statusAt mem kv.start kvStatusNum ≤ kvPreWrite) (k : List Byte) :
    findKvCb (readKv perform mem maxSize kv).2.1 k = false := by
  apply Bool.eq_false_iff.mpr
  intro hfound
  rw [status_of_found hfound] at h
  exact absurd h (by decide)

/-- A node that is written is read again. -/
theorem Written.readKv (h : Written mem kv.start key value) (hlen : kvLen key value ≤ maxSize)
    (hmax : maxSize < 0xFFFFFFFF) :
    readKv perform mem maxSize kv = (mem, kv.found kvWrite key value, .noErr) := by
  have hkey : key.length < 256 := Nat.lt_of_le_of_lt h.name (by decide)
  rw [readKv_nodeAt h.node hkey hlen hmax, h.status]

/-- **A node becomes visible all at once.**  On a flash that is programmed in
place, wherever `create_kv_blob` fails or the power does while it writes a node
to erased flash, the node is found by its name exactly if all of it is there;
then it has its value, and it is there if `create_kv_blob` succeeds. -/
theorem createKvBlob_atomic {key k : CStr} (hP : InPlace P) (hstart : kv.start = sector.emptyKv)
    (haddr : sector.addr % secSize = 0) (hin : InSector secSize kv.start (kvLen key.chars value))
    (herased : Erased mem kv.start (kvLen key.chars value)) (hsec : secSize ≤ maxSize)
    (hmax : maxSize < 0xFFFFFFFF) :
    (∀ mem', P.Crash (createKvBlob secSize sector key.chars value) mem mem' →
      (findKvCb (readKv perform mem' maxSize kv).2.1 k.chars = true ↔
        Written mem' kv.start key.chars value ∧ k = key ∧ key.chars.length < kvNameMax) ∧
      (findKvCb (readKv perform mem' maxSize kv).2.1 k.chars = true →
        slice mem' (readKv perform mem' maxSize kv).2.1.value
          (readKv perform mem' maxSize kv).2.1.valueLen = value)) ∧
    ∀ mem' gcRequest,
      P.Ends (createKvBlob secSize sector key.chars value) mem mem' (.noErr, gcRequest) →
        Written mem' kv.start key.chars value := by
  have hlen : kvLen key.chars value ≤ maxSize := by
    obtain ⟨-, hfits⟩ := hin
    omega
  rw [hstart] at hin herased
  have hsafe := hP.safe_createKvBlob haddr hin herased
  rw [← hstart] at hsafe
  refine ⟨fun mem' hcrash => ?_, fun mem' gcRequest hends => (hsafe.of_ends hends).1 rfl⟩
  have hatomic := hsafe.of_crash hcrash
  have hread : Written mem' kv.start key.chars value →
      readKv perform mem' maxSize kv = (mem', kv.found kvWrite key.chars value, .noErr) :=
    fun hw => hw.readKv hlen hmax
  have hfound : Written mem' kv.start key.chars value →
      (findKvCb (readKv perform mem' maxSize kv).2.1 k.chars = true ↔
        k = key ∧ key.chars.length < kvNameMax) := by
    intro hw
    rw [hread hw, findKvCb_found]
    simp
  have hwritten : findKvCb (readKv perform mem' maxSize kv).2.1 k.chars = true →
      Written mem' kv.start key.chars value := by
    intro h
    refine hatomic.hidden_or_written.resolve_left fun hhidden => ?_
    rw [not_found_of_hidden hhidden] at h
    cases h
  constructor
  · exact ⟨fun h => ⟨hwritten h, (hfound (hwritten h)).mp h⟩, fun h => (hfound h.1).mpr h.2⟩
  · intro h
    rw [hread (hwritten h)]
    exact (hwritten h).node.fields.data

/-- A sector that is in use, with room behind its header. -/
def sampleSector : KvSecStatus := ⟨⟨0x1000, 0x1010⟩, sectorStoreUsing, 0xFF0#32⟩

/-- The flash is erased, and no write fails. -/
theorem createKvBlob_atomic_ends :
    ∃ mem', nor.Ends (createKvBlob 0x1000 sampleSector [0x61#8] [0x31#8]) (fun _ => 0xFF#8) mem'
        (.noErr, false) ∧
      findKvCb (readKv norPerform mem' 0x8000 (Kv.unread 0x1010)).2.1 [0x61#8] = true := by
  have hends := nor_ends (createKvBlob 0x1000 sampleSector [0x61#8] [0x31#8]) (fun _ => 0xFF#8)
  have hresult : ((createKvBlob 0x1000 sampleSector [0x61#8] [0x31#8]).eval norPerform
      (fun _ => 0xFF#8)).2 = (.noErr, false) := rfl
  rw [hresult] at hends
  obtain ⟨hcrash, hwritten⟩ := @createKvBlob_atomic nor 0x1000 (fun _ => 0xFF#8) sampleSector
    [0x31#8] norPerform 0x8000 (Kv.unread 0x1010) ⟨[0x61#8], by decide⟩ ⟨[0x61#8], by decide⟩
    nor_inPlace rfl rfl (by decide) (fun _ _ _ => rfl) (by decide) (by decide)
  exact ⟨_, hends, (hcrash _ hends.crash).1.mpr ⟨hwritten _ _ hends, rfl, by decide⟩⟩

end Atomicity

end DsEthComm.Flashdb
