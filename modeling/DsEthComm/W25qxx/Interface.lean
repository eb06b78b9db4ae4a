import Mathlib.Algebra.Group.Nat.Defs
import DsEthComm.Buffer
import DsEthComm.W25qxx.Driver

/-!
# DsEthComm.W25qxx.Interface

`w25qxx_interface_spi_qspi_write_read` with its buffers, its pointers and its
lengths of 32 bits.  `Driver` has it as one exchange, which is what it is as
long as the sum of the lengths does not wrap around.

The function refuses a transfer whose total length is over 64.  It computes
that total in 32 bits and then copies with the two lengths apart, and it
does not look at what `spiExchange` returns.
-/

namespace DsEthComm.W25qxx.Interface

open Conc

/-! ## The function -/

/-- What `spiExchange` does: whether it reports success, and the byte that it
receives in each place. -/
structure Exchange where
  ok : Bool
  rx : Nat → Byte

/-- The accesses of a call to memory outside its frame and to the bus. -/
inductive Access where
  /-- `memcpy(spi_tx_buffer, in_buf, len)`. -/
  | copyIn (len : Nat)
  | select
  /-- `spiExchange` with the bytes that go out. -/
  | exchange (tx : List Byte)
  /-- `memcpy(out_buf, spi_rx_buffer + start, len)`. -/
  | copyOut (start len : Nat)
  | unselect
deriving DecidableEq, Repr

structure Result where
  status : Byte
  accesses : List Access
  /-- What `out_buf` points to afterwards. -/
  outBuf : Option (Nat → Byte)

/-- The checks at the start.  `total_len` has 32 bits. -/
def rejected (inBuf : Option (Nat → Byte)) (inLen : BitVec 32) (outBuf : Option (Nat → Byte))
    (outLen : BitVec 32) : Bool :=
  inBuf.isNone && 0 < inLen || outBuf.isNone && 0 < outLen ||
    spiBufferSize < (inLen + outLen).toNat

/-- `spi_tx_buffer`: zeros, and the input if there is any. -/
def fillTx (inBuf : Option (Nat → Byte)) (inLen : BitVec 32) :
    Except Fault (Buffer Byte spiBufferSize × List Access) :=
  match inBuf with
  | some src =>
      if 0 < inLen then do
        let buffer ← (Buffer.filled 0x00#8).copyIn src inLen.toNat
        return (buffer, [.copyIn inLen.toNat])
      else return (.filled 0x00#8, [])
  | none => return (.filled 0x00#8, [])

/-- The copy of the received bytes to `out_buf`, if there is one. -/
def fetchRx (spiRxBuffer : Buffer Byte spiBufferSize) (inLen : BitVec 32)
    (outBuf : Option (Nat → Byte)) (outLen : BitVec 32) :
    Except Fault (Option (Nat → Byte) × List Access) :=
  match outBuf with
  | some dst =>
      if 0 < outLen then do
        let bytes ← spiRxBuffer.copyOut inLen.toNat outLen.toNat
        return (some fun j => bytes.getD j (dst j), [.copyOut inLen.toNat outLen.toNat])
      else return (some dst, [])
  | none => return (none, [])

/-- `w25qxx_interface_spi_qspi_write_read`; a pointer is `NULL` or what it
points to. -/
def spiQspiWriteRead (inBuf : Option (Nat → Byte)) (inLen : BitVec 32)
    (outBuf : Option (Nat → Byte)) (outLen : BitVec 32) (x : Exchange) : Except Fault Result := do
  let totalLen := inLen + outLen
  if rejected inBuf inLen outBuf outLen then return ⟨1, [], outBuf⟩
  else
    let (spiTxBuffer, copied) ← fillTx inBuf inLen
    let tx ← spiTxBuffer.copyOut 0 totalLen.toNat
    let spiRxBuffer ← Buffer.uninitialised.copyIn x.rx totalLen.toNat
    let (outBuf, received) ← fetchRx spiRxBuffer inLen outBuf outLen
    return ⟨0, copied ++ [.select, .exchange tx] ++ received ++ [.unselect], outBuf⟩

/-! ## What it should do -/

/-- The bytes of a transfer: the input, then zeros. -/
def frame (inBuf : Option (Nat → Byte)) (inLen outLen : BitVec 32) : List Byte :=
  (List.range inLen.toNat).map (fun j => (inBuf.getD fun _ => 0) j) ++
    List.replicate outLen.toNat 0x00#8

/-- The accesses to the bus. -/
def Access.onBus : Access → Bool
  | .select | .exchange _ | .unselect => true
  | .copyIn _ | .copyOut _ _ => false

/-- One transfer of a length that fits, under one chip select, with the bytes
received last in the output buffer. -/
structure Transferred (inBuf : Option (Nat → Byte)) (inLen : BitVec 32)
    (outBuf : Option (Nat → Byte)) (outLen : BitVec 32) (x : Exchange) (res : Result) : Prop where
  fits : inLen.toNat + outLen.toNat ≤ 64
  bus : res.accesses.filter Access.onBus = [.select, .exchange (frame inBuf inLen outLen), .unselect]
  out : res.outBuf = outBuf.map fun dst j =>
    if j < outLen.toNat then x.rx (inLen.toNat + j) else dst j

/-- No access outside the buffers; the call returns 1 and does nothing, or
transfers; and 0 means that `spiExchange` reported success. -/
def Sound (inBuf : Option (Nat → Byte)) (inLen : BitVec 32) (outBuf : Option (Nat → Byte))
    (outLen : BitVec 32) (x : Exchange) : Prop :=
  ∃ res, spiQspiWriteRead inBuf inLen outBuf outLen x = .ok res ∧
    (res.status = 1 ∧ res.accesses = [] ∧ res.outBuf = outBuf ∨
      Transferred inBuf inLen outBuf outLen x res) ∧
    (res.status = 0 → x.ok = true)

/-! ## When it does -/

section Spec

variable {inBuf outBuf : Option (Nat → Byte)} {inLen outLen : BitVec 32} {x : Exchange}

theorem spiQspiWriteRead_of_rejected (h : rejected inBuf inLen outBuf outLen = true) :
    spiQspiWriteRead inBuf inLen outBuf outLen x = .ok ⟨1, [], outBuf⟩ := by
  simp only [spiQspiWriteRead, h, if_true]
  rfl

/-- The transmit buffer of an input that fits. -/
theorem fillTx_eq_ok (hin : inBuf = none → inLen = 0) (hlen : inLen.toNat ≤ 64) :
    ∃ buffer copied, fillTx inBuf inLen = .ok (buffer, copied) ∧
      copied.filter Access.onBus = [] ∧
      ∀ j, buffer.cell j =
        some (if j < inLen.toNat then (inBuf.getD fun _ => 0) j else 0x00#8) := by
  by_cases hpos : 0 < inLen
  · cases inBuf with
    | none =>
        rw [hin rfl] at hpos
        exact absurd hpos (by decide)
    | some src =>
        have hcopy : (Buffer.filled 0x00#8 : Buffer Byte spiBufferSize).copyIn src inLen.toNat =
            .ok ⟨fun j => if j < inLen.toNat then some (src j) else some 0x00#8⟩ := if_pos hlen
        refine ⟨⟨fun j => if j < inLen.toNat then some (src j) else some 0x00#8⟩,
          [.copyIn inLen.toNat], ?_, rfl, fun j => ?_⟩
        · simp only [fillTx, if_pos hpos, hcopy]
          rfl
        · show (if j < inLen.toNat then some (src j) else some 0x00#8) = _
          split <;> rfl
  · have hzero : inLen.toNat = 0 := by
      rw [BitVec.lt_def] at hpos
      exact Nat.eq_zero_of_not_pos hpos
    refine ⟨.filled 0x00#8, [], ?_, rfl, fun j => ?_⟩
    · cases inBuf with
      | none => rfl
      | some src => simp only [fillTx, if_neg hpos]; rfl
    · rw [hzero, if_neg (Nat.not_lt_zero j)]
      rfl

/-- A longer input is copied over the end of the buffer. -/
theorem fillTx_eq_error {src : Nat → Byte} (hlen : 64 < inLen.toNat) :
    fillTx (some src) inLen = .error .outside := by
  have hpos : 0 < inLen := by
    rw [BitVec.lt_def]
    exact Nat.lt_trans (by decide) hlen
  have hcopy : (Buffer.filled 0x00#8 : Buffer Byte spiBufferSize).copyIn src inLen.toNat =
      .error .outside := if_neg (Nat.not_le.mpr hlen)
  simp only [fillTx, if_pos hpos, hcopy]
  rfl

/-- The output of a transfer that fits. -/
theorem fetchRx_eq_ok {rx : Nat → Byte} (buffer : Buffer Byte spiBufferSize)
    (hlen : inLen.toNat + outLen.toNat ≤ 64)
    (hcell : ∀ j < inLen.toNat + outLen.toNat, buffer.cell j = some (rx j)) :
    ∃ received, fetchRx buffer inLen outBuf outLen =
        .ok (outBuf.map fun dst j => if j < outLen.toNat then rx (inLen.toNat + j) else dst j,
          received) ∧
      received.filter Access.onBus = [] := by
  cases outBuf with
  | none => exact ⟨[], rfl, rfl⟩
  | some dst =>
      by_cases hpos : 0 < outLen
      · have hcopy : buffer.copyOut inLen.toNat outLen.toNat =
            .ok ((List.range outLen.toNat).map fun j => rx (inLen.toNat + j)) :=
          buffer.copyOut_eq hlen fun j hj => hcell (inLen.toNat + j) (by omega)
        refine ⟨[.copyOut inLen.toNat outLen.toNat], ?_, rfl⟩
        have hout : (fun j => ((List.range outLen.toNat).map fun j => rx (inLen.toNat + j)).getD j
            (dst j)) = fun j => if j < outLen.toNat then rx (inLen.toNat + j) else dst j := by
          funext j
          by_cases hj : j < outLen.toNat <;> simp [List.getD_eq_getElem?_getD, hj]
        simp only [fetchRx, if_pos hpos, hcopy, Option.map_some]
        exact congrArg (fun f => Except.ok (some f, _)) hout
      · have hzero : outLen.toNat = 0 := by
          rw [BitVec.lt_def] at hpos
          exact Nat.eq_zero_of_not_pos hpos
        refine ⟨[], ?_, rfl⟩
        simp only [fetchRx, if_neg hpos, Option.map_some, hzero, Nat.not_lt_zero, if_false]
        rfl

/-- More is copied out of the receive buffer than it holds. -/
theorem fetchRx_eq_error {dst : Nat → Byte} (buffer : Buffer Byte spiBufferSize)
    (hpos : 0 < outLen.toNat) (hlen : 64 < inLen.toNat + outLen.toNat) :
    ∃ e, fetchRx buffer inLen (some dst) outLen = .error e := by
  obtain ⟨e, he⟩ := buffer.copyOut_outside hpos hlen
  have hpos' : 0 < outLen := hpos
  refine ⟨e, ?_⟩
  simp only [fetchRx, if_pos hpos', he]
  rfl

theorem toNat_total (hlen : inLen.toNat + outLen.toNat ≤ 64) :
    (inLen + outLen).toNat = inLen.toNat + outLen.toNat := by
  rw [BitVec.toNat_add, Nat.mod_eq_of_lt]
  omega

/-- The transmit buffer holds the frame. -/
theorem copyOut_frame {buffer : Buffer Byte spiBufferSize}
    (hlen : inLen.toNat + outLen.toNat ≤ 64)
    (hcell : ∀ j, buffer.cell j =
      some (if j < inLen.toNat then (inBuf.getD fun _ => 0) j else 0x00#8)) :
    buffer.copyOut 0 (inLen.toNat + outLen.toNat) = .ok (frame inBuf inLen outLen) := by
  rw [buffer.copyOut_eq (by rw [Nat.zero_add]; exact hlen) fun j _ => hcell (0 + j)]
  congr 1
  apply List.ext_getElem
  · simp [frame]
  · intro j hj hj'
    by_cases hin : j < inLen.toNat <;> simp [frame, List.getElem_append, hin]

theorem rejected_eq_false_iff :
    rejected inBuf inLen outBuf outLen = false ↔
      (inBuf = none → inLen = 0) ∧ (outBuf = none → outLen = 0) ∧ (inLen + outLen).toNat ≤ 64 := by
  have htotal : ∀ total : Nat, decide (spiBufferSize < total) = false ↔ total ≤ 64 :=
    fun total => decide_eq_false_iff_not.trans Nat.not_lt
  cases inBuf <;> cases outBuf <;> simp [rejected, htotal, and_assoc, -BitVec.toNat_add]

/-- What is not rejected and fits is transferred, and the status is 0. -/
theorem spiQspiWriteRead_of_fits (h : rejected inBuf inLen outBuf outLen = false)
    (hlen : inLen.toNat + outLen.toNat ≤ 64) :
    ∃ res, spiQspiWriteRead inBuf inLen outBuf outLen x = .ok res ∧ res.status = 0 ∧
      Transferred inBuf inLen outBuf outLen x res := by
  obtain ⟨hin, -, -⟩ := rejected_eq_false_iff.mp h
  obtain ⟨tx, copied, hfill, hcopied, hcell⟩ := fillTx_eq_ok hin (by omega : inLen.toNat ≤ 64)
  have hframe := copyOut_frame hlen hcell
  have hrx : (Buffer.uninitialised : Buffer Byte spiBufferSize).copyIn x.rx
      (inLen.toNat + outLen.toNat) =
        .ok ⟨fun j => if j < inLen.toNat + outLen.toNat then some (x.rx j) else none⟩ := if_pos hlen
  obtain ⟨received, hfetch, hreceived⟩ := @fetchRx_eq_ok outBuf inLen outLen x.rx
    ⟨fun j => if j < inLen.toNat + outLen.toNat then some (x.rx j) else none⟩ hlen
    fun j hj => if_pos hj
  have hrun : spiQspiWriteRead inBuf inLen outBuf outLen x =
      .ok ⟨0, copied ++ [.select, .exchange (frame inBuf inLen outLen)] ++ received ++ [.unselect],
        outBuf.map fun dst j => if j < outLen.toNat then x.rx (inLen.toNat + j) else dst j⟩ := by
    simp only [spiQspiWriteRead, h, Bool.false_eq_true, if_false, toNat_total hlen, hfill, hframe,
      hrx, hfetch, Except.bind, bind, pure, Except.pure]
  refine ⟨_, hrun, rfl, hlen, ?_, rfl⟩
  simp only [List.filter_append, hcopied, hreceived]
  rfl

/-- What is not rejected and does not fit leaves the buffers. -/
theorem spiQspiWriteRead_of_wrap (h : rejected inBuf inLen outBuf outLen = false)
    (hlen : 64 < inLen.toNat + outLen.toNat) :
    ∃ e, spiQspiWriteRead inBuf inLen outBuf outLen x = .error e := by
  obtain ⟨hin, hout, htotal⟩ := rejected_eq_false_iff.mp h
  by_cases hlarge : 64 < inLen.toNat
  · cases inBuf with
    | none =>
        rw [hin rfl] at hlarge
        contradiction
    | some src =>
        refine ⟨.outside, ?_⟩
        simp only [spiQspiWriteRead, h, Bool.false_eq_true, if_false, fillTx_eq_error hlarge]
        rfl
  · -- the input fits, so the output has almost 2 ^ 32 bytes
    have hpos : 0 < outLen.toNat := by omega
    cases outBuf with
    | none =>
        rw [hout rfl] at hpos
        contradiction
    | some dst =>
        obtain ⟨tx, copied, hfill, -, hcell⟩ := fillTx_eq_ok hin (Nat.not_lt.mp hlarge)
        have hbound : 0 + (inLen + outLen).toNat ≤ spiBufferSize := by
          rw [Nat.zero_add]
          exact htotal
        have htx := tx.copyOut_eq hbound fun j _ => hcell (0 + j)
        have hrx : (Buffer.uninitialised : Buffer Byte spiBufferSize).copyIn x.rx
            (inLen + outLen).toNat = .ok ⟨_⟩ := if_pos htotal
        obtain ⟨e, hfetch⟩ := @fetchRx_eq_error inLen outLen dst
          ⟨fun j => if j < (inLen + outLen).toNat then some (x.rx j) else none⟩ hpos hlen
        refine ⟨e, ?_⟩
        simp only [spiQspiWriteRead, h, Bool.false_eq_true, if_false, hfill, htx, hrx, bind,
          Except.bind]
        simp only [Buffer.uninitialised, hfetch]

/-- **Bounds and status**: the call is sound exactly if it is rejected, or the
lengths fit as they are and `spiExchange` succeeds. -/
theorem sound_iff :
    Sound inBuf inLen outBuf outLen x ↔
      rejected inBuf inLen outBuf outLen = true ∨
        inLen.toNat + outLen.toNat ≤ 64 ∧ x.ok = true := by
  cases h : rejected inBuf inLen outBuf outLen with
  | true =>
      refine iff_of_true ?_ (.inl rfl)
      exact ⟨_, spiQspiWriteRead_of_rejected h, .inl ⟨rfl, rfl, rfl⟩, by simp⟩
  | false =>
      simp only [Bool.false_eq_true, false_or]
      by_cases hlen : inLen.toNat + outLen.toNat ≤ 64
      · obtain ⟨res, hrun, hstatus, htransferred⟩ := spiQspiWriteRead_of_fits (x := x) h hlen
        constructor
        · rintro ⟨res', hrun', -, hok⟩
          obtain rfl := Except.ok.inj (hrun.symm.trans hrun')
          exact ⟨hlen, hok hstatus⟩
        · rintro ⟨-, hok⟩
          exact ⟨res, hrun, .inr htransferred, fun _ => hok⟩
      · obtain ⟨e, herror⟩ := spiQspiWriteRead_of_wrap (x := x) h (Nat.not_le.mp hlen)
        refine iff_of_false ?_ (fun hok => hlen hok.1)
        rintro ⟨res, hrun, -⟩
        rw [herror] at hrun
        contradiction

end Spec

/-! ## Failing calls -/

/-- Some memory. -/
def zeros : Nat → Byte := fun _ => 0x00#8

/-- The total of `0xFFFFFFFF` and 1 is 0, and four gigabytes are copied into
the buffer; and a failed exchange of one byte returns 0. -/
theorem not_sound :
    ¬Sound (some zeros) 0xFFFFFFFF#32 (some zeros) 1#32 ⟨true, zeros⟩ ∧
      ¬Sound (some zeros) 1#32 none 0#32 ⟨false, zeros⟩ := by
  constructor
  · rintro ⟨res, hrun, -⟩
    obtain ⟨e, herror⟩ : ∃ e, spiQspiWriteRead (some zeros) 0xFFFFFFFF#32 (some zeros) 1#32
        ⟨true, zeros⟩ = .error e :=
      spiQspiWriteRead_of_wrap rfl (by decide)
    rw [herror] at hrun
    contradiction
  · rintro ⟨res, hrun, -, hok⟩
    obtain ⟨res', hrun', hstatus, -⟩ : ∃ res, spiQspiWriteRead (some zeros) 1#32 none 0#32
        ⟨false, zeros⟩ = .ok res ∧ res.status = 0 ∧
          Transferred (some zeros) 1#32 none 0#32 ⟨false, zeros⟩ res :=
      spiQspiWriteRead_of_fits rfl (by decide)
    obtain rfl := Except.ok.inj (hrun'.symm.trans hrun)
    exact absurd (hok hstatus) (by decide)

/-! ## The function as one exchange -/

section Refines

variable (env : Schedule) (s : Bus) (inBuf : List Byte) (outLen : Nat)

/-- The bytes on the line during the next exchange. -/
def line : Exchange where
  ok := (env s.count).ok
  rx :=
    if (env s.count).ok then
      s.chip.answer (env s.count).noise (inBuf ++ List.replicate outLen 0x00#8)
    else (env s.count).noise

theorem exchange_eq_slice :
    (s.exchange env inBuf outLen).2 = slice (line env s inBuf outLen).rx inBuf.length outLen := by
  by_cases hok : (env s.count).ok = true <;> simp [Bus.exchange, line, hok]

/-- As long as the lengths do not wrap around, the function with its buffers
returns what the function of the driver model returns. -/
theorem spiQspiWriteRead_refines (h : inBuf.length + outLen < 2 ^ 32) (dst : Nat → Byte) :
    ∃ res, spiQspiWriteRead (some (inBuf.getD · 0)) (BitVec.ofNat 32 inBuf.length) (some dst)
        (BitVec.ofNat 32 outLen) (line env s inBuf outLen) = .ok res ∧
      (evalAt env (interfaceWriteRead inBuf outLen) s).2 =
        if res.status = 0 then res.outBuf.map (slice · 0 outLen) else none := by
  have hin : (BitVec.ofNat 32 inBuf.length).toNat = inBuf.length := by
    rw [BitVec.toNat_ofNat, Nat.mod_eq_of_lt (by omega)]
  have hout : (BitVec.ofNat 32 outLen).toNat = outLen := by
    rw [BitVec.toNat_ofNat, Nat.mod_eq_of_lt (by omega)]
  have htotal : (BitVec.ofNat 32 inBuf.length + BitVec.ofNat 32 outLen).toNat =
      inBuf.length + outLen := by
    rw [BitVec.toNat_add, hin, hout, Nat.mod_eq_of_lt h]
  rw [evalAt_interfaceWriteRead]
  by_cases hlen : spiBufferSize < inBuf.length + outLen
  · have hrejected : rejected (some (inBuf.getD · 0)) (BitVec.ofNat 32 inBuf.length) (some dst)
        (BitVec.ofNat 32 outLen) = true := by
      simp only [rejected, htotal, decide_eq_true hlen, Bool.or_true]
    refine ⟨_, spiQspiWriteRead_of_rejected hrejected, ?_⟩
    rw [if_pos hlen]
    rfl
  · have hrejected : rejected (some (inBuf.getD · 0)) (BitVec.ofNat 32 inBuf.length) (some dst)
        (BitVec.ofNat 32 outLen) = false := by
      simp [rejected, htotal, decide_eq_false hlen, -BitVec.toNat_add]
    obtain ⟨res, hrun, hstatus, htransferred⟩ := spiQspiWriteRead_of_fits
      (x := line env s inBuf outLen) hrejected (by rw [hin, hout]; exact Nat.not_lt.mp hlen)
    refine ⟨res, hrun, ?_⟩
    rw [if_neg hlen, if_pos hstatus, exchange_eq_slice, htransferred.out, hin, hout]
    refine congrArg some (slice_congr fun j hj => ?_)
    simp [hj]

end Refines

end DsEthComm.W25qxx.Interface
