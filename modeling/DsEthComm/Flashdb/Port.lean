import DsEthComm.W25qxx.Driver

/-!
# DsEthComm.Flashdb.Port

The flash port of FlashDB, `w25q_read`, `w25q_write` and `w25q_erase`, over
the driver of the W25Q64.

The port returns 0 whatever the driver says, so it tells the truth exactly
when the flash happens to be right.  A write never changes the flash: the
driver reads the whole sector first, and the interface refuses more than 64
bytes.  A read gets through up to 59 bytes.  A sector is erased when its
erase command reaches a chip that is not busy and has the write-enable latch
set.
-/

namespace DsEthComm.Flashdb

open Conc W25qxx

/-! ## The port -/

/-- The handle as `w25q_init` leaves it. -/
def portHandle : Handle where
  inited := 1
  spiQspi := .spi
  dualQuadSpiEnable := 0
  addressMode := .byte3
  type := .w25q64

/-- `w25q_read`: the result and the buffer afterwards. -/
def w25qRead (addr : Nat) (buf : List Byte) (size : Nat) : Driver (Int × List Byte) := do
  debugPrint s!"w25q_read: addr: {addr}, size: {size}\n"
  let (_, buf) ← W25qxx.read portHandle addr buf size
  return (0, buf)

/-- `w25q_write`, with what `handle->buf_4k` holds. -/
def w25qWrite (addr : Nat) (buf : List Byte) (buf4k : List Byte) : Driver Int := do
  debugPrint s!"w25q_write: addr: {addr}, size: {buf.length}\n"
  let _ ← W25qxx.write portHandle addr buf buf4k
  return 0

/-- The loop of `w25q_erase` after `n` rounds. -/
def eraseSectors (addr : Nat) : Nat → Driver Unit
  | 0 => return ()
  | n + 1 => do
      eraseSectors addr n
      let _ ← sectorErase4k portHandle (addr + 4096 * n)
      return ()

/-- The rounds of `for (i = 0; i < size; i += 4*1024)`. -/
def rounds (size : Nat) : Nat := (size + 4095) / 4096

/-- `w25q_erase`. -/
def w25qErase (addr size : Nat) : Driver Int := do
  eraseSectors addr (rounds size)
  return 0

/-! ## What it should do -/

/-- If `w25q_write` succeeds, the flash holds the buffer. -/
def WriteTruthful (env : Schedule) (s : Bus) (addr : Nat) (buf buf4k : List Byte) : Prop :=
  let r := evalAt env (w25qWrite addr buf buf4k) s
  0 ≤ r.2 → slice r.1.chip.mem addr buf.length = buf

/-- If `w25q_read` succeeds, the buffer holds what the flash does. -/
def ReadTruthful (env : Schedule) (s : Bus) (addr : Nat) (buf : List Byte) : Prop :=
  let r := evalAt env (w25qRead addr buf buf.length) s
  0 ≤ r.2.1 → r.2.2 = slice r.1.chip.mem addr buf.length

/-- If `w25q_erase` succeeds, every sector that the range overlaps is
erased. -/
def EraseTruthful (env : Schedule) (s : Bus) (addr size : Nat) : Prop :=
  let r := evalAt env (w25qErase addr size) s
  0 ≤ r.2 → ∀ y, addr ≤ y → y < addr + size → Blank r.1.chip.mem (y / 4096)

/-! ## The driver with the handle of the port -/

section Spec

variable (env : Schedule) (s : Bus)

theorem evalAt_writeRead (header data : List Byte) (outLen : Nat) :
    evalAt env (writeRead portHandle header data outLen) s =
      if 64 < (header ++ data).length + outLen then (s, none)
      else ((s.exchange env (header ++ data) outLen).1,
        some (s.exchange env (header ++ data) outLen).2) := by
  have hsingle : portHandle.single = true := rfl
  rw [writeRead, if_pos hsingle]
  exact evalAt_interfaceWriteRead env s (header ++ data) outLen

/-- A transaction that the interface refuses. -/
theorem evalAt_attempt_refused {α : Type} {header data : List Byte} {outLen : Nat}
    (h : 64 < (header ++ data).length + outLen) (failed : String) (res : α)
    (k : List Byte → Driver α) :
    evalAt env (attempt (writeRead portHandle header data outLen) failed res k) s = (s, res) := by
  rw [evalAt_attempt, evalAt_writeRead, if_pos h]

/-- Any other transaction is one exchange, and the driver goes on even if
the exchange failed. -/
theorem evalAt_attempt_exchange {α : Type} {header data : List Byte} {outLen : Nat}
    (h : (header ++ data).length + outLen ≤ 64) (failed : String) (res : α)
    (k : List Byte → Driver α) :
    evalAt env (attempt (writeRead portHandle header data outLen) failed res k) s =
      evalAt env (k (s.exchange env (header ++ data) outLen).2)
        (s.exchange env (header ++ data) outLen).1 := by
  rw [evalAt_attempt, evalAt_writeRead, if_neg (Nat.not_lt.mpr h)]

/-- The exchange of a read. -/
def fastReadBytes (addr : Nat) : List Byte :=
  commandFastRead :: (addressBytes addr ++ [0x00#8])

@[simp] theorem length_fastReadBytes (addr : Nat) : (fastReadBytes addr).length = 5 := rfl

/-- A read of up to 59 bytes is one exchange; a longer one is refused and
leaves the buffer. -/
theorem evalAt_readWith (invalidMode : Byte) (addr : Nat) (data : List Byte) (len : Nat) :
    evalAt env (readWith invalidMode portHandle addr data len) s =
      if 59 < len then (s, (1, data))
      else ((s.exchange env (fastReadBytes addr) len).1,
        (0, (s.exchange env (fastReadBytes addr) len).2 ++ data.drop len)) := by
  have haddr : portHandle.addressBytes addr = some (addressBytes addr) := rfl
  have hextended : portHandle.extended = false := rfl
  have hsize : (fastReadBytes addr ++ []).length = 5 := by simp
  simp only [readWith, haddr, hextended, Bool.false_eq_true, if_false]
  by_cases hlen : 59 < len
  · rw [if_pos hlen]
    exact evalAt_attempt_refused env s (by rw [← fastReadBytes, hsize]; omega) ..
  · rw [if_neg hlen, evalAt_attempt_exchange env s (by rw [← fastReadBytes, hsize]; omega)]
    simp [fastReadBytes]

/-- The chip answers a read when it gets it and is not busy. -/
theorem exchange_fastRead {addr len : Nat} (hlen : 1 ≤ len) (hend : addr + len ≤ flashSize) :
    (s.exchange env (fastReadBytes addr) len).2 =
      if (env s.count).ok = true ∧ s.chip.busy = 0 then slice s.chip.mem addr len
      else slice (env s.count).noise 5 len := by
  have hbytes : fastReadBytes addr ++ List.replicate len 0x00#8 =
      commandFastRead :: (addressBytes addr ++ ([0x00#8] ++ List.replicate len 0x00#8)) := by
    simp [fastReadBytes]
  rw [Bus.exchange, length_fastReadBytes, hbytes]
  by_cases hok : (env s.count).ok = true <;> by_cases hbusy : s.chip.busy = 0
  · simp [hok, hbusy, Chip.slice_answer_fastRead hbusy _ _ hend hlen]
  · simp [hok, hbusy, Chip.slice_answer_of_busy hbusy]
  · simp [hok]
  · simp [hok]

theorem mem_exchange_fastRead (addr len : Nat) :
    (s.exchange env (fastReadBytes addr) len).1.chip.mem = s.chip.mem := by
  by_cases hok : (env s.count).ok <;> simp [Bus.exchange, hok, fastReadBytes, Chip.receive_fastRead]

/-- A write reads 4096 bytes first, which the interface refuses. -/
theorem evalAt_write (addr : Nat) (data buf4k : List Byte) :
    evalAt env (W25qxx.write portHandle addr data buf4k) s = (s, 4) := by
  have hinited : ¬portHandle.inited ≠ 1 := by decide
  have hread : ∀ pos, evalAt env (aRead portHandle pos buf4k 4096) s = (s, (1, buf4k)) := by
    simp [aRead, evalAt_readWith]
  rw [W25qxx.write, if_neg hinited, writeLoop]
  simp [hread]

/-! ## Erasing a sector -/

/-- The chip takes the erase command that is the second exchange from here,
the first one being the write enable. -/
def Accepts (env : Schedule) (s : Bus) : Prop :=
  s.chip.busy = 0 ∧ (s.chip.wel = true ∨ (env s.count).ok = true) ∧
    (env (s.count + 1)).ok = true

instance : Decidable (Accepts env s) := by
  unfold Accepts
  infer_instance

/-- Waiting leaves the array alone. -/
theorem mem_waitIdle (statusFailed timedOut : String) (timeoutRes : Byte) (n : Nat) :
    (evalAt env (waitIdle portHandle statusFailed timedOut timeoutRes (delayMs 1) n) s).1.chip.mem =
      s.chip.mem := by
  induction n generalizing s with
  | zero => rfl
  | succ n ih =>
      have hmem : (s.exchange env [commandReadStatusReg1] 1).1.chip.mem = s.chip.mem := by
        by_cases hok : (env s.count).ok <;> simp [Bus.exchange, hok, Chip.receive_readStatus]
      rw [waitIdle, evalAt_attempt_exchange env s (by simp), evalAt_ite]
      split
      · simpa using hmem
      · simp [ih, hmem]

/-- The write enable reaches the chip or does not. -/
theorem exchange_writeEnable :
    (s.exchange env [commandWriteEnable] 0).1 =
      ⟨{ s.chip with wel := s.chip.wel || (env s.count).ok && s.chip.busy = 0 }, s.count + 1⟩ := by
  by_cases hok : (env s.count).ok = true <;> simp [Bus.exchange, hok, Chip.receive_writeEnable]

/-- The erase command does something if it reaches a chip that is not busy
and has the latch set. -/
theorem mem_exchange_sectorErase4k {addr : Nat} (hend : addr < flashSize) :
    (s.exchange env (commandSectorErase4k :: addressBytes addr) 0).1.chip.mem =
      if (env s.count).ok = true ∧ s.chip.busy = 0 ∧ s.chip.wel = true then
        eraseSector s.chip.mem addr
      else s.chip.mem := by
  have hdecode := address_ofNat hend
  by_cases hok : (env s.count).ok = true
  · simp only [Bus.exchange, hok, if_true, addressBytes, List.replicate_zero, List.append_nil,
      Chip.receive_sectorErase4k, hdecode, true_and]
    split <;> rfl
  · simp [Bus.exchange, hok]

/-- One round: the sector is erased if the chip takes the command. -/
theorem mem_sectorErase4k {addr : Nat} (halign : addr % 4096 = 0) (hend : addr < flashSize) :
    (evalAt env (sectorErase4k portHandle addr) s).1.chip.mem =
      if Accepts env s then eraseSector s.chip.mem addr else s.chip.mem := by
  have hinited : ¬portHandle.inited ≠ 1 := by decide
  have haddr : portHandle.addressBytes addr = some (addressBytes addr) := rfl
  have hextended : portHandle.extended = false := rfl
  have hsize : (commandSectorErase4k :: addressBytes addr).length = 4 := rfl
  rw [sectorErase4k, if_neg hinited, if_neg (not_not_intro halign), eraseWith, arrayCommand,
    writeEnable, evalAt_attempt_exchange env s (by simp), haddr]
  simp only [hextended, Bool.false_eq_true, if_false]
  rw [evalAt_attempt_exchange env _ (by simp [hsize]), mem_waitIdle]
  simp only [List.append_nil, mem_exchange_sectorErase4k env _ hend, exchange_writeEnable]
  by_cases hbusy : s.chip.busy = 0 <;> simp [Accepts, hbusy, and_comm]

/-- The bus before the `n`-th round of `w25q_erase`. -/
def beforeRound (addr n : Nat) : Bus := (evalAt env (eraseSectors addr n) s).1

theorem beforeRound_succ (addr n : Nat) :
    beforeRound env s addr (n + 1) =
      (evalAt env (sectorErase4k portHandle (addr + 4096 * n)) (beforeRound env s addr n)).1 := by
  simp [beforeRound, eraseSectors]

/-- One round leaves the sectors of the others alone. -/
theorem blank_beforeRound_succ {addr n : Nat} (halign : addr % 4096 = 0)
    (hend : addr + 4096 * n < flashSize) (sector : Nat) :
    Blank (beforeRound env s addr (n + 1)).chip.mem sector ↔
      Blank (beforeRound env s addr n).chip.mem sector ∨
        sector = addr / 4096 + n ∧ Accepts env (beforeRound env s addr n) := by
  have hdiv : (addr + 4096 * n) / 4096 = addr / 4096 + n := by omega
  rw [beforeRound_succ, mem_sectorErase4k env _ (by omega) hend]
  split
  · next h => simp [blank_eraseSector, hdiv, h, or_comm]
  · next h => simp [h]

/-- A sector is blank before its round if it was at the beginning. -/
theorem blank_beforeRound {addr n : Nat} (halign : addr % 4096 = 0)
    (hend : addr + 4096 * n ≤ flashSize) {sector : Nat} (hsector : addr / 4096 + n ≤ sector) :
    Blank (beforeRound env s addr n).chip.mem sector ↔ Blank s.chip.mem sector := by
  induction n with
  | zero => rfl
  | succ n ih =>
      have hne : sector ≠ addr / 4096 + n := by omega
      have hih := ih (by omega) (by omega)
      rw [blank_beforeRound_succ env s halign (by omega), hih]
      simp [hne]

/-- The rounds together: each sector was blank before its round, or the chip
took its erase command. -/
theorem blank_eraseSectors {addr n : Nat} (halign : addr % 4096 = 0)
    (hend : addr + 4096 * n ≤ flashSize) :
    (∀ k < n, Blank (beforeRound env s addr n).chip.mem (addr / 4096 + k)) ↔
      ∀ k < n, Blank (beforeRound env s addr k).chip.mem (addr / 4096 + k) ∨
        Accepts env (beforeRound env s addr k) := by
  induction n with
  | zero => simp
  | succ n ih =>
      have hih := ih (by omega)
      -- the last round does not touch the sectors before its own
      have hother : (∀ k < n, Blank (beforeRound env s addr (n + 1)).chip.mem (addr / 4096 + k)) ↔
          ∀ k < n, Blank (beforeRound env s addr n).chip.mem (addr / 4096 + k) := by
        refine forall_congr' fun k => imp_congr_right fun hk => ?_
        rw [blank_beforeRound_succ env s halign (by omega)]
        have hne : k ≠ n := by omega
        simp [hne]
      have hown := blank_beforeRound_succ env s halign (n := n) (by omega) (addr / 4096 + n)
      simp only [true_and] at hown
      simp only [Nat.lt_succ_iff_lt_or_eq, or_imp, forall_and, forall_eq, hother, hih, hown]

end Spec

/-! ## When it does -/

theorem writeTruthful_iff (env : Schedule) (s : Bus) (addr : Nat) (buf buf4k : List Byte) :
    WriteTruthful env s addr buf buf4k ↔ slice s.chip.mem addr buf.length = buf := by
  have hrun : evalAt env (w25qWrite addr buf buf4k) s = (s, 0) := by
    simp [w25qWrite, evalAt_write]
  simp [WriteTruthful, hrun]

/-- The outcome of the exchange that makes a short read. -/
def ReadServed (env : Schedule) (s : Bus) (addr len : Nat) : Prop :=
  (env s.count).ok = true ∧ s.chip.busy = 0 ∨
    slice (env s.count).noise 5 len = slice s.chip.mem addr len

theorem readTruthful_iff (env : Schedule) (s : Bus) {addr : Nat} {buf : List Byte}
    (hsize : 1 ≤ buf.length) (hend : addr + buf.length ≤ flashSize) :
    ReadTruthful env s addr buf ↔
      buf.length ≤ 59 ∧ ReadServed env s addr buf.length ∨
        59 < buf.length ∧ buf = slice s.chip.mem addr buf.length := by
  have hinited : portHandle.inited = 1 := rfl
  by_cases hlen : 59 < buf.length
  · have hrun : evalAt env (w25qRead addr buf buf.length) s = (s, (0, buf)) := by
      simp [w25qRead, W25qxx.read, hinited, evalAt_readWith, hlen]
    simp [ReadTruthful, hrun, hlen, Nat.not_le.mpr hlen]
  · have hrun : evalAt env (w25qRead addr buf buf.length) s =
        ((s.exchange env (fastReadBytes addr) buf.length).1,
          (0, (s.exchange env (fastReadBytes addr) buf.length).2)) := by
      simp [w25qRead, W25qxx.read, hinited, evalAt_readWith, hlen]
    have hmem := mem_exchange_fastRead env s addr buf.length
    have hanswer := exchange_fastRead env s hsize hend
    simp only [ReadTruthful, hrun, hmem, hanswer, hlen, Nat.not_lt.mp hlen, ReadServed]
    split
    · next h => simp [h]
    · next h => simp [h]

theorem eraseTruthful_iff (env : Schedule) (s : Bus) {addr size : Nat}
    (halign : addr % 4096 = 0) (hend : addr + size ≤ flashSize) :
    EraseTruthful env s addr size ↔
      ∀ k, 4096 * k < size →
        Blank s.chip.mem (addr / 4096 + k) ∨ Accepts env (beforeRound env s addr k) := by
  have hrun : evalAt env (w25qErase addr size) s = (beforeRound env s addr (rounds size), 0) := by
    simp [w25qErase, beforeRound]
  have hrounds : ∀ k, k < rounds size ↔ 4096 * k < size := by
    intro k
    simp only [rounds]
    omega
  have hend' : addr + 4096 * rounds size ≤ flashSize := by
    simp only [rounds, flashSize] at hend ⊢
    omega
  have hall := blank_eraseSectors env s halign hend'
  simp only [hrounds] at hall
  have hfirst : (∀ k, 4096 * k < size →
      Blank s.chip.mem (addr / 4096 + k) ∨ Accepts env (beforeRound env s addr k)) ↔
        ∀ k, 4096 * k < size → Blank (beforeRound env s addr k).chip.mem (addr / 4096 + k) ∨
          Accepts env (beforeRound env s addr k) :=
    forall₂_congr fun k hk => or_congr_left
      (blank_beforeRound env s halign (by omega) (Nat.le_refl _)).symm
  rw [hfirst, ← hall]
  simp only [EraseTruthful, hrun, Int.le_refl, true_implies]
  constructor
  · intro h k hk
    have hblank := h (addr + 4096 * k) (by omega) (by omega)
    rwa [show (addr + 4096 * k) / 4096 = addr / 4096 + k by omega] at hblank
  · intro h y hlo hhi
    have hblank := h (y / 4096 - addr / 4096) (by omega)
    rwa [show addr / 4096 + (y / 4096 - addr / 4096) = y / 4096 by omega] at hblank

/-- **The port tells the truth** about a write exactly if the flash held the
data before, about a read if it is short and served (or what is left in the
buffer is right by chance), and about an erase if each sector is blank or the
chip takes its command. -/
theorem port_truthful_iff (env : Schedule) (s : Bus) {addr size : Nat} {buf : List Byte}
    (buf4k : List Byte) (hbuf : buf.length = size) (hsize : 1 ≤ size)
    (hend : addr + size ≤ flashSize) :
    (WriteTruthful env s addr buf buf4k ↔ slice s.chip.mem addr size = buf) ∧
      (ReadTruthful env s addr buf ↔
        size ≤ 59 ∧ ReadServed env s addr size ∨
          59 < size ∧ buf = slice s.chip.mem addr size) ∧
      (addr % 4096 = 0 →
        (EraseTruthful env s addr size ↔
          ∀ k, 4096 * k < size →
            Blank s.chip.mem (addr / 4096 + k) ∨ Accepts env (beforeRound env s addr k))) := by
  subst hbuf
  exact ⟨writeTruthful_iff env s addr buf buf4k, readTruthful_iff env s hsize hend,
    fun halign => eraseTruthful_iff env s halign hend⟩

/-- A chip in which every byte is the same. -/
def filled (b : Byte) : Bus := ⟨⟨fun _ => b, false, 0⟩, 0⟩

/-- Every exchange succeeds, or every exchange fails, and the receive buffer
is clear where the chip does not drive the line. -/
def always (ok : Bool) : Schedule := fun _ => ⟨ok, fun _ => 0x00#8, 100000⟩

/-- A byte written to an erased flash is not there, although every exchange
succeeds; a read of 60 bytes leaves the buffer; and a sector is not erased
when the exchanges fail.  The port returns 0 each time. -/
theorem port_not_truthful :
    ¬WriteTruthful (always true) (filled 0xFF#8) 0 [0x00#8] [] ∧
      ¬ReadTruthful (always true) (filled 0xFF#8) 0 (List.replicate 60 0x00#8) ∧
      ¬EraseTruthful (always false) (filled 0x00#8) 0 4096 := by
  refine ⟨?_, ?_, ?_⟩
  · rw [writeTruthful_iff]
    decide
  · rw [readTruthful_iff _ _ (by decide) (by decide)]
    rintro (⟨hshort, -⟩ | ⟨-, hbuf⟩)
    · exact absurd hshort (by decide)
    · exact absurd hbuf (by decide)
  · rw [eraseTruthful_iff _ _ rfl (by decide)]
    intro h
    rcases h 0 (by decide) with hblank | haccepts
    · exact absurd (hblank 0 rfl) (by decide)
    · exact absurd haccepts.2.2 (by decide)

/-- Two bytes on either side of a sector boundary that are written as they lie
there and read again, and two sectors of zeros that are erased. -/
theorem port_truthful_iff_sample :
    WriteTruthful (always true) (filled 0xFF#8) 4095 [0xFF#8, 0xFF#8] [] ∧
      ReadTruthful (always true) (filled 0xFF#8) 4095 [0x00#8, 0x00#8] ∧
      EraseTruthful (always true) (filled 0x00#8) 4096 8192 := by
  have hwrite := @port_truthful_iff (always true) (filled 0xFF#8) 4095 2 [0xFF#8, 0xFF#8] [] rfl
    (by decide) (by decide)
  have hread := @port_truthful_iff (always true) (filled 0xFF#8) 4095 2 [0x00#8, 0x00#8] [] rfl
    (by decide) (by decide)
  have herase := @port_truthful_iff (always true) (filled 0x00#8) 4096 8192
    (List.replicate 8192 0x00#8) [] List.length_replicate (by decide) (by decide)
  refine ⟨hwrite.1.mpr (by decide), hread.2.1.mpr (Or.inl ⟨by decide, Or.inl ⟨rfl, rfl⟩⟩), ?_⟩
  refine (herase.2.2 rfl).mpr fun k hk => Or.inr ?_
  have hcases : k = 0 ∨ k = 1 := by omega
  obtain rfl | rfl := hcases <;> decide

end DsEthComm.Flashdb
