import DsEthComm.Bytes
import DsEthComm.Conc.Prog

/-!
# DsEthComm.W25qxx.Chip

The W25Q64 and the bus in front of it: an array of bytes, the write-enable
latch, and the time that a running erase or program still takes.

An erase or a program changes the array when the chip takes the command.
Until its time has passed the chip answers nothing but reads of the status
register, so that nobody sees the array before the change is complete.

An exchange that fails does not reach the chip.  What it leaves in the
receive buffer of the interface is anything, and so is what an exchange
receives while the chip does not drive the line.
-/

namespace DsEthComm.W25qxx

open Conc

/-! ## The array -/

/-- `8 * 1024 * 1024`, the size of the W25Q64. -/
def flashSize : Nat := 0x800000

/-- `len` bytes from an address on. -/
def slice (mem : Nat → Byte) (addr len : Nat) : List Byte :=
  (List.range len).map fun j => mem (addr + j)

theorem slice_congr {mem mem' : Nat → Byte} {addr addr' len : Nat}
    (h : ∀ j < len, mem (addr + j) = mem' (addr' + j)) :
    slice mem addr len = slice mem' addr' len := by
  simpa [slice] using h

/-- All bytes of a 4 KiB sector are erased. -/
def Blank (mem : Nat → Byte) (sector : Nat) : Prop := ∀ x, x / 4096 = sector → mem x = 0xFF#8

/-- Set the bytes of a 4 KiB sector. -/
def eraseSector (mem : Nat → Byte) (addr : Nat) : Nat → Byte :=
  fun x => if x / 4096 = addr / 4096 then 0xFF#8 else mem x

/-- Clear bits in a page of 256 bytes.  The data starts at the address and
goes on at the start of the page. -/
def programPage (mem : Nat → Byte) (addr : Nat) (data : List Byte) : Nat → Byte :=
  fun x =>
    if x / 256 = addr / 256 then mem x &&& data.getD ((x % 256 + 256 - addr % 256) % 256) 0xFF#8
    else mem x

theorem blank_eraseSector (mem : Nat → Byte) (addr sector : Nat) :
    Blank (eraseSector mem addr) sector ↔ sector = addr / 4096 ∨ Blank mem sector := by
  by_cases h : sector = addr / 4096
  · simp +contextual [Blank, eraseSector, h]
  · have hne : ∀ x, x / 4096 = sector → eraseSector mem addr x = mem x := by
      intro x hx
      simp [eraseSector, hx, h]
    simp +contextual [Blank, h, hne]

/-! ## The chip -/

/-- `W25QXX_COMMAND_WRITE_ENABLE`. -/
def commandWriteEnable : Byte := 0x06#8
/-- `W25QXX_COMMAND_READ_STATUS_REG1`. -/
def commandReadStatusReg1 : Byte := 0x05#8
/-- `W25QXX_COMMAND_PAGE_PROGRAM`. -/
def commandPageProgram : Byte := 0x02#8
/-- `W25QXX_COMMAND_SECTOR_ERASE_4K`. -/
def commandSectorErase4k : Byte := 0x20#8
/-- `W25QXX_COMMAND_FAST_READ`. -/
def commandFastRead : Byte := 0x0B#8
/-- `0xC5`, the write of the extended address register of larger chips. -/
def commandWriteExtendedAddr : Byte := 0xC5#8

/-- Three bytes of an address.  The array repeats above its size. -/
def address (a2 a1 a0 : Byte) : Nat :=
  (a2.toNat * 65536 + a1.toNat * 256 + a0.toNat) % flashSize

structure Chip where
  mem : Nat → Byte
  /-- The write-enable latch. -/
  wel : Bool
  /-- Microseconds that the running erase or program still takes. -/
  busy : Nat

namespace Chip

/-- The status register: `BUSY` and `WEL`. -/
def status (c : Chip) : Byte :=
  (if c.busy = 0 then 0#8 else 1#8) ||| (if c.wel then 2#8 else 0#8)

/-- Time passes. -/
def tick (c : Chip) (us : Nat) : Chip := { c with busy := c.busy - us }

/-- What the bytes of one transaction do.  `time` is how long the erase or
program takes that they start. -/
def receive (c : Chip) (time : Nat) : List Byte → Chip
  | [] => c
  | cmd :: args =>
      if c.busy ≠ 0 then c
      else if cmd = commandWriteEnable then { c with wel := true }
      else if c.wel then
        match args with
        | a2 :: a1 :: a0 :: data =>
            if cmd = commandSectorErase4k then
              { mem := eraseSector c.mem (address a2 a1 a0), wel := false, busy := time }
            else if cmd = commandPageProgram then
              { mem := programPage c.mem (address a2 a1 a0) data, wel := false, busy := time }
            else c
        | _ => c
      else c

/-- The byte on the line in each place of a transaction, with `noise` where
the chip does not drive it. -/
def answer (c : Chip) (noise : Nat → Byte) : List Byte → Nat → Byte
  | [], n => noise n
  | cmd :: args, n =>
      if cmd = commandReadStatusReg1 then if n = 0 then noise n else c.status
      else if c.busy ≠ 0 then noise n
      else
        match args with
        | a2 :: a1 :: a0 :: _ =>
            if cmd = commandFastRead ∧ 5 ≤ n then c.mem ((address a2 a1 a0 + (n - 5)) % flashSize)
            else noise n
        | _ => noise n

@[simp] theorem mem_tick (c : Chip) (us : Nat) : (c.tick us).mem = c.mem := rfl

/-- The other commands change nothing. -/
theorem receive_other {cmd : Byte} (hwren : cmd ≠ commandWriteEnable)
    (herase : cmd ≠ commandSectorErase4k) (hprogram : cmd ≠ commandPageProgram) (c : Chip)
    (time : Nat) (args : List Byte) : c.receive time (cmd :: args) = c := by
  simp only [receive, hwren, herase, hprogram, if_false]
  repeat' split
  all_goals rfl

theorem receive_readStatus (c : Chip) (time : Nat) (args : List Byte) :
    c.receive time (commandReadStatusReg1 :: args) = c :=
  receive_other (by decide) (by decide) (by decide) c time args

theorem receive_fastRead (c : Chip) (time : Nat) (args : List Byte) :
    c.receive time (commandFastRead :: args) = c :=
  receive_other (by decide) (by decide) (by decide) c time args

theorem receive_writeEnable (c : Chip) (time : Nat) :
    c.receive time [commandWriteEnable] = { c with wel := c.wel || c.busy = 0 } := by
  by_cases h : c.busy = 0 <;> simp [receive, h]

theorem receive_sectorErase4k (c : Chip) (time : Nat) (a2 a1 a0 : Byte) :
    c.receive time [commandSectorErase4k, a2, a1, a0] =
      if c.busy = 0 ∧ c.wel then
        { mem := eraseSector c.mem (address a2 a1 a0), wel := false, busy := time }
      else c := by
  have hwren : commandSectorErase4k ≠ commandWriteEnable := by decide
  by_cases h : c.busy = 0 <;> simp [receive, h, hwren]

end Chip

/-! ## Addresses -/

/-- `(addr >> 16) & 0xFF`, `(addr >> 8) & 0xFF` and `addr & 0xFF`. -/
def addressBytes (addr : Nat) : List Byte :=
  [BitVec.ofNat 8 (addr >>> 16), BitVec.ofNat 8 (addr >>> 8), BitVec.ofNat 8 addr]

/-- The chip finds the address that the driver wrote. -/
theorem address_ofNat {addr : Nat} (h : addr < flashSize) :
    address (BitVec.ofNat 8 (addr >>> 16)) (BitVec.ofNat 8 (addr >>> 8)) (BitVec.ofNat 8 addr) =
      addr := by
  simp only [address, flashSize, BitVec.toNat_ofNat, Nat.shiftRight_eq_div_pow] at h ⊢
  omega

/-- A chip that is not busy answers a read with the array. -/
theorem Chip.slice_answer_fastRead {c : Chip} (h : c.busy = 0) (noise : Nat → Byte)
    (tail : List Byte) {addr len : Nat} (hend : addr + len ≤ flashSize) (hlen : 1 ≤ len) :
    slice (c.answer noise (commandFastRead :: (addressBytes addr ++ tail))) 5 len =
      slice c.mem addr len := by
  have hstatus : commandFastRead ≠ commandReadStatusReg1 := by decide
  have hlt : addr < flashSize := by omega
  have haddr := address_ofNat hlt
  apply slice_congr
  intro j hj
  have hmod : (addr + j) % flashSize = addr + j := Nat.mod_eq_of_lt (by omega)
  simp [answer, addressBytes, hstatus, h, haddr, hmod]

/-- A busy chip does not answer a read. -/
theorem Chip.slice_answer_of_busy {c : Chip} (h : c.busy ≠ 0) (noise : Nat → Byte)
    (args : List Byte) (start len : Nat) :
    slice (c.answer noise (commandFastRead :: args)) start len = slice noise start len := by
  have hstatus : commandFastRead ≠ commandReadStatusReg1 := by decide
  apply slice_congr
  intro j _
  simp [answer, hstatus, h]

end DsEthComm.W25qxx
