import DsEthComm.W25qxx.Chip

/-!
# DsEthComm.W25qxx.Driver

The functions of `w25qxx.c` that the flash port calls and the interface
function `w25qxx_interface_spi_qspi_write_read` under them, as programs over
the exchanges on the bus, the delays and the debug output.

The source repeats each transaction for single, dual and quad SPI.  With
single SPI the command and the address stand in front of the data.
Otherwise they are arguments of the interface function, which looks at the
buffers only, so a function is written once here and `writeRead` makes the
difference.  No pointer is `NULL`, so the checks for that are left out.
-/

namespace DsEthComm.W25qxx

open Conc

/-! ## The handle -/

/-- `w25qxx_interface_t`. -/
inductive Interface where
  | spi
  | qspi
deriving DecidableEq, Repr

/-- `w25qxx_address_mode_t`. -/
inductive AddressMode where
  | byte3
  | byte4
deriving DecidableEq, Repr

/-- `w25qxx_type_t`. -/
inductive ChipType where
  | w25q80
  | w25q16
  | w25q32
  | w25q64
  | w25q128
  | w25q256
  | w25q512
  | w25q1024
  | w25q2048
deriving DecidableEq, Repr

def ChipType.val : ChipType → Nat
  | .w25q80 => 0xEF13
  | .w25q16 => 0xEF14
  | .w25q32 => 0xEF15
  | .w25q64 => 0xEF16
  | .w25q128 => 0xEF17
  | .w25q256 => 0xEF18
  | .w25q512 => 0xEF19
  | .w25q1024 => 0xEF20
  | .w25q2048 => 0xEF21

/-- The functions that can be linked as `handle->spi_qspi_write_read`. -/
inductive Transport where
  /-- `w25qxx_interface_spi_qspi_write_read`. -/
  | interface
  /-- One that takes a transaction of any length. -/
  | ideal
deriving DecidableEq, Repr

/-- The fields of `w25qxx_handle_t` that the functions test, and the link to
the bus. -/
structure Handle where
  inited : Byte
  spiQspi : Interface
  dualQuadSpiEnable : Byte
  addressMode : AddressMode
  type : ChipType
  spiQspiWriteRead : Transport := .interface
deriving DecidableEq, Repr

namespace Handle

/-- Single SPI. -/
def single (h : Handle) : Bool := h.spiQspi = .spi && h.dualQuadSpiEnable = 0

/-- `handle->type >= W25Q256`. -/
def large (h : Handle) : Bool := ChipType.w25q256.val ≤ h.type.val

/-- The bytes of an address, or `none` where the source prints
`address mode is invalid`. -/
def addressBytes (h : Handle) (addr : Nat) : Option (List Byte) :=
  match h.addressMode with
  | .byte3 => some (W25qxx.addressBytes addr)
  | .byte4 =>
      if h.large then some (BitVec.ofNat 8 (addr >>> 24) :: W25qxx.addressBytes addr) else none

/-- The upper byte of the address goes to the extended address register. -/
def extended (h : Handle) : Bool := h.addressMode = .byte3 && h.large

end Handle

/-! ## Operations -/

inductive Op where
  /-- `spiExchange` between `spiSelect` and `spiUnselect`: clock out the
  input, then zeros, and keep `outLen` bytes. -/
  | exchange (inBuf : List Byte) (outLen : Nat)
  | delayMs (ms : Nat)
  | delayUs (us : Nat)
  | debugPrint (msg : String)
deriving DecidableEq, Repr

abbrev Op.Res : Op → Type
  | .exchange .. => List Byte
  | _ => Unit

def busSig : Sig := ⟨Op, Op.Res⟩

abbrev Driver (α : Type) := Prog busSig α

def exchange (inBuf : List Byte) (outLen : Nat) : Driver (List Byte) :=
  .call (S := busSig) (.exchange inBuf outLen)

def delayMs (ms : Nat) : Driver Unit := .call (S := busSig) (.delayMs ms)

def delayUs (us : Nat) : Driver Unit := .call (S := busSig) (.delayUs us)

def debugPrint (msg : String) : Driver Unit := .call (S := busSig) (.debugPrint msg)

/-! ## Transactions -/

/-- `SPI_BUFFER_SIZE`. -/
def spiBufferSize : Nat := 64

/-- `w25qxx_interface_spi_qspi_write_read`: the bytes for `out_buf` with
status 0, or `none` with status 1.  The result of `spiExchange` is not
looked at. -/
def interfaceWriteRead (inBuf : List Byte) (outLen : Nat) : Driver (Option (List Byte)) := do
  if spiBufferSize < inBuf.length + outLen then return none
  else
    let out ← exchange inBuf outLen
    return some out

/-- `handle->spi_qspi_write_read`. -/
def Transport.writeRead (t : Transport) (inBuf : List Byte) (outLen : Nat) :
    Driver (Option (List Byte)) :=
  match t with
  | .interface => interfaceWriteRead inBuf outLen
  | .ideal => do
      let out ← exchange inBuf outLen
      return some out

/-- `a_w25qxx_spi_write_read` or `a_w25qxx_qspi_write_read`. -/
def writeRead (h : Handle) (header data : List Byte) (outLen : Nat) :
    Driver (Option (List Byte)) :=
  if h.single then h.spiQspiWriteRead.writeRead (header ++ data) outLen
  else h.spiQspiWriteRead.writeRead data outLen

/-- Go on after a transaction, or print a message and return. -/
def attempt {α : Type} (p : Driver (Option (List Byte))) (failed : String) (res : α)
    (k : List Byte → Driver α) : Driver α := do
  match ← p with
  | some out => k out
  | none =>
      debugPrint failed
      return res

def writeEnable {α : Type} (h : Handle) (res : α) (k : Driver α) : Driver α :=
  attempt (writeRead h [commandWriteEnable] [] 0) "w25qxx: write enable failed.\n" res fun _ => k

def writeExtendedAddr {α : Type} (h : Handle) (addr : Nat) (res : α) (k : Driver α) : Driver α :=
  attempt (writeRead h [commandWriteExtendedAddr] [BitVec.ofNat 8 (addr >>> 24)] 0)
    "w25qxx: write extended addr register failed.\n" res fun _ => k

/-! ## Read -/

/-- The body of `w25qxx_read` and `a_w25qxx_read`: the status code and the
buffer afterwards.  They differ in the status of an invalid address mode. -/
def readWith (invalidMode : Byte) (h : Handle) (addr : Nat) (data : List Byte) (len : Nat) :
    Driver (Byte × List Byte) :=
  match h.addressBytes addr with
  | none => do
      debugPrint "w25qxx: address mode is invalid.\n"
      return (invalidMode, data)
  | some a =>
      let fastRead : Driver (Byte × List Byte) :=
        attempt (writeRead h (commandFastRead :: (a ++ [0x00#8])) [] len)
          "w25qxx: fast read failed.\n" (1, data) fun out => return (0, out ++ data.drop len)
      if h.extended then
        writeEnable h (1, data) (writeExtendedAddr h addr (1, data) fastRead)
      else fastRead

/-- `w25qxx_read`. -/
def read (h : Handle) (addr : Nat) (data : List Byte) (len : Nat) : Driver (Byte × List Byte) :=
  if h.inited ≠ 1 then return (3, data) else readWith 4 h addr data len

/-- `a_w25qxx_read`. -/
def aRead (h : Handle) (addr : Nat) (data : List Byte) (len : Nat) : Driver (Byte × List Byte) :=
  readWith 1 h addr data len

/-! ## Erase and program -/

/-- The loop `while (timeout != 0)` that waits for the end of an erase or a
program. -/
def waitIdle (h : Handle) (statusFailed timedOut : String) (timeoutRes : Byte)
    (pause : Driver Unit) : Nat → Driver Byte
  | 0 => do
      debugPrint timedOut
      return timeoutRes
  | timeout + 1 =>
      attempt (writeRead h [commandReadStatusReg1] [] 1) statusFailed 1 fun out =>
        if out.headD 0 &&& 0x01#8 = 0x00#8 then return 0
        else do
          pause
          waitIdle h statusFailed timedOut timeoutRes pause timeout

/-- A command on the array: enable the write, select the upper address byte
of a large chip, send the command and wait. -/
def arrayCommand (invalidMode : Byte) (h : Handle) (cmd : Byte) (addr : Nat) (data : List Byte)
    (failed : String) (wait : Driver Byte) : Driver Byte :=
  writeEnable h 1 <|
    match h.addressBytes addr with
    | none => do
        debugPrint "w25qxx: address mode is invalid.\n"
        return invalidMode
    | some a =>
        let command : Driver Byte := attempt (writeRead h (cmd :: a) data 0) failed 1 fun _ => wait
        if h.extended then writeExtendedAddr h addr 1 (writeEnable h 1 command) else command

/-- `W25QXX_ERASE_4K_TIMEOUT_MS`. -/
def erase4kTimeoutMs : Nat := 400

/-- `W25QXX_PAGE_PROGRAM_TIMEOUT_MS`. -/
def pageProgramTimeoutMs : Nat := 3

/-- The body of `w25qxx_sector_erase_4k` and `a_w25qxx_erase_sector`, which
differ in the status codes. -/
def eraseWith (invalidMode timeoutRes : Byte) (h : Handle) (addr : Nat) : Driver Byte :=
  arrayCommand invalidMode h commandSectorErase4k addr [] "w25qxx: sector erase 4k failed.\n" <|
    waitIdle h "w25qxx: get status1 failed.\n" "w25qxx: sector erase 4k timeout.\n" timeoutRes
      (delayMs 1) erase4kTimeoutMs

/-- `w25qxx_sector_erase_4k`. -/
def sectorErase4k (h : Handle) (addr : Nat) : Driver Byte :=
  if h.inited ≠ 1 then return 3
  else if addr % 4096 ≠ 0 then do
    debugPrint "w25qxx: addr is invalid.\n"
    return 4
  else eraseWith 5 6 h addr

/-- `a_w25qxx_erase_sector`. -/
def aEraseSector (h : Handle) (addr : Nat) : Driver Byte := eraseWith 1 1 h addr

/-- `a_w25qxx_page_program`. -/
def aPageProgram (h : Handle) (addr : Nat) (data : List Byte) : Driver Byte :=
  let statusFailed :=
    if h.single then "w25qxx: get status1 failed.\n" else "w25qxx: page program failed.\n"
  arrayCommand 1 h commandPageProgram addr data "w25qxx: page program failed.\n" <|
    waitIdle h statusFailed "w25qxx: page program timeout.\n" 1 (delayUs 10)
      (pageProgramTimeoutMs * 100)

/-! ## Write -/

/-- The loop of `a_w25qxx_write_no_check`: the first `pageRemain` bytes of
the data end the page.  There are at least `pageRemain` bytes, so the test is
`len == page_remain`, and there is no loop without any. -/
def writeNoCheckLoop (h : Handle) (addr : Nat) (data : List Byte) (pageRemain : Nat) :
    Driver Byte := do
  let res ← aPageProgram h addr (data.take pageRemain)
  if res ≠ 0 then do
    debugPrint "w25qxx: page program failed.\n"
    return 1
  else if data.length ≤ pageRemain ∨ pageRemain = 0 then return 0
  else
    let rest := data.drop pageRemain
    writeNoCheckLoop h (addr + pageRemain) rest (if rest.length > 256 then 256 else rest.length)
termination_by data.length
decreasing_by simp only [List.length_drop]; omega

/-- `a_w25qxx_write_no_check`. -/
def aWriteNoCheck (h : Handle) (addr : Nat) (data : List Byte) : Driver Byte :=
  let pageRemain := 256 - addr % 256
  writeNoCheckLoop h addr data (if data.length ≤ pageRemain then data.length else pageRemain)

/-- The loop of `w25qxx_write`: the first `secRemain` bytes of the data go to
the sector `secPos`, from `secOff` on.  It ends as the loop over the pages
does. -/
def writeLoop (h : Handle) (secPos secOff addr : Nat) (data : List Byte) (secRemain : Nat)
    (buf4k : List Byte) : Driver Byte := do
  let (res, buf4k) ← aRead h (secPos * 4096) buf4k 4096
  if res ≠ 0 then do
    debugPrint "w25qxx: read failed.\n"
    return 4
  else
    let blank := ((buf4k.drop secOff).take secRemain).all fun b => b = 0xFF#8
    let written : Driver (Option Byte × List Byte) :=
      if !blank then do
        let res ← aEraseSector h (secPos * 4096)
        if res ≠ 0 then do
          debugPrint "w25qxx: erase sector failed.\n"
          return (some 5, buf4k)
        else
          let merged := buf4k.take secOff ++ data.take secRemain ++ buf4k.drop (secOff + secRemain)
          let res ← aWriteNoCheck h (secPos * 4096) (merged.take 4096)
          if res ≠ 0 then do
            debugPrint "w25qxx: write failed.\n"
            return (some 1, merged)
          else return (none, merged)
      else do
        let res ← aWriteNoCheck h addr (data.take secRemain)
        if res ≠ 0 then do
          debugPrint "w25qxx: write failed.\n"
          return (some 1, buf4k)
        else return (none, buf4k)
    match ← written with
    | (some res, _) => return res
    | (none, buf4k) =>
        if data.length ≤ secRemain ∨ secRemain = 0 then return 0
        else
          let rest := data.drop secRemain
          writeLoop h (secPos + 1) 0 (addr + secRemain) rest
            (if rest.length > 4096 then 4096 else rest.length) buf4k
termination_by data.length
decreasing_by simp only [List.length_drop]; omega

/-- `w25qxx_write`. -/
def write (h : Handle) (addr : Nat) (data buf4k : List Byte) : Driver Byte :=
  if h.inited ≠ 1 then return 3
  else
    let secRemain := 4096 - addr % 4096
    writeLoop h (addr / 4096) (addr % 4096) addr data
      (if data.length ≤ secRemain then data.length else secRemain) buf4k

/-! ## Running on the bus -/

/-- What happens to an exchange. -/
structure Outcome where
  ok : Bool
  /-- The receive buffer where the chip does not drive the line. -/
  noise : Nat → Byte
  /-- How long an erase or a program takes that the exchange starts. -/
  time : Nat

/-- The outcome of each exchange. -/
abbrev Schedule := Nat → Outcome

/-- The chip, and the number of exchanges so far. -/
structure Bus where
  chip : Chip
  count : Nat

/-- One exchange: `in_buf`, then zeros. -/
def Bus.exchange (env : Schedule) (s : Bus) (inBuf : List Byte) (outLen : Nat) :
    Bus × List Byte :=
  let x := env s.count
  let tx := inBuf ++ List.replicate outLen 0x00#8
  if x.ok then
    (⟨s.chip.receive x.time tx, s.count + 1⟩, slice (s.chip.answer x.noise tx) inBuf.length outLen)
  else (⟨s.chip, s.count + 1⟩, slice x.noise inBuf.length outLen)

def Bus.perform (env : Schedule) (s : Bus) (o : Op) : Bus × o.Res :=
  match o with
  | .exchange inBuf outLen => s.exchange env inBuf outLen
  | .delayMs ms => ({ s with chip := s.chip.tick (1000 * ms) }, ())
  | .delayUs us => ({ s with chip := s.chip.tick us }, ())
  | .debugPrint _ => (s, ())

def evalAt {α : Type} (env : Schedule) (p : Driver α) (s : Bus) : Bus × α :=
  p.eval (S := busSig) (Bus.perform env) s

/-- A property of each operation of a run. -/
def alongAt {α : Type} (env : Schedule) (R : Bus → Op → Prop) (p : Driver α) (s : Bus) : Prop :=
  p.along (S := busSig) (Bus.perform env) R s

section EvalAt

variable {α β : Type} (env : Schedule) (s : Bus)

@[simp] theorem evalAt_pure (a : α) : evalAt env (.pure a) s = (s, a) := rfl

@[simp] theorem evalAt_bind (p : Driver α) (f : α → Driver β) :
    evalAt env (p.bind f) s = evalAt env (f (evalAt env p s).2) (evalAt env p s).1 :=
  Prog.eval_bind p f s

@[simp] theorem evalAt_ite (c : Prop) [Decidable c] (p q : Driver α) :
    evalAt env (if c then p else q) s = if c then evalAt env p s else evalAt env q s := by
  split <;> rfl

@[simp] theorem evalAt_debugPrint (msg : String) : evalAt env (debugPrint msg) s = (s, ()) := rfl

@[simp] theorem evalAt_delayMs (ms : Nat) :
    evalAt env (delayMs ms) s = ({ s with chip := s.chip.tick (1000 * ms) }, ()) := rfl

@[simp] theorem evalAt_attempt (p : Driver (Option (List Byte))) (failed : String) (res : α)
    (k : List Byte → Driver α) :
    evalAt env (attempt p failed res k) s =
      match (evalAt env p s).2 with
      | some out => evalAt env (k out) (evalAt env p s).1
      | none => ((evalAt env p s).1, res) := by
  simp only [attempt, Prog.bind_eq, evalAt_bind]
  cases (evalAt env p s).2 <;> simp

theorem evalAt_interfaceWriteRead (inBuf : List Byte) (outLen : Nat) :
    evalAt env (interfaceWriteRead inBuf outLen) s =
      if spiBufferSize < inBuf.length + outLen then (s, none)
      else ((s.exchange env inBuf outLen).1, some (s.exchange env inBuf outLen).2) := by
  rw [interfaceWriteRead, evalAt_ite]
  rfl

variable {R : Bus → Op → Prop}

@[simp] theorem alongAt_pure (a : α) : alongAt env R (.pure a) s ↔ True := Iff.rfl

@[simp] theorem alongAt_bind (p : Driver α) (f : α → Driver β) :
    alongAt env R (p.bind f) s ↔
      alongAt env R p s ∧ alongAt env R (f (evalAt env p s).2) (evalAt env p s).1 :=
  Prog.along_bind p f s

@[simp] theorem alongAt_ite (c : Prop) [Decidable c] (p q : Driver α) :
    alongAt env R (if c then p else q) s ↔ if c then alongAt env R p s else alongAt env R q s := by
  split <;> rfl

@[simp] theorem alongAt_debugPrint (msg : String) :
    alongAt env R (debugPrint msg) s ↔ R s (.debugPrint msg) :=
  and_iff_left trivial

end EvalAt

end DsEthComm.W25qxx
