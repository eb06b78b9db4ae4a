import DsEthComm.Conc.Prog
import DsEthComm.Cyclic
import DsEthComm.Bytes
import Mathlib.Algebra.Group.Nat.Defs

/-!
# DsEthComm.Rtt.Ring

The ring buffers of `SEGGER_RTT.c`, through which the firmware prints and
the shell reads.  One side of a ring is the target, the other the debug
probe, which reads and writes the control block while the target runs: an
up buffer is written by the target and read by the host, a down buffer the
other way round, and the functions are the same for both.

Every access to a field of the control block or to a byte of the buffer is
an operation of its own, so the other side can act between any two of
them.  `RTT__DMB` keeps these accesses in the order of the program.  A loop
that waits for the other side goes on for at most `fuel` rounds.
-/

namespace DsEthComm.Rtt

open Conc

/-! ## The control block -/

/-- `SEGGER_RTT_BUFFER_UP` or `SEGGER_RTT_BUFFER_DOWN` and the array behind
`pBuffer`, with `_ActiveTerminal`, which belongs to buffer 0. -/
structure Ring where
  buffer : Nat → Byte
  wrOff : Nat
  rdOff : Nat
  activeTerminal : Nat

/-- The fields that stay as the configuration has set them, `unsigned` both. -/
structure Desc where
  sizeOfBuffer : Nat
  flags : BitVec 32
  size_pos : 0 < sizeOfBuffer
  size_lt : sizeOfBuffer < 2 ^ 32

/-- `SEGGER_RTT_MODE_NO_BLOCK_SKIP`. -/
def modeNoBlockSkip : BitVec 32 := 0

/-- `SEGGER_RTT_MODE_NO_BLOCK_TRIM`. -/
def modeNoBlockTrim : BitVec 32 := 1

/-- `SEGGER_RTT_MODE_BLOCK_IF_FIFO_FULL`. -/
def modeBlockIfFifoFull : BitVec 32 := 2

/-- `SEGGER_RTT_MODE_MASK`. -/
def modeMask : BitVec 32 := 3

/-- `_aTerminalId`. -/
def aTerminalId : List Byte :=
  [0x30#8, 0x31#8, 0x32#8, 0x33#8, 0x34#8, 0x35#8, 0x36#8, 0x37#8,
    0x38#8, 0x39#8, 0x41#8, 0x42#8, 0x43#8, 0x44#8, 0x45#8, 0x46#8]

/-! ## Accesses -/

inductive Op where
  | loadWrOff
  | loadRdOff
  | storeWrOff (v : Nat)
  | storeRdOff (v : Nat)
  | loadByte (i : Nat)
  | storeByte (i : Nat) (b : Byte)
  | loadActiveTerminal
  | storeActiveTerminal (v : Nat)

def Op.Res : Op → Type
  | .loadWrOff | .loadRdOff | .loadActiveTerminal => Nat
  | .storeWrOff _ | .storeRdOff _ | .storeByte _ _ | .storeActiveTerminal _ => Unit
  | .loadByte _ => Byte

def ringSig : Sig := ⟨Op, Op.Res⟩

abbrev Code := Prog ringSig

abbrev perf (o : Op) : Code o.Res := Prog.call (S := ringSig) o

abbrev loadWrOff : Code Nat := perf .loadWrOff
abbrev loadRdOff : Code Nat := perf .loadRdOff
abbrev storeWrOff (v : Nat) : Code Unit := perf (.storeWrOff v)
abbrev storeRdOff (v : Nat) : Code Unit := perf (.storeRdOff v)
abbrev loadByte (i : Nat) : Code Byte := perf (.loadByte i)
abbrev storeByte (i : Nat) (b : Byte) : Code Unit := perf (.storeByte i b)
abbrev loadActiveTerminal : Code Nat := perf .loadActiveTerminal
abbrev storeActiveTerminal (v : Nat) : Code Unit := perf (.storeActiveTerminal v)

def perform (r : Ring) (o : Op) : Ring × o.Res :=
  match o with
  | .loadWrOff => (r, r.wrOff)
  | .loadRdOff => (r, r.rdOff)
  | .storeWrOff v => ({ r with wrOff := v }, ())
  | .storeRdOff v => ({ r with rdOff := v }, ())
  | .loadByte i => (r, r.buffer i)
  | .storeByte i b => ({ r with buffer := Function.update r.buffer i b }, ())
  | .loadActiveTerminal => (r, r.activeTerminal)
  | .storeActiveTerminal v => ({ r with activeTerminal := v }, ())

/-- `SEGGER_RTT_MEMCPY` into the buffer, from offset `off` on. -/
def copyIn (off : Nat) : List Byte → Code Unit
  | [] => pure ()
  | b :: bs => do
      storeByte off b
      copyIn (off + 1) bs

/-- `SEGGER_RTT_MEMCPY` of `k` bytes out of the buffer. -/
def copyOut (off : Nat) : Nat → Code (List Byte)
  | 0 => pure []
  | k + 1 => do
      let b ← loadByte off
      let bs ← copyOut (off + 1) k
      pure (b :: bs)

/-- A difference of two `unsigned`. -/
def usub (a b : Nat) : Nat := if b ≤ a then a - b else a + 2 ^ 32 - b

theorem usub_of_le {a b : Nat} (h : b ≤ a) : usub a b = a - b := by
  simp [usub, h]

/-! ## Writing -/

/-- How a call that writes ends: with a status, or still waiting for the
other side when its rounds are over. -/
inductive Outcome where
  | done (status : Int)
  | waiting
deriving DecidableEq

section Functions

variable (d : Desc)

/-- `_GetAvailWriteSpace`. -/
def getAvailWriteSpace : Code Nat := do
  let rdOff ← loadRdOff
  let wrOff ← loadWrOff
  if rdOff ≤ wrOff then pure (d.sizeOfBuffer - 1 - wrOff + rdOff)
  else pure (rdOff - wrOff - 1)

/-- `_WriteNoCheck`. -/
def writeNoCheck (data : List Byte) : Code Unit := do
  let wrOff ← loadWrOff
  let rem := d.sizeOfBuffer - wrOff
  if rem > data.length then
    copyIn wrOff data
    storeWrOff (wrOff + data.length)
  else
    copyIn wrOff (data.take rem)
    copyIn 0 (data.drop rem)
    storeWrOff (data.length - rem)

/-- The loop of `_WriteBlocking`, with `written` bytes behind it: the number
of bytes written if it ends. -/
def writeBlockingLoop (wrOff written : Nat) (data : List Byte) : Nat → Code (Option Nat)
  | 0 => pure none
  | fuel + 1 => do
      let rdOff ← loadRdOff
      let space := if rdOff > wrOff then rdOff - wrOff - 1
        else d.sizeOfBuffer - (wrOff - rdOff + 1)
      let k := min (min space (d.sizeOfBuffer - wrOff)) data.length
      copyIn wrOff (data.take k)
      let next := if wrOff + k = d.sizeOfBuffer then 0 else wrOff + k
      storeWrOff next
      if data.drop k = [] then pure (some (written + k))
      else writeBlockingLoop next (written + k) (data.drop k) fuel

/-- `_WriteBlocking`. -/
def writeBlocking (data : List Byte) (fuel : Nat) : Code (Option Nat) := do
  let wrOff ← loadWrOff
  writeBlockingLoop d wrOff 0 data fuel

/-- The outcome of a call that returns what `_WriteBlocking` returns. -/
def Outcome.ofWritten : Option Nat → Outcome
  | some k => .done k
  | none => .waiting

/-- `SEGGER_RTT_WriteNoLock`; `SEGGER_RTT_WriteDownBufferNoLock` is the same
on a down buffer. -/
def writeNoLock (data : List Byte) (fuel : Nat) : Code Outcome :=
  if d.flags = modeNoBlockSkip then do
    let avail ← getAvailWriteSpace d
    if avail < data.length then pure (.done 0)
    else do
      writeNoCheck d data
      pure (.done data.length)
  else if d.flags = modeNoBlockTrim then do
    let avail ← getAvailWriteSpace d
    let status := if avail < data.length then avail else data.length
    writeNoCheck d (data.take status)
    pure (.done status)
  else if d.flags = modeBlockIfFifoFull then do
    let written ← writeBlocking d data fuel
    pure (.ofWritten written)
  else pure (.done 0)

/-- `SEGGER_RTT_WriteSkipNoLock`, the fast path. -/
def writeSkipNoLock (data : List Byte) : Code Outcome := do
  let rdOff ← loadRdOff
  let wrOff ← loadWrOff
  if rdOff ≤ wrOff then
    let avail := d.sizeOfBuffer - wrOff - 1
    if avail ≥ data.length then
      copyIn wrOff data
      storeWrOff (wrOff + data.length)
      pure (.done 1)
    else if avail + rdOff ≥ data.length then
      let rem := d.sizeOfBuffer - wrOff
      copyIn wrOff (data.take rem)
      if data.length - rem ≠ 0 then
        copyIn 0 (data.drop rem)
        storeWrOff (data.length - rem)
        pure (.done 1)
      else
        storeWrOff (data.length - rem)
        pure (.done 1)
    else pure (.done 0)
  else
    if rdOff - wrOff - 1 ≥ data.length then
      copyIn wrOff data
      storeWrOff (wrOff + data.length)
      pure (.done 1)
    else pure (.done 0)

/-- The end of `SEGGER_RTT_PutChar` and of `SEGGER_RTT_PutCharSkipNoLock`. -/
def putIfFree (next : Nat) (c : Byte) : Code Outcome := do
  let rdOff ← loadRdOff
  if next ≠ rdOff then
    let wrOff ← loadWrOff
    storeByte wrOff c
    storeWrOff next
    pure (.done 1)
  else pure (.done 0)

/-- `SEGGER_RTT_PutCharSkipNoLock`, and `SEGGER_RTT_PutCharSkip` under the
lock. -/
def putCharSkip (c : Byte) : Code Outcome := do
  let wrOff ← loadWrOff
  putIfFree (if wrOff + 1 = d.sizeOfBuffer then 0 else wrOff + 1) c

/-- `while (WrOff == pRing->RdOff)`. -/
def waitFree (next : Nat) : Nat → Code Bool
  | 0 => pure false
  | fuel + 1 => do
      let rdOff ← loadRdOff
      if next = rdOff then waitFree next fuel else pure true

/-- `SEGGER_RTT_PutChar`. -/
def putChar (c : Byte) (fuel : Nat) : Code Outcome := do
  let wrOff ← loadWrOff
  let next := if wrOff + 1 = d.sizeOfBuffer then 0 else wrOff + 1
  if d.flags = modeBlockIfFifoFull then
    let free ← waitFree next fuel
    if free then putIfFree next c else pure .waiting
  else putIfFree next c

/-! ## Terminals -/

/-- `ac`, the two bytes that switch the host to a terminal. -/
def switchTo (terminalId : Nat) : List Byte := [0xFF#8, aTerminalId.getD terminalId 0]

/-- `_PostTerminalSwitch`. -/
def postTerminalSwitch (terminalId fuel : Nat) : Code (Option Nat) :=
  writeBlocking d (switchTo terminalId) fuel

/-- `SEGGER_RTT_SetTerminal`. -/
def setTerminal (terminalId fuel : Nat) : Code Outcome :=
  if terminalId < aTerminalId.length then
    if d.flags &&& modeMask = modeBlockIfFifoFull then do
      storeActiveTerminal terminalId
      let written ← writeBlocking d (switchTo terminalId) fuel
      pure (match written with
        | some _ => .done 0
        | none => .waiting)
    else do
      let avail ← getAvailWriteSpace d
      if avail ≥ 2 then
        storeActiveTerminal terminalId
        writeNoCheck d (switchTo terminalId)
        pure (.done 0)
      else pure (.done (-1))
  else pure (.done (-1))

/-- The three writes of `SEGGER_RTT_TerminalOut`. -/
def outOn (terminalId : Nat) (text : List Byte) (fuel : Nat) : Code Outcome := do
  match ← postTerminalSwitch d terminalId fuel with
  | none => pure .waiting
  | some _ =>
      match ← writeBlocking d text fuel with
      | none => pure .waiting
      | some status =>
          let active ← loadActiveTerminal
          match ← postTerminalSwitch d active fuel with
          | none => pure .waiting
          | some _ => pure (.done status)

/-- `SEGGER_RTT_TerminalOut`. -/
def terminalOut (terminalId : Nat) (s : List Byte) (fuel : Nat) : Code Outcome :=
  if terminalId < aTerminalId.length then do
    let fragLen := s.length
    let avail ← getAvailWriteSpace d
    if d.flags &&& modeMask = modeNoBlockSkip then
      if avail < fragLen + 4 then pure (.done 0) else outOn d terminalId s fuel
    else if d.flags &&& modeMask = modeNoBlockTrim then
      if avail < 4 then pure (.done (-1))
      else outOn d terminalId (s.take (if fragLen < avail - 4 then fragLen else avail - 4)) fuel
    else if d.flags &&& modeMask = modeBlockIfFifoFull then outOn d terminalId s fuel
    else pure (.done (-1))
  else pure (.done (-1))

/-! ## Reading -/

/-- "Read remaining items of buffer", behind the bytes `xs`. -/
def readRemaining (rdOff wrOff bufferSize : Nat) (xs : List Byte) : Code (List Byte) := do
  let k := min (usub wrOff rdOff) bufferSize
  let ys ← copyOut rdOff k
  if (xs ++ ys).length ≠ 0 then
    storeRdOff (rdOff + k)
    pure (xs ++ ys)
  else pure (xs ++ ys)

/-- `SEGGER_RTT_ReadNoLock` on a down buffer and
`SEGGER_RTT_ReadUpBufferNoLock`, which does what the host does, on an up
buffer: the bytes read. -/
def readNoLock (bufferSize : Nat) : Code (List Byte) := do
  let rdOff ← loadRdOff
  let wrOff ← loadWrOff
  if rdOff > wrOff then
    let k := min (d.sizeOfBuffer - rdOff) bufferSize
    let xs ← copyOut rdOff k
    let next := if rdOff + k = d.sizeOfBuffer then 0 else rdOff + k
    readRemaining next wrOff (bufferSize - k) xs
  else readRemaining rdOff wrOff bufferSize []

end Functions

end DsEthComm.Rtt
