import DsEthComm.Bytes
import Mathlib.Logic.Function.Basic

/-!
# DsEthComm.Nrf24l01.Chip

The nRF24L01 as its SPI port shows it: a register file, the three address
registers of five bytes, the event bits of `STATUS`, and the two FIFOs of
three payloads.

`STATUS` is not stored: its event bits are set by the radio and cleared by
writing ones, its pipe number and `TX_FULL` follow from the FIFOs.
-/

namespace DsEthComm.Nrf24l01

/-! ## Commands and registers -/

def commandRRegister : Byte := 0x00#8
def commandWRegister : Byte := 0x20#8
def commandRRxPayload : Byte := 0x61#8
def commandWTxPayload : Byte := 0xA0#8
def commandFlushTx : Byte := 0xE1#8
def commandFlushRx : Byte := 0xE2#8
def commandRRxPlWid : Byte := 0x60#8
def commandWTxPayloadNoAck : Byte := 0xB0#8
def commandNop : Byte := 0xFF#8

def regConfig : Byte := 0x00#8
def regEnAa : Byte := 0x01#8
def regEnRxaddr : Byte := 0x02#8
def regSetupAw : Byte := 0x03#8
def regSetupRetr : Byte := 0x04#8
def regRfCh : Byte := 0x05#8
def regRfSetup : Byte := 0x06#8
def regStatus : Byte := 0x07#8
def regRxAddrP0 : Byte := 0x0A#8
def regRxAddrP1 : Byte := 0x0B#8
def regRxAddrP2 : Byte := 0x0C#8
def regRxAddrP3 : Byte := 0x0D#8
def regRxAddrP4 : Byte := 0x0E#8
def regRxAddrP5 : Byte := 0x0F#8
def regTxAddr : Byte := 0x10#8
def regRxPwP0 : Byte := 0x11#8
def regRxPwP1 : Byte := 0x12#8
def regRxPwP2 : Byte := 0x13#8
def regRxPwP3 : Byte := 0x14#8
def regRxPwP4 : Byte := 0x15#8
def regRxPwP5 : Byte := 0x16#8
def regDynpd : Byte := 0x1C#8
def regFeature : Byte := 0x1D#8

/-! ## State -/

/-- An address of five bytes. -/
abbrev Addr := Vector Byte 5

structure TxPayload where
  ack : Bool
  bytes : List Byte
deriving DecidableEq, Repr

structure RxPayload where
  pipe : BitVec 3
  bytes : List Byte
deriving DecidableEq, Repr

structure Chip where
  /-- The registers of one byte, by address. -/
  reg : Byte → Byte
  rxAddrP0 : Addr
  rxAddrP1 : Addr
  txAddr : Addr
  /-- The event bits of `STATUS`: data ready, data sent, maximum number of
  retransmissions. -/
  rxDr : Bool
  txDs : Bool
  maxRt : Bool
  /-- Both FIFOs have their head first. -/
  txFifo : List TxPayload
  rxFifo : List RxPayload

namespace Chip

/-- Each FIFO holds three payloads. -/
def fifoSize : Nat := 3

/-- `RX_P_NO`: the pipe of the payload at the head, `7` when there is none. -/
def rxPNo (c : Chip) : BitVec 3 :=
  match c.rxFifo with
  | [] => 7#3
  | p :: _ => p.pipe

/-- The byte read from `STATUS`. -/
def status (c : Chip) : Byte :=
  BitVec.ofBool false ++ BitVec.ofBool c.rxDr ++ BitVec.ofBool c.txDs ++ BitVec.ofBool c.maxRt ++
    c.rxPNo ++ BitVec.ofBool (c.txFifo.length ≥ fifoSize)

/-- The interrupt of event `i` is masked in `CONFIG`. -/
def masked (c : Chip) (i : Nat) : Bool := bit (c.reg regConfig) i

/-- The IRQ pin is low iff some unmasked event bit is set. -/
def irqLow (c : Chip) : Bool :=
  c.rxDr && !c.masked 6 || c.txDs && !c.masked 5 || c.maxRt && !c.masked 4

/-! ## The SPI port -/

/-- The first bytes of an address register are replaced. -/
def overlay (buf : List Byte) (old : Addr) : Addr :=
  Vector.ofFn fun i => buf.getD i old[i]

/-- `W_REGISTER`.  Event bits of `STATUS` are cleared by writing ones. -/
def writeReg (c : Chip) (r : Byte) (buf : List Byte) : Chip :=
  if r = regStatus then
    let b := buf.getD 0 0
    { c with
      rxDr := c.rxDr && !bit b 6
      txDs := c.txDs && !bit b 5
      maxRt := c.maxRt && !bit b 4 }
  else if r = regRxAddrP0 then { c with rxAddrP0 := overlay buf c.rxAddrP0 }
  else if r = regRxAddrP1 then { c with rxAddrP1 := overlay buf c.rxAddrP1 }
  else if r = regTxAddr then { c with txAddr := overlay buf c.txAddr }
  else { c with reg := Function.update c.reg r (buf.getD 0 0) }

/-- `W_TX_PAYLOAD` and `W_TX_PAYLOAD_NO_ACK`: a full FIFO ignores it. -/
def pushTx (c : Chip) (p : TxPayload) : Chip :=
  if c.txFifo.length < fifoSize then { c with txFifo := c.txFifo ++ [p] } else c

/-- A transaction that sends `cmd` and then `buf`. -/
def write (c : Chip) (cmd : Byte) (buf : List Byte) : Chip :=
  if cmd = commandWTxPayload then c.pushTx ⟨true, buf⟩
  else if cmd = commandWTxPayloadNoAck then c.pushTx ⟨false, buf⟩
  else if cmd = commandFlushTx then { c with txFifo := [] }
  else if cmd = commandFlushRx then { c with rxFifo := [] }
  else if cmd &&& 0xE0#8 = commandWRegister then c.writeReg (cmd &&& 0x1F#8) buf
  else c

/-- What a read of `len` bytes returns: the bytes the chip has, and after
them whatever is on the line. -/
def fit (len : Nat) (bytes noise : List Byte) : List Byte :=
  (bytes ++ noise ++ List.replicate len 0).take len

/-- `R_REGISTER`. -/
def readReg (c : Chip) (r : Byte) : List Byte :=
  if r = regStatus then [c.status]
  else if r = regRxAddrP0 then c.rxAddrP0.toList
  else if r = regRxAddrP1 then c.rxAddrP1.toList
  else if r = regTxAddr then c.txAddr.toList
  else [c.reg r]

/-- A transaction that sends `cmd` and then receives `len` bytes. -/
def read (c : Chip) (cmd : Byte) (len : Nat) (noise : List Byte) : Chip × List Byte :=
  if cmd = commandRRxPayload then
    match c.rxFifo with
    | [] => (c, fit len [] noise)
    | p :: ps => ({ c with rxFifo := ps }, fit len p.bytes noise)
  else if cmd = commandRRxPlWid then
    match c.rxFifo with
    | [] => (c, fit len [] noise)
    | p :: _ => (c, fit len [BitVec.ofNat 8 p.bytes.length] noise)
  else if cmd &&& 0xE0#8 = commandRRegister then
    (c, fit len (c.readReg (cmd &&& 0x1F#8)) noise)
  else (c, fit len [] noise)

/-! ## Lemmas -/

theorem fit_one (b : Byte) (noise : List Byte) : fit 1 [b] noise = [b] := by
  simp [fit]

/-- `R_RX_PAYLOAD` takes the payload at the head, if there is one. -/
theorem read_rRxPayload (c : Chip) (len : Nat) (noise : List Byte) :
    (c.read commandRRxPayload len noise).1 = { c with rxFifo := c.rxFifo.tail } := by
  obtain ⟨reg, p0, p1, tx, rxDr, txDs, maxRt, txFifo, rxFifo⟩ := c
  cases rxFifo <;> rfl

theorem read_rRxPlWid (c : Chip) (len : Nat) (noise : List Byte) :
    (c.read commandRRxPlWid len noise).1 = c := by
  unfold read
  rw [if_neg (by decide), if_pos rfl]
  split <;> rfl

/-- `R_RX_PL_WID` returns the width of the payload at the head. -/
theorem read_rRxPlWid_cons {c : Chip} {p : RxPayload} {ps : List RxPayload}
    (h : c.rxFifo = p :: ps) (noise : List Byte) :
    (c.read commandRRxPlWid 1 noise).2 = [BitVec.ofNat 8 p.bytes.length] := by
  unfold read
  rw [if_neg (by decide), if_pos rfl, h]
  exact fit_one _ _

/-- Writing five bytes replaces an address register. -/
@[simp] theorem overlay_toList (a old : Addr) : overlay a.toList old = a := by
  apply Vector.ext
  intro i hi
  simp [overlay]

theorem writeReg_txAddr (c : Chip) (a : Addr) :
    c.writeReg regTxAddr a.toList = { c with txAddr := a } := by
  have h : c.writeReg regTxAddr a.toList = { c with txAddr := overlay a.toList c.txAddr } := rfl
  rw [h, overlay_toList]

theorem writeReg_rxAddrP0 (c : Chip) (a : Addr) :
    c.writeReg regRxAddrP0 a.toList = { c with rxAddrP0 := a } := by
  have h : c.writeReg regRxAddrP0 a.toList =
      { c with rxAddrP0 := overlay a.toList c.rxAddrP0 } := rfl
  rw [h, overlay_toList]

/-- A register write, decoded. -/
theorem write_wRegister (c : Chip) {r : Byte} (h : r &&& 0xE0#8 = 0#8) (buf : List Byte) :
    c.write (commandWRegister ||| r) buf = c.writeReg r buf := by
  have hdec : ∀ r : Byte, r &&& 0xE0#8 = 0#8 →
      commandWRegister ||| r ≠ commandWTxPayload ∧
      commandWRegister ||| r ≠ commandWTxPayloadNoAck ∧
      commandWRegister ||| r ≠ commandFlushTx ∧ commandWRegister ||| r ≠ commandFlushRx ∧
      (commandWRegister ||| r) &&& 0xE0#8 = commandWRegister ∧
      (commandWRegister ||| r) &&& 0x1F#8 = r := by decide
  obtain ⟨h1, h2, h3, h4, h5, h6⟩ := hdec r h
  simp only [write, if_neg h1, if_neg h2, if_neg h3, if_neg h4, if_pos h5, h6]

/-- What a write can do: write a register, or change the FIFOs. -/
theorem write_cases (c : Chip) (cmd : Byte) (buf : List Byte) :
    (∃ r, cmd = commandWRegister ||| r ∧ c.write cmd buf = c.writeReg r buf) ∨
      ∃ txFifo rxFifo, c.write cmd buf = { c with txFifo := txFifo, rxFifo := rxFifo } := by
  have hdec : ∀ cmd : Byte, cmd &&& 0xE0#8 = commandWRegister →
      cmd = commandWRegister ||| (cmd &&& 0x1F#8) := by decide
  unfold write
  split
  · unfold pushTx
    split <;> exact .inr ⟨_, _, rfl⟩
  split
  · unfold pushTx
    split <;> exact .inr ⟨_, _, rfl⟩
  split
  · exact .inr ⟨_, _, rfl⟩
  split
  · exact .inr ⟨_, _, rfl⟩
  split
  · next h => exact .inl ⟨_, hdec cmd h, rfl⟩
  · exact .inr ⟨_, _, rfl⟩

theorem write_txAddr (c : Chip) {cmd : Byte} (h : cmd ≠ commandWRegister ||| regTxAddr)
    (buf : List Byte) : (c.write cmd buf).txAddr = c.txAddr := by
  obtain ⟨r, rfl, hw⟩ | ⟨txFifo, rxFifo, hw⟩ := c.write_cases cmd buf
  · have hr : r ≠ regTxAddr := fun hr => h (by rw [hr])
    rw [hw, writeReg, if_neg hr]
    repeat' split
    all_goals rfl
  · rw [hw]

theorem write_rxAddrP0 (c : Chip) {cmd : Byte} (h : cmd ≠ commandWRegister ||| regRxAddrP0)
    (buf : List Byte) : (c.write cmd buf).rxAddrP0 = c.rxAddrP0 := by
  obtain ⟨r, rfl, hw⟩ | ⟨txFifo, rxFifo, hw⟩ := c.write_cases cmd buf
  · have hr : r ≠ regRxAddrP0 := fun hr => h (by rw [hr])
    rw [hw, writeReg, if_neg hr]
    repeat' split
    all_goals rfl
  · rw [hw]

theorem write_reg (c : Chip) {cmd r : Byte} (h : cmd ≠ commandWRegister ||| r) (buf : List Byte) :
    (c.write cmd buf).reg r = c.reg r := by
  obtain ⟨r', rfl, hw⟩ | ⟨txFifo, rxFifo, hw⟩ := c.write_cases cmd buf
  · have hr : r ≠ r' := fun hr => h (by rw [hr])
    rw [hw, writeReg]
    repeat' split
    all_goals first | rfl | exact Function.update_of_ne hr _ _
  · rw [hw]

/-- Only payloads and `FLUSH_TX` change the transmit FIFO. -/
theorem write_txFifo (c : Chip) {cmd : Byte} (h : cmd ≠ commandWTxPayload)
    (hno : cmd ≠ commandWTxPayloadNoAck) (hflush : cmd ≠ commandFlushTx) (buf : List Byte) :
    (c.write cmd buf).txFifo = c.txFifo := by
  unfold write
  rw [if_neg h, if_neg hno, if_neg hflush]
  split
  · rfl
  split
  · unfold writeReg
    repeat' split
    all_goals rfl
  · rfl

/-- What a read can do: take the head of the receive FIFO. -/
theorem read_cases (c : Chip) (cmd : Byte) (len : Nat) (noise : List Byte) :
    ∃ rxFifo, (c.read cmd len noise).1 = { c with rxFifo := rxFifo } := by
  unfold read
  repeat' split
  all_goals exact ⟨_, rfl⟩

/-- A register read, decoded. -/
theorem read_rRegister (c : Chip) {r : Byte} (h : r &&& 0xE0#8 = 0#8) (len : Nat)
    (noise : List Byte) :
    c.read (commandRRegister ||| r) len noise = (c, fit len (c.readReg r) noise) := by
  have hdec : ∀ r : Byte, r &&& 0xE0#8 = 0#8 →
      commandRRegister ||| r ≠ commandRRxPayload ∧ commandRRegister ||| r ≠ commandRRxPlWid ∧
      (commandRRegister ||| r) &&& 0xE0#8 = commandRRegister ∧
      (commandRRegister ||| r) &&& 0x1F#8 = r := by decide
  obtain ⟨h1, h2, h3, h4⟩ := hdec r h
  simp only [read, if_neg h1, if_neg h2, if_pos h3, h4]

private theorem bit_status_aux : ∀ (a b c d : Bool) (p : BitVec 3),
    let s : Byte := BitVec.ofBool false ++ BitVec.ofBool a ++ BitVec.ofBool b ++
      BitVec.ofBool c ++ p ++ BitVec.ofBool d
    bit s 6 = a ∧ bit s 5 = b ∧ bit s 4 = c ∧ bit s 0 = d := by
  decide

@[simp] theorem bit_status_rxDr (c : Chip) : bit c.status 6 = c.rxDr :=
  (bit_status_aux _ _ _ _ _).1

@[simp] theorem bit_status_txDs (c : Chip) : bit c.status 5 = c.txDs :=
  (bit_status_aux _ _ _ _ _).2.1

@[simp] theorem bit_status_maxRt (c : Chip) : bit c.status 4 = c.maxRt :=
  (bit_status_aux _ _ _ _ _).2.2.1

end Chip

end DsEthComm.Nrf24l01
