import DsEthComm.Conc.Pool
import DsEthComm.Nrf24l01.Basic
import DsEthComm.Nrf24l01.Transport

/-!
# DsEthComm.Nrf24l01.Radio

The radio as its users share it: the chip, the CE pin, the handle
`gs_handle` and the cached address `gs_tx_addr`; what each operation of the
driver does to it; and the system in which `NRF24TxThread`,
`NRF24InterruptThread` and the shell call the driver at the same time.

An SPI operation is one transaction here: `Transport` shows when the two
interface functions are isolated from each other.  A transaction that fails
leaves the chip as it was.
-/

namespace DsEthComm.Nrf24l01

open Conc

/-! ## State -/

/-- The fields of `nrf24l01_handle_t` that change. -/
structure Handle where
  inited : Byte
  finished : Byte
  /-- `receive_callback != NULL`. -/
  callback : Bool
deriving DecidableEq, Repr

structure Radio where
  chip : Chip
  /-- The CE pin. -/
  ce : Bool
  handle : Handle
  gsTxAddr : Addr
  gsTxAddrSet : Byte

/-- What the environment decides about an operation: whether it fails, and
the bytes on the line when the chip has nothing to say. -/
structure Answer where
  fail : Bool
  noise : List Byte

/-- A transaction that succeeds. -/
def Answer.ok : Answer := ⟨false, []⟩

/-- A transaction that succeeds, with noise on the line. -/
def answer (noise : List Byte) : Answer := ⟨false, noise⟩

namespace Radio

def setChip (s : Radio) (c : Chip) : Radio := { s with chip := c }

def setHandle (s : Radio) (h : Handle) : Radio := { s with handle := h }

/-- `nrf24l01_interface_spi_read`, as a transaction. -/
def spiRead (s : Radio) (reg : Byte) (len : Nat) (a : Answer) : Radio × Option (List Byte) :=
  if (Transport.Call.read reg false len).rejected || a.fail then (s, none)
  else
    let x := s.chip.read reg len a.noise
    (s.setChip x.1, some x.2)

/-- `nrf24l01_interface_spi_write`, as a transaction. -/
def spiWrite (s : Radio) (reg : Byte) (buf : List Byte) (a : Answer) : Radio × Bool :=
  if (Transport.Call.write reg (some buf) buf.length (by simp)).rejected || a.fail then (s, false)
  else (s.setChip (s.chip.write reg buf), true)

/-- A read within the size of the interface's buffer. -/
theorem spiRead_of_ok (s : Radio) (reg : Byte) {len : Nat} (h0 : 0 < len) (h33 : len ≤ 33)
    {a : Answer} (ha : a.fail = false) :
    s.spiRead reg len a =
      (s.setChip (s.chip.read reg len a.noise).1, some (s.chip.read reg len a.noise).2) := by
  have hacc : (Transport.Call.read reg false len).rejected = false := by
    simp [Transport.Call.rejected, Transport.spiBufferSize]
    omega
  rw [spiRead, hacc, ha]
  rfl

theorem spiRead_of_fail (s : Radio) (reg : Byte) (len : Nat) {a : Answer} (ha : a.fail = true) :
    s.spiRead reg len a = (s, none) := by
  rw [spiRead, ha, Bool.or_true]
  rfl

/-- A write within the size of the interface's buffer. -/
theorem spiWrite_of_ok (s : Radio) (reg : Byte) {buf : List Byte} (h : buf.length ≤ 33)
    {a : Answer} (ha : a.fail = false) :
    s.spiWrite reg buf a = (s.setChip (s.chip.write reg buf), true) := by
  have hacc : (Transport.Call.write reg (some buf) buf.length (by simp)).rejected = false := by
    simp [Transport.Call.rejected, Transport.spiBufferSize]
    omega
  rw [spiWrite, hacc, ha]
  rfl

theorem spiWrite_of_fail (s : Radio) (reg : Byte) (buf : List Byte) {a : Answer}
    (ha : a.fail = true) : s.spiWrite reg buf a = (s, false) := by
  rw [spiWrite, ha, Bool.or_true]
  rfl

/-- What an operation does.  `nrf24l01_interface_gpio_write` and the
interface functions with an empty body never fail. -/
def perform (s : Radio) (o : Op) (a : Answer) : Radio × o.Res :=
  match o with
  | .spiInit => (s, !a.fail)
  | .spiDeinit => (s, true)
  | .gpioInit => (s, true)
  | .gpioDeinit => (s, true)
  | .spiRead reg len => s.spiRead reg len a
  | .spiWrite reg buf => s.spiWrite reg buf a
  | .gpioWrite value => ({ s with ce := value }, true)
  | .delayMs _ => (s, ())
  | .debugPrint _ _ => (s, ())
  | .receiveCallback _ _ _ => (s, ())
  | .link callback => (s.setHandle { inited := 0, finished := 0, callback := callback }, ())
  | .hasCallback => (s, s.handle.callback)
  | .getInited => (s, s.handle.inited)
  | .setInited value => (s.setHandle { s.handle with inited := value }, ())
  | .getFinished => (s, s.handle.finished)
  | .setFinished value => (s.setHandle { s.handle with finished := value }, ())
  | .getTxAddr => (s, s.gsTxAddr)
  | .getTxAddrSet => (s, s.gsTxAddrSet)
  | .setTxAddr addr => ({ s with gsTxAddr := addr }, ())
  | .setTxAddrSet value => ({ s with gsTxAddrSet := value }, ())

section Perform

variable (s : Radio) {o : Op} (a : Answer)

/-- A transaction that writes: it fails and does nothing, or the chip takes
it. -/
theorem perform_spiWrite (cmd : Byte) (buf : List Byte) :
    s.perform (.spiWrite cmd buf) a = (s, false) ∨
      s.perform (.spiWrite cmd buf) a = (s.setChip (s.chip.write cmd buf), true) := by
  show s.spiWrite cmd buf a = _ ∨ s.spiWrite cmd buf a = _
  unfold spiWrite
  split
  · exact .inl rfl
  · exact .inr rfl

/-- A part of the chip other than the receive FIFO changes only by the
write of a transaction. -/
theorem chip_perform {β : Type} (f : Chip → β)
    (hread : ∀ rxFifo, f { s.chip with rxFifo := rxFifo } = f s.chip)
    (hwrite : ∀ cmd buf, o = .spiWrite cmd buf → f (s.chip.write cmd buf) = f s.chip) :
    f (s.perform o a).1.chip = f s.chip := by
  cases o with
  | spiRead reg len =>
      show f (s.spiRead reg len a).1.chip = _
      obtain ⟨rxFifo, hfifo⟩ := s.chip.read_cases reg len a.noise
      unfold spiRead
      split
      · rfl
      · simp only [hfifo]
        exact hread rxFifo
  | spiWrite cmd buf =>
      obtain hfail | hdone := s.perform_spiWrite a cmd buf
      · rw [hfail]
      · rw [hdone]
        exact hwrite cmd buf rfl
  | _ => rfl

/-- Only its own command changes `TX_ADDR`. -/
theorem txAddr_perform (h : ∀ buf, o ≠ .spiWrite (commandWRegister ||| regTxAddr) buf) :
    (s.perform o a).1.chip.txAddr = s.chip.txAddr := by
  refine s.chip_perform a Chip.txAddr (fun _ => rfl) ?_
  rintro cmd buf rfl
  exact s.chip.write_txAddr (fun hcmd => h buf (by rw [hcmd])) buf

/-- Only its own command changes `RX_ADDR_P0`. -/
theorem rxAddrP0_perform (h : ∀ buf, o ≠ .spiWrite (commandWRegister ||| regRxAddrP0) buf) :
    (s.perform o a).1.chip.rxAddrP0 = s.chip.rxAddrP0 := by
  refine s.chip_perform a Chip.rxAddrP0 (fun _ => rfl) ?_
  rintro cmd buf rfl
  exact s.chip.write_rxAddrP0 (fun hcmd => h buf (by rw [hcmd])) buf

/-- Only `nrf24l01_basic_set_tx_address` changes `gs_tx_addr`. -/
theorem gsTxAddr_perform (h : ∀ addr, o ≠ .setTxAddr addr) :
    (s.perform o a).1.gsTxAddr = s.gsTxAddr := by
  cases o with
  | spiRead reg len =>
      show (s.spiRead reg len a).1.gsTxAddr = _
      unfold spiRead
      split <;> rfl
  | spiWrite cmd buf =>
      show (s.spiWrite cmd buf a).1.gsTxAddr = _
      unfold spiWrite
      split <;> rfl
  | setTxAddr addr => exact absurd rfl (h addr)
  | _ => rfl

/-- The same for `gs_tx_addr_set`. -/
theorem gsTxAddrSet_perform (h : ∀ value, o ≠ .setTxAddrSet value) :
    (s.perform o a).1.gsTxAddrSet = s.gsTxAddrSet := by
  cases o with
  | spiRead reg len =>
      show (s.spiRead reg len a).1.gsTxAddrSet = _
      unfold spiRead
      split <;> rfl
  | spiWrite cmd buf =>
      show (s.spiWrite cmd buf a).1.gsTxAddrSet = _
      unfold spiWrite
      split <;> rfl
  | setTxAddrSet value => exact absurd rfl (h value)
  | _ => rfl

end Perform

/-- A write of an address register, as the radio sees it. -/
theorem perform_writeTxAddr (s : Radio) (addr : Addr) (noise : List Byte) :
    (s.perform (.spiWrite (commandWRegister ||| regTxAddr) addr.toList.reverse)
      (answer noise)).1 = s.setChip { s.chip with txAddr := addr.reverse } := by
  have hlen : addr.toList.reverse.length ≤ 33 := by simp
  show (s.spiWrite _ _ _).1 = _
  rw [spiWrite_of_ok s _ hlen rfl, Chip.write_wRegister _ (by decide),
    ← Vector.toList_reverse, Chip.writeReg_txAddr]

theorem perform_writeRxAddrP0 (s : Radio) (addr : Addr) (noise : List Byte) :
    (s.perform (.spiWrite (commandWRegister ||| regRxAddrP0) addr.toList.reverse)
      (answer noise)).1 = s.setChip { s.chip with rxAddrP0 := addr.reverse } := by
  have hlen : addr.toList.reverse.length ≤ 33 := by simp
  show (s.spiWrite _ _ _).1 = _
  rw [spiWrite_of_ok s _ hlen rfl, Chip.write_wRegister _ (by decide),
    ← Vector.toList_reverse, Chip.writeReg_rxAddrP0]

/-- Run a driver function alone, without failures, on a silent line. -/
def eval {α : Type} (p : Driver α) (s : Radio) : Radio × α :=
  p.eval (S := driverSig) (fun s o => s.perform o .ok) s

end Radio

/-- `nrf_tx_addr`, the address array of `NRF24TxThread`. -/
def nrfTxAddr : Addr := #v[0x65#8, 0x64#8, 0x6F#8, 0x4E#8, 0x32#8]

/-- Another address, the second of the two that the usage text of `nrf_addr`
gives as examples. -/
def otherAddr : Addr := #v[0xE7#8, 0xE7#8, 0xE7#8, 0xE7#8, 0xE7#8]

/-- A radio at work: initialised, addresses of five bytes, all interrupts
unmasked, nothing sent or received. -/
def sampleRadio : Radio where
  chip :=
    { reg := fun r => if r = regConfig then 0x0E#8 else if r = regSetupAw then 0x03#8 else 0#8
      rxAddrP0 := defaultRxAddr0
      rxAddrP1 := defaultRxAddr1
      txAddr := .replicate 5 0xE7#8
      rxDr := false
      txDs := false
      maxRt := false
      txFifo := []
      rxFifo := [] }
  ce := true
  handle := ⟨1, 0, true⟩
  gsTxAddr := .replicate 5 0#8
  gsTxAddrSet := 0

/-! ## Calls -/

/-- The entry points of the driver. -/
inductive Api where
  | basicInit (type : Role) (callback : Bool)
  | basicDeinit
  | basicSetTxAddress (addr : Addr)
  | basicSend (addr : Addr) (buf : List Byte) (useAck : Bool)
  | basicSent (buf : List Byte) (useAck : Bool)
  | basicSetFrequency (freq : Byte)
  | interruptIrqHandler
  /-- `nrf24l01_send` itself. -/
  | send (buf : List Byte) (useAck : Bool)
deriving DecidableEq

def Api.code : Api → Driver Byte
  | .basicInit type callback => Nrf24l01.basicInit type callback
  | .basicDeinit => Nrf24l01.basicDeinit
  | .basicSetTxAddress addr => Nrf24l01.basicSetTxAddress addr
  | .basicSend addr buf useAck => Nrf24l01.basicSend addr buf useAck
  | .basicSent buf useAck => Nrf24l01.basicSent buf useAck
  | .basicSetFrequency freq => Nrf24l01.basicSetFrequency freq
  | .interruptIrqHandler => Nrf24l01.interruptIrqHandler
  | .send buf useAck => Nrf24l01.send buf useAck

/-- What the radio does by itself, taken as arbitrary: its event bits and
FIFOs change. -/
structure Air where
  rxDr : Bool
  txDs : Bool
  maxRt : Bool
  txFifo : List TxPayload
  rxFifo : List RxPayload
deriving Repr

def Chip.air (c : Chip) (e : Air) : Chip :=
  { c with
    rxDr := e.rxDr, txDs := e.txDs, maxRt := e.maxRt, txFifo := e.txFifo, rxFifo := e.rxFifo }

/-! ## The system -/

/-- The radio, and whether `EVT_NRF24_INTERRUPT` is pending on
`NRF24InterruptThread`. -/
structure World where
  radio : Radio
  pending : Bool

/-- A new state of the radio; a falling edge of the IRQ line makes the event
pending. -/
def World.change (w : World) (r : Radio) : World where
  radio := r
  pending := w.pending || (!w.radio.chip.irqLow && r.chip.irqLow)

/-- The threads call the driver.  `allowed` are the calls of each thread,
`ans` reads off what happens to an operation, `event` what the chip does by
itself.  `NRF24InterruptThread` calls its handler when it has taken the
event in `chEvtWaitOne`. -/
def system {A ε : Type} (allowed : Client → Api → Bool) (ans : A → Answer)
    (event : ε → Chip → Option Chip) : Pool driverSig World Client Api Byte A ε where
  code := Api.code
  enter t i w :=
    if allowed t i then
      match t with
      | .irq => if w.pending then some { w with pending := false } else none
      | _ => some w
    else none
  perform _ _ w o a :=
    let x := w.radio.perform o (ans a)
    (w.change x.1, x.2)
  leave _ _ _ w := w
  env e w := (event e w.radio.chip).map fun c => w.change (w.radio.setChip c)

/-- How a call begins. -/
theorem enter_system {A ε : Type} {allowed : Client → Api → Bool} {ans : A → Answer}
    {event : ε → Chip → Option Chip} {t : Client} {i : Api} {w w' : World}
    (h : (system allowed ans event).enter t i w = some w') :
    allowed t i = true ∧ (t = .irq ∧ w.pending = true ∧ w' = { w with pending := false } ∨
      t ≠ .irq ∧ w' = w) := by
  simp only [system] at h
  by_cases ha : allowed t i = true
  · rw [if_pos ha] at h
    refine ⟨ha, ?_⟩
    cases t with
    | irq =>
        cases hp : w.pending with
        | true =>
            simp only [hp, if_true] at h
            exact .inl ⟨rfl, rfl, (Option.some.inj h).symm⟩
        | false => simp [hp] at h
    | tx | shell => exact .inr ⟨nofun, (Option.some.inj h).symm⟩
  · rw [if_neg ha] at h
    contradiction

end DsEthComm.Nrf24l01
