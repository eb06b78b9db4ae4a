import DsEthComm.Conc.Prog
import DsEthComm.Nrf24l01.Chip

/-!
# DsEthComm.Nrf24l01.Driver

The functions of `nrf24l01.c` that the firmware uses, as programs over the
operations they reach the world with: the SPI and GPIO functions of the
handle, the delay, the debug output, the callback, and the fields of the
handle that other threads read or write.

Every function is called with `&gs_handle`, so the checks for a `NULL`
handle are left out.  The return value is the C status code.
-/

namespace DsEthComm.Nrf24l01

open Conc

/-! ## Enumerations -/

/-- `nrf24l01_config_t`. -/
inductive Config where
  | maskRxDr
  | maskTxDs
  | maskMaxRt
  | enCrc
  | crco
  | pwrUp
deriving DecidableEq, Repr

def Config.bit : Config → Nat
  | .maskRxDr => 6
  | .maskTxDs => 5
  | .maskMaxRt => 4
  | .enCrc => 3
  | .crco => 2
  | .pwrUp => 1

/-- `nrf24l01_mode_t`. -/
inductive Mode where
  | tx
  | rx
deriving DecidableEq, Repr

def Mode.val : Mode → Byte
  | .tx => 0x00#8
  | .rx => 0x01#8

/-- `nrf24l01_pipe_t`. -/
abbrev Pipe := Fin 6

/-- `nrf24l01_address_width_t`. -/
inductive AddressWidth where
  | illegal
  | bytes3
  | bytes4
  | bytes5
deriving DecidableEq, Repr

def AddressWidth.val : AddressWidth → Byte
  | .illegal => 0#8
  | .bytes3 => 1#8
  | .bytes4 => 2#8
  | .bytes5 => 3#8

/-- `nrf24l01_data_rate_t`. -/
inductive DataRate where
  | rate1M
  | rate2M
  | rate250K
deriving DecidableEq, Repr

def DataRate.val : DataRate → Byte
  | .rate1M => 0#8
  | .rate2M => 1#8
  | .rate250K => 2#8

/-- `nrf24l01_output_power_t`. -/
inductive OutputPower where
  | negative18Dbm
  | negative12Dbm
  | negative6Dbm
  | zeroDbm
deriving DecidableEq, Repr

def OutputPower.val : OutputPower → Byte
  | .negative18Dbm => 0#8
  | .negative12Dbm => 1#8
  | .negative6Dbm => 2#8
  | .zeroDbm => 3#8

/-- `nrf24l01_interrupt_t`. -/
inductive Interrupt where
  | rxDr
  | txDs
  | maxRt
  | txFull
deriving DecidableEq, Repr

def Interrupt.bit : Interrupt → Nat
  | .rxDr => 6
  | .txDs => 5
  | .maxRt => 4
  | .txFull => 0

/-! ## Operations -/

/-- What the driver does to the world. -/
inductive Op where
  | spiInit
  | spiDeinit
  | gpioInit
  | gpioDeinit
  /-- `handle->spi_read(reg, buf, len)`. -/
  | spiRead (reg : Byte) (len : Nat)
  /-- `handle->spi_write(reg, buf, len)`. -/
  | spiWrite (reg : Byte) (buf : List Byte)
  /-- `handle->gpio_write(value)`, the CE pin. -/
  | gpioWrite (value : Bool)
  | delayMs (ms : Nat)
  | debugPrint (fmt : String) (args : List Nat)
  /-- `handle->receive_callback(type, num, buf, len)`. -/
  | receiveCallback (type : Interrupt) (num : Byte) (buf : List Byte)
  /-- `memset` of the handle and its links; `callback` is whether
  `receive_callback` is not `NULL`. -/
  | link (callback : Bool)
  | hasCallback
  | getInited
  | setInited (value : Byte)
  | getFinished
  | setFinished (value : Byte)
  | getTxAddr
  | getTxAddrSet
  /-- `memcpy(gs_tx_addr, addr, 5)`. -/
  | setTxAddr (addr : Addr)
  | setTxAddrSet (value : Byte)
deriving DecidableEq

/-- A status is `true` for success; a read returns its bytes or fails. -/
def Op.Res : Op → Type
  | .spiInit | .spiDeinit | .gpioInit | .gpioDeinit => Bool
  | .spiRead _ _ => Option (List Byte)
  | .spiWrite _ _ => Bool
  | .gpioWrite _ => Bool
  | .delayMs _ | .debugPrint _ _ | .receiveCallback _ _ _ | .link _ => Unit
  | .hasCallback => Bool
  | .getInited | .getFinished | .getTxAddrSet => Byte
  | .getTxAddr => Addr
  | .setInited _ | .setFinished _ | .setTxAddr _ | .setTxAddrSet _ => Unit

def driverSig : Sig := ⟨Op, Op.Res⟩

abbrev Driver := Prog driverSig

/-- Perform an operation. -/
abbrev perf (o : Op) : Driver o.Res := Prog.call (S := driverSig) o

abbrev spiInit : Driver Bool := perf .spiInit
abbrev spiDeinit : Driver Bool := perf .spiDeinit
abbrev gpioInit : Driver Bool := perf .gpioInit
abbrev gpioDeinit : Driver Bool := perf .gpioDeinit
abbrev spiRead (reg : Byte) (len : Nat) : Driver (Option (List Byte)) := perf (.spiRead reg len)
abbrev spiWrite (reg : Byte) (buf : List Byte) : Driver Bool := perf (.spiWrite reg buf)
abbrev gpioWrite (value : Bool) : Driver Bool := perf (.gpioWrite value)
abbrev delayMs (ms : Nat) : Driver Unit := perf (.delayMs ms)
abbrev debugPrint (fmt : String) (args : List Nat) : Driver Unit := perf (.debugPrint fmt args)
abbrev receiveCallback (type : Interrupt) (num : Byte) (buf : List Byte) : Driver Unit :=
  perf (.receiveCallback type num buf)
abbrev link (callback : Bool) : Driver Unit := perf (.link callback)
abbrev hasCallback : Driver Bool := perf .hasCallback
abbrev getInited : Driver Byte := perf .getInited
abbrev setInited (value : Byte) : Driver Unit := perf (.setInited value)
abbrev getFinished : Driver Byte := perf .getFinished
abbrev setFinished (value : Byte) : Driver Unit := perf (.setFinished value)
abbrev getTxAddr : Driver Addr := perf .getTxAddr
abbrev getTxAddrSet : Driver Byte := perf .getTxAddrSet
abbrev setTxAddr (addr : Addr) : Driver Unit := perf (.setTxAddr addr)
abbrev setTxAddrSet (value : Byte) : Driver Unit := perf (.setTxAddrSet value)

/-- Print a message and return a status. -/
def failWith (fmt : String) (args : List Nat) (status : Byte) : Driver Byte := do
  debugPrint fmt args
  pure status

/-- `if (handle->inited != 1) return 3;` before the body. -/
def checked (body : Driver Byte) : Driver Byte := do
  let inited ← getInited
  if inited ≠ 1 then pure 3 else body

/-! ## Start and end -/

/-- `nrf24l01_init`.  All links but the callback are set by the caller. -/
def init : Driver Byte := do
  let callback ← hasCallback
  if !callback then failWith "nrf24l01: receive_callback is null.\n" [] 3
  else
    let ok ← gpioInit
    if !ok then failWith "nrf24l01: gpio init failed.\n" [] 4
    else
      let ok ← spiInit
      if !ok then do
        debugPrint "nrf24l01: spi init failed.\n" []
        let _ ← gpioDeinit
        pure 1
      else do
        setInited 1
        pure 0

/-- `nrf24l01_deinit`. -/
def deinit : Driver Byte := checked do
  let ok ← spiWrite commandNop []
  if !ok then failWith "nrf24l01: nop failed.\n" [] 1
  else
    let res ← spiRead (commandRRegister ||| regConfig) 1
    match res with
    | none => failWith "nrf24l01: get config failed.\n" [] 1
    | some buf =>
        let prev := buf.getD 0 0 &&& ~~~(1#8 <<< 1)
        let ok ← spiWrite (commandWRegister ||| regConfig) [prev]
        if !ok then failWith "nrf24l01: set config failed.\n" [] 1
        else
          let ok ← gpioDeinit
          if !ok then failWith "nrf24l01: gpio deinit failed.\n" [] 4
          else
            let ok ← spiDeinit
            if !ok then failWith "nrf24l01: spi deinit failed.\n" [] 5
            else do
              setInited 0
              pure 0

/-- `nrf24l01_set_active`. -/
def setActive (enable : Bool) : Driver Byte := checked do
  let ok ← gpioWrite enable
  if !ok then failWith "nrf24l01: gpio write failed.\n" [] 1 else pure 0

/-! ## Sending -/

/-- `while ((timeout != 0) && (handle->finished == 0))` with its delay of
one millisecond; returns what is left of the timeout. -/
def waitFinished : Nat → Driver Nat
  | 0 => pure 0
  | timeout + 1 => do
      let finished ← getFinished
      if finished = 0 then do
        delayMs 1
        waitFinished timeout
      else pure (timeout + 1)

/-- The value printed for a register; nothing is known of it when the read
failed. -/
def printed (res : Option (List Byte)) : List Nat :=
  match res with
  | some buf => [(buf.getD 0 0).toNat]
  | none => []

/-- The end of `nrf24l01_send` with `use_ack`: wait for the interrupt
handler to set `handle->finished`. -/
def awaitAck : Driver Byte := do
  let timeout ← waitFinished 5000
  if timeout = 0 then do
    let status ← spiRead (commandRRegister ||| regStatus) 1
    debugPrint "nrf24l01: status: %d\n" (printed status)
    let config ← spiRead (commandRRegister ||| regConfig) 1
    debugPrint "nrf24l01: config: %d\n" (printed config)
    failWith "nrf24l01: send timeout.\n" [] 5
  else do
    let finished ← getFinished
    if finished = 1 then pure 0 else failWith "nrf24l01: send failed.\n" [] 1

/-- The command that writes a payload. -/
def payloadCommand (useAck : Bool) : Byte :=
  if useAck then commandWTxPayload else commandWTxPayloadNoAck

/-- The commands that write a payload. -/
def isPayload (cmd : Byte) : Bool := cmd = commandWTxPayload || cmd = commandWTxPayloadNoAck

theorem isPayload_payloadCommand (useAck : Bool) : isPayload (payloadCommand useAck) = true := by
  cases useAck <;> rfl

/-- `nrf24l01_send` of the `len` bytes of `buf`. -/
def send (buf : List Byte) (useAck : Bool) : Driver Byte := checked do
  if buf.length > 32 then failWith "nrf24l01: len is over 32.\n" [] 4
  else do
    setFinished 0
    let ok ← gpioWrite false
    if !ok then failWith "nrf24l01: gpio write failed.\n" [] 1
    else
      let ok ← spiWrite (payloadCommand useAck) (reverseBuffer buf)
      if !ok then failWith "nrf24l01: set tx payload failed.\n" [] 1
      else
        let ok ← gpioWrite true
        if !ok then failWith "nrf24l01: gpio write failed.\n" [] 1
        else do
          let _ ← spiRead (commandRRegister ||| regFeature) 1
          if useAck then awaitAck else pure 0

/-! ## The interrupt handler -/

/-- `if (handle->receive_callback != NULL) handle->receive_callback(...)`. -/
def notify (type : Interrupt) (num : Byte) (buf : List Byte) : Driver Unit := do
  let callback ← hasCallback
  if callback then receiveCallback type num buf else pure ()

/-- An error of the handler: print, raise CE, return 1. -/
def irqFail (fmt : String) : Driver Byte := do
  debugPrint fmt []
  let _ ← gpioWrite true
  pure 1

/-- The last step of the handler. -/
def irqDone : Driver Byte := do
  let ok ← gpioWrite true
  if !ok then failWith "nrf24l01: gpio write failed.\n" [] 1 else pure 0

/-- The payload read of the receive branch, of `width` bytes. -/
def irqReadPayload (prev : Byte) (width : Byte) : Driver Byte := do
  let res ← spiRead commandRRxPayload width.toNat
  match res with
  | none => irqFail "nrf24l01: get rx payload failed.\n"
  | some buffer => do
      let num := (prev >>> 1) &&& 0x7#8
      notify .rxDr num (reverseBuffer buffer)
      irqDone

/-- The branch `if (((prev >> 6) & 0x01) != 0)`.  A width over 32 flushes
the FIFO, and the payload is read all the same. -/
def irqReceive (prev : Byte) : Driver Byte := do
  let res ← spiRead commandRRxPlWid 1
  match res with
  | none => irqFail "nrf24l01: get payload width failed.\n"
  | some buf => do
      let width := buf.getD 0 0
      if 32#8 < width then
        let ok ← spiWrite commandFlushRx []
        if !ok then irqFail "nrf24l01: flush rx failed.\n" else irqReadPayload prev width
      else irqReadPayload prev width

/-- The branches after `TX_DS`. -/
def irqTail (prev : Byte) : Driver Byte :=
  if bit prev 6 then irqReceive prev else irqDone

/-- The branch `if (((prev >> 5) & 0x01) != 0)`. -/
def irqSent (prev : Byte) : Driver Byte :=
  if bit prev 5 then do
    setFinished 1
    notify .txDs 0 []
    irqTail prev
  else irqTail prev

/-- The branch `if (((prev >> 4) & 0x01) != 0)`. -/
def irqMaxRt (prev : Byte) : Driver Byte :=
  if bit prev 4 then do
    let ok ← spiWrite commandFlushTx []
    if !ok then irqFail "nrf24l01: flush tx failed.\n"
    else do
      setFinished 2
      notify .maxRt 0 []
      irqSent prev
  else irqSent prev

/-- The branches on the status byte, the first being `TX_FULL`. -/
def irqServe (prev : Byte) : Driver Byte :=
  if bit prev 0 then do
    notify .txFull 0 []
    irqMaxRt prev
  else irqMaxRt prev

/-- `nrf24l01_irq_handler`. -/
def irqHandler : Driver Byte := checked do
  let ok ← gpioWrite false
  if !ok then failWith "nrf24l01: gpio write failed.\n" [] 1
  else
    let res ← spiRead (commandRRegister ||| regStatus) 1
    match res with
    | none => irqFail "nrf24l01: get status register failed.\n"
    | some buf => do
        let prev := buf.getD 0 0
        let ok ← spiWrite (commandWRegister ||| regStatus) [prev]
        if !ok then irqFail "nrf24l01: set status register failed.\n" else irqServe prev

/-! ## Registers -/

/-- Read a register, change some of its bits and write it back. -/
def readModifyWrite (reg : Byte) (f : Byte → Byte) (getFailed setFailed : String) :
    Driver Byte := do
  let res ← spiRead (commandRRegister ||| reg) 1
  match res with
  | none => failWith getFailed [] 1
  | some buf => do
      let ok ← spiWrite (commandWRegister ||| reg) [f (buf.getD 0 0)]
      if !ok then failWith setFailed [] 1 else pure 0

/-- The setters of some bits of a register. -/
def updateReg (reg : Byte) (f : Byte → Byte) (getFailed setFailed : String) : Driver Byte :=
  checked (readModifyWrite reg f getFailed setFailed)

/-- `prev &= ~(mask << i); prev |= value << i;`. -/
def putBits (mask : Byte) (i : Nat) (value : Byte) (prev : Byte) : Byte :=
  (prev &&& ~~~(mask <<< i)) ||| (value <<< i)

/-- `nrf24l01_bool_t` as a byte. -/
def boolVal (enable : Bool) : Byte := if enable then 1#8 else 0#8

/-- `nrf24l01_set_config`. -/
def setConfig (config : Config) (enable : Bool) : Driver Byte :=
  updateReg regConfig (putBits 1 config.bit (boolVal enable))
    "nrf24l01: get config failed.\n" "nrf24l01: set config failed.\n"

/-- `nrf24l01_set_mode`. -/
def setMode (mode : Mode) : Driver Byte :=
  updateReg regConfig (putBits 1 0 mode.val)
    "nrf24l01: get config failed.\n" "nrf24l01: set config failed.\n"

/-- `nrf24l01_set_auto_acknowledgment`. -/
def setAutoAcknowledgment (pipe : Pipe) (enable : Bool) : Driver Byte :=
  updateReg regEnAa (putBits 1 pipe (boolVal enable))
    "nrf24l01: get auto acknowledgment failed.\n" "nrf24l01: set auto acknowledgment failed.\n"

/-- `nrf24l01_set_rx_pipe`. -/
def setRxPipe (pipe : Pipe) (enable : Bool) : Driver Byte :=
  updateReg regEnRxaddr (putBits 1 pipe (boolVal enable))
    "nrf24l01: get rx address failed.\n" "nrf24l01: set rx address failed.\n"

/-- `nrf24l01_set_address_width`. -/
def setAddressWidth (width : AddressWidth) : Driver Byte :=
  updateReg regSetupAw (putBits 3 0 width.val)
    "nrf24l01: get setup of address widths failed.\n"
    "nrf24l01: set setup of address widths failed.\n"

/-- `nrf24l01_auto_retransmit_delay_convert_to_register`: the status, the
value stored through `reg` being `autoRetransmitDelayToRegister`. -/
def autoRetransmitDelayConvertToRegister : Driver Byte := checked (pure 0)

/-- `(uint8_t)(us / 250)`. -/
def autoRetransmitDelayToRegister (us : Nat) : Byte := BitVec.ofNat 8 (us / 250)

/-- A setter whose argument is checked against a bound first. -/
def bounded (value bound : Byte) (tooLarge : String) (body : Driver Byte) : Driver Byte := checked do
  if bound < value then failWith tooLarge [] 4 else body

/-- `nrf24l01_set_auto_retransmit_delay`. -/
def setAutoRetransmitDelay (delay : Byte) : Driver Byte :=
  bounded delay 0xF "nrf24l01: delay is over 0xF.\n" <|
    readModifyWrite regSetupRetr (putBits 0xF 4 delay)
      "nrf24l01: get setup of automatic retransmission failed.\n"
      "nrf24l01: set setup of automatic retransmission failed.\n"

/-- `nrf24l01_set_auto_retransmit_count`. -/
def setAutoRetransmitCount (count : Byte) : Driver Byte :=
  bounded count 0xF "nrf24l01: count is over 0xF.\n" <|
    readModifyWrite regSetupRetr (putBits 0xF 0 count)
      "nrf24l01: get setup of automatic retransmission failed.\n"
      "nrf24l01: set setup of automatic retransmission failed.\n"

/-- `nrf24l01_set_channel_frequency`. -/
def setChannelFrequency (freq : Byte) : Driver Byte :=
  bounded freq 0x7F "nrf24l01: freq is over 0x7F.\n" <|
    readModifyWrite regRfCh (putBits 0x7F 0 freq)
      "nrf24l01: get rf channel failed.\n" "nrf24l01: set rf channel failed.\n"

/-- `nrf24l01_set_continuous_carrier_transmit`. -/
def setContinuousCarrierTransmit (enable : Bool) : Driver Byte :=
  updateReg regRfSetup (putBits 1 7 (boolVal enable))
    "nrf24l01: get rf setup register failed.\n" "nrf24l01: set rf setup register failed.\n"

/-- `nrf24l01_set_force_pll_lock_signal`. -/
def setForcePllLockSignal (enable : Bool) : Driver Byte :=
  updateReg regRfSetup (putBits 1 4 (boolVal enable))
    "nrf24l01: get rf setup register failed.\n" "nrf24l01: set rf setup register failed.\n"

/-- `nrf24l01_set_data_rate`: the two bits of the rate are not adjacent. -/
def setDataRate (rate : DataRate) : Driver Byte :=
  updateReg regRfSetup
    (fun prev => (prev &&& ~~~(1#8 <<< 5) &&& ~~~(1#8 <<< 3)) |||
      (((rate.val >>> 0) &&& 1#8) <<< 3) ||| (((rate.val >>> 1) &&& 1#8) <<< 5))
    "nrf24l01: get rf setup register failed.\n" "nrf24l01: set rf setup register failed.\n"

/-- `nrf24l01_set_output_power`. -/
def setOutputPower (power : OutputPower) : Driver Byte :=
  updateReg regRfSetup (putBits 3 1 power.val)
    "nrf24l01: get rf setup register failed.\n" "nrf24l01: set rf setup register failed.\n"

/-- `nrf24l01_clear_interrupt`. -/
def clearInterrupt (type : Interrupt) : Driver Byte :=
  updateReg regStatus (putBits 1 type.bit 1)
    "nrf24l01: get status register failed.\n" "nrf24l01: set status register failed.\n"

/-- `nrf24l01_set_pipe_dynamic_payload`. -/
def setPipeDynamicPayload (pipe : Pipe) (enable : Bool) : Driver Byte :=
  updateReg regDynpd (putBits 1 pipe (boolVal enable))
    "nrf24l01: get dynamic payload length register failed.\n"
    "nrf24l01: set dynamic payload length register failed.\n"

/-- A bit of the feature register. -/
def setFeature (i : Nat) (enable : Bool) : Driver Byte :=
  updateReg regFeature (putBits 1 i (boolVal enable))
    "nrf24l01: get feature register failed.\n" "nrf24l01: set feature register failed.\n"

/-- `nrf24l01_set_dynamic_payload`. -/
def setDynamicPayload (enable : Bool) : Driver Byte := setFeature 2 enable

/-- `nrf24l01_set_payload_with_ack`. -/
def setPayloadWithAck (enable : Bool) : Driver Byte := setFeature 1 enable

/-- `nrf24l01_set_tx_payload_with_no_ack`. -/
def setTxPayloadWithNoAck (enable : Bool) : Driver Byte := setFeature 0 enable

/-- Write one byte to a register. -/
def writeByte (reg value : Byte) (setFailed : String) : Driver Byte := do
  let ok ← spiWrite (commandWRegister ||| reg) [value]
  if !ok then failWith setFailed [] 1 else pure 0

/-- `nrf24l01_set_pipe_0_payload_number` and its five siblings. -/
def setPipePayloadNumber (reg num : Byte) (setFailed : String) : Driver Byte :=
  bounded num 0x3F "nrf24l01: num is over 0x3F.\n" (writeByte reg num setFailed)

def setPipe0PayloadNumber (num : Byte) : Driver Byte :=
  setPipePayloadNumber regRxPwP0 num "nrf24l01: set pipe 0 payload number failed.\n"

def setPipe1PayloadNumber (num : Byte) : Driver Byte :=
  setPipePayloadNumber regRxPwP1 num "nrf24l01: set pipe 1 payload number failed.\n"

def setPipe2PayloadNumber (num : Byte) : Driver Byte :=
  setPipePayloadNumber regRxPwP2 num "nrf24l01: set pipe 2 payload number failed.\n"

def setPipe3PayloadNumber (num : Byte) : Driver Byte :=
  setPipePayloadNumber regRxPwP3 num "nrf24l01: set pipe 3 payload number failed.\n"

def setPipe4PayloadNumber (num : Byte) : Driver Byte :=
  setPipePayloadNumber regRxPwP4 num "nrf24l01: set pipe 4 payload number failed.\n"

def setPipe5PayloadNumber (num : Byte) : Driver Byte :=
  setPipePayloadNumber regRxPwP5 num "nrf24l01: set pipe 5 payload number failed.\n"

/-! ## Addresses -/

/-- The setters of the address registers: `len` bytes, reversed, if the
configured address width allows. -/
def setAddress (reg : Byte) (addr : List Byte) (len : Byte) (setFailed : String) : Driver Byte :=
  checked do
    let res ← spiRead (commandRRegister ||| regSetupAw) 1
    match res with
    | none => failWith "nrf24l01: get setup of address widths failed.\n" [] 1
    | some buf => do
        let width := buf.getD 0 0 &&& 3#8
        if width = 0 then failWith "nrf24l01: len is too long with %d.\n" [0] 4
        else if width + 2 < len then
          failWith "nrf24l01: len is too long with %d.\n" [(width + 2).toNat] 4
        else do
          let ok ← spiWrite (commandWRegister ||| reg) (reverseBuffer (addr.take len.toNat))
          if !ok then failWith setFailed [] 1 else pure 0

/-- `nrf24l01_set_tx_address`. -/
def setTxAddress (addr : Addr) (len : Byte) : Driver Byte :=
  setAddress regTxAddr addr.toList len "nrf24l01: set tx address failed.\n"

/-- `nrf24l01_set_rx_pipe_0_address`. -/
def setRxPipe0Address (addr : Addr) (len : Byte) : Driver Byte :=
  setAddress regRxAddrP0 addr.toList len
    "nrf24l01: set receive address data pipe p0 register failed.\n"

/-- `nrf24l01_set_rx_pipe_1_address`. -/
def setRxPipe1Address (addr : Addr) (len : Byte) : Driver Byte :=
  setAddress regRxAddrP1 addr.toList len
    "nrf24l01: set receive address data pipe p1 register failed.\n"

/-- `nrf24l01_set_rx_pipe_2_address`. -/
def setRxPipe2Address (addr : Byte) : Driver Byte :=
  checked (writeByte regRxAddrP2 addr
    "nrf24l01: set receive address data pipe p2 register failed.\n")

/-- `nrf24l01_set_rx_pipe_3_address`. -/
def setRxPipe3Address (addr : Byte) : Driver Byte :=
  checked (writeByte regRxAddrP3 addr
    "nrf24l01: set receive address data pipe p3 register failed.\n")

/-- `nrf24l01_set_rx_pipe_4_address`. -/
def setRxPipe4Address (addr : Byte) : Driver Byte :=
  checked (writeByte regRxAddrP4 addr
    "nrf24l01: set receive address data pipe p4 register failed.\n")

/-- `nrf24l01_set_rx_pipe_5_address`. -/
def setRxPipe5Address (addr : Byte) : Driver Byte :=
  checked (writeByte regRxAddrP5 addr
    "nrf24l01: set receive address data pipe p5 register failed.\n")

/-! ## FIFOs -/

/-- A command without data. -/
def command (cmd : Byte) (failed : String) : Driver Byte := checked do
  let ok ← spiWrite cmd []
  if !ok then failWith failed [] 1 else pure 0

/-- `nrf24l01_flush_tx`. -/
def flushTx : Driver Byte := command commandFlushTx "nrf24l01: flush tx failed.\n"

/-- `nrf24l01_flush_rx`. -/
def flushRx : Driver Byte := command commandFlushRx "nrf24l01: flush rx failed.\n"

/-! ## Preconditions of the operations

One equation for each kind of answer, with the cases of the answer apart. -/

section Wp

variable {L : Type} {M : Monitor driverSig L} {l : L}

@[simp] theorem wp_spiRead (reg : Byte) (len : Nat) (Q : Option (List Byte) → L → Prop) :
    (spiRead reg len).wp M Q l ↔ M.pre l (.spiRead reg len) ∧
      (M.may l (.spiRead reg len) none → Q none (M.next l (.spiRead reg len) none)) ∧
      ∀ buf, M.may l (.spiRead reg len) (some buf) →
        Q (some buf) (M.next l (.spiRead reg len) (some buf)) :=
  and_congr_right fun _ => Option.forall

@[simp] theorem wp_spiWrite (reg : Byte) (buf : List Byte) (Q : Bool → L → Prop) :
    (spiWrite reg buf).wp M Q l ↔ M.pre l (.spiWrite reg buf) ∧
      (M.may l (.spiWrite reg buf) false → Q false (M.next l (.spiWrite reg buf) false)) ∧
      (M.may l (.spiWrite reg buf) true → Q true (M.next l (.spiWrite reg buf) true)) :=
  and_congr_right fun _ => Bool.forall_bool

@[simp] theorem wp_gpioWrite (value : Bool) (Q : Bool → L → Prop) :
    (gpioWrite value).wp M Q l ↔ M.pre l (.gpioWrite value) ∧
      (M.may l (.gpioWrite value) false → Q false (M.next l (.gpioWrite value) false)) ∧
      (M.may l (.gpioWrite value) true → Q true (M.next l (.gpioWrite value) true)) :=
  and_congr_right fun _ => Bool.forall_bool

@[simp] theorem wp_hasCallback (Q : Bool → L → Prop) :
    hasCallback.wp M Q l ↔ M.pre l .hasCallback ∧
      (M.may l .hasCallback false → Q false (M.next l .hasCallback false)) ∧
      (M.may l .hasCallback true → Q true (M.next l .hasCallback true)) :=
  and_congr_right fun _ => Bool.forall_bool

@[simp] theorem wp_spiInit (Q : Bool → L → Prop) :
    spiInit.wp M Q l ↔ M.pre l .spiInit ∧
      (M.may l .spiInit false → Q false (M.next l .spiInit false)) ∧
      (M.may l .spiInit true → Q true (M.next l .spiInit true)) :=
  and_congr_right fun _ => Bool.forall_bool

@[simp] theorem wp_spiDeinit (Q : Bool → L → Prop) :
    spiDeinit.wp M Q l ↔ M.pre l .spiDeinit ∧
      (M.may l .spiDeinit false → Q false (M.next l .spiDeinit false)) ∧
      (M.may l .spiDeinit true → Q true (M.next l .spiDeinit true)) :=
  and_congr_right fun _ => Bool.forall_bool

@[simp] theorem wp_gpioInit (Q : Bool → L → Prop) :
    gpioInit.wp M Q l ↔ M.pre l .gpioInit ∧
      (M.may l .gpioInit false → Q false (M.next l .gpioInit false)) ∧
      (M.may l .gpioInit true → Q true (M.next l .gpioInit true)) :=
  and_congr_right fun _ => Bool.forall_bool

@[simp] theorem wp_gpioDeinit (Q : Bool → L → Prop) :
    gpioDeinit.wp M Q l ↔ M.pre l .gpioDeinit ∧
      (M.may l .gpioDeinit false → Q false (M.next l .gpioDeinit false)) ∧
      (M.may l .gpioDeinit true → Q true (M.next l .gpioDeinit true)) :=
  and_congr_right fun _ => Bool.forall_bool

@[simp] theorem wp_getInited (Q : Byte → L → Prop) :
    getInited.wp M Q l ↔ M.pre l .getInited ∧
      ∀ b : Byte, M.may l .getInited b → Q b (M.next l .getInited b) :=
  Iff.rfl

@[simp] theorem wp_getFinished (Q : Byte → L → Prop) :
    getFinished.wp M Q l ↔ M.pre l .getFinished ∧
      ∀ b : Byte, M.may l .getFinished b → Q b (M.next l .getFinished b) :=
  Iff.rfl

@[simp] theorem wp_getTxAddrSet (Q : Byte → L → Prop) :
    getTxAddrSet.wp M Q l ↔ M.pre l .getTxAddrSet ∧
      ∀ b : Byte, M.may l .getTxAddrSet b → Q b (M.next l .getTxAddrSet b) :=
  Iff.rfl

@[simp] theorem wp_debugPrint (fmt : String) (args : List Nat) (Q : Unit → L → Prop) :
    (debugPrint fmt args).wp M Q l ↔ M.pre l (.debugPrint fmt args) ∧
      (M.may l (.debugPrint fmt args) () → Q () (M.next l (.debugPrint fmt args) ())) :=
  and_congr_right fun _ => ⟨fun h => h (), fun h _ => h⟩

@[simp] theorem wp_delayMs (ms : Nat) (Q : Unit → L → Prop) :
    (delayMs ms).wp M Q l ↔ M.pre l (.delayMs ms) ∧
      (M.may l (.delayMs ms) () → Q () (M.next l (.delayMs ms) ())) :=
  and_congr_right fun _ => ⟨fun h => h (), fun h _ => h⟩

@[simp] theorem wp_receiveCallback (type : Interrupt) (num : Byte) (buf : List Byte) (Q : Unit → L → Prop) :
    (receiveCallback type num buf).wp M Q l ↔ M.pre l (.receiveCallback type num buf) ∧
      (M.may l (.receiveCallback type num buf) () → Q () (M.next l (.receiveCallback type num buf) ())) :=
  and_congr_right fun _ => ⟨fun h => h (), fun h _ => h⟩

@[simp] theorem wp_link (callback : Bool) (Q : Unit → L → Prop) :
    (link callback).wp M Q l ↔ M.pre l (.link callback) ∧
      (M.may l (.link callback) () → Q () (M.next l (.link callback) ())) :=
  and_congr_right fun _ => ⟨fun h => h (), fun h _ => h⟩

@[simp] theorem wp_setInited (value : Byte) (Q : Unit → L → Prop) :
    (setInited value).wp M Q l ↔ M.pre l (.setInited value) ∧
      (M.may l (.setInited value) () → Q () (M.next l (.setInited value) ())) :=
  and_congr_right fun _ => ⟨fun h => h (), fun h _ => h⟩

@[simp] theorem wp_setFinished (value : Byte) (Q : Unit → L → Prop) :
    (setFinished value).wp M Q l ↔ M.pre l (.setFinished value) ∧
      (M.may l (.setFinished value) () → Q () (M.next l (.setFinished value) ())) :=
  and_congr_right fun _ => ⟨fun h => h (), fun h _ => h⟩

@[simp] theorem wp_setTxAddr (addr : Addr) (Q : Unit → L → Prop) :
    (setTxAddr addr).wp M Q l ↔ M.pre l (.setTxAddr addr) ∧
      (M.may l (.setTxAddr addr) () → Q () (M.next l (.setTxAddr addr) ())) :=
  and_congr_right fun _ => ⟨fun h => h (), fun h _ => h⟩

@[simp] theorem wp_setTxAddrSet (value : Byte) (Q : Unit → L → Prop) :
    (setTxAddrSet value).wp M Q l ↔ M.pre l (.setTxAddrSet value) ∧
      (M.may l (.setTxAddrSet value) () → Q () (M.next l (.setTxAddrSet value) ())) :=
  and_congr_right fun _ => ⟨fun h => h (), fun h _ => h⟩

/-! ## Waiting for the acknowledgement

A monitor that ignores the operations of a wait ignores the wait. -/

/-- The operations with which a send waits. -/
def Op.waits : Op → Bool
  | .getFinished | .delayMs _ | .spiRead _ _ | .debugPrint _ _ => true
  | _ => false

/-- The monitor allows the operations of a wait and stays where it is. -/
def Ignores (M : Monitor driverSig L) (l : L) : Prop :=
  ∀ o : Op, o.waits = true → M.pre l o ∧ ∀ r, M.next l o r = l

theorem Ignores.wp_waitFinished (h : Ignores M l) (timeout : Nat) :
    (waitFinished timeout).wp M (fun _ l' => l' = l) l := by
  have hget : ∀ b : Byte, M.next l .getFinished b = l := (h .getFinished rfl).2
  have hdelay : M.next l (.delayMs 1) () = l := (h (.delayMs 1) rfl).2 ()
  induction timeout with
  | zero => rfl
  | succ n ih =>
      simp only [waitFinished, Prog.bind_eq, Prog.wp_bind, wp_getFinished, Prog.wp_ite, wp_delayMs,
        hget, hdelay]
      exact ⟨(h .getFinished rfl).1,
        fun _ _ => ⟨fun _ => ⟨(h (.delayMs 1) rfl).1, fun _ => ih⟩, fun _ => rfl⟩⟩

theorem Ignores.wp_awaitAck (h : Ignores M l) {Q : Byte → L → Prop} (hQ : ∀ r, Q r l) :
    awaitAck.wp M Q l := by
  have hget : ∀ b : Byte, M.next l .getFinished b = l := (h .getFinished rfl).2
  have hread : ∀ cmd (r : Option (List Byte)), M.next l (.spiRead cmd 1) r = l :=
    fun cmd => (h (.spiRead cmd 1) rfl).2
  have hprint : ∀ fmt args, M.next l (.debugPrint fmt args) () = l :=
    fun fmt args => (h (.debugPrint fmt args) rfl).2 ()
  have hget' : M.pre l .getFinished := (h .getFinished rfl).1
  have hread' : ∀ cmd, M.pre l (.spiRead cmd 1) := fun cmd => (h (.spiRead cmd 1) rfl).1
  have hprint' : ∀ fmt args, M.pre l (.debugPrint fmt args) :=
    fun fmt args => (h (.debugPrint fmt args) rfl).1
  rw [awaitAck, Prog.bind_eq, Prog.wp_bind]
  refine Prog.wp_mono ?_ (h.wp_waitFinished 5000)
  rintro timeout l' rfl
  simp [failWith, hget, hget', hread, hread', hprint, hprint', hQ]

end Wp

end DsEthComm.Nrf24l01
