import DsEthComm.Nrf24l01.Driver

/-!
# DsEthComm.Nrf24l01.Basic

The functions of `nrf24l01_basic.c`: the radio as the rest of the firmware
uses it, with the default configuration of `nrf24l01_basic.h` and the
cached transmit address `gs_tx_addr`.
-/

namespace DsEthComm.Nrf24l01

open Conc

/-! ## Defaults -/

/-- `nrf24l01_type_t`. -/
inductive Role where
  | tx
  | rx
deriving DecidableEq, Repr

def defaultAddressWidth : AddressWidth := .bytes5
/-- In microseconds. -/
def defaultRetransmitDelay : Nat := 750
def defaultRetransmitCount : Byte := 10#8
def defaultChannelFrequency : Byte := 94#8
def defaultDataRate : DataRate := .rate2M
def defaultOutputPower : OutputPower := .zeroDbm
def defaultPayload : Byte := 32#8
def defaultRxAddr0 : Addr := #v[0x1A#8, 0x01#8, 0x02#8, 0x03#8, 0x00#8]
def defaultRxAddr1 : Addr := #v[0x1B#8, 0x01#8, 0x02#8, 0x03#8, 0x01#8]
def defaultRxAddr2 : Addr := #v[0x1B#8, 0x01#8, 0x02#8, 0x03#8, 0x02#8]
def defaultRxAddr3 : Addr := #v[0x1B#8, 0x01#8, 0x02#8, 0x03#8, 0x03#8]
def defaultRxAddr4 : Addr := #v[0x1B#8, 0x01#8, 0x02#8, 0x03#8, 0x04#8]
def defaultRxAddr5 : Addr := #v[0x1B#8, 0x01#8, 0x02#8, 0x03#8, 0x05#8]

/-- `NRF24L01_BASIC_DEFAULT_ADDRESS_WIDTH + 2`. -/
def defaultAddressLen : Byte := defaultAddressWidth.val + 2

/-- The setters of addresses take all five bytes. -/
theorem take_defaultAddressLen (addr : Addr) :
    addr.toList.take defaultAddressLen.toNat = addr.toList := by
  have hlen : addr.toList.length ≤ defaultAddressLen.toNat := by
    rw [Vector.length_toList]
    decide
  exact List.take_of_length_le hlen

/-! ## Initialisation -/

/-- The mode of each type. -/
def Role.mode : Role → Mode
  | .tx => .tx
  | .rx => .rx

/-- The steps of `nrf24l01_basic_init` after `nrf24l01_init`, each with the
message printed when it fails.  All switches default to
`NRF24L01_BOOL_TRUE`. -/
def basicInitSteps (type : Role) : List (Driver Byte × String) :=
  let config := "nrf24l01: set config failed.\n"
  let ack := "nrf24l01: set auto acknowledgment failed.\n"
  let pipe := "nrf24l01: set rx pipe failed.\n"
  let delay := "nrf24l01: auto retransmit delay failed.\n"
  let clear := "nrf24l01: clear interrupt failed.\n"
  let dynamic := "nrf24l01: set pipe dynamic payload failed.\n"
  [(setActive false, "nrf24l01: set active failed.\n"),
    (setConfig .pwrUp true, config),
    (setConfig .crco true, config),
    (setConfig .enCrc true, config),
    (setConfig .maskMaxRt true, config),
    (setConfig .maskTxDs true, config),
    (setConfig .maskRxDr true, config),
    (setMode type.mode, "nrf24l01: set mode failed.\n"),
    (setAutoAcknowledgment 0 true, ack),
    (setAutoAcknowledgment 1 true, ack),
    (setAutoAcknowledgment 2 true, ack),
    (setAutoAcknowledgment 3 true, ack),
    (setAutoAcknowledgment 4 true, ack),
    (setAutoAcknowledgment 5 true, ack),
    (setRxPipe 0 true, pipe),
    (setRxPipe 1 true, pipe),
    (setRxPipe 2 true, pipe),
    (setRxPipe 3 true, pipe),
    (setRxPipe 4 true, pipe),
    (setRxPipe 5 true, pipe),
    (setAddressWidth defaultAddressWidth, "nrf24l01: set address width failed.\n"),
    (autoRetransmitDelayConvertToRegister, delay),
    (setAutoRetransmitDelay (autoRetransmitDelayToRegister defaultRetransmitDelay), delay),
    (setAutoRetransmitCount defaultRetransmitCount,
      "nrf24l01: auto retransmit count failed.\n"),
    (setChannelFrequency defaultChannelFrequency,
      "nrf24l01: set channel frequency failed.\n"),
    (setContinuousCarrierTransmit false,
      "nrf24l01: set continuous carrier transmit failed.\n"),
    (setForcePllLockSignal false, "nrf24l01: set force pll lock signal failed.\n"),
    (setDataRate defaultDataRate, "nrf24l01: set data rate 2M failed.\n"),
    (setOutputPower defaultOutputPower, "nrf24l01: set output power failed.\n"),
    (clearInterrupt .rxDr, clear),
    (clearInterrupt .txDs, clear),
    (clearInterrupt .maxRt, clear),
    (clearInterrupt .txFull, clear),
    (setPipe0PayloadNumber defaultPayload, "nrf24l01: set pipe 0 payload number failed.\n"),
    (setPipe1PayloadNumber defaultPayload, "nrf24l01: set pipe 1 payload number failed.\n"),
    (setPipe2PayloadNumber defaultPayload, "nrf24l01: set pipe 2 payload number failed.\n"),
    (setPipe3PayloadNumber defaultPayload, "nrf24l01: set pipe 3 payload number failed.\n"),
    (setPipe4PayloadNumber defaultPayload, "nrf24l01: set pipe 4 payload number failed.\n"),
    (setPipe5PayloadNumber defaultPayload, "nrf24l01: set pipe 5 payload number failed.\n"),
    (setPipeDynamicPayload 0 true, dynamic),
    (setPipeDynamicPayload 1 true, dynamic),
    (setPipeDynamicPayload 2 true, dynamic),
    (setPipeDynamicPayload 3 true, dynamic),
    (setPipeDynamicPayload 4 true, dynamic),
    (setPipeDynamicPayload 5 true, dynamic),
    (setDynamicPayload true, "nrf24l01: set dynamic payload failed.\n"),
    (setPayloadWithAck true, "nrf24l01: set payload with ack failed.\n"),
    (setTxPayloadWithNoAck true, "nrf24l01: set tx payload with no ack failed.\n"),
    (setRxPipe0Address defaultRxAddr0 defaultAddressLen,
      "nrf24l01: set rx pipe 0 address failed.\n"),
    (setRxPipe1Address defaultRxAddr1 defaultAddressLen,
      "nrf24l01: set rx pipe 1 address failed.\n"),
    (setRxPipe2Address defaultRxAddr2[4], "nrf24l01: set rx pipe 2 address failed.\n"),
    (setRxPipe3Address defaultRxAddr3[4], "nrf24l01: set rx pipe 3 address failed.\n"),
    (setRxPipe4Address defaultRxAddr4[4], "nrf24l01: set rx pipe 4 address failed.\n"),
    (setRxPipe5Address defaultRxAddr5[4], "nrf24l01: set rx pipe 5 address failed.\n"),
    (flushTx, "nrf24l01: flush tx failed.\n"),
    (flushRx, "nrf24l01: flush rx failed.\n"),
    (setActive true, "nrf24l01: set active failed.\n")]

/-- Run the steps; the first that fails prints its message, closes the
driver and ends with 1. -/
def runSteps : List (Driver Byte × String) → Driver Byte
  | [] => pure 0
  | (step, failed) :: steps => do
      let res ← step
      if res ≠ 0 then do
        debugPrint failed []
        let _ ← deinit
        pure 1
      else runSteps steps

/-- `nrf24l01_basic_init`; `callback` is `callback != NULL`. -/
def basicInit (type : Role) (callback : Bool) : Driver Byte := do
  link callback
  let res ← init
  if res ≠ 0 then failWith "nrf24l01: init failed.\n" [] 1 else runSteps (basicInitSteps type)

/-- Turn a status into 0 or 1. -/
def zeroOrOne (p : Driver Byte) : Driver Byte := do
  let res ← p
  if res ≠ 0 then pure 1 else pure 0

/-- `nrf24l01_basic_deinit`. -/
def basicDeinit : Driver Byte := zeroOrOne deinit

/-- `nrf24l01_interrupt_irq_handler`. -/
def interruptIrqHandler : Driver Byte := zeroOrOne irqHandler

/-! ## Operation -/

/-- `nrf24l01_basic_send`. -/
def basicSend (addr : Addr) (buf : List Byte) (useAck : Bool) : Driver Byte := do
  let res ← setActive false
  if res ≠ 0 then failWith "nrf24l01: set active failed. with %d\n" [res.toNat] 1
  else
    let res ← setTxAddress addr defaultAddressLen
    if res ≠ 0 then failWith "nrf24l01: set tx address failed. with %d\n" [res.toNat] 2
    else
      let res ← setRxPipe0Address addr defaultAddressLen
      if res ≠ 0 then failWith "nrf24l01: set rx pipe 0 address failed. with %d\n" [res.toNat] 3
      else zeroOrOne (send buf useAck)

/-- `nrf24l01_basic_set_frequency`. -/
def basicSetFrequency (freq : Byte) : Driver Byte := do
  let res ← setChannelFrequency freq
  if res ≠ 0 then failWith "nrf24l01: set channel frequency failed.\n" [] 1 else pure 0

/-- `nrf24l01_basic_set_tx_address`, of an address that is not `NULL`. -/
def basicSetTxAddress (addr : Addr) : Driver Byte := do
  let res ← setTxAddress addr defaultAddressLen
  if res ≠ 0 then failWith "nrf24l01: set tx address failed. with %d\n" [res.toNat] 1
  else
    let res ← setRxPipe0Address addr defaultAddressLen
    if res ≠ 0 then failWith "nrf24l01: set rx pipe 0 address failed. with %d\n" [res.toNat] 1
    else do
      setTxAddr addr
      setTxAddrSet 1
      pure 0

/-- `nrf24l01_basic_sent`. -/
def basicSent (buf : List Byte) (useAck : Bool) : Driver Byte := do
  let set ← getTxAddrSet
  if set = 0 then
    failWith ("nrf24l01: tx address not set. " ++
      "call nrf24l01_basic_set_tx_address() first.\n") [] 1
  else zeroOrOne (send buf useAck)

end DsEthComm.Nrf24l01
