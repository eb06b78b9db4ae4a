import DsEthComm.Ds5.Report
import DsEthComm.Nrf24l01.Unwind

/-!
# DsEthComm.Nrf24l01.Payload

The way of a payload from a report of the controller to the callback of a
receiver: decoded and trimmed, sent as a datagram and over the radio, where
both ends reverse it.

What a call puts on the bus and what it reports is read off its trace.
-/

namespace DsEthComm.Nrf24l01

open Conc

namespace Payload

open Radio Unwind

/-! ## What a call shows -/

/-- The bytes that `spiSend` and `spiExchange` clock out in one transaction:
the first `len + 1` of the transmit buffer. -/
def clockedOut (c : Transport.Call) : List Byte := c.txImage.take (c.len + 1)

theorem length_of_mem_some (buf : List Byte) : ∀ b ∈ some buf, b.length = buf.length := by
  simp

/-- The bytes of a transaction that writes a payload. -/
def payloadFrame : Op → Option (List Byte)
  | .spiWrite cmd buf =>
      if isPayload cmd then
        some (clockedOut (.write cmd (some buf) buf.length (length_of_mem_some buf)))
      else none
  | _ => none

/-- What the callback is told about a received payload: the pipe and the
bytes. -/
def reception : Op → Option (Byte × List Byte)
  | .receiveCallback .rxDr num buf => some (num, buf)
  | _ => none

section Shown

variable {α β γ : Type} (f : Op → Option γ) (env : Schedule) (s : Radio) (i : Nat)

/-- The operations of a run that `f` selects. -/
def shown (p : Driver α) : List γ := (traceAt env p s i).filterMap f

theorem shown_bind (p : Driver α) (g : α → Driver β) :
    shown f env s i (p.bind g) = shown f env s i p ++
      shown f env (evalAt env p s i).1.1 (evalAt env p s i).1.2 (g (evalAt env p s i).2) := by
  rw [shown, traceAt_bind, List.filterMap_append]
  rfl

theorem shown_ite (c : Prop) [Decidable c] (p q : Driver α) :
    shown f env s i (if c then p else q) =
      if c then shown f env s i p else shown f env s i q := by
  split <;> rfl

theorem shown_checked (hf : f .getInited = none) (h : s.handle.inited = 1) (body : Driver Byte) :
    shown f env s i (checked body) = shown f env s i body := by
  have hget : shown f env s i getInited = [] := by
    show [Op.getInited].filterMap f = []
    simp [hf]
  rw [checked, Prog.bind_eq, shown_bind, hget, evalAt_getInited, if_neg (by simp [h])]
  rfl

/-- Only operations that `f` does not select. -/
def hideMonitor : Monitor driverSig Unit where
  pre _ o := f o = none
  may _ _ _ := True
  next _ _ _ := ()

/-- The program shows nothing. -/
def Hides (p : Driver α) : Prop := p.wp (hideMonitor f) (fun _ _ => True) ()

theorem Hides.shown {f : Op → Option γ} {p : Driver α} (h : Hides f p) :
    shown f env s i p = [] := by
  have hstep : ∀ (x : Radio × Nat) (l : Unit) (o : Op), True → (hideMonitor f).pre l o →
      (hideMonitor f).may l o (performAt env x o).2 ∧ True :=
    fun _ _ _ _ _ => ⟨trivial, trivial⟩
  have htrace := Prog.trace_of_wp (s := (s, i)) hstep h trivial
  refine List.filterMap_eq_nil_iff.mpr fun o ho => ?_
  obtain ⟨_, hpre⟩ := htrace o ho
  exact hpre

end Shown

/-! ## Sending -/

theorem clockedOut_write (cmd : Byte) (buf : List Byte) :
    clockedOut (.write cmd (some buf) buf.length (length_of_mem_some buf)) = cmd :: buf := by
  rw [clockedOut, Transport.Call.take_txImage]
  rfl

theorem hides_setActive (enable : Bool) : Hides payloadFrame (setActive enable) := by
  simp [Hides, setActive, checked, failWith, hideMonitor, payloadFrame]

theorem hides_setAddress {r : Byte} (hr : isPayload (commandWRegister ||| r) = false)
    (addr : List Byte) (len : Byte) (setFailed : String) :
    Hides payloadFrame (setAddress r addr len setFailed) := by
  simp [Hides, setAddress, checked, failWith, hideMonitor, payloadFrame, hr]

theorem hides_awaitAck : Hides payloadFrame awaitAck := by
  have hignores : Ignores (hideMonitor payloadFrame) () := by
    intro o ho
    cases o <;> first | contradiction | exact ⟨rfl, fun _ => rfl⟩
  exact hignores.wp_awaitAck fun _ => trivial

/-- An initialised driver writes the payload of `nrf24l01_send` in one
transaction, reversed. -/
theorem frames_send (env : Schedule) {s : Radio} (h : s.handle.inited = 1) (i : Nat)
    {buf : List Byte} (hlen : buf.length ≤ 32) (useAck : Bool) :
    shown payloadFrame env s i (send buf useAck) = [payloadCommand useAck :: buf.reverse] := by
  have hack : awaitAck.wp (hideMonitor payloadFrame) (fun _ _ => True) () := hides_awaitAck
  have hset : ∀ s i, shown payloadFrame env s i (setFinished 0) = [] := fun _ _ => rfl
  have hgpio : ∀ s i, shown payloadFrame env s i (gpioWrite false) = [] := fun _ _ => rfl
  have hwrite : ∀ s i, shown payloadFrame env s i
      (Nrf24l01.spiWrite (payloadCommand useAck) buf.reverse) =
      [payloadCommand useAck :: buf.reverse] := by
    intro s i
    have hframe : payloadFrame (.spiWrite (payloadCommand useAck) buf.reverse) =
        some (payloadCommand useAck :: buf.reverse) := by
      rw [payloadFrame, if_pos (isPayload_payloadCommand useAck), clockedOut_write]
    show [Op.spiWrite (payloadCommand useAck) buf.reverse].filterMap payloadFrame = _
    rw [List.filterMap_cons_some hframe]
    rfl
  -- what follows the write shows nothing, whether or not it succeeded
  have htail : ∀ ok : Bool, Hides payloadFrame (do
      if !ok then failWith "nrf24l01: set tx payload failed.\n" [] 1
      else
        let ok ← gpioWrite true
        if !ok then failWith "nrf24l01: gpio write failed.\n" [] 1
        else do
          let _ ← Nrf24l01.spiRead (commandRRegister ||| regFeature) 1
          if useAck then awaitAck else pure 0) := by
    intro ok
    simp [Hides, failWith, hideMonitor, payloadFrame] at hack ⊢
    exact fun _ _ => hack
  rw [send, shown_checked _ _ _ _ rfl h, shown_ite, if_neg (by omega), Prog.bind_eq, shown_bind,
    hset, Prog.bind_eq, shown_bind, hgpio, evalAt_setFinished, evalAt_gpioWrite]
  simp only [Bool.not_true, Bool.false_eq_true, if_false]
  rw [Prog.bind_eq, shown_bind, reverseBuffer_eq, hwrite, (htail _).shown]
  rfl

/-- `nrf24l01_basic_send` programs the address and sends. -/
theorem frames_basicSend {env : Schedule} (henv : ∀ i, env.fails i = false) {s : Radio}
    (h : Addressable s) (addr : Addr) {buf : List Byte} (hlen : buf.length ≤ 32)
    (useAck : Bool) :
    shown payloadFrame env s 0 (basicSend addr buf useAck) =
      [payloadCommand useAck :: buf.reverse] := by
  have hok : ∀ i, SetterOk env i := fun i => ⟨henv i, henv (i + 1)⟩
  have hlow : Addressable { s with ce := false } := ⟨h.inited, h.width⟩
  have htx : Hides payloadFrame (setTxAddress addr defaultAddressLen) :=
    hides_setAddress (by decide) _ _ _
  have hrx : Hides payloadFrame (setRxPipe0Address addr defaultAddressLen) :=
    hides_setAddress (by decide) _ _ _
  rw [basicSend, Prog.bind_eq, shown_bind, (hides_setActive false).shown,
    evalAt_setActive env s 0 h.inited]
  simp only [ne_eq, not_true_eq_false, if_false, Prog.bind_eq]
  rw [shown_bind, htx.shown, evalAt_setTxAddress_ok env _ 0 hlow (hok 0)]
  simp only [not_true_eq_false, if_false]
  rw [shown_bind, hrx.shown, evalAt_setRxPipe0Address_ok env _ _ (hlow.half addr) (hok _)]
  simp only [not_true_eq_false, if_false, zeroOrOne, Prog.bind_eq]
  rw [shown_bind, frames_send env (by exact h.inited) _ hlen, shown_ite]
  split <;> rfl

/-! ## Receiving -/

/-- A receiver with a payload at the head of its FIFO. -/
structure Holds (pipe : BitVec 3) (bytes : List Byte) (s : Radio) : Prop where
  callback : s.handle.callback = true
  rxFifo : ∃ rest, s.chip.rxFifo = ⟨pipe, bytes⟩ :: rest

variable {env : Schedule} {s : Radio} {pipe : BitVec 3} {bytes : List Byte}

theorem evalAt_notify (env : Schedule) (s : Radio) (i : Nat) (type : Interrupt) (num : Byte)
    (buf : List Byte) : evalAt env (notify type num buf) s i = ((s, i), ()) := by
  have hget : evalAt env hasCallback s i = ((s, i), s.handle.callback) := rfl
  rw [notify, Prog.bind_eq, evalAt_bind, hget, evalAt_ite]
  split <;> rfl

/-- The other notifications are no receptions. -/
theorem hides_notify {type : Interrupt} (htype : type ≠ .rxDr) (num : Byte) (buf : List Byte) :
    (notify type num buf).wp (hideMonitor reception) (fun _ _ => True) () := by
  cases type with
  | rxDr => contradiction
  | _ => simp [notify, hideMonitor, reception]

theorem receptions_notify (h : s.handle.callback = true) (i : Nat) (num : Byte)
    (buf : List Byte) : shown reception env s i (notify .rxDr num buf) = [(num, buf)] := by
  have hget : evalAt env hasCallback s i = ((s, i), s.handle.callback) := rfl
  rw [notify, Prog.bind_eq, shown_bind, hget, h, if_pos rfl]
  rfl

/-- The width of the payload at the head. -/
theorem evalAt_readWidth (henv : ∀ i, env.fails i = false) (h : Holds pipe bytes s) (i : Nat) :
    evalAt env (Nrf24l01.spiRead commandRRxPlWid 1) s i =
      ((s, i + 1), some [BitVec.ofNat 8 bytes.length]) := by
  obtain ⟨rest, hfifo⟩ := h.rxFifo
  have hop : evalAt env (Nrf24l01.spiRead commandRRxPlWid 1) s i =
      (((s.spiRead commandRRxPlWid 1 (env.answer i)).1, i + 1),
        (s.spiRead commandRRxPlWid 1 (env.answer i)).2) := rfl
  rw [hop, spiRead_of_ok s _ (by decide) (by decide) (henv i), Chip.read_rRxPlWid,
    Chip.read_rRxPlWid_cons hfifo]
  rfl

/-- Reading as many bytes as the payload at the head has. -/
theorem read_payload {c : Chip} {p : RxPayload} {rest : List RxPayload}
    (h : c.rxFifo = p :: rest) (noise : List Byte) :
    (c.read commandRRxPayload p.bytes.length noise).2 = p.bytes := by
  unfold Chip.read
  rw [if_pos rfl, h]
  show Chip.fit p.bytes.length p.bytes noise = p.bytes
  rw [Chip.fit, List.append_assoc, List.take_left]

theorem evalAt_readPayload (henv : ∀ i, env.fails i = false) (h : Holds pipe bytes s)
    (hpos : 0 < bytes.length) (hlen : bytes.length ≤ 32) (i : Nat) :
    evalAt env (Nrf24l01.spiRead commandRRxPayload bytes.length) s i =
      ((s.setChip { s.chip with rxFifo := s.chip.rxFifo.tail }, i + 1), some bytes) := by
  obtain ⟨rest, hfifo⟩ := h.rxFifo
  have hop : evalAt env (Nrf24l01.spiRead commandRRxPayload bytes.length) s i =
      (((s.spiRead commandRRxPayload bytes.length (env.answer i)).1, i + 1),
        (s.spiRead commandRRxPayload bytes.length (env.answer i)).2) := rfl
  rw [hop, spiRead_of_ok s _ hpos (by omega) (henv i), Chip.read_rRxPayload,
    read_payload (p := ⟨pipe, bytes⟩) hfifo]

/-- The receive branch reports the payload at the head, reversed. -/
theorem receptions_irqReceive (henv : ∀ i, env.fails i = false) (h : Holds pipe bytes s)
    (hpos : 0 < bytes.length) (hlen : bytes.length ≤ 32) (prev : Byte) (i : Nat) :
    shown reception env s i (irqReceive prev) = [((prev >>> 1) &&& 0x7#8, bytes.reverse)] := by
  have hwidth : (BitVec.ofNat 8 bytes.length).toNat = bytes.length := by
    rw [BitVec.toNat_ofNat]
    omega
  have hsmall : ¬ 32#8 < BitVec.ofNat 8 bytes.length := by
    rw [BitVec.lt_def, hwidth]
    simpa using hlen
  have hread : ∀ s i len cmd, shown reception env s i (Nrf24l01.spiRead cmd len) = [] :=
    fun _ _ _ _ => rfl
  have hdone : Hides reception irqDone := by
    simp [Hides, irqDone, failWith, hideMonitor, reception]
  rw [irqReceive, Prog.bind_eq, shown_bind, hread, evalAt_readWidth henv h]
  simp only [List.getD_cons_zero, if_neg hsmall]
  rw [irqReadPayload, Prog.bind_eq, shown_bind, hread, hwidth, evalAt_readPayload henv h hpos hlen]
  simp only [reverseBuffer_eq, Prog.bind_eq]
  rw [shown_bind, receptions_notify (by exact h.callback), hdone.shown]
  rfl

/-- The branches before the receive branch report nothing received and
leave the FIFO alone. -/
theorem receptions_irqServe (henv : ∀ i, env.fails i = false) (h : Holds pipe bytes s)
    (hpos : 0 < bytes.length) (hlen : bytes.length ≤ 32) {prev : Byte} (hprev : bit prev 6 = true)
    (i : Nat) :
    shown reception env s i (irqServe prev) = [((prev >>> 1) &&& 0x7#8, bytes.reverse)] := by
  have htail : ∀ s i, Holds pipe bytes s →
      shown reception env s i (irqTail prev) = [((prev >>> 1) &&& 0x7#8, bytes.reverse)] := by
    intro s i h
    rw [irqTail, if_pos hprev, receptions_irqReceive henv h hpos hlen]
  have hset : ∀ s i value, shown reception env s i (setFinished value) = [] := fun _ _ _ => rfl
  have hother : ∀ s i type num buf, type ≠ .rxDr →
      shown reception env s i (notify type num buf) = [] :=
    fun s i type num buf htype => Hides.shown env s i (hides_notify htype num buf)
  have hsent : ∀ s i, Holds pipe bytes s →
      shown reception env s i (irqSent prev) = [((prev >>> 1) &&& 0x7#8, bytes.reverse)] := by
    intro s i h
    rw [irqSent]
    split
    · rw [Prog.bind_eq, shown_bind, hset, evalAt_setFinished, Prog.bind_eq, shown_bind,
        hother _ _ _ _ _ (by decide), evalAt_notify]
      exact htail (s.setHandle { s.handle with finished := 1 }) i ⟨h.callback, h.rxFifo⟩
    · exact htail s i h
  have hmaxRt : ∀ s i, Holds pipe bytes s →
      shown reception env s i (irqMaxRt prev) = [((prev >>> 1) &&& 0x7#8, bytes.reverse)] := by
    intro s i h
    have hflush : shown reception env s i (Nrf24l01.spiWrite commandFlushTx []) = [] := rfl
    rw [irqMaxRt]
    split
    · rw [Prog.bind_eq, shown_bind, hflush, evalAt_spiWrite env s i (by simp), henv i]
      simp only [Bool.false_eq_true, if_false, Bool.not_true, Prog.bind_eq]
      rw [shown_bind, hset, evalAt_setFinished, shown_bind, hother _ _ _ _ _ (by decide),
        evalAt_notify]
      exact hsent ((s.setChip (s.chip.write commandFlushTx [])).setHandle
        { s.handle with finished := 2 }) (i + 1) ⟨h.callback, h.rxFifo⟩
    · exact hsent s i h
  rw [irqServe]
  split
  · rw [Prog.bind_eq, shown_bind, hother _ _ _ _ _ (by decide), evalAt_notify, hmaxRt _ _ h]
    rfl
  · exact hmaxRt s i h

/-- The pipe number in `STATUS` is that of the payload at the head. -/
theorem pipe_of_status {c : Chip} {p : RxPayload} {rest : List RxPayload}
    (h : c.rxFifo = p :: rest) : (c.status >>> 1) &&& 0x7#8 = p.pipe.zeroExtend 8 := by
  have hbits : ∀ (a b c d : Bool) (p : BitVec 3),
      ((BitVec.ofBool false ++ BitVec.ofBool a ++ BitVec.ofBool b ++ BitVec.ofBool c ++ p ++
        BitVec.ofBool d : Byte) >>> 1) &&& 0x7#8 = p.zeroExtend 8 := by decide
  have hpno : c.rxPNo = p.pipe := by rw [Chip.rxPNo, h]
  rw [Chip.status, hpno]
  exact hbits _ _ _ _ _

/-- **Reception.**  An initialised receiver that finds `RX_DR` set reports
the payload at the head of its FIFO once, reversed, with its pipe. -/
theorem receptions_irqHandler (henv : ∀ i, env.fails i = false) (hinit : s.handle.inited = 1)
    (h : Holds pipe bytes s) (hdr : s.chip.rxDr = true) (hpos : 0 < bytes.length)
    (hlen : bytes.length ≤ 32) (i : Nat) :
    shown reception env s i irqHandler = [(pipe.zeroExtend 8, bytes.reverse)] := by
  obtain ⟨rest, hfifo⟩ := h.rxFifo
  have hgpio : shown reception env s i (gpioWrite false) = [] := rfl
  have hread : ∀ s i, shown reception env s i
      (Nrf24l01.spiRead (commandRRegister ||| regStatus) 1) = [] := fun _ _ => rfl
  have hwrite : ∀ s i buf, shown reception env s i
      (Nrf24l01.spiWrite (commandWRegister ||| regStatus) buf) = [] := fun _ _ _ => rfl
  have hstatus : ∀ c : Chip, (c.readReg regStatus).getD 0 0 = c.status := fun _ => rfl
  rw [irqHandler, shown_checked _ _ _ _ rfl hinit, Prog.bind_eq, shown_bind, hgpio,
    evalAt_gpioWrite]
  simp only [Bool.not_true, Bool.false_eq_true, if_false]
  rw [Prog.bind_eq, shown_bind, hread, evalAt_readRegister env _ i (by decide), henv i, hstatus]
  simp only [Bool.false_eq_true, if_false, List.getD_cons_zero, Prog.bind_eq]
  rw [shown_bind, hwrite, evalAt_writeRegister env _ (i + 1) (by decide) (by simp), henv (i + 1)]
  simp only [Bool.false_eq_true, if_false, Bool.not_true]
  have hprev : bit s.chip.status 6 = true := by rw [Chip.bit_status_rxDr, hdr]
  have hserve := receptions_irqServe henv
    (s := Radio.setChip { s with ce := false } (s.chip.writeReg regStatus [s.chip.status]))
    ⟨h.callback, h.rxFifo⟩ hpos hlen hprev (i + 1 + 1)
  rw [pipe_of_status hfifo] at hserve
  exact hserve

/-! ## From the report to the callback -/

/-- What `UdpServerThread` passes to `sendto`: `sizeof(PS5Data)` bytes of
its trimmed copy. -/
def udpDatagram (full : List Byte) : List Byte :=
  (Ds5.convertToTrimmed full).take Ds5.sizeofPS5Data

/-- The call of `NRF24TxThread` with its trimmed copy. -/
def nrfSend (full : List Byte) : Driver Byte :=
  basicSend nrfTxAddr ((Ds5.convertToTrimmed full).take Ds5.sizeofPS5Data) false

/-- A receiver about to be told by `RX_DR` of the payload at the head of its
FIFO, with no transaction failing. -/
structure Receives (env : Schedule) (pipe : BitVec 3) (bytes : List Byte) (s : Radio) : Prop where
  fails : ∀ i, env.fails i = false
  inited : s.handle.inited = 1
  holds : Holds pipe bytes s
  rxDr : s.chip.rxDr = true

theorem length_payload (r : Ds5.HidReport) : r.payload.length = 31 := by
  rw [Ds5.HidReport.payload, List.length_take, List.length_drop, r.size_buf]
  rfl

theorem take_payload (r : Ds5.HidReport) : r.payload.take Ds5.sizeofPS5Data = r.payload := by
  have hle : r.payload.length ≤ Ds5.sizeofPS5Data :=
    Nat.le_of_eq ((length_payload r).trans Ds5.sizeofPS5Data_eq.symm)
  exact List.take_of_length_le hle

/-- What is received is what was sent. -/
theorem receptions_reverse {env : Schedule} {s : Radio} {pipe : BitVec 3} {buf : List Byte}
    (h : Receives env pipe buf.reverse s) (hpos : 1 ≤ buf.length) (hlen : buf.length ≤ 32)
    (i : Nat) : shown reception env s i irqHandler = [(pipe.zeroExtend 8, buf)] := by
  have hsize : buf.reverse.length = buf.length := List.length_reverse
  rw [receptions_irqHandler h.fails h.inited h.holds h.rxDr (by omega) (by omega),
    List.reverse_reverse]

/-- **Payload agreement.**  An accepted report gives its bytes 1..31 to the
datagram and, reversed after the command, to one transaction of the radio;
a receiver that finds them reversed in its FIFO reports them as they were,
with their pipe.  Whatever `nrf24l01_send` writes, the handler of a receiver
reports the buffer it was called with. -/
theorem payload_agrees :
    (∀ r : Ds5.HidReport, r.buf.head? = some 0x01#8 → 41 ≤ r.len →
      ∃ full, Ds5.ds5FromHidReport r = some full ∧
        Ds5.convertToTrimmed full = r.payload ∧ r.payload.length = 31 ∧
        udpDatagram full = r.payload ∧
        (∀ env s, (∀ i, env.fails i = false) → Addressable s →
          shown payloadFrame env s 0 (nrfSend full) =
            [commandWTxPayloadNoAck :: r.payload.reverse]) ∧
        ∀ env s pipe, Receives env pipe r.payload.reverse s →
          shown reception env s 0 irqHandler = [(pipe.zeroExtend 8, r.payload)]) ∧
    ∀ (buf : List Byte) (useAck : Bool), 1 ≤ buf.length → buf.length ≤ 32 →
      ∀ env s, s.handle.inited = 1 → ∃ written,
        shown payloadFrame env s 0 (send buf useAck) = [payloadCommand useAck :: written] ∧
        ∀ env' s' pipe, Receives env' pipe written s' →
          shown reception env' s' 0 irqHandler = [(pipe.zeroExtend 8, buf)] := by
  refine ⟨fun r hid hlen => ?_, fun buf useAck hpos hlen env s h => ?_⟩
  · have haccepted : ¬ r.Rejected := by
      rintro (hshort | hother)
      · omega
      · exact hother hid
    obtain ⟨full, hfull⟩ : ∃ full, Ds5.ds5FromHidReport r = some full :=
      Option.ne_none_iff_exists'.mp fun hnone =>
        haccepted (Ds5.ds5FromHidReport_eq_none.mp hnone)
    have htrimmed := Ds5.convertToTrimmed_of_ds5FromHidReport hfull
    have hsize := length_payload r
    refine ⟨full, hfull, htrimmed, hsize, ?_, ?_, ?_⟩
    · rw [udpDatagram, htrimmed, take_payload]
    · intro env s henv h
      rw [nrfSend, htrimmed, take_payload,
        frames_basicSend henv h nrfTxAddr (by omega)]
      rfl
    · intro env s pipe h
      exact receptions_reverse h (by omega) (by omega) 0
  · refine ⟨buf.reverse, frames_send env h 0 hlen useAck, fun env' s' pipe h' => ?_⟩
    exact receptions_reverse h' hpos hlen 0

/-- A receiver with one payload on pipe 1. -/
def sampleReceiver (bytes : List Byte) : Radio :=
  sampleRadio.setChip { sampleRadio.chip with rxDr := true, rxFifo := [⟨1#3, bytes⟩] }

theorem payload_agrees_filled :
    let r := Ds5.HidReport.filled 0x01#8 0x5A#8
    shown reception (.failingAt []) (sampleReceiver r.payload.reverse) 0 irqHandler =
      [(1#8, r.payload)] := by
  intro r
  obtain ⟨full, -, -, -, -, -, hreceived⟩ := payload_agrees.1 r rfl (by decide)
  exact hreceived (.failingAt []) (sampleReceiver r.payload.reverse) 1#3
    ⟨fun _ => rfl, rfl, ⟨rfl, [], rfl⟩, rfl⟩

end Payload

end DsEthComm.Nrf24l01
