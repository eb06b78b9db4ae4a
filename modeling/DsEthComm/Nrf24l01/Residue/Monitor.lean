import DsEthComm.Nrf24l01.Residue.System

/-!
# DsEthComm.Nrf24l01.Residue.Monitor

The calls of the two threads: in which order a send clears the flag, writes
its payload and reads the flag, and in which order the handler clears
`MAX_RT`, flushes and stores 2.
-/

namespace DsEthComm.Nrf24l01

open Conc

namespace Residue

/-! ## The threads as their monitors see them -/

/-- Where a thread is. -/
inductive Phase where
  /-- A send without acknowledgement. -/
  | noAck
  /-- An acknowledged send before it clears the flag. -/
  | fresh
  /-- The flag is cleared, the payload not written. -/
  | opened
  | written
  /-- The flag was last read as `finished`. -/
  | read (finished : Byte)
  /-- The wait has run out. -/
  | late
  | handler (stage : Stage)

def Phase.stage : Phase → Stage
  | .handler stage => stage
  | _ => .away

/-- The operations that leave the sending side alone. -/
def neutral : Op → Bool
  | .spiWrite _ _ | .setFinished _ | .link _ => false
  | _ => true

/-- The next phase of an acknowledged send. -/
def Phase.nextAck (l : Phase) : (o : Op) → o.Res → Phase
  | .setFinished _, _ => .opened
  | .spiWrite _ _, (r : Bool) => if r then .written else l
  | .spiRead cmd _, _ => if cmd = commandRRegister ||| regStatus then .late else l
  | .getFinished, (r : Byte) => .read r
  | _, _ => l

/-- The flag, once set, is not cleared again while the send waits, and the CE
pin works. -/
def Phase.mayAck (l : Phase) : (o : Op) → o.Res → Prop
  | .getFinished, (r : Byte) => ∀ b, l = .read b → b ≠ 0 → r ≠ 0
  | .gpioWrite _, r => r = true
  | _, _ => True

/-- The payload is written, and the flag may have been read. -/
def Phase.waits (l : Phase) : Prop := l = .written ∨ ∃ b, l = .read b

def ackMonitor : Monitor driverSig Phase where
  pre l o := match (o : Op) with
    | .setFinished value => l = .fresh ∧ value = 0
    | .spiWrite cmd _ => l = .opened ∧ cmd = commandWTxPayload
    | .spiRead cmd _ => cmd = commandRRegister ||| regStatus → l.waits
    | .getFinished => l.waits
    | o => neutral o = true
  may := Phase.mayAck
  next := Phase.nextAck

def noAckMonitor : Monitor driverSig Phase where
  pre l _ := l = .noAck
  may _ _ _ := True
  next l _ _ := l

/-- The handler writes back what it read, and flushes for `MAX_RT` when it is
cleared. -/
def handlerMonitor : Monitor driverSig Phase where
  pre l o := match (o : Op) with
    | .setFinished value => value = 1 ∨ value = 2
    | .spiWrite cmd buf =>
        cmd = commandWRegister ||| regStatus ∧ (l.stage = .due → bit (buf.getD 0 0) 4 = true) ∨
          cmd = commandFlushTx ∧ l.stage = .cleared ∨ cmd = commandFlushRx
    | .spiRead cmd len => cmd = commandRRegister ||| regStatus → len = 1
    | o => neutral o = true
  may _ _ _ := True
  next l o r := .handler (l.stage.next o r)

def monitor : Client → Api → Monitor driverSig Phase
  | .tx, .send _ true => ackMonitor
  | .tx, .send _ false => noAckMonitor
  | .irq, _ => handlerMonitor
  | _, _ => .stuck driverSig Phase

/-- A status and the phase in which it is returned. -/
def Justified (r : Byte) (l : Phase) : Prop :=
  (r = 1 → l = .opened ∨ ∃ b, l = .read b ∧ b ≠ 0 ∧ b ≠ 1) ∧ (r = 5 → l = .late)

def Done : Client → Api → Byte → Phase → Prop
  | .tx, .send _ true => Justified
  | _, _ => fun _ _ => True

/-- The wait ends with the flag read as set, unless it runs out. -/
theorem wp_waitFinished {l : Phase} (hl : l.waits) (timeout : Nat) :
    (waitFinished timeout).wp ackMonitor
      (fun n l => l.waits ∧ (n ≠ 0 → ∃ b, l = .read b ∧ b ≠ 0)) l := by
  induction timeout generalizing l with
  | zero => exact ⟨hl, fun h => absurd rfl h⟩
  | succ n ih =>
      simp only [waitFinished, Prog.bind_eq, Prog.wp_bind, wp_getFinished, Prog.wp_ite,
        wp_delayMs]
      refine ⟨hl, fun b _ => ⟨fun _ => ⟨rfl, fun _ => ih (.inr ⟨b, rfl⟩)⟩, fun hb => ?_⟩⟩
      exact ⟨.inr ⟨b, rfl⟩, fun _ => ⟨b, rfl, hb⟩⟩

theorem wp_awaitAck : awaitAck.wp ackMonitor Justified .written := by
  have hwait := wp_waitFinished (l := .written) (.inl rfl) 5000
  have hconfig : commandRRegister ||| regConfig ≠ commandRRegister ||| regStatus := by decide
  unfold awaitAck
  rw [Prog.bind_eq, Prog.wp_bind]
  refine Prog.wp_mono ?_ hwait
  intro n l hn
  obtain ⟨hwaits, hset⟩ := hn
  rw [Prog.wp_ite]
  refine ⟨fun _ => ?_, fun hn => ?_⟩
  · simp [failWith, ackMonitor, neutral, Phase.nextAck, Phase.mayAck, Justified, hwaits, hconfig]
  · obtain ⟨b, rfl, hb⟩ := hset hn
    simp [failWith, ackMonitor, neutral, Phase.nextAck, Phase.mayAck, Justified, hwaits]
    exact fun _ hset hne => ⟨hset hb, hne⟩

theorem wp_send_ack (buf : List Byte) : (send buf true).wp ackMonitor Justified .fresh := by
  have hawait := wp_awaitAck
  have hfeature : commandRRegister ||| regFeature ≠ commandRRegister ||| regStatus := by decide
  simp [send, checked, failWith, ackMonitor, neutral, Phase.nextAck, Phase.mayAck, Justified,
    payloadCommand, hfeature]
  exact fun _ _ _ => hawait

theorem wp_send_noAck (buf : List Byte) :
    (send buf false).wp noAckMonitor (fun _ _ => True) .noAck := by
  simp [send, checked, failWith, noAckMonitor]

/-- The end of the handler. -/
theorem wp_irqTail (prev : Byte) :
    (irqTail prev).wp handlerMonitor (fun _ _ => True) (.handler .away) := by
  have hwidth : commandRRxPlWid ≠ commandRRegister ||| regStatus := by decide
  have hpayload : commandRRxPayload ≠ commandRRegister ||| regStatus := by decide
  simp [irqTail, irqReceive, irqReadPayload, irqDone, irqFail, failWith, notify, handlerMonitor,
    neutral, Phase.stage, hwidth, hpayload]

/-- A notification changes nothing. -/
theorem wp_notify {stage : Stage} {Q : Unit → Phase → Prop} (h : Q () (.handler stage))
    (type : Interrupt) (num : Byte) (buf : List Byte) :
    (notify type num buf).wp handlerMonitor Q (.handler stage) := by
  simp [notify, handlerMonitor, neutral, Phase.stage, Stage.next, h]

theorem wp_irqFail (fmt : String) (stage : Stage) :
    (irqFail fmt).wp handlerMonitor (fun _ _ => True) (.handler stage) := by
  simp [irqFail, handlerMonitor, neutral]

theorem wp_irqSent (prev : Byte) :
    (irqSent prev).wp handlerMonitor (fun _ _ => True) (.handler .away) := by
  have htail := wp_irqTail prev
  simp only [irqSent, Prog.bind_eq, Prog.wp_ite, Prog.wp_bind, wp_setFinished]
  exact ⟨fun _ => ⟨.inl rfl, fun _ => wp_notify htail _ _ _⟩, fun _ => htail⟩

/-- The branch on `MAX_RT`: the flush, then the flag. -/
theorem wp_irqMaxRt (prev : Byte) :
    (irqMaxRt prev).wp handlerMonitor (fun _ _ => True)
      (.handler (if bit prev 4 then .cleared else .away)) := by
  have hsent := wp_irqSent prev
  unfold irqMaxRt
  split
  · simp only [Prog.bind_eq, Prog.wp_bind, wp_spiWrite, Prog.wp_ite, wp_setFinished]
    refine ⟨.inr (.inl ⟨rfl, rfl⟩), fun _ => ⟨fun _ => wp_irqFail _ _, fun hok => absurd rfl hok⟩,
      fun _ => ⟨fun hok => absurd hok Bool.false_ne_true, fun _ => ?_⟩⟩
    exact ⟨.inr rfl, fun _ => wp_notify hsent _ _ _⟩
  · exact hsent

theorem wp_irqServe (prev : Byte) :
    (irqServe prev).wp handlerMonitor (fun _ _ => True)
      (.handler (if bit prev 4 then .cleared else .away)) := by
  have hmax := wp_irqMaxRt prev
  simp only [irqServe, Prog.bind_eq, Prog.wp_ite, Prog.wp_bind]
  exact ⟨fun _ => wp_notify hmax _ _ _, fun _ => hmax⟩

/-- The handler clears what it has read. -/
theorem wp_writeStatus (prev : Byte) :
    ((spiWrite (commandWRegister ||| regStatus) [prev]).bind fun ok =>
      if !ok then irqFail "nrf24l01: set status register failed.\n" else irqServe prev).wp
        handlerMonitor (fun _ _ => True) (.handler (if bit prev 4 then .due else .away)) := by
  have hserve := wp_irqServe prev
  simp only [Prog.wp_bind, wp_spiWrite, Prog.wp_ite]
  refine ⟨.inl ⟨rfl, ?_⟩, fun _ => ⟨fun _ => wp_irqFail _ _, fun hok => absurd rfl hok⟩,
    fun _ => ⟨fun hok => absurd hok Bool.false_ne_true, fun _ => ?_⟩⟩
  · cases hbit : bit prev 4
    · exact fun hdue => absurd hdue (by decide : Stage.away ≠ .due)
    · exact fun _ => hbit
  · cases hbit : bit prev 4
    · rw [hbit] at hserve
      exact hserve
    · rw [hbit] at hserve
      exact hserve

theorem wp_irqHandler : irqHandler.wp handlerMonitor (fun _ _ => True) (.handler .away) := by
  simp only [irqHandler, checked, Prog.bind_eq, Prog.wp_bind, wp_getInited, Prog.wp_ite,
    wp_gpioWrite, wp_spiRead]
  refine ⟨rfl, fun _ _ => ⟨fun _ => trivial, fun _ => ⟨rfl,
    fun _ => ⟨fun _ => ?_, fun hok => absurd rfl hok⟩,
    fun _ => ⟨fun hok => absurd hok Bool.false_ne_true,
      fun _ => ⟨fun _ => rfl, fun _ => wp_irqFail _ _, fun buf _ => ?_⟩⟩⟩⟩⟩
  · simp [failWith, handlerMonitor, neutral]
  · have hwrite := wp_writeStatus (buf.getD 0 0)
    simp only [Prog.wp_bind, Prog.wp_ite] at hwrite
    exact hwrite

theorem wp_handler :
    interruptIrqHandler.wp handlerMonitor (fun _ _ => True) (.handler .away) := by
  have hhandler := wp_irqHandler
  rw [interruptIrqHandler, zeroOrOne, Prog.bind_eq, Prog.wp_bind]
  refine Prog.wp_mono ?_ hhandler
  intro res l _
  split <;> trivial

end Residue

end DsEthComm.Nrf24l01
