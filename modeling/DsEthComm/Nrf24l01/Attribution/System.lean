import DsEthComm.Nrf24l01.Radio

/-!
# DsEthComm.Nrf24l01.Attribution.System

A sending thread and the interrupt handler over one chip, the observer that
numbers the payloads and records the events of each, and what an operation
of either thread does to the sending side of the radio.
-/

namespace DsEthComm.Nrf24l01

open Conc

namespace Attribution

/-! ## The system -/

/-- What the chip does by itself. -/
inductive Event where
  /-- The payload at the head of the FIFO is sent. -/
  | sent
  /-- It ran out of retransmissions, and stays in the FIFO. -/
  | failed
  /-- The receiving side, taken as arbitrary. -/
  | received (rxDr : Bool) (rxFifo : List RxPayload)
deriving Repr

/-- The chip sends in order, and stops while `MAX_RT` is set. -/
def event : Event → Chip → Option Chip
  | .sent, c =>
      match c.txFifo with
      | [] => none
      | _ :: ps => if c.maxRt then none else some { c with txDs := true, txFifo := ps }
  | .failed, c =>
      match c.txFifo with
      | [] => none
      | _ :: _ => if c.maxRt then none else some { c with maxRt := true }
  | .received rxDr rxFifo, c => some { c with rxDr := rxDr, rxFifo := rxFifo }

/-- One thread sends, the other handles the interrupts. -/
def allowed : Client → Api → Bool
  | .tx, .send _ _ => true
  | .irq, .interruptIrqHandler => true
  | _, _ => false

/-- Any transaction may fail. -/
def sendSystem : Pool driverSig World Client Api Byte Answer Event := system allowed id event

/-! ## The observer -/

/-- The events of a payload. -/
inductive Outcome where
  | txDs
  | maxRt
deriving DecidableEq, Repr

/-- What the handler has read from `STATUS` and not yet stored in
`handle->finished`. -/
@[ext]
structure Carry where
  txDs : Bool
  maxRt : Bool
deriving DecidableEq, Repr

def Carry.empty : Carry := ⟨false, false⟩

/-- An operation of the handler. -/
def Carry.next (c : Carry) : (o : Op) → o.Res → Carry
  | .spiRead cmd _, (r : Option (List Byte)) =>
      match r with
      | some buf =>
          if cmd = commandRRegister ||| regStatus then
            ⟨bit (buf.getD 0 0) 5, bit (buf.getD 0 0) 4⟩
          else c
      | none => c
  | .setFinished value, _ =>
      if value = 1 then { c with txDs := false }
      else if value = 2 then { c with maxRt := false }
      else c
  | _, _ => c

structure Ghost where
  /-- The numbers of the payloads in the FIFO. -/
  ids : List Nat
  /-- The number of the next payload. -/
  fresh : Nat
  /-- The payload that the current send has written. -/
  mine : Option Nat
  log : List (Nat × Outcome)
  carry : Carry
deriving DecidableEq

/-- A payload is written; a full FIFO drops it. -/
def Ghost.push (g : Ghost) (c : Chip) : Ghost :=
  { g with
    ids := if c.txFifo.length < Chip.fifoSize then g.ids ++ [g.fresh] else g.ids
    mine := some g.fresh
    fresh := g.fresh + 1 }

/-- A transaction that succeeded. -/
def Ghost.written (g : Ghost) (c : Chip) (cmd : Byte) : Ghost :=
  if isPayload cmd then g.push c
  else if cmd = commandFlushTx then { g with ids := [] }
  else g

def Ghost.perform (g : Ghost) (t : Client) (c : Chip) : (o : Op) → o.Res → Ghost
  | .spiWrite cmd _, (r : Bool) => if r then g.written c cmd else g
  | o, r => if t = .irq then { g with carry := g.carry.next o r } else g

/-- An event belongs to the payload at the head. -/
def Ghost.event (g : Ghost) : Event → Ghost
  | .sent => { g with ids := g.ids.tail, log := g.log ++ (g.ids.head?.map (·, .txDs)).toList }
  | .failed => { g with log := g.log ++ (g.ids.head?.map (·, .maxRt)).toList }
  | .received _ _ => g

def observer : Pool.Observer driverSig World Client Api Byte Event Ghost where
  enter t _ _ g := if t = .tx then { g with mine := none } else g
  perform t _ w o r g := g.perform t w.radio.chip o r
  leave t _ _ _ g := if t = .irq then { g with carry := .empty } else g
  env e _ g := g.event e

def observed : Pool driverSig (World × Ghost) Client Api Byte Answer Event :=
  sendSystem.observe observer

abbrev State := Conf driverSig (World × Ghost) Client Api Byte

abbrev Label := PoolLabel Client Api Answer Event

/-- Both threads idle; the payloads already in the FIFO are numbered first. -/
def start (w : World) : State :=
  Pool.start (w,
    { ids := List.range w.radio.chip.txFifo.length
      fresh := w.radio.chip.txFifo.length
      mine := none
      log := []
      carry := .empty })

/-! ## The property and its condition -/

/-- The status with which an acknowledged send is about to return. -/
def returning (c : State) : Option Byte :=
  match c.job .tx with
  | some (.send _ true, .pure r) => some r
  | _ => none

/-- A send returns 0 only after `TX_DS` for its own payload, and 1 only
after `MAX_RT` for it, or without having written one. -/
def Attributed (c : State) : Label → Prop
  | .leave .tx =>
      let g := c.shared.2
      ∀ r ∈ returning c,
        (r = 0 → ∃ id ∈ g.mine, (id, Outcome.txDs) ∈ g.log) ∧
          (r = 1 → g.mine = none ∨ ∃ id ∈ g.mine, (id, Outcome.maxRt) ∈ g.log)
  | _ => True

/-- Nothing is left of earlier payloads: in the FIFO, in `STATUS`, or with
the handler. -/
def Clean (s : Radio) (g : Ghost) : Prop :=
  s.chip.txFifo = [] ∧ s.chip.txDs = false ∧ s.chip.maxRt = false ∧ g.carry = .empty

/-- The sender is about to clear `handle->finished` for an acknowledged
payload. -/
def clearsFlag (c : State) : Bool :=
  match c.call .tx, c.next .tx with
  | some (.send _ true), some (.setFinished _) => true
  | _, _ => false

/-- An acknowledged send clears the flag only when nothing is left of
earlier payloads. -/
def ClearsClean (c : State) : Label → Prop
  | .exec .tx _ => clearsFlag c = true → Clean c.shared.1.radio c.shared.2
  | _ => True

instance : ∀ c l, Decidable (Attributed c l)
  | c, .leave .tx =>
      have hdec (r : Byte) : Decidable
          ((r = 0 → ∃ id ∈ c.shared.2.mine, (id, Outcome.txDs) ∈ c.shared.2.log) ∧
            (r = 1 → c.shared.2.mine = none ∨
              ∃ id ∈ c.shared.2.mine, (id, Outcome.maxRt) ∈ c.shared.2.log)) := inferInstance
      @Option.decidableForallMem Byte _ hdec (returning c)
  | _, .leave .irq | _, .leave .shell | _, .enter _ _ | _, .exec _ _ | _, .env _ =>
      .isTrue trivial

instance (s : Radio) (g : Ghost) : Decidable (Clean s g) := inferInstanceAs (Decidable (_ ∧ _))

instance : ∀ c l, Decidable (ClearsClean c l)
  | c, .exec .tx _ => inferInstanceAs
      (Decidable (clearsFlag c = true → Clean c.shared.1.radio c.shared.2))
  | _, .exec .irq _ | _, .exec .shell _ | _, .enter _ _ | _, .leave _ | _, .env _ =>
      .isTrue trivial

/-! ## The threads as their monitors see them -/

/-- Where a thread is. -/
inductive Phase where
  /-- A send without acknowledgement. -/
  | noAck
  /-- An acknowledged send before it clears the flag. -/
  | fresh
  /-- The flag is cleared, the payload not written. -/
  | cleared
  | written
  /-- The payload write failed. -/
  | failed
  /-- The flag was last read as `finished`. -/
  | read (finished : Byte)
  | handler (carry : Carry)

/-- The operations that change neither the sending side of the chip nor
`handle->finished`. -/
def neutral : Op → Bool
  | .spiWrite _ _ | .setFinished _ | .link _ => false
  | _ => true

/-- The next phase of an acknowledged send. -/
def Phase.nextAck (l : Phase) : (o : Op) → o.Res → Phase
  | .setFinished _, _ => .cleared
  | .spiWrite _ _, (r : Bool) => if r then .written else .failed
  | .getFinished, (r : Byte) => .read r
  | _, _ => l

/-- The flag, once set, is not cleared again while the send waits, and the
CE pin works. -/
def Phase.mayAck (l : Phase) : (o : Op) → o.Res → Prop
  | .getFinished, (r : Byte) => ∀ b, l = .read b → b ≠ 0 → r ≠ 0
  | .gpioWrite _, r => r = true
  | _, _ => True

def ackMonitor : Monitor driverSig Phase where
  pre l o := match (o : Op) with
    | .setFinished value => l = .fresh ∧ value = 0
    | .spiWrite cmd _ => l = .cleared ∧ isPayload cmd = true
    | .getFinished => l = .written ∨ ∃ b, l = .read b
    | o => neutral o = true
  may := Phase.mayAck
  next := Phase.nextAck

def noAckMonitor : Monitor driverSig Phase where
  pre l _ := l = .noAck
  may _ _ _ := True
  next l _ _ := l

def Phase.carry : Phase → Carry
  | .handler c => c
  | _ => .empty

/-- The handler stores in the flag only what it carries. -/
def handlerMonitor : Monitor driverSig Phase where
  pre l o := match (o : Op) with
    | .setFinished value =>
        value = 1 ∧ l.carry.txDs = true ∨ value = 2 ∧ l.carry.maxRt = true
    | .spiWrite cmd _ =>
        cmd = commandWRegister ||| regStatus ∨ cmd = commandFlushTx ∨ cmd = commandFlushRx
    | o => neutral o = true
  may _ _ _ := True
  next l o r := .handler (l.carry.next o r)

def monitor : Client → Api → Monitor driverSig Phase
  | .tx, .send _ true => ackMonitor
  | .tx, .send _ false => noAckMonitor
  | .irq, _ => handlerMonitor
  | _, _ => .stuck driverSig Phase

/-- A status and the phase in which it is returned. -/
def Justified (r : Byte) (l : Phase) : Prop :=
  (r = 0 → l = .read 1) ∧ (r = 1 → l = .failed ∨ ∃ b, l = .read b ∧ b ≠ 0 ∧ b ≠ 1)

def Done : Client → Api → Byte → Phase → Prop
  | .tx, .send _ true => Justified
  | _, _ => fun _ _ => True

/-- The wait ends with the flag read as set, unless it times out. -/
theorem wp_waitFinished {l : Phase} (hl : l = .written ∨ ∃ b, l = .read b) (timeout : Nat) :
    (waitFinished timeout).wp ackMonitor
      (fun n l => n = 0 ∨ ∃ b, l = .read b ∧ b ≠ 0) l := by
  induction timeout generalizing l with
  | zero => exact .inl rfl
  | succ n ih =>
      simp only [waitFinished, Prog.bind_eq, Prog.wp_bind, wp_getFinished, Prog.wp_ite,
        wp_delayMs]
      refine ⟨hl, fun b _ => ⟨fun _ => ⟨rfl, fun _ => ih (.inr ⟨b, rfl⟩)⟩, fun hb => ?_⟩⟩
      exact .inr ⟨b, rfl, hb⟩

theorem wp_awaitAck : awaitAck.wp ackMonitor Justified .written := by
  have hwait := wp_waitFinished (.inl rfl) 5000
  unfold awaitAck
  rw [Prog.bind_eq, Prog.wp_bind]
  refine Prog.wp_mono ?_ hwait
  intro n l hn
  obtain rfl | ⟨b, rfl, hb⟩ := hn
  · simp [failWith, ackMonitor, neutral, Phase.mayAck, Justified]
  · simp [failWith, ackMonitor, neutral, Phase.nextAck, Phase.mayAck, Justified]
    exact fun _ finished hset hne => ⟨hset hb, hne⟩

theorem wp_send_ack (buf : List Byte) : (send buf true).wp ackMonitor Justified .fresh := by
  have hawait := wp_awaitAck
  have hpay := isPayload_payloadCommand true
  simp [send, checked, failWith, ackMonitor, neutral, Phase.nextAck, Phase.mayAck, Justified, hpay]
  exact fun _ _ _ => hawait

theorem wp_send_noAck (buf : List Byte) :
    (send buf false).wp noAckMonitor (fun _ _ => True) .noAck := by
  simp [send, checked, failWith, noAckMonitor]

theorem wp_handler : interruptIrqHandler.wp handlerMonitor (fun _ _ => True) (.handler .empty) := by
  simp [interruptIrqHandler, zeroOrOne, irqHandler, checked, failWith, irqFail, irqServe, irqMaxRt,
    irqSent, irqTail, irqReceive, irqReadPayload, irqDone, notify, handlerMonitor, neutral,
    Phase.carry, Carry.next]

/-! ## The sending side of the radio -/

/-- Two states agree on what the attribution is about. -/
structure SameTx (s s' : Radio) : Prop where
  txFifo : s'.chip.txFifo = s.chip.txFifo
  txDs : s'.chip.txDs = s.chip.txDs
  maxRt : s'.chip.maxRt = s.chip.maxRt
  finished : s'.handle.finished = s.handle.finished

theorem SameTx.refl (s : Radio) : SameTx s s := ⟨rfl, rfl, rfl, rfl⟩

theorem SameTx.perform (s : Radio) {o : Op} (h : neutral o = true) (a : Answer) :
    SameTx s (s.perform o a).1 := by
  cases o with
  | spiRead reg len =>
      show SameTx s (s.spiRead reg len a).1
      obtain ⟨rxFifo, hread⟩ := s.chip.read_cases reg len a.noise
      unfold Radio.spiRead
      split
      · exact .refl s
      · simp only [hread]
        exact ⟨rfl, rfl, rfl, rfl⟩
  | spiWrite _ _ | setFinished _ | link _ => contradiction
  | _ => exact ⟨rfl, rfl, rfl, rfl⟩

theorem write_payload (c : Chip) {cmd : Byte} (h : isPayload cmd = true) (buf : List Byte) :
    ∃ p, c.write cmd buf = c.pushTx p := by
  obtain rfl | rfl : cmd = commandWTxPayload ∨ cmd = commandWTxPayloadNoAck := by
    simpa [isPayload] using h
  · exact ⟨_, rfl⟩
  · exact ⟨_, rfl⟩

/-- What an operation of the handler can do to the sending side. -/
structure Served (s s' : Radio) (g g' : Ghost) : Prop where
  fifo : s'.chip.txFifo = s.chip.txFifo ∧ g'.ids = g.ids ∨ s'.chip.txFifo = [] ∧ g'.ids = []
  txDs : s'.chip.txDs = true → s.chip.txDs = true
  maxRt : s'.chip.maxRt = true → s.chip.maxRt = true
  carryTxDs : g'.carry.txDs = true → g.carry.txDs = true ∨ s.chip.txDs = true
  carryMaxRt : g'.carry.maxRt = true → g.carry.maxRt = true ∨ s.chip.maxRt = true
  finished : s'.handle.finished = s.handle.finished ∨
    s'.handle.finished = 1 ∧ g.carry.txDs = true ∨ s'.handle.finished = 2 ∧ g.carry.maxRt = true
  mine : g'.mine = g.mine
  log : g'.log = g.log

theorem Served.of_same {s s' : Radio} {g : Ghost} {c : Carry} (h : SameTx s s')
    (htx : c.txDs = true → g.carry.txDs = true ∨ s.chip.txDs = true)
    (hmax : c.maxRt = true → g.carry.maxRt = true ∨ s.chip.maxRt = true) :
    Served s s' g { g with carry := c } where
  fifo := .inl ⟨h.txFifo, rfl⟩
  txDs h1 := h.txDs ▸ h1
  maxRt h1 := h.maxRt ▸ h1
  carryTxDs := htx
  carryMaxRt := hmax
  finished := .inl h.finished
  mine := rfl
  log := rfl

/-- What the handler reads from `STATUS` is in the chip. -/
theorem carry_next_neutral {s : Radio} {o : Op} (h : neutral o = true) (c : Carry) (a : Answer) :
    ((c.next o (s.perform o a).2).txDs = true → c.txDs = true ∨ s.chip.txDs = true) ∧
      ((c.next o (s.perform o a).2).maxRt = true → c.maxRt = true ∨ s.chip.maxRt = true) := by
  cases o with
  | spiRead cmd len =>
      show ((c.next (.spiRead cmd len) (s.spiRead cmd len a).2).txDs = true → _) ∧
        ((c.next (.spiRead cmd len) (s.spiRead cmd len a).2).maxRt = true → _)
      unfold Radio.spiRead
      split
      · exact ⟨.inl, .inl⟩
      · by_cases hcmd : cmd = commandRRegister ||| regStatus
        · subst hcmd
          have hread : (s.chip.read (commandRRegister ||| regStatus) len a.noise).2 =
              Chip.fit len [s.chip.status] a.noise := by
            rw [Chip.read_rRegister _ (by decide)]
            rfl
          cases len with
          | zero =>
              have hnil : Chip.fit 0 [s.chip.status] a.noise = [] := rfl
              simp only [Carry.next, if_true, hread, hnil]
              exact ⟨nofun, nofun⟩
          | succ n =>
              have hhead : (Chip.fit (n + 1) [s.chip.status] a.noise).getD 0 0 =
                  s.chip.status := rfl
              simp only [Carry.next, if_true, hread, hhead, Chip.bit_status_txDs,
                Chip.bit_status_maxRt]
              exact ⟨.inr, .inr⟩
        · simp only [Carry.next, if_neg hcmd]
          exact ⟨.inl, .inl⟩
  | spiWrite _ _ | setFinished _ | link _ => contradiction
  | _ => exact ⟨.inl, .inl⟩

/-- Every operation of the handler. -/
theorem served_perform {s : Radio} {g : Ghost} {o : Op}
    (hpre : handlerMonitor.pre (.handler g.carry) o) (a : Answer) :
    Served s (s.perform o a).1 g (g.perform .irq s.chip o (s.perform o a).2) := by
  cases o with
  | setFinished value =>
      obtain ⟨rfl, hc⟩ | ⟨rfl, hc⟩ := hpre
      · exact ⟨.inl ⟨rfl, rfl⟩, id, id, nofun, .inl, .inr (.inl ⟨rfl, hc⟩), rfl, rfl⟩
      · exact ⟨.inl ⟨rfl, rfl⟩, id, id, .inl, nofun, .inr (.inr ⟨rfl, hc⟩), rfl, rfl⟩
  | spiWrite cmd buf =>
      obtain hf | hw := s.perform_spiWrite a cmd buf
      · rw [hf]
        exact ⟨.inl ⟨rfl, rfl⟩, id, id, .inl, .inl, .inl rfl, rfl, rfl⟩
      · rw [hw]
        obtain rfl | rfl | rfl := hpre
        · rw [Chip.write_wRegister _ (by decide)]
          refine ⟨.inl ⟨rfl, rfl⟩, fun h => ?_, fun h => ?_, .inl, .inl, .inl rfl, rfl, rfl⟩
          · exact (Bool.and_eq_true_iff.mp h).1
          · exact (Bool.and_eq_true_iff.mp h).1
        · exact ⟨.inr ⟨rfl, rfl⟩, id, id, .inl, .inl, .inl rfl, rfl, rfl⟩
        · exact ⟨.inl ⟨rfl, rfl⟩, id, id, .inl, .inl, .inl rfl, rfl, rfl⟩
  | link _ => contradiction
  | _ =>
      obtain ⟨htx, hmax⟩ := carry_next_neutral (s := s) (o := _) hpre g.carry a
      exact .of_same (.perform s hpre a) htx hmax

end Attribution

end DsEthComm.Nrf24l01
