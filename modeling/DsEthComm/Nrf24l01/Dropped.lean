import DsEthComm.Nrf24l01.Radio
import Mathlib.Data.List.Nodup

/-!
# DsEthComm.Nrf24l01.Dropped

What becomes of a payload that `nrf24l01_send` wrote without asking for an
acknowledgement.  The send returns 0 as soon as the payload is on the bus;
it does not look at `TX_FULL`, and it does not wait.

An observer numbers the payloads and keeps the books of the transmit FIFO:
which payloads without acknowledgement entered it, and which were
transmitted.  A payload is lost in two ways.  A full FIFO ignores it, or the
handler flushes the FIFO on `MAX_RT` while it is queued.
-/

namespace DsEthComm.Nrf24l01

open Conc

namespace Dropped

/-! ## The system -/

/-- What the chip does by itself. -/
inductive Event where
  /-- The payload at the head of the FIFO is transmitted. -/
  | sent
  /-- It ran out of retransmissions, and stays in the FIFO. -/
  | failed
  /-- The receiving side, taken as arbitrary. -/
  | received (rxDr : Bool) (rxFifo : List RxPayload)
deriving Repr

/-- The chip transmits while CE is high and `MAX_RT` is clear. -/
def event : Event → Radio → Option Radio
  | .sent, s =>
      match s.chip.txFifo with
      | [] => none
      | _ :: ps =>
          if s.ce && !s.chip.maxRt then some (s.setChip { s.chip with txDs := true, txFifo := ps })
          else none
  | .failed, s =>
      if s.chip.txFifo ≠ [] ∧ s.chip.maxRt = false then
        some (s.setChip { s.chip with maxRt := true })
      else none
  | .received rxDr rxFifo, s => some (s.setChip { s.chip with rxDr := rxDr, rxFifo := rxFifo })

/-- One thread sends buffers of 1 to 32 bytes, the other runs the handler. -/
def allowed : Client → Api → Bool
  | .tx, .send buf _ => 1 ≤ buf.length && buf.length ≤ 32
  | .irq, .interruptIrqHandler => true
  | _, _ => false

/-- The calls begin at any time, and no transaction fails. -/
def fifoSystem : Pool driverSig Radio Client Api Byte (List Byte) Event where
  code := Api.code
  enter t i s := if allowed t i then some s else none
  perform _ _ s o noise := s.perform o (answer noise)
  leave _ _ _ s := s
  env := event

/-! ## The observer -/

structure Ghost where
  /-- The FIFO, with the numbers of its payloads. -/
  queue : List (Nat × TxPayload)
  /-- The number of the next payload. -/
  fresh : Nat
  /-- The payload that the current send has written. -/
  mine : Option Nat
  /-- The payloads without acknowledgement that entered the FIFO. -/
  accepted : List Nat
  transmitted : List Nat
deriving DecidableEq

/-- A payload is written; a full FIFO ignores it. -/
def Ghost.push (g : Ghost) (c : Chip) (p : TxPayload) : Ghost :=
  let g' := { g with mine := some g.fresh, fresh := g.fresh + 1 }
  if c.txFifo.length < Chip.fifoSize then
    { g' with
      queue := g.queue ++ [(g.fresh, p)]
      accepted := if p.ack then g.accepted else g.fresh :: g.accepted }
  else g'

/-- A transaction that succeeded. -/
def Ghost.written (g : Ghost) (c : Chip) (cmd : Byte) (buf : List Byte) : Ghost :=
  if cmd = commandWTxPayload then g.push c ⟨true, buf⟩
  else if cmd = commandWTxPayloadNoAck then g.push c ⟨false, buf⟩
  else if cmd = commandFlushTx then { g with queue := [] }
  else g

def Ghost.perform (g : Ghost) (c : Chip) : (o : Op) → o.Res → Ghost
  | .spiWrite cmd buf, (r : Bool) => if r then g.written c cmd buf else g
  | _, _ => g

def Ghost.event (g : Ghost) : Event → Ghost
  | .sent =>
      { g with
        queue := g.queue.tail
        transmitted := (g.queue.head?.map Prod.fst).toList ++ g.transmitted }
  | .failed | .received _ _ => g

def observer : Pool.Observer driverSig Radio Client Api Byte Event Ghost where
  enter t _ _ g := if t = .tx then { g with mine := none } else g
  perform _ _ s o r g := g.perform s.chip o r
  leave _ _ _ _ g := g
  env e _ g := g.event e

def observed : Pool driverSig (Radio × Ghost) Client Api Byte (List Byte) Event :=
  fifoSystem.observe observer

abbrev State := Conf driverSig (Radio × Ghost) Client Api Byte

abbrev Label := PoolLabel Client Api (List Byte) Event

/-- The payloads already in the FIFO are numbered first. -/
def numbered (fifo : List TxPayload) : List (Nat × TxPayload) :=
  (List.range fifo.length).zip fifo

/-- Both threads idle. -/
def start (s : Radio) : State :=
  Pool.start (s,
    { queue := numbered s.chip.txFifo
      fresh := s.chip.txFifo.length
      mine := none
      accepted := ((numbered s.chip.txFifo).filter fun x => !x.2.ack).map Prod.fst
      transmitted := [] })

/-! ## The property and its condition -/

/-- A payload that entered the FIFO is still there or was transmitted. -/
def Kept (g : Ghost) : Prop :=
  ∀ id ∈ g.accepted, id ∈ g.queue.map Prod.fst ∨ id ∈ g.transmitted

/-- The status with which a send without acknowledgement is about to
return. -/
def returning (c : State) : Option Byte :=
  match c.job .tx with
  | some (.send _ false, .pure r) => some r
  | _ => none

/-- A send without acknowledgement returns 0 only if its payload entered the
FIFO. -/
def Reported (c : State) : Label → Prop
  | .leave .tx => returning c = some 0 → ∃ id ∈ c.shared.2.mine, id ∈ c.shared.2.accepted
  | _ => True

/-- The command of the transaction that a thread makes next. -/
def writing (c : State) (t : Client) : Option Byte :=
  match c.next t with
  | some (.spiWrite cmd _) => some cmd
  | _ => none

/-- A payload without acknowledgement finds room in the FIFO, and `FLUSH_TX`
finds none queued. -/
def Roomy (c : State) : Label → Prop
  | .exec t _ =>
      (writing c t = some commandWTxPayloadNoAck →
        c.shared.1.chip.txFifo.length < Chip.fifoSize) ∧
      (writing c t = some commandFlushTx → ∀ p ∈ c.shared.1.chip.txFifo, p.ack = true)
  | _ => True

instance (g : Ghost) : Decidable (Kept g) := inferInstanceAs (Decidable (∀ id ∈ _, _))

instance : ∀ c l, Decidable (Reported c l)
  | c, .leave .tx =>
      inferInstanceAs
        (Decidable (returning c = some 0 → ∃ id ∈ c.shared.2.mine, id ∈ c.shared.2.accepted))
  | _, .leave .irq | _, .leave .shell | _, .enter _ _ | _, .exec _ _ | _, .env _ =>
      .isTrue trivial

instance : ∀ c l, Decidable (Roomy c l)
  | _, .exec _ _ => inferInstanceAs (Decidable (_ ∧ _))
  | _, .enter _ _ | _, .leave _ | _, .env _ => .isTrue trivial

/-! ## The threads as their monitors see them -/

/-- The transactions that write have commands of a kind. -/
def writesOnly (kind : Byte → Prop) : Op → Prop
  | .spiWrite cmd _ => kind cmd
  | _ => True

/-- A send without acknowledgement: the private state says that the payload
was written. -/
def noAckMonitor : Monitor driverSig Bool where
  pre _ := writesOnly fun cmd => cmd = commandWTxPayloadNoAck
  may _ _ _ := True
  next l o r := match (o : Op), r with
    | .spiWrite _ _, (r : Bool) => r
    | _, _ => l

def ackMonitor : Monitor driverSig Bool where
  pre l o := l = false ∧ writesOnly (fun cmd => cmd = commandWTxPayload) o
  may _ _ _ := True
  next l _ _ := l

/-- The handler writes no payload. -/
def handlerMonitor : Monitor driverSig Bool where
  pre _ := writesOnly fun cmd => isPayload cmd = false
  may _ _ _ := True
  next l _ _ := l

def monitor : Client → Api → Monitor driverSig Bool
  | .tx, .send _ true => ackMonitor
  | .tx, .send _ false => noAckMonitor
  | .irq, _ => handlerMonitor
  | _, _ => .stuck driverSig Bool

def Done : Client → Api → Byte → Bool → Prop
  | .tx, .send _ false => fun r written => r = 0 → written = true
  | _, _ => fun _ _ => True

theorem wp_send_ack (buf : List Byte) :
    (send buf true).wp ackMonitor (fun _ _ => True) false := by
  have hignores : Ignores ackMonitor false := by
    intro o ho
    cases o <;> first | contradiction | exact ⟨⟨rfl, trivial⟩, fun _ => rfl⟩
  have hawait : awaitAck.wp ackMonitor (fun _ _ => True) false :=
    hignores.wp_awaitAck fun _ => trivial
  simp [send, checked, failWith, ackMonitor, writesOnly, payloadCommand]
  exact fun _ => hawait

/-- A send without acknowledgement returns 0 after its payload write. -/
theorem wp_send_noAck (buf : List Byte) :
    (send buf false).wp noAckMonitor (fun r written => r = 0 → written = true) false := by
  simp [send, checked, failWith, noAckMonitor, writesOnly, payloadCommand]

theorem wp_handler : interruptIrqHandler.wp handlerMonitor (fun _ _ => True) false := by
  have hstatus : isPayload (commandWRegister ||| regStatus) = false := rfl
  have hflushTx : isPayload commandFlushTx = false := rfl
  have hflushRx : isPayload commandFlushRx = false := rfl
  simp [interruptIrqHandler, zeroOrOne, irqHandler, checked, failWith, irqFail, irqServe, irqMaxRt,
    irqSent, irqTail, irqReceive, irqReadPayload, irqDone, notify, handlerMonitor, writesOnly,
    hstatus, hflushTx, hflushRx]

/-! ## The books of the FIFO -/

/-- The observer's books agree with the FIFO, and nothing is lost. -/
structure Ledger (fifo : List TxPayload) (g : Ghost) : Prop where
  queue : g.queue.map Prod.snd = fifo
  queued : ∀ x ∈ g.queue, x.1 < g.fresh
  accepted : ∀ id ∈ g.accepted, id < g.fresh
  noAck : ∀ x ∈ g.queue, x.1 ∈ g.accepted → x.2.ack = false
  kept : Kept g

section Ledger

variable {fifo : List TxPayload} {c : Chip} {g : Ghost}

theorem Ledger.enter (h : Ledger fifo g) : Ledger fifo { g with mine := none } :=
  ⟨h.queue, h.queued, h.accepted, h.noAck, h.kept⟩

/-- A payload is written. -/
theorem Ledger.push (h : Ledger c.txFifo g) (p : TxPayload) :
    Ledger (c.pushTx p).txFifo (g.push c p) := by
  have hfresh : g.fresh ∉ g.accepted := fun hmem => absurd (h.accepted _ hmem) (Nat.lt_irrefl _)
  have hqueued := h.queued
  have haccepted := h.accepted
  have hkept := h.kept
  by_cases hroom : c.txFifo.length < Chip.fifoSize
  · simp only [Chip.pushTx, Ghost.push, hroom, if_true]
    constructor
    · simp [h.queue]
    · simp only [List.mem_append, List.mem_singleton]
      rintro x (hx | rfl)
      · exact Nat.lt_succ_of_lt (hqueued x hx)
      · exact Nat.lt_succ_self _
    · cases hack : p.ack <;> grind
    · have hnoAck := h.noAck
      cases hack : p.ack <;> grind
    · cases hack : p.ack <;> grind [Kept]
  · simp only [Chip.pushTx, Ghost.push, hroom, if_false]
    exact ⟨h.queue, fun x hx => Nat.lt_succ_of_lt (hqueued x hx),
      fun id hid => Nat.lt_succ_of_lt (haccepted id hid), h.noAck, hkept⟩

/-- A flush that finds no payload without acknowledgement. -/
theorem Ledger.flush (h : Ledger fifo g) (hack : ∀ p ∈ fifo, p.ack = true) :
    Ledger [] { g with queue := [] } := by
  have hnone : ∀ id ∈ g.accepted, id ∉ g.queue.map Prod.fst := by
    intro id hid hmem
    obtain ⟨x, hx, rfl⟩ := List.mem_map.mp hmem
    have hfifo : x.2 ∈ fifo := by
      rw [← h.queue]
      exact List.mem_map_of_mem hx
    have hno := h.noAck x hx hid
    rw [hack x.2 hfifo] at hno
    contradiction
  refine ⟨rfl, nofun, h.accepted, nofun, fun id hid => .inr ?_⟩
  exact (h.kept id hid).resolve_left (hnone id hid)

/-- A transaction that writes. -/
theorem Ledger.written (h : Ledger c.txFifo g) {cmd : Byte}
    (hflush : cmd = commandFlushTx → ∀ p ∈ c.txFifo, p.ack = true) (buf : List Byte) :
    Ledger (c.write cmd buf).txFifo (g.written c cmd buf) := by
  by_cases hack : cmd = commandWTxPayload
  · subst hack
    exact h.push ⟨true, buf⟩
  by_cases hno : cmd = commandWTxPayloadNoAck
  · subst hno
    exact h.push ⟨false, buf⟩
  by_cases hfl : cmd = commandFlushTx
  · subst hfl
    exact h.flush (hflush rfl)
  · rw [c.write_txFifo hack hno hfl, Ghost.written, if_neg hack, if_neg hno, if_neg hfl]
    exact h

/-- The payload at the head is transmitted. -/
theorem Ledger.sent {p : TxPayload} {ps : List TxPayload} (h : Ledger (p :: ps) g) :
    Ledger ps (g.event .sent) := by
  obtain ⟨queue, fresh, mine, accepted, transmitted⟩ := g
  have hqueue := h.queue
  cases queue with
  | nil => contradiction
  | cons x xs =>
      have hqueued := h.queued
      have hnoAck := h.noAck
      have hkept := h.kept
      constructor
      · exact (List.cons.inj hqueue).2
      · exact fun y hy => hqueued y (List.mem_cons_of_mem _ hy)
      · exact h.accepted
      · exact fun y hy => hnoAck y (List.mem_cons_of_mem _ hy)
      · intro id hid
        simp only [Ghost.event, List.tail_cons, List.head?_cons, Option.map_some,
          Option.toList_some, List.cons_append, List.nil_append, List.mem_cons]
        obtain hmem | hmem := hkept id hid
        · obtain rfl | hmem := List.mem_cons.mp hmem
          · exact .inr (.inl rfl)
          · exact .inl hmem
        · exact .inr (.inr hmem)

end Ledger

/-! ## Whole runs -/

/-- The books agree, and a send that wrote a payload without acknowledgement
finds it among the accepted ones. -/
structure Tied (x : Radio × Ghost) (loc : Client → Option Bool) : Prop where
  ledger : Ledger x.1.chip.txFifo x.2
  mine : loc .tx = some true → ∃ id ∈ x.2.mine, id ∈ x.2.accepted

def Inv (c : State) : Prop :=
  ∃ loc, Pool.Follows monitor Done c loc ∧ Tied c.shared loc

theorem ledger_start (s : Radio) : Ledger s.chip.txFifo (start s).shared.2 := by
  have hqueue : (numbered s.chip.txFifo).map Prod.snd = s.chip.txFifo :=
    List.map_snd_zip (by simp)
  have hfst : (numbered s.chip.txFifo).map Prod.fst = List.range s.chip.txFifo.length :=
    List.map_fst_zip (by simp)
  have hless : ∀ x ∈ numbered s.chip.txFifo, x.1 < s.chip.txFifo.length := by
    intro x hx
    have hmem := List.mem_map_of_mem (f := Prod.fst) hx
    rwa [hfst, List.mem_range] at hmem
  have hinj : ∀ x ∈ numbered s.chip.txFifo, ∀ y ∈ numbered s.chip.txFifo, x.1 = y.1 → x = y := by
    have hnodup : ((numbered s.chip.txFifo).map Prod.fst).Nodup := hfst ▸ List.nodup_range
    exact fun x hx y hy heq => List.inj_on_of_nodup_map hnodup hx hy heq
  have haccepted : ∀ id ∈ (start s).shared.2.accepted,
      ∃ x ∈ numbered s.chip.txFifo, x.2.ack = false ∧ x.1 = id := by
    intro id hid
    obtain ⟨x, hx, rfl⟩ := List.mem_map.mp hid
    obtain ⟨hx, hack⟩ := List.mem_filter.mp hx
    exact ⟨x, hx, by simpa using hack, rfl⟩
  refine ⟨hqueue, hless, ?_, ?_, ?_⟩
  · intro id hid
    obtain ⟨x, hx, -, rfl⟩ := haccepted id hid
    exact hless x hx
  · intro y hy hid
    obtain ⟨x, hx, hack, heq⟩ := haccepted y.1 hid
    rwa [hinj x hx y hy heq] at hack
  · intro id hid
    obtain ⟨x, hx, -, rfl⟩ := haccepted id hid
    exact .inl (List.mem_map_of_mem hx)

theorem inv_start (s : Radio) : Inv (start s) :=
  ⟨fun _ => none, Pool.follows_start _, ledger_start s, nofun⟩

section Run

variable {s : Radio} {g : Ghost} {loc : Client → Option Bool}

theorem perform_eq (g : Ghost) (c : Chip) {o : Op} (h : ∀ cmd buf, o ≠ .spiWrite cmd buf)
    (r : o.Res) : g.perform c o r = g := by
  cases o with
  | spiWrite cmd buf => exact absurd rfl (h cmd buf)
  | _ => rfl

/-- Every operation keeps the books, if a flush finds no payload without
acknowledgement. -/
theorem Ledger.perform (h : Ledger s.chip.txFifo g) (o : Op) (a : Answer)
    (hflush : ∀ buf, o = .spiWrite commandFlushTx buf → ∀ p ∈ s.chip.txFifo, p.ack = true) :
    Ledger (s.perform o a).1.chip.txFifo (g.perform s.chip o (s.perform o a).2) := by
  by_cases hw : ∃ cmd buf, o = .spiWrite cmd buf
  · obtain ⟨cmd, buf, rfl⟩ := hw
    obtain hfail | hdone := s.perform_spiWrite a cmd buf
    · rw [hfail]
      exact h
    · rw [hdone]
      exact h.written (fun hcmd => hflush buf (by rw [hcmd])) buf
  · have hne : ∀ cmd buf, o ≠ .spiWrite cmd buf := fun cmd buf ho => hw ⟨cmd, buf, ho⟩
    rw [perform_eq g _ hne, s.chip_perform a Chip.txFifo (fun _ => rfl) fun cmd buf ho =>
      absurd ho (hne cmd buf)]
    exact h

/-- A payload without acknowledgement that finds room is accepted. -/
theorem mine_written (g : Ghost) {c : Chip} (h : c.txFifo.length < Chip.fifoSize)
    (buf : List Byte) :
    ∃ id ∈ (g.written c commandWTxPayloadNoAck buf).mine,
      id ∈ (g.written c commandWTxPayloadNoAck buf).accepted := by
  have hwritten : g.written c commandWTxPayloadNoAck buf = g.push c ⟨false, buf⟩ := rfl
  rw [hwritten]
  exact ⟨g.fresh, by simp [Ghost.push, h]⟩

/-- Writing no payload leaves the entries of the current send alone. -/
theorem mine_perform (g : Ghost) (c : Chip) {o : Op}
    (h : writesOnly (fun cmd => isPayload cmd = false) o) (r : o.Res) :
    (g.perform c o r).mine = g.mine ∧ (g.perform c o r).accepted = g.accepted := by
  cases o with
  | spiWrite cmd buf =>
      have hcmd : isPayload cmd = false := h
      have hne : cmd ≠ commandWTxPayload ∧ cmd ≠ commandWTxPayloadNoAck := by
        simpa [isPayload] using hcmd
      simp only [Ghost.perform, Ghost.written, hne.1, hne.2, if_false]
      repeat' split
      all_goals exact ⟨rfl, rfl⟩
  | _ => exact ⟨rfl, rfl⟩

theorem writing_of_job {c : State} {t : Client} {i : Api} {cmd : Byte} {buf : List Byte}
    {k : Bool → Driver Byte} (h : c.job t = some (i, .op (.spiWrite cmd buf) k)) :
    writing c t = some cmd := by
  rw [writing, Conf.next_of_job h]

/-- The operations of a send without acknowledgement. -/
theorem mine_noAck {l : Bool} (hmine : l = true → ∃ id ∈ g.mine, id ∈ g.accepted) {o : Op}
    (hpre : noAckMonitor.pre l o) (a : Answer)
    (hroom : ∀ buf, o = .spiWrite commandWTxPayloadNoAck buf →
      s.chip.txFifo.length < Chip.fifoSize) :
    noAckMonitor.next l o (s.perform o a).2 = true →
      ∃ id ∈ (g.perform s.chip o (s.perform o a).2).mine,
        id ∈ (g.perform s.chip o (s.perform o a).2).accepted := by
  cases o with
  | spiWrite cmd buf =>
      obtain rfl : cmd = commandWTxPayloadNoAck := hpre
      obtain hfail | hdone := s.perform_spiWrite a commandWTxPayloadNoAck buf
      · rw [hfail]
        exact nofun
      · rw [hdone]
        exact fun _ => mine_written g (hroom buf rfl) buf
  | _ => exact hmine

/-- Every operation of a thread in a call keeps the invariant. -/
theorem Tied.exec {c : State} (h : Tied c.shared loc) {t : Client} {i : Api} {o : Op}
    {k : o.Res → Driver Byte} {noise : List Byte} {l : Bool}
    (hjob : c.job t = some (i, .op o k)) (hl : loc t = some l) (hpre : (monitor t i).pre l o)
    (hok : Roomy c (.exec t noise)) :
    let x := c.shared.1.perform o (answer noise)
    (monitor t i).may l o x.2 ∧
      Tied (x.1, c.shared.2.perform c.shared.1.chip o x.2)
        (Function.update loc t (some ((monitor t i).next l o x.2))) := by
  obtain ⟨hroom, hflush⟩ := hok
  have hledger := h.ledger.perform o (answer noise) (by
    rintro buf rfl
    exact hflush (writing_of_job hjob))
  have hmine := h.mine
  cases t with
  | irq =>
      refine ⟨trivial, hledger, fun htx => ?_⟩
      obtain ⟨hsame, haccepted⟩ := mine_perform c.shared.2 c.shared.1.chip hpre
        (c.shared.1.perform o (answer noise)).2
      rw [Function.update_of_ne (by decide)] at htx
      show ∃ id ∈ (c.shared.2.perform _ o _).mine, id ∈ (c.shared.2.perform _ o _).accepted
      rw [hsame, haccepted]
      exact hmine htx
  | shell => exact hpre.elim
  | tx =>
      rw [hl] at hmine
      cases i with
      | send buf useAck =>
          cases useAck with
          | true =>
              obtain ⟨rfl, -⟩ := hpre
              refine ⟨trivial, hledger, fun htx => ?_⟩
              rw [Function.update_self] at htx
              have hfalse : false = true := Option.some.inj htx
              contradiction
          | false =>
              have hwritten := mine_noAck (s := c.shared.1) (fun hl => hmine (by rw [hl])) hpre
                (answer noise) (by
                  rintro buf rfl
                  exact hroom (writing_of_job hjob))
              refine ⟨trivial, hledger, fun htx => hwritten ?_⟩
              rw [Function.update_self] at htx
              exact Option.some.inj htx
      | _ => exact hpre.elim

/-- A call begins in step with its monitor. -/
theorem Tied.enter (h : Tied (s, g) loc) {t : Client} {i : Api} (ha : allowed t i = true) :
    ∃ l, i.code.wp (monitor t i) (Done t i) l ∧
      Tied (s, if t = .tx then { g with mine := none } else g)
        (Function.update loc t (some l)) := by
  cases t with
  | tx =>
      have hfresh : Tied (s, { g with mine := none }) (Function.update loc .tx (some false)) := by
        refine ⟨h.ledger.enter, fun htx => ?_⟩
        rw [Function.update_self] at htx
        cases htx
      cases i with
      | send buf useAck =>
          cases useAck with
          | true => exact ⟨false, wp_send_ack buf, hfresh⟩
          | false => exact ⟨false, wp_send_noAck buf, hfresh⟩
      | _ => contradiction
  | irq =>
      cases i with
      | interruptIrqHandler => exact ⟨false, wp_handler, h.ledger, h.mine⟩
      | _ => contradiction
  | shell => cases i <;> contradiction

theorem Tied.leave {x : Radio × Ghost} (h : Tied x loc) (t : Client) :
    Tied x (Function.update loc t none) := by
  refine ⟨h.ledger, fun htx => ?_⟩
  cases t with
  | tx =>
      rw [Function.update_self] at htx
      contradiction
  | irq | shell => exact h.mine htx

/-- What the chip does by itself keeps the invariant. -/
theorem Tied.event {s' : Radio} {e : Event} (h : Tied (s, g) loc) (he : event e s = some s') :
    Tied (s', g.event e) loc := by
  have hledger := h.ledger
  cases e with
  | sent =>
      simp only [Dropped.event] at he
      split at he
      · contradiction
      · next p ps hfifo =>
        rw [hfifo] at hledger
        split at he
        · obtain rfl := Option.some.inj he
          exact ⟨hledger.sent, h.mine⟩
        · contradiction
  | failed =>
      simp only [Dropped.event] at he
      split at he
      · obtain rfl := Option.some.inj he
        exact ⟨hledger, h.mine⟩
      · contradiction
  | received rxDr rxFifo =>
      obtain rfl := Option.some.inj he
      exact ⟨hledger, h.mine⟩

end Run

/-- What every step keeps, if payloads find room and flushes find none. -/
theorem inv_step (c : State) (l : Label) (c' : State) (hc : Inv c) (hok : Roomy c l)
    (h : observed.step c l = some c') : Inv c' := by
  refine Pool.step_follows observed ?_ ?_ ?_ ?_ c l c' hc hok h
  · intro c loc t i x' hR _ _ hx
    obtain ⟨s', hs', rfl⟩ := Option.map_eq_some_iff.mp hx
    obtain ⟨ha, hsame⟩ := Option.ite_none_right_eq_some.mp hs'
    obtain rfl := Option.some.inj hsame
    exact hR.enter ha
  · intro c loc t i o k noise l _ hR hjob hl hpre hok
    exact hR.exec hjob hl hpre hok
  · intro c loc t i r l hR _ _ _ _
    exact hR.leave t
  · intro c loc e x' _ hR _ hx
    obtain ⟨s', hs', rfl⟩ := Option.map_eq_some_iff.mp hx
    exact hR.event hs'

theorem returning_cases {c : State} {r : Byte} (h : returning c = some r) :
    ∃ buf, c.job .tx = some (.send buf false, .pure r) := by
  unfold returning at h
  split at h
  · next buf r' hjob =>
    obtain rfl := Option.some.inj h
    exact ⟨buf, hjob⟩
  · contradiction

theorem Inv.kept {c : State} (h : Inv c) : Kept c.shared.2 := by
  obtain ⟨loc, -, hT⟩ := h
  exact hT.ledger.kept

theorem Inv.reported {c : State} (h : Inv c) (l : Label) : Reported c l := by
  obtain ⟨loc, hfol, hT⟩ := h
  cases l with
  | leave t =>
      cases t with
      | irq | shell => trivial
      | tx =>
          intro hr
          obtain ⟨buf, hjob⟩ := returning_cases hr
          obtain ⟨l, hl, hdone⟩ := hfol.busy hjob
          have hwritten : l = true := hdone rfl
          exact hT.mine (by rw [hl, hwritten])
  | enter _ _ | exec _ _ | env _ => trivial

/-- In every run in which payloads without acknowledgement find room and
`FLUSH_TX` finds none of them queued, **no payload is silently dropped**: a
send without acknowledgement that returns 0 had its payload accepted, and
every payload so accepted is queued or was transmitted. -/
theorem not_dropped_of_roomy (s : Radio) (ls : List Label)
    (hok : Along observed.step Roomy (start s) ls) :
    Along observed.step Reported (start s) ls ∧
      Always observed.step (fun c => Kept c.shared.2) (start s) ls :=
  ⟨along_of_along inv_step (fun _ l hI _ => hI.reported l) (inv_start s) hok,
    always_of_along inv_step (fun _ hI => hI.kept) (inv_start s) hok⟩

/-! ## A run that keeps its payloads and two that lose one -/

/-- The next `n` operations of a thread. -/
def execs (t : Client) (n : Nat) : List Label := List.replicate n (.exec t [])

/-- A send up to its wait. -/
def sends (payload : List Byte) (useAck : Bool) : List Label :=
  .enter .tx (.send payload useAck) :: execs .tx 6

/-- The handler, which makes `n` operations. -/
def handles (n : Nat) : List Label :=
  .enter .irq .interruptIrqHandler :: execs .irq n ++ [.leave .irq]

/-- The first payload is transmitted before the second, which is flushed. -/
def keptRun : List Label :=
  List.flatten [
    sends [0x01#8] false, [.leave .tx, .env .sent], handles 8,
    sends [0x02#8] true, [.env .failed], handles 9, execs .tx 3, [.leave .tx]]

theorem not_dropped_of_roomy_keptRun :
    (run observed.step (start sampleRadio) keptRun).isSome = true ∧
      Along observed.step Roomy (start sampleRadio) keptRun ∧
      Along observed.step Reported (start sampleRadio) keptRun :=
  ⟨rfl, by decide, (not_dropped_of_roomy sampleRadio keptRun (by decide)).1⟩

/-- Four payloads, and no time to transmit one. -/
def fullRun : List Label :=
  List.flatten [
    sends [0x01#8] false, [.leave .tx], sends [0x02#8] false, [.leave .tx],
    sends [0x03#8] false, [.leave .tx], sends [0x04#8] false, [.leave .tx]]

/-- The acknowledged send returns with the `TX_DS` of the first payload.  Its
own payload then runs out of retransmissions, with a third one behind it. -/
def flushedRun : List Label :=
  List.flatten [
    sends [0x01#8] false, [.leave .tx, .env .sent],
    sends [0x02#8] true, handles 8, execs .tx 2, [.leave .tx],
    sends [0x03#8] false, [.leave .tx, .env .failed], handles 9]

/-- The fourth send returns 0 although the FIFO ignored its payload, and the
flush on `MAX_RT` takes a payload that was accepted. -/
theorem dropped_payloads :
    ((run observed.step (start sampleRadio) fullRun).isSome = true ∧
        ¬Along observed.step Reported (start sampleRadio) fullRun) ∧
      (run observed.step (start sampleRadio) flushedRun).isSome = true ∧
        ¬Always observed.step (fun c => Kept c.shared.2) (start sampleRadio) flushedRun := by
  have hend : (run observed.step (start sampleRadio) flushedRun).map
      (fun c => decide (Kept c.shared.2)) = some false := rfl
  refine ⟨⟨rfl, by decide⟩, rfl, fun hA => ?_⟩
  obtain ⟨c, hrun, hkept⟩ := Option.map_eq_some_iff.mp hend
  exact of_decide_eq_false hkept (hA.last hrun)

end Dropped

end DsEthComm.Nrf24l01
