import DsEthComm.Nrf24l01.Radio

/-!
# DsEthComm.Nrf24l01.Irq

`NRF24InterruptThread` against the chip.  The IRQ line is a level, low while
an unmasked event bit of `STATUS` is set; the microcontroller reacts to its
falling edge only.  Nothing is stranded as long as the handler drives the
line high again, or a new edge follows.

Three things break this: an event between the read of `STATUS` and the
write that clears it, which the write does not clear; a second payload
under one `RX_DR`, of which the handler reads one; and a transaction of the
handler that fails, after which it returns with its work undone.  Without
them the handler strands nothing, whatever the order of events and steps.

The value of `CONFIG` is arbitrary here.  The one that the program itself sets
masks all three events, so that the line stays high.
-/

namespace DsEthComm.Nrf24l01

open Conc

namespace Irq

/-! ## The system -/

/-- What the chip does by itself. -/
inductive Event where
  /-- An event bit of `STATUS` is set. -/
  | rxDr
  | txDs
  | maxRt
  /-- A payload arrives, and `RX_DR` is set. -/
  | receive (p : RxPayload)
deriving DecidableEq, Repr

/-- The bit of `STATUS` that an event sets. -/
def Event.bit : Event → Nat
  | .rxDr | .receive _ => 6
  | .txDs => 5
  | .maxRt => 4

/-- The effect of an event.  A full FIFO takes no payload. -/
def event : Event → Chip → Option Chip
  | .rxDr, c => some { c with rxDr := true }
  | .txDs, c => some { c with txDs := true }
  | .maxRt, c => some { c with maxRt := true }
  | .receive p, c =>
      if c.rxFifo.length < Chip.fifoSize ∧ 0 < p.bytes.length ∧ p.bytes.length ≤ 32 then
        some { c with rxDr := true, rxFifo := c.rxFifo ++ [p] }
      else none

/-- Only `NRF24InterruptThread` uses the radio. -/
def allowed (t : Client) (i : Api) : Bool := t = .irq && i = .interruptIrqHandler

def irqSystem : Pool driverSig World Client Api Byte Answer Event := system allowed id event

abbrev State := Conf driverSig World Client Api Byte

abbrev Label := PoolLabel Client Api Answer Event

/-- The thread is blocked in `chEvtWaitOne` with nothing pending, while the
chip waits to be served. -/
def Stranded (c : State) : Prop :=
  c.job .irq = none ∧ c.shared.pending = false ∧
    (c.shared.radio.chip.irqLow = true ∨
      c.shared.radio.chip.masked 6 = false ∧ c.shared.radio.chip.rxFifo ≠ [])

/-- The radio after its initialisation, with any `CONFIG`. -/
structure Quiet (w : World) : Prop where
  inited : w.radio.handle.inited = 1
  pending : w.pending = false
  rxDr : w.radio.chip.rxDr = false
  txDs : w.radio.chip.txDs = false
  maxRt : w.radio.chip.maxRt = false
  rxFifo : w.radio.chip.rxFifo = []

/-! ## The condition -/

/-- The operations that use the SPI bus. -/
def transacts : Op → Bool
  | .spiRead _ _ | .spiWrite _ _ => true
  | _ => false

/-- A transaction on `STATUS`. -/
def accessesStatus : Op → Bool
  | .spiRead cmd _ => cmd = commandRRegister ||| regStatus
  | .spiWrite cmd _ => cmd = commandWRegister ||| regStatus
  | _ => false

/-- The bits the handler is about to clear, when it has read `STATUS` and
not written it back. -/
def clearing : Option Op → Option Byte
  | some (.spiWrite cmd buf) =>
      if cmd = commandWRegister ||| regStatus then some (buf.getD 0 0) else none
  | _ => none

/-- The event brings a payload. -/
def Event.arrives : Event → Bool
  | .receive _ => true
  | _ => false

/-- No payload waits without its `RX_DR`, or `RX_DR` is masked. -/
def Signalled (c : Chip) : Prop := c.masked 6 = true ∨ c.rxFifo.length ≤ c.rxDr.toNat

instance (c : Chip) : Decidable (Signalled c) := inferInstanceAs (Decidable (_ ∨ _))

/-- * Between the read and the write of `STATUS`, the chip raises only
masked events and those the handler has read.
* No payload arrives while `RX_DR`, unmasked, stands for another one.
* The transactions on `STATUS` succeed, and the others of the handler fail
only when no payload waits without its `RX_DR`. -/
def Undisturbed (c : State) : Label → Prop
  | .env e =>
      let chip := c.shared.radio.chip
      (∀ prev ∈ clearing (c.next .irq), chip.masked e.bit = true ∨ bit prev e.bit = true) ∧
        (e.arrives = true →
          chip.masked 6 = true ∨ chip.rxDr = false ∨ chip.rxFifo = [])
  | .exec _ a =>
      ∀ o ∈ c.next .irq, a.fail = true → transacts o = true →
        accessesStatus o = false ∧ Signalled c.shared.radio.chip
  | _ => True

instance : ∀ c l, Decidable (Undisturbed c l)
  | c, .env _ => @instDecidableAnd _ _ (Option.decidableForallMem (clearing (c.next .irq))) _
  | c, .exec _ a =>
      have hdec (o : Op) : Decidable (a.fail = true → transacts o = true →
          accessesStatus o = false ∧ Signalled c.shared.radio.chip) := inferInstance
      @Option.decidableForallMem Op _ hdec (c.next .irq)
  | _, .enter _ _ | _, .leave _ => .isTrue trivial

/-! ## The handler as its monitor sees it -/

/-- How far the handler is. -/
inductive Phase where
  | start
  /-- It has read `prev` from `STATUS` and not written it back. -/
  | window (prev : Byte)
  /-- It has cleared the events; `due` says that a payload is still to be
  read for a cleared `RX_DR`. -/
  | served (due : Bool)

/-- The operations that touch neither the chip nor `handle->inited`. -/
def harmless : Op → Bool
  | .gpioWrite _ | .delayMs _ | .debugPrint _ _ | .receiveCallback _ _ _ | .hasCallback
  | .getInited | .getFinished | .setFinished _ => true
  | _ => false

/-- What the handler does in each phase. -/
def Phase.allows : Phase → Op → Prop
  | .start, o => harmless o = true ∨ o = .spiRead (commandRRegister ||| regStatus) 1
  | .window prev, o => o = .spiWrite (commandWRegister ||| regStatus) [prev]
  | .served due, o =>
      harmless o = true ∨ o = .spiWrite commandFlushTx [] ∨ o = .spiWrite commandFlushRx [] ∨
        o = .spiRead commandRRxPlWid 1 ∨
        ∃ len, o = .spiRead commandRRxPayload len ∧ (due = true → 0 < len ∧ len ≤ 33)

/-- What the handler relies on: it is initialised, and the CE pin and the
transactions on `STATUS` work. -/
def Expected : (o : Op) → o.Res → Prop
  | .getInited, r => r = (1 : Byte)
  | .gpioWrite _, r => r = true
  | .spiRead cmd len, r => accessesStatus (.spiRead cmd len) = true → r ≠ none
  | .spiWrite cmd buf, r => accessesStatus (.spiWrite cmd buf) = true → r = true
  | _, _ => True

/-- A transaction moves the handler on.  A payload is due until it is read,
its width is unusable, or a transaction fails. -/
def Phase.next : Phase → (o : Op) → o.Res → Phase
  | .start, .spiRead _ _, (r : Option (List Byte)) => .window ((r.getD []).getD 0 0)
  | .window prev, .spiWrite _ _, _ => .served (bit prev 6)
  | .served due, .spiWrite _ _, (r : Bool) => .served (due && r)
  | .served due, .spiRead cmd _, (r : Option (List Byte)) =>
      if cmd = commandRRxPlWid then
        let width := (r.getD []).getD 0 0
        .served (due && width ≠ 0 && width ≤ 33#8)
      else .served false
  | l, _, _ => l

def monitor : Monitor driverSig Phase where
  pre := Phase.allows
  may _ := Expected
  next := Phase.next

/-- The handler returns when nothing is due. -/
def Done (_ : Byte) (l : Phase) : Prop := l = .served false

theorem next_write_false (due : Bool) (cmd : Byte) (buf : List Byte) :
    monitor.next (.served due) (.spiWrite cmd buf) false = .served false := by
  simp [monitor, Phase.next]

theorem next_write_true (due : Bool) (cmd : Byte) (buf : List Byte) :
    monitor.next (.served due) (.spiWrite cmd buf) true = .served due := by
  simp [monitor, Phase.next]

theorem wp_irqDone : irqDone.wp monitor Done (.served false) := by
  simp [irqDone, failWith, monitor, Phase.allows, harmless, Phase.next, Done]

theorem wp_irqFail (fmt : String) : (irqFail fmt).wp monitor Done (.served false) := by
  simp [irqFail, monitor, Phase.allows, harmless, Phase.next, Done]

theorem wp_notify {Q : Unit → Phase → Prop} {due : Bool} (type : Interrupt) (num : Byte)
    (buf : List Byte) (h : Q () (.served due)) :
    (notify type num buf).wp monitor Q (.served due) := by
  simp [notify, monitor, Phase.allows, harmless, Phase.next, h]

theorem wp_irqReadPayload (prev : Byte) {width : Byte} {due : Bool}
    (h : due = true → width ≠ 0 ∧ width ≤ 33#8) :
    (irqReadPayload prev width).wp monitor Done (.served due) := by
  have hlen : due = true → 0 < width.toNat ∧ width.toNat ≤ 33 := by
    intro hd
    obtain ⟨hne, hle⟩ := h hd
    have hzero : width.toNat ≠ 0 := fun h0 => hne (BitVec.eq_of_toNat_eq h0)
    exact ⟨Nat.pos_of_ne_zero hzero, hle⟩
  have hallows : (Phase.served due).allows (.spiRead commandRRxPayload width.toNat) :=
    .inr (.inr (.inr (.inr ⟨_, rfl, hlen⟩)))
  rw [irqReadPayload, Prog.bind_eq, Prog.wp_bind, wp_spiRead]
  refine ⟨hallows, fun _ => wp_irqFail _, fun buffer _ => ?_⟩
  exact (Prog.wp_bind _ _ _).mpr (wp_notify _ _ _ wp_irqDone)

theorem wp_irqReceive (prev : Byte) (due : Bool) :
    (irqReceive prev).wp monitor Done (.served due) := by
  have hallows : (Phase.served due).allows (.spiRead commandRRxPlWid 1) :=
    .inr (.inr (.inr (.inl rfl)))
  have hflush : ∀ due, (Phase.served due).allows (.spiWrite commandFlushRx []) :=
    fun _ => .inr (.inr (.inl rfl))
  rw [irqReceive, Prog.bind_eq, Prog.wp_bind, wp_spiRead]
  refine ⟨hallows, fun _ => ?_, fun buf _ => ?_⟩
  · have hnext : monitor.next (.served due) (.spiRead commandRRxPlWid 1) none =
        .served false := by
      simp [monitor, Phase.next]
    rw [hnext]
    exact wp_irqFail _
  · have hnext : monitor.next (.served due) (.spiRead commandRRxPlWid 1) (some buf) =
        .served (due && buf.getD 0 0 ≠ 0 && buf.getD 0 0 ≤ 33#8) := by
      simp [monitor, Phase.next]
    rw [hnext]
    have hpay : ∀ due', (due' = true → due && buf.getD 0 0 ≠ 0 && buf.getD 0 0 ≤ 33#8) →
        (irqReadPayload prev (buf.getD 0 0)).wp monitor Done (.served due') := by
      intro due' hd
      apply wp_irqReadPayload
      intro hd'
      simpa using (Bool.and_eq_true_iff.mp (hd hd')).imp_left fun h => (Bool.and_eq_true_iff.mp h).2
    simp only [Prog.wp_ite, Prog.bind_eq, Prog.wp_bind, wp_spiWrite]
    refine ⟨fun _ => ⟨hflush _, fun _ => ?_, fun _ => ?_⟩, fun _ => hpay _ id⟩
    · rw [next_write_false]
      exact ⟨fun _ => wp_irqFail _, fun h => absurd rfl h⟩
    · rw [next_write_true]
      exact ⟨fun h => absurd h Bool.false_ne_true, fun _ => hpay _ id⟩

theorem wp_irqTail {prev : Byte} {due : Bool} (h : due = true → bit prev 6 = true) :
    (irqTail prev).wp monitor Done (.served due) := by
  unfold irqTail
  by_cases h6 : bit prev 6 = true
  · rw [if_pos h6]
    exact wp_irqReceive prev due
  · obtain rfl : due = false := Bool.eq_false_iff.mpr fun hd => h6 (h hd)
    rw [if_neg h6]
    exact wp_irqDone

theorem wp_irqSent {prev : Byte} {due : Bool} (h : due = true → bit prev 6 = true) :
    (irqSent prev).wp monitor Done (.served due) := by
  have hset : (Phase.served due).allows (.setFinished 1) := .inl rfl
  unfold irqSent
  split
  · simp only [Prog.bind_eq, Prog.wp_bind, wp_setFinished]
    exact ⟨hset, fun _ => wp_notify _ _ _ (wp_irqTail h)⟩
  · exact wp_irqTail h

theorem wp_irqMaxRt {prev : Byte} {due : Bool} (h : due = true → bit prev 6 = true) :
    (irqMaxRt prev).wp monitor Done (.served due) := by
  have hflush : (Phase.served due).allows (.spiWrite commandFlushTx []) := .inr (.inl rfl)
  have hset : ∀ due, (Phase.served due).allows (.setFinished 2) := fun _ => .inl rfl
  unfold irqMaxRt
  split
  · simp only [Prog.bind_eq, Prog.wp_bind, wp_spiWrite]
    refine ⟨hflush, fun _ => ?_, fun _ => ?_⟩
    · rw [next_write_false]
      exact wp_irqFail _
    · rw [next_write_true]
      simp only [Bool.not_true, Bool.false_eq_true, if_false, Prog.wp_bind, wp_setFinished]
      exact ⟨hset _, fun _ => wp_notify _ _ _ (wp_irqSent h)⟩
  · exact wp_irqSent h

theorem wp_irqServe (prev : Byte) : (irqServe prev).wp monitor Done (.served (bit prev 6)) := by
  unfold irqServe
  split
  · exact (Prog.wp_bind _ _ _).mpr (wp_notify _ _ _ (wp_irqMaxRt id))
  · exact wp_irqMaxRt id

/-- The handler follows its monitor. -/
theorem wp_interruptIrqHandler : interruptIrqHandler.wp monitor Done .start := by
  have hhandler : irqHandler.wp monitor (fun _ l => l = .served false) .start := by
    have hread : Phase.start.allows (.spiRead (commandRRegister ||| regStatus) 1) := .inr rfl
    have hwrite : ∀ prev, (Phase.window prev).allows
        (.spiWrite (commandWRegister ||| regStatus) [prev]) := fun _ => rfl
    have hno : ∀ {p : Prop}, false = true → p := fun h => absurd h Bool.false_ne_true
    unfold irqHandler checked
    simp only [Prog.bind_eq, Prog.wp_bind, wp_getInited, Prog.wp_ite, wp_gpioWrite, wp_spiRead]
    refine ⟨.inl rfl, fun b hb => ⟨fun hne => absurd hb hne, fun _ => ?_⟩⟩
    refine ⟨.inl rfl, hno, fun _ => ⟨hno, fun _ => ?_⟩⟩
    refine ⟨hread, fun hnone => absurd rfl (hnone (by decide)), fun buf _ => ?_⟩
    simp only [wp_spiWrite]
    exact ⟨hwrite _, fun hfalse => hno (hfalse rfl), fun _ => ⟨hno, fun _ => wp_irqServe _⟩⟩
  unfold interruptIrqHandler zeroOrOne
  rw [Prog.bind_eq, Prog.wp_bind]
  refine Prog.wp_mono ?_ hhandler
  intro r l hl
  simp [hl, Done]

/-! ## The invariant -/

/-- Every unmasked event bit that is set is one of `prev`. -/
structure Covered (c : Chip) (prev : Byte) : Prop where
  rxDr : c.rxDr = true → c.masked 6 = true ∨ bit prev 6 = true
  txDs : c.txDs = true → c.masked 5 = true ∨ bit prev 5 = true
  maxRt : c.maxRt = true → c.masked 4 = true ∨ bit prev 4 = true

/-- The line and the pending event in each phase: while the handler has not
cleared the events, the line is low and no edge can come; otherwise the
event is pending exactly when the line is low. -/
def Line (w : World) : Option Phase → Prop
  | none | some (.served _) => w.pending = w.radio.chip.irqLow
  | some .start => w.radio.chip.irqLow = true ∧ w.pending = false
  | some (.window prev) =>
      w.radio.chip.irqLow = true ∧ w.pending = false ∧ Covered w.radio.chip prev

/-- The payloads that the handler will still read in this call. -/
def due : Option Phase → Nat
  | some (.served true) => 1
  | _ => 0

/-- With `RX_DR` unmasked there is a payload read to come for every payload
in the FIFO. -/
def Accounted (c : Chip) (n : Nat) : Prop := c.masked 6 = false → c.rxFifo.length ≤ n + c.rxDr.toNat

structure Sound (w : World) (loc : Client → Option Phase) : Prop where
  inited : w.radio.handle.inited = 1
  others : ∀ t, t ≠ .irq → loc t = none
  line : Line w (loc .irq)
  accounted : Accounted w.radio.chip (due (loc .irq))
  widths : ∀ p ∈ w.radio.chip.rxFifo, 0 < p.bytes.length ∧ p.bytes.length ≤ 32

theorem Sound.start {w : World} (h : Quiet w) : Sound w fun _ => none where
  inited := h.inited
  others _ _ := rfl
  line := by simp [Line, Chip.irqLow, h.pending, h.rxDr, h.txDs, h.maxRt]
  accounted _ := by rw [h.rxFifo]; exact Nat.zero_le _
  widths p hp := by rw [h.rxFifo] at hp; contradiction

/-- A step that keeps the line. -/
theorem change_pending {w : World} {r : Radio} (h : r.chip.irqLow = w.radio.chip.irqLow) :
    (w.change r).pending = w.pending := by
  simp [World.change, h]

/-- Where the event is pending exactly when the line is low, it stays so. -/
theorem change_pending_eq {w : World} {r : Radio} (h : w.pending = w.radio.chip.irqLow)
    (hlow : w.radio.chip.irqLow = true → r.chip.irqLow = true) :
    (w.change r).pending = r.chip.irqLow := by
  rw [World.change, h]
  cases hw : w.radio.chip.irqLow with
  | false => rfl
  | true => rw [hlow hw]; rfl

/-- Where the line is low, no edge comes. -/
theorem change_pending_low {w : World} {r : Radio} (h : w.radio.chip.irqLow = true) :
    (w.change r).pending = w.pending := by
  simp [World.change, h]

/-! ## Events of the chip -/

section Event

variable {e : Event} {c c' : Chip}

theorem event_receive {p : RxPayload} (h : event (.receive p) c = some c') :
    (0 < p.bytes.length ∧ p.bytes.length ≤ 32) ∧
      c' = { c with rxDr := true, rxFifo := c.rxFifo ++ [p] } := by
  simp only [event] at h
  split at h
  · next hp => exact ⟨hp.2, (Option.some.inj h).symm⟩
  · contradiction

/-- Events only pull the line low. -/
theorem irqLow_event (h : event e c = some c') (hlow : c.irqLow = true) : c'.irqLow = true := by
  unfold Chip.irqLow Chip.masked at *
  cases e with
  | rxDr | txDs | maxRt =>
      obtain rfl := Option.some.inj h
      grind
  | receive p =>
      obtain ⟨-, rfl⟩ := event_receive h
      grind

theorem Covered.event {prev : Byte} (hc : Covered c prev)
    (hbit : c.masked e.bit = true ∨ DsEthComm.bit prev e.bit = true)
    (h : Irq.event e c = some c') : Covered c' prev := by
  cases e with
  | rxDr =>
      obtain rfl := Option.some.inj h
      exact ⟨fun _ => hbit, hc.txDs, hc.maxRt⟩
  | txDs =>
      obtain rfl := Option.some.inj h
      exact ⟨hc.rxDr, fun _ => hbit, hc.maxRt⟩
  | maxRt =>
      obtain rfl := Option.some.inj h
      exact ⟨hc.rxDr, hc.txDs, fun _ => hbit⟩
  | receive p =>
      obtain ⟨-, rfl⟩ := event_receive h
      exact ⟨fun _ => hbit, hc.txDs, hc.maxRt⟩

theorem Accounted.event {n : Nat} (hc : Accounted c n)
    (harr : e.arrives = true → c.masked 6 = true ∨ c.rxDr = false ∨ c.rxFifo = [])
    (h : Irq.event e c = some c') : Accounted c' n := by
  intro hmask
  cases e with
  | rxDr =>
      obtain rfl := Option.some.inj h
      have hle := hc hmask
      have hone : c.rxDr.toNat ≤ 1 := Bool.toNat_le _
      show c.rxFifo.length ≤ n + 1
      omega
  | txDs | maxRt =>
      obtain rfl := Option.some.inj h
      exact hc hmask
  | receive p =>
      obtain ⟨-, rfl⟩ := event_receive h
      have hle := hc hmask
      have hm : c.masked 6 = false := hmask
      show (c.rxFifo ++ [p]).length ≤ n + 1
      rw [List.length_append, List.length_singleton]
      obtain h6 | hdr | hempty := harr rfl
      · rw [hm] at h6
        contradiction
      · rw [hdr, Bool.toNat_false] at hle
        omega
      · rw [hempty, List.length_nil]
        omega

theorem widths_event (hw : ∀ p ∈ c.rxFifo, 0 < p.bytes.length ∧ p.bytes.length ≤ 32)
    (h : event e c = some c') : ∀ p ∈ c'.rxFifo, 0 < p.bytes.length ∧ p.bytes.length ≤ 32 := by
  cases e with
  | rxDr | txDs | maxRt =>
      obtain rfl := Option.some.inj h
      exact hw
  | receive p =>
      obtain ⟨hp, rfl⟩ := event_receive h
      intro q hq
      obtain hq | hq := List.mem_append.mp hq
      · exact hw q hq
      · obtain rfl := List.mem_singleton.mp hq
        exact hp

end Event

/-! ## Operations of the handler -/

theorem perform_harmless {o : Op} (h : harmless o = true) (s : Radio) (a : Answer) :
    (s.perform o a).1.chip = s.chip ∧ (s.perform o a).1.handle.inited = s.handle.inited ∧
      (s.handle.inited = 1 → Expected o (s.perform o a).2) := by
  cases o with
  | gpioWrite _ => exact ⟨rfl, rfl, fun _ => rfl⟩
  | getInited => exact ⟨rfl, rfl, fun hin => hin⟩
  | delayMs _ | debugPrint _ _ | receiveCallback _ _ _ | hasCallback | getFinished
  | setFinished _ => exact ⟨rfl, rfl, fun _ => trivial⟩
  | _ => contradiction

theorem next_harmless {o : Op} (h : harmless o = true) (l : Phase) (r : o.Res) :
    l.next o r = l := by
  cases o with
  | spiRead _ _ | spiWrite _ _ => contradiction
  | _ => cases l <;> rfl

section Exec

variable {w : World} {loc : Client → Option Phase} {a : Answer}

theorem line_change {r : Radio} (h : r.chip = w.radio.chip) {l : Option Phase} (hl : Line w l) :
    Line (w.change r) l := by
  have hp : (w.change r).pending = w.pending := change_pending (by rw [h])
  have hc : (w.change r).radio.chip = w.radio.chip := h
  unfold Line at *
  rw [hp, hc]
  exact hl

theorem Sound.harmless (h : Sound w loc) {l : Phase} (hl : loc .irq = some l) {o : Op}
    (ho : harmless o = true) (a : Answer) :
    Expected o (w.radio.perform o a).2 ∧
      Sound (w.change (w.radio.perform o a).1)
        (Function.update loc .irq (some (l.next o (w.radio.perform o a).2))) := by
  obtain ⟨hchip, hin, hexp⟩ := perform_harmless ho w.radio a
  refine ⟨hexp h.inited, ?_⟩
  rw [next_harmless ho, ← hl, Function.update_eq_self]
  refine ⟨hin.trans h.inited, h.others, line_change hchip h.line, ?_, ?_⟩
  · show Accounted (w.radio.perform o a).1.chip _
    rw [hchip]
    exact h.accounted
  · show ∀ p ∈ (w.radio.perform o a).1.chip.rxFifo, _
    rw [hchip]
    exact h.widths

/-- A transaction moves the handler on. -/
theorem Sound.move (h : Sound w loc) {c : Chip} {l : Phase}
    (hline : Line (w.change (w.radio.setChip c)) (some l)) (hacc : Accounted c (due (some l)))
    (hwid : ∀ p ∈ c.rxFifo, 0 < p.bytes.length ∧ p.bytes.length ≤ 32) :
    Sound (w.change (w.radio.setChip c)) (Function.update loc .irq (some l)) where
  inited := h.inited
  others t ht := by rw [Function.update_of_ne ht]; exact h.others t ht
  line := by rw [Function.update_self]; exact hline
  accounted := by rw [Function.update_self]; exact hacc
  widths := hwid

/-- A transaction after the events are cleared: the event bits stay. -/
theorem Sound.serve (h : Sound w loc) {d : Bool} (hl : loc .irq = some (.served d)) {c : Chip}
    {d' : Bool} (hlow : c.irqLow = w.radio.chip.irqLow)
    (hacc : Accounted c (due (some (.served d'))))
    (hwid : ∀ p ∈ c.rxFifo, p ∈ w.radio.chip.rxFifo) :
    Sound (w.change (w.radio.setChip c)) (Function.update loc .irq (some (.served d'))) := by
  refine h.move ?_ hacc fun p hp => h.widths p (hwid p hp)
  have hline := h.line
  rw [hl] at hline
  exact change_pending_eq hline fun hlow' => hlow.trans hlow'

theorem Signalled.accounted {c : Chip} (h : Signalled c) (n : Nat) : Accounted c n := by
  intro hm
  obtain h6 | hle := h
  · rw [hm] at h6
    contradiction
  · omega

/-- A transaction that fails: nothing is due any more. -/
theorem Sound.fail (h : Sound w loc) {d : Bool} (hl : loc .irq = some (.served d))
    (hsig : Signalled w.radio.chip) :
    Sound (w.change w.radio) (Function.update loc .irq (some (.served false))) :=
  h.serve hl rfl (hsig.accounted _) fun _ hp => hp

theorem Sound.flush (h : Sound w loc) {d : Bool} (hl : loc .irq = some (.served d)) {cmd : Byte}
    (hcmd : cmd = commandFlushTx ∨ cmd = commandFlushRx)
    (hsig : a.fail = true → Signalled w.radio.chip) :
    Sound (w.change (w.radio.spiWrite cmd [] a).1)
      (Function.update loc .irq (some (.served (d && (w.radio.spiWrite cmd [] a).2)))) := by
  have hacc := h.accounted
  rw [hl] at hacc
  cases hf : a.fail with
  | true =>
      rw [Radio.spiWrite_of_fail _ _ _ hf, Bool.and_false]
      exact h.fail hl (hsig hf)
  | false =>
      rw [Radio.spiWrite_of_ok _ _ (by simp) hf, Bool.and_true]
      obtain rfl | rfl := hcmd
      · exact h.serve hl rfl hacc fun _ hp => hp
      · exact h.serve hl rfl (fun _ => Nat.zero_le _) nofun

/-- The handler accepts the width of every payload that a chip receives. -/
theorem width_accepted {n : Nat} (hpos : 0 < n) (hle : n ≤ 32) :
    BitVec.ofNat 8 n ≠ 0 ∧ BitVec.ofNat 8 n ≤ 33#8 := by
  have hof : (BitVec.ofNat 8 n).toNat = n := by
    rw [BitVec.toNat_ofNat]
    omega
  constructor
  · intro h0
    rw [h0] at hof
    exact absurd hof (Nat.ne_of_lt hpos)
  · rw [BitVec.le_def, hof]
    exact Nat.le_succ_of_le hle

theorem Sound.readWidth (h : Sound w loc) {d : Bool} (hl : loc .irq = some (.served d))
    (hsig : a.fail = true → Signalled w.radio.chip) :
    Sound (w.change (w.radio.spiRead commandRRxPlWid 1 a).1)
      (Function.update loc .irq (some ((Phase.served d).next (.spiRead commandRRxPlWid 1)
        (w.radio.spiRead commandRRxPlWid 1 a).2))) := by
  have hacc := h.accounted
  rw [hl] at hacc
  cases hf : a.fail with
  | true =>
      rw [Radio.spiRead_of_fail _ _ _ hf]
      simpa [Phase.next] using h.fail hl (hsig hf)
  | false =>
      rw [Radio.spiRead_of_ok _ _ (by decide) (by decide) hf, Chip.read_rRxPlWid]
      cases hfifo : w.radio.chip.rxFifo with
      | nil =>
          simp only [Phase.next, if_true]
          refine h.serve hl rfl (fun _ => ?_) fun _ hp => hp
          rw [hfifo]
          exact Nat.zero_le _
      | cons p ps =>
          obtain ⟨hpos, hle⟩ := h.widths p (by rw [hfifo]; exact List.mem_cons_self)
          obtain ⟨hne, hle33⟩ := width_accepted hpos hle
          have hdue : (d && BitVec.ofNat 8 p.bytes.length ≠ 0 &&
              BitVec.ofNat 8 p.bytes.length ≤ 33#8) = d := by
            rw [decide_eq_true hne, decide_eq_true hle33, Bool.and_true, Bool.and_true]
          rw [Chip.read_rRxPlWid_cons hfifo]
          simp only [Phase.next, if_true, Option.getD_some, List.getD_cons_zero, hdue]
          exact h.serve hl rfl hacc fun _ hp => hp

theorem due_le_one (l : Option Phase) : due l ≤ 1 := by
  unfold due
  split <;> omega

/-- When nothing is due, the payloads in the FIFO are signalled. -/
theorem Sound.signalled (h : Sound w loc) (hl : loc .irq = some (.served false)) :
    Signalled w.radio.chip := by
  have hacc := h.accounted
  rw [hl] at hacc
  cases hm : w.radio.chip.masked 6 with
  | true => exact .inl hm
  | false => exact .inr (by simpa [due] using hacc hm)

theorem Sound.readPayload (h : Sound w loc) {d : Bool} (hl : loc .irq = some (.served d))
    {len : Nat} (hlen : d = true → 0 < len ∧ len ≤ 33)
    (hsig : a.fail = true → Signalled w.radio.chip) :
    Sound (w.change (w.radio.spiRead commandRRxPayload len a).1)
      (Function.update loc .irq (some (.served false))) := by
  have hacc := h.accounted
  have hone := due_le_one (loc .irq)
  by_cases hrej : ((Transport.Call.read commandRRxPayload false len).rejected || a.fail) = true
  · -- a read of the payload that is due is never rejected
    have hkept : Signalled w.radio.chip := by
      cases hf : a.fail with
      | true => exact hsig hf
      | false =>
          cases d with
          | true =>
              obtain ⟨h0, h33⟩ := hlen rfl
              simp [hf, Transport.Call.rejected, Transport.spiBufferSize] at hrej
              omega
          | false => exact h.signalled hl
    rw [Radio.spiRead, if_pos hrej]
    exact h.fail hl hkept
  · rw [Radio.spiRead, if_neg hrej]
    simp only [Chip.read_rRxPayload]
    refine h.serve hl rfl (fun hm => ?_) fun q hq => List.mem_of_mem_tail hq
    have hle := hacc hm
    simp only [due, List.length_tail]
    omega

/-- Nothing of `STATUS` is missing right after it is read. -/
theorem covered_status (c : Chip) : Covered c c.status where
  rxDr h := .inr (by rw [Chip.bit_status_rxDr]; exact h)
  txDs h := .inr (by rw [Chip.bit_status_txDs]; exact h)
  maxRt h := .inr (by rw [Chip.bit_status_maxRt]; exact h)

theorem Sound.readStatus (h : Sound w loc) (hl : loc .irq = some .start) (hf : a.fail = false) :
    (w.radio.spiRead (commandRRegister ||| regStatus) 1 a).2 ≠ none ∧
      Sound (w.change (w.radio.spiRead (commandRRegister ||| regStatus) 1 a).1)
        (Function.update loc .irq (some (Phase.start.next
          (.spiRead (commandRRegister ||| regStatus) 1)
          (w.radio.spiRead (commandRRegister ||| regStatus) 1 a).2))) := by
  have hacc := h.accounted
  have hline := h.line
  rw [hl] at hacc hline
  obtain ⟨hlow, hpend⟩ := hline
  have hread : w.radio.chip.read (commandRRegister ||| regStatus) 1 a.noise =
      (w.radio.chip, [w.radio.chip.status]) := by
    rw [Chip.read_rRegister _ (by decide)]
    exact congrArg _ (Chip.fit_one _ _)
  rw [Radio.spiRead_of_ok _ _ (by decide) (by decide) hf, hread]
  refine ⟨nofun, h.move ⟨hlow, ?_, covered_status _⟩ hacc h.widths⟩
  rw [change_pending_low hlow]
  exact hpend

/-- The chip after the write of `prev` to `STATUS`. -/
def cleared (c : Chip) (prev : Byte) : Chip :=
  { c with
    rxDr := c.rxDr && !bit prev 6
    txDs := c.txDs && !bit prev 5
    maxRt := c.maxRt && !bit prev 4 }

/-- Clearing what covers the events drives the line high. -/
theorem Covered.irqLow_cleared {c : Chip} {prev : Byte} (h : Covered c prev) :
    (cleared c prev).irqLow = false := by
  obtain ⟨h6, h5, h4⟩ := h
  unfold Chip.irqLow cleared Chip.masked at *
  grind

theorem Sound.writeStatus (h : Sound w loc) {prev : Byte} (hl : loc .irq = some (.window prev))
    (hf : a.fail = false) :
    (w.radio.spiWrite (commandWRegister ||| regStatus) [prev] a).2 = true ∧
      Sound (w.change (w.radio.spiWrite (commandWRegister ||| regStatus) [prev] a).1)
        (Function.update loc .irq (some (.served (bit prev 6)))) := by
  have hacc := h.accounted
  have hline := h.line
  rw [hl] at hacc hline
  obtain ⟨hlow, hpend, hcov⟩ := hline
  have hwrite : w.radio.chip.writeReg regStatus [prev] = cleared w.radio.chip prev := rfl
  rw [Radio.spiWrite_of_ok _ _ (by simp) hf, Chip.write_wRegister _ (by decide), hwrite]
  refine ⟨rfl, h.move ?_ (fun hm => ?_) h.widths⟩
  · show (w.change _).pending = (cleared w.radio.chip prev).irqLow
    rw [change_pending_low hlow, hpend, hcov.irqLow_cleared]
  · have hle := hacc hm
    have hm6 : w.radio.chip.masked 6 = false := hm
    have h6 := hcov.rxDr
    show w.radio.chip.rxFifo.length ≤
      due (some (.served (bit prev 6))) + (w.radio.chip.rxDr && !bit prev 6).toNat
    cases hr : w.radio.chip.rxDr with
    | false =>
        rw [hr] at hle
        simp only [due, Bool.toNat_false] at hle
        omega
    | true =>
        obtain hmask | hbit := h6 hr
        · rw [hm6] at hmask
          contradiction
        · rw [hr] at hle
          rw [hbit]
          exact hle

/-- Every operation of the handler keeps the invariant. -/
theorem Sound.exec (h : Sound w loc) {l : Phase} (hl : loc .irq = some l) {o : Op}
    (hpre : l.allows o)
    (hfail : a.fail = true → transacts o = true →
      accessesStatus o = false ∧ Signalled w.radio.chip) :
    Expected o (w.radio.perform o a).2 ∧
      Sound (w.change (w.radio.perform o a).1)
        (Function.update loc .irq (some (l.next o (w.radio.perform o a).2))) := by
  have hstatus : transacts o = true → accessesStatus o = true → a.fail = false := by
    intro ht hs
    cases hf : a.fail with
    | true =>
        rw [(hfail hf ht).1] at hs
        contradiction
    | false => rfl
  cases l with
  | start =>
      obtain ho | rfl := hpre
      · exact h.harmless hl ho a
      · obtain ⟨hres, hsound⟩ := h.readStatus hl (hstatus rfl rfl)
        exact ⟨fun _ => hres, hsound⟩
  | window prev =>
      obtain rfl := hpre
      obtain ⟨hres, hsound⟩ := h.writeStatus hl (hstatus rfl rfl)
      exact ⟨fun _ => hres, hsound⟩
  | served d =>
      obtain ho | rfl | rfl | rfl | ⟨len, rfl, hlen⟩ := hpre
      · exact h.harmless hl ho a
      · exact ⟨nofun, h.flush hl (.inl rfl) fun hf => (hfail hf rfl).2⟩
      · exact ⟨nofun, h.flush hl (.inr rfl) fun hf => (hfail hf rfl).2⟩
      · exact ⟨nofun, h.readWidth hl fun hf => (hfail hf rfl).2⟩
      · exact ⟨nofun, h.readPayload hl hlen fun hf => (hfail hf rfl).2⟩

end Exec

/-! ## Whole runs -/

/-- The program of the handler in the window is at the write of `STATUS`. -/
theorem clearing_of_window {c : State} {loc : Client → Option Phase}
    (hfol : Pool.Follows (fun _ _ => monitor) (fun _ _ => Done) c loc) {prev : Byte}
    (hl : loc .irq = some (.window prev)) : clearing (c.next .irq) = some prev := by
  have hirq := hfol .irq
  rw [hl] at hirq
  cases hj : c.job .irq with
  | none => rw [hj] at hirq; exact hirq.elim
  | some x =>
      obtain ⟨i, p⟩ := x
      rw [hj] at hirq
      cases p with
      | pure r => exact absurd hirq nofun
      | op o k =>
          obtain ⟨rfl, -⟩ := hirq
          rw [Conf.next_of_job hj]
          rfl

theorem Sound.env {w : World} {loc : Client → Option Phase} (h : Sound w loc) {e : Event}
    {c : Chip} (hc : event e w.radio.chip = some c)
    (hcov : ∀ prev, loc .irq = some (.window prev) →
      w.radio.chip.masked e.bit = true ∨ bit prev e.bit = true)
    (harr : e.arrives = true → w.radio.chip.masked 6 = true ∨ w.radio.chip.rxDr = false ∨
      w.radio.chip.rxFifo = []) :
    Sound (w.change (w.radio.setChip c)) loc where
  inited := h.inited
  others := h.others
  line := by
    have hlow := irqLow_event hc
    have hline := h.line
    cases hl : loc .irq with
    | none =>
        rw [hl] at hline
        exact change_pending_eq hline hlow
    | some l =>
        rw [hl] at hline
        cases l with
        | start =>
            obtain ⟨h1, h2⟩ := hline
            exact ⟨hlow h1, (change_pending_low h1).trans h2⟩
        | window prev =>
            obtain ⟨h1, h2, h3⟩ := hline
            exact ⟨hlow h1, (change_pending_low h1).trans h2, h3.event (hcov prev hl) hc⟩
        | served d => exact change_pending_eq hline hlow
  accounted := h.accounted.event harr hc
  widths := widths_event h.widths hc

/-- A call begins with the event taken. -/
theorem enter_cases {w w' : World} {t : Client} {i : Api} (h : irqSystem.enter t i w = some w') :
    t = .irq ∧ i = .interruptIrqHandler ∧ w.pending = true ∧ w' = { w with pending := false } := by
  obtain ⟨ha, hcases⟩ := enter_system h
  obtain ⟨rfl, rfl⟩ : t = .irq ∧ i = .interruptIrqHandler := by simpa [allowed] using ha
  obtain ⟨-, hp, rfl⟩ | ⟨hne, -⟩ := hcases
  · exact ⟨rfl, rfl, hp, rfl⟩
  · exact absurd rfl hne

theorem Sound.enter {w : World} {loc : Client → Option Phase} (h : Sound w loc)
    (hidle : loc .irq = none) (hpend : w.pending = true) :
    Sound { w with pending := false } (Function.update loc .irq (some .start)) := by
  have hline := h.line
  have hacc := h.accounted
  rw [hidle] at hline hacc
  refine ⟨h.inited, fun t ht => ?_, ?_, ?_, h.widths⟩
  · rw [Function.update_of_ne ht]
    exact h.others t ht
  · rw [Function.update_self]
    exact ⟨hline.symm.trans hpend, rfl⟩
  · rw [Function.update_self]
    exact hacc

theorem Sound.leave {w : World} {loc : Client → Option Phase} (h : Sound w loc)
    (hl : loc .irq = some (.served false)) : Sound w (Function.update loc .irq none) := by
  have hline := h.line
  have hacc := h.accounted
  rw [hl] at hline hacc
  refine ⟨h.inited, fun t ht => ?_, ?_, ?_, h.widths⟩
  · rw [Function.update_of_ne ht]
    exact h.others t ht
  · rw [Function.update_self]
    exact hline
  · rw [Function.update_self]
    exact hacc

/-- Only `NRF24InterruptThread` is in a call. -/
theorem Sound.eq_irq {w : World} {loc : Client → Option Phase} (h : Sound w loc) {t : Client}
    {l : Phase} (hl : loc t = some l) : t = .irq := by
  by_contra hne
  rw [h.others t hne] at hl
  contradiction

/-- The handler follows its monitor, and the invariant holds. -/
def Inv (c : State) : Prop :=
  ∃ loc, Pool.Follows (fun _ _ => monitor) (fun _ _ => Done) c loc ∧ Sound c.shared loc

/-- What every undisturbed step keeps. -/
theorem inv_step (c : State) (l : Label) (c' : State) (hc : Inv c) (hok : Undisturbed c l)
    (h : irqSystem.step c l = some c') : Inv c' := by
  refine Pool.step_follows irqSystem ?_ ?_ ?_ ?_ c l c' hc hok h
  · intro c loc t i s' hR hidle _ hs
    obtain ⟨rfl, rfl, hpend, rfl⟩ := enter_cases hs
    exact ⟨.start, wp_interruptIrqHandler, hR.enter hidle hpend⟩
  · intro c loc t i o k a l hfol hR hjob hl hpre hok
    obtain rfl := hR.eq_irq hl
    exact hR.exec hl hpre (hok o (Conf.next_of_job hjob))
  · intro c loc t i r l hR hjob hl hQ _
    obtain rfl := hR.eq_irq hl
    obtain rfl : l = .served false := hQ
    exact hR.leave hl
  · intro c loc e s' hfol hR hok hs
    obtain ⟨chip, hchip, rfl⟩ := Option.map_eq_some_iff.mp hs
    obtain ⟨hcov, harr⟩ := hok
    exact hR.env hchip (fun prev hl => hcov prev (clearing_of_window hfol hl)) harr

theorem Inv.not_stranded {c : State} (h : Inv c) : ¬ Stranded c := by
  obtain ⟨loc, hfol, hS⟩ := h
  rintro ⟨hjob, hpend, hwork⟩
  have hidle : loc .irq = none := hfol.idle hjob
  have hline := hS.line
  have hacc := hS.accounted
  rw [hidle] at hline hacc
  have hlow : c.shared.radio.chip.irqLow = false := hline.symm.trans hpend
  obtain hl | ⟨hm, hne⟩ := hwork
  · rw [hlow] at hl
    contradiction
  · have hdr : c.shared.radio.chip.rxDr = false := by
      cases hr : c.shared.radio.chip.rxDr with
      | false => rfl
      | true => simp [Chip.irqLow, hr, hm] at hlow
    have hle := hacc hm
    rw [hdr] at hle
    exact hne (List.length_eq_zero_iff.mp (Nat.le_zero.mp hle))

/-- In every undisturbed run, with any `CONFIG`, no event of the chip is
stranded. -/
theorem notStranded_of_undisturbed (w : World) (hw : Quiet w) (ls : List Label)
    (hok : Along irqSystem.step Undisturbed (Pool.start w) ls) (c : State)
    (h : run irqSystem.step (Pool.start w) ls = some c) : ¬ Stranded c := by
  have hstart : Inv (Pool.start w) := ⟨fun _ => none, Pool.follows_start w, Sound.start hw⟩
  exact (invariant_along inv_step hstart hok h).not_stranded

/-! ## An undisturbed run and a disturbed one -/

def quietWorld : World := ⟨sampleRadio, false⟩

theorem quiet_quietWorld : Quiet quietWorld := ⟨rfl, rfl, rfl, rfl, rfl, rfl⟩

def payload : RxPayload := ⟨1#3, [0x11#8, 0x22#8]⟩

/-- The thread takes the event and performs `n` operations. -/
def handle (n : Nat) : List Label :=
  .enter .irq .interruptIrqHandler :: List.replicate n (.exec .irq .ok)

/-- An acknowledgement is served; then a payload arrives, and a second one
after `RX_DR` was cleared for the first. -/
def undisturbedRun : List Label :=
  List.flatten [
    [.env .txDs], handle 8, [.leave .irq, .env (.receive payload)], handle 4,
    [.env (.receive payload)], List.replicate 5 (.exec .irq .ok), [.leave .irq],
    handle 9, [.leave .irq]]

theorem notStranded_of_undisturbed_undisturbedRun :
    Along irqSystem.step Undisturbed (Pool.start quietWorld) undisturbedRun ∧
      ∃ c, run irqSystem.step (Pool.start quietWorld) undisturbedRun = some c ∧ ¬ Stranded c :=
  have hok : Along irqSystem.step Undisturbed (Pool.start quietWorld) undisturbedRun := by decide
  ⟨hok, _, rfl, notStranded_of_undisturbed quietWorld quiet_quietWorld undisturbedRun hok _ rfl⟩

/-- A payload arrives after `STATUS` was read for an acknowledgement and
before it is written back. -/
def windowRun : List Label :=
  List.flatten [
    [.env .txDs], handle 3, [.env (.receive payload)], List.replicate 5 (.exec .irq .ok),
    [.leave .irq]]

/-- The line stays low, no edge follows, and the payload is never read. -/
theorem stranded_payload : Quiet quietWorld ∧
    ∃ c, run irqSystem.step (Pool.start quietWorld) windowRun = some c ∧ Stranded c :=
  ⟨quiet_quietWorld, _, rfl, rfl, rfl, .inl rfl⟩

end Irq

end DsEthComm.Nrf24l01
