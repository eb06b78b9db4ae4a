import DsEthComm.Nrf24l01.Radio

/-!
# DsEthComm.Nrf24l01.Residue.System

A sending thread and the interrupt handler over one chip, the observer that
follows them, and what the sending side of the chip can go through.
-/

namespace DsEthComm.Nrf24l01

open Conc

namespace Residue

/-! ## The system -/

/-- The radio, and whether it transmits at the moment. -/
structure Station where
  radio : Radio
  onAir : Bool

def Station.setChip (x : Station) (c : Chip) (onAir : Bool) : Station :=
  ⟨x.radio.setChip c, onAir⟩

/-- What the chip does by itself. -/
inductive Event where
  /-- It starts to transmit the payload at the head of the FIFO. -/
  | begins
  /-- The payload is acknowledged. -/
  | sent
  /-- It ran out of retransmissions, and stays in the FIFO. -/
  | failed
  /-- The receiving side, taken as arbitrary. -/
  | received (rxDr : Bool) (rxFifo : List RxPayload)
deriving Repr

/-- A transmission starts only while CE is high and `MAX_RT` is clear.  Once
started it goes on when CE goes low. -/
def event : Event → Station → Option Station
  | .begins, x =>
      if x.radio.ce = true ∧ x.radio.chip.maxRt = false ∧ x.radio.chip.txFifo ≠ [] then
        some { x with onAir := true }
      else none
  | .sent, x =>
      match x.radio.chip.txFifo with
      | [] => none
      | _ :: ps =>
          if x.onAir then some (x.setChip { x.radio.chip with txDs := true, txFifo := ps } false)
          else none
  | .failed, x =>
      match x.radio.chip.txFifo with
      | [] => none
      | _ :: _ =>
          if x.onAir then some (x.setChip { x.radio.chip with maxRt := true } false) else none
  | .received rxDr rxFifo, x =>
      some (x.setChip { x.radio.chip with rxDr := rxDr, rxFifo := rxFifo } x.onAir)

/-- One thread sends, the other runs the handler. -/
def allowed : Client → Api → Bool
  | .tx, .send _ _ => true
  | .irq, .interruptIrqHandler => true
  | _, _ => false

/-- The calls begin at any time, and no transaction fails. -/
def sendSystem : Pool driverSig Station Client Api Byte (List Byte) Event where
  code := Api.code
  enter t i x := if allowed t i then some x else none
  perform _ _ x o noise :=
    let y := x.radio.perform o (answer noise)
    ({ x with radio := y.1 }, y.2)
  leave _ _ _ x := x
  env := event

/-! ## The observer -/

/-- What the handler has done about `MAX_RT`. -/
inductive Stage where
  /-- Nothing is to be done. -/
  | away
  /-- `MAX_RT` was read. -/
  | due
  /-- It was cleared, and the FIFO is still to be flushed. -/
  | cleared
deriving DecidableEq, Repr

/-- An operation of the handler. -/
def Stage.next (l : Stage) : (o : Op) → o.Res → Stage
  | .spiRead cmd _, (r : Option (List Byte)) =>
      match r with
      | some buf =>
          if cmd = commandRRegister ||| regStatus then
            if bit (buf.getD 0 0) 4 then .due else .away
          else l
      | none => l
  | .spiWrite cmd _, (r : Bool) =>
      if r then
        if cmd = commandFlushTx then .away
        else if cmd = commandWRegister ||| regStatus then if l = .due then .cleared else l
        else l
      else l
  | _, _ => l

/-- How far a send is. -/
inductive Progress where
  | begun
  /-- It has cleared the flag. -/
  | opened
  /-- It has written its payload. -/
  | written
  /-- Since then the chip has raised `TX_DS` for it, or the handler has
  executed `FLUSH_TX`. -/
  | taken
deriving DecidableEq, Repr

/-- An operation of the send. -/
def Progress.next (p : Progress) : (o : Op) → o.Res → Progress
  | .setFinished _, _ => .opened
  | .spiWrite _ _, (r : Bool) => if r then .written else p
  | _, _ => p

/-- Something takes the payload from the FIFO. -/
def Progress.take : Progress → Progress
  | .written => .taken
  | p => p

/-- The operation flushes the transmit FIFO. -/
def flushes : (o : Op) → o.Res → Bool
  | .spiWrite cmd _, (r : Bool) => r && cmd = commandFlushTx
  | _, _ => false

structure Ghost where
  stage : Stage
  /-- An acknowledged send is under way that found an empty FIFO and no event
  in `STATUS`. -/
  clean : Bool
  progress : Progress
deriving DecidableEq

/-- The transmit FIFO is empty, and the event bits are clear. -/
def cleanChip (c : Chip) : Bool := c.txFifo.isEmpty && !c.rxDr && !c.txDs && !c.maxRt

def Ghost.enter (g : Ghost) : Client → Api → Station → Ghost
  | .tx, .send _ useAck, x =>
      { g with clean := useAck && cleanChip x.radio.chip, progress := .begun }
  | .irq, _, _ => { g with stage := .away }
  | _, _, _ => g

def Ghost.perform (g : Ghost) : Client → (o : Op) → o.Res → Ghost
  | .tx, o, r => { g with progress := g.progress.next o r }
  | .irq, o, r =>
      { g with
        stage := g.stage.next o r
        progress := if flushes o r then g.progress.take else g.progress }
  | .shell, _, _ => g

def Ghost.leave (g : Ghost) : Client → Ghost
  | .tx => { g with clean := false }
  | .irq => { g with stage := .away }
  | .shell => g

def Ghost.event (g : Ghost) : Event → Ghost
  | .sent => { g with progress := g.progress.take }
  | _ => g

def observer : Pool.Observer driverSig Station Client Api Byte Event Ghost where
  enter t i x g := g.enter t i x
  perform t _ _ o r g := g.perform t o r
  leave t _ _ _ g := g.leave t
  env e _ g := g.event e

def observed : Pool driverSig (Station × Ghost) Client Api Byte (List Byte) Event :=
  sendSystem.observe observer

abbrev State := Conf driverSig (Station × Ghost) Client Api Byte

abbrev Label := PoolLabel Client Api (List Byte) Event

/-- Both threads idle.  A chip with `MAX_RT` set does not transmit. -/
def start (s : Radio) (onAir : Bool) : State :=
  Pool.start (⟨s, onAir && !s.chip.maxRt⟩, ⟨.away, false, .begun⟩)

/-! ## The property and its condition -/

/-- The payload and the status of an acknowledged send that is about to
return. -/
def returning (c : State) : Option (TxPayload × Byte) :=
  match c.job .tx with
  | some (.send buf true, .pure r) => some (⟨true, reverseBuffer buf⟩, r)
  | _ => none

/-- An acknowledged send that began with a clean chip and returns 1 or 5
leaves neither its payload nor `MAX_RT`. -/
def NoResidue (c : State) : Label → Prop
  | .leave .tx =>
      ∀ x ∈ returning c, c.shared.2.clean = true → x.2 = 1 ∨ x.2 = 5 →
        x.1 ∉ c.shared.1.radio.chip.txFifo ∧ c.shared.1.radio.chip.maxRt = false
  | _ => True

/-- The wait of a send reads `STATUS` only when it has run out.  By then the
payload has been taken. -/
def OrderlySend (g : Ghost) : Op → Prop
  | .spiRead cmd _ => cmd = commandRRegister ||| regStatus → g.progress = .taken
  | _ => True

/-- The handler does not mark the flag of a send for an older payload. -/
def OrderlyHandler (g : Ghost) : Op → Prop
  | .setFinished value => value = 2 → g.progress = .begun ∨ g.progress = .taken
  | _ => True

/-- While a send that began with a clean chip is under way, the handler stores
2 for its payload only, `MAX_RT` is not raised between the handler's clearing
and its flush, and the wait runs out only when the payload was acknowledged or
flushed. -/
def Orderly (c : State) : Label → Prop
  | .exec .tx _ => c.shared.2.clean = true → ∀ o ∈ c.next .tx, OrderlySend c.shared.2 o
  | .exec .irq _ => c.shared.2.clean = true → ∀ o ∈ c.next .irq, OrderlyHandler c.shared.2 o
  | .env .failed => c.shared.2.clean = true → c.shared.2.stage ≠ .cleared
  | _ => True

instance : ∀ c l, Decidable (NoResidue c l)
  | c, .leave .tx =>
      have hdec (x : TxPayload × Byte) : Decidable
          (c.shared.2.clean = true → x.2 = 1 ∨ x.2 = 5 →
            x.1 ∉ c.shared.1.radio.chip.txFifo ∧ c.shared.1.radio.chip.maxRt = false) :=
        inferInstance
      @Option.decidableForallMem (TxPayload × Byte) _ hdec (returning c)
  | _, .leave .irq | _, .leave .shell | _, .enter _ _ | _, .exec _ _ | _, .env _ =>
      .isTrue trivial

instance (g : Ghost) : ∀ o, Decidable (OrderlySend g o)
  | .spiRead _ _ => inferInstanceAs (Decidable (_ → _))
  | .spiInit | .spiDeinit | .gpioInit | .gpioDeinit | .spiWrite _ _ | .gpioWrite _ | .delayMs _
  | .debugPrint _ _ | .receiveCallback _ _ _ | .link _ | .hasCallback | .getInited
  | .setInited _ | .getFinished | .setFinished _ | .getTxAddr | .getTxAddrSet | .setTxAddr _
  | .setTxAddrSet _ => .isTrue trivial

instance (g : Ghost) : ∀ o, Decidable (OrderlyHandler g o)
  | .setFinished _ => inferInstanceAs (Decidable (_ → _))
  | .spiInit | .spiDeinit | .gpioInit | .gpioDeinit | .spiRead _ _ | .spiWrite _ _ | .gpioWrite _
  | .delayMs _ | .debugPrint _ _ | .receiveCallback _ _ _ | .link _ | .hasCallback | .getInited
  | .setInited _ | .getFinished | .getTxAddr | .getTxAddrSet | .setTxAddr _
  | .setTxAddrSet _ => .isTrue trivial

instance : ∀ c l, Decidable (Orderly c l)
  | c, .exec .tx _ =>
      have hdec (o : Op) : Decidable (OrderlySend c.shared.2 o) := inferInstance
      have : Decidable (∀ o ∈ c.next .tx, OrderlySend c.shared.2 o) :=
        @Option.decidableForallMem Op _ hdec (c.next .tx)
      inferInstanceAs (Decidable (c.shared.2.clean = true → _))
  | c, .exec .irq _ =>
      have hdec (o : Op) : Decidable (OrderlyHandler c.shared.2 o) := inferInstance
      have : Decidable (∀ o ∈ c.next .irq, OrderlyHandler c.shared.2 o) :=
        @Option.decidableForallMem Op _ hdec (c.next .irq)
      inferInstanceAs (Decidable (c.shared.2.clean = true → _))
  | c, .env .failed =>
      inferInstanceAs (Decidable (c.shared.2.clean = true → c.shared.2.stage ≠ .cleared))
  | _, .env .begins | _, .env .sent | _, .env (.received _ _) | _, .exec .shell _ | _, .enter _ _
  | _, .leave _ => .isTrue trivial

/-! ## The sending side -/

/-- What the argument looks at. -/
structure View where
  txFifo : List TxPayload
  maxRt : Bool
  onAir : Bool
  finished : Byte
  stage : Stage
  clean : Bool
  progress : Progress

def view (x : Station) (g : Ghost) : View where
  txFifo := x.radio.chip.txFifo
  maxRt := x.radio.chip.maxRt
  onAir := x.onAir
  finished := x.radio.handle.finished
  stage := g.stage
  clean := g.clean
  progress := g.progress

/-- What an orderly step of the handler can do. -/
inductive Serves (v : View) : View → Prop
  | skip : Serves v v
  /-- The handler begins or ends. -/
  | turn : Serves v { v with stage := .away }
  | read : Serves v { v with stage := if v.maxRt then .due else .away }
  /-- The write of `STATUS` when `MAX_RT` was read. -/
  | clear (h : v.stage = .due) : Serves v { v with maxRt := false, stage := .cleared }
  /-- The write of `STATUS` when it was not. -/
  | keep (value : Bool) (h : value = true → v.maxRt = true) : Serves v { v with maxRt := value }
  | flush (h : v.stage = .cleared) :
      Serves v { v with txFifo := [], stage := .away, progress := v.progress.take }
  | storeFailed (h : v.clean = true → v.progress = .begun ∨ v.progress = .taken) :
      Serves v { v with finished := 2 }
  | storeSent : Serves v { v with finished := 1 }

/-- What the chip can do by itself. -/
inductive Happens (v : View) : View → Prop
  | skip : Happens v v
  | begins (hmax : v.maxRt = false) : Happens v { v with onAir := true }
  | sent {p : TxPayload} {ps : List TxPayload} (hair : v.onAir = true)
      (hfifo : v.txFifo = p :: ps) :
      Happens v { v with txFifo := ps, onAir := false, progress := v.progress.take }
  | failed (hair : v.onAir = true) (hfifo : v.txFifo ≠ [])
      (h : v.clean = true → v.stage ≠ .cleared) :
      Happens v { v with maxRt := true, onAir := false }

/-- With `MAX_RT` set nothing is on the air. -/
def Quiet (v : View) : Prop := v.onAir = true → v.maxRt = false

/-- Nothing of an earlier payload is left. -/
def Bare (v : View) : Prop := v.txFifo = [] ∧ v.maxRt = false

/-- From the payload write on. -/
structure Tended (v : View) : Prop where
  progress : v.progress = .written ∨ v.progress = .taken
  /-- There is no payload but that of the send. -/
  single : v.txFifo.length ≤ 1
  /-- An acknowledged or a flushed payload is gone. -/
  taken : v.progress = .taken → v.txFifo = []
  clear : v.stage = .cleared → v.maxRt = false
  /-- Whatever took the payload left `MAX_RT` clear. -/
  gone : v.txFifo = [] → v.maxRt = false
  /-- The flag is marked only for a payload that is gone. -/
  marked : v.finished ≠ 0 → v.finished ≠ 1 → v.txFifo = []

section View

variable {v v' : View}

theorem clear_of_keep {value : Bool} (hvalue : value = true → v.maxRt = true)
    (h : v.maxRt = false) : value = false := by
  refine Bool.eq_false_iff.mpr fun hset => ?_
  rw [hvalue hset] at h
  contradiction

/-- The handler sets no `MAX_RT`. -/
theorem Quiet.serves (h : Quiet v) (hs : Serves v v') : Quiet v' := by
  cases hs with
  | clear => exact fun _ => rfl
  | keep value hvalue => exact fun hair => clear_of_keep hvalue (h hair)
  | _ => exact h

theorem Quiet.happens (h : Quiet v) (hs : Happens v v') : Quiet v' := by
  cases hs with
  | skip => exact h
  | begins hmax => exact fun _ => hmax
  | sent | failed => exact nofun

theorem Bare.serves (h : Bare v) (hs : Serves v v') : Bare v' := by
  cases hs with
  | clear => exact ⟨h.1, rfl⟩
  | keep value hvalue => exact ⟨h.1, clear_of_keep hvalue h.2⟩
  | flush => exact ⟨rfl, h.2⟩
  | _ => exact h

/-- An empty FIFO gives the chip nothing to do. -/
theorem Bare.happens (h : Bare v) (hs : Happens v v') : Bare v' := by
  cases hs with
  | skip | begins => exact h
  | sent _ hfifo => simp [h.1] at hfifo
  | failed _ hfifo => exact absurd h.1 hfifo

/-- A payload that is on its way, or gone. -/
theorem Tended.take (h : v.progress = .written ∨ v.progress = .taken) :
    v.progress.take = .taken := by
  obtain h | h := h <;> rw [h] <;> rfl

/-- The handler cleans up in the right order. -/
theorem Tended.serves (h : Tended v) (hclean : v.clean = true) (hs : Serves v v') :
    Tended v' := by
  obtain ⟨progress, single, taken, clear, gone, marked⟩ := h
  cases hs with
  | skip => exact ⟨progress, single, taken, clear, gone, marked⟩
  | turn => exact ⟨progress, single, taken, nofun, gone, marked⟩
  | read =>
      refine ⟨progress, single, taken, ?_, gone, marked⟩
      cases hmax : v.maxRt <;> exact fun _ => by first | rfl | contradiction
  | clear => exact ⟨progress, single, taken, fun _ => rfl, fun _ => rfl, marked⟩
  | keep value hvalue =>
      exact ⟨progress, single, taken, fun hs => clear_of_keep hvalue (clear hs),
        fun hs => clear_of_keep hvalue (gone hs), marked⟩
  | flush hstage =>
      have hmax := clear hstage
      exact ⟨.inr (Tended.take progress), Nat.zero_le 1, fun _ => rfl, nofun, fun _ => hmax,
        fun _ _ => rfl⟩
  | storeFailed hown =>
      -- the flag is stored for this payload
      have htaken : v.progress = .taken := by
        obtain hbegun | htaken := hown hclean
        · rw [hbegun] at progress
          obtain h | h := progress <;> contradiction
        · exact htaken
      exact ⟨progress, single, taken, clear, gone, fun _ _ => taken htaken⟩
  | storeSent => exact ⟨progress, single, taken, clear, gone, fun _ h1 => absurd rfl h1⟩

/-- The chip does not disturb it. -/
theorem Tended.happens (h : Tended v) (hclean : v.clean = true) (hq : Quiet v)
    (hs : Happens v v') : Tended v' := by
  obtain ⟨progress, single, taken, clear, gone, marked⟩ := h
  cases hs with
  | skip | begins => exact ⟨progress, single, taken, clear, gone, marked⟩
  | sent hair hfifo =>
      rename_i p ps
      have hnil : ps = [] := by
        rw [hfifo, List.length_cons] at single
        exact List.eq_nil_of_length_eq_zero (by omega)
      subst hnil
      exact ⟨.inr (Tended.take progress), Nat.zero_le 1, fun _ => rfl, clear, fun _ => hq hair,
        fun _ _ => rfl⟩
  | failed hair hfifo hstage =>
      exact ⟨progress, single, taken, fun hs => absurd hs (hstage hclean),
        fun hnil => absurd hnil hfifo, marked⟩

/-- The handler does not clear the flag. -/
theorem Serves.finished_ne (hs : Serves v v') (h : v.finished ≠ 0) : v'.finished ≠ 0 := by
  cases hs with
  | storeFailed => exact (by decide : (2 : Byte) ≠ 0)
  | storeSent => exact (by decide : (1 : Byte) ≠ 0)
  | _ => exact h

end View

end Residue

end DsEthComm.Nrf24l01
