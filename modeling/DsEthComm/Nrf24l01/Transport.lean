import DsEthComm.Conc.Run
import DsEthComm.Bytes
import Mathlib.Logic.Function.Basic

/-!
# DsEthComm.Nrf24l01.Transport

`nrf24l01_interface_spi_read` and `nrf24l01_interface_spi_write`, the two
functions through which every user of the radio reaches the SPI bus.

Each call is cut into the steps at which another thread can preempt it.
Its buffers are function-static, one set for `spi_read` and one for
`spi_write`, while the bus is locked only around the exchange:

```
fill tx · clear rx · acquire · exchange · release · copy out
```

A call is isolated from the others when no second call fills the transmit
buffer before its exchange and no second read touches the receive buffer
before its copy.  Above this module a call is one atomic transaction.
-/

namespace DsEthComm.Nrf24l01

open Conc

/-- The threads that talk to the radio. -/
inductive Client where
  /-- `NRF24TxThread`. -/
  | tx
  /-- `NRF24InterruptThread`. -/
  | irq
  /-- The shell thread, in `nrf_addr` and the other commands. -/
  | shell
deriving DecidableEq, Repr

instance decidableForallClient (P : Client → Prop) [DecidablePred P] : Decidable (∀ t, P t) :=
  decidable_of_iff (P .tx ∧ P .irq ∧ P .shell)
    ⟨fun h t => match t with | .tx => h.1 | .irq => h.2.1 | .shell => h.2.2,
      fun h => ⟨h .tx, h .irq, h .shell⟩⟩

namespace Transport

/-! ## Calls -/

/-- `SPI_BUFFER_SIZE`. -/
def spiBufferSize : Nat := 34

/-- A call of the interface. -/
inductive Call where
  /-- `spi_read(reg, buf, len)`; `null` is `buf == NULL`. -/
  | read (reg : Byte) (null : Bool) (len : Nat)
  /-- `spi_write(reg, buf, len)`; a `buf` that is given holds `len` bytes. -/
  | write (reg : Byte) (buf : Option (List Byte)) (len : Nat)
      (size : ∀ b ∈ buf, b.length = len)
deriving DecidableEq

namespace Call

def isRead : Call → Bool
  | .read .. => true
  | .write .. => false

def reg : Call → Byte
  | .read reg _ _ => reg
  | .write reg _ _ _ => reg

def len : Call → Nat
  | .read _ _ len => len
  | .write _ _ len _ => len

/-- The checks at the top of the two functions, which `return 1`. -/
def rejected : Call → Bool
  | .read _ null len => null || len = 0 || len + 1 > spiBufferSize
  | .write _ _ len _ => len ≥ spiBufferSize

/-- The caller's data: zeros for a read and for a `NULL` buffer. -/
def data : Call → List Byte
  | .read _ _ len => List.replicate len 0
  | .write _ buf len _ => buf.getD (List.replicate len 0)

/-- What the call is meant to put on the bus: `reg`, then its own data. -/
def frame (c : Call) : List Byte := c.reg :: c.data

/-- The contents of `spi_tx_buffer` after the `memset`, the store of `reg`
and, for a write with data, the `memcpy`. -/
def txImage (c : Call) : List Byte :=
  c.frame ++ List.replicate (spiBufferSize - (c.len + 1)) 0

@[simp] theorem length_data (c : Call) : c.data.length = c.len := by
  cases c with
  | read reg null len => simp [data, Call.len]
  | write reg buf len size =>
      cases buf with
      | none => simp [data, Call.len]
      | some b => simpa [data, Call.len] using size b rfl

/-- The first `len + 1` bytes of the transmit buffer are the frame. -/
@[simp] theorem take_txImage (c : Call) : c.txImage.take (c.len + 1) = c.frame := by
  have hlen : c.frame.length = c.len + 1 := by simp [frame]
  rw [txImage, ← hlen, List.take_left]

end Call

/-! ## State -/

/-- Where a thread is in its call. -/
inductive Pc where
  | idle
  /-- Past the checks, before the `memset` of `spi_tx_buffer`. -/
  | fill (c : Call)
  /-- Before the `memset` of `spi_rx_buffer`; only in `spi_read`. -/
  | clear (c : Call)
  /-- Before `spiAcquireBus`. -/
  | acquire (c : Call)
  /-- Before `spiExchange` or `spiSend`. -/
  | exchange (c : Call)
  /-- Before `spiReleaseBus`; the transaction received `miso`. -/
  | release (c : Call) (miso : List Byte) (ok : Bool)
  /-- Before the `memcpy` to the caller; only in `spi_read`. -/
  | copy (c : Call) (miso : List Byte) (ok : Bool)
deriving DecidableEq

/-- What a call returned: the status, the bytes its own transaction
received after the command byte, and the bytes its caller got. -/
structure Return where
  call : Call
  ret : Byte
  received : List Byte
  returned : List Byte
deriving DecidableEq

/-- The static buffers, the bus lock, and the callers. -/
structure State where
  /-- `spi_tx_buffer` and `spi_rx_buffer` of `spi_read`. -/
  readTx : List Byte
  readRx : List Byte
  /-- `spi_tx_buffer` of `spi_write`. -/
  writeTx : List Byte
  /-- The owner of `SPID2`. -/
  owner : Option Client
  pc : Client → Pc
  /-- The transactions so far with what they put on the bus, last first. -/
  bus : List (Call × List Byte)
  /-- The finished calls, last first. -/
  returns : List Return

def zeros : List Byte := List.replicate spiBufferSize 0

def init : State where
  readTx := zeros
  readRx := zeros
  writeTx := zeros
  owner := none
  pc := fun _ => .idle
  bus := []
  returns := []

/-! ## Steps -/

/-- What a scheduler can choose. -/
inductive Label where
  /-- A thread enters `spi_read` or `spi_write`. -/
  | call (t : Client) (c : Call)
  /-- A thread runs its transaction, which receives `miso`. -/
  | exchange (t : Client) (miso : List Byte) (ok : Bool)
  /-- A thread runs any other step of its call. -/
  | go (t : Client)

namespace State

/-- Move a thread. -/
def goto (s : State) (t : Client) (p : Pc) : State :=
  { s with pc := Function.update s.pc t p }

/-- The transmit buffer a call uses. -/
def txBuffer (s : State) (c : Call) : List Byte :=
  if c.isRead then s.readTx else s.writeTx

/-- Fill the transmit buffer of a call. -/
def fillTx (s : State) (c : Call) : State :=
  if c.isRead then { s with readTx := c.txImage } else { s with writeTx := c.txImage }

/-- The transaction of a call: `len + 1` bytes out of its transmit buffer;
`spi_read` stores the incoming bytes, `spi_write` drops them. -/
def transact (s : State) (c : Call) (miso : List Byte) : State :=
  { s with
    bus := (c, (s.txBuffer c).take (c.len + 1)) :: s.bus
    readRx := if c.isRead then miso ++ s.readRx.drop (c.len + 1) else s.readRx }

/-- The last step of a call: `spi_read` hands out `spi_rx_buffer + 1`. -/
def finish (s : State) (c : Call) (miso : List Byte) (ok : Bool) : State :=
  { s with
    returns :=
      { call := c
        ret := if ok then 0 else 1
        received := if c.isRead then miso.drop 1 else []
        returned := if c.isRead then (s.readRx.drop 1).take c.len else [] } :: s.returns }

end State

/-- One step of the system. -/
def step (s : State) : Label → Option State
  | .call t c =>
      if s.pc t = .idle then
        if c.rejected then some s else some (s.goto t (.fill c))
      else none
  | .exchange t miso ok =>
      match s.pc t with
      | .exchange c =>
          if miso.length = c.len + 1 then
            some ((s.transact c miso).goto t (.release c miso ok))
          else none
      | _ => none
  | .go t =>
      match s.pc t with
      | .fill c => some ((s.fillTx c).goto t (if c.isRead then .clear c else .acquire c))
      | .clear c => some ({ s with readRx := zeros }.goto t (.acquire c))
      | .acquire c =>
          if s.owner = none then some ({ s with owner := some t }.goto t (.exchange c))
          else none
      | .release c miso ok =>
          if c.isRead then some ({ s with owner := none }.goto t (.copy c miso ok))
          else some (({ s with owner := none }.finish c miso ok).goto t .idle)
      | .copy c miso ok => some ((s.finish c miso ok).goto t .idle)
      | .idle | .exchange _ => none

/-! ## Isolation -/

/-- Every transaction carried its own frame, and every read returned what
its own transaction received. -/
structure Isolated (s : State) : Prop where
  sent : ∀ x ∈ s.bus, x.2 = x.1.frame
  returned : ∀ r ∈ s.returns, r.returned = r.received

/-- The call has filled its transmit buffer and not yet sent it. -/
def Pc.filled (isRead : Bool) : Pc → Bool
  | .clear c | .acquire c | .exchange c => c.isRead = isRead
  | _ => false

/-- The read has received its bytes and not yet copied them out. -/
def Pc.received : Pc → Bool
  | .release c _ _ | .copy c _ _ => c.isRead
  | _ => false

/-- The next step of the first call overwrites what the second still needs:
it fills the transmit buffer of the same function between the second's fill
and transaction, or it clears or receives into the receive buffer between
the second's transaction and copy. -/
def Pc.overwrites : Pc → Pc → Bool
  | .fill c, p => p.filled c.isRead
  | .clear _, p => p.received
  | .exchange c, p => c.isRead && p.received
  | _, _ => false

/-- The thread that takes a step. -/
def Label.thread : Label → Client
  | .call t _ | .exchange t _ _ | .go t => t

/-- The step overwrites nothing that another call still needs. -/
def Exclusive (s : State) (l : Label) : Prop :=
  ∀ u, u ≠ l.thread → (s.pc l.thread).overwrites (s.pc u) = false

instance (s : State) (l : Label) : Decidable (Exclusive s l) :=
  inferInstanceAs (Decidable (∀ _, _))

/-! ## The invariant -/

/-- What a call in flight relies on: its image in the transmit buffer up to
its transaction, its bytes in the receive buffer after it. -/
def Pc.Relies (s : State) : Pc → Prop
  | .idle | .fill _ => True
  | .clear c | .acquire c | .exchange c => s.txBuffer c = c.txImage
  | .release c miso _ | .copy c miso _ =>
      c.isRead = true → (s.readRx.drop 1).take c.len = miso.drop 1

/-- The invariant behind `Isolated`. -/
structure Inv (s : State) : Prop where
  relies : ∀ t, (s.pc t).Relies s
  isolated : Isolated s

theorem inv_init : Inv init where
  relies := fun _ => trivial
  isolated := ⟨by simp [init], by simp [init]⟩

@[simp] theorem State.goto_pc (s : State) (t u : Client) (p : Pc) :
    (s.goto t p).pc u = if u = t then p else s.pc u := by
  simp [State.goto, Function.update_apply]

/-- A call not between its fill and its transaction does not rely on the
transmit buffers, one not between its transaction and its copy not on the
receive buffer. -/
theorem Pc.Relies.of_buffers {s s' : State} {p : Pc} (h : p.Relies s)
    (hr : p.filled true = true → s'.readTx = s.readTx)
    (hw : p.filled false = true → s'.writeTx = s.writeTx)
    (hx : p.received = true → s'.readRx = s.readRx) : p.Relies s' := by
  cases p <;> simp_all [Pc.Relies, Pc.filled, Pc.received, State.txBuffer]

/-- A step that ends in `p` for its own thread keeps every reliance if `p`
may rely on the new buffers and the others on what they relied on. -/
theorem relies_goto {s : State} {t : Client} {p : Pc} (hs : ∀ u, (s.pc u).Relies s)
    (s' : State) (hpc : s'.pc = s.pc) (hp : p.Relies s')
    (hother : ∀ u, u ≠ t → (s.pc u).Relies s → (s.pc u).Relies s') :
    ∀ u, ((s'.goto t p).pc u).Relies (s'.goto t p) := by
  intro u
  have hbuf : ∀ q : Pc, q.Relies s' → q.Relies (s'.goto t p) :=
    fun q hq => hq.of_buffers (fun _ => rfl) (fun _ => rfl) (fun _ => rfl)
  rw [State.goto_pc]
  split
  case isTrue => exact hbuf p hp
  case isFalse hu => rw [hpc]; exact hbuf _ (hother u hu (hs u))

/-- Filling a transmit buffer that no other call needs. -/
theorem relies_fillTx {s : State} {t : Client} {c : Call} (hs : ∀ u, (s.pc u).Relies s)
    (hex : ∀ u, u ≠ t → (s.pc u).filled c.isRead = false) (p : Pc)
    (hp : p.Relies (s.fillTx c)) :
    ∀ u, (((s.fillTx c).goto t p).pc u).Relies ((s.fillTx c).goto t p) := by
  refine relies_goto hs _ (by unfold State.fillTx; split <;> rfl) hp ?_
  intro u hu hrel
  have hfree := hex u hu
  unfold State.fillTx
  cases hread : c.isRead with
  | true =>
      rw [hread] at hfree
      exact hrel.of_buffers (by simp [hfree]) (fun _ => rfl) (fun _ => rfl)
  | false =>
      rw [hread] at hfree
      exact hrel.of_buffers (fun _ => rfl) (by simp [hfree]) (fun _ => rfl)

theorem txBuffer_fillTx (s : State) (c : Call) : (s.fillTx c).txBuffer c = c.txImage := by
  unfold State.fillTx State.txBuffer
  split <;> simp_all

/-- The bytes of a transaction, as `spi_read` finds them in its buffer. -/
private theorem take_drop_received {miso rx : List Byte} {n : Nat} (h : miso.length = n + 1) :
    ((miso ++ rx).drop 1).take n = miso.drop 1 := by
  have hlen : (miso.drop 1).length = n := by simp [h]
  rw [List.drop_append_of_le_length (by omega), ← hlen, List.take_left]

/-- Finishing a call whose receive buffer is its own. -/
theorem Isolated.finish {s : State} (hs : Isolated s) {c : Call} {miso : List Byte} {ok : Bool}
    (hrx : c.isRead = true → (s.readRx.drop 1).take c.len = miso.drop 1) :
    Isolated (s.finish c miso ok) := by
  refine ⟨hs.sent, ?_⟩
  intro r hr
  obtain rfl | hold := List.mem_cons.mp hr
  · cases hread : c.isRead with
    | true => simpa [hread] using hrx hread
    | false => simp
  · exact hs.returned r hold

/-- A transaction whose transmit buffer holds its own image. -/
theorem Isolated.transact {s : State} (hs : Isolated s) {c : Call} {miso : List Byte}
    (htx : s.txBuffer c = c.txImage) : Isolated (s.transact c miso) := by
  refine ⟨?_, hs.returned⟩
  intro x hx
  obtain rfl | hold := List.mem_cons.mp hx
  · simp only [htx, Call.take_txImage]
  · exact hs.sent x hold

theorem Isolated.of_logs {s s' : State} (hs : Isolated s) (hbus : s'.bus = s.bus)
    (hret : s'.returns = s.returns) : Isolated s' :=
  ⟨by rw [hbus]; exact hs.sent, by rw [hret]; exact hs.returned⟩

/-- A step that leaves the buffers as they are. -/
theorem Inv.keep {s : State} (hs : Inv s) {t : Client} {p : Pc} (s' : State) (hpc : s'.pc = s.pc)
    (hbuf : s'.readTx = s.readTx ∧ s'.writeTx = s.writeTx ∧ s'.readRx = s.readRx)
    (hp : p.Relies s) (hiso : Isolated s') : Inv (s'.goto t p) := by
  obtain ⟨hr, hw, hx⟩ := hbuf
  have hkeep : ∀ q : Pc, q.Relies s → q.Relies s' :=
    fun q hq => hq.of_buffers (fun _ => hr) (fun _ => hw) (fun _ => hx)
  constructor
  · exact relies_goto hs.relies s' hpc (hkeep p hp) fun u _ hu => hkeep (s.pc u) hu
  · exact hiso.of_logs rfl rfl

theorem Inv.fill {s : State} {t : Client} {c : Call} (hs : Inv s) (hok : Exclusive s (.go t))
    (hpc : s.pc t = .fill c) {p : Pc} (hp : p = .clear c ∨ p = .acquire c) :
    Inv ((s.fillTx c).goto t p) := by
  have hfree : ∀ u, u ≠ t → (s.pc u).filled c.isRead = false := by
    intro u hu
    simpa [Label.thread, hpc, Pc.overwrites] using hok u hu
  constructor
  · apply relies_fillTx hs.relies hfree
    obtain rfl | rfl := hp <;> exact txBuffer_fillTx s c
  · apply hs.isolated.of_logs <;> (unfold State.fillTx; split <;> rfl)

theorem Inv.clear {s : State} {t : Client} {c : Call} (hs : Inv s) (hok : Exclusive s (.go t))
    (hpc : s.pc t = .clear c) : Inv ({ s with readRx := zeros }.goto t (.acquire c)) := by
  have hrel := hs.relies t
  rw [hpc] at hrel
  constructor
  · refine relies_goto hs.relies { s with readRx := zeros } rfl hrel ?_
    intro u hu hu'
    have hfree : (s.pc u).received = false := by
      simpa [Label.thread, hpc, Pc.overwrites] using hok u hu
    exact hu'.of_buffers (fun _ => rfl) (fun _ => rfl) (by simp [hfree])
  · exact hs.isolated.of_logs rfl rfl

theorem Inv.go {s s' : State} {t : Client} (hs : Inv s) (hok : Exclusive s (.go t))
    (h : step s (.go t) = some s') : Inv s' := by
  have hrel := hs.relies t
  have hidle : Pc.idle.Relies s := trivial
  have howner : ∀ o, Isolated { s with owner := o } := fun _ => hs.isolated.of_logs rfl rfl
  simp only [step] at h
  split at h
  case h_1 c hpc =>
    obtain rfl := Option.some.inj h
    apply hs.fill hok hpc
    split
    · exact .inl rfl
    · exact .inr rfl
  case h_2 c hpc =>
    obtain rfl := Option.some.inj h
    exact hs.clear hok hpc
  case h_3 c hpc =>
    rw [hpc] at hrel
    split at h
    case isFalse => contradiction
    case isTrue =>
      obtain rfl := Option.some.inj h
      exact hs.keep { s with owner := some t } rfl ⟨rfl, rfl, rfl⟩ hrel (howner _)
  case h_4 c miso ok hpc =>
    rw [hpc] at hrel
    split at h
    case isTrue =>
      obtain rfl := Option.some.inj h
      exact hs.keep { s with owner := none } rfl ⟨rfl, rfl, rfl⟩ hrel (howner _)
    case isFalse =>
      obtain rfl := Option.some.inj h
      have hfin : Isolated ({ s with owner := none }.finish c miso ok) := (howner none).finish hrel
      exact hs.keep ({ s with owner := none }.finish c miso ok) rfl ⟨rfl, rfl, rfl⟩ hidle hfin
  case h_5 c miso ok hpc =>
    rw [hpc] at hrel
    obtain rfl := Option.some.inj h
    exact hs.keep (s.finish c miso ok) rfl ⟨rfl, rfl, rfl⟩ hidle (hs.isolated.finish hrel)
  all_goals contradiction

theorem Inv.exchange {s s' : State} {t : Client} {miso : List Byte} {ok : Bool} (hs : Inv s)
    (hok : Exclusive s (.exchange t miso ok)) (h : step s (.exchange t miso ok) = some s') :
    Inv s' := by
  have hrel := hs.relies t
  simp only [step] at h
  split at h
  case h_1 c hpc =>
    rw [hpc] at hrel
    split at h
    case isFalse => contradiction
    case isTrue hlen =>
      obtain rfl := Option.some.inj h
      constructor
      · refine relies_goto hs.relies (s.transact c miso) rfl ?_ ?_
        · intro hread
          simp only [State.transact, hread, if_true]
          exact take_drop_received hlen
        · intro u hu hu'
          have hfree : c.isRead = true → (s.pc u).received = false := by
            simpa [Label.thread, hpc, Pc.overwrites] using hok u hu
          refine hu'.of_buffers (fun _ => rfl) (fun _ => rfl) ?_
          intro hrec
          cases hread : c.isRead with
          | true => simp [hfree hread] at hrec
          | false => simp [State.transact, hread]
      · have hsent : Isolated (s.transact c miso) := hs.isolated.transact hrel
        exact hsent.of_logs rfl rfl
  case h_2 => contradiction

theorem Inv.call {s s' : State} {t : Client} {c : Call} (hs : Inv s)
    (h : step s (.call t c) = some s') : Inv s' := by
  simp only [step] at h
  split at h
  case isFalse => contradiction
  case isTrue =>
    split at h
    case isTrue =>
      obtain rfl := Option.some.inj h
      exact hs
    case isFalse =>
      obtain rfl := Option.some.inj h
      exact hs.keep s rfl ⟨rfl, rfl, rfl⟩ trivial hs.isolated

theorem Inv.step {s s' : State} {l : Label} (hs : Inv s) (hok : Exclusive s l)
    (h : step s l = some s') : Inv s' := by
  cases l with
  | call t c => exact hs.call h
  | exchange t miso ok => exact hs.exchange hok h
  | go t => exact hs.go hok h

/-- **Calls are isolated** in every run in which no step overwrites a static
buffer that another call still needs. -/
theorem isolated_of_exclusive (ls : List Label) (s : State) (hrun : run step init ls = some s)
    (hok : Along step Exclusive init ls) : Isolated s :=
  (invariant_along (fun _ _ _ => Inv.step) inv_init hok hrun).isolated

/-- The shell reads `STATUS` while the interrupt thread writes it: the two
functions have buffers of their own. -/
def isolatedRun : List Label :=
  [.call .shell (.read 0x07 false 1), .go .shell, .go .shell,
    .call .irq (.write 0x27 (some [0x70]) 1 (by simp)), .go .irq, .go .irq,
    .exchange .irq [0x0E, 0x00] true, .go .irq,
    .go .shell, .exchange .shell [0x0E, 0x40] true, .go .shell, .go .shell]

theorem isolated_of_exclusive_isolatedRun :
    (run step init isolatedRun).map (fun s => (s.bus.map Prod.snd, s.returns.map Return.returned)) =
        some ([[0x07, 0x00], [0x27, 0x70]], [[0x40], []]) ∧
      ∀ s, run step init isolatedRun = some s → Isolated s :=
  ⟨by decide, fun s h => isolated_of_exclusive isolatedRun s h (by decide)⟩

/-- The shell has filled its buffer to read `STATUS` (0x07) when the
interrupt thread preempts it and reads the payload width (0x60). -/
def preemptedRun : List Label :=
  [.call .shell (.read 0x07 false 1), .go .shell, .go .shell,
    .call .irq (.read 0x60 false 1), .go .irq, .go .irq, .go .irq,
    .exchange .irq [0x0E, 0x1F] true, .go .irq, .go .irq,
    .go .shell, .exchange .shell [0x0E, 0x1F] true]

/-- The shell's transaction sends the command of the interrupt thread. -/
theorem preempted_call_not_isolated :
    ∃ s, run step init preemptedRun = some s ∧
      s.bus.head? = some (.read 0x07 false 1, [0x60, 0x00]) ∧ ¬ Isolated s := by
  have hend : (run step init preemptedRun).map State.bus =
      some [(.read 0x07 false 1, [0x60, 0x00]), (.read 0x60 false 1, [0x60, 0x00])] := by decide
  obtain ⟨s, hs, hbus⟩ := Option.map_eq_some_iff.mp hend
  refine ⟨s, hs, by rw [hbus]; rfl, fun h => ?_⟩
  have hsent := h.sent (.read 0x07 false 1, [0x60, 0x00]) (by rw [hbus]; simp)
  revert hsent
  decide

end Transport

end DsEthComm.Nrf24l01
