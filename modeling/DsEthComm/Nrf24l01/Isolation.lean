import DsEthComm.Nrf24l01.Radio

/-!
# DsEthComm.Nrf24l01.Isolation

`nrf24l01_basic_send` of `NRF24TxThread` between the other users of the
radio.  From its `set_active(FALSE)` to its payload write it relies on the
CE pin and on the two address registers, which the interrupt handler and
`nrf24l01_basic_set_tx_address` of the shell change with no lock between.

An observer follows how far the send is.  The send is isolated in every run
in which, between those two points, no other thread raises CE and none
reprograms an address register that the send has already written.

This is about the driver under any use of it.  In the program as delivered the
two other threads are idle: the set-up masks all interrupts and the interrupt
thread is not woken, and no line makes the shell call `nrf_addr` with five
arguments.
-/

namespace DsEthComm.Nrf24l01

open Conc

namespace Isolation

/-! ## The system -/

/-- `NRF24TxThread` sends, `NRF24InterruptThread` handles interrupts, and the
shell sets addresses. -/
def allowed : Client → Api → Bool
  | .tx, .basicSend _ _ _ => true
  | .irq, .interruptIrqHandler => true
  | .shell, .basicSetTxAddress _ => true
  | _, _ => false

def radioSystem : Pool driverSig World Client Api Byte (List Byte) Air :=
  system allowed answer fun e c => some (c.air e)

/-! ## The observer -/

/-- How far a send is on its way to its payload write, and the address it
was called with. -/
inductive Stage where
  /-- Before `set_active(FALSE)`, or past the payload write. -/
  | out
  /-- CE was driven low. -/
  | lowered (addr : Addr)
  /-- `TX_ADDR` is written. -/
  | txWritten (addr : Addr)
  /-- `RX_ADDR_P0` is written too. -/
  | rxWritten (addr : Addr)
deriving DecidableEq

/-- The address that the send has written to `TX_ADDR`. -/
def Stage.txAddr : Stage → Option Addr
  | .txWritten addr | .rxWritten addr => some addr
  | _ => none

/-- The address that the send has written to `RX_ADDR_P0`. -/
def Stage.rxAddr : Stage → Option Addr
  | .rxWritten addr => some addr
  | _ => none

/-- An operation of the send to `addr`. -/
def Stage.next (addr : Addr) (l : Stage) : Op → Stage
  | .gpioWrite false => if l = .out then .lowered addr else l
  | .spiWrite cmd _ =>
      if cmd = commandWRegister ||| regTxAddr then .txWritten addr
      else if cmd = commandWRegister ||| regRxAddrP0 then .rxWritten addr
      else if isPayload cmd then .out
      else l
  | _ => l

structure Ghost where
  stage : Stage
  /-- CE has been low since the `set_active(FALSE)` of the current send. -/
  ceLow : Bool
deriving DecidableEq

/-- The stage moves with the operations of the send. -/
def Ghost.stageAfter (g : Ghost) : Client → Api → Op → Stage
  | .tx, .basicSend addr _ _, o => g.stage.next addr o
  | _, _, _ => g.stage

/-- The `set_active(FALSE)` of a send starts the watch on CE, and any rise
ends it. -/
def Ghost.ceAfter (g : Ghost) (t : Client) : Op → Bool
  | .gpioWrite true => false
  | .gpioWrite false => g.ceLow || (t = .tx && g.stage = .out)
  | _ => g.ceLow

def observer : Pool.Observer driverSig World Client Api Byte Air Ghost where
  enter _ _ _ g := g
  perform t i _ o _ g := ⟨g.stageAfter t i o, g.ceAfter t o⟩
  leave t _ _ _ g := if t = .tx then { g with stage := .out } else g
  env _ _ g := g

def observed : Pool driverSig (World × Ghost) Client Api Byte (List Byte) Air :=
  radioSystem.observe observer

abbrev State := Conf driverSig (World × Ghost) Client Api Byte

abbrev Label := PoolLabel Client Api (List Byte) Air

/-- All threads idle. -/
def start (w : World) : State := Pool.start (w, ⟨.out, false⟩)

/-! ## The property and its condition -/

/-- The address of the send whose next operation is its payload write. -/
def sending (c : State) : Option Addr :=
  match c.call .tx, c.next .tx with
  | some (.basicSend addr _ _), some (.spiWrite cmd _) => if isPayload cmd then some addr else none
  | _, _ => none

/-- A payload is written with the address registers as the send programmed
them and CE low since its `set_active(FALSE)`. -/
def Isolated (c : State) : Label → Prop
  | .exec .tx _ => ∀ addr ∈ sending c,
      c.shared.1.radio.chip.txAddr.toList = addr.toList.reverse ∧
        c.shared.1.radio.chip.rxAddrP0.toList = addr.toList.reverse ∧ c.shared.2.ceLow = true
  | _ => True

/-- The operations of another thread that a send cannot bear at its stage. -/
def disturbs (l : Stage) : Op → Bool
  | .gpioWrite value => value && l ≠ .out
  | .spiWrite cmd buf =>
      cmd = commandWRegister ||| regTxAddr && l.txAddr.any (fun addr => buf ≠ addr.toList.reverse) ||
        cmd = commandWRegister ||| regRxAddrP0 &&
          l.rxAddr.any (fun addr => buf ≠ addr.toList.reverse)
  | _ => false

/-- Between `set_active(FALSE)` and the payload write of a send, no other
thread raises CE, and none writes another address to a register that the
send has written. -/
def Exclusive (c : State) : Label → Prop
  | .exec t _ => t ≠ .tx → ∀ o ∈ c.next t, disturbs c.shared.2.stage o = false
  | _ => True

instance : ∀ c l, Decidable (Isolated c l)
  | c, .exec .tx _ => Option.decidableForallMem (sending c)
  | _, .exec .irq _ | _, .exec .shell _ | _, .enter _ _ | _, .leave _ | _, .env _ =>
      .isTrue trivial

instance : ∀ c l, Decidable (Exclusive c l)
  | c, .exec t _ =>
      have hdec (o : Op) : Decidable (disturbs c.shared.2.stage o = false) := inferInstance
      have : Decidable (∀ o ∈ c.next t, disturbs c.shared.2.stage o = false) :=
        @Option.decidableForallMem Op _ hdec (c.next t)
      inferInstanceAs (Decidable (t ≠ .tx → _))
  | _, .enter _ _ | _, .leave _ | _, .env _ => .isTrue trivial

/-! ## The send as its monitor sees it -/

def sendMonitor (addr : Addr) : Monitor driverSig Stage where
  pre l o := match (o : Op) with
    | .spiWrite cmd buf =>
        cmd = commandWRegister ||| regTxAddr ∧ l = .lowered addr ∧ buf = addr.toList.reverse ∨
          cmd = commandWRegister ||| regRxAddrP0 ∧ l = .txWritten addr ∧
            buf = addr.toList.reverse ∨
          isPayload cmd = true ∧ l = .rxWritten addr
    | .gpioWrite true => l = .out
    | _ => True
  may _ _ _ := True
  next l o _ := l.next addr o

def monitor : Client → Api → Monitor driverSig Stage
  | .tx, .basicSend addr _ _ => sendMonitor addr
  | .tx, _ => .stuck driverSig Stage
  | _, _ => .free driverSig Stage

/-- `nrf24l01_send` with both addresses written. -/
theorem wp_send (addr : Addr) (buf : List Byte) (useAck : Bool) :
    (send buf useAck).wp (sendMonitor addr) (fun _ _ => True) (.rxWritten addr) := by
  have hpay := isPayload_payloadCommand useAck
  have htx : payloadCommand useAck ≠ commandWRegister ||| regTxAddr := by
    cases useAck <;> decide
  have hrx : payloadCommand useAck ≠ commandWRegister ||| regRxAddrP0 := by
    cases useAck <;> decide
  have hignores : Ignores (sendMonitor addr) .out := by
    intro o ho
    cases o <;> first | contradiction | exact ⟨trivial, fun _ => rfl⟩
  have hawait : awaitAck.wp (sendMonitor addr) (fun _ _ => True) .out :=
    hignores.wp_awaitAck fun _ => trivial
  simp [send, checked, failWith, sendMonitor, Stage.next, hpay, htx, hrx]
  exact fun _ _ => hawait

/-- A send follows its monitor. -/
theorem wp_basicSend (addr : Addr) (buf : List Byte) (useAck : Bool) :
    (basicSend addr buf useAck).wp (sendMonitor addr) (fun _ _ => True) .out := by
  have hne : commandWRegister ||| regRxAddrP0 ≠ commandWRegister ||| regTxAddr := by decide
  have hsend := wp_send addr buf useAck
  simp [basicSend, setActive, setTxAddress, setRxPipe0Address, setAddress, checked, failWith,
    zeroOrOne, sendMonitor, Stage.next, take_defaultAddressLen, hne]
  exact fun _ _ _ _ _ _ => hsend

/-! ## The invariant -/

/-- What a send relies on at its stage. -/
def Holds (l : Stage) (s : Radio) (ceLow : Bool) : Prop :=
  (l ≠ .out → ceLow = true) ∧
    (∀ addr ∈ l.txAddr, s.chip.txAddr.toList = addr.toList.reverse) ∧
    ∀ addr ∈ l.rxAddr, s.chip.rxAddrP0.toList = addr.toList.reverse

/-- The observer and the monitor of `NRF24TxThread` agree, and what the send
relies on holds. -/
def Tied (s : World × Ghost) (loc : Client → Option Stage) : Prop :=
  s.2.stage = (loc .tx).getD .out ∧ Holds s.2.stage s.1.radio s.2.ceLow

section Perform

variable {l : Stage} {s : Radio} {ceLow : Bool} {o : Op}

theorem eq_of_disturbs_txAddr {buf : List Byte} {addr : Addr} (ha : addr ∈ l.txAddr)
    (hd : disturbs l (.spiWrite (commandWRegister ||| regTxAddr) buf) = false) :
    buf = addr.toList.reverse := by
  have hsome : l.txAddr = some addr := ha
  unfold disturbs at hd
  have hpair := (Bool.or_eq_false_iff.mp hd).1
  simpa [hsome] using hpair

theorem eq_of_disturbs_rxAddr {buf : List Byte} {addr : Addr} (ha : addr ∈ l.rxAddr)
    (hd : disturbs l (.spiWrite (commandWRegister ||| regRxAddrP0) buf) = false) :
    buf = addr.toList.reverse := by
  have hsome : l.rxAddr = some addr := ha
  unfold disturbs at hd
  have hpair := (Bool.or_eq_false_iff.mp hd).2
  simpa [hsome] using hpair

/-- An operation that does not disturb. -/
theorem Holds.perform (h : Holds l s ceLow) (hd : disturbs l o = false) (noise : List Byte) :
    Holds l (s.perform o (answer noise)).1 ceLow := by
  refine ⟨h.1, fun addr ha => ?_, fun addr ha => ?_⟩
  · by_cases hw : ∃ buf, o = .spiWrite (commandWRegister ||| regTxAddr) buf
    · obtain ⟨buf, rfl⟩ := hw
      rw [eq_of_disturbs_txAddr ha hd, Radio.perform_writeTxAddr]
      exact Vector.toList_reverse
    · rw [s.txAddr_perform _ fun buf hbuf => hw ⟨buf, hbuf⟩]
      exact h.2.1 addr ha
  · by_cases hw : ∃ buf, o = .spiWrite (commandWRegister ||| regRxAddrP0) buf
    · obtain ⟨buf, rfl⟩ := hw
      rw [eq_of_disturbs_rxAddr ha hd, Radio.perform_writeRxAddrP0]
      exact Vector.toList_reverse
    · rw [s.rxAddrP0_perform _ fun buf hbuf => hw ⟨buf, hbuf⟩]
      exact h.2.2 addr ha

theorem next_payload {cmd : Byte} (h : isPayload cmd = true) (addr : Addr) (buf : List Byte) :
    l.next addr (.spiWrite cmd buf) = .out := by
  have hdec : ∀ cmd, isPayload cmd = true → cmd ≠ commandWRegister ||| regTxAddr ∧
      cmd ≠ commandWRegister ||| regRxAddrP0 := by decide
  obtain ⟨htx, hrx⟩ := hdec cmd h
  simp only [Stage.next, if_neg htx, if_neg hrx, h, if_true]

/-- An operation of another thread. -/
theorem Holds.other {g : Ghost} (h : Holds g.stage s g.ceLow) (t : Client)
    (hd : disturbs g.stage o = false) (noise : List Byte) :
    Holds g.stage (s.perform o (answer noise)).1 (g.ceAfter t o) := by
  have hkeep := h.perform hd noise
  refine ⟨fun hne => ?_, hkeep.2⟩
  have hlow := h.1 hne
  cases o with
  | gpioWrite value =>
      cases value with
      | true => simp [disturbs, hne] at hd
      | false => simp [Ghost.ceAfter, hlow]
  | _ => exact hlow

/-- An operation of the send itself. -/
theorem Holds.own {g : Ghost} (h : Holds g.stage s g.ceLow) (addr : Addr)
    (hpre : (sendMonitor addr).pre g.stage o) (noise : List Byte) :
    Holds (g.stage.next addr o) (s.perform o (answer noise)).1 (g.ceAfter .tx o) := by
  cases o with
  | gpioWrite value =>
      cases value with
      | true =>
          have hout : g.stage = .out := hpre
          simp [Holds, Stage.next, hout, Stage.txAddr, Stage.rxAddr]
      | false =>
          by_cases hout : g.stage = .out
          · simp [Holds, Stage.next, hout, Stage.txAddr, Stage.rxAddr, Ghost.ceAfter]
          · simp only [Stage.next, if_neg hout]
            refine ⟨fun _ => ?_, h.2⟩
            simp [Ghost.ceAfter, h.1 hout]
  | spiWrite cmd buf =>
      obtain ⟨rfl, hl, rfl⟩ | ⟨rfl, hl, rfl⟩ | ⟨hpay, hl⟩ := hpre
      · have hce : g.ceLow = true := h.1 (by rw [hl]; nofun)
        rw [Radio.perform_writeTxAddr]
        simp [Holds, Stage.next, Stage.txAddr, Stage.rxAddr, Ghost.ceAfter, Radio.setChip, hce,
          Vector.toList_reverse]
      · have hce : g.ceLow = true := h.1 (by rw [hl]; nofun)
        have htx := h.2.1 addr (by rw [hl]; rfl)
        have hne : commandWRegister ||| regRxAddrP0 ≠ commandWRegister ||| regTxAddr := by decide
        rw [Radio.perform_writeRxAddrP0]
        simp [Holds, Stage.next, Stage.txAddr, Stage.rxAddr, Ghost.ceAfter, Radio.setChip, hce,
          Vector.toList_reverse, hne, htx]
      · have hnext : g.stage.next addr (.spiWrite cmd buf) = .out := next_payload hpay addr buf
        rw [hnext]
        exact ⟨nofun, nofun, nofun⟩
  | _ => exact h.perform rfl noise

end Perform

/-! ## Whole runs -/

/-- Every thread follows its monitor, and the send finds what it relies on. -/
def Inv (c : State) : Prop :=
  ∃ loc, Pool.Follows monitor (fun _ _ _ _ => True) c loc ∧ Tied c.shared loc

theorem inv_start (w : World) : Inv (start w) :=
  ⟨fun _ => none, Pool.follows_start _, rfl, nofun, nofun, nofun⟩

theorem wp_code {t : Client} {i : Api} (h : allowed t i = true) :
    i.code.wp (monitor t i) (fun _ _ => True) .out := by
  cases t with
  | tx =>
      cases i with
      | basicSend addr buf useAck => exact wp_basicSend addr buf useAck
      | _ => contradiction
  | irq | shell => exact Prog.wp_free _ fun _ => trivial

theorem may_monitor (t : Client) (i : Api) (l : Stage) (o : Op) (r : o.Res) :
    (monitor t i).may l o r := by
  cases t with
  | tx => cases i <;> trivial
  | irq | shell => trivial

theorem Tied.update_other {s : World × Ghost} {loc : Client → Option Stage} (h : Tied s loc)
    {t : Client} (ht : t ≠ .tx) (l : Option Stage) : Tied s (Function.update loc t l) := by
  have hloc : Function.update loc t l .tx = loc .tx := Function.update_of_ne (Ne.symm ht) _ _
  unfold Tied
  rw [hloc]
  exact h

theorem Tied.enter {w w' : World} {g : Ghost} {loc : Client → Option Stage} (h : Tied (w, g) loc)
    {t : Client} (hidle : loc t = none) (hw : w'.radio = w.radio) :
    Tied (w', g) (Function.update loc t (some .out)) := by
  have hkept : Tied (w', g) loc := ⟨h.1, by rw [hw]; exact h.2⟩
  by_cases ht : t = .tx
  · subst ht
    have hstage := hkept.1
    rw [hidle] at hstage
    exact ⟨by rw [Function.update_self]; exact hstage, hkept.2⟩
  · exact hkept.update_other ht _

theorem Tied.exec {w : World} {g : Ghost} {loc : Client → Option Stage} (h : Tied (w, g) loc)
    {t : Client} {i : Api} {l : Stage} (hl : loc t = some l) {o : Op}
    (hpre : (monitor t i).pre l o) (hok : t ≠ .tx → disturbs g.stage o = false)
    (r : o.Res) (noise : List Byte) :
    Tied (w.change (w.radio.perform o (answer noise)).1, ⟨g.stageAfter t i o, g.ceAfter t o⟩)
      (Function.update loc t (some ((monitor t i).next l o r))) := by
  by_cases ht : t = .tx
  · subst ht
    have hstage : g.stage = l := by
      have := h.1
      rwa [hl] at this
    cases i with
    | basicSend addr buf useAck =>
        have hpre' : (sendMonitor addr).pre g.stage o := by rw [hstage]; exact hpre
        refine ⟨?_, h.2.own addr hpre' noise⟩
        rw [Function.update_self, ← hstage]
        rfl
    | _ => exact hpre.elim
  · have hstage : g.stageAfter t i o = g.stage := by
      cases t with
      | tx => exact absurd rfl ht
      | irq | shell => rfl
    have hkept : Tied (w.change (w.radio.perform o (answer noise)).1,
        ⟨g.stageAfter t i o, g.ceAfter t o⟩) loc := by
      rw [hstage]
      exact ⟨h.1, h.2.other t (hok ht) noise⟩
    exact hkept.update_other ht _

theorem Tied.leave {w : World} {g : Ghost} {loc : Client → Option Stage} (h : Tied (w, g) loc)
    (t : Client) :
    Tied (w, if t = .tx then { g with stage := .out } else g) (Function.update loc t none) := by
  by_cases ht : t = .tx
  · subst ht
    exact ⟨by rw [Function.update_self]; rfl, nofun, nofun, nofun⟩
  · rw [if_neg ht]
    exact h.update_other ht _

/-- What every step of an exclusive run keeps. -/
theorem inv_step (c : State) (l : Label) (c' : State) (hc : Inv c) (hok : Exclusive c l)
    (h : observed.step c l = some c') : Inv c' := by
  refine Pool.step_follows observed ?_ ?_ ?_ ?_ c l c' hc hok h
  · intro c loc t i s' hR hidle _ hs
    obtain ⟨w', hw', rfl⟩ := Option.map_eq_some_iff.mp hs
    obtain ⟨ha, hcases⟩ := enter_system hw'
    have hradio : w'.radio = c.shared.1.radio := by
      obtain ⟨-, -, rfl⟩ | ⟨-, rfl⟩ := hcases <;> rfl
    exact ⟨.out, wp_code ha, hR.enter hidle hradio⟩
  · intro c loc t i o k noise l hfol hR hjob hl hpre hok
    have hdist : t ≠ .tx → disturbs c.shared.2.stage o = false :=
      fun ht => hok ht o (Conf.next_of_job hjob)
    exact ⟨may_monitor t i l o _, hR.exec hl hpre hdist _ noise⟩
  · intro c loc t i r l hR _ _ _ _
    exact hR.leave t
  · intro c loc e s' hfol hR _ hs
    obtain rfl := Option.some.inj hs
    exact ⟨hR.1, hR.2⟩

theorem sending_cases {c : State} {addr : Addr} (h : sending c = some addr) :
    ∃ buf useAck cmd data k, isPayload cmd = true ∧
      c.job .tx = some (.basicSend addr buf useAck, .op (.spiWrite cmd data) k) := by
  unfold sending Conf.call Conf.next at h
  cases hj : c.job .tx with
  | none => simp [hj] at h
  | some x =>
      obtain ⟨i, p⟩ := x
      rw [hj] at h
      cases i with
      | basicSend addr' buf useAck =>
          cases p with
          | pure r => simp at h
          | op o k =>
              cases o with
              | spiWrite cmd data =>
                  by_cases hpay : isPayload cmd = true
                  · simp only [Option.map_some, if_pos hpay] at h
                    obtain rfl := Option.some.inj h
                    exact ⟨buf, useAck, cmd, data, k, hpay, rfl⟩
                  · simp [hpay] at h
              | _ => simp at h
      | _ => simp at h

/-- A send at its payload write finds its addresses and CE low. -/
theorem Inv.isolated {c : State} (h : Inv c) (l : Label) : Isolated c l := by
  obtain ⟨loc, hfol, hstage, hholds⟩ := h
  cases l with
  | exec t noise =>
      cases t with
      | irq | shell => trivial
      | tx =>
          intro addr ha
          obtain ⟨buf, useAck, cmd, data, k, hpay, hjob⟩ := sending_cases ha
          obtain ⟨l, hl, hwp⟩ := hfol.busy hjob
          have hpre : (sendMonitor addr).pre l (.spiWrite cmd data) := hwp.1
          have hrx : l = .rxWritten addr := by
            have hdec : isPayload (commandWRegister ||| regTxAddr) = false ∧
                isPayload (commandWRegister ||| regRxAddrP0) = false := by decide
            obtain ⟨rfl, -⟩ | ⟨rfl, -⟩ | ⟨-, hl⟩ := hpre
            · rw [hdec.1] at hpay
              contradiction
            · rw [hdec.2] at hpay
              contradiction
            · exact hl
          rw [hl, hrx] at hstage
          rw [hstage] at hholds
          exact ⟨hholds.2.1 addr rfl, hholds.2.2 addr rfl, hholds.1 nofun⟩
  | enter _ _ | leave _ | env _ => trivial

/-- In every exclusive run every send is isolated from the other users of
the radio. -/
theorem sendIsolated_of_exclusive (w : World) (ls : List Label)
    (hok : Along observed.step Exclusive (start w) ls) :
    Along observed.step Isolated (start w) ls :=
  along_of_along inv_step (fun _ l hI _ => hI.isolated l) (inv_start w) hok

/-! ## An exclusive run and a disturbed send -/

def sampleWorld : World := ⟨sampleRadio, false⟩

/-- The next `n` operations of a thread. -/
def execs (t : Client) (n : Nat) : List Label := List.replicate n (.exec t [])

/-- A send, in whose middle the shell is stopped before its first write and
the interrupt thread before it raises CE. -/
def exclusiveRun : List Label :=
  List.flatten [
    [.env ⟨false, true, false, [], []⟩, .enter .shell (.basicSetTxAddress otherAddr)],
    execs .shell 2, [.enter .irq .interruptIrqHandler], execs .irq 4,
    [.enter .tx (.basicSend nrfTxAddr [0xAB#8] false)], execs .tx 14, [.leave .tx],
    execs .shell 6, [.leave .shell], execs .irq 4, [.leave .irq]]

theorem sendIsolated_of_exclusive_exclusiveRun :
    (run observed.step (start sampleWorld) exclusiveRun).isSome = true ∧
      Along observed.step Exclusive (start sampleWorld) exclusiveRun ∧
      Along observed.step Isolated (start sampleWorld) exclusiveRun :=
  ⟨rfl, by decide, sendIsolated_of_exclusive sampleWorld exclusiveRun (by decide)⟩

/-- The shell sets an address between the address writes of a send and its
payload write. -/
def disturbedRun : List Label :=
  List.flatten [
    [.enter .tx (.basicSend nrfTxAddr [0xAB#8] false)], execs .tx 8,
    [.enter .shell (.basicSetTxAddress otherAddr)], execs .shell 3, execs .tx 4]

/-- The payload goes to the address of the shell. -/
theorem send_not_isolated :
    (run observed.step (start sampleWorld) disturbedRun).isSome = true ∧
      ¬ Along observed.step Isolated (start sampleWorld) disturbedRun :=
  ⟨rfl, by decide⟩

end Isolation

end DsEthComm.Nrf24l01
