import DsEthComm.Nrf24l01.Init

/-!
# DsEthComm.Nrf24l01.FailedInit

What a failed `nrf24l01_basic_init` leaves behind.  Whichever transaction
fails, the plan stops there with CE low and the driver still marked as
initialised, so that `nrf24l01_deinit` runs in full: it powers the chip
down and closes the driver.  A closed driver refuses every call before it
reaches the bus.
-/

namespace DsEthComm.Nrf24l01

open Conc

namespace FailedInit

open Radio Init

/-! ## A plan that stops -/

/-- A schedule in which exactly one transaction fails. -/
structure SingleFault where
  env : Schedule
  place : Nat
  only : ∀ i, env.fails i = true ↔ i = place

theorem SingleFault.fails_of_ne (f : SingleFault) {i : Nat} (h : i ≠ f.place) :
    f.env.fails i = false := by
  rw [← Bool.not_eq_true, f.only]
  exact h

theorem SingleFault.firstFailure (f : SingleFault) {i n : Nat} (hi : i ≤ f.place)
    (hn : f.place < i + n) : Init.firstFailure f.env i n = some f.place := by
  induction n generalizing i with
  | zero => omega
  | succ n ih =>
      rw [Init.firstFailure]
      by_cases hplace : i = f.place
      · rw [(f.only i).mpr hplace, if_pos rfl, hplace]
      · rw [f.fails_of_ne hplace, if_neg Bool.false_ne_true]
        exact ih (by omega) (by omega)

/-- Actions other than a change of CE. -/
def keepsCe : Action → Bool
  | .active _ => false
  | _ => true

theorem ce_apply (s : Radio) {a : Action} (h : keepsCe a = true) : (a.apply s).ce = s.ce := by
  cases a with
  | active _ => contradiction
  | _ => rfl

/-- A plan whose failing transaction comes before its next change of CE
ends with `nrf24l01_deinit`, from a state with the same handle and CE. -/
theorem runPlan_of_fault (f : SingleFault) (as rest : List Action)
    (has : as.all keepsCe = true) {s : Radio} {i : Nat} (hi : i ≤ f.place)
    (hlt : f.place < i + total as) :
    ∃ s', s'.handle = s.handle ∧ s'.ce = s.ce ∧
      runPlan f.env (as ++ rest) s i = ((evalAt f.env deinit s' (f.place + 1)).1, 1) := by
  induction as generalizing s i with
  | nil =>
      have htotal : total [] = 0 := rfl
      omega
  | cons a as ih =>
      have htotal : total (a :: as) = a.count + total as := rfl
      rw [List.all_cons, Bool.and_eq_true] at has
      by_cases hhere : f.place < i + a.count
      · refine ⟨s, rfl, rfl, ?_⟩
        rw [List.cons_append, runPlan, f.firstFailure hi hhere]
      · have hnone : Init.firstFailure f.env i a.count = none :=
          firstFailure_eq_none fun j _ hj => f.fails_of_ne (by omega)
        obtain ⟨s', hhandle, hce, hrun⟩ :=
          ih has.2 (s := a.apply s) (i := i + a.count) (by omega) (by omega)
        refine ⟨s', ?_, ?_, ?_⟩
        · rw [hhandle, handle_apply]
        · rw [hce, ce_apply s has.1]
        · rw [List.cons_append, runPlan, hnone, hrun]

/-! ## Closing the driver -/

/-- The driver refuses calls, the chip is powered down and disabled. -/
structure Closed (s : Radio) : Prop where
  inited : s.handle.inited = 0
  pwrUp : bit (s.chip.reg regConfig) Config.pwrUp.bit = false
  ce : s.ce = false

theorem evalAt_deinit_ok {env : Schedule} {s : Radio} {i : Nat} (h : s.handle.inited = 1)
    (henv : ∀ j, i ≤ j → env.fails j = false) :
    (evalAt env deinit s i).1.1 =
      (s.setChip (s.chip.writeReg regConfig [s.chip.reg regConfig &&& ~~~(1#8 <<< 1)])).setHandle
        { s.handle with inited := 0 } := by
  have hnop : s.setChip (s.chip.write commandNop []) = s := rfl
  have hread : (s.chip.readReg regConfig).getD 0 0 = s.chip.reg regConfig := rfl
  rw [deinit, evalAt_checked, if_pos h, Prog.bind_eq, evalAt_bind,
    evalAt_spiWrite env s i (by simp), henv i (Nat.le_refl i), hnop]
  simp only [Bool.false_eq_true, if_false, Bool.not_true, Prog.bind_eq, evalAt_bind]
  rw [evalAt_readRegister env s (i + 1) (by decide), henv (i + 1) (by omega), hread]
  simp only [Bool.false_eq_true, if_false, List.getD_cons_zero, evalAt_bind]
  rw [evalAt_writeRegister env s (i + 1 + 1) (by decide) (by simp), henv (i + 1 + 1) (by omega)]
  rfl

theorem closed_deinit {env : Schedule} {s : Radio} {i : Nat} (h : s.handle.inited = 1)
    (hce : s.ce = false) (henv : ∀ j, i ≤ j → env.fails j = false) :
    Closed (evalAt env deinit s i).1.1 := by
  have hbit : ∀ b : Byte, bit (b &&& ~~~(1#8 <<< 1)) Config.pwrUp.bit = false := by decide
  rw [evalAt_deinit_ok h henv]
  exact ⟨rfl, hbit _, hce⟩

/-- The transactions of `nrf24l01_basic_init` when none of them fails. -/
def transactions (type : Role) (callback : Bool) (s : Radio) : Nat :=
  (evalAt (.failingAt []) (basicInit type callback) s 0).1.2

theorem transactions_true (type : Role) (s : Radio) :
    transactions type true s = total (plan type) := by
  rw [transactions, evalAt_basicInit_ok (fun _ => rfl), Nat.zero_add]

theorem closed_basicInit (f : SingleFault) (type : Role) (callback : Bool) (s : Radio)
    (h : f.place < transactions type callback s) :
    (evalAt f.env (basicInit type callback) s 0).2 = 1 ∧
      Closed (evalAt f.env (basicInit type callback) s 0).1.1 := by
  cases callback with
  | false => exact absurd h (Nat.not_lt_zero f.place)
  | true =>
      have hsplit : plan type = .active false ::
          (((plan type).drop 1).dropLast ++ [.active true]) := by cases type <;> rfl
      have htotal : total (plan type) = total ((plan type).drop 1).dropLast := by
        cases type <;> rfl
      rw [transactions_true, htotal] at h
      obtain ⟨s', hhandle, hce, hrun⟩ := runPlan_of_fault f ((plan type).drop 1).dropLast
        [.active true] (by cases type <;> rfl)
        (s := { s.setHandle ⟨1, 0, true⟩ with ce := false }) (i := 0) (Nat.zero_le _) (by omega)
      have heval : evalAt f.env (basicInit type true) s 0 =
          ((evalAt f.env deinit s' (f.place + 1)).1, 1) := by
        rw [evalAt_basicInit, hsplit]
        exact hrun
      rw [heval]
      refine ⟨rfl, closed_deinit ?_ ?_ ?_⟩
      · rw [hhandle]
        rfl
      · rw [hce]
      · exact fun j hj => f.fails_of_ne (by omega)

/-! ## Calls of a closed driver -/

/-- What happens after the initialisation has failed. -/
inductive Label where
  /-- A call other than `nrf24l01_basic_init`, under any schedule. -/
  | call (i : Api) (env : Schedule)
  /-- Another initialisation, with a fault of its own. -/
  | retry (type : Role) (callback : Bool) (f : SingleFault)

/-- The call is `nrf24l01_basic_init`. -/
def isInit : Api → Bool
  | .basicInit _ _ => true
  | _ => false

/-- One call after the other; a successful initialisation ends the run. -/
def step (s : Radio) : Label → Option Radio
  | .call i env => if isInit i then none else some (evalAt env i.code s 0).1.1
  | .retry type callback f =>
      let x := evalAt f.env (basicInit type callback) s 0
      if x.2 = 0 then none else some x.1.1

/-- The SPI transactions and the changes of CE. -/
def onBus : Op → Bool
  | .spiRead _ _ | .spiWrite _ _ | .gpioWrite _ => true
  | _ => false

/-- The call returns an error, and none of its operations reaches the chip. -/
def Refused (s : Radio) : Label → Prop
  | .call i env => isInit i = false → (evalAt env i.code s 0).2 ≠ 0 ∧
      ∀ o ∈ traceAt env i.code s 0, onBus o = false
  | .retry _ _ _ => True

/-- Allows only to look at the state and to print; the driver is found
closed. -/
def closedMonitor : Monitor driverSig Unit where
  pre _ o := match (o : Op) with
    | .getInited | .getTxAddrSet | .debugPrint _ _ => True
    | _ => False
  may _ o r := match (o : Op), r with
    | .getInited, r => r = (0 : Byte)
    | _, _ => True
  next _ _ _ := ()

theorem onBus_of_pre {o : Op} (h : closedMonitor.pre () o) : onBus o = false := by
  cases o <;> first | rfl | contradiction

theorem wp_checked_closed (body : Driver Byte) (Q : Byte → Unit → Prop) (l : Unit) :
    (checked body).wp closedMonitor Q l ↔ Q 3 () := by
  constructor
  · rintro ⟨-, h⟩
    exact h (0 : Byte) rfl
  · intro hQ
    refine ⟨trivial, ?_⟩
    rintro r (rfl : r = (0 : Byte))
    exact hQ

theorem wp_code_closed {i : Api} (hi : isInit i = false) :
    i.code.wp closedMonitor (fun r _ => r ≠ 0) () := by
  cases i with
  | basicInit type callback => contradiction
  | _ =>
      simp only [Api.code, basicDeinit, basicSetTxAddress, basicSend, basicSent,
        basicSetFrequency, interruptIrqHandler, deinit, setActive, setTxAddress, setAddress,
        setChannelFrequency, bounded, irqHandler, send, zeroOrOne, failWith, Prog.bind_eq,
        Prog.wp_bind, Prog.wp_ite, wp_checked_closed]
      simp [closedMonitor]

theorem performAt_closed (env : Schedule) {s : Radio} (h : s.handle.inited = 0)
    (x : Radio × Nat) (l : Unit) (o : Op) (hx : x.1 = s) (hpre : closedMonitor.pre l o) :
    closedMonitor.may l o (performAt env x o).2 ∧ (performAt env x o).1.1 = s := by
  subst hx
  cases o with
  | getInited => exact ⟨h, rfl⟩
  | getTxAddrSet | debugPrint _ _ => exact ⟨trivial, rfl⟩
  | _ => contradiction

/-- A closed driver returns an error without reaching the bus, and stays as
it is. -/
theorem refused_call {s : Radio} (h : s.handle.inited = 0) (env : Schedule) {i : Api}
    (hi : isInit i = false) :
    (evalAt env i.code s 0).2 ≠ 0 ∧
      (∀ o ∈ traceAt env i.code s 0, onBus o = false) ∧
      (evalAt env i.code s 0).1.1 = s := by
  obtain ⟨-, hres, hstate⟩ := Prog.eval_of_wp (s := (s, 0)) (performAt_closed env h)
    (wp_code_closed hi) rfl
  have htrace := Prog.trace_of_wp (s := (s, 0)) (performAt_closed env h) (wp_code_closed hi) rfl
  refine ⟨hres, fun o ho => ?_, hstate⟩
  obtain ⟨_, hpre⟩ := htrace o ho
  exact onBus_of_pre hpre

/-- Every initialisation of a closed driver that does not succeed leaves it
closed. -/
theorem closed_retry {s : Radio} (h : Closed s) (f : SingleFault) (type : Role) (callback : Bool)
    (hres : (evalAt f.env (basicInit type callback) s 0).2 ≠ 0) :
    Closed (evalAt f.env (basicInit type callback) s 0).1.1 := by
  by_cases hplace : f.place < transactions type callback s
  · exact (closed_basicInit f type callback s hplace).2
  · cases callback with
    | false => exact ⟨rfl, h.pwrUp, h.ce⟩
    | true =>
        refine absurd ?_ hres
        rw [transactions_true] at hplace
        rw [evalAt_basicInit, runPlan_of_ok fun j _ hj => f.fails_of_ne (by omega)]

theorem closed_step (s : Radio) (l : Label) (s' : Radio) (hs : Closed s)
    (h : step s l = some s') : Closed s' := by
  cases l with
  | call i env =>
      simp only [step] at h
      split at h
      · contradiction
      · next hi =>
          obtain rfl := Option.some.inj h
          rw [(refused_call hs.inited env (by simpa using hi)).2.2]
          exact hs
  | retry type callback f =>
      simp only [step] at h
      split at h
      · contradiction
      · next hres =>
          obtain rfl := Option.some.inj h
          exact closed_retry hs f type callback hres

/-- **A failed initialisation closes the driver.**  Wherever the one failing
transaction is, the function returns 1 and the driver is closed; until an
initialisation succeeds, every call is refused. -/
theorem basicInit_fails_closed (f : SingleFault) (type : Role) (callback : Bool) (s : Radio)
    (h : f.place < transactions type callback s) :
    let x := evalAt f.env (basicInit type callback) s 0
    x.2 = 1 ∧ Closed x.1.1 ∧ ∀ ls, Along step Refused x.1.1 ls := by
  obtain ⟨hres, hclosed⟩ := closed_basicInit f type callback s h
  refine ⟨hres, hclosed, fun ls => along_of_invariant closed_step ?_ hclosed ls⟩
  intro s l hs
  cases l with
  | call i env =>
      intro hi
      obtain ⟨hres, htrace, -⟩ := refused_call hs.inited env hi
      exact ⟨hres, htrace⟩
  | retry type callback f => trivial

/-- The write of `CRCO` fails. -/
def sampleFault : SingleFault where
  env := .failingAt [3]
  place := 3
  only := by simp [Schedule.fails, Schedule.failingAt]

theorem basicInit_fails_closed_sample :
    let x := evalAt sampleFault.env (basicInit .tx true) sampleRadio 0
    sampleFault.place < transactions .tx true sampleRadio ∧ x.2 = 1 ∧ Closed x.1.1 := by
  have hplace : sampleFault.place < transactions .tx true sampleRadio := by
    rw [transactions_true]
    decide
  obtain ⟨hres, hclosed, -⟩ := basicInit_fails_closed sampleFault .tx true sampleRadio hplace
  exact ⟨hplace, hres, hclosed⟩

end FailedInit

end DsEthComm.Nrf24l01
