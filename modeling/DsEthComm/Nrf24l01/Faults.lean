import DsEthComm.Nrf24l01.Eval

/-!
# DsEthComm.Nrf24l01.Faults

A call of the driver alone on the radio, with transactions that fail.

`Eval` runs a call in which everything succeeds.  Here a `Schedule` decides
about each transaction of the call, in the order in which the call makes
them, and about each delay: while the caller sleeps in
`nrf24l01_interface_delay_ms` the interrupt handler may run and leave a
value in `handle->finished`.  The families of functions get one equation
each, with one case for each transaction that can be the first to fail.
-/

namespace DsEthComm.Nrf24l01

open Conc

/-- One byte of a register, without noise. -/
theorem Chip.fit_readReg (c : Chip) (r : Byte) (noise : List Byte) :
    fit 1 (c.readReg r) noise = [(c.readReg r).getD 0 0] := by
  have hne : c.readReg r ≠ [] := by
    unfold readReg
    repeat' split
    all_goals simp
  obtain ⟨b, bs, hbs⟩ := List.exists_cons_of_ne_nil hne
  simp [hbs, fit]

/-- What happens to the transactions and the delays of a call, which are
counted together. -/
structure Schedule where
  answer : Nat → Answer
  /-- The value stored in `handle->finished` during a delay. -/
  finished : Nat → Option Byte

/-- The transaction fails. -/
def Schedule.fails (env : Schedule) (i : Nat) : Bool := (env.answer i).fail

/-- The transactions at the places of a list fail. -/
def Schedule.failingAt (places : List Nat) : Schedule where
  answer i := ⟨places.contains i, []⟩
  finished _ := none

namespace Radio

/-- What an operation does, with its place in the schedule. -/
def performAt (env : Schedule) (x : Radio × Nat) (o : Op) : (Radio × Nat) × o.Res :=
  match o with
  | .spiRead reg len =>
      let y := x.1.spiRead reg len (env.answer x.2)
      ((y.1, x.2 + 1), y.2)
  | .spiWrite reg buf =>
      let y := x.1.spiWrite reg buf (env.answer x.2)
      ((y.1, x.2 + 1), y.2)
  | .delayMs _ =>
      let finished := (env.finished x.2).getD x.1.handle.finished
      ((x.1.setHandle { x.1.handle with finished := finished }, x.2 + 1), ())
  | o =>
      let y := x.1.perform o .ok
      ((y.1, x.2), y.2)

/-- Run a driver function alone from the `i`-th place of the schedule on. -/
def evalAt {α : Type} (env : Schedule) (p : Driver α) (s : Radio) (i : Nat) :
    (Radio × Nat) × α :=
  p.eval (S := driverSig) (performAt env) (s, i)

/-- The operations of that run, in their order. -/
def traceAt {α : Type} (env : Schedule) (p : Driver α) (s : Radio) (i : Nat) : List Op :=
  p.trace (S := driverSig) (performAt env) (s, i)

section EvalAt

variable {α β : Type} (env : Schedule) (s : Radio) (i : Nat)

@[simp] theorem evalAt_pure (a : α) : evalAt env (.pure a) s i = ((s, i), a) := rfl

@[simp] theorem evalAt_bind (p : Driver α) (f : α → Driver β) :
    evalAt env (p.bind f) s i =
      evalAt env (f (evalAt env p s i).2) (evalAt env p s i).1.1 (evalAt env p s i).1.2 :=
  Prog.eval_bind p f (s, i)

@[simp] theorem evalAt_ite (c : Prop) [Decidable c] (p q : Driver α) :
    evalAt env (if c then p else q) s i = if c then evalAt env p s i else evalAt env q s i := by
  split <;> rfl

@[simp] theorem traceAt_bind (p : Driver α) (f : α → Driver β) :
    traceAt env (p.bind f) s i = traceAt env p s i ++
      traceAt env (f (evalAt env p s i).2) (evalAt env p s i).1.1 (evalAt env p s i).1.2 :=
  Prog.trace_bind p f (s, i)

/-! ## Operations -/

@[simp] theorem evalAt_getInited : evalAt env getInited s i = ((s, i), s.handle.inited) := rfl

@[simp] theorem evalAt_getTxAddrSet : evalAt env getTxAddrSet s i = ((s, i), s.gsTxAddrSet) := rfl

@[simp] theorem evalAt_gpioWrite (value : Bool) :
    evalAt env (gpioWrite value) s i = (({ s with ce := value }, i), true) := rfl

@[simp] theorem evalAt_setFinished (value : Byte) :
    evalAt env (setFinished value) s i =
      ((s.setHandle { s.handle with finished := value }, i), ()) := rfl

@[simp] theorem evalAt_failWith (fmt : String) (args : List Nat) (status : Byte) :
    evalAt env (failWith fmt args status) s i = ((s, i), status) := rfl

/-- A write within the size of the interface's buffer. -/
theorem evalAt_spiWrite {buf : List Byte} (h : buf.length ≤ 33) (reg : Byte) :
    evalAt env (Nrf24l01.spiWrite reg buf) s i =
      if env.fails i then ((s, i + 1), false)
      else ((s.setChip (s.chip.write reg buf), i + 1), true) := by
  have hop : evalAt env (Nrf24l01.spiWrite reg buf) s i =
      (((s.spiWrite reg buf (env.answer i)).1, i + 1), (s.spiWrite reg buf (env.answer i)).2) := rfl
  rw [hop]
  cases hf : (env.answer i).fail with
  | true => rw [spiWrite_of_fail s reg buf hf, Schedule.fails, hf, if_pos rfl]
  | false => rw [spiWrite_of_ok s reg h hf, Schedule.fails, hf, if_neg Bool.false_ne_true]

/-- A write of a register. -/
theorem evalAt_writeRegister {r : Byte} (hr : r &&& 0xE0#8 = 0#8) {buf : List Byte}
    (h : buf.length ≤ 33) :
    evalAt env (Nrf24l01.spiWrite (commandWRegister ||| r) buf) s i =
      if env.fails i then ((s, i + 1), false)
      else ((s.setChip (s.chip.writeReg r buf), i + 1), true) := by
  rw [evalAt_spiWrite env s i h, Chip.write_wRegister _ hr]

/-- A read of one byte of a register. -/
theorem evalAt_readRegister {r : Byte} (hr : r &&& 0xE0#8 = 0#8) :
    evalAt env (Nrf24l01.spiRead (commandRRegister ||| r) 1) s i =
      ((s, i + 1), if env.fails i then none else some [(s.chip.readReg r).getD 0 0]) := by
  have hop : evalAt env (Nrf24l01.spiRead (commandRRegister ||| r) 1) s i =
      (((s.spiRead (commandRRegister ||| r) 1 (env.answer i)).1, i + 1),
        (s.spiRead (commandRRegister ||| r) 1 (env.answer i)).2) := rfl
  rw [hop]
  cases hf : (env.answer i).fail with
  | true => rw [spiRead_of_fail s _ _ hf, Schedule.fails, hf, if_pos rfl]
  | false =>
      rw [spiRead_of_ok s _ (by decide) (by decide) hf, Chip.read_rRegister _ hr, Chip.fit_readReg,
        Schedule.fails, hf, if_neg Bool.false_ne_true]
      rfl

/-! ## Families of functions -/

theorem evalAt_checked (body : Driver Byte) :
    evalAt env (checked body) s i =
      if s.handle.inited = 1 then evalAt env body s i else ((s, i), 3) := by
  rw [checked, Prog.bind_eq, evalAt_bind, evalAt_getInited, evalAt_ite]
  by_cases h : s.handle.inited = 1 <;> simp [h]

theorem evalAt_setActive (h : s.handle.inited = 1) (enable : Bool) :
    evalAt env (setActive enable) s i = (({ s with ce := enable }, i), 0) := by
  rw [setActive, evalAt_checked, if_pos h]
  rfl

theorem evalAt_readModifyWrite {r : Byte} (hr : r &&& 0xE0#8 = 0#8) (f : Byte → Byte)
    (getFailed setFailed : String) :
    evalAt env (readModifyWrite r f getFailed setFailed) s i =
      if env.fails i then ((s, i + 1), 1)
      else if env.fails (i + 1) then ((s, i + 2), 1)
      else ((s.setChip (s.chip.writeReg r [f ((s.chip.readReg r).getD 0 0)]), i + 2), 0) := by
  rw [readModifyWrite, Prog.bind_eq, evalAt_bind, evalAt_readRegister env s i hr]
  cases env.fails i with
  | true => rfl
  | false =>
      simp only [Bool.false_eq_true, if_false, List.getD_cons_zero, Prog.bind_eq, evalAt_bind]
      rw [evalAt_writeRegister env s (i + 1) hr (by simp)]
      cases env.fails (i + 1) <;> rfl

theorem evalAt_writeByte {r : Byte} (hr : r &&& 0xE0#8 = 0#8) (value : Byte)
    (setFailed : String) :
    evalAt env (writeByte r value setFailed) s i =
      if env.fails i then ((s, i + 1), 1)
      else ((s.setChip (s.chip.writeReg r [value]), i + 1), 0) := by
  rw [writeByte, Prog.bind_eq, evalAt_bind, evalAt_writeRegister env s i hr (by simp)]
  cases env.fails i <;> rfl

/-- The address setters: a width of less than five bytes refuses the
address. -/
theorem evalAt_setAddress (h : s.handle.inited = 1) {r : Byte} (hr : r &&& 0xE0#8 = 0#8)
    (addr : Addr) (setFailed : String) :
    evalAt env (setAddress r addr.toList defaultAddressLen setFailed) s i =
      if env.fails i then ((s, i + 1), 1)
      else if s.chip.reg regSetupAw &&& 3#8 ≠ 3#8 then ((s, i + 1), 4)
      else if env.fails (i + 1) then ((s, i + 2), 1)
      else ((s.setChip (s.chip.writeReg r addr.reverse.toList), i + 2), 0) := by
  have hread : (s.chip.readReg regSetupAw).getD 0 0 = s.chip.reg regSetupAw := rfl
  have hwidth : ∀ b : Byte, b &&& 3#8 ≠ 3#8 → b &&& 3#8 ≠ 0 →
      (b &&& 3#8) + 2 < defaultAddressLen := by decide
  rw [setAddress, evalAt_checked, if_pos h, Prog.bind_eq, evalAt_bind,
    evalAt_readRegister env s i (by decide), hread]
  cases env.fails i with
  | true => rfl
  | false =>
      simp only [Bool.false_eq_true, if_false, List.getD_cons_zero]
      by_cases h3 : s.chip.reg regSetupAw &&& 3#8 = 3#8
      · rw [if_neg (not_not_intro h3), h3, if_neg (by decide), if_neg (by decide),
          take_defaultAddressLen, reverseBuffer_eq, Prog.bind_eq, evalAt_bind,
          evalAt_writeRegister env s (i + 1) hr (by simp), ← Vector.toList_reverse]
        cases env.fails (i + 1) <;> rfl
      · rw [if_pos h3]
        by_cases h0 : s.chip.reg regSetupAw &&& 3#8 = 0
        · rw [if_pos h0]
          rfl
        · rw [if_neg h0, if_pos (hwidth _ h3 h0)]
          rfl

theorem evalAt_zeroOrOne (p : Driver Byte) :
    evalAt env (zeroOrOne p) s i =
      ((evalAt env p s i).1, if (evalAt env p s i).2 ≠ 0 then 1 else 0) := by
  rw [zeroOrOne, Prog.bind_eq, evalAt_bind, evalAt_ite]
  split <;> rfl

end EvalAt

end Radio

end DsEthComm.Nrf24l01
