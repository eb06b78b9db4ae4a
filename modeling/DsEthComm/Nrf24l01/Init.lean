import DsEthComm.Nrf24l01.Faults
import Mathlib.Data.List.Forall2

/-!
# DsEthComm.Nrf24l01.Init

`nrf24l01_basic_init` as a plan: a list of actions on the radio, one for
each step, with the number of transactions the step makes.

The steps are looked at once, to show that they follow the plan whatever
the schedule does.  What the initialisation achieves is then read off the
plan register by register, and what it leaves behind when a transaction
fails is read off the place where the plan stops.
-/

namespace DsEthComm.Nrf24l01

open Conc

namespace Init

open Radio

/-! ## Actions -/

/-- What a step does when it succeeds. -/
inductive Action where
  | active (enable : Bool)
  /-- Read a register, replace some bits and write it back. -/
  | update (r mask value : Byte)
  | store (r value : Byte)
  /-- Write an address of five bytes. -/
  | address (r : Byte) (addr : Addr)
  | command (cmd : Byte)
  | skip

/-- The transactions of the step. -/
def Action.count : Action → Nat
  | .active _ | .skip => 0
  | .store _ _ | .command _ => 1
  | .update _ _ _ | .address _ _ => 2

def Action.apply (s : Radio) : Action → Radio
  | .active enable => { s with ce := enable }
  | .update r mask value =>
      s.setChip (s.chip.writeReg r [replaceBits mask value ((s.chip.readReg r).getD 0 0)])
  | .store r value => s.setChip (s.chip.writeReg r [value])
  | .address r addr => s.setChip (s.chip.writeReg r addr.reverse.toList)
  | .command cmd => s.setChip (s.chip.write cmd [])
  | .skip => s

/-- An address of five bytes is taken only with that address width. -/
def Action.Ready (s : Radio) : Action → Prop
  | .address _ _ => s.chip.reg regSetupAw &&& 3#8 = 3#8
  | _ => True

/-- The first of `n` transactions from `i` on that fails. -/
def firstFailure (env : Schedule) : Nat → Nat → Option Nat
  | _, 0 => none
  | i, n + 1 => if env.fails i then some i else firstFailure env (i + 1) n

/-- The step performs its action if its transactions succeed; otherwise it
stops at the first that fails, with the radio as it was. -/
def Realises (p : Driver Byte) (a : Action) : Prop :=
  ∀ env s i, s.handle.inited = 1 → a.Ready s →
    evalAt env p s i = match firstFailure env i a.count with
      | none => ((a.apply s, i + a.count), 0)
      | some j => ((s, j + 1), 1)

/-- `CE` is a pin, and its change cannot fail. -/
theorem realises_setActive (enable : Bool) : Realises (setActive enable) (.active enable) := by
  intro env s i h _
  rw [evalAt_setActive env s i h]
  rfl

theorem realises_skip : Realises autoRetransmitDelayConvertToRegister .skip := by
  intro env s i h _
  rw [autoRetransmitDelayConvertToRegister, evalAt_checked, if_pos h]
  rfl

/-- A register is read and written: two transactions, of which the first that
fails ends the step. -/
theorem evalAt_update (env : Schedule) (s : Radio) (i : Nat) {r : Byte} (hr : r &&& 0xE0#8 = 0#8)
    {f : Byte → Byte} {mask value : Byte} (hf : ∀ b, f b = replaceBits mask value b)
    (getFailed setFailed : String) :
    evalAt env (readModifyWrite r f getFailed setFailed) s i =
      match firstFailure env i 2 with
      | none => ((Action.apply s (.update r mask value), i + 2), 0)
      | some j => ((s, j + 1), 1) := by
  rw [evalAt_readModifyWrite env s i hr, hf]
  simp only [firstFailure]
  cases env.fails i <;> cases env.fails (i + 1) <;> rfl

theorem realises_updateReg {r : Byte} (hr : r &&& 0xE0#8 = 0#8) {f : Byte → Byte}
    {mask value : Byte} (hf : ∀ b, f b = replaceBits mask value b)
    (getFailed setFailed : String) :
    Realises (updateReg r f getFailed setFailed) (.update r mask value) := by
  intro env s i h _
  rw [updateReg, evalAt_checked, if_pos h, evalAt_update env s i hr hf]
  rfl

theorem realises_bounded {value bound : Byte} (hle : ¬ bound < value) {r : Byte}
    (hr : r &&& 0xE0#8 = 0#8) {f : Byte → Byte} {mask bits : Byte}
    (hf : ∀ b, f b = replaceBits mask bits b) (tooLarge getFailed setFailed : String) :
    Realises (bounded value bound tooLarge (readModifyWrite r f getFailed setFailed))
      (.update r mask bits) := by
  intro env s i h _
  rw [bounded, evalAt_checked, if_pos h, evalAt_ite, if_neg hle, evalAt_update env s i hr hf]
  rfl

/-- A register is written, in one transaction. -/
theorem evalAt_store (env : Schedule) (s : Radio) (i : Nat) {r : Byte} (hr : r &&& 0xE0#8 = 0#8)
    (value : Byte) (setFailed : String) :
    evalAt env (writeByte r value setFailed) s i =
      match firstFailure env i 1 with
      | none => ((Action.apply s (.store r value), i + 1), 0)
      | some j => ((s, j + 1), 1) := by
  rw [evalAt_writeByte env s i hr]
  simp only [firstFailure]
  cases env.fails i <;> rfl

theorem realises_writeByte {r : Byte} (hr : r &&& 0xE0#8 = 0#8) (value : Byte)
    (setFailed : String) : Realises (checked (writeByte r value setFailed)) (.store r value) := by
  intro env s i h _
  rw [evalAt_checked, if_pos h, evalAt_store env s i hr]
  rfl

theorem realises_setPipePayloadNumber {num : Byte} (hle : ¬ (0x3F : Byte) < num) {r : Byte}
    (hr : r &&& 0xE0#8 = 0#8) (setFailed : String) :
    Realises (setPipePayloadNumber r num setFailed) (.store r num) := by
  intro env s i h _
  rw [setPipePayloadNumber, bounded, evalAt_checked, if_pos h, evalAt_ite, if_neg hle,
    evalAt_store env s i hr]
  rfl

theorem realises_command (cmd : Byte) (failed : String) :
    Realises (command cmd failed) (.command cmd) := by
  intro env s i h _
  rw [command, evalAt_checked, if_pos h, Prog.bind_eq, evalAt_bind,
    evalAt_spiWrite env s i (by simp)]
  simp only [Action.count, firstFailure]
  cases env.fails i <;> rfl

/-- With a width of five bytes an address setter reads the width and writes the
address. -/
theorem realises_setAddress {r : Byte} (hr : r &&& 0xE0#8 = 0#8) (addr : Addr)
    (setFailed : String) :
    Realises (setAddress r addr.toList defaultAddressLen setFailed) (.address r addr) := by
  intro env s i h hready
  have hwidth : s.chip.reg regSetupAw &&& 3#8 = 3#8 := hready
  rw [evalAt_setAddress env s i h hr, hwidth]
  simp only [Action.count, firstFailure]
  cases env.fails i <;> cases env.fails (i + 1) <;> rfl

/-! ## The plan -/

/-- The bits of a data rate in `RF_SETUP`, which are not adjacent. -/
def dataRateBits (rate : DataRate) : Byte :=
  (((rate.val >>> 0) &&& 1#8) <<< 3) ||| (((rate.val >>> 1) &&& 1#8) <<< 5)

/-- The actions of the steps of `nrf24l01_basic_init`. -/
def plan (type : Role) : List Action :=
  [.active false,
    .update regConfig 0x02 0x02,
    .update regConfig 0x04 0x04,
    .update regConfig 0x08 0x08,
    .update regConfig 0x10 0x10,
    .update regConfig 0x20 0x20,
    .update regConfig 0x40 0x40,
    .update regConfig 0x01 type.mode.val,
    .update regEnAa 0x01 0x01,
    .update regEnAa 0x02 0x02,
    .update regEnAa 0x04 0x04,
    .update regEnAa 0x08 0x08,
    .update regEnAa 0x10 0x10,
    .update regEnAa 0x20 0x20,
    .update regEnRxaddr 0x01 0x01,
    .update regEnRxaddr 0x02 0x02,
    .update regEnRxaddr 0x04 0x04,
    .update regEnRxaddr 0x08 0x08,
    .update regEnRxaddr 0x10 0x10,
    .update regEnRxaddr 0x20 0x20,
    .update regSetupAw 0x03 defaultAddressWidth.val,
    .skip,
    .update regSetupRetr 0xF0 (autoRetransmitDelayToRegister defaultRetransmitDelay <<< 4),
    .update regSetupRetr 0x0F defaultRetransmitCount,
    .update regRfCh 0x7F defaultChannelFrequency,
    .update regRfSetup 0x80 0x00,
    .update regRfSetup 0x10 0x00,
    .update regRfSetup 0x28 (dataRateBits defaultDataRate),
    .update regRfSetup 0x06 (defaultOutputPower.val <<< 1),
    .update regStatus 0x40 0x40,
    .update regStatus 0x20 0x20,
    .update regStatus 0x10 0x10,
    .update regStatus 0x01 0x01,
    .store regRxPwP0 defaultPayload,
    .store regRxPwP1 defaultPayload,
    .store regRxPwP2 defaultPayload,
    .store regRxPwP3 defaultPayload,
    .store regRxPwP4 defaultPayload,
    .store regRxPwP5 defaultPayload,
    .update regDynpd 0x01 0x01,
    .update regDynpd 0x02 0x02,
    .update regDynpd 0x04 0x04,
    .update regDynpd 0x08 0x08,
    .update regDynpd 0x10 0x10,
    .update regDynpd 0x20 0x20,
    .update regFeature 0x04 0x04,
    .update regFeature 0x02 0x02,
    .update regFeature 0x01 0x01,
    .address regRxAddrP0 defaultRxAddr0,
    .address regRxAddrP1 defaultRxAddr1,
    .store regRxAddrP2 (defaultRxAddr2.get 4),
    .store regRxAddrP3 (defaultRxAddr3.get 4),
    .store regRxAddrP4 (defaultRxAddr4.get 4),
    .store regRxAddrP5 (defaultRxAddr5.get 4),
    .command commandFlushTx,
    .command commandFlushRx,
    .active true]

/-- Each step of `nrf24l01_basic_init` does what the plan says of it. -/
theorem realises_basicInitSteps (type : Role) :
    List.Forall₂ (fun step a => Realises step.1 a) (basicInitSteps type) (plan type) := by
  have hrate : ∀ b : Byte, (b &&& ~~~(1#8 <<< 5) &&& ~~~(1#8 <<< 3)) |||
      (((defaultDataRate.val >>> 0) &&& 1#8) <<< 3) |||
        (((defaultDataRate.val >>> 1) &&& 1#8) <<< 5) =
      replaceBits 0x28 (dataRateBits defaultDataRate) b := by decide
  unfold basicInitSteps plan
  cases type
  all_goals
    refine .cons (realises_setActive _) ?_
    iterate 20 refine .cons (realises_updateReg (by decide) (fun _ => by rfl) _ _) ?_
    refine .cons realises_skip ?_
    iterate 3
      refine .cons (realises_bounded (by decide) (by decide) (fun _ => by rfl) _ _ _) ?_
    iterate 2 refine .cons (realises_updateReg (by decide) (fun _ => by rfl) _ _) ?_
    refine .cons (realises_updateReg (by decide) hrate _ _) ?_
    iterate 5 refine .cons (realises_updateReg (by decide) (fun _ => by rfl) _ _) ?_
    iterate 6 refine .cons (realises_setPipePayloadNumber (by decide) (by decide) _) ?_
    iterate 9 refine .cons (realises_updateReg (by decide) (fun _ => by rfl) _ _) ?_
    iterate 2 refine .cons (realises_setAddress (by decide) _ _) ?_
    iterate 4 refine .cons (realises_writeByte (by decide) _ _) ?_
    iterate 2 refine .cons (realises_command _ _) ?_
    exact .cons (realises_setActive _) .nil

/-- Follow a plan; a transaction that fails ends it with `nrf24l01_deinit`. -/
def runPlan (env : Schedule) : List Action → Radio → Nat → (Radio × Nat) × Byte
  | [], s, i => ((s, i), 0)
  | a :: as, s, i =>
      match firstFailure env i a.count with
      | none => runPlan env as (a.apply s) (i + a.count)
      | some j => ((evalAt env deinit s (j + 1)).1, 1)

/-- Every action of the plan finds the radio ready for it. -/
def Legal : Radio → List Action → Prop
  | _, [] => True
  | s, a :: as => a.Ready s ∧ Legal (a.apply s) as

theorem handle_apply (s : Radio) (a : Action) : (a.apply s).handle = s.handle := by
  cases a <;> rfl

/-- **The steps follow the plan.** -/
theorem evalAt_runSteps (env : Schedule) {steps : List (Driver Byte × String)}
    {as : List Action} (hsteps : List.Forall₂ (fun step a => Realises step.1 a) steps as)
    {s : Radio} (h : s.handle.inited = 1) (hlegal : Legal s as) (i : Nat) :
    evalAt env (runSteps steps) s i = runPlan env as s i := by
  induction hsteps generalizing s i with
  | nil => rfl
  | @cons step a steps as hstep _ ih =>
      rw [runSteps, Prog.bind_eq, evalAt_bind, hstep env s i h hlegal.1, runPlan]
      cases firstFailure env i a.count with
      | none => exact ih (by rw [handle_apply]; exact h) hlegal.2 _
      | some j =>
          show evalAt env ((debugPrint step.2 []).bind fun _ => deinit.bind fun _ => .pure 1) s
            (j + 1) = _
          rw [evalAt_bind, evalAt_bind]
          rfl

/-! ## The plan is legal -/

/-- Actions other than a change of the address width. -/
def Action.keepsWidth : Action → Bool
  | .update r _ _ | .store r _ | .address r _ => r ≠ regSetupAw
  | .command cmd => cmd ≠ commandWRegister ||| regSetupAw
  | _ => true

/-- Actions that are always ready. -/
def Action.isPlain : Action → Bool
  | .address _ _ => false
  | _ => true

theorem writeReg_reg_of_ne (c : Chip) {r r' : Byte} (h : r' ≠ r) (buf : List Byte) :
    (c.writeReg r' buf).reg r = c.reg r := by
  unfold Chip.writeReg
  repeat' split
  all_goals first | rfl | exact Function.update_of_ne h.symm _ _

/-- Only a write of `SETUP_AW` changes the address width. -/
theorem width_apply (s : Radio) {a : Action} (h : a.keepsWidth = true) :
    (a.apply s).chip.reg regSetupAw = s.chip.reg regSetupAw := by
  cases a with
  | update r mask value => exact writeReg_reg_of_ne _ (by simpa [Action.keepsWidth] using h) _
  | store r value => exact writeReg_reg_of_ne _ (by simpa [Action.keepsWidth] using h) _
  | address r addr => exact writeReg_reg_of_ne _ (by simpa [Action.keepsWidth] using h) _
  | command cmd => exact s.chip.write_reg (by simpa [Action.keepsWidth] using h) _
  | active _ | skip => rfl

theorem Action.isPlain.ready {a : Action} (h : a.isPlain = true) (s : Radio) : a.Ready s := by
  cases a with
  | address r addr => contradiction
  | _ => trivial

/-- Once the width is five bytes, the address setters behind it do not refuse.
-/
theorem legal_of_width {as : List Action} (has : as.all Action.keepsWidth = true) {s : Radio}
    (h : s.chip.reg regSetupAw &&& 3#8 = 3#8) : Legal s as := by
  induction as generalizing s with
  | nil => trivial
  | cons a as ih =>
      rw [List.all_cons, Bool.and_eq_true] at has
      refine ⟨?_, ih has.2 (by rw [width_apply s has.1]; exact h)⟩
      cases a with
      | address r addr => exact h
      | _ => trivial

theorem legal_append {as bs : List Action} (has : as.all Action.isPlain = true) {s : Radio}
    (h : ∀ s, Legal s bs) : Legal s (as ++ bs) := by
  induction as generalizing s with
  | nil => exact h s
  | cons a as ih =>
      rw [List.all_cons, Bool.and_eq_true] at has
      exact ⟨Action.isPlain.ready has.1 s, ih has.2⟩

/-- The address width is set before the first address. -/
theorem legal_plan (type : Role) (s : Radio) : Legal s (plan type) := by
  have hbits : ∀ b : Byte, replaceBits 0x03 defaultAddressWidth.val b &&& 3#8 = 3#8 := by decide
  have hsplit : plan type = (plan type).take 20 ++
      .update regSetupAw 0x03 defaultAddressWidth.val :: (plan type).drop 21 := rfl
  rw [hsplit]
  refine legal_append (by cases type <;> rfl) fun s => ⟨trivial, ?_⟩
  exact legal_of_width (by cases type <;> rfl) (hbits _)

theorem evalAt_basicInit (env : Schedule) (s : Radio) (type : Role) (i : Nat) :
    evalAt env (basicInit type true) s i = runPlan env (plan type) (s.setHandle ⟨1, 0, true⟩) i := by
  have hlink : evalAt env (link true) s i = ((s.setHandle ⟨0, 0, true⟩, i), ()) := rfl
  have hinit : evalAt env init (s.setHandle ⟨0, 0, true⟩) i =
      ((s.setHandle ⟨1, 0, true⟩, i), 0) := rfl
  rw [basicInit, Prog.bind_eq, evalAt_bind, hlink, Prog.bind_eq, evalAt_bind, hinit, evalAt_ite,
    if_neg (by simp)]
  exact evalAt_runSteps env (realises_basicInitSteps type) rfl (legal_plan type _) i

/-! ## Without failures -/

/-- Nothing fails in a range in which no transaction does. -/
theorem firstFailure_eq_none {env : Schedule} {i n : Nat}
    (h : ∀ j, i ≤ j → j < i + n → env.fails j = false) : firstFailure env i n = none := by
  induction n generalizing i with
  | zero => rfl
  | succ n ih =>
      rw [firstFailure, h i (Nat.le_refl i) (by omega), if_neg Bool.false_ne_true]
      exact ih fun j hij hj => h j (by omega) (by omega)

/-- The transactions of a plan. -/
def total (as : List Action) : Nat := as.foldr (fun a n => a.count + n) 0

/-- Without a failure the plan runs to its end. -/
theorem runPlan_of_ok {env : Schedule} {as : List Action} {s : Radio} {i : Nat}
    (h : ∀ j, i ≤ j → j < i + total as → env.fails j = false) :
    runPlan env as s i = ((as.foldl Action.apply s, i + total as), 0) := by
  induction as generalizing s i with
  | nil => rfl
  | cons a as ih =>
      have htotal : total (a :: as) = a.count + total as := rfl
      have hfirst : firstFailure env i a.count = none :=
        firstFailure_eq_none fun j hij hj => h j hij (by omega)
      rw [runPlan, hfirst, List.foldl_cons, htotal, ← Nat.add_assoc]
      exact ih fun j hij hj => h j (by omega) (by omega)

/-! ## What the plan leaves in each register -/

/-- Registers of one byte that keep what is written to them. -/
def isStored (r : Byte) : Bool :=
  r ≠ regStatus && r ≠ regRxAddrP0 && r ≠ regRxAddrP1 && r ≠ regTxAddr

/-- The bits of one register that have been replaced, and their values,
after one more action. -/
def Action.onReg (r : Byte) (x : Byte × Byte) : Action → Byte × Byte
  | .update r' mask value =>
      if r' = r ∧ isStored r = true then (x.1 ||| mask, replaceBits mask value x.2) else x
  | .store r' value => if r' = r ∧ isStored r = true then (0xFF#8, value) else x
  | _ => x

theorem writeReg_reg (c : Chip) (r' r v : Byte) :
    (c.writeReg r' [v]).reg r = if r' = r ∧ isStored r = true then v else c.reg r := by
  by_cases hr : r' = r
  · subst hr
    unfold Chip.writeReg
    split
    · next h => rw [h, if_neg (by decide)]
    split
    · next h => rw [h, if_neg (by decide)]
    split
    · next h => rw [h, if_neg (by decide)]
    split
    · next h => rw [h, if_neg (by decide)]
    · have hstored : isStored r' = true := by simp [isStored, *]
      rw [if_pos ⟨rfl, hstored⟩]
      exact Function.update_self r' v c.reg
  · rw [if_neg fun h => hr h.1]
    exact writeReg_reg_of_ne c hr _

/-- The addresses and commands that the plan writes leave the other
registers alone. -/
def Action.keepsRegs : Action → Bool
  | .address r _ => !isStored r
  | .command cmd => cmd &&& 0xE0#8 ≠ commandWRegister
  | _ => true

/-- Replacing bits of a register and then performing an action. -/
theorem reg_apply (s : Radio) (a : Action) (r : Byte) (h : a.keepsRegs = true) (x : Byte × Byte)
    (b : Byte) (hs : s.chip.reg r = replaceBits x.1 x.2 b) :
    (a.apply s).chip.reg r = replaceBits (a.onReg r x).1 (a.onReg r x).2 b := by
  cases a with
  | update r' mask value =>
      show (s.chip.writeReg r' [replaceBits mask value ((s.chip.readReg r').getD 0 0)]).reg r = _
      rw [writeReg_reg, Action.onReg]
      split
      · next hr =>
          obtain ⟨rfl, hstored⟩ := hr
          have hread : (s.chip.readReg r').getD 0 0 = s.chip.reg r' := by
            unfold isStored at hstored
            unfold Chip.readReg
            simp_all
          rw [hread, hs, replaceBits_replaceBits]
      · exact hs
  | store r' value =>
      show (s.chip.writeReg r' [value]).reg r = _
      rw [writeReg_reg, Action.onReg]
      split
      · rw [replaceBits_all]
      · exact hs
  | address r' addr =>
      have hr' : isStored r' = false := by simpa [Action.keepsRegs] using h
      have hkeep : (s.chip.writeReg r' addr.reverse.toList).reg r = s.chip.reg r := by
        unfold isStored at hr'
        unfold Chip.writeReg
        repeat' split
        all_goals simp_all
      exact hkeep.trans hs
  | command cmd =>
      have hcmd : cmd &&& 0xE0#8 ≠ commandWRegister := by simpa [Action.keepsRegs] using h
      have hkeep : (s.chip.write cmd []).reg r = s.chip.reg r := by
        unfold Chip.write Chip.pushTx
        rw [if_neg hcmd]
        repeat' split
        all_goals rfl
      exact hkeep.trans hs
  | active _ | skip => exact hs

/-- Bits that no action writes are as they were, and the others as the last
action left them. -/
theorem reg_foldl {as : List Action} (has : as.all Action.keepsRegs = true) (s : Radio)
    (r : Byte) (x : Byte × Byte) (b : Byte) (hs : s.chip.reg r = replaceBits x.1 x.2 b) :
    (as.foldl Action.apply s).chip.reg r =
      replaceBits (as.foldl (Action.onReg r) x).1 (as.foldl (Action.onReg r) x).2 b := by
  induction as generalizing s x with
  | nil => exact hs
  | cons a as ih =>
      rw [List.all_cons, Bool.and_eq_true] at has
      exact ih has.2 _ _ (reg_apply s a r has.1 x b hs)

/-- The registers of one byte that the initialisation sets, with the bits it
sets and their values. -/
def settings (type : Role) : List (Byte × Byte × Byte) :=
  [(regConfig, 0x7F#8, 0x7E#8 ||| type.mode.val),
    (regEnAa, 0x3F#8, 0x3F#8),
    (regEnRxaddr, 0x3F#8, 0x3F#8),
    (regSetupAw, 0x03#8, defaultAddressWidth.val),
    (regSetupRetr, 0xFF#8,
      autoRetransmitDelayToRegister defaultRetransmitDelay <<< 4 ||| defaultRetransmitCount),
    (regRfCh, 0x7F#8, defaultChannelFrequency),
    (regRfSetup, 0xBE#8, dataRateBits defaultDataRate ||| defaultOutputPower.val <<< 1),
    (regRxAddrP2, 0xFF#8, defaultRxAddr2.get 4),
    (regRxAddrP3, 0xFF#8, defaultRxAddr3.get 4),
    (regRxAddrP4, 0xFF#8, defaultRxAddr4.get 4),
    (regRxAddrP5, 0xFF#8, defaultRxAddr5.get 4),
    (regRxPwP0, 0xFF#8, defaultPayload),
    (regRxPwP1, 0xFF#8, defaultPayload),
    (regRxPwP2, 0xFF#8, defaultPayload),
    (regRxPwP3, 0xFF#8, defaultPayload),
    (regRxPwP4, 0xFF#8, defaultPayload),
    (regRxPwP5, 0xFF#8, defaultPayload),
    (regDynpd, 0x3F#8, 0x3F#8),
    (regFeature, 0x07#8, 0x07#8)]

/-- The bits of a register that the initialisation sets, with their values. -/
def setting (type : Role) (r : Byte) : Byte × Byte :=
  ((settings type).lookup r).getD (0, 0)

/-- The register whose bits an action replaces. -/
def Action.target : Action → Option Byte
  | .update r _ _ | .store r _ => if isStored r then some r else none
  | _ => none

/-- An action on another register. -/
theorem onReg_of_ne {a : Action} {r : Byte} (h : a.target ≠ some r) (x : Byte × Byte) :
    a.onReg r x = x := by
  cases a with
  | update r' mask value =>
      refine if_neg fun hr => h ?_
      obtain ⟨rfl, hstored⟩ := hr
      simp [Action.target, hstored]
  | store r' value =>
      refine if_neg fun hr => h ?_
      obtain ⟨rfl, hstored⟩ := hr
      simp [Action.target, hstored]
  | _ => rfl

theorem foldl_onReg_of_ne {as : List Action} {r : Byte} (h : ∀ a ∈ as, a.target ≠ some r)
    (x : Byte × Byte) : as.foldl (Action.onReg r) x = x := by
  induction as generalizing x with
  | nil => rfl
  | cons a as ih =>
      rw [List.foldl_cons, onReg_of_ne (h a (by simp)), ih fun a ha => h a (by simp [ha])]

theorem target_mem_settings (type : Role) : (plan type).all (fun a =>
    a.target.all fun r => (settings type).any fun x => x.1 = r) = true := by
  cases type <;> decide

/-- What the plan leaves of each register that it writes, checked against the
table. -/
theorem foldl_onReg_settings (type : Role) : (settings type).all (fun x =>
    (plan type).foldl (Action.onReg x.1) (0, 0) == setting type x.1) = true := by
  cases type <;> rfl

/-- The plan replaces in each register the bits of its setting. -/
theorem foldl_onReg (type : Role) (r : Byte) :
    (plan type).foldl (Action.onReg r) (0, 0) = setting type r := by
  by_cases hr : ∃ x ∈ settings type, x.1 = r
  · obtain ⟨x, hx, rfl⟩ := hr
    have hx' := List.all_eq_true.mp (foldl_onReg_settings type) x hx
    simpa using hx'
  · have hplan : ∀ a ∈ plan type, a.target ≠ some r := by
      intro a ha htarget
      have hall := List.all_eq_true.mp (target_mem_settings type) a ha
      rw [htarget, Option.all_some, List.any_eq_true] at hall
      obtain ⟨x, hx, hxr⟩ := hall
      exact hr ⟨x, hx, by simpa using hxr⟩
    have hlookup : (settings type).lookup r = none := by
      rw [List.lookup_eq_none_iff]
      intro x hx
      simpa using fun heq => hr ⟨x, hx, heq.symm⟩
    rw [foldl_onReg_of_ne hplan, setting, hlookup]
    rfl

/-! ## What the plan leaves elsewhere -/

/-- No event bit is set. -/
structure Quiet (c : Chip) : Prop where
  rxDr : c.rxDr = false
  txDs : c.txDs = false
  maxRt : c.maxRt = false

/-- A write of a register puts nothing into a FIFO. -/
theorem Quiet.writeReg {c : Chip} (h : Quiet c) (r : Byte) (buf : List Byte) :
    Quiet (c.writeReg r buf) := by
  obtain ⟨hrx, htx, hmax⟩ := h
  unfold Chip.writeReg
  repeat' split
  all_goals constructor <;> simp [hrx, htx, hmax]

theorem Quiet.apply {s : Radio} (h : Quiet s.chip) (a : Action) : Quiet (a.apply s).chip := by
  cases a with
  | update r mask value => exact h.writeReg r _
  | store r value => exact h.writeReg r _
  | address r addr => exact h.writeReg r _
  | command cmd =>
      show Quiet (s.chip.write cmd [])
      obtain ⟨r, -, hw⟩ | ⟨txFifo, rxFifo, hw⟩ := s.chip.write_cases cmd []
      · rw [hw]
        exact h.writeReg r _
      · rw [hw]
        exact ⟨h.rxDr, h.txDs, h.maxRt⟩
  | active _ | skip => exact h

theorem Quiet.foldl {s : Radio} (h : Quiet s.chip) (as : List Action) :
    Quiet (as.foldl Action.apply s).chip := by
  induction as generalizing s with
  | nil => exact h
  | cons a as ih => exact ih (h.apply a)

/-- The write that clears `RX_DR` carries the other event bits with it. -/
theorem quiet_clear (s : Radio) : Quiet (Action.apply s (.update regStatus 0x40 0x40)).chip := by
  have hbits : ∀ b : Byte, bit (replaceBits 0x40 0x40 b) 6 = true ∧
      bit (replaceBits 0x40 0x40 b) 5 = bit b 5 ∧ bit (replaceBits 0x40 0x40 b) 4 = bit b 4 := by
    decide
  obtain ⟨h6, h5, h4⟩ := hbits s.chip.status
  constructor
  · show (s.chip.rxDr && !bit (replaceBits 0x40 0x40 s.chip.status) 6) = false
    rw [h6, Bool.not_true, Bool.and_false]
  · show (s.chip.txDs && !bit (replaceBits 0x40 0x40 s.chip.status) 5) = false
    rw [h5, Chip.bit_status_txDs, Bool.and_not_self]
  · show (s.chip.maxRt && !bit (replaceBits 0x40 0x40 s.chip.status) 4) = false
    rw [h4, Chip.bit_status_maxRt, Bool.and_not_self]

theorem quiet_plan (type : Role) (s : Radio) : Quiet ((plan type).foldl Action.apply s).chip := by
  have hsplit : plan type = (plan type).take 29 ++
      .update regStatus 0x40 0x40 :: (plan type).drop 30 := rfl
  rw [hsplit, List.foldl_append, List.foldl_cons]
  exact (quiet_clear _).foldl _

/-- The radio as the initialisation leaves it. -/
def normalised (type : Role) (s : Radio) : Radio where
  chip :=
    { reg := fun r => replaceBits (setting type r).1 (setting type r).2 (s.chip.reg r)
      rxAddrP0 := defaultRxAddr0.reverse
      rxAddrP1 := defaultRxAddr1.reverse
      txAddr := s.chip.txAddr
      rxDr := false
      txDs := false
      maxRt := false
      txFifo := []
      rxFifo := [] }
  ce := true
  handle := ⟨1, 0, true⟩
  gsTxAddr := s.gsTxAddr
  gsTxAddrSet := s.gsTxAddrSet

attribute [ext] Chip Radio

/-- The plan as a whole, in closed form. -/
theorem foldl_plan (type : Role) (s : Radio) :
    (plan type).foldl Action.apply (s.setHandle ⟨1, 0, true⟩) = normalised type s := by
  have hregs : (plan type).all Action.keepsRegs = true := by cases type <;> rfl
  have hquiet := quiet_plan type (s.setHandle ⟨1, 0, true⟩)
  ext1
  · ext1
    · funext r
      have hzero : (s.setHandle ⟨1, 0, true⟩).chip.reg r = replaceBits 0 0 (s.chip.reg r) :=
        (replaceBits_zero _).symm
      rw [reg_foldl hregs _ r (0, 0) (s.chip.reg r) hzero, foldl_onReg]
      rfl
    · exact Chip.overlay_toList defaultRxAddr0.reverse _
    · exact Chip.overlay_toList defaultRxAddr1.reverse _
    · rfl
    · exact hquiet.rxDr
    · exact hquiet.txDs
    · exact hquiet.maxRt
    · rfl
    · rfl
  all_goals rfl

/-! ## Normalisation -/

/-- The radio as the defaults of `nrf24l01_basic.h` and the type describe
it: the bits of each register that are not reserved, no event, empty FIFOs,
CE high. -/
structure Normal (type : Role) (s : Radio) : Prop where
  config : s.chip.reg regConfig &&& 0x7F#8 = 0x7E#8 ||| type.mode.val
  enAa : s.chip.reg regEnAa &&& 0x3F#8 = 0x3F#8
  enRxaddr : s.chip.reg regEnRxaddr &&& 0x3F#8 = 0x3F#8
  setupAw : s.chip.reg regSetupAw &&& 0x03#8 = defaultAddressWidth.val
  setupRetr : s.chip.reg regSetupRetr =
    autoRetransmitDelayToRegister defaultRetransmitDelay <<< 4 ||| defaultRetransmitCount
  rfCh : s.chip.reg regRfCh &&& 0x7F#8 = defaultChannelFrequency
  rfSetup : s.chip.reg regRfSetup &&& 0xBE#8 =
    dataRateBits defaultDataRate ||| defaultOutputPower.val <<< 1
  rxAddrP0 : s.chip.rxAddrP0 = defaultRxAddr0.reverse
  rxAddrP1 : s.chip.rxAddrP1 = defaultRxAddr1.reverse
  rxAddr : s.chip.reg regRxAddrP2 = defaultRxAddr2.get 4 ∧ s.chip.reg regRxAddrP3 = defaultRxAddr3.get 4 ∧
    s.chip.reg regRxAddrP4 = defaultRxAddr4.get 4 ∧ s.chip.reg regRxAddrP5 = defaultRxAddr5.get 4
  rxPw : ∀ r ∈ [regRxPwP0, regRxPwP1, regRxPwP2, regRxPwP3, regRxPwP4, regRxPwP5],
    s.chip.reg r &&& 0x3F#8 = defaultPayload
  dynpd : s.chip.reg regDynpd &&& 0x3F#8 = 0x3F#8
  feature : s.chip.reg regFeature &&& 0x07#8 = 0x07#8
  quiet : Quiet s.chip
  txFifo : s.chip.txFifo = []
  rxFifo : s.chip.rxFifo = []
  ce : s.ce = true

theorem reg_normalised {type : Role} {r m v : Byte} (hset : setting type r = (m, v)) (s : Radio) :
    (normalised type s).chip.reg r = replaceBits m v (s.chip.reg r) := by
  simp [normalised, hset]

theorem normal_normalised (type : Role) (s : Radio) : Normal type (normalised type s) := by
  have hbits : ∀ r m v : Byte, setting type r = (m, v) → v &&& m = v →
      (normalised type s).chip.reg r &&& m = v := by
    intro r m v hset hv
    rw [reg_normalised hset, replaceBits_and hv]
  have hstored : ∀ r v : Byte, setting type r = (0xFF#8, v) →
      (normalised type s).chip.reg r = v := by
    intro r v hset
    rw [reg_normalised hset, replaceBits_all]
  have hrxPw : ∀ r : Byte, setting type r = (0xFF#8, defaultPayload) →
      (normalised type s).chip.reg r &&& 0x3F#8 = defaultPayload := by
    intro r hset
    rw [hstored r _ hset]
    rfl
  exact {
    config := hbits _ _ _ (by rfl) (by cases type <;> rfl)
    enAa := hbits _ _ _ (by rfl) (by rfl)
    enRxaddr := hbits _ _ _ (by rfl) (by rfl)
    setupAw := hbits _ _ _ (by rfl) (by rfl)
    setupRetr := hstored _ _ (by rfl)
    rfCh := hbits _ _ _ (by rfl) (by rfl)
    rfSetup := hbits _ _ _ (by rfl) (by rfl)
    rxAddrP0 := rfl
    rxAddrP1 := rfl
    rxAddr := ⟨hstored _ _ (by rfl), hstored _ _ (by rfl), hstored _ _ (by rfl),
      hstored _ _ (by rfl)⟩
    rxPw := by
      simp only [List.forall_mem_cons]
      exact ⟨hrxPw _ (by rfl), hrxPw _ (by rfl), hrxPw _ (by rfl), hrxPw _ (by rfl),
        hrxPw _ (by rfl), hrxPw _ (by rfl), by simp⟩
    dynpd := hbits _ _ _ (by rfl) (by rfl)
    feature := hbits _ _ _ (by rfl) (by rfl)
    quiet := ⟨rfl, rfl, rfl⟩
    txFifo := rfl
    rxFifo := rfl
    ce := rfl }

/-- A second initialisation changes nothing more. -/
theorem normalised_normalised (type : Role) (s : Radio) :
    normalised type (normalised type s) = normalised type s := by
  ext1
  · ext1
    · funext r
      exact replaceBits_idem _ _ _
    all_goals rfl
  all_goals rfl

theorem evalAt_basicInit_ok {env : Schedule} (henv : ∀ i, env.fails i = false) (type : Role)
    (s : Radio) (i : Nat) :
    evalAt env (basicInit type true) s i = ((normalised type s, i + total (plan type)), 0) := by
  rw [evalAt_basicInit, runPlan_of_ok fun j _ _ => henv j, foldl_plan]

/-- A plan that reports success has done all of its actions. -/
theorem runPlan_of_zero {env : Schedule} {as : List Action} {s : Radio} {i : Nat}
    (h : (runPlan env as s i).2 = 0) : (runPlan env as s i).1.1 = as.foldl Action.apply s := by
  induction as generalizing s i with
  | nil => rfl
  | cons a as ih =>
      rw [runPlan] at h ⊢
      cases hfirst : firstFailure env i a.count with
      | none =>
          rw [hfirst] at h
          exact ih h
      | some j =>
          rw [hfirst] at h
          exact absurd h (show (1 : Byte) ≠ 0 by decide)

/-- An initialisation that succeeds has performed the whole plan. -/
theorem evalAt_basicInit_of_zero {env : Schedule} {type : Role} {callback : Bool} {s : Radio}
    {i : Nat} (h : (evalAt env (basicInit type callback) s i).2 = 0) :
    (evalAt env (basicInit type callback) s i).1.1 = normalised type s := by
  cases callback with
  | false => exact absurd h (show (1 : Byte) ≠ 0 by decide)
  | true =>
      rw [evalAt_basicInit] at h ⊢
      rw [runPlan_of_zero h, foldl_plan]

/-- **Normalisation.**  Whatever the registers and FIFOs held, the
initialisation succeeds and leaves the default configuration, with the
transmit address as it was; a second one changes nothing. -/
theorem basicInit_normalises {env : Schedule} (henv : ∀ i, env.fails i = false) (type : Role)
    (s : Radio) (i : Nat) :
    let x := evalAt env (basicInit type true) s i
    x.2 = 0 ∧ Normal type x.1.1 ∧ x.1.1.chip.txAddr = s.chip.txAddr ∧
      ∀ env' : Schedule, (∀ j, env'.fails j = false) → ∀ j,
        (evalAt env' (basicInit type true) x.1.1 j).1.1 = x.1.1 := by
  rw [evalAt_basicInit_ok henv]
  refine ⟨rfl, normal_normalised type s, rfl, ?_⟩
  intro env' henv' j
  rw [evalAt_basicInit_ok henv', normalised_normalised]

theorem basicInit_normalises_sample :
    let x := evalAt (.failingAt []) (basicInit .rx true) sampleRadio 0
    Normal .rx x.1.1 ∧ x.1.1.chip.txAddr = sampleRadio.chip.txAddr := by
  have henv : ∀ i, (Schedule.failingAt []).fails i = false := fun _ => rfl
  obtain ⟨-, hnormal, htx, -⟩ := basicInit_normalises henv .rx sampleRadio 0
  exact ⟨hnormal, htx⟩

end Init

end DsEthComm.Nrf24l01
