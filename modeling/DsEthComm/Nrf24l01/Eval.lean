import DsEthComm.Nrf24l01.Radio

/-!
# DsEthComm.Nrf24l01.Eval

What the driver functions do when they run alone and no transaction fails:
one equation for each family of functions, and from them the effect of
`nrf24l01_basic_init` step by step.
-/

namespace DsEthComm.Nrf24l01

open Conc

namespace Radio

/-! ## Running a program -/

section Eval

variable {α β : Type}

@[simp] theorem eval_pure (a : α) (s : Radio) : eval (.pure a) s = (s, a) := rfl

@[simp] theorem eval_bind (p : Driver α) (f : α → Driver β) (s : Radio) :
    eval (p.bind f) s = eval (f (eval p s).2) (eval p s).1 :=
  Prog.eval_bind p f s

@[simp] theorem eval_ite (c : Prop) [Decidable c] (p q : Driver α) (s : Radio) :
    eval (if c then p else q) s = if c then eval p s else eval q s := by
  split <;> rfl

end Eval

/-! ## Operations that succeed -/

@[simp] theorem eval_getInited (s : Radio) : eval getInited s = (s, s.handle.inited) := rfl

@[simp] theorem eval_gpioWrite (value : Bool) (s : Radio) :
    eval (gpioWrite value) s = ({ s with ce := value }, true) := rfl

/-- A read of up to 33 bytes succeeds: the transport's buffers hold 34. -/
theorem eval_spiRead {len : Nat} (h0 : 0 < len) (h33 : len ≤ 33) (reg : Byte) (s : Radio) :
    eval (Nrf24l01.spiRead reg len) s =
      (s.setChip (s.chip.read reg len []).1, some (s.chip.read reg len []).2) :=
  s.spiRead_of_ok reg h0 h33 rfl

/-- So does a write. -/
theorem eval_spiWrite {buf : List Byte} (h : buf.length ≤ 33) (reg : Byte) (s : Radio) :
    eval (Nrf24l01.spiWrite reg buf) s = (s.setChip (s.chip.write reg buf), true) :=
  s.spiWrite_of_ok reg h rfl

/-- A read of one byte of a register. -/
theorem eval_readRegister {r : Byte} (hr : r &&& 0xE0#8 = 0#8) (s : Radio) :
    eval (Nrf24l01.spiRead (commandRRegister ||| r) 1) s =
      (s, some [(s.chip.readReg r).getD 0 0]) := by
  rw [eval_spiRead (by decide) (by decide), Chip.read_rRegister _ hr]
  have hfit : ∀ bs : List Byte, Chip.fit 1 bs [] = [bs.getD 0 0] := by
    intro bs
    cases bs <;> simp [Chip.fit]
  rw [hfit]
  rfl

/-- A write of a register. -/
theorem eval_writeRegister {r : Byte} (hr : r &&& 0xE0#8 = 0#8) {buf : List Byte}
    (h : buf.length ≤ 33) (s : Radio) :
    eval (Nrf24l01.spiWrite (commandWRegister ||| r) buf) s =
      (s.setChip (s.chip.writeReg r buf), true) := by
  rw [eval_spiWrite h, Chip.write_wRegister _ hr]

/-! ## Families of functions -/

@[simp] theorem eval_failWith (fmt : String) (args : List Nat) (status : Byte) (s : Radio) :
    eval (failWith fmt args status) s = (s, status) := rfl

/-- Without `inited` a function refuses with status 3. -/
theorem eval_checked (body : Driver Byte) (s : Radio) :
    eval (checked body) s = if s.handle.inited = 1 then eval body s else (s, 3) := by
  rw [checked, Prog.bind_eq, eval_bind, eval_getInited, eval_ite]
  by_cases h : s.handle.inited = 1 <;> simp [h]

theorem eval_checked_of_inited {s : Radio} (h : s.handle.inited = 1) (body : Driver Byte) :
    eval (checked body) s = eval body s := by
  rw [eval_checked, if_pos h]

/-- Two transactions: the register is read, and written with its new value. -/
theorem eval_readModifyWrite {r : Byte} (hr : r &&& 0xE0#8 = 0#8) (f : Byte → Byte)
    (getFailed setFailed : String) (s : Radio) :
    eval (readModifyWrite r f getFailed setFailed) s =
      (s.setChip (s.chip.writeReg r [f ((s.chip.readReg r).getD 0 0)]), 0) := by
  rw [readModifyWrite, Prog.bind_eq, eval_bind, eval_readRegister hr]
  simp only [List.getD_cons_zero, Prog.bind_eq, eval_bind]
  rw [eval_writeRegister hr (by simp)]
  rfl

theorem eval_writeByte {r : Byte} (hr : r &&& 0xE0#8 = 0#8) (value : Byte) (setFailed : String)
    (s : Radio) :
    eval (writeByte r value setFailed) s = (s.setChip (s.chip.writeReg r [value]), 0) := by
  rw [writeByte, Prog.bind_eq, eval_bind, eval_writeRegister hr (by simp)]
  rfl

/-- A value within its bound is passed on. -/
theorem eval_bounded {s : Radio} (h : s.handle.inited = 1) {value bound : Byte}
    (hle : ¬ bound < value) (tooLarge : String) (body : Driver Byte) :
    eval (bounded value bound tooLarge body) s = eval body s := by
  rw [bounded, eval_checked_of_inited h, eval_ite, if_neg hle]

theorem eval_command {s : Radio} (h : s.handle.inited = 1) (cmd : Byte) (failed : String) :
    eval (command cmd failed) s = (s.setChip (s.chip.write cmd []), 0) := by
  rw [command, eval_checked_of_inited h, Prog.bind_eq, eval_bind, eval_spiWrite (by simp)]
  rfl

theorem eval_setActive {s : Radio} (h : s.handle.inited = 1) (enable : Bool) :
    eval (setActive enable) s = ({ s with ce := enable }, 0) := by
  rw [setActive, eval_checked_of_inited h, Prog.bind_eq, eval_bind, eval_gpioWrite]
  rfl

/-- The address setters with an address width of five bytes. -/
theorem eval_setAddress {s : Radio} (h : s.handle.inited = 1)
    (hw : s.chip.reg regSetupAw &&& 3#8 = 3#8) {r : Byte} (hr : r &&& 0xE0#8 = 0#8) (addr : Addr)
    (setFailed : String) :
    eval (setAddress r addr.toList defaultAddressLen setFailed) s =
      (s.setChip (s.chip.writeReg r addr.reverse.toList), 0) := by
  have hread : (s.chip.readReg regSetupAw).getD 0 0 = s.chip.reg regSetupAw := rfl
  rw [setAddress, eval_checked_of_inited h, Prog.bind_eq, eval_bind,
    eval_readRegister (by decide), hread]
  simp only [List.getD_cons_zero, hw]
  rw [if_neg (by decide), if_neg (by decide), take_defaultAddressLen, reverseBuffer_eq, Prog.bind_eq, eval_bind,
    eval_writeRegister hr (by simp), ← Vector.toList_reverse]
  rfl

/-! ## Calls -/

section Calls

variable {s : Radio}

/-- The address registers after both setters. -/
def program (s : Radio) (addr : Addr) : Radio :=
  s.setChip { s.chip with txAddr := addr.reverse, rxAddrP0 := addr.reverse }

/-- The transmit address lies in the chip with its bytes reversed. -/
theorem eval_setTxAddress (h : s.handle.inited = 1) (hw : s.chip.reg regSetupAw &&& 3#8 = 3#8)
    (addr : Addr) :
    eval (setTxAddress addr defaultAddressLen) s =
      (s.setChip { s.chip with txAddr := addr.reverse }, 0) := by
  rw [setTxAddress, eval_setAddress h hw (by decide), Chip.writeReg_txAddr]

theorem eval_setRxPipe0Address (h : s.handle.inited = 1)
    (hw : s.chip.reg regSetupAw &&& 3#8 = 3#8) (addr : Addr) :
    eval (setRxPipe0Address addr defaultAddressLen) s =
      (s.setChip { s.chip with rxAddrP0 := addr.reverse }, 0) := by
  rw [setRxPipe0Address, eval_setAddress h hw (by decide), Chip.writeReg_rxAddrP0]

/-- `nrf24l01_basic_set_tx_address` programs both address registers and
remembers the address. -/
theorem eval_basicSetTxAddress (h : s.handle.inited = 1)
    (hw : s.chip.reg regSetupAw &&& 3#8 = 3#8) (addr : Addr) :
    eval (basicSetTxAddress addr) s =
      ({ program s addr with gsTxAddr := addr, gsTxAddrSet := 1 }, 0) := by
  rw [basicSetTxAddress, Prog.bind_eq, eval_bind, eval_setTxAddress h hw]
  simp only [ne_eq, not_true_eq_false, if_false, Prog.bind_eq, eval_bind]
  rw [eval_setRxPipe0Address (by exact h) (by exact hw)]
  rfl

/-- `nrf24l01_basic_send` programs both address registers for this payload, and
remembers nothing. -/
theorem eval_basicSend (h : s.handle.inited = 1) (hw : s.chip.reg regSetupAw &&& 3#8 = 3#8)
    (addr : Addr) (buf : List Byte) (useAck : Bool) :
    eval (basicSend addr buf useAck) s =
      eval (zeroOrOne (send buf useAck)) { program s addr with ce := false } := by
  rw [basicSend, Prog.bind_eq, eval_bind, eval_setActive h]
  simp only [ne_eq, not_true_eq_false, if_false, Prog.bind_eq, eval_bind]
  rw [eval_setTxAddress (by exact h) (by exact hw)]
  simp only [not_true_eq_false, if_false, eval_bind]
  rw [eval_setRxPipe0Address (by exact h) (by exact hw)]
  rfl

theorem eval_zeroOrOne (p : Driver Byte) :
    eval (zeroOrOne p) s =
      ((eval p s).1, if (eval p s).2 ≠ 0 then 1 else 0) := by
  rw [zeroOrOne, Prog.bind_eq, eval_bind, eval_ite]
  split <;> rfl

/-- Before its steps `nrf24l01_basic_init` links the handle and calls
`nrf24l01_init`. -/
theorem eval_basicInit (s : Radio) (type : Role) :
    eval (basicInit type true) s =
      eval (runSteps (basicInitSteps type)) (s.setHandle ⟨1, 0, true⟩) := by
  have hlink : eval (link true) s = (s.setHandle ⟨0, 0, true⟩, ()) := rfl
  have hinit : eval init (s.setHandle ⟨0, 0, true⟩) = (s.setHandle ⟨1, 0, true⟩, 0) := rfl
  rw [basicInit, Prog.bind_eq, eval_bind, hlink, Prog.bind_eq, eval_bind, hinit,
    eval_ite, if_neg (by simp)]

/-- `nrf24l01_deinit` clears `PWR_UP`. A NOP leaves the chip as it is. -/
theorem eval_deinit (h : s.handle.inited = 1) :
    eval deinit s =
      ((s.setChip (s.chip.writeReg regConfig
        [s.chip.reg regConfig &&& ~~~(1#8 <<< 1)])).setHandle { s.handle with inited := 0 }, 0) := by
  have hnop : s.setChip (s.chip.write commandNop []) = s := rfl
  have hread : (s.chip.readReg regConfig).getD 0 0 = s.chip.reg regConfig := rfl
  rw [deinit, eval_checked_of_inited h, Prog.bind_eq, eval_bind,
    eval_spiWrite (by simp), hnop]
  simp only [Bool.not_true, Bool.false_eq_true, if_false, Prog.bind_eq, eval_bind]
  rw [eval_readRegister (by decide), hread]
  simp only [List.getD_cons_zero, eval_bind]
  rw [eval_writeRegister (by decide) (by simp)]
  rfl

end Calls

end Radio

/-! ## What a call leaves alone -/

/-- The operations that touch neither the address registers nor the address
width, and none of the variables that go with them. -/
def Op.keepsAddress : Op → Bool
  | .spiWrite cmd _ =>
      cmd ≠ commandWRegister ||| regTxAddr && cmd ≠ commandWRegister ||| regRxAddrP0 &&
        cmd ≠ commandWRegister ||| regSetupAw
  | .link _ | .setInited _ | .setTxAddr _ | .setTxAddrSet _ => false
  | _ => true

/-- Two states agree on the address registers, the address width and the
variables that go with them. -/
structure SameAddress (s s' : Radio) : Prop where
  txAddr : s'.chip.txAddr = s.chip.txAddr
  rxAddrP0 : s'.chip.rxAddrP0 = s.chip.rxAddrP0
  setupAw : s'.chip.reg regSetupAw = s.chip.reg regSetupAw
  gsTxAddr : s'.gsTxAddr = s.gsTxAddr
  gsTxAddrSet : s'.gsTxAddrSet = s.gsTxAddrSet
  inited : s'.handle.inited = s.handle.inited

theorem SameAddress.refl (s : Radio) : SameAddress s s := ⟨rfl, rfl, rfl, rfl, rfl, rfl⟩

theorem SameAddress.trans {s s' s'' : Radio} (h : SameAddress s s') (h' : SameAddress s' s'') :
    SameAddress s s'' :=
  ⟨h'.txAddr.trans h.txAddr, h'.rxAddrP0.trans h.rxAddrP0, h'.setupAw.trans h.setupAw,
    h'.gsTxAddr.trans h.gsTxAddr, h'.gsTxAddrSet.trans h.gsTxAddrSet, h'.inited.trans h.inited⟩

/-- A write to any other register leaves the addresses alone. -/
theorem SameAddress.write (s : Radio) {cmd : Byte} {buf : List Byte}
    (h : Op.keepsAddress (.spiWrite cmd buf) = true) :
    SameAddress s (s.setChip (s.chip.write cmd buf)) := by
  obtain ⟨⟨htx, hrx⟩, haw⟩ : (cmd ≠ commandWRegister ||| regTxAddr ∧
      cmd ≠ commandWRegister ||| regRxAddrP0) ∧ cmd ≠ commandWRegister ||| regSetupAw := by
    simpa [Op.keepsAddress] using h
  exact ⟨s.chip.write_txAddr htx buf, s.chip.write_rxAddrP0 hrx buf, s.chip.write_reg haw buf,
    rfl, rfl, rfl⟩

/-- So does every operation that keeps them, whatever it is answered. -/
theorem SameAddress.perform (s : Radio) {o : Op} (a : Answer) (h : o.keepsAddress = true) :
    SameAddress s (s.perform o a).1 := by
  cases o with
  | spiRead reg len =>
      show SameAddress s (s.spiRead reg len a).1
      unfold Radio.spiRead
      split
      · exact .refl s
      · obtain ⟨rxFifo, hread⟩ := s.chip.read_cases reg len a.noise
        simp only [hread]
        exact ⟨rfl, rfl, rfl, rfl, rfl, rfl⟩
  | spiWrite reg buf =>
      show SameAddress s (s.spiWrite reg buf a).1
      unfold Radio.spiWrite
      split
      · exact .refl s
      · exact .write s h
  | link _ | setInited _ | setTxAddr _ | setTxAddrSet _ => contradiction
  | _ => exact ⟨rfl, rfl, rfl, rfl, rfl, rfl⟩

/-- Allows the operations that keep the addresses, with any answer. -/
def addressMonitor : Monitor driverSig Unit where
  pre _ o := Op.keepsAddress o
  may _ _ _ := True
  next _ _ _ := ()

/-- Every operation of the program keeps the addresses. -/
def KeepsAddress {α : Type} (p : Driver α) : Prop := p.wp addressMonitor (fun _ _ => True) ()

/-- A program of such operations leaves the addresses alone. -/
theorem KeepsAddress.eval {α : Type} {p : Driver α} (hp : KeepsAddress p) (s : Radio) :
    SameAddress s (Radio.eval p s).1 := by
  have hstep : ∀ s' (_ : Unit) (o : Op), SameAddress s s' → Op.keepsAddress o = true →
      True ∧ SameAddress s (s'.perform o .ok).1 :=
    fun s' _ o hs ho => ⟨trivial, hs.trans (.perform s' .ok ho)⟩
  obtain ⟨-, -, h⟩ := Prog.eval_of_wp hstep hp (.refl s)
  exact h

/-- The interrupt handler flushes and clears, but writes no address. -/
theorem keepsAddress_irqHandler : KeepsAddress irqHandler := by
  simp [KeepsAddress, irqHandler, checked, failWith, irqFail, irqDone, irqServe, irqMaxRt, irqSent,
    irqTail, irqReceive, irqReadPayload, notify, addressMonitor, Op.keepsAddress, commandFlushTx,
    commandFlushRx, commandWRegister, regStatus, regTxAddr, regRxAddrP0, regSetupAw]

theorem keepsAddress_awaitAck : KeepsAddress awaitAck := by
  have hignores : Ignores addressMonitor () := by
    intro o ho
    cases o <;> first | contradiction | exact ⟨rfl, fun _ => rfl⟩
  exact hignores.wp_awaitAck fun _ => trivial

/-- `nrf24l01_send` writes a payload and no register. -/
theorem keepsAddress_send (buf : List Byte) (useAck : Bool) : KeepsAddress (send buf useAck) := by
  have hack : awaitAck.wp addressMonitor (fun _ _ => True) () := keepsAddress_awaitAck
  have hcmd : Op.keepsAddress (.spiWrite (payloadCommand useAck) buf.reverse) = true := by
    cases useAck <;> rfl
  simp [KeepsAddress, send, checked, failWith]
  simp [addressMonitor, Op.keepsAddress] at hack hcmd ⊢
  grind

theorem keepsAddress_setChannelFrequency (freq : Byte) :
    KeepsAddress (setChannelFrequency freq) := by
  simp [KeepsAddress, setChannelFrequency, bounded, readModifyWrite, checked, failWith,
    addressMonitor, Op.keepsAddress, commandWRegister, regRfCh, regTxAddr, regRxAddrP0, regSetupAw]

/-- The registers whose setters keep the addresses. -/
def plainRegister (r : Byte) : Bool :=
  r &&& 0xE0#8 = 0#8 && r ≠ regTxAddr && r ≠ regRxAddrP0 && r ≠ regSetupAw

theorem SameAddress.writeReg (s : Radio) {r : Byte} (h : plainRegister r = true)
    (buf : List Byte) : SameAddress s (s.setChip (s.chip.writeReg r buf)) := by
  have hdec : ∀ r : Byte, plainRegister r = true → r &&& 0xE0#8 = 0#8 ∧
      Op.keepsAddress (.spiWrite (commandWRegister ||| r) []) = true := by decide
  obtain ⟨hr, hkeeps⟩ := hdec r h
  have hw := SameAddress.write s (show Op.keepsAddress (.spiWrite _ buf) = true from hkeeps)
  rw [Chip.write_wRegister _ hr] at hw
  exact hw

/-! ## Initialisation -/

/-- During `nrf24l01_basic_init`: the driver is initialised, the transmit
address and the cached one are as before, and from some step on the address
width is five bytes and pipe 0 has its default address. -/
structure Configured (t g : Addr) (n : Byte) (aw rx : Bool) (s : Radio) : Prop where
  inited : s.handle.inited = 1
  txAddr : s.chip.txAddr = t
  gsTxAddr : s.gsTxAddr = g
  gsTxAddrSet : s.gsTxAddrSet = n
  setupAw : aw → s.chip.reg regSetupAw &&& 3#8 = 3#8
  rxAddrP0 : rx → s.chip.rxAddrP0 = defaultRxAddr0.reverse

/-- Run from a state that satisfies `I`, the function succeeds and ends in
one that satisfies `J`. -/
def Achieves (I J : Radio → Prop) (p : Driver Byte) : Prop :=
  ∀ s, I s → (Radio.eval p s).2 = 0 ∧ J (Radio.eval p s).1

/-- Steps of the initialisation compose. -/
theorem achieves_runSteps_cons {I J K : Radio → Prop} {p : Driver Byte} {failed : String}
    {steps : List (Driver Byte × String)} (hp : Achieves I J p)
    (hsteps : Achieves J K (runSteps steps)) : Achieves I K (runSteps ((p, failed) :: steps)) := by
  intro s hs
  obtain ⟨hres, hJ⟩ := hp s hs
  rw [runSteps, Prog.bind_eq, Radio.eval_bind, hres]
  exact hsteps _ hJ

section Init

variable {t g : Addr} {n : Byte} {aw rx : Bool}

/-- A step that leaves the addresses alone keeps what is configured. -/
theorem Configured.of_same {s s' : Radio} (h : Configured t g n aw rx s)
    (hs : SameAddress s s') : Configured t g n aw rx s' where
  inited := hs.inited.trans h.inited
  txAddr := hs.txAddr.trans h.txAddr
  gsTxAddr := hs.gsTxAddr.trans h.gsTxAddr
  gsTxAddrSet := hs.gsTxAddrSet.trans h.gsTxAddrSet
  setupAw ha := by rw [hs.setupAw]; exact h.setupAw ha
  rxAddrP0 hr := by rw [hs.rxAddrP0]; exact h.rxAddrP0 hr

theorem plain_top {r : Byte} (h : plainRegister r = true) : r &&& 0xE0#8 = 0#8 := by
  revert r
  decide

/-- A setter of another register keeps what is configured. -/
theorem achieves_updateReg {r : Byte} (h : plainRegister r = true) (f : Byte → Byte)
    (getFailed setFailed : String) :
    Achieves (Configured t g n aw rx) (Configured t g n aw rx)
      (updateReg r f getFailed setFailed) := by
  intro s hs
  rw [updateReg, Radio.eval_checked_of_inited hs.inited, Radio.eval_readModifyWrite (plain_top h)]
  exact ⟨rfl, hs.of_same (.writeReg s h _)⟩

theorem achieves_bounded {value bound : Byte} (hle : ¬ bound < value) {r : Byte}
    (h : plainRegister r = true) (f : Byte → Byte) (tooLarge getFailed setFailed : String) :
    Achieves (Configured t g n aw rx) (Configured t g n aw rx)
      (bounded value bound tooLarge (readModifyWrite r f getFailed setFailed)) := by
  intro s hs
  rw [Radio.eval_bounded hs.inited hle, Radio.eval_readModifyWrite (plain_top h)]
  exact ⟨rfl, hs.of_same (.writeReg s h _)⟩

theorem achieves_setPipePayloadNumber {num : Byte} (hle : ¬ (0x3F : Byte) < num) {r : Byte}
    (h : plainRegister r = true) (setFailed : String) :
    Achieves (Configured t g n aw rx) (Configured t g n aw rx)
      (setPipePayloadNumber r num setFailed) := by
  intro s hs
  rw [setPipePayloadNumber, Radio.eval_bounded hs.inited hle, Radio.eval_writeByte (plain_top h)]
  exact ⟨rfl, hs.of_same (.writeReg s h _)⟩

theorem achieves_writeByte {r : Byte} (h : plainRegister r = true) (value : Byte)
    (setFailed : String) :
    Achieves (Configured t g n aw rx) (Configured t g n aw rx)
      (checked (writeByte r value setFailed)) := by
  intro s hs
  rw [Radio.eval_checked_of_inited hs.inited, Radio.eval_writeByte (plain_top h)]
  exact ⟨rfl, hs.of_same (.writeReg s h _)⟩

theorem achieves_command {cmd : Byte} (h : Op.keepsAddress (.spiWrite cmd []) = true)
    (failed : String) :
    Achieves (Configured t g n aw rx) (Configured t g n aw rx) (command cmd failed) := by
  intro s hs
  rw [Radio.eval_command hs.inited]
  exact ⟨rfl, hs.of_same (.write s h)⟩

theorem achieves_setActive (enable : Bool) :
    Achieves (Configured t g n aw rx) (Configured t g n aw rx) (setActive enable) := by
  intro s hs
  rw [Radio.eval_setActive hs.inited]
  exact ⟨rfl, hs.of_same ⟨rfl, rfl, rfl, rfl, rfl, rfl⟩⟩

theorem achieves_delayConvert :
    Achieves (Configured t g n aw rx) (Configured t g n aw rx)
      autoRetransmitDelayConvertToRegister := by
  intro s hs
  rw [autoRetransmitDelayConvertToRegister, Radio.eval_checked_of_inited hs.inited]
  exact ⟨rfl, hs⟩

/-- From here on the address width is five bytes. -/
theorem achieves_setAddressWidth :
    Achieves (Configured t g n aw rx) (Configured t g n true rx)
      (setAddressWidth defaultAddressWidth) := by
  intro s hs
  have hbits : ∀ b : Byte, putBits 3 0 defaultAddressWidth.val b &&& 3#8 = 3#8 := by decide
  rw [setAddressWidth, updateReg, Radio.eval_checked_of_inited hs.inited,
    Radio.eval_readModifyWrite (by decide)]
  refine ⟨rfl, hs.inited, hs.txAddr, hs.gsTxAddr, hs.gsTxAddrSet, fun _ => ?_, hs.rxAddrP0⟩
  exact hbits _

/-- Pipe 1 has a register of its own. -/
theorem achieves_setRxPipe1Address (addr : Addr) :
    Achieves (Configured t g n true rx) (Configured t g n true rx)
      (setRxPipe1Address addr defaultAddressLen) := by
  intro s hs
  rw [setRxPipe1Address, Radio.eval_setAddress hs.inited (hs.setupAw rfl) (by decide)]
  exact ⟨rfl, hs.of_same (.writeReg s (by decide) _)⟩

/-- From here on pipe 0 has its default address. -/
theorem achieves_setRxPipe0Address :
    Achieves (Configured t g n true rx) (Configured t g n true true)
      (setRxPipe0Address defaultRxAddr0 defaultAddressLen) := by
  intro s hs
  rw [setRxPipe0Address, Radio.eval_setAddress hs.inited (hs.setupAw rfl) (by decide)]
  refine ⟨rfl, hs.inited, hs.txAddr, hs.gsTxAddr, hs.gsTxAddrSet, hs.setupAw, fun _ => ?_⟩
  exact Chip.overlay_toList _ _

/-- All steps of the initialisation succeed. -/
theorem achieves_basicInitSteps (type : Role) :
    Achieves (Configured t g n false false) (Configured t g n true true)
      (runSteps (basicInitSteps type)) := by
  unfold basicInitSteps
  refine achieves_runSteps_cons (achieves_setActive _) ?_
  iterate 19 refine achieves_runSteps_cons (achieves_updateReg (by decide) _ _ _) ?_
  refine achieves_runSteps_cons achieves_setAddressWidth ?_
  refine achieves_runSteps_cons achieves_delayConvert ?_
  iterate 3 refine achieves_runSteps_cons (achieves_bounded (by decide) (by decide) _ _ _ _) ?_
  iterate 8 refine achieves_runSteps_cons (achieves_updateReg (by decide) _ _ _) ?_
  iterate 6
    refine achieves_runSteps_cons (achieves_setPipePayloadNumber (by decide) (by decide) _) ?_
  iterate 9 refine achieves_runSteps_cons (achieves_updateReg (by decide) _ _ _) ?_
  refine achieves_runSteps_cons achieves_setRxPipe0Address ?_
  refine achieves_runSteps_cons (achieves_setRxPipe1Address _) ?_
  iterate 4 refine achieves_runSteps_cons (achieves_writeByte (by decide) _ _) ?_
  iterate 2 refine achieves_runSteps_cons (achieves_command (by decide) _) ?_
  refine achieves_runSteps_cons (achieves_setActive _) ?_
  exact fun s hs => ⟨rfl, hs⟩

end Init

end DsEthComm.Nrf24l01
