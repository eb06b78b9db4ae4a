import DsEthComm.Nrf24l01.Init

/-!
# DsEthComm.Nrf24l01.Masked

The interrupts that `nrf24l01_basic_init` means to enable.

Its steps "enable max rt", "enable tx ds" and "enable rx dr" set the bits of
`CONFIG` that mask these interrupts.  Every later write of `CONFIG` takes
the masks over from a read, so that the IRQ pin stays high whatever the
radio receives or sends, `NRF24InterruptThread` is never woken, and nobody
tells `nrf24l01_send` that its payload has been acknowledged.
-/

namespace DsEthComm.Nrf24l01

open Conc

namespace Masked

/-! ## The system -/

/-- `NRF24InterruptThread` calls the handler, the other threads anything
else. -/
def allowed : Client → Api → Bool
  | .irq, .interruptIrqHandler => true
  | .irq, _ => false
  | _, .interruptIrqHandler => false
  | _, _ => true

/-- Every transaction may fail, and the radio may do anything. -/
def maskedSystem : Pool driverSig World Client Api Byte Answer Air :=
  system allowed id fun e c => some (c.air e)

abbrev State := Conf driverSig World Client Api Byte

abbrev Label := PoolLabel Client Api Answer Air

/-! ## The property -/

/-- An event bit of `STATUS` is set. -/
def event (c : Chip) : Bool := c.rxDr || c.txDs || c.maxRt

/-- A set event bit drives the IRQ pin low. -/
def Observable (c : Chip) : Prop := event c = true → c.irqLow = true

instance (c : Chip) : Decidable (Observable c) := inferInstanceAs (Decidable (_ → _))

/-- The call waits for an acknowledgement. -/
def awaits : Api → Bool
  | .basicSend _ _ useAck | .basicSent _ useAck | .send _ useAck => useAck
  | _ => false

/-! ## The masks -/

/-- All interrupts are masked. -/
def masks (config : Byte) : Bool := config &&& 0x70#8 = 0x70#8

/-- With the three masks set the pin stays high, whatever the events. -/
theorem irqLow_of_masks {c : Chip} (h : masks (c.reg regConfig) = true) : c.irqLow = false := by
  have hbits : ∀ b : Byte, masks b = true → bit b 6 = true ∧ bit b 5 = true ∧ bit b 4 = true := by
    decide
  obtain ⟨h6, h5, h4⟩ := hbits _ h
  simp [Chip.irqLow, Chip.masked, h6, h5, h4]

/-- What is written to `CONFIG` masks everything, if what is read from it
does; and as long as the handler does not run, `finished` stays 0. -/
def monitor (idle : Bool) : Monitor driverSig Unit where
  pre _ o := match (o : Op) with
    | .spiWrite cmd buf => cmd = commandWRegister ||| regConfig → masks (buf.getD 0 0) = true
    | .setFinished value => idle = true → value = 0
    | _ => True
  may _ o r := match (o : Op), r with
    | .spiRead cmd _, r => cmd = commandRRegister ||| regConfig → ∀ buf, r = some buf →
        masks (List.getD buf 0 0) = true
    | .getFinished, r => idle = true → r = (0 : Byte)
    | _, _ => True
  next _ _ _ := ()

variable {idle : Bool}

/-- The program keeps to the monitor. -/
def Keeps (idle : Bool) (p : Driver Byte) : Prop := p.wp (monitor idle) (fun _ _ => True) ()

theorem keeps_checked {body : Driver Byte} (h : Keeps idle body) : Keeps idle (checked body) := by
  have hbody : body.wp (monitor idle) (fun _ _ => True) () := h
  simp only [Keeps, checked, Prog.bind_eq, Prog.wp_bind, wp_getInited, Prog.wp_ite]
  exact ⟨trivial, fun b _ => ⟨fun _ => trivial, fun _ => hbody⟩⟩

/-- A register write is a write of `CONFIG` only for `CONFIG`. -/
theorem eq_regConfig_of_cmd {r : Byte} (hr : r &&& 0xE0#8 = 0#8)
    (h : commandWRegister ||| r = commandWRegister ||| regConfig) : r = regConfig := by
  revert r
  decide

/-- A read and a write of a register, which keeps the masks if it is `CONFIG`.
-/
theorem keeps_readModifyWrite {r : Byte} (hr : r &&& 0xE0#8 = 0#8) {f : Byte → Byte}
    (hf : r = regConfig → ∀ b, masks b = true → masks (f b) = true)
    (getFailed setFailed : String) :
    Keeps idle (readModifyWrite r f getFailed setFailed) := by
  simp only [Keeps, readModifyWrite, Prog.bind_eq, Prog.wp_bind, wp_spiRead]
  refine ⟨trivial, fun _ => ?_, fun buf hbuf => ?_⟩
  · simp [failWith, monitor]
  · rw [wp_spiWrite]
    refine ⟨fun hcmd => ?_, fun _ => ?_, fun _ => ?_⟩
    · obtain rfl := eq_regConfig_of_cmd hr hcmd
      exact hf rfl _ (hbuf rfl buf rfl)
    · simp [failWith, monitor]
    · simp

theorem keeps_updateReg {r : Byte} (hr : r &&& 0xE0#8 = 0#8) {f : Byte → Byte}
    (hf : r = regConfig → ∀ b, masks b = true → masks (f b) = true)
    (getFailed setFailed : String) : Keeps idle (updateReg r f getFailed setFailed) :=
  keeps_checked (keeps_readModifyWrite hr hf _ _)

theorem keeps_bounded {body : Driver Byte} (h : Keeps idle body) (value bound : Byte)
    (tooLarge : String) : Keeps idle (bounded value bound tooLarge body) := by
  have hbody : body.wp (monitor idle) (fun _ _ => True) () := h
  refine keeps_checked ?_
  rw [Keeps, Prog.wp_ite]
  exact ⟨fun _ => by simp [failWith, monitor], fun _ => hbody⟩

theorem keeps_writeByte {r : Byte} (hr : r &&& 0xE0#8 = 0#8) (hne : r ≠ regConfig) (value : Byte)
    (setFailed : String) : Keeps idle (writeByte r value setFailed) := by
  simp only [Keeps, writeByte, Prog.bind_eq, Prog.wp_bind, wp_spiWrite]
  refine ⟨fun hcmd => absurd (eq_regConfig_of_cmd hr hcmd) hne, fun _ => ?_, fun _ => ?_⟩
  · simp [failWith, monitor]
  · simp

theorem keeps_command {cmd : Byte} (h : cmd ≠ commandWRegister ||| regConfig) (failed : String) :
    Keeps idle (command cmd failed) := by
  refine keeps_checked ?_
  simp [Keeps, failWith, monitor, h]

theorem keeps_setActive (enable : Bool) : Keeps idle (setActive enable) := by
  refine keeps_checked ?_
  simp [Keeps, failWith, monitor]

theorem keeps_setAddress {r : Byte} (hr : r &&& 0xE0#8 = 0#8) (hne : r ≠ regConfig)
    (addr : List Byte) (len : Byte) (setFailed : String) :
    Keeps idle (setAddress r addr len setFailed) := by
  have hcmd : commandWRegister ||| r ≠ commandWRegister ||| regConfig :=
    fun h => hne (eq_regConfig_of_cmd hr h)
  refine keeps_checked ?_
  simp [Keeps, failWith, monitor, hcmd]

/-- Powering down keeps the masks. -/
theorem keeps_deinit : Keeps idle deinit := by
  have hbits : ∀ b : Byte, masks b = true → masks (b &&& ~~~(1#8 <<< 1)) = true := by decide
  refine keeps_checked ?_
  simp only [Keeps, Prog.bind_eq, Prog.wp_bind, wp_spiWrite, wp_spiRead, Prog.wp_ite]
  refine ⟨by simp [commandNop, commandWRegister, regConfig, monitor], fun _ => ?_, fun _ => ?_⟩
  · simp [failWith, monitor]
  · refine ⟨fun h => by simp at h, fun _ => ⟨trivial, fun _ => ?_, fun buf hbuf => ?_⟩⟩
    · simp [failWith, monitor]
    · have hwrite := hbits _ (hbuf rfl buf rfl)
      simp [failWith, monitor] at hwrite ⊢
      exact hwrite

theorem keeps_runSteps {steps : List (Driver Byte × String)}
    (h : ∀ step ∈ steps, Keeps idle step.1) : Keeps idle (runSteps steps) := by
  induction steps with
  | nil => trivial
  | cons step steps ih =>
      obtain ⟨hstep, hsteps⟩ := List.forall_mem_cons.mp h
      have hdeinit : deinit.wp (monitor idle) (fun _ _ => True) () := keeps_deinit
      have hrest : (runSteps steps).wp (monitor idle) (fun _ _ => True) () := ih hsteps
      have hfirst : step.1.wp (monitor idle) (fun _ _ => True) () := hstep
      rw [Keeps, runSteps, Prog.bind_eq, Prog.wp_bind]
      refine Prog.wp_mono (fun res _ _ => ?_) hfirst
      rw [Prog.wp_ite]
      refine ⟨fun _ => ?_, fun _ => hrest⟩
      simp only [Prog.bind_eq, Prog.wp_bind, wp_debugPrint]
      exact ⟨trivial, fun _ => hdeinit⟩

/-- The bits that the initialisation writes to `CONFIG` include the masks. -/
theorem keeps_setConfig (config : Config) : Keeps idle (setConfig config true) := by
  refine keeps_updateReg (by decide) (fun _ => ?_) _ _
  cases config <;> decide

/-- The mode is another bit of `CONFIG`. -/
theorem keeps_setMode (mode : Mode) : Keeps idle (setMode mode) := by
  refine keeps_updateReg (by decide) (fun _ => ?_) _ _
  cases mode <;> decide

/-- The setters of other registers. -/
theorem keeps_updateReg_of_ne {r : Byte} (hr : r &&& 0xE0#8 = 0#8) (hne : r ≠ regConfig)
    (f : Byte → Byte) (getFailed setFailed : String) :
    Keeps idle (updateReg r f getFailed setFailed) :=
  keeps_updateReg hr (fun h => absurd h hne) _ _

theorem keeps_readModifyWrite_of_ne {r : Byte} (hr : r &&& 0xE0#8 = 0#8) (hne : r ≠ regConfig)
    (f : Byte → Byte) (getFailed setFailed : String) :
    Keeps idle (readModifyWrite r f getFailed setFailed) :=
  keeps_readModifyWrite hr (fun h => absurd h hne) _ _

theorem keeps_basicInitSteps (type : Role) :
    ∀ step ∈ basicInitSteps type, Keeps idle step.1 := by
  unfold basicInitSteps
  refine List.forall_mem_cons.mpr ⟨keeps_setActive _, ?_⟩
  iterate 6 refine List.forall_mem_cons.mpr ⟨keeps_setConfig _, ?_⟩
  refine List.forall_mem_cons.mpr ⟨keeps_setMode _, ?_⟩
  iterate 13
    refine List.forall_mem_cons.mpr ⟨keeps_updateReg_of_ne (by decide) (by decide) _ _ _, ?_⟩
  refine List.forall_mem_cons.mpr ⟨keeps_checked trivial, ?_⟩
  iterate 3
    refine List.forall_mem_cons.mpr
      ⟨keeps_bounded (keeps_readModifyWrite_of_ne (by decide) (by decide) _ _ _) _ _ _, ?_⟩
  iterate 8
    refine List.forall_mem_cons.mpr ⟨keeps_updateReg_of_ne (by decide) (by decide) _ _ _, ?_⟩
  iterate 6
    refine List.forall_mem_cons.mpr
      ⟨keeps_bounded (keeps_writeByte (by decide) (by decide) _ _) _ _ _, ?_⟩
  iterate 9
    refine List.forall_mem_cons.mpr ⟨keeps_updateReg_of_ne (by decide) (by decide) _ _ _, ?_⟩
  iterate 2
    refine List.forall_mem_cons.mpr ⟨keeps_setAddress (by decide) (by decide) _ _ _, ?_⟩
  iterate 4
    refine List.forall_mem_cons.mpr
      ⟨keeps_checked (keeps_writeByte (by decide) (by decide) _ _), ?_⟩
  iterate 2 refine List.forall_mem_cons.mpr ⟨keeps_command (by decide) _, ?_⟩
  exact List.forall_mem_cons.mpr ⟨keeps_setActive _, by simp⟩

theorem keeps_basicInit (type : Role) (callback : Bool) : Keeps idle (basicInit type callback) := by
  have hsteps : (runSteps (basicInitSteps type)).wp (monitor idle) (fun _ _ => True) () :=
    keeps_runSteps (keeps_basicInitSteps type)
  simp only [Keeps, basicInit, init, failWith, Prog.bind_eq, Prog.wp_bind, Prog.wp_ite, wp_link,
    wp_hasCallback, wp_debugPrint, wp_gpioInit, wp_spiInit, wp_gpioDeinit, wp_setInited]
  simp [monitor] at hsteps ⊢
  exact hsteps

/-! ## Waiting for the handler -/

/-- Nobody sets `finished`: the wait ends with its timeout. -/
theorem wp_waitFinished (n : Nat) :
    (waitFinished n).wp (monitor true) (fun timeout _ => timeout = 0) () := by
  induction n with
  | zero => rfl
  | succ n ih =>
      simp only [waitFinished, Prog.bind_eq, Prog.wp_bind, wp_getFinished, Prog.wp_ite, wp_delayMs]
      refine ⟨trivial, fun b hb => ⟨fun _ => ⟨trivial, fun _ => ih⟩, fun hne => ?_⟩⟩
      exact absurd (hb rfl) hne

/-- The wait only reads `finished`. -/
theorem keeps_waitFinished (n : Nat) :
    (waitFinished n).wp (monitor idle) (fun _ _ => True) () := by
  induction n with
  | zero => trivial
  | succ n ih =>
      simp only [waitFinished, Prog.bind_eq, Prog.wp_bind, wp_getFinished, Prog.wp_ite, wp_delayMs]
      exact ⟨trivial, fun b _ => ⟨fun _ => ⟨trivial, fun _ => ih⟩, fun _ => trivial⟩⟩

/-- What the functions that send return: not 0, if they wait and the handler
does not run. -/
def Unanswered (idle useAck : Bool) (r : Byte) (_ : Unit) : Prop :=
  idle = true → useAck = true → r ≠ 0

/-- With `idle` nobody answers, and the wait runs out. -/
theorem wp_awaitAck : awaitAck.wp (monitor idle) (Unanswered idle true) () := by
  have htail : (do
      let status ← spiRead (commandRRegister ||| regStatus) 1
      debugPrint "nrf24l01: status: %d\n" (printed status)
      let config ← spiRead (commandRRegister ||| regConfig) 1
      debugPrint "nrf24l01: config: %d\n" (printed config)
      failWith "nrf24l01: send timeout.\n" [] 5 : Driver Byte).wp (monitor idle)
        (Unanswered idle true) () := by
    simp [failWith, monitor, Unanswered]
  cases idle with
  | true =>
      rw [awaitAck, Prog.bind_eq, Prog.wp_bind]
      refine Prog.wp_mono ?_ (wp_waitFinished 5000)
      rintro timeout - rfl
      exact htail
  | false =>
      rw [awaitAck, Prog.bind_eq, Prog.wp_bind]
      refine Prog.wp_mono ?_ (keeps_waitFinished 5000)
      rintro timeout - -
      rw [Prog.wp_ite]
      refine ⟨fun _ => htail, fun _ => ?_⟩
      simp [failWith, monitor, Unanswered]

/-- With `idle` a send with an acknowledgement can only run out of time or
fail. -/
theorem wp_send (buf : List Byte) (useAck : Bool) :
    (send buf useAck).wp (monitor idle) (Unanswered idle useAck) () := by
  have hcmd : payloadCommand useAck ≠ commandWRegister ||| regConfig := by
    cases useAck <;> decide
  have hack : awaitAck.wp (monitor idle) (Unanswered idle true) () := wp_awaitAck
  cases useAck with
  | true =>
      simp [send, checked, failWith, Unanswered] at hack ⊢
      simp [monitor, hcmd] at hack ⊢
      exact fun _ => ⟨hack, fun _ _ => hack⟩
  | false =>
      simp [send, checked, failWith, Unanswered, monitor, hcmd]

/-- Statuses other than 0 stay so. -/
theorem wp_zeroOrOne {useAck : Bool} {p : Driver Byte}
    (h : p.wp (monitor idle) (Unanswered idle useAck) ()) :
    (zeroOrOne p).wp (monitor idle) (Unanswered idle useAck) () := by
  rw [zeroOrOne, Prog.bind_eq, Prog.wp_bind]
  refine Prog.wp_mono ?_ h
  intro r _ hr
  rw [Prog.wp_ite]
  refine ⟨fun _ _ _ => by decide, fun hzero hidle hack => ?_⟩
  exact absurd (hr hidle hack) hzero

theorem wp_basicSend (addr : Addr) (buf : List Byte) (useAck : Bool) :
    (basicSend addr buf useAck).wp (monitor idle) (Unanswered idle useAck) () := by
  have hactive : (setActive false).wp (monitor idle) (fun _ _ => True) () := keeps_setActive _
  have htx : (setTxAddress addr defaultAddressLen).wp (monitor idle) (fun _ _ => True) () :=
    keeps_setAddress (by decide) (by decide) _ _ _
  have hrx : (setRxPipe0Address addr defaultAddressLen).wp (monitor idle) (fun _ _ => True) () :=
    keeps_setAddress (by decide) (by decide) _ _ _
  have hsend : (zeroOrOne (send buf useAck)).wp (monitor idle) (Unanswered idle useAck) () :=
    wp_zeroOrOne (wp_send buf useAck)
  have hfail : ∀ fmt args (status : Byte), status ≠ 0 →
      (failWith fmt args status).wp (monitor idle) (Unanswered idle useAck) () := by
    intro fmt args status hne
    simp only [failWith, Prog.bind_eq, Prog.wp_bind, wp_debugPrint]
    exact ⟨trivial, fun _ _ _ => hne⟩
  rw [basicSend, Prog.bind_eq, Prog.wp_bind]
  refine Prog.wp_mono (fun res _ _ => ?_) hactive
  rw [Prog.wp_ite]
  refine ⟨fun _ => hfail _ _ _ (by decide), fun _ => ?_⟩
  rw [Prog.bind_eq, Prog.wp_bind]
  refine Prog.wp_mono (fun res _ _ => ?_) htx
  rw [Prog.wp_ite]
  refine ⟨fun _ => hfail _ _ _ (by decide), fun _ => ?_⟩
  rw [Prog.bind_eq, Prog.wp_bind]
  refine Prog.wp_mono (fun res _ _ => ?_) hrx
  rw [Prog.wp_ite]
  exact ⟨fun _ => hfail _ _ _ (by decide), fun _ => hsend⟩

theorem wp_basicSent (buf : List Byte) (useAck : Bool) :
    (basicSent buf useAck).wp (monitor idle) (Unanswered idle useAck) () := by
  have hsend : (zeroOrOne (send buf useAck)).wp (monitor idle) (Unanswered idle useAck) () :=
    wp_zeroOrOne (wp_send buf useAck)
  simp only [basicSent, failWith, Prog.bind_eq, Prog.wp_bind, wp_getTxAddrSet, Prog.wp_ite,
    wp_debugPrint]
  exact ⟨trivial, fun b _ => ⟨fun _ => ⟨trivial, fun _ _ _ => by decide⟩, fun _ => hsend⟩⟩

theorem keeps_basicSetTxAddress (addr : Addr) : Keeps idle (basicSetTxAddress addr) := by
  have htx : (setTxAddress addr defaultAddressLen).wp (monitor idle) (fun _ _ => True) () :=
    keeps_setAddress (by decide) (by decide) _ _ _
  have hrx : (setRxPipe0Address addr defaultAddressLen).wp (monitor idle) (fun _ _ => True) () :=
    keeps_setAddress (by decide) (by decide) _ _ _
  rw [Keeps, basicSetTxAddress, Prog.bind_eq, Prog.wp_bind]
  refine Prog.wp_mono (fun res _ _ => ?_) htx
  rw [Prog.wp_ite]
  refine ⟨fun _ => by simp [failWith, monitor], fun _ => ?_⟩
  rw [Prog.bind_eq, Prog.wp_bind]
  refine Prog.wp_mono (fun res _ _ => ?_) hrx
  simp [failWith, monitor]

theorem keeps_basicSetFrequency (freq : Byte) : Keeps idle (basicSetFrequency freq) := by
  have hset : (setChannelFrequency freq).wp (monitor idle) (fun _ _ => True) () :=
    keeps_bounded (keeps_readModifyWrite_of_ne (by decide) (by decide) _ _ _) _ _ _
  rw [Keeps, basicSetFrequency, Prog.bind_eq, Prog.wp_bind]
  refine Prog.wp_mono (fun res _ _ => ?_) hset
  simp [failWith, monitor]

/-- The handler writes `STATUS` and flushes FIFOs, but not `CONFIG`. -/
theorem keeps_irqHandler : Keeps false irqHandler := by
  simp [Keeps, irqHandler, checked, failWith, irqFail, irqDone, irqServe, irqMaxRt, irqSent,
    irqTail, irqReceive, irqReadPayload, notify, monitor, commandFlushTx, commandFlushRx,
    commandWRegister, regStatus, regConfig]

/-- Every call keeps to the monitor, the handler when it is called at all. -/
theorem wp_code (i : Api) (h : i = .interruptIrqHandler → idle = false) :
    i.code.wp (monitor idle) (fun r _ => idle = true → awaits i = true → r ≠ 0) () := by
  have hplain : ∀ {p : Driver Byte}, Keeps idle p →
      p.wp (monitor idle) (fun r _ => idle = true → false = true → r ≠ 0) () := by
    intro p hp
    exact Prog.wp_mono (fun _ _ _ _ hfalse => absurd hfalse Bool.false_ne_true) hp
  have hzero : ∀ {p : Driver Byte}, Keeps idle p → Keeps idle (zeroOrOne p) := by
    intro p hp
    rw [Keeps, zeroOrOne, Prog.bind_eq, Prog.wp_bind]
    refine Prog.wp_mono (fun res _ _ => ?_) hp
    simp
  cases i with
  | basicInit type callback => exact hplain (keeps_basicInit type callback)
  | basicDeinit => exact hplain (hzero keeps_deinit)
  | basicSetTxAddress addr => exact hplain (keeps_basicSetTxAddress addr)
  | basicSend addr buf useAck => exact wp_basicSend addr buf useAck
  | basicSent buf useAck => exact wp_basicSent buf useAck
  | basicSetFrequency freq => exact hplain (keeps_basicSetFrequency freq)
  | interruptIrqHandler =>
      obtain rfl := h rfl
      exact hplain (hzero keeps_irqHandler)
  | send buf useAck => exact wp_send buf useAck

/-! ## Whole runs -/

/-- Everything is masked; and if no interrupt is pending, the handler will
not run and nobody sets `finished`. -/
structure Muted (idle : Bool) (w : World) : Prop where
  config : masks (w.radio.chip.reg regConfig) = true
  pending : idle = true → w.pending = false
  finished : idle = true → w.radio.handle.finished = 0

theorem Muted.change {w : World} (h : Muted idle w) {s : Radio}
    (hconfig : masks (s.chip.reg regConfig) = true)
    (hfinished : idle = true → s.handle.finished = 0) : Muted idle (w.change s) where
  config := hconfig
  pending hidle := by
    show (w.pending || (!w.radio.chip.irqLow && s.chip.irqLow)) = false
    rw [h.pending hidle, irqLow_of_masks hconfig, Bool.and_false, Bool.or_false]
  finished := hfinished

/-- An operation that the monitor allows keeps the masks. -/
theorem masks_perform {s : Radio} (h : masks (s.chip.reg regConfig) = true) {o : Op}
    (hpre : (monitor idle).pre () o) (a : Answer) :
    masks ((s.perform o a).1.chip.reg regConfig) = true := by
  by_cases hw : ∃ buf, o = .spiWrite (commandWRegister ||| regConfig) buf
  · obtain ⟨buf, rfl⟩ := hw
    have hbuf : masks (buf.getD 0 0) = true := hpre rfl
    obtain hfail | hdone := s.perform_spiWrite a (commandWRegister ||| regConfig) buf
    · rw [hfail]
      exact h
    · rw [hdone]
      exact hbuf
  · have hkeep : (s.perform o a).1.chip.reg regConfig = s.chip.reg regConfig := by
      refine s.chip_perform a (fun c => c.reg regConfig) (fun _ => rfl) ?_
      rintro cmd buf rfl
      exact s.chip.write_reg (fun hcmd => hw ⟨buf, by rw [hcmd]⟩) buf
    rw [hkeep]
    exact h

/-- No operation that the monitor allows sets `finished` while nobody serves the
pin. -/
theorem finished_perform {s : Radio} (h : idle = true → s.handle.finished = 0) {o : Op}
    (hpre : (monitor idle).pre () o) (a : Answer) :
    idle = true → (s.perform o a).1.handle.finished = 0 := by
  intro hidle
  cases o with
  | spiRead cmd len =>
      show (s.spiRead cmd len a).1.handle.finished = 0
      unfold Radio.spiRead
      split <;> exact h hidle
  | spiWrite cmd buf =>
      show (s.spiWrite cmd buf a).1.handle.finished = 0
      unfold Radio.spiWrite
      split <;> exact h hidle
  | setFinished value => exact hpre hidle
  | link callback => rfl
  | _ => exact h hidle

/-- What is read from `CONFIG` masks everything. -/
theorem may_perform {s : Radio} (h : masks (s.chip.reg regConfig) = true)
    (hfinished : idle = true → s.handle.finished = 0) (o : Op) (a : Answer) :
    (monitor idle).may () o (s.perform o a).2 := by
  cases o with
  | spiRead cmd len =>
      rintro rfl buf hbuf
      have hres : (s.spiRead (commandRRegister ||| regConfig) len a).2 = some buf := hbuf
      unfold Radio.spiRead at hres
      split at hres
      · contradiction
      · next haccepted =>
          have hread : (s.chip.read (commandRRegister ||| regConfig) len a.noise).2 =
              Chip.fit len [s.chip.reg regConfig] a.noise := rfl
          obtain rfl := Option.some.inj hres
          rw [hread]
          cases len with
          | zero => exact absurd rfl haccepted
          | succ len => exact h
  | getFinished => exact hfinished
  | _ => trivial

def Inv (idle : Bool) (c : State) : Prop :=
  ∃ loc, Pool.Follows (fun _ _ => monitor idle)
    (fun _ i r _ => idle = true → awaits i = true → r ≠ 0) c loc ∧ Muted idle c.shared

theorem inv_step (c : State) (l : Label) (c' : State) (hc : Inv idle c)
    (h : maskedSystem.step c l = some c') : Inv idle c' := by
  have hok : Unconditional c l := trivial
  refine Pool.step_follows (R := fun w _ => Muted idle w) maskedSystem ?_ ?_ ?_ ?_ c l c' hc hok h
  · intro c loc t i w' hR _ _ hs
    obtain ⟨ha, ⟨rfl, hpending, rfl⟩ | ⟨hne, rfl⟩⟩ := enter_system hs
    · -- the interrupt thread has taken a pending event
      have hidle : idle = false := by
        cases idle with
        | false => rfl
        | true => simp [hR.pending rfl] at hpending
      subst hidle
      exact ⟨(), wp_code i fun _ => rfl, hR.config, nofun, nofun⟩
    · refine ⟨(), wp_code i ?_, hR⟩
      rintro rfl
      cases t <;> contradiction
  · intro c loc t i o k a l _ hR _ _ hpre _
    exact ⟨may_perform hR.config hR.finished o a,
      hR.change (masks_perform hR.config hpre a) (finished_perform hR.finished hpre a)⟩
  · intro c loc t i r l hR _ _ _ _
    exact hR
  · intro c loc e s' _ hR _ hs
    obtain rfl := Option.some.inj hs
    exact hR.change hR.config hR.finished

/-- After a successful initialisation, whatever the threads and the radio
do, an event bit shows on the IRQ pin exactly if none is set; and unless an
interrupt was pending already, the handler never runs and no call that waits
for an acknowledgement returns 0. -/
theorem observable_iff_no_event {env : Schedule} {type : Role} {callback : Bool} {s : Radio}
    (hinit : (Radio.evalAt env (basicInit type callback) s 0).2 = 0) (pending : Bool)
    (ls : List Label) {c : State}
    (hrun : run maskedSystem.step
      (Pool.start ⟨(Radio.evalAt env (basicInit type callback) s 0).1.1, pending⟩) ls = some c) :
    (Observable c.shared.radio.chip ↔ event c.shared.radio.chip = false) ∧
      (pending = false → c.shared.pending = false ∧
        ∀ t i r, c.job t = some (i, .pure r) → awaits i = true → r ≠ 0) := by
  have hmasks : ∀ b : Byte, masks (replaceBits 0x7F#8 (0x7E#8 ||| type.mode.val) b) = true := by
    cases type <;> decide
  rw [Init.evalAt_basicInit_of_zero hinit] at hrun
  have hstart : Inv (!pending) (Pool.start ⟨Init.normalised type s, pending⟩) :=
    ⟨fun _ => none, Pool.follows_start _, hmasks _, by simp [Pool.start], fun _ => rfl⟩
  obtain ⟨loc, hfollows, hmuted⟩ := invariant inv_step hstart hrun
  have hpin := irqLow_of_masks hmuted.config
  refine ⟨?_, ?_⟩
  · unfold Observable
    rw [hpin]
    simp
  · rintro rfl
    refine ⟨hmuted.pending rfl, fun t i r hjob hawaits => ?_⟩
    obtain ⟨l, -, hpost⟩ := hfollows.busy hjob
    exact hpost rfl hawaits

/-- The radio reports that a payload was acknowledged. -/
def acknowledged : Air := ⟨false, true, false, [], []⟩

theorem observable_iff_no_event_sample :
    (Radio.evalAt (.failingAt []) (basicInit .tx true) sampleRadio 0).2 = 0 ∧
      ∃ c, run maskedSystem.step
        (Pool.start ⟨(Radio.evalAt (.failingAt []) (basicInit .tx true) sampleRadio 0).1.1, false⟩)
        [.env acknowledged] = some c ∧
      (Observable c.shared.radio.chip ↔ event c.shared.radio.chip = false) := by
  have hinit : (Radio.evalAt (.failingAt []) (basicInit .tx true) sampleRadio 0).2 = 0 := by
    rw [Init.evalAt_basicInit_ok (fun _ => rfl)]
  exact ⟨hinit, _, rfl, (observable_iff_no_event hinit false [.env acknowledged] rfl).1⟩

/-- The acknowledgement sets `TX_DS`, and the IRQ pin stays high. -/
theorem acknowledged_not_observable :
    (Radio.evalAt (.failingAt []) (basicInit .tx true) sampleRadio 0).2 = 0 ∧
      ∃ c, run maskedSystem.step
        (Pool.start ⟨(Radio.evalAt (.failingAt []) (basicInit .tx true) sampleRadio 0).1.1, false⟩)
        [.env acknowledged] = some c ∧ ¬ Observable c.shared.radio.chip := by
  rw [Init.evalAt_basicInit_ok (fun _ => rfl)]
  exact ⟨rfl, _, rfl, by decide⟩

end Masked

end DsEthComm.Nrf24l01
