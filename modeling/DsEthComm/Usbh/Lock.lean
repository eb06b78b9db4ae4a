import DsEthComm.Conc.Run
import DsEthComm.Ds5.Report

/-!
# DsEthComm.Usbh.Lock

The kernel lock on the way of a HID report, from the OTG interrupt handler
through `_usbh_urb_completeI` and `_in_cb` to `_hid_report_callback` and
back to the resubmission of the URB.

A call is modelled by its trace: the locks and unlocks it performs and the
I-class functions it calls, which must run with the lock held.  The lock
does not nest (`port_lock` sets `BASEPRI`, `port_unlock` clears it), so the
discipline is a small automaton over the trace.
-/

namespace DsEthComm.Usbh

open Conc Ds5

/-! ## Traces -/

/-- Who takes or releases the lock. -/
inductive Actor where
  /-- `OSAL_IRQ_HANDLER`. -/
  | handler
  /-- Anything called from the handler's critical section. -/
  | chain
deriving DecidableEq, Repr

/-- The I-class calls of the chain. -/
inductive IClass where
  | usbhUrbCompleteI
  | osalThreadResumeI
  | chEvtBroadcastI
  | usbhURBObjectResetI
  | usbhURBSubmitI
  | usbhLldUrbSubmit
deriving DecidableEq, Repr

inductive Event where
  /-- `osalSysLockFromISR` / `chSysLockFromISR`. -/
  | lock (a : Actor)
  /-- `osalSysUnlockFromISR` / `chSysUnlockFromISR`. -/
  | unlock (a : Actor)
  | icall (f : IClass)
deriving DecidableEq, Repr

/-- The discipline, as an automaton on "the lock is held": it is taken only
when free, released only by the handler and only when held, and held at
every I-class call. -/
def lockStep (held : Bool) : Event → Option Bool
  | .lock _ => if held then none else some true
  | .unlock .handler => if held then some false else none
  | .unlock .chain => none
  | .icall _ => if held then some true else none

/-- The trace respects the discipline, starting and ending unlocked. -/
def Disciplined (trace : List Event) : Prop := run lockStep false trace = some false

instance (trace : List Event) : Decidable (Disciplined trace) :=
  inferInstanceAs (Decidable (_ = _))

/-! ## The call chain -/

/-- `usbh_urbstatus_t`. -/
inductive UrbStatus where
  | uninitialized
  | initialized
  | pending
  | error
  | timeout
  | cancelled
  | stall
  | disconnected
  | ok
deriving DecidableEq, Repr

/-- Why a submission completes the URB at once instead of leaving it
pending. -/
inductive Refusal where
  /-- `ep->status == USBH_EPSTATUS_HALTED`. -/
  | halted
  /-- The endpoint is not open or its port is not enabled. -/
  | closed
  /-- `usbh_lld_urb_submit` finds `HPRT_PENA` clear. -/
  | portDisabled
deriving DecidableEq, Repr

/-- `_hid_report_callback`: it takes the lock, broadcasts `esDS5Ready` if
the report is accepted, and releases the lock. -/
def hidReportCallback (r : HidReport) : List Event :=
  [.lock .chain] ++
    (match ds5FromHidReport r with
     | some _ => [.icall .chEvtBroadcastI]
     | none => []) ++
    [.unlock .chain]

/-- `_in_cb`: `cbReport` is `hidp->config->cb_report != NULL`, `submit` the
trace of the `usbhURBSubmitI` at its end. -/
def inCb (cbReport : Bool) (status : UrbStatus) (r : HidReport) (submit : List Event) :
    List Event :=
  match status with
  | .ok => (if cbReport then hidReportCallback r else []) ++
      [.icall .usbhURBObjectResetI] ++ submit
  | .disconnected => []
  | _ => [.icall .usbhURBObjectResetI] ++ submit

/-- `_usbh_urb_completeI`, whose callback is `_in_cb`. -/
def usbhUrbCompleteI (cbReport : Bool) (status : UrbStatus) (r : HidReport)
    (submit : List Event) : List Event :=
  [.icall .usbhUrbCompleteI, .icall .osalThreadResumeI, .icall .osalThreadResumeI] ++
    inCb cbReport status r submit

/-- `usbhURBSubmitI`.  A refused submission completes the URB, whose
callback submits it again; the list says how often, and why.  An endpoint that
is `HALTED` refuses for ever, and then the list is what has happened of it so
far. -/
def usbhURBSubmitI (cbReport : Bool) (r : HidReport) : List Refusal → List Event
  | [] => [.icall .usbhURBSubmitI, .icall .usbhLldUrbSubmit]
  | .halted :: outs =>
      [.icall .usbhURBSubmitI] ++
        usbhUrbCompleteI cbReport .stall r (usbhURBSubmitI cbReport r outs)
  | .closed :: outs =>
      [.icall .usbhURBSubmitI] ++
        usbhUrbCompleteI cbReport .disconnected r (usbhURBSubmitI cbReport r outs)
  | .portDisabled :: outs =>
      [.icall .usbhURBSubmitI, .icall .usbhLldUrbSubmit] ++
        usbhUrbCompleteI cbReport .disconnected r (usbhURBSubmitI cbReport r outs)

/-- A URB completion: its status, the report buffer with
`urb->actualLength`, and what its resubmission meets. -/
structure Completion where
  status : UrbStatus
  report : HidReport
  refusals : List Refusal

/-- The trace of a completion. -/
def Completion.trace (cbReport : Bool) (c : Completion) : List Event :=
  usbhUrbCompleteI cbReport c.status c.report (usbhURBSubmitI cbReport c.report c.refusals)

/-- The OTG interrupt handler: lock, `usb_lld_serve_interrupt` with the
completions it delivers, unlock. -/
def otgHandler (cbReport : Bool) (cs : List Completion) : List Event :=
  [.lock .handler] ++ cs.flatMap (Completion.trace cbReport) ++ [.unlock .handler]

/-- A sequence of interrupts. -/
def interrupts (cbReport : Bool) (is : List (List Completion)) : List Event :=
  is.flatMap (otgHandler cbReport)

/-! ## The discipline of the chain -/

/-- I-class calls alone keep the lock held. -/
theorem run_icalls {trace : List Event} (h : ∀ e ∈ trace, ∃ f, e = .icall f) :
    run lockStep true trace = some true := by
  induction trace with
  | nil => rfl
  | cons e es ih =>
      obtain ⟨f, rfl⟩ := h e List.mem_cons_self
      have hstep : lockStep true (.icall f) = some true := rfl
      rw [run_cons_of_step hstep]
      exact ih fun e he => h e (List.mem_cons_of_mem _ he)

/-- Without a report to deliver, `_in_cb` makes I-class calls only. -/
theorem icalls_inCb (cbReport : Bool) (status : UrbStatus) (r : HidReport) {submit : List Event}
    (hno : ¬ (status = .ok ∧ cbReport = true)) (hsub : ∀ e ∈ submit, ∃ f, e = .icall f) :
    ∀ e ∈ inCb cbReport status r submit, ∃ f, e = .icall f := by
  intro e he
  cases status <;> simp only [inCb] at he <;> grind

theorem icalls_usbhUrbCompleteI (cbReport : Bool) (status : UrbStatus) (r : HidReport)
    {submit : List Event} (hno : ¬ (status = .ok ∧ cbReport = true))
    (hsub : ∀ e ∈ submit, ∃ f, e = .icall f) :
    ∀ e ∈ usbhUrbCompleteI cbReport status r submit, ∃ f, e = .icall f := by
  have hcb := icalls_inCb cbReport status r hno hsub
  intro e he
  simp only [usbhUrbCompleteI, List.mem_append] at he
  obtain he | he := he
  · grind
  · exact hcb e he

/-- Submitting never delivers a report, however often it is refused. -/
theorem icalls_usbhURBSubmitI (cbReport : Bool) (r : HidReport) (outs : List Refusal) :
    ∀ e ∈ usbhURBSubmitI cbReport r outs, ∃ f, e = .icall f := by
  induction outs with
  | nil => simp [usbhURBSubmitI]
  | cons o outs ih =>
      have hstall := icalls_usbhUrbCompleteI cbReport .stall r (by simp) ih
      have hdisc := icalls_usbhUrbCompleteI cbReport .disconnected r (by simp) ih
      intro e he
      cases o <;> simp only [usbhURBSubmitI, List.mem_append] at he <;> grind

/-- What a completion does to the lock the handler holds: without a report
nothing; with one, the callback's `chSysLockFromISR` finds it taken. -/
theorem run_completion (cbReport : Bool) (c : Completion) :
    run lockStep true (c.trace cbReport) =
      if c.status = .ok ∧ cbReport = true then none else some true := by
  have hsub := icalls_usbhURBSubmitI cbReport c.report c.refusals
  split
  case isTrue h =>
    obtain ⟨hst, rfl⟩ := h
    simp only [Completion.trace, hst, usbhUrbCompleteI, inCb, hidReportCallback, if_true]
    rfl
  case isFalse h => exact run_icalls (icalls_usbhUrbCompleteI _ _ _ h hsub)

/-- A report is delivered to the callback. -/
def Completion.delivers (cbReport : Bool) (c : Completion) : Bool :=
  c.status = .ok && cbReport

theorem run_completions (cbReport : Bool) (cs : List Completion) :
    run lockStep true (cs.flatMap (Completion.trace cbReport)) =
      if cs.any (Completion.delivers cbReport) then none else some true := by
  induction cs with
  | nil => rfl
  | cons c cs ih =>
      rw [List.flatMap_cons, run_append, run_completion, List.any_cons]
      cases hd : Completion.delivers cbReport c with
      | true =>
          have hd' : c.status = .ok ∧ cbReport = true := by
            simpa [Completion.delivers] using hd
          simp [hd']
      | false =>
          have hd' : ¬ (c.status = .ok ∧ cbReport = true) := by
            simpa [Completion.delivers] using hd
          rw [if_neg hd', Option.bind_some, ih, Bool.false_or]

theorem run_otgHandler (cbReport : Bool) (cs : List Completion) :
    run lockStep false (otgHandler cbReport cs) =
      if cs.any (Completion.delivers cbReport) then none else some false := by
  have hlock : lockStep false (.lock .handler) = some true := rfl
  rw [otgHandler, List.append_assoc, List.singleton_append, run_cons_of_step hlock, run_append,
    run_completions]
  split <;> rfl

/-- **The lock discipline holds exactly when no report is delivered**: over
any sequence of interrupts, the lock is free when taken, held at every
I-class call and released by the handler alone if and only if no URB
completes with `USBH_URBSTATUS_OK` while a report callback is linked. -/
theorem disciplined_iff_no_report (cbReport : Bool) (is : List (List Completion)) :
    Disciplined (interrupts cbReport is) ↔
      ∀ cs ∈ is, ∀ c ∈ cs, ¬ (c.status = .ok ∧ cbReport = true) := by
  unfold Disciplined interrupts
  induction is with
  | nil => simp
  | cons cs is ih =>
      rw [List.flatMap_cons, run_append, run_otgHandler]
      cases hany : cs.any (Completion.delivers cbReport) with
      | true =>
          obtain ⟨c, hc, hdel⟩ := List.any_eq_true.mp hany
          have hdel' : c.status = .ok ∧ cbReport = true := by
            simpa [Completion.delivers] using hdel
          constructor
          · intro h
            simp at h
          · intro h
            exact absurd hdel' (h cs List.mem_cons_self c hc)
      | false =>
          have hnone : ∀ c ∈ cs, ¬ (c.status = .ok ∧ cbReport = true) := by
            simpa [List.any_eq_false, Completion.delivers] using hany
          simp only [Bool.false_eq_true, if_false, Option.bind_some]
          rw [ih, List.forall_mem_cons]
          exact ⟨fun h => ⟨hnone, h⟩, And.right⟩

/-- One report of the firmware's own configuration, in which
`hidcfg[i].cb_report = _hid_report_callback`. -/
def reportInterrupt : List (List Completion) :=
  [[{ status := .ok, report := .filled 1 0xAA, refusals := [] }]]

/-- The callback takes the lock that the handler holds. -/
theorem report_breaks_discipline :
    interrupts true reportInterrupt =
        [.lock .handler, .icall .usbhUrbCompleteI, .icall .osalThreadResumeI,
          .icall .osalThreadResumeI, .lock .chain, .icall .chEvtBroadcastI, .unlock .chain,
          .icall .usbhURBObjectResetI, .icall .usbhURBSubmitI, .icall .usbhLldUrbSubmit,
          .unlock .handler] ∧
      ¬ Disciplined (interrupts true reportInterrupt) := by
  decide

end DsEthComm.Usbh
