import DsEthComm.Nrf24l01.Radio

/-!
# DsEthComm.Nrf24l01.Wait

How `nrf24l01_send` classifies what happened while it waited for an
acknowledgement.

The interrupt handler sets `handle->finished` once, to 1 or to 2, between two
operations of the call.  The loop polls it 5000 times, each time before a
delay, and after the loop `timeout` is tested first.  So the last delay is
not followed by a look at `handle->finished`.
-/

namespace DsEthComm.Nrf24l01

open Conc

namespace Wait

/-! ## What happens during the call -/

/-- The event the handler reports. -/
inductive Outcome where
  | txDs
  | maxRt
deriving DecidableEq

/-- The value of `handle->finished`. -/
def Outcome.val : Outcome → Byte
  | .txDs => 1
  | .maxRt => 2

/-- The operation of the call that is its last poll: two operations before
`handle->finished` is cleared, four until the loop, and a poll and a delay in
each of 5000 rounds. -/
def lastPoll : Nat := 6 + 2 * 4999

/-- The operation after the last delay. -/
def afterDelays : Nat := 6 + 2 * 5000

/-- The handler sets `handle->finished` right before an operation of the call,
after the call cleared it and at the latest during the last delay. -/
structure Event where
  moment : Nat
  outcome : Outcome
  cleared : 2 ≤ moment
  inTime : moment ≤ afterDelays

/-- The rest of what surrounds the call: the noise on the line, and what the
handler and the air do to the chip and to the CE pin before each operation. -/
structure Surroundings where
  noise : Nat → List Byte
  chip : Nat → Chip → Chip
  ce : Nat → Bool → Bool

/-- The value the handler has stored before the `i`-th operation. -/
def stored (event : Option Event) (i : Nat) : Byte :=
  match event with
  | some e => if e.moment < i then e.outcome.val else 0
  | none => 0

variable (w : Surroundings) (event : Option Event)

/-- What happens right before the `i`-th operation. -/
def arrive (i : Nat) (s : Radio) : Radio :=
  { s with
    chip := w.chip i s.chip
    ce := w.ce i s.ce
    handle := { s.handle with
      finished := match event with
        | some e => if e.moment = i then e.outcome.val else s.handle.finished
        | none => s.handle.finished } }

/-- An operation of the call, none of whose transactions fail. -/
def perform (x : Radio × Nat) (o : Op) : (Radio × Nat) × o.Res :=
  let y := (arrive w event x.2 x.1).perform o (answer (w.noise x.2))
  ((y.1, x.2 + 1), y.2)

/-- Run a driver function from its `i`-th operation on. -/
def eval {α : Type} (p : Driver α) (s : Radio) (i : Nat) : (Radio × Nat) × α :=
  p.eval (S := driverSig) (perform w event) (s, i)

theorem eval_bind {α β : Type} (p : Driver α) (f : α → Driver β) (s : Radio) (i : Nat) :
    eval w event (p.bind f) s i = eval w event (f (eval w event p s i).2) (eval w event p s i).1.1
      (eval w event p s i).1.2 :=
  Prog.eval_bind p f (s, i)

/-- The code that `nrf24l01_send` with `use_ack` returns. -/
def sendCode (s : Radio) (buf : List Byte) : Byte := (eval w event (send buf true) s 0).2

/-- The code says what happened. -/
def Classifies (s : Radio) (buf : List Byte) : Prop :=
  (sendCode w event s buf = 0 ↔ ∃ e, event = some e ∧ e.outcome = .txDs) ∧
    (sendCode w event s buf = 1 ↔ ∃ e, event = some e ∧ e.outcome = .maxRt) ∧
    (sendCode w event s buf = 5 ↔ event = none)

/-! ## The wait -/

/-- Counts the operations, from the one on that follows the clearing of
`handle->finished`. -/
def monitor : Monitor driverSig Nat where
  pre _ o := match (o : Op) with
    | .spiRead _ len => 0 < len ∧ len ≤ 33
    | .spiWrite _ buf => buf.length ≤ 33
    | .gpioWrite _ | .delayMs _ | .debugPrint _ _ | .getFinished => True
    | _ => False
  may i o r := match (o : Op), r with
    | .spiRead _ _, r => r.isSome
    | .spiWrite _ _, r => r = true
    | .gpioWrite _, r => r = true
    | .getFinished, r => r = stored event (i + 1)
    | _, _ => True
  next i _ _ := i + 1

theorem finished_arrive {s : Radio} {i : Nat} (h : s.handle.finished = stored event i) :
    (arrive w event i s).handle.finished = stored event (i + 1) := by
  cases event with
  | none => exact h
  | some e =>
      simp only [arrive, stored] at h ⊢
      rw [h]
      by_cases heq : e.moment = i
      · simp [heq]
      · rw [if_neg heq]
        exact if_congr (by omega) rfl rfl

/-- What the handler has stored is what the call finds. -/
theorem monitor_perform (x : Radio × Nat) (i : Nat) (o : Op)
    (hx : x.2 = i ∧ x.1.handle.finished = stored event i) (hpre : (monitor event).pre i o) :
    (monitor event).may i o (perform w event x o).2 ∧
      (perform w event x o).1.2 = (monitor event).next i o (perform w event x o).2 ∧
      (perform w event x o).1.1.handle.finished =
        stored event ((monitor event).next i o (perform w event x o).2) := by
  obtain ⟨rfl, hfinished⟩ := hx
  have harrive := finished_arrive w event hfinished
  cases o with
  | spiRead reg len =>
      have hread := Radio.spiRead_of_ok (arrive w event x.2 x.1) reg hpre.1 hpre.2
        (rfl : (answer (w.noise x.2)).fail = false)
      show (Radio.spiRead _ reg len _).2.isSome = true ∧ _ ∧
        (Radio.spiRead _ reg len _).1.handle.finished = _
      rw [hread]
      exact ⟨rfl, rfl, harrive⟩
  | spiWrite reg buf =>
      have hwrite := Radio.spiWrite_of_ok (arrive w event x.2 x.1) reg hpre
        (rfl : (answer (w.noise x.2)).fail = false)
      show (Radio.spiWrite _ reg buf _).2 = true ∧ _ ∧
        (Radio.spiWrite _ reg buf _).1.handle.finished = _
      rw [hwrite]
      exact ⟨rfl, rfl, harrive⟩
  | gpioWrite value => exact ⟨rfl, rfl, harrive⟩
  | delayMs ms => exact ⟨trivial, rfl, harrive⟩
  | debugPrint fmt args => exact ⟨trivial, rfl, harrive⟩
  | getFinished => exact ⟨harrive, rfl, harrive⟩
  | _ => contradiction

/-- The handler has set `handle->finished` by the `i`-th operation. -/
def SetBy (i : Nat) : Prop := ∃ e, event = some e ∧ e.moment ≤ i

theorem SetBy.mono {event : Option Event} {i j : Nat} (hij : i ≤ j) (h : SetBy event i) :
    SetBy event j := by
  obtain ⟨e, he, hle⟩ := h
  exact ⟨e, he, Nat.le_trans hle hij⟩

theorem stored_eq_zero_iff (i : Nat) : stored event (i + 1) = 0 ↔ ¬SetBy event i := by
  cases event with
  | none => simp [stored, SetBy]
  | some e =>
      have hset : SetBy (some e) i ↔ e.moment < i + 1 := by
        rw [Nat.lt_succ_iff]
        simp [SetBy]
      have hval : e.outcome.val ≠ 0 := by
        cases e.outcome <;> decide
      rw [hset, stored]
      split
      next hlt => exact iff_of_false hval (not_not_intro hlt)
      next hge => exact iff_of_true rfl hge

/-- The loop leaves some of the timeout exactly if one of its polls comes after
the event; the polls are at every second operation. -/
theorem wp_waitFinished (timeout i : Nat) :
    (waitFinished timeout).wp (monitor event)
      (fun left j => (left ≠ 0 ↔ 0 < timeout ∧ SetBy event (i + 2 * (timeout - 1))) ∧
        (left ≠ 0 → SetBy event j)) i := by
  induction timeout generalizing i with
  | zero => simp [waitFinished]
  | succ timeout ih =>
      simp only [waitFinished, Prog.bind_eq, Prog.wp_bind, wp_getFinished, Prog.wp_ite, wp_delayMs]
      refine ⟨trivial, ?_⟩
      rintro b rfl
      rw [stored_eq_zero_iff]
      refine ⟨fun hnot => ⟨trivial, fun _ => Prog.wp_mono ?_ (ih (i + 1 + 1))⟩, fun hset => ?_⟩
      · -- not set at this poll: it is set at a later one or at none
        rintro left j ⟨hleft, hj⟩
        refine ⟨hleft.trans ⟨?_, ?_⟩, hj⟩
        · rintro ⟨hpos, hset⟩
          exact ⟨Nat.succ_pos _, SetBy.mono (by omega) hset⟩
        · rintro ⟨-, hset⟩
          have hpos : 0 < timeout := by
            refine Nat.pos_of_ne_zero fun hzero => hnot (SetBy.mono ?_ hset)
            omega
          exact ⟨hpos, SetBy.mono (by omega) hset⟩
      · have hset := not_not.mp hset
        refine ⟨iff_of_true (Nat.succ_ne_zero _) ⟨Nat.succ_pos _, SetBy.mono (by omega) hset⟩, ?_⟩
        exact fun _ => SetBy.mono (Nat.le_succ i) hset

/-- What the call returns. -/
def code : Byte :=
  match event with
  | some e =>
      if e.moment ≤ lastPoll then
        match e.outcome with
        | .txDs => 0
        | .maxRt => 1
      else 5
  | none => 5

theorem code_of_not_setBy (h : ¬SetBy event lastPoll) : code event = 5 := by
  cases event with
  | none => rfl
  | some e => exact if_neg fun hle => h ⟨e, rfl, hle⟩

theorem code_of_setBy (h : SetBy event lastPoll) {i : Nat} (hi : SetBy event i) :
    code event = if stored event (i + 1) = 1 then 0 else 1 := by
  obtain ⟨e, rfl, hle⟩ := h
  obtain ⟨e', he', hi⟩ := hi
  obtain rfl := Option.some.inj he'
  have hstored : stored (some e) (i + 1) = e.outcome.val := if_pos (by omega)
  rw [hstored, code, if_pos hle]
  cases e.outcome <;> rfl

theorem wp_awaitAck : awaitAck.wp (monitor event) (fun r _ => r = code event) 6 := by
  rw [awaitAck, Prog.bind_eq, Prog.wp_bind]
  refine Prog.wp_mono ?_ (wp_waitFinished event 5000 6)
  rintro left j ⟨hleft, hj⟩
  have hleft : left ≠ 0 ↔ SetBy event lastPoll := hleft.trans (and_iff_right (by decide))
  rw [Prog.wp_ite]
  refine ⟨fun hzero => ?_, fun hpos => ?_⟩
  · have hcode := code_of_not_setBy event fun hset => hleft.mpr hset hzero
    simp [monitor, failWith, hcode]
  · have hcode := code_of_setBy event (hleft.mp hpos) (hj hpos)
    simp only [Prog.bind_eq, Prog.wp_bind, wp_getFinished]
    refine ⟨trivial, ?_⟩
    rintro b rfl
    rw [hcode, Prog.wp_ite]
    refine ⟨fun h1 => ?_, fun h1 => ?_⟩
    · rw [if_pos h1]
      rfl
    · rw [if_neg h1]
      simp [failWith, monitor]

/-- The part of the call after `handle->finished` is cleared. -/
def sendTail (buf : List Byte) : Driver Byte := do
  let ok ← gpioWrite false
  if !ok then failWith "nrf24l01: gpio write failed.\n" [] 1
  else
    let ok ← spiWrite (payloadCommand true) (reverseBuffer buf)
    if !ok then failWith "nrf24l01: set tx payload failed.\n" [] 1
    else
      let ok ← gpioWrite true
      if !ok then failWith "nrf24l01: gpio write failed.\n" [] 1
      else do
        let _ ← spiRead (commandRRegister ||| regFeature) 1
        awaitAck

theorem send_eq (buf : List Byte) :
    send buf true = checked (if buf.length > 32 then failWith "nrf24l01: len is over 32.\n" [] 4
      else (setFinished 0).bind fun _ => sendTail buf) := rfl

theorem wp_sendTail {buf : List Byte} (h : buf.length ≤ 32) :
    (sendTail buf).wp (monitor event) (fun r _ => r = code event) 2 := by
  have hbuf : (reverseBuffer buf).length ≤ 33 := by
    rw [reverseBuffer_eq, List.length_reverse]
    omega
  simp only [sendTail, Prog.bind_eq, Prog.wp_bind, wp_gpioWrite, wp_spiWrite, wp_spiRead,
    Bool.not_true, Bool.not_false, Bool.false_eq_true, if_true, if_false]
  -- each operation succeeds, so the branches of the failures are not taken
  have hfails {p : Prop} : false = true → p := fun h => absurd h Bool.false_ne_true
  refine ⟨trivial, hfails, fun _ => ⟨hbuf, hfails, fun _ => ⟨trivial, hfails, fun _ => ?_⟩⟩⟩
  exact ⟨⟨by decide, by decide⟩, hfails, fun _ _ => wp_awaitAck event⟩

theorem code_sendTail {buf : List Byte} (h : buf.length ≤ 32) {s : Radio}
    (hs : s.handle.finished = stored event 2) :
    (eval w event (sendTail buf) s 2).2 = code event := by
  obtain ⟨-, hcode, -⟩ := Prog.eval_of_wp (s := (s, 2)) (monitor_perform w event)
    (wp_sendTail event h) ⟨rfl, hs⟩
  exact hcode

theorem eval_getInited (s : Radio) :
    eval w event getInited s 0 = ((arrive w event 0 s, 1), s.handle.inited) := rfl

theorem sendCode_of_not_inited {s : Radio} (buf : List Byte) (hinit : s.handle.inited ≠ 1) :
    sendCode w event s buf = 3 := by
  rw [sendCode, send_eq, checked, Prog.bind_eq, eval_bind, eval_getInited, if_pos hinit]
  rfl

theorem sendCode_of_long {s : Radio} {buf : List Byte} (hinit : s.handle.inited = 1)
    (hlen : 32 < buf.length) : sendCode w event s buf = 4 := by
  rw [sendCode, send_eq, checked, Prog.bind_eq, eval_bind, eval_getInited,
    if_neg (not_not_intro hinit), if_pos hlen]
  rfl

theorem sendCode_of_ok {s : Radio} {buf : List Byte} (hinit : s.handle.inited = 1)
    (hlen : buf.length ≤ 32) : sendCode w event s buf = code event := by
  rw [sendCode, send_eq, checked, Prog.bind_eq, eval_bind, eval_getInited,
    if_neg (not_not_intro hinit), if_neg (Nat.not_lt.mpr hlen), eval_bind]
  refine code_sendTail w event hlen ?_
  show 0 = stored event 2
  cases event with
  | none => rfl
  | some e => exact (if_neg (Nat.not_lt.mpr e.cleared)).symm

theorem code_classifies_iff :
    ((code event = 0 ↔ ∃ e, event = some e ∧ e.outcome = .txDs) ∧
      (code event = 1 ↔ ∃ e, event = some e ∧ e.outcome = .maxRt) ∧
      (code event = 5 ↔ event = none)) ↔ ∀ e, event = some e → e.moment ≤ lastPoll := by
  cases event with
  | none => simp [code]
  | some e =>
      obtain ⟨moment, outcome, -, -⟩ := e
      by_cases h : moment ≤ lastPoll <;> cases outcome <;> simp [code, h]

/-- No other code says what happened. -/
theorem not_classifies {r : Byte} (hr : r ≠ 0 ∧ r ≠ 1 ∧ r ≠ 5) :
    ¬((r = 0 ↔ ∃ e, event = some e ∧ e.outcome = .txDs) ∧
      (r = 1 ↔ ∃ e, event = some e ∧ e.outcome = .maxRt) ∧ (r = 5 ↔ event = none)) := by
  rintro ⟨h0, h1, h5⟩
  cases event with
  | none => exact hr.2.2 (h5.mpr rfl)
  | some e =>
      cases hout : e.outcome with
      | txDs => exact hr.1 (h0.mpr ⟨e, rfl, hout⟩)
      | maxRt => exact hr.2.1 (h1.mpr ⟨e, rfl, hout⟩)

/-- **Classification**: the code of an acknowledged send says what happened
exactly if the call gets to its wait and the handler does not come after the
last poll. -/
theorem classifies_iff (s : Radio) (buf : List Byte) :
    Classifies w event s buf ↔
      s.handle.inited = 1 ∧ buf.length ≤ 32 ∧ ∀ e, event = some e → e.moment ≤ lastPoll := by
  unfold Classifies
  by_cases hinit : s.handle.inited = 1
  · by_cases hlen : buf.length ≤ 32
    · rw [sendCode_of_ok w event hinit hlen, code_classifies_iff]
      simp [hinit, hlen]
    · rw [sendCode_of_long w event hinit (Nat.not_le.mp hlen)]
      exact iff_of_false (not_classifies event (by decide)) fun h => hlen h.2.1
  · rw [sendCode_of_not_inited w event buf hinit]
    exact iff_of_false (not_classifies event (by decide)) fun h => hinit h.1

/-- The acknowledgement arrives during the last delay and the call returns 5. -/
theorem not_classifies_last_delay :
    ¬Classifies ⟨fun _ => [], fun _ c => c, fun _ ce => ce⟩
      (some ⟨afterDelays, .txDs, by decide, by decide⟩) sampleRadio [0xAB#8] := by
  unfold Classifies
  rw [sendCode_of_ok _ _ rfl (by decide), code_classifies_iff]
  intro h
  exact absurd (h _ rfl) (by decide)

end Wait

end DsEthComm.Nrf24l01
