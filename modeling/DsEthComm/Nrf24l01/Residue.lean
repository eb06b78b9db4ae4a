import DsEthComm.Nrf24l01.Residue.Monitor

/-!
# DsEthComm.Nrf24l01.Residue

What a failed acknowledged `nrf24l01_send` leaves in the chip.  The sender
itself never flushes the transmit FIFO.  It is the interrupt handler that
clears `MAX_RT`, flushes and stores 2 in `handle->finished`.

This cleans up after a send as long as the flag is stored for its own
payload, `MAX_RT` does not come back between the clearing and the flush, and
the handler, or an acknowledgement, is in time.  A wait that runs out cleans
up nothing.
-/

namespace DsEthComm.Nrf24l01

open Conc

namespace Residue

/-! ## The operations -/

/-- The station after an operation. -/
def Station.perform (x : Station) (o : Op) (noise : List Byte) : Station :=
  { x with radio := (x.radio.perform o (answer noise)).1 }

section Operations

variable {x x' : Station} {g : Ghost} {o : Op}

/-- A neutral operation. -/
theorem view_perform (h : neutral o = true) (noise : List Byte) (g : Ghost) :
    view (x.perform o noise) g = view x g := by
  cases o with
  | spiRead cmd len =>
      show view { x with radio := (x.radio.spiRead cmd len (answer noise)).1 } g = _
      obtain ⟨rxFifo, hread⟩ := x.radio.chip.read_cases cmd len noise
      unfold Radio.spiRead
      split
      · rfl
      · simp only [answer, hread]
        rfl
  | spiWrite _ _ | setFinished _ | link _ => contradiction
  | _ => rfl

/-- The handler reads `STATUS`. -/
theorem stage_readStatus (s : Radio) (stage : Stage) (noise : List Byte) :
    stage.next (.spiRead (commandRRegister ||| regStatus) 1)
      (s.perform (.spiRead (commandRRegister ||| regStatus) 1) (answer noise)).2 =
      if s.chip.maxRt then .due else .away := by
  have hread : (s.spiRead (commandRRegister ||| regStatus) 1 (answer noise)).2 =
      some [s.chip.status] := by
    rw [Radio.spiRead_of_ok _ _ (by decide) (by decide) rfl, Chip.read_rRegister _ (by decide)]
    exact congrArg some (Chip.fit_one _ _)
  show stage.next (.spiRead (commandRRegister ||| regStatus) 1)
    (s.spiRead (commandRRegister ||| regStatus) 1 (answer noise)).2 = _
  rw [hread]
  simp [Stage.next]

/-- The handler writes `STATUS` back. -/
theorem serves_writeStatus {buf : List Byte} (h : g.stage = .due → bit (buf.getD 0 0) 4 = true) :
    Serves (view x g)
      (view ⟨x.radio.setChip (x.radio.chip.write (commandWRegister ||| regStatus) buf), x.onAir⟩
        (g.perform .irq (.spiWrite (commandWRegister ||| regStatus) buf) true)) := by
  have hcmd : commandWRegister ||| regStatus ≠ commandFlushTx := by decide
  have hstage : g.perform .irq (.spiWrite (commandWRegister ||| regStatus) buf) true =
      { g with stage := if g.stage = .due then .cleared else g.stage } := by
    simp [Ghost.perform, Stage.next, flushes, hcmd]
  rw [Chip.write_wRegister _ (by decide), hstage]
  by_cases hdue : g.stage = .due
  · have hmax : (x.radio.chip.writeReg regStatus buf).maxRt = false := by
      show (x.radio.chip.maxRt && !bit (buf.getD 0 0) 4) = false
      rw [h hdue, Bool.not_true, Bool.and_false]
    have hclear : view ⟨x.radio.setChip (x.radio.chip.writeReg regStatus buf), x.onAir⟩
        { g with stage := .cleared } = { view x g with maxRt := false, stage := .cleared } := by
      rw [← hmax]
      rfl
    rw [if_pos hdue, hclear]
    exact .clear hdue
  · rw [if_neg hdue]
    exact .keep _ fun hmax => (Bool.and_eq_true_iff.mp hmax).1

/-- Every operation of the handler. -/
theorem serves_perform (hpre : handlerMonitor.pre (.handler g.stage) o)
    (hok : g.clean = true → OrderlyHandler g o) (noise : List Byte) :
    Serves (view x g)
      (view (x.perform o noise) (g.perform .irq o (x.radio.perform o (answer noise)).2)) := by
  cases o with
  | setFinished value =>
      obtain rfl | rfl := hpre
      · exact .storeSent
      · exact .storeFailed fun hclean => hok hclean rfl
  | spiRead cmd len =>
      rw [view_perform rfl]
      by_cases hcmd : cmd = commandRRegister ||| regStatus
      · obtain rfl := hpre hcmd
        subst hcmd
        have hread := stage_readStatus x.radio g.stage noise
        have hghost : g.perform .irq (.spiRead (commandRRegister ||| regStatus) 1)
            (x.radio.perform (.spiRead (commandRRegister ||| regStatus) 1) (answer noise)).2 =
              { g with stage := if x.radio.chip.maxRt then .due else .away } := by
          rw [← hread]
          rfl
        rw [hghost]
        exact .read
      · have hsame : g.stage.next (.spiRead cmd len)
            (x.radio.perform (.spiRead cmd len) (answer noise)).2 = g.stage := by
          simp only [Stage.next, hcmd, if_false]
          split <;> rfl
        have hghost : g.perform .irq (.spiRead cmd len)
            (x.radio.perform (.spiRead cmd len) (answer noise)).2 = g := by
          simp [Ghost.perform, hsame, flushes]
        rw [hghost]
        exact .skip
  | spiWrite cmd buf =>
      unfold Station.perform
      obtain hfail | hdone := x.radio.perform_spiWrite (answer noise) cmd buf
      · rw [hfail]
        exact .skip
      · rw [hdone]
        obtain ⟨rfl, hbit⟩ | ⟨rfl, hstage⟩ | rfl := hpre
        · exact serves_writeStatus hbit
        · exact .flush hstage
        · exact .skip
  | link _ => contradiction
  | _ => exact .skip

/-- What the chip does by itself. -/
theorem happens_event {e : Event} (h : event e x = some x')
    (hok : e = .failed → g.clean = true → g.stage ≠ .cleared) :
    Happens (view x g) (view x' (g.event e)) := by
  cases e with
  | begins =>
      simp only [event] at h
      split at h
      · next hc =>
        obtain rfl := Option.some.inj h
        exact .begins hc.2.1
      · contradiction
  | sent =>
      simp only [event] at h
      split at h
      · contradiction
      · next hfifo =>
        split at h
        · next hair =>
          obtain rfl := Option.some.inj h
          exact .sent hair hfifo
        · contradiction
  | failed =>
      simp only [event] at h
      split at h
      · contradiction
      · next hfifo =>
        split at h
        · next hair =>
          obtain rfl := Option.some.inj h
          have hne : x.radio.chip.txFifo ≠ [] := by simp [hfifo]
          exact .failed hair hne (hok rfl)
        · contradiction
  | received rxDr rxFifo =>
      obtain rfl := Option.some.inj h
      exact .skip

end Operations

/-! ## The invariant -/

/-- What an acknowledged send that began with a clean chip relies on. -/
def Sender (v : View) : Option Phase → Prop
  | some .fresh => Bare v ∧ v.progress = .begun
  | some .opened => Bare v ∧ v.progress = .opened ∧ (v.finished = 0 ∨ v.finished = 1)
  | some .written => Tended v
  | some (.read b) => Tended v ∧ (b ≠ 0 → b ≠ 1 → v.txFifo = [])
  | some .late => Tended v ∧ v.txFifo = []
  | some .noAck => False
  | _ => True

structure Tied (x : Station × Ghost) (loc : Client → Option Phase) : Prop where
  quiet : Quiet (view x.1 x.2)
  handler : ∀ l, loc .irq = some l → l = .handler x.2.stage
  flag : ∀ b, loc .tx = some (.read b) → b ≠ 0 → x.1.radio.handle.finished ≠ 0
  sender : x.2.clean = true → Sender (view x.1 x.2) (loc .tx)

section Steps

variable {v v' : View} {l : Option Phase}

/-- An empty FIFO stays empty as long as nothing is written to it. -/
theorem Serves.txFifo_nil (hs : Serves v v') (h : v.txFifo = []) : v'.txFifo = [] := by
  cases hs with
  | flush => rfl
  | _ => exact h

theorem Happens.txFifo_nil (hs : Happens v v') (h : v.txFifo = []) : v'.txFifo = [] := by
  cases hs with
  | sent _ hfifo => simp [h] at hfifo
  | _ => exact h

theorem Serves.clean_eq (hs : Serves v v') : v'.clean = v.clean := by
  cases hs <;> rfl

theorem Happens.finished_eq (hs : Happens v v') : v'.finished = v.finished := by
  cases hs <;> rfl

/-- The handler keeps what the sender relies on. -/
theorem Sender.serves (h : Sender v l) (hclean : v.clean = true) (hs : Serves v v') :
    Sender v' l := by
  cases l with
  | none => trivial
  | some l =>
      cases l with
      | noAck => exact h.elim
      | handler _ => trivial
      | fresh =>
          refine ⟨h.1.serves hs, ?_⟩
          have hbegun : v.progress = .begun := h.2
          cases hs <;> first | exact hbegun | exact congrArg Progress.take hbegun
      | opened =>
          obtain ⟨hbare, hopened, hflag⟩ := h
          refine ⟨hbare.serves hs, ?_⟩
          cases hs with
          | flush => exact ⟨congrArg Progress.take hopened, hflag⟩
          | storeFailed hown =>
              -- there is no payload yet for which it could be
              obtain hbegun | htaken := hown hclean
              · rw [hbegun] at hopened
                contradiction
              · rw [htaken] at hopened
                contradiction
          | storeSent => exact ⟨hopened, .inr rfl⟩
          | _ => exact ⟨hopened, hflag⟩
      | written => exact Tended.serves h hclean hs
      | read b => exact ⟨h.1.serves hclean hs, fun h0 h1 => hs.txFifo_nil (h.2 h0 h1)⟩
      | late => exact ⟨h.1.serves hclean hs, hs.txFifo_nil h.2⟩

/-- So does the chip. -/
theorem Sender.happens (h : Sender v l) (hclean : v.clean = true) (hq : Quiet v)
    (hs : Happens v v') : Sender v' l := by
  have hbare : ∀ {p : Progress}, Bare v → v.progress = p → v'.progress = p := by
    intro p hbare hp
    cases hs with
    | sent _ hfifo => simp [hbare.1] at hfifo
    | _ => exact hp
  cases l with
  | none => trivial
  | some l =>
      cases l with
      | noAck => exact h.elim
      | handler _ => trivial
      | fresh => exact ⟨h.1.happens hs, hbare h.1 h.2⟩
      | opened =>
          refine ⟨h.1.happens hs, hbare h.1 h.2.1, ?_⟩
          rw [hs.finished_eq]
          exact h.2.2
      | written => exact Tended.happens h hclean hq hs
      | read b => exact ⟨h.1.happens hclean hq hs, fun h0 h1 => hs.txFifo_nil (h.2 h0 h1)⟩
      | late => exact ⟨h.1.happens hclean hq hs, hs.txFifo_nil h.2⟩

/-- While the send waits, the handler cleans up after its payload. -/
theorem Sender.tended {l : Phase} (h : Sender v (some l)) (hl : l.waits) : Tended v := by
  obtain rfl | ⟨b, rfl⟩ := hl
  · exact h
  · exact h.1

/-- The payload write. -/
theorem Sender.push (h : Sender v (some .opened)) (p : TxPayload) :
    Tended { v with txFifo := [p], progress := .written } := by
  obtain ⟨⟨-, hmax⟩, -, hfin⟩ := h
  refine ⟨.inl rfl, Nat.le_refl 1, nofun, fun _ => hmax, nofun, fun h0 h1 => ?_⟩
  obtain hfin | hfin := hfin
  · exact absurd hfin h0
  · exact absurd hfin h1

variable {x : Station} {g : Ghost} {o : Op}

theorem view_pushTx (h : x.radio.chip.txFifo = []) (p : TxPayload) :
    view ⟨x.radio.setChip (x.radio.chip.pushTx p), x.onAir⟩ { g with progress := .written } =
      { view x g with txFifo := [p], progress := .written } := by
  have hpush : x.radio.chip.pushTx p = { x.radio.chip with txFifo := [p] } := by
    simp [Chip.pushTx, h, Chip.fifoSize]
  rw [hpush]
  rfl

/-- The operations of an acknowledged send. -/
theorem Sender.ack {l : Phase} (h : Sender (view x g) (some l)) (hpre : ackMonitor.pre l o)
    (hok : OrderlySend g o) (noise : List Byte) :
    Sender (view (x.perform o noise) (g.perform .tx o (x.radio.perform o (answer noise)).2))
      (some (ackMonitor.next l o (x.radio.perform o (answer noise)).2)) := by
  cases o with
  | setFinished value =>
      obtain ⟨rfl, rfl⟩ := hpre
      exact ⟨h.1, rfl, .inl rfl⟩
  | spiWrite cmd buf =>
      obtain ⟨rfl, rfl⟩ := hpre
      unfold Station.perform
      obtain hfail | hdone := x.radio.perform_spiWrite (answer noise) commandWTxPayload buf
      · rw [hfail]
        exact h
      · have hview : view ⟨x.radio.setChip (x.radio.chip.write commandWTxPayload buf), x.onAir⟩
            { g with progress := .written } =
              { view x g with txFifo := [⟨true, buf⟩], progress := .written } :=
          view_pushTx h.1.1 ⟨true, buf⟩
        rw [hdone]
        exact hview ▸ h.push ⟨true, buf⟩
  | spiRead cmd len =>
      rw [view_perform rfl]
      by_cases hcmd : cmd = commandRRegister ||| regStatus
      · subst hcmd
        have htended := h.tended (hpre rfl)
        exact ⟨htended, htended.taken (hok rfl)⟩
      · have hsame : ackMonitor.next l (.spiRead cmd len)
            (x.radio.perform (.spiRead cmd len) (answer noise)).2 = l := if_neg hcmd
        rw [hsame]
        exact h
  | getFinished =>
      have htended := h.tended hpre
      exact ⟨htended, fun h0 h1 => htended.marked h0 h1⟩
  | link _ => contradiction
  | _ => exact h

/-- The answers that an acknowledged send can get. -/
theorem mayAck_perform {l : Phase} (s : Radio) (o : Op) (a : Answer)
    (hflag : ∀ b, l = .read b → b ≠ 0 → s.handle.finished ≠ 0) :
    l.mayAck o (s.perform o a).2 := by
  cases o with
  | getFinished => exact hflag
  | gpioWrite _ => exact rfl
  | _ => trivial

end Steps

/-! ## Whole runs -/

/-- No operation sets `MAX_RT`. -/
theorem maxRt_perform (s : Radio) (o : Op) (a : Answer)
    (h : (s.perform o a).1.chip.maxRt = true) : s.chip.maxRt = true := by
  by_cases hw : ∃ cmd buf, o = .spiWrite cmd buf
  · obtain ⟨cmd, buf, rfl⟩ := hw
    obtain hfail | hdone := s.perform_spiWrite a cmd buf
    · rwa [hfail] at h
    · rw [hdone] at h
      have hmax : (s.chip.write cmd buf).maxRt = true := h
      obtain ⟨r, -, hr⟩ | ⟨txFifo, rxFifo, hfifo⟩ := s.chip.write_cases cmd buf
      · rw [hr] at hmax
        unfold Chip.writeReg at hmax
        split at hmax
        · exact (Bool.and_eq_true_iff.mp hmax).1
        · repeat' split at hmax
          all_goals exact hmax
      · rwa [hfifo] at hmax
  · rwa [s.chip_perform a Chip.maxRt (fun _ => rfl) fun cmd buf ho => absurd ⟨cmd, buf, ho⟩ hw] at h

/-- Both threads follow their monitors, and the invariant holds. -/
def Inv (c : State) : Prop :=
  ∃ loc, Pool.Follows monitor Done c loc ∧ Tied c.shared loc

theorem inv_start (s : Radio) (onAir : Bool) : Inv (start s onAir) := by
  refine ⟨fun _ => none, Pool.follows_start _, ?_, nofun, nofun, nofun⟩
  intro hair
  have hair : (onAir && !s.chip.maxRt) = true := hair
  have hmax : s.chip.maxRt = false := by simpa using (Bool.and_eq_true_iff.mp hair).2
  exact hmax

section Run

variable {x x' : Station} {g : Ghost} {loc : Client → Option Phase}

/-- A step of the handler. -/
theorem Tied.serves (h : Tied (x, g) loc) {g' : Ghost} (hs : Serves (view x g) (view x' g'))
    {l : Option Phase} (hl : l = some (.handler g'.stage) ∨ l = none) :
    Tied (x', g') (Function.update loc .irq l) where
  quiet := h.quiet.serves hs
  handler m hm := by
    rw [Function.update_self] at hm
    subst hm
    obtain hl | hl := hl
    · exact Option.some.inj hl
    · contradiction
  flag b hb hne := hs.finished_ne (h.flag b hb hne)
  sender hclean := by
    have hsame : g.clean = true := hs.clean_eq.symm.trans hclean
    exact (h.sender hsame).serves hsame hs

/-- A step of the sender. -/
theorem Tied.sends (h : Tied (x, g) loc) {l : Phase} {o : Op} {noise : List Byte} {r : o.Res}
    (hflag : ∀ b, l = .read b → b ≠ 0 → (x.perform o noise).radio.handle.finished ≠ 0)
    (hsender : g.clean = true → Sender (view (x.perform o noise) (g.perform .tx o r)) (some l)) :
    Tied (x.perform o noise, g.perform .tx o r) (Function.update loc .tx (some l)) where
  quiet hair := by
    have hmax := h.quiet hair
    refine Bool.eq_false_iff.mpr fun hset => ?_
    have hold : x.radio.chip.maxRt = true := maxRt_perform _ _ _ hset
    exact absurd hmax (by simp [view, hold])
  handler := h.handler
  flag b hb := by
    rw [Function.update_self] at hb
    exact hflag b (Option.some.inj hb)
  sender hclean := by
    rw [Function.update_self]
    exact hsender hclean

/-- The flag that an acknowledged send has read. -/
theorem flag_ack {l : Phase} {o : Op} {noise : List Byte}
    (hflag : ∀ b, l = .read b → b ≠ 0 → x.radio.handle.finished ≠ 0)
    (hpre : ackMonitor.pre l o) :
    ∀ b, ackMonitor.next l o (x.radio.perform o (answer noise)).2 = .read b → b ≠ 0 →
      (x.perform o noise).radio.handle.finished ≠ 0 := by
  cases o with
  | getFinished =>
      intro b hb
      obtain rfl := Phase.read.inj hb
      exact id
  | setFinished _ => exact nofun
  | spiWrite cmd buf =>
      obtain ⟨rfl, -⟩ := hpre
      obtain hfail | hdone := x.radio.perform_spiWrite (answer noise) cmd buf
      · rw [hfail]
        exact nofun
      · rw [hdone]
        exact nofun
  | spiRead cmd len =>
      have hsame : (x.perform (.spiRead cmd len) noise).radio.handle.finished =
          x.radio.handle.finished :=
        congrArg View.finished (view_perform rfl noise ⟨.away, false, .begun⟩)
      rw [hsame]
      by_cases hcmd : cmd = commandRRegister ||| regStatus
      · subst hcmd
        exact nofun
      · have hnext : ackMonitor.next l (.spiRead cmd len)
            (x.radio.perform (.spiRead cmd len) (answer noise)).2 = l := if_neg hcmd
        rw [hnext]
        exact hflag
  | link _ => contradiction
  | _ => exact hflag

/-- Every operation of a thread in a call keeps the invariant. -/
theorem Tied.exec {c : State} (h : Tied c.shared loc) {t : Client} {i : Api} {o : Op}
    {k : o.Res → Driver Byte} {noise : List Byte} {l : Phase}
    (hjob : c.job t = some (i, .op o k)) (hl : loc t = some l) (hpre : (monitor t i).pre l o)
    (hok : Orderly c (.exec t noise)) :
    let r := (c.shared.1.radio.perform o (answer noise)).2
    (monitor t i).may l o r ∧
      Tied (c.shared.1.perform o noise, c.shared.2.perform t o r)
        (Function.update loc t (some ((monitor t i).next l o r))) := by
  have hnext := Conf.next_of_job hjob
  cases t with
  | irq =>
      obtain rfl := h.handler l hl
      exact ⟨trivial, h.serves (serves_perform hpre (fun hclean => hok hclean o hnext) noise)
        (.inl rfl)⟩
  | shell => exact hpre.elim
  | tx =>
      have hsender := h.sender
      have hflag : ∀ b, l = .read b → b ≠ 0 → c.shared.1.radio.handle.finished ≠ 0 :=
        fun b hb => h.flag b (by rw [hl, hb])
      rw [hl] at hsender
      cases i with
      | send buf useAck =>
          cases useAck with
          | false =>
              obtain rfl : l = .noAck := hpre
              exact ⟨trivial, h.sends nofun fun hclean => (hsender hclean).elim⟩
          | true =>
              refine ⟨mayAck_perform _ o _ hflag, h.sends (flag_ack hflag hpre) fun hclean => ?_⟩
              exact (hsender hclean).ack hpre (hok hclean o hnext) noise
      | _ => exact hpre.elim

theorem bare_of_cleanChip (h : cleanChip x.radio.chip = true) (g : Ghost) : Bare (view x g) := by
  simp only [cleanChip, Bool.and_eq_true, List.isEmpty_iff, Bool.not_eq_true'] at h
  exact ⟨h.1.1.1, h.2⟩

/-- A send begins. -/
theorem Tied.begins (h : Tied (x, g) loc) (buf : List Byte) (useAck : Bool) :
    Tied (x, g.enter .tx (.send buf useAck) x)
      (Function.update loc .tx (some (if useAck then .fresh else .noAck))) where
  quiet := h.quiet
  handler := h.handler
  flag b hb := by
    rw [Function.update_self] at hb
    cases useAck <;> cases Option.some.inj hb
  sender hclean := by
    rw [Function.update_self]
    have hboth : (useAck && cleanChip x.radio.chip) = true := hclean
    obtain ⟨rfl, hchip⟩ := Bool.and_eq_true_iff.mp hboth
    exact ⟨bare_of_cleanChip hchip _, rfl⟩

/-- A call begins in step with its monitor. -/
theorem Tied.enter (h : Tied (x, g) loc) {t : Client} {i : Api} (ha : allowed t i = true) :
    ∃ l, i.code.wp (monitor t i) (Done t i) l ∧
      Tied (x, g.enter t i x) (Function.update loc t (some l)) := by
  cases t with
  | tx =>
      cases i with
      | send buf useAck =>
          have hbegins := h.begins buf useAck
          cases useAck with
          | true => exact ⟨.fresh, wp_send_ack buf, hbegins⟩
          | false => exact ⟨.noAck, wp_send_noAck buf, hbegins⟩
      | _ => contradiction
  | irq =>
      cases i with
      | interruptIrqHandler => exact ⟨.handler .away, wp_handler, h.serves .turn (.inl rfl)⟩
      | _ => contradiction
  | shell => cases i <;> contradiction

theorem Tied.leave (h : Tied (x, g) loc) (t : Client) :
    Tied (x, g.leave t) (Function.update loc t none) := by
  cases t with
  | irq => exact h.serves .turn (.inr rfl)
  | tx => exact ⟨h.quiet, h.handler, nofun, nofun⟩
  | shell => exact ⟨h.quiet, h.handler, h.flag, h.sender⟩

/-- What the chip does by itself. -/
theorem Tied.event (h : Tied (x, g) loc) {e : Event} (he : event e x = some x')
    (hok : e = .failed → g.clean = true → g.stage ≠ .cleared) : Tied (x', g.event e) loc := by
  have hhappens := happens_event he hok
  have hstage : (g.event e).stage = g.stage := by cases e <;> rfl
  have hclean : (g.event e).clean = g.clean := by cases e <;> rfl
  refine ⟨h.quiet.happens hhappens, ?_, ?_, fun hset => ?_⟩
  · show ∀ l, loc .irq = some l → l = .handler (g.event e).stage
    rw [hstage]
    exact h.handler
  · intro b hb hne
    have hfin : x'.radio.handle.finished = x.radio.handle.finished := hhappens.finished_eq
    rw [hfin]
    exact h.flag b hb hne
  · have hset : g.clean = true := hclean.symm.trans hset
    exact (h.sender hset).happens hset h.quiet hhappens

end Run

/-- What every step keeps, if the run is orderly. -/
theorem inv_step (c : State) (l : Label) (c' : State) (hc : Inv c) (hok : Orderly c l)
    (h : observed.step c l = some c') : Inv c' := by
  refine Pool.step_follows observed ?_ ?_ ?_ ?_ c l c' hc hok h
  · intro c loc t i x' hR _ _ hx
    obtain ⟨s', hs', rfl⟩ := Option.map_eq_some_iff.mp hx
    obtain ⟨ha, hsame⟩ := Option.ite_none_right_eq_some.mp hs'
    obtain rfl := Option.some.inj hsame
    exact hR.enter ha
  · intro c loc t i o k noise l _ hR hjob hl hpre hok
    exact hR.exec hjob hl hpre hok
  · intro c loc t i r l hR _ _ _ _
    exact hR.leave t
  · intro c loc e x' _ hR hok hx
    obtain ⟨s', hs', rfl⟩ := Option.map_eq_some_iff.mp hx
    refine hR.event hs' ?_
    rintro rfl
    exact hok

theorem returning_cases {c : State} {p : TxPayload} {r : Byte}
    (h : returning c = some (p, r)) : ∃ buf, c.job .tx = some (.send buf true, .pure r) := by
  unfold returning at h
  split at h
  · next buf r' hjob =>
    obtain rfl := (Prod.mk.inj (Option.some.inj h)).2
    exact ⟨buf, hjob⟩
  · contradiction

/-- A status other than 0 comes with a bare chip. -/
theorem Sender.bare {v : View} {l : Phase} {r : Byte} (h : Sender v (some l))
    (hj : Justified r l) (hr : r = 1 ∨ r = 5) : Bare v := by
  obtain rfl | rfl := hr
  · obtain rfl | ⟨b, rfl, h0, h1⟩ := hj.1 rfl
    · exact h.1
    · have hfifo := h.2 h0 h1
      exact ⟨hfifo, h.1.gone hfifo⟩
  · obtain rfl := hj.2 rfl
    exact ⟨h.2, h.1.gone h.2⟩

theorem Inv.noResidue {c : State} (h : Inv c) (l : Label) : NoResidue c l := by
  obtain ⟨loc, hfol, hT⟩ := h
  cases l with
  | leave t =>
      cases t with
      | irq | shell => trivial
      | tx =>
          rintro ⟨p, r⟩ hret hclean hr
          obtain ⟨buf, hjob⟩ := returning_cases hret
          obtain ⟨l, hl, hdone⟩ := hfol.busy hjob
          have hsender := hT.sender hclean
          rw [hl] at hsender
          obtain ⟨hfifo, hmax⟩ := hsender.bare hdone hr
          have hnil : c.shared.1.radio.chip.txFifo = [] := hfifo
          exact ⟨by simp [hnil], hmax⟩
  | enter _ _ | exec _ _ | env _ => trivial

/-- In every orderly run **a failed send leaves no residue**: when it returns 1
or 5, its payload is not in the FIFO and `MAX_RT` is clear. -/
theorem noResidue_of_orderly (s : Radio) (onAir : Bool) (ls : List Label)
    (hok : Along observed.step Orderly (start s onAir) ls) :
    Along observed.step NoResidue (start s onAir) ls :=
  along_of_along inv_step (fun _ l hI _ => hI.noResidue l) (inv_start s onAir) hok

/-! ## A run that cleans up and two that do not -/

/-- The next `n` operations of a thread. -/
def execs (t : Client) (n : Nat) : List Label := List.replicate n (.exec t [])

/-- A send up to its wait. -/
def sends (payload : List Byte) (useAck : Bool) : List Label :=
  .enter .tx (.send payload useAck) :: execs .tx 6

/-- The handler, which makes `n` operations. -/
def handles (n : Nat) : List Label :=
  .enter .irq .interruptIrqHandler :: execs .irq n ++ [.leave .irq]

/-- The payload fails, the handler flushes it, and the send returns 1. -/
def flushedRun : List Label :=
  List.flatten [
    sends [0x01#8] true, [.env .begins, .env .failed], handles 9, execs .tx 3, [.leave .tx]]

theorem noResidue_of_orderly_flushedRun :
    (run observed.step (start sampleRadio false) flushedRun).isSome = true ∧
      Along observed.step Orderly (start sampleRadio false) flushedRun ∧
      Along observed.step NoResidue (start sampleRadio false) flushedRun :=
  ⟨rfl, by decide, noResidue_of_orderly sampleRadio false flushedRun (by decide)⟩

/-- The second send returns with the `TX_DS` of the first, and its payload
fails.  The handler has flushed it when the third send begins, and stores 2
when that one has cleared the flag. -/
def staleRun : List Label :=
  List.flatten [
    sends [0x01#8] false, [.leave .tx], sends [0x02#8] true, [.env .begins, .env .sent], handles 8,
    execs .tx 2, [.leave .tx, .env .begins, .env .failed, .enter .irq .interruptIrqHandler],
    execs .irq 5, [.enter .tx (.send [0x03#8] true)], execs .tx 2, execs .irq 1, execs .tx 7,
    [.leave .tx]]

/-- `sampleRadio` with `MAX_RT` masked, so that it raises no interrupt. -/
def maskedRadio : Radio :=
  sampleRadio.setChip { sampleRadio.chip with
    reg := Function.update sampleRadio.chip.reg regConfig 0x1E#8 }

/-- The payload fails, and nobody notices. -/
def unnoticed : List Label := sends [0x01#8] true ++ [.env .begins, .env .failed]

/-- The 5000 rounds of the wait, and what the send does after them. -/
def timeoutRun : List Label := unnoticed ++ (execs .tx (2 * 5000) ++ (execs .tx 5 ++ [.leave .tx]))

/-- A wait during which nobody sets the flag. -/
theorem run_waitFinished {c : State} {i : Api} {k : Nat → Driver Byte} {n : Nat}
    (hjob : c.job .tx = some (i, (waitFinished n).bind k))
    (hfin : c.shared.1.radio.handle.finished = 0) :
    run observed.step c (execs .tx (2 * n)) =
      some ⟨c.shared, Function.update c.job .tx (some (i, k 0))⟩ := by
  induction n generalizing c with
  | zero =>
      have hdone : (waitFinished 0).bind k = k 0 := rfl
      rw [hdone] at hjob
      rw [← hjob, Function.update_eq_self]
      rfl
  | succ n ih =>
      -- a round reads the flag and waits for a millisecond
      have hread : observed.step c (.exec .tx []) =
          some ⟨c.shared, Function.update c.job .tx
            (some (i, .op (.delayMs 1) fun _ => (waitFinished n).bind k))⟩ := by
        have hwait : (waitFinished (n + 1)).bind k = .op .getFinished fun (finished : Byte) =>
            Prog.bind (if finished = 0 then (delayMs 1).bind fun _ => waitFinished n
              else .pure (n + 1)) k := rfl
        rw [hwait] at hjob
        simp only [Pool.step, hjob]
        show some (Conf.mk c.shared (Function.update c.job .tx (some (i, Prog.bind
          (if c.shared.1.radio.handle.finished = 0 then (delayMs 1).bind fun _ => waitFinished n
            else .pure (n + 1)) k)))) = _
        rw [if_pos hfin]
        rfl
      have hdelay : observed.step ⟨c.shared, Function.update c.job .tx
            (some (i, .op (.delayMs 1) fun _ => (waitFinished n).bind k))⟩ (.exec .tx []) =
          some ⟨c.shared, Function.update c.job .tx (some (i, (waitFinished n).bind k))⟩ := by
        simp only [Pool.step, Function.update_self, Function.update_idem]
        rfl
      have hround : execs .tx (2 * (n + 1)) = .exec .tx [] :: .exec .tx [] :: execs .tx (2 * n) :=
        rfl
      have hrest := ih (c := ⟨c.shared, Function.update c.job .tx
        (some (i, (waitFinished n).bind k))⟩) (by simp only [Function.update_self]) hfin
      rw [Function.update_idem] at hrest
      rw [hround, run_cons_of_step hread, run_cons_of_step hdelay, hrest]

/-- `awaitAck` when the wait has run out. -/
def timedOut : State :=
  ⟨(⟨maskedRadio.setChip { maskedRadio.chip with maxRt := true, txFifo := [⟨true, [0x01#8]⟩] },
      false⟩, ⟨.away, true, .written⟩),
    Function.update (fun _ => none) .tx (some (.send [0x01#8] true, awaitAck))⟩

theorem run_unnoticed : run observed.step (start maskedRadio false) unnoticed = some timedOut := by
  have hjob : ∃ job, run observed.step (start maskedRadio false) unnoticed =
      some ⟨timedOut.shared, job⟩ ∧ ∀ t, job t = timedOut.job t := by
    refine ⟨_, rfl, fun t => ?_⟩
    cases t <;> rfl
  obtain ⟨job, hrun, hjob⟩ := hjob
  rw [hrun, funext hjob]

/-- Both ways to leave a payload in the FIFO: the wait runs out with the
payload still there, and the flag is set for an older one. -/
theorem residue_left :
    ((run observed.step (start maskedRadio false) timeoutRun).isSome = true ∧
        ¬Along observed.step NoResidue (start maskedRadio false) timeoutRun) ∧
      (run observed.step (start sampleRadio false) staleRun).isSome = true ∧
        ¬Along observed.step NoResidue (start sampleRadio false) staleRun := by
  have hwait := run_waitFinished (c := timedOut) (n := 5000) rfl rfl
  refine ⟨⟨?_, fun hA => ?_⟩, rfl, by decide⟩
  · rw [timeoutRun, run_append, run_unnoticed, Option.bind_some, run_append, hwait]
    rfl
  · have hrest := (hA.of_append run_unnoticed).of_append hwait
    exact absurd hrest (by decide)

end Residue

end DsEthComm.Nrf24l01
