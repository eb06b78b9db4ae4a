import DsEthComm.Nrf24l01.Attribution.System

/-!
# DsEthComm.Nrf24l01.Attribution

To which payload an acknowledged `nrf24l01_send` owes its status.  The
sender clears `handle->finished`, writes its payload and waits until the
interrupt handler stores 1 for `TX_DS` or 2 for `MAX_RT`; nothing in the
flag says whose event it was.

An observer numbers the payloads and records the events of each.  A send
that clears the flag while nothing older is left, neither in the FIFO nor in
`STATUS` nor in the hands of the handler, gets the status of its own
payload.
-/

namespace DsEthComm.Nrf24l01

open Conc

namespace Attribution

/-! ## The invariant -/

/-- A value of the flag is explained by the events of a payload. -/
def Explained (log : List (Nat × Outcome)) (id : Nat) (finished : Byte) : Prop :=
  finished = 0 ∨ finished = 1 ∧ (id, .txDs) ∈ log ∨ finished = 2 ∧ (id, .maxRt) ∈ log

/-- Everything still to come belongs to the payload `id` of the current
send. -/
structure Owned (id : Nat) (s : Radio) (g : Ghost) : Prop where
  mine : g.mine = some id
  fifo : ∀ j ∈ g.ids, j = id
  txDs : s.chip.txDs = true → (id, .txDs) ∈ g.log
  maxRt : s.chip.maxRt = true → (id, .maxRt) ∈ g.log
  carryTxDs : g.carry.txDs = true → (id, .txDs) ∈ g.log
  carryMaxRt : g.carry.maxRt = true → (id, .maxRt) ∈ g.log
  finished : Explained g.log id s.handle.finished

/-- What the sender relies on. -/
def Sender (s : Radio) (g : Ghost) : Option Phase → Prop
  | some .fresh | some .failed => g.mine = none
  | some .cleared =>
      g.mine = none ∧ Clean s g ∧ s.handle.finished = 0
  | some .written => ∃ id, Owned id s g
  | some (.read b) =>
      ∃ id, Owned id s g ∧ Explained g.log id b ∧ (b ≠ 0 → s.handle.finished ≠ 0)
  | _ => True

/-- What the two calls rely on, as far as each has come. -/
structure Tied (x : World × Ghost) (loc : Client → Option Phase) : Prop where
  length : x.2.ids.length = x.1.radio.chip.txFifo.length
  carry : x.2.carry = ((loc .irq).map Phase.carry).getD .empty
  handler : ∀ l, loc .irq = some l → ∃ c, l = .handler c
  sender : Sender x.1.radio x.2 (loc .tx)

section Steps

variable {s s' : Radio} {g g' : Ghost} {id : Nat} {l : Option Phase}

theorem Clean.served (h : Clean s g) (hs : Served s s' g g') : Clean s' g' := by
  obtain ⟨hfifo, htx, hmax, hcarry⟩ := h
  have hctx : g.carry.txDs = false := by rw [hcarry]; rfl
  have hcmax : g.carry.maxRt = false := by rw [hcarry]; rfl
  have hkept : s'.chip.txDs = false ∧ s'.chip.maxRt = false := by
    have h1 := hs.txDs
    have h2 := hs.maxRt
    simp_all
  have hcarry' : g'.carry = ⟨false, false⟩ := by
    have h1 := hs.carryTxDs
    have h2 := hs.carryMaxRt
    apply Carry.ext <;> simp_all
  refine ⟨?_, hkept.1, hkept.2, hcarry'⟩
  obtain ⟨h1, -⟩ | ⟨h1, -⟩ := hs.fifo
  · exact h1.trans hfifo
  · exact h1

theorem Owned.served (h : Owned id s g) (hs : Served s s' g g') : Owned id s' g' where
  mine := hs.mine.trans h.mine
  fifo := by
    obtain ⟨-, hids⟩ | ⟨-, hids⟩ := hs.fifo
    · rw [hids]
      exact h.fifo
    · rw [hids]
      exact nofun
  txDs h1 := by
    rw [hs.log]
    exact h.txDs (hs.txDs h1)
  maxRt h1 := by
    rw [hs.log]
    exact h.maxRt (hs.maxRt h1)
  carryTxDs h1 := by
    rw [hs.log]
    obtain hc | hc := hs.carryTxDs h1
    · exact h.carryTxDs hc
    · exact h.txDs hc
  carryMaxRt h1 := by
    rw [hs.log]
    obtain hc | hc := hs.carryMaxRt h1
    · exact h.carryMaxRt hc
    · exact h.maxRt hc
  finished := by
    rw [hs.log]
    obtain hf | ⟨hf, hc⟩ | ⟨hf, hc⟩ := hs.finished
    · rw [hf]
      exact h.finished
    · exact .inr (.inl ⟨hf, h.carryTxDs hc⟩)
    · exact .inr (.inr ⟨hf, h.carryMaxRt hc⟩)

/-- The handler keeps what the sender relies on. -/
theorem Sender.served (h : Sender s g l) (hs : Served s s' g g') : Sender s' g' l := by
  cases l with
  | none => trivial
  | some l =>
      cases l with
      | noAck | handler _ => trivial
      | fresh | failed => exact hs.mine.trans h
      | cleared =>
          obtain ⟨hmine, hclean, hfin⟩ := h
          refine ⟨hs.mine.trans hmine, hclean.served hs, ?_⟩
          obtain hf | ⟨-, hc⟩ | ⟨-, hc⟩ := hs.finished
          · exact hf.trans hfin
          · rw [hclean.2.2.2] at hc
            contradiction
          · rw [hclean.2.2.2] at hc
            contradiction
      | written =>
          obtain ⟨id, hown⟩ := h
          exact ⟨id, hown.served hs⟩
      | read b =>
          obtain ⟨id, hown, hexp, hset⟩ := h
          refine ⟨id, hown.served hs, ?_, fun hb => ?_⟩
          · rw [hs.log]
            exact hexp
          · obtain hf | ⟨hf, -⟩ | ⟨hf, -⟩ := hs.finished
            · rw [hf]
              exact hset hb
            · rw [hf]
              decide
            · rw [hf]
              decide

/-- So does everything that leaves the sending side alone. -/
theorem Sender.same (h : Sender s g l) (hs : SameTx s s') : Sender s' g l :=
  h.served (.of_same (c := g.carry) hs .inl .inl)

/-- A log only grows, so an outcome that it explains stays explained. -/
theorem Explained.mono {log log' : List (Nat × Outcome)} (hlog : ∀ x ∈ log, x ∈ log')
    {b : Byte} (h : Explained log id b) : Explained log' id b := by
  obtain h0 | ⟨h1, hx⟩ | ⟨h2, hx⟩ := h
  · exact .inl h0
  · exact .inr (.inl ⟨h1, hlog _ hx⟩)
  · exact .inr (.inr ⟨h2, hlog _ hx⟩)

theorem Owned.mono (h : Owned id s g) {log : List (Nat × Outcome)} (hlog : ∀ x ∈ g.log, x ∈ log) :
    Owned id s { g with log := log } where
  mine := h.mine
  fifo := h.fifo
  txDs h1 := hlog _ (h.txDs h1)
  maxRt h1 := hlog _ (h.maxRt h1)
  carryTxDs h1 := hlog _ (h.carryTxDs h1)
  carryMaxRt h1 := hlog _ (h.carryMaxRt h1)
  finished := h.finished.mono hlog

/-- `TX_DS` is raised for the first payload, which leaves the FIFO. -/
theorem event_sent {c c' : Chip} (h : event .sent c = some c') :
    ∃ p ps, c.txFifo = p :: ps ∧ c' = { c with txDs := true, txFifo := ps } := by
  simp only [event] at h
  split at h
  · contradiction
  · next p ps hfifo =>
    split at h
    · contradiction
    · exact ⟨p, ps, hfifo, (Option.some.inj h).symm⟩

/-- `MAX_RT` is raised for the first payload, which stays. -/
theorem event_failed {c c' : Chip} (h : event .failed c = some c') :
    ∃ p ps, c.txFifo = p :: ps ∧ c' = { c with maxRt := true } := by
  simp only [event] at h
  split at h
  · contradiction
  · next p ps hfifo =>
    split at h
    · contradiction
    · exact ⟨p, ps, hfifo, (Option.some.inj h).symm⟩

/-- The payload at the head has a number. -/
theorem ids_cons {p : TxPayload} {ps : List TxPayload}
    (hlen : g.ids.length = s.chip.txFifo.length) (hfifo : s.chip.txFifo = p :: ps) :
    ∃ j js, g.ids = j :: js := by
  cases hids : g.ids with
  | nil =>
      rw [hids, hfifo] at hlen
      contradiction
  | cons j js => exact ⟨j, js, rfl⟩

theorem log_event (g : Ghost) (e : Event) : ∀ x ∈ g.log, x ∈ (g.event e).log := by
  intro x hx
  cases e with
  | received _ _ => exact hx
  | sent | failed => exact List.mem_append_left _ hx

/-- An event is that of the payload at the head, which is the sender's. -/
theorem Owned.event {e : Event} {c : Chip} (h : Owned id s g)
    (hlen : g.ids.length = s.chip.txFifo.length) (hc : event e s.chip = some c) :
    Owned id (s.setChip c) (g.event e) := by
  have hgrown := h.mono (log_event g e)
  cases e with
  | received rxDr rxFifo =>
      obtain rfl := Option.some.inj hc
      exact ⟨h.mine, h.fifo, h.txDs, h.maxRt, h.carryTxDs, h.carryMaxRt, h.finished⟩
  | sent =>
      obtain ⟨p, ps, hfifo, rfl⟩ := event_sent hc
      obtain ⟨j, js, hids⟩ := ids_cons hlen hfifo
      obtain rfl : j = id := h.fifo j (by rw [hids]; exact List.mem_cons_self)
      have hlog : (j, Outcome.txDs) ∈ (g.event .sent).log := by
        simp [Ghost.event, hids]
      have htail : ∀ i ∈ (g.event .sent).ids, i = j := by
        intro i hi
        exact h.fifo i (List.mem_of_mem_tail hi)
      exact ⟨h.mine, htail, fun _ => hlog, hgrown.maxRt, hgrown.carryTxDs, hgrown.carryMaxRt,
        hgrown.finished⟩
  | failed =>
      obtain ⟨p, ps, hfifo, rfl⟩ := event_failed hc
      obtain ⟨j, js, hids⟩ := ids_cons hlen hfifo
      obtain rfl : j = id := h.fifo j (by rw [hids]; exact List.mem_cons_self)
      have hlog : (j, Outcome.maxRt) ∈ (g.event .failed).log := by
        simp [Ghost.event, hids]
      exact ⟨h.mine, h.fifo, hgrown.txDs, fun _ => hlog, hgrown.carryTxDs, hgrown.carryMaxRt,
        hgrown.finished⟩

theorem mine_event (g : Ghost) (e : Event) : (g.event e).mine = g.mine := by
  cases e <;> rfl

/-- With an empty FIFO the chip has nothing to report. -/
theorem Clean.event {e : Event} {c : Chip} (h : Clean s g) (hc : event e s.chip = some c) :
    Clean (s.setChip c) (g.event e) := by
  cases e with
  | received rxDr rxFifo =>
      obtain rfl := Option.some.inj hc
      exact h
  | sent =>
      obtain ⟨p, ps, hfifo, -⟩ := event_sent hc
      rw [h.1] at hfifo
      contradiction
  | failed =>
      obtain ⟨p, ps, hfifo, -⟩ := event_failed hc
      rw [h.1] at hfifo
      contradiction

/-- Events keep what the sender relies on. -/
theorem Sender.event {e : Event} {c : Chip} (h : Sender s g l)
    (hlen : g.ids.length = s.chip.txFifo.length) (hc : event e s.chip = some c) :
    Sender (s.setChip c) (g.event e) l := by
  cases l with
  | none => trivial
  | some l =>
      cases l with
      | noAck | handler _ => trivial
      | fresh | failed => exact (mine_event g e).trans h
      | cleared =>
          obtain ⟨hmine, hclean, hfin⟩ := h
          exact ⟨(mine_event g e).trans hmine, hclean.event hc, hfin⟩
      | written =>
          obtain ⟨id, hown⟩ := h
          exact ⟨id, hown.event hlen hc⟩
      | read b =>
          obtain ⟨id, hown, hexp, hset⟩ := h
          exact ⟨id, hown.event hlen hc, hexp.mono (log_event g e), hset⟩

/-- The numbers stay as many as the payloads. -/
theorem length_event {e : Event} {c : Chip} (hlen : g.ids.length = s.chip.txFifo.length)
    (hc : event e s.chip = some c) : (g.event e).ids.length = c.txFifo.length := by
  cases e with
  | received rxDr rxFifo =>
      obtain rfl := Option.some.inj hc
      exact hlen
  | sent =>
      obtain ⟨p, ps, hfifo, rfl⟩ := event_sent hc
      rw [hfifo, List.length_cons] at hlen
      show g.ids.tail.length = ps.length
      rw [List.length_tail]
      omega
  | failed =>
      obtain ⟨p, ps, -, rfl⟩ := event_failed hc
      exact hlen

/-- Besides transactions that write, operations change what the handler
carries and nothing else. -/
theorem perform_eq (g : Ghost) (t : Client) (c : Chip) {o : Op} (h : ∀ cmd buf, o ≠ .spiWrite cmd buf)
    (r : o.Res) :
    g.perform t c o r = if t = .irq then { g with carry := g.carry.next o r } else g := by
  cases o with
  | spiWrite cmd buf => exact absurd rfl (h cmd buf)
  | _ => rfl

theorem ids_perform (g : Ghost) (t : Client) (c : Chip) {o : Op}
    (h : ∀ cmd buf, o ≠ .spiWrite cmd buf) (r : o.Res) : (g.perform t c o r).ids = g.ids := by
  rw [perform_eq g t c h]
  split <;> rfl

/-- A payload that is written gets a number if there is room for it. -/
theorem length_written (hlen : g.ids.length = s.chip.txFifo.length) (cmd : Byte)
    (buf : List Byte) :
    (g.written s.chip cmd).ids.length = (s.chip.write cmd buf).txFifo.length := by
  unfold Ghost.written
  by_cases hpay : isPayload cmd = true
  · obtain ⟨p, hp⟩ := write_payload s.chip hpay buf
    rw [if_pos hpay, hp, Ghost.push, Chip.pushTx]
    split
    · simp [hlen]
    · exact hlen
  · rw [if_neg hpay]
    by_cases hflush : cmd = commandFlushTx
    · subst hflush
      rfl
    · have hne : cmd ≠ commandWTxPayload ∧ cmd ≠ commandWTxPayloadNoAck := by
        simpa [isPayload] using hpay
      rw [if_neg hflush, s.chip.write_txFifo hne.1 hne.2 hflush]
      exact hlen

/-- The numbers follow the FIFO. -/
theorem length_perform (hlen : g.ids.length = s.chip.txFifo.length) (t : Client) (o : Op)
    (a : Answer) :
    (g.perform t s.chip o (s.perform o a).2).ids.length =
      (s.perform o a).1.chip.txFifo.length := by
  cases o with
  | spiWrite cmd buf =>
      obtain hf | hw := s.perform_spiWrite a cmd buf
      · rw [hf]
        exact hlen
      · rw [hw]
        exact length_written hlen cmd buf
  | setFinished value =>
      rw [ids_perform g t _ (by simp)]
      exact hlen
  | link callback =>
      rw [ids_perform g t _ (by simp)]
      exact hlen
  | _ =>
      rw [ids_perform g t _ (by simp), (SameTx.perform s rfl a).txFifo]
      exact hlen

/-- The payload write of an acknowledged send: from now on every event is
its own. -/
theorem Owned.push (hlen : g.ids.length = s.chip.txFifo.length) (hclean : Clean s g)
    (hfin : s.handle.finished = 0) (p : TxPayload) :
    Owned g.fresh (s.setChip (s.chip.pushTx p)) (g.push s.chip) := by
  obtain ⟨hfifo, htx, hmax, hcarry⟩ := hclean
  have hids : g.ids = [] := by
    rw [hfifo] at hlen
    exact List.length_eq_zero_iff.mp hlen
  have hpush : s.chip.pushTx p = { s.chip with txFifo := [p] } := by
    simp [Chip.pushTx, hfifo, Chip.fifoSize]
  have hmem : ∀ j ∈ (g.push s.chip).ids, j = g.fresh := by
    simp [Ghost.push, hids, hfifo, Chip.fifoSize]
  rw [hpush]
  refine ⟨rfl, hmem, fun h1 => ?_, fun h1 => ?_, fun h1 => ?_, fun h1 => ?_, .inl hfin⟩
  · have h2 : s.chip.txDs = true := h1
    rw [htx] at h2
    contradiction
  · have h2 : s.chip.maxRt = true := h1
    rw [hmax] at h2
    contradiction
  · have h2 : g.carry.txDs = true := h1
    rw [hcarry] at h2
    contradiction
  · have h2 : g.carry.maxRt = true := h1
    rw [hcarry] at h2
    contradiction

/-- An operation of the sender that leaves the sending side alone. -/
theorem Sender.neutral (h : Sender s g l) {o : Op} (ho : neutral o = true) (a : Answer) :
    Sender (s.perform o a).1 (g.perform .tx s.chip o (s.perform o a).2) l := by
  have hghost : g.perform .tx s.chip o (s.perform o a).2 = g := by
    cases o with
    | spiWrite _ _ => contradiction
    | _ => rfl
  rw [hghost]
  exact h.same (.perform s ho a)

/-- The wait of an acknowledged send reads the flag. -/
theorem Sender.getFinished {l : Phase} (h : Sender s g (some l))
    (hl : l = .written ∨ ∃ b, l = .read b) :
    (∀ b, l = .read b → b ≠ 0 → s.handle.finished ≠ 0) ∧
      Sender s g (some (.read s.handle.finished)) := by
  obtain rfl | ⟨b, rfl⟩ := hl
  · obtain ⟨id, hown⟩ := h
    exact ⟨nofun, id, hown, hown.finished, fun hb => hb⟩
  · obtain ⟨id, hown, -, hset⟩ := h
    refine ⟨fun b' hb' hne => ?_, id, hown, hown.finished, fun hb => hb⟩
    obtain rfl := Phase.read.inj hb'
    exact hset hne

/-- The operations of an acknowledged send. -/
theorem Sender.ack {l : Phase} (h : Sender s g (some l))
    (hlen : g.ids.length = s.chip.txFifo.length) {o : Op} (hpre : ackMonitor.pre l o)
    (hclean : ∀ value, o = .setFinished value → Clean s g) (a : Answer) :
    ackMonitor.may l o (s.perform o a).2 ∧
      Sender (s.perform o a).1 (g.perform .tx s.chip o (s.perform o a).2)
        (some (ackMonitor.next l o (s.perform o a).2)) := by
  cases o with
  | setFinished value =>
      obtain ⟨rfl, rfl⟩ := hpre
      exact ⟨trivial, h, hclean 0 rfl, rfl⟩
  | spiWrite cmd buf =>
      obtain ⟨rfl, hpay⟩ := hpre
      obtain ⟨hmine, hc, hfin⟩ := h
      refine ⟨trivial, ?_⟩
      obtain hf | hw := s.perform_spiWrite a cmd buf
      · rw [hf]
        exact hmine
      · obtain ⟨p, hp⟩ := write_payload s.chip hpay buf
        have hghost : g.perform .tx s.chip (.spiWrite cmd buf) true = g.push s.chip := by
          simp [Ghost.perform, Ghost.written, hpay]
        rw [hw, hghost, hp]
        exact ⟨g.fresh, .push hlen hc hfin p⟩
  | getFinished => exact h.getFinished hpre
  | gpioWrite value => exact ⟨rfl, h.neutral rfl a⟩
  | link _ => contradiction
  | _ => exact ⟨trivial, h.neutral rfl a⟩

end Steps

/-! ## Whole runs -/

/-- Both threads follow their monitors, and the invariant holds. -/
def Inv (c : State) : Prop :=
  ∃ loc, Pool.Follows monitor Done c loc ∧ Tied c.shared loc

theorem inv_start (w : World) : Inv (start w) := by
  refine ⟨fun _ => none, Pool.follows_start _, ?_, rfl, nofun, trivial⟩
  exact List.length_range

theorem carry_perform_tx (g : Ghost) (c : Chip) (o : Op) (r : o.Res) :
    (g.perform .tx c o r).carry = g.carry := by
  cases o with
  | spiWrite cmd buf =>
      simp only [Ghost.perform, Ghost.written, Ghost.push]
      repeat' split
      all_goals rfl
  | _ => rfl

theorem carry_perform_irq (g : Ghost) (c : Chip) (o : Op) (r : o.Res) :
    (g.perform .irq c o r).carry = g.carry.next o r := by
  cases o with
  | spiWrite cmd buf =>
      simp only [Ghost.perform, Ghost.written, Ghost.push]
      repeat' split
      all_goals rfl
  | _ => rfl

section Run

variable {w w' : World} {g : Ghost} {loc : Client → Option Phase}

/-- A call of `nrf24l01_send` begins. -/
theorem Tied.enter_tx (h : Tied (w, g) loc) (hw : w'.radio = w.radio) {l : Phase}
    (hl : l = .fresh ∨ l = .noAck) :
    Tied (w', { g with mine := none }) (Function.update loc .tx (some l)) where
  length := by rw [hw]; exact h.length
  carry := h.carry
  handler := h.handler
  sender := by
    rw [Function.update_self]
    obtain rfl | rfl := hl
    · rfl
    · trivial

/-- A call of the handler begins, with nothing read. -/
theorem Tied.enter_irq (h : Tied (w, g) loc) (hw : w'.radio = w.radio) (hidle : loc .irq = none) :
    Tied (w', g) (Function.update loc .irq (some (.handler .empty))) where
  length := by rw [hw]; exact h.length
  carry := by
    have hcarry := h.carry
    rw [hidle] at hcarry
    exact hcarry
  handler l hl := by
    rw [Function.update_self] at hl
    exact ⟨.empty, (Option.some.inj hl).symm⟩
  sender := by rw [hw]; exact h.sender

/-- An operation of `nrf24l01_send`. -/
theorem Tied.exec_tx (h : Tied (w, g) loc) {l : Phase} {o : Op} {a : Answer}
    (hs : Sender (w.radio.perform o a).1
      (g.perform .tx w.radio.chip o (w.radio.perform o a).2) (some l)) :
    Tied (w.change (w.radio.perform o a).1,
        g.perform .tx w.radio.chip o (w.radio.perform o a).2)
      (Function.update loc .tx (some l)) where
  length := length_perform h.length .tx o a
  carry := (carry_perform_tx g _ o _).trans h.carry
  handler := h.handler
  sender := by rw [Function.update_self]; exact hs

/-- An operation of the handler. -/
theorem Tied.exec_irq (h : Tied (w, g) loc) {l : Phase} (hl : loc .irq = some l) {o : Op}
    (hpre : handlerMonitor.pre l o) (a : Answer) :
    Tied (w.change (w.radio.perform o a).1,
        g.perform .irq w.radio.chip o (w.radio.perform o a).2)
      (Function.update loc .irq
        (some (handlerMonitor.next l o (w.radio.perform o a).2))) := by
  obtain ⟨c, rfl⟩ := h.handler l hl
  have hcarry : g.carry = c := by
    have := h.carry
    rwa [hl] at this
  subst hcarry
  refine ⟨length_perform h.length .irq o a, ?_, fun l' hl' => ?_,
    h.sender.served (served_perform hpre a)⟩
  · rw [Function.update_self]
    exact carry_perform_irq g _ o _
  · rw [Function.update_self] at hl'
    exact ⟨_, (Option.some.inj hl').symm⟩

theorem Tied.leave_tx (h : Tied (w, g) loc) : Tied (w, g) (Function.update loc .tx none) where
  length := h.length
  carry := h.carry
  handler := h.handler
  sender := by rw [Function.update_self]; trivial

theorem Tied.leave_irq (h : Tied (w, g) loc) :
    Tied (w, { g with carry := .empty }) (Function.update loc .irq none) where
  length := h.length
  carry := by rw [Function.update_self]; rfl
  handler l hl := by
    rw [Function.update_self] at hl
    contradiction
  sender := h.sender.served (.of_same (.refl _) nofun nofun)

end Run

/-- The sender clears the flag. -/
theorem clearsFlag_of_job {c : State} {buf : List Byte} {value : Byte}
    {k : Unit → Driver Byte} (h : c.job .tx = some (.send buf true, .op (.setFinished value) k)) :
    clearsFlag c = true := by
  unfold clearsFlag Conf.call
  rw [Conf.next_of_job h, h]
  rfl

/-- Every operation of a thread in a call keeps the invariant. -/
theorem Tied.exec {c : State} {loc : Client → Option Phase} (h : Tied c.shared loc) {t : Client}
    {i : Api} {o : Op} {k : o.Res → Driver Byte} {a : Answer} {l : Phase}
    (hjob : c.job t = some (i, .op o k)) (hl : loc t = some l) (hpre : (monitor t i).pre l o)
    (hok : ClearsClean c (.exec t a)) :
    let x := c.shared.1.radio.perform o a
    (monitor t i).may l o x.2 ∧
      Tied (c.shared.1.change x.1, c.shared.2.perform t c.shared.1.radio.chip o x.2)
        (Function.update loc t (some ((monitor t i).next l o x.2))) := by
  cases t with
  | irq => exact ⟨trivial, h.exec_irq hl hpre a⟩
  | shell => exact hpre.elim
  | tx =>
      have hsender := h.sender
      rw [hl] at hsender
      cases i with
      | send buf useAck =>
          cases useAck with
          | false =>
              obtain rfl : l = .noAck := hpre
              exact ⟨trivial, h.exec_tx trivial⟩
          | true =>
              have hclean : ∀ value, o = .setFinished value →
                  Clean c.shared.1.radio c.shared.2 := by
                intro value ho
                subst ho
                exact hok (clearsFlag_of_job hjob)
              obtain ⟨hmay, hs⟩ := hsender.ack h.length hpre hclean a
              exact ⟨hmay, h.exec_tx hs⟩
      | _ => exact hpre.elim

theorem Tied.leave {w : World} {g : Ghost} {loc : Client → Option Phase} (h : Tied (w, g) loc)
    (t : Client) :
    Tied (w, if t = .irq then { g with carry := .empty } else g)
      (Function.update loc t none) := by
  cases t with
  | tx => exact h.leave_tx
  | irq => exact h.leave_irq
  | shell => exact ⟨h.length, h.carry, h.handler, h.sender⟩

/-- A call begins in step with its monitor. -/
theorem Tied.enter {w w' : World} {g : Ghost} {loc : Client → Option Phase} (h : Tied (w, g) loc)
    {t : Client} {i : Api} (ha : allowed t i = true) (hidle : loc t = none)
    (hw : w'.radio = w.radio) :
    ∃ l, i.code.wp (monitor t i) (Done t i) l ∧
      Tied (w', if t = .tx then { g with mine := none } else g)
        (Function.update loc t (some l)) := by
  cases t with
  | tx =>
      cases i with
      | send buf useAck =>
          cases useAck with
          | false => exact ⟨.noAck, wp_send_noAck buf, h.enter_tx hw (.inr rfl)⟩
          | true => exact ⟨.fresh, wp_send_ack buf, h.enter_tx hw (.inl rfl)⟩
      | _ => contradiction
  | irq =>
      cases i with
      | interruptIrqHandler => exact ⟨.handler .empty, wp_handler, h.enter_irq hw hidle⟩
      | _ => contradiction
  | shell => cases i <;> contradiction

theorem carry_event (g : Ghost) (e : Event) : (g.event e).carry = g.carry := by
  cases e <;> rfl

/-- What every step of a run keeps, if the flag is cleared cleanly. -/
theorem inv_step (c : State) (l : Label) (c' : State) (hc : Inv c) (hok : ClearsClean c l)
    (h : observed.step c l = some c') : Inv c' := by
  refine Pool.step_follows observed ?_ ?_ ?_ ?_ c l c' hc hok h
  · intro c loc t i s' hR hidle _ hs
    obtain ⟨w', hw', rfl⟩ := Option.map_eq_some_iff.mp hs
    obtain ⟨ha, hcases⟩ := enter_system hw'
    have hradio : w'.radio = c.shared.1.radio := by
      obtain ⟨-, -, rfl⟩ | ⟨-, rfl⟩ := hcases <;> rfl
    exact hR.enter ha hidle hradio
  · intro c loc t i o k a l _ hR hjob hl hpre hok
    exact hR.exec hjob hl hpre hok
  · intro c loc t i r l hR _ _ _ _
    exact hR.leave t
  · intro c loc e s' _ hR _ hs
    obtain ⟨w', hw', rfl⟩ := Option.map_eq_some_iff.mp hs
    obtain ⟨chip, hchip, rfl⟩ := Option.map_eq_some_iff.mp hw'
    exact ⟨length_event hR.length hchip, (carry_event _ e).trans hR.carry, hR.handler,
      hR.sender.event hR.length hchip⟩

/-- Only a call with an acknowledgement returns an outcome. -/
theorem returning_cases {c : State} {r : Byte} (h : returning c = some r) :
    ∃ buf, c.job .tx = some (.send buf true, .pure r) := by
  unfold returning at h
  split at h
  · next buf r' hjob =>
    obtain rfl := Option.some.inj h
    exact ⟨buf, hjob⟩
  · contradiction

/-- A status is explained by the events of the send's own payload. -/
theorem Inv.attributed {c : State} (h : Inv c) (l : Label) : Attributed c l := by
  obtain ⟨loc, hfol, hT⟩ := h
  cases l with
  | leave t =>
      cases t with
      | irq | shell => trivial
      | tx =>
          intro r hr
          obtain ⟨buf, hjob⟩ := returning_cases hr
          obtain ⟨l, hl, hdone⟩ := hfol.busy hjob
          have hjust : Justified r l := hdone
          have hsender := hT.sender
          rw [hl] at hsender
          constructor
          · intro h0
            obtain rfl := hjust.1 h0
            obtain ⟨id, hown, hexp, -⟩ := hsender
            obtain hb | ⟨-, hlog⟩ | ⟨hb, -⟩ := hexp
            · contradiction
            · exact ⟨id, hown.mine, hlog⟩
            · contradiction
          · intro h1
            obtain rfl | ⟨b, rfl, hne0, hne1⟩ := hjust.2 h1
            · exact .inl hsender
            · obtain ⟨id, hown, hexp, -⟩ := hsender
              obtain hb | ⟨hb, -⟩ | ⟨-, hlog⟩ := hexp
              · exact absurd hb hne0
              · exact absurd hb hne1
              · exact .inr ⟨id, hown.mine, hlog⟩
  | enter _ _ | exec _ _ | env _ => trivial

/-- In every run in which the acknowledged sends clear the flag cleanly,
each gets the status of its own payload. -/
theorem attributed_of_clearsClean (w : World) (ls : List Label)
    (hok : Along observed.step ClearsClean (start w) ls) :
    Along observed.step Attributed (start w) ls :=
  along_of_along inv_step (fun _ l hI _ => hI.attributed l) (inv_start w) hok

/-! ## A clean run and a borrowed acknowledgement -/

def sampleWorld : World := ⟨sampleRadio, false⟩

/-- The next `n` operations of a thread. -/
def execs (t : Client) (n : Nat) : List Label := List.replicate n (.exec t .ok)

/-- A send up to its wait. -/
def sends (payload : List Byte) (useAck : Bool) : List Label :=
  .enter .tx (.send payload useAck) :: execs .tx 6

/-- The handler serves `TX_DS`. -/
def handles : List Label := .enter .irq .interruptIrqHandler :: execs .irq 8 ++ [.leave .irq]

/-- The first payload is sent and served before the acknowledged one. -/
def cleanRun : List Label :=
  List.flatten [
    sends [0x01#8] false, [.leave .tx, .env .sent], handles,
    sends [0x02#8] true, [.env .sent], handles, execs .tx 2, [.leave .tx]]

theorem attributed_of_clearsClean_cleanRun :
    (run observed.step (start sampleWorld) cleanRun).isSome = true ∧
      Along observed.step ClearsClean (start sampleWorld) cleanRun ∧
      Along observed.step Attributed (start sampleWorld) cleanRun :=
  ⟨rfl, by decide, attributed_of_clearsClean sampleWorld cleanRun (by decide)⟩

/-- The first payload is still in the FIFO when the acknowledged send clears
the flag. -/
def borrowedRun : List Label :=
  List.flatten [
    sends [0x01#8] false, [.leave .tx], sends [0x02#8] true, [.env .sent], handles,
    execs .tx 2, [.leave .tx]]

/-- The second send returns 0 for the `TX_DS` of the first. -/
theorem borrowed_acknowledgement :
    (run observed.step (start sampleWorld) borrowedRun).isSome = true ∧
      ¬ Along observed.step Attributed (start sampleWorld) borrowedRun :=
  ⟨rfl, by decide⟩

end Attribution

end DsEthComm.Nrf24l01
