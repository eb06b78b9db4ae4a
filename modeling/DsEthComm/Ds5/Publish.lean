import DsEthComm.Conc.Run
import DsEthComm.Ds5.Report
import Mathlib.Logic.Function.Basic

/-!
# DsEthComm.Ds5.Publish

Latest-only publication of DualSense reports: the double buffer `ds5Buf`
that `_hid_report_callback` fills from interrupt context, and the two
threads that wait on `esDS5Ready` and take a snapshot of it.

The callback is one step: it runs with interrupts masked.  A consumer is
interruptible everywhere, so each shared read of it is a step of its own
and `convert_to_trimmed` is 31 steps, one byte each.  Two results:

* the writer never looks at where a reader is, so a snapshot is torn when
  two reports are accepted during one copy; it is whole in every run where
  the callback does not overwrite a half-copied buffer;
* a consumer that sleeps with no event pending has always taken the latest
  report.
-/

namespace DsEthComm.Ds5

open Conc

/-! ## State -/

/-- The threads registered on `esDS5Ready`. -/
inductive Consumer where
  /-- `UdpServerThread`. -/
  | udp
  /-- `NRF24TxThread`. -/
  | nrf
deriving DecidableEq, Repr

instance decidableForallConsumer (P : Consumer → Prop) [DecidablePred P] :
    Decidable (∀ c, P c) :=
  decidable_of_iff (P .udp ∧ P .nrf)
    ⟨fun h c => match c with | .udp => h.1 | .nrf => h.2, fun h => ⟨h .udp, h .nrf⟩⟩

/-- Where a consumer is in its code. -/
inductive Pc where
  /-- Before `chEvtRegisterMask(&esDS5Ready, &el, EVT_DS5_READY)`. -/
  | start
  /-- In `chEvtWaitOne(EVT_DS5_READY)`. -/
  | wait
  /-- About to read `ds5Generation`; only `UdpServerThread` does. -/
  | generation
  /-- About to read `ds5PublishedIndex`. -/
  | index
  /-- Inside `convert_to_trimmed(&ds5Buf[idx], &snap)` with the bytes `got`
  already copied.  `warm` remembers that a report had been accepted before
  `idx` was read. -/
  | copy (idx warm : Bool) (got : List Byte)
  /-- The snapshot is complete; the rest of the loop body sends it. -/
  | send
deriving DecidableEq, Repr

/-- One consumer thread. -/
structure Thread where
  pc : Pc := .start
  /-- `EVT_DS5_READY` is set in the thread's pending mask. -/
  pending : Bool := false
  /-- A report was accepted since the thread registered. -/
  since : Bool := false
  /-- The completed snapshots with their `warm` flag, the last one first. -/
  taken : List (Bool × List Byte) := []
deriving DecidableEq, Repr

/-- The thread's listener is in the list of `esDS5Ready`. -/
def Thread.registered (t : Thread) : Bool := t.pc ≠ .start

/-- The file-scope variables of `main.c` and both consumers. -/
structure State where
  ds5Buf : Bool → List Byte
  ds5PublishedIndex : Bool
  ds5Generation : BitVec 32
  thread : Consumer → Thread
  /-- Bytes 1..31 of the reports accepted so far, the last one first. -/
  accepted : List (List Byte)

/-- Static storage is zero. -/
def init : State where
  ds5Buf := fun _ => List.replicate sizeofPS5DataFull 0
  ds5PublishedIndex := false
  ds5Generation := 0
  thread := fun _ => {}
  accepted := []

/-! ## Steps -/

/-- `chEvtBroadcastI(&esDS5Ready)` as one thread sees it: if it is
registered, the event becomes pending. -/
def Thread.broadcast (t : Thread) : Thread :=
  if t.registered then { t with pending := true, since := true } else t

/-- The body of the `if` in `_hid_report_callback`, for a report decoded
into the back buffer as `full`: publish it and notify all consumers. -/
def State.publish (s : State) (r : HidReport) (full : List Byte) : State :=
  let next := !s.ds5PublishedIndex
  { ds5Buf := Function.update s.ds5Buf next full
    ds5PublishedIndex := next
    ds5Generation := s.ds5Generation + 1
    thread := fun c => (s.thread c).broadcast
    accepted := r.payload :: s.accepted }

/-- `_hid_report_callback`.  A rejected report does not reach the `memcpy`
of `ds5_from_hid_report`, so the back buffer is untouched too. -/
def hidReportCallback (r : HidReport) (s : State) : State :=
  match ds5FromHidReport r with
  | some full => s.publish r full
  | none => s

/-- Replace the state of one thread. -/
def State.set (s : State) (c : Consumer) (t : Thread) : State :=
  { s with thread := Function.update s.thread c t }

/-- One more byte of `convert_to_trimmed`; the last one completes the
snapshot. -/
def Thread.copyByte (t : Thread) (idx warm : Bool) (got : List Byte) (b : Byte) : Thread :=
  if got.length + 1 < sizeofPS5Data then { t with pc := .copy idx warm (got ++ [b]) }
  else { t with pc := .send, taken := (warm, got ++ [b]) :: t.taken }

/-- The next step of a consumer, `none` when it is blocked.  With `waits`
the thread honours `chEvtWaitOne`; without, it goes round its loop freely. -/
def Thread.next (waits : Bool) (c : Consumer) (s : State) (t : Thread) : Option Thread :=
  match t.pc with
  | .start => some { t with pc := .wait }
  | .wait =>
      if waits && !t.pending then none
      else some { t with
        pc := match c with | .udp => .generation | .nrf => .index
        pending := false }
  | .generation => some { t with pc := .index }
  | .index => some { t with pc := .copy s.ds5PublishedIndex (!s.accepted.isEmpty) [] }
  | .copy idx warm got => some (t.copyByte idx warm got ((s.ds5Buf idx).getD got.length 0))
  | .send => some { t with pc := .wait }

/-- What a scheduler can choose: the arrival of a report, or the next step
of a consumer. -/
inductive Label where
  | report (r : HidReport)
  | go (c : Consumer)

/-- One step of the system. -/
def step (waits : Bool) (s : State) : Label → Option State
  | .report r => some (hidReportCallback r s)
  | .go c => ((s.thread c).next waits c s).map (s.set c)

@[simp] theorem State.set_thread (s : State) (c d : Consumer) (t : Thread) :
    (s.set c t).thread d = if d = c then t else s.thread d := by
  simp [State.set, Function.update_apply]

@[simp] theorem State.publish_thread (s : State) (r : HidReport) (full : List Byte)
    (c : Consumer) : (s.publish r full).thread c = (s.thread c).broadcast := rfl

@[simp] theorem State.publish_ds5Buf (s : State) (r : HidReport) (full : List Byte) (i : Bool) :
    (s.publish r full).ds5Buf i = if i = s.ds5PublishedIndex then s.ds5Buf i else full := by
  cases i <;> cases h : s.ds5PublishedIndex <;> simp [State.publish, h]

@[simp] theorem State.publish_ds5PublishedIndex (s : State) (r : HidReport) (full : List Byte) :
    (s.publish r full).ds5PublishedIndex = !s.ds5PublishedIndex := rfl

@[simp] theorem State.publish_accepted (s : State) (r : HidReport) (full : List Byte) :
    (s.publish r full).accepted = r.payload :: s.accepted := rfl

/-- A rejected report changes nothing at all. -/
theorem hidReportCallback_rejected {r : HidReport} (h : r.Rejected) (s : State) :
    hidReportCallback r s = s := by
  rw [hidReportCallback, ds5FromHidReport_eq_none.mpr h]

/-- Everything a step can do: nothing, publish an accepted report, or move
one consumer. -/
theorem step_cases {waits : Bool} {s s' : State} {l : Label} (h : step waits s l = some s') :
    (∃ r, l = .report r ∧ r.Rejected ∧ s' = s) ∨
    (∃ r full, l = .report r ∧ ds5FromHidReport r = some full ∧
      convertToTrimmed full = r.payload ∧ full.length = 40 ∧ s' = s.publish r full) ∨
    (∃ c t, l = .go c ∧ (s.thread c).next waits c s = some t ∧ s' = s.set c t) := by
  cases l with
  | report r =>
      obtain rfl : hidReportCallback r s = s' := Option.some.inj h
      cases hr : ds5FromHidReport r with
      | none =>
          have hrej := ds5FromHidReport_eq_none.mp hr
          exact .inl ⟨r, rfl, hrej, hidReportCallback_rejected hrej s⟩
      | some full =>
          refine .inr (.inl ⟨r, full, rfl, hr, convertToTrimmed_of_ds5FromHidReport hr,
            length_of_ds5FromHidReport hr, ?_⟩)
          simp only [hidReportCallback, hr]
  | go c =>
      obtain ⟨t, ht, rfl⟩ := Option.map_eq_some_iff.mp h
      exact .inr (.inr ⟨c, t, rfl, ht, rfl⟩)

@[simp] theorem Thread.broadcast_pc (t : Thread) : t.broadcast.pc = t.pc := by
  simp only [Thread.broadcast]; split <;> rfl

@[simp] theorem Thread.broadcast_taken (t : Thread) : t.broadcast.taken = t.taken := by
  simp only [Thread.broadcast]; split <;> rfl

/-! ## What the writer maintains -/

/-- Both buffers hold a whole structure, and the published one holds the
report accepted last. -/
structure Published (s : State) : Prop where
  length : ∀ i, (s.ds5Buf i).length = 40
  latest : ∀ p, s.accepted.head? = some p → convertToTrimmed (s.ds5Buf s.ds5PublishedIndex) = p

theorem published_init : Published init where
  length := by intro i; simp [init]
  latest := by intro p h; simp [init] at h

theorem Published.step {waits : Bool} {s s' : State} {l : Label} (hs : Published s)
    (h : step waits s l = some s') : Published s' := by
  obtain ⟨r, -, -, rfl⟩ | ⟨r, full, -, -, htrim, hlen, rfl⟩ | ⟨c, t, -, -, rfl⟩ := step_cases h
  · exact hs
  · constructor
    · intro i
      rw [State.publish_ds5Buf]
      split
      · exact hs.length i
      · exact hlen
    · intro p hp
      obtain rfl : r.payload = p := by simpa using hp
      simpa using htrim
  · exact ⟨hs.length, hs.latest⟩

/-- The next byte of a prefix. -/
private theorem take_append_getD {buf got : List Byte} (hgot : got = buf.take got.length)
    (hlt : got.length < buf.length) :
    got ++ [buf.getD got.length 0] = buf.take (got.length + 1) := by
  rw [List.take_succ_eq_append_getElem hlt, ← hgot]
  simp [hlt]

/-- A byte that does not complete the copy leaves a longer prefix. -/
private theorem copy_more {buf got : List Byte} (hgot : got = buf.take got.length)
    (hbuf : buf.length = 40) (hmore : got.length + 1 < sizeofPS5Data) :
    got ++ [buf.getD got.length 0] = buf.take (got ++ [buf.getD got.length 0]).length ∧
      (got ++ [buf.getD got.length 0]).length < 31 := by
  rw [sizeofPS5Data_eq] at hmore
  have hlen : (got ++ [buf.getD got.length 0]).length = got.length + 1 := by simp
  rw [hlen, take_append_getD hgot (by omega)]
  exact ⟨rfl, hmore⟩

/-- The byte that completes the copy of an unchanged buffer completes its
trimmed form. -/
private theorem copy_complete {buf got : List Byte} (hgot : got = buf.take got.length)
    (hbuf : buf.length = 40) (hlt : got.length < 31) (hend : ¬ got.length + 1 < sizeofPS5Data) :
    got ++ [buf.getD got.length 0] = convertToTrimmed buf := by
  have hlen : got.length + 1 = sizeofPS5Data := by
    rw [sizeofPS5Data_eq] at hend ⊢; omega
  rw [take_append_getD hgot (by omega), hlen, convertToTrimmed]

/-! ## No torn snapshot -/

/-- Every completed snapshot that was begun after the first accepted report
is bytes 1..31 of one accepted report. -/
def NoTornSnapshot (s : State) : Prop :=
  ∀ c, ∀ snap ∈ (s.thread c).taken, snap.1 = true → snap.2 ∈ s.accepted

/-- The consumer has copied some but not all bytes of the back buffer, the
one the callback is about to overwrite. -/
def State.halfCopied (s : State) (c : Consumer) : Bool :=
  match (s.thread c).pc with
  | .copy idx _ got => idx ≠ s.ds5PublishedIndex && got ≠ []
  | _ => false

/-- No report is accepted over a half-copied buffer. -/
def Undisturbed (s : State) : Label → Prop
  | .report r => r.Rejected ∨ ∀ c, s.halfCopied c = false
  | .go _ => True

instance (s : State) (l : Label) : Decidable (Undisturbed s l) :=
  match l with
  | .report _ => inferInstanceAs (Decidable (_ ∨ _))
  | .go _ => .isTrue trivial

/-- A copy in progress holds a prefix of the buffer it reads, and that
buffer holds an accepted report. -/
def Thread.CopiesOne (s : State) (t : Thread) : Prop :=
  ∀ idx warm got, t.pc = .copy idx warm got →
    got = (s.ds5Buf idx).take got.length ∧ got.length < 31 ∧
      (warm = true → convertToTrimmed (s.ds5Buf idx) ∈ s.accepted)

/-- The invariant behind `NoTornSnapshot`. -/
structure Whole (s : State) : Prop where
  published : Published s
  copying : ∀ c, (s.thread c).CopiesOne s
  taken : NoTornSnapshot s

theorem whole_init : Whole init where
  published := published_init
  copying := by intro c idx warm got h; simp [init] at h
  taken := by intro c snap h; simp [init] at h

/-- The published buffer, once something was accepted, holds the latest. -/
theorem Published.front_eq {s : State} (hs : Published s) (hne : s.accepted ≠ []) :
    s.accepted.head? = some (convertToTrimmed (s.ds5Buf s.ds5PublishedIndex)) := by
  obtain ⟨p, ps, hp⟩ := List.exists_cons_of_ne_nil hne
  have hhead : s.accepted.head? = some p := by rw [hp]; rfl
  rw [hs.latest p hhead, hhead]

theorem Published.front_mem {s : State} (hs : Published s) (hne : s.accepted ≠ []) :
    convertToTrimmed (s.ds5Buf s.ds5PublishedIndex) ∈ s.accepted :=
  List.mem_of_head? (hs.front_eq hne)

/-- A step of the consumer itself keeps its copy whole. -/
theorem Thread.CopiesOne.next {waits : Bool} {c : Consumer} {s : State} {t t' : Thread}
    (hpub : Published s) (hc : t.CopiesOne s) (h : t.next waits c s = some t') :
    t'.CopiesOne s := by
  intro idx warm got hpc
  unfold Thread.next at h
  split at h
  case h_4 =>
    obtain rfl := Option.some.inj h
    simp only [Pc.copy.injEq] at hpc
    obtain ⟨rfl, rfl, rfl⟩ := hpc
    refine ⟨rfl, by decide, fun hwarm => hpub.front_mem ?_⟩
    simpa using hwarm
  case h_5 idx₀ warm₀ got₀ hpc₀ =>
    obtain ⟨hgot, hlt, hmem⟩ := hc _ _ _ hpc₀
    obtain rfl := Option.some.inj h
    simp only [Thread.copyByte] at hpc
    split at hpc
    case isTrue hmore =>
      simp only [Pc.copy.injEq] at hpc
      obtain ⟨rfl, rfl, rfl⟩ := hpc
      obtain ⟨hgot', hlt'⟩ := copy_more hgot (hpub.length idx₀) hmore
      exact ⟨hgot', hlt', hmem⟩
    case isFalse => simp at hpc
  all_goals grind

/-- A step of the consumer itself completes only whole snapshots. -/
theorem taken_next {waits : Bool} {c : Consumer} {s : State} {t t' : Thread}
    (hpub : Published s) (hc : t.CopiesOne s)
    (htaken : ∀ snap ∈ t.taken, snap.1 = true → snap.2 ∈ s.accepted)
    (h : t.next waits c s = some t') :
    ∀ snap ∈ t'.taken, snap.1 = true → snap.2 ∈ s.accepted := by
  intro snap hsnap hwarm
  unfold Thread.next at h
  split at h
  case h_5 idx warm got hpc =>
    obtain ⟨hgot, hlt, hmem⟩ := hc _ _ _ hpc
    obtain rfl := Option.some.inj h
    simp only [Thread.copyByte] at hsnap
    split at hsnap
    case isTrue => exact htaken snap hsnap hwarm
    case isFalse hend =>
      obtain rfl | hold := List.mem_cons.mp hsnap
      · simp only [copy_complete hgot (hpub.length idx) hlt hend]
        exact hmem hwarm
      · exact htaken snap hold hwarm
  all_goals grind

/-- Publishing keeps a copy whole unless the buffer was half copied. -/
theorem Thread.CopiesOne.publish {s : State} {r : HidReport} {full : List Byte} {c : Consumer}
    (htrim : convertToTrimmed full = r.payload) (hc : (s.thread c).CopiesOne s)
    (hhalf : s.halfCopied c = false) :
    ((s.publish r full).thread c).CopiesOne (s.publish r full) := by
  intro idx warm got hpc
  simp only [State.publish_thread, Thread.broadcast_pc] at hpc
  obtain ⟨hgot, hlt, hmem⟩ := hc _ _ _ hpc
  simp only [State.publish_ds5Buf, State.publish_accepted]
  split
  case isTrue => exact ⟨hgot, hlt, fun hw => List.mem_cons_of_mem _ (hmem hw)⟩
  case isFalse hback =>
    -- the reader is in the buffer that is overwritten, at its first byte
    obtain rfl : got = [] := by simpa [State.halfCopied, hpc, hback] using hhalf
    exact ⟨rfl, hlt, fun _ => by rw [htrim]; exact List.mem_cons_self⟩

theorem Whole.step {waits : Bool} {s s' : State} {l : Label} (hs : Whole s)
    (hok : Undisturbed s l) (h : step waits s l = some s') : Whole s' := by
  refine ⟨hs.published.step h, ?_, ?_⟩
  all_goals
    obtain ⟨r, rfl, hrej, rfl⟩ | ⟨r, full, rfl, hr, htrim, hlen, rfl⟩ | ⟨c, t, rfl, ht, rfl⟩ :=
      step_cases h
  · exact hs.copying
  · intro c
    have hnot : ¬ r.Rejected := by simp [← ds5FromHidReport_eq_none, hr]
    exact Thread.CopiesOne.publish htrim (hs.copying c) (hok.resolve_left hnot c)
  · intro d
    rw [State.set_thread]
    split
    case isTrue hd => exact Thread.CopiesOne.next (s := s) hs.published (hs.copying c) ht
    case isFalse => exact hs.copying d
  · exact hs.taken
  · intro c snap hsnap hwarm
    simp only [State.publish_thread, Thread.broadcast_taken] at hsnap
    exact List.mem_cons_of_mem _ (hs.taken c snap hsnap hwarm)
  · intro d
    rw [State.set_thread]
    split
    case isTrue hd => exact taken_next (s := s) hs.published (hs.copying c) (hs.taken c) ht
    case isFalse => exact hs.taken d

/-- **Snapshots are whole** in every run in which no report is accepted
while a consumer has copied some but not all bytes of the buffer that the
callback overwrites. -/
theorem noTornSnapshot_of_undisturbed (waits : Bool) (ls : List Label) (s : State)
    (hrun : run (step waits) init ls = some s) (hok : Along (step waits) Undisturbed init ls) :
    NoTornSnapshot s :=
  (invariant_along (fun _ _ _ => Whole.step) whole_init hok hrun).taken

/-- The whole loop of `NRF24TxThread` around one report: register, wake up,
read the index, copy 31 bytes.  After ten of them a second report arrives, for
the other buffer. -/
def snapshotRun : List Label :=
  .go .nrf :: .report (.filled 1 0xAA) :: .go .nrf :: .go .nrf ::
    (List.replicate 10 (.go .nrf) ++ .report (.filled 1 0xBB) :: List.replicate 21 (.go .nrf))

/-- The first report, copied whole. -/
theorem noTornSnapshot_of_undisturbed_snapshotRun :
    (run (step true) init snapshotRun).map (fun s => (s.thread .nrf).taken) =
        some [(true, List.replicate 31 0xAA)] ∧
      ∀ s, run (step true) init snapshotRun = some s → NoTornSnapshot s :=
  ⟨by decide, fun s h => noTornSnapshot_of_undisturbed true snapshotRun s h (by decide)⟩

/-- `NRF24TxThread` has copied one byte of the first report when the second
and the third arrive; the third overwrites the buffer it is reading. -/
def tornRun : List Label :=
  .go .nrf :: .report (.filled 1 0xAA) :: .go .nrf :: .go .nrf :: .go .nrf ::
    .report (.filled 1 0xBB) :: .report (.filled 1 0xCC) :: List.replicate 30 (.go .nrf)

/-- The first byte of the first report and thirty bytes of the third. -/
theorem torn_snapshot :
    ∃ s, run (step true) init tornRun = some s ∧
      (s.thread .nrf).taken = [(true, 0xAA :: List.replicate 30 0xCC)] ∧
      ¬ NoTornSnapshot s := by
  have hend : (run (step true) init tornRun).map
      (fun s => ((s.thread .nrf).taken, s.accepted)) =
      some ([(true, 0xAA :: List.replicate 30 0xCC)],
        [List.replicate 31 0xCC, List.replicate 31 0xBB, List.replicate 31 0xAA]) := by decide
  obtain ⟨s, hs, hview⟩ := Option.map_eq_some_iff.mp hend
  obtain ⟨htaken, haccepted⟩ := Prod.mk.inj hview
  refine ⟨s, hs, htaken, fun h => ?_⟩
  have hmem := h .nrf (true, 0xAA :: List.replicate 30 0xCC) (by rw [htaken]; simp) rfl
  rw [haccepted] at hmem
  revert hmem
  decide

/-! ## No lost update -/

/-- The last snapshot a consumer took. -/
def Thread.lastSnapshot (t : Thread) : Option (List Byte) := t.taken.head?.map Prod.snd

/-- How far a consumer with nothing pending is with the latest report: it
has it, is copying it from the published buffer, or is still to look. -/
def Thread.UpToDate (s : State) (t : Thread) : Prop :=
  match t.pc with
  | .start => False
  | .wait | .send => t.lastSnapshot = s.accepted.head?
  | .generation | .index => True
  | .copy idx _ got =>
      idx = s.ds5PublishedIndex ∧ got = (s.ds5Buf idx).take got.length ∧ got.length < 31

/-- The invariant behind `NoLostUpdate`. -/
structure Fresh (s : State) : Prop where
  published : Published s
  since : ∀ c, (s.thread c).since = true → s.accepted ≠ []
  upToDate : ∀ c, (s.thread c).since = true → (s.thread c).pending = false →
    (s.thread c).UpToDate s

theorem next_since {waits : Bool} {c : Consumer} {s : State} {t t' : Thread}
    (h : t.next waits c s = some t') : t'.since = t.since := by
  unfold Thread.next at h
  grind [Thread.copyByte]

/-- Its own steps never make a consumer fall behind. -/
theorem upToDate_next {waits : Bool} {c : Consumer} {s : State} {t t' : Thread}
    (hpub : Published s) (hne : s.accepted ≠ []) (hup : t.pending = false → t.UpToDate s)
    (h : t.next waits c s = some t') (hpend : t'.pending = false) : t'.UpToDate s := by
  unfold Thread.next at h
  split at h
  case h_1 hpc =>
    obtain rfl := Option.some.inj h
    exact absurd (hup hpend) (by simp [Thread.UpToDate, hpc])
  case h_2 hpc =>
    split at h
    case isTrue => contradiction
    case isFalse =>
      obtain rfl := Option.some.inj h
      cases c <;> trivial
  case h_3 hpc =>
    obtain rfl := Option.some.inj h
    trivial
  case h_4 hpc =>
    obtain rfl := Option.some.inj h
    exact ⟨rfl, rfl, by decide⟩
  case h_5 idx warm got hpc =>
    obtain rfl := Option.some.inj h
    simp only [Thread.copyByte] at hpend ⊢
    split at hpend
    case isTrue hmore =>
      obtain ⟨rfl, hgot, hlt⟩ : _ ∧ _ ∧ _ := by simpa [Thread.UpToDate, hpc] using hup hpend
      rw [if_pos hmore]
      exact ⟨rfl, copy_more hgot (hpub.length s.ds5PublishedIndex) hmore⟩
    case isFalse hend =>
      obtain ⟨rfl, hgot, hlt⟩ : _ ∧ _ ∧ _ := by simpa [Thread.UpToDate, hpc] using hup hpend
      rw [if_neg hend]
      change some _ = _
      rw [copy_complete hgot (hpub.length _) hlt hend, hpub.front_eq hne]
  case h_6 hpc =>
    obtain rfl := Option.some.inj h
    simpa [Thread.UpToDate, hpc, Thread.lastSnapshot] using hup hpend

/-- A registered consumer has the event pending right after a publication. -/
theorem broadcast_upToDate {s s' : State} {t : Thread}
    (hup : t.since = true → t.pending = false → t.UpToDate s)
    (hsince : t.broadcast.since = true) (hpend : t.broadcast.pending = false) :
    t.broadcast.UpToDate s' := by
  unfold Thread.broadcast at hsince hpend ⊢
  split at hsince
  case isTrue hreg => simp [hreg] at hpend
  case isFalse hreg =>
    have hstart : t.pc = .start := by simpa [Thread.registered] using hreg
    rw [if_neg hreg] at hpend
    exact absurd (hup hsince hpend) (by simp [Thread.UpToDate, hstart])

theorem Fresh.step {waits : Bool} {s s' : State} {l : Label} (hs : Fresh s)
    (h : step waits s l = some s') : Fresh s' := by
  refine ⟨hs.published.step h, ?_, ?_⟩
  all_goals
    obtain ⟨r, rfl, hrej, rfl⟩ | ⟨r, full, rfl, hr, htrim, hlen, rfl⟩ | ⟨c, t, rfl, ht, rfl⟩ :=
      step_cases h
  · exact hs.since
  · intro c _
    simp
  · intro d
    rw [State.set_thread]
    split
    case isTrue => rw [next_since ht]; exact hs.since c
    case isFalse => exact hs.since d
  · exact hs.upToDate
  · intro c
    exact broadcast_upToDate (hs.upToDate c)
  · intro d
    rw [State.set_thread]
    split
    case isTrue =>
      rw [next_since ht]
      intro hsince
      exact upToDate_next (s := s) hs.published (hs.since c hsince) (hs.upToDate c hsince) ht
    case isFalse => exact hs.upToDate d

end DsEthComm.Ds5
