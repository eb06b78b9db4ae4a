import DsEthComm.Rtt.Link.Read

/-!
# DsEthComm.Rtt.Link

The runs of a ring.  The reader gets the bytes that were written, in their
order, each once.

The proof numbers the bytes: the writer only stores beyond the last published
byte and less than a turn beyond the last byte read, the reader only loads
what is published, and each side needs no more than a lower bound of what
the other has left to it.
-/

namespace DsEthComm.Rtt

open Conc Cyclic

variable {d : Desc} {τ : Type} [DecidableEq τ]

/-! ## Whole runs -/

/-- A call that writes and the ring agree.  `taken` is the number of bytes
that `RdOff` has passed. -/
structure Writes (d : Desc) (taken : Nat) (x : Shared τ × Log) (t : τ) (w : Writer) : Prop where
  owner : x.1.writer = some t
  wr : w.wr = x.1.ring.wrOff
  active : w.active = x.1.ring.activeTerminal
  first : w.first = x.2.room
  room : x.2.published.length + w.room < taken + d.sizeOfBuffer
  fits : w.staged.length ≤ w.room
  staged : Holds d.sizeOfBuffer x.1.ring.buffer x.2.published.length w.staged
  out : x.2.published.drop x.2.mark = w.out
  mark : x.2.mark ≤ x.2.published.length

/-- A call that reads and the ring agree. -/
structure Reads (taken : Nat) (x : Shared τ × Log) (t : τ) (r : Reader) : Prop where
  owner : x.1.reader = some t
  rd : r.rd = x.1.ring.rdOff
  avail : taken + r.avail ≤ x.2.published.length
  fits : r.got.length ≤ r.avail
  got : r.got = (x.2.published.drop taken).take r.got.length
  consumed : x.2.received ++ r.consumed = x.2.published.take taken

/-- A call and the ring agree. -/
def Tied (d : Desc) (taken : Nat) (x : Shared τ × Log) (t : τ) : Local → Prop
  | .writing w => Writes d taken x t w
  | .reading r => Reads taken x t r

/-- The numbers of the bytes, the offsets and the calls agree. -/
structure Agree (d : Desc) (taken : Nat) (x : Shared τ × Log) (loc : τ → Option Local) :
    Prop where
  wrOff : x.1.ring.wrOff = x.2.published.length % d.sizeOfBuffer
  rdOff : x.1.ring.rdOff = taken % d.sizeOfBuffer
  passed : taken ≤ x.2.published.length
  fits : x.2.published.length < taken + d.sizeOfBuffer
  holds : Holds d.sizeOfBuffer x.1.ring.buffer taken (x.2.published.drop taken)
  received : x.2.received <+: x.2.published.take taken
  idle : x.1.reader = none → x.2.received = x.2.published.take taken
  calls : ∀ t l, loc t = some l → Tied d taken x t l

section Steps

variable {s : Shared τ} {g : Log} {loc : τ → Option Local} {taken : Nat} {t : τ}

omit [DecidableEq τ] in
/-- What a writer relies on stays, whatever a reader does. -/
theorem Writes.frame {w : Writer} {s' : Shared τ} {g' : Log} (h : Writes d taken (s, g) t w)
    (howner : s'.writer = s.writer) (hring : s'.ring = s.ring)
    (hpublished : g'.published = g.published) (hmark : g'.mark = g.mark)
    (hroom : g'.room = g.room) :
    Writes d taken (s', g') t w := by
  constructor
  case owner => exact howner.trans h.owner
  case wr => simpa [hring] using h.wr
  case active => simpa [hring] using h.active
  case first => exact h.first.trans hroom.symm
  case room => simpa [hpublished] using h.room
  case fits => exact h.fits
  case staged => simpa [hring, hpublished] using h.staged
  case out => simpa [hpublished, hmark] using h.out
  case mark => simpa [hpublished, hmark] using h.mark

omit [DecidableEq τ] in
/-- What a reader relies on stays, whatever a writer does. -/
theorem Reads.frame {r : Reader} {s' : Shared τ} {g' : Log} (h : Reads taken (s, g) t r)
    (howner : s'.reader = s.reader) (hrd : s'.ring.rdOff = s.ring.rdOff)
    (hpublished : g'.published = g.published) (hreceived : g'.received = g.received) :
    Reads taken (s', g') t r := by
  constructor
  case owner => exact howner.trans h.owner
  case rd => simpa [hrd] using h.rd
  case avail => simpa [hpublished] using h.avail
  case fits => exact h.fits
  case got => simpa [hpublished] using h.got
  case consumed => simpa [hpublished, hreceived] using h.consumed

omit [DecidableEq τ] in
/-- An empty ring agrees with no calls. -/
theorem agree_start : Agree d 0 ((⟨.initial, none, none⟩, ⟨[], 0, 0, []⟩) : Shared τ × Log)
    (fun _ => none) where
  wrOff := by simp [Ring.initial]
  rdOff := by simp [Ring.initial]
  passed := Nat.le_refl _
  fits := by simpa using d.size_pos
  holds := holds_nil _ _
  received := List.nil_prefix
  idle := by simp
  calls := nofun

omit [DecidableEq τ] in
theorem Agree.wrOff_lt (h : Agree d taken (s, g) loc) : s.ring.wrOff < d.sizeOfBuffer :=
  h.wrOff ▸ Nat.mod_lt _ d.size_pos

omit [DecidableEq τ] in
theorem Agree.rdOff_lt (h : Agree d taken (s, g) loc) : s.ring.rdOff < d.sizeOfBuffer :=
  h.rdOff ▸ Nat.mod_lt _ d.size_pos

omit [DecidableEq τ] in
/-- No other call writes. -/
theorem Agree.others_read (h : Agree d taken (s, g) loc) (ht : s.writer = some t)
    {u : τ} {l : Local} (hu : u ≠ t) (hl : loc u = some l) : ∃ r, l = .reading r := by
  have htied := h.calls u l hl
  cases l with
  | writing w =>
      have howner := htied.owner
      simp only [ht, Option.some.injEq] at howner
      exact absurd howner.symm hu
  | reading r => exact ⟨r, rfl⟩

omit [DecidableEq τ] in
/-- No other call reads. -/
theorem Agree.others_write (h : Agree d taken (s, g) loc) (ht : s.reader = some t)
    {u : τ} {l : Local} (hu : u ≠ t) (hl : loc u = some l) : ∃ w, l = .writing w := by
  have htied := h.calls u l hl
  cases l with
  | writing w => exact ⟨w, rfl⟩
  | reading r =>
      have howner := htied.owner
      simp only [ht, Option.some.injEq] at howner
      exact absurd howner.symm hu

/-- A writer begins with the free cells that it finds. -/
theorem Agree.enter_writing (h : Agree d taken (s, g) loc) (hidle : s.writer = none) :
    Agree d taken ({ s with writer := some t },
        { g with
          mark := g.published.length
          room := free d.sizeOfBuffer s.ring.rdOff s.ring.wrOff })
      (Function.update loc t (some (.writing (.start d s.ring)))) where
  wrOff := h.wrOff
  rdOff := h.rdOff
  passed := h.passed
  fits := h.fits
  holds := h.holds
  received := h.received
  idle := h.idle
  calls := by
    refine Pool.forall_update_some ?_ ?_ h.calls
    · have hfree := free_mod h.passed h.fits
      rw [← h.rdOff, ← h.wrOff] at hfree
      have hfits := h.fits
      have hpassed := h.passed
      simp only at hfree hfits hpassed
      refine ⟨rfl, rfl, rfl, rfl, ?_, Nat.zero_le _, holds_nil _ _, ?_, Nat.le_refl _⟩
      · simp only [Writer.start, hfree]
        omega
      · simp [Writer.start]
    · intro u l _ htied
      cases l with
      | writing w =>
          have howner := htied.owner
          simp [hidle] at howner
      | reading r => exact Reads.frame htied rfl rfl rfl rfl

/-- A reader begins with nothing loaded. -/
theorem Agree.enter_reading (h : Agree d taken (s, g) loc) (hidle : s.reader = none) :
    Agree d taken ({ s with reader := some t }, g)
      (Function.update loc t (some (.reading ⟨s.ring.rdOff, 0, [], []⟩))) where
  wrOff := h.wrOff
  rdOff := h.rdOff
  passed := h.passed
  fits := h.fits
  holds := h.holds
  received := h.received
  idle := by simp
  calls := by
    refine Pool.forall_update_some ?_ ?_ h.calls
    · exact ⟨rfl, rfl, by simpa using h.passed, by simp, by simp, by simpa using h.idle hidle⟩
    · intro u l _ htied
      cases l with
      | writing w => exact Writes.frame htied rfl rfl rfl rfl rfl
      | reading r =>
          have howner := htied.owner
          simp [hidle] at howner

theorem Agree.leave_writing (h : Agree d taken (s, g) loc) (ht : s.writer = some t) :
    Agree d taken ({ s with writer := none }, g) (Function.update loc t none) where
  wrOff := h.wrOff
  rdOff := h.rdOff
  passed := h.passed
  fits := h.fits
  holds := h.holds
  received := h.received
  idle := h.idle
  calls := by
    intro u l hl
    by_cases hu : u = t
    · simp [hu] at hl
    · rw [Function.update_of_ne hu] at hl
      obtain ⟨r, rfl⟩ := h.others_read ht hu hl
      have htied := h.calls u _ hl
      exact Reads.frame htied rfl rfl rfl rfl

theorem Agree.leave_reading (h : Agree d taken (s, g) loc) {r : Reader}
    (hl : loc t = some (.reading r)) :
    Agree d taken ({ s with reader := none }, { g with received := g.received ++ r.consumed })
      (Function.update loc t none) := by
  have hr : Reads taken (s, g) t r := h.calls t _ hl
  have hreceived := hr.consumed
  constructor
  case wrOff => exact h.wrOff
  case rdOff => exact h.rdOff
  case passed => exact h.passed
  case fits => exact h.fits
  case holds => exact h.holds
  case received => exact hreceived ▸ List.prefix_refl _
  case idle => exact fun _ => hreceived
  case calls =>
    intro u l hl
    by_cases hu : u = t
    · simp [hu] at hl
    · rw [Function.update_of_ne hu] at hl
      obtain ⟨w, rfl⟩ := h.others_write hr.owner hu hl
      have htied := h.calls u _ hl
      exact Writes.frame htied rfl rfl rfl rfl rfl

/-! ### The steps of a call that writes -/

section Writes

variable {w : Writer} (h : Agree d taken (s, g) loc) (hl : loc t = some (.writing w))

include h hl

/-- A load changes the call alone. -/
theorem Agree.withRoom {room : Nat} (hroom : g.published.length + room < taken + d.sizeOfBuffer)
    (hfits : w.staged.length ≤ room) :
    Agree d taken (s, g) (Function.update loc t (some (.writing { w with room := room }))) where
  wrOff := h.wrOff
  rdOff := h.rdOff
  passed := h.passed
  fits := h.fits
  holds := h.holds
  received := h.received
  idle := h.idle
  calls := by
    have hw : Writes d taken (s, g) t w := h.calls t _ hl
    refine Pool.forall_update_some ?_ ?_ h.calls
    · exact ⟨hw.owner, hw.wr, hw.active, hw.first, hroom, hfits, hw.staged, hw.out, hw.mark⟩
    · exact fun _ _ _ htied => htied

/-- A byte goes behind the staged ones, into a cell that holds no unread byte. -/
theorem Agree.storeByte (b : Byte) (hroom : w.staged.length < w.room) :
    Agree d taken ({ s with ring := { s.ring with
        buffer := Function.update s.ring.buffer ((w.wr + w.staged.length) % d.sizeOfBuffer) b } }, g)
      (Function.update loc t (some (.writing { w with staged := w.staged ++ [b] }))) := by
  have hw : Writes d taken (s, g) t w := h.calls t _ hl
  have hspace := hw.room
  have hpassed := h.passed
  have hcell : (w.wr + w.staged.length) % d.sizeOfBuffer =
      (g.published.length + w.staged.length) % d.sizeOfBuffer := by
    rw [hw.wr, h.wrOff, Nat.mod_add_mod]
  simp only at hspace hpassed
  rw [hcell]
  constructor
  case wrOff => exact h.wrOff
  case rdOff => exact h.rdOff
  case passed => exact h.passed
  case fits => exact h.fits
  case holds => exact h.holds.update (by simp; omega) (by omega) b
  case received => exact h.received
  case idle => exact h.idle
  case calls =>
    refine Pool.forall_update_some ?_ ?_ h.calls
    · refine ⟨hw.owner, hw.wr, hw.active, hw.first, hw.room, by simp; omega, ?_, hw.out, hw.mark⟩
      exact hw.staged.snoc (by omega) b
    · intro u l hu htied
      cases l with
      | writing w' =>
          have howner := htied.owner.symm.trans hw.owner
          exact absurd (Option.some.inj howner) hu
      | reading r => exact Reads.frame htied rfl rfl rfl rfl

omit [DecidableEq τ] in
/-- What is staged is what `WrOff` moves over. -/
theorem Agree.moved : s.ring.moved d ((w.wr + w.staged.length) % d.sizeOfBuffer) = w.staged := by
  have hw : Writes d taken (s, g) t w := h.calls t _ hl
  have hspace := hw.room
  have hpassed := h.passed
  have hfits := hw.fits
  simp only at hspace hpassed
  rw [Ring.moved, hw.wr, h.wrOff, Nat.mod_add_mod]
  exact hw.staged.between_eq (by omega)

/-- The staged bytes are published, all at once. -/
theorem Agree.storeWrOff :
    Agree d taken ({ s with ring := { s.ring with
        wrOff := (w.wr + w.staged.length) % d.sizeOfBuffer } },
        { g with published := g.published ++ w.staged })
      (Function.update loc t (some (.writing { w with
        wr := (w.wr + w.staged.length) % d.sizeOfBuffer
        room := w.room - w.staged.length
        staged := []
        out := w.out ++ w.staged }))) := by
  have hw : Writes d taken (s, g) t w := h.calls t _ hl
  have hspace := hw.room
  have hpassed := h.passed
  have hfits := hw.fits
  simp only at hspace hpassed
  constructor
  case wrOff =>
    rw [List.length_append, hw.wr, h.wrOff, Nat.mod_add_mod]
  case rdOff => exact h.rdOff
  case passed => simp; omega
  case fits => simp; omega
  case holds =>
    rw [List.drop_append_of_le_length hpassed, holds_append]
    refine ⟨h.holds, ?_⟩
    rw [List.length_drop, Nat.add_sub_cancel' hpassed]
    exact hw.staged
  case received => rw [List.take_append_of_le_length hpassed]; exact h.received
  case idle => rw [List.take_append_of_le_length hpassed]; exact h.idle
  case calls =>
    refine Pool.forall_update_some ?_ ?_ h.calls
    · refine ⟨hw.owner, rfl, hw.active, hw.first, ?_, by simp, holds_nil _ _, ?_, ?_⟩
      · simp
        omega
      · rw [List.drop_append_of_le_length hw.mark, hw.out]
      · have hmark := hw.mark
        simp only [List.length_append] at hmark ⊢
        omega
    · intro u l hu htied
      cases l with
      | writing w' =>
          have howner := htied.owner.symm.trans hw.owner
          exact absurd (Option.some.inj howner) hu
      | reading r =>
          have havail := htied.avail
          have hgot := htied.fits
          simp only at havail
          refine ⟨htied.owner, htied.rd, by simp; omega, htied.fits, ?_, ?_⟩
          · rw [List.drop_append_of_le_length hpassed,
              List.take_append_of_le_length (by simp; omega)]
            exact htied.got
          · rw [List.take_append_of_le_length hpassed]
            exact htied.consumed

/-- The terminal is the writer's alone. -/
theorem Agree.storeActiveTerminal (v : Nat) :
    Agree d taken ({ s with ring := { s.ring with activeTerminal := v } }, g)
      (Function.update loc t (some (.writing { w with active := v }))) where
  wrOff := h.wrOff
  rdOff := h.rdOff
  passed := h.passed
  fits := h.fits
  holds := h.holds
  received := h.received
  idle := h.idle
  calls := by
    have hw : Writes d taken (s, g) t w := h.calls t _ hl
    refine Pool.forall_update_some ?_ ?_ h.calls
    · exact ⟨hw.owner, hw.wr, rfl, hw.first, hw.room, hw.fits, hw.staged, hw.out, hw.mark⟩
    · intro u l hu htied
      cases l with
      | writing w' =>
          have howner := htied.owner.symm.trans hw.owner
          exact absurd (Option.some.inj howner) hu
      | reading r => exact Reads.frame htied rfl rfl rfl rfl

end Writes

/-! ### The steps of a call that reads -/

section Reads

variable {r : Reader} (h : Agree d taken (s, g) loc) (hl : loc t = some (.reading r))

include h hl

/-- What was published when the reader looked is there to be loaded. -/
theorem Agree.withAvail {avail : Nat} (havail : taken + avail ≤ g.published.length)
    (hfits : r.got.length ≤ avail) :
    Agree d taken (s, g) (Function.update loc t (some (.reading { r with avail := avail })))
    where
  wrOff := h.wrOff
  rdOff := h.rdOff
  passed := h.passed
  fits := h.fits
  holds := h.holds
  received := h.received
  idle := h.idle
  calls := by
    have hr : Reads taken (s, g) t r := h.calls t _ hl
    refine Pool.forall_update_some ?_ ?_ h.calls
    · exact ⟨hr.owner, hr.rd, havail, hfits, hr.got, hr.consumed⟩
    · exact fun _ _ _ htied => htied

/-- A published byte is still in its cell. -/
theorem Agree.loadByte (hgot : r.got.length < r.avail) :
    Agree d taken (s, g) (Function.update loc t (some (.reading { r with
      got := r.got ++ [s.ring.buffer ((r.rd + r.got.length) % d.sizeOfBuffer)] }))) where
  wrOff := h.wrOff
  rdOff := h.rdOff
  passed := h.passed
  fits := h.fits
  holds := h.holds
  received := h.received
  idle := h.idle
  calls := by
    have hr : Reads taken (s, g) t r := h.calls t _ hl
    refine Pool.forall_update_some ?_ ?_ h.calls
    · have havail := hr.avail
      simp only at havail
      have hlen : r.got.length < (g.published.drop taken).length := by
        simp only [List.length_drop]
        omega
      have hbyte : s.ring.buffer ((r.rd + r.got.length) % d.sizeOfBuffer) =
          (g.published.drop taken)[r.got.length] := by
        rw [hr.rd, h.rdOff, Nat.mod_add_mod]
        exact h.holds r.got.length hlen
      refine ⟨hr.owner, hr.rd, hr.avail, by simp; omega, ?_, hr.consumed⟩
      simp only [List.length_append, List.length_singleton]
      rw [hbyte, List.take_succ_eq_append_getElem hlen, ← hr.got]
    · exact fun _ _ _ htied => htied

/-- The loaded bytes are passed, and their cells are free. -/
theorem Agree.storeRdOff :
    Agree d (taken + r.got.length) ({ s with ring := { s.ring with
        rdOff := (r.rd + r.got.length) % d.sizeOfBuffer } }, g)
      (Function.update loc t (some (.reading { r with
        rd := (r.rd + r.got.length) % d.sizeOfBuffer
        avail := r.avail - r.got.length
        got := []
        consumed := r.consumed ++ r.got }))) := by
  have hr : Reads taken (s, g) t r := h.calls t _ hl
  have havail := hr.avail
  have hgot := hr.fits
  have hfits := h.fits
  simp only at havail hfits
  have htake : g.published.take (taken + r.got.length) = g.published.take taken ++ r.got := by
    rw [List.take_add, ← hr.got]
  constructor
  case wrOff => exact h.wrOff
  case rdOff => rw [hr.rd, h.rdOff, Nat.mod_add_mod]
  case passed => simp only; omega
  case fits => simp only; omega
  case holds =>
    have hdrop := h.holds.drop (k := r.got.length) (by simp; omega)
    rwa [List.drop_drop] at hdrop
  case received =>
    rw [htake]
    exact h.received.trans (List.prefix_append ..)
  case idle =>
    intro hidle
    have howner := hr.owner
    simp only at hidle howner
    simp [hidle] at howner
  case calls =>
    refine Pool.forall_update_some ?_ ?_ h.calls
    · refine ⟨hr.owner, rfl, by simp only; omega, by simp, by simp, ?_⟩
      rw [htake, ← hr.consumed, List.append_assoc]
    · intro u l hu htied
      cases l with
      | writing w =>
          have hroom := htied.room
          simp only at hroom
          exact ⟨htied.owner, htied.wr, htied.active, htied.first, by simp only; omega, htied.fits,
            htied.staged, htied.out, htied.mark⟩
      | reading r' =>
          have howner := htied.owner.symm.trans hr.owner
          exact absurd (Option.some.inj howner) hu

end Reads

end Steps

/-- Every call is in step with its monitor, and what the monitors say of their
calls agrees with the ring.  The `taken` bytes that `RdOff` has passed are
the one number that no variable of the program holds. -/
def Inv (d : Desc) (c : State τ) : Prop :=
  ∃ loc, Pool.Follows (fun _ _ => monitor d) (fun _ i r l => Concluded d i r l) c loc ∧
    ∃ taken, Agree d taken c.shared loc

omit [DecidableEq τ] in
theorem Writer.start_ready {s : Shared τ} {g : Log} {loc : τ → Option Local} {taken : Nat}
    (h : Agree d taken (s, g) loc) : (Writer.start d s.ring).Ready d where
  wr := h.wrOff_lt
  room := by
    have hsum := used_add_free h.rdOff_lt h.wrOff_lt
    have hpos := d.size_pos
    show free d.sizeOfBuffer s.ring.rdOff s.ring.wrOff < _
    omega
  staged := rfl

/-- A call that begins is in step with its monitor. -/
theorem agree_enter {s s' : Shared τ} {g : Log} {loc : τ → Option Local} {taken : Nat} {t : τ}
    {i : Call} (h : Agree d taken (s, g) loc) (henter : enter t i s = some s') :
    ∃ l, (i.code d).wp (monitor d) (Concluded d i) l ∧
      Agree d taken (s', (logger d).enter t i s g) (Function.update loc t (some l)) := by
  cases hi : i.reads with
  | true =>
      rw [enter, if_pos hi] at henter
      split at henter
      case h_1 hidle =>
        obtain rfl := Option.some.inj henter
        refine ⟨_, wp_code_of_reads (r := ⟨s.ring.rdOff, 0, [], []⟩) h.rdOff_lt rfl rfl hi, ?_⟩
        simp only [logger, hi, if_true]
        exact h.enter_reading hidle
      case h_2 => contradiction
  | false =>
      rw [enter, if_neg (by simp [hi])] at henter
      split at henter
      case h_1 hidle =>
        obtain rfl := Option.some.inj henter
        refine ⟨_, wp_code_of_writes (Writer.start_ready h) ⟨rfl, Nat.le_refl _⟩ hi, ?_⟩
        simp only [logger, hi, Bool.false_eq_true, if_false]
        exact h.enter_writing hidle
      case h_2 => contradiction

/-- An access that its monitor allows is answered as the monitor expects. -/
theorem agree_perform {s : Shared τ} {g : Log} {loc : τ → Option Local} {taken : Nat} {t : τ}
    {i : Call} {l : Local} (h : Agree d taken (s, g) loc) (hl : loc t = some l) (o : Op)
    (hpre : (monitor d).pre l o) :
    (monitor d).may l o (perform s.ring o).2 ∧
      ∃ taken, Agree d taken ({ s with ring := (perform s.ring o).1 },
          (logger d).perform t i s o (perform s.ring o).2 g)
        (Function.update loc t (some ((monitor d).next l o (perform s.ring o).2))) := by
  have hsame : Agree d taken (s, g) (Function.update loc t (some l)) := by
    rw [← hl, Function.update_eq_self]
    exact h
  have hpassed := h.passed
  have hfits := h.fits
  simp only at hpassed hfits
  cases l with
  | writing w =>
      have hw : Writes d taken (s, g) t w := h.calls t _ hl
      have hroom := hw.room
      simp only at hroom
      cases o with
      | loadWrOff => exact ⟨hw.wr.symm, taken, hsame⟩
      | loadRdOff =>
          have hfree : free d.sizeOfBuffer s.ring.rdOff w.wr =
              d.sizeOfBuffer - 1 - (g.published.length - taken) := by
            rw [hw.wr, h.wrOff, h.rdOff, free_mod hpassed hfits]
          have hstaged : w.staged.length = 0 := by
            rw [show w.staged = [] from hpre, List.length_nil]
          refine ⟨⟨h.rdOff_lt, ?_⟩, taken, h.withRoom hl ?_ ?_⟩
          · show w.room ≤ free d.sizeOfBuffer s.ring.rdOff w.wr
            rw [hfree]
            omega
          · show g.published.length + free d.sizeOfBuffer s.ring.rdOff w.wr < _
            rw [hfree]
            omega
          · omega
      | storeByte j b =>
          obtain ⟨rfl, hlt⟩ := hpre
          exact ⟨trivial, taken, h.storeByte hl b hlt⟩
      | storeWrOff v =>
          obtain rfl : v = _ := hpre
          refine ⟨trivial, taken, ?_⟩
          have hstore := h.storeWrOff hl
          rw [← h.moved hl] at hstore
          simpa only [logger, monitor, perform, h.moved hl] using hstore
      | loadActiveTerminal => exact ⟨hw.active.symm, taken, hsame⟩
      | storeActiveTerminal v => exact ⟨trivial, taken, h.storeActiveTerminal hl v⟩
      | storeRdOff v => exact hpre.elim
      | loadByte j => exact hpre.elim
  | reading r =>
      have hr : Reads taken (s, g) t r := h.calls t _ hl
      have havail := hr.avail
      simp only at havail
      cases o with
      | loadRdOff => exact ⟨hr.rd.symm, taken, hsame⟩
      | loadWrOff =>
          have hused : used d.sizeOfBuffer r.rd s.ring.wrOff = g.published.length - taken := by
            rw [hr.rd, h.wrOff, h.rdOff, used_mod hpassed hfits]
          have hgot := hr.fits
          refine ⟨⟨h.wrOff_lt, ?_⟩, taken, h.withAvail hl ?_ ?_⟩
          · show r.avail ≤ used d.sizeOfBuffer r.rd s.ring.wrOff
            rw [hused]
            omega
          · show taken + used d.sizeOfBuffer r.rd s.ring.wrOff ≤ _
            rw [hused]
            omega
          · show _ ≤ used d.sizeOfBuffer r.rd s.ring.wrOff
            rw [hused]
            omega
      | loadByte j =>
          obtain ⟨rfl, hlt⟩ := hpre
          exact ⟨trivial, taken, h.loadByte hl hlt⟩
      | storeRdOff v =>
          obtain rfl : v = _ := hpre
          exact ⟨trivial, _, h.storeRdOff hl⟩
      | storeWrOff v => exact hpre.elim
      | storeByte j b => exact hpre.elim
      | loadActiveTerminal => exact hpre.elim
      | storeActiveTerminal v => exact hpre.elim

/-- A call that returns hands over what it has read. -/
theorem agree_leave {s : Shared τ} {g : Log} {loc : τ → Option Local} {taken : Nat} {t : τ}
    {i : Call} {ret : Return} {l : Local} (h : Agree d taken (s, g) loc) (hl : loc t = some l)
    (hconcluded : Concluded d i ret l) :
    Agree d taken (leave i s, (logger d).leave t i ret s g) (Function.update loc t none) := by
  cases ret with
  | wrote outcome =>
      obtain ⟨w, rfl, -, hends⟩ := hconcluded
      have hi : i.reads = false := by
        cases i with
        | read => exact hends.elim
        | _ => rfl
      have hw : Writes d taken (s, g) t w := h.calls t _ hl
      rw [leave, if_neg (by simp [hi])]
      exact h.leave_writing hw.owner
  | got bytes =>
      obtain ⟨hi, r, rfl, -, rfl⟩ := hconcluded
      rw [leave, if_pos hi]
      exact h.leave_reading hl

/-- What every step keeps: the beginning of a call, an access of one side
while the other is anywhere in its own call, and a return. -/
theorem inv_step (c : State τ) (l : Label τ) (c' : State τ) (hc : Inv d c)
    (h : (ringSystem d).step c l = some c') : Inv d c' := by
  have hok : Unconditional c l := trivial
  refine Pool.step_follows (R := fun x loc => ∃ taken, Agree d taken x loc) (ringSystem d)
    ?_ ?_ ?_ ?_ c l c' hc hok h
  · intro c loc t i x ⟨taken, hR⟩ _ _ hs
    obtain ⟨s', henter, rfl⟩ := Option.map_eq_some_iff.mp hs
    obtain ⟨l, hwp, hR'⟩ := agree_enter hR henter
    exact ⟨l, hwp, taken, hR'⟩
  · intro c loc t i o k a l _ ⟨taken, hR⟩ _ hl hpre _
    exact agree_perform hR hl o hpre
  · intro c loc t i r l ⟨taken, hR⟩ _ hl hends _
    exact ⟨taken, agree_leave hR hl hends⟩
  · intro c loc e
    exact nomatch e

/-- **The ring.**  In every state of every run, however the two sides
interleave, what the reader has got is a prefix of what was written, the
rest lies in the ring, and every call that writes ends as it should. -/
theorem ring_inOrder (d : Desc) (ls : List (Label τ)) {c : State τ}
    (hrun : run (ringSystem d).step start ls = some c) : InOrder d c := by
  have hstart : Inv d (start : State τ) :=
    ⟨fun _ => none, Pool.follows_start _, 0, agree_start⟩
  obtain ⟨loc, hfollows, taken, hagree⟩ := invariant inv_step hstart hrun
  have hpassed := hagree.passed
  have hfits := hagree.fits
  constructor
  · have hbetween := hagree.holds.between_eq (by simp; omega)
    rw [List.length_drop, Nat.add_sub_cancel' hpassed, ← hagree.rdOff, ← hagree.wrOff] at hbetween
    refine ⟨c.shared.2.published.take taken, ?_, hagree.received, hagree.idle⟩
    rw [Ring.contents, hbetween, List.take_append_drop]
  · intro t i o hjob
    obtain ⟨l, hl, w, rfl, -, hends⟩ := hfollows.busy hjob
    have hw := hagree.calls t _ hl
    rw [hw.out, ← hw.active, ← hw.first]
    exact hends

/-- A small ring in blocking mode. -/
def sampleDesc : Desc := ⟨4, modeBlockIfFifoFull, by decide, by decide⟩

/-- One side writes more than fits while the other reads. -/
def sampleRun : List (Label Bool) :=
  [.enter true (.write [1, 2, 3, 4, 5] 3), .exec true (), .exec true (), .exec true (),
    .exec true (), .enter false (.read 16), .exec true (), .exec true (), .exec false (),
    .exec true (), .exec false (), .exec false (), .exec false (), .exec true (),
    .exec false (), .exec false (), .leave false, .exec true (), .exec true (), .exec true ()]

theorem ring_inOrder_sample :
    ∃ c : State Bool, run (ringSystem sampleDesc).step start sampleRun = some c ∧
      c.shared.2.published = [1, 2, 3, 4] ∧ c.shared.2.received = [1, 2, 3] ∧
      InOrder sampleDesc c :=
  ⟨_, rfl, rfl, rfl, ring_inOrder sampleDesc sampleRun rfl⟩

end DsEthComm.Rtt
