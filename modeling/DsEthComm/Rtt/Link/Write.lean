import DsEthComm.Rtt.Link.System

/-!
# DsEthComm.Rtt.Link.Write

The calls that write, one at a time.  Whatever the reader does meanwhile, the
room that a call has seen can only grow, so it stores into free cells and
ends as its mode promises.
-/

namespace DsEthComm.Rtt

open Conc Cyclic

variable {d : Desc}

/-! ## The calls that write -/

section Writing

variable {w : Writer}

section Accesses

variable {Q : Nat → Local → Prop}

/-- Only the writer stores `WrOff`, so it loads what it left there. -/
theorem wp_loadWrOff :
    loadWrOff.wp (monitor d) Q (.writing w) ↔ Q w.wr (.writing w) := by
  constructor
  · intro h
    exact h.2 w.wr rfl
  · intro h
    refine ⟨trivial, fun v hv => ?_⟩
    obtain rfl : v = w.wr := hv
    exact h

/-- `RdOff` may have moved on since the last load, so there is at least the room
that there was. -/
theorem wp_loadRdOff :
    loadRdOff.wp (monitor d) Q (.writing w) ↔
      w.staged = [] ∧ ∀ v < d.sizeOfBuffer, w.room ≤ free d.sizeOfBuffer v w.wr →
        Q v (.writing { w with room := free d.sizeOfBuffer v w.wr }) := by
  constructor
  · intro h
    exact ⟨h.1, fun v hv hroom => h.2 v ⟨hv, hroom⟩⟩
  · intro h
    exact ⟨h.1, fun v hv => h.2 v hv.1 hv.2⟩

theorem wp_loadActiveTerminal :
    loadActiveTerminal.wp (monitor d) Q (.writing w) ↔ Q w.active (.writing w) := by
  constructor
  · intro h
    exact h.2 w.active rfl
  · intro h
    refine ⟨trivial, fun v hv => ?_⟩
    obtain rfl : v = w.active := hv
    exact h

variable {Q : Unit → Local → Prop}

/-- A byte goes behind the staged ones, as far as there is room. -/
theorem wp_storeByte {i : Nat} {b : Byte} :
    (storeByte i b).wp (monitor d) Q (.writing w) ↔
      (i = (w.wr + w.staged.length) % d.sizeOfBuffer ∧ w.staged.length < w.room) ∧
        Q () (.writing { w with staged := w.staged ++ [b] }) :=
  ⟨fun h => ⟨h.1, h.2 () trivial⟩, fun h => ⟨h.1, fun _ _ => h.2⟩⟩

theorem wp_storeActiveTerminal {v : Nat} :
    (storeActiveTerminal v).wp (monitor d) Q (.writing w) ↔
      Q () (.writing { w with active := v }) :=
  ⟨fun h => h.2 () trivial, fun h => ⟨trivial, fun _ _ => h⟩⟩

end Accesses

/-- Nothing is stored that is not published. -/
structure Writer.Ready (d : Desc) (w : Writer) : Prop where
  wr : w.wr < d.sizeOfBuffer
  room : w.room < d.sizeOfBuffer
  staged : w.staged = []

/-- What the call has published with these bytes. -/
def Writer.publish (d : Desc) (w : Writer) (bs : List Byte) : Writer :=
  { w with
    wr := (w.wr + bs.length) % d.sizeOfBuffer
    room := w.room - bs.length
    staged := []
    out := w.out ++ bs }

theorem Writer.Ready.publish (hw : w.Ready d) (bs : List Byte) : (w.publish d bs).Ready d where
  wr := Nat.mod_lt _ d.size_pos
  room := Nat.lt_of_le_of_lt (Nat.sub_le ..) hw.room
  staged := rfl

theorem Writer.Ready.at_wr (hw : w.Ready d) :
    w.wr = (w.wr + w.staged.length) % d.sizeOfBuffer := by
  simp [hw.staged, Nat.mod_eq_of_lt hw.wr]

/-- `WrOff` after at most a turn. -/
theorem Writer.Ready.wr_publish (hw : w.Ready d) {bs : List Byte}
    (hlen : bs.length ≤ d.sizeOfBuffer) :
    (w.publish d bs).wr = if w.wr + bs.length < d.sizeOfBuffer then w.wr + bs.length
      else w.wr + bs.length - d.sizeOfBuffer := by
  rw [Writer.publish, add_mod_eq hlen d.size_pos, Nat.mod_eq_of_lt hw.wr]

variable {Q : Unit → Local → Prop}

/-- What is staged is published. Before, nothing may be staged that is not among
these bytes. -/
theorem wp_storeWrOff {bs : List Byte} {v : Nat} (hw : w.Ready d)
    (hv : v = (w.publish d bs).wr) (hQ : Q () (.writing (w.publish d bs))) :
    (storeWrOff v).wp (monitor d) Q (.writing { w with staged := w.staged ++ bs }) := by
  subst hv
  constructor
  · simp [monitor, hw.staged, Writer.publish]
  · intro _ _
    simp only [hw.staged, List.nil_append]
    exact hQ

/-- A copy stages its bytes one by one, each in the cell behind the last. -/
theorem wp_copyIn {off : Nat} {bs : List Byte}
    (hoff : ∀ j < bs.length, off + j = (w.wr + (w.staged.length + j)) % d.sizeOfBuffer)
    (hroom : w.staged.length + bs.length ≤ w.room)
    (hQ : Q () (.writing { w with staged := w.staged ++ bs })) :
    (copyIn off bs).wp (monitor d) Q (.writing w) := by
  induction bs generalizing off w with
  | nil => simpa [copyIn] using hQ
  | cons b bs ih =>
      simp only [List.length_cons] at hoff hroom
      rw [copyIn, Prog.bind_eq, Prog.wp_bind, wp_storeByte]
      constructor
      · constructor
        · simpa using hoff 0 (by omega)
        · omega
      · apply ih
        · intro j hj
          have h := hoff (j + 1) (by omega)
          simp only [List.length_append, List.length_singleton]
          rw [show off + 1 + j = off + (j + 1) by omega, h]
          congr 2
          omega
        · simp
          omega
        · simpa using hQ

/-- The bytes go behind what is staged, without reaching the end. -/
theorem wp_copyIn_straight {off : Nat} {bs : List Byte}
    (hoff : off = (w.wr + w.staged.length) % d.sizeOfBuffer)
    (hend : off + bs.length ≤ d.sizeOfBuffer) (hroom : w.staged.length + bs.length ≤ w.room)
    (hQ : Q () (.writing { w with staged := w.staged ++ bs })) :
    (copyIn off bs).wp (monitor d) Q (.writing w) := by
  apply wp_copyIn _ hroom hQ
  intro j hj
  rw [← Nat.add_assoc, add_mod_eq (by omega) d.size_pos, ← hoff, if_pos (by omega)]

/-- One part, which ends before the end of the buffer. -/
theorem wp_straight {data : List Byte} (hw : w.Ready d) (hroom : data.length ≤ w.room)
    (hend : w.wr + data.length < d.sizeOfBuffer) (hQ : Q () (.writing (w.publish d data))) :
    (copyIn w.wr data).wp (monitor d) (fun _ l =>
      (storeWrOff (w.wr + data.length)).wp (monitor d) Q l) (.writing w) := by
  apply wp_copyIn_straight hw.at_wr (by omega) (by simp [hw.staged]; omega)
  apply wp_storeWrOff hw _ hQ
  have hlt := hw.room
  rw [hw.wr_publish (by omega), if_pos hend]

/-- Two parts, one up to the end of the buffer and one from its beginning. -/
theorem wp_wrapped {data : List Byte} (hw : w.Ready d) (hroom : data.length ≤ w.room)
    (hend : d.sizeOfBuffer ≤ w.wr + data.length) (hQ : Q () (.writing (w.publish d data))) :
    (copyIn w.wr (data.take (d.sizeOfBuffer - w.wr))).wp (monitor d) (fun _ l =>
      (copyIn 0 (data.drop (d.sizeOfBuffer - w.wr))).wp (monitor d) (fun _ l =>
        (storeWrOff (data.length - (d.sizeOfBuffer - w.wr))).wp (monitor d) Q l) l)
      (.writing w) := by
  have hwr := hw.wr
  have hlt := hw.room
  apply wp_copyIn_straight hw.at_wr (by simp; omega) (by simp [hw.staged]; omega)
  apply wp_copyIn_straight
  · -- the second part begins where a turn is complete
    have hturn : w.wr + min (d.sizeOfBuffer - w.wr) data.length = d.sizeOfBuffer := by omega
    simp [hw.staged, hturn]
  · simp
    omega
  · simp [hw.staged]
    omega
  · simp only [List.append_assoc, List.take_append_drop]
    apply wp_storeWrOff hw _ hQ
    rw [hw.wr_publish (by omega), if_neg (by omega)]
    omega

/-- `_WriteNoCheck` publishes its bytes, if there is room for them. -/
theorem wp_writeNoCheck {data : List Byte} (hw : w.Ready d) (hroom : data.length ≤ w.room)
    (hQ : Q () (.writing (w.publish d data))) :
    (writeNoCheck d data).wp (monitor d) Q (.writing w) := by
  have hwr := hw.wr
  simp only [writeNoCheck, Prog.bind_eq, Prog.wp_bind, wp_loadWrOff, Prog.wp_ite]
  constructor
  · intro hrem
    exact wp_straight hw hroom (by omega) hQ
  · intro hrem
    exact wp_wrapped hw hroom (by omega) hQ

/-- `_GetAvailWriteSpace` finds at least the room that there was. -/
theorem wp_getAvailWriteSpace {Q : Nat → Local → Prop} (hw : w.Ready d)
    (hQ : ∀ room, w.room ≤ room → room < d.sizeOfBuffer →
      Q room (.writing { w with room := room })) :
    (getAvailWriteSpace d).wp (monitor d) Q (.writing w) := by
  simp only [getAvailWriteSpace, Prog.bind_eq, Prog.wp_bind, wp_loadRdOff, wp_loadWrOff,
    Prog.wp_ite]
  refine ⟨hw.staged, fun rdOff hrd hroom => ?_⟩
  have hsum := used_add_free hrd hw.wr
  have hlt := d.size_pos
  have h := hQ _ hroom (by omega)
  constructor
  · intro hle
    simpa [free, hle] using h
  · intro hle
    simpa [free, hle] using h

/-- How many rounds `_WriteBlocking` needs when there is room for it all. -/
def turns (d : Desc) (w : Writer) (data : List Byte) : Nat :=
  if w.wr + data.length ≤ d.sizeOfBuffer then 1 else 2

/-- A writer that has published more, and has at least the room it had. -/
structure Writer.Grown (d : Desc) (w : Writer) (bs : List Byte) (w' : Writer) : Prop where
  ready : w'.Ready d
  out : w'.out = w.out ++ bs
  active : w'.active = w.active
  first : w'.first = w.first
  room : w.room ≤ w'.room + bs.length

theorem Writer.Grown.trans {bs bs' : List Byte} {w' w'' : Writer} (h : w.Grown d bs w')
    (h' : w'.Grown d bs' w'') : w.Grown d (bs ++ bs') w'' where
  ready := h'.ready
  out := by rw [h'.out, h.out, List.append_assoc]
  active := h'.active.trans h.active
  first := h'.first.trans h.first
  room := by
    have hroom := h.room
    have hroom' := h'.room
    simp
    omega

/-- What `_WriteBlocking` comes to: everything is published, or its rounds
are over, which are enough if there was room. -/
def Wrote (d : Desc) (w : Writer) (data : List Byte) (fuel : Nat) (written : Nat) :
    Option Nat → Local → Prop
  | some k, l => k = written + data.length ∧ ∃ w', l = .writing w' ∧ w.Grown d data w'
  | none, l => (w.room < data.length ∨ fuel < turns d w data) ∧
      ∃ bs w', bs <+: data ∧ l = .writing w' ∧ w.Grown d bs w'

/-- The induction is on the rounds: each of them publishes a part and leaves the
rest to the next. -/
theorem wp_writeBlockingLoop (hw : w.Ready d) (written : Nat) (data : List Byte) (fuel : Nat) :
    (writeBlockingLoop d w.wr written data fuel).wp (monitor d)
      (Wrote d w data fuel written) (.writing w) := by
  induction fuel generalizing w written data with
  | zero =>
      constructor
      · right
        unfold turns
        split <;> omega
      · exact ⟨[], w, List.nil_prefix, rfl, hw, by simp, rfl, rfl, by simp⟩
  | succ fuel ih =>
      have hwr := hw.wr
      simp only [writeBlockingLoop, Prog.bind_eq, Prog.wp_bind, wp_loadRdOff]
      refine ⟨hw.staged, fun rdOff hrd hroom => ?_⟩
      generalize hk : min (min (if rdOff > w.wr then rdOff - w.wr - 1
        else d.sizeOfBuffer - (w.wr - rdOff + 1)) (d.sizeOfBuffer - w.wr)) data.length = k
      have hsum := used_add_free hrd hwr
      have hfree : (if rdOff > w.wr then rdOff - w.wr - 1
          else d.sizeOfBuffer - (w.wr - rdOff + 1)) = free d.sizeOfBuffer rdOff w.wr := by
        unfold free
        split <;> split <;> omega
      rw [hfree] at hk
      generalize hw₁ : ({ w with room := free d.sizeOfBuffer rdOff w.wr } : Writer) = w₁
      have hready : w₁.Ready d := by
        subst hw₁
        exact ⟨hwr, by have := d.size_pos; simp only; omega, hw.staged⟩
      have hwr₁ : w₁.wr = w.wr := by rw [← hw₁]
      have hroom₁ : w₁.room = free d.sizeOfBuffer rdOff w.wr := by rw [← hw₁]
      have htake : (data.take k).length = k := by
        simp
        omega
      have hnext : (w₁.publish d (data.take k)).wr =
          if w.wr + k = d.sizeOfBuffer then 0 else w.wr + k := by
        rw [hready.wr_publish (by omega), htake, hwr₁]
        split <;> split <;> omega
      have hgrown : w.Grown d (data.take k) (w₁.publish d (data.take k)) := by
        refine ⟨hready.publish _, ?_, ?_, ?_, ?_⟩
        · simp [Writer.publish, ← hw₁]
        · simp [Writer.publish, ← hw₁]
        · simp [Writer.publish, ← hw₁]
        · simp only [Writer.publish, htake]
          omega
      apply wp_copyIn_straight (hwr₁ ▸ hready.at_wr) (by omega)
        (by simp [hready.staged]; omega)
      apply wp_storeWrOff hready hnext.symm
      rw [Prog.wp_ite]
      constructor
      · intro hrest
        have hall : data.take k = data := by simpa [hrest] using List.take_append_drop k data
        refine ⟨by rw [← htake, hall], _, rfl, ?_⟩
        rw [hall] at hgrown ⊢
        exact hgrown
      · intro hrest
        rw [← hnext]
        refine Prog.wp_mono ?_ (ih (hready.publish _) (written + k) (data.drop k))
        intro res l hres
        have hdrop : (data.drop k).length = data.length - k := by simp
        have hmore : k < data.length := by
          simpa using hrest
        cases res with
        | some m =>
            obtain ⟨rfl, w', rfl, hw'⟩ := hres
            refine ⟨by omega, w', rfl, ?_⟩
            simpa using hgrown.trans hw'
        | none =>
            obtain ⟨hout, bs, w', hbs, rfl, hw'⟩ := hres
            refine ⟨?_, data.take k ++ bs, w', ?_, rfl, hgrown.trans hw'⟩
            · -- with room for everything, the first round goes to the end of the buffer
              by_cases hsmall : w.room < data.length
              · exact Or.inl hsmall
              · right
                have hend : w.wr + k = d.sizeOfBuffer := by omega
                have hturns : turns d w data = 2 := by
                  rw [turns, if_neg (by omega)]
                have hlast : turns d (w₁.publish d (data.take k)) (data.drop k) = 1 := by
                  rw [turns, hnext, if_pos hend, if_pos (by omega)]
                have hroom' : (w₁.publish d (data.take k)).room =
                    free d.sizeOfBuffer rdOff w.wr - k := by
                  simp only [Writer.publish, htake, hroom₁]
                rw [hlast, hroom'] at hout
                omega
            · obtain ⟨rest, hrest⟩ := hbs
              exact ⟨rest, by rw [List.append_assoc, hrest, List.take_append_drop]⟩

theorem wp_writeBlocking (hw : w.Ready d) (data : List Byte) (fuel : Nat) :
    (writeBlocking d data fuel).wp (monitor d) (Wrote d w data fuel 0) (.writing w) := by
  rw [writeBlocking, Prog.bind_eq, Prog.wp_bind, wp_loadWrOff]
  exact wp_writeBlockingLoop hw 0 data fuel

/-- The first round ends at the end of the buffer at the latest. -/
theorem turns_le (d : Desc) (w : Writer) (data : List Byte) : turns d w data ≤ 2 := by
  unfold turns
  split <;> omega

/-- The call `i` is over, and ended as it should. -/
def Finished (d : Desc) (i : Call) (o : Outcome) (l : Local) : Prop :=
  ∃ w, l = .writing w ∧ w.staged = [] ∧ Ends d w.active w.first w.out i o

/-- Everything is what any mode may be asked for. -/
theorem Promised.whole {mode : BitVec 32} {room : Nat} {data bytes : List Byte}
    (h : bytes = data) : Promised mode room data bytes where
  skip _ := .inl h
  trim _ := h ▸ Nat.min_le_right ..
  block _ := h

/-- Nothing is published yet, and the room the call began with is there. -/
structure Writer.Fresh (w : Writer) : Prop where
  out : w.out = []
  room : w.first ≤ w.room

theorem Writer.Ready.withRoom (hw : w.Ready d) {room : Nat} (h : room < d.sizeOfBuffer) :
    ({ w with room := room } : Writer).Ready d :=
  ⟨hw.wr, h, hw.staged⟩

/-- `SEGGER_RTT_WriteNoLock` keeps the promise of each of its modes. In a mode
that it does not know it writes nothing and returns 0. -/
theorem wp_writeNoLock (hw : w.Ready d) (hf : w.Fresh) (data : List Byte) (fuel : Nat) :
    (writeNoLock d data fuel).wp (monitor d) (Finished d (.write data fuel)) (.writing w) := by
  have hout := hf.out
  have hfirst := hf.room
  unfold writeNoLock
  split
  case isTrue hskip =>
    have htrim : d.flags ≠ modeNoBlockTrim := by simp [hskip]; decide
    have hblock : d.flags ≠ modeBlockIfFifoFull := by simp [hskip]; decide
    rw [Prog.bind_eq, Prog.wp_bind]
    apply wp_getAvailWriteSpace hw
    intro room hmore hroom
    rw [Prog.wp_ite]
    constructor
    · intro hlow
      refine ⟨_, rfl, hw.staged, by simp [hout], by simp [hout], ?_, ?_, ?_⟩
      · exact fun _ => .inr ⟨hout, by simp only; omega⟩
      · exact fun h => absurd h htrim
      · exact fun h => absurd h hblock
    · intro hfits
      rw [Prog.bind_eq, Prog.wp_bind]
      apply wp_writeNoCheck (hw.withRoom hroom) (by simp only; omega)
      refine ⟨_, rfl, rfl, by simp [Writer.publish, hout], by simp [Writer.publish, hout], ?_⟩
      exact .whole (by simp [Writer.publish, hout])
  case isFalse hskip =>
    split
    case isTrue htrim =>
      have hblock : d.flags ≠ modeBlockIfFifoFull := by simp [htrim]; decide
      rw [Prog.bind_eq, Prog.wp_bind]
      apply wp_getAvailWriteSpace hw
      intro room hmore hroom
      generalize hstatus : (if room < data.length then room else data.length) = status
      have hle : status = min room data.length := by
        subst hstatus
        split <;> omega
      have hlen : (data.take status).length = status := by
        simp
        omega
      rw [Prog.bind_eq, Prog.wp_bind]
      apply wp_writeNoCheck (hw.withRoom hroom) (by simp only; omega)
      refine ⟨_, rfl, rfl, by simp [Writer.publish, hout], ?_, ?_, ?_, ?_⟩
      · simp only [Writer.publish, hout, List.nil_append, hlen]
      · exact fun h => absurd h hskip
      · intro _
        simp only [Writer.publish, hout, List.nil_append, hlen]
        omega
      · exact fun h => absurd h hblock
    case isFalse htrim =>
      split
      case isTrue hblock =>
        rw [Prog.bind_eq, Prog.wp_bind]
        refine Prog.wp_mono ?_ (wp_writeBlocking hw data fuel)
        intro res l hres
        cases res with
        | some k =>
            obtain ⟨rfl, w', rfl, hw'⟩ := hres
            have hall : w'.out = data := by rw [hw'.out, hout, List.nil_append]
            exact ⟨w', rfl, hw'.ready.staged, by simp [hall], by simp [hall], .whole hall⟩
        | none =>
            obtain ⟨hwhy, bs, w', hbs, rfl, hw'⟩ := hres
            have hturns := turns_le d w data
            refine ⟨w', rfl, hw'.ready.staged, hblock, ?_, ?_⟩
            · rw [hw'.out, hout]
              exact hbs
            · rw [hw'.first]
              omega
      case isFalse hblock =>
        refine ⟨w, rfl, hw.staged, by simp [hout], by simp [hout], ?_, ?_, ?_⟩
        · exact fun h => absurd h hskip
        · exact fun h => absurd h htrim
        · exact fun h => absurd h hblock

/-- `SEGGER_RTT_WriteSkipNoLock` compares the offsets in three ways, with one
meaning: all of it if it fits, or nothing. -/
theorem wp_writeSkipNoLock (hw : w.Ready d) (hf : w.Fresh) (data : List Byte) :
    (writeSkipNoLock d data).wp (monitor d) (Finished d (.writeSkip data)) (.writing w) := by
  have hout := hf.out
  have hfirst := hf.room
  have hwr := hw.wr
  simp only [writeSkipNoLock, Prog.bind_eq, Prog.wp_bind, wp_loadRdOff, wp_loadWrOff,
    Prog.wp_ite]
  refine ⟨hw.staged, fun rdOff hrd hroom => ?_⟩
  have hsum := used_add_free hrd hwr
  have hpos := d.size_pos
  generalize hroom' : free d.sizeOfBuffer rdOff w.wr = room at *
  have hready : ({ w with room := room } : Writer).Ready d := hw.withRoom (by omega)
  have hnot (hlow : room < data.length) :
      Finished d (.writeSkip data) (.done 0) (.writing { w with room := room }) :=
    ⟨_, rfl, hw.staged, Or.inr ⟨rfl, hout, by simp only; omega⟩⟩
  have hall : Finished d (.writeSkip data) (.done 1)
      (.writing (({ w with room := room } : Writer).publish d data)) :=
    ⟨_, rfl, rfl, Or.inl ⟨rfl, by simp [Writer.publish, hout]⟩⟩
  constructor
  · intro hle
    have hfree : room = d.sizeOfBuffer - 1 - w.wr + rdOff := by
      rw [← hroom', free, if_pos hle]
    constructor
    · intro hfits
      exact wp_straight hready (by show _ ≤ room; omega) (by show w.wr + _ < _; omega) hall
    · intro hwrap
      constructor
      · intro hfits
        have hwrapped := wp_wrapped hready (Q := fun _ => Finished d (.writeSkip data) (.done 1))
          (by show data.length ≤ room; omega) (by show _ ≤ w.wr + _; omega) hall
        refine Prog.wp_mono ?_ hwrapped
        intro _ l hrest
        constructor
        · intro _
          exact hrest
        · intro hexact
          -- without a second part its copy does nothing
          have hnil : data.drop (d.sizeOfBuffer - w.wr) = [] := by
            simp
            omega
          simp only [hnil] at hrest
          exact hrest
      · intro _
        exact hnot (by omega)
  · intro hgt
    have hfree : room = rdOff - w.wr - 1 := by
      rw [← hroom', free, if_neg hgt]
    constructor
    · intro hfits
      exact wp_straight hready (by show _ ≤ room; omega) (by show w.wr + _ < _; omega) hall
    · intro _
      exact hnot (by omega)

/-- The last comparison before the ring would be empty again. -/
theorem next_ne_iff {rdOff : Nat} (hrd : rdOff < d.sizeOfBuffer) (hwr : w.wr < d.sizeOfBuffer) :
    (if w.wr + 1 = d.sizeOfBuffer then 0 else w.wr + 1) ≠ rdOff ↔
      0 < free d.sizeOfBuffer rdOff w.wr := by
  unfold free
  split <;> split <;> omega

/-- One character goes out if there is room, and there is if there was. -/
theorem wp_putIfFree {Q : Outcome → Local → Prop} {c : Byte} (hw : w.Ready d)
    (hput : ∀ room, w.room ≤ room →
      Q (.done 1) (.writing (({ w with room := room } : Writer).publish d [c])))
    (hfull : w.room = 0 → Q (.done 0) (.writing { w with room := 0 })) :
    (putIfFree (if w.wr + 1 = d.sizeOfBuffer then 0 else w.wr + 1) c).wp (monitor d) Q
      (.writing w) := by
  have hwr := hw.wr
  have hpos := d.size_pos
  simp only [putIfFree, Prog.bind_eq, Prog.wp_bind, wp_loadRdOff, wp_loadWrOff, Prog.wp_ite]
  refine ⟨hw.staged, fun rdOff hrd hroom => ?_⟩
  have hsum := used_add_free hrd hwr
  rw [next_ne_iff hrd hwr]
  generalize free d.sizeOfBuffer rdOff w.wr = room at *
  have hready : ({ w with room := room } : Writer).Ready d := hw.withRoom (by omega)
  constructor
  · intro hfree
    rw [wp_storeByte]
    constructor
    · simp [hw.staged, Nat.mod_eq_of_lt hwr, hfree]
    · apply wp_storeWrOff hready _ (hput room hroom)
      rw [hready.wr_publish (by simp; omega)]
      simp only [List.length_singleton]
      split <;> split <;> omega
  · intro hfree
    obtain rfl : room = 0 := by omega
    exact hfull (by omega)

/-- `SEGGER_RTT_PutCharSkip` puts the character out, or says that the buffer is
full. -/
theorem wp_putCharSkip (hw : w.Ready d) (hf : w.Fresh) (c : Byte) :
    (putCharSkip d c).wp (monitor d) (Finished d (.putCharSkip c)) (.writing w) := by
  have hfirst := hf.room
  rw [putCharSkip, Prog.bind_eq, Prog.wp_bind, wp_loadWrOff]
  apply wp_putIfFree hw
  · intro room _
    exact ⟨_, rfl, rfl, Or.inl ⟨rfl, by simp [Writer.publish, hf.out]⟩⟩
  · intro hzero
    exact ⟨_, rfl, hw.staged, Or.inr ⟨rfl, hf.out, by simp only; omega⟩⟩

/-- Once the wait is over there is room, and it is over at once if there
was. -/
theorem wp_waitFree {Q : Bool → Local → Prop} (hw : w.Ready d) (fuel : Nat)
    (hfree : ∀ room, 0 < room → room < d.sizeOfBuffer →
      Q true (.writing { w with room := room }))
    (hwait : w.room = 0 ∨ fuel = 0 → ∀ room, Q false (.writing { w with room := room })) :
    (waitFree (if w.wr + 1 = d.sizeOfBuffer then 0 else w.wr + 1) fuel).wp (monitor d) Q
      (.writing w) := by
  induction fuel generalizing w with
  | zero => exact hwait (.inr rfl) w.room
  | succ fuel ih =>
      have hwr := hw.wr
      have hpos := d.size_pos
      simp only [waitFree, Prog.bind_eq, Prog.wp_bind, wp_loadRdOff, Prog.wp_ite]
      refine ⟨hw.staged, fun rdOff hrd hroom => ?_⟩
      have hsum := used_add_free hrd hwr
      constructor
      · intro hfull
        have hready : ({ w with room := free d.sizeOfBuffer rdOff w.wr } : Writer).Ready d :=
          hw.withRoom (by omega)
        have hnone : ¬0 < free d.sizeOfBuffer rdOff w.wr :=
          fun h => (next_ne_iff hrd hwr).mpr h hfull
        exact ih hready hfree fun _ => hwait (.inl (by omega))
      · intro hne
        exact hfree _ ((next_ne_iff hrd hwr).mp hne) (by omega)

/-- `SEGGER_RTT_PutChar` does the same, but waits in blocking mode. -/
theorem wp_putChar (hw : w.Ready d) (hf : w.Fresh) (c : Byte) (fuel : Nat) :
    (putChar d c fuel).wp (monitor d) (Finished d (.putChar c fuel)) (.writing w) := by
  have hput : ∀ room, Finished d (.putChar c fuel) (.done 1)
      (.writing (({ w with room := room } : Writer).publish d [c])) :=
    fun room => ⟨_, rfl, rfl, Or.inl ⟨rfl, by simp [Writer.publish, hf.out]⟩⟩
  have hfirst := hf.room
  simp only [putChar, Prog.bind_eq, Prog.wp_bind, wp_loadWrOff, Prog.wp_ite]
  constructor
  · intro hblock
    apply wp_waitFree hw
    · intro room hroom hlt
      simp only [not_true_eq_false, false_implies, and_true, true_implies]
      apply wp_putIfFree (hw.withRoom hlt)
      · intro room' _
        exact hput room'
      · intro hzero
        simp only at hzero
        omega
    · intro hwhy room
      simp only [Bool.false_eq_true, false_implies, true_and, not_false_eq_true, true_implies]
      exact ⟨_, rfl, hw.staged, Or.inr (Or.inr ⟨rfl, hf.out, hblock, by simp only; omega⟩)⟩
  · intro hblock
    apply wp_putIfFree hw
    · intro room _
      exact hput room
    · intro hzero
      exact ⟨_, rfl, hw.staged, Or.inr (Or.inl ⟨rfl, hf.out, hblock, by simp only; omega⟩)⟩

/-! ### Terminals -/

theorem length_switchTo (terminalId : Nat) : (switchTo terminalId).length = 2 := rfl

/-- `SEGGER_RTT_SetTerminal` sends both bytes of the switch or none.  Where it is
still waiting, a beginning of them is out. -/
theorem wp_setTerminal (hw : w.Ready d) (hf : w.Fresh) (terminalId fuel : Nat) :
    (setTerminal d terminalId fuel).wp (monitor d) (Finished d (.setTerminal terminalId fuel))
      (.writing w) := by
  have hout := hf.out
  have hfirst := hf.room
  unfold setTerminal
  split
  case isFalse hid => exact ⟨w, rfl, hw.staged, Or.inr ⟨rfl, hout, .inl (Nat.not_lt.mp hid)⟩⟩
  case isTrue =>
    split
    case isTrue hblock =>
      rw [Prog.bind_eq, Prog.wp_bind, wp_storeActiveTerminal, Prog.bind_eq, Prog.wp_bind]
      have hready : ({ w with active := terminalId } : Writer).Ready d :=
        ⟨hw.wr, hw.room, hw.staged⟩
      refine Prog.wp_mono ?_ (wp_writeBlocking hready (switchTo terminalId) fuel)
      intro res l hres
      cases res with
      | some k =>
          obtain ⟨-, w', rfl, hw'⟩ := hres
          refine ⟨w', rfl, hw'.ready.staged, Or.inl ⟨rfl, ?_, hw'.active⟩⟩
          simp [hw'.out, hout]
      | none =>
          obtain ⟨hwhy, bs, w', hbs, rfl, hw'⟩ := hres
          have hturns := turns_le d { w with active := terminalId } (switchTo terminalId)
          rw [length_switchTo] at hwhy
          refine ⟨w', rfl, hw'.ready.staged, ?_, hblock, ?_⟩
          · simpa [hw'.out, hout] using hbs
          · rw [hw'.first]
            simp only at hwhy ⊢
            omega
    case isFalse hblock =>
      rw [Prog.bind_eq, Prog.wp_bind]
      apply wp_getAvailWriteSpace hw
      intro room _ hlt
      rw [Prog.wp_ite]
      constructor
      · intro havail
        rw [Prog.bind_eq, Prog.wp_bind, wp_storeActiveTerminal, Prog.bind_eq, Prog.wp_bind]
        have hready : ({ w with room := room, active := terminalId } : Writer).Ready d :=
          ⟨hw.wr, hlt, hw.staged⟩
        apply wp_writeNoCheck hready (by simpa [length_switchTo] using havail)
        exact ⟨_, rfl, rfl, Or.inl ⟨rfl, by simp [Writer.publish, hout], rfl⟩⟩
      · intro hlow
        exact ⟨_, rfl, hw.staged, Or.inr ⟨rfl, hout, .inr ⟨hblock, by simp only; omega⟩⟩⟩

/-- One of the three writes of `SEGGER_RTT_TerminalOut`: what comes after it
if it ends, and what is out if it does not. -/
theorem wp_writeBlocking_then {Q : Option Nat → Local → Prop} {data : List Byte} {fuel : Nat}
    (hw : w.Ready d)
    (hdone : ∀ w', w.Grown d data w' → Q (some data.length) (.writing w'))
    (hwait : (w.room < data.length ∨ fuel < 2) →
      ∀ bs w', bs <+: data → w.Grown d bs w' → Q none (.writing w')) :
    (writeBlocking d data fuel).wp (monitor d) Q (.writing w) := by
  refine Prog.wp_mono ?_ (wp_writeBlocking hw data fuel)
  intro res l hres
  cases res with
  | some k =>
      obtain ⟨rfl, w', rfl, hw'⟩ := hres
      rw [Nat.zero_add]
      exact hdone w' hw'
  | none =>
      obtain ⟨hwhy, bs, w', hbs, rfl, hw'⟩ := hres
      have hturns := turns_le d w data
      exact hwait (by omega) bs w' hbs hw'

/-- The three writes come to the text in its frame.  Where one of them is still
waiting, a beginning of that is out. -/
theorem wp_outOn (hw : w.Ready d) (hf : w.Fresh) {s text : List Byte} (terminalId : Nat)
    (htext : text <+: s) (fuel : Nat)
    (hroom : d.flags &&& modeMask = modeBlockIfFifoFull ∧ text = s ∨ text.length + 4 ≤ w.room)
    (hpromised : Promised (d.flags &&& modeMask) (w.first - 4) s text) :
    (outOn d terminalId text fuel).wp (monitor d) (Finished d (.terminalOut terminalId s fuel))
      (.writing w) := by
  have hout := hf.out
  have hfirst := hf.room
  have htake : s.take text.length = text := List.prefix_iff_eq_take.mp htext |>.symm
  have hstuck : ∀ w' bs need, need ≤ text.length + 4 → w.room < need ∨ fuel < 2 →
      bs <+: framed terminalId w.active text → w.Grown d bs w' →
      Finished d (.terminalOut terminalId s fuel) .waiting (.writing w') := by
    intro w' bs need hneed hwhy hbs hw'
    refine ⟨w', rfl, hw'.ready.staged, ⟨text, htext, ?_⟩, ?_⟩
    · rw [hw'.out, hw'.active, hout]
      exact hbs
    · rw [hw'.first]
      cases hroom with
      | inl hblock =>
          rw [hblock.2] at hneed
          rcases hwhy with hlow | hfuel
          · exact Or.inl ⟨hblock.1, by omega⟩
          · exact Or.inr hfuel
      | inr hroom => exact Or.inr (by omega)
  rw [outOn, Prog.bind_eq, Prog.wp_bind]
  apply wp_writeBlocking_then hw
  · -- the switch to the terminal
    intro w₁ hw₁
    have hroom₁ := hw₁.room
    rw [length_switchTo] at hroom₁
    simp only [Prog.bind_eq, Prog.wp_bind]
    apply wp_writeBlocking_then hw₁.ready
    · -- the text
      intro w₂ hw₂
      have hroom₂ := hw₂.room
      simp only [Prog.wp_bind, wp_loadActiveTerminal]
      apply wp_writeBlocking_then hw₂.ready
      · -- the switch back
        intro w₃ hw₃
        have hall := (hw₁.trans hw₂).trans hw₃
        refine ⟨w₃, rfl, hw₃.ready.staged, Or.inl ⟨?_, by simp, ?_⟩⟩
        · rw [hall.out, hall.active, hw₂.active, hw₁.active, hout]
          simp [framed, htake]
        · rw [hall.first, Int.toNat_natCast, htake]
          exact hpromised
      · intro hwhy bs w₃ hbs hw₃
        rw [length_switchTo] at hwhy
        refine hstuck w₃ (switchTo terminalId ++ text ++ bs) (text.length + 4) (by omega)
          (by omega) ?_ ((hw₁.trans hw₂).trans hw₃)
        rw [framed]
        rw [hw₂.active, hw₁.active] at hbs
        simpa using hbs
    · intro hwhy bs w₂ hbs hw₂
      refine hstuck w₂ (switchTo terminalId ++ bs) (text.length + 2) (by omega) (by omega) ?_
        (hw₁.trans hw₂)
      rw [framed, List.append_assoc, List.prefix_append_right_inj]
      exact hbs.trans (List.prefix_append ..)
  · intro hwhy bs w₁ hbs hw₁
    rw [length_switchTo] at hwhy
    refine hstuck w₁ bs 2 (by omega) hwhy ?_ hw₁
    rw [framed, List.append_assoc]
    exact hbs.trans (List.prefix_append ..)

/-- `SEGGER_RTT_TerminalOut` leaves room for its four bytes of switching, and so
cuts a text to four bytes less in trimming mode. -/
theorem wp_terminalOut (hw : w.Ready d) (hf : w.Fresh) (terminalId : Nat) (s : List Byte)
    (fuel : Nat) :
    (terminalOut d terminalId s fuel).wp (monitor d)
      (Finished d (.terminalOut terminalId s fuel)) (.writing w) := by
  have hout := hf.out
  have hfirst := hf.room
  have hnot : ∀ room k, k ≤ 0 → Refused (d.flags &&& modeMask) w.first terminalId s →
      Finished d (.terminalOut terminalId s fuel) (.done k) (.writing { w with room := room }) :=
    fun room k hk hrefused => ⟨_, rfl, hw.staged, Or.inr ⟨hout, hk, hrefused⟩⟩
  unfold terminalOut
  split
  case isFalse hid => exact hnot w.room (-1) (by decide) (.inl (Nat.not_lt.mp hid))
  case isTrue =>
    rw [Prog.bind_eq, Prog.wp_bind]
    apply wp_getAvailWriteSpace hw
    intro room hmore hlt
    have hready := hw.withRoom hlt
    have hfresh : ({ w with room := room } : Writer).Fresh := ⟨hout, by simp only; omega⟩
    simp only [Prog.wp_ite]
    constructor
    · intro hskip
      constructor
      · intro hlow
        exact hnot room 0 (by decide) (.inr (.inl ⟨hskip, by omega⟩))
      · intro hfits
        exact wp_outOn hready hfresh terminalId (List.prefix_refl s) fuel
          (Or.inr (by simp only; omega)) (.whole rfl)
    · intro hskip
      constructor
      · intro htrim
        constructor
        · intro hlow
          exact hnot room (-1) (by decide) (.inr (.inr (.inl ⟨htrim, by omega⟩)))
        · intro hfits
          apply wp_outOn hready hfresh terminalId (List.take_prefix ..) fuel
          · right
            simp only [List.length_take]
            split <;> omega
          · refine ⟨fun h => absurd h hskip, fun _ => ?_, fun h => ?_⟩
            · simp only [List.length_take]
              split <;> omega
            · exact absurd (htrim.symm.trans h) (by decide)
      · intro htrim
        constructor
        · intro hblock
          exact wp_outOn hready hfresh terminalId (List.prefix_refl s) fuel
            (Or.inl ⟨hblock, rfl⟩) (.whole rfl)
        · intro hblock
          exact hnot room (-1) (by decide) (.inr (.inr (.inr ⟨hskip, htrim, hblock⟩)))

end Writing

end DsEthComm.Rtt
