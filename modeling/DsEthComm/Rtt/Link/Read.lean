import DsEthComm.Rtt.Link.Write

/-!
# DsEthComm.Rtt.Link.Read

The call that reads.  What is published when it loads `WrOff` stays in its
cells until it stores `RdOff` itself.  With this every call of the interface
keeps to its monitor.
-/

namespace DsEthComm.Rtt

open Conc Cyclic

variable (d : Desc)

/-! ## The call that reads -/

section Reading

variable {d} {r : Reader}

/-- Only the reader stores `RdOff`. -/
theorem wp_reading_loadRdOff {Q : Nat → Local → Prop} :
    loadRdOff.wp (monitor d) Q (.reading r) ↔ Q r.rd (.reading r) := by
  constructor
  · intro h
    exact h.2 r.rd rfl
  · intro h
    refine ⟨trivial, fun v hv => ?_⟩
    obtain rfl : v = r.rd := hv
    exact h

/-- `WrOff` may have moved on, so at least as much is there to read. -/
theorem wp_reading_loadWrOff {Q : Nat → Local → Prop} :
    loadWrOff.wp (monitor d) Q (.reading r) ↔
      ∀ v < d.sizeOfBuffer, r.avail ≤ used d.sizeOfBuffer r.rd v →
        Q v (.reading { r with avail := used d.sizeOfBuffer r.rd v }) :=
  ⟨fun h v hv havail => h.2 v ⟨hv, havail⟩, fun h => ⟨trivial, fun v hv => h v hv.1 hv.2⟩⟩

/-- A byte that is loaded is one that was published. -/
theorem wp_loadByte {Q : Byte → Local → Prop} {i : Nat} :
    (loadByte i).wp (monitor d) Q (.reading r) ↔
      (i = (r.rd + r.got.length) % d.sizeOfBuffer ∧ r.got.length < r.avail) ∧
        ∀ b : Byte, Q b (.reading { r with got := r.got ++ [b] }) :=
  ⟨fun h => ⟨h.1, fun b => h.2 b trivial⟩, fun h => ⟨h.1, fun b _ => h.2 b⟩⟩

/-- What `RdOff` passes when it moves over these bytes. -/
def Reader.consume (d : Desc) (r : Reader) (xs : List Byte) : Reader where
  rd := (r.rd + xs.length) % d.sizeOfBuffer
  avail := r.avail - xs.length
  got := []
  consumed := r.consumed ++ xs

/-- The reader passes what it has loaded. -/
theorem wp_storeRdOff {Q : Unit → Local → Prop} {v : Nat}
    (hv : v = (r.rd + r.got.length) % d.sizeOfBuffer)
    (hQ : Q () (.reading (r.consume d r.got))) :
    (storeRdOff v).wp (monitor d) Q (.reading r) := by
  subst hv
  exact ⟨rfl, fun _ _ => hQ⟩

/-- Bytes that lie in one piece, behind what is loaded. -/
theorem wp_copyOut {Q : List Byte → Local → Prop} {off k : Nat}
    (hoff : ∀ j < k, off + j = (r.rd + (r.got.length + j)) % d.sizeOfBuffer)
    (havail : r.got.length + k ≤ r.avail)
    (hQ : ∀ xs : List Byte, xs.length = k → Q xs (.reading { r with got := r.got ++ xs })) :
    (copyOut off k).wp (monitor d) Q (.reading r) := by
  induction k generalizing off r Q with
  | zero =>
      have h := hQ [] rfl
      simp only [List.append_nil] at h
      exact h
  | succ k ih =>
      simp only [copyOut, Prog.bind_eq, Prog.wp_bind]
      rw [wp_loadByte]
      constructor
      · constructor
        · simpa using hoff 0 (by omega)
        · omega
      · intro b
        apply ih
        · intro j hj
          have h := hoff (j + 1) (by omega)
          simp only [List.length_append, List.length_singleton]
          rw [show off + 1 + j = off + (j + 1) by omega, h]
          congr 2
          omega
        · simp
          omega
        · intro xs hxs
          have h := hQ (b :: xs) (by simp [hxs])
          simp only [List.append_assoc, List.singleton_append]
          exact h

/-- The last part of a read, in one piece. -/
theorem wp_readRemaining {Q : List Byte → Local → Prop} {off wrOff bufferSize k : Nat}
    (hk : min (usub wrOff off) bufferSize = k)
    (hrd : r.rd < d.sizeOfBuffer) (hoff : off = (r.rd + r.got.length) % d.sizeOfBuffer)
    (hend : off + k < d.sizeOfBuffer) (havail : r.got.length + k ≤ r.avail)
    (hQ : ∀ xs, Q xs (.reading (r.consume d xs))) :
    (readRemaining off wrOff bufferSize r.got).wp (monitor d) Q (.reading r) := by
  have hmod : ∀ j ≤ k, off + j = (r.rd + (r.got.length + j)) % d.sizeOfBuffer := by
    intro j hj
    rw [← Nat.add_assoc, add_mod_eq (by omega) d.size_pos, ← hoff, if_pos (by omega)]
  simp only [readRemaining, Prog.bind_eq, Prog.wp_bind, hk]
  apply wp_copyOut (fun j hj => hmod j (by omega)) havail
  intro ys hys
  rw [Prog.wp_ite]
  constructor
  · intro _
    rw [Prog.wp_bind]
    apply wp_storeRdOff
    · simp only [List.length_append, hys]
      exact hmod k (Nat.le_refl _)
    · exact hQ (r.got ++ ys)
  · intro hzero
    have hnil : r.got ++ ys = [] := by simpa using hzero
    have h := hQ (r.got ++ ys)
    simp only [Reader.consume, hnil, List.length_nil, Nat.add_zero, Nat.mod_eq_of_lt hrd,
      Nat.sub_zero, List.append_nil] at h
    rw [hnil]
    exact h

/-- The call that reads is over. -/
def Consumed (bytes : List Byte) (l : Local) : Prop :=
  ∃ r, l = .reading r ∧ r.got = [] ∧ r.consumed = bytes

theorem consumed_consume (hconsumed : r.consumed = []) (xs : List Byte) :
    Consumed xs (.reading (r.consume d xs)) :=
  ⟨_, rfl, rfl, by simp [Reader.consume, hconsumed]⟩

/-- `SEGGER_RTT_ReadNoLock` returns what it passes, whether the bytes lie in one
piece or go round the end of the buffer. -/
theorem wp_readNoLock (hrd : r.rd < d.sizeOfBuffer) (hgot : r.got = [])
    (hconsumed : r.consumed = []) (bufferSize : Nat) :
    (readNoLock d bufferSize).wp (monitor d) Consumed (.reading r) := by
  have hsize := d.size_lt
  simp only [readNoLock, Prog.bind_eq, Prog.wp_bind, wp_reading_loadRdOff, wp_reading_loadWrOff,
    Prog.wp_ite]
  intro wrOff hwr _
  constructor
  · intro hgt
    have hused : used d.sizeOfBuffer r.rd wrOff = d.sizeOfBuffer - (r.rd - wrOff) := by
      rw [used, if_neg (by omega)]
    rw [hused]
    generalize hk : min (d.sizeOfBuffer - r.rd) bufferSize = k
    apply wp_copyOut
    · intro j hj
      simp only [hgot, List.length_nil, Nat.zero_add]
      rw [Nat.mod_eq_of_lt (by omega)]
    · simp only [hgot, List.length_nil]
      omega
    · intro xs hxs
      subst hxs
      simp only [hgot, List.nil_append]
      generalize hr₁ : ({ r with avail := d.sizeOfBuffer - (r.rd - wrOff), got := xs } : Reader) = r₁
      have hgot₁ : r₁.got = xs := by rw [← hr₁]
      have hrd₁ : r₁.rd = r.rd := by rw [← hr₁]
      have hlt₁ : r₁.rd < d.sizeOfBuffer := by rw [hrd₁]; exact hrd
      have havail₁ : r₁.avail = d.sizeOfBuffer - (r.rd - wrOff) := by rw [← hr₁]
      have hconsumed₁ : r₁.consumed = [] := by rw [← hr₁, hconsumed]
      rw [← hgot₁] at hk ⊢
      by_cases hend : r.rd + r₁.got.length = d.sizeOfBuffer
      · -- the rest lies at the beginning of the buffer
        rw [if_pos hend]
        have hsub : usub wrOff 0 = wrOff := usub_of_le (Nat.zero_le _)
        have hk₁ : min (usub wrOff 0) (bufferSize - r₁.got.length) =
            min wrOff (bufferSize - r₁.got.length) := by rw [hsub]
        apply wp_readRemaining hk₁ hlt₁
        · simp [hrd₁, hend]
        · omega
        · omega
        · exact consumed_consume hconsumed₁
      · -- the caller's buffer is full, and nothing more is read
        rw [if_neg hend]
        have hfull : bufferSize - r₁.got.length = 0 := by omega
        rw [hfull]
        apply wp_readRemaining (Nat.min_zero _) hlt₁
        · rw [Nat.mod_eq_of_lt (by omega), hrd₁]
        · omega
        · omega
        · exact consumed_consume hconsumed₁
  · intro hle
    have hsub : usub wrOff r.rd = wrOff - r.rd := usub_of_le (by omega)
    have hused : used d.sizeOfBuffer r.rd wrOff = wrOff - r.rd := by
      rw [used, if_pos (by omega)]
    rw [hused]
    generalize hr₁ : ({ r with avail := wrOff - r.rd } : Reader) = r₁
    have hgot₁ : r₁.got = [] := by rw [← hr₁, hgot]
    have hrd₁ : r₁.rd = r.rd := by rw [← hr₁]
    have hlt₁ : r₁.rd < d.sizeOfBuffer := by rw [hrd₁]; exact hrd
    have havail₁ : r₁.avail = wrOff - r.rd := by rw [← hr₁]
    have hlen₁ : r₁.got.length = 0 := by rw [hgot₁, List.length_nil]
    rw [← hgot₁]
    have hk₁ : min (usub wrOff r.rd) bufferSize = min (wrOff - r.rd) bufferSize := by rw [hsub]
    apply wp_readRemaining hk₁ hlt₁
    · rw [Nat.mod_eq_of_lt (by omega), hrd₁, hlen₁, Nat.add_zero]
    · omega
    · omega
    · exact consumed_consume (by rw [← hr₁, hconsumed])

end Reading

/-- The call `i` is over, and has done what it returns. -/
def Concluded (i : Call) : Return → Local → Prop
  | .wrote outcome, l => Finished d i outcome l
  | .got bytes, l => i.reads = true ∧ Consumed bytes l

/-- A call that writes does nothing more than its function. -/
theorem wp_code_writing {w : Writer} {i : Call} {p : Code Outcome}
    (h : p.wp (monitor d) (Finished d i) (.writing w)) :
    (writing p).wp (monitor d) (Concluded d i) (.writing w) := by
  rw [writing, Prog.bind_eq, Prog.wp_bind]
  exact Prog.wp_mono (fun _ _ h => h) h

variable {d}

/-- Every call that writes keeps to its monitor. -/
theorem wp_code_of_writes {w : Writer} (hw : w.Ready d) (hf : w.Fresh) {i : Call}
    (hi : i.reads = false) : (i.code d).wp (monitor d) (Concluded d i) (.writing w) := by
  cases i with
  | write data fuel => exact wp_code_writing d (wp_writeNoLock hw hf data fuel)
  | writeSkip data => exact wp_code_writing d (wp_writeSkipNoLock hw hf data)
  | putChar c fuel => exact wp_code_writing d (wp_putChar hw hf c fuel)
  | putCharSkip c => exact wp_code_writing d (wp_putCharSkip hw hf c)
  | setTerminal terminalId fuel => exact wp_code_writing d (wp_setTerminal hw hf terminalId fuel)
  | terminalOut terminalId s fuel =>
      exact wp_code_writing d (wp_terminalOut hw hf terminalId s fuel)
  | read => contradiction

/-- So does the one that reads. -/
theorem wp_code_of_reads {r : Reader} (hrd : r.rd < d.sizeOfBuffer) (hgot : r.got = [])
    (hconsumed : r.consumed = []) {i : Call} (hi : i.reads = true) :
    (i.code d).wp (monitor d) (Concluded d i) (.reading r) := by
  cases i with
  | read bufferSize =>
      rw [Call.code, Prog.bind_eq, Prog.wp_bind]
      exact Prog.wp_mono (fun _ _ h => ⟨rfl, h⟩) (wp_readNoLock hrd hgot hconsumed bufferSize)
  | _ => contradiction

end DsEthComm.Rtt
