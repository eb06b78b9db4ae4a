import DsEthComm.Flashdb.Ideal

/-!
# DsEthComm.Flashdb.PowerLoss

What a loss of power can leave behind while `w25q_write` is at work, over a
transport that takes transactions of any length.

A sector whose part of the range is erased is programmed where it is, and
nothing else changes.  Any other sector is erased and written anew from
`buf_4k`, so between the erase and the last page the bytes next to the range
are gone unless they were `0xFF` before.
-/

namespace DsEthComm.Flashdb

open Conc W25qxx

/-! ## The call -/

/-- `w25q_write` with a given handle. -/
def w25qWriteWith (h : Handle) (addr : Nat) (buf : List Byte) (buf4k : List Byte) : Driver Int := do
  debugPrint s!"w25q_write: addr: {addr}, size: {buf.length}\n"
  let _ ← W25qxx.write h addr buf buf4k
  return 0

/-- The port links its own interface. -/
theorem w25qWriteWith_portHandle : w25qWriteWith portHandle = w25qWrite := rfl

/-- A chip that waits for commands. -/
def ready (mem : Nat → Byte) : Bus := ⟨⟨mem, false, 0⟩, 0⟩

/-- The bytes outside a range have not changed. -/
def Kept (mem : Nat → Byte) (lo hi : Nat) (mem' : Nat → Byte) : Prop :=
  ∀ x, ¬(lo ≤ x ∧ x < hi) → mem' x = mem x

/-- After every operation of `w25q_write` the bytes outside its range have
their initial value. -/
def Undamaged (env : Schedule) (mem : Nat → Byte) (addr : Nat) (buf buf4k : List Byte) : Prop :=
  alongAt env (onMem env (Kept mem addr (addr + buf.length)))
    (w25qWriteWith idealHandle addr buf buf4k) (ready mem)

/-- The part of a sector inside the range is erased, or the part outside
is. -/
def SectorFine (mem : Nat → Byte) (lo hi sector : Nat) : Prop :=
  (∀ x, x / 4096 = sector → lo ≤ x ∧ x < hi → mem x = 0xFF#8) ∨
    ∀ x, x / 4096 = sector → ¬(lo ≤ x ∧ x < hi) → mem x = 0xFF#8

section Spec

variable {noise : Nat → Nat → Byte} {time : Nat → Nat} {R : Bus → Op → Prop}
  {Q : (Nat → Byte) → Prop} {s : Bus}

/-! ## Sectors -/

/-- What `buf_4k` holds when a sector is written anew: the sector, with the
data in its place. -/
def merged (mem : Nat → Byte) (secPos secOff : Nat) (chunk : List Byte) : List Byte :=
  (List.range 4096).map fun j =>
    if secOff ≤ j ∧ j < secOff + chunk.length then chunk.getD (j - secOff) 0xFF#8
    else mem (secPos * 4096 + j)

theorem length_merged (mem : Nat → Byte) (secPos secOff : Nat) (chunk : List Byte) :
    (merged mem secPos secOff chunk).length = 4096 := by
  simp [merged]

theorem getD_merged (mem : Nat → Byte) (secPos secOff : Nat) (chunk : List Byte) {j : Nat}
    (hj : j < 4096) :
    (merged mem secPos secOff chunk).getD j 0xFF#8 =
      if secOff ≤ j ∧ j < secOff + chunk.length then chunk.getD (j - secOff) 0xFF#8
      else mem (secPos * 4096 + j) := by
  simp [merged, List.getD_eq_getElem?_getD, hj]

/-- The buffer of the driver is that. -/
theorem take_buf4k (mem : Nat → Byte) (secPos : Nat) {secOff : Nat} {chunk : List Byte}
    (h : secOff + chunk.length ≤ 4096) (tail : List Byte) :
    ((slice mem (secPos * 4096) 4096 ++ tail).take secOff ++ chunk ++
      (slice mem (secPos * 4096) 4096 ++ tail).drop (secOff + chunk.length)).take 4096 =
      merged mem secPos secOff chunk := by
  have hlen : (slice mem (secPos * 4096) 4096).length = 4096 := by simp [slice]
  have hcell : ∀ j < 4096, (slice mem (secPos * 4096) 4096 ++ tail)[j]? =
      some (mem (secPos * 4096 + j)) := by
    intro j hj
    rw [List.getElem?_append_left (by omega)]
    simp [slice, hj]
  apply List.ext_getElem?
  intro j
  by_cases hj : j < 4096
  · have htake : ((slice mem (secPos * 4096) 4096 ++ tail).take secOff).length = secOff := by
      rw [List.length_take, List.length_append, hlen]
      omega
    rw [List.getElem?_take_of_lt hj, List.append_assoc]
    simp only [merged, List.getElem?_map, List.getElem?_range hj, Option.map_some]
    by_cases hlow : j < secOff
    · rw [List.getElem?_append_left (by omega), List.getElem?_take_of_lt hlow, hcell j hj,
        if_neg (by omega)]
    · rw [List.getElem?_append_right (by omega), htake]
      by_cases hmid : j < secOff + chunk.length
      · rw [List.getElem?_append_left (by omega), if_pos (by omega),
          List.getD_eq_getElem?_getD, List.getElem?_eq_getElem (by omega), Option.getD_some]
      · rw [List.getElem?_append_right (by omega), List.getElem?_drop, if_neg (by omega)]
        have hindex : secOff + chunk.length + (j - secOff - chunk.length) = j := by omega
        rw [hindex, hcell j hj]
  · have hout : (merged mem secPos secOff chunk)[j]? = none := by
      rw [List.getElem?_eq_none_iff, length_merged]
      exact Nat.not_lt.mp hj
    rw [hout, List.getElem?_eq_none_iff, List.length_take]
    omega

theorem eraseSector_self (mem : Nat → Byte) {secPos x : Nat} (h : x / 4096 = secPos) :
    eraseSector mem (secPos * 4096) x = 0xFF#8 := by
  rw [eraseSector, if_pos (by omega)]

theorem eraseSector_other (mem : Nat → Byte) {secPos x : Nat} (h : x / 4096 ≠ secPos) :
    eraseSector mem (secPos * 4096) x = mem x := by
  rw [eraseSector, if_neg (by omega)]

/-- A part of a rewritten sector that is the old contents. -/
theorem getD_merged_outside (mem : Nat → Byte) {secPos secOff : Nat} {chunk : List Byte} {x : Nat}
    (hx : ¬(secPos * 4096 + secOff ≤ x ∧ x < secPos * 4096 + secOff + chunk.length))
    (hsector : x / 4096 = secPos) :
    (merged mem secPos secOff chunk).getD (x - secPos * 4096) 0xFF#8 = mem x := by
  rw [getD_merged mem secPos secOff chunk (by omega), if_neg (by omega)]
  congr 1
  omega

/-- A sector that is erased and written anew keeps the bytes next to the
data. -/
theorem rewritten_outside (mem : Nat → Byte) {secPos secOff : Nat} {chunk : List Byte} {x : Nat}
    (hx : ¬(secPos * 4096 + secOff ≤ x ∧ x < secPos * 4096 + secOff + chunk.length)) :
    burn (eraseSector mem (secPos * 4096)) (secPos * 4096) (merged mem secPos secOff chunk) x =
      mem x := by
  by_cases hsector : x / 4096 = secPos
  · rw [burn, if_pos (by omega), eraseSector_self mem hsector,
      getD_merged_outside mem hx hsector, BitVec.and_comm, and_erased]
  · have hout : ¬(secPos * 4096 ≤ x ∧
        x < secPos * 4096 + (merged mem secPos secOff chunk).length) := by
      rw [length_merged]
      rintro ⟨hlo, hhi⟩
      exact hsector (by omega)
    rw [burn_outside _ hout, eraseSector_other mem hsector]

/-- So does one that is written in part, if these bytes are erased. -/
theorem partly_rewritten_outside (mem : Nat → Byte) {secPos secOff : Nat} {chunk : List Byte}
    (k : Nat) {x : Nat}
    (hx : ¬(secPos * 4096 + secOff ≤ x ∧ x < secPos * 4096 + secOff + chunk.length))
    (herased : x / 4096 = secPos → mem x = 0xFF#8) :
    burn (eraseSector mem (secPos * 4096)) (secPos * 4096)
      ((merged mem secPos secOff chunk).take k) x = mem x := by
  by_cases hsector : x / 4096 = secPos
  · have hcell : ((merged mem secPos secOff chunk).take k).getD (x - secPos * 4096) 0xFF#8 =
        0xFF#8 := by
      by_cases hk : x - secPos * 4096 < k
      · rw [List.getD_eq_getElem?_getD, List.getElem?_take_of_lt hk, ← List.getD_eq_getElem?_getD,
          getD_merged_outside mem hx hsector, herased hsector]
      · exact List.getD_eq_default _ _ (by rw [List.length_take]; omega)
    rw [burn, if_pos (by omega), eraseSector_self mem hsector, hcell, herased hsector]
    rfl
  · have hout : ¬(secPos * 4096 ≤ x ∧
        x < secPos * 4096 + ((merged mem secPos secOff chunk).take k).length) := by
      rw [List.length_take, length_merged]
      rintro ⟨hlo, hhi⟩
      exact hsector (by omega)
    rw [burn_outside _ hout, eraseSector_other mem hsector]

/-- The read of a sector. -/
theorem evalAt_aRead_ideal (h : s.chip.busy = 0) {pos : Nat} (hend : pos + 4096 ≤ flashSize)
    (buf4k : List Byte) :
    evalAt (ideal noise time) (aRead idealHandle pos buf4k 4096) s =
      (⟨s.chip, s.count + 1⟩, (0, slice s.chip.mem pos 4096 ++ buf4k.drop 4096)) := by
  have hrun : evalAt (ideal noise time) (aRead idealHandle pos buf4k 4096) s =
      ((s.exchange (ideal noise time) (fastReadBytes pos ++ []) 4096).1,
        (0, (s.exchange (ideal noise time) (fastReadBytes pos ++ []) 4096).2 ++
          buf4k.drop 4096)) := rfl
  have hout := exchange_fastRead (ideal noise time) s (by decide) hend
  rw [if_pos ⟨rfl, h⟩] at hout
  have hbus : (s.exchange (ideal noise time) (fastReadBytes pos) 4096).1 =
      ⟨s.chip, s.count + 1⟩ := by
    rw [exchange_ideal]
    simp only [fastReadBytes, List.cons_append, Chip.receive_fastRead]
  rw [hrun, List.append_nil, hout, hbus]

theorem alongAt_aRead_ideal {pos : Nat} (buf4k : List Byte) (hQ : Q s.chip.mem) :
    alongAt (ideal noise time) (onMem (ideal noise time) Q)
      (aRead idealHandle pos buf4k 4096) s := by
  refine ⟨?_, trivial⟩
  show Q (s.exchange (ideal noise time) (fastReadBytes pos ++ []) 4096).1.chip.mem
  rw [List.append_nil, mem_exchange_fastRead]
  exact hQ

/-- The end of a round of `w25qxx_write`. -/
def finish (p : Driver Byte) (buf4k : List Byte) : Driver (Option Byte × List Byte) :=
  p.bind fun res =>
    if res ≠ 0 then (debugPrint "w25qxx: write failed.\n").bind fun _ => .pure (some 1, buf4k)
    else .pure (none, buf4k)

/-- Erase a sector and write it anew. -/
def rewriteSector (h : Handle) (secPos : Nat) (buf4k merged : List Byte) :
    Driver (Option Byte × List Byte) :=
  (aEraseSector h (secPos * 4096)).bind fun res =>
    if res ≠ 0 then
      (debugPrint "w25qxx: erase sector failed.\n").bind fun _ => .pure (some 5, buf4k)
    else finish (aWriteNoCheck h (secPos * 4096) (merged.take 4096)) merged

/-- What a round of `w25qxx_write` does to a sector once it has read it. -/
def writeSector (h : Handle) (secPos secOff addr : Nat) (data : List Byte) (secRemain : Nat)
    (buf4k : List Byte) : Driver (Option Byte × List Byte) :=
  if !((buf4k.drop secOff).take secRemain).all fun b => b = 0xFF#8 then
    rewriteSector h secPos buf4k
      (buf4k.take secOff ++ data.take secRemain ++ buf4k.drop (secOff + secRemain))
  else finish (aWriteNoCheck h addr (data.take secRemain)) buf4k

/-- A round is a read and the write of the sector. -/
theorem writeLoop_eq (h : Handle) (secPos secOff addr : Nat) (data : List Byte) (secRemain : Nat)
    (buf4k : List Byte) :
    writeLoop h secPos secOff addr data secRemain buf4k =
      (aRead h (secPos * 4096) buf4k 4096).bind fun x =>
        if x.1 ≠ 0 then (debugPrint "w25qxx: read failed.\n").bind fun _ => .pure 4
        else
          (writeSector h secPos secOff addr data secRemain x.2).bind fun y =>
            match y with
            | (some res, _) => .pure res
            | (none, buf4k) =>
                if data.length ≤ secRemain ∨ secRemain = 0 then .pure 0
                else writeLoop h (secPos + 1) 0 (addr + secRemain) (data.drop secRemain)
                  (if (data.drop secRemain).length > 4096 then 4096
                    else (data.drop secRemain).length) buf4k := by
  rw [writeLoop]
  rfl

/-- A round that burns some data. -/
structure Finishes (noise : Nat → Nat → Byte) (time : Nat → Nat)
    (p : Driver (Option Byte × List Byte)) (s : Bus) (mem : Nat → Byte) : Prop where
  done : (evalAt (ideal noise time) p s).2.1 = none →
    (evalAt (ideal noise time) p s).1.chip.mem = mem ∧
      (evalAt (ideal noise time) p s).1.chip.busy = 0
  prompt : alongAt (ideal noise time) (Prompt (ideal noise time)) p s →
    (evalAt (ideal noise time) p s).2.1 = none

theorem Burns.finishes {p : Driver Byte} {addr : Nat} {data : List Byte}
    (hp : Burns noise time p s addr data) (buf4k : List Byte) :
    Finishes noise time (finish p buf4k) s (burn s.chip.mem addr data) := by
  constructor
  · rw [finish, evalAt_bind]
    by_cases hzero : (evalAt (ideal noise time) p s).2 = 0
    · rw [if_neg (not_not_intro hzero)]
      exact fun _ => hp.done hzero
    · rw [if_pos hzero]
      exact fun (hnone : some (1 : Byte) = none) => nomatch hnone
  · rw [finish, evalAt_bind, alongAt_bind]
    intro hall
    rw [if_neg (not_not_intro (hp.prompt hall.1))]
    rfl

theorem Burns.alongAt_finish {p : Driver Byte} {addr : Nat} {data : List Byte}
    (hp : Burns noise time p s addr data) (buf4k : List Byte)
    (hQ : ∀ k, Q (burn s.chip.mem addr (data.take k))) :
    alongAt (ideal noise time) (onMem (ideal noise time) Q) (finish p buf4k) s := by
  rw [finish, alongAt_bind]
  refine ⟨hp.along Q hQ, ?_⟩
  split
  · obtain ⟨k, hk⟩ := hp.reached
    refine ⟨?_, trivial⟩
    show Q (evalAt (ideal noise time) p s).1.chip.mem
    rw [hk]
    exact hQ k
  · trivial

section Sector

variable {secPos secOff secRemain : Nat} {data : List Byte}

/-- The part of the buffer that is compared with `0xFF`. -/
theorem blank_iff (mem : Nat → Byte) (h : secOff + secRemain ≤ 4096) (tail : List Byte) :
    (((slice mem (secPos * 4096) 4096 ++ tail).drop secOff).take secRemain).all
        (fun b => b = 0xFF#8) = true ↔
      ∀ x, secPos * 4096 + secOff ≤ x ∧ x < secPos * 4096 + secOff + secRemain →
        mem x = 0xFF#8 := by
  have hcell : ∀ j < secRemain,
      (((slice mem (secPos * 4096) 4096 ++ tail).drop secOff).take secRemain)[j]? =
        some (mem (secPos * 4096 + secOff + j)) := by
    intro j hj
    have hlen : (slice mem (secPos * 4096) 4096).length = 4096 := by simp [slice]
    rw [List.getElem?_take_of_lt hj, List.getElem?_drop, List.getElem?_append_left (by omega)]
    simp [slice, Nat.add_assoc, (by omega : secOff + j < 4096)]
  rw [List.all_eq_true]
  constructor
  · rintro hall x ⟨hlo, hhi⟩
    have hx := hcell (x - (secPos * 4096 + secOff)) (by omega)
    rw [Nat.add_sub_cancel' hlo] at hx
    exact of_decide_eq_true (hall _ (List.mem_of_getElem? hx))
  · intro hall b hb
    obtain ⟨j, hj⟩ := List.getElem?_of_mem hb
    have hlt : j < secRemain := by
      have := (List.getElem?_eq_some_iff.mp hj).1
      rw [List.length_take] at this
      omega
    rw [hcell j hlt] at hj
    rw [← Option.some.inj hj]
    exact decide_eq_true (hall _ ⟨by omega, by omega⟩)

/-- The second part of a sector that is written anew. -/
theorem burns_merged {s' : Bus} (h : s'.chip.busy = 0) (mem : Nat → Byte) (secOff : Nat)
    (chunk : List Byte) (hend : secPos * 4096 + 4096 ≤ flashSize) :
    Burns noise time (aWriteNoCheck idealHandle (secPos * 4096) (merged mem secPos secOff chunk)) s'
      (secPos * 4096) (merged mem secPos secOff chunk) := by
  refine burns_aWriteNoCheck h ?_ ?_
  · rw [length_merged]
    exact Nat.succ_pos _
  · rw [length_merged]
    exact hend

theorem sector_lt (hend : secPos * 4096 + 4096 ≤ flashSize) : secPos * 4096 < flashSize :=
  Nat.lt_of_lt_of_le (Nat.lt_add_of_pos_right (by decide)) hend

theorem finishes_rewriteSector (h : s.chip.busy = 0) {buf4k buf4k' chunk : List Byte}
    (hbuf : buf4k'.take 4096 = merged s.chip.mem secPos secOff chunk)
    (hend : secPos * 4096 + 4096 ≤ flashSize) :
    Finishes noise time (rewriteSector idealHandle secPos buf4k buf4k') s
      (burn (eraseSector s.chip.mem (secPos * 4096)) (secPos * 4096)
        (merged s.chip.mem secPos secOff chunk)) := by
  have hc : Changes noise time (aEraseSector idealHandle (secPos * 4096)) s _ :=
    changes_aEraseSector h (sector_lt hend)
  have hrest : ∀ s' : Bus, s'.chip.busy = 0 →
      Finishes noise time (finish (aWriteNoCheck idealHandle (secPos * 4096) (buf4k'.take 4096))
        buf4k') s' (burn s'.chip.mem (secPos * 4096) (merged s.chip.mem secPos secOff chunk)) := by
    intro s' hs'
    rw [hbuf]
    exact (burns_merged hs' s.chip.mem secOff chunk hend).finishes buf4k'
  rw [rewriteSector]
  constructor
  · rw [evalAt_bind]
    by_cases hzero : (evalAt (ideal noise time) (aEraseSector idealHandle (secPos * 4096)) s).2 = 0
    · rw [if_neg (not_not_intro hzero), ← hc.final]
      exact (hrest _ (hc.idle hzero)).done
    · rw [if_pos hzero]
      exact fun (hnone : some (5 : Byte) = none) => nomatch hnone
  · rw [evalAt_bind, alongAt_bind]
    rintro ⟨herase, hwrite⟩
    have hzero := hc.prompt herase
    rw [if_neg (not_not_intro hzero)] at hwrite ⊢
    exact (hrest _ (hc.idle hzero)).prompt hwrite

/-- What a round leaves behind: the bytes of the sector outside its data are as
they were. -/
theorem writeSector_finishes (h : s.chip.busy = 0) (hpos : 0 < secRemain)
    (hle : secRemain ≤ data.length) (hsec : secOff + secRemain ≤ 4096)
    (hend : secPos * 4096 + 4096 ≤ flashSize) (tail : List Byte) :
    ∃ mem, Finishes noise time (writeSector idealHandle secPos secOff (secPos * 4096 + secOff) data
        secRemain (slice s.chip.mem (secPos * 4096) 4096 ++ tail)) s mem ∧
      Kept s.chip.mem (secPos * 4096 + secOff) (secPos * 4096 + secOff + secRemain) mem := by
  have hchunk : (data.take secRemain).length = secRemain := by
    rw [List.length_take, Nat.min_eq_left hle]
  have hfit : secPos * 4096 + secOff + secRemain ≤ flashSize := by
    rw [Nat.add_assoc]
    exact Nat.le_trans (Nat.add_le_add_left hsec _) hend
  rw [← hchunk] at hsec
  have hbuf := take_buf4k s.chip.mem secPos hsec tail
  rw [hchunk] at hbuf
  unfold writeSector
  split
  · refine ⟨_, finishes_rewriteSector h hbuf hend, fun x hx => ?_⟩
    exact rewritten_outside _ (by rw [hchunk]; exact hx)
  · have hburns : Burns noise time
        (aWriteNoCheck idealHandle (secPos * 4096 + secOff) (data.take secRemain)) s
        (secPos * 4096 + secOff) (data.take secRemain) :=
      burns_aWriteNoCheck h (by rw [hchunk]; exact hpos) (by rw [hchunk]; exact hfit)
    refine ⟨_, hburns.finishes _, fun x hx => ?_⟩
    exact burn_outside _ (by rw [hchunk]; exact hx)

/-- The part of a sector that belongs to the range. -/
def Window (lo hi secPos secOff secRemain : Nat) : Prop :=
  ∀ x, x / 4096 = secPos → ((lo ≤ x ∧ x < hi) ↔
    (secPos * 4096 + secOff ≤ x ∧ x < secPos * 4096 + secOff + secRemain))

variable {mem : Nat → Byte} {lo hi : Nat}

theorem Window.outside (hw : Window lo hi secPos secOff secRemain) (hsec : secOff + secRemain ≤ 4096)
    {x : Nat} (hx : ¬(lo ≤ x ∧ x < hi)) :
    ¬(secPos * 4096 + secOff ≤ x ∧ x < secPos * 4096 + secOff + secRemain) := by
  intro hin
  exact hx ((hw x (by omega)).mpr hin)

/-- Erasing a sector shows every byte next to the data that was not
`0xFF`. -/
theorem alongAt_rewriteSector (h : s.chip.busy = 0) {buf4k buf4k' chunk : List Byte}
    (hbuf : buf4k'.take 4096 = merged s.chip.mem secPos secOff chunk)
    (hend : secPos * 4096 + 4096 ≤ flashSize) (hsec : secOff + chunk.length ≤ 4096)
    (hw : Window lo hi secPos secOff chunk.length) (hkept : Kept mem lo hi s.chip.mem) :
    alongAt (ideal noise time) (onMem (ideal noise time) (Kept mem lo hi))
        (rewriteSector idealHandle secPos buf4k buf4k') s ↔
      ∀ x, x / 4096 = secPos → ¬(lo ≤ x ∧ x < hi) → s.chip.mem x = 0xFF#8 := by
  have hc : Changes noise time (aEraseSector idealHandle (secPos * 4096)) s _ :=
    changes_aEraseSector h (sector_lt hend)
  rw [rewriteSector, alongAt_bind, hc.along]
  constructor
  · rintro ⟨⟨-, herased⟩, -⟩ x hx hout
    rw [hkept x hout, ← herased x hout, eraseSector_self _ hx]
  · intro hblank
    have hpart : ∀ k, Kept mem lo hi (burn (eraseSector s.chip.mem (secPos * 4096)) (secPos * 4096)
        ((merged s.chip.mem secPos secOff chunk).take k)) := by
      intro k x hx
      rw [← hkept x hx]
      exact partly_rewritten_outside _ k (hw.outside hsec hx) fun hsector => hblank x hsector hx
    have herased : Kept mem lo hi (eraseSector s.chip.mem (secPos * 4096)) := by
      have hnone := hpart 0
      rwa [List.take_zero, burn_nil] at hnone
    refine ⟨⟨hkept, herased⟩, ?_⟩
    split
    · refine ⟨?_, trivial⟩
      show Kept mem lo hi
        (evalAt (ideal noise time) (aEraseSector idealHandle (secPos * 4096)) s).1.chip.mem
      rw [hc.final]
      exact herased
    · next hzero =>
      rw [hbuf]
      refine (burns_merged (hc.idle (not_not.mp hzero)) _ _ _ hend).alongAt_finish _ fun k => ?_
      rw [hc.final]
      exact hpart k

/-- A round keeps the bytes outside the range at each of its operations iff the
sector is fine. -/
theorem alongAt_writeSector (h : s.chip.busy = 0) (hpos : 0 < secRemain)
    (hle : secRemain ≤ data.length) (hsec : secOff + secRemain ≤ 4096)
    (hend : secPos * 4096 + 4096 ≤ flashSize) (tail : List Byte)
    (hw : Window lo hi secPos secOff secRemain) (hkept : Kept mem lo hi s.chip.mem) :
    alongAt (ideal noise time) (onMem (ideal noise time) (Kept mem lo hi))
        (writeSector idealHandle secPos secOff (secPos * 4096 + secOff) data secRemain
          (slice s.chip.mem (secPos * 4096) 4096 ++ tail)) s ↔
      SectorFine s.chip.mem lo hi secPos := by
  have hchunk : (data.take secRemain).length = secRemain := by
    rw [List.length_take, Nat.min_eq_left hle]
  have hblank : _ ↔ ∀ x, secPos * 4096 + secOff ≤ x ∧ x < secPos * 4096 + secOff + secRemain → _ :=
    blank_iff s.chip.mem hsec tail
  unfold writeSector
  split
  · next hdirty =>
    rw [Bool.not_eq_true', Bool.eq_false_iff, Ne, hblank] at hdirty
    have hsec' : secOff + (data.take secRemain).length ≤ 4096 := by rwa [hchunk]
    have hw' : Window lo hi secPos secOff (data.take secRemain).length := by rwa [hchunk]
    have hbuf := take_buf4k s.chip.mem secPos hsec' tail
    rw [hchunk] at hbuf
    rw [alongAt_rewriteSector h hbuf hend hsec' hw' hkept]
    refine ⟨Or.inr, fun hfine => hfine.resolve_left fun hin => hdirty fun x hx => ?_⟩
    have hsector : x / 4096 = secPos := by omega
    exact hin x hsector ((hw x hsector).mpr hx)
  · next hclean =>
    rw [Bool.not_eq_true, Bool.not_eq_false', hblank] at hclean
    have hfit : secPos * 4096 + secOff + secRemain ≤ flashSize := by
      rw [Nat.add_assoc]
      exact Nat.le_trans (Nat.add_le_add_left hsec _) hend
    have hburns : Burns noise time
        (aWriteNoCheck idealHandle (secPos * 4096 + secOff) (data.take secRemain)) s
        (secPos * 4096 + secOff) (data.take secRemain) :=
      burns_aWriteNoCheck h (by rw [hchunk]; exact hpos) (by rw [hchunk]; exact hfit)
    refine iff_of_true (hburns.alongAt_finish _ fun k x hx => ?_) (Or.inl fun x hx hin => ?_)
    · have hout := hw.outside hsec hx
      rw [burn_outside, hkept x hx]
      rw [List.length_take, hchunk]
      omega
    · exact hclean x ((hw x hx).mp hin)

/-! ## The loop -/

theorem SectorFine.congr {mem' : Nat → Byte} {sector : Nat}
    (h : ∀ x, x / 4096 = sector → mem' x = mem x) :
    SectorFine mem' lo hi sector ↔ SectorFine mem lo hi sector := by
  unfold SectorFine
  refine or_congr ?_ ?_ <;>
    exact forall_congr' fun x => forall_congr' fun hx => by rw [h x hx]

/-- A sector without a byte of the range is fine. -/
theorem sectorFine_beyond {sector : Nat} (h : ∀ x, x / 4096 = sector → ¬(lo ≤ x ∧ x < hi)) :
    SectorFine mem lo hi sector :=
  Or.inl fun x hx hin => absurd hin (h x hx)

theorem sector_end (h : secPos * 4096 < flashSize) : secPos * 4096 + 4096 ≤ flashSize := by
  unfold flashSize at h ⊢
  omega

/-- A round of `w25qxx_write` is a read, the write of the sector, and the
rounds after it. -/
theorem alongAt_round (h : s.chip.busy = 0) (hend : secPos * 4096 + 4096 ≤ flashSize)
    (hpos : 0 < secRemain) (addr : Nat) (buf4k : List Byte) :
    alongAt (ideal noise time) R
        (writeLoop idealHandle secPos secOff addr data secRemain buf4k) s ↔
      alongAt (ideal noise time) R (aRead idealHandle (secPos * 4096) buf4k 4096) s ∧
        let p := writeSector idealHandle secPos secOff addr data secRemain
          (slice s.chip.mem (secPos * 4096) 4096 ++ buf4k.drop 4096)
        let x := evalAt (ideal noise time) p ⟨s.chip, s.count + 1⟩
        alongAt (ideal noise time) R p ⟨s.chip, s.count + 1⟩ ∧
          (x.2.1 = none → secRemain < data.length →
            alongAt (ideal noise time) R
              (writeLoop idealHandle (secPos + 1) 0 (addr + secRemain) (data.drop secRemain)
                (if (data.drop secRemain).length > 4096 then 4096
                  else (data.drop secRemain).length) x.2.2) x.1) := by
  rw [writeLoop_eq, alongAt_bind, evalAt_aRead_ideal h hend, if_neg (not_not_intro rfl),
    alongAt_bind]
  refine and_congr_right fun _ => and_congr_right fun _ => ?_
  split
  · next hsome =>
    rw [hsome]
    exact iff_of_true trivial fun hnone => absurd hnone (Option.some_ne_none _)
  · next hnone =>
    rw [hnone]
    by_cases hlast : data.length ≤ secRemain
    · rw [if_pos (Or.inl hlast)]
      exact iff_of_true trivial fun _ hlt => absurd hlt (Nat.not_lt.mpr hlast)
    · rw [if_neg (not_or.mpr ⟨hlast, Nat.ne_of_gt hpos⟩)]
      exact ⟨fun hall _ _ => hall, fun hall => hall rfl (Nat.not_le.mp hlast)⟩

/-- Where a round of `w25qxx_write` stands in the range. -/
structure Round (lo hi secPos secOff : Nat) (data : List Byte) (secRemain : Nat) : Prop where
  pos : 0 < secRemain
  sector : secOff + secRemain ≤ 4096
  le : secRemain ≤ data.length
  full : secRemain < data.length → secOff + secRemain = 4096
  first : secOff = 0 ∨ lo = secPos * 4096 + secOff
  lo_le : lo ≤ secPos * 4096 + secOff
  hi_eq : secPos * 4096 + secOff + data.length = hi
  hi_le : hi ≤ flashSize

theorem Round.window (hr : Round lo hi secPos secOff data secRemain) :
    Window lo hi secPos secOff secRemain := by
  intro x hx
  have := hr.full
  have := hr.le
  have := hr.first
  have := hr.lo_le
  have := hr.hi_eq
  omega

theorem Round.fits (hr : Round lo hi secPos secOff data secRemain) :
    secPos * 4096 + 4096 ≤ flashSize := by
  refine sector_end (Nat.lt_of_lt_of_le ?_ hr.hi_le)
  have := hr.hi_eq
  have := hr.pos
  have := hr.le
  omega

theorem Round.start_next (hr : Round lo hi secPos secOff data secRemain)
    (hmore : secRemain < data.length) :
    (secPos + 1) * 4096 + 0 = secPos * 4096 + secOff + secRemain := by
  rw [Nat.add_assoc, hr.full hmore, Nat.succ_mul, Nat.add_zero]

/-- The round after one that is not the last. -/
theorem Round.next (hr : Round lo hi secPos secOff data secRemain)
    (hmore : secRemain < data.length) :
    Round lo hi (secPos + 1) 0 (data.drop secRemain)
      (if (data.drop secRemain).length > 4096 then 4096 else (data.drop secRemain).length) := by
  have hlen : (data.drop secRemain).length = data.length - secRemain := List.length_drop
  refine ⟨?_, ?_, ?_, ?_, Or.inl rfl, ?_, ?_, hr.hi_le⟩
  · split <;> omega
  · split <;> omega
  · split <;> omega
  · split <;> omega
  · rw [hr.start_next hmore]
    exact Nat.le_add_right_of_le hr.lo_le
  · rw [hr.start_next hmore, hlen, Nat.add_assoc, Nat.add_sub_cancel' hr.le]
    exact hr.hi_eq

theorem Round.shorter (hr : Round lo hi secPos secOff data secRemain) {n : Nat}
    (hmore : secRemain < data.length) (hn : data.length = n) :
    (data.drop secRemain).length < n := by
  have := hr.pos
  rw [List.length_drop]
  omega

/-- A sector is as it was before its round. -/
theorem Round.unread (hr : Round lo hi secPos secOff data secRemain) {mem' : Nat → Byte}
    (hkept : Kept mem lo (secPos * 4096 + secOff) mem') {x : Nat} (hx : x / 4096 = secPos) :
    mem' x = mem x := by
  refine hkept x ?_
  have := hr.first
  omega

theorem Round.kept_all (hr : Round lo hi secPos secOff data secRemain) {mem' : Nat → Byte}
    (hkept : Kept mem lo (secPos * 4096 + secOff) mem') : Kept mem lo hi mem' := by
  intro x hx
  refine hkept x ?_
  have := hr.hi_eq
  omega

/-- A round shows whether its sector was fine at the start. -/
theorem Round.alongAt_writeSector (hr : Round lo hi secPos secOff data secRemain)
    (h : s.chip.busy = 0) (hkept : Kept mem lo (secPos * 4096 + secOff) s.chip.mem)
    (tail : List Byte) :
    alongAt (ideal noise time) (onMem (ideal noise time) (Kept mem lo hi))
        (writeSector idealHandle secPos secOff (secPos * 4096 + secOff) data secRemain
          (slice s.chip.mem (secPos * 4096) 4096 ++ tail)) s ↔
      SectorFine mem lo hi secPos := by
  rw [Flashdb.alongAt_writeSector h hr.pos hr.le hr.sector hr.fits tail hr.window
    (hr.kept_all hkept)]
  exact SectorFine.congr fun x hx => hr.unread hkept hx

/-- What a round leaves for the next one. -/
theorem Round.kept_next (hr : Round lo hi secPos secOff data secRemain) (h : s.chip.busy = 0)
    (hmore : secRemain < data.length) (hkept : Kept mem lo (secPos * 4096 + secOff) s.chip.mem)
    (tail : List Byte) :
    let x := evalAt (ideal noise time) (writeSector idealHandle secPos secOff
      (secPos * 4096 + secOff) data secRemain (slice s.chip.mem (secPos * 4096) 4096 ++ tail)) s
    x.2.1 = none → x.1.chip.busy = 0 ∧ Kept mem lo ((secPos + 1) * 4096 + 0) x.1.chip.mem := by
  intro x hnone
  obtain ⟨mem', hfinishes, hround⟩ := @writeSector_finishes noise time s _ _ _ _ h hr.pos hr.le
    hr.sector hr.fits tail
  obtain ⟨hmem, hidle⟩ := hfinishes.done hnone
  refine ⟨hidle, fun y hy => ?_⟩
  rw [hr.start_next hmore] at hy
  have hold : ¬(lo ≤ y ∧ y < secPos * 4096 + secOff) :=
    fun hin => hy ⟨hin.1, Nat.lt_add_right _ hin.2⟩
  have hnew : ¬(secPos * 4096 + secOff ≤ y ∧ y < secPos * 4096 + secOff + secRemain) :=
    fun hin => hy ⟨Nat.le_trans hr.lo_le hin.1, hin.2⟩
  rw [hmem, hround y hnew, hkept y hold]

/-- The rest of the loop, from a round on. -/
theorem Round.alongAt_writeLoop (hr : Round lo hi secPos secOff data secRemain)
    (h : s.chip.busy = 0) (hkept : Kept mem lo (secPos * 4096 + secOff) s.chip.mem)
    (buf4k : List Byte) :
    let p := writeLoop idealHandle secPos secOff (secPos * 4096 + secOff) data secRemain buf4k
    let fine := ∀ sector, secPos ≤ sector → SectorFine mem lo hi sector
    let kept := alongAt (ideal noise time) (onMem (ideal noise time) (Kept mem lo hi)) p s
    (fine → kept) ∧
      (alongAt (ideal noise time) (Prompt (ideal noise time)) p s → kept → fine) := by
  induction hn : data.length using Nat.strongRecOn
    generalizing secPos secOff data secRemain s buf4k with
  | _ n ih =>
      -- the read changes nothing
      have hread : alongAt (ideal noise time) (onMem (ideal noise time) (Kept mem lo hi))
          (aRead idealHandle (secPos * 4096) buf4k 4096) s :=
        alongAt_aRead_ideal buf4k (hr.kept_all hkept)
      have hsector := @alongAt_writeSector noise time ⟨s.chip, s.count + 1⟩ _ _ _ _ _ _ _ hr h
        hkept (buf4k.drop 4096)
      have hlast : data.length ≤ secRemain → ∀ sector, secPos < sector →
          SectorFine mem lo hi sector := by
        intro hle sector hlt
        refine sectorFine_beyond fun x hx => ?_
        have := hr.sector
        have := hr.hi_eq
        omega
      have hnext := fun hmore => @kept_next noise time ⟨s.chip, s.count + 1⟩ _ _ _ data mem lo hi hr
        h hmore hkept (buf4k.drop 4096)
      have hrest := fun hmore hnone buf4k' => ih _ (hr.shorter hmore hn) (hr.next hmore)
        (hnext hmore hnone).1 (hnext hmore hnone).2 buf4k' rfl
      refine ⟨fun hfine => ?_, fun hprompt hall => ?_⟩
      · refine (alongAt_round h hr.fits hr.pos _ _).mpr ⟨hread, hsector.mpr (hfine _ (Nat.le_refl _)), ?_⟩
        intro hnone hmore
        rw [← hr.start_next hmore]
        exact (hrest hmore hnone _).1 fun sector hle => hfine sector (Nat.le_of_succ_le hle)
      · obtain ⟨-, hpromptSector, hpromptRest⟩ := (alongAt_round h hr.fits hr.pos _ _).mp hprompt
        obtain ⟨-, hallSector, hallRest⟩ := (alongAt_round h hr.fits hr.pos _ _).mp hall
        intro sector hle
        rcases Nat.eq_or_lt_of_le hle with rfl | hlt
        · exact hsector.mp hallSector
        · by_cases hmore : secRemain < data.length
          · obtain ⟨_, hfinishes, -⟩ := writeSector_finishes (s := ⟨s.chip, s.count + 1⟩) h hr.pos
              hr.le hr.sector hr.fits (buf4k.drop 4096)
            have hnone := hfinishes.prompt hpromptSector
            have hpromptRest := hpromptRest hnone hmore
            have hallRest := hallRest hnone hmore
            rw [← hr.start_next hmore] at hpromptRest hallRest
            exact (hrest hmore hnone _).2 hpromptRest hallRest sector hlt
          · exact hlast (Nat.not_lt.mp hmore) sector hlt

end Sector

/-! ## The whole write -/

/-- `w25q_write` prints, and runs the loop of `w25qxx_write`. -/
theorem alongAt_w25qWriteWith (addr : Nat) (buf buf4k : List Byte) :
    alongAt (ideal noise time) R (w25qWriteWith idealHandle addr buf buf4k) s ↔
      R s (.debugPrint s!"w25q_write: addr: {addr}, size: {buf.length}\n") ∧
        alongAt (ideal noise time) R
          (writeLoop idealHandle (addr / 4096) (addr % 4096) (addr / 4096 * 4096 + addr % 4096) buf
            (if buf.length ≤ 4096 - addr % 4096 then buf.length else 4096 - addr % 4096) buf4k)
          s := by
  have hwrite : W25qxx.write idealHandle addr buf buf4k =
      writeLoop idealHandle (addr / 4096) (addr % 4096) addr buf
        (if buf.length ≤ 4096 - addr % 4096 then buf.length else 4096 - addr % 4096) buf4k := by
    exact if_neg (not_not_intro rfl)
  rw [w25qWriteWith, Prog.bind_eq, alongAt_bind, alongAt_debugPrint, Prog.bind_eq, alongAt_bind,
    hwrite, Nat.div_add_mod']
  exact and_congr_right fun _ => and_iff_left trivial

/-- The first round. -/
theorem round_start {addr : Nat} {buf : List Byte} (hpos : 1 ≤ buf.length)
    (hend : addr + buf.length ≤ flashSize) :
    Round addr (addr + buf.length) (addr / 4096) (addr % 4096) buf
      (if buf.length ≤ 4096 - addr % 4096 then buf.length else 4096 - addr % 4096) := by
  have hmod : addr % 4096 < 4096 := Nat.mod_lt _ (by decide)
  have haddr : addr / 4096 * 4096 + addr % 4096 = addr := Nat.div_add_mod' ..
  refine ⟨?_, ?_, ?_, ?_, Or.inr haddr.symm, Nat.le_of_eq haddr.symm, by rw [haddr], hend⟩
  all_goals split <;> omega

/-- The first sector is not left alone for long, whatever the times of the
chip. -/
theorem Undamaged.sectorFine_first {mem : Nat → Byte} {addr : Nat} {buf buf4k : List Byte}
    (hkept : Undamaged (ideal noise time) mem addr buf buf4k) (hpos : 1 ≤ buf.length)
    (hend : addr + buf.length ≤ flashSize) :
    SectorFine mem addr (addr + buf.length) (addr / 4096) := by
  have hr := round_start hpos hend
  have hloop := ((alongAt_w25qWriteWith addr buf buf4k).mp hkept).2
  obtain ⟨-, hsector, -⟩ := (alongAt_round rfl hr.fits hr.pos _ _).mp hloop
  exact (hr.alongAt_writeSector (s := ⟨(ready mem).chip, 1⟩) rfl (fun _ _ => rfl) _).mp hsector

/-- A write keeps the bytes outside its range at every operation if each sector
is erased inside the range or outside it.  If the chip ends each operation in
time, this is also needed. -/
theorem undamaged_iff_sectorFine (noise : Nat → Nat → Byte) (time : Nat → Nat)
    (mem : Nat → Byte) (addr : Nat) (buf buf4k : List Byte) (hpos : 1 ≤ buf.length)
    (hend : addr + buf.length ≤ flashSize) :
    ((∀ sector, SectorFine mem addr (addr + buf.length) sector) →
        Undamaged (ideal noise time) mem addr buf buf4k) ∧
      (alongAt (ideal noise time) (Prompt (ideal noise time))
          (w25qWriteWith idealHandle addr buf buf4k) (ready mem) →
        Undamaged (ideal noise time) mem addr buf buf4k →
        ∀ sector, SectorFine mem addr (addr + buf.length) sector) := by
  obtain ⟨hsuff, hneed⟩ := @Round.alongAt_writeLoop noise time (ready mem) _ _ _ _ mem _ _
    (round_start hpos hend) rfl (fun _ _ => rfl) buf4k
  constructor
  · intro hfine
    refine (alongAt_w25qWriteWith ..).mpr ⟨fun _ _ => rfl, ?_⟩
    exact hsuff fun sector _ => hfine sector
  · intro hprompt hkept sector
    by_cases hle : addr / 4096 ≤ sector
    · exact hneed ((alongAt_w25qWriteWith ..).mp hprompt).2
        ((alongAt_w25qWriteWith ..).mp hkept).2 sector hle
    · exact sectorFine_beyond fun x hx => by omega

end Spec

/-- A chip that ends each operation at once. -/
theorem prompt_at_once (noise : Nat → Nat → Byte) (s : Bus) (o : Op) :
    Prompt (ideal noise fun _ => 0) s o := by
  unfold Prompt
  split
  · exact ⟨fun _ => Nat.zero_le _, fun _ => Nat.zero_le _⟩
  · trivial

/-- The first bytes of a sector are programmed in place when its first half is
erased. -/
theorem undamaged_erased_half :
    let mem := fun x => if x < 2048 then 0xFF#8 else 0x00#8
    let env := ideal (fun _ _ => 0x00#8) fun _ => 0
    Undamaged env mem 0 [0x12#8, 0x34#8] [] ∧
      (Undamaged env mem 0 [0x12#8, 0x34#8] [] → ∀ sector, SectorFine mem 0 2 sector) := by
  intro mem env
  obtain ⟨henough, hneeded⟩ := undamaged_iff_sectorFine (fun _ _ => 0x00#8) (fun _ => 0) mem 0
    [0x12#8, 0x34#8] [] (by decide) (by decide)
  refine ⟨henough fun sector => Or.inl fun x _ hx => ?_, hneeded ?_⟩
  · exact if_pos (Nat.lt_trans hx.2 (by decide))
  · exact Prog.along_of_forall (prompt_at_once _) _ _

/-- One bit of a sector in use is cleared: the erase takes the other bytes with
it. -/
theorem not_undamaged_status_bit :
    ¬Undamaged (ideal (fun _ _ => 0x00#8) fun _ => 0) (fun _ => 0x7F#8) 0 [0x3F#8] [] := by
  intro hall
  have hfine := hall.sectorFine_first (by decide) (by decide)
  rcases hfine with hin | hout
  · exact absurd (hin 0 rfl ⟨by decide, by decide⟩) (by decide)
  · exact absurd (hout 1 rfl (by decide)) (by decide)

end DsEthComm.Flashdb
