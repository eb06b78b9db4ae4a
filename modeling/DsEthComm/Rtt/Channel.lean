import DsEthComm.Bytes
import Mathlib.Algebra.BigOperators.Group.Finset.Basic

/-!
# DsEthComm.Rtt.Channel

The blocking reads of the RTT channel, `__reads` and `__readt`.

Both collect what `SEGGER_RTT_Read` has until the requested number of bytes
is there.  The progress is counted in a `uint16_t` and compared with a
`size_t`, so the loop ends for the sizes below `2 ^ 16` and for no other.
-/

namespace DsEthComm.Rtt

/-! ## The channel -/

/-- The memory, and the bytes of the down buffer with how many of them were
read and how often. -/
structure Channel where
  mem : Nat → Byte
  stream : Nat → Byte
  position : Nat
  calls : Nat

/-- Store the next `k` bytes of the stream at an address. -/
def Channel.store (c : Channel) (p k : Nat) : Channel :=
  { c with
    mem := fun q => if p ≤ q ∧ q < p + k then c.stream (c.position + (q - p)) else c.mem q
    position := c.position + k
    calls := c.calls + 1 }

/-- `SEGGER_RTT_Read(0, p, size)`.  The host decides how much there is at
each call. -/
def rttRead (host : Nat → Nat) (c : Channel) (p size : Nat) : Channel × Nat :=
  let k := min (host c.calls) size
  (c.store p k, k)

/-! ## The blocking reads -/

/-- `n - r`, with the `uint16_t` converted to a `size_t`. -/
def remaining (n : BitVec 32) (r : BitVec 16) : BitVec 32 := n - r.setWidth 32

/-- The loop `while (true)`, at most `fuel` rounds of it.  In a round that
does not end it the thread sleeps for 50 milliseconds. -/
def readLoop (host : Nat → Nat) (bp : Nat) (n : BitVec 32) :
    Nat → Channel → BitVec 16 → Option (Channel × BitVec 32)
  | 0, _, _ => none
  | fuel + 1, c, r =>
      let (c, k) := rttRead host c (bp + r.toNat) (remaining n r).toNat
      let r := r + BitVec.ofNat 16 k
      if r.setWidth 32 = n then some (c, n) else readLoop host bp n fuel c r

/-- `__reads`: the channel afterwards and the result, if it returns within
`fuel` rounds. -/
def reads (host : Nat → Nat) (fuel : Nat) (c : Channel) (bp : Nat) (n : BitVec 32) :
    Option (Channel × BitVec 32) :=
  readLoop host bp n fuel c 0

/-- `TIME_IMMEDIATE`. -/
def timeImmediate : BitVec 32 := 0

/-- `TIME_INFINITE`, `(sysinterval_t)-1`. -/
def timeInfinite : BitVec 32 := -1

/-- `__readt`. -/
def readt (host : Nat → Nat) (fuel : Nat) (c : Channel) (bp : Nat) (n timeout : BitVec 32) :
    Option (Channel × BitVec 32) :=
  if timeout = timeInfinite then readLoop host bp n fuel c 0
  else
    let (c, k) := rttRead host c bp n.toNat
    let r := BitVec.ofNat 16 k
    if timeout = timeImmediate then some (c, r.setWidth 32)
    else
      let (c, k) := rttRead host c (bp + r.toNat) (remaining n r).toNat
      some (c, (r + BitVec.ofNat 16 k).setWidth 32)

/-! ## What they should do -/

/-- The read returns `n`, with the next `n` bytes of the stream at `bp` and
everything else as it was. -/
def Delivers (read : Nat → Option (Channel × BitVec 32)) (c : Channel) (bp : Nat)
    (n : BitVec 32) : Prop :=
  ∃ fuel c', read fuel = some (c', n) ∧ c'.mem = (c.store bp n.toNat).mem

/-- From here on the host has `n` bytes, sooner or later. -/
def Supplies (host : Nat → Nat) (c : Channel) (n : BitVec 32) : Prop :=
  ∃ k, n.toNat ≤ ∑ i ∈ Finset.range k, host (c.calls + i)

/-! ## When they do -/

section Loop

variable {host : Nat → Nat} {bp : Nat} {n : BitVec 32}

/-- The first `m` bytes of a read from `c₀` are in place. -/
structure Progress (c₀ : Channel) (bp m : Nat) (c : Channel) : Prop where
  mem : c.mem = (c₀.store bp m).mem
  stream : c.stream = c₀.stream
  position : c.position = c₀.position + m

theorem Progress.start (c : Channel) (bp : Nat) : Progress c bp 0 c := by
  refine ⟨?_, rfl, rfl⟩
  funext q
  simp only [Channel.store]
  rw [if_neg (by omega)]

/-- The next chunk goes behind the bytes that are there. -/
theorem Progress.store {c₀ c : Channel} {m : Nat} (h : Progress c₀ bp m c) (k : Nat) :
    Progress c₀ bp (m + k) (c.store (bp + m) k) := by
  refine ⟨?_, h.stream, ?_⟩
  · funext q
    simp only [Channel.store, h.mem, h.stream, h.position]
    by_cases hnew : bp + m ≤ q ∧ q < bp + m + k
    · have hoffset : c₀.position + m + (q - (bp + m)) = c₀.position + (q - bp) := by omega
      rw [if_pos hnew, if_pos (by omega), hoffset]
    · rw [if_neg hnew]
      exact ite_congr (propext (by omega)) (fun _ => rfl) (fun _ => rfl)
  · simp only [Channel.store, h.position]
    omega

theorem toNat_setWidth (r : BitVec 16) : (r.setWidth 32).toNat = r.toNat := by
  rw [BitVec.toNat_setWidth, Nat.mod_eq_of_lt]
  have hlt := r.isLt
  omega

/-- Below `2 ^ 16` the counter is exact. -/
theorem toNat_remaining {r : BitVec 16} (hr : r.toNat ≤ n.toNat) :
    (remaining n r).toNat = n.toNat - r.toNat := by
  have hlt := n.isLt
  rw [remaining, BitVec.toNat_sub, toNat_setWidth]
  omega

theorem toNat_add_chunk {r : BitVec 16} {k : Nat} (hn : n.toNat < 65536)
    (hk : k ≤ n.toNat - r.toNat) (hr : r.toNat ≤ n.toNat) :
    (r + BitVec.ofNat 16 k).toNat = r.toNat + k := by
  rw [BitVec.toNat_add, BitVec.toNat_ofNat]
  omega

theorem setWidth_eq_iff {r : BitVec 16} : r.setWidth 32 = n ↔ r.toNat = n.toNat := by
  rw [← BitVec.toNat_inj, toNat_setWidth]

/-- A `uint16_t` never reaches a size of `2 ^ 16` or more. -/
theorem readLoop_eq_none (hn : 65536 ≤ n.toNat) (fuel : Nat) (c : Channel) (r : BitVec 16) :
    readLoop host bp n fuel c r = none := by
  induction fuel generalizing c r with
  | zero => rfl
  | succ fuel ih =>
      have hne : ∀ r : BitVec 16, r.setWidth 32 ≠ n := by
        intro r h
        have hlt := r.isLt
        have heq := setWidth_eq_iff.mp h
        omega
      simp only [readLoop, if_neg (hne _)]
      exact ih _ _

/-- Below it, the loop ends once the host has had enough, with the first `n`
bytes in place. -/
theorem readLoop_eq_some (hn : n.toNat < 65536) (k : Nat) {c₀ c : Channel} {r : BitVec 16}
    (hr : r.toNat ≤ n.toNat) (hc : Progress c₀ bp r.toNat c)
    (hsupply : n.toNat - r.toNat ≤ ∑ i ∈ Finset.range k, host (c.calls + i)) :
    ∃ c', readLoop host bp n (k + 1) c r = some (c', n) ∧
      c'.mem = (c₀.store bp n.toNat).mem := by
  induction k generalizing c r with
  | zero =>
      -- nothing is missing, and this round finds out
      have hdone : r.toNat = n.toNat := by
        rw [Finset.sum_range_zero] at hsupply
        omega
      have hzero : (remaining n r).toNat = 0 := by
        rw [toNat_remaining hr]
        omega
      refine ⟨c.store (bp + r.toNat) 0, ?_, ?_⟩
      · simp [readLoop, rttRead, hzero, setWidth_eq_iff.mpr hdone]
      · rw [(hc.store 0).mem, hdone, Nat.add_zero]
  | succ k ih =>
      generalize hchunk : min (host c.calls) (n.toNat - r.toNat) = chunk
      have hle : chunk ≤ n.toNat - r.toNat := hchunk ▸ Nat.min_le_right _ _
      have hcount := toNat_add_chunk hn hle hr
      have hround : readLoop host bp n (k + 1 + 1) c r =
          if (r + BitVec.ofNat 16 chunk).setWidth 32 = n then
            some (c.store (bp + r.toNat) chunk, n)
          else readLoop host bp n (k + 1) (c.store (bp + r.toNat) chunk)
            (r + BitVec.ofNat 16 chunk) := by
        rw [readLoop]
        simp only [rttRead, toNat_remaining hr, hchunk]
      have hc' := hc.store chunk
      rw [← hcount] at hc'
      rw [hround]
      split
      · next hend => exact ⟨_, rfl, setWidth_eq_iff.mp hend ▸ hc'.mem⟩
      · next hmore =>
        rw [setWidth_eq_iff] at hmore
        refine ih (by omega) hc' ?_
        have hhost : chunk = host c.calls := by omega
        have hshift : ∀ i, host (c.calls + (i + 1)) = host (c.calls + 1 + i) := by
          intro i
          congr 1
          omega
        rw [Finset.sum_range_succ', Nat.add_zero] at hsupply
        simp only [hshift] at hsupply
        show n.toNat - _ ≤ ∑ i ∈ Finset.range k, host (c.calls + 1 + i)
        omega

/-- The loop delivers exactly the sizes that its counter can hold. -/
theorem delivers_readLoop_iff {c : Channel} (h : Supplies host c n) :
    Delivers (fun fuel => readLoop host bp n fuel c 0) c bp n ↔ n.toNat < 65536 := by
  constructor
  · rintro ⟨fuel, c', hread, -⟩
    refine Nat.lt_of_not_le fun hn => ?_
    have hnone : none = some (c', n) := (readLoop_eq_none hn fuel c 0).symm.trans hread
    contradiction
  · intro hn
    obtain ⟨k, hk⟩ := h
    obtain ⟨c', hread, hmem⟩ :=
      readLoop_eq_some hn k (r := 0) (Nat.zero_le _) (Progress.start c bp) hk
    exact ⟨k + 1, c', hread, hmem⟩

end Loop

/-- Whatever the chunks, `__reads` and `__readt` **deliver exactly `n` bytes**
if and only if `n` is below `2 ^ 16`. -/
theorem delivers_iff {host : Nat → Nat} {c : Channel} {n : BitVec 32} (bp : Nat)
    (h : Supplies host c n) :
    (Delivers (fun fuel => reads host fuel c bp n) c bp n ∧
        Delivers (fun fuel => readt host fuel c bp n timeInfinite) c bp n) ↔
      n.toNat < 65536 := by
  have hreadt : (fun fuel => readt host fuel c bp n timeInfinite) =
      fun fuel => readLoop host bp n fuel c 0 := by
    funext fuel
    rw [readt, if_pos rfl]
  rw [hreadt]
  show (Delivers (fun fuel => readLoop host bp n fuel c 0) c bp n ∧ _) ↔ _
  rw [and_self, delivers_readLoop_iff h]

/-- A host that has one byte at each call. -/
def bytewise : Nat → Nat := fun _ => 1

/-- A channel with clear memory and the stream 0, 1, 2, … -/
def sampleChannel : Channel where
  mem _ := 0
  stream i := BitVec.ofNat 8 i
  position := 0
  calls := 0

theorem supplies_bytewise (c : Channel) (n : BitVec 32) : Supplies bytewise c n :=
  ⟨n.toNat, by simp [bytewise]⟩

theorem delivers_iff_bytewise :
    Supplies bytewise sampleChannel 3 ∧
      Delivers (fun fuel => reads bytewise fuel sampleChannel 0x20000000 3) sampleChannel
        0x20000000 3 :=
  ⟨supplies_bytewise _ _, ((delivers_iff 0x20000000 (supplies_bytewise _ 3)).mpr (by decide)).1⟩

/-- 65536 bytes are never delivered, however long the host goes on. -/
theorem reads_65536_not_delivered :
    Supplies bytewise sampleChannel 65536 ∧
      ¬Delivers (fun fuel => reads bytewise fuel sampleChannel 0x20000000 65536) sampleChannel
        0x20000000 65536 := by
  refine ⟨supplies_bytewise _ _, fun h => ?_⟩
  have hsmall := (delivers_readLoop_iff (supplies_bytewise _ _)).mp h
  exact absurd hsmall (by decide)

end DsEthComm.Rtt
