import DsEthComm.W25qxx.Chip

/-!
# DsEthComm.Flashdb.Scan

The two searches of FlashDB through a sector, `find_next_kv_addr` for the
magic word of a node and `_fdb_continue_ff_addr` for the erased end.  Both
read the flash 32 bytes at a time.

A magic word may lie across two reads, so the first search takes only 28
bytes of each as places to start from.  It finds what a search byte by byte
finds, up to where its rounds end, at most 32 bytes before the end.  The
second search carries the last byte of a read over to the next.
-/

namespace DsEthComm.Flashdb

open W25qxx

theorem slice_succ (mem : Nat → Byte) (addr len : Nat) :
    slice mem addr (len + 1) = mem addr :: slice mem (addr + 1) len := by
  simp [slice, List.range_succ_eq_map, Nat.add_assoc, Nat.add_comm 1]

/-! ## The next node -/

/-- `KV_MAGIC_WORD`. -/
def kvMagicWord : BitVec 32 := 0x3030564B#32

/-- `KV_MAGIC_OFFSET`. -/
def kvMagicOffset : Nat := 4

/-- The fields of `struct kvdb_sec_info` that are read here. -/
structure KvSecInfo where
  addr : Nat
  emptyKv : Nat
deriving DecidableEq, Repr

/-- `get_sector_from_cache`, over `sector_cache_table`. -/
def getSectorFromCache (sectorCacheTable : List KvSecInfo) (secAddr : Nat) : Option KvSecInfo :=
  sectorCacheTable.find? fun sector => sector.addr = secAddr

/-- A word, low byte first. -/
def littleEndian (b₀ b₁ b₂ b₃ : Byte) : BitVec 32 :=
  b₀.zeroExtend 32 + (b₁.zeroExtend 32 <<< 8) + (b₂.zeroExtend 32 <<< 16) +
    (b₃.zeroExtend 32 <<< 24)

/-- A difference of two `uint32_t`. -/
def sub32 (a b : Nat) : Nat := (a + 0x100000000 - b) % 0x100000000

/-- The inner loop of `find_next_kv_addr`, with `n` rounds left. -/
def findMagic (buf : List Byte) (start startBak end_ : Nat) : Nat → Nat → Option Nat
  | 0, _ => none
  | n + 1, i =>
      if start + i < end_ then
        let magic := littleEndian (buf.getD i 0#8) (buf.getD (i + 1) 0#8) (buf.getD (i + 2) 0#8)
          (buf.getD (i + 3) 0#8)
        if magic = kvMagicWord ∧ sub32 (start + i) kvMagicOffset ≥ startBak then
          some (sub32 (start + i) kvMagicOffset)
        else findMagic buf start startBak end_ n (i + 1)
      else none

/-- The outer loop. -/
def findNextLoop (mem : Nat → Byte) (startBak end_ start : Nat) : Option Nat :=
  if start < end_ ∧ start + 32 < end_ then
    match findMagic (slice mem start 32) start startBak end_ 28 0 with
    | some addr => some addr
    | none => findNextLoop mem startBak end_ (start + 28)
  else none
termination_by end_ - start

/-- `find_next_kv_addr`; `none` is `FAILED_ADDR`.  That is also the address
4294967295 that a range from below 4 on gives when the magic word lies at 3,
since the difference wraps. -/
def findNextKvAddr (mem : Nat → Byte) (sectorCacheTable : List KvSecInfo) (secSize start end_ : Nat) :
    Option Nat :=
  match getSectorFromCache sectorCacheTable (start / secSize * secSize) with
  | some sector =>
      if start = sector.emptyKv then none else findNextLoop mem start end_ start
  | none => findNextLoop mem start end_ start

/-- There is a magic word. -/
def magicAt (mem : Nat → Byte) (p : Nat) : Bool :=
  littleEndian (mem p) (mem (p + 1)) (mem (p + 2)) (mem (p + 3)) = kvMagicWord

/-- A place where a node may be found whose search began at `startBak`. -/
def nodeMagic (mem : Nat → Byte) (startBak p : Nat) : Bool :=
  magicAt mem p && startBak + kvMagicOffset ≤ p

/-- The rounds of the outer loop. -/
def findRounds (end_ start : Nat) : Nat := (end_ - 32 - start + 27) / 28

/-- A read is searched from its first 28 places on. -/
theorem findMagic_eq (mem : Nat → Byte) {start startBak end_ : Nat} (hbak : 4 ≤ startBak)
    (hend : start + 32 < end_) (hstart : startBak ≤ start) (n i : Nat) (hn : i + n ≤ 28)
    (h32 : end_ < 0x100000000) :
    findMagic (slice mem start 32) start startBak end_ n i =
      ((List.range' (start + i) n).find? (nodeMagic mem startBak)).map (· - kvMagicOffset) := by
  induction n generalizing i with
  | zero => simp [findMagic]
  | succ n ih =>
      have hlt : start + i < end_ := by omega
      have hsub : sub32 (start + i) kvMagicOffset = start + i - kvMagicOffset := by
        unfold sub32 kvMagicOffset
        omega
      have hbyte : ∀ k < 32, (slice mem start 32).getD k 0#8 = mem (start + k) := by
        intro k hk
        simp [slice, hk]
      have hplace : (nodeMagic mem startBak (start + i) = true) ↔
          (littleEndian (mem (start + i)) (mem (start + (i + 1))) (mem (start + (i + 2)))
            (mem (start + (i + 3))) = kvMagicWord ∧ start + i - kvMagicOffset ≥ startBak) := by
        have hoffset : kvMagicOffset = 4 := rfl
        have hle : startBak + kvMagicOffset ≤ start + i ↔ start + i - kvMagicOffset ≥ startBak := by
          omega
        simp [nodeMagic, magicAt, Nat.add_assoc, hle]
      rw [findMagic, if_pos hlt, hbyte i (by omega), hbyte (i + 1) (by omega),
        hbyte (i + 2) (by omega), hbyte (i + 3) (by omega), hsub, List.range'_succ, List.find?_cons]
      by_cases hmagic : nodeMagic mem startBak (start + i) = true
      · rw [if_pos (hplace.mp hmagic), hmagic]
        rfl
      · rw [if_neg (mt hplace.mpr hmagic), ih (i + 1) (by omega), Bool.not_eq_true] at *
        rw [hmagic]
        rfl

/-- One more round. -/
theorem find?_rounds (p : Nat → Bool) {end_ start : Nat} (h : start + 32 < end_) :
    (List.range' start (28 * findRounds end_ start)).find? p =
      ((List.range' start 28).find? p).or
        ((List.range' (start + 28) (28 * findRounds end_ (start + 28))).find? p) := by
  have hrounds : 28 * findRounds end_ start = 28 + 28 * findRounds end_ (start + 28) := by
    unfold findRounds
    omega
  rw [hrounds, ← List.range'_append_1, List.find?_append]

/-- The search with chunks is a search place by place. -/
theorem findNextLoop_eq (mem : Nat → Byte) {startBak end_ : Nat} (hbak : 4 ≤ startBak)
    (h32 : end_ < 0x100000000) (start : Nat) (hstart : startBak ≤ start) :
    findNextLoop mem startBak end_ start =
      ((List.range' start (28 * findRounds end_ start)).find? (nodeMagic mem startBak)).map
        (· - kvMagicOffset) := by
  induction start using findNextLoop.induct mem startBak end_ with
  | case1 start h addr hfound =>
      have hread := findMagic_eq mem hbak h.2 hstart 28 0 (Nat.le_refl _) h32
      rw [hfound, Nat.add_zero] at hread
      obtain ⟨p, hp, haddr⟩ := Option.map_eq_some_iff.mp hread.symm
      rw [findNextLoop, if_pos h, hfound, find?_rounds _ h.2, hp]
      simp [haddr]
  | case2 start h hnone ih =>
      have hread := findMagic_eq mem hbak h.2 hstart 28 0 (Nat.le_refl _) h32
      rw [hnone, Nat.add_zero] at hread
      have hp := Option.map_eq_none_iff.mp hread.symm
      rw [findNextLoop, if_pos h, hnone, find?_rounds _ h.2, hp]
      simpa using ih (Nat.le_add_right_of_le hstart)
  | case3 start h =>
      have hzero : findRounds end_ start = 0 := by
        unfold findRounds
        omega
      rw [findNextLoop, if_neg h, hzero]
      rfl

/-- **No node is missed between two reads.**  `find_next_kv_addr` finds the
first node from `start` on whose magic word begins within the rounds, unless
the sector cache says that `start` is where the sector is empty. -/
theorem findNextKvAddr_eq_some_iff (mem : Nat → Byte) (sectorCacheTable : List KvSecInfo)
    (secSize : Nat) {start end_ : Nat} (hstart : 4 ≤ start) (hend : end_ < 0x100000000) (a : Nat) :
    findNextKvAddr mem sectorCacheTable secSize start end_ = some a ↔
      (∀ sector, getSectorFromCache sectorCacheTable (start / secSize * secSize) = some sector →
        start ≠ sector.emptyKv) ∧
      start ≤ a ∧ a + kvMagicOffset < start + 28 * findRounds end_ start ∧
        magicAt mem (a + kvMagicOffset) = true ∧
        ∀ b, start ≤ b → b < a → magicAt mem (b + kvMagicOffset) = false := by
  have hloop : findNextLoop mem start end_ start = some a ↔
      start ≤ a ∧ a + kvMagicOffset < start + 28 * findRounds end_ start ∧
        magicAt mem (a + kvMagicOffset) = true ∧
        ∀ b, start ≤ b → b < a → magicAt mem (b + kvMagicOffset) = false := by
    rw [findNextLoop_eq mem hstart hend start (Nat.le_refl _), Option.map_eq_some_iff]
    have hoffset : kvMagicOffset = 4 := rfl
    constructor
    · rintro ⟨p, hfind, rfl⟩
      obtain ⟨hp, hrange, hbefore⟩ := List.find?_range'_eq_some.mp hfind
      simp only [nodeMagic, Bool.and_eq_true, decide_eq_true_eq] at hp
      have hback : p - kvMagicOffset + kvMagicOffset = p := by omega
      rw [List.mem_range'_1] at hrange
      refine ⟨by omega, by omega, by rw [hback]; exact hp.1, ?_⟩
      intro b hb hlt
      have hmiss := hbefore (b + kvMagicOffset) (by omega) (by omega)
      simpa [nodeMagic, hb] using hmiss
    · rintro ⟨hle, hlt, hmagic, hbefore⟩
      refine ⟨a + kvMagicOffset, List.find?_range'_eq_some.mpr ⟨?_, ?_, ?_⟩, by omega⟩
      · simp [nodeMagic, hmagic, hle]
      · rw [List.mem_range'_1]
        omega
      · intro j hj hja
        by_cases hnear : start + kvMagicOffset ≤ j
        · have hmiss := hbefore (j - kvMagicOffset) (by omega) (by omega)
          have hback : j - kvMagicOffset + kvMagicOffset = j := by omega
          rw [hback] at hmiss
          simp [nodeMagic, hmiss]
        · simp [nodeMagic, hnear]
  rw [findNextKvAddr]
  cases hcache : getSectorFromCache sectorCacheTable (start / secSize * secSize) with
  | none => simpa using hloop
  | some sector =>
      by_cases hempty : start = sector.emptyKv
      · simp [hempty]
      · simpa [hempty] using hloop

/-- A node behind bytes that are none. -/
theorem findNextKvAddr_eq_some_iff_next :
    findNextKvAddr (fun x => ([0x4B#8, 0x56#8, 0x30#8, 0x30#8]).getD (x - 30) 0#8) [] 4096 16
      4080 = some 26 := by
  rw [findNextKvAddr_eq_some_iff _ _ _ (by decide) (by decide)]
  have hbefore : ∀ b < 26, magicAt (fun x => ([0x4B#8, 0x56#8, 0x30#8, 0x30#8]).getD (x - 30) 0#8)
      (b + kvMagicOffset) = false := by decide
  exact ⟨by simp [getSectorFromCache], by decide, by decide, by decide, fun b _ => hbefore b⟩

/-! ## The erased end -/

/-- `last_data` and `addr` of `_fdb_continue_ff_addr`. -/
structure FfScan where
  lastData : Byte
  addr : Nat

/-- The inner loop, with `i` bytes of the read behind it. -/
def ffLoop (start : Nat) : List Byte → Nat → FfScan → FfScan
  | [], _, s => s
  | b :: buf, i, s =>
      let addr := if s.lastData ≠ 0xFF#8 ∧ b = 0xFF#8 then start + i else s.addr
      ffLoop start buf (i + 1) ⟨b, addr⟩

/-- The outer loop. -/
def ffReads (mem : Nat → Byte) (end_ start : Nat) (s : FfScan) : FfScan :=
  if start < end_ then
    let readSize := if start + 32 < end_ then 32 else end_ - start
    ffReads mem end_ (start + 32) (ffLoop start (slice mem start readSize) 0 s)
  else s
termination_by end_ - start

/-- `_fdb_continue_ff_addr`; with a granularity of one bit nothing is
aligned.  The `uint32_t` that counts does not wrap in a range that ends at most
at `2^32 - 32`. -/
def fdbContinueFfAddr (mem : Nat → Byte) (start end_ : Nat) : Nat :=
  let s := ffReads mem end_ start ⟨0x00#8, start⟩
  if s.lastData = 0xFF#8 then s.addr else end_

/-- What the locals say about the bytes from `start` up to `pos`: where the
last erased ones begin. -/
structure FfTail (mem : Nat → Byte) (start pos : Nat) (s : FfScan) : Prop where
  reached : start ≤ pos
  erased : s.lastData = 0xFF#8 → start ≤ s.addr ∧ s.addr < pos ∧
    (∀ x, s.addr ≤ x → x < pos → mem x = 0xFF#8) ∧ (s.addr = start ∨ mem (s.addr - 1) ≠ 0xFF#8)
  written : s.lastData ≠ 0xFF#8 → pos = start ∨ mem (pos - 1) ≠ 0xFF#8

theorem FfTail.next {mem : Nat → Byte} {start pos : Nat} {s : FfScan} (h : FfTail mem start pos s) :
    FfTail mem start (pos + 1)
      ⟨mem pos, if s.lastData ≠ 0xFF#8 ∧ mem pos = 0xFF#8 then pos else s.addr⟩ where
  reached := Nat.le_succ_of_le h.reached
  erased := by
    intro hpos
    have hreached := h.reached
    by_cases hlast : s.lastData = 0xFF#8
    · -- the erased bytes go on
      obtain ⟨hle, hlt, hall, hfirst⟩ := h.erased hlast
      rw [if_neg (fun hc => hc.1 hlast)]
      refine ⟨hle, Nat.lt_succ_of_lt hlt, ?_, hfirst⟩
      intro x hx hxpos
      rcases Nat.lt_succ_iff_lt_or_eq.mp hxpos with hx' | rfl
      · exact hall x hx hx'
      · exact hpos
    · -- they begin here
      rw [if_pos ⟨hlast, hpos⟩]
      refine ⟨hreached, Nat.lt_succ_self pos, ?_, h.written hlast⟩
      intro x hx hxpos
      have hle : pos ≤ x := hx
      obtain rfl : x = pos := by omega
      exact hpos
  written hpos := Or.inr hpos

/-- A read. -/
theorem FfTail.read {mem : Nat → Byte} {start₀ start i : Nat} {s : FfScan}
    (h : FfTail mem start₀ (start + i) s) (n : Nat) :
    FfTail mem start₀ (start + (i + n)) (ffLoop start (slice mem (start + i) n) i s) := by
  induction n generalizing i s with
  | zero => exact h
  | succ n ih =>
      have hindex : i + (n + 1) = i + 1 + n := by omega
      rw [slice_succ, ffLoop, hindex]
      exact ih (i := i + 1) h.next

/-- All reads. -/
theorem FfTail.reads {mem : Nat → Byte} {start₀ start end_ : Nat} {s : FfScan}
    (h : FfTail mem start₀ start s) (hend : start ≤ end_) :
    FfTail mem start₀ end_ (ffReads mem end_ start s) := by
  induction start, s using ffReads.induct mem end_ with
  | case1 start s hlt readSize ih =>
      have hread := h.read (i := 0) readSize
      rw [Nat.zero_add] at hread
      rw [ffReads, if_pos hlt]
      by_cases hfull : start + 32 < end_
      · have hsize : readSize = 32 := if_pos hfull
        rw [hsize] at hread ih
        rw [if_pos hfull]
        exact ih hread (by omega)
      · -- the last read ends at the end
        have hsize : readSize = end_ - start := if_neg hfull
        have hdone : start + (end_ - start) = end_ := by omega
        rw [hsize, hdone] at hread
        rw [if_neg hfull, ffReads, if_neg (by omega)]
        exact hread
  | case2 start s hlt =>
      obtain rfl : start = end_ := by omega
      rwa [ffReads, if_neg hlt]

/-- **`_fdb_continue_ff_addr` finds where the erased end begins**: from an
address on everything is erased exactly if it is not before the result, and
the result is in the range. -/
theorem fdbContinueFfAddr_spec (mem : Nat → Byte) (start end_ : Nat) :
    (start ≤ end_ → start ≤ fdbContinueFfAddr mem start end_ ∧
      fdbContinueFfAddr mem start end_ ≤ end_) ∧
      ∀ a, start ≤ a → (fdbContinueFfAddr mem start end_ ≤ a ↔
        ∀ x, a ≤ x → x < end_ → mem x = 0xFF#8) := by
  by_cases hrange : start ≤ end_
  · have hbegin : FfTail mem start start ⟨0x00#8, start⟩ :=
      ⟨Nat.le_refl _, fun h => by simp at h, fun _ => Or.inl rfl⟩
    have htail := hbegin.reads hrange
    generalize hs : ffReads mem end_ start ⟨0x00#8, start⟩ = s at htail
    rw [fdbContinueFfAddr, hs]
    by_cases hlast : s.lastData = 0xFF#8
    · obtain ⟨hle, hlt, hall, hfirst⟩ := htail.erased hlast
      simp only [hlast, if_true]
      refine ⟨fun _ => ⟨hle, Nat.le_of_lt hlt⟩, fun a ha => ⟨?_, ?_⟩⟩
      · exact fun haddr x hx hend => hall x (Nat.le_trans haddr hx) hend
      · intro herased
        apply Nat.le_of_not_lt
        intro hbefore
        rcases hfirst with hstart | hwritten
        · omega
        · exact hwritten (herased (s.addr - 1) (by omega) (by omega))
    · simp only [hlast, if_false]
      refine ⟨fun _ => ⟨hrange, Nat.le_refl _⟩, fun a ha => ⟨?_, ?_⟩⟩
      · intro haddr x hx hend
        omega
      · intro herased
        apply Nat.le_of_not_lt
        intro hbefore
        rcases htail.written hlast with hstart | hwritten
        · omega
        · exact hwritten (herased (end_ - 1) (by omega) (by omega))
  · have hnone : fdbContinueFfAddr mem start end_ = end_ := by
      have hlt : ¬start < end_ := by omega
      rw [fdbContinueFfAddr, ffReads]
      simp [hlt]
    rw [hnone]
    refine ⟨fun h => absurd h hrange, fun a ha => ⟨fun _ x hx hend => ?_, fun _ => ?_⟩⟩
    · omega
    · omega

end DsEthComm.Flashdb
