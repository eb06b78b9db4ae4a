import DsEthComm.Flashdb.Flash

/-!
# DsEthComm.Flashdb.Status

The status tables of FlashDB, `_fdb_set_status`, `_fdb_get_status`,
`_fdb_write_status` and `_fdb_read_status`, with a write granularity of one
bit: a status is the number of bits that are clear, counted from the top of
the first byte.

A status is read from its last clear bit, and a flash that is programmed in
place only clears bits.  So a status in such a flash never goes back, and a
write that fails or is cut short leaves a status between the old one and the
new one.
-/

namespace DsEthComm.Flashdb

open Conc W25qxx

/-- `FDB_STATUS_TABLE_SIZE`. -/
def statusTableSize (statusNum : Nat) : Nat := (statusNum + 7) / 8

/-- `_fdb_set_status`: the table, and the index of the byte to write unless it
is `SIZE_MAX`. -/
def fdbSetStatus (statusNum statusIndex : Nat) : List Byte × Option Nat :=
  let statusTable := List.replicate (statusTableSize statusNum) 0xFF#8
  if statusIndex > 0 then
    let byteIndex := (statusIndex - 1) / 8
    (statusTable.modify byteIndex (· &&& (0xFF#8 >>> (statusIndex % 8))), some byteIndex)
  else (statusTable, none)

/-- `(b & (0x80 >> s)) == 0x00`. -/
def bitClear (b : Byte) (s : Nat) : Bool := b &&& (0x80#8 >>> s) == 0#8

/-- A status bit of a table is clear. -/
def cleared (statusTable : List Byte) (j : Nat) : Bool :=
  bitClear (statusTable.getD (j / 8) 0xFF#8) (j % 8)

/-- `while (status_num --)` of `_fdb_get_status`, which counts in `i`. -/
def getStatusLoop (statusTable : List Byte) : Nat → Nat → Nat
  | 0, i => i
  | statusNum + 1, i =>
      if cleared statusTable statusNum then i else getStatusLoop statusTable statusNum (i + 1)

/-- `_fdb_get_status`. -/
def fdbGetStatus (statusTable : List Byte) (statusNum : Nat) : Nat :=
  statusNum - 1 - getStatusLoop statusTable (statusNum - 1) 0

/-! ## The last clear bit -/

/-- The loop stops at the last clear bit. -/
theorem getStatusLoop_spec (statusTable : List Byte) (n i k : Nat) :
    n + i ≤ k + getStatusLoop statusTable n i ↔
      ∀ j < n, k ≤ j → cleared statusTable j = false := by
  induction n generalizing i with
  | zero => simp [getStatusLoop]
  | succ n ih =>
      rw [getStatusLoop]
      by_cases hclear : cleared statusTable n = true
      · rw [if_pos hclear]
        constructor
        · intro h j hj hk
          omega
        · intro h
          have hlt : n < k := by
            apply Nat.lt_of_not_le
            intro hk
            simp [h n (Nat.lt_succ_self n) hk] at hclear
          omega
      · have hstep : n + 1 + i = n + (i + 1) := by omega
        rw [if_neg hclear, hstep, ih]
        constructor
        · intro h j hj hk
          rcases Nat.lt_succ_iff_lt_or_eq.mp hj with hlt | rfl
          · exact h j hlt hk
          · simpa using hclear
        · exact fun h j hj => h j (Nat.lt_succ_of_lt hj)

theorem getStatusLoop_le (statusTable : List Byte) (n i : Nat) :
    getStatusLoop statusTable n i ≤ n + i := by
  induction n generalizing i with
  | zero => simp [getStatusLoop]
  | succ n ih =>
      rw [getStatusLoop]
      have hrest := ih (i + 1)
      split <;> omega

/-- **A status is at most `k`** if the bits from `k` on are set. -/
theorem fdbGetStatus_le_iff (statusTable : List Byte) (statusNum k : Nat) :
    fdbGetStatus statusTable statusNum ≤ k ↔
      ∀ j < statusNum - 1, k ≤ j → cleared statusTable j = false := by
  have hspec := getStatusLoop_spec statusTable (statusNum - 1) 0 k
  have hle := getStatusLoop_le statusTable (statusNum - 1) 0
  rw [← hspec, fdbGetStatus]
  omega

/-! ## A table that was set -/

theorem bitClear_eq {s : Nat} (hs : s < 8) (b : Byte) : bitClear b s = !b.getLsbD (7 - s) := by
  have hbit : ∀ s < 8, ∀ b : Byte, bitClear b s = !b.getLsbD (7 - s) := by decide +kernel
  exact hbit s hs b

theorem bitClear_and {s : Nat} (hs : s < 8) (a b : Byte) :
    bitClear (a &&& b) s = (bitClear a s || bitClear b s) := by
  simp [bitClear_eq hs, Bool.not_and]

theorem bitClear_or {s : Nat} (hs : s < 8) (a b : Byte) :
    bitClear (a ||| b) s = (bitClear a s && bitClear b s) := by
  simp [bitClear_eq hs, Bool.not_or]

theorem bitClear_erased {s : Nat} (hs : s < 8) : bitClear 0xFF#8 s = false := by
  revert s
  decide

/-- `0xFF >> r` has its upper bits clear. -/
theorem bitClear_shift {r s : Nat} (hr : r < 8) (hs : s < 8) :
    bitClear (0xFF#8 >>> r) s = decide (s < r) := by
  have hbit : ∀ r < 8, ∀ s < 8, bitClear (0xFF#8 >>> r) s = decide (s < r) := by decide
  exact hbit r hr s hs

/-- The bytes of a table that was set. -/
theorem getD_fdbSetStatus (statusNum statusIndex : Nat) {i : Nat} (h : i < statusTableSize statusNum) :
    (fdbSetStatus statusNum statusIndex).1.getD i 0xFF#8 =
      if 0 < statusIndex ∧ (statusIndex - 1) / 8 = i then 0xFF#8 >>> (statusIndex % 8)
      else 0xFF#8 := by
  have hand : 0xFF#8 &&& 0xFF#8 >>> (statusIndex % 8) = 0xFF#8 >>> (statusIndex % 8) := by
    rw [BitVec.and_comm, and_erased]
  by_cases hpos : 0 < statusIndex
  · by_cases hsame : (statusIndex - 1) / 8 = i
    · simpa [fdbSetStatus, hpos, hsame, h] using hand
    · simp [fdbSetStatus, hpos, hsame, h]
  · simp [fdbSetStatus, hpos, h]

theorem index_lt {statusNum j : Nat} (hj : j < statusNum) : j / 8 < statusTableSize statusNum := by
  unfold statusTableSize
  omega

/-- The bits that a status clears: none if it is a multiple of eight. -/
theorem cleared_fdbSetStatus {statusNum j : Nat} (statusIndex : Nat) (hj : j < statusNum) :
    cleared (fdbSetStatus statusNum statusIndex).1 j =
      decide (statusIndex % 8 ≠ 0 ∧ j / 8 = (statusIndex - 1) / 8 ∧ j < statusIndex) := by
  have hmod : j % 8 < 8 := Nat.mod_lt _ (by decide)
  rw [cleared, getD_fdbSetStatus _ _ (index_lt hj)]
  split
  · rw [bitClear_shift (Nat.mod_lt _ (by decide)) hmod]
    apply decide_eq_decide.mpr
    omega
  · rw [bitClear_erased hmod]
    symm
    apply decide_eq_false
    omega

/-- **A status is read as it was set**, unless it is a multiple of eight. -/
theorem fdbGetStatus_fdbSetStatus {statusNum statusIndex : Nat} (h : statusIndex < statusNum) :
    fdbGetStatus (fdbSetStatus statusNum statusIndex).1 statusNum =
      if statusIndex % 8 = 0 then 0 else statusIndex := by
  have hle := fdbGetStatus_le_iff (fdbSetStatus statusNum statusIndex).1 statusNum
  split
  · next hzero =>
    apply Nat.le_zero.mp
    rw [hle]
    intro j hj _
    rw [cleared_fdbSetStatus _ (by omega)]
    simp [hzero]
  · next hne =>
    apply Nat.le_antisymm
    · rw [hle]
      intro j hj hk
      rw [cleared_fdbSetStatus _ (by omega)]
      simp [Nat.not_lt.mpr hk]
    · apply Nat.le_of_not_lt
      intro hlt
      have hset := (hle (statusIndex - 1)).mp (by omega) (statusIndex - 1) (by omega) (Nat.le_refl _)
      rw [cleared_fdbSetStatus _ (by omega)] at hset
      simp [hne] at hset
      omega

/-! ## In flash -/

/-- `_fdb_write_status`. -/
def fdbWriteStatus (addr statusNum statusIndex : Nat) : Flash Err :=
  match fdbSetStatus statusNum statusIndex with
  | (_, none) => return .noErr
  | (statusTable, some byteIndex) =>
      fdbFlashWrite (addr + byteIndex) [statusTable.getD byteIndex 0xFF#8]

/-- The status that the flash holds. -/
def statusAt (mem : Mem) (addr totalNum : Nat) : Nat :=
  fdbGetStatus (slice mem addr (statusTableSize totalNum)) totalNum

/-- What a write of a status leaves in place, but for the bits of `left`. -/
def statusCut (left : Byte) (mem : Mem) (addr statusNum statusIndex : Nat) : Mem :=
  match fdbSetStatus statusNum statusIndex with
  | (_, none) => mem
  | (statusTable, some byteIndex) =>
      burn mem (addr + byteIndex) [statusTable.getD byteIndex 0xFF#8 ||| left]

theorem burn_erased (mem : Mem) (addr : Nat) : burn mem addr [0xFF#8] = mem := by
  funext x
  by_cases hx : x = addr
  · simp [burn, hx, and_erased]
  · exact burn_outside mem (by simp; omega)

theorem partly_singleton (mem : Mem) (addr : Nat) (b : Byte) (left : List Byte) :
    ∃ l, burn mem addr (partly [b] left) = burn mem addr [b ||| l] := by
  cases left with
  | nil =>
      have hones : b ||| 0xFF#8 = 0xFF#8 := by
        revert b
        decide +kernel
      exact ⟨0xFF#8, by rw [hones, burn_erased, partly_nil, burn_nil]⟩
  | cons l left => exact ⟨l, rfl⟩

/-- **The write of a status**, in place. -/
theorem InPlace.safe_fdbWriteStatus {P : Device flash Mem} (hP : InPlace P) (mem : Mem)
    (addr statusNum statusIndex : Nat) :
    P.Safe (fun m => ∃ left, m = statusCut left mem addr statusNum statusIndex)
      (fun err m => (err = .noErr → m = statusCut 0#8 mem addr statusNum statusIndex) ∧
        ∃ left, m = statusCut left mem addr statusNum statusIndex)
      (fdbWriteStatus addr statusNum statusIndex) mem := by
  unfold fdbWriteStatus statusCut
  rcases fdbSetStatus statusNum statusIndex with ⟨statusTable, _ | byteIndex⟩
  · exact ⟨⟨0#8, rfl⟩, fun _ => rfl, 0#8, rfl⟩
  · simp only [BitVec.or_zero]
    apply (hP.safe_write mem _ _).mono
    · rintro m ⟨left, rfl⟩
      exact partly_singleton mem _ _ left
    · rintro err m ⟨hdone, left, rfl⟩
      exact ⟨hdone, partly_singleton mem _ _ left⟩

/-- A status bit in flash is clear. -/
def clearedAt (mem : Mem) (addr j : Nat) : Bool := bitClear (mem (addr + j / 8)) (j % 8)

theorem cleared_slice (mem : Mem) (addr : Nat) {statusNum j : Nat} (hj : j < statusNum) :
    cleared (slice mem addr (statusTableSize statusNum)) j = clearedAt mem addr j := by
  simp [cleared, clearedAt, slice, index_lt hj]

theorem statusAt_le_iff (mem : Mem) (addr statusNum k : Nat) :
    statusAt mem addr statusNum ≤ k ↔
      ∀ j < statusNum - 1, k ≤ j → clearedAt mem addr j = false := by
  rw [statusAt, fdbGetStatus_le_iff]
  constructor
  · intro h j hj hk
    rw [← cleared_slice mem addr (by omega : j < statusNum)]
    exact h j hj hk
  · intro h j hj hk
    rw [cleared_slice mem addr (by omega)]
    exact h j hj hk

/-- **What a write clears that is cut short.** -/
theorem clearedAt_statusCut (left : Byte) (mem : Mem) (addr : Nat)
    {statusNum statusIndex j : Nat} (h : statusIndex < statusNum) (hj : j < statusNum) :
    clearedAt (statusCut left mem addr statusNum statusIndex) addr j =
      (clearedAt mem addr j ||
        cleared (fdbSetStatus statusNum statusIndex).1 j && bitClear left (j % 8)) := by
  have hmod : j % 8 < 8 := Nat.mod_lt _ (by decide)
  by_cases hpos : 0 < statusIndex
  · have hwrite : statusCut left mem addr statusNum statusIndex =
        burn mem (addr + (statusIndex - 1) / 8)
          [(fdbSetStatus statusNum statusIndex).1.getD ((statusIndex - 1) / 8) 0xFF#8 ||| left] := by
      simp [statusCut, fdbSetStatus, hpos]
    rw [hwrite]
    by_cases hsame : j / 8 = (statusIndex - 1) / 8
    · have hcell : ∀ b, burn mem (addr + (statusIndex - 1) / 8) [b] (addr + j / 8) =
          mem (addr + j / 8) &&& b := by
        simp [burn, hsame]
      rw [clearedAt, hcell, bitClear_and hmod, bitClear_or hmod, cleared, clearedAt, hsame]
    · have hcell : ∀ b, burn mem (addr + (statusIndex - 1) / 8) [b] (addr + j / 8) =
          mem (addr + j / 8) := by
        intro b
        apply burn_outside
        simp
        omega
      simp [clearedAt, hcell, cleared_fdbSetStatus statusIndex hj, hsame]
  · obtain rfl : statusIndex = 0 := Nat.eq_zero_of_not_pos hpos
    rw [cleared_fdbSetStatus 0 hj]
    simp [statusCut, fdbSetStatus]

/-- A write only raises a status, and not above the one that it writes. -/
theorem statusAt_cut (left : Byte) (mem : Mem) (addr : Nat)
    {statusNum statusIndex : Nat} (h : statusIndex < statusNum) :
    statusAt mem addr statusNum ≤
        statusAt (statusCut left mem addr statusNum statusIndex) addr statusNum ∧
      statusAt (statusCut left mem addr statusNum statusIndex) addr statusNum ≤
        max (statusAt mem addr statusNum) statusIndex := by
  constructor
  · rw [statusAt_le_iff]
    intro j hj hk
    have hset := (statusAt_le_iff _ addr statusNum _).mp (Nat.le_refl _) j hj hk
    rw [clearedAt_statusCut left mem addr h (by omega)] at hset
    exact (Bool.or_eq_false_iff.mp hset).1
  · rw [statusAt_le_iff]
    intro j hj hk
    have hset := (statusAt_le_iff mem addr statusNum _).mp (Nat.le_refl _) j hj (by omega)
    have hindex : ¬j < statusIndex := by omega
    rw [clearedAt_statusCut left mem addr h (by omega), hset,
      cleared_fdbSetStatus statusIndex (by omega)]
    simp [hindex]

/-- A write that is complete reaches its status. -/
theorem le_statusAt (mem : Mem) (addr : Nat) {statusNum statusIndex : Nat}
    (h : statusIndex < statusNum) (hne : statusIndex % 8 ≠ 0) :
    statusIndex ≤ statusAt (statusCut 0#8 mem addr statusNum statusIndex) addr statusNum := by
  apply Nat.le_of_not_lt
  intro hlt
  have hset := (statusAt_le_iff (statusCut 0#8 mem addr statusNum statusIndex) addr statusNum
    _).mp (Nat.le_refl _) (statusIndex - 1) (by omega) (by omega)
  have hzero : ∀ s, bitClear 0#8 s = true := by simp [bitClear]
  rw [clearedAt_statusCut _ mem addr h (by omega),
    cleared_fdbSetStatus statusIndex (by omega), hzero] at hset
  simp [hne] at hset
  omega

/-! ## Runs -/

/-- Calls of `_fdb_write_status`, one after another, each with the status that
it writes and whether it succeeds.  The others fail, or the power fails in
them. -/
inductive StatusWrites (P : Device flash Mem) (addr statusNum : Nat) :
    List (Nat × Bool) → Mem → Mem → Prop where
  | nil (mem : Mem) : StatusWrites P addr statusNum [] mem mem
  | complete {statusIndex : Nat} {writes : List (Nat × Bool)} {mem mem₁ mem' : Mem} :
      P.Ends (fdbWriteStatus addr statusNum statusIndex) mem mem₁ .noErr →
        StatusWrites P addr statusNum writes mem₁ mem' →
          StatusWrites P addr statusNum ((statusIndex, true) :: writes) mem mem'
  | cut {statusIndex : Nat} {writes : List (Nat × Bool)} {mem mem₁ mem' : Mem} :
      P.Crash (fdbWriteStatus addr statusNum statusIndex) mem mem₁ →
        StatusWrites P addr statusNum writes mem₁ mem' →
          StatusWrites P addr statusNum ((statusIndex, false) :: writes) mem mem'

/-- A write before others: what holds of them holds of all. -/
theorem statusAt_before {left : Byte} {addr statusNum statusIndex : Nat} {writes : List (Nat × Bool)}
    {mem mem' : Mem} (hw : statusIndex < statusNum)
    (hkeep : statusAt (statusCut left mem addr statusNum statusIndex) addr statusNum ≤
      statusAt mem' addr statusNum)
    (hmax : ∀ k, statusAt (statusCut left mem addr statusNum statusIndex) addr statusNum ≤ k →
      (∀ w ∈ writes, w.1 ≤ k) → statusAt mem' addr statusNum ≤ k) (success : Bool) :
    statusAt mem addr statusNum ≤ statusAt mem' addr statusNum ∧
      ∀ k, statusAt mem addr statusNum ≤ k → (∀ w ∈ (statusIndex, success) :: writes, w.1 ≤ k) →
        statusAt mem' addr statusNum ≤ k := by
  obtain ⟨hup, hbound⟩ := statusAt_cut left mem addr hw
  refine ⟨Nat.le_trans hup hkeep, fun k hk hall => ?_⟩
  have hwk := hall (statusIndex, success) (List.mem_cons_self ..)
  apply hmax k (Nat.le_trans hbound (Nat.max_le.mpr ⟨hk, hwk⟩))
  exact fun w hw => hall w (List.mem_cons_of_mem _ hw)

/-- **A status in flash never goes back**, if the flash is programmed in place.
After any run of writes, each of them successful, failed or cut short, it is at
least what it was and what every successful write set, and at most the highest
status that was written. -/
theorem writeStatuses_run {P : Device flash Mem} (hP : InPlace P) {addr statusNum : Nat}
    {writes : List (Nat × Bool)} {mem mem' : Mem} (h : ∀ w ∈ writes, w.1 < statusNum)
    (hrun : StatusWrites P addr statusNum writes mem mem') :
    statusAt mem addr statusNum ≤ statusAt mem' addr statusNum ∧
      (∀ statusIndex, (statusIndex, true) ∈ writes → statusIndex % 8 ≠ 0 →
        statusIndex ≤ statusAt mem' addr statusNum) ∧
      ∀ k, statusAt mem addr statusNum ≤ k → (∀ w ∈ writes, w.1 ≤ k) →
        statusAt mem' addr statusNum ≤ k := by
  induction hrun with
  | nil mem => simp
  | @complete statusIndex writes mem mem₁ mem' hends _ ih =>
      obtain rfl := ((hP.safe_fdbWriteStatus mem addr statusNum statusIndex).of_ends hends).1 rfl
      obtain ⟨hkeep, hreach, hmax⟩ := ih fun w hw => h w (List.mem_cons_of_mem _ hw)
      have hw := h (statusIndex, true) (List.mem_cons_self ..)
      obtain ⟨hkeep', hmax'⟩ := statusAt_before hw hkeep hmax true
      refine ⟨hkeep', fun index hmem hne => ?_, hmax'⟩
      rcases List.mem_cons.mp hmem with hthis | hlater
      · obtain ⟨rfl, -⟩ := Prod.mk.inj hthis
        exact Nat.le_trans (le_statusAt mem addr hw hne) hkeep
      · exact hreach index hlater hne
  | @cut statusIndex writes mem mem₁ mem' hcrash _ ih =>
      obtain ⟨left, rfl⟩ := (hP.safe_fdbWriteStatus mem addr statusNum statusIndex).of_crash hcrash
      obtain ⟨hkeep, hreach, hmax⟩ := ih fun w hw => h w (List.mem_cons_of_mem _ hw)
      have hw := h (statusIndex, false) (List.mem_cons_self ..)
      obtain ⟨hkeep', hmax'⟩ := statusAt_before hw hkeep hmax false
      refine ⟨hkeep', fun index hmem hne => ?_, hmax'⟩
      rcases List.mem_cons.mp hmem with hthis | hlater
      · cases hthis
      · exact hreach index hlater hne

/-- A KV is written, and its deletion is cut short between the two bits. -/
theorem writeStatuses_run_torn :
    ∃ mem', StatusWrites nor 0 6 [(1, true), (2, true), (4, false)] (fun _ => 0xFF#8) mem' ∧
      2 ≤ statusAt mem' 0 6 ∧ statusAt mem' 0 6 ≤ 4 := by
  have hwrite : ∀ {mem : Mem} {i : Nat} {b : Byte},
      fdbWriteStatus 0 6 i = fdbFlashWrite 0 [b] →
        nor.Ends (fdbWriteStatus 0 6 i) mem (burn mem 0 [b]) .noErr := by
    intro mem i b h
    rw [h]
    exact .op (Or.inl ⟨rfl, rfl⟩) (.pure _ _)
  have hcut : nor.Crash (fdbWriteStatus 0 6 4) (burn (burn (fun _ => 0xFF#8) 0 [0x7F#8]) 0 [0x3F#8])
      (burn (burn (burn (fun _ => 0xFF#8) 0 [0x7F#8]) 0 [0x3F#8]) 0 [0x1F#8]) :=
    .torn ⟨[0x10#8], rfl⟩
  have hrun : StatusWrites nor 0 6 [(1, true), (2, true), (4, false)] (fun _ => 0xFF#8) _ :=
    .complete (hwrite rfl) (.complete (hwrite rfl) (.cut hcut (.nil _)))
  obtain ⟨-, hreach, hmax⟩ := writeStatuses_run nor_inPlace (by decide) hrun
  exact ⟨_, hrun, hreach 2 (by decide) (by decide), hmax 4 (by decide) (by decide)⟩

end DsEthComm.Flashdb
