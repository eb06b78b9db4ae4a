import Mathlib.Data.Nat.Digits.Defs
import DsEthComm.Buffer
import DsEthComm.Strtol

/-!
# DsEthComm.Chprintf

`chvprintf` of `chprintf.c`, which writes all the texts of this firmware.

Numbers are put together in `tmpbuf`, from the last digit on and eleven
bytes behind where they will stand.  An access outside of `tmpbuf` or behind
the end of the format is a fault, so is a string that is none.  What a `%f`
writes is a parameter.
-/

namespace DsEthComm.Chprintf

/-! ## Numbers -/

/-- `MAX_FILLER`. -/
def maxFiller : Nat := 11

/-- `sizeof tmpbuf`, with `CHPRINTF_USE_FLOAT`. -/
def tmpbufSize : Nat := 2 * maxFiller + 1

abbrev Tmpbuf := Buffer Byte tmpbufSize

/-- The character of a digit. -/
def digitChar (i : BitVec 32) : Byte :=
  let i := i + 0x30#32
  if i > 0x39#32 then (i + 7#32).truncate 8 else i.truncate 8

/-- `do { *--q = ...; l /= radix; } while ((ll /= radix) != 0);`.  `radix` is
an `unsigned`, so the divisions are. -/
def divideLoop (radix : BitVec 32) :
    Nat → Tmpbuf → BitVec 32 → BitVec 32 → Except Fault (Tmpbuf × Nat)
  | 0, _, _, _ => .error .outside
  | q + 1, buf, l, ll => do
      let buf ← buf.store q (digitChar (l % radix))
      if ll / radix ≠ 0#32 then divideLoop radix q buf (l / radix) (ll / radix) else .ok (buf, q)

/-- `do *p++ = *q++; while (--i);`, with `n` rounds. -/
def copyLoop : Nat → Tmpbuf → Nat → Nat → Except Fault (Tmpbuf × Nat)
  | 0, buf, p, _ => .ok (buf, p)
  | n + 1, buf, p, q => do
      let b ← buf.load q
      let buf ← buf.store p b
      copyLoop n buf (p + 1) (q + 1)

/-- `long_to_string_with_divisor`. -/
def longToStringWithDivisor (buf : Tmpbuf) (p : Nat) (num radix divisor : BitVec 32) :
    Except Fault (Tmpbuf × Nat) := do
  let ll := if divisor = 0#32 then num else divisor
  let (buf, q) ← divideLoop radix (p + maxFiller) buf num ll
  copyLoop (p + maxFiller - q) buf p q

/-- `ch_ltoa`. -/
def chLtoa (buf : Tmpbuf) (p : Nat) (num radix : BitVec 32) : Except Fault (Tmpbuf × Nat) :=
  longToStringWithDivisor buf p num radix 0#32

/-! ## Formats -/

/-- A variable argument: a word, and the string at that address, if there is
one. -/
structure Arg where
  word : BitVec 32
  target : Option CStr

/-- `va_arg`. -/
def vaArg : List Arg → Except Fault (Arg × List Arg)
  | [] => .error .outside
  | a :: ap => .ok (a, ap)

/-- `c = *fmt++`. -/
def next : List Byte → Except Fault (Byte × List Byte)
  | [] => .error .outside
  | c :: fmt => .ok (c, fmt)

/-- `if (*fmt == b) fmt++;`. -/
def flag (b : Byte) (fmt : List Byte) : Bool × List Byte :=
  if fmt.head? = some b then (true, fmt.tail) else (false, fmt)

/-- The digits of a width or a precision, and the character behind them;
`none` at the end of the format. -/
def readNumber (n : Int) : List Byte → Except Fault (Option (Int × Byte × List Byte))
  | [] => .error .outside
  | c :: fmt =>
      if c = 0#8 then .ok none
      else if 0x30#8 ≤ c ∧ c ≤ 0x39#8 then readNumber (n * 10 + (c - 0x30#8).toNat) fmt
      else .ok (some (n, c, fmt))

/-- "Width modifier." -/
def readWidth (fmt : List Byte) (ap : List Arg) :
    Except Fault (Option (Int × Byte × List Byte × List Arg)) :=
  if fmt.head? = some 0x2A#8 then do
    let (a, ap) ← vaArg ap
    let (c, fmt) ← next fmt.tail
    .ok (some (a.word.toInt, c, fmt, ap))
  else do
    let number ← readNumber 0 fmt
    .ok (number.map fun (width, c, fmt) => (width, c, fmt, ap))

/-- "Precision modifier." -/
def readPrecision (c : Byte) (fmt : List Byte) (ap : List Arg) :
    Except Fault (Option (Int × Byte × List Byte × List Arg)) :=
  if c = 0x2E#8 then
    if fmt.head? = some 0x2A#8 then do
      let (a, ap) ← vaArg ap
      let (c, fmt) ← next fmt.tail
      .ok (some (a.word.toInt, c, fmt, ap))
    else do
      let number ← readNumber 0 fmt
      .ok (number.map fun (precision, c, fmt) => (precision, c, fmt, ap))
  else .ok (some (0, c, fmt, ap))

/-- "Long modifier."  A `long` is an `int`, so it does not matter. -/
def readLong (c : Byte) (fmt : List Byte) : Except Fault (Option (Byte × List Byte)) :=
  if c = 0x6C#8 ∨ c = 0x4C#8 then do
    let (c, fmt) ← next fmt
    .ok (if c = 0#8 then none else some (c, fmt))
  else .ok (some (c, fmt))

/-- A character in `tmpbuf`. -/
def single (c : Byte) : Except Fault (List Byte) := do
  let buf ← (Buffer.uninitialised : Tmpbuf).store 0 c
  buf.copyOut 0 1

/-- A number in `tmpbuf`, behind its sign. -/
def number (sign : Option Byte) (l radix : BitVec 32) : Except Fault (List Byte) := do
  let buf : Tmpbuf := .uninitialised
  match sign with
  | none => do
      let (buf, p) ← chLtoa buf 0 l radix
      buf.copyOut 0 p
  | some b => do
      let buf ← buf.store 0 b
      let (buf, p) ← chLtoa buf 1 l radix
      buf.copyOut 0 p

/-- `case 'd'`. -/
def signed (doSign : Bool) (l : BitVec 32) : Except Fault (List Byte) :=
  if l.toInt < 0 then number (some 0x2D#8) (-l) 10#32
  else number (if doSign then some 0x2B#8 else none) l 10#32

/-- `case 's'`: what `s` points to. -/
def string (precision : Int) (a : Arg) : Except Fault (List Byte) :=
  let limit := if precision = 0 then 32767 else precision
  if a.word = 0#32 then .ok ((ascii "(null)").take limit.toNat)
  else
    match a.target with
    | none => .error .outside
    | some s => .ok (s.chars.take limit.toNat)

section

variable (ftoa : Bool → Int → List Arg → Except Fault (List Byte × List Arg))

/-- "Command decoding."  The filler, what is printed, and the arguments that
are left. -/
def command (c : Byte) (doSign : Bool) (filler : Byte) (precision : Int) (ap : List Arg) :
    Except Fault (Byte × List Byte × List Arg) :=
  if c = 0x63#8 then do
    let (a, ap) ← vaArg ap
    let text ← single (a.word.truncate 8)
    .ok (0x20#8, text, ap)
  else if c = 0x73#8 then do
    let (a, ap) ← vaArg ap
    let text ← string precision a
    .ok (0x20#8, text, ap)
  else if c = 0x44#8 ∨ c = 0x64#8 ∨ c = 0x49#8 ∨ c = 0x69#8 then do
    let (a, ap) ← vaArg ap
    let text ← signed doSign a.word
    .ok (filler, text, ap)
  else if c = 0x66#8 then do
    let (text, ap) ← ftoa doSign precision ap
    .ok (filler, text, ap)
  else if c = 0x58#8 ∨ c = 0x78#8 ∨ c = 0x50#8 ∨ c = 0x70#8 then do
    let (a, ap) ← vaArg ap
    let text ← number none a.word 16#32
    .ok (filler, text, ap)
  else if c = 0x55#8 ∨ c = 0x75#8 then do
    let (a, ap) ← vaArg ap
    let text ← number none a.word 10#32
    .ok (filler, text, ap)
  else if c = 0x4F#8 ∨ c = 0x6F#8 then do
    let (a, ap) ← vaArg ap
    let text ← number none a.word 8#32
    .ok (filler, text, ap)
  else do
    let text ← single c
    .ok (filler, text, ap)

/-- The end of the loop: the text with fillers, behind a sign if they are
zeros. -/
def justify (leftAlign : Bool) (filler : Byte) (width : Int) (text : List Byte) : List Byte :=
  let fill := List.replicate (width - text.length).toNat filler
  if leftAlign then text ++ fill
  else if fill ≠ [] ∧ (text.head? = some 0x2D#8 ∨ text.head? = some 0x2B#8) ∧ filler = 0x30#8 then
    text.take 1 ++ fill ++ text.drop 1
  else fill ++ text

/-- What is behind a `%`: what is printed, and what is left of the format and
of the arguments; `none` at the end of the format. -/
def conversion (fmt : List Byte) (ap : List Arg) :
    Except Fault (Option (List Byte × List Byte × List Arg)) := do
  let (leftAlign, fmt) := flag 0x2D#8 fmt
  let (doSign, fmt) := flag 0x2B#8 fmt
  let (zero, fmt) := flag 0x30#8 fmt
  match ← readWidth fmt ap with
  | none => .ok none
  | some (width, c, fmt, ap) =>
      match ← readPrecision c fmt ap with
      | none => .ok none
      | some (precision, c, fmt, ap) =>
          match ← readLong c fmt with
          | none => .ok none
          | some (c, fmt) => do
              let (filler, text, ap) ←
                command ftoa c doSign (if zero then 0x30#8 else 0x20#8) precision ap
              .ok (some (justify leftAlign filler width text, fmt, ap))

/-- The loop of `chvprintf`, at most `fuel` rounds of it. -/
def printLoop : Nat → List Byte → List Arg → Except Fault (List Byte)
  | 0, _, _ => .error .outside
  | fuel + 1, fmt, ap => do
      let (c, fmt) ← next fmt
      if c = 0#8 then .ok []
      else if c ≠ 0x25#8 then do
        let out ← printLoop fuel fmt ap
        .ok (c :: out)
      else
        match ← conversion ftoa fmt ap with
        | none => .ok []
        | some (text, fmt, ap) => do
            let out ← printLoop fuel fmt ap
            .ok (text ++ out)

/-- `chvprintf`: what is written to the stream.  It returns the number of the
bytes. -/
def chvprintf (fmt : List Byte) (ap : List Arg) : Except Fault (List Byte) :=
  printLoop ftoa (fmt.length + 1) (fmt ++ [0#8]) ap

end

/-! ## Numerals -/

/-- The numeral of a number, the first digit first. -/
def numeral (radix n : Nat) : List Byte :=
  if n = 0 then [0x30#8] else ((Nat.digits radix n).map fun d => digitChar (BitVec.ofNat 32 d)).reverse

/-- The digits of a number are those of its quotient and one more. -/
theorem numeral_eq {radix : Nat} (hradix : 1 < radix) (n : Nat) :
    numeral radix n =
      (if n / radix = 0 then [] else numeral radix (n / radix)) ++
        [digitChar (BitVec.ofNat 32 (n % radix))] := by
  by_cases hzero : n = 0
  · simp [hzero, numeral, digitChar]
  · rw [numeral, if_neg hzero, Nat.digits_def' hradix (Nat.pos_of_ne_zero hzero)]
    by_cases hquot : n / radix = 0
    · simp [hquot]
    · simp [hquot, numeral]

theorem numeral_ne_nil {radix : Nat} (hradix : 1 < radix) (n : Nat) : numeral radix n ≠ [] := by
  rw [numeral_eq hradix]
  simp

/-- `tmpbuf` has room for a number of 32 bits in base 8 or more. -/
theorem length_numeral {radix : Nat} (hradix : 1 < radix) (k n : Nat) (hn : n < radix ^ (k + 1)) :
    (numeral radix n).length ≤ k + 1 := by
  induction k generalizing n with
  | zero =>
      have hquot : n / radix = 0 := Nat.div_eq_of_lt (by simpa using hn)
      rw [numeral_eq hradix, if_pos hquot]
      simp
  | succ k ih =>
      have hlt : n / radix < radix ^ (k + 1) := by
        rw [Nat.div_lt_iff_lt_mul (by omega)]
        rwa [Nat.pow_succ] at hn
      have hle := ih (n / radix) hlt
      rw [numeral_eq hradix]
      split
      · simp
      · simp
        omega

/-! ## Numbers in the buffer -/

section Buffer

variable (buf : Tmpbuf)

/-- A store within `tmpbuf` changes one cell. -/
theorem store_lt {i : Nat} (hi : i < tmpbufSize) (b : Byte) :
    ∃ buf', buf.store i b = .ok buf' ∧ buf'.cell i = some b ∧
      ∀ j, j ≠ i → buf'.cell j = buf.cell j :=
  ⟨_, if_pos hi, Function.update_self .., fun _ hj => Function.update_of_ne hj ..⟩

theorem ok_bind {α β : Type} (a : α) (f : α → Except Fault β) : (Except.ok a >>= f) = f a := rfl

/-- The digits end at `q`. -/
theorem divideLoop_eq {radix : BitVec 32} (hradix : 1 < radix.toNat) (q : Nat) (l : BitVec 32)
    {ds : List Byte} (hds : numeral radix.toNat l.toNat = ds) (hroom : ds.length ≤ q)
    (hq : q ≤ tmpbufSize) :
    ∃ buf', divideLoop radix q buf l l = .ok (buf', q - ds.length) ∧
      (∀ j < ds.length, buf'.cell (q - ds.length + j) = ds[j]?) ∧
      ∀ j, j < q - ds.length ∨ q ≤ j → buf'.cell j = buf.cell j := by
  induction q generalizing buf l ds with
  | zero =>
      have hne := List.length_pos_iff.mpr (numeral_ne_nil hradix l.toNat)
      rw [hds] at hne
      omega
  | succ q ih =>
      have heq := numeral_eq hradix l.toNat
      have hdiv : (l / radix).toNat = l.toNat / radix.toNat := BitVec.toNat_udiv
      have hmod : BitVec.ofNat 32 (l.toNat % radix.toNat) = l % radix := by
        apply BitVec.eq_of_toNat_eq
        rw [BitVec.toNat_umod, BitVec.toNat_ofNat, Nat.mod_eq_of_lt]
        exact Nat.lt_of_le_of_lt (Nat.mod_le _ _) l.isLt
      have hzero : l / radix = 0#32 ↔ l.toNat / radix.toNat = 0 := by
        rw [← hdiv, BitVec.toNat_eq]
        rfl
      obtain ⟨buf₁, hstore, hcell, hframe⟩ :=
        store_lt buf (show q < tmpbufSize by omega) (digitChar (l % radix))
      rw [hmod, hds] at heq
      rw [divideLoop, hstore, ok_bind]
      by_cases hquot : l / radix = 0#32
      · rw [if_pos (hzero.mp hquot), List.nil_append] at heq
        subst heq
        rw [List.length_singleton]
        refine ⟨buf₁, if_neg (not_not_intro hquot), ?_, fun j hj => hframe j (by omega)⟩
        intro j hj
        obtain rfl : j = 0 := by omega
        simpa using hcell
      · obtain ⟨ds', hds'⟩ : ∃ ds', numeral radix.toNat (l / radix).toNat = ds' := ⟨_, rfl⟩
        rw [if_neg fun h => hquot (hzero.mpr h), ← hdiv, hds'] at heq
        have hlen := congrArg List.length heq
        rw [List.length_append, List.length_singleton] at hlen
        obtain ⟨buf', hloop, hcells, hframe'⟩ :=
          ih buf₁ (l / radix) hds' (by omega) (by omega)
        have hq' : q + 1 - ds.length = q - ds'.length := by omega
        refine ⟨buf', ?_, ?_, ?_⟩
        · rw [if_pos hquot, hloop, hq']
        · intro j hj
          rw [hq', heq]
          by_cases hlast : j = ds'.length
          · rw [hlast, List.getElem?_concat_length, Nat.sub_add_cancel (by omega),
              hframe' q (Or.inr (Nat.le_refl q)), hcell]
          · rw [List.getElem?_append_left (by omega)]
            exact hcells j (by omega)
        · intro j hj
          rw [hframe' j (by omega), hframe j (by omega)]

/-- The digits go to `p`. -/
theorem copyLoop_eq (n : Nat) {p q : Nat} (hpq : p ≤ q) (hq : q + n ≤ tmpbufSize) {ds : List Byte}
    (hlen : ds.length = n) (hds : ∀ j < n, buf.cell (q + j) = ds[j]?) :
    ∃ buf', copyLoop n buf p q = .ok (buf', p + n) ∧
      (∀ j < n, buf'.cell (p + j) = ds[j]?) ∧ ∀ j < p, buf'.cell j = buf.cell j := by
  induction n generalizing buf p q ds with
  | zero => exact ⟨buf, rfl, nofun, fun _ _ => rfl⟩
  | succ n ih =>
      cases ds with
      | nil => simp at hlen
      | cons b ds =>
          have hcell := hds 0 (Nat.zero_lt_succ n)
          rw [Nat.add_zero, List.getElem?_cons_zero] at hcell
          have hload : buf.load q = .ok b := by
            rw [Buffer.load, if_pos (by omega), hcell]
          obtain ⟨buf₁, hstore, hcell₁, hframe₁⟩ :=
            store_lt buf (show p < tmpbufSize by omega) b
          have hrest : ∀ j < n, buf₁.cell (q + 1 + j) = ds[j]? := by
            intro j hj
            rw [hframe₁ _ (by omega), Nat.add_assoc, Nat.add_comm 1, hds (j + 1) (by omega)]
            rfl
          obtain ⟨buf', hcopy, hcells, hframe⟩ :=
            ih buf₁ (p := p + 1) (by omega) (by omega) (by simpa using hlen) hrest
          refine ⟨buf', ?_, ?_, ?_⟩
          · rw [copyLoop, hload, ok_bind, hstore, ok_bind, hcopy, Nat.add_assoc, Nat.add_comm 1]
          · intro j hj
            cases j with
            | zero => rw [Nat.add_zero, hframe p (Nat.lt_succ_self p), hcell₁]; rfl
            | succ j =>
                have hj' := hcells j (by omega)
                rw [Nat.add_assoc, Nat.add_comm 1] at hj'
                simpa using hj'
          · intro j hj
            rw [hframe j (by omega), hframe₁ j (by omega)]

/-- **Numbers.**  Every number fits, behind a sign too. -/
theorem chLtoa_eq {radix : BitVec 32} (hradix : 8 ≤ radix.toNat) {p : Nat} (hp : p ≤ 1)
    (num : BitVec 32) {ds : List Byte} (hds : numeral radix.toNat num.toNat = ds) :
    ∃ buf', chLtoa buf p num radix = .ok (buf', p + ds.length) ∧
      (∀ j < ds.length, buf'.cell (p + j) = ds[j]?) ∧ ∀ j < p, buf'.cell j = buf.cell j := by
  have hfits : ds.length ≤ maxFiller := by
    rw [← hds]
    apply length_numeral (by omega)
    calc num.toNat < 2 ^ 32 := num.isLt
      _ ≤ 8 ^ (10 + 1) := by decide
      _ ≤ radix.toNat ^ (10 + 1) := Nat.pow_le_pow_left hradix _
  have hsize : p + maxFiller ≤ tmpbufSize := by
    simp only [maxFiller, tmpbufSize]
    omega
  obtain ⟨buf₁, hdivide, hcells₁, hframe₁⟩ :=
    divideLoop_eq buf (show 1 < radix.toNat by omega) (p + maxFiller) num hds
      (by omega) hsize
  have hcount : p + maxFiller - (p + maxFiller - ds.length) = ds.length := by omega
  obtain ⟨buf₂, hcopy, hcells₂, hframe₂⟩ :=
    copyLoop_eq buf₁ ds.length (show p ≤ p + maxFiller - ds.length by omega) (by omega) rfl hcells₁
  refine ⟨buf₂, ?_, hcells₂, ?_⟩
  · rw [chLtoa, longToStringWithDivisor, if_pos rfl]
    simp only [hdivide, ok_bind, hcount, hcopy]
  · intro j hj
    rw [hframe₂ j hj, hframe₁ j (Or.inl (by omega))]

/-- What `ch_ltoa` leaves in `tmpbuf`: the sign, if there is one, and the
digits. -/
theorem number_eq {radix : BitVec 32} (hradix : 8 ≤ radix.toNat) (sign : Option Byte)
    (l : BitVec 32) :
    number sign l radix = .ok (sign.toList ++ numeral radix.toNat l.toNat) := by
  have hfits : ∀ p ≤ 1, p + (numeral radix.toNat l.toNat).length ≤ tmpbufSize := by
    intro p hp
    have hlen : (numeral radix.toNat l.toNat).length ≤ 10 + 1 := by
      apply length_numeral (by omega)
      calc l.toNat < 2 ^ 32 := l.isLt
        _ ≤ 8 ^ (10 + 1) := by decide
        _ ≤ radix.toNat ^ (10 + 1) := Nat.pow_le_pow_left hradix _
    simp only [tmpbufSize, maxFiller]
    omega
  cases sign with
  | none =>
      obtain ⟨buf, hltoa, hcells, -⟩ :=
        chLtoa_eq .uninitialised hradix (Nat.zero_le 1) l rfl
      have hholds : buf.Holds (numeral radix.toNat l.toNat) :=
        ⟨by simpa using hfits 0 (Nat.zero_le 1), by simpa using hcells⟩
      simp only [number, hltoa, ok_bind, Nat.zero_add, hholds.copyOut]
      rfl
  | some b =>
      obtain ⟨buf₁, hstore, hcell, -⟩ :=
        store_lt .uninitialised (show 0 < tmpbufSize by decide) b
      obtain ⟨buf, hltoa, hcells, hframe⟩ :=
        chLtoa_eq buf₁ hradix (Nat.le_refl 1) l rfl
      have hholds : buf.Holds (b :: numeral radix.toNat l.toNat) := by
        refine ⟨by simpa [Nat.add_comm] using hfits 1 (Nat.le_refl 1), ?_⟩
        intro j hj
        cases j with
        | zero => rw [hframe 0 Nat.zero_lt_one, hcell, List.getElem?_cons_zero]
        | succ j =>
            have hj' := hcells j (by simpa using hj)
            rwa [Nat.add_comm 1] at hj'
      have hlen : 1 + (numeral radix.toNat l.toNat).length =
          (b :: numeral radix.toNat l.toNat).length := by
        rw [List.length_cons, Nat.add_comm]
      simp only [number, hstore, hltoa, ok_bind, hlen, hholds.copyOut]
      rfl

theorem single_eq (c : Byte) : single c = .ok [c] := by
  obtain ⟨buf, hstore, hcell, -⟩ :=
    store_lt .uninitialised (show 0 < tmpbufSize by decide) c
  have hholds : buf.Holds [c] := by
    refine ⟨by simp [tmpbufSize], ?_⟩
    intro j hj
    obtain rfl : j = 0 := by simpa using hj
    simpa using hcell
  rw [single, hstore, ok_bind]
  exact hholds.copyOut

end Buffer

/-- The text of an integer. -/
def integer (doSign : Bool) (n : Int) : List Byte :=
  (if n < 0 then [0x2D#8] else if doSign then [0x2B#8] else []) ++ numeral 10 n.natAbs

/-- `%d` and its like: the sign is split off before the digits are made, so that
the least number is printed as well. -/
theorem signed_eq (doSign : Bool) (l : BitVec 32) : signed doSign l = .ok (integer doSign l.toInt) := by
  have hradix : 8 ≤ (10#32).toNat := by decide
  have hlt := l.isLt
  unfold signed integer
  by_cases hneg : l.toInt < 0
  · have habs : (-l).toNat = l.toInt.natAbs := by
      rw [BitVec.toInt_eq_toNat_cond] at hneg ⊢
      rw [BitVec.toNat_neg]
      split at hneg <;> omega
    rw [if_pos hneg, if_pos hneg, number_eq hradix, habs]
    rfl
  · have habs : l.toNat = l.toInt.natAbs := by
      rw [BitVec.toInt_eq_toNat_cond] at hneg ⊢
      split at hneg <;> omega
    rw [if_neg hneg, if_neg hneg, number_eq hradix, habs]
    cases doSign <;> rfl

/-! ## Reading what is printed -/

theorem ofDigits_append_digit (base : Nat) (ds : List Byte) (b : Byte) :
    ofDigits base (ds ++ [b]) = ofDigits base ds * base + digitVal b := by
  simp [ofDigits]

/-- A digit is read as it was printed. -/
theorem digitVal_digitChar {d : Nat} (hd : d < 36) : digitVal (digitChar (BitVec.ofNat 32 d)) = d := by
  revert d
  decide

/-- A number is read as it was printed. -/
theorem ofDigits_numeral {radix : Nat} (hradix : 1 < radix) (h36 : radix ≤ 36) (n : Nat) :
    ofDigits radix (numeral radix n) = n := by
  induction n using Nat.strong_induction_on with
  | _ n ih =>
    have hmod := Nat.mod_lt n (show 0 < radix by omega)
    rw [numeral_eq hradix, ofDigits_append_digit, digitVal_digitChar (by omega)]
    split
    · next hquot =>
      rw [Nat.mod_eq_of_lt ((Nat.div_eq_zero_iff_lt (by omega)).mp hquot)]
      simp [ofDigits]
    · next hquot =>
      have hpos : 0 < n := by
        apply Nat.pos_of_ne_zero
        rintro rfl
        exact hquot (Nat.zero_div radix)
      rw [ih (n / radix) (Nat.div_lt_self hpos hradix)]
      exact Nat.div_add_mod' n radix

theorem all_numeral {radix : Nat} (hradix : 1 < radix) (h36 : radix ≤ 36) (n : Nat) :
    (numeral radix n).all (isDigit radix) = true := by
  induction n using Nat.strong_induction_on with
  | _ n ih =>
    have hmod := Nat.mod_lt n (show 0 < radix by omega)
    have hlast : isDigit radix (digitChar (BitVec.ofNat 32 (n % radix))) = true := by
      rw [isDigit, digitVal_digitChar (by omega)]
      exact decide_eq_true hmod
    rw [numeral_eq hradix, List.all_append, Bool.and_eq_true]
    refine ⟨?_, by simpa using hlast⟩
    split
    · rfl
    · next hquot =>
      have hpos : 0 < n := by
        apply Nat.pos_of_ne_zero
        rintro rfl
        exact hquot (Nat.zero_div radix)
      exact ih (n / radix) (Nat.div_lt_self hpos hradix)

/-- Zeros in front. -/
theorem ofDigits_replicate (base k : Nat) (ds : List Byte) :
    ofDigits base (List.replicate k 0x30#8 ++ ds) = ofDigits base ds := by
  have hzero : digitVal 0x30#8 = 0 := by decide
  induction k with
  | zero => rfl
  | succ k ih =>
      rw [← ih]
      simp [ofDigits, List.replicate_succ, hzero]

private theorem digit_facts : ∀ b : Byte, isDigit 10 b = true →
    isSpace b = false ∧ b ≠ 0x2D#8 ∧ b ≠ 0x2B#8 := by
  decide

/-- `strtol` skips blanks and reads a sign and the digits behind it. -/
theorem scan_digits {blanks ds : List Byte} (hblanks : blanks.all isSpace = true)
    (hne : ds ≠ []) (hds : ds.all (isDigit 10) = true) :
    scan (blanks ++ ds) 10 = some ((ofDigits 10 ds : Int), []) ∧
      scan (blanks ++ 0x2D#8 :: ds) 10 = some (-(ofDigits 10 ds : Int), []) ∧
      scan (blanks ++ 0x2B#8 :: ds) 10 = some ((ofDigits 10 ds : Int), []) := by
  have hskip : ∀ s, (blanks ++ s).dropWhile isSpace = s.dropWhile isSpace :=
    fun s => List.dropWhile_append_of_pos (List.all_eq_true.mp hblanks)
  have htake : ds.takeWhile (isDigit 10) = ds := by
    rw [List.takeWhile_eq_self_iff]
    exact List.all_eq_true.mp hds
  have hdrop : ds.dropWhile (isDigit 10) = [] := by
    rw [List.dropWhile_eq_nil_iff]
    exact List.all_eq_true.mp hds
  have hstart : ds.dropWhile isSpace = ds ∧ sign ds = (false, ds) := by
    obtain ⟨b, s, rfl⟩ := List.exists_cons_of_ne_nil hne
    obtain ⟨hspace, hminus, hplus⟩ :=
      digit_facts b (List.all_eq_true.mp hds b (List.mem_cons_self ..))
    simp [hspace, sign, hminus, hplus]
  have hsigns : isSpace 0x2D#8 = false ∧ isSpace 0x2B#8 = false := by decide
  refine ⟨?_, ?_, ?_⟩
  · simp [scan, hskip, hstart.1, hstart.2, selectBase, htake, hdrop, hne]
  · simp [scan, hskip, hsigns.1, sign, selectBase, htake, hdrop, hne]
  · simp [scan, hskip, hsigns.2, sign, selectBase, htake, hdrop, hne]

/-- Zeros go behind a sign. -/
theorem justify_signed {b : Byte} (hb : b = 0x2D#8 ∨ b = 0x2B#8) (width : Int) (text : List Byte) :
    justify false 0x30#8 width (b :: text) =
      b :: (List.replicate (width - (b :: text).length).toNat 0x30#8 ++ text) := by
  have hsign : (b :: text).head? = some 0x2D#8 ∨ (b :: text).head? = some 0x2B#8 := by
    simpa using hb
  simp only [justify, Bool.false_eq_true, if_false]
  generalize (width - (b :: text).length).toNat = k
  cases k with
  | zero => rfl
  | succ k => rw [if_pos ⟨by simp, hsign, trivial⟩]; simp

/-- Other fillers go in front. -/
theorem justify_front {filler : Byte} {text : List Byte}
    (h : filler ≠ 0x30#8 ∨ (text.head? ≠ some 0x2D#8 ∧ text.head? ≠ some 0x2B#8)) (width : Int) :
    justify false filler width text =
      List.replicate (width - text.length).toNat filler ++ text := by
  simp only [justify, Bool.false_eq_true, if_false]
  rw [if_neg]
  rintro ⟨-, hsign, hfiller⟩
  cases h with
  | inl hne => exact hne hfiller
  | inr hne => exact hsign.elim hne.1 hne.2

/-- A number that is printed to the right, with any fillers, is read again. -/
theorem scan_justify (doSign zero : Bool) (width : Int) (n : Int) :
    scan (justify false (if zero then 0x30#8 else 0x20#8) width (integer doSign n)) 10 =
      some (n, []) := by
  have hradix : 1 < 10 ∧ 10 ≤ 36 := by decide
  have hall := all_numeral hradix.1 hradix.2 n.natAbs
  have hval := ofDigits_numeral hradix.1 hradix.2 n.natAbs
  have hne := numeral_ne_nil hradix.1 n.natAbs
  unfold integer
  generalize numeral 10 n.natAbs = ds at hall hval hne
  have hread : ∀ (i j : Nat), let zs := List.replicate j 0x30#8 ++ ds
      scan (List.replicate i 0x20#8 ++ zs) 10 = some ((n.natAbs : Int), []) ∧
        scan (List.replicate i 0x20#8 ++ 0x2D#8 :: zs) 10 = some (-(n.natAbs : Int), []) ∧
        scan (List.replicate i 0x20#8 ++ 0x2B#8 :: zs) 10 = some ((n.natAbs : Int), []) := by
    intro i j zs
    have hblanks : (List.replicate i 0x20#8).all isSpace = true := by
      simp [isSpace]
    have hdigits : zs.all (isDigit 10) = true := by
      rw [List.all_append, hall, Bool.and_true]
      simp [show isDigit 10 0x30#8 = true by decide]
    have hzs : zs ≠ [] := by simp [zs, hne]
    have hds := scan_digits hblanks hzs hdigits
    rwa [ofDigits_replicate, hval] at hds
  have hhead : ds.head? ≠ some 0x2D#8 ∧ ds.head? ≠ some 0x2B#8 := by
    obtain ⟨b, s, rfl⟩ := List.exists_cons_of_ne_nil hne
    have hb := digit_facts b (List.all_eq_true.mp hall b (List.mem_cons_self ..))
    simpa using hb.2
  have hblank : (0x20#8 : Byte) ≠ 0x30#8 := by decide
  by_cases hneg : n < 0
  · have hn : -(n.natAbs : Int) = n := by omega
    rw [if_pos hneg, List.singleton_append]
    cases zero with
    | true =>
        rw [if_pos rfl, justify_signed (Or.inl rfl), ← hn]
        exact (hread 0 _).2.1
    | false =>
        rw [if_neg Bool.false_ne_true, justify_front (Or.inl hblank), ← hn]
        exact (hread _ 0).2.1
  · have hn : (n.natAbs : Int) = n := by omega
    rw [if_neg hneg]
    cases doSign with
    | true =>
        rw [if_pos rfl, List.singleton_append]
        cases zero with
        | true =>
            rw [if_pos rfl, justify_signed (Or.inr rfl), ← hn]
            exact (hread 0 _).2.2
        | false =>
            rw [if_neg Bool.false_ne_true, justify_front (Or.inl hblank), ← hn]
            exact (hread _ 0).2.2
    | false =>
        rw [if_neg Bool.false_ne_true, List.nil_append]
        cases zero with
        | true =>
            rw [if_pos rfl, justify_front (Or.inr hhead), ← hn]
            exact (hread 0 _).1
        | false =>
            rw [if_neg Bool.false_ne_true, justify_front (Or.inl hblank), ← hn]
            exact (hread _ 0).1

/-! ## The loop -/

theorem bind_eq_ok {α β : Type} {x : Except Fault α} {f : α → Except Fault β} {b : β} :
    (x >>= f) = .ok b ↔ ∃ a, x = .ok a ∧ f a = .ok b := by
  cases x with
  | error e => exact ⟨nofun, nofun⟩
  | ok a => exact ⟨fun h => ⟨a, rfl, h⟩, fun ⟨_, ha, h⟩ => Except.ok.inj ha ▸ h⟩

/-- Every part of the format takes from it, and so the loop ends. -/
theorem length_flag (b : Byte) (fmt : List Byte) : (flag b fmt).2.length ≤ fmt.length := by
  unfold flag
  split
  · simp
  · exact Nat.le_refl _

theorem length_next {fmt rest : List Byte} {c : Byte} (h : next fmt = .ok (c, rest)) :
    rest.length < fmt.length := by
  cases fmt with
  | nil => contradiction
  | cons b fmt =>
      obtain ⟨rfl, rfl⟩ := Prod.mk.inj (Except.ok.inj h)
      simp

theorem length_readNumber {n m : Int} {fmt rest : List Byte} {c : Byte}
    (h : readNumber n fmt = .ok (some (m, c, rest))) : rest.length < fmt.length := by
  induction fmt generalizing n with
  | nil => contradiction
  | cons b fmt ih =>
      rw [readNumber] at h
      split at h
      · simp at h
      split at h
      · have hlt := ih h
        simp
        omega
      · simp only [Except.ok.injEq, Option.some.injEq, Prod.mk.injEq] at h
        obtain ⟨-, -, rfl⟩ := h
        simp

theorem length_readWidth {fmt rest : List Byte} {ap ap' : List Arg} {n : Int} {c : Byte}
    (h : readWidth fmt ap = .ok (some (n, c, rest, ap'))) : rest.length ≤ fmt.length := by
  unfold readWidth at h
  split at h
  · obtain ⟨⟨a, ap₁⟩, -, h⟩ := bind_eq_ok.mp h
    obtain ⟨⟨c₁, fmt₁⟩, hnext, h⟩ := bind_eq_ok.mp h
    have hlt := length_next hnext
    simp only [Except.ok.injEq, Option.some.injEq, Prod.mk.injEq] at h
    obtain ⟨-, -, rfl, -⟩ := h
    simp at hlt
    omega
  · obtain ⟨number, hnumber, h⟩ := bind_eq_ok.mp h
    cases number with
    | none => simp at h
    | some r =>
        obtain ⟨m, c₁, fmt₁⟩ := r
        have hlt := length_readNumber hnumber
        simp only [Option.map_some, Except.ok.injEq, Option.some.injEq, Prod.mk.injEq] at h
        obtain ⟨-, -, rfl, -⟩ := h
        omega

theorem length_readPrecision {b c : Byte} {fmt rest : List Byte} {ap ap' : List Arg} {n : Int}
    (h : readPrecision b fmt ap = .ok (some (n, c, rest, ap'))) : rest.length ≤ fmt.length := by
  unfold readPrecision at h
  split at h
  · exact length_readWidth (show readWidth fmt ap = _ from h)
  · simp only [Except.ok.injEq, Option.some.injEq, Prod.mk.injEq] at h
    obtain ⟨-, -, rfl, -⟩ := h
    exact Nat.le_refl _

theorem length_readLong {b c : Byte} {fmt rest : List Byte}
    (h : readLong b fmt = .ok (some (c, rest))) : rest.length ≤ fmt.length := by
  unfold readLong at h
  split at h
  · obtain ⟨⟨c₁, fmt₁⟩, hnext, h⟩ := bind_eq_ok.mp h
    have hlt := length_next hnext
    simp only [Except.ok.injEq] at h
    split at h
    · contradiction
    · simp only [Option.some.injEq, Prod.mk.injEq] at h
      obtain ⟨-, rfl⟩ := h
      omega
  · simp only [Except.ok.injEq, Option.some.injEq, Prod.mk.injEq] at h
    obtain ⟨-, rfl⟩ := h
    exact Nat.le_refl _

section Loop

variable {ftoa : Bool → Int → List Arg → Except Fault (List Byte × List Arg)}

/-- A whole conversion takes from the format, too. -/
theorem length_conversion {fmt rest text : List Byte} {ap ap' : List Arg}
    (h : conversion ftoa fmt ap = .ok (some (text, rest, ap'))) : rest.length ≤ fmt.length := by
  have hflags := length_flag 0x2D#8 fmt
  unfold conversion at h
  simp only at h
  generalize flag 0x2D#8 fmt = f₁ at h hflags
  have hflags₂ := length_flag 0x2B#8 f₁.2
  generalize flag 0x2B#8 f₁.2 = f₂ at h hflags₂
  have hflags₃ := length_flag 0x30#8 f₂.2
  generalize flag 0x30#8 f₂.2 = f₃ at h hflags₃
  obtain ⟨w, hwidth, h⟩ := bind_eq_ok.mp h
  cases w with
  | none => simp at h
  | some w =>
      obtain ⟨width, c₁, fmt₁, ap₁⟩ := w
      have hle₁ := length_readWidth hwidth
      obtain ⟨p, hprecision, h⟩ := bind_eq_ok.mp h
      cases p with
      | none => simp at h
      | some p =>
          obtain ⟨precision, c₂, fmt₂, ap₂⟩ := p
          have hle₂ := length_readPrecision hprecision
          obtain ⟨l, hlong, h⟩ := bind_eq_ok.mp h
          cases l with
          | none => simp at h
          | some l =>
              obtain ⟨c₃, fmt₃⟩ := l
              have hle₃ := length_readLong hlong
              obtain ⟨⟨filler, text₁, ap₃⟩, -, h⟩ := bind_eq_ok.mp h
              simp only [Except.ok.injEq, Option.some.injEq, Prod.mk.injEq] at h
              obtain ⟨-, rfl, -⟩ := h
              omega

/-- One round of the loop: a character is printed, and `%` begins a
conversion. -/
theorem printLoop_cons (fuel : Nat) (c : Byte) (fmt : List Byte) (ap : List Arg) :
    printLoop ftoa (fuel + 1) (c :: fmt) ap =
      if c = 0#8 then .ok []
      else if c ≠ 0x25#8 then do
        let out ← printLoop ftoa fuel fmt ap
        .ok (c :: out)
      else
        (conversion ftoa fmt ap >>= fun r =>
          match r with
          | none => .ok []
          | some (text, fmt, ap) => do
              let out ← printLoop ftoa fuel fmt ap
              .ok (text ++ out)) := rfl

/-- More rounds than bytes are not needed. -/
theorem printLoop_fuel {fuel fuel' : Nat} {fmt : List Byte} {ap : List Arg}
    (h : fmt.length ≤ fuel) (h' : fmt.length ≤ fuel') :
    printLoop ftoa fuel fmt ap = printLoop ftoa fuel' fmt ap := by
  induction fuel generalizing fuel' fmt ap with
  | zero =>
      obtain rfl := List.length_eq_zero_iff.mp (Nat.le_zero.mp h)
      cases fuel' <;> rfl
  | succ fuel ih =>
      cases fuel' with
      | zero =>
          obtain rfl := List.length_eq_zero_iff.mp (Nat.le_zero.mp h')
          rfl
      | succ fuel' =>
          cases fmt with
          | nil => rfl
          | cons c fmt =>
              rw [List.length_cons, Nat.succ_le_succ_iff] at h h'
              rw [printLoop_cons, printLoop_cons, ih h h']
              cases hconv : conversion ftoa fmt ap with
              | error e => rfl
              | ok r =>
                  cases r with
                  | none => rfl
                  | some r =>
                      obtain ⟨text, rest, ap'⟩ := r
                      have hle := length_conversion hconv
                      have hloop : printLoop ftoa fuel rest ap' = printLoop ftoa fuel' rest ap' :=
                        ih (by omega) (by omega)
                      simp only [ok_bind, hloop]

@[simp] theorem chvprintf_nil (ap : List Arg) : chvprintf ftoa [] ap = .ok [] := rfl

/-- A text without conversions is printed as it is. -/
theorem chvprintf_append {text fmt out : List Byte} {ap : List Arg}
    (htext : ∀ c ∈ text, c ≠ 0#8 ∧ c ≠ 0x25#8) (h : chvprintf ftoa fmt ap = .ok out) :
    chvprintf ftoa (text ++ fmt) ap = .ok (text ++ out) := by
  induction text with
  | nil => exact h
  | cons c text ih =>
      obtain ⟨hzero, hpercent⟩ := htext c (List.mem_cons_self ..)
      have hrest := ih fun x hx => htext x (List.mem_cons_of_mem c hx)
      unfold chvprintf at hrest ⊢
      rw [List.cons_append, List.cons_append, List.length_cons, printLoop_cons, if_neg hzero,
        if_pos hpercent, hrest]
      rfl

/-- A conversion that ends inside of the format. -/
theorem chvprintf_conversion {fmt rest text out : List Byte} {ap ap' : List Arg}
    (h : conversion ftoa (fmt ++ [0#8]) ap = .ok (some (text, rest ++ [0#8], ap')))
    (hrest : chvprintf ftoa rest ap' = .ok out) :
    chvprintf ftoa (0x25#8 :: fmt) ap = .ok (text ++ out) := by
  have hle := length_conversion h
  have hpercent : (0x25#8 : Byte) ≠ 0#8 := by decide
  simp only [List.length_append, List.length_singleton] at hle
  unfold chvprintf at hrest ⊢
  have hloop : printLoop ftoa (fmt.length + 1) (rest ++ [0#8]) ap' = .ok out := by
    rw [← hrest]
    exact printLoop_fuel (by simp; omega) (by simp)
  rw [List.cons_append, List.length_cons, printLoop_cons, if_neg hpercent,
    if_neg (not_not_intro rfl), h, ok_bind]
  simp only [hloop, ok_bind]

section Conversions

variable {fmt out : List Byte} {ap : List Arg}

/-- `%d`. -/
theorem chvprintf_d (a : Arg) (h : chvprintf ftoa fmt ap = .ok out) :
    chvprintf ftoa (0x25#8 :: 0x64#8 :: fmt) (a :: ap) =
      .ok (integer false a.word.toInt ++ out) := by
  apply chvprintf_conversion _ h
  simp [conversion, flag, readWidth, readNumber, readPrecision, readLong, command, vaArg, ok_bind,
    signed_eq, justify]

/-- `%c`. -/
theorem chvprintf_c (a : Arg) (h : chvprintf ftoa fmt ap = .ok out) :
    chvprintf ftoa (0x25#8 :: 0x63#8 :: fmt) (a :: ap) = .ok (a.word.truncate 8 :: out) := by
  show _ = Except.ok ([a.word.truncate 8] ++ out)
  apply chvprintf_conversion _ h
  simp [conversion, flag, readWidth, readNumber, readPrecision, readLong, command, vaArg, ok_bind,
    single_eq, justify]

/-- `%s`. -/
theorem chvprintf_s {a : Arg} {s : CStr} (hword : a.word ≠ 0#32) (htarget : a.target = some s)
    (h : chvprintf ftoa fmt ap = .ok out) :
    chvprintf ftoa (0x25#8 :: 0x73#8 :: fmt) (a :: ap) = .ok (s.chars.take 32767 ++ out) := by
  have hstring : string 0 a = .ok (s.chars.take 32767) := by
    rw [string, if_neg hword, htarget]
    rfl
  apply chvprintf_conversion _ h
  simp [conversion, flag, readWidth, readNumber, readPrecision, readLong, command, vaArg, ok_bind,
    hstring, justify]

/-- `%02X` of a byte. -/
theorem chvprintf_02X {a : Arg} (b : Byte) (ha : a.word = b.setWidth 32)
    (h : chvprintf ftoa fmt ap = .ok out) :
    chvprintf ftoa (0x25#8 :: 0x30#8 :: 0x32#8 :: 0x58#8 :: fmt) (a :: ap) =
      .ok (justify false 0x30#8 2 (numeral 16 b.toNat) ++ out) := by
  have hnumber : number none a.word 16#32 = .ok (numeral 16 b.toNat) := by
    have hlt : b.toNat < 2 ^ 32 := Nat.lt_trans b.isLt (by decide)
    rw [number_eq (by decide), ha, BitVec.toNat_setWidth, Nat.mod_eq_of_lt hlt]
    rfl
  apply chvprintf_conversion _ h
  simp [conversion, flag, readWidth, readNumber, readPrecision, readLong, command, vaArg, ok_bind,
    hnumber]

end Conversions

/-- **Round trip.**  What `%d` prints to the right, with any width, sign and
fillers, `strtol` reads as the same number. -/
theorem strtol_chvprintf (ftoa : Bool → Int → List Arg → Except Fault (List Byte × List Arg))
    (doSign zero : Bool) (width n : Arg) :
    ∃ out, chvprintf ftoa (0x25#8 :: ((if doSign then [0x2B#8] else []) ++
        (if zero then [0x30#8] else []) ++ [0x2A#8, 0x64#8])) [width, n] = .ok out ∧
      strtol out 10 = (n.word.toInt, []) := by
  have hlow := BitVec.le_toInt n.word
  have hhigh := BitVec.toInt_lt (x := n.word)
  refine ⟨justify false (if zero then 0x30#8 else 0x20#8) width.word.toInt
    (integer doSign n.word.toInt) ++ [], ?_, ?_⟩
  · apply chvprintf_conversion _ (chvprintf_nil [])
    cases doSign <;> cases zero <;>
      simp [conversion, flag, readWidth, readPrecision, readLong, command, vaArg, next, ok_bind,
        signed_eq]
  · rw [List.append_nil, strtol, scan_justify]
    simp only [longMin, longMax] at hlow hhigh ⊢
    congr 1
    omega

end Loop

theorem justify_hex (width : Int) (n : Nat) :
    justify false 0x30#8 width (numeral 16 n) =
      List.replicate (width - (numeral 16 n).length).toNat 0x30#8 ++ numeral 16 n := by
  have hsigns : isDigit 16 0x2D#8 = false ∧ isDigit 16 0x2B#8 = false := by decide
  have hall := all_numeral (show 1 < 16 by decide) (by decide) n
  have hdigit : ∀ b, (numeral 16 n).head? = some b → isDigit 16 b = true := fun b hb =>
    List.all_eq_true.mp hall b (List.mem_of_mem_head? hb)
  apply justify_front
  right
  constructor
  · intro hminus
    simpa [hsigns.1] using hdigit _ hminus
  · intro hplus
    simpa [hsigns.2] using hdigit _ hplus

/-- Only digits stand in a number in hexadecimal. -/
theorem all_justify_hex (width : Int) (n : Nat) :
    (justify false 0x30#8 width (numeral 16 n)).all (isDigit 16) = true := by
  have hzero : isDigit 16 0x30#8 = true := by decide
  rw [justify_hex, List.all_append, all_numeral (by decide) (by decide), Bool.and_true]
  simp [hzero]

/-- A number in hexadecimal, with leading zeros. -/
theorem scan_hex (width : Int) (n : Nat) :
    scan (0x30#8 :: 0x78#8 :: justify false 0x30#8 width (numeral 16 n)) 0 =
      some ((n : Int), []) := by
  have hval := ofDigits_numeral (by decide : 1 < 16) (by decide) n
  have hall := all_justify_hex width n
  have hne : justify false 0x30#8 width (numeral 16 n) ≠ [] := by
    simp [justify_hex, numeral_ne_nil]
  rw [← ofDigits_replicate 16 (width - (numeral 16 n).length).toNat, ← justify_hex] at hval
  generalize justify false 0x30#8 width (numeral 16 n) = zs at hall hne hval
  rw [← hval]
  obtain ⟨d, s, rfl⟩ := List.exists_cons_of_ne_nil hne
  have hd : isDigit 16 d = true := List.all_eq_true.mp hall d (List.mem_cons_self ..)
  have htake : (d :: s).takeWhile (isDigit 16) = d :: s := by
    rw [List.takeWhile_eq_self_iff]
    exact List.all_eq_true.mp hall
  have hdrop : (d :: s).dropWhile (isDigit 16) = [] := by
    rw [List.dropWhile_eq_nil_iff]
    exact List.all_eq_true.mp hall
  have hspace : isSpace 0x30#8 = false := by decide
  simp [scan, hspace, sign, selectBase, hexPrefix, hd, htake, hdrop]

end DsEthComm.Chprintf
