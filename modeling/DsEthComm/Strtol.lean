import Mathlib.Data.List.TakeWhile
import DsEthComm.CString

/-!
# DsEthComm.Strtol

`strtol` and `atoi` of the C library, for a `long` of 32 bits.

`scan` is the grammar: blanks, a sign, a prefix that selects the base, and
digits, with the exact value.  `strtol` cuts that value off at the limits of
a `long`.
-/

namespace DsEthComm

/-! ## Characters -/

/-- `isspace`. -/
def isSpace (b : Byte) : Bool := b = 0x20#8 || 0x09#8 ≤ b && b ≤ 0x0D#8

/-- The value of a character as a digit, 36 if it is none. -/
def digitVal (b : Byte) : Nat :=
  if 0x30#8 ≤ b ∧ b ≤ 0x39#8 then b.toNat - 0x30
  else if 0x41#8 ≤ b ∧ b ≤ 0x5A#8 then b.toNat - 0x41 + 10
  else if 0x61#8 ≤ b ∧ b ≤ 0x7A#8 then b.toNat - 0x61 + 10
  else 36

def isDigit (base : Nat) (b : Byte) : Bool := digitVal b < base

/-- The value of a sequence of digits. -/
def ofDigits (base : Nat) (digits : List Byte) : Nat :=
  digits.foldl (fun n b => n * base + digitVal b) 0

/-! ## Numerals -/

/-- An optional sign; `true` is a minus. -/
def sign : List Byte → Bool × List Byte
  | b :: s => if b = 0x2D#8 then (true, s) else if b = 0x2B#8 then (false, s) else (false, b :: s)
  | [] => (false, [])

/-- `0x` or `0X` before a hexadecimal digit. -/
def hexPrefix : List Byte → Option (List Byte)
  | b :: x :: d :: s =>
      if b = 0x30#8 ∧ (x = 0x78#8 ∨ x = 0x58#8) ∧ isDigit 16 d then some (d :: s) else none
  | _ => none

/-- The base and what follows its prefix.  Base 0 takes it from the text. -/
def selectBase (base : Nat) (s : List Byte) : Nat × List Byte :=
  if base = 0 then
    match hexPrefix s with
    | some s => (16, s)
    | none => if s.head? = some 0x30#8 then (8, s) else (10, s)
  else if base = 16 then (16, (hexPrefix s).getD s)
  else (base, s)

/-- The exact value of the numeral at the start of a text, and the text
behind it; `none` if there is no numeral. -/
def scan (s : List Byte) (base : Nat) : Option (Int × List Byte) :=
  let (negative, s) := sign (s.dropWhile isSpace)
  let (base, s) := selectBase base s
  let digits := s.takeWhile (isDigit base)
  if digits = [] then none
  else
    let n : Int := ofDigits base digits
    some (if negative then -n else n, s.dropWhile (isDigit base))

/-! ## Conversions -/

/-- `LONG_MAX`. -/
def longMax : Int := 0x7FFFFFFF

/-- `LONG_MIN`. -/
def longMin : Int := -0x80000000

/-- `strtol(s, &endptr, base)`: the value and the text at `endptr`. -/
def strtol (s : List Byte) (base : Nat) : Int × List Byte :=
  match scan s base with
  | some (n, rest) => (max longMin (min n longMax), rest)
  | none => (0, s)

/-- `atoi(s)`, which is `(int) strtol(s, NULL, 10)`; an `int` has 32 bits
too. -/
def atoi (s : List Byte) : Int := (strtol s 10).1

/-- The value of `atoi` is between bounds inside `long` exactly if the exact
value of the numeral is, and 0 if there is none. -/
theorem atoi_le_iff {hi : Int} (h0 : 0 ≤ hi) (h : hi < longMax) (s : List Byte) :
    0 ≤ atoi s ∧ atoi s ≤ hi ↔ ∀ n rest, scan s 10 = some (n, rest) → 0 ≤ n ∧ n ≤ hi := by
  unfold atoi strtol
  cases scan s 10 with
  | none => simpa using h0
  | some x =>
      obtain ⟨n, rest⟩ := x
      simp only [Option.some.injEq, Prod.mk.injEq, and_imp, longMin, longMax] at h ⊢
      constructor
      · rintro hn m r rfl rfl
        omega
      · intro hn
        have := hn n rest rfl rfl
        omega

/-! ## Decimal literals -/

/-- The value of a text of decimal digits. -/
def decimal (s : List Byte) : Option Nat :=
  if s ≠ [] ∧ s.all (isDigit 10) then some (ofDigits 10 s) else none

private theorem digit_facts : ∀ b : Byte, isDigit 10 b = true →
    isSpace b = false ∧ b ≠ 0x2D#8 ∧ b ≠ 0x2B#8 := by
  decide

/-- `strtol` consumes a decimal literal. -/
theorem scan_decimal {s : List Byte} {n : Nat} (h : decimal s = some n) :
    scan s 10 = some ((n : Int), []) := by
  unfold decimal at h
  split at h
  · next hdigits =>
    obtain ⟨hne, hall⟩ := hdigits
    obtain rfl := Option.some.inj h
    obtain ⟨b, s, rfl⟩ := List.exists_cons_of_ne_nil hne
    have hall := List.all_eq_true.mp hall
    obtain ⟨hspace, hminus, hplus⟩ := digit_facts b (hall b (List.mem_cons_self ..))
    have htake : (b :: s).takeWhile (isDigit 10) = b :: s := by
      rw [List.takeWhile_eq_self_iff]
      exact hall
    have hdrop : (b :: s).dropWhile (isDigit 10) = [] := by
      rw [List.dropWhile_eq_nil_iff]
      exact hall
    have hsign : sign ((b :: s).dropWhile isSpace) = (false, b :: s) := by
      simp [hspace, sign, hminus, hplus]
    simp [scan, hsign, selectBase, htake, hdrop]
  · contradiction

theorem atoi_decimal {s : List Byte} {n : Nat} (h : decimal s = some n) (hn : n ≤ longMax) :
    atoi s = n := by
  simp only [atoi, strtol, scan_decimal h, longMax, longMin] at hn ⊢
  omega

end DsEthComm
