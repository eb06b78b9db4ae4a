import DsEthComm.Strtol
import Mathlib.Algebra.Group.Nat.Defs

/-!
# DsEthComm.Udp.Inet

Internet addresses as text, `ip4addr_aton` and `ip4addr_ntoa_r` of lwIP.
`inet_aton` is the former.

`Dotted` is the grammar of what is accepted: one to four numerals in the
notation of C, then the end of the text or a blank.  The numerals are
evaluated in 32 bits, so a numeral is accepted if its remainder is.
-/

namespace DsEthComm.Udp.Inet

abbrev U32 := BitVec 32

/-! ## Reading -/

/-- `lwip_islower`. -/
def isLower (c : Byte) : Bool := 0x61#8 ≤ c && c ≤ 0x7A#8

/-- The loop over the digits: `val` and the text behind them. -/
def scanDigits (base : Nat) (val : U32) : List Byte → U32 × List Byte
  | [] => (val, [])
  | c :: cp =>
      if isDigit 10 c then
        if base = 8 ∧ c.toNat - 0x30 ≥ 8 then (val, c :: cp)
        else scanDigits base (val * BitVec.ofNat 32 base + BitVec.ofNat 32 (c.toNat - 0x30)) cp
      else if base = 16 ∧ isDigit 16 c then
        scanDigits base
          (val <<< 4 ||| BitVec.ofNat 32 (c.toNat + 10 - if isLower c then 0x61 else 0x41)) cp
      else (val, c :: cp)

/-- `base`, and where the digits begin. -/
def baseOf : List Byte → Nat × List Byte
  | c :: cp =>
      if c = 0x30#8 then
        match cp with
        | x :: cp' => if x = 0x78#8 ∨ x = 0x58#8 then (16, cp') else (8, x :: cp')
        | [] => (8, [])
      else (10, c :: cp)
  | [] => (10, [])

/-- "Collect number up to '.'". -/
def number (cp : List Byte) : Option (U32 × List Byte) :=
  if cp.head?.any (isDigit 10) then
    let (base, digits) := baseOf cp
    some (scanDigits base 0#32 digits)
  else none

/-- The outer loop, with room for `room` more entries of `parts`: the
numbers, `val` the last of them, and what is behind them. -/
def collect : Nat → List Byte → Option (List U32 × List Byte)
  | room, cp =>
      match number cp with
      | none => none
      | some (val, cp) =>
          if cp.head? = some 0x2E#8 then
            match room with
            | 0 => none
            | room + 1 => (collect room cp.tail).map fun x => (val :: x.1, x.2)
          else some ([val], cp)

/-- "Concoct the address according to the number of parts specified." -/
def concoct : List U32 → Option U32
  | [val] => some val
  | [a, val] =>
      if val > 0xffffff#32 then none
      else if a > 0xff#32 then none
      else some (val ||| a <<< 24)
  | [a, b, val] =>
      if val > 0xffff#32 then none
      else if a > 0xff#32 ∨ b > 0xff#32 then none
      else some (val ||| (a <<< 24 ||| b <<< 16))
  | [a, b, c, val] =>
      if val > 0xff#32 then none
      else if a > 0xff#32 ∨ b > 0xff#32 ∨ c > 0xff#32 then none
      else some (val ||| (a <<< 24 ||| b <<< 16 ||| c <<< 8))
  | _ => none

/-- `lwip_htonl` on a little-endian machine. -/
def htonl (x : U32) : U32 :=
  (x &&& 0xff#32) <<< 24 ||| (x &&& 0xff00#32) <<< 8 ||| (x &&& 0xff0000#32) >>> 8 |||
    (x &&& 0xff000000#32) >>> 24

/-- `ip4addr_aton`: the address in network order, `none` for 0. -/
def ip4addrAton (cp : List Byte) : Option U32 :=
  match collect 3 cp with
  | none => none
  | some (parts, rest) =>
      if rest.head?.any fun c => !isSpace c then none else (concoct parts).map htonl

/-! ## Writing -/

/-- The `i`-th byte in memory, `ip4_addr_get_byte`. -/
def octet (addr : U32) (i : Nat) : Byte := addr.extractLsb' (8 * i) 8

/-- The four bytes in memory. -/
def octets (addr : U32) : List Byte := [octet addr 0, octet addr 1, octet addr 2, octet addr 3]

/-- `inv`, the digits of a byte from the last on; at most `k` of them. -/
def inv : Nat → Byte → List Byte
  | 0, _ => []
  | k + 1, ap => (0x30#8 + ap % 10#8) :: if ap / 10#8 = 0 then [] else inv k (ap / 10#8)

/-- A byte of the output, if there is room. -/
def put (buflen : Int) (buf : List Byte) (c : Byte) : Option (List Byte) :=
  if (buf.length : Int) ≥ buflen then none else some (buf ++ [c])

/-- A numeral in the notation of C and its value.  The digits after a prefix
may be missing. -/
inductive Numeral : List Byte → Nat → Prop
  | hex {x : Byte} {ds : List Byte} (hx : x = 0x78#8 ∨ x = 0x58#8) (h : ds.all (isDigit 16)) :
      Numeral (0x30#8 :: x :: ds) (ofDigits 16 ds)
  | octal {ds : List Byte} (h : ds.all (isDigit 8)) : Numeral (0x30#8 :: ds) (ofDigits 8 ds)
  | decimal {c : Byte} {ds : List Byte} (hc : c ≠ 0x30#8) (h : (c :: ds).all (isDigit 10)) :
      Numeral (c :: ds) (ofDigits 10 (c :: ds))

/-- What may come behind the last numeral. -/
def Tail (s : List Byte) : Prop := s.head?.all isSpace

/-- Numerals with these values between dots, and whatever is behind them. -/
inductive Dotted : List Nat → List Byte → Prop
  | last {num tail : List Byte} {n : Nat} (hnum : Numeral num n) (htail : Tail tail) :
      Dotted [n] (num ++ tail)
  | more {num s : List Byte} {n : Nat} {ns : List Nat} (hnum : Numeral num n)
      (hs : Dotted ns s) : Dotted (n :: ns) (num ++ 0x2E#8 :: s)

/-- The numbers as bytes of a number of `k` bytes, of which the last takes
all that are left. -/
def assemble : Nat → List Nat → Option Nat
  | 0, _ => none
  | _, [] => none
  | k + 1, [n] => if n < 256 ^ (k + 1) then some n else none
  | k + 1, n :: ns => if n < 256 then (assemble k ns).map (n * 256 ^ k + ·) else none

/-- The number that the bytes of an address write, the first first. -/
def hostOrder (addr : U32) : Nat := (octets addr).foldl (fun n b => n * 256 + b.toNat) 0

/-! ## Digits -/

private theorem decimal_facts : ∀ c : Byte, isDigit 10 c = true →
    digitVal c = c.toNat - 0x30 ∧ isDigit 16 c = true ∧
      (isDigit 8 c = true ↔ ¬ c.toNat - 0x30 ≥ 8) := by
  decide

private theorem hex_facts : ∀ c : Byte, isDigit 16 c = true → isDigit 10 c = false →
    digitVal c = (c.toNat + 10 - if isLower c then 0x61 else 0x41) ∧ digitVal c < 16 := by
  decide

private theorem octal_facts : ∀ c : Byte, isDigit 8 c = true → isDigit 10 c = true := by
  decide

private theorem dot_facts : isDigit 16 0x2E#8 = false ∧ isDigit 10 0x2E#8 = false ∧
    isDigit 8 0x2E#8 = false := by
  decide

private theorem space_facts : ∀ c : Byte, isSpace c = true →
    isDigit 16 c = false ∧ isDigit 10 c = false ∧ isDigit 8 c = false ∧ c ≠ 0x2E#8 ∧
      c ≠ 0x78#8 ∧ c ≠ 0x58#8 := by
  decide

/-- A number below `2 ^ k` goes below a number shifted by `k`. -/
theorem or_shiftLeft {a n k : Nat} (hn : n < 2 ^ k) :
    BitVec.ofNat 32 n ||| BitVec.ofNat 32 a <<< k = BitVec.ofNat 32 (a * 2 ^ k + n) := by
  have hdisjoint : BitVec.ofNat 32 a <<< k &&& BitVec.ofNat 32 n = 0 := by
    ext i hi
    by_cases hik : i < k
    · simp [hik]
    · have hbit : (BitVec.ofNat 32 n)[i] = false := by
        rw [BitVec.getElem_eq_testBit_toNat]
        apply Nat.testBit_lt_two_pow
        have hle : (BitVec.ofNat 32 n).toNat ≤ n := Nat.mod_le _ _
        have hpow : 2 ^ k ≤ 2 ^ i := Nat.pow_le_pow_right (by decide) (by omega)
        omega
      simp [hbit]
  rw [BitVec.or_comm, ← BitVec.add_eq_or_of_and_eq_zero _ _ hdisjoint, BitVec.shiftLeft_eq_mul_twoPow,
    BitVec.ofNat_add, BitVec.ofNat_mul]
  congr 2
  apply BitVec.eq_of_toNat_eq
  simp [BitVec.toNat_twoPow]

theorem or_shiftLeft_two {a b n j k : Nat} (hn : n < 2 ^ j) (hb : b * 2 ^ j + n < 2 ^ k) :
    BitVec.ofNat 32 n ||| (BitVec.ofNat 32 a <<< k ||| BitVec.ofNat 32 b <<< j) =
      BitVec.ofNat 32 (a * 2 ^ k + (b * 2 ^ j + n)) := by
  rw [BitVec.or_comm (BitVec.ofNat 32 a <<< k), ← BitVec.or_assoc, or_shiftLeft hn,
    or_shiftLeft hb]

/-- The loop takes the digits of its base, and evaluates them in 32 bits. -/
theorem scanDigits_eq (base : Nat) (hbase : base = 8 ∨ base = 10 ∨ base = 16) (m : Nat)
    (s : List Byte) :
    scanDigits base (BitVec.ofNat 32 m) s =
      (BitVec.ofNat 32 ((s.takeWhile (isDigit base)).foldl (fun n b => n * base + digitVal b) m),
        s.dropWhile (isDigit base)) := by
  induction s generalizing m with
  | nil => rfl
  | cons c cp ih =>
      rw [scanDigits]
      by_cases hdec : isDigit 10 c = true
      · obtain ⟨hval, hhex, hoct⟩ := decimal_facts c hdec
        rw [if_pos hdec]
        by_cases hstop : base = 8 ∧ c.toNat - 0x30 ≥ 8
        · obtain ⟨rfl, h8⟩ := hstop
          have hno : isDigit 8 c = false := by
            cases hdigit : isDigit 8 c with
            | false => rfl
            | true => exact absurd h8 (hoct.mp hdigit)
          simp [h8, hno]
        · have hyes : isDigit base c = true := by
            rcases hbase with rfl | rfl | rfl
            · exact hoct.mpr (fun h => hstop ⟨rfl, h⟩)
            · exact hdec
            · exact hhex
          rw [if_neg hstop, ← BitVec.ofNat_mul, ← BitVec.ofNat_add, ih, List.takeWhile_cons_of_pos hyes,
            List.dropWhile_cons_of_pos hyes, List.foldl_cons, hval]
      · have hdec : isDigit 10 c = false := by simpa using hdec
        rw [if_neg (by simp [hdec])]
        by_cases hhex : base = 16 ∧ isDigit 16 c = true
        · obtain ⟨rfl, hyes⟩ := hhex
          obtain ⟨hval, hlt⟩ := hex_facts c hyes hdec
          have hor : BitVec.ofNat 32 (digitVal c) ||| BitVec.ofNat 32 m <<< 4 =
              BitVec.ofNat 32 (m * 16 + digitVal c) := or_shiftLeft (by omega)
          rw [if_pos ⟨rfl, hyes⟩, ← hval, BitVec.or_comm, hor, ih,
            List.takeWhile_cons_of_pos hyes, List.dropWhile_cons_of_pos hyes, List.foldl_cons]
        · have hno : isDigit base c = false := by
            rcases hbase with rfl | rfl | rfl
            · cases h8 : isDigit 8 c with
              | false => rfl
              | true => simp [octal_facts c h8] at hdec
            · exact hdec
            · simpa using hhex
          rw [if_neg hhex, List.takeWhile_cons_of_neg (by simp [hno]),
            List.dropWhile_cons_of_neg (by simp [hno])]
          rfl

/-- The characters of a numeral end before `s`. -/
def Stops (s : List Byte) : Prop := s.head?.all fun c => c = 0x2E#8 || isSpace c

theorem stops_facts {s : List Byte} (h : Stops s) :
    (∀ base, base = 8 ∨ base = 10 ∨ base = 16 → s.takeWhile (isDigit base) = [] ∧
      s.dropWhile (isDigit base) = s) ∧
      ∀ x s', s = x :: s' → x ≠ 0x78#8 ∧ x ≠ 0x58#8 := by
  cases s with
  | nil => simp
  | cons c s =>
      have hc : c = 0x2E#8 ∨ isSpace c = true := by simpa [Stops] using h
      have hno : isDigit 16 c = false ∧ isDigit 10 c = false ∧ isDigit 8 c = false := by
        cases hc with
        | inl hdot => exact hdot ▸ dot_facts
        | inr hspace =>
            obtain ⟨h16, h10, h8, -⟩ := space_facts c hspace
            exact ⟨h16, h10, h8⟩
      have hx : c ≠ 0x78#8 ∧ c ≠ 0x58#8 := by
        cases hc with
        | inl hdot => simp [hdot]
        | inr hspace => exact (space_facts c hspace).2.2.2.2
      constructor
      · rintro base (rfl | rfl | rfl) <;> simp [hno]
      · rintro x s' hxs
        obtain ⟨rfl, -⟩ := List.cons.inj hxs
        exact hx

theorem takeWhile_digits {base : Nat} {ds s : List Byte} (hds : ds.all (isDigit base))
    (htake : s.takeWhile (isDigit base) = []) : (ds ++ s).takeWhile (isDigit base) = ds := by
  rw [List.takeWhile_append_of_pos (List.all_eq_true.mp hds), htake, List.append_nil]

theorem dropWhile_digits {base : Nat} {ds s : List Byte} (hds : ds.all (isDigit base))
    (hdrop : s.dropWhile (isDigit base) = s) : (ds ++ s).dropWhile (isDigit base) = s := by
  rw [List.dropWhile_append_of_pos (List.all_eq_true.mp hds), hdrop]

/-- Reading takes a numeral that ends where it should. -/
theorem number_numeral {num s : List Byte} {n : Nat} (hnum : Numeral num n) (hs : Stops s) :
    number (num ++ s) = some (BitVec.ofNat 32 n, s) := by
  obtain ⟨hscan, hx⟩ := stops_facts hs
  have hdigits : ∀ base ds, base = 8 ∨ base = 10 ∨ base = 16 → ds.all (isDigit base) →
      scanDigits base 0#32 (ds ++ s) = (BitVec.ofNat 32 (ofDigits base ds), s) := by
    intro base ds hbase hds
    obtain ⟨htake, hdrop⟩ := hscan base hbase
    have heq := scanDigits_eq base hbase 0 (ds ++ s)
    rw [takeWhile_digits hds htake, dropWhile_digits hds hdrop] at heq
    exact heq
  cases hnum with
  | @hex x ds hx h =>
      rw [number, if_pos (by simp; decide)]
      simp [baseOf, hx, hdigits 16 ds (by simp) h]
  | @octal ds h =>
      rw [number, if_pos (by simp; decide)]
      have hbase : baseOf (0x30#8 :: ds ++ s) = (8, ds ++ s) := by
        cases hrest : ds ++ s with
        | nil => simp [baseOf, hrest]
        | cons x rest =>
            have hno : ¬ (x = 0x78#8 ∨ x = 0x58#8) := by
              cases ds with
              | nil => simpa using hx x rest hrest
              | cons b ds =>
                  obtain ⟨rfl, -⟩ := List.cons.inj hrest
                  have hb : isDigit 8 b = true := by simp at h; exact h.1
                  rintro (rfl | rfl) <;> revert hb <;> decide
            simp [baseOf, hrest, hno]
      simp only [hbase]
      rw [hdigits 8 ds (by simp) h]
  | @decimal c ds hc h =>
      have hdec : isDigit 10 c = true := by simp at h; exact h.1
      rw [number, if_pos (by simp [hdec])]
      have hbase : baseOf (c :: ds ++ s) = (10, c :: ds ++ s) := by simp [baseOf, hc]
      simp only [hbase]
      rw [hdigits 10 (c :: ds) (by simp) h]

/-- What reading takes is a numeral. -/
theorem numeral_of_number {s rest : List Byte} {val : U32} (h : number s = some (val, rest)) :
    ∃ num n, s = num ++ rest ∧ Numeral num n ∧ val = BitVec.ofNat 32 n := by
  unfold number at h
  split at h
  case isFalse => contradiction
  case isTrue hdigit =>
    cases s with
    | nil => simp at hdigit
    | cons c cp =>
        have hscan := fun base hbase => scanDigits_eq base hbase 0
        by_cases hc : c = 0x30#8
        · subst hc
          cases cp with
          | nil =>
              simp only [baseOf, if_true] at h
              obtain ⟨rfl, rfl⟩ := Prod.mk.inj (Option.some.inj h)
              exact ⟨[0x30#8], _, by simp, .octal rfl, rfl⟩
          | cons x cp =>
              by_cases hx : x = 0x78#8 ∨ x = 0x58#8
              · simp only [baseOf, if_true, if_pos hx] at h
                have heq := hscan 16 (by simp) cp
                rw [Option.some.inj h] at heq
                obtain ⟨rfl, rfl⟩ := Prod.mk.inj heq
                exact ⟨_, _, by simp, .hex hx (List.all_takeWhile ..), rfl⟩
              · simp only [baseOf, if_true, if_neg hx] at h
                have heq := hscan 8 (by simp) (x :: cp)
                rw [Option.some.inj h] at heq
                obtain ⟨rfl, rfl⟩ := Prod.mk.inj heq
                exact ⟨_, _, by simp, .octal (List.all_takeWhile ..), rfl⟩
        · simp only [baseOf, if_neg hc] at h
          have heq := hscan 10 (by simp) (c :: cp)
          rw [Option.some.inj h] at heq
          obtain ⟨rfl, rfl⟩ := Prod.mk.inj heq
          have hdec : isDigit 10 c = true := by simpa using hdigit
          refine ⟨c :: cp.takeWhile (isDigit 10), _, ?_, .decimal hc ?_, ?_⟩
          · simp [hdec]
          · simp [hdec, List.all_takeWhile]
          · simp [hdec, ofDigits]

/-! ## Addresses -/

theorem ofNat_gt {n m : Nat} (hn : n < 2 ^ 32) (hm : m < 2 ^ 32) :
    BitVec.ofNat 32 n > BitVec.ofNat 32 m ↔ ¬ n < m + 1 := by
  simp only [GT.gt, BitVec.lt_def, BitVec.toNat_ofNat, Nat.mod_eq_of_lt hm, Nat.mod_eq_of_lt hn]
  omega

/-- The parts of an address, each in its place. -/
theorem concoct_eq {ns : List Nat} (h : ∀ n ∈ ns, n < 2 ^ 32) :
    concoct (ns.map (BitVec.ofNat 32)) = (assemble 4 ns).map (BitVec.ofNat 32) := by
  match ns, h with
  | [], _ => rfl
  | [a], h =>
      have ha : a < 4294967296 := h a (by simp)
      simp [concoct, assemble, ha]
  | [a, b], h =>
      have ha := h a (by simp)
      have hb := h b (by simp)
      simp only [List.map_cons, List.map_nil, concoct, assemble,
        ofNat_gt hb (m := 0xffffff) (by decide), ofNat_gt ha (m := 0xff) (by decide)]
      by_cases hb' : b < 16777216
      · by_cases ha' : a < 256
        · have hor : BitVec.ofNat 32 b ||| BitVec.ofNat 32 a <<< 24 =
              BitVec.ofNat 32 (a * 16777216 + b) := or_shiftLeft hb'
          simp [ha', hb', hor]
        · simp [ha', hb']
      · simp [hb']
  | [a, b, c], h =>
      have ha := h a (by simp)
      have hb := h b (by simp)
      have hc := h c (by simp)
      simp only [List.map_cons, List.map_nil, concoct, assemble,
        ofNat_gt hc (m := 0xffff) (by decide), ofNat_gt ha (m := 0xff) (by decide),
        ofNat_gt hb (m := 0xff) (by decide)]
      by_cases hc' : c < 65536
      · by_cases ha' : a < 256
        · by_cases hb' : b < 256
          · have hor : BitVec.ofNat 32 c |||
                (BitVec.ofNat 32 a <<< 24 ||| BitVec.ofNat 32 b <<< 16) =
                BitVec.ofNat 32 (a * 16777216 + (b * 65536 + c)) :=
              or_shiftLeft_two hc' (show b * 2 ^ 16 + c < 2 ^ 24 by omega)
            simp [ha', hb', hc', hor]
          · simp [ha', hb', hc']
        · simp [ha', hc']
      · simp [hc']
  | [a, b, c, e], h =>
      have ha := h a (by simp)
      have hb := h b (by simp)
      have hc := h c (by simp)
      have he := h e (by simp)
      simp only [List.map_cons, List.map_nil, concoct, assemble,
        ofNat_gt he (m := 0xff) (by decide), ofNat_gt ha (m := 0xff) (by decide),
        ofNat_gt hb (m := 0xff) (by decide), ofNat_gt hc (m := 0xff) (by decide)]
      by_cases he' : e < 256
      · by_cases ha' : a < 256
        · by_cases hb' : b < 256
          · by_cases hc' : c < 256
            · have hlow : BitVec.ofNat 32 e ||| BitVec.ofNat 32 c <<< 8 =
                  BitVec.ofNat 32 (c * 256 + e) := or_shiftLeft he'
              have hor : BitVec.ofNat 32 (c * 256 + e) |||
                  (BitVec.ofNat 32 a <<< 24 ||| BitVec.ofNat 32 b <<< 16) =
                  BitVec.ofNat 32 (a * 16777216 + (b * 65536 + (c * 256 + e))) :=
                or_shiftLeft_two (show c * 256 + e < 2 ^ 16 by omega)
                  (show b * 2 ^ 16 + (c * 256 + e) < 2 ^ 24 by omega)
              rw [← hlow, BitVec.or_assoc, BitVec.or_comm (BitVec.ofNat 32 c <<< 8)] at hor
              simp [ha', hb', hc', he', hor]
            · simp [ha', hb', hc', he']
          · simp [ha', hb', he']
        · simp [ha', he']
      · simp [he']
  | _ :: _ :: _ :: _ :: _ :: _, _ => simp [concoct, assemble]

theorem assemble_lt {k v : Nat} {ns : List Nat} (h : assemble k ns = some v) :
    v < 256 ^ k ∧ ns.length ≤ k := by
  induction k, ns using assemble.induct generalizing v with
  | case1 => contradiction
  | case2 => simp [assemble] at h
  | case3 k n hlt =>
      simp only [assemble, if_pos hlt, Option.some.injEq] at h
      exact ⟨h ▸ hlt, by simp⟩
  | case4 k n hge => simp [assemble, hge] at h
  | case5 k n ns hne hlt ih =>
      rw [assemble, if_pos hlt] at h
      · obtain ⟨w, hw, rfl⟩ := Option.map_eq_some_iff.mp h
        obtain ⟨hlow, hlen⟩ := ih hw
        constructor
        · have hhigh : n * 256 ^ k ≤ 255 * 256 ^ k := Nat.mul_le_mul_right _ (by omega)
          rw [Nat.pow_succ]
          omega
        · simpa using hlen
      · exact hne
  | case6 k n ns hne hge =>
      rw [assemble, if_neg hge] at h
      · contradiction
      · exact hne

/-- A numeral is not empty, and a text of numerals does not begin with a dot. -/
theorem collect_dotted {ns : List Nat} {s : List Byte} (h : Dotted ns s) {room : Nat}
    (hlen : ns.length ≤ room + 1) :
    ∃ rest, Tail rest ∧ collect room s = some (ns.map (BitVec.ofNat 32), rest) := by
  induction h generalizing room with
  | @last num tail n hnum htail =>
      have hstops : Stops tail := by
        cases tail with
        | nil => rfl
        | cons c tail => simp_all [Stops, Tail]
      have hdot : tail.head? ≠ some 0x2E#8 := by
        cases tail with
        | nil => simp
        | cons c tail =>
            have hspace : isSpace c = true := by simpa [Tail] using htail
            simpa using (space_facts c hspace).2.2.2.1
      refine ⟨tail, htail, ?_⟩
      rw [collect, number_numeral hnum hstops]
      simp [hdot]
  | @more num s n ns hnum hs ih =>
      have hpos : 0 < ns.length := by
        cases hs <;> simp
      simp only [List.length_cons] at hlen
      obtain ⟨room, rfl⟩ : ∃ r, room = r + 1 := ⟨room - 1, by omega⟩
      obtain ⟨rest, htail, hrest⟩ := ih (by omega : ns.length ≤ room + 1)
      refine ⟨rest, htail, ?_⟩
      rw [collect, number_numeral hnum (by simp [Stops])]
      simp [hrest]

theorem dotted_of_collect {room : Nat} {s rest : List Byte} {parts : List U32}
    (h : collect room s = some (parts, rest)) (htail : Tail rest) :
    ∃ ns, Dotted ns s ∧ parts = ns.map (BitVec.ofNat 32) := by
  induction room generalizing s parts with
  | zero =>
      rw [collect] at h
      split at h
      case h_1 => contradiction
      case h_2 val cp hnumber =>
        split at h
        case isTrue => contradiction
        case isFalse =>
          obtain ⟨rfl, rfl⟩ := Prod.mk.inj (Option.some.inj h)
          obtain ⟨num, n, rfl, hnum, rfl⟩ := numeral_of_number hnumber
          exact ⟨[n], .last hnum htail, rfl⟩
  | succ room ih =>
      rw [collect] at h
      split at h
      case h_1 => contradiction
      case h_2 val cp hnumber =>
        obtain ⟨num, n, rfl, hnum, rfl⟩ := numeral_of_number hnumber
        split at h
        case isTrue hdot =>
          obtain ⟨⟨parts', rest'⟩, hcollect, heq⟩ := Option.map_eq_some_iff.mp h
          obtain ⟨rfl, rfl⟩ := Prod.mk.inj heq
          obtain ⟨ns, hns, rfl⟩ := ih hcollect
          obtain ⟨cp', rfl⟩ := List.head?_eq_some_iff.mp hdot
          exact ⟨n :: ns, .more hnum hns, rfl⟩
        case isFalse =>
          obtain ⟨rfl, rfl⟩ := Prod.mk.inj (Option.some.inj h)
          exact ⟨[n], .last hnum htail, rfl⟩

/-! ### Byte order -/

theorem toNat_octet (addr : U32) (i : Nat) :
    (octet addr i).toNat = addr.toNat / 2 ^ (8 * i) % 256 := by
  simp [octet, BitVec.extractLsb'_toNat, Nat.shiftRight_eq_div_pow]

theorem octet_htonl (x : U32) {i : Nat} (hi : i < 4) :
    octet (htonl x) i = octet x (3 - i) := by
  have hcases : i = 0 ∨ i = 1 ∨ i = 2 ∨ i = 3 := by omega
  ext j hj
  have hj' : j = 0 ∨ j = 1 ∨ j = 2 ∨ j = 3 ∨ j = 4 ∨ j = 5 ∨ j = 6 ∨ j = 7 := by omega
  rcases hcases with rfl | rfl | rfl | rfl <;>
    rcases hj' with rfl | rfl | rfl | rfl | rfl | rfl | rfl | rfl <;>
    simp [octet, htonl]

/-- The first byte in memory is the first of the text. -/
theorem hostOrder_htonl (x : U32) : hostOrder (htonl x) = x.toNat := by
  have hlt := x.isLt
  simp only [hostOrder, octets, List.foldl_cons, List.foldl_nil]
  rw [octet_htonl x (by decide), octet_htonl x (by decide), octet_htonl x (by decide),
    octet_htonl x (by decide)]
  simp only [toNat_octet]
  omega

theorem toNat_eq_octets (x : U32) :
    x.toNat = (octet x 0).toNat + 256 * (octet x 1).toNat + 65536 * (octet x 2).toNat +
      16777216 * (octet x 3).toNat := by
  have hlt := x.isLt
  simp only [toNat_octet]
  omega

theorem hostOrder_injective {a b : U32} (h : hostOrder a = hostOrder b) : a = b := by
  have ha : ∀ i, (octet a i).toNat < 256 := fun i => (octet a i).isLt
  have hb : ∀ i, (octet b i).toNat < 256 := fun i => (octet b i).isLt
  have ha0 := ha 0
  have ha1 := ha 1
  have ha2 := ha 2
  have ha3 := ha 3
  have hb0 := hb 0
  have hb1 := hb 1
  have hb2 := hb 2
  have hb3 := hb 3
  simp only [hostOrder, octets, List.foldl_cons, List.foldl_nil] at h
  apply BitVec.eq_of_toNat_eq
  rw [toNat_eq_octets a, toNat_eq_octets b]
  omega

theorem htonl_eq_iff {x a : U32} : htonl x = a ↔ x.toNat = hostOrder a := by
  constructor
  · rintro rfl
    exact (hostOrder_htonl x).symm
  · intro h
    exact hostOrder_injective ((hostOrder_htonl x).trans h)

/-! ## What is accepted -/

theorem concoct_ofNat (ns : List Nat) : concoct (ns.map (BitVec.ofNat 32)) =
    (assemble 4 (ns.map (· % 2 ^ 32))).map (BitVec.ofNat 32) := by
  have hreduce : ns.map (BitVec.ofNat 32) = (ns.map (· % 2 ^ 32)).map (BitVec.ofNat 32) := by
    rw [List.map_map]
    apply List.map_congr_left
    intro n _
    apply BitVec.eq_of_toNat_eq
    simp
  rw [hreduce, concoct_eq]
  intro n hn
  obtain ⟨m, -, rfl⟩ := List.mem_map.mp hn
  exact Nat.mod_lt _ (by decide)

theorem toNat_assemble {ns : List Nat} {v : Nat} (h : assemble 4 ns = some v) :
    (BitVec.ofNat 32 v).toNat = v := by
  have hlt : v < 2 ^ 32 := (assemble_lt h).1
  rw [BitVec.toNat_ofNat, Nat.mod_eq_of_lt hlt]

/-- An address with dots is accepted. -/
theorem aton_of_dotted {ns : List Nat} {s : List Byte} {addr : U32} (hns : Dotted ns s)
    (hv : assemble 4 (ns.map (· % 2 ^ 32)) = some (hostOrder addr)) : ip4addrAton s = some addr := by
  have hlen := (assemble_lt hv).2
  rw [List.length_map] at hlen
  have hroom : ns.length ≤ 3 + 1 := by omega
  obtain ⟨rest, htail, hcollect⟩ := collect_dotted hns hroom
  have hblank : ¬ (rest.head?.any fun c => !isSpace c) = true := by
    cases rest with
    | nil => simp
    | cons c rest => simpa [Tail] using htail
  rw [ip4addrAton, hcollect]
  simp only [if_neg hblank, concoct_ofNat, hv, Option.map_some, Option.some.injEq]
  rw [htonl_eq_iff, toNat_assemble hv]

/-- **The grammar.**  `inet_aton` takes exactly the texts that begin with one
to four numerals, followed by the end or a blank, whose remainders modulo
2^32 fit their places, and returns the address that they write. -/
theorem ip4addrAton_eq_some_iff (s : List Byte) (addr : U32) :
    ip4addrAton s = some addr ↔
      ∃ ns, Dotted ns s ∧ assemble 4 (ns.map (· % 2 ^ 32)) = some (hostOrder addr) := by
  constructor
  · intro h
    unfold ip4addrAton at h
    split at h
    case h_1 => contradiction
    case h_2 parts rest hcollect =>
      split at h
      case isTrue => contradiction
      case isFalse htail =>
        have hrest : Tail rest := by
          cases rest with
          | nil => rfl
          | cons c rest => simpa [Tail] using htail
        obtain ⟨ns, hns, rfl⟩ := dotted_of_collect hcollect hrest
        rw [concoct_ofNat] at h
        obtain ⟨x, hx, hhtonl⟩ := Option.map_eq_some_iff.mp h
        obtain ⟨v, hv, rfl⟩ := Option.map_eq_some_iff.mp hx
        rw [htonl_eq_iff, toNat_assemble hv] at hhtonl
        exact ⟨ns, hns, hhtonl ▸ hv⟩
  · rintro ⟨ns, hns, hv⟩
    exact aton_of_dotted hns hv

/-! ## What is written -/

/-- The decimal text of a byte. -/
def decimalText (b : Byte) : List Byte := (inv 3 b).reverse

/-- An address with dots. -/
def dotted (addr : U32) : List Byte :=
  decimalText (octet addr 0) ++ 0x2E#8 :: (decimalText (octet addr 1) ++ 0x2E#8 ::
    (decimalText (octet addr 2) ++ 0x2E#8 :: decimalText (octet addr 3)))

private theorem decimalText_facts : ∀ b : Byte, ofDigits 10 (decimalText b) = b.toNat ∧
    (decimalText b).all (isDigit 10) = true ∧ (decimalText b).length ≤ 3 ∧
    (decimalText b = [0x30#8] ∨ (decimalText b).head?.any (· ≠ 0x30#8) = true) := by
  decide

theorem numeral_decimalText (b : Byte) : Numeral (decimalText b) b.toNat := by
  obtain ⟨hval, hdigits, -, hzero | hhead⟩ := decimalText_facts b
  · have hb : b.toNat = ofDigits 8 [] := by rw [← hval, hzero]; rfl
    rw [hzero, hb]
    exact .octal rfl
  · cases htext : decimalText b with
    | nil => simp [htext] at hhead
    | cons c ds =>
        rw [htext] at hval hdigits hhead
        rw [← hval]
        exact .decimal (by simpa using hhead) hdigits

theorem dotted_dotted (addr : U32) {tail : List Byte} (htail : Tail tail) :
    Dotted ((octets addr).map BitVec.toNat) (dotted addr ++ tail) := by
  simp only [dotted, List.append_assoc, List.cons_append]
  exact .more (numeral_decimalText _) (.more (numeral_decimalText _)
    (.more (numeral_decimalText _) (.last (numeral_decimalText _) htail)))

theorem assemble_octets (addr : U32) :
    assemble 4 (((octets addr).map BitVec.toNat).map (· % 2 ^ 32)) = some (hostOrder addr) := by
  have hlt : ∀ i, (octet addr i).toNat < 256 := fun i => (octet addr i).isLt
  have hmod : ∀ i, (octet addr i).toNat % 4294967296 = (octet addr i).toNat :=
    fun i => Nat.mod_eq_of_lt (Nat.lt_trans (hlt i) (by decide))
  simp [octets, assemble, hlt, hmod, hostOrder]
  omega

/-- What is written for an address is read as that address, whatever follows
behind a blank. -/
theorem aton_dotted (addr : U32) {tail : List Byte} (htail : Tail tail) :
    ip4addrAton (dotted addr ++ tail) = some addr :=
  aton_of_dotted (dotted_dotted addr htail) (assemble_octets addr)

theorem length_dotted (addr : U32) : (dotted addr).length ≤ 15 := by
  have hlen : ∀ i, (decimalText (octet addr i)).length ≤ 3 :=
    fun i => (decimalText_facts (octet addr i)).2.2.1
  have h0 := hlen 0
  have h1 := hlen 1
  have h2 := hlen 2
  have h3 := hlen 3
  simp only [dotted, List.length_append, List.length_cons]
  omega

end DsEthComm.Udp.Inet
