import Mathlib.Data.List.Forall2
import DsEthComm.Bytes
import DsEthComm.Cyclic

/-!
# DsEthComm.Shell.History

The history of the shell, `save_history` and `get_history` of `shell.c`.

The lines lie in a cyclic buffer, each behind a byte with its length, and a
zero behind the last.  A line that does not fit displaces the oldest ones.
What the buffer is for is `Lines`: a list of lines and a cursor in it.

An access outside of an array is `none`, and so is a loop that does not end.
There is one exception: at the end of a blank line `save_history` reads the
byte in front of the line.  That byte of the stack is a parameter, and what it
holds does not matter.
-/

namespace DsEthComm.Shell

open Cyclic

/-! ## Arrays -/

/-- `memcpy(buf + off, src, ...)`. -/
def memcpyTo (buf : List Byte) (off : Nat) (src : List Byte) : Option (List Byte) :=
  if off + src.length ≤ buf.length then
    some (buf.take off ++ src ++ buf.drop (off + src.length))
  else none

/-- `memcpy(..., buf + off, k)`. -/
def memcpyFrom (buf : List Byte) (off k : Nat) : Option (List Byte) :=
  if off + k ≤ buf.length then some ((buf.drop off).take k) else none

/-- `buf[i] = b`. -/
def store (buf : List Byte) (i : Nat) (b : Byte) : Option (List Byte) :=
  if i < buf.length then some (buf.set i b) else none

/-! ## The functions -/

/-- `ShellHistory`; `sh_size` is the length of the buffer. -/
structure History where
  shBuffer : List Byte
  shBeg : Nat
  shEnd : Nat
  shCur : Int

def History.shSize (h : History) : Nat := h.shBuffer.length

/-- One step back to the beginning of the buffer. -/
def wrap (size pos : Nat) : Nat := if pos ≥ size then pos - size else pos

/-- `del_histbuff_entry`. -/
def delHistbuffEntry (h : History) : Option History := do
  let len ← h.shBuffer[h.shBeg]?
  pure { h with shBeg := wrap h.shSize (h.shBeg + len.toNat + 1) }

/-- `is_histbuff_space`. -/
def isHistbuffSpace (h : History) (length : Nat) : Bool :=
  if h.shEnd ≥ h.shBeg then length < h.shSize - (h.shEnd - h.shBeg + 1)
  else length < h.shBeg - h.shEnd - 1

/-- The loop that makes room, for at most `fuel` rounds. -/
def makeSpace (length : Nat) : Nat → History → Option History
  | 0, _ => none
  | fuel + 1, h =>
      if isHistbuffSpace h length then some h
      else do
        let h ← delHistbuffEntry h
        makeSpace length fuel h

/-- `*(line + length - 1)`, with `front` in front of the line. -/
def charBefore (front : Byte) (line : List Byte) : Nat → Option Byte
  | 0 => some front
  | length + 1 => (line)[length]?

/-- The loop that drops blanks at the end.  It reads the byte before it looks
whether there is one. -/
def trimLength (front : Byte) (line : List Byte) : Nat → Option Nat
  | 0 => (charBefore front line 0).map fun _ => 0
  | length + 1 => do
      let b ← charBefore front line (length + 1)
      if b = 0x20#8 then trimLength front line length else pure (length + 1)

/-- The copy of a line to where it is saved, "split" at the end of the buffer
if there is not enough room. -/
def writeText (h : History) (line : List Byte) (length : Nat) : Option (List Byte) :=
  if length < h.shSize - h.shEnd - 1 then do
    let text ← memcpyFrom line 0 length
    memcpyTo h.shBuffer (h.shEnd + 1) text
  else do
    let partLen := h.shSize - h.shEnd - 1
    let first ← memcpyFrom line 0 partLen
    let buffer ← memcpyTo h.shBuffer (h.shEnd + 1) first
    let second ← memcpyFrom line partLen (length - partLen)
    memcpyTo buffer 0 second

/-- `save_history`. -/
def saveHistory (front : Byte) (h : History) (line : List Byte) (length : Nat) :
    Option History :=
  if length > h.shSize - 2 then some h
  else do
    let length ← trimLength front line length
    if length ≤ 0 then some h
    else
      let h ← makeSpace length h.shSize h
      let buffer ← writeText h line length
      let buffer ← store buffer h.shEnd (BitVec.ofNat 8 length)
      let fin := wrap h.shSize (h.shEnd + length + 1)
      let buffer ← store buffer fin 0#8
      pure { h with shBuffer := buffer, shEnd := fin, shCur := 0 }

/-- `SHELL_HIST_DIR_BK` and `SHELL_HIST_DIR_FW`. -/
inductive Direction where
  | bk
  | fw
deriving DecidableEq

/-- "Count the number of lines saved in the buffer", from `idx` on. -/
def countLines (h : History) : Nat → Nat → Option Nat
  | 0, _ => none
  | fuel + 1, idx =>
      if idx = h.shEnd then some 0
      else do
        let len ← h.shBuffer[idx]?
        let count ← countLines h fuel (wrap h.shSize (idx + len.toNat + 1))
        pure (count + 1)

/-- The loop to the line that the cursor selects. -/
def seek (h : History) (count : Nat) (cur : Int) : Nat → Nat → Nat → Option Nat
  | 0, _, _ => none
  | fuel + 1, idx, i =>
      if idx ≠ h.shEnd ∧ cur ≠ count - i - 1 then do
        let len ← h.shBuffer[idx]?
        seek h count cur fuel (wrap h.shSize (idx + len.toNat + 1)) (i + 1)
      else some idx

/-- `SHELL_MAX_LINE_LENGTH`. -/
def shellMaxLineLength : Nat := 64

/-- The copy of the line at offset `idx` to the caller's, "in two parts" if
it was split. -/
def readText (h : History) (line : List Byte) (idx length : Nat) : Option (List Byte) :=
  if idx + length < h.shSize then do
    let text ← memcpyFrom h.shBuffer (idx + 1) length
    memcpyTo line 0 text
  else do
    let partLen := h.shSize - idx - 1
    let first ← memcpyFrom h.shBuffer (idx + 1) partLen
    let line ← memcpyTo line 0 first
    let second ← memcpyFrom h.shBuffer 0 (length - partLen)
    memcpyTo line partLen second

/-- The end of `get_history`: the line that the cursor selects. -/
def fetch (h : History) (line : List Byte) (dir : Direction) (count : Nat) :
    Option (Int × History × List Byte) :=
  if (count : Int) ≥ h.shCur then do
    let idx ← seek h count h.shCur (h.shSize + 1) h.shBeg 0
    let byte ← h.shBuffer[idx]?
    let length := byte.toNat
    if length > 0 then
      let line ← memcpyTo line 0 (List.replicate shellMaxLineLength 0#8)
      let line ← readText h line idx length
      pure (length, { h with shCur := h.shCur + 1 }, line)
    else if dir = .fw then pure (0, { h with shCur := h.shCur + 1 }, line)
    else pure (-1, h, line)
  else some (-1, h, line)

/-- `get_history`: what it returns, the history and the line. -/
def getHistory (h : History) (line : List Byte) (dir : Direction) :
    Option (Int × History × List Byte) := do
  let count ← countLines h (h.shSize + 1) h.shBeg
  match dir with
  | .bk => fetch h line .bk count
  | .fw =>
      if h.shCur > 0 then fetch { h with shCur := h.shCur - 2 } line .fw count
      else pure (0, h, line)

/-! ## What it is for -/

/-- The lines of the history, the oldest first, and how many steps the
cursor has gone back. -/
structure Lines where
  lines : List (List Byte)
  cur : Nat

/-- The bytes that a line takes in the buffer. -/
def entry (line : List Byte) : List Byte := BitVec.ofNat 8 line.length :: line

def entries (lines : List (List Byte)) : List Byte := lines.flatMap entry

/-- The lines that stay when one of this length is added. -/
def evict (size length : Nat) : List (List Byte) → List (List Byte)
  | [] => []
  | line :: lines =>
      if (entries (line :: lines)).length + length + 1 < size then line :: lines
      else evict size length lines

/-- A line without the blanks at its end. -/
def trimmed (line : List Byte) : List Byte := (line.reverse.dropWhile (· = 0x20#8)).reverse

/-- Remember a line.  Blank lines and lines that fill the buffer are not
remembered. -/
def Lines.save (size : Nat) (x : Lines) (line : List Byte) : Lines :=
  if line.length > size - 2 ∨ trimmed line = [] then x
  else ⟨evict size (trimmed line).length x.lines ++ [trimmed line], 0⟩

/-- The `k`-th line from the last on. -/
def Lines.back (x : Lines) (k : Nat) : Option (List Byte) := x.lines.reverse[k]?

/-- Step back or forth: where the cursor is then, and what the line becomes,
if it changes. -/
def Lines.recall (x : Lines) : Direction → Lines × Option (List Byte)
  | .bk =>
      match x.back x.cur with
      | some line => ({ x with cur := x.cur + 1 }, some line)
      | none => (x, none)
  | .fw =>
      match x.cur with
      | 0 => (x, some [])
      | cur + 1 => ({ x with cur := cur }, some (if cur = 0 then [] else (x.back (cur - 1)).getD []))

/-! ## The buffer holds the lines -/

theorem wrap_eq {size pos k : Nat} (hpos : pos < size) (hk : k ≤ size) :
    wrap size (pos + k) = (pos + k) % size := by
  rw [add_mod_eq hk (by omega), Nat.mod_eq_of_lt hpos, wrap]
  split <;> split <;> omega

@[simp] theorem entries_nil : entries [] = [] := rfl

@[simp] theorem entries_cons (line : List Byte) (lines : List (List Byte)) :
    entries (line :: lines) = BitVec.ofNat 8 line.length :: (line ++ entries lines) := rfl

@[simp] theorem entries_append (xs ys : List (List Byte)) :
    entries (xs ++ ys) = entries xs ++ entries ys := by
  simp [entries]

theorem length_le_entries (lines : List (List Byte)) : lines.length ≤ (entries lines).length := by
  induction lines with
  | nil => simp
  | cons line lines ih =>
      simp
      omega

/-- The lines lie in the buffer. -/
structure Stores (h : History) (lines : List (List Byte)) : Prop where
  beg : h.shBeg < h.shSize
  fits : (entries lines).length < h.shSize
  fin : h.shEnd = (h.shBeg + (entries lines).length) % h.shSize
  holds : Holds h.shSize (h.shBuffer.getD · 0#8) h.shBeg (entries lines ++ [0#8])
  proper : ∀ line ∈ lines, line ≠ [] ∧ line.length < shellMaxLineLength

theorem Stores.withCur {h : History} {lines : List (List Byte)} (hs : Stores h lines) (cur : Int) :
    Stores { h with shCur := cur } lines :=
  ⟨hs.beg, hs.fits, hs.fin, hs.holds, hs.proper⟩

/-- Where the line behind `pre` begins. -/
def History.offset (h : History) (pre : List (List Byte)) : Nat :=
  (h.shBeg + (entries pre).length) % h.shSize

section Reading

variable {h : History} {lines pre post : List (List Byte)} {line : List Byte}

theorem Stores.getElem? {start : Nat} {xs : List Byte}
    (hh : Holds h.shSize (h.shBuffer.getD · 0#8) start xs) {i : Nat} (hi : i < xs.length)
    (hsize : 0 < h.shSize) : h.shBuffer[(start + i) % h.shSize]? = some xs[i] := by
  have hcell := hh i hi
  have hlt : (start + i) % h.shSize < h.shBuffer.length := Nat.mod_lt _ hsize
  simp only [List.getD_eq_getElem?_getD, List.getElem?_eq_getElem hlt, Option.getD_some] at hcell
  rw [List.getElem?_eq_getElem hlt, hcell]

theorem Stores.offset_lt (hs : Stores h lines) (pre : List (List Byte)) :
    h.offset pre < h.shSize :=
  Nat.mod_lt _ (Nat.lt_of_le_of_lt (Nat.zero_le _) hs.beg)

theorem Stores.offset_nil (hs : Stores h lines) : h.offset [] = h.shBeg := by
  simp [History.offset, Nat.mod_eq_of_lt hs.beg]

theorem Stores.offset_all (hs : Stores h lines) : h.offset lines = h.shEnd := hs.fin.symm

/-- Behind the last line is a zero. -/
theorem Stores.zero_at_end (hs : Stores h lines) : h.shBuffer[h.shEnd]? = some 0#8 := by
  have hpos : 0 < h.shSize := Nat.lt_of_le_of_lt (Nat.zero_le _) hs.beg
  have hlen : (entries lines).length < (entries lines ++ [0#8]).length := by simp
  rw [hs.fin, Stores.getElem? hs.holds hlen hpos]
  simp

/-- In front of each line is its length, and behind it the next one. -/
theorem Stores.at_line (hs : Stores h (pre ++ line :: post)) :
    (∃ b, h.shBuffer[h.offset pre]? = some b ∧ b.toNat = line.length) ∧
      Holds h.shSize (h.shBuffer.getD · 0#8) (h.offset pre + 1) line ∧
      h.offset pre ≠ h.shEnd ∧
      wrap h.shSize (h.offset pre + line.length + 1) = h.offset (pre ++ [line]) := by
  have hbeg := hs.beg
  have hfits := hs.fits
  have hholds := hs.holds
  simp only [entries_append, entries_cons, List.length_append, List.length_cons] at hfits
  have hlen : line.length < 256 := by
    have hproper := (hs.proper line (by simp)).2
    unfold shellMaxLineLength at hproper
    omega
  have hoff : h.offset pre < h.shSize := hs.offset_lt pre
  refine ⟨⟨BitVec.ofNat 8 line.length, ?_, ?_⟩, ?_, ?_, ?_⟩
  · rw [History.offset, Stores.getElem? hholds (by simp) (by omega)]
    simp
  · rw [BitVec.toNat_ofNat, Nat.mod_eq_of_lt hlen]
  · have hsplit : entries (pre ++ line :: post) ++ [0#8] =
        (entries pre ++ [BitVec.ofNat 8 line.length]) ++ (line ++ (entries post ++ [0#8])) := by
      simp
    rw [hsplit, holds_append] at hholds
    apply (holds_append.mp hholds.2).1.congr
    rw [History.offset, List.length_append, List.length_singleton, ← Nat.add_assoc,
      Nat.mod_add_mod]
  · rw [hs.fin, History.offset]
    simp only [entries_append, entries_cons, List.length_append, List.length_cons]
    exact mod_ne (by omega) (by omega)
  · rw [Nat.add_assoc, wrap_eq hoff (by omega), History.offset, Nat.mod_add_mod, History.offset]
    congr 1
    simp
    omega

/-- The count is right. -/
theorem Stores.countLines (pre post : List (List Byte)) (hs : Stores h (pre ++ post)) {fuel : Nat}
    (hfuel : post.length < fuel) :
    countLines h fuel (h.offset pre) = some post.length := by
  induction fuel generalizing pre post with
  | zero => omega
  | succ fuel ih =>
      cases post with
      | nil =>
          have hend := hs.offset_all
          rw [List.append_nil] at hend
          simp [Shell.countLines, hend]
      | cons line post =>
          obtain ⟨⟨b, hb, hlen⟩, -, hne, hnext⟩ := hs.at_line
          have hrest : Stores h ((pre ++ [line]) ++ post) := by simpa using hs
          simp only [List.length_cons] at hfuel
          have hcount := ih (pre ++ [line]) post hrest (by omega)
          simp [Shell.countLines, hne, hb, hlen, hnext, hcount]

/-- The loop ends at the line that the cursor selects, or behind the last. -/
theorem Stores.seek (pre post : List (List Byte)) (hs : Stores h (pre ++ post))
    {fuel m count : Nat} {cur : Int} (hfuel : post.length < fuel) (hm : m ≤ post.length)
    (hstop : m < post.length → cur = count - (pre.length + m : Nat) - 1)
    (hgo : ∀ i < m, cur ≠ count - (pre.length + i : Nat) - 1) :
    seek h count cur fuel (h.offset pre) pre.length = some (h.offset (pre ++ post.take m)) := by
  induction fuel generalizing pre post m with
  | zero => omega
  | succ fuel ih =>
      cases post with
      | nil =>
          have hend := hs.offset_all
          rw [List.append_nil] at hend
          simp [Shell.seek, hend]
      | cons line post =>
          obtain ⟨⟨b, hb, hlen⟩, -, hne, hnext⟩ := hs.at_line
          have hrest : Stores h ((pre ++ [line]) ++ post) := by simpa using hs
          simp only [List.length_cons] at hfuel hm hstop
          cases m with
          | zero =>
              have hcur := hstop (by omega)
              simp [Shell.seek, hcur]
          | succ m =>
              have hcur := hgo 0 (by omega)
              have hmore := ih (pre ++ [line]) post hrest (m := m) (by omega) (by omega)
                (fun hlt => by have h := hstop (by omega); simp at h ⊢; omega)
                (fun i hi => by have h := hgo (i + 1) (by omega); simp at h ⊢; omega)
              simp only [List.length_append, List.length_singleton] at hmore
              simp only [Nat.add_zero] at hcur
              simp [Shell.seek, hne, hcur, hb, hlen, hnext, hmore]

end Reading

/-! ### Reading a line -/

/-- The copy of a line to the beginning of a cleared array, in one part or
two. -/
theorem memcpyTo_zeros {text : List Byte} {size k : Nat} (hk : k ≤ text.length)
    (hsize : text.length ≤ size) :
    memcpyTo (List.replicate size 0#8) 0 text =
        some (text ++ List.replicate (size - text.length) 0#8) ∧
      ((memcpyTo (List.replicate size 0#8) 0 (text.take k)).bind fun line =>
          memcpyTo line k (text.drop k)) =
        some (text ++ List.replicate (size - text.length) 0#8) := by
  have hwhole : ∀ xs : List Byte, xs.length ≤ size →
      memcpyTo (List.replicate size 0#8) 0 xs =
        some (xs ++ List.replicate (size - xs.length) 0#8) := by
    intro xs hxs
    simp [memcpyTo, hxs]
  constructor
  · exact hwhole text hsize
  · have hlen : (text.take k).length = k := by simp; omega
    rw [hwhole _ (by omega), Option.bind_some, memcpyTo, if_pos (by simp; omega), hlen]
    have htake : (text.take k ++ List.replicate (size - k) 0#8).take k = text.take k := by
      rw [List.take_append_of_le_length (by omega), List.take_of_length_le (by omega)]
    have hdrop : (text.take k ++ List.replicate (size - k) 0#8).drop (k + (text.drop k).length) =
        List.replicate (size - text.length) 0#8 := by
      have hle : (text.take k).length ≤ k + (text.drop k).length := by
        rw [List.length_take]
        omega
      rw [List.drop_append, List.drop_of_length_le hle, hlen]
      simp
      omega
    rw [htake, hdrop, List.take_append_drop]

theorem readText_eq {h : History} {idx : Nat} {text : List Byte}
    (hh : Holds h.shSize (h.shBuffer.getD · 0#8) (idx + 1) text) (hidx : idx < h.shSize)
    (hlen : text.length < h.shSize) (hline : text.length ≤ shellMaxLineLength) :
    readText h (List.replicate shellMaxLineLength 0#8) idx text.length =
      some (text ++ List.replicate (shellMaxLineLength - text.length) 0#8) := by
  have hsize : h.shSize = h.shBuffer.length := rfl
  unfold readText
  split
  case isTrue hone =>
    rw [memcpyFrom, if_pos (by omega), hh.take_drop (by omega)]
    exact (memcpyTo_zeros (Nat.zero_le _) hline).1
  case isFalse htwo =>
    obtain ⟨hfirst, hsecond⟩ := hh.take_drop_wrapped (by omega) (by omega) (by omega)
    have hpart : h.shSize - idx - 1 = h.shBuffer.length - (idx + 1) := by omega
    generalize h.shSize - idx - 1 = partLen at hpart ⊢
    rw [← hpart] at hfirst hsecond
    have hread₁ : memcpyFrom h.shBuffer (idx + 1) partLen = some (text.take partLen) := by
      rw [memcpyFrom, if_pos (by omega), hfirst]
    have hread₂ : memcpyFrom h.shBuffer 0 (text.length - partLen) = some (text.drop partLen) := by
      rw [memcpyFrom, if_pos (by omega), List.drop_zero, hsecond]
    simp only [hread₁, hread₂, Option.bind_eq_bind, Option.bind_some]
    exact (memcpyTo_zeros (by omega) hline).2

/-! ### The cursor -/

/-- The history stands for these lines. -/
structure Rep (h : History) (x : Lines) : Prop where
  stores : Stores h x.lines
  cur : h.shCur = x.cur
  cur_le : x.cur ≤ x.lines.length

/-- What `get_history` does to the line: nothing, or the text of the history
with zeros behind it. -/
def Recalled (line : List Byte) : Option (List Byte) → Int → List Byte → Prop
  | none, ret, line' => ret = -1 ∧ line' = line
  | some text, ret, line' => ret = text.length ∧ text.length < shellMaxLineLength ∧
      line' = if text = [] then line
        else text ++ List.replicate (shellMaxLineLength - text.length) 0#8

section Cursor

variable {h : History} {x : Lines} {line : List Byte}

/-- The line that the cursor selects, `k` steps from the last. -/
theorem fetch_line (dir : Direction) {lines : List (List Byte)} (hs : Stores h lines)
    (hline : line.length = shellMaxLineLength) {k : Nat} (hcur : h.shCur = k)
    (hk : k < lines.length) :
    ∃ text line', lines.reverse[k]? = some text ∧
      fetch h line dir lines.length =
          some ((text.length : Int), { h with shCur := h.shCur + 1 }, line') ∧
      Recalled line (some text) text.length line' := by
  generalize hm : lines.length - 1 - k = m
  have hlt : m < lines.length := by omega
  have hsplit : lines = lines.take m ++ lines[m] :: lines.drop (m + 1) := by
    rw [← List.drop_eq_getElem_cons hlt, List.take_append_drop]
  have hat : Stores h (lines.take m ++ lines[m] :: lines.drop (m + 1)) := hsplit ▸ hs
  obtain ⟨⟨b, hb, hlen⟩, htext, -, -⟩ := hat.at_line
  obtain ⟨hne, hmax⟩ := hs.proper lines[m] (List.getElem_mem hlt)
  have hseek : seek h lines.length h.shCur (h.shSize + 1) h.shBeg 0 =
      some (h.offset (lines.take m)) := by
    have hlines := length_le_entries lines
    have hfits := hs.fits
    have hfound : seek h lines.length h.shCur (h.shSize + 1) (h.offset []) 0 = _ :=
      Stores.seek [] lines hs (m := m) (by omega) (by omega) (fun _ => by simp; omega)
        (fun i hi => by simp; omega)
    rw [hs.offset_nil] at hfound
    exact hfound
  have hpos : 0 < lines[m].length := List.length_pos_iff.mpr hne
  have hfits : lines[m].length < h.shSize := by
    have hentries := hs.fits
    rw [hsplit] at hentries
    simp only [entries_append, entries_cons, List.length_append, List.length_cons] at hentries
    omega
  have hcopy := readText_eq htext (hs.offset_lt _) hfits (by omega)
  have hclear : memcpyTo line 0 (List.replicate shellMaxLineLength 0#8) =
      some (List.replicate shellMaxLineLength 0#8) := by
    simp [memcpyTo, hline]
  refine ⟨lines[m], lines[m] ++ List.replicate (shellMaxLineLength - lines[m].length) 0#8, ?_, ?_,
    rfl, hmax, (if_neg hne).symm⟩
  · rw [List.getElem?_reverse hk, hm, List.getElem?_eq_getElem hlt]
  · rw [fetch, if_pos (by omega)]
    simp [hseek, hb, hlen, hpos, hclear, hcopy]

/-- No line is selected. -/
theorem fetch_none (dir : Direction) (line : List Byte) {lines : List (List Byte)} (hs : Stores h lines)
    (hcur : h.shCur = -1 ∨ h.shCur = lines.length) :
    fetch h line dir lines.length =
      some (if dir = .fw then (0, { h with shCur := h.shCur + 1 }, line) else (-1, h, line)) := by
  have hseek : seek h lines.length h.shCur (h.shSize + 1) h.shBeg 0 = some h.shEnd := by
    have hlines := length_le_entries lines
    have hfits := hs.fits
    have hfound : seek h lines.length h.shCur (h.shSize + 1) (h.offset []) 0 = _ :=
      Stores.seek [] lines hs (m := lines.length) (by omega) (by omega) (fun hlt => by omega)
        (fun i hi => by simp; omega)
    rw [hs.offset_nil] at hfound
    simpa [hs.offset_all] using hfound
  rw [fetch, if_pos (by omega)]
  simp only [hseek, hs.zero_at_end, Option.bind_eq_bind, Option.bind_some, gt_iff_lt]
  rw [if_neg (by decide)]
  split <;> rfl

/-- **Stepping through the history** never leaves the arrays, and gives the
lines of the history one by one. -/
theorem getHistory_recall (hr : Rep h x) (hline : line.length = shellMaxLineLength)
    (dir : Direction) :
    ∃ ret h' line', getHistory h line dir = some (ret, h', line') ∧ h'.shSize = h.shSize ∧
      Rep h' (x.recall dir).1 ∧ Recalled line (x.recall dir).2 ret line' := by
  have hs := hr.stores
  have hcur := hr.cur
  have hle := hr.cur_le
  have hcount : countLines h (h.shSize + 1) h.shBeg = some x.lines.length := by
    have hlines := length_le_entries x.lines
    have hfits := hs.fits
    have hfound : countLines h (h.shSize + 1) (h.offset []) = _ :=
      Stores.countLines [] x.lines hs (by omega)
    rwa [hs.offset_nil] at hfound
  rw [getHistory, hcount, Option.bind_eq_bind, Option.bind_some]
  cases dir with
  | bk =>
      by_cases hlt : x.cur < x.lines.length
      · obtain ⟨text, line', hback, hfetch, hrecalled⟩ :=
          fetch_line .bk hs hline hcur hlt
        have hback' : x.back x.cur = some text := hback
        refine ⟨_, _, line', hfetch, rfl, ?_, ?_⟩
        · rw [Lines.recall, hback']
          exact ⟨hs.withCur _, by simp [hcur], hlt⟩
        · rw [Lines.recall, hback']
          exact hrecalled
      · have hall : x.cur = x.lines.length := by omega
        have hback : x.back x.cur = none := by
          simp [Lines.back, hall]
        refine ⟨-1, h, line, ?_, rfl, ?_, ?_⟩
        · simpa using fetch_none .bk line hs (Or.inr (hall ▸ hcur))
        · rw [Lines.recall, hback]
          exact hr
        · rw [Lines.recall, hback]
          exact ⟨rfl, rfl⟩
  | fw =>
      cases hx : x.cur with
      | zero =>
          rw [hx] at hcur
          refine ⟨0, h, line, ?_, rfl, ?_, ?_⟩
          · simp [hcur]
          · simp only [Lines.recall, hx]
            exact hr
          · simp only [Lines.recall, hx]
            exact ⟨rfl, by decide, rfl⟩
      | succ cur =>
          rw [hx] at hcur hle
          rw [if_pos (by omega)]
          have hs' := hs.withCur (h.shCur - 2)
          cases cur with
          | zero =>
              refine ⟨0, _, line, fetch_none .fw line hs' (Or.inl (by simp [hcur])), rfl,
                ?_, ?_⟩
              · simp only [Lines.recall, hx]
                exact ⟨hs'.withCur _, by simp [hcur], Nat.zero_le _⟩
              · simp only [Lines.recall, hx, if_true]
                exact ⟨rfl, by decide, rfl⟩
          | succ cur =>
              obtain ⟨text, line', hback, hfetch, hrecalled⟩ :=
                fetch_line .fw (k := cur) hs' hline (by simp [hcur]; omega) (by omega)
              have hback' : x.back cur = some text := hback
              refine ⟨_, _, line', hfetch, rfl, ?_, ?_⟩
              · simp only [Lines.recall, hx]
                exact ⟨hs'.withCur _, by simp [hcur]; omega, by simp only; omega⟩
              · simp only [Lines.recall, hx, Nat.add_one_sub_one, hback', Option.getD_some]
                exact hrecalled

end Cursor

/-! ### Saving a line -/

theorem memcpyTo_eq {buf src : List Byte} {off : Nat} (h : off + src.length ≤ buf.length) :
    ∃ buf', memcpyTo buf off src = some buf' ∧ buf'.length = buf.length ∧
      ∀ j, buf'.getD j 0#8 = if off ≤ j ∧ j < off + src.length then src.getD (j - off) 0#8
        else buf.getD j 0#8 := by
  refine ⟨_, if_pos h, by simp; omega, fun j => ?_⟩
  simp only [List.getD_eq_getElem?_getD, List.append_assoc]
  by_cases hlow : j < off
  · rw [if_neg (by omega), List.getElem?_append_left (by simp; omega), List.getElem?_take,
      if_pos hlow]
  · have htake : (buf.take off).length = off := by simp; omega
    rw [List.getElem?_append_right (by omega), htake]
    by_cases hmid : j < off + src.length
    · rw [if_pos ⟨by omega, hmid⟩, List.getElem?_append_left (by omega)]
    · have hidx : off + src.length + (j - off - src.length) = j := by omega
      rw [if_neg (by omega), List.getElem?_append_right (by omega), List.getElem?_drop, hidx]

section Saving

variable {h : History} {lines : List (List Byte)}

theorem isHistbuffSpace_iff (hs : Stores h lines) (length : Nat) :
    isHistbuffSpace h length = true ↔ (entries lines).length + length + 1 < h.shSize := by
  have hbeg := hs.beg
  have hfits := hs.fits
  have hused := used_mod (n := h.shSize) (t := h.shBeg) (s := h.shBeg + (entries lines).length)
    (by omega) (by omega)
  rw [Nat.mod_eq_of_lt hbeg, ← hs.fin, Nat.add_sub_cancel_left, used] at hused
  have hfin : h.shEnd < h.shSize := hs.fin ▸ Nat.mod_lt _ (by omega)
  unfold isHistbuffSpace
  split <;> simp <;> split at hused <;> omega

theorem delHistbuffEntry_eq {line : List Byte} (hs : Stores h (line :: lines)) :
    ∃ h', delHistbuffEntry h = some h' ∧ Stores h' lines ∧ h'.shSize = h.shSize ∧
      h'.shEnd = h.shEnd := by
  have hat : Stores h ([] ++ line :: lines) := hs
  obtain ⟨⟨b, hb, hlen⟩, -, -, hnext⟩ := hat.at_line
  rw [hs.offset_nil] at hb hnext
  have hfits := hs.fits
  simp only [entries_cons, List.length_cons, List.length_append] at hfits
  refine ⟨{ h with shBeg := h.offset [line] }, ?_, ?_, rfl, rfl⟩
  · simp only [delHistbuffEntry, hb, hlen, Option.bind_eq_bind, Option.bind_some]
    rw [hnext]
    rfl
  · have hskip : h.offset [line] = (h.shBeg + (line.length + 1)) % h.shSize := by
      simp [History.offset]
    constructor
    · exact hs.offset_lt [line]
    · show (entries lines).length < h.shSize
      omega
    · show h.shEnd = (h.offset [line] + (entries lines).length) % h.shSize
      rw [hskip, Nat.mod_add_mod, hs.fin]
      congr 1
      simp
      omega
    · have hdrop := hs.holds.drop (k := line.length + 1) (by simp)
      have hrest : (entries (line :: lines) ++ [0#8]).drop (line.length + 1) =
          entries lines ++ [0#8] := by
        simp
      rw [hrest] at hdrop
      exact hdrop.congr (by rw [hskip, Nat.mod_mod])
    · exact fun l hl => hs.proper l (List.mem_cons_of_mem _ hl)

/-- Room is made by dropping the oldest lines. -/
theorem makeSpace_eq (hs : Stores h lines) {length fuel : Nat} (hlength : length ≤ h.shSize - 2)
    (hsize : 2 ≤ h.shSize) (hfuel : lines.length < fuel) :
    ∃ h', makeSpace length fuel h = some h' ∧ Stores h' (evict h.shSize length lines) ∧
      h'.shSize = h.shSize ∧
      (entries (evict h.shSize length lines)).length + length + 1 < h.shSize := by
  induction fuel generalizing h lines with
  | zero => omega
  | succ fuel ih =>
      by_cases hspace : (entries lines).length + length + 1 < h.shSize
      · have hevict : evict h.shSize length lines = lines := by
          cases lines with
          | nil => rfl
          | cons line lines => exact if_pos hspace
        refine ⟨h, ?_, hevict.symm ▸ hs, rfl, hevict.symm ▸ hspace⟩
        rw [makeSpace, if_pos ((isHistbuffSpace_iff hs length).mpr hspace)]
      · cases lines with
        | nil => simp at hspace; omega
        | cons line lines =>
            obtain ⟨h₁, hdel, hs₁, hsize₁, -⟩ := delHistbuffEntry_eq hs
            simp only [List.length_cons] at hfuel
            obtain ⟨h', hmake, hs', hsize', hfree⟩ := ih hs₁ (by omega) (by omega) (by omega)
            have hevict : evict h.shSize length (line :: lines) = evict h.shSize length lines :=
              if_neg hspace
            rw [hsize₁] at hs' hsize' hfree
            refine ⟨h', ?_, hevict ▸ hs', hsize', hevict ▸ hfree⟩
            have hfull : ¬ isHistbuffSpace h length = true :=
              fun hyes => hspace ((isHistbuffSpace_iff hs length).mp hyes)
            rw [makeSpace, if_neg hfull, hdel, Option.bind_eq_bind, Option.bind_some, hmake]

/-- The text goes behind the byte for its length, and nothing else changes. -/
theorem writeText_eq {line : List Byte} {length : Nat} (hfin : h.shEnd < h.shSize)
    (hlength : length + 1 < h.shSize) (hline : length ≤ line.length) :
    ∃ buf, writeText h line length = some buf ∧ buf.length = h.shSize ∧
      Holds h.shSize (buf.getD · 0#8) (h.shEnd + 1) (line.take length) ∧
      ∀ j < h.shSize, (∀ i < length, (h.shEnd + 1 + i) % h.shSize ≠ j) →
        buf.getD j 0#8 = h.shBuffer.getD j 0#8 := by
  have hsize : h.shSize = h.shBuffer.length := rfl
  unfold writeText
  split
  case isTrue hone =>
    have hread : memcpyFrom line 0 length = some (line.take length) := by
      rw [memcpyFrom, if_pos (by omega), List.drop_zero]
    have htext : (line.take length).length = length := by simp; omega
    obtain ⟨buf, hbuf, hbuflen, hcells⟩ :=
      memcpyTo_eq
        (show h.shEnd + 1 + (line.take length).length ≤ h.shBuffer.length by omega)
    refine ⟨buf, ?_, hbuflen, ?_, ?_⟩
    · simp [hread, hbuf]
    · intro i hi
      show buf.getD _ 0#8 = _
      rw [Nat.mod_eq_of_lt (by omega), hcells, if_pos (by omega)]
      simp [List.getElem?_eq_getElem hi]
    · intro j hj hne
      rw [hcells, if_neg]
      rintro ⟨hlow, hhigh⟩
      apply hne (j - (h.shEnd + 1)) (by omega)
      rw [Nat.mod_eq_of_lt (by omega)]
      omega
  case isFalse htwo =>
    generalize hpart : h.shSize - h.shEnd - 1 = partLen at htwo ⊢
    have hfirst : memcpyFrom line 0 partLen = some (line.take partLen) := by
      rw [memcpyFrom, if_pos (by omega), List.drop_zero]
    have hsecond : memcpyFrom line partLen (length - partLen) =
        some ((line.drop partLen).take (length - partLen)) := by
      rw [memcpyFrom, if_pos (by omega)]
    have hlen₁ : (line.take partLen).length = partLen := by simp; omega
    have hlen₂ : ((line.drop partLen).take (length - partLen)).length = length - partLen := by
      simp
      omega
    obtain ⟨buf₁, hbuf₁, hbuflen₁, hcells₁⟩ :=
      memcpyTo_eq
        (show h.shEnd + 1 + (line.take partLen).length ≤ h.shBuffer.length by omega)
    obtain ⟨buf, hbuf, hbuflen, hcells⟩ :=
      memcpyTo_eq
        (show 0 + ((line.drop partLen).take (length - partLen)).length ≤ buf₁.length by omega)
    refine ⟨buf, ?_, by omega, ?_, ?_⟩
    · simp [hfirst, hsecond, hbuf₁, hbuf]
    · intro i hi
      simp only [List.length_take] at hi
      have hmod : (h.shEnd + 1 + i) % h.shSize =
          if i < partLen then h.shEnd + 1 + i else i - partLen := by
        split
        · rw [Nat.mod_eq_of_lt (by omega)]
        · rw [Nat.mod_eq_sub_mod (by omega), Nat.mod_eq_of_lt (by omega)]
          omega
      show buf.getD _ 0#8 = _
      rw [hmod, hcells, hcells₁]
      by_cases hlow : i < partLen
      · rw [if_pos hlow, if_neg (by omega), if_pos (by omega)]
        have hsub : h.shEnd + 1 + i - (h.shEnd + 1) = i := by omega
        simp [hsub, hlow, List.getElem?_eq_getElem (show i < line.length by omega)]
      · rw [if_neg hlow, if_pos (by omega)]
        have hsub : partLen + (i - partLen) = i := by omega
        have hlt : i - partLen < length - partLen := by omega
        simp [hlt, hsub, List.getElem?_eq_getElem (show i < line.length by omega)]
    · intro j hj hne
      rw [hcells, hcells₁, if_neg, if_neg]
      · rintro ⟨hlow, hhigh⟩
        apply hne (j - (h.shEnd + 1)) (by omega)
        rw [Nat.mod_eq_of_lt (by omega)]
        omega
      · rintro ⟨-, hhigh⟩
        apply hne (partLen + j) (by omega)
        rw [Nat.mod_eq_sub_mod (by omega), Nat.mod_eq_of_lt (by omega)]
        omega

/-- The loop over the blanks ends at the last character that is none. -/
theorem trimLength_eq (front : Byte) {line : List Byte} {length : Nat}
    (h : length ≤ line.length) :
    ∃ k ≤ length, trimLength front line length = some k ∧
      trimmed (line.take length) = line.take k := by
  induction length with
  | zero => exact ⟨0, Nat.le_refl _, rfl, by simp [trimmed]⟩
  | succ length ih =>
      have hlt : length < line.length := by omega
      have hread : charBefore front line (length + 1) = some (line)[length] :=
        List.getElem?_eq_getElem hlt
      have hsplit : trimmed (line.take (length + 1)) =
          (((line)[length] :: (line.take length).reverse).dropWhile (· = 0x20#8)).reverse := by
        rw [trimmed, List.take_succ_eq_append_getElem hlt, List.reverse_append]
        rfl
      rw [trimLength, hread, Option.bind_eq_bind, Option.bind_some, hsplit]
      by_cases hblank : (line)[length] = 0x20#8
      · obtain ⟨k, hk, htrim, hrest⟩ := ih (by omega)
        rw [trimmed] at hrest
        exact ⟨k, by omega, by rw [if_pos hblank, htrim], by simp [hblank, hrest]⟩
      · exact ⟨length + 1, Nat.le_refl _, by rw [if_neg hblank]; rfl, by simp [hblank]⟩

/-- A line behind the last one, with its length in front of it and a zero
behind it. -/
theorem Stores.write (hs : Stores h lines) {buf text : List Byte}
    (hfree : (entries lines).length + text.length + 1 < h.shSize) (hne : text ≠ [])
    (hmax : text.length < shellMaxLineLength) (hbuf : buf.length = h.shSize)
    (htext : Holds h.shSize (buf.getD · 0#8) (h.shEnd + 1) text)
    (hframe : ∀ j < h.shSize, (∀ i < text.length, (h.shEnd + 1 + i) % h.shSize ≠ j) →
      buf.getD j 0#8 = h.shBuffer.getD j 0#8) :
    Stores ⟨(buf.set h.shEnd (BitVec.ofNat 8 text.length)).set
        (wrap h.shSize (h.shEnd + text.length + 1)) 0#8,
      h.shBeg, wrap h.shSize (h.shEnd + text.length + 1), 0⟩ (lines ++ [text]) := by
  have hpos : 0 < h.shSize := by omega
  have hend := hs.fin
  have hfin : h.shEnd < h.shSize := hend ▸ Nat.mod_lt _ hpos
  have hkept : Holds h.shSize (buf.getD · 0#8) h.shBeg (entries lines) := by
    apply (holds_append.mp hs.holds).1.frame
    intro i hi
    apply hframe _ (Nat.mod_lt _ hpos)
    intro j hj
    rw [hend, Nat.add_assoc, Nat.mod_add_mod]
    exact (mod_ne (by omega) (by omega)).symm
  have hlen := hkept.snoc (by omega) (BitVec.ofNat 8 text.length)
  rw [← hend, ← getD_set (by omega)] at hlen
  have htext' : Holds h.shSize ((buf.set h.shEnd (BitVec.ofNat 8 text.length)).getD · 0#8)
      (h.shBeg + (entries lines ++ [BitVec.ofNat 8 text.length]).length) text := by
    have hold := htext.update (k := h.shEnd + h.shSize) (by omega) (by omega)
      (BitVec.ofNat 8 text.length)
    rw [Nat.add_mod_right, Nat.mod_eq_of_lt hfin, ← getD_set (by omega)] at hold
    apply hold.congr
    rw [hend, Nat.mod_add_mod, List.length_append, List.length_singleton, Nat.add_assoc]
  have hall := (holds_append.mpr ⟨hlen, htext'⟩).snoc (by simp; omega) 0#8
  have hentries : entries (lines ++ [text]) =
      entries lines ++ [BitVec.ofNat 8 text.length] ++ text := by
    simp
  have hlast : wrap h.shSize (h.shEnd + text.length + 1) =
      (h.shBeg + (entries (lines ++ [text])).length) % h.shSize := by
    rw [Nat.add_assoc, wrap_eq hfin (by omega), hend, Nat.mod_add_mod, hentries]
    congr 1
    simp
    omega
  have hlt : wrap h.shSize (h.shEnd + text.length + 1) < h.shSize := hlast ▸ Nat.mod_lt _ hpos
  rw [← hentries, ← hlast, ← getD_set (by simp; omega)] at hall
  have hsize : ((buf.set h.shEnd (BitVec.ofNat 8 text.length)).set
      (wrap h.shSize (h.shEnd + text.length + 1)) 0#8).length = h.shSize := by
    simpa using hbuf
  generalize (buf.set h.shEnd (BitVec.ofNat 8 text.length)).set
    (wrap h.shSize (h.shEnd + text.length + 1)) 0#8 = buf' at hall hsize ⊢
  generalize wrap h.shSize (h.shEnd + text.length + 1) = fin at hlast ⊢
  have hshSize : (⟨buf', h.shBeg, fin, 0⟩ : History).shSize = h.shSize := hsize
  constructor
  case beg =>
    rw [hshSize]
    exact hs.beg
  case fits =>
    rw [hshSize, hentries]
    simp only [List.length_append, List.length_singleton]
    omega
  case fin =>
    rw [hshSize]
    exact hlast
  case holds =>
    rw [hshSize]
    exact hall
  case proper =>
    intro line hline
    cases List.mem_append.mp hline with
    | inl hold => exact hs.proper line hold
    | inr hnew =>
        obtain rfl := List.mem_singleton.mp hnew
        exact ⟨hne, hmax⟩

/-- **Saving a line** ends, stays in the arrays but for the byte in front of the
line, and remembers the line without its last blanks behind as many of the old
lines as fit, whatever that byte is. -/
theorem saveHistory_save (front : Byte) {x : Lines} (hr : Rep h x) (hsize : 2 ≤ h.shSize) {line : List Byte}
    {length : Nat} (hline : length ≤ line.length) (hlength : length < shellMaxLineLength) :
    ∃ h', saveHistory front h line length = some h' ∧ h'.shSize = h.shSize ∧
      Rep h' (x.save h.shSize (line.take length)) := by
  have htake : (line.take length).length = length := by simp; omega
  obtain ⟨k, hle, hloop, htrim⟩ := trimLength_eq front hline
  unfold saveHistory Lines.save
  rw [htake, htrim]
  by_cases hfull : length > h.shSize - 2
  · rw [if_pos hfull, if_pos (Or.inl hfull)]
    exact ⟨h, rfl, rfl, hr⟩
  · rw [if_neg hfull, hloop, Option.bind_eq_bind, Option.bind_some]
    have hk : (line.take k).length = k := by simp; omega
    by_cases hblank : k ≤ 0
    · have hnil : line.take k = [] := List.eq_nil_of_length_eq_zero (by omega)
      simp only [if_pos hblank]
      rw [if_pos (Or.inr hnil)]
      exact ⟨h, rfl, rfl, hr⟩
    · have hne : line.take k ≠ [] := fun hnil => by
        rw [hnil] at hk
        exact hblank (Nat.le_of_eq hk.symm)
      simp only [if_neg hblank]
      rw [if_neg (not_or.mpr ⟨hfull, hne⟩), hk]
      have hlines := length_le_entries x.lines
      have hfits := hr.stores.fits
      obtain ⟨h₁, hmake, hs₁, hsize₁, hfree⟩ :=
        makeSpace_eq hr.stores (show k ≤ h.shSize - 2 by omega) hsize
          (show x.lines.length < h.shSize by omega)
      have hfin : h₁.shEnd < h₁.shSize := hs₁.fin ▸ Nat.mod_lt _ (by omega)
      obtain ⟨buf, hbuf, hbuflen, htext, hframe⟩ :=
        writeText_eq (h := h₁) hfin (by omega) (show k ≤ line.length by omega)
      have hwrite := hs₁.write (by omega) hne (by omega) hbuflen htext
        (fun j hj hother => hframe j hj (fun i hi => hother i (by omega)))
      have hlt : wrap h₁.shSize (h₁.shEnd + k + 1) < h₁.shSize := by
        unfold wrap
        split <;> omega
      rw [hk] at hwrite
      refine ⟨_, ?_, ?_, hwrite, rfl, Nat.zero_le _⟩
      · simp only [hmake, hbuf, Option.bind_eq_bind, Option.bind_some]
        rw [store, if_pos (by omega), Option.bind_some, store, if_pos (by simp; omega),
          Option.bind_some]
        rfl
      · simpa only [History.shSize, List.length_set] using hbuflen.trans hsize₁

end Saving

/-! ## Runs -/

/-- An empty history. -/
theorem rep_empty (buffer : List Byte) (h : 0 < buffer.length) :
    Rep ⟨buffer.set 0 0#8, 0, 0, 0⟩ ⟨[], 0⟩ where
  stores := by
    refine ⟨?_, ?_, ?_, ?_, nofun⟩
    · simpa [History.shSize] using h
    · simpa [History.shSize] using h
    · simp
    · intro i hi
      simp only [entries_nil, List.nil_append, List.length_singleton] at hi
      obtain rfl : i = 0 := by omega
      simp [h]
  cur := rfl
  cur_le := Nat.le_refl 0

/-- What the shell does with the history: a line that is entered, with the
byte that is in front of it then, and a step with what the line holds. -/
inductive Use where
  | save (front : Byte) (line : Vector Byte shellMaxLineLength) (length : Fin shellMaxLineLength)
  | step (line : Vector Byte shellMaxLineLength) (dir : Direction)

/-- The code, with what `get_history` returns and leaves in the line. -/
def History.run (h : History) : List Use → Option (History × List (Int × List Byte))
  | [] => some (h, [])
  | .save front line length :: uses => do
      let h ← saveHistory front h line.toList length
      h.run uses
  | .step line dir :: uses => do
      let (ret, h, line) ← getHistory h line.toList dir
      let (h, results) ← h.run uses
      pure (h, (ret, line) :: results)

/-- The list, with what is recalled and the line before. -/
def Lines.run (size : Nat) (x : Lines) : List Use → Lines × List (List Byte × Option (List Byte))
  | [] => (x, [])
  | .save _ line length :: uses => (x.save size (line.toList.take length)).run size uses
  | .step line dir :: uses =>
      let (x', results) := (x.recall dir).1.run size uses
      (x', (line.toList, (x.recall dir).2) :: results)

theorem run_recalled {h : History} {x : Lines} (hr : Rep h x) (hsize : 2 ≤ h.shSize)
    (uses : List Use) :
    ∃ h' results, h.run uses = some (h', results) ∧ Rep h' (x.run h.shSize uses).1 ∧
      List.Forall₂ (fun recalled result => Recalled recalled.1 recalled.2 result.1 result.2)
        (x.run h.shSize uses).2 results := by
  induction uses generalizing h x with
  | nil => exact ⟨h, [], rfl, hr, .nil⟩
  | cons use uses ih =>
      cases use with
      | save front line length =>
          have hline : (length : Nat) ≤ line.toList.length := by
            rw [Vector.length_toList]
            omega
          obtain ⟨h₁, hsave, hsize₁, hr₁⟩ := saveHistory_save front hr hsize hline length.isLt
          obtain ⟨h', results, hrun, hr', hall⟩ := ih hr₁ (hsize₁ ▸ hsize)
          rw [hsize₁] at hr' hall
          refine ⟨h', results, ?_, hr', hall⟩
          rw [History.run, hsave]
          exact hrun
      | step line dir =>
          have hline : line.toList.length = shellMaxLineLength := Vector.length_toList
          obtain ⟨ret, h₁, line', hget, hsize₁, hr₁, hrecalled⟩ := getHistory_recall hr hline dir
          obtain ⟨h', results, hrun, hr', hall⟩ := ih hr₁ (hsize₁ ▸ hsize)
          rw [hsize₁] at hr' hall
          refine ⟨h', (ret, line') :: results, ?_, hr', .cons hrecalled hall⟩
          rw [History.run, hget]
          simp [hrun]

/-- **The history.**  However lines are entered and recalled, the functions
end, stay in their arrays but for the byte in front of a line, which may be
anything, and give at every step the line that the list of the lines gives. -/
theorem history_run {n : Nat} (buffer : Vector Byte (n + 2)) (uses : List Use) :
    ∃ h' results, History.run ⟨buffer.toList.set 0 0#8, 0, 0, 0⟩ uses = some (h', results) ∧
      Rep h' (Lines.run (n + 2) ⟨[], 0⟩ uses).1 ∧
      List.Forall₂ (fun recalled result => Recalled recalled.1 recalled.2 result.1 result.2)
        (Lines.run (n + 2) ⟨[], 0⟩ uses).2 results := by
  have hsize : History.shSize ⟨buffer.toList.set 0 0#8, 0, 0, 0⟩ = n + 2 := by
    simp [History.shSize]
  have hr : Rep ⟨buffer.toList.set 0 0#8, 0, 0, 0⟩ ⟨[], 0⟩ := rep_empty _ (by simp)
  have hrun := run_recalled hr (by omega) uses
  rwa [hsize] at hrun

end DsEthComm.Shell
