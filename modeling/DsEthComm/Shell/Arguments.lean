import DsEthComm.Shell.Line

/-!
# DsEthComm.Shell.Arguments

How the shell takes a line apart: `parse_arguments` of `shell.c` and the
loop of `shellThread` that calls it.

The source works in place.  It writes a zero behind each word and keeps
pointers into the line; the zeros that come later must not reach the words
that are there already.  `commandLine` says the same of the text alone.
-/

namespace DsEthComm.Shell

/-! ## The functions -/

/-- `" \t"`. -/
def blank (b : Byte) : Bool := b = 0x20#8 || b = 0x09#8

/-- `"\""`. -/
def quote (b : Byte) : Bool := b = 0x22#8

/-- `strspn(line + p, accept)`. -/
def strspn (line : List Byte) (p : Nat) (accept : Byte → Bool) : Option Nat :=
  let n := ((line.drop p).takeWhile accept).length
  if p + n < line.length then some n else none

/-- `strpbrk(line + p, accept)`, where `some none` is `NULL`. -/
def strpbrk (line : List Byte) (p : Nat) (accept : Byte → Bool) : Option (Option Nat) := do
  let n := ((line.drop p).takeWhile fun b => b ≠ 0#8 && !accept b).length
  let b ← (line)[p + n]?
  pure (if b = 0#8 then none else some (p + n))

/-- `*(*saveptr)++ = '\0'`, if there is a delimiter. -/
def replaceDelimiter (line : List Byte) : Option Nat → Option (List Byte)
  | none => some line
  | some d => store line d 0#8

/-- `parse_arguments`: the argument, `*saveptr` and the line.  The pointers
are positions in the line, and `NULL` is `none`. -/
def parseArguments (line : List Byte) (str saveptr : Option Nat) :
    Option (Option Nat × Option Nat × List Byte) :=
  match str.or saveptr with
  | none => some (none, none, line)
  | some p => do
      let n ← strspn line p blank
      let b ← (line)[p + n]?
      let p := if quote b then p + n + 1 else p + n
      let delimiter ← strpbrk line p (if quote b then quote else blank)
      let line ← replaceDelimiter line delimiter
      let first ← (line)[p]?
      pure (if first ≠ 0#8 then some p else none, delimiter.map (· + 1), line)

/-- `SHELL_MAX_ARGUMENTS`. -/
def shellMaxArguments : Nat := 4

/-- The loop that fills `args`, with room for so many more.  It is `none`
inside when there are too many. -/
def collectArguments : Nat → List Byte → Option Nat → Option (Option (List Nat) × List Byte)
  | 0, line, tokp => do
      let (lp, _, line) ← parseArguments line none tokp
      pure (if lp = none then some [] else none, line)
  | room + 1, line, tokp => do
      let (lp, tokp, line) ← parseArguments line none tokp
      match lp with
      | none => pure (some [], line)
      | some lp => do
          let (args, line) ← collectArguments room line tokp
          pure (args.map (lp :: ·), line)

/-- What `shellThread` does with a line: `cmd`, `args` and the line. -/
def parseLine (line : List Byte) : Option (Option Nat × Option (List Nat) × List Byte) := do
  let (cmd, tokp, line) ← parseArguments line (some 0) none
  let (args, line) ← collectArguments shellMaxArguments line tokp
  pure (cmd, args, line)

/-! ## What they are for -/

/-- The text in front of the first delimiter, and the text behind it. -/
def cut (delimiter : Byte → Bool) (text : List Byte) : List Byte × Option (List Byte) :=
  (text.takeWhile (!delimiter ·), (text.dropWhile (!delimiter ·)).tail?)

/-- The next word, and the text behind it.  A word that starts with a quote
ends with one. -/
def word (text : List Byte) : List Byte × Option (List Byte) :=
  match text.dropWhile blank with
  | [] => ([], none)
  | b :: rest => if quote b then cut quote rest else cut blank (b :: rest)

/-- The words of a text up to the first that is empty, if there are at most
`room`. -/
def arguments : Nat → Option (List Byte) → Option (List (List Byte))
  | _, none => some []
  | 0, some text => if (word text).1 = [] then some [] else none
  | room + 1, some text =>
      if (word text).1 = [] then some []
      else (arguments room (word text).2).map ((word text).1 :: ·)

/-- A command line: the command, and the arguments if there are not too
many. -/
def commandLine (text : List Byte) : Option (List Byte) × Option (List (List Byte)) :=
  let (cmd, rest) := word text
  (if cmd = [] then none else some cmd, arguments shellMaxArguments rest)

/-! ## Strings in the line -/

/-- At this position of the line begins a string. -/
def At (line : List Byte) (p : Nat) (text : List Byte) : Prop :=
  text ++ [0#8] <+: line.drop p

section Strings

variable {line line' text : List Byte} {p : Nat}

theorem strAt_at (h : At line p text) (hchars : Chars text) : strAt line p = text := by
  obtain ⟨r, hr⟩ := h
  have hall : ∀ b ∈ text, (decide (b ≠ 0#8)) = true := fun b hb => decide_eq_true (hchars b hb)
  rw [strAt, ← hr, List.append_assoc, List.takeWhile_append_of_pos hall]
  simp

theorem At.length_lt (h : At line p text) : p + text.length < line.length := by
  have hle := h.length_le
  simp only [List.length_append, List.length_singleton, List.length_drop] at hle
  omega

/-- A part of a string. -/
theorem At.drop (h : At line p text) {k : Nat} (hk : k ≤ text.length) :
    At line (p + k) (text.drop k) := by
  obtain ⟨r, hr⟩ := h
  refine ⟨r, ?_⟩
  rw [← List.drop_drop, ← hr, List.append_assoc, List.append_assoc, List.drop_append_of_le_length hk]

/-- The bytes of a string, and the zero behind it. -/
theorem At.getElem? (h : At line p text) {k : Nat} (hk : k ≤ text.length) :
    (line)[p + k]? = some (text.getD k 0#8) := by
  obtain ⟨r, hr⟩ := h
  rw [← List.getElem?_drop, ← hr, List.append_assoc]
  by_cases hlt : k < text.length
  · simp [List.getElem?_append_left hlt, hlt]
  · obtain rfl : k = text.length := by omega
    simp

/-- A string in front of everything that changes. -/
theorem At.frame (h : At line p text) {t : Nat} (ht : p + text.length < t)
    (hframe : line'.take t = line.take t) : At line' p text := by
  have hlen : (text ++ [0#8]).length = text.length + 1 := by simp
  have htake : ∀ l : List Byte,
      (l.drop p).take (text.length + 1) = ((l.take t).drop p).take (text.length + 1) := by
    intro l
    rw [List.drop_take, List.take_take]
    congr 1
    omega
  rw [At, List.prefix_iff_eq_take, hlen, htake, hframe, ← htake, ← hlen]
  exact List.prefix_iff_eq_take.mp h

/-- A zero ends the string. -/
theorem At.terminate (h : At line p text) {k : Nat} (hk : k < text.length) :
    ∃ line', store line (p + k) 0#8 = some line' ∧ line'.length = line.length ∧
      line'.take p = line.take p ∧ At line' p (text.take k) ∧
      At line' (p + k + 1) (text.drop (k + 1)) := by
  have hlt := h.length_lt
  obtain ⟨r, hr⟩ := h
  refine ⟨_, if_pos (by omega), List.length_set .., ?_, ?_, ?_⟩
  · rw [List.take_set_of_le (by omega)]
  · rw [At, List.drop_set, if_neg (by omega), Nat.add_sub_cancel_left, ← hr,
      List.append_assoc, List.set_append_left _ _ hk]
    refine ⟨text.drop (k + 1) ++ ([0#8] ++ r), ?_⟩
    rw [List.set_eq_take_append_cons_drop, if_pos hk]
    simp
  · rw [At, List.drop_set_of_lt (by omega), Nat.add_assoc, ← List.drop_drop (j := p), ← hr,
      List.append_assoc, List.drop_append_of_le_length (by omega)]
    exact ⟨r, by simp⟩

/-- A zero that is not accepted stops `strspn` and `strpbrk`. -/
theorem takeWhile_append_zero {accept : Byte → Bool} (h : accept 0#8 = false)
    (text r : List Byte) :
    (text ++ [0#8] ++ r).takeWhile accept = text.takeWhile accept := by
  induction text with
  | nil => simp [h]
  | cons b text ih =>
      simp only [List.cons_append, List.takeWhile_cons]
      rw [ih]

theorem At.strspn (h : At line p text) {accept : Byte → Bool} (hzero : accept 0#8 = false) :
    strspn line p accept = some (text.takeWhile accept).length := by
  have hlt := h.length_lt
  have hle := (List.takeWhile_prefix (l := text) accept).length_le
  obtain ⟨r, hr⟩ := h
  rw [Shell.strspn, ← hr, takeWhile_append_zero hzero]
  exact if_pos (by omega)

/-- What `strpbrk` skips. -/
theorem takeWhile_chars (hchars : Chars text) (accept : Byte → Bool) :
    text.takeWhile (fun b => b ≠ 0#8 && !accept b) = text.takeWhile (!accept ·) := by
  induction text with
  | nil => rfl
  | cons b text ih =>
      have hb : b ≠ 0#8 := hchars b (by simp)
      rw [List.takeWhile_cons, List.takeWhile_cons, ih fun x hx => hchars x (by simp [hx])]
      simp [hb]

theorem At.strpbrk (h : At line p text) (hchars : Chars text) (accept : Byte → Bool) :
    strpbrk line p accept =
      some ((cut accept text).2.map fun _ => p + (cut accept text).1.length) := by
  have hskip : ((line.drop p).takeWhile fun b => b ≠ 0#8 && !accept b) =
      text.takeWhile (!accept ·) := by
    obtain ⟨r, hr⟩ := h
    rw [← hr, takeWhile_append_zero (by simp), takeWhile_chars hchars]
  have hle := (List.takeWhile_prefix (l := text) (!accept ·)).length_le
  have hsplit := List.takeWhile_append_dropWhile (l := text) (p := (!accept ·))
  rw [Shell.strpbrk, hskip, h.getElem? hle, Option.bind_eq_bind, Option.bind_some]
  simp only [cut]
  generalize text.takeWhile (!accept ·) = w at hsplit
  generalize text.dropWhile (!accept ·) = rest at hsplit
  subst hsplit
  cases rest with
  | nil => simp
  | cons b rest =>
      have hb : b ≠ 0#8 := hchars b (by simp)
      simp [hb]

theorem At.replaceDelimiter (h : At line p text) (delimiter : Byte → Bool) :
    let w := cut delimiter text
    ∃ line', replaceDelimiter line (w.2.map fun _ => p + w.1.length) = some line' ∧
      line'.length = line.length ∧ line'.take p = line.take p ∧ At line' p w.1 ∧
      ∀ rest, w.2 = some rest → At line' (p + w.1.length + 1) rest := by
  have hsplit := List.takeWhile_append_dropWhile (l := text) (p := (!delimiter ·))
  simp only [cut]
  generalize text.takeWhile (!delimiter ·) = w at hsplit
  generalize text.dropWhile (!delimiter ·) = rest at hsplit
  subst hsplit
  cases rest with
  | nil =>
      rw [List.append_nil] at h
      exact ⟨line, rfl, rfl, rfl, h, nofun⟩
  | cons b rest =>
      obtain ⟨line', hstore, hlen, hframe, hfirst, hsecond⟩ :=
        h.terminate (k := w.length) (by simp)
      have hdrop : (w ++ b :: rest).drop (w.length + 1) = rest := by
        rw [List.drop_append, List.drop_eq_nil_of_le (by omega)]
        simp
      rw [List.take_left' rfl] at hfirst
      rw [hdrop] at hsecond
      refine ⟨line', hstore, hlen, hframe, hfirst, ?_⟩
      intro rest' hrest
      obtain rfl := Option.some.inj hrest
      exact hsecond

end Strings

/-! ## The words in the line -/

theorem chars_cut {text : List Byte} (hchars : Chars text) (delimiter : Byte → Bool) :
    Chars (cut delimiter text).1 ∧ ∀ rest, (cut delimiter text).2 = some rest → Chars rest := by
  constructor
  · exact fun b hb => hchars b ((List.takeWhile_prefix _).subset hb)
  · intro rest hrest b hb
    apply hchars b
    apply (List.dropWhile_suffix (!delimiter ·)).subset
    rw [cut] at hrest
    cases htail : text.dropWhile (!delimiter ·) with
    | nil => simp [htail] at hrest
    | cons x tail =>
        simp only [htail, List.tail?_cons, Option.some.injEq] at hrest
        rw [hrest]
        exact List.mem_cons_of_mem x hb

theorem chars_word {text : List Byte} (hchars : Chars text) :
    Chars (word text).1 ∧ ∀ rest, (word text).2 = some rest → Chars rest := by
  have hskip : Chars (text.dropWhile blank) :=
    fun b hb => hchars b ((List.dropWhile_suffix _).subset hb)
  rw [word]
  cases hrest : text.dropWhile blank with
  | nil => exact ⟨nofun, nofun⟩
  | cons b rest =>
      rw [hrest] at hskip
      simp only
      split
      · exact chars_cut (fun x hx => hskip x (List.mem_cons_of_mem b hx)) quote
      · exact chars_cut hskip blank

/-- `*saveptr` points to what is left of the text, at `p` or behind it. -/
def Resumes (line : List Byte) (p : Nat) (tokp : Option Nat) (rest : Option (List Byte)) : Prop :=
  (tokp = none ∧ rest = none) ∨
    ∃ t text, tokp = some t ∧ rest = some text ∧ p ≤ t ∧ At line t text

/-- What a call of `parse_arguments` at `p` leaves: a pointer to the word,
one to the text behind it, and the line in front of `p`. -/
structure Found (line line' : List Byte) (p : Nat) (w : List Byte × Option (List Byte))
    (lp tokp : Option Nat) : Prop where
  length : line'.length = line.length
  frame : line'.take p = line.take p
  word : (lp = none ∧ w.1 = []) ∨
    ∃ q, lp = some q ∧ w.1 ≠ [] ∧ p ≤ q ∧ At line' q w.1 ∧
      Resumes line' (q + w.1.length + 1) tokp w.2
  rest : lp = none → Resumes line' p tokp w.2

section Parse

variable {line line' text : List Byte} {p : Nat}

theorem Resumes.mono {tokp : Option Nat} {rest : Option (List Byte)} {q : Nat}
    (h : Resumes line q tokp rest) (hpq : p ≤ q) : Resumes line p tokp rest := by
  cases h with
  | inl hnone => exact Or.inl hnone
  | inr hsome =>
      obtain ⟨t, text, ht, htext, hle, hat⟩ := hsome
      exact Or.inr ⟨t, text, ht, htext, Nat.le_trans hpq hle, hat⟩

theorem take_mono {q : Nat} (h : line'.take q = line.take q) (hpq : p ≤ q) :
    line'.take p = line.take p := by
  have htake : ∀ l : List Byte, l.take p = (l.take q).take p := by
    intro l
    rw [List.take_take, Nat.min_eq_left hpq]
  rw [htake line', h, ← htake]

theorem Found.mono {w : List Byte × Option (List Byte)} {lp tokp : Option Nat} {q : Nat}
    (h : Found line line' q w lp tokp) (hpq : p ≤ q) : Found line line' p w lp tokp where
  length := h.length
  frame := take_mono h.frame hpq
  word := by
    cases h.word with
    | inl hnone => exact Or.inl hnone
    | inr hsome =>
        obtain ⟨r, hr, hne, hle, hat, hrest⟩ := hsome
        exact Or.inr ⟨r, hr, hne, Nat.le_trans hpq hle, hat, hrest⟩
  rest hlp := (h.rest hlp).mono hpq

/-- The end of `parse_arguments`, from the first byte of the word on. -/
theorem At.parse (h : At line p text) (hchars : Chars text) (delimiter : Byte → Bool) :
    ∃ lp tokp line', (do
        let d ← Shell.strpbrk line p delimiter
        let line ← Shell.replaceDelimiter line d
        let first ← (line)[p]?
        pure (if first ≠ 0#8 then some p else none, d.map (· + 1), line)) =
          some (lp, tokp, line') ∧ Found line line' p (cut delimiter text) lp tokp := by
  obtain ⟨line', hreplace, hlen, hframe, hword, hrest⟩ := h.replaceDelimiter delimiter
  have hcut := (chars_cut hchars delimiter).1
  have hfirst := hword.getElem? (Nat.zero_le _)
  rw [Nat.add_zero] at hfirst
  rw [h.strpbrk hchars]
  simp only [Option.bind_eq_bind, Option.bind_some, hreplace, hfirst]
  have hresumes : Resumes line' (p + (cut delimiter text).1.length + 1)
      (((cut delimiter text).2.map fun _ => p + (cut delimiter text).1.length).map (· + 1))
      (cut delimiter text).2 := by
    cases hr : (cut delimiter text).2 with
    | none => exact Or.inl ⟨rfl, rfl⟩
    | some rest => exact Or.inr ⟨_, rest, rfl, rfl, Nat.le_refl _, hrest rest hr⟩
  refine ⟨_, _, _, rfl, hlen, hframe, ?_, fun _ => hresumes.mono (by omega)⟩
  cases hw : (cut delimiter text).1 with
  | nil => exact Or.inl ⟨if_neg (by simp), rfl⟩
  | cons b w =>
      have hb : b ≠ 0#8 := hcut b (by simp [hw])
      rw [hw] at hword hresumes
      exact Or.inr ⟨p, if_pos (by simpa using hb), by simp, Nat.le_refl p, hword, hresumes⟩

/-- **One call.**  `parse_arguments` finds the next word of the text. -/
theorem parseArguments_word (h : At line p text) (hchars : Chars text) {str saveptr : Option Nat}
    (hstart : str.or saveptr = some p) :
    ∃ lp tokp line', parseArguments line str saveptr = some (lp, tokp, line') ∧
      Found line line' p (word text) lp tokp := by
  have hsplit := List.takeWhile_append_dropWhile (l := text) (p := blank)
  rw [parseArguments, hstart, word]
  simp only [Option.bind_eq_bind, h.strspn (show blank 0#8 = false by decide), Option.bind_some]
  have hskip : At line (p + (text.takeWhile blank).length) (text.dropWhile blank) := by
    have hle := (List.takeWhile_prefix (l := text) blank).length_le
    have hdrop := h.drop hle
    have hright : (text.takeWhile blank ++ text.dropWhile blank).drop
        (text.takeWhile blank).length = text.dropWhile blank := List.drop_left
    rw [hsplit] at hright
    rwa [hright] at hdrop
  have hrest : Chars (text.dropWhile blank) :=
    fun b hb => hchars b ((List.dropWhile_suffix _).subset hb)
  have hfirst := hskip.getElem? (Nat.zero_le _)
  rw [Nat.add_zero] at hfirst
  simp only [hfirst, Option.bind_some]
  cases htext : text.dropWhile blank with
  | nil =>
      rw [htext] at hskip
      have hquote : quote (([] : List Byte).getD 0 0#8) = false := by decide
      simp only [hquote, Bool.false_eq_true, if_false]
      obtain ⟨lp, tokp, line', hparse, hfound⟩ := hskip.parse nofun blank
      exact ⟨lp, tokp, line', hparse, hfound.mono (by omega)⟩
  | cons b rest =>
      rw [htext] at hskip hrest
      rw [List.getD_cons_zero]
      by_cases hb : quote b = true
      · simp only [hb, if_true]
        have hnext : At line (p + (text.takeWhile blank).length + 1) rest := hskip.drop (by simp)
        have hchars' : Chars rest := fun x hx => hrest x (List.mem_cons_of_mem b hx)
        obtain ⟨lp, tokp, line', hparse, hfound⟩ := hnext.parse hchars' quote
        exact ⟨lp, tokp, line', hparse, hfound.mono (by omega)⟩
      · simp only [hb]
        obtain ⟨lp, tokp, line', hparse, hfound⟩ := hskip.parse hrest blank
        exact ⟨lp, tokp, line', hparse, hfound.mono (by omega)⟩

/-- **The loop.**  The strings at the pointers in `args` are the words of the
text, also after the last zero is written. -/
theorem collectArguments_arguments (room : Nat) {tokp : Option Nat} {rest : Option (List Byte)}
    (h : Resumes line p tokp rest) (hchars : ∀ text, rest = some text → Chars text) :
    ∃ args line', collectArguments room line tokp = some (args, line') ∧
      line'.length = line.length ∧ line'.take p = line.take p ∧
      args.map (·.map (strAt line')) = arguments room rest := by
  induction room generalizing line p tokp rest with
  | zero =>
      rcases h with ⟨rfl, rfl⟩ | ⟨t, text, rfl, rfl, hle, hat⟩
      · refine ⟨some [], line, ?_, rfl, rfl, rfl⟩
        simp [collectArguments, parseArguments]
      · obtain ⟨lp, tokp, line', hparse, hfound⟩ :=
          parseArguments_word hat (hchars text rfl) (Option.none_or (o := some t))
        have hframe := take_mono hfound.frame hle
        refine ⟨if lp = none then some [] else none, line', ?_, hfound.length, hframe, ?_⟩
        · rw [collectArguments, hparse]
          rfl
        · rw [arguments]
          rcases hfound.word with ⟨rfl, hempty⟩ | ⟨q, rfl, hne, -⟩
          · simp [hempty]
          · simp [hne]
  | succ room ih =>
      rcases h with ⟨rfl, rfl⟩ | ⟨t, text, rfl, rfl, hle, hat⟩
      · refine ⟨some [], line, ?_, rfl, rfl, rfl⟩
        simp [collectArguments, parseArguments]
      · obtain ⟨lp, tokp, line', hparse, hfound⟩ :=
          parseArguments_word hat (hchars text rfl) (Option.none_or (o := some t))
        have hword := chars_word (hchars text rfl)
        have hframe := take_mono hfound.frame hle
        rw [collectArguments, hparse, Option.bind_eq_bind, Option.bind_some, arguments]
        rcases hfound.word with ⟨rfl, hempty⟩ | ⟨q, rfl, hne, hq, hatw, hresumes⟩
        · refine ⟨some [], line', rfl, hfound.length, hframe, ?_⟩
          simp [hempty]
        · obtain ⟨args, line'', hcollect, hlen, hframe', hargs⟩ := ih hresumes hword.2
          refine ⟨args.map (q :: ·), line'', ?_, hlen.trans hfound.length,
            (take_mono hframe' (by omega)).trans hframe, ?_⟩
          · simp only [hcollect, Option.bind_eq_bind, Option.bind_some]
            rfl
          · -- the zeros that are written later lie behind this word
            have hshow := strAt_at (hatw.frame (Nat.lt_succ_self _) hframe') hword.1
            rw [if_neg hne, ← hargs, Option.map_map, Option.map_map]
            congr 1
            funext args
            simp [hshow]

/-- **A line.**  The pointers that `shellThread` gets are those of the command
and the arguments that the text has. -/
theorem parseLine_commandLine (h : At line 0 text) (hchars : Chars text) :
    ∃ cmd args line', parseLine line = some (cmd, args, line') ∧ line'.length = line.length ∧
      (cmd.map (strAt line'), args.map (·.map (strAt line'))) = commandLine text := by
  obtain ⟨lp, tokp, line', hparse, hfound⟩ :=
    parseArguments_word h hchars (Option.or_none (o := some 0))
  have hword := chars_word hchars
  rw [parseLine, hparse, Option.bind_eq_bind, Option.bind_some, commandLine]
  rcases hfound.word with ⟨rfl, hempty⟩ | ⟨q, rfl, hne, hq, hatw, hresumes⟩
  · obtain ⟨args, line'', hcollect, hlen, -, hargs⟩ :=
      collectArguments_arguments shellMaxArguments (hfound.rest rfl) hword.2
    refine ⟨none, args, line'', ?_, hlen.trans hfound.length, ?_⟩
    · simp only [hcollect]
      rfl
    · simp only [hempty, hargs, Option.map_none, if_true]
  · obtain ⟨args, line'', hcollect, hlen, hframe, hargs⟩ :=
      collectArguments_arguments shellMaxArguments hresumes hword.2
    have hshow := strAt_at (hatw.frame (Nat.lt_succ_self _) hframe) hword.1
    refine ⟨some q, args, line'', ?_, hlen.trans hfound.length, ?_⟩
    · simp only [hcollect]
      rfl
    · simp only [hne, hargs, Option.map_some, if_false, hshow]

end Parse

/-! ## What can be typed -/

theorem length_arguments {room : Nat} {rest : Option (List Byte)} {args : List (List Byte)}
    (h : arguments room rest = some args) : args.length ≤ room := by
  induction room generalizing rest args with
  | zero =>
      cases rest with
      | none => simp_all [arguments]
      | some text =>
          rw [arguments] at h
          split at h
          · simp_all
          · contradiction
  | succ room ih =>
      cases rest with
      | none => simp_all [arguments]
      | some text =>
          rw [arguments] at h
          split at h
          · simp_all
          · obtain ⟨args', hargs, rfl⟩ := Option.map_eq_some_iff.mp h
            have hle := ih hargs
            simp
            omega

/-- A word in quotes. -/
def quoted (w : List Byte) : List Byte := 0x20#8 :: 0x22#8 :: (w ++ [0x22#8])

/-- A word that can be typed in quotes. -/
def Quotable (w : List Byte) : Prop := w ≠ [] ∧ 0x22#8 ∉ w

theorem word_quoted {w : List Byte} (hw : Quotable w) (text : List Byte) :
    word (quoted w ++ text) = (w, some text) := by
  have hopen : blank 0x22#8 = false ∧ quote 0x22#8 = true ∧ blank 0x20#8 = true := by decide
  have hall : ∀ b ∈ w, (!quote b) = true := by
    intro b hb
    simp only [quote, Bool.not_eq_true', decide_eq_false_iff_not]
    rintro rfl
    exact hw.2 hb
  simp only [quoted, word, List.cons_append, List.append_assoc]
  rw [List.dropWhile_cons, if_pos hopen.2.2, List.dropWhile_cons, if_neg (by simp [hopen.1])]
  simp only [hopen.2.1, if_true, cut]
  rw [List.takeWhile_append_of_pos hall, List.dropWhile_append_of_pos hall]
  simp [hopen.2.1]

/-- Words in quotes. -/
theorem commandLine_quoted {cmd : List Byte} {args : List (List Byte)}
    (hwords : ∀ w ∈ cmd :: args, Quotable w) :
    commandLine ((cmd :: args).flatMap quoted) =
      (some cmd, if args.length ≤ shellMaxArguments then some args else none) := by
  have hargs : ∀ (room : Nat) (args : List (List Byte)), (∀ w ∈ args, Quotable w) →
      arguments room (some (args.flatMap quoted)) =
        if args.length ≤ room then some args else none := by
    intro room args
    induction args generalizing room with
    | nil => cases room <;> simp [arguments, word]
    | cons w args ih =>
        intro hall
        have hw := hall w (by simp)
        have hrest := fun room => ih room fun x hx => hall x (List.mem_cons_of_mem w hx)
        cases room with
        | zero => simp [arguments, List.flatMap_cons, word_quoted hw, hw.1]
        | succ room =>
            simp only [arguments, List.flatMap_cons, word_quoted hw, hw.1, if_false, hrest]
            by_cases hle : args.length ≤ room <;> simp [hle]
  have hcmd := hwords cmd (by simp)
  rw [List.flatMap_cons, commandLine, word_quoted hcmd]
  simp only [hcmd.1, if_false]
  rw [hargs _ _ fun w hw => hwords w (List.mem_cons_of_mem cmd hw)]

theorem chars_quoted {words : List (List Byte)} (h : ∀ w ∈ words, Chars w) :
    Chars (words.flatMap quoted) := by
  intro b hb
  obtain ⟨w, hw, hin⟩ := List.mem_flatMap.mp hb
  simp only [quoted, List.mem_cons, List.mem_append, List.not_mem_nil, or_false] at hin
  obtain rfl | rfl | hin | rfl := hin
  · decide
  · decide
  · exact h w hw b hin
  · decide

/-- **What can be typed.**  Quotes bring any words to a command, as far as
there are not too many. -/
theorem parseLine_quoted {line cmd : List Byte} {args : List (List Byte)}
    (hwords : ∀ w ∈ cmd :: args, Quotable w ∧ Chars w)
    (h : At line 0 ((cmd :: args).flatMap quoted)) :
    ∃ cmdp argp line', parseLine line = some (some cmdp, argp, line') ∧
      strAt line' cmdp = cmd ∧
      argp.map (·.map (strAt line')) =
        if args.length ≤ shellMaxArguments then some args else none := by
  obtain ⟨cmdp, argp, line', hparse, -, hstrings⟩ :=
    parseLine_commandLine h (chars_quoted fun w hw => (hwords w hw).2)
  rw [commandLine_quoted fun w hw => (hwords w hw).1] at hstrings
  obtain ⟨hcmd, hargs⟩ := Prod.mk.inj hstrings
  obtain ⟨p, rfl, hword⟩ := Option.map_eq_some_iff.mp hcmd
  exact ⟨p, argp, line', hparse, hword, hargs⟩

/-- `set` with a blank in its argument. -/
theorem parseLine_quoted_blank :
    ∃ cmdp argp line', parseLine (ascii " \"set\" \"a b\"" ++ [0#8]) =
        some (some cmdp, argp, line') ∧
      strAt line' cmdp = ascii "set" ∧ argp.map (·.map (strAt line')) = some [ascii "a b"] :=
  have hwords : ∀ w ∈ ascii "set" :: [ascii "a b"], Quotable w ∧ Chars w := by
    simp [Quotable, Chars, ascii]
  parseLine_quoted hwords (by simp [At, quoted, ascii])

end DsEthComm.Shell
