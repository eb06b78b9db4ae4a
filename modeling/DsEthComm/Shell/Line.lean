import DsEthComm.Shell.Completion

/-!
# DsEthComm.Shell.Line

The line editor of the shell, `shellGetLine` of `shell.c`, as the Makefile
configures it: with history, completion and escape sequences.

`Editor` has the arrays and the pointer of the source; `Typed` is what the
user sees, a text and the lines of the history.  The first does what the
second says, key by key, and has no meaning exactly where the second has no
answer: at a tabulator behind a text with which `help` begins.

Two reads of the source are outside of every array and harmless: `Stray` has
what they find, and nothing depends on it.
-/

namespace DsEthComm.Shell

/-! ## The function -/

/-- The string at `line + i`. -/
def strAt (line : List Byte) (i : Nat) : List Byte := (line.drop i).takeWhile (· ≠ 0#8)

/-- What the source reads beside its arrays: the byte of the stack in front of
the line, and the bytes behind the `NULL`. -/
structure Stray where
  front : Byte
  null : Nat → Byte

/-- The variables of `shellGetLine`, and the history. -/
structure Editor where
  line : List Byte
  p : Nat
  escape : Bool
  bracket : Bool
  hist : History

/-- Whether `shellGetLine` goes on, and what it returns: `true` when the
channel is reset. -/
inductive Signal where
  | more
  | returns (reset : Bool)
deriving DecidableEq

/-- `SHELL_NEWLINE_STR`. -/
def newline : List Byte := ascii "\r\n"

/-- `SHELL_PROMPT_STR`. -/
def prompt : List Byte := ascii "ch> "

/-- `_shell_reset_cur` and `_shell_clr_line`. -/
def resetLine : List Byte := 0x1B#8 :: ascii "[70D" ++ 0x1B#8 :: ascii "[4C" ++ 0x1B#8 :: ascii "[K"

abbrev Step := Option (Editor × List Byte × Signal)

/-- Up, or Ctrl-P. -/
def previousLine (e : Editor) : Step := do
  let (len, hist, line) ← getHistory e.hist e.line .bk
  if len > 0 then
    pure ({ e with line := line, p := len.toNat, hist := hist }, resetLine ++ strAt line 0, .more)
  else pure ({ e with line := line, hist := hist }, [], .more)

/-- `*line = 0;`, when there is no line. -/
def clearLine (len : Int) (line : List Byte) : Option (List Byte) :=
  if len = 0 then store line 0 0#8 else some line

/-- Down, or Ctrl-N. -/
def nextLine (e : Editor) : Step := do
  let (len, hist, line) ← getHistory e.hist e.line .fw
  let line ← clearLine len line
  if len ≥ 0 then
    pure ({ e with line := line, p := len.toNat, hist := hist }, resetLine ++ strAt line 0, .more)
  else pure ({ e with line := line, hist := hist }, [], .more)

/-- `write_completions`. -/
def writeCompletions (scmp : List Completion) (line : List Byte) (pos : Nat) :
    Option (List Byte) :=
  if scmp.length > 1 then do
    let names ← scmp.mapM Completion.deref
    pure (newline ++ names.flatMap (0x20#8 :: ·) ++ newline ++ prompt ++ strAt line 0)
  else some (strAt line pos)

/-- A tabulator. -/
def completeLine (x : Stray) (e : Editor) : Step :=
  if e.p < shellMaxLineLength - 1 then do
    let line ← store e.line e.p 0#8
    let scmp ← getCompletions (strAt line 0)
    let (len, line) ← processCompletions x.null scmp line e.p shellMaxLineLength
    if len > 0 then do
      let out ← writeCompletions scmp line e.p
      pure ({ e with line := line, p := len }, out, .more)
    else pure ({ e with line := line }, [], .more)
  else some (e, [], .more)

/-- A key behind an escape.  After `ESC [` the bracket stays open until a key
that is not another bracket. -/
def escapeKey (e : Editor) (c : Byte) : Step :=
  if c = 0x5B#8 then some ({ e with escape := true, bracket := true }, [], .more)
  else if e.bracket then
    let e := { e with escape := false, bracket := false }
    if c = 0x41#8 then previousLine e
    else if c = 0x42#8 then nextLine e
    else some (e, [], .more)
  else some ({ e with escape := false }, [], .more)

/-- Backspace, or delete. -/
def eraseChar (e : Editor) : Step :=
  if e.p ≠ 0 then some ({ e with p := e.p - 1 }, [0x08#8, 0x20#8, 0x08#8], .more)
  else some (e, [], .more)

/-- Return. -/
def enterLine (x : Stray) (e : Editor) : Step := do
  let hist ← saveHistory x.front e.hist e.line e.p
  let line ← store e.line e.p 0#8
  pure ({ e with line := line, hist := hist }, newline, .returns false)

/-- A character.  The last cell of the line is for the zero. -/
def typeChar (e : Editor) (c : Byte) : Step :=
  if e.p < shellMaxLineLength - 1 then do
    let line ← store e.line e.p c
    pure ({ e with line := line, p := e.p + 1 }, [c], .more)
  else some (e, [], .more)

/-- One round of the loop of `shellGetLine`. -/
def keystroke (x : Stray) (e : Editor) (c : Byte) : Step :=
  if c = 27#8 then some ({ e with escape := true }, [], .more)
  else if e.escape then escapeKey e c
  else if c = 4#8 then some (e, ascii "^D", .returns true)
  else if c = 8#8 ∨ c = 127#8 then eraseChar e
  else if c = 0x0D#8 then enterLine x e
  else if c = 0x09#8 then completeLine x e
  else if c = 14#8 then nextLine e
  else if c = 16#8 then previousLine e
  else if c < 0x20#8 then some (e, [], .more)
  else typeChar e c

/-- The loop, on the bytes that come in: what it returns, its state, its
output and the bytes it leaves.  What it reads beside its arrays may be
different at every byte. -/
def getLineLoop (env : Nat → Stray) (e : Editor) :
    List Byte → Option (Bool × Editor × List Byte × List Byte)
  | [] => some (true, e, [], [])
  | c :: input => do
      let (e, out, signal) ← keystroke (env input.length) e c
      match signal with
      | .more => do
          let (reset, e, out', rest) ← getLineLoop env e input
          pure (reset, e, out ++ out', rest)
      | .returns reset => pure (reset, e, out, input)

/-- `shellGetLine`, on the array that the caller has. -/
def shellGetLine (env : Nat → Stray) (line : List Byte) (hist : History) (input : List Byte) :
    Option (Bool × Editor × List Byte × List Byte) :=
  getLineLoop env ⟨line, 0, false, false, hist⟩ input

/-! ## What the user sees -/

structure Typed where
  text : List Byte
  escape : Bool
  bracket : Bool
  history : Lines

abbrev TypedStep := Option (Typed × List Byte × Signal)

/-- Show another line of the history. -/
def Typed.recall (t : Typed) (dir : Direction) : TypedStep :=
  match t.history.recall dir with
  | (history, some text) => some ({ t with text := text, history := history }, resetLine ++ text, .more)
  | (history, none) => some ({ t with history := history }, [], .more)

/-- The list of the completions, or the rest of the only one. -/
def Typed.complete (t : Typed) : TypedStep :=
  (Shell.complete t.text).map fun text =>
    let names := candidates t.text
    if names = [] then (t, [], .more)
    else ({ t with text := text },
      if names.length > 1 then newline ++ names.flatMap (0x20#8 :: ·) ++ newline ++ prompt ++ text
      else text.drop t.text.length, .more)

/-- A key within an escape sequence: the arrows recall a line. -/
def Typed.escapeKey (t : Typed) (c : Byte) : TypedStep :=
  if c = 0x5B#8 then some ({ t with escape := true, bracket := true }, [], .more)
  else if t.bracket then
    let t := { t with escape := false, bracket := false }
    if c = 0x41#8 then t.recall .bk
    else if c = 0x42#8 then t.recall .fw
    else some (t, [], .more)
  else some ({ t with escape := false }, [], .more)

/-- The last character goes. -/
def Typed.erase (t : Typed) : TypedStep :=
  if t.text ≠ [] then
    some ({ t with text := t.text.dropLast }, [0x08#8, 0x20#8, 0x08#8], .more)
  else some (t, [], .more)

/-- The line is done, and saved unless it is blank. -/
def Typed.enter (size : Nat) (t : Typed) : TypedStep :=
  some ({ t with history := t.history.save size t.text }, newline, .returns false)

/-- A full line takes no tabulator and no character. -/
def Typed.tab (t : Typed) : TypedStep :=
  if t.text.length < shellMaxLineLength - 1 then t.complete else some (t, [], .more)

/-- A character goes behind the line, if there is room. -/
def Typed.type (t : Typed) (c : Byte) : TypedStep :=
  if t.text.length < shellMaxLineLength - 1 then
    some ({ t with text := t.text ++ [c] }, [c], .more)
  else some (t, [], .more)

/-- A key.  `SHELL_MAX_HIST_BUFF` is `size`. -/
def Typed.key (size : Nat) (t : Typed) (c : Byte) : TypedStep :=
  if c = 27#8 then some ({ t with escape := true }, [], .more)
  else if t.escape then t.escapeKey c
  else if c = 4#8 then some (t, ascii "^D", .returns true)
  else if c = 8#8 ∨ c = 127#8 then t.erase
  else if c = 0x0D#8 then t.enter size
  else if c = 0x09#8 then t.tab
  else if c = 14#8 then t.recall .fw
  else if c = 16#8 then t.recall .bk
  else if c < 0x20#8 then some (t, [], .more)
  else t.type c

/-- A line: what comes in up to its end. -/
def Typed.loop (size : Nat) (t : Typed) : List Byte → Option (Bool × Typed × List Byte × List Byte)
  | [] => some (true, t, [], [])
  | c :: input => do
      let (t, out, signal) ← t.key size c
      match signal with
      | .more => do
          let (reset, t, out', rest) ← t.loop size input
          pure (reset, t, out ++ out', rest)
      | .returns reset => pure (reset, t, out, input)

/-! ## The editor shows what the user sees -/

/-- Bytes of a string. -/
def Chars (s : List Byte) : Prop := ∀ b ∈ s, b ≠ 0#8

structure Shows (size : Nat) (e : Editor) (t : Typed) : Prop where
  cells : e.line.length = shellMaxLineLength
  text : t.text <+: e.line
  p : e.p = t.text.length
  fits : t.text.length < shellMaxLineLength
  chars : Chars t.text
  escape : e.escape = t.escape
  bracket : e.bracket = t.bracket
  size : e.hist.shSize = size
  rep : Rep e.hist t.history
  history : ∀ line ∈ t.history.lines, Chars line

/-- The string at an index of the line is the rest of the text. -/
theorem strAt_prefix {line text : List Byte} (h : text ++ [0#8] <+: line) (hchars : Chars text)
    {i : Nat} (hi : i ≤ text.length) : strAt line i = text.drop i := by
  obtain ⟨r, rfl⟩ := h
  have hdrop : ∀ b ∈ text.drop i, (decide (b ≠ 0#8)) = true :=
    fun b hb => decide_eq_true (hchars b (List.mem_of_mem_drop hb))
  rw [strAt, List.append_assoc, List.drop_append_of_le_length hi,
    List.takeWhile_append_of_pos hdrop]
  simp

/-- Eviction adds no line. -/
theorem mem_evict {size length : Nat} {lines : List (List Byte)} {line : List Byte}
    (h : line ∈ evict size length lines) : line ∈ lines := by
  induction lines with
  | nil => exact h
  | cons l lines ih =>
      rw [evict] at h
      split at h
      · exact h
      · exact List.mem_cons_of_mem _ (ih h)

theorem trimmed_subset (line : List Byte) : trimmed line ⊆ line := by
  intro b hb
  rw [trimmed, List.mem_reverse] at hb
  exact List.mem_reverse.mp ((List.dropWhile_suffix _).subset hb)

/-- The saved lines are strings. -/
theorem chars_save {size : Nat} {x : Lines} {line : List Byte}
    (hx : ∀ l ∈ x.lines, Chars l) (hline : Chars line) :
    ∀ l ∈ (x.save size line).lines, Chars l := by
  unfold Lines.save
  split
  · exact hx
  · intro l hl
    cases List.mem_append.mp hl with
    | inl hold => exact hx l (mem_evict hold)
    | inr hnew =>
        obtain rfl := List.mem_singleton.mp hnew
        exact fun b hb => hline b (trimmed_subset line hb)

/-- Recalling a line changes none. -/
theorem lines_recall (x : Lines) (dir : Direction) : (x.recall dir).1.lines = x.lines := by
  unfold Lines.recall
  split
  · split <;> rfl
  · split <;> rfl

theorem chars_recall {x : Lines} {dir : Direction} {text : List Byte}
    (hx : ∀ l ∈ x.lines, Chars l) (h : (x.recall dir).2 = some text) : Chars text := by
  have hback : ∀ k l, x.back k = some l → Chars l := by
    intro k l hl
    exact hx l (List.mem_reverse.mp (List.mem_of_getElem? hl))
  have hnil : Chars [] := by simp [Chars]
  unfold Lines.recall at h
  cases dir with
  | bk =>
      cases hk : x.back x.cur with
      | none => simp [hk] at h
      | some l =>
          simp only [hk, Option.some.injEq] at h
          exact h ▸ hback _ _ hk
  | fw =>
      cases hc : x.cur with
      | zero =>
          simp only [hc, Option.some.injEq] at h
          exact h ▸ hnil
      | succ cur =>
          simp only [hc, Option.some.injEq] at h
          rw [← h]
          split
          · exact hnil
          · cases hk : x.back (cur - 1) with
            | none => exact hnil
            | some l => exact hback _ _ hk

/-- No saved line is empty. -/
theorem back_proper {h : History} {x : Lines} (hr : Rep h x) {k : Nat} {text : List Byte}
    (hk : x.back k = some text) : text ≠ [] :=
  (hr.stores.proper text (List.mem_reverse.mp (List.mem_of_getElem? hk))).1

/-- A line of the history that is shown ends with a zero. -/
theorem recalled_prefix {line line' text : List Byte} {ret : Int}
    (h : Recalled line (some text) ret line') (hne : text ≠ []) : text ++ [0#8] <+: line' := by
  obtain ⟨-, hlt, hline⟩ := h
  rw [hline, if_neg hne, List.prefix_append_right_inj]
  obtain ⟨k, hk⟩ : ∃ k, shellMaxLineLength - text.length = k + 1 :=
    ⟨shellMaxLineLength - text.length - 1, by omega⟩
  exact ⟨List.replicate k 0#8, by rw [hk, List.replicate_succ]; rfl⟩

section Simulation

variable {size : Nat} {e : Editor} {t : Typed}

/-- The text of the history becomes the text of the line. -/
theorem Shows.recalled (h : Shows size e t) {hist : History} {x : Lines} {line text : List Byte}
    (hsize : hist.shSize = e.hist.shSize) (hrep : Rep hist x)
    (hlines : x.lines = t.history.lines) (hline : text ++ [0#8] <+: line)
    (hcells : line.length = shellMaxLineLength) (hchars : Chars text) :
    Shows size { e with line := line, p := text.length, hist := hist }
      { t with text := text, history := x } where
  cells := hcells
  text := (List.prefix_append ..).trans hline
  p := rfl
  fits := by
    have hlen := hline.length_le
    rw [List.length_append, List.length_singleton] at hlen
    simp only
    omega
  chars := hchars
  escape := h.escape
  bracket := h.bracket
  size := hsize.trans h.size
  rep := hrep
  history := hlines ▸ h.history

theorem Shows.withHistory (h : Shows size e t) {hist : History} {x : Lines}
    (hsize : hist.shSize = e.hist.shSize) (hrep : Rep hist x)
    (hlines : x.lines = t.history.lines) :
    Shows size { e with hist := hist } { t with history := x } :=
  ⟨h.cells, h.text, h.p, h.fits, h.chars, h.escape, h.bracket, hsize.trans h.size, hrep,
    hlines ▸ h.history⟩

theorem Shows.withEscape (h : Shows size e t) (escape : Bool) :
    Shows size { e with escape := escape } { t with escape := escape } :=
  ⟨h.cells, h.text, h.p, h.fits, h.chars, rfl, h.bracket, h.size, h.rep, h.history⟩

theorem Shows.withFlags (h : Shows size e t) (escape bracket : Bool) :
    Shows size { e with escape := escape, bracket := bracket }
      { t with escape := escape, bracket := bracket } :=
  ⟨h.cells, h.text, h.p, h.fits, h.chars, rfl, rfl, h.size, h.rep, h.history⟩

/-- Both go on in the same way.  A line that is returned ends with a zero. -/
def Agree (size : Nat) (step : Step) (typed : TypedStep) : Prop :=
  ∃ e' t' out signal, typed = some (t', out, signal) ∧ step = some (e', out, signal) ∧
    Shows size e' t' ∧ (signal = .returns false → t'.text ++ [0#8] <+: e'.line)

/-- Two steps that go on agree if what they leave does. -/
theorem Shows.agree (h : Shows size e t) (out : List Byte) :
    Agree size (some (e, out, .more)) (some (t, out, .more)) :=
  ⟨e, t, out, .more, rfl, rfl, h, nofun⟩

/-- `Recalled` keeps the length of the array. -/
theorem recalled_length {line line' : List Byte} {text : Option (List Byte)} {ret : Int}
    (h : Recalled line text ret line') (hline : line.length = shellMaxLineLength) :
    line'.length = shellMaxLineLength := by
  cases text with
  | none =>
      obtain ⟨-, rfl⟩ := h
      exact hline
  | some text =>
      obtain ⟨-, hlt, rfl⟩ := h
      split
      · exact hline
      · simp
        omega

/-- Up: a line of the history takes the place of what was typed, or nothing
happens. -/
theorem previousLine_sim (h : Shows size e t) : Agree size (previousLine e) (t.recall .bk) := by
  obtain ⟨ret, hist, line, hget, hsize, hrep, hrecalled⟩ := getHistory_recall h.rep h.cells .bk
  have hlines := lines_recall t.history .bk
  have hcells := recalled_length hrecalled h.cells
  have hchars := fun text => @chars_recall _ .bk text h.history
  have hproper : ∀ text, (t.history.recall .bk).2 = some text → text ≠ [] := by
    intro text htext
    cases hback : t.history.back t.history.cur with
    | none => simp [Lines.recall, hback] at htext
    | some l =>
        simp only [Lines.recall, hback, Option.some.injEq] at htext
        exact htext ▸ back_proper h.rep hback
  rw [previousLine, hget, Typed.recall]
  generalize t.history.recall .bk = r at hrep hrecalled hlines hchars hproper
  obtain ⟨x, text⟩ := r
  cases text with
  | none =>
      obtain ⟨rfl, rfl⟩ := hrecalled
      exact (h.withHistory hsize hrep hlines).agree []
  | some text =>
      have hne := hproper text rfl
      have hpre := recalled_prefix hrecalled hne
      have hret := hrecalled.1
      have hpos : ret > 0 := by
        have hlen := List.length_pos_iff.mpr hne
        omega
      have hnat : ret.toNat = text.length := by omega
      have hshow : strAt line 0 = text := strAt_prefix hpre (hchars text rfl) (Nat.zero_le _)
      simp only [Option.bind_eq_bind, Option.bind_some, hpos, if_true, hnat, hshow]
      exact (h.recalled hsize hrep hlines hpre hcells (hchars text rfl)).agree _

/-- Down: the same towards the newest line, behind which the line is empty. -/
theorem nextLine_sim (h : Shows size e t) : Agree size (nextLine e) (t.recall .fw) := by
  obtain ⟨ret, hist, line, hget, hsize, hrep, hrecalled⟩ := getHistory_recall h.rep h.cells .fw
  have hlines := lines_recall t.history .fw
  have hcells := recalled_length hrecalled h.cells
  have hchars := fun text => @chars_recall _ .fw text h.history
  have hsome : ∃ text, (t.history.recall .fw).2 = some text := by
    unfold Lines.recall
    cases t.history.cur <;> exact ⟨_, rfl⟩
  rw [nextLine, hget, Typed.recall]
  generalize t.history.recall .fw = r at hrep hrecalled hlines hchars hsome
  obtain ⟨x, text⟩ := r
  obtain ⟨text, rfl⟩ := hsome
  have hret := hrecalled.1
  have hnat : ret.toNat = text.length := by omega
  have hnonneg : ret ≥ 0 := by omega
  -- an empty text is written by its zero alone
  have hwrite : ∃ line', clearLine ret line = some line' ∧ line'.length = shellMaxLineLength ∧
      text ++ [0#8] <+: line' := by
    unfold clearLine
    by_cases hne : text = []
    · subst hne
      have hzero : ret = 0 := hret
      obtain ⟨line', hstore, hlen, hpre⟩ :=
        store_prefix (List.nil_prefix (l := line)) (by rw [hcells]; decide) 0#8
      exact ⟨line', by rw [if_pos hzero]; exact hstore, by omega, hpre⟩
    · have hlen := List.length_pos_iff.mpr hne
      rw [if_neg (by omega)]
      exact ⟨line, rfl, hcells, recalled_prefix hrecalled hne⟩
  obtain ⟨line', hstore, hcells', hpre⟩ := hwrite
  have hshow : strAt line' 0 = text := strAt_prefix hpre (hchars text rfl) (Nat.zero_le _)
  simp only [Option.bind_eq_bind, Option.bind_some, hstore, if_pos hnonneg, hnat, hshow]
  exact (h.recalled hsize hrep hlines hpre hcells' (hchars text rfl)).agree _

theorem escapeKey_sim (h : Shows size e t) (c : Byte) :
    Agree size (escapeKey e c) (t.escapeKey c) := by
  unfold escapeKey Typed.escapeKey
  by_cases hopen : c = 0x5B#8
  · simp only [if_pos hopen]
    exact (h.withFlags true true).agree []
  simp only [if_neg hopen]
  by_cases hbracket : t.bracket = true
  · have hs := h.withFlags false false
    simp only [if_pos (h.bracket.trans hbracket), if_pos hbracket]
    split
    · exact previousLine_sim hs
    split
    · exact nextLine_sim hs
    · exact hs.agree []
  · have hbracket' : ¬e.bracket = true := fun hopen => hbracket (h.bracket.symm.trans hopen)
    simp only [if_neg hbracket', if_neg hbracket]
    exact (h.withEscape false).agree []

/-- Backspace. -/
theorem eraseChar_sim (h : Shows size e t) : Agree size (eraseChar e) t.erase := by
  have hp := h.p
  have hfits := h.fits
  unfold eraseChar Typed.erase
  by_cases hempty : t.text = []
  · have hzero : e.p = 0 := by rw [hp, hempty, List.length_nil]
    simp only [hempty, ne_eq, not_true_eq_false, if_false, hzero]
    exact h.agree []
  · have hpos := List.length_pos_iff.mpr hempty
    have hnonzero : e.p ≠ 0 := by omega
    simp only [ne_eq, hempty, hnonzero, not_false_eq_true, if_true]
    have hs : Shows size { e with p := e.p - 1 } { t with text := t.text.dropLast } :=
      ⟨h.cells, (List.dropLast_prefix _).trans h.text, by simp [hp], by simp; omega,
        fun b hb => h.chars b (List.dropLast_subset _ hb), h.escape, h.bracket, h.size, h.rep,
        h.history⟩
    exact hs.agree _

/-- Return: the line goes to the history and to the caller. -/
theorem enterLine_sim (x : Stray) (h : Shows size e t) (hsize : 2 ≤ size) :
    Agree size (enterLine x e) (t.enter size) := by
  have hp := h.p
  have hfits := h.fits
  have hcells := h.cells
  have hprefix := List.prefix_iff_eq_take.mp h.text
  have hroom : 2 ≤ e.hist.shSize := by
    rw [h.size]
    exact hsize
  obtain ⟨hist, hsave, hsize', hrep⟩ :=
    saveHistory_save x.front h.rep hroom (show e.p ≤ e.line.length by omega) (by omega)
  rw [hp, ← hprefix, h.size] at hrep
  obtain ⟨line, hstore, hlen, hpre⟩ := store_prefix h.text (by omega) 0#8
  rw [← hp] at hstore
  rw [enterLine, hsave, Option.bind_eq_bind, Option.bind_some, hstore]
  refine ⟨_, _, newline, .returns false, rfl, rfl, ?_, fun _ => hpre⟩
  exact ⟨hlen.trans hcells, (List.prefix_append ..).trans hpre, hp, hfits, h.chars, h.escape,
    h.bracket, hsize'.trans h.size, hrep, chars_save h.history h.chars⟩

theorem typeChar_sim (h : Shows size e t) {c : Byte} (hc : c ≠ 0#8) :
    Agree size (typeChar e c) (t.type c) := by
  have hp := h.p
  have hcells := h.cells
  unfold typeChar Typed.type
  rw [hp]
  by_cases hroom : t.text.length < shellMaxLineLength - 1
  · obtain ⟨line, hstore, hlen, hpre⟩ := store_prefix h.text (by omega) c
    simp only [if_pos hroom, hstore, Option.bind_eq_bind, Option.bind_some]
    have hchars : Chars (t.text ++ [c]) := by
      intro b hb
      cases List.mem_append.mp hb with
      | inl hold => exact h.chars b hold
      | inr hnew => exact List.mem_singleton.mp hnew ▸ hc
    have hs : Shows size { e with line := line, p := t.text.length + 1 }
        { t with text := t.text ++ [c] } :=
      ⟨hlen.trans hcells, hpre, by simp, by simp; omega, hchars, h.escape, h.bracket, h.size,
        h.rep, h.history⟩
    exact hs.agree _
  · simp only [if_neg hroom]
    exact h.agree []

theorem mapM_deref (names : List (List Byte)) :
    (names.map Completion.name).mapM Completion.deref = some names := by
  induction names with
  | nil => rfl
  | cons name names ih =>
      rw [List.map_cons, List.mapM_cons, ih]
      rfl

/-- A tabulator overflows the array of the completions on the empty line, and
reads an array that is gone behind another beginning of `help`. -/
theorem completeLine_help (x : Stray) (h : Shows size e t) (hhelp : t.text <+: ascii "help") :
    completeLine x e = none ∧ t.tab = none := by
  have hp := h.p
  have hcells := h.cells
  have hshort : t.text.length ≤ 4 := by simpa [ascii] using hhelp.length_le
  have hroom : t.text.length < shellMaxLineLength - 1 := by
    unfold shellMaxLineLength
    omega
  obtain ⟨line, hstore, -, hpre⟩ := store_prefix h.text (by omega) 0#8
  have hstr : strAt line 0 = t.text := strAt_prefix hpre h.chars (Nat.zero_le _)
  constructor
  · have hprocess := processCompletions_help x.null line hhelp
    rw [completeLine, hp, if_pos hroom, hstore, Option.bind_eq_bind, Option.bind_some, hstr]
    cases hscmp : getCompletions t.text with
    | none => rfl
    | some scmp =>
        rw [hscmp, Option.bind_some] at hprocess
        simp only [Option.bind_eq_bind, Option.bind_some, hprocess]
        rfl
  · rw [Typed.tab, if_pos hroom, Typed.complete, complete, if_pos hhelp]
    rfl

/-- The tabulator: the line becomes the common beginning of the names, or they
are listed. -/
theorem completeLine_sim (x : Stray) (h : Shows size e t) (hhelp : ¬t.text <+: ascii "help") :
    Agree size (completeLine x e) t.tab := by
  have hfits := h.fits
  have hp := h.p
  have hcells := h.cells
  unfold completeLine Typed.tab
  rw [hp]
  by_cases hroom : t.text.length < shellMaxLineLength - 1
  case neg =>
    simp only [if_neg hroom]
    exact h.agree []
  case pos =>
    obtain ⟨line, hstore, hlen, hpre⟩ := store_prefix h.text (by omega) 0#8
    have hstr : strAt line 0 = t.text := strAt_prefix hpre h.chars (Nat.zero_le _)
    have htext : t.text <+: line := (List.prefix_append ..).trans hpre
    have hempty : t.text ≠ [] := fun hnil => hhelp (hnil ▸ List.nil_prefix)
    obtain ⟨len, line', hscmp, hprocess, hcells', hresult⟩ :=
      processCompletions_eq x.null (hlen.trans hcells) htext hhelp
    simp only [if_pos hroom, hstore, hstr, hscmp, hprocess, Option.bind_eq_bind,
      Option.bind_some, Typed.complete]
    by_cases hnone : candidates t.text = []
    · rw [if_pos hnone] at hresult
      obtain ⟨rfl, rfl, hcomplete⟩ := hresult
      rw [if_neg (by decide), hcomplete, Option.map_some, if_pos hnone]
      have hs : Shows size { e with line := line' } t :=
        ⟨hcells', htext, hp, hfits, h.chars, h.escape, h.bracket, h.size, h.rep, h.history⟩
      rw [← hp]
      exact hs.agree []
    · rw [if_neg hnone] at hresult
      obtain ⟨text', hcomplete, rfl, hshort, hpre', htext', hchars'⟩ := hresult
      have hpos : text'.length > 0 :=
        Nat.lt_of_lt_of_le (List.length_pos_iff.mpr hempty) htext'.length_le
      have hout : writeCompletions ((candidates t.text).map .name) line' t.text.length =
          some (if (candidates t.text).length > 1 then
            newline ++ (candidates t.text).flatMap (0x20#8 :: ·) ++ newline ++ prompt ++ text'
          else text'.drop t.text.length) := by
        rw [writeCompletions, mapM_deref, strAt_prefix hpre' hchars' (Nat.zero_le _),
          strAt_prefix hpre' hchars' htext'.length_le, List.drop_zero, List.length_map]
        split <;> rfl
      rw [if_pos hpos, hout, hcomplete, Option.bind_some, Option.map_some, if_neg hnone]
      exact (h.recalled rfl h.rep rfl hpre' hcells' hchars').agree _

/-- **One key.**  The editor does what the user sees, and is undefined exactly
where there is nothing to see: at a tabulator behind a beginning of `help`. -/
theorem keystroke_sim (x : Stray) (h : Shows size e t) (hsize : 2 ≤ size) (c : Byte) :
    (t.key size c = none ∧ keystroke x e c = none ∧ t.escape = false ∧ c = 0x09#8 ∧
        t.text <+: ascii "help") ∨
      Agree size (keystroke x e c) (t.key size c) := by
  unfold Typed.key keystroke
  rw [h.escape]
  by_cases h27 : c = 27#8
  · simp only [if_pos h27]
    exact Or.inr ((h.withEscape true).agree [])
  simp only [if_neg h27]
  by_cases hescape : t.escape = true
  · simp only [if_pos hescape]
    exact Or.inr (escapeKey_sim h c)
  simp only [if_neg hescape]
  by_cases heof : c = 4#8
  · simp only [if_pos heof]
    exact Or.inr ⟨e, t, _, .returns true, rfl, rfl, h, nofun⟩
  simp only [if_neg heof]
  by_cases hback : c = 8#8 ∨ c = 127#8
  · simp only [if_pos hback]
    exact Or.inr (eraseChar_sim h)
  simp only [if_neg hback]
  by_cases hreturn : c = 0x0D#8
  · simp only [if_pos hreturn]
    exact Or.inr (enterLine_sim x h hsize)
  simp only [if_neg hreturn]
  by_cases htab : c = 0x09#8
  · simp only [if_pos htab]
    by_cases hhelp : t.text <+: ascii "help"
    · obtain ⟨he, ht⟩ := completeLine_help x h hhelp
      exact Or.inl ⟨ht, he, by simpa using hescape, htab, hhelp⟩
    · exact Or.inr (completeLine_sim x h hhelp)
  simp only [if_neg htab]
  right
  split
  · exact nextLine_sim h
  split
  · exact previousLine_sim h
  split
  · exact h.agree []
  · apply typeChar_sim h
    rintro rfl
    contradiction

/-- A line, up to its end. -/
theorem getLineLoop_sim (env : Nat → Stray) (hsize : 2 ≤ size) (input : List Byte)
    (h : Shows size e t) :
    (t.loop size input = none ∧ getLineLoop env e input = none) ∨
      ∃ reset t' e' out rest, t.loop size input = some (reset, t', out, rest) ∧
        getLineLoop env e input = some (reset, e', out, rest) ∧ Shows size e' t' ∧
        (reset = false → t'.text ++ [0#8] <+: e'.line) := by
  induction input generalizing e t with
  | nil => exact Or.inr ⟨true, t, e, [], [], rfl, rfl, h, nofun⟩
  | cons c input ih =>
      rw [Typed.loop, getLineLoop]
      rcases keystroke_sim (env input.length) h hsize c with
        ⟨ht, he, -⟩ | ⟨e', t', out, signal, ht, he, hs, hline⟩
      · left
        rw [ht, he]
        exact ⟨rfl, rfl⟩
      · rw [ht, he]
        simp only [Option.bind_eq_bind, Option.bind_some]
        cases signal with
        | returns reset =>
            refine Or.inr ⟨reset, t', e', out, input, rfl, rfl, hs, ?_⟩
            rintro rfl
            exact hline rfl
        | more =>
            rcases ih hs with ⟨ht', he'⟩ | ⟨reset, t'', e'', out', rest, ht', he', hs', hline'⟩
            · left
              simp only [ht', he']
              exact ⟨rfl, rfl⟩
            · right
              simp only [ht', he']
              exact ⟨reset, t'', e'', _, rest, rfl, rfl, hs', hline'⟩

end Simulation

end DsEthComm.Shell
