import DsEthComm.CString
import DsEthComm.Shell.History

/-!
# DsEthComm.Shell.Completion

What a tabulator does in the shell: `get_completions` and
`process_completions` of `shell.c`, with the commands of this firmware.

The array of the completions has `SHELL_MAX_COMPLETIONS` entries, and
nothing stops `get_completions` at its end.  There are fifteen commands, so
the empty line overflows it.

The first completion, `help`, is an array of `get_completions` itself, and is
gone when `process_completions` reads it.  So a tabulator has no meaning
behind a text with which `help` begins.

Behind the last completion `process_completions` reads through the `NULL`.
What lies at the small addresses is a parameter, and does not matter.
-/

namespace DsEthComm.Shell

/-! ## The commands -/

/-- `shell_local_commands` as `shell_cmd.h` and the Makefile configure it. -/
def shellLocalCommands : List (List Byte) :=
  [ascii "exit", ascii "info", ascii "echo", ascii "systime", ascii "mem", ascii "threads"]

/-- `commands` of `main.c`. -/
def commands : List (List Byte) :=
  [ascii "nrf_channel", ascii "nrf_channel_get", ascii "nrf_addr", ascii "nrf_addr_get",
    ascii "net_config", ascii "net_info", ascii "udp_dest", ascii "udp_dest_get"]

/-- The names in the order in which `get_completions` goes through them. -/
def names : List (List Byte) := ascii "help" :: (shellLocalCommands ++ commands)

/-- An entry in the array of the completions: a pointer to the name of a
command, or to `help_cmp`. -/
inductive Completion where
  | helpCmp
  | name (text : List Byte)
deriving DecidableEq

/-- The string, as long as `get_completions` runs. -/
def Completion.text : Completion → List Byte
  | .helpCmp => ascii "help"
  | .name text => text

/-- The string after that. -/
def Completion.deref : Completion → Option (List Byte)
  | .helpCmp => none
  | .name text => some text

/-- What `get_completions` goes through. -/
def completions : List Completion := .helpCmp :: (shellLocalCommands ++ commands).map .name

theorem map_text_completions : completions.map Completion.text = names := by
  have hmap : ∀ xs : List (List Byte), (xs.map Completion.name).map Completion.text = xs := by
    intro xs
    induction xs with
    | nil => rfl
    | cons x xs ih => rw [List.map_cons, List.map_cons, ih]; rfl
  rw [completions, List.map_cons, hmap]
  rfl

private theorem names_eq : names =
    [[0x68#8, 0x65#8, 0x6C#8, 0x70#8],
      [0x65#8, 0x78#8, 0x69#8, 0x74#8],
      [0x69#8, 0x6E#8, 0x66#8, 0x6F#8],
      [0x65#8, 0x63#8, 0x68#8, 0x6F#8],
      [0x73#8, 0x79#8, 0x73#8, 0x74#8, 0x69#8, 0x6D#8, 0x65#8],
      [0x6D#8, 0x65#8, 0x6D#8],
      [0x74#8, 0x68#8, 0x72#8, 0x65#8, 0x61#8, 0x64#8, 0x73#8],
      [0x6E#8, 0x72#8, 0x66#8, 0x5F#8, 0x63#8, 0x68#8, 0x61#8, 0x6E#8, 0x6E#8, 0x65#8,
        0x6C#8],
      [0x6E#8, 0x72#8, 0x66#8, 0x5F#8, 0x63#8, 0x68#8, 0x61#8, 0x6E#8, 0x6E#8, 0x65#8,
        0x6C#8, 0x5F#8, 0x67#8, 0x65#8, 0x74#8],
      [0x6E#8, 0x72#8, 0x66#8, 0x5F#8, 0x61#8, 0x64#8, 0x64#8, 0x72#8],
      [0x6E#8, 0x72#8, 0x66#8, 0x5F#8, 0x61#8, 0x64#8, 0x64#8, 0x72#8, 0x5F#8, 0x67#8,
        0x65#8, 0x74#8],
      [0x6E#8, 0x65#8, 0x74#8, 0x5F#8, 0x63#8, 0x6F#8, 0x6E#8, 0x66#8, 0x69#8, 0x67#8],
      [0x6E#8, 0x65#8, 0x74#8, 0x5F#8, 0x69#8, 0x6E#8, 0x66#8, 0x6F#8],
      [0x75#8, 0x64#8, 0x70#8, 0x5F#8, 0x64#8, 0x65#8, 0x73#8, 0x74#8],
      [0x75#8, 0x64#8, 0x70#8, 0x5F#8, 0x64#8, 0x65#8, 0x73#8, 0x74#8, 0x5F#8, 0x67#8,
        0x65#8, 0x74#8]] := by
  simp [names, shellLocalCommands, commands, ascii]

/-! ## The functions -/

/-- `SHELL_MAX_COMPLETIONS`. -/
def shellMaxCompletions : Nat := 8

/-- `*scmp++ = c`. -/
def addCompletion (scmp : List Completion) (c : Completion) : Option (List Completion) :=
  if scmp.length < shellMaxCompletions then some (scmp ++ [c]) else none

/-- The loops of `get_completions`. -/
def collectCompletions (line : List Byte) :
    List Completion → List Completion → Option (List Completion)
  | [], scmp => some scmp
  | c :: cs, scmp =>
      if line.isPrefixOf c.text then do
        let scmp ← addCompletion scmp c
        collectCompletions line cs scmp
      else collectCompletions line cs scmp

/-- `get_completions`, with the `NULL` at the end. -/
def getCompletions (line : List Byte) : Option (List Completion) := do
  let scmp ← collectCompletions line completions []
  if scmp.length < shellMaxCompletions then pure scmp else none

/-- `*(*cmp + clen)`, where `cmp` is at an entry or at the `NULL`. -/
def charAt (null : Nat → Byte) (clen : Nat) : List Completion → Option Byte
  | [] => some (null clen)
  | c :: _ => do
      let s ← c.deref
      (s ++ [0#8])[clen]?

/-- The inner loop: the completions from the first on that differ from `*scmp`
at `clen`, where it has `b`.  At the `NULL` the character is read before the
loop looks whether there is one. -/
def skipEqual (null : Nat → Byte) (b : Byte) (clen : Nat) :
    List Completion → Option (List Completion)
  | [] => (charAt null clen []).map fun _ => []
  | c :: cmp => do
      let x ← charAt null clen (c :: cmp)
      if b = x ∧ x ≠ 0#8 then skipEqual null b clen cmp else pure (c :: cmp)

/-- The outer loop, over what is left of `*scmp` behind `clen`: the line and
`clen` at its end. -/
def extend (null : Nat → Byte) (others : List Completion) (length size : Nat) :
    List Byte → Nat → List Byte → Nat → Option (List Byte × Nat)
  | [], clen, line, _ => some (line, clen)
  | b :: rest, clen, line, c => do
      let cmp ← skipEqual null b clen others
      if cmp = [] then
        if c < size - 1 ∧ clen ≥ length then do
          let line ← store line c b
          extend null others length size rest (clen + 1) line (c + 1)
        else extend null others length size rest (clen + 1) line c
      else pure (line, clen)

/-- The copy of the only completion: the line and where it ends. -/
def copyName (name : List Byte) (size : Nat) : Nat → List Byte → Nat → Option (List Byte × Nat)
  | 0, line, c => some (line, c)
  | fuel + 1, line, c =>
      if c < name.length ∧ c < size - 1 then do
        let b ← (name ++ [0#8])[c]?
        let line ← store line c b
        copyName name size fuel line (c + 1)
      else some (line, c)

/-- `process_completions`: what it returns and the line. -/
def processCompletions (null : Nat → Byte) (scmp : List Completion) (line : List Byte)
    (length size : Nat) : Option (Nat × List Byte) :=
  match scmp with
  | [] => some (0, line)
  | [c] => do
      let name ← c.deref
      let (line, c) ← copyName name size size line length
      if c < size - 1 then do
        let line ← store line c 0x20#8
        let line ← store line (name.length + 1) 0#8
        pure (name.length + 1, line)
      else do
        let line ← store line name.length 0#8
        pure (name.length, line)
  | c :: others => do
      let name ← c.deref
      let (line, clen) ← extend null others length size name 0 line length
      let line ← store line clen 0#8
      pure (clen, line)

/-! ## What they do -/

/-- What a list of strings has in common at the beginning. -/
def common : List Byte → List (List Byte) → List Byte
  | [], _ => []
  | b :: s, others =>
      if others.all (·.head? = some b) then b :: common s (others.map List.tail) else []

theorem common_shared (s : List Byte) (others : List (List Byte)) :
    common s others <+: s ∧ ∀ t ∈ others, common s others <+: t := by
  induction s generalizing others with
  | nil => simp [common]
  | cons b s ih =>
      rw [common]
      split
      case isFalse => simp
      case isTrue hall =>
        obtain ⟨hs, hothers⟩ := ih (others.map List.tail)
        refine ⟨by simpa using hs, fun t ht => ?_⟩
        have hhead : t.head? = some b := by simpa using List.all_eq_true.mp hall t ht
        obtain ⟨t', rfl⟩ := List.head?_eq_some_iff.mp hhead
        simpa using hothers t' (List.mem_map.mpr ⟨b :: t', ht, rfl⟩)

/-- It is the longest. -/
theorem prefix_common {p s : List Byte} {others : List (List Byte)} (hs : p <+: s)
    (hothers : ∀ t ∈ others, p <+: t) : p <+: common s others := by
  induction p generalizing s others with
  | nil => simp
  | cons b p ih =>
      obtain ⟨s', rfl⟩ : ∃ s', s = b :: s' := by
        obtain ⟨r, rfl⟩ := hs
        exact ⟨p ++ r, rfl⟩
      have hall : others.all (·.head? = some b) = true := by
        rw [List.all_eq_true]
        intro t ht
        obtain ⟨r, rfl⟩ := hothers t ht
        simp
      rw [common, if_pos hall, List.cons_prefix_cons]
      refine ⟨rfl, ih (List.cons_prefix_cons.mp hs).2 fun t ht => ?_⟩
      obtain ⟨t', ht', rfl⟩ := List.mem_map.mp ht
      obtain ⟨r, rfl⟩ := hothers t' ht'
      simp

/-- The completions of a line. -/
def matching (line : List Byte) : List Completion :=
  completions.filter fun c => line.isPrefixOf c.text

theorem collectCompletions_eq (line : List Byte) (cs scmp : List Completion) :
    collectCompletions line cs scmp =
      if (scmp ++ cs.filter (line.isPrefixOf ·.text)).length ≤ shellMaxCompletions ∨
          cs.filter (line.isPrefixOf ·.text) = [] then
        some (scmp ++ cs.filter (line.isPrefixOf ·.text)) else none := by
  induction cs generalizing scmp with
  | nil => simp [collectCompletions]
  | cons c cs ih =>
      rw [collectCompletions]
      by_cases hmatch : line.isPrefixOf c.text = true
      · have hfilter := List.filter_cons_of_pos (p := (line.isPrefixOf ·.text)) (l := cs) hmatch
        rw [if_pos hmatch, hfilter, addCompletion]
        by_cases hroom : scmp.length < shellMaxCompletions
        · simp only [if_pos hroom, Option.bind_eq_bind, Option.bind_some, ih]
          have hlen : scmp.length + 1 ≤ shellMaxCompletions := hroom
          by_cases hnil : cs.filter (line.isPrefixOf ·.text) = []
          · simp [hnil, hlen]
          · simp [hnil]
        · have hno : ¬ scmp.length + ((cs.filter (line.isPrefixOf ·.text)).length + 1) ≤
              shellMaxCompletions := by omega
          simp [hroom, hno]
      · have hfilter := List.filter_cons_of_neg (p := (line.isPrefixOf ·.text)) (l := cs) hmatch
        rw [if_neg hmatch, hfilter, ih]

/-- It writes beyond the array exactly when there are too many matches. -/
theorem getCompletions_eq (line : List Byte) :
    getCompletions line =
      if (matching line).length < shellMaxCompletions then some (matching line) else none := by
  rw [getCompletions, collectCompletions_eq, List.nil_append, ← matching]
  generalize matching line = matched
  by_cases hlt : matched.length < shellMaxCompletions
  · have hle : matched.length ≤ shellMaxCompletions := Nat.le_of_lt hlt
    simp [hlt, hle]
  · rw [if_neg hlt]
    split
    case isTrue => simp [hlt]
    case isFalse => rfl

theorem length_matching (line : List Byte) :
    (matching line).length = (names.filter (line.isPrefixOf ·)).length := by
  rw [← map_text_completions, List.filter_map, List.length_map]
  rfl

/-- The first characters of the names. -/
private theorem heads_eq : names.map List.head? =
    [some 0x68#8, some 0x65#8, some 0x69#8, some 0x65#8, some 0x73#8, some 0x6D#8, some 0x74#8,
      some 0x6E#8, some 0x6E#8, some 0x6E#8, some 0x6E#8, some 0x6E#8, some 0x6E#8, some 0x75#8,
      some 0x75#8] := by
  rw [names_eq]
  rfl

private theorem heads_few (b : Byte) :
    (names.filter fun name => name.head? = some b).length < shellMaxCompletions := by
  have hcount : names.countP (fun name => decide (name.head? = some b)) =
      (names.map List.head?).countP (· = some b) := by
    rw [List.countP_map]
    rfl
  rw [← List.countP_eq_length_filter, hcount, heads_eq]
  revert b
  decide +kernel

/-- **Exactly the empty line overflows the array.** -/
theorem getCompletions_eq_none_iff (line : List Byte) : getCompletions line = none ↔ line = [] := by
  rw [getCompletions_eq, length_matching]
  cases line with
  | nil =>
      have hall : names.filter (List.isPrefixOf [] ·) = names := List.filter_eq_self.mpr (by simp)
      have hmany : ¬ names.length < shellMaxCompletions := by decide
      rw [hall, if_neg hmany]
      simp
  | cons b line =>
      have hfew : (names.filter ((b :: line).isPrefixOf ·)).length < shellMaxCompletions := by
        apply Nat.lt_of_le_of_lt _ (heads_few b)
        rw [← List.countP_eq_length_filter, ← List.countP_eq_length_filter]
        apply List.countP_mono_left
        intro name _ hname
        rw [List.isPrefixOf_iff_prefix] at hname
        obtain ⟨rest, rfl⟩ := hname
        simp
      simp [hfew]

/-! ### The loops -/

theorem skipEqual_eq (null : Nat → Byte) {b : Byte} (hb : b ≠ 0#8) (clen : Nat)
    {cmp : List (List Byte)} (hlen : ∀ s ∈ cmp, clen ≤ s.length) :
    ∃ rest, skipEqual null b clen (cmp.map .name) = some rest ∧
      (rest = [] ↔ ∀ s ∈ cmp, (s.drop clen).head? = some b) := by
  induction cmp with
  | nil => exact ⟨[], rfl, by simp⟩
  | cons s cmp ih =>
      have hs := hlen s (by simp)
      obtain ⟨rest, hrest, hiff⟩ := ih fun t ht => hlen t (List.mem_cons_of_mem _ ht)
      have hread : charAt null clen (.name s :: cmp.map .name) =
          some ((s.drop clen).head?.getD 0#8) := by
        show (s ++ [0#8])[clen]? = _
        rw [List.head?_drop]
        by_cases hlt : clen < s.length
        · rw [List.getElem?_append_left hlt, List.getElem?_eq_getElem hlt]
          rfl
        · have heq : clen = s.length := by omega
          simp [heq]
      simp only [List.map_cons, skipEqual, hread, Option.bind_eq_bind, Option.bind_some,
        List.forall_mem_cons]
      cases hhead : (s.drop clen).head? with
      | none =>
          simp only [Option.getD_none]
          rw [if_neg (by simp)]
          exact ⟨_, rfl, by simp⟩
      | some x =>
          by_cases hx : b = x
          · subst hx
            simp only [Option.getD_some]
            rw [if_pos ⟨trivial, hb⟩]
            exact ⟨rest, hrest, by simpa using hiff⟩
          · simp only [Option.getD_some]
            rw [if_neg (fun h => hx h.1)]
            exact ⟨_, rfl, by simp [Ne.symm hx]⟩

/-- A byte behind the text at the beginning of a line. -/
theorem store_prefix {line text : List Byte} (h : text <+: line) (hlen : text.length < line.length)
    (b : Byte) :
    ∃ line', store line text.length b = some line' ∧ line'.length = line.length ∧
      text ++ [b] <+: line' := by
  refine ⟨_, if_pos hlen, List.length_set .., ?_⟩
  obtain ⟨r, rfl⟩ := h
  cases r with
  | nil => simp at hlen
  | cons x r => exact ⟨r, by simp⟩

theorem copyName_eq {name : List Byte} {size fuel c : Nat} {line : List Byte}
    (hfuel : name.length - c < fuel) (hc : c ≤ name.length) (hname : name.length < size)
    (hline : line.length = size) (hpre : name.take c <+: line) :
    ∃ line', copyName name size fuel line c = some (line', name.length) ∧ line'.length = size ∧
      name <+: line' := by
  induction fuel generalizing c line with
  | zero => omega
  | succ fuel ih =>
      rw [copyName]
      by_cases hlt : c < name.length
      · have htake : (name.take c).length = c := by simp; omega
        have hread : (name ++ [0#8])[c]? = some name[c] := by
          rw [List.getElem?_append_left hlt, List.getElem?_eq_getElem hlt]
        obtain ⟨line', hstore, hlen, hpre'⟩ := store_prefix hpre (by omega) name[c]
        rw [htake] at hstore
        rw [← List.take_succ_eq_append_getElem hlt] at hpre'
        obtain ⟨line'', hcopy, hlen', hname'⟩ := ih (by omega) hlt (by omega) hpre'
        refine ⟨line'', ?_, hlen', hname'⟩
        rw [if_pos ⟨hlt, by omega⟩]
        simp [hread, hstore, hcopy]
      · have heq : c = name.length := by omega
        subst heq
        rw [if_neg (by omega)]
        rw [List.take_length] at hpre
        exact ⟨line, rfl, hline, hpre⟩

/-- From what is common up to `clen` the loop goes on to everything that is,
and writes what the line does not have yet. -/
theorem extend_eq (null : Nat → Byte) {name : List Byte} {others : List (List Byte)}
    {length size clen : Nat} {line : List Byte} (hnonzero : ∀ b ∈ name, b ≠ 0#8)
    (hname : name.length < size) (hline : line.length = size)
    (hlength : length ≤ (common name others).length) (hclen : clen ≤ (common name others).length)
    (hpre : name.take (max clen length) <+: line) :
    ∃ line', extend null (others.map .name) length size (name.drop clen) clen line
        (max clen length) = some (line', (common name others).length) ∧ line'.length = size ∧
      common name others <+: line' := by
  obtain ⟨hcommon, hothers⟩ := common_shared name others
  have hle := hcommon.length_le
  generalize hk : (common name others).length - clen = k
  induction k generalizing clen line with
  | zero =>
      have hend : clen = (common name others).length := by omega
      have hmax : max clen length = (common name others).length := by omega
      rw [hmax, ← List.prefix_iff_eq_take.mp hcommon] at hpre
      refine ⟨line, ?_, hline, hpre⟩
      cases hdrop : name.drop clen with
      | nil => rw [extend, hend]
      | cons b rest =>
          have hb : b ≠ 0#8 := hnonzero b (List.mem_of_mem_drop (hdrop ▸ List.mem_cons_self ..))
          have hothers' : ∀ s ∈ others, clen ≤ s.length := fun s hs => by
            have := (hothers s hs).length_le
            omega
          obtain ⟨cmp, hcmp, hiff⟩ := skipEqual_eq null hb clen hothers'
          -- otherwise one more byte would be common
          have hne : cmp ≠ [] := by
            intro hnil
            have hlonger : common name others ++ [b] <+: common name others := by
              apply prefix_common
              · have h := List.take_append_drop clen name
                rw [hdrop, hend, ← List.prefix_iff_eq_take.mp hcommon] at h
                exact ⟨rest, by simpa using h⟩
              · intro s hs
                have hhead := hiff.mp hnil s hs
                obtain ⟨r, hr⟩ := List.head?_eq_some_iff.mp hhead
                have h := List.take_append_drop clen s
                rw [hr, hend, ← List.prefix_iff_eq_take.mp (hothers s hs)] at h
                exact ⟨r, by simpa using h⟩
            have hlen := hlonger.length_le
            rw [List.length_append, List.length_singleton] at hlen
            omega
          rw [extend, hcmp, Option.bind_eq_bind, Option.bind_some, if_neg hne, hend]
          rfl
  | succ k ih =>
      have hlt : clen < name.length := by omega
      have hdrop : name.drop clen = name[clen] :: name.drop (clen + 1) :=
        List.drop_eq_getElem_cons hlt
      have hb : name[clen] ≠ 0#8 := hnonzero _ (List.getElem_mem hlt)
      have hothers' : ∀ s ∈ others, clen ≤ s.length := fun s hs => by
        have := (hothers s hs).length_le
        omega
      obtain ⟨cmp, hcmp, hiff⟩ := skipEqual_eq null hb clen hothers'
      have hcget : (common name others)[clen] = name[clen] := hcommon.getElem (by omega)
      have hnil : cmp = [] := by
        rw [hiff]
        intro s hs
        obtain ⟨r, hr⟩ := hothers s hs
        rw [List.head?_drop, ← hr, List.getElem?_append_left (by omega),
          List.getElem?_eq_getElem (by omega), hcget]
      rw [hdrop, extend, hcmp, Option.bind_eq_bind, Option.bind_some, if_pos hnil]
      by_cases hwrite : clen ≥ length
      · have hmax : max clen length = clen := by omega
        have hmax' : clen + 1 = max (clen + 1) length := by omega
        have htake : (name.take clen).length = clen := by simp; omega
        rw [hmax] at hpre ⊢
        obtain ⟨line', hstore, hlen, hpre'⟩ := store_prefix hpre (by omega) name[clen]
        rw [htake] at hstore
        rw [← List.take_succ_eq_append_getElem hlt, hmax'] at hpre'
        obtain ⟨line'', hext, hlen', hfinal⟩ := ih (by omega) (by omega) hpre' (by omega)
        refine ⟨line'', ?_, hlen', hfinal⟩
        rw [if_pos ⟨by omega, hwrite⟩, hstore, Option.bind_eq_bind, Option.bind_some, ← hext,
          ← hmax']
      · have hmax : max clen length = max (clen + 1) length := by omega
        rw [if_neg (fun h => hwrite h.2), hmax]
        exact ih hline (by omega) (hmax ▸ hpre) (by omega)

/-! ### The effect -/

/-- The commands that begin with a text. -/
def candidates (text : List Byte) : List (List Byte) :=
  (shellLocalCommands ++ commands).filter (text.isPrefixOf ·)

/-- What a tabulator makes of a text: `none` if it overflows the array of the
completions or reads `help_cmp`, the text itself if there are none. -/
def complete (text : List Byte) : Option (List Byte) :=
  if text <+: ascii "help" then none
  else match candidates text with
    | [] => some text
    | [name] => some (name ++ [0x20#8])
    | name :: others => some (common name others)

theorem matching_eq (text : List Byte) :
    matching text = if text <+: ascii "help" then .helpCmp :: (candidates text).map .name
      else (candidates text).map .name := by
  have hrest : ((shellLocalCommands ++ commands).map Completion.name).filter
      (text.isPrefixOf ·.text) = (candidates text).map .name := by
    rw [List.filter_map]
    rfl
  have hhelp : (text.isPrefixOf Completion.helpCmp.text = true) ↔ text <+: ascii "help" :=
    List.isPrefixOf_iff_prefix
  rw [matching, completions, List.filter_cons, hrest]
  simp only [hhelp]

/-- No other command begins like `help`. -/
theorem candidates_help {text : List Byte} (h : text <+: ascii "help") (hne : text ≠ []) :
    candidates text = [] := by
  have hhelp : ascii "help" = [0x68#8, 0x65#8, 0x6C#8, 0x70#8] := by simp [ascii]
  obtain ⟨b, text, rfl⟩ := List.exists_cons_of_ne_nil hne
  rw [hhelp, List.cons_prefix_cons] at h
  obtain ⟨rfl, -⟩ := h
  rw [candidates, List.filter_eq_nil_iff]
  intro name hname
  have hfirst : name.head? ≠ some 0x68#8 := by
    revert name
    simp [shellLocalCommands, commands, ascii]
  rw [List.isPrefixOf_iff_prefix]
  rintro ⟨rest, rfl⟩
  simp at hfirst

/-- Behind a text with which `help` begins there is nothing to complete it
with. -/
theorem processCompletions_help (null : Nat → Byte) (line : List Byte) {text : List Byte}
    (h : text <+: ascii "help") :
    ((getCompletions text).bind fun scmp =>
      processCompletions null scmp line text.length shellMaxLineLength) = none := by
  by_cases hempty : text = []
  · rw [(getCompletions_eq_none_iff text).mpr hempty]
    rfl
  · rw [getCompletions_eq, matching_eq, if_pos h, candidates_help h hempty]
    rfl

private theorem names_facts : ∀ name ∈ shellLocalCommands ++ commands,
    name ≠ [] ∧ name.length < shellMaxLineLength - 2 ∧ ∀ b ∈ name, 0x20#8 < b ∧ b < 0x7F#8 := by
  simp [shellLocalCommands, commands, ascii, shellMaxLineLength]

/-- **Completion.**  The functions of the shell do to a line with a text what
`complete` says, whatever they read through the `NULL`. -/
theorem processCompletions_eq (null : Nat → Byte) {line text : List Byte}
    (hline : line.length = shellMaxLineLength) (hpre : text <+: line)
    (hhelp : ¬text <+: ascii "help") :
    ∃ len line', getCompletions text = some ((candidates text).map .name) ∧
      processCompletions null ((candidates text).map .name) line text.length shellMaxLineLength =
        some (len, line') ∧
      line'.length = shellMaxLineLength ∧
      if candidates text = [] then len = 0 ∧ line' = line ∧ complete text = some text
      else ∃ text', complete text = some text' ∧ len = text'.length ∧
        text'.length < shellMaxLineLength ∧ text' ++ [0#8] <+: line' ∧ text <+: text' ∧
        ∀ b ∈ text', b ≠ 0#8 := by
  have hne : text ≠ [] := by
    rintro rfl
    exact hhelp List.nil_prefix
  have hscmp := getCompletions_eq text
  have hsome : (matching text).length < shellMaxCompletions := by
    by_contra hmany
    rw [if_neg hmany, getCompletions_eq_none_iff] at hscmp
    exact hne hscmp
  rw [if_pos hsome, matching_eq, if_neg hhelp] at hscmp
  have hmem : ∀ name ∈ candidates text, text <+: name ∧ name ∈ shellLocalCommands ++ commands := by
    intro name hname
    obtain ⟨hname, hp⟩ := List.mem_filter.mp hname
    exact ⟨List.isPrefixOf_iff_prefix.mp hp, hname⟩
  have hnonzero : ∀ name ∈ shellLocalCommands ++ commands, ∀ b ∈ name, b ≠ 0#8 := by
    rintro name hname b hb rfl
    exact absurd ((names_facts name hname).2.2 _ hb).1 (by decide)
  have hcomplete : complete text = _ := if_neg hhelp
  generalize candidates text = scmp at hscmp hmem hcomplete
  match scmp with
  | [] => exact ⟨0, line, hscmp, rfl, hline, rfl, rfl, hcomplete⟩
  | [name] =>
      obtain ⟨hp, hin⟩ := hmem name (by simp)
      obtain ⟨-, hshort, -⟩ := names_facts name hin
      have htake : name.take text.length = text := (List.prefix_iff_eq_take.mp hp).symm
      obtain ⟨line₁, hcopy, hlen₁, hname₁⟩ :=
        copyName_eq (show name.length - text.length < shellMaxLineLength by omega) hp.length_le
          (by omega) hline (htake.symm ▸ hpre)
      obtain ⟨line₂, hspace, hlen₂, hname₂⟩ := store_prefix hname₁ (by omega) 0x20#8
      obtain ⟨line₃, hzero, hlen₃, hname₃⟩ := store_prefix hname₂ (by simp; omega) 0#8
      refine ⟨name.length + 1, line₃, hscmp, ?_, by omega, ?_⟩
      · simp only [List.map_cons, List.map_nil, processCompletions, Completion.deref, hcopy,
          Option.bind_eq_bind, Option.bind_some]
        rw [if_pos (by omega), hspace, Option.bind_some]
        rw [List.length_append, List.length_singleton] at hzero
        rw [hzero]
        rfl
      · rw [if_neg (by simp)]
        refine ⟨_, hcomplete, by simp, by simp; omega, hname₃, hp.trans (List.prefix_append ..), ?_⟩
        intro b hb
        cases List.mem_append.mp hb with
        | inl hname => exact hnonzero name hin b hname
        | inr hspace =>
            obtain rfl := List.mem_singleton.mp hspace
            decide
  | name :: other :: others =>
      obtain ⟨hp, hin⟩ := hmem name (by simp)
      obtain ⟨-, hshort, -⟩ := names_facts name hin
      have hcommon : text <+: common name (other :: others) :=
        prefix_common hp fun s hs => (hmem s (List.mem_cons_of_mem _ hs)).1
      have hshorter := (common_shared name (other :: others)).1.length_le
      have htake : name.take (max 0 text.length) = text := by
        rw [Nat.zero_max]
        exact (List.prefix_iff_eq_take.mp hp).symm
      have hpos : 0 ≤ (common name (other :: others)).length := Nat.zero_le _
      obtain ⟨line₁, hext, hlen₁, hname₁⟩ :=
        extend_eq null (hnonzero name hin) (by omega) hline hcommon.length_le hpos
          (htake.symm ▸ hpre)
      obtain ⟨line₂, hzero, hlen₂, hname₂⟩ := store_prefix hname₁ (by omega) 0#8
      refine ⟨(common name (other :: others)).length, line₂, hscmp, ?_, by omega, ?_⟩
      · rw [List.drop_zero, Nat.zero_max, List.map_cons] at hext
        simp only [List.map_cons, processCompletions, Completion.deref, hext,
          Option.bind_eq_bind, Option.bind_some, hzero]
        rfl
      · rw [if_neg (by simp)]
        refine ⟨_, hcomplete, rfl, by omega, hname₂, hcommon, fun b hb => ?_⟩
        exact hnonzero name hin b ((common_shared name (other :: others)).1.subset hb)

end DsEthComm.Shell
