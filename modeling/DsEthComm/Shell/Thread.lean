import DsEthComm.Nrf24l01.Shell
import DsEthComm.Shell.Arguments

/-!
# DsEthComm.Shell.Thread

The shell, `shellThread` of `shell.c`, with the commands of this firmware.

`session` is the shell as its user sees it: it takes the input byte by byte
and has no arrays, no pointers and no loop inside of a loop.  `shellThread`
does the same on every input, whatever its arrays hold at the start and
whatever it reads beside them.  Both are undefined behind a tabulator that
overflows the array of the completions or reads the local `help_cmp` of a
function that has returned.

A line has at most `SHELL_MAX_ARGUMENTS` arguments, which are four.
`nrf_addr` wants five.
-/

namespace DsEthComm.Shell

/-! ## The thread -/

/-- What the shell does: it writes a byte, or calls the function of a
command. -/
inductive Event where
  | put (b : Byte)
  | call (name : List Byte) (argv : List (List Byte))
deriving DecidableEq

def say (text : List Byte) : List Event := text.map .put

/-- `shellUsage`. -/
def shellUsage (message : List Byte) : List Byte := ascii "Usage: " ++ message ++ newline

/-- `list_commands`. -/
def listCommands (scp : List (List Byte)) : List Byte := scp.flatMap (· ++ [0x20#8])

/-- `cmdexec`: the call, if there is such a command. -/
def cmdexec (scp : List (List Byte)) (name : List Byte) (argv : List (List Byte)) : Option Event :=
  if name ∈ scp then some (.call name argv) else none

/-- `cmd_exit` without arguments does not return. -/
def exits (name : List Byte) (argv : List (List Byte)) : Bool := name = ascii "exit" && argv = []

/-- The end of the loop of `shellThread`, for a `cmd` that is not `NULL`:
what it does, and whether that ends the thread. -/
def execute (cmd : List Byte) (args : List (List Byte)) : List Event × Bool :=
  if cmd = ascii "help" then
    if args.length > 0 then (say (shellUsage (ascii "help")), false)
    else (say (ascii "Commands: help " ++ listCommands shellLocalCommands ++
      listCommands commands ++ newline), false)
  else
    match cmdexec shellLocalCommands cmd args with
    | some call => ([call], exits cmd args)
    | none =>
        match cmdexec commands cmd args with
        | some call => ([call], false)
        | none => (say (cmd ++ ascii " ?" ++ newline), false)

/-- What a line makes the shell do. -/
def executeLine : Option (List Byte) × Option (List (List Byte)) → List Event × Bool
  | (_, none) => (say (ascii "too many arguments" ++ newline), false)
  | (none, some _) => ([], false)
  | (some cmd, some args) => execute cmd args

/-- What the shell says when the channel is reset. -/
def logout : List Event := say (newline ++ ascii "logout")

/-- The loop of `shellThread`, at most `fuel` rounds of it. -/
def shellLoop (env : Nat → Stray) :
    Nat → List Byte → History → List Byte → Option (List Event)
  | 0, _, _, _ => none
  | fuel + 1, line, hist, input => do
      let (reset, e, out, rest) ← shellGetLine env line hist input
      if reset then pure (say prompt ++ say out ++ logout)
      else do
        let (cmd, args, line) ← parseLine e.line
        let (events, exit) := executeLine (cmd.map (strAt line), args.map (·.map (strAt line)))
        if exit then pure (say prompt ++ say out ++ events)
        else do
          let events' ← shellLoop env fuel line e.hist rest
          pure (say prompt ++ say out ++ events ++ events')

/-- `SHELL_MAX_HIST_BUFF`. -/
def shellMaxHistBuff : Nat := 8 * shellMaxLineLength

/-- `shellThread`, with what the arrays hold when it starts and what lies
beside them. -/
def shellThread (env : Nat → Stray) (line : Vector Byte shellMaxLineLength)
    (histbuf : Vector Byte shellMaxHistBuff) (input : List Byte) : Option (List Event) := do
  let hist : History := ⟨histbuf.toList.set 0 0#8, 0, 0, 0⟩
  let events ← shellLoop env (input.length + 1) line.toList hist input
  pure (say (newline ++ ascii "ChibiOS/RT Shell" ++ newline) ++ events)

/-! ## What the user sees -/

/-- The next line. -/
def Typed.next (t : Typed) : Typed := ⟨[], false, false, t.history⟩

/-- The shell behind its first prompt. -/
def session (size : Nat) : Typed → List Byte → Option (List Event)
  | _, [] => some logout
  | t, c :: input =>
      match t.key size c with
      | none => none
      | some (t, out, .more) => (session size t input).map (say out ++ ·)
      | some (_, out, .returns true) => some (say out ++ logout)
      | some (t, out, .returns false) =>
          let (events, exit) := executeLine (commandLine t.text)
          if exit then some (say out ++ events)
          else (session size t.next input).map (say out ++ events ++ say prompt ++ ·)

@[simp] theorem say_append (xs ys : List Byte) : say (xs ++ ys) = say xs ++ say ys :=
  List.map_append

/-- The shell, line by line. -/
theorem session_loop (size : Nat) (t : Typed) (input : List Byte) :
    session size t input =
      match t.loop size input with
      | none => none
      | some (true, _, out, _) => some (say out ++ logout)
      | some (false, t, out, rest) =>
          let (events, exit) := executeLine (commandLine t.text)
          if exit then some (say out ++ events)
          else (session size t.next rest).map (say out ++ events ++ say prompt ++ ·) := by
  induction input generalizing t with
  | nil => rfl
  | cons c input ih =>
      rw [session, Typed.loop]
      cases hkey : t.key size c with
      | none => rfl
      | some r =>
          obtain ⟨t', out, signal⟩ := r
          cases signal with
          | returns reset => cases reset <;> rfl
          | more =>
              simp only [Option.bind_eq_bind, Option.bind_some]
              rw [ih]
              cases t'.loop size input with
              | none => rfl
              | some r =>
                  obtain ⟨reset, t'', out', rest⟩ := r
                  cases reset with
                  | true => simp
                  | false =>
                      simp only [Option.bind_some, Option.pure_def]
                      split <;> simp [Function.comp_def]

theorem loop_length {size : Nat} {t t' : Typed} {input out rest : List Byte}
    (h : t.loop size input = some (false, t', out, rest)) : rest.length < input.length := by
  induction input generalizing t out with
  | nil => simp [Typed.loop] at h
  | cons c input ih =>
      rw [Typed.loop] at h
      cases hkey : t.key size c with
      | none => simp [hkey] at h
      | some r =>
          obtain ⟨t₁, out₁, signal⟩ := r
          cases signal with
          | returns reset =>
              simp only [hkey, Option.bind_eq_bind, Option.bind_some, Option.pure_def,
                Option.some.injEq, Prod.mk.injEq] at h
              obtain ⟨-, -, -, rfl⟩ := h
              simp
          | more =>
              simp only [hkey, Option.bind_eq_bind, Option.bind_some] at h
              cases hloop : t₁.loop size input with
              | none => simp [hloop] at h
              | some r =>
                  obtain ⟨reset, t₂, out₂, rest₂⟩ := r
                  simp only [hloop, Option.bind_some, Option.pure_def, Option.some.injEq,
                    Prod.mk.injEq] at h
                  obtain ⟨rfl, rfl, -, rfl⟩ := h
                  have hlt := ih hloop
                  simp
                  omega

/-! ## The thread does what the user sees -/

/-- Where a line begins. -/
theorem Shows.start {size : Nat} {line : List Byte} {hist : History} {x : Lines}
    (hline : line.length = shellMaxLineLength) (hsize : hist.shSize = size) (hrep : Rep hist x)
    (hchars : ∀ l ∈ x.lines, Chars l) :
    Shows size ⟨line, 0, false, false, hist⟩ ⟨[], false, false, x⟩ :=
  ⟨hline, List.nil_prefix, rfl, by simp [shellMaxLineLength], nofun, rfl, rfl, hsize, hrep, hchars⟩

/-- **The loop.**  It ends, and does what the user sees. -/
theorem shellLoop_session (env : Nat → Stray) {size : Nat} (hsize : 2 ≤ size) (fuel : Nat)
    {line : List Byte} {hist : History} {x : Lines} {input : List Byte}
    (h : Shows size ⟨line, 0, false, false, hist⟩ ⟨[], false, false, x⟩)
    (hfuel : input.length < fuel) :
    shellLoop env fuel line hist input =
      (session size ⟨[], false, false, x⟩ input).map (say prompt ++ ·) := by
  induction fuel generalizing line hist x input with
  | zero => omega
  | succ fuel ih =>
      rw [shellLoop, shellGetLine, session_loop]
      rcases getLineLoop_sim env hsize input h with
        ⟨ht, he⟩ | ⟨reset, t, e, out, rest, ht, he, hs, hline⟩
      · rw [ht, he]
        rfl
      · rw [ht, he]
        simp only [Option.bind_eq_bind, Option.bind_some]
        cases reset with
        | true => simp
        | false =>
            have hat : At e.line 0 t.text := hline rfl
            obtain ⟨cmd, args, line', hparse, hlen, hcommand⟩ := parseLine_commandLine hat hs.chars
            have hnext : Shows size ⟨line', 0, false, false, e.hist⟩ t.next :=
              .start (hlen.trans hs.cells) hs.size hs.rep hs.history
            have hrest := loop_length ht
            have hloop : shellLoop env fuel line' e.hist rest =
                (session size t.next rest).map (say prompt ++ ·) := ih hnext (by omega)
            simp only [Bool.false_eq_true, if_false, hparse, Option.bind_some, hcommand]
            split
            · simp
            · rw [hloop]
              cases session size t.next rest with
              | none => rfl
              | some events => simp

/-- The thread shows what its user sees. -/
theorem shellThread_eq (env : Nat → Stray) (line : Vector Byte shellMaxLineLength)
    (histbuf : Vector Byte shellMaxHistBuff) (input : List Byte) :
    shellThread env line histbuf input =
      (session shellMaxHistBuff ⟨[], false, false, ⟨[], 0⟩⟩ input).map
        (say (newline ++ ascii "ChibiOS/RT Shell" ++ newline ++ prompt) ++ ·) := by
  have hpos : 0 < histbuf.toList.length := by
    rw [Vector.length_toList]
    decide
  have hstart : Shows shellMaxHistBuff
      ⟨line.toList, 0, false, false, ⟨histbuf.toList.set 0 0#8, 0, 0, 0⟩⟩
      ⟨[], false, false, ⟨[], 0⟩⟩ :=
    .start (Vector.length_toList) (by simp [History.shSize]) (rep_empty _ hpos) nofun
  rw [shellThread, shellLoop_session env (by decide) _ hstart (Nat.lt_succ_self _)]
  cases session shellMaxHistBuff ⟨[], false, false, ⟨[], 0⟩⟩ input with
  | none => rfl
  | some events => simp

/-! ## Where the shell is undefined -/

/-- What the user sees behind a part of the input, if the shell still reads. -/
def Typed.after (size : Nat) : Typed → List Byte → Option Typed
  | t, [] => some t
  | t, c :: input =>
      match t.key size c with
      | some (t, _, .more) => t.after size input
      | some (t, _, .returns false) =>
          if (executeLine (commandLine t.text)).2 then none else t.next.after size input
      | _ => none

theorem recall_ne_none (t : Typed) (dir : Direction) : t.recall dir ≠ none := by
  unfold Typed.recall
  split <;> simp

theorem tab_eq_none_iff (t : Typed) : t.tab = none ↔ t.text <+: ascii "help" := by
  have hcomplete : t.complete = none ↔ t.text <+: ascii "help" := by
    rw [Typed.complete, Option.map_eq_none_iff, complete]
    split
    case isTrue hhelp => simp [hhelp]
    case isFalse hhelp => split <;> simp [hhelp]
  unfold Typed.tab
  split
  case isTrue => exact hcomplete
  case isFalse hfull =>
    simp only [reduceCtorEq, false_iff]
    intro hhelp
    have hshort : t.text.length ≤ 4 := by simpa [ascii] using hhelp.length_le
    unfold shellMaxLineLength at hfull
    omega

theorem key_eq_none {size : Nat} {t : Typed} {c : Byte} (h : t.key size c = none) :
    c = 0x09#8 := by
  have hescape : t.escapeKey c ≠ none := by
    unfold Typed.escapeKey
    have hup := fun t => recall_ne_none t .bk
    have hdown := fun t => recall_ne_none t .fw
    grind
  have hother : t.erase ≠ none ∧ t.enter size ≠ none ∧ t.type c ≠ none := by
    refine ⟨?_, by simp [Typed.enter], ?_⟩
    · unfold Typed.erase
      split <;> simp
    · unfold Typed.type
      split <;> simp
  have hrecall := recall_ne_none t
  by_contra hne
  unfold Typed.key at h
  grind

/-- A tabulator behind a beginning of `help`, outside of an escape sequence. -/
theorem key_eq_none_iff (size : Nat) (t : Typed) (c : Byte) :
    t.key size c = none ↔ c = 0x09#8 ∧ t.text <+: ascii "help" ∧ t.escape = false := by
  constructor
  · intro h
    obtain rfl := key_eq_none h
    cases hescape : t.escape with
    | true =>
        cases hbracket : t.bracket <;> simp [Typed.key, Typed.escapeKey, hescape, hbracket] at h
    | false =>
        refine ⟨rfl, (tab_eq_none_iff t).mp ?_, rfl⟩
        simpa [Typed.key, hescape] using h
  · rintro ⟨rfl, hhelp, hescape⟩
    simpa [Typed.key, hescape] using (tab_eq_none_iff t).mpr hhelp

/-- The user sees nothing exactly behind such a tabulator. -/
theorem session_eq_none_iff (size : Nat) (t : Typed) (input : List Byte) :
    session size t input = none ↔
      ∃ typed rest t', input = typed ++ 0x09#8 :: rest ∧ t.after size typed = some t' ∧
        t'.text <+: ascii "help" ∧ t'.escape = false := by
  induction input generalizing t with
  | nil => simp [session]
  | cons c input ih =>
      -- the key is the tabulator, or it is read and the tabulator comes later
      have hlater : (∃ typed rest t', c :: input = typed ++ 0x09#8 :: rest ∧
            t.after size typed = some t' ∧ t'.text <+: ascii "help" ∧ t'.escape = false) ↔
          (c = 0x09#8 ∧ t.text <+: ascii "help" ∧ t.escape = false) ∨
            ∃ typed rest t', input = typed ++ 0x09#8 :: rest ∧
              t.after size (c :: typed) = some t' ∧ t'.text <+: ascii "help" ∧ t'.escape = false := by
        constructor
        · rintro ⟨typed, rest, t', hinput, hafter, hstuck⟩
          cases typed with
          | nil =>
              obtain ⟨rfl, rfl⟩ := List.cons.inj hinput
              obtain rfl := Option.some.inj hafter
              exact Or.inl ⟨rfl, hstuck⟩
          | cons d typed =>
              obtain ⟨rfl, rfl⟩ := List.cons.inj hinput
              exact Or.inr ⟨typed, rest, t', rfl, hafter, hstuck⟩
        · rintro (⟨rfl, hstuck⟩ | ⟨typed, rest, t', rfl, hafter, hstuck⟩)
          · exact ⟨[], input, t, rfl, rfl, hstuck⟩
          · exact ⟨c :: typed, rest, t', rfl, hafter, hstuck⟩
      rw [hlater, ← key_eq_none_iff size, session]
      cases hkey : t.key size c with
      | none => simp
      | some r =>
          obtain ⟨t', out, signal⟩ := r
          cases signal with
          | more => simp [ih, Typed.after, hkey]
          | returns reset =>
              cases reset with
              | true => simp [Typed.after, hkey]
              | false =>
                  cases hexit : (executeLine (commandLine t'.text)).2 with
                  | true => simp [Typed.after, hkey, hexit]
                  | false => simp [ih, Typed.after, hkey, hexit]

/-! ## The calls -/

theorem not_mem_say (text name : List Byte) (argv : List (List Byte)) :
    Event.call name argv ∉ say text := by
  simp [say]

/-- A command is called with the words of its line. -/
theorem call_of_execute {cmd name : List Byte} {args argv : List (List Byte)}
    (h : Event.call name argv ∈ (execute cmd args).1) : name = cmd ∧ argv = args := by
  unfold execute at h
  by_cases hhelp : cmd = ascii "help"
  · rw [if_pos hhelp] at h
    split at h
    · exact (not_mem_say _ _ _ h).elim
    · exact (not_mem_say _ _ _ h).elim
  · rw [if_neg hhelp] at h
    by_cases hlocal : cmd ∈ shellLocalCommands
    · simpa [cmdexec, hlocal] using h
    · by_cases hcommand : cmd ∈ commands
      · simpa [cmdexec, hlocal, hcommand] using h
      · simp only [cmdexec, if_neg hlocal, if_neg hcommand] at h
        exact (not_mem_say _ _ _ h).elim

theorem length_of_executeLine {text name : List Byte} {argv : List (List Byte)}
    (h : Event.call name argv ∈ (executeLine (commandLine text)).1) :
    argv.length ≤ shellMaxArguments := by
  have hlen : ∀ args, (commandLine text).2 = some args → args.length ≤ shellMaxArguments :=
    fun args => length_arguments
  generalize commandLine text = line at h hlen
  obtain ⟨cmd, args⟩ := line
  cases args with
  | none => exact (not_mem_say _ _ _ h).elim
  | some args =>
      cases cmd with
      | none => exact absurd h List.not_mem_nil
      | some cmd =>
          obtain ⟨-, rfl⟩ := call_of_execute h
          exact hlen argv rfl

/-- No command is called with more than four arguments. -/
theorem length_of_session {size : Nat} {t : Typed} {input name : List Byte}
    {argv : List (List Byte)} {events : List Event} (h : session size t input = some events)
    (hcall : Event.call name argv ∈ events) : argv.length ≤ shellMaxArguments := by
  induction input generalizing t events with
  | nil =>
      obtain rfl := Option.some.inj h
      exact (not_mem_say _ _ _ hcall).elim
  | cons c input ih =>
      rw [session] at h
      split at h
      · contradiction
      · obtain ⟨events', hrest, rfl⟩ := Option.map_eq_some_iff.mp h
        cases List.mem_append.mp hcall with
        | inl hsay => exact (not_mem_say _ _ _ hsay).elim
        | inr hin => exact ih hrest hin
      · obtain rfl := Option.some.inj h
        cases List.mem_append.mp hcall with
        | inl hsay => exact (not_mem_say _ _ _ hsay).elim
        | inr hsay => exact (not_mem_say _ _ _ hsay).elim
      · simp only at h
        split at h
        · obtain rfl := Option.some.inj h
          cases List.mem_append.mp hcall with
          | inl hsay => exact (not_mem_say _ _ _ hsay).elim
          | inr hin => exact length_of_executeLine hin
        · obtain ⟨events', hrest, rfl⟩ := Option.map_eq_some_iff.mp h
          simp only [List.mem_append] at hcall
          obtain ((hsay | hin) | hsay) | hin := hcall
          · exact (not_mem_say _ _ _ hsay).elim
          · exact length_of_executeLine hin
          · exact (not_mem_say _ _ _ hsay).elim
          · exact ih hrest hin

theorem length_of_shellThread {env : Nat → Stray} {line : Vector Byte shellMaxLineLength}
    {histbuf : Vector Byte shellMaxHistBuff} {input name : List Byte} {argv : List (List Byte)}
    {events : List Event} (h : shellThread env line histbuf input = some events)
    (hcall : Event.call name argv ∈ events) : argv.length ≤ shellMaxArguments := by
  rw [shellThread_eq] at h
  obtain ⟨events', hsession, rfl⟩ := Option.map_eq_some_iff.mp h
  cases List.mem_append.mp hcall with
  | inl hsay => exact (not_mem_say _ _ _ hsay).elim
  | inr hin => exact length_of_session hsession hin

/-- **The shell.**  Whatever its arrays hold at the start and whatever lies
beside them, the thread does on every input what its user sees, is undefined
exactly at a tabulator behind a beginning of `help`, and calls no command with
more arguments than it counts. -/
theorem shellThread_refines (env : Nat → Stray) (line : Vector Byte shellMaxLineLength)
    (histbuf : Vector Byte shellMaxHistBuff) (input : List Byte) :
    shellThread env line histbuf input =
        (session shellMaxHistBuff ⟨[], false, false, ⟨[], 0⟩⟩ input).map
          (say (newline ++ ascii "ChibiOS/RT Shell" ++ newline ++ prompt) ++ ·) ∧
      (shellThread env line histbuf input = none ↔
        ∃ typed rest t, input = typed ++ 0x09#8 :: rest ∧
          Typed.after shellMaxHistBuff ⟨[], false, false, ⟨[], 0⟩⟩ typed = some t ∧
            t.text <+: ascii "help" ∧ t.escape = false) ∧
      ∀ events, shellThread env line histbuf input = some events →
        ∀ name argv, Event.call name argv ∈ events → argv.length ≤ shellMaxArguments := by
  have heq := shellThread_eq env line histbuf input
  refine ⟨heq, ?_, fun events h name argv hcall => length_of_shellThread h hcall⟩
  rw [heq, Option.map_eq_none_iff, session_eq_none_iff]

/-! ## The radio -/

section Radio

open Nrf24l01 Conc

theorem argument_nonzero (s : List Byte) : ∀ b ∈ s.takeWhile (· ≠ 0#8), b ≠ 0#8 :=
  fun _ hb => by simpa using List.mem_takeWhile_imp hb

/-- The string that an entry of `argv` points to. -/
def argument (s : List Byte) : CStr := ⟨s.takeWhile (· ≠ 0#8), argument_nonzero s⟩

/-- What the commands do to the radio. -/
def Event.perform : Event → Driver (List Nrf24l01.Shell.Print)
  | .put _ => pure []
  | .call name argv =>
      if name = ascii "nrf_channel" then Nrf24l01.Shell.cmdNrfChannel (argv.map argument)
      else if name = ascii "nrf_channel_get" then
        Nrf24l01.Shell.cmdNrfChannelGet (argv.map argument)
      else if name = ascii "nrf_addr" then Nrf24l01.Shell.cmdNrfAddr (argv.map argument)
      else if name = ascii "nrf_addr_get" then Nrf24l01.Shell.cmdNrfAddrGet (argv.map argument)
      else pure []

def performAll : List Event → Driver Unit
  | [] => pure ()
  | event :: events => do
      let _ ← event.perform
      performAll events

theorem keepsAddress_bind {α β : Type} {p : Driver α} {f : α → Driver β} (hp : KeepsAddress p)
    (hf : ∀ a, KeepsAddress (f a)) : KeepsAddress (p.bind f) := by
  rw [KeepsAddress, Prog.wp_bind]
  exact Prog.wp_mono (fun a _ _ => hf a) hp

theorem keepsAddress_cmdNrfChannel (argv : List CStr) :
    KeepsAddress (Nrf24l01.Shell.cmdNrfChannel argv) := by
  cases argv with
  | nil => exact trivial
  | cons arg argv =>
      cases argv with
      | cons _ _ => exact trivial
      | nil =>
          simp [KeepsAddress, Nrf24l01.Shell.cmdNrfChannel, Nrf24l01.Shell.applyChannel,
            basicSetFrequency, setChannelFrequency, bounded, readModifyWrite, checked, failWith,
            addressMonitor, Op.keepsAddress, commandWRegister, regRfCh, regTxAddr, regRxAddrP0,
            regSetupAw]

theorem keepsAddress_cmdNrfChannelGet (argv : List CStr) :
    KeepsAddress (Nrf24l01.Shell.cmdNrfChannelGet argv) := by
  cases argv with
  | cons _ _ => exact trivial
  | nil =>
      simp [KeepsAddress, Nrf24l01.Shell.cmdNrfChannelGet, Nrf24l01.Shell.basicGetFrequency,
        Nrf24l01.Shell.getChannelFrequency, addressMonitor, Op.keepsAddress]

theorem keepsAddress_cmdNrfAddrGet (argv : List CStr) :
    KeepsAddress (Nrf24l01.Shell.cmdNrfAddrGet argv) := by
  cases argv with
  | cons _ _ => exact trivial
  | nil =>
      have hget : KeepsAddress Nrf24l01.Shell.basicGetTxAddress :=
        ⟨rfl, fun _ _ => ⟨rfl, fun _ _ => trivial⟩⟩
      apply keepsAddress_bind hget
      intro res
      cases res with
      | error _ => exact trivial
      | ok r =>
          simp only
          split
          · exact trivial
          · exact trivial

/-- Four arguments are not enough for an address. -/
theorem keepsAddress_cmdNrfAddr {argv : List CStr} (h : argv.length ≤ shellMaxArguments) :
    KeepsAddress (Nrf24l01.Shell.cmdNrfAddr argv) := by
  have hlen : argv.length ≠ 5 := by
    unfold shellMaxArguments at h
    omega
  rw [Nrf24l01.Shell.cmdNrfAddr, if_pos hlen]
  exact trivial

theorem Event.keepsAddress_perform {event : Event}
    (h : ∀ name argv, event = .call name argv → argv.length ≤ shellMaxArguments) :
    KeepsAddress event.perform := by
  cases event with
  | put b => exact trivial
  | call name argv =>
      have hlen := h name argv rfl
      simp only [Event.perform]
      split
      · exact keepsAddress_cmdNrfChannel _
      split
      · exact keepsAddress_cmdNrfChannelGet _
      split
      · exact keepsAddress_cmdNrfAddr (by simpa using hlen)
      split
      · exact keepsAddress_cmdNrfAddrGet _
      · exact trivial

theorem keepsAddress_performAll {events : List Event}
    (h : ∀ name argv, Event.call name argv ∈ events → argv.length ≤ shellMaxArguments) :
    KeepsAddress (performAll events) := by
  induction events with
  | nil => exact trivial
  | cons event events ih =>
      apply keepsAddress_bind
      · apply Event.keepsAddress_perform
        rintro name argv rfl
        exact h name argv (by simp)
      · intro _
        exact ih fun name argv hmem => h name argv (List.mem_cons_of_mem event hmem)

theorem keepsAddress_evalAt {α : Type} {p : Driver α} (hp : KeepsAddress p) (env : Schedule)
    (s : Radio) (i : Nat) : SameAddress s (Radio.evalAt env p s i).1.1 := by
  have hstep : ∀ (x : Radio × Nat) (_ : Unit) (o : Op), SameAddress s x.1 →
      Op.keepsAddress o = true → True ∧ SameAddress s (Radio.performAt env x o).1.1 := by
    intro x _ o hs ho
    refine ⟨trivial, hs.trans ?_⟩
    cases o with
    | spiRead reg len => exact .perform x.1 (env.answer x.2) ho
    | spiWrite reg buf => exact .perform x.1 (env.answer x.2) ho
    | delayMs _ => exact ⟨rfl, rfl, rfl, rfl, rfl, rfl⟩
    | _ => exact .perform x.1 .ok ho
  obtain ⟨-, -, h⟩ := Prog.eval_of_wp (s := (s, i)) hstep hp (.refl s)
  exact h

/-- **The address cannot be typed.**  No input on which the shell is defined
makes it change the addresses of the radio: `nrf_addr` wants five arguments
and gets four at most. -/
theorem shellThread_sameAddress (env : Nat → Stray) (line : Vector Byte shellMaxLineLength)
    (histbuf : Vector Byte shellMaxHistBuff) {input : List Byte} {events : List Event}
    (h : shellThread env line histbuf input = some events) (answers : Schedule) (s : Radio)
    (i : Nat) : SameAddress s (Radio.evalAt answers (performAll events) s i).1.1 := by
  apply keepsAddress_evalAt
  apply keepsAddress_performAll
  exact fun name argv hcall => length_of_shellThread h hcall

/-- Five bytes that are typed are not set. -/
theorem shellThread_sameAddress_five :
    ∃ events, shellThread (fun _ => ⟨0x20#8, fun _ => 0#8⟩) (Vector.replicate _ 0#8)
        (Vector.replicate _ 0#8) (ascii "nrf_addr 1 2 3 4 5\r") = some events ∧
      SameAddress sampleRadio
        (Radio.evalAt (.failingAt []) (performAll events) sampleRadio 0).1.1 := by
  cases h : shellThread (fun _ => ⟨0x20#8, fun _ => 0#8⟩) (Vector.replicate _ 0#8)
      (Vector.replicate _ 0#8) (ascii "nrf_addr 1 2 3 4 5\r") with
  | some events => exact ⟨events, rfl, shellThread_sameAddress _ _ _ h _ _ _⟩
  | none =>
      rw [shellThread_eq, Option.map_eq_none_iff, session_eq_none_iff] at h
      obtain ⟨typed, rest, -, hinput, -⟩ := h
      have htab : 0x09#8 ∈ ascii "nrf_addr 1 2 3 4 5\r" := by simp [hinput]
      simp [ascii] at htab

end Radio

end DsEthComm.Shell
