import DsEthComm.Shell.Thread
import DsEthComm.Udp.Network

/-!
# DsEthComm.Shell.Console

The shell from the keyboard to the screen: what is typed, what it calls, and
what the network commands then do and print.
-/

namespace DsEthComm.Shell

/-! ## Typing -/

/-- A byte that the editor takes as text. -/
def Printable (b : Byte) : Prop := 0x20#8 ≤ b ∧ b ≠ 0x7F#8

instance (b : Byte) : Decidable (Printable b) := inferInstanceAs (Decidable (_ ∧ _))

section Typing

variable {size : Nat} {t : Typed}

/-- A character that can be printed is echoed and goes behind the line. -/
theorem key_printable (hescape : t.escape = false) {c : Byte} (hc : Printable c)
    (hroom : t.text.length < shellMaxLineLength - 1) :
    t.key size c = some ({ t with text := t.text ++ [c] }, [c], .more) := by
  have hcontrol : ∀ c : Byte, Printable c → c ≠ 27#8 ∧ c ≠ 4#8 ∧ ¬(c = 8#8 ∨ c = 127#8) ∧
      c ≠ 0x0D#8 ∧ c ≠ 0x09#8 ∧ c ≠ 14#8 ∧ c ≠ 16#8 ∧ ¬c < 0x20#8 := by
    decide
  obtain ⟨h1, h2, h3, h4, h5, h6, h7, h8⟩ := hcontrol c hc
  have hclosed : ¬t.escape = true := by simp [hescape]
  rw [Typed.key, if_neg h1, if_neg hclosed, if_neg h2, if_neg h3, if_neg h4, if_neg h5, if_neg h6,
    if_neg h7, if_neg h8, Typed.type, if_pos hroom]

/-- Text is shown as it is typed. -/
theorem session_text (hescape : t.escape = false) {text : List Byte}
    (htext : ∀ c ∈ text, Printable c) (rest : List Byte)
    (hroom : t.text.length + text.length < shellMaxLineLength) :
    session size t (text ++ rest) =
      (session size { t with text := t.text ++ text } rest).map (say text ++ ·) := by
  induction text generalizing t with
  | nil =>
      have hsay : (say [] ++ · : List Event → List Event) = id := rfl
      simp [hsay]
  | cons c text ih =>
      rw [List.length_cons] at hroom
      have hkey : t.key size c = some ({ t with text := t.text ++ [c] }, [c], .more) :=
        key_printable hescape (htext c (List.mem_cons_self ..)) (by omega)
      have hrest := ih (t := { t with text := t.text ++ [c] }) hescape
        (fun x hx => htext x (List.mem_cons_of_mem c hx)) (by simp; omega)
      rw [List.cons_append, session, hkey]
      simp only [hrest, Option.map_map, List.append_assoc, List.singleton_append]
      rfl

/-- A line is executed. -/
theorem session_line (htext : t.text = []) (hescape : t.escape = false) {text : List Byte}
    (hprintable : ∀ c ∈ text, Printable c) (rest : List Byte)
    (hroom : text.length < shellMaxLineLength) :
    session size t (text ++ 0x0D#8 :: rest) =
      let (events, exit) := executeLine (commandLine text)
      if exit then some (say text ++ (say newline ++ events))
      else (session size ⟨[], false, false, t.history.save size text⟩ rest).map
        (say text ++ say newline ++ events ++ say prompt ++ ·) := by
  have hcr : ∀ t : Typed, t.escape = false → t.key size 0x0D#8 =
      some ({ t with history := t.history.save size t.text }, newline, .returns false) := by
    intro t hescape
    unfold Typed.key
    simp [hescape, Typed.enter]
  rw [session_text hescape hprintable _ (by simpa [htext] using hroom), session,
    hcr { t with text := t.text ++ text } hescape]
  simp only [htext, List.nil_append]
  split
  · rfl
  · simp only [Typed.next, Option.map_map]
    congr 1
    funext events
    simp

end Typing

/-! ## Words -/

/-- A word that needs no quotes. -/
structure Bare (w : List Byte) : Prop where
  ne_nil : w ≠ []
  no_blank : ∀ b ∈ w, blank b = false
  no_quote : ∀ b ∈ w, quote b = false

/-- A word without quotes ends at the next blank. -/
theorem word_bare {w : List Byte} (hw : Bare w) :
    word w = (w, none) ∧ ∀ rest, word (w ++ 0x20#8 :: rest) = (w, some rest) := by
  have hblank : blank 0x20#8 = true := by decide
  have hall : ∀ b ∈ w, (!blank b) = true := fun b hb => by simp [hw.no_blank b hb]
  obtain ⟨b, s, rfl⟩ := List.exists_cons_of_ne_nil hw.ne_nil
  have hb := hw.no_blank b (List.mem_cons_self ..)
  have hq := hw.no_quote b (List.mem_cons_self ..)
  have hskip : ∀ rest, (b :: s ++ rest).dropWhile blank = b :: s ++ rest := by
    intro rest
    simp [hb]
  constructor
  · have hself := hskip []
    rw [List.append_nil] at hself
    rw [word, hself]
    simp only [hq, Bool.false_eq_true, if_false, cut]
    rw [List.takeWhile_eq_self_iff.mpr hall, List.dropWhile_eq_nil_iff.mpr hall]
    rfl
  · intro rest
    rw [word, hskip]
    simp only [List.cons_append, hq, Bool.false_eq_true, if_false, cut]
    rw [← List.cons_append, List.takeWhile_append_of_pos hall, List.dropWhile_append_of_pos hall]
    simp [hblank]

/-- Words without quotes are the arguments, if there is room for them. -/
theorem arguments_intercalate (room : Nat) {ws : List (List Byte)} (hws : ∀ w ∈ ws, Bare w) :
    arguments room (some ([0x20#8].intercalate ws)) =
      if ws.length ≤ room then some ws else none := by
  induction ws generalizing room with
  | nil => cases room <;> simp [arguments, word]
  | cons w ws ih =>
      have hw := hws w (List.mem_cons_self ..)
      have hrest := fun room => ih room fun x hx => hws x (List.mem_cons_of_mem w hx)
      cases ws with
      | nil => cases room <;> simp [arguments, (word_bare hw).1, hw.ne_nil]
      | cons w' ws =>
          have hjoin : [0x20#8].intercalate (w :: w' :: ws) =
              w ++ 0x20#8 :: [0x20#8].intercalate (w' :: ws) := by
            simp [List.intercalate]
          rw [hjoin]
          cases room with
          | zero => simp [arguments, (word_bare hw).2, hw.ne_nil]
          | succ room =>
              simp only [arguments, (word_bare hw).2, hw.ne_nil, if_false, hrest]
              simp

/-- Words with blanks between them. -/
theorem commandLine_intercalate {cmd : List Byte} {args : List (List Byte)}
    (hws : ∀ w ∈ cmd :: args, Bare w) :
    commandLine ([0x20#8].intercalate (cmd :: args)) =
      (some cmd, if args.length ≤ shellMaxArguments then some args else none) := by
  have hcmd := hws cmd (List.mem_cons_self ..)
  have hargs := arguments_intercalate shellMaxArguments fun w hw => hws w (List.mem_cons_of_mem cmd hw)
  cases args with
  | nil => simp [commandLine, (word_bare hcmd).1, hcmd.ne_nil, arguments]
  | cons w ws =>
      have hjoin : [0x20#8].intercalate (cmd :: w :: ws) =
          cmd ++ 0x20#8 :: [0x20#8].intercalate (w :: ws) := by
        simp [List.intercalate]
      rw [hjoin, commandLine, (word_bare hcmd).2]
      simp only [hcmd.ne_nil, if_false, hargs]

/-! ## The network commands -/

section Network

open Chprintf Udp.Inet Udp.Network

variable (dhcpStart dhcpStop : Netif → Netif)
  (ftoa : Bool → Int → List Arg → Except Fault (List Byte × List Arg))

/-- The addresses that a call of `net_config` sets. -/
def Event.config : Event → Option (U32 × U32 × U32)
  | .put _ => none
  | .call name argv => if name = ascii "net_config" then configOf (argv.map argument) else none

/-- A character, or a call of one of the network commands. -/
def Event.OfNetwork : Event → Prop
  | .put _ => True
  | .call name _ => name = ascii "net_config" ∨ name = ascii "net_info"

/-- What the shell writes to its channel, and what its network commands do:
the state, what is written, and whether the command waits for ever.  The other
commands are left out. -/
def Event.network (posted : Bool) (s : Lwip) : Event → Except Fault (Lwip × List Byte × Bool)
  | .put b => .ok (s, [b], false)
  | .call name argv =>
      if name = ascii "net_config" then
        cmdNetConfig dhcpStart dhcpStop ftoa posted s (argv.map argument)
      else if name = ascii "net_info" then do
        let out ← cmdNetInfo ftoa (some s.thisif) (argv.map argument)
        .ok (s, out, false)
      else .ok (s, [], false)

/-- What lwIP does with the messages that are still to come. -/
def Event.pass (posted : Nat → Bool) (event : Event) : Nat → Bool :=
  if event.config.isSome then fun n => posted (n + 1) else posted

/-- One event after another, up to a command that waits for ever.  `posted`
says of each message to lwIP whether it goes out. -/
def networkAll (posted : Nat → Bool) (s : Lwip) :
    List Event → Except Fault (Lwip × List Byte × Bool)
  | [] => .ok (s, [], false)
  | event :: events => do
      let (s, out, waits) ← event.network dhcpStart dhcpStop ftoa (posted 0) s
      if waits then .ok (s, out, true)
      else
        let (s, out', waits) ← networkAll (event.pass posted) s events
        .ok (s, out ++ out', waits)

/-- The changes that are made, up to the first message that does not go out. -/
def made (posted : Nat → Bool) : List (U32 × U32 × U32) → List (U32 × U32 × U32)
  | [] => []
  | config :: configs =>
      if posted 0 then config :: made (fun n => posted (n + 1)) configs else []

variable {dhcpStart dhcpStop ftoa}

/-- Characters are written, whatever comes after them. -/
theorem networkAll_say (posted : Nat → Bool) (s : Lwip) (text : List Byte) (events : List Event) :
    networkAll dhcpStart dhcpStop ftoa posted s (say text ++ events) =
      (networkAll dhcpStart dhcpStop ftoa posted s events).map fun x =>
        (x.1, text ++ x.2.1, x.2.2) := by
  induction text with
  | nil =>
      show networkAll dhcpStart dhcpStop ftoa posted s events = _
      cases networkAll dhcpStart dhcpStop ftoa posted s events <;> rfl
  | cons b text ih =>
      show networkAll dhcpStart dhcpStop ftoa posted s (.put b :: (say text ++ events)) = _
      have hpass : (Event.put b).pass posted = posted := rfl
      rw [networkAll, Event.network, ok_bind, hpass]
      simp only [Bool.false_eq_true, if_false, ih]
      cases networkAll dhcpStart dhcpStop ftoa posted s events <;> rfl

/-- A call that returns. -/
theorem networkAll_call {posted : Nat → Bool} {s s' : Lwip} {event : Event} {out : List Byte}
    (h : event.network dhcpStart dhcpStop ftoa (posted 0) s = .ok (s', out, false))
    (events : List Event) :
    networkAll dhcpStart dhcpStop ftoa posted s (event :: events) =
      (networkAll dhcpStart dhcpStop ftoa (event.pass posted) s' events).map fun x =>
        (x.1, out ++ x.2.1, x.2.2) := by
  rw [networkAll, h, ok_bind]
  simp only [Bool.false_eq_true, if_false]
  cases networkAll dhcpStart dhcpStop ftoa (event.pass posted) s' events <;> rfl

theorem argument_dotted (addr : U32) : argument (dotted addr) = dottedStr addr := by
  have htake : (dotted addr).takeWhile (· ≠ 0#8) = dotted addr := by
    rw [List.takeWhile_eq_self_iff]
    exact fun b hb => decide_eq_true (dotted_nonzero addr b hb)
  simp only [argument, dottedStr, htake]

/-- One event in static mode. -/
theorem network_static {s : Lwip} (h : s.addressMode = .static) (posted : Bool) {event : Event}
    (hnet : event.OfNetwork) :
    ∃ out, event.network dhcpStart dhcpStop ftoa posted s =
      .ok ((if posted then event.config else none).elim s s.configure, out,
        !posted && event.config.isSome) := by
  cases event with
  | put b => exact ⟨[b], by cases posted <;> rfl⟩
  | call name argv =>
      by_cases hconfig : name = ascii "net_config"
      · obtain ⟨out, hout⟩ := cmdNetConfig_eq h posted (argv.map argument)
        refine ⟨out, ?_⟩
        simp only [Event.network, Event.config, if_pos hconfig]
        exact hout
      · have hinfo : name = ascii "net_info" := hnet.resolve_left hconfig
        obtain ⟨out, hout⟩ : ∃ out,
            cmdNetInfo ftoa (some s.thisif) (argv.map argument) = .ok out := by
          cases argv.map argument with
          | nil => exact ⟨_, cmdNetInfo_eq s.thisif⟩
          | cons _ _ => exact ⟨_, rfl⟩
        refine ⟨out, ?_⟩
        simp only [Event.network, Event.config, if_neg hconfig, if_pos hinfo, hout, ok_bind]
        cases posted <;> rfl

theorem getLast?_cons_elim {netif : Netif} (config : U32 × U32 × U32)
    (configs : List (U32 × U32 × U32)) :
    (config :: configs).getLast?.elim netif netif.configure =
      configs.getLast?.elim (netif.configure config) (netif.configure config).configure := by
  rw [List.getLast?_cons]
  cases configs.getLast? <;> rfl

/-- **The network follows the shell.**  Whatever network commands are called,
in static mode the interface has the addresses of the last change that was
made, and everything else as before.  A message that does not go out changes
nothing, and it is the last thing that happens. -/
theorem networkAll_lastConfig {s : Lwip} (h : s.addressMode = .static) (posted : Nat → Bool)
    (events : List Event) (hnet : ∀ event ∈ events, event.OfNetwork) :
    ∃ s' out, networkAll dhcpStart dhcpStop ftoa posted s events =
        .ok (s', out, decide (made posted (events.filterMap Event.config) ≠
          events.filterMap Event.config)) ∧
      s'.addressMode = .static ∧
      s'.thisif = (made posted (events.filterMap Event.config)).getLast?.elim s.thisif
        s.thisif.configure := by
  induction events generalizing s posted with
  | nil => exact ⟨s, [], rfl, h, rfl⟩
  | cons event events ih =>
      have hrest : ∀ e ∈ events, e.OfNetwork := fun e he => hnet e (List.mem_cons_of_mem _ he)
      obtain ⟨out, hout⟩ := @network_static dhcpStart dhcpStop ftoa s h (posted 0) event
        (hnet event (List.mem_cons_self ..))
      cases hconfig : event.config with
      | none =>
          -- nothing is posted
          have hstep : event.network dhcpStart dhcpStop ftoa (posted 0) s = .ok (s, out, false) := by
            rw [hout, hconfig]
            cases posted 0 <;> rfl
          have hpass : event.pass posted = posted := by simp [Event.pass, hconfig]
          obtain ⟨s', out', hall, hstatic, hif⟩ := ih h posted hrest
          rw [networkAll_call hstep, hpass, hall, List.filterMap_cons_none hconfig]
          exact ⟨s', out ++ out', rfl, hstatic, hif⟩
      | some config =>
          rw [List.filterMap_cons_some hconfig]
          cases hposted : posted 0 with
          | false =>
              rw [hposted, hconfig] at hout
              have hmade : made posted (config :: events.filterMap Event.config) = [] := by
                simp [made, hposted]
              rw [hmade, networkAll, hposted, hout, ok_bind]
              exact ⟨s, out, by simp, h, rfl⟩
          | true =>
              have hstep : event.network dhcpStart dhcpStop ftoa (posted 0) s =
                  .ok (s.configure config, out, false) := by
                rw [hout, hconfig, hposted]
                rfl
              have hpass : event.pass posted = fun n => posted (n + 1) := by
                simp [Event.pass, hconfig]
              have hmade : made posted (config :: events.filterMap Event.config) =
                  config :: made (fun n => posted (n + 1)) (events.filterMap Event.config) := by
                simp [made, hposted]
              obtain ⟨s', out', hall, hstatic, hif⟩ :=
                ih (s := s.configure config) rfl (fun n => posted (n + 1)) hrest
              rw [networkAll_call hstep, hpass, hall, hmade, getLast?_cons_elim]
              exact ⟨s', out ++ out', by simp [Except.map], hstatic, hif⟩

/-- An interface without addresses. -/
def sampleLwip : Lwip :=
  ⟨⟨(0x6D#8, 0x73#8), 0#8, 0#32, 0#32, 0#32, Vector.replicate 6 0#8, true, true⟩, .static,
    0#32, 0#32, 0#32⟩

/-- The second call has no arguments, and the message of the third does not go
out. -/
theorem networkAll_lastConfig_thrice :
    ∃ s out, networkAll id id (fun _ _ ap => .ok ([], ap)) (· = 0) sampleLwip
        [.call (ascii "net_config") [dotted 0x0200000A#32, dotted 0x0100000A#32,
            dotted 0x00FFFFFF#32], .call (ascii "net_config") [],
          .call (ascii "net_config") [dotted 0x0300000A#32, dotted 0x0100000A#32,
            dotted 0x00FFFFFF#32]] = .ok (s, out, true) ∧
      s.thisif.ipAddr = 0x0200000A#32 := by
  have hnone : configOf [] = none := rfl
  obtain ⟨s, out, hrun, -, hif⟩ := @networkAll_lastConfig id id
    (fun _ _ ap => .ok ([], ap)) sampleLwip rfl (· = 0)
    [.call (ascii "net_config") [dotted 0x0200000A#32, dotted 0x0100000A#32,
        dotted 0x00FFFFFF#32], .call (ascii "net_config") [],
      .call (ascii "net_config") [dotted 0x0300000A#32, dotted 0x0100000A#32,
        dotted 0x00FFFFFF#32]] (by simp [Event.OfNetwork])
  refine ⟨s, out, hrun.trans ?_, ?_⟩
  · simp [Event.config, argument_dotted, configOf_dotted, hnone, made]
  · rw [hif]
    simp [Event.config, argument_dotted, configOf_dotted, hnone, made, Netif.configure]

/-- `net_config` with three addresses, as it is typed. -/
def typedConfig (ip gw netmask : U32) : List Byte :=
  [0x20#8].intercalate [ascii "net_config", dotted ip, dotted gw, dotted netmask]

/-- The text of an address has no blanks and no quotes. -/
theorem bare_dotted (addr : U32) : Bare (dotted addr) ∧ ∀ b ∈ dotted addr, Printable b := by
  have hfacts : ∀ b : Byte, (isDigit 10 b = true ∨ b = 0x2E#8) →
      blank b = false ∧ quote b = false ∧ Printable b := by
    decide
  have hchars := fun b hb => hfacts b (dotted_chars addr b hb)
  refine ⟨⟨?_, fun b hb => (hchars b hb).1, fun b hb => (hchars b hb).2.1⟩,
    fun b hb => (hchars b hb).2.2⟩
  simp [dotted]

/-- The typed line is the command and its three arguments. -/
theorem commandLine_typedConfig (ip gw netmask : U32) :
    commandLine (typedConfig ip gw netmask) =
      (some (ascii "net_config"), some [dotted ip, dotted gw, dotted netmask]) := by
  have hcmd : Bare (ascii "net_config") := by
    constructor <;> simp [ascii, blank, quote]
  rw [typedConfig, commandLine_intercalate]
  · rfl
  · simp [hcmd, (bare_dotted _).1]

/-- It can be typed, and it fits the line of the shell. -/
theorem typedConfig_printable (ip gw netmask : U32) :
    (∀ b ∈ typedConfig ip gw netmask, Printable b) ∧
      (typedConfig ip gw netmask).length < shellMaxLineLength := by
  have htext : typedConfig ip gw netmask = ascii "net_config" ++ 0x20#8 :: (dotted ip ++
      0x20#8 :: (dotted gw ++ 0x20#8 :: dotted netmask)) := by
    simp [typedConfig, List.intercalate]
  have hcmd : (∀ b ∈ ascii "net_config", Printable b) ∧ (ascii "net_config").length = 10 := by
    constructor <;> simp [ascii, Printable]
  have hblank : Printable 0x20#8 := by decide
  rw [htext]
  constructor
  · intro b hb
    simp only [List.mem_append, List.mem_cons] at hb
    obtain hb | rfl | hb | rfl | hb | rfl | hb := hb
    · exact hcmd.1 b hb
    · exact hblank
    · exact (bare_dotted ip).2 b hb
    · exact hblank
    · exact (bare_dotted gw).2 b hb
    · exact hblank
    · exact (bare_dotted netmask).2 b hb
  · have h1 := length_dotted ip
    have h2 := length_dotted gw
    have h3 := length_dotted netmask
    simp only [List.length_append, List.length_cons, hcmd.2, shellMaxLineLength]
    omega

theorem execute_net (args : List (List Byte)) :
    execute (ascii "net_config") args = ([.call (ascii "net_config") args], false) ∧
      execute (ascii "net_info") args = ([.call (ascii "net_info") args], false) := by
  have hconfig : ascii "net_config" ≠ ascii "help" ∧ ascii "net_config" ∉ shellLocalCommands ∧
      ascii "net_config" ∈ commands := by
    simp [ascii, shellLocalCommands, commands]
  have hinfo : ascii "net_info" ≠ ascii "help" ∧ ascii "net_info" ∉ shellLocalCommands ∧
      ascii "net_info" ∈ commands := by
    simp [ascii, shellLocalCommands, commands]
  simp [execute, cmdexec, hconfig, hinfo]

/-- `net_info` changes nothing. -/
theorem event_info (posted : Bool) (s : Lwip) :
    (Event.call (ascii "net_info") []).network dhcpStart dhcpStop ftoa posted s =
      .ok (s, infoText s.thisif, false) := by
  have hne : ascii "net_info" ≠ ascii "net_config" := by simp [ascii]
  simp only [Event.network, if_neg hne, if_true, List.map_nil, cmdNetInfo_eq, ok_bind]

/-- `net_config` of three texts of addresses posts these addresses. If the
message is not posted, the command does not return. -/
theorem event_config {s : Lwip} (h : s.addressMode = .static) (posted : Bool)
    (ip gw netmask : U32) :
    ∃ out, (Event.call (ascii "net_config") [dotted ip, dotted gw, dotted netmask]).network
        dhcpStart dhcpStop ftoa posted s =
      .ok (if posted then s.configure (ip, gw, netmask) else s, out, !posted) := by
  have hconfig : (Event.call (ascii "net_config") [dotted ip, dotted gw, dotted netmask]).config =
      some (ip, gw, netmask) := by
    simp [Event.config, argument_dotted, configOf_dotted]
  obtain ⟨out, hout⟩ := @network_static dhcpStart dhcpStop ftoa s h posted
    (.call (ascii "net_config") [dotted ip, dotted gw, dotted netmask]) (.inl rfl)
  refine ⟨out, hout.trans ?_⟩
  rw [hconfig]
  cases posted <;> rfl

/-- What the shell does when the two commands are typed. -/
theorem shellThread_config_info (env : Nat → Stray) (line : Vector Byte shellMaxLineLength)
    (histbuf : Vector Byte shellMaxHistBuff) (ip gw netmask : U32) :
    shellThread env line histbuf
        (typedConfig ip gw netmask ++ 0x0D#8 :: (ascii "net_info" ++ [0x0D#8])) =
      some (say (newline ++ ascii "ChibiOS/RT Shell" ++ newline ++ prompt ++
          typedConfig ip gw netmask ++ newline) ++
        .call (ascii "net_config") [dotted ip, dotted gw, dotted netmask] ::
          (say (prompt ++ ascii "net_info" ++ newline) ++ .call (ascii "net_info") [] ::
            (say (prompt ++ newline ++ ascii "logout") ++ []))) := by
  obtain ⟨hprintable, hshort⟩ := typedConfig_printable ip gw netmask
  have hinfo : commandLine (ascii "net_info") = (some (ascii "net_info"), some []) := by
    have hbare : Bare (ascii "net_info") := by
      constructor <;> simp [ascii, blank, quote]
    have hall : ∀ w ∈ [ascii "net_info"], Bare w := by simpa using hbare
    simpa using commandLine_intercalate hall
  have hinfo' : (∀ b ∈ ascii "net_info", Printable b) ∧
      (ascii "net_info").length < shellMaxLineLength := by
    constructor <;> simp [ascii, Printable, shellMaxLineLength]
  rw [shellThread_eq, session_line rfl rfl hprintable _ hshort, commandLine_typedConfig]
  simp only [executeLine, execute_net, Bool.false_eq_true, if_false]
  rw [session_line rfl rfl hinfo'.1 _ hinfo'.2, hinfo]
  simp only [executeLine, execute_net, Bool.false_eq_true, if_false, session, Option.map_some]
  simp [logout]

/-- **From the keyboard to the screen.**  Three addresses that are typed behind
`net_config` are those of the interface afterwards, and `net_info` shows them
as they were typed, if lwIP takes the message.  If it does not, the interface
is as it was, and `net_config` waits for ever. -/
theorem typed_config_info (dhcpStart dhcpStop : Netif → Netif)
    (ftoa : Bool → Int → List Arg → Except Fault (List Byte × List Arg)) (posted : Nat → Bool)
    (env : Nat → Stray) (line : Vector Byte shellMaxLineLength)
    (histbuf : Vector Byte shellMaxHistBuff) (netif : Netif) (ip₀ gw₀ netmask₀ ip gw netmask : U32) :
    ∃ events s out,
      shellThread env line histbuf
        (typedConfig ip gw netmask ++ 0x0D#8 :: (ascii "net_info" ++ [0x0D#8])) = some events ∧
      networkAll dhcpStart dhcpStop ftoa posted ⟨netif, .static, ip₀, gw₀, netmask₀⟩ events =
        .ok (s, out, !posted 0) ∧
      if posted 0 then
        s.thisif = netif.configure (ip, gw, netmask) ∧
          ∃ screen, out = screen ++ infoText s.thisif ++ (prompt ++ newline ++ ascii "logout")
      else s.thisif = netif := by
  obtain ⟨out, hconfig⟩ := @event_config dhcpStart dhcpStop ftoa
    ⟨netif, .static, ip₀, gw₀, netmask₀⟩ rfl (posted 0) ip gw netmask
  cases hposted : posted 0 with
  | false =>
      rw [hposted] at hconfig
      refine ⟨_, ⟨netif, .static, ip₀, gw₀, netmask₀⟩, newline ++ ascii "ChibiOS/RT Shell" ++
        newline ++ prompt ++ typedConfig ip gw netmask ++ newline ++ out,
        shellThread_config_info env line histbuf ip gw netmask, ?_, ?_⟩
      · rw [networkAll_say, networkAll, hposted, hconfig, ok_bind]
        rfl
      · exact rfl
  | true =>
      rw [hposted] at hconfig
      generalize hscreen : newline ++ ascii "ChibiOS/RT Shell" ++ newline ++ prompt ++
        typedConfig ip gw netmask ++ newline ++ out ++ prompt ++ ascii "net_info" ++ newline =
          screen
      refine ⟨_, Lwip.configure ⟨netif, .static, ip₀, gw₀, netmask₀⟩ (ip, gw, netmask),
        screen ++ infoText (netif.configure (ip, gw, netmask)) ++
          (prompt ++ newline ++ ascii "logout"),
        shellThread_config_info env line histbuf ip gw netmask, ?_, ?_⟩
      · have hcall : (Event.call (ascii "net_config")
            [dotted ip, dotted gw, dotted netmask]).network dhcpStart dhcpStop ftoa (posted 0)
              ⟨netif, .static, ip₀, gw₀, netmask₀⟩ =
            .ok (Lwip.configure ⟨netif, .static, ip₀, gw₀, netmask₀⟩ (ip, gw, netmask), out,
              false) := by
          rw [hposted]
          exact hconfig
        rw [networkAll_say, networkAll_call hcall, networkAll_say,
          networkAll_call (event_info _ _), networkAll_say]
        simp [networkAll, Except.map, Lwip.configure, ← hscreen]
      · exact ⟨rfl, screen, rfl⟩

end Network

/-! ## The address of the radio -/

section Address

open Chprintf Nrf24l01 Nrf24l01.Shell Udp.Network

variable {ftoa : Bool → Int → List Chprintf.Arg →
  Except Fault (List Byte × List Chprintf.Arg)}

/-- An argument of `chprintf` as it is passed. -/
def passed : Nrf24l01.Shell.Arg → Chprintf.Arg
  | .int n => ⟨BitVec.ofInt 32 n, none⟩
  | .str s => strArg s

/-- The bytes of an address as `nrf_addr_get` prints them. -/
def addressWords (addr : Addr) : List (List Byte) :=
  addr.toList.map fun b => 0x30#8 :: 0x78#8 :: hexByte b

/-- The two digits of a byte are bare. -/
theorem hexByte_bare (b : Byte) {c : Byte} (hc : c ∈ hexByte b) :
    c ≠ 0#8 ∧ blank c = false ∧ quote c = false := by
  have hdigit : ∀ c : Byte, isDigit 16 c = true → c ≠ 0#8 ∧ blank c = false ∧ quote c = false := by
    decide
  exact hdigit c (List.all_eq_true.mp (all_justify_hex 2 b.toNat) c hc)

/-- A byte is read as it was printed. -/
theorem parseByte_hexByte (b : Byte) :
    parseByte (argument (0x30#8 :: 0x78#8 :: hexByte b)) = some b := by
  have hlt := b.isLt
  have hchars : (argument (0x30#8 :: 0x78#8 :: hexByte b)).chars =
      0x30#8 :: 0x78#8 :: hexByte b := by
    rw [argument, List.takeWhile_eq_self_iff]
    intro c hc
    simp only [List.mem_cons] at hc
    obtain rfl | rfl | hc := hc
    · decide
    · decide
    · exact decide_eq_true (hexByte_bare b hc).1
  have hstrtol : strtol (0x30#8 :: 0x78#8 :: hexByte b) 0 = ((b.toNat : Int), []) := by
    rw [strtol, hexByte, scan_hex]
    simp only [longMin, longMax]
    congr 1
    omega
  have hrange : ¬(([] : List Byte) ≠ [] ∨ (b.toNat : Int) < 0 ∨ (b.toNat : Int) > 255) := by
    rintro (h | h | h)
    · exact h rfl
    · omega
    · omega
  rw [parseByte, hchars, hstrtol]
  simp only
  rw [if_neg hrange]
  simp

/-- The words of an address are read as the address. -/
theorem parseBytes_addressWords (addr : Addr) :
    parseBytes 0 ((addressWords addr).map argument) = .ok addr.toList := by
  rw [addressWords, List.map_map]
  generalize addr.toList = bytes
  generalize 0 = i
  induction bytes generalizing i with
  | nil => rfl
  | cons b bytes ih =>
      rw [List.map_cons, parseBytes, Function.comp_apply, parseByte_hexByte]
      simp only [ih]
      rfl

/-- `" 0x%02X"`. -/
def wordFormat : List Byte := [0x20#8, 0x30#8, 0x78#8, 0x25#8, 0x30#8, 0x32#8, 0x58#8]

/-- Each word of an address is printed with the same format. -/
theorem chvprintf_words (bytes : List Byte) {fmt out : List Byte}
    (h : chvprintf ftoa fmt [] = .ok out) :
    chvprintf ftoa ((List.replicate bytes.length wordFormat).flatten ++ fmt)
        (bytes.map byteArg) =
      .ok ((bytes.map fun b => 0x30#8 :: 0x78#8 :: hexByte b).flatMap (0x20#8 :: ·) ++ out) := by
  have hhead : Literal [0x20#8, 0x30#8, 0x78#8] := by simp [Literal]
  induction bytes with
  | nil => exact h
  | cons b bytes ih =>
      have hprint := chvprintf_append hhead (chvprintf_hexByte b ih)
      simpa [List.replicate_succ, wordFormat] using hprint

/-- How the report of an address is printed. -/
theorem chvprintf_addressReport (addr : Addr) :
    chvprintf ftoa (ascii (addressReport addr).fmt) ((addressReport addr).args.map passed) =
      .ok (ascii "Current nRF24L01 TX address:" ++
        ((addressWords addr).flatMap (0x20#8 :: ·) ++ crlf)) := by
  have hargs : (addressReport addr).args.map passed = addr.toList.map byteArg := by
    simp only [addressReport, byteArgs, List.map_map]
    congr 1
    funext b
    simp [passed, byteArg]
  have hlen : addr.toList.length = 5 := Vector.length_toList
  have hfmt : ascii (addressReport addr).fmt = ascii "Current nRF24L01 TX address:" ++
      ((List.replicate addr.toList.length wordFormat).flatten ++ crlf) := by
    rw [hlen]
    simp [addressReport, ascii, wordFormat, crlf, List.replicate_succ]
  rw [hargs, hfmt]
  exact chvprintf_append (by simp [ascii]) (chvprintf_words addr.toList chvprintf_crlf)

/-- **What is shown cannot be typed back.**  The bytes that `nrf_addr_get`
prints are arguments that `nrf_addr` takes for the same address, but the shell
refuses the line with all five of them. -/
theorem shown_address (ftoa : Bool → Int → List Chprintf.Arg →
      Except Fault (List Byte × List Chprintf.Arg)) (addr : Addr) :
    chvprintf ftoa (ascii (addressReport addr).fmt) ((addressReport addr).args.map passed) =
        .ok (ascii "Current nRF24L01 TX address:" ++
          ((addressWords addr).flatMap (0x20#8 :: ·) ++ crlf)) ∧
      parseBytes 0 ((addressWords addr).map argument) = .ok addr.toList ∧
      executeLine (commandLine (ascii "nrf_addr" ++ (addressWords addr).flatMap (0x20#8 :: ·))) =
        (say (ascii "too many arguments" ++ newline), false) := by
  refine ⟨chvprintf_addressReport addr, parseBytes_addressWords addr, ?_⟩
  have hcmd : Bare (ascii "nrf_addr") := by
    constructor <;> simp [ascii, blank, quote]
  have hbare : ∀ w ∈ ascii "nrf_addr" :: addressWords addr, Bare w := by
    intro w hw
    obtain rfl | hw := List.mem_cons.mp hw
    · exact hcmd
    · obtain ⟨b, -, rfl⟩ := List.mem_map.mp hw
      have hprefix : ∀ c : Byte, c = 0x30#8 ∨ c = 0x78#8 → blank c = false ∧ quote c = false := by
        decide
      have hchars : ∀ c ∈ 0x30#8 :: 0x78#8 :: hexByte b, blank c = false ∧ quote c = false := by
        intro c hc
        simp only [List.mem_cons] at hc
        obtain hc | hc | hc := hc
        · exact hprefix c (Or.inl hc)
        · exact hprefix c (Or.inr hc)
        · exact (hexByte_bare b hc).2
      exact ⟨by simp, fun c hc => (hchars c hc).1, fun c hc => (hchars c hc).2⟩
  have hjoin : ∀ ws : List (List Byte), ascii "nrf_addr" ++ ws.flatMap (0x20#8 :: ·) =
      [0x20#8].intercalate (ascii "nrf_addr" :: ws) := by
    intro ws
    generalize ascii "nrf_addr" = first
    induction ws generalizing first with
    | nil => simp
    | cons w ws ih => simp [← ih, List.intercalate_cons_cons]
  have hlen : (addressWords addr).length = 5 := by simp [addressWords]
  rw [hjoin, commandLine_intercalate hbare, hlen]
  rfl

end Address

end DsEthComm.Shell
