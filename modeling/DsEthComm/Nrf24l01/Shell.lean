import DsEthComm.Nrf24l01.Unwind
import DsEthComm.Strtol

/-!
# DsEthComm.Nrf24l01.Shell

The shell commands of `main.c` that configure the radio: `nrf_channel`,
`nrf_channel_get`, `nrf_addr` and `nrf_addr_get`.

Both setters read numbers from their arguments.  `nrf_addr` looks at the end
of each token and at its value before it changes anything; `nrf_channel`
looks at the value only.
-/

namespace DsEthComm.Nrf24l01

open Conc

namespace Shell

/-! ## Output -/

/-- An argument of `chprintf`. -/
inductive Arg where
  | int (n : Int)
  | str (s : CStr)
deriving DecidableEq

/-- A call of `chprintf`. -/
structure Print where
  fmt : String
  args : List Arg
deriving DecidableEq

def line (fmt : String) : Print := ⟨fmt, []⟩

/-! ## The channel -/

/-- `nrf24l01_get_channel_frequency`: `*freq`, or the status. -/
def getChannelFrequency : Driver (Except Byte Byte) := do
  let inited ← getInited
  if inited ≠ 1 then pure (.error 3)
  else
    let res ← spiRead (commandRRegister ||| regRfCh) 1
    match res with
    | none => do
        debugPrint "nrf24l01: get rf channel failed.\n" []
        pure (.error 1)
    | some buf => pure (.ok (buf.getD 0 0 &&& 0x7F#8))

/-- `nrf24l01_basic_get_frequency`. -/
def basicGetFrequency : Driver (Except Byte Byte) := do
  let res ← getChannelFrequency
  match res with
  | .error _ => do
      debugPrint "nrf24l01: get channel frequency failed.\n" []
      pure (.error 1)
  | .ok freq => pure (.ok freq)

def channelRangeError : Print := line "Error: Frequency must be between 0 and 127\r\n"

def channelSetError : Print := line "Error: Failed to set nRF24L01 channel\r\n"

/-- The end of `cmd_nrf_channel`: set the channel and print the outcome. -/
def applyChannel (freq : Int) : Driver (List Print) := do
  let result ← basicSetFrequency (BitVec.ofInt 8 freq)
  if result = 0 then
    pure [⟨"nRF24L01 channel set to %d (frequency: %d MHz)\r\n", [.int freq, .int (2400 + freq)]⟩]
  else pure [channelSetError]

/-- `cmd_nrf_channel`. -/
def cmdNrfChannel : List CStr → Driver (List Print)
  | [arg] =>
      let freq := atoi arg.chars
      if freq < 0 ∨ freq > 127 then pure [channelRangeError]
      else applyChannel freq
  | _ => pure [line "Usage: nrf_channel <freq>\r\n",
      line "  freq: Channel frequency (0-127)\r\n",
      line "  Actual frequency = 2400 MHz + freq MHz\r\n",
      line "Example: nrf_channel 94  (sets to 2494 MHz)\r\n"]

/-- The report of a channel. -/
def channelReport (freq : Nat) : Print :=
  ⟨"Current nRF24L01 channel: %d (frequency: %d MHz)\r\n", [.int freq, .int (2400 + freq)]⟩

/-- `cmd_nrf_channel_get`. -/
def cmdNrfChannelGet : List CStr → Driver (List Print)
  | [] => do
      let res ← basicGetFrequency
      match res with
      | .ok freq => pure [channelReport freq.toNat]
      | .error _ => pure [line "Error: Failed to get nRF24L01 channel\r\n"]
  | _ => pure [line "Usage: nrf_channel_get\r\n",
      line "  Displays the current nRF24L01 channel frequency\r\n"]

/-! ## The address -/

/-- The value of an argument of `nrf_addr`: `strtol` with base 0 has to
consume all of it and return the value of a byte. -/
def parseByte (arg : CStr) : Option Byte :=
  let (val, endptr) := strtol arg.chars 0
  if endptr ≠ [] ∨ val < 0 ∨ val > 255 then none else some (BitVec.ofInt 8 val)

/-- The loop over the arguments, from the `i`-th on; the first that is not a
byte ends it with its message. -/
def parseBytes : Nat → List CStr → Except Print (List Byte)
  | _, [] => .ok []
  | i, arg :: argv =>
      match parseByte arg with
      | none => .error ⟨"Error: Invalid byte %d: %s (must be 0x00-0xFF)\r\n", [.int i, .str arg]⟩
      | some b => (b :: ·) <$> parseBytes (i + 1) argv

/-- `uint8_t addr[5]`. -/
def toAddr (bytes : List Byte) : Addr := Vector.ofFn fun i => bytes.getD i 0

def byteArgs (addr : Addr) : List Arg := addr.toList.map fun b => .int b.toNat

def addressSetError : Print := line "Error: Failed to set nRF24L01 TX address\r\n"

/-- The end of `cmd_nrf_addr`: set the address and print the outcome. -/
def applyAddr (addr : Addr) : Driver (List Print) := do
  let result ← basicSetTxAddress addr
  if result = 0 then
    pure [⟨"nRF24L01 TX address set to: 0x%02X 0x%02X 0x%02X 0x%02X 0x%02X\r\n", byteArgs addr⟩]
  else pure [addressSetError]

/-- `cmd_nrf_addr`. -/
def cmdNrfAddr (argv : List CStr) : Driver (List Print) :=
  if argv.length ≠ 5 then
    pure [line "Usage: nrf_addr <byte0> <byte1> <byte2> <byte3> <byte4>\r\n",
      line "  Sets the nRF24L01 TX address (5 bytes in hex)\r\n",
      line "Example: nrf_addr 0x65 0x64 0x6F 0x4E 0x32\r\n",
      line "         nrf_addr 0xE7 0xE7 0xE7 0xE7 0xE7\r\n"]
  else
    match parseBytes 0 argv with
    | .error message => pure [message]
    | .ok bytes => applyAddr (toAddr bytes)

/-- `nrf24l01_basic_get_tx_address`: the address and `*is_set`.  It fails for
`NULL` only. -/
def basicGetTxAddress : Driver (Except Byte (Addr × Byte)) := do
  let addr ← getTxAddr
  let isSet ← getTxAddrSet
  pure (.ok (addr, isSet))

/-- The report of an address. -/
def addressReport (addr : Addr) : Print :=
  ⟨"Current nRF24L01 TX address: 0x%02X 0x%02X 0x%02X 0x%02X 0x%02X\r\n", byteArgs addr⟩

def allPrintable (addr : Addr) : Bool := addr.toList.all fun b => 32#8 ≤ b && b ≤ 126#8

/-- `cmd_nrf_addr_get`. -/
def cmdNrfAddrGet : List CStr → Driver (List Print)
  | [] => do
      let res ← basicGetTxAddress
      match res with
      | .error _ => pure [line "Error: Failed to get nRF24L01 TX address\r\n"]
      | .ok (addr, isSet) =>
          if isSet ≠ 0 then
            let ascii : Print :=
              ⟨"                     (ASCII: '%c%c%c%c%c')\r\n", byteArgs addr⟩
            pure (addressReport addr :: if allPrintable addr then [ascii] else [])
          else pure [line "nRF24L01 TX address has not been set yet\r\n"]
  | _ => pure [line "Usage: nrf_addr_get\r\n",
      line "  Displays the current nRF24L01 TX address\r\n"]

/-! ## Arguments that are bytes -/

/-- The value `strtol` returns for an argument. -/
def value (arg : CStr) : Int := (strtol arg.chars 0).1

/-- `strtol` consumes the argument and returns the value of a byte. -/
def IsByte (arg : CStr) : Prop := (strtol arg.chars 0).2 = [] ∧ 0 ≤ value arg ∧ value arg ≤ 255

/-- The arguments `nrf_addr` is meant to take. -/
def Accepted (argv : List CStr) : Prop := argv.length = 5 ∧ ∀ arg ∈ argv, IsByte arg

instance (arg : CStr) : Decidable (IsByte arg) := inferInstanceAs (Decidable (_ ∧ _))

instance (argv : List CStr) : Decidable (Accepted argv) := inferInstanceAs (Decidable (_ ∧ _))

theorem parseByte_eq (arg : CStr) :
    parseByte arg = if IsByte arg then some (BitVec.ofInt 8 (value arg)) else none := by
  have hiff : ((strtol arg.chars 0).2 ≠ [] ∨ value arg < 0 ∨ value arg > 255) ↔ ¬IsByte arg := by
    rw [IsByte, not_and_or, not_and_or, Int.not_le, Int.not_le]
  show (if (strtol arg.chars 0).2 ≠ [] ∨ value arg < 0 ∨ value arg > 255 then none
    else some (BitVec.ofInt 8 (value arg))) = _
  by_cases h : IsByte arg
  · rw [if_pos h, if_neg fun hbad => hiff.mp hbad h]
  · rw [if_neg h, if_pos (hiff.mpr h)]

theorem toNat_ofInt {n : Int} (h0 : 0 ≤ n) (h255 : n ≤ 255) :
    ((BitVec.ofInt 8 n).toNat : Int) = n := by
  rw [BitVec.toNat_ofInt]
  omega

/-- The loop stores all the bytes, or ends at the first argument that is
none. -/
theorem parseBytes_eq (i : Nat) (argv : List CStr) :
    if ∀ arg ∈ argv, IsByte arg then
      parseBytes i argv = .ok (argv.map fun arg => BitVec.ofInt 8 (value arg))
    else ∃ message, parseBytes i argv = .error message := by
  induction argv generalizing i with
  | nil => simp [parseBytes]
  | cons arg argv ih =>
      have hrest := ih (i + 1)
      rw [parseBytes, parseByte_eq]
      by_cases harg : IsByte arg
      · simp only [List.forall_mem_cons, harg, true_and, if_true]
        split at hrest
        · next hall =>
          rw [if_pos hall, hrest]
          rfl
        · next hall =>
          obtain ⟨message, hmessage⟩ := hrest
          rw [if_neg hall, hmessage]
          exact ⟨message, rfl⟩
      · simp [harg]

theorem toList_toAddr {bytes : List Byte} (h : bytes.length = 5) :
    (toAddr bytes).toList = bytes := by
  apply List.ext_getElem
  · simp [h]
  · intro j hj hj'
    simp [toAddr, List.getElem?_eq_getElem hj']

/-! ## Setting the address -/

section Commands

open Radio Unwind

variable (env : Schedule) (s : Radio)

/-- `nrf_addr` sets both addresses to the reversed values and
`nrf_addr_get` then reports the values as given; or it touches nothing. -/
def SetsAddress (argv : List CStr) : Prop :=
  let x := evalAt env (cmdNrfAddr argv) s 0
  if Accepted argv then
    (x.1.1.chip.txAddr.toList.map fun b => (b.toNat : Int)) = (argv.map value).reverse ∧
      (x.1.1.chip.rxAddrP0.toList.map fun b => (b.toNat : Int)) = (argv.map value).reverse ∧
      (evalAt env (cmdNrfAddrGet []) x.1.1 x.1.2).2.head? =
        some ⟨"Current nRF24L01 TX address: 0x%02X 0x%02X 0x%02X 0x%02X 0x%02X\r\n",
          (argv.map value).map .int⟩
  else traceAt env (cmdNrfAddr argv) s 0 = [] ∧ x.1.1 = s

/-- What is not accepted prints its message and does nothing. -/
theorem cmdNrfAddr_of_not_accepted {argv : List CStr} (h : ¬Accepted argv) :
    ∃ messages, cmdNrfAddr argv = .pure messages := by
  unfold cmdNrfAddr
  by_cases hlen : argv.length = 5
  · have hparse := parseBytes_eq 0 argv
    rw [if_neg fun hall => h ⟨hlen, hall⟩] at hparse
    obtain ⟨message, hmessage⟩ := hparse
    rw [if_neg (not_not_intro hlen), hmessage]
    exact ⟨_, rfl⟩
  · rw [if_pos hlen]
    exact ⟨_, rfl⟩

theorem cmdNrfAddr_of_accepted {argv : List CStr} (h : Accepted argv) :
    ∃ addr : Addr, (addr.toList.map fun b => (b.toNat : Int)) = argv.map value ∧
      cmdNrfAddr argv = applyAddr addr := by
  obtain ⟨hlen, hall⟩ := h
  have hparse := parseBytes_eq 0 argv
  rw [if_pos hall] at hparse
  refine ⟨toAddr (argv.map fun arg => BitVec.ofInt 8 (value arg)), ?_, ?_⟩
  · rw [toList_toAddr (by rw [List.length_map, hlen]), List.map_map]
    apply List.map_congr_left
    intro arg harg
    obtain ⟨-, h0, h255⟩ := hall arg harg
    exact toNat_ofInt h0 h255
  · rw [cmdNrfAddr, if_neg (not_not_intro hlen), hparse]

/-- The registers and the report after an address was set. -/
theorem evalAt_applyAddr_ok (hok : ∀ i, env.fails i = false) (h : Addressable s) (addr : Addr) :
    (evalAt env (applyAddr addr) s 0).1 =
      ({ program s addr with gsTxAddr := addr, gsTxAddrSet := 1 }, 4) := by
  rw [applyAddr, Prog.bind_eq, evalAt_bind,
    evalAt_basicSetTxAddress_ok env s 0 h ⟨hok 0, hok 1⟩ ⟨hok 2, hok 3⟩]
  rfl

/-- The driver refuses the address. -/
theorem evalAt_applyAddr_fail (h : ¬Addressable s) (addr : Addr) :
    (evalAt env (applyAddr addr) s 0).1.1 = s ∧
      (evalAt env (applyAddr addr) s 0).2 = [addressSetError] := by
  obtain ⟨hs, hres⟩ := evalAt_basicSetTxAddress_fail env s 0 (fun hboth => h hboth.1) addr
  rw [applyAddr, Prog.bind_eq, evalAt_bind, hres, hs]
  exact ⟨rfl, rfl⟩

theorem head?_cmdNrfAddrGet (i : Nat) (h : s.gsTxAddrSet = 1) :
    (evalAt env (cmdNrfAddrGet []) s i).2.head? = some (addressReport s.gsTxAddr) := by
  have hget : evalAt env basicGetTxAddress s i = ((s, i), .ok (s.gsTxAddr, 1)) := by
    rw [← h]
    rfl
  rw [cmdNrfAddrGet, Prog.bind_eq, evalAt_bind, hget]
  rfl

/-- **`nrf_addr` is strict and applied as a whole** by a driver that takes
addresses of five bytes; any other driver refuses the address and nothing
changes. -/
theorem cmdNrfAddr_strict (hok : ∀ i, env.fails i = false) (argv : List CStr) :
    (Addressable s → SetsAddress env s argv) ∧
      (¬Addressable s →
        (evalAt env (cmdNrfAddr argv) s 0).1.1 = s ∧
          if Accepted argv then (evalAt env (cmdNrfAddr argv) s 0).2 = [addressSetError]
          else traceAt env (cmdNrfAddr argv) s 0 = []) := by
  by_cases hacc : Accepted argv
  · obtain ⟨addr, hvalues, hcmd⟩ := cmdNrfAddr_of_accepted hacc
    rw [SetsAddress, if_pos hacc, if_pos hacc, hcmd]
    refine ⟨fun h => ?_, fun h => evalAt_applyAddr_fail env s h addr⟩
    have hreport : byteArgs addr = (argv.map value).map .int := by
      rw [← hvalues, List.map_map]
      rfl
    rw [evalAt_applyAddr_ok env s hok h, ← hvalues, ← List.map_reverse, ← Vector.toList_reverse]
    refine ⟨rfl, rfl, ?_⟩
    rw [head?_cmdNrfAddrGet env _ _ rfl, addressReport, hreport]
    simp only [hvalues]
  · obtain ⟨messages, hcmd⟩ := cmdNrfAddr_of_not_accepted hacc
    rw [SetsAddress, if_neg hacc, if_neg hacc, hcmd]
    exact ⟨fun _ => ⟨rfl, rfl⟩, fun _ => ⟨rfl, rfl⟩⟩

theorem token_nonzero (chars : List Byte) : ∀ b ∈ chars.filter (· ≠ 0#8), b ≠ 0#8 := by
  simp

/-- A token of the command line. -/
def token (chars : List Byte) : CStr := ⟨chars.filter (· ≠ 0#8), token_nonzero chars⟩

/-- `0x65 100 0157 0X4e +50`, the address of the usage text. -/
def tokens : List CStr :=
  [token [0x30#8, 0x78#8, 0x36#8, 0x35#8], token [0x31#8, 0x30#8, 0x30#8],
    token [0x30#8, 0x31#8, 0x35#8, 0x37#8], token [0x30#8, 0x58#8, 0x34#8, 0x65#8],
    token [0x2B#8, 0x35#8, 0x30#8]]

theorem cmdNrfAddr_strict_tokens :
    Accepted tokens ∧ SetsAddress (.failingAt []) sampleRadio tokens :=
  ⟨by decide, (cmdNrfAddr_strict _ sampleRadio (fun _ => rfl) tokens).1 (by decide)⟩

/-- Before `nrf24l01_basic_init` a valid address does not get to the chip. -/
theorem not_setsAddress_uninitialised :
    ¬SetsAddress (.failingAt []) (sampleRadio.setHandle ⟨0, 0, false⟩) tokens := by
  obtain ⟨addr, -, hcmd⟩ := cmdNrfAddr_of_accepted (by decide : Accepted tokens)
  obtain ⟨hs, -⟩ := evalAt_applyAddr_fail (.failingAt []) (sampleRadio.setHandle ⟨0, 0, false⟩)
    (by decide) addr
  rw [SetsAddress, if_pos (by decide), hcmd, hs]
  rintro ⟨htx, -⟩
  exact absurd htx (by decide)

/-! ## Setting the channel -/

/-- The channel an argument names: all of it is a decimal literal in
0..127. -/
def channel (arg : CStr) : Option Nat := (decimal arg.chars).filter (· ≤ 127)

/-- The numeral `atoi` finds at the start of the argument is a channel.  It
finds 0 where there is none. -/
def StartsWithChannel (arg : CStr) : Prop :=
  ∀ n rest, scan arg.chars 10 = some (n, rest) → 0 ≤ n ∧ n ≤ 127

/-- `nrf_channel` of a channel changes the low bits of `RF_CH` to it and
nothing else, and `nrf_channel_get` then reports it; any other argument
changes nothing and is an error. -/
def SetsChannel (arg : CStr) : Prop :=
  let x := evalAt env (cmdNrfChannel [arg]) s 0
  match channel arg with
  | some freq =>
      (∃ b : Byte, b &&& 0x7F#8 = BitVec.ofNat 8 freq ∧
        b &&& 0x80#8 = s.chip.reg regRfCh &&& 0x80#8 ∧
        x.1.1 = s.setChip { s.chip with reg := Function.update s.chip.reg regRfCh b }) ∧
      (evalAt env (cmdNrfChannelGet []) x.1.1 x.1.2).2 = [channelReport freq]
  | none =>
      (∀ reg buf, Op.spiWrite reg buf ∉ traceAt env (cmdNrfChannel [arg]) s 0) ∧
        x.1.1 = s ∧ (x.2 = [channelRangeError] ∨ x.2 = [channelSetError])

theorem putBits_channel (freq prev : Byte) :
    putBits 0x7F 0 freq prev = replaceBits 0x7F#8 freq prev := by
  simp [putBits, replaceBits]

theorem and_channel : ∀ freq : Byte, freq ≤ 0x7F → freq &&& 0x7F#8 = freq := by
  decide

theorem evalAt_basicSetFrequency (hok : ∀ i, env.fails i = false) {freq : Byte}
    (hfreq : freq ≤ 0x7F) :
    evalAt env (basicSetFrequency freq) s 0 =
      if s.handle.inited = 1 then
        ((s.setChip { s.chip with
          reg := Function.update s.chip.reg regRfCh
            (replaceBits 0x7F#8 freq (s.chip.reg regRfCh)) }, 2), 0)
      else ((s, 0), 1) := by
  have hset : evalAt env (setChannelFrequency freq) s 0 =
      if s.handle.inited = 1 then
        ((s.setChip (s.chip.writeReg regRfCh
          [putBits 0x7F 0 freq ((s.chip.readReg regRfCh).getD 0 0)]), 2), 0)
      else ((s, 0), 3) := by
    rw [setChannelFrequency, bounded, evalAt_checked, evalAt_ite, if_neg (BitVec.not_lt.mpr hfreq),
      evalAt_readModifyWrite env s 0 (by decide), hok 0, hok 1]
    rfl
  have hreg : (s.chip.readReg regRfCh).getD 0 0 = s.chip.reg regRfCh := rfl
  rw [basicSetFrequency, Prog.bind_eq, evalAt_bind, hset, hreg, putBits_channel]
  split <;> rfl

theorem startsWithChannel_iff (arg : CStr) :
    StartsWithChannel arg ↔ 0 ≤ atoi arg.chars ∧ atoi arg.chars ≤ 127 :=
  (atoi_le_iff (by decide) (by decide) arg.chars).symm

theorem atoi_of_channel {arg : CStr} {freq : Nat} (h : channel arg = some freq) :
    atoi arg.chars = freq ∧ freq ≤ 127 := by
  obtain ⟨hdec, hle⟩ := Option.filter_eq_some_iff.mp h
  have hle : freq ≤ 127 := of_decide_eq_true hle
  refine ⟨atoi_decimal hdec ?_, hle⟩
  simp only [longMax]
  omega

theorem startsWithChannel_of_channel {arg : CStr} {freq : Nat} (h : channel arg = some freq) :
    StartsWithChannel arg := by
  obtain ⟨hatoi, hle⟩ := atoi_of_channel h
  rw [startsWithChannel_iff, hatoi]
  omega

theorem cmdNrfChannel_of_not {arg : CStr} (h : ¬StartsWithChannel arg) :
    cmdNrfChannel [arg] = .pure [channelRangeError] := by
  refine if_pos ?_
  rw [startsWithChannel_iff, not_and_or, Int.not_le, Int.not_le] at h
  exact h

/-- The byte stored for a numeral that is a channel. -/
theorem ofInt_atoi_le {arg : CStr} (h : StartsWithChannel arg) :
    BitVec.ofInt 8 (atoi arg.chars) ≤ 0x7F := by
  obtain ⟨h0, h127⟩ := (startsWithChannel_iff arg).mp h
  have hval := toNat_ofInt h0 (by omega)
  rw [BitVec.le_def]
  show _ ≤ 127
  omega

theorem cmdNrfChannel_of {arg : CStr} (h : StartsWithChannel arg) :
    cmdNrfChannel [arg] = applyChannel (atoi arg.chars) := by
  refine if_neg ?_
  obtain ⟨h0, h127⟩ := (startsWithChannel_iff arg).mp h
  omega

/-- A numeral that is a channel gets to the chip, whatever follows it. -/
theorem evalAt_cmdNrfChannel (hok : ∀ i, env.fails i = false) {arg : CStr}
    (h : StartsWithChannel arg) :
    evalAt env (cmdNrfChannel [arg]) s 0 =
      if s.handle.inited = 1 then
        ((s.setChip { s.chip with
          reg := Function.update s.chip.reg regRfCh
            (replaceBits 0x7F#8 (BitVec.ofInt 8 (atoi arg.chars)) (s.chip.reg regRfCh)) }, 2),
          [⟨"nRF24L01 channel set to %d (frequency: %d MHz)\r\n",
            [.int (atoi arg.chars), .int (2400 + atoi arg.chars)]⟩])
      else ((s, 0), [channelSetError]) := by
  rw [cmdNrfChannel_of h, applyChannel, Prog.bind_eq, evalAt_bind,
    evalAt_basicSetFrequency env s hok (ofInt_atoi_le h)]
  split <;> rfl

/-- A driver that is not initialised is not asked to write. -/
theorem traceAt_cmdNrfChannel {arg : CStr} (h : StartsWithChannel arg)
    (hinit : s.handle.inited ≠ 1) :
    traceAt env (cmdNrfChannel [arg]) s 0 =
      [.getInited, .debugPrint "nrf24l01: set channel frequency failed.\n" []] := by
  rw [cmdNrfChannel_of h, applyChannel, basicSetFrequency, setChannelFrequency, bounded, checked]
  simp only [Prog.bind_eq, traceAt_bind, evalAt_bind, evalAt_getInited, ne_eq, hinit,
    not_false_eq_true, if_true]
  rfl

theorem evalAt_cmdNrfChannelGet (hok : ∀ i, env.fails i = false) (hinit : s.handle.inited = 1)
    (i : Nat) :
    (evalAt env (cmdNrfChannelGet []) s i).2 =
      [channelReport (s.chip.reg regRfCh &&& 0x7F#8).toNat] := by
  have hread := evalAt_readRegister env s i (by decide : regRfCh &&& 0xE0#8 = 0#8)
  rw [hok i] at hread
  rw [cmdNrfChannelGet, basicGetFrequency, getChannelFrequency]
  simp only [Prog.bind_eq, evalAt_bind, evalAt_getInited, hinit, ne_eq, not_true_eq_false,
    if_false, hread]
  rfl

theorem evalAt_cmdNrfChannelGet_fail (hinit : s.handle.inited ≠ 1) (i : Nat) :
    (evalAt env (cmdNrfChannelGet []) s i).2 =
      [line "Error: Failed to get nRF24L01 channel\r\n"] := by
  rw [cmdNrfChannelGet, basicGetFrequency, getChannelFrequency]
  simp only [Prog.bind_eq, evalAt_bind, evalAt_getInited, hinit, ne_eq, not_false_eq_true, if_true]
  rfl

/-- A channel reaches `RF_CH` exactly if the driver is initialised. -/
theorem setsChannel_of_channel (hok : ∀ i, env.fails i = false) {arg : CStr} {freq : Nat}
    (h : channel arg = some freq) : SetsChannel env s arg ↔ s.handle.inited = 1 := by
  have hstart := startsWithChannel_of_channel h
  obtain ⟨hatoi, hle⟩ := atoi_of_channel h
  have hbyte : BitVec.ofInt 8 (atoi arg.chars) = BitVec.ofNat 8 freq := by
    rw [hatoi, BitVec.ofInt_natCast]
  have hmask := and_channel _ (ofInt_atoi_le hstart)
  rw [hbyte] at hmask
  simp only [SetsChannel, h, evalAt_cmdNrfChannel env s hok hstart]
  by_cases hinit : s.handle.inited = 1
  · refine iff_of_true ?_ hinit
    rw [if_pos hinit, evalAt_cmdNrfChannelGet env _ hok (by exact hinit), hbyte]
    have hreport : (BitVec.ofNat 8 freq).toNat = freq := by
      rw [BitVec.toNat_ofNat, Nat.mod_eq_of_lt (by omega)]
    refine ⟨⟨_, replaceBits_and hmask _, replaceBits_and_not hmask _, rfl⟩, ?_⟩
    simp only [Radio.setChip, Function.update_self]
    rw [replaceBits_and hmask, hreport]
  · refine iff_of_false ?_ hinit
    rw [if_neg hinit]
    rintro ⟨-, hget⟩
    rw [evalAt_cmdNrfChannelGet_fail env s hinit] at hget
    simp [line, channelReport] at hget

/-- What is not a channel is refused exactly if it does not start with one,
or the driver is not initialised. -/
theorem setsChannel_of_not_channel (hok : ∀ i, env.fails i = false) {arg : CStr}
    (h : channel arg = none) :
    SetsChannel env s arg ↔ ¬StartsWithChannel arg ∨ s.handle.inited ≠ 1 := by
  simp only [SetsChannel, h]
  by_cases hstart : StartsWithChannel arg
  · rw [evalAt_cmdNrfChannel env s hok hstart]
    by_cases hinit : s.handle.inited = 1
    · refine iff_of_false ?_ (by simp [hstart, hinit])
      rw [if_pos hinit]
      rintro ⟨-, -, hmessage⟩
      simp [channelRangeError, channelSetError, line] at hmessage
    · refine iff_of_true ?_ (.inr hinit)
      rw [if_neg hinit, traceAt_cmdNrfChannel env s hstart hinit]
      exact ⟨by simp, rfl, .inr rfl⟩
  · refine iff_of_true ?_ (.inl hstart)
    rw [cmdNrfChannel_of_not hstart]
    exact ⟨fun _ _ => List.not_mem_nil, rfl, .inl rfl⟩

/-- **`nrf_channel` rejects what is not a channel** exactly if the argument
does not start with one, and takes a channel exactly if the driver is
initialised. -/
theorem setsChannel_iff (hok : ∀ i, env.fails i = false) (arg : CStr) :
    SetsChannel env s arg ↔
      if (channel arg).isSome then s.handle.inited = 1
      else ¬StartsWithChannel arg ∨ s.handle.inited ≠ 1 := by
  cases h : channel arg with
  | some freq => exact setsChannel_of_channel env s hok h
  | none => exact setsChannel_of_not_channel env s hok h

/-- `94`. -/
theorem setsChannel_iff_94 :
    channel (token [0x39#8, 0x34#8]) = some 94 ∧
      SetsChannel (.failingAt []) sampleRadio (token [0x39#8, 0x34#8]) := by
  refine ⟨by decide, (setsChannel_iff _ sampleRadio (fun _ => rfl) _).mpr ?_⟩
  rw [if_pos (by decide)]
  rfl

/-- `12x` sets the channel to 12. -/
theorem not_setsChannel_12x :
    ¬SetsChannel (.failingAt []) sampleRadio (token [0x31#8, 0x32#8, 0x78#8]) := by
  rw [setsChannel_of_not_channel _ _ (fun _ => rfl) (by decide), startsWithChannel_iff]
  decide

end Commands

end Shell

end DsEthComm.Nrf24l01
