import DsEthComm.Chprintf
import DsEthComm.Udp.Inet

/-!
# DsEthComm.Udp.Network

The network commands of the shell: `net_config`, which changes the addresses
of the interface, and `net_info`, which prints them.

`net_config` reads three addresses before it changes anything.  The change
is made by `do_reconfigure` of the lwIP bindings, which knows a static mode
and DHCP; what DHCP does to the interface is a parameter.

`do_reconfigure` runs in the thread of lwIP.  The message that calls it may
find no memory or no room, and then nothing changes and `net_config` waits for
a signal that nobody gives.
-/

namespace DsEthComm.Udp.Network

open Chprintf Inet

/-! ## The interface -/

/-- `struct netif`, as far as `net_info` prints it. -/
structure Netif where
  name : Byte × Byte
  num : Byte
  ipAddr : U32
  gw : U32
  netmask : U32
  hwaddr : Vector Byte 6
  linkUp : Bool
  up : Bool
deriving DecidableEq

/-- `net_addr_mode_t`, without `LWIP_AUTOIP`. -/
inductive NetAddrMode where
  | static
  | dhcp
deriving DecidableEq

/-- The variables of `lwipthread.c`. -/
structure Lwip where
  thisif : Netif
  addressMode : NetAddrMode
  ip : U32
  gateway : U32
  netmask : U32

/-- `lwipreconf_opts_t`. -/
structure ReconfOpts where
  address : U32
  netmask : U32
  gateway : U32
  addrMode : NetAddrMode

/-- `netif_set_ipaddr`, which does nothing if the address is there already. -/
def netifSetIpaddr (netif : Netif) (ipaddr : U32) : Netif :=
  if ipaddr ≠ netif.ipAddr then { netif with ipAddr := ipaddr } else netif

/-- `netif_set_netmask`. -/
def netifSetNetmask (netif : Netif) (netmask : U32) : Netif :=
  if netmask ≠ netif.netmask then { netif with netmask := netmask } else netif

/-- `netif_set_gw`. -/
def netifSetGw (netif : Netif) (gw : U32) : Netif :=
  if gw ≠ netif.gw then { netif with gw := gw } else netif

/-- The three of them, one after another. -/
def setAddresses (netif : Netif) (ip netmask gw : U32) : Netif :=
  netifSetGw (netifSetNetmask (netifSetIpaddr netif ip) netmask) gw

section Functions

variable (dhcpStart dhcpStop : Netif → Netif)

/-- `do_reconfigure`. -/
def doReconfigure (s : Lwip) (opts : ReconfOpts) : Lwip :=
  let thisif :=
    match s.addressMode with
    | .dhcp => if s.thisif.up then dhcpStop s.thisif else s.thisif
    | .static => setAddresses s.thisif 0#32 0#32 0#32
  let thisif :=
    match opts.addrMode with
    | .dhcp => if thisif.up then dhcpStart thisif else thisif
    | .static => setAddresses thisif opts.address opts.netmask opts.gateway
  ⟨thisif, opts.addrMode, opts.address, opts.gateway, opts.netmask⟩

/-- `lwipReconfigure`, with `posted` if the message goes out: the state, and
whether the call returns.  The result of `tcpip_try_callback`, `ERR_MEM`, is
not looked at. -/
def lwipReconfigure (posted : Bool) (s : Lwip) (opts : ReconfOpts) : Lwip × Bool :=
  if posted then (doReconfigure dhcpStart dhcpStop s opts, true) else (s, false)

variable (ftoa : Bool → Int → List Arg → Except Fault (List Byte × List Arg))

/-- A pointer to a string; where it points to does not matter. -/
def strArg (s : CStr) : Arg := ⟨1#32, some s⟩

def byteArg (b : Byte) : Arg := ⟨b.setWidth 32, none⟩

/-- `network_reconfigure`, which writes to the channel of the shell: the
state, what it writes, and what it returns if it does. -/
def networkReconfigure (posted : Bool) (s : Lwip) (ipStr gatewayStr netmaskStr : CStr) :
    Except Fault (Lwip × List Byte × Option Bool) :=
  match ip4addrAton ipStr.chars with
  | none => do
      let out ← chvprintf ftoa (ascii "Error: Invalid IP address format: %s\n") [strArg ipStr]
      .ok (s, out, some false)
  | some ip =>
      match ip4addrAton gatewayStr.chars with
      | none => do
          let out ← chvprintf ftoa (ascii "Error: Invalid gateway address format: %s\n")
            [strArg gatewayStr]
          .ok (s, out, some false)
      | some gateway =>
          match ip4addrAton netmaskStr.chars with
          | none => do
              let out ← chvprintf ftoa (ascii "Error: Invalid netmask format: %s\n")
                [strArg netmaskStr]
              .ok (s, out, some false)
          | some netmask =>
              match lwipReconfigure dhcpStart dhcpStop posted s
                ⟨ip, netmask, gateway, .static⟩ with
              | (s, false) => .ok (s, [], none)
              | (s, true) => do
                  let out ← chvprintf ftoa (ascii
                      "Network reconfigured to:\n  IP:      %s\n  Gateway: %s\n  Netmask: %s\n")
                    [strArg ipStr, strArg gatewayStr, strArg netmaskStr]
                  .ok (s, out, some true)

/-- `cmd_net_config`: the state, what it writes, and whether it waits for
ever. -/
def cmdNetConfig (posted : Bool) (s : Lwip) :
    List CStr → Except Fault (Lwip × List Byte × Bool)
  | [ipStr, gatewayStr, netmaskStr] => do
      let head := ascii "Configuring network to:\r\n"
      let ip ← chvprintf ftoa (ascii "  IP:      %s\r\n") [strArg ipStr]
      let gateway ← chvprintf ftoa (ascii "  Gateway: %s\r\n") [strArg gatewayStr]
      let netmask ← chvprintf ftoa (ascii "  Netmask: %s\r\n") [strArg netmaskStr]
      let (s, log, result) ←
        networkReconfigure dhcpStart dhcpStop ftoa posted s ipStr gatewayStr netmaskStr
      let tail :=
        match result with
        | some true => ascii "Network configuration applied successfully!\r\n" ++
            ascii "Note: Existing connections may need to be reestablished.\r\n"
        | some false => ascii "Error: Failed to configure network (check IP format)\r\n"
        | none => []
      .ok (s, head ++ ip ++ gateway ++ netmask ++ log ++ tail, result.isNone)
  | _ => .ok (s, ascii "Usage: net_config <ip> <gateway> <netmask>\r\n" ++
      ascii "Example: net_config 192.168.0.150 192.168.0.1 255.255.255.0\r\n" ++
      ascii "         net_config 10.0.0.50 10.0.0.1 255.255.255.0\r\n", false)

/-- The arguments for an address: `ip4_addr1` to `ip4_addr4`. -/
def addrArgs (addr : U32) : List Arg := (octets addr).map byteArg

/-- "UP" or "DOWN". -/
def upDown (b : Bool) : Arg :=
  strArg (if b then ⟨[0x55#8, 0x50#8], by decide⟩
    else ⟨[0x44#8, 0x4F#8, 0x57#8, 0x4E#8], by decide⟩)

/-- `cmd_net_info`; `none` for `netif_default` is `NULL`. -/
def cmdNetInfo (netifDefault : Option Netif) : List CStr → Except Fault (List Byte)
  | [] =>
      match netifDefault with
      | none => .ok (ascii "Error: Network interface not initialized\r\n")
      | some netif => do
          let head := ascii "Current Network Configuration:\r\n"
          let name ← chvprintf ftoa (ascii "  Interface:  %c%c%d\r\n")
            [byteArg netif.name.1, byteArg netif.name.2, byteArg netif.num]
          let ip ← chvprintf ftoa (ascii "  IP Address: %d.%d.%d.%d\r\n") (addrArgs netif.ipAddr)
          let gw ← chvprintf ftoa (ascii "  Gateway:    %d.%d.%d.%d\r\n") (addrArgs netif.gw)
          let mask ← chvprintf ftoa (ascii "  Netmask:    %d.%d.%d.%d\r\n")
            (addrArgs netif.netmask)
          let mac ← chvprintf ftoa (ascii "  MAC:        %02X:%02X:%02X:%02X:%02X:%02X\r\n")
            (netif.hwaddr.toList.map byteArg)
          let link ← chvprintf ftoa (ascii "  Link:       %s\r\n") [upDown netif.linkUp]
          let status ← chvprintf ftoa (ascii "  Status:     %s\r\n") [upDown netif.up]
          .ok (head ++ name ++ ip ++ gw ++ mask ++ mac ++ link ++ status)
  | _ => .ok (ascii "Usage: net_info\r\n" ++
      ascii "  Displays the current network configuration\r\n")

end Functions

/-! ## Texts -/

/-- A byte with two hexadecimal digits. -/
def hexByte (b : Byte) : List Byte := justify false 0x30#8 2 (numeral 16 b.toNat)

theorem numeral_eq_decimalText : ∀ b : Byte, numeral 10 b.toNat = decimalText b := by
  decide +kernel

section Lines

variable {ftoa : Bool → Int → List Arg → Except Fault (List Byte × List Arg)}

theorem toInt_byteArg (b : Byte) : (byteArg b).word.toInt = (b.toNat : Int) := by
  have hlt := b.isLt
  rw [byteArg, BitVec.toInt_eq_toNat_cond, BitVec.toNat_setWidth]
  split <;> omega

/-- `%d` of a byte. -/
theorem chvprintf_byte (b : Byte) {fmt out : List Byte} {ap : List Arg}
    (h : chvprintf ftoa fmt ap = .ok out) :
    chvprintf ftoa (0x25#8 :: 0x64#8 :: fmt) (byteArg b :: ap) = .ok (decimalText b ++ out) := by
  have hd := chvprintf_d (byteArg b) h
  rwa [toInt_byteArg, integer, if_neg (by omega), if_neg Bool.false_ne_true, List.nil_append,
    Int.natAbs_natCast, numeral_eq_decimalText] at hd

/-- `%02X`. -/
theorem chvprintf_hexByte (b : Byte) {fmt out : List Byte} {ap : List Arg}
    (h : chvprintf ftoa fmt ap = .ok out) :
    chvprintf ftoa (0x25#8 :: 0x30#8 :: 0x32#8 :: 0x58#8 :: fmt) (byteArg b :: ap) =
      .ok (hexByte b ++ out) :=
  chvprintf_02X b rfl h

/-- `%s`. -/
theorem chvprintf_str (s : CStr) {fmt out : List Byte} {ap : List Arg}
    (h : chvprintf ftoa fmt ap = .ok out) :
    chvprintf ftoa (0x25#8 :: 0x73#8 :: fmt) (strArg s :: ap) =
      .ok (s.chars.take 32767 ++ out) :=
  chvprintf_s (by simp [strArg]) rfl h

/-- A text without conversions. -/
def Literal (text : List Byte) : Prop := ∀ c ∈ text, c ≠ 0#8 ∧ c ≠ 0x25#8

theorem chvprintf_literal {text : List Byte} (h : Literal text) :
    chvprintf ftoa text [] = .ok text := by
  have hnil : chvprintf ftoa [] [] = .ok [] := chvprintf_nil []
  have happend := chvprintf_append h hnil
  rwa [List.append_nil] at happend

/-- The end of a line. -/
def crlf : List Byte := [0x0D#8, 0x0A#8]

theorem chvprintf_crlf : chvprintf ftoa crlf [] = .ok crlf := by
  apply chvprintf_literal
  simp [Literal, crlf]

/-- A line with an address. -/
theorem chvprintf_addr {head : List Byte} (h : Literal head) (addr : U32) :
    chvprintf ftoa (head ++ ascii "%d.%d.%d.%d\r\n") (addrArgs addr) =
      .ok (head ++ (dotted addr ++ crlf)) := by
  have hfmt : ascii "%d.%d.%d.%d\r\n" =
      0x25#8 :: 0x64#8 :: ([0x2E#8] ++ 0x25#8 :: 0x64#8 :: ([0x2E#8] ++ 0x25#8 :: 0x64#8 ::
        ([0x2E#8] ++ 0x25#8 :: 0x64#8 :: crlf))) := by
    simp [ascii, crlf]
  have hdot : Literal [0x2E#8] := by simp [Literal]
  have htext : dotted addr ++ crlf = decimalText (octet addr 0) ++ ([0x2E#8] ++
      (decimalText (octet addr 1) ++ ([0x2E#8] ++ (decimalText (octet addr 2) ++ ([0x2E#8] ++
        (decimalText (octet addr 3) ++ crlf)))))) := by
    simp [dotted]
  rw [hfmt, htext]
  exact chvprintf_append h (chvprintf_byte _ (chvprintf_append hdot (chvprintf_byte _
    (chvprintf_append hdot (chvprintf_byte _ (chvprintf_append hdot (chvprintf_byte _
      chvprintf_crlf)))))))

/-- A line with a string. -/
theorem chvprintf_line {head : List Byte} (h : Literal head) (s : CStr) {tail : List Byte}
    (ht : Literal tail) :
    chvprintf ftoa (head ++ (0x25#8 :: 0x73#8 :: tail)) [strArg s] =
      .ok (head ++ (s.chars.take 32767 ++ tail)) :=
  chvprintf_append h (chvprintf_str s (chvprintf_literal ht))

/-- The bytes of the hardware address. -/
theorem chvprintf_mac {head : List Byte} (h : Literal head) (mac : Vector Byte 6) :
    chvprintf ftoa (head ++ ascii "%02X:%02X:%02X:%02X:%02X:%02X\r\n")
        (mac.toList.map byteArg) =
      .ok (head ++ ((mac.toList.map hexByte).intersperse [0x3A#8]).flatten ++ crlf) := by
  have hfmt : ascii "%02X:%02X:%02X:%02X:%02X:%02X\r\n" =
      0x25#8 :: 0x30#8 :: 0x32#8 :: 0x58#8 :: ([0x3A#8] ++ 0x25#8 :: 0x30#8 :: 0x32#8 :: 0x58#8 ::
        ([0x3A#8] ++ 0x25#8 :: 0x30#8 :: 0x32#8 :: 0x58#8 :: ([0x3A#8] ++ 0x25#8 :: 0x30#8 ::
          0x32#8 :: 0x58#8 :: ([0x3A#8] ++ 0x25#8 :: 0x30#8 :: 0x32#8 :: 0x58#8 :: ([0x3A#8] ++
            0x25#8 :: 0x30#8 :: 0x32#8 :: 0x58#8 :: crlf))))) := by
    simp [ascii, crlf]
  have hcolon : Literal [0x3A#8] := by simp [Literal]
  obtain ⟨bytes, hsize⟩ : ∃ bytes, mac.toList = bytes := ⟨_, rfl⟩
  have hlen : bytes.length = 6 := by
    rw [← hsize]
    exact Vector.length_toList
  match bytes, hlen with
  | [b0, b1, b2, b3, b4, b5], _ =>
      have hcrlf : chvprintf ftoa crlf [] = .ok crlf := chvprintf_crlf
      have hprint := chvprintf_append h (chvprintf_hexByte b0 (chvprintf_append hcolon
        (chvprintf_hexByte b1 (chvprintf_append hcolon (chvprintf_hexByte b2
          (chvprintf_append hcolon (chvprintf_hexByte b3 (chvprintf_append hcolon
            (chvprintf_hexByte b4 (chvprintf_append hcolon (chvprintf_hexByte b5 hcrlf)))))))))))
      rw [hsize, hfmt]
      simpa using hprint

/-! ## The commands -/

/-- A line of `net_info`. -/
def infoLine (head text : List Byte) : List Byte := head ++ (text ++ crlf)

/-- What `net_info` prints for an interface. -/
def infoText (netif : Netif) : List Byte :=
  ascii "Current Network Configuration:\r\n" ++
    infoLine (ascii "  Interface:  ") (netif.name.1 :: netif.name.2 :: decimalText netif.num) ++
    infoLine (ascii "  IP Address: ") (dotted netif.ipAddr) ++
    infoLine (ascii "  Gateway:    ") (dotted netif.gw) ++
    infoLine (ascii "  Netmask:    ") (dotted netif.netmask) ++
    infoLine (ascii "  MAC:        ")
      ((netif.hwaddr.toList.map hexByte).intersperse [0x3A#8]).flatten ++
    infoLine (ascii "  Link:       ") (if netif.linkUp then ascii "UP" else ascii "DOWN") ++
    infoLine (ascii "  Status:     ") (if netif.up then ascii "UP" else ascii "DOWN")

theorem chvprintf_upDown {head : List Byte} (h : Literal head) (b : Bool) :
    chvprintf ftoa (head ++ ascii "%s\r\n") [upDown b] =
      .ok (infoLine head (if b then ascii "UP" else ascii "DOWN")) := by
  have hfmt : ascii "%s\r\n" = 0x25#8 :: 0x73#8 :: crlf := by simp [ascii, crlf]
  have hcrlf : Literal crlf := by simp [Literal, crlf]
  rw [hfmt, upDown, chvprintf_line h _ hcrlf]
  cases b <;> simp [infoLine, ascii]

/-- `net_info` prints the interface. -/
theorem cmdNetInfo_eq (netif : Netif) :
    cmdNetInfo ftoa (some netif) [] = .ok (infoText netif) := by
  have hname : chvprintf ftoa (ascii "  Interface:  %c%c%d\r\n")
      [byteArg netif.name.1, byteArg netif.name.2, byteArg netif.num] =
      .ok (infoLine (ascii "  Interface:  ")
        (netif.name.1 :: netif.name.2 :: decimalText netif.num)) := by
    have hfmt : ascii "  Interface:  %c%c%d\r\n" = ascii "  Interface:  " ++
        0x25#8 :: 0x63#8 :: 0x25#8 :: 0x63#8 :: 0x25#8 :: 0x64#8 :: crlf := by
      simp [ascii, crlf]
    have hhead : Literal (ascii "  Interface:  ") := by simp [Literal, ascii]
    have hcrlf : chvprintf ftoa crlf [] = .ok crlf := chvprintf_crlf
    have hprint := chvprintf_append hhead (chvprintf_c (byteArg netif.name.1)
      (chvprintf_c (byteArg netif.name.2) (chvprintf_byte netif.num hcrlf)))
    rw [hfmt, hprint]
    simp [infoLine, byteArg]
  have hline : ∀ (fmt head : String), ascii fmt = ascii head ++ ascii "%d.%d.%d.%d\r\n" →
      Literal (ascii head) → ∀ addr, chvprintf ftoa (ascii fmt) (addrArgs addr) =
        .ok (infoLine (ascii head) (dotted addr)) := by
    intro fmt head hfmt hhead addr
    rw [hfmt, chvprintf_addr hhead]
    rfl
  have hstate : ∀ (fmt head : String), ascii fmt = ascii head ++ ascii "%s\r\n" →
      Literal (ascii head) → ∀ b, chvprintf ftoa (ascii fmt) [upDown b] =
        .ok (infoLine (ascii head) (if b then ascii "UP" else ascii "DOWN")) := by
    intro fmt head hfmt hhead b
    rw [hfmt, chvprintf_upDown hhead]
  have hmac : chvprintf ftoa (ascii "  MAC:        %02X:%02X:%02X:%02X:%02X:%02X\r\n")
      (netif.hwaddr.toList.map byteArg) = .ok (infoLine (ascii "  MAC:        ")
        ((netif.hwaddr.toList.map hexByte).intersperse [0x3A#8]).flatten) := by
    have hfmt : ascii "  MAC:        %02X:%02X:%02X:%02X:%02X:%02X\r\n" =
        ascii "  MAC:        " ++ ascii "%02X:%02X:%02X:%02X:%02X:%02X\r\n" := by
      simp [ascii]
    rw [hfmt, chvprintf_mac (by simp [Literal, ascii]), infoLine, List.append_assoc]
  simp only [cmdNetInfo, hname, hmac, ok_bind,
    hline "  IP Address: %d.%d.%d.%d\r\n" "  IP Address: " (by simp [ascii])
      (by simp [Literal, ascii]),
    hline "  Gateway:    %d.%d.%d.%d\r\n" "  Gateway:    " (by simp [ascii])
      (by simp [Literal, ascii]),
    hline "  Netmask:    %d.%d.%d.%d\r\n" "  Netmask:    " (by simp [ascii])
      (by simp [Literal, ascii]),
    hstate "  Link:       %s\r\n" "  Link:       " (by simp [ascii]) (by simp [Literal, ascii]),
    hstate "  Status:     %s\r\n" "  Status:     " (by simp [ascii]) (by simp [Literal, ascii])]
  rfl

/-- The addresses in the arguments of `net_config`: the interface's own, the
gateway's and the mask. -/
def configOf : List CStr → Option (U32 × U32 × U32)
  | [ipStr, gatewayStr, netmaskStr] => do
      let ip ← ip4addrAton ipStr.chars
      let gateway ← ip4addrAton gatewayStr.chars
      let netmask ← ip4addrAton netmaskStr.chars
      pure (ip, gateway, netmask)
  | _ => none

def Netif.configure (netif : Netif) (config : U32 × U32 × U32) : Netif :=
  { netif with ipAddr := config.1, gw := config.2.1, netmask := config.2.2 }

theorem setAddresses_eq (netif : Netif) (ip netmask gw : U32) :
    setAddresses netif ip netmask gw = netif.configure (ip, gw, netmask) := by
  have hip : ∀ (n : Netif) a, netifSetIpaddr n a = { n with ipAddr := a } := by
    intro n a
    unfold netifSetIpaddr
    split <;> simp_all
  have hmask : ∀ (n : Netif) a, netifSetNetmask n a = { n with netmask := a } := by
    intro n a
    unfold netifSetNetmask
    split <;> simp_all
  have hgw : ∀ (n : Netif) a, netifSetGw n a = { n with gw := a } := by
    intro n a
    unfold netifSetGw
    split <;> simp_all
  rw [setAddresses, hip, hmask, hgw]
  rfl

section Config

variable {dhcpStart dhcpStop : Netif → Netif}

/-- The state after a change in static mode. -/
def Lwip.configure (s : Lwip) (config : U32 × U32 × U32) : Lwip :=
  ⟨s.thisif.configure config, .static, config.1, config.2.1, config.2.2⟩

theorem doReconfigure_static {s : Lwip} (h : s.addressMode = .static) (ip netmask gw : U32) :
    doReconfigure dhcpStart dhcpStop s ⟨ip, netmask, gw, .static⟩ =
      s.configure (ip, gw, netmask) := by
  simp only [doReconfigure, h, setAddresses_eq]
  rfl

theorem chvprintf_reconfigured (ftoa : Bool → Int → List Arg → Except Fault (List Byte × List Arg))
    (a b c : CStr) :
    ∃ log, chvprintf ftoa
      (ascii "Network reconfigured to:\n  IP:      %s\n  Gateway: %s\n  Netmask: %s\n")
      [strArg a, strArg b, strArg c] = .ok log := by
  have hfmt : ascii
      "Network reconfigured to:\n  IP:      %s\n  Gateway: %s\n  Netmask: %s\n" =
      ascii "Network reconfigured to:\n  IP:      " ++ (0x25#8 :: 0x73#8 ::
        (ascii "\n  Gateway: " ++ (0x25#8 :: 0x73#8 ::
          (ascii "\n  Netmask: " ++ (0x25#8 :: 0x73#8 :: [0x0A#8]))))) := by
    simp [ascii]
  have hhead : Literal (ascii "Network reconfigured to:\n  IP:      ") := by
    simp [Literal, ascii]
  have hgateway : Literal (ascii "\n  Gateway: ") := by simp [Literal, ascii]
  have hnetmask : Literal (ascii "\n  Netmask: ") := by simp [Literal, ascii]
  have hlf : Literal [0x0A#8] := by simp [Literal]
  rw [hfmt]
  exact ⟨_, chvprintf_append hhead (chvprintf_str a (chvprintf_append hgateway (chvprintf_str b
    (chvprintf_append hnetmask (chvprintf_str c (chvprintf_literal hlf))))))⟩

/-- **`net_config` is all or nothing.**  In static mode it sets the three
addresses, if all three are addresses and lwIP takes the message, and otherwise
nothing; and it waits for ever if lwIP does not. -/
theorem cmdNetConfig_eq {s : Lwip} (h : s.addressMode = .static) (posted : Bool)
    (argv : List CStr) :
    ∃ out, cmdNetConfig dhcpStart dhcpStop ftoa posted s argv =
      .ok ((if posted then configOf argv else none).elim s s.configure, out,
        !posted && (configOf argv).isSome) := by
  have hline : ∀ (fmt head : String) (tail : List Byte),
      ascii fmt = ascii head ++ (0x25#8 :: 0x73#8 :: tail) → Literal (ascii head) →
        Literal tail → ∀ a, ∃ out, chvprintf ftoa (ascii fmt) [strArg a] = .ok out := by
    intro fmt head tail hfmt hhead htail a
    rw [hfmt, chvprintf_line hhead a htail]
    exact ⟨_, rfl⟩
  have hcrlf : Literal crlf := by simp [Literal, crlf]
  have hlf : Literal [0x0A#8] := by simp [Literal]
  match argv with
  | [] => exact ⟨_, by cases posted <;> rfl⟩
  | [_] => exact ⟨_, by cases posted <;> rfl⟩
  | [_, _] => exact ⟨_, by cases posted <;> rfl⟩
  | _ :: _ :: _ :: _ :: _ => exact ⟨_, by cases posted <;> rfl⟩
  | [a, b, c] =>
      obtain ⟨ip, hip⟩ := hline "  IP:      %s\r\n" "  IP:      " crlf (by simp [ascii, crlf])
        (by simp [Literal, ascii]) hcrlf a
      obtain ⟨gateway, hgateway⟩ := hline "  Gateway: %s\r\n" "  Gateway: " crlf
        (by simp [ascii, crlf]) (by simp [Literal, ascii]) hcrlf b
      obtain ⟨netmask, hnetmask⟩ := hline "  Netmask: %s\r\n" "  Netmask: " crlf
        (by simp [ascii, crlf]) (by simp [Literal, ascii]) hcrlf c
      have hreconf : ∃ log result,
          networkReconfigure dhcpStart dhcpStop ftoa posted s a b c =
            .ok ((if posted then configOf [a, b, c] else none).elim s s.configure, log, result) ∧
          result.isNone = (!posted && (configOf [a, b, c]).isSome) := by
        rw [networkReconfigure, configOf]
        cases hA : ip4addrAton a.chars with
        | none =>
            obtain ⟨log, hlog⟩ := hline "Error: Invalid IP address format: %s\n"
              "Error: Invalid IP address format: " [0x0A#8] (by simp [ascii])
              (by simp [Literal, ascii]) hlf a
            exact ⟨log, some false, by rw [hlog]; cases posted <;> rfl, by cases posted <;> rfl⟩
        | some x =>
            cases hB : ip4addrAton b.chars with
            | none =>
                obtain ⟨log, hlog⟩ := hline "Error: Invalid gateway address format: %s\n"
                  "Error: Invalid gateway address format: " [0x0A#8] (by simp [ascii])
                  (by simp [Literal, ascii]) hlf b
                exact ⟨log, some false, by rw [hlog]; cases posted <;> rfl,
                  by cases posted <;> rfl⟩
            | some y =>
                cases hC : ip4addrAton c.chars with
                | none =>
                    obtain ⟨log, hlog⟩ := hline "Error: Invalid netmask format: %s\n"
                      "Error: Invalid netmask format: " [0x0A#8] (by simp [ascii])
                      (by simp [Literal, ascii]) hlf c
                    exact ⟨log, some false, by rw [hlog]; cases posted <;> rfl,
                      by cases posted <;> rfl⟩
                | some z =>
                    obtain ⟨log, hlog⟩ := chvprintf_reconfigured ftoa a b c
                    cases posted with
                    | false => exact ⟨[], none, rfl, rfl⟩
                    | true =>
                        exact ⟨log, some true, by
                          simp only [lwipReconfigure, if_true, hlog, ok_bind,
                            doReconfigure_static h]
                          rfl, rfl⟩
      obtain ⟨log, result, hreconf, hwaits⟩ := hreconf
      simp only [cmdNetConfig, hip, hgateway, hnetmask, hreconf, ok_bind, hwaits]
      exact ⟨_, rfl⟩

end Config

end Lines

/-! ## Typing it back -/

theorem dotted_chars (addr : U32) :
    ∀ b ∈ dotted addr, isDigit 10 b = true ∨ b = 0x2E#8 := by
  have hdigits : ∀ i, ∀ b ∈ decimalText (octet addr i), isDigit 10 b = true := by
    intro i
    rw [← numeral_eq_decimalText]
    exact List.all_eq_true.mp (all_numeral (by decide) (by decide) _)
  intro b hb
  simp only [dotted, List.mem_append, List.mem_cons] at hb
  obtain hb | hb | hb | hb | hb | hb | hb := hb
  · exact Or.inl (hdigits 0 b hb)
  · exact Or.inr hb
  · exact Or.inl (hdigits 1 b hb)
  · exact Or.inr hb
  · exact Or.inl (hdigits 2 b hb)
  · exact Or.inr hb
  · exact Or.inl (hdigits 3 b hb)

theorem dotted_nonzero (addr : U32) : ∀ b ∈ dotted addr, b ≠ 0#8 := by
  rintro b hb rfl
  have h := dotted_chars addr 0#8 hb
  revert h
  decide

/-- An address as a string. -/
def dottedStr (addr : U32) : CStr := ⟨dotted addr, dotted_nonzero addr⟩

theorem configOf_dotted (ip gw netmask : U32) :
    configOf [dottedStr ip, dottedStr gw, dottedStr netmask] = some (ip, gw, netmask) := by
  have hread : ∀ addr, ip4addrAton (dottedStr addr).chars = some addr := by
    intro addr
    have h : ip4addrAton (dotted addr ++ []) = some addr := aton_dotted addr rfl
    rwa [List.append_nil] at h
  simp [configOf, hread]

end DsEthComm.Udp.Network
