import DsEthComm.Conc.Pool
import DsEthComm.CString

/-!
# DsEthComm.Udp.Destination

`udp_dest_ip`, the address to which `UdpServerThread` sends, and the two
functions that write and read it.

`inet_aton` belongs to the network stack and is a parameter: a function of
the string that tells whether it is an address, and which one.  The sections
between `chMtxLock` and `chMtxUnlock` are the operations, so that threads
interleave between them; everything else a call does is private to it.
-/

namespace DsEthComm.Udp

open Conc

/-! ## The functions -/

/-- What the functions do outside of their own variables. -/
inductive Op where
  /-- The locked section of `udp_set_destination`. -/
  | store (dest : CStr)
  /-- The locked section of `udp_get_destination`, which copies to `dst`. -/
  | load (n : Nat) (dst : CharArray n)
  /-- `chprintf` with one string. -/
  | print (fmt : String) (arg : List Byte)

def Op.Res : Op → Type
  | .store _ | .print _ _ => Unit
  | .load n _ => CharArray n

def destSig : Sig := ⟨Op, Op.Res⟩

abbrev Code := Prog destSig

/-- Perform an operation. -/
abbrev perf (o : Op) : Code o.Res := Prog.call (S := destSig) o

abbrev store (dest : CStr) : Code Unit := perf (.store dest)
abbrev load (n : Nat) (dst : CharArray n) : Code (CharArray n) := perf (.load n dst)
abbrev print (fmt : String) (arg : List Byte) : Code Unit := perf (.print fmt arg)

/-- `sizeof(udp_dest_ip)`. -/
def sizeofDestIp : Nat := 16

section Functions

variable {A : Type} (inetAton : List Byte → Option A)

/-- `udp_set_destination`; `none` is `NULL`. -/
def udpSetDestination : Option CStr → Code Bool
  | none => pure false
  | some dest =>
      if dest.chars.length = 0 ∨ dest.chars.length ≥ sizeofDestIp then pure false
      else match inetAton dest.chars with
        | none => do
            print "Error: Invalid IP address format: %s\n" dest.chars
            pure false
        | some _ => do
            store dest
            print "UDP destination IP updated to: %s\n" dest.chars
            pure true

/-- `udp_get_destination` with a buffer of `n` bytes. -/
def udpGetDestination {n : Nat} (dst : CharArray n) : Code (CharArray n) :=
  if n = 0 then pure dst else load n dst

/-- A call, or one round of `UdpServerThread`. -/
inductive Call where
  | set (dest : Option CStr)
  /-- `none` is a `NULL` buffer. -/
  | get (dst : Option ((n : Nat) × CharArray n))
  /-- `stack` is what `current_dest_ip` holds before the round. -/
  | serve (stack : CharArray sizeofDestIp)

/-- What a call ends with. -/
inductive Return (A : Type) where
  | set (ok : Bool)
  | null
  | got (n : Nat) (buf : CharArray n)
  /-- The branch "if invalid IP, skip this send". -/
  | skipped
  /-- `sendto` this address. -/
  | sent (addr : A)

def Call.code : Call → Code (Return A)
  | .set dest => do
      let ok ← udpSetDestination inetAton dest
      pure (.set ok)
  | .get none => pure .null
  | .get (some ⟨n, dst⟩) => do
      let buf ← udpGetDestination dst
      pure (.got n buf)
  | .serve stack => do
      let current ← udpGetDestination stack
      match inetAton current.str with
      | none => pure .skipped
      | some addr => pure (.sent addr)

end Functions

/-! ## The system -/

/-- `"192.168.0.10"`. -/
def defaultIp : CStr where
  chars := [0x31#8, 0x39#8, 0x32#8, 0x2E#8, 0x31#8, 0x36#8, 0x38#8, 0x2E#8, 0x30#8, 0x2E#8,
    0x31#8, 0x30#8]
  nonzero := by decide

/-- `static char udp_dest_ip[16] = "192.168.0.10";`. -/
def initial : CharArray sizeofDestIp where
  bytes := defaultIp.chars ++ List.replicate 4 0#8
  size := rfl

def perform (a : CharArray sizeofDestIp) (o : Op) : CharArray sizeofDestIp × o.Res :=
  match o with
  | .store dest => (a.copy dest.chars, ())
  | .load _ dst => (a, dst.copy a.str)
  | .print _ _ => (a, ())

/-- What the calls did: the argument of the last store and, for each thread,
whether its call stored something and what it found. -/
structure History (τ : Type) where
  last : List Byte
  stored : τ → Bool
  seen : τ → List Byte

section System

variable {A τ : Type} [DecidableEq τ] (inetAton : List Byte → Option A)

/-- Any threads make any calls. -/
def destPool : Pool destSig (CharArray sizeofDestIp) τ Call (Return A) Unit Empty where
  code := Call.code inetAton
  enter _ _ a := some a
  perform _ _ a o _ := perform a o
  leave _ _ _ a := a
  env e := nomatch e

def historian :
    Pool.Observer destSig (CharArray sizeofDestIp) τ Call (Return A) Empty (History τ) where
  enter t _ _ h := { h with stored := Function.update h.stored t false }
  perform t _ a o _ h := match (o : Op) with
    | .store dest => { h with last := dest.chars, stored := Function.update h.stored t true }
    | .load _ _ => { h with seen := Function.update h.seen t a.str }
    | .print _ _ => h
  leave _ _ _ _ h := h
  env e := nomatch e

def destSystem :
    Pool destSig (CharArray sizeofDestIp × History τ) τ Call (Return A) Unit Empty :=
  (destPool inetAton).observe historian

abbrev State (A τ : Type) := Conf destSig (CharArray sizeofDestIp × History τ) τ Call (Return A)

abbrev Label (τ : Type) := PoolLabel τ Call Unit Empty

/-- No call has begun. -/
def start : State A τ :=
  Pool.start (initial, ⟨defaultIp.chars, fun _ => false, fun _ => []⟩)

/-! ## The property -/

/-- `inet_aton` takes the string, and it fits with its `NUL`. -/
structure Accepted (s : List Byte) : Prop where
  fits : s.length < sizeofDestIp
  isSome : (inetAton s).isSome = true

/-- A section of `udp_get_destination` and what it copied. -/
structure Load where
  n : Nat
  dst : CharArray n
  result : CharArray n

/-- What a call has done so far. -/
structure Local where
  stored : Bool
  loaded : Option Load

/-- Only addresses are stored. -/
def monitor : Monitor destSig Local where
  pre _ o := match (o : Op) with
    | .store dest => Accepted inetAton dest.chars
    | .load n _ => 0 < n
    | .print _ _ => True
  may _ _ _ := True
  next l o r := match (o : Op), r with
    | .store _, _ => { l with stored := true }
    | .load n dst, r => { l with loaded := some ⟨n, dst, r⟩ }
    | .print _ _, _ => l

/-- How a call ends. -/
def Ends : Call → Return A → Local → Prop
  | .set _, r, l => r = .set l.stored
  | .get none, r, _ => r = .null
  | .get (some ⟨n, dst⟩), r, l => ∃ buf : CharArray n, r = .got n buf ∧
      (n = 0 → buf = dst) ∧ (0 < n → l.loaded = some ⟨n, dst, buf⟩)
  | .serve stack, r, l => ∃ buf, l.loaded = some ⟨sizeofDestIp, stack, buf⟩ ∧
      r = match inetAton buf.str with
        | none => .skipped
        | some addr => .sent addr

theorem wp_udpSetDestination (dest : Option CStr) :
    (udpSetDestination inetAton dest).wp (monitor inetAton) (fun ok l => ok = l.stored)
      ⟨false, none⟩ := by
  cases dest with
  | none => rfl
  | some dest =>
      rw [udpSetDestination, Prog.wp_ite]
      refine ⟨fun _ => rfl, fun hlen => ?_⟩
      have hfits : dest.chars.length < sizeofDestIp := by omega
      cases haddr : inetAton dest.chars with
      | none => exact ⟨trivial, fun _ _ => rfl⟩
      | some addr => exact ⟨⟨hfits, by rw [haddr]; rfl⟩, fun _ _ => ⟨trivial, fun _ _ => rfl⟩⟩

theorem wp_udpGetDestination {n : Nat} (dst : CharArray n) :
    (udpGetDestination dst).wp (monitor inetAton)
      (fun buf l => (n = 0 → buf = dst) ∧ (0 < n → l.loaded = some ⟨n, dst, buf⟩))
      ⟨false, none⟩ := by
  rw [udpGetDestination, Prog.wp_ite]
  refine ⟨fun hn => ⟨fun _ => rfl, fun hpos => by omega⟩, fun hn => ?_⟩
  exact ⟨Nat.pos_of_ne_zero hn, fun buf _ => ⟨fun hzero => absurd hzero hn, fun _ => rfl⟩⟩

theorem wp_code (i : Call) :
    (Call.code inetAton i).wp (monitor inetAton) (Ends inetAton i) ⟨false, none⟩ := by
  cases i with
  | set dest =>
      rw [Call.code, Prog.bind_eq, Prog.wp_bind]
      refine Prog.wp_mono ?_ (wp_udpSetDestination inetAton dest)
      rintro ok l rfl
      rfl
  | get dst =>
      cases dst with
      | none => rfl
      | some x =>
          obtain ⟨n, dst⟩ := x
          rw [Call.code, Prog.bind_eq, Prog.wp_bind]
          refine Prog.wp_mono ?_ (wp_udpGetDestination inetAton dst)
          intro buf l hbuf
          exact ⟨buf, rfl, hbuf⟩
  | serve stack =>
      rw [Call.code, Prog.bind_eq, Prog.wp_bind]
      refine Prog.wp_mono ?_ (wp_udpGetDestination inetAton stack)
      rintro buf l ⟨-, hloaded⟩
      have hres : ∀ o : Option A, (match o with
          | none => pure Return.skipped
          | some addr => pure (Return.sent addr) : Code (Return A)) = .pure (match o with
          | none => .skipped
          | some addr => .sent addr) := by
        intro o
        cases o <;> rfl
      rw [hres]
      exact ⟨buf, hloaded (by decide), rfl⟩

/-! ## Whole runs -/

/-- What a call has done so far is what the history says of its thread. -/
structure Recorded (h : History τ) (t : τ) (l : Local) : Prop where
  stored : h.stored t = l.stored
  loaded : ∀ ld, l.loaded = some ld → ld.result = ld.dst.copy (h.seen t) ∧
    Accepted inetAton (h.seen t) ∧ ∀ b ∈ h.seen t, b ≠ 0#8

/-- The array and the history agree, and so do the calls with their part of
the history. -/
structure Agree (x : CharArray sizeofDestIp × History τ) (loc : τ → Option Local) : Prop where
  terminated : x.1.Terminated
  last : x.1.str = x.2.last
  accepted : Accepted inetAton x.1.str
  recorded : ∀ t l, loc t = some l → Recorded inetAton x.2 t l

variable {inetAton}

omit [DecidableEq τ] in
theorem agree_start (h : (inetAton defaultIp.chars).isSome = true) :
    Agree inetAton (initial, (⟨defaultIp.chars, fun _ => false, fun _ => []⟩ : History τ))
      (fun _ => none) := by
  have hterm : initial.Terminated := by
    unfold CharArray.Terminated
    decide
  have hfits : initial.str.length < sizeofDestIp := by decide
  exact ⟨hterm, rfl, ⟨hfits, h⟩, nofun⟩

section Steps

variable {a : CharArray sizeofDestIp} {h : History τ} {loc : τ → Option Local}

theorem Agree.enter (hR : Agree inetAton (a, h) loc) (t : τ) :
    Agree inetAton (a, { h with stored := Function.update h.stored t false })
      (Function.update loc t (some ⟨false, none⟩)) := by
  refine ⟨hR.terminated, hR.last, hR.accepted, Pool.forall_update_some ?_ ?_ hR.recorded⟩
  · exact ⟨Function.update_self .., nofun⟩
  · intro u l hu hl
    exact ⟨(Function.update_of_ne hu ..).trans hl.stored, hl.loaded⟩

/-- The section of `udp_set_destination`. -/
theorem Agree.store (hR : Agree inetAton (a, h) loc) {t : τ} {l : Local} (hl : loc t = some l)
    {dest : CStr} (hdest : Accepted inetAton dest.chars) :
    Agree inetAton (a.copy dest.chars,
        { h with last := dest.chars, stored := Function.update h.stored t true })
      (Function.update loc t (some { l with stored := true })) := by
  have hstr : (a.copy dest.chars).str = dest.chars := by
    have hfits := hdest.fits
    rw [CharArray.str_copy _ dest.nonzero (by decide), List.take_of_length_le (by omega)]
  refine ⟨CharArray.terminated_copy _ _ (by decide), hstr, ?_,
    Pool.forall_update_some ?_ ?_ hR.recorded⟩
  · show Accepted inetAton (a.copy dest.chars).str
    rw [hstr]
    exact hdest
  · exact ⟨Function.update_self .., (hR.recorded t l hl).loaded⟩
  · intro u l hu hl
    exact ⟨(Function.update_of_ne hu ..).trans hl.stored, hl.loaded⟩

/-- The section of `udp_get_destination`. -/
theorem Agree.load (hR : Agree inetAton (a, h) loc) {t : τ} {l : Local} (hl : loc t = some l)
    (n : Nat) (dst : CharArray n) :
    Agree inetAton (a, { h with seen := Function.update h.seen t a.str })
      (Function.update loc t (some { l with loaded := some ⟨n, dst, dst.copy a.str⟩ })) := by
  refine ⟨hR.terminated, hR.last, hR.accepted, Pool.forall_update_some ?_ ?_ hR.recorded⟩
  · refine ⟨(hR.recorded t l hl).stored, fun ld hld => ?_⟩
    obtain rfl := Option.some.inj hld
    have hseen : Function.update h.seen t a.str t = a.str := Function.update_self ..
    simp only [hseen]
    exact ⟨trivial, hR.accepted, a.str_nonzero⟩
  · intro u l hu hl
    have hseen : Function.update h.seen t a.str u = h.seen u := Function.update_of_ne hu ..
    refine ⟨hl.stored, fun ld hld => ?_⟩
    simp only [hseen]
    exact hl.loaded ld hld

theorem Agree.leave (hR : Agree inetAton (a, h) loc) (t : τ) :
    Agree inetAton (a, h) (Function.update loc t none) :=
  ⟨hR.terminated, hR.last, hR.accepted, Pool.forall_update_none hR.recorded t⟩

end Steps

def Inv (inetAton : List Byte → Option A) (c : State A τ) : Prop :=
  ∃ loc, Pool.Follows (fun _ _ => monitor inetAton) (fun _ i r l => Ends inetAton i r l) c loc ∧
    Agree inetAton c.shared loc

theorem inv_step (c : State A τ) (l : Label τ) (c' : State A τ) (hc : Inv inetAton c)
    (h : (destSystem inetAton).step c l = some c') : Inv inetAton c' := by
  have hok : Unconditional c l := trivial
  refine Pool.step_follows (R := Agree inetAton) (destSystem inetAton) ?_ ?_ ?_ ?_ c l c' hc hok h
  · intro c loc t i x hR _ _ hs
    obtain rfl := Option.some.inj hs
    exact ⟨⟨false, none⟩, wp_code inetAton i, hR.enter t⟩
  · intro c loc t i o k a l _ hR _ hl hpre _
    refine ⟨trivial, ?_⟩
    cases o with
    | store dest => exact hR.store hl hpre
    | load n dst => exact hR.load hl n dst
    | print fmt arg =>
        have hsame : Function.update loc t (some l) = loc := by
          rw [← hl, Function.update_eq_self]
        show Agree inetAton c.shared (Function.update loc t (some l))
        rw [hsame]
        exact hR
  · intro c loc t i r l hR _ _ _ _
    exact hR.leave t
  · intro c loc e
    exact nomatch e

end System

/-- `"10.0.0.1"`. -/
def otherIp : CStr where
  chars := [0x31#8, 0x30#8, 0x2E#8, 0x30#8, 0x2E#8, 0x30#8, 0x2E#8, 0x31#8]
  nonzero := by decide

/-- One thread sets an address while another is about to send. -/
def sampleRun : List (Label Bool) :=
  [.enter true (.serve initial), .enter false (.set (some otherIp)), .exec false (),
    .exec true (), .exec false ()]

end DsEthComm.Udp
