import DsEthComm.Conc.Pool
import DsEthComm.Rtt.Ring

/-!
# DsEthComm.Rtt.Link.System

A ring with its two sides.  Any number of threads write and any number read,
one of each side at a time: the threads of the target take `SEGGER_RTT_LOCK`,
the debug probe is alone.  Between the two sides there is no lock, and they
interleave at every access to the control block and the buffer.

Besides the system, this says what it is for and what one call relies on
while the other side goes on.
-/

namespace DsEthComm.Rtt

open Conc Cyclic

/-! ## The system -/

/-- A call of the interface.  `fuel` bounds how long it waits. -/
inductive Call where
  | write (data : List Byte) (fuel : Nat)
  | writeSkip (data : List Byte)
  | putChar (c : Byte) (fuel : Nat)
  | putCharSkip (c : Byte)
  | setTerminal (terminalId fuel : Nat)
  | terminalOut (terminalId : Nat) (s : List Byte) (fuel : Nat)
  | read (bufferSize : Nat)

def Call.reads : Call → Bool
  | .read _ => true
  | _ => false

inductive Return where
  | wrote (outcome : Outcome)
  | got (bytes : List Byte)
deriving DecidableEq

section System

variable (d : Desc)

/-- A call that writes. -/
def writing (p : Code Outcome) : Code Return := do
  let outcome ← p
  pure (.wrote outcome)

def Call.code : Call → Code Return
  | .write data fuel => writing (writeNoLock d data fuel)
  | .writeSkip data => writing (writeSkipNoLock d data)
  | .putChar c fuel => writing (Rtt.putChar d c fuel)
  | .putCharSkip c => writing (Rtt.putCharSkip d c)
  | .setTerminal terminalId fuel => writing (Rtt.setTerminal d terminalId fuel)
  | .terminalOut terminalId s fuel => writing (Rtt.terminalOut d terminalId s fuel)
  | .read bufferSize => do
      let bytes ← readNoLock d bufferSize
      pure (.got bytes)

/-- The ring, and which thread is in a call on each side. -/
structure Shared (τ : Type) where
  ring : Ring
  writer : Option τ
  reader : Option τ

/-- What has happened on a ring. -/
structure Log where
  /-- The bytes over which `WrOff` has moved. -/
  published : List Byte
  /-- How many there were when the last call that writes began. -/
  mark : Nat
  /-- How many cells were free then. -/
  room : Nat
  /-- What the calls that read returned. -/
  received : List Byte

variable {τ : Type} [DecidableEq τ]

/-- A call begins when no other of its side is going on. -/
def enter (t : τ) (i : Call) (s : Shared τ) : Option (Shared τ) :=
  if i.reads then
    match s.reader with
    | none => some { s with reader := some t }
    | some _ => none
  else
    match s.writer with
    | none => some { s with writer := some t }
    | some _ => none

def leave (i : Call) (s : Shared τ) : Shared τ :=
  if i.reads then { s with reader := none } else { s with writer := none }

def ringPool : Pool ringSig (Shared τ) τ Call Return Unit Empty where
  code := Call.code d
  enter := enter
  perform _ _ s o _ :=
    let x := perform s.ring o
    ({ s with ring := x.1 }, x.2)
  leave _ i _ s := leave i s
  env e := nomatch e

/-- The bytes that `WrOff` moves over. -/
def Ring.moved (r : Ring) (v : Nat) : List Byte := between d.sizeOfBuffer r.buffer r.wrOff v

def logger : Pool.Observer ringSig (Shared τ) τ Call Return Empty Log where
  enter _ i s l := if i.reads then l
    else { l with
      mark := l.published.length
      room := free d.sizeOfBuffer s.ring.rdOff s.ring.wrOff }
  perform _ _ s o _ l := match (o : Op) with
    | .storeWrOff v => { l with published := l.published ++ s.ring.moved d v }
    | _ => l
  leave _ _ r _ l := match r with
    | .got bytes => { l with received := l.received ++ bytes }
    | .wrote _ => l
  env e := nomatch e

def ringSystem : Pool ringSig (Shared τ × Log) τ Call Return Unit Empty :=
  (ringPool d).observe (logger d)

abbrev State (τ : Type) := Conf ringSig (Shared τ × Log) τ Call Return

abbrev Label (τ : Type) := PoolLabel τ Call Unit Empty

/-- The ring as `_DoInit` leaves it. -/
def Ring.initial : Ring := ⟨fun _ => 0, 0, 0, 0⟩

def start : State τ := Pool.start (⟨.initial, none, none⟩, ⟨[], 0, 0, []⟩)

/-! ## What it is for -/

/-- The bytes in a ring. -/
def Ring.contents (r : Ring) : List Byte := between d.sizeOfBuffer r.buffer r.rdOff r.wrOff

/-- What `SEGGER_RTT_TerminalOut` puts out for a part of its text. -/
def framed (terminalId active : Nat) (s : List Byte) : List Byte :=
  switchTo terminalId ++ s ++ switchTo active

/-- What a write of `data` owes in its mode, when `room` cells were free as it
began: all or nothing, as much as fits, or all. -/
structure Promised (mode : BitVec 32) (room : Nat) (data bytes : List Byte) : Prop where
  skip : mode = modeNoBlockSkip → bytes = data ∨ bytes = [] ∧ room < data.length
  trim : mode = modeNoBlockTrim → min room data.length ≤ bytes.length
  block : mode = modeBlockIfFifoFull → bytes = data

/-- Why `SEGGER_RTT_TerminalOut` puts out nothing. -/
def Refused (mode : BitVec 32) (room terminalId : Nat) (s : List Byte) : Prop :=
  aTerminalId.length ≤ terminalId ∨ mode = modeNoBlockSkip ∧ room < s.length + 4 ∨
    mode = modeNoBlockTrim ∧ room < 4 ∨
      mode ≠ modeNoBlockSkip ∧ mode ≠ modeNoBlockTrim ∧ mode ≠ modeBlockIfFifoFull

/-- How a call that published `bytes` may end, when `room` cells were free as
it began.  In skip mode a text goes out as a whole or not at all, in trim mode
what fits of it, in blocking mode as a whole once the other side has made
room.  Only in blocking mode does a call wait for that, and with two rounds
only for room that was not there. -/
def Ends (active room : Nat) (bytes : List Byte) : Call → Outcome → Prop
  | .write data _, .done k =>
      bytes = data.take k.toNat ∧ (bytes.length : Int) = k ∧
        Promised d.flags room data bytes
  | .write data fuel, .waiting =>
      d.flags = modeBlockIfFifoFull ∧ bytes <+: data ∧ (room < data.length ∨ fuel < 2)
  | .writeSkip data, o =>
      o = .done 1 ∧ bytes = data ∨ o = .done 0 ∧ bytes = [] ∧ room < data.length
  | .putChar c fuel, o => o = .done 1 ∧ bytes = [c] ∨
      o = .done 0 ∧ bytes = [] ∧ d.flags ≠ modeBlockIfFifoFull ∧ room = 0 ∨
      o = .waiting ∧ bytes = [] ∧ d.flags = modeBlockIfFifoFull ∧ (room = 0 ∨ fuel = 0)
  | .putCharSkip c, o =>
      o = .done 1 ∧ bytes = [c] ∨ o = .done 0 ∧ bytes = [] ∧ room = 0
  | .setTerminal terminalId _, .done k =>
      k = 0 ∧ bytes = switchTo terminalId ∧ active = terminalId ∨
      k = -1 ∧ bytes = [] ∧ (aTerminalId.length ≤ terminalId ∨
        d.flags &&& modeMask ≠ modeBlockIfFifoFull ∧ room < 2)
  | .setTerminal terminalId fuel, .waiting =>
      bytes <+: switchTo terminalId ∧ d.flags &&& modeMask = modeBlockIfFifoFull ∧
        (room < 2 ∨ fuel < 2)
  | .terminalOut terminalId s _, .done k =>
      bytes = framed terminalId active (s.take k.toNat) ∧ 0 ≤ k ∧
        Promised (d.flags &&& modeMask) (room - 4) s (s.take k.toNat) ∨
      bytes = [] ∧ k ≤ 0 ∧ Refused (d.flags &&& modeMask) room terminalId s
  | .terminalOut terminalId s fuel, .waiting =>
      (∃ s', s' <+: s ∧ bytes <+: framed terminalId active s') ∧
        (d.flags &&& modeMask = modeBlockIfFifoFull ∧ room < s.length + 4 ∨ fuel < 2)
  | .read _, _ => False

/-- The reader gets what was written. -/
structure InOrder (c : State τ) : Prop where
  /-- What was written is what `RdOff` has passed and what lies in the ring. -/
  nothingLost : ∃ passed, c.shared.2.published = passed ++ c.shared.1.ring.contents d ∧
    c.shared.2.received <+: passed ∧ (c.shared.1.reader = none → c.shared.2.received = passed)
  returns : ∀ t i o, c.job t = some (i, .pure (.wrote o)) →
    Ends d c.shared.1.ring.activeTerminal c.shared.2.room
      (c.shared.2.published.drop c.shared.2.mark) i o

/-! ## What a call relies on -/

/-- A call that writes, as far as it has come. -/
structure Writer where
  /-- `WrOff`. -/
  wr : Nat
  /-- At least so many cells are free from there on. -/
  room : Nat
  /-- Stored beyond `WrOff`. -/
  staged : List Byte
  /-- Published by this call. -/
  out : List Byte
  active : Nat
  /-- So many cells were free when it began. -/
  first : Nat

/-- A call that begins to write. -/
def Writer.start (d : Desc) (r : Ring) : Writer where
  wr := r.wrOff
  room := free d.sizeOfBuffer r.rdOff r.wrOff
  staged := []
  out := []
  active := r.activeTerminal
  first := free d.sizeOfBuffer r.rdOff r.wrOff

/-- A call that reads, as far as it has come. -/
structure Reader where
  /-- `RdOff`. -/
  rd : Nat
  /-- At least so many bytes are published from there on. -/
  avail : Nat
  /-- Loaded beyond `RdOff`. -/
  got : List Byte
  /-- Passed by `RdOff` in this call. -/
  consumed : List Byte

inductive Local where
  | writing (w : Writer)
  | reading (r : Reader)

/-- A writer stores behind what it has stored while there is room, a reader
loads behind what it has loaded while there is something. -/
def monitor : Monitor ringSig Local where
  pre l o := match l, (o : Op) with
    | .writing _, .loadWrOff | .writing _, .loadActiveTerminal => True
    | .writing w, .loadRdOff => w.staged = []
    | .writing w, .storeByte i _ =>
        i = (w.wr + w.staged.length) % d.sizeOfBuffer ∧ w.staged.length < w.room
    | .writing w, .storeWrOff v => v = (w.wr + w.staged.length) % d.sizeOfBuffer
    | .writing _, .storeActiveTerminal _ => True
    | .reading _, .loadRdOff | .reading _, .loadWrOff => True
    | .reading r, .loadByte i =>
        i = (r.rd + r.got.length) % d.sizeOfBuffer ∧ r.got.length < r.avail
    | .reading r, .storeRdOff v => v = (r.rd + r.got.length) % d.sizeOfBuffer
    | _, _ => False
  may l o x := match l, (o : Op), x with
    | .writing w, .loadWrOff, (v : Nat) => v = w.wr
    | .writing w, .loadRdOff, (v : Nat) =>
        v < d.sizeOfBuffer ∧ w.room ≤ free d.sizeOfBuffer v w.wr
    | .writing w, .loadActiveTerminal, (v : Nat) => v = w.active
    | .reading r, .loadRdOff, (v : Nat) => v = r.rd
    | .reading r, .loadWrOff, (v : Nat) =>
        v < d.sizeOfBuffer ∧ r.avail ≤ used d.sizeOfBuffer r.rd v
    | _, _, _ => True
  next l o x := match l, (o : Op), x with
    | .writing w, .loadRdOff, (v : Nat) => .writing { w with room := free d.sizeOfBuffer v w.wr }
    | .writing w, .storeByte _ b, _ => .writing { w with staged := w.staged ++ [b] }
    | .writing w, .storeWrOff v, _ =>
        .writing { w with
          wr := v
          room := w.room - w.staged.length
          staged := []
          out := w.out ++ w.staged }
    | .writing w, .storeActiveTerminal v, _ => .writing { w with active := v }
    | .reading r, .loadWrOff, (v : Nat) => .reading { r with avail := used d.sizeOfBuffer r.rd v }
    | .reading r, .loadByte _, (b : Byte) => .reading { r with got := r.got ++ [b] }
    | .reading r, .storeRdOff v, _ =>
        .reading { r with
          rd := v
          avail := r.avail - r.got.length
          got := []
          consumed := r.consumed ++ r.got }
    | l, _, _ => l

end System

end DsEthComm.Rtt
