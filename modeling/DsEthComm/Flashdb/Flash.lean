import DsEthComm.Conc.Crash
import DsEthComm.Flashdb.Ideal
import DsEthComm.Flashdb.Kv

/-!
# DsEthComm.Flashdb.Flash

The flash below FlashDB.  What FlashDB does to it are programs of
`_fdb_flash_read` and `_fdb_flash_write`; what these do is a `Device`.

FlashDB relies on a flash that is programmed where it is: a write clears bits,
and one that fails or is cut short has cleared some of them.  That is
`InPlace`.  The port of this repository is not such a flash: `w25q_write`
reports success and has written nothing.
-/

namespace DsEthComm.Flashdb

open Conc W25qxx

/-! ## The operations -/

abbrev Mem := Nat → Byte

inductive FlashOp where
  | read (addr size : Nat)
  | write (addr : Nat) (data : List Byte)

/-- `_fdb_flash_read`, with what is in the buffer afterwards, and
`_fdb_flash_write`. -/
def flash : Sig where
  Op := FlashOp
  Res
    | .read _ _ => List Byte
    | .write _ _ => Err

abbrev Flash (α : Type) := Prog flash α

/-- `_fdb_flash_write`. -/
def fdbFlashWrite (addr : Nat) (data : List Byte) : Flash Err :=
  Prog.call (S := flash) (FlashOp.write addr data)

/-! ## Programming in place -/

/-- Some data with bits of `left` that are not yet programmed.  Bytes that
`left` does not have are not programmed at all. -/
def partly (data left : List Byte) : List Byte := List.zipWith (· ||| ·) data left

/-- The flash is programmed where it is.  A read may deliver anything. -/
structure InPlace (P : Device flash Mem) : Prop where
  read : ∀ {mem mem' : Mem} {addr size : Nat} {buf : List Byte},
    P.Step mem (FlashOp.read addr size) mem' buf → mem' = mem
  tornRead : ∀ {mem mem' : Mem} {addr size : Nat}, P.Torn mem (FlashOp.read addr size) mem' → mem' = mem
  write : ∀ {mem mem' : Mem} {addr : Nat} {data : List Byte},
    P.Step mem (FlashOp.write addr data) mem' Err.noErr → mem' = burn mem addr data
  failed : ∀ {mem mem' : Mem} {addr : Nat} {data : List Byte} {err : Err},
    P.Step mem (FlashOp.write addr data) mem' err → ∃ left, mem' = burn mem addr (partly data left)
  torn : ∀ {mem mem' : Mem} {addr : Nat} {data : List Byte},
    P.Torn mem (FlashOp.write addr data) mem' → ∃ left, mem' = burn mem addr (partly data left)

/-- NOR flash that delivers what it holds.  A write may fail. -/
def nor : Device flash Mem where
  Step mem o mem' :=
    match o with
    | .read addr size => fun buf => mem' = mem ∧ buf = slice mem addr size
    | .write addr data => fun err =>
        err = .noErr ∧ mem' = burn mem addr data ∨
          err = .writeErr ∧ ∃ left, mem' = burn mem addr (partly data left)
  Torn mem o mem' :=
    match o with
    | .read _ _ => mem' = mem
    | .write addr data => ∃ left, mem' = burn mem addr (partly data left)

/-- The same when no write fails. -/
def norPerform (mem : Mem) : (o : flash.Op) → Mem × flash.Res o
  | .read addr size => (mem, slice mem addr size)
  | .write addr data => (burn mem addr data, Err.noErr)

theorem nor_ends {α : Type} (p : Flash α) (mem : Mem) :
    nor.Ends p mem (p.eval norPerform mem).1 (p.eval norPerform mem).2 := by
  induction p generalizing mem with
  | pure a => exact .pure a mem
  | op o k ih =>
      cases o with
      | read addr size => exact .op ⟨rfl, rfl⟩ (ih _ mem)
      | write addr data => exact .op (Or.inl ⟨rfl, rfl⟩) (ih _ (burn mem addr data))

@[simp] theorem partly_nil (data : List Byte) : partly data [] = [] := by
  simp [partly]

theorem length_partly (data left : List Byte) : (partly data left).length ≤ data.length := by
  rw [partly, List.length_zipWith]
  exact Nat.min_le_left _ _

theorem partly_zeros (data : List Byte) : partly data (List.replicate data.length 0#8) = data := by
  induction data with
  | nil => rfl
  | cons b data ih =>
      rw [partly] at ih
      rw [partly, List.length_cons, List.replicate_succ, List.zipWith_cons_cons, ih, BitVec.or_zero]

theorem nor_inPlace : InPlace nor where
  read h := h.1
  tornRead h := h
  write h := by
    obtain ⟨-, h⟩ | ⟨herr, -⟩ := h
    · exact h
    · cases herr
  failed {_ _ _ data _} h := by
    obtain ⟨-, h⟩ | ⟨-, h⟩ := h
    · exact ⟨List.replicate data.length 0#8, by rw [partly_zeros]; exact h⟩
    · exact h
  torn h := h

/-- **The port of this repository is no such flash**: its write succeeds and
changes nothing. -/
theorem not_inPlace_w25qWrite {P : Device flash Mem}
    (h : ∀ env (s : Bus) addr buf buf4k, P.Step s.chip.mem (FlashOp.write addr buf)
      (evalAt env (w25qWrite addr buf buf4k) s).1.chip.mem
      (if (evalAt env (w25qWrite addr buf buf4k) s).2 < 0 then Err.writeErr else Err.noErr)) :
    ¬InPlace P := by
  intro hP
  have hrun : evalAt (always true) (w25qWrite 0 [0x00#8] []) (filled 0xFF#8) =
      (filled 0xFF#8, 0) := by
    simp [w25qWrite, evalAt_write]
  have hstep := h (always true) (filled 0xFF#8) 0 [0x00#8] []
  rw [hrun] at hstep
  have hcell := congrFun (hP.write hstep) 0
  exact absurd hcell (by decide)

section Rules

variable {P : Device flash Mem}

theorem InPlace.safe_write (hP : InPlace P) (mem : Mem) (addr : Nat) (data : List Byte) :
    P.Safe (fun m => ∃ left, m = burn mem addr (partly data left))
      (fun err m => (err = .noErr → m = burn mem addr data) ∧
        ∃ left, m = burn mem addr (partly data left)) (fdbFlashWrite addr data) mem := by
  apply Device.safe_call (S := flash) (o := FlashOp.write addr data)
  · exact ⟨[], by rw [partly_nil, burn_nil]⟩
  · exact fun _ h => hP.torn h
  · intro m err h
    refine ⟨hP.failed h, ?_, hP.failed h⟩
    rintro rfl
    exact hP.write h

end Rules

end DsEthComm.Flashdb
