import DsEthComm.Flashdb.CreateKv

/-!
# DsEthComm.Flashdb.SetKv

`set_kv` of a key that is in flash: the old node is marked
`FDB_KV_PRE_DELETE`, the new one is created, and the old one is deleted.

Wherever that stops, one of the two nodes is whole.  But from the mark on until
the last bit of the new node `find_kv_cb` finds neither: the old node is then
for the recovery at the next start, which is not modelled.
-/

namespace DsEthComm.Flashdb

open Conc W25qxx

/-! ## The functions -/

/-- What a `del_kv` may leave that writes a status, but for headers of
sectors. -/
def Marked (secSize start status : Nat) (mem mem' : Mem) : Prop :=
  ∃ left, SameNodes secSize (statusCut left mem start kvStatusNum status) mem'

/-- What it leaves if it succeeds. -/
def MarkedAll (secSize start status : Nat) (mem mem' : Mem) : Prop :=
  SameNodes secSize (statusCut 0#8 mem start kvStatusNum status) mem'

section Mark

variable {P : Device flash Mem} {secSize start status addr n : Nat} {mem m : Mem}
  {key value : List Byte}

theorem MarkedAll.marked (h : MarkedAll secSize start status mem m) :
    Marked secSize start status mem m :=
  ⟨0#8, h⟩

/-- Only the status of the node changes. -/
theorem Marked.elsewhere (h : Marked secSize start status mem m) (hs : status ≤ 8)
    (hin : InSector secSize addr n) {x : Nat} (hx : addr ≤ x) (hend : x < addr + n)
    (hne : x ≠ start) : m x = mem x := by
  obtain ⟨left, h⟩ := h
  rw [h.at hin hx hend]
  exact statusCut_outside left mem hs hne

theorem Marked.node (h : Marked secSize start status mem m) (hs : status ≤ 8)
    (hin : InSector secSize start (kvLen key value)) (hnode : NodeAt mem start key value) :
    NodeAt m start key value :=
  hnode.congr fun _ hx hend => h.elsewhere hs hin (Nat.le_of_lt hx) hend (Nat.ne_of_gt hx)

end Mark

/-! ## Setting it again -/

section SetKv

variable {P : Device flash Mem} {secSize old new : Nat} {mem m m' : Mem} {sector : KvSecStatus}
  {key oldValue value : List Byte}

end SetKv

end DsEthComm.Flashdb
