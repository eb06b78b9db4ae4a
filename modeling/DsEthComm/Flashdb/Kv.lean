import DsEthComm.Bytes

/-!
# DsEthComm.Flashdb.Kv

The key-value wrappers of the flash port, `flashdb_set_kv_value`,
`flashdb_get_kv_value` and `flashdb_del_kv_value`, over the KV store of
FlashDB.

The store is taken as a map.  FlashDB may fail to store or to delete, with
any of its error codes and without an effect.  The wrappers keep a
`struct fdb_blob` on the stack, which holds anything before the call.

What the calls should do is said by their history: a key holds the value
that was stored last, unless it was deleted since.  The status of
`flashdb_set_kv_value` is read from the stack and has nothing to do with
what FlashDB did, so that no set is faithful; the status of
`flashdb_get_kv_value` takes an empty value for a missing one.
-/

namespace DsEthComm.Flashdb

/-! ## FlashDB -/

/-- `fdb_err_t`. -/
inductive Err where
  | noErr
  | eraseErr
  | readErr
  | writeErr
  | partNotFound
  | kvNameErr
  | kvNameExist
  | savedFull
  | initFailed
deriving DecidableEq, Repr

/-- An error code that is an error. -/
abbrev Failure := { e : Err // e ≠ .noErr }

/-- The field `saved` of `struct fdb_blob`. -/
structure Saved where
  metaAddr : Nat
  addr : Nat
  len : Nat
deriving DecidableEq, Repr

/-- `struct fdb_blob`, with what its buffer holds. -/
structure Blob where
  buf : List Byte
  size : Nat
  saved : Saved
deriving DecidableEq, Repr

/-- `fdb_blob_make`. -/
def fdbBlobMake (blob : Blob) (valueBuf : List Byte) (bufLen : Nat) : Blob :=
  { blob with buf := valueBuf, size := bufLen }

/-- The KV store. -/
structure Kvdb (κ : Type) where
  map : κ → Option (List Byte)

section Store

variable {κ : Type} [DecidableEq κ]

def Kvdb.update (db : Kvdb κ) (key : κ) (value : Option (List Byte)) : Kvdb κ where
  map k := if k = key then value else db.map k

/-- `fdb_kv_set_blob`: store the blob or fail.  `blob->saved` is left. -/
def fdbKvSetBlob (failure : Option Failure) (db : Kvdb κ) (key : κ) (blob : Blob) :
    Kvdb κ × Err :=
  match failure with
  | none => (db.update key (some (blob.buf.take blob.size)), .noErr)
  | some e => (db, e.val)

/-- `fdb_kv_get_blob`: the blob afterwards and the number of bytes read. -/
def fdbKvGetBlob (db : Kvdb κ) (key : κ) (blob : Blob) : Blob × Nat :=
  match db.map key with
  | some value =>
      let readLen := if blob.size > value.length then value.length else blob.size
      ({ blob with
        buf := value.take readLen ++ blob.buf.drop readLen
        saved := { blob.saved with len := value.length } }, readLen)
  | none => ({ blob with saved := { blob.saved with len := 0 } }, 0)

/-- `fdb_kv_del`: delete the key, or fail, also when there is none. -/
def fdbKvDel (failure : Option Failure) (db : Kvdb κ) (key : κ) : Kvdb κ × Err :=
  match failure with
  | some e => (db, e.val)
  | none => if (db.map key).isSome then (db.update key none, .noErr) else (db, .kvNameErr)

/-! ## The wrappers -/

/-- `flashdb_get_kv_value`: the status and the buffer afterwards.  `stack` is
the local blob before the call. -/
def flashdbGetKvValue (stack : Blob) (db : Kvdb κ) (key : κ) (value : List Byte)
    (valueSize : Nat) : Byte × List Byte :=
  let blob := (fdbKvGetBlob db key (fdbBlobMake stack value valueSize)).1
  if blob.saved.len > 0 then (0, blob.buf) else (1, blob.buf)

/-- `flashdb_set_kv_value`: the store afterwards and the status. -/
def flashdbSetKvValue (failure : Option Failure) (stack : Blob) (db : Kvdb κ) (key : κ)
    (value : List Byte) (valueSize : Nat) : Kvdb κ × Byte :=
  let blob := fdbBlobMake stack value valueSize
  let db := (fdbKvSetBlob failure db key blob).1
  if blob.saved.len > 0 then (db, 0) else (db, 1)

/-- `flashdb_del_kv_value`: the store afterwards and the status. -/
def flashdbDelKvValue (failure : Option Failure) (db : Kvdb κ) (key : κ) : Kvdb κ × Byte :=
  let r := fdbKvDel failure db key
  if r.2 = .noErr then (r.1, 0) else (r.1, 1)

/-! ## Sequences of calls -/

inductive Call (κ : Type) where
  | set (key : κ) (value : List Byte) (valueSize : Nat)
  | get (key : κ) (value : List Byte) (valueSize : Nat)
  | del (key : κ)

/-- A call, with how FlashDB fares. -/
structure Request (κ : Type) where
  call : Call κ
  failure : Option Failure

/-- A request, with what the stack holds before it. -/
structure Step (κ : Type) extends Request κ where
  stack : Blob

/-- The store after a call. -/
def kvStep (db : Kvdb κ) (x : Step κ) : Kvdb κ :=
  match x.call with
  | .set key value valueSize => (flashdbSetKvValue x.failure x.stack db key value valueSize).1
  | .get .. => db
  | .del key => (flashdbDelKvValue x.failure db key).1

/-- The store after a sequence of calls. -/
def after (db : Kvdb κ) (past : List (Step κ)) : Kvdb κ := past.foldl kvStep db

/-- What a call means for the value of a key: a set that stored and a
deletion that succeeded replace it. -/
def effect (key : κ) (old : Option (List Byte)) (x : Request κ) : Option (List Byte) :=
  match x.call, x.failure with
  | .set k value valueSize, none => if key = k then some (value.take valueSize) else old
  | .del k, none => if key = k then none else old
  | _, _ => old

/-- The value that the history leaves under a key. -/
def lastStored (init : κ → Option (List Byte)) (past : List (Request κ)) (key : κ) :
    Option (List Byte) :=
  past.foldl (effect key) (init key)

/-- The status is faithful, for a call that finds the store `db`, when `m` is
what the history stored. -/
def Faithful (m : κ → Option (List Byte)) (db : Kvdb κ) (x : Step κ) : Prop :=
  match x.call with
  | .set key value valueSize =>
      (flashdbSetKvValue x.failure x.stack db key value valueSize).2 = 0#8 ↔ x.failure = none
  | .get key value valueSize =>
      let r := flashdbGetKvValue x.stack db key value valueSize
      (r.1 = 0#8 ↔ (m key).isSome) ∧ ∀ v, m key = some v → v.take valueSize <+: r.2
  | .del key =>
      (flashdbDelKvValue x.failure db key).2 = 0#8 ↔ (m key).isSome ∧ x.failure = none

/-- Every call of a sequence is faithful to the history before it. -/
def FaithfulRun (db : Kvdb κ) (steps : List (Step κ)) : Prop :=
  ∀ past x rest, steps = past ++ x :: rest →
    Faithful (lastStored db.map (past.map Step.toRequest)) (after db past) x

/-- The wrappers refine the map on a sequence of calls: every call is faithful,
whatever the stack holds. -/
def Refines (db : Kvdb κ) (calls : List (Request κ)) : Prop :=
  ∀ steps : List (Step κ), steps.map Step.toRequest = calls → FaithfulRun db steps

/-- No set, and no get of an empty value. -/
def Harmless (m : κ → Option (List Byte)) (x : Request κ) : Prop :=
  match x.call with
  | .set .. => False
  | .get key .. => m key ≠ some []
  | .del _ => True

/-! ## The status of one call -/

theorem flashdbSetKvValue_status (failure : Option Failure) (stack : Blob) (db : Kvdb κ) (key : κ)
    (value : List Byte) (valueSize : Nat) :
    (flashdbSetKvValue failure stack db key value valueSize).2 = 0#8 ↔ 0 < stack.saved.len := by
  by_cases h : 0 < stack.saved.len <;> simp [flashdbSetKvValue, fdbBlobMake, h]

omit [DecidableEq κ] in
theorem flashdbGetKvValue_status (stack : Blob) (db : Kvdb κ) (key : κ) (value : List Byte)
    (valueSize : Nat) :
    (flashdbGetKvValue stack db key value valueSize).1 = 0#8 ↔
      ∃ v, db.map key = some v ∧ 0 < v.length := by
  cases hv : db.map key with
  | none => simp [flashdbGetKvValue, fdbKvGetBlob, hv]
  | some v => by_cases hlen : 0 < v.length <;> simp [flashdbGetKvValue, fdbKvGetBlob, hv, hlen]

omit [DecidableEq κ] in
/-- The buffer of a get starts with the value, as far as it fits. -/
theorem flashdbGetKvValue_buf (stack : Blob) {db : Kvdb κ} {key : κ} {v : List Byte}
    (h : db.map key = some v) (value : List Byte) (valueSize : Nat) :
    v.take valueSize <+: (flashdbGetKvValue stack db key value valueSize).2 := by
  have htake : v.take (if valueSize > v.length then v.length else valueSize) = v.take valueSize := by
    split
    · rw [List.take_of_length_le (Nat.le_refl _), List.take_of_length_le (by omega)]
    · rfl
  have hbuf : (flashdbGetKvValue stack db key value valueSize).2 =
      v.take valueSize ++ value.drop (if valueSize > v.length then v.length else valueSize) := by
    by_cases hlen : 0 < v.length <;>
      simp [flashdbGetKvValue, fdbKvGetBlob, fdbBlobMake, h, hlen, htake]
  rw [hbuf]
  exact List.prefix_append ..

theorem flashdbDelKvValue_status (failure : Option Failure) (db : Kvdb κ) (key : κ) :
    (flashdbDelKvValue failure db key).2 = 0#8 ↔ (db.map key).isSome ∧ failure = none := by
  cases failure with
  | none => cases hv : db.map key <;> simp [flashdbDelKvValue, fdbKvDel, hv]
  | some e =>
      obtain ⟨e, he⟩ := e
      simp [flashdbDelKvValue, fdbKvDel, he]

/-! ## The store is the history -/

theorem map_kvStep (db : Kvdb κ) (x : Step κ) (key : κ) :
    (kvStep db x).map key = effect key (db.map key) x.toRequest := by
  obtain ⟨⟨call, failure⟩, stack⟩ := x
  cases call with
  | set k value valueSize =>
      have hset : (flashdbSetKvValue failure stack db k value valueSize).1 =
          (fdbKvSetBlob failure db k (fdbBlobMake stack value valueSize)).1 := by
        rw [flashdbSetKvValue]
        split <;> rfl
      cases failure <;> simp [kvStep, hset, fdbKvSetBlob, fdbBlobMake, Kvdb.update, effect]
  | get k value valueSize => rfl
  | del k =>
      have hdel : (flashdbDelKvValue failure db k).1 = (fdbKvDel failure db k).1 := by
        rw [flashdbDelKvValue]
        split <;> rfl
      cases failure with
      | some e => simp [kvStep, hdel, fdbKvDel, effect]
      | none =>
          cases hv : db.map k with
          | some v => simp [kvStep, hdel, fdbKvDel, hv, Kvdb.update, effect]
          | none =>
              by_cases hk : key = k
              · simp [kvStep, hdel, fdbKvDel, hv, effect, hk]
              · simp [kvStep, hdel, fdbKvDel, hv, effect, hk]

/-- The store holds what the history stored. -/
theorem map_after (db : Kvdb κ) (past : List (Step κ)) :
    (after db past).map = lastStored db.map (past.map Step.toRequest) := by
  funext key
  induction past generalizing db with
  | nil => rfl
  | cons x past ih =>
      have htail := ih (kvStep db x)
      simp only [lastStored, map_kvStep] at htail
      simpa [after, lastStored] using htail

/-! ## When the status is faithful -/

/-- A set is faithful if the stack says by chance what FlashDB does. -/
theorem faithful_set {db : Kvdb κ} {x : Step κ} {key : κ} {value : List Byte} {valueSize : Nat}
    (hx : x.call = .set key value valueSize) :
    Faithful db.map db x ↔ (0 < x.stack.saved.len ↔ x.failure = none) := by
  simp [Faithful, hx, flashdbSetKvValue_status]

theorem faithful_get {db : Kvdb κ} {x : Step κ} {key : κ} {value : List Byte} {valueSize : Nat}
    (hx : x.call = .get key value valueSize) :
    Faithful db.map db x ↔ db.map key ≠ some [] := by
  simp only [Faithful, hx, flashdbGetKvValue_status]
  cases hv : db.map key with
  | none => simp
  | some v =>
      have hread := flashdbGetKvValue_buf x.stack hv value valueSize
      cases v <;> simp [hread]

theorem faithful_del {db : Kvdb κ} {x : Step κ} {key : κ} (hx : x.call = .del key) :
    Faithful db.map db x := by
  simp [Faithful, hx, flashdbDelKvValue_status]

/-- A length on the stack that gives the wrong status to a set. -/
def misleading (x : Request κ) : Blob := ⟨[], 0, ⟨0, 0, if x.failure = none then 0 else 1⟩⟩

/-- **The wrappers refine the map** exactly if nothing is set and no get asks
for an empty value. -/
theorem refines_iff (db : Kvdb κ) (calls : List (Request κ)) :
    Refines db calls ↔
      ∀ past x rest, calls = past ++ x :: rest → Harmless (lastStored db.map past) x := by
  constructor
  · intro h past x rest hcalls
    have hrun := h (calls.map fun x => ⟨x, misleading x⟩) (by simp [Function.comp_def])
    have hx := hrun (past.map fun x => ⟨x, misleading x⟩) ⟨x, misleading x⟩
      (rest.map fun x => ⟨x, misleading x⟩) (by simp [hcalls])
    rw [← map_after] at hx
    have hpast : lastStored db.map past =
        (after db (past.map fun x => (⟨x, misleading x⟩ : Step κ))).map := by
      rw [map_after]
      simp [Function.comp_def]
    rw [hpast]
    unfold Harmless
    split
    · next hcall =>
      have hstack := (faithful_set (x := ⟨x, misleading x⟩) hcall).mp hx
      by_cases hfail : x.failure = none <;> simp [misleading, hfail] at hstack
    · next hcall => exact (faithful_get (x := ⟨x, misleading x⟩) hcall).mp hx
    · trivial
  · rintro h steps rfl past x rest rfl
    have hx := h (past.map Step.toRequest) x.toRequest (rest.map Step.toRequest) (by simp)
    rw [← map_after] at hx ⊢
    unfold Harmless at hx
    split at hx
    · exact hx.elim
    · next hcall => exact (faithful_get hcall).mpr hx
    · next hcall => exact faithful_del hcall

end Store

/-- A value is stored, and the status is 1 if the stack says so; an empty
value is there, and a get does not find it. -/
theorem not_refines :
    ¬Refines (⟨fun _ => none⟩ : Kvdb String) [⟨.set "boot_count" [1#8] 1, none⟩] ∧
      ¬Refines (⟨fun key => if key = "name" then some [] else none⟩ : Kvdb String)
        [⟨.get "name" [0#8] 1, none⟩] := by
  constructor
  · intro h
    have hset := h [⟨⟨.set "boot_count" [1#8] 1, none⟩, ⟨[], 0, ⟨0, 0, 0⟩⟩⟩] rfl [] _ [] rfl
    simp [Faithful, flashdbSetKvValue_status] at hset
  · intro h
    have hget := h [⟨⟨.get "name" [0#8] 1, none⟩, ⟨[], 0, ⟨0, 0, 0⟩⟩⟩] rfl [] _ [] rfl
    simp [Faithful, flashdbGetKvValue_status, after, lastStored] at hget

end DsEthComm.Flashdb
