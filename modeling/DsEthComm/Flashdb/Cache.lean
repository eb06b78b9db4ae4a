import Mathlib.Data.List.Perm.Subperm
import DsEthComm.Flashdb.Crc32
import DsEthComm.W25qxx.Chip

/-!
# DsEthComm.Flashdb.Cache

The KV cache of FlashDB, `update_kv_cache` and `get_kv_from_cache`: 64 entries
that take sixteen bits of the check of a name to the address of its node.

The entries are what the calls recorded: of two entries with equal checks the
later one is not in use, so that a hit is the address that was recorded last
for the check, and the name is compared in flash.  Nothing is lost as long as
no more than 64 checks are in play; after that an entry makes room.
-/

namespace DsEthComm.Flashdb

open W25qxx

/-! ## The table -/

/-- `FDB_DATA_UNUSED`. -/
def dataUnused : Nat := 0xFFFFFFFF

/-- `FDB_KV_CACHE_TABLE_SIZE`. -/
def kvCacheTableSize : Nat := 64

/-- `FDB_KV_NAME_MAX`. -/
def kvNameMax : Nat := 64

/-- `KV_HDR_DATA_SIZE`. -/
def kvHdrDataSize : Nat := 24

/-- `struct kv_cache_node`. -/
structure KvCacheNode where
  nameCrc : BitVec 16
  active : Nat
  addr : Nat
deriving DecidableEq, Repr

/-- `(uint16_t) (fdb_calc_crc32(0, name, name_len) >> 16)`. -/
def crcOfName (name : List Byte) : BitVec 16 := ((fdbCalcCrc32 0#32 name) >>> 16).truncate 16

/-- The locals of `update_kv_cache`. -/
structure CacheScan where
  emptyIndex : Nat
  minActivityIndex : Nat
  minActivity : Nat

/-- The entry with the check of the name: update the address or delete it. -/
def matchNode (addr : Nat) (node : KvCacheNode) : KvCacheNode :=
  if addr ≠ dataUnused then { node with addr := addr }
  else { node with addr := dataUnused, active := 0 }

/-- Any other entry on the way. -/
def passNode (addr i : Nat) (node : KvCacheNode) (s : CacheScan) : KvCacheNode × CacheScan :=
  if addr ≠ dataUnused then
    if node.addr = dataUnused ∧ s.emptyIndex = kvCacheTableSize then
      (node, { s with emptyIndex := i })
    else if node.addr ≠ dataUnused then
      let node := { node with active := node.active - 1 }
      if node.active < s.minActivity then
        (node, { s with minActivityIndex := i, minActivity := node.active })
      else (node, s)
    else (node, s)
  else (node, s)

/-- The loop of `update_kv_cache`: the entries afterwards, and the locals
unless it returns. -/
def updateKvCacheLoop (nameCrc : BitVec 16) (addr : Nat) :
    List KvCacheNode → Nat → CacheScan → List KvCacheNode × Option CacheScan
  | [], _, s => ([], some s)
  | node :: rest, i, s =>
      if node.nameCrc = nameCrc then (matchNode addr node :: rest, none)
      else
        let (node, s) := passNode addr i node s
        let (rest, s) := updateKvCacheLoop nameCrc addr rest (i + 1) s
        (node :: rest, s)

/-- `update_kv_cache`. -/
def updateKvCacheNodes (nodes : List KvCacheNode) (name : List Byte) (addr : Nat) :
    List KvCacheNode :=
  match updateKvCacheLoop (crcOfName name) addr nodes 0
    ⟨kvCacheTableSize, kvCacheTableSize, 0xFFFF⟩ with
  | (nodes, none) => nodes
  | (nodes, some s) =>
      if s.emptyIndex < kvCacheTableSize then
        nodes.set s.emptyIndex ⟨crcOfName name, kvCacheTableSize, addr⟩
      else if s.minActivityIndex < kvCacheTableSize then
        nodes.set s.minActivityIndex ⟨crcOfName name, kvCacheTableSize, addr⟩
      else nodes

/-- `strncmp(a, b, n) == 0`, the strings without their `NUL`. -/
def strncmpZero (a b : List Byte) : Nat → Bool
  | 0 => true
  | n + 1 =>
      a.headD 0#8 == b.headD 0#8 && (a.headD 0#8 == 0#8 || strncmpZero a.tail b.tail n)

/-- A hit in the loop of `get_kv_from_cache`. -/
def cacheHit (mem : Nat → Byte) (name : List Byte) (node : KvCacheNode) : Bool :=
  node.addr ≠ dataUnused ∧ node.nameCrc = crcOfName name ∧
    strncmpZero name (slice mem (node.addr + kvHdrDataSize) kvNameMax) name.length

/-- The entry is accessed. -/
def raiseActive (node : KvCacheNode) : KvCacheNode :=
  if node.active ≥ 0xFFFF - kvCacheTableSize then { node with active := 0xFFFF }
  else { node with active := node.active + kvCacheTableSize }

/-- `get_kv_from_cache`: the entries afterwards and the address.  `mem` is what
the read of the name delivers: its 64 bytes are more than the flash driver of
this repository reads at once. -/
def getKvFromCacheNodes (mem : Nat → Byte) (name : List Byte) :
    List KvCacheNode → List KvCacheNode × Option Nat
  | [] => ([], none)
  | node :: rest =>
      if cacheHit mem name node then (raiseActive node :: rest, some node.addr)
      else
        let (rest, addr) := getKvFromCacheNodes mem name rest
        (node :: rest, addr)

/-! ## Checks and addresses -/

/-- What an entry says. -/
abbrev Key := BitVec 16 × Nat

def KvCacheNode.key (node : KvCacheNode) : Key := (node.nameCrc, node.addr)

theorem key_matchNode (addr : Nat) (node : KvCacheNode) :
    (matchNode addr node).key = (node.nameCrc, addr) := by
  by_cases h : addr = dataUnused <;> simp [matchNode, KvCacheNode.key, h]

theorem key_passNode (addr i : Nat) (node : KvCacheNode) (s : CacheScan) :
    (passNode addr i node s).1.key = node.key := by
  simp only [passNode]
  repeat' split
  all_goals rfl

theorem key_raiseActive (node : KvCacheNode) : (raiseActive node).key = node.key := by
  simp only [raiseActive]
  split <;> rfl

/-- What an update does to the keys: the first entry with the check takes the
address; without one an entry that is not in use does, or else one that
is. -/
inductive KeysStep (crc : BitVec 16) (addr : Nat) : List Key → List Key → Prop where
  | found (pre post : List Key) (old : Nat) (h : ∀ k ∈ pre, k.1 ≠ crc) :
      KeysStep crc addr (pre ++ (crc, old) :: post) (pre ++ (crc, addr) :: post)
  | absent (keys : List Key) (h : ∀ k ∈ keys, k.1 ≠ crc) (haddr : addr = dataUnused) :
      KeysStep crc addr keys keys
  | added (pre post : List Key) (old : BitVec 16)
      (h : ∀ k ∈ pre ++ (old, dataUnused) :: post, k.1 ≠ crc) (haddr : addr ≠ dataUnused) :
      KeysStep crc addr (pre ++ (old, dataUnused) :: post) (pre ++ (crc, addr) :: post)
  | evicted (pre post : List Key) (old : Key) (h : ∀ k ∈ pre ++ old :: post, k.1 ≠ crc)
      (haddr : addr ≠ dataUnused) (hfull : ∀ k ∈ pre ++ old :: post, k.2 ≠ dataUnused) :
      KeysStep crc addr (pre ++ old :: post) (pre ++ (crc, addr) :: post)
  | refused (keys : List Key) (h : ∀ k ∈ keys, k.1 ≠ crc) (haddr : addr ≠ dataUnused)
      (hfull : ∀ k ∈ keys, k.2 ≠ dataUnused) : KeysStep crc addr keys keys

section Update

variable (crc : BitVec 16) (addr : Nat)

theorem updateKvCacheLoop_ne {node : KvCacheNode} (h : node.nameCrc ≠ crc)
    (rest : List KvCacheNode) (i : Nat) (s : CacheScan) :
    updateKvCacheLoop crc addr (node :: rest) i s =
      ((passNode addr i node s).1 ::
          (updateKvCacheLoop crc addr rest (i + 1) (passNode addr i node s).2).1,
        (updateKvCacheLoop crc addr rest (i + 1) (passNode addr i node s).2).2) := by
  rw [updateKvCacheLoop, if_neg h]

/-- The loop returns at the first entry with the check. -/
theorem updateKvCacheLoop_found (pre : List KvCacheNode) {node : KvCacheNode}
    (post : List KvCacheNode) (hpre : ∀ x ∈ pre, x.nameCrc ≠ crc) (hnode : node.nameCrc = crc)
    (i : Nat) (s : CacheScan) :
    ∃ nodes, updateKvCacheLoop crc addr (pre ++ node :: post) i s = (nodes, none) ∧
      nodes.map (·.key) = pre.map (·.key) ++ (crc, addr) :: post.map (·.key) := by
  induction pre generalizing i s with
  | nil =>
      refine ⟨matchNode addr node :: post, ?_, ?_⟩
      · rw [List.nil_append, updateKvCacheLoop, if_pos hnode]
      · simp [key_matchNode, hnode]
  | cons x pre ih =>
      obtain ⟨nodes, hloop, hkeys⟩ := ih (fun y hy => hpre y (by simp [hy])) (i + 1)
        (passNode addr i x s).2
      refine ⟨(passNode addr i x s).1 :: nodes, ?_, ?_⟩
      · rw [List.cons_append, updateKvCacheLoop_ne crc addr (hpre x (by simp)), hloop]
      · simp [hkeys, key_passNode]

/-- Without one it goes to the end, and the keys stay. -/
theorem updateKvCacheLoop_missing {nodes : List KvCacheNode} (h : ∀ x ∈ nodes, x.nameCrc ≠ crc)
    (i : Nat) (s : CacheScan) :
    ∃ nodes' s', updateKvCacheLoop crc addr nodes i s = (nodes', some s') ∧
      nodes'.map (·.key) = nodes.map (·.key) ∧ (addr = dataUnused → s' = s) := by
  induction nodes generalizing i s with
  | nil => exact ⟨[], s, rfl, rfl, fun _ => rfl⟩
  | cons x nodes ih =>
      obtain ⟨nodes', s', hloop, hkeys, hsame⟩ := ih (fun y hy => h y (by simp [hy])) (i + 1)
        (passNode addr i x s).2
      refine ⟨(passNode addr i x s).1 :: nodes', s', ?_, ?_, ?_⟩
      · rw [updateKvCacheLoop_ne crc addr (h x (by simp)), hloop]
      · simp [hkeys, key_passNode]
      · intro haddr
        rw [hsame haddr, passNode, if_neg (not_not_intro haddr)]

/-- What the locals know about the entries from `i` on: the first that is not
in use. -/
def EmptyFrom (i : Nat) (nodes : List KvCacheNode) (emptyIndex : Nat) : Prop :=
  (emptyIndex = kvCacheTableSize ∧ ∀ x ∈ nodes, x.addr ≠ dataUnused) ∨
    ∃ pre x post, nodes = pre ++ x :: post ∧ x.addr = dataUnused ∧ emptyIndex = i + pre.length

/-- The first entry that is not in use is found, or is known already. -/
theorem updateKvCacheLoop_empty {nodes : List KvCacheNode} (h : ∀ x ∈ nodes, x.nameCrc ≠ crc)
    (haddr : addr ≠ dataUnused) (i : Nat) (hi : i + nodes.length ≤ kvCacheTableSize) (s : CacheScan)
    {nodes' : List KvCacheNode} {s' : CacheScan}
    (hloop : updateKvCacheLoop crc addr nodes i s = (nodes', some s')) :
    if s.emptyIndex = kvCacheTableSize then EmptyFrom i nodes s'.emptyIndex
    else s'.emptyIndex = s.emptyIndex := by
  induction nodes generalizing i s nodes' with
  | nil =>
      obtain ⟨-, rfl⟩ : [] = nodes' ∧ s = s' := by simpa [updateKvCacheLoop] using hloop
      split
      · next hempty => exact Or.inl ⟨hempty, by simp⟩
      · rfl
  | cons x nodes ih =>
      rw [updateKvCacheLoop_ne crc addr (h x (by simp)), Prod.mk.injEq] at hloop
      obtain ⟨-, hrest⟩ := hloop
      have hrec := ih (fun y hy => h y (by simp [hy])) (i + 1) (by simp at hi; omega)
        (passNode addr i x s).2 (Prod.ext rfl hrest)
      have hlt : i ≠ kvCacheTableSize := by
        simp at hi
        omega
      by_cases hempty : s.emptyIndex = kvCacheTableSize
      · rw [if_pos hempty]
        by_cases hunused : x.addr = dataUnused
        · -- this entry is the one
          have hpass : (passNode addr i x s).2.emptyIndex = i := by
            simp [passNode, haddr, hunused, hempty]
          rw [hpass, if_neg hlt] at hrec
          exact Or.inr ⟨[], x, nodes, rfl, hunused, by simpa using hrec⟩
        · have hpass : (passNode addr i x s).2.emptyIndex = s.emptyIndex := by
            simp only [passNode, hunused, false_and, if_false]
            repeat' split
            all_goals rfl
          rw [hpass, if_pos hempty] at hrec
          rcases hrec with ⟨hfull, hall⟩ | ⟨pre, y, post, rfl, hy, hindex⟩
          · exact Or.inl ⟨hfull, by simpa [hunused] using hall⟩
          · refine Or.inr ⟨x :: pre, y, post, rfl, hy, ?_⟩
            rw [hindex, List.length_cons]
            omega
      · have hpass : (passNode addr i x s).2.emptyIndex = s.emptyIndex := by
          simp only [passNode, hempty, and_false, if_false]
          repeat' split
          all_goals rfl
        rw [hpass, if_neg hempty] at hrec
        rwa [if_neg hempty]

end Update

/-- Setting an entry splits the list there. -/
theorem set_split {nodes : List KvCacheNode} {i : Nat} (hi : i < nodes.length)
    (node : KvCacheNode) :
    ∃ pre x post, nodes = pre ++ x :: post ∧ pre.length = i ∧
      nodes.set i node = pre ++ node :: post := by
  refine ⟨nodes.take i, nodes[i], nodes.drop (i + 1), ?_, ?_, ?_⟩
  · rw [List.getElem_cons_drop, List.take_append_drop]
  · rw [List.length_take]
    omega
  · exact List.set_eq_take_append_cons_drop.trans (if_pos hi)

theorem updateKvCacheNodes_found {nodes nodes' : List KvCacheNode} {name : List Byte} {addr : Nat}
    (h : updateKvCacheLoop (crcOfName name) addr nodes 0
      ⟨kvCacheTableSize, kvCacheTableSize, 0xFFFF⟩ = (nodes', none)) :
    updateKvCacheNodes nodes name addr = nodes' := by
  rw [updateKvCacheNodes, h]

theorem updateKvCacheNodes_missing {nodes nodes' : List KvCacheNode} {s : CacheScan}
    {name : List Byte} {addr : Nat}
    (h : updateKvCacheLoop (crcOfName name) addr nodes 0
      ⟨kvCacheTableSize, kvCacheTableSize, 0xFFFF⟩ = (nodes', some s)) :
    updateKvCacheNodes nodes name addr =
      if s.emptyIndex < kvCacheTableSize then
        nodes'.set s.emptyIndex ⟨crcOfName name, kvCacheTableSize, addr⟩
      else if s.minActivityIndex < kvCacheTableSize then
        nodes'.set s.minActivityIndex ⟨crcOfName name, kvCacheTableSize, addr⟩
      else nodes' := by
  rw [updateKvCacheNodes, h]

/-- **What an update does.** -/
theorem keysStep_updateKvCacheNodes {nodes : List KvCacheNode}
    (hsize : nodes.length = kvCacheTableSize) (name : List Byte) (addr : Nat) :
    KeysStep (crcOfName name) addr (nodes.map (·.key))
      ((updateKvCacheNodes nodes name addr).map (·.key)) := by
  cases hfind : nodes.find? fun x => x.nameCrc = crcOfName name with
  | some node =>
      obtain ⟨hnode, pre, post, rfl, hpre⟩ := List.find?_eq_some_iff_append.mp hfind
      obtain ⟨nodes', hloop, hkeys⟩ := updateKvCacheLoop_found (crcOfName name) addr pre post
        (by simpa using hpre) (by simpa using hnode) 0 ⟨kvCacheTableSize, kvCacheTableSize, 0xFFFF⟩
      have hkey : node.key = (crcOfName name, node.addr) := by
        simpa [KvCacheNode.key] using hnode
      rw [updateKvCacheNodes_found hloop, hkeys, List.map_append, List.map_cons, hkey]
      refine KeysStep.found _ _ _ fun k hk => ?_
      obtain ⟨x, hx, rfl⟩ := List.mem_map.mp hk
      simpa [KvCacheNode.key] using hpre x hx
  | none =>
      have hne : ∀ x ∈ nodes, x.nameCrc ≠ crcOfName name := by
        simpa using List.find?_eq_none.mp hfind
      obtain ⟨nodes', s', hloop, hkeys, hsame⟩ := updateKvCacheLoop_missing (crcOfName name) addr
        hne 0 ⟨kvCacheTableSize, kvCacheTableSize, 0xFFFF⟩
      have hkne : ∀ k ∈ nodes.map (·.key), k.1 ≠ crcOfName name := by
        intro k hk
        obtain ⟨x, hx, rfl⟩ := List.mem_map.mp hk
        exact hne x hx
      have hlen : nodes'.length = kvCacheTableSize := by
        rw [← hsize, ← List.length_map (·.key), hkeys, List.length_map]
      rw [updateKvCacheNodes_missing hloop]
      by_cases haddr : addr = dataUnused
      · rw [hsame haddr, if_neg (Nat.lt_irrefl _), if_neg (Nat.lt_irrefl _), hkeys]
        exact KeysStep.absent _ hkne haddr
      · have hempty := updateKvCacheLoop_empty (crcOfName name) addr hne haddr 0 (by omega) _ hloop
        rw [if_pos rfl] at hempty
        rcases hempty with ⟨hfull, hall⟩ | ⟨pre₀, x₀, post₀, hsplit, hunused, hindex⟩
        · have hused : ∀ k ∈ nodes.map (·.key), k.2 ≠ dataUnused := by
            intro k hk
            obtain ⟨x, hx, rfl⟩ := List.mem_map.mp hk
            exact hall x hx
          rw [hfull, if_neg (Nat.lt_irrefl _)]
          split
          · next hmin =>
            obtain ⟨pre, x, post, rfl, -, hset⟩ := set_split (hlen ▸ hmin)
              ⟨crcOfName name, kvCacheTableSize, addr⟩
            rw [hset, List.map_append, List.map_cons]
            rw [← hkeys, List.map_append, List.map_cons] at hkne hused ⊢
            exact KeysStep.evicted _ _ _ hkne haddr hused
          · rw [hkeys]
            exact KeysStep.refused _ hkne haddr hused
        · have hlt : s'.emptyIndex < kvCacheTableSize := by
            rw [hindex, ← hsize, hsplit]
            simp
          obtain ⟨pre, x, post, rfl, hpre, hset⟩ := set_split (hlen ▸ hlt)
            ⟨crcOfName name, kvCacheTableSize, addr⟩
          have hkey : x.key = (x.nameCrc, dataUnused) := by
            rw [hsplit, List.map_append, List.map_append, List.map_cons, List.map_cons] at hkeys
            have hcons := (List.append_inj hkeys (by simp [hpre, hindex])).2
            have haddr' : x.addr = x₀.addr := congrArg Prod.snd (List.cons.inj hcons).1
            rw [KvCacheNode.key, haddr', hunused]
          rw [if_pos hlt, hset, List.map_append, List.map_cons]
          rw [← hkeys, List.map_append, List.map_cons, hkey] at hkne ⊢
          exact KeysStep.added _ _ _ hkne haddr

/-- What a look into the cache finds; the keys stay. -/
theorem getKvFromCacheNodes_spec (mem : Nat → Byte) (name : List Byte) (nodes : List KvCacheNode) :
    (getKvFromCacheNodes mem name nodes).1.map (·.key) = nodes.map (·.key) ∧
      (getKvFromCacheNodes mem name nodes).2 =
        (nodes.find? (cacheHit mem name)).map (·.addr) := by
  induction nodes with
  | nil => exact ⟨rfl, rfl⟩
  | cons node nodes ih =>
      rw [getKvFromCacheNodes]
      split
      · next hhit => simp [hhit, key_raiseActive]
      · next hmiss => simp [hmiss, ih]

/-! ## The table keeps its checks apart -/

/-- Of two entries with equal checks the later one is not in use. -/
def Apart (keys : List Key) : Prop :=
  keys.Pairwise fun k k' => k.1 = k'.1 → k'.2 = dataUnused

/-- A check that no entry has can take any place. -/
theorem apart_replace {pre post : List Key} {old : Key} {crc : BitVec 16} (addr : Nat)
    (hne : ∀ k ∈ pre ++ old :: post, k.1 ≠ crc) (h : Apart (pre ++ old :: post)) :
    Apart (pre ++ (crc, addr) :: post) := by
  rw [Apart, List.pairwise_append, List.pairwise_cons] at h ⊢
  obtain ⟨hleft, ⟨-, hright⟩, hcross⟩ := h
  refine ⟨hleft, ⟨?_, hright⟩, ?_⟩
  · intro k hk hsame
    exact absurd hsame.symm (hne k (by simp [hk]))
  · intro k hk k' hk'
    rcases List.mem_cons.mp hk' with rfl | hlater
    · exact fun hsame => absurd hsame (hne k (by simp [hk]))
    · exact hcross k hk k' (List.mem_cons_of_mem _ hlater)

theorem KeysStep.apart {crc : BitVec 16} {addr : Nat} {keys keys' : List Key}
    (h : KeysStep crc addr keys keys') (hapart : Apart keys) : Apart keys' := by
  cases h with
  | found pre post old hpre =>
      rw [Apart, List.pairwise_append, List.pairwise_cons] at hapart ⊢
      obtain ⟨hleft, ⟨hnode, hright⟩, hcross⟩ := hapart
      refine ⟨hleft, ⟨hnode, hright⟩, ?_⟩
      intro k hk k' hk'
      rcases List.mem_cons.mp hk' with rfl | hlater
      · exact fun hsame => absurd hsame (hpre k hk)
      · exact hcross k hk k' (List.mem_cons_of_mem _ hlater)
  | absent => exact hapart
  | refused => exact hapart
  | added pre post old hne => exact apart_replace addr hne hapart
  | evicted pre post old hne => exact apart_replace addr hne hapart

theorem KeysStep.length {crc : BitVec 16} {addr : Nat} {keys keys' : List Key}
    (h : KeysStep crc addr keys keys') : keys'.length = keys.length := by
  cases h <;> simp

/-- What is in use afterwards was in use before or is what was recorded. -/
theorem KeysStep.sound {crc : BitVec 16} {addr : Nat} {keys keys' : List Key}
    (h : KeysStep crc addr keys keys') (hapart : Apart keys) {k : Key} (hk : k ∈ keys')
    (hused : k.2 ≠ dataUnused) : k = (crc, addr) ∨ (k.1 ≠ crc ∧ k ∈ keys) := by
  cases h with
  | found pre post old hpre =>
      rw [Apart, List.pairwise_append, List.pairwise_cons] at hapart
      obtain ⟨-, ⟨hnode, -⟩, -⟩ := hapart
      rcases List.mem_append.mp hk with hmem | hmem
      · exact Or.inr ⟨hpre k hmem, by simp [hmem]⟩
      · rcases List.mem_cons.mp hmem with hsame | hpost
        · exact Or.inl hsame
        · exact Or.inr ⟨fun hcrc => hused (hnode k hpost hcrc.symm), by simp [hpost]⟩
  | absent _ hne => exact Or.inr ⟨hne k hk, hk⟩
  | refused _ hne => exact Or.inr ⟨hne k hk, hk⟩
  | added pre post old hne | evicted pre post old hne =>
      rcases List.mem_append.mp hk with hmem | hmem
      · exact Or.inr ⟨hne k (by simp [hmem]), by simp [hmem]⟩
      · rcases List.mem_cons.mp hmem with hsame | hpost
        · exact Or.inl hsame
        · exact Or.inr ⟨hne k (by simp [hpost]), by simp [hpost]⟩

/-- Nothing is lost, unless every entry is in use with another check. -/
theorem KeysStep.keeps {crc : BitVec 16} {addr : Nat} {keys keys' : List Key}
    (h : KeysStep crc addr keys keys') :
    (∀ k ∈ keys, k.1 ≠ crc ∧ k.2 ≠ dataUnused) ∨
      ((addr ≠ dataUnused → (crc, addr) ∈ keys') ∧
        ∀ k ∈ keys, k.1 ≠ crc → k.2 ≠ dataUnused → k ∈ keys') := by
  cases h with
  | found pre post old hpre =>
      refine Or.inr ⟨by simp, fun k hk hne _ => ?_⟩
      rcases List.mem_append.mp hk with hmem | hmem
      · simp [hmem]
      · rcases List.mem_cons.mp hmem with rfl | hpost
        · exact absurd rfl hne
        · simp [hpost]
  | absent _ _ haddr => exact Or.inr ⟨fun h => absurd haddr h, fun k hk _ _ => hk⟩
  | added pre post old =>
      refine Or.inr ⟨by simp, fun k hk _ hused => ?_⟩
      rcases List.mem_append.mp hk with hmem | hmem
      · simp [hmem]
      · rcases List.mem_cons.mp hmem with rfl | hpost
        · exact absurd rfl hused
        · simp [hpost]
  | evicted pre post old hne _ hfull => exact Or.inl fun k hk => ⟨hne k hk, hfull k hk⟩
  | refused _ hne _ hfull => exact Or.inl fun k hk => ⟨hne k hk, hfull k hk⟩

/-- Entries in use have checks of their own. -/
theorem length_lt_of_full {keys : List Key} (hapart : Apart keys) {crc : BitVec 16}
    (hfull : ∀ k ∈ keys, k.1 ≠ crc ∧ k.2 ≠ dataUnused) {crcs : List (BitVec 16)}
    (hcrcs : ∀ k ∈ keys, k.1 ∈ crcs) (hcrc : crc ∈ crcs) : keys.length < crcs.length := by
  have hnodup : (crc :: keys.map (·.1)).Nodup := by
    rw [List.nodup_cons, List.Nodup, List.pairwise_map]
    constructor
    · intro hmem
      obtain ⟨k, hk, hsame⟩ := List.mem_map.mp hmem
      exact (hfull k hk).1 hsame
    · apply hapart.imp_of_mem
      intro k k' _ hk' himp hsame
      exact (hfull k' hk').2 (himp hsame)
  have hsub : crc :: keys.map (·.1) ⊆ crcs := by
    intro c hc
    rcases List.mem_cons.mp hc with rfl | hmem
    · exact hcrc
    · obtain ⟨k, hk, rfl⟩ := List.mem_map.mp hmem
      exact hcrcs k hk
  have hlen := (hnodup.subperm hsub).length_le
  rw [List.length_cons, List.length_map] at hlen
  omega

/-- `kv_cache_table`. -/
structure KvCacheTable where
  nodes : List KvCacheNode
  size : nodes.length = kvCacheTableSize
  apart : Apart (nodes.map (·.key))

namespace KvCacheTable

/-- `update_kv_cache`. -/
def update (t : KvCacheTable) (name : List Byte) (addr : Nat) : KvCacheTable where
  nodes := updateKvCacheNodes t.nodes name addr
  size := by
    have hlen := (keysStep_updateKvCacheNodes t.size name addr).length
    rwa [List.length_map, List.length_map, t.size] at hlen
  apart := (keysStep_updateKvCacheNodes t.size name addr).apart t.apart

theorem map_key_get (t : KvCacheTable) (mem : Nat → Byte) (name : List Byte) :
    (getKvFromCacheNodes mem name t.nodes).1.map (·.key) = t.nodes.map (·.key) :=
  (getKvFromCacheNodes_spec mem name t.nodes).1

/-- `get_kv_from_cache`. -/
def get (t : KvCacheTable) (mem : Nat → Byte) (name : List Byte) : KvCacheTable × Option Nat where
  fst :=
    { nodes := (getKvFromCacheNodes mem name t.nodes).1
      size := by
        rw [← t.size, ← List.length_map (·.key), t.map_key_get mem name, List.length_map]
      apart := by
        rw [t.map_key_get mem name]
        exact t.apart }
  snd := (getKvFromCacheNodes mem name t.nodes).2

/-- The keys that are in use. -/
def Holds (t : KvCacheTable) (crc : BitVec 16) (addr : Nat) : Prop :=
  (crc, addr) ∈ t.nodes.map (·.key) ∧ addr ≠ dataUnused

/-- A check is in use at most once. -/
theorem holds_unique {t : KvCacheTable} {crc : BitVec 16} {addr addr' : Nat}
    (h : t.Holds crc addr) (h' : t.Holds crc addr') : addr = addr' := by
  obtain ⟨hmem, hused⟩ := h
  obtain ⟨hmem', hused'⟩ := h'
  obtain ⟨pre, post, hsplit⟩ := List.append_of_mem hmem
  have hapart := t.apart
  rw [hsplit, Apart, List.pairwise_append, List.pairwise_cons] at hapart
  obtain ⟨-, ⟨hright, -⟩, hcross⟩ := hapart
  rw [hsplit, List.mem_append, List.mem_cons] at hmem'
  rcases hmem' with hpre | hsame | hpost
  · exact absurd (hcross _ hpre (crc, addr) (by simp) rfl) hused
  · exact (Prod.mk.inj hsame).2.symm
  · exact absurd (hright _ hpost rfl) hused'

/-- **A hit is an entry in use whose name is in flash.** -/
theorem get_eq_some_iff (t : KvCacheTable) (mem : Nat → Byte) (name : List Byte) (addr : Nat) :
    (t.get mem name).2 = some addr ↔ t.Holds (crcOfName name) addr ∧
      strncmpZero name (slice mem (addr + kvHdrDataSize) kvNameMax) name.length := by
  have hget : (t.get mem name).2 = (t.nodes.find? (cacheHit mem name)).map (·.addr) :=
    (getKvFromCacheNodes_spec mem name t.nodes).2
  have hhit : ∀ node ∈ t.nodes, cacheHit mem name node = true →
      t.Holds (crcOfName name) node.addr ∧
        strncmpZero name (slice mem (node.addr + kvHdrDataSize) kvNameMax) name.length := by
    intro node hnode hhit
    obtain ⟨hused, hcrc, hname⟩ := of_decide_eq_true hhit
    refine ⟨⟨List.mem_map.mpr ⟨node, hnode, ?_⟩, hused⟩, hname⟩
    rw [KvCacheNode.key, hcrc]
  rw [hget, Option.map_eq_some_iff]
  constructor
  · rintro ⟨node, hfind, rfl⟩
    exact hhit node (List.mem_of_find?_eq_some hfind) (List.find?_some hfind)
  · rintro ⟨hholds, hname⟩
    obtain ⟨node, hnode, hkey⟩ := List.mem_map.mp hholds.1
    obtain ⟨hcrc, rfl⟩ := Prod.mk.inj hkey
    have hsome : (t.nodes.find? (cacheHit mem name)).isSome := by
      rw [List.find?_isSome]
      exact ⟨node, hnode, decide_eq_true ⟨hholds.2, hcrc, hname⟩⟩
    obtain ⟨found, hfind⟩ := Option.isSome_iff_exists.mp hsome
    obtain ⟨hfound, -⟩ := hhit found (List.mem_of_find?_eq_some hfind) (List.find?_some hfind)
    exact ⟨found, hfind, holds_unique hfound hholds⟩

theorem map_key_update (t : KvCacheTable) (name : List Byte) (addr : Nat) :
    KeysStep (crcOfName name) addr (t.nodes.map (·.key)) ((t.update name addr).nodes.map (·.key)) :=
  keysStep_updateKvCacheNodes t.size name addr

end KvCacheTable

/-! ## Runs -/

/-- A call of the cache; a look into it comes with what the flash holds. -/
inductive CacheCall where
  | update (name : List Byte) (addr : Nat)
  | get (mem : Nat → Byte) (name : List Byte)

def KvCacheTable.step (t : KvCacheTable) : CacheCall → KvCacheTable
  | .update name addr => t.update name addr
  | .get mem name => (t.get mem name).1

/-- What was recorded last for a check. -/
def recordCall (last : BitVec 16 → Option Nat) : CacheCall → BitVec 16 → Option Nat
  | .update name addr, crc =>
      if crc = crcOfName name then if addr = dataUnused then none else some addr else last crc
  | .get _ _, crc => last crc

/-- The table after a run. -/
def KvCacheTable.run (t : KvCacheTable) (calls : List CacheCall) : KvCacheTable :=
  calls.foldl KvCacheTable.step t

/-- What a run recorded. -/
def recorded (last : BitVec 16 → Option Nat) (calls : List CacheCall) : BitVec 16 → Option Nat :=
  calls.foldl recordCall last

/-- The checks that a run records. -/
def checks (calls : List CacheCall) : List (BitVec 16) :=
  calls.filterMap fun
    | .update name _ => some (crcOfName name)
    | .get _ _ => none

theorem mem_checks {calls : List CacheCall} (name : List Byte) (addr : Nat)
    (h : .update name addr ∈ calls) : crcOfName name ∈ checks calls :=
  List.mem_filterMap.mpr ⟨_, h, rfl⟩

/-- What the table holds was recorded, and if at most 64 checks are in play
it holds all of it. -/
structure Tracks (t : KvCacheTable) (last : BitVec 16 → Option Nat) (crcs : List (BitVec 16)) :
    Prop where
  sound : ∀ crc addr, t.Holds crc addr → last crc = some addr
  known : ∀ crc addr, last crc = some addr → crc ∈ crcs
  complete : crcs.length ≤ kvCacheTableSize → ∀ crc addr, last crc = some addr → t.Holds crc addr

/-- One update. -/
theorem Tracks.update {t : KvCacheTable} {last : BitVec 16 → Option Nat} {crcs : List (BitVec 16)}
    (h : Tracks t last crcs) (name : List Byte) (addr : Nat) (hname : crcOfName name ∈ crcs) :
    Tracks (t.update name addr) (recordCall last (.update name addr)) crcs where
  sound crc a hholds := by
    obtain ⟨hmem, hused⟩ := hholds
    rcases (t.map_key_update name addr).sound t.apart hmem hused with hsame | ⟨hne, hold⟩
    · obtain ⟨rfl, rfl⟩ := Prod.mk.inj hsame
      simp [recordCall, show a ≠ dataUnused from hused]
    · have hcrc : crc ≠ crcOfName name := hne
      rw [recordCall, if_neg hcrc]
      exact h.sound crc a ⟨hold, hused⟩
  known crc a hlast := by
    by_cases hcrc : crc = crcOfName name
    · rwa [hcrc]
    · rw [recordCall, if_neg hcrc] at hlast
      exact h.known crc a hlast
  complete hlen crc a hlast := by
    rcases (t.map_key_update name addr).keeps with hfull | ⟨hnew, hold⟩
    · -- every entry in use with another check: there are too many
      have hcrcs : ∀ k ∈ t.nodes.map (·.key), k.1 ∈ crcs := fun k hk =>
        h.known k.1 k.2 (h.sound k.1 k.2 ⟨hk, (hfull k hk).2⟩)
      have hlt := length_lt_of_full t.apart hfull hcrcs hname
      rw [List.length_map, t.size] at hlt
      omega
    · by_cases hcrc : crc = crcOfName name
      · rw [recordCall, if_pos hcrc] at hlast
        split at hlast
        · cases hlast
        · next haddr =>
          obtain rfl := Option.some.inj hlast
          rw [hcrc]
          exact ⟨hnew haddr, haddr⟩
      · rw [recordCall, if_neg hcrc] at hlast
        obtain ⟨hmem, hused⟩ := h.complete hlen crc a hlast
        exact ⟨hold _ hmem hcrc hused, hused⟩

/-- A look into the cache. -/
theorem Tracks.get {t : KvCacheTable} {last : BitVec 16 → Option Nat} {crcs : List (BitVec 16)}
    (h : Tracks t last crcs) (mem : Nat → Byte) (name : List Byte) :
    Tracks (t.get mem name).1 last crcs := by
  have hholds : ∀ crc addr, (t.get mem name).1.Holds crc addr ↔ t.Holds crc addr := by
    intro crc addr
    rw [KvCacheTable.Holds, KvCacheTable.Holds, KvCacheTable.get, t.map_key_get mem name]
  exact ⟨fun crc addr hc => h.sound crc addr ((hholds crc addr).mp hc), h.known,
    fun hlen crc addr hlast => (hholds crc addr).mpr (h.complete hlen crc addr hlast)⟩

theorem Tracks.run {t : KvCacheTable} {last : BitVec 16 → Option Nat} {crcs : List (BitVec 16)}
    (h : Tracks t last crcs) {calls : List CacheCall}
    (hcrcs : ∀ name addr, .update name addr ∈ calls → crcOfName name ∈ crcs) :
    Tracks (t.run calls) (recorded last calls) crcs := by
  induction calls generalizing t last with
  | nil => exact h
  | cons call calls ih =>
      have hrest : ∀ name addr, .update name addr ∈ calls → crcOfName name ∈ crcs :=
        fun name addr hmem => hcrcs name addr (List.mem_cons_of_mem _ hmem)
      cases call with
      | update name addr => exact ih (h.update name addr (hcrcs name addr (by simp))) hrest
      | get mem name => exact ih (h.get mem name) hrest

/-- A table that `fdb_kvdb_init` has cleared. -/
def Cleared (t : KvCacheTable) : Prop := ∀ node ∈ t.nodes, node.addr = dataUnused

theorem Cleared.tracks {t : KvCacheTable} (h : Cleared t) (crcs : List (BitVec 16)) :
    Tracks t (fun _ => none) crcs where
  sound crc addr hholds := by
    obtain ⟨node, hnode, hkey⟩ := List.mem_map.mp hholds.1
    have haddr : node.addr = addr := congrArg Prod.snd hkey
    exact absurd (haddr ▸ h node hnode) hholds.2
  known _ _ hlast := nomatch hlast
  complete _ _ _ hlast := nomatch hlast

/-- **The cache never lies, and forgets only when it is full.**  After any run
on a cleared table a hit is the address that was recorded last for the check
of the name, with the name in what is read behind it; and if the names that
were recorded have at most 64 checks among them, such an address is a hit. -/
theorem kvCache_run {t : KvCacheTable} (h : Cleared t) (calls : List CacheCall)
    (mem : Nat → Byte) (name : List Byte) (addr : Nat) :
    (((t.run calls).get mem name).2 = some addr →
      recorded (fun _ => none) calls (crcOfName name) = some addr ∧
        strncmpZero name (slice mem (addr + kvHdrDataSize) kvNameMax) name.length) ∧
      ∀ crcs : List (BitVec 16), crcs.length ≤ kvCacheTableSize →
        (∀ n a, .update n a ∈ calls → crcOfName n ∈ crcs) →
        recorded (fun _ => none) calls (crcOfName name) = some addr →
        strncmpZero name (slice mem (addr + kvHdrDataSize) kvNameMax) name.length →
        ((t.run calls).get mem name).2 = some addr := by
  constructor
  · intro hhit
    obtain ⟨hholds, hname⟩ := (KvCacheTable.get_eq_some_iff _ mem name addr).mp hhit
    exact ⟨((h.tracks (checks calls)).run mem_checks).sound _ _ hholds, hname⟩
  · intro crcs hlen hcrcs hlast hname
    have htracks := (h.tracks crcs).run hcrcs
    exact (KvCacheTable.get_eq_some_iff _ mem name addr).mpr
      ⟨htracks.complete hlen _ _ hlast, hname⟩

/-- A table after `fdb_kvdb_init`. -/
def clearedTable : KvCacheTable where
  nodes := List.replicate kvCacheTableSize ⟨0#16, 0, dataUnused⟩
  size := List.length_replicate
  apart := by simp [Apart, KvCacheNode.key]

theorem cleared_clearedTable : Cleared clearedTable := by
  intro node hnode
  rw [List.eq_of_mem_replicate hnode]

/-- A name that is recorded is found, with its letters in flash. -/
theorem kvCache_run_cleared :
    Cleared clearedTable ∧
      ((clearedTable.run [.update [0x61#8] 16]).get (fun _ => 0x61#8) [0x61#8]).2 = some 16 := by
  refine ⟨cleared_clearedTable, ?_⟩
  have hrun := kvCache_run cleared_clearedTable [.update [0x61#8] 16] (fun _ => 0x61#8) [0x61#8] 16
  exact hrun.2 [crcOfName [0x61#8]] (by decide) (by simp) (by simp [recorded, recordCall, dataUnused])
    (by decide)

end DsEthComm.Flashdb
