import DsEthComm.CString
import Mathlib.Algebra.Order.BigOperators.Group.List
import Mathlib.Algebra.GroupWithZero.Nat
import Mathlib.Algebra.Order.Group.Nat
import Mathlib.Data.List.MinMax

/-!
# DsEthComm.Monitor

The loop monitor of `main.c`: threads are registered under a name and report
the start and the end of each round of their loop, and the monitor keeps
statistics of the rounds.

`run` is the state of the monitor after a sequence of calls.  What it should
be is read off the sequence itself: which registrations were taken, which
starts and ends belong to each of them, and how long the rounds were.
-/

namespace DsEthComm.Monitor

/-! ## The monitor -/

/-- `MAX_MONITORED_THREADS`. -/
def maxMonitoredThreads : Nat := 10

/-- `systime_t`, with `CH_CFG_ST_RESOLUTION` 32. -/
abbrev Systime := BitVec 32

/-- `thread_monitor_t`. -/
structure ThreadMonitor where
  name : CStr
  threadPtr : Nat
  lastLoopTime : Systime
  currentLoopTime : Systime
  loopDuration : Systime
  loopCount : BitVec 32
  minLoopTime : Systime
  maxLoopTime : Systime
  totalLoopTime : Systime
  firstLoopTime : Systime
  lastWakeTime : Systime
  wakeCount : BitVec 32
  isActive : Bool
deriving DecidableEq

/-- The first `monitor_count` entries of `thread_monitors`. -/
abbrev Monitors := List ThreadMonitor

/-- An entry as `register_thread_monitor` fills it. -/
def ThreadMonitor.fresh (name : CStr) (threadPtr : Nat) (now : Systime) : ThreadMonitor where
  name := name
  threadPtr := threadPtr
  lastLoopTime := now
  currentLoopTime := now
  loopDuration := 0
  loopCount := 0
  minLoopTime := 0xFFFFFFFF
  maxLoopTime := 0
  totalLoopTime := 0
  firstLoopTime := 0
  lastWakeTime := 0
  wakeCount := 0
  isActive := true

/-- `register_thread_monitor`, at the system time `now`. -/
def registerThreadMonitor (ms : Monitors) (name : CStr) (threadPtr : Nat) (now : Systime) :
    Monitors × Bool :=
  if maxMonitoredThreads ≤ ms.length then (ms, false)
  else (ms ++ [.fresh name threadPtr now], true)

/-- `for (i = 0; i < monitor_count; i++)` up to the first active entry with
an equal name. -/
def updateFirst (name : CStr) (f : ThreadMonitor → ThreadMonitor) : Monitors → Monitors
  | [] => []
  | m :: ms => if m.isActive ∧ m.name = name then f m :: ms else m :: updateFirst name f ms

def ThreadMonitor.loopStart (now : Systime) (m : ThreadMonitor) : ThreadMonitor :=
  { m with
    currentLoopTime := now
    wakeCount := m.wakeCount + 1
    firstLoopTime := if m.firstLoopTime = 0 then now else m.firstLoopTime
    lastWakeTime := now }

def ThreadMonitor.loopEnd (now : Systime) (m : ThreadMonitor) : ThreadMonitor :=
  let loopDuration := now - m.currentLoopTime
  { m with
    loopDuration := loopDuration
    loopCount := m.loopCount + 1
    totalLoopTime := m.totalLoopTime + loopDuration
    minLoopTime := if loopDuration < m.minLoopTime then loopDuration else m.minLoopTime
    maxLoopTime := if loopDuration > m.maxLoopTime then loopDuration else m.maxLoopTime
    lastLoopTime := now }

/-- `update_thread_loop_start`. -/
def updateThreadLoopStart (ms : Monitors) (name : CStr) (now : Systime) : Monitors :=
  updateFirst name (.loopStart now) ms

/-- `update_thread_loop_end`. -/
def updateThreadLoopEnd (ms : Monitors) (name : CStr) (now : Systime) : Monitors :=
  updateFirst name (.loopEnd now) ms

/-- A call, with the system time that it reads. -/
inductive Call where
  | register (name : CStr) (threadPtr : Nat) (now : Systime)
  | loopStart (name : CStr) (now : Systime)
  | loopEnd (name : CStr) (now : Systime)

def step (ms : Monitors) : Call → Monitors
  | .register name threadPtr now => (registerThreadMonitor ms name threadPtr now).1
  | .loopStart name now => updateThreadLoopStart ms name now
  | .loopEnd name now => updateThreadLoopEnd ms name now

/-- The monitor after a sequence of calls. -/
def run (calls : List Call) : Monitors := calls.foldl step []

/-- `avg_loop_time` of `ThreadMonitor`. -/
def ThreadMonitor.avgLoopTime (m : ThreadMonitor) : Systime :=
  if 0 < m.loopCount then m.totalLoopTime / m.loopCount else 0

/-! ## The history -/

/-- A registration: the name and the time. -/
def Call.registration : Call → Option (CStr × Systime)
  | .register name _ now => some (name, now)
  | .loopStart _ _ | .loopEnd _ _ => none

/-- The registrations that were taken. -/
def registrations (calls : List Call) : List (CStr × Systime) :=
  (calls.filterMap Call.registration).take maxMonitoredThreads

/-- The first entry registered under a name. -/
def target (calls : List Call) (name : CStr) : Option Nat :=
  (registrations calls).findIdx? (·.1 = name)

/-- A round begins or ends. -/
inductive Event where
  | start (t : Systime)
  | stop (t : Systime)

/-- What a call says about the entry `i`, after the calls `past`. -/
def attribution (i : Nat) (past : List Call) : Call → List Event
  | .register _ _ _ => []
  | .loopStart name now => if target past name = some i then [.start now] else []
  | .loopEnd name now => if target past name = some i then [.stop now] else []

/-- The starts and ends that belong to the entry `i`, from the calls that
follow `past`. -/
def attributedFrom (i : Nat) : List Call → List Call → List Event
  | _, [] => []
  | past, call :: calls => attribution i past call ++ attributedFrom i (past ++ [call]) calls

def attributed (i : Nat) (calls : List Call) : List Event := attributedFrom i [] calls

/-- The time of the last start, or `s` if there was none. -/
def lastStart (s : Systime) : List Event → Systime
  | [] => s
  | .start t :: events => lastStart t events
  | .stop _ :: events => lastStart s events

/-- How long each round was; `s` is the time of the last start. -/
def durations (s : Systime) : List Event → List Nat
  | [] => []
  | .start t :: events => durations t events
  | .stop t :: events => (t - s).toNat :: durations s events

def starts (events : List Event) : Nat :=
  events.countP fun | .start _ => true | .stop _ => false

/-- An entry says about its rounds what happened: the counters modulo
`2 ^ 32`, the last duration, the least and the greatest one, and the sum
modulo `2 ^ 32`. -/
structure Exact (registration : CStr × Systime) (events : List Event) (m : ThreadMonitor) :
    Prop where
  name : m.name = registration.1
  isActive : m.isActive = true
  currentLoopTime : m.currentLoopTime = lastStart registration.2 events
  loopCount : m.loopCount.toNat = (durations registration.2 events).length % 2 ^ 32
  wakeCount : m.wakeCount.toNat = starts events % 2 ^ 32
  loopDuration : m.loopDuration.toNat = (durations registration.2 events).getLastD 0
  minLoopTime : m.minLoopTime.toNat = (durations registration.2 events).min?.getD 0xFFFFFFFF
  maxLoopTime : m.maxLoopTime.toNat = (durations registration.2 events).max?.getD 0
  totalLoopTime : m.totalLoopTime.toNat = (durations registration.2 events).sum % 2 ^ 32

/-! ## One more event -/

theorem attributedFrom_append (i : Nat) (past calls calls' : List Call) :
    attributedFrom i past (calls ++ calls') =
      attributedFrom i past calls ++ attributedFrom i (past ++ calls) calls' := by
  induction calls generalizing past with
  | nil => simp [attributedFrom]
  | cons call calls ih => simp [attributedFrom, ih]

/-- The last call of a history. -/
theorem attributed_concat (i : Nat) (calls : List Call) (call : Call) :
    attributed i (calls ++ [call]) = attributed i calls ++ attribution i calls call := by
  simp [attributed, attributedFrom_append, attributedFrom]

theorem lastStart_append (s : Systime) (events events' : List Event) :
    lastStart s (events ++ events') = lastStart (lastStart s events) events' := by
  induction events generalizing s with
  | nil => rfl
  | cons e events ih => cases e <;> simp [lastStart, ih]

theorem durations_append (s : Systime) (events events' : List Event) :
    durations s (events ++ events') =
      durations s events ++ durations (lastStart s events) events' := by
  induction events generalizing s with
  | nil => rfl
  | cons e events ih => cases e <;> simp [durations, lastStart, ih]

theorem starts_append (events events' : List Event) :
    starts (events ++ events') = starts events + starts events' :=
  List.countP_append

theorem min?_concat (xs : List Nat) {d m : Nat} (h : d ≤ m) :
    (xs ++ [d]).min?.getD m = min (xs.min?.getD m) d := by
  cases xs with
  | nil => simp [h]
  | cons x xs =>
      rw [List.cons_append, List.min?_cons', List.min?_cons', List.foldl_append]
      rfl

theorem max?_concat (xs : List Nat) (d : Nat) :
    (xs ++ [d]).max?.getD 0 = max (xs.max?.getD 0) d := by
  cases xs with
  | nil => simp
  | cons x xs =>
      rw [List.cons_append, List.max?_cons', List.max?_cons', List.foldl_append]
      rfl

section Exact

variable {registration : CStr × Systime} {events : List Event} {m : ThreadMonitor}

theorem Exact.fresh (name : CStr) (threadPtr : Nat) (now : Systime) :
    Exact (name, now) [] (.fresh name threadPtr now) := by
  constructor <;> rfl

theorem Exact.loopStart (h : Exact registration events m) (now : Systime) :
    Exact registration (events ++ [.start now]) (m.loopStart now) := by
  have hdurations : durations registration.2 (events ++ [.start now]) =
      durations registration.2 events := by
    rw [durations_append]
    exact List.append_nil _
  constructor
  · exact h.name
  · exact h.isActive
  · rw [lastStart_append]
    rfl
  · rw [hdurations]
    exact h.loopCount
  · have hw := h.wakeCount
    simp only [ThreadMonitor.loopStart, starts_append, BitVec.toNat_add]
    simp [hw, starts]
  · rw [hdurations]
    exact h.loopDuration
  · rw [hdurations]
    exact h.minLoopTime
  · rw [hdurations]
    exact h.maxLoopTime
  · rw [hdurations]
    exact h.totalLoopTime

theorem Exact.loopEnd (h : Exact registration events m) (now : Systime) :
    Exact registration (events ++ [.stop now]) (m.loopEnd now) := by
  have hdurations : durations registration.2 (events ++ [.stop now]) =
      durations registration.2 events ++ [(now - m.currentLoopTime).toNat] := by
    rw [durations_append, h.currentLoopTime]
    rfl
  have hlt := (now - m.currentLoopTime).isLt
  constructor
  · exact h.name
  · exact h.isActive
  · rw [lastStart_append]
    exact h.currentLoopTime
  · have hc := h.loopCount
    simp only [ThreadMonitor.loopEnd, hdurations, BitVec.toNat_add, List.length_append]
    simp [hc]
  · rw [starts_append]
    exact h.wakeCount
  · simp [ThreadMonitor.loopEnd, hdurations]
  · rw [hdurations, min?_concat _ (by omega), ← h.minLoopTime]
    simp only [ThreadMonitor.loopEnd, BitVec.lt_def]
    split <;> omega
  · rw [hdurations, max?_concat, ← h.maxLoopTime]
    simp only [ThreadMonitor.loopEnd, gt_iff_lt, BitVec.lt_def]
    split <;> omega
  · have ht := h.totalLoopTime
    simp only [ThreadMonitor.loopEnd, hdurations, BitVec.toNat_add, List.sum_append]
    simp [ht]

end Exact

/-! ## The first entry with a name -/

/-- The entry that the loop over the entries stops at. -/
def firstActive (name : CStr) (ms : Monitors) : Option Nat :=
  ms.findIdx? fun m => m.isActive ∧ m.name = name

theorem firstActive_cons (name : CStr) (m : ThreadMonitor) (ms : Monitors) :
    firstActive name (m :: ms) =
      if m.isActive ∧ m.name = name then some 0 else (firstActive name ms).map (· + 1) := by
  simp [firstActive, List.findIdx?_cons]

/-- Only that entry changes. -/
theorem getElem?_updateFirst (name : CStr) (f : ThreadMonitor → ThreadMonitor) (ms : Monitors)
    (j : Nat) :
    (updateFirst name f ms)[j]? =
      if firstActive name ms = some j then ms[j]?.map f else ms[j]? := by
  induction ms generalizing j with
  | nil => simp [updateFirst]
  | cons m ms ih =>
      rw [updateFirst, firstActive_cons]
      by_cases hm : m.isActive = true ∧ m.name = name
      · cases j <;> simp [hm]
      · cases j <;> simp [hm, ih]

theorem length_updateFirst (name : CStr) (f : ThreadMonitor → ThreadMonitor) (ms : Monitors) :
    (updateFirst name f ms).length = ms.length := by
  induction ms with
  | nil => rfl
  | cons m ms ih =>
      rw [updateFirst]
      split <;> simp [ih]

/-! ## Whole histories -/

/-- The monitor agrees with a history. -/
structure Agrees (calls : List Call) (ms : Monitors) : Prop where
  length : ms.length = (registrations calls).length
  exact : ∀ i registration m, (registrations calls)[i]? = some registration → ms[i]? = some m →
    Exact registration (attributed i calls) m

theorem Agrees.firstActive {calls : List Call} {ms : Monitors} (h : Agrees calls ms)
    (name : CStr) : firstActive name ms = target calls name := by
  have hmap : ms.map (fun m => decide (m.isActive ∧ m.name = name)) =
      (registrations calls).map (fun r => decide (r.1 = name)) := by
    apply List.ext_getElem
    · simpa using h.length
    · intro i hi hi'
      rw [List.length_map] at hi hi'
      have hm := h.exact i _ _ (List.getElem?_eq_getElem hi') (List.getElem?_eq_getElem hi)
      simp [hm.name, hm.isActive]
  have hfind := congrArg (List.findIdx? id) hmap
  rwa [List.findIdx?_map, List.findIdx?_map] at hfind

/-- A call that is not a registration adds none. -/
theorem registrations_concat_none {call : Call} (h : call.registration = none)
    (calls : List Call) : registrations (calls ++ [call]) = registrations calls := by
  simp [registrations, h]

/-- A registration is taken while there is room. -/
theorem registrations_concat_register (calls : List Call) (name : CStr) (threadPtr : Nat)
    (now : Systime) :
    registrations (calls ++ [.register name threadPtr now]) =
      if maxMonitoredThreads ≤ (registrations calls).length then registrations calls
      else registrations calls ++ [(name, now)] := by
  have hmap : (calls ++ [Call.register name threadPtr now]).filterMap Call.registration =
      calls.filterMap Call.registration ++ [(name, now)] := by
    rw [List.filterMap_append]
    rfl
  simp only [registrations, hmap, List.length_take, maxMonitoredThreads]
  by_cases hfull : 10 ≤ (calls.filterMap Call.registration).length
  · rw [if_pos (by omega), List.take_append_of_le_length hfull]
  · rw [if_neg (by omega), List.take_of_length_le (by simp; omega),
      List.take_of_length_le (by omega)]

theorem length_registrations_le (calls : List Call) (call : Call) :
    (registrations calls).length ≤ (registrations (calls ++ [call])).length := by
  cases call with
  | register name threadPtr now =>
      rw [registrations_concat_register]
      split <;> simp
  | loopStart name now => rw [registrations_concat_none rfl]
  | loopEnd name now => rw [registrations_concat_none rfl]

/-- Nothing belongs to an entry that is not registered. -/
theorem attributed_eq_nil {calls : List Call} {i : Nat} (h : (registrations calls).length ≤ i) :
    attributed i calls = [] := by
  induction calls using List.reverseRecOn with
  | nil => rfl
  | append_singleton calls call ih =>
      have hle : (registrations calls).length ≤ i :=
        Nat.le_trans (length_registrations_le calls call) h
      have htarget : ∀ name, target calls name ≠ some i := by
        intro name hi
        have hlt := (List.findIdx?_eq_some_iff_getElem.mp hi).1
        omega
      rw [attributed_concat, ih hle]
      cases call <;> simp [attribution, htarget]

theorem Agrees.register {calls : List Call} {ms : Monitors} (h : Agrees calls ms) (name : CStr)
    (threadPtr : Nat) (now : Systime) :
    Agrees (calls ++ [.register name threadPtr now])
      (registerThreadMonitor ms name threadPtr now).1 := by
  have hlength := h.length
  have hattr : ∀ i, attributed i (calls ++ [.register name threadPtr now]) = attributed i calls :=
    fun i => (attributed_concat i calls _).trans (List.append_nil _)
  have hregs := registrations_concat_register calls name threadPtr now
  by_cases hfull : maxMonitoredThreads ≤ ms.length
  · rw [if_pos (hlength ▸ hfull)] at hregs
    rw [registerThreadMonitor, if_pos hfull]
    refine ⟨by rw [hregs]; exact hlength, fun i registration m hreg hm => ?_⟩
    rw [hregs] at hreg
    rw [hattr]
    exact h.exact i registration m hreg hm
  · rw [if_neg (hlength ▸ hfull)] at hregs
    rw [registerThreadMonitor, if_neg hfull]
    refine ⟨by simp [hregs, hlength], fun i registration m hreg hm => ?_⟩
    rw [hregs] at hreg
    rw [hattr]
    rw [List.getElem?_append] at hreg hm
    by_cases hi : i < ms.length
    · rw [if_pos (hlength ▸ hi)] at hreg
      rw [if_pos hi] at hm
      exact h.exact i registration m hreg hm
    · rw [if_neg (hlength ▸ hi)] at hreg
      rw [if_neg hi] at hm
      rw [List.getElem?_singleton] at hreg hm
      rw [← hlength] at hreg
      split at hm
      · next hzero =>
        rw [if_pos hzero] at hreg
        obtain rfl := Option.some.inj hreg
        obtain rfl := Option.some.inj hm
        rw [attributed_eq_nil (by omega)]
        exact .fresh name threadPtr now
      · contradiction

/-- A start or an end. -/
theorem Agrees.update {calls : List Call} {ms : Monitors} (h : Agrees calls ms) {call : Call}
    {name : CStr} {e : Event} {f : ThreadMonitor → ThreadMonitor}
    (hcall : call.registration = none)
    (hattr : ∀ i, attribution i calls call = if target calls name = some i then [e] else [])
    (hf : ∀ registration events m, Exact registration events m →
      Exact registration (events ++ [e]) (f m)) :
    Agrees (calls ++ [call]) (updateFirst name f ms) := by
  refine ⟨?_, fun i registration m hreg hm => ?_⟩
  · rw [length_updateFirst, registrations_concat_none hcall, h.length]
  · rw [registrations_concat_none hcall] at hreg
    rw [getElem?_updateFirst, h.firstActive] at hm
    rw [attributed_concat, hattr]
    split at hm
    · next htarget =>
      rw [if_pos htarget]
      obtain ⟨m', hm', rfl⟩ := Option.map_eq_some_iff.mp hm
      exact hf _ _ _ (h.exact i registration m' hreg hm')
    · next htarget =>
      rw [if_neg htarget, List.append_nil]
      exact h.exact i registration m hreg hm

theorem Agrees.step {calls : List Call} {ms : Monitors} (h : Agrees calls ms) (call : Call) :
    Agrees (calls ++ [call]) (step ms call) := by
  cases call with
  | register name threadPtr now => exact h.register name threadPtr now
  | loopStart name now =>
      exact h.update (e := .start now) rfl (fun _ => rfl) fun _ _ _ hm => hm.loopStart now
  | loopEnd name now =>
      exact h.update (e := .stop now) rfl (fun _ => rfl) fun _ _ _ hm => hm.loopEnd now

theorem agrees_run (calls : List Call) : Agrees calls (run calls) := by
  induction calls using List.reverseRecOn with
  | nil => exact ⟨rfl, nofun⟩
  | append_singleton calls call ih =>
      rw [run, List.foldl_append]
      exact ih.step call

/-- **Exactness and frame of the loop monitor.** -/
theorem monitor_exact (calls : List Call) :
    (run calls).length ≤ maxMonitoredThreads ∧
      (∀ name threadPtr now, (registerThreadMonitor (run calls) name threadPtr now).2 = false →
        (registerThreadMonitor (run calls) name threadPtr now).1 = run calls) ∧
      (∀ name now j, target calls name ≠ some j →
        (updateThreadLoopStart (run calls) name now)[j]? = (run calls)[j]? ∧
          (updateThreadLoopEnd (run calls) name now)[j]? = (run calls)[j]?) ∧
      (run calls).length = (registrations calls).length ∧
      ∀ i registration m, (registrations calls)[i]? = some registration →
        (run calls)[i]? = some m → Exact registration (attributed i calls) m := by
  have h := agrees_run calls
  refine ⟨?_, ?_, ?_, h.length, h.exact⟩
  · rw [h.length]
    exact List.length_take_le _ _
  · intro name threadPtr now hfalse
    unfold registerThreadMonitor at hfalse ⊢
    split
    · rfl
    · next hroom => simp [hroom] at hfalse
  · intro name now j hj
    rw [← h.firstActive] at hj
    simp only [updateThreadLoopStart, updateThreadLoopEnd, getElem?_updateFirst, if_neg hj,
      and_self]

/-! ## The average -/

/-- The average of every entry with rounds lies between the least and the
greatest duration. -/
def IsAverage (ms : Monitors) : Prop :=
  ∀ m ∈ ms, m.isActive = true → 0 < m.loopCount →
    m.minLoopTime ≤ m.avgLoopTime ∧ m.avgLoopTime ≤ m.maxLoopTime

instance (ms : Monitors) : Decidable (IsAverage ms) :=
  inferInstanceAs (Decidable (∀ m ∈ ms, _))

/-- The durations of each entry add up to less than `2 ^ 32`. -/
def NoOverflow (calls : List Call) : Prop :=
  ∀ i registration, (registrations calls)[i]? = some registration →
    (durations registration.2 (attributed i calls)).sum < 2 ^ 32

theorem length_attributed_le (i : Nat) (calls : List Call) :
    (attributed i calls).length ≤ calls.length := by
  induction calls using List.reverseRecOn with
  | nil => exact Nat.le_refl 0
  | append_singleton calls call ih =>
      have hone : (attribution i calls call).length ≤ 1 := by
        cases call with
        | register _ _ _ => exact Nat.zero_le 1
        | loopStart name now => simp only [attribution]; split <;> simp
        | loopEnd name now => simp only [attribution]; split <;> simp
      rw [attributed_concat, List.length_append, List.length_append]
      exact Nat.add_le_add ih hone

theorem length_durations_le (s : Systime) (events : List Event) :
    (durations s events).length ≤ events.length := by
  induction events generalizing s with
  | nil => exact Nat.le_refl 0
  | cons e events ih =>
      cases e with
      | start t => exact Nat.le_succ_of_le (ih t)
      | stop t => exact Nat.succ_le_succ (ih s)

/-- As many times the least duration is at most the sum. -/
theorem length_mul_min_le_sum {xs : List Nat} (h : xs ≠ []) (m : Nat) :
    xs.length * xs.min?.getD m ≤ xs.sum := by
  obtain ⟨least, hleast⟩ := Option.isSome_iff_exists.mp (List.isSome_min?_of_ne_nil h)
  have hle := (List.min?_eq_some_iff.mp hleast).2
  rw [hleast, Option.getD_some]
  exact List.card_nsmul_le_sum xs least hle

theorem sum_le_length_mul_max {xs : List Nat} (h : xs ≠ []) :
    xs.sum ≤ xs.length * xs.max?.getD 0 := by
  obtain ⟨greatest, hgreatest⟩ := Option.isSome_iff_exists.mp (List.isSome_max?_of_ne_nil h)
  have hle := (List.max?_eq_some_iff.mp hgreatest).2
  rw [hgreatest, Option.getD_some]
  exact List.sum_le_card_nsmul xs greatest hle

theorem Exact.average {registration : CStr × Systime} {events : List Event} {m : ThreadMonitor}
    (h : Exact registration events m) (hlen : events.length < 2 ^ 32)
    (hsum : (durations registration.2 events).sum < 2 ^ 32) (hpos : 0 < m.loopCount) :
    m.minLoopTime ≤ m.avgLoopTime ∧ m.avgLoopTime ≤ m.maxLoopTime := by
  have hshort := length_durations_le registration.2 events
  have hcount : m.loopCount.toNat = (durations registration.2 events).length := by
    rw [h.loopCount, Nat.mod_eq_of_lt (by omega)]
  have htotal : m.totalLoopTime.toNat = (durations registration.2 events).sum := by
    rw [h.totalLoopTime, Nat.mod_eq_of_lt hsum]
  have hrounds : 0 < (durations registration.2 events).length := hcount ▸ hpos
  have hne := List.ne_nil_of_length_pos hrounds
  rw [ThreadMonitor.avgLoopTime, if_pos hpos, BitVec.le_def, BitVec.le_def, BitVec.toNat_udiv,
    hcount, htotal, h.minLoopTime, h.maxLoopTime]
  constructor
  · rw [Nat.le_div_iff_mul_le hrounds, Nat.mul_comm]
    exact length_mul_min_le_sum hne _
  · exact Nat.div_le_of_le_mul (sum_le_length_mul_max hne)

/-- While the durations of each entry add up to less than `2 ^ 32`, **the
reported average is an average**. -/
theorem isAverage_of_noOverflow (calls : List Call) (hlen : calls.length < 2 ^ 32)
    (h : NoOverflow calls) : IsAverage (run calls) := by
  have hrun := agrees_run calls
  intro m hm _ hpos
  obtain ⟨i, hi, hget⟩ := List.mem_iff_getElem.mp hm
  have hreg := List.getElem?_eq_getElem (hrun.length ▸ hi)
  have hexact := hrun.exact i _ m hreg (List.getElem?_eq_some_iff.mpr ⟨hi, hget⟩)
  have hevents := length_attributed_le i calls
  exact hexact.average (by omega) (h i _ hreg) hpos

theorem blinker_nonzero :
    ∀ b ∈ [0x62#8, 0x6C#8, 0x69#8, 0x6E#8, 0x6B#8, 0x65#8, 0x72#8], b ≠ 0#8 := by
  decide

/-- `"blinker"`. -/
def blinker : CStr := ⟨_, blinker_nonzero⟩

/-- A thread with two rounds, which begin at `t₀` and `t₂` and end at `t₁` and
`t₃`. -/
def twoRounds (t₀ t₁ t₂ t₃ : Systime) : List Call :=
  [.register blinker 0 0, .loopStart blinker t₀, .loopEnd blinker t₁, .loopStart blinker t₂,
    .loopEnd blinker t₃]

theorem isAverage_of_noOverflow_twoRounds :
    NoOverflow (twoRounds 10 30 40 80) ∧ IsAverage (run (twoRounds 10 30 40 80)) := by
  have h : NoOverflow (twoRounds 10 30 40 80) := by
    intro i registration hreg
    cases i with
    | zero =>
        obtain rfl := Option.some.inj hreg
        decide
    | succ i => contradiction
  exact ⟨h, isAverage_of_noOverflow _ (by decide) h⟩

/-- Two rounds of `2 ^ 31` ticks each have the average 0. -/
theorem average_overflows :
    ¬IsAverage (run (twoRounds 0 0x80000000 0x80000000 0)) := by
  decide

end DsEthComm.Monitor
