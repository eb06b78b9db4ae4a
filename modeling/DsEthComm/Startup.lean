import DsEthComm.Conc.Run
import DsEthComm.Conc.Ready
import Mathlib.Logic.Function.Basic

/-!
# DsEthComm.Startup

The start of the firmware: `main()` creates the threads, each thread
initialises or uses the kernel objects of `main.c`, and the scheduler
decides in which order.

Scheduling is that of ChibiOS without a time quantum: the head of the ready
queue runs until it blocks, a created or woken thread of higher priority
runs at once, and a preempted thread stays ahead of its peers.  A thread is
the list of its statements that touch a kernel object, create a thread or
may suspend the caller; everything else is left out.

`NRF24InterruptThread` outranks everyone and registers on
`esNRF24Interrupt` the moment it is created.  `NRF24TxThread`, which
initialises that event source, has the priority of `main()` and starts only
when `main()` waits for the shell.  Its `chEvtObjectInit` then empties the
listener list, and no edge of the IRQ line ever reaches the handler.
-/

namespace DsEthComm.Startup

open Conc

/-! ## Threads and their programs -/

inductive Thread where
  | main
  | blinker
  | hid
  | usbHost
  | udpServer
  | nrf24Tx
  | nrf24Irq
  | shell
deriving DecidableEq, Repr

/-- Priorities over `NORMALPRIO`, the priority of `main()`. -/
def prio : Thread → Nat
  | .main | .hid | .udpServer | .nrf24Tx => 0
  | .blinker | .shell => 1
  | .usbHost => 2
  | .nrf24Irq => 3

/-- The kernel objects that one thread initialises and others use. -/
inductive Obj where
  | esDS5Ready
  | esNRF24Interrupt
  | udpDestMutex
deriving DecidableEq, Repr

inductive Stmt where
  /-- `chThdCreateStatic` / `chThdCreateFromHeap`. -/
  | create (t : Thread)
  /-- `chEvtObjectInit` / `chMtxObjectInit`. -/
  | init (o : Obj)
  /-- `chEvtRegisterMask`. -/
  | register (o : Obj)
  /-- `chMtxLock(&udp_dest_mutex)`. -/
  | lock
  | unlock
  /-- `palEnableLineEvent` and `palSetLineCallback` of the IRQ line. -/
  | arm
  | usbhStart
  | usbhhidStart
  /-- `chEvtWaitOne`. -/
  | wait
  /-- `chThdWait`. -/
  | join (t : Thread)
  /-- A call that may suspend its caller: a sleep, an SPI transfer, a read
  of the shell's channel. -/
  | pause
  /-- An `if` around the next `n` statements. -/
  | branch (n : Nat)
  /-- A conditional `return` from the thread function. -/
  | exit
deriving DecidableEq, Repr

/-- The statements before a thread's endless loop. -/
def prologue : Thread → List Stmt
  | .main => [.create .blinker, .create .hid, .create .usbHost, .create .udpServer,
      .create .nrf24Tx, .create .nrf24Irq]
  | .usbHost => [.init .esDS5Ready, .usbhStart, .pause]
  -- lwipInit; the mutex; the listener; socket and bind with their error returns;
  -- the first udp_get_destination
  | .udpServer => [.pause, .init .udpDestMutex, .register .esDS5Ready, .pause, .exit, .pause,
      .exit, .lock, .unlock]
  -- nrf24l01_basic_init and nrf24l01_basic_set_tx_address are the pauses
  | .nrf24Tx => [.init .esNRF24Interrupt, .pause, .arm, .register .esDS5Ready, .pause]
  | .nrf24Irq => [.register .esNRF24Interrupt]
  | .blinker | .hid | .shell => []

/-- The body of a thread's endless loop. -/
def loop : Thread → List Stmt
  | .main => [.create .shell, .join .shell, .pause]
  | .blinker => [.pause, .pause]
  | .hid => [.branch 2, .pause, .usbhhidStart, .pause]
  | .usbHost => [.pause, .pause]
  | .udpServer => [.wait, .lock, .unlock, .branch 1, .pause]
  | .nrf24Tx => [.wait, .pause]
  | .nrf24Irq => [.wait, .pause]
  -- read a line; udp_dest and udp_dest_get lock the mutex; the radio commands
  -- use the bus; exit ends the shell
  | .shell => [.pause, .branch 2, .lock, .unlock, .pause, .exit]

/-- The statement a thread executes next. -/
def stmtAt (t : Thread) (pc : Nat) : Stmt :=
  if pc < (prologue t).length then (prologue t).getD pc .pause
  else (loop t).getD ((pc - (prologue t).length) % (loop t).length) .pause

/-! ## State -/

inductive Status where
  | absent
  | ready
  /-- Asleep until something outside the model wakes it. -/
  | suspended
  /-- In `chEvtWaitOne` or `chThdWait`. -/
  | waiting
  | done
deriving DecidableEq, Repr

/-- What the order of start-up is about. -/
inductive Op where
  | init
  /-- A registration, a broadcast or a lock. -/
  | use
deriving DecidableEq, Repr

structure State where
  ready : List Thread
  status : Thread → Status
  pc : Thread → Nat
  listeners : Obj → List Thread
  /-- The one event each thread waits for is in its pending mask. -/
  pending : Thread → Bool
  owner : Option Thread
  /-- The IRQ line is enabled and has its callback. -/
  armed : Bool
  usbStarted : Bool
  hidStarted : Bool
  /-- The operations on the objects so far, the last one first. -/
  log : List (Obj × Op)

/-- After `chSysInit()`: `main()` is the only thread. -/
def boot : State where
  ready := [.main]
  status := fun t => if t = .main then .ready else .absent
  pc := fun _ => 0
  listeners := fun _ => []
  pending := fun _ => false
  owner := none
  armed := false
  usbStarted := false
  hidStarted := false
  log := []

/-! ## Steps -/

namespace State

def advance (s : State) (t : Thread) (n : Nat) : State :=
  { s with pc := Function.update s.pc t (s.pc t + n) }

/-- `chSchReadyI`, and preemption if the thread outranks the running one. -/
def makeReady (s : State) (t : Thread) : State :=
  { s with ready := enqueue prio t s.ready, status := Function.update s.status t .ready }

/-- The running thread gives up the processor. -/
def block (s : State) (t : Thread) (st : Status) : State :=
  { s with ready := s.ready.tail, status := Function.update s.status t st }

def record (s : State) (o : Obj) (op : Op) : State := { s with log := (o, op) :: s.log }

/-- `chEvtSignalI`. -/
def signal (s : State) (t : Thread) : State :=
  let s := { s with pending := Function.update s.pending t true }
  if s.status t = .waiting then s.makeReady t else s

/-- `chEvtBroadcastI`. -/
def broadcast (s : State) (o : Obj) : State :=
  (s.listeners o).foldl signal (s.record o .use)

/-- The end of a thread wakes up whoever waits for it. -/
def terminate (s : State) (t : Thread) : State :=
  let s := { s.block t .done with pc := Function.update s.pc t 0 }
  if s.status .main = .waiting then s.makeReady .main else s

/-- The running thread executes a statement; `choice` settles whether it
suspends, skips or returns where it may.  A thread that finds the mutex
owned sleeps and tries again. -/
def exec (s : State) (t : Thread) (choice : Bool) : Stmt → State
  | .create u => (s.advance t 1).makeReady u
  | .init o =>
      { (s.advance t 1).record o .init with
        listeners := Function.update s.listeners o []
        owner := if o = .udpDestMutex then none else s.owner }
  | .register o =>
      { (s.advance t 1).record o .use with
        listeners := Function.update s.listeners o (t :: s.listeners o) }
  | .lock =>
      if s.owner = none then { (s.advance t 1).record .udpDestMutex .use with owner := some t }
      else (s.record .udpDestMutex .use).block t .suspended
  | .unlock => { s.advance t 1 with owner := none }
  | .arm => { s.advance t 1 with armed := true }
  | .usbhStart => { s.advance t 1 with usbStarted := true }
  | .usbhhidStart => { s.advance t 1 with hidStarted := s.usbStarted }
  | .wait =>
      if s.pending t then { s.advance t 1 with pending := Function.update s.pending t false }
      else s.block t .waiting
  | .join u => if s.status u = .done then s.advance t 1 else s.block t .waiting
  | .pause => if choice then (s.advance t 1).block t .suspended else s.advance t 1
  | .branch n => s.advance t (if choice then n + 1 else 1)
  | .exit => if choice then s.terminate t else s.advance t 1

end State

inductive Label where
  /-- The running thread executes its next statement. -/
  | exec (choice : Bool)
  /-- A sleep or a transfer of a suspended thread ends. -/
  | wake (t : Thread)
  /-- A falling edge of the IRQ line:
  `nrf24l01_interface_gpio_interrupt_callback`. -/
  | edge
  /-- An accepted HID report: `_hid_report_callback`. -/
  | report
deriving DecidableEq, Repr

def step (s : State) : Label → Option State
  | .exec choice =>
      match s.ready with
      | [] => none
      | t :: _ => some (s.exec t choice (stmtAt t (s.pc t)))
  | .wake t => if s.status t = .suspended then some (s.makeReady t) else none
  | .edge => if s.armed then some (s.broadcast .esNRF24Interrupt) else none
  | .report => if s.hidStarted then some (s.broadcast .esDS5Ready) else none

/-! ## The order of start-up -/

/-- Every use of an object comes after its initialisation, and no
initialisation after a use.  The list has the last operation first. -/
def Ordered : List (Obj × Op) → Prop
  | [] => True
  | (o, .use) :: log => (o, .init) ∈ log ∧ Ordered log
  | (o, .init) :: log => (o, .use) ∉ log ∧ Ordered log

theorem Ordered.tail {x : Obj × Op} {log : List (Obj × Op)} (h : Ordered (x :: log)) :
    Ordered log := by
  obtain ⟨o, op⟩ := x
  cases op <;> exact h.2

/-! ## What statements and broadcasts change -/

/-- A signal sets one pending bit and may reorder the queue. -/
theorem signal_frame (s : State) (t : Thread) :
    (s.signal t).pc = s.pc ∧ (s.signal t).listeners = s.listeners ∧
      (s.signal t).armed = s.armed ∧ (s.signal t).log = s.log ∧
      ∀ u, u ≠ t → (s.signal t).pending u = s.pending u := by
  by_cases h : s.status t = .waiting
  · simp +contextual [State.signal, h, State.makeReady]
  · simp +contextual [State.signal, h]

/-- A broadcast is logged and reaches the listeners only. -/
theorem broadcast_frame (s : State) (o : Obj) :
    (s.broadcast o).pc = s.pc ∧ (s.broadcast o).listeners = s.listeners ∧
      (s.broadcast o).armed = s.armed ∧ (s.broadcast o).log = (o, .use) :: s.log ∧
      ∀ u, u ∉ s.listeners o → (s.broadcast o).pending u = s.pending u := by
  have hfold : ∀ (l : List Thread) (r : State),
      (l.foldl State.signal r).pc = r.pc ∧ (l.foldl State.signal r).listeners = r.listeners ∧
        (l.foldl State.signal r).armed = r.armed ∧ (l.foldl State.signal r).log = r.log ∧
        ∀ u, u ∉ l → (l.foldl State.signal r).pending u = r.pending u := by
    intro l
    induction l with
    | nil => intro r; simp
    | cons t l ih =>
        intro r
        obtain ⟨hpc, hlist, harm, hlog, hpend⟩ := ih (r.signal t)
        obtain ⟨hpc', hlist', harm', hlog', hpend'⟩ := signal_frame r t
        rw [List.foldl_cons, hpc, hlist, harm, hlog]
        refine ⟨hpc', hlist', harm', hlog', ?_⟩
        intro u hu
        rw [List.mem_cons, not_or] at hu
        rw [hpend u hu.2, hpend' u hu.1]
  exact hfold _ _

/-! ## Which thread executes what -/

/-- A statement of a thread is one of its prologue at its own place, or one
of its loop. -/
theorem stmtAt_cases (t : Thread) (pc : Nat) :
    (prologue t)[pc]? = some (stmtAt t pc) ∨
      ((prologue t).length ≤ pc ∧ stmtAt t pc ∈ loop t) := by
  unfold stmtAt
  split
  case isTrue h =>
    left
    rw [List.getD_eq_getElem?_getD, List.getElem?_eq_getElem h]
    rfl
  case isFalse h =>
    right
    have hpos : 0 < (loop t).length := by cases t <;> decide
    refine ⟨Nat.le_of_not_lt h, ?_⟩
    rw [List.getD_eq_getElem?_getD, List.getElem?_eq_getElem (Nat.mod_lt _ hpos)]
    exact List.getElem_mem _

/-- Where a statement that is in no loop stands. -/
theorem stmtAt_prologue {t : Thread} {pc : Nat} {c : Stmt} (h : stmtAt t pc = c)
    (hloop : c ∉ loop t) : (prologue t)[pc]? = some c := by
  obtain hpro | ⟨-, hmem⟩ := stmtAt_cases t pc
  · rw [hpro, h]
  · rw [h] at hmem
    exact absurd hmem hloop

theorem eq_of_register_nrf {t : Thread} {pc : Nat}
    (h : stmtAt t pc = .register .esNRF24Interrupt) : t = .nrf24Irq ∧ pc = 0 := by
  have hpro := stmtAt_prologue h (by cases t <;> decide)
  have hmem := List.mem_of_getElem? hpro
  have ht : t = .nrf24Irq := by cases t <;> revert hmem <;> decide
  subst ht
  have hpc : pc < 1 := (List.getElem?_eq_some_iff.mp hpro).1
  exact ⟨rfl, by omega⟩

theorem ne_register_ds5 {pc : Nat} : stmtAt .nrf24Irq pc ≠ .register .esDS5Ready := by
  intro h
  have hmem := List.mem_of_getElem? (stmtAt_prologue h (by decide))
  revert hmem
  decide

theorem eq_of_arm {t : Thread} {pc : Nat} (h : stmtAt t pc = .arm) : t = .nrf24Tx := by
  have hpro := stmtAt_prologue h (by cases t <;> decide)
  have hmem := List.mem_of_getElem? hpro
  cases t <;> revert hmem <;> decide

theorem eq_of_exit {t : Thread} {pc : Nat} (h : stmtAt t pc = .exit) :
    t = .udpServer ∨ t = .shell := by
  obtain hpro | ⟨-, hmem⟩ := stmtAt_cases t pc
  · rw [h] at hpro
    have hmem := List.mem_of_getElem? hpro
    cases t <;> revert hmem <;> decide
  · rw [h] at hmem
    cases t <;> revert hmem <;> decide

/-! ## What executing a statement changes -/

section Exec

variable (s : State) (t : Thread) (choice : Bool) (c : Stmt)

theorem exec_pc_of_ne {u : Thread} (hu : u ≠ t) : (s.exec t choice c).pc u = s.pc u := by
  cases c <;> simp only [State.exec, State.terminate] <;> repeat' split
  all_goals simp [State.advance, State.record, State.makeReady, State.block, hu]

theorem exec_pc_le (hc : c ≠ .exit) : s.pc t ≤ (s.exec t choice c).pc t := by
  cases c <;> simp only [State.exec] <;> repeat' split
  all_goals simp_all [State.advance, State.record, State.makeReady, State.block]

theorem exec_listeners {o : Obj} (hi : c ≠ .init o) (hr : c ≠ .register o) :
    (s.exec t choice c).listeners o = s.listeners o := by
  cases c with
  | init o' =>
      have ho : o ≠ o' := by rintro rfl; exact hi rfl
      simp [State.exec, ho]
  | register o' =>
      have ho : o ≠ o' := by rintro rfl; exact hr rfl
      simp [State.exec, ho]
  | _ =>
      simp only [State.exec, State.terminate]
      repeat' split
      all_goals simp [State.advance, State.record, State.makeReady, State.block]

theorem exec_armed (hc : c ≠ .arm) : (s.exec t choice c).armed = s.armed := by
  cases c <;> simp only [State.exec, State.terminate] <;> repeat' split
  all_goals simp_all [State.advance, State.record, State.makeReady, State.block]

theorem exec_log :
    (s.exec t choice c).log = s.log ∨ ∃ x, (s.exec t choice c).log = x :: s.log := by
  cases c <;> simp only [State.exec, State.terminate] <;> repeat' split
  all_goals simp [State.advance, State.record, State.makeReady, State.block]

theorem exec_pending {u : Thread} (hu : s.pending u = false) :
    (s.exec t choice c).pending u = false := by
  cases c <;> simp only [State.exec, State.terminate] <;> repeat' split
  all_goals simp_all [State.advance, State.record, State.makeReady, State.block,
    Function.update_apply]

end Exec

/-! ## After the registration of the interrupt thread -/

/-- `NRF24InterruptThread` has registered; `NRF24TxThread` has not started,
or it has emptied the listener list. -/
structure After (s : State) : Prop where
  registered : 0 < s.pc .nrf24Irq
  disordered : ¬ Ordered s.log
  emptied : 0 < s.pc .nrf24Tx → .nrf24Irq ∉ s.listeners .esNRF24Interrupt
  armed : s.armed = true → 0 < s.pc .nrf24Tx
  other : .nrf24Irq ∉ s.listeners .esDS5Ready
  pending : s.pending .nrf24Irq = false

/-- An out-of-order log stays out of order. -/
theorem not_ordered_exec {s : State} (h : ¬ Ordered s.log) (t : Thread) (choice : Bool)
    (c : Stmt) : ¬ Ordered (s.exec t choice c).log := by
  obtain hlog | ⟨x, hlog⟩ := exec_log s t choice c
  · rw [hlog]; exact h
  · rw [hlog]; exact fun hx => h hx.tail

/-- The radio threads never exit, so they only move forward. -/
theorem pc_le_exec (s : State) (t : Thread) (choice : Bool) {u : Thread}
    (hu : u = .nrf24Irq ∨ u = .nrf24Tx) :
    s.pc u ≤ (s.exec t choice (stmtAt t (s.pc t))).pc u := by
  by_cases hut : u = t
  · subst hut
    apply exec_pc_le
    intro hexit
    have hother := eq_of_exit hexit
    grind
  · exact Nat.le_of_eq (exec_pc_of_ne s t choice _ hut).symm

/-- `NRF24TxThread` starts with `chEvtObjectInit(&esNRF24Interrupt)`. -/
theorem pos_of_exec {s : State} {t : Thread} {choice : Bool}
    (hinit : stmtAt t (s.pc t) ≠ .init .esNRF24Interrupt)
    (h : 0 < (s.exec t choice (stmtAt t (s.pc t))).pc .nrf24Tx) : 0 < s.pc .nrf24Tx := by
  refine Nat.pos_of_ne_zero fun h0 => hinit ?_
  have ht : t = .nrf24Tx := by
    by_contra hne
    rw [exec_pc_of_ne s t choice _ (Ne.symm hne), h0] at h
    omega
  rw [ht, h0]
  rfl

/-- The list is emptied by `chEvtObjectInit`, and only the interrupt thread
could refill it. -/
theorem After.emptied_exec {s : State} (hs : After s) (t : Thread) (choice : Bool)
    (htx : 0 < (s.exec t choice (stmtAt t (s.pc t))).pc .nrf24Tx) :
    .nrf24Irq ∉ (s.exec t choice (stmtAt t (s.pc t))).listeners .esNRF24Interrupt := by
  by_cases hinit : stmtAt t (s.pc t) = .init .esNRF24Interrupt
  · rw [hinit]
    simp [State.exec]
  · have hreg : stmtAt t (s.pc t) ≠ .register .esNRF24Interrupt := by
      intro h
      obtain ⟨rfl, h0⟩ := eq_of_register_nrf h
      have hpos := hs.registered
      omega
    rw [exec_listeners s t choice _ hinit hreg]
    exact hs.emptied (pos_of_exec hinit htx)

theorem After.other_exec {s : State} (hs : After s) (t : Thread) (choice : Bool) :
    .nrf24Irq ∉ (s.exec t choice (stmtAt t (s.pc t))).listeners .esDS5Ready := by
  by_cases hinit : stmtAt t (s.pc t) = .init .esDS5Ready
  · rw [hinit]
    simp [State.exec]
  · by_cases hreg : stmtAt t (s.pc t) = .register .esDS5Ready
    · have ht : t ≠ .nrf24Irq := by
        rintro rfl
        exact ne_register_ds5 hreg
      rw [hreg]
      simpa [State.exec, Ne.symm ht] using hs.other
    · rw [exec_listeners s t choice _ hinit hreg]
      exact hs.other

theorem After.armed_exec {s : State} (hs : After s) (t : Thread) (choice : Bool)
    (harm : (s.exec t choice (stmtAt t (s.pc t))).armed = true) :
    0 < (s.exec t choice (stmtAt t (s.pc t))).pc .nrf24Tx := by
  by_cases hc : stmtAt t (s.pc t) = .arm
  · obtain rfl := eq_of_arm hc
    rw [hc]
    simp [State.exec, State.advance]
  · rw [exec_armed s t choice _ hc] at harm
    exact Nat.lt_of_lt_of_le (hs.armed harm) (pc_le_exec s t choice (.inr rfl))

theorem After.exec {s : State} (hs : After s) (t : Thread) (choice : Bool) :
    After (s.exec t choice (stmtAt t (s.pc t))) where
  registered := Nat.lt_of_lt_of_le hs.registered (pc_le_exec s t choice (.inl rfl))
  disordered := not_ordered_exec hs.disordered t choice _
  emptied := hs.emptied_exec t choice
  armed := hs.armed_exec t choice
  other := hs.other_exec t choice
  pending := exec_pending s t choice _ hs.pending

/-- A broadcast does not reach the interrupt thread. -/
theorem After.broadcast {s : State} (hs : After s) {o : Obj} (ho : .nrf24Irq ∉ s.listeners o) :
    After (s.broadcast o) := by
  obtain ⟨hpc, hlist, harm, hlog, hpend⟩ := broadcast_frame s o
  constructor
  · rw [hpc]; exact hs.registered
  · rw [hlog]; exact fun h => hs.disordered h.tail
  · rw [hpc, hlist]; exact hs.emptied
  · rw [harm, hpc]; exact hs.armed
  · rw [hlist]; exact hs.other
  · rw [hpend _ ho]; exact hs.pending

theorem After.step {s s' : State} {l : Label} (hs : After s) (h : step s l = some s') :
    After s' := by
  cases l with
  | exec choice =>
      simp only [Startup.step] at h
      split at h
      · contradiction
      · obtain rfl := Option.some.inj h
        exact hs.exec _ choice
  | wake t =>
      simp only [Startup.step] at h
      split at h
      · obtain rfl := Option.some.inj h
        exact ⟨hs.registered, hs.disordered, hs.emptied, hs.armed, hs.other, hs.pending⟩
      · contradiction
  | edge =>
      simp only [Startup.step] at h
      split at h
      case isTrue harm =>
        obtain rfl := Option.some.inj h
        exact hs.broadcast (hs.emptied (hs.armed harm))
      case isFalse => contradiction
  | report =>
      simp only [Startup.step] at h
      split at h
      · obtain rfl := Option.some.inj h
        exact hs.broadcast hs.other
      · contradiction

/-! ## Before the registration of the interrupt thread -/

/-- `main()` has not given up the processor to a thread of its own
priority, so only `blinker` and `usb_host` have run besides it; and the
interrupt thread, once created, is the next to run. -/
structure Before (s : State) : Prop where
  queue : ∃ hi lo, s.ready = hi ++ .main :: lo ∧ ∀ t ∈ hi, 0 < prio t
  main : s.status .main = .ready
  shell : s.status .shell = .absent ∧ .shell ∉ s.ready
  peers : ∀ t, t ≠ .main → prio t = 0 → s.pc t = 0 ∧ s.status t ≠ .suspended
  irq : (s.pc .main < 6 ∧ .nrf24Irq ∉ s.ready ∧ s.status .nrf24Irq = .absent) ∨
    (s.pc .main = 6 ∧ s.ready.head? = some .nrf24Irq ∧ s.status .nrf24Irq = .ready)
  irqPc : s.pc .nrf24Irq = 0
  log : s.log = if s.pc .usbHost = 0 then [] else [(.esDS5Ready, .init)]
  armed : s.armed = false
  hidStarted : s.hidStarted = false
  listeners : ∀ o, s.listeners o = []
  pending : s.pending .nrf24Irq = false

theorem before_boot : Before boot where
  queue := ⟨[], [], rfl, by simp⟩
  main := rfl
  shell := by simp [boot]
  peers := by intro t ht _; simp [boot, ht]
  irq := .inl (by simp [boot])
  irqPc := rfl
  log := rfl
  armed := rfl
  hidStarted := rfl
  listeners := fun _ => rfl
  pending := rfl

theorem Before.ordered {s : State} (hs : Before s) : Ordered s.log := by
  rw [hs.log]
  split <;> simp [Ordered]

/-- Until `main()` has created it, the interrupt thread does not exist. -/
theorem Before.irq_absent {s : State} (hs : Before s) (h6 : s.pc .main < 6) :
    .nrf24Irq ∉ s.ready ∧ s.status .nrf24Irq = .absent := by
  obtain ⟨-, h⟩ | ⟨h, -⟩ := hs.irq
  · exact h
  · omega

/-- The registration itself: `esNRF24Interrupt` has not been initialised. -/
theorem Before.register {s : State} (hs : Before s) (choice : Bool) :
    After (s.exec .nrf24Irq choice (.register .esNRF24Interrupt)) := by
  have htx : s.pc .nrf24Tx = 0 := (hs.peers _ (by decide) rfl).1
  constructor
  · simp [State.exec, State.record, State.advance]
  · rintro ⟨hmem, -⟩
    simp only [State.advance, hs.log] at hmem
    split at hmem <;> simp at hmem
  · intro h
    simp [State.exec, State.record, State.advance, htx] at h
  · intro h
    simp [State.exec, State.record, State.advance, hs.armed] at h
  · simp [State.exec, hs.listeners]
  · exact exec_pending s _ choice _ hs.pending

/-- A thread of higher priority than `main()` that is made ready goes ahead
of `main()`. -/
theorem Before.makeReady {s : State} (hs : Before s) {t : Thread} (ht : t = .blinker ∨ t = .usbHost) :
    Before (s.makeReady t) := by
  obtain ⟨hi, lo, hq, hhi⟩ := hs.queue
  have hp : 0 < prio t := by obtain rfl | rfl := ht <;> decide
  have hp3 : prio t ≤ prio .nrf24Irq := by obtain rfl | rfl := ht <;> decide
  have hmain : t ≠ .main := by obtain rfl | rfl := ht <;> decide
  have hshell : t ≠ .shell := by obtain rfl | rfl := ht <;> decide
  have hirq : t ≠ .nrf24Irq := by obtain rfl | rfl := ht <;> decide
  refine { hs with
    queue := ⟨enqueue prio t hi, lo, ?_, ?_⟩
    main := ?_
    shell := ?_
    peers := ?_
    irq := ?_ }
  · simp only [State.makeReady, hq]
    exact enqueue_before hp hi lo
  · intro u hu
    obtain rfl | hu := mem_enqueue.mp hu
    · exact hp
    · exact hhi u hu
  · simp [State.makeReady, hmain.symm, hs.main]
  · refine ⟨by simp [State.makeReady, hshell.symm, hs.shell.1], ?_⟩
    simp [State.makeReady, mem_enqueue, hshell.symm, hs.shell.2]
  · intro u hu hu0
    refine ⟨(hs.peers u hu hu0).1, ?_⟩
    have hut : u ≠ t := by rintro rfl; omega
    simp [State.makeReady, hut, (hs.peers u hu hu0).2]
  · obtain ⟨h6, hnot, habs⟩ | ⟨h6, hhead, hready⟩ := hs.irq
    · left
      refine ⟨h6, ?_, by simp [State.makeReady, hirq.symm, habs]⟩
      simp [State.makeReady, mem_enqueue, hirq.symm, hnot]
    · right
      refine ⟨h6, ?_, by simp [State.makeReady, hirq.symm, hready]⟩
      cases hr : s.ready with
      | nil => simp [hr] at hhead
      | cons u us =>
          obtain rfl : u = .nrf24Irq := by simpa [hr] using hhead
          simp [State.makeReady, hr, enqueue_cons_of_le hp3]

/-- A thread of the priority of `main()` that is made ready queues up
behind it. -/
theorem Before.makeReady_peer {s : State} (hs : Before s) (h6 : s.pc .main < 6) {t : Thread}
    (hmain : t ≠ .main) (hp : prio t = 0) : Before (s.makeReady t) := by
  obtain ⟨hi, lo, hq, hhi⟩ := hs.queue
  have hshell : t ≠ .shell := by rintro rfl; simp [prio] at hp
  have hirq : t ≠ .nrf24Irq := by rintro rfl; simp [prio] at hp
  have hnot := hs.irq_absent h6
  refine { hs with
    queue := ⟨hi, enqueue prio t lo, ?_, hhi⟩
    main := ?_
    shell := ?_
    peers := ?_
    irq := .inl ⟨h6, ?_, ?_⟩ }
  · simp only [State.makeReady, hq]
    refine enqueue_behind ?_ (Nat.le_of_eq hp) lo
    intro u _
    omega
  · simp [State.makeReady, hmain.symm, hs.main]
  · refine ⟨by simp [State.makeReady, hshell.symm, hs.shell.1], ?_⟩
    simp [State.makeReady, mem_enqueue, hshell.symm, hs.shell.2]
  · intro u hu hu0
    refine ⟨(hs.peers u hu hu0).1, ?_⟩
    by_cases hut : u = t
    · simp [State.makeReady, hut]
    · simp [State.makeReady, hut, (hs.peers u hu hu0).2]
  · simp [State.makeReady, mem_enqueue, hirq.symm, hnot.1]
  · simp [State.makeReady, hirq.symm, hnot.2]

/-- The interrupt thread outranks every ready thread, so it runs at once. -/
theorem Before.create_irq {s : State} (hs : Before s) (h5 : s.pc .main = 5) :
    Before ((s.advance .main 1).makeReady .nrf24Irq) := by
  obtain ⟨hi, lo, hq, hhi⟩ := hs.queue
  have hnot : .nrf24Irq ∉ s.ready := (hs.irq_absent (by omega)).1
  have htop : ∀ u ∈ s.ready, prio u < prio .nrf24Irq := by
    intro u hu
    have hne : u ≠ .nrf24Irq := by rintro rfl; exact hnot hu
    cases u <;> first | decide | contradiction
  have hready : ((s.advance .main 1).makeReady .nrf24Irq).ready = .nrf24Irq :: s.ready :=
    enqueue_top htop
  refine { hs with
    queue := ⟨.nrf24Irq :: hi, lo, by rw [hready, hq]; rfl, ?_⟩
    main := ?_
    shell := ?_
    peers := ?_
    irq := .inr ⟨?_, by rw [hready]; rfl, by simp [State.makeReady]⟩
    irqPc := ?_
    log := ?_ }
  · intro u hu
    obtain rfl | hu := List.mem_cons.mp hu
    · decide
    · exact hhi u hu
  · simpa [State.makeReady, State.advance] using hs.main
  · refine ⟨by simpa [State.makeReady, State.advance] using hs.shell.1, ?_⟩
    rw [hready]
    simpa using hs.shell.2
  · intro u hu hu0
    have hirq : u ≠ .nrf24Irq := by rintro rfl; simp [prio] at hu0
    simpa [State.makeReady, State.advance, hu, hirq] using hs.peers u hu hu0
  · simp [State.makeReady, State.advance, h5]
  · simpa [State.makeReady, State.advance] using hs.irqPc
  · simpa [State.makeReady, State.advance] using hs.log

/-- `main()` goes on to a creation that is not the last. -/
theorem Before.advance_main {s : State} (hs : Before s) (h5 : s.pc .main < 5) :
    Before (s.advance .main 1) := by
  refine { hs with
    peers := ?_
    irq := .inl ⟨?_, hs.irq_absent (by omega)⟩
    irqPc := ?_
    log := ?_ }
  · intro u hu hu0
    simpa [State.advance, hu] using hs.peers u hu hu0
  · simp only [State.advance, Function.update_self]
    omega
  · simpa [State.advance] using hs.irqPc
  · simpa [State.advance] using hs.log

/-- `main()` creates a thread. -/
theorem Before.exec_main {s : State} (hs : Before s) (hpc : s.pc .main < 6) (choice : Bool) :
    Before (s.exec .main choice (stmtAt .main (s.pc .main))) := by
  by_cases h5 : s.pc .main = 5
  · rw [h5]
    exact hs.create_irq h5
  · have hadv := hs.advance_main (by omega)
    have h6 : (s.advance .main 1).pc .main < 6 := by
      simp only [State.advance, Function.update_self]
      omega
    have hcase : s.pc .main = 0 ∨ s.pc .main = 1 ∨ s.pc .main = 2 ∨ s.pc .main = 3 ∨
        s.pc .main = 4 := by omega
    obtain h | h | h | h | h := hcase
    · rw [h]; exact hadv.makeReady (.inl rfl)
    · rw [h]; exact hadv.makeReady_peer h6 (by decide) rfl
    · rw [h]; exact hadv.makeReady (.inr rfl)
    · rw [h]; exact hadv.makeReady_peer h6 (by decide) rfl
    · rw [h]; exact hadv.makeReady_peer h6 (by decide) rfl

/-- `blinker` or `usb_host`, past its initialisation, goes on. -/
theorem Before.advance_busy {s : State} (hs : Before s) {t : Thread}
    (ht : t = .blinker ∨ (t = .usbHost ∧ s.pc .usbHost ≠ 0)) : Before (s.advance t 1) := by
  refine { hs with
    peers := ?_
    irq := ?_
    irqPc := ?_
    log := ?_ }
  · intro u hu hu0
    have hut : u ≠ t := by rintro rfl; obtain rfl | ⟨rfl, -⟩ := ht <;> simp [prio] at hu0
    simpa [State.advance, hut] using hs.peers u hu hu0
  · obtain rfl | ⟨rfl, -⟩ := ht <;> simpa [State.advance] using hs.irq
  · obtain rfl | ⟨rfl, -⟩ := ht <;> simpa [State.advance] using hs.irqPc
  · obtain rfl | ⟨rfl, h0⟩ := ht
    · simpa [State.advance] using hs.log
    · simpa [State.advance, h0] using hs.log

/-- `blinker` or `usb_host` is suspended. -/
theorem Before.block_busy {s : State} (hs : Before s) {t : Thread} {q : List Thread}
    (ht : t = .blinker ∨ t = .usbHost) (hq : s.ready = t :: q) : Before (s.block t .suspended) := by
  have hmain : t ≠ .main := by obtain rfl | rfl := ht <;> decide
  have hshell : t ≠ .shell := by obtain rfl | rfl := ht <;> decide
  have hirq : t ≠ .nrf24Irq := by obtain rfl | rfl := ht <;> decide
  have hnot : s.pc .main < 6 ∧ .nrf24Irq ∉ s.ready ∧ s.status .nrf24Irq = .absent := by
    obtain h | ⟨-, h, -⟩ := hs.irq
    · exact h
    · simp [hq, hirq] at h
  obtain ⟨hi, lo, hsplit, hhi⟩ := hs.queue
  have htail : (s.block t .suspended).ready = q := by simp [State.block, hq]
  cases hi with
  | nil =>
      rw [hq] at hsplit
      exact absurd (List.cons.inj hsplit).1 hmain
  | cons u us =>
      have hq' : q = us ++ .main :: lo := by
        rw [hq] at hsplit
        exact (List.cons.inj hsplit).2
      refine { hs with
        queue := ⟨us, lo, by rw [htail, hq'], fun v hv => hhi v (List.mem_cons_of_mem _ hv)⟩
        main := ?_
        shell := ?_
        peers := ?_
        irq := .inl ⟨hnot.1, ?_, ?_⟩ }
      · simpa [State.block, hmain.symm] using hs.main
      · refine ⟨by simpa [State.block, hshell.symm] using hs.shell.1, ?_⟩
        rw [htail]
        intro hmem
        exact hs.shell.2 (by rw [hq]; exact List.mem_cons_of_mem _ hmem)
      · intro v hv hv0
        have hvt : v ≠ t := by rintro rfl; obtain rfl | rfl := ht <;> simp [prio] at hv0
        simpa [State.block, hvt] using hs.peers v hv hv0
      · rw [htail]
        intro hmem
        exact hnot.2.1 (by rw [hq]; exact List.mem_cons_of_mem _ hmem)
      · simpa [State.block, hirq.symm] using hnot.2.2

theorem Before.pause_busy {s : State} (hs : Before s) {t : Thread} {q : List Thread}
    (ht : t = .blinker ∨ (t = .usbHost ∧ s.pc .usbHost ≠ 0)) (hq : s.ready = t :: q)
    (choice : Bool) : Before (s.exec t choice .pause) := by
  have hadv := hs.advance_busy ht
  cases choice with
  | false => exact hadv
  | true => exact hadv.block_busy (ht.imp id And.left) hq

/-- `usb_host` initialises `esDS5Ready`. -/
theorem Before.init_ds5 {s : State} (hs : Before s) (h0 : s.pc .usbHost = 0) (choice : Bool) :
    Before (s.exec .usbHost choice (.init .esDS5Ready)) := by
  have hlog : s.log = [] := by simpa [h0] using hs.log
  refine { hs with
    peers := ?_
    irq := ?_
    irqPc := ?_
    log := ?_
    listeners := ?_ }
  · intro u hu hu0
    have hut : u ≠ .usbHost := by rintro rfl; simp [prio] at hu0
    simpa [State.exec, State.record, State.advance, hut] using hs.peers u hu hu0
  · simpa [State.exec, State.record, State.advance] using hs.irq
  · simpa [State.exec, State.record, State.advance] using hs.irqPc
  · simp [State.exec, State.record, State.advance, hlog]
  · intro o
    simp [State.exec, Function.update_apply, hs.listeners]

theorem Before.exec_usbHost {s : State} (hs : Before s) {q : List Thread}
    (hq : s.ready = .usbHost :: q) (choice : Bool) :
    Before (s.exec .usbHost choice (stmtAt .usbHost (s.pc .usbHost))) := by
  by_cases h0 : s.pc .usbHost = 0
  · rw [h0]
    exact hs.init_ds5 h0 choice
  · by_cases h1 : s.pc .usbHost = 1
    · have hadv := hs.advance_busy (.inr ⟨rfl, h0⟩)
      rw [h1]
      exact { hadv with }
    · have hpause : stmtAt .usbHost (s.pc .usbHost) = .pause := by
        obtain hpro | ⟨-, hmem⟩ := stmtAt_cases .usbHost (s.pc .usbHost)
        · have h2 : s.pc .usbHost = 2 := by
            have := (List.getElem?_eq_some_iff.mp hpro).1
            simp only [prologue, List.length_cons, List.length_nil] at this
            omega
          rw [h2]; rfl
        · simpa [loop] using hmem
      rw [hpause]
      exact hs.pause_busy (.inr ⟨rfl, h0⟩) hq choice

/-- One statement of the running thread: the registration of the interrupt
thread, or still before it. -/
theorem Before.exec {s : State} (hs : Before s) {t : Thread} {q : List Thread}
    (hq : s.ready = t :: q) (choice : Bool) :
    Before (s.exec t choice (stmtAt t (s.pc t))) ∨
      After (s.exec t choice (stmtAt t (s.pc t))) := by
  obtain ⟨hi, lo, hsplit, hhi⟩ := hs.queue
  have hcase : t = .main ∨ 0 < prio t := by
    cases hi with
    | nil =>
        rw [hq] at hsplit
        exact .inl (List.cons.inj hsplit).1
    | cons u us =>
        rw [hq] at hsplit
        obtain rfl : t = u := (List.cons.inj hsplit).1
        exact .inr (hhi t List.mem_cons_self)
  have hshell : t ≠ .shell := by
    rintro rfl
    exact hs.shell.2 (by rw [hq]; exact List.mem_cons_self)
  cases t with
  | main =>
      left
      refine hs.exec_main ?_ choice
      obtain h | ⟨-, h, -⟩ := hs.irq
      · exact h.1
      · simp [hq] at h
  | blinker =>
      left
      have hpause : stmtAt .blinker (s.pc .blinker) = .pause := by
        obtain hpro | ⟨-, hmem⟩ := stmtAt_cases .blinker (s.pc .blinker)
        · simp [prologue] at hpro
        · simpa [loop] using hmem
      rw [hpause]
      exact hs.pause_busy (.inl rfl) hq choice
  | usbHost => exact .inl (hs.exec_usbHost hq choice)
  | nrf24Irq =>
      right
      rw [hs.irqPc]
      exact hs.register choice
  | shell => contradiction
  | _ => simp [prio] at hcase

/-- The start-up is before or after the registration of the interrupt
thread. -/
theorem step_before_or_after {s s' : State} {l : Label} (hs : Before s ∨ After s)
    (h : step s l = some s') : Before s' ∨ After s' := by
  obtain hs | hs := hs
  · cases l with
    | exec choice =>
        cases hq : s.ready with
        | nil => simp [step, hq] at h
        | cons t q =>
            simp only [step, hq] at h
            obtain rfl := Option.some.inj h
            exact hs.exec hq choice
    | wake t =>
        simp only [step] at h
        split at h
        case isTrue hsus =>
          obtain rfl := Option.some.inj h
          left
          apply hs.makeReady
          have hmain := hs.main
          have hshell := hs.shell.1
          have hpeer := hs.peers t
          have hirq := hs.irq
          cases t <;> simp_all [prio]
        case isFalse => contradiction
    | edge => simp [step, hs.armed] at h
    | report => simp [step, hs.hidStarted] at h
  · exact .inr (hs.step h)

/-- **Start-up order**: in every state of every run, the objects have been
initialised before they were used exactly as long as
`NRF24InterruptThread` has not executed its `chEvtRegisterMask`; and
whenever the IRQ line is armed its listener is not in the list of
`esNRF24Interrupt`, so that an edge leaves the event not pending. -/
theorem ordered_iff_not_registered (ls : List Label) (s : State)
    (hrun : run step boot ls = some s) :
    (Ordered s.log ↔ s.pc .nrf24Irq = 0) ∧
      (s.armed = true → .nrf24Irq ∉ s.listeners .esNRF24Interrupt ∧
        ∃ s', step s .edge = some s' ∧ s'.pending .nrf24Irq = false) := by
  have hinv : Before s ∨ After s :=
    invariant (fun _ _ _ => step_before_or_after) (.inl before_boot) hrun
  obtain hs | hs := hinv
  · refine ⟨⟨fun _ => hs.irqPc, fun _ => hs.ordered⟩, fun harm => ?_⟩
    simp [hs.armed] at harm
  · have hpos := hs.registered
    refine ⟨⟨fun h => absurd h hs.disordered, fun h => by omega⟩, fun harm => ?_⟩
    have hedge : step s .edge = some (s.broadcast .esNRF24Interrupt) := by simp [step, harm]
    exact ⟨hs.emptied (hs.armed harm), _, hedge, (hs.step hedge).pending⟩

/-- From the boot until `NRF24TxThread` has armed the line: `main()` creates
its threads, preempted by those that outrank it; the shell finds a
`udp_dest` command waiting; `hid` and `udp_server` pause; `nrf24_tx` runs. -/
def armingRun : List Label :=
  List.flatten [
    -- create blinker, which sleeps; create hid; create usb_host, which sleeps
    [.exec false, .exec true, .exec false, .exec false, .exec false, .exec false, .exec true],
    -- create udp_server, nrf24_tx and nrf24_irq, which registers and waits
    [.exec false, .exec false, .exec false, .exec false, .exec false],
    -- create the shell, which locks and unlocks the mutex and waits for a line
    [.exec false, .exec false, .exec false, .exec false, .exec false, .exec true],
    -- main waits for the shell; hid sleeps, udp_server waits for lwIP
    [.exec false, .exec true, .exec true, .exec true],
    -- nrf24_tx initialises the event source and the radio, and arms the line
    [.exec false, .exec false, .exec false]]

theorem ordered_iff_not_registered_armingRun :
    (run step boot armingRun).map (fun s => (s.armed, s.pc .nrf24Irq)) = some (true, 1) ∧
      ∀ s, run step boot armingRun = some s →
        (Ordered s.log ↔ s.pc .nrf24Irq = 0) ∧
          (s.armed = true → .nrf24Irq ∉ s.listeners .esNRF24Interrupt ∧
            ∃ s', step s .edge = some s' ∧ s'.pending .nrf24Irq = false) :=
  ⟨by decide, fun s h => ordered_iff_not_registered armingRun s h⟩

/-- The interrupt thread registered and the shell locked before the
initialisation; with the line armed, an edge leaves nothing pending. -/
theorem registration_lost :
    ∃ s, run step boot (armingRun ++ [.edge]) = some s ∧ s.armed = true ∧
      s.log = [(.esNRF24Interrupt, .use), (.esNRF24Interrupt, .init), (.udpDestMutex, .use),
        (.esNRF24Interrupt, .use), (.esDS5Ready, .init)] ∧
      ¬ Ordered s.log ∧ .nrf24Irq ∉ s.listeners .esNRF24Interrupt ∧
      s.pending .nrf24Irq = false := by
  have hend : (run step boot (armingRun ++ [.edge])).map
      (fun s => (s.armed, s.log, s.listeners .esNRF24Interrupt, s.pending .nrf24Irq)) =
      some (true, [(.esNRF24Interrupt, .use), (.esNRF24Interrupt, .init), (.udpDestMutex, .use),
        (.esNRF24Interrupt, .use), (.esDS5Ready, .init)], [], false) := by decide
  obtain ⟨s, hs, hview⟩ := Option.map_eq_some_iff.mp hend
  simp only [Prod.mk.injEq] at hview
  obtain ⟨harmed, hlog, hlist, hpend⟩ := hview
  refine ⟨s, hs, harmed, hlog, ?_, by rw [hlist]; simp, hpend⟩
  rw [hlog]
  simp [Ordered]

end DsEthComm.Startup
