import DsEthComm.Nrf24l01.Driver
import DsEthComm.Buffer

/-!
# DsEthComm.Nrf24l01.Receive

The interrupt handler down to its memory: the local `buffer[33]` of the
receive branch, and the two buffers of `nrf24l01_interface_spi_read`.

Three limits decide which widths get through.  The handler compares the
width with 32, its buffer has 33 bytes, and the interface takes up to 34 with
the command.  A width over 32 flushes the FIFO and falls through to the
payload read, so 33 passes the two limits that are left.
-/

namespace DsEthComm.Nrf24l01

open Conc

namespace Receive

/-! ## What the handler meets -/

/-- `spiExchange`: whether it succeeds, and the bytes it leaves in the receive
buffer. -/
structure Exchange where
  ok : Bool
  rx : Nat → Byte

/-- The transactions of one run of the handler, which makes each of them at
most once. -/
structure Env where
  inited : Byte
  /-- `receive_callback != NULL`. -/
  callback : Bool
  /-- The read of `STATUS`. -/
  status : Exchange
  /-- The write of `STATUS` succeeds. -/
  clear : Bool
  flushTx : Bool
  /-- `R_RX_PL_WID`. -/
  width : Exchange
  flushRx : Bool
  /-- `R_RX_PAYLOAD`. -/
  payload : Exchange

/-- What the handler does that can be seen. -/
inductive Event where
  /-- `spiExchange` of these bytes. -/
  | exchange (tx : List Byte)
  /-- `spiSend` of these bytes. -/
  | send (tx : List Byte)
  | gpio (value : Bool)
  | print (fmt : String)
  | finished (value : Byte)
  /-- `receive_callback` with the bytes it reads from the buffer. -/
  | callback (type : Interrupt) (num : Byte) (buf : List Byte)
deriving DecidableEq

/-- Code that keeps a record of its events and stops at a fault. -/
abbrev Code := StateT (List Event) (Except Fault)

def emit (e : Event) : Code Unit := modify (· ++ [e])

/-- An access to memory. -/
def access {α : Type} (x : Except Fault α) : Code α := StateT.lift x

/-! ## The interface -/

/-- `SPI_BUFFER_SIZE`. -/
def spiBufferSize : Nat := 34

/-- `nrf24l01_interface_spi_read(reg, buf, len)` of a buffer that is not
`NULL`: the buffer and the status. -/
def interfaceSpiRead {n : Nat} (x : Exchange) (reg : Byte) (buf : Buffer Byte n) (len : BitVec 16) :
    Code (Buffer Byte n × Byte) :=
  if len = 0 ∨ len.toNat + 1 > spiBufferSize then pure (buf, 1)
  else do
    let spiTxBuffer : Buffer Byte spiBufferSize := .filled 0
    let spiRxBuffer : Buffer Byte spiBufferSize := .filled 0
    let spiTxBuffer ← access (spiTxBuffer.store 0 reg)
    let tx ← access (spiTxBuffer.copyOut 0 (len.toNat + 1))
    let spiRxBuffer ← access (spiRxBuffer.copyIn x.rx (len.toNat + 1))
    emit (.exchange tx)
    let received ← access (spiRxBuffer.copyOut 1 len.toNat)
    let buf ← access (buf.copyIn (received.getD · 0) len.toNat)
    pure (buf, if x.ok then 0 else 1)

/-- `nrf24l01_interface_spi_write(reg, buf, len)`. -/
def interfaceSpiWrite (ok : Bool) (reg : Byte) (buf : List Byte) : Code Byte :=
  if buf.length ≥ spiBufferSize then pure 1
  else do
    emit (.send (reg :: buf))
    pure (if ok then 0 else 1)

/-- `nrf24l01_interface_gpio_write(value)`. -/
def interfaceGpioWrite (value : Bool) : Code Byte := do
  emit (.gpio value)
  pure 0

/-! ## The handler -/

variable (env : Env)

/-- A callback without a buffer. -/
def notify (type : Interrupt) : Code Unit :=
  if env.callback then emit (.callback type 0 []) else pure ()

def irqFail (fmt : String) : Code Byte := do
  emit (.print fmt)
  let _ ← interfaceGpioWrite true
  pure 1

def irqDone : Code Byte := do
  let res ← interfaceGpioWrite true
  if res ≠ 0 then do
    emit (.print "nrf24l01: gpio write failed.\n")
    pure 1
  else pure 0

/-- The rounds of `for (i = 0; i < k; i++)` that are left. -/
def swapLoop (width : Nat) : Nat → Nat → Buffer Byte 33 → Except Fault (Buffer Byte 33)
  | 0, _, buffer => .ok buffer
  | k + 1, i, buffer => do
      let tmp ← buffer.load i
      let last ← buffer.load (width - 1 - i)
      let buffer ← buffer.store i last
      let buffer ← buffer.store (width - 1 - i) tmp
      swapLoop width k (i + 1) buffer

/-- The payload read of the receive branch. -/
def irqReadPayload (prev width : Byte) : Code Byte := do
  let (buffer, res) ← interfaceSpiRead env.payload commandRRxPayload .uninitialised
    (width.setWidth 16)
  if res ≠ 0 then irqFail "nrf24l01: get rx payload failed.\n"
  else do
    let buffer ← access (swapLoop width.toNat (width.toNat / 2) 0 buffer)
    let num := (prev >>> 1) &&& 0x7#8
    if env.callback then do
      let buf ← access (buffer.copyOut 0 width.toNat)
      emit (.callback .rxDr num buf)
      irqDone
    else irqDone

/-- The branch `if (((prev >> 6) & 0x01) != 0)`. -/
def irqReceive (prev : Byte) : Code Byte := do
  let (width, res) ← interfaceSpiRead env.width commandRRxPlWid
    (.uninitialised : Buffer Byte 1) 1
  if res ≠ 0 then irqFail "nrf24l01: get payload width failed.\n"
  else do
    let width ← access (width.load 0)
    if 32#8 < width then do
      let res ← interfaceSpiWrite env.flushRx commandFlushRx []
      if res ≠ 0 then irqFail "nrf24l01: flush rx failed.\n" else irqReadPayload env prev width
    else irqReadPayload env prev width

/-- The branches after `TX_DS`. -/
def irqTail (prev : Byte) : Code Byte :=
  if bit prev 6 then irqReceive env prev else irqDone

/-- The branch `if (((prev >> 5) & 0x01) != 0)`. -/
def irqSent (prev : Byte) : Code Byte :=
  if bit prev 5 then do
    emit (.finished 1)
    notify env .txDs
    irqTail env prev
  else irqTail env prev

/-- The branch `if (((prev >> 4) & 0x01) != 0)`. -/
def irqMaxRt (prev : Byte) : Code Byte :=
  if bit prev 4 then do
    let res ← interfaceSpiWrite env.flushTx commandFlushTx []
    if res ≠ 0 then irqFail "nrf24l01: flush tx failed.\n"
    else do
      emit (.finished 2)
      notify env .maxRt
      irqSent env prev
  else irqSent env prev

/-- The branch `if (((prev >> 0) & 0x01) != 0)` and those after it. -/
def irqServe (prev : Byte) : Code Byte :=
  if bit prev 0 then do
    notify env .txFull
    irqMaxRt env prev
  else irqMaxRt env prev

/-- `nrf24l01_irq_handler`. -/
def irqHandler : Code Byte :=
  if env.inited ≠ 1 then pure 3
  else do
    let res ← interfaceGpioWrite false
    if res ≠ 0 then do
      emit (.print "nrf24l01: gpio write failed.\n")
      pure 1
    else do
      let (prev, res) ← interfaceSpiRead env.status (commandRRegister ||| regStatus)
        (.uninitialised : Buffer Byte 1) 1
      if res ≠ 0 then irqFail "nrf24l01: get status register failed.\n"
      else do
        let prev ← access (prev.load 0)
        let res ← interfaceSpiWrite env.clear (commandWRegister ||| regStatus) [prev]
        if res ≠ 0 then irqFail "nrf24l01: set status register failed.\n" else irqServe env prev

/-! ## Code without faults -/

/-- The code returns a value and adds events to the record, without a
fault. -/
def Yields {α : Type} (p : Code α) (a : α) (es : List Event) : Prop :=
  ∀ log, p log = .ok (a, log ++ es)

section Yields

variable {α β : Type}

theorem yields_pure (a : α) : Yields (pure a) a [] := by
  intro log
  rw [List.append_nil]
  rfl

theorem yields_emit (e : Event) : Yields (emit e) () [e] := fun _ => rfl

theorem yields_access {x : Except Fault α} {a : α} (h : x = .ok a) : Yields (access x) a [] := by
  intro log
  rw [h, List.append_nil]
  rfl

theorem Yields.bind {p : Code α} {f : α → Code β} {a : α} {b : β} {es fs : List Event}
    (hp : Yields p a es) (hf : Yields (f a) b fs) : Yields (p >>= f) b (es ++ fs) := by
  intro log
  show (p log >>= fun x => f x.1 x.2) = _
  rw [hp log, ← List.append_assoc]
  exact hf (log ++ es)

/-- An access first. -/
theorem Yields.access_bind {x : Except Fault α} {f : α → Code β} {a : α} {b : β}
    {fs : List Event} (hx : x = .ok a) (hf : Yields (f a) b fs) :
    Yields (access x >>= f) b fs :=
  (yields_access hx).bind hf

end Yields

/-- The bytes of the payload part of an exchange. -/
def received (x : Exchange) (len : Nat) : List Byte := (List.range len).map fun j => x.rx (1 + j)

@[simp] theorem length_received (x : Exchange) (len : Nat) : (received x len).length = len := by
  simp [received]

/-- The interface refuses a length. -/
def Refused (len : Nat) : Prop := len = 0 ∨ len + 1 > spiBufferSize

instance (len : Nat) : Decidable (Refused len) := inferInstanceAs (Decidable (_ ∨ _))

theorem yields_interfaceSpiRead_of_refused {n : Nat} (x : Exchange) (reg : Byte)
    (buf : Buffer Byte n) {len : BitVec 16} (h : Refused len.toNat) :
    Yields (interfaceSpiRead x reg buf len) (buf, 1) [] := by
  have hif : len = 0 ∨ len.toNat + 1 > spiBufferSize := by
    refine h.imp_left fun hzero => ?_
    rw [← BitVec.toNat_inj, hzero]
    rfl
  rw [interfaceSpiRead, if_pos hif]
  exact yields_pure _

/-- The transmit buffer holds the command and zeros. -/
theorem copyOut_command {b : Buffer Byte spiBufferSize} {reg : Byte}
    (hstore : (Buffer.filled 0).store 0 reg = .ok b) {len : Nat} (hlen : len + 1 ≤ spiBufferSize) :
    b.copyOut 0 (len + 1) = .ok (reg :: List.replicate len 0) := by
  obtain rfl := Except.ok.inj hstore
  have hcell : ∀ j < len + 1,
      Function.update (fun _ => some (0 : Byte)) 0 (some reg) (0 + j) =
        some (if j = 0 then reg else 0) := by
    intro j _
    rw [Nat.zero_add]
    by_cases hj : j = 0
    · rw [hj, Function.update_self]
      rfl
    · rw [Function.update_of_ne hj, if_neg hj]
  rw [Buffer.copyOut_eq _ (by omega) hcell, List.range_succ_eq_map, List.map_cons, List.map_map]
  congr 2
  apply List.ext_getElem <;> simp

/-- **The interface stays inside its buffers**, and what it stores is what it
received. -/
theorem yields_interfaceSpiRead {n : Nat} (x : Exchange) (reg : Byte) (buf : Buffer Byte n)
    {len : BitVec 16} (h : ¬Refused len.toNat) (hn : len.toNat ≤ n) :
    ∃ buf' : Buffer Byte n, buf'.Holds (received x len.toNat) ∧
      Yields (interfaceSpiRead x reg buf len) (buf', if x.ok then 0 else 1)
        [.exchange (reg :: List.replicate len.toNat 0)] := by
  obtain ⟨hpos, hlen⟩ := not_or.mp h
  have hlen : len.toNat + 1 ≤ spiBufferSize := Nat.not_lt.mp hlen
  have hif : ¬(len = 0 ∨ len.toNat + 1 > spiBufferSize) := by
    rintro (hzero | hlarge)
    · exact hpos (by rw [hzero]; rfl)
    · omega
  have hstore : (Buffer.filled 0 : Buffer Byte spiBufferSize).store 0 reg = .ok _ :=
    if_pos (by decide)
  have hrx : (Buffer.filled 0 : Buffer Byte spiBufferSize).copyIn x.rx (len.toNat + 1) = .ok _ :=
    if_pos hlen
  have hout : Buffer.copyOut (n := spiBufferSize)
      ⟨fun j => if j < len.toNat + 1 then some (x.rx j) else some 0⟩ 1 len.toNat =
        .ok (received x len.toNat) := by
    apply Buffer.copyOut_eq _ (by omega)
    intro j hj
    exact if_pos (by omega)
  obtain ⟨buf', hcopy, hholds⟩ := buf.holds_copyIn (received x len.toNat) 0
    (by rw [length_received]; exact hn)
  rw [length_received] at hcopy
  refine ⟨buf', hholds, ?_⟩
  rw [interfaceSpiRead, if_neg hif]
  refine .access_bind hstore (.access_bind (copyOut_command hstore hlen) (.access_bind hrx ?_))
  exact (yields_emit _).bind (.access_bind hout (.access_bind hcopy (yields_pure _)))

/-- The loop stays inside the bytes it was given and does what the loop on
lists does. -/
theorem swapLoop_holds {buffer : Buffer Byte 33} {xs : List Byte} (h : buffer.Holds xs) {k i : Nat}
    (hk : 2 * (i + k) ≤ xs.length) :
    ∃ buffer' : Buffer Byte 33, swapLoop xs.length k i buffer = .ok buffer' ∧
      buffer'.Holds (DsEthComm.swapLoop xs.length k i xs) := by
  induction k generalizing i buffer xs with
  | zero => exact ⟨buffer, rfl, h⟩
  | succ k ih =>
      have hload := h.load (by omega : i < xs.length) 0
      have hlast := h.load (by omega : xs.length - 1 - i < xs.length) 0
      obtain ⟨b₁, hstore₁, hb₁⟩ := h.store (by omega : i < xs.length)
        (xs.getD (xs.length - 1 - i) 0)
      obtain ⟨b₂, hstore₂, hb₂⟩ := hb₁.store
        (by rw [List.length_set]; omega : xs.length - 1 - i < (xs.set i _).length) (xs.getD i 0)
      have hlen : ((xs.set i (xs.getD (xs.length - 1 - i) 0)).set (xs.length - 1 - i)
          (xs.getD i 0)).length = xs.length := by
        rw [List.length_set, List.length_set]
      obtain ⟨b₃, hloop, hb₃⟩ := ih hb₂ (by rw [hlen]; omega : 2 * (i + 1 + k) ≤ _)
      rw [hlen] at hloop hb₃
      refine ⟨b₃, ?_, hb₃⟩
      rw [swapLoop, hload, hlast]
      show (do
        let buffer ← buffer.store i (xs.getD (xs.length - 1 - i) 0)
        let buffer ← buffer.store (xs.length - 1 - i) (xs.getD i 0)
        swapLoop xs.length k (i + 1) buffer) = _
      rw [hstore₁]
      show (do
        let buffer ← b₁.store (xs.length - 1 - i) (xs.getD i 0)
        swapLoop xs.length k (i + 1) buffer) = _
      rw [hstore₂]
      exact hloop

/-! ## The handler as a program of the driver -/

def Exchange.answer (x : Exchange) (len : Nat) : Option (List Byte) :=
  if x.ok then some (received x len) else none

/-- What an operation of the handler is answered. -/
def respond (o : Op) : o.Res :=
  match o with
  | .spiRead reg len =>
      if Refused len then none
      else if reg = commandRRxPlWid then env.width.answer len
      else if reg = commandRRxPayload then env.payload.answer len
      else env.status.answer len
  | .spiWrite reg buf =>
      if buf.length ≥ spiBufferSize then false
      else if reg = commandFlushTx then env.flushTx
      else if reg = commandFlushRx then env.flushRx
      else env.clear
  | .spiInit | .spiDeinit | .gpioInit | .gpioDeinit | .gpioWrite _ => true
  | .delayMs _ | .debugPrint _ _ | .receiveCallback _ _ _ | .link _ | .setInited _
  | .setFinished _ | .setTxAddr _ | .setTxAddrSet _ => ()
  | .hasCallback => env.callback
  | .getInited => env.inited
  | .getFinished | .getTxAddrSet => (0 : Byte)
  | .getTxAddr => Vector.replicate 5 0

/-- The event of an operation. -/
def visible : Op → Option Event
  | .spiRead reg len => if Refused len then none else some (.exchange (reg :: List.replicate len 0))
  | .spiWrite reg buf => if buf.length ≥ spiBufferSize then none else some (.send (reg :: buf))
  | .gpioWrite value => some (.gpio value)
  | .debugPrint fmt _ => some (.print fmt)
  | .receiveCallback type num buf => some (.callback type num buf)
  | .setFinished value => some (.finished value)
  | _ => none

/-- The value a program of the driver returns. -/
def code {α : Type} (p : Driver α) : α :=
  (p.eval (S := driverSig) (fun (_ : Unit) o => ((), respond env o)) ()).2

/-- Its operations. -/
def ops {α : Type} (p : Driver α) : List Op :=
  p.trace (S := driverSig) (fun (_ : Unit) o => ((), respond env o)) ()

/-- Its events. -/
def events {α : Type} (p : Driver α) : List Event := (ops env p).filterMap visible

/-- The code does what a program of the driver does. -/
def Refines {α : Type} (c : Code α) (p : Driver α) : Prop := Yields c (code env p) (events env p)

section Refines

variable {env} {α β : Type}

theorem code_perf_bind (o : Op) (f : o.Res → Driver α) :
    code env ((perf o).bind f) = code env (f (respond env o)) := rfl

theorem ops_perf_bind (o : Op) (f : o.Res → Driver α) :
    ops env ((perf o).bind f) = o :: ops env (f (respond env o)) := rfl

theorem events_perf_bind (o : Op) (f : o.Res → Driver α) :
    events env ((perf o).bind f) = (visible o).toList ++ events env (f (respond env o)) := by
  rw [events, ops_perf_bind, List.filterMap_cons]
  cases visible o <;> rfl

/-- Code that begins with the events of an operation. -/
theorem Refines.perf_bind {p : Code α} {f : α → Code β} {a : α} {o : Op} {g : o.Res → Driver β}
    (hp : Yields p a (visible o).toList) (hf : Refines env (f a) (g (respond env o))) :
    Refines env (p >>= f) ((perf o).bind g) := by
  rw [Refines, code_perf_bind, events_perf_bind]
  exact hp.bind hf

/-- An operation that is no event. -/
theorem Refines.quiet {c : Code β} {o : Op} {g : o.Res → Driver β} (ho : visible o = none)
    (hc : Refines env c (g (respond env o))) : Refines env c ((perf o).bind g) := by
  rw [Refines, code_perf_bind, events_perf_bind, ho]
  exact hc

theorem Refines.access_bind {x : Except Fault α} {f : α → Code β} {a : α} {p : Driver β}
    (hx : x = .ok a) (hf : Refines env (f a) p) : Refines env (access x >>= f) p :=
  Yields.access_bind hx hf

theorem yields_interfaceGpioWrite (value : Bool) :
    Yields (interfaceGpioWrite value) 0 [.gpio value] :=
  (yields_emit _).bind (yields_pure _)

theorem yields_interfaceSpiWrite (ok : Bool) (reg : Byte) {buf : List Byte}
    (h : buf.length < spiBufferSize) :
    Yields (interfaceSpiWrite ok reg buf) (if ok then 0 else 1) [.send (reg :: buf)] := by
  rw [interfaceSpiWrite, if_neg (Nat.not_le.mpr h)]
  exact (yields_emit _).bind (yields_pure _)

theorem refines_irqFail (fmt : String) : Refines env (irqFail fmt) (Nrf24l01.irqFail fmt) :=
  .perf_bind (yields_emit _) (.perf_bind (yields_interfaceGpioWrite true) (yields_pure _))

theorem refines_irqDone : Refines env irqDone Nrf24l01.irqDone :=
  .perf_bind (yields_interfaceGpioWrite true) (yields_pure _)

theorem refines_notify_bind (type : Interrupt) {c : Code Byte} {p : Driver Byte}
    (h : Refines env c p) :
    Refines env (notify env type >>= fun _ => c) ((Nrf24l01.notify type 0 []).bind fun _ => p) := by
  refine Refines.quiet (o := .hasCallback)
    (g := fun (callback : Bool) =>
      (if callback then receiveCallback type 0 [] else pure ()).bind fun _ => p) rfl ?_
  show Refines env _ ((if env.callback then receiveCallback type 0 [] else pure ()).bind fun _ => p)
  unfold notify
  cases env.callback with
  | true => exact .perf_bind (yields_emit _) h
  | false => exact (yields_pure ()).bind h

/-- The answer to the payload read. -/
theorem respond_payload (env : Env) {len : Nat} (h : ¬Refused len) :
    respond env (.spiRead commandRRxPayload len) = env.payload.answer len := by
  show (if Refused len then none else if commandRRxPayload = commandRRxPlWid then _ else
    if commandRRxPayload = commandRRxPayload then _ else _) = _
  rw [if_neg h, if_neg (by decide), if_pos rfl]

/-- The payload is reversed in place and delivered. -/
theorem refines_delivery (prev : Byte) {buffer : Buffer Byte 33} {xs : List Byte}
    (h : buffer.Holds xs) {len : Nat} (hlen : xs.length = len) :
    Refines env (do
      let buffer ← access (swapLoop len (len / 2) 0 buffer)
      let num := (prev >>> 1) &&& 0x7#8
      if env.callback then do
        let buf ← access (buffer.copyOut 0 len)
        emit (.callback .rxDr num buf)
        irqDone
      else irqDone)
      (do
        let num := (prev >>> 1) &&& 0x7#8
        Nrf24l01.notify .rxDr num (reverseBuffer xs)
        Nrf24l01.irqDone) := by
  subst hlen
  obtain ⟨buffer', hswap, hholds⟩ := swapLoop_holds h (k := xs.length / 2) (i := 0) (by omega)
  have hcopy := hholds.copyOut
  rw [length_swapLoop] at hcopy
  refine .access_bind hswap (Refines.quiet (o := .hasCallback)
    (g := fun (callback : Bool) =>
      (if callback then receiveCallback .rxDr ((prev >>> 1) &&& 0x7#8) (reverseBuffer xs)
        else pure ()).bind fun _ => Nrf24l01.irqDone) rfl ?_)
  show Refines env _ ((if env.callback then
    receiveCallback .rxDr ((prev >>> 1) &&& 0x7#8) (reverseBuffer xs) else pure ()).bind _)
  cases env.callback with
  | true => exact .access_bind hcopy (.perf_bind (yields_emit _) refines_irqDone)
  | false => exact refines_irqDone

theorem refines_irqReadPayload (prev width : Byte) :
    Refines env (irqReadPayload env prev width) (Nrf24l01.irqReadPayload prev width) := by
  have hlen : (width.setWidth 16).toNat = width.toNat := BitVec.toNat_setWidth_of_le (by decide)
  by_cases hrefused : Refused width.toNat
  · have hres : respond env (.spiRead commandRRxPayload width.toNat) = none := if_pos hrefused
    have hvis : visible (.spiRead commandRRxPayload width.toNat) = none := if_pos hrefused
    refine .perf_bind (a := (.uninitialised, 1)) ?_ ?_
    · rw [hvis]
      exact yields_interfaceSpiRead_of_refused _ _ _ (by rw [hlen]; exact hrefused)
    · rw [hres]
      exact refines_irqFail _
  · have hres := respond_payload env hrefused
    have hvis : visible (.spiRead commandRRxPayload width.toNat) =
        some (.exchange (commandRRxPayload :: List.replicate width.toNat 0)) := if_neg hrefused
    have hsize : width.toNat ≤ 33 := by
      have := (not_or.mp hrefused).2
      simp only [spiBufferSize] at this
      omega
    obtain ⟨buffer, hholds, hyields⟩ := yields_interfaceSpiRead env.payload commandRRxPayload
      (.uninitialised : Buffer Byte 33) (by rw [hlen]; exact hrefused) (by rw [hlen]; exact hsize)
    rw [hlen] at hholds hyields
    refine .perf_bind (by rw [hvis]; exact hyields) ?_
    rw [hres, Exchange.answer]
    cases env.payload.ok with
    | false => exact refines_irqFail _
    | true => exact refines_delivery prev hholds (length_received _ _)

/-- The read of one byte into a variable. -/
theorem yields_readByte (x : Exchange) (reg : Byte) :
    ∃ buf : Buffer Byte 1, buf.load 0 = .ok (x.rx 1) ∧
      Yields (interfaceSpiRead x reg .uninitialised 1) (buf, if x.ok then 0 else 1)
        [.exchange [reg, 0]] := by
  obtain ⟨buf, hholds, hyields⟩ := yields_interfaceSpiRead x reg (.uninitialised : Buffer Byte 1)
    (by decide : ¬Refused (1#16).toNat) (by decide)
  exact ⟨buf, hholds.load (by simp) 0, hyields⟩

theorem refines_irqReceive (prev : Byte) :
    Refines env (irqReceive env prev) (Nrf24l01.irqReceive prev) := by
  have hres : respond env (.spiRead commandRRxPlWid 1) = env.width.answer 1 := rfl
  obtain ⟨buf, hload, hyields⟩ := yields_readByte env.width commandRRxPlWid
  refine .perf_bind hyields ?_
  rw [hres, Exchange.answer]
  cases env.width.ok with
  | false => exact refines_irqFail _
  | true =>
      refine .access_bind hload ?_
      show Refines env (if 32#8 < env.width.rx 1 then _ else _)
        (if 32#8 < env.width.rx 1 then _ else _)
      by_cases hwide : 32#8 < env.width.rx 1
      · rw [if_pos hwide, if_pos hwide]
        refine .perf_bind (yields_interfaceSpiWrite _ _ (by decide)) ?_
        have hflush : respond env (.spiWrite commandFlushRx []) = env.flushRx := rfl
        rw [hflush]
        cases env.flushRx with
        | false => exact refines_irqFail _
        | true => exact refines_irqReadPayload prev _
      · rw [if_neg hwide, if_neg hwide]
        exact refines_irqReadPayload prev _

theorem refines_irqTail (prev : Byte) :
    Refines env (irqTail env prev) (Nrf24l01.irqTail prev) := by
  unfold irqTail Nrf24l01.irqTail
  split
  · exact refines_irqReceive prev
  · exact refines_irqDone

theorem refines_irqSent (prev : Byte) :
    Refines env (irqSent env prev) (Nrf24l01.irqSent prev) := by
  unfold irqSent Nrf24l01.irqSent
  split
  · exact .perf_bind (yields_emit _) (refines_notify_bind _ (refines_irqTail prev))
  · exact refines_irqTail prev

theorem refines_irqMaxRt (prev : Byte) :
    Refines env (irqMaxRt env prev) (Nrf24l01.irqMaxRt prev) := by
  unfold irqMaxRt Nrf24l01.irqMaxRt
  split
  · refine .perf_bind (yields_interfaceSpiWrite _ _ (by decide)) ?_
    have hflush : respond env (.spiWrite commandFlushTx []) = env.flushTx := rfl
    rw [hflush]
    cases env.flushTx with
    | false => exact refines_irqFail _
    | true => exact .perf_bind (yields_emit _) (refines_notify_bind _ (refines_irqSent prev))
  · exact refines_irqSent prev

theorem refines_irqServe (prev : Byte) :
    Refines env (irqServe env prev) (Nrf24l01.irqServe prev) := by
  unfold irqServe Nrf24l01.irqServe
  split
  · exact refines_notify_bind _ (refines_irqMaxRt prev)
  · exact refines_irqMaxRt prev

/-- **The handler does not leave its buffers**, and does what the program of
the driver does. -/
theorem refines_irqHandler : Refines env (irqHandler env) Nrf24l01.irqHandler := by
  have hinited : respond env .getInited = env.inited := rfl
  refine .quiet rfl ?_
  rw [hinited]
  unfold irqHandler
  by_cases hinit : env.inited ≠ 1
  · rw [if_pos hinit, if_pos hinit]
    exact yields_pure _
  · rw [if_neg hinit, if_neg hinit]
    refine .perf_bind (yields_interfaceGpioWrite false) ?_
    have hres : respond env (.spiRead (commandRRegister ||| regStatus) 1) =
        env.status.answer 1 := rfl
    obtain ⟨buf, hload, hyields⟩ := yields_readByte env.status (commandRRegister ||| regStatus)
    refine .perf_bind hyields ?_
    rw [hres, Exchange.answer]
    cases env.status.ok with
    | false => exact refines_irqFail _
    | true =>
        have hone : [env.status.rx 1].length < spiBufferSize := by simp [spiBufferSize]
        refine .access_bind hload (.perf_bind (yields_interfaceSpiWrite _ _ hone) ?_)
        have hclear : respond env (.spiWrite (commandWRegister ||| regStatus) [env.status.rx 1]) =
            env.clear := rfl
        show Refines env _ (if !respond env (.spiWrite (commandWRegister ||| regStatus)
          [env.status.rx 1]) then _ else _)
        rw [hclear]
        cases env.clear with
        | false => exact refines_irqFail _
        | true => exact refines_irqServe _

end Refines

/-! ## Safety of the receive branch -/

/-- The events the receive branch is judged by: the read of the width, the
flush and the delivery. -/
def receiving : Event → Bool
  | .exchange tx => tx = [commandRRxPlWid, 0]
  | .send tx => tx = [commandFlushRx]
  | .callback type _ _ => type = .rxDr
  | _ => false

/-- A payload is delivered only with 1 to 32 bytes and reversed, and a width
over 32 flushes the FIFO and delivers nothing. -/
def WellReceived (log : List Event) : Prop :=
  (∀ num buf, .callback .rxDr num buf ∈ log →
    1 ≤ buf.length ∧ buf.length ≤ 32 ∧ buf = (received env.payload buf.length).reverse) ∧
    (.exchange [commandRRxPlWid, 0] ∈ log → env.width.ok = true → 32#8 < env.width.rx 1 →
      .send [commandFlushRx] ∈ log ∧ ∀ num buf, .callback .rxDr num buf ∉ log)

/-- No access leaves a buffer or reads what was not received, and what is
received is delivered well. -/
def Safe : Prop := ∃ res log, irqHandler env [] = .ok (res, log) ∧ WellReceived env log

/-- The handler gets to its receive branch. -/
def Reached : Prop :=
  env.inited = 1 ∧ env.status.ok = true ∧ env.clear = true ∧ bit (env.status.rx 1) 6 = true ∧
    (bit (env.status.rx 1) 4 = true → env.flushTx = true)

/-- A width of 33 gets through to the callback. -/
def Overlong : Prop :=
  Reached env ∧ env.width.ok = true ∧ env.width.rx 1 = 33#8 ∧ env.flushRx = true ∧
    env.payload.ok = true ∧ env.callback = true

instance : Decidable (Reached env) := inferInstanceAs (Decidable (_ ∧ _))

instance : Decidable (Overlong env) := inferInstanceAs (Decidable (_ ∧ _))

/-- The events of a program that matter here. -/
def shown (p : Driver Byte) : List Event := (events env p).filter receiving

theorem shown_perf_bind (o : Op) (f : o.Res → Driver Byte) :
    shown env ((perf o).bind f) =
      (visible o).toList.filter receiving ++ shown env (f (respond env o)) := by
  rw [shown, events_perf_bind, List.filter_append]
  rfl

theorem shown_spiRead_bind (reg : Byte) (len : Nat) (f : Option (List Byte) → Driver Byte) :
    shown env ((spiRead reg len).bind f) =
      (visible (.spiRead reg len)).toList.filter receiving ++
        shown env (f (respond env (.spiRead reg len))) :=
  shown_perf_bind env (.spiRead reg len) f

theorem shown_spiWrite_bind (reg : Byte) (buf : List Byte) (f : Bool → Driver Byte) :
    shown env ((spiWrite reg buf).bind f) =
      (visible (.spiWrite reg buf)).toList.filter receiving ++
        shown env (f (respond env (.spiWrite reg buf))) :=
  shown_perf_bind env (.spiWrite reg buf) f

theorem shown_notify_bind {type : Interrupt} (h : type ≠ .rxDr) (p : Driver Byte) :
    shown env ((Nrf24l01.notify type 0 []).bind fun _ => p) = shown env p := by
  show shown env ((if env.callback then receiveCallback type 0 [] else pure ()).bind fun _ => p) = _
  cases env.callback with
  | false => rfl
  | true =>
      show shown env ((perf (.receiveCallback type 0 [])).bind fun _ => p) = _
      rw [shown_perf_bind]
      simp [visible, receiving, h]

theorem shown_irqFail (fmt : String) : shown env (Nrf24l01.irqFail fmt) = [] := rfl

theorem shown_irqDone : shown env Nrf24l01.irqDone = [] := rfl

/-- A payload is delivered if the interface takes its width and the read
succeeds. -/
theorem shown_irqReadPayload (prev width : Byte) :
    shown env (Nrf24l01.irqReadPayload prev width) =
      if ¬Refused width.toNat ∧ env.payload.ok = true ∧ env.callback = true then
        [.callback .rxDr ((prev >>> 1) &&& 0x7#8) (received env.payload width.toNat).reverse]
      else [] := by
  have hquiet : (visible (.spiRead commandRRxPayload width.toNat)).toList.filter receiving = [] := by
    by_cases h : Refused width.toNat <;>
      simp [visible, receiving, h, commandRRxPayload, commandRRxPlWid]
  rw [Nrf24l01.irqReadPayload, Prog.bind_eq, shown_spiRead_bind, hquiet, List.nil_append]
  by_cases hrefused : Refused width.toNat
  · have hres : respond env (.spiRead commandRRxPayload width.toNat) = none := if_pos hrefused
    rw [hres, if_neg fun hall => hall.1 hrefused]
    exact shown_irqFail env _
  · rw [respond_payload env hrefused, Exchange.answer]
    cases hok : env.payload.ok with
    | false => simp [shown_irqFail]
    | true =>
        show shown env ((if env.callback then receiveCallback .rxDr ((prev >>> 1) &&& 0x7#8)
          (reverseBuffer (received env.payload width.toNat)) else pure ()).bind _) = _
        rw [reverseBuffer_eq]
        cases hcall : env.callback with
        | false => simp [shown_irqDone]
        | true =>
            refine Eq.trans ?_ (if_pos ⟨hrefused, rfl, rfl⟩).symm
            exact shown_perf_bind env (.receiveCallback .rxDr _ _) fun _ => Nrf24l01.irqDone

theorem shown_irqReceive (prev : Byte) :
    shown env (Nrf24l01.irqReceive prev) =
      .exchange [commandRRxPlWid, 0] ::
        if env.width.ok then
          if 32#8 < env.width.rx 1 then
            .send [commandFlushRx] ::
              if env.flushRx then shown env (Nrf24l01.irqReadPayload prev (env.width.rx 1)) else []
          else shown env (Nrf24l01.irqReadPayload prev (env.width.rx 1))
        else [] := by
  have hvis : (visible (.spiRead commandRRxPlWid 1)).toList.filter receiving =
      [.exchange [commandRRxPlWid, 0]] := rfl
  have hres : respond env (.spiRead commandRRxPlWid 1) = env.width.answer 1 := rfl
  have hflush : (visible (.spiWrite commandFlushRx [])).toList.filter receiving =
      [.send [commandFlushRx]] := rfl
  have hflushed : respond env (.spiWrite commandFlushRx []) = env.flushRx := rfl
  rw [Nrf24l01.irqReceive, Prog.bind_eq, shown_spiRead_bind, hvis, hres, Exchange.answer]
  refine congrArg (_ :: ·) ?_
  cases env.width.ok with
  | false => exact shown_irqFail env _
  | true =>
      show shown env (if 32#8 < env.width.rx 1 then _ else _) = _
      rw [if_pos rfl]
      by_cases hwide : 32#8 < env.width.rx 1
      · rw [if_pos hwide, if_pos hwide, Prog.bind_eq, shown_spiWrite_bind, hflush, hflushed]
        cases env.flushRx <;> rfl
      · rw [if_neg hwide, if_neg hwide]
        rfl

theorem shown_irqTail (prev : Byte) :
    shown env (Nrf24l01.irqTail prev) =
      if bit prev 6 then shown env (Nrf24l01.irqReceive prev) else [] := by
  unfold Nrf24l01.irqTail
  split <;> rfl

theorem shown_irqSent (prev : Byte) :
    shown env (Nrf24l01.irqSent prev) = shown env (Nrf24l01.irqTail prev) := by
  unfold Nrf24l01.irqSent
  split
  · exact (shown_perf_bind env (.setFinished 1) _).trans (shown_notify_bind env (by decide) _)
  · rfl

theorem shown_irqMaxRt (prev : Byte) :
    shown env (Nrf24l01.irqMaxRt prev) =
      if bit prev 4 = true → env.flushTx = true then shown env (Nrf24l01.irqSent prev)
      else [] := by
  have hflushed : respond env (.spiWrite commandFlushTx []) = env.flushTx := rfl
  have hquiet : (visible (.spiWrite commandFlushTx [])).toList.filter receiving = [] := rfl
  unfold Nrf24l01.irqMaxRt
  by_cases hbit : bit prev 4 = true
  · rw [if_pos hbit, Prog.bind_eq, shown_spiWrite_bind, hquiet, hflushed, List.nil_append]
    cases env.flushTx with
    | false => simp [hbit, shown_irqFail]
    | true =>
        rw [if_pos (fun _ => rfl)]
        exact (shown_perf_bind env (.setFinished 2) _).trans (shown_notify_bind env (by decide) _)
  · rw [if_neg hbit, if_pos (fun h => absurd h hbit)]

theorem shown_irqServe (prev : Byte) :
    shown env (Nrf24l01.irqServe prev) = shown env (Nrf24l01.irqMaxRt prev) := by
  unfold Nrf24l01.irqServe
  split
  · exact shown_notify_bind env (by decide) _
  · rfl

theorem shown_irqHandler :
    shown env Nrf24l01.irqHandler =
      if Reached env then shown env (Nrf24l01.irqReceive (env.status.rx 1)) else [] := by
  have hstatus : respond env (.spiRead (commandRRegister ||| regStatus) 1) =
      env.status.answer 1 := rfl
  have hquiet : (visible (.spiRead (commandRRegister ||| regStatus) 1)).toList.filter receiving =
      [] := rfl
  have hclear : respond env (.spiWrite (commandWRegister ||| regStatus) [env.status.rx 1]) =
      env.clear := rfl
  have hquiet' : (visible (.spiWrite (commandWRegister ||| regStatus)
      [env.status.rx 1])).toList.filter receiving = [] := rfl
  show shown env (if env.inited ≠ 1 then pure 3 else _) = _
  by_cases hinit : env.inited ≠ 1
  · rw [if_pos hinit, if_neg fun h => hinit h.1]
    rfl
  · have hinit' := not_not.mp hinit
    rw [if_neg hinit]
    refine (shown_perf_bind env (.gpioWrite false) _).trans ?_
    show shown env ((spiRead (commandRRegister ||| regStatus) 1).bind _) = _
    rw [shown_spiRead_bind, hstatus, hquiet, List.nil_append, Exchange.answer]
    cases hok : env.status.ok with
    | false => simp [Reached, hok, shown_irqFail]
    | true =>
        show shown env ((spiWrite (commandWRegister ||| regStatus) [env.status.rx 1]).bind _) = _
        rw [shown_spiWrite_bind, hclear, hquiet', List.nil_append]
        cases hcl : env.clear with
        | false => simp [Reached, hcl, shown_irqFail]
        | true =>
            show shown env (Nrf24l01.irqServe (env.status.rx 1)) = _
            rw [shown_irqServe, shown_irqMaxRt, shown_irqSent, shown_irqTail]
            by_cases hflush : bit (env.status.rx 1) 4 = true → env.flushTx = true
            · rw [if_pos hflush]
              exact if_congr ⟨fun h => ⟨hinit', hok, hcl, h, hflush⟩, fun h => h.2.2.2.1⟩ rfl rfl
            · rw [if_neg hflush, if_neg fun h => hflush h.2.2.2.2]

theorem wellReceived_filter (log : List Event) :
    WellReceived env (log.filter receiving) ↔ WellReceived env log := by
  simp [WellReceived, List.mem_filter, receiving]

theorem safe_iff_wellReceived : Safe env ↔ WellReceived env (shown env Nrf24l01.irqHandler) := by
  have hrun : irqHandler env [] = .ok (code env Nrf24l01.irqHandler, events env Nrf24l01.irqHandler) :=
    refines_irqHandler []
  rw [shown, wellReceived_filter]
  constructor
  · rintro ⟨res, log, hlog, hwell⟩
    obtain ⟨-, rfl⟩ := Prod.mk.inj (Except.ok.inj (hrun.symm.trans hlog))
    exact hwell
  · exact fun hwell => ⟨_, _, hrun, hwell⟩

/-- A width over 32 is delivered if the interface takes it, and it takes
33. -/
theorem wellReceived_wide (num : Byte) (hok : env.width.ok = true) (hwide : 32#8 < env.width.rx 1)
    (delivered : Prop) [Decidable delivered] :
    WellReceived env (.exchange [commandRRxPlWid, 0] :: .send [commandFlushRx] ::
      if delivered then [.callback .rxDr num (received env.payload (env.width.rx 1).toNat).reverse]
      else []) ↔ ¬delivered := by
  by_cases h : delivered <;> simp [WellReceived, h, hok, hwide]

/-- Another width is delivered as it is. -/
theorem wellReceived_narrow (num : Byte) (hwide : ¬32#8 < env.width.rx 1)
    {delivered : Prop} [Decidable delivered] (hpos : delivered → (env.width.rx 1).toNat ≠ 0) :
    WellReceived env (.exchange [commandRRxPlWid, 0] ::
      if delivered then [.callback .rxDr num (received env.payload (env.width.rx 1).toNat).reverse]
      else []) := by
  have hle : (env.width.rx 1).toNat ≤ 32 := by
    rw [BitVec.lt_def] at hwide
    exact Nat.not_lt.mp hwide
  by_cases h : delivered
  · have := Nat.pos_of_ne_zero (hpos h)
    simpa [WellReceived, h, hwide] using ⟨by omega, by omega⟩
  · simp [WellReceived, h, hwide]

theorem wellReceived_irqReceive (prev : Byte) :
    WellReceived env (shown env (Nrf24l01.irqReceive prev)) ↔
      ¬(env.width.ok = true ∧ env.width.rx 1 = 33#8 ∧ env.flushRx = true ∧
        env.payload.ok = true ∧ env.callback = true) := by
  rw [shown_irqReceive, shown_irqReadPayload]
  cases hok : env.width.ok with
  | false => simp [WellReceived, hok]
  | true =>
      rw [if_pos rfl]
      by_cases hwide : 32#8 < env.width.rx 1
      · rw [if_pos hwide]
        cases hflush : env.flushRx with
        | false => simp [WellReceived, hok, hwide]
        | true =>
            rw [if_pos rfl, wellReceived_wide env _ hok hwide]
            -- over 32 and not refused is 33
            have hwidth : ¬Refused (env.width.rx 1).toNat ↔ env.width.rx 1 = 33#8 := by
              rw [BitVec.lt_def] at hwide
              rw [← BitVec.toNat_inj]
              simp only [Refused, spiBufferSize, BitVec.toNat_ofNat] at hwide ⊢
              omega
            rw [hwidth]
            simp
      · rw [if_neg hwide]
        refine iff_of_true (wellReceived_narrow env _ hwide fun h => (not_or.mp h.1).1) ?_
        rintro ⟨-, hwidth, -⟩
        rw [hwidth] at hwide
        exact hwide (by decide)

/-- **Safety of the receive branch**: the handler is safe exactly if a width
of 33 does not get through to the callback. -/
theorem safe_iff : Safe env ↔ ¬Overlong env := by
  rw [safe_iff_wellReceived, shown_irqHandler, Overlong]
  by_cases hreached : Reached env
  · rw [if_pos hreached, wellReceived_irqReceive, and_iff_right hreached]
  · rw [if_neg hreached]
    simp [WellReceived, hreached]

/-- The receive interrupt of a payload of 33 bytes, all transactions of which
succeed. -/
def overlong : Env where
  inited := 1
  callback := true
  status := ⟨true, fun _ => 0x40#8⟩
  clear := true
  flushTx := true
  width := ⟨true, fun _ => 33#8⟩
  flushRx := true
  payload := ⟨true, fun _ => 0xAB#8⟩

/-- 33 bytes are delivered after the flush. -/
theorem not_safe_overlong : ¬Safe overlong := by
  rw [safe_iff_wellReceived, shown_irqHandler, if_pos (by decide), wellReceived_irqReceive]
  decide

end Receive

end DsEthComm.Nrf24l01
