import DsEthComm.Nrf24l01.Faults

/-!
# DsEthComm.Nrf24l01.Unwind

What a call leaves behind when one of its transactions fails.

Two functions have something to undo.  `nrf24l01_basic_set_tx_address`
writes `TX_ADDR` before it knows whether `RX_ADDR_P0` can be written, and
the functions that send lower CE before they know whether the payload can.
The interrupt handler raises CE again on each of its error paths; the
others undo nothing.
-/

namespace DsEthComm.Nrf24l01

open Conc

namespace Unwind

open Radio

variable (env : Schedule) (s : Radio) (i : Nat)

/-! ## Address setters -/

/-- The driver takes addresses of five bytes. -/
structure Addressable (s : Radio) : Prop where
  inited : s.handle.inited = 1
  width : s.chip.reg regSetupAw &&& 3#8 = 3#8

instance : Decidable (Addressable s) :=
  decidable_of_iff (s.handle.inited = 1 ∧ s.chip.reg regSetupAw &&& 3#8 = 3#8)
    ⟨fun h => ⟨h.1, h.2⟩, fun h => ⟨h.inited, h.width⟩⟩

/-- The two transactions of an address setter succeed. -/
def SetterOk : Prop := env.fails i = false ∧ env.fails (i + 1) = false

instance : Decidable (SetterOk env i) :=
  inferInstanceAs (Decidable (_ ∧ _))

theorem evalAt_setAddress_ok (h : Addressable s) (hok : SetterOk env i) {r : Byte}
    (hr : r &&& 0xE0#8 = 0#8) (addr : Addr) (setFailed : String) :
    evalAt env (setAddress r addr.toList defaultAddressLen setFailed) s i =
      ((s.setChip (s.chip.writeReg r addr.reverse.toList), i + 2), 0) := by
  rw [evalAt_setAddress env s i h.inited hr, hok.1, hok.2, h.width]
  simp

/-- A setter that does not get through changes nothing and says so. -/
theorem evalAt_setAddress_fail (h : ¬ (Addressable s ∧ SetterOk env i)) {r : Byte}
    (hr : r &&& 0xE0#8 = 0#8) (addr : Addr) (setFailed : String) :
    (evalAt env (setAddress r addr.toList defaultAddressLen setFailed) s i).1.1 = s ∧
      (evalAt env (setAddress r addr.toList defaultAddressLen setFailed) s i).2 ≠ 0 := by
  by_cases hinit : s.handle.inited = 1
  · rw [evalAt_setAddress env s i hinit hr]
    split
    · exact ⟨rfl, by simp⟩
    split
    · exact ⟨rfl, by simp⟩
    split
    · exact ⟨rfl, by simp⟩
    next hread hwidth hwrite =>
      exact absurd ⟨⟨hinit, by simpa using hwidth⟩, by simpa using hread, by simpa using hwrite⟩ h
  · rw [setAddress, evalAt_checked, if_neg hinit]
    exact ⟨rfl, by simp⟩

/-- The radio after the first of the two setters. -/
def half (addr : Addr) : Radio := s.setChip { s.chip with txAddr := addr.reverse }

theorem Addressable.half {s : Radio} (h : Addressable s) (addr : Addr) :
    Addressable (half s addr) :=
  ⟨h.inited, h.width⟩

theorem evalAt_setTxAddress_ok (h : Addressable s) (hok : SetterOk env i) (addr : Addr) :
    evalAt env (setTxAddress addr defaultAddressLen) s i =
      ((half s addr, i + 2), 0) := by
  rw [setTxAddress, evalAt_setAddress_ok env s i h hok (by decide), Chip.writeReg_txAddr, half]

theorem evalAt_setRxPipe0Address_ok (h : Addressable s) (hok : SetterOk env i) (addr : Addr) :
    evalAt env (setRxPipe0Address addr defaultAddressLen) s i =
      ((s.setChip { s.chip with rxAddrP0 := addr.reverse }, i + 2), 0) := by
  rw [setRxPipe0Address, evalAt_setAddress_ok env s i h hok (by decide), Chip.writeReg_rxAddrP0]

/-! ## All or nothing -/

/-- The addresses and the variables that go with them. -/
def addresses : Addr × Addr × Addr × Byte :=
  (s.chip.txAddr, s.chip.rxAddrP0, s.gsTxAddr, s.gsTxAddrSet)

/-- `nrf24l01_basic_set_tx_address` reports a failure and changes none of
the addresses, or succeeds and sets all of them. -/
def AllOrNothing (addr : Addr) : Prop :=
  let x := evalAt env (basicSetTxAddress addr) s 0
  if x.2 ≠ 0 then addresses x.1.1 = addresses s
  else addresses x.1.1 = (addr.reverse, addr.reverse, addr, 1)

/-- The first setter does not get through. -/
theorem evalAt_basicSetTxAddress_fail (h : ¬ (Addressable s ∧ SetterOk env i)) (addr : Addr) :
    (evalAt env (basicSetTxAddress addr) s i).1.1 = s ∧
      (evalAt env (basicSetTxAddress addr) s i).2 = 1 := by
  obtain ⟨hs, hres⟩ : (evalAt env (setTxAddress addr defaultAddressLen) s i).1.1 = s ∧
      (evalAt env (setTxAddress addr defaultAddressLen) s i).2 ≠ 0 :=
    evalAt_setAddress_fail env s i h (by decide) addr _
  rw [basicSetTxAddress, Prog.bind_eq, evalAt_bind, evalAt_ite, if_pos hres, evalAt_failWith]
  exact ⟨hs, rfl⟩

/-- The second setter does not get through: `TX_ADDR` has been written. -/
theorem evalAt_basicSetTxAddress_half (h : Addressable s) (hok : SetterOk env i)
    (hfail : ¬ SetterOk env (i + 2)) (addr : Addr) :
    (evalAt env (basicSetTxAddress addr) s i).1.1 = half s addr ∧
      (evalAt env (basicSetTxAddress addr) s i).2 = 1 := by
  obtain ⟨hs, hres⟩ : (evalAt env (setRxPipe0Address addr defaultAddressLen) (half s addr)
      (i + 2)).1.1 = half s addr ∧
      (evalAt env (setRxPipe0Address addr defaultAddressLen) (half s addr) (i + 2)).2 ≠ 0 :=
    evalAt_setAddress_fail env _ _ (fun hboth => hfail hboth.2) (by decide) addr _
  rw [basicSetTxAddress, Prog.bind_eq, evalAt_bind, evalAt_setTxAddress_ok env s i h hok]
  simp only [ne_eq, not_true_eq_false, if_false, Prog.bind_eq, evalAt_bind]
  rw [evalAt_ite, if_pos hres, evalAt_failWith]
  exact ⟨hs, rfl⟩

theorem evalAt_basicSetTxAddress_ok (h : Addressable s) (hok : SetterOk env i)
    (hok' : SetterOk env (i + 2)) (addr : Addr) :
    evalAt env (basicSetTxAddress addr) s i =
      (({ program s addr with gsTxAddr := addr, gsTxAddrSet := 1 }, i + 4), 0) := by
  rw [basicSetTxAddress, Prog.bind_eq, evalAt_bind, evalAt_setTxAddress_ok env s i h hok]
  simp only [ne_eq, not_true_eq_false, if_false, Prog.bind_eq, evalAt_bind]
  rw [evalAt_setRxPipe0Address_ok env _ _ (h.half addr) hok']
  rfl

/-- A call is all or nothing exactly if it does not stop between the two
registers, or `TX_ADDR` held the new address already. -/
theorem allOrNothing_iff (addr : Addr) :
    AllOrNothing env s addr ↔
      ¬ (Addressable s ∧ SetterOk env 0 ∧ ¬ SetterOk env 2) ∨ s.chip.txAddr = addr.reverse := by
  unfold AllOrNothing
  by_cases hfirst : Addressable s ∧ SetterOk env 0
  · obtain ⟨h, hok⟩ := hfirst
    by_cases hok' : SetterOk env 2
    · rw [evalAt_basicSetTxAddress_ok env s 0 h hok hok']
      simp [addresses, program, Radio.setChip, hok']
    · obtain ⟨hs, hres⟩ := evalAt_basicSetTxAddress_half env s 0 h hok hok' addr
      simp only [hs, hres]
      simp [addresses, half, Radio.setChip, h, hok, hok', eq_comm]
  · obtain ⟨hs, hres⟩ := evalAt_basicSetTxAddress_fail env s 0 hfirst addr
    simp only [hs, hres]
    have hnot : ¬ (Addressable s ∧ SetterOk env 0 ∧ ¬ SetterOk env 2) :=
      fun hall => hfirst ⟨hall.1, hall.2.1⟩
    simp [hnot]

/-- `RX_ADDR_P0` cannot be written: the call returns 1 and leaves the new
address in `TX_ADDR`. -/
theorem not_allOrNothing_half : ¬ AllOrNothing (.failingAt [3]) sampleRadio nrfTxAddr := by
  obtain ⟨hs, hres⟩ := evalAt_basicSetTxAddress_half (.failingAt [3]) sampleRadio 0 (by decide)
    (by decide) (by decide) nrfTxAddr
  have hne : (half sampleRadio nrfTxAddr).chip.txAddr ≠ sampleRadio.chip.txAddr := by
    intro heq
    have hlist : nrfTxAddr.toList.reverse = sampleRadio.chip.txAddr.toList := by
      rw [← heq, ← Vector.toList_reverse]
      rfl
    exact absurd hlist (by decide)
  unfold AllOrNothing
  simp only [hs, hres]
  intro hall
  exact hne (Prod.mk.inj hall).1

/-! ## The CE pin -/

/-- Follows the CE pin. -/
def ceMonitor : Monitor driverSig Bool where
  pre _ _ := True
  may _ o r := match (o : Op), r with
    | .gpioWrite _, r => r = true
    | _, _ => True
  next l o _ := match (o : Op) with
    | .gpioWrite value => value
    | _ => l

/-- Run from a state with the pin at `l`, the program ends with CE high. -/
def EndsHigh {α : Type} (p : Driver α) (l : Bool) : Prop := p.wp ceMonitor (fun _ l => l = true) l

theorem ce_performAt (x : Radio × Nat) (o : Op) :
    ceMonitor.may x.1.ce o (performAt env x o).2 ∧
      (performAt env x o).1.1.ce = ceMonitor.next x.1.ce o (performAt env x o).2 := by
  cases o with
  | spiRead reg len =>
      refine ⟨trivial, ?_⟩
      show (x.1.spiRead reg len (env.answer x.2)).1.ce = x.1.ce
      unfold Radio.spiRead
      split <;> rfl
  | spiWrite reg buf =>
      refine ⟨trivial, ?_⟩
      show (x.1.spiWrite reg buf (env.answer x.2)).1.ce = x.1.ce
      unfold Radio.spiWrite
      split <;> rfl
  | gpioWrite value => exact ⟨rfl, rfl⟩
  | _ => exact ⟨trivial, rfl⟩

theorem EndsHigh.ce {α : Type} {p : Driver α} {l : Bool} (hp : EndsHigh p l) {s : Radio} {i : Nat}
    (hs : s.ce = l) : (evalAt env p s i).1.1.ce = true := by
  have hstep : ∀ (x : Radio × Nat) l (o : Op), x.1.ce = l → True →
      ceMonitor.may l o (performAt env x o).2 ∧
        (performAt env x o).1.1.ce = ceMonitor.next l o (performAt env x o).2 := by
    rintro x l o rfl -
    exact ce_performAt env x o
  obtain ⟨l, rfl, hce⟩ := Prog.eval_of_wp (s := (s, i)) hstep hp hs
  exact hce

theorem endsHigh_irqHandler : EndsHigh irqHandler true := by
  simp [EndsHigh, irqHandler, checked, irqFail, irqDone, irqServe, irqMaxRt, irqSent, irqTail,
    irqReceive, irqReadPayload, notify, failWith, ceMonitor]

theorem endsHigh_awaitAck : EndsHigh awaitAck true := by
  have hignores : Ignores ceMonitor true := by
    intro o ho
    cases o <;> first | contradiction | exact ⟨trivial, fun _ => rfl⟩
  exact hignores.wp_awaitAck fun _ => rfl

/-- The end of `nrf24l01_send`, once CE is high again. -/
theorem endsHigh_sendTail (useAck : Bool) :
    EndsHigh (do
      let _ ← Nrf24l01.spiRead (commandRRegister ||| regFeature) 1
      if useAck then awaitAck else pure 0) true := by
  have hack : awaitAck.wp ceMonitor (fun _ l => l = true) true := endsHigh_awaitAck
  cases useAck with
  | true => simpa [EndsHigh, ceMonitor] using hack
  | false => simp [EndsHigh, ceMonitor]

/-- `nrf24l01_send` leaves CE low exactly if its payload cannot be written. -/
theorem ce_send (h : s.handle.inited = 1) (buf : List Byte) (useAck : Bool) :
    (evalAt env (send buf useAck) s i).1.1.ce =
      if 32 < buf.length then s.ce else !env.fails i := by
  rw [send, evalAt_checked, if_pos h, evalAt_ite]
  by_cases hlen : 32 < buf.length
  · rw [if_pos hlen, if_pos hlen, evalAt_failWith]
  · have hbuf : (reverseBuffer buf).length ≤ 33 := by
      rw [reverseBuffer_eq, List.length_reverse]
      omega
    rw [if_neg hlen, if_neg hlen]
    simp only [Prog.bind_eq, evalAt_bind, evalAt_setFinished, evalAt_gpioWrite]
    simp only [Bool.not_true, Bool.false_eq_true, if_false, evalAt_bind]
    rw [evalAt_spiWrite env _ i hbuf]
    cases env.fails i with
    | true => rfl
    | false =>
        simp only [Bool.false_eq_true, if_false, Bool.not_true]
        rw [evalAt_bind, evalAt_gpioWrite]
        exact (endsHigh_sendTail useAck).ce env rfl

/-- The functions that lower CE for the time of a call. -/
inductive Call where
  | send (buf : List Byte) (useAck : Bool)
  | basicSend (addr : Addr) (buf : List Byte) (useAck : Bool)
  | basicSent (buf : List Byte) (useAck : Bool)
  | irqHandler
deriving DecidableEq

def Call.code : Call → Driver Byte
  | .send buf useAck => Nrf24l01.send buf useAck
  | .basicSend addr buf useAck => Nrf24l01.basicSend addr buf useAck
  | .basicSent buf useAck => Nrf24l01.basicSent buf useAck
  | .irqHandler => Nrf24l01.irqHandler

/-- The payload is written, or the call ends before it lowers CE.  Only
`nrf24l01_basic_send` lowers CE before it looks at the length. -/
def Call.Undisturbed : Call → Prop
  | .send buf _ => 32 < buf.length ∨ env.fails 0 = false
  | .basicSend _ buf _ =>
      s.chip.reg regSetupAw &&& 3#8 = 3#8 ∧ SetterOk env 0 ∧ SetterOk env 2 ∧ buf.length ≤ 32 ∧
        env.fails 4 = false
  | .basicSent buf _ => s.gsTxAddrSet = 0 ∨ 32 < buf.length ∨ env.fails 0 = false
  | .irqHandler => True

instance : ∀ call : Call, Decidable (call.Undisturbed env s)
  | .send _ _ | .basicSent _ _ => inferInstanceAs (Decidable (_ ∨ _))
  | .basicSend _ _ _ => inferInstanceAs (Decidable (_ ∧ _))
  | .irqHandler => .isTrue trivial

theorem ce_basicSent (h : s.handle.inited = 1) (buf : List Byte) (useAck : Bool) :
    (evalAt env (basicSent buf useAck) s i).1.1.ce =
      if s.gsTxAddrSet = 0 ∨ 32 < buf.length then s.ce else !env.fails i := by
  rw [basicSent, Prog.bind_eq, evalAt_bind, evalAt_getTxAddrSet, evalAt_ite, evalAt_zeroOrOne]
  by_cases hset : s.gsTxAddrSet = 0
  · simp [hset]
  · rw [if_neg hset, ce_send env s i h]
    exact ite_congr (by simp only [hset, false_or]) (fun _ => rfl) (fun _ => rfl)

/-- `nrf24l01_basic_send` once CE is low: the first half fails, the second
half fails, or the rest is `nrf24l01_send`. -/
theorem ce_basicSend (h : s.handle.inited = 1) (addr : Addr) (buf : List Byte) (useAck : Bool) :
    (evalAt env (basicSend addr buf useAck) s i).1.1.ce = true ↔
      s.chip.reg regSetupAw &&& 3#8 = 3#8 ∧ SetterOk env i ∧ SetterOk env (i + 2) ∧
        buf.length ≤ 32 ∧ env.fails (i + 4) = false := by
  rw [basicSend, Prog.bind_eq, evalAt_bind, evalAt_setActive env s i h]
  simp only [ne_eq, not_true_eq_false, if_false, Prog.bind_eq, evalAt_bind]
  by_cases hfirst : Addressable { s with ce := false } ∧ SetterOk env i
  · obtain ⟨haddr, hok⟩ := hfirst
    rw [evalAt_setTxAddress_ok env _ i haddr hok]
    simp only [not_true_eq_false, if_false, evalAt_bind]
    by_cases hok' : SetterOk env (i + 2)
    · rw [evalAt_setRxPipe0Address_ok env _ _ (haddr.half addr) hok']
      simp only [not_true_eq_false, if_false]
      rw [evalAt_zeroOrOne, ce_send env _ _ (by exact h)]
      have hwidth : s.chip.reg regSetupAw &&& 3#8 = 3#8 := haddr.width
      by_cases hlen : 32 < buf.length
      · have hce : (half { s with ce := false } addr).ce = false := rfl
        simp [hlen, Radio.setChip, hce, Nat.not_le_of_lt hlen]
      · simp [hlen, hwidth, hok, hok', Nat.le_of_not_lt hlen]
    · obtain ⟨hs, hres⟩ : (evalAt env (setRxPipe0Address addr defaultAddressLen)
          (half { s with ce := false } addr) (i + 2)).1.1 = half { s with ce := false } addr ∧
          (evalAt env (setRxPipe0Address addr defaultAddressLen)
            (half { s with ce := false } addr) (i + 2)).2 ≠ 0 :=
        evalAt_setAddress_fail env _ _ (fun hboth => hok' hboth.2) (by decide) addr _
      rw [evalAt_ite, if_pos hres, evalAt_failWith, hs]
      simp [half, Radio.setChip, hok']
  · obtain ⟨hs, hres⟩ : (evalAt env (setTxAddress addr defaultAddressLen)
        { s with ce := false } i).1.1 = { s with ce := false } ∧
        (evalAt env (setTxAddress addr defaultAddressLen) { s with ce := false } i).2 ≠ 0 :=
      evalAt_setAddress_fail env _ i hfirst (by decide) addr _
    rw [evalAt_ite, if_pos hres, evalAt_failWith, hs]
    have hnot : ¬ (s.chip.reg regSetupAw &&& 3#8 = 3#8 ∧ SetterOk env i ∧
        SetterOk env (i + 2) ∧ buf.length ≤ 32 ∧ env.fails (i + 4) = false) :=
      fun hall => hfirst ⟨⟨h, hall.1⟩, hall.2.1⟩
    simp [hnot]

/-- A call that begins with CE high ends with CE high exactly if it is
undisturbed. -/
theorem ce_restored_iff (h : s.handle.inited = 1) (hce : s.ce = true) (call : Call) :
    (evalAt env call.code s 0).1.1.ce = true ↔ call.Undisturbed env s := by
  cases call with
  | send buf useAck =>
      rw [Call.code, ce_send env s 0 h, hce, Call.Undisturbed]
      by_cases hlen : 32 < buf.length <;> simp [hlen]
  | basicSend addr buf useAck => exact ce_basicSend env s 0 h addr buf useAck
  | basicSent buf useAck =>
      rw [Call.code, ce_basicSent env s 0 h, hce, Call.Undisturbed, ← or_assoc]
      simp
  | irqHandler => exact iff_of_true (endsHigh_irqHandler.ce env hce) trivial

/-- The handler restores CE although none of its transactions succeeds. -/
theorem ce_restored_irqHandler :
    sampleRadio.handle.inited = 1 ∧ sampleRadio.ce = true ∧
      (evalAt (.failingAt [0, 1, 2, 3]) Call.irqHandler.code sampleRadio 0).1.1.ce = true :=
  ⟨rfl, rfl, (ce_restored_iff _ sampleRadio rfl rfl .irqHandler).mpr trivial⟩

/-- `nrf24l01_send` whose payload cannot be written leaves the radio
disabled. -/
theorem ce_not_restored_send :
    sampleRadio.handle.inited = 1 ∧ sampleRadio.ce = true ∧
      ¬ (evalAt (.failingAt [0]) (Call.send [0xAB#8] false).code sampleRadio 0).1.1.ce = true :=
  ⟨rfl, rfl, by decide⟩

end Unwind

end DsEthComm.Nrf24l01
