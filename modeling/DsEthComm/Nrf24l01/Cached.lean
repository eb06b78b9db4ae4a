import DsEthComm.Conc.Run
import DsEthComm.Nrf24l01.Eval

/-!
# DsEthComm.Nrf24l01.Cached

`nrf24l01_basic_sent` trusts that the address registers still hold the
address cached in `gs_tx_addr`, where `nrf24l01_basic_send` programs them.

Two functions change the registers and not the cache:
`nrf24l01_basic_send` with another address, and `nrf24l01_basic_init`, which
gives pipe 0 its default address.  Over every sequence of calls the two ways
of sending agree exactly as long as neither of these happens.
-/

namespace DsEthComm.Nrf24l01

open Conc

namespace Cached

/-! ## Sequences of calls -/

inductive Label where
  /-- A call runs from its start to its end. -/
  | call (i : Api)
  /-- Between the calls the radio sends and receives. -/
  | air (e : Air)

/-- The calls follow each other, and no transaction fails. -/
def step (s : Radio) : Label → Option Radio
  | .call i => some (Radio.eval i.code s).1
  | .air e => some (s.setChip (s.chip.air e))

/-! ## Agreement -/

/-- `nrf24l01_basic_sent` does what `nrf24l01_basic_send` does with the
cached address: the same status and the same chip, and the same radio when
there is something to send. -/
def SendsAlike (s : Radio) (buf : List Byte) (useAck : Bool) : Prop :=
  let x := Radio.eval (basicSent buf useAck) s
  let y := Radio.eval (basicSend s.gsTxAddr buf useAck) s
  x.2 = y.2 ∧ x.1.chip = y.1.chip ∧ (buf.length ≤ 32 → x.1 = y.1)

/-- The address registers hold the cached address. -/
def Programmed (s : Radio) : Prop :=
  s.chip.txAddr = s.gsTxAddr.reverse ∧ s.chip.rxAddrP0 = s.gsTxAddr.reverse

/-- Once an address is set and while the driver is initialised, the address
registers hold it, and the two ways of sending agree. -/
def Agrees (s : Radio) : Prop :=
  s.gsTxAddrSet = 1 → s.handle.inited = 1 →
    Programmed s ∧ ∀ buf useAck, SendsAlike s buf useAck

/-- The calls that leave the cache right: `nrf24l01_basic_send` uses the
cached address, and `nrf24l01_basic_init` finds the default one in it. -/
def Respects (s : Radio) : Label → Prop
  | .call (.basicSend addr _ _) =>
      s.gsTxAddrSet = 1 → s.handle.inited = 1 → addr = s.gsTxAddr
  | .call (.basicInit _ true) => s.gsTxAddrSet = 1 → s.gsTxAddr = defaultRxAddr0
  | _ => True

instance : ∀ s l, Decidable (Respects s l)
  | s, .call (.basicSend addr _ _) =>
      inferInstanceAs (Decidable (s.gsTxAddrSet = 1 → s.handle.inited = 1 → addr = s.gsTxAddr))
  | s, .call (.basicInit _ true) =>
      inferInstanceAs (Decidable (s.gsTxAddrSet = 1 → s.gsTxAddr = defaultRxAddr0))
  | _, .call (.basicInit _ false) | _, .call .basicDeinit | _, .call (.basicSetTxAddress _)
  | _, .call (.basicSent _ _) | _, .call (.basicSetFrequency _) | _, .call .interruptIrqHandler
  | _, .call (.send _ _) | _, .air _ => .isTrue trivial

/-! ## The calls alone -/

section Calls

variable {s : Radio}

theorem program_eq (hp : Programmed s) : s.program s.gsTxAddr = s := by
  obtain ⟨⟨reg, rxAddrP0, rxAddrP1, txAddr, rxDr, txDs, maxRt, txFifo, rxFifo⟩, ce, handle,
    gsTxAddr, gsTxAddrSet⟩ := s
  obtain ⟨htx, hrx⟩ := hp
  simp only at htx hrx
  rw [htx, hrx]
  rfl

theorem eval_basicSent (h : s.gsTxAddrSet ≠ 0) (buf : List Byte) (useAck : Bool) :
    Radio.eval (basicSent buf useAck) s = Radio.eval (zeroOrOne (send buf useAck)) s := by
  have hget : Radio.eval getTxAddrSet s = (s, s.gsTxAddrSet) := rfl
  rw [basicSent, Prog.bind_eq, Radio.eval_bind, hget, Radio.eval_ite, if_neg h]

/-- Without an initialised driver the calls that program addresses fail at
once. -/
theorem eval_not_inited (h : s.handle.inited ≠ 1) (addr : Addr) (buf : List Byte)
    (useAck : Bool) :
    Radio.eval (basicSetTxAddress addr) s = (s, 1) ∧
      Radio.eval (basicSend addr buf useAck) s = (s, 1) := by
  have hchecked : ∀ body, Radio.eval (checked body) s = (s, 3) := by
    intro body
    rw [Radio.eval_checked, if_neg h]
  constructor
  · rw [basicSetTxAddress, Prog.bind_eq, Radio.eval_bind, setTxAddress, setAddress, hchecked]
    rfl
  · rw [basicSend, Prog.bind_eq, Radio.eval_bind, setActive, hchecked]
    rfl

/-- Sending does not depend on where the CE pin was. -/
theorem eval_send_ce (h : s.handle.inited = 1) {buf : List Byte} (hlen : buf.length ≤ 32)
    (useAck : Bool) (ce : Bool) :
    Radio.eval (send buf useAck) { s with ce := ce } = Radio.eval (send buf useAck) s := by
  have hlen' : ¬ buf.length > 32 := by omega
  rw [send, Radio.eval_checked_of_inited h, Radio.eval_checked_of_inited (by exact h),
    Radio.eval_ite, Radio.eval_ite, if_neg hlen', if_neg hlen']
  rfl

theorem eval_send_over (h : s.handle.inited = 1) {buf : List Byte} (hlen : 32 < buf.length)
    (useAck : Bool) : Radio.eval (send buf useAck) s = (s, 4) := by
  rw [send, Radio.eval_checked_of_inited h, Radio.eval_ite, if_pos hlen, Radio.eval_failWith]

/-- **Where the registers hold the cached address, both ways of sending
agree.** -/
theorem sendsAlike (h : s.handle.inited = 1) (hset : s.gsTxAddrSet = 1)
    (hw : s.chip.reg regSetupAw &&& 3#8 = 3#8) (hp : Programmed s) (buf : List Byte)
    (useAck : Bool) : SendsAlike s buf useAck := by
  have hsent := eval_basicSent (s := s) (by rw [hset]; decide) buf useAck
  have hsend : Radio.eval (basicSend s.gsTxAddr buf useAck) s =
      Radio.eval (zeroOrOne (send buf useAck)) { s with ce := false } := by
    rw [Radio.eval_basicSend h hw, program_eq hp]
  unfold SendsAlike
  rw [hsent, hsend, Radio.eval_zeroOrOne, Radio.eval_zeroOrOne]
  by_cases hlen : buf.length ≤ 32
  · have hce := eval_send_ce h hlen useAck false
    rw [hce]
    exact ⟨rfl, rfl, fun _ => rfl⟩
  · rw [eval_send_over h (by omega), eval_send_over (by exact h) (by omega)]
    exact ⟨rfl, rfl, fun hle => absurd hle hlen⟩

end Calls

/-! ## What a call does to the cache -/

/-- What holds while the calls respect the cache. -/
structure Inv (s : Radio) : Prop where
  programmed : s.gsTxAddrSet = 1 → Programmed s
  setupAw : s.handle.inited = 1 → s.chip.reg regSetupAw &&& 3#8 = 3#8

/-- The state after a call: the address width is still right, the registers
are right as long as the driver is not initialised, and otherwise exactly
when the call respected the cache. -/
structure Outcome (s : Radio) (l : Label) (s' : Radio) : Prop where
  setupAw : s'.handle.inited = 1 → s'.chip.reg regSetupAw &&& 3#8 = 3#8
  closed : s'.handle.inited ≠ 1 → s'.gsTxAddrSet = 1 → Programmed s'
  exact : (s'.gsTxAddrSet = 1 → s'.handle.inited = 1 → Programmed s') ↔ Respects s l

section Outcome

variable {s s' : Radio} {l : Label}

theorem Programmed.of_same (h : Programmed s) (hs : SameAddress s s') : Programmed s' := by
  unfold Programmed
  rw [hs.txAddr, hs.rxAddrP0, hs.gsTxAddr]
  exact h

/-- A call that keeps the addresses. -/
theorem Outcome.of_same (h : Inv s) (hl : Respects s l) (hs : SameAddress s s') :
    Outcome s l s' where
  setupAw hin := by
    rw [hs.setupAw]
    exact h.setupAw (hs.inited ▸ hin)
  closed _ hset := (h.programmed (hs.gsTxAddrSet ▸ hset)).of_same hs
  exact := ⟨fun _ => hl, fun _ hset _ => (h.programmed (hs.gsTxAddrSet ▸ hset)).of_same hs⟩

/-- A call that closes the driver and keeps the addresses. -/
theorem Outcome.of_closed (h : Inv s) (hl : Respects s l) (hin : s'.handle.inited ≠ 1)
    (hset : s'.gsTxAddrSet = s.gsTxAddrSet) (hp : Programmed s → Programmed s') :
    Outcome s l s' where
  setupAw h1 := absurd h1 hin
  closed _ h1 := hp (h.programmed (hset ▸ h1))
  exact := ⟨fun _ => hl, fun _ _ h1 => absurd h1 hin⟩

theorem outcome_basicInit (h : Inv s) (type : Role) (callback : Bool) :
    Outcome s (.call (.basicInit type callback)) (Radio.eval (basicInit type callback) s).1 := by
  cases callback with
  | false =>
      have heval : Radio.eval (basicInit type false) s = (s.setHandle ⟨0, 0, false⟩, 1) := rfl
      have hin : (s.setHandle ⟨0, 0, false⟩).handle.inited ≠ 1 := by
        show (0#8 : Byte) ≠ 1
        decide
      rw [heval]
      exact .of_closed h trivial hin rfl fun hp => hp
  | true =>
      have heval := Radio.eval_basicInit s type
      have hstart : Configured s.chip.txAddr s.gsTxAddr s.gsTxAddrSet false false
          (s.setHandle ⟨1, 0, true⟩) :=
        ⟨rfl, rfl, rfl, rfl, nofun, nofun⟩
      obtain ⟨-, hend⟩ := achieves_basicInitSteps type _ hstart
      rw [← heval] at hend
      refine ⟨fun _ => hend.setupAw rfl, fun hin => absurd hend.inited hin, ?_⟩
      unfold Programmed Respects
      rw [hend.txAddr, hend.gsTxAddr, hend.gsTxAddrSet, hend.rxAddrP0 rfl]
      constructor
      · intro hp hset
        have hrx := (hp hset hend.inited).2
        exact (Vector.reverse_inj.mp hrx).symm
      · intro hgs hset _
        exact ⟨(h.programmed hset).1, by rw [hgs hset]⟩

theorem outcome_basicDeinit (h : Inv s) :
    Outcome s (.call .basicDeinit) (Radio.eval basicDeinit s).1 := by
  have hzero : (Radio.eval basicDeinit s).1 = (Radio.eval deinit s).1 := by
    rw [basicDeinit, Radio.eval_zeroOrOne]
  by_cases hin : s.handle.inited = 1
  · have hclosed : (0#8 : Byte) ≠ 1 := by decide
    rw [hzero, Radio.eval_deinit hin]
    exact .of_closed h trivial hclosed rfl fun hp => hp
  · rw [hzero, deinit, Radio.eval_checked, if_neg hin]
    exact .of_same h trivial (.refl s)

theorem outcome_basicSetTxAddress (h : Inv s) (addr : Addr) :
    Outcome s (.call (.basicSetTxAddress addr)) (Radio.eval (basicSetTxAddress addr) s).1 := by
  by_cases hin : s.handle.inited = 1
  · rw [Radio.eval_basicSetTxAddress hin (h.setupAw hin)]
    exact ⟨h.setupAw, fun h1 => absurd hin h1, fun _ => trivial, fun _ _ _ => ⟨rfl, rfl⟩⟩
  · rw [(eval_not_inited hin addr [] false).1]
    exact .of_same h trivial (.refl s)

theorem sameAddress_zeroOrOne_send (s : Radio) (buf : List Byte) (useAck : Bool) :
    SameAddress s (Radio.eval (zeroOrOne (send buf useAck)) s).1 := by
  rw [Radio.eval_zeroOrOne]
  exact (keepsAddress_send buf useAck).eval s

theorem outcome_basicSend (h : Inv s) (addr : Addr) (buf : List Byte) (useAck : Bool) :
    Outcome s (.call (.basicSend addr buf useAck))
      (Radio.eval (basicSend addr buf useAck) s).1 := by
  by_cases hin : s.handle.inited = 1
  · rw [Radio.eval_basicSend hin (h.setupAw hin)]
    have hs := sameAddress_zeroOrOne_send { s.program addr with ce := false } buf useAck
    refine ⟨fun _ => ?_, fun h1 => absurd (hs.inited.trans hin) h1, ?_⟩
    · rw [hs.setupAw]
      exact h.setupAw hin
    · unfold Programmed Respects
      rw [hs.txAddr, hs.rxAddrP0, hs.gsTxAddr, hs.gsTxAddrSet, hs.inited]
      constructor
      · intro hp hset _
        exact Vector.reverse_inj.mp (hp hset hin).1
      · intro haddr hset _
        rw [haddr hset hin]
        exact ⟨rfl, rfl⟩
  · rw [(eval_not_inited hin addr buf useAck).2]
    exact .of_same h (fun _ h1 => absurd h1 hin) (.refl s)

theorem sameAddress_basicSent (s : Radio) (buf : List Byte) (useAck : Bool) :
    SameAddress s (Radio.eval (basicSent buf useAck) s).1 := by
  by_cases hset : s.gsTxAddrSet = 0
  · have heval : Radio.eval (basicSent buf useAck) s = (s, 1) := by
      have hget : Radio.eval getTxAddrSet s = (s, s.gsTxAddrSet) := rfl
      rw [basicSent, Prog.bind_eq, Radio.eval_bind, hget, Radio.eval_ite, if_pos hset,
        Radio.eval_failWith]
    rw [heval]
    exact .refl s
  · rw [eval_basicSent hset]
    exact sameAddress_zeroOrOne_send s buf useAck

theorem sameAddress_basicSetFrequency (s : Radio) (freq : Byte) :
    SameAddress s (Radio.eval (basicSetFrequency freq) s).1 := by
  have heval : (Radio.eval (basicSetFrequency freq) s).1 =
      (Radio.eval (setChannelFrequency freq) s).1 := by
    rw [basicSetFrequency, Prog.bind_eq, Radio.eval_bind, Radio.eval_ite]
    split <;> rfl
  rw [heval]
  exact (keepsAddress_setChannelFrequency freq).eval s

/-- Every call and everything the radio does by itself. -/
theorem outcome_step (h : Inv s) (hs : step s l = some s') : Outcome s l s' := by
  cases l with
  | air e =>
      obtain rfl := Option.some.inj hs
      exact .of_same h trivial ⟨rfl, rfl, rfl, rfl, rfl, rfl⟩
  | call i =>
      obtain rfl := Option.some.inj hs
      cases i with
      | basicInit type callback => exact outcome_basicInit h type callback
      | basicDeinit => exact outcome_basicDeinit h
      | basicSetTxAddress addr => exact outcome_basicSetTxAddress h addr
      | basicSend addr buf useAck => exact outcome_basicSend h addr buf useAck
      | basicSent buf useAck => exact .of_same h trivial (sameAddress_basicSent s buf useAck)
      | basicSetFrequency freq =>
          exact .of_same h trivial (sameAddress_basicSetFrequency s freq)
      | interruptIrqHandler =>
          have heval : (Radio.eval interruptIrqHandler s).1 = (Radio.eval irqHandler s).1 := by
            rw [interruptIrqHandler, Radio.eval_zeroOrOne]
          refine .of_same h trivial ?_
          rw [Api.code, heval]
          exact keepsAddress_irqHandler.eval s
      | send buf useAck => exact .of_same h trivial ((keepsAddress_send buf useAck).eval s)

end Outcome

/-! ## Whole sequences -/

theorem agrees_iff {s : Radio}
    (hw : s.handle.inited = 1 → s.chip.reg regSetupAw &&& 3#8 = 3#8) :
    Agrees s ↔ (s.gsTxAddrSet = 1 → s.handle.inited = 1 → Programmed s) := by
  constructor
  · intro h hset hin
    exact (h hset hin).1
  · intro h hset hin
    exact ⟨h hset hin, sendsAlike hin hset (hw hin) (h hset hin)⟩

/-- From power-on, `nrf24l01_basic_sent` agrees with `nrf24l01_basic_send`
after every call of a sequence exactly when every call respects the cached
address. -/
theorem agrees_iff_respects (s : Radio) (hset : s.gsTxAddrSet = 0) (hin : s.handle.inited = 0)
    (ls : List Label) : Always step Agrees s ls ↔ Along step Respects s ls := by
  have hset' : s.gsTxAddrSet ≠ 1 := by rw [hset]; decide
  have hin' : s.handle.inited ≠ 1 := by rw [hin]; decide
  have hexact : ∀ s l s', Inv s → step s l = some s' → (Agrees s' ↔ Respects s l) := by
    intro s l s' hI hs
    have hout := outcome_step hI hs
    rw [agrees_iff hout.setupAw, hout.exact]
  have hinv : ∀ s l s', Inv s → step s l = some s' → Agrees s' → Inv s' := by
    intro s l s' hI hs hA
    have hout := outcome_step hI hs
    refine ⟨fun h1 => ?_, hout.setupAw⟩
    by_cases h2 : s'.handle.inited = 1
    · exact (hA h1 h2).1
    · exact hout.closed h2 h1
  refine always_iff_along (fun s l s' hI _ hs hA => hinv s l s' hI hs hA) ?_
    (fun s l s' hI _ hs => hexact s l s' hI hs) ?_ ?_ ls
  · intro s l
    cases l <;> exact ⟨_, rfl⟩
  · exact ⟨fun h1 => absurd h1 hset', fun h1 => absurd h1 hin'⟩
  · exact fun h1 => absurd h1 hset'

/-! ## A cache that goes stale -/

/-- A radio just powered on. -/
def powerOn : Radio := { sampleRadio with ce := false, handle := ⟨0, 0, false⟩ }

def staleRun : List Label :=
  [.call (.basicInit .tx true), .call (.basicSetTxAddress nrfTxAddr),
    .call (.basicSend otherAddr [0xAB#8] false)]

/-- Every call uses the cached address. -/
def cachedRun : List Label :=
  [.call (.basicInit .tx true), .call (.basicSetTxAddress nrfTxAddr),
    .call (.basicSent [0xAB#8] false), .air ⟨false, true, false, [], []⟩,
    .call .interruptIrqHandler, .call (.basicSend nrfTxAddr [0xCD#8] false),
    .call (.basicSetFrequency 90#8), .call .basicDeinit]

theorem agrees_iff_respects_cachedRun :
    Along step Respects powerOn cachedRun ∧ Always step Agrees powerOn cachedRun :=
  ⟨by decide, (agrees_iff_respects powerOn rfl rfl cachedRun).mpr (by decide)⟩

/-- `nrf24l01_basic_send` to a second address leaves `nrf24l01_basic_sent`
sending there too. -/
theorem stale_cache : (powerOn.gsTxAddrSet = 0 ∧ powerOn.handle.inited = 0) ∧
    ¬ Always step Agrees powerOn staleRun := by
  obtain ⟨s, hs, hset, hin, hne⟩ : ∃ s, run step powerOn staleRun = some s ∧
      s.gsTxAddrSet = 1 ∧ s.handle.inited = 1 ∧
        s.chip.txAddr.toList ≠ s.gsTxAddr.toList.reverse :=
    ⟨_, rfl, by decide⟩
  refine ⟨⟨rfl, rfl⟩, fun hA => hne ?_⟩
  obtain ⟨⟨htx, -⟩, -⟩ := hA.last hs hset hin
  rw [htx, Vector.toList_reverse]

end Cached

end DsEthComm.Nrf24l01
