import DsEthComm.Nrf24l01.Eval
import DsEthComm.Shell.Thread

/-!
# DsEthComm.Nrf24l01.TxAddress

The address under which payloads are sent.  It is kept three times: in
`gs_tx_addr`, which `nrf_addr_get` reports, in the chip, and in the local
array `nrf_tx_addr` with which `NRF24TxThread` reprograms the chip before
every payload.

All three agree, since the shell cannot change any of them: a line has four
arguments at most, and `nrf_addr` wants five.
-/

open DsEthComm.Shell

namespace DsEthComm.Nrf24l01

open Conc

namespace TxAddress

/-! ## The system -/

/-- The calls of a line that was typed, as `shellThread` makes them. -/
def lineEvents (text : CStr) : List Event :=
  match parseLine (text.chars ++ [0#8]) with
  | some (cmd, args, line) =>
      (executeLine (cmd.map (strAt line), args.map (·.map (strAt line)))).1
  | none => []

/-- What the two threads do. -/
inductive Call where
  /-- An iteration of `NRF24TxThread`, with the report it sends. -/
  | iteration (report : List Byte)
  /-- A line that was typed. -/
  | line (text : CStr)
deriving DecidableEq

def Call.code : Call → Driver Unit
  | .iteration report => do
      let _ ← basicSend nrfTxAddr report false
      pure ()
  | .line text => performAll (lineEvents text)

def allowed : Client → Call → Bool
  | .tx, .iteration _ => true
  | .shell, .line _ => true
  | _, _ => false

/-- `NRF24TxThread` and the shell, operation by operation, and the chip. -/
def addressSystem : Pool driverSig World Client Call Unit (List Byte) Air where
  code := Call.code
  enter t i w := if allowed t i then some w else none
  perform _ _ w o noise :=
    let x := w.radio.perform o (answer noise)
    (w.change x.1, x.2)
  leave _ _ _ w := w
  env e w := some (w.change (w.radio.setChip (w.radio.chip.air e)))

abbrev State := Conf driverSig World Client Call Unit

abbrev Label := PoolLabel Client Call (List Byte) Air

/-- The start-up of `NRF24TxThread`: `nrf24l01_basic_init`, then
`nrf24l01_basic_set_tx_address` with its array. -/
def startUp (s : Radio) : Radio :=
  (Radio.eval (basicSetTxAddress nrfTxAddr) (Radio.eval (basicInit .tx true) s).1).1

/-- Both threads between two calls, after the start-up. -/
def start (s : Radio) (pending : Bool) : State := Pool.start ⟨startUp s, pending⟩

/-! ## The property -/

/-- The next operation of the thread writes a payload. -/
def writesPayload : Option Op → Bool
  | some (.spiWrite cmd _) => isPayload cmd
  | _ => false

/-- `NRF24TxThread` writes a payload only while `TX_ADDR` holds the address
that `nrf_addr_get` reports. -/
def Effective (c : State) : Label → Prop
  | .exec .tx _ => writesPayload (c.next .tx) = true →
      c.shared.radio.gsTxAddrSet = 1 ∧
        c.shared.radio.chip.txAddr.toList = c.shared.radio.gsTxAddr.toList.reverse
  | _ => True

/-! ## One address in all places -/

/-- Writes of `TX_ADDR` and of `gs_tx_addr` store the address of the array. -/
def monitor : Monitor driverSig Unit where
  pre _ o := match (o : Op) with
    | .spiWrite cmd buf =>
        cmd = commandWRegister ||| regTxAddr → buf = nrfTxAddr.toList.reverse
    | .setTxAddr addr => addr = nrfTxAddr
    | .setTxAddrSet value => value = 1
    | _ => True
  may _ _ _ := True
  next _ _ _ := ()

theorem wp_send (buf : List Byte) :
    (send buf false).wp monitor (fun _ _ => True) () := by
  have hne : payloadCommand false ≠ commandWRegister ||| regTxAddr := by decide
  simp [send, checked, failWith, monitor, hne]

theorem wp_basicSend (buf : List Byte) :
    (basicSend nrfTxAddr buf false).wp monitor (fun _ _ => True) () := by
  have hsend := wp_send buf
  simp [basicSend, setActive, setTxAddress, setRxPipe0Address, setAddress, checked, failWith,
    zeroOrOne, monitor, take_defaultAddressLen]
  exact fun _ _ _ _ _ _ => hsend

theorem pre_of_keepsAddress {o : Op} (h : o.keepsAddress = true) : monitor.pre () o := by
  cases o with
  | spiWrite cmd buf =>
      rintro rfl
      simp [Op.keepsAddress] at h
  | setTxAddr _ | setTxAddrSet _ => contradiction
  | _ => trivial

/-- What keeps the addresses does not write another one. -/
theorem wp_of_keepsAddress {α : Type} {p : Driver α} (h : KeepsAddress p) :
    p.wp monitor (fun _ _ => True) () := by
  induction p with
  | pure a => trivial
  | op o k ih =>
      obtain ⟨hpre, hk⟩ := h
      exact ⟨pre_of_keepsAddress hpre, fun r hr => ih r (hk r hr)⟩

/-- The calls of a line are those of its words. -/
theorem lineEvents_eq (text : CStr) : lineEvents text = (executeLine (commandLine text.chars)).1 := by
  have hat : At (text.chars ++ [0#8]) 0 text.chars := List.prefix_rfl
  obtain ⟨cmd, args, line, hparse, -, hcommand⟩ := parseLine_commandLine hat text.nonzero
  rw [lineEvents, hparse, ← hcommand]

/-- **No line changes the address.** -/
theorem keepsAddress_line (text : CStr) : KeepsAddress (performAll (lineEvents text)) := by
  rw [lineEvents_eq]
  exact keepsAddress_performAll fun name argv hcall => length_of_executeLine hcall

/-- The chip and `gs_tx_addr` hold the address of the array. -/
structure Local (s : Radio) : Prop where
  txAddr : s.chip.txAddr = nrfTxAddr.reverse
  gsTxAddr : s.gsTxAddr = nrfTxAddr
  gsTxAddrSet : s.gsTxAddrSet = 1

theorem local_startUp (s : Radio) : Local (startUp s) := by
  have hstart : Configured s.chip.txAddr s.gsTxAddr s.gsTxAddrSet false false
      (s.setHandle ⟨1, 0, true⟩) :=
    ⟨rfl, rfl, rfl, rfl, nofun, nofun⟩
  obtain ⟨-, hend⟩ := achieves_basicInitSteps .tx _ hstart
  rw [← Radio.eval_basicInit] at hend
  unfold startUp
  rw [Radio.eval_basicSetTxAddress hend.inited (hend.setupAw rfl)]
  exact ⟨rfl, rfl, rfl⟩

theorem Local.perform {s : Radio} (h : Local s) {o : Op} (hpre : monitor.pre () o)
    (noise : List Byte) : Local (s.perform o (answer noise)).1 where
  txAddr := by
    by_cases hw : ∃ buf, o = .spiWrite (commandWRegister ||| regTxAddr) buf
    · obtain ⟨buf, rfl⟩ := hw
      rw [hpre rfl, Radio.perform_writeTxAddr]
      rfl
    · rw [s.txAddr_perform _ fun buf hbuf => hw ⟨buf, hbuf⟩]
      exact h.txAddr
  gsTxAddr := by
    by_cases hw : ∃ addr, o = .setTxAddr addr
    · obtain ⟨addr, rfl⟩ := hw
      exact hpre
    · rw [s.gsTxAddr_perform _ fun addr haddr => hw ⟨addr, haddr⟩]
      exact h.gsTxAddr
  gsTxAddrSet := by
    by_cases hw : ∃ value, o = .setTxAddrSet value
    · obtain ⟨value, rfl⟩ := hw
      exact hpre
    · rw [s.gsTxAddrSet_perform _ fun value hvalue => hw ⟨value, hvalue⟩]
      exact h.gsTxAddrSet

/-! ## Whole runs -/

def Inv (c : State) : Prop :=
  ∃ loc, Pool.Follows (fun _ _ => monitor) (fun _ _ _ _ => True) c loc ∧ Local c.shared.radio

theorem inv_start {s : Radio} (h : Local s) (pending : Bool) :
    Inv (Pool.start ⟨s, pending⟩) :=
  ⟨fun _ => none, Pool.follows_start _, h⟩

theorem wp_code (i : Call) : i.code.wp monitor (fun _ _ => True) () := by
  cases i with
  | iteration report =>
      have hsend := wp_basicSend report
      simpa [Call.code] using hsend
  | line text => exact wp_of_keepsAddress (keepsAddress_line text)

theorem inv_step (c : State) (l : Label) (c' : State) (hc : Inv c)
    (h : addressSystem.step c l = some c') : Inv c' := by
  have hok : Unconditional c l := trivial
  refine Pool.step_follows (R := fun w _ => Local w.radio) addressSystem ?_ ?_ ?_ ?_ c l c' hc
    hok h
  · intro c loc t i w' hR _ _ hs
    obtain ⟨-, hs⟩ := Option.ite_none_right_eq_some.mp hs
    obtain rfl := Option.some.inj hs
    exact ⟨(), wp_code i, hR⟩
  · intro c loc t i o k noise l _ hR _ _ hpre _
    exact ⟨trivial, hR.perform hpre noise⟩
  · intro c loc t i r l hR _ _ _ _
    exact hR
  · intro c loc e s' _ hR _ hs
    obtain rfl := Option.some.inj hs
    exact ⟨hR.txAddr, hR.gsTxAddr, hR.gsTxAddrSet⟩

/-- **The configured address takes effect.**  Whatever is typed, every payload
is written under the address that `nrf_addr_get` reports. -/
theorem always_effective (s : Radio) (pending : Bool) (ls : List Label) :
    Along addressSystem.step Effective (start s pending) ls := by
  have hstart : Inv (start s pending) := inv_start (local_startUp s) pending
  refine along_of_invariant inv_step ?_ hstart ls
  rintro c l ⟨-, -, hlocal⟩
  cases l with
  | exec t noise =>
      cases t with
      | tx =>
          intro _
          rw [hlocal.txAddr, hlocal.gsTxAddr, Vector.toList_reverse]
          exact ⟨hlocal.gsTxAddrSet, rfl⟩
      | irq | shell => trivial
  | enter _ _ | leave _ | env _ => trivial

/-- An address that is typed is not counted, and the next report is sent as
before. -/
example :
    (run addressSystem.step (start sampleRadio false)
      ([.enter .shell (.line ⟨ascii "nrf_addr 1 2 3 4 5", by decide⟩), .leave .shell,
        .enter .tx (.iteration [0xAB#8])] ++ List.replicate 14 (.exec .tx []) ++
        [.leave .tx])).isSome = true := by
  rfl

end TxAddress

end DsEthComm.Nrf24l01
