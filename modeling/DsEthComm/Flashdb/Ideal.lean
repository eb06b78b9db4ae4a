import Mathlib.Data.List.GetD
import DsEthComm.Flashdb.Port

/-!
# DsEthComm.Flashdb.Ideal

The flash driver of the port over a transport that takes transactions of any
length and does not fail: what the array holds after each operation, and how
long an erase or a program may take for the driver to see its end.

Programming a page clears bits, so a write without erase is a `burn` of its
data, page by page, and what is reached in between is the `burn` of a prefix.
-/

namespace DsEthComm.Flashdb

open Conc W25qxx

/-- The handle of the port, linked to a transport that takes any length. -/
def idealHandle : Handle := { portHandle with spiQspiWriteRead := .ideal }

/-- Every exchange succeeds.  The noise on the line and the time of each erase
and program are left open. -/
def ideal (noise : Nat → Nat → Byte) (time : Nat → Nat) : Schedule :=
  fun i => ⟨true, noise i, time i⟩

/-- A property of the array after each operation. -/
def onMem (env : Schedule) (Q : (Nat → Byte) → Prop) (s : Bus) (o : Op) : Prop :=
  Q (s.perform env o).1.chip.mem

/-- An erase ends while `a_w25qxx_erase_sector` polls, and a program while
`a_w25qxx_page_program` does. -/
def Prompt (env : Schedule) (s : Bus) (o : Op) : Prop :=
  match o with
  | .exchange (cmd :: _) _ =>
      (cmd = commandSectorErase4k → (env s.count).time ≤ 1000 * (erase4kTimeoutMs - 1)) ∧
        (cmd = commandPageProgram → (env s.count).time ≤ 10 * (pageProgramTimeoutMs * 100 - 1))
  | _ => True

section Spec

variable {noise : Nat → Nat → Byte} {time : Nat → Nat} {R : Bus → Op → Prop}
  {Q : (Nat → Byte) → Prop} {s : Bus}

/-- A transaction of any length is one exchange. -/
theorem evalAt_attempt_ideal {α : Type} (env : Schedule) (s : Bus) (header data : List Byte)
    (outLen : Nat) (failed : String) (res : α) (k : List Byte → Driver α) :
    evalAt env (attempt (writeRead idealHandle header data outLen) failed res k) s =
      evalAt env (k (s.exchange env (header ++ data) outLen).2)
        (s.exchange env (header ++ data) outLen).1 := rfl

theorem alongAt_attempt_ideal {α : Type} (env : Schedule) (s : Bus) (header data : List Byte)
    (outLen : Nat) (failed : String) (res : α) (k : List Byte → Driver α) :
    alongAt env R (attempt (writeRead idealHandle header data outLen) failed res k) s ↔
      R s (.exchange (header ++ data) outLen) ∧
        alongAt env R (k (s.exchange env (header ++ data) outLen).2)
          (s.exchange env (header ++ data) outLen).1 := Iff.rfl

/-- An exchange that succeeds. -/
theorem exchange_ideal (s : Bus) (inBuf : List Byte) (outLen : Nat) :
    s.exchange (ideal noise time) inBuf outLen =
      (⟨s.chip.receive (time s.count) (inBuf ++ List.replicate outLen 0x00#8), s.count + 1⟩,
        slice (s.chip.answer (noise s.count) (inBuf ++ List.replicate outLen 0x00#8))
          inBuf.length outLen) := rfl

/-! ## Waiting -/

/-- A program that lets time pass. -/
structure Pauses (pause : Driver Unit) (us : Nat) : Prop where
  eval : ∀ env s, evalAt env pause s = ({ s with chip := s.chip.tick us }, ())
  along : ∀ env (Q : (Nat → Byte) → Prop) s, Q s.chip.mem → alongAt env (onMem env Q) pause s

theorem pauses_delayMs (ms : Nat) : Pauses (delayMs ms) (1000 * ms) :=
  ⟨fun _ _ => rfl, fun _ _ _ h => ⟨h, trivial⟩⟩

theorem pauses_delayUs (us : Nat) : Pauses (delayUs us) us :=
  ⟨fun _ _ => rfl, fun _ _ _ h => ⟨h, trivial⟩⟩

/-- A poll reads the status of the chip. -/
theorem exchange_readStatus (s : Bus) :
    s.exchange (ideal noise time) [commandReadStatusReg1] 1 =
      (⟨s.chip, s.count + 1⟩, [s.chip.status]) := by
  rw [exchange_ideal]
  simp [Chip.receive_readStatus, Chip.answer, slice]

theorem status_and_one (c : Chip) : c.status &&& 0x01#8 = 0x00#8 ↔ c.busy = 0 := by
  unfold Chip.status
  by_cases h : c.busy = 0 <;> cases c.wel <;> simp [h]

variable (statusFailed timedOut : String) {timeoutRes : Byte} {pause : Driver Unit} {us : Nat}

/-- Waiting leaves the array alone, and ends well only if the chip is done. -/
theorem evalAt_waitIdle (noise : Nat → Nat → Byte) (time : Nat → Nat) (hpause : Pauses pause us)
    (hres : timeoutRes ≠ 0) (n : Nat) (s : Bus) :
    let x := evalAt (ideal noise time)
      (waitIdle idealHandle statusFailed timedOut timeoutRes pause n) s
    x.1.chip.mem = s.chip.mem ∧ (x.2 = 0 → x.1.chip.busy = 0) ∧
      (0 < n → s.chip.busy ≤ us * (n - 1) → x.2 = 0) := by
  induction n generalizing s with
  | zero => exact ⟨rfl, fun h => absurd h hres, fun h => absurd h (Nat.lt_irrefl 0)⟩
  | succ n ih =>
      rw [waitIdle, evalAt_attempt_ideal, List.append_nil, exchange_readStatus, evalAt_ite,
        List.headD_cons]
      by_cases hbusy : s.chip.busy = 0
      · rw [if_pos ((status_and_one _).mpr hbusy)]
        exact ⟨rfl, fun _ => hbusy, fun _ _ => rfl⟩
      · rw [if_neg fun h => hbusy ((status_and_one _).mp h), Prog.bind_eq, evalAt_bind, hpause.eval]
        obtain ⟨hmem, hzero, hprompt⟩ := ih ⟨s.chip.tick us, s.count + 1⟩
        refine ⟨hmem, hzero, fun _ hle => ?_⟩
        cases n with
        | zero => exact absurd (Nat.le_zero.mp hle) hbusy
        | succ n =>
            refine hprompt (Nat.succ_pos n) ?_
            show s.chip.busy - us ≤ us * n
            rw [Nat.add_sub_cancel, Nat.mul_succ] at hle
            omega

theorem alongAt_waitIdle (hpause : Pauses pause us) (n : Nat) (s : Bus) (h : Q s.chip.mem) :
    alongAt (ideal noise time) (onMem (ideal noise time) Q)
      (waitIdle idealHandle statusFailed timedOut timeoutRes pause n) s := by
  induction n generalizing s with
  | zero => exact ⟨h, trivial⟩
  | succ n ih =>
      rw [waitIdle, alongAt_attempt_ideal, List.append_nil, alongAt_ite]
      have hpoll : onMem (ideal noise time) Q s (.exchange [commandReadStatusReg1] 1) := by
        show Q (s.exchange (ideal noise time) [commandReadStatusReg1] 1).1.chip.mem
        rw [exchange_readStatus]
        exact h
      refine ⟨hpoll, ?_⟩
      rw [exchange_readStatus]
      split
      · trivial
      · rw [Prog.bind_eq, alongAt_bind, hpause.eval]
        exact ⟨hpause.along _ Q _ h, ih _ h⟩

/-! ## Erase and program -/

/-- The bus after the write enable. -/
def enabled (s : Bus) : Bus := ⟨{ s.chip with wel := true }, s.count + 1⟩

theorem exchange_enable (h : s.chip.busy = 0) :
    (s.exchange (ideal noise time) [commandWriteEnable] 0).1 = enabled s := by
  rw [exchange_ideal]
  simp [Chip.receive_writeEnable, enabled, h]

/-- The bus after a command that changes the array. -/
def taken (time : Nat → Nat) (s : Bus) (mem : Nat → Byte) : Bus :=
  ⟨⟨mem, false, time (s.count + 1)⟩, s.count + 2⟩

theorem exchange_erase (h : s.chip.busy = 0) {addr : Nat} (haddr : addr < flashSize) :
    ((enabled s).exchange (ideal noise time) (commandSectorErase4k :: addressBytes addr) 0).1 =
      taken time s (eraseSector s.chip.mem addr) := by
  have hdecode := address_ofNat haddr
  rw [exchange_ideal]
  simp [addressBytes, Chip.receive_sectorErase4k, enabled, taken, h, hdecode]

theorem exchange_program (h : s.chip.busy = 0) {addr : Nat} (haddr : addr < flashSize)
    (data : List Byte) :
    ((enabled s).exchange (ideal noise time)
      (commandPageProgram :: addressBytes addr ++ data) 0).1 =
      taken time s (programPage s.chip.mem addr data) := by
  have hdecode := address_ofNat haddr
  have hwren : commandPageProgram ≠ commandWriteEnable := by decide
  have herase : commandPageProgram ≠ commandSectorErase4k := by decide
  rw [exchange_ideal]
  simp [addressBytes, Chip.receive, enabled, taken, h, hdecode, hwren, herase]

variable (invalidMode : Byte) {cmd : Byte} {addr : Nat} {data : List Byte} {failed : String}
  {wait : Driver Byte} {mem : Nat → Byte}

/-- A command on the array is two exchanges and the wait. -/
theorem evalAt_arrayCommand (h : s.chip.busy = 0)
    (htaken : ((enabled s).exchange (ideal noise time) (cmd :: addressBytes addr ++ data) 0).1 =
      taken time s mem) :
    evalAt (ideal noise time) (arrayCommand invalidMode idealHandle cmd addr data failed wait) s =
      evalAt (ideal noise time) wait (taken time s mem) := by
  have hrun : evalAt (ideal noise time)
      (arrayCommand invalidMode idealHandle cmd addr data failed wait) s =
        evalAt (ideal noise time) wait
          ((s.exchange (ideal noise time) [commandWriteEnable] 0).1.exchange (ideal noise time)
            (cmd :: addressBytes addr ++ data) 0).1 := rfl
  rw [hrun, exchange_enable h, htaken]

theorem alongAt_arrayCommand (h : s.chip.busy = 0)
    (htaken : ((enabled s).exchange (ideal noise time) (cmd :: addressBytes addr ++ data) 0).1 =
      taken time s mem) :
    alongAt (ideal noise time) R
        (arrayCommand invalidMode idealHandle cmd addr data failed wait) s ↔
      R s (.exchange [commandWriteEnable] 0) ∧
        R (enabled s) (.exchange (cmd :: addressBytes addr ++ data) 0) ∧
        alongAt (ideal noise time) R wait (taken time s mem) := by
  have hrun : alongAt (ideal noise time) R
      (arrayCommand invalidMode idealHandle cmd addr data failed wait) s ↔
        R s (.exchange [commandWriteEnable] 0) ∧
          R (s.exchange (ideal noise time) [commandWriteEnable] 0).1
            (.exchange (cmd :: addressBytes addr ++ data) 0) ∧
          alongAt (ideal noise time) R wait
            ((s.exchange (ideal noise time) [commandWriteEnable] 0).1.exchange (ideal noise time)
              (cmd :: addressBytes addr ++ data) 0).1 := Iff.rfl
  rw [hrun, exchange_enable h, htaken]

/-- A program that changes the array once, and returns 0 only when the chip is
done. -/
structure Changes (noise : Nat → Nat → Byte) (time : Nat → Nat) (p : Driver Byte) (s : Bus)
    (mem : Nat → Byte) : Prop where
  final : (evalAt (ideal noise time) p s).1.chip.mem = mem
  idle : (evalAt (ideal noise time) p s).2 = 0 →
    (evalAt (ideal noise time) p s).1.chip.busy = 0
  prompt : alongAt (ideal noise time) (Prompt (ideal noise time)) p s →
    (evalAt (ideal noise time) p s).2 = 0
  along : ∀ Q, alongAt (ideal noise time) (onMem (ideal noise time) Q) p s ↔ Q s.chip.mem ∧ Q mem

theorem onMem_enable (h : s.chip.busy = 0) :
    onMem (ideal noise time) Q s (.exchange [commandWriteEnable] 0) ↔ Q s.chip.mem := by
  show Q (s.exchange (ideal noise time) [commandWriteEnable] 0).1.chip.mem ↔ _
  rw [exchange_enable h]
  rfl

/-- A command on the array that waits for its end. -/
theorem changes_arrayCommand {n : Nat} (h : s.chip.busy = 0) (hpause : Pauses pause us)
    (hres : timeoutRes ≠ 0) (hn : 0 < n)
    (htaken : ((enabled s).exchange (ideal noise time) (cmd :: addressBytes addr ++ data) 0).1 =
      taken time s mem)
    (hprompt : Prompt (ideal noise time) (enabled s)
        (.exchange (cmd :: addressBytes addr ++ data) 0) → time (s.count + 1) ≤ us * (n - 1)) :
    Changes noise time (arrayCommand invalidMode idealHandle cmd addr data failed
      (waitIdle idealHandle statusFailed timedOut timeoutRes pause n)) s mem := by
  obtain ⟨hmem, hidle, hwait⟩ := evalAt_waitIdle statusFailed timedOut noise time hpause hres n
    (taken time s mem)
  refine ⟨?_, ?_, ?_, fun Q => ?_⟩
  · rw [evalAt_arrayCommand _ h htaken]
    exact hmem
  · rw [evalAt_arrayCommand _ h htaken]
    exact hidle
  · rw [evalAt_arrayCommand _ h htaken, alongAt_arrayCommand _ h htaken]
    exact fun hall => hwait hn (hprompt hall.2.1)
  · have hcommand : onMem (ideal noise time) Q (enabled s)
        (.exchange (cmd :: addressBytes addr ++ data) 0) ↔ Q mem := by
      show Q ((enabled s).exchange (ideal noise time)
        (cmd :: addressBytes addr ++ data) 0).1.chip.mem ↔ _
      rw [htaken]
      rfl
    rw [alongAt_arrayCommand _ h htaken, onMem_enable h, hcommand]
    refine and_congr_right fun _ => and_iff_left_of_imp fun hQ => ?_
    exact alongAt_waitIdle statusFailed timedOut hpause n _ hQ

theorem changes_aEraseSector (h : s.chip.busy = 0) {addr : Nat} (haddr : addr < flashSize) :
    Changes noise time (aEraseSector idealHandle addr) s (eraseSector s.chip.mem addr) := by
  refine changes_arrayCommand _ _ 1 h (pauses_delayMs 1) (by decide) (by decide) ?_
    fun hprompt => ?_
  · rw [List.append_nil]
    exact exchange_erase h haddr
  · exact hprompt.1 rfl

theorem changes_aPageProgram (h : s.chip.busy = 0) {addr : Nat} (haddr : addr < flashSize)
    (data : List Byte) :
    Changes noise time (aPageProgram idealHandle addr data) s
      (programPage s.chip.mem addr data) := by
  refine changes_arrayCommand _ _ 1 h (pauses_delayUs 10) (by decide) (by decide)
    (exchange_program h haddr data) fun hprompt => ?_
  exact hprompt.2 rfl

/-! ## Pages -/

/-- Clear the bits of some data from an address on. -/
def burn (mem : Nat → Byte) (addr : Nat) (data : List Byte) : Nat → Byte :=
  fun x => if addr ≤ x then mem x &&& data.getD (x - addr) 0xFF#8 else mem x

theorem and_erased (b : Byte) : b &&& 0xFF#8 = b := by
  revert b
  decide

/-- Outside the data nothing changes. -/
theorem burn_outside (mem : Nat → Byte) {addr x : Nat} {data : List Byte}
    (h : ¬(addr ≤ x ∧ x < addr + data.length)) : burn mem addr data x = mem x := by
  unfold burn
  split
  · next hle =>
    have hlen : data.length ≤ x - addr := by omega
    rw [List.getD_eq_default _ _ hlen, and_erased]
  · rfl

/-- A page takes what does not go over its end. -/
theorem programPage_eq_burn (mem : Nat → Byte) {addr : Nat} {data : List Byte}
    (h : addr % 256 + data.length ≤ 256) : programPage mem addr data = burn mem addr data := by
  funext x
  unfold programPage
  split
  · next hpage =>
    unfold burn
    split
    · next hle =>
      have hindex : (x % 256 + 256 - addr % 256) % 256 = x - addr := by omega
      rw [hindex]
    · next hlt =>
      have hindex : data.length ≤ (x % 256 + 256 - addr % 256) % 256 := by omega
      rw [List.getD_eq_default _ _ hindex, and_erased]
  · next hpage => exact (burn_outside mem (by omega)).symm

theorem burn_append (mem : Nat → Byte) (addr : Nat) (d₁ d₂ : List Byte) :
    burn (burn mem addr d₁) (addr + d₁.length) d₂ = burn mem addr (d₁ ++ d₂) := by
  funext x
  by_cases hle : addr ≤ x
  · by_cases hlater : addr + d₁.length ≤ x
    · have hindex : x - addr - d₁.length = x - (addr + d₁.length) := by omega
      simp only [burn, if_pos hle, if_pos hlater, List.getD_append_right _ _ _ _
        (by omega : d₁.length ≤ x - addr), hindex]
      rw [List.getD_eq_default d₁ _ (by omega), and_erased]
    · simp only [burn, if_pos hle, if_neg hlater, List.getD_append _ _ _ _
        (by omega : x - addr < d₁.length)]
  · have hlater : ¬addr + d₁.length ≤ x := by omega
    simp only [burn, if_neg hle, if_neg hlater]

theorem burn_nil (mem : Nat → Byte) (addr : Nat) : burn mem addr [] = mem := by
  funext x
  exact burn_outside mem (by simp)

/-- A program that burns some data, a part of it after the other, and returns
0 only when the chip is done. -/
structure Burns (noise : Nat → Nat → Byte) (time : Nat → Nat) (p : Driver Byte) (s : Bus)
    (addr : Nat) (data : List Byte) : Prop where
  done : (evalAt (ideal noise time) p s).2 = 0 →
    (evalAt (ideal noise time) p s).1.chip.mem = burn s.chip.mem addr data ∧
      (evalAt (ideal noise time) p s).1.chip.busy = 0
  reached : ∃ k, (evalAt (ideal noise time) p s).1.chip.mem = burn s.chip.mem addr (data.take k)
  prompt : alongAt (ideal noise time) (Prompt (ideal noise time)) p s →
    (evalAt (ideal noise time) p s).2 = 0
  along : ∀ Q, (∀ k, Q (burn s.chip.mem addr (data.take k))) →
    alongAt (ideal noise time) (onMem (ideal noise time) Q) p s

/-- One page. -/
theorem burns_aPageProgram (h : s.chip.busy = 0) {addr : Nat} {data : List Byte}
    (haddr : addr < flashSize) (hpage : addr % 256 + data.length ≤ 256) :
    Burns noise time (aPageProgram idealHandle addr data) s addr data := by
  have hc : Changes noise time _ s _ := changes_aPageProgram h haddr data
  rw [programPage_eq_burn _ hpage] at hc
  refine ⟨fun hzero => ⟨hc.final, hc.idle hzero⟩, ⟨data.length, ?_⟩, hc.prompt,
    fun Q hQ => (hc.along Q).mpr ⟨?_, ?_⟩⟩
  · rw [List.take_length]
    exact hc.final
  · have hnone := hQ 0
    rwa [List.take_zero, burn_nil] at hnone
  · have hall := hQ data.length
    rwa [List.take_length] at hall

theorem burns_done (h : s.chip.busy = 0) (addr : Nat) :
    Burns noise time (.pure 0) s addr [] := by
  refine ⟨fun _ => ⟨?_, h⟩, ⟨0, ?_⟩, fun _ => rfl, fun _ _ => trivial⟩ <;>
    simp [burn_nil]

/-- The data of a prefix is a prefix of the data. -/
theorem take_prefix (d₁ d₂ : List Byte) (k : Nat) :
    (d₁ ++ d₂).take (min k d₁.length) = d₁.take k := by
  rw [List.take_append_of_le_length (Nat.min_le_right ..), List.take_eq_take_iff]
  omega

/-- One part of the data after another. -/
theorem Burns.step {p k : Driver Byte} {addr : Nat} {d₁ d₂ : List Byte}
    (hp : Burns noise time p s addr d₁) (failed : String)
    (hk : ∀ s' : Bus, s'.chip.busy = 0 → Burns noise time k s' (addr + d₁.length) d₂) :
    Burns noise time (p.bind fun res =>
      if res ≠ 0 then (debugPrint failed).bind fun _ => .pure 1 else k) s addr (d₁ ++ d₂) := by
  have hpart : ∀ Q : (Nat → Byte) → Prop, (∀ i, Q (burn s.chip.mem addr ((d₁ ++ d₂).take i))) →
      ∀ i, Q (burn s.chip.mem addr (d₁.take i)) := by
    intro Q hQ i
    rw [← take_prefix d₁ d₂ i]
    exact hQ _
  by_cases hzero : (evalAt (ideal noise time) p s).2 = 0
  · -- the first part is done, and the second follows
    obtain ⟨hmem, hbusy⟩ := hp.done hzero
    have hrest := hk _ hbusy
    have hburn : ∀ d, burn (evalAt (ideal noise time) p s).1.chip.mem (addr + d₁.length) d =
        burn s.chip.mem addr (d₁ ++ d) := fun d => by rw [hmem, burn_append]
    refine ⟨?_, ?_, ?_, ?_⟩
    · rw [evalAt_bind, if_neg (not_not_intro hzero), ← hburn]
      exact hrest.done
    · obtain ⟨i, hi⟩ := hrest.reached
      refine ⟨d₁.length + i, ?_⟩
      rw [evalAt_bind, if_neg (not_not_intro hzero), hi, hburn, List.take_length_add_append]
    · rw [evalAt_bind, alongAt_bind, if_neg (not_not_intro hzero)]
      exact fun hall => hrest.prompt hall.2
    · intro Q hQ
      rw [alongAt_bind, if_neg (not_not_intro hzero)]
      refine ⟨hp.along Q (hpart Q hQ), hrest.along Q fun i => ?_⟩
      rw [hburn, ← List.take_length_add_append]
      exact hQ _
  · -- the first part failed, and a message ends the program
    obtain ⟨i, hi⟩ := hp.reached
    refine ⟨?_, ⟨min i d₁.length, ?_⟩, ?_, ?_⟩
    · rw [evalAt_bind, if_pos hzero]
      exact fun (hone : (1 : Byte) = 0) => absurd hone (by decide)
    · rw [evalAt_bind, if_pos hzero, take_prefix]
      exact hi
    · rw [alongAt_bind]
      exact fun hall => absurd (hp.prompt hall.1) hzero
    · intro Q hQ
      rw [alongAt_bind, if_pos hzero]
      refine ⟨hp.along Q (hpart Q hQ), ?_, trivial⟩
      show Q (evalAt (ideal noise time) p s).1.chip.mem
      rw [hi]
      exact hpart Q hQ i

/-- `a_w25qxx_write_no_check` from a page on. -/
theorem burns_writeNoCheckLoop {addr : Nat} {data : List Byte} {pageRemain : Nat}
    (h : s.chip.busy = 0) (hpos : 0 < pageRemain) (hle : pageRemain ≤ data.length)
    (hpage : addr % 256 + pageRemain ≤ 256)
    (hfull : pageRemain < data.length → addr % 256 + pageRemain = 256)
    (hend : addr + data.length ≤ flashSize) :
    Burns noise time (writeNoCheckLoop idealHandle addr data pageRemain) s addr data := by
  induction hn : data.length using Nat.strongRecOn generalizing addr data pageRemain s with
  | _ n ih =>
      have hchunk : (data.take pageRemain).length = pageRemain := by
        rw [List.length_take, Nat.min_eq_left hle]
      have hp : Burns noise time (aPageProgram idealHandle addr (data.take pageRemain)) s addr
          (data.take pageRemain) :=
        burns_aPageProgram h (by omega) (by rw [hchunk]; exact hpage)
      rw [writeNoCheckLoop]
      by_cases hlast : data.length ≤ pageRemain
      · have hall : data.take pageRemain ++ [] = data := by
          rw [List.append_nil, List.take_of_length_le hlast]
        have hstep := hp.step "w25qxx: page program failed.\n" fun s' hs' =>
          burns_done hs' (addr + (data.take pageRemain).length)
        rw [hall] at hstep
        simp only [hlast, true_or, if_true]
        exact hstep
      · have hfull := hfull (Nat.not_le.mp hlast)
        have hrest : (data.drop pageRemain).length = data.length - pageRemain := List.length_drop
        have hnext : ∀ s' : Bus, s'.chip.busy = 0 →
            Burns noise time (writeNoCheckLoop idealHandle (addr + pageRemain)
              (data.drop pageRemain) (if (data.drop pageRemain).length > 256 then 256
                else (data.drop pageRemain).length)) s'
              (addr + (data.take pageRemain).length) (data.drop pageRemain) := by
          intro s' hs'
          rw [hchunk]
          refine ih _ (by omega) hs' ?_ ?_ ?_ ?_ (by omega) rfl
          all_goals split <;> omega
        have hstep := hp.step "w25qxx: page program failed.\n" hnext
        rw [List.take_append_drop] at hstep
        simp only [hlast, Nat.ne_of_gt hpos, or_self, if_false]
        exact hstep

/-- `a_w25qxx_write_no_check`. -/
theorem burns_aWriteNoCheck {addr : Nat} {data : List Byte} (h : s.chip.busy = 0)
    (hpos : 0 < data.length) (hend : addr + data.length ≤ flashSize) :
    Burns noise time (aWriteNoCheck idealHandle addr data) s addr data := by
  rw [aWriteNoCheck]
  refine burns_writeNoCheckLoop h ?_ ?_ ?_ ?_ hend
  all_goals split <;> omega

end Spec

end DsEthComm.Flashdb
