/-!
# Conc.Run

Runs of a labelled transition function `step : σ → ι → Option σ`.  A label
names everything a scheduler or an environment can choose, so a run is a
list of labels and `none` means that the chosen step is not enabled.

Safety of a system is stated about `run`.  A system that is safe only under
a condition on its steps is stated about the runs `Along` which the
condition holds; a condition that is *exactly* what safety needs is stated
as `Always … ↔ Along …`.
-/

namespace Conc

variable {σ ι : Type} {step : σ → ι → Option σ}

/-- The state after a list of labels, if every one of them was enabled. -/
def run (step : σ → ι → Option σ) : σ → List ι → Option σ
  | s, [] => some s
  | s, l :: ls => (step s l).bind fun s' => run step s' ls

/-- Every step of the run meets `ok`, a condition on the state before the
step and its label. -/
def Along (step : σ → ι → Option σ) (ok : σ → ι → Prop) : σ → List ι → Prop
  | _, [] => True
  | s, l :: ls => ok s l ∧ match step s l with
      | some s' => Along step ok s' ls
      | none => True

/-- The condition that every step meets. -/
def Unconditional (_ : σ) (_ : ι) : Prop := True

/-- Every state of the run, the first and the last included, satisfies `P`. -/
def Always (step : σ → ι → Option σ) (P : σ → Prop) : σ → List ι → Prop
  | s, [] => P s
  | s, l :: ls => P s ∧ match step s l with
      | some s' => Always step P s' ls
      | none => True

instance decidableAlong (step : σ → ι → Option σ) (ok : σ → ι → Prop)
    [inst : ∀ s l, Decidable (ok s l)] : ∀ s ls, Decidable (Along step ok s ls)
  | _, [] => .isTrue trivial
  | s, l :: ls =>
      have : Decidable (match step s l with
          | some s' => Along step ok s' ls
          | none => True) :=
        match step s l with
        | some s' => decidableAlong step ok s' ls
        | none => .isTrue trivial
      inferInstanceAs (Decidable (_ ∧ _))

/-! ## Composing runs -/

@[simp] theorem run_nil (s : σ) : run step s [] = some s := rfl

theorem run_cons (s : σ) (l : ι) (ls : List ι) :
    run step s (l :: ls) = (step s l).bind fun s' => run step s' ls := rfl

/-- A run that got past its first step. -/
theorem exists_step_of_run_cons {s s' : σ} {l : ι} {ls : List ι}
    (h : run step s (l :: ls) = some s') :
    ∃ s₁, step s l = some s₁ ∧ run step s₁ ls = some s' :=
  Option.bind_eq_some_iff.mp h

theorem run_cons_of_step {s s' : σ} {l : ι} (h : step s l = some s') (ls : List ι) :
    run step s (l :: ls) = run step s' ls := by
  rw [run_cons, h, Option.bind_some]

theorem run_append (s : σ) (ls ls' : List ι) :
    run step s (ls ++ ls') = (run step s ls).bind fun s' => run step s' ls' := by
  induction ls generalizing s with
  | nil => rfl
  | cons l ls ih =>
      rw [List.cons_append, run_cons, run_cons]
      cases step s l with
      | none => rfl
      | some s' => exact ih s'

/-- A condition on the steps of a run is one on the steps of its end. -/
theorem Along.of_append {ok : σ → ι → Prop} {s s' : σ} {ls ls' : List ι}
    (hA : Along step ok s (ls ++ ls')) (h : run step s ls = some s') : Along step ok s' ls' := by
  induction ls generalizing s with
  | nil =>
      obtain rfl : s = s' := Option.some.inj h
      exact hA
  | cons l ls ih =>
      obtain ⟨-, hA⟩ := hA
      obtain ⟨s₁, hs, h⟩ := exists_step_of_run_cons h
      rw [hs] at hA
      exact ih hA h

/-- What holds throughout a run holds at its end. -/
theorem Always.last {P : σ → Prop} {s s' : σ} {ls : List ι} (hA : Always step P s ls)
    (h : run step s ls = some s') : P s' := by
  induction ls generalizing s with
  | nil =>
      obtain rfl : s = s' := Option.some.inj h
      exact hA
  | cons l ls ih =>
      obtain ⟨-, hA⟩ := hA
      obtain ⟨s₁, hs, h⟩ := exists_step_of_run_cons h
      rw [hs] at hA
      exact ih hA h

/-! ## Invariants -/

/-- What every step allowed by `ok` preserves holds after every run along
which `ok` holds. -/
theorem invariant_along {ok : σ → ι → Prop} {I : σ → Prop}
    (hstep : ∀ s l s', I s → ok s l → step s l = some s' → I s')
    {s s' : σ} {ls : List ι} (h0 : I s) (hok : Along step ok s ls)
    (h : run step s ls = some s') : I s' := by
  induction ls generalizing s with
  | nil =>
      obtain rfl : s = s' := Option.some.inj h
      exact h0
  | cons l ls ih =>
      obtain ⟨hl, hls⟩ := hok
      obtain ⟨s₁, hs, h⟩ := exists_step_of_run_cons h
      rw [hs] at hls
      exact ih (hstep s l s₁ h0 hl hs) hls h

/-- Steps allowed by `ok` that preserve `I` meet whatever `I` and `ok` give. -/
theorem along_of_along {ok Q : σ → ι → Prop} {I : σ → Prop}
    (hstep : ∀ s l s', I s → ok s l → step s l = some s' → I s')
    (hQ : ∀ s l, I s → ok s l → Q s l) {s : σ} {ls : List ι} (h0 : I s)
    (hok : Along step ok s ls) : Along step Q s ls := by
  induction ls generalizing s with
  | nil => trivial
  | cons l ls ih =>
      obtain ⟨hl, hls⟩ := hok
      refine ⟨hQ s l h0 hl, ?_⟩
      cases hs : step s l with
      | none => trivial
      | some s₁ =>
          simp only [hs] at hls
          exact ih (hstep s l s₁ h0 hl hs) hls

/-- What `I` gives holds throughout a run along which `ok` holds. -/
theorem always_of_along {ok : σ → ι → Prop} {I P : σ → Prop}
    (hstep : ∀ s l s', I s → ok s l → step s l = some s' → I s') (hP : ∀ s, I s → P s)
    {s : σ} {ls : List ι} (h0 : I s) (hok : Along step ok s ls) : Always step P s ls := by
  induction ls generalizing s with
  | nil => exact hP s h0
  | cons l ls ih =>
      obtain ⟨hl, hls⟩ := hok
      refine ⟨hP s h0, ?_⟩
      cases hs : step s l with
      | none => trivial
      | some s₁ =>
          simp only [hs] at hls
          exact ih (hstep s l s₁ h0 hl hs) hls

/-- What every step preserves holds after every run. -/
theorem invariant {I : σ → Prop} (hstep : ∀ s l s', I s → step s l = some s' → I s')
    {s s' : σ} {ls : List ι} (h0 : I s) (h : run step s ls = some s') : I s' := by
  induction ls generalizing s with
  | nil =>
      obtain rfl : s = s' := Option.some.inj h
      exact h0
  | cons l ls ih =>
      obtain ⟨s₁, hs, h⟩ := exists_step_of_run_cons h
      exact ih (hstep s l s₁ h0 hs) h

/-- Every step of every run meets what the invariant gives. -/
theorem along_of_invariant {I : σ → Prop} {Q : σ → ι → Prop}
    (hstep : ∀ s l s', I s → step s l = some s' → I s') (hQ : ∀ s l, I s → Q s l)
    {s : σ} (h0 : I s) (ls : List ι) : Along step Q s ls := by
  induction ls generalizing s with
  | nil => trivial
  | cons l ls ih =>
      refine ⟨hQ s l h0, ?_⟩
      cases hs : step s l with
      | none => trivial
      | some s' => exact ih (hstep s l s' h0 hs)

/-- **Exactness**: if, in the states a run can reach while `P` holds (`J`),
a step keeps `P` exactly when it meets `ok`, then `P` holds throughout a
run exactly when every step of it meets `ok`. -/
theorem always_iff_along {ok : σ → ι → Prop} {P J : σ → Prop}
    (hJ : ∀ s l s', J s → P s → step s l = some s' → P s' → J s')
    (hen : ∀ s l, ∃ s', step s l = some s')
    (hex : ∀ s l s', J s → P s → step s l = some s' → (P s' ↔ ok s l))
    {s : σ} (h0 : J s) (hP : P s) (ls : List ι) :
    Always step P s ls ↔ Along step ok s ls := by
  induction ls generalizing s with
  | nil => exact ⟨fun _ => trivial, fun _ => hP⟩
  | cons l ls ih =>
      obtain ⟨s₁, hs⟩ := hen s l
      have hiff := hex s l s₁ h0 hP hs
      simp only [Always, Along, hs]
      constructor
      · rintro ⟨-, hA⟩
        have hP₁ : P s₁ := by
          cases ls with
          | nil => exact hA
          | cons _ _ => exact hA.1
        exact ⟨hiff.mp hP₁, (ih (hJ s l s₁ h0 hP hs hP₁) hP₁).mp hA⟩
      · rintro ⟨hok, hA⟩
        have hP₁ := hiff.mpr hok
        exact ⟨hP, (ih (hJ s l s₁ h0 hP hs hP₁) hP₁).mpr hA⟩

end Conc
