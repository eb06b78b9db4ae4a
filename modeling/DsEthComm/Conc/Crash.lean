import DsEthComm.Conc.Prog

/-!
# Conc.Crash

Programs on a device that can stop at any moment.  A `Device` says of each
operation what it may leave and answer when it is over, and what it may leave
when it is cut short itself.

`Safe` checks a program against two conditions: one that holds wherever the
program is cut short, and one that holds where it ends.
-/

namespace Conc

/-- What the operations do to a state that outlives the program. -/
structure Device (S : Sig) (σ : Type) where
  /-- An operation that is over. -/
  Step : σ → (o : S.Op) → σ → S.Res o → Prop
  /-- An operation that is cut short. -/
  Torn : σ → S.Op → σ → Prop

namespace Device

variable {S : Sig} {σ α β : Type}

/-- A program runs to its end. -/
inductive Ends (D : Device S σ) : Prog S α → σ → σ → α → Prop where
  | pure (a : α) (s : σ) : Ends D (.pure a) s s a
  | op {o : S.Op} {k : S.Res o → Prog S α} {s t s' : σ} {r : S.Res o} {a : α} :
      D.Step s o t r → Ends D (k r) t s' a → Ends D (.op o k) s s' a

/-- A program is cut short: before an operation, in one, or behind the
last. -/
inductive Crash (D : Device S σ) : Prog S α → σ → σ → Prop where
  | here (p : Prog S α) (s : σ) : Crash D p s s
  | torn {o : S.Op} {k : S.Res o → Prog S α} {s s' : σ} : D.Torn s o s' → Crash D (.op o k) s s'
  | op {o : S.Op} {k : S.Res o → Prog S α} {s t s' : σ} {r : S.Res o} :
      D.Step s o t r → Crash D (k r) t s' → Crash D (.op o k) s s'

/-- Wherever the program is cut short, `C` holds, and where it ends, `Q`
does. -/
def Safe (D : Device S σ) (C : σ → Prop) (Q : α → σ → Prop) : Prog S α → σ → Prop
  | .pure a, s => C s ∧ Q a s
  | .op o k, s =>
      C s ∧ (∀ s', D.Torn s o s' → C s') ∧ ∀ s' r, D.Step s o s' r → Safe D C Q (k r) s'

variable {D : Device S σ} {C C' : σ → Prop} {Q : α → σ → Prop} {p : Prog S α} {s s' : σ}

/-- The end is one of the moments at which a program can be cut short. -/
theorem Ends.crash {a : α} (h : D.Ends p s s' a) : D.Crash p s s' := by
  induction h with
  | pure a s => exact .here (.pure a) s
  | op hstep _ ih => exact .op hstep ih

/-! ## What it says -/

theorem Safe.now (h : D.Safe C Q p s) : C s := by
  cases p with
  | pure a => exact h.1
  | op o k => exact h.1

/-- Cut short, a safe program has left `C`. -/
theorem Safe.of_crash (h : D.Safe C Q p s) (hcrash : D.Crash p s s') : C s' := by
  induction hcrash with
  | here p s => exact h.now
  | torn htorn => exact h.2.1 _ htorn
  | op hstep _ ih => exact ih (h.2.2 _ _ hstep)

/-- A safe program that ends has left `Q`. -/
theorem Safe.of_ends {a : α} (h : D.Safe C Q p s) (hends : D.Ends p s s' a) : Q a s' := by
  induction hends with
  | pure a s => exact h.2
  | op hstep _ ih => exact ih (h.2.2 _ _ hstep)

/-! ## Its rules -/

theorem Safe.mono {Q' : α → σ → Prop} (h : D.Safe C Q p s) (hC : ∀ t, C t → C' t)
    (hQ : ∀ a t, Q a t → Q' a t) : D.Safe C' Q' p s := by
  induction p generalizing s with
  | pure a => exact ⟨hC s h.1, hQ a s h.2⟩
  | op o k ih =>
      exact ⟨hC s h.1, fun t ht => hC t (h.2.1 t ht), fun t r hstep => ih r (h.2.2 t r hstep)⟩

/-- One program after another. -/
theorem Safe.bind {Q' : β → σ → Prop} {f : α → Prog S β} (h : D.Safe C Q p s)
    (hC : ∀ t, C t → C' t) (hf : ∀ a t, Q a t → D.Safe C' Q' (f a) t) :
    D.Safe C' Q' (p.bind f) s := by
  induction p generalizing s with
  | pure a => exact hf a s h.2
  | op o k ih =>
      exact ⟨hC s h.1, fun t ht => hC t (h.2.1 t ht), fun t r hstep => ih r (h.2.2 t r hstep)⟩

/-- One operation. -/
theorem safe_call {o : S.Op} {Q : S.Res o → σ → Prop} (hnow : C s) (htorn : ∀ t, D.Torn s o t → C t)
    (hstep : ∀ t r, D.Step s o t r → C t ∧ Q r t) : D.Safe C Q (.call o) s :=
  ⟨hnow, htorn, hstep⟩

end Device

end Conc
