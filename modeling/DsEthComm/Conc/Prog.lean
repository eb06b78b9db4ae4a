/-!
# Conc.Prog

Straight-line code as a tree of operations.  A program of signature `S`
either returns or performs one operation and goes on with its answer, so
the operations are exactly the points at which other threads can run.

Two readings of a program:

* `eval` runs it alone on a state, given what each operation does;
* `wp` checks it against a `Monitor`, which follows the operations of one
  thread in a private state and says which are allowed and which answers
  they can get.  The other threads appear only through the answers.
-/

namespace Conc

/-- Operations and the type of answer of each. -/
structure Sig where
  Op : Type
  Res : Op → Type

/-- A program: return, or perform an operation and continue. -/
inductive Prog (S : Sig) (α : Type) where
  | pure (a : α)
  | op (o : S.Op) (k : S.Res o → Prog S α)

namespace Prog

variable {S : Sig} {α β σ L : Type}

def bind : Prog S α → (α → Prog S β) → Prog S β
  | .pure a, f => f a
  | .op o k, f => .op o fun r => (k r).bind f

instance : Monad (Prog S) where
  pure := .pure
  bind := .bind

/-- Perform one operation. -/
def call (o : S.Op) : Prog S (S.Res o) := .op o .pure

@[simp] theorem pure_bind (a : α) (f : α → Prog S β) : (Prog.pure a).bind f = f a := rfl

@[simp] theorem op_bind (o : S.Op) (k : S.Res o → Prog S α) (f : α → Prog S β) :
    (Prog.op o k).bind f = .op o fun r => (k r).bind f := rfl

@[simp] theorem pure_eq (a : α) : (Pure.pure a : Prog S α) = .pure a := rfl

@[simp] theorem bind_eq (p : Prog S α) (f : α → Prog S β) : p >>= f = p.bind f := rfl

/-! ## Running alone -/

/-- Run a program on a state. -/
def eval (perform : σ → (o : S.Op) → σ × S.Res o) : Prog S α → σ → σ × α
  | .pure a, s => (s, a)
  | .op o k, s => (k (perform s o).2).eval perform (perform s o).1

variable {perform : σ → (o : S.Op) → σ × S.Res o}

@[simp] theorem eval_pure (a : α) (s : σ) : (Prog.pure a).eval perform s = (s, a) := rfl

@[simp] theorem eval_op (o : S.Op) (k : S.Res o → Prog S α) (s : σ) :
    (Prog.op o k).eval perform s = (k (perform s o).2).eval perform (perform s o).1 := rfl

@[simp] theorem eval_bind (p : Prog S α) (f : α → Prog S β) (s : σ) :
    (p.bind f).eval perform s = (f (p.eval perform s).2).eval perform (p.eval perform s).1 := by
  induction p generalizing s with
  | pure a => rfl
  | op o k ih => simp only [op_bind, eval_op, ih]

/-- The operations a program performs, in their order. -/
def trace (perform : σ → (o : S.Op) → σ × S.Res o) : Prog S α → σ → List S.Op
  | .pure _, _ => []
  | .op o k, s => o :: (k (perform s o).2).trace perform (perform s o).1

@[simp] theorem trace_pure (a : α) (s : σ) : (Prog.pure a).trace perform s = [] := rfl

@[simp] theorem trace_op (o : S.Op) (k : S.Res o → Prog S α) (s : σ) :
    (Prog.op o k).trace perform s = o :: (k (perform s o).2).trace perform (perform s o).1 := rfl

@[simp] theorem trace_bind (p : Prog S α) (f : α → Prog S β) (s : σ) :
    (p.bind f).trace perform s =
      p.trace perform s ++ (f (p.eval perform s).2).trace perform (p.eval perform s).1 := by
  induction p generalizing s with
  | pure a => rfl
  | op o k ih => simp only [op_bind, trace_op, eval_op, ih, List.cons_append]

/-- A property of each operation of a run, in the state in which it is
performed. -/
def along (perform : σ → (o : S.Op) → σ × S.Res o) (R : σ → S.Op → Prop) : Prog S α → σ → Prop
  | .pure _, _ => True
  | .op o k, s => R s o ∧ (k (perform s o).2).along perform R (perform s o).1

variable {R : σ → S.Op → Prop}

@[simp] theorem along_pure (a : α) (s : σ) : (Prog.pure a).along perform R s ↔ True := Iff.rfl

@[simp] theorem along_op (o : S.Op) (k : S.Res o → Prog S α) (s : σ) :
    (Prog.op o k).along perform R s ↔
      R s o ∧ (k (perform s o).2).along perform R (perform s o).1 := Iff.rfl

@[simp] theorem along_bind (p : Prog S α) (f : α → Prog S β) (s : σ) :
    (p.bind f).along perform R s ↔
      p.along perform R s ∧ (f (p.eval perform s).2).along perform R (p.eval perform s).1 := by
  induction p generalizing s with
  | pure a => simp
  | op o k ih => simp only [op_bind, along_op, eval_op, ih, and_assoc]

/-- What every operation has, holds along every program. -/
theorem along_of_forall (h : ∀ s o, R s o) (p : Prog S α) (s : σ) : p.along perform R s := by
  induction p generalizing s with
  | pure a => trivial
  | op o k ih => exact ⟨h s o, ih _ _⟩

end Prog

/-! ## Monitors -/

/-- What one thread may do and be answered, followed in a private state. -/
structure Monitor (S : Sig) (L : Type) where
  /-- The thread performs `o` only here. -/
  pre : L → S.Op → Prop
  /-- The answer `o` can get here. -/
  may : L → (o : S.Op) → S.Res o → Prop
  next : L → (o : S.Op) → S.Res o → L

/-- The monitor that allows everything and follows nothing. -/
def Monitor.free (S : Sig) (L : Type) : Monitor S L where
  pre _ _ := True
  may _ _ _ := True
  next l _ _ := l

/-- The monitor that allows nothing. -/
def Monitor.stuck (S : Sig) (L : Type) : Monitor S L where
  pre _ _ := False
  may _ _ _ := True
  next l _ _ := l

namespace Prog

variable {S : Sig} {α β L : Type} {M : Monitor S L}

/-- From the private state on, the program performs only allowed operations
and, if it returns, satisfies the postcondition. -/
def wp (M : Monitor S L) : Prog S α → (α → L → Prop) → L → Prop
  | .pure a, Q, l => Q a l
  | .op o k, Q, l => M.pre l o ∧ ∀ r, M.may l o r → (k r).wp M Q (M.next l o r)

variable {Q : α → L → Prop} {l : L}

@[simp] theorem wp_pure (a : α) : (Prog.pure a).wp M Q l ↔ Q a l := Iff.rfl

@[simp] theorem wp_op (o : S.Op) (k : S.Res o → Prog S α) :
    (Prog.op o k).wp M Q l ↔
      M.pre l o ∧ ∀ r, M.may l o r → (k r).wp M Q (M.next l o r) := Iff.rfl

@[simp] theorem wp_bind (p : Prog S α) (f : α → Prog S β) (Q : β → L → Prop) :
    (p.bind f).wp M Q l ↔ p.wp M (fun a l => (f a).wp M Q l) l := by
  induction p generalizing l with
  | pure a => exact Iff.rfl
  | op o k ih => simp only [op_bind, wp_op, ih]

@[simp] theorem wp_ite (c : Prop) [Decidable c] (p q : Prog S α) :
    (if c then p else q).wp M Q l ↔ (c → p.wp M Q l) ∧ (¬ c → q.wp M Q l) := by
  by_cases h : c <;> simp [h]

theorem wp_mono {p : Prog S α} {Q' : α → L → Prop} (hQ : ∀ a l, Q a l → Q' a l)
    (h : p.wp M Q l) : p.wp M Q' l := by
  induction p generalizing l with
  | pure a => exact hQ a l h
  | op o k ih => exact ⟨h.1, fun r hr => ih r (h.2 r hr)⟩

theorem wp_free (p : Prog S α) (hQ : ∀ a, Q a l) : p.wp (.free S L) Q l := by
  induction p with
  | pure a => exact hQ a
  | op o k ih => exact ⟨trivial, fun r _ => ih r⟩

/-- A program that follows its monitor keeps whatever the operations the
monitor allows keep, and ends in its postcondition. -/
theorem eval_of_wp {σ : Type} {perform : σ → (o : S.Op) → σ × S.Res o} {I : σ → L → Prop}
    (h : ∀ s l o, I s l → M.pre l o →
      M.may l o (perform s o).2 ∧ I (perform s o).1 (M.next l o (perform s o).2))
    {p : Prog S α} {s : σ} (hp : p.wp M Q l) (hs : I s l) :
    ∃ l', Q (p.eval perform s).2 l' ∧ I (p.eval perform s).1 l' := by
  induction p generalizing s l with
  | pure a => exact ⟨l, hp, hs⟩
  | op o k ih =>
      obtain ⟨hpre, hk⟩ := hp
      obtain ⟨hmay, hs'⟩ := h s l o hs hpre
      exact ih _ (hk _ hmay) hs'

/-- It performs only operations that its monitor allows. -/
theorem trace_of_wp {σ : Type} {perform : σ → (o : S.Op) → σ × S.Res o} {I : σ → L → Prop}
    (h : ∀ s l o, I s l → M.pre l o →
      M.may l o (perform s o).2 ∧ I (perform s o).1 (M.next l o (perform s o).2))
    {p : Prog S α} {s : σ} (hp : p.wp M Q l) (hs : I s l) :
    ∀ o ∈ p.trace perform s, ∃ l, M.pre l o := by
  induction p generalizing s l with
  | pure a => simp
  | op o k ih =>
      obtain ⟨hpre, hk⟩ := hp
      obtain ⟨hmay, hs'⟩ := h s l o hs hpre
      rw [trace_op, List.forall_mem_cons]
      exact ⟨⟨l, hpre⟩, ih _ (hk _ hmay) hs'⟩

end Prog

end Conc
