import DsEthComm.Conc.Run
import DsEthComm.Conc.Prog
import Mathlib.Logic.Function.Basic

/-!
# Conc.Pool

A pool of threads that call programs over a shared state.  Each thread is
idle or in the middle of one call; a scheduler picks whose operation is
next, and an environment acts in between.

The invariant rule is thread-modular: a `Monitor` per call follows the
thread in a private state, and an invariant ties the private states to the
shared one.  The programs are looked at once, by `Prog.wp`; after that only
their operations matter.
-/

namespace Conc

/-- The calls of the threads and what they do to the shared state.  `ι` are
the calls, `ρ` their results, `A` what the environment decides about an
operation, `ε` its own steps. -/
structure Pool (S : Sig) (σ τ ι ρ A ε : Type) where
  code : ι → Prog S ρ
  /-- Begin a call, if the thread may. -/
  enter : τ → ι → σ → Option σ
  perform : τ → ι → σ → (o : S.Op) → A → σ × S.Res o
  /-- End a call. -/
  leave : τ → ι → ρ → σ → σ
  env : ε → σ → Option σ

/-- A configuration: the shared state, and what each thread still has to do. -/
structure Conf (S : Sig) (σ τ ι ρ : Type) where
  shared : σ
  job : τ → Option (ι × Prog S ρ)

/-- The call a thread is in. -/
def Conf.call {S : Sig} {σ τ ι ρ : Type} (c : Conf S σ τ ι ρ) (t : τ) : Option ι :=
  (c.job t).map Prod.fst

/-- The operation a thread performs next. -/
def Conf.next {S : Sig} {σ τ ι ρ : Type} (c : Conf S σ τ ι ρ) (t : τ) : Option S.Op :=
  match c.job t with
  | some (_, .op o _) => some o
  | _ => none

theorem Conf.next_of_job {S : Sig} {σ τ ι ρ : Type} {c : Conf S σ τ ι ρ} {t : τ} {i : ι}
    {o : S.Op} {k : S.Res o → Prog S ρ} (h : c.job t = some (i, .op o k)) :
    c.next t = some o := by
  rw [Conf.next, h]

/-- What a scheduler and an environment can choose. -/
inductive PoolLabel (τ ι A ε : Type) where
  | enter (t : τ) (i : ι)
  | exec (t : τ) (a : A)
  | leave (t : τ)
  | env (e : ε)

namespace Pool

variable {S : Sig} {σ τ ι ρ A ε γ L : Type}

/-- All threads idle. -/
def start (s : σ) : Conf S σ τ ι ρ := ⟨s, fun _ => none⟩

def step [DecidableEq τ] (P : Pool S σ τ ι ρ A ε) (c : Conf S σ τ ι ρ) :
    PoolLabel τ ι A ε → Option (Conf S σ τ ι ρ)
  | .enter t i =>
      match c.job t with
      | none => (P.enter t i c.shared).map fun s =>
          ⟨s, Function.update c.job t (some (i, P.code i))⟩
      | some _ => none
  | .exec t a =>
      match c.job t with
      | some (i, .op o k) =>
          let x := P.perform t i c.shared o a
          some ⟨x.1, Function.update c.job t (some (i, k x.2))⟩
      | _ => none
  | .leave t =>
      match c.job t with
      | some (i, .pure r) => some ⟨P.leave t i r c.shared, Function.update c.job t none⟩
      | _ => none
  | .env e => (P.env e c.shared).map fun s => { c with shared := s }

/-! ## Observers -/

/-- A record `γ` kept beside the shared state, which cannot influence it. -/
structure Observer (S : Sig) (σ τ ι ρ ε γ : Type) where
  enter : τ → ι → σ → γ → γ
  /-- An operation on the state before it, with its answer. -/
  perform : τ → ι → σ → (o : S.Op) → S.Res o → γ → γ
  leave : τ → ι → ρ → σ → γ → γ
  env : ε → σ → γ → γ

/-- The pool with an observer. -/
def observe (P : Pool S σ τ ι ρ A ε) (O : Observer S σ τ ι ρ ε γ) :
    Pool S (σ × γ) τ ι ρ A ε where
  code := P.code
  enter t i s := (P.enter t i s.1).map fun s' => (s', O.enter t i s.1 s.2)
  perform t i s o a :=
    let x := P.perform t i s.1 o a
    ((x.1, O.perform t i s.1 o x.2 s.2), x.2)
  leave t i r s := (P.leave t i r s.1, O.leave t i r s.1 s.2)
  env e s := (P.env e s.1).map fun s' => (s', O.env e s.1 s.2)

/-! ## The invariant rule -/

/-- Every thread in a call follows its monitor from its private state on. -/
def Follows (M : τ → ι → Monitor S L) (Q : τ → ι → ρ → L → Prop)
    (c : Conf S σ τ ι ρ) (loc : τ → Option L) : Prop :=
  ∀ t, match c.job t, loc t with
    | none, none => True
    | some (i, p), some l => p.wp (M t i) (Q t i) l
    | _, _ => False

variable {M : τ → ι → Monitor S L} {Q : τ → ι → ρ → L → Prop}
  {c : Conf S σ τ ι ρ} {loc : τ → Option L}

theorem Follows.idle (h : Follows M Q c loc) {t : τ} (ht : c.job t = none) : loc t = none := by
  have htl := h t
  rw [ht] at htl
  cases hl : loc t with
  | none => rfl
  | some l => simp [hl] at htl

theorem Follows.busy (h : Follows M Q c loc) {t : τ} {i : ι} {p : Prog S ρ}
    (ht : c.job t = some (i, p)) : ∃ l, loc t = some l ∧ p.wp (M t i) (Q t i) l := by
  have htl := h t
  rw [ht] at htl
  cases hl : loc t with
  | none => simp [hl] at htl
  | some l => exact ⟨l, rfl, by simpa [hl] using htl⟩

theorem follows_start (s : σ) : Follows M Q (start s) (fun _ => none) := by
  intro t
  simp [start]

variable [DecidableEq τ]

theorem Follows.update_some (h : Follows M Q c loc) (s : σ) {t : τ} {i : ι} {p : Prog S ρ}
    {l : L} (hp : p.wp (M t i) (Q t i) l) :
    Follows M Q ⟨s, Function.update c.job t (some (i, p))⟩ (Function.update loc t (some l)) := by
  intro u
  by_cases hu : u = t
  · subst hu
    simpa using hp
  · simpa [hu] using h u

theorem Follows.update_none (h : Follows M Q c loc) (s : σ) (t : τ) :
    Follows M Q ⟨s, Function.update c.job t none⟩ (Function.update loc t none) := by
  intro u
  by_cases hu : u = t
  · subst hu
    simp
  · simpa [hu] using h u

/-- A property of each private state, after one of them has changed. -/
theorem forall_update_some {I J : τ → L → Prop} {t : τ} {l : L} (hnew : J t l)
    (hkeep : ∀ u l, u ≠ t → I u l → J u l) (h : ∀ u l, loc u = some l → I u l) :
    ∀ u m, Function.update loc t (some l) u = some m → J u m := by
  intro u m hm
  by_cases hu : u = t
  · subst hu
    rw [Function.update_self, Option.some.injEq] at hm
    rw [← hm]
    exact hnew
  · rw [Function.update_of_ne hu] at hm
    exact hkeep u m hu (h u m hm)

theorem forall_update_none {I : τ → L → Prop} (h : ∀ u l, loc u = some l → I u l) (t : τ) :
    ∀ u l, Function.update loc t none u = some l → I u l := by
  intro u l hl
  by_cases hu : u = t
  · subst hu
    rw [Function.update_self] at hl
    contradiction
  · rw [Function.update_of_ne hu] at hl
    exact h u l hl

/-- **Thread-modular invariants.**  `R` ties the shared state to the private
states of the monitors.  If calls begin in step with their monitors, an
operation that the monitor allows is answered as the monitor expects, and
every kind of step keeps `R`, then `R` is an invariant. -/
theorem step_follows (P : Pool S σ τ ι ρ A ε) {ok : Conf S σ τ ι ρ → PoolLabel τ ι A ε → Prop}
    {R : σ → (τ → Option L) → Prop}
    (henter : ∀ (c : Conf S σ τ ι ρ) loc t i s', R c.shared loc → loc t = none →
      ok c (.enter t i) → P.enter t i c.shared = some s' →
      ∃ l, (P.code i).wp (M t i) (Q t i) l ∧ R s' (Function.update loc t (some l)))
    (hexec : ∀ (c : Conf S σ τ ι ρ) loc t i o k a l, Follows M Q c loc → R c.shared loc →
      c.job t = some (i, .op o k) → loc t = some l → (M t i).pre l o → ok c (.exec t a) →
      (M t i).may l o (P.perform t i c.shared o a).2 ∧
        R (P.perform t i c.shared o a).1
          (Function.update loc t (some ((M t i).next l o (P.perform t i c.shared o a).2))))
    (hleave : ∀ (c : Conf S σ τ ι ρ) loc t i r l, R c.shared loc →
      c.job t = some (i, .pure r) → loc t = some l → Q t i r l → ok c (.leave t) →
      R (P.leave t i r c.shared) (Function.update loc t none))
    (henv : ∀ (c : Conf S σ τ ι ρ) loc e s', Follows M Q c loc → R c.shared loc →
      ok c (.env e) → P.env e c.shared = some s' → R s' loc)
    (c : Conf S σ τ ι ρ) (l : PoolLabel τ ι A ε) (c' : Conf S σ τ ι ρ)
    (hc : ∃ loc, Follows M Q c loc ∧ R c.shared loc) (hok : ok c l)
    (h : P.step c l = some c') : ∃ loc, Follows M Q c' loc ∧ R c'.shared loc := by
  obtain ⟨loc, hfol, hR⟩ := hc
  cases l with
  | enter t i =>
      simp only [step] at h
      split at h
      case h_1 hj =>
        obtain ⟨s, hs, rfl⟩ := Option.map_eq_some_iff.mp h
        obtain ⟨l, hwp, hR'⟩ := henter c loc t i s hR (hfol.idle hj) hok hs
        exact ⟨_, hfol.update_some s hwp, hR'⟩
      case h_2 => contradiction
  | exec t a =>
      simp only [step] at h
      split at h
      case h_1 i o k hj =>
        obtain rfl := Option.some.inj h
        obtain ⟨l, hl, hwp⟩ := hfol.busy hj
        obtain ⟨hpre, hk⟩ := hwp
        obtain ⟨hmay, hR'⟩ := hexec c loc t i o k a l hfol hR hj hl hpre hok
        exact ⟨_, hfol.update_some _ (hk _ hmay), hR'⟩
      case h_2 => contradiction
  | leave t =>
      simp only [step] at h
      split at h
      case h_1 i r hj =>
        obtain rfl := Option.some.inj h
        obtain ⟨l, hl, hwp⟩ := hfol.busy hj
        exact ⟨_, hfol.update_none _ t, hleave c loc t i r l hR hj hl hwp hok⟩
      case h_2 => contradiction
  | env e =>
      obtain ⟨s, hs, rfl⟩ := Option.map_eq_some_iff.mp h
      exact ⟨loc, hfol, henv c loc e s hfol hR hok hs⟩

end Pool

end Conc
