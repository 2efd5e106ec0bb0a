import Mathlib.Data.List.Infix

/-! Runs of a deterministic machine: `step s a` is the state after the label `a`.
A property of the states of a run is compared with a condition on its steps. -/

set_option autoImplicit false

namespace Runs

variable {σ α : Type}

def run (step : σ → α → σ) (s : σ) : List α → σ
  | [] => s
  | a :: as => run step (step s a) as

/-- Every step of the run is taken in a state and with a label that satisfy `P`. -/
def Along (step : σ → α → σ) (P : σ → α → Prop) (s : σ) : List α → Prop
  | [] => True
  | a :: as => P s a ∧ Along step P (step s a) as

def Always (step : σ → α → σ) (I : σ → Prop) (s : σ) : List α → Prop
  | [] => I s
  | a :: as => I s ∧ Always step I (step s a) as

instance decidableAlong (step : σ → α → σ) (P : σ → α → Prop) [∀ s a, Decidable (P s a)] :
    (s : σ) → (as : List α) → Decidable (Along step P s as)
  | _, [] => inferInstanceAs (Decidable True)
  | s, a :: as =>
    have := decidableAlong step P (step s a) as
    inferInstanceAs (Decidable (P s a ∧ Along step P (step s a) as))

@[simp] theorem run_nil (step : σ → α → σ) (s : σ) : run step s [] = s := rfl

@[simp] theorem run_cons (step : σ → α → σ) (s : σ) (a : α) (as : List α) :
    run step s (a :: as) = run step (step s a) as := rfl

@[simp] theorem along_nil (step : σ → α → σ) (P : σ → α → Prop) (s : σ) :
    Along step P s [] := trivial

@[simp] theorem along_cons (step : σ → α → σ) (P : σ → α → Prop) (s : σ) (a : α) (as : List α) :
    Along step P s (a :: as) ↔ P s a ∧ Along step P (step s a) as := Iff.rfl

theorem Always.start {step : σ → α → σ} {I : σ → Prop} {s : σ} {as : List α}
    (h : Always step I s as) : I s := by
  cases as with
  | nil => exact h
  | cons a as => exact h.1

/-- When `C` says exactly which steps preserve `I`, it says exactly which runs do.
`J` is an auxiliary invariant that the steps of the domain `D` preserve wherever `I` holds. -/
theorem always_iff_along {step : σ → α → σ} {D C : σ → α → Prop} {I J : σ → Prop}
    (hJ : ∀ s a, J s → I s → D s a → J (step s a))
    (hstep : ∀ s a, J s → I s → D s a → (I (step s a) ↔ C s a)) {s : σ} {as : List α}
    (hj : J s) (hs : I s) (hD : Along step D s as) :
    Always step I s as ↔ Along step C s as := by
  induction as generalizing s with
  | nil => simp [Always,hs]
  | cons a as ih =>
    have hiff := hstep s a hj hs hD.1
    have hj' := hJ s a hj hs hD.1
    constructor
    · rintro ⟨_,hrest⟩
      exact ⟨hiff.mp hrest.start,(ih hj' hrest.start hD.2).mp hrest⟩
    · rintro ⟨hc,hrest⟩
      have hi := hiff.mpr hc
      exact ⟨hs,(ih hj' hi hD.2).mpr hrest⟩

/-! Machines that answer -/

section Answers

variable {τ β : Type}

def answers (step : σ → α → β × σ) (s : σ) : List α → List β
  | [] => []
  | a :: as => (step s a).1 :: answers step (step s a).2 as

/-- When `C` says exactly which labels two related machines answer alike, and these keep them
related, it says exactly which runs do. -/
theorem answers_eq_iff {step : σ → α → β × σ} {spec : τ → α → β × τ} {R : σ → τ → Prop}
    {C : α → Prop} (hanswer : ∀ s t a, R s t → ((step s a).1 = (spec t a).1 ↔ C a))
    (hrel : ∀ s t a, R s t → C a → R (step s a).2 (spec t a).2) {s : σ} {t : τ} (h : R s t)
    (as : List α) : answers step s as = answers spec t as ↔ ∀ a ∈ as, C a := by
  induction as generalizing s t with
  | nil => simp [answers]
  | cons a as ih =>
    rw [answers,answers,List.cons.injEq,List.forall_mem_cons,hanswer s t a h]
    exact and_congr_right fun ha => ih (hrel s t a h ha)

end Answers

end Runs
