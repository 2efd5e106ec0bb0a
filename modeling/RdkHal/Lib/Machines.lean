import RdkHal.Lib.Runs

/-! Machines that answer, compared over whole runs: one that refines another, and one that
serves several clients, none of which can tell whether the others are there. -/

set_option autoImplicit false

namespace Runs

variable {σ τ α β : Type}

def next (step : σ → α → β × σ) (s : σ) (a : α) : σ := (step s a).2

/-- A machine refines another when, in its domain `D`, related states answer alike and lead to
related states: then whole runs do. -/
theorem refines {step : σ → α → β × σ} {spec : τ → α → β × τ} {R : σ → τ → Prop}
    {D : σ → α → Prop}
    (hstep : ∀ s t a, R s t → D s a → (step s a).1 = (spec t a).1 ∧ R (step s a).2 (spec t a).2)
    {s : σ} {t : τ} (h : R s t) {as : List α} (hD : Along (next step) D s as) :
    answers step s as = answers spec t as ∧ R (run (next step) s as) (run (next spec) t as) := by
  induction as generalizing s t with
  | nil => exact ⟨rfl,h⟩
  | cons a as ih =>
    obtain ⟨hanswer,hrel⟩ := hstep s t a h hD.1
    obtain ⟨hanswers,hend⟩ := ih hrel hD.2
    exact ⟨by rw [answers,answers,hanswer,hanswers],hend⟩

theorem Along.mono {step : σ → α → σ} {P Q : σ → α → Prop} (h : ∀ s a, P s a → Q s a) {s : σ}
    {as : List α} (hP : Along step P s as) : Along step Q s as := by
  induction as generalizing s with
  | nil => trivial
  | cons a as ih => exact ⟨h s a hP.1,ih hP.2⟩

theorem Along.and {step : σ → α → σ} {P Q : σ → α → Prop} {s : σ} {as : List α}
    (hP : Along step P s as) (hQ : Along step Q s as) :
    Along step (fun s a => P s a ∧ Q s a) s as := by
  induction as generalizing s with
  | nil => trivial
  | cons a as ih => exact ⟨⟨hP.1,hQ.1⟩,ih hP.2 hQ.2⟩

theorem along_labels (step : σ → α → σ) {P : α → Prop} {s : σ} {as : List α} :
    Along step (fun _ a => P a) s as ↔ ∀ a ∈ as, P a := by
  induction as generalizing s with
  | nil => simp
  | cons a as ih => rw [along_cons,List.forall_mem_cons,ih]

theorem run_append (step : σ → α → σ) (s : σ) (as bs : List α) :
    run step s (as ++ bs) = run step (run step s as) bs := by
  induction as generalizing s with
  | nil => rfl
  | cons a as ih => exact ih (step s a)

theorem along_append {step : σ → α → σ} {P : σ → α → Prop} {s : σ} {as bs : List α} :
    Along step P s (as ++ bs) ↔ Along step P s as ∧ Along step P (run step s as) bs := by
  induction as generalizing s with
  | nil => simp
  | cons a as ih => simp only [List.cons_append,along_cons,run_cons,ih,and_assoc]

theorem answers_append (step : σ → α → β × σ) (s : σ) (as bs : List α) :
    answers step s (as ++ bs) = answers step s as ++ answers step (run (next step) s as) bs := by
  induction as generalizing s with
  | nil => rfl
  | cons a as ih => exact congrArg _ (ih _)

theorem answers_along {step : σ → α → β × σ} {D : σ → α → Prop} {P : β → Prop}
    (hstep : ∀ s a, D s a → P (step s a).1) {s : σ} {as : List α} (hD : Along (next step) D s as) :
    ∀ b ∈ answers step s as, P b := by
  induction as generalizing s with
  | nil => simp [answers]
  | cons a as ih => exact List.forall_mem_cons.mpr ⟨hstep s a hD.1,ih hD.2⟩

theorem answers_getElem? (step : σ → α → β × σ) (s : σ) (as : List α) (i : Nat) :
    (answers step s as)[i]? = as[i]?.map fun a => (step (run (next step) s (as.take i)) a).1 := by
  induction as generalizing s i with
  | nil => rfl
  | cons a as ih =>
    cases i with
    | zero => rfl
    | succ i => exact ih _ i

theorem run_take_succ (step : σ → α → σ) (s : σ) {as : List α} {i : Nat} {a : α}
    (ha : as[i]? = some a) : run step s (as.take (i+1)) = step (run step s (as.take i)) a := by
  rw [List.take_add_one,ha,run_append]
  rfl

theorem Along.getElem? {step : σ → α → σ} {P : σ → α → Prop} {s : σ} {as : List α}
    (h : Along step P s as) {i : Nat} {a : α} (ha : as[i]? = some a) :
    P (run step s (as.take i)) a := by
  induction as generalizing s i with
  | nil => cases ha
  | cons b as ih =>
    cases i with
    | zero =>
      cases ha
      exact h.1
    | succ i => exact ih h.2 ha

theorem run_take_le [Preorder σ] {step : σ → α → σ} (hstep : ∀ s a, s ≤ step s a) {s : σ}
    {as : List α} {i j : Nat} (hij : i ≤ j) :
    run step s (as.take i) ≤ run step s (as.take j) := by
  have hup : ∀ (bs : List α) (s : σ), s ≤ run step s bs := by
    intro bs
    induction bs with
    | nil => exact fun s => le_refl s
    | cons b bs ih => exact fun s => le_trans (hstep s b) (ih _)
  have htake : as.take j = as.take i ++ (as.drop i).take (j-i) := by
    rw [← List.take_add,Nat.add_sub_cancel' hij]
  rw [htake,run_append]
  exact hup _ _

/-- A label that changes nothing when it is repeated at once may be repeated at will. -/
theorem repeats {step : σ → α → β × σ} {P : σ → α → Prop} {a : α}
    (hagain : ∀ s, P s a → P (step s a).2 a → step (step s a).2 a = step s a) {s : σ} {n : Nat}
    (hP : Along (next step) P s (List.replicate (n+1) a)) :
    run (next step) s (List.replicate (n+1) a) = (step s a).2 ∧
      answers step s (List.replicate (n+1) a) = List.replicate (n+1) (step s a).1 := by
  induction n generalizing s with
  | zero => exact ⟨rfl,rfl⟩
  | succ n ih =>
    rw [List.replicate_succ] at hP
    obtain ⟨hrun,hanswers⟩ := ih hP.2
    have hsame := hagain s hP.1 hP.2.1
    rw [next] at hrun hanswers
    rw [hsame] at hrun hanswers
    rw [List.replicate_succ,run_cons,answers,hanswers]
    exact ⟨hrun,rfl⟩

theorem along_invariant {step : σ → α → σ} {D E : σ → α → Prop} {I : σ → Prop}
    (hkeep : ∀ s a, I s → D s a → I (step s a)) (hmore : ∀ s a, I s → D s a → E s a) {s : σ}
    (hs : I s) {as : List α} (hD : Along step D s as) : Along step E s as := by
  induction as generalizing s with
  | nil => trivial
  | cons a as ih => exact ⟨hmore s a hs hD.1,ih (hkeep s a hs hD.1) hD.2⟩

theorem run_invariant {step : σ → α → σ} {D : σ → α → Prop} {I : σ → Prop}
    (hkeep : ∀ s a, I s → D s a → I (step s a)) {s : σ} (hs : I s) {as : List α}
    (hD : Along step D s as) : I (run step s as) := by
  induction as generalizing s with
  | nil => exact hs
  | cons a as ih => exact ih (hkeep s a hs hD.1) hD.2

/-! Clients -/

/-- The answers that the labels of one client get in a run of all of them. -/
def answersTo (mine : α → Bool) (step : σ → α → β × σ) (s : σ) : List α → List β
  | [] => []
  | a :: as =>
    if mine a then (step s a).1 :: answersTo mine step (step s a).2 as
    else answersTo mine step (step s a).2 as

theorem answersTo_eq {step : σ → α → β × σ} {spec : τ → α → β × τ} (mine : α → Bool) {s : σ} {t : τ}
    {as : List α} (h : answers step s as = answers spec t as) :
    answersTo mine step s as = answersTo mine spec t as := by
  induction as generalizing s t with
  | nil => rfl
  | cons a as ih =>
    rw [answers,answers,List.cons.injEq] at h
    rw [answersTo,answersTo,h.1,ih h.2]

/-- The unwinding rule: a client's labels answer alike in states that look alike to it and keep
them so, and the labels of the others change nothing that it sees. Then every run of all of them
gives the client the answers that it gets alone. -/
theorem unwinding {step : σ → α → β × σ} {mine : α → Bool} {D : α → Prop} {Alike : σ → σ → Prop}
    (hmine : ∀ s t a, Alike s t → D a → mine a = true →
      (step s a).1 = (step t a).1 ∧ Alike (step s a).2 (step t a).2)
    (hother : ∀ s t a, Alike s t → D a → mine a = false → Alike (step s a).2 t)
    {s t : σ} (h : Alike s t) {as : List α} (hD : ∀ a ∈ as, D a) :
    answersTo mine step s as = answers step t (as.filter mine) ∧
      Alike (run (next step) s as) (run (next step) t (as.filter mine)) := by
  induction as generalizing s t with
  | nil => exact ⟨rfl,h⟩
  | cons a as ih =>
    obtain ⟨ha,has⟩ := List.forall_mem_cons.mp hD
    cases hm : mine a with
    | true =>
      obtain ⟨hanswer,halike⟩ := hmine s t a h ha hm
      obtain ⟨hanswers,hend⟩ := ih halike has
      rw [List.filter_cons_of_pos hm,answersTo,if_pos hm,answers,hanswer,hanswers]
      exact ⟨rfl,hend⟩
    | false =>
      obtain ⟨hanswers,hend⟩ := ih (hother s t a h ha hm) has
      have hskip : ¬mine a = true := by simp [hm]
      rw [List.filter_cons_of_neg hskip,answersTo,if_neg hskip]
      exact ⟨hanswers,hend⟩

theorem along_filter {step : σ → α → σ} {mine : α → Bool} {P : σ → α → Prop}
    {Alike : σ → σ → Prop}
    (hmine : ∀ s t a, Alike s t → mine a = true → P s a → P t a ∧ Alike (step s a) (step t a))
    (hother : ∀ s t a, Alike s t → mine a = false → Alike (step s a) t)
    {s t : σ} (h : Alike s t) {as : List α} (hP : Along step P s as) :
    Along step P t (as.filter mine) := by
  induction as generalizing s t with
  | nil => trivial
  | cons a as ih =>
    cases hm : mine a with
    | true =>
      obtain ⟨ha,halike⟩ := hmine s t a h hm hP.1
      rw [List.filter_cons_of_pos hm]
      exact ⟨ha,ih halike hP.2⟩
    | false =>
      rw [List.filter_cons_of_neg (by simp [hm])]
      exact ih (hother s t a h hm) hP.2

end Runs
