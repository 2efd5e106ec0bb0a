import RdkHal.Lib.Chain

/-! A chain and the rest of the memory: what a surgery of the chain leaves alone, and that no
cell is lost on the way. -/

set_option autoImplicit false

namespace Chain

variable {α : Type}

structure Beside (h : Heap α) (p : Ptr) (frame : Addr → Option (Cell α)) (l : List (Addr × α)) :
    Prop where
  chain : ChainOf h p l
  outside : ∀ a, a ∉ l.map Prod.fst → h.cell a = frame a
  apart : ∀ a ∈ l.map Prod.fst, frame a = none

theorem Beside.empty (h : Heap α) : Beside h none h.cell [] := ⟨rfl,by simp,by simp⟩

/-- A change that touches only the old and the new chain, takes new cells from the unused ones
and frees those it takes out. -/
theorem Beside.change {h h' : Heap α} {p p' : Ptr} {frame : Addr → Option (Cell α)}
    {l l' : List (Addr × α)} (hb : Beside h p frame l) (hchain : ChainOf h' p' l')
    (hagree : ∀ a, a ∉ l.map Prod.fst → a ∉ l'.map Prod.fst → h'.cell a = h.cell a)
    (hnew : ∀ a ∈ l'.map Prod.fst, a ∈ l.map Prod.fst ∨ h.cell a = none)
    (hfreed : ∀ a ∈ l.map Prod.fst, a ∉ l'.map Prod.fst → h'.cell a = none) :
    Beside h' p' frame l' := by
  refine ⟨hchain,fun a ha => ?_,fun a ha => ?_⟩
  · by_cases hold : a ∈ l.map Prod.fst
    · rw [hfreed a hold ha,hb.apart a hold]
    · rw [hagree a hold ha,hb.outside a hold]
  · by_cases hold : a ∈ l.map Prod.fst
    · exact hb.apart a hold
    · rw [← hb.outside a hold]
      exact (hnew a ha).resolve_left hold

end Chain
