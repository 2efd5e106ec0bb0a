import Mathlib.Data.List.Perm.Subperm
import Mathlib.Data.List.Range

/-! Singly linked lists in a memory of cells. A chain is the sequence of live cells
read off by following `next` from a pointer until NULL. -/

set_option autoImplicit false

namespace Chain

abbrev Addr := Nat

abbrev Ptr := Option Addr

structure Cell (α : Type) where
  val : α
  next : Ptr
  deriving DecidableEq, Repr

/-- A memory of cells; a free address holds nothing, and all live ones lie below `brk`. -/
structure Heap (α : Type) where
  cell : Addr → Option (Cell α)
  brk : Nat
  bounded : ∀ a, brk ≤ a → cell a = none

variable {α : Type}

def Heap.empty : Heap α := ⟨fun _ => none,0,fun _ _ => rfl⟩

def Heap.write (h : Heap α) (a : Addr) (c : Cell α) : Heap α :=
  ⟨fun b => if b = a then some c else h.cell b,max h.brk (a+1),by
    intro b hb
    have hne : b ≠ a := by omega
    simp only [hne,if_false]
    exact h.bounded b (by omega)⟩

def Heap.free (h : Heap α) (a : Addr) : Heap α :=
  ⟨fun b => if b = a then none else h.cell b,h.brk,by
    intro b hb
    simp [h.bounded b hb]⟩

/-- What `malloc` may answer in the memory `h`: NULL, or an address that is not in use. -/
abbrev Fresh (h : Heap α) := Option {a : Addr // h.cell a = none}

@[simp] theorem Heap.write_cell (h : Heap α) (a b : Addr) (c : Cell α) :
    (h.write a c).cell b = if b = a then some c else h.cell b := rfl

theorem Heap.write_self (h : Heap α) (a : Addr) (c : Cell α) :
    (h.write a c).cell a = some c := by simp

@[simp] theorem Heap.free_cell (h : Heap α) (a b : Addr) :
    (h.free a).cell b = if b = a then none else h.cell b := rfl

theorem Heap.lt_brk (h : Heap α) {a : Addr} (ha : h.cell a ≠ none) : a < h.brk := by
  apply Nat.lt_of_not_le
  intro hle
  exact ha (h.bounded a hle)

/-- Following `next` from `p` reads exactly the cells of the list and then NULL. -/
def ChainOf (h : Heap α) : Ptr → List (Addr × α) → Prop
  | p, [] => p = none
  | p, (a,v) :: l => p = some a ∧ ∃ nx, h.cell a = some ⟨v,nx⟩ ∧ ChainOf h nx l

theorem chainOf_unique (h : Heap α) {p : Ptr} {l l' : List (Addr × α)}
    (hl : ChainOf h p l) (hl' : ChainOf h p l') : l = l' := by
  induction l generalizing p l' with
  | nil =>
    cases l' with
    | nil => rfl
    | cons x l' =>
      have h₁ : p = none := hl
      have h₂ : p = some x.1 := hl'.1
      simp [h₁] at h₂
  | cons x l ih =>
    obtain ⟨a,v⟩ := x
    obtain ⟨rfl,nx,hc,hrest⟩ := hl
    cases l' with
    | nil => simp [ChainOf] at hl'
    | cons y l' =>
      obtain ⟨b,w⟩ := y
      obtain ⟨hab,nx',hc',hrest'⟩ := hl'
      obtain rfl : a = b := Option.some.inj hab
      rw [hc] at hc'
      simp only [Option.some.injEq,Cell.mk.injEq] at hc'
      obtain ⟨rfl,rfl⟩ := hc'
      rw [ih hrest hrest']

theorem chainOf_tail (h : Heap α) {p : Ptr} {l₁ l₂ : List (Addr × α)} {a : Addr} {v : α}
    (hl : ChainOf h p (l₁ ++ (a,v) :: l₂)) : ChainOf h (some a) ((a,v) :: l₂) := by
  induction l₁ generalizing p with
  | nil =>
    obtain ⟨rfl,hrest⟩ := hl
    exact ⟨rfl,hrest⟩
  | cons x l₁ ih =>
    obtain ⟨_,nx,_,hrest⟩ := hl
    exact ih hrest

theorem chainOf_live (h : Heap α) {p : Ptr} {l : List (Addr × α)} (hl : ChainOf h p l)
    {a : Addr} (ha : a ∈ l.map Prod.fst) : h.cell a ≠ none := by
  induction l generalizing p with
  | nil => simp at ha
  | cons x l ih =>
    obtain ⟨b,v⟩ := x
    obtain ⟨_,nx,hc,hrest⟩ := hl
    rcases List.mem_cons.mp ha with rfl | ha
    · simp [hc]
    · exact ih hrest ha

/-- A chain that ends visits no cell twice: from a repeated cell the same suffix would
be read twice, once longer than the other time. -/
theorem chainOf_nodup (h : Heap α) {p : Ptr} {l : List (Addr × α)} (hl : ChainOf h p l) :
    (l.map Prod.fst).Nodup := by
  induction l generalizing p with
  | nil => exact List.nodup_nil
  | cons x l ih =>
    obtain ⟨a,v⟩ := x
    have hchain := hl
    obtain ⟨rfl,nx,_,hrest⟩ := hl
    refine List.nodup_cons.mpr ⟨?_,ih hrest⟩
    intro hmem
    obtain ⟨⟨b,w⟩,hbw,hb⟩ := List.mem_map.mp hmem
    obtain rfl : b = a := hb
    obtain ⟨l₁,l₂,rfl⟩ := List.append_of_mem hbw
    have hsame := chainOf_unique h hchain (chainOf_tail h hrest)
    have hlen := congrArg List.length hsame
    simp only [List.length_cons,List.length_append] at hlen
    omega

theorem chainOf_length_le (h : Heap α) {p : Ptr} {l : List (Addr × α)} (hl : ChainOf h p l) :
    l.length ≤ h.brk := by
  have hnodup := chainOf_nodup h hl
  have hsub : l.map Prod.fst ⊆ List.range h.brk := by
    intro a ha
    exact List.mem_range.mpr (h.lt_brk (chainOf_live h hl ha))
  have hle := (hnodup.subperm hsub).length_le
  simpa using hle

theorem chainOf_frame {h h' : Heap α} {p : Ptr} {l : List (Addr × α)}
    (hagree : ∀ a ∈ l.map Prod.fst, h'.cell a = h.cell a) (hl : ChainOf h p l) :
    ChainOf h' p l := by
  induction l generalizing p with
  | nil => exact hl
  | cons x l ih =>
    obtain ⟨a,v⟩ := x
    obtain ⟨hp,nx,hc,hrest⟩ := hl
    refine ⟨hp,nx,?_,ih (fun b hb => hagree b (List.mem_cons_of_mem _ hb)) hrest⟩
    rw [hagree a (by simp),hc]

theorem chainOf_relink {h h' : Heap α} {p q : Ptr} {l₁ l₂ l₃ : List (Addr × α)}
    {a : Addr} {v : α} (hl : ChainOf h p (l₁ ++ (a,v) :: l₂))
    (hagree : ∀ b ∈ l₁.map Prod.fst, h'.cell b = h.cell b)
    (hcell : h'.cell a = some ⟨v,q⟩) (hq : ChainOf h' q l₃) :
    ChainOf h' p (l₁ ++ (a,v) :: l₃) := by
  induction l₁ generalizing p with
  | nil =>
    obtain ⟨hp,_⟩ := hl
    exact ⟨hp,q,hcell,hq⟩
  | cons x l₁ ih =>
    obtain ⟨b,w⟩ := x
    obtain ⟨hp,nx,hc,hrest⟩ := hl
    refine ⟨hp,nx,?_,ih hrest (fun d hd => hagree d (List.mem_cons_of_mem _ hd))⟩
    rw [hagree b (by simp),hc]

/-! The surgery of an insertion at the end and of a deletion -/

theorem chainOf_fresh (h : Heap α) {p : Ptr} {l : List (Addr × α)} (hl : ChainOf h p l) {t : Addr}
    (ht : h.cell t = none) {a : Addr} (ha : a ∈ l.map Prod.fst) : a ≠ t := by
  rintro rfl
  exact chainOf_live h hl ha ht

theorem chainOf_snoc {h : Heap α} {p : Ptr} {l : List (Addr × α)} {z t : Addr} {w e : α}
    (hl : ChainOf h p (l ++ [(z,w)])) (ht : h.cell t = none) :
    ChainOf ((h.write t ⟨e,none⟩).write z ⟨w,some t⟩) p (l ++ [(z,w),(t,e)]) := by
  have hfresh : ∀ b ∈ (l ++ [(z,w)]).map Prod.fst, b ≠ t := fun b hb => chainOf_fresh h hl ht hb
  have hnodup := chainOf_nodup h hl
  rw [List.map_append,List.nodup_append] at hnodup
  refine chainOf_relink hl ?_ (Heap.write_self _ z _) ?_
  · intro b hb
    have hbz : b ≠ z := hnodup.2.2 b hb z (by simp)
    have hbt : b ≠ t := hfresh b (by simp only [List.map_append,List.mem_append]; exact Or.inl hb)
    simp [hbz,hbt]
  · have hzt : t ≠ z := fun heq => hfresh z (by simp) heq.symm
    exact ⟨rfl,none,by simp [hzt],rfl⟩

theorem chainOf_free_head {h : Heap α} {p nx : Ptr} {rest : List (Addr × α)} {a : Addr} {v : α}
    (hl : ChainOf h p ((a,v) :: rest)) (hnx : ChainOf h nx rest) : ChainOf (h.free a) nx rest := by
  have hnodup := chainOf_nodup h hl
  rw [List.map_cons,List.nodup_cons] at hnodup
  refine chainOf_frame ?_ hnx
  intro b hb
  have hba : b ≠ a := by
    rintro rfl
    exact hnodup.1 hb
  simp [hba]

theorem chainOf_unlink {h : Heap α} {p nx : Ptr} {front rest : List (Addr × α)} {z a : Addr}
    {w v : α} (hl : ChainOf h p (front ++ (z,w) :: (a,v) :: rest)) (hnx : ChainOf h nx rest) :
    ChainOf ((h.write z ⟨w,nx⟩).free a) p (front ++ (z,w) :: rest) := by
  have hnodup := chainOf_nodup h hl
  simp only [List.map_append,List.map_cons,List.nodup_append,List.nodup_cons,List.mem_cons,
    not_or] at hnodup
  obtain ⟨_,⟨⟨hza,hzr⟩,har,_⟩,hdisj⟩ := hnodup
  refine chainOf_relink (q := nx) hl ?_ (by simp [hza]) ?_
  · intro b hb
    have hbz : b ≠ z := hdisj b hb z (Or.inl rfl)
    have hba : b ≠ a := hdisj b hb a (Or.inr (Or.inl rfl))
    simp [hbz,hba]
  · refine chainOf_frame ?_ hnx
    intro b hb
    have hbz : b ≠ z := by
      rintro rfl
      exact hzr hb
    have hba : b ≠ a := by
      rintro rfl
      exact har hb
    simp [hbz,hba]

def walk (h : Heap α) : Nat → Ptr → List α
  | 0, _ => []
  | _, none => []
  | fuel+1, some a =>
    match h.cell a with
    | none => []
    | some c => c.val :: walk h fuel c.next

theorem walk_chain (h : Heap α) {p : Ptr} {l : List (Addr × α)} (hl : ChainOf h p l)
    {fuel : Nat} (hf : l.length ≤ fuel) : walk h fuel p = l.map Prod.snd := by
  induction l generalizing p fuel with
  | nil =>
    obtain rfl : p = none := hl
    cases fuel <;> rfl
  | cons x l ih =>
    obtain ⟨a,v⟩ := x
    obtain ⟨rfl,nx,hc,hrest⟩ := hl
    cases fuel with
    | zero => simp at hf
    | succ fuel =>
      have hf' : l.length ≤ fuel := by simpa using hf
      simp [walk,hc,ih hrest hf']

end Chain
