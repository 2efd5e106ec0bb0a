import RdkHal.Lib.Blocks

/-! Blocks with owners. Where each block is written and freed by its owner alone, the heap is a map
from owners to blocks, beside a frame that nobody touches. -/

set_option autoImplicit false

namespace Blocks
open Text

variable {ι : Type} {h : Heap} {frame : Addr → Option Block} {own : ι → Option Addr}

def Heap.drop (h : Heap) (a : Addr) : Heap where
  block := Function.update h.block a none
  brk := h.brk
  bounded b hb := by
    by_cases hba : b = a
    · rw [hba,Function.update_self]
    · rw [Function.update_of_ne hba]
      exact h.bounded b hb

/-- A block given back; `none` is an address that is not in use. Nothing is done about NULL. -/
def Heap.free (h : Heap) : Option Addr → Option Heap
  | none => some h
  | some a =>
    match h.block a with
    | none => none
    | some _ => some (h.drop a)

theorem Heap.drop_self (h : Heap) (a : Addr) : (h.drop a).block a = none := Function.update_self ..

theorem Heap.drop_other (h : Heap) {a c : Addr} (hc : c ≠ a) : (h.drop a).block c = h.block c :=
  Function.update_of_ne hc ..

theorem Heap.put_other (h : Heap) {a c : Addr} (hc : c ≠ a) (b : Block) :
    (h.put a b).block c = h.block c :=
  Function.update_of_ne hc ..

/-- Each block in use has one owner, or it belongs to the frame. -/
structure Owns (h : Heap) (frame : Addr → Option Block) (own : ι → Option Addr) : Prop where
  live : ∀ {x : ι} {a : Addr}, own x = some a → h.block a ≠ none
  single : ∀ {x y : ι} {a : Addr}, own x = some a → own y = some a → x = y
  apart : ∀ {x : ι} {a : Addr}, own x = some a → frame a = none
  outside : ∀ {a : Addr}, (∀ x, own x ≠ some a) → h.block a = frame a

def contents (h : Heap) (own : ι → Option Addr) (x : ι) : Option Block := (own x).bind h.block

theorem Owns.start (h : Heap) : Owns h h.block (fun _ : ι => none) :=
  ⟨by simp,by simp,by simp,fun _ => rfl⟩

theorem Owns.framed (ho : Owns h frame own) {a : Addr} (ha : frame a ≠ none) :
    h.block a = frame a :=
  ho.outside fun _ hx => ha (ho.apart hx)

theorem Owns.gone (ho : Owns h frame own) (hnone : ∀ x, own x = none) : h.block = frame := by
  funext a
  exact ho.outside fun x hx => by simp [hnone x] at hx

theorem Owns.unused (ho : Owns h frame own) {a : Addr} (ha : h.block a = none) :
    (∀ x, own x ≠ some a) ∧ frame a = none := by
  have hnot : ∀ x, own x ≠ some a := fun x hx => ho.live hx ha
  exact ⟨hnot,(ho.outside hnot).symm.trans ha⟩

variable [DecidableEq ι] {x : ι}

theorem Owns.alloc (ho : Owns h frame own) (hx : own x = none) (new : Fresh h) (b : Block) :
    Owns (h.put new.addr b) frame (Function.update own x (some new.addr)) ∧
      contents (h.put new.addr b) (Function.update own x (some new.addr)) =
        Function.update (contents h own) x (some b) := by
  obtain ⟨hnew,hframe⟩ := ho.unused new.unused
  have hcase {y : ι} {a : Addr} (hy : Function.update own x (some new.addr) y = some a) :
      (y = x ∧ a = new.addr) ∨ (own y = some a ∧ a ≠ new.addr) := by
    by_cases hyx : y = x
    · rw [hyx,Function.update_self,Option.some.injEq] at hy
      exact Or.inl ⟨hyx,hy.symm⟩
    · rw [Function.update_of_ne hyx] at hy
      exact Or.inr ⟨hy,fun ha => hnew y (ha ▸ hy)⟩
  refine ⟨⟨fun hy => ?_,fun hy hz => ?_,fun hy => ?_,fun {a} hnot => ?_⟩,funext fun y => ?_⟩
  · rcases hcase hy with ⟨_,rfl⟩ | ⟨hold,hne⟩
    · simp
    · rw [h.put_other hne]
      exact ho.live hold
  · rcases hcase hy with ⟨rfl,rfl⟩ | ⟨hold,hne⟩
    · rcases hcase hz with ⟨hzx,_⟩ | ⟨_,hne⟩
      · exact hzx.symm
      · exact absurd rfl hne
    · rcases hcase hz with ⟨_,heq⟩ | ⟨hold',_⟩
      · exact absurd heq hne
      · exact ho.single hold hold'
  · rcases hcase hy with ⟨_,rfl⟩ | ⟨hold,_⟩
    · exact hframe
    · exact ho.apart hold
  · have hne : a ≠ new.addr := by
      rintro rfl
      exact hnot x (Function.update_self ..)
    rw [h.put_other hne]
    refine ho.outside fun y hy => hnot y ?_
    have hyx : y ≠ x := by
      rintro rfl
      simp [hx] at hy
    rw [Function.update_of_ne hyx,hy]
  · by_cases hyx : y = x
    · simp [contents,hyx]
    · rw [contents,Function.update_of_ne hyx,Function.update_of_ne hyx,contents]
      cases hy : own y with
      | none => rfl
      | some a =>
        refine h.put_other ?_ b
        rintro rfl
        exact hnew y hy

theorem Owns.write (ho : Owns h frame own) {a : Addr} (hx : own x = some a) (b : Block) :
    Owns (h.put a b) frame own ∧
      contents (h.put a b) own = Function.update (contents h own) x (some b) := by
  refine ⟨⟨fun {y c} hy => ?_,ho.single,ho.apart,fun {c} hnot => ?_⟩,funext fun y => ?_⟩
  · by_cases hc : c = a
    · simp [hc]
    · rw [h.put_other hc]
      exact ho.live hy
  · have hne : c ≠ a := by
      rintro rfl
      exact hnot x hx
    rw [h.put_other hne]
    exact ho.outside hnot
  · by_cases hyx : y = x
    · simp [contents,hyx,hx]
    · rw [Function.update_of_ne hyx,contents,contents]
      cases hy : own y with
      | none => rfl
      | some c =>
        refine h.put_other ?_ b
        rintro rfl
        exact hyx (ho.single hy hx)

theorem Owns.free (ho : Owns h frame own) (x : ι) :
    ∃ h', h.free (own x) = some h' ∧ Owns h' frame (Function.update own x none) ∧
      contents h' (Function.update own x none) = Function.update (contents h own) x none := by
  cases hx : own x with
  | none =>
    have hsame : Function.update own x none = own := by rw [← hx,Function.update_eq_self]
    have hempty : contents h own x = none := by rw [contents,hx]; rfl
    rw [hsame]
    refine ⟨h,rfl,ho,?_⟩
    rw [← hempty,Function.update_eq_self]
  | some a =>
    obtain ⟨b,hb⟩ := Option.ne_none_iff_exists'.mp (ho.live hx)
    have hcase {y : ι} {c : Addr} (hy : Function.update own x none y = some c) :
        own y = some c ∧ c ≠ a := by
      have hyx : y ≠ x := by
        rintro rfl
        simp at hy
      rw [Function.update_of_ne hyx] at hy
      refine ⟨hy,?_⟩
      rintro rfl
      exact hyx (ho.single hy hx)
    refine ⟨_,by rw [Heap.free,hb],⟨fun hy => ?_,fun hy hz => ?_,fun hy => ?_,fun {c} hnot => ?_⟩,
      funext fun y => ?_⟩
    · obtain ⟨hold,hne⟩ := hcase hy
      rw [h.drop_other hne]
      exact ho.live hold
    · exact ho.single (hcase hy).1 (hcase hz).1
    · exact ho.apart (hcase hy).1
    · by_cases hc : c = a
      · rw [hc,h.drop_self,ho.apart hx]
      · rw [h.drop_other hc]
        refine ho.outside fun y hy => hnot y ?_
        have hyx : y ≠ x := by
          rintro rfl
          exact hc (Option.some.inj (hy.symm.trans hx))
        rw [Function.update_of_ne hyx,hy]
    · by_cases hyx : y = x
      · simp [contents,hyx]
      · rw [contents,Function.update_of_ne hyx,Function.update_of_ne hyx,contents]
        cases hy : own y with
        | none => rfl
        | some c =>
          refine h.drop_other ?_
          rintro rfl
          exact hyx (ho.single hy hx)

end Blocks
