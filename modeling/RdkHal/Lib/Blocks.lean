import Mathlib.Logic.Function.Basic
import RdkHal.Lib.Text

/-! Strings in blocks of memory that are allocated one by one. -/

set_option autoImplicit false

namespace Blocks
open Text

abbrev Addr := Nat

/-- A block for so many characters, and the string that it holds. -/
structure Block where
  size : Nat
  text : Str
  deriving DecidableEq

structure Heap where
  block : Addr → Option Block
  brk : Nat
  bounded : ∀ a, brk ≤ a → block a = none

def Heap.empty : Heap := ⟨fun _ => none,0,fun _ _ => rfl⟩

def textAt (h : Heap) (p : Option Addr) : Option Str := (p.bind h.block).map Block.text

/-- An address that is not in use, and what is found there at first. -/
structure Fresh (h : Heap) where
  addr : Addr
  unused : h.block addr = none
  text : Str

def Heap.top (h : Heap) : Fresh h := ⟨h.brk,h.bounded h.brk (Nat.le_refl _),[]⟩

def Heap.put (h : Heap) (a : Addr) (b : Block) : Heap where
  block := Function.update h.block a (some b)
  brk := max h.brk (a+1)
  bounded c hc := by
    have hne : c ≠ a := by omega
    rw [Function.update_of_ne hne]
    exact h.bounded c (by omega)

def Heap.alloc (h : Heap) (new : Fresh h) (size : Nat) : Heap := h.put new.addr ⟨size,new.text⟩

/-- A string and its terminator stored in a block; `none` is a store behind its end. -/
def Heap.write (h : Heap) (a : Addr) (s : Str) : Option Heap :=
  match h.block a with
  | none => none
  | some b => if s.length < b.size then some (h.put a ⟨b.size,s⟩) else none

def Extends (h h' : Heap) : Prop := ∀ a, h.block a ≠ none → h'.block a = h.block a

@[simp] theorem Heap.put_self (h : Heap) (a : Addr) (b : Block) : (h.put a b).block a = some b := by
  simp [Heap.put]

theorem Heap.put_put (h : Heap) (a : Addr) (b c : Block) : (h.put a b).put a c = h.put a c := by
  simp [Heap.put,Function.update_idem]

theorem Heap.write_alloc (h : Heap) (new : Fresh h) {size : Nat} {s : Str} (hs : s.length < size) :
    (h.alloc new size).write new.addr s = some (h.put new.addr ⟨size,s⟩) := by
  rw [write,alloc,put_self]
  simp only [hs,if_true,put_put]

theorem Extends.refl (h : Heap) : Extends h h := fun _ _ => rfl

theorem Extends.trans {h h₁ h₂ : Heap} (hfirst : Extends h h₁) (hsecond : Extends h₁ h₂) :
    Extends h h₂ := by
  intro a ha
  rw [hsecond a (by rw [hfirst a ha]; exact ha),hfirst a ha]

theorem Extends.unused {h h' : Heap} (hext : Extends h h') {a : Addr} (ha : h'.block a = none) :
    h.block a = none := by
  by_contra huse
  exact huse ((hext a huse).symm.trans ha)

theorem Extends.textAt {h h' : Heap} (hext : Extends h h') {p : Option Addr}
    (hp : textAt h p ≠ none) : textAt h' p = textAt h p := by
  cases p with
  | none => rfl
  | some a =>
    have huse : h.block a ≠ none := by
      intro hnone
      simp [Blocks.textAt,hnone] at hp
    simp only [Blocks.textAt,Option.bind_some,hext a huse]

theorem extends_put {h : Heap} (new : Fresh h) (b : Block) : Extends h (h.put new.addr b) := by
  intro a ha
  have hne : a ≠ new.addr := by
    rintro rfl
    exact ha new.unused
  exact Function.update_of_ne hne _ _

theorem textAt_put (h : Heap) (a : Addr) (b : Block) : textAt (h.put a b) (some a) = some b.text := by
  simp [textAt]

end Blocks
