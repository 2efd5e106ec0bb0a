import Mathlib.Data.List.FinRange
import RdkHal.Lib.Blocks
import RdkHal.Platform

/-! The log of mta_hal.c: its table is copied as one block, and then each description on its own. -/

set_option autoImplicit false

namespace RdkHal.Mta
open Text Blocks

structure MtaLogFull where
  index : Nat
  eventID : Nat
  eventLevel : Str
  time : Str
  pDescription : Option Addr
  deriving DecidableEq

def MtaLogFull.zero : MtaLogFull := ⟨0,0,[],[],none⟩

def firstOf {α : Type} {n : Nat} (k : Nat) (s d : Vector α n) : Vector α n :=
  Vector.ofFn fun i => if i.val < k then s[i] else d[i]

/-- The functions of safec for blocks, on arrays of elements that are `zero` when they are cleared.
Sizes are counted in elements; that of the destination is the first argument. -/
structure SafecMem (α : Type) (zero : α) (n : Nat) where
  memsetS : Nat → Vector α n → Nat → Int × Vector α n
  memcpyS : Nat → Vector α n → Vector α n → Nat → Int × Vector α n
  memsetS_fits : ∀ dmax d k, k ≤ dmax → memsetS dmax d k = (0,firstOf k (Vector.replicate n zero) d)
  memcpyS_fits : ∀ dmax d s k, k ≤ dmax → memcpyS dmax d s k = (0,firstOf k s d)
  memcpyS_over : ∀ dmax d s k, dmax < k →
    (memcpyS dmax d s k).1 ≠ 0 ∧ (memcpyS dmax d s k).2 = firstOf dmax (Vector.replicate n zero) d

def SafecMem.reference (α : Type) (zero : α) (n : Nat) : SafecMem α zero n where
  memsetS dmax d k := if k ≤ dmax then (0,firstOf k (Vector.replicate n zero) d) else (403,d)
  memcpyS dmax d s k :=
    if k ≤ dmax then (0,firstOf k s d) else (403,firstOf dmax (Vector.replicate n zero) d)
  memsetS_fits dmax d k h := by simp [h]
  memcpyS_fits dmax d s k h := by simp [h]
  memcpyS_over dmax d s k h := by simp [Nat.not_le.mpr h]

theorem SafecMem.memcpyS_cleared {α : Type} {zero : α} {n : Nat} (mem : SafecMem α zero n)
    {dmax k : Nat} (hover : dmax < k) (d s : Vector α n) :
    (mem.memcpyS dmax (mem.memsetS n d n).2 s k).2 = Vector.replicate n zero := by
  rw [(mem.memcpyS_over dmax _ s k hover).2,mem.memsetS_fits n d n (Nat.le_refl n)]
  apply Vector.ext
  intro i hi
  simp [firstOf]

/-- What `malloc` answers: for the array NULL or what it holds at first, for each description
whether there is room for so many characters, and where. -/
structure Malloc where
  array : Option (Vector MtaLogFull 2)
  granted : Fin 2 → Nat → Bool
  place : Fin 2 → (h : Heap) → Fresh h

/-- The pointer that a round of the loop stores, of the one in the table. NULL is reported by
`strcpy_s`, and stays. `strcpy_s` is told of 64 characters, of which it stores the text alone. -/
def describe (lib : Safec) (M : Malloc) (i : Fin 2) (h : Heap) (pDescription : Option Addr) :
    Option (Option Addr × Heap) :=
  match pDescription with
  | none => some (none,h)
  | some a =>
    match textAt h (some a) with
    | none => none
    | some s =>
      if M.granted i (s.length+1) then
        let new := M.place i h
        ((h.alloc new (s.length+1)).write new.addr (lib.strcpyS 64 s).2).map
          fun h => (some new.addr,h)
      else some (none,h)

def describeAll (lib : Safec) (M : Malloc) (table : Vector MtaLogFull 2) :
    List (Fin 2) → Vector MtaLogFull 2 → Heap → Option (Vector MtaLogFull 2 × Heap)
  | [], conf, h => some (conf,h)
  | i :: is, conf, h =>
    match describe lib M i h table[i].pDescription with
    | none => none
    | some (p,h) => describeAll lib M table is (conf.set i { conf[i] with pDescription := p }) h

/-- The count and the array that the caller gets; `none` is the access to an array that is not
there, or to a description. -/
def mtaHalGetMtaLog (lib : Safec) (mem : SafecMem MtaLogFull MtaLogFull.zero 2) (M : Malloc)
    (mtaLog : Vector MtaLogFull 2) (h : Heap) : Option (Nat × Vector MtaLogFull 2 × Heap) :=
  match M.array with
  | none => none
  | some conf =>
    let conf := (mem.memsetS 2 conf 2).2
    let conf := (mem.memcpyS 1 conf mtaLog 2).2
    (describeAll lib M mtaLog (List.finRange 2) conf h).map fun (conf,h) => (2,conf,h)

def Live (h : Heap) (p : Option Addr) : Prop := p ≠ none → textAt h p ≠ none

/-- It can be copied: `strcpy_s` is told of 64 characters, whatever has been allocated. -/
def Copyable (M : Malloc) (i : Fin 2) (description : Option Str) : Prop :=
  ∀ s, description = some s → s.length < 64 ∧ M.granted i (s.length+1) = true

structure Describes (M : Malloc) (i : Fin 2) (h : Heap) (p q : Option Addr) (h' : Heap) : Prop where
  kept : Extends h h'
  new : ∀ a, q = some a → h.block a = none ∧ h'.block a ≠ none
  text : textAt h' q = textAt h p ↔ Copyable M i (textAt h p)

theorem describe_spec (lib : Safec) (M : Malloc) (i : Fin 2) {h : Heap} {p : Option Addr}
    (hp : Live h p) :
    ∃ q h', describe lib M i h p = some (q,h') ∧ Describes M i h p q h' := by
  cases p with
  | none => exact ⟨none,h,rfl,Extends.refl h,by simp,by simp [Copyable,textAt]⟩
  | some a =>
    obtain ⟨s,hs⟩ := Option.ne_none_iff_exists'.mp (hp (Option.some_ne_none a))
    by_cases hgranted : M.granted i (s.length+1) = true
    · -- the empty text, which is left of one that is too long, fits too
      have hfits : (lib.strcpyS 64 s).2.length < s.length+1 := by
        rw [lib.strcpyS_text]
        split <;> simp
      refine ⟨some (M.place i h).addr,h.put (M.place i h).addr ⟨s.length+1,(lib.strcpyS 64 s).2⟩,
        ?_,extends_put _ _,?_,?_⟩
      · simp only [describe,hs,hgranted,if_true,Heap.write_alloc h _ hfits,Option.map_some]
      · intro b hb
        cases hb
        exact ⟨(M.place i h).unused,by simp⟩
      · rw [textAt_put,hs,Option.some.injEq,lib.strcpyS_text]
        simp only [Copyable,Option.some.injEq,forall_eq',hgranted,and_true]
        by_cases hshort : s.length < 64
        · simp [hshort]
        · have hne : s ≠ [] := List.ne_nil_of_length_pos (by omega)
          simp [hshort,hne.symm]
    · refine ⟨none,h,?_,Extends.refl h,by simp,?_⟩
      · simp [describe,hs,hgranted]
      · rw [hs]
        exact iff_of_false (by simp [textAt]) (fun hcopy => hgranted (hcopy s rfl).2)

theorem live_of_use {h : Heap} {p : Option Addr} (huse : ∀ a, p = some a → h.block a ≠ none) :
    Live h p := by
  intro hp
  obtain ⟨a,rfl⟩ := Option.ne_none_iff_exists'.mp hp
  obtain ⟨b,hb⟩ := Option.ne_none_iff_exists'.mp (huse a rfl)
  simp [textAt,hb]

theorem Live.none_iff {h : Heap} {p : Option Addr} (hp : Live h p) : textAt h p = none ↔ p = none := by
  refine ⟨fun hnone => ?_,fun hnone => by rw [hnone]; rfl⟩
  by_contra hsome
  exact hp hsome hnone

theorem Live.mono {h h' : Heap} {p : Option Addr} (hp : Live h p) (hext : Extends h h') :
    textAt h' p = textAt h p := by
  cases p with
  | none => rfl
  | some a => exact hext.textAt (hp (Option.some_ne_none a))

structure Rounds (M : Malloc) (table : Vector MtaLogFull 2) (is : List (Fin 2)) (h : Heap)
    (conf : Vector MtaLogFull 2) (h' : Heap) (conf' : Vector MtaLogFull 2) : Prop where
  kept : Extends h h'
  fields : ∀ j : Fin 2, conf'[j] = { conf[j] with pDescription := conf'[j].pDescription }
  others : ∀ j : Fin 2, j ∉ is → conf'[j] = conf[j]
  new : ∀ j ∈ is, ∀ a, conf'[j].pDescription = some a → h.block a = none ∧ h'.block a ≠ none
  apart : ∀ i ∈ is, ∀ j ∈ is, ∀ a, conf'[i].pDescription = some a →
    conf'[j].pDescription = some a → i = j
  text : ∀ j ∈ is, textAt h' conf'[j].pDescription = textAt h table[j].pDescription ↔
    Copyable M j (textAt h table[j].pDescription)

theorem Rounds.cons {M : Malloc} {table conf conf' : Vector MtaLogFull 2} {i : Fin 2}
    {is : List (Fin 2)} (hi : i ∉ is) {h h₁ h' : Heap} {q : Option Addr}
    (hlive : ∀ j : Fin 2, Live h table[j].pDescription)
    (hfirst : Describes M i h table[i].pDescription q h₁)
    (hrest : Rounds M table is h₁ (conf.set i { conf[i] with pDescription := q }) h' conf') :
    Rounds M table (i :: is) h conf h' conf' := by
  have hset (j : Fin 2) : (conf.set i { conf[i] with pDescription := q })[j] =
      if i = j then { conf[i] with pDescription := q } else conf[j] := by
    simp [Vector.getElem_set,Fin.ext_iff]
  have hq : conf'[i].pDescription = q := by
    rw [hrest.others i hi,hset i,if_pos rfl]
  refine ⟨hfirst.kept.trans hrest.kept,fun j => ?_,fun j hj => ?_,fun j hj a ha => ?_,
    fun j hj k hk a ha hb => ?_,fun j hj => ?_⟩
  · have hfields := hrest.fields j
    rw [hset j] at hfields
    rw [hfields]
    by_cases hij : i = j
    · subst hij
      rw [if_pos rfl]
    · rw [if_neg hij]
  · rw [List.mem_cons,not_or] at hj
    rw [hrest.others j hj.2,hset j,if_neg (Ne.symm hj.1)]
  · rcases List.mem_cons.mp hj with rfl | hj
    · obtain ⟨hunused,huse⟩ := hfirst.new a (hq.symm.trans ha)
      exact ⟨hunused,by rw [hrest.kept a huse]; exact huse⟩
    · obtain ⟨hunused,huse⟩ := hrest.new j hj a ha
      exact ⟨hfirst.kept.unused hunused,huse⟩
  · -- the address that this round takes is in use in the next ones
    have hclash (l : Fin 2) (hl : l ∈ is) (hi : conf'[i].pDescription = some a)
        (hla : conf'[l].pDescription = some a) : False :=
      (hfirst.new a (hq.symm.trans hi)).2 (hrest.new l hl a hla).1
    rcases List.mem_cons.mp hj with rfl | hjs
    · rcases List.mem_cons.mp hk with rfl | hks
      · rfl
      · exact (hclash k hks ha hb).elim
    · rcases List.mem_cons.mp hk with rfl | hks
      · exact (hclash j hjs hb ha).elim
      · exact hrest.apart j hjs k hks a ha hb
  · rcases List.mem_cons.mp hj with rfl | hj
    · have hdescription : Live h₁ q := live_of_use fun a ha => (hfirst.new a ha).2
      rw [hq,hdescription.mono hrest.kept]
      exact hfirst.text
    · have htext := hrest.text j hj
      rw [(hlive j).mono hfirst.kept] at htext
      exact htext

theorem describeAll_spec (lib : Safec) (M : Malloc) {table : Vector MtaLogFull 2}
    {is : List (Fin 2)} (hdistinct : is.Nodup) {h : Heap}
    (hlive : ∀ j : Fin 2, Live h table[j].pDescription) (conf : Vector MtaLogFull 2) :
    ∃ conf' h', describeAll lib M table is conf h = some (conf',h') ∧
      Rounds M table is h conf h' conf' := by
  induction is generalizing h conf with
  | nil => exact ⟨conf,h,rfl,Extends.refl h,fun _ => rfl,fun _ _ => rfl,by simp,by simp,by simp⟩
  | cons i is ih =>
    obtain ⟨hi,hdistinct⟩ := List.nodup_cons.mp hdistinct
    obtain ⟨q,h₁,hdescribe,hfirst⟩ := describe_spec lib M i (hlive i)
    have hlive₁ : ∀ j : Fin 2, Live h₁ table[j].pDescription := by
      intro j hj
      rw [(hlive j).mono hfirst.kept]
      exact hlive j hj
    obtain ⟨conf',h',hrest,hrounds⟩ :=
      ih hdistinct hlive₁ (conf.set i { conf[i] with pDescription := q })
    refine ⟨conf',h',?_,hrounds.cons hi hlive hfirst⟩
    rw [describeAll,hdescribe]
    exact hrest

structure MtaTable (h : Heap) where
  entries : Vector MtaLogFull 2
  live : ∀ i : Fin 2, Live h entries[i].pDescription

/-- The fields of the one are those of the other, and each description is a string of its own. -/
structure DeepCopy (h : Heap) (mtaLog : Vector MtaLogFull 2) (h' : Heap)
    (conf : Vector MtaLogFull 2) : Prop where
  fields : ∀ i : Fin 2, conf[i] = { mtaLog[i] with pDescription := conf[i].pDescription }
  null : ∀ i : Fin 2, conf[i].pDescription = none ↔ mtaLog[i].pDescription = none
  text : ∀ i : Fin 2, textAt h' conf[i].pDescription = textAt h mtaLog[i].pDescription
  fresh : ∀ (i : Fin 2) (a : Addr), conf[i].pDescription = some a → h.block a = none
  apart : ∀ (i j : Fin 2) (a : Addr), conf[i].pDescription = some a →
    conf[j].pDescription = some a → i = j

/-- The table is copied exactly where there is room for all of it, its other fields are empty (the
block is said to have one entry, and is cleared instead), and no description has 64 characters. -/
theorem mtaHalGetMtaLog_copies_iff (lib : Safec) (mem : SafecMem MtaLogFull MtaLogFull.zero 2)
    (M : Malloc) {h : Heap} (mtaLog : MtaTable h) :
    (∃ conf h', mtaHalGetMtaLog lib mem M mtaLog.entries h = some (2,conf,h') ∧
      DeepCopy h mtaLog.entries h' conf) ↔
    M.array ≠ none ∧ ∀ i : Fin 2,
      mtaLog.entries[i] =
        { MtaLogFull.zero with pDescription := mtaLog.entries[i].pDescription } ∧
      Copyable M i (textAt h mtaLog.entries[i].pDescription) := by
  cases harray : M.array with
  | none => simp [mtaHalGetMtaLog,harray]
  | some old =>
    obtain ⟨conf,h',hloop,hrounds⟩ := describeAll_spec lib M (List.nodup_finRange 2) mtaLog.live
      (Vector.replicate 2 MtaLogFull.zero)
    have hcall : mtaHalGetMtaLog lib mem M mtaLog.entries h = some (2,conf,h') := by
      simp only [mtaHalGetMtaLog,harray,mem.memcpyS_cleared (show 1 < 2 by decide),hloop,
        Option.map_some]
    have hfields (i : Fin 2) :
        conf[i] = { MtaLogFull.zero with pDescription := conf[i].pDescription } := by
      simpa using hrounds.fields i
    constructor
    · rintro ⟨conf₁,h₁,hcall₁,hcopy⟩
      obtain ⟨_,rfl,rfl⟩ : 2 = 2 ∧ conf = conf₁ ∧ h' = h₁ := by simpa [hcall] using hcall₁
      refine ⟨by simp,fun i => ⟨?_,(hrounds.text i (List.mem_finRange i)).mp (hcopy.text i)⟩⟩
      have hsame := (hfields i).symm.trans (hcopy.fields i)
      exact (congrArg (fun e => { e with pDescription := mtaLog.entries[i].pDescription }) hsame).symm
    · rintro ⟨_,hall⟩
      have htext (i : Fin 2) := (hrounds.text i (List.mem_finRange i)).mpr (hall i).2
      refine ⟨conf,h',hcall,fun i => ?_,fun i => ?_,htext,
        fun i a ha => (hrounds.new i (List.mem_finRange i) a ha).1,
        fun i j => hrounds.apart i (List.mem_finRange i) j (List.mem_finRange j)⟩
      · rw [(hall i).1]
        exact hfields i
      · have hlive : Live h' conf[i].pDescription :=
          live_of_use fun a ha => (hrounds.new i (List.mem_finRange i) a ha).2
        rw [← hlive.none_iff,htext i,(mtaLog.live i).none_iff]

def shippedHeap : Heap :=
  (Heap.empty.put 0 ⟨26,"this is a log for matLog1".toList⟩).put 1
    ⟨26,"this is a log for matLog2".toList⟩

def shippedTable : MtaTable shippedHeap where
  entries := #v[⟨1,1,"1".toList,"1998-05-14".toList,some 0⟩,⟨2,2,"2".toList,"1998-05-14".toList,some 1⟩]
  live i := by
    match i with
    | 0 => exact fun _ => by decide
    | 1 => exact fun _ => by decide

def generous : Malloc where
  array := some (Vector.replicate 2 MtaLogFull.zero)
  granted _ _ := true
  place _ h := h.top

theorem mtaHalGetMtaLog_shipped :
    ¬∃ conf h', mtaHalGetMtaLog Safec.reference (SafecMem.reference _ _ 2) generous
        shippedTable.entries shippedHeap = some (2,conf,h') ∧
      DeepCopy shippedHeap shippedTable.entries h' conf := by
  rintro ⟨conf,h',hcall,hcopy⟩
  have hindex : (mtaHalGetMtaLog Safec.reference (SafecMem.reference _ _ 2) generous
      shippedTable.entries shippedHeap).map (fun r => r.2.1[0].index) = some 0 := by
    decide +kernel
  rw [hcall] at hindex
  have hone : conf[0].index = 1 := congrArg MtaLogFull.index (hcopy.fields 0)
  rw [Option.map_some,Option.some.injEq,hone] at hindex
  exact absurd hindex (by decide)

end RdkHal.Mta
