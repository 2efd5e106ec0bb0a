import RdkHal.Lib.Machines
import RdkHal.Lib.Owners
import RdkHal.Mta.Logs

/-! The copies of the log in the hands of several callers, who write into them and give them back:
whose memory is whose over whole runs. -/

set_option autoImplicit false

namespace RdkHal.Mta
open Text Blocks Runs

variable {κ ι : Type}

/-- The block for the copy of a description. One that is too long for `strcpy_s` is left empty. -/
def copied (M : Malloc) (i : Fin 2) (description : Option Str) : Option Block :=
  description.bind fun s =>
    if M.granted i (s.length+1) then some ⟨s.length+1,if s.length < 64 then s else []⟩ else none

theorem describe_owns [DecidableEq ι] (lib : Safec) (M : Malloc) (i : Fin 2) {h : Heap}
    {frame : Addr → Option Block} {own : ι → Option Addr} (ho : Owns h frame own) {x : ι}
    (hx : own x = none) {p : Option Addr} (hp : Live h p) :
    ∃ q h', describe lib M i h p = some (q,h') ∧ Owns h' frame (Function.update own x q) ∧
      contents h' (Function.update own x q) =
        Function.update (contents h own) x (copied M i (textAt h p)) := by
  have hkeep : Owns h frame (Function.update own x none) ∧
      contents h (Function.update own x none) = Function.update (contents h own) x none := by
    obtain ⟨h',hfree,hkept⟩ := ho.free x
    rw [hx] at hfree
    cases hfree
    exact hkept
  cases p with
  | none => exact ⟨none,h,rfl,hkeep⟩
  | some a =>
    obtain ⟨s,hs⟩ := Option.ne_none_iff_exists'.mp (hp (Option.some_ne_none a))
    rw [hs]
    by_cases hgranted : M.granted i (s.length+1) = true
    · have hfits : (lib.strcpyS 64 s).2.length < s.length+1 := by
        rw [lib.strcpyS_text]
        split <;> simp
      have hnew := ho.alloc hx (M.place i h) ⟨s.length+1,if s.length < 64 then s else []⟩
      rw [copied,Option.bind_some,if_pos hgranted]
      refine ⟨_,_,?_,hnew⟩
      have hwrite := Heap.write_alloc h (M.place i h) hfits
      rw [lib.strcpyS_text] at hwrite
      simp only [describe,hs,hgranted,if_true,lib.strcpyS_text,hwrite,Option.map_some]
    · refine ⟨none,h,?_,?_⟩
      · simp [describe,hs,hgranted]
      · rw [copied,Option.bind_some,if_neg hgranted]
        exact hkeep

structure Process (κ : Type) where
  heap : Heap
  held : κ → Option (Vector MtaLogFull 2)

structure MtaEntry where
  index : Nat
  eventID : Nat
  eventLevel : Str
  time : Str
  description : Option Block
  deriving DecidableEq

def entryAt (h : Heap) (e : MtaLogFull) : MtaEntry :=
  ⟨e.index,e.eventID,e.eventLevel,e.time,e.pDescription.bind h.block⟩

def descriptionOf (array : Option (Vector MtaLogFull 2)) (i : Fin 2) : Option Addr :=
  array.bind fun conf => (conf.get i).pDescription

def pointer (held : κ → Option (Vector MtaLogFull 2)) (x : κ × Fin 2) : Option Addr :=
  descriptionOf (held x.1) x.2

def Process.view (p : Process κ) (k : κ) : Option (Vector MtaEntry 2) :=
  (p.held k).map fun conf => conf.map (entryAt p.heap)

theorem get_entryAt {h : Heap} (conf : Vector MtaLogFull 2) (i : Fin 2) :
    (conf.map (entryAt h)).get i = entryAt h (conf.get i) :=
  Vector.getElem_map (entryAt h) i.isLt

theorem view_description {p : Process κ} {k : κ} {log : Vector MtaEntry 2}
    (hlog : p.view k = some log) (i : Fin 2) :
    (log.get i).description = contents p.heap (pointer p.held) (k,i) := by
  obtain ⟨conf,hconf,rfl⟩ := Option.map_eq_some_iff.mp hlog
  rw [get_entryAt,contents,pointer,hconf]
  rfl

theorem view_congr {p p' : Process κ} {k : κ} (hheld : p'.held k = p.held k)
    (hcontents : ∀ i : Fin 2, contents p'.heap (pointer p'.held) (k,i) =
      contents p.heap (pointer p.held) (k,i)) : p'.view k = p.view k := by
  rw [Process.view,Process.view,hheld]
  cases hconf : p.held k with
  | none => rfl
  | some conf =>
    refine congrArg some (Vector.ext fun i hi => ?_)
    have hblock := hcontents ⟨i,hi⟩
    rw [contents,contents,pointer,pointer,hheld,hconf] at hblock
    simp only [Vector.getElem_map,entryAt]
    exact congrArg _ hblock

abbrev Copies (κ : Type) := κ → Option (Vector MtaEntry 2)

/-- The memory holds these copies, and besides them what is in the frame. -/
structure Process.Keeps (p : Process κ) (frame : Addr → Option Block) (t : Copies κ) : Prop where
  view : p.view = t
  owns : Owns p.heap frame (pointer p.held)

theorem Process.Keeps.start (h₀ : Heap) :
    (⟨h₀,fun _ => none⟩ : Process κ).Keeps h₀.block (fun _ => none) :=
  ⟨rfl,Owns.start h₀⟩

inductive Act (κ : Type) where
  | getMtaLog (k : κ) (M : Malloc)
  | overwrite (k : κ) (i : Fin 2) (s : Str)
  | read (k : κ)
  | release (k : κ)

def Act.caller : Act κ → κ
  | getMtaLog k _ | overwrite k _ _ | read k | release k => k

inductive Answer where
  | fault
  | done
  | log (count : Nat) (entries : Vector MtaEntry 2)
  deriving DecidableEq

variable [DecidableEq κ]

def Process.step (lib : Safec) (mem : SafecMem MtaLogFull MtaLogFull.zero 2)
    (mtaLog : Vector MtaLogFull 2) (p : Process κ) : Act κ → Answer × Process κ
  | .getMtaLog k M =>
    match mtaHalGetMtaLog lib mem M mtaLog p.heap with
    | none => (.fault,p)
    | some (count,conf,h) =>
      (.log count (conf.map (entryAt h)),⟨h,Function.update p.held k (some conf)⟩)
  | .overwrite k i s =>
    match (pointer p.held (k,i)).bind fun a => p.heap.write a s with
    | none => (.fault,p)
    | some h => (.done,⟨h,p.held⟩)
  | .read k =>
    match p.view k with
    | none => (.fault,p)
    | some entries => (.log 2 entries,p)
  | .release k =>
    match (p.heap.free (pointer p.held (k,0))).bind fun h => h.free (pointer p.held (k,1)) with
    | none => (.fault,p)
    | some h => (.done,⟨h,Function.update p.held k none⟩)

def copy (M : Malloc) (descriptions : Fin 2 → Option Str) : Vector MtaEntry 2 :=
  Vector.ofFn fun i => ⟨0,0,[],[],copied M i (descriptions i)⟩

def describedAs (log : Vector MtaEntry 2) (i : Fin 2) (s : Str) : Vector MtaEntry 2 :=
  Vector.ofFn fun j =>
    if j = i then { log.get j with description := (log.get j).description.map fun b => ⟨b.size,s⟩ }
    else log.get j

theorem get_describedAs (log : Vector MtaEntry 2) (i j : Fin 2) (s : Str) :
    (describedAs log i s).get j = if j = i then
      { log.get j with description := (log.get j).description.map fun b => ⟨b.size,s⟩ }
    else log.get j :=
  Vector.getElem_ofFn j.isLt

def Copies.step (descriptions : Fin 2 → Option Str) (t : Copies κ) : Act κ → Answer × Copies κ
  | .getMtaLog k M =>
    (.log 2 (copy M descriptions),Function.update t k (some (copy M descriptions)))
  | .overwrite k i s => (.done,Function.update t k ((t k).map fun c => describedAs c i s))
  | .read k => ((t k).elim .fault (.log 2),t)
  | .release k => (.done,Function.update t k none)

/-- A caller gives a copy back before it calls again, and stays within its own. There is memory
for the array. -/
def Admitted (t : Copies κ) : Act κ → Prop
  | .getMtaLog k M => M.array ≠ none ∧ t k = none
  | .overwrite k i s => ∃ log ∈ t k, ∃ b ∈ (log.get i).description, s.length < b.size
  | .read k | .release k => t k ≠ none

instance (t : Copies κ) (act : Act κ) : Decidable (Admitted t act) :=
  match act with
  | .getMtaLog k M => inferInstanceAs (Decidable (M.array ≠ none ∧ t k = none))
  | .overwrite k i s =>
    inferInstanceAs (Decidable (∃ log ∈ t k, ∃ b ∈ (log.get i).description, s.length < b.size))
  | .read k | .release k => inferInstanceAs (Decidable (t k ≠ none))

theorem pointer_update (held : κ → Option (Vector MtaLogFull 2)) (k : κ)
    (c : Option (Vector MtaLogFull 2)) :
    pointer (Function.update held k c) = Function.update (Function.update (pointer held) (k,0)
      (descriptionOf c 0)) (k,1) (descriptionOf c 1) := by
  funext ⟨j,i⟩
  by_cases hj : j = k
  · subst hj
    revert i
    exact Fin.forall_fin_two.mpr ⟨by simp [pointer],by simp [pointer]⟩
  · simp [pointer,hj]

def MtaTable.descriptions {h : Heap} (mtaLog : MtaTable h) (i : Fin 2) : Option Str :=
  textAt h (mtaLog.entries.get i).pDescription

def filled (p q : Option Addr) : Vector MtaLogFull 2 :=
  #v[{ MtaLogFull.zero with pDescription := p },{ MtaLogFull.zero with pDescription := q }]

theorem mtaHalGetMtaLog_owns (lib : Safec) (mem : SafecMem MtaLogFull MtaLogFull.zero 2)
    {M : Malloc} (harray : M.array ≠ none) {h₀ : Heap} (mtaLog : MtaTable h₀) {h : Heap}
    {own : κ × Fin 2 → Option Addr} (ho : Owns h h₀.block own) {k : κ}
    (hk : ∀ i, own (k,i) = none) :
    ∃ p q h', mtaHalGetMtaLog lib mem M mtaLog.entries h = some (2,filled p q,h') ∧
      Owns h' h₀.block (Function.update (Function.update own (k,0) p) (k,1) q) ∧
      contents h' (Function.update (Function.update own (k,0) p) (k,1) q) =
        Function.update (Function.update (contents h own) (k,0)
          (copied M 0 (mtaLog.descriptions 0))) (k,1)
          (copied M 1 (mtaLog.descriptions 1)) := by
  obtain ⟨old,hold⟩ := Option.ne_none_iff_exists'.mp harray
  -- what the table points to is in the frame
  have htext {h : Heap} {own : κ × Fin 2 → Option Addr} (ho : Owns h h₀.block own) (i : Fin 2) :
      textAt h mtaLog.entries[i].pDescription = textAt h₀ mtaLog.entries[i].pDescription :=
    (mtaLog.live i).mono (fun _ ha => ho.framed ha)
  have hlive {h : Heap} {own : κ × Fin 2 → Option Addr} (ho : Owns h h₀.block own) (i : Fin 2) :
      Live h mtaLog.entries[i].pDescription := by
    intro hp
    rw [htext ho i]
    exact mtaLog.live i hp
  obtain ⟨p,h₁,hfirst,ho₁,hc₁⟩ := describe_owns lib M 0 ho (hk 0) (hlive ho 0)
  have hk₁ : Function.update own (k,0) p (k,1) = none := by simp [hk 1]
  obtain ⟨q,h₂,hsecond,ho₂,hc₂⟩ := describe_owns lib M 1 ho₁ hk₁ (hlive ho₁ 1)
  rw [hc₁,htext ho 0,htext ho₁ 1] at hc₂
  refine ⟨p,q,h₂,?_,ho₂,hc₂⟩
  have hrange : List.finRange 2 = [0,1] := rfl
  simp only [mtaHalGetMtaLog,hold,mem.memcpyS_cleared (show 1 < 2 by decide),hrange,describeAll,
    hfirst,hsecond,Option.map_some]
  rfl

namespace Process.Keeps

variable {p : Process κ} {frame : Addr → Option Block} {t : Copies κ}

theorem change (h : p.Keeps frame t) {p' : Process κ} {k : κ}
    (hheld : ∀ j, j ≠ k → p'.held j = p.held j)
    (howns : Owns p'.heap frame (pointer p'.held))
    (hcontents : ∀ j, j ≠ k → ∀ i : Fin 2, contents p'.heap (pointer p'.held) (j,i) =
      contents p.heap (pointer p.held) (j,i)) {c : Option (Vector MtaEntry 2)}
    (hc : p'.view k = c) : p'.Keeps frame (Function.update t k c) := by
  refine ⟨funext fun j => ?_,howns⟩
  by_cases hj : j = k
  · rw [hj,Function.update_self,hc]
  · rw [Function.update_of_ne hj,view_congr (hheld j hj) (hcontents j hj),h.view]

theorem getMtaLog (lib : Safec) (mem : SafecMem MtaLogFull MtaLogFull.zero 2) {h₀ : Heap}
    (mtaLog : MtaTable h₀) (h : p.Keeps h₀.block t) {k : κ} {M : Malloc}
    (hadm : Admitted t (.getMtaLog k M)) :
    ∃ p', p.step lib mem mtaLog.entries (.getMtaLog k M) =
        (.log 2 (copy M mtaLog.descriptions),p') ∧
      p'.Keeps h₀.block (Function.update t k (some (copy M mtaLog.descriptions))) := by
  obtain ⟨harray,hnone⟩ := hadm
  have hheld : p.held k = none := Option.map_eq_none_iff.mp ((congrFun h.view k).trans hnone)
  obtain ⟨a,b,h',hcall,howns,hcontents⟩ :=
    mtaHalGetMtaLog_owns lib mem harray mtaLog h.owns (k := k)
      (fun i => by simp [pointer,hheld,descriptionOf])
  have hpointer : pointer (Function.update p.held k (some (filled a b))) =
      Function.update (Function.update (pointer p.held) (k,0) a) (k,1) b := pointer_update ..
  have hfirst : a.bind h'.block = copied M 0 (mtaLog.descriptions 0) := by
    simpa [contents] using congrFun hcontents (k,0)
  have hsecond : b.bind h'.block = copied M 1 (mtaLog.descriptions 1) := by
    simpa [contents] using congrFun hcontents (k,1)
  have hcopy : (filled a b).map (entryAt h') = copy M mtaLog.descriptions := by
    have hall : ∀ i : Fin 2, ((filled a b).map (entryAt h'))[i] = (copy M mtaLog.descriptions)[i] :=
      Fin.forall_fin_two.mpr ⟨by simp [filled,copy,entryAt,MtaLogFull.zero,hfirst],
        by simp [filled,copy,entryAt,MtaLogFull.zero,hsecond]⟩
    exact Vector.ext fun i hi => hall ⟨i,hi⟩
  refine ⟨⟨h',Function.update p.held k (some (filled a b))⟩,?_,h.change (k := k) ?_ ?_ ?_ ?_⟩
  · simp only [step,hcall,hcopy]
  · exact fun j hj => Function.update_of_ne hj ..
  · rw [hpointer]
    exact howns
  · intro j hj i
    rw [hpointer,hcontents]
    simp [hj]
  · simp [Process.view,hcopy]

theorem overwrite (lib : Safec) (mem : SafecMem MtaLogFull MtaLogFull.zero 2)
    (mtaLog : Vector MtaLogFull 2) (h : p.Keeps frame t) {k : κ} {i : Fin 2} {s : Str}
    (hadm : Admitted t (.overwrite k i s)) :
    ∃ p', p.step lib mem mtaLog (.overwrite k i s) = (.done,p') ∧
      p'.Keeps frame (Function.update t k ((t k).map fun c => describedAs c i s)) := by
  obtain ⟨c,hc,b,hb,hroom⟩ := hadm
  have hview : p.view k = some c := (congrFun h.view k).trans hc
  have hblock := view_description hview i
  rw [hb,contents,eq_comm,Option.bind_eq_some_iff] at hblock
  obtain ⟨a,ha,hblock⟩ := hblock
  have hwrite : p.heap.write a s = some (p.heap.put a ⟨b.size,s⟩) := by
    simp only [Heap.write,hblock,if_pos hroom]
  obtain ⟨howns,hcontents⟩ := h.owns.write ha ⟨b.size,s⟩
  refine ⟨⟨p.heap.put a ⟨b.size,s⟩,p.held⟩,?_,h.change (k := k) ?_ ?_ ?_ ?_⟩
  · simp only [step,ha,Option.bind_some,hwrite]
  · exact fun _ _ => rfl
  · exact howns
  · intro j hj l
    rw [hcontents]
    simp [hj]
  · obtain ⟨conf,hconf,rfl⟩ := Option.map_eq_some_iff.mp hview
    rw [Option.mem_def.mp hc,Process.view,hconf]
    have hblock (h' : Heap) (j : Fin 2) : contents h' (pointer p.held) (k,j) =
        (conf.get j).pDescription.bind h'.block := by
      rw [contents,pointer,hconf]
      rfl
    have hall (j : Fin 2) : (conf.map (entryAt (p.heap.put a ⟨b.size,s⟩))).get j =
        (describedAs (conf.map (entryAt p.heap)) i s).get j := by
      have hafter := congrFun hcontents (k,j)
      rw [get_describedAs,get_entryAt,get_entryAt]
      by_cases hji : j = i
      · subst hji
        rw [hblock,Function.update_self] at hafter
        rw [get_entryAt] at hb
        have hheld : (conf.get j).pDescription.bind p.heap.block = some b := hb
        simp only [if_true,entryAt,hafter,hheld,Option.map_some]
      · have hne : (k,j) ≠ (k,i) := fun h => hji (Prod.mk.inj h).2
        rw [Function.update_of_ne hne,hblock,hblock] at hafter
        simp only [if_neg hji,entryAt,hafter]
    exact congrArg some (Vector.ext fun l hl => hall ⟨l,hl⟩)

theorem release (lib : Safec) (mem : SafecMem MtaLogFull MtaLogFull.zero 2)
    (mtaLog : Vector MtaLogFull 2) (h : p.Keeps frame t) (k : κ) :
    ∃ p', p.step lib mem mtaLog (.release k) = (.done,p') ∧
      p'.Keeps frame (Function.update t k none) := by
  obtain ⟨h₁,hfirst,ho₁,hc₁⟩ := h.owns.free (k,0)
  have hother : Function.update (pointer p.held) (k,0) none (k,1) = pointer p.held (k,1) := by simp
  obtain ⟨h₂,hsecond,ho₂,hc₂⟩ := ho₁.free (k,1)
  rw [hother] at hsecond
  rw [hc₁] at hc₂
  have hpointer : pointer (Function.update p.held k none) =
      Function.update (Function.update (pointer p.held) (k,0) none) (k,1) none := pointer_update ..
  refine ⟨⟨h₂,Function.update p.held k none⟩,?_,h.change (k := k) ?_ ?_ ?_ ?_⟩
  · simp only [step,hfirst,Option.bind_some,hsecond]
  · exact fun j hj => Function.update_of_ne hj ..
  · rw [hpointer]
    exact ho₂
  · intro j hj i
    rw [hpointer,hc₂]
    simp [hj]
  · simp [Process.view]

theorem step (lib : Safec) (mem : SafecMem MtaLogFull MtaLogFull.zero 2) {h₀ : Heap}
    (mtaLog : MtaTable h₀) (h : p.Keeps h₀.block t) {act : Act κ} (hadm : Admitted t act) :
    (t.step mtaLog.descriptions act).1 = (p.step lib mem mtaLog.entries act).1 ∧
      (p.step lib mem mtaLog.entries act).2.Keeps h₀.block
        (t.step mtaLog.descriptions act).2 := by
  cases act with
  | getMtaLog k M =>
    obtain ⟨p',hstep,hkeeps⟩ := h.getMtaLog lib mem mtaLog hadm
    rw [hstep]
    exact ⟨rfl,hkeeps⟩
  | overwrite k i s =>
    obtain ⟨p',hstep,hkeeps⟩ := h.overwrite lib mem mtaLog.entries hadm
    rw [hstep]
    exact ⟨rfl,hkeeps⟩
  | read k =>
    obtain ⟨c,hc⟩ := Option.ne_none_iff_exists'.mp hadm
    have hview : p.view k = some c := (congrFun h.view k).trans hc
    simp only [Process.step,Copies.step,hview,hc]
    exact ⟨rfl,h⟩
  | release k =>
    obtain ⟨p',hstep,hkeeps⟩ := h.release lib mem mtaLog.entries k
    rw [hstep]
    exact ⟨rfl,hkeeps⟩

theorem run (lib : Safec) (mem : SafecMem MtaLogFull MtaLogFull.zero 2) {h₀ : Heap}
    (mtaLog : MtaTable h₀) (h : p.Keeps h₀.block t) {acts : List (Act κ)}
    (hacts : Along (next (Copies.step mtaLog.descriptions)) Admitted t acts) :
    answers (Process.step lib mem mtaLog.entries) p acts =
        answers (Copies.step mtaLog.descriptions) t acts ∧
      (Runs.run (next (Process.step lib mem mtaLog.entries)) p acts).Keeps h₀.block
        (Runs.run (next (Copies.step mtaLog.descriptions)) t acts) := by
  have hstep : ∀ (t : Copies κ) (p : Process κ) (act : Act κ), p.Keeps h₀.block t →
      Admitted t act → (t.step mtaLog.descriptions act).1 = (p.step lib mem mtaLog.entries act).1 ∧
        (p.step lib mem mtaLog.entries act).2.Keeps h₀.block (t.step mtaLog.descriptions act).2 :=
    fun _ _ _ h hadm => h.step lib mem mtaLog hadm
  obtain ⟨hanswers,hend⟩ := refines hstep h hacts
  exact ⟨hanswers.symm,hend⟩

end Process.Keeps

/-- While callers write into their copies and give them back, each finds in its own what it was
given and what it has written. No access goes astray, no description is lost or given back twice,
and when all are back the memory is as it was. -/
theorem run_keeps_copies (lib : Safec) (mem : SafecMem MtaLogFull MtaLogFull.zero 2) {h₀ : Heap}
    (mtaLog : MtaTable h₀) {acts : List (Act κ)}
    (hacts : Along (next (Copies.step mtaLog.descriptions)) Admitted (fun _ => none) acts) :
    let start : Process κ := ⟨h₀,fun _ => none⟩
    let p := run (next (Process.step lib mem mtaLog.entries)) start acts
    answers (Process.step lib mem mtaLog.entries) start acts =
        answers (Copies.step mtaLog.descriptions) (fun _ => none) acts ∧
      Answer.fault ∉ answers (Process.step lib mem mtaLog.entries) start acts ∧
      p.view = run (next (Copies.step mtaLog.descriptions)) (fun _ => none) acts ∧
      Owns p.heap h₀.block (pointer p.held) ∧
      ((∀ k, p.held k = none) → p.heap.block = h₀.block) := by
  intro start p
  obtain ⟨hanswers,hend⟩ := (Process.Keeps.start (κ := κ) h₀).run lib mem mtaLog hacts
  have hfault : ∀ (t : Copies κ) (act : Act κ), Admitted t act →
      (t.step mtaLog.descriptions act).1 ≠ .fault := by
    intro t act hadm
    cases act with
    | read k =>
      obtain ⟨c,hc⟩ := Option.ne_none_iff_exists'.mp hadm
      simp [Copies.step,hc]
    | getMtaLog k M => exact fun h => by cases h
    | overwrite k i s => exact fun h => by cases h
    | release k => exact fun h => by cases h
  refine ⟨hanswers,?_,hend.view,hend.owns,fun hnone => hend.owns.gone fun x => ?_⟩
  · rw [hanswers]
    exact fun h => answers_along (P := fun b => b ≠ .fault) hfault hacts _ h rfl
  · rw [pointer,hnone]
    rfl

def twoCallers : List (Act Bool) :=
  [.getMtaLog false generous,.getMtaLog true generous,.overwrite false 0 "seen".toList,.read true,
    .release false,.getMtaLog false generous,.read false]

def shippedStep : Process Bool → Act Bool → Answer × Process Bool :=
  Process.step Safec.reference (SafecMem.reference _ _ 2) shippedTable.entries

theorem run_keeps_copies_twoCallers :
    let start : Process Bool := ⟨shippedHeap,fun _ => none⟩
    let p := run (next shippedStep) start twoCallers
    answers shippedStep start twoCallers =
        answers (Copies.step shippedTable.descriptions) (fun _ => none) twoCallers ∧
      Answer.fault ∉ answers shippedStep start twoCallers ∧
      p.view = run (next (Copies.step shippedTable.descriptions)) (fun _ => none) twoCallers ∧
      Owns p.heap shippedHeap.block (pointer p.held) ∧
      ((∀ k, p.held k = none) → p.heap.block = shippedHeap.block) :=
  run_keeps_copies Safec.reference (SafecMem.reference _ _ 2) shippedTable (by decide +kernel)

/-! One caller among others -/

theorem Copies.step_local (descriptions : Fin 2 → Option Str) {t t' : Copies κ} {act : Act κ}
    (h : t act.caller = t' act.caller) :
    (t.step descriptions act).1 = (t'.step descriptions act).1 ∧
      (t.step descriptions act).2 act.caller = (t'.step descriptions act).2 act.caller ∧
      (Admitted t act → Admitted t' act) := by
  cases act with
  | getMtaLog k M =>
    rw [Act.caller] at h
    simp [Copies.step,Act.caller,Admitted,h]
  | overwrite k i s =>
    rw [Act.caller] at h
    simp [Copies.step,Act.caller,Admitted,h]
  | read k =>
    rw [Act.caller] at h
    simp [Copies.step,Act.caller,Admitted,h]
  | release k =>
    rw [Act.caller] at h
    simp [Copies.step,Act.caller,Admitted,h]

theorem Copies.step_other (descriptions : Fin 2 → Option Str) (t : Copies κ) {act : Act κ} {k : κ}
    (hk : k ≠ act.caller) : (t.step descriptions act).2 k = t k := by
  cases act with
  | read j => rfl
  | getMtaLog j M => exact Function.update_of_ne hk ..
  | overwrite j i s => exact Function.update_of_ne hk ..
  | release j => exact Function.update_of_ne hk ..

def Copies.Alike (mine : κ → Bool) (t t' : Copies κ) : Prop := ∀ k, mine k = true → t k = t' k

variable {mine : κ → Bool} {t t' : Copies κ} {act : Act κ}

theorem Copies.Alike.own (h : t.Alike mine t') (descriptions : Fin 2 → Option Str)
    (hact : mine act.caller = true) :
    (t.step descriptions act).1 = (t'.step descriptions act).1 ∧
      Copies.Alike mine (t.step descriptions act).2 (t'.step descriptions act).2 ∧
      (Admitted t act → Admitted t' act) := by
  obtain ⟨hanswer,hcaller,hadmitted⟩ := Copies.step_local descriptions (h _ hact)
  refine ⟨hanswer,fun k hk => ?_,hadmitted⟩
  by_cases hk' : k = act.caller
  · rw [hk']
    exact hcaller
  · rw [t.step_other _ hk',t'.step_other _ hk']
    exact h k hk

theorem Copies.Alike.other (h : t.Alike mine t') (descriptions : Fin 2 → Option Str)
    (hact : mine act.caller = false) :
    Copies.Alike mine (t.step descriptions act).2 t' := by
  intro k hk
  have hcaller : k ≠ act.caller := by
    rintro rfl
    exact absurd (hk.symm.trans hact) (by decide)
  rw [t.step_other _ hcaller]
  exact h k hk

end RdkHal.Mta
