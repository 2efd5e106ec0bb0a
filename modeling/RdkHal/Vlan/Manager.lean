import Mathlib.Logic.Function.Basic
import RdkHal.Vlan.Calls

/-! What the VLAN calls are for: a table of groups, each with a default VLAN or without, and an
owner for each tagged interface. Nothing here is a text of the shell. -/

set_option autoImplicit false

namespace RdkHal.Vlan
open Text Runs

/-- The groups with their defaults, and the group that a tagged interface belongs to. -/
structure Manager where
  default : Str → Option (Option Str)
  owner : Str × Str → Option Str

namespace Manager

def empty : Manager := ⟨fun _ => none,fun _ => none⟩

/-- The VLAN ID of an interface call: the one given, else the default of the group. -/
def vlan (m : Manager) (g : Str) (v : Option Str) : Option Str :=
  (m.default g).bind (fun d => v.or d)

def create (m : Manager) (g : Str) (d : Option Str) : Manager :=
  match m.default g with
  | some _ => m
  | none => ⟨Function.update m.default g (some d),m.owner⟩

def attach (m : Manager) (g : Str) (p : Str × Str) : Manager :=
  match m.owner p with
  | some _ => m
  | none => ⟨m.default,Function.update m.owner p (some g)⟩

def detach (m : Manager) (g : Str) (p : Str × Str) : Manager :=
  if m.owner p = some g then ⟨m.default,Function.update m.owner p none⟩ else m

def release (m : Manager) (g : Str) : Manager :=
  ⟨m.default,fun p => if m.owner p = some g then none else m.owner p⟩

def dissolve (m : Manager) (g : Str) : Manager :=
  ⟨Function.update m.default g none,(m.release g).owner⟩

def onInterface (m : Manager) (change : Manager → Str → Str × Str → Manager) (g i : Str)
    (v : Option Str) : Ret × Manager :=
  match m.vlan g v with
  | none => (.err,m)
  | some v => (.ok,change m g (i,v))

def perform (m : Manager) : Call → Ret × Manager
  | .addGroup (some g) d => (.ok,m.create g d)
  | .delGroup (some g) => (.ok,m.dissolve g)
  | .addInterface (some g) (some i) v => m.onInterface attach g i v
  | .delInterface (some g) (some i) v => m.onInterface detach g i v
  | .deleteAllInterfaces (some g) => (.ok,m.release g)
  | .printGroup (some _) => (.ok,m)
  | .printAllGroup => (.ok,m)
  | .addGroup none _ | .delGroup none | .addInterface none _ _ | .addInterface _ none _
  | .delInterface none _ _ | .delInterface _ none _ | .deleteAllInterfaces none
  | .printGroup none => (.err,m)

variable {m : Manager} {g : Str}

theorem create_found {x : Option Str} (h : m.default g = some x) (d : Option Str) :
    m.create g d = m := by rw [create,h]

theorem create_new (h : m.default g = none) (d : Option Str) :
    m.create g d = ⟨Function.update m.default g (some d),m.owner⟩ := by rw [create,h]

@[simp] theorem release_default (m : Manager) (g : Str) : (m.release g).default = m.default := rfl

@[simp] theorem dissolve_default (m : Manager) (g : Str) :
    (m.dissolve g).default = Function.update m.default g none := rfl

@[simp] theorem dissolve_owner (m : Manager) (g : Str) :
    (m.dissolve g).owner = (m.release g).owner := rfl

theorem release_eq_some {p : Str × Str} {k : Str} :
    (m.release g).owner p = some k ↔ m.owner p = some k ∧ k ≠ g := by
  by_cases hown : m.owner p = some g
  · simp only [release,hown,if_true,Option.some.injEq]
    constructor
    · intro h
      cases h
    · rintro ⟨rfl,hne⟩
      exact absurd rfl hne
  · simp only [release,if_neg hown,iff_self_and]
    rintro hk rfl
    exact hown hk

theorem release_or (m : Manager) (g : Str) (p : Str × Str) :
    (m.release g).owner p = m.owner p ∨ (m.owner p = some g ∧ (m.release g).owner p = none) := by
  by_cases hown : m.owner p = some g
  · exact Or.inr ⟨hown,by simp [release,hown]⟩
  · exact Or.inl (by simp [release,hown])

@[simp] theorem attach_default (m : Manager) (g : Str) (p : Str × Str) :
    (m.attach g p).default = m.default := by
  rw [attach]
  split <;> rfl

@[simp] theorem detach_default (m : Manager) (g : Str) (p : Str × Str) :
    (m.detach g p).default = m.default := by
  rw [detach]
  split <;> rfl

theorem attach_eq_some {p q : Str × Str} {k : Str} (hp : m.owner p = none) :
    (m.attach g p).owner q = some k ↔ m.owner q = some k ∨ (k = g ∧ q = p) := by
  rw [attach,hp]
  by_cases hq : q = p
  · subst hq
    simp [hp,eq_comm]
  · simp [hq]

theorem detach_eq_some {p q : Str × Str} {k : Str} :
    (m.detach g p).owner q = some k ↔ m.owner q = some k ∧ ¬(k = g ∧ q = p) := by
  by_cases hown : m.owner p = some g
  · rw [detach,if_pos hown]
    by_cases hq : q = p
    · subst hq
      simp [hown,eq_comm]
    · simp [hq]
  · rw [detach,if_neg hown,iff_self_and]
    rintro hk ⟨rfl,rfl⟩
    exact hown hk

inductive Effect (m : Manager) : Call → Manager → Prop
  | unchanged (c : Call) : Effect m c m
  | created {g : Str} {d : Option Str} (hnew : m.default g = none) :
    Effect m (.addGroup (some g) d) ⟨Function.update m.default g (some d),m.owner⟩
  | dissolved (g : Str) : Effect m (.delGroup (some g)) (m.dissolve g)
  | attached {g i w : Str} {v : Option Str} (hw : m.vlan g v = some w)
    (hfree : m.owner (i,w) = none) :
    Effect m (.addInterface (some g) (some i) v)
      ⟨m.default,Function.update m.owner (i,w) (some g)⟩
  | detached {g i w : Str} {v : Option Str} (hown : m.owner (i,w) = some g) :
    Effect m (.delInterface (some g) (some i) v) ⟨m.default,Function.update m.owner (i,w) none⟩
  | released (g : Str) : Effect m (.deleteAllInterfaces (some g)) (m.release g)

theorem perform_effect (m : Manager) (c : Call) : m.Effect c (m.perform c).2 := by
  cases c with
  | addGroup g d =>
    cases g with
    | none => exact .unchanged _
    | some g =>
      rw [perform]
      cases hm : m.default g with
      | some x =>
        rw [create_found hm]
        exact .unchanged _
      | none =>
        rw [create_new hm]
        exact .created hm
  | delGroup g =>
    cases g with
    | none => exact .unchanged _
    | some g => exact .dissolved g
  | addInterface g i v =>
    cases g with
    | none => exact .unchanged _
    | some g =>
      cases i with
      | none => exact .unchanged _
      | some i =>
        rw [perform,onInterface]
        cases hw : m.vlan g v with
        | none => exact .unchanged _
        | some w =>
          simp only [attach]
          cases hown : m.owner (i,w) with
          | some k => exact .unchanged _
          | none => exact .attached hw hown
  | delInterface g i v =>
    cases g with
    | none => exact .unchanged _
    | some g =>
      cases i with
      | none => exact .unchanged _
      | some i =>
        rw [perform,onInterface]
        cases m.vlan g v with
        | none => exact .unchanged _
        | some w =>
          simp only [detach]
          by_cases hown : m.owner (i,w) = some g
          · rw [if_pos hown]
            exact .detached hown
          · rw [if_neg hown]
            exact .unchanged _
  | deleteAllInterfaces g =>
    cases g with
    | none => exact .unchanged _
    | some g => exact .released g
  | printGroup g => cases g <;> exact .unchanged _
  | printAllGroup => exact .unchanged _

end Manager

/-! The arguments that the kernel takes -/

/-- The kernel has at most 15 characters for the name of a device: a bridge, or a tagged
interface, whose name holds the device, a dot and the VLAN ID. -/
def BridgeName (g : Str) : Prop := Word g ∧ g.length ≤ 15

def DeviceName (i : Str) : Prop := Word i ∧ '.' ∉ i ∧ i.length ≤ 10

def VlanTag (v : Str) : Prop := Word v ∧ v.length ≤ 4

instance (g : Str) : Decidable (BridgeName g) := inferInstanceAs (Decidable (_ ∧ _))

instance (i : Str) : Decidable (DeviceName i) := inferInstanceAs (Decidable (_ ∧ _ ∧ _))

instance (v : Str) : Decidable (VlanTag v) := inferInstanceAs (Decidable (_ ∧ _))

namespace Call

def device : Call → Option Str
  | addInterface _ i _ | delInterface _ i _ => i
  | _ => none

def tag : Call → Option Str
  | addGroup _ v | addInterface _ _ v | delInterface _ _ v => v
  | _ => none

structure Admitted (c : Call) : Prop where
  group : ∀ g ∈ c.group, BridgeName g
  device : ∀ i ∈ c.device, DeviceName i
  tag : ∀ v ∈ c.tag, VlanTag v

theorem admitted_iff (c : Call) : c.Admitted ↔ (∀ g ∈ c.group, BridgeName g) ∧
    (∀ i ∈ c.device, DeviceName i) ∧ ∀ v ∈ c.tag, VlanTag v :=
  ⟨fun h => ⟨h.group,h.device,h.tag⟩,fun h => ⟨h.1,h.2.1,h.2.2⟩⟩

instance (c : Call) : Decidable c.Admitted := decidable_of_iff' _ (admitted_iff c)

end Call

structure KernelLimits (L : Limits) : Prop where
  groupName : 16 ≤ L.groupName
  ifName : 12 ≤ L.ifName
  vlanID : 5 ≤ L.vlanID
  line : 17 ≤ L.line

theorem DeviceName.portFits {L : Limits} (hL : KernelLimits L) {i v : Str} (hi : DeviceName i)
    (hv : VlanTag v) : PortFits L (portName i v) := by
  obtain ⟨_,hdot,hilen⟩ := hi
  have hvlen := hv.2
  have hall : ∀ c ∈ i, (c != '.') = true := by
    intro c hc
    have hcd : c ≠ '.' := fun h => hdot (h ▸ hc)
    simp [hcd]
  have hline := hL.line
  have hifName := hL.ifName
  have hvlanID := hL.vlanID
  refine ⟨?_,?_,?_⟩
  · simp [portName]
    omega
  · rw [portName,takeWhile_until hall (by simp)]
    omega
  · rw [portName,dropWhile_until hall (by simp),List.length_cons]
    omega

theorem BridgeName.lines_fit {g : Str} (hg : BridgeName g) : (addbrLine g).length < 128 ∧
    (showLine g).length < 128 ∧ (brShowLine g).length < 128 := by
  have hlen := hg.2
  have hadd : (addbrLine g).length = g.length+12 := by simp [addbrLine_eq]
  have hshow : (showLine g).length = g.length+43 := by simp [showLine_eq]
  have hprint : (brShowLine g).length = g.length+11 := by
    unfold brShowLine
    simp
  rw [hadd,hshow,hprint]
  omega

theorem BridgeName.ports_fit {g i v : Str} (hg : BridgeName g) (hi : DeviceName i)
    (hv : VlanTag v) : (addLine i v g).length < 128 := by
  have hglen := hg.2
  have hilen := hi.2.2
  have hvlen := hv.2
  have hadd : (addLine i v g).length = 29+2*i.length+2*v.length+g.length := by
    simp [addLine_eq]
    omega
  rw [hadd]
  omega

end RdkHal.Vlan
