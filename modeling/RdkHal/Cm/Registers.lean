import RdkHal.Platform
import RdkHal.Lib.Runs

/-! The settable state of the cable modem, from cm_hal.c, compared with three registers. -/

set_option autoImplicit false

namespace RdkHal.Cm
open Text Runs

structure Statics where
  mddIpOverride : Str
  lockedUpstreamChannelId : UInt64
  startDsFrequency : UInt64
  deriving DecidableEq, Repr

def Statics.init : Statics := ⟨"honorMDD".toList,0,0⟩

def docsisGetMddIpModeOverride (lib : Safec) (s : Statics) : Ret × Str :=
  (.ok,(lib.strcpyS 1024 s.mddIpOverride).2)

def docsisSetMddIpModeOverride (lib : Safec) (pValue : Option Str) (s : Statics) : Ret × Statics :=
  match pValue with
  | none => (.err,s)
  | some value =>
    if value.length < 64-1 then (.ok,{ s with mddIpOverride := (lib.strcpyS 64 value).2 })
    else (.err,s)

/-- The `ULONG` is returned as a `UINT8`. -/
def docsisGetUSChannelId (s : Statics) : UInt8 := s.lockedUpstreamChannelId.toUInt8

def docsisSetUSChannelId (index : Int32) (s : Statics) : Statics :=
  { s with lockedUpstreamChannelId := index.toInt64.toUInt64 }

def docsisGetDownFreq (s : Statics) : UInt64 := s.startDsFrequency

def docsisSetStartFreq (value : UInt64) (s : Statics) : Statics := { s with startDsFrequency := value }

inductive Call where
  | setMddIpModeOverride (pValue : Option Str)
  | setUSChannelId (index : Int32)
  | setStartFreq (value : UInt64)
  deriving DecidableEq, Repr

structure View where
  status : Option Ret
  mddIpMode : Ret × Str
  channelId : Int
  downFreq : Nat
  deriving DecidableEq

def Statics.view (lib : Safec) (status : Option Ret) (s : Statics) : View :=
  ⟨status,docsisGetMddIpModeOverride lib s,(docsisGetUSChannelId s).toNat,(docsisGetDownFreq s).toNat⟩

def Statics.step (lib : Safec) (s : Statics) (call : Call) : View × Statics :=
  match call with
  | .setMddIpModeOverride pValue =>
    let (status,s) := docsisSetMddIpModeOverride lib pValue s
    (s.view lib (some status),s)
  | .setUSChannelId index =>
    let s := docsisSetUSChannelId index s
    (s.view lib none,s)
  | .setStartFreq value =>
    let s := docsisSetStartFreq value s
    (s.view lib none,s)

structure Registers where
  mddIpMode : Str
  fits : mddIpMode.length < 64
  channelId : Int
  downFreq : Nat

def Registers.init : Registers := ⟨"honorMDD".toList,by decide,0,0⟩

def Registers.view (status : Option Ret) (t : Registers) : View :=
  ⟨status,(.ok,t.mddIpMode),t.channelId,t.downFreq⟩

def Registers.step (t : Registers) (call : Call) : View × Registers :=
  match call with
  | .setMddIpModeOverride none => (t.view (some .err),t)
  | .setMddIpModeOverride (some value) =>
    if h : value.length < 64 then
      let t := { t with mddIpMode := value, fits := h }
      (t.view (some .ok),t)
    else (t.view (some .err),t)
  | .setUSChannelId index =>
    let t := { t with channelId := index.toInt }
    (t.view none,t)
  | .setStartFreq value =>
    let t := { t with downFreq := value.toNat }
    (t.view none,t)

/-- The arguments on which the three pairs of functions are registers. -/
def Call.Stored : Call → Prop
  | .setMddIpModeOverride none => True
  | .setMddIpModeOverride (some value) => value.length ≠ 63
  | .setUSChannelId index => 0 ≤ index.toInt ∧ index.toInt ≤ 255
  | .setStartFreq _ => True

structure Rel (s : Statics) (t : Registers) : Prop where
  mddIpMode : s.mddIpOverride = t.mddIpMode
  channelId : ((docsisGetUSChannelId s).toNat : Int) = t.channelId
  downFreq : s.startDsFrequency.toNat = t.downFreq

theorem rel_init : Rel Statics.init Registers.init := ⟨rfl,rfl,rfl⟩

theorem Rel.view {lib : Safec} {s : Statics} {t : Registers} (h : Rel s t) (status : Option Ret) :
    s.view lib status = t.view status := by
  have hfits : t.mddIpMode.length < 1024 := by
    have hlt := t.fits
    omega
  simp only [Statics.view,Registers.view,docsisGetMddIpModeOverride,lib.strcpyS_fits _ _ hfits,
    h.mddIpMode,h.channelId,docsisGetDownFreq,h.downFreq]

theorem channelId_stored (index : Int32) (s : Statics) :
    ((docsisGetUSChannelId (docsisSetUSChannelId index s)).toNat : Int) = index.toInt % 256 := by
  have hbits : (docsisGetUSChannelId (docsisSetUSChannelId index s)).toNat =
      (index.toBitVec.signExtend 64).toNat % 2^8 := rfl
  have hsigned : (index.toBitVec.signExtend 64).toNat = (index.toInt % 2^64).toNat := by
    rw [BitVec.signExtend,BitVec.toNat_ofInt]
    rfl
  rw [hbits,hsigned]
  omega

theorem step_rel (lib : Safec) {s : Statics} {t : Registers} (h : Rel s t) (call : Call)
    (hcall : call.Stored) : Rel (s.step lib call).2 (t.step call).2 := by
  cases call with
  | setMddIpModeOverride pValue =>
    cases pValue with
    | none => exact h
    | some value =>
      have hne : value.length ≠ 63 := hcall
      by_cases hlen : value.length < 63
      · have hfits : value.length < 64 := by omega
        simp only [Statics.step,docsisSetMddIpModeOverride,Registers.step,hlen,hfits,if_true,dif_pos]
        exact ⟨by rw [lib.strcpyS_fits _ _ hfits],h.channelId,h.downFreq⟩
      · have hover : ¬value.length < 64 := by omega
        simp only [Statics.step,docsisSetMddIpModeOverride,Registers.step,hlen,hover,if_false,dif_neg,
          not_false_eq_true]
        exact h
  | setUSChannelId index =>
    have hrange : 0 ≤ index.toInt ∧ index.toInt ≤ 255 := hcall
    refine ⟨h.mddIpMode,?_,h.downFreq⟩
    change ((docsisGetUSChannelId (docsisSetUSChannelId index s)).toNat : Int) = index.toInt
    rw [channelId_stored]
    omega
  | setStartFreq value => exact ⟨h.mddIpMode,h.channelId,rfl⟩

theorem step_answer (lib : Safec) {s : Statics} {t : Registers} (h : Rel s t) (call : Call) :
    (s.step lib call).1 = (t.step call).1 ↔ call.Stored := by
  cases call with
  | setMddIpModeOverride pValue =>
    cases pValue with
    | none => exact iff_of_true (h.view _) trivial
    | some value =>
      by_cases hlen : value.length < 63
      · have hfits : value.length < 64 := by omega
        have hne : value.length ≠ 63 := by omega
        have hnext := step_rel lib h (.setMddIpModeOverride (some value)) hne
        simp only [Statics.step,docsisSetMddIpModeOverride,Registers.step,hlen,hfits,if_true,dif_pos]
          at hnext ⊢
        exact iff_of_true (hnext.view _) hne
      · by_cases hfits : value.length < 64
        · -- the guard refuses a text that fits
          have heq : ¬Call.Stored (.setMddIpModeOverride (some value)) := fun hne : _ ≠ _ => by omega
          simp only [Statics.step,docsisSetMddIpModeOverride,Registers.step,hlen,hfits,if_false,
            dif_pos]
          refine iff_of_false (fun hview => ?_) heq
          exact absurd (congrArg View.status hview) (by simp [Statics.view,Registers.view])
        · have hne : value.length ≠ 63 := by omega
          simp only [Statics.step,docsisSetMddIpModeOverride,Registers.step,hlen,hfits,if_false,
            dif_neg,not_false_eq_true]
          exact iff_of_true (h.view _) hne
  | setUSChannelId index =>
    constructor
    · intro hview
      have hchannel : ((docsisGetUSChannelId (docsisSetUSChannelId index s)).toNat : Int) =
          index.toInt := congrArg View.channelId hview
      rw [channelId_stored] at hchannel
      change 0 ≤ index.toInt ∧ index.toInt ≤ 255
      omega
    · intro hstored
      exact (step_rel lib h (.setUSChannelId index) hstored).view _
  | setStartFreq value =>
    exact iff_of_true ((step_rel lib h (.setStartFreq value) trivial).view _) trivial

/-- The modem answers like the registers exactly where each mode given has not 63 characters and
each index fits eight bits. -/
theorem registers_iff (lib : Safec) (calls : List Call) :
    Statics.init.view lib none = Registers.init.view none ∧
    (answers (Statics.step lib) Statics.init calls = answers Registers.step Registers.init calls ↔
      ∀ call ∈ calls, call.Stored) := by
  refine ⟨rel_init.view none,answers_eq_iff (R := Rel) ?_ ?_ rel_init calls⟩
  · intro s t call h
    exact step_answer lib h call
  · intro s t call h hcall
    exact step_rel lib h call hcall

theorem registers_mistaken :
    answers (Statics.step Safec.reference) Statics.init
        [.setMddIpModeOverride (some (List.replicate 63 'a'))] ≠
      answers Registers.step Registers.init [.setMddIpModeOverride (some (List.replicate 63 'a'))] ∧
    answers (Statics.step Safec.reference) Statics.init [.setUSChannelId 300] ≠
      answers Registers.step Registers.init [.setUSChannelId 300] := by
  decide +kernel

end RdkHal.Cm
