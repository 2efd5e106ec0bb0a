import RdkHal.Wifi.Stats
import RdkHal.Wifi.Stations

/-! What the locals of a function hold before anything is stored in them: where it can reach a
result, and where not. -/

set_option autoImplicit false

namespace RdkHal.Wifi
open Text

variable {ω : Type}

def wifiGetApVlanID (apIndex outputInt : Int32) : Ret × Int32 :=
  if apIndex = 0 then (.ok,100) else (.err,outputInt)

def bridgeName : Str := "br0".toList

def bridgeIP : Str := "10.0.0.2".toList

/-- The name of the bridge, the address and the mask; they are stored, although the status is
an error. -/
def wifiGetApBridgeInfo (lib : Safec) (_index : Int32) : Ret × Str × Str × Str :=
  (.err,(lib.strcpyS 32 bridgeName).2,(lib.strcpyS 64 bridgeIP).2,
    (lib.strcpyS 64 "255.255.255.0".toList).2)

def vlanFormat : String := "cfgVlan %s%d %s %d %s "

/-- `vlanId` and `buf` are what the locals hold at first. -/
def wifiPushBridgeInfo (P : Platform ω) (apIndex vlanId : Int32) (buf : Str) (os : Os ω) :
    Ret × Os ω :=
  let (_,bridge,ip,_) := wifiGetApBridgeInfo P.lib apIndex
  let (_,vlanId) := wifiGetApVlanID apIndex vlanId
  let cmd := P.command 128 vlanFormat
    [.s apPrefix,.d apIndex,.s bridge,.d vlanId,.s ip]
  let (_,_,os) := syscmd P cmd buf 1024 os
  (.ok,os)

/-- The result is the same whatever the locals hold at first. -/
def Determined {α β : Type} (f : α → β) : Prop := ∀ a b, f a = f b

theorem determined_iff {α β : Type} {f : α → β} {c : Prop} (a b : α)
    (hdetermined : c → Determined f) (hdiffer : ¬c → f a ≠ f b) : Determined f ↔ c := by
  refine ⟨fun h => ?_,hdetermined⟩
  by_contra hc
  exact hdiffer hc (h a b)

theorem radioMaxBitRate_iff (P : Platform ω) (radioIndex : Int32) (outputString : Option Str)
    (os : Os ω) : Determined (wifiGetRadioMaxBitRate P radioIndex outputString · os) ↔
      outputString = none ∨ (P.popen (rateCommand P radioIndex) os.world).1 ≠ none := by
  apply determined_iff [] ['?']
  · rintro (rfl | hstart) buf buf'
    · rfl
    · cases outputString with
      | none => rfl
      | some _ => simp only [wifiGetRadioMaxBitRate,syscmd_started hstart buf buf']
  · intro h
    obtain ⟨hnull,hfail⟩ := not_or.mp h
    obtain ⟨old,rfl⟩ := Option.ne_none_iff_exists'.mp hnull
    have hnil := congrArg Prod.snd (P.lib.strcpyS_fits 64 [] (by decide))
    have hmark := congrArg Prod.snd (P.lib.strcpyS_fits 64 ['?'] (by decide))
    simp only [wifiGetRadioMaxBitRate,syscmd_failed (not_not.mp hfail),hnil,hmark]
    simp

def markers : Str := "RX packets:TX packets:RX bytes:TX bytes:".toList

theorem basicTrafficStats_iff (P : Platform ω) (apIndex : Int32)
    (outputStruct : Option BasicTrafficStats) (os : Os ω) :
    Determined (wifiGetBasicTrafficStats P apIndex outputStruct · os) ↔
      outputStruct = none ∨ (P.popen (ifconfigCommand P apIndex) os.world).1 ≠ none := by
  apply determined_iff [] markers
  · rintro (rfl | hstart) buf buf'
    · rfl
    · cases outputStruct with
      | none => rfl
      | some _ => simp only [wifiGetBasicTrafficStats,syscmd_started hstart buf buf']
  · intro h
    obtain ⟨hnull,hfail⟩ := not_or.mp h
    obtain ⟨old,rfl⟩ := Option.ne_none_iff_exists'.mp hnull
    have hnil : readCounters BasicTrafficStats.zero [] = (.err,BasicTrafficStats.zero) := by decide
    have hmarkers : readCounters BasicTrafficStats.zero markers = (.ok,BasicTrafficStats.zero) := by
      decide +kernel
    simp only [wifiGetBasicTrafficStats,syscmd_failed (not_not.mp hfail),hnil,hmarkers]
    split <;> simp

theorem diagnosticResult_iff (P : Platform ω) (apIndex : Int32) (os : Os ω) :
    Determined (wifiGetApAssociatedDeviceDiagnosticResult P apIndex · os) ↔
      apIndex < 0 ∨ (P.popen (countCommand P apIndex) os.world).1 ≠ none := by
  apply determined_iff ['0'] ['1']
  · rintro (hneg | hstart) buf buf'
    · simp only [wifiGetApAssociatedDeviceDiagnosticResult,hneg,if_true]
    · simp only [wifiGetApAssociatedDeviceDiagnosticResult,syscmd_started hstart buf buf']
  · intro h
    obtain ⟨hneg,hfail⟩ := not_or.mp h
    have hzero : (atoi ['0']).toUInt32 ≤ 0 := by decide
    have hone : ¬(atoi ['1']).toUInt32 ≤ 0 := by decide
    simp only [wifiGetApAssociatedDeviceDiagnosticResult,hneg,if_false,
      syscmd_failed (not_not.mp hfail),hzero,hone,if_true]
    intro heq
    have hsize := fillStations_size heq.symm
    exact absurd hsize (by decide)

def vlanLine (apIndex vlanId : Int32) : Str :=
  sprintf vlanFormat.toList [.s apPrefix,.d apIndex,.s bridgeName,.d vlanId,.s bridgeIP]

theorem vlanLine_inj {apIndex vlanId vlanId' : Int32}
    (h : vlanLine apIndex vlanId = vlanLine apIndex vlanId') : formatD vlanId = formatD vlanId' := by
  simpa [vlanLine,vlanFormat,sprintf,Arg.conversion,Arg.text] using h

theorem vlanLine_fits (P : Platform ω) (apIndex vlanId : Int32) :
    P.command 128 vlanFormat [.s apPrefix,.d apIndex,.s bridgeName,.d vlanId,.s bridgeIP] =
      vlanLine apIndex vlanId := by
  apply P.command_fits
  have hap := formatD_length apIndex
  have hvlan := formatD_length vlanId
  have hformat : vlanFormat.toList.length = 22 := by decide
  have hletters : apPrefix.length = 3 := by decide
  have hname : bridgeName.length = 3 := by decide
  have hip : bridgeIP.length = 8 := by decide
  simp only [hformat,List.map_cons,List.map_nil,List.sum_cons,List.sum_nil,Arg.text,hletters,hname,
    hip]
  omega

theorem pushBridgeInfo_issued (P : Platform ω) (apIndex vlanId : Int32) (buf : Str) (os : Os ω) :
    (wifiPushBridgeInfo P apIndex vlanId buf os).2.issued =
      os.issued ++ [vlanLine apIndex (wifiGetApVlanID apIndex vlanId).2] := by
  have hname := congrArg Prod.snd (P.lib.strcpyS_fits 32 bridgeName (by decide))
  have hip := congrArg Prod.snd (P.lib.strcpyS_fits 64 bridgeIP (by decide))
  simp only [wifiPushBridgeInfo,wifiGetApBridgeInfo,hname,hip,vlanLine_fits,syscmd_issued]

theorem pushBridgeInfo_iff (P : Platform ω) (apIndex : Int32) (os : Os ω) :
    Determined (fun l : Int32 × Str => wifiPushBridgeInfo P apIndex l.1 l.2 os) ↔
      apIndex = 0 := by
  apply determined_iff (0,[]) (1,[])
  · rintro rfl ⟨vlanId,buf⟩ ⟨vlanId',buf'⟩
    have hsyscmd (cmd : Str) : (syscmd P cmd buf 1024 os).2.2 = (syscmd P cmd buf' 1024 os).2.2 := by
      rw [syscmd,syscmd]
      split <;> rfl
    simp only [wifiPushBridgeInfo,wifiGetApVlanID,if_true,hsyscmd]
  · intro hne heq
    have hissued := congrArg (fun r => r.2.issued) heq
    simp only [pushBridgeInfo_issued,wifiGetApVlanID,hne,if_false] at hissued
    have hline := List.singleton_inj.mp (List.append_cancel_left hissued)
    exact absurd (vlanLine_inj hline) (by decide)

/-- Where each of the functions yields the same result, output and commands whatever its locals
hold at first: the text of a command that cannot be started is read all the same, and so is an
identifier that was not set. -/
theorem determined_locals (P : Platform ω) (os : Os ω) :
    (∀ (radioIndex : Int32) (outputString : Option Str),
      Determined (wifiGetRadioMaxBitRate P radioIndex outputString · os) ↔
        outputString = none ∨ (P.popen (rateCommand P radioIndex) os.world).1 ≠ none) ∧
    (∀ (apIndex : Int32) (outputStruct : Option BasicTrafficStats),
      Determined (wifiGetBasicTrafficStats P apIndex outputStruct · os) ↔
        outputStruct = none ∨ (P.popen (ifconfigCommand P apIndex) os.world).1 ≠ none) ∧
    (∀ apIndex : Int32,
      Determined (wifiGetApAssociatedDeviceDiagnosticResult P apIndex · os) ↔
        apIndex < 0 ∨ (P.popen (countCommand P apIndex) os.world).1 ≠ none) ∧
    ∀ apIndex : Int32,
      Determined (fun l : Int32 × Str => wifiPushBridgeInfo P apIndex l.1 l.2 os) ↔
        apIndex = 0 :=
  ⟨fun radioIndex outputString => radioMaxBitRate_iff P radioIndex outputString os,
    fun apIndex outputStruct => basicTrafficStats_iff P apIndex outputStruct os,
    fun apIndex => diagnosticResult_iff P apIndex os,fun apIndex => pushBridgeInfo_iff P apIndex os⟩

def deafPlatform : Platform Unit := Platform.answering none

theorem locals_reach :
    ¬Determined (wifiGetRadioMaxBitRate deafPlatform 0 (some []) · ⟨(),[]⟩) ∧
    ¬Determined (wifiGetBasicTrafficStats deafPlatform 0 (some BasicTrafficStats.zero) · ⟨(),[]⟩) ∧
    ¬Determined (wifiGetApAssociatedDeviceDiagnosticResult deafPlatform 0 · ⟨(),[]⟩) ∧
    ¬Determined (fun l : Int32 × Str => wifiPushBridgeInfo deafPlatform 1 l.1 l.2 ⟨(),[]⟩) := by
  refine ⟨fun h => ?_,fun h => ?_,fun h => ?_,fun h => ?_⟩
  · have hor := (radioMaxBitRate_iff deafPlatform 0 (some []) ⟨(),[]⟩).mp h
    exact hor.elim (by simp) (fun hstart => hstart rfl)
  · have hor := (basicTrafficStats_iff deafPlatform 0 _ ⟨(),[]⟩).mp h
    exact hor.elim (by simp) (fun hstart => hstart rfl)
  · have hor := (diagnosticResult_iff deafPlatform 0 ⟨(),[]⟩).mp h
    exact hor.elim (by decide) (fun hstart => hstart rfl)
  · have hzero := (pushBridgeInfo_iff deafPlatform 1 ⟨(),[]⟩).mp h
    exact absurd hzero (by decide)

end RdkHal.Wifi
