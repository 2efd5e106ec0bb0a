import RdkHal.Wifi.Essid
import RdkHal.Wifi.Stats

/-! Commands printed into 64 characters: which of them reach the shell. -/

set_option autoImplicit false

namespace RdkHal.Wifi
open Text

variable {ω : Type}

/-- `threshold` is unsigned, and printed as a signed number. -/
def wifiSetRadioFragmentationThreshold (P : Platform ω) (apIndex : Int32) (threshold : UInt32)
    (buf : Str) (os : Os ω) : Ret × Os ω :=
  let cmd := if 0 < threshold then
      P.command 64 "iwconfig %s%d frag %d" [.s apPrefix,.d apIndex,.d threshold.toInt32]
    else P.command 64 "iwconfig %s%d frag off" [.s apPrefix,.d apIndex]
  let (_,_,os) := syscmd P cmd buf 512 os
  (.ok,os)

def wifiGetApEnable (_apIndex : Int32) : Ret × Bool := (.ok,true)

def wifiGetApWpsEnable (_apIndex : Int32) : Ret × Bool := (.ok,true)

def wifiSetApWpsButtonPush (P : Platform ω) (apIndex : Int32) (os : Os ω) : Ret × Os ω :=
  if (wifiGetApEnable apIndex).2 = false then (.err,os)
  else if (wifiGetApWpsEnable apIndex).2 = false then (.err,os)
  else
    let cmd := P.command 64 "hostapd_cli -i%s%d wps_cancel; hostapd_cli -i%s%d wps_pbc"
      [.s apPrefix,.d apIndex,.s apPrefix,.d apIndex]
    let (_,buf,os) := syscmd P cmd [] 256 os
    if (strstr "OK".toList buf).isSome then (.ok,os) else (.err,os)

def wifiCancelApWPS (P : Platform ω) (apIndex : Int32) (os : Os ω) : Ret × Os ω :=
  let cmd := P.command 64 "hostapd_cli -i%s%d wps_cancel" [.s apPrefix,.d apIndex]
  let (_,buf,os) := syscmd P cmd [] 256 os
  if (strstr "OK".toList buf).isSome then (.ok,os) else (.err,os)

def rateLine (radioIndex : Int32) : Str :=
  "iwconfig ".toList ++ (apName (if radioIndex = 0 then 0 else 1) ++
    " | grep \"Bit Rate\" | cut -d':' -f2 | cut -d' ' -f1,2".toList)

def fragLine (apIndex : Int32) (threshold : UInt32) : Str :=
  "iwconfig ".toList ++ (apName apIndex ++ (" frag ".toList ++
    (if 0 < threshold then formatD threshold.toInt32 else "off".toList)))

def buttonLine (apIndex : Int32) : Str :=
  "hostapd_cli -i".toList ++ (apName apIndex ++ (" wps_cancel; hostapd_cli -i".toList ++
    (apName apIndex ++ " wps_pbc".toList)))

def cancelLine (apIndex : Int32) : Str :=
  "hostapd_cli -i".toList ++ (apName apIndex ++ " wps_cancel".toList)

def Receives (os os' : Os ω) (line : Str) : Prop :=
  line.length < 64 ∧ os'.issued = os.issued ++ [line]

def printed (line : Str) : Str := if line.length < 64 then line else []

theorem Platform.command_printed (P : Platform ω) (format : String) (args : List Arg) :
    P.command 64 format args = printed (sprintf format.toList args) :=
  P.lib.sprintfS_text 64 _

theorem receives_iff {os os' : Os ω} {line : Str} (h : os'.issued = os.issued ++ [printed line]) :
    Receives os os' line ↔ line.length < 64 := by
  refine ⟨fun hreceives => hreceives.1,fun hfits => ⟨hfits,?_⟩⟩
  rw [h,printed,if_pos hfits]

theorem apName_length_eq (apIndex : Int32) :
    (apName apIndex).length = (formatD apIndex).length+3 := by
  have hpre : apPrefix.length = 3 := by decide
  rw [apName,List.length_append,hpre,Nat.add_comm]

theorem rateCommand_printed (P : Platform ω) (radioIndex : Int32) :
    rateCommand P radioIndex = printed (rateLine radioIndex) := by
  rw [rateCommand,P.command_printed]
  unfold rateLine
  simp [sprintf,apName,apPrefix,Arg.conversion,Arg.text]

theorem radioMaxBitRate_issued (P : Platform ω) (radioIndex : Int32) (out buf : Str) (os : Os ω) :
    (wifiGetRadioMaxBitRate P radioIndex (some out) buf os).2.2.issued =
      os.issued ++ [printed (rateLine radioIndex)] := by
  simp only [wifiGetRadioMaxBitRate,rateCommand_printed,syscmd_issued]

theorem fragCommand_printed (P : Platform ω) (apIndex : Int32) (threshold : UInt32) :
    (if 0 < threshold then
      P.command 64 "iwconfig %s%d frag %d" [.s apPrefix,.d apIndex,.d threshold.toInt32]
    else P.command 64 "iwconfig %s%d frag off" [.s apPrefix,.d apIndex]) =
      printed (fragLine apIndex threshold) := by
  rw [P.command_printed,P.command_printed,← apply_ite printed]
  unfold fragLine
  split
  · simp [sprintf,apName,apPrefix,Arg.conversion,Arg.text]
  · simp [sprintf,apName,apPrefix,Arg.conversion,Arg.text]

theorem fragmentationThreshold_issued (P : Platform ω) (apIndex : Int32) (threshold : UInt32)
    (buf : Str) (os : Os ω) :
    (wifiSetRadioFragmentationThreshold P apIndex threshold buf os).2.issued =
      os.issued ++ [printed (fragLine apIndex threshold)] := by
  simp only [wifiSetRadioFragmentationThreshold,fragCommand_printed,syscmd_issued]

theorem buttonCommand_printed (P : Platform ω) (apIndex : Int32) :
    P.command 64 "hostapd_cli -i%s%d wps_cancel; hostapd_cli -i%s%d wps_pbc"
      [.s apPrefix,.d apIndex,.s apPrefix,.d apIndex] = printed (buttonLine apIndex) := by
  rw [P.command_printed]
  unfold buttonLine
  simp [sprintf,apName,apPrefix,Arg.conversion,Arg.text]

theorem wpsButtonPush_issued (P : Platform ω) (apIndex : Int32) (os : Os ω) :
    (wifiSetApWpsButtonPush P apIndex os).2.issued =
      os.issued ++ [printed (buttonLine apIndex)] := by
  have hissued := syscmd_issued P (printed (buttonLine apIndex)) [] 256 os
  simp only [wifiSetApWpsButtonPush,wifiGetApEnable,wifiGetApWpsEnable,buttonCommand_printed,
    Bool.true_eq_false,if_false]
  split
  · exact hissued
  · exact hissued

theorem cancelCommand_printed (P : Platform ω) (apIndex : Int32) :
    P.command 64 "hostapd_cli -i%s%d wps_cancel" [.s apPrefix,.d apIndex] =
      printed (cancelLine apIndex) := by
  rw [P.command_printed]
  unfold cancelLine
  simp [sprintf,apName,apPrefix,Arg.conversion,Arg.text]

theorem cancelApWPS_issued (P : Platform ω) (apIndex : Int32) (os : Os ω) :
    (wifiCancelApWPS P apIndex os).2.issued = os.issued ++ [printed (cancelLine apIndex)] := by
  have hissued := syscmd_issued P (printed (cancelLine apIndex)) [] 256 os
  simp only [wifiCancelApWPS,cancelCommand_printed]
  split
  · exact hissued
  · exact hissued

theorem rateLine_length (radioIndex : Int32) : (rateLine radioIndex).length = 65 := by
  unfold rateLine
  split
  · decide +kernel
  · decide +kernel

theorem fragLine_length (apIndex : Int32) (threshold : UInt32) :
    (fragLine apIndex threshold).length < 64 := by
  have hap := formatD_length apIndex
  have hthreshold := formatD_length threshold.toInt32
  have hiwconfig : "iwconfig ".toList.length = 9 := by decide
  have hfrag : " frag ".toList.length = 6 := by decide
  have hoff : "off".toList.length = 3 := by decide
  unfold fragLine
  rw [List.length_append,List.length_append,List.length_append,apName_length_eq,hiwconfig,hfrag]
  split
  · omega
  · omega

theorem buttonLine_length (apIndex : Int32) :
    (buttonLine apIndex).length = 55+2*(formatD apIndex).length := by
  have hfirst : "hostapd_cli -i".toList.length = 14 := by decide
  have hsecond : " wps_cancel; hostapd_cli -i".toList.length = 27 := by decide
  have hlast : " wps_pbc".toList.length = 8 := by decide
  unfold buttonLine
  rw [List.length_append,List.length_append,List.length_append,List.length_append,apName_length_eq,
    hfirst,hsecond,hlast]
  omega

theorem cancelLine_length (apIndex : Int32) : (cancelLine apIndex).length < 64 := by
  have hap := formatD_length apIndex
  have hfirst : "hostapd_cli -i".toList.length = 14 := by decide
  have hlast : " wps_cancel".toList.length = 11 := by decide
  unfold cancelLine
  rw [List.length_append,List.length_append,apName_length_eq,hfirst,hlast]
  omega

/-- Two of the commands always reach the shell, one for indices of at most four characters, and the
one for the bit rate never. -/
theorem commands_receive_iff (P : Platform ω) (out buf : Str) (os : Os ω) :
    (∀ radioIndex, ¬Receives os (wifiGetRadioMaxBitRate P radioIndex (some out) buf os).2.2
      (rateLine radioIndex)) ∧
    (∀ apIndex threshold,
      Receives os (wifiSetRadioFragmentationThreshold P apIndex threshold buf os).2
        (fragLine apIndex threshold)) ∧
    (∀ apIndex, Receives os (wifiSetApWpsButtonPush P apIndex os).2 (buttonLine apIndex) ↔
      -1000 < apIndex.toInt ∧ apIndex.toInt < 10000) ∧
    ∀ apIndex, Receives os (wifiCancelApWPS P apIndex os).2 (cancelLine apIndex) := by
  refine ⟨fun radioIndex h => ?_,fun apIndex threshold => ?_,fun apIndex => ?_,fun apIndex => ?_⟩
  · have hlen := (receives_iff (radioMaxBitRate_issued P radioIndex out buf os)).mp h
    rw [rateLine_length] at hlen
    omega
  · exact (receives_iff (fragmentationThreshold_issued P apIndex threshold buf os)).mpr
      (fragLine_length apIndex threshold)
  · have hfour := @formatD_length_le_iff apIndex 3 (by decide)
    rw [receives_iff (wpsButtonPush_issued P apIndex os),buttonLine_length]
    omega
  · exact (receives_iff (cancelApWPS_issued P apIndex os)).mpr (cancelLine_length apIndex)

theorem commands_empty :
    (wifiGetRadioMaxBitRate idlePlatform 0 (some []) [] ⟨(),[]⟩).2.2.issued = [[]] ∧
    ¬Receives ⟨(),[]⟩ (wifiGetRadioMaxBitRate idlePlatform 0 (some []) [] ⟨(),[]⟩).2.2 (rateLine 0) ∧
    (wifiSetApWpsButtonPush idlePlatform 10000 ⟨(),[]⟩).2.issued = [[]] ∧
    ¬Receives ⟨(),[]⟩ (wifiSetApWpsButtonPush idlePlatform 10000 ⟨(),[]⟩).2 (buttonLine 10000) := by
  have hrate : (wifiGetRadioMaxBitRate idlePlatform 0 (some []) [] ⟨(),[]⟩).2.2.issued = [[]] := by
    decide +kernel
  have hbutton : (wifiSetApWpsButtonPush idlePlatform 10000 ⟨(),[]⟩).2.issued = [[]] := by
    decide +kernel
  refine ⟨hrate,fun h => ?_,hbutton,fun h => ?_⟩
  · have hline : [] = rateLine 0 := by simpa [hrate] using h.2
    have hlen := congrArg List.length hline
    rw [rateLine_length] at hlen
    cases hlen
  · have hline : [] = buttonLine 10000 := by simpa [hbutton] using h.2
    have hlen := congrArg List.length hline
    rw [buttonLine_length,List.length_nil] at hlen
    omega

end RdkHal.Wifi
