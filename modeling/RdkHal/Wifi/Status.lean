import RdkHal.Wifi.Essid
import RdkHal.Lib.Search

/-! The getters that decide by whether a text occurs in the output of a command: the state of the
protected setup, and whether an access point is up. -/

set_option autoImplicit false

namespace RdkHal.Wifi
open Text

variable {ω : Type}

/-- A NULL pointer is refused by `strcpy_s`. -/
def Platform.setString (P : Platform ω) (size : Nat) (text : String) (outputString : Option Str) :
    Option Str :=
  outputString.map fun _ => (P.lib.strcpyS size text.toList).2

theorem Platform.setString_fits (P : Platform ω) (size : Nat) (text : String)
    (h : text.toList.length < size) (out : Str) :
    P.setString size text (some out) = some text.toList := by
  rw [setString,Option.map_some,P.lib.strcpyS_fits size text.toList h]

theorem answer_iff {x y : Str} {p q : Prop} [Decidable p] [Decidable q] (hne : x ≠ y)
    (hpq : p → q) : (if q then x else y) = (if p then x else y) ↔ p ∨ ¬q := by
  by_cases hp : p
  · rw [if_pos hp,if_pos (hpq hp)]
    exact iff_of_true rfl (Or.inl hp)
  · rw [if_neg hp,ite_eq_right_iff]
    constructor
    · intro h
      exact Or.inr fun hq => hne (h hq)
    · intro h hq
      exact absurd hq (h.resolve_left hp)

/-! The state of the protected setup -/

def wpsFormat : String := "hostapd_cli -i %s%d get_config"

def wpsLine (apIndex : Int32) : Str := sprintf wpsFormat.toList [.s apPrefix,.d apIndex]

def wifiGetApWpsConfigurationState (P : Platform ω) (apIndex : Int32) (outputString : Option Str)
    (os : Os ω) : Ret × Option Str × Os ω :=
  let outputString := P.setString 64 "Not configured" outputString
  let cmd := P.command 64 wpsFormat [.s apPrefix,.d apIndex]
  let (_,buf,os) := syscmd P cmd [] 512 os
  match strstr "wps_state=".toList buf with
  | none => (.ok,outputString,os)
  | some pos =>
    match strstr "configured".toList pos with
    | none => (.ok,outputString,os)
    | some _ => (.ok,P.setString 64 "Configured" outputString,os)

theorem wpsLine_fits (P : Platform ω) (apIndex : Int32) :
    P.command 64 wpsFormat [.s apPrefix,.d apIndex] = wpsLine apIndex :=
  P.command_ap (by decide) apIndex

def wpsMarkers : List Str := ["wps_state=".toList,"configured".toList]

theorem wpsState_markers (P : Platform ω) (apIndex : Int32) (out : Str) (os : Os ω) :
    (wifiGetApWpsConfigurationState P apIndex (some out) os).2.1 = some
      (if InOrder wpsMarkers (syscmd P (wpsLine apIndex) [] 512 os).2.1 then "Configured".toList
      else "Not configured".toList) := by
  have hnot := P.setString_fits 64 "Not configured" (by decide) out
  have hyes := P.setString_fits 64 "Configured" (by decide)
    "Not configured".toList
  simp only [wifiGetApWpsConfigurationState,wpsLine_fits,hnot]
  generalize syscmd P (wpsLine apIndex) [] 512 os = read
  cases hfirst : strstr "wps_state=".toList read.2.1 with
  | none => rw [wpsMarkers,if_neg (not_inOrder hfirst _)]
  | some pos =>
    have hfrom := inOrder_from (n := "configured".toList) (c := 'c') hfirst (by decide) (by decide) []
    rw [inOrder_one,← strstr_isSome] at hfrom
    cases hsecond : strstr "configured".toList pos with
    | none =>
      rw [hsecond] at hfrom
      rw [wpsMarkers,if_neg (fun h => absurd (hfrom.mp h) (by decide))]
      simp only [hsecond]
    | some pos' =>
      rw [hsecond] at hfrom
      rw [wpsMarkers,if_pos (hfrom.mpr rfl)]
      simp only [hsecond,hyes]

def wpsConfig (before : List Str) (value : Str) (after : List Str) : Str :=
  unlines (before ++ ("wps_state=".toList ++ value) :: after)

theorem inOrder_read {size : Nat} {s : Str} (hnul : '\x00' ∉ s) (hfits : FitsUpToNewline size s)
    {ms : List Str} (hms : ∀ m ∈ ms, m ≠ [] ∧ '\n' ∉ m) :
    InOrder ms (syscmdText (s.length+1) size s) ↔ InOrder ms s := by
  have hread := syscmdText_fits hnul hfits
  generalize syscmdText (s.length+1) size s = held at hread
  rcases hread with rfl | rfl
  · exact Iff.rfl
  · exact (inOrder_append_line hms held).symm

theorem wpsConfig_configured (before after : List Str) :
    InOrder wpsMarkers (wpsConfig before "configured".toList after) := by
  have hrest : InOrder ["configured".toList] ("configured".toList ++ '\n' :: unlines after) :=
    (inOrder_one _ _).mpr (List.prefix_append _ _).isInfix
  refine ⟨unlines before,_,?_,hrest⟩
  simp [wpsConfig,unlines]

/-- The value decides exactly where it is `configured`, or where this text does not occur at all
behind the name of the setting: not as a part of the value, nor in a line that follows. -/
theorem wpsState_iff (P : Platform ω) (apIndex : Int32) (out : Str) {before after : List Str}
    {value : Str} (hnul : '\x00' ∉ wpsConfig before value after)
    (hfit : (wpsConfig before value after).length < 512) (os : Os ω)
    (hout : (P.popen (wpsLine apIndex) os.world).1 = some (wpsConfig before value after)) :
    (wifiGetApWpsConfigurationState P apIndex (some out) os).2.1 =
        some (if value = "configured".toList then "Configured".toList
          else "Not configured".toList) ↔
      value = "configured".toList ∨ ¬InOrder wpsMarkers (wpsConfig before value after) := by
  have hheld : InOrder wpsMarkers (syscmd P (wpsLine apIndex) [] 512 os).2.1 ↔
      InOrder wpsMarkers (wpsConfig before value after) := by
    rw [syscmd_reads hout]
    exact inOrder_read hnul (fits_unlines (by decide) hfit) (by decide)
  rw [wpsState_markers,Option.some.injEq,if_congr hheld rfl rfl]
  apply answer_iff (by decide)
  rintro rfl
  exact wpsConfig_configured before after

def otherBefore : List Str := ["bssid=11:22:33:44:55:66".toList]

def otherAfter : List Str := ["ssid=home".toList]

def unconfigured : Platform Unit :=
  Platform.answering (some (wpsConfig otherBefore "not configured".toList otherAfter))

theorem wpsState_iff_unconfigured :
    (wifiGetApWpsConfigurationState unconfigured 0 (some []) ⟨(),[]⟩).2.1 =
        some (if "not configured".toList = "configured".toList then "Configured".toList
          else "Not configured".toList) ↔
      "not configured".toList = "configured".toList ∨
        ¬InOrder wpsMarkers (wpsConfig otherBefore "not configured".toList otherAfter) :=
  wpsState_iff unconfigured 0 [] (by decide) (by decide) ⟨(),[]⟩ rfl

theorem wpsState_unconfigured :
    (wpsConfig otherBefore "not configured".toList otherAfter).length < 512 ∧
    "not configured".toList ≠ "configured".toList ∧
    (wifiGetApWpsConfigurationState unconfigured 0 (some []) ⟨(),[]⟩).2.1 =
      some "Configured".toList := by
  decide +kernel

/-! Whether an access point is up -/

def statusFormat : String := "ifconfig  | grep %s%d"

def statusLine (apIndex : Int32) : Str := sprintf statusFormat.toList [.s apPrefix,.d apIndex]

def wifiGetApStatus (P : Platform ω) (apIndex : Int32) (outputString : Option Str) (os : Os ω) :
    Ret × Option Str × Os ω :=
  let cmd := P.command 128 statusFormat [.s apPrefix,.d apIndex]
  let (_,buf,os) := syscmd P cmd [] 128 os
  if 3 < buf.length then (.ok,P.setString 32 "Up" outputString,os)
  else (.ok,P.setString 32 "Disable" outputString,os)

theorem statusLine_fits (P : Platform ω) (apIndex : Int32) :
    P.command 128 statusFormat [.s apPrefix,.d apIndex] = statusLine apIndex :=
  P.command_ap (by decide) apIndex

def Unnamed (s : Str) : Prop := ∀ d ∈ s, d.isDigit = true → ¬apPrefix ++ [d] <:+: s

instance (s : Str) : Decidable (Unnamed s) := inferInstanceAs (Decidable (∀ d ∈ s, _))

/-- What `ifconfig` prints of an interface that is up. Its name stands at the start of the first
line, before a character that is neither a letter nor a digit. -/
structure Block where
  name : Str
  separator : Char
  tail : Str
  more : List Str
  separates : separator.isAlphanum = false
  unnamed : ∀ l ∈ tail :: more, Unnamed l
  line : ∀ l ∈ (name ++ separator :: tail) :: more, '\n' ∉ l ∧ '\x00' ∉ l

def Block.lines (b : Block) : List Str := (b.name ++ b.separator :: b.tail) :: b.more

theorem apName_digits {apIndex : Int32} (hindex : 0 ≤ apIndex) :
    ∃ d ds, apName apIndex = apPrefix ++ d :: ds ∧ ∀ c ∈ d :: ds, c.isDigit = true := by
  have hnat : ¬apIndex.toInt < 0 := by
    have hle := Int32.le_iff_toInt_le.mp hindex
    simpa using hle
  have hformat : formatD apIndex = Nat.toDigits 10 apIndex.toInt.natAbs := if_neg hnat
  cases hdigits : formatD apIndex with
  | nil => exact absurd (hformat.symm.trans hdigits) Nat.toDigits_ne_nil
  | cons d ds =>
    refine ⟨d,ds,by rw [apName,hdigits],fun c hc => ?_⟩
    rw [← hdigits,hformat] at hc
    exact Nat.isDigit_of_mem_toDigits (by decide) (by decide) hc

theorem Unnamed.absent {s : Str} (h : Unnamed s) {apIndex : Int32} (hindex : 0 ≤ apIndex) :
    ¬apName apIndex <:+: s := by
  obtain ⟨d,ds,hname,hdigits⟩ := apName_digits hindex
  intro hin
  have hstart : apPrefix ++ [d] <:+: s := by
    refine List.IsInfix.trans ⟨[],ds,?_⟩ hin
    simp [hname]
  exact h d (hstart.subset (by simp)) (hdigits d (by simp)) hstart

theorem apName_not_mem {apIndex : Int32} (hindex : 0 ≤ apIndex) {c : Char}
    (hc : c.isAlphanum = false) : c ∉ apName apIndex := by
  obtain ⟨d,ds,hname,hdigits⟩ := apName_digits hindex
  rw [hname,List.mem_append]
  rintro (hletter | hdigit)
  · have hletters : ∀ x ∈ apPrefix, x.isAlphanum = true := by decide
    rw [hletters c hletter] at hc
    cases hc
  · rw [Char.isAlphanum,hdigits c hdigit,Bool.or_true] at hc
    cases hc

theorem Block.named_iff (b : Block) {apIndex : Int32} (hindex : 0 ≤ apIndex) :
    (∃ l ∈ b.lines, apName apIndex <:+: l) ↔ apName apIndex <:+: b.name := by
  have hne : apName apIndex ≠ [] := by
    obtain ⟨d,ds,hname,_⟩ := apName_digits hindex
    simp [hname]
  have hfirst := infix_line (l := b.name) hne (apName_not_mem hindex b.separates) b.tail
  have htail := (b.unnamed b.tail (by simp)).absent hindex
  rw [or_iff_left htail] at hfirst
  constructor
  · rintro ⟨l,hl,hin⟩
    rcases List.mem_cons.mp hl with rfl | hmore
    · exact hfirst.mp hin
    · exact absurd hin ((b.unnamed l (List.mem_cons_of_mem _ hmore)).absent hindex)
  · intro hin
    exact ⟨_,List.mem_cons_self,hfirst.mpr hin⟩

def ifconfig (up : List Block) : List Str := up.flatMap Block.lines

theorem grep_ifconfig {apIndex : Int32} (hindex : 0 ≤ apIndex) (up : List Block) :
    grep (apName apIndex) (ifconfig up) = [] ↔ ∀ b ∈ up, ¬apName apIndex <:+: b.name := by
  simp only [List.eq_nil_iff_forall_not_mem,mem_grep,ifconfig,List.mem_flatMap,
    ← Block.named_iff _ hindex]
  constructor
  · rintro h b hb ⟨l,hl,hin⟩
    exact h l ⟨⟨b,hb,hl⟩,hin⟩
  · rintro h l ⟨⟨b,hb,hl⟩,hin⟩
    exact h b hb ⟨l,hl,hin⟩

theorem syscmdText_named {apIndex : Int32} (hindex : 0 ≤ apIndex) {ls : List Str}
    (hls : ∀ l ∈ ls, '\x00' ∉ l ∧ apName apIndex <:+: l) :
    3 < (syscmdText ((unlines ls).length+1) 128 (unlines ls)).length ↔ ls ≠ [] := by
  cases ls with
  | nil => simp [syscmdText_nil]
  | cons l ls =>
    have hnul : '\x00' ∉ unlines (l :: ls) := by
      intro hmem
      obtain ⟨m,hm,hin⟩ := List.mem_flatMap.mp hmem
      exact (hls m hm).1 (by simpa using hin)
    have hlong : 3 < (unlines (l :: ls)).length := by
      obtain ⟨d,ds,hname,_⟩ := apName_digits hindex
      have hle := (hls l (by simp)).2.length_le
      have hpre : apPrefix.length = 3 := by decide
      rw [hname,List.length_append,List.length_cons] at hle
      rw [unlines_cons,List.length_append]
      omega
    obtain ⟨_,hread⟩ := @syscmdText_begins ((unlines (l :: ls)).length+1) 128 _ hnul
      (Nat.lt_succ_self _) (by decide)
    refine iff_of_true ?_ (by simp)
    rcases hread with hall | hfull
    · rwa [hall]
    · omega

theorem wifiGetApStatus_eq (P : Platform ω) {apIndex : Int32} (hindex : 0 ≤ apIndex) (out : Str)
    (up : List Block) (os : Os ω)
    (hout : (P.popen (statusLine apIndex) os.world).1 =
      some (unlines (grep (apName apIndex) (ifconfig up)))) :
    (wifiGetApStatus P apIndex (some out) os).2.1 =
      some (if ∃ b ∈ up, apName apIndex <:+: b.name then "Up".toList else "Disable".toList) := by
  have hread := @syscmdText_named apIndex hindex (grep (apName apIndex) (ifconfig up)) (by
    intro l hl
    obtain ⟨hline,hin⟩ := mem_grep.mp hl
    obtain ⟨b,_,hlb⟩ := List.mem_flatMap.mp hline
    exact ⟨(b.line l hlb).2,hin⟩)
  have hup := P.setString_fits 32 "Up" (by decide) out
  have hdisable := P.setString_fits 32 "Disable" (by decide) out
  simp only [wifiGetApStatus,statusLine_fits,syscmd_reads hout,hread,ne_eq,
    grep_ifconfig hindex]
  by_cases hany : ∃ b ∈ up, apName apIndex <:+: b.name
  · have hsome : ¬∀ b ∈ up, ¬apName apIndex <:+: b.name := by simpa using hany
    rw [if_pos hsome,if_pos hany]
    exact hup
  · have hnone : ∀ b ∈ up, ¬apName apIndex <:+: b.name := by simpa using hany
    rw [if_neg (not_not.mpr hnone),if_neg hany]
    exact hdisable

/-- The status is right exactly where the access point is up, or no interface that is up has a
longer name with this one in it. -/
theorem wifiGetApStatus_iff (P : Platform ω) {apIndex : Int32} (hindex : 0 ≤ apIndex) (out : Str)
    (up : List Block) (os : Os ω)
    (hout : (P.popen (statusLine apIndex) os.world).1 =
      some (unlines (grep (apName apIndex) (ifconfig up)))) :
    (wifiGetApStatus P apIndex (some out) os).2.1 =
        some (if apName apIndex ∈ up.map Block.name then "Up".toList else "Disable".toList) ↔
      apName apIndex ∈ up.map Block.name ∨ ∀ b ∈ up, ¬apName apIndex <:+: b.name := by
  have hany : apName apIndex ∈ up.map Block.name → ∃ b ∈ up, apName apIndex <:+: b.name := by
    intro hname
    obtain ⟨b,hb,hname⟩ := List.mem_map.mp hname
    exact ⟨b,hb,hname ▸ List.infix_rfl⟩
  rw [wifiGetApStatus_eq P hindex out up os hout,Option.some.injEq,answer_iff (by decide) hany]
  simp only [not_exists,not_and]

def ath10 : Block where
  name := "ath10".toList
  separator := ' '
  tail := "     Link encap:Ethernet".toList
  more := ["          UP BROADCAST RUNNING MULTICAST".toList,[]]
  separates := by decide
  unnamed := by decide
  line := by decide

def ath10Platform : Platform Unit :=
  Platform.answering (some (unlines (grep (apName 1) (ifconfig [ath10]))))

theorem wifiGetApStatus_iff_ath10 :
    (wifiGetApStatus ath10Platform 1 (some []) ⟨(),[]⟩).2.1 =
        some (if apName 1 ∈ [ath10].map Block.name then "Up".toList else "Disable".toList) ↔
      apName 1 ∈ [ath10].map Block.name ∨ ∀ b ∈ [ath10], ¬apName 1 <:+: b.name :=
  wifiGetApStatus_iff ath10Platform (by decide) [] [ath10] ⟨(),[]⟩ rfl

theorem wifiGetApStatus_ath10 :
    apName 1 ∉ [ath10].map Block.name ∧
    (wifiGetApStatus ath10Platform 1 (some []) ⟨(),[]⟩).2.1 = some "Up".toList := by
  decide +kernel

end RdkHal.Wifi
