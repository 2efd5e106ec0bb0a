import RdkHal.Wifi.Hal
import RdkHal.Lib.Posix

/-! The network name on its way to the shell: unquoted where an access point is created, between
double quotes where the name is pushed. -/

set_option autoImplicit false

namespace RdkHal.Wifi
open Text Posix

variable {ω : Type}

def wifiPushSsidAdvertisementEnable (_apIndex : Int32) (_enable : Bool) : Ret := .err

/-- `buf` is what the local holds at first. -/
def wifiCreateAp (P : Platform ω) (apIndex radioIndex : Int32) (essid : Option Str) (hideSsid : Bool)
    (buf : Str) (os : Os ω) : Ret × Os ω :=
  match essid with
  | none => (.err,os)
  | some essid =>
    let cmd := P.command 128 "wlanconfig %s%d create wlandev %s%d wlanmode ap"
      [.s apPrefix,.d apIndex,.s radioPrefix,.d radioIndex]
    let (_,buf,os) := syscmd P cmd buf 1024 os
    let cmd := P.command 128 "iwconfig %s%d essid %s mode master" [.s apPrefix,.d apIndex,.s essid]
    let (_,buf,os) := syscmd P cmd buf 1024 os
    let _ := wifiPushSsidAdvertisementEnable apIndex (!hideSsid)
    let cmd := P.command 128 "ifconfig %s%d txqueuelen 1000" [.s apPrefix,.d apIndex]
    let (_,_,os) := syscmd P cmd buf 1024 os
    (.ok,os)

def wifiPushSSID (P : Platform ω) (apIndex : Int32) (ssid buf : Str) (os : Os ω) : Ret × Os ω :=
  let cmd := P.command 128 "iwconfig %s%d essid \"%s\"" [.s apPrefix,.d apIndex,.s ssid]
  let (_,_,os) := syscmd P cmd buf 1024 os
  (.ok,os)

def argumentAfter (key : Str) : List Str → Option Str
  | [] => none
  | a :: args => if a = key then args.head? else argumentAfter key args

def Configures (cmd ssid : Str) : Prop :=
  ∃ argv, words cmd = some argv ∧ argv.head? = some "iwconfig".toList ∧
    argumentAfter "essid".toList argv = some ssid

def BothConfigure (P : Platform ω) (apIndex radioIndex : Int32) (ssid : Str) (hideSsid : Bool)
    (buf buf' : Str) (w w' : ω) : Prop :=
  (∃ cmd ∈ (wifiPushSSID P apIndex ssid buf ⟨w,[]⟩).2.issued, Configures cmd ssid) ∧
  ∃ cmd ∈ (wifiCreateAp P apIndex radioIndex (some ssid) hideSsid buf' ⟨w',[]⟩).2.issued,
    Configures cmd ssid

def apName (apIndex : Int32) : Str := apPrefix ++ formatD apIndex

def createLine (apIndex radioIndex : Int32) : Str :=
  begun ["wlanconfig".toList] ++ (apName apIndex ++ (" create wlandev ".toList ++
    ((radioPrefix ++ formatD radioIndex) ++ " wlanmode ap".toList)))

def essidLine (apIndex : Int32) (ssid : Str) : Str :=
  begun ["iwconfig".toList,apName apIndex,"essid".toList] ++
    (ssid ++ ' ' :: ("mode".toList ++ ' ' :: "master".toList))

def queueLine (apIndex : Int32) : Str :=
  begun ["ifconfig".toList] ++ (apName apIndex ++ " txqueuelen 1000".toList)

def pushLine (apIndex : Int32) (ssid : Str) : Str :=
  begun ["iwconfig".toList,apName apIndex,"essid".toList] ++ '\x22' :: (ssid ++ ['\x22'])

theorem command_create (P : Platform ω) (apIndex radioIndex : Int32) :
    P.command 128 "wlanconfig %s%d create wlandev %s%d wlanmode ap"
      [.s apPrefix,.d apIndex,.s radioPrefix,.d radioIndex] = createLine apIndex radioIndex := by
  have hap := formatD_length apIndex
  have hradio := formatD_length radioIndex
  rw [P.command_fits (by simp [Arg.text,apPrefix,radioPrefix]; omega)]
  simp [sprintf,createLine,begun,apName,apPrefix,radioPrefix,Arg.conversion,Arg.text]

theorem command_essid (P : Platform ω) (apIndex : Int32) {ssid : Str} (hssid : ssid.length ≤ 32) :
    P.command 128 "iwconfig %s%d essid %s mode master" [.s apPrefix,.d apIndex,.s ssid] =
      essidLine apIndex ssid := by
  have hap := formatD_length apIndex
  rw [P.command_fits (by simp [Arg.text,apPrefix]; omega)]
  simp [sprintf,essidLine,begun,apName,apPrefix,Arg.conversion,Arg.text]

theorem command_queue (P : Platform ω) (apIndex : Int32) :
    P.command 128 "ifconfig %s%d txqueuelen 1000" [.s apPrefix,.d apIndex] = queueLine apIndex := by
  have hap := formatD_length apIndex
  rw [P.command_fits (by simp [Arg.text,apPrefix]; omega)]
  simp [sprintf,queueLine,begun,apName,apPrefix,Arg.conversion,Arg.text]

theorem command_push (P : Platform ω) (apIndex : Int32) {ssid : Str} (hssid : ssid.length ≤ 32) :
    P.command 128 "iwconfig %s%d essid \"%s\"" [.s apPrefix,.d apIndex,.s ssid] =
      pushLine apIndex ssid := by
  have hap := formatD_length apIndex
  rw [P.command_fits (by simp [Arg.text,apPrefix]; omega)]
  simp [sprintf,pushLine,begun,apName,apPrefix,Arg.conversion,Arg.text]

theorem createAp_issued (P : Platform ω) (apIndex radioIndex : Int32) {ssid : Str}
    (hssid : ssid.length ≤ 32) (hideSsid : Bool) (buf : Str) (os : Os ω) :
    (wifiCreateAp P apIndex radioIndex (some ssid) hideSsid buf os).2.issued =
      os.issued ++ [createLine apIndex radioIndex,essidLine apIndex ssid,queueLine apIndex] := by
  simp only [wifiCreateAp,command_create,command_essid P apIndex hssid,command_queue,syscmd_issued,
    List.append_assoc,List.cons_append,List.nil_append]

theorem pushSSID_issued (P : Platform ω) (apIndex : Int32) {ssid : Str} (hssid : ssid.length ≤ 32)
    (buf : Str) (os : Os ω) :
    (wifiPushSSID P apIndex ssid buf os).2.issued = os.issued ++ [pushLine apIndex ssid] := by
  simp only [wifiPushSSID,command_push P apIndex hssid,syscmd_issued]

theorem apName_plain (apIndex : Int32) : PlainWord (apName apIndex) := by
  have hchars : ∀ c ∈ apName apIndex, c = 'a' ∨ c = 't' ∨ c = 'h' ∨ c = '-' ∨ c.isDigit = true := by
    intro c hc
    rcases List.mem_append.mp hc with hc | hc
    · have hletter : c = 'a' ∨ c = 't' ∨ c = 'h' := by simpa [apPrefix] using hc
      tauto
    · have hdigit := formatD_chars apIndex c hc
      tauto
  have hdigit {c d : Char} (hc : c.isDigit = true) (hd : d.isDigit = false) : c ≠ d := by
    rintro rfl
    rw [hd] at hc
    cases hc
  refine ⟨by simp [apName,apPrefix],fun c hc => ?_,by simp [Opens,apName,apPrefix],
    not_pattern_of (fun c hc => ?_)⟩
  · rcases hchars c hc with rfl | rfl | rfl | rfl | hc
    iterate 4 decide
    have hne (d : Char) (hd : d.isDigit = false) := hdigit hc hd
    simp [Literal,isBlank,operators,hne]
  · rcases hchars c hc with rfl | rfl | rfl | rfl | hc
    iterate 4 decide
    exact ⟨hdigit hc rfl,hdigit hc rfl,hdigit hc rfl⟩

def before (apIndex : Int32) : List Str := ["iwconfig".toList,apName apIndex,"essid".toList]

theorem before_plain (apIndex : Int32) : ∀ w ∈ before apIndex, PlainWord w := by
  intro w hw
  have hor : w = "iwconfig".toList ∨ w = apName apIndex ∨ w = "essid".toList := by
    simpa only [before,List.mem_cons,List.not_mem_nil,or_false] using hw
  rcases hor with rfl | rfl | rfl
  · decide
  · exact apName_plain apIndex
  · decide

theorem argumentAfter_before (apIndex : Int32) (argv : List Str) :
    argumentAfter "essid".toList (before apIndex ++ argv) = argv.head? := by
  simp [before,argumentAfter,apName,apPrefix]

theorem configures_essidLine (apIndex : Int32) (ssid : Str) :
    Configures (essidLine apIndex ssid) ssid ↔ PlainWord ssid := by
  constructor
  · rintro ⟨argv,hwords,_,hname⟩
    obtain ⟨more,rfl⟩ := words_begun (before_plain apIndex) hwords
    rw [argumentAfter_before] at hname
    refine plainWord_of_words (before_plain apIndex) (by decide) (by decide) hwords ?_
    rw [List.getElem?_append_right (Nat.le_refl _),Nat.sub_self,← List.head?_eq_getElem?,hname]
  · intro h
    have hline : essidLine apIndex ssid =
        spaced (before apIndex ++ [ssid,"mode".toList,"master".toList]) := by
      simp [essidLine,begun,before,spaced]
    refine ⟨before apIndex ++ [ssid,"mode".toList,"master".toList],?_,rfl,?_⟩
    · rw [hline]
      apply words_spaced
      intro w hw
      rcases List.mem_append.mp hw with hw | hw
      · exact before_plain apIndex w hw
      · rcases List.mem_cons.mp hw with rfl | hw
        · exact h
        · have hlast : ∀ v ∈ ["mode".toList,"master".toList], PlainWord v := by decide
          exact hlast w hw
    · rw [argumentAfter_before]
      rfl

theorem configures_pushLine (apIndex : Int32) {ssid : Str} (h : PlainWord ssid) :
    Configures (pushLine apIndex ssid) ssid := by
  have hquoted : ∀ c ∈ ssid, c ≠ '\x22' ∧ c ≠ '\\' ∧ c ≠ '$' ∧ c ≠ '\x60' := by
    intro c hc
    obtain ⟨_,hback,hdouble,_,hop⟩ := h.literal c hc
    exact ⟨hdouble,hback,by rintro rfl; exact hop (by decide),by rintro rfl; exact hop (by decide)⟩
  refine ⟨before apIndex ++ [ssid],?_,rfl,?_⟩
  · have hscan := @scan_begun [] _ (before_plain apIndex) ('\x22' :: (ssid ++ ['\x22']))
    rw [words,pushLine]
    change Option.map _ (Option.bind (Lexer.scan _ (begun (before apIndex) ++ _)) _) = _
    rw [hscan,scan_doubleQuotes hquoted]
    simp [bare_text,quoted_text,Function.comp_def]
  · rw [argumentAfter_before]
    rfl

theorem not_configures {tool : Str} (htool : PlainWord tool) (hne : tool ≠ "iwconfig".toList)
    (rest ssid : Str) : ¬Configures (begun [tool] ++ rest) ssid := by
  rintro ⟨argv,hwords,hhead,_⟩
  obtain ⟨more,rfl⟩ := words_begun (by simpa using htool) hwords
  exact hne (Option.some.inj hhead)

/-- Both ways to set a network name reach `iwconfig` with it exactly where the shell reads it
as a plain word, which the one without quotes needs. -/
theorem essid_iff (P : Platform ω) (apIndex radioIndex : Int32) {ssid : Str}
    (hssid : ssid.length ≤ 32) (hideSsid : Bool) (buf buf' : Str) (w w' : ω) :
    BothConfigure P apIndex radioIndex ssid hideSsid buf buf' w w' ↔ PlainWord ssid := by
  rw [BothConfigure,pushSSID_issued P apIndex hssid,createAp_issued P apIndex radioIndex hssid]
  constructor
  · rintro ⟨_,cmd,hcmd,h⟩
    have hor : cmd = createLine apIndex radioIndex ∨ cmd = essidLine apIndex ssid ∨
        cmd = queueLine apIndex := by simpa using hcmd
    rcases hor with rfl | rfl | rfl
    · exact absurd h (not_configures (by decide) (by decide) _ ssid)
    · exact (configures_essidLine apIndex ssid).mp h
    · exact absurd h (not_configures (by decide) (by decide) _ ssid)
  · intro h
    exact ⟨⟨_,by simp,configures_pushLine apIndex h⟩,
      ⟨_,by simp,(configures_essidLine apIndex ssid).mpr h⟩⟩

def idlePlatform : Platform Unit := Platform.answering (some [])

theorem essid_iff_lobby :
    BothConfigure idlePlatform 0 1 "Lobby".toList false [] [] () () ↔ PlainWord "Lobby".toList :=
  essid_iff idlePlatform 0 1 (by decide) false [] [] () ()

theorem blank_cut : ¬BothConfigure idlePlatform 0 1 "Guest Net".toList false [] [] () () := by
  rintro ⟨_,cmd,hcmd,h⟩
  have hissued : (wifiCreateAp idlePlatform 0 1 (some "Guest Net".toList) false [] ⟨(),[]⟩).2.issued =
      ["wlanconfig ath0 create wlandev wifi1 wlanmode ap".toList,
        "iwconfig ath0 essid Guest Net mode master".toList,
        "ifconfig ath0 txqueuelen 1000".toList] := by decide +kernel
  rw [hissued] at hcmd
  have hargv : ∀ c ∈ ["wlanconfig ath0 create wlandev wifi1 wlanmode ap".toList,
      "iwconfig ath0 essid Guest Net mode master".toList,"ifconfig ath0 txqueuelen 1000".toList],
      (words c).bind (argumentAfter "essid".toList) ≠ some "Guest Net".toList := by decide +kernel
  obtain ⟨argv,hwords,_,hname⟩ := h
  apply hargv cmd hcmd
  rw [hwords,Option.bind_some,hname]

end RdkHal.Wifi
