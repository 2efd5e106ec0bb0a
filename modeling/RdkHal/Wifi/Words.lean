import RdkHal.Wifi.Driver

/-! The words that the shell makes of the commands about settings. -/

set_option autoImplicit false

namespace RdkHal.Wifi
open Text Posix

theorem plainWord_of_alphanum {s : Str} (hne : s ≠ [])
    (hs : ∀ c ∈ s, c = '-' ∨ c.isAlphanum = true) : PlainWord s := by
  have hdiffer {c d : Char} (hc : c = '-' ∨ c.isAlphanum = true) (hd : d ≠ '-')
      (hd' : d.isAlphanum = false) : c ≠ d := by
    rintro rfl
    rcases hc with hc | hc
    · exact hd hc
    · rw [hd'] at hc
      cases hc
  refine ⟨hne,fun c hc => ?_,?_,not_pattern_of fun c hc => ?_⟩
  · have hne (d : Char) (hd : d ≠ '-') (hd' : d.isAlphanum = false) := hdiffer (hs c hc) hd hd'
    simp [Literal,isBlank,operators,hne]
  · obtain ⟨c,rest,rfl⟩ := List.exists_cons_of_ne_nil hne
    have hc := hs c (by simp)
    simpa [Opens] using
      ⟨hdiffer hc (d := '#') (by decide) rfl,hdiffer hc (d := '~') (by decide) rfl⟩
  · exact ⟨hdiffer (hs c hc) (by decide) rfl,hdiffer (hs c hc) (by decide) rfl,
      hdiffer (hs c hc) (by decide) rfl⟩

theorem alphanum_of_digit {c : Char} (hc : c.isDigit = true) : c.isAlphanum = true := by
  simp [Char.isAlphanum,hc]

theorem toDigits_plain (n : Nat) : PlainWord (Nat.toDigits 10 n) :=
  plainWord_of_alphanum Nat.toDigits_ne_nil fun c hc =>
    Or.inr (alphanum_of_digit ((numeral_toDigits n).digits c hc))

theorem radioName_plain (radioIndex : Int32) : PlainWord (radioPrefix ++ formatD radioIndex) := by
  refine plainWord_of_alphanum (by simp [radioPrefix]) fun c hc => ?_
  rcases List.mem_append.mp hc with hc | hc
  · have hletters : ∀ c ∈ radioPrefix, c.isAlphanum = true := by decide
    exact Or.inr (hletters c hc)
  · exact (formatD_chars radioIndex c hc).imp_right alphanum_of_digit

theorem formatD_toInt32 {n : UInt32} (hn : n.toNat < 2^31) :
    formatD n.toInt32 = Nat.toDigits 10 n.toNat := by
  have hcases := toInt_cases n.toInt32
  rw [UInt32.toUInt32_toInt32] at hcases
  have hpos : ¬n.toInt32.toInt < 0 := by omega
  have habs : n.toInt32.toInt.natAbs = n.toNat := by omega
  rw [formatD,if_neg hpos,habs]

theorem thresholdText_eq {threshold : UInt32} (h : threshold.toNat < 2^31) :
    thresholdText threshold = Key.printThreshold threshold := by
  have hzero : 0 < threshold ↔ ¬threshold = 0 := by
    rw [UInt32.lt_iff_toNat_lt,← UInt32.toNat_inj]
    exact Nat.pos_iff_ne_zero
  simp only [thresholdText,Key.printThreshold,hzero,formatD_toInt32 h,ite_not]

theorem printThreshold_plain (threshold : UInt32) : PlainWord (Key.printThreshold threshold) := by
  rw [Key.printThreshold]
  split
  · decide
  · exact toDigits_plain _

/-- What stands between double quotes as itself. -/
def Quotable (s : Str) : Prop := ∀ c ∈ s, c ≠ '\x22' ∧ c ≠ '\\' ∧ c ≠ '$' ∧ c ≠ '\x60'

theorem words_pushLine (apIndex : Int32) {ssid : Str} (h : Quotable ssid) :
    words (pushLine apIndex ssid) = some (pairWords apIndex "essid".toList ssid) := by
  have hscan := @scan_begun [] _ (before_plain apIndex) ('\x22' :: (ssid ++ ['\x22']))
  rw [words,pushLine]
  change Option.map _ (Option.bind (Lexer.scan _ (begun (before apIndex) ++ _)) _) = _
  rw [hscan,scan_doubleQuotes h]
  simp [bare_text,quoted_text,before,pairWords]

theorem words_pair (apIndex : Int32) {key value : Str} (hkey : PlainWord key)
    (hvalue : PlainWord value) :
    words (spaced (pairWords apIndex key value)) = some (pairWords apIndex key value) := by
  apply words_spaced
  have hfirst : PlainWord "iwconfig".toList := by decide
  intro w hw
  simp only [pairWords,List.mem_cons,List.not_mem_nil,or_false] at hw
  rcases hw with rfl | rfl | rfl | rfl
  · exact hfirst
  · exact apName_plain apIndex
  · exact hkey
  · exact hvalue

def createWords (apIndex radioIndex : Int32) : List Str :=
  "wlanconfig".toList :: apName apIndex :: "create".toList ::
    [Key.wlandev.word,Key.wlandev.print radioIndex,Key.wlanmode.word,Key.wlanmode.print ()]

theorem createWords_plain (apIndex radioIndex : Int32) :
    ∀ w ∈ createWords apIndex radioIndex, PlainWord w := by
  have htool : PlainWord "wlanconfig".toList := by decide
  have hverb : PlainWord "create".toList := by decide
  have hdevice : PlainWord "wlandev".toList := by decide
  have hmode : PlainWord "wlanmode".toList := by decide
  have hap : PlainWord "ap".toList := by decide
  simp only [createWords,List.forall_mem_cons]
  exact ⟨htool,apName_plain apIndex,hverb,hdevice,radioName_plain radioIndex,hmode,hap,
    List.forall_mem_nil _⟩

theorem createLine_spaced (apIndex radioIndex : Int32) :
    createLine apIndex radioIndex = spaced (createWords apIndex radioIndex) := by
  have hwords : createWords apIndex radioIndex = ["wlanconfig".toList,apName apIndex,
      "create".toList,"wlandev".toList,radioPrefix ++ formatD radioIndex,"wlanmode".toList,
      "ap".toList] := rfl
  rw [hwords]
  unfold createLine
  simp only [begun,spaced]
  simp

def essidWords (apIndex : Int32) (ssid : Str) : List Str :=
  pairWords apIndex Key.essid.word ssid ++ [Key.mode.word,Key.mode.print ()]

theorem words_essid (apIndex : Int32) {ssid : Str} (h : PlainWord ssid) :
    words (essidLine apIndex ssid) = some (essidWords apIndex ssid) := by
  have hwords : essidWords apIndex ssid = ["iwconfig".toList,apName apIndex,"essid".toList,ssid,
      "mode".toList,"master".toList] := rfl
  have hline : essidLine apIndex ssid = spaced (essidWords apIndex ssid) := by
    rw [hwords]
    simp [essidLine,begun,spaced]
  have hmode : PlainWord "mode".toList := by decide
  have hmaster : PlainWord "master".toList := by decide
  rw [hline,words_spaced]
  simp only [hwords,List.forall_mem_cons]
  exact ⟨before_plain apIndex _ (by simp [before]),apName_plain apIndex,
    before_plain apIndex _ (by simp [before]),h,hmode,hmaster,List.forall_mem_nil _⟩

def queueWords (apIndex : Int32) : List Str :=
  ["ifconfig".toList,apName apIndex,Key.txqueuelen.word,Key.txqueuelen.print (1000 : Nat)]

theorem words_queue (apIndex : Int32) : words (queueLine apIndex) = some (queueWords apIndex) := by
  have hwords : queueWords apIndex = ["ifconfig".toList,apName apIndex,"txqueuelen".toList,
      "1000".toList] := rfl
  have hline : queueLine apIndex = spaced (queueWords apIndex) := by
    rw [hwords]
    unfold queueLine
    simp [begun,spaced]
  have htool : PlainWord "ifconfig".toList := by decide
  have hkey : PlainWord "txqueuelen".toList := by decide
  have hvalue : PlainWord "1000".toList := by decide
  rw [hline,words_spaced]
  simp only [hwords,List.forall_mem_cons]
  exact ⟨htool,apName_plain apIndex,hkey,hvalue,List.forall_mem_nil _⟩

def destroyWords (apIndex : Int32) : List Str :=
  ["wlanconfig".toList,apName apIndex,"destroy".toList]

theorem destroyWords_plain (apIndex : Int32) : ∀ w ∈ destroyWords apIndex, PlainWord w := by
  have htool : PlainWord "wlanconfig".toList := by decide
  have hverb : PlainWord "destroy".toList := by decide
  simp only [destroyWords,List.forall_mem_cons]
  exact ⟨htool,apName_plain apIndex,hverb,List.forall_mem_nil _⟩

end RdkHal.Wifi
