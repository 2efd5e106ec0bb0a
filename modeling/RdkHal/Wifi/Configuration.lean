import RdkHal.Lib.Machines
import RdkHal.Wifi.Words

/-! The wireless settings over whole runs of calls: the commands that reach the tools keep the
interfaces as the settings say. -/

set_option autoImplicit false

namespace RdkHal.Wifi
open Text Posix Runs

variable {ω : Type}

inductive Call where
  | createAp (apIndex radioIndex : Int32) (essid : Option Str) (hideSsid : Bool)
  | deleteAp (apIndex : Int32)
  | pushSSID (apIndex : Int32) (ssid : Str)
  | fragmentationThreshold (apIndex : Int32) (threshold : UInt32)
  | rtsThreshold (apIndex : Int32) (threshold : UInt32)
  | pushChannel (radioIndex : Int32) (channel : UInt32)
  | transmitPower (radioIndex : Int32) (power : UInt64)
  | readPower (radioIndex : Int32) (outputUlong : Option UInt64)
  | readStatus (ssidIndex : Int32) (outputString : Option Str)
  deriving DecidableEq

inductive Output where
  | power (outputUlong : UInt64)
  | status (outputString : Str)
  deriving DecidableEq

def statusText (there : Bool) : Str :=
  if there then "Enabled".toList else "Disabled".toList

namespace Call

/-- `buf` is what the stack holds. -/
def perform (P : Platform ω) (c : Call) (buf : Str) (os : Os ω) : (Ret × Option Output) × Os ω :=
  let setting := fun r : Ret × Os ω => ((r.1,none),r.2)
  match c with
  | createAp i r essid hide => setting (wifiCreateAp P i r essid hide buf os)
  | deleteAp i => setting (wifiDeleteAp P i buf os)
  | pushSSID i ssid => setting (wifiPushSSID P i ssid buf os)
  | fragmentationThreshold i n => setting (wifiSetRadioFragmentationThreshold P i n buf os)
  | rtsThreshold i n => setting (wifiSetApRtsThreshold P i n buf os)
  | pushChannel r n => setting (wifiPushChannel P r n buf os)
  | transmitPower r n => setting (wifiSetRadioTransmitPower P r n os)
  | readPower r out =>
    let (ret,out,os) := wifiGetRadioTransmitPower P r out os
    ((ret,out.map .power),os)
  | readStatus i out =>
    let (ret,out,os) := wifiGetSSIDStatus P i out os
    ((ret,out.map .status),os)

def apply (S : Settings) (c : Call) : (Ret × Option Output) × Settings :=
  match c with
  | createAp i r (some ssid) _ =>
    let S := if (S i).isSome then S else ((S.create i).put i .wlandev r).put i .wlanmode ()
    ((.ok,none),((S.put i .essid ssid).put i .mode ()).put i .txqueuelen (1000 : Nat))
  | createAp _ _ none _ => ((.err,none),S)
  | deleteAp i => ((.ok,none),S.delete i)
  | pushSSID i ssid => ((.ok,none),S.put i .essid ssid)
  | fragmentationThreshold i n => ((.ok,none),S.put i .frag n)
  | rtsThreshold i n => ((.ok,none),S.put i .rts n)
  | pushChannel r n => ((.ok,none),S.put (radioAp r) .freq n)
  | transmitPower r n => ((.ok,none),S.put (radioAp r) .txpower n)
  | readPower _ none => ((.err,none),S)
  | readPower r (some _) =>
    ((.ok,((S (radioAp r)).bind fun ap => ap .txpower).map Output.power),S)
  | readStatus _ none => ((.err,none),S)
  | readStatus i (some _) => ((.ok,some (.status (statusText (S i).isSome))),S)

def argvs : Call → List (List Str)
  | createAp i r (some ssid) _ =>
    [createWords i r,essidWords i ssid,queueWords i]
  | deleteAp i => [destroyWords i]
  | pushSSID i ssid => [pairWords i Key.essid.word ssid]
  | fragmentationThreshold i n => [pairWords i Key.frag.word (Key.frag.print n)]
  | rtsThreshold i n => [pairWords i Key.rts.word (Key.rts.print n)]
  | pushChannel r n => [pairWords (radioAp r) Key.freq.word (Key.freq.print n)]
  | transmitPower r n => [pairWords (radioAp r) Key.txpower.word (Key.txpower.print n)]
  | createAp _ _ none _ | readPower _ _ | readStatus _ _ => []

/-- The name goes through the shell unchanged, and a number is not printed as a negative one. -/
def Printable : Call → Prop
  | createAp _ _ (some ssid) _ => PlainWord ssid ∧ ssid.length ≤ 32
  | pushSSID _ ssid => Quotable ssid ∧ ssid.length ≤ 32
  | fragmentationThreshold _ n | rtsThreshold _ n | pushChannel _ n => n.toNat < 2^31
  | _ => True

def reads : Call → Bool
  | readPower _ _ | readStatus _ _ => true
  | _ => false

end Call

def Platform.after (P : Platform ω) (lines : List Str) (w : ω) : ω :=
  lines.foldl (fun w line => (P.popen line w).2) w

theorem syscmd_world (P : Platform ω) (cmd buf : Str) (size : Int) (os : Os ω) :
    (syscmd P cmd buf size os).2.2.world = P.after [cmd] os.world := by
  rw [syscmd]
  split <;> rename_i h <;> exact congrArg (fun r => r.2.world) h.symm

theorem Call.issues (P : Platform ω) {c : Call} (hc : c.Printable) (hset : c.reads = false)
    (S : Settings) (buf : Str) (os : Os ω) :
    (c.perform P buf os).1 = (c.apply S).1 ∧
    ∃ lines, List.Forall₂ (fun line argv => words line = some argv) lines c.argvs ∧
      (c.perform P buf os).2.world = P.after lines os.world := by
  have hone {line : Str} {argv : List Str} (h : words line = some argv) :
      List.Forall₂ (fun line argv => words line = some argv) [line] [argv] :=
    List.Forall₂.cons h List.Forall₂.nil
  cases c with
  | createAp i r essid hide =>
    cases essid with
    | none => exact ⟨rfl,[],List.Forall₂.nil,rfl⟩
    | some ssid =>
      obtain ⟨hplain,hlen⟩ := hc
      have hcreate : words (createLine i r) = some (createWords i r) := by
        rw [createLine_spaced,words_spaced (createWords_plain i r)]
      refine ⟨rfl,[createLine i r,essidLine i ssid,queueLine i],
        .cons hcreate (.cons (words_essid i hplain) (hone (words_queue i))),?_⟩
      simp only [perform,wifiCreateAp,command_create,command_essid P i hlen,command_queue,
        syscmd_world]
      rfl
  | deleteAp i =>
    refine ⟨rfl,[spaced (destroyWords i)],hone (words_spaced (destroyWords_plain i)),?_⟩
    simp only [perform,wifiDeleteAp,destroyCommand_spaced,syscmd_world]
    rfl
  | pushSSID i ssid =>
    obtain ⟨hquotable,hlen⟩ := hc
    refine ⟨rfl,[pushLine i ssid],hone (words_pushLine i hquotable),?_⟩
    simp only [perform,wifiPushSSID,command_push P i hlen,syscmd_world]
  | fragmentationThreshold i n =>
    refine ⟨rfl,[spaced (pairWords i Key.frag.word (Key.frag.print n))],
      hone (words_pair i (by decide) (printThreshold_plain n)),?_⟩
    have hline : printed (fragLine i n) =
        spaced (pairWords i Key.frag.word (Key.frag.print n)) := by
      rw [printed,if_pos (fragLine_length i n),fragLine_spaced,thresholdText_eq hc]
      rfl
    simp only [perform,wifiSetRadioFragmentationThreshold,fragCommand_printed,hline,syscmd_world]
  | rtsThreshold i n =>
    refine ⟨rfl,[spaced (pairWords i Key.rts.word (Key.rts.print n))],
      hone (words_pair i (by decide) (printThreshold_plain n)),?_⟩
    simp only [perform,wifiSetApRtsThreshold,rtsCommand_spaced,thresholdText_eq hc,syscmd_world]
    rfl
  | pushChannel r n =>
    refine ⟨rfl,[spaced (pairWords (radioAp r) Key.freq.word (Key.freq.print n))],
      hone (words_pair (radioAp r) (by decide) (toDigits_plain n.toNat)),?_⟩
    simp only [perform,wifiPushChannel,channelCommand_spaced,formatD_toInt32 hc,syscmd_world]
    rfl
  | transmitPower r n =>
    refine ⟨rfl,[spaced (pairWords (radioAp r) Key.txpower.word (Key.txpower.print n))],
      hone (words_pair (radioAp r) (by decide) (toDigits_plain n.toNat)),?_⟩
    simp only [perform,wifiSetRadioTransmitPower,powerSetting_spaced,syscmd_world]
    rfl
  | readPower r out => cases hset
  | readStatus i out => cases hset

/-! What the tools make of the words -/

theorem tool_create (d : Driver) (apIndex radioIndex : Int32) :
    d.tool (createWords apIndex radioIndex) =
    if (d (apName apIndex)).isSome then d
    else ((d.create (apName apIndex)).set (apName apIndex) Key.wlandev.word
      (Key.wlandev.print radioIndex)).set (apName apIndex) Key.wlanmode.word
        (Key.wlanmode.print ()) := by
  have htool : ¬("wlanconfig".toList = "iwconfig".toList ∨
      "wlanconfig".toList = "ifconfig".toList) := by decide
  rw [createWords,Driver.tool,if_neg htool,if_pos rfl,if_pos rfl]
  rfl

theorem tool_destroy (d : Driver) (apIndex : Int32) :
    d.tool (destroyWords apIndex) = Function.update d (apName apIndex) none := by
  have htool : ¬("wlanconfig".toList = "iwconfig".toList ∨
      "wlanconfig".toList = "ifconfig".toList) := by decide
  have hverb : ¬"destroy".toList = "create".toList := by decide
  rw [destroyWords,Driver.tool,if_neg htool,if_pos rfl,if_neg hverb,if_pos rfl]

theorem tool_pair (d : Driver) (apIndex : Int32) (key value : Str) :
    d.tool (pairWords apIndex key value) = d.set (apName apIndex) key value := by
  rw [pairWords,Driver.tool,if_pos (Or.inl rfl)]
  rfl

theorem tool_essid (d : Driver) (apIndex : Int32) (ssid : Str) :
    d.tool (essidWords apIndex ssid) =
      (d.set (apName apIndex) Key.essid.word (Key.essid.print ssid)).set (apName apIndex)
        Key.mode.word (Key.mode.print ()) := by
  have hwords : essidWords apIndex ssid = "iwconfig".toList :: apName apIndex :: Key.essid.word ::
      [ssid,Key.mode.word,Key.mode.print ()] := rfl
  rw [hwords,Driver.tool,if_pos (Or.inl rfl)]
  rfl

theorem tool_queue (d : Driver) (apIndex : Int32) : d.tool (queueWords apIndex) =
    d.set (apName apIndex) Key.txqueuelen.word (Key.txqueuelen.print (1000 : Nat)) := by
  rw [queueWords,Driver.tool,if_pos (Or.inr rfl)]
  rfl

theorem Represents.made {S : Settings} {d : Driver} (h : Represents S d) (i r : Int32) :
    Represents (if (S i).isSome then S else ((S.create i).put i .wlandev r).put i .wlanmode ())
      (d.tool (createWords i r)) := by
  rw [tool_create,h.isSome]
  split
  · exact h
  · exact ((h.create i).set i .wlandev r).set i .wlanmode ()

theorem Represents.call {S : Settings} {d : Driver} (h : Represents S d) {c : Call}
    (hset : c.reads = false) : Represents (c.apply S).2 (c.argvs.foldl Driver.tool d) := by
  cases c with
  | createAp i r essid hide =>
    cases essid with
    | none => exact h
    | some ssid =>
      have hnamed := ((h.made i r).set i .essid ssid).set i .mode ()
      rw [← tool_essid] at hnamed
      have hqueued := hnamed.set i .txqueuelen (1000 : Nat)
      rw [← tool_queue] at hqueued
      exact hqueued
  | deleteAp i =>
    simp only [Call.argvs,List.foldl_cons,List.foldl_nil,tool_destroy]
    exact h.delete i
  | pushSSID i ssid =>
    simp only [Call.argvs,List.foldl_cons,List.foldl_nil,tool_pair]
    exact h.set i .essid ssid
  | fragmentationThreshold i n =>
    simp only [Call.argvs,List.foldl_cons,List.foldl_nil,tool_pair]
    exact h.set i .frag n
  | rtsThreshold i n =>
    simp only [Call.argvs,List.foldl_cons,List.foldl_nil,tool_pair]
    exact h.set i .rts n
  | pushChannel r n =>
    simp only [Call.argvs,List.foldl_cons,List.foldl_nil,tool_pair]
    exact h.set (radioAp r) .freq n
  | transmitPower r n =>
    simp only [Call.argvs,List.foldl_cons,List.foldl_nil,tool_pair]
    exact h.set (radioAp r) .txpower n
  | readPower r out => cases hset
  | readStatus i out => cases hset

/-- The tools that a system has do what the driver model says, with arguments that they accept,
`iwlist` shows the transmit power that has been set, and `ifconfig` the interfaces that there
are. -/
structure Tools (P : Platform ω) (view : ω → Driver) (accepts : List Str → Prop) : Prop where
  runs : ∀ line argv w, words line = some argv → accepts argv →
    view (P.popen line w).2 = (view w).tool argv
  readsPower : ∀ radioIndex w, view (P.popen (powerLine (radioAp radioIndex)) w).2 = view w
  power : ∀ radioIndex w iface value, view w (apName (radioAp radioIndex)) = some iface →
    iface Key.txpower.word = some value →
    ∃ rest, '\x00' ∉ rest ∧
      (P.popen (powerLine (radioAp radioIndex)) w).1 = some (value ++ ' ' :: rest)
  readsStatus : ∀ apIndex w, view (P.popen (ssidLine apIndex) w).2 = view w
  status : ∀ apIndex w, ∃ text, '\x00' ∉ text ∧
    (P.popen (ssidLine apIndex) w).1 = some text ∧
    if (view w (apName apIndex)).isSome then 5 < text.length else text = []

theorem Tools.after {P : Platform ω} {view : ω → Driver} {accepts : List Str → Prop}
    (tools : Tools P view accepts) {lines : List Str} {argvs : List (List Str)}
    (h : List.Forall₂ (fun line argv => words line = some argv) lines argvs)
    (haccepts : ∀ argv ∈ argvs, accepts argv) (w : ω) :
    view (P.after lines w) = argvs.foldl Driver.tool (view w) := by
  induction h generalizing w with
  | nil => rfl
  | cons hline hrest ih =>
    obtain ⟨hfirst,hmore⟩ := List.forall_mem_cons.mp haccepts
    rw [List.foldl_cons,← tools.runs _ _ w hline hfirst]
    exact ih hmore _

/-- A call whose words the shell and the tools take, or a question about a power that has been
set and fits `long`. -/
def Call.Served (accepts : List Str → Prop) (S : Settings) (c : Call) : Prop :=
  c.Printable ∧ (∀ argv ∈ c.argvs, accepts argv) ∧
    ∀ radioIndex old, c = .readPower radioIndex (some old) →
      ∃ ap power, S (radioAp radioIndex) = some ap ∧ ap .txpower = some power ∧ power.toNat < 2^63

theorem atol_printed {n : UInt64} (hn : n.toNat < 2^63) {t : Str}
    (ht : ∀ c ∈ t.head?, c.isDigit = false) :
    (atol (Nat.toDigits 10 n.toNat ++ t)).toUInt64 = n := by
  have hmin : (min n.toNat (2^63-1) : Nat) = n.toNat := by omega
  rw [atol,(numeral_toDigits n.toNat).strtol_append ht,hmin]
  apply UInt64.toNat_inj.mp
  have hbits : (Int64.ofInt (n.toNat : Int)).toUInt64.toNat =
      (BitVec.ofInt 64 (n.toNat : Int)).toNat := rfl
  rw [hbits,BitVec.toNat_ofInt]
  have hlt := n.toNat_lt
  omega

theorem wifiGetRadioTransmitPower_reads (P : Platform ω) {radioIndex : Int32} {os : Os ω}
    {power : UInt64} {rest : Str} (hpower : power.toNat < 2^63) (hnul : '\x00' ∉ rest)
    (hout : (P.popen (powerLine (radioAp radioIndex)) os.world).1 =
      some (Nat.toDigits 10 power.toNat ++ ' ' :: rest)) (old : UInt64) :
    wifiGetRadioTransmitPower P radioIndex (some old) os =
      (.ok,some power,(P.shell (powerLine (radioAp radioIndex)) os).2) := by
  have hdigits : (Nat.toDigits 10 power.toNat).length ≤ 19 :=
    (Nat.length_toDigits_le_iff (by decide) (by decide)).mpr (by omega)
  have hnul' : '\x00' ∉ Nat.toDigits 10 power.toNat ++ ' ' :: rest := by
    have hnot := (numeral_toDigits power.toNat).not_mem (c := '\x00') (by decide)
    simp [hnot,hnul]
  obtain ⟨hbegins,hall⟩ := @syscmdText_begins _ 256 _ hnul' (Nat.lt_succ_self _) (by decide)
  -- the digits are within the part that is read, and the blank behind them is
  have hread : ∃ t, syscmdText ((Nat.toDigits 10 power.toNat ++ ' ' :: rest).length+1) 256
      (Nat.toDigits 10 power.toNat ++ ' ' :: rest) = Nat.toDigits 10 power.toNat ++ ' ' :: t := by
    rcases hall with hall | hfull
    · exact ⟨rest,hall⟩
    · have hfirst : Nat.toDigits 10 power.toNat ++ [' '] <+:
          Nat.toDigits 10 power.toNat ++ ' ' :: rest := ⟨rest,by simp⟩
      obtain ⟨t,ht⟩ := List.prefix_of_prefix_length_le hfirst hbegins
        (by rw [List.length_append,List.length_singleton]; omega)
      exact ⟨t,by rw [← ht]; simp⟩
  obtain ⟨t,ht⟩ := hread
  simp only [wifiGetRadioTransmitPower,powerCommand_eq,syscmd_reads hout,ht]
  rw [atol_printed hpower (by simp)]

theorem wifiGetSSIDStatus_shows (P : Platform ω) {ssidIndex : Int32} {os : Os ω} {text : Str}
    {there : Bool} (hnul : '\x00' ∉ text)
    (hout : (P.popen (ssidLine ssidIndex) os.world).1 = some text)
    (hthere : if there then 5 < text.length else text = []) (old : Str) :
    wifiGetSSIDStatus P ssidIndex (some old) os =
      (.ok,some (statusText there),(P.shell (ssidLine ssidIndex) os).2) := by
  obtain ⟨_,hall⟩ := @syscmdText_begins (text.length+1) 128 _ hnul (by omega) (by decide)
  have hlong : (5 < (syscmdText (text.length+1) 128 text).length) = (there = true) := by
    cases there with
    | true =>
      have hlen : 5 < text.length := hthere
      refine propext (iff_of_true ?_ rfl)
      rcases hall with hall | hfull
      · rwa [hall]
      · omega
    | false =>
      have hempty : text = [] := hthere
      subst hempty
      simp [syscmdText_nil]
  have hfits : (statusText there).length < 64 := by cases there <;> decide
  simp only [wifiGetSSIDStatus,ssidCommand_eq,syscmd_reads hout,hlong]
  exact congrArg (fun r => (Ret.ok,some (Prod.snd r),_)) (P.lib.strcpyS_fits 64 _ hfits)

namespace Tools

variable {P : Platform ω} {view : ω → Driver} {accepts : List Str → Prop}

theorem readPower (tools : Tools P view accepts) {S : Settings} {os : Os ω}
    (h : Represents S (view os.world)) {radioIndex : Int32} (old : UInt64) {power : UInt64}
    {ap : Ap} (hap : S (radioAp radioIndex) = some ap) (hpower : ap .txpower = some power)
    (hfits : power.toNat < 2^63) :
    ∃ os', wifiGetRadioTransmitPower P radioIndex (some old) os = (.ok,some power,os') ∧
      view os'.world = view os.world := by
  have hrel := h (radioAp radioIndex)
  rw [hap] at hrel
  revert hrel
  generalize hiface : view os.world (apName (radioAp radioIndex)) = iface
  rintro ⟨hshown⟩
  have hvalue := hshown .txpower
  rw [hpower] at hvalue
  obtain ⟨rest,hnul,hout⟩ := tools.power radioIndex os.world _ _ hiface hvalue
  exact ⟨_,wifiGetRadioTransmitPower_reads P hfits hnul hout old,
    tools.readsPower radioIndex os.world⟩

theorem readStatus (tools : Tools P view accepts) {S : Settings} {os : Os ω}
    (h : Represents S (view os.world)) (ssidIndex : Int32) (old : Str) :
    ∃ os', wifiGetSSIDStatus P ssidIndex (some old) os =
        (.ok,some (statusText (S ssidIndex).isSome),os') ∧ view os'.world = view os.world := by
  obtain ⟨text,hnul,hout,hthere⟩ := tools.status ssidIndex os.world
  rw [h.isSome] at hthere
  exact ⟨_,wifiGetSSIDStatus_shows P hnul hout hthere old,tools.readsStatus ssidIndex os.world⟩

end Tools

theorem Call.step {P : Platform ω} {view : ω → Driver} {accepts : List Str → Prop}
    (tools : Tools P view accepts) {S : Settings} {os : Os ω} (h : Represents S (view os.world))
    {c : Call} (hc : c.Served accepts S) (buf : Str) :
    (c.perform P buf os).1 = (c.apply S).1 ∧
      Represents (c.apply S).2 (view (c.perform P buf os).2.world) := by
  obtain ⟨hprintable,haccepts,hread⟩ := hc
  cases hreads : c.reads with
  | false =>
    obtain ⟨hanswer,lines,hlines,hworld⟩ := c.issues P hprintable hreads S buf os
    rw [hworld,tools.after hlines haccepts]
    exact ⟨hanswer,h.call hreads⟩
  | true =>
    cases c with
    | readPower r out =>
      cases out with
      | none => exact ⟨rfl,h⟩
      | some old =>
        obtain ⟨ap,power,hap,hpower,hfits⟩ := hread r old rfl
        obtain ⟨os',hget,hview⟩ := tools.readPower h old hap hpower hfits
        simp only [perform,hget,hview,apply,hap,Option.bind_some,hpower]
        exact ⟨rfl,h⟩
    | readStatus i out =>
      cases out with
      | none => exact ⟨rfl,h⟩
      | some old =>
        obtain ⟨os',hget,hview⟩ := tools.readStatus h i old
        simp only [perform,hget,hview,apply]
        exact ⟨rfl,h⟩
    | _ => cases hreads

/-! A system that is a driver -/

namespace Driver

def powerShown (d : Driver) (apIndex : Int32) : Str :=
  ((d (apName apIndex)).bind fun iface => iface Key.txpower.word).getD [] ++ " dBm\n".toList

def statusShown (d : Driver) (name : Str) : Str :=
  if (d name).isSome then name ++ "      Link encap:Ethernet\n".toList else []

def shown (d : Driver) (line : Str) : Str :=
  if line = powerLine 0 then d.powerShown 0
  else if line = powerLine 1 then d.powerShown 1
  else d.statusShown ((line.drop 9).takeWhile (· ≠ ' '))

end Driver

def driverPlatform : Platform Driver where
  lib := Safec.reference
  popen line d :=
    match words line with
    | some argv => (some [],d.tool argv)
    | none => (some (d.shown line),d)
  calloc _ d := (true,d)
  boolOf n := n.toInt

theorem driverPlatform_pipe {line : Str} (h : words line = none) (d : Driver) :
    driverPlatform.popen line d = (some (d.shown line),d) := by
  simp only [driverPlatform,h]

theorem words_pipe {ws : List Str} (hws : ∀ w ∈ ws, PlainWord w) (rest : Str) :
    words (begun ws ++ '|' :: rest) = none := by
  have hscan := @scan_begun [] ws hws ('|' :: rest)
  rw [words]
  change Option.map _ (Option.bind (Lexer.scan _ (begun ws ++ '|' :: rest)) _) = none
  rw [hscan]
  rfl

theorem ssidLine_words (apIndex : Int32) : words (ssidLine apIndex) = none := by
  have htool : PlainWord "ifconfig".toList := by decide
  have hline : ssidLine apIndex = begun ["ifconfig".toList,apName apIndex] ++
      '|' :: (" grep ".toList ++ apName apIndex) := by
    unfold ssidLine
    simp [begun]
  rw [hline]
  refine words_pipe ?_ _
  simp only [List.forall_mem_cons]
  exact ⟨htool,apName_plain apIndex,List.forall_mem_nil _⟩

theorem powerLine_words (apIndex : Int32) : words (powerLine apIndex) = none := by
  have htool : PlainWord "iwlist".toList := by decide
  have hverb : PlainWord "txpower".toList := by decide
  have hline : powerLine apIndex = begun ["iwlist".toList,apName apIndex,"txpower".toList] ++
      '|' :: " grep Tx-Power | cut -d'=' -f2".toList := by
    unfold powerLine
    simp [begun]
  rw [hline]
  refine words_pipe ?_ _
  simp only [List.forall_mem_cons]
  exact ⟨htool,apName_plain apIndex,hverb,List.forall_mem_nil _⟩

theorem shown_power (d : Driver) (radioIndex : Int32) :
    d.shown (powerLine (radioAp radioIndex)) = d.powerShown (radioAp radioIndex) := by
  have hne : powerLine 1 ≠ powerLine 0 := by decide +kernel
  rcases radioAp_cases radioIndex with hap | hap <;> rw [hap,Driver.shown]
  · rw [if_pos rfl]
  · rw [if_neg hne,if_pos rfl]

theorem shown_status (d : Driver) (apIndex : Int32) :
    d.shown (ssidLine apIndex) = d.statusShown (apName apIndex) := by
  have hpower (i : Int32) : ssidLine apIndex ≠ powerLine i := by
    intro h
    have hsecond : some 'f' = some 'w' := congrArg (fun t : Str => t[1]?) h
    exact absurd hsecond (by decide)
  have hname : ((ssidLine apIndex).drop 9).takeWhile (· ≠ ' ') = apName apIndex := by
    have hplain : ∀ c ∈ apName apIndex, decide (c ≠ ' ') = true := by
      intro c hc
      have hliteral := (apName_plain apIndex).literal c hc
      refine decide_eq_true ?_
      rintro rfl
      exact absurd hliteral (by decide)
    exact takeWhile_until hplain (d := ' ') (by decide) ("| grep ".toList ++ apName apIndex)
  rw [Driver.shown,if_neg (hpower 0),if_neg (hpower 1),hname]

theorem apName_nul (apIndex : Int32) : '\x00' ∉ apName apIndex := by
  have hpre : '\x00' ∉ apPrefix := by decide
  have hnumber : '\x00' ∉ formatD apIndex := by
    intro h
    rcases formatD_chars apIndex _ h with h | h
    · exact absurd h (by decide)
    · cases h
  rw [apName,List.mem_append,not_or]
  exact ⟨hpre,hnumber⟩

theorem driverPlatform_tools : Tools driverPlatform id (fun _ => True) where
  runs := by
    intro line argv d hwords _
    simp only [driverPlatform,hwords,id]
  readsPower radioIndex d := by rw [driverPlatform_pipe (powerLine_words _),id]
  power := by
    intro radioIndex d iface value hiface hvalue
    rw [id] at hiface
    refine ⟨"dBm\n".toList,by decide,?_⟩
    rw [driverPlatform_pipe (powerLine_words _),shown_power,Driver.powerShown,hiface,
      Option.bind_some,hvalue]
    rfl
  readsStatus apIndex d := by rw [driverPlatform_pipe (ssidLine_words _),id]
  status := by
    intro apIndex d
    refine ⟨d.statusShown (apName apIndex),?_,?_,?_⟩
    · rw [Driver.statusShown]
      split
      · simp [apName_nul apIndex]
      · exact List.not_mem_nil
    · rw [driverPlatform_pipe (ssidLine_words _),shown_status]
    · rw [id,Driver.statusShown]
      split
      · rw [List.length_append]
        have hlen : "      Link encap:Ethernet\n".toList.length = 26 := by decide
        omega
      · rfl

def exec (P : Platform ω) (os : Os ω) (c : Call × Str) : (Ret × Option Output) × Os ω :=
  c.1.perform P c.2 os

def meant (S : Settings) (c : Call × Str) : (Ret × Option Output) × Settings := c.1.apply S

theorem exec_step {P : Platform ω} {view : ω → Driver} {accepts : List Str → Prop}
    (tools : Tools P view accepts) : ∀ (S : Settings) (os : Os ω) (c : Call × Str),
      Represents S (view os.world) → c.1.Served accepts S → (meant S c).1 = (exec P os c).1 ∧
        Represents (meant S c).2 (view (exec P os c).2.world) := by
  intro S os c h hc
  obtain ⟨hanswer,hend⟩ := Call.step tools h hc c.2
  exact ⟨hanswer.symm,hend⟩

def aFewCalls : List (Call × Str) :=
  [(.createAp 0 0 (some "Lobby".toList) false,[]),(.transmitPower 0 20,[]),
    (.pushSSID 0 "Guest Net".toList,[]),(.createAp 1 1 (some "Office".toList) true,[]),
    (.readPower 0 (some 0),[]),(.deleteAp 1,[]),(.readStatus 1 (some []),[])]

theorem aFewCalls_served :
    Along (next meant) (fun S c => c.1.Served (fun _ => True) S) (fun _ => none) aFewCalls := by
  have hset (c : Call) (S : Settings) (hc : c.Printable) (hset : c.reads = false) :
      c.Served (fun _ => True) S := by
    refine ⟨hc,fun _ _ => trivial,fun radioIndex old heq => ?_⟩
    subst heq
    cases hset
  have hlobby : PlainWord "Lobby".toList := by decide
  have hoffice : PlainWord "Office".toList := by decide
  have hguest : ∀ c ∈ "Guest Net".toList,
      c ≠ '\x22' ∧ c ≠ '\\' ∧ c ≠ '$' ∧ c ≠ '\x60' := by decide
  refine ⟨hset _ _ ⟨hlobby,by decide⟩ rfl,hset _ _ trivial rfl,
    hset _ _ ⟨hguest,by decide⟩ rfl,hset _ _ ⟨hoffice,by decide⟩ rfl,
    ⟨trivial,fun _ _ => trivial,?_⟩,hset _ _ trivial rfl,
    ⟨trivial,fun _ _ => trivial,nofun⟩,trivial⟩
  rintro radioIndex old heq
  injection heq with hradio
  subst hradio
  exact ⟨_,(20 : UInt64),rfl,rfl,by decide⟩

theorem represents_empty : Represents (fun _ => none) (fun _ => none) := fun _ => Option.Rel.none

end RdkHal.Wifi
