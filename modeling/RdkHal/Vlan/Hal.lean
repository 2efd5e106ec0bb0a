import RdkHal.Vlan.ConfigList

/-! The VLAN group and interface functions of vlan_hal.c. A `char *` is `none` when NULL. -/

set_option autoImplicit false

namespace RdkHal.Vlan
open Text Chain

structure Host (σ : Type) extends Shell σ where
  malloc : σ → (h : Heap VlanEntry) → Fresh h

structure Env (σ : Type) where
  limits : Limits
  lib : Safec
  host : Host σ

/-- The system outside, the configuration link, and the lines given to `system`, in order. -/
structure Hal (σ : Type) where
  os : σ
  config : ConfigList
  issued : List Str

variable {σ : Type}

def Hal.system (E : Env σ) (st : Hal σ) (line : Str) : Hal σ :=
  ⟨E.host.system line st.os,st.config,st.issued ++ [line]⟩

def Hal.insertEntry (E : Env σ) (st : Hal σ) (g v : Str) : Hal σ :=
  ⟨st.os,(st.config.insert E.limits E.lib (E.host.malloc st.os st.config.raw.heap) g v).2,st.issued⟩

def Hal.deleteEntry (st : Hal σ) (g : Str) : Hal σ :=
  ⟨st.os,(st.config.delete g).2,st.issued⟩

def cmdBuff (E : Env σ) (text : Str) : Str := (E.lib.sprintfS 128 text).2

def addbrLine (g : Str) : Str := "brctl addbr ".toList ++ g

def downLine (g : Str) : Str := "ip link set ".toList ++ g ++ " down".toList

def delbrLine (g : Str) : Str := "brctl delbr ".toList ++ g

def addLine (i v g : Str) : Str :=
  "vconfig add ".toList ++ i ++ " ".toList ++ v ++ "; brctl addif ".toList ++ g ++
    " ".toList ++ i ++ ".".toList ++ v

def remLine (i v g : Str) : Str :=
  "vconfig rem ".toList ++ i ++ ".".toList ++ v ++ "; brctl delif ".toList ++ g ++
    " ".toList ++ i

def grepLine (n : Str) : Str := "brctl show | grep -w ".toList ++ n

def showAllLine : Str := "brctl show | awk '\x7b print $NF \x7d' | tail +2".toList

def showLine (g : Str) : Str :=
  "brctl show ".toList ++ g ++ " | awk '\x7b print $NF \x7d' | tail +2".toList

theorem addbrLine_eq (g : Str) : addbrLine g = "brctl addbr ".toList ++ g := rfl

theorem downLine_eq (g : Str) : downLine g = "ip link set ".toList ++ g ++ " down".toList := rfl

theorem delbrLine_eq (g : Str) : delbrLine g = "brctl delbr ".toList ++ g := rfl

theorem grepLine_eq (n : Str) : grepLine n = "brctl show | grep -w ".toList ++ n := rfl

theorem showLine_eq (g : Str) : showLine g =
    "brctl show ".toList ++ g ++ " | awk '\x7b print $NF \x7d' | tail +2".toList := rfl

theorem addLine_eq (i v g : Str) : addLine i v g =
    "vconfig add ".toList ++ i ++ " ".toList ++ v ++ "; brctl addif ".toList ++ g ++
      " ".toList ++ i ++ ".".toList ++ v := rfl

theorem remLine_eq (i v g : Str) : remLine i v g =
    "vconfig rem ".toList ++ i ++ ".".toList ++ v ++ "; brctl delif ".toList ++ g ++
      " ".toList ++ i := rfl

/-- Here `out` is the caller's buffer of `len` characters, left as it was if `popen` fails. -/
def getShellOutputbuffer (E : Env σ) (cmd out : Str) (len : Nat) (os : σ) : Str :=
  match E.host.popen cmd os with
  | none => out
  | some text =>
    let buf := (fgetsAll E.limits.line text).foldl
      (fun buf lineBuff => (E.lib.strcatS 512 buf lineBuff).2) []
    (E.lib.strncpyS len buf (len-1)).2

def isThisGroupAvailableInLinuxBridge (E : Env σ) (brName : Option Str) (os : σ) : Bool :=
  match brName with
  | none => false
  | some n => (strstr n (getShellOutputbuffer E (cmdBuff E (grepLine n)) [] 512 os)).isSome

/-- The call `sscanf(buf,"%[^.].%s",ifName,vlanID)` into two empty buffers. -/
def sscanfPort (buf : Str) : Str × Str :=
  match scanSet '.' buf with
  | none => ([],[])
  | some (ifName,'.' :: rest) =>
    match scanWord rest with
    | none => (ifName,[])
    | some (vlanID,_) => (ifName,vlanID)
  | some (ifName,_) => (ifName,[])

def isThisInterfaceAvailableInLinuxBridge (E : Env σ) (ifName vlanID : Option Str) (os : σ) :
    Bool :=
  match ifName, vlanID with
  | some i, some v =>
    match E.host.popen (E.lib.strcpyS 128 showAllLine).2 os with
    | none => false
    | some text => (fgetsAll E.limits.line text).any (fun buf => decide (sscanfPort buf = (i,v)))
  | _, _ => false

def isThisInterfaceAvailableInGivenLinuxBridge (E : Env σ) (ifName brName vlanID : Option Str)
    (os : σ) : Bool :=
  match ifName, brName, vlanID with
  | some i, some g, some v =>
    match E.host.popen (cmdBuff E (showLine g)) os with
    | none => false
    | some text => (fgetsAll E.limits.line text).any (fun buf => decide (sscanfPort buf = (i,v)))
  | _, _, _ => false

/-- The local `TempvlanID`, cleared: a copy of the given ID, or the default of the group if there
is none given. No result: the group has no default. -/
def tempvlanID (E : Env σ) (groupName : Str) (vlanID : Option Str) (config : ConfigList) :
    Option Str :=
  match vlanID with
  | some v => some (E.lib.strcpyS E.limits.vlanID v).2
  | none =>
    match config.get E.limits E.lib groupName (arrayOf E.limits.vlanID []) with
    | (.ok,v) => v.bind strAt
    | (.err,_) => none

def vlanHalAddGroup (E : Env σ) (groupName defaultVlanID : Option Str) (st : Hal σ) :
    Ret × Hal σ :=
  match groupName with
  | none => (.err,st)
  | some g =>
    if isThisGroupAvailableInLinuxBridge E (some g) st.os = true then (.ok,st)
    else
      let st := st.system E (cmdBuff E (addbrLine g))
      match defaultVlanID with
      | none => (.ok,st)
      | some v => (.ok,st.insertEntry E g v)

def vlanHalAddInterface (E : Env σ) (groupName ifName vlanID : Option Str) (st : Hal σ) :
    Ret × Hal σ :=
  match groupName, ifName with
  | some g, some i =>
    if isThisGroupAvailableInLinuxBridge E (some g) st.os = false then (.err,st)
    else
      match tempvlanID E g vlanID st.config with
      | none => (.err,st)
      | some v =>
        if isThisInterfaceAvailableInLinuxBridge E (some i) (some v) st.os = true then (.ok,st)
        else (.ok,st.system E (cmdBuff E (addLine i v g)))
  | _, _ => (.err,st)

def vlanHalDelInterface (E : Env σ) (groupName ifName vlanID : Option Str) (st : Hal σ) :
    Ret × Hal σ :=
  match groupName, ifName with
  | some g, some i =>
    if isThisGroupAvailableInLinuxBridge E (some g) st.os = false then (.err,st)
    else
      match tempvlanID E g vlanID st.config with
      | none => (.err,st)
      | some v =>
        if isThisInterfaceAvailableInGivenLinuxBridge E (some i) (some g) (some v) st.os = false then
          (.ok,st)
        else (.ok,st.system E (cmdBuff E (remLine i v g)))
  | _, _ => (.err,st)

def deleteDecoded (E : Env σ) (g : Str) (st : Hal σ) (buf : Str) : Hal σ :=
  (vlanHalDelInterface E (some g) (some (sscanfPort buf).1) (some (sscanfPort buf).2) st).2

def vlanHalDeleteAllInterfaces (E : Env σ) (groupName : Option Str) (st : Hal σ) : Ret × Hal σ :=
  match groupName with
  | none => (.err,st)
  | some g =>
    match E.host.popen (cmdBuff E (showLine g)) st.os with
    | none => (.ok,st)
    | some text => (.ok,(fgetsAll E.limits.line text).foldl (deleteDecoded E g) st)

def vlanHalDelGroup (E : Env σ) (groupName : Option Str) (st : Hal σ) : Ret × Hal σ :=
  match groupName with
  | none => (.err,st)
  | some g =>
    if isThisGroupAvailableInLinuxBridge E (some g) st.os = false then (.ok,st)
    else
      let st := (vlanHalDeleteAllInterfaces E (some g) st).2
      let st := st.system E (cmdBuff E (downLine g))
      let st := st.system E (cmdBuff E (delbrLine g))
      (.ok,st.deleteEntry g)

/-! What the steps do to the parts of the state -/

@[simp] theorem Hal.system_os (E : Env σ) (st : Hal σ) (line : Str) :
    (st.system E line).os = E.host.system line st.os := rfl

@[simp] theorem Hal.system_config (E : Env σ) (st : Hal σ) (line : Str) :
    (st.system E line).config = st.config := rfl

@[simp] theorem Hal.system_issued (E : Env σ) (st : Hal σ) (line : Str) :
    (st.system E line).issued = st.issued ++ [line] := rfl

@[simp] theorem Hal.insertEntry_os (E : Env σ) (st : Hal σ) (g v : Str) :
    (st.insertEntry E g v).os = st.os := rfl

@[simp] theorem Hal.insertEntry_issued (E : Env σ) (st : Hal σ) (g v : Str) :
    (st.insertEntry E g v).issued = st.issued := rfl

@[simp] theorem Hal.deleteEntry_os (st : Hal σ) (g : Str) : (st.deleteEntry g).os = st.os := rfl

@[simp] theorem Hal.deleteEntry_entries (st : Hal σ) (g : Str) :
    (st.deleteEntry g).config.entries = st.config.entries.eraseP (named g) := by
  simp [Hal.deleteEntry]

theorem cmdBuff_eq (E : Env σ) (text : Str) :
    cmdBuff E text = if text.length < 128 then text else [] := E.lib.sprintfS_text 128 text

theorem Hal.insertEntry_entries (E : Env σ) (st : Hal σ) (g v : Str) :
    (st.insertEntry E g v).config.entries = st.config.entries ++
      (if (E.host.malloc st.os st.config.raw.heap).isSome then
        [⟨(E.lib.strcpyS E.limits.groupName g).2,(E.lib.strcpyS E.limits.vlanID v).2⟩]
      else []) := by
  unfold Hal.insertEntry
  cases hm : E.host.malloc st.os st.config.raw.heap with
  | none => simp
  | some temp =>
    rw [(st.config.insert_some E.limits E.lib temp g v).2]
    simp

theorem vlanHalDelInterface_cases (E : Env σ) (g i v : Str) (st : Hal σ) :
    (vlanHalDelInterface E (some g) (some i) (some v) st).2 = st ∨
    (vlanHalDelInterface E (some g) (some i) (some v) st).2 =
      st.system E (cmdBuff E (remLine i (E.lib.strcpyS E.limits.vlanID v).2 g)) := by
  simp only [vlanHalDelInterface,tempvlanID]
  split
  · exact Or.inl rfl
  · split
    · exact Or.inl rfl
    · exact Or.inr rfl

/-- Where the text starts that `buf[512]` holds after appends of these lengths at the
positions `pos` on; an append that does not fit empties the buffer. -/
def lastReset (start pos : Nat) : List Nat → Nat
  | [] => start
  | k :: ks =>
    if pos + k < start + 512 then lastReset start (pos+k) ks else lastReset (pos+k) (pos+k) ks

theorem strcatS_foldl (E : Env σ) (chunks : List Str) (done : Str) (start : Nat)
    (hstart : start ≤ done.length) (hlen : done.length < start + 512) :
    let kept := (done ++ chunks.flatten).drop
      (lastReset start done.length (chunks.map List.length))
    chunks.foldl (fun buf lineBuff => (E.lib.strcatS 512 buf lineBuff).2) (done.drop start) =
      kept ∧ kept.length < 512 := by
  induction chunks generalizing done start with
  | nil =>
    simp only [lastReset,List.map_nil,List.flatten_nil,List.append_nil,List.foldl_nil,
      List.length_drop,true_and]
    omega
  | cons c chunks ih =>
    have hcat := E.lib.strcatS_text 512 (done.drop start) c
    rw [List.length_drop] at hcat
    rw [List.foldl_cons,List.flatten_cons,← List.append_assoc,List.map_cons,lastReset]
    by_cases hfit : done.length + c.length < start + 512
    · have hnext := ih (done ++ c) start (by simp; omega) (by simpa using hfit)
      rw [List.length_append,List.drop_append_of_le_length hstart] at hnext
      rw [if_pos hfit,hcat,if_pos (by omega)]
      exact hnext
    · -- the append fails and empties the buffer: what is kept starts behind this line
      have hnext := ih (done ++ c) (done.length + c.length) (by simp) (by simp)
      have hnil : (done ++ c).drop (done.length + c.length) = [] :=
        List.drop_eq_nil_of_le (by simp)
      rw [List.length_append,hnil] at hnext
      rw [if_neg hfit,hcat,if_neg (by omega)]
      exact hnext

theorem lastReset_fits {start pos : Nat} {ks : List Nat} (h : pos + ks.sum < start + 512) :
    lastReset start pos ks = start := by
  induction ks generalizing pos with
  | nil => rfl
  | cons k ks ih =>
    rw [List.sum_cons] at h
    rw [lastReset,if_pos (by omega)]
    exact ih (by omega)

def collected (L : Limits) (text : Str) : Str :=
  text.drop (lastReset 0 0 ((fgetsAll L.line text).map List.length))

theorem collected_short {L : Limits} {text : Str} (hlen : text.length < 512) :
    collected L text = text := by
  have hline := L.line_flag
  have hflat := fgetsAll_flatten (n := L.line) (by omega) text
  have hsum : ((fgetsAll L.line text).map List.length).sum = text.length := by
    rw [← List.length_flatten,hflat]
  rw [collected,lastReset_fits (by omega),List.drop_zero]

theorem strcatS_collected (E : Env σ) (text : Str) :
    (fgetsAll E.limits.line text).foldl (fun buf lineBuff => (E.lib.strcatS 512 buf lineBuff).2) [] =
      collected E.limits text ∧ (collected E.limits text).length < 512 := by
  have hline := E.limits.line_flag
  have hflat := fgetsAll_flatten (n := E.limits.line) (by omega) text
  have hall := strcatS_foldl E (fgetsAll E.limits.line text) [] 0 (by simp) (by simp)
  rwa [hflat,List.nil_append,List.drop_nil,List.length_nil] at hall

theorem getShellOutputbuffer_take (E : Env σ) {cmd text : Str} {os : σ}
    (hopen : E.host.popen cmd os = some text) (out : Str) {len : Nat} (hlen : 1 ≤ len) :
    getShellOutputbuffer E cmd out len os = (collected E.limits text).take (len-1) := by
  have hcopy := E.lib.strncpyS_fits len (collected E.limits text) (len-1) (by omega)
  simp only [getShellOutputbuffer,hopen,(strcatS_collected E text).1,hcopy]

theorem getShellOutputbuffer_text (E : Env σ) {cmd text : Str} {os : σ}
    (hopen : E.host.popen cmd os = some text) (out : Str) :
    getShellOutputbuffer E cmd out 512 os = collected E.limits text := by
  have hlen := (strcatS_collected E text).2
  rw [getShellOutputbuffer_take E hopen out (by decide),List.take_of_length_le (by omega)]

theorem isThisGroupAvailable_occurs {E : Env σ} {os : σ} {n text : Str}
    (hopen : E.host.popen (cmdBuff E (grepLine n)) os = some text) :
    isThisGroupAvailableInLinuxBridge E (some n) os = true ↔ n <:+: collected E.limits text := by
  rw [isThisGroupAvailableInLinuxBridge,getShellOutputbuffer_text E hopen,strstr_isSome]

end RdkHal.Vlan
