import RdkHal.Vlan.LinuxHost

/-! The existence test of a group: a word search in the whole listing, through a buffer. -/

set_option autoImplicit false

namespace RdkHal.Vlan
open Text BridgeTable

variable {σ : Type} {E : Env σ} {net : σ → BridgeTable}

def metacharacters : Str := ".[]*^$\\+?()\x7b\x7d|&;<>`\"'#~!".toList

/-- A name that reaches `grep` as one argument and stands for itself; the empty name included. -/
def Plain (n : Str) : Prop :=
  NoSpace n ∧ (∀ c ∈ n, c ∉ metacharacters) ∧ n.head? ≠ some '-'

instance (n : Str) : Decidable (Plain n) := inferInstanceAs (Decidable (_ ∧ _))

/-- The search `grep -w` in the listing; without a pattern it prints nothing. -/
structure GrepTools (H : Host σ) (net : σ → BridgeTable) : Prop where
  silent : ∀ s, H.popen [] s = some []
  noPattern : ∀ s, H.popen (grepLine []) s = some []
  search : ∀ s n, n ≠ [] → Plain n →
    H.popen (grepLine n) s = some (unlines (grepWord n (brctlShow (net s).bridges)))

def matching (t : BridgeTable) (n : Str) : List Str := grepWord n (brctlShow t.bridges)

theorem matching_of_has {t : BridgeTable} {n : Str} (h : t.Has n) : matching t n ≠ [] := by
  obtain ⟨b,hb,rfl⟩ := h
  have hne : b.name ≠ [] := (t.words b hb).1.1
  have hline : ∃ l ∈ b.showLines, hasWord b.name none l = true := by
    cases hp : b.ports with
    | nil =>
      refine ⟨b.columns,by simp [Bridge.showLines,hp],?_⟩
      simp only [Bridge.columns,List.append_assoc]
      exact hasWord_start hne (by rfl)
    | cons p ps =>
      refine ⟨b.columns ++ p,by simp [Bridge.showLines,hp],?_⟩
      simp only [Bridge.columns,List.append_assoc]
      exact hasWord_start hne (by rfl)
  obtain ⟨l,hl,hword⟩ := hline
  have hmem : l ∈ matching t b.name := by
    refine List.mem_filter.mpr ⟨List.mem_cons_of_mem _ (List.mem_flatMap.mpr ⟨b,hb,hl⟩),hword⟩
  exact List.ne_nil_of_mem hmem

theorem infix_matching {t : BridgeTable} {n : Str} (hne : n ≠ []) :
    n <:+: unlines (matching t n) ↔ matching t n ≠ [] := by
  constructor
  · rintro h hnil
    rw [hnil,unlines_nil,List.infix_nil] at h
    exact hne h
  · intro h
    obtain ⟨l,ls,hls⟩ := List.exists_cons_of_ne_nil h
    have hl : l ∈ matching t n := by simp [hls]
    have hword : hasWord n none l = true := (List.mem_filter.mp hl).2
    rw [hls,unlines_cons]
    exact (infix_of_hasWord hword).trans (List.prefix_append l _).isInfix

/-- Where the test is right about the name `n`, by the length of the command and of the
listing that is searched for it. Of a name that is not plain the shell and `grep` may make
anything, and what they print decides. -/
def TestExact (E : Env σ) (t : BridgeTable) (s : σ) (n : Str) : Prop :=
  n ≠ [] ∧
  if ¬(grepLine n).length < 128 then ¬t.Has n
  else if Plain n then
    if (unlines (matching t n)).length < 512 then t.Has n ∨ matching t n = []
    else t.Has n ↔ n <:+: collected E.limits (unlines (matching t n))
  else t.Has n ↔ ∃ text, E.host.popen (grepLine n) s = some text ∧
    n <:+: collected E.limits text

theorem isThisGroupAvailable_printed {s : σ} {n : Str} (hne : n ≠ [])
    (hline : (grepLine n).length < 128) :
    isThisGroupAvailableInLinuxBridge E (some n) s = true ↔
      ∃ text, E.host.popen (grepLine n) s = some text ∧ n <:+: collected E.limits text := by
  have hcmd : cmdBuff E (grepLine n) = grepLine n := by rw [cmdBuff_eq,if_pos hline]
  cases hopen : E.host.popen (grepLine n) s with
  | none =>
    simp only [isThisGroupAvailableInLinuxBridge,getShellOutputbuffer,hcmd,hopen,
      strstr_isSome,List.infix_nil]
    simp [hne]
  | some text =>
    rw [isThisGroupAvailable_occurs (by rw [hcmd]; exact hopen)]
    simp

theorem isThisGroupAvailable_plain (hgrep : GrepTools E.host net) {s : σ} {n : Str}
    (hne : n ≠ []) (hline : (grepLine n).length < 128) (hplain : Plain n) :
    isThisGroupAvailableInLinuxBridge E (some n) s = true ↔
      n <:+: collected E.limits (unlines (matching (net s) n)) := by
  apply isThisGroupAvailable_occurs
  rw [cmdBuff_eq,if_pos hline,hgrep.search s n hne hplain]
  rfl

theorem isThisGroupAvailable_nil (hgrep : GrepTools E.host net) (s : σ) :
    isThisGroupAvailableInLinuxBridge E (some []) s = true := by
  have hopen : E.host.popen (cmdBuff E (grepLine [])) s = some [] := by
    rw [cmdBuff_eq,if_pos (by decide),hgrep.noPattern]
  rw [isThisGroupAvailable_occurs hopen]
  exact List.nil_infix

/-- The test answers whether a bridge of exactly this name exists, exactly under `TestExact`. -/
theorem isThisGroupAvailable_exact_iff (hgrep : GrepTools E.host net) (n : Str) (s : σ) :
    (isThisGroupAvailableInLinuxBridge E (some n) s = true ↔ (net s).Has n) ↔
      TestExact E (net s) s n := by
  by_cases hne : n = []
  · subst hne
    have hhas : ¬(net s).Has [] := fun h => h.word.1 rfl
    simp [isThisGroupAvailable_nil hgrep,hhas,TestExact]
  by_cases hline : (grepLine n).length < 128
  · by_cases hplain : Plain n
    · rw [isThisGroupAvailable_plain hgrep hne hline hplain]
      by_cases hshort : (unlines (matching (net s) n)).length < 512
      · -- all lines are collected, so the test only asks whether there is one
        rw [collected_short hshort,infix_matching hne]
        have hfound := matching_of_has (t := net s) (n := n)
        by_cases hhas : (net s).Has n
        · simp [TestExact,hne,hline,hplain,hshort,hhas,hfound hhas]
        · simp [TestExact,hne,hline,hplain,hshort,hhas]
      · simp [TestExact,hne,hline,hplain,hshort,Iff.comm]
    · rw [isThisGroupAvailable_printed hne hline]
      simp only [TestExact,hne,hline,hplain,ne_eq,not_false_eq_true,not_true,if_false,true_and]
      exact Iff.comm
  · simp [groupAvailable_over (hgrep.silent s) hne hline,TestExact,hne,hline]

theorem linuxHost_grep : GrepTools (linuxHost grepShow) id where
  silent := (linuxHost_show grepShow).silent
  noPattern t := popen_grepLine grepShow [] t
  search t n hne _ := by
    rw [popen_grepLine grepShow n t,grepShow,if_neg hne]
    rfl

theorem isThisGroupAvailable_exact_iff_twoGroups :
    (isThisGroupAvailableInLinuxBridge (linuxEnv grepShow) (some "brlan1".toList) twoGroups = true ↔
      twoGroups.Has "brlan1".toList) ↔
    TestExact (linuxEnv grepShow) twoGroups twoGroups "brlan1".toList :=
  isThisGroupAvailable_exact_iff (E := linuxEnv grepShow) linuxHost_grep "brlan1".toList twoGroups

theorem isThisGroupAvailable_device :
    isThisGroupAvailableInLinuxBridge (linuxEnv grepShow) (some "eth0".toList) twoGroups = true ∧
    ¬twoGroups.Has "eth0".toList := by
  decide +kernel

/-! What the caller is given of an output -/

def lastOverflow (L : Limits) (text : Str) : Nat :=
  lastReset 0 0 ((fgetsAll L.line text).map List.length)

/-- It is the beginning of the output exactly where the output fits, or nothing is asked for, or the
output repeats its beginning behind the last read that did not fit. -/
theorem getShellOutputbuffer_first_iff (E : Env σ) {cmd text : Str} {os : σ}
    (hopen : E.host.popen cmd os = some text) (out : Str) {len : Nat} (hlen : 1 ≤ len)
    (hmax : len ≤ 512) :
    getShellOutputbuffer E cmd out len os = text.take (min text.length (len-1)) ↔
      text.length < 512 ∨ len = 1 ∨
        text.take (len-1) <+: text.drop (lastOverflow E.limits text) := by
  have hmin : text.take (min text.length (len-1)) = text.take (len-1) := by
    rw [List.take_eq_take_iff]
    omega
  rw [getShellOutputbuffer_take E hopen out hlen,hmin]
  by_cases hshort : text.length < 512
  · rw [collected_short hshort]
    exact iff_of_true rfl (Or.inl hshort)
  · have hfull : (text.take (len-1)).length = len-1 := List.length_take_of_le (by omega)
    have hagain : (collected E.limits text).take (len-1) = text.take (len-1) ↔
        text.take (len-1) <+: text.drop (lastOverflow E.limits text) := by
      rw [List.prefix_iff_eq_take,hfull,eq_comm]
      rfl
    rw [hagain,or_iff_right hshort]
    refine ⟨Or.inr,fun h => h.elim (fun hone => ?_) id⟩
    subst hone
    exact List.nil_prefix

def printing (text : Str) : Env Unit :=
  ⟨Limits.reference,Safec.reference,
    { system := fun _ w => w
      popen := fun _ _ => some text
      malloc := fun _ h => some (atBreak h) }⟩

def sixLines : Str := unlines ("abcdef".toList.map (List.replicate 99))

theorem getShellOutputbuffer_first_iff_six :
    getShellOutputbuffer (printing sixLines) [] [] 512 () =
        sixLines.take (min sixLines.length (512-1)) ↔
      sixLines.length < 512 ∨ 512 = 1 ∨
        sixLines.take (512-1) <+: sixLines.drop (lastOverflow (printing sixLines).limits sixLines) :=
  getShellOutputbuffer_first_iff (printing sixLines) rfl [] (by decide) (by decide)

theorem getShellOutputbuffer_six :
    sixLines.length = 600 ∧ getShellOutputbuffer (printing sixLines) [] [] 512 () = [] ∧
    getShellOutputbuffer (printing sixLines) [] [] 512 () ≠
      sixLines.take (min sixLines.length (512-1)) := by
  have hlen : sixLines.length = 600 := by decide +kernel
  have hlost : getShellOutputbuffer (printing sixLines) [] [] 512 () = [] := by decide +kernel
  refine ⟨hlen,hlost,fun h => ?_⟩
  have hshort := congrArg List.length (hlost.symm.trans h)
  rw [List.length_take,hlen] at hshort
  simp at hshort

end RdkHal.Vlan
