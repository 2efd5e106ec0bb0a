import RdkHal.Lib.Memory
import RdkHal.Platform

/-! `_syscmd` of wifi_hal.c, which reads the output of a command into a buffer: the writes it
makes, and the text they leave. -/

set_option autoImplicit false

namespace RdkHal.Wifi
open Text Memory

def bufbytes (bufSize : Int) : Int := if 128 ≤ bufSize then 128 else bufSize-1

/-- The writes of the loop, with `bufSize` characters left from the index `ptr` on. A round that
goes on has read a character, so the length of the output bounds the rounds. -/
def syscmdLoop : Nat → Int → Int → Str → Log Char
  | 0, _, _, _ => []
  | fuel+1, bufSize, ptr, s =>
    match fgets (bufbytes bufSize) s with
    | (none,_) => [(ptr,'\x00')]
    | (some chunk,rest) =>
      let readbytes := (cstr chunk).length
      (ptr,'\x00') :: store ptr chunk ++
        if readbytes = 0 ∨ fgetsEof (bufbytes bufSize) s then []
        else syscmdLoop fuel (bufSize-readbytes) (ptr+readbytes) rest

/-- `none` is a command that cannot be started. -/
def syscmdLog (output : Option Str) (retBufSize : Int) : Log Char :=
  match output with
  | none => []
  | some s => syscmdLoop (s.length+1) retBufSize 0 s ++ [(retBufSize-1,'\x00')]

def syscmdText : Nat → Int → Str → Str
  | 0, _, _ => []
  | fuel+1, bufSize, s =>
    match fgets (bufbytes bufSize) s with
    | (none,_) => []
    | (some chunk,rest) =>
      let readbytes := (cstr chunk).length
      cstr chunk ++ if readbytes = 0 ∨ fgetsEof (bufbytes bufSize) s then []
        else syscmdText fuel (bufSize-readbytes) rest

theorem bufbytes_le (bufSize : Int) : bufbytes bufSize ≤ bufSize := by
  rw [bufbytes]
  split <;> omega

theorem fgets_bufbytes {bufSize : Int} {s chunk rest : Str}
    (h : fgets (bufbytes bufSize) s = (some chunk,rest)) :
    (chunk.length : Int)+1 ≤ bufSize ∧ chunk.length+rest.length = s.length := by
  obtain ⟨happ,hlen⟩ := fgets_some h
  have hle := bufbytes_le bufSize
  refine ⟨by omega,?_⟩
  rw [← happ,List.length_append]

theorem syscmdLoop_inside {fuel : Nat} {size bufSize ptr : Int} {s : Str} (hroom : 1 ≤ bufSize)
    (hptr : 0 ≤ ptr) (hsize : ptr+bufSize = size) : Inside size (syscmdLoop fuel bufSize ptr s) := by
  induction fuel generalizing bufSize ptr s with
  | zero => simp [syscmdLoop]
  | succ fuel ih =>
    rcases hf : fgets (bufbytes bufSize) s with ⟨_ | chunk,rest⟩
    · simp only [syscmdLoop,hf,inside_cons,inside_nil,and_true]
      omega
    · obtain ⟨hchunk,_⟩ := fgets_bufbytes hf
      have hread := cstr_length chunk
      simp only [syscmdLoop,hf,List.cons_append,inside_cons,inside_append,inside_store hptr]
      refine ⟨by omega,by omega,?_⟩
      split
      · exact inside_nil _
      · exact ih (by omega) (by omega) (by omega)

theorem syscmdLoop_from {fuel : Nat} {bufSize ptr : Int} {s : Str} :
    ∀ w ∈ syscmdLoop fuel bufSize ptr s, ptr ≤ w.1 := by
  induction fuel generalizing bufSize ptr s with
  | zero => simp [syscmdLoop]
  | succ fuel ih =>
    intro w hw
    rcases hf : fgets (bufbytes bufSize) s with ⟨_ | chunk,rest⟩
    · simp only [syscmdLoop,hf,List.mem_singleton] at hw
      exact hw ▸ Int.le_refl _
    · simp only [syscmdLoop,hf,List.cons_append,List.mem_cons,List.mem_append] at hw
      rcases hw with rfl | hw | hw
      · exact Int.le_refl _
      · exact store_from w hw
      · split at hw
        · cases hw
        · have hle := ih w hw
          omega

theorem syscmdText_length {fuel : Nat} {bufSize : Int} {s : Str} (hroom : 1 ≤ bufSize) :
    ((syscmdText fuel bufSize s).length : Int)+1 ≤ bufSize := by
  induction fuel generalizing bufSize s with
  | zero => simpa [syscmdText] using hroom
  | succ fuel ih =>
    rcases hf : fgets (bufbytes bufSize) s with ⟨_ | chunk,rest⟩
    · simpa [syscmdText,hf] using hroom
    · obtain ⟨hchunk,_⟩ := fgets_bufbytes hf
      have hread := cstr_length chunk
      simp only [syscmdText,hf,List.length_append]
      split
      · rw [List.length_nil]
        push_cast
        omega
      · have hrest := @ih (bufSize-(cstr chunk).length) rest (by omega)
        push_cast
        omega

theorem syscmdLoop_holds {fuel : Nat} {bufSize ptr : Int} {s : Str} (hfuel : s.length < fuel)
    (m : Int → Char) :
    Holds (after m (syscmdLoop fuel bufSize ptr s)) ptr (syscmdText fuel bufSize s) := by
  induction fuel generalizing bufSize ptr s m with
  | zero => omega
  | succ fuel ih =>
    rcases hf : fgets (bufbytes bufSize) s with ⟨_ | chunk,rest⟩
    · simp [syscmdLoop,syscmdText,hf,Holds,Chars,after]
    · obtain ⟨_,hrest⟩ := fgets_bufbytes hf
      have hstored := holds_store (after m [(ptr,'\x00')]) ptr chunk
      have hmem (log : Log Char) : after m ((ptr,'\x00') :: store ptr chunk ++ log) =
          after (after (after m [(ptr,'\x00')]) (store ptr chunk)) log := by
        rw [List.cons_append,← List.singleton_append,after_append,after_append]
      simp only [syscmdLoop,syscmdText,hf,hmem]
      split
      · rw [List.append_nil]
        exact hstored
      · rename_i hgo
        have hpos : (cstr chunk).length ≠ 0 := fun h => hgo (Or.inl h)
        have hread := cstr_length chunk
        refine holds_append (chars_frame hstored.1 syscmdLoop_from) hstored.2.1 ?_
        exact ih (by omega) _

theorem syscmdLog_holds (s : Str) {retBufSize : Int} (hsize : 1 ≤ retBufSize) (m : Int → Char) :
    Holds (after m (syscmdLog (some s) retBufSize)) 0 (syscmdText (s.length+1) retBufSize s) := by
  obtain ⟨hchars,hnul,hend⟩ :=
    @syscmdLoop_holds (s.length+1) retBufSize 0 s (Nat.lt_succ_self s.length) m
  have hlength := @syscmdText_length (s.length+1) retBufSize s hsize
  rw [syscmdLog,after_append]
  refine ⟨chars_frame hchars (fun w hw => ?_),hnul,?_⟩
  · rw [List.mem_singleton.mp hw]
    change _ ≤ retBufSize-1
    omega
  · rw [after,after]
    split
    · rfl
    · exact hend

theorem syscmdLog_inside (output : Option Str) (retBufSize : Int) :
    Inside retBufSize (syscmdLog output retBufSize) ↔ output = none ∨ 1 ≤ retBufSize := by
  cases output with
  | none => simp [syscmdLog]
  | some s =>
    rw [syscmdLog,inside_append,inside_cons]
    constructor
    · rintro ⟨_,hlast,_⟩
      have hlow : 0 ≤ retBufSize-1 := hlast.1
      exact Or.inr (by omega)
    · intro h
      have hroom := h.resolve_left (by simp)
      refine ⟨syscmdLoop_inside hroom (Int.le_refl 0) (by omega),⟨?_,?_⟩,inside_nil _⟩
      · change 0 ≤ retBufSize-1
        omega
      · change retBufSize-1 < retBufSize
        omega

theorem syscmdLoop_noRoom (fuel : Nat) {bufSize : Int} (hroom : bufSize ≤ 1) (ptr : Int) (s : Str) :
    syscmdLoop (fuel+1) bufSize ptr s = [(ptr,'\x00')] := by
  have hbytes : bufbytes bufSize ≤ 0 := by
    rw [bufbytes,if_neg (by omega)]
    omega
  simp only [syscmdLoop,fgets,hbytes,if_true]

theorem syscmdText_nil (fuel : Nat) (bufSize : Int) : syscmdText fuel bufSize [] = [] := by
  cases fuel with
  | zero => rfl
  | succ fuel =>
    rcases hf : fgets (bufbytes bufSize) [] with ⟨_ | chunk,rest⟩
    · simp only [syscmdText,hf]
    · have hchunk : chunk = [] := (List.append_eq_nil_iff.mp (fgets_some hf).1).1
      simp [syscmdText,hf,hchunk,cstr]

theorem syscmdText_full (fuel : Nat) (s : Str) : syscmdText fuel 2 s = [] := by
  cases fuel with
  | zero => rfl
  | succ fuel => simp [syscmdText,bufbytes,fgets,cstr]

theorem syscmdText_cut {fuel k : Nat} {l : Str} (hl : '\n' ∉ l) (hnul : '\x00' ∉ l)
    (hk : k ≤ l.length) (hpos : 0 < k) (hroom : k < 126) (rest : Str) :
    syscmdText (fuel+1) (k+2) (l ++ '\n' :: rest) = l.take k := by
  have hbytes : bufbytes (k+2 : Int) = k+1 := by
    rw [bufbytes,if_neg (by omega)]
    omega
  have hline := takeLine_short hl hk ('\n' :: rest)
  have hne : l ++ '\n' :: rest ≠ [] := by simp
  have hfgets : fgets (k+1) (l ++ '\n' :: rest) = (some (l.take k),l.drop k ++ '\n' :: rest) := by
    have hlow : ¬(k+1 : Int) ≤ 0 := by omega
    have hone : ¬(k+1 : Int) = 1 := by omega
    have hsize : ((k+1 : Int)-1).toNat = k := by omega
    simp only [fgets,hlow,hone,hne,if_false,hsize,hline]
  have heof : fgetsEof (k+1) (l ++ '\n' :: rest) = false := by simp [fgetsEof,hline]
  have hcstr : cstr (l.take k) = l.take k := cstr_eq (fun h => hnul (List.mem_of_mem_take h))
  have hread : (l.take k).length = k := List.length_take_of_le hk
  have hnext : (k+2 : Int)-k = 2 := by omega
  have hgo : ¬(k = 0 ∨ false = true) := by
    simp
    omega
  simp only [syscmdText,hbytes,hfgets,hcstr,hread,heof,hgo,if_false,hnext,syscmdText_full,
    List.append_nil]

theorem syscmdText_line {fuel : Nat} {bufSize : Int} {l : Str} (hl : '\n' ∉ l) (hnul : '\x00' ∉ l)
    (hroom : (l.length : Int)+1 < bufbytes bufSize) (rest : Str) :
    syscmdText (fuel+1) bufSize (l ++ '\n' :: rest) =
      l ++ '\n' :: syscmdText fuel (bufSize-(l.length+1)) rest := by
  have hcstr : cstr (l ++ ['\n']) = l ++ ['\n'] := cstr_eq (by simp [hnul])
  simp [syscmdText,fgets_line hl hroom,fgetsEof_line hl hroom,hcstr]

/-- The text read is all of the output, or fills the buffer up to two places at most. -/
theorem syscmdText_begins {fuel : Nat} {bufSize : Int} {s : Str} (hnul : '\x00' ∉ s)
    (hfuel : s.length < fuel) (hroom : 1 ≤ bufSize) : syscmdText fuel bufSize s <+: s ∧
      (syscmdText fuel bufSize s = s ∨ bufSize ≤ (syscmdText fuel bufSize s).length+2) := by
  induction fuel generalizing bufSize s with
  | zero => omega
  | succ fuel ih =>
    rcases hf : fgets (bufbytes bufSize) s with ⟨_ | chunk,rest⟩
    · have hnone : syscmdText (fuel+1) bufSize s = [] := by simp only [syscmdText,hf]
      rw [hnone]
      refine ⟨List.nil_prefix,?_⟩
      rcases fgets_nothing hf with hlow | hs
      · rw [bufbytes] at hlow
        split at hlow
        · omega
        · exact Or.inr (by simp; omega)
      · exact Or.inl hs.symm
    · obtain ⟨hchunk,hlen⟩ := fgets_bufbytes hf
      obtain ⟨happ,_⟩ := fgets_some hf
      have hnul' : '\x00' ∉ chunk ∧ '\x00' ∉ rest := by
        rwa [← happ,List.mem_append,not_or] at hnul
      have hcstr := cstr_eq hnul'.1
      by_cases hstop : chunk.length = 0 ∨ fgetsEof (bufbytes bufSize) s = true
      · have hlast : syscmdText (fuel+1) bufSize s = chunk := by
          simp only [syscmdText,hf,hcstr,hstop,if_true,List.append_nil]
        rw [hlast]
        refine ⟨⟨rest,happ⟩,?_⟩
        rcases hstop with hzero | heof
        · have hone := fgets_empty (List.length_eq_zero_iff.mp hzero ▸ hf)
          rw [bufbytes] at hone
          split at hone
          · omega
          · exact Or.inr (by omega)
        · rw [fgetsEof_rest hf heof,List.append_nil] at happ
          exact Or.inl happ
      · have hmore : syscmdText (fuel+1) bufSize s =
            chunk ++ syscmdText fuel (bufSize-chunk.length) rest := by
          simp only [syscmdText,hf,hcstr,hstop,if_false]
        obtain ⟨hpre,hall⟩ := @ih (bufSize-chunk.length) rest hnul'.2 (by omega) (by omega)
        rw [hmore,← happ,List.length_append]
        refine ⟨(List.prefix_append_right_inj _).mpr hpre,?_⟩
        rcases hall with hall | hfull
        · exact Or.inl (congrArg (chunk ++ ·) hall)
        · exact Or.inr (by push_cast; omega)

/-- A text of fewer than `size-1` characters, or one of `size-1` that ends a line. The loop leaves
a place free besides that of the terminator: of `size-1` characters the last one is not read, and
only a newline there is no loss. -/
def FitsUpToNewline (size : Nat) (s : Str) : Prop :=
  s.length+1 < size ∨ s.length+1 = size ∧ s.getLast? = some '\n'

instance (size : Nat) (s : Str) : Decidable (FitsUpToNewline size s) :=
  inferInstanceAs (Decidable (_ ∨ _))

theorem syscmdText_fits {size : Nat} {s : Str} (hnul : '\x00' ∉ s)
    (hfits : FitsUpToNewline size s) :
    syscmdText (s.length+1) size s = s ∨ s = syscmdText (s.length+1) size s ++ ['\n'] := by
  have hroom : 1 ≤ (size : Int) := by
    rcases hfits with hlen | ⟨hlen,_⟩ <;> omega
  obtain ⟨hpre,hall⟩ := syscmdText_begins hnul (Nat.lt_succ_self s.length) hroom
  generalize syscmdText (s.length+1) size s = held at hpre hall
  obtain ⟨missed,hmissed⟩ := hpre
  have hlen := congrArg List.length hmissed
  rw [List.length_append] at hlen
  rcases hall with hall | hfull
  · exact Or.inl hall
  rcases hfits with hshort | ⟨hlong,hlast⟩
  · have hnil : missed = [] := List.length_eq_zero_iff.mp (by omega)
    exact Or.inl (by rw [← hmissed,hnil,List.append_nil])
  match missed, hmissed, hlen with
  | [], hmissed, _ => exact Or.inl (by rw [← hmissed,List.append_nil])
  | [d], hmissed, _ =>
    rw [← hmissed,List.getLast?_concat] at hlast
    exact Or.inr (by rw [← hmissed,Option.some.inj hlast])
  | _ :: _ :: _, _, hlen =>
    simp only [List.length_cons] at hlen
    omega

theorem fits_unlines {size : Nat} (hsize : 2 ≤ size) {ls : List Str}
    (h : (unlines ls).length < size) : FitsUpToNewline size (unlines ls) := by
  rcases List.eq_nil_or_concat ls with rfl | ⟨ls,l,rfl⟩
  · exact Or.inl hsize
  · have hlast : (unlines (ls.concat l)).getLast? = some '\n' := by
      rw [List.concat_eq_append,unlines,List.flatMap_append,List.flatMap_singleton,
        ← List.append_assoc,List.getLast?_concat]
    by_cases hshort : (unlines (ls.concat l)).length+1 < size
    · exact Or.inl hshort
    · exact Or.inr ⟨by omega,hlast⟩

inductive LoopRun : Int → Int → Str → Log Char → Prop
  | nothing {bufSize ptr : Int} {s rest : Str} (hread : fgets (bufbytes bufSize) s = (none,rest)) :
      LoopRun bufSize ptr s [(ptr,'\x00')]
  | last {bufSize ptr : Int} {s chunk rest : Str}
      (hread : fgets (bufbytes bufSize) s = (some chunk,rest))
      (hstop : (cstr chunk).length = 0 ∨ fgetsEof (bufbytes bufSize) s = true) :
      LoopRun bufSize ptr s ((ptr,'\x00') :: store ptr chunk)
  | more {bufSize ptr : Int} {s chunk rest : Str} {log : Log Char}
      (hread : fgets (bufbytes bufSize) s = (some chunk,rest))
      (hgo : ¬((cstr chunk).length = 0 ∨ fgetsEof (bufbytes bufSize) s = true))
      (hrest : LoopRun (bufSize-(cstr chunk).length) (ptr+(cstr chunk).length) rest log) :
      LoopRun bufSize ptr s ((ptr,'\x00') :: store ptr chunk ++ log)

theorem syscmdLoop_run {fuel : Nat} {bufSize ptr : Int} {s : Str} (hfuel : s.length < fuel) :
    LoopRun bufSize ptr s (syscmdLoop fuel bufSize ptr s) := by
  induction fuel generalizing bufSize ptr s with
  | zero => omega
  | succ fuel ih =>
    rcases hf : fgets (bufbytes bufSize) s with ⟨_ | chunk,rest⟩
    · simp only [syscmdLoop,hf]
      exact .nothing hf
    · obtain ⟨_,hlen⟩ := fgets_bufbytes hf
      have hread := cstr_length chunk
      simp only [syscmdLoop,hf]
      split
      · rename_i hstop
        rw [List.append_nil]
        exact .last hf hstop
      · rename_i hgo
        have hpos := (not_or.mp hgo).1
        exact .more hf hgo (ih (by omega))

theorem LoopRun.eq {fuel : Nat} {bufSize ptr : Int} {s : Str} {log : Log Char}
    (h : LoopRun bufSize ptr s log) (hfuel : s.length < fuel) :
    log = syscmdLoop fuel bufSize ptr s := by
  induction h generalizing fuel with
  | nothing hread =>
    obtain ⟨fuel,rfl⟩ : ∃ k, fuel = k+1 := ⟨fuel-1,by omega⟩
    simp only [syscmdLoop,hread]
  | last hread hstop =>
    obtain ⟨fuel,rfl⟩ : ∃ k, fuel = k+1 := ⟨fuel-1,by omega⟩
    simp only [syscmdLoop,hread,hstop,if_true,List.append_nil]
  | @more _ _ _ chunk _ _ hread hgo _ ih =>
    obtain ⟨fuel,rfl⟩ : ∃ k, fuel = k+1 := ⟨fuel-1,by omega⟩
    obtain ⟨_,hlen⟩ := fgets_bufbytes hread
    have hle := cstr_length chunk
    have hpos := (not_or.mp hgo).1
    have hlog := @ih fuel (by omega)
    simp only [syscmdLoop,hread,hgo,if_false,← hlog]

/-- The call ends, stays inside the buffer, and leaves a C string there that begins the output: all
of it where there is room for two characters more. -/
theorem syscmdLog_safe {output : Str} (hnul : '\x00' ∉ output) {retBufSize : Int}
    (hsize : 1 ≤ retBufSize) (m : Int → Char) :
    (∃ log, LoopRun retBufSize 0 output log ∧
      (∀ log', LoopRun retBufSize 0 output log' → log' = log) ∧
      syscmdLog (some output) retBufSize = log ++ [(retBufSize-1,'\x00')]) ∧
    Inside retBufSize (syscmdLog (some output) retBufSize) ∧
    ∃ text, Holds (after m (syscmdLog (some output) retBufSize)) 0 text ∧ text <+: output ∧
      (output.length ≤ retBufSize-2 → text = output) := by
  have hfuel := Nat.lt_succ_self output.length
  obtain ⟨hpre,hall⟩ := syscmdText_begins hnul hfuel hsize
  refine ⟨⟨_,syscmdLoop_run hfuel,fun log' hrun => hrun.eq hfuel,rfl⟩,
    (syscmdLog_inside (some output) retBufSize).mpr (Or.inr hsize),
    _,syscmdLog_holds output hsize m,hpre,fun hfits => ?_⟩
  rcases hall with hwhole | hfull
  · exact hwhole
  · have hle := hpre.length_le
    exact hpre.eq_of_length (by omega)

theorem syscmdLog_safe_two :
    (∃ log, LoopRun 2 0 ['a'] log ∧ (∀ log', LoopRun 2 0 ['a'] log' → log' = log) ∧
      syscmdLog (some ['a']) 2 = log ++ [(1,'\x00')]) ∧
    Inside 2 (syscmdLog (some ['a']) 2) ∧
    ∃ text, Holds (after (fun _ => 'x') (syscmdLog (some ['a']) 2)) 0 text ∧ text <+: ['a'] ∧
      ((['a'].length : Int) ≤ 2-2 → text = ['a']) :=
  syscmdLog_safe (by decide) (by decide) fun _ => 'x'

end RdkHal.Wifi
