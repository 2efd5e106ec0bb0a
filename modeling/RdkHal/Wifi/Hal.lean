import RdkHal.Wifi.Syscmd
import RdkHal.Lib.Format

/-! What the wireless HAL asks the system for. -/

set_option autoImplicit false

namespace RdkHal.Wifi
open Text

/-- `popen` yields the output of a command, or `none` when it returns NULL; `calloc` is told how
many entries to allocate; `boolOf` is the conversion of an `int` to `BOOL`. -/
structure Platform (ω : Type) where
  lib : Safec
  popen : Str → ω → Option Str × ω
  calloc : Nat → ω → Bool × ω
  boolOf : Int32 → Int

def Platform.answering (output : Option Str) : Platform Unit where
  lib := Safec.reference
  popen _ w := (output,w)
  calloc _ w := (true,w)
  boolOf n := n.toInt

structure Os (ω : Type) where
  world : ω
  issued : List Str

variable {ω : Type}

def Platform.shell (P : Platform ω) (cmd : Str) (os : Os ω) : Option Str × Os ω :=
  ((P.popen cmd os.world).1,⟨(P.popen cmd os.world).2,os.issued ++ [cmd]⟩)

def Platform.command (P : Platform ω) (size : Nat) (format : String) (args : List Arg) : Str :=
  (P.lib.sprintfS size (sprintf format.toList args)).2

theorem Platform.command_fits (P : Platform ω) {size : Nat} {format : String} {args : List Arg}
    (h : format.toList.length+(args.map (fun a => a.text.length)).sum < size) :
    P.command size format args = sprintf format.toList args := by
  have hlength := sprintf_length format.toList args
  rw [command,P.lib.sprintfS_fits _ _ (by omega)]

/-- A status, the text in the buffer afterwards, and the state. -/
def syscmd (P : Platform ω) (cmd retBuf : Str) (retBufSize : Int) (os : Os ω) : Ret × Str × Os ω :=
  match P.shell cmd os with
  | (none,os) => (.err,retBuf,os)
  | (some s,os) => (.ok,syscmdText (s.length+1) retBufSize s,os)

theorem syscmd_reads {P : Platform ω} {cmd s : Str} {os : Os ω}
    (h : (P.popen cmd os.world).1 = some s) (buf : Str) (retBufSize : Int) :
    syscmd P cmd buf retBufSize os =
      (.ok,syscmdText (s.length+1) retBufSize s,(P.shell cmd os).2) := by
  simp only [syscmd,Platform.shell,h]

theorem syscmd_started {P : Platform ω} {cmd : Str} {os : Os ω}
    (h : (P.popen cmd os.world).1 ≠ none) (buf buf' : Str) (retBufSize : Int) :
    syscmd P cmd buf retBufSize os = syscmd P cmd buf' retBufSize os := by
  obtain ⟨s,hs⟩ := Option.ne_none_iff_exists'.mp h
  rw [syscmd_reads hs,syscmd_reads hs]

theorem syscmd_failed {P : Platform ω} {cmd : Str} {os : Os ω}
    (h : (P.popen cmd os.world).1 = none) (buf : Str) (retBufSize : Int) :
    syscmd P cmd buf retBufSize os = (.err,buf,(P.shell cmd os).2) := by
  simp only [syscmd,Platform.shell,h]

theorem syscmd_issued (P : Platform ω) (cmd retBuf : Str) (retBufSize : Int) (os : Os ω) :
    (syscmd P cmd retBuf retBufSize os).2.2.issued = os.issued ++ [cmd] := by
  rw [syscmd]
  split <;> rename_i h <;> exact congrArg (fun r => r.2.issued) h.symm

def apPrefix : Str := "ath".toList

def radioPrefix : Str := "wifi".toList

theorem Platform.command_ap (P : Platform ω) {size : Nat} {format : String}
    (h : format.toList.length+14 < size) (apIndex : Int32) :
    P.command size format [.s apPrefix,.d apIndex] =
      sprintf format.toList [.s apPrefix,.d apIndex] := by
  apply P.command_fits
  have hdigits := formatD_length apIndex
  have hpre : apPrefix.length = 3 := by decide
  simp only [List.map_cons,List.map_nil,List.sum_cons,List.sum_nil,Arg.text,hpre]
  omega

end RdkHal.Wifi
