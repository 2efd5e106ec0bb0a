import RdkHal.Lib.Machines
import RdkHal.Capacity

/-! A caller that asks for the battery's texts one after the other, with one array and the one
length that each getter is told and rewrites. -/

set_option autoImplicit false

namespace RdkHal.Mta
open Text Memory Runs

inductive Battery where
  | powerStatus
  | condition
  | status
  | life
  deriving DecidableEq,Repr

namespace Battery

def text : Battery → Str
  | powerStatus => "Battery".toList
  | condition => "Good".toList
  | status => "Discharging".toList
  | life => "Need Replacement".toList

theorem text_ne (b : Battery) : b.text ≠ [] := by cases b <;> decide

def get (b : Battery) (nullSlack : Bool) (old : Str) (len : Nat) : Log Char × Str × Nat :=
  match b with
  | powerStatus => mtaHalBatteryGetPowerStatus nullSlack old len
  | condition => mtaHalBatteryGetCondition nullSlack old len
  | status => mtaHalBatteryGetStatus nullSlack old len
  | life => mtaHalBatteryGetLife nullSlack old len

theorem get_eq (b : Battery) (nullSlack : Bool) (old : Str) (len : Nat) :
    b.get nullSlack old len = batteryText nullSlack b.text old len := by
  cases b <;> rfl

end Battery

structure Caller where
  text : Str
  len : Nat

/-- The writes, the text that the caller finds, and what it goes on with. -/
def ask (nullSlack : Bool) (s : Caller) (b : Battery) : (Log Char × Str) × Caller :=
  let (log,text,len) := b.get nullSlack s.text s.len
  ((log,text),⟨text,len⟩)

theorem ask_eq (nullSlack : Bool) {s : Caller} (hs : 1 ≤ s.len) (b : Battery) :
    ask nullSlack s b =
      ((strcpyLog nullSlack s.len b.text,if b.text.length < s.len then b.text else []),
      if b.text.length < s.len then ⟨b.text,b.text.length+1⟩ else ⟨[],1⟩) := by
  have hne : s.len ≠ 0 := by omega
  simp only [ask,b.get_eq,batteryText,strcpyText,hne,if_false]
  split <;> rfl

theorem ask_len (nullSlack : Bool) {s : Caller} (hs : 1 ≤ s.len) (b : Battery) :
    1 ≤ (ask nullSlack s b).2.len ∧ (ask nullSlack s b).2.len ≤ s.len := by
  rw [ask_eq nullSlack hs]
  split
  · exact ⟨Nat.succ_pos _,by assumption⟩
  · exact ⟨Nat.le_refl 1,hs⟩

/-- No write of a run is outside the room that it began with, and the texts are the ones asked for
exactly where the first fits the room and none is longer than the one before. -/
theorem run_texts_iff (nullSlack : Bool) {s : Caller} (hs : 1 ≤ s.len) (bs : List Battery) :
    (∀ a ∈ answers (ask nullSlack) s bs, Inside s.len a.1) ∧
    ((answers (ask nullSlack) s bs).map (fun a => a.2) = bs.map Battery.text ↔
      (s.len :: bs.map (fun b => b.text.length+1)).IsChain (fun m n => n ≤ m)) := by
  induction bs generalizing s with
  | nil => exact ⟨by simp [answers],by simp [answers]⟩
  | cons b bs ih =>
    obtain ⟨hlow,hhigh⟩ := ask_len nullSlack hs b
    obtain ⟨hinside,htexts⟩ := ih hlow
    constructor
    · intro a ha
      rw [answers,List.mem_cons] at ha
      rcases ha with rfl | ha
      · rw [ask_eq nullSlack hs]
        exact strcpyLog_inside nullSlack s.len b.text
      · intro w hw
        have hin := hinside a ha w hw
        omega
    · rw [answers,List.map_cons,List.map_cons,List.map_cons,List.cons.injEq,htexts,
        ask_eq nullSlack hs,List.isChain_cons_cons]
      by_cases hfits : b.text.length < s.len
      · simp only [hfits,if_true,true_and]
        exact (and_iff_right hfits).symm
      · refine iff_of_false (fun h => ?_) (fun h => hfits h.1)
        rw [if_neg hfits] at h
        exact b.text_ne h.1.symm

theorem run_texts_iff_descending :
    let bs : List Battery := [.life,.status,.powerStatus,.condition]
    (∀ a ∈ answers (ask false) ⟨[],17⟩ bs, Inside 17 a.1) ∧
    ((answers (ask false) ⟨[],17⟩ bs).map (fun a => a.2) = bs.map Battery.text ↔
      (17 :: bs.map (fun b => b.text.length+1)).IsChain (fun m n => n ≤ m)) :=
  run_texts_iff false (by decide) _

end RdkHal.Mta
