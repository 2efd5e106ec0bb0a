import RdkHal.Lib.Text

/-! The words of a line, as `grep -w` sees them, and what a search for one of them finds. -/

set_option autoImplicit false

namespace Text

def wordsOf (s : Str) : List Str := s.splitOnP (fun c => !isWordChar c)

theorem wordsOf_nil : wordsOf [] = [[]] := rfl

theorem wordsOf_cons {d : Char} (hd : isWordChar d = false) (t : Str) :
    wordsOf (d :: t) = [] :: wordsOf t := by
  have hblank : (!isWordChar d) = true := by simp [hd]
  exact List.splitOnP_append_cons [] t hblank

theorem wordsOf_append_cons (s : Str) {d : Char} (hd : isWordChar d = false) (t : Str) :
    wordsOf (s ++ d :: t) = wordsOf s ++ wordsOf t :=
  List.splitOnP_append_cons s t (by simp [hd])

theorem wordsOf_word {s : Str} (hs : ∀ c ∈ s, isWordChar c = true) : wordsOf s = [s] :=
  List.splitOnP_eq_singleton (fun c hc => by simp [hs c hc])

theorem hasWord_split {n : Str} {prev : Option Char} {s : Str} (h : hasWord n prev s = true) :
    ∃ a b, s = a ++ (n ++ b) ∧ boundary (a.getLast?.or prev) = true ∧ boundary b.head? = true := by
  induction s generalizing prev with
  | nil => simp [hasWord] at h
  | cons c s ih =>
    simp only [hasWord,Bool.or_eq_true,Bool.and_eq_true,decide_eq_true_eq] at h
    rcases h with ⟨⟨hprev,b,hb⟩,hnext⟩ | hrest
    · rw [← hb,List.drop_left] at hnext
      exact ⟨[],b,hb.symm,hprev,hnext⟩
    · obtain ⟨a,b,hs,hprev,hnext⟩ := ih hrest
      refine ⟨c :: a,b,by rw [hs]; rfl,?_,hnext⟩
      rw [List.getLast?_cons]
      cases ha : a.getLast? with
      | none => simpa [ha] using hprev
      | some d => simpa [ha] using hprev

/-- A search for a word finds one of the words of the line. -/
theorem hasWord_mem {n s : Str} (hn : ∀ c ∈ n, isWordChar c = true) (h : hasWord n none s = true) :
    n ∈ wordsOf s := by
  obtain ⟨a,b,rfl,hprev,hnext⟩ := hasWord_split h
  have hend : n ∈ wordsOf (n ++ b) := by
    cases b with
    | nil => simp [wordsOf_word hn]
    | cons e b =>
      have he : isWordChar e = false := by simpa [boundary] using hnext
      rw [wordsOf_append_cons n he,wordsOf_word hn]
      exact List.mem_append_left _ List.mem_cons_self
  rcases List.eq_nil_or_concat a with rfl | ⟨front,d,rfl⟩
  · exact hend
  · rw [List.concat_eq_append] at hprev ⊢
    have hd : isWordChar d = false := by simpa [boundary] using hprev
    rw [List.append_assoc,List.singleton_append,wordsOf_append_cons front hd]
    exact List.mem_append_right _ hend

/-- Of lines where one alone has the word the search prints that one. -/
theorem grepWord_none {n : Str} (hn : ∀ c ∈ n, isWordChar c = true) {lines : List Str}
    (h : ∀ l ∈ lines, n ∉ wordsOf l) : grepWord n lines = [] := by
  rw [grepWord,List.filter_eq_nil_iff]
  exact fun l hl hword => h l hl (hasWord_mem hn hword)

end Text
