import RdkHal.Lib.Text

/-! How a loop of `fgets` with a short buffer takes a text of lines apart: a line that does not fit
is read in several pieces, and what follows is read later than its line. -/

set_option autoImplicit false

namespace Text

theorem fgetsFuel_enough {n fuel : Nat} (hn : 2 ≤ n) {s : Str} (hf : s.length ≤ fuel) :
    fgetsFuel n fuel s = fgetsAll n s := by
  obtain ⟨k,rfl⟩ : ∃ k, n = k+2 := ⟨n-2,by omega⟩
  rw [fgetsAll]
  induction hlen : s.length using Nat.strong_induction_on generalizing fuel s with
  | _ m ih =>
    cases s with
    | nil =>
      subst hlen
      cases fuel <;> simp [fgetsFuel]
    | cons c s =>
      have hne : c :: s ≠ [] := by simp
      have hpos := List.length_pos_iff.mpr (takeLine_ne_nil k hne)
      have happ := congrArg List.length (takeLine_append (k+1) (c :: s))
      rw [List.length_append,hlen] at happ
      obtain ⟨fuel,rfl⟩ : ∃ j, fuel = j+1 := ⟨fuel-1,by rw [List.length_cons] at hf; omega⟩
      obtain ⟨m,rfl⟩ : ∃ j, m = j+1 := ⟨m-1,by omega⟩
      have hshort : (takeLine (k+1) (c :: s)).2.length < m+1 := by omega
      have hfuel : (takeLine (k+1) (c :: s)).2.length ≤ fuel := by omega
      have hrest := ih _ hshort hfuel rfl
      have hrest' := ih _ hshort (Nat.le_of_lt_succ hshort) rfl
      rw [fgetsFuel,fgetsFuel,if_neg hne,if_neg hne]
      exact congrArg _ (hrest.trans hrest'.symm)

theorem fgetsAll_nil (n : Nat) : fgetsAll n [] = [] := rfl

theorem fgetsAll_step {n : Nat} (hn : 2 ≤ n) {s : Str} (hs : s ≠ []) :
    fgetsAll n s = (takeLine (n-1) s).1 :: fgetsAll n (takeLine (n-1) s).2 := by
  obtain ⟨k,hk⟩ : ∃ k, n-1 = k+1 := ⟨n-2,by omega⟩
  have hpos := List.length_pos_iff.mpr (takeLine_ne_nil k hs)
  have happ := congrArg List.length (takeLine_append (n-1) s)
  rw [← hk] at hpos
  rw [List.length_append] at happ
  obtain ⟨m,hm⟩ : ∃ m, s.length = m+1 := ⟨s.length-1,by omega⟩
  rw [fgetsAll,hm,fgetsFuel,if_neg hs]
  exact congrArg _ (fgetsFuel_enough hn (by omega))

theorem fgetsAll_first {n : Nat} (hn : 2 ≤ n) {s : Str} (hs : s ≠ []) :
    ∃ chunk chunks, fgetsAll n s = chunk :: chunks ∧ (cstr chunk = [] ↔ cstr s = []) := by
  refine ⟨_,_,fgetsAll_step hn hs,?_⟩
  obtain ⟨k,hk⟩ : ∃ k, n-1 = k+1 := ⟨n-2,by omega⟩
  have hbegins := cstr_append_nil (takeLine_ne_nil k hs) (takeLine (k+1) s).2
  rw [takeLine_append] at hbegins
  rw [hk,hbegins]

theorem fgetsAll_short {n : Nat} {l : Str} (hl : '\n' ∉ l) (hfit : l.length+1 < n) (rest : Str) :
    fgetsAll n (l ++ '\n' :: rest) = (l ++ ['\n']) :: fgetsAll n rest := by
  rw [fgetsAll_step (by omega) (by simp),takeLine_line hl (by omega)]

theorem fgetsAll_long {n : Nat} (hn : 2 ≤ n) {l : Str} (hl : '\n' ∉ l) (hlong : n ≤ l.length+1)
    (rest : Str) :
    fgetsAll n (l ++ '\n' :: rest) = l.take (n-1) :: fgetsAll n (l.drop (n-1) ++ '\n' :: rest) := by
  rw [fgetsAll_step hn (by simp),takeLine_short hl (by omega)]

theorem fgetsAll_pieces {n : Nat} (hn : 2 ≤ n) {l : Str} (hl : '\n' ∉ l) (rest : Str) :
    (fgetsAll n rest).length+1 ≤ (fgetsAll n (l ++ '\n' :: rest)).length := by
  induction hlen : l.length using Nat.strong_induction_on generalizing l with
  | _ m ih =>
    by_cases hfit : l.length+1 < n
    · rw [fgetsAll_short hl hfit,List.length_cons]
    · have hdrop : (l.drop (n-1)).length < m := by
        rw [List.length_drop]
        omega
      have hrest := ih _ hdrop (fun h => hl (List.mem_of_mem_drop h)) rfl
      rw [fgetsAll_long hn hl (by omega),List.length_cons]
      omega

theorem fgetsAll_length_le {n : Nat} (hn : 2 ≤ n) {ls : List Str} (hls : ∀ l ∈ ls, '\n' ∉ l) :
    ls.length ≤ (fgetsAll n (unlines ls)).length := by
  induction ls with
  | nil => simp
  | cons l ls ih =>
    obtain ⟨hl,hls⟩ := List.forall_mem_cons.mp hls
    have hpieces := fgetsAll_pieces hn hl (unlines ls)
    have hrest := ih hls
    rw [unlines_cons,List.length_cons]
    omega

/-- There are as many reads as lines exactly where all lines fit. -/
theorem fgetsAll_length_iff {n : Nat} (hn : 2 ≤ n) {ls : List Str} (hls : ∀ l ∈ ls, '\n' ∉ l) :
    (fgetsAll n (unlines ls)).length = ls.length ↔ ∀ l ∈ ls, l.length+1 < n := by
  induction ls with
  | nil => simp [fgetsAll_nil]
  | cons l ls ih =>
    obtain ⟨hl,hls⟩ := List.forall_mem_cons.mp hls
    rw [unlines_cons,List.forall_mem_cons]
    by_cases hfit : l.length+1 < n
    · rw [fgetsAll_short hl hfit,List.length_cons,List.length_cons,Nat.add_right_cancel_iff,ih hls,
        and_iff_right hfit]
    · have hpieces := @fgetsAll_pieces n hn (l.drop (n-1)) (fun h => hl (List.mem_of_mem_drop h))
        (unlines ls)
      have hle := fgetsAll_length_le hn hls
      refine iff_of_false ?_ (fun h => hfit h.1)
      rw [fgetsAll_long hn hl (by omega),List.length_cons,List.length_cons]
      omega

/-- The reads begin where the lines do exactly where all lines but the last fit. -/
theorem fgetsAll_starts_iff {n : Nat} (hn : 2 ≤ n) {ls : List Str} (hls : ∀ l ∈ ls, '\n' ∉ l) :
    (∀ i < ls.length, ((fgetsAll n (unlines ls)).drop i).flatten = unlines (ls.drop i)) ↔
      ∀ l ∈ ls.dropLast, l.length+1 < n := by
  induction ls with
  | nil => simp
  | cons l ls ih =>
    obtain ⟨hl,hls⟩ := List.forall_mem_cons.mp hls
    cases ls with
    | nil => simp [fgetsAll_flatten hn]
    | cons l' ls =>
      rw [List.dropLast_cons_cons,List.forall_mem_cons]
      by_cases hfit : l.length+1 < n
      · rw [and_iff_right hfit,← ih hls,unlines_cons,fgetsAll_short hl hfit]
        constructor
        · intro h i hi
          simpa using h (i+1) (by simpa using hi)
        · intro h i hi
          cases i with
          | zero => simp [fgetsAll_flatten hn]
          | succ i => simpa using h i (by simpa using hi)
      · refine iff_of_false (fun h => ?_) (fun h => hfit h.1)
        have hsecond := congrArg List.length (h 1 (by simp))
        rw [unlines_cons,fgetsAll_long hn hl (by omega),List.drop_succ_cons,List.drop_zero,
          fgetsAll_flatten hn] at hsecond
        simp at hsecond
        omega

theorem fgetsAll_get {n : Nat} (hn : 2 ≤ n) {ls : List Str} (hls : ∀ l ∈ ls, '\n' ∉ l)
    (hfit : ∀ l ∈ ls.dropLast, l.length+1 < n) {i : Nat} {l : Str} (hl : ls[i]? = some l) :
    (fgetsAll n (unlines ls))[i]? = some ((l ++ ['\n']).take (n-1)) := by
  induction ls generalizing i with
  | nil => cases hl
  | cons m ls ih =>
    obtain ⟨hm,hls⟩ := List.forall_mem_cons.mp hls
    rw [unlines_cons]
    cases i with
    | zero =>
      obtain rfl : m = l := Option.some.inj hl
      by_cases hshort : m.length+1 < n
      · rw [fgetsAll_short hm hshort,List.getElem?_cons_zero,List.take_of_length_le]
        simp only [List.length_append,List.length_singleton]
        omega
      · rw [fgetsAll_long hn hm (by omega),List.getElem?_cons_zero,List.take_append_of_le_length]
        omega
    | succ i =>
      cases ls with
      | nil => cases hl
      | cons m' ls =>
        rw [List.dropLast_cons_cons,List.forall_mem_cons] at hfit
        rw [fgetsAll_short hm hfit.1,List.getElem?_cons_succ]
        exact ih hls hfit.2 hl

end Text
