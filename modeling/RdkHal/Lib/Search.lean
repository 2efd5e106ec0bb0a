import RdkHal.Lib.Tokens

/-! Where `strstr` finds a text, and texts that hold several markers one after another. -/

set_option autoImplicit false

namespace Text

theorem strstr_found {n s pos : Str} (h : strstr n s = some pos) :
    ∃ pre rest, pos = n ++ rest ∧ s = pre ++ pos := by
  induction s with
  | nil =>
    by_cases hn : n = []
    · subst hn
      obtain rfl : [] = pos := by simpa [strstr] using h
      exact ⟨[],[],rfl,rfl⟩
    · simp [strstr,hn] at h
  | cons c s ih =>
    by_cases hpre : n <+: c :: s
    · obtain rfl : c :: s = pos := by simpa [strstr,hpre] using h
      obtain ⟨rest,hrest⟩ := hpre
      exact ⟨[],rest,hrest.symm,rfl⟩
    · rw [strstr,if_neg hpre] at h
      obtain ⟨pre,rest,hpos,hs⟩ := ih h
      exact ⟨c :: pre,rest,hpos,by rw [hs,List.cons_append]⟩

theorem strstr_first (n pre rest : Str) :
    ∃ skipped, strstr n (pre ++ (n ++ rest)) = some (n ++ (skipped ++ rest)) := by
  induction pre with
  | nil =>
    refine ⟨[],?_⟩
    cases h : n ++ rest with
    | nil =>
      obtain ⟨rfl,rfl⟩ := List.append_eq_nil_iff.mp h
      rfl
    | cons c s =>
      have hpre : n <+: c :: s := ⟨rest,h⟩
      simp [strstr,hpre,h]
  | cons c pre ih =>
    rw [List.cons_append]
    by_cases hpre : n <+: c :: (pre ++ (n ++ rest))
    · obtain ⟨tail,htail⟩ := hpre
      -- the text found reaches at least as far back as the given one
      have hgiven : rest <:+ c :: (pre ++ (n ++ rest)) := ⟨c :: (pre ++ n),by simp⟩
      have hfound : tail <:+ c :: (pre ++ (n ++ rest)) := ⟨n,htail⟩
      have hlen := congrArg List.length htail
      simp only [List.length_append,List.length_cons] at hlen
      have hsuffix := List.suffix_of_suffix_length_le hgiven hfound (by omega)
      obtain ⟨skipped,hskipped⟩ := hsuffix
      refine ⟨skipped,?_⟩
      rw [strstr,if_pos ⟨tail,htail⟩,hskipped,htail]
    · rw [strstr,if_neg hpre]
      exact ih

theorem strstr_skip {n pre : Str} {c : Char} (hn : n.head? = some c) (hc : c ∉ pre) (s : Str) :
    strstr n (pre ++ s) = strstr n s := by
  obtain ⟨n,rfl⟩ := List.head?_eq_some_iff.mp hn
  induction pre with
  | nil => rfl
  | cons d pre ih =>
    obtain ⟨hd,hc⟩ := List.ne_and_not_mem_of_not_mem_cons hc
    have hpre : ¬c :: n <+: d :: (pre ++ s) := fun h => hd (List.cons_prefix_cons.mp h).1
    rw [List.cons_append,strstr,if_neg hpre]
    exact ih hc

/-- A marker whose first letter does not come back in it is found behind a text without it. -/
theorem strstr_marker {n pre : Str} {c : Char} (hn : n.head? = some c) (hc : c ∉ n.tail)
    (hpre : ¬n <:+: pre) (rest : Str) : strstr n (pre ++ (n ++ rest)) = some (n ++ rest) := by
  obtain ⟨n,rfl⟩ := List.head?_eq_some_iff.mp hn
  induction pre with
  | nil => simp [strstr]
  | cons d pre ih =>
    have hstart : ¬c :: n <+: d :: (pre ++ (c :: n ++ rest)) := by
      intro h
      have hwhole : d :: pre <+: d :: (pre ++ (c :: n ++ rest)) := ⟨c :: n ++ rest,rfl⟩
      rcases List.prefix_or_prefix_of_prefix h hwhole with hin | ⟨beyond,hover⟩
      · exact hpre hin.isInfix
      · cases beyond with
        | nil => exact hpre (by rw [← hover,List.append_nil])
        | cons x beyond =>
          -- the marker would go on with its own first letter
          rw [List.cons_append] at hover
          obtain ⟨rfl,rfl⟩ := List.cons.inj hover
          obtain ⟨tail,htail⟩ := h
          rw [List.cons_append,List.append_assoc] at htail
          have hbehind := List.append_cancel_left (List.cons.inj htail).2
          have hx : x = d := (List.cons.inj hbehind).1
          exact hc (hx ▸ List.mem_append_right pre List.mem_cons_self)
    rw [List.cons_append,strstr,if_neg hstart]
    exact ih (fun h => hpre (h.trans (List.suffix_cons d pre).isInfix))

theorem infix_separated {n l w rest : Str} (hne : n ≠ []) (hw : w ≠ []) (hn : ∀ c ∈ w, c ∉ n) :
    n <:+: l ++ (w ++ rest) ↔ n <:+: l ∨ n <:+: rest := by
  induction w generalizing l with
  | nil => exact absurd rfl hw
  | cons c w ih =>
    obtain ⟨hc,hn⟩ := List.forall_mem_cons.mp hn
    rw [List.cons_append,infix_line hne hc]
    cases w with
    | nil => rfl
    | cons d w =>
      have hrest := @ih [] (by simp) hn
      rw [List.nil_append] at hrest
      rw [hrest,List.infix_nil,or_iff_right hne]

def grep (n : Str) (lines : List Str) : List Str := lines.filter fun l => (strstr n l).isSome

theorem mem_grep {n : Str} {lines : List Str} {l : Str} :
    l ∈ grep n lines ↔ l ∈ lines ∧ n <:+: l := by
  rw [grep,List.mem_filter,strstr_isSome]

/-- The text holds these markers, each behind the one before. -/
def InOrder : List Str → Str → Prop
  | [], _ => True
  | m :: ms, s => ∃ pre rest, s = pre ++ (m ++ rest) ∧ InOrder ms rest

theorem InOrder.append_left {ms : List Str} {s : Str} (h : InOrder ms s) (pre : Str) :
    InOrder ms (pre ++ s) := by
  cases ms with
  | nil => trivial
  | cons m ms =>
    obtain ⟨pre',rest,rfl,hrest⟩ := h
    exact ⟨pre ++ pre',rest,by rw [List.append_assoc],hrest⟩

theorem inOrder_one (m s : Str) : InOrder [m] s ↔ m <:+: s := by
  constructor
  · rintro ⟨pre,rest,hs,_⟩
    exact ⟨pre,rest,by rw [hs,List.append_assoc]⟩
  · rintro ⟨pre,rest,hs⟩
    exact ⟨pre,rest,by rw [← hs,List.append_assoc],trivial⟩

theorem not_inOrder {m s : Str} (h : strstr m s = none) (ms : List Str) : ¬InOrder (m :: ms) s := by
  rintro ⟨pre,rest,rfl,_⟩
  obtain ⟨skipped,hfound⟩ := strstr_first m pre rest
  rw [h] at hfound
  cases hfound

theorem inOrder_behind {m s rest : Str} (h : strstr m s = some (m ++ rest)) (ms : List Str) :
    InOrder (m :: ms) s ↔ InOrder ms rest := by
  constructor
  · rintro ⟨pre,rest',rfl,hrest⟩
    obtain ⟨skipped,hfound⟩ := strstr_first m pre rest'
    rw [h] at hfound
    rw [List.append_cancel_left (Option.some.inj hfound)]
    exact hrest.append_left skipped
  · intro hrest
    obtain ⟨pre,_,_,hs⟩ := strstr_found h
    exact ⟨pre,rest,hs,hrest⟩

theorem inOrder_from {m n s pos : Str} {c : Char} (h : strstr m s = some pos)
    (hn : n.head? = some c) (hc : c ∉ m) (ms : List Str) :
    InOrder (m :: n :: ms) s ↔ InOrder (n :: ms) pos := by
  obtain ⟨pre,rest,rfl,_⟩ := strstr_found h
  rw [inOrder_behind h]
  cases hnext : strstr n rest with
  | none =>
    have hskip := (strstr_skip hn hc rest).trans hnext
    exact iff_of_false (not_inOrder hnext ms) (not_inOrder hskip ms)
  | some pos' =>
    have hskip := (strstr_skip hn hc rest).trans hnext
    obtain ⟨_,rest',rfl,_⟩ := strstr_found hnext
    rw [inOrder_behind hnext,inOrder_behind hskip]

theorem inOrder_append_line {ms : List Str} {d : Char} (hms : ∀ m ∈ ms, m ≠ [] ∧ d ∉ m) (s : Str) :
    InOrder ms (s ++ [d]) ↔ InOrder ms s := by
  induction ms generalizing s with
  | nil => exact Iff.rfl
  | cons m ms ih =>
    obtain ⟨⟨hne,hd⟩,hms⟩ := List.forall_mem_cons.mp hms
    constructor
    · rintro ⟨pre,rest,hs,hrest⟩
      -- the last character is not one of the marker, so it is behind it
      rcases List.eq_nil_or_concat rest with rfl | ⟨rest,x,rfl⟩
      · rw [List.append_nil] at hs
        have hlast := congrArg List.getLast? hs
        rw [List.getLast?_append_of_ne_nil _ hne,List.getLast?_concat] at hlast
        exact absurd (List.mem_of_getLast? hlast.symm) hd
      · rw [List.concat_eq_append,← List.append_assoc,← List.append_assoc] at hs
        obtain ⟨rfl,hx⟩ := List.append_inj' hs rfl
        rw [List.concat_eq_append,← hx,ih hms] at hrest
        exact ⟨pre,rest,by rw [List.append_assoc],hrest⟩
    · rintro ⟨pre,rest,rfl,hrest⟩
      exact ⟨pre,rest ++ [d],by simp,(ih hms rest).mpr hrest⟩

instance : (ms : List Str) → (s : Str) → Decidable (InOrder ms s)
  | [], _ => isTrue trivial
  | m :: ms, s =>
    match h : strstr m s with
    | none => isFalse (not_inOrder h ms)
    | some pos =>
      have hpos : pos = m ++ pos.drop m.length := by
        obtain ⟨_,rest,rfl,_⟩ := strstr_found h
        rw [List.drop_left]
      have : Decidable (InOrder ms (pos.drop m.length)) := instDecidableInOrder ms _
      decidable_of_iff _ (inOrder_behind (h.trans (congrArg some hpos)) ms).symm

end Text
