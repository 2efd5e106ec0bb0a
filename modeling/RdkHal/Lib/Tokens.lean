import RdkHal.Lib.Text

/-! The tokens that repeated calls of `strtok` find, and search without regard to letter case
(`strcasestr`) in a text of lines. -/

set_option autoImplicit false

namespace Text

/-- The tokens of a text whose first characters `token` have been read. -/
def tokensFrom (delims : List Char) : Str → Str → List Str
  | token, [] => if token = [] then [] else [token]
  | token, c :: s =>
    if c ∈ delims then
      if token = [] then tokensFrom delims [] s else token :: tokensFrom delims [] s
    else tokensFrom delims (token ++ [c]) s

def tokens (delims : List Char) (s : Str) : List Str := tokensFrom delims [] s

theorem tokensFrom_word {delims : List Char} {w : Str} (hw : ∀ c ∈ w, c ∉ delims) (token s : Str) :
    tokensFrom delims token (w ++ s) = tokensFrom delims (token ++ w) s := by
  induction w generalizing token with
  | nil => simp
  | cons c w ih =>
    obtain ⟨hc,hw⟩ := List.forall_mem_cons.mp hw
    rw [List.cons_append,tokensFrom,if_neg hc,ih hw,List.append_assoc,List.singleton_append]

theorem tokens_line {delims : List Char} {l : Str} (hne : l ≠ []) (hl : ∀ c ∈ l, c ∉ delims)
    {d : Char} (hd : d ∈ delims) (s : Str) : tokens delims (l ++ d :: s) = l :: tokens delims s := by
  rw [tokens,tokensFrom_word hl,List.nil_append,tokensFrom,if_pos hd,if_neg hne,tokens]

theorem tokens_last {delims : List Char} {l : Str} (hl : ∀ c ∈ l, c ∉ delims) :
    tokens delims l = if l = [] then [] else [l] := by
  have hword := tokensFrom_word hl [] []
  rw [List.append_nil,List.nil_append] at hword
  rw [tokens,hword,tokensFrom]

theorem tokens_skip {delims : List Char} {d : Char} (hd : d ∈ delims) (n : Nat) (s : Str) :
    tokens delims (List.replicate n d ++ s) = tokens delims s := by
  induction n with
  | zero => rfl
  | succ n ih =>
    rw [List.replicate_succ,List.cons_append,tokens,tokensFrom,if_pos hd,if_pos rfl]
    exact ih

def column (d : Char) (c : Nat × Str) : Str := List.replicate c.1 d ++ (c.2 ++ [d])

/-- Columns are taken apart into their texts, whatever their widths. -/
theorem tokens_columns {delims : List Char} {d : Char} (hd : d ∈ delims) {cs : List (Nat × Str)}
    (hcs : ∀ c ∈ cs, c.2 ≠ [] ∧ ∀ x ∈ c.2, x ∉ delims) (tail : Str) :
    tokens delims (cs.flatMap (column d) ++ tail) = cs.map Prod.snd ++ tokens delims tail := by
  induction cs with
  | nil => rfl
  | cons c cs ih =>
    obtain ⟨⟨hne,hc⟩,hcs⟩ := List.forall_mem_cons.mp hcs
    rw [List.flatMap_cons,List.append_assoc,column,List.append_assoc,tokens_skip hd,
      List.append_assoc,List.singleton_append,tokens_line hne hc hd,ih hcs]
    rfl

theorem tokens_unlines {delims : List Char} (hnl : '\n' ∈ delims) {ls : List Str}
    (hls : ∀ l ∈ ls, l ≠ [] ∧ ∀ c ∈ l, c ∉ delims) (tail : Str) :
    tokens delims (unlines ls ++ tail) = ls ++ tokens delims tail := by
  induction ls with
  | nil => simp
  | cons l ls ih =>
    obtain ⟨⟨hne,hl⟩,hls⟩ := List.forall_mem_cons.mp hls
    rw [unlines_cons,List.append_assoc,List.cons_append,tokens_line hne hl hnl,ih hls,
      List.cons_append]

theorem tokensFrom_ne_nil {delims : List Char} {token s : Str}
    (h : token ≠ [] ∨ ∃ c ∈ s, c ∉ delims) : tokensFrom delims token s ≠ [] := by
  induction s generalizing token with
  | nil => simp [tokensFrom,h.resolve_right (by simp)]
  | cons c s ih =>
    rw [tokensFrom]
    by_cases hc : c ∈ delims
    · rw [if_pos hc]
      by_cases htoken : token = []
      · rw [if_pos htoken]
        refine ih (Or.inr ?_)
        obtain ⟨d,hd,hout⟩ := h.resolve_left (not_not.mpr htoken)
        rcases List.mem_cons.mp hd with rfl | hd
        · exact absurd hc hout
        · exact ⟨d,hd,hout⟩
      · rw [if_neg htoken]
        exact List.cons_ne_nil _ _
    · rw [if_neg hc]
      exact ih (Or.inl (by simp))

theorem tokens_ne_nil {delims : List Char} {s : Str} (h : ∃ c ∈ s, c ∉ delims) :
    tokens delims s ≠ [] :=
  tokensFrom_ne_nil (Or.inr h)

theorem tokensFrom_within {delims : List Char} {token s t : Str}
    (ht : t ∈ tokensFrom delims token s) : t ≠ [] ∧ t <:+: token ++ s := by
  induction s generalizing token with
  | nil =>
    rw [tokensFrom] at ht
    split at ht
    · cases ht
    · rename_i hne
      rw [List.mem_singleton.mp ht,List.append_nil]
      exact ⟨hne,List.infix_rfl⟩
  | cons c s ih =>
    have hrest : t ∈ tokensFrom delims [] s → t ≠ [] ∧ t <:+: token ++ c :: s := by
      intro hmem
      obtain ⟨hne,hin⟩ := ih hmem
      exact ⟨hne,hin.trans ((List.suffix_cons c s).trans (List.suffix_append _ _)).isInfix⟩
    rw [tokensFrom] at ht
    split at ht
    · split at ht
      · exact hrest ht
      · rename_i hne
        rcases List.mem_cons.mp ht with rfl | ht
        · exact ⟨hne,(List.prefix_append _ _).isInfix⟩
        · exact hrest ht
    · have hin := ih ht
      rwa [List.append_assoc,List.singleton_append] at hin

theorem tokens_within {delims : List Char} {s t : Str} (ht : t ∈ tokens delims s) :
    t ≠ [] ∧ t <:+: s :=
  tokensFrom_within ht

def tolower (c : Char) : Char := if 'A' ≤ c ∧ c ≤ 'Z' then Char.ofNat (c.toNat+32) else c

def lower (s : Str) : Str := s.map tolower

def strcasestr (s needle : Str) : Option Str := strstr (lower needle) (lower s)

def SameLetters (s t : Str) : Prop := lower s = lower t

theorem SameLetters.symm {s t : Str} (h : SameLetters s t) : SameLetters t s := Eq.symm h

theorem SameLetters.trans {s t u : Str} (h : SameLetters s t) (h' : SameLetters t u) :
    SameLetters s u := Eq.trans h h'

instance (s t : Str) : Decidable (SameLetters s t) := inferInstanceAs (Decidable (lower s = lower t))

theorem toNat_ofNat {n : Nat} (h : n.isValidChar) : (Char.ofNat n).toNat = n := by
  have hchar : Char.ofNat n = Char.ofNatAux n h := dif_pos h
  rw [hchar]
  rfl

theorem tolower_newline {c : Char} : tolower c = '\n' ↔ c = '\n' := by
  rw [tolower]
  split
  · rename_i hc
    have hlow : 65 ≤ c.toNat := hc.1
    have hhigh : c.toNat ≤ 90 := hc.2
    refine iff_of_false (fun h => ?_) (fun h => ?_)
    · have hnat := congrArg Char.toNat h
      have hvalid : (c.toNat+32).isValidChar := Or.inl (by omega)
      rw [toNat_ofNat hvalid] at hnat
      have hten : '\n'.toNat = 10 := rfl
      omega
    · subst h
      exact absurd hlow (by decide)
  · rfl

@[simp] theorem lower_length (s : Str) : (lower s).length = s.length := List.length_map _

theorem lower_newline {s : Str} : '\n' ∈ lower s ↔ '\n' ∈ s := by
  simp [lower,tolower_newline]

theorem lower_append (s t : Str) : lower (s ++ t) = lower s ++ lower t := List.map_append

theorem prefix_line {n w : Str} {d : Char} (hn : d ∉ n) (rest : Str) :
    n <+: w ++ d :: rest ↔ n <+: w := by
  refine ⟨fun h => ?_,fun h => h.trans (List.prefix_append _ _)⟩
  induction n generalizing w with
  | nil => exact List.nil_prefix
  | cons c n ih =>
    obtain ⟨hc,hn⟩ := not_or.mp (fun hmem => hn (List.mem_cons.mpr hmem))
    cases w with
    | nil => exact absurd (List.cons_prefix_cons.mp h).1.symm hc
    | cons b w =>
      obtain ⟨rfl,hrest⟩ := List.cons_prefix_cons.mp h
      exact List.cons_prefix_cons.mpr ⟨rfl,ih hn hrest⟩

theorem infix_line {n l : Str} {d : Char} (hne : n ≠ []) (hn : d ∉ n) (rest : Str) :
    n <:+: l ++ d :: rest ↔ n <:+: l ∨ n <:+: rest := by
  induction l with
  | nil =>
    have hstart : ¬n <+: d :: rest := by
      intro h
      have hnil := (prefix_line (w := []) hn rest).mp h
      exact hne (List.prefix_nil.mp hnil)
    simp [List.infix_cons_iff,hstart,hne]
  | cons c l ih =>
    have hstart := prefix_line (w := c :: l) hn rest
    rw [List.cons_append] at hstart ⊢
    rw [List.infix_cons_iff,hstart,ih,List.infix_cons_iff,or_assoc]

theorem infix_same_length {n l : Str} (h : n.length = l.length) : n <:+: l ↔ n = l :=
  ⟨fun hin => hin.eq_of_length h,fun heq => heq ▸ List.infix_rfl⟩

/-- In lines of its own length, and a shorter rest, a text is found where it is a line. -/
theorem strcasestr_lines {ls : List Str} {n tail : Str} (hne : n ≠ []) (hn : '\n' ∉ n)
    (hls : ∀ l ∈ ls, '\n' ∉ l ∧ l.length = n.length) (htail : tail.length < n.length) :
    (strcasestr (unlines ls ++ tail) n).isSome = true ↔ ∃ l ∈ ls, SameLetters l n := by
  rw [strcasestr,strstr_isSome]
  have hne' : lower n ≠ [] := fun h => hne (List.map_eq_nil_iff.mp h)
  induction ls with
  | nil =>
    refine iff_of_false (fun h => ?_) (by simp)
    have hle := h.length_le
    rw [unlines_nil,List.nil_append,lower_length,lower_length] at hle
    omega
  | cons l ls ih =>
    obtain ⟨⟨hl,hlen⟩,hls⟩ := List.forall_mem_cons.mp hls
    have hsplit : lower (unlines (l :: ls) ++ tail) =
        lower l ++ '\n' :: lower (unlines ls ++ tail) := by
      rw [unlines_cons,List.append_assoc,List.cons_append,lower_append]
      rfl
    have hline : lower n <:+: lower l ↔ SameLetters l n := by
      rw [infix_same_length (by rw [lower_length,lower_length,hlen]),SameLetters,eq_comm]
    rw [hsplit,infix_line hne' (fun h => hn (lower_newline.mp h)),hline]
    simp [ih hls]

end Text
