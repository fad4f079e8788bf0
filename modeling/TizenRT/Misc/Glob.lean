import TizenRT.Misc.Match

set_option autoImplicit false

/-!
What `match` decides on patterns without sets: the language of shell patterns, where '?' stands
for any one character, '*' for any run of characters without a '/', "**" for any run at all and
every other character for itself, with '|' between alternatives. The strings are NUL-free, as a C
string is up to its NUL.
-/

namespace TizenRT.Match

open CScan (NUL)

/-- `s` is in the language of the alternative `p`. A '*' followed by a '*' is the double wildcard,
as `match_one` reads it. -/
inductive Glob : List Char → List Char → Prop
  | nil : Glob [] []
  | any {c : Char} {p s : List Char} : c ≠ NUL → Glob p s → Glob ('?' :: p) (c :: s)
  | lit {c : Char} {p s : List Char} : c ≠ '?' → c ≠ '*' → Glob p s → Glob (c :: p) (c :: s)
  | star {p s₁ s₂ : List Char} : p.head? ≠ some '*' → '/' ∉ s₁ → Glob p s₂ → Glob ('*' :: p) (s₁ ++ s₂)
  | dstar {p s₁ s₂ : List Char} : Glob p s₂ → Glob ('*' :: '*' :: p) (s₁ ++ s₂)

theorem glob_nil_iff {s : List Char} : Glob [] s ↔ s = [] := by
  constructor
  · rintro ⟨⟩
    rfl
  · rintro rfl
    exact .nil

theorem glob_cons_iff {c : Char} {p s : List Char} :
    Glob (c :: p) s ↔
      (c = '?' ∧ ∃ d s', s = d :: s' ∧ d ≠ NUL ∧ Glob p s') ∨
      (c ≠ '?' ∧ c ≠ '*' ∧ ∃ s', s = c :: s' ∧ Glob p s') ∨
      (c = '*' ∧ p.head? ≠ some '*' ∧ ∃ s₁ s₂, s = s₁ ++ s₂ ∧ '/' ∉ s₁ ∧ Glob p s₂) ∨
      (c = '*' ∧ ∃ q, p = '*' :: q ∧ ∃ s₁ s₂, s = s₁ ++ s₂ ∧ Glob q s₂) := by
  constructor
  · intro h
    cases h with
    | any hd hg => exact .inl ⟨rfl, _, _, rfl, hd, hg⟩
    | lit h₁ h₂ hg => exact .inr (.inl ⟨h₁, h₂, _, rfl, hg⟩)
    | star hh hs hg => exact .inr (.inr (.inl ⟨rfl, hh, _, _, rfl, hs, hg⟩))
    | dstar hg => exact .inr (.inr (.inr ⟨rfl, _, rfl, _, _, rfl, hg⟩))
  · rintro (⟨rfl, d, s', rfl, hd, hg⟩ | ⟨h₁, h₂, s', rfl, hg⟩ | ⟨rfl, hh, s₁, s₂, rfl, hs, hg⟩ |
      ⟨rfl, q, rfl, s₁, s₂, rfl, hg⟩)
    · exact .any hd hg
    · exact .lit h₁ h₂ hg
    · exact .star hh hs hg
    · exact .dstar hg

theorem glob_any_iff {p s : List Char} :
    Glob ('?' :: p) s ↔ ∃ d s', s = d :: s' ∧ d ≠ NUL ∧ Glob p s' := by
  rw [glob_cons_iff]
  simp

theorem glob_lit_iff {c : Char} {p s : List Char} (h₁ : c ≠ '?') (h₂ : c ≠ '*') :
    Glob (c :: p) s ↔ ∃ s', s = c :: s' ∧ Glob p s' := by
  rw [glob_cons_iff]
  simp [h₁, h₂]

theorem glob_star_iff {p s : List Char} (hp : p.head? ≠ some '*') :
    Glob ('*' :: p) s ↔ ∃ s₁ s₂, s = s₁ ++ s₂ ∧ '/' ∉ s₁ ∧ Glob p s₂ := by
  rw [glob_cons_iff]
  have hq : ¬ ∃ q, p = '*' :: q := by
    rintro ⟨q, rfl⟩
    exact hp rfl
  simp only [show ('*' : Char) ≠ '?' by decide, false_and, ne_eq, not_true_eq_false, true_and,
    false_or, hp, not_false_eq_true]
  exact or_iff_left fun ⟨q, hpq, _⟩ => hq ⟨q, hpq⟩

theorem glob_dstar_iff {p s : List Char} :
    Glob ('*' :: '*' :: p) s ↔ ∃ s₁ s₂, s = s₁ ++ s₂ ∧ Glob p s₂ := by
  rw [glob_cons_iff]
  simp

theorem drop_take_cons {l : List Char} {n p : Nat} (hp : p < n) (hn : n ≤ l.length) :
    (l.take n).drop p = l.getD p NUL :: (l.take n).drop (p + 1) := by
  have hlt : p < (l.take n).length := by simp; omega
  rw [List.drop_eq_getElem_cons hlt, List.getElem_take]
  simp [List.getElem?_eq_getElem (show p < l.length by omega)]

theorem headD_eq_nul_iff {s : List Char} (hs : NUL ∉ s) : s.headD NUL = NUL ↔ s = [] := by
  cases s with
  | nil => simp
  | cons c s =>
    simp only [List.headD_cons, reduceCtorEq, iff_false]
    exact fun h => hs (h ▸ List.mem_cons_self)

theorem any_range_reverse_iff (i : Nat) (f : Nat → Bool) :
    (List.range (i + 1)).reverse.any f = true ↔ ∃ j ≤ i, f j = true := by
  simp [Nat.lt_succ_iff]

theorem exists_append_iff_drop (s : List Char) (P : List Char → Prop) :
    (∃ s₁ s₂, s = s₁ ++ s₂ ∧ P s₂) ↔ ∃ j ≤ s.length, P (s.drop j) := by
  constructor
  · rintro ⟨s₁, s₂, rfl, hP⟩
    exact ⟨s₁.length, by simp, by simpa using hP⟩
  · rintro ⟨j, -, hP⟩
    exact ⟨s.take j, s.drop j, (List.take_append_drop j s).symm, hP⟩

theorem slash_not_mem_take_iff {s : List Char} (hs : NUL ∉ s) {j : Nat} (hj : j ≤ s.length) :
    '/' ∉ s.take j ↔ j ≤ strcspnSlash s := by
  induction s generalizing j with
  | nil =>
    obtain rfl : j = 0 := by simpa using hj
    simp
  | cons c s ih =>
    have hc : c ≠ NUL := fun h => hs (h ▸ List.mem_cons_self)
    have hs' : NUL ∉ s := fun h => hs (List.mem_cons_of_mem c h)
    cases j with
    | zero => simp
    | succ j =>
      have hrun : strcspnSlash (c :: s) = if c = '/' then 0 else strcspnSlash s + 1 := by
        by_cases hsl : c = '/' <;> simp [strcspnSlash, hsl, hc]
      rw [hrun, List.take_succ_cons, List.mem_cons, not_or, ih hs' (by simpa using hj)]
      by_cases hsl : c = '/'
      · simp [hsl]
      · simp [hsl, Ne.symm hsl]

theorem exists_append_slash_iff_drop {s : List Char} (hs : NUL ∉ s) (P : List Char → Prop) :
    (∃ s₁ s₂, s = s₁ ++ s₂ ∧ '/' ∉ s₁ ∧ P s₂) ↔ ∃ j ≤ strcspnSlash s, P (s.drop j) := by
  constructor
  · rintro ⟨s₁, s₂, rfl, hsl, hP⟩
    refine ⟨s₁.length, ?_, by simpa using hP⟩
    rw [← slash_not_mem_take_iff hs (by simp)]
    simpa using hsl
  · rintro ⟨j, hj, hP⟩
    have hjs : j ≤ s.length := hj.trans ((List.takeWhile_sublist _).length_le)
    exact ⟨s.take j, s.drop j, (List.take_append_drop j s).symm,
      (slash_not_mem_take_iff hs hjs).mpr hj, hP⟩

/-- An alternative of `match`: its `patlen` characters hold no set and no NUL, and what follows
it is no '*' (it is a '|' or the NUL). -/
structure Alternative (pattern : List Char) (patlen : Nat) : Prop where
  le_length : patlen ≤ pattern.length
  plain : ∀ c ∈ pattern.take patlen, c ≠ '[' ∧ c ≠ NUL
  next : pattern.getD patlen NUL ≠ '*'

theorem Alternative.drop {pattern : List Char} {patlen q : Nat} (h : Alternative pattern patlen)
    (hq : q ≤ patlen) : Alternative (pattern.drop q) (patlen - q) where
  le_length := by simp; have := h.le_length; omega
  plain c hc := h.plain c (by
    rw [← List.drop_take] at hc
    exact List.mem_of_mem_drop hc)
  next := by
    rw [List.getD_eq_getElem?_getD, List.getElem?_drop, Nat.add_sub_cancel' hq, ← List.getD_eq_getElem?_getD]
    exact h.next

theorem Alternative.char_ne {pattern : List Char} {patlen p : Nat} (h : Alternative pattern patlen)
    (hp : p < patlen) : pattern.getD p NUL ≠ '[' ∧ pattern.getD p NUL ≠ NUL := by
  have hlt : p < pattern.length := by have := h.le_length; omega
  refine h.plain _ (List.mem_iff_getElem.mpr ⟨p, by simp; omega, ?_⟩)
  simp [List.getElem?_eq_getElem hlt]

theorem matchOne_iff_glob {pattern : List Char} {patlen p : Nat} {string : List Char}
    (halt : Alternative pattern patlen) (hs : NUL ∉ string) :
    matchOne pattern patlen p string = true ↔ Glob ((pattern.take patlen).drop p) string := by
  fun_induction matchOne pattern patlen p string with
  | case1 pattern patlen p string hp c sc hc ih =>
    obtain ⟨hq, hsc⟩ := hc
    rw [ih halt (fun h => hs (List.mem_of_mem_tail h)), drop_take_cons hp halt.le_length,
      show pattern.getD p NUL = '?' from hq, glob_any_iff]
    cases string with
    | nil => exact absurd rfl hsc
    | cons d s =>
      simp only [List.tail_cons, List.cons.injEq]
      constructor
      · exact fun hg => ⟨d, s, ⟨rfl, rfl⟩, fun h => hs (h ▸ List.mem_cons_self), hg⟩
      · rintro ⟨d', s', ⟨rfl, rfl⟩, -, hg⟩
        exact hg
  | case2 pattern patlen p string hp c sc _ hc _ _ | case3 pattern patlen p string hp c sc _ hc _ =>
    exact absurd hc.1 (halt.char_ne hp).1
  | case4 pattern patlen p string hp c sc _ _ hc double p' i ih =>
    rw [any_range_reverse_iff, drop_take_cons hp halt.le_length, show pattern.getD p NUL = '*' from hc]
    have hp1 : pattern.getD (p + 1) NUL = '*' → p + 1 < patlen := fun hd => by
      rcases Nat.lt_or_ge (p + 1) patlen with h | h
      · exact h
      · exact absurd (show p + 1 = patlen by omega ▸ hd) halt.next
    have hp'le : p' ≤ patlen := by
      by_cases hd : pattern.getD (p + 1) NUL = '*'
      · have := hp1 hd
        simp only [p', double, dif_pos hd]
        omega
      · simp only [p', double, dif_neg hd]
        omega
    have hrest : ∀ j, (matchOne (pattern.drop p') (patlen - p') 0 (string.drop j) = true ↔
        Glob ((pattern.take patlen).drop p') (string.drop j)) := fun j => by
      rw [ih j (halt.drop hp'le) (fun h => hs (List.mem_of_mem_drop h)), List.drop_zero, ← List.drop_take]
    by_cases hd : pattern.getD (p + 1) NUL = '*'
    · have hp' : p' = p + 1 + 1 := dif_pos hd
      have hi : i = string.length := (dif_pos hd).trans (strlen_of_nul_not_mem hs)
      rw [hp'] at hrest ⊢
      rw [drop_take_cons (hp1 hd) halt.le_length, hd, glob_dstar_iff, exists_append_iff_drop, hi]
      exact exists_congr fun j => and_congr_right fun _ => hrest j
    · have hp' : p' = p + 1 := dif_neg hd
      have hi : i = strcspnSlash string := dif_neg hd
      rw [hp'] at hrest ⊢
      have hhead : ((pattern.take patlen).drop (p + 1)).head? ≠ some '*' := by
        rcases Nat.lt_or_ge (p + 1) patlen with h | h
        · rw [drop_take_cons h halt.le_length]
          simpa using hd
        · rw [List.drop_eq_nil_of_le (by simp; omega)]
          simp
      rw [glob_star_iff hhead, exists_append_slash_iff_drop hs, hi]
      exact exists_congr fun j => and_congr_right fun _ => hrest j
  | case5 pattern patlen p string hp c sc hq _ hstar hne =>
    simp only [Bool.false_eq_true, false_iff]
    rw [drop_take_cons hp halt.le_length]
    by_cases hc : c = '?'
    · have hsc : sc = NUL := by simpa [hc] using hq
      rw [show pattern.getD p NUL = '?' from hc, glob_any_iff]
      rintro ⟨d, s', rfl, -, -⟩
      have hd : d = NUL := hsc
      exact hs (hd ▸ List.mem_cons_self)
    · rw [glob_lit_iff hc hstar]
      rintro ⟨s', rfl, -⟩
      exact hne rfl
  | case6 pattern patlen p string hp c sc hq _ hstar heq ih =>
    have hc : c ≠ NUL := (halt.char_ne hp).2
    have hsc : sc = c := (not_not.mp heq).symm
    have hq' : c ≠ '?' := fun h => hq ⟨h, by rw [hsc, h]; decide⟩
    rw [ih halt (fun h => hs (List.mem_of_mem_tail h)), drop_take_cons hp halt.le_length,
      glob_lit_iff hq' hstar]
    cases string with
    | nil => exact absurd hsc.symm (by simpa [sc] using hc)
    | cons d s =>
      obtain rfl : d = c := hsc
      simp
  | case7 pattern patlen p string hp =>
    rw [List.drop_eq_nil_of_le (by simp; omega), glob_nil_iff, decide_eq_true_iff, headD_eq_nul_iff hs]

theorem takeWhile_ne_nul {s : List Char} (h : NUL ∉ s) : s.takeWhile (· ≠ NUL) = s :=
  List.takeWhile_eq_self_iff.mpr fun c hc => by simpa using ne_of_mem_of_not_mem hc h

theorem bar_not_mem_of_strchrBar {pattern : List Char} (hnul : NUL ∉ pattern)
    (h : strchrBar pattern = none) : '|' ∉ pattern := by
  unfold strchrBar at h
  rw [takeWhile_ne_nul hnul] at h
  split at h
  · cases h
  · assumption

theorem split_of_strchrBar {pattern : List Char} {k : Nat} (hnul : NUL ∉ pattern)
    (h : strchrBar pattern = some k) :
    pattern = pattern.take k ++ '|' :: pattern.drop (k + 1) ∧ '|' ∉ pattern.take k ∧
      k < pattern.length := by
  unfold strchrBar at h
  rw [takeWhile_ne_nul hnul] at h
  split at h
  · rename_i hm
    cases h
    have hlt := List.idxOf_lt_length_of_mem hm
    refine ⟨?_, fun ht => ?_, hlt⟩
    · conv => lhs; rw [← List.take_append_drop (pattern.idxOf '|') pattern]
      rw [List.drop_eq_getElem_cons hlt, List.getElem_idxOf hlt]
    · exact absurd ((List.mem_take_iff_idxOf_lt hm).mp ht) (lt_irrefl _)
  · cases h

/-- `match` decides whether the string is in the language of one of the pattern's
'|'-separated alternatives, for a pattern without sets. By induction along `match`, one
alternative at a time. -/
theorem match_iff_glob {pattern string : List Char} (hpat : ∀ c ∈ pattern, c ≠ '[' ∧ c ≠ NUL)
    (hs : NUL ∉ string) :
    «match» pattern string = true ↔ ∃ alt ∈ pattern.splitOn '|', Glob alt string := by
  fun_induction «match» pattern string with
  | case1 pattern h =>
    have hnul : NUL ∉ pattern := fun hm => (hpat NUL hm).2 rfl
    have halt : Alternative pattern (strlen pattern) := by
      rw [strlen_of_nul_not_mem hnul]
      exact ⟨le_rfl, fun c hc => hpat c (List.mem_of_mem_take hc), by simp; decide⟩
    rw [matchOne_iff_glob halt hs, List.drop_zero, strlen_of_nul_not_mem hnul, List.take_length,
      List.splitOn_eq_singleton (bar_not_mem_of_strchrBar hnul h)]
    simp
  | case2 pattern k h ih =>
    have hnul : NUL ∉ pattern := fun hm => (hpat NUL hm).2 rfl
    obtain ⟨hsplit, hbar, hk⟩ := split_of_strchrBar hnul h
    have hget : pattern.getD k NUL = '|' := by
      have h' : (pattern.take k ++ '|' :: pattern.drop (k + 1)).getD k NUL = '|' := by
        simp [List.getD_eq_getElem?_getD, hk.le]
      rwa [← hsplit] at h'
    have halt : Alternative pattern k :=
      ⟨hk.le, fun c hc => hpat c (List.mem_of_mem_take hc), by rw [hget]; decide⟩
    have hspl : pattern.splitOn '|' = pattern.take k :: (pattern.drop (k + 1)).splitOn '|' := by
      conv_lhs => rw [hsplit]
      exact List.splitOn_append_cons_self_of_not_mem hbar _
    rw [Bool.or_eq_true, matchOne_iff_glob halt hs, List.drop_zero,
      ih (fun c hc => hpat c (List.mem_of_mem_drop hc)), hspl]
    simp only [List.mem_cons, exists_eq_or_imp]

theorem match_iff_glob_main_c :
    ((∀ c ∈ ['*', '.', 'c'], c ≠ '[' ∧ c ≠ NUL) ∧ NUL ∉ ['m', 'a', 'i', 'n', '.', 'c']) ∧
      «match» ['*', '.', 'c'] ['m', 'a', 'i', 'n', '.', 'c'] = true :=
  ⟨⟨by simp [NUL], by decide⟩, (match_iff_glob (by simp [NUL]) (by decide)).mpr
    ⟨['*', '.', 'c'], by decide,
      (Glob.star (by decide) (by decide) (Glob.lit (by decide) (by decide) (Glob.lit (by decide) (by decide) .nil)) :
        Glob ['*', '.', 'c'] (['m', 'a', 'i', 'n'] ++ ['.', 'c']))⟩⟩

end TizenRT.Match
