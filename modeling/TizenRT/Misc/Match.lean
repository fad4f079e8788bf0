import Mathlib.Data.List.TakeWhile
import Mathlib.Tactic.SplitIfs
import TizenRT.Lib.CScan

set_option autoImplicit false

/-!
The shell-pattern matcher of libc (misc/lib_match.c): `match` splits the pattern at each '|' and
tries `match_one` on every alternative. Strings are their characters, read as NUL past the end;
characters compare as unsigned, as `char` is on the ARM targets.
-/

namespace TizenRT.Match

open CScan (NUL)

def strlen (s : List Char) : Nat := (s.takeWhile (· ≠ NUL)).length

def strcspnSlash (s : List Char) : Nat := (s.takeWhile (fun c => c ≠ '/' ∧ c ≠ NUL)).length

/-- The `while (*p != ']' && *p != '\0') p++` that ends a set once a character matched, from `p`,
`r` being the pattern from `p` on. -/
def skipToClose (r : List Char) (p : Nat) : Nat :=
  p + (r.takeWhile (fun c => c ≠ ']' ∧ c ≠ NUL)).length

/-- The `while` of a set `[...]` in `match_one` for the string character `sc`, from `p`, `r`
being the pattern from `p` on: whether a character matched, and where `p` is left. Each pass
steps over `*p`, takes the next character as a candidate, and after one that starts no range
goes on from the character that follows it. -/
def setScan (sc : Char) : List Char → Nat → Bool × Nat
  | [], p => (false, p)
  | c :: r, p =>
    if c = ']' ∨ c = NUL then (false, p)
    else
      match r with
      | [] => (false, p + 1)
      | c1 :: r1 =>
        if sc = c1 then (true, skipToClose (c1 :: r1) (p + 1))
        else if c1 = NUL then (false, p + 1)
        else
          match r1 with
          | [] => (false, p + 2)
          | r1@(c2 :: r2) =>
            if c2 = '-' then
              if c1 ≤ sc ∧ sc ≤ r2.headD NUL then (true, skipToClose r2 (p + 3))
              else setScan sc r2 (p + 3)
            else setScan sc r1 (p + 2)

theorem le_setScan (sc : Char) (r : List Char) (p : Nat) : p ≤ (setScan sc r p).2 := by
  fun_induction setScan sc r p <;> (try simp only [skipToClose]) <;> omega

/-- `match_one(pattern, patlen, string)` from the pattern position `p`, `string` being the string
from its current character on. A '*' tries the rest of the pattern at every later start in the
string, the last first, up to the end of the string for '**' and to the first '/' for '*'. -/
def matchOne (pattern : List Char) (patlen p : Nat) (string : List Char) : Bool :=
  if h : p < patlen then
    let c := pattern.getD p NUL
    let sc := string.headD NUL
    if c = '?' ∧ sc ≠ NUL then matchOne pattern patlen (p + 1) string.tail
    else if c = '[' ∧ sc ≠ NUL then
      if (setScan sc (pattern.drop p) p).1 then
        matchOne pattern patlen ((setScan sc (pattern.drop p) p).2 + 1) string.tail
      else false
    else if c = '*' then
      let double := pattern.getD (p + 1) NUL = '*'
      let p' := if double then p + 2 else p + 1
      let i := if double then strlen string else strcspnSlash string
      (List.range (i + 1)).reverse.any fun j =>
        matchOne (pattern.drop p') (patlen - p') 0 (string.drop j)
    else if c ≠ sc then false
    else matchOne pattern patlen (p + 1) string.tail
  else string.headD NUL = NUL
termination_by patlen - p
decreasing_by
  all_goals first
    | omega
    | (have hle := le_setScan (string.headD NUL) (pattern.drop p) p; omega)
    | (split <;> omega)

/-- The index of the first '|' before the terminating NUL, `strchr(pattern, '|')`. -/
def strchrBar (pattern : List Char) : Option Nat :=
  if '|' ∈ pattern.takeWhile (· ≠ NUL) then some ((pattern.takeWhile (· ≠ NUL)).idxOf '|')
  else none

theorem strchrBar_lt {pattern : List Char} {k : Nat} (h : strchrBar pattern = some k) :
    k < pattern.length := by
  unfold strchrBar at h
  split at h
  · cases h
    rename_i hm
    calc (pattern.takeWhile (· ≠ NUL)).idxOf '|' < (pattern.takeWhile (· ≠ NUL)).length :=
          List.idxOf_lt_length_of_mem hm
      _ ≤ pattern.length := (List.takeWhile_sublist _).length_le
  · cases h

/-- `match`: each '|'-separated alternative in turn, the last one up to the NUL. -/
def «match» (pattern string : List Char) : Bool :=
  match h : strchrBar pattern with
  | none => matchOne pattern (strlen pattern) 0 string
  | some k => matchOne pattern k 0 string || «match» (pattern.drop (k + 1)) string
termination_by pattern.length
decreasing_by
  have := strchrBar_lt h
  simp only [List.length_drop]
  omega

theorem strlen_of_nul_not_mem {s : List Char} (h : NUL ∉ s) : strlen s = s.length := by
  rw [strlen, List.takeWhile_eq_self_iff.mpr (fun c hc => by simpa using ne_of_mem_of_not_mem hc h)]

theorem matchOne_end {pattern string : List Char} {patlen p : Nat} (hp : patlen ≤ p) :
    matchOne pattern patlen p string = decide (string.headD NUL = NUL) := by
  rw [matchOne, dif_neg (Nat.not_lt.mpr hp)]

theorem matchOne_set {pattern string : List Char} {patlen p : Nat} (hp : p < patlen)
    (hc : pattern.getD p NUL = '[') (hs : string.headD NUL ≠ NUL) :
    matchOne pattern patlen p string =
      if (setScan (string.headD NUL) (pattern.drop p) p).1 then
        matchOne pattern patlen ((setScan (string.headD NUL) (pattern.drop p) p).2 + 1)
          string.tail
      else false := by
  rw [matchOne, dif_pos hp]
  simp only [hc]
  simp only [List.headD_eq_head?_getD] at hs
  simp [hs]

theorem match_of_bar_not_mem {pattern : List Char} (h : '|' ∉ pattern) (string : List Char) :
    «match» pattern string = matchOne pattern (strlen pattern) 0 string := by
  have hbar : strchrBar pattern = none := by
    rw [strchrBar, if_neg]
    exact fun hm => h ((List.takeWhile_sublist _).subset hm)
  rw [«match»]
  split
  · rfl
  · rename_i k hk
    rw [hbar] at hk
    cases hk

theorem setScan_close (sc : Char) (rest : List Char) (p : Nat) :
    setScan sc (']' :: rest) p = (false, p) := by
  unfold setScan
  simp

def everyOther {α : Type} : List α → List α
  | [] => []
  | [a] => [a]
  | a :: _ :: l => a :: everyOther l

theorem setScan_singles (sc : Char) (cs : List Char)
    (hcs : ∀ x ∈ cs, x ≠ ']' ∧ x ≠ '-' ∧ x ≠ NUL) (hodd : cs.length % 2 = 1) :
    ∀ (c : Char), c ≠ ']' → c ≠ NUL → ∀ (rest : List Char) (p : Nat),
      (setScan sc (c :: cs ++ ']' :: rest) p).1 = decide (sc ∈ everyOther cs) := by
  induction cs using everyOther.induct with
  | case1 => simp at hodd
  | case2 c1 =>
    intro c hc hc' rest p
    have h1 := hcs c1 (by simp)
    by_cases hs : sc = c1
    · simp [setScan, hc, hc', hs, everyOther]
    · simp [setScan, hc, hc', hs, h1.2.2, everyOther, setScan_close]
  | case3 c1 c2 cs ih =>
    intro c hc hc' rest p
    have h1 := hcs c1 (by simp)
    have h2 := hcs c2 (by simp)
    have ih' := ih (fun x hx => hcs x (by simp [hx])) (by simp at hodd; omega) c2 h2.1 h2.2.2
      rest (p + 2)
    rw [List.cons_append] at ih'
    by_cases hs : sc = c1
    · simp [setScan, hc, hc', hs, everyOther]
    · simp [setScan, hc, hc', hs, h1.2.2, h2.2.1, everyOther, ih']

/-- A set fails every character it lists at an odd place among single characters, and
`[x-y]` takes ']' although ']' lies below `x`. -/
theorem match_set_wrong_members :
    (∀ cs : List Char, (∀ x ∈ cs, x ≠ ']' ∧ x ≠ '-' ∧ x ≠ '|' ∧ x ≠ NUL) →
      cs.length % 2 = 1 → ∀ sc ∈ cs, sc ∉ everyOther cs →
        «match» ('[' :: cs ++ [']']) [sc] = false) ∧
    (∀ x y : Char, ']' < x → x ≠ '|' → y ≠ ']' → y ≠ '|' → y ≠ NUL →
      «match» ['[', x, '-', y, ']'] [']'] = true) := by
  constructor
  · intro cs hcs hodd sc hsc hodd'
    have hplain := hcs sc hsc
    have hbar : '|' ∉ '[' :: cs ++ [']'] := by
      intro hm
      simp only [List.cons_append, List.mem_cons, List.mem_append] at hm
      rcases hm with h | h | h
      · exact absurd h (by decide)
      · exact (hcs _ h).2.2.1 rfl
      · exact absurd h (by decide)
    have hnul : NUL ∉ '[' :: cs ++ [']'] := by
      intro hm
      simp only [List.cons_append, List.mem_cons, List.mem_append] at hm
      rcases hm with h | h | h
      · exact absurd h (by decide)
      · exact (hcs _ h).2.2.2 rfl
      · exact absurd h (by decide)
    have hscan := setScan_singles sc cs (fun x hx => ⟨(hcs x hx).1, (hcs x hx).2.1, (hcs x hx).2.2.2⟩)
      hodd '[' (by decide) (by decide) [] 0
    rw [List.cons_append] at hscan
    rw [match_of_bar_not_mem hbar, strlen_of_nul_not_mem hnul,
      @matchOne_set _ [sc] _ _ (by simp) rfl hplain.2.2.2]
    simp [hscan, hodd']
  · intro x y hx hx' hy hy' hy''
    have hx'' : x ≠ NUL := by
      intro h
      rw [h] at hx
      exact absurd hx (by decide)
    have hbar : '|' ∉ ['[', x, '-', y, ']'] := by
      simp [hx'.symm, hy'.symm]
    have hnul : NUL ∉ ['[', x, '-', y, ']'] := by
      simp [hx''.symm, hy''.symm]
      decide
    rw [match_of_bar_not_mem hbar, strlen_of_nul_not_mem hnul,
      @matchOne_set _ [']'] _ _ (by simp) rfl (by decide)]
    have hscan : setScan ']' ['[', x, '-', y, ']'] 0 = (true, 4) := by
      have hxr : ¬ (x ≤ ']') := Char.not_le.mpr hx
      have hopen : ('[' : Char) ≠ NUL := by decide
      simp [setScan, hopen, Char.ne_of_lt hx, hx'', hxr, hy, hy'', skipToClose]
    rw [List.drop_zero, show [']'].headD NUL = ']' from rfl, hscan]
    simp [matchOne_end]

theorem match_set_wrong_members_abc :
    «match» ['[', 'a', 'b', 'c', ']'] ['b'] = false ∧ «match» ['[', 'a', '-', 'z', ']'] [']'] = true :=
  ⟨match_set_wrong_members.1 ['a', 'b', 'c']
      (by
        intro x hx
        simp only [List.mem_cons, List.not_mem_nil, or_false] at hx
        rcases hx with rfl | rfl | rfl <;> decide)
      rfl 'b' (by simp) (by decide),
    match_set_wrong_members.2 'a' 'z' (by decide) (by decide) (by decide) (by decide) (by decide)⟩

end TizenRT.Match
