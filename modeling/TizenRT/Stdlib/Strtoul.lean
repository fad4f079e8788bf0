import Mathlib
import TizenRT.Lib.CScan

set_option autoImplicit false

/-!
The integer parsers of libc (stdlib/lib_strtoul.c, lib_strtoull.c, lib_strtol.c, lib_strtoll.c)
and their helpers `lib_skipspace`, `lib_checkbase` and `lib_isbasedigit`. A string is its
characters, read as NUL past the end; a pointer into it is an offset. `unsigned long` has
32 bits on the targets and `unsigned long long` 64: the accumulator wraps at `2 ^ w`.
-/

namespace TizenRT.Stdlib

open CScan (NUL)

def isspace (c : Char) : Bool :=
  c = ' ' || c = '\t' || c = '\n' || c = '\r' || c = '\x0c' || c = '\x0b'

/-- `lib_skipspace`: the offset of the first character that is not white space. -/
def libSkipspace (s : List Char) : Nat := (s.takeWhile isspace).length

/-- `lib_isbasedigit`: the value of `ch` as a digit of `base`, if it is one. -/
def libIsbasedigit (ch : Char) (base : Int) : Option Nat :=
  if base ≤ 10 then
    if '0'.toNat ≤ ch.toNat ∧ (ch.toNat : Int) ≤ base + '0'.toNat - 1 then some (ch.toNat - '0'.toNat)
    else none
  else if base ≤ 36 then
    if '0' ≤ ch ∧ ch ≤ '9' then some (ch.toNat - '0'.toNat)
    else if 'a'.toNat ≤ ch.toNat ∧ (ch.toNat : Int) ≤ 'a'.toNat + base - 11 then
      some (ch.toNat - 'a'.toNat + 10)
    else if 'A'.toNat ≤ ch.toNat ∧ (ch.toNat : Int) ≤ 'A'.toNat + base - 11 then
      some (ch.toNat - 'A'.toNat + 10)
    else none
  else none

/-- `lib_checkbase` at the offset `ptr`: the base, 0 giving 10, or 8 after a '0', or 16 after a
"0x" followed by a hex digit; and the offset past the prefix. For base 16 a "0x" is skipped
whatever follows it. -/
def libCheckbase (base : Int) (s : List Char) (ptr : Nat) : Int × Nat :=
  if base = 0 then
    if s.getD ptr NUL = '0' then
      if (s.getD (ptr + 1) NUL = 'X' ∨ s.getD (ptr + 1) NUL = 'x') ∧
          (libIsbasedigit (s.getD (ptr + 2) NUL) 16).isSome then (16, ptr + 2)
      else (8, ptr + 1)
    else (10, ptr)
  else if base = 16 then
    if s.getD ptr NUL = '0' ∧ (s.getD (ptr + 1) NUL = 'X' ∨ s.getD (ptr + 1) NUL = 'x') then
      (16, ptr + 2)
    else (16, ptr)
  else (base, ptr)

/-- The digit loop of `strtoul`, from the accumulator `accum`: the value it ends with and the
number of digits it reads. -/
def accumulate (w : Nat) (base : Int) : List Char → Nat → Nat × Nat
  | [], accum => (accum, 0)
  | c :: cs, accum =>
    match libIsbasedigit c base with
    | some value =>
      let r := accumulate w base cs ((accum * base.toNat + value) % 2 ^ w)
      (r.1, r.2 + 1)
    | none => (accum, 0)

/-- `strtoul` with a `w`-bit `unsigned long`: the value and the offset `*endptr` is set to. -/
def strtoulWidth (w : Nat) (nptr : List Char) (base : Int) : Nat × Nat :=
  let (base, p) := libCheckbase base nptr (libSkipspace nptr)
  let r := accumulate w base (nptr.drop p) 0
  (r.1, p + r.2)

def strtoul (nptr : List Char) (base : Int) : Nat × Nat := strtoulWidth 32 nptr base

def strtoull (nptr : List Char) (base : Int) : Nat × Nat := strtoulWidth 64 nptr base

/-- The `w`-bit two's complement value of `x < 2 ^ w`, the cast `(long)accum`. -/
def toSigned (w x : Nat) : Int := if x < 2 ^ (w - 1) then x else (x : Int) - 2 ^ w

/-- `strtol` over `strtoul`, with `w`-bit longs: after the white space an optional sign, then
`strtoul` on the rest, which skips white space again; `-(long)accum` wraps. -/
def strtolWidth (w : Nat) (nptr : List Char) (base : Int) : Int × Nat :=
  let p := libSkipspace nptr
  let c := nptr.getD p NUL
  let negate := c = '-'
  let p := if c = '-' ∨ c = '+' then p + 1 else p
  let r := strtoulWidth w (nptr.drop p) base
  (if negate then toSigned w ((2 ^ w - r.1) % 2 ^ w) else toSigned w r.1, p + r.2)

def strtol (nptr : List Char) (base : Int) : Int × Nat := strtolWidth 32 nptr base

def strtoll (nptr : List Char) (base : Int) : Int × Nat := strtolWidth 64 nptr base

section Accumulate

variable {w : Nat} {base : Int}

theorem accumulate_stop {r : List Char} (hr : libIsbasedigit (r.headD NUL) base = none)
    (accum : Nat) : accumulate w base r accum = (accum, 0) := by
  cases r with
  | nil => rfl
  | cons c cs =>
    simp only [List.headD_cons] at hr
    simp [accumulate, hr]

theorem accumulate_digits (ds : List Char) (hds : ∀ c ∈ ds, (libIsbasedigit c base).isSome)
    {r : List Char} (hr : libIsbasedigit (r.headD NUL) base = none) (accum : Nat) :
    accumulate w base (ds ++ r) accum =
      (ds.foldl (fun a c => (a * base.toNat + (libIsbasedigit c base).getD 0) % 2 ^ w) accum,
        ds.length) := by
  induction ds generalizing accum with
  | nil => exact accumulate_stop hr accum
  | cons c ds ih =>
    obtain ⟨v, hv⟩ := Option.isSome_iff_exists.mp (hds c (by simp))
    have ih' := ih (fun x hx => hds x (by simp [hx])) ((accum * base.toNat + v) % 2 ^ w)
    simp [accumulate, hv, ih']

theorem foldl_mod (f : Char → Nat) (b : Nat) (ds : List Char) (accum : Nat) :
    ds.foldl (fun a c => (a * b + f c) % 2 ^ w) (accum % 2 ^ w) =
      ds.foldl (fun a c => a * b + f c) accum % 2 ^ w := by
  induction ds generalizing accum with
  | nil => rfl
  | cons c ds ih =>
    simp only [List.foldl_cons]
    rw [← ih, Nat.add_mod, Nat.mul_mod, Nat.mod_mod, ← Nat.mul_mod, ← Nat.add_mod]

end Accumulate

theorem getD_append_length (ws r : List Char) (k : Nat) :
    (ws ++ r).getD (ws.length + k) NUL = r.getD k NUL := by
  simp [List.getD_eq_getElem?_getD, List.getElem?_append_right]

theorem libSkipspace_append {ws r : List Char} (hws : ∀ c ∈ ws, isspace c = true)
    (hr : isspace (r.headD NUL) = false) : libSkipspace (ws ++ r) = ws.length := by
  rw [libSkipspace, List.takeWhile_append_of_pos hws]
  cases r with
  | nil => simp
  | cons c cs =>
    simp only [List.headD_cons] at hr
    simp [hr]

theorem libCheckbase_of_ne_zero {base : Int} {s : List Char} {ptr : Nat}
    (h0 : s.getD ptr NUL ≠ '0') :
    libCheckbase base s ptr = (if base = 0 then 10 else base, ptr) := by
  unfold libCheckbase
  by_cases hb : base = 0
  · rw [if_pos hb, if_neg h0, if_pos hb]
  · rw [if_neg hb, if_neg hb]
    by_cases h16 : base = 16
    · rw [if_pos h16, if_neg (fun h => h0 h.1), h16]
    · rw [if_neg h16]

theorem isspace_eq_false_of_digit {c : Char} {base : Int} {v : Nat}
    (h : libIsbasedigit c base = some v) : isspace c = false := by
  by_contra hs
  simp only [isspace, Bool.not_eq_false, Bool.or_eq_true, decide_eq_true_eq] at hs
  rcases hs with ((((rfl | rfl) | rfl) | rfl) | rfl) | rfl <;> simp [libIsbasedigit] at h

theorem strtoulWidth_digits {w : Nat} {base : Int} (hb : 2 ≤ base ∧ base ≤ 36) (h16 : base ≠ 16)
    {ws ds r : List Char} (hws : ∀ c ∈ ws, isspace c = true)
    (hds : ∀ c ∈ ds, (libIsbasedigit c base).isSome) (hne : ds ≠ [])
    (hr : libIsbasedigit (r.headD NUL) base = none) :
    strtoulWidth w (ws ++ ds ++ r) base =
      (ds.foldl (fun a c => a * base.toNat + (libIsbasedigit c base).getD 0) 0 % 2 ^ w,
        ws.length + ds.length) := by
  obtain ⟨c, cs, rfl⟩ := List.exists_cons_of_ne_nil hne
  obtain ⟨v, hv⟩ := Option.isSome_iff_exists.mp (hds c (by simp))
  have hskip : libSkipspace (ws ++ (c :: cs ++ r)) = ws.length :=
    libSkipspace_append hws (by simpa using isspace_eq_false_of_digit hv)
  have hcheck : libCheckbase base (ws ++ (c :: cs ++ r)) ws.length = (base, ws.length) := by
    rw [libCheckbase, if_neg (by omega), if_neg h16]
  have hfold := foldl_mod (w := w) (fun c => (libIsbasedigit c base).getD 0) base.toNat
    (c :: cs) 0
  rw [Nat.zero_mod] at hfold
  rw [List.append_assoc, strtoulWidth, hskip, hcheck]
  simp only [List.drop_left, accumulate_digits (c :: cs) hds hr, hfold]

theorem strtoulWidth_ten_pos {w : Nat} {s : List Char} {v : Nat}
    (h : libIsbasedigit (s.headD NUL) 10 = some v) : 0 < (strtoulWidth w s 10).2 := by
  cases s with
  | nil => simp [libIsbasedigit, NUL] at h
  | cons c cs =>
    simp only [List.headD_cons] at h
    have hskip : libSkipspace (c :: cs) = 0 := by
      simp [libSkipspace, isspace_eq_false_of_digit h]
    have hcheck : libCheckbase 10 (c :: cs) 0 = (10, 0) := by
      rw [libCheckbase, if_neg (by decide), if_neg (by decide)]
    simp [strtoulWidth, hskip, hcheck, accumulate, h]

theorem strtolWidth_ten_pos {w : Nat} {s : List Char}
    (h : (libIsbasedigit (s.headD NUL) 10).isSome ∨
      (s.headD NUL = '-' ∧ (libIsbasedigit (s.getD 1 NUL) 10).isSome)) :
    0 < (strtolWidth w s 10).2 := by
  cases s with
  | nil => simp [libIsbasedigit, NUL] at h
  | cons c cs =>
    simp only [List.headD_cons] at h
    rcases h with h | ⟨rfl, h⟩
    · obtain ⟨v, hv⟩ := Option.isSome_iff_exists.mp h
      have hskip : libSkipspace (c :: cs) = 0 := by
        simp [libSkipspace, isspace_eq_false_of_digit hv]
      have hsign : ¬ (c = '-' ∨ c = '+') := by
        rintro (rfl | rfl) <;> simp [libIsbasedigit] at hv
      have := strtoulWidth_ten_pos (w := w) (s := c :: cs) hv
      simp only [strtolWidth, hskip, List.getD_cons_zero, if_neg hsign, List.drop_zero]
      omega
    · have hskip : libSkipspace ('-' :: cs) = 0 := by
        simp [libSkipspace, isspace]
      simp only [strtolWidth, hskip, List.getD_cons_zero, true_or, if_true]
      omega

/-- With no subject sequence `*endptr` is left past the white space, and for base 16 a "0x"
that no hex digit follows is skipped, so `*endptr` is past the 'x' and not past the '0'. -/
theorem strtoul_endptr_misplaced :
    (∀ (w : Nat) (base : Int) (ws r : List Char), (∀ c ∈ ws, isspace c = true) →
      isspace (r.headD NUL) = false → r.headD NUL ≠ '0' →
      libIsbasedigit (r.headD NUL) (if base = 0 then 10 else base) = none →
      strtoulWidth w (ws ++ r) base = (0, ws.length)) ∧
    (∀ (w : Nat) (x : Char) (r : List Char), (x = 'x' ∨ x = 'X') →
      libIsbasedigit (r.headD NUL) 16 = none →
      strtoulWidth w ('0' :: x :: r) 16 = (0, 2)) := by
  constructor
  · intro w base ws r hws hsp h0 hd
    have hhead : (ws ++ r).getD ws.length NUL ≠ '0' := by
      rw [← Nat.add_zero ws.length, getD_append_length]
      cases r <;> simpa using h0
    simp only [strtoulWidth, libSkipspace_append hws hsp, libCheckbase_of_ne_zero hhead,
      List.drop_left, accumulate_stop hd, Nat.add_zero]
  · intro w x r hx hd
    have hskip : libSkipspace ('0' :: x :: r) = 0 := by
      simp [libSkipspace, isspace]
    have hcheck : libCheckbase 16 ('0' :: x :: r) 0 = (16, 2) := by
      rcases hx with rfl | rfl <;> simp [libCheckbase]
    simp only [strtoulWidth, hskip, hcheck, List.drop_succ_cons, List.drop_zero,
      accumulate_stop hd]

theorem strtoul_endptr_misplaced_examples :
    strtoul [' ', ' ', 'z'] 10 = (0, 2) ∧ strtoul ['0', 'x', 'g'] 16 = (0, 2) :=
  ⟨strtoul_endptr_misplaced.1 32 10 [' ', ' '] ['z']
      (by
        intro c hc
        simp only [List.mem_cons, List.not_mem_nil, or_false, or_self] at hc
        rw [hc]
        rfl)
      (by decide) (by decide) (by decide),
    strtoul_endptr_misplaced.2 32 'x' ['g'] (Or.inl rfl) (by decide)⟩

end TizenRT.Stdlib
