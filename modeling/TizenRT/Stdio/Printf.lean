import Mathlib
import TizenRT.Stdio.Vsprintf

set_option autoImplicit false

/-!
What `lib_vsprintf` (lib_libvsprintf.c) puts out, in the build of `Vsprintf`: field widths, long
long and floating point, `long` and pointers the size of `int` (32 bits), `long long` of 64. The
integer conversions are `fixup`, then `getusize` (the length of what `utoascii` would put out),
`prejustify`, `utoascii` and `postjustify`, for `int` and for `long long`. Floating conversions go
through `lib_dtoa`, which is not modelled: the model stops there.

The arguments are the values `va_arg` takes, in order; one of the wrong kind, or one too few, is
undefined behaviour and stops the model too.
-/

namespace TizenRT.Stdio

open CScan (NUL)

structure Flags where
  showplus : Bool := false
  altform : Bool := false
  hasdot : Bool := false
  hasasteriskwidth : Bool := false
  hasasterisktrunc : Bool := false
  longprecision : Bool := false
  longlongprecision : Bool := false
  negate : Bool := false
  deriving DecidableEq, Repr

def Flags.signed (f : Flags) : Bool := f.showplus || f.negate

inductive Justify where
  | rjust
  | rjust0
  | ljust
  deriving DecidableEq, Repr

/-- The values `va_arg` takes: an `int`, a `long long`, a `char *` (NULL as `none`) or a
`double`. -/
inductive VaValue where
  | int (n : Int)
  | longlong (n : Int)
  | charp (s : Option (List Char))
  | double
  deriving DecidableEq, Repr

/-- `utodec`, `utooct`, `utobin` and their `long long` forms: the digits of `n` in base `b`,
the leading ones by recursion on the quotient. -/
def utoRadix (b : Nat) (hb : 1 < b) (n : Nat) : List Char :=
  (if n / b ≠ 0 then utoRadix b hb (n / b) else []) ++ [Char.ofNat (n % b + '0'.toNat)]
termination_by n
decreasing_by exact Nat.div_lt_self (Nat.pos_of_ne_zero (fun h => by simp_all)) hb

def utodec (n : Nat) : List Char := utoRadix 10 (by decide) n

def utooct (n : Nat) : List Char := utoRadix 8 (by decide) n

def utobin (n : Nat) : List Char := utoRadix 2 (by decide) n

theorem utodec_eq (n : Nat) :
    utodec n = (if n / 10 ≠ 0 then utodec (n / 10) else []) ++ [Char.ofNat (n % 10 + '0'.toNat)] := by
  rw [utodec, utoRadix]
  rfl

theorem toNat_digit {d : Nat} (hd : d < 10) : (Char.ofNat (d + '0'.toNat)).toNat = d + '0'.toNat := by
  rw [Char.toNat_ofNat]
  grind

theorem isDigit_digit {d : Nat} (hd : d < 10) : (Char.ofNat (d + '0'.toNat)).isDigit = true := by
  have h : ∀ d, d < 10 → (Char.ofNat (d + '0'.toNat)).isDigit = true := by decide
  exact h d hd

theorem mem_utodec {n : Nat} {c : Char} (hc : c ∈ utodec n) : ∃ d < 10, c = Char.ofNat (d + '0'.toNat) := by
  induction n using Nat.strong_induction_on with
  | _ n ih =>
    rw [utodec_eq] at hc
    rcases List.mem_append.mp hc with hc | hc
    · split at hc
      · exact ih (n / 10) (Nat.div_lt_self (by omega) (by decide)) hc
      · cases hc
    · exact ⟨n % 10,Nat.mod_lt n (by decide),List.mem_singleton.mp hc⟩

theorem isDigit_utodec (n : Nat) : ∀ c ∈ utodec n, c.isDigit = true := by
  intro c hc
  obtain ⟨d,hd,rfl⟩ := mem_utodec hc
  exact isDigit_digit hd

theorem length_utodec_pos (n : Nat) : 0 < (utodec n).length := by
  rw [utodec_eq]
  simp

theorem length_utodec_le {n k : Nat} (h : n < 10 ^ (k + 1)) : (utodec n).length ≤ k + 1 := by
  induction k generalizing n with
  | zero =>
    rw [utodec_eq, if_neg (by simp at h ⊢; omega)]
    simp
  | succ k ih =>
    rw [utodec_eq]
    split
    · have := ih (n := n / 10) (by rw [Nat.pow_succ] at h; omega)
      simp only [List.length_append, List.length_singleton]
      omega
    · simp

theorem foldl_utodec (f : Char → Nat) (hf : ∀ d < 10, f (Char.ofNat (d + '0'.toNat)) = d) (n : Nat) :
    (utodec n).foldl (fun a c => 10 * a + f c) 0 = n := by
  induction n using Nat.strong_induction_on with
  | _ n ih =>
    rw [utodec_eq, List.foldl_append, List.foldl_cons, List.foldl_nil, hf _ (Nat.mod_lt n (by decide))]
    split
    · rw [ih (n / 10) (Nat.div_lt_self (by omega) (by decide))]
      omega
    · simp only [List.foldl_nil]
      omega

/-- The nibble loop of `utohex`, `for (bits = w; bits > 0; bits -= 4)`, with `k` nibbles left:
a nibble is put out once one before it, or itself, is not zero. -/
def utohexLoop (n : Nat) (a : Char) : Nat → Bool → List Char
  | 0, _ => []
  | k + 1, nonzero =>
    let nibble := (n >>> (4 * k)) % 16
    if nibble ≠ 0 ∨ nonzero then
      (if nibble < 10 then Char.ofNat (nibble + '0'.toNat) else Char.ofNat (nibble + a.toNat - 10)) ::
        utohexLoop n a k true
    else utohexLoop n a k nonzero

/-- `utohex` (`w` = 32) and `llutohex` (`w` = 64); `a` is the letter for ten. -/
def utohexWidth (w : Nat) (n : Nat) (a : Char) : List Char :=
  let digits := utohexLoop n a (w / 4) false
  if digits = [] then ['0'] else digits

example : utohexWidth 32 0 'A' = ['0'] := by decide
example : utohexWidth 32 0xff 'A' = ['F', 'F'] := by decide

/-- `utoascii` (`w` = 32, where 'p' is hexadecimal as the pointer is an `int`) and
`llutoascii` (`w` = 64, where 'p' puts nothing out). `'#'` puts "0x" before a hexadecimal number,
whatever its value and for 'X' too, and '0' before an octal one. -/
def utoasciiWidth (w : Nat) (hexP : Bool) (fmt : Char) (flags : Flags) (n : Nat) : List Char :=
  if fmt = 'd' ∨ fmt = 'i' ∨ fmt = 'u' then utodec n
  else if fmt = 'x' ∨ fmt = 'X' ∨ (hexP ∧ fmt = 'p') then
    (if flags.altform then ['0', 'x'] else []) ++ utohexWidth w n (if fmt = 'X' then 'A' else 'a')
  else if fmt = 'o' then (if flags.altform then ['0'] else []) ++ utooct n
  else if fmt = 'b' then utobin n
  else []

def utoascii (fmt : Char) (flags : Flags) (n : Nat) : List Char := utoasciiWidth 32 true fmt flags n

def llutoascii (fmt : Char) (flags : Flags) (n : Nat) : List Char :=
  utoasciiWidth 64 false fmt flags n

def toUnsigned (w : Nat) (n : Int) : Nat := (n % 2 ^ w).toNat

/-- `-n` in `w`-bit two's complement: the most negative value is its own negation. -/
def negWrap (w : Nat) (n : Int) : Int := if n = -2 ^ (w - 1) then n else -n

/-- `fixup` (`w` = 32) and `llfixup` (`w` = 64): a negative `d` or `i` sets NEGATE, clears
SHOWPLUS and is negated; the unsigned conversions other than 'u' clear both signs. -/
def fixupWidth (w : Nat) (fmt : Char) (flags : Flags) (n : Int) : Flags × Int :=
  if fmt = 'd' ∨ fmt = 'i' then
    if n < 0 then ({ flags with negate := true, showplus := false }, negWrap w n) else (flags, n)
  else if fmt = 'p' ∨ fmt = 'x' ∨ fmt = 'X' ∨ fmt = 'o' ∨ fmt = 'b' then
    ({ flags with showplus := false, negate := false }, n)
  else (flags, n)

theorem fixupWidth_def (w : Nat) (fmt : Char) (flags : Flags) (n : Int) :
    fixupWidth w fmt flags n =
      if fmt = 'd' ∨ fmt = 'i' then
        if n < 0 then ({ flags with negate := true, showplus := false }, negWrap w n) else (flags, n)
      else if fmt = 'p' ∨ fmt = 'x' ∨ fmt = 'X' ∨ fmt = 'o' ∨ fmt = 'b' then
        ({ flags with showplus := false, negate := false }, n)
      else (flags, n) := rfl

def fixup (fmt : Char) (flags : Flags) (n : Int) : Flags × Int := fixupWidth 32 fmt flags n

def llfixup (fmt : Char) (flags : Flags) (n : Int) : Flags × Int := fixupWidth 64 fmt flags n

def signChars (flags : Flags) : List Char :=
  if flags.negate then ['-'] else if flags.showplus then ['+'] else []

/-- `prejustify`: blanks then the sign, the sign then zeros, or the sign alone. -/
def prejustify (fmt : Justify) (flags : Flags) (fieldwidth valwidth : Int) : List Char :=
  match fmt with
  | .rjust =>
    List.replicate (fieldwidth - (if flags.signed then valwidth + 1 else valwidth)).toNat ' ' ++
      signChars flags
  | .rjust0 =>
    signChars flags ++
      List.replicate (fieldwidth - (if flags.negate ∨ flags.showplus then valwidth + 1 else valwidth)).toNat
        '0'
  | .ljust => signChars flags

def postjustify (fmt : Justify) (flags : Flags) (fieldwidth valwidth : Int) : List Char :=
  match fmt with
  | .ljust => List.replicate (fieldwidth - (if flags.signed then valwidth + 1 else valwidth)).toNat ' '
  | _ => []

/-- One integer conversion of the value `n` with `w`-bit arithmetic: `fixup`, the width
`getusize` takes by putting the number out to a null stream, and the number between
`prejustify` and `postjustify`. -/
def intConversion (w : Nat) (hexP : Bool) (fmt : Justify) (flags : Flags) (width : Int)
    (conv : Char) (n : Int) : List Char :=
  let r := fixupWidth w conv flags n
  let digits := utoasciiWidth w hexP conv r.1 (toUnsigned w r.2)
  prejustify fmt r.1 width digits.length ++ digits ++ postjustify fmt r.1 width digits.length

theorem prejustify_narrow (fmt : Justify) (flags : Flags) {fw vw : Int} (h : fw ≤ vw) :
    prejustify fmt flags fw vw = signChars flags := by
  cases fmt <;> simp [prejustify] <;> split <;> omega

theorem postjustify_narrow (fmt : Justify) (flags : Flags) {fw vw : Int} (h : fw ≤ vw) :
    postjustify fmt flags fw vw = [] := by
  cases fmt with
  | ljust => simp only [postjustify, List.replicate_eq_nil_iff, Int.toNat_eq_zero]; split <;> omega
  | _ => rfl

theorem intConversion_narrow {w : Nat} {hexP : Bool} (fmt : Justify) (flags : Flags) {width : Int}
    (conv : Char) (n : Int) (h : width ≤ 0) :
    intConversion w hexP fmt flags width conv n =
      signChars (fixupWidth w conv flags n).1 ++
        utoasciiWidth w hexP conv (fixupWidth w conv flags n).1 (toUnsigned w (fixupWidth w conv flags n).2) := by
  have hw : width ≤ ((utoasciiWidth w hexP conv (fixupWidth w conv flags n).1
      (toUnsigned w (fixupWidth w conv flags n).2)).length : Int) := by omega
  simp only [intConversion, prejustify_narrow _ _ hw, postjustify_narrow _ _ hw, List.append_nil]

theorem fixupWidth_unsigned {w : Nat} {conv : Char} (flags : Flags) (n : Int)
    (hc : conv = 'p' ∨ conv = 'x' ∨ conv = 'X' ∨ conv = 'o' ∨ conv = 'b') :
    fixupWidth w conv flags n = ({ flags with showplus := false, negate := false }, n) := by
  have hd : ¬ (conv = 'd' ∨ conv = 'i') := by rcases hc with h | h | h | h | h <;> subst h <;> decide
  rw [fixupWidth_def, if_neg hd, if_pos hc]

theorem fixupWidth_u {w : Nat} (flags : Flags) (n : Int) : fixupWidth w 'u' flags n = (flags, n) := by
  simp [fixupWidth_def]

theorem fixupWidth_signed {w : Nat} {conv : Char} (flags : Flags) {n : Int} (hc : conv = 'd' ∨ conv = 'i')
    (hw : 1 ≤ w) (hlo : -2 ^ (w - 1) ≤ n) (hhi : n < 2 ^ (w - 1)) :
    (fixupWidth w conv flags n).1.negate = (decide (n < 0) || flags.negate) ∧
      toUnsigned w (fixupWidth w conv flags n).2 = n.natAbs := by
  have hpow : (2 : Int) ^ w = 2 ^ (w - 1) + 2 ^ (w - 1) := by
    obtain ⟨k, rfl⟩ : ∃ k, w = k + 1 := ⟨w - 1, by omega⟩
    simp [pow_succ]; ring
  have hpos : (0 : Int) < 2 ^ (w - 1) := by positivity
  by_cases hn : n < 0
  · refine ⟨by simp [fixupWidth_def, hc, hn], ?_⟩
    simp only [fixupWidth_def, hc, if_true, if_pos hn, negWrap, toUnsigned]
    split
    · rename_i hmin
      have hmod : (-2 ^ (w - 1) : Int) % 2 ^ w = 2 ^ (w - 1) := by
        rw [Int.emod_eq_add_self_emod, hpow,
          show -2 ^ (w - 1) + (2 ^ (w - 1) + 2 ^ (w - 1)) = (2 : Int) ^ (w - 1) by ring]
        exact Int.emod_eq_of_lt (by omega) (by omega)
      rw [hmin, hmod]; omega
    · rw [Int.emod_eq_of_lt (by omega) (by omega)]; omega
  · refine ⟨by simp [fixupWidth_def, hc, hn], ?_⟩
    simp only [fixupWidth_def, hc, if_true, if_neg hn, toUnsigned]
    rw [Int.emod_eq_of_lt (by omega) (by omega)]; omega

/-- What the qualifiers of a conversion set: `flags`, `fmt`, `width` and `trunc`. -/
structure Spec where
  flags : Flags := {}
  fmt : Justify := .rjust
  width : Int := 0
  trunc : Int := 0
  deriving DecidableEq, Repr

inductive PrintfStop where
  /-- a read of the format at index `i`, past its NUL -/
  | readPastEnd (i : Nat)
  | outOfFuel
  /-- a `va_arg` with no argument of its type left -/
  | badArg
  /-- a floating conversion, through `lib_dtoa` -/
  | floatConversion
  deriving DecidableEq, Repr

/-- The digit loop of a field width from index `i`, with the value `n` so far: the index of the
first character that is no digit, and the width. -/
def printfWidth (fmt : List Char) : Nat → Nat → Int → Except PrintfStop (Nat × Int)
  | 0, _, _ => .error .outOfFuel
  | fuel + 1, i, n =>
    match fmtChar fmt i with
    | none => .error (.readPastEnd i)
    | some c =>
      if '0' ≤ c ∧ c ≤ '9' then printfWidth fmt fuel (i + 1) (10 * n + (c.toNat - '0'.toNat))
      else .ok (i, n)

/-- The qualifier loop from index `i`: where it stops, what it set, and the arguments left. -/
def printfQualifiers (fmt : List Char) :
    Nat → Nat → Spec → List VaValue → Except PrintfStop (Nat × Spec × List VaValue)
  | 0, _, _, _ => .error .outOfFuel
  | fuel + 1, i, sp, args =>
    match fmtChar fmt i with
    | none => .error (.readPastEnd i)
    | some c =>
      if c = NUL then .ok (i, sp, args)
      else if strchr convChars c then .ok (i, sp, args)
      else if c = '-' then printfQualifiers fmt fuel (i + 1) { sp with fmt := .ljust } args
      else if c = '0' then printfQualifiers fmt fuel (i + 1) { sp with fmt := .rjust0 } args
      else if c = '*' then
        match args with
        | .int v :: args =>
          if sp.flags.hasdot then
            printfQualifiers fmt fuel (i + 1)
              { sp with trunc := v, flags := { sp.flags with hasasterisktrunc := true } } args
          else
            printfQualifiers fmt fuel (i + 1)
              { sp with width := v, flags := { sp.flags with hasasteriskwidth := true } } args
        | _ => .error .badArg
      else if '1' ≤ c ∧ c ≤ '9' then
        match printfWidth fmt fuel (i + 1) (c.toNat - '0'.toNat) with
        | .error e => .error e
        | .ok (j, n) =>
          printfQualifiers fmt fuel (j - 1 + 1)
            (if sp.flags.hasdot then { sp with trunc := n } else { sp with width := n }) args
      else if c = '.' then
        printfQualifiers fmt fuel (i + 1) { sp with flags := { sp.flags with hasdot := true } } args
      else if c = '+' then
        printfQualifiers fmt fuel (i + 1) { sp with flags := { sp.flags with showplus := true } } args
      else if c = '#' then
        printfQualifiers fmt fuel (i + 1) { sp with flags := { sp.flags with altform := true } } args
      else printfQualifiers fmt fuel (i + 1) sp args

theorem printfQualifiers_succ (fmt : List Char) (fuel i : Nat) (sp : Spec) (args : List VaValue) :
    printfQualifiers fmt (fuel + 1) i sp args =
      match fmtChar fmt i with
      | none => .error (.readPastEnd i)
      | some c =>
        if c = NUL then .ok (i, sp, args)
        else if strchr convChars c then .ok (i, sp, args)
        else if c = '-' then printfQualifiers fmt fuel (i + 1) { sp with fmt := .ljust } args
        else if c = '0' then printfQualifiers fmt fuel (i + 1) { sp with fmt := .rjust0 } args
        else if c = '*' then
          match args with
          | .int v :: args =>
            if sp.flags.hasdot then
              printfQualifiers fmt fuel (i + 1)
                { sp with trunc := v, flags := { sp.flags with hasasterisktrunc := true } } args
            else
              printfQualifiers fmt fuel (i + 1)
                { sp with width := v, flags := { sp.flags with hasasteriskwidth := true } } args
          | _ => .error .badArg
        else if '1' ≤ c ∧ c ≤ '9' then
          match printfWidth fmt fuel (i + 1) (c.toNat - '0'.toNat) with
          | .error e => .error e
          | .ok (j, n) =>
            printfQualifiers fmt fuel (j - 1 + 1)
              (if sp.flags.hasdot then { sp with trunc := n } else { sp with width := n }) args
        else if c = '.' then
          printfQualifiers fmt fuel (i + 1) { sp with flags := { sp.flags with hasdot := true } } args
        else if c = '+' then
          printfQualifiers fmt fuel (i + 1) { sp with flags := { sp.flags with showplus := true } } args
        else if c = '#' then
          printfQualifiers fmt fuel (i + 1) { sp with flags := { sp.flags with altform := true } } args
        else printfQualifiers fmt fuel (i + 1) sp args := rfl

def nullString : List Char := "(null)".toList

/-- The length modifiers at index `i`, where the format has `c`: the index of the conversion
character, and the flags with `longprecision` and `longlongprecision` set as they say. -/
def printfModifier (fmt : List Char) (i : Nat) (flags : Flags) (c : Char) :
    Except PrintfStop (Nat × Flags) :=
  if c = 'L' then .ok (i + 1, { flags with longlongprecision := true })
  else if c = 'l' then
    match fmtChar fmt (i + 1) with
    | none => .error (.readPastEnd (i + 1))
    | some c' =>
      if c' = 'l' then .ok (i + 2, { flags with longprecision := true, longlongprecision := true })
      else .ok (i + 1, { flags with longprecision := true })
  else .ok (i, flags)

/-- The integer and floating conversions at index `i`, after the length modifiers: an integer
conversion takes a `long long` after `ll` or `L`, except for 'p', and an `int` otherwise. -/
def printfConvChar (fmt : List Char) (i : Nat) (sp : Spec) (flags : Flags) (args : List VaValue) :
    Except PrintfStop (Nat × List Char × List VaValue) :=
  match fmtChar fmt i with
  | none => .error (.readPastEnd i)
  | some c =>
    if strchr ['d', 'i', 'u', 'x', 'X', 'p', 'o', 'b'] c then
      if flags.longlongprecision ∧ c ≠ 'p' then
        match args with
        | .longlong n :: args => .ok (i, intConversion 64 false sp.fmt flags sp.width c n, args)
        | _ => .error .badArg
      else
        match args with
        | .int n :: args => .ok (i, intConversion 32 true sp.fmt flags sp.width c n, args)
        | _ => .error .badArg
    else if strchr ['e', 'E', 'f', 'g', 'G'] c then .error .floatConversion
    else .ok (i, [], args)

/-- The conversion at index `i`, after the qualifiers: where `FMT_CHAR` is left, what is put out,
and the arguments left. `%s` is justified with no flags. -/
def printfConversion (fmt : List Char) (i : Nat) (sp : Spec) (args : List VaValue) :
    Except PrintfStop (Nat × List Char × List VaValue) :=
  match fmtChar fmt i with
  | none => .error (.readPastEnd i)
  | some c =>
    if c = '%' then .ok (i, ['%'], args)
    else if c = 's' then
      match args with
      | .charp p :: args =>
        let str := (p.getD nullString).takeWhile (· ≠ NUL)
        .ok (i, prejustify sp.fmt {} sp.width str.length ++ str ++
          postjustify sp.fmt {} sp.width str.length, args)
      | _ => .error .badArg
    else if c = 'c' then
      match args with
      | .int n :: args => .ok (i, [Char.ofNat (n % 256).toNat], args)
      | _ => .error .badArg
    else
      match printfModifier fmt i sp.flags c with
      | .error e => .error e
      | .ok (i, flags) => printfConvChar fmt i sp flags args

/-- The outer loop from index `i`, with what has been put out so far. -/
def printfLoop (fmt : List Char) :
    Nat → Nat → List VaValue → List Char → Except PrintfStop (List Char)
  | 0, _, _, _ => .error .outOfFuel
  | fuel + 1, i, args, out =>
    match fmtChar fmt i with
    | none => .error (.readPastEnd i)
    | some c =>
      if c = NUL then .ok out
      else if c ≠ '%' then printfLoop fmt fuel (i + 1) args (out ++ [c])
      else
        match printfQualifiers fmt fuel (i + 1) {} args with
        | .error e => .error e
        | .ok (j, sp, args) =>
          match printfConversion fmt j sp args with
          | .error e => .error e
          | .ok (k, s, args) => printfLoop fmt fuel (k + 1) args (out ++ s)

theorem printfLoop_succ (fmt : List Char) (fuel i : Nat) (args : List VaValue) (out : List Char) :
    printfLoop fmt (fuel + 1) i args out =
      match fmtChar fmt i with
      | none => .error (.readPastEnd i)
      | some c =>
        if c = NUL then .ok out
        else if c ≠ '%' then printfLoop fmt fuel (i + 1) args (out ++ [c])
        else
          match printfQualifiers fmt fuel (i + 1) {} args with
          | .error e => .error e
          | .ok (j, sp, args) =>
            match printfConversion fmt j sp args with
            | .error e => .error e
            | .ok (k, s, args) => printfLoop fmt fuel (k + 1) args (out ++ s) := rfl

/-- What `lib_vsprintf` puts out for `fmt` and the arguments `args`; it returns the count,
`obj->nput`, of a stream that starts empty. -/
def libVsprintfOut (fmt : List Char) (args : List VaValue) : Except PrintfStop (List Char) :=
  printfLoop fmt (fmt.length + 2) 0 args []

section Steps

variable {fmt : List Char} {fuel i : Nat} {args : List VaValue}

theorem printfLoop_nul {out : List Char} (h : fmtChar fmt i = some NUL) :
    printfLoop fmt (fuel + 1) i args out = .ok out := by
  simp [printfLoop_succ, h]

theorem printfLoop_literal {out : List Char} {c : Char} (h : fmtChar fmt i = some c) (hc : c ≠ NUL)
    (hp : c ≠ '%') : printfLoop fmt (fuel + 1) i args out = printfLoop fmt fuel (i + 1) args (out ++ [c]) := by
  simp [printfLoop_succ, h, hc, hp]

theorem printfLoop_conversion {out s : List Char} {j k : Nat} {sp : Spec} {args' args'' : List VaValue}
    (h : fmtChar fmt i = some '%') (hq : printfQualifiers fmt fuel (i + 1) {} args = .ok (j, sp, args'))
    (hc : printfConversion fmt j sp args' = .ok (k, s, args'')) :
    printfLoop fmt (fuel + 1) i args out = printfLoop fmt fuel (k + 1) args'' (out ++ s) := by
  have hn : ('%' : Char) ≠ NUL := by decide
  simp [printfLoop_succ, h, hn, hq, hc]

theorem printfQualifiers_stop {sp : Spec} {c : Char} (h : fmtChar fmt i = some c) (hc : strchr convChars c) :
    printfQualifiers fmt (fuel + 1) i sp args = .ok (i, sp, args) := by
  by_cases hn : c = NUL
  · simp [printfQualifiers_succ, h, hn]
  · simp [printfQualifiers_succ, h, hn, hc]

theorem printfQualifiers_altform {sp : Spec} (h : fmtChar fmt i = some '#') :
    printfQualifiers fmt (fuel + 1) i sp args =
      printfQualifiers fmt fuel (i + 1) { sp with flags := { sp.flags with altform := true } } args := by
  simp [printfQualifiers_succ, h, strchr, convChars, NUL]

theorem printfQualifiers_showplus {sp : Spec} (h : fmtChar fmt i = some '+') :
    printfQualifiers fmt (fuel + 1) i sp args =
      printfQualifiers fmt fuel (i + 1) { sp with flags := { sp.flags with showplus := true } } args := by
  simp [printfQualifiers_succ, h, strchr, convChars, NUL]

theorem printfConversion_int {sp : Spec} {c : Char} {n : Int} (h : fmtChar fmt i = some c)
    (hc : c ∈ ['d', 'i', 'u', 'x', 'X', 'p', 'o', 'b']) (hl : sp.flags.longlongprecision = false) :
    printfConversion fmt i sp (.int n :: args) =
      .ok (i, intConversion 32 true sp.fmt sp.flags sp.width c n, args) := by
  simp only [List.mem_cons, List.not_mem_nil, or_false] at hc
  rcases hc with rfl | rfl | rfl | rfl | rfl | rfl | rfl | rfl <;>
    simp [printfConversion, printfModifier, printfConvChar, h, strchr, hl]

end Steps

theorem intConversion_d {n : Int} (hlo : -2 ^ 31 ≤ n) (hhi : n < 2 ^ 31) :
    intConversion 32 true .rjust {} 0 'd' n = (if n < 0 then ['-'] else []) ++ utodec n.natAbs := by
  obtain ⟨-, hval⟩ := fixupWidth_signed (w := 32) {} (Or.inl rfl) (by norm_num) hlo hhi
  have hsign : signChars (fixupWidth 32 'd' {} n).1 = if n < 0 then ['-'] else [] := by
    by_cases hn : n < 0 <;> simp [fixupWidth_def, signChars, hn]
  rw [intConversion_narrow _ _ _ _ le_rfl, hsign, hval]
  simp [utoasciiWidth]

theorem printfLoop_d {fmt : List Char} {fuel i : Nat} {n : Int} {args : List VaValue} {out : List Char}
    (h : fmtChar fmt i = some '%') (hd : fmtChar fmt (i + 1) = some 'd') (hlo : -2 ^ 31 ≤ n)
    (hhi : n < 2 ^ 31) :
    printfLoop fmt (fuel + 2) i (.int n :: args) out =
      printfLoop fmt (fuel + 1) (i + 2) args (out ++ ((if n < 0 then ['-'] else []) ++ utodec n.natAbs)) := by
  have hq : printfQualifiers fmt (fuel + 1) (i + 1) {} (.int n :: args) = .ok (i + 1, {}, .int n :: args) :=
    printfQualifiers_stop hd (by decide)
  have hc : printfConversion fmt (i + 1) {} (.int n :: args) =
      .ok (i + 1, intConversion 32 true .rjust {} 0 'd' n, args) := printfConversion_int hd (by decide) rfl
  rw [printfLoop_conversion h hq hc, intConversion_d hlo hhi]

theorem libVsprintfOut_d (n : Int) (hlo : -2 ^ 31 ≤ n) (hhi : n < 2 ^ 31) :
    libVsprintfOut ['%', 'd'] [.int n] = .ok ((if n < 0 then ['-'] else []) ++ utodec n.natAbs) := by
  rw [libVsprintfOut, show ['%', 'd'].length + 2 = 2 + 2 from rfl, printfLoop_d rfl rfl hlo hhi,
    printfLoop_nul rfl, List.nil_append]

/-- '#' puts "0x" before a hexadecimal number whatever its value, zero included and with a
lower-case 'x' for 'X' too; and '+' puts a sign before the unsigned conversion 'u'. -/
theorem libVsprintfOut_altform_hex_and_plus_u :
    (∀ n : Int, libVsprintfOut ['%', '#', 'X'] [.int n] =
        .ok ('0' :: 'x' :: utohexWidth 32 (toUnsigned 32 n) 'A')) ∧
      ∀ n : Int, libVsprintfOut ['%', '+', 'u'] [.int n] = .ok ('+' :: utodec (toUnsigned 32 n)) := by
  constructor
  · intro n
    have hq : printfQualifiers ['%', '#', 'X'] 4 1 {} [.int n] =
        .ok (2, { flags := { altform := true } }, [.int n]) := by
      rw [printfQualifiers_altform rfl, printfQualifiers_stop rfl (by decide)]
    have hc : printfConversion ['%', '#', 'X'] 2 { flags := { altform := true } } [.int n] =
        .ok (2, intConversion 32 true .rjust { altform := true } 0 'X' n, []) :=
      printfConversion_int rfl (by decide) rfl
    rw [libVsprintfOut, show ['%', '#', 'X'].length + 2 = 4 + 1 from rfl, printfLoop_conversion rfl hq hc,
      printfLoop_nul rfl, intConversion_narrow _ _ _ _ le_rfl, fixupWidth_unsigned _ _ (by decide)]
    simp [utoasciiWidth, signChars]
  · intro n
    have hq : printfQualifiers ['%', '+', 'u'] 4 1 {} [.int n] =
        .ok (2, { flags := { showplus := true } }, [.int n]) := by
      rw [printfQualifiers_showplus rfl, printfQualifiers_stop rfl (by decide)]
    have hc : printfConversion ['%', '+', 'u'] 2 { flags := { showplus := true } } [.int n] =
        .ok (2, intConversion 32 true .rjust { showplus := true } 0 'u' n, []) :=
      printfConversion_int rfl (by decide) rfl
    rw [libVsprintfOut, show ['%', '+', 'u'].length + 2 = 4 + 1 from rfl, printfLoop_conversion rfl hq hc,
      printfLoop_nul rfl, intConversion_narrow _ _ _ _ le_rfl, fixupWidth_u]
    simp [utoasciiWidth, signChars]

end TizenRT.Stdio
