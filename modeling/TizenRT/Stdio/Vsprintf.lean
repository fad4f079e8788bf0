import TizenRT.Lib.CScan

set_option autoImplicit false

/-!
The scan of the format string by `lib_vsprintf` (lib_libvsprintf.c), built with field widths, long
long and floating point, and with `long` and pointers the size of `int`; the format is read through
`FMT_CHAR` as a plain pointer. What it does with each character is kept as the list of characters
put out as they are and of the `va_arg`s taken, each with the conversion character it is taken for;
the conversion of the values (`utoascii`, `lib_dtoa`, the justification) is not modelled, nor are
the flags and widths that only feed it.

The format is its characters followed by its NUL; a read past the NUL is not followed further: the
scan stops there with the index read and what it had done. Each loop is given fuel; a loop that runs
out of it stops too. `strchr` finds the terminating NUL of the set it searches, so a NUL met where a
conversion character is expected is taken as an integer conversion: its `va_arg` is taken and the
outer loop then steps past the NUL.
-/

namespace TizenRT.Stdio

open CScan (NUL)

/-- The format string at index `i`: its characters, then the NUL; `none` past the NUL. -/
def fmtChar (fmt : List Char) (i : Nat) : Option Char := (fmt ++ [NUL])[i]?

/-- `strchr(s, ch) != NULL`: `ch` is in `s` or is the NUL that ends it. -/
def strchr (s : List Char) (ch : Char) : Bool := ch = NUL || s.contains ch

inductive VaArg where
  | int
  | longlong
  | double
  | charp
  deriving DecidableEq, Repr

/-- What the scan does: put a character out as it is, or take a `va_arg` for a conversion
character (`*` for a width or precision taken from the arguments). -/
inductive PrintfEvent where
  | put (c : Char)
  | arg (t : VaArg) (conv : Char)
  deriving DecidableEq, Repr

inductive VsprintfStop where
  /-- a read of the format at index `i`, past its NUL, after the events `ev` -/
  | readPastEnd (i : Nat) (ev : List PrintfEvent)
  | outOfFuel
  deriving DecidableEq, Repr

/-- The loop over the digits of a field width, `for (;;) { FMT_NEXT; if (digit) ... else break; }`
from the index after the first digit: the index of the first character that is not a digit. -/
def vsprintfWidth (fmt : List Char) (ev : List PrintfEvent) : Nat → Nat → Except VsprintfStop Nat
  | 0, _ => .error .outOfFuel
  | fuel + 1, i =>
    match fmtChar fmt i with
    | none => .error (.readPastEnd i ev)
    | some c => if '0' ≤ c ∧ c ≤ '9' then vsprintfWidth fmt ev fuel (i + 1) else .ok i

/-- The conversion characters that end the qualifiers, `"diuxXpobeEfgGlLsc%"`. -/
def convChars : List Char := ['d','i','u','x','X','p','o','b','e','E','f','g','G','l','L','s','c','%']

/-- The inner `for (; FMT_CHAR; FMT_BOTTOM)` over the qualifiers from index `i`: the index where it
stops, at a conversion character or the NUL. `*` takes an `int`; a width is read to its last digit
(`FMT_PREV` after the digit loop); `-`, `0`, `.`, `+`, `#` and any other character go on. -/
def vsprintfQualifiers (fmt : List Char) : Nat → Nat → List PrintfEvent → Except VsprintfStop (Nat × List PrintfEvent)
  | 0, _, _ => .error .outOfFuel
  | fuel + 1, i, ev =>
    match fmtChar fmt i with
    | none => .error (.readPastEnd i ev)
    | some c =>
      if c = NUL then .ok (i,ev)
      else if strchr convChars c then .ok (i,ev)
      else if c = '*' then vsprintfQualifiers fmt fuel (i + 1) (ev ++ [.arg .int '*'])
      else if '1' ≤ c ∧ c ≤ '9' then
        match vsprintfWidth fmt ev fuel (i + 1) with
        | .error e => .error e
        | .ok j => vsprintfQualifiers fmt fuel (j - 1 + 1) ev
      else vsprintfQualifiers fmt fuel (i + 1) ev

/-- The length modifiers `L`, `l` and `ll` at index `i`, where the format has `c`: the index of the
conversion character, and whether it takes a `long long`. -/
def vsprintfModifier (fmt : List Char) (i : Nat) (ev : List PrintfEvent) (c : Char) :
    Except VsprintfStop (Nat × Bool) :=
  if c = 'L' then .ok (i + 1,true)
  else if c = 'l' then
    match fmtChar fmt (i + 1) with
    | none => .error (.readPastEnd (i + 1) ev)
    | some c' => if c' = 'l' then .ok (i + 2,true) else .ok (i + 1,false)
  else .ok (i,false)

/-- The integer and floating conversions at index `i`, after the length modifiers. -/
def vsprintfConvChar (fmt : List Char) (i : Nat) (longlong : Bool) (ev : List PrintfEvent) :
    Except VsprintfStop (Nat × List PrintfEvent) :=
  match fmtChar fmt i with
  | none => .error (.readPastEnd i ev)
  | some c =>
    if strchr ['d','i','u','x','X','p','o','b'] c then
      .ok (i,ev ++ [.arg (if longlong ∧ c ≠ 'p' then .longlong else .int) c])
    else if strchr ['e','E','f','g','G'] c then .ok (i,ev ++ [.arg .double c])
    else .ok (i,ev)

/-- The body of the outer loop after the qualifiers, at index `i`: `%%`, `%s`, `%c`, the length
modifiers, then the integer and floating conversions. The index returned is where `FMT_CHAR` stands
at the end of the body. -/
def vsprintfConversion (fmt : List Char) (i : Nat) (ev : List PrintfEvent) :
    Except VsprintfStop (Nat × List PrintfEvent) :=
  match fmtChar fmt i with
  | none => .error (.readPastEnd i ev)
  | some c =>
    if c = '%' then .ok (i,ev ++ [.put '%'])
    else if c = 's' then .ok (i,ev ++ [.arg .charp 's'])
    else if c = 'c' then .ok (i,ev ++ [.arg .int 'c'])
    else
      match vsprintfModifier fmt i ev c with
      | .error e => .error e
      | .ok (i,longlong) => vsprintfConvChar fmt i longlong ev

/-- The outer `for (FMT_TOP; FMT_CHAR; FMT_BOTTOM)` from index `i`: ordinary characters are put
out, a `%` starts a conversion, and every pass ends one past where `FMT_CHAR` stands. -/
def vsprintfLoop (fmt : List Char) : Nat → Nat → List PrintfEvent → Except VsprintfStop (List PrintfEvent)
  | 0, _, _ => .error .outOfFuel
  | fuel + 1, i, ev =>
    match fmtChar fmt i with
    | none => .error (.readPastEnd i ev)
    | some c =>
      if c = NUL then .ok ev
      else if c ≠ '%' then vsprintfLoop fmt fuel (i + 1) (ev ++ [.put c])
      else
        match vsprintfQualifiers fmt fuel (i + 1) ev with
        | .error e => .error e
        | .ok (j,ev) =>
          match vsprintfConversion fmt j ev with
          | .error e => .error e
          | .ok (k,ev) => vsprintfLoop fmt fuel (k + 1) ev

/-- `lib_vsprintf`'s scan of `fmt`, each loop given as many passes as the format has characters
and its NUL. -/
def libVsprintf (fmt : List Char) : Except VsprintfStop (List PrintfEvent) :=
  vsprintfLoop fmt (fmt.length + 2) 0 []

theorem fmtChar_of_lt {fmt : List Char} {i : Nat} (h : i < fmt.length) : fmtChar fmt i = some fmt[i] := by
  simp [fmtChar,List.getElem?_append_left h,h]

theorem fmtChar_length (fmt : List Char) : fmtChar fmt fmt.length = some NUL := by
  simp [fmtChar]

theorem fmtChar_of_gt {fmt : List Char} {i : Nat} (h : fmt.length < i) : fmtChar fmt i = none := by
  simp only [fmtChar,List.getElem?_eq_none_iff,List.length_append,List.length_singleton]
  omega

theorem vsprintfLoop_plain {s : List Char} (hs : ∀ c ∈ s, c ≠ '%' ∧ c ≠ NUL) (pre rest : List Char) (fuel : Nat)
    (ev : List PrintfEvent) :
    vsprintfLoop (pre ++ s ++ rest) (fuel + s.length) pre.length ev =
      vsprintfLoop (pre ++ s ++ rest) fuel (pre.length + s.length) (ev ++ s.map .put) := by
  induction s generalizing pre ev with
  | nil => simp
  | cons c s ih =>
    obtain ⟨hp,hn⟩ := hs c List.mem_cons_self
    have hc : fmtChar (pre ++ c :: s ++ rest) pre.length = some c := by
      rw [fmtChar_of_lt (by simp)]
      simp
    rw [show fuel + (c :: s).length = fuel + s.length + 1 by simp; omega,vsprintfLoop,hc]
    simp only [hn,hp,if_false,ne_eq,not_false_eq_true,if_true]
    have h := ih (fun d hd => hs d (List.mem_cons_of_mem c hd)) (pre ++ [c]) (ev ++ [.put c])
    have e₁ : pre ++ [c] ++ s ++ rest = pre ++ c :: s ++ rest := by simp
    have e₂ : (pre ++ [c]).length + s.length = pre.length + (c :: s).length := by simp; omega
    have e₃ : ev ++ [PrintfEvent.put c] ++ s.map .put = ev ++ (c :: s).map .put := by simp
    rw [e₁,e₂,e₃,List.length_append,List.length_singleton] at h
    exact h

/-- A format that ends right after a `%`: the NUL after the `%` is taken for an integer conversion,
an `int` is taken from the arguments for it, and the loop steps past the NUL and reads the format one
past it. -/
theorem libVsprintf_trailing_percent {s : List Char} (hs : ∀ c ∈ s, c ≠ '%' ∧ c ≠ NUL) :
    libVsprintf (s ++ ['%']) = .error (.readPastEnd (s.length + 2) (s.map .put ++ [.arg .int NUL])) := by
  have h := vsprintfLoop_plain hs [] ['%'] 3 []
  simp only [List.nil_append,List.length_nil,Nat.zero_add] at h
  unfold libVsprintf
  rw [show (s ++ ['%']).length + 2 = 3 + s.length by simp; omega,h]
  have h₀ : fmtChar (s ++ ['%']) s.length = some '%' := by rw [fmtChar_of_lt (by simp)]; simp
  have h₁ : fmtChar (s ++ ['%']) (s.length + 1) = some NUL := by
    simpa using fmtChar_length (s ++ ['%'])
  have h₂ : fmtChar (s ++ ['%']) (s.length + 1 + 1) = none := fmtChar_of_gt (by simp)
  simp [vsprintfLoop,vsprintfQualifiers,vsprintfConversion,vsprintfModifier,vsprintfConvChar,h₀,h₁,h₂,strchr,
    show NUL ≠ '%' by decide,show NUL ≠ 's' by decide,show NUL ≠ 'c' by decide,show NUL ≠ 'L' by decide,
    show NUL ≠ 'l' by decide,show '%' ≠ NUL by decide]

theorem libVsprintf_trailing_percent_a :
    (∀ c ∈ ['a'], c ≠ '%' ∧ c ≠ NUL) ∧
      libVsprintf (['a'] ++ ['%']) = .error (.readPastEnd (['a'].length + 2) (['a'].map .put ++ [.arg .int NUL])) := by
  have ha : ∀ c ∈ ['a'], c ≠ '%' ∧ c ≠ NUL := by
    intro c hc
    rw [List.mem_singleton.mp hc]
    decide
  exact ⟨ha,libVsprintf_trailing_percent ha⟩

/- A format that ends after a length modifier or a width reads past its NUL the same way. -/
example : libVsprintf ['%','l','l'] = .error (.readPastEnd 4 [.arg .longlong NUL]) := by decide

example : libVsprintf ['%','1','2'] = .error (.readPastEnd 4 [.arg .int NUL]) := by decide

end TizenRT.Stdio
