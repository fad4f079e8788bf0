import Mathlib.Tactic.IntervalCases
import TizenRT.Stdlib.Strtoul

set_option autoImplicit false

/-!
The lexer of arastorage's query language (aql_lexer.c). `lexer_next` skips blanks and reads one
lexeme from `lexer->input`: a quoted string, an integer by `strtol`, or a run of characters up
to a separator that is a keyword or else an identifier. Strings and identifiers are copied into
`lexer->value`, a `value_t` of DB_MAX_ELEMENT_SIZE bytes, with `memcpy` of the lexeme's length and
a NUL after it; the model records the bytes copied. DB_FEATURE_FLOATS is 0.
-/

namespace TizenRT.Aql

open CScan (NUL)

def DB_MAX_ELEMENT_SIZE : Nat := 32

inductive TokenT where
  | END | LEFT_PAREN | RIGHT_PAREN | COMMA | EQUAL | GT | LT | DOT | ADD | SUB | MUL | DIV
  | COMMENT | GEQ | LEQ | NOT_EQUAL | ASSIGN | OR | IS | ON | IN | ALL | AND | NOT | SUM | MAX
  | MIN | INT | INTO | FROM | MEAN | JOIN | LONG | TYPE | WHERE | COUNT | INDEX | INSERT
  | SELECT | REMOVE | CREATE | MEDIAN | DOMAIN | STRING | INLINE | REMAIN | PROJECT | RELATION
  | ATTRIBUTE | BPLUSTREE | INTEGER_VALUE | FLOAT_VALUE | STRING_VALUE | IDENTIFIER | NONE
  deriving DecidableEq, Repr

def keywords : List (List Char × TokenT) :=
  [(";".toList, .END), ("(".toList, .LEFT_PAREN), (")".toList, .RIGHT_PAREN),
   (",".toList, .COMMA), ("=".toList, .EQUAL), (">".toList, .GT), ("<".toList, .LT),
   (".".toList, .DOT), ("+".toList, .ADD), ("-".toList, .SUB), ("*".toList, .MUL),
   ("/".toList, .DIV), ("#".toList, .COMMENT),
   (">=".toList, .GEQ), ("<=".toList, .LEQ), ("<>".toList, .NOT_EQUAL), ("<-".toList, .ASSIGN),
   ("OR".toList, .OR), ("IS".toList, .IS), ("ON".toList, .ON), ("IN".toList, .IN),
   ("ALL".toList, .ALL), ("AND".toList, .AND), ("NOT".toList, .NOT), ("SUM".toList, .SUM),
   ("MAX".toList, .MAX), ("MIN".toList, .MIN), ("INT".toList, .INT),
   ("INTO".toList, .INTO), ("FROM".toList, .FROM), ("MEAN".toList, .MEAN),
   ("JOIN".toList, .JOIN), ("LONG".toList, .LONG), ("TYPE".toList, .TYPE),
   ("WHERE".toList, .WHERE), ("COUNT".toList, .COUNT), ("INDEX".toList, .INDEX),
   ("INSERT".toList, .INSERT), ("SELECT".toList, .SELECT), ("REMOVE".toList, .REMOVE),
   ("CREATE".toList, .CREATE), ("MEDIAN".toList, .MEDIAN), ("DOMAIN".toList, .DOMAIN),
   ("STRING".toList, .STRING), ("INLINE".toList, .INLINE), ("REMAIN".toList, .REMAIN),
   ("PROJECT".toList, .PROJECT),
   ("RELATION".toList, .RELATION),
   ("ATTRIBUTE".toList, .ATTRIBUTE), ("BPLUSTREE".toList, .BPLUSTREE)]

def skipHint : List Nat := [0, 13, 21, 28, 34, 37, 46, 47, 48]

def separators : List Char := "#.;,() \t\n".toList

def tolower (c : Char) : Char := if 'A' ≤ c ∧ c ≤ 'Z' then Char.ofNat (c.toNat + 32) else c

/-- `strncasecmp(a, b, n) == 0`: the first `n` characters agree up to case, or both strings end
together before. -/
def strncasecmpEq : List Char → List Char → Nat → Bool
  | _, _, 0 => true
  | a, b, n + 1 =>
    tolower (a.headD NUL) = tolower (b.headD NUL) &&
      (a.headD NUL = NUL || strncasecmpEq a.tail b.tail n)

/-- `get_token_id`: the keyword of the `length` characters at `s`, among those of its length. -/
def getTokenId (s : List Char) (length : Nat) : TokenT :=
  if skipHint.length < length ∨ length < 1 then .NONE
  else
    let start := skipHint.getD (length - 1) 0
    let stop := if skipHint.length = length then keywords.length else skipHint.getD length 0
    match ((keywords.drop start).take (stop - start)).find? (fun k => strncasecmpEq k.1 s length) with
    | some k => k.2
    | none => .NONE

def strspnBlank (s : List Char) : Nat :=
  (s.takeWhile (fun c => c = ' ' ∨ c = '\t' ∨ c = '\n')).length

def strcspnSeparators (s : List Char) : Nat :=
  (s.takeWhile (fun c => c ∉ separators ∧ c ≠ NUL)).length

/-- What a lexeme leaves in `lexer->value`: the bytes `memcpy` and the NUL write there, or the
`long` of an integer. -/
inductive Lexeme where
  | chars (bytes : List Char)
  | long (v : Int)
  deriving DecidableEq, Repr

/-- What `lexer_next` returns and leaves: its result, `*lexer->token`, what it wrote to
`lexer->value` if anything, and `lexer->input` and `lexer->prev_pos` as the strings from
there on. -/
structure LexStep where
  status : Int
  token : TokenT
  value : Option Lexeme
  input : List Char
  prevPos : List Char
  deriving DecidableEq, Repr

/-- `next_real` at `s`, without floats: `strtol` in base 10, which in this libc never sets
`errno`, so the result is never -1. -/
def nextReal (s prevPos : List Char) : LexStep :=
  let r := Stdlib.strtol s 10
  ⟨1, .INTEGER_VALUE, some (.long r.1), s.drop r.2, prevPos⟩

/-- `next_string` after the opening quote: up to the next quote, which must be there. -/
def nextString (s prevPos : List Char) : LexStep :=
  let body := s.takeWhile (fun c => c ≠ '\'' ∧ c ≠ NUL)
  if s.getD body.length NUL = '\'' then
    ⟨1, .STRING_VALUE, some (.chars (body ++ [NUL])), s.drop (body.length + 1), prevPos⟩
  else ⟨-1, .NONE, none, s, prevPos⟩

/-- `next_token`: the run up to a separator, or the separator alone; a keyword, or else an
identifier copied to `lexer->value`. -/
def nextToken (s prevPos : List Char) : LexStep :=
  let length := if strcspnSeparators s = 0 then 1 else strcspnSeparators s
  let token := getTokenId s length
  if token ≠ .NONE then ⟨1, token, none, s.drop length, prevPos⟩
  else ⟨1, .IDENTIFIER, some (.chars (s.take length ++ [NUL])), s.drop length, prevPos⟩

def isdigit (c : Char) : Bool := '0'.toNat ≤ c.toNat ∧ c.toNat ≤ '9'.toNat

def lexerNext (input : List Char) : LexStep :=
  let s := input.drop (strspnBlank input)
  let c := s.headD NUL
  if c = '\'' then nextString s.tail s
  else if c = NUL then ⟨0, .NONE, none, input, s⟩
  else if isdigit c ∨ (c = '-' ∧ isdigit (s.getD 1 NUL)) then nextReal s s
  else nextToken s s

theorem strcspnSeparators_append {run rest : List Char}
    (hrun : ∀ c ∈ run, c ∉ separators ∧ c ≠ NUL)
    (hrest : rest.headD NUL ∈ separators ∨ rest.headD NUL = NUL) :
    strcspnSeparators (run ++ rest) = run.length := by
  rw [strcspnSeparators, List.takeWhile_append_of_pos (by simpa using hrun)]
  cases rest with
  | nil => simp
  | cons c cs =>
    simp only [List.headD_cons] at hrest
    rcases hrest with h | h <;> simp [h]

theorem strspnBlank_of_head {s : List Char} (h : s.headD NUL ∉ separators) : strspnBlank s = 0 := by
  cases s with
  | nil => rfl
  | cons c cs =>
    simp only [List.headD_cons] at h
    have hc : ¬ (c = ' ' ∨ c = '\t' ∨ c = '\n') := by
      rintro (rfl | rfl | rfl) <;> exact h (by decide)
    simp [strspnBlank, hc]

theorem getTokenId_long {s : List Char} {length : Nat} (h : DB_MAX_ELEMENT_SIZE ≤ length) :
    getTokenId s length = .NONE := by
  rw [getTokenId, if_pos (Or.inl (by simp [skipHint, DB_MAX_ELEMENT_SIZE] at h ⊢; omega))]

/-- An identifier or a quoted string of DB_MAX_ELEMENT_SIZE characters or more is copied whole,
with its NUL, into the DB_MAX_ELEMENT_SIZE bytes of `value_t`. -/
theorem lexerNext_copies_long_lexeme :
    (∀ run rest : List Char, (∀ c ∈ run, c ∉ separators ∧ c ≠ NUL) →
      run.headD NUL ≠ '\'' → isdigit (run.headD NUL) = false → run.headD NUL ≠ '-' →
      (rest.headD NUL ∈ separators ∨ rest.headD NUL = NUL) → DB_MAX_ELEMENT_SIZE ≤ run.length →
      lexerNext (run ++ rest) =
        ⟨1, .IDENTIFIER, some (.chars (run ++ [NUL])), rest, run ++ rest⟩) ∧
    (∀ body rest : List Char, (∀ c ∈ body, c ≠ '\'' ∧ c ≠ NUL) →
      DB_MAX_ELEMENT_SIZE ≤ body.length →
      lexerNext ('\'' :: body ++ '\'' :: rest) =
        ⟨1, .STRING_VALUE, some (.chars (body ++ [NUL])), rest, '\'' :: body ++ '\'' :: rest⟩) := by
  constructor
  · intro run rest hrun hq hd hm hrest hlen
    obtain ⟨c, cs, rfl⟩ := List.exists_cons_of_ne_nil
      (List.ne_nil_of_length_pos (l := run) (by simp only [DB_MAX_ELEMENT_SIZE] at hlen; omega))
    have hc := hrun c (by simp)
    simp only [List.headD_cons] at hq hd hm
    have hspan := strcspnSeparators_append hrun hrest
    have hlen0 : (c :: cs).length ≠ 0 := by simp
    have hblank : strspnBlank (c :: cs ++ rest) = 0 := strspnBlank_of_head (s := c :: cs ++ rest) hc.1
    have hhead : (c :: cs ++ rest).headD NUL = c := rfl
    rw [lexerNext]
    simp only [hblank, List.drop_zero, hhead]
    rw [if_neg hq, if_neg hc.2, if_neg (by simp [hd, hm]), nextToken, hspan, if_neg hlen0,
      getTokenId_long hlen]
    simp
  · intro body rest hbody hlen
    have hq : ('\'' : Char) ≠ NUL := by decide
    have htake : (body ++ '\'' :: rest).takeWhile (fun c => c ≠ '\'' ∧ c ≠ NUL) = body := by
      rw [List.takeWhile_append_of_pos (by simpa using hbody)]
      simp
    have hsep : ('\'' : Char) ∉ separators := by decide
    simp only [lexerNext, List.cons_append]
    rw [strspnBlank_of_head (s := '\'' :: (body ++ '\'' :: rest)) hsep, List.drop_zero]
    simp only [List.headD_cons, if_true, List.tail_cons, nextString, htake]
    simp [List.getD_eq_getElem?_getD]

theorem lexerNext_copies_long_lexeme_thirty_two :
    lexerNext (List.replicate 32 'a' ++ []) =
        ⟨1, .IDENTIFIER, some (.chars (List.replicate 32 'a' ++ [NUL])), [],
          List.replicate 32 'a' ++ []⟩ ∧
      lexerNext ('\'' :: List.replicate 32 'b' ++ '\'' :: []) =
        ⟨1, .STRING_VALUE, some (.chars (List.replicate 32 'b' ++ [NUL])), [],
          '\'' :: List.replicate 32 'b' ++ '\'' :: []⟩ :=
  ⟨lexerNext_copies_long_lexeme.1 (List.replicate 32 'a') []
      (by
        intro c hc
        rw [List.eq_of_mem_replicate hc]
        decide)
      (by decide) (by decide) (by decide) (.inr rfl) (by simp [DB_MAX_ELEMENT_SIZE]),
    lexerNext_copies_long_lexeme.2 (List.replicate 32 'b') []
      (by
        intro c hc
        rw [List.eq_of_mem_replicate hc]
        decide)
      (by simp [DB_MAX_ELEMENT_SIZE])⟩

theorem libIsbasedigit_ten_of_isdigit {c : Char} (h : isdigit c = true) :
    Stdlib.libIsbasedigit c 10 = some (c.toNat - '0'.toNat) := by
  have h0 : '0'.toNat = 48 := rfl
  have h9 : '9'.toNat = 57 := rfl
  simp only [isdigit, decide_eq_true_eq, h0, h9] at h
  have h' : (c.toNat : Int) ≤ 57 := by omega
  simp [Stdlib.libIsbasedigit, h0, h.1, h']

theorem strtol_endptr_pos {s : List Char}
    (h : isdigit (s.headD NUL) = true ∨ (s.headD NUL = '-' ∧ isdigit (s.getD 1 NUL) = true)) :
    0 < (Stdlib.strtol s 10).2 := by
  apply Stdlib.strtolWidth_ten_pos
  rcases h with h | ⟨hm, h⟩
  · exact .inl (by rw [libIsbasedigit_ten_of_isdigit h]; rfl)
  · exact .inr ⟨hm, by rw [libIsbasedigit_ten_of_isdigit h]; rfl⟩

theorem drop_length_lt {s : List Char} (hs : s.headD NUL ≠ NUL) {n : Nat} (hn : 0 < n) :
    (s.drop n).length < s.length := by
  cases s with
  | nil => exact absurd rfl hs
  | cons c cs =>
    simp only [List.length_drop, List.length_cons]
    omega

theorem nextToken_input (s prevPos : List Char) :
    (nextToken s prevPos).input = s.drop (if strcspnSeparators s = 0 then 1 else strcspnSeparators s) := by
  unfold nextToken
  dsimp only
  split_ifs <;> rfl

theorem lexerNext_input_lt {input : List Char} (h : (lexerNext input).status = 1) :
    (lexerNext input).input.length < input.length := by
  have hdrop : (input.drop (strspnBlank input)).length ≤ input.length := by simp
  unfold lexerNext at h ⊢
  generalize input.drop (strspnBlank input) = s at h hdrop ⊢
  by_cases hq : s.headD NUL = '\''
  · have hs : s.headD NUL ≠ NUL := by rw [hq]; decide
    rw [if_pos hq] at h ⊢
    unfold nextString at h ⊢
    dsimp only at h ⊢
    split
    · have := drop_length_lt hs (Nat.succ_pos 0)
      simp only [List.length_drop, List.length_tail] at this ⊢
      omega
    · rw [if_neg ‹_›] at h
      simp at h
  rw [if_neg hq] at h ⊢
  by_cases hn : s.headD NUL = NUL
  · rw [if_pos hn] at h
    simp at h
  rw [if_neg hn] at h ⊢
  split
  · have := drop_length_lt hn (strtol_endptr_pos ‹_›)
    simp only [nextReal]
    omega
  · have hpos : 0 < (if strcspnSeparators s = 0 then 1 else strcspnSeparators s) := by
      split <;> omega
    have := drop_length_lt hn hpos
    rw [nextToken_input]
    omega

/-- `lexer_next` called until it returns something other than 1: the steps that returned 1 and
the last call. It ends, since each such step shortens the input. -/
def lexAll (input : List Char) : List LexStep × LexStep :=
  if _ : (lexerNext input).status = 1 then
    let r := lexAll (lexerNext input).input
    (lexerNext input :: r.1, r.2)
  else ([], lexerNext input)
termination_by input.length
decreasing_by exact lexerNext_input_lt ‹_›

end TizenRT.Aql
