import TizenRT.Aql.Lvm

set_option autoImplicit false

/-!
The WHERE clause parser of arastorage (aql_parser.c), on the tokens the lexer returns. The
parser builds bytecode through the lvm.c calls in `LvmOps`, and its own control flow reads
nothing they return but offsets: whether a clause is accepted is decided by the tokens alone.
-/

namespace TizenRT.Aql

/-- The tokens of aql.h that a WHERE clause uses; `other` is every other token. -/
inductive Token where
  | identifier (name : String)
  | integer (value : Int32)
  | string (value : String)
  | float
  | add | sub | mul | div
  | leftParen | rightParen
  | equal | notEqual | gt | lt | geq | leq
  | and | or
  | other
  | none
  deriving DecidableEq, Repr

/-- The lexer as the parser sees it: `lexer_next` reads the next token (NONE at the end of the
input) and remembers where it started, `lexer_rewind` goes back there. -/
structure Lexer where
  input : List Token
  prevPos : List Token
  token : Token

def Lexer.next (lx : Lexer) : Lexer :=
  match lx.input with
  | [] => { lx with prevPos := [], token := .none }
  | t :: rest => ⟨rest, lx.input, t⟩

def Lexer.rewind (lx : Lexer) : Lexer := { lx with input := lx.prevPos }

def STATUS_OK : Nat := 2
def SYNTAX_ERROR : Nat := 3

def aqlError (x : Nat) : Bool := x ≥ 3

@[simp] theorem aqlError_STATUS_OK : aqlError STATUS_OK = false := rfl

@[simp] theorem aqlError_SYNTAX_ERROR : aqlError SYNTAX_ERROR = true := rfl

/-- `parse_op`: the token, if it is an arithmetic operator or ')', else NONE. -/
def parseOp (lx : Lexer) : Token × Lexer :=
  let lx := lx.next
  match lx.token with
  | .add | .sub | .mul | .div | .rightParen => (lx.token, lx)
  | _ => (.none, lx)

def parseCmp (lx : Lexer) : Token × Lexer :=
  let lx := lx.next
  match lx.token with
  | .equal | .notEqual | .gt | .lt | .geq | .leq => (lx.token, lx)
  | _ => (.none, lx)

def opOfToken : Token → Option Nat
  | .add => some LVM_ADD
  | .sub => some LVM_SUB
  | .mul => some LVM_MUL
  | .div => some LVM_DIV
  | _ => none

/-- The `switch (token)` of `parse_comparison`: `>` is `LVM_GE` and `<` is `LVM_LE`. -/
def relOfToken : Token → Option Nat
  | .gt => some LVM_GE
  | .geq => some LVM_GEQ
  | .lt => some LVM_LE
  | .leq => some LVM_LEQ
  | .equal => some LVM_EQ
  | .notEqual => some LVM_NEQ
  | _ => none

def consume (t : Token) (lx : Lexer) : Bool × Lexer :=
  let lx := lx.next
  (lx.token = t, lx)

section Parse

variable {σ : Type} (E : LvmOps σ)

def parseOperand (lx : Lexer) (s : σ) : Nat × Lexer × σ :=
  let lx := lx.next
  match lx.token with
  | .identifier v =>
    (STATUS_OK, lx, E.addProcessingAttribute v (E.setVariable v (E.registerVariable v s)))
  | .string _ | .float => (STATUS_OK, lx, s)
  | .integer l => (STATUS_OK, lx, E.setLong l s)
  | _ => (SYNTAX_ERROR, lx, s)

/-- The `while (1)` of `parse_expr` after its first operand, from `saved_end`, for at most
`fuel` operators; `expr` is `parse_expr` one level down, tried where `parse_operand` fails. -/
def parseExprLoop (expr : Lexer → σ → Nat × Lexer × σ) :
    Nat → Nat → Lexer → σ → Nat × Lexer × σ
  | 0, _, lx, s => (SYNTAX_ERROR, lx, s)
  | fuel + 1, savedEnd, lx, s =>
    let (token, lx) := parseOp lx
    if token = .none then (STATUS_OK, lx.rewind, s)
    else if token = .rightParen then (STATUS_OK, lx, s)
    else
      let (r, lx, s) := parseOperand E lx s
      let (r, lx, s) := if aqlError r then expr lx s else (r, lx, s)
      if aqlError r then (SYNTAX_ERROR, lx, s)
      else
        let (savedEnd, s) := E.shiftForOperator savedEnd s
        match opOfToken token with
        | none => (SYNTAX_ERROR, lx, s)
        | some op => parseExprLoop expr fuel savedEnd lx (E.setEnd savedEnd (E.setOp op s)).2

def parseExpr : Nat → Lexer → σ → Nat × Lexer × σ
  | 0, lx, s => (SYNTAX_ERROR, lx, s)
  | fuel + 1, lx, s =>
    let savedEnd := E.getEnd s
    let lx := lx.next
    let (r, lx, s) :=
      if lx.token = .leftParen then
        let (r, lx, s) := parseExpr fuel lx s
        if aqlError r then (SYNTAX_ERROR, lx, s)
        else
          let (ok, lx) := consume .rightParen lx
          (if ok then STATUS_OK else SYNTAX_ERROR, lx, s)
      else
        let (r, lx, s) := parseOperand E lx.rewind s
        (if aqlError r then SYNTAX_ERROR else STATUS_OK, lx, s)
    if aqlError r then (SYNTAX_ERROR, lx, s)
    else parseExprLoop E (parseExpr fuel) fuel savedEnd lx s

def parseComparison (fuel : Nat) (lx : Lexer) (s : σ) : Nat × Lexer × σ :=
  let (savedEnd, s) := E.jumpToOperand s
  let (r, lx, s) := parseExpr E fuel lx s
  if aqlError r then (SYNTAX_ERROR, lx, s)
  else
    let (savedEnd, s) := E.setEnd savedEnd s
    let (token, lx) := parseCmp lx
    match relOfToken token with
    | none => (SYNTAX_ERROR, lx, s)
    | some rel =>
      let (r, lx, s) := parseExpr E fuel lx (E.setEnd savedEnd (E.setRelation rel s)).2
      (if aqlError r then SYNTAX_ERROR else STATUS_OK, lx, s)

/-- The `for (;;)` of `parse_where`, from `saved_end`, for at most `n` connectives; `whereFn`
is `parse_where` one level down, for a parenthesised group. A comparison that fails after a
connective makes `parse_where` return the failed `PARSE`, that is 0. -/
def parseWhereLoop (whereFn : Lexer → σ → Nat × Lexer × σ) (fuel : Nat) :
    Nat → Nat → Lexer → σ → Nat × Lexer × σ
  | 0, _, lx, s => (SYNTAX_ERROR, lx, s)
  | n + 1, savedEnd, lx, s =>
    let lx := lx.next
    if lx.token ≠ .and ∧ lx.token ≠ .or then (STATUS_OK, lx.rewind, s)
    else
      let connective := if lx.token = .and then LVM_AND else LVM_OR
      let (savedEnd, s) := E.shiftForOperator savedEnd s
      let s := (E.setEnd savedEnd (E.setRelation connective s)).2
      let lx := lx.next
      if lx.token = .leftParen then
        let (r, lx, s) := whereFn lx s
        if aqlError r then (SYNTAX_ERROR, lx, s)
        else
          let (ok, lx) := consume .rightParen lx
          if ok then parseWhereLoop whereFn fuel n savedEnd lx s else (SYNTAX_ERROR, lx, s)
      else
        let (r, lx, s) := parseComparison E fuel lx.rewind s
        if aqlError r then (0, lx, s) else parseWhereLoop whereFn fuel n savedEnd lx s

/-- `parse_where`, for at most `fuel` nested groups; the connectives start at offset 0. -/
def parseWhere : Nat → Lexer → σ → Nat × Lexer × σ
  | 0, lx, s => (SYNTAX_ERROR, lx, s)
  | fuel + 1, lx, s =>
    let (r, lx, s) := parseComparison E fuel lx s
    if aqlError r then (SYNTAX_ERROR, lx, s) else parseWhereLoop E (parseWhere fuel) fuel fuel 0 lx s

/-- `parse_where` on the tokens of a clause; every call inside it reads a token first. -/
def aqlParseWhere (tokens : List Token) (s : σ) : Nat × Lexer × σ :=
  parseWhere E (tokens.length + 1) ⟨tokens, tokens, .none⟩ s

def Token.isValue : Token → Bool
  | .identifier _ | .integer _ | .string _ | .float => true
  | _ => false

theorem parseOperand_value {x : Token} (hx : x.isValue) (rest p : List Token) (tk : Token) (s : σ) :
    ∃ s', parseOperand E ⟨x :: rest, p, tk⟩ s = (STATUS_OK, ⟨rest, x :: rest, x⟩, s') := by
  cases x with
  | identifier v => exact ⟨_, rfl⟩
  | integer l => exact ⟨_, rfl⟩
  | string v => exact ⟨_, rfl⟩
  | float => exact ⟨_, rfl⟩
  | _ => exact absurd hx Bool.false_ne_true

theorem parseExpr_value_paren {x : Token} (hx : x.isValue) (rest p : List Token) (tk : Token)
    (s : σ) (fuel : Nat) :
    ∃ s', parseExpr E (fuel + 2) ⟨x :: .rightParen :: rest, p, tk⟩ s =
      (STATUS_OK, ⟨rest, .rightParen :: rest, .rightParen⟩, s') := by
  obtain ⟨s',hs'⟩ := parseOperand_value E hx (.rightParen :: rest) (x :: .rightParen :: rest) x s
  have hx' : x ≠ .leftParen := by
    rintro rfl
    exact absurd hx Bool.false_ne_true
  refine ⟨s',?_⟩
  simp only [parseExpr,Lexer.next,Lexer.rewind,if_neg hx',hs']
  rfl

/-- `(x) t ...` is refused: the group's ')' is gone when `parse_expr` consumes it. -/
theorem parseWhere_paren_rejected (s : σ) {x t : Token} (hx : x.isValue) (ht : t ≠ .rightParen)
    (rest : List Token) :
    (aqlParseWhere E (.leftParen :: x :: .rightParen :: t :: rest) s).1 = SYNTAX_ERROR := by
  obtain ⟨s',hs'⟩ := parseExpr_value_paren E hx (t :: rest) (.leftParen :: x :: .rightParen :: t :: rest)
    .leftParen (E.jumpToOperand s).2 (rest.length + 1)
  have hexpr : (parseExpr E (rest.length + 4) ⟨.leftParen :: x :: .rightParen :: t :: rest,
      .leftParen :: x :: .rightParen :: t :: rest, .none⟩ (E.jumpToOperand s).2).1 =
        SYNTAX_ERROR := by
    have hs'' : parseExpr E (rest.length + 3) ⟨x :: .rightParen :: t :: rest,
        .leftParen :: x :: .rightParen :: t :: rest, .leftParen⟩ (E.jumpToOperand s).2 =
          (STATUS_OK, ⟨t :: rest, .rightParen :: t :: rest, .rightParen⟩, s') := hs'
    rw [parseExpr]
    simp only [Lexer.next,if_true,hs'',consume,ht]
    rfl
  rw [aqlParseWhere,List.length_cons,List.length_cons,List.length_cons,List.length_cons,parseWhere]
  simp [parseComparison,hexpr]

end Parse

theorem parseWhere_paren_rejected_operand :
    (Token.identifier "a").isValue ∧ Token.equal ≠ .rightParen ∧
      (aqlParseWhere (lvmOps ⟨4, 8⟩)
        [.leftParen, .identifier "a", .rightParen, .equal, .integer 1] lvmReset).1 = SYNTAX_ERROR :=
  ⟨rfl,by decide,parseWhere_paren_rejected (lvmOps ⟨4, 8⟩) lvmReset rfl (by decide) [.integer 1]⟩

end TizenRT.Aql
