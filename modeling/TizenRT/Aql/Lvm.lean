import Mathlib.Logic.Function.Basic
import TizenRT.Lib.ExceptBind

set_option autoImplicit false

/-!
The logic VM of arastorage (lvm.c): bytecode in prefix order in `code`, a buffer of
DB_VM_BYTECODE_SIZE bytes. Offsets are bytes, as in the source; `code` keeps the cell each write
put at its offset. `node_type_t` and `operator_t` are enums of one size, `LvmLayout.tag`, and
`operand_t` takes `LvmLayout.operand` bytes: both are the target's. A `long` is the target's 32
bits, `Int32`: its `+`, `-` and `*` wrap, and its `/` truncates as C's does.

A write past the buffer lands in `variables`; the model only records that it happened
(`overflow`). Execution stops (`.error none`) where the source reads past the buffer, reads an
operand that is not one, or runs on code that overflowed.
-/

namespace TizenRT.Aql

def DB_VM_BYTECODE_SIZE : Nat := 32
def AQL_ATTRIBUTE_LIMIT : Nat := 6
def LVM_MAX_VARIABLE_ID : Nat := AQL_ATTRIBUTE_LIMIT - 1

def LVM_FALSE : Nat := 0
def LVM_TRUE : Nat := 1
def SEMANTIC_ERROR : Nat := 3
def MATH_ERROR : Nat := 4
def EXECUTION_ERROR : Nat := 8

def LVM_ARITH_OP : Nat := 0x10
def LVM_OPERAND : Nat := 0x20
def LVM_CMP_OP : Nat := 0x40
def LVM_CONNECTIVE : Nat := 0x80

def LVM_ADD : Nat := 0x11
def LVM_SUB : Nat := 0x12
def LVM_MUL : Nat := 0x13
def LVM_DIV : Nat := 0x14
def LVM_EQ : Nat := 0x41
def LVM_NEQ : Nat := 0x42
def LVM_GE : Nat := 0x43
def LVM_GEQ : Nat := 0x44
def LVM_LE : Nat := 0x45
def LVM_LEQ : Nat := 0x46
def LVM_AND : Nat := 0x81
def LVM_OR : Nat := 0x82
def LVM_NOT : Nat := 0x83

def LVM_VARIABLE : Nat := 0
def LVM_LONG : Nat := 2

/-- `sizeof(node_type_t)` (= `sizeof(operator_t)`) and `sizeof(operand_t)`. -/
structure LvmLayout where
  tag : Nat
  operand : Nat

inductive Operand where
  | variable (id : Nat)
  | long (l : Int32)
  deriving DecidableEq, Repr

def Operand.type : Operand → Nat
  | .variable _ => LVM_VARIABLE
  | .long _ => LVM_LONG

/-- What one write leaves at an offset: a node type or operator, or an operand. -/
inductive Cell where
  | tag (v : Nat)
  | operand (o : Operand)
  deriving DecidableEq, Repr

def Cell.size (L : LvmLayout) : Cell → Nat
  | .tag _ => L.tag
  | .operand _ => L.operand

/-- The fields of `lvm_instance_t` the parser and `lvm_execute` use. -/
structure Lvm where
  code : Nat → Option Cell
  end_ : Nat
  error : Bool
  overflow : Bool
  «variables» : List String

def lvmReset : Lvm := ⟨fun _ => none, 0, false, false, []⟩

section Emit

variable (L : LvmLayout)

def Lvm.write (c : Cell) (p : Lvm) : Lvm :=
  if p.end_ + c.size L > DB_VM_BYTECODE_SIZE then
    { p with overflow := true, end_ := p.end_ + c.size L }
  else { p with code := Function.update p.code p.end_ (some c), end_ := p.end_ + c.size L }

def lvmSetType (t : Nat) (p : Lvm) : Lvm := p.write L (.tag t)

def lvmSetOp (op : Nat) (p : Lvm) : Lvm := (lvmSetType L LVM_ARITH_OP p).write L (.tag op)

def lvmSetRelation (op : Nat) (p : Lvm) : Lvm := (lvmSetType L LVM_CMP_OP p).write L (.tag op)

def lvmSetOperand (o : Operand) (p : Lvm) : Lvm := (lvmSetType L LVM_OPERAND p).write L (.operand o)

def lvmSetLong (l : Int32) (p : Lvm) : Lvm := lvmSetOperand L (.long l) p

/-- `lvm_jump_to_operand`: room for a node type and an operator. -/
def lvmJumpToOperand (p : Lvm) : Nat × Lvm :=
  if p.end_ + 2 * L.tag ≥ DB_VM_BYTECODE_SIZE then (p.end_, { p with error := true })
  else (p.end_, { p with end_ := p.end_ + 2 * L.tag })

/-- `lvm_shift_for_operator`: the code from `e` to `p->end` moves up by a node type and an
operator, whose room it leaves at `e`. The bound check counts one `operator_t`, the move two. -/
def lvmShiftForOperator (e : Nat) (p : Lvm) : Nat × Lvm :=
  if p.end_ + L.tag > DB_VM_BYTECODE_SIZE ∨ e ≥ p.end_ then (0, { p with error := true })
  else
    (p.end_ + 2 * L.tag,
      { p with
        code := fun i =>
          if e + 2 * L.tag ≤ i ∧ i < p.end_ + 2 * L.tag then p.code (i - 2 * L.tag) else p.code i
        end_ := e
        overflow := p.overflow || decide (p.end_ + 2 * L.tag > DB_VM_BYTECODE_SIZE) })

def lvmGetEnd (p : Lvm) : Nat := p.end_

def lvmSetEnd (e : Nat) (p : Lvm) : Nat × Lvm :=
  if e ≥ DB_VM_BYTECODE_SIZE then (p.end_, { p with error := true }) else (p.end_, { p with end_ := e })

/-- `lookup`: the slot of `name`, or the first free one; LVM_MAX_VARIABLE_ID when all are
taken by other names. -/
def lvmLookup (p : Lvm) (name : String) : Nat :=
  if name ∈ p.«variables» then p.«variables».idxOf name else p.«variables».length

def lvmRegisterVariable (name : String) (p : Lvm) : Lvm :=
  if lvmLookup p name = LVM_MAX_VARIABLE_ID ∨ name ∈ p.«variables» then p
  else { p with «variables» := p.«variables» ++ [name] }

def lvmSetVariable (name : String) (p : Lvm) : Lvm :=
  if lvmLookup p name < LVM_MAX_VARIABLE_ID then lvmSetOperand L (.variable (lvmLookup p name)) p
  else p

/-- The lvm.c calls of the parser, on the state `σ` of the bytecode and of the query's
attributes (`AQL_ADD_PROCESSING_ATTRIBUTE`). -/
structure LvmOps (σ : Type) where
  getEnd : σ → Nat
  setEnd : Nat → σ → Nat × σ
  jumpToOperand : σ → Nat × σ
  shiftForOperator : Nat → σ → Nat × σ
  setOp : Nat → σ → σ
  setRelation : Nat → σ → σ
  setLong : Int32 → σ → σ
  registerVariable : String → σ → σ
  setVariable : String → σ → σ
  addProcessingAttribute : String → σ → σ

/-- The calls on an `lvm_instance_t`; the query's attributes are not part of it. -/
def lvmOps : LvmOps Lvm where
  getEnd := lvmGetEnd
  setEnd := lvmSetEnd
  jumpToOperand := lvmJumpToOperand L
  shiftForOperator := lvmShiftForOperator L
  setOp := lvmSetOp L
  setRelation := lvmSetRelation L
  setLong := lvmSetLong L
  registerVariable := lvmRegisterVariable
  setVariable := lvmSetVariable L
  addProcessingAttribute := fun _ p => p

end Emit

section Exec

variable (L : LvmLayout) (p : Lvm)

def getType (ip : Nat) : Except (Option Nat) (Nat × Nat) :=
  if ip + L.tag > DB_VM_BYTECODE_SIZE then .error none
  else
    match p.code ip with
    | some (.tag v) => .ok (v, ip + L.tag)
    | some (.operand o) => .ok (o.type, ip + L.tag)
    | none => .ok (0, ip + L.tag)

def getOperator (ip : Nat) : Except (Option Nat) (Nat × Nat) :=
  if ip + L.tag > DB_VM_BYTECODE_SIZE then .error none
  else
    match p.code ip with
    | some (.tag v) => .ok (v, ip + L.tag)
    | some (.operand _) => .error none
    | none => .ok (0, ip + L.tag)

def getOperand (ip : Nat) : Except (Option Nat) (Operand × Nat) :=
  if ip + L.operand > DB_VM_BYTECODE_SIZE then .error none
  else
    match p.code ip with
    | some (.operand o) => .ok (o, ip + L.operand)
    | _ => .error none

theorem getType_tag {ip v : Nat} (hc : p.code ip = some (.tag v))
    (hb : ip + L.tag ≤ DB_VM_BYTECODE_SIZE) : getType L p ip = .ok (v, ip + L.tag) := by
  simp [getType, hc, Nat.not_lt.mpr hb]

theorem getOperator_tag {ip v : Nat} (hc : p.code ip = some (.tag v))
    (hb : ip + L.tag ≤ DB_VM_BYTECODE_SIZE) : getOperator L p ip = .ok (v, ip + L.tag) := by
  simp [getOperator, hc, Nat.not_lt.mpr hb]

theorem getOperand_operand {ip : Nat} {o : Operand} (hc : p.code ip = some (.operand o))
    (hb : ip + L.operand ≤ DB_VM_BYTECODE_SIZE) : getOperand L p ip = .ok (o, ip + L.operand) := by
  simp [getOperand, hc, Nat.not_lt.mpr hb]

def operandToLong (vals : Nat → Int32) : Operand → Int32
  | .long l => l
  | .variable id => vals id

/-- One argument of `eval_expr`, or of a comparison in `eval_logic`: an arithmetic node,
evaluated by `expr`, or an operand. -/
def lvmArg (vals : Nat → Int32) (expr : Nat → Nat → Except (Option Nat) (Int32 × Nat)) (ip : Nat) :
    Except (Option Nat) (Int32 × Nat) :=
  getType L p ip >>= fun r =>
  if r.1 = LVM_ARITH_OP then getOperator L p r.2 >>= fun o => expr o.1 o.2
  else if r.1 = LVM_OPERAND then getOperand L p r.2 >>= fun o => pure (operandToLong vals o.1, o.2)
  else .error (some SEMANTIC_ERROR)

theorem lvmArg_operand {vals : Nat → Int32} {expr : Nat → Nat → Except (Option Nat) (Int32 × Nat)}
    {ip ip' ip'' : Nat} {o : Operand} (ht : getType L p ip = .ok (LVM_OPERAND, ip'))
    (ho : getOperand L p ip' = .ok (o, ip'')) :
    lvmArg L p vals expr ip = .ok (operandToLong vals o, ip'') := by
  simp [lvmArg, ht, ho, LVM_OPERAND, LVM_ARITH_OP]

/-- `eval_expr` of the operator `op` whose arguments start at `ip`, for at most `fuel` nested
nodes. -/
def evalExpr (vals : Nat → Int32) : Nat → Nat → Nat → Except (Option Nat) (Int32 × Nat)
  | 0, _, _ => .error none
  | fuel + 1, op, ip =>
    lvmArg L p vals (evalExpr vals fuel) ip >>= fun a =>
    lvmArg L p vals (evalExpr vals fuel) a.2 >>= fun b =>
    if op = LVM_ADD then pure (a.1 + b.1, b.2)
    else if op = LVM_SUB then pure (a.1 - b.1, b.2)
    else if op = LVM_MUL then pure (a.1 * b.1, b.2)
    else if op = LVM_DIV then
      (if b.1 = 0 then .error (some MATH_ERROR) else pure (a.1 / b.1, b.2))
    else .error (some EXECUTION_ERROR)

/-- The comparison `op` of two values, `LVM_GE` being `>` and `LVM_LE` being `<`. -/
def lvmCompare (op : Nat) (a b : Int32) : Except (Option Nat) Nat :=
  if op = LVM_EQ then pure (if a = b then 1 else 0)
  else if op = LVM_NEQ then pure (if a ≠ b then 1 else 0)
  else if op = LVM_GE then pure (if a > b then 1 else 0)
  else if op = LVM_GEQ then pure (if a ≥ b then 1 else 0)
  else if op = LVM_LE then pure (if a < b then 1 else 0)
  else if op = LVM_LEQ then pure (if a ≤ b then 1 else 0)
  else .error (some EXECUTION_ERROR)

/-- One argument of a connective in `eval_logic`: it must be a comparison node. -/
def lvmLogicArg (logic : Nat → Nat → Except (Option Nat) (Nat × Nat)) (ip : Nat) :
    Except (Option Nat) (Nat × Nat) :=
  getType L p ip >>= fun r =>
  if r.1 ≠ LVM_CMP_OP then .error (some SEMANTIC_ERROR)
  else getOperator L p r.2 >>= fun o => logic o.1 o.2

/-- `eval_logic` of the operator `op` whose arguments start at `ip`, for at most `fuel` nested
nodes. -/
def evalLogic (vals : Nat → Int32) : Nat → Nat → Nat → Except (Option Nat) (Nat × Nat)
  | 0, _, _ => .error none
  | fuel + 1, op, ip =>
    if op &&& LVM_CONNECTIVE ≠ 0 then
      if op = LVM_NOT then
        lvmLogicArg L p (evalLogic vals fuel) ip >>= fun r => pure (if r.1 = 0 then 1 else 0, r.2)
      else
        lvmLogicArg L p (evalLogic vals fuel) ip >>= fun r₀ =>
        lvmLogicArg L p (evalLogic vals fuel) r₀.2 >>= fun r₁ =>
        pure (if op = LVM_AND then (if r₀.1 = LVM_TRUE ∧ r₁.1 = LVM_TRUE then 1 else 0)
          else (if r₀.1 = LVM_TRUE ∨ r₁.1 = LVM_TRUE then 1 else 0), r₁.2)
    else
      lvmArg L p vals (evalExpr L p vals fuel) ip >>= fun a =>
      lvmArg L p vals (evalExpr L p vals fuel) a.2 >>= fun b =>
      lvmCompare op a.1 b.1 >>= fun r => pure (r, b.2)

theorem evalLogic_comparison {vals : Nat → Int32} {fuel op ip : Nat}
    (hop : op &&& LVM_CONNECTIVE = 0) :
    evalLogic L p vals (fuel + 1) op ip =
      (lvmArg L p vals (evalExpr L p vals fuel) ip >>= fun a =>
        lvmArg L p vals (evalExpr L p vals fuel) a.2 >>= fun b =>
        lvmCompare op a.1 b.1 >>= fun r => pure (r, b.2)) := by
  rw [evalLogic, if_neg (by simp [hop])]

/-- `lvm_execute`, with the values `lvm_set_operand_value` gave the variables. Every node read
moves `ip` on, so DB_VM_BYTECODE_SIZE nodes are as many as the buffer holds. -/
def lvmExecute (vals : Nat → Int32) : Except (Option Nat) Nat :=
  if p.overflow then .error none
  else
    getType L p 0 >>= fun r =>
    if r.1 = LVM_CMP_OP then
      getOperator L p r.2 >>= fun o =>
      (evalLogic L p vals DB_VM_BYTECODE_SIZE o.1 o.2) >>= fun s => pure s.1
    else .error (some EXECUTION_ERROR)

end Exec

end TizenRT.Aql
