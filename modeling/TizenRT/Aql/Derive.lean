import Mathlib
import TizenRT.Aql.Parser

set_option autoImplicit false

/-!
Range derivation in the logic VM of arastorage (lvm.c `derive_relation`, `lvm_derive`): from
the bytecode of a WHERE clause, the range `[min, max]` each attribute variable is to lie in.
`relation_select` calls `lvm_derive` once the clause is parsed, and when it succeeds
`select_index` scans an indexed attribute only over its derived range (`lvm_get_derived_range`).
-/

namespace TizenRT.Aql

def INVALID_IDENTIFIER : Nat := 2
def DERIVATION_ERROR : Nat := 9

/-- `DB_LONG_MAX` and `DB_LONG_MIN`: `LONG_MAX` and `LONG_MIN + 1` of the 32-bit target. -/
def DB_LONG_MAX : Int32 := 2147483647
def DB_LONG_MIN : Int32 := -2147483647

structure Derivation where
  min : Int32
  max : Int32
  derived : Bool
  deriving DecidableEq, Repr

/-- An array of `derivation_t` as `memset` leaves it. Slots from `LVM_MAX_VARIABLE_ID` on stand
for no slot of the array: nothing below reads or writes them. -/
def noDerivations : Nat → Derivation := fun _ => ⟨0, 0, false⟩

/-- The loop of `create_intersection` and `create_union`: a variable derived on one side takes
that side's range, one derived on both takes `lo` of the two minima and `hi` of the two maxima,
and one derived on neither keeps its slot of `result`. -/
def combineDerivations (lo hi : Int32 → Int32 → Int32) (result d1 d2 : Nat → Derivation) :
    Nat → Derivation := fun i =>
  if i < LVM_MAX_VARIABLE_ID then
    if !(d1 i).derived && !(d2 i).derived then result i
    else if (d1 i).derived && !(d2 i).derived then ⟨(d1 i).min, (d1 i).max, true⟩
    else if !(d1 i).derived && (d2 i).derived then ⟨(d2 i).min, (d2 i).max, true⟩
    else ⟨lo (d1 i).min (d2 i).min, hi (d1 i).max (d2 i).max, true⟩
  else result i

/-- `create_intersection`: the larger minimum and the smaller maximum. -/
def createIntersection (result d1 d2 : Nat → Derivation) : Nat → Derivation :=
  combineDerivations (fun m₁ m₂ => if m₁ > m₂ then m₁ else m₂)
    (fun m₁ m₂ => if m₁ < m₂ then m₁ else m₂) result d1 d2

/-- `create_union`: the smaller minimum and the larger maximum. -/
def createUnion (result d1 d2 : Nat → Derivation) : Nat → Derivation :=
  combineDerivations (fun m₁ m₂ => if m₁ > m₂ then m₂ else m₁)
    (fun m₁ m₂ => if m₁ < m₂ then m₂ else m₁) result d1 d2

/-- `value.id` of an operand: a long's is its low byte, the target being little-endian. -/
def Operand.valueId : Operand → Nat
  | .variable id => id
  | .long l => (l.toInt % 256).toNat

/-- `value.l` of an operand. `derive_relation` reads it of a long only. -/
def Operand.valueL : Operand → Int32
  | .variable id => Int32.ofNat id
  | .long l => l

/-- The range of `derive_relation` for the operator `op` and the value `value`, read as
`variable op value`; none for an operator it has no case for. `value + 1` and `value - 1` wrap
as the `long` arithmetic of the source does. -/
def deriveRange (op : Nat) (value : Int32) : Option (Int32 × Int32) :=
  if op = LVM_EQ then some (value, value)
  else if op = LVM_GE then some (value + 1, DB_LONG_MAX)
  else if op = LVM_GEQ then some (value, DB_LONG_MAX)
  else if op = LVM_LE then some (DB_LONG_MIN, value - 1)
  else if op = LVM_LEQ then some (DB_LONG_MIN, value)
  else none

/-- The comparison case of `derive_relation`, on its two operands: the variable is the first
operand if it is one and else the second, the value is the other. On an error the source has
already set the variable's default range, but not `derived`, so nothing reads it. -/
def deriveComparison (op : Nat) (a b : Operand) (ds : Nat → Derivation) :
    Except (Option Nat) (Nat → Derivation) :=
  if a.type = LVM_VARIABLE ∧ b.type = LVM_VARIABLE then .error (some DERIVATION_ERROR)
  else
    let variableId := if a.type = LVM_VARIABLE then a.valueId else b.valueId
    let value := if a.type = LVM_VARIABLE then b.valueL else a.valueL
    if variableId ≥ LVM_MAX_VARIABLE_ID then .error (some DERIVATION_ERROR)
    else
      match deriveRange op value with
      | some (lo, hi) => pure (Function.update ds variableId ⟨lo, hi, true⟩)
      | none => .error (some DERIVATION_ERROR)

section Derive

variable (L : LvmLayout) (p : Lvm)

/-- An operand of a comparison in `derive_relation`: it must be an operand node. -/
def deriveOperand (ip : Nat) : Except (Option Nat) (Operand × Nat) :=
  getType L p ip >>= fun r =>
  if r.1 = LVM_OPERAND then getOperand L p r.2 else .error (some DERIVATION_ERROR)

/-- `derive_relation` of the node at `ip` into `ds`, for at most `fuel` nested nodes. The node
type is read and not checked. A connective derives its sides into two fresh arrays and writes
`ds` only when both succeed. -/
def deriveRelation : Nat → (Nat → Derivation) → Nat →
    Except (Option Nat) ((Nat → Derivation) × Nat)
  | 0, _, _ => .error none
  | fuel + 1, ds, ip =>
    getType L p ip >>= fun t =>
    getOperator L p t.2 >>= fun o =>
    if o.1 &&& LVM_CONNECTIVE ≠ 0 then
      if o.1 ≠ LVM_AND ∧ o.1 ≠ LVM_OR then .error (some DERIVATION_ERROR)
      else
        deriveRelation fuel noDerivations o.2 >>= fun r₁ =>
        deriveRelation fuel noDerivations r₁.2 >>= fun r₂ =>
        pure (if o.1 = LVM_AND then createIntersection ds r₁.1 r₂.1
          else createUnion ds r₁.1 r₂.1, r₂.2)
    else
      deriveOperand L p o.2 >>= fun a =>
      deriveOperand L p a.2 >>= fun b =>
      deriveComparison o.1 a.1 b.1 ds >>= fun ds => pure (ds, b.2)

/-- `lvm_derive` on a parsed clause: `lvm_reset` left `ip` at 0 and no derivations, and the
parser moves neither. -/
def lvmDerive : Except (Option Nat) (Nat → Derivation) :=
  if p.overflow then .error none
  else deriveRelation L p DB_VM_BYTECODE_SIZE noDerivations 0 >>= fun r => pure r.1

end Derive

/-- `lvm_get_derived_range`: the first of the `LVM_MAX_VARIABLE_ID` slots whose name is `name`
(a free slot's is empty), and its range if it was derived. -/
def lvmGetDerivedRange («variables» : List String) (ds : Nat → Derivation) (name : String) :
    Except Nat (Int32 × Int32) :=
  match (List.range LVM_MAX_VARIABLE_ID).find? (fun i => «variables».getD i "" = name) with
  | some i => if (ds i).derived then .ok ((ds i).min, (ds i).max) else .error DERIVATION_ERROR
  | none => .error INVALID_IDENTIFIER


/-- The derivations hold of the variables' values `vals`: each derived variable lies in its
range. -/
def DerivationsHold (ds : Nat → Derivation) (vals : Nat → Int32) : Prop :=
  ∀ i < LVM_MAX_VARIABLE_ID, (ds i).derived = true → (ds i).min ≤ vals i ∧ vals i ≤ (ds i).max

instance (ds : Nat → Derivation) (vals : Nat → Int32) : Decidable (DerivationsHold ds vals) :=
  inferInstanceAs (Decidable (∀ i < LVM_MAX_VARIABLE_ID, _))

theorem toInt_add_one_of_lt {c : Int32} (hc : c < DB_LONG_MAX) : (c + 1).toInt = c.toInt + 1 := by
  have hlo := Int32.le_toInt c
  rw [Int32.lt_iff_toInt_lt] at hc
  rw [Int32.toInt_add]
  exact Int.bmod_eq_of_le (by simp; omega) (by simp [DB_LONG_MAX] at hc ⊢; omega)

theorem deriveComparison_long_variable (op : Nat) (c : Int32) (x : Nat) (ds : Nat → Derivation) :
    deriveComparison op (.long c) (.variable x) ds =
      deriveComparison op (.variable x) (.long c) ds := by
  simp [deriveComparison, Operand.type, Operand.valueId, Operand.valueL, LVM_VARIABLE, LVM_LONG]

theorem deriveComparison_variable_long {op x : Nat} {c lo hi : Int32} {ds : Nat → Derivation}
    (hx : x < LVM_MAX_VARIABLE_ID) (hr : deriveRange op c = some (lo, hi)) :
    deriveComparison op (.variable x) (.long c) ds = .ok (Function.update ds x ⟨lo, hi, true⟩) := by
  simp [deriveComparison, Operand.type, Operand.valueId, Operand.valueL, LVM_VARIABLE, LVM_LONG,
    Nat.not_le.mpr hx, hr]

/-- `p` holds the bytecode of one comparison `op` of the operands `a` and `b` from offset 0, as
the parser lays it out: the node type and the operator, then each operand after its node type. -/
structure ComparisonCode (L : LvmLayout) (p : Lvm) (op : Nat) (a b : Operand) : Prop where
  fits : 4 * L.tag + 2 * L.operand ≤ DB_VM_BYTECODE_SIZE
  noOverflow : p.overflow = false
  relation : p.code 0 = some (.tag LVM_CMP_OP)
  operator : p.code L.tag = some (.tag op)
  typeA : p.code (2 * L.tag) = some (.tag LVM_OPERAND)
  operandA : p.code (3 * L.tag) = some (.operand a)
  typeB : p.code (3 * L.tag + L.operand) = some (.tag LVM_OPERAND)
  operandB : p.code (4 * L.tag + L.operand) = some (.operand b)

section Comparison

variable {L : LvmLayout} {p : Lvm} {op : Nat} {a b : Operand}

theorem deriveOperand_operand {ip ip' ip'' : Nat} {o : Operand}
    (ht : getType L p ip = .ok (LVM_OPERAND, ip')) (ho : getOperand L p ip' = .ok (o, ip'')) :
    deriveOperand L p ip = .ok (o, ip'') := by
  simp [deriveOperand, ht, ho]

theorem deriveRelation_comparison {fuel t ip ip₁ ip₂ : Nat} {ds : Nat → Derivation}
    (ht : getType L p ip = .ok (t, ip₁)) (ho : getOperator L p ip₁ = .ok (op, ip₂))
    (hop : op &&& LVM_CONNECTIVE = 0) :
    deriveRelation L p (fuel + 1) ds ip =
      (deriveOperand L p ip₂ >>= fun a => deriveOperand L p a.2 >>= fun b =>
        deriveComparison op a.1 b.1 ds >>= fun ds => pure (ds, b.2)) := by
  rw [deriveRelation, ht, Except.ok_bind, ho, Except.ok_bind, if_neg (by simp [hop])]

theorem ComparisonCode.lvmExecute_eq (h : ComparisonCode L p op a b)
    (hop : op &&& LVM_CONNECTIVE = 0) (vals : Nat → Int32) :
    lvmExecute L p vals = lvmCompare op (operandToLong vals a) (operandToLong vals b) := by
  have hf := h.fits
  have e1 : 0 + L.tag = L.tag := by omega
  have e2 : L.tag + L.tag = 2 * L.tag := by omega
  have e3 : 2 * L.tag + L.tag = 3 * L.tag := by omega
  have e4 : 3 * L.tag + L.operand + L.tag = 4 * L.tag + L.operand := by omega
  have h0 := getType_tag L p h.relation (by omega)
  have h1 := getOperator_tag L p h.operator (by omega)
  have hA := @lvmArg_operand L p vals (evalExpr L p vals 31) _ _ _ _
    (getType_tag L p h.typeA (by omega)) (getOperand_operand L p (e3 ▸ h.operandA) (by omega))
  have hB := @lvmArg_operand L p vals (evalExpr L p vals 31) _ _ _ _
    (getType_tag L p h.typeB (by omega)) (getOperand_operand L p (e4 ▸ h.operandB) (by omega))
  rw [e1] at h0
  rw [e2] at h1
  rw [e3] at hA
  rw [e4] at hB
  rw [lvmExecute, h.noOverflow, if_neg Bool.false_ne_true, h0, Except.ok_bind, if_pos rfl, h1,
    Except.ok_bind, show DB_VM_BYTECODE_SIZE = 31 + 1 from rfl, evalLogic_comparison L p hop, hA,
    Except.ok_bind, hB, Except.ok_bind]
  cases lvmCompare op (operandToLong vals a) (operandToLong vals b) <;> rfl

theorem ComparisonCode.lvmDerive_eq (h : ComparisonCode L p op a b)
    (hop : op &&& LVM_CONNECTIVE = 0) :
    lvmDerive L p = deriveComparison op a b noDerivations := by
  have hf := h.fits
  have e1 : 0 + L.tag = L.tag := by omega
  have e2 : L.tag + L.tag = 2 * L.tag := by omega
  have e3 : 2 * L.tag + L.tag = 3 * L.tag := by omega
  have e4 : 3 * L.tag + L.operand + L.tag = 4 * L.tag + L.operand := by omega
  have h0 := getType_tag L p h.relation (by omega)
  have h1 := getOperator_tag L p h.operator (by omega)
  have hA := deriveOperand_operand (getType_tag L p h.typeA (by omega))
    (getOperand_operand L p (e3 ▸ h.operandA) (by omega))
  have hB := deriveOperand_operand (getType_tag L p h.typeB (by omega))
    (getOperand_operand L p (e4 ▸ h.operandB) (by omega))
  rw [e1] at h0
  rw [e2] at h1
  rw [e3] at hA
  rw [e4] at hB
  rw [lvmDerive, h.noOverflow, if_neg Bool.false_ne_true,
    show DB_VM_BYTECODE_SIZE = 31 + 1 from rfl, deriveRelation_comparison h0 h1 hop, hA,
    Except.ok_bind, hB, Except.ok_bind]
  cases deriveComparison op a b noDerivations <;> rfl

theorem lvmGetDerivedRange_head {«variables» rest : List String} {name : String}
    {ds : Nat → Derivation} (hname : «variables» = name :: rest) (hd : (ds 0).derived = true) :
    lvmGetDerivedRange «variables» ds name = .ok ((ds 0).min, (ds 0).max) := by
  subst hname
  simp [lvmGetDerivedRange, LVM_MAX_VARIABLE_ID, AQL_ATTRIBUTE_LIMIT, List.range_succ_eq_map, hd]

/-- The clause `c > a`: `lvm_execute` is true of every value of `a` below `c`, while
`lvm_derive` reads it as `a > c` and gives `a` the range `[c + 1, DB_LONG_MAX]` that
`select_index` scans the index over. At `c = LONG_MAX` the bound `c + 1` wraps to `LONG_MIN`, and
that range holds of every value. -/
theorem lvmDerive_reversed_comparison_unsound {c : Int32} {name : String} {rest : List String}
    (h : ComparisonCode L p LVM_GE (.long c) (.variable 0)) (hname : p.«variables» = name :: rest)
    (vals : Nat → Int32) (hv : vals 0 < c) (hc : c < DB_LONG_MAX) :
    lvmExecute L p vals = .ok LVM_TRUE ∧
      ∃ ds, lvmDerive L p = .ok ds ∧
        lvmGetDerivedRange p.«variables» ds name = .ok (c + 1, DB_LONG_MAX) ∧
        ¬ DerivationsHold ds vals := by
  have hop : LVM_GE &&& LVM_CONNECTIVE = 0 := by decide
  have hr : deriveRange LVM_GE c = some (c + 1, DB_LONG_MAX) := rfl
  refine ⟨?_, Function.update noDerivations 0 ⟨c + 1, DB_LONG_MAX, true⟩, ?_, ?_, ?_⟩
  · rw [h.lvmExecute_eq hop]
    simp [lvmCompare, operandToLong, LVM_GE, LVM_EQ, LVM_NEQ, LVM_TRUE, hv]
  · rw [h.lvmDerive_eq hop, deriveComparison_long_variable]
    exact deriveComparison_variable_long (by decide) hr
  · exact lvmGetDerivedRange_head hname rfl
  · intro hds
    have hmin := (hds 0 (by decide) rfl).1
    simp only [Function.update_self, Int32.le_iff_toInt_le, toInt_add_one_of_lt hc] at hmin
    rw [Int32.lt_iff_toInt_lt] at hv
    omega

end Comparison

theorem lvmDerive_reversed_comparison_unsound_five_gt_a :
    ∃ p, p = (aqlParseWhere (lvmOps ⟨4, 8⟩) [.integer 5, .gt, .identifier "a"] lvmReset).2.2 ∧
      ComparisonCode ⟨4, 8⟩ p LVM_GE (.long 5) (.variable 0) ∧ p.«variables» = ["a"] ∧
      (fun _ => 0 : Nat → Int32) 0 < 5 ∧ (5 : Int32) < DB_LONG_MAX ∧
      (lvmExecute ⟨4, 8⟩ p (fun _ => 0) = .ok LVM_TRUE ∧
        ∃ ds, lvmDerive ⟨4, 8⟩ p = .ok ds ∧
          lvmGetDerivedRange p.«variables» ds "a" = .ok (5 + 1, DB_LONG_MAX) ∧
          ¬ DerivationsHold ds (fun _ => 0)) := by
  have hcode : ComparisonCode ⟨4, 8⟩
      (aqlParseWhere (lvmOps ⟨4, 8⟩) [.integer 5, .gt, .identifier "a"] lvmReset).2.2
      LVM_GE (.long 5) (.variable 0) :=
    ⟨by decide, rfl, rfl, rfl, rfl, rfl, rfl, rfl⟩
  exact ⟨_, rfl, hcode, rfl, by decide, by decide,
    lvmDerive_reversed_comparison_unsound hcode rfl _ (by decide) (by decide)⟩

end TizenRT.Aql
