import TizenRT.Aql.Lvm
import Mathlib

set_option autoImplicit false

/-!
Attribute values of arastorage and their bytes in a tuple (result.c): `db_value_to_phy` writes a
value into the element of its attribute, `db_phy_to_value` reads it back, and
`lvm_set_operand_value` (lvm.c) reads the same bytes into the variable of a WHERE predicate.
`int` and `long` are the target's 32 bits; a `DOMAIN_INT` element is 2 bytes and a `DOMAIN_LONG`
one 4, both big-endian. A store into `unsigned char` keeps the value modulo 256, and a 32-bit
word put into a `long` is read as two's complement, as the target's compiler does.
-/

namespace TizenRT.Aql

inductive Domain where
  | string
  | int
  | long
  | double
  deriving DecidableEq, Repr

structure Attribute where
  name : String
  domain : Domain
  element_size : Nat

/-- `attribute_value_t`: the member of its union that the attribute's domain selects. A double
is the text `atof` reads, left unconverted. -/
inductive AttributeValue where
  | string (s : List UInt8)
  | int (v : Int)
  | long (v : Int)
  | double (text : List UInt8)
  deriving DecidableEq, Repr

def intByte (x : Int) : UInt8 := (x % 256).toNat.toUInt8

def signed32 (w : Nat) : Int := if w < 2 ^ 31 then w else (w : Int) - 2 ^ 32

/-- `db_value_to_phy`; `none` is DB_TYPE_ERROR. A value is taken in the member its attribute's
domain names; a value of another domain is not modelled and gives `none` as well. -/
def dbValueToPhy (attr : Attribute) (value : AttributeValue) : Option (List UInt8) :=
  match attr.domain, value with
  | .string, .string s =>
    some ((List.range attr.element_size).map fun i => if i = attr.element_size - 1 then 0 else s.getD i 0)
  | .int, .int v => some [intByte (v >>> (8 : Nat)),intByte v]
  | .long, .long v => some [intByte (v >>> (24 : Nat)),intByte (v >>> (16 : Nat)),intByte (v >>> (8 : Nat)),intByte v]
  | _, _ => none

theorem dbValueToPhy_int {attr : Attribute} (h : attr.domain = .int) (v : Int) :
    dbValueToPhy attr (.int v) = some [intByte (v >>> (8 : Nat)),intByte v] := by
  obtain ⟨_,_,_⟩ := attr
  subst h
  rfl

theorem dbValueToPhy_long {attr : Attribute} (h : attr.domain = .long) (v : Int) :
    dbValueToPhy attr (.long v) =
      some [intByte (v >>> (24 : Nat)),intByte (v >>> (16 : Nat)),intByte (v >>> (8 : Nat)),intByte v] := by
  obtain ⟨_,_,_⟩ := attr
  subst h
  rfl

/-- `db_phy_to_value` on the element `ptr`; `none` is DB_TYPE_ERROR. A string is cut by a NUL in
the last byte of its element, which `db_phy_to_value` writes into `ptr` itself. -/
def dbPhyToValue (attr : Attribute) (ptr : List UInt8) : Option AttributeValue :=
  match attr.domain with
  | .string => some (.string (ptr.set (attr.element_size - 1) 0))
  | .int => some (.int (((ptr.getD 0 0).toNat <<< 8 ||| (ptr.getD 1 0).toNat : Nat)))
  | .long =>
    some (.long (signed32 ((ptr.getD 0 0).toNat <<< 24 ||| (ptr.getD 1 0).toNat <<< 16 |||
      (ptr.getD 2 0).toNat <<< 8 ||| (ptr.getD 3 0).toNat)))
  | .double => some (.double ptr)

theorem dbPhyToValue_int {attr : Attribute} (h : attr.domain = .int) (ptr : List UInt8) :
    dbPhyToValue attr ptr = some (.int (((ptr.getD 0 0).toNat <<< 8 ||| (ptr.getD 1 0).toNat : Nat))) := by
  obtain ⟨_,_,_⟩ := attr
  subst h
  rfl

theorem dbPhyToValue_long {attr : Attribute} (h : attr.domain = .long) (ptr : List UInt8) :
    dbPhyToValue attr ptr =
      some (.long (signed32 ((ptr.getD 0 0).toNat <<< 24 ||| (ptr.getD 1 0).toNat <<< 16 |||
        (ptr.getD 2 0).toNat <<< 8 ||| (ptr.getD 3 0).toNat))) := by
  obtain ⟨_,_,_⟩ := attr
  subst h
  rfl

/-- The `operand_value.l` that `lvm_set_operand_value` reads from the bytes `value`; it sets
nothing for the other domains. -/
def lvmOperandValue (domain : Domain) (value : List UInt8) : Option Int :=
  match domain with
  | .int => some (((value.getD 0 0).toNat <<< 8 ||| (value.getD 1 0).toNat : Nat))
  | .long =>
    some (signed32 ((value.getD 0 0).toNat <<< 24 ||| (value.getD 1 0).toNat <<< 16 |||
      (value.getD 2 0).toNat <<< 8 ||| (value.getD 3 0).toNat))
  | _ => none

/-- `lvm_set_operand_value`: the variable named by the attribute takes the value read, as a
`long`, unless the name has no slot (`lvm_set_variable_value` gives INVALID_IDENTIFIER). -/
def lvmSetOperandValue (p : Lvm) (vals : Nat → Int32) (attr : Attribute) (value : List UInt8) :
    Nat → Int32 :=
  match lvmOperandValue attr.domain value with
  | some l =>
    if lvmLookup p attr.name = LVM_MAX_VARIABLE_ID then vals
    else Function.update vals (lvmLookup p attr.name) l.toInt32
  | none => vals

theorem toNat_intByte (x : Int) : ((intByte x).toNat : Int) = x % 256 := by
  simp only [intByte,Nat.toUInt8_eq,UInt8.toNat_ofNat']
  omega

theorem shiftLeft_or_byte {a b : Nat} (hb : b < 256) (i : Nat) :
    a <<< (i + 8) ||| b <<< i = (a * 256 + b) <<< i := by
  rw [Nat.add_comm i 8,Nat.shiftLeft_add a 8 i,← Nat.shiftLeft_or_distrib,
    ← Nat.shiftLeft_add_eq_or_of_lt (show b < 2 ^ 8 from hb) a,Nat.shiftLeft_eq a 8]

theorem word16_eq (b₀ b₁ : UInt8) : b₀.toNat <<< 8 ||| b₁.toNat = b₀.toNat * 256 + b₁.toNat := by
  have h := shiftLeft_or_byte (a := b₀.toNat) b₁.toNat_lt 0
  simpa using h

theorem word32_eq (b₀ b₁ b₂ b₃ : UInt8) :
    b₀.toNat <<< 24 ||| b₁.toNat <<< 16 ||| b₂.toNat <<< 8 ||| b₃.toNat =
      ((b₀.toNat * 256 + b₁.toNat) * 256 + b₂.toNat) * 256 + b₃.toNat := by
  rw [shiftLeft_or_byte (a := b₀.toNat) b₁.toNat_lt 16,
    shiftLeft_or_byte (a := b₀.toNat * 256 + b₁.toNat) b₂.toNat_lt 8]
  simpa using shiftLeft_or_byte (a := (b₀.toNat * 256 + b₁.toNat) * 256 + b₂.toNat) b₃.toNat_lt 0

theorem toNat_intByte_shiftRight (v : Int) (k : Nat) : ((intByte (v >>> k)).toNat : Int) = v / 2 ^ k % 256 := by
  rw [toNat_intByte,Int.shiftRight_eq_div_pow]
  norm_cast

theorem word16_intByte (v : Int) :
    (((intByte (v >>> (8 : Nat))).toNat <<< 8 ||| (intByte v).toNat : Nat) : Int) = v % 65536 := by
  have h₀ := toNat_intByte_shiftRight v 8
  have h₁ := toNat_intByte v
  rw [word16_eq]
  push_cast
  omega

theorem word32_intByte (v : Int) :
    (((intByte (v >>> (24 : Nat))).toNat <<< 24 ||| (intByte (v >>> (16 : Nat))).toNat <<< 16 |||
      (intByte (v >>> (8 : Nat))).toNat <<< 8 ||| (intByte v).toNat : Nat) : Int) = v % 2 ^ 32 := by
  have h₀ := toNat_intByte_shiftRight v 24
  have h₁ := toNat_intByte_shiftRight v 16
  have h₂ := toNat_intByte_shiftRight v 8
  have h₃ := toNat_intByte v
  rw [word32_eq]
  push_cast
  omega

theorem signed32_emod {v : Int} (hlo : -2 ^ 31 ≤ v) (hhi : v < 2 ^ 31) : signed32 (v % 2 ^ 32).toNat = v := by
  unfold signed32
  split <;> omega

section RoundTrip

variable {attr : Attribute}

theorem dbPhyToValue_dbValueToPhy_int (h : attr.domain = .int) (v : Int) :
    (dbValueToPhy attr (.int v)).bind (dbPhyToValue attr) = some (.int (v % 65536)) := by
  rw [dbValueToPhy_int h,Option.bind_some,dbPhyToValue_int h]
  simp only [List.getD_cons_zero,List.getD_cons_succ,word16_intByte]

theorem lvmOperandValue_dbValueToPhy_int (h : attr.domain = .int) (v : Int) :
    (dbValueToPhy attr (.int v)).bind (lvmOperandValue attr.domain) = some (v % 65536) := by
  rw [dbValueToPhy_int h,Option.bind_some,h]
  exact congrArg some (word16_intByte v)

theorem dbPhyToValue_dbValueToPhy_long (h : attr.domain = .long) {v : Int} (hlo : -2 ^ 31 ≤ v)
    (hhi : v < 2 ^ 31) : (dbValueToPhy attr (.long v)).bind (dbPhyToValue attr) = some (.long v) := by
  rw [dbValueToPhy_long h,Option.bind_some,dbPhyToValue_long h]
  simp only [List.getD_cons_zero,List.getD_cons_succ]
  rw [← Int.toNat_natCast (_ ||| _),word32_intByte,signed32_emod hlo hhi]

theorem lvmOperandValue_dbValueToPhy_long (h : attr.domain = .long) {v : Int} (hlo : -2 ^ 31 ≤ v)
    (hhi : v < 2 ^ 31) : (dbValueToPhy attr (.long v)).bind (lvmOperandValue attr.domain) = some v := by
  rw [dbValueToPhy_long h,Option.bind_some,h]
  show some (signed32 _) = _
  simp only [List.getD_cons_zero,List.getD_cons_succ]
  rw [← Int.toNat_natCast (_ ||| _),word32_intByte,signed32_emod hlo hhi]

/-- Both decoders read a `DOMAIN_LONG` value of 32 bits back from its element as it was written. -/
theorem db_long_round_trip (h : attr.domain = .long) {v : Int} (hlo : -2 ^ 31 ≤ v) (hhi : v < 2 ^ 31) :
    (dbValueToPhy attr (.long v)).bind (dbPhyToValue attr) = some (.long v) ∧
      (dbValueToPhy attr (.long v)).bind (lvmOperandValue attr.domain) = some v :=
  ⟨dbPhyToValue_dbValueToPhy_long h hlo hhi,lvmOperandValue_dbValueToPhy_long h hlo hhi⟩

end RoundTrip

theorem db_long_round_trip_min :
    ((⟨"a",.long,4⟩ : Attribute).domain = .long ∧ (-2 ^ 31 : Int) ≤ -2 ^ 31 ∧ (-2 ^ 31 : Int) < 2 ^ 31) ∧
      (dbValueToPhy ⟨"a",.long,4⟩ (.long (-2 ^ 31))).bind (dbPhyToValue ⟨"a",.long,4⟩) =
        some (.long (-2 ^ 31)) ∧
      (dbValueToPhy ⟨"a",.long,4⟩ (.long (-2 ^ 31))).bind (lvmOperandValue .long) = some (-2 ^ 31) :=
  ⟨⟨rfl,le_rfl,by decide⟩,db_long_round_trip rfl le_rfl (by decide)⟩

/-- A negative `DOMAIN_INT` value that fits the element's 2 bytes is read back by both decoders as
its 16-bit pattern without sign extension, 2^16 above what was written. -/
theorem db_int_negative_reads_unsigned (attr : Attribute) (h : attr.domain = .int) {v : Int}
    (hlo : -32768 ≤ v) (hneg : v < 0) :
    (dbValueToPhy attr (.int v)).bind (dbPhyToValue attr) = some (.int (v + 65536)) ∧
      (dbValueToPhy attr (.int v)).bind (lvmOperandValue attr.domain) = some (v + 65536) := by
  have hmod : v % 65536 = v + 65536 := by omega
  rw [dbPhyToValue_dbValueToPhy_int h,lvmOperandValue_dbValueToPhy_int h,hmod]
  exact ⟨rfl,rfl⟩

theorem db_int_negative_reads_unsigned_minus_one :
    ((⟨"a",.int,2⟩ : Attribute).domain = .int ∧ (-32768 : Int) ≤ -1 ∧ (-1 : Int) < 0) ∧
      (dbValueToPhy ⟨"a",.int,2⟩ (.int (-1))).bind (dbPhyToValue ⟨"a",.int,2⟩) = some (.int 65535) ∧
      (dbValueToPhy ⟨"a",.int,2⟩ (.int (-1))).bind (lvmOperandValue .int) = some 65535 :=
  ⟨⟨rfl,by decide,by decide⟩,db_int_negative_reads_unsigned ⟨"a",.int,2⟩ rfl (by decide) (by decide)⟩

end TizenRT.Aql
