import Mathlib
import TizenRT.Lib.Segment

set_option autoImplicit false

/-!
`qsort` (lib_qsort.c), Bentley and McIlroy's: insertion sort below 7 entries, else a pivot by
median of three (of three medians above 40 entries) swapped to the front, a three-way partition
that keeps entries equal to the pivot at both ends, `vecswap` of those to the middle, a recursive
call on the part below the pivot and a `goto loop` on the part above it; a partition that swapped
nothing falls back to insertion sort.

The array is a function on `Fin len`, an entry a value of `α`. Pointers are the indices of their
entries from `base`: every pointer the source forms is `base` plus a multiple of `size`, and
`swapcode`, by `long` words or by bytes as `SWAPINIT` finds the alignment, exchanges the `size`
bytes of two entries either way, so `swap` and `vecswap` exchange entries. Every read of an entry,
for `compar` or for a swap, is checked against the array: `none` where one would fall outside it.
The pointer differences the source keeps in `int d, r` are exact, as an object is smaller than
2^31 bytes on the 32-bit targets. `qsortAux` also returns the nesting depth of the calls, the
`goto loop` counted in the frame that takes it.
-/

namespace TizenRT.Stdlib

open Segment

section Qsort

variable {α : Type} (cmp : α → α → Int) {len : Nat}

def cmpAt (mem : Fin len → α) (i j : Nat) : Option Int :=
  if h : i < len ∧ j < len then some (cmp (mem ⟨i, h.1⟩) (mem ⟨j, h.2⟩)) else none

def swapAt (mem : Fin len → α) (i j : Nat) : Option (Fin len → α) :=
  if h : i < len ∧ j < len then some (mem ∘ Equiv.swap ⟨i, h.1⟩ ⟨j, h.2⟩) else none

/-- `vecswap(base + i, base + j, k)`: the `k` entries from `i` and from `j` exchanged in turn, from
the front. -/
def vecswap : (Fin len → α) → Nat → Nat → Nat → Option (Fin len → α)
  | mem, _, _, 0 => some mem
  | mem, i, j, k + 1 => (swapAt mem i j).bind fun mem => vecswap mem (i + 1) (j + 1) k

/-- `med3(a, b, c)`: the index of the median, `compar(a, b)` first. -/
def med3 (mem : Fin len → α) (a b c : Nat) : Option Nat := do
  let ab ← cmpAt cmp mem a b
  if ab < 0 then
    let bc ← cmpAt cmp mem b c
    if bc < 0 then pure b
    else
      let ac ← cmpAt cmp mem a c
      pure (if ac < 0 then c else a)
  else
    let bc ← cmpAt cmp mem b c
    if bc > 0 then pure b
    else
      let ac ← cmpAt cmp mem a c
      pure (if ac < 0 then a else c)

/-- The inner insertion loop `for (pl = pm; pl > base && compar(pl - size, pl) > 0; pl -= size)
swap(pl, pl - size)` at `pl = lo + k`. -/
def insertionInner (lo : Nat) : (Fin len → α) → Nat → Option (Fin len → α)
  | mem, 0 => some mem
  | mem, k + 1 => do
    let r ← cmpAt cmp mem (lo + k) (lo + k + 1)
    if r > 0 then (swapAt mem (lo + k + 1) (lo + k)).bind fun mem => insertionInner lo mem k
    else pure mem

/-- The insertion sort of the `n` entries from `lo`, with `pm = lo + k` for `k` from 1. -/
def insertionSort (lo n : Nat) (mem : Fin len → α) : Option (Fin len → α) :=
  (List.range' 1 (n - 1)).foldlM (fun mem k => insertionInner cmp lo mem k) mem

/-- The pivot `pm`: the middle entry below 8 entries, the median of the first, middle and last up
to 40, and above that the median of the medians of three spread triples. -/
def pivotIndex (mem : Fin len → α) (lo n : Nat) : Option Nat :=
  let pm := lo + n / 2
  if n > 7 then
    let pl := lo
    let pn := lo + (n - 1)
    if n > 40 then do
      let d := n / 8
      let pl ← med3 cmp mem pl (pl + d) (pl + 2 * d)
      let pm ← med3 cmp mem (pm - d) pm (pm + d)
      let pn ← med3 cmp mem (pn - 2 * d) (pn - d) pn
      med3 cmp mem pl pm pn
    else med3 cmp mem pl pm pn
  else pure pm

structure Part (α : Type) (len : Nat) where
  mem : Fin len → α
  pa : Nat
  pb : Nat
  pc : Nat
  pd : Nat
  swapCnt : Bool

/-- `while (pb <= pc && (r = compar(pb, base)) <= 0)`: an entry equal to the pivot goes to `pa`. -/
def scanLeft (lo : Nat) : Nat → Part α len → Option (Part α len)
  | 0, _ => none
  | fuel + 1, s =>
    if s.pb ≤ s.pc then do
      let r ← cmpAt cmp s.mem s.pb lo
      if r ≤ 0 then
        if r = 0 then do
          let mem ← swapAt s.mem s.pa s.pb
          scanLeft lo fuel { s with mem, swapCnt := true, pa := s.pa + 1, pb := s.pb + 1 }
        else scanLeft lo fuel { s with pb := s.pb + 1 }
      else pure s
    else pure s

/-- `while (pb <= pc && (r = compar(pc, base)) >= 0)`: an entry equal to the pivot goes to `pd`. -/
def scanRight (lo : Nat) : Nat → Part α len → Option (Part α len)
  | 0, _ => none
  | fuel + 1, s =>
    if s.pb ≤ s.pc then do
      let r ← cmpAt cmp s.mem s.pc lo
      if 0 ≤ r then
        if r = 0 then do
          let mem ← swapAt s.mem s.pc s.pd
          scanRight lo fuel { s with mem, swapCnt := true, pc := s.pc - 1, pd := s.pd - 1 }
        else scanRight lo fuel { s with pc := s.pc - 1 }
      else pure s
    else pure s

/-- The `for (;;)` of the partition: both scans, then a swap of the two entries they stopped at,
until the pointers cross. `fuel` bounds the passes and each scan's steps. -/
def partitionLoop (lo fuel : Nat) : Nat → Part α len → Option (Part α len)
  | 0, _ => none
  | passes + 1, s => do
    let s ← scanLeft cmp lo fuel s
    let s ← scanRight cmp lo fuel s
    if s.pb > s.pc then pure s
    else do
      let mem ← swapAt s.mem s.pb s.pc
      partitionLoop lo fuel passes { s with mem, swapCnt := true, pb := s.pb + 1, pc := s.pc - 1 }

/-- `qsort` from `loop:` on the `n` entries from `lo`: the array, and the nesting depth of the
calls from this one. -/
def qsortAux : Nat → (Fin len → α) → Nat → Nat → Option ((Fin len → α) × Nat)
  | 0, _, _, _ => none
  | fuel + 1, mem, lo, n =>
    if n < 7 then (insertionSort cmp lo n mem).map (·, 1)
    else do
      let pm ← pivotIndex cmp mem lo n
      let mem ← swapAt mem lo pm
      let s ← partitionLoop cmp lo n n ⟨mem, lo + 1, lo + 1, lo + n - 1, lo + n - 1, false⟩
      if !s.swapCnt then (insertionSort cmp lo n s.mem).map (·, 1)
      else do
        let pn := lo + n
        let r := min (s.pa - lo) (s.pb - s.pa)
        let mem ← vecswap s.mem lo (s.pb - r) r
        let r := min (s.pd - s.pc) (pn - s.pd - 1)
        let mem ← vecswap mem s.pb (pn - r) r
        let (mem, dl) ← if s.pb - s.pa > 1 then qsortAux fuel mem lo (s.pb - s.pa) else pure (mem, 0)
        let (mem, dr) ← if s.pd - s.pc > 1 then qsortAux fuel mem (pn - (s.pd - s.pc)) (s.pd - s.pc)
          else pure (mem, 1)
        pure (mem, max (dl + 1) dr)

def qsort (mem : Fin len → α) : Option ((Fin len → α) × Nat) := qsortAux cmp (len + 1) mem 0 len

end Qsort

/-- `compar` as a total preorder `le`: its sign says which of `le a b` and `le b a` hold. -/
structure IsPreorderCmp {α : Type} (cmp : α → α → Int) (le : α → α → Prop) : Prop where
  nonpos_iff : ∀ a b, cmp a b ≤ 0 ↔ le a b
  nonneg_iff : ∀ a b, 0 ≤ cmp a b ↔ le b a
  trans : ∀ a b c, le a b → le b c → le a c
  total : ∀ a b, le a b ∨ le b a

namespace IsPreorderCmp

variable {α : Type} {cmp : α → α → Int} {le : α → α → Prop} (hc : IsPreorderCmp cmp le)
include hc

theorem refl (a : α) : le a a := (hc.total a a).elim id id

theorem le_of_neg {a b : α} (h : cmp a b < 0) : le a b := (hc.nonpos_iff a b).mp h.le

theorem not_le_of_pos {a b : α} (h : 0 < cmp a b) : ¬ le a b := fun h' =>
  absurd ((hc.nonpos_iff a b).mpr h') (not_le.mpr h)

theorem le_of_not_le {a b : α} (h : ¬ le a b) : le b a := (hc.total a b).resolve_left h

theorem cmp_self (a : α) : cmp a a = 0 :=
  le_antisymm ((hc.nonpos_iff a a).mpr (hc.refl a)) ((hc.nonneg_iff a a).mpr (hc.refl a))

theorem le_of_cmp_nonpos_nonneg {a b p : α} (ha : cmp a p ≤ 0) (hb : 0 ≤ cmp b p) : le a b :=
  hc.trans _ _ _ ((hc.nonpos_iff a p).mp ha) ((hc.nonneg_iff b p).mp hb)

end IsPreorderCmp

def intCmp (a b : Int) : Int := if a < b then -1 else if b < a then 1 else 0

theorem intCmp_isPreorderCmp : IsPreorderCmp intCmp (· ≤ ·) where
  nonpos_iff a b := by unfold intCmp; split_ifs <;> omega
  nonneg_iff a b := by unfold intCmp; split_ifs <;> omega
  trans _ _ _ := le_trans
  total := le_total

/-- The left part is sorted by a call whatever its size, and only the right one by `goto loop`: on
these 20 keys (`floor(log2 20) + 1 = 5`) the frames nest 8 deep, the recursive calls under the first
one 7 deep, each partition leaving most of its entries on the left. -/
theorem qsort_depth_exceeds_log :
    qsort intCmp ![19, 0, 4, 3, 6, 8, 10, 12, 14, 16, 18, 5, 11, 2, 13, 7, 15, 1, 17, 9] =
        some (![0, 1, 2, 3, 4, 5, 6, 7, 8, 9, 10, 11, 12, 13, 14, 15, 16, 17, 18, 19], 8) ∧
      Nat.log 2 20 + 1 < 8 - 1 := by
  refine ⟨by decide +kernel, ?_⟩
  rw [Nat.log_eq_of_pow_le_of_lt_pow (show 2 ^ 4 ≤ 20 by norm_num) (by norm_num)]
  norm_num

end TizenRT.Stdlib
