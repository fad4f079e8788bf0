import Mathlib.Logic.Function.Basic

set_option autoImplicit false

/-!
A ring of `cap` slots read at `rd` and written at `wr`, one slot kept empty: the items are those
from `rd` up to `wr`, going round at most once. Writing at `wr` and advancing it appends an item;
advancing `rd` takes the first item off.
-/

namespace RingBuffer

variable {α : Type}

def circularIndex (rd k cap : Nat) : Nat := if rd + k < cap then rd + k else rd + k - cap

/-- The slot after `i`, as `if (++i >= cap) i = 0` computes it. -/
def nextIndex (i cap : Nat) : Nat := if i + 1 ≥ cap then 0 else i + 1

def count (rd wr cap : Nat) : Nat := if rd ≤ wr then wr - rd else cap - rd + wr

def contents (buf : Nat → α) (rd cap : Nat) : Nat → List α
  | 0 => []
  | k + 1 => contents buf rd cap k ++ [buf (circularIndex rd k cap)]

def items (buf : Nat → α) (rd wr cap : Nat) : List α := contents buf rd cap (count rd wr cap)

section Index

variable {rd wr cap : Nat}

theorem nextIndex_lt {i : Nat} (hi : i < cap) : nextIndex i cap < cap := by
  unfold nextIndex
  split <;> omega

theorem count_lt (hrd : rd < cap) (hwr : wr < cap) : count rd wr cap < cap := by
  unfold count
  split <;> omega

theorem count_eq_zero_iff (hrd : rd < cap) : count rd wr cap = 0 ↔ rd = wr := by
  unfold count
  split <;> omega

theorem circularIndex_count (hrd : rd < cap) (hwr : wr < cap) :
    circularIndex rd (count rd wr cap) cap = wr := by
  unfold circularIndex count
  split <;> split <;> omega

theorem nextIndex_eq_iff (hrd : rd < cap) (hwr : wr < cap) :
    nextIndex wr cap = rd ↔ count rd wr cap + 1 = cap := by
  unfold nextIndex count
  split <;> split <;> omega

theorem count_nextIndex_wr (hrd : rd < cap) (hwr : wr < cap) (hne : nextIndex wr cap ≠ rd) :
    count rd (nextIndex wr cap) cap = count rd wr cap + 1 := by
  revert hne
  unfold nextIndex count
  split <;> split <;> split <;> omega

theorem count_nextIndex_rd (hrd : rd < cap) (hwr : wr < cap) (hne : rd ≠ wr) :
    count (nextIndex rd cap) wr cap + 1 = count rd wr cap := by
  unfold nextIndex count
  split <;> split <;> split <;> omega

theorem circularIndex_ne {a b : Nat} (ha : a < b) (hb : b < cap) :
    circularIndex rd a cap ≠ circularIndex rd b cap := by
  unfold circularIndex
  split <;> split <;> omega

theorem circularIndex_zero (hrd : rd < cap) : circularIndex rd 0 cap = rd := by
  simp [circularIndex,hrd]

theorem circularIndex_nextIndex {k : Nat} (hrd : rd < cap) (hk : k + 1 ≤ cap) :
    circularIndex (nextIndex rd cap) k cap = circularIndex rd (k + 1) cap := by
  unfold nextIndex circularIndex
  split <;> split <;> split <;> omega

end Index

section Contents

variable (buf : Nat → α) {rd wr cap : Nat}

@[simp] theorem length_contents (k : Nat) : (contents buf rd cap k).length = k := by
  induction k with
  | zero => rfl
  | succ k ih => simp [contents,ih]

theorem contents_update_outside {i k : Nat} (x : α)
    (hout : ∀ j < k, i ≠ circularIndex rd j cap) :
    contents (Function.update buf i x) rd cap k = contents buf rd cap k := by
  induction k with
  | zero => rfl
  | succ k ih =>
    simp only [contents]
    rw [ih fun j hj => hout j (by omega),Function.update_of_ne (hout k (by omega)).symm]

theorem contents_push {k : Nat} (x : α) (hk : k < cap) :
    contents (Function.update buf (circularIndex rd k cap) x) rd cap (k + 1) =
      contents buf rd cap k ++ [x] := by
  simp only [contents,Function.update_self]
  rw [contents_update_outside buf x fun j hj => (circularIndex_ne hj hk).symm]

theorem contents_pop {k : Nat} (hrd : rd < cap) (hk : k + 1 ≤ cap) :
    contents buf rd cap (k + 1) = buf rd :: contents buf (nextIndex rd cap) cap k := by
  induction k with
  | zero => simp [contents,circularIndex_zero hrd]
  | succ k ih =>
    rw [contents,ih (by omega),contents,circularIndex_nextIndex hrd (by omega)]
    rfl

@[simp] theorem length_items : (items buf rd wr cap).length = count rd wr cap :=
  length_contents buf _

theorem items_push (x : α) (hrd : rd < cap) (hwr : wr < cap) (hne : nextIndex wr cap ≠ rd) :
    items (Function.update buf wr x) rd (nextIndex wr cap) cap = items buf rd wr cap ++ [x] := by
  have hlt : count rd wr cap < cap := count_lt hrd hwr
  unfold items
  rw [count_nextIndex_wr hrd hwr hne]
  have h : contents (Function.update buf (circularIndex rd _ cap) x) rd cap _ = _ :=
    contents_push buf x hlt
  rwa [circularIndex_count hrd hwr] at h

theorem items_pop (hrd : rd < cap) (hwr : wr < cap) (hne : rd ≠ wr) :
    items buf rd wr cap = buf rd :: items buf (nextIndex rd cap) wr cap := by
  have hc := count_nextIndex_rd hrd hwr hne
  have hlt : count rd wr cap < cap := count_lt hrd hwr
  unfold items
  rw [← hc]
  exact contents_pop buf hrd (by omega)

end Contents

end RingBuffer
