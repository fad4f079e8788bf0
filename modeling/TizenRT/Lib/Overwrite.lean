import Mathlib.Data.List.Basic

set_option autoImplicit false

/-!
A list written over from a position on, as a write into a buffer or a file does: the bytes
before the position and after the written ones stay.
-/

namespace Overwrite

variable {α : Type}

def overwrite (buf : List α) (i : Nat) (src : List α) : List α :=
  buf.take i ++ src ++ buf.drop (i + src.length)

theorem length_overwrite {buf src : List α} {i : Nat} (h : i + src.length ≤ buf.length) :
    (overwrite buf i src).length = buf.length := by
  simp only [overwrite,List.length_append,List.length_take,List.length_drop]
  omega

theorem take_overwrite {buf src : List α} {i : Nat} (h : i ≤ buf.length) :
    (overwrite buf i src).take (i + src.length) = buf.take i ++ src := by
  have hi : (buf.take i).length = i := List.length_take_of_le h
  rw [overwrite,List.append_assoc,List.take_append,hi,List.take_of_length_le (by simp [hi]),
    Nat.add_sub_cancel_left,List.take_append,List.take_length,Nat.sub_self,List.take_zero,
    List.append_nil]

theorem overwrite_append {buf a c : List α} {i : Nat} (h : i ≤ buf.length) :
    overwrite (overwrite buf i a) (i + a.length) c = overwrite buf i (a ++ c) := by
  have hi : (buf.take i).length = i := List.length_take_of_le h
  have hd : (overwrite buf i a).drop (i + a.length + c.length) =
      buf.drop (i + (a ++ c).length) := by
    rw [overwrite,List.append_assoc,List.drop_append,hi,List.drop_eq_nil_of_le (by omega),
      List.nil_append,Nat.add_assoc,Nat.add_sub_cancel_left,List.drop_append,
      List.drop_eq_nil_of_le (by omega),List.nil_append,Nat.add_sub_cancel_left,List.drop_drop,
      List.length_append]
    congr 1
    omega
  rw [overwrite,take_overwrite h,hd,overwrite]
  simp only [List.append_assoc]

theorem getElem?_overwrite_of_lt {buf src : List α} {i j : Nat} (h : i ≤ buf.length) (hj : j < i) :
    (overwrite buf i src)[j]? = buf[j]? := by
  have hi : (buf.take i).length = i := List.length_take_of_le h
  rw [overwrite,List.append_assoc,List.getElem?_append_left (by omega),List.getElem?_take_of_lt hj]

theorem getElem?_overwrite_add {buf src : List α} {i j : Nat} (h : i ≤ buf.length)
    (hj : j < src.length) : (overwrite buf i src)[i + j]? = src[j]? := by
  have hi : (buf.take i).length = i := List.length_take_of_le h
  rw [overwrite,List.append_assoc,List.getElem?_append_right (by omega),hi,Nat.add_sub_cancel_left,
    List.getElem?_append_left hj]

end Overwrite
