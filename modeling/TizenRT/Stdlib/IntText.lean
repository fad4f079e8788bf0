import TizenRT.Stdlib.Strtoul
import TizenRT.Stdio.Printf

set_option autoImplicit false

/-!
The text of an `int`: what `printf("%d")` (stdio/lib_libvsprintf.c) writes, `strtol`
(stdlib/lib_strtol.c) reads back in base 10, its `*endptr` at the end of the text, whatever
follows the text but a digit.
-/

namespace TizenRT.Stdlib

open CScan (NUL)
open TizenRT.Stdio (libVsprintfOut libVsprintfOut_d utodec foldl_utodec mem_utodec toNat_digit
  length_utodec_pos)

theorem libIsbasedigit_digit {d : Nat} (hd : d < 10) :
    libIsbasedigit (Char.ofNat (d + '0'.toNat)) 10 = some d := by
  have h := toNat_digit hd
  rw [libIsbasedigit, if_pos (by decide), if_pos ⟨by omega, by omega⟩, h, Nat.add_sub_cancel]

theorem libIsbasedigit_utodec {n : Nat} {c : Char} (hc : c ∈ utodec n) :
    libIsbasedigit c 10 = some (c.toNat - '0'.toNat) := by
  obtain ⟨d, hd, rfl⟩ := mem_utodec hc
  rw [libIsbasedigit_digit hd, toNat_digit hd, Nat.add_sub_cancel]

theorem strtoulWidth_utodec (w k : Nat) {rest : List Char} (hrest : libIsbasedigit (rest.headD NUL) 10 = none) :
    strtoulWidth w (utodec k ++ rest) 10 = (k % 2 ^ w, (utodec k).length) := by
  have hds : ∀ c ∈ utodec k, (libIsbasedigit c 10).isSome := fun c hc => by
    simp [libIsbasedigit_utodec hc]
  have hne : utodec k ≠ [] := List.ne_nil_of_length_pos (length_utodec_pos k)
  have hws : ∀ c ∈ ([] : List Char), isspace c = true := fun _ h => nomatch h
  have h := strtoulWidth_digits (w := w) (by decide) (by decide) hws hds hne hrest
  have hfold : (utodec k).foldl (fun a c => a * (10 : Int).toNat + (libIsbasedigit c 10).getD 0) 0 = k := by
    have hf : (fun a c => a * (10 : Int).toNat + (libIsbasedigit c 10).getD 0) =
        fun a c => 10 * a + (libIsbasedigit c 10).getD 0 := by
      funext a c
      rw [show (10 : Int).toNat = 10 from rfl, Nat.mul_comm]
    rw [hf]
    exact foldl_utodec _ (fun d hd => by rw [libIsbasedigit_digit hd]; rfl) k
  rw [hfold] at h
  simpa using h

theorem libSkipspace_of_not_isspace {c : Char} (hc : isspace c = false) (s : List Char) :
    libSkipspace (c :: s) = 0 := by
  simp [libSkipspace,hc]

/-- What `printf("%d")` writes for an `int`, `strtol` reads back in base 10, with `*endptr` at the
end of the text, whatever follows it but a digit. -/
theorem strtol_libVsprintfOut_d {n : Int} (hlo : -2 ^ 31 ≤ n) (hhi : n < 2 ^ 31) {rest : List Char}
    (hrest : libIsbasedigit (rest.headD NUL) 10 = none) :
    ∃ text, libVsprintfOut ['%', 'd'] [.int n] = .ok text ∧ strtol (text ++ rest) 10 = (n, text.length) := by
  refine ⟨_,libVsprintfOut_d n hlo hhi,?_⟩
  have hu := strtoulWidth_utodec 32 n.natAbs hrest
  have habs : n.natAbs ≤ 2 ^ 31 := by omega
  obtain ⟨c,cs,hc⟩ := List.exists_cons_of_ne_nil (List.ne_nil_of_length_pos (length_utodec_pos n.natAbs))
  obtain ⟨d,hd,hcd⟩ := mem_utodec (hc ▸ List.mem_cons_self : c ∈ utodec n.natAbs)
  have hsp : isspace c = false := by
    rw [hcd]
    have h : ∀ d < 10, isspace (Char.ofNat (d + '0'.toNat)) = false := by decide
    exact h d hd
  have hct : c.toNat = d + 48 := by
    rw [hcd,toNat_digit hd]
    rfl
  have hminus : c ≠ '-' := fun h => by
    have : ('-' : Char).toNat = 45 := rfl
    rw [h] at hct
    omega
  have hplus : c ≠ '+' := fun h => by
    have : ('+' : Char).toNat = 43 := rfl
    rw [h] at hct
    omega
  by_cases hn : n < 0
  · rw [if_pos hn,List.singleton_append,List.cons_append]
    simp only [strtol,strtolWidth,libSkipspace_of_not_isspace (show isspace '-' = false by decide),
      List.getD_cons_zero,true_or,if_true,Nat.zero_add,List.drop_one,List.tail_cons,hu,toSigned,
      List.length_cons,Prod.mk.injEq]
    constructor
    · rw [Nat.mod_eq_of_lt (by omega),Nat.mod_eq_of_lt (by omega),if_neg (by omega)]
      omega
    · omega
  · rw [if_neg hn,List.nil_append]
    have hnptr : utodec n.natAbs ++ rest = c :: (cs ++ rest) := by rw [hc,List.cons_append]
    simp only [strtol,strtolWidth,hnptr,libSkipspace_of_not_isspace hsp,List.getD_cons_zero,
      if_neg (not_or.mpr ⟨hminus,hplus⟩),if_neg hminus,List.drop_zero]
    rw [← hnptr,hu,toSigned,Nat.mod_eq_of_lt (by omega),if_pos (by omega)]
    simp only [Nat.zero_add,Prod.mk.injEq,and_true]
    omega

theorem strtol_libVsprintfOut_d_int_min :
    (-2 ^ 31 ≤ (-2 ^ 31 : Int) ∧ (-2 ^ 31 : Int) < 2 ^ 31 ∧ libIsbasedigit (([] : List Char).headD NUL) 10 = none) ∧
      ∃ text, libVsprintfOut ['%', 'd'] [.int (-2 ^ 31)] = .ok text ∧
        strtol (text ++ []) 10 = (-2 ^ 31, text.length) :=
  ⟨⟨le_rfl, by decide, by decide⟩, strtol_libVsprintfOut_d le_rfl (by decide) (by decide)⟩

end TizenRT.Stdlib
