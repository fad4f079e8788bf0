import Mathlib
import TizenRT.Stdlib.QsortSorts

set_option autoImplicit false

/-!
How deep `qsort`'s frames nest. Each frame calls itself on the part below the pivot and takes the
part above it by `goto loop`, so the depth grows with the part below. Above 7 entries the pivot is
a median of three, and one of the other two entries is not below it and stays out of that part:
the part below is two entries short of the segment, and the depth is at most `nmemb / 2 - 1`. That
is linear in the array, and an input built against the median choice comes within one frame of it.
-/

namespace TizenRT.Stdlib

open Segment

/-- The bound on the nesting depth from a segment of `n` entries: the one frame of the insertion
sort below 7 entries, else `n / 2 - 1`. -/
def depthBound (n : Nat) : Nat := if n < 7 then 1 else n / 2 - 1

theorem one_le_depthBound (n : Nat) : 1 ≤ depthBound n := by
  unfold depthBound; split_ifs <;> omega

theorem depthBound_mono {m n : Nat} (h : m ≤ n) : depthBound m ≤ depthBound n := by
  unfold depthBound; split_ifs <;> omega

theorem depthBound_add_one_le {m n : Nat} (hn : 7 ≤ n) (hm : m + 2 ≤ n ∨ m < 7) :
    depthBound m + 1 ≤ depthBound n := by
  unfold depthBound; split_ifs <;> omega

theorem exists_of_ite_bind_eq_some {β γ : Type} {c : Prop} [Decidable c] {x y : Option β}
    {f : β → Option γ} {w : γ} (h : (if c then x.bind f else y.bind f) = some w) :
    ∃ v, (if c then x else y) = some v ∧ f v = some w := by
  split_ifs at h ⊢ <;> exact Option.bind_eq_some_iff.mp h

section Median

variable {α : Type} {cmp : α → α → Int} {le : α → α → Prop} {len : Nat} (hc : IsPreorderCmp cmp le)
include hc

theorem med3_above (mem : Fin len → α) {a b c : Fin len} (hab : a ≠ b) (hbc : b ≠ c) (hac : a ≠ c) :
    ∃ m x : Fin len, med3 cmp mem a.val b.val c.val = some m.val ∧ (m = a ∨ m = b ∨ m = c) ∧
      (x = a ∨ x = b ∨ x = c) ∧ x ≠ m ∧ le (mem m) (mem x) := by
  simp only [med3, cmpAt_eq a.isLt b.isLt, cmpAt_eq b.isLt c.isLt, cmpAt_eq a.isLt c.isLt, Fin.eta,
    Option.bind_eq_bind, Option.bind_some]
  split_ifs with hab' hbc' hac' hbc' hac'
  · exact ⟨b, c, rfl, by simp, by simp, hbc.symm, hc.le_of_neg hbc'⟩
  · exact ⟨c, b, rfl, by simp, by simp, hbc, (hc.nonneg_iff _ _).mp (not_lt.mp hbc')⟩
  · exact ⟨a, b, rfl, by simp, by simp, hab.symm, hc.le_of_neg hab'⟩
  · exact ⟨b, a, rfl, by simp, by simp, hab, (hc.nonneg_iff _ _).mp (not_lt.mp hab')⟩
  · exact ⟨a, c, rfl, by simp, by simp, hac.symm, hc.le_of_neg hac'⟩
  · exact ⟨c, a, rfl, by simp, by simp, hac, (hc.nonneg_iff _ _).mp (not_lt.mp hac')⟩

theorem pivotIndex_above (mem : Fin len → α) {lo n : Nat} (hfit : lo + n ≤ len) (h8 : 8 ≤ n) :
    ∃ pm x : Fin len, pivotIndex cmp mem lo n = some pm.val ∧ Inside lo n pm ∧ Inside lo n x ∧
      x ≠ pm ∧ le (mem pm) (mem x) := by
  unfold pivotIndex
  split_ifs with h7 h40
  · have hd : 5 ≤ n / 8 := by omega
    obtain ⟨m₁, -, hm₁, hr₁, -⟩ := med3_above hc mem (a := ⟨lo, by omega⟩)
      (b := ⟨lo + n / 8, by omega⟩) (c := ⟨lo + 2 * (n / 8), by omega⟩)
      (Fin.ne_of_val_ne (by dsimp only; omega)) (Fin.ne_of_val_ne (by dsimp only; omega))
      (Fin.ne_of_val_ne (by dsimp only; omega))
    obtain ⟨m₂, -, hm₂, hr₂, -⟩ := med3_above hc mem (a := ⟨lo + n / 2 - n / 8, by omega⟩)
      (b := ⟨lo + n / 2, by omega⟩) (c := ⟨lo + n / 2 + n / 8, by omega⟩)
      (Fin.ne_of_val_ne (by dsimp only; omega)) (Fin.ne_of_val_ne (by dsimp only; omega))
      (Fin.ne_of_val_ne (by dsimp only; omega))
    obtain ⟨m₃, -, hm₃, hr₃, -⟩ := med3_above hc mem (a := ⟨lo + (n - 1) - 2 * (n / 8), by omega⟩)
      (b := ⟨lo + (n - 1) - n / 8, by omega⟩) (c := ⟨lo + (n - 1), by omega⟩)
      (Fin.ne_of_val_ne (by dsimp only; omega)) (Fin.ne_of_val_ne (by dsimp only; omega))
      (Fin.ne_of_val_ne (by dsimp only; omega))
    have hv₁ : lo ≤ m₁.val ∧ m₁.val ≤ lo + 2 * (n / 8) := by
      rcases hr₁ with rfl | rfl | rfl <;> dsimp only <;> omega
    have hv₂ : lo + n / 2 - n / 8 ≤ m₂.val ∧ m₂.val ≤ lo + n / 2 + n / 8 := by
      rcases hr₂ with rfl | rfl | rfl <;> dsimp only <;> omega
    have hv₃ : lo + (n - 1) - 2 * (n / 8) ≤ m₃.val ∧ m₃.val ≤ lo + (n - 1) := by
      rcases hr₃ with rfl | rfl | rfl <;> dsimp only <;> omega
    have hin : ∀ z, (z = m₁ ∨ z = m₂ ∨ z = m₃) → Inside lo n z := by
      rintro z (rfl | rfl | rfl) <;> exact ⟨by omega, by omega⟩
    obtain ⟨pm, x, hpm, hpmr, hxr, hxpm, hle⟩ := med3_above hc mem (a := m₁) (b := m₂) (c := m₃)
      (Fin.ne_of_val_ne (by omega)) (Fin.ne_of_val_ne (by omega)) (Fin.ne_of_val_ne (by omega))
    simp only [hm₁, hm₂, hm₃, Option.bind_eq_bind, Option.bind_some]
    exact ⟨pm, x, hpm, hin pm hpmr, hin x hxr, hxpm, hle⟩
  · obtain ⟨pm, x, hpm, hpmr, hxr, hxpm, hle⟩ := med3_above hc mem (a := ⟨lo, by omega⟩)
      (b := ⟨lo + n / 2, by omega⟩) (c := ⟨lo + (n - 1), by omega⟩)
      (Fin.ne_of_val_ne (by dsimp only; omega)) (Fin.ne_of_val_ne (by dsimp only; omega))
      (Fin.ne_of_val_ne (by dsimp only; omega))
    have hin : ∀ z : Fin len, (z = ⟨lo, by omega⟩ ∨ z = ⟨lo + n / 2, by omega⟩ ∨
        z = ⟨lo + (n - 1), by omega⟩) → Inside lo n z := by
      rintro z (rfl | rfl | rfl) <;> exact ⟨by dsimp only; omega, by dsimp only; omega⟩
    exact ⟨pm, x, hpm, hin pm hpmr, hin x hxr, hxpm, hle⟩
  · omega

theorem exists_above_of_swap {lo n : Nat} {mem : Fin len → α} {l pm x : Fin len} (hl : l.val = lo)
    (hpm : Inside lo n pm) (hx : Inside lo n x) (hxpm : x ≠ pm) (hle : le (mem pm) (mem x)) :
    ∃ x', Inside (lo + 1) (n - 1) x' ∧ 0 ≤ cmp ((mem ∘ Equiv.swap l pm) x') ((mem ∘ Equiv.swap l pm) l) := by
  have hp : (mem ∘ Equiv.swap l pm) l = mem pm := comp_swap_of_eq_left rfl
  by_cases hxl : x = l
  · subst hxl
    refine ⟨pm, ⟨by have := hpm.1; have := Fin.val_ne_of_ne hxpm; omega, by have := hpm.2; omega⟩, ?_⟩
    rw [hp, comp_swap_of_eq_right rfl]
    exact (hc.nonneg_iff _ _).mpr hle
  · refine ⟨x, ⟨by have := hx.1; have := Fin.val_ne_of_ne hxl; omega, by have := hx.2; omega⟩, ?_⟩
    rw [hp, comp_swap_of_ne (Fin.val_ne_of_ne hxl) (Fin.val_ne_of_ne hxpm)]
    exact (hc.nonneg_iff _ _).mpr hle

end Median

theorem PartInv.less_add_two_le {α : Type} {cmp : α → α → Int} {len lo n : Nat} {mem₀ : Fin len → α}
    {p : α} {s : Part α len} (h : PartInv cmp lo n mem₀ p s) {x : Fin len} (hx : Inside (lo + 1) (n - 1) x)
    (hxp : 0 ≤ cmp (mem₀ x) p) : s.pb - s.pa + 2 ≤ n := by
  have := h.pa_ge; have := h.pa_le; have := h.pb_le; have := h.pc_le; have := h.pd_lt
  obtain ⟨k, hk, hkx⟩ := h.perm.symm.exists_of_inside hx
  have hout : ¬ Inside s.pa (s.pb - s.pa) k := fun hin => by
    have := h.less k hin
    rw [← hkx] at this
    omega
  obtain ⟨hk1, hk2⟩ := hk
  simp only [Inside, not_and_or, not_le, not_lt] at hout
  omega

section Depth

variable {α : Type} {cmp : α → α → Int} {le : α → α → Prop} {len : Nat}

theorem guardedCall_depth_le {fuel a m d₀ d b : Nat} {mem mem' : Fin len → α} (hd₀ : d₀ ≤ b)
    (hcall : (if m > 1 then qsortAux cmp fuel mem a m else pure (mem, d₀)) = some (mem', d))
    (hrec : 1 < m → qsortAux cmp fuel mem a m = some (mem', d) → d ≤ b) : d ≤ b := by
  split_ifs at hcall with hm
  · exact hrec hm hcall
  · cases hcall
    exact hd₀

variable (hc : IsPreorderCmp cmp le)
include hc

theorem pivot_less_add_two_le (mem : Fin len → α) {lo n pm : Nat} (hfit : lo + n ≤ len) (h8 : 8 ≤ n)
    (hpm : pivotIndex cmp mem lo n = some pm) (hlo : lo < len) (hpl : pm < len) {s : Part α len}
    (hs : PartInv cmp lo n (mem ∘ Equiv.swap ⟨lo, hlo⟩ ⟨pm, hpl⟩)
      ((mem ∘ Equiv.swap ⟨lo, hlo⟩ ⟨pm, hpl⟩) ⟨lo, hlo⟩) s) :
    s.pb - s.pa + 2 ≤ n := by
  obtain ⟨pm', x, hpm', hpmr, hx, hxpm, hle⟩ := pivotIndex_above hc mem hfit h8
  obtain rfl : pm = pm'.val := Option.some.inj (hpm.symm.trans hpm')
  obtain ⟨x', hx', hxp⟩ := exists_above_of_swap hc (l := ⟨lo, hlo⟩) rfl hpmr hx hxpm hle
  exact hs.less_add_two_le hx' hxp

theorem qsortAux_depth_le (fuel : Nat) :
    ∀ (mem mem' : Fin len → α) (lo n d : Nat), lo + n ≤ len → qsortAux cmp fuel mem lo n = some (mem', d) →
      d ≤ depthBound n := by
  induction fuel with
  | zero => intro _ _ _ _ _ _ hrun; cases hrun
  | succ fuel ih =>
    intro mem mem' lo n d hfit hrun
    by_cases h7 : n < 7
    · simp only [qsortAux, if_pos h7, Option.map_eq_some_iff, Prod.mk.injEq] at hrun
      obtain ⟨_, _, _, rfl⟩ := hrun
      exact one_le_depthBound n
    obtain ⟨pm, hpm, hpm₁, hpm₂⟩ := pivotIndex_inside cmp mem hfit (by omega)
    have hlo : lo < len := by omega
    have hpl : pm < len := by omega
    obtain ⟨s, hpart, hs, hcross⟩ := partitionLoop_spec n n _
      (partInv_init cmp (mem ∘ Equiv.swap ⟨lo, hlo⟩ ⟨pm, hpl⟩) hfit (by omega) hlo) (by dsimp only; omega)
      (by dsimp only; omega)
    simp only [qsortAux, if_neg h7, hpm, swapAt_eq hlo hpl, Option.bind_eq_bind, Option.bind_some,
      hpart] at hrun
    cases hcnt : s.swapCnt with
    | false =>
      simp only [hcnt, Bool.not_false, if_true, Option.map_eq_some_iff, Prod.mk.injEq] at hrun
      obtain ⟨_, _, _, rfl⟩ := hrun
      exact one_le_depthBound n
    | true =>
      have := hs.pa_ge; have := hs.pa_le; have := hs.pb_le; have := hs.pc_le; have := hs.pd_lt
      obtain ⟨mem₂, mem₃, hrun₂, hrun₃, -⟩ := hs.vecswaps hc hcross
      simp only [hcnt, Bool.not_true, Bool.false_eq_true, if_false, hrun₂, hrun₃, Option.bind_some] at hrun
      obtain ⟨⟨mem₄, dl⟩, hcall₄, hrun⟩ := exists_of_ite_bind_eq_some hrun
      dsimp only at hrun
      obtain ⟨⟨mem₅, dr⟩, hcall₅, hrun⟩ := exists_of_ite_bind_eq_some hrun
      cases hrun
      have hless : s.pb - s.pa + 2 ≤ n ∨ s.pb - s.pa < 7 := by
        by_cases h8 : 8 ≤ n
        · exact Or.inl (pivot_less_add_two_le hc mem hfit h8 hpm hlo hpl hs)
        · exact Or.inr (by omega)
      have hdl : dl ≤ depthBound n - 1 :=
        guardedCall_depth_le (Nat.zero_le _) hcall₄ fun _ hcall => by
          have := ih _ _ _ _ _ (by omega) hcall
          have := depthBound_add_one_le (show 7 ≤ n by omega) hless
          omega
      have hdr : dr ≤ depthBound n :=
        guardedCall_depth_le (one_le_depthBound n) hcall₅ fun _ hcall =>
          (ih _ _ _ _ _ (by omega) hcall).trans (depthBound_mono (by omega))
      have := one_le_depthBound n
      omega

/-- `qsort` on an array of any length, with a comparator that is a total preorder, ends with its
frames nested at most `nmemb / 2 - 1` deep (one frame below 7 entries). -/
theorem qsort_depth_le (mem : Fin len → α) :
    ∃ mem' d, qsort cmp mem = some (mem', d) ∧ d ≤ depthBound len := by
  obtain ⟨mem', d, hrun, -⟩ := qsortAux_spec hc (len + 1) mem 0 len (by omega) (by omega)
  exact ⟨mem', d, hrun, qsortAux_depth_le hc (len + 1) mem mem' 0 len d (by omega) hrun⟩

end Depth

theorem qsort_depth_le_int :
    IsPreorderCmp intCmp (· ≤ ·) ∧
      ∃ mem' d, qsort intCmp ![8, 7, 6, 5, 4, 3, 2, 1] = some (mem', d) ∧ d ≤ depthBound 8 :=
  ⟨intCmp_isPreorderCmp, qsort_depth_le intCmp_isPreorderCmp ![8, 7, 6, 5, 4, 3, 2, 1]⟩

end TizenRT.Stdlib
