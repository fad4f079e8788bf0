import Mathlib
import TizenRT.Stdlib.Qsort

set_option autoImplicit false

/-!
`qsort` sorts: for a comparator that is a total preorder, every run of the model on an array of
any length reads only entries inside it, ends, leaves a permutation of the array, and leaves it in
order. The proof follows the source's phases: the insertion sort with the invariant of its inner
loop, the pivot, the partition with the four blocks it keeps (equal to the pivot at both ends, less
after the left one, greater before the right one), the two `vecswap`s that move the equal blocks to
the middle, and the two calls on the less and greater blocks, each of which permutes only its own
segment.
-/

namespace TizenRT.Stdlib

open Segment

section Spec

variable {α : Type} {cmp : α → α → Int} {le : α → α → Prop} {len : Nat}

theorem cmpAt_eq {mem : Fin len → α} {i j : Nat} (hi : i < len) (hj : j < len) :
    cmpAt cmp mem i j = some (cmp (mem ⟨i, hi⟩) (mem ⟨j, hj⟩)) := by
  simp [cmpAt, hi, hj]

theorem swapAt_eq {mem : Fin len → α} {i j : Nat} (hi : i < len) (hj : j < len) :
    swapAt mem i j = some (mem ∘ Equiv.swap ⟨i, hi⟩ ⟨j, hj⟩) := by
  simp [swapAt, hi, hj]

theorem med3_spec (cmp : α → α → Int) (mem : Fin len → α) {a b c : Nat} (ha : a < len) (hb : b < len) (hc : c < len) :
    ∃ m, med3 cmp mem a b c = some m ∧ (m = a ∨ m = b ∨ m = c) := by
  simp only [med3, cmpAt_eq ha hb, cmpAt_eq hb hc, cmpAt_eq ha hc, Option.bind_eq_bind, Option.bind_some]
  split_ifs <;> simp

theorem med3_inside (cmp : α → α → Int) (mem : Fin len → α) {l h a b c : Nat} (hfit : h ≤ len)
    (ha : l ≤ a ∧ a < h) (hb : l ≤ b ∧ b < h) (hc : l ≤ c ∧ c < h) :
    ∃ m, med3 cmp mem a b c = some m ∧ l ≤ m ∧ m < h := by
  obtain ⟨m, hm, hmem⟩ := med3_spec cmp mem (by omega : a < len) (by omega : b < len) (by omega : c < len)
  exact ⟨m, hm, by omega, by omega⟩

theorem pivotIndex_inside (cmp : α → α → Int) (mem : Fin len → α) {lo n : Nat} (hfit : lo + n ≤ len) (hn : 0 < n) :
    ∃ pm, pivotIndex cmp mem lo n = some pm ∧ lo ≤ pm ∧ pm < lo + n := by
  unfold pivotIndex
  split_ifs with h7 h40
  · obtain ⟨m1, hm1, hr1⟩ := med3_inside cmp mem (l := lo) (h := lo + n) (a := lo)
      (b := lo + n / 8) (c := lo + 2 * (n / 8)) hfit (by omega) (by omega) (by omega)
    obtain ⟨m2, hm2, hr2⟩ := med3_inside cmp mem (l := lo) (h := lo + n)
      (a := lo + n / 2 - n / 8) (b := lo + n / 2) (c := lo + n / 2 + n / 8) hfit (by omega) (by omega)
      (by omega)
    obtain ⟨m3, hm3, hr3⟩ := med3_inside cmp mem (l := lo) (h := lo + n)
      (a := lo + (n - 1) - 2 * (n / 8)) (b := lo + (n - 1) - n / 8) (c := lo + (n - 1)) hfit (by omega)
      (by omega) (by omega)
    simp only [hm1, hm2, hm3, Option.bind_eq_bind, Option.bind_some]
    exact med3_inside cmp mem hfit hr1 hr2 hr3
  · exact med3_inside cmp mem hfit (by omega) (by omega) (by omega)
  · exact ⟨lo + n / 2, rfl, by omega, by omega⟩

/-- The partition's invariant, against the array `mem₀` it started from, whose entry at `lo` is the
pivot `p`: the pointers in order inside the segment, the entries after `lo` permuted among
themselves, and the four blocks, equal to the pivot in `[lo + 1, pa)` and `(pd, lo + n)`, less in
`[pa, pb)` and greater in `(pc, pd]`. -/
structure PartInv (cmp : α → α → Int) (lo n : Nat) (mem₀ : Fin len → α) (p : α) (s : Part α len) :
    Prop where
  fit : lo + n ≤ len
  pivot : ∀ k : Fin len, k.val = lo → mem₀ k = p
  pa_ge : lo + 1 ≤ s.pa
  pa_le : s.pa ≤ s.pb
  pb_le : s.pb ≤ s.pc + 1
  pc_le : s.pc ≤ s.pd
  pd_lt : s.pd < lo + n
  perm : PermOn (lo + 1) (n - 1) mem₀ s.mem
  eqLeft : AllOn (fun a => cmp a p = 0) (lo + 1) (s.pa - (lo + 1)) s.mem
  less : AllOn (fun a => cmp a p < 0) s.pa (s.pb - s.pa) s.mem
  greater : AllOn (fun a => 0 < cmp a p) (s.pc + 1) (s.pd - s.pc) s.mem
  eqRight : AllOn (fun a => cmp a p = 0) (s.pd + 1) (lo + n - (s.pd + 1)) s.mem

section Partition

variable {lo n : Nat} {mem₀ : Fin len → α} {p : α} {s : Part α len}

namespace PartInv

theorem mem_lo (h : PartInv cmp lo n mem₀ p s) {k : Fin len} (hk : k.val = lo) : s.mem k = p := by
  rw [h.perm.apply_of_not_inside fun hin => by have := hin.1; omega]
  exact h.pivot k hk

theorem cmpAt_lo (h : PartInv cmp lo n mem₀ p s) {i : Nat} (hi : i < len) :
    cmpAt cmp s.mem i lo = some (cmp (s.mem ⟨i, hi⟩) p) := by
  have := h.fit; have := h.pa_ge; have := h.pa_le; have := h.pb_le; have := h.pc_le; have := h.pd_lt
  have hlo : lo < len := by omega
  rw [cmpAt_eq hi hlo, h.mem_lo (k := ⟨lo, hlo⟩) rfl]

theorem perm_swap (h : PartInv cmp lo n mem₀ p s) {a b : Fin len} (ha : lo + 1 ≤ a.val ∧ a.val < lo + n)
    (hb : lo + 1 ≤ b.val ∧ b.val < lo + n) :
    PermOn (lo + 1) (n - 1) mem₀ (s.mem ∘ Equiv.swap a b) :=
  h.perm.trans (PermOn.swap ⟨ha.1, by omega⟩ ⟨hb.1, by omega⟩ s.mem)

theorem left_eq (h : PartInv cmp lo n mem₀ p s) (hbc : s.pb ≤ s.pc) {a b : Fin len} (ha : a.val = s.pa)
    (hb : b.val = s.pb) (hr : cmp (s.mem b) p = 0) :
    PartInv cmp lo n mem₀ p
      { s with mem := s.mem ∘ Equiv.swap a b, swapCnt := true, pa := s.pa + 1, pb := s.pb + 1 } := by
  have := h.pa_ge; have := h.pa_le; have := h.pc_le; have := h.pd_lt
  refine ⟨h.fit, h.pivot, by dsimp only; omega, by dsimp only; omega, by dsimp only; omega, h.pc_le,
    h.pd_lt, h.perm_swap (by omega) (by omega), ?_, ?_, ?_, ?_⟩
  · dsimp only
    refine h.eqLeft.comp_swap (fun k hk hka _ => ⟨hk.1, by have := hk.2; omega⟩) (fun _ => hr)
      fun hin => ?_
    rwa [show a = b from Fin.ext (by have := hin.2; omega)]
  · dsimp only
    refine h.less.comp_swap (fun k hk hka hkb => ⟨by have := hk.1; omega, by have := hk.2; omega⟩)
      (fun hin => absurd hin.1 (by omega)) fun hin => h.less a ⟨by omega, by have := hin.1; omega⟩
  · exact h.greater.comp_swap_of_not_inside (fun hin => absurd hin.1 (by omega))
      fun hin => absurd hin.1 (by omega)
  · exact h.eqRight.comp_swap_of_not_inside (fun hin => absurd hin.1 (by omega))
      fun hin => absurd hin.1 (by omega)

theorem left_lt (h : PartInv cmp lo n mem₀ p s) (hbc : s.pb ≤ s.pc) {b : Fin len} (hb : b.val = s.pb)
    (hr : cmp (s.mem b) p < 0) : PartInv cmp lo n mem₀ p { s with pb := s.pb + 1 } := by
  have := h.pa_le
  refine ⟨h.fit, h.pivot, h.pa_ge, by dsimp only; omega, by dsimp only; omega, h.pc_le, h.pd_lt, h.perm,
    h.eqLeft, ?_, h.greater, h.eqRight⟩
  dsimp only
  exact h.less.extend (x := s.pb) (fun k hk hkb => ⟨hk.1, by have := hk.2; omega⟩)
    fun k _ hkb => by rwa [show k = b from Fin.ext (by omega)]

theorem right_eq (h : PartInv cmp lo n mem₀ p s) (hbc : s.pb ≤ s.pc) {c d : Fin len} (hc : c.val = s.pc)
    (hd : d.val = s.pd) (hr : cmp (s.mem c) p = 0) :
    PartInv cmp lo n mem₀ p
      { s with mem := s.mem ∘ Equiv.swap c d, swapCnt := true, pc := s.pc - 1, pd := s.pd - 1 } := by
  have := h.pa_ge; have := h.pa_le; have := h.pc_le; have := h.pd_lt
  refine ⟨h.fit, h.pivot, h.pa_ge, h.pa_le, by dsimp only; omega, by dsimp only; omega,
    by dsimp only; omega, h.perm_swap (by omega) (by omega), ?_, ?_, ?_, ?_⟩
  · exact h.eqLeft.comp_swap_of_not_inside (fun hin => absurd hin.2 (by omega))
      fun hin => absurd hin.2 (by omega)
  · exact h.less.comp_swap_of_not_inside (fun hin => absurd hin.2 (by omega))
      fun hin => absurd hin.2 (by omega)
  · dsimp only
    refine h.greater.comp_swap (fun k hk hkc hkd => ⟨by have := hk.1; omega,
      by have := hk.2; omega⟩) (fun hin => h.greater d ⟨by have := hin.2; omega, by omega⟩)
      fun hin => absurd hin.2 (by omega)
  · dsimp only
    refine h.eqRight.comp_swap (fun k hk hkc hkd => ⟨by have := hk.1; omega,
      by have := hk.2; omega⟩) (fun hin => ?_) fun _ => hr
    rwa [show d = c from Fin.ext (by have := hin.1; omega)]

theorem right_gt (h : PartInv cmp lo n mem₀ p s) (hbc : s.pb ≤ s.pc) {c : Fin len} (hc : c.val = s.pc)
    (hr : 0 < cmp (s.mem c) p) : PartInv cmp lo n mem₀ p { s with pc := s.pc - 1 } := by
  have := h.pa_ge; have := h.pa_le; have := h.pc_le
  refine ⟨h.fit, h.pivot, h.pa_ge, h.pa_le, by dsimp only; omega, by dsimp only; omega, h.pd_lt, h.perm,
    h.eqLeft, h.less, ?_, h.eqRight⟩
  dsimp only
  exact h.greater.extend (x := s.pc) (fun k hk hkc => ⟨by have := hk.1; omega,
    by have := hk.2; omega⟩) fun k _ hkc => by rwa [show k = c from Fin.ext (by omega)]

theorem exchange (h : PartInv cmp lo n mem₀ p s) (hbc : s.pb ≤ s.pc) {b c : Fin len} (hb : b.val = s.pb)
    (hc : c.val = s.pc) (hrb : 0 < cmp (s.mem b) p) (hrc : cmp (s.mem c) p < 0) :
    PartInv cmp lo n mem₀ p
      { s with mem := s.mem ∘ Equiv.swap b c, swapCnt := true, pb := s.pb + 1, pc := s.pc - 1 } := by
  have := h.pa_ge; have := h.pa_le; have := h.pc_le; have := h.pd_lt
  have hlt : s.pb < s.pc := by
    rcases Nat.lt_or_ge s.pb s.pc with hlt | hge
    · exact hlt
    · rw [show b = c from Fin.ext (by omega)] at hrb
      omega
  refine ⟨h.fit, h.pivot, h.pa_ge, by dsimp only; omega, by dsimp only; omega, by dsimp only; omega,
    h.pd_lt, h.perm_swap (by omega) (by omega), ?_, ?_, ?_, ?_⟩
  · exact h.eqLeft.comp_swap_of_not_inside (fun hin => absurd hin.2 (by omega))
      fun hin => absurd hin.2 (by omega)
  · dsimp only
    exact h.less.comp_swap (fun k hk hkb _ => ⟨hk.1, by have := hk.2; omega⟩)
      (fun _ => hrc) fun hin => absurd hin.2 (by omega)
  · dsimp only
    exact h.greater.comp_swap (fun k hk _ hkc => ⟨by have := hk.1; omega,
      by have := hk.2; omega⟩) (fun hin => absurd hin.1 (by omega))
      fun _ => hrb
  · exact h.eqRight.comp_swap_of_not_inside (fun hin => absurd hin.1 (by omega))
      fun hin => absurd hin.1 (by omega)

end PartInv

theorem partInv_init (cmp : α → α → Int) (mem : Fin len → α) (hfit : lo + n ≤ len) (hn : 1 ≤ n) (hlo : lo < len) :
    PartInv cmp lo n mem (mem ⟨lo, hlo⟩) ⟨mem, lo + 1, lo + 1, lo + n - 1, lo + n - 1, false⟩ where
  fit := hfit
  pivot k hk := congrArg mem (Fin.ext hk)
  pa_ge := le_rfl
  pa_le := le_rfl
  pb_le := by dsimp only; omega
  pc_le := le_rfl
  pd_lt := by dsimp only; omega
  perm := PermOn.refl _ _ _
  eqLeft := allOn_of_eq_zero (by dsimp only; omega)
  less := allOn_of_eq_zero (by dsimp only; omega)
  greater := allOn_of_eq_zero (by dsimp only; omega)
  eqRight := allOn_of_eq_zero (by dsimp only; omega)

/-! The scans and the loop, each by induction on its fuel with `pc + 1 - pb` falling. -/

theorem scanLeft_spec (fuel : Nat) :
    ∀ s : Part α len, PartInv cmp lo n mem₀ p s → s.pc + 1 - s.pb < fuel →
      ∃ s', scanLeft cmp lo fuel s = some s' ∧ PartInv cmp lo n mem₀ p s' ∧ s'.pc = s.pc ∧
        s.pb ≤ s'.pb ∧ (s'.pb ≤ s'.pc → ∀ k : Fin len, k.val = s'.pb → 0 < cmp (s'.mem k) p) := by
  induction fuel with
  | zero => intro s _ hf; omega
  | succ fuel ih =>
    intro s h hf
    have := h.pa_ge; have := h.pa_le; have := h.pc_le; have := h.pd_lt; have := h.fit
    by_cases hbc : s.pb ≤ s.pc
    · have hb : s.pb < len := by omega
      simp only [scanLeft, if_pos hbc, h.cmpAt_lo hb, Option.bind_eq_bind, Option.bind_some]
      by_cases hr : cmp (s.mem ⟨s.pb, hb⟩) p ≤ 0
      · rw [if_pos hr]
        by_cases hr0 : cmp (s.mem ⟨s.pb, hb⟩) p = 0
        · simp only [if_pos hr0, swapAt_eq (show s.pa < len by omega) hb, Option.bind_some]
          obtain ⟨s', hrun, h', hpc, hpb, hstop⟩ := ih _ (h.left_eq hbc (a := ⟨s.pa, by omega⟩) (b := ⟨s.pb, hb⟩) rfl rfl hr0) (by dsimp only; omega)
          exact ⟨s', hrun, h', hpc, by dsimp only at hpb; omega, hstop⟩
        · rw [if_neg hr0]
          obtain ⟨s', hrun, h', hpc, hpb, hstop⟩ :=
            ih _ (h.left_lt hbc (b := ⟨s.pb, hb⟩) rfl (lt_of_le_of_ne hr hr0)) (by dsimp only; omega)
          exact ⟨s', hrun, h', hpc, by dsimp only at hpb; omega, hstop⟩
      · rw [if_neg hr]
        refine ⟨s, rfl, h, rfl, le_rfl, fun _ k hk => ?_⟩
        rw [show k = ⟨s.pb, hb⟩ from Fin.ext hk]
        omega
    · rw [scanLeft, if_neg hbc]
      exact ⟨s, rfl, h, rfl, le_rfl, fun h' => absurd h' hbc⟩

theorem scanRight_spec (fuel : Nat) :
    ∀ s : Part α len, PartInv cmp lo n mem₀ p s → s.pc + 1 - s.pb < fuel →
      (s.pb ≤ s.pc → ∀ k : Fin len, k.val = s.pb → 0 < cmp (s.mem k) p) →
      ∃ s', scanRight cmp lo fuel s = some s' ∧ PartInv cmp lo n mem₀ p s' ∧ s'.pb = s.pb ∧
        s'.pc ≤ s.pc ∧ (s'.pb ≤ s'.pc → (∀ k : Fin len, k.val = s'.pb → 0 < cmp (s'.mem k) p) ∧
          ∀ k : Fin len, k.val = s'.pc → cmp (s'.mem k) p < 0) := by
  induction fuel with
  | zero => intro s _ hf; omega
  | succ fuel ih =>
    intro s h hf hstop
    have := h.pa_ge; have := h.pa_le; have := h.pc_le; have := h.pd_lt; have := h.fit
    by_cases hbc : s.pb ≤ s.pc
    · have hc : s.pc < len := by omega
      simp only [scanRight, if_pos hbc, h.cmpAt_lo hc, Option.bind_eq_bind, Option.bind_some]
      by_cases hr : 0 ≤ cmp (s.mem ⟨s.pc, hc⟩) p
      · rw [if_pos hr]
        by_cases hr0 : cmp (s.mem ⟨s.pc, hc⟩) p = 0
        · have hbc' : s.pb < s.pc := by
            rcases Nat.lt_or_ge s.pb s.pc with hlt | hge
            · exact hlt
            · have := hstop hbc ⟨s.pc, hc⟩ (by dsimp only; omega)
              omega
          simp only [if_pos hr0, swapAt_eq hc (show s.pd < len by omega), Option.bind_some]
          have hd : s.pd < len := by omega
          obtain ⟨s', hrun, h', hpb, hpc, hstop'⟩ :=
            ih _ (h.right_eq hbc (c := ⟨s.pc, hc⟩) (d := ⟨s.pd, hd⟩) rfl rfl hr0) (by dsimp only; omega)
              fun _ k hk => by
                dsimp only at hk ⊢
                rw [comp_swap_of_ne (by dsimp only; omega) (by dsimp only; omega)]
                exact hstop hbc k hk
          exact ⟨s', hrun, h', hpb, by dsimp only at hpc; omega, hstop'⟩
        · rw [if_neg hr0]
          obtain ⟨s', hrun, h', hpb, hpc, hstop'⟩ :=
            ih _ (h.right_gt hbc (c := ⟨s.pc, hc⟩) rfl (lt_of_le_of_ne hr (Ne.symm hr0))) (by dsimp only; omega)
              fun hbc' => hstop (by dsimp only at hbc'; omega)
          exact ⟨s', hrun, h', hpb, by dsimp only at hpc; omega, hstop'⟩
      · rw [if_neg hr]
        refine ⟨s, rfl, h, rfl, le_rfl, fun hbc' => ⟨hstop hbc', fun k hk => ?_⟩⟩
        rw [show k = ⟨s.pc, hc⟩ from Fin.ext hk]
        omega
    · rw [scanRight, if_neg hbc]
      exact ⟨s, rfl, h, rfl, le_rfl, fun h' => absurd h' hbc⟩

theorem partitionLoop_spec (fuel passes : Nat) :
    ∀ s : Part α len, PartInv cmp lo n mem₀ p s → s.pc + 1 - s.pb < passes → s.pc + 1 - s.pb < fuel →
      ∃ s', partitionLoop cmp lo fuel passes s = some s' ∧ PartInv cmp lo n mem₀ p s' ∧
        s'.pb = s'.pc + 1 := by
  induction passes with
  | zero => intro s _ hp; omega
  | succ passes ih =>
    intro s h hp hf
    obtain ⟨s₁, hrun₁, h₁, hpc₁, hpb₁, hstop₁⟩ := scanLeft_spec fuel s h hf
    obtain ⟨s₂, hrun₂, h₂, hpb₂, hpc₂, hstop₂⟩ := scanRight_spec fuel s₁ h₁ (by omega) hstop₁
    have := h₂.pb_le; have := h₂.pc_le; have := h₂.pd_lt; have := h₂.fit
    simp only [partitionLoop, hrun₁, hrun₂, Option.bind_eq_bind, Option.bind_some]
    by_cases hx : s₂.pb > s₂.pc
    · rw [if_pos hx]
      exact ⟨s₂, rfl, h₂, by omega⟩
    · rw [if_neg hx]
      obtain ⟨hgt, hlt⟩ := hstop₂ (by omega)
      have hb : s₂.pb < len := by omega
      have hc : s₂.pc < len := by omega
      simp only [swapAt_eq hb hc, Option.bind_some]
      exact ih _ (h₂.exchange (by omega) (b := ⟨s₂.pb, hb⟩) (c := ⟨s₂.pc, hc⟩) rfl rfl (hgt _ rfl) (hlt _ rfl))
        (by dsimp only; omega) (by dsimp only; omega)

end Partition

theorem vecswap_spec (k : Nat) :
    ∀ (mem : Fin len → α) (i j : Nat), i + k ≤ j → j + k ≤ len →
      ∃ mem', vecswap mem i j k = some mem' ∧ PermOn i (j + k - i) mem mem' ∧
        (∀ x y : Fin len, Inside i k x → y.val = x.val + (j - i) → mem' x = mem y ∧ mem' y = mem x) ∧
        ∀ x : Fin len, ¬ Inside i k x → ¬ Inside j k x → mem' x = mem x := by
  induction k with
  | zero =>
    intro mem i j _ _
    exact ⟨mem, rfl, PermOn.refl _ _ _, fun _ _ hx => absurd hx.1 (by have := hx.2; omega), fun _ _ _ => rfl⟩
  | succ k ih =>
    intro mem i j hij hj
    have hi : i < len := by omega
    have hj' : j < len := by omega
    obtain ⟨mem', hrun, hperm, hswap, hout⟩ :=
      ih (mem ∘ Equiv.swap ⟨i, hi⟩ ⟨j, hj'⟩) (i + 1) (j + 1) (by omega) (by omega)
    refine ⟨mem', ?_, ?_, fun x y hx hy => ?_, fun x hxi hxj => ?_⟩
    · simp only [vecswap, swapAt_eq hi hj', Option.bind_some]
      exact hrun
    · have hsw : PermOn i (j + (k + 1) - i) mem (mem ∘ Equiv.swap ⟨i, hi⟩ ⟨j, hj'⟩) :=
        PermOn.swap (i := ⟨i, hi⟩) (j := ⟨j, hj'⟩) ⟨le_rfl, show i < i + (j + (k + 1) - i) by omega⟩
          ⟨show i ≤ j by omega, show j < i + (j + (k + 1) - i) by omega⟩ mem
      exact hsw.trans (hperm.mono (by omega) (by omega))
    · by_cases hxi : x.val = i
      · have hyj : y.val = j := by omega
        rw [hout x (fun h => by have := h.1; omega) (fun h => by have := h.1; omega),
          hout y (fun h => by have := h.2; omega) (fun h => by have := h.1; omega),
          comp_swap_of_eq_left hxi, comp_swap_of_eq_right hyj]
        exact ⟨congrArg mem (Fin.ext hyj.symm), congrArg mem (Fin.ext hxi.symm)⟩
      · obtain ⟨hx1, hx2⟩ := hx
        have hx' : Inside (i + 1) k x := ⟨by omega, by omega⟩
        have hy' : y.val = x.val + (j + 1 - (i + 1)) := by omega
        obtain ⟨h₁, h₂⟩ := hswap x y hx' hy'
        have hyi : y.val ≠ i := by omega
        have hyj : y.val ≠ j := by omega
        have hxj : x.val ≠ j := by omega
        rw [h₁, h₂, comp_swap_of_ne (a := ⟨i, hi⟩) (b := ⟨j, hj'⟩) hyi hyj,
          comp_swap_of_ne (a := ⟨i, hi⟩) (b := ⟨j, hj'⟩) hxi hxj]
        exact ⟨rfl, rfl⟩
    · rw [hout x (fun h => hxi ⟨by have := h.1; omega, by have := h.2; omega⟩)
        (fun h => hxj ⟨by have := h.1; omega, by have := h.2; omega⟩),
        comp_swap_of_ne (fun h => hxi ⟨by dsimp only at h; omega, by dsimp only at h; omega⟩)
          (fun h => hxj ⟨by dsimp only at h; omega, by dsimp only at h; omega⟩)]

theorem vecswap_blocks {P Q : α → Prop} {mem : Fin len → α} {a b c : Nat} (hab : a ≤ b) (hbc : b ≤ c)
    (hc : c ≤ len) (hP : AllOn P a (b - a) mem) (hQ : AllOn Q b (c - b) mem) :
    ∃ mem', vecswap mem a (c - min (b - a) (c - b)) (min (b - a) (c - b)) = some mem' ∧
      PermOn a (c - a) mem mem' ∧ AllOn Q a (c - b) mem' ∧ AllOn P (a + (c - b)) (b - a) mem' := by
  obtain ⟨mem', hrun, hperm, hswap, hout⟩ :=
    vecswap_spec (min (b - a) (c - b)) mem a (c - min (b - a) (c - b)) (by omega) (by omega)
  refine ⟨mem', hrun, by rwa [show c - min (b - a) (c - b) + min (b - a) (c - b) - a = c - a by omega] at hperm,
    fun x ⟨hx1, hx2⟩ => ?_, fun x ⟨hx1, hx2⟩ => ?_⟩
  · by_cases hxr : x.val < a + min (b - a) (c - b)
    · have hy : x.val + (c - min (b - a) (c - b) - a) < len := by omega
      rw [(hswap x ⟨_, hy⟩ ⟨hx1, hxr⟩ rfl).1]
      exact hQ _ ⟨by dsimp only; omega, by dsimp only; omega⟩
    · rw [hout x (fun h => hxr h.2) (fun h => by have := h.1; omega)]
      exact hQ x ⟨by omega, by omega⟩
  · by_cases hxr : c - min (b - a) (c - b) ≤ x.val
    · have hy : x.val - (c - min (b - a) (c - b) - a) < len := by omega
      have hin : Inside a (min (b - a) (c - b)) ⟨_, hy⟩ := ⟨by dsimp only; omega, by dsimp only; omega⟩
      rw [(hswap ⟨_, hy⟩ x hin (by dsimp only; omega)).2]
      exact hP _ ⟨hin.1, by have := hin.2; omega⟩
    · rw [hout x (fun h => by have := h.2; omega) (fun h => hxr h.1)]
      exact hP x ⟨by omega, by omega⟩

/-- The inner insertion loop's invariant at `pl = lo + k`, over the entries up to `lo + t`: sorted
below `pl` and above it, each entry below `pl` under each above, and the entry at `pl` under each
above it. -/
structure InsertInv (le : α → α → Prop) (lo k t : Nat) (mem : Fin len → α) : Prop where
  left : SortedOn le lo k mem
  right : SortedOn le (lo + k + 1) (t - k) mem
  cross : ∀ i j, Inside lo k i → Inside (lo + k + 1) (t - k) j → le (mem i) (mem j)
  moving : ∀ x j : Fin len, x.val = lo + k → Inside (lo + k + 1) (t - k) j → le (mem x) (mem j)

namespace InsertInv

variable {lo k t : Nat} {mem : Fin len → α}

theorem sortedOn_zero (hinv : InsertInv le lo 0 t mem) : SortedOn le lo (t + 1) mem := by
  have hr : SortedOn le (lo + 1) t mem := by simpa using hinv.right
  exact hr.cons fun x j hx hj => hinv.moving x j hx (by simpa using hj)

theorem swap (hinv : InsertInv le lo (k + 1) t mem) (hk : k + 1 ≤ t) {x y : Fin len}
    (hx : x.val = lo + k + 1) (hy : y.val = lo + k) (hxy : le (mem x) (mem y)) :
    InsertInv le lo k t (mem ∘ Equiv.swap x y) := by
  have htk : t - k = t - (k + 1) + 1 := by omega
  refine ⟨?_, ?_, fun i j hi hj => ?_, fun a j ha hj => ?_⟩
  · exact (hinv.left.of_le (Nat.le_succ k)).congr fun i hi =>
      comp_swap_of_ne (by have := hi.2; omega) (by have := hi.2; omega)
  · rw [htk]
    refine SortedOn.cons (hinv.right.congr fun j hj =>
      comp_swap_of_ne (by have := hj.1; omega) (by have := hj.1; omega)) fun a j ha hj => ?_
    rw [comp_swap_of_eq_left (show a.val = x.val by omega),
      comp_swap_of_ne (by have := hj.1; omega) (by have := hj.1; omega)]
    exact hinv.cross y j ⟨by omega, by omega⟩ ⟨by have := hj.1; omega, by have := hj.2; omega⟩
  · rw [comp_swap_of_ne (by have := hi.2; omega) (by have := hi.2; omega)]
    by_cases hjx : j.val = x.val
    · rw [comp_swap_of_eq_left hjx]
      exact hinv.left i y hi.1 (by have := hi.2; omega) (by omega)
    · rw [comp_swap_of_ne hjx (by have := hj.1; omega)]
      exact hinv.cross i j ⟨hi.1, by have := hi.2; omega⟩ ⟨by have := hj.1; omega, by have := hj.2; omega⟩
  · rw [comp_swap_of_eq_right (show a.val = y.val by omega)]
    by_cases hjx : j.val = x.val
    · rw [comp_swap_of_eq_left hjx]
      exact hxy
    · rw [comp_swap_of_ne hjx (by have := hj.1; omega)]
      exact hinv.moving x j hx ⟨by have := hj.1; omega, by have := hj.2; omega⟩

end InsertInv

variable (hc : IsPreorderCmp cmp le)
include hc

theorem InsertInv.sortedOn_of_le {lo k t : Nat} {mem : Fin len → α} (hinv : InsertInv le lo (k + 1) t mem)
    (hk : k + 1 ≤ t) {x y : Fin len} (hx : x.val = lo + k + 1) (hy : y.val = lo + k)
    (hyx : le (mem y) (mem x)) : SortedOn le lo (t + 1) mem := by
  have hup : SortedOn le (lo + (k + 1)) (t - k) mem := by
    rw [show t - k = t - (k + 1) + 1 by omega]
    exact hinv.right.cons fun a j ha hj => hinv.moving a j ha hj
  have hall := SortedOn.append hinv.left hup fun i j hi hj => by
    by_cases hjx : j.val = x.val
    · rw [Fin.ext hjx]
      by_cases hiy : i.val = y.val
      · rw [Fin.ext hiy]
        exact hyx
      · exact hc.trans _ _ _ (hinv.left i y hi.1 (by have := hi.2; omega) (by omega)) hyx
    · exact hinv.cross i j hi ⟨by have := hj.1; omega, by have := hj.2; omega⟩
  rwa [show k + 1 + (t - k) = t + 1 by omega] at hall

theorem insertionInner_spec {lo t : Nat} (hfit : lo + t < len) (k : Nat) :
    ∀ mem : Fin len → α, k ≤ t → InsertInv le lo k t mem →
      ∃ mem', insertionInner cmp lo mem k = some mem' ∧ PermOn lo (t + 1) mem mem' ∧
        SortedOn le lo (t + 1) mem' := by
  induction k with
  | zero => exact fun mem _ hinv => ⟨mem, rfl, PermOn.refl _ _ _, hinv.sortedOn_zero⟩
  | succ k ih =>
    intro mem hk hinv
    have hk1 : lo + k + 1 < len := by omega
    have hk0 : lo + k < len := by omega
    simp only [insertionInner, cmpAt_eq hk0 hk1, Option.bind_eq_bind, Option.bind_some]
    by_cases hr : cmp (mem ⟨lo + k, hk0⟩) (mem ⟨lo + k + 1, hk1⟩) > 0
    · rw [if_pos hr, swapAt_eq hk1 hk0, Option.bind_some]
      have hinv' := hinv.swap hk (x := ⟨lo + k + 1, hk1⟩) (y := ⟨lo + k, hk0⟩) rfl rfl
        (hc.le_of_not_le (hc.not_le_of_pos hr))
      obtain ⟨mem', hrun, hperm, hsort⟩ := ih _ (by omega) hinv'
      have hswap : PermOn lo (t + 1) mem (mem ∘ Equiv.swap ⟨lo + k + 1, hk1⟩ ⟨lo + k, hk0⟩) :=
        PermOn.swap ⟨show lo ≤ lo + k + 1 by omega, show lo + k + 1 < lo + (t + 1) by omega⟩
          ⟨show lo ≤ lo + k by omega, show lo + k < lo + (t + 1) by omega⟩ mem
      exact ⟨mem', hrun, hswap.trans hperm, hsort⟩
    · rw [if_neg hr]
      exact ⟨mem, rfl, PermOn.refl _ _ _,
        hinv.sortedOn_of_le hc hk rfl rfl ((hc.nonpos_iff _ _).mp (not_lt.mp hr))⟩

theorem insertionSort_loop {lo n : Nat} (hfit : lo + n ≤ len) (m : Nat) :
    ∀ (s : Nat) (mem : Fin len → α), 1 ≤ s → s + m = n → SortedOn le lo s mem →
      ∃ mem', (List.range' s m).foldlM (fun mem k => insertionInner cmp lo mem k) mem = some mem' ∧
        PermOn lo n mem mem' ∧ SortedOn le lo n mem' := by
  induction m with
  | zero =>
    intro s mem _ hsn hs
    exact ⟨mem, rfl, PermOn.refl _ _ _, by simpa [← hsn] using hs⟩
  | succ m ih =>
    intro s mem hs1 hsn hs
    have hinv : InsertInv le lo s s mem :=
      ⟨hs, sortedOn_of_le_one (by omega), fun _ _ _ hj => by have := hj.2; have := hj.1; omega,
        fun _ _ _ hj => by have := hj.2; have := hj.1; omega⟩
    obtain ⟨mem₁, hrun₁, hperm₁, hsort₁⟩ := insertionInner_spec hc (by omega) s mem le_rfl hinv
    obtain ⟨mem', hrun, hperm, hsort⟩ := ih (s + 1) mem₁ (by omega) (by omega) hsort₁
    refine ⟨mem', ?_, (hperm₁.mono le_rfl (by omega)).trans hperm, hsort⟩
    rw [List.range'_succ, List.foldlM_cons, hrun₁, Option.bind_eq_bind, Option.bind_some, hrun]

theorem insertionSort_spec {lo n : Nat} (hfit : lo + n ≤ len) (mem : Fin len → α) :
    ∃ mem', insertionSort cmp lo n mem = some mem' ∧ PermOn lo n mem mem' ∧ SortedOn le lo n mem' := by
  rcases Nat.eq_zero_or_pos n with rfl | hn
  · exact ⟨mem, rfl, PermOn.refl _ _ _, sortedOn_of_le_one (Nat.zero_le 1)⟩
  · exact insertionSort_loop hc hfit (n - 1) 1 mem le_rfl (by omega) (sortedOn_of_le_one le_rfl)

theorem sortedOn_three {lo l m g : Nat} {mem : Fin len → α} (p : α)
    (hless : AllOn (fun a => cmp a p < 0) lo l mem) (hsl : SortedOn le lo l mem)
    (heq : AllOn (fun a => cmp a p = 0) (lo + l) m mem)
    (hgt : AllOn (fun a => 0 < cmp a p) (lo + (l + m)) g mem) (hsg : SortedOn le (lo + (l + m)) g mem) :
    SortedOn le lo (l + m + g) mem := by
  have hsm : SortedOn le (lo + l) m mem :=
    SortedOn.of_allOn heq fun a b ha hb => hc.le_of_cmp_nonpos_nonneg ha.le hb.ge
  have h₁ : SortedOn le lo (l + m) mem :=
    SortedOn.append_of_allOn hsl hsm hless heq fun a b ha hb => hc.le_of_cmp_nonpos_nonneg ha.le hb.ge
  have hle : AllOn (fun a => cmp a p ≤ 0) lo (l + m) mem :=
    (hless.imp fun _ h => h.le).append (heq.imp fun _ h => h.le)
  exact SortedOn.append_of_allOn h₁ hsg hle hgt fun a b ha hb => hc.le_of_cmp_nonpos_nonneg ha hb.le

theorem PartInv.vecswaps {lo n : Nat} {mem₀ : Fin len → α} {p : α} {s : Part α len}
    (hs : PartInv cmp lo n mem₀ p s) (hcross : s.pb = s.pc + 1) :
    ∃ mem₂ mem₃,
      vecswap s.mem lo (s.pb - min (s.pa - lo) (s.pb - s.pa)) (min (s.pa - lo) (s.pb - s.pa)) = some mem₂ ∧
      vecswap mem₂ s.pb (lo + n - min (s.pd - s.pc) (lo + n - s.pd - 1))
        (min (s.pd - s.pc) (lo + n - s.pd - 1)) = some mem₃ ∧
      PermOn lo n s.mem mem₃ ∧ AllOn (fun a => cmp a p < 0) lo (s.pb - s.pa) mem₃ ∧
      AllOn (fun a => cmp a p = 0) (lo + (s.pb - s.pa)) (n - (s.pb - s.pa) - (s.pd - s.pc)) mem₃ ∧
      AllOn (fun a => 0 < cmp a p) (lo + n - (s.pd - s.pc)) (s.pd - s.pc) mem₃ := by
  have := hs.pa_ge; have := hs.pa_le; have := hs.pc_le; have := hs.pd_lt; have := hs.fit
  have heqL : AllOn (fun a => cmp a p = 0) lo (s.pa - lo) s.mem :=
    hs.eqLeft.extend (x := lo) (fun k hk hkl => ⟨by have := hk.1; omega, by have := hk.2; omega⟩)
      fun k _ hkl => by rw [hs.mem_lo hkl]; exact hc.cmp_self p
  obtain ⟨mem₂, hrun₂, hperm₂, hless₂, heq₂⟩ :=
    vecswap_blocks (show lo ≤ s.pa by omega) hs.pa_le (show s.pb ≤ len by omega) heqL hs.less
  have hgt₂ : AllOn (fun a => 0 < cmp a p) s.pb (s.pd + 1 - s.pb) mem₂ :=
    hperm₂.allOn_of_disjoint (hs.greater.sub (by omega) (by omega)) (Or.inl (by omega))
  have heqR₂ := hperm₂.allOn_of_disjoint hs.eqRight (Or.inl (by omega))
  obtain ⟨mem₃, hrun₃, hperm₃, heq₃, hgt₃⟩ :=
    vecswap_blocks (show s.pb ≤ s.pd + 1 by omega) (show s.pd + 1 ≤ lo + n by omega) hs.fit hgt₂ heqR₂
  have hr : min (s.pd - s.pc) (lo + n - s.pd - 1) = min (s.pd + 1 - s.pb) (lo + n - (s.pd + 1)) := by omega
  refine ⟨mem₂, mem₃, hrun₂, by rw [hr]; exact hrun₃,
    hperm₂.mono le_rfl (by omega) |>.trans (hperm₃.mono (by omega) (by omega)),
    hperm₃.allOn_of_disjoint hless₂ (Or.inr (by omega)), ?_, hgt₃.sub (by omega) (by omega)⟩
  have hmid := (hperm₃.allOn_of_disjoint heq₂ (Or.inr (by omega))).append
    (show AllOn _ (lo + (s.pb - s.pa) + (s.pa - lo)) _ mem₃ by rwa [show lo + (s.pb - s.pa) + (s.pa - lo) = s.pb by omega])
  exact hmid.sub le_rfl (by omega)

end Spec

theorem ite_bind_of_eq_some {β γ : Type} {c : Prop} [Decidable c] {x y : Option β} {v : β}
    (h : (if c then x else y) = some v) (f : β → Option γ) :
    (if c then x.bind f else y.bind f) = f v := by
  split_ifs at h ⊢ <;> rw [h, Option.bind_some]

theorem guardedCall_spec {α : Type} {cmp : α → α → Int} {le : α → α → Prop} {len : Nat} {fuel a m : Nat}
    {mem : Fin len → α} (d₀ : Nat)
    (hcall : 1 < m → ∃ mem' d, qsortAux cmp fuel mem a m = some (mem', d) ∧ PermOn a m mem mem' ∧
      SortedOn le a m mem') :
    ∃ mem' d, (if m > 1 then qsortAux cmp fuel mem a m else pure (mem, d₀)) = some (mem', d) ∧
      PermOn a m mem mem' ∧ SortedOn le a m mem' := by
  by_cases hm : m > 1
  · rw [if_pos hm]
    exact hcall hm
  · exact ⟨mem, d₀, by rw [if_neg hm]; rfl, PermOn.refl _ _ _, sortedOn_of_le_one (by omega)⟩

section Sorts

variable {α : Type} {cmp : α → α → Int} {le : α → α → Prop} {len : Nat} (hc : IsPreorderCmp cmp le)
include hc

theorem qsortAux_spec (fuel : Nat) :
    ∀ (mem : Fin len → α) (lo n : Nat), n < fuel → lo + n ≤ len →
      ∃ mem' d, qsortAux cmp fuel mem lo n = some (mem', d) ∧ PermOn lo n mem mem' ∧
        SortedOn le lo n mem' := by
  induction fuel with
  | zero => intro _ _ _ hn; omega
  | succ fuel ih =>
    intro mem lo n hn hfit
    by_cases h7 : n < 7
    · obtain ⟨mem', hrun, hperm, hsort⟩ := insertionSort_spec hc hfit mem
      exact ⟨mem', 1, by simp only [qsortAux, if_pos h7, hrun, Option.map_some], hperm, hsort⟩
    obtain ⟨pm, hpm, hpm₁, hpm₂⟩ := pivotIndex_inside cmp mem hfit (by omega)
    have hlo : lo < len := by omega
    have hpl : pm < len := by omega
    have hperm₁ : PermOn lo n mem (mem ∘ Equiv.swap ⟨lo, hlo⟩ ⟨pm, hpl⟩) :=
      PermOn.swap (i := ⟨lo, hlo⟩) (j := ⟨pm, hpl⟩) ⟨le_rfl, show lo < lo + n by omega⟩ ⟨hpm₁, hpm₂⟩ mem
    obtain ⟨s, hrun, hs, hcross⟩ := partitionLoop_spec n n _
      (partInv_init cmp (mem ∘ Equiv.swap ⟨lo, hlo⟩ ⟨pm, hpl⟩) hfit (by omega) hlo) (by dsimp only; omega)
      (by dsimp only; omega)
    generalize (mem ∘ Equiv.swap ⟨lo, hlo⟩ ⟨pm, hpl⟩) ⟨lo, hlo⟩ = p at hs
    have hpermS : PermOn lo n mem s.mem := hperm₁.trans (hs.perm.mono (by omega) (by omega))
    cases hcnt : s.swapCnt with
    | false =>
      obtain ⟨mem', hrun', hperm', hsort'⟩ := insertionSort_spec hc hfit s.mem
      refine ⟨mem', 1, ?_, hpermS.trans hperm', hsort'⟩
      simp only [qsortAux, if_neg h7, hpm, swapAt_eq hlo hpl, Option.bind_eq_bind, Option.bind_some, hrun, hcnt,
        Bool.not_false, if_true, hrun', Option.map_some]
    | true =>
      have := hs.pa_ge; have := hs.pa_le; have := hs.pc_le; have := hs.pd_lt
      obtain ⟨mem₂, mem₃, hrun₂, hrun₃, hperm₃, hless, heq, hgt⟩ := hs.vecswaps hc hcross
      obtain ⟨mem₄, dl, hrun₄, hperm₄, hsort₄⟩ :=
        guardedCall_spec 0 fun _ => ih mem₃ lo (s.pb - s.pa) (by omega) (by omega)
      obtain ⟨mem₅, dr, hrun₅, hperm₅, hsort₅⟩ :=
        guardedCall_spec 1 fun _ => ih mem₄ (lo + n - (s.pd - s.pc)) (s.pd - s.pc) (by omega) (by omega)
      refine ⟨mem₅, max (dl + 1) dr, ?_, ?_, ?_⟩
      · simp only [qsortAux, if_neg h7, hpm, swapAt_eq hlo hpl, Option.bind_eq_bind, Option.bind_some, hrun,
          hcnt, Bool.not_true, Bool.false_eq_true, if_false, hrun₂, hrun₃]
        rw [ite_bind_of_eq_some hrun₄]
        dsimp only
        rw [ite_bind_of_eq_some hrun₅]
        rfl
      · exact hpermS.trans (hperm₃.trans ((hperm₄.mono le_rfl (by omega)).trans (hperm₅.mono (by omega) (by omega))))
      · have hless₅ := hperm₅.allOn_of_disjoint (hperm₄.allOn hless) (Or.inr (by omega))
        have hsl := hperm₅.sortedOn_of_disjoint hsort₄ (Or.inr (by omega))
        have heq₅ := hperm₅.allOn_of_disjoint (hperm₄.allOn_of_disjoint heq (Or.inl (by omega))) (Or.inr (by omega))
        have hgt₅ := hperm₅.allOn (hperm₄.allOn_of_disjoint hgt (Or.inl (by omega)))
        have e : lo + n - (s.pd - s.pc) = lo + (s.pb - s.pa + (n - (s.pb - s.pa) - (s.pd - s.pc))) := by omega
        rw [e] at hgt₅ hsort₅
        have hall := sortedOn_three hc p hless₅ hsl heq₅ hgt₅ hsort₅
        rwa [show s.pb - s.pa + (n - (s.pb - s.pa) - (s.pd - s.pc)) + (s.pd - s.pc) = n by omega] at hall

/-- `qsort` on an array of any length, with a comparator that is a total preorder, ends having read
only entries of the array, and leaves a permutation of the array in which `compar` of each entry
and the next is at most 0. -/
theorem qsort_sorts (mem : Fin len → α) :
    ∃ mem' d, qsort cmp mem = some (mem', d) ∧ (List.ofFn mem').Perm (List.ofFn mem) ∧
      (List.ofFn mem').IsChain (fun a b => cmp a b ≤ 0) := by
  obtain ⟨mem', d, hrun, hperm, hsort⟩ := qsortAux_spec hc (len + 1) mem 0 len (by omega) (by omega)
  refine ⟨mem', d, hrun, hperm.ofFn_perm, ?_⟩
  have hpair : (List.ofFn mem').Pairwise le := sortedOn_zero_iff.mp hsort
  exact hpair.isChain.imp fun a b hab => (hc.nonpos_iff a b).mpr hab

end Sorts

theorem qsort_sorts_int :
    IsPreorderCmp intCmp (· ≤ ·) ∧
      ∃ mem' d, qsort intCmp ![5, 3, 8, 1, 9, 2, 7, 4] = some (mem', d) ∧
        (List.ofFn mem').Perm (List.ofFn ![5, 3, 8, 1, 9, 2, 7, 4]) ∧
        (List.ofFn mem').IsChain (fun a b => intCmp a b ≤ 0) :=
  ⟨intCmp_isPreorderCmp, qsort_sorts intCmp_isPreorderCmp ![5, 3, 8, 1, 9, 2, 7, 4]⟩

example : (qsort intCmp ![5, 3, 8, 1, 9, 2, 7, 4]).map (fun r => List.ofFn r.1) =
    some [1, 2, 3, 4, 5, 7, 8, 9] := by
  decide

end TizenRT.Stdlib
