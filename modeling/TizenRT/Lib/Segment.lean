import Mathlib.Data.List.FinRange
import Mathlib.GroupTheory.Perm.Basic

set_option autoImplicit false

/-!
An array of `len` entries as a function on `Fin len`, and its segments `[lo, lo + n)`: the
permutations of a segment's entries that leave the rest of the array alone, what holds of every
entry of a segment, and order on a segment. An in-place sort is stated with these: each swap inside
the segment is such a permutation, they compose, they carry what holds of every entry, and a
segment sorted in two parts is sorted when each entry of the first is below each of the second.
-/

namespace Segment

variable {α : Type} {len : Nat}

def Inside (lo n : Nat) (k : Fin len) : Prop := lo ≤ k.val ∧ k.val < lo + n

/-- `mem'` is `mem` with the entries of `[lo, lo + n)` permuted among themselves. -/
def PermOn (lo n : Nat) (mem mem' : Fin len → α) : Prop :=
  ∃ σ : Equiv.Perm (Fin len), (∀ k, ¬ Inside lo n k → σ k = k) ∧ mem' = mem ∘ σ

section PermOn

variable {lo n : Nat} {mem mem₁ mem₂ mem₃ : Fin len → α}

theorem PermOn.refl (lo n : Nat) (mem : Fin len → α) : PermOn lo n mem mem :=
  ⟨1, fun _ _ => rfl, rfl⟩

theorem PermOn.trans (h₁ : PermOn lo n mem₁ mem₂) (h₂ : PermOn lo n mem₂ mem₃) :
    PermOn lo n mem₁ mem₃ := by
  obtain ⟨σ, hσ, rfl⟩ := h₁
  obtain ⟨τ, hτ, rfl⟩ := h₂
  refine ⟨σ * τ, fun k hk => ?_, rfl⟩
  rw [Equiv.Perm.mul_apply, hτ k hk, hσ k hk]

theorem PermOn.symm (h : PermOn lo n mem₁ mem₂) : PermOn lo n mem₂ mem₁ := by
  obtain ⟨σ, hσ, rfl⟩ := h
  refine ⟨σ.symm, fun k hk => σ.symm_apply_eq.mpr (hσ k hk).symm, ?_⟩
  funext k
  simp

theorem PermOn.swap {i j : Fin len} (hi : Inside lo n i) (hj : Inside lo n j) (mem : Fin len → α) :
    PermOn lo n mem (mem ∘ Equiv.swap i j) := by
  refine ⟨Equiv.swap i j, fun k hk => Equiv.swap_apply_of_ne_of_ne ?_ ?_, rfl⟩
  · rintro rfl; exact hk hi
  · rintro rfl; exact hk hj

theorem PermOn.mono {lo' n' : Nat} (h : PermOn lo n mem₁ mem₂) (hlo : lo' ≤ lo) (hhi : lo + n ≤ lo' + n') :
    PermOn lo' n' mem₁ mem₂ := by
  obtain ⟨σ, hσ, rfl⟩ := h
  refine ⟨σ, fun k hk => hσ k fun hin => hk ?_, rfl⟩
  exact ⟨by have := hin.1; omega, by have := hin.2; omega⟩

theorem PermOn.apply_of_not_inside (h : PermOn lo n mem₁ mem₂) {k : Fin len} (hk : ¬ Inside lo n k) :
    mem₂ k = mem₁ k := by
  obtain ⟨σ, hσ, rfl⟩ := h
  simp [hσ k hk]

theorem PermOn.exists_of_inside (h : PermOn lo n mem₁ mem₂) {k : Fin len} (hk : Inside lo n k) :
    ∃ k', Inside lo n k' ∧ mem₂ k = mem₁ k' := by
  obtain ⟨σ, hσ, rfl⟩ := h
  refine ⟨σ k, ?_, rfl⟩
  by_contra hout
  have hfix : σ (σ k) = σ k := hσ _ hout
  rw [σ.injective hfix] at hout
  exact hout hk

theorem PermOn.ofFn_perm (h : PermOn lo n mem₁ mem₂) : (List.ofFn mem₂).Perm (List.ofFn mem₁) := by
  obtain ⟨σ, -, rfl⟩ := h
  exact Equiv.Perm.ofFn_comp_perm σ mem₁

end PermOn

def AllOn (P : α → Prop) (lo n : Nat) (mem : Fin len → α) : Prop :=
  ∀ k, Inside lo n k → P (mem k)

def SortedOn (le : α → α → Prop) (lo n : Nat) (mem : Fin len → α) : Prop :=
  ∀ i j : Fin len, lo ≤ i.val → i.val < j.val → j.val < lo + n → le (mem i) (mem j)

section Facts

variable {P : α → Prop} {le : α → α → Prop} {lo n : Nat} {mem mem' : Fin len → α}

theorem PermOn.allOn (h : PermOn lo n mem mem') (hP : AllOn P lo n mem) : AllOn P lo n mem' := by
  intro k hk
  obtain ⟨k', hk', heq⟩ := h.exists_of_inside hk
  rw [heq]
  exact hP k' hk'

theorem AllOn.congr (hP : AllOn P lo n mem) (heq : ∀ k, Inside lo n k → mem' k = mem k) :
    AllOn P lo n mem' := fun k hk => heq k hk ▸ hP k hk

theorem SortedOn.congr (hs : SortedOn le lo n mem) (heq : ∀ k, Inside lo n k → mem' k = mem k) :
    SortedOn le lo n mem' := by
  intro i j hi hij hj
  rw [heq i ⟨hi, by omega⟩, heq j ⟨by omega, hj⟩]
  exact hs i j hi hij hj

theorem sortedOn_of_le_one (hn : n ≤ 1) : SortedOn le lo n mem := by
  intro i j hi hij hj
  omega

theorem SortedOn.append {m : Nat} (h₁ : SortedOn le lo m mem) (h₂ : SortedOn le (lo + m) n mem)
    (hcross : ∀ i j, Inside lo m i → Inside (lo + m) n j → le (mem i) (mem j)) :
    SortedOn le lo (m + n) mem := by
  intro i j hi hij hj
  by_cases him : i.val < lo + m
  · by_cases hjm : j.val < lo + m
    · exact h₁ i j hi hij hjm
    · exact hcross i j ⟨hi, him⟩ ⟨by omega, by omega⟩
  · exact h₂ i j (by omega) hij (by omega)

theorem SortedOn.of_le {m : Nat} (h : SortedOn le lo n mem) (hm : m ≤ n) : SortedOn le lo m mem :=
  fun i j hi hij hj => h i j hi hij (by omega)

theorem SortedOn.cons (h : SortedOn le (lo + 1) n mem)
    (hx : ∀ x j : Fin len, x.val = lo → Inside (lo + 1) n j → le (mem x) (mem j)) :
    SortedOn le lo (n + 1) mem := by
  intro i j hi hij hj
  by_cases hil : i.val = lo
  · exact hx i j hil ⟨by omega, by omega⟩
  · exact h i j (by omega) hij (by omega)

theorem SortedOn.of_allOn (hP : AllOn P lo n mem) (h : ∀ a b, P a → P b → le a b) :
    SortedOn le lo n mem := fun i j hi hij hj =>
  h _ _ (hP i ⟨hi, by omega⟩) (hP j ⟨by omega, hj⟩)

theorem AllOn.imp {Q : α → Prop} (h : AllOn P lo n mem) (hPQ : ∀ a, P a → Q a) : AllOn Q lo n mem :=
  fun k hk => hPQ _ (h k hk)

theorem allOn_of_eq_zero (hn : n = 0) : AllOn P lo n mem :=
  fun _ hk => absurd hk.2 (by have := hk.1; omega)

theorem AllOn.sub {lo' n' : Nat} (h : AllOn P lo n mem) (hlo : lo ≤ lo') (hhi : lo' + n' ≤ lo + n) :
    AllOn P lo' n' mem :=
  fun k hk => h k ⟨by have := hk.1; omega, by have := hk.2; omega⟩

theorem AllOn.append {m : Nat} (h₁ : AllOn P lo m mem) (h₂ : AllOn P (lo + m) n mem) :
    AllOn P lo (m + n) mem := by
  intro k hk
  by_cases hkm : k.val < lo + m
  · exact h₁ k ⟨hk.1, hkm⟩
  · exact h₂ k ⟨by omega, by have := hk.2; omega⟩

theorem PermOn.allOn_of_disjoint {lo' n' : Nat} (h : PermOn lo n mem mem') (hP : AllOn P lo' n' mem)
    (hdisj : lo + n ≤ lo' ∨ lo' + n' ≤ lo) : AllOn P lo' n' mem' :=
  hP.congr fun k hk => h.apply_of_not_inside fun hin => by
    have := hk.1; have := hk.2; have := hin.1; have := hin.2; omega

theorem PermOn.sortedOn_of_disjoint {lo' n' : Nat} (h : PermOn lo n mem mem')
    (hs : SortedOn le lo' n' mem) (hdisj : lo + n ≤ lo' ∨ lo' + n' ≤ lo) : SortedOn le lo' n' mem' :=
  hs.congr fun k hk => h.apply_of_not_inside fun hin => by
    have := hk.1; have := hk.2; have := hin.1; have := hin.2; omega

theorem SortedOn.append_of_allOn {Q : α → Prop} {m : Nat} (h₁ : SortedOn le lo m mem)
    (h₂ : SortedOn le (lo + m) n mem) (hP : AllOn P lo m mem) (hQ : AllOn Q (lo + m) n mem)
    (hPQ : ∀ a b, P a → Q b → le a b) : SortedOn le lo (m + n) mem :=
  h₁.append h₂ fun i j hi hj => hPQ _ _ (hP i hi) (hQ j hj)

theorem AllOn.extend {x lo' n' : Nat} (h : AllOn P lo n mem)
    (hk : ∀ k : Fin len, Inside lo' n' k → k.val ≠ x → Inside lo n k)
    (hx : ∀ k : Fin len, Inside lo' n' k → k.val = x → P (mem k)) : AllOn P lo' n' mem := by
  intro k hk'
  by_cases hkx : k.val = x
  · exact hx k hk' hkx
  · exact h k (hk k hk' hkx)

theorem sortedOn_zero_iff : SortedOn le 0 len mem ↔ (List.ofFn mem).Pairwise le := by
  rw [List.pairwise_ofFn]
  constructor
  · intro h i j hij
    exact h i j (Nat.zero_le _) hij (by simp)
  · intro h i j _ hij _
    exact h (Fin.lt_def.mpr hij)

end Facts

section Swap

variable {mem : Fin len → α} {a b k : Fin len}

theorem comp_swap_of_ne (ha : k.val ≠ a.val) (hb : k.val ≠ b.val) : (mem ∘ Equiv.swap a b) k = mem k := by
  rw [Function.comp_apply, Equiv.swap_apply_of_ne_of_ne (Fin.ne_of_val_ne ha) (Fin.ne_of_val_ne hb)]

theorem comp_swap_of_eq_left (h : k.val = a.val) : (mem ∘ Equiv.swap a b) k = mem b := by
  rw [Fin.ext h, Function.comp_apply, Equiv.swap_apply_left]

theorem comp_swap_of_eq_right (h : k.val = b.val) : (mem ∘ Equiv.swap a b) k = mem a := by
  rw [Fin.ext h, Function.comp_apply, Equiv.swap_apply_right]

theorem AllOn.comp_swap {P : α → Prop} {lo n lo' n' : Nat} (h : AllOn P lo n mem)
    (hk : ∀ k : Fin len, Inside lo' n' k → k.val ≠ a.val → k.val ≠ b.val → Inside lo n k)
    (ha : Inside lo' n' a → P (mem b)) (hb : Inside lo' n' b → P (mem a)) :
    AllOn P lo' n' (mem ∘ Equiv.swap a b) := by
  intro k hk'
  by_cases hka : k.val = a.val
  · rw [comp_swap_of_eq_left hka]
    exact ha (Fin.ext hka ▸ hk')
  · by_cases hkb : k.val = b.val
    · rw [comp_swap_of_eq_right hkb]
      exact hb (Fin.ext hkb ▸ hk')
    · rw [comp_swap_of_ne hka hkb]
      exact h k (hk k hk' hka hkb)

theorem AllOn.comp_swap_of_not_inside {P : α → Prop} {lo n : Nat} (h : AllOn P lo n mem)
    (ha : ¬ Inside lo n a) (hb : ¬ Inside lo n b) : AllOn P lo n (mem ∘ Equiv.swap a b) :=
  h.comp_swap (fun _ hk _ _ => hk) (fun hin => absurd hin ha) fun hin => absurd hin hb

end Swap

end Segment
