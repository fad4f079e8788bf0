import Mathlib.Data.List.Basic
import Mathlib.Tactic.Ring

set_option autoImplicit false

/-!
A delta list keeps, for every entry, only the time that separates it from its
predecessor (its lag); the absolute time of an entry is the running sum of the lags up
to it. The lemmas below say how the absolute times move when a lag is shifted between
neighbours, which is all that insertion and removal in such a list do.
-/

namespace DeltaList

variable {α : Type}

/-- Absolute times of a delta list whose first lag counts from `base`. -/
def times (base : Int) : List (α × Int) → List (α × Int)
  | [] => []
  | (k,d) :: rest => (k,base + d) :: times (base + d) rest

def lagSum : List (α × Int) → Int
  | [] => 0
  | (_,d) :: rest => d + lagSum rest

@[simp] theorem times_nil (base : Int) : times base ([] : List (α × Int)) = [] := rfl

@[simp] theorem times_cons (base : Int) (k : α) (d : Int) (rest : List (α × Int)) :
    times base ((k,d) :: rest) = (k,base + d) :: times (base + d) rest := rfl

@[simp] theorem lagSum_nil : lagSum ([] : List (α × Int)) = 0 := rfl

@[simp] theorem lagSum_cons (k : α) (d : Int) (rest : List (α × Int)) :
    lagSum ((k,d) :: rest) = d + lagSum rest := rfl

@[simp] theorem map_fst_times (base : Int) (l : List (α × Int)) :
    (times base l).map Prod.fst = l.map Prod.fst := by
  induction l generalizing base with
  | nil => rfl
  | cons e rest ih => obtain ⟨k,d⟩ := e; simp [ih]

theorem lagSum_append (l₁ l₂ : List (α × Int)) :
    lagSum (l₁ ++ l₂) = lagSum l₁ + lagSum l₂ := by
  induction l₁ with
  | nil => simp
  | cons e rest ih => obtain ⟨k,d⟩ := e; simp [ih,Int.add_assoc]

theorem times_append (base : Int) (l₁ l₂ : List (α × Int)) :
    times base (l₁ ++ l₂) = times base l₁ ++ times (base + lagSum l₁) l₂ := by
  induction l₁ generalizing base with
  | nil => simp
  | cons e rest ih =>
    obtain ⟨k,d⟩ := e
    simp [ih,Int.add_assoc]

theorem times_shift (base x : Int) (k : α) (d : Int) (rest : List (α × Int)) :
    times base ((k,d + x) :: rest) = times (base + x) ((k,d) :: rest) := by
  have h : base + (d + x) = base + x + d := by ring
  simp only [times_cons,h]

theorem times_shift_sub (base x : Int) (k : α) (d : Int) (rest : List (α × Int)) :
    times base ((k,d - x) :: rest) = times (base - x) ((k,d) :: rest) := by
  have h : base + (d - x) = base - x + d := by ring
  simp only [times_cons,h]

theorem times_sub_base (base c : Int) (l : List (α × Int)) :
    times (base - c) l = (times base l).map (fun e => (e.1,e.2 - c)) := by
  induction l generalizing base with
  | nil => rfl
  | cons e rest ih =>
    obtain ⟨k,d⟩ := e
    have h : base - c + d = base + d - c := by ring
    simp [h,ih]

theorem fst_mem_of_mem_times {base : Int} {l : List (α × Int)} {e : α × Int}
    (h : e ∈ times base l) : e.1 ∈ l.map Prod.fst := by
  rw [← map_fst_times base l]
  exact List.mem_map_of_mem h

theorem lag_nonneg_of_sorted {base : Int} {l : List (α × Int)}
    (h : (times base l).Pairwise (fun x y => x.2 ≤ y.2)) : ∀ e ∈ l.tail, 0 ≤ e.2 := by
  induction l generalizing base with
  | nil => simp
  | cons e rest ih =>
    obtain ⟨k,d⟩ := e
    intro f hf
    simp only [times_cons,List.pairwise_cons] at h
    obtain ⟨hhead,htail⟩ := h
    cases rest with
    | nil => simp at hf
    | cons g rest' =>
      obtain ⟨k',d'⟩ := g
      simp only [List.tail_cons,List.mem_cons] at hf
      rcases hf with rfl | hf
      · have := hhead (k',base + d + d') (by simp)
        simp only at this
        omega
      · exact ih htail f hf

end DeltaList
