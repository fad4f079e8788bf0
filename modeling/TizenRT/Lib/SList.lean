import TizenRT.Lib.DList

set_option autoImplicit false

/-!
Singly linked lists held in a memory through a `next` field. `Chain next s L e` says that following
`next` from `s` visits the cells `L` and then reaches `e`. A chain ending at `none` has no repeated
cell and is determined by its start; fields changed off the chain do not change it; and the walk
`DList.walkUntil` looking for the cell whose `next` is a given one stops at its predecessor, or at the
end when the cell is not listed.
-/

namespace SList

variable {P : Type}

inductive Chain (next : P → Option P) : Option P → List P → Option P → Prop
  | nil (s : Option P) : Chain next s [] s
  | cons (p : P) (L : List P) (e : Option P) : Chain next (next p) L e → Chain next (some p) (p :: L) e

variable {next : P → Option P}

theorem Chain.nil_iff {s e : Option P} : Chain next s [] e ↔ s = e := by
  constructor
  · intro h
    cases h
    rfl
  · rintro rfl
    exact .nil s

theorem Chain.cons_iff {s e : Option P} {p : P} {L : List P} :
    Chain next s (p :: L) e ↔ s = some p ∧ Chain next (next p) L e := by
  constructor
  · intro h
    cases h with
    | cons _ _ _ hs => exact ⟨rfl,hs⟩
  · rintro ⟨rfl,hs⟩
    exact .cons p L e hs

theorem Chain.append {s m e : Option P} {l₁ l₂ : List P} (h₁ : Chain next s l₁ m) (h₂ : Chain next m l₂ e) :
    Chain next s (l₁ ++ l₂) e := by
  induction h₁ with
  | nil => exact h₂
  | cons p L m _ ih => exact .cons p (L ++ l₂) e (ih h₂)

theorem Chain.split {s e : Option P} {l₁ l₂ : List P} (h : Chain next s (l₁ ++ l₂) e) :
    ∃ m, Chain next s l₁ m ∧ Chain next m l₂ e := by
  induction l₁ generalizing s with
  | nil => exact ⟨s,.nil s,h⟩
  | cons p l₁ ih =>
    obtain ⟨rfl,hs⟩ := Chain.cons_iff.mp h
    obtain ⟨m,h₁,h₂⟩ := ih hs
    exact ⟨m,.cons p l₁ m h₁,h₂⟩

theorem Chain.eq_of_start {s : Option P} {L L' : List P} (h : Chain next s L none) (h' : Chain next s L' none) :
    L = L' := by
  induction L generalizing s L' with
  | nil =>
    cases h
    cases L' with
    | nil => rfl
    | cons q L' => exact absurd (Chain.cons_iff.mp h').1 (by simp)
  | cons p L ih =>
    obtain ⟨rfl,hs⟩ := Chain.cons_iff.mp h
    cases L' with
    | nil => cases h'
    | cons q L' =>
      obtain ⟨hq,hs'⟩ := Chain.cons_iff.mp h'
      cases hq
      rw [ih hs hs']

theorem Chain.nodup {s : Option P} {L : List P} (h : Chain next s L none) : L.Nodup := by
  induction L generalizing s with
  | nil => exact List.nodup_nil
  | cons p L ih =>
    obtain ⟨rfl,hs⟩ := Chain.cons_iff.mp h
    refine List.nodup_cons.mpr ⟨fun hmem => ?_,ih hs⟩
    obtain ⟨l₁,l₂,rfl⟩ := List.append_of_mem hmem
    obtain ⟨m,-,hsuf⟩ := hs.split
    obtain ⟨rfl,-⟩ := Chain.cons_iff.mp hsuf
    have hl := (Chain.cons_iff.mpr ⟨rfl,hs⟩).eq_of_start hsuf
    have := congrArg List.length hl
    simp only [List.length_cons,List.length_append] at this
    omega

theorem Chain.frame {next' : P → Option P} {s e : Option P} {L : List P} (h : Chain next s L e)
    (hn : ∀ p ∈ L, next' p = next p) : Chain next' s L e := by
  induction h with
  | nil s => exact .nil s
  | cons p L e _ ih =>
    refine .cons p L e ?_
    rw [hn p List.mem_cons_self]
    exact ih fun q hq => hn q (List.mem_cons_of_mem p hq)

theorem Chain.start_eq_head? {s : Option P} {L : List P} (h : Chain next s L none) : s = L.head? := by
  cases h with
  | nil => rfl
  | cons => rfl

theorem Chain.next_eq {s : Option P} {l₁ l₂ : List P} {p : P} (h : Chain next s (l₁ ++ p :: l₂) none) :
    next p = l₂.head? := by
  obtain ⟨m,-,h₂⟩ := h.split
  exact (Chain.cons_iff.mp h₂).2.start_eq_head?

theorem Chain.snoc_iff {s : Option P} {L : List P} {p : P} :
    Chain next s (L ++ [p]) none ↔ Chain next s L (some p) ∧ next p = none := by
  constructor
  · intro h
    obtain ⟨m,h₁,h₂⟩ := h.split
    obtain ⟨rfl,h₃⟩ := Chain.cons_iff.mp h₂
    exact ⟨h₁,Chain.nil_iff.mp h₃⟩
  · rintro ⟨h₁,hp⟩
    refine h₁.append (.cons p [] none ?_)
    rw [hp]
    exact .nil none

theorem eq_nil_of_getLast? {l₁ l₂ : List P} {p : P} (hnd : (l₁ ++ p :: l₂).Nodup)
    (ht : (l₁ ++ p :: l₂).getLast? = some p) : l₂ = [] := by
  cases l₂ with
  | nil => rfl
  | cons y l₂ =>
    rw [List.getLast?_append_of_ne_nil _ (List.cons_ne_nil _ _),List.getLast?_cons_cons] at ht
    exact absurd (List.mem_of_getLast? ht) (List.nodup_cons.mp (List.nodup_append.mp hnd).2.1).1

theorem Chain.walkUntil_pred [DecidableEq P] {s : Option P} {l₁ l₂ : List P} {p x : P}
    (h : Chain next s (l₁ ++ p :: x :: l₂) none) {fuel : Nat} (hf : (l₁ ++ p :: x :: l₂).length ≤ fuel) :
    DList.walkUntil next (fun q => decide (next q ≠ some x)) fuel s = some (some p) := by
  have hnd := h.nodup
  induction l₁ generalizing s fuel with
  | nil =>
    obtain ⟨rfl,hs⟩ := Chain.cons_iff.mp h
    obtain ⟨n,rfl⟩ : ∃ n, fuel = n + 1 := ⟨fuel - 1,by simp at hf; omega⟩
    simp [DList.walkUntil,(Chain.cons_iff.mp hs).1]
  | cons q l₁ ih =>
    obtain ⟨rfl,hs⟩ := Chain.cons_iff.mp h
    obtain ⟨n,rfl⟩ : ∃ n, fuel = n + 1 := ⟨fuel - 1,by simp at hf; omega⟩
    have hq : next q ≠ some x := by
      rw [hs.start_eq_head?]
      have hnd' : (l₁ ++ [p] ++ x :: l₂).Nodup := by simpa using (List.nodup_cons.mp hnd).2
      have hx : x ∉ l₁ ++ [p] := fun hm => List.disjoint_of_nodup_append hnd' hm List.mem_cons_self
      cases l₁ with
      | nil => simpa using fun he => hx (by simp [he])
      | cons r l₁ => simpa using fun he => hx (by simp [he])
    rw [DList.walkUntil,if_pos (decide_eq_true hq)]
    exact ih hs (by simp at hf ⊢; omega) (List.nodup_cons.mp hnd).2

theorem Chain.walkUntil_absent [DecidableEq P] {s : Option P} {L : List P} {x : P} (h : Chain next s L none)
    (hx : x ∉ L) {fuel : Nat} (hf : L.length ≤ fuel) :
    DList.walkUntil next (fun q => decide (next q ≠ some x)) fuel s = some none := by
  induction L generalizing s fuel with
  | nil =>
    cases h
    cases fuel <;> rfl
  | cons q L ih =>
    obtain ⟨rfl,hs⟩ := Chain.cons_iff.mp h
    obtain ⟨n,rfl⟩ : ∃ n, fuel = n + 1 := ⟨fuel - 1,by simp at hf; omega⟩
    have hq : next q ≠ some x := by
      rw [hs.start_eq_head?]
      intro he
      exact hx (List.mem_cons_of_mem q (List.mem_of_mem_head? he))
    rw [DList.walkUntil,if_pos (decide_eq_true hq)]
    exact ih hs (fun hm => hx (List.mem_cons_of_mem q hm)) (by simp at hf; omega)

theorem Chain.update_of_not_mem [DecidableEq P] {s e : Option P} {L : List P} (h : Chain next s L e) {x : P}
    (hx : x ∉ L) (v : Option P) : Chain (Function.update next x v) s L e :=
  h.frame fun _ hp => Function.update_of_ne (ne_of_mem_of_not_mem hp hx) _ _

theorem Chain.unlink [DecidableEq P] {s : Option P} {l₁ l₂ : List P} {q r : P}
    (h : Chain next s (l₁ ++ q :: r :: l₂) none) :
    Chain (Function.update next q (next r)) s (l₁ ++ q :: l₂) none := by
  have hnd := List.nodup_middle.mp h.nodup
  have hq₁ : q ∉ l₁ ++ r :: l₂ := (List.nodup_cons.mp hnd).1
  obtain ⟨m,h₁,h₂⟩ := h.split
  obtain ⟨rfl,h₃⟩ := Chain.cons_iff.mp h₂
  obtain ⟨-,h₄⟩ := Chain.cons_iff.mp h₃
  refine (h₁.update_of_not_mem (fun hm => hq₁ (List.mem_append_left _ hm)) _).append (.cons q l₂ none ?_)
  rw [Function.update_self]
  exact h₄.update_of_not_mem (fun hm => hq₁ (by simp [hm])) _

theorem Chain.walkUntil_find {s : Option P} {L : List P} (h : Chain next s L none) (cont : P → Bool)
    {fuel : Nat} (hf : L.length ≤ fuel) : DList.walkUntil next cont fuel s = some (L.find? fun p => !cont p) := by
  induction L generalizing s fuel with
  | nil =>
    cases h
    cases fuel <;> rfl
  | cons p L ih =>
    obtain ⟨rfl,hs⟩ := Chain.cons_iff.mp h
    obtain ⟨n,rfl⟩ : ∃ n, fuel = n + 1 := ⟨fuel - 1,by simp at hf; omega⟩
    by_cases hc : cont p
    · simp only [DList.walkUntil,hc,if_true,List.find?_cons,Bool.not_true]
      exact ih hs (by simp at hf; omega)
    · simp [DList.walkUntil,hc]

/-- The search `for (prev = NULL, curr = s; curr && curr != x; prev = curr, curr = curr->next)`
from a cell after `prev`: the cell before `x` and `x`, or the last cell and `none` when `x` is not met;
`none` outside when the fuel runs out. -/
def walkPrev [DecidableEq P] (next : P → Option P) (x : P) : Nat → Option P → Option P → Option (Option P × Option P)
  | _, prev, none => some (prev,none)
  | 0, _, some _ => none
  | n + 1, prev, some c => if c ≠ x then walkPrev next x n (some c) (next c) else some (prev,some c)

theorem getLast?_or_cons {a : P} {l : List P} (prev : Option P) :
    (a :: l).getLast?.or prev = l.getLast?.or (some a) := by
  cases l with
  | nil => rfl
  | cons b l =>
    obtain ⟨y,hy⟩ : ∃ y, (b :: l).getLast? = some y := ⟨_,List.getLast?_eq_some_getLast (List.cons_ne_nil b l)⟩
    rw [List.getLast?_cons_cons,hy]
    rfl

theorem Chain.walkPrev_mem [DecidableEq P] {s e : Option P} {l₁ l₂ : List P} {x : P}
    (h : Chain next s (l₁ ++ x :: l₂) e) (hx : x ∉ l₁) {fuel : Nat} (hf : l₁.length < fuel) (prev : Option P) :
    walkPrev next x fuel prev s = some (l₁.getLast?.or prev,some x) := by
  induction l₁ generalizing s fuel prev with
  | nil =>
    obtain ⟨rfl,-⟩ := Chain.cons_iff.mp h
    obtain ⟨n,rfl⟩ : ∃ n, fuel = n + 1 := ⟨fuel - 1,by simp at hf; omega⟩
    simp [walkPrev]
  | cons q l₁ ih =>
    obtain ⟨rfl,hs⟩ := Chain.cons_iff.mp h
    have hq : q ≠ x := fun he => hx (by simp [he])
    obtain ⟨n,rfl⟩ : ∃ n, fuel = n + 1 := ⟨fuel - 1,by simp at hf; omega⟩
    rw [walkPrev,if_pos hq,getLast?_or_cons]
    exact ih hs (fun hm => hx (List.mem_cons_of_mem q hm)) (by simp at hf; omega) _

theorem Chain.walkPrev_absent [DecidableEq P] {s : Option P} {L : List P} {x : P} (h : Chain next s L none)
    (hx : x ∉ L) {fuel : Nat} (hf : L.length ≤ fuel) (prev : Option P) :
    walkPrev next x fuel prev s = some (L.getLast?.or prev,none) := by
  induction L generalizing s fuel prev with
  | nil =>
    cases h
    cases fuel <;> rfl
  | cons q L ih =>
    obtain ⟨rfl,hs⟩ := Chain.cons_iff.mp h
    have hq : q ≠ x := fun he => hx (by simp [he])
    obtain ⟨n,rfl⟩ : ∃ n, fuel = n + 1 := ⟨fuel - 1,by simp at hf; omega⟩
    rw [walkPrev,if_pos hq,getLast?_or_cons]
    exact ih hs (fun hm => hx (List.mem_cons_of_mem q hm)) (by simp at hf; omega) _

end SList
