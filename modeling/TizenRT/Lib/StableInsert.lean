import Mathlib.Data.List.Sort

set_option autoImplicit false

/-!
Insertion into a list kept sorted by a key, behind every entry whose key is not larger:
the discipline of priority queues that serve equal keys first come, first served.
`insertByKey` is `List.orderedInsert` at the strict order of the keys; the lemmas say
that it keeps the list sorted, that it appends to the block of its own key, and, with a
stamp that grows with every insertion, that each block stays in insertion order.
-/

namespace StableInsert

open List

variable {α β : Type} [LinearOrder β] (key : α → β)

def insertByKey (x : α) (l : List α) : List α :=
  l.orderedInsert (fun a b => key a < key b) x

def Sorted (l : List α) : Prop := l.Pairwise (fun a b => key a ≤ key b)

variable {key}

@[simp] theorem insertByKey_nil (x : α) : insertByKey key x [] = [x] := rfl

theorem insertByKey_cons (x b : α) (l : List α) :
    insertByKey key x (b :: l) =
      if key x < key b then x :: b :: l else b :: insertByKey key x l := by
  simp [insertByKey]

theorem insertByKey_cons_of_lt {x b : α} (l : List α) (h : key x < key b) :
    insertByKey key x (b :: l) = x :: b :: l := by
  simp [insertByKey_cons,h]

theorem insertByKey_cons_of_le {x b : α} (l : List α) (h : key b ≤ key x) :
    insertByKey key x (b :: l) = b :: insertByKey key x l := by
  simp [insertByKey_cons,not_lt.mpr h]

@[simp] theorem mem_insertByKey {a x : α} {l : List α} :
    a ∈ insertByKey key x l ↔ a = x ∨ a ∈ l :=
  mem_orderedInsert _

theorem insertByKey_perm (x : α) (l : List α) : insertByKey key x l ~ x :: l :=
  perm_orderedInsert _ x l

theorem insertByKey_append {x : α} (pre post : List α) (hpre : ∀ b ∈ pre, key b ≤ key x) :
    insertByKey key x (pre ++ post) = pre ++ insertByKey key x post := by
  induction pre with
  | nil => rfl
  | cons b pre ih =>
    have hb : key b ≤ key x := hpre b (by simp)
    rw [List.cons_append,insertByKey_cons_of_le _ hb,ih (fun c hc => hpre c (by simp [hc]))]
    rfl

theorem sorted_insertByKey {x : α} {l : List α} (h : Sorted key l) :
    Sorted key (insertByKey key x l) := by
  induction l with
  | nil => simp [Sorted]
  | cons b l ih =>
    have hb := List.pairwise_cons.mp h
    by_cases hxb : key x < key b
    · rw [insertByKey_cons_of_lt _ hxb]
      refine List.Pairwise.cons ?_ h
      intro c hc
      rcases List.mem_cons.mp hc with rfl | hc
      · exact hxb.le
      · exact hxb.le.trans (hb.1 c hc)
    · rw [insertByKey_cons_of_le _ (not_lt.mp hxb)]
      refine List.Pairwise.cons ?_ (ih hb.2)
      intro c hc
      rcases mem_insertByKey.mp hc with rfl | hc
      · exact not_lt.mp hxb
      · exact hb.1 c hc

theorem insertByKey_eq_takeWhile (x : α) (l : List α) :
    insertByKey key x l =
      l.takeWhile (fun b => decide (key b ≤ key x)) ++
        x :: l.dropWhile (fun b => decide (key b ≤ key x)) := by
  induction l with
  | nil => rfl
  | cons b l ih =>
    by_cases hb : key b ≤ key x
    · rw [insertByKey_cons_of_le _ hb,ih]
      simp [hb]
    · rw [insertByKey_cons_of_lt _ (not_le.mp hb)]
      simp [hb]

theorem getLast?_insertByKey {x y : α} {l : List α} (hl : l.getLast? = some y)
    (hxy : key x < key y) : (insertByKey key x l).getLast? = some y := by
  induction l with
  | nil => simp at hl
  | cons b l ih =>
    cases l with
    | nil =>
      obtain rfl : b = y := by simpa using hl
      rw [insertByKey_cons_of_lt _ hxy]
      rfl
    | cons c l =>
      rw [List.getLast?_cons_cons] at hl
      by_cases hb : key x < key b
      · rw [insertByKey_cons_of_lt _ hb,List.getLast?_cons_cons,List.getLast?_cons_cons]
        exact hl
      · obtain ⟨d,m,hm⟩ : ∃ d m, insertByKey key x (c :: l) = d :: m := by
          rw [insertByKey_cons]
          split_ifs <;> exact ⟨_,_,rfl⟩
        rw [insertByKey_cons_of_le _ (not_lt.mp hb),hm,List.getLast?_cons_cons,← hm]
        exact ih hl

theorem filter_insertByKey {x : α} {l : List α} (h : Sorted key l) (k : β) :
    (insertByKey key x l).filter (fun a => key a = k) =
      if key x = k then l.filter (fun a => key a = k) ++ [x]
      else l.filter (fun a => key a = k) := by
  induction l with
  | nil => by_cases hx : key x = k <;> simp [hx]
  | cons b l ih =>
    have hb := List.pairwise_cons.mp h
    by_cases hxb : key x < key b
    · rw [insertByKey_cons_of_lt _ hxb]
      have hnone : ∀ c ∈ b :: l, key x = k → key c ≠ k := by
        intro c hc hx
        rcases List.mem_cons.mp hc with rfl | hc
        · exact hx ▸ hxb.ne'
        · exact hx ▸ (hxb.trans_le (hb.1 c hc)).ne'
      by_cases hx : key x = k
      · have hnil : (b :: l).filter (fun a => key a = k) = [] := by
          simpa using fun c hc => hnone c hc hx
        simp [hx,hnil]
      · simp [hx]
    · rw [insertByKey_cons_of_le _ (not_lt.mp hxb)]
      by_cases hbk : key b = k <;> by_cases hx : key x = k <;> simp [hbk,hx,ih hb.2]

section Fifo

variable (key)
variable (stamp : α → ℕ)

def FifoSorted (l : List α) : Prop :=
  l.Pairwise (fun a b => key a < key b ∨ key a = key b ∧ stamp a < stamp b)

variable {key} {stamp}

theorem FifoSorted.sorted {l : List α} (h : FifoSorted key stamp l) : Sorted key l :=
  h.imp fun hab => hab.elim le_of_lt (fun h => h.1.le)

theorem FifoSorted.sublist {l₁ l₂ : List α} (h : FifoSorted key stamp l₂) (hs : l₁ <+ l₂) :
    FifoSorted key stamp l₁ :=
  List.Pairwise.sublist hs h

theorem fifoSorted_congr {key' : α → β} {stamp' : α → ℕ} {l : List α}
    (h : ∀ a ∈ l, key' a = key a ∧ stamp' a = stamp a) :
    FifoSorted key' stamp' l ↔ FifoSorted key stamp l :=
  List.Pairwise.iff_of_mem fun ha hb => by
    rw [(h _ ha).1,(h _ ha).2,(h _ hb).1,(h _ hb).2]

theorem fifoSorted_insertByKey {x : α} {l : List α} (h : FifoSorted key stamp l)
    (hx : ∀ a ∈ l, stamp a < stamp x) : FifoSorted key stamp (insertByKey key x l) := by
  induction l with
  | nil => simp [FifoSorted]
  | cons b l ih =>
    have hb := List.pairwise_cons.mp h
    by_cases hxb : key x < key b
    · rw [insertByKey_cons_of_lt _ hxb]
      refine List.Pairwise.cons ?_ h
      intro c hc
      rcases List.mem_cons.mp hc with rfl | hc
      · exact Or.inl hxb
      · rcases hb.1 c hc with hbc | ⟨hbc,_⟩
        · exact Or.inl (hxb.trans hbc)
        · exact Or.inl (hbc ▸ hxb)
    · rw [insertByKey_cons_of_le _ (not_lt.mp hxb)]
      refine List.Pairwise.cons ?_ (ih hb.2 (fun a ha => hx a (by simp [ha])))
      intro c hc
      rcases mem_insertByKey.mp hc with rfl | hc
      · rcases lt_or_eq_of_le (not_lt.mp hxb) with hlt | heq
        · exact Or.inl hlt
        · exact Or.inr ⟨heq,hx b (by simp)⟩
      · exact hb.1 c hc

end Fifo

end StableInsert
