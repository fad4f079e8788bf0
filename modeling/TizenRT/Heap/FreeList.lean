import TizenRT.Heap.Layout
import Mathlib.Data.List.TakeWhile

set_option autoImplicit false

/-!
The free list of the heap: from `mm_nodelist[0]` a doubly linked list through every sentinel in
turn, sentinel `i` followed by the free chunks of size class `i` (`mm_size2ndx`) in non-decreasing
size. Unlinking a listed chunk erases it from its class, and `mm_addfreechunk` inserts a chunk into
its class before the first one that is not smaller.
-/

namespace TizenRT.Heap

open BoundaryTag

/-- The sentinels of the classes `l`, each followed by the chunks `B` lists for it. -/
def MmHeap.classes (heap : MmHeap) (B : Nat → List Nat) (l : List Nat) : List Nat :=
  l.flatMap fun j => heap.nodelist j :: B j

def MmHeap.freeList (heap : MmHeap) (B : Nat → List Nat) : List Nat :=
  heap.classes B (List.range MM_NNODES)

/-- (d) of the heap's shape: the list from `mm_nodelist[0]` is doubly linked and ends at NULL; it
visits the sentinels, of size 0, in index order and between sentinels `i` and `i + 1` the chunks
`B i`, of size class `i`, in non-decreasing size. -/
structure MmHeap.FreeList (heap : MmHeap) (B : Nat → List Nat) : Prop where
  seg : DList.Seg heap.flink heap.blink none (some (heap.nodelist 0)) (heap.freeList B) none
  sentinel : ∀ i < MM_NNODES, heap.size (heap.nodelist i) = 0
  bucket : ∀ i < MM_NNODES, ∀ c ∈ B i, mmSize2ndx (heap.size c) = i ∧ 0 < heap.size c
  sorted : ∀ i < MM_NNODES, (B i).Pairwise fun c d => heap.size c ≤ heap.size d

theorem mmSize2ndxLoop_le (n v k m : Nat) (hv : v < 2 ^ (m + 1)) : mmSize2ndxLoop n v k ≤ k + m := by
  induction n generalizing v k m with
  | zero => simp [mmSize2ndxLoop]
  | succ n ih =>
    unfold mmSize2ndxLoop
    split
    · obtain ⟨m,rfl⟩ : ∃ m', m = m' + 1 := ⟨m - 1,by
        rcases m with _ | m
        · simp at hv
          omega
        · omega⟩
      have := ih (v >>> 1) (k + 1) m (by rw [Nat.shiftRight_eq_div_pow]; rw [Nat.pow_succ] at hv; omega)
      omega
    · omega

theorem mmSize2ndx_lt (size : Nat) : mmSize2ndx size < MM_NNODES := by
  unfold mmSize2ndx
  split
  · simp [MM_NNODES,MM_MAX_SHIFT,MM_MIN_SHIFT]
  · rename_i h
    have := mmSize2ndxLoop_le MM_MAX_SHIFT (size >>> MM_MIN_SHIFT) 0 17
      (by simp only [MM_MAX_CHUNK,MM_MAX_SHIFT,Nat.shiftLeft_eq,MM_MIN_SHIFT,Nat.shiftRight_eq_div_pow] at h ⊢
          omega)
    simp only [MM_NNODES,MM_MAX_SHIFT,MM_MIN_SHIFT] at this ⊢
    omega

section Classes

variable (heap : MmHeap) (B : Nat → List Nat)

theorem MmHeap.freeList_split {i : Nat} (hi : i < MM_NNODES) :
    heap.freeList B = heap.classes B (List.range i) ++
      heap.nodelist i :: (B i ++ heap.classes B (List.range' (i + 1) (MM_NNODES - (i + 1)))) := by
  have hr : List.range MM_NNODES = List.range' 0 i ++ List.range' (0 + 1 * i) (MM_NNODES - i) := by
    rw [List.range'_append,List.range_eq_range']
    congr 1
    omega
  obtain ⟨n,hn⟩ : ∃ n, MM_NNODES - i = n + 1 := ⟨MM_NNODES - i - 1,by omega⟩
  have hn' : MM_NNODES - (i + 1) = n := by omega
  rw [MmHeap.freeList,hr,hn,hn',List.range'_succ,MmHeap.classes,List.flatMap_append,List.flatMap_cons,
    ← List.range_eq_range']
  simp only [Nat.zero_add,Nat.one_mul,MmHeap.classes,List.cons_append]

theorem MmHeap.classes_update {l : List Nat} {i : Nat} (X : List Nat) (hi : i ∉ l) :
    heap.classes (Function.update B i X) l = heap.classes B l := by
  unfold MmHeap.classes
  refine List.flatMap_congr fun j hj => ?_
  rw [Function.update_of_ne (fun (he : j = i) => hi (he ▸ hj))]

theorem MmHeap.classes_head? {i : Nat} (hi : i < MM_NNODES) :
    ∀ y ∈ (heap.classes B (List.range' (i + 1) (MM_NNODES - (i + 1)))).head?,
      y = heap.nodelist (i + 1) ∧ i + 1 < MM_NNODES := by
  intro y hy
  obtain ⟨n,hn⟩ : ∃ n, MM_NNODES - (i + 1) = n := ⟨_,rfl⟩
  rw [hn] at hy
  cases n with
  | zero => simp [MmHeap.classes] at hy
  | succ n =>
    simp only [MmHeap.classes,List.range'_succ,List.flatMap_cons,List.cons_append,List.head?_cons,
      Option.mem_def,Option.some.injEq] at hy
    exact ⟨hy.symm,by omega⟩

theorem MmHeap.freeList_update {i : Nat} (hi : i < MM_NNODES) (X : List Nat) :
    heap.freeList (Function.update B i X) = heap.classes B (List.range i) ++
      heap.nodelist i :: (X ++ heap.classes B (List.range' (i + 1) (MM_NNODES - (i + 1)))) := by
  rw [heap.freeList_split _ hi,heap.classes_update B X (by simp),
    heap.classes_update B X (by simp only [List.mem_range']; omega),Function.update_self]

theorem MmHeap.mem_freeList {c : Nat} :
    c ∈ heap.freeList B ↔ ∃ i < MM_NNODES, c = heap.nodelist i ∨ c ∈ B i := by
  simp [MmHeap.freeList,MmHeap.classes]

end Classes

theorem MmHeap.Relinked.freeList {heap heap' : MmHeap} (h : heap.Relinked heap') :
    heap'.freeList = heap.freeList := by
  funext B
  simp only [MmHeap.freeList,MmHeap.classes,h.nodelist]

theorem takeWhile_append_of_head {α : Type} {p : α → Bool} {l m : List α} (h : ∀ y ∈ m.head?, p y = false) :
    (l ++ m).takeWhile p = l.takeWhile p := by
  induction l with
  | nil =>
    cases m with
    | nil => rfl
    | cons y m => simp [h y (by simp)]
  | cons a l ih =>
    simp only [List.cons_append,List.takeWhile_cons]
    split <;> simp [ih]

theorem dropWhile_append_of_head {α : Type} {p : α → Bool} {l m : List α} (h : ∀ y ∈ m.head?, p y = false) :
    (l ++ m).dropWhile p = l.dropWhile p ++ m := by
  induction l with
  | nil =>
    cases m with
    | nil => rfl
    | cons y m => simp [h y (by simp)]
  | cons a l ih =>
    simp only [List.cons_append,List.dropWhile_cons]
    split <;> simp [ih]

theorem mem_of_pair_sublist {α : Type} {a b : α} {l₁ l₂ : List α} (hn : (l₁ ++ b :: l₂).Nodup) (hab : a ≠ b)
    (h : List.Sublist [a, b] (l₁ ++ b :: l₂)) : a ∈ l₁ := by
  have hb : b ∉ l₂ := (List.nodup_cons.mp (List.nodup_append.mp hn).2.1).1
  obtain ⟨r₁,r₂,hr,h₁,h₂⟩ := List.sublist_append_iff.mp h
  rcases r₁ with _ | ⟨c,r₁⟩
  · rw [List.nil_append] at hr
    subst hr
    rcases List.sublist_cons_iff.mp h₂ with h₂ | ⟨r,hr,-⟩
    · exact absurd (h₂.subset (by simp)) hb
    · exact absurd (List.cons.inj hr).1 hab
  · obtain ⟨rfl,-⟩ := List.cons.inj hr
    exact h₁.subset List.mem_cons_self

theorem append_eq_of_sep {α : Type} {p : α → Prop} {P Q P' Q' : List α} (h : P ++ Q = P' ++ Q')
    (hP : ∀ c ∈ P, p c) (hQ : ∀ c ∈ Q, ¬p c) (hP' : ∀ c ∈ P', p c) (hQ' : ∀ c ∈ Q', ¬p c) : P = P' := by
  induction P generalizing P' with
  | nil =>
    cases P' with
    | nil => rfl
    | cons c P' =>
      rw [List.nil_append] at h
      exact absurd (hP' c List.mem_cons_self) (hQ c (by rw [h]; exact List.mem_cons_self))
  | cons c P ih =>
    cases P' with
    | nil =>
      rw [List.nil_append] at h
      exact absurd (hP c List.mem_cons_self) (hQ' c (by rw [← h]; exact List.mem_cons_self))
    | cons c' P' =>
      obtain ⟨rfl,h'⟩ := List.cons.inj h
      rw [ih h' (fun d hd => hP d (List.mem_cons_of_mem _ hd)) (fun d hd => hP' d (List.mem_cons_of_mem _ hd))]

namespace MmHeap.FreeList

variable {heap : MmHeap} {B : Nat → List Nat}

theorem split_at {i : Nat} (P X : List Nat) (hi : i < MM_NNODES) :
    heap.freeList (Function.update B i (P ++ X)) =
      (heap.classes B (List.range i) ++ (heap.nodelist i :: P).dropLast) ++
        (heap.nodelist i :: P).getLast (List.cons_ne_nil _ _) ::
          (X ++ heap.classes B (List.range' (i + 1) (MM_NNODES - (i + 1)))) := by
  rw [heap.freeList_update B hi,List.append_assoc,← List.cons_append,← List.cons_append]
  conv_lhs => rw [← List.dropLast_concat_getLast (List.cons_ne_nil (heap.nodelist i) P)]
  simp

theorem unlink {i c : Nat} {P Q : List Nat} (hf : heap.FreeList B) (hi : i < MM_NNODES)
    (hB : B i = P ++ c :: Q) : (heap.unlink c).FreeList (Function.update B i (P ++ Q)) := by
  have hrel := heap.relinked_unlink c
  have hseg := hf.seg
  rw [show B = Function.update B i (P ++ c :: Q) by rw [← hB]; simp,split_at P (c :: Q) hi] at hseg
  refine ⟨?_,?_,?_,?_⟩
  · rw [hrel.freeList,split_at P Q hi,hrel.nodelist,MmHeap.unlink_flink,MmHeap.unlink_blink]
    exact hseg.unlink
  · intro j hj
    rw [hrel.size,hrel.nodelist]
    exact hf.sentinel j hj
  · intro j hj d hd
    rw [hrel.size]
    by_cases hji : j = i
    · subst hji
      rw [Function.update_self] at hd
      exact hf.bucket j hj d (by rw [hB]; simp at hd ⊢; tauto)
    · rw [Function.update_of_ne hji] at hd
      exact hf.bucket j hj d hd
  · intro j hj
    rw [hrel.size]
    by_cases hji : j = i
    · subst hji
      rw [Function.update_self]
      refine (hf.sorted j hj).sublist ?_
      rw [hB]
      exact List.Sublist.append_left (List.sublist_cons_self c Q) P
    · rw [Function.update_of_ne hji]
      exact hf.sorted j hj

theorem link {heap' : MmHeap} {i x : Nat} {P Q : List Nat} (hf : heap.FreeList B) (hi : i < MM_NNODES)
    (hB : B i = P ++ Q) (hx : x ∉ heap.freeList B) (hxi : mmSize2ndx (heap.size x) = i)
    (hpos : 0 < heap.size x) (hPx : ∀ c ∈ P, heap.size c < heap.size x)
    (hxQ : ∀ c ∈ Q, heap.size x ≤ heap.size c) (hrel : heap.Relinked heap')
    (hfl : heap'.flink = DList.linkNext heap.flink ((heap.nodelist i :: P).getLast (List.cons_ne_nil _ _)) x)
    (hbl : heap'.blink =
      DList.linkPrev heap.flink heap.blink ((heap.nodelist i :: P).getLast (List.cons_ne_nil _ _)) x) :
    heap'.FreeList (Function.update B i (P ++ x :: Q)) := by
  have hseg := hf.seg
  rw [show B = Function.update B i (P ++ Q) by rw [← hB]; simp,split_at P Q hi] at hseg hx
  refine ⟨?_,?_,?_,?_⟩
  · rw [hrel.freeList,split_at P (x :: Q) hi,hrel.nodelist,hfl,hbl]
    exact hseg.link hx
  · intro j hj
    rw [hrel.size,hrel.nodelist]
    exact hf.sentinel j hj
  · intro j hj c hc
    rw [hrel.size]
    by_cases hji : j = i
    · subst hji
      rw [Function.update_self,List.mem_append,List.mem_cons] at hc
      rcases hc with hc | rfl | hc
      · exact hf.bucket j hj c (by rw [hB]; exact List.mem_append_left Q hc)
      · exact ⟨hxi,hpos⟩
      · exact hf.bucket j hj c (by rw [hB]; exact List.mem_append_right P hc)
    · rw [Function.update_of_ne hji] at hc
      exact hf.bucket j hj c hc
  · intro j hj
    rw [hrel.size]
    by_cases hji : j = i
    · subst hji
      rw [Function.update_self]
      have hs := hf.sorted j hj
      rw [hB,List.pairwise_append] at hs
      refine List.pairwise_append.mpr ⟨hs.1,List.pairwise_cons.mpr ⟨hxQ,hs.2.1⟩,fun a ha b hb => ?_⟩
      rcases List.mem_cons.mp hb with rfl | hb
      · exact Nat.le_of_lt (hPx a ha)
      · exact hs.2.2 a ha b hb
    · rw [Function.update_of_ne hji]
      exact hf.sorted j hj

theorem addfreechunk {x fuel : Nat} (hf : heap.FreeList B) (hx : x ∉ heap.freeList B)
    (hpos : 0 < heap.size x) (hfuel : (heap.freeList B).length ≤ fuel) :
    ∃ heap' P Q, mmAddfreechunk fuel heap x = some heap' ∧ heap.Relinked heap' ∧
      B (mmSize2ndx (heap.size x)) = P ++ Q ∧ (∀ c ∈ P, heap.size c < heap.size x) ∧
      (∀ c ∈ Q, heap.size x ≤ heap.size c) ∧
      heap'.FreeList (Function.update B (mmSize2ndx (heap.size x)) (P ++ x :: Q)) := by
  obtain ⟨i,hi_eq⟩ : ∃ i, mmSize2ndx (heap.size x) = i := ⟨_,rfl⟩
  have hi : i < MM_NNODES := hi_eq ▸ mmSize2ndx_lt _
  let cont : Nat → Bool := fun next => heap.size next != 0 && heap.size next < heap.size x
  obtain ⟨P,hP⟩ : ∃ P, (B i).takeWhile cont = P := ⟨_,rfl⟩
  obtain ⟨Q,hQ⟩ : ∃ Q, (B i).dropWhile cont = Q := ⟨_,rfl⟩
  have hPQ : B i = P ++ Q := by rw [← hP,← hQ,List.takeWhile_append_dropWhile]
  have hpost : ∀ y ∈ (heap.classes B (List.range' (i + 1) (MM_NNODES - (i + 1)))).head?,
      cont y = false := fun y hy => by
    obtain ⟨rfl,hlt⟩ := heap.classes_head? B hi y hy
    simp [cont,hf.sentinel _ hlt]
  have hPx : ∀ c ∈ P, heap.size c < heap.size x := fun c hc => by
    have := List.mem_takeWhile_imp (hP ▸ hc)
    simp only [cont,Bool.and_eq_true,bne_iff_ne,decide_eq_true_eq] at this
    exact this.2
  have hxQ : ∀ c ∈ Q, heap.size x ≤ heap.size c := by
    have hstop := List.head?_dropWhile_not cont (B i)
    have hs := hf.sorted i hi
    rw [hPQ,List.pairwise_append] at hs
    intro c hc
    cases Q with
    | nil => simp at hc
    | cons q Q' =>
      have hq : heap.size x ≤ heap.size q := by
        have hq0 := (hf.bucket i hi q (by rw [hPQ]; simp)).2
        simp only [hQ,List.head?_cons,cont,Bool.and_eq_false_iff,bne_eq_false_iff_eq,
          decide_eq_false_iff_not] at hstop
        omega
      rcases List.mem_cons.mp hc with rfl | hc
      · exact hq
      · have := List.rel_of_pairwise_cons hs.2.1 hc
        omega
  have hseg := hf.seg
  rw [heap.freeList_split B hi] at hseg
  obtain ⟨m,-,hs⟩ := hseg.split
  obtain ⟨-,-,hs⟩ := DList.Seg.cons_iff.mp hs
  have hlen : (B i ++ heap.classes B (List.range' (i + 1) (MM_NNODES - (i + 1)))).length ≤ fuel := by
    rw [heap.freeList_split B hi] at hfuel
    simp only [List.length_append,List.length_cons] at hfuel ⊢
    omega
  have hwalk := hs.walkUntilPrev cont (heap.nodelist i) hlen
  rw [takeWhile_append_of_head hpost,dropWhile_append_of_head hpost,hP,hQ] at hwalk
  have hnext : heap.flink ((heap.nodelist i :: P).getLast (List.cons_ne_nil _ _)) =
      (Q ++ heap.classes B (List.range' (i + 1) (MM_NNODES - (i + 1)))).head? := by
    have hs' := hf.seg
    rw [show B = Function.update B i (P ++ Q) by rw [← hPQ]; simp,split_at P Q hi] at hs'
    exact hs'.next_eq
  simp only [cont] at hwalk
  unfold mmAddfreechunk
  simp only [hi_eq,hwalk,Option.bind_eq_bind,Option.bind_some]
  have hlink := fun heap' => @link heap B heap' i x P Q hf hi hPQ hx hi_eq hpos hPx hxQ
  set p := (heap.nodelist i :: P).getLast (List.cons_ne_nil _ _)
  cases hn : (Q ++ heap.classes B (List.range' (i + 1) (MM_NNODES - (i + 1)))).head? with
  | none =>
    have hrel : heap.Relinked (((heap.setFlink p (some x)).setBlink x (some p)).setFlink x none) :=
      (heap.relinked_setFlink _ _).trans ((relinked_setBlink _ _ _).trans (relinked_setFlink _ _ _))
    refine ⟨_,P,Q,rfl,hrel,hPQ,hPx,hxQ,hlink _ hrel ?_ ?_⟩
    · simp [DList.linkNext,hnext,hn]
    · simp [DList.linkPrev,hnext,hn]
  | some n =>
    have hrel : heap.Relinked ((((heap.setFlink p (some x)).setBlink x (some p)).setFlink x (some n)).setBlink n
        (some x)) :=
      (heap.relinked_setFlink _ _).trans ((relinked_setBlink _ _ _).trans ((relinked_setFlink _ _ _).trans
        (relinked_setBlink _ _ _)))
    refine ⟨_,P,Q,rfl,hrel,hPQ,hPx,hxQ,hlink _ hrel ?_ ?_⟩
    · simp [DList.linkNext,hnext,hn]
    · simp [DList.linkPrev,hnext,hn]

end MmHeap.FreeList

end TizenRT.Heap
