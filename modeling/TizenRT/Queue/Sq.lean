import TizenRT.Lib.SList

set_option autoImplicit false

/-!
The singly linked queues of libc/queue: `sq_addfirst`, `sq_addlast`, `sq_addafter`, `sq_remfirst`,
`sq_remlast`, `sq_remafter` and `sq_rem`, over the `flink` fields of the nodes and the header of one
queue. The walks of `sq_remlast` and `sq_rem` for the node before a given one are
`DList.walkUntil`, given a number of steps: any number not below the queue's length is enough.

A queue represents the list of nodes that the chain of `flink` from its head visits before it
ends, its tail being the last of them; each function keeps that and acts on the list as the list
operation of its name.
-/

namespace TizenRT.Queue

open SList

/-- The `flink` fields of the nodes and the header of one `sq_queue_t`. -/
structure SqState (α : Type) where
  flink : α → Option α
  head : Option α
  tail : Option α

variable {α : Type}

/-- The queue holds the nodes `L`: `flink` from `head` visits them and ends, and `tail` is the last. -/
structure SqState.Represents (s : SqState α) (L : List α) : Prop where
  chain : Chain s.flink s.head L none
  tail : s.tail = L.getLast?

namespace SqState.Represents

variable {s : SqState α} {L : List α} (h : s.Represents L)
include h

theorem nodup : L.Nodup := h.chain.nodup

theorem head_eq : s.head = L.head? := h.chain.start_eq_head?

theorem head_eq_none_iff : s.head = none ↔ L = [] := by
  rw [h.head_eq]
  cases L <;> simp

theorem eq_nil_of_tail {l₁ l₂ : List α} {p : α} (hL : L = l₁ ++ p :: l₂) (ht : s.tail = some p) : l₂ = [] := by
  subst hL
  exact eq_nil_of_getLast? h.nodup (h.tail ▸ ht)

end SqState.Represents

variable [DecidableEq α]

def sqAddfirst (node : α) (s : SqState α) : SqState α :=
  { flink := Function.update s.flink node s.head
    head := some node
    tail := if s.head = none then some node else s.tail }

def sqAddlast (node : α) (s : SqState α) : SqState α :=
  let flink := Function.update s.flink node none
  if s.head = none then { flink := flink, head := some node, tail := some node }
  else
    match s.tail with
    | some tail => { flink := Function.update flink tail (some node), head := s.head, tail := some node }
    | none => { flink := flink, head := s.head, tail := some node }

def sqAddafter (prev node : α) (s : SqState α) : SqState α :=
  if s.head = none ∨ some prev = s.tail then sqAddlast node s
  else { s with flink := Function.update (Function.update s.flink node (s.flink prev)) prev (some node) }

def sqRemfirst (s : SqState α) : Option α × SqState α :=
  match s.head with
  | none => (none,s)
  | some ret =>
    (some ret,
      { flink := Function.update s.flink ret none
        head := s.flink ret
        tail := if s.flink ret = none then none else s.tail })

/-- The walk `for (prev = queue->head; prev && prev->flink != node; prev = prev->flink)`. -/
def sqFindPrev (fuel : Nat) (node : α) (s : SqState α) : Option (Option α) :=
  DList.walkUntil s.flink (fun p => decide (s.flink p ≠ some node)) fuel s.head

/-- `sq_remlast`: the tail taken off, its predecessor found from the head. -/
def sqRemlast (fuel : Nat) (s : SqState α) : Option α × SqState α :=
  match s.tail with
  | none => (none,s)
  | some ret =>
    let s' : SqState α :=
      if s.head = s.tail then { s with head := none, tail := none }
      else
        match sqFindPrev fuel ret s with
        | some (some prev) => { s with flink := Function.update s.flink prev none, tail := some prev }
        | _ => s
    (some ret,{ s' with flink := Function.update s'.flink ret none })

/-- `sq_remafter`: the node after `node` taken off, returned as `node->flink`. -/
def sqRemafter (node : α) (s : SqState α) : Option α × SqState α :=
  match s.head, s.flink node with
  | some _, some ret =>
    let s' : SqState α :=
      if s.tail = some ret then { s with tail := some node, flink := Function.update s.flink node none }
      else { s with flink := Function.update s.flink node (s.flink ret) }
    (some ret,{ s' with flink := Function.update s'.flink ret none })
  | _, ret => (ret,s)

/-- `sq_rem`: the head, or the node after its predecessor, taken off; nothing when it is absent. -/
def sqRem (fuel : Nat) (node : α) (s : SqState α) : SqState α :=
  match s.head with
  | none => s
  | some head =>
    if node = head then { s with head := s.flink node, tail := if s.tail = some node then none else s.tail }
    else
      match sqFindPrev fuel node s with
      | some (some prev) => (sqRemafter prev s).2
      | _ => s

theorem update_update_of_ne {f : α → Option α} {a b p : α} {u v : Option α} (ha : p ≠ a) (hb : p ≠ b) :
    Function.update (Function.update f a u) b v p = f p := by
  rw [Function.update_of_ne hb,Function.update_of_ne ha]

variable {s : SqState α} {L : List α}

theorem sqAddfirst_represents (h : s.Represents L) {node : α} (hn : node ∉ L) :
    (sqAddfirst node s).Represents (node :: L) := by
  constructor
  · refine .cons node L none ?_
    simp only [sqAddfirst,Function.update_self]
    exact h.chain.frame fun p hp => Function.update_of_ne (ne_of_mem_of_not_mem hp hn) _ _
  · cases L with
    | nil => simp [sqAddfirst,h.head_eq]
    | cons x L => simp [sqAddfirst,h.head_eq,h.tail,List.getLast?_cons_cons]

theorem sqAddlast_represents (h : s.Represents L) {node : α} (hn : node ∉ L) :
    (sqAddlast node s).Represents (L ++ [node]) := by
  unfold sqAddlast
  by_cases hh : s.head = none
  · obtain rfl := h.head_eq_none_iff.mp hh
    rw [if_pos hh]
    refine ⟨.cons node [] none ?_,rfl⟩
    dsimp only
    rw [Function.update_self]
    exact .nil none
  rw [if_neg hh]
  obtain ⟨L,t,rfl⟩ := (List.eq_nil_or_concat' L).resolve_left (fun hL => hh (h.head_eq_none_iff.mpr hL))
  have ht : s.tail = some t := by simp [h.tail]
  have hnd := h.nodup
  have htn : t ≠ node := fun he => hn (by simp [he])
  obtain ⟨hc,-⟩ := Chain.snoc_iff.mp h.chain
  simp only [ht]
  refine ⟨Chain.snoc_iff.mpr ⟨?_,by simp [Function.update_of_ne htn.symm]⟩,by simp⟩
  refine (hc.frame fun p hp => ?_).append (.cons t [] (some node) (by dsimp only; rw [Function.update_self]; exact .nil _))
  have hpt : p ≠ t := fun he => (List.nodup_append.mp hnd).2.2 p hp t (by simp) he
  exact update_update_of_ne (fun he => hn (by simp [← he,hp])) hpt

theorem sqAddafter_represents {l₁ l₂ : List α} {prev node : α} (h : s.Represents (l₁ ++ prev :: l₂))
    (hn : node ∉ l₁ ++ prev :: l₂) : (sqAddafter prev node s).Represents (l₁ ++ prev :: node :: l₂) := by
  unfold sqAddafter
  have hh : s.head ≠ none := fun he => List.append_ne_nil_of_right_ne_nil l₁ (List.cons_ne_nil _ _) (h.head_eq_none_iff.mp he)
  by_cases ht : some prev = s.tail
  · rw [if_pos (Or.inr ht)]
    obtain rfl := h.eq_nil_of_tail rfl ht.symm
    simpa using sqAddlast_represents h hn
  rw [if_neg (fun hc => hc.elim hh ht)]
  have hnd := h.nodup
  have hpn : prev ≠ node := fun he => hn (by simp [he])
  obtain ⟨m,h₁,h₂⟩ := h.chain.split
  obtain ⟨rfl,h₃⟩ := Chain.cons_iff.mp h₂
  have hpl₁ : prev ∉ l₁ := fun hm => (List.nodup_append.mp hnd).2.2 prev hm prev List.mem_cons_self rfl
  have hpl₂ : prev ∉ l₂ := (List.nodup_cons.mp (List.nodup_append.mp hnd).2.1).1
  refine ⟨h₁.frame (fun q hq => update_update_of_ne (ne_of_mem_of_not_mem (List.mem_append_left _ hq) hn)
    (ne_of_mem_of_not_mem hq hpl₁)) |>.append (.cons prev _ none ?_),?_⟩
  · simp only [Function.update_self]
    refine .cons node l₂ none ?_
    rw [Function.update_of_ne hpn.symm,Function.update_self]
    exact h₃.frame fun q hq => update_update_of_ne (ne_of_mem_of_not_mem (by simp [hq]) hn) (ne_of_mem_of_not_mem hq hpl₂)
  · cases l₂ with
    | nil => exact absurd (by simp [h.tail]) ht
    | cons y l₃ => simp [h.tail,List.getLast?_cons_cons]

theorem sqRemfirst_represents {x : α} {rest : List α} (h : s.Represents (x :: rest)) :
    (sqRemfirst s).1 = some x ∧ (sqRemfirst s).2.Represents rest := by
  obtain ⟨hx,hc⟩ := Chain.cons_iff.mp h.chain
  have hxr : x ∉ rest := (List.nodup_cons.mp h.nodup).1
  simp only [sqRemfirst,hx,true_and]
  refine ⟨hc.frame fun q hq => Function.update_of_ne (ne_of_mem_of_not_mem hq hxr) _ _,?_⟩
  cases rest with
  | nil => simp [hc.start_eq_head?]
  | cons y rest => simp [hc.start_eq_head?,h.tail]

theorem sqRemlast_represents {x : α} {rest : List α} (h : s.Represents (rest ++ [x])) {fuel : Nat}
    (hf : (rest ++ [x]).length ≤ fuel) :
    (sqRemlast fuel s).1 = some x ∧ (sqRemlast fuel s).2.Represents rest := by
  have ht : s.tail = some x := by simp [h.tail]
  simp only [sqRemlast,ht,true_and]
  rcases List.eq_nil_or_concat' rest with rfl | ⟨l₁,p,rfl⟩
  · rw [if_pos (by simp [h.head_eq])]
    exact ⟨.nil none,rfl⟩
  have hnd := h.nodup
  have hh : s.head ≠ some x := by
    rw [h.head_eq]
    cases l₁ with
    | nil => simpa using fun he => by simp [he] at hnd
    | cons q l₁ => simpa using fun he => by simp [he] at hnd
  have hprev : sqFindPrev fuel x s = some (some p) :=
    (show Chain s.flink s.head (l₁ ++ p :: x :: []) none by simpa using h.chain).walkUntil_pred (by simpa using hf)
  rw [if_neg hh,hprev]
  have hpx : p ∉ l₁ ++ [x] := (List.nodup_cons.mp (List.nodup_middle.mp (by simpa using hnd))).1
  have hx : x ∉ l₁ ++ [p] := by
    simpa using (List.nodup_cons.mp (List.nodup_middle.mp (show ((l₁ ++ [p]) ++ x :: []).Nodup by simpa using hnd))).1
  obtain ⟨m,hc,hm⟩ := (Chain.snoc_iff.mp h.chain).1.split
  obtain ⟨rfl,-⟩ := Chain.cons_iff.mp hm
  refine ⟨Chain.snoc_iff.mpr ⟨hc.frame fun q hq => ?_,?_⟩,by simp⟩
  · exact update_update_of_ne (ne_of_mem_of_not_mem hq (by simp_all)) (ne_of_mem_of_not_mem hq (by simp_all))
  · simp [Function.update_of_ne (show p ≠ x by simp_all)]

theorem sqRemafter_last {l₁ : List α} {node : α} (h : s.Represents (l₁ ++ [node])) : sqRemafter node s = (none,s) := by
  have hn : s.flink node = none := (Chain.snoc_iff.mp h.chain).2
  unfold sqRemafter
  split
  · simp_all
  · simp_all

theorem sqRemafter_represents {l₁ l₂ : List α} {node y : α} (h : s.Represents (l₁ ++ node :: y :: l₂)) :
    (sqRemafter node s).1 = some y ∧ (sqRemafter node s).2.Represents (l₁ ++ node :: l₂) := by
  have hnd := h.nodup
  have hh : s.head = (l₁ ++ node :: y :: l₂).head? := h.head_eq
  have hny : s.flink node = some y := by simpa using h.chain.next_eq
  have hy : s.flink y = l₂.head? := (show Chain s.flink s.head ((l₁ ++ [node]) ++ y :: l₂) none by simpa using h.chain).next_eq
  obtain ⟨hd,hhd⟩ : ∃ hd, s.head = some hd := by cases l₁ <;> simp [hh]
  have hnd' : ((l₁ ++ [node]) ++ y :: l₂).Nodup := by simpa using hnd
  have hnode : node ∉ l₁ := fun hm => (List.nodup_append.mp hnd).2.2 node hm node (by simp) rfl
  have hyl₁ : y ∉ l₁ ++ [node] := fun hm => (List.nodup_append.mp hnd').2.2 y hm y (by simp) rfl
  have hyl₂ : y ∉ l₂ := (List.nodup_cons.mp (List.nodup_append.mp hnd').2.1).1
  have hnl₂ : node ∉ l₂ := fun hm => (List.nodup_append.mp hnd').2.2 node (by simp) node (by simp [hm]) rfl
  have hchain : Chain (Function.update (Function.update s.flink node (s.flink y)) y none) s.head (l₁ ++ node :: l₂) none := by
    obtain ⟨m,h₁,h₂⟩ := h.chain.split
    obtain ⟨rfl,h₃⟩ := Chain.cons_iff.mp h₂
    obtain ⟨hy',h₄⟩ := Chain.cons_iff.mp (hny ▸ h₃)
    refine h₁.frame (fun q hq => update_update_of_ne (ne_of_mem_of_not_mem hq hnode)
      (ne_of_mem_of_not_mem (List.mem_append_left _ hq) hyl₁)) |>.append (.cons node l₂ none ?_)
    rw [Function.update_of_ne (ne_of_mem_of_not_mem (List.mem_singleton_self node) (fun hm => hyl₁ (by simp [List.mem_singleton.mp hm]))),
      Function.update_self]
    exact h₄.frame fun q hq => update_update_of_ne (ne_of_mem_of_not_mem hq hnl₂) (ne_of_mem_of_not_mem hq hyl₂)
  unfold sqRemafter
  simp only [hhd,hny,true_and]
  by_cases ht : s.tail = some y
  · obtain rfl : l₂ = [] := h.eq_nil_of_tail (show l₁ ++ node :: y :: l₂ = (l₁ ++ [node]) ++ y :: l₂ by simp) ht
    rw [if_pos ht]
    simp only [hy,List.head?_nil,hhd] at hchain
    exact ⟨hchain,by simp⟩
  · rw [if_neg ht]
    rw [hhd] at hchain
    refine ⟨hchain,?_⟩
    cases l₂ with
    | nil => exact absurd (by simp [h.tail]) ht
    | cons z l₃ => simp [h.tail,List.getLast?_cons_cons]

theorem sqRem_absent (h : s.Represents L) {fuel : Nat} (hf : L.length ≤ fuel) {node : α} (hn : node ∉ L) :
    sqRem fuel node s = s := by
  cases L with
  | nil => simp [sqRem,h.head_eq]
  | cons x rest =>
    have hx : s.head = some x := h.head_eq
    have hnx : node ≠ x := fun he => hn (by simp [he])
    have habs : sqFindPrev fuel node s = some none := h.chain.walkUntil_absent hn hf
    simp only [sqRem,hx,if_neg hnx,habs]

theorem sqRem_represents (h : s.Represents L) {fuel : Nat} (hf : L.length ≤ fuel) (node : α) :
    (sqRem fuel node s).Represents (L.erase node) := by
  by_cases hm : node ∉ L
  · rw [List.erase_of_not_mem hm,sqRem_absent h hf hm]
    exact h
  obtain ⟨a,b,rfl⟩ := List.append_of_mem (not_not.mp hm)
  have hnd := h.nodup
  rcases List.eq_nil_or_concat' a with rfl | ⟨l₁,p,rfl⟩
  · rw [List.nil_append] at h hnd ⊢
    obtain ⟨hx,hc⟩ := Chain.cons_iff.mp h.chain
    simp only [sqRem,hx,↓reduceIte,List.erase_cons_head]
    refine ⟨hc,?_⟩
    cases b with
    | nil => simp [h.tail]
    | cons y b =>
      have hl : (node :: y :: b).getLast? = (y :: b).getLast? := List.getLast?_cons_cons
      have hne : (y :: b).getLast? ≠ some node := fun he => (List.nodup_cons.mp hnd).1 (List.mem_of_getLast? he)
      simp only [h.tail,hl,if_neg hne]
  · rw [List.append_assoc,List.singleton_append] at h hf hnd ⊢
    have hpn : p ∉ l₁ ++ node :: b := (List.nodup_cons.mp (List.nodup_middle.mp hnd)).1
    have hnl₁ : node ∉ (l₁ ++ [p]) ++ b := (List.nodup_cons.mp (List.nodup_middle.mp (by simpa using hnd))).1
    obtain ⟨hd,hhd⟩ : ∃ hd, s.head = some hd := by cases l₁ <;> simp [h.head_eq]
    have hnh : node ≠ hd := by
      rw [h.head_eq] at hhd
      cases l₁ with
      | nil => simp_all
      | cons q l₁ => simp_all
    have hprev : sqFindPrev fuel node s = some (some p) := h.chain.walkUntil_pred hf
    simp only [sqRem,hhd,if_neg hnh,hprev]
    rw [List.erase_append_right _ (by simp_all),List.erase_cons_tail (by simp_all),List.erase_cons_head]
    exact (sqRemafter_represents h).2

end TizenRT.Queue
