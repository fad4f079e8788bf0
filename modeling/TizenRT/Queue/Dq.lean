import TizenRT.Queue.Sq

set_option autoImplicit false

/-!
The doubly linked queues of libc/queue: `dq_addfirst`, `dq_addlast`, `dq_addafter`, `dq_addbefore`,
`dq_remfirst`, `dq_remlast` and `dq_rem`, over the `flink` and `blink` fields of the nodes and the
header of one queue. A queue represents the list that `flink` visits from its head, each node's
`blink` the node before it (none for the head), its tail the last node. Insertion in the middle and
removal of a node with a predecessor are `DList.Seg.link` and `DList.Seg.unlink`; the functions at
either end keep the representation on their own.
-/

namespace TizenRT.Queue

open DList

/-- The `flink` and `blink` fields of the nodes and the header of one `dq_queue_t`. -/
@[ext] structure DqState (α : Type) where
  flink : α → Option α
  blink : α → Option α
  head : Option α
  tail : Option α

variable {α : Type}

/-- The queue holds the nodes `L`, linked both ways from its head, and `tail` is the last. -/
structure DqState.Represents (s : DqState α) (L : List α) : Prop where
  seg : Seg s.flink s.blink none s.head L none
  tail : s.tail = L.getLast?

namespace DqState.Represents

variable {s : DqState α} {L : List α} (h : s.Represents L)
include h

theorem nodup : L.Nodup := h.seg.nodup

theorem head_eq : s.head = L.head? := h.seg.start_eq_head?

theorem eq_nil_of_tail {l₁ l₂ : List α} {p : α} (hL : L = l₁ ++ p :: l₂) (ht : s.tail = some p) : l₂ = [] := by
  subst hL
  exact SList.eq_nil_of_getLast? h.nodup (h.tail ▸ ht)

theorem blink_eq {l₁ l₂ : List α} {p : α} (hL : L = l₁ ++ p :: l₂) : s.blink p = l₁.getLast? := by
  subst hL
  obtain ⟨m,-,h₂⟩ := h.seg.split
  rw [(Seg.cons_iff.mp h₂).2.1,Option.or_none]

end DqState.Represents

variable [DecidableEq α]

def dqAddfirst (node : α) (s : DqState α) : DqState α :=
  let flink := Function.update s.flink node s.head
  let blink := Function.update s.blink node none
  match s.head with
  | none => { flink := flink, blink := blink, head := some node, tail := some node }
  | some head => { flink := flink, blink := Function.update blink head (some node), head := some node, tail := s.tail }

def dqAddlast (node : α) (s : DqState α) : DqState α :=
  let flink := Function.update s.flink node none
  let blink := Function.update s.blink node s.tail
  if s.head = none then { flink := flink, blink := blink, head := some node, tail := some node }
  else
    match s.tail with
    | some tail => { flink := Function.update flink tail (some node), blink := blink, head := s.head, tail := some node }
    | none => { flink := flink, blink := blink, head := s.head, tail := some node }

def dqAddafter (prev node : α) (s : DqState α) : DqState α :=
  if s.head = none ∨ some prev = s.tail then dqAddlast node s
  else
    let next := s.flink prev
    let blink := Function.update s.blink node (some prev)
    let flink := Function.update s.flink node next
    let blink := match next with
      | some next => Function.update blink next (some node)
      | none => blink
    { s with flink := Function.update flink prev (some node), blink := blink }

/-- `dq_addbefore`; a node other than the head has a predecessor. -/
def dqAddbefore (next node : α) (s : DqState α) : DqState α :=
  if s.head = none ∨ some next = s.head then dqAddfirst node s
  else
    let prev := s.blink next
    let flink := Function.update s.flink node (some next)
    let blink := Function.update s.blink node prev
    let flink := match prev with
      | some prev => Function.update flink prev (some node)
      | none => flink
    { s with flink := flink, blink := Function.update blink next (some node) }

def dqRemfirst (s : DqState α) : Option α × DqState α :=
  match s.head with
  | none => (none,s)
  | some ret =>
    let s' : DqState α :=
      match s.flink ret with
      | none => { s with head := none, tail := none }
      | some next => { s with head := some next, blink := Function.update s.blink next none }
    (some ret,{ s' with flink := Function.update s'.flink ret none, blink := Function.update s'.blink ret none })

def dqRemlast (s : DqState α) : Option α × DqState α :=
  match s.tail with
  | none => (none,s)
  | some ret =>
    let s' : DqState α :=
      match s.blink ret with
      | none => { s with head := none, tail := none }
      | some prev => { s with tail := some prev, flink := Function.update s.flink prev none }
    (some ret,{ s' with flink := Function.update s'.flink ret none, blink := Function.update s'.blink ret none })

/-- `dq_rem`: the neighbours of `node`, or the header where it has none, linked past it. -/
def dqRem (node : α) (s : DqState α) : DqState α :=
  let prev := s.blink node
  let next := s.flink node
  let s' : DqState α :=
    match prev with
    | none => { s with head := next }
    | some prev => { s with flink := Function.update s.flink prev next }
  let s'' : DqState α :=
    match next with
    | none => { s' with tail := prev }
    | some next => { s' with blink := Function.update s'.blink next prev }
  { s'' with flink := Function.update s''.flink node none, blink := Function.update s''.blink node none }

section Rem

variable (node : α) (s : DqState α)

@[simp] theorem dqRem_flink : (dqRem node s).flink = Function.update (unlinkNext s.flink s.blink node) node none := by
  cases hb : s.blink node <;> cases hf : s.flink node <;> simp [dqRem,unlinkNext,hb,hf]

@[simp] theorem dqRem_blink : (dqRem node s).blink = Function.update (unlinkPrev s.flink s.blink node) node none := by
  cases hb : s.blink node <;> cases hf : s.flink node <;> simp [dqRem,unlinkPrev,hb,hf]

theorem dqRem_head : (dqRem node s).head = if s.blink node = none then s.flink node else s.head := by
  cases hb : s.blink node <;> cases hf : s.flink node <;> simp [dqRem,hb,hf]

theorem dqRem_tail : (dqRem node s).tail = if s.flink node = none then s.blink node else s.tail := by
  cases hb : s.blink node <;> cases hf : s.flink node <;> simp [dqRem,hb,hf]

end Rem

variable {s : DqState α} {L : List α}

theorem dqRem_represents (h : s.Represents L) {node : α} (hm : node ∈ L) : (dqRem node s).Represents (L.erase node) := by
  obtain ⟨l₁,l₂,rfl⟩ := List.append_of_mem hm
  have hnd := h.nodup
  have hnl : node ∉ l₁ ++ l₂ := (List.nodup_cons.mp (List.nodup_middle.mp hnd)).1
  rw [List.erase_append_right _ (by simp_all),List.erase_cons_head]
  have hframe : ∀ {s' : Option α} {back : Option α}, Seg (unlinkNext s.flink s.blink node) (unlinkPrev s.flink s.blink node)
      back s' (l₁ ++ l₂) none → Seg (dqRem node s).flink (dqRem node s).blink back s' (l₁ ++ l₂) none := fun hs =>
    hs.frame (fun q hq => by simp [Function.update_of_ne (ne_of_mem_of_not_mem hq hnl)])
      (fun q hq => by simp [Function.update_of_ne (ne_of_mem_of_not_mem hq hnl)])
  have hnext : s.flink node = l₂.head? := h.seg.next_eq
  have hprev : s.blink node = l₁.getLast? := h.blink_eq rfl
  rcases List.eq_nil_or_concat' l₁ with rfl | ⟨l₀,p,rfl⟩
  · have hhead : s.head = some node := h.head_eq
    refine ⟨hframe ?_,?_⟩
    · rw [dqRem_head,if_pos (by simpa using hprev)]
      exact Seg.unlink_first (hhead ▸ h.seg)
    · rw [dqRem_tail]
      cases l₂ with
      | nil => simp [hnext,hprev]
      | cons y l₂ => simp [hnext,h.tail,List.getLast?_cons_cons]
  · refine ⟨hframe ?_,?_⟩
    · rw [dqRem_head,if_neg (by simp [hprev])]
      simpa using Seg.unlink (show Seg s.flink s.blink none s.head (l₀ ++ p :: node :: l₂) none by simpa using h.seg)
    · rw [dqRem_tail]
      cases l₂ with
      | nil => simp [hnext,hprev]
      | cons y l₂ => simp [hnext,h.tail]

theorem dqRemfirst_eq_dqRem {x : α} (hh : s.head = some x) (hb : s.blink x = none) :
    dqRemfirst s = (some x,dqRem x s) := by
  unfold dqRemfirst
  simp only [hh]
  cases hn : s.flink x <;> ext <;> simp [dqRem_head,dqRem_tail,hn,hb,unlinkNext,unlinkPrev]

theorem dqRemlast_eq_dqRem {x : α} (ht : s.tail = some x) (hn : s.flink x = none) :
    dqRemlast s = (some x,dqRem x s) := by
  unfold dqRemlast
  simp only [ht]
  cases hb : s.blink x <;> ext <;> simp [dqRem_head,dqRem_tail,hn,hb,unlinkNext,unlinkPrev]

theorem dqRemfirst_represents {x : α} {rest : List α} (h : s.Represents (x :: rest)) :
    (dqRemfirst s).1 = some x ∧ (dqRemfirst s).2.Represents rest := by
  rw [dqRemfirst_eq_dqRem h.head_eq (h.blink_eq (List.nil_append _).symm)]
  simpa using dqRem_represents h List.mem_cons_self

theorem dqRemlast_represents {x : α} {rest : List α} (h : s.Represents (rest ++ [x])) :
    (dqRemlast s).1 = some x ∧ (dqRemlast s).2.Represents rest := by
  have hx : x ∉ rest := by simpa using (List.nodup_cons.mp (List.nodup_middle.mp (show (rest ++ x :: []).Nodup by simpa using h.nodup))).1
  rw [dqRemlast_eq_dqRem (show s.tail = some x by simp [h.tail]) (by simpa using h.seg.next_eq)]
  simpa [List.erase_append_right _ hx] using dqRem_represents h (show x ∈ rest ++ [x] by simp)

theorem dqAddfirst_represents (h : s.Represents L) {node : α} (hn : node ∉ L) :
    (dqAddfirst node s).Represents (node :: L) := by
  unfold dqAddfirst
  cases L with
  | nil =>
    simp only [h.head_eq,List.head?_nil]
    refine ⟨.cons none node [] none (by simp) ?_,rfl⟩
    dsimp only
    rw [Function.update_self]
    exact .nil _ none
  | cons y L =>
    obtain ⟨hy,-,hs⟩ := Seg.cons_iff.mp h.seg
    have hyn : y ≠ node := fun he => hn (by simp [he])
    have hnL : node ∉ L := fun hm => hn (List.mem_cons_of_mem y hm)
    have hyL : y ∉ L := (List.nodup_cons.mp h.nodup).1
    simp only [hy]
    refine ⟨.cons none node (y :: L) none (by simp [Function.update_of_ne hyn.symm]) ?_,?_⟩
    · dsimp only
      rw [Function.update_self]
      refine .cons (some node) y L none (by simp) ?_
      rw [Function.update_of_ne hyn]
      exact hs.frame (fun q hq => Function.update_of_ne (ne_of_mem_of_not_mem hq hnL) _ _)
        (fun q hq => update_update_of_ne (ne_of_mem_of_not_mem hq hnL) (ne_of_mem_of_not_mem hq hyL))
    · simp [h.tail,List.getLast?_cons_cons]

theorem dqAddlast_represents (h : s.Represents L) {node : α} (hn : node ∉ L) :
    (dqAddlast node s).Represents (L ++ [node]) := by
  unfold dqAddlast
  rcases List.eq_nil_or_concat' L with rfl | ⟨L,t,rfl⟩
  · rw [if_pos (by simp [h.head_eq])]
    refine ⟨.cons none node [] none (by simp [h.tail]) ?_,rfl⟩
    dsimp only
    rw [Function.update_self]
    exact .nil _ none
  have ht : s.tail = some t := by simp [h.tail]
  have htn : t ≠ node := fun he => hn (by simp [he])
  have hnt : s.flink t = none := by simpa using h.seg.next_eq
  rw [if_neg (by simp [h.head_eq]),ht]
  have hl := Seg.link (show Seg s.flink s.blink none s.head (L ++ t :: []) none from h.seg) hn
  rw [linkNext,linkPrev,hnt,Function.update_comm htn] at hl
  exact ⟨by simpa using hl,by simp⟩

theorem dqAddafter_represents {l₁ l₂ : List α} {prev node : α} (h : s.Represents (l₁ ++ prev :: l₂))
    (hn : node ∉ l₁ ++ prev :: l₂) : (dqAddafter prev node s).Represents (l₁ ++ prev :: node :: l₂) := by
  unfold dqAddafter
  have hh : s.head ≠ none := by simp [h.head_eq]
  by_cases ht : some prev = s.tail
  · rw [if_pos (Or.inr ht)]
    obtain rfl := h.eq_nil_of_tail rfl ht.symm
    simpa using dqAddlast_represents h hn
  rw [if_neg (fun hc => hc.elim hh ht)]
  have hpn : prev ≠ node := fun he => hn (by simp [he])
  have hl := Seg.link h.seg hn
  rw [linkNext,linkPrev,Function.update_comm hpn] at hl
  refine ⟨hl,?_⟩
  cases l₂ with
  | nil => exact absurd (by simp [h.tail]) ht
  | cons y l₂ => simp [h.tail,List.getLast?_cons_cons]

theorem dqAddbefore_represents {l₁ l₂ : List α} {next node : α} (h : s.Represents (l₁ ++ next :: l₂))
    (hn : node ∉ l₁ ++ next :: l₂) : (dqAddbefore next node s).Represents (l₁ ++ node :: next :: l₂) := by
  unfold dqAddbefore
  have hh : s.head ≠ none := by simp [h.head_eq]
  rcases List.eq_nil_or_concat' l₁ with rfl | ⟨l₀,p,rfl⟩
  · rw [if_pos (Or.inr (by simp [h.head_eq]))]
    simpa using dqAddfirst_represents h hn
  have hnd := h.nodup
  have hhn : some next ≠ s.head := by
    rw [h.head_eq]
    cases l₀ with
    | nil => simpa using fun he => by simp [he] at hnd
    | cons q l₀ => simpa using fun he => by simp [he] at hnd
  rw [if_neg (fun hc => hc.elim hh hhn),h.blink_eq rfl]
  have hpn : p ≠ node := fun he => hn (by simp [he])
  have hl := Seg.link (show Seg s.flink s.blink none s.head (l₀ ++ p :: next :: l₂) none by simpa using h.seg)
    (by simpa using hn)
  rw [linkNext,linkPrev,(show s.flink p = some next by simpa using (show Seg s.flink s.blink none s.head
    (l₀ ++ p :: next :: l₂) none by simpa using h.seg).next_eq),Function.update_comm hpn] at hl
  refine ⟨by simpa using hl,?_⟩
  simp [h.tail,List.getLast?_append]

/-- Each queue primitive, given a queue that represents a list and a node in it (removals) or in no
queue (insertions), leaves a queue that represents the list operation's result; the walks of
`sq_remlast` and `sq_rem` are given steps enough for the queue. -/
theorem queue_ops_refine_list_ops :
    (∀ (s : SqState α) (L : List α) (node : α), s.Represents L → node ∉ L →
      (sqAddfirst node s).Represents (node :: L) ∧ (sqAddlast node s).Represents (L ++ [node])) ∧
    (∀ (s : SqState α) (l₁ l₂ : List α) (prev node : α), s.Represents (l₁ ++ prev :: l₂) →
      node ∉ l₁ ++ prev :: l₂ → (sqAddafter prev node s).Represents (l₁ ++ prev :: node :: l₂)) ∧
    (∀ (s : SqState α) (x : α) (rest : List α), s.Represents (x :: rest) →
      (sqRemfirst s).1 = some x ∧ (sqRemfirst s).2.Represents rest) ∧
    (∀ (s : SqState α) (rest : List α) (x : α) (fuel : Nat), s.Represents (rest ++ [x]) →
      (rest ++ [x]).length ≤ fuel → (sqRemlast fuel s).1 = some x ∧ (sqRemlast fuel s).2.Represents rest) ∧
    (∀ (s : SqState α) (l₁ : List α) (node : α), s.Represents (l₁ ++ [node]) → sqRemafter node s = (none,s)) ∧
    (∀ (s : SqState α) (l₁ l₂ : List α) (node y : α), s.Represents (l₁ ++ node :: y :: l₂) →
      (sqRemafter node s).1 = some y ∧ (sqRemafter node s).2.Represents (l₁ ++ node :: l₂)) ∧
    (∀ (s : SqState α) (L : List α) (fuel : Nat) (node : α), s.Represents L → L.length ≤ fuel →
      (sqRem fuel node s).Represents (L.erase node) ∧ (node ∉ L → sqRem fuel node s = s)) ∧
    (∀ (s : DqState α) (L : List α) (node : α), s.Represents L → node ∉ L →
      (dqAddfirst node s).Represents (node :: L) ∧ (dqAddlast node s).Represents (L ++ [node])) ∧
    (∀ (s : DqState α) (l₁ l₂ : List α) (prev node : α), s.Represents (l₁ ++ prev :: l₂) →
      node ∉ l₁ ++ prev :: l₂ → (dqAddafter prev node s).Represents (l₁ ++ prev :: node :: l₂) ∧
        (dqAddbefore prev node s).Represents (l₁ ++ node :: prev :: l₂)) ∧
    (∀ (s : DqState α) (x : α) (rest : List α), s.Represents (x :: rest) →
      (dqRemfirst s).1 = some x ∧ (dqRemfirst s).2.Represents rest) ∧
    (∀ (s : DqState α) (rest : List α) (x : α), s.Represents (rest ++ [x]) →
      (dqRemlast s).1 = some x ∧ (dqRemlast s).2.Represents rest) ∧
    (∀ (s : DqState α) (L : List α) (node : α), s.Represents L → node ∈ L → (dqRem node s).Represents (L.erase node)) :=
  ⟨fun _ _ _ h hn => ⟨sqAddfirst_represents h hn,sqAddlast_represents h hn⟩,
    fun _ _ _ _ _ h hn => sqAddafter_represents h hn,
    fun _ _ _ h => sqRemfirst_represents h,
    fun _ _ _ _ h hf => sqRemlast_represents h hf,
    fun _ _ _ h => sqRemafter_last h,
    fun _ _ _ _ _ h => sqRemafter_represents h,
    fun _ _ _ _ h hf => ⟨sqRem_represents h hf _,sqRem_absent h hf⟩,
    fun _ _ _ h hn => ⟨dqAddfirst_represents h hn,dqAddlast_represents h hn⟩,
    fun _ _ _ _ _ h hn => ⟨dqAddafter_represents h hn,dqAddbefore_represents h hn⟩,
    fun _ _ _ h => dqRemfirst_represents h,
    fun _ _ _ h => dqRemlast_represents h,
    fun _ _ _ h hm => dqRem_represents h hm⟩

theorem queue_ops_refine_list_ops_three :
    let s : DqState (Fin 3) :=
      { flink := fun n => if n = 0 then some 1 else none
        blink := fun n => if n = 1 then some 0 else none
        head := some 0
        tail := some 1 }
    s.Represents [0,1] ∧ (dqAddafter 0 2 s).Represents [0,2,1] ∧ (dqRem 0 (dqAddafter 0 2 s)).Represents [2,1] := by
  intro s
  have hs : s.Represents [0,1] := ⟨.cons none 0 [1] none rfl (.cons (some 0) 1 [] none rfl (.nil _ _)),rfl⟩
  have ha := (queue_ops_refine_list_ops.2.2.2.2.2.2.2.2.1 s [] [1] 0 2 hs (by decide)).1
  exact ⟨hs,ha,queue_ops_refine_list_ops.2.2.2.2.2.2.2.2.2.2.2 _ [0,2,1] 0 ha (by decide)⟩

end TizenRT.Queue
