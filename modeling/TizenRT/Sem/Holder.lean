import TizenRT.Lib.SList
import Mathlib.Data.Fintype.Card
import Mathlib.Tactic.SplitIfs

set_option autoImplicit false

/-!
The holder records of the semaphores (sem_holder.c), built with CONFIG_PRIORITY_INHERITANCE and
CONFIG_SEM_PREALLOCHOLDERS = `n`: the records of `g_holderalloc`, linked through `flink` into the free
list `g_freeholders` and into the list `hhead` of each semaphore. What `sem_wait`, `sem_trywait`,
`sem_post`, `sem_waitirq` and `sem_destroy` do to the records is kept: a record taken from the free
list for a new holder, one put back by `sem_freeholder`, and the walk of `sem_foreachholder`, whose
handlers free a holder whose TCB is stale. The priorities the handlers change are those of
Sem/Inherit. What the scheduler answers (the running task, the task a post wakes, whether a TCB is
still valid, whether the call is from an interrupt handler) is given to each call.

`sem_findholder`, the search of `sem_freeholder` and the loop of `sem_foreachholder` are given as
many passes as there are records.
-/

namespace TizenRT.Sem

open SList

structure HolderPool (S T : Type) (n : Nat) where
  flink : Fin n → Option (Fin n)
  htcb : Fin n → Option T
  /-- an `int16_t`; nothing here depends on its width -/
  counts : Fin n → Int
  freeholders : Option (Fin n)
  hhead : S → Option (Fin n)

/-- `sem_initholders`: the records on the free list in the order of the array, with no holder, and
each semaphore without holders as `sem_init` leaves it. -/
def semInitholders (S T : Type) (n : Nat) : HolderPool S T n where
  flink i := if h : i.val + 1 < n then some ⟨i.val + 1,h⟩ else none
  htcb _ := none
  counts _ := 0
  freeholders := if h : 0 < n then some ⟨0,h⟩ else none
  hhead _ := none

variable {S T : Type} {n : Nat}

section Model

variable [DecidableEq S] [DecidableEq T]

/-- `sem_allocholder`: the first free record, put at the head of the semaphore's list. -/
def semAllocholder (p : HolderPool S T n) (sem : S) : Option (Fin n) × HolderPool S T n :=
  match p.freeholders with
  | some pholder =>
    (some pholder,{ p with
      freeholders := p.flink pholder
      flink := Function.update p.flink pholder (p.hhead sem)
      hhead := Function.update p.hhead sem (some pholder)
      counts := Function.update p.counts pholder 0 })
  | none => (none,p)

/-- `sem_findholder`: the first record of the semaphore's list held by `htcb`. -/
def semFindholder (p : HolderPool S T n) (sem : S) (htcb : T) : Option (Fin n) :=
  match DList.walkUntil p.flink (fun r => decide (p.htcb r ≠ some htcb)) n (p.hhead sem) with
  | some (some pholder) => some pholder
  | _ => none

def semFindorallocateholder (p : HolderPool S T n) (sem : S) (htcb : T) : Option (Fin n) × HolderPool S T n :=
  match semFindholder p sem htcb with
  | some pholder => (some pholder,p)
  | none => semAllocholder p sem

/-- `sem_freeholder`: the record is cleared, and when it is found on the semaphore's list it is
unlinked from it and pushed on the free list. -/
def semFreeholder (p : HolderPool S T n) (sem : S) (pholder : Fin n) : HolderPool S T n :=
  let p := { p with
    htcb := Function.update p.htcb pholder none
    counts := Function.update p.counts pholder 0 }
  match walkPrev p.flink pholder n none (p.hhead sem) with
  | some (prev,some _) =>
    let p := match prev with
      | some prev => { p with flink := Function.update p.flink prev (p.flink pholder) }
      | none => { p with hhead := Function.update p.hhead sem (p.flink pholder) }
    { p with flink := Function.update p.flink pholder p.freeholders, freeholders := some pholder }
  | _ => p

/-- The loop of `sem_foreachholder` from `pholder`: `next` is read before the handler runs, as the
handler may free the record; a record without a holder is skipped; a non-zero return ends the loop. -/
def semForeachholderLoop (handler : HolderPool S T n → Fin n → Int × HolderPool S T n) :
    Nat → Option (Fin n) → Int → HolderPool S T n → Int × HolderPool S T n
  | 0, _, ret, p => (ret,p)
  | _ + 1, none, ret, p => (ret,p)
  | fuel + 1, some pholder, ret, p =>
    if ret ≠ 0 then (ret,p)
    else
      let next := p.flink pholder
      let (ret,p) := if (p.htcb pholder).isSome then handler p pholder else (ret,p)
      semForeachholderLoop handler fuel next ret p

def semForeachholder (p : HolderPool S T n) (sem : S) (handler : HolderPool S T n → Fin n → Int × HolderPool S T n) :
    Int × HolderPool S T n :=
  semForeachholderLoop handler n (p.hhead sem) 0 p

/-- What `sem_boostholderprio` and `sem_restoreholderprio` do to the records: a holder whose TCB
`sched_verifytcb` rejects is freed. -/
def semFreeStaleholder (alive : T → Bool) (sem : S) (p : HolderPool S T n) (pholder : Fin n) :
    Int × HolderPool S T n :=
  if (p.htcb pholder).all alive then (0,p) else (0,semFreeholder p sem pholder)

/-- `sem_restoreholderprioA`: every holder but the running task `rtcb`. -/
def semRestoreholderprioA (rtcb : T) (alive : T → Bool) (sem : S) (p : HolderPool S T n) (pholder : Fin n) :
    Int × HolderPool S T n :=
  if p.htcb pholder ≠ some rtcb then semFreeStaleholder alive sem p pholder else (0,p)

/-- `sem_restoreholderprioB`: the running task only, ending the loop there. -/
def semRestoreholderprioB (rtcb : T) (alive : T → Bool) (sem : S) (p : HolderPool S T n) (pholder : Fin n) :
    Int × HolderPool S T n :=
  if p.htcb pholder = some rtcb then (1,(semFreeStaleholder alive sem p pholder).2) else (0,p)

def semRecoverholders (sem : S) (p : HolderPool S T n) (pholder : Fin n) : Int × HolderPool S T n :=
  (0,semFreeholder p sem pholder)

/-- `sem_addholder_tcb`, and `sem_addholder` with the running task: nothing when the semaphore has
PRIOINHERIT_FLAGS_DISABLE set, else one more count on the record of `htcb`. -/
def semAddholderTcb (p : HolderPool S T n) (htcb : T) (sem : S) (disabled : Bool) : HolderPool S T n :=
  if disabled then p
  else
    match semFindorallocateholder p sem htcb with
    | (some pholder,p) =>
      { p with
        htcb := Function.update p.htcb pholder (some htcb)
        counts := Function.update p.counts pholder (p.counts pholder + 1) }
    | (none,p) => p

def semReleaseholder (p : HolderPool S T n) (sem : S) (rtcb : T) : HolderPool S T n :=
  match semFindholder p sem rtcb with
  | some pholder =>
    if p.counts pholder > 0 then { p with counts := Function.update p.counts pholder (p.counts pholder - 1) } else p
  | none => p

def semBoostpriority (alive : T → Bool) (sem : S) (p : HolderPool S T n) : HolderPool S T n :=
  (semForeachholder p sem (semFreeStaleholder alive sem)).2

def semRestorebaseprioIrq (stcb : Option T) (alive : T → Bool) (sem : S) (p : HolderPool S T n) : HolderPool S T n :=
  if stcb.isSome then (semForeachholder p sem (semFreeStaleholder alive sem)).2 else p

/-- `sem_restorebaseprio_task`: the holders other than the running task, then that task, and its
record freed once it holds no count. -/
def semRestorebaseprioTask (stcb : Option T) (rtcb : T) (alive : T → Bool) (sem : S) (p : HolderPool S T n) :
    HolderPool S T n :=
  let p :=
    if stcb.isSome then
      let p := (semForeachholder p sem (semRestoreholderprioA rtcb alive sem)).2
      (semForeachholder p sem (semRestoreholderprioB rtcb alive sem)).2
    else p
  match semFindholder p sem rtcb with
  | some pholder => if p.counts pholder ≤ 0 then semFreeholder p sem pholder else p
  | none => p

def semRestorebaseprio (interrupt : Bool) (stcb : Option T) (rtcb : T) (alive : T → Bool) (sem : S)
    (p : HolderPool S T n) : HolderPool S T n :=
  if interrupt then semRestorebaseprioIrq stcb alive sem p else semRestorebaseprioTask stcb rtcb alive sem p

/-- The holder calls of `sem_post`: the poster's count released, the count handed to the task
`stcb` woken, if any, and the priorities restored. -/
def semPostHolders (p : HolderPool S T n) (sem : S) (rtcb : T) (stcb : Option T) (disabled interrupt : Bool)
    (alive : T → Bool) : HolderPool S T n :=
  let p := semReleaseholder p sem rtcb
  let p := match stcb with
    | some stcb => semAddholderTcb p stcb sem disabled
    | none => p
  semRestorebaseprio interrupt stcb rtcb alive sem p

def semCanceled (alive : T → Bool) (sem : S) (p : HolderPool S T n) : HolderPool S T n :=
  (semForeachholder p sem (semFreeStaleholder alive sem)).2

def semDestroyholder (sem : S) (p : HolderPool S T n) : HolderPool S T n :=
  if (p.hhead sem).isSome then (semForeachholder p sem (semRecoverholders sem)).2 else p

end Model

/-- The free list is `free`, the list of `sem` is `held sem`, and `loc` names the one list each
record is on; the free records have no holder, and no two records of one semaphore have the same
holder. -/
structure HolderPool.Layout (p : HolderPool S T n) (free : List (Fin n)) (held : S → List (Fin n))
    (loc : Fin n → Option S) : Prop where
  free_chain : Chain p.flink p.freeholders free none
  held_chain : ∀ sem, Chain p.flink (p.hhead sem) (held sem) none
  mem_free : ∀ r, r ∈ free ↔ loc r = none
  mem_held : ∀ r sem, r ∈ held sem ↔ loc r = some sem
  free_htcb : ∀ r ∈ free, p.htcb r = none
  htcb_inj : ∀ sem, ∀ r ∈ held sem, ∀ r' ∈ held sem, p.htcb r = p.htcb r' → (p.htcb r).isSome → r = r'

def HolderPool.Inv (p : HolderPool S T n) : Prop := ∃ free held loc, p.Layout free held loc

namespace HolderPool.Layout

variable {p : HolderPool S T n} {free : List (Fin n)} {held : S → List (Fin n)} {loc : Fin n → Option S}

theorem inv (h : p.Layout free held loc) : p.Inv := ⟨free,held,loc,h⟩

theorem not_mem_free (h : p.Layout free held loc) {r : Fin n} {sem : S} (hr : r ∈ held sem) : r ∉ free := by
  rw [h.mem_free,(h.mem_held r sem).mp hr]
  simp

theorem not_mem_held (h : p.Layout free held loc) {r : Fin n} {sem sem' : S} (hr : r ∈ held sem)
    (hne : sem' ≠ sem) : r ∉ held sem' := by
  rw [h.mem_held,(h.mem_held r sem).mp hr]
  simpa using hne.symm

theorem length_le (h : p.Layout free held loc) (sem : S) : (held sem).length ≤ n := by
  simpa using (h.held_chain sem).nodup.length_le_card

theorem counts (h : p.Layout free held loc) (c : Fin n → Int) : Layout { p with counts := c } free held loc :=
  ⟨h.free_chain,h.held_chain,h.mem_free,h.mem_held,h.free_htcb,h.htcb_inj⟩

theorem clear_htcb (h : p.Layout free held loc) (x : Fin n) :
    Layout { p with htcb := Function.update p.htcb x none } free held loc := by
  refine ⟨h.free_chain,h.held_chain,h.mem_free,h.mem_held,fun r hr => ?_,fun sem r hr r' hr' he hs => ?_⟩
  · by_cases hrx : r = x
    · simp [hrx]
    · simp [Function.update_of_ne hrx,h.free_htcb r hr]
  · by_cases hrx : r = x
    · simp [hrx] at hs
    by_cases hrx' : r' = x
    · simp [hrx',Function.update_of_ne hrx] at he hs
      simp [he] at hs
    simp only [Function.update_of_ne hrx,Function.update_of_ne hrx'] at he hs
    exact h.htcb_inj sem r hr r' hr' he hs

theorem set_htcb (h : p.Layout free held loc) {x : Fin n} {sem : S} (hx : x ∈ held sem) (t : T)
    (huniq : ∀ r ∈ held sem, r ≠ x → p.htcb r ≠ some t) :
    Layout { p with htcb := Function.update p.htcb x (some t) } free held loc := by
  refine ⟨h.free_chain,h.held_chain,h.mem_free,h.mem_held,fun r hr => ?_,fun sem' r hr r' hr' he hs => ?_⟩
  · have hrx : r ≠ x := ne_of_mem_of_not_mem hr (h.not_mem_free hx)
    simp [Function.update_of_ne hrx,h.free_htcb r hr]
  · dsimp only at he hs ⊢
    by_cases hsem : sem' = sem
    · subst hsem
      by_cases hrx : r = x <;> by_cases hrx' : r' = x
      · rw [hrx,hrx']
      · rw [hrx,Function.update_self,Function.update_of_ne hrx'] at he
        exact absurd he.symm (huniq r' hr' hrx')
      · rw [hrx',Function.update_self,Function.update_of_ne hrx] at he
        exact absurd he (huniq r hr hrx)
      · rw [Function.update_of_ne hrx,Function.update_of_ne hrx'] at he
        rw [Function.update_of_ne hrx] at hs
        exact h.htcb_inj sem' r hr r' hr' he hs
    · have hrx : r ≠ x := ne_of_mem_of_not_mem hr (h.not_mem_held hx hsem)
      have hrx' : r' ≠ x := ne_of_mem_of_not_mem hr' (h.not_mem_held hx hsem)
      rw [Function.update_of_ne hrx,Function.update_of_ne hrx'] at he
      rw [Function.update_of_ne hrx] at hs
      exact h.htcb_inj sem' r hr r' hr' he hs

theorem findholder_eq [DecidableEq T] (h : p.Layout free held loc) (sem : S) (t : T) :
    semFindholder p sem t = (held sem).find? (fun r => p.htcb r = some t) := by
  unfold semFindholder
  rw [(h.held_chain sem).walkUntil_find _ (h.length_le sem)]
  simp only [ne_eq,decide_not,Bool.not_not]
  cases (held sem).find? (fun r => decide (p.htcb r = some t)) <;> rfl

variable [DecidableEq S]

theorem alloc (h : p.Layout free held loc) {x : Fin n} {rest : List (Fin n)} (hfree : free = x :: rest) (sem : S) :
    (semAllocholder p sem).1 = some x ∧
      Layout (semAllocholder p sem).2 rest (Function.update held sem (x :: held sem)) (Function.update loc x (some sem)) := by
  subst hfree
  obtain ⟨hfh,hrest⟩ := Chain.cons_iff.mp h.free_chain
  have hxr : x ∉ rest := (List.nodup_cons.mp h.free_chain.nodup).1
  have hloc : loc x = none := (h.mem_free x).mp List.mem_cons_self
  have hxh : ∀ s, x ∉ held s := fun s hm => by simp [(h.mem_held x s).mp hm] at hloc
  simp only [semAllocholder,hfh,true_and]
  refine ⟨hrest.update_of_not_mem hxr _,fun s => ?_,fun r => ?_,fun r s => ?_,
    fun r hr => h.free_htcb r (List.mem_cons_of_mem x hr),fun s r hr r' hr' he hs => ?_⟩
  · by_cases hs : s = sem
    · subst hs
      simp only [Function.update_self]
      refine .cons x _ none ?_
      rw [Function.update_self]
      exact (h.held_chain s).update_of_not_mem (hxh s) _
    · simp only [Function.update_of_ne hs]
      exact (h.held_chain s).update_of_not_mem (hxh s) _
  · by_cases hrx : r = x
    · subst hrx
      simp [hxr]
    · simp [← h.mem_free,hrx]
  · by_cases hrx : r = x <;> by_cases hs : s = sem
    · subst hrx hs
      simp
    · subst hrx
      simp [Function.update_of_ne hs,hxh s,Ne.symm hs]
    · subst hs
      simp [hrx,h.mem_held]
    · simp [Function.update_of_ne hs,Function.update_of_ne hrx,h.mem_held]
  · have hnone : p.htcb x = none := h.free_htcb x List.mem_cons_self
    by_cases hsem : s = sem
    · subst hsem
      simp only [Function.update_self,List.mem_cons] at hr hr'
      rcases hr with rfl | hr <;> rcases hr' with rfl | hr'
      · rfl
      · simp [hnone] at hs
      · simp [hnone] at he hs
        simp [he] at hs
      · exact h.htcb_inj s r hr r' hr' he hs
    · rw [Function.update_of_ne hsem] at hr hr'
      exact h.htcb_inj s r hr r' hr' he hs

theorem move_to_free (h : p.Layout free held loc) {x : Fin n} {sem : S} (hx : x ∈ held sem)
    (hnone : p.htcb x = none) {q : HolderPool S T n} (hhtcb : q.htcb = p.htcb) (hfh : q.freeholders = some x)
    (hfx : q.flink x = p.freeholders) (hchain : Chain q.flink (q.hhead sem) ((held sem).erase x) none)
    (hhead : ∀ s, s ≠ sem → q.hhead s = p.hhead s) (hflink : ∀ r, loc r ≠ some sem → q.flink r = p.flink r) :
    q.Layout (x :: free) (Function.update held sem ((held sem).erase x)) (Function.update loc x none) := by
  have hloc : loc x = some sem := (h.mem_held x sem).mp hx
  have hnd := (h.held_chain sem).nodup
  refine ⟨?_,fun s => ?_,fun r => ?_,fun r s => ?_,fun r hr => ?_,fun s r hr r' hr' he hs => ?_⟩
  · rw [hfh]
    refine .cons x free none ?_
    rw [hfx]
    exact h.free_chain.frame fun r hr => hflink r (by simp [(h.mem_free r).mp hr])
  · by_cases hs : s = sem
    · subst hs
      simpa using hchain
    · rw [Function.update_of_ne hs,hhead s hs]
      exact (h.held_chain s).frame fun r hr => hflink r (by simp [(h.mem_held r s).mp hr,hs])
  · by_cases hrx : r = x
    · subst hrx
      simp
    · simp [hrx,h.mem_free]
  · by_cases hs : s = sem
    · subst hs
      by_cases hrx : r = x
      · subst hrx
        simp [hnd.mem_erase_iff]
      · simp [hnd.mem_erase_iff,hrx,h.mem_held]
    · rw [Function.update_of_ne hs]
      by_cases hrx : r = x
      · subst hrx
        simp [h.not_mem_held hx hs]
      · simp [Function.update_of_ne hrx,h.mem_held]
  · rw [hhtcb]
    rcases List.mem_cons.mp hr with rfl | hr
    · exact hnone
    · exact h.free_htcb r hr
  · rw [hhtcb] at he hs
    by_cases hsem : s = sem
    · subst hsem
      rw [Function.update_self] at hr hr'
      exact h.htcb_inj s r (List.mem_of_mem_erase hr) r' (List.mem_of_mem_erase hr') he hs
    · rw [Function.update_of_ne hsem] at hr hr'
      exact h.htcb_inj s r hr r' hr' he hs

end HolderPool.Layout

theorem semInitholders_chain (S T : Type) (n : Nat) (m : Nat) (hm : m ≤ n) :
    Chain (semInitholders S T n).flink (if h : n - m < n then some ⟨n - m,h⟩ else none)
      ((List.finRange n).drop (n - m)) none := by
  induction m with
  | zero =>
    rw [Nat.sub_zero,dif_neg (Nat.lt_irrefl n),List.drop_eq_nil_of_le (by simp)]
    exact .nil none
  | succ m ih =>
    have hk : n - (m + 1) < n := by omega
    have hlen : n - (m + 1) < (List.finRange n).length := by simpa using hk
    rw [dif_pos hk,List.drop_eq_getElem_cons hlen,List.getElem_finRange]
    refine .cons _ _ none ?_
    have hnext : n - (m + 1) + 1 = n - m := by omega
    simp only [semInitholders,hnext]
    exact ih (by omega)

theorem semInitholders_layout (S T : Type) (n : Nat) :
    (semInitholders S T n).Layout (List.finRange n) (fun _ => []) (fun _ => none) := by
  refine ⟨?_,fun _ => .nil none,fun r => by simp,fun r s => by simp,fun _ _ => rfl,fun _ r hr => by simp at hr⟩
  have h := semInitholders_chain S T n n le_rfl
  cases n <;> simpa [semInitholders] using h

namespace HolderPool.Inv

variable {p : HolderPool S T n}

theorem counts (h : p.Inv) (c : Fin n → Int) : Inv { p with counts := c } := by
  obtain ⟨free,held,loc,h⟩ := h
  exact (h.counts c).inv

theorem foreachholderLoop {handler : HolderPool S T n → Fin n → Int × HolderPool S T n}
    (hh : ∀ p r, p.Inv → (handler p r).2.Inv) (fuel : Nat) (pholder : Option (Fin n)) (ret : Int) (h : p.Inv) :
    (semForeachholderLoop handler fuel pholder ret p).2.Inv := by
  induction fuel generalizing pholder ret p with
  | zero => exact h
  | succ fuel ih =>
    cases pholder with
    | none => exact h
    | some r =>
      unfold semForeachholderLoop
      by_cases hret : ret ≠ 0
      · rw [if_pos hret]
        exact h
      rw [if_neg hret]
      by_cases hs : (p.htcb r).isSome
      · simp only [hs,if_true]
        exact ih _ _ (hh p r h)
      · simp only [hs,Bool.false_eq_true,if_false]
        exact ih _ _ h

theorem foreachholder {handler : HolderPool S T n → Fin n → Int × HolderPool S T n}
    (hh : ∀ p r, p.Inv → (handler p r).2.Inv) (h : p.Inv) (sem : S) : (semForeachholder p sem handler).2.Inv :=
  foreachholderLoop hh n (p.hhead sem) 0 h

theorem releaseholder [DecidableEq T] (h : p.Inv) (sem : S) (rtcb : T) : (semReleaseholder p sem rtcb).Inv := by
  unfold semReleaseholder
  split
  · split_ifs
    · exact h.counts _
    · exact h
  · exact h

variable [DecidableEq S]

theorem freeholder (h : p.Inv) (sem : S) (x : Fin n) : (semFreeholder p sem x).Inv := by
  obtain ⟨free,held,loc,h⟩ := h
  have h₁ : Layout { p with htcb := Function.update p.htcb x none, counts := Function.update p.counts x 0 }
      free held loc := (h.clear_htcb x).counts _
  unfold semFreeholder
  dsimp only
  by_cases hx : x ∈ held sem
  · obtain ⟨l₁,l₂,hl⟩ := List.append_of_mem hx
    have hchain := h₁.held_chain sem
    rw [hl] at hchain
    have hnd := hchain.nodup
    have hxl₁ : x ∉ l₁ := fun hm => (List.nodup_append.mp hnd).2.2 x hm x List.mem_cons_self rfl
    have hlen : l₁.length < n := by
      have := h.length_le sem
      rw [hl,List.length_append,List.length_cons] at this
      omega
    rw [hchain.walkPrev_mem hxl₁ hlen none]
    have hnone : Function.update p.htcb x none x = none := Function.update_self ..
    have hlocx : loc x = some sem := (h.mem_held x sem).mp hx
    rcases List.eq_nil_or_concat' l₁ with rfl | ⟨l₀,q,rfl⟩
    · obtain ⟨-,hrest⟩ := Chain.cons_iff.mp hchain
      have hxl₂ : x ∉ l₂ := (List.nodup_cons.mp hnd).1
      dsimp only [List.getLast?_nil,Option.or]
      refine (h₁.move_to_free hx hnone ?_ ?_ ?_ ?_ ?_ ?_).inv
      · rfl
      · rfl
      · exact Function.update_self ..
      · simp only [Function.update_self,hl,List.nil_append,List.erase_cons_head]
        exact hrest.update_of_not_mem hxl₂ _
      · exact fun s hs => Function.update_of_ne hs ..
      · intro r hr
        exact Function.update_of_ne (fun he => hr (by rw [he]; exact hlocx)) ..
    · have hq : q ∈ held sem := by simp [hl]
      have hlocq : loc q = some sem := (h.mem_held q sem).mp hq
      rw [List.append_assoc,List.singleton_append] at hchain
      have hxl : x ∉ l₀ ++ q :: l₂ := by
        have hnd' : ((l₀ ++ [q]) ++ x :: l₂).Nodup := by simpa using hnd
        simpa using (List.nodup_cons.mp (List.nodup_middle.mp hnd')).1
      simp only [List.getLast?_append,List.getLast?_singleton,Option.some_or]
      refine (h₁.move_to_free hx hnone ?_ ?_ ?_ ?_ ?_ ?_).inv
      · rfl
      · rfl
      · exact Function.update_self ..
      · have hxq : x ∉ l₀ ++ [q] := fun hm => hxl (by
          simp only [List.mem_append,List.mem_cons] at hm ⊢
          tauto)
        rw [hl,List.erase_append_right _ hxq,List.erase_cons_head,List.append_assoc,List.singleton_append]
        exact (hchain.unlink).update_of_not_mem hxl _
      · exact fun _ _ => rfl
      · intro r hr
        have hrx : r ≠ x := fun he => hr (by rw [he]; exact hlocx)
        have hrq : r ≠ q := fun he => hr (by rw [he]; exact hlocq)
        simp [Function.update_of_ne hrx,Function.update_of_ne hrq]
  · rw [(h₁.held_chain sem).walkPrev_absent hx (h.length_le sem) none]
    exact h₁.inv

theorem freeStaleholder (h : p.Inv) (alive : T → Bool) (sem : S) (pholder : Fin n) :
    (semFreeStaleholder alive sem p pholder).2.Inv := by
  unfold semFreeStaleholder
  split_ifs
  · exact h
  · exact h.freeholder sem pholder

variable [DecidableEq T]

theorem addholderTcb (h : p.Inv) (t : T) (sem : S) (disabled : Bool) : (semAddholderTcb p t sem disabled).Inv := by
  obtain ⟨free,held,loc,h⟩ := h
  unfold semAddholderTcb semFindorallocateholder
  split_ifs with hd
  · exact h.inv
  rw [h.findholder_eq]
  cases hf : (held sem).find? (fun r => p.htcb r = some t) with
  | some r =>
    have hr := List.mem_of_find?_eq_some hf
    have ht : p.htcb r = some t := by simpa using List.find?_some hf
    have huniq : ∀ r' ∈ held sem, r' ≠ r → p.htcb r' ≠ some t := fun r' hr' hne he =>
      hne (h.htcb_inj sem r' hr' r hr (he.trans ht.symm) (by simp [he]))
    exact ((h.set_htcb hr t huniq).counts _).inv
  | none =>
    have habs : ∀ r ∈ held sem, p.htcb r ≠ some t := by simpa using List.find?_eq_none.mp hf
    cases hfh : p.freeholders with
    | none =>
      simp only [semAllocholder,hfh]
      exact h.inv
    | some x =>
      obtain ⟨rest,hfree⟩ : ∃ rest, free = x :: rest := by
        have hhd := h.free_chain.start_eq_head?
        rw [hfh] at hhd
        exact List.head?_eq_some_iff.mp hhd.symm
      obtain ⟨h₁,h₂⟩ := h.alloc hfree sem
      have hhtcb : (semAllocholder p sem).2.htcb = p.htcb := by simp [semAllocholder,hfh]
      have huniq : ∀ r ∈ Function.update held sem (x :: held sem) sem, r ≠ x →
          (semAllocholder p sem).2.htcb r ≠ some t := by
        intro r hr hne
        rw [Function.update_self] at hr
        rw [hhtcb]
        exact habs r ((List.mem_cons.mp hr).resolve_left hne)
      rw [show semAllocholder p sem = (some x,(semAllocholder p sem).2) from Prod.ext h₁ rfl]
      exact ((h₂.set_htcb (by simp) t huniq).counts _).inv

theorem restoreholderprioA (h : p.Inv) (rtcb : T) (alive : T → Bool) (sem : S) (pholder : Fin n) :
    (semRestoreholderprioA rtcb alive sem p pholder).2.Inv := by
  unfold semRestoreholderprioA
  split_ifs
  · exact h.freeStaleholder alive sem pholder
  · exact h

theorem restoreholderprioB (h : p.Inv) (rtcb : T) (alive : T → Bool) (sem : S) (pholder : Fin n) :
    (semRestoreholderprioB rtcb alive sem p pholder).2.Inv := by
  unfold semRestoreholderprioB
  split_ifs
  · exact h.freeStaleholder alive sem pholder
  · exact h

theorem restorebaseprio (h : p.Inv) (interrupt : Bool) (stcb : Option T) (rtcb : T) (alive : T → Bool) (sem : S) :
    (semRestorebaseprio interrupt stcb rtcb alive sem p).Inv := by
  unfold semRestorebaseprio semRestorebaseprioIrq semRestorebaseprioTask
  dsimp only
  split_ifs with hi hs
  · exact h.foreachholder (fun p r h => h.freeStaleholder alive sem r) sem
  · exact h
  · have h₂ := (h.foreachholder (fun p r h => h.restoreholderprioA rtcb alive sem r) sem).foreachholder
      (fun p r h => h.restoreholderprioB rtcb alive sem r) sem
    split
    · split_ifs
      · exact h₂.freeholder sem _
      · exact h₂
    · exact h₂
  · split
    · split_ifs
      · exact h.freeholder sem _
      · exact h
    · exact h

end HolderPool.Inv

/-- The holder calls of `sem_wait`, `sem_trywait`, `sem_post`, `sem_waitirq` and `sem_destroy`, on any
semaphore, from the records as `sem_initholders` leaves them. -/
inductive HolderReachable [DecidableEq S] [DecidableEq T] : HolderPool S T n → Prop
  | init : HolderReachable (semInitholders S T n)
  /-- `sem_wait` or `sem_trywait` taking a count -/
  | take {p : HolderPool S T n} (sem : S) (rtcb : T) (disabled : Bool) : HolderReachable p →
      HolderReachable (semAddholderTcb p rtcb sem disabled)
  /-- `sem_wait` blocking -/
  | block {p : HolderPool S T n} (sem : S) (alive : T → Bool) : HolderReachable p →
      HolderReachable (semBoostpriority alive sem p)
  | post {p : HolderPool S T n} (sem : S) (rtcb : T) (stcb : Option T) (disabled interrupt : Bool) (alive : T → Bool) :
      HolderReachable p → HolderReachable (semPostHolders p sem rtcb stcb disabled interrupt alive)
  /-- `sem_waitirq` -/
  | cancel {p : HolderPool S T n} (sem : S) (alive : T → Bool) : HolderReachable p →
      HolderReachable (semCanceled alive sem p)
  | destroy {p : HolderPool S T n} (sem : S) : HolderReachable p → HolderReachable (semDestroyholder sem p)

theorem HolderReachable.inv [DecidableEq S] [DecidableEq T] {p : HolderPool S T n} (hr : HolderReachable p) :
    p.Inv := by
  have hstale : ∀ alive sem (p : HolderPool S T n) r, p.Inv → (semFreeStaleholder alive sem p r).2.Inv :=
    fun alive sem p r h => h.freeStaleholder alive sem r
  induction hr with
  | init => exact (semInitholders_layout S T n).inv
  | take sem rtcb disabled _ ih => exact ih.addholderTcb rtcb sem disabled
  | block sem alive _ ih => exact ih.foreachholder (hstale alive sem) sem
  | post sem rtcb stcb disabled interrupt alive _ ih =>
    have h₁ := ih.releaseholder sem rtcb
    unfold semPostHolders
    split
    · exact (h₁.addholderTcb _ sem disabled).restorebaseprio interrupt _ rtcb alive sem
    · exact h₁.restorebaseprio interrupt _ rtcb alive sem
  | cancel sem alive _ ih => exact ih.foreachholder (hstale alive sem) sem
  | destroy sem _ ih =>
    unfold semDestroyholder
    split_ifs
    · exact ih.foreachholder (fun p r h => h.freeholder sem r) sem
    · exact ih

/-- Over every run of the semaphore calls, each holder record is on the free list or on the list of
one semaphore and on no other list, every list ends, and a semaphore's list has one record for each
holder. -/
theorem sem_holder_records_conserved [DecidableEq S] [DecidableEq T] {p : HolderPool S T n}
    (hr : HolderReachable p) :
    ∃ (free : List (Fin n)) (held : S → List (Fin n)), Chain p.flink p.freeholders free none ∧ (∀ sem, Chain p.flink (p.hhead sem) (held sem) none) ∧
      (∀ r, (r ∈ free ∧ ∀ sem, r ∉ held sem) ∨ (r ∉ free ∧ ∃! sem, r ∈ held sem)) ∧
      (∀ sem, ∀ r ∈ held sem, ∀ r' ∈ held sem, p.htcb r = p.htcb r' → (p.htcb r).isSome → r = r') := by
  obtain ⟨free,held,loc,h⟩ := hr.inv
  refine ⟨free,held,h.free_chain,h.held_chain,fun r => ?_,h.htcb_inj⟩
  cases hl : loc r with
  | none => exact .inl ⟨(h.mem_free r).mpr hl,fun sem hm => by simp [(h.mem_held r sem).mp hm] at hl⟩
  | some sem =>
    refine .inr ⟨fun hm => by simp [(h.mem_free r).mp hm] at hl,sem,(h.mem_held r sem).mpr hl,fun s hs => ?_⟩
    simpa [hl] using ((h.mem_held r s).mp hs).symm

theorem sem_holder_records_conserved_take :
    HolderReachable (semAddholderTcb (semInitholders Nat Nat 2) 7 0 false) ∧
      ∃ (free : List (Fin 2)) (held : Nat → List (Fin 2)), Chain (semAddholderTcb (semInitholders Nat Nat 2) 7 0 false).flink
          (semAddholderTcb (semInitholders Nat Nat 2) 7 0 false).freeholders free none ∧
        (∀ sem, Chain (semAddholderTcb (semInitholders Nat Nat 2) 7 0 false).flink
          ((semAddholderTcb (semInitholders Nat Nat 2) 7 0 false).hhead sem) (held sem) none) ∧
        (∀ r, (r ∈ free ∧ ∀ sem, r ∉ held sem) ∨ (r ∉ free ∧ ∃! sem, r ∈ held sem)) ∧
        (∀ sem, ∀ r ∈ held sem, ∀ r' ∈ held sem,
          (semAddholderTcb (semInitholders Nat Nat 2) 7 0 false).htcb r =
            (semAddholderTcb (semInitholders Nat Nat 2) 7 0 false).htcb r' →
          ((semAddholderTcb (semInitholders Nat Nat 2) 7 0 false).htcb r).isSome → r = r') :=
  ⟨.take 0 7 false .init,sem_holder_records_conserved (.take 0 7 false .init)⟩

end TizenRT.Sem
