import Mathlib.Data.List.TakeWhile
import TizenRT.Sched.Invariant

set_option autoImplicit false

/-!
`sched_mergepending` keeps the task lists well formed. Its search pointer only moves forward:
every pending task has a priority not above the one inserted before it, so the walk that
resumes from the last insertion finds the same place as a walk from the head, and the loop
is a run of stable insertions into g_readytorun, each with a fresh stamp.
-/

namespace TizenRT.Sched

open StableInsert

variable {T : Type} {idle : T}

theorem walk_eq_insertByKey (prio : T → Nat) (pnd : T) (before after : List T)
    (hbefore : ∀ b ∈ before, prio pnd ≤ prio b) :
    (before ++ after.takeWhile (fun r => decide (prio pnd ≤ prio r))) ++
        pnd :: after.dropWhile (fun r => decide (prio pnd ≤ prio r)) =
      insertByKey (prioKey prio) pnd (before ++ after) := by
  have hpre : ∀ b ∈ before, prioKey prio b ≤ prioKey prio pnd :=
    fun b hb => OrderDual.toDual_le_toDual.mpr (hbefore b hb)
  rw [insertByKey_append before after hpre,insertByKey_eq_takeWhile]
  simp [prioKey,List.append_assoc]

variable (idle) in
/-- What holds at each turn of the loop of `sched_mergepending` started from `s`:
`before ++ after` is g_readytorun as built so far, `P` the pending tasks still to insert. -/
structure MergeInv (s s' : SchedState T) (before after P : List T) : Prop where
  prio : s'.sched_priority = s.sched_priority
  lists : s'.lists = s.lists
  lockcount : s'.lockcount = s.lockcount
  frame : ∀ u, u ∉ before ++ after → s'.task_state u = s.task_state u ∧ s'.stamp u = s.stamp u
  clock_le : s.clock ≤ s'.clock
  stamp_lt : ∀ u, s'.stamp u < s'.clock
  mem_iff : ∀ u, u ∈ before ++ after ↔
    u ∈ s.lists .readytorun ∨ (u ∈ s.lists .pendingtasks ∧ u ∉ P)
  nodup : (before ++ after).Nodup
  suffix : P <:+ s.lists .pendingtasks
  ready_state : ∀ u ∈ before ++ after,
    s'.task_state u = .taskReadytorun ∨ s'.task_state u = .taskRunning
  running_iff : ∀ u ∈ before ++ after,
    s'.task_state u = .taskRunning ↔ (before ++ after).head? = some u
  fifo : FifoSorted (prioKey s.sched_priority) s'.stamp (before ++ after)
  cursor : ∀ b ∈ before, ∀ p ∈ P, s.sched_priority p ≤ s.sched_priority b
  last : (before ++ after).getLast? = some idle

theorem MergeInv.init {s : SchedState T} (h : ReadyInv idle s) :
    MergeInv idle s s [] (s.lists .readytorun) (s.lists .pendingtasks) where
  prio := rfl
  lists := rfl
  lockcount := rfl
  frame _ _ := ⟨rfl,rfl⟩
  clock_le := le_rfl
  stamp_lt := h.stamp_lt
  mem_iff u := by simp
  nodup := h.nodup _
  suffix := List.suffix_refl _
  ready_state u hu := (h.mem_ready_iff u).mp (by simpa using hu)
  running_iff u _ := by simpa using h.running_iff u
  fifo := by simpa using h.fifo .readytorun rfl
  cursor := by simp
  last := by simpa using h.idle_last

namespace MergeInv

variable {s s' : SchedState T} {before after : List T} {pnd : T} {rest : List T}

theorem pnd_mem (m : MergeInv idle s s' before after (pnd :: rest)) :
    pnd ∈ s.lists .pendingtasks :=
  m.suffix.subset List.mem_cons_self

theorem flatten (m : MergeInv idle s s' before after []) :
    MergeInv idle s s' [] (before ++ after) [] :=
  { m with cursor := by simp }

section Turn

variable (h : ReadyInv idle s) (m : MergeInv idle s s' before after (pnd :: rest))
include h m

theorem nodup_pending : (pnd :: rest).Nodup := (h.nodup _).sublist m.suffix.sublist

theorem pnd_not_mem : pnd ∉ before ++ after := by
  rw [m.mem_iff]
  rintro (hr | ⟨-,hp⟩)
  · have h₁ := (h.mem_iff pnd _).mp hr
    rw [(h.mem_iff pnd _).mp m.pnd_mem] at h₁
    cases h₁
  · exact hp List.mem_cons_self

theorem pnd_ne_idle : pnd ≠ idle := by
  rintro rfl
  exact m.pnd_not_mem h (List.mem_of_getLast? m.last)

theorem le_pnd : ∀ p ∈ rest, s.sched_priority p ≤ s.sched_priority pnd := by
  have hs : Sorted (prioKey s.sched_priority) (pnd :: rest) :=
    ((h.fifo .pendingtasks rfl).sorted).sublist m.suffix.sublist
  intro p hp
  exact OrderDual.toDual_le_toDual.mp ((List.pairwise_cons.mp hs).1 p hp)

variable [DecidableEq T]

theorem next {s₂ : SchedState T} {before' after' : List T}
    (hR : before' ++ after' = insertByKey (prioKey s.sched_priority) pnd (before ++ after))
    (hprio : s₂.sched_priority = s.sched_priority) (hlists : s₂.lists = s.lists)
    (hlock : s₂.lockcount = s.lockcount)
    (hstamp : s₂.stamp = Function.update s'.stamp pnd s'.clock) (hclock : s₂.clock = s'.clock + 1)
    (hother : ∀ u, u ≠ pnd → u ∉ before ++ after → s₂.task_state u = s'.task_state u)
    (hstate : ∀ u ∈ before' ++ after',
      s₂.task_state u = .taskReadytorun ∨ s₂.task_state u = .taskRunning)
    (hrun : ∀ u ∈ before' ++ after',
      s₂.task_state u = .taskRunning ↔ (before' ++ after').head? = some u)
    (hcursor : ∀ b ∈ before', ∀ p ∈ rest, s.sched_priority p ≤ s.sched_priority b) :
    MergeInv idle s s₂ before' after' rest := by
  have hout := m.pnd_not_mem h
  have hnd := m.nodup_pending h
  have hmem : ∀ u, u ∈ before' ++ after' ↔ u = pnd ∨ u ∈ before ++ after := by
    intro u
    rw [hR,mem_insertByKey]
  refine ⟨hprio,hlists,hlock,fun u hu => ?_,?_,fun u => ?_,fun u => ?_,?_,
    (List.suffix_cons pnd rest).trans m.suffix,hstate,hrun,?_,hcursor,?_⟩
  · rw [hmem,not_or] at hu
    rw [hother u hu.1 hu.2,hstamp,Function.update_of_ne hu.1]
    exact m.frame u hu.2
  · rw [hclock]
    exact Nat.le_succ_of_le m.clock_le
  · rw [hstamp,hclock,Function.update_apply]
    have := m.stamp_lt u
    split_ifs <;> omega
  · rw [hmem,m.mem_iff]
    by_cases hu : u = pnd
    · subst hu
      simp [m.pnd_mem,(List.nodup_cons.mp hnd).1]
    · simp [hu]
  · rw [hR]
    exact (insertByKey_perm _ _).nodup_iff.mpr (List.nodup_cons.mpr ⟨hout,m.nodup⟩)
  · rw [hR,hstamp]
    apply fifoSorted_insertByKey ((fifoSorted_congr fun a ha =>
      ⟨rfl,Function.update_of_ne (by rintro rfl; exact hout ha) _ _⟩).mpr m.fifo)
    intro a ha
    rw [Function.update_self,Function.update_of_ne (by rintro rfl; exact hout ha)]
    exact m.stamp_lt a
  · rw [hR]
    refine getLast?_insertByKey m.last (OrderDual.toDual_lt_toDual.mpr ?_)
    rw [h.prio_idle]
    exact h.prio_pos pnd (m.pnd_ne_idle h)

theorem step (ret : Bool) : ∃ s₂ before' after' ret',
    mergeLoop s' before after ret (pnd :: rest) = mergeLoop s₂ before' after' ret' rest ∧
      MergeInv idle s s₂ before' after' rest := by
  have hout := m.pnd_not_mem h
  have hR := walk_eq_insertByKey s.sched_priority pnd before after
    (fun b hb => m.cursor b hb pnd List.mem_cons_self)
  have hsplit := List.takeWhile_append_dropWhile (p := fun r =>
    decide (s.sched_priority pnd ≤ s.sched_priority r)) (l := after)
  rw [mergeLoop]
  simp only [m.prio]
  split_ifs with hhead
  · obtain ⟨hb,htw⟩ := List.append_eq_nil_iff.mp hhead
    subst hb
    rw [htw,List.nil_append] at hsplit
    rw [htw,List.append_nil,List.nil_append,hsplit] at hR
    obtain ⟨r,ra,hafter⟩ := List.exists_cons_of_ne_nil
      (List.ne_nil_of_mem (List.mem_of_getLast? (by simpa using m.last)))
    have hr : r ≠ pnd := by rintro rfl; exact hout (by simp [hafter])
    rw [hsplit,hafter]
    refine ⟨_,[],pnd :: r :: ra,true,rfl,m.next h (by simpa [hafter] using hR) (by simp [m.prio])
      (by simp [m.lists]) (by simp [m.lockcount]) (by simp) (by simp) (fun u hu hu' => ?_)
      (fun u hu => ?_) (fun u hu => ?_) (by simp)⟩
    · have hur : u ≠ r := by rintro rfl; exact hu' (by simp [hafter])
      simp [Function.update_of_ne hu,Function.update_of_ne hur]
    · by_cases hup : u = pnd
      · subst hup
        simp
      · by_cases hur : u = r
        · subst hur
          simp [hup]
        · have := m.ready_state u (by simpa [hafter,hup] using hu)
          simpa [Function.update_of_ne hup,Function.update_of_ne hur] using this
    · by_cases hup : u = pnd
      · subst hup
        simp
      · by_cases hur : u = r
        · subst hur
          simp [hup,Ne.symm hup]
        · have := m.running_iff u (by simpa [hafter,hup] using hu)
          simp [hafter] at this
          simp [Function.update_of_ne hup,Function.update_of_ne hur,this,Ne.symm hur,Ne.symm hup]
  · obtain ⟨c,cs,hc⟩ := List.exists_cons_of_ne_nil hhead
    have hhd : ∀ x l, ((before ++ after.takeWhile (fun r =>
        decide (s.sched_priority pnd ≤ s.sched_priority r))) ++ x :: l).head? =
          (before ++ after).head? := by
      intro x l
      conv_rhs => rw [← hsplit,← List.append_assoc,hc]
      rw [hc]
      rfl
    refine ⟨_,_,_,ret,rfl,m.next h hR (by simp [m.prio]) (by simp [m.lists])
      (by simp [m.lockcount]) (by simp) (by simp) (fun u hu hu' => ?_) (fun u hu => ?_)
      (fun u hu => ?_) (fun b hb p hp => ?_)⟩
    · simp [Function.update_of_ne hu]
    · by_cases hup : u = pnd
      · subst hup
        simp
      · have hu' : u ∈ before ++ after := by
          rw [hR,mem_insertByKey] at hu
          exact hu.resolve_left hup
        simpa [Function.update_of_ne hup] using m.ready_state u hu'
    · rw [hhd]
      by_cases hup : u = pnd
      · subst hup
        refine ⟨by simp,fun e => absurd (List.mem_of_mem_head? e) hout⟩
      · have hu' : u ∈ before ++ after := by
          rw [hR,mem_insertByKey] at hu
          exact hu.resolve_left hup
        simpa [Function.update_of_ne hup] using m.running_iff u hu'
    · rcases List.mem_append.mp hb with hb | hb
      · exact m.cursor b hb p (List.mem_cons_of_mem _ hp)
      · have hpb : s.sched_priority pnd ≤ s.sched_priority b := by
          simpa using List.mem_takeWhile_imp hb
        exact (m.le_pnd h p hp).trans hpb

end Turn

end MergeInv

variable [DecidableEq T]

theorem MergeInv.loop {s : SchedState T} (h : ReadyInv idle s) (P : List T) :
    ∀ {s' : SchedState T} {before after : List T} (ret : Bool),
      MergeInv idle s s' before after P →
        MergeInv idle s (mergeLoop s' before after ret P).1 [] (mergeLoop s' before after ret P).2.1 []
  := by
  induction P with
  | nil => exact fun _ m => m.flatten
  | cons pnd rest ih =>
    intro s' before after ret m
    obtain ⟨s₂,before',after',ret',heq,m'⟩ := m.step h ret
    rw [heq]
    exact ih ret' m'

@[simp] theorem schedMergepending_pendingtasks (s : SchedState T) :
    (schedMergepending s).1.lists .pendingtasks = [] := by
  simp [schedMergepending]

namespace ReadyInv

variable {s : SchedState T} (h : ReadyInv idle s)
include h

theorem mergepending : ReadyInv idle (schedMergepending s).1 := by
  have m := MergeInv.loop h (s.lists .pendingtasks) false (MergeInv.init h)
  set r := mergeLoop s [] (s.lists .readytorun) false (s.lists .pendingtasks) with hr
  have hout : ∀ t, t ∉ r.2.1 → t ∉ s.lists .readytorun ∧ t ∉ s.lists .pendingtasks := by
    intro t ht
    simpa using (m.mem_iff t).not.mp (by simpa using ht)
  have hframe : ∀ t, t ∉ r.2.1 → r.1.task_state t = s.task_state t ∧ r.1.stamp t = s.stamp t :=
    fun t ht => m.frame t (by simpa using ht)
  have hother : ∀ t ∈ r.2.1, ∀ L, L ≠ .readytorun → L ≠ .pendingtasks → t ∉ s.lists L := by
    intro t ht L hr hp htL
    rcases (m.mem_iff t).mp (by simpa using ht) with h' | ⟨h',-⟩
    · exact hr (h.list_eq htL h')
    · exact hp (h.list_eq htL h')
  have hin : ∀ t ∈ r.2.1, (gTasklisttable (r.1.task_state t)).list = some .readytorun := by
    intro t ht
    rcases m.ready_state t (by simpa using ht) with e | e <;> simp [e,gTasklisttable]
  have hlists : ∀ L, (schedMergepending s).1.lists L =
      if L = .pendingtasks then [] else if L = .readytorun then r.2.1 else s.lists L := by
    intro L
    by_cases hp : L = .pendingtasks
    · subst hp
      simp
    · by_cases hrl : L = .readytorun
      · subst hrl
        simp [schedMergepending,hr]
      · simp [schedMergepending,hp,hrl,Function.update_of_ne,← hr,m.lists]
  have hstate : (schedMergepending s).1.task_state = r.1.task_state := rfl
  have hstamp : (schedMergepending s).1.stamp = r.1.stamp := rfl
  have hprio : (schedMergepending s).1.sched_priority = s.sched_priority := m.prio
  refine ⟨⟨fun t L => ?_,fun L => ?_,fun L hL => ?_,m.stamp_lt,hprio ▸ h.prio_idle,
    hprio ▸ h.prio_pos⟩,fun t => ?_,by simpa [hlists] using m.last⟩
  · rw [hlists,hstate]
    by_cases ht : t ∈ r.2.1
    · rw [hin t ht]
      split_ifs with hp hrl
      · subst hp
        simp
      · subst hrl
        simp [ht]
      · rw [Option.some.injEq]
        exact ⟨fun htL => absurd htL (hother t ht L hrl hp),fun e => absurd e.symm hrl⟩
    · rw [(hframe t ht).1,← h.mem_iff]
      split_ifs with hp hrl
      · subst hp
        simp [(hout t ht).2]
      · subst hrl
        simp [ht,(hout t ht).1]
      · rfl
  · rw [hlists]
    split_ifs
    · exact List.nodup_nil
    · simpa using m.nodup
    · exact h.nodup L
  · rw [hlists,hstamp,hprio]
    split_ifs with hp hrl
    · exact List.Pairwise.nil
    · simpa using m.fifo
    · refine (fifoSorted_congr fun t ht => ?_).mpr (h.fifo L hL)
      have ht' : t ∉ r.2.1 := fun ht' => hother t ht' L hrl hp ht
      exact ⟨rfl,(hframe t ht').2⟩
  · rw [hlists,hstate]
    simp only [if_neg (show TList.readytorun ≠ .pendingtasks by decide),if_true]
    by_cases ht : t ∈ r.2.1
    · simpa using m.running_iff t (by simpa using ht)
    · rw [(hframe t ht).1,h.running_iff]
      exact ⟨fun e => absurd (List.mem_of_mem_head? e) (hout t ht).1,
        fun e => absurd (List.mem_of_mem_head? e) ht⟩

end ReadyInv

/-! The merge against insertions one at a time: g_readytorun ends as `sched_addprioritized` of each
pending task in turn would leave it, and the result says whether its head changed. -/

theorem mergeLoop_eq_foldl {prio : T → Nat} (P : List T) (hP : P.Pairwise fun a b => prio b ≤ prio a) :
    ∀ {s : SchedState T} {before after : List T} {ret : Bool}, s.sched_priority = prio →
      (∀ b ∈ before, ∀ p ∈ P, prio p ≤ prio b) →
      (mergeLoop s before after ret P).2.1 = P.foldl (fun l p => addPrioritized prio p l) (before ++ after) := by
  induction P with
  | nil => simp [mergeLoop]
  | cons pnd rest ih =>
    intro s before after ret hprio hcur
    obtain ⟨hpnd,hrest⟩ := List.pairwise_cons.mp hP
    have hwalk := walk_eq_insertByKey prio pnd before after fun b hb => hcur b hb pnd List.mem_cons_self
    rw [← addPrioritized_eq] at hwalk
    have hcur' : ∀ b ∈ before ++ after.takeWhile (fun r => decide (prio pnd ≤ prio r)), ∀ p ∈ rest,
        prio p ≤ prio b := by
      intro b hb p hp
      rcases List.mem_append.mp hb with hb | hb
      · exact hcur b hb p (List.mem_cons_of_mem _ hp)
      · exact (hpnd p hp).trans (by simpa using List.mem_takeWhile_imp hb)
    simp only [mergeLoop,hprio,List.foldl_cons]
    split_ifs with hnil
    · rw [ih hrest (by split <;> simp [hprio]) (by simp),← hwalk,hnil]
    · rw [ih hrest (by simp [hprio]) hcur',← hwalk]

theorem mergeLoop_ret {h₀ : Option T} (P : List T) (hP : ∀ p ∈ P, h₀ ≠ some p) :
    ∀ {s : SchedState T} {before after : List T} {ret : Bool}, (ret = true ↔ (before ++ after).head? ≠ h₀) →
      ((mergeLoop s before after ret P).2.2 = true ↔ (mergeLoop s before after ret P).2.1.head? ≠ h₀) := by
  induction P with
  | nil => simp [mergeLoop]
  | cons pnd rest ih =>
    intro s before after ret hret
    have hrest : ∀ p ∈ rest, h₀ ≠ some p := fun p hp => hP p (List.mem_cons_of_mem _ hp)
    simp only [mergeLoop]
    split_ifs with hnil
    · exact ih hrest (by simpa using (hP pnd List.mem_cons_self).symm)
    · refine ih hrest ?_
      have hhead : (before ++ after).head? =
          (before ++ after.takeWhile fun r => decide (s.sched_priority pnd ≤ s.sched_priority r)).head? := by
        conv_lhs => rw [← List.takeWhile_append_dropWhile (p := fun r => decide (s.sched_priority pnd ≤
          s.sched_priority r)) (l := after),← List.append_assoc]
        exact List.head?_append_of_ne_nil _ hnil
      rw [hret,List.head?_append_of_ne_nil _ hnil,hhead]

omit [DecidableEq T] in
theorem getLast?_foldl_addPrioritized {prio : T → Nat} {idle : T} (P : List T)
    (hP : ∀ p ∈ P, prio idle < prio p) :
    ∀ {l : List T}, l.getLast? = some idle →
      (P.foldl (fun l p => addPrioritized prio p l) l).getLast? = some idle := by
  induction P with
  | nil => exact fun hl => hl
  | cons p rest ih =>
    intro l hl
    rw [List.foldl_cons]
    refine ih (fun q hq => hP q (List.mem_cons_of_mem _ hq)) ?_
    rw [addPrioritized_eq]
    exact getLast?_insertByKey hl (OrderDual.toDual_lt_toDual.mpr (hP p List.mem_cons_self))

theorem foldl_schedAddprioritized_readytorun (P : List T) :
    ∀ s : SchedState T, ((P.foldl (fun s p => (schedAddprioritized s p .readytorun).1) s).lists .readytorun) =
      P.foldl (fun l p => addPrioritized s.sched_priority p l) (s.lists .readytorun) := by
  induction P with
  | nil => simp
  | cons p rest ih =>
    intro s
    rw [List.foldl_cons,List.foldl_cons,ih]
    simp [schedAddprioritized]

/-- `sched_mergepending` leaves g_readytorun as `sched_addprioritized` of the pending tasks one at a
time in their order would, empties g_pendingtasks, and returns true exactly when the head of
g_readytorun changed; the idle task stays last, so the search of every turn stops at a task. -/
theorem sched_mergepending_eq_addprioritized {s : SchedState T} {idle : T}
    (hlast : (s.lists .readytorun).getLast? = some idle)
    (hidle : ∀ p ∈ s.lists .pendingtasks, s.sched_priority idle < s.sched_priority p)
    (hsorted : (s.lists .pendingtasks).Pairwise fun a b => s.sched_priority b ≤ s.sched_priority a)
    (hdisj : ∀ p ∈ s.lists .pendingtasks, p ∉ s.lists .readytorun) :
    (schedMergepending s).1.lists .readytorun =
      ((s.lists .pendingtasks).foldl (fun s p => (schedAddprioritized s p .readytorun).1) s).lists .readytorun ∧
    (schedMergepending s).1.lists .pendingtasks = [] ∧
    ((schedMergepending s).2 = true ↔
      ((schedMergepending s).1.lists .readytorun).head? ≠ (s.lists .readytorun).head?) ∧
    ((schedMergepending s).1.lists .readytorun).getLast? = some idle := by
  have hlist : (schedMergepending s).1.lists .readytorun =
      (s.lists .pendingtasks).foldl (fun l p => addPrioritized s.sched_priority p l) (s.lists .readytorun) := by
    have h : (mergeLoop s [] (s.lists .readytorun) false (s.lists .pendingtasks)).2.1 = _ :=
      mergeLoop_eq_foldl _ hsorted rfl (by simp)
    rw [List.nil_append] at h
    simpa [schedMergepending] using h
  refine ⟨by rw [hlist,foldl_schedAddprioritized_readytorun],schedMergepending_pendingtasks s,?_,?_⟩
  · have hhead : ∀ p ∈ s.lists .pendingtasks, (s.lists .readytorun).head? ≠ some p :=
      fun p hp he => hdisj p hp (List.mem_of_mem_head? he)
    simpa [schedMergepending] using mergeLoop_ret _ hhead (by simp)
  · rw [hlist]
    exact getLast?_foldl_addPrioritized _ hidle hlast

theorem sched_mergepending_eq_addprioritized_two :
    let s : SchedState (Fin 4) :=
      { sched_priority := fun t => 4 * t.val, task_state := fun _ => .taskReadytorun, lockcount := fun _ => 0,
        lists := fun L => if L = .readytorun then [2,0] else if L = .pendingtasks then [3,1] else [],
        stamp := fun _ => 0, clock := 0 }
    (schedMergepending s).1.lists .readytorun = [3,2,1,0] ∧
    (schedMergepending s).1.lists .readytorun =
      ((s.lists .pendingtasks).foldl (fun s p => (schedAddprioritized s p .readytorun).1) s).lists .readytorun ∧
    (schedMergepending s).1.lists .pendingtasks = [] ∧
    ((schedMergepending s).2 = true ↔
      ((schedMergepending s).1.lists .readytorun).head? ≠ (s.lists .readytorun).head?) ∧
    ((schedMergepending s).1.lists .readytorun).getLast? = some 0 := by
  intro s
  exact ⟨by decide,sched_mergepending_eq_addprioritized (show (s.lists .readytorun).getLast? = some 0 by decide)
    (by decide) (by decide) (by decide)⟩

end TizenRT.Sched
