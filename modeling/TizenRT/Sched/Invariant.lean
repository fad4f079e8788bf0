import Mathlib.Order.OrderDual
import TizenRT.Lib.StableInsert
import TizenRT.Sched.Model

set_option autoImplicit false

/-!
The invariant of the task lists. `ListInv` says that every task sits exactly in the list of
its state, each list once, and that every prioritized list runs from high to low priority,
first come first served among equals; `ReadyInv` adds that the head of g_readytorun is the
one running task and the idle task its tail; `Inv` adds that tasks wait in g_pendingtasks
only while the running task holds the preemption lock.
-/

namespace TizenRT.Sched

open StableInsert

variable {T : Type}

def TList.prioritized : TList → Bool
  | .inactivetasks | .waitingforsignal => false
  | _ => true

theorem gTasklisttable_prioritized {st : TState} {L : TList}
    (h : (gTasklisttable st).list = some L) :
    (gTasklisttable st).prioritized = L.prioritized := by
  cases st <;> simp [gTasklisttable] at h ⊢ <;> subst h <;> rfl

def prioKey (prio : T → Nat) (t : T) : ℕᵒᵈ := OrderDual.toDual (prio t)

theorem addPrioritized_eq (prio : T → Nat) (tcb : T) (l : List T) :
    addPrioritized prio tcb l = insertByKey (prioKey prio) tcb l := by
  induction l with
  | nil => rfl
  | cons next rest ih =>
    by_cases h : prio tcb ≤ prio next
    · have hk : prioKey prio next ≤ prioKey prio tcb := OrderDual.toDual_le_toDual.mpr h
      rw [insertByKey_cons_of_le _ hk,← ih]
      simp [addPrioritized,h]
    · have hk : prioKey prio tcb < prioKey prio next :=
        OrderDual.toDual_lt_toDual.mpr (not_le.mp h)
      rw [insertByKey_cons_of_lt _ hk]
      simp [addPrioritized,h]

variable (idle : T)

structure ListInv (s : SchedState T) : Prop where
  mem_iff : ∀ t L, t ∈ s.lists L ↔ (gTasklisttable (s.task_state t)).list = some L
  nodup : ∀ L, (s.lists L).Nodup
  fifo : ∀ L, L.prioritized → FifoSorted (prioKey s.sched_priority) s.stamp (s.lists L)
  stamp_lt : ∀ t, s.stamp t < s.clock
  prio_idle : s.sched_priority idle = 0
  prio_pos : ∀ t, t ≠ idle → 0 < s.sched_priority t

variable {idle}

theorem ListInv.not_mem_of_invalid {s : SchedState T} (h : ListInv idle s) {t : T}
    (ht : s.task_state t = .taskInvalid) (L : TList) : t ∉ s.lists L := by
  rw [h.mem_iff,ht]
  simp [gTasklisttable]

theorem ListInv.list_eq {s : SchedState T} (h : ListInv idle s) {t : T} {L L' : TList}
    (hL : t ∈ s.lists L) (hL' : t ∈ s.lists L') : L = L' :=
  Option.some.inj (((h.mem_iff t L).mp hL).symm.trans ((h.mem_iff t L').mp hL'))

theorem TState.blocked_list {st : TState} (h : st.blocked) :
    ∃ L, (gTasklisttable st).list = some L ∧ L ≠ .readytorun ∧ L ≠ .pendingtasks := by
  cases st <;> simp [TState.blocked] at h <;> exact ⟨_,rfl,by decide,by decide⟩

variable (idle) in
structure ReadyInv (s : SchedState T) : Prop extends ListInv idle s where
  running_iff : ∀ t, s.task_state t = .taskRunning ↔ (s.lists .readytorun).head? = some t
  idle_last : (s.lists .readytorun).getLast? = some idle

namespace ReadyInv

variable {s : SchedState T} (h : ReadyInv idle s)
include h

theorem idle_mem : idle ∈ s.lists .readytorun := List.mem_of_getLast? h.idle_last

theorem mem_ready_iff (t : T) : t ∈ s.lists .readytorun ↔
    s.task_state t = .taskReadytorun ∨ s.task_state t = .taskRunning := by
  rw [h.mem_iff]
  cases s.task_state t <;> simp [gTasklisttable]

end ReadyInv

variable [DecidableEq T]

namespace ListInv

variable {s : SchedState T} (h : ListInv idle s)
include h

theorem detach {t : T} {L : TList} (hL : (gTasklisttable (s.task_state t)).list = some L) :
    ListInv idle ((dqRem s t L).setState t .taskInvalid) := by
  refine ⟨fun u L' => ?_,fun L' => ?_,fun L' hL' => ?_,h.stamp_lt,h.prio_idle,h.prio_pos⟩
  · by_cases hu : u = t
    · subst hu
      have hnot : u ∉ (Function.update s.lists L ((s.lists L).erase u)) L' := by
        by_cases hL'L : L' = L
        · subst hL'L
          simpa using (h.nodup L').not_mem_erase
        · rw [Function.update_of_ne hL'L,h.mem_iff,hL]
          simpa using Ne.symm hL'L
      simp only [dqRem,SchedState.setState_lists,SchedState.setList_lists,
        SchedState.setState_task_state,Function.update_self]
      simpa [gTasklisttable] using hnot
    · simp only [dqRem,SchedState.setState_lists,SchedState.setList_lists,
        SchedState.setState_task_state,Function.update_of_ne hu]
      by_cases hL'L : L' = L
      · subst hL'L
        simp [List.mem_erase_of_ne hu,h.mem_iff]
      · simp [Function.update_of_ne hL'L,h.mem_iff]
  · by_cases hL'L : L' = L
    · subst hL'L
      simpa [dqRem] using (h.nodup L').erase t
    · simpa [dqRem,Function.update_of_ne hL'L] using h.nodup L'
  · by_cases hL'L : L' = L
    · subst hL'L
      simpa [dqRem] using (h.fifo L' hL').sublist List.erase_sublist
    · simpa [dqRem,Function.update_of_ne hL'L] using h.fifo L' hL'

theorem enter {t : T} (ht : ∀ L, t ∉ s.lists L) {st : TState} {L : TList}
    (hL : (gTasklisttable st).list = some L) {l' : List T}
    (hmem : ∀ u, u ∈ l' ↔ u = t ∨ u ∈ s.lists L) (hnd : l'.Nodup)
    (hfifo : L.prioritized →
      FifoSorted (prioKey s.sched_priority) (Function.update s.stamp t s.clock) l') :
    ListInv idle (((s.restamp t).setList L l').setState t st) := by
  refine ⟨fun u L' => ?_,fun L' => ?_,fun L' hL' => ?_,fun u => ?_,h.prio_idle,h.prio_pos⟩
  · simp only [SchedState.setState_lists,SchedState.setList_lists,SchedState.restamp_lists,
      SchedState.setState_task_state,SchedState.setList_task_state,SchedState.restamp_task_state]
    by_cases hu : u = t
    · subst hu
      by_cases hL'L : L' = L
      · subst hL'L
        simp [hmem,hL]
      · simp [Function.update_of_ne hL'L,ht L',hL,Ne.symm hL'L]
    · rw [Function.update_of_ne hu,← h.mem_iff]
      by_cases hL'L : L' = L
      · subst hL'L
        simp [hmem,hu]
      · simp [Function.update_of_ne hL'L]
  · by_cases hL'L : L' = L
    · subst hL'L
      simpa using hnd
    · simpa [Function.update_of_ne hL'L] using h.nodup L'
  · by_cases hL'L : L' = L
    · subst hL'L
      simpa using hfifo hL'
    · simpa [Function.update_of_ne hL'L] using (fifoSorted_congr fun a ha =>
        ⟨rfl,Function.update_of_ne (by rintro rfl; exact ht L' ha) _ _⟩).mpr (h.fifo L' hL')
  · have := h.stamp_lt u
    simp only [SchedState.setState_stamp,SchedState.setList_stamp,SchedState.restamp_stamp,
      SchedState.setState_clock,SchedState.setList_clock,SchedState.restamp_clock,
      Function.update_apply]
    split_ifs <;> omega

theorem attach {t : T} (ht : ∀ L, t ∉ s.lists L) {st : TState} {L : TList}
    (hL : (gTasklisttable st).list = some L) :
    ListInv idle ((schedAddprioritized s t L).1.setState t st) := by
  have hins : addPrioritized s.sched_priority t (s.lists L) =
      insertByKey (prioKey s.sched_priority) t (s.lists L) := addPrioritized_eq _ _ _
  refine h.enter ht hL (fun u => by simp [hins])
    (by rw [hins]; exact (insertByKey_perm t _).nodup_iff.mpr (List.nodup_cons.mpr ⟨ht L,h.nodup L⟩))
    (fun hp => ?_)
  rw [hins]
  apply fifoSorted_insertByKey ((fifoSorted_congr fun a ha =>
    ⟨rfl,Function.update_of_ne (by rintro rfl; exact ht L ha) _ _⟩).mpr (h.fifo L hp))
  intro a ha
  rw [Function.update_self,Function.update_of_ne (by rintro rfl; exact ht L ha)]
  exact h.stamp_lt a

theorem attachLast {t : T} (ht : ∀ L, t ∉ s.lists L) {st : TState} {L : TList}
    (hL : (gTasklisttable st).list = some L) (hp : L.prioritized = false) :
    ListInv idle ((dqAddlast s t L).setState t st) :=
  h.enter ht hL (fun u => by simp [or_comm])
    (List.nodup_append.mpr ⟨h.nodup L,List.nodup_singleton t,by
      intro a ha b hb
      rw [List.mem_singleton] at hb
      rintro rfl
      exact ht L (hb ▸ ha)⟩)
    (fun hp' => absurd hp' (by simp [hp]))

theorem setPriority_of_fifo {t : T} (hidle : t ≠ idle) {p : Nat} (hp : 0 < p)
    (hfifo : ∀ L, L.prioritized →
      FifoSorted (prioKey (Function.update s.sched_priority t p)) s.stamp (s.lists L)) :
    ListInv idle (s.setPriority t p) := by
  refine ⟨h.mem_iff,h.nodup,hfifo,h.stamp_lt,?_,fun u hu => ?_⟩
  · simp [Function.update_of_ne (Ne.symm hidle),h.prio_idle]
  · by_cases hut : u = t
    · subst hut
      simp [hp]
    · simp [Function.update_of_ne hut,h.prio_pos u hu]

theorem setPriority {t : T} (ht : ∀ L, L.prioritized → t ∉ s.lists L) (hidle : t ≠ idle) {p : Nat}
    (hp : 0 < p) : ListInv idle (s.setPriority t p) :=
  h.setPriority_of_fifo hidle hp fun L hL => (fifoSorted_congr fun a ha =>
    ⟨by simp [prioKey,Function.update_of_ne (show a ≠ t by rintro rfl; exact ht L hL ha)],rfl⟩).mpr
      (h.fifo L hL)

theorem setState_of_list_eq {t : T} {st : TState}
    (hst : (gTasklisttable st).list = (gTasklisttable (s.task_state t)).list) :
    ListInv idle (s.setState t st) := by
  refine ⟨fun u L => ?_,h.nodup,h.fifo,h.stamp_lt,h.prio_idle,h.prio_pos⟩
  by_cases hut : u = t
  · subst hut
    simp [hst,h.mem_iff]
  · simp [Function.update_of_ne hut,h.mem_iff]

theorem setLockcount (t : T) (n : Nat) : ListInv idle (s.setLockcount t n) :=
  ⟨h.mem_iff,h.nodup,h.fifo,h.stamp_lt,h.prio_idle,h.prio_pos⟩

end ListInv

theorem getLast?_erase_of_ne {l : List T} {a y : T} (hl : l.getLast? = some y) (ha : a ≠ y) :
    (l.erase a).getLast? = some y := by
  induction l with
  | nil => simp at hl
  | cons b l ih =>
    cases l with
    | nil =>
      obtain rfl : b = y := by simpa using hl
      simp [Ne.symm ha]
    | cons c l =>
      rw [List.getLast?_cons_cons] at hl
      by_cases hb : b = a
      · subst hb
        simpa using hl
      · have hm := ih hl
        rw [List.erase_cons_tail (by simpa using hb)]
        cases hm' : (c :: l).erase a with
        | nil => rw [hm'] at hm; simp at hm
        | cons d m => rw [hm'] at hm; rw [List.getLast?_cons_cons]; exact hm


namespace ReadyInv

variable {s : SchedState T} (h : ReadyInv idle s)
include h

theorem running_iff_of_frame {s' : SchedState T}
    (hready : s'.lists .readytorun = s.lists .readytorun) {t : T}
    (ht : t ∉ s.lists .readytorun) (hst : s'.task_state t ≠ .taskRunning)
    (hother : ∀ u, u ≠ t → s'.task_state u = s.task_state u) (u : T) :
    s'.task_state u = .taskRunning ↔ (s'.lists .readytorun).head? = some u := by
  rw [hready]
  by_cases hut : u = t
  · subst hut
    exact ⟨fun e => absurd e hst,fun e => absurd (List.mem_of_mem_head? e) ht⟩
  · rw [hother u hut]
    exact h.running_iff u

theorem removereadytorun {tcb : T} (hmem : tcb ∈ s.lists .readytorun) (hidle : tcb ≠ idle) :
    ReadyInv idle (schedRemovereadytorun s tcb).1 := by
  obtain ⟨r,rest,hready⟩ := List.exists_cons_of_ne_nil (List.ne_nil_of_mem hmem)
  have hstate : (gTasklisttable (s.task_state tcb)).list = some .readytorun :=
    (h.mem_iff tcb _).mp hmem
  have hnd := h.nodup .readytorun
  rw [hready] at hnd
  by_cases hr : r = tcb
  · subst hr
    obtain ⟨ntcb,rest',hrest⟩ : ∃ n rest', rest = n :: rest' := by
      have hi := h.idle_mem
      rw [hready,List.mem_cons] at hi
      exact List.exists_cons_of_ne_nil (List.ne_nil_of_mem (hi.resolve_left (Ne.symm hidle)))
    subst hrest
    have hn : ntcb ≠ r := fun e => (List.nodup_cons.mp hnd).1 (e ▸ List.mem_cons_self)
    have hnmem : ntcb ∈ s.lists .readytorun := by rw [hready]; simp
    have h1 := h.toListInv.setState_of_list_eq (t := ntcb)
      (show (gTasklisttable .taskRunning).list = _ by rw [(h.mem_iff ntcb _).mp hnmem]; rfl)
    have h2 := h1.detach (t := r) (L := .readytorun)
      (by simpa [Function.update_of_ne hn.symm] using hstate)
    simp only [schedRemovereadytorun,hready,if_true]
    refine ⟨h2,fun u => ?_,?_⟩
    · simp only [dqRem,SchedState.setState_task_state,SchedState.setState_lists,
        SchedState.setList_lists,Function.update_self,hready,List.erase_cons_head,
        List.head?_cons,Option.some.injEq]
      by_cases hur : u = r
      · subst hur
        simp [hn]
      · by_cases hun : u = ntcb
        · subst hun
          simp [hur]
        · have := h.running_iff u
          rw [hready] at this
          simp [Function.update_of_ne hur,Function.update_of_ne hun,this,Ne.symm hur,Ne.symm hun]
    · have hl := h.idle_last
      rw [hready,List.getLast?_cons_cons] at hl
      simpa [dqRem,hready] using hl
  · have h2 := h.toListInv.detach hstate
    simp only [schedRemovereadytorun,hready,hr,if_false]
    refine ⟨h2,fun u => ?_,?_⟩
    · simp only [dqRem,SchedState.setState_task_state,SchedState.setState_lists,
        SchedState.setList_lists,SchedState.setList_task_state,Function.update_self,hready,
        List.erase_cons_tail (show ¬ (r == tcb) = true by simpa using hr),List.head?_cons]
      by_cases hut : u = tcb
      · subst hut
        simp [hr]
      · rw [Function.update_of_ne hut,h.running_iff,hready]
        rfl
    · simpa [dqRem] using getLast?_erase_of_ne h.idle_last hidle

theorem addreadytorun {btcb : T} (hout : ∀ L, btcb ∉ s.lists L) (hidle : btcb ≠ idle) :
    ReadyInv idle (schedAddreadytorun s btcb).1 := by
  obtain ⟨rtcb,rest,hready⟩ := List.exists_cons_of_ne_nil (List.ne_nil_of_mem h.idle_mem)
  have hrb : rtcb ≠ btcb := fun e => hout .readytorun (by rw [hready,e]; simp)
  have hrun : s.task_state rtcb = .taskRunning := (h.running_iff rtcb).mpr (by simp [hready])
  have hlast : (addPrioritized s.sched_priority btcb (s.lists .readytorun)).getLast? = some idle := by
    rw [addPrioritized_eq]
    exact getLast?_insertByKey h.idle_last
      (OrderDual.toDual_lt_toDual.mpr (by rw [h.prio_idle]; exact h.prio_pos btcb hidle))
  unfold schedAddreadytorun
  rw [hready]
  dsimp only
  split_ifs with hlock hhead
  · refine ⟨h.toListInv.attach hout (show (gTasklisttable .taskPending).list = _ from rfl),fun u => ?_,?_⟩
    · by_cases hub : u = btcb
      · subst hub
        simp [schedAddprioritized,hready,hrb]
      · simp [schedAddprioritized,Function.update_of_ne hub,h.running_iff,hready]
    · simpa [schedAddprioritized] using h.idle_last
  · have hlt : s.sched_priority rtcb < s.sched_priority btcb := by
      simpa [schedAddprioritized,hready] using hhead
    have hnew : addPrioritized s.sched_priority btcb (s.lists .readytorun) = btcb :: rtcb :: rest := by
      simp [hready,addPrioritized,not_le.mpr hlt]
    have h1 := h.toListInv.attach hout
      (show (gTasklisttable .taskRunning).list = some .readytorun from rfl)
    have h2 := h1.setState_of_list_eq (t := rtcb)
      (show (gTasklisttable .taskReadytorun).list = _ by simp [schedAddprioritized,Function.update_of_ne hrb,hrun,gTasklisttable])
    refine ⟨h2,fun u => ?_,?_⟩
    · simp only [schedAddprioritized,SchedState.setState_task_state,SchedState.setState_lists,
        SchedState.setList_lists,SchedState.setList_task_state,SchedState.restamp_task_state,
        SchedState.restamp_lists,Function.update_self,hnew,List.head?_cons,Option.some.injEq]
      by_cases hur : u = rtcb
      · subst hur
        simp [Ne.symm hrb]
      · by_cases hub : u = btcb
        · subst hub
          simp [hur]
        · have := h.running_iff u
          rw [hready] at this
          simp [Function.update_of_ne hur,Function.update_of_ne hub,this,Ne.symm hur,Ne.symm hub]
    · simpa [schedAddprioritized] using hlast
  · have hle : s.sched_priority btcb ≤ s.sched_priority rtcb := by
      simpa [schedAddprioritized,hready] using hhead
    have hnew : addPrioritized s.sched_priority btcb (s.lists .readytorun) =
        rtcb :: addPrioritized s.sched_priority btcb rest := by
      simp [hready,addPrioritized,hle]
    refine ⟨h.toListInv.attach hout (show (gTasklisttable .taskReadytorun).list = _ from rfl),fun u => ?_,?_⟩
    · simp only [schedAddprioritized,SchedState.setState_task_state,SchedState.setState_lists,
        SchedState.setList_lists,SchedState.setList_task_state,SchedState.restamp_task_state,
        SchedState.restamp_lists,Function.update_self,hnew,List.head?_cons,Option.some.injEq]
      by_cases hub : u = btcb
      · subst hub
        simp [hrb]
      · rw [Function.update_of_ne hub,h.running_iff,hready]
        simp
    · simpa [schedAddprioritized] using hlast

theorem removeblocked {btcb : T} (hb : (s.task_state btcb).blocked) :
    ReadyInv idle (schedRemoveblocked s btcb) := by
  obtain ⟨L,hL,hLr,-⟩ := TState.blocked_list hb
  have hnot : btcb ∉ s.lists .readytorun := by
    rw [h.mem_iff,hL]
    simpa using hLr
  have hready : (schedRemoveblocked s btcb).lists .readytorun = s.lists .readytorun := by
    simp [schedRemoveblocked,hL,dqRem,Function.update_of_ne (Ne.symm hLr)]
  simp only [schedRemoveblocked,hL] at hready ⊢
  refine ⟨h.toListInv.detach hL,h.running_iff_of_frame hready hnot (by simp) (fun u hu => ?_),?_⟩
  · simp [dqRem,Function.update_of_ne hu]
  · rw [hready]
    exact h.idle_last

theorem addblocked {btcb : T} (hout : ∀ L, btcb ∉ s.lists L) {task_state : TState}
    (hb : task_state.blocked) : ReadyInv idle (schedAddblocked s btcb task_state) := by
  obtain ⟨L,hL,hLr,-⟩ := TState.blocked_list hb
  have hli : ListInv idle (schedAddblocked s btcb task_state) := by
    simp only [schedAddblocked,hL]
    split_ifs with hp
    · exact h.toListInv.attach hout hL
    · exact h.toListInv.attachLast hout hL (by simpa [gTasklisttable_prioritized hL] using hp)
  have hready : (schedAddblocked s btcb task_state).lists .readytorun = s.lists .readytorun := by
    simp only [schedAddblocked,hL]
    split_ifs <;> simp [schedAddprioritized,dqAddlast,Function.update_of_ne (Ne.symm hLr)]
  have hstate : ∀ u, (schedAddblocked s btcb task_state).task_state u =
      Function.update s.task_state btcb task_state u := by
    intro u
    simp only [schedAddblocked,hL]
    split_ifs <;> simp [schedAddprioritized,dqAddlast]
  refine ⟨hli,h.running_iff_of_frame hready (hout _) ?_ (fun u hu => ?_),?_⟩
  · rw [hstate,Function.update_self]
    rintro rfl
    simp [TState.blocked] at hb
  · rw [hstate,Function.update_of_ne hu]
  · rw [hready]
    exact h.idle_last

end ReadyInv

end TizenRT.Sched
