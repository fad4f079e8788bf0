import TizenRT.Sched.Merge

set_option autoImplicit false

/-!
The scheduler over whole runs. From the state os_start leaves, task setup, `up_block_task`,
`up_unblock_task`, `sched_setpriority`, `up_reprioritize_rtr`, `sched_lock`, `sched_unlock`
and `sched_mergepending` keep every task in the list its state names, the prioritized lists in
priority and arrival order, the running task at the head of g_readytorun with the idle task
at its tail, and g_pendingtasks empty unless the running task holds the preemption lock.

Each call is taken with the assertions of the code it enters: the task blocked is ready to
run and not the idle task, the task unblocked is blocked, the new TCB is not in use, and the
idle task keeps priority 0 (the os_start comments warn that raising it is undesirable).
-/

namespace TizenRT.Sched

open StableInsert

variable {T : Type}

def PendingLocked (s : SchedState T) : Prop :=
  s.lists .pendingtasks ≠ [] → ∀ r ∈ (s.lists .readytorun).head?, s.lockcount r ≠ 0

namespace PendingLocked

variable {s s' : SchedState T}

theorem of_nil (h : s.lists .pendingtasks = []) : PendingLocked s :=
  fun hne => absurd h hne

theorem of_frame (h : PendingLocked s)
    (hp : s'.lists .pendingtasks ≠ [] → s.lists .pendingtasks ≠ [])
    (hhead : (s'.lists .readytorun).head? = (s.lists .readytorun).head?)
    (hlock : s'.lockcount = s.lockcount) : PendingLocked s' := by
  intro hne r hr
  rw [hlock]
  exact h (hp hne) r (hhead ▸ hr)

end PendingLocked

variable (idle : T) in
structure Inv (s : SchedState T) : Prop extends ReadyInv idle s where
  pending_locked : PendingLocked s

theorem fifoSorted_prioKey_iff {prio : T → Nat} {stamp : T → Nat} {l : List T} :
    FifoSorted (prioKey prio) stamp l ↔
      l.Pairwise fun a b => prio b < prio a ∨ prio a = prio b ∧ stamp a < stamp b := by
  simp [FifoSorted,prioKey]

theorem head?_erase_of_ne {l : List T} [DecidableEq T] {a : T} (h : l.head? ≠ some a) :
    (l.erase a).head? = l.head? := by
  cases l with
  | nil => rfl
  | cons b l =>
    have hb : b ≠ a := fun e => h (by rw [e]; rfl)
    rw [List.erase_cons_tail (by simpa using hb)]
    rfl

variable {idle : T}

namespace ReadyInv

variable {s : SchedState T} (h : ReadyInv idle s)
include h

theorem ne_idle_of_blocked {t : T} (hb : (s.task_state t).blocked) : t ≠ idle := by
  rintro rfl
  rcases (h.mem_ready_iff _).mp h.idle_mem with e | e <;> simp [e,TState.blocked] at hb

theorem ne_idle_of_invalid {t : T} (hinv : s.task_state t = .taskInvalid) : t ≠ idle := by
  rintro rfl
  exact h.toListInv.not_mem_of_invalid hinv _ h.idle_mem

end ReadyInv

variable [DecidableEq T]

section Frame

/-! What each helper leaves alone: lock counts always, and the lists other than its own. -/

variable (s : SchedState T) (tcb : T)

@[simp] theorem schedRemovereadytorun_lockcount :
    (schedRemovereadytorun s tcb).1.lockcount = s.lockcount := by
  unfold schedRemovereadytorun
  split
  · split_ifs
    · split <;> rfl
    · rfl
  · rfl

@[simp] theorem schedRemovereadytorun_lists :
    (schedRemovereadytorun s tcb).1.lists =
      Function.update s.lists .readytorun ((s.lists .readytorun).erase tcb) := by
  unfold schedRemovereadytorun
  split
  · split_ifs
    · split <;> simp_all [dqRem]
    · simp_all [dqRem]
  · simp_all [dqRem]

@[simp] theorem schedRemovereadytorun_sched_priority :
    (schedRemovereadytorun s tcb).1.sched_priority = s.sched_priority := by
  unfold schedRemovereadytorun
  split
  · split_ifs
    · split <;> rfl
    · rfl
  · rfl

@[simp] theorem schedRemovereadytorun_task_state_self :
    (schedRemovereadytorun s tcb).1.task_state tcb = .taskInvalid := by
  simp [schedRemovereadytorun]

theorem schedRemovereadytorun_snd :
    (schedRemovereadytorun s tcb).2 = decide ((s.lists .readytorun).head? = some tcb) := by
  unfold schedRemovereadytorun
  split
  · rename_i r rest hready
    split_ifs with hr <;> simp [hready,hr]
  · rename_i hready
    simp [hready]

@[simp] theorem schedAddreadytorun_lockcount :
    (schedAddreadytorun s tcb).1.lockcount = s.lockcount := by
  unfold schedAddreadytorun
  split
  · split_ifs
    · rfl
    · dsimp only
      split <;> rfl
  · rfl

@[simp] theorem schedRemoveblocked_lockcount : (schedRemoveblocked s tcb).lockcount = s.lockcount := by
  unfold schedRemoveblocked
  split <;> rfl

theorem schedRemoveblocked_lists {L : TList}
    (hL : (gTasklisttable (s.task_state tcb)).list = some L) (L' : TList) (hL' : L' ≠ L) :
    (schedRemoveblocked s tcb).lists L' = s.lists L' := by
  simp [schedRemoveblocked,hL,dqRem,Function.update_of_ne hL']

@[simp] theorem schedRemoveblocked_task_state_self :
    (schedRemoveblocked s tcb).task_state tcb = .taskInvalid := by
  unfold schedRemoveblocked
  split <;> simp

end Frame

theorem PendingLocked.addreadytorun {s : SchedState T} (h : PendingLocked s)
    (hne : s.lists .readytorun ≠ []) (btcb : T) : PendingLocked (schedAddreadytorun s btcb).1 := by
  obtain ⟨rtcb,rest,hready⟩ := List.exists_cons_of_ne_nil hne
  unfold schedAddreadytorun
  rw [hready]
  dsimp only
  split_ifs with hlock hhead
  · intro _ r hr
    simp only [SchedState.setState_lists,schedAddprioritized,SchedState.setList_lists,
      SchedState.restamp_lists,ne_eq,reduceCtorEq,not_false_eq_true,Function.update_of_ne,
      hready,List.head?_cons,Option.mem_def,Option.some.injEq] at hr
    subst hr
    simpa [schedAddprioritized] using hlock.1
  · have hlt : s.sched_priority rtcb < s.sched_priority btcb := by
      simpa [schedAddprioritized,hready] using hhead
    have hnil : s.lists .pendingtasks = [] := by
      by_contra hp
      exact hlock ⟨h hp rtcb (by simp [hready]),hlt⟩
    exact PendingLocked.of_nil (by simpa [schedAddprioritized] using hnil)
  · have hle : s.sched_priority btcb ≤ s.sched_priority rtcb := by
      simpa [schedAddprioritized,hready] using hhead
    refine h.of_frame (by simp [schedAddprioritized]) ?_ (by simp [schedAddprioritized])
    simp [schedAddprioritized,hready,addPrioritized,hle]

theorem schedAddreadytorun_of_snd {s : SchedState T} {btcb : T}
    (hne : s.lists .readytorun ≠ []) (h2 : (schedAddreadytorun s btcb).2 = true) :
    ((schedAddreadytorun s btcb).1.lists .readytorun).head? = some btcb ∧
      (schedAddreadytorun s btcb).1.lists .pendingtasks = s.lists .pendingtasks := by
  obtain ⟨rtcb,rest,hready⟩ := List.exists_cons_of_ne_nil hne
  unfold schedAddreadytorun at h2 ⊢
  rw [hready] at h2 ⊢
  dsimp only at h2 ⊢
  split_ifs at h2 ⊢ with hlock hhead
  · have hlt : s.sched_priority rtcb < s.sched_priority btcb := by
      simpa [schedAddprioritized,hready] using hhead
    simp [schedAddprioritized,hready,addPrioritized,not_le.mpr hlt]

namespace ReadyInv

variable {s : SchedState T} (h : ReadyInv idle s)
include h

theorem setPriority {t : T} (ht : ∀ L, L.prioritized → t ∉ s.lists L) (hidle : t ≠ idle)
    {p : Nat} (hp : 0 < p) : ReadyInv idle (s.setPriority t p) :=
  ⟨h.toListInv.setPriority ht hidle hp,h.running_iff,h.idle_last⟩

theorem setPriority_head {t : T} {rest : List T} (hready : s.lists .readytorun = t :: rest)
    {p : Nat} (hlt : ∀ b ∈ rest, s.sched_priority b < p) (hidle : t ≠ idle) (hp : 0 < p) :
    ReadyInv idle (s.setPriority t p) := by
  have hnd := h.nodup .readytorun
  rw [hready] at hnd
  have ht : t ∉ rest := (List.nodup_cons.mp hnd).1
  have hsame : ∀ L, ∀ a ∈ s.lists L, a ≠ t →
      prioKey (Function.update s.sched_priority t p) a = prioKey s.sched_priority a ∧
        s.stamp a = s.stamp a :=
    fun L a _ hat => ⟨by simp [prioKey,Function.update_of_ne hat],rfl⟩
  refine ⟨h.toListInv.setPriority_of_fifo hidle hp fun L hL => ?_,h.running_iff,h.idle_last⟩
  by_cases hLr : L = .readytorun
  · subst hLr
    have hf := h.fifo .readytorun rfl
    rw [hready] at hf ⊢
    refine List.pairwise_cons.mpr ⟨fun b hb => Or.inl ?_,?_⟩
    · have hbt : b ≠ t := fun e => ht (e ▸ hb)
      simpa [prioKey,Function.update_of_ne hbt] using hlt b hb
    · refine (fifoSorted_congr fun a ha => hsame .readytorun a ?_ ?_).mpr (List.pairwise_cons.mp hf).2
      · rw [hready]
        exact List.mem_cons_of_mem _ ha
      · rintro rfl
        exact ht ha
  · have htL : t ∉ s.lists L := fun htL =>
      hLr (h.toListInv.list_eq htL (by rw [hready]; exact List.mem_cons_self))
    exact (fifoSorted_congr fun a ha => hsame L a ha (by rintro rfl; exact htL ha)).mpr
      (h.fifo L hL)

theorem resort {t : T} {L : TList} (hL : (gTasklisttable (s.task_state t)).list = some L)
    (hLr : L ≠ .readytorun) (hidle : t ≠ idle) {p : Nat} (hp : 0 < p) :
    ReadyInv idle (schedAddprioritized ((dqRem s t L).setPriority t p) t L).1 := by
  have h1 := h.toListInv.detach hL
  have h2 := h1.setPriority (fun L' _ => h1.not_mem_of_invalid (by simp) L') hidle hp
  have h3 := h2.attach (t := t) (fun L' => h2.not_mem_of_invalid (by simp) L') hL
  have heq : (schedAddprioritized ((((dqRem s t L).setState t .taskInvalid).setPriority t p)) t
      L).1.setState t (s.task_state t) = (schedAddprioritized ((dqRem s t L).setPriority t p) t L).1 := by
    ext <;> simp [schedAddprioritized,dqRem]
  rw [heq] at h3
  have hnot : t ∉ s.lists .readytorun := by
    rw [h.mem_iff,hL]
    simpa using hLr
  have hready : (schedAddprioritized ((dqRem s t L).setPriority t p) t L).1.lists .readytorun =
      s.lists .readytorun := by
    simp [schedAddprioritized,dqRem,Function.update_of_ne (Ne.symm hLr)]
  refine ⟨h3,h.running_iff_of_frame hready hnot ?_ (fun u _ => by simp [schedAddprioritized,dqRem]),
    ?_⟩
  · simp only [schedAddprioritized,dqRem,SchedState.setList_task_state,SchedState.restamp_task_state,
      SchedState.setPriority_task_state]
    intro e
    exact hnot ((h.mem_ready_iff t).mpr (Or.inr e))
  · rw [hready]
    exact h.idle_last

theorem readd {tcb : T} (hmem : tcb ∈ s.lists .readytorun) (hidle : tcb ≠ idle) {p : Nat}
    (hp : 0 < p) :
    ReadyInv idle (schedAddreadytorun ((schedRemovereadytorun s tcb).1.setPriority tcb p) tcb).1 := by
  have h1 := h.removereadytorun hmem hidle
  have h2 := h1.setPriority (fun L _ => h1.toListInv.not_mem_of_invalid (t := tcb) (by simp) L)
    hidle hp
  exact h2.addreadytorun (fun L => h2.toListInv.not_mem_of_invalid (t := tcb) (by simp) L) hidle

theorem setLockcount (t : T) (n : Nat) : ReadyInv idle (s.setLockcount t n) :=
  ⟨h.toListInv.setLockcount t n,h.running_iff,h.idle_last⟩

theorem setup {tcb : T} (hinv : s.task_state tcb = .taskInvalid) {p : Nat} (hp : 0 < p) :
    ReadyInv idle ((dqAddfirst ((s.setPriority tcb p).setState tcb .taskInvalid) tcb
      .inactivetasks).setState tcb .taskInactive) := by
  have hidle := h.ne_idle_of_invalid hinv
  have hout := h.toListInv.not_mem_of_invalid hinv
  have h1 := (h.toListInv.setPriority (fun L _ => hout L) hidle hp).setState_of_list_eq
    (t := tcb) (show (gTasklisttable .taskInvalid).list = _ by simp [hinv])
  have h2 := h1.enter (t := tcb) hout (show (gTasklisttable .taskInactive).list = _ from rfl)
    (show ∀ u, u ∈ tcb :: s.lists .inactivetasks ↔ u = tcb ∨ u ∈ s.lists .inactivetasks by simp)
    (List.nodup_cons.mpr ⟨hout _,h.nodup _⟩)
    (fun hp' => absurd hp' (by decide))
  refine ⟨h2,h.running_iff_of_frame (by simp [dqAddfirst]) (hout _) (by simp)
    (fun u hu => by simp [dqAddfirst,Function.update_of_ne hu]),by simpa [dqAddfirst] using h.idle_last⟩

end ReadyInv

namespace Inv

variable {s : SchedState T} (h : Inv idle s)
include h

theorem threadSchedsetup {tcb : T} (hinv : s.task_state tcb = .taskInvalid) (priority : Int) :
    Inv idle (threadSchedsetup s tcb priority).2 := by
  unfold TizenRT.Sched.threadSchedsetup
  split_ifs with hrange
  · exact h
  · have hp : 0 < priority.toNat := by simp [SCHED_PRIORITY_MIN] at hrange; omega
    refine ⟨h.toReadyInv.setup hinv hp,h.pending_locked.of_frame ?_ ?_ rfl⟩ <;>
      simp [dqAddfirst]

theorem upBlockTask {tcb : T} (hmem : tcb ∈ s.lists .readytorun) (hidle : tcb ≠ idle)
    {task_state : TState} (hb : task_state.blocked) : Inv idle (upBlockTask s tcb task_state) := by
  have h1 := h.toReadyInv.removereadytorun hmem hidle
  have h2 := h1.addblocked (fun L => h1.toListInv.not_mem_of_invalid (t := tcb) (by simp) L) hb
  unfold TizenRT.Sched.upBlockTask
  dsimp only
  split_ifs with hp
  · exact ⟨h2.mergepending,PendingLocked.of_nil (schedMergepending_pendingtasks _)⟩
  · exact ⟨h2,PendingLocked.of_nil (not_not.mp hp)⟩

theorem upUnblockTask {tcb : T} (hb : (s.task_state tcb).blocked) :
    Inv idle (upUnblockTask s tcb) := by
  obtain ⟨L,hL,hLr,hLp⟩ := TState.blocked_list hb
  have hidle := h.ne_idle_of_blocked hb
  have h1 := h.toReadyInv.removeblocked hb
  refine ⟨h1.addreadytorun (fun L' => h1.toListInv.not_mem_of_invalid (t := tcb) (by simp) L') hidle,
    PendingLocked.addreadytorun ?_ (List.ne_nil_of_mem h1.idle_mem) tcb⟩
  refine h.pending_locked.of_frame ?_ ?_ (schedRemoveblocked_lockcount s tcb)
  · rw [schedRemoveblocked_lists s tcb hL _ (Ne.symm hLp)]
    exact id
  · rw [schedRemoveblocked_lists s tcb hL _ (Ne.symm hLr)]

theorem pendingLocked_readd {tcb : T} (hidle : tcb ≠ idle)
    (hhead : (s.lists .readytorun).head? ≠ some tcb) (p : Nat) :
    PendingLocked (schedAddreadytorun ((schedRemovereadytorun s tcb).1.setPriority tcb p) tcb).1 := by
  refine PendingLocked.addreadytorun (h.pending_locked.of_frame (by simp) ?_ (by simp)) ?_ tcb
  · simp [head?_erase_of_ne hhead]
  · have hi : idle ∈ (s.lists .readytorun).erase tcb := (List.mem_erase_of_ne (Ne.symm hidle)).mpr h.idle_mem
    simpa using List.ne_nil_of_mem hi

theorem upReprioritizeRtr {tcb : T} (hmem : tcb ∈ s.lists .readytorun) (hidle : tcb ≠ idle)
    {p : Nat} (hp : 0 < p) : Inv idle (upReprioritizeRtr s tcb p) := by
  have h3 := h.toReadyInv.readd hmem hidle hp
  have hne : ((schedRemovereadytorun s tcb).1.setPriority tcb p).lists .readytorun ≠ [] :=
    List.ne_nil_of_mem ((h.toReadyInv.removereadytorun hmem hidle).idle_mem)
  unfold TizenRT.Sched.upReprioritizeRtr
  dsimp only
  split_ifs with hx hpend
  · exact ⟨h3.mergepending,PendingLocked.of_nil (schedMergepending_pendingtasks _)⟩
  · exact ⟨h3,PendingLocked.of_nil (not_not.mp hpend)⟩
  · refine ⟨h3,?_⟩
    cases e₂ : (schedAddreadytorun ((schedRemovereadytorun s tcb).1.setPriority tcb p) tcb).2
    · have hhead : (s.lists .readytorun).head? ≠ some tcb := by
        intro e
        simp [schedRemovereadytorun_snd,e,e₂] at hx
      exact h.pendingLocked_readd hidle hhead p
    · have e₁ : (s.lists .readytorun).head? = some tcb := by
        simpa [schedRemovereadytorun_snd,e₂] using hx
      obtain ⟨hh,hpd⟩ := schedAddreadytorun_of_snd hne e₂
      intro hpnd r hr
      rw [hh,Option.mem_def,Option.some.injEq] at hr
      subst hr
      have hpnd' : s.lists .pendingtasks ≠ [] := by
        rw [hpd] at hpnd
        simpa using hpnd
      simpa using h.pending_locked hpnd' tcb (by rw [e₁]; rfl)

theorem schedSetpriority {tcb : T} (hidle : tcb ≠ idle) (priority : Int) :
    Inv idle (schedSetpriority s tcb priority).2 := by
  unfold TizenRT.Sched.schedSetpriority
  split_ifs with hrange
  · exact h
  have hp : 0 < priority.toNat := by simp [SCHED_PRIORITY_MIN] at hrange; omega
  dsimp only
  split
  · rename_i hrun
    obtain ⟨rest,hready⟩ : ∃ rest, s.lists .readytorun = tcb :: rest := by
      obtain ⟨r,rest,e⟩ := List.exists_cons_of_ne_nil (List.ne_nil_of_mem h.idle_mem)
      have hr := (h.running_iff tcb).mp hrun
      rw [e,List.head?_cons,Option.some.injEq] at hr
      exact ⟨rest,by rw [e,hr]⟩
    have hmem : tcb ∈ s.lists .readytorun := by
      rw [hready]
      exact List.mem_cons_self
    rw [hready,flinkOf,if_pos rfl]
    split
    · rename_i flink hf
      split_ifs with hle
      · exact h.upReprioritizeRtr hmem hidle hp
      · have hsorted := (h.fifo .readytorun rfl).sorted
        rw [hready] at hsorted
        obtain ⟨rest',rfl⟩ : ∃ rest', rest = flink :: rest' := by
          cases rest with
          | nil => simp at hf
          | cons a l => simp at hf; exact ⟨l,by rw [hf]⟩
        have hlt : ∀ b ∈ flink :: rest', s.sched_priority b < priority.toNat := by
          intro b hb
          rcases List.mem_cons.mp hb with rfl | hb
          · omega
          · have := (List.pairwise_cons.mp (List.pairwise_cons.mp hsorted).2).1 b hb
            simp only [prioKey,OrderDual.toDual_le_toDual] at this
            omega
        exact ⟨h.toReadyInv.setPriority_head hready hlt hidle hp,h.pending_locked.of_frame id rfl rfl⟩
    · rename_i hf
      have hl := h.idle_last
      rw [hready,List.head?_eq_none_iff.mp hf] at hl
      exact absurd (Option.some.inj hl) hidle
  · rename_i hrdy
    have hmem : tcb ∈ s.lists .readytorun := (h.mem_ready_iff tcb).mpr (Or.inl hrdy)
    have hhead : (s.lists .readytorun).head? ≠ some tcb := fun e => by
      have := (h.running_iff tcb).mpr e
      rw [hrdy] at this
      exact absurd this (by decide)
    split
    · split_ifs
      · exact h.upReprioritizeRtr hmem hidle hp
      · exact ⟨h.toReadyInv.readd hmem hidle hp,h.pendingLocked_readd hidle hhead _⟩
    · exact h
  · rename_i hnrun hnrdy
    have hnot : tcb ∉ s.lists .readytorun := fun hm => by
      rcases (h.mem_ready_iff tcb).mp hm with e | e
      · exact hnrdy e
      · exact hnrun e
    split
    · rename_i L hL
      have hLr : L ≠ .readytorun := fun e => hnot ((h.mem_iff tcb _).mpr (e ▸ hL))
      split_ifs with hpz
      · refine ⟨h.toReadyInv.resort hL hLr hidle hp,h.pending_locked.of_frame ?_ ?_
          (by simp [schedAddprioritized,dqRem])⟩
        · intro _ hnil
          by_cases hLp : L = .pendingtasks
          · subst hLp
            exact (List.ne_nil_of_mem ((h.mem_iff tcb _).mpr hL)) hnil
          · simp_all [schedAddprioritized,dqRem,Function.update_of_ne (Ne.symm hLp)]
        · simp [schedAddprioritized,dqRem,Function.update_of_ne (Ne.symm hLr)]
      · have hunsorted : L.prioritized = false := by
          simpa [gTasklisttable_prioritized hL] using hpz
        refine ⟨h.toReadyInv.setPriority (fun L' hL' htL' => ?_) hidle hp,
          h.pending_locked.of_frame id rfl rfl⟩
        obtain rfl := h.toListInv.list_eq htL' ((h.mem_iff tcb _).mpr hL)
        simp [hunsorted] at hL'
    · rename_i hnone
      refine ⟨h.toReadyInv.setPriority (fun L' _ htL' => ?_) hidle hp,
        h.pending_locked.of_frame id rfl rfl⟩
      rw [h.mem_iff,hnone] at htL'
      simp at htL'

theorem schedLock : Inv idle (schedLock s) := by
  unfold TizenRT.Sched.schedLock
  split
  · rename_i rtcb rest hready
    refine ⟨h.toReadyInv.setLockcount _ _,fun _ r hr => ?_⟩
    rw [SchedState.setLockcount_lists,hready,List.head?_cons,Option.mem_def,
      Option.some.injEq] at hr
    subst hr
    simp
  · exact h

theorem schedUnlock : Inv idle (schedUnlock s) := by
  unfold TizenRT.Sched.schedUnlock
  split
  · rename_i rtcb rest hready
    dsimp only
    generalize hs₁ : (if s.lockcount rtcb ≠ 0 then s.setLockcount rtcb (s.lockcount rtcb - 1)
      else s) = s₁
    have h1 : ReadyInv idle s₁ := by
      rw [← hs₁]
      split_ifs
      · exact h.toReadyInv.setLockcount _ _
      · exact h.toReadyInv
    have hlists : s₁.lists = s.lists := by
      rw [← hs₁]
      split_ifs <;> rfl
    split_ifs with hz hp
    · exact ⟨(h1.setLockcount _ _).mergepending,PendingLocked.of_nil (schedMergepending_pendingtasks _)⟩
    · exact ⟨h1.setLockcount _ _,PendingLocked.of_nil (not_not.mp hp)⟩
    · refine ⟨h1,fun _ r hr => ?_⟩
      rw [hlists,hready,List.head?_cons,Option.mem_def,Option.some.injEq] at hr
      subst hr
      omega
  · exact h

theorem schedMergepending : Inv idle (schedMergepending s).1 :=
  ⟨h.toReadyInv.mergepending,PendingLocked.of_nil (schedMergepending_pendingtasks s)⟩

end Inv

theorem Inv.init {sched_priority : T → Nat} (h0 : sched_priority idle = 0)
    (hpos : ∀ t, t ≠ idle → 0 < sched_priority t) : Inv idle (schedInit idle sched_priority) := by
  refine ⟨⟨⟨fun t L => ?_,fun L => ?_,fun L _ => ?_,fun _ => Nat.zero_lt_one,h0,hpos⟩,
    fun t => ?_,by simp [schedInit]⟩,PendingLocked.of_nil (by simp [schedInit])⟩
  · by_cases ht : t = idle
    · subst ht
      by_cases hL : L = .readytorun <;> simp [schedInit,hL,gTasklisttable,eq_comm]
    · by_cases hL : L = .readytorun <;> simp [schedInit,ht,hL,gTasklisttable]
  · by_cases hL : L = .readytorun <;> simp [schedInit,hL]
  · by_cases hL : L = .readytorun <;> simp [schedInit,hL,FifoSorted]
  · by_cases ht : t = idle
    · subst ht
      simp [schedInit]
    · simp [schedInit,ht,Ne.symm ht]

variable (idle) in
/-- The states the scheduler reaches from os_start, each call made with the assertions of the
code it enters. -/
inductive Reachable : SchedState T → Prop
  | init (sched_priority : T → Nat) : sched_priority idle = 0 →
      (∀ t, t ≠ idle → 0 < sched_priority t) → Reachable (schedInit idle sched_priority)
  | setup {s : SchedState T} (tcb : T) (priority : Int) : Reachable s →
      s.task_state tcb = .taskInvalid → Reachable (threadSchedsetup s tcb priority).2
  | block {s : SchedState T} (tcb : T) (task_state : TState) : Reachable s →
      tcb ∈ s.lists .readytorun → tcb ≠ idle → task_state.blocked →
      Reachable (upBlockTask s tcb task_state)
  | unblock {s : SchedState T} (tcb : T) : Reachable s → (s.task_state tcb).blocked →
      Reachable (upUnblockTask s tcb)
  | setpriority {s : SchedState T} (tcb : T) (priority : Int) : Reachable s → tcb ≠ idle →
      Reachable (schedSetpriority s tcb priority).2
  | reprioritize {s : SchedState T} (tcb : T) (priority : Nat) : Reachable s →
      tcb ∈ s.lists .readytorun → tcb ≠ idle → SCHED_PRIORITY_MIN ≤ priority →
      priority ≤ SCHED_PRIORITY_MAX → Reachable (upReprioritizeRtr s tcb priority)
  | lock {s : SchedState T} : Reachable s → Reachable (schedLock s)
  | unlock {s : SchedState T} : Reachable s → Reachable (schedUnlock s)
  | merge {s : SchedState T} : Reachable s → Reachable (schedMergepending s).1

theorem Reachable.inv {s : SchedState T} (hr : Reachable idle s) : Inv idle s := by
  induction hr with
  | init _ h0 hpos => exact Inv.init h0 hpos
  | setup tcb priority _ hinv ih => exact ih.threadSchedsetup hinv priority
  | block tcb task_state _ hmem hidle hb ih => exact ih.upBlockTask hmem hidle hb
  | unblock tcb _ hb ih => exact ih.upUnblockTask hb
  | setpriority tcb priority _ hidle ih => exact ih.schedSetpriority hidle priority
  | reprioritize tcb priority _ hmem hidle hmin _ ih =>
    exact ih.upReprioritizeRtr hmem hidle (by simp [SCHED_PRIORITY_MIN] at hmin; omega)
  | lock _ ih => exact ih.schedLock
  | unlock _ ih => exact ih.schedUnlock
  | merge _ ih => exact ih.schedMergepending

theorem sched_lists_invariant {s : SchedState T} (hr : Reachable idle s) :
    (∀ t L, t ∈ s.lists L ↔ (gTasklisttable (s.task_state t)).list = some L) ∧
    (∀ L, (s.lists L).Nodup) ∧
    (∀ L, L.prioritized → (s.lists L).Pairwise fun a b =>
      s.sched_priority b < s.sched_priority a ∨
        s.sched_priority a = s.sched_priority b ∧ s.stamp a < s.stamp b) ∧
    (∀ t, s.task_state t = .taskRunning ↔ (s.lists .readytorun).head? = some t) ∧
    (s.lists .readytorun).getLast? = some idle ∧
    (∀ r ∈ (s.lists .readytorun).head?, s.lockcount r = 0 → s.lists .pendingtasks = []) := by
  have h := hr.inv
  refine ⟨h.mem_iff,h.nodup,fun L hL => fifoSorted_prioKey_iff.mp (h.fifo L hL),h.running_iff,
    h.idle_last,fun r hr hz => ?_⟩
  by_contra hne
  exact h.pending_locked hne r hr hz

theorem sched_lists_invariant_two_tasks :
    let s := upUnblockTask
      (threadSchedsetup (schedInit (0 : Fin 2) fun t => if t = 0 then 0 else 1) 1 100).2 1
    (∀ t L, t ∈ s.lists L ↔ (gTasklisttable (s.task_state t)).list = some L) ∧
    (∀ L, (s.lists L).Nodup) ∧
    (∀ L, L.prioritized → (s.lists L).Pairwise fun a b =>
      s.sched_priority b < s.sched_priority a ∨
        s.sched_priority a = s.sched_priority b ∧ s.stamp a < s.stamp b) ∧
    (∀ t, s.task_state t = .taskRunning ↔ (s.lists .readytorun).head? = some t) ∧
    (s.lists .readytorun).getLast? = some 0 ∧
    (∀ r ∈ (s.lists .readytorun).head?, s.lockcount r = 0 → s.lists .pendingtasks = []) :=
  sched_lists_invariant (.unblock 1 (.setup 1 100 (.init _ rfl (by decide)) rfl) (by decide))

/-- A running task that holds the preemption lock and lowers its priority to at most that of
the task behind it stops running, and the task behind it runs while the lock is still held:
`up_reprioritize_rtr` takes the running task out of g_readytorun before it calls
`sched_addreadytorun`, which then checks the lock of the new head. -/
theorem sched_setpriority_preempts_locked_task {s : SchedState T} (hr : Reachable idle s)
    {tcb ntcb : T} {rest : List T} (hready : s.lists .readytorun = tcb :: ntcb :: rest)
    (hpend : s.lists .pendingtasks = []) {priority : Int} (hmin : SCHED_PRIORITY_MIN ≤ priority)
    (hmax : priority ≤ SCHED_PRIORITY_MAX) (hle : priority ≤ s.sched_priority ntcb) :
    ((schedSetpriority s tcb priority).2.lists .readytorun).head? = some ntcb ∧
      (schedSetpriority s tcb priority).2.lockcount = s.lockcount := by
  have h := hr.inv
  have hnd := h.nodup .readytorun
  rw [hready] at hnd
  have hnt : ntcb ≠ tcb := fun e => (List.nodup_cons.mp hnd).1 (by simp [e])
  have hrun : s.task_state tcb = .taskRunning := (h.running_iff tcb).mpr (by simp [hready])
  have hp : priority.toNat ≤ s.sched_priority ntcb := by omega
  have hcall : (schedSetpriority s tcb priority).2 = upReprioritizeRtr s tcb priority.toNat := by
    have hrange : ¬(priority < SCHED_PRIORITY_MIN ∨ priority > SCHED_PRIORITY_MAX) := by omega
    simp [TizenRT.Sched.schedSetpriority,hrange,hrun,hready,flinkOf,hp]
  rw [hcall]
  unfold TizenRT.Sched.upReprioritizeRtr
  dsimp only
  have hsnd₁ : (schedRemovereadytorun s tcb).2 = true := by simp [schedRemovereadytorun_snd,hready]
  set s₁ := (schedRemovereadytorun s tcb).1.setPriority tcb priority.toNat with hs₁
  have hready₁ : s₁.lists .readytorun = ntcb :: rest := by simp [s₁,hready]
  have hprio₁ : s₁.sched_priority ntcb = s.sched_priority ntcb := by
    simp [s₁,Function.update_of_ne hnt]
  have hprio_t : s₁.sched_priority tcb = priority.toNat := by simp [s₁]
  have hadd : schedAddreadytorun s₁ tcb =
      ((schedAddprioritized s₁ tcb .readytorun).1.setState tcb .taskReadytorun,false) := by
    have hnl : ¬(s₁.lockcount ntcb ≠ 0 ∧ s₁.sched_priority ntcb < s₁.sched_priority tcb) := by
      rw [hprio₁,hprio_t]
      omega
    have hns : (schedAddprioritized s₁ tcb .readytorun).2 = false := by
      simp [schedAddprioritized,hready₁,hprio₁,hprio_t,hle]
    unfold schedAddreadytorun
    rw [hready₁]
    simp only [if_neg hnl,hns]
    rfl
  have hpend₁ : s₁.lists .pendingtasks = [] := by simp [s₁,hpend]
  have hlock₁ : s₁.lockcount = s.lockcount := by simp [s₁]
  rw [hadd,hsnd₁]
  simp [hpend₁,hlock₁,schedAddprioritized,hready₁,addPrioritized,hprio₁,hprio_t,hle]

theorem sched_setpriority_preempts_locked_task_run :
    let s := schedLock (upUnblockTask (upUnblockTask (threadSchedsetup (threadSchedsetup
      (schedInit (0 : Fin 3) fun t => if t = 0 then 0 else 1) 1 100).2 2 50).2 2) 1)
    s.lists .readytorun = [1,2,0] ∧ s.lockcount 1 = 1 ∧
      ((schedSetpriority s 1 50).2.lists .readytorun).head? = some 2 ∧
      (schedSetpriority s 1 50).2.lockcount = s.lockcount := by
  intro s
  have hr : Reachable (0 : Fin 3) s :=
    .lock (.unblock 1 (.unblock 2 (.setup 2 50 (.setup 1 100 (.init _ rfl (by decide)) rfl) rfl)
      (by decide)) (by decide))
  have hready : s.lists .readytorun = [1,2,0] := by decide
  exact ⟨hready,by decide,sched_setpriority_preempts_locked_task hr hready (by decide) (by decide)
    (by decide) (by decide)⟩

end TizenRT.Sched
