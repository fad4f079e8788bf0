import TizenRT.Pthread.Mutex

set_option autoImplicit false

/-!
Ownership of a mutex over whole runs of lock, trylock and unlock calls and of signals: the
mutex is held by at most one thread, the one `pid` names, and it is on that thread's list of
held mutexes and on no other; while it is held, or while its count is on its way to the
waiter a `sem_post` restarted, any other thread blocks in `pthread_mutex_lock`.
A signal to that blocked thread makes `pthread_mutex_lock` return EINTR.
-/

namespace TizenRT.Pthread

open TizenRT.Sem TizenRT.Wdog

variable {T : Type}

/-- `sem_post` handed the count to `t`, whose `sem_wait` has not returned yet. -/
def Granted (m : MutexState T) (t : T) : Prop := m.sem.wait t = .restarted ∧ m.sem.pterrno t = 0

structure MutexInv (m : MutexState T) : Prop where
  sem : WaitInv m.sem
  mhead_iff : ∀ t, m.mhead t = true ↔ m.pid = some t
  held : ∀ h, m.pid = some h → m.sem.semcount ≤ 0 ∧ ∀ t, ¬ Granted m t
  handed : ∀ g, Granted m g → m.pid = none ∧ m.sem.semcount ≤ 0 ∧ ∀ t, Granted m t → t = g
  free : m.pid = none → (∀ t, ¬ Granted m t) → m.sem.semcount = 1
  interrupted : ∀ t, m.sem.wait t = .restarted → m.sem.pterrno t = 0 ∨ m.sem.pterrno t = EINTR
  nlocks_pos : m.type = .recursive → ∀ h, m.pid = some h → 1 ≤ m.nlocks

namespace MutexInv

variable {m : MutexState T} (h : MutexInv m)
include h

theorem free_of_pos (hc : 0 < m.sem.semcount) : m.pid = none ∧ ∀ t, ¬ Granted m t := by
  constructor
  · cases hp : m.pid with
    | none => rfl
    | some o => have := (h.held o hp).1; omega
  · intro t ht
    have := (h.handed t ht).2.1
    omega

end MutexInv

theorem not_granted_of_wait_ne {m : MutexState T} {t : T} (ht : m.sem.wait t ≠ .restarted) :
    ¬ Granted m t := fun hg => ht hg.1

theorem not_granted_of_idle {m : MutexState T} {t : T} (ht : m.sem.wait t = .idle) :
    ¬ Granted m t :=
  not_granted_of_wait_ne (by rw [ht]; decide)

theorem not_granted_of_pterrno_ne {m : MutexState T} {t : T} (ht : m.sem.pterrno t ≠ 0) :
    ¬ Granted m t := fun hg => ht hg.2

theorem granted_iff_of_ne {m m' : MutexState T} {t u : T}
    (hw : ∀ v, v ≠ t → m'.sem.wait v = m.sem.wait v)
    (he : ∀ v, v ≠ t → m'.sem.pterrno v = m.sem.pterrno v) (hu : u ≠ t) :
    Granted m' u ↔ Granted m u := by
  simp only [Granted,hw u hu,he u hu]

theorem granted_of_granted_ne {m m' : MutexState T} {t u : T} (hu : Granted m' u)
    (hw : ∀ v, v ≠ t → m'.sem.wait v = m.sem.wait v)
    (he : ∀ v, v ≠ t → m'.sem.pterrno v = m.sem.pterrno v) (ht : ¬ Granted m' t) :
    u ≠ t ∧ Granted m u := by
  have hut : u ≠ t := fun e => ht (e ▸ hu)
  exact ⟨hut,(granted_iff_of_ne hw he hut).mp hu⟩

theorem MutexInv.init [DecidableEq T] (type : MutexType) (sched_priority : T → Nat) :
    MutexInv (pthreadMutexInit type sched_priority) := by
  refine ⟨WaitInv.init sched_priority (by decide),fun t => ?_,fun _ hp => ?_,fun g hg => ?_,
    fun _ _ => rfl,fun t ht => ?_,fun _ _ hp => ?_⟩ <;>
    simp_all [pthreadMutexInit,semInit,Granted]

variable [DecidableEq T]

namespace MutexInv

variable {m : MutexState T} (h : MutexInv m)
include h

theorem acquire (hc : 0 < m.sem.semcount) {t : T} {m' : MutexState T} (hsem : WaitInv m'.sem)
    (hcount : m'.sem.semcount = m.sem.semcount - 1) (hwait : m'.sem.wait = m.sem.wait)
    (herr : m'.sem.pterrno = m.sem.pterrno) (hpid : m'.pid = some t)
    (hmhead : m'.mhead = Function.update m.mhead t true)
    (hnlocks : m'.type = .recursive → 1 ≤ m'.nlocks) : MutexInv m' := by
  obtain ⟨hnone,hng⟩ := h.free_of_pos hc
  have h1 := h.free hnone hng
  have hng' : ∀ u, ¬ Granted m' u := fun u hu => hng u (by simpa [Granted,hwait,herr] using hu)
  refine ⟨hsem,fun u => ?_,fun _ _ => ⟨by omega,hng'⟩,fun g hg => absurd hg (hng' g),
    fun hp => absurd (hpid ▸ hp) (by simp),fun u hu => ?_,fun ht _ _ => hnlocks ht⟩
  · rw [hmhead,hpid]
    by_cases hut : u = t
    · subst hut
      simp
    · simp [Function.update_of_ne hut,h.mhead_iff,hnone,Ne.symm hut]
  · rw [hwait] at hu
    rw [herr]
    exact h.interrupted u hu

theorem pthreadMutexLock {t : T} (hidle : m.sem.wait t = .idle) :
    MutexInv (pthreadMutexLock m t).2 := by
  have hsem := h.sem.semWait hidle
  unfold TizenRT.Pthread.pthreadMutexLock
  split_ifs with hre hrec hov
  · exact ⟨h.sem,h.mhead_iff,h.held,h.handed,h.free,h.interrupted,fun _ _ _ => by dsimp only; omega⟩
  · exact h
  · exact h
  · by_cases hc : 0 < m.sem.semcount
    · have e : semWait m.sem t =
          (some OK,{ m.sem with semcount := m.sem.semcount - 1 }) :=
        if_pos hc
      rw [e] at hsem ⊢
      exact h.acquire hc hsem rfl rfl rfl rfl rfl (fun _ => le_rfl)
    · have hout : ∀ v, v ≠ t → (semWait m.sem t).2.wait v = m.sem.wait v ∧
          (semWait m.sem t).2.pterrno v = m.sem.pterrno v := fun v hv => by
        simp [TizenRT.Sem.semWait,hc,Function.update_of_ne hv]
      have hself : (semWait m.sem t).2.wait t = .blocked := by simp [TizenRT.Sem.semWait,hc]
      have hcount : (semWait m.sem t).2.semcount = m.sem.semcount - 1 := by
        simp [TizenRT.Sem.semWait,hc]
      have e : (semWait m.sem t).1 = none := by simp [TizenRT.Sem.semWait,hc]
      dsimp only
      rw [e]
      dsimp only
      have hgr : ∀ u, Granted { m with sem := (semWait m.sem t).2 } u → u ≠ t ∧ Granted m u :=
        fun u hu => granted_of_granted_ne hu (fun v hv => (hout v hv).1) (fun v hv => (hout v hv).2)
          (not_granted_of_wait_ne (by dsimp only; rw [hself]; decide))
      refine ⟨hsem,h.mhead_iff,fun o ho => ⟨by dsimp only; omega,fun u hu =>
          (h.held o ho).2 u (hgr u hu).2⟩,fun g hg => ?_,fun hp hng => ?_,fun u hu => ?_,
        h.nlocks_pos⟩
      · obtain ⟨hp,-,huniq⟩ := h.handed g (hgr g hg).2
        exact ⟨hp,by dsimp only; omega,fun u hu => huniq u (hgr u hu).2⟩
      · have := h.free hp fun u hu => hng u
          ((granted_iff_of_ne (fun v hv => (hout v hv).1) (fun v hv => (hout v hv).2)
            (fun e => not_granted_of_idle hidle (e ▸ hu))).mpr hu)
        omega
      · have hut : u ≠ t := by
          rintro rfl
          rw [hself] at hu
          exact absurd hu (by decide)
        rw [(hout u hut).1] at hu
        rw [(hout u hut).2]
        exact h.interrupted u hu

theorem pthreadMutexLockResume {t : T} (hr : m.sem.wait t = .restarted) :
    MutexInv (pthreadMutexLockResume m t).2 := by
  have hsem := h.sem.semWaitReturn hr
  rw [semWaitReturn_snd] at hsem
  have hgr : ∀ u, Granted { m with sem := { m.sem with wait := Function.update m.sem.wait t .idle } } u →
      u ≠ t ∧ Granted m u :=
    fun u hu => granted_of_granted_ne hu (fun v hv => Function.update_of_ne hv _ _)
      (fun _ _ => rfl) (not_granted_of_idle (Function.update_self t _ _))
  have hint : ∀ u, u ≠ t → (Function.update m.sem.wait t .idle u = .restarted →
      m.sem.pterrno u = 0 ∨ m.sem.pterrno u = EINTR) := fun u hut hu =>
    h.interrupted u (by simpa [Function.update_of_ne hut] using hu)
  rcases h.interrupted t hr with h0 | hintr
  · obtain ⟨hnone,hc,huniq⟩ := h.handed t ⟨hr,h0⟩
    rw [pthreadMutexLockResume_of_handed h0,semWaitReturn_snd]
    have hng : ∀ u, ¬ Granted (lockTaken { m with sem :=
        { m.sem with wait := Function.update m.sem.wait t .idle } } t) u :=
      fun u hu => (hgr u hu).1 (huniq u (hgr u hu).2)
    refine ⟨hsem,fun u => ?_,fun _ _ => ⟨hc,hng⟩,fun g hg => absurd hg (hng g),
      fun hp => absurd hp (by simp [lockTaken]),fun u hu => ?_,fun _ _ _ => le_rfl⟩
    · by_cases hut : u = t
      · subst hut
        simp [lockTaken]
      · simp [lockTaken,Function.update_of_ne hut,h.mhead_iff,hnone,Ne.symm hut]
    · have hut : u ≠ t := by
        rintro rfl
        simp [lockTaken] at hu
      exact hint u hut hu
  · have hng : ¬ Granted m t := fun hg => by
      rw [hg.2] at hintr
      exact absurd hintr (by decide)
    rw [pthreadMutexLockResume_of_eintr hintr,semWaitReturn_snd]
    refine ⟨hsem,h.mhead_iff,fun o ho => ⟨(h.held o ho).1,fun u hu => (h.held o ho).2 u (hgr u hu).2⟩,
      fun g hg => ?_,fun hp hfree => ?_,fun u hu => ?_,h.nlocks_pos⟩
    · obtain ⟨hp,hc,huniq⟩ := h.handed g (hgr g hg).2
      exact ⟨hp,hc,fun u hu => huniq u (hgr u hu).2⟩
    · refine h.free hp fun u hu => ?_
      have hut : u ≠ t := fun e => hng (e ▸ hu)
      exact hfree u ((granted_iff_of_ne (m := m) (fun v hv => by simp [Function.update_of_ne hv])
        (fun _ _ => by rfl) hut).mpr hu)
    · have hut : u ≠ t := by
        rintro rfl
        simp at hu
      exact hint u hut hu

theorem pthreadMutexTrylock {t : T} (hidle : m.sem.wait t = .idle) :
    MutexInv (pthreadMutexTrylock m t).2 := by
  have hsem := h.sem.semTrywait hidle
  unfold TizenRT.Pthread.pthreadMutexTrylock
  dsimp only
  by_cases hc : 0 < m.sem.semcount
  · have e : semTrywait m.sem t =
        (OK,{ m.sem with semcount := m.sem.semcount - 1 }) := if_pos hc
    rw [e] at hsem ⊢
    rw [if_pos rfl]
    split_ifs with hrec
    · exact h.acquire hc hsem rfl rfl rfl rfl rfl (fun _ => le_rfl)
    · exact h.acquire hc hsem rfl rfl rfl rfl rfl (fun e => absurd e hrec)
  · have e : semTrywait m.sem t = (ERROR,{ m.sem with pterrno := Function.update m.sem.pterrno t EAGAIN }) :=
      if_neg hc
    rw [e] at hsem ⊢
    rw [if_neg (show ERROR ≠ OK by decide)]
    have hgr : ∀ u, Granted { m with sem := { m.sem with
        pterrno := Function.update m.sem.pterrno t EAGAIN } } u ↔ Granted m u := by
      intro u
      by_cases hut : u = t
      · subst hut
        exact iff_of_false (not_granted_of_idle hidle) (not_granted_of_idle hidle)
      · exact granted_iff_of_ne (fun _ _ => rfl) (fun v hv => Function.update_of_ne hv _ _) hut
    have hinv : MutexInv { m with sem := { m.sem with
        pterrno := Function.update m.sem.pterrno t EAGAIN } } := by
      refine ⟨hsem,h.mhead_iff,fun o ho => ⟨(h.held o ho).1,fun u hu => (h.held o ho).2 u
        ((hgr u).mp hu)⟩,fun g hg => ?_,fun hp hng => h.free hp fun u hu => hng u ((hgr u).mpr hu),
        fun u hu => ?_,h.nlocks_pos⟩
      · obtain ⟨hp,hc',huniq⟩ := h.handed g ((hgr g).mp hg)
        exact ⟨hp,hc',fun u hu => huniq u ((hgr u).mp hu)⟩
      · have hut : u ≠ t := by
          rintro rfl
          rw [hidle] at hu
          exact absurd hu (by decide)
        simpa [Function.update_of_ne hut] using h.interrupted u hu
    split_ifs with hrec hov
    · exact ⟨hinv.sem,hinv.mhead_iff,hinv.held,hinv.handed,hinv.free,hinv.interrupted,
        fun _ _ _ => by dsimp only; omega⟩
    · exact hinv
    · exact hinv

theorem pthreadMutexUnlock (t : T) : MutexInv (pthreadMutexUnlock m t).2 := by
  unfold TizenRT.Pthread.pthreadMutexUnlock
  split_ifs with hne hrec
  · exact h
  · exact ⟨h.sem,h.mhead_iff,h.held,h.handed,h.free,h.interrupted,fun _ _ _ => by dsimp only; omega⟩
  · have hpid : m.pid = some t := not_not.mp hne
    obtain ⟨hc,hng⟩ := h.held t hpid
    have hsem := h.sem.semPost
    have hmhead : ∀ u, Function.update m.mhead t false u = false := by
      intro u
      by_cases hut : u = t
      · subst hut
        simp
      · have := h.mhead_iff u
        rw [hpid] at this
        simpa [Function.update_of_ne hut,Ne.symm hut] using this
    by_cases hw : m.sem.semcount + 1 ≤ 0
    · obtain ⟨w,rest,hws⟩ := List.exists_cons_of_ne_nil (h.sem.waiters_ne_nil hw)
      have hwb : m.sem.wait w = .blocked := (h.sem.mem_iff w).mp (by simp [hws])
      have hw0 : m.sem.pterrno w = 0 := h.sem.cleared w hwb
      rw [semPost_of_wake hw hws] at hsem ⊢
      have hgr : ∀ u, Granted { m with
          pid := none
          nlocks := 0
          mhead := Function.update m.mhead t false
          sem := { m.sem with
            semcount := m.sem.semcount + 1
            waiters := rest
            wait := Function.update m.sem.wait w .restarted } } u ↔ u = w := by
        intro u
        by_cases huw : u = w
        · subst huw
          simp [Granted,hw0]
        · simp only [Granted,Function.update_of_ne huw,huw,iff_false]
          exact hng u
      refine ⟨hsem,fun u => by simp [hmhead],fun _ hp => absurd hp (by simp),fun g hg => ?_,
        fun _ hng' => absurd ((hgr w).mpr rfl) (hng' w),fun u hu => ?_,fun _ _ hp => absurd hp (by simp)⟩
      · rw [hgr] at hg
        subst hg
        exact ⟨rfl,by dsimp only; omega,fun u hu => (hgr u).mp hu⟩
      · by_cases huw : u = w
        · subst huw
          exact Or.inl hw0
        · simp only [Function.update_of_ne huw] at hu
          exact h.interrupted u hu
    · rw [semPost_of_pos (by omega)] at hsem ⊢
      have hng' : ∀ u, ¬ Granted { m with
          pid := none
          nlocks := 0
          mhead := Function.update m.mhead t false
          sem := { m.sem with semcount := m.sem.semcount + 1 } } u := hng
      refine ⟨hsem,fun u => by simp [hmhead],fun _ hp => absurd hp (by simp),
        fun g hg => absurd hg (hng' g),fun _ _ => by dsimp only; omega,h.interrupted,
        fun _ _ hp => absurd hp (by simp)⟩

theorem sigDispatch (t : T) : MutexInv (sigDispatch m t) := by
  unfold TizenRT.Pthread.sigDispatch TizenRT.Sem.semWaitirq
  have hsem : WaitInv (semWaitirq m.sem t EINTR) := h.sem.semWaitirq EINTR
  unfold TizenRT.Sem.semWaitirq at hsem
  split_ifs with hb
  · split_ifs at hsem
    have hneg : m.sem.semcount + 1 ≤ 0 := by
      have hlen := h.sem.length
      have := List.length_pos_of_mem ((h.sem.mem_iff t).mpr hb)
      omega
    have hgr : ∀ u, Granted { m with sem := { m.sem with
        semcount := m.sem.semcount + 1
        waiters := m.sem.waiters.erase t
        wait := Function.update m.sem.wait t .restarted
        pterrno := Function.update m.sem.pterrno t EINTR } } u → Granted m u :=
      fun u hu => (granted_of_granted_ne hu (fun v hv => Function.update_of_ne hv _ _)
        (fun v hv => Function.update_of_ne hv _ _) (not_granted_of_pterrno_ne (by simp [EINTR]))).2
    refine ⟨hsem,h.mhead_iff,fun o ho => ⟨by dsimp only; omega,fun u hu => (h.held o ho).2 u (hgr u hu)⟩,
      fun g hg => ?_,fun hp hng => ?_,fun u hu => ?_,h.nlocks_pos⟩
    · obtain ⟨hp,-,huniq⟩ := h.handed g (hgr g hg)
      refine ⟨hp,by dsimp only; omega,fun u hu => huniq u (hgr u hu)⟩
    · have hng' : ∀ u, ¬ Granted m u := by
        intro u hu
        have hut : u ≠ t := fun e => not_granted_of_wait_ne (by rw [hb]; decide) (e ▸ hu)
        exact hng u ((granted_iff_of_ne (fun v hv => Function.update_of_ne hv _ _)
          (fun v hv => Function.update_of_ne hv _ _) hut).mpr hu)
      have := h.free hp hng'
      omega
    · by_cases hut : u = t
      · subst hut
        simp
      · simp only [Function.update_of_ne hut] at hu ⊢
        exact h.interrupted u hu
  · exact h

end MutexInv

/-- The states one mutex reaches from `pthread_mutex_init`: calls by threads that are running,
so not inside `sem_wait`, the return of a blocked lock, and signals. -/
inductive Reachable : MutexState T → Prop
  | init (type : MutexType) (sched_priority : T → Nat) :
      Reachable (pthreadMutexInit type sched_priority)
  | lock {m : MutexState T} (t : T) : Reachable m → m.sem.wait t = .idle →
      Reachable (pthreadMutexLock m t).2
  | lockResume {m : MutexState T} (t : T) : Reachable m → m.sem.wait t = .restarted →
      Reachable (pthreadMutexLockResume m t).2
  | trylock {m : MutexState T} (t : T) : Reachable m → m.sem.wait t = .idle →
      Reachable (pthreadMutexTrylock m t).2
  | unlock {m : MutexState T} (t : T) : Reachable m → m.sem.wait t = .idle →
      Reachable (pthreadMutexUnlock m t).2
  | signal {m : MutexState T} (t : T) : Reachable m → Reachable (sigDispatch m t)

theorem Reachable.mutexInv {m : MutexState T} (hr : Reachable m) : MutexInv m := by
  induction hr with
  | init type sched_priority => exact MutexInv.init type sched_priority
  | lock t _ hidle ih => exact ih.pthreadMutexLock hidle
  | lockResume t _ hrs ih => exact ih.pthreadMutexLockResume hrs
  | trylock t _ hidle ih => exact ih.pthreadMutexTrylock hidle
  | unlock t _ _ ih => exact ih.pthreadMutexUnlock t
  | signal t _ ih => exact ih.sigDispatch t

theorem MutexInv.excludes {m : MutexState T} (h : MutexInv m) {o t : T} (ho : m.pid = some o)
    (hto : t ≠ o) :
    (TizenRT.Pthread.pthreadMutexLock m t).1 = none ∧
      (TizenRT.Pthread.pthreadMutexTrylock m t).1 = EBUSY := by
  have hc := (h.held o ho).1
  have hnot : m.pid ≠ some t := by
    rw [ho]
    exact fun e => hto (Option.some.inj e).symm
  constructor
  · simp [TizenRT.Pthread.pthreadMutexLock,hnot,TizenRT.Sem.semWait,not_lt.mpr hc]
  · simp [TizenRT.Pthread.pthreadMutexTrylock,hnot,TizenRT.Sem.semTrywait,not_lt.mpr hc,OK,ERROR]

/-- Mutual exclusion over every run: at most one thread holds the mutex or has been handed it by
`sem_post`; while one holds it, every other thread's lock blocks and its trylock gets EBUSY; and
once nobody holds it or is handed it, any thread's trylock takes it. -/
theorem Reachable.mutual_exclusion {m : MutexState T} (hr : Reachable m) :
    (∀ t u, (m.pid = some t ∨ Granted m t) → (m.pid = some u ∨ Granted m u) → t = u) ∧
      (∀ o t, m.pid = some o → t ≠ o →
        (pthreadMutexLock m t).1 = none ∧ (pthreadMutexTrylock m t).1 = EBUSY) ∧
      (m.pid = none → (∀ t, ¬ Granted m t) →
        ∀ t, (pthreadMutexTrylock m t).1 = OK ∧ (pthreadMutexTrylock m t).2.pid = some t) := by
  have h := hr.mutexInv
  refine ⟨fun t u ht hu => ?_, fun o t ho hto => h.excludes ho hto, fun hp hng t => ?_⟩
  · rcases ht with ht | ht <;> rcases hu with hu | hu
    · exact Option.some.inj (ht.symm.trans hu)
    · exact absurd hu ((h.held t ht).2 u)
    · exact absurd ht ((h.held u hu).2 t)
    · exact ((h.handed t ht).2.2 u hu).symm
  · have hc : 0 < m.sem.semcount := by
      rw [h.free hp hng]
      decide
    simp [TizenRT.Pthread.pthreadMutexTrylock, TizenRT.Sem.semTrywait, hc]
    split_ifs <;> rfl

theorem mutual_exclusion_two_threads :
    let m := (pthreadMutexLock (pthreadMutexInit .normal fun _ : Fin 2 => 100) 0).2
    Reachable m ∧
      (∀ t u, (m.pid = some t ∨ Granted m t) → (m.pid = some u ∨ Granted m u) → t = u) ∧
      (∀ o t, m.pid = some o → t ≠ o →
        (pthreadMutexLock m t).1 = none ∧ (pthreadMutexTrylock m t).1 = EBUSY) ∧
      (m.pid = none → (∀ t, ¬ Granted m t) →
        ∀ t, (pthreadMutexTrylock m t).1 = OK ∧ (pthreadMutexTrylock m t).2.pid = some t) := by
  intro m
  have hr : Reachable m := .lock 0 (.init _ _) rfl
  exact ⟨hr, Reachable.mutual_exclusion hr⟩

theorem pthread_mutex_lock_returns_eintr {m : MutexState T} (hr : Reachable m) {o t : T}
    (ho : m.pid = some o) (hto : t ≠ o) :
    (pthreadMutexLock m t).1 = none ∧
      (pthreadMutexLockResume (sigDispatch (pthreadMutexLock m t).2 t) t).1 = some EINTR := by
  have h := hr.mutexInv
  have hblock := (h.excludes ho hto).1
  refine ⟨hblock,?_⟩
  have hc := (h.held o ho).1
  have hnot : ¬(m.type ≠ .normal ∧ m.pid = some t) := fun hh => hto (Option.some.inj (ho ▸ hh.2)).symm
  have hwait : (pthreadMutexLock m t).2.sem.wait t = .blocked := by
    simp [TizenRT.Pthread.pthreadMutexLock,hnot,TizenRT.Sem.semWait,not_lt.mpr hc]
  have herr : (sigDispatch (pthreadMutexLock m t).2 t).sem.pterrno t = EINTR := by
    simp [TizenRT.Pthread.sigDispatch,TizenRT.Sem.semWaitirq,hwait]
  rw [pthreadMutexLockResume_of_eintr herr]

theorem pthread_mutex_lock_returns_eintr_two_threads :
    let m := (pthreadMutexLock (pthreadMutexInit .normal fun _ : Fin 2 => 100) 0).2
    (pthreadMutexLock m 1).1 = none ∧
      (pthreadMutexLockResume (sigDispatch (pthreadMutexLock m 1).2 1) 1).1 = some EINTR :=
  pthread_mutex_lock_returns_eintr (.lock 0 (.init _ _) rfl) (o := 0) (by decide) (by decide)

end TizenRT.Pthread
