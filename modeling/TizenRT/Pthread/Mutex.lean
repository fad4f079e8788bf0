import TizenRT.Sem.Count

set_option autoImplicit false

/-!
pthread mutexes (pthread/) with CONFIG_PTHREAD_MUTEX_TYPES and the default robustness,
CONFIG_PTHREAD_MUTEX_ROBUST: `pthread_mutex_lock`, `pthread_mutex_trylock` and
`pthread_mutex_unlock` on one mutex by live threads, over the semaphore model of `Sem.Model`.

A mutex is its semaphore, `pid` (`none` for -1), `nlocks`, and whether it is on each thread's
list of held mutexes (`mhead`, linked through `flink`). With every thread alive the robust
`EOWNERDEAD` paths never run, and nothing sets `_PTHREAD_MFLAGS_INCONSISTENT`.
A `pthread_mutex_lock` that blocks in `sem_wait` is two steps, like `sem_wait` itself.
-/

namespace TizenRT.Pthread

open TizenRT.Sem TizenRT.Wdog

def EPERM : Int := 1
def EBUSY : Int := 16
def EDEADLK : Int := 35
def EOVERFLOW : Int := 75
def INT16_MAX : Nat := 32767

/-- PTHREAD_MUTEX_NORMAL (also DEFAULT), PTHREAD_MUTEX_ERRORCHECK, PTHREAD_MUTEX_RECURSIVE. -/
inductive MutexType where
  | normal
  | errorcheck
  | recursive
  deriving DecidableEq, Repr

structure MutexState (T : Type) where
  sem : SemState T
  type : MutexType
  pid : Option T
  nlocks : Nat
  mhead : T → Bool

variable {T : Type} [DecidableEq T]

/-- `pthread_mutex_init`: the semaphore with count 1, no holder. -/
def pthreadMutexInit (type : MutexType) (sched_priority : T → Nat) : MutexState T where
  sem := semInit 1 sched_priority
  type := type
  pid := none
  nlocks := 0
  mhead _ := false

/-- The semaphore taken: `pthread_mutex_add` in `pthread_mutex_take`, then `pid` and `nlocks`
in `pthread_mutex_lock`. -/
def lockTaken (m : MutexState T) (mypid : T) : MutexState T :=
  { m with mhead := Function.update m.mhead mypid true, pid := some mypid, nlocks := 1 }

/-- `pthread_mutex_lock` up to its return, or to its block in `sem_wait` (`none`). -/
def pthreadMutexLock (m : MutexState T) (mypid : T) : Option Int × MutexState T :=
  if m.type ≠ .normal ∧ m.pid = some mypid then
    if m.type = .recursive then
      if m.nlocks < INT16_MAX then (some OK,{ m with nlocks := m.nlocks + 1 })
      else (some EOVERFLOW,m)
    else (some EDEADLK,m)
  else
    let r := semWait m.sem mypid
    match r.1 with
    | some _ => (some OK,lockTaken { m with sem := r.2 } mypid)
    | none => (none,{ m with sem := r.2 })

/-- `pthread_takesemaphore` once a `sem_wait` that blocked has returned: OK, the error, or with
`intr` false and EINTR a new `sem_wait`. -/
def pthreadTakesemaphoreResume (s : SemState T) (t : T) (intr : Bool) : Option Int × SemState T :=
  let r := semWaitReturn s t
  if r.1 = OK then (some OK,r.2)
  else
    let errcode := r.2.pterrno t
    if intr ∨ errcode ≠ EINTR then (some errcode,r.2)
    else semWait r.2 t

/-- The rest of a `pthread_mutex_lock` that blocked: `pthread_mutex_take` passes `intr` true. -/
def pthreadMutexLockResume (m : MutexState T) (mypid : T) : Option Int × MutexState T :=
  let r := pthreadTakesemaphoreResume m.sem mypid true
  let m := { m with sem := r.2 }
  match r.1 with
  | some ret => if ret = OK then (some OK,lockTaken m mypid) else (some ret,m)
  | none => (none,m)

theorem pthreadMutexLockResume_of_handed {m : MutexState T} {t : T} (he : m.sem.pterrno t = 0) :
    pthreadMutexLockResume m t = (some OK,lockTaken { m with sem := (semWaitReturn m.sem t).2 } t) := by
  simp [pthreadMutexLockResume,pthreadTakesemaphoreResume,semWaitReturn,he,EINTR,ETIMEDOUT,OK]

theorem pthreadMutexLockResume_of_eintr {m : MutexState T} {t : T} (he : m.sem.pterrno t = EINTR) :
    pthreadMutexLockResume m t = (some EINTR,{ m with sem := (semWaitReturn m.sem t).2 }) := by
  simp [pthreadMutexLockResume,pthreadTakesemaphoreResume,semWaitReturn,he,EINTR,ETIMEDOUT,OK,ERROR]

def pthreadMutexTrylock (m : MutexState T) (mypid : T) : Int × MutexState T :=
  let r := semTrywait m.sem mypid
  let m := { m with sem := r.2 }
  if r.1 = OK then
    let m := { m with mhead := Function.update m.mhead mypid true, pid := some mypid }
    (OK,if m.type = .recursive then { m with nlocks := 1 } else m)
  else if m.type = .recursive ∧ m.pid = some mypid then
    if m.nlocks < INT16_MAX then (OK,{ m with nlocks := m.nlocks + 1 }) else (EOVERFLOW,m)
  else (EBUSY,m)

def pthreadMutexUnlock (m : MutexState T) (mypid : T) : Int × MutexState T :=
  if m.pid ≠ some mypid then (EPERM,m)
  else if m.type = .recursive ∧ m.nlocks > 1 then (OK,{ m with nlocks := m.nlocks - 1 })
  else
    (OK,{ m with
      pid := none
      nlocks := 0
      mhead := Function.update m.mhead mypid false
      sem := semPost m.sem })

/-- An unmasked signal to a thread: `sig_tcbdispatch` ends its semaphore wait with EINTR. -/
def sigDispatch (m : MutexState T) (stcb : T) : MutexState T :=
  { m with sem := semWaitirq m.sem stcb EINTR }

end TizenRT.Pthread
