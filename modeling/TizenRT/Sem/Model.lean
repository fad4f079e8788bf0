import TizenRT.Sched.Invariant

set_option autoImplicit false

/-!
One counting semaphore (semaphore/): `sem_wait`, `sem_trywait`, `sem_post`,
`sem_post_from_isr` and `sem_waitirq`, in the default build, without
CONFIG_PRIORITY_INHERITANCE, where the holder bookkeeping compiles to nothing.

The tasks blocked on the semaphore are the entries of g_waitingforsemaphore whose `waitsem` is
this semaphore, in the order of that list. `sched_addprioritized` puts a new entry of the
global list behind every entry of priority not below its own. The list is ordered by
priority, so among the entries of one semaphore the new one lands behind those of priority not
below its own: the walk `addPrioritized` makes over the semaphore's own entries, which is the
list the model keeps.

A `sem_wait` that blocks is two steps: the call, which blocks, and its return after
`sem_post` or `sem_waitirq` has restarted the task. The return reads the task's errno, which
`sem_wait` clears before blocking and `sem_waitirq` sets.
-/

namespace TizenRT.Sem

open TizenRT.Sched TizenRT.Wdog

def EINTR : Int := 4
def EAGAIN : Int := 11
def ETIMEDOUT : Int := 110
def SEM_VALUE_MAX : Int := 32767

inductive Wait where
  /-- not inside `sem_wait` on this semaphore -/
  | idle
  /-- TSTATE_WAIT_SEM with `waitsem` this semaphore -/
  | blocked
  /-- restarted by `sem_post` or `sem_waitirq`, not yet returned from `sem_wait` -/
  | restarted
  deriving DecidableEq, Repr

structure SemState (T : Type) where
  semcount : Int
  waiters : List T
  wait : T → Wait
  pterrno : T → Int
  /-- Read by `sched_addprioritized`; the semaphore calls never change it. -/
  sched_priority : T → Nat

variable {T : Type} [DecidableEq T]

def semInit (value : Int) (sched_priority : T → Nat) : SemState T where
  semcount := value
  waiters := []
  wait _ := .idle
  pterrno _ := 0
  sched_priority := sched_priority

/-- `sem_wait` by `rtcb` up to its return or its block: `some OK` when a count was free, `none`
when the task blocked. -/
def semWait (s : SemState T) (rtcb : T) : Option Int × SemState T :=
  if s.semcount > 0 then (some OK,{ s with semcount := s.semcount - 1 })
  else
    (none,{ s with
      semcount := s.semcount - 1
      waiters := addPrioritized s.sched_priority rtcb s.waiters
      wait := Function.update s.wait rtcb .blocked
      pterrno := Function.update s.pterrno rtcb 0 })

theorem semWait_of_pos {s : SemState T} {rtcb : T} (hc : 0 < s.semcount) :
    semWait s rtcb = (some OK,{ s with semcount := s.semcount - 1 }) :=
  if_pos hc

theorem semWait_of_nonpos {s : SemState T} {rtcb : T} (hc : s.semcount ≤ 0) :
    semWait s rtcb = (none,{ s with
      semcount := s.semcount - 1
      waiters := addPrioritized s.sched_priority rtcb s.waiters
      wait := Function.update s.wait rtcb .blocked
      pterrno := Function.update s.pterrno rtcb 0 }) :=
  if_neg (not_lt.mpr hc)

/-- The return of a `sem_wait` that blocked, once `rtcb` runs again. -/
def semWaitReturn (s : SemState T) (rtcb : T) : Int × SemState T :=
  let s' := { s with wait := Function.update s.wait rtcb .idle }
  if s.pterrno rtcb ≠ EINTR ∧ s.pterrno rtcb ≠ ETIMEDOUT then (OK,s') else (ERROR,s')

@[simp] theorem semWaitReturn_snd (s : SemState T) (rtcb : T) :
    (semWaitReturn s rtcb).2 = { s with wait := Function.update s.wait rtcb .idle } := by
  unfold semWaitReturn
  split_ifs <;> rfl

theorem semWaitReturn_fst (s : SemState T) (rtcb : T) : (semWaitReturn s rtcb).1 =
    if s.pterrno rtcb ≠ EINTR ∧ s.pterrno rtcb ≠ ETIMEDOUT then OK else ERROR := by
  unfold semWaitReturn
  split_ifs <;> rfl

def semTrywait (s : SemState T) (rtcb : T) : Int × SemState T :=
  if s.semcount > 0 then (OK,{ s with semcount := s.semcount - 1 })
  else (ERROR,{ s with pterrno := Function.update s.pterrno rtcb EAGAIN })

theorem semTrywait_of_pos {s : SemState T} {rtcb : T} (hc : 0 < s.semcount) :
    semTrywait s rtcb = (OK,{ s with semcount := s.semcount - 1 }) :=
  if_pos hc

theorem semTrywait_of_nonpos {s : SemState T} {rtcb : T} (hc : s.semcount ≤ 0) :
    semTrywait s rtcb = (ERROR,{ s with pterrno := Function.update s.pterrno rtcb EAGAIN }) :=
  if_neg (not_lt.mpr hc)

/-- `sem_post`: the count goes up, and when that leaves it non-positive the first task waiting
on the semaphore is restarted, holding the count. -/
def semPost (s : SemState T) : SemState T :=
  let s := { s with semcount := s.semcount + 1 }
  if s.semcount ≤ 0 then
    match s.waiters with
    | stcb :: rest => { s with waiters := rest, wait := Function.update s.wait stcb .restarted }
    | [] => s
  else s

theorem semPost_of_wake {s : SemState T} {stcb : T} {rest : List T} (hc : s.semcount + 1 ≤ 0)
    (hw : s.waiters = stcb :: rest) :
    semPost s = { s with
      semcount := s.semcount + 1
      waiters := rest
      wait := Function.update s.wait stcb .restarted } := by
  simp [semPost,hc,hw]

theorem semPost_of_pos {s : SemState T} (hc : 0 < s.semcount + 1) :
    semPost s = { s with semcount := s.semcount + 1 } := by
  simp [semPost,not_le.mpr hc]

/-- `sem_post_from_isr` differs from `sem_post` only in the holder bookkeeping, absent here. -/
def semPostFromIsr (s : SemState T) : SemState T := semPost s

/-- `sem_waitirq`: a signal (`EINTR`) or a timeout (`ETIMEDOUT`) ends the wait of `wtcb`, if it
still waits. -/
def semWaitirq (s : SemState T) (wtcb : T) (errcode : Int) : SemState T :=
  if s.wait wtcb = .blocked then
    { s with
      semcount := s.semcount + 1
      waiters := s.waiters.erase wtcb
      wait := Function.update s.wait wtcb .restarted
      pterrno := Function.update s.pterrno wtcb errcode }
  else s

end TizenRT.Sem
