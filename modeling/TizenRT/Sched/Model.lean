import Mathlib.Logic.Function.Basic
import Mathlib.Data.List.Basic
import TizenRT.Wdog.Model

set_option autoImplicit false

/-!
The task lists of the scheduler (sched/, arch/arm/src/armv7-r). Every TCB sits in the list
that `g_tasklisttable` assigns to its `task_state`; the doubly linked lists are Lean lists in
link order, `dq_rem` is `List.erase`, and the pointer walks of `sched_addprioritized` and
`sched_mergepending` are recursions over the list. A TCB keeps the fields the scheduler reads
(`sched_priority`, `task_state`, `lockcount`). Two ghost fields, `stamp` and `clock`, record
when each task last entered its list; no code reads them.
-/

namespace TizenRT.Sched

open TizenRT.Wdog

inductive TState where
  | taskInvalid
  | taskPending
  | taskReadytorun
  | taskRunning
  | taskInactive
  | waitSem
  | waitSig
  | waitMqnotempty
  | waitMqnotfull
  deriving DecidableEq, Repr

inductive TList where
  | pendingtasks
  | readytorun
  | inactivetasks
  | waitingforsemaphore
  | waitingforsignal
  | waitingformqnotempty
  | waitingformqnotfull
  deriving DecidableEq, Repr

structure Tasklist where
  list : Option TList
  prioritized : Bool

def gTasklisttable : TState → Tasklist
  | .taskInvalid => ⟨none,false⟩
  | .taskPending => ⟨some .pendingtasks,true⟩
  | .taskReadytorun => ⟨some .readytorun,true⟩
  | .taskRunning => ⟨some .readytorun,true⟩
  | .taskInactive => ⟨some .inactivetasks,false⟩
  | .waitSem => ⟨some .waitingforsemaphore,true⟩
  | .waitSig => ⟨some .waitingforsignal,false⟩
  | .waitMqnotempty => ⟨some .waitingformqnotempty,true⟩
  | .waitMqnotfull => ⟨some .waitingformqnotfull,true⟩

def TState.blocked : TState → Bool
  | .taskInactive | .waitSem | .waitSig | .waitMqnotempty | .waitMqnotfull => true
  | _ => false

def SCHED_PRIORITY_MIN : Int := 1
def SCHED_PRIORITY_MAX : Int := 255
def MAX_LOCK_COUNT : Nat := 127

@[ext] structure SchedState (T : Type) where
  sched_priority : T → Nat
  task_state : T → TState
  lockcount : T → Nat
  lists : TList → List T
  /-- Ghost: the value of `clock` when the task last entered a list. -/
  stamp : T → Nat
  clock : Nat

variable {T : Type}

namespace SchedState

def setList (s : SchedState T) (L : TList) (l : List T) : SchedState T :=
  { s with lists := Function.update s.lists L l }

section

variable (s : SchedState T) (L : TList) (l : List T)

@[simp] theorem setList_sched_priority : (s.setList L l).sched_priority = s.sched_priority := rfl
@[simp] theorem setList_task_state : (s.setList L l).task_state = s.task_state := rfl
@[simp] theorem setList_lockcount : (s.setList L l).lockcount = s.lockcount := rfl
@[simp] theorem setList_lists : (s.setList L l).lists = Function.update s.lists L l := rfl
@[simp] theorem setList_stamp : (s.setList L l).stamp = s.stamp := rfl
@[simp] theorem setList_clock : (s.setList L l).clock = s.clock := rfl

end

variable [DecidableEq T]

def setPriority (s : SchedState T) (t : T) (p : Nat) : SchedState T :=
  { s with sched_priority := Function.update s.sched_priority t p }

def setState (s : SchedState T) (t : T) (st : TState) : SchedState T :=
  { s with task_state := Function.update s.task_state t st }

def setLockcount (s : SchedState T) (t : T) (n : Nat) : SchedState T :=
  { s with lockcount := Function.update s.lockcount t n }

def restamp (s : SchedState T) (t : T) : SchedState T :=
  { s with stamp := Function.update s.stamp t s.clock, clock := s.clock + 1 }

variable (s : SchedState T) (t : T)

@[simp] theorem setPriority_sched_priority (p : Nat) :
    (s.setPriority t p).sched_priority = Function.update s.sched_priority t p := rfl
@[simp] theorem setPriority_task_state (p : Nat) : (s.setPriority t p).task_state = s.task_state := rfl
@[simp] theorem setPriority_lockcount (p : Nat) : (s.setPriority t p).lockcount = s.lockcount := rfl
@[simp] theorem setPriority_lists (p : Nat) : (s.setPriority t p).lists = s.lists := rfl
@[simp] theorem setPriority_stamp (p : Nat) : (s.setPriority t p).stamp = s.stamp := rfl
@[simp] theorem setPriority_clock (p : Nat) : (s.setPriority t p).clock = s.clock := rfl

@[simp] theorem setState_sched_priority (st : TState) :
    (s.setState t st).sched_priority = s.sched_priority := rfl
@[simp] theorem setState_task_state (st : TState) :
    (s.setState t st).task_state = Function.update s.task_state t st := rfl
@[simp] theorem setState_lockcount (st : TState) : (s.setState t st).lockcount = s.lockcount := rfl
@[simp] theorem setState_lists (st : TState) : (s.setState t st).lists = s.lists := rfl
@[simp] theorem setState_stamp (st : TState) : (s.setState t st).stamp = s.stamp := rfl
@[simp] theorem setState_clock (st : TState) : (s.setState t st).clock = s.clock := rfl

@[simp] theorem setLockcount_sched_priority (n : Nat) :
    (s.setLockcount t n).sched_priority = s.sched_priority := rfl
@[simp] theorem setLockcount_task_state (n : Nat) :
    (s.setLockcount t n).task_state = s.task_state := rfl
@[simp] theorem setLockcount_lockcount (n : Nat) :
    (s.setLockcount t n).lockcount = Function.update s.lockcount t n := rfl
@[simp] theorem setLockcount_lists (n : Nat) : (s.setLockcount t n).lists = s.lists := rfl
@[simp] theorem setLockcount_stamp (n : Nat) : (s.setLockcount t n).stamp = s.stamp := rfl
@[simp] theorem setLockcount_clock (n : Nat) : (s.setLockcount t n).clock = s.clock := rfl

@[simp] theorem restamp_sched_priority : (s.restamp t).sched_priority = s.sched_priority := rfl
@[simp] theorem restamp_task_state : (s.restamp t).task_state = s.task_state := rfl
@[simp] theorem restamp_lockcount : (s.restamp t).lockcount = s.lockcount := rfl
@[simp] theorem restamp_lists : (s.restamp t).lists = s.lists := rfl
@[simp] theorem restamp_stamp : (s.restamp t).stamp = Function.update s.stamp t s.clock := rfl
@[simp] theorem restamp_clock : (s.restamp t).clock = s.clock + 1 := rfl

end SchedState

variable [DecidableEq T]

def dqRem (s : SchedState T) (t : T) (L : TList) : SchedState T :=
  s.setList L ((s.lists L).erase t)

def dqAddfirst (s : SchedState T) (t : T) (L : TList) : SchedState T :=
  (s.restamp t).setList L (t :: s.lists L)

def dqAddlast (s : SchedState T) (t : T) (L : TList) : SchedState T :=
  (s.restamp t).setList L (s.lists L ++ [t])

/-- The walk of `sched_addprioritized`: past every entry of priority not below the new one. -/
def addPrioritized (prio : T → Nat) (tcb : T) : List T → List T
  | [] => [tcb]
  | next :: rest =>
    if prio tcb ≤ prio next then next :: addPrioritized prio tcb rest else tcb :: next :: rest

/-- `sched_addprioritized`; true when `tcb` became the head of the list. -/
def schedAddprioritized (s : SchedState T) (tcb : T) (L : TList) : SchedState T × Bool :=
  ((s.restamp tcb).setList L (addPrioritized s.sched_priority tcb (s.lists L)),
    match s.lists L with
    | [] => true
    | next :: _ => decide (s.sched_priority next < s.sched_priority tcb))

def flinkOf (t : T) : List T → Option T
  | [] => none
  | a :: rest => if a = t then rest.head? else flinkOf t rest

/-- `sched_removereadytorun`; true when the running task was removed. -/
def schedRemovereadytorun (s : SchedState T) (rtcb : T) : SchedState T × Bool :=
  let r : SchedState T × Bool :=
    match s.lists .readytorun with
    | r :: rest =>
      if r = rtcb then
        (match rest with
          | ntcb :: _ => s.setState ntcb .taskRunning
          | [] => s,true)
      else (s,false)
    | [] => (s,false)
  ((dqRem r.1 rtcb .readytorun).setState rtcb .taskInvalid,r.2)

/-- `sched_addreadytorun`; true when `btcb` became the running task. -/
def schedAddreadytorun (s : SchedState T) (btcb : T) : SchedState T × Bool :=
  match s.lists .readytorun with
  | rtcb :: _ =>
    if s.lockcount rtcb ≠ 0 ∧ s.sched_priority rtcb < s.sched_priority btcb then
      ((schedAddprioritized s btcb .pendingtasks).1.setState btcb .taskPending,false)
    else
      let r := schedAddprioritized s btcb .readytorun
      if r.2 then ((r.1.setState btcb .taskRunning).setState rtcb .taskReadytorun,true)
      else (r.1.setState btcb .taskReadytorun,false)
  | [] => ((schedAddprioritized s btcb .readytorun).1.setState btcb .taskRunning,true)

def schedAddblocked (s : SchedState T) (btcb : T) (task_state : TState) : SchedState T :=
  match (gTasklisttable task_state).list with
  | some L =>
    (if (gTasklisttable task_state).prioritized then (schedAddprioritized s btcb L).1
      else dqAddlast s btcb L).setState btcb task_state
  | none => s.setState btcb task_state

def schedRemoveblocked (s : SchedState T) (btcb : T) : SchedState T :=
  match (gTasklisttable (s.task_state btcb)).list with
  | some L => (dqRem s btcb L).setState btcb .taskInvalid
  | none => s.setState btcb .taskInvalid

/-- The loop of `sched_mergepending`. g_readytorun is `before ++ after` and the search
pointer `rtrtcb` is the head of `after`; each pending task goes in front of the first
ready task of lower priority, and the search resumes from it. -/
def mergeLoop (s : SchedState T) (before after : List T) (ret : Bool) :
    List T → SchedState T × List T × Bool
  | [] => (s,before ++ after,ret)
  | pndtcb :: rest =>
    let skipped := after.takeWhile (fun r => s.sched_priority pndtcb ≤ s.sched_priority r)
    let after' := after.dropWhile (fun r => s.sched_priority pndtcb ≤ s.sched_priority r)
    let s := s.restamp pndtcb
    if before ++ skipped = [] then
      let s := match after' with
        | rtrtcb :: _ => s.setState rtrtcb .taskReadytorun
        | [] => s
      mergeLoop (s.setState pndtcb .taskRunning) [] (pndtcb :: after') true rest
    else
      mergeLoop (s.setState pndtcb .taskReadytorun) (before ++ skipped) (pndtcb :: after') ret rest

def schedMergepending (s : SchedState T) : SchedState T × Bool :=
  let r := mergeLoop s [] (s.lists .readytorun) false (s.lists .pendingtasks)
  ((r.1.setList .readytorun r.2.1).setList .pendingtasks [],r.2.2)

/-- `up_block_task`: the task leaves g_readytorun for the list of `task_state`, and any
pending tasks are released. -/
def upBlockTask (s : SchedState T) (tcb : T) (task_state : TState) : SchedState T :=
  let s := schedAddblocked (schedRemovereadytorun s tcb).1 tcb task_state
  if s.lists .pendingtasks ≠ [] then (schedMergepending s).1 else s

def upUnblockTask (s : SchedState T) (tcb : T) : SchedState T :=
  (schedAddreadytorun (schedRemoveblocked s tcb) tcb).1

/-- `up_reprioritize_rtr`, for a ready-to-run task and a priority in range (its caller,
sched_setpriority, ensures both; the code panics otherwise). -/
def upReprioritizeRtr (s : SchedState T) (tcb : T) (priority : Nat) : SchedState T :=
  let r₁ := schedRemovereadytorun s tcb
  let r₂ := schedAddreadytorun (r₁.1.setPriority tcb priority) tcb
  if xor r₁.2 r₂.2 then
    if r₂.1.lists .pendingtasks ≠ [] then (schedMergepending r₂.1).1 else r₂.1
  else r₂.1

def schedSetpriority (s : SchedState T) (tcb : T) (sched_priority : Int) : Int × SchedState T :=
  if sched_priority < SCHED_PRIORITY_MIN ∨ sched_priority > SCHED_PRIORITY_MAX then (ERROR,s)
  else
    let p := sched_priority.toNat
    match s.task_state tcb with
    | .taskRunning =>
      match flinkOf tcb (s.lists .readytorun) with
      | some flink =>
        if p ≤ s.sched_priority flink then (OK,upReprioritizeRtr s tcb p)
        else (OK,s.setPriority tcb p)
      | none => (OK,s.setPriority tcb p)
    | .taskReadytorun =>
      match s.lists .readytorun with
      | rtcb :: _ =>
        if p > s.sched_priority rtcb then (OK,upReprioritizeRtr s tcb p)
        else (OK,(schedAddreadytorun ((schedRemovereadytorun s tcb).1.setPriority tcb p) tcb).1)
      | [] => (OK,s)
    | task_state =>
      match (gTasklisttable task_state).list with
      | some L =>
        if (gTasklisttable task_state).prioritized then
          (OK,(schedAddprioritized ((dqRem s tcb L).setPriority tcb p) tcb L).1)
        else (OK,s.setPriority tcb p)
      | none => (OK,s.setPriority tcb p)

/-- `thread_schedsetup` of a new TCB whose pid assignment succeeds: the task is queued at the
front of g_inactivetasks. -/
def threadSchedsetup (s : SchedState T) (tcb : T) (priority : Int) : Int × SchedState T :=
  if priority < SCHED_PRIORITY_MIN ∨ priority > SCHED_PRIORITY_MAX then (ERROR,s)
  else
    let s := (s.setPriority tcb priority.toNat).setState tcb .taskInvalid
    (OK,(dqAddfirst s tcb .inactivetasks).setState tcb .taskInactive)

/-- The lists as os_start leaves them: the idle task alone in g_readytorun, running, and no
other TCB in use. `sched_priority` holds 0 for the idle task. -/
def schedInit (idle : T) (sched_priority : T → Nat) : SchedState T where
  sched_priority := sched_priority
  task_state t := if t = idle then .taskRunning else .taskInvalid
  lockcount _ := 0
  lists L := if L = .readytorun then [idle] else []
  stamp _ := 0
  clock := 1

def schedLock (s : SchedState T) : SchedState T :=
  match s.lists .readytorun with
  | rtcb :: _ => s.setLockcount rtcb (s.lockcount rtcb + 1)
  | [] => s

def upReleasePending (s : SchedState T) : SchedState T := (schedMergepending s).1

def schedUnlock (s : SchedState T) : SchedState T :=
  match s.lists .readytorun with
  | rtcb :: _ =>
    let s := if s.lockcount rtcb ≠ 0 then s.setLockcount rtcb (s.lockcount rtcb - 1) else s
    if s.lockcount rtcb ≤ 0 then
      let s := s.setLockcount rtcb 0
      if s.lists .pendingtasks ≠ [] then upReleasePending s else s
    else s
  | [] => s

end TizenRT.Sched
