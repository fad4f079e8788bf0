import TizenRT.Clock.Ticks
import TizenRT.Wdog.Refinement

set_option autoImplicit false

/-!
A POSIX timer over its watchdog (timer_settime, timer_timeout, timer_restart). The timer's
`pt_wdog` is the only watchdog of the list here: by the refinement of the watchdog queue the
others do not move the time at which it fires (`Reachable.shared_queue`). A tick runs wd_timer
and, when the watchdog fires, timer_timeout, which sends one notification and restarts a
periodic timer.
-/

namespace TizenRT.Timer

open TizenRT.Clock TizenRT.Wdog

def TIMER_ABSTIME : Int32 := 1

structure Itimerspec where
  it_value : Timespec
  it_interval : Timespec
  deriving DecidableEq, Repr

structure PosixTimer where
  wd : WdState Unit
  pt_delay : Int32
  pt_last : Int32

def timerCreate : PosixTimer := ⟨⟨[],fun _ => false⟩,0,0⟩

def timerRestart (timer : PosixTimer) : PosixTimer :=
  if timer.pt_delay ≠ 0 then
    { timer with pt_last := timer.pt_delay, wd := (wdStart timer.wd () timer.pt_delay).2 }
  else timer

def timerTimeout (timer : PosixTimer) : PosixTimer := timerRestart timer

def timerSettime (haveLongLong : Bool) (currtime : Timespec) (timer : PosixTimer) (flags : Int32)
    (value : Itimerspec) : Int × PosixTimer :=
  let timer := { timer with wd := (wdCancel timer.wd ()).2 }
  if value.it_value.tv_sec ≤ 0 ∧ value.it_value.tv_nsec ≤ 0 then (OK,timer)
  else
    let pt_delay :=
      if value.it_interval.tv_sec > 0 ∨ value.it_interval.tv_nsec > 0 then
        clockTime2ticks haveLongLong value.it_interval
      else 0
    let timer := { timer with pt_delay }
    let delay :=
      if flags &&& TIMER_ABSTIME ≠ 0 then clockAbstime2ticks haveLongLong currtime value.it_value
      else clockTime2ticks haveLongLong value.it_value
    let delay := if delay ≤ 0 then timer.pt_delay else delay
    if delay > 0 then
      let r := wdStart timer.wd () delay
      (r.1,{ timer with pt_last := delay, wd := r.2 })
    else (OK,timer)

def timerTick (timer : PosixTimer) : PosixTimer × Bool :=
  let r := wdTimer timer.wd
  if r.1 = [] then ({ timer with wd := r.2 },false)
  else (timerTimeout { timer with wd := r.2 },true)

def timerTicks (timer : PosixTimer) : Nat → PosixTimer × Nat
  | 0 => (timer,0)
  | n + 1 =>
    let r := timerTick timer
    let rs := timerTicks r.1 n
    (rs.1,(if r.2 then 1 else 0) + rs.2)

def WdWf (wd : WdState Unit) : Prop :=
  (wd.activelist = [] ∧ wd.active () = false) ∨
    ∃ d, 0 < d ∧ wd.activelist = [((),d)] ∧ wd.active () = true

theorem wdCancel_disarms {wd : WdState Unit} (h : WdWf wd) :
    (wdCancel wd ()).2.activelist = [] ∧ (wdCancel wd ()).2.active () = false := by
  rcases h with ⟨hl,ha⟩ | ⟨d,-,hl,ha⟩
  · simp [wdCancel,hl,ha]
  · simp [wdCancel,hl,ha,wdRemove]

theorem wdStart_of_disarmed {wd : WdState Unit} (hl : wd.activelist = [])
    (ha : wd.active () = false) {delay : Int32} (hd : 0 ≤ delay) :
    (wdStart wd () delay).1 = OK ∧
      (wdStart wd () delay).2.activelist = [((),min (delay.toInt + 1) INT_MAX)] ∧
      (wdStart wd () delay).2.active () = true := by
  simp [wdStart,Int32.not_lt.mpr hd,hl,ha,wdDelay_toInt delay hd]

theorem wdWf_wdStart_of_disarmed {wd : WdState Unit} (hl : wd.activelist = [])
    (ha : wd.active () = false) (delay : Int32) : WdWf (wdStart wd () delay).2 := by
  by_cases hd : delay < 0
  · simp [wdStart,hd,WdWf,hl,ha]
  · have hd' : 0 ≤ delay := Int32.not_lt.mp hd
    obtain ⟨-,hl',ha'⟩ := wdStart_of_disarmed hl ha hd'
    have hpos : 0 < min (delay.toInt + 1) INT_MAX := by
      have := Int32.le_iff_toInt_le.mp hd'
      simp [INT_MAX] at this ⊢
      omega
    exact Or.inr ⟨_,hpos,hl',ha'⟩

theorem wdTimer_of_nil {wd : WdState Unit} (h : wd.activelist = []) : wdTimer wd = ([],wd) := by
  simp [wdTimer,h]

theorem wdTimer_of_gt_one {wd : WdState Unit} {d : Int} (h : wd.activelist = [((),d)])
    (hd : 1 < d) : (wdTimer wd).1 = [] ∧ (wdTimer wd).2.activelist = [((),d - 1)] ∧
      (wdTimer wd).2.active () = wd.active () := by
  have hnf : ¬ d - 1 ≤ 0 := by omega
  simp [wdTimer,h,wdExpiration,hnf]

theorem wdTimer_of_le_one {wd : WdState Unit} {d : Int} (h : wd.activelist = [((),d)])
    (hd : d ≤ 1) : (wdTimer wd).1 = [()] ∧ (wdTimer wd).2.activelist = [] ∧
      (wdTimer wd).2.active () = false := by
  have hf : d - 1 ≤ 0 := by omega
  simp [wdTimer,h,wdExpiration,hf]

theorem wdWf_timerRestart {timer : PosixTimer} (hl : timer.wd.activelist = [])
    (ha : timer.wd.active () = false) : WdWf (timerRestart timer).wd := by
  unfold timerRestart
  split_ifs
  · exact wdWf_wdStart_of_disarmed hl ha _
  · exact Or.inl ⟨hl,ha⟩

theorem wdWf_timerTick {timer : PosixTimer} (hwf : WdWf timer.wd) : WdWf (timerTick timer).1.wd := by
  rcases hwf with ⟨hl,ha⟩ | ⟨d,hd,hl,ha⟩
  · simp [timerTick,wdTimer_of_nil hl,WdWf,hl,ha]
  · by_cases h1 : 1 < d
    · obtain ⟨hf,hl',ha'⟩ := wdTimer_of_gt_one hl h1
      simp only [timerTick,hf,if_true]
      exact Or.inr ⟨d - 1,by omega,hl',ha'.trans ha⟩
    · obtain ⟨hf,hl',ha'⟩ := wdTimer_of_le_one hl (by omega)
      simp only [timerTick,hf,List.cons_ne_nil,if_false,timerTimeout]
      exact wdWf_timerRestart hl' ha'

theorem timerSettime_wd (haveLongLong : Bool) (currtime : Timespec) (timer : PosixTimer)
    (flags : Int32) (value : Itimerspec) :
    (timerSettime haveLongLong currtime timer flags value).2.wd = (wdCancel timer.wd ()).2 ∨
      ∃ delay, (timerSettime haveLongLong currtime timer flags value).2.wd =
        (wdStart (wdCancel timer.wd ()).2 () delay).2 := by
  simp only [timerSettime]
  split_ifs <;> first | exact Or.inl rfl | exact Or.inr ⟨_,rfl⟩

theorem wdWf_timerSettime (haveLongLong : Bool) (currtime : Timespec) {timer : PosixTimer}
    (hwf : WdWf timer.wd) (flags : Int32) (value : Itimerspec) :
    WdWf (timerSettime haveLongLong currtime timer flags value).2.wd := by
  obtain ⟨hl,ha⟩ := wdCancel_disarms hwf
  rcases timerSettime_wd haveLongLong currtime timer flags value with h | ⟨delay,h⟩
  · rw [h]
    exact Or.inl ⟨hl,ha⟩
  · rw [h]
    exact wdWf_wdStart_of_disarmed hl ha delay

/-- The timers a program reaches from timer_create by timer_settime calls and ticks. -/
inductive Reachable (haveLongLong : Bool) : PosixTimer → Prop where
  | create : Reachable haveLongLong timerCreate
  | settime {timer : PosixTimer} (currtime : Timespec) (flags : Int32) (value : Itimerspec) :
      Reachable haveLongLong timer →
        Reachable haveLongLong (timerSettime haveLongLong currtime timer flags value).2
  | tick {timer : PosixTimer} :
      Reachable haveLongLong timer → Reachable haveLongLong (timerTick timer).1

theorem Reachable.wdWf {haveLongLong : Bool} {timer : PosixTimer}
    (r : Reachable haveLongLong timer) : WdWf timer.wd := by
  induction r with
  | create => exact Or.inl ⟨rfl,rfl⟩
  | settime currtime flags value _ ih => exact wdWf_timerSettime haveLongLong currtime ih flags value
  | tick _ ih => exact wdWf_timerTick ih

theorem timerTick_wd (timer : PosixTimer) :
    (timerTick timer).1.wd = (wdTimer timer.wd).2 ∨
      ∃ delay, (timerTick timer).1.wd = (wdStart (wdTimer timer.wd).2 () delay).2 := by
  simp only [timerTick,timerTimeout,timerRestart]
  split_ifs <;> first | exact Or.inl rfl | exact Or.inr ⟨_,rfl⟩

theorem Reachable.wd_run {haveLongLong : Bool} {timer : PosixTimer}
    (r : Reachable haveLongLong timer) :
    ∃ own : List (WdOp Unit), timer.wd = (wdRun ⟨[],fun _ => false⟩ own).1 := by
  induction r with
  | create => exact ⟨[],rfl⟩
  | @settime timer currtime flags value _ ih =>
    obtain ⟨own,h⟩ := ih
    rcases timerSettime_wd haveLongLong currtime timer flags value with h' | ⟨delay,h'⟩
    · exact ⟨own ++ [.cancel ()],by rw [h',wdRun_append,← h]; rfl⟩
    · exact ⟨own ++ [.cancel (),.start () delay],by rw [h',wdRun_append,← h]; rfl⟩
  | @tick timer _ ih =>
    obtain ⟨own,h⟩ := ih
    rcases timerTick_wd timer with h' | ⟨delay,h'⟩
    · exact ⟨own ++ [.timer],by rw [h',wdRun_append,← h]; rfl⟩
    · exact ⟨own ++ [.timer,.start () delay],by rw [h',wdRun_append,← h]; rfl⟩

/-- The timer's watchdog in the system's queue, which it shares with any other watchdogs: along
every run of the queue whose operations on `pt_wdog` are those the timer made, `wd_gettime` of
`pt_wdog` answers what it answers here, and `pt_wdog` has fired as often. -/
theorem Reachable.shared_queue {haveLongLong : Bool} {timer : PosixTimer}
    (r : Reachable haveLongLong timer) :
    ∃ own : List (WdOp Unit), timer.wd = (wdRun ⟨[],fun _ => false⟩ own).1 ∧
      ∀ {W : Type} [DecidableEq W] (w : W) (ops : List (WdOp W)), ops.filterMap (WdOp.only w) = own →
        wdGettime (wdRun ⟨[],fun _ => false⟩ ops).1 w = wdGettime timer.wd () ∧
          (wdRun ⟨[],fun _ => false⟩ ops).2.flatten.count w =
            (wdRun ⟨[],fun _ => false⟩ own).2.flatten.count () := by
  obtain ⟨own,h⟩ := r.wd_run
  refine ⟨own,h,fun w ops hops => ?_⟩
  have hshared := wdRun_only w ops
  rw [hops] at hshared
  rw [h]
  exact hshared

theorem Reachable.shared_queue_one_second :
    ∃ own : List (WdOp Unit),
      (timerSettime true ⟨0, 0⟩ timerCreate 0 ⟨⟨1, 0⟩, ⟨0, 0⟩⟩).2.wd = (wdRun ⟨[],fun _ => false⟩ own).1 ∧
        ∀ {W : Type} [DecidableEq W] (w : W) (ops : List (WdOp W)), ops.filterMap (WdOp.only w) = own →
          wdGettime (wdRun ⟨[],fun _ => false⟩ ops).1 w =
              wdGettime (timerSettime true ⟨0, 0⟩ timerCreate 0 ⟨⟨1, 0⟩, ⟨0, 0⟩⟩).2.wd () ∧
            (wdRun ⟨[],fun _ => false⟩ ops).2.flatten.count w =
              (wdRun ⟨[],fun _ => false⟩ own).2.flatten.count () :=
  Reachable.shared_queue (.settime _ _ _ .create)

theorem timerTicks_count_succ (timer : PosixTimer) (n : Nat) :
    (timerTicks timer (n + 1)).2 =
      (if (timerTick timer).2 then 1 else 0) + (timerTicks (timerTick timer).1 n).2 := rfl

theorem timerTicks_of_disarmed {timer : PosixTimer} (h : timer.wd.activelist = []) (n : Nat) :
    (timerTicks timer n).2 = 0 := by
  induction n with
  | zero => rfl
  | succ n ih =>
    have htick : timerTick timer = (timer,false) := by simp [timerTick,wdTimer_of_nil h]
    rw [timerTicks_count_succ,htick]
    simp [ih]

theorem timerTicks_of_armed {timer : PosixTimer} {d : Int} (h : timer.wd.activelist = [((),d)])
    (n : Nat) (hn : n < d) : (timerTicks timer n).2 = 0 := by
  induction n generalizing timer d with
  | zero => rfl
  | succ n ih =>
    obtain ⟨hf,hl,-⟩ := wdTimer_of_gt_one h (by omega)
    have htick : timerTick timer = ({ timer with wd := (wdTimer timer.wd).2 },false) := by
      simp [timerTick,hf]
    rw [timerTicks_count_succ,htick]
    simpa using ih hl (by omega)

theorem timerTicks_of_armed_fires {timer : PosixTimer} {d : Int} (h : timer.wd.activelist = [((),d)])
    (hd : 0 < d) : 0 < (timerTicks timer d.toNat).2 := by
  obtain ⟨n,hn⟩ : ∃ n : Nat, d = n + 1 := ⟨(d - 1).toNat,by omega⟩
  subst hn
  induction n generalizing timer with
  | zero =>
    obtain ⟨hf,-,-⟩ := wdTimer_of_le_one h le_rfl
    simp [timerTicks,timerTick,hf]
  | succ n ih =>
    obtain ⟨hf,hl,-⟩ := wdTimer_of_gt_one h (by omega)
    have htick : timerTick timer = ({ timer with wd := (wdTimer timer.wd).2 },false) := by
      simp [timerTick,hf]
    have hnat : ((n + 1 : Nat) + 1 : Int).toNat = (n + 1) + 1 := by omega
    rw [hnat]
    rw [timerTicks_count_succ,htick]
    have := @ih { timer with wd := (wdTimer timer.wd).2 } (by rw [hl]; push_cast; ring_nf)
    simpa using this

section Settime

variable (haveLongLong : Bool) (currtime : Timespec) {timer : PosixTimer} (hwf : WdWf timer.wd)
  (value : Itimerspec)
include hwf

theorem timerSettime_relative {flags : Int32} (hflags : flags &&& TIMER_ABSTIME = 0) {n : Int}
    (hconv : (clockTime2ticks haveLongLong value.it_value).toInt = n) (hn : 0 < n)
    (hset : ¬ (value.it_value.tv_sec ≤ 0 ∧ value.it_value.tv_nsec ≤ 0)) :
    (timerSettime haveLongLong currtime timer flags value).1 = OK ∧
      (timerSettime haveLongLong currtime timer flags value).2.wd.activelist =
        [((),min (n + 1) INT_MAX)] := by
  obtain ⟨hl,ha⟩ := wdCancel_disarms hwf
  have hflag : ¬ (flags &&& TIMER_ABSTIME ≠ 0) := by simp [hflags]
  have hgt : clockTime2ticks haveLongLong value.it_value > 0 :=
    Int32.lt_iff_toInt_lt.mpr (by simp [hconv,hn])
  have hle : ¬ clockTime2ticks haveLongLong value.it_value ≤ 0 := Int32.not_le.mpr hgt
  obtain ⟨hok,hlist,-⟩ := wdStart_of_disarmed hl ha (Int32.le_of_lt hgt)
  rw [hconv] at hlist
  unfold timerSettime
  dsimp only
  rw [if_neg hset,if_neg hflag,if_neg hle,if_pos hgt]
  exact ⟨hok,hlist⟩

/-- With TIMER_ABSTIME, a one-shot timer whose time has already passed is left disarmed:
timer_settime succeeds and no tick ever sends its notification. -/
theorem timerSettime_abstime_past {flags : Int32} (hflags : flags &&& TIMER_ABSTIME ≠ 0)
    (hset : ¬ (value.it_value.tv_sec ≤ 0 ∧ value.it_value.tv_nsec ≤ 0))
    (hpast : compareTimespec value.it_value currtime < 0)
    (hone : ¬ (value.it_interval.tv_sec > 0 ∨ value.it_interval.tv_nsec > 0)) :
    (timerSettime haveLongLong currtime timer flags value).1 = OK ∧
      ∀ n, (timerTicks (timerSettime haveLongLong currtime timer flags value).2 n).2 = 0 := by
  obtain ⟨hl,-⟩ := wdCancel_disarms hwf
  have habs : clockAbstime2ticks haveLongLong currtime value.it_value = -1 := by
    simp [clockAbstime2ticks,hpast]
  unfold timerSettime
  dsimp only
  rw [if_neg hset,if_neg hone,if_pos hflags,habs,if_pos (show (-1 : Int32) ≤ 0 by decide),
    if_neg (show ¬ (0 : Int32) > 0 by decide)]
  exact ⟨rfl,fun n => timerTicks_of_disarmed hl n⟩

/-- ... and a relative one sends its notification once the ticks the watchdog was queued for
have passed. -/
theorem timerSettime_relative_fires {flags : Int32} (hflags : flags &&& TIMER_ABSTIME = 0) {n : Int}
    (hconv : (clockTime2ticks haveLongLong value.it_value).toInt = n) (hn : 0 < n)
    (hset : ¬ (value.it_value.tv_sec ≤ 0 ∧ value.it_value.tv_nsec ≤ 0)) :
    0 < (timerTicks (timerSettime haveLongLong currtime timer flags value).2 (min (n + 1) INT_MAX).toNat).2 := by
  obtain ⟨-,hlist⟩ := timerSettime_relative haveLongLong currtime hwf value hflags hconv hn hset
  have hpos : 0 < min (n + 1) INT_MAX := lt_min (by omega) (by decide)
  exact timerTicks_of_armed_fires hlist hpos

end Settime

theorem timerSettime_abstime_past_five :
    WdWf timerCreate.wd ∧ (1 : Int32) &&& TIMER_ABSTIME ≠ 0 ∧
      ¬ ((5 : UInt32) ≤ 0 ∧ (0 : Int32) ≤ 0) ∧ compareTimespec ⟨5, 0⟩ ⟨10, 0⟩ < 0 ∧
      ¬ ((0 : UInt32) > 0 ∨ (0 : Int32) > 0) ∧
      (timerSettime true ⟨10, 0⟩ timerCreate 1 ⟨⟨5, 0⟩, ⟨0, 0⟩⟩).1 = OK ∧
      ∀ n, (timerTicks (timerSettime true ⟨10, 0⟩ timerCreate 1 ⟨⟨5, 0⟩, ⟨0, 0⟩⟩).2 n).2 = 0 := by
  have hwf : WdWf timerCreate.wd := (Reachable.create : Reachable true timerCreate).wdWf
  have hflags : (1 : Int32) &&& TIMER_ABSTIME ≠ 0 := by decide
  have hset : ¬ ((5 : UInt32) ≤ 0 ∧ (0 : Int32) ≤ 0) := by decide
  have hpast : compareTimespec ⟨5, 0⟩ ⟨10, 0⟩ < 0 := by decide
  have hone : ¬ ((0 : UInt32) > 0 ∨ (0 : Int32) > 0) := by decide
  exact ⟨hwf,hflags,hset,hpast,hone,timerSettime_abstime_past true ⟨10, 0⟩ hwf ⟨⟨5, 0⟩, ⟨0, 0⟩⟩ hflags hset hpast hone⟩

theorem timerSettime_relative_fires_one_second :
    WdWf timerCreate.wd ∧ (0 : Int32) &&& TIMER_ABSTIME = 0 ∧
      (clockTime2ticks true ⟨1, 0⟩).toInt = 100 ∧ (0 : Int) < 100 ∧ ¬ ((1 : UInt32) ≤ 0 ∧ (0 : Int32) ≤ 0) ∧
      0 < (timerTicks (timerSettime true ⟨0, 0⟩ timerCreate 0 ⟨⟨1, 0⟩, ⟨0, 0⟩⟩).2 (min (100 + 1) INT_MAX).toNat).2 := by
  have hwf : WdWf timerCreate.wd := (Reachable.create : Reachable true timerCreate).wdWf
  have hflags : (0 : Int32) &&& TIMER_ABSTIME = 0 := by decide
  have hconv : (clockTime2ticks true ⟨1, 0⟩).toInt = 100 := by decide
  have hset : ¬ ((1 : UInt32) ≤ 0 ∧ (0 : Int32) ≤ 0) := by decide
  exact ⟨hwf,hflags,hconv,by decide,hset,
    timerSettime_relative_fires true ⟨0, 0⟩ hwf ⟨⟨1, 0⟩, ⟨0, 0⟩⟩ hflags hconv (by decide) hset⟩

/-- In the long-long build, a relative time whose tick count fits in an `int` sends no
notification before that time has elapsed. -/
theorem timerSettime_relative_not_early {timer : PosixTimer} (hr : Reachable true timer)
    (currtime : Timespec) {flags : Int32} (hflags : flags &&& TIMER_ABSTIME = 0)
    (value : Itimerspec) (hpos : 0 < value.it_value.nsec)
    (hnsec : 0 ≤ value.it_value.tv_nsec.toInt)
    (hfit : (value.it_value.nsec + NSEC_PER_TICK - 1) / NSEC_PER_TICK ≤ INT_MAX)
    (k : Nat) (hk : k * NSEC_PER_TICK < value.it_value.nsec) :
    (timerTicks (timerSettime true currtime timer flags value).2 k).2 = 0 := by
  have hconv := clockTime2ticks_true_of_le value.it_value hnsec (by simpa [INT_MAX] using hfit)
  have hceil := le_ceil_ticks value.it_value.nsec
  have hset : ¬ (value.it_value.tv_sec ≤ 0 ∧ value.it_value.tv_nsec ≤ 0) := by
    rintro ⟨hs,hn⟩
    have hs' := UInt32.le_iff_toNat_le.mp hs
    have hn' := Int32.le_iff_toInt_le.mp hn
    simp only [Timespec.nsec,NSEC_PER_SEC,UInt32.toNat_zero,Int32.toInt_zero] at hpos hs' hn'
    omega
  have hlt : (k : Int) < (value.it_value.nsec + NSEC_PER_TICK - 1) / NSEC_PER_TICK := by
    by_contra hge
    have : (value.it_value.nsec + NSEC_PER_TICK - 1) / NSEC_PER_TICK * NSEC_PER_TICK ≤
        k * NSEC_PER_TICK :=
      Int.mul_le_mul_of_nonneg_right (not_lt.mp hge) (by decide)
    omega
  obtain ⟨-,hlist⟩ := timerSettime_relative true currtime hr.wdWf value hflags hconv
    (by omega) hset
  exact timerTicks_of_armed hlist k (by simp only [INT_MAX] at hfit ⊢; omega)

theorem timerSettime_relative_not_early_one_second :
    let value : Itimerspec := ⟨⟨1, 0⟩, ⟨0, 0⟩⟩
    Reachable true timerCreate ∧ (0 : Int32) &&& TIMER_ABSTIME = 0 ∧ 0 < value.it_value.nsec ∧
      0 ≤ value.it_value.tv_nsec.toInt ∧
      (value.it_value.nsec + NSEC_PER_TICK - 1) / NSEC_PER_TICK ≤ INT_MAX ∧
      ((99 : Nat) : Int) * NSEC_PER_TICK < value.it_value.nsec ∧
      (timerTicks (timerSettime true ⟨0, 0⟩ timerCreate 0 value).2 99).2 = 0 := by
  intro value
  have hflags : (0 : Int32) &&& TIMER_ABSTIME = 0 := by decide
  have hpos : 0 < value.it_value.nsec := by decide
  have hnsec : 0 ≤ value.it_value.tv_nsec.toInt := by decide
  have hfit : (value.it_value.nsec + NSEC_PER_TICK - 1) / NSEC_PER_TICK ≤ INT_MAX := by decide
  have hk : ((99 : Nat) : Int) * NSEC_PER_TICK < value.it_value.nsec := by decide
  exact ⟨.create, hflags, hpos, hnsec, hfit, hk,
    timerSettime_relative_not_early .create ⟨0, 0⟩ hflags value hpos hnsec hfit 99 hk⟩

/-- Out of that range the count wraps: 42949673 s is 4294967300 ticks, converted to 4 in the
long-long build, and 4295 s is 429500 ticks, converted to 4 in the other; either timer sends
its notification at the fifth tick. -/
theorem timer_settime_wraps_relative_delay :
    let value₁ : Itimerspec := ⟨⟨42949673,0⟩,⟨0,0⟩⟩
    let value₂ : Itimerspec := ⟨⟨4295,0⟩,⟨0,0⟩⟩
    value₁.it_value.nsec = 4294967300 * NSEC_PER_TICK ∧
      (timerTicks (timerSettime true ⟨0,0⟩ timerCreate 0 value₁).2 5).2 = 1 ∧
      value₂.it_value.nsec = 429500 * NSEC_PER_TICK ∧
      (timerTicks (timerSettime false ⟨0,0⟩ timerCreate 0 value₂).2 5).2 = 1 := by
  decide

end TizenRT.Timer
