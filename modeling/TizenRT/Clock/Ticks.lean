import Mathlib.Tactic.Ring
import Mathlib.Tactic.Linarith

set_option autoImplicit false

/-!
Conversion of relative and absolute times to system clock ticks (clock_time2ticks,
clock_abstime2ticks). On the targets `time_t` is `uint32_t` and `long` has 32 bits, so a
timespec is a `UInt32` and an `Int32`, and every operation below is the C operation at the
width the source gives it: the `int64_t` sum of the long-long build, the unsigned product of
the other build, and the cast of the result to `int`, which keeps its low 32 bits.
-/

namespace TizenRT.Clock

def NSEC_PER_SEC : Int := 1000000000
def USEC_PER_SEC : Int := 1000000
def NSEC_PER_USEC : Int := 1000
def USEC_PER_TICK : Int := 10000
def NSEC_PER_TICK : Int := USEC_PER_TICK * NSEC_PER_USEC

structure Timespec where
  tv_sec : UInt32
  tv_nsec : Int32
  deriving DecidableEq, Repr

def clockTime2ticks (haveLongLong : Bool) (reltime : Timespec) : Int32 :=
  if haveLongLong then
    let relnsec : Int64 :=
      Int64.ofNat reltime.tv_sec.toNat * Int64.ofInt NSEC_PER_SEC + reltime.tv_nsec.toInt64
    ((relnsec + Int64.ofInt NSEC_PER_TICK - 1) / Int64.ofInt NSEC_PER_TICK).toInt32
  else
    let relusec : Int32 :=
      (reltime.tv_sec * UInt32.ofNat USEC_PER_SEC.toNat +
        ((reltime.tv_nsec + Int32.ofInt NSEC_PER_USEC - 1) / Int32.ofInt NSEC_PER_USEC).toUInt32).toInt32
    (relusec + Int32.ofInt USEC_PER_TICK - 1) / Int32.ofInt USEC_PER_TICK

def compareTimespec (a b : Timespec) : Int32 :=
  if a.tv_sec < b.tv_sec then -1
  else if a.tv_sec > b.tv_sec then 1
  else a.tv_nsec - b.tv_nsec

/-- clock_abstime2ticks for CLOCK_REALTIME, where `currtime` is what clock_gettime reads. -/
def clockAbstime2ticks (haveLongLong : Bool) (currtime abstime : Timespec) : Int32 :=
  if compareTimespec abstime currtime < 0 then -1
  else
    let nsec := abstime.tv_nsec - currtime.tv_nsec
    let sec := abstime.tv_sec - currtime.tv_sec
    let reltime : Timespec :=
      if nsec < 0 then ⟨sec - 1,nsec + Int32.ofInt NSEC_PER_SEC⟩ else ⟨sec,nsec⟩
    clockTime2ticks haveLongLong reltime

def Timespec.nsec (t : Timespec) : Int := t.tv_sec.toNat * NSEC_PER_SEC + t.tv_nsec.toInt

section Conversion

variable (reltime : Timespec)

theorem clockTime2ticks_true_toInt (h : 0 ≤ reltime.tv_nsec.toInt) :
    (clockTime2ticks true reltime).toInt =
      ((reltime.nsec + NSEC_PER_TICK - 1) / NSEC_PER_TICK).bmod (2 ^ 32) := by
  have hsec := reltime.tv_sec.toNat_lt
  have hnsec := reltime.tv_nsec.toInt_lt
  have hs : (Int64.ofNat reltime.tv_sec.toNat).toInt = reltime.tv_sec.toNat :=
    Int64.toInt_ofNat_of_lt (by simp at hsec ⊢; omega)
  have hsize : Int64.size = 2 ^ 64 := rfl
  have hrel : (reltime.nsec + NSEC_PER_TICK - 1).bmod Int64.size =
      reltime.nsec + NSEC_PER_TICK - 1 := by
    rw [hsize]
    apply Int.bmod_eq_of_le_mul_two <;>
      simp [Timespec.nsec,NSEC_PER_SEC,NSEC_PER_TICK,USEC_PER_TICK,NSEC_PER_USEC] <;> omega
  have htick : NSEC_PER_TICK.bmod Int64.size = NSEC_PER_TICK := by decide
  have hone : (1 : Int64).toInt = 1 := rfl
  have hdiv := Int64.toInt_div_of_ne_right
    (Int64.ofNat reltime.tv_sec.toNat * Int64.ofInt NSEC_PER_SEC + reltime.tv_nsec.toInt64 +
      Int64.ofInt NSEC_PER_TICK - 1) (Int64.ofInt NSEC_PER_TICK) (by decide)
  simp only [clockTime2ticks,if_true,Int64.toInt_toInt32,hdiv,Int64.toInt_sub,Int64.toInt_add,
    Int64.toInt_mul,Int64.toInt_ofInt,hs,hone,Int32.toInt_toInt64,Int.add_bmod_bmod,
    Int.bmod_add_bmod,Int.bmod_sub_bmod,Int.mul_bmod_bmod]
  rw [show (reltime.tv_sec.toNat : Int) * NSEC_PER_SEC + reltime.tv_nsec.toInt + NSEC_PER_TICK - 1 =
    reltime.nsec + NSEC_PER_TICK - 1 from rfl,hrel,htick,
    Int.tdiv_eq_ediv_of_nonneg (by
      simp [Timespec.nsec,NSEC_PER_SEC,NSEC_PER_TICK,USEC_PER_TICK,NSEC_PER_USEC]; omega)]

theorem clockTime2ticks_true_of_le (h : 0 ≤ reltime.tv_nsec.toInt)
    (hfit : (reltime.nsec + NSEC_PER_TICK - 1) / NSEC_PER_TICK ≤ 2 ^ 31 - 1) :
    (clockTime2ticks true reltime).toInt = (reltime.nsec + NSEC_PER_TICK - 1) / NSEC_PER_TICK := by
  have hnonneg : 0 ≤ (reltime.nsec + NSEC_PER_TICK - 1) / NSEC_PER_TICK := by
    simp only [Timespec.nsec,NSEC_PER_SEC,NSEC_PER_TICK,USEC_PER_TICK,NSEC_PER_USEC]
    omega
  rw [clockTime2ticks_true_toInt reltime h]
  exact Int.bmod_eq_of_le_mul_two (by omega) (by omega)

end Conversion

theorem le_ceil_ticks (nsec : Int) :
    nsec ≤ (nsec + NSEC_PER_TICK - 1) / NSEC_PER_TICK * NSEC_PER_TICK := by
  simp only [NSEC_PER_TICK,USEC_PER_TICK,NSEC_PER_USEC]
  omega

end TizenRT.Clock
