import TizenRT.Time.Model
import Mathlib.Order.Monotone.Basic

set_option autoImplicit false

/-!
The round trip `mktime (gmtime_r t)`. In the simplified build `gmtime_r` counts whole years
from the day number, so its date is the Gregorian one up to 2102-01-01, while `mktime` counts
a leap day every fourth year, 2100 included: the round trip gains a day from 2101-01-01 to
2102-01-01 and holds elsewhere. In the Julian build `gmtime_r` never takes the Gregorian branch.
-/

namespace TizenRT.Time

theorem shiftRight_one (x : Int) : x >>> (1 : Nat) = x / 2 := by
  rw [Int.shiftRight_eq_div_pow]
  rfl

theorem shiftRight_two (x : Int) : x >>> (2 : Nat) = x / 4 := by
  rw [Int.shiftRight_eq_div_pow]
  rfl

theorem timeT_of_lt {x : Int} (h0 : 0 ≤ x) (h : x < 2 ^ 32) : (timeT x : Int) = x := by
  rw [timeT,Int.emod_eq_of_lt h0 h,Int.toNat_of_nonneg h0]

theorem clockIsleapyear_eq (year : Int) :
    clockIsleapyear year = decide (year % 4 = 0 ∧ (year % 100 ≠ 0 ∨ year % 400 = 0)) := by
  have h : ∀ n : Int, year.tmod n = 0 ↔ year % n = 0 := fun n => by
    rw [← Int.dvd_iff_tmod_eq_zero,Int.dvd_iff_emod_eq_zero]
  simp only [clockIsleapyear,ne_eq,h]
  split_ifs <;> simp only [Bool.false_eq,Bool.true_eq,decide_eq_false_iff_not,decide_eq_true_eq] <;>
    omega

theorem clockIsleapyear_add_1970 {v : Nat} (hv : v < 230) :
    clockIsleapyear (v + 1970) = decide ((v + 2) % 4 = 0 ∧ v ≠ 130) := by
  rw [clockIsleapyear_eq,decide_eq_decide]
  omega

def yearLength (v : Nat) : Nat := if clockIsleapyear (v + 1970) then 366 else 365

def daysBeforeYear : Nat → Nat
  | 0 => 0
  | v + 1 => daysBeforeYear v + yearLength v

theorem yearLength_toNat {value : Int} (hv : 0 ≤ value) :
    yearLength value.toNat = if clockIsleapyear (value + 1970) then 366 else 365 := by
  rw [yearLength,Int.toNat_of_nonneg hv]

theorem daysBeforeYear_mono : Monotone daysBeforeYear :=
  monotone_nat_of_le_succ fun _ => Nat.le_add_right _ _

theorem le_iff_daysBeforeYear_le {v d : Nat} (hd : d < yearLength v) (w : Nat) :
    w ≤ v ↔ daysBeforeYear w ≤ daysBeforeYear v + d := by
  constructor
  · intro h
    exact le_trans (daysBeforeYear_mono h) (Nat.le_add_right _ _)
  · intro h
    by_contra hlt
    have := daysBeforeYear_mono (show v + 1 ≤ w by omega)
    simp only [daysBeforeYear] at this
    omega

theorem daysBeforeYear_eq {v : Nat} (hv : v ≤ 230) :
    daysBeforeYear v + (if 131 ≤ v then 1 else 0) = 365 * v + (v + 1) / 4 := by
  induction v with
  | zero => rfl
  | succ v ih =>
    have hl := clockIsleapyear_add_1970 (v := v) (by omega)
    have ih := ih (by omega)
    simp only [daysBeforeYear,yearLength,hl]
    split_ifs at * <;> simp_all <;> omega

theorem daysBeforeYear_of_lt {v : Nat} (hv : v < 131) : daysBeforeYear v = 365 * v + (v + 1) / 4 := by
  have := daysBeforeYear_eq (v := v) (by omega)
  rw [if_neg (by omega)] at this
  omega

theorem daysBeforeYear_of_ge {v : Nat} (h₁ : 131 ≤ v) (h₂ : v ≤ 230) :
    daysBeforeYear v + 1 = 365 * v + (v + 1) / 4 := by
  have := daysBeforeYear_eq h₂
  rw [if_pos h₁] at this
  omega

theorem daysBeforeYear_131 : daysBeforeYear 131 = 47847 := by
  have := daysBeforeYear_of_ge (v := 131) le_rfl (by omega)
  omega

theorem daysBeforeYear_132 : daysBeforeYear 132 = 48212 := by
  have := daysBeforeYear_of_ge (v := 132) (by omega) (by omega)
  omega

theorem clockUtc2calendarYears_spec (value : Int) (days : Nat) (hv : 0 ≤ value) :
    ∃ v : Nat, value ≤ v ∧ ∃ d < yearLength v, clockUtc2calendarYears value days =
      ((v : Int),d,clockIsleapyear (v + 1970)) ∧
      daysBeforeYear v + d = daysBeforeYear value.toNat + days := by
  fun_induction clockUtc2calendarYears value days with
  | case1 value days leapyear tmp hge ih =>
    have htmp : tmp = yearLength value.toNat := by
      simp only [tmp,leapyear,yearLength_toNat hv,dite_eq_ite]
    obtain ⟨v,hle,d,hd,heq,hsum⟩ := ih (by omega)
    refine ⟨v,by omega,d,hd,heq,?_⟩
    rw [hsum,show (value + 1).toNat = value.toNat + 1 by omega,daysBeforeYear]
    omega
  | case2 value days leapyear tmp hlt =>
    have htmp : tmp = yearLength value.toNat := by
      simp only [tmp,leapyear,yearLength_toNat hv,dite_eq_ite]
    refine ⟨value.toNat,by omega,days,by omega,?_,rfl⟩
    rw [Int.toNat_of_nonneg hv]

@[simp]
theorem clockDaysbeforemonth_zero (leapyear : Bool) : clockDaysbeforemonth 0 leapyear = 0 := by
  cases leapyear <;> rfl

theorem clockDaysbeforemonth_twelve (leapyear : Bool) :
    clockDaysbeforemonth 12 leapyear = if leapyear then 366 else 365 := by
  cases leapyear <;> rfl

theorem clockDaysbeforemonth_mono (leapyear : Bool) {a b : Int} (ha : 0 ≤ a) (hab : a ≤ b)
    (hb : b ≤ 12) : clockDaysbeforemonth a leapyear ≤ clockDaysbeforemonth b leapyear := by
  have table : ∀ a : Nat, a < 13 → ∀ b : Nat, b < 13 → a ≤ b →
      clockDaysbeforemonth a leapyear ≤ clockDaysbeforemonth b leapyear := by
    cases leapyear <;> decide
  obtain ⟨a,rfl⟩ := Int.eq_ofNat_of_zero_le ha
  obtain ⟨b,rfl⟩ := Int.eq_ofNat_of_zero_le (le_trans ha hab)
  exact table a (by omega) b (by omega) (by omega)

theorem clockUtc2calendarMonth_spec (days : Nat) (leapyear : Bool) (min max : Int)
    (hmin : 0 ≤ min) (hmax : max ≤ 11) (hlt : min < max)
    (hlo : clockDaysbeforemonth min leapyear ≤ days)
    (hhi : days < clockDaysbeforemonth (max + 1) leapyear) :
    let v := clockUtc2calendarMonth days leapyear min max
    min ≤ v ∧ v ≤ max ∧ clockDaysbeforemonth v leapyear ≤ days ∧
      days < clockDaysbeforemonth (v + 1) leapyear := by
  fun_induction clockUtc2calendarMonth days leapyear min max with
  | case1 min max value _ hgt hlt' ih =>
    have hv : value = (min + max) / 2 := shiftRight_one (min + max)
    obtain ⟨h₁,h₂,h₃,h₄⟩ := ih hmin (by omega) hlt' hlo (by rwa [Int.sub_add_cancel])
    exact ⟨h₁,by omega,h₃,h₄⟩
  | case2 min max value _ hgt hge =>
    have hv : value = (min + max) / 2 := shiftRight_one (min + max)
    have hmono := clockDaysbeforemonth_mono leapyear (a := value) (b := min + 1) (by omega)
      (by omega) (by omega)
    exact ⟨le_refl min,hlt.le,hlo,by omega⟩
  | case3 min max value hgt hle =>
    have hv : value = (min + max) / 2 := shiftRight_one (min + max)
    exact ⟨by omega,by omega,by omega,hgt⟩
  | case4 min max value hle hlt' ih =>
    have hv : value = (min + max) / 2 := shiftRight_one (min + max)
    obtain ⟨h₁,h₂,h₃,h₄⟩ := ih (by omega) hmax hlt' (by omega) hhi
    exact ⟨by omega,h₂,h₃,h₄⟩
  | case5 min max value hle hge =>
    have hv : value = (min + max) / 2 := shiftRight_one (min + max)
    have hmono := clockDaysbeforemonth_mono leapyear (a := max + 1) (b := value + 1 + 1)
      (by omega) (by omega) (by omega)
    exact ⟨by omega,by omega,by omega,by omega⟩

theorem clockUtc2calendarSimple_spec (days : Nat) :
    ∃ v : Nat, ∃ d < yearLength v,
      daysBeforeYear v + d = daysBeforeYear (4 * (days / 1461)) + days % 1461 ∧
      clockUtc2calendarSimple days =
        (1970 + (v : Int),clockUtc2calendarMonth d (clockIsleapyear (v + 1970)) 0 11 + 1,
          d - clockDaysbeforemonth (clockUtc2calendarMonth d (clockIsleapyear (v + 1970)) 0 11)
            (clockIsleapyear (v + 1970)) + 1) := by
  obtain ⟨v,-,d,hd,hyears,hsum⟩ := clockUtc2calendarYears_spec
    ((days / (4 * 365 + 1)) <<< 2 : Nat) (days - days / (4 * 365 + 1) * (4 * 365 + 1)) (by omega)
  have h4 : ((((days / (4 * 365 + 1)) <<< 2 : Nat) : Int)).toNat = 4 * (days / 1461) := by
    rw [Int.toNat_natCast,Nat.shiftLeft_eq]
    omega
  refine ⟨v,d,hd,by rw [hsum,h4]; omega,?_⟩
  simp only [clockUtc2calendarSimple,hyears]

@[simp]
theorem gmtimeR_tm_year (b : TimeBuild) (t : Nat) :
    (gmtimeR b t).tm_year = (clockUtc2calendar b (t / SEC_PER_DAY)).1 - 1900 := rfl

@[simp]
theorem gmtimeR_tm_mon (b : TimeBuild) (t : Nat) :
    (gmtimeR b t).tm_mon = (clockUtc2calendar b (t / SEC_PER_DAY)).2.1 - 1 := rfl

@[simp]
theorem gmtimeR_tm_mday (b : TimeBuild) (t : Nat) :
    (gmtimeR b t).tm_mday = (clockUtc2calendar b (t / SEC_PER_DAY)).2.2 := rfl

theorem gmtimeR_clock (b : TimeBuild) (t : Nat) :
    0 ≤ (gmtimeR b t).tm_sec ∧ (gmtimeR b t).tm_sec < 60 ∧
    0 ≤ (gmtimeR b t).tm_min ∧ (gmtimeR b t).tm_min < 60 ∧
    0 ≤ (gmtimeR b t).tm_hour ∧ (gmtimeR b t).tm_hour < 24 ∧
    ∀ E : Int, ((E * 24 + (gmtimeR b t).tm_hour) * 60 + (gmtimeR b t).tm_min) * 60 +
      (gmtimeR b t).tm_sec = E * SEC_PER_DAY + (t % SEC_PER_DAY : Nat) := by
  dsimp only [gmtimeR]
  simp only [SEC_PER_DAY,SEC_PER_HOUR,SEC_PER_MIN]
  refine ⟨by omega,by omega,by omega,by omega,by omega,by omega,fun E => ?_⟩
  omega

def monthLength (year month : Int) : Int :=
  clockDaysbeforemonth (month + 1) (clockIsleapyear year) -
    clockDaysbeforemonth month (clockIsleapyear year)

def Tm.Valid (tm : Tm) : Prop :=
  0 ≤ tm.tm_sec ∧ tm.tm_sec < 60 ∧ 0 ≤ tm.tm_min ∧ tm.tm_min < 60 ∧ 0 ≤ tm.tm_hour ∧
    tm.tm_hour < 24 ∧ 0 ≤ tm.tm_mon ∧ tm.tm_mon < 12 ∧ 1 ≤ tm.tm_mday ∧
    tm.tm_mday ≤ monthLength (tm.tm_year + 1900) tm.tm_mon

instance (tm : Tm) : Decidable tm.Valid := inferInstanceAs (Decidable (_ ∧ _))

/-- The simplified `gmtime_r` gives a valid broken-down time for every `t`. -/
theorem gmtimeR_simple_valid (t : Nat) : (gmtimeR .simple t).Valid := by
  obtain ⟨hs0,hs,hm0,hm,hh0,hh,-⟩ := gmtimeR_clock .simple t
  obtain ⟨v,d,hd,-,hdate⟩ := clockUtc2calendarSimple_spec (t / SEC_PER_DAY)
  have hd12 : (d : Int) < clockDaysbeforemonth (11 + 1) (clockIsleapyear (v + 1970)) := by
    rw [yearLength] at hd
    rw [show (11 + 1 : Int) = 12 from rfl,clockDaysbeforemonth_twelve]
    cases hl : clockIsleapyear ((v : Int) + 1970) <;>
      simp only [hl,Bool.false_eq_true,if_false,if_true] at hd ⊢ <;> omega
  obtain ⟨h₁,h₂,h₃,h₄⟩ := clockUtc2calendarMonth_spec d (clockIsleapyear (v + 1970)) 0 11
    le_rfl (by omega) (by omega) (by simp) hd12
  refine ⟨hs0,hs,hm0,hm,hh0,hh,?_⟩
  simp only [gmtimeR_tm_year,gmtimeR_tm_mon,gmtimeR_tm_mday,clockUtc2calendar,hdate,monthLength,
    show 1970 + (v : Int) - 1900 + 1900 = v + 1970 by omega,Int.add_sub_cancel]
  omega

theorem mktime_simple_of_gmtimeR (t : Nat) :
    ∃ v : Nat, ∃ d < yearLength v,
      daysBeforeYear v + d = daysBeforeYear (4 * (t / SEC_PER_DAY / 1461)) + t / SEC_PER_DAY % 1461 ∧
      (mktime .simple (gmtimeR .simple t) : Int) =
        timeT ((365 * v + (v + 1) / 4 + d) * SEC_PER_DAY + (t % SEC_PER_DAY : Nat)) := by
  obtain ⟨v,d,hd,hsum,hdate⟩ := clockUtc2calendarSimple_spec (t / SEC_PER_DAY)
  refine ⟨v,d,hd,hsum,?_⟩
  obtain ⟨-,-,-,-,-,-,hclock⟩ := gmtimeR_clock .simple t
  simp only [mktime]
  rw [hclock]
  congr 2
  simp only [gmtimeR_tm_year,gmtimeR_tm_mon,gmtimeR_tm_mday,clockUtc2calendar,hdate,shiftRight_two,
    show 1970 + (v : Int) - 1900 + 1900 = v + 1970 by omega,Int.add_sub_cancel]
  simp only [SEC_PER_DAY,SEC_PER_HOUR,SEC_PER_MIN]
  omega

theorem mktime_gmtimeR_simple (t : Nat) (ht : t < 2 ^ 32) :
    mktime .simple (gmtimeR .simple t) =
      if daysBeforeYear 131 * SEC_PER_DAY ≤ t ∧ t < (daysBeforeYear 132 + 1) * SEC_PER_DAY then
        t + SEC_PER_DAY
      else t := by
  obtain ⟨v,d,hd,hsum,hmk⟩ := mktime_simple_of_gmtimeR t
  have hD : t / SEC_PER_DAY ≤ 49710 := by unfold SEC_PER_DAY SEC_PER_HOUR SEC_PER_MIN; omega
  have hN : daysBeforeYear v + d + (if 33 ≤ t / SEC_PER_DAY / 1461 then 1 else 0) =
      t / SEC_PER_DAY := by
    rw [hsum]
    by_cases hk : 33 ≤ t / SEC_PER_DAY / 1461
    · have := daysBeforeYear_of_ge (v := 4 * (t / SEC_PER_DAY / 1461)) (by omega) (by omega)
      rw [if_pos hk]
      omega
    · rw [daysBeforeYear_of_lt (by omega),if_neg hk]
      omega
  have hv : v < 230 := by
    by_contra hv
    have := (le_iff_daysBeforeYear_le hd 230).mp (by omega)
    have := daysBeforeYear_of_ge (v := 230) (by omega) le_rfl
    split_ifs at hN <;> omega
  have h131 := le_iff_daysBeforeYear_le hd 131
  rw [daysBeforeYear_131] at h131
  have hyear := daysBeforeYear_eq hv.le
  rw [daysBeforeYear_131,daysBeforeYear_132]
  refine Int.ofNat_inj.mp ?_
  rw [hmk]
  unfold SEC_PER_DAY SEC_PER_HOUR SEC_PER_MIN at *
  split_ifs at hN hyear ⊢ <;> rw [timeT_of_lt (by omega) (by omega)] <;> omega

theorem mktime_gmtimeR_simple_2101 :
    mktime .simple (gmtimeR .simple 4133980800) = 4133980800 + SEC_PER_DAY := by
  rw [mktime_gmtimeR_simple 4133980800 (by decide),daysBeforeYear_131,daysBeforeYear_132,
    if_pos (by decide)]

theorem clockUtc2calendar_julian (utc : Nat) (h : utc < 2 ^ 32 - 141427) :
    clockUtc2calendar .julian utc = clockUtc2julian ((utc + JD_OF_EPOCH) % 2 ^ 32) := by
  rw [clockUtc2calendar,if_neg]
  simp only [timeT,GREG_DUTC]
  omega

/-- For every `time_t` the Julian build's `gmtime_r` takes its date from the Julian calendar. -/
theorem gmtimeR_julian_date (t : Nat) (ht : t < 2 ^ 32) :
    (clockUtc2calendar .julian (t / SEC_PER_DAY)) =
      clockUtc2julian ((t / SEC_PER_DAY + JD_OF_EPOCH) % 2 ^ 32) :=
  clockUtc2calendar_julian _ (by simp only [SEC_PER_DAY,SEC_PER_HOUR,SEC_PER_MIN]; omega)

theorem gmtimeR_julian_date_epoch :
    (0 : Nat) < 2 ^ 32 ∧ clockUtc2calendar .julian (0 / SEC_PER_DAY) =
      clockUtc2julian ((0 / SEC_PER_DAY + JD_OF_EPOCH) % 2 ^ 32) :=
  ⟨by decide,gmtimeR_julian_date 0 (by decide)⟩

/- The epoch itself: `gmtime_r` gives 1969-12-19, which `mktime` takes 13 days back. -/
example : gmtimeR .julian 0 = ⟨0,0,0,19,11,69⟩ ∧
    mktime .julian (gmtimeR .julian 0) = 2 ^ 32 - 13 * SEC_PER_DAY := by
  decide

section Calendar2utc

variable {year month day : Int}

theorem clockIsleapyear_of_le_2099 (hy : 1970 ≤ year) (hy' : year ≤ 2099) :
    clockIsleapyear year = decide (year % 4 = 0) := by
  rw [clockIsleapyear_eq,decide_eq_decide]
  omega

theorem clockGregorian2utc_eq (hy : 1970 ≤ year) (hy' : year ≤ 2099) (hm : 1 ≤ month) (hm' : month ≤ 12)
    (hd : 1 ≤ day) (hd' : day ≤ 31) :
    (clockGregorian2utc year month day : Int) = JD_OF_EPOCH + (year - 1970) * 365 + (year - 1969) / 4 +
      clockDaysbeforemonth (month - 1) (clockIsleapyear year) + day - 1 := by
  have hcent : 3 * ((year + 4900 + -1) / 100) / 4 = 51 ∧ 3 * ((year + 4900) / 100) / 4 = 51 := by omega
  rw [clockIsleapyear_of_le_2099 hy hy']
  unfold clockGregorian2utc
  simp (disch := omega) only [Int.tdiv_eq_ediv_of_nonneg]
  have hjan : 1461 * (year + 4800 + -1) / 4 = 365 * (year + 4799) + (year - 1969) / 4 + 1692 := by omega
  have hmar : 1461 * (year + 4800) / 4 =
      365 * (year + 4800) + (year - 1969) / 4 + 1692 + if year % 4 = 0 then 1 else 0 := by
    have h1 : 1461 * (year + 4800) / 4 = 365 * (year + 4800) + (year + 4800) / 4 := by omega
    have h2 : (year + 4800) / 4 = (year - 1969) / 4 + 1692 + if year % 4 = 0 then 1 else 0 := by
      split <;> omega
    omega
  by_cases h4 : year % 4 = 0 <;>
    interval_cases month <;> simp [clockDaysbeforemonth,gDaysbeforemonth,JD_OF_EPOCH,hcent.1,hcent.2,h4] <;>
    rw [timeT_of_lt (by omega) (by omega)] <;> omega

theorem clockCalendar2utc_gregorian_eq (hy : 1970 ≤ year) (hy' : year ≤ 2099) (hm : 1 ≤ month)
    (hm' : month ≤ 12) (hd : 1 ≤ day) (hd' : day ≤ 31) :
    (clockCalendar2utc false year month day : Int) = (year - 1970) * 365 + (year - 1969) / 4 +
      clockDaysbeforemonth (month - 1) (clockIsleapyear year) + day - 1 := by
  have hjd := clockGregorian2utc_eq hy hy' hm hm' hd hd'
  have hdbm := clockDaysbeforemonth_mono (clockIsleapyear year) (le_refl 0) (show 0 ≤ month - 1 by omega)
    (by omega)
  have hdbm' := clockDaysbeforemonth_mono (clockIsleapyear year) (show 0 ≤ month - 1 by omega)
    (show month - 1 ≤ 12 by omega) (le_refl 12)
  rw [clockDaysbeforemonth_zero] at hdbm
  rw [clockDaysbeforemonth_twelve] at hdbm'
  have hdy : (month - 1).tdiv 12 = 0 := by
    rw [Int.tdiv_eq_ediv_of_nonneg (by omega)]
    omega
  unfold clockCalendar2utc
  simp only [hdy,Int.mul_zero,Int.sub_zero,Int.add_zero,show ¬ month < 1 by omega,if_false,
    Bool.false_eq_true]
  rw [if_neg (fun h => h.1),timeT_of_lt (by omega) (by split at hdbm' <;> omega),hjd]
  omega

theorem clockCalendar2utcSimple_eq (hy : 1970 ≤ year) (hy' : year ≤ 2099) (hm : 1 ≤ month)
    (hm' : month ≤ 12) (hd : 1 ≤ day) (hd' : day ≤ 31) :
    (clockCalendar2utcSimple year month day : Int) = (year - 1970) * 365 + (year - 1969) / 4 +
      clockDaysbeforemonth month (clockIsleapyear year) + day - 1 := by
  have hdbm := clockDaysbeforemonth_mono (clockIsleapyear year) (le_refl 0) (show 0 ≤ month by omega) hm'
  have hdbm' := clockDaysbeforemonth_mono (clockIsleapyear year) (show 0 ≤ month by omega) hm' (le_refl 12)
  rw [clockDaysbeforemonth_zero] at hdbm
  rw [clockDaysbeforemonth_twelve] at hdbm'
  unfold clockCalendar2utcSimple
  rw [shiftRight_two,timeT_of_lt (by omega) (by split at hdbm' <;> omega)]

/-- The simplified `clock_calendar2utc` takes the 1-based month of its callers as an index into a
table of 0-based months: from 1970 to 2099 it counts the whole of the month named as past. -/
theorem clockCalendar2utcSimple_month_ahead (hy : 1970 ≤ year) (hy' : year ≤ 2099) (hm : 1 ≤ month)
    (hm' : month ≤ 12) (hd : 1 ≤ day) (hd' : day ≤ 31) :
    (clockCalendar2utcSimple year month day : Int) =
      clockCalendar2utc false year month day + monthLength year (month - 1) := by
  rw [clockCalendar2utcSimple_eq hy hy' hm hm' hd hd',clockCalendar2utc_gregorian_eq hy hy' hm hm' hd hd',
    monthLength,Int.sub_add_cancel]
  omega

end Calendar2utc

theorem clockCalendar2utcSimple_month_ahead_2000 :
    ((1970 : Int) ≤ 2000 ∧ (2000 : Int) ≤ 2099 ∧ (1 : Int) ≤ 1 ∧ (1 : Int) ≤ 12 ∧ (1 : Int) ≤ 1 ∧ (1 : Int) ≤ 31) ∧
      (clockCalendar2utcSimple 2000 1 1 : Int) = clockCalendar2utc false 2000 1 1 + monthLength 2000 (1 - 1) ∧
      clockCalendar2utc false 2000 1 1 = 10957 ∧ monthLength 2000 (1 - 1) = 31 :=
  ⟨by decide,clockCalendar2utcSimple_month_ahead (by decide) (by decide) (by decide) (by decide) (by decide)
    (by decide),by decide,by decide⟩

/-- With CONFIG_TIME_EXTENDED the simplified `gmtime_r` counts `tm_yday` from 1: it is one more than
the index `d` from 0 of the day in its year, so January 1 gives 1 and December 31 of a leap year
366. -/
theorem gmtimeR_tm_yday_from_one (t : Nat) :
    ∃ v : Nat, ∃ d < yearLength v,
      daysBeforeYear v + d = daysBeforeYear (4 * (t / SEC_PER_DAY / 1461)) + t / SEC_PER_DAY % 1461 ∧
      (gmtimeR .simple t).tm_year = 70 + v ∧ (gmtimeRExtended .simple t).tm_yday = d + 1 := by
  obtain ⟨v,d,hd,hsum,hdate⟩ := clockUtc2calendarSimple_spec (t / SEC_PER_DAY)
  have hyear : (gmtimeR .simple t).tm_year = 70 + v := by
    simp only [gmtimeR_tm_year,clockUtc2calendar,hdate]
    omega
  refine ⟨v,d,hd,hsum,hyear,?_⟩
  have hleap : (gmtimeR .simple t).tm_year + 1900 = v + 1970 := by omega
  simp only [gmtimeRExtended,hleap]
  simp only [gmtimeR_tm_mon,gmtimeR_tm_mday,clockUtc2calendar,hdate,Int.add_sub_cancel]
  omega

example : (gmtimeRExtended .gregorian 0).tm_yday = 1 ∧ (gmtimeRExtended .gregorian 0).tm = ⟨0,0,0,1,0,70⟩ := by
  decide

end TizenRT.Time
