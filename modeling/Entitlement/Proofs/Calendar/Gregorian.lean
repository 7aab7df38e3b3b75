import Entitlement.Proofs.Calendar
import Mathlib.Data.Int.ConditionallyCompleteOrder
import Mathlib.Data.Int.SuccPred
import Mathlib.Order.SuccPred.IntervalSucc
import Mathlib.Tactic.IntervalCases

/-!
The rules of the Gregorian calendar.

The date of a day is one that the calendar has, the date of the next day is the next date of the
calendar, and every date of the calendar is the date of its day. The dates are told by the rules for
months and leap years alone; the years that begin in March are those of the computation.
-/

namespace Entitlement.Date

/-- Every fourth year is a leap year, but of those that end a century only every fourth. -/
def IsLeap (year : Int) : Prop := year % 4 = 0 ∧ (year % 100 = 0 → year % 400 = 0)

instance (year : Int) : Decidable (IsLeap year) := inferInstanceAs (Decidable (_ ∧ _))

def daysIn (year : Int) (month : Nat) : Nat :=
  match month with
  | 2 => if IsLeap year then 29 else 28
  | 4 | 6 | 9 | 11 => 30
  | _ => 31

structure OnCalendar (d : Date) : Prop where
  one_le_month : 1 ≤ d.month
  month_le : d.month ≤ 12
  one_le_day : 1 ≤ d.day
  day_le : d.day ≤ daysIn d.year d.month

instance (d : Date) : Decidable d.OnCalendar :=
  decidable_of_iff (1 ≤ d.month ∧ d.month ≤ 12 ∧ 1 ≤ d.day ∧ d.day ≤ daysIn d.year d.month)
    ⟨fun ⟨h1, h12, hday, hle⟩ => ⟨h1, h12, hday, hle⟩,
      fun ⟨h1, h12, hday, hle⟩ => ⟨h1, h12, hday, hle⟩⟩

def next (d : Date) : Date :=
  if d.day < daysIn d.year d.month then ⟨d.year, d.month, d.day + 1⟩
  else if d.month < 12 then ⟨d.year, d.month + 1, 1⟩
  else ⟨d.year + 1, 1, 1⟩

variable {d e : Date} {y : Int} {m : Nat}

/-! ### Years that begin in March -/

def marchYear (y : Int) (m : Nat) : Int := y - if m ≤ 2 then 1 else 0

def sinceMarch (m : Nat) : Int := if m ≤ 2 then m + 9 else m - 3

def monthSinceMarch (k : Int) : Nat := (if k < 10 then k + 3 else k - 9).toNat

def daysBeforeMonth (k : Int) : Int := (153 * k + 2) / 5

def daysBeforeYear (y : Int) : Int := 365 * y + y / 4 - y / 100 + y / 400

lemma toDay_eq (d : Date) : d.toDay = daysBeforeYear (marchYear d.year d.month) +
    daysBeforeMonth (sinceMarch d.month) + d.day - 719469 := by
  simp only [toDay, daysBeforeYear, daysBeforeMonth, marchYear, sinceMarch]
  omega

lemma daysBeforeYear_mono : Monotone daysBeforeYear := fun y y' h => by
  unfold daysBeforeYear
  omega

lemma daysBeforeMonth_mono : Monotone daysBeforeMonth := fun k k' h => by
  unfold daysBeforeMonth
  omega

lemma daysBeforeYear_add_era (y era : Int) :
    daysBeforeYear (y + era * 400) = daysBeforeYear y + 146097 * era := by
  have h4 : (y + era * 400) / 4 = y / 4 + 100 * era := by omega
  have h100 : (y + era * 400) / 100 = y / 100 + 4 * era := by omega
  have h400 : (y + era * 400) / 400 = y / 400 + era := by omega
  unfold daysBeforeYear
  omega

/-- No century of the first era ends with a leap day. -/
lemma daysBeforeYear_of_lt (h0 : 0 ≤ y) (h1 : y < 400) :
    daysBeforeYear y = 365 * y + y / 4 - y / 100 := by
  unfold daysBeforeYear
  omega

/-- The last month of a year that begins in March ends with the year, -/
lemma daysIn_february (y : Int) : (daysIn y 2 : Int) =
    daysBeforeYear y - daysBeforeYear (y - 1) - daysBeforeMonth 11 := by
  simp only [daysIn, daysBeforeYear, daysBeforeMonth]
  by_cases h : IsLeap y
  · rw [if_pos h]
    unfold IsLeap at h
    omega
  · rw [if_neg h]
    unfold IsLeap at h
    omega

/-- and every other month ends where the next one begins. -/
lemma daysIn_of_ne_february (h1 : 1 ≤ m) (h12 : m ≤ 12) (h2 : m ≠ 2) (y : Int) :
    (daysIn y m : Int) = daysBeforeMonth (sinceMarch m + 1) - daysBeforeMonth (sinceMarch m) := by
  rcases Nat.lt_or_gt_of_ne h2 with h | h
  · interval_cases m
    rfl
  · interval_cases m <;> rfl

lemma daysIn_pos (y : Int) (m : Nat) : 1 ≤ daysIn y m := by
  unfold daysIn
  split
  · split <;> decide
  · decide
  · decide
  · decide
  · decide
  · decide

/-! ### One day after the other -/

lemma OnCalendar.next (h : d.OnCalendar) : d.next.OnCalendar := by
  unfold Date.next
  split_ifs with hday hmonth
  · exact ⟨h.one_le_month, h.month_le, Nat.le_add_left 1 d.day, hday⟩
  · exact ⟨Nat.le_add_left 1 d.month, hmonth, le_rfl, daysIn_pos _ _⟩
  · exact ⟨le_rfl, Nat.le_add_left 1 11, le_rfl, daysIn_pos _ _⟩

lemma toDay_next (h : d.OnCalendar) : d.next.toDay = d.toDay + 1 := by
  obtain ⟨y, m, n⟩ := d
  obtain ⟨h1, h12, -, hle⟩ := h
  dsimp only at *
  unfold Date.next
  dsimp only
  rw [toDay_eq, toDay_eq]
  split_ifs with hday hmonth
  · -- the next day of the month
    push_cast
    omega
  · -- the next month: a year that begins in March ends with February
    by_cases h2 : m = 2
    · subst h2
      have hdays := daysIn_february y
      have hyear : marchYear y 2 = y - 1 := rfl
      have hyear' : marchYear y 3 = y := Int.sub_zero y
      have hmonth' : daysBeforeMonth (sinceMarch 2) = daysBeforeMonth 11 := rfl
      have hmarch : daysBeforeMonth (sinceMarch 3) = 0 := rfl
      dsimp only
      rw [hyear, hyear', hmonth', hmarch]
      omega
    · have hdays := daysIn_of_ne_february h1 h12 h2 y
      have hyear : marchYear y (m + 1) = marchYear y m := by
        unfold marchYear
        omega
      have hnext : sinceMarch (m + 1) = sinceMarch m + 1 := by
        unfold sinceMarch
        omega
      dsimp only
      rw [hyear, hnext]
      omega
  · -- the next year, in the middle of one that begins in March
    obtain rfl : m = 12 := by omega
    have hdays := daysIn_of_ne_february h1 h12 (by decide) y
    have hyear : marchYear (y + 1) 1 = marchYear y 12 := by
      unfold marchYear
      omega
    have hnext : sinceMarch 1 = sinceMarch 12 + 1 := rfl
    dsimp only
    rw [hyear, hnext]
    omega

/-! ### Dates and days -/

lemma OnCalendar.day_mem_month (h : d.OnCalendar) :
    daysBeforeMonth (sinceMarch d.month) + d.day ∈
      Set.Ioc (daysBeforeMonth (sinceMarch d.month))
        (daysBeforeMonth (sinceMarch d.month + 1)) := by
  obtain ⟨h1, h12, hday, hle⟩ := h
  refine ⟨by omega, ?_⟩
  by_cases h2 : d.month = 2
  · have hdays : daysIn d.year d.month ≤ 29 := by
      rw [h2, daysIn]
      split <;> decide
    rw [h2]
    have hmonth : daysBeforeMonth (sinceMarch 2 + 1) - daysBeforeMonth (sinceMarch 2) = 30 := rfl
    omega
  · have hdays := daysIn_of_ne_february h1 h12 h2 d.year
    omega

lemma OnCalendar.day_mem_year (h : d.OnCalendar) :
    daysBeforeYear (marchYear d.year d.month) + (daysBeforeMonth (sinceMarch d.month) + d.day) ∈
      Set.Ioc (daysBeforeYear (marchYear d.year d.month))
        (daysBeforeYear (marchYear d.year d.month + 1)) := by
  obtain ⟨hfirst, hmonth⟩ := h.day_mem_month
  obtain ⟨h1, h12, hday, hle⟩ := h
  have hbefore : 0 ≤ daysBeforeMonth (sinceMarch d.month) := by
    unfold daysBeforeMonth sinceMarch
    omega
  refine ⟨by omega, ?_⟩
  by_cases h2 : d.month = 2
  · have hdays := daysIn_february d.year
    rw [h2] at hle ⊢
    have hyear : marchYear d.year 2 = d.year - 1 := rfl
    have hlast : daysBeforeMonth (sinceMarch 2) = daysBeforeMonth 11 := rfl
    rw [hyear, hlast, Int.sub_add_cancel]
    omega
  · have hend : daysBeforeMonth (sinceMarch d.month + 1) ≤ daysBeforeMonth 11 := by
      apply daysBeforeMonth_mono
      unfold sinceMarch
      omega
    have hlast : daysBeforeMonth 11 = 337 := rfl
    have hyear (y : Int) : 365 ≤ daysBeforeYear (y + 1) - daysBeforeYear y := by
      unfold daysBeforeYear
      omega
    have hthis := hyear (marchYear d.year d.month)
    omega

lemma eq_of_mem_step {f : Int → Int} (hf : Monotone f) {a b x : Int}
    (ha : x ∈ Set.Ioc (f a) (f (a + 1))) (hb : x ∈ Set.Ioc (f b) (f (b + 1))) : a = b := by
  by_contra hne
  exact Set.disjoint_left.1 (hf.pairwise_disjoint_on_Ioc_succ hne) ha hb

/-- Dates of the calendar on one day are one date: the day lies in one year only, and in one month
of it. -/
lemma OnCalendar.eq_of_toDay_eq (hd : d.OnCalendar) (he : e.OnCalendar)
    (h : d.toDay = e.toDay) : d = e := by
  have hyear := hd.day_mem_year
  have hmonth := hd.day_mem_month
  have hinYear : daysBeforeYear (marchYear d.year d.month) +
      (daysBeforeMonth (sinceMarch d.month) + d.day) =
        daysBeforeYear (marchYear e.year e.month) +
          (daysBeforeMonth (sinceMarch e.month) + e.day) := by
    rw [toDay_eq, toDay_eq] at h
    omega
  rw [hinYear] at hyear
  have hyears := eq_of_mem_step daysBeforeYear_mono hyear he.day_mem_year
  rw [hyears] at hinYear
  have hinMonth := Int.add_left_cancel hinYear
  rw [hinMonth] at hmonth
  have hmonths := eq_of_mem_step daysBeforeMonth_mono hmonth he.day_mem_month
  rw [hmonths] at hinMonth
  have hday : d.day = e.day := Int.ofNat.inj (Int.add_left_cancel hinMonth)
  obtain ⟨h1, h12, -, -⟩ := hd
  obtain ⟨h1', h12', -, -⟩ := he
  obtain ⟨y, m, n⟩ := d
  obtain ⟨y', m', n'⟩ := e
  obtain rfl : m = m' := by
    unfold sinceMarch at hmonths
    dsimp only at *
    omega
  obtain rfl : y = y' := sub_left_inj.1 hyears
  obtain rfl : n = n' := hday
  rfl

/-- The day `d` of an era lies in the year that is computed for it. -/
lemma lt_daysBeforeYear {d y : Int} (h0 : 0 ≤ d) (h1 : d < 146097)
    (hy : y = (d - d / 1460 + d / 36524 - d / 146096) / 365) : d < daysBeforeYear (y + 1) := by
  obtain ⟨hcentury, hleap, hleap'⟩ := yearOfEra_leaps h0 h1 hy
  have hlast : d / 146096 = 0 ∨ d / 146096 = 1 := by omega
  -- `d / 1460` gets ahead of `y / 4` only towards the end of a year that a leap day may end
  have hthird : d / 1460 = y / 4 + 1 → y % 4 = 3 := by omega
  unfold daysBeforeYear
  by_cases hend : y % 100 = 99
  · omega
  · have hsame : (y + 1) / 100 = y / 100 := by omega
    have hquarter : d / 1460 ≤ (y + 1) / 4 := by omega
    have hnonneg : 0 ≤ (y + 1) / 400 := by omega
    have hyear : d - d / 1460 + d / 36524 - d / 146096 < 365 * (y + 1) := by omega
    omega

/-- The day `r` of a year that begins in March lies in the month that is computed for it. -/
lemma monthOfYear_bounds {r k : Int} (h0 : 0 ≤ r) (h1 : r ≤ 365) (hk : k = (5 * r + 2) / 153) :
    0 ≤ k ∧ k ≤ 11 ∧ daysBeforeMonth k ≤ r ∧ r < daysBeforeMonth (k + 1) := by
  unfold daysBeforeMonth
  omega

lemma monthSinceMarch_spec {k : Int} (h0 : 0 ≤ k) (h11 : k ≤ 11) :
    1 ≤ monthSinceMarch k ∧ monthSinceMarch k ≤ 12 ∧ sinceMarch (monthSinceMarch k) = k := by
  unfold sinceMarch monthSinceMarch
  omega

def ofYearDay (y r : Int) : Date :=
  let k := (5 * r + 2) / 153
  ⟨y + (if k < 10 then 0 else 1), monthSinceMarch k, (r - daysBeforeMonth k + 1).toNat⟩

lemma onCalendar_ofYearDay {r : Int} (h0 : 0 ≤ r)
    (hend : daysBeforeYear y + r < daysBeforeYear (y + 1)) : (ofYearDay y r).OnCalendar := by
  have hr : r ≤ 365 := by
    unfold daysBeforeYear at hend
    omega
  obtain ⟨k, hk⟩ : ∃ k, k = (5 * r + 2) / 153 := ⟨_, rfl⟩
  obtain ⟨hk0, hk11, hfirst, hnext⟩ := monthOfYear_bounds h0 hr hk
  obtain ⟨h1, h12, hmonth⟩ := monthSinceMarch_spec hk0 hk11
  simp only [ofYearDay, ← hk]
  refine ⟨h1, h12, (Int.le_toNat (by omega)).2 (by omega), Int.toNat_le.2 ?_⟩
  dsimp only
  by_cases h11 : k = 11
  · subst h11
    have hdays := daysIn_february (y + 1)
    rw [Int.add_sub_cancel] at hdays
    show r - daysBeforeMonth 11 + 1 ≤ daysIn (y + 1) 2
    omega
  · have hfebruary : monthSinceMarch k ≠ 2 := fun h => by
      rw [h] at hmonth
      exact h11 hmonth.symm
    rw [daysIn_of_ne_february h1 h12 hfebruary, hmonth]
    omega

lemma exists_ofDay_eq (n : Int) : ∃ y r, 0 ≤ r ∧
    daysBeforeYear y + r < daysBeforeYear (y + 1) ∧ ofDay n = ofYearDay y r := by
  obtain ⟨d, hd⟩ : ∃ d, d = (n + 719468) % 146097 := ⟨_, rfl⟩
  obtain ⟨era, hera⟩ : ∃ era, era = (n + 719468) / 146097 := ⟨_, rfl⟩
  obtain ⟨y, hy⟩ : ∃ y, y = (d - d / 1460 + d / 36524 - d / 146096) / 365 := ⟨_, rfl⟩
  have hd0 : 0 ≤ d := by omega
  have hd1 : d < 146097 := by omega
  obtain ⟨hy0, hy1, hr0, -⟩ := yearOfEra_bounds hd0 hd1 hy
  have hend := lt_daysBeforeYear hd0 hd1 hy
  have hnext : y + era * 400 + 1 = y + 1 + era * 400 := Int.add_right_comm _ _ _
  refine ⟨y + era * 400, _, hr0, ?_, ?_⟩
  · rw [hnext, daysBeforeYear_add_era, daysBeforeYear_add_era, daysBeforeYear_of_lt hy0 hy1]
    omega
  · simp only [ofDay, ofYearDay, monthSinceMarch, daysBeforeMonth, ← hd, ← hera, ← hy]

lemma onCalendar_ofDay (n : Int) : (ofDay n).OnCalendar := by
  obtain ⟨y, r, h0, hend, hdate⟩ := exists_ofDay_eq n
  rw [hdate]
  exact onCalendar_ofYearDay h0 hend

lemma OnCalendar.eq_iff (hd : d.OnCalendar) (he : e.OnCalendar) : d = e ↔ d.toDay = e.toDay :=
  ⟨congrArg toDay, hd.eq_of_toDay_eq he⟩

theorem ofDay_toDay (h : d.OnCalendar) : ofDay d.toDay = d :=
  (onCalendar_ofDay _).eq_of_toDay_eq h (toDay_ofDay _)

/-- **The calendar** runs on from day to day. -/
theorem ofDay_succ (n : Int) : ofDay (n + 1) = (ofDay n).next := by
  refine (onCalendar_ofDay _).eq_of_toDay_eq (onCalendar_ofDay n).next ?_
  rw [toDay_next (onCalendar_ofDay n), toDay_ofDay, toDay_ofDay]

/-- Where the days begin. -/
example : ofDay 0 = ⟨1970, 1, 1⟩ := by decide

end Entitlement.Date
