import Mathlib.Data.Nat.Init
import Mathlib.Logic.Function.Iterate
import Mathlib.Tactic.IntervalCases

/-!
# The Gregorian calendar

Dates of the proleptic Gregorian calendar from the year 0 on, each followed by the next.  The
number of a date is how many days lie before it.

* `Date.eq_dateOf_iff` — the date of a number is the only one with that number;
* `date_of_march` — the calendar in eras of 400 years that begin in March finds it.
-/

namespace Civil

/-- Every fourth year is longer, but of the centuries only every fourth. -/
def IsLeap (year : Nat) : Prop := year % 4 = 0 ∧ (year % 100 ≠ 0 ∨ year % 400 = 0)

instance (year : Nat) : Decidable (IsLeap year) := inferInstanceAs (Decidable (_ ∧ _))

def daysInMonth (year month : Nat) : Nat :=
  if month = 2 then if IsLeap year then 29 else 28
  else if month = 4 ∨ month = 6 ∨ month = 9 ∨ month = 11 then 30
  else 31

/-- A day of the calendar. -/
@[ext]
structure Date where
  year : Nat
  month : Nat
  day : Nat
  month_pos : 1 ≤ month
  month_le : month ≤ 12
  day_pos : 1 ≤ day
  day_le : day ≤ daysInMonth year month
  deriving DecidableEq

theorem daysInMonth_pos (year month : Nat) : 1 ≤ daysInMonth year month := by
  unfold daysInMonth
  split_ifs <;> decide

/-- The first of January. -/
def Date.newYear (year : Nat) : Date :=
  ⟨year, 1, 1, by decide, by decide, by decide, daysInMonth_pos year 1⟩

/-- The day after. -/
def Date.next (d : Date) : Date :=
  if hday : d.day < daysInMonth d.year d.month then
    { d with day := d.day + 1, day_pos := by omega, day_le := hday }
  else if hmonth : d.month < 12 then
    ⟨d.year, d.month + 1, 1, by omega, hmonth, by decide, daysInMonth_pos _ _⟩
  else newYear (d.year + 1)

/-- The date a number of days after the first of January of the year 0. -/
def dateOf (n : Nat) : Date := Date.next^[n] (Date.newYear 0)

/-! ## Numbers of days -/

def daysInYear (year : Nat) : Nat := if IsLeap year then 366 else 365

/-- The days of all years before one. -/
def daysBeforeYear : Nat → Nat
  | 0 => 0
  | year + 1 => daysBeforeYear year + daysInYear year

/-- The days of a year before one of its months. -/
def daysBeforeMonth (year : Nat) : Nat → Nat
  | 0 => 0
  | 1 => 0
  | month + 2 => daysBeforeMonth year (month + 1) + daysInMonth year (month + 1)

/-- Days from the date back to the first of January of the year 0. -/
def Date.number (d : Date) : Nat :=
  daysBeforeYear d.year + daysBeforeMonth d.year d.month + (d.day - 1)

/-- The twelve months are the year. -/
theorem daysBeforeMonth_thirteen (year : Nat) : daysBeforeMonth year 13 = daysInYear year := by
  by_cases h : IsLeap year <;> simp [daysBeforeMonth, daysInMonth, daysInYear, h]

theorem daysBeforeMonth_succ (year : Nat) {month : Nat} (h : 1 ≤ month) :
    daysBeforeMonth year (month + 1) = daysBeforeMonth year month + daysInMonth year month := by
  obtain ⟨month, rfl⟩ := Nat.exists_eq_add_of_le' h
  rfl

/-- **One day on is one more.** -/
theorem Date.number_next (d : Date) : d.next.number = d.number + 1 := by
  have hpos := d.day_pos
  have hle := d.day_le
  have hmonths := daysBeforeMonth_succ d.year d.month_pos
  unfold next
  split
  next => simp only [number]; omega
  next hday =>
    split
    next => simp only [number]; omega
    next hmonth =>
      have hlast : d.month = 12 := by have := d.month_le; omega
      rw [hlast, daysBeforeMonth_thirteen] at hmonths
      rw [hlast] at hday hle
      rw [newYear, number, number, hlast, daysBeforeYear]
      simp only [daysBeforeMonth.eq_2]
      omega

theorem Date.number_iterate (d : Date) (n : Nat) : (Date.next^[n] d).number = d.number + n := by
  induction n with
  | zero => rfl
  | succ n ih => rw [Function.iterate_succ_apply', number_next, ih, Nat.add_assoc]

theorem number_dateOf (n : Nat) : (dateOf n).number = n := by
  rw [dateOf, Date.number_iterate]
  exact Nat.zero_add n

theorem daysBeforeYear_mono {year later : Nat} (h : year ≤ later) :
    daysBeforeYear year ≤ daysBeforeYear later := by
  induction h with
  | refl => exact Nat.le_refl _
  | step _ ih => exact Nat.le_trans ih (Nat.le_add_right _ _)

theorem daysBeforeMonth_mono (year : Nat) {month later : Nat} (h : month ≤ later) :
    daysBeforeMonth year month ≤ daysBeforeMonth year later := by
  induction h with
  | refl => exact Nat.le_refl _
  | @step later _ ih =>
      refine Nat.le_trans ih ?_
      cases later with
      | zero => exact Nat.le_refl _
      | succ later => exact Nat.le_add_right _ _

/-- The days of a month lie before the next. -/
theorem Date.lt_daysBeforeMonth (d : Date) :
    daysBeforeMonth d.year d.month + (d.day - 1) < daysBeforeMonth d.year (d.month + 1) := by
  have := d.day_pos
  have := d.day_le
  rw [daysBeforeMonth_succ d.year d.month_pos]
  omega

/-- The days of a year lie before the next. -/
theorem Date.number_lt (d : Date) : d.number < daysBeforeYear (d.year + 1) := by
  have hmonth := d.lt_daysBeforeMonth
  have hyear := daysBeforeMonth_mono d.year (show d.month + 1 ≤ 13 by have := d.month_le; omega)
  rw [daysBeforeMonth_thirteen] at hyear
  rw [number, daysBeforeYear]
  omega

/-- **A number has one date.** Of two years the later one begins behind the end of the earlier,
and so it is with months, so that the number settles year, month and day in turn. -/
theorem Date.number_injective : Function.Injective Date.number := by
  intro d e h
  have hyear : d.year = e.year := by
    have hd := d.number_lt
    have he := e.number_lt
    rcases Nat.lt_trichotomy d.year e.year with hlt | heq | hlt
    · have hmono := daysBeforeYear_mono (show d.year + 1 ≤ e.year from hlt)
      have hle : daysBeforeYear e.year ≤ e.number := by unfold number; omega
      omega
    · exact heq
    · have hmono := daysBeforeYear_mono (show e.year + 1 ≤ d.year from hlt)
      have hle : daysBeforeYear d.year ≤ d.number := by unfold number; omega
      omega
  have hrest : daysBeforeMonth d.year d.month + (d.day - 1) =
      daysBeforeMonth d.year e.month + (e.day - 1) := by
    rw [number, number, ← hyear] at h
    omega
  have hmonth : d.month = e.month := by
    have hd := d.lt_daysBeforeMonth
    have he := e.lt_daysBeforeMonth
    rw [← hyear] at he
    rcases Nat.lt_trichotomy d.month e.month with hlt | heq | hlt
    · have hmono := daysBeforeMonth_mono d.year (show d.month + 1 ≤ e.month from hlt)
      omega
    · exact heq
    · have hmono := daysBeforeMonth_mono d.year (show e.month + 1 ≤ d.month from hlt)
      omega
  have hday : d.day = e.day := by
    have := d.day_pos
    have := e.day_pos
    rw [← hmonth] at hrest
    omega
  exact Date.ext hyear hmonth hday

/-- **The date of a number** is the one with that number. -/
theorem Date.eq_dateOf_iff {d : Date} {n : Nat} : d = dateOf n ↔ d.number = n := by
  constructor
  · rintro rfl
    exact number_dateOf n
  · exact fun h => number_injective (h.trans (number_dateOf n).symm)

/-! ## Years that begin in March

The leap day is then the last of its year, the months before it have always the same lengths,
and 400 years have always 146097 days. -/

/-- The days of a year before one of its months, March being month 0. -/
def daysBeforeMarchMonth (month : Nat) : Nat := (153 * month + 2) / 5

/-- The days from the first of March of the year 0 to that of another. -/
def daysBeforeMarchYear (year : Nat) : Nat := 365 * year + year / 4 - year / 100 + year / 400

/-- A year from March ends in the next one, and is as long. Each of the three rules for leap years
adds its day where its quotient steps. -/
theorem daysBeforeMarchYear_succ (year : Nat) :
    daysBeforeMarchYear (year + 1) = daysBeforeMarchYear year + daysInYear (year + 1) := by
  have hcount : ∀ {n : Nat}, 0 < n →
      (year + 1) / n = year / n + if (year + 1) % n = 0 then 1 else 0 := by
    intro n hn
    rw [Nat.succ_div]
    simp only [Nat.dvd_iff_mod_eq_zero]
  have hcentury : (year + 1) % 100 = 0 → (year + 1) % 4 = 0 := by omega
  have hera : (year + 1) % 400 = 0 → (year + 1) % 100 = 0 := by omega
  have hfew : year / 100 ≤ year / 4 := Nat.div_le_div_left (by decide) (by decide)
  unfold daysBeforeMarchYear daysInYear
  rw [hcount (by decide : 0 < 4), hcount (by decide : 0 < 100), hcount (by decide : 0 < 400)]
  generalize year / 4 = fours at *
  generalize year / 100 = centuries at *
  generalize year / 400 = eras
  by_cases h400 : (year + 1) % 400 = 0
  · have h100 := hera h400
    have hleap : IsLeap (year + 1) := ⟨hcentury h100, .inr h400⟩
    rw [if_pos (hcentury h100), if_pos h100, if_pos h400, if_pos hleap]
    omega
  · by_cases h100 : (year + 1) % 100 = 0
    · have hleap : ¬ IsLeap (year + 1) := fun h => h.2.elim (· h100) h400
      rw [if_pos (hcentury h100), if_pos h100, if_neg h400, if_neg hleap]
      omega
    · by_cases h4 : (year + 1) % 4 = 0
      · have hleap : IsLeap (year + 1) := ⟨h4, .inl h100⟩
        rw [if_pos h4, if_neg h100, if_neg h400, if_pos hleap]
        omega
      · have hleap : ¬ IsLeap (year + 1) := fun h => h4 h.1
        rw [if_neg h4, if_neg h100, if_neg h400, if_neg hleap]
        omega

/-- Sixty days are before the first of March of the year 0, which is a leap year. -/
theorem daysBeforeYear_succ (year : Nat) :
    daysBeforeYear (year + 1) = daysBeforeMarchYear year + 366 := by
  induction year with
  | zero => rfl
  | succ year ih =>
      rw [daysBeforeYear, ih, daysBeforeMarchYear_succ]
      omega

/-- A year of an era, by how many days of the era are before a day of that year. -/
def yearOfEra (doe : Nat) : Nat := (doe - doe / 1460 + doe / 36524 - doe / 146096) / 365

/-- A day of an era is so many centuries, spans of four years, years and days after its
beginning.  Only the last of four years and the last of four centuries can be longer. -/
theorem exists_era_parts {doe : Nat} (h : doe < 146097) : ∃ century four year day,
    doe = 36524 * century + 1461 * four + 365 * year + day ∧ century ≤ 3 ∧ four ≤ 24 ∧ year ≤ 3 ∧
      (day < 365 ∨ day = 365 ∧ year = 3 ∧ (four = 24 → century = 3)) := by
  obtain ⟨century, rest, hcentury, hrest⟩ : ∃ century rest, doe = 36524 * century + rest ∧
      century ≤ 3 ∧ (rest < 36524 ∨ rest = 36524 ∧ century = 3) := by
    by_cases hlast : doe = 146096
    · exact ⟨3, 36524, by omega, by decide, .inr ⟨rfl, rfl⟩⟩
    · exact ⟨doe / 36524, doe % 36524, by omega, by omega, .inl (by omega)⟩
  obtain ⟨four, rest', hfour, hrest'⟩ : ∃ four rest', rest = 1461 * four + rest' ∧ rest' < 1461 :=
    ⟨rest / 1461, rest % 1461, by omega, by omega⟩
  obtain ⟨year, day, hyear, hday⟩ : ∃ year day, rest' = 365 * year + day ∧ year ≤ 3 ∧
      (day < 365 ∨ day = 365 ∧ year = 3) := by
    by_cases hlast : rest' = 1460
    · exact ⟨3, 365, by omega, by decide, .inr ⟨rfl, rfl⟩⟩
    · exact ⟨rest' / 365, rest' % 365, by omega, by omega, .inl (by omega)⟩
  exact ⟨century, four, year, day, by omega, by omega, by omega, by omega, by omega⟩

/-- **The year of a day in an era.** -/
theorem yearOfEra_eq {century four year day : Nat} (hcentury : century ≤ 3) (hfour : four ≤ 24)
    (hyear : year ≤ 3)
    (hday : day < 365 ∨ day = 365 ∧ year = 3 ∧ (four = 24 → century = 3)) :
    yearOfEra (36524 * century + 1461 * four + 365 * year + day) =
      100 * century + 4 * four + year := by
  -- The centuries are counted once more for the last day of the era, and taken back.
  have hcenturies : ∃ last, (36524 * century + 1461 * four + 365 * year + day) / 36524 =
      century + last ∧
      (36524 * century + 1461 * four + 365 * year + day) / 146096 = last := by
    by_cases hlast : century = 3 ∧ four = 24 ∧ year = 3 ∧ day = 365
    · exact ⟨1, by omega, by omega⟩
    · exact ⟨0, by omega, by omega⟩
  -- A leap day is taken off every 1460 days, the one at hand not before the year's days make up
  -- for it.
  have hfours : ∃ early, (36524 * century + 1461 * four + 365 * year + day) / 1460 =
      25 * century + four + early ∧ early ≤ day ∧ (day = 365 → early = 1) := by
    refine ⟨(24 * century + four + 365 * year + day) / 1460, by omega, by omega, by omega⟩
  obtain ⟨last, hcount, htaken⟩ := hcenturies
  obtain ⟨early, hearly, hle, hleap⟩ := hfours
  rw [yearOfEra, hcount, htaken, hearly]
  omega

/-- The days of an era before one of its years. -/
def daysBeforeYearOfEra (yoe : Nat) : Nat := 365 * yoe + yoe / 4 - yoe / 100

/-- **A day of an era** is within the year it is of. -/
theorem day_of_era {doe : Nat} (h : doe < 146097) : yearOfEra doe < 400 ∧
    ∃ doy, doe = daysBeforeYearOfEra (yearOfEra doe) + doy ∧
      (doy < 365 ∨ doy = 365 ∧ IsLeap (yearOfEra doe + 1)) := by
  obtain ⟨century, four, year, day, rfl, hcentury, hfour, hyear, hday⟩ := exists_era_parts h
  have hfours : (100 * century + 4 * four + year) / 4 = 25 * century + four := by omega
  have hcenturies : (100 * century + 4 * four + year) / 100 = century := by omega
  rw [yearOfEra_eq hcentury hfour hyear hday, daysBeforeYearOfEra, hfours, hcenturies]
  refine ⟨by omega, day, by omega, ?_⟩
  rcases hday with hday | ⟨rfl, rfl, hlast⟩
  · exact .inl hday
  · exact .inr ⟨rfl, by omega, by omega⟩

/-- The year a day is of, by how many days after the first of March of the year 0 it is. -/
def marchYear (z : Nat) : Nat := yearOfEra (z % 146097) + z / 146097 * 400

/-- And how many days after the first of March of that year. -/
def dayOfMarchYear (z : Nat) : Nat := z % 146097 - daysBeforeYearOfEra (yearOfEra (z % 146097))

/-- All eras have the same length. -/
theorem daysBeforeMarchYear_add {yoe : Nat} (h : yoe < 400) (era : Nat) :
    daysBeforeMarchYear (yoe + era * 400) = 146097 * era + daysBeforeYearOfEra yoe := by
  have hfours : (yoe + era * 400) / 4 = yoe / 4 + 100 * era := by omega
  have hcenturies : (yoe + era * 400) / 100 = yoe / 100 + 4 * era := by omega
  have heras : (yoe + era * 400) / 400 = era := by omega
  rw [daysBeforeMarchYear, daysBeforeYearOfEra, hfours, hcenturies, heras]
  omega

theorem day_of_march (z : Nat) : z = daysBeforeMarchYear (marchYear z) + dayOfMarchYear z ∧
    (dayOfMarchYear z < 365 ∨ dayOfMarchYear z = 365 ∧ IsLeap (marchYear z + 1)) := by
  obtain ⟨hlt, doy, hdoe, hdoy⟩ := day_of_era (Nat.mod_lt z (by decide : 0 < 146097))
  have hyears := daysBeforeMarchYear_add hlt (z / 146097)
  have hrest : dayOfMarchYear z = doy := by unfold dayOfMarchYear; omega
  rw [marchYear, hyears, hrest]
  refine ⟨by omega, hdoy.imp_right fun h => ⟨h.1, ?_⟩⟩
  have hleap := h.2
  unfold IsLeap at *
  omega

/-- A month of the calendar, by its number in a year from March. -/
def civilMonth (march : Nat) : Nat := if march < 10 then march + 3 else march - 9

/-- The year such a month is in. -/
def civilYear (year march : Nat) : Nat := if march < 10 then year else year + 1

/-- All months but the last have always the same length. -/
theorem daysInMonth_march (year : Nat) {march : Nat} (h : march ≤ 10) :
    daysBeforeMarchMonth march + daysInMonth year (civilMonth march) =
      daysBeforeMarchMonth (march + 1) := by
  interval_cases march <;> rfl

/-- March begins after the leap day. -/
theorem daysBefore_first (year : Nat) :
    daysBeforeYear year + daysBeforeMonth year 3 = daysBeforeMarchYear year + 60 := by
  have hyear := daysBeforeYear_succ year
  have hmonths : daysBeforeMonth year 3 + 306 = daysInYear year := by
    by_cases hleap : IsLeap year <;> simp [daysBeforeMonth, daysInMonth, daysInYear, hleap]
  rw [daysBeforeYear] at hyear
  omega

/-- January begins ten months after March. -/
theorem daysBefore_last (year : Nat) :
    daysBeforeYear (year + 1) = daysBeforeMarchYear year + 60 + daysBeforeMarchMonth 10 :=
  daysBeforeYear_succ year

/-- **The days before a month** are the same in both ways of counting. By induction on the months
from March, with January and February falling into the next year. -/
theorem daysBefore_march (year : Nat) {march : Nat} (h : march ≤ 11) :
    daysBeforeYear (civilYear year march) +
        daysBeforeMonth (civilYear year march) (civilMonth march) =
      daysBeforeMarchYear year + 60 + daysBeforeMarchMonth march := by
  induction march with
  | zero => exact daysBefore_first year
  | succ march ih =>
      have hmonth := daysInMonth_march year (show march ≤ 10 by omega)
      rcases (show march < 9 ∨ march = 9 ∨ march = 10 by omega) with hlt | rfl | rfl
      · have hyear : ∀ m < 10, civilYear year m = year := fun m hm => if_pos hm
        have hnumber : ∀ m < 10, civilMonth m = m + 3 := fun m hm => if_pos hm
        have ih := ih (by omega)
        rw [hyear march (by omega), hnumber march (by omega)] at ih
        rw [hnumber march (by omega)] at hmonth
        rw [hyear (march + 1) (by omega), hnumber (march + 1) (by omega), Nat.add_right_comm,
          daysBeforeMonth_succ year (by omega)]
        omega
      · exact daysBefore_last year
      · have hlast := daysBefore_last year
        show daysBeforeYear (year + 1) + 31 = _
        rw [hlast, Nat.add_assoc]
        rfl

/-- A day of a year from March is within the month it is of. February is the last month of such a
year and ends with it; the others have the length the formula gives them. -/
theorem day_le_daysInMonth {year doy march : Nat} (hmarch : march = (5 * doy + 2) / 153)
    (hdoy : doy < 365 ∨ doy = 365 ∧ IsLeap (year + 1)) :
    march ≤ 11 ∧ daysBeforeMarchMonth march ≤ doy ∧
      doy - daysBeforeMarchMonth march + 1 ≤
        daysInMonth (civilYear year march) (civilMonth march) := by
  have hle : march ≤ 11 := by omega
  have hbefore : daysBeforeMarchMonth march ≤ doy := by
    unfold daysBeforeMarchMonth
    omega
  refine ⟨hle, hbefore, ?_⟩
  by_cases hlast : march = 11
  · have hlength : daysInMonth (civilYear year march) (civilMonth march) =
        if IsLeap (year + 1) then 29 else 28 := by
      rw [hlast]
      rfl
    rw [hlength, hlast, daysBeforeMarchMonth]
    by_cases hleap : IsLeap (year + 1)
    · rw [if_pos hleap]
      omega
    · have hshort := hdoy.resolve_right fun h => hleap h.2
      rw [if_neg hleap]
      omega
  · have hmonth := daysInMonth_march (civilYear year march) (show march ≤ 10 by omega)
    have hnext : doy < daysBeforeMarchMonth (march + 1) := by
      unfold daysBeforeMarchMonth
      omega
    omega

/-- **The date of a day**, in years that begin in March. -/
theorem date_of_march (z : Nat) {march : Nat} (h : march = (5 * dayOfMarchYear z + 2) / 153) :
    (dateOf (z + 60)).day = dayOfMarchYear z - daysBeforeMarchMonth march + 1 ∧
      (dateOf (z + 60)).month = civilMonth march ∧
      (dateOf (z + 60)).year = civilYear (marchYear z) march := by
  obtain ⟨hz, hdoy⟩ := day_of_march z
  obtain ⟨hle, hbefore, hday⟩ := day_le_daysInMonth h hdoy
  let d : Date := ⟨civilYear (marchYear z) march, civilMonth march,
    dayOfMarchYear z - daysBeforeMarchMonth march + 1, by unfold civilMonth; split <;> omega,
    by unfold civilMonth; split <;> omega, by omega, hday⟩
  have hnumber : d.number = z + 60 := by
    have hmonths := daysBefore_march (marchYear z) hle
    calc d.number
        = daysBeforeYear (civilYear (marchYear z) march) +
            daysBeforeMonth (civilYear (marchYear z) march) (civilMonth march) +
            (dayOfMarchYear z - daysBeforeMarchMonth march) := rfl
      _ = z + 60 := by omega
  rw [← Date.eq_dateOf_iff.mpr hnumber]
  exact ⟨rfl, rfl, rfl⟩

end Civil
