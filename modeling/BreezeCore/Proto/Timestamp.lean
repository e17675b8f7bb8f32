import BreezeCore.Lib.Civil
import BreezeCore.Proto.Packet

/-!
# The timestamp of a packet

Eight bytes of two decimal digits each, from the hundredths of a second to the century.
`timestampFromUnix_eq` says that they are those of the date.
-/

namespace Packet

open Bytes Civil

/-- The year of an era, on signed numbers whose division cuts off toward zero. -/
def yearOfEraSigned (doe : Int) : Int :=
  (doe - doe.tdiv 1460 + doe.tdiv 36524 - doe.tdiv 146096).tdiv 365

/-- The day of such a year. -/
def dayOfYearSigned (doe yoe : Int) : Int := doe - (365 * yoe + yoe.tdiv 4 - yoe.tdiv 100)

/-- The 8-byte timestamp field: `[centiseconds, s, m, H, D, M, YY, YYYY/100]`.  The day count
of 64 bits of seconds leaves 64 bits with a sign far from full. -/
def timestampFromUnix (secs : UInt64) (centis : UInt8) : Arr 8 :=
  let days : Int := (secs.toNat / 86400 : Nat)
  let rem := secs.toNat % 86400
  let hour := UInt8.ofNat (rem / 3600)
  let min := UInt8.ofNat (rem % 3600 / 60)
  let sec := UInt8.ofNat (rem % 60)
  let z := days + 719468
  let era := z / 146097
  let doe := z % 146097
  let yoe := yearOfEraSigned doe
  let y := yoe + era * 400
  let doy := dayOfYearSigned doe yoe
  let mp := (5 * doy + 2).tdiv 153
  let day := UInt8.ofInt (doy - (153 * mp + 2).tdiv 5 + 1)
  let month := UInt8.ofInt (if mp < 10 then mp + 3 else mp - 9)
  let year := UInt32.ofInt (if month ≤ 2 then y + 1 else y)
  ⟨[centis, sec, min, hour, day, month, (year % 100).toUInt8, (year / 100).toUInt8], rfl⟩

/-! ## The calendar -/

/-- The first of January 1970. -/
def epoch : Date := .newYear 1970

/-- The date of a Unix time. -/
def dateAt (secs : Nat) : Date := Date.next^[secs / 86400] epoch

/-- The epoch is so many days after the first of the calendar. -/
theorem number_epoch : epoch.number = 719528 := by
  have hyears := daysBeforeYear_succ 1969
  simp only [Date.number, epoch, Date.newYear, daysBeforeMonth, hyears]
  rfl

/-- The date of a moment is the day it falls on. -/
theorem number_dateAt (secs : Nat) : (dateAt secs).number = secs / 86400 + 719468 + 60 := by
  rw [dateAt, Date.number_iterate, number_epoch]
  omega

/-- Signed or not, the year of the era is the same. -/
theorem yearOfEraSigned_eq (doe : Nat) : yearOfEraSigned doe = yearOfEra doe := by
  unfold yearOfEraSigned yearOfEra
  simp only [Int.tdiv_eq_ediv_of_nonneg (Int.natCast_nonneg doe)]
  rw [Int.tdiv_eq_ediv_of_nonneg (by omega)]
  omega

/-- Signed or not, the day of the year that begins in March is the same. -/
theorem dayOfYearSigned_eq (z : Nat) :
    dayOfYearSigned (z % 146097 : Nat) (yearOfEra (z % 146097)) = dayOfMarchYear z := by
  obtain ⟨-, doy, hdoe, -⟩ := day_of_era (Nat.mod_lt z (by decide : 0 < 146097))
  unfold dayOfYearSigned dayOfMarchYear
  simp only [Int.tdiv_eq_ediv_of_nonneg (Int.natCast_nonneg _)]
  unfold daysBeforeYearOfEra at *
  omega

/-- The day after the first of March of the year 0 that a Unix time is of. -/
def marchDay (secs : Nat) : Nat := secs / 86400 + 719468

/-- The month of the year from March that a day is in. -/
def marchMonth (z : Nat) : Nat := (5 * dayOfMarchYear z + 2) / 153

/-- The date, in terms of a year that begins in March. -/
theorem dateAt_march (secs : Nat) :
    (dateAt secs).day =
        dayOfMarchYear (marchDay secs) - daysBeforeMarchMonth (marchMonth (marchDay secs)) + 1 ∧
      (dateAt secs).month = civilMonth (marchMonth (marchDay secs)) ∧
      (dateAt secs).year =
        civilYear (marchYear (marchDay secs)) (marchMonth (marchDay secs)) := by
  have hdate : dateAt secs = dateOf (marchDay secs + 60) :=
    Date.eq_dateOf_iff.mpr (number_dateAt secs)
  rw [hdate]
  exact date_of_march (marchDay secs) rfl

/-- Such a year has twelve months. -/
theorem marchMonth_le (z : Nat) : marchMonth z ≤ 11 := by
  have hlast := (day_of_march z).2
  unfold marchMonth
  omega

/-! ## The fields -/

/-- A number that fits in a byte is kept. -/
theorem toNat_byte {n : Nat} (h : n < 256) : (UInt8.ofInt n).toNat = n := by
  have hcut : ((n : Int) % 2 ^ 8).toNat = n := by omega
  rw [UInt8.ofInt, hcut]
  exact Nat.mod_eq_of_lt h

/-- A number that fits in a word of 32 bits is kept. -/
theorem toNat_word {n : Nat} (h : n < 2 ^ 32) : (UInt32.ofInt n).toNat = n := by
  have hcut : ((n : Int) % 2 ^ 32).toNat = n := by omega
  rw [UInt32.ofInt, hcut]
  exact Nat.mod_eq_of_lt h

/-- The month, by the code's signed division. -/
theorem marchMonth_signed (z : Nat) :
    (5 * (dayOfMarchYear z : Int) + 2).tdiv 153 = marchMonth z := by
  rw [Int.tdiv_eq_ediv_of_nonneg (by omega)]
  rfl

/-- The day of the month, by the code's formula. -/
theorem day_signed (secs : Nat) :
    (dayOfMarchYear (marchDay secs) : Int) -
      (153 * (marchMonth (marchDay secs) : Int) + 2).tdiv 5 + 1 = ((dateAt secs).day : Nat) := by
  rw [Int.tdiv_eq_ediv_of_nonneg (by omega), (dateAt_march secs).1, daysBeforeMarchMonth,
    marchMonth]
  omega

/-- The month of the calendar, by the code's formula. -/
theorem month_signed (secs : Nat) :
    (if (marchMonth (marchDay secs) : Int) < 10 then (marchMonth (marchDay secs) : Int) + 3
      else marchMonth (marchDay secs) - 9) = ((dateAt secs).month : Nat) := by
  rw [(dateAt_march secs).2.1, civilMonth]
  split <;> split <;> omega

/-- January and February are of the year after the one from March. -/
theorem month_le_two (secs : Nat) :
    (dateAt secs).month ≤ 2 ↔ ¬ marchMonth (marchDay secs) < 10 := by
  have hle := marchMonth_le (marchDay secs)
  rw [(dateAt_march secs).2.1, civilMonth]
  split <;> omega

/-- The year of the calendar, by the code's signed division. -/
theorem year_signed (secs : Nat) :
    (if (dateAt secs).month ≤ 2 then (marchYear (marchDay secs) : Int) + 1
      else marchYear (marchDay secs)) = ((dateAt secs).year : Nat) := by
  rw [(dateAt_march secs).2.2, civilYear]
  by_cases hearly : marchMonth (marchDay secs) < 10
  · rw [if_pos hearly, if_neg fun h => (month_le_two secs).mp h hearly]
  · rw [if_neg hearly, if_pos ((month_le_two secs).mpr hearly)]
    rfl

/-- A day of the month fits in a byte. -/
theorem day_lt (d : Date) : d.day < 256 := by
  have hday := d.day_le
  unfold daysInMonth at hday
  split_ifs at hday <;> omega

/-- A month fits in a byte. -/
theorem month_lt (d : Date) : d.month < 256 := Nat.lt_of_le_of_lt d.month_le (by decide)

/-- **The timestamp** of a date whose century fits its byte. The code counts in signed days from
the first of March, and its date is the one of the calendar by `dateAt_march`. -/
theorem timestampFromUnix_eq {secs : UInt64} (centis : UInt8)
    (h : (dateAt secs.toNat).year ≤ 25599) :
    (timestampFromUnix secs centis).val.map UInt8.toNat =
      [centis.toNat, secs.toNat % 60, secs.toNat / 60 % 60, secs.toNat / 3600 % 24,
        (dateAt secs.toNat).day, (dateAt secs.toNat).month, (dateAt secs.toNat).year % 100,
        (dateAt secs.toNat).year / 100] := by
  have hshift : ((secs.toNat / 86400 : Nat) : Int) + 719468 = marchDay secs.toNat := rfl
  have hera : ∀ z : Nat, (z : Int) / 146097 = (z / 146097 : Nat) := fun _ => rfl
  have hdoe : ∀ z : Nat, (z : Int) % 146097 = (z % 146097 : Nat) := fun _ => rfl
  have hyear : ∀ z : Nat, (yearOfEra (z % 146097) : Int) + (z / 146097 : Nat) * 400 = marchYear z :=
    fun _ => rfl
  have hmonth := toNat_byte (month_lt (dateAt secs.toNat))
  have hearly : UInt8.ofInt ((dateAt secs.toNat).month : Nat) ≤ 2 ↔
      (dateAt secs.toNat).month ≤ 2 := by
    rw [UInt8.le_iff_toNat_le, hmonth]
    rfl
  have hword := toNat_word (show (dateAt secs.toNat).year < 2 ^ 32 by omega)
  unfold timestampFromUnix
  simp only [hshift, hera, hdoe, yearOfEraSigned_eq, dayOfYearSigned_eq, marchMonth_signed,
    day_signed, month_signed, hyear, hearly, year_signed, List.map_cons, List.map_nil, hmonth,
    toNat_byte (day_lt _), UInt32.toNat_toUInt8, UInt32.toNat_mod, UInt32.toNat_div, hword,
    UInt8.toNat_ofNat', UInt32.reduceToNat, List.cons.injEq, and_true, true_and]
  omega

-- 29 February 2000, 23:59:59.
example : (timestampFromUnix 951868799 7).val = [7, 59, 59, 23, 29, 2, 0, 20] := by decide

end Packet
