import BreezeCore.Lib.Decimal
import BreezeCore.Proto.Timestamp

/-!
# The timestamp of a cloud request

The cloud client counts its dates a second time, on unsigned numbers where it can.

* `civilFields_eq` — no difference on the way is below zero, and the fields are those of the
  date;
* `civil_time` — so both timestamps are of the same date.
-/

namespace BreezeCloud

open Fallible Text Civil Packet

/-- A date and a time of day. -/
structure CivilFields where
  year : Int
  month : Nat
  day : Nat
  hour : Nat
  minute : Nat
  second : Nat
  deriving DecidableEq, Repr

/-- The month of a year that begins in March. -/
def monthOf (mp : Nat) : Exec Empty Nat := if mp < 10 then .ok (mp + 3) else sub mp 9

/-- The fields of a time in seconds since the epoch. -/
def civilFields (now : UInt64) : Exec Empty CivilFields := do
  let days : Int := (now.toNat / 86400 : Nat)
  let rest := now.toNat % 86400
  -- A year that begins in March has the leap day as its last.
  let z := days + 719468
  let era := (if 0 ≤ z then z else z - 146096).tdiv 146097
  let doe := (UInt64.ofInt (z - era * 146097)).toNat
  let short ← sub doe (doe / 1460)
  let short ← sub (short + doe / 36524) (doe / 146096)
  let yoe := short / 365
  let y : Int := yoe + era * 400
  let before ← sub (365 * yoe + yoe / 4) (yoe / 100)
  let doy ← sub doe before
  let mp := (5 * doy + 2) / 153
  let day ← sub doy ((153 * mp + 2) / 5)
  let month ← monthOf mp
  let year := if month ≤ 2 then y + 1 else y
  .ok ⟨year, month, day + 1, rest / 3600, rest % 3600 / 60, rest % 60⟩

/-- A number filled up with zeros to a width. -/
def padded (width : Nat) (n : Int) : Str :=
  let digits := showNat n.natAbs
  if n < 0 then '-' :: (List.replicate (width - 1 - digits.length) '0' ++ digits)
  else List.replicate (width - digits.length) '0' ++ digits

/-- `yyyymmddHHMMSS`. -/
def CivilFields.text (f : CivilFields) : Str :=
  padded 4 f.year ++ padded 2 f.month ++ padded 2 f.day ++ padded 2 f.hour ++ padded 2 f.minute ++
    padded 2 f.second

/-- UTC, `yyyymmddHHMMSS`, as the API wants it. -/
def timestamp (now : UInt64) : Exec Empty Str := do
  let fields ← civilFields now
  .ok fields.text

/-- The fields of a date and the seconds of its day. -/
def fieldsAt (secs : Nat) : CivilFields where
  year := (dateAt secs).year
  month := (dateAt secs).month
  day := (dateAt secs).day
  hour := secs / 3600 % 24
  minute := secs / 60 % 60
  second := secs % 60

theorem toNat_ofInt {n : Nat} (h : n < 2 ^ 64) : (UInt64.ofInt n).toNat = n := by
  have hcut : ((n : Int) % 2 ^ 64).toNat = n := by omega
  rw [UInt64.ofInt, hcut]
  exact Nat.mod_eq_of_lt h

/-- The era is found without a sign. -/
theorem era_signed (z : Nat) :
    (if (0 : Int) ≤ z then (z : Int) else z - 146096).tdiv 146097 = (z / 146097 : Nat) := by
  rw [if_pos (Int.natCast_nonneg z), Int.tdiv_eq_ediv_of_nonneg (Int.natCast_nonneg z)]
  rfl

theorem day_of_era_signed (z : Nat) :
    (UInt64.ofInt ((z : Int) - (z / 146097 : Nat) * 146097)).toNat = z % 146097 := by
  have hrest : (z : Int) - (z / 146097 : Nat) * 146097 = (z % 146097 : Nat) := by omega
  rw [hrest, toNat_ofInt (by omega)]

/-- **The second calendar.** It works in signed days from the first of March of year zero, and no
subtraction in it underflows: the days before a year and before a month are at most the day
itself. -/
theorem civilFields_eq (now : UInt64) : civilFields now = .ok (fieldsAt now.toNat) := by
  have hshift : ((now.toNat / 86400 : Nat) : Int) + 719468 = marchDay now.toNat := rfl
  obtain ⟨hday, hmonth, hyear⟩ := dateAt_march now.toNat
  have hyears := year_signed now.toNat
  generalize hz : marchDay now.toNat = z at *
  have hdoe := Nat.mod_lt z (show 0 < 146097 by decide)
  obtain ⟨-, doy, hdoy, -⟩ := day_of_era hdoe
  have hbefore : daysBeforeYearOfEra (yearOfEra (z % 146097)) ≤ z % 146097 := by omega
  have hmarch : (153 * marchMonth z + 2) / 5 ≤ dayOfMarchYear z := by
    unfold marchMonth
    omega
  have hnumber : monthOf (marchMonth z) = .ok (dateAt now.toNat).month := by
    rw [hmonth, monthOf, civilMonth]
    split
    next => rfl
    next hlate => rw [sub_eq (by omega)]
  have hyoe : (z % 146097 - z % 146097 / 1460 + z % 146097 / 36524 - z % 146097 / 146096) / 365 =
      yearOfEra (z % 146097) := rfl
  have hdays : 365 * yearOfEra (z % 146097) + yearOfEra (z % 146097) / 4 -
      yearOfEra (z % 146097) / 100 = daysBeforeYearOfEra (yearOfEra (z % 146097)) := rfl
  have hrest : z % 146097 - daysBeforeYearOfEra (yearOfEra (z % 146097)) = dayOfMarchYear z := rfl
  have hmp : (5 * dayOfMarchYear z + 2) / 153 = marchMonth z := rfl
  rw [civilFields]
  simp only [hshift, era_signed, day_of_era_signed]
  rw [sub_eq (by omega), ok_bind, sub_eq (by omega), ok_bind, hyoe, sub_eq (by omega), ok_bind,
    hdays, sub_eq hbefore, ok_bind, hrest, hmp, sub_eq hmarch, ok_bind, hnumber, ok_bind]
  have hfields : (⟨if (dateAt now.toNat).month ≤ 2 then (marchYear z : Int) + 1 else marchYear z,
      (dateAt now.toNat).month, dayOfMarchYear z - (153 * marchMonth z + 2) / 5 + 1,
      now.toNat % 86400 / 3600, now.toNat % 86400 % 3600 / 60, now.toNat % 86400 % 60⟩ :
      CivilFields) = fieldsAt now.toNat := by
    rw [fieldsAt, CivilFields.mk.injEq]
    exact ⟨hyears, rfl, hday.symm, by omega, by omega, by omega⟩
  exact congrArg _ hfields

/-- **Both timestamps** of a time before the year 25600 are of its date, and that is the only
date with so many days since the epoch. -/
theorem civil_time (secs : UInt64) (centis : UInt8) :
    (∀ date : Date, date.number = epoch.number + secs.toNat / 86400 ↔ date = dateAt secs.toNat) ∧
    civilFields secs = .ok (fieldsAt secs.toNat) ∧
    timestamp secs = .ok (fieldsAt secs.toNat).text ∧
    ((dateAt secs.toNat).year ≤ 25599 →
      (timestampFromUnix secs centis).val.map UInt8.toNat =
        [centis.toNat, (fieldsAt secs.toNat).second, (fieldsAt secs.toNat).minute,
          (fieldsAt secs.toNat).hour, (fieldsAt secs.toNat).day, (fieldsAt secs.toNat).month,
          (dateAt secs.toNat).year % 100, (dateAt secs.toNat).year / 100]) := by
  refine ⟨fun date => ?_, civilFields_eq secs, ?_, timestampFromUnix_eq centis⟩
  · have hdate := Date.number_iterate epoch (secs.toNat / 86400)
    exact ⟨fun h => Date.number_injective (h.trans hdate.symm), fun h => h ▸ hdate⟩
  · rw [timestamp, civilFields_eq]
    rfl

end BreezeCloud
