import BreezeCore.Store.Programs

/-!
# What a stored time says

A curve reads the time of a point, a schedule compares the text of an entry with what the
clock reads.  A request has to write a time with two digits each; what is in a file already
does not.

`stored_time_iff` says of which entries the schedule fires at the minutes the text is read
as.
-/

namespace BreezeStore

open Text

/-- The entry in place `i` is due when the clock is at minute `m`, on the days it lists. -/
def DueAt (entries : List ScheduleEntry) (i : Nat) (entry : ScheduleEntry) (m : Int) : Prop :=
  ∀ now, i ∈ dueEntries entries now ↔
    (entry.days = [] ∨ weekday now ∈ entry.days) ∧ (minuteOfDay now : Int) = m

/-- The entry lists days, but none of a week. -/
def NoDay (entry : ScheduleEntry) : Prop := entry.days ≠ [] ∧ ∀ day ∈ entry.days, 6 < day

theorem weekday_le (now : LocalTime) : weekday now ≤ 6 := by
  unfold weekday
  rw [UInt8.le_iff_toNat_le, UInt8.toNat_ofNat_of_lt' (by unfold UInt8.size; omega)]
  have hsix : (6 : UInt8).toNat = 6 := rfl
  omega

/-- Every day of the week comes, and every minute of it. -/
theorem exists_moment {day : UInt8} {m : Nat} (hday : day ≤ 6) (hm : m < 1440) :
    ∃ now : LocalTime, weekday now = day ∧ minuteOfDay now = m := by
  have hseven : day.toNat ≤ 6 := hday
  refine ⟨((day.toNat + 4) % 7 : Nat) * DAY + m * MINUTE, ?_, ?_⟩
  · unfold weekday dayOf DAY MINUTE SECOND
    have hdays : ((((((day.toNat + 4) % 7 : Nat) : Int) * (86400 * 1000000000) +
        m * (60 * 1000000000)) / (86400 * 1000000000) + 3) % 7).toNat = day.toNat := by omega
    rw [hdays, UInt8.ofNat_toNat]
  · unfold minuteOfDay DAY MINUTE SECOND
    omega

/-- The clock reads a time of two digits each at that minute, and no other time. -/
theorem hhmm_eq_iff {s : Str} {now : LocalTime} (h : validHhmm s = true) :
    s = hhmm now ↔ minutesOfDay s = some (minuteOfDay now : Int) := by
  have hclock := minuteOfDay_lt now
  have hread := @minutesOfDay_timeText (hour now) (minute now) (by unfold hour; omega)
    (by unfold minute; omega)
  have hsum : hour now * 60 + minute now = minuteOfDay now := Nat.div_add_mod' _ _
  rw [hsum, ← hhmm_eq_timeText] at hread
  constructor
  · rintro rfl
    exact hread
  · intro hs
    obtain ⟨h', m', hh', hm', rfl⟩ := validHhmm_iff.mp h
    rw [minutesOfDay_timeText hh' hm'] at hs
    have hminute : h' * 60 + m' = minuteOfDay now := by exact_mod_cast Option.some.inj hs
    have hhour : h' = hour now := by unfold hour; omega
    have hrest : m' = minute now := by unfold minute; omega
    rw [hhour, hrest, hhmm_eq_timeText]

theorem validHhmm_hhmm (now : LocalTime) : validHhmm (hhmm now) = true := by
  have hclock := minuteOfDay_lt now
  exact validHhmm_iff.mpr ⟨hour now, minute now, by unfold hour; omega, by unfold minute; omega,
    hhmm_eq_timeText now⟩

/-- An entry that lists a day of the week, or all of them, gets to every minute on one. -/
theorem exists_moment_on {entry : ScheduleEntry} {m : Nat} (hdays : ¬ NoDay entry)
    (hm : m < 1440) :
    ∃ now, (entry.days = [] ∨ weekday now ∈ entry.days) ∧ minuteOfDay now = m := by
  by_cases hall : entry.days = []
  · obtain ⟨now, -, hminute⟩ := @exists_moment 0 m (by decide) hm
    exact ⟨now, .inl hall, hminute⟩
  · have hlisted : ∃ day ∈ entry.days, day ≤ 6 := by
      by_contra hnone
      refine hdays ⟨hall, fun day hday => ?_⟩
      exact UInt8.not_le.mp fun hle => hnone ⟨day, hday, hle⟩
    obtain ⟨day, hday, hle⟩ := hlisted
    obtain ⟨now, hweekday, hminute⟩ := exists_moment hle hm
    exact ⟨now, .inr (hweekday ▸ hday), hminute⟩

theorem not_on_of_noDay {entry : ScheduleEntry} (h : NoDay entry) (now : LocalTime) :
    ¬ (entry.days = [] ∨ weekday now ∈ entry.days) := by
  rintro (hall | hmem)
  · exact h.1 hall
  · exact UInt8.not_le.mpr (h.2 _ hmem) (weekday_le now)

/-- **A stored time means to the schedule what it is read as** exactly when it is written as a
request has to write it, or the entry lists no day of the week. -/
theorem stored_time_iff {entries : List ScheduleEntry} {i : Nat} {entry : ScheduleEntry} {m : Int}
    (hentry : entries[i]? = some entry) (htime : minutesOfDay entry.time = some m) :
    DueAt entries i entry m ↔ validHhmm entry.time = true ∨ NoDay entry := by
  have hdue : ∀ now, i ∈ dueEntries entries now ↔
      (entry.days = [] ∨ weekday now ∈ entry.days) ∧ entry.time = hhmm now := by
    intro now
    rw [mem_dueEntries, hentry]
    simp [ScheduleEntry.isDue]
  obtain ⟨hnonneg, hlt⟩ := minutesOfDay_range htime
  constructor
  · intro h
    by_contra hneither
    rw [not_or] at hneither
    obtain ⟨hspelling, hdays⟩ := hneither
    -- the minute comes on a day of the entry, which is due then and has the clock's spelling
    obtain ⟨now, hon, hminute⟩ := @exists_moment_on entry m.toNat hdays (by omega)
    have hmember := (h now).mpr ⟨hon, by omega⟩
    have hread := ((hdue now).mp hmember).2
    rw [hread] at hspelling
    exact hspelling (validHhmm_hhmm now)
  · rintro (hspelling | hdays)
    · intro now
      rw [hdue, hhmm_eq_iff hspelling, htime, Option.some.injEq]
      exact and_congr_right fun _ => eq_comm
    · intro now
      have hoff := not_on_of_noDay hdays now
      rw [hdue]
      exact iff_of_false (fun h => hoff h.1) fun h => hoff h.1

/-- Half past seven, as a request writes it. -/
theorem stored_time_two_digits :
    DueAt [⟨[], "07:30".toList, {}⟩] 0 ⟨[], "07:30".toList, {}⟩ 450 ↔
      validHhmm "07:30".toList = true ∨ NoDay ⟨[], "07:30".toList, {}⟩ :=
  @stored_time_iff [⟨[], "07:30".toList, {}⟩] 0 ⟨[], "07:30".toList, {}⟩ 450 rfl
    (by decide +kernel)

/-- With one digit for the hour it is read, and never fires. -/
theorem one_digit_never_due :
    minutesOfDay "7:30".toList = some 450 ∧
      ¬ DueAt [⟨[], "7:30".toList, {}⟩] 0 ⟨[], "7:30".toList, {}⟩ 450 := by
  refine ⟨by decide +kernel, fun h => ?_⟩
  have hdue := (h (450 * MINUTE)).mpr ⟨.inl rfl, by decide +kernel⟩
  exact absurd hdue (by decide +kernel)

end BreezeStore
