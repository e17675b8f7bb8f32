import BreezeCore.Store.Executable

/-!
# Storing a program again

What a client sends is normalised before it is stored: the days of an entry are
sorted and said once, the mode of a curve is put in capitals.  `into_program` is
then a projection.  Whatever it accepts lies in the set its own checks accept
and is left alone by the normalisation, so the panel can send a stored program
back with `enabled` flipped and gets that and no other change.
-/

namespace BreezeStore

open Text

/-- The standard library's `to_uppercase`, character by character.  What it does
outside ASCII is in Unicode's table. -/
def unicodeUppercase (table : Char → List Char) (s : String) : String :=
  String.ofList (s.toList.flatMap fun c => if c.toNat < 128 then [c.toUpper] else table c)

/-- The fields of a program that a client can send. -/
def Program.spec (p : Program) : ProgramSpec where
  name := p.name
  enabled := p.enabled
  unitIds := p.unitIds
  kind := p.kind
  favourite := p.favourite
  schedule := p.schedule
  curve := p.curve

/-- The times a program holds, as they are written. -/
def Program.times (p : Program) : List Str :=
  p.schedule.map ScheduleEntry.time ++
    p.curve.toList.flatMap fun curve => curve.points.map CurvePoint.time

/-- The temperatures it asks for. -/
def Program.temperatures (p : Program) : List ℚ :=
  p.favourite.toList.filterMap ControlRequest.targetTemperature ++
    p.schedule.filterMap (fun entry => entry.settings.targetTemperature) ++
    p.curve.toList.flatMap fun curve => curve.points.map CurvePoint.temperature

/-! ## Upper-casing -/

/-- Capitals and underscores are ASCII, and their own upper case. -/
private theorem toUpper_capital {c : Char} (h : c.isUpper = true ∨ c = '_') :
    c.toNat < 128 ∧ c.toUpper = c := by
  have hbelow : c.val < 'a'.val := by
    rcases h with hupper | rfl
    · have hbounds : c.val ≥ 'A'.val ∧ c.val ≤ 'Z'.val := of_decide_eq_true hupper
      exact UInt32.lt_of_le_of_lt hbounds.2 (by decide)
    · decide
  have hascii : c.val.toNat < 97 := UInt32.lt_iff_toNat_lt.mp hbelow
  refine ⟨Nat.lt_trans hascii (by decide), dif_neg ?_⟩
  intro hlower
  exact UInt32.not_lt.mpr hlower.1 hbelow

/-- Whatever the table, capital letters stay. -/
theorem unicodeUppercase_keepsCapitals (table : Char → List Char) :
    KeepsCapitals (unicodeUppercase table) := by
  intro s hs
  have hsame : s.toList.flatMap (fun c => if c.toNat < 128 then [c.toUpper] else table c) =
      s.toList.flatMap fun c => [c] := by
    apply List.flatMap_congr
    intro c hc
    obtain ⟨hascii, hupper⟩ := toUpper_capital (hs c hc)
    rw [if_pos hascii, hupper]
  rw [unicodeUppercase, hsame, List.flatMap_singleton', String.ofList_toList]

/-! ## What is well formed is left alone -/

variable {toUppercase : String → String}

/-- Days that are in order, once each, are left alone. -/
theorem sortedDays_of_pairwise {days : List UInt8} (h : days.Pairwise (· < ·)) :
    sortedDays days = days := by
  have hsorted : days.Pairwise (· ≤ ·) := h.imp UInt8.le_of_lt
  have hdistinct : days.Pairwise (· ≠ ·) := h.imp UInt8.ne_of_lt
  rw [sortedDays, hsorted.insertionSort_eq]
  exact List.destutter_of_isChain _ days hdistinct.isChain

/-- Dropping repetitions drops no day. -/
private theorem mem_destutter' {d first : UInt8} {days : List UInt8} :
    d ∈ days.destutter' (· ≠ ·) first ↔ d = first ∨ d ∈ days := by
  induction days generalizing first with
  | nil => simp
  | cons next days ih =>
      by_cases hnext : first = next
      · rw [List.destutter'_cons_neg _ (not_not_intro hnext), ih, List.mem_cons, hnext,
          ← or_assoc, or_self]
      · rw [List.destutter'_cons_pos _ hnext, List.mem_cons, ih, List.mem_cons]

/-- No day is lost and none is added. -/
theorem mem_sortedDays {days : List UInt8} {d : UInt8} : d ∈ sortedDays days ↔ d ∈ days := by
  have hmem : d ∈ days.insertionSort (· ≤ ·) ↔ d ∈ days := List.mem_insertionSort _
  rw [sortedDays, ← hmem]
  cases days.insertionSort (· ≤ ·) with
  | nil => rfl
  | cons first rest => rw [List.destutter_cons', mem_destutter', List.mem_cons]

/-- An entry that is well formed is accepted as it is. -/
theorem checkEntry_of_wellFormed {entry : ScheduleEntry} (h : entry.WellFormed toUppercase) :
    checkEntry toUppercase entry = .ok entry := by
  have hdays : entry.days.find? (6 < ·) = none := by
    rw [List.find?_eq_none]
    intro d hd
    simpa using h.days d hd
  rw [checkEntry, hdays]
  dsimp only
  rw [if_neg (not_not_intro h.time), h.settings, sortedDays_of_pairwise h.daysSorted]

/-- Entries that are well formed all pass the checks, and come out as they are. -/
theorem checkEntries_of_wellFormed {entries : List ScheduleEntry}
    (h : ∀ e ∈ entries, e.WellFormed toUppercase) :
    checkEntries toUppercase entries = .ok entries := by
  induction entries with
  | nil => rfl
  | cons entry entries ih =>
      rw [List.forall_mem_cons] at h
      rw [checkEntries, checkEntry_of_wellFormed h.1, ih h.2]

/-- Points that are well formed pass theirs. -/
theorem checkPoints_of_wellFormed {points : List CurvePoint}
    (h : ∀ p ∈ points, validHhmm p.time = true ∧ TEMP_MIN ≤ p.temperature ∧
      p.temperature ≤ TEMP_MAX) :
    checkPoints points = .ok () := by
  induction points with
  | nil => rfl
  | cons point points ih =>
      rw [List.forall_mem_cons] at h
      have hpoint : checkPoint point = .ok () := by
        rw [checkPoint, if_neg (not_not_intro h.1.1), if_neg (not_not_intro h.1.2)]
      rw [checkPoints, hpoint]
      exact ih h.2

/-- And a curve, whose mode is in capitals already. -/
theorem checkCurve_of_wellFormed (hupper : KeepsCapitals toUppercase) {curve : CurveConfig}
    (h : curve.WellFormed) : checkCurve toUppercase curve = .ok curve := by
  have hmode : { curve with operationalMode := toUppercase curve.operationalMode } = curve := by
    rw [mode_capitals hupper h.mode]
  rw [checkCurve, hmode]
  rw [if_neg (not_not_intro (List.contains_iff_mem.mpr h.mode)),
    if_neg (not_not_intro (List.contains_iff_mem.mpr h.fan)), checkPoints_of_wellFormed h.points]

/-- Settings that are valid are accepted. -/
theorem checkSettings_of_valid {favourite : Option ControlRequest}
    (h : ∀ r, favourite = some r → r.validate toUppercase = .ok ()) :
    checkSettings toUppercase favourite = .ok () := by
  cases favourite with
  | none => rfl
  | some r =>
      rw [checkSettings, h r rfl]

/-- A curve that is well formed is accepted, if there is one. -/
theorem checkOptionalCurve_of_wellFormed (hupper : KeepsCapitals toUppercase)
    {curve : Option CurveConfig} (h : ∀ c, curve = some c → c.WellFormed) :
    checkOptionalCurve toUppercase curve = .ok curve := by
  cases curve with
  | none => rfl
  | some c =>
      rw [checkOptionalCurve, checkCurve_of_wellFormed hupper (h c rfl)]

/-- **A well-formed program is stored as it is.** -/
theorem Program.WellFormed.stored (hupper : KeepsCapitals toUppercase) {p : Program}
    (h : p.WellFormed toUppercase) : p.spec.intoProgram toUppercase p.id = .ok p := by
  unfold ProgramSpec.intoProgram Program.spec
  dsimp only
  rw [if_neg (by have := h.name.1; omega), if_neg (Nat.not_lt.mpr h.name.2),
    if_neg (not_not_intro (List.contains_iff_mem.mpr h.kind)),
    checkSettings_of_valid h.favourite, checkEntries_of_wellFormed h.schedule,
    checkOptionalCurve_of_wellFormed hupper h.curve]

/-- Switching a program on or off leaves it well formed. -/
theorem Program.WellFormed.withEnabled {p : Program} (h : p.WellFormed toUppercase)
    (enabled : Bool) : ({ p with enabled := enabled } : Program).WellFormed toUppercase :=
  ⟨h.name, h.kind, h.favourite, h.schedule, h.curve⟩

/-! ## What is stored of a request -/

/-- What is stored of the entries is what was sent, with the days in order. -/
theorem checkEntries_eq {entries checked : List ScheduleEntry}
    (h : checkEntries toUppercase entries = .ok checked) :
    checked = entries.map fun entry => { entry with days := sortedDays entry.days } := by
  induction entries generalizing checked with
  | nil => exact (Except.ok.inj h).symm
  | cons entry entries ih =>
      unfold checkEntries at h
      split at h
      next => cases h
      next first hfirst =>
        split at h
        next => cases h
        next rest hrest =>
          obtain rfl := Except.ok.inj h
          rw [List.map_cons, ← ih hrest]
          unfold checkEntry at hfirst
          grind

/-- And of the curve, with the mode in capitals. -/
theorem checkOptionalCurve_eq {curve checked : Option CurveConfig}
    (h : checkOptionalCurve toUppercase curve = .ok checked) :
    checked = curve.map fun c => { c with operationalMode := toUppercase c.operationalMode } := by
  unfold checkOptionalCurve checkCurve at h
  grind

/-- **What is stored** is what was sent, with the days of each entry sorted and the mode
of the curve in capitals. -/
theorem ProgramSpec.intoProgram_eq {spec : ProgramSpec} {id : Str} {p : Program}
    (h : spec.intoProgram toUppercase id = .ok p) :
    p =
      { name := spec.name
        enabled := spec.enabled
        unitIds := spec.unitIds
        kind := spec.kind
        favourite := spec.favourite
        schedule := spec.schedule.map fun entry => { entry with days := sortedDays entry.days }
        curve := spec.curve.map fun c =>
          { c with operationalMode := toUppercase c.operationalMode }
        id := id } := by
  unfold intoProgram at h
  have hentries := @checkEntries_eq toUppercase spec.schedule
  have hcurve := @checkOptionalCurve_eq toUppercase spec.curve
  grind

/-! ## Normalised once and for all -/

/-- Every time of a stored program has two digits of hours and two of minutes. -/
theorem Program.WellFormed.times {p : Program} (h : p.WellFormed toUppercase) :
    ∀ time ∈ p.times, ∃ hour minute : Nat, hour < 24 ∧ minute < 60 ∧
      time = timeText hour minute := by
  intro time htime
  rcases List.mem_append.mp htime with hentry | hpoint
  · obtain ⟨entry, hmem, rfl⟩ := List.mem_map.mp hentry
    exact validHhmm_iff.mp (h.schedule entry hmem).time
  · obtain ⟨curve, hcurve, hpoints⟩ := List.mem_flatMap.mp hpoint
    obtain ⟨point, hmem, rfl⟩ := List.mem_map.mp hpoints
    exact validHhmm_iff.mp ((h.curve curve (Option.mem_toList.mp hcurve)).points point hmem).1

/-- Every temperature of a stored program is in range, wherever it stands in it. -/
theorem Program.WellFormed.temperatures {p : Program} (h : p.WellFormed toUppercase) :
    ∀ t ∈ p.temperatures, TEMP_MIN ≤ t ∧ t ≤ TEMP_MAX := by
  have hvalid : ∀ (r : ControlRequest) (t : ℚ), r.validate toUppercase = .ok () →
      r.targetTemperature = some t → TEMP_MIN ≤ t ∧ t ≤ TEMP_MAX := by
    intro r t hr ht
    obtain ⟨hlow, hhigh, -⟩ := (ControlRequest.validate_ok hr).1 t ht
    exact ⟨hlow, hhigh⟩
  intro t ht
  rcases List.mem_append.mp ht with ht | hpoint
  · rcases List.mem_append.mp ht with hfavourite | hentry
    · obtain ⟨r, hr, ht⟩ := List.mem_filterMap.mp hfavourite
      exact hvalid r t (h.favourite r (Option.mem_toList.mp hr)) ht
    · obtain ⟨entry, hmem, ht⟩ := List.mem_filterMap.mp hentry
      exact hvalid entry.settings t (h.schedule entry hmem).settings ht
  · obtain ⟨curve, hcurve, hpoints⟩ := List.mem_flatMap.mp hpoint
    obtain ⟨point, hmem, rfl⟩ := List.mem_map.mp hpoints
    exact ((h.curve curve (Option.mem_toList.mp hcurve)).points point hmem).2

/-- **Normalisation is sound and idempotent.**  A stored program has the days it was sent
with, in order and once each, times of day, temperatures from 16 to 30 and a mode in
capitals; and sent back under its id, enabled or not, it is accepted and stored as it is. -/
theorem intoProgram_normal (table : Char → List Char) {spec : ProgramSpec} {id : Str}
    {p : Program} (h : spec.intoProgram (unicodeUppercase table) id = .ok p) :
    (p.schedule.Forall₂ (fun entry sent => entry.days.Pairwise (· < ·) ∧
      (∀ d ∈ entry.days, d ≤ 6) ∧ ∀ d, d ∈ entry.days ↔ d ∈ sent.days) spec.schedule) ∧
    (∀ time ∈ p.times, ∃ hour minute : Nat, hour < 24 ∧ minute < 60 ∧
      time = timeText hour minute) ∧
    (∀ t ∈ p.temperatures, TEMP_MIN ≤ t ∧ t ≤ TEMP_MAX) ∧
    (∀ curve, p.curve = some curve → curve.operationalMode ∈ OPERATIONAL_MODES) ∧
    ∀ enabled : Bool,
      ({ p.spec with enabled := enabled } : ProgramSpec).intoProgram (unicodeUppercase table) id =
        .ok { p with enabled := enabled } := by
  obtain ⟨hformed, rfl⟩ := ProgramSpec.intoProgram_ok h
  refine ⟨?_, hformed.times, hformed.temperatures, fun c hc => (hformed.curve c hc).mode, ?_⟩
  · have hschedule : p.schedule =
        spec.schedule.map fun entry => { entry with days := sortedDays entry.days } := by
      rw [ProgramSpec.intoProgram_eq h]
    rw [hschedule, List.forall₂_map_left_iff, List.forall₂_same]
    intro sent hsent
    have hentry := hformed.schedule { sent with days := sortedDays sent.days } (by
      rw [hschedule]
      exact List.mem_map_of_mem hsent)
    exact ⟨hentry.daysSorted, hentry.days, fun d => mem_sortedDays⟩
  · intro enabled
    exact (hformed.withEnabled enabled).stored (unicodeUppercase_keepsCapitals table)

/-- A schedule with a day said twice. -/
def weekSpec : ProgramSpec :=
  { name := "Week".toList
    kind := "schedule"
    schedule := [{ days := [4, 0, 4], time := "07:30".toList, settings := .powerOff }]
    curve := some { operationalMode := "cool", points := twoPoints } }

/-- The program of the week as it is stored. -/
def weekProgram : Program :=
  { name := "Week".toList
    kind := "schedule"
    schedule := [{ days := [0, 4], time := "07:30".toList, settings := .powerOff }]
    curve := some { operationalMode := "COOL", points := twoPoints }
    id := "p1".toList }

/-- A week of entries, sent in no order. -/
theorem intoProgram_normal_week :
    (weekProgram.schedule.Forall₂ (fun entry sent => entry.days.Pairwise (· < ·) ∧
      (∀ d ∈ entry.days, d ≤ 6) ∧ ∀ d, d ∈ entry.days ↔ d ∈ sent.days) weekSpec.schedule) ∧
    (∀ time ∈ weekProgram.times, ∃ hour minute : Nat, hour < 24 ∧ minute < 60 ∧
      time = timeText hour minute) ∧
    (∀ t ∈ weekProgram.temperatures, TEMP_MIN ≤ t ∧ t ≤ TEMP_MAX) ∧
    (∀ curve, weekProgram.curve = some curve → curve.operationalMode ∈ OPERATIONAL_MODES) ∧
    ∀ enabled : Bool,
      ({ weekProgram.spec with enabled := enabled } : ProgramSpec).intoProgram
          (unicodeUppercase fun c => [c]) "p1".toList =
        .ok { weekProgram with enabled := enabled } :=
  @intoProgram_normal (fun c => [c]) weekSpec "p1".toList weekProgram (by decide +kernel)

end BreezeStore
