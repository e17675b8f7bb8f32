import BreezeCore.Store.Curve

/-!
# What is accepted can be carried out

A program is checked when it is stored, a control request again when it is sent.  Between the
two a curve has been interpolated and rounded, and the mode of a curve has been put into
capitals.

`accepted_executable`: whatever a stored program asks for, at whatever minute, passes the check
of the request.  How a calculation is rounded to a float is a parameter still; of upper-casing
it is assumed that capital letters stay.
-/

namespace BreezeStore

open Text Ac Rounding

/-- Upper-casing leaves capital letters and underscores alone. -/
def KeepsCapitals (toUppercase : String → String) : Prop :=
  ∀ s : String, (∀ c ∈ s.toList, c.isUpper = true ∨ c = '_') → toUppercase s = s

/-- The control requests a program gives rise to at a moment: its favourite, what its curve
wants, and the settings of the entries that are due. -/
def Program.requests (toF64 : ℚ → ℚ) (p : Program) (now : LocalTime) : List ControlRequest :=
  p.favourite.toList ++ p.curve.toList.map (curveRequest toF64 · now) ++
    (dueEntries p.schedule now).filterMap fun i => p.schedule[i]?.map ScheduleEntry.settings

section Value

variable (toF64 : ℚ → ℚ)

/-- The value on the `i`-th segment before it is rounded to half a degree. -/
def segmentValue (pts : List (Int × ℚ)) (mins : Int) (i : Nat) : Option ℚ :=
  match pts[i]?, pts[(i + 1) % pts.length]? with
  | some (am, at_), some (bm, bt) =>
      let span := if (bm - am) % MINUTES_PER_DAY = 0 then MINUTES_PER_DAY
        else (bm - am) % MINUTES_PER_DAY
      let off := (mins - am) % MINUTES_PER_DAY
      if off < span then some (toF64 (at_ + toF64 (toF64 (bt - at_) * toF64 ((off : ℚ) / span))))
      else none
  | _, _ => none

/-- The interpolated value before it is rounded. -/
def curveValue (points : List CurvePoint) (now : LocalTime) : Option ℚ :=
  match readPoints points with
  | [] => none
  | [(_, t)] => some t
  | (m, t) :: rest =>
      let pts := (m, t) :: rest
      match (List.range pts.length).findSome? (segmentValue toF64 pts (minuteOfDay now)) with
      | some value => some value
      | none => some t

variable {toF64}

theorem segmentSetpoint_eq_map (pts : List (Int × ℚ)) (mins : Int) (i : Nat) :
    segmentSetpoint toF64 pts mins i = (segmentValue toF64 pts mins i).map roundHalf := by
  unfold segmentSetpoint segmentValue
  cases pts[i]? with
  | none => rfl
  | some a =>
      cases pts[(i + 1) % pts.length]? with
      | none => rfl
      | some b =>
          dsimp only
          rw [apply_ite (Option.map roundHalf)]
          rfl

/-- **A curve asks for the rounded value.** -/
theorem curveSetpoint_eq_map (points : List CurvePoint) (now : LocalTime) :
    curveSetpoint toF64 points now = (curveValue toF64 points now).map roundHalf := by
  have hscan : ∀ pts : List (Int × ℚ), ∀ is : List Nat,
      is.findSome? (segmentSetpoint toF64 pts (minuteOfDay now)) =
        (is.findSome? (segmentValue toF64 pts (minuteOfDay now))).map roundHalf := by
    intro pts is
    induction is with
    | nil => rfl
    | cons i is ih =>
        rw [List.findSome?_cons, List.findSome?_cons, segmentSetpoint_eq_map, ih]
        cases segmentValue toF64 pts (minuteOfDay now) i <;> rfl
  unfold curveSetpoint curveValue
  rcases readPoints points with _ | ⟨⟨m, t⟩, _ | ⟨p, rest⟩⟩
  · rfl
  · rfl
  · dsimp only
    rw [hscan]
    cases (List.range ((m, t) :: p :: rest).length).findSome?
      (segmentValue toF64 ((m, t) :: p :: rest) (minuteOfDay now)) <;> rfl

end Value

/-! ## The check of a request -/

variable {toF64 : ℚ → ℚ} {toUppercase : String → String}

theorem trunc_intCast (k : ℤ) : trunc (k : ℚ) = k := by
  unfold trunc
  split
  next => exact Int.floor_intCast k
  next => exact Int.ceil_intCast k

/-- A rounded temperature passes. -/
theorem roundHalf_passes (t : ℚ) : TEMP_MIN ≤ roundHalf t ∧ roundHalf t ≤ TEMP_MAX ∧
    roundHalf t * 2 = (trunc (roundHalf t * 2) : ℚ) := by
  obtain ⟨hlow, hhigh, k, hk⟩ := roundHalf_grid t
  refine ⟨hlow, hhigh, ?_⟩
  have hdouble : roundHalf t * 2 = k := by linarith
  rw [hdouble, trunc_intCast]

/-- The modes are in capitals. -/
theorem capital_modes : ∀ mode ∈ OPERATIONAL_MODES, ∀ c ∈ mode.toList,
    c.isUpper = true ∨ c = '_' := by
  have hall : (OPERATIONAL_MODES.all fun mode =>
      mode.toList.all fun c => c.isUpper || c == '_') = true := by decide
  simpa only [List.all_eq_true, Bool.or_eq_true, beq_iff_eq] using hall

theorem mode_capitals (hupper : KeepsCapitals toUppercase) {mode : String}
    (h : mode ∈ OPERATIONAL_MODES) : toUppercase mode = mode :=
  hupper mode (capital_modes mode h)

/-- What a well-formed curve wants is valid. -/
theorem curveRequest_valid (hupper : KeepsCapitals toUppercase) {curve : CurveConfig}
    (h : curve.WellFormed) (now : LocalTime) :
    (curveRequest toF64 curve now).validate toUppercase = .ok () := by
  refine ControlRequest.validate_iff.mpr ⟨?_, ?_, ?_, nofun⟩
  · intro t ht
    have hvalue : curveSetpoint toF64 curve.points now = some t := ht
    rw [curveSetpoint_eq_map, Option.map_eq_some_iff] at hvalue
    obtain ⟨value, -, rfl⟩ := hvalue
    exact roundHalf_passes value
  · intro fan hfan
    obtain rfl := Option.some.inj hfan
    exact h.fan
  · intro mode hmode
    obtain rfl := Option.some.inj hmode
    rw [mode_capitals hupper h.mode]
    exact h.mode

/-- **What is accepted can be carried out.**  At every moment every control request a stored
program gives rise to is valid, and the temperature of a curve is the interpolated value
rounded: half degrees from 16 to 30, and more only where the value is more. -/
theorem accepted_executable (hupper : KeepsCapitals toUppercase) {spec : ProgramSpec} {id : Str}
    {program : Program} (h : spec.intoProgram toUppercase id = .ok program) :
    (∀ now, ∀ r ∈ program.requests toF64 now, r.validate toUppercase = .ok ()) ∧
      (∀ curve, program.curve = some curve → ∀ now t,
        curveSetpoint toF64 curve.points now = some t →
          16 ≤ t ∧ t ≤ 30 ∧ (∃ k : ℤ, t = k / 2) ∧
          ∃ value, curveValue toF64 curve.points now = some value ∧ t = roundHalf value) ∧
      Monotone roundHalf := by
  obtain ⟨hformed, -⟩ := ProgramSpec.intoProgram_ok h
  refine ⟨?_, ?_, roundHalf_mono⟩
  · intro now r hr
    rcases List.mem_append.mp hr with hr | hdue
    · rcases List.mem_append.mp hr with hfavourite | hcurve
      · exact hformed.favourite r (Option.mem_toList.mp hfavourite)
      · obtain ⟨curve, hmem, rfl⟩ := List.mem_map.mp hcurve
        exact curveRequest_valid hupper (hformed.curve curve (Option.mem_toList.mp hmem)) now
    · obtain ⟨i, -, hi⟩ := List.mem_filterMap.mp hdue
      obtain ⟨entry, hentry, rfl⟩ := Option.map_eq_some_iff.mp hi
      exact (hformed.schedule entry (List.mem_of_getElem? hentry)).settings
  · intro curve hcurve now t ht
    rw [curveSetpoint_eq_map, Option.map_eq_some_iff] at ht
    obtain ⟨value, hvalue, rfl⟩ := ht
    obtain ⟨hlow, hhigh, hgrid⟩ := roundHalf_grid value
    exact ⟨hlow, hhigh, hgrid, value, hvalue, rfl⟩

/-- Upper-casing, for text without other letters than the ASCII ones. -/
def upperAscii (s : String) : String := String.ofList (s.toList.map Char.toUpper)

private theorem upperAscii_keepsCapitals : KeepsCapitals upperAscii := by
  intro s h
  have hsame : s.toList.map Char.toUpper = s.toList := by
    refine (List.map_congr_left fun c hc => ?_).trans (List.map_id _)
    have hcapital : ¬ ('a'.val ≤ c.val ∧ c.val ≤ 'z'.val) := by
      rintro ⟨hlow, -⟩
      rcases h c hc with hupper | rfl
      · have hbounds : c.val ≥ 'A'.val ∧ c.val ≤ 'Z'.val := of_decide_eq_true hupper
        exact absurd (UInt32.le_trans hlow hbounds.2) (by decide)
      · exact absurd hlow (by decide)
    exact dif_neg hcapital
  rw [upperAscii, hsame, String.ofList_toList]

/-- A curve with its mode in small letters. -/
def coolSpec : ProgramSpec :=
  { name := "Night".toList
    kind := "curve"
    curve := some { operationalMode := "cool", points := twoPoints } }

/-- A curve from midnight to noon that cools. -/
theorem accepted_executable_cool :
    (∀ now, ∀ r ∈ Program.requests id ⟨"Night".toList, true, [], "curve", none, [],
        some ⟨"COOL", 102, twoPoints⟩, "p1".toList⟩ now, r.validate upperAscii = .ok ()) ∧
      (∀ curve, some (⟨"COOL", 102, twoPoints⟩ : CurveConfig) = some curve → ∀ now t,
        curveSetpoint id curve.points now = some t →
          16 ≤ t ∧ t ≤ 30 ∧ (∃ k : ℤ, t = k / 2) ∧
          ∃ value, curveValue id curve.points now = some value ∧ t = roundHalf value) ∧
      Monotone roundHalf :=
  @accepted_executable id upperAscii upperAscii_keepsCapitals coolSpec "p1".toList
    ⟨"Night".toList, true, [], "curve", none, [], some ⟨"COOL", 102, twoPoints⟩, "p1".toList⟩
    (by decide +kernel)

end BreezeStore
