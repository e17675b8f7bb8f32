import Mathlib.Data.List.Destutter
import Mathlib.Data.List.Sort
import BreezeCore.Store.Timers

/-!
# Programs

A program is a favourite, a schedule or a curve.  What a client sends is checked and
normalised before it is stored; what the file holds is read as leniently as
possible.

* `ProgramSpec.intoProgram_ok` — what is stored has passed every check;
* `mem_dueEntries` — an entry is due when the clock reads its time on one of its days;
* `minuteStamp_inj` — the stamp of a moment is that of its minute and of no other;
* `curveSetpoint_isSome` — a curve with a point whose time can be read asks for a
  temperature at every moment.

Moments are those of the timers.  How the date library writes a day as `%Y-%m-%d` is a
parameter, and so are upper-casing, how a float is shown, and how the result of a
calculation is rounded to a float.
-/

namespace BreezeStore

open Bytes Text Ac

/-- One entry of a schedule: the settings to apply on these days at this time. -/
structure ScheduleEntry where
  /-- 0 = Monday .. 6 = Sunday. -/
  days : List UInt8 := []
  /-- `HH:MM`, 24-hour, server-local. -/
  time : Str
  settings : ControlRequest
  deriving DecidableEq, Repr

/-- A temperature at a time of day, between which the curve is a line. -/
structure CurvePoint where
  time : Str
  temperature : ℚ
  deriving DecidableEq, Repr

/-- A curve over the day, and the mode and fan it is run with. -/
structure CurveConfig where
  operationalMode : String := "COOL"
  fanSpeed : Int := 102
  points : List CurvePoint := []
  deriving DecidableEq, Repr

/-- A program as it is stored: a favourite, a schedule or a curve, by its kind. -/
structure Program where
  name : Str
  enabled : Bool := true
  /-- Empty means every configured unit. -/
  unitIds : List Str := []
  kind : String := "favourite"
  favourite : Option ControlRequest := none
  schedule : List ScheduleEntry := []
  curve : Option CurveConfig := none
  id : Str
  deriving DecidableEq, Repr

/-- `programs.json`. -/
structure ProgramsDoc where
  programs : List Program := []
  deriving DecidableEq, Repr

/-! ## The clock -/

def MINUTES_PER_DAY : Int := 1440

/-- The day of a moment, counted from 1970-01-01. -/
def dayOf (t : LocalTime) : Int := t / DAY

/-- The minutes past midnight. -/
def minuteOfDay (t : LocalTime) : Nat := (t % DAY / MINUTE).toNat

/-- The minute of a moment, counted from 1970-01-01. -/
def minuteOf (t : LocalTime) : Int := t / MINUTE

/-- The hour on the clock. -/
def hour (t : LocalTime) : Nat := minuteOfDay t / 60

/-- The minute past the hour. -/
def minute (t : LocalTime) : Nat := minuteOfDay t % 60

/-- The day of the week, Monday = 0.  The first of all days was a Thursday. -/
def weekday (t : LocalTime) : UInt8 := UInt8.ofNat ((dayOf t + 3) % 7).toNat

/-- `{:02}:{:02}` of hour and minute. -/
def hhmm (t : LocalTime) : Str := twoDigits (hour t) ++ ':' :: twoDigits (minute t)

/-- A signed 64-bit number. -/
def parseI64 : Str → Option Int
  | ['-'] => none
  | '-' :: digits => (readDigits 10 (2 ^ 63 + 1) 0 digits).map fun n => -(n : Int)
  | text => (fromStrRadix 10 (2 ^ 63) text).map fun n => (n : Int)

/-- Parse `HH:MM` into minutes past midnight. -/
def minutesOfDay (hhmm : Str) : Option Int :=
  match splitOnce ':' hhmm with
  | none => none
  | some (h, m) =>
      match parseI64 h, parseI64 m with
      | some h, some m => if 0 ≤ h ∧ h < 24 ∧ 0 ≤ m ∧ m < 60 then some (h * 60 + m) else none
      | _, _ => none

example : minutesOfDay "07:30".toList = some 450 ∧ minutesOfDay "7:30".toList = some 450 ∧
    minutesOfDay "24:00".toList = none ∧ minutesOfDay "noon".toList = none := by decide +kernel

/-! ## What a program asks for -/

section Asks

variable (toF64 : ℚ → ℚ)

/-- Snap to the nearest 0.5°, halves to even, clamped to the API's 16–30 range. -/
def roundHalf (t : ℚ) : ℚ :=
  let doubled := t * 2
  let rounded : Int :=
    if |doubled - trunc doubled| = 1 / 2 then
      let lower := ⌊doubled⌋
      if lower % 2 = 0 then lower else lower + 1
    else ⌊doubled + 1 / 2⌋
  max 16 (min 30 ((rounded : ℚ) / 2))

example : roundHalf (81 / 4) = 20 ∧ roundHalf (83 / 4) = 21 ∧ roundHalf (203 / 10) = 41 / 2 ∧
    roundHalf 40 = 30 := by decide +kernel

/-- The setpoint on the `i`-th segment, which runs from its point to the next one around
the day, when the minute lies on it. -/
def segmentSetpoint (pts : List (Int × ℚ)) (mins : Int) (i : Nat) : Option ℚ :=
  match pts[i]?, pts[(i + 1) % pts.length]? with
  | some (am, at_), some (bm, bt) =>
      -- A single-segment wrap spans the whole day rather than zero minutes.
      let span := if (bm - am) % MINUTES_PER_DAY = 0 then MINUTES_PER_DAY
        else (bm - am) % MINUTES_PER_DAY
      let off := (mins - am) % MINUTES_PER_DAY
      if off < span then
        let frac := toF64 ((off : ℚ) / span)
        some (roundHalf (toF64 (at_ + toF64 (toF64 (bt - at_) * frac))))
      else none
  | _, _ => none

/-- The points whose time can be read, in order of time. -/
def readPoints (points : List CurvePoint) : List (Int × ℚ) :=
  (points.filterMap fun p => (minutesOfDay p.time).map fun m => (m, p.temperature)).insertionSort
    fun a b => a.1 ≤ b.1

/-- The interpolated setpoint for `now`, treating the points as a cyclic 24-hour curve. -/
def curveSetpoint (points : List CurvePoint) (now : LocalTime) : Option ℚ :=
  match readPoints points with
  | [] => none
  | [(_, t)] => some (roundHalf t)
  | (m, t) :: rest =>
      let pts := (m, t) :: rest
      match (List.range pts.length).findSome? (segmentSetpoint toF64 pts (minuteOfDay now)) with
      | some setpoint => some setpoint
      | none => some (roundHalf t)

/-- What a curve wants applied right now.  Without a temperature when it has no
points. -/
def curveRequest (curve : CurveConfig) (now : LocalTime) : ControlRequest :=
  { powerState := some true
    operationalMode := some curve.operationalMode
    fanSpeed := some curve.fanSpeed
    targetTemperature := curveSetpoint toF64 curve.points now }

end Asks

/-- The entry is due: the clock reads its time, on one of its days.  No days means
every day. -/
def ScheduleEntry.isDue (entry : ScheduleEntry) (now : LocalTime) : Bool :=
  (entry.days = [] || entry.days.contains (weekday now)) && entry.time = hhmm now

/-- Which schedule entries are due at `now`, by index. -/
def dueEntries (entries : List ScheduleEntry) (now : LocalTime) : List Nat :=
  (entries.zipIdx.filter fun e => e.1.isDue now).map Prod.snd

/-- The minute stamp used to fire a schedule entry at most once. -/
def minuteStamp (sayDate : Int → Str) (now : LocalTime) : Str :=
  sayDate (dayOf now) ++ ' ' :: hhmm now

/-- The entries of such a program are looked at, at every tick. -/
def Program.isSchedule (p : Program) : Bool := p.kind = "schedule"

/-- The points of such a program are. -/
def Program.isCurve (p : Program) : Bool := p.kind = "curve"

/-! ## What a client sends -/

/-- The three kinds a program can be. -/
def PROGRAM_KINDS : List String := ["favourite", "schedule", "curve"]

def NAME_MAX_CHARS : Nat := 64

/-- Everything except the id, which the server assigns. -/
structure ProgramSpec where
  name : Str
  enabled : Bool := true
  unitIds : List Str := []
  kind : String := "favourite"
  favourite : Option ControlRequest := none
  schedule : List ScheduleEntry := []
  curve : Option CurveConfig := none
  deriving DecidableEq, Repr

/-- Why a program is refused; each names the field that was checked. -/
inductive ProgramError where
  | emptyName
  | nameTooLong (n : Nat)
  | unknownKind (k : String)
  | badTime (t : Str)
  | badDay (d : UInt8)
  | temperatureOutOfRange (t : ℚ)
  | unknownMode (m : String)
  | unknownFanSpeed (s : Int)
  | settings (e : ValidationError)
  deriving DecidableEq, Repr

/-- The text a client is answered with. How a temperature is written is given. -/
def ProgramError.message (sayF64 : ℚ → String) : ProgramError → String
  | .emptyName => "name must not be empty"
  | .nameTooLong n =>
      "name must be at most " ++ toString NAME_MAX_CHARS ++ " characters, got " ++ toString n
  | .unknownKind k =>
      "kind must be one of " ++ String.intercalate ", " PROGRAM_KINDS ++ ", got '" ++ k ++ "'"
  | .badTime t => "time must be 'HH:MM' (24h), got '" ++ String.ofList t ++ "'"
  | .badDay d => "days must be 0 (Mon) .. 6 (Sun), got " ++ toString d.toNat
  | .temperatureOutOfRange t =>
      "curve temperatures must be between " ++ sayF64 TEMP_MIN ++ " and " ++ sayF64 TEMP_MAX ++
        ", got " ++ sayF64 t
  | .unknownMode m =>
      "operational_mode must be one of " ++ String.intercalate ", " OPERATIONAL_MODES ++
        ", got '" ++ m ++ "'"
  | .unknownFanSpeed s =>
      "fan_speed must be one of " ++ toString ALLOWED_FAN_SPEEDS ++ ", got " ++ toString s
  | .settings e => e.message

/-- One of the ten digits, as a byte. -/
def isAsciiDigit (b : UInt8) : Bool := 48 ≤ b && b ≤ 57

/-- Strict `HH:MM`. -/
def validHhmm (s : Str) : Bool :=
  match toUtf8 s with
  | [h, h', sep, m, m'] =>
      sep = 58 && (isAsciiDigit h && isAsciiDigit h' && isAsciiDigit m && isAsciiDigit m') &&
        ((h - 48) * 10 + (h' - 48) ≤ 23 && (m - 48) * 10 + (m' - 48) ≤ 59)
  | _ => false

/-- Sorted, and without what stands there twice. -/
def sortedDays (days : List UInt8) : List UInt8 :=
  (days.insertionSort (· ≤ ·)).destutter (· ≠ ·)

section Ingest

variable (toUppercase : String → String)

/-- One entry of a schedule, checked and normalised. -/
def checkEntry (entry : ScheduleEntry) : Except ProgramError ScheduleEntry :=
  match entry.days.find? (6 < ·) with
  | some bad => .error (.badDay bad)
  | none =>
      if ¬ validHhmm entry.time then .error (.badTime entry.time)
      else
        match entry.settings.validate toUppercase with
        | .error e => .error (.settings e)
        | .ok () => .ok { entry with days := sortedDays entry.days }

/-- A point of a curve. -/
def checkPoint (point : CurvePoint) : Except ProgramError Unit :=
  if ¬ validHhmm point.time then .error (.badTime point.time)
  else if ¬ (TEMP_MIN ≤ point.temperature ∧ point.temperature ≤ TEMP_MAX) then
    .error (.temperatureOutOfRange point.temperature)
  else .ok ()

/-- The first point that is wrong decides. -/
def checkPoints : List CurvePoint → Except ProgramError Unit
  | [] => .ok ()
  | point :: points =>
      match checkPoint point with
      | .error e => .error e
      | .ok () => checkPoints points

/-- A curve, its mode in capitals. -/
def checkCurve (curve : CurveConfig) : Except ProgramError CurveConfig :=
  let curve := { curve with operationalMode := toUppercase curve.operationalMode }
  if ¬ OPERATIONAL_MODES.contains curve.operationalMode then
    .error (.unknownMode curve.operationalMode)
  else if ¬ ALLOWED_FAN_SPEEDS.contains curve.fanSpeed then
    .error (.unknownFanSpeed curve.fanSpeed)
  else
    match checkPoints curve.points with
    | .error e => .error e
    | .ok () => .ok curve

/-- The entries as they will be stored, unless one of them is wrong. -/
def checkEntries : List ScheduleEntry → Except ProgramError (List ScheduleEntry)
  | [] => .ok []
  | entry :: entries =>
      match checkEntry toUppercase entry with
      | .error e => .error e
      | .ok entry =>
          match checkEntries entries with
          | .error e => .error e
          | .ok entries => .ok (entry :: entries)

/-- Settings that a program applies have to be settings that a request may ask for. -/
def checkSettings (favourite : Option ControlRequest) : Except ProgramError Unit :=
  match favourite with
  | none => .ok ()
  | some settings =>
      match settings.validate toUppercase with
      | .error e => .error (.settings e)
      | .ok () => .ok ()

/-- A program that is no curve need not have one. -/
def checkOptionalCurve (curve : Option CurveConfig) : Except ProgramError (Option CurveConfig) :=
  match curve with
  | none => .ok none
  | some curve =>
      match checkCurve toUppercase curve with
      | .error e => .error e
      | .ok curve => .ok (some curve)

/-- Validate, normalise, and attach the server-assigned id. The checks come in the order of the
source, and the first that fails is the error. -/
def ProgramSpec.intoProgram (spec : ProgramSpec) (id : Str) : Except ProgramError Program :=
  if spec.name.length = 0 then .error .emptyName
  else if NAME_MAX_CHARS < spec.name.length then .error (.nameTooLong spec.name.length)
  else if ¬ PROGRAM_KINDS.contains spec.kind then .error (.unknownKind spec.kind)
  else
    match checkSettings toUppercase spec.favourite with
    | .error e => .error e
    | .ok () =>
        match checkEntries toUppercase spec.schedule with
        | .error e => .error e
        | .ok schedule =>
            match checkOptionalCurve toUppercase spec.curve with
            | .error e => .error e
            | .ok curve =>
                .ok
                  { name := spec.name
                    enabled := spec.enabled
                    unitIds := spec.unitIds
                    kind := spec.kind
                    favourite := spec.favourite
                    schedule := schedule
                    curve := curve
                    id := id }

end Ingest

/-! ## The document -/

/-- The first program with that id. -/
def ProgramsDoc.get (doc : ProgramsDoc) (programId : Str) : Option Program :=
  doc.programs.find? fun p => p.id = programId

/-- The list with the first program of this id replaced. -/
def replaceFirst (programId : Str) (updated : Program) : List Program → Bool × List Program
  | [] => (false, [])
  | p :: rest =>
      if p.id = programId then (true, updated :: rest)
      else
        let (found, rest) := replaceFirst programId updated rest
        (found, p :: rest)

/-- Replace a program in place, keeping its position in the file. -/
def ProgramsDoc.replace (doc : ProgramsDoc) (programId : Str) (updated : Program) :
    Bool × ProgramsDoc :=
  let (found, programs) := replaceFirst programId updated doc.programs
  (found, { programs := programs })

/-- Remove every program with this id, and say whether there was one. -/
def ProgramsDoc.remove (doc : ProgramsDoc) (programId : Str) : Bool × ProgramsDoc :=
  let kept := doc.programs.filter fun p => p.id ≠ programId
  (kept.length ≠ doc.programs.length, { programs := kept })

/-! ## Moments and minutes -/

/-- A day has 1440 minutes. -/
theorem minuteOfDay_lt (t : LocalTime) : minuteOfDay t < 1440 := by
  unfold minuteOfDay DAY MINUTE SECOND
  omega

/-- The day and the minute of the day make the minute. -/
theorem minuteOf_eq (t : LocalTime) : minuteOf t = dayOf t * 1440 + minuteOfDay t := by
  unfold minuteOf dayOf minuteOfDay DAY MINUTE SECOND
  omega

/-- Two digits are read back as the number they were written for. There are sixty cases, all
tried. -/
private theorem readDigits_twoDigits :
    ∀ a : Fin 60, readDigits 10 60 0 (twoDigits a) = some a.val := by decide +kernel

/-- So different numbers are written with different digits. -/
private theorem twoDigits_injective {a b : Fin 60} (h : twoDigits a = twoDigits b) : a = b := by
  have hread := readDigits_twoDigits a
  rw [h, readDigits_twoDigits b] at hread
  exact Fin.val_injective (Option.some.inj hread).symm

/-- The text of the time of day tells the minute of the day. -/
theorem hhmm_inj {a b : LocalTime} (h : hhmm a = hhmm b) : minuteOfDay a = minuteOfDay b := by
  have ha := minuteOfDay_lt a
  have hb := minuteOfDay_lt b
  have hlen : (twoDigits (hour a)).length = (twoDigits (hour b)).length := rfl
  obtain ⟨hhour, hrest⟩ := List.append_inj h hlen
  have hminute := (List.cons.inj hrest).2
  have hhour' := congrArg Fin.val (@twoDigits_injective ⟨hour a, by unfold hour; omega⟩
    ⟨hour b, by unfold hour; omega⟩ hhour)
  have hminute' := congrArg Fin.val (@twoDigits_injective ⟨minute a, by unfold minute; omega⟩
    ⟨minute b, by unfold minute; omega⟩ hminute)
  simp only [hour, minute] at hhour' hminute'
  omega

/-- The time as text depends on the minute of the day alone. -/
theorem hhmm_congr {a b : LocalTime} (h : minuteOfDay a = minuteOfDay b) : hhmm a = hhmm b := by
  unfold hhmm hour minute
  rw [h]

/-- **The stamp of a moment** is that of its minute, and of no other. -/
theorem minuteStamp_inj {sayDate : Int → Str} (hdate : Function.Injective sayDate)
    {a b : LocalTime} : minuteStamp sayDate a = minuteStamp sayDate b ↔
      minuteOf a = minuteOf b := by
  have ha := minuteOfDay_lt a
  have hb := minuteOfDay_lt b
  rw [minuteOf_eq, minuteOf_eq]
  constructor
  · intro h
    obtain ⟨hday, hrest⟩ := List.append_inj' h rfl
    rw [hdate hday, hhmm_inj (List.cons.inj hrest).2]
  · intro h
    have hday : dayOf a = dayOf b := by omega
    have hminute : minuteOfDay a = minuteOfDay b := by omega
    rw [minuteStamp, minuteStamp, hday, hhmm_congr hminute]

/-! ## Due entries -/

/-- The due entries with their places. -/
def dueSlots (entries : List ScheduleEntry) (now : LocalTime) : List (Nat × ScheduleEntry) :=
  (entries.zipIdx.filter fun e => e.1.isDue now).map Prod.swap

/-- The slots that are due are those of the entries that are due, in the same order. -/
theorem dueSlots_fst (entries : List ScheduleEntry) (now : LocalTime) :
    (dueSlots entries now).map Prod.fst = dueEntries entries now := by
  rw [dueSlots, dueEntries, List.map_map]
  rfl

/-- No slot is due twice at a tick. -/
theorem dueSlots_nodup (entries : List ScheduleEntry) (now : LocalTime) :
    ((dueSlots entries now).map Prod.fst).Nodup := by
  have hplaces : (entries.zipIdx.map Prod.snd).Nodup := by
    rw [List.zipIdx_map_snd]
    exact List.nodup_range'
  rw [dueSlots_fst]
  exact hplaces.sublist (List.filter_sublist.map Prod.snd)

/-- A slot is due when the entry that stands there is. -/
theorem mem_dueSlots {entries : List ScheduleEntry} {now : LocalTime}
    {x : Nat × ScheduleEntry} :
    x ∈ dueSlots entries now ↔ entries[x.1]? = some x.2 ∧ x.2.isDue now = true := by
  unfold dueSlots
  rw [List.mem_map]
  constructor
  · rintro ⟨⟨e, i⟩, hmem, rfl⟩
    obtain ⟨hzip, hdue⟩ := List.mem_filter.mp hmem
    exact ⟨List.mk_mem_zipIdx_iff_getElem?.mp hzip, hdue⟩
  · rintro ⟨hget, hdue⟩
    exact ⟨(x.2, x.1), List.mem_filter.mpr ⟨List.mk_mem_zipIdx_iff_getElem?.mpr hget, hdue⟩, rfl⟩

/-- **What is due** at a moment. -/
theorem mem_dueEntries {entries : List ScheduleEntry} {now : LocalTime} {i : Nat} :
    i ∈ dueEntries entries now ↔ ∃ entry, entries[i]? = some entry ∧ entry.isDue now = true := by
  rw [← dueSlots_fst, List.mem_map]
  constructor
  · rintro ⟨x, hx, rfl⟩
    exact ⟨x.2, mem_dueSlots.mp hx⟩
  · rintro ⟨entry, hentry⟩
    exact ⟨(i, entry), mem_dueSlots.mpr hentry, rfl⟩

/-! ## Times that are accepted -/

/-- A digit and its byte. -/
private theorem digit_cases {b : UInt8} (h : isAsciiDigit b = true) :
    ∃ k : Fin 10, b = UInt8.ofNat (48 + k) := by
  simp only [isAsciiDigit, Bool.and_eq_true, decide_eq_true_eq] at h
  have hlow : 48 ≤ b.toNat := h.1
  have hhigh : b.toNat ≤ 57 := h.2
  refine ⟨⟨b.toNat - 48, by omega⟩, ?_⟩
  have hsum : 48 + (b.toNat - 48) = b.toNat := by omega
  dsimp only
  rw [hsum, UInt8.ofNat_toNat]

/-- The character of a digit. -/
private def digitChar (k : Fin 10) : Char := Char.ofNat (48 + k)

/-- A digit is one byte, is read back, and is none of the characters that separate or sign. -/
private theorem utf8_digitChar : ∀ k : Fin 10,
    String.utf8EncodeChar (digitChar k) = [UInt8.ofNat (48 + k)] ∧
      digitValue (digitChar k) = some k.val ∧
      digitChar k ≠ ':' ∧ digitChar k ≠ '-' ∧ digitChar k ≠ '+' := by
  decide +kernel

/-- Two bytes of digits make the number of both, with no overflow: a hundred cases. -/
private theorem byteNumber : ∀ j k : Fin 10,
    (UInt8.ofNat (48 + j) - 48) * 10 + (UInt8.ofNat (48 + k) - 48) = UInt8.ofNat (j * 10 + k) := by
  decide +kernel

/-- Two digits read as a number. Neither of them is a sign, and the number is far below the
bound. -/
private theorem parseI64_digits (j k : Fin 10) :
    parseI64 [digitChar j, digitChar k] = some ((j.val * 10 + k.val : Nat) : Int) := by
  obtain ⟨-, hvj, -, hminus, hplus⟩ := utf8_digitChar j
  obtain ⟨-, hvk, -, -, -⟩ := utf8_digitChar k
  have hbig : ∀ n : Nat, n < 100 → n < 2 ^ 63 := fun n h => h.trans (by norm_num)
  unfold parseI64
  split
  next h => exact absurd (List.cons.inj h).1 hminus
  next h => exact absurd (List.cons.inj h).1 hminus
  next =>
    have hread : fromStrRadix 10 (2 ^ 63) [digitChar j, digitChar k] =
        readDigits 10 (2 ^ 63) 0 [digitChar j, digitChar k] := by
      unfold fromStrRadix
      split
      next h => cases h
      next h => exact absurd (List.cons.inj h).1 hplus
      next h => exact absurd (List.cons.inj h).1 hplus
      next => rfl
    rw [hread]
    simp only [readDigits, hvj, hvk]
    rw [if_pos ⟨by omega, hbig _ (by omega)⟩, if_pos ⟨by omega, hbig _ (by omega)⟩]
    simp

/-- A number below a hundred is written with its two digits. -/
private theorem twoDigits_digitChar : ∀ j k : Fin 10,
    twoDigits (j.val * 10 + k.val) = [digitChar j, digitChar k] := by decide +kernel

/-- The tens and the ones of a number. -/
private theorem exists_digits {n : Nat} (h : n < 100) :
    ∃ j k : Fin 10, n = j.val * 10 + k.val :=
  ⟨⟨n / 10, by omega⟩, ⟨n % 10, by omega⟩, (Nat.div_add_mod' n 10).symm⟩

/-- A time of day as it is written. -/
def timeText (h m : Nat) : Str := twoDigits h ++ ':' :: twoDigits m

/-- The time of day as it is written in a program. -/
theorem hhmm_eq_timeText (t : LocalTime) : hhmm t = timeText (hour t) (minute t) := rfl

/-- The five bytes of a time. -/
private theorem toUtf8_digits (a b c d : Fin 10) :
    toUtf8 [digitChar a, digitChar b, ':', digitChar c, digitChar d] =
      [UInt8.ofNat (48 + a), UInt8.ofNat (48 + b), 58, UInt8.ofNat (48 + c),
        UInt8.ofNat (48 + d)] := by
  have hcolon : String.utf8EncodeChar ':' = [58] := by decide
  simp only [toUtf8, List.flatMap_cons, List.flatMap_nil, (utf8_digitChar a).1,
    (utf8_digitChar b).1, (utf8_digitChar c).1, (utf8_digitChar d).1, hcolon, List.append_nil,
    List.singleton_append]

/-- A digit is taken for one. -/
private theorem isAsciiDigit_byte : ∀ k : Fin 10, isAsciiDigit (UInt8.ofNat (48 + k)) = true := by
  decide

/-- A small number in a byte. -/
private theorem byte_le_iff {n bound : Nat} (hn : n < 100) (hbound : bound < 100) :
    UInt8.ofNat n ≤ UInt8.ofNat bound ↔ n ≤ bound := by
  rw [UInt8.le_iff_toNat_le, UInt8.toNat_ofNat_of_lt' (by unfold UInt8.size; omega),
    UInt8.toNat_ofNat_of_lt' (by unfold UInt8.size; omega)]

/-- **The times that are accepted** are those written with two digits each. The text has to be
five bytes long with a colon in the middle, so that each digit is at its own place. -/
theorem validHhmm_iff {s : Str} :
    validHhmm s = true ↔ ∃ h m : Nat, h < 24 ∧ m < 60 ∧ s = timeText h m := by
  constructor
  · intro hvalid
    unfold validHhmm at hvalid
    split at hvalid
    next a b sep c d hbytes =>
      simp only [Bool.and_eq_true, decide_eq_true_eq] at hvalid
      obtain ⟨⟨rfl, ⟨⟨ha, hb⟩, hc⟩, hd⟩, hhour, hminute⟩ := hvalid
      obtain ⟨a, rfl⟩ := digit_cases ha
      obtain ⟨b, rfl⟩ := digit_cases hb
      obtain ⟨c, rfl⟩ := digit_cases hc
      obtain ⟨d, rfl⟩ := digit_cases hd
      rw [byteNumber] at hhour hminute
      have hhour' := (@byte_le_iff _ 23 (by omega) (by decide)).mp hhour
      have hminute' := (@byte_le_iff _ 59 (by omega) (by decide)).mp hminute
      refine ⟨a.val * 10 + b.val, c.val * 10 + d.val, by omega, by omega, ?_⟩
      apply toUtf8_injective
      rw [hbytes, timeText, twoDigits_digitChar, twoDigits_digitChar]
      exact (toUtf8_digits a b c d).symm
    next => cases hvalid
  · rintro ⟨h, m, hh, hm, rfl⟩
    obtain ⟨a, b, rfl⟩ := exists_digits (n := h) (by omega)
    obtain ⟨c, d, rfl⟩ := exists_digits (n := m) (by omega)
    have hbytes := toUtf8_digits a b c d
    unfold validHhmm
    rw [timeText, twoDigits_digitChar, twoDigits_digitChar, List.cons_append, List.cons_append,
      List.nil_append, hbytes]
    simp only [isAsciiDigit_byte, byteNumber, Bool.and_eq_true, decide_eq_true_eq, and_self,
      true_and]
    exact ⟨(@byte_le_iff _ 23 (by omega) (by decide)).mpr (by omega),
      (@byte_le_iff _ 59 (by omega) (by decide)).mpr (by omega)⟩

/-- They are read as what they say. -/
theorem minutesOfDay_timeText {h m : Nat} (hh : h < 24) (hm : m < 60) :
    minutesOfDay (timeText h m) = some ((h * 60 + m : Nat) : Int) := by
  obtain ⟨a, b, rfl⟩ := exists_digits (n := h) (by omega)
  obtain ⟨c, d, rfl⟩ := exists_digits (n := m) (by omega)
  have hsplit : splitOnce ':' (timeText (a.val * 10 + b.val) (c.val * 10 + d.val)) =
      some ([digitChar a, digitChar b], [digitChar c, digitChar d]) := by
    rw [timeText, twoDigits_digitChar, twoDigits_digitChar]
    unfold splitOnce
    simp [(utf8_digitChar a).2.2.1, (utf8_digitChar b).2.2.1]
  unfold minutesOfDay
  rw [hsplit]
  dsimp only
  rw [parseI64_digits, parseI64_digits]
  dsimp only
  rw [if_pos ⟨by omega, by omega, by omega, by omega⟩]
  push_cast
  rfl

/-- **A time that is accepted can be read.** -/
theorem minutesOfDay_of_validHhmm {s : Str} (h : validHhmm s = true) :
    ∃ m, minutesOfDay s = some m := by
  obtain ⟨hour, minute, hhour, hminute, rfl⟩ := validHhmm_iff.mp h
  exact ⟨_, minutesOfDay_timeText hhour hminute⟩

/-- What is read is a minute of the day. -/
theorem minutesOfDay_range {s : Str} {m : Int} (h : minutesOfDay s = some m) :
    0 ≤ m ∧ m < 1440 := by
  unfold minutesOfDay at h
  split at h
  next => cases h
  next =>
    split at h
    next =>
      split at h
      next hrange =>
        obtain rfl := Option.some.inj h
        omega
      next => cases h
    next => cases h

/-- **A curve asks for a temperature** at every moment when the time of one of its points
can be read, and at none otherwise. -/
theorem curveSetpoint_isSome {toF64 : ℚ → ℚ} {points : List CurvePoint} {now : LocalTime} :
    (curveSetpoint toF64 points now).isSome = true ↔
      ∃ p ∈ points, (minutesOfDay p.time).isSome = true := by
  have hread : readPoints points ≠ [] ↔ ∃ p ∈ points, (minutesOfDay p.time).isSome = true := by
    unfold readPoints
    rw [← List.length_pos_iff, List.length_insertionSort, List.length_pos_iff, ne_eq,
      List.filterMap_eq_nil_iff]
    simp [Option.isSome_iff_ne_none]
  rw [← hread]
  unfold curveSetpoint
  split
  next h => simp [h]
  next h => simp [h]
  next h =>
    dsimp only
    split <;> simp [h]

/-! ## What is stored -/

/-- The entry passed its check. -/
structure ScheduleEntry.WellFormed (toUppercase : String → String) (e : ScheduleEntry) : Prop where
  days : ∀ d ∈ e.days, d ≤ 6
  daysSorted : e.days.Pairwise (· < ·)
  time : validHhmm e.time = true
  settings : e.settings.validate toUppercase = .ok ()

/-- What a stored curve meets: a mode and a fan speed there are, times that can be read and
temperatures in range. -/
structure CurveConfig.WellFormed (c : CurveConfig) : Prop where
  mode : c.operationalMode ∈ OPERATIONAL_MODES
  fan : c.fanSpeed ∈ ALLOWED_FAN_SPEEDS
  points : ∀ p ∈ c.points, validHhmm p.time = true ∧ TEMP_MIN ≤ p.temperature ∧
    p.temperature ≤ TEMP_MAX

/-- What a stored program meets, field by field, whatever its kind. -/
structure Program.WellFormed (toUppercase : String → String) (p : Program) : Prop where
  name : 1 ≤ p.name.length ∧ p.name.length ≤ NAME_MAX_CHARS
  kind : p.kind ∈ PROGRAM_KINDS
  favourite : ∀ r, p.favourite = some r → r.validate toUppercase = .ok ()
  schedule : ∀ e ∈ p.schedule, e.WellFormed toUppercase
  curve : ∀ c, p.curve = some c → c.WellFormed

/-- A curve with points has one whose time can be read. -/
def Program.Readable (p : Program) : Prop :=
  ∀ c, p.curve = some c → c.points ≠ [] → ∃ point ∈ c.points, (minutesOfDay point.time).isSome

variable {toUppercase : String → String}

/-- In particular each of its times can be read. -/
theorem Program.WellFormed.readable {p : Program} (h : p.WellFormed toUppercase) :
    p.Readable := by
  intro c hc hpoints
  obtain ⟨point, hpoint⟩ := List.exists_mem_of_ne_nil _ hpoints
  obtain ⟨m, hm⟩ := minutesOfDay_of_validHhmm ((h.curve c hc).points point hpoint).1
  exact ⟨point, hpoint, Option.isSome_iff_exists.mpr ⟨m, hm⟩⟩

/-- The days are stored in order and once each. -/
theorem sortedDays_pairwise (days : List UInt8) : (sortedDays days).Pairwise (· < ·) := by
  have hsorted : (sortedDays days).Pairwise (· ≤ ·) :=
    (List.pairwise_insertionSort (· ≤ ·) days).sublist (List.destutter_sublist _ _)
  have hchain : (sortedDays days).IsChain (· ≠ ·) := List.isChain_destutter _ _
  have hlt : (sortedDays days).IsChain (· < ·) := by
    rw [List.isChain_iff_getElem] at hchain ⊢
    intro i hi
    have hle := List.pairwise_iff_getElem.mp hsorted i (i + 1) (by omega) hi (by omega)
    exact UInt8.lt_of_le_of_ne hle (hchain i hi)
  exact List.isChain_iff_pairwise.mp hlt

/-- An entry that is accepted is well formed as it is stored. -/
theorem checkEntry_ok {entry checked : ScheduleEntry}
    (h : checkEntry toUppercase entry = .ok checked) : checked.WellFormed toUppercase := by
  unfold checkEntry at h
  split at h
  next => cases h
  next hdays =>
    split at h
    next => cases h
    next htime =>
      split at h
      next => cases h
      next hsettings =>
        obtain rfl := Except.ok.inj h
        refine ⟨?_, sortedDays_pairwise _, not_not.mp htime, hsettings⟩
        intro d hd
        have hmem : d ∈ entry.days :=
          (List.mem_insertionSort _).mp ((List.destutter_sublist _ _).subset hd)
        simpa using List.find?_eq_none.mp hdays d hmem

/-- So are all of them, by induction on the list. -/
theorem checkEntries_ok {entries checked : List ScheduleEntry}
    (h : checkEntries toUppercase entries = .ok checked) :
    ∀ e ∈ checked, e.WellFormed toUppercase := by
  induction entries generalizing checked with
  | nil =>
      obtain rfl := Except.ok.inj h
      exact fun e he => absurd he List.not_mem_nil
  | cons entry entries ih =>
      unfold checkEntries at h
      split at h
      next => cases h
      next first hfirst =>
        split at h
        next => cases h
        next rest hrest =>
          obtain rfl := Except.ok.inj h
          rw [List.forall_mem_cons]
          exact ⟨checkEntry_ok hfirst, ih hrest⟩

/-- Each point of a curve that passes the checks has a valid time and a temperature in range. -/
theorem checkPoints_ok {points : List CurvePoint} (h : checkPoints points = .ok ()) :
    ∀ p ∈ points, validHhmm p.time = true ∧ TEMP_MIN ≤ p.temperature ∧
      p.temperature ≤ TEMP_MAX := by
  induction points with
  | nil => exact fun p hp => absurd hp List.not_mem_nil
  | cons point points ih =>
      unfold checkPoints at h
      split at h
      next => cases h
      next hpoint =>
        rw [List.forall_mem_cons]
        refine ⟨?_, ih h⟩
        unfold checkPoint at hpoint
        split at hpoint
        next => cases hpoint
        next htime =>
          split at hpoint
          next => cases hpoint
          next hrange => exact ⟨not_not.mp htime, not_not.mp hrange⟩

/-- A curve that is accepted is well formed as it is stored, its mode in capitals. -/
theorem checkCurve_ok {curve checked : CurveConfig}
    (h : checkCurve toUppercase curve = .ok checked) : checked.WellFormed := by
  unfold checkCurve at h
  dsimp only at h
  split at h
  next => cases h
  next hmode =>
    split at h
    next => cases h
    next hfan =>
      split at h
      next => cases h
      next hpoints =>
        obtain rfl := Except.ok.inj h
        exact ⟨by simpa using hmode, by simpa using hfan, checkPoints_ok hpoints⟩

/-- Settings that are accepted pass the check a request has to pass. -/
theorem checkSettings_ok {favourite : Option ControlRequest}
    (h : checkSettings toUppercase favourite = .ok ()) :
    ∀ r, favourite = some r → r.validate toUppercase = .ok () := by
  rintro r rfl
  unfold checkSettings at h
  dsimp only at h
  split at h
  next => cases h
  next hvalid => exact hvalid

/-- A curve that is there was accepted. -/
theorem checkOptionalCurve_ok {curve checked : Option CurveConfig}
    (h : checkOptionalCurve toUppercase curve = .ok checked) :
    ∀ c, checked = some c → c.WellFormed := by
  rintro c rfl
  unfold checkOptionalCurve at h
  split at h
  next => cases h
  next =>
    split at h
    next => cases h
    next hcurve =>
      obtain rfl := Option.some.inj (Except.ok.inj h)
      exact checkCurve_ok hcurve

/-- **What is stored** has passed every check and has the id it was given. The checks are made one
after the other, and the program is built behind the last of them. -/
theorem ProgramSpec.intoProgram_ok {spec : ProgramSpec} {id : Str} {p : Program}
    (h : spec.intoProgram toUppercase id = .ok p) : p.WellFormed toUppercase ∧ p.id = id := by
  unfold intoProgram at h
  split at h
  next => cases h
  next hempty =>
    split at h
    next => cases h
    next hlong =>
      split at h
      next => cases h
      next hkind =>
        split at h
        next => cases h
        next hfavourite =>
          split at h
          next => cases h
          next hschedule =>
            split at h
            next => cases h
            next hcurve =>
              obtain rfl := Except.ok.inj h
              have hname := And.intro (Nat.pos_of_ne_zero hempty) (Nat.le_of_not_lt hlong)
              exact ⟨⟨hname, by simpa using hkind, checkSettings_ok hfavourite,
                checkEntries_ok hschedule, checkOptionalCurve_ok hcurve⟩, rfl⟩

/-! ## What the document operations do -/

/-- What is found is in the document, under that id. -/
theorem ProgramsDoc.mem_of_get {doc : ProgramsDoc} {programId : Str} {p : Program}
    (h : doc.get programId = some p) : p ∈ doc.programs ∧ p.id = programId := by
  unfold get at h
  exact ⟨List.mem_of_find?_eq_some h, by simpa using List.find?_some h⟩

/-- Putting the old program back undoes a replacement, wherever it stands. -/
theorem replaceFirst_back {programId : Str} {previous updated : Program} {programs : List Program}
    (hprevious : programs.find? (fun p => p.id = programId) = some previous)
    (hid : updated.id = programId) :
    (replaceFirst programId previous (replaceFirst programId updated programs).2).2 = programs := by
  induction programs with
  | nil => cases hprevious
  | cons p rest ih =>
      unfold replaceFirst
      by_cases hp : p.id = programId
      · rw [List.find?_cons_of_pos (by simpa using hp)] at hprevious
        obtain rfl := Option.some.inj hprevious
        simp [hp, replaceFirst, hid]
      · rw [List.find?_cons_of_neg (by simpa using hp)] at hprevious
        simp only [if_neg hp, replaceFirst]
        rw [ih hprevious]

/-- A replacement brings in one program and no other. -/
theorem mem_replaceFirst {programId : Str} {updated p : Program} {programs : List Program}
    (h : p ∈ (replaceFirst programId updated programs).2) : p = updated ∨ p ∈ programs := by
  induction programs with
  | nil => cases h
  | cons q rest ih =>
      unfold replaceFirst at h
      split at h
      next =>
        rcases List.mem_cons.mp h with rfl | h
        · exact Or.inl rfl
        · exact Or.inr (List.mem_cons_of_mem _ h)
      next =>
        rcases List.mem_cons.mp h with rfl | h
        · exact Or.inr List.mem_cons_self
        · exact (ih h).imp_right (List.mem_cons_of_mem _)

/-- What a removal leaves. -/
theorem ProgramsDoc.mem_remove {doc : ProgramsDoc} {programId : Str} {p : Program} :
    p ∈ (doc.remove programId).2.programs ↔ p ∈ doc.programs ∧ p.id ≠ programId := by
  unfold remove
  rw [List.mem_filter, decide_eq_true_iff]

end BreezeStore
