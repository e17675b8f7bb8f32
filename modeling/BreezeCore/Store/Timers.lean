import BreezeCore.Lib.Text
import BreezeCore.Store.Control

/-!
# One-shot timers

A client asks for a number of minutes, or for a day and a time of day; the server
computes the moment from its own wall clock and stores it as text.  A unit has at
most one timer of each kind: a new one displaces those that cover one of its
units.

Moments are nanoseconds of wall clock.  What the date library makes of them as
text is a parameter, and so is how a string is quoted in a message.
-/

namespace BreezeStore

open Text

/-- A moment of the server's wall clock, in nanoseconds. -/
abbrev LocalTime := Int

/-- Moments are counted in nanoseconds. -/
def SECOND : Int := 1000000000
/-- A minute of them. -/
def MINUTE : Int := 60 * SECOND
/-- A day of them. -/
def DAY : Int := 86400 * SECOND

/-- Moments as text, and text in messages. -/
structure Clock where
  /-- `format` with `%Y-%m-%dT%H:%M:%S`. -/
  formatLocal : LocalTime → Str
  /-- `parse_from_str` with the same format. -/
  parseLocal : Str → Option LocalTime
  /-- `format` with `%H:%M on %Y-%m-%d`. -/
  sayLocal : LocalTime → Str
  /-- A string as `{:?}` writes it. -/
  quoted : Str → Str

/-- A day is the ceiling of a sleep timer. -/
def MAX_MINUTES : Nat := 24 * 60

/-- How far ahead a scheduled start may be. -/
def MAX_START_DAYS : Nat := 30

/-- How many unit ids one timer may name. -/
def MAX_UNITS : Nat := 64

/-- How late a scheduled start may still fire. -/
def START_GRACE_MINUTES : Int := 15

/-- A unit has at most one timer of each kind. -/
inductive TimerKind where
  | sleep
  | start
  deriving DecidableEq, Repr

/-- A timer that is pending: what it does, to which units, and when. -/
structure Timer where
  id : Str
  /-- Empty means every unit. -/
  unitIds : List Str
  minutes : Nat
  createdAt : Str
  firesAt : Str
  settings : ControlRequest
  label : Str
  kind : TimerKind
  deriving DecidableEq, Repr

/-- `timers.json`. -/
structure TimersDoc where
  timers : List Timer := []
  deriving DecidableEq, Repr

/-- Why a timer is refused. -/
inductive TimerError where
  | badMinutes (m : Nat)
  | tooManyUnits (n : Nat)
  | badDays (d : Nat)
  | badTime (t : Str)
  /-- A start whose moment has already gone. -/
  | inThePast (t : Str)
  deriving DecidableEq, Repr

variable (clock : Clock)

/-- The text a client is answered with. -/
def TimerError.message : TimerError → String
  | .badMinutes m =>
      "minutes must be between 1 and " ++ toString MAX_MINUTES ++ ", got " ++ toString m
  | .tooManyUnits n => "at most " ++ toString MAX_UNITS ++ " units, got " ++ toString n
  | .badDays d => "days must be between 0 and " ++ toString MAX_START_DAYS ++ ", got " ++ toString d
  | .badTime t => "at must be a time as HH:MM, got " ++ String.ofList (clock.quoted t)
  | .inThePast t => String.ofList t ++ " has already passed on the server's clock"

/-- `HH:MM` on a 24-hour clock, as hour and minute.  One-digit hours are
accepted. -/
def parseHhmm (text : Str) : Option (Nat × Nat) :=
  match splitOnce ':' (trim text) with
  | none => none
  | some (h, m) =>
      if h = [] ∨ 2 < (toUtf8 h).length ∨ (toUtf8 m).length ≠ 2 then none
      else
        match fromStrRadix 10 (2 ^ 32) h, fromStrRadix 10 (2 ^ 32) m with
        | some hour, some minute => if hour < 24 ∧ minute < 60 then some (hour, minute) else none
        | _, _ => none

/-- Build a timer, computing its moment from `now`. Without settings it switches the unit off. -/
def buildTimer (id : Str) (unitIds : List Str) (minutes : Nat) (settings : Option ControlRequest)
    (label : Str) (now : LocalTime) : Except TimerError Timer :=
  if minutes = 0 ∨ MAX_MINUTES < minutes then .error (.badMinutes minutes)
  else if MAX_UNITS < unitIds.length then .error (.tooManyUnits unitIds.length)
  else
    .ok
      { id := id
        unitIds := unitIds
        minutes := minutes
        createdAt := clock.formatLocal now
        firesAt := clock.formatLocal (now + minutes * MINUTE)
        settings := settings.getD .powerOff
        label := label
        kind := .sleep }

/-- Build a scheduled start: `days` from today, at `at_` on the server's clock. A moment that is
past already is an error. -/
def buildStartTimer (id : Str) (unitIds : List Str) (days : Nat) (at_ : Str) (label : Str)
    (now : LocalTime) : Except TimerError Timer :=
  if MAX_START_DAYS < days then .error (.badDays days)
  else if MAX_UNITS < unitIds.length then .error (.tooManyUnits unitIds.length)
  else
    match parseHhmm at_ with
    | none => .error (.badTime at_)
    | some (hour, minute) =>
        let firesAt := (now / DAY + days) * DAY + (hour * 60 + minute) * MINUTE
        if firesAt ≤ now then .error (.inThePast (clock.sayLocal firesAt))
        else
          let seconds := (firesAt - now).tdiv SECOND
          .ok
            { id := id
              unitIds := unitIds
              -- The whole minutes until it fires, rounded up.
              minutes := ((seconds + 59).tdiv 60).toNat
              createdAt := clock.formatLocal now
              firesAt := clock.formatLocal firesAt
              settings := .powerOn
              label := label
              kind := .start }

/-- Whole seconds until this fires, floored at zero.  A time that cannot be read
counts as due. -/
def Timer.secondsRemaining (t : Timer) (now : LocalTime) : Int :=
  match clock.parseLocal t.firesAt with
  | none => 0
  | some due => max ((due - now).tdiv SECOND) 0

/-- Nothing is left of its time, in whole seconds. -/
def Timer.isDue (t : Timer) (now : LocalTime) : Bool := t.secondsRemaining clock now = 0

/-- A scheduled start whose moment passed too long ago.  It is dropped rather
than fired, and so is one whose time cannot be read. -/
def Timer.missed (t : Timer) (now : LocalTime) : Bool :=
  t.kind = .start &&
    match clock.parseLocal t.firesAt with
    | none => true
    | some due => START_GRACE_MINUTES * MINUTE < now - due

/-- Whether this timer covers a unit.  An empty list means every unit. -/
def Timer.covers (t : Timer) (unitId : Str) : Bool :=
  t.unitIds = [] || t.unitIds.any (· = unitId)

/-- The timer is of this kind and promises something about one of these units. -/
def Timer.displacedBy (t : Timer) (unitIds : List Str) (kind : TimerKind) : Bool :=
  t.kind = kind && unitIds.any t.covers

/-- Remove any timer of this kind that covers one of these units. -/
def TimersDoc.replaceForUnits (doc : TimersDoc) (unitIds : List Str) (kind : TimerKind) :
    Nat × TimersDoc :=
  let kept := doc.timers.filter fun t => ! t.displacedBy unitIds kind
  (doc.timers.length - kept.length, { timers := kept })

/-- Remove every timer with this id, and say whether there was one. -/
def TimersDoc.remove (doc : TimersDoc) (timerId : Str) : Bool × TimersDoc :=
  let kept := doc.timers.filter fun t => t.id ≠ timerId
  (kept.length ≠ doc.timers.length, { timers := kept })

/-- Timers that have come due, in creation order. -/
def TimersDoc.due (doc : TimersDoc) (now : LocalTime) : List Timer :=
  doc.timers.filter fun t => t.isDue clock now

/-! ## One day

The date library on the moments of 2026-08-23. -/

/-- Midnight of that day. -/
def oneMidnight : LocalTime := 1787443200 * SECOND

/-- A time of that day. -/
def oneDayAt (hour minute : Nat) : LocalTime := oneMidnight + (hour * 60 + minute) * MINUTE

/-- A number below a hundred in two digits. -/
def twoDigits (n : Nat) : Str := [Char.ofNat (48 + n / 10 % 10), Char.ofNat (48 + n % 10)]

/-- A calendar of one day. -/
def oneDay : Clock where
  formatLocal := fun t =>
    let s := ((t - oneMidnight) / SECOND).toNat
    "2026-08-23T".toList ++ twoDigits (s / 3600) ++ ':' :: twoDigits (s / 60 % 60) ++
      ':' :: twoDigits (s % 60)
  parseLocal := fun text =>
    if text.take 11 = "2026-08-23T".toList then
      match text.drop 11 with
      | [h, h', ':', m, m', ':', s, s'] =>
          some (oneMidnight +
            ((decimal [h, h'] * 60 + decimal [m, m']) * 60 + decimal [s, s'] : Nat) * SECOND)
      | _ => none
    else none
  sayLocal := fun t =>
    let s := ((t - oneMidnight) / SECOND).toNat
    twoDigits (s / 3600) ++ ':' :: twoDigits (s / 60 % 60) ++ " on 2026-08-23".toList
  quoted := fun text => '"' :: text ++ ['"']

example : oneDay.parseLocal (oneDay.formatLocal (oneDayAt 21 45)) = some (oneDayAt 21 45) := by
  decide +kernel

/-! ## What is built -/

variable {clock}

/-- A timer is stored with a moment ahead of the clock. -/
theorem buildTimer_ok {id : Str} {unitIds : List Str} {minutes : Nat}
    {settings : Option ControlRequest} {label : Str} {now : LocalTime} {t : Timer}
    (h : buildTimer clock id unitIds minutes settings label now = .ok t) :
    t.id = id ∧ t.unitIds = unitIds ∧
      ∃ moment, now < moment ∧ t.firesAt = clock.formatLocal moment := by
  unfold buildTimer at h
  split at h
  next => cases h
  next hminutes =>
    split at h
    next => cases h
    next =>
      obtain rfl := Except.ok.inj h
      have hsome : 0 < minutes := Nat.pos_of_ne_zero fun hzero => hminutes (.inl hzero)
      have hahead : 0 < (minutes : Int) * MINUTE :=
        Int.mul_pos (Int.natCast_pos.mpr hsome) (by decide)
      exact ⟨rfl, rfl, _, Int.lt_add_of_pos_right now hahead, rfl⟩

/-- A start that is accepted is for a moment ahead of the clock. -/
theorem buildStartTimer_ok {id : Str} {unitIds : List Str} {days : Nat} {at_ label : Str}
    {now : LocalTime} {t : Timer}
    (h : buildStartTimer clock id unitIds days at_ label now = .ok t) :
    t.id = id ∧ t.unitIds = unitIds ∧
      ∃ moment, now < moment ∧ t.firesAt = clock.formatLocal moment := by
  unfold buildStartTimer at h
  split at h
  next => cases h
  next =>
    split at h
    next => cases h
    next =>
      split at h
      next => cases h
      next =>
        dsimp only at h
        split at h
        next => cases h
        next hlater =>
          obtain rfl := Except.ok.inj h
          exact ⟨rfl, rfl, _, not_le.mp hlater, rfl⟩

/-- Cancelling leaves the others in their order. -/
theorem TimersDoc.remove_sublist (doc : TimersDoc) (timerId : Str) :
    (doc.remove timerId).2.timers.Sublist doc.timers := List.filter_sublist

/-- Displacing timers leaves a part of the list, in its order. -/
theorem TimersDoc.replaceForUnits_sublist (doc : TimersDoc) (unitIds : List Str)
    (kind : TimerKind) : (doc.replaceForUnits unitIds kind).2.timers.Sublist doc.timers :=
  List.filter_sublist

/-- What a removal leaves. -/
theorem TimersDoc.mem_remove {doc : TimersDoc} {timerId : Str} {t : Timer} :
    t ∈ (doc.remove timerId).2.timers ↔ t ∈ doc.timers ∧ t.id ≠ timerId := by
  unfold remove
  rw [List.mem_filter, decide_eq_true_iff]

/-- A removal changes the document exactly when it finds something. -/
theorem TimersDoc.remove_fst {doc : TimersDoc} {timerId : Str} :
    (doc.remove timerId).1 = true ↔ ∃ t ∈ doc.timers, t.id = timerId := by
  unfold remove
  rw [decide_eq_true_iff, ne_eq, List.length_filter_eq_length_iff]
  simp

/-- What is left of the timers is what was not displaced. -/
theorem TimersDoc.mem_replaceForUnits {doc : TimersDoc} {unitIds : List Str} {kind : TimerKind}
    {t : Timer} :
    t ∈ (doc.replaceForUnits unitIds kind).2.timers ↔
      t ∈ doc.timers ∧ t.displacedBy unitIds kind = false := by
  unfold replaceForUnits
  rw [List.mem_filter, Bool.not_eq_true']

end BreezeStore
