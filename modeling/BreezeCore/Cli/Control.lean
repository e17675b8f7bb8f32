import BreezeCore.Lib.Numerals
import BreezeCore.Store.Normalisation

/-!
# The control command

`breeze-core control 'NAME' TYPE TEMPERATURE FLAP FAN EXTRA TIMER`: five slots told
apart by their position, and a duration that may stand anywhere.  `none` and its like
leave a slot alone.

Here is what the words mean.  How the value of a decimal fraction is rounded to a float
is a parameter.
-/

namespace BreezeCli

open Text Ac BreezeStore

/-! ## Numbers -/

/-- What a text is read as by `parse::<f64>()`. -/
inductive Double where
  | finite (value : ℚ)
  | infinite (negative : Bool)
  | nan
  deriving DecidableEq

/-- Digits, a point and an exponent: the value they denote. -/
def readDecimal (body : Str) : Option ℚ :=
  let whole := body.takeWhile isDigit
  let rest := body.drop whole.length
  let (fraction, rest) : Str × Str :=
    match rest with
    | '.' :: rest => (rest.takeWhile isDigit, rest.dropWhile isDigit)
    | rest => ([], rest)
  if whole = [] ∧ fraction = [] then none
  else (readExponent rest).map fun e => scale (decimal (whole ++ fraction)) (e - fraction.length)

/-- A number as Rust reads one, the infinities and what is no number included. How a double is
rounded is given. -/
def parseF64 (toF64 : ℚ → ℚ) (text : Str) : Option Double :=
  let (negative, body) := readSign text
  let name := toAsciiLowercase body
  if name = "inf".toList ∨ name = "infinity".toList then some (.infinite negative)
  else if name = "nan".toList then some .nan
  else
    (readDecimal body).map fun value =>
      if value < f64Bound then .finite (toF64 (if negative then -value else value))
      else .infinite negative

/-- The characters that may stand at the end, taken off. -/
def trimEndMatches (chars : List Char) (text : Str) : Str :=
  (text.reverse.dropWhile chars.contains).reverse

/-! ## The words -/

/-- What the seven positions mean, once parsed. -/
structure Command where
  /-- `off` switches the unit off; any mode switches it on. -/
  power : Option Bool := none
  mode : Option String := none
  targetTemperature : Option ℚ := none
  swingMode : Option String := none
  fanSpeed : Option Int := none
  eco : Option Bool := none
  turbo : Option Bool := none
  /-- Minutes after which to switch the unit off. -/
  timerMinutes : Option UInt32 := none
  deriving DecidableEq

/-- The control request body, with only the fields that were asked for. -/
def Command.body (c : Command) : ControlRequest where
  powerState := c.power
  operationalMode := c.mode
  targetTemperature := c.targetTemperature
  fanSpeed := c.fanSpeed
  swingMode := c.swingMode
  eco := c.eco
  turbo := c.turbo

/-- Why the words are refused, with what of them is named in the text. -/
inductive Refusal where
  | tooMany (got : Nat)
  | twoTimers
  | oneTooMany (word : Str)
  | notAMode (word : Str)
  | notATemperature (word : Str)
  | outside (value : Double)
  | notHalfDegree (value : ℚ)
  | notAFlap (word : Str)
  | notAFan (word : Str)
  | notASpeed (value : Int)
  | notAnExtra (word : Str)
  deriving DecidableEq

/-- The text of a refusal. How a double is written is given, as the grammar does not depend on
it. -/
def Refusal.message (sayF64 : Double → String) : Refusal → String
  | .tooMany got =>
      "too many arguments: expected at most TYPE TEMPERATURE FLAP FAN EXTRA TIMER, got " ++
        toString got
  | .twoTimers => "two timers were given"
  | .oneTooMany word => "'" ++ String.ofList word ++ "' is one argument too many"
  | .notAMode word =>
      "'" ++ String.ofList word ++
        "' is not a mode. Use cool, heat, dry, auto, fan, on, off or none"
  | .notATemperature word => "'" ++ String.ofList word ++ "' is not a temperature"
  | .outside value => sayF64 value ++ " is outside the 16-30 °C the API accepts"
  | .notHalfDegree value => sayF64 (.finite value) ++ " is not a whole or half degree"
  | .notAFlap word =>
      "'" ++ String.ofList word ++
        "' is not a flap setting. Use both, horizontal, vertical, off or none"
  | .notAFan word =>
      "'" ++ String.ofList word ++ "' is not a fan speed. Use silent, low, medium, high, max, " ++
        "auto, none, or a percentage"
  | .notASpeed value =>
      toString value ++ " is not one of the speeds the API accepts (20, 40, 60, 80, 100, 102)"
  | .notAnExtra word =>
      "'" ++ String.ofList word ++
        "' is not an extra. Use turbo, eco, no-turbo, no-eco or none"

/-- `none`, `-`, and an empty string all mean "leave this alone". -/
def skipped (word : Str) : Bool :=
  ["none", "-", "", "same", "keep"].any fun text => word = text.toList

/-- The entry of a table of words. -/
def named {α : Type} (table : List (String × α)) (word : Str) : Option α :=
  (table.find? fun entry => word = entry.1.toList).map Prod.snd

/-- The words for the modes. -/
def MODE_WORDS : List (String × String) :=
  [("cool", "COOL"), ("cooling", "COOL"), ("heat", "HEAT"), ("heating", "HEAT"), ("dry", "DRY"),
    ("dehumidify", "DRY"), ("auto", "AUTO"), ("fan", "FAN_ONLY"), ("fan_only", "FAN_ONLY"),
    ("fanonly", "FAN_ONLY"), ("ventilate", "FAN_ONLY")]

/-- The words for the flaps. -/
def FLAP_WORDS : List (String × String) :=
  [("both", "BOTH"), ("all", "BOTH"), ("horizontal", "HORIZONTAL"), ("h", "HORIZONTAL"),
    ("lr", "HORIZONTAL"), ("leftright", "HORIZONTAL"), ("vertical", "VERTICAL"),
    ("v", "VERTICAL"), ("ud", "VERTICAL"), ("updown", "VERTICAL"), ("off", "OFF"),
    ("still", "OFF"), ("fixed", "OFF")]

/-- The words for the fan speeds. -/
def FAN_WORDS : List (String × Int) :=
  [("silent", 20), ("quiet", 20), ("low", 40), ("l", 40), ("medium", 60), ("med", 60), ("m", 60),
    ("high", 80), ("h", 80), ("max", 100), ("full", 100), ("auto", 102), ("a", 102)]

/-- The first word: on, off, or a mode, which switches the unit on. -/
def applyType (command : Command) (word : Str) : Except Refusal Command :=
  if word = "off".toList then .ok { command with power := some false }
  else if word = "on".toList then .ok { command with power := some true }
  else
    match named MODE_WORDS word with
    | none => .error (.notAMode word)
    -- A mode implies the unit should be running.
    | some mode => .ok { command with mode := some mode, power := some true }

/-- A temperature in half degrees from 16 to 30, with its unit or without. -/
def parseTemperature (toF64 : ℚ → ℚ) (word : Str) : Except Refusal ℚ :=
  match parseF64 toF64 (trimEndMatches ['c', 'C', '°'] word) with
  | none => .error (.notATemperature word)
  | some (.finite value) =>
      if ¬ (16 ≤ value ∧ value ≤ 30) then .error (.outside (.finite value))
      else if value * 2 - trunc (value * 2) ≠ 0 then .error (.notHalfDegree value)
      else .ok value
  | some value => .error (.outside value)

/-- Which flaps move. -/
def parseFlap (word : Str) : Except Refusal String :=
  match named FLAP_WORDS word with
  | none => .error (.notAFlap word)
  | some flap => .ok flap

/-- A fan speed by its name or its number. -/
def parseFan (word : Str) : Except Refusal Int :=
  match named FAN_WORDS word with
  | some speed => .ok speed
  | none =>
      -- A bare percentage, for a unit that takes custom speeds.
      match parseI64 (trimEndMatches ['%'] word) with
      | none => .error (.notAFan word)
      | some value =>
          if ¬ ALLOWED_FAN_SPEEDS.contains value then .error (.notASpeed value) else .ok value

/-- An extra, and what it sets. -/
inductive Extra where
  | turbo (on : Bool)
  | eco (on : Bool)

/-- The words for the extras. -/
def EXTRA_WORDS : List (String × Extra) :=
  [("turbo", .turbo true), ("boost", .turbo true), ("eco", .eco true), ("saving", .eco true),
    ("noturbo", .turbo false), ("no-turbo", .turbo false), ("noeco", .eco false),
    ("no-eco", .eco false)]

/-- Put an extra into the command. -/
def Extra.set (command : Command) : Extra → Command
  | .turbo on => { command with turbo := some on }
  | .eco on => { command with eco := some on }

/-- The parts of an extra, between plus signs and commas. -/
def extraParts (word : Str) : List Str := (split '+' word).flatMap (split ',')

/-- The extras one by one; empty ones are passed over. -/
def applyParts (command : Command) : List Str → Except Refusal Command
  | [] => .ok command
  | part :: parts =>
      if trim part = [] then applyParts command parts
      else
        match named EXTRA_WORDS (trim part) with
        | none => .error (.notAnExtra (trim part))
        | some extra => applyParts (extra.set command) parts

/-- Both at once is accepted as `turbo+eco`. -/
def applyExtra (command : Command) (word : Str) : Except Refusal Command :=
  applyParts command (extraParts word)

/-- How minutes are written. -/
def MINUTE_UNITS : List String := ["m", "min", "mins", "minute", "minutes"]
/-- How hours are. -/
def HOUR_UNITS : List String := ["h", "hr", "hrs", "hour", "hours"]

/-- `15m`, `90min`, `2h`: digits and a unit.  The product is one of 32 bits. -/
def parseTimer (word : Str) : Option UInt32 :=
  let digits := word.takeWhile isDigit
  let unit := word.dropWhile isDigit
  if unit = [] ∨ digits = [] then none
  else
    match fromStrRadix 10 (2 ^ 32) digits with
    | none => none
    | some value =>
        if MINUTE_UNITS.any fun text => unit = text.toList then some (UInt32.ofNat value)
        else if HOUR_UNITS.any fun text => unit = text.toList then some (UInt32.ofNat value * 60)
        else none

/-! ## The command -/

/-- The words that are no durations, and the minutes of the one that is. -/
def takeTimer (timer : Option UInt32) (positional : List Str) :
    List Str → Except Refusal (Option UInt32 × List Str)
  | [] => .ok (timer, positional)
  | word :: words =>
      match parseTimer (toAsciiLowercase word) with
      | some minutes =>
          if timer.isSome then .error .twoTimers else takeTimer (some minutes) positional words
      | none => takeTimer timer (positional ++ [word]) words

/-- One word in its slot. -/
def applySlot (toF64 : ℚ → ℚ) (command : Command) (index : Nat) (word : Str) :
    Except Refusal Command :=
  let lower := toAsciiLowercase word
  match index with
  | 0 => applyType command lower
  | 1 => (parseTemperature toF64 lower).map fun t => { command with targetTemperature := some t }
  | 2 => (parseFlap lower).map fun flap => { command with swingMode := some flap }
  | 3 => (parseFan lower).map fun speed => { command with fanSpeed := some speed }
  | 4 => applyExtra command lower
  | _ => .error (.oneTooMany word)

/-- The words in their slots, one by one; the first that does not fit decides. -/
def applyWords (toF64 : ℚ → ℚ) (command : Command) : (index : Nat) → List Str →
    Except Refusal Command
  | _, [] => .ok command
  | index, word :: words =>
      if skipped (toAsciiLowercase word) then applyWords toF64 command (index + 1) words
      else
        match applySlot toF64 command index word with
        | .error e => .error e
        | .ok command => applyWords toF64 command (index + 1) words

/-- Parse the positional arguments after the name. -/
def parse (toF64 : ℚ → ℚ) (words : List Str) : Except Refusal Command :=
  if 6 < words.length then .error (.tooMany words.length)
  else
    match takeTimer none [] words with
    | .error e => .error e
    | .ok (timer, positional) => applyWords toF64 { timerMinutes := timer } 0 positional

end BreezeCli
