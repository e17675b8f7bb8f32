import BreezeCore.Cli.Fetch
import BreezeCore.Device.Listen
import BreezeCore.Lib.Base64

/-!
# `breeze-core pair`

The units on the LAN are found and written to the configuration.  A unit is matched by the id it
reports: one that is there already keeps its place, its name unless another is typed, and the
credentials it has.

Where a text depends on the reader of JSON or on the operating system it is given.
-/

namespace BreezeCli.Pair

open Fallible Text Bytes Talks BreezeStore Discover
open BreezeDevice (ScanReport)
open BreezeHttp.ConfigRoutes (UnitView unitView)
open Fetch (ReadError LoadError loaded)

/-- What the command line asked for. -/
structure Options where
  /-- Skip the sweep and probe one address. -/
  ip : Option Str
  out : Option Str
  /-- Ask for names, and for V3 credentials. -/
  prompt : Bool

/-- The digits of a token. -/
def TOKEN_HEX_LEN : Nat := 128
/-- The digits of a key. -/
def KEY_HEX_LEN : Nat := 64

/-! ## The world -/

/-- What the command asks of the world: a file, random bytes, what is on the network, what a
person types, a line to be printed, and a document to be saved. -/
inductive Kind where
  | read
  | entropy
  | scan
  | ask
  | say
  | save

/-- A line, or the list of units as it is shown. -/
inductive Line where
  | text (s : Str)
  | summary (units : List UnitView)
  deriving DecidableEq

/-- What comes of a prompt. -/
inductive Typed where
  | unwritable (e : Str)
  | unreadable (e : Str)
  | ended
  | line (s : Str)
  deriving DecidableEq

/-- What the command asks of the machine, the network and the person, and what it does. -/
def Question : Kind → Type
  | .read => Str
  | .entropy => Unit
  /- A subnet, or the server's own. -/
  | .scan => Option Str
  | .ask => Str
  | .say => Line
  | .save => Str × AppConfig × Mode

/-- What comes back. -/
def Answer : Kind → Type
  | .read => Except ReadError Str
  | .entropy => Except Str (Arr 24)
  | .scan => Except Str ScanReport
  | .ask => Typed
  | .say => Unit
  | .save => Except Str Unit

/-- A question of the run with its answer. -/
abbrev Step := Said Question Answer

/-- The command at work: it ends, or reports an error. -/
abbrev Command (α : Type) := Talk Question Answer Str α

/-- Read a file. -/
def readToString (path : Str) : Command (Except ReadError Str) := .ask (κ := .read) path pure

/-- Print a line. -/
def print (line : Line) : Command Unit := .ask (κ := .say) line pure

/-- Print the lines one by one. -/
def printEach (lines : List Line) : Command Unit := lines.forM print

/-- Print a text. -/
def say (s : Str) : Command Unit := print (.text s)

/-- A prompt.  Nothing is typed at the end of the input. -/
def ask (message : Str) : Command (Option Str) :=
  .ask (κ := .ask) message fun
    | .unwritable e => .failed ("cannot write to the terminal: ".toList ++ e)
    | .unreadable e => .failed ("cannot read from the terminal: ".toList ++ e)
    | .ended => .done none
    | .line s => .done (some (trim s))

/-- The same, where the end of the input is an empty line. -/
def askOrEmpty (message : Str) : Command Str := do
  let typed ← ask message
  pure (typed.getD [])

/-! ## Credentials -/

/-- Sixteen digits, the letters in either case. -/
def isAsciiHexdigit (c : Char) : Bool :=
  ('0' ≤ c && c ≤ '9') || ('a' ≤ c && c ≤ 'f') || ('A' ≤ c && c ≤ 'F')

/-- So many hex digits, and nothing else; counted in bytes, of which a digit is one. -/
def isHex (value : Str) (len : Nat) : Bool :=
  (toUtf8 value).length = len && value.all isAsciiHexdigit

/-- Both or neither, and both the right shape. -/
def validatePair (token key : Str) : Except Str Unit :=
  if key = [] then .error "a token needs its key".toList
  else if ¬ isHex token TOKEN_HEX_LEN then
    .error ("the token must be ".toList ++ showNat TOKEN_HEX_LEN ++ " hex characters".toList)
  else if ¬ isHex key KEY_HEX_LEN then
    .error ("the key must be ".toList ++ showNat KEY_HEX_LEN ++ " hex characters".toList)
  else .ok ()

/-- A unit's token and key, where it has them. -/
structure Credentials where
  token : Option Str := none
  key : Option Str := none
  deriving DecidableEq

/-- What is said before the token and the key of a unit are asked for. -/
def v3Note (device : Discovered) : Str :=
  "  ".toList ++ device.ip.toText ++
    " is a V3 unit: it needs a token and key before it can be driven.".toList

/-- Where the credentials can be had from. -/
def pasteNote : Str :=
  ("  Paste them if you have them, or press enter to add the unit anyway and get them from " ++
    "your Midea account afterwards with `breeze-core fetch`.").toList

/-- The prompt for a token, which no other prompt is. -/
def tokenPrompt : Str := "  token (128 hex chars): ".toList
/-- The prompt for a key. -/
def keyPrompt : Str := "  key   (64 hex chars): ".toList

/-- A token and a key that are typed, or what is stored. An empty token keeps what is stored, and
a pair that does not pass the checks is not taken. -/
def askCredentials (device : Discovered) (stored : Credentials) : Command Credentials := do
  say (v3Note device)
  say pasteNote
  let token ← askOrEmpty tokenPrompt
  if token = [] then pure stored
  else do
    let key ← askOrEmpty keyPrompt
    match validatePair token key with
    | .ok () => pure ⟨some token, some key⟩
    | .error e => do
        say ("  not stored: ".toList ++ e)
        pure stored

/-- Whatever is stored is kept, and only where there is no token is one asked for. -/
def credentials (options : Options) (device : Discovered) (stored : Credentials) :
    Command Credentials :=
  if device.version = .v3 ∧ stored.token = none then
    if options.prompt then askCredentials device stored
    else do
      say ("Note: ".toList ++ device.ip.toText ++
        (" is a V3 unit with no stored credentials — get them from your Midea account with " ++
          "`breeze-core fetch`, add them with `breeze-core pair` interactively, or POST " ++
          "/api/units.").toList)
      pure stored
  else pure stored

/-! ## Pairing -/

/-- Where the name of a unit is asked for, with the one it is to have if none is typed. -/
def namePrompt (device : Discovered) (name : Str) : Str :=
  "Name for unit at ".toList ++ device.ip.toText ++ " [".toList ++ name ++ "]: ".toList

/-- The name of a unit, unless another is typed. -/
def chooseName (options : Options) (device : Discovered) (name : Str) : Command Str :=
  if options.prompt then do
    let typed ← ask (namePrompt device name)
    pure (match typed with
      | some other => if other = [] then name else other
      | none => name)
  else pure name

/-- The name of a unit before it is asked for: the one it has, or its number. -/
def defaultName (existing : Option UnitConfig) (index : Nat) : Str :=
  match existing with
  | some unit => unit.name
  | none => "AC ".toList ++ showNat (index + 1)

/-- What is stored for a unit that is known. -/
def storedCredentials (existing : Option UnitConfig) : Credentials :=
  match existing with
  | some unit => ⟨unit.token, unit.key⟩
  | none => {}

/-- One unit that was found.  An id that does not fit is skipped. -/
def pairOne (options : Options) (config : AppConfig) (device : Discovered) (index : Nat) :
    Command (Option AppConfig) :=
  if device.id < 2 ^ 63 then do
    let id := Int64.ofNat device.id
    let existing := config.findUnit (showInt id.toInt)
    let name ← chooseName options device (defaultName existing index)
    let credentials ← credentials options device (storedCredentials existing)
    pure (some (config.addOrUpdateUnit
      { name := name
        ip := device.ip.toText
        port := device.port
        id := id
        token := credentials.token
        key := credentials.key }).2)
  else do
    say ("Warning: the unit at ".toList ++ device.ip.toText ++
      " reported an unusable id, skipping.".toList)
    pure none

/-- Every unit that was found, and how many there were. -/
def pairAll (options : Options) (config : AppConfig) (count : Nat) :
    List (Discovered × Nat) → Command (AppConfig × Nat)
  | [] => pure (config, count)
  | (device, index) :: devices => do
      match ← pairOne options config device index with
      | some config => pairAll options config (count + 1) devices
      | none => pairAll options config count devices

/-! ## The command -/

/-- The text of a file that could not be read. -/
def readErrorText : ReadError → Str
  | .notFound => "No such file or directory (os error 2)".toList
  | .other e => e

/-- The configuration, or a fresh one where the file is no JSON. -/
def orFresh (path : Str) : Except LoadError AppConfig → Command AppConfig
  | .ok config => pure config
  | .error (.parse _) => do
      say ("Warning: ".toList ++ path ++ " exists but isn't valid JSON, starting fresh.".toList)
      pure {}
  | .error (.io e) => .failed ("cannot read ".toList ++ path ++ ": ".toList ++ readErrorText e)

/-- The configuration that is there, or a fresh one where there is none. -/
def loadConfig (fromJson : Str → Except Str AppConfig) (path : Str) : Command AppConfig := do
  orFresh path (loaded fromJson (← readToString path))

/-- A configuration with an API key. -/
def withKey (config : AppConfig) : Command AppConfig :=
  match config.apiKey with
  | some _ => pure config
  | none =>
      .ask (κ := .entropy) () fun
        | .ok bytes =>
            pure { config with apiKey := some (Base64.encode Base64.urlSafe bytes.val) }
        | .error e => .failed ("cannot mint an API key: ".toList ++ e)

/-- Scan the one address that is named, or the server's own subnet. -/
def discover (options : Options) : Command ScanReport :=
  .ask (κ := .scan) (options.ip.map fun ip => trim ip ++ "/32".toList) fun
    | .ok report => pure report
    | .error e => .failed ("discovery failed: ".toList ++ e)

/-- Write the configuration, for the admin to read. -/
def saveConfig (path : Str) (config : AppConfig) : Command Unit :=
  .ask (κ := .save) (path, config, .adminReadable) fun
    | .ok () => pure ()
    | .error e => .failed ("cannot write ".toList ++ path ++ ": ".toList ++ e)

/-- What is said when nothing was found. -/
def nothingFound (report : ScanReport) : List Line :=
  .text ("No devices found. Make sure all the units are powered on and on the same subnet as " ++
    "this machine, or pass --ip for one you already know (check your router's DHCP leases). You " ++
    "can also just re-run this later for the ones that were off — it won't touch the units " ++
    "you've already paired.").toList ::
  report.unparseable.map fun (ip, why) =>
    .text ("  something at ".toList ++ ip.toText ++
      " answered but could not be read: ".toList ++ why)

/-- Whether a unit has both of its credentials. -/
def hasCredentials (u : UnitConfig) : Bool := u.token.isSome && u.key.isSome

/-- What is said at the end.  Never the API key, and never a token or a key: the units are listed
by their views, which tell only that there are credentials. -/
def closing (path : Str) (config : AppConfig) (count : Nat) (newKey : Bool) : List Line :=
  [.text ("\nThis run found ".toList ++ showNat count ++ " unit(s). Config now has ".toList ++
      showNat config.units.length ++ " total at ".toList ++ path ++ ":".toList),
    .summary (config.units.map unitView)] ++
  (if newKey then
    [.text ("\nGenerated a new API key and stored it in ".toList ++ path ++
      (" (mode 640). The web panel and the app ask for it the first time each device " ++
        "connects. Read it from that file when you need it — anyone who has it can control " ++
        "these units over the LAN, so keep it off anywhere public.").toList)]
    else []) ++
  if config.units.any hasCredentials then
    [.text ("\nAt least one of these is a V3 unit. Keep its token and key somewhere off this " ++
      "box as well: Midea's cloud will not hand them out again.").toList]
  else []

/-- What is done with what was found. -/
def pairFound (options : Options) (path : Str) (config : AppConfig) (newKey : Bool)
    (report : ScanReport) : Command Unit :=
  if report.found = [] then printEach (nothingFound report)
  else do
    let (config, count) ← pairAll options config 0 report.found.zipIdx
    saveConfig path config
    printEach (closing path config count newKey)

/-- The whole run.  The JSON reader and the path a configuration is at by default are given. -/
def run (fromJson : Str → Except Str AppConfig) (defaultPath : Str) (options : Options) :
    Command Unit := do
  let path := options.out.getD defaultPath
  let config ← loadConfig fromJson path
  let keyed ← withKey config
  let report ← discover options
  pairFound options path keyed config.apiKey.isNone report

end BreezeCli.Pair
