import BreezeCore.Cloud.UnitToken
import BreezeCore.Http.ConfigRoutes
import BreezeCore.Store.Save

/-!
# `breeze-core fetch`

A V3 unit's token and key, from the account the unit is paired with.  The command asks which
units answer, which of the clouds knows the account, signs in to one that does, tries each
token on the unit itself, and saves what was accepted.

What a person types is given to the run as a whole: the lines of the terminal and what comes of
each prompt for the password.  Everything else is asked of the world.  Each prompt is a step of
the run, and reads the next line; the other text the command prints is left out.
-/

namespace BreezeCli.Fetch

open Fallible Text Bytes Talks BreezeCloud BreezeStore Discover
open BreezeDevice (DeviceUnit)

/-- What the command line asked for.  Never a password. -/
structure Options where
  /-- Units by name, address or id; empty means every unit with no token. -/
  units : List Str
  config : Option Str
  /-- To skip the question. -/
  cloud : Option Str
  account : Option Str
  /-- Read the password as one line of standard input. -/
  passwordStdin : Bool

/-- How many times a mistyped password may be typed again. -/
def PASSWORD_TRIES : Nat := 3

/-- What is typed: the lines of standard input, until its end, and what comes of the prompts
that do not echo, one after the other. -/
structure Terminal where
  lines : List (Except Str Str)
  passwords : List (Except Str Str)

/-! ## The world -/

/-- What a file cannot be read for. -/
inductive ReadError where
  | notFound
  | other (e : Str)

/-- What the command asks of the world: what a cloud is asked, a file, the unit at an address,
a session with a unit, a prompt to be shown, a password, and a document to be saved. -/
inductive Kind where
  | cloud (κ : BreezeCloud.Kind)
  | read
  | scan
  | refresh
  | ask
  | password
  | save

/-- What the command asks of the clouds, the units, the machine and the person. -/
def Question : Kind → Type
  | .cloud κ => BreezeCloud.Question κ
  | .read => Str
  /- A subnet of one address. -/
  | .scan => Str
  | .refresh => DeviceUnit
  /- The prompt. -/
  | .ask => Str
  /- The account and the cloud it is for. -/
  | .password => Str × Cloud
  | .save => Str × AppConfig × Mode

/-- What comes back. -/
def Answer : Kind → Type
  | .cloud κ => BreezeCloud.Answer κ
  | .read => Except ReadError Str
  /- The ids and versions of what answered. -/
  | .scan => Except Str (List (UInt64 × Version))
  | .refresh => Except Str Unit
  /- Whether it could be written. -/
  | .ask => Except Str Unit
  | .password => Unit
  | .save => Except Str Unit

/-- A question of the run with its answer. -/
abbrev Step := Said Question Answer

/-- The command at work: it ends with an exit code, an error, or a panic. -/
abbrev Command (α : Type) := Talk Question Answer (Fault Str) α

/-- The talk with the clouds inside a run. -/
def clouds : Talk.Embedding BreezeCloud.Question BreezeCloud.Answer Question Answer where
  kind := .cloud
  up _ q := q
  down _ r := r
  inner
    | @Said.mk _ _ _ (.cloud _) q r => some ⟨q, r⟩
    | _ => none
  inner_up _ _ _ := rfl

/-- A client of a cloud at work; its error is looked at. -/
def ofCloud {α : Type} (p : Conversation α) : Command (Except CloudError α) :=
  (Talk.within clouds p).attempt

/-- Read a file. -/
def readToString (path : Str) : Command (Except ReadError Str) := .ask (κ := .read) path pure

/-- See what answers at one address. -/
def scanSubnet (cidr : Str) : Command (Except Str (List (UInt64 × Version))) :=
  .ask (κ := .scan) cidr pure

/-- Connect to a unit with the credentials it is given, and ask for its state. -/
def refresh (unit : DeviceUnit) : Command (Except Str Unit) := .ask (κ := .refresh) unit pure

/-- Write a configuration. -/
def saveConfig (path : Str) (config : AppConfig) (mode : Mode) : Command (Except Str Unit) :=
  .ask (κ := .save) (path, config, mode) pure

/-! ## The store -/

/-- Why there is no configuration to begin with. -/
inductive LoadError where
  | io (e : ReadError)
  | parse (e : Str)

/-- A store file that was read.  A missing file, or an empty one, is the default. -/
def loaded (fromJson : Str → Except Str AppConfig) :
    Except ReadError Str → Except LoadError AppConfig
  | .ok text => if trim text = [] then .ok {} else (fromJson text).mapError .parse
  | .error .notFound => .ok {}
  | .error e => .error (.io e)

/-- Read the configuration, and make out what it holds. -/
def load (fromJson : Str → Except Str AppConfig) (path : Str) :
    Command (Except LoadError AppConfig) := do
  pure (loaded fromJson (← readToString path))

/-! ## The terminal -/

/-- The lines of the terminal that were not read yet. -/
abbrev Lines := List (Except Str Str)

/-- The error of a terminal that cannot be read. -/
def terminalError (e : Str) : Fault Str := .error ("cannot read from the terminal: ".toList ++ e)

/-- What the person said about the app, before anything is asked of a cloud. -/
inductive Choice where
  | app (cloud : Cloud)
  | notSure
  deriving DecidableEq

/-- The cloud that is named in the options, in any of the ways it is written. -/
def parseCloud (name : Str) : Except Str Choice :=
  let plain := (toAsciiLowercase name).filter fun c => c ≠ '-' ∧ c ≠ ' ' ∧ c ≠ '_'
  if plain = "smarthome".toList ∨ plain = "msmarthome".toList then .ok (.app .smartHome)
  else if plain = "meiju".toList then .ok (.app .meiju)
  else if plain = "nethome".toList ∨ plain = "nethomeplus".toList then .ok (.app .netHomePlus)
  else .error ("unknown --cloud '".toList ++ plain ++ "': smarthome, meiju or nethome".toList)

/-- A prompt is shown. -/
def prompt (message : Str) : Command Unit :=
  .ask (κ := .ask) message fun
    | .ok () => pure ()
    | .error e => .failed (.error ("cannot write to the terminal: ".toList ++ e))

/-- The prompt for the app. -/
def appPrompt : Str := "\nChoose 1-4: ".toList

/-- The number of an app, asked for until there is one. -/
def askApp (lines : Lines) : Command (Choice × Lines) := do
  prompt appPrompt
  match lines with
  | [] => .failed (.error "no answer".toList)
  | .error e :: _ => .failed (terminalError e)
  | .ok line :: rest =>
      if trim line = ['1'] then pure (.app .smartHome, rest)
      else if trim line = ['2'] then pure (.app .netHomePlus, rest)
      else if trim line = ['3'] then pure (.app .meiju, rest)
      else if trim line = ['4'] then pure (.notSure, rest)
      else askApp rest

/-- The prompt for the account. -/
def accountPrompt : Str :=
  "\nThe email (or phone number) you sign in to that app with: ".toList

/-- The account, asked for until something is typed. -/
def askAccount (lines : Lines) : Command (Str × Lines) := do
  prompt accountPrompt
  match lines with
  | [] => .failed (.error "no account given".toList)
  | .error e :: _ => .failed (terminalError e)
  | .ok line :: rest => if trim line = [] then askAccount rest else pure (trim line, rest)

/-- The two ways to say yes; anything else is no answer. -/
def saysYes (line : Str) : Bool :=
  let answer := toAsciiLowercase (trim line)
  answer = "y".toList ∨ answer = "yes".toList

/-- The two ways to say no. -/
def saysNo (line : Str) : Bool :=
  let answer := toAsciiLowercase (trim line)
  answer = "n".toList ∨ answer = "no".toList

/-- A question with the answer that an empty line stands for. -/
def yesNoPrompt (question : Str) (default : Bool) : Str :=
  question ++ ' ' :: (if default then "[Y/n]".toList else "[y/N]".toList) ++ [' ']

/-- Yes or no, asked for until it is one of them. -/
def yesNo (question : Str) (default : Bool) (lines : Lines) : Command (Bool × Lines) := do
  prompt (yesNoPrompt question default)
  match lines with
  | [] => pure (default, [])
  | .error e :: _ => .failed (terminalError e)
  | .ok line :: rest =>
      if trim line = [] then pure (default, rest)
      else if saysYes line then pure (true, rest)
      else if saysNo line then pure (false, rest)
      else yesNo question default rest

/-! ## Choosing -/

/-- Whether each cloud has the account: the chosen one first.  A cloud that cannot be reached
is no answer, rather than a no. -/
def askClouds (C : Crates) (account : Str) : List Cloud → Command (List (Cloud × Option Bool))
  | [] => pure []
  | cloud :: order => do
      let answer ← ofCloud (cloud.accountKnown C account)
      let known := match answer with
        | .ok known => some known
        | .error _ => none
      let rest ← askClouds C account order
      pure ((cloud, known) :: rest)

/-- The clouds in the order in which they are asked about the account: the chosen one first. -/
def askingOrder (choice : Choice) : List Cloud :=
  match choice with
  | .app c => c :: [Cloud.smartHome, .netHomePlus, .meiju].filter (· ≠ c)
  | .notSure => [.smartHome, .netHomePlus, .meiju]

/-- Ask every cloud whether it has the account. -/
def whoKnows (C : Crates) (account : Str) (choice : Choice) :
    Command (List (Cloud × Option Bool)) :=
  askClouds C account (askingOrder choice)

/-- The cloud said that it has. -/
def knows (known : List (Cloud × Option Bool)) (cloud : Cloud) : Bool :=
  known.any fun (c, k) => c = cloud ∧ k = some true

/-- The question whether to go to another cloud. -/
def useInstead (other : Cloud) : Str := "Use ".toList ++ other.appName ++ " instead?".toList

/-- Which cloud to sign in to, given what was chosen and who knows the account. NetHome Plus has
stopped handing out tokens, so another one that knows the account is offered in its place. -/
def decide (choice : Choice) (known : List (Cloud × Option Bool)) (lines : Lines) :
    Command (Option Cloud × Lines) :=
  -- Where a token can come from, in the order worth trying.
  let issuing := [Cloud.smartHome, .meiju].find? (knows known)
  let netHome := if knows known .netHomePlus then some Cloud.netHomePlus else none
  match choice with
  | .app .netHomePlus =>
      match issuing with
      | some other => do
          let (yes, lines) ← yesNo (useInstead other) true lines
          pure (if yes then some other else netHome, lines)
      | none => pure (netHome, lines)
  | .app cloud => pure (if knows known cloud then some cloud else issuing <|> netHome, lines)
  | .notSure => pure (issuing <|> netHome, lines)

/-! ## Signing in -/

/-- The text behind the ends taken off it. -/
def trimNewlines (line : Str) : Str :=
  (line.reverse.dropWhile fun c => c = '\r' ∨ c = '\n').reverse

/-- The password, as one line of standard input or from the prompt. At the end of standard input
it is the empty one, and at the end of the terminal it is an error. -/
def password (options : Options) (terminal : Terminal) : Exec Str (Str × Terminal) :=
  if options.passwordStdin then
    match terminal.lines with
    | [] => pure ([], terminal)
    | .ok line :: lines => pure (trimNewlines line, { terminal with lines := lines })
    | .error e :: _ =>
        fail ("cannot read the password from standard input: ".toList ++ e)
  else
    match terminal.passwords with
    | [] => fail "cannot read the password: end of file".toList
    | .ok typed :: passwords => pure (typed, { terminal with passwords := passwords })
    | .error e :: _ => fail ("cannot read the password: ".toList ++ e)

/-- The prompt for a password. -/
def askPassword (account : Str) (cloud : Cloud) : Command Unit :=
  .ask (κ := .password) (account, cloud) pure

/-- Sign in, letting a mistyped password be typed again. Only the two codes for a wrong password
ask again, and only while tries are left; any other failure ends the signing in. -/
def signIn (C : Crates) (cloud : Cloud) (account : Str) (options : Options) :
    (tries : Nat) → Terminal → Command (Option Session × Terminal)
  | 0, terminal => pure (none, terminal)
  | tries + 1, terminal => do
      askPassword account cloud
      let (typed, terminal) ← .ofExcept (password options terminal)
      match ← ofCloud (cloud.login C ⟨account, typed, []⟩) with
      | .ok session => pure (some session, terminal)
      | .error (.api code _) =>
          if (code = 3101 ∨ code = 3102) ∧ 0 < tries then
            signIn C cloud account options tries terminal
          else pure (none, terminal)
      | .error _ => pure (none, terminal)

/-- How often a password may be typed: once where it is piped in. -/
def tries (options : Options) : Nat := if options.passwordStdin then 1 else PASSWORD_TRIES

/-! ## Fetching -/

/-- The unit as it would be with the token. -/
def withToken (unit : UnitConfig) (token : Token) : UnitConfig :=
  { unit with token := some token.token, key := some token.key }

/-- The question whether a token is kept that the unit refused. -/
def saveAnyway : Str :=
  "    Save it anyway? It is the token Midea holds for this unit.".toList

/-- Try the token on the unit itself.  True to keep it. -/
def check (unit : UnitConfig) (token : Token) (lines : Lines) : Command (Bool × Lines) := do
  match BreezeHttp.ConfigRoutes.toDeviceUnit (withToken unit token) with
  | .error _ => .failed .panic
  | .ok none => pure (false, lines)
  | .ok (some deviceUnit) =>
      match ← refresh deviceUnit with
      | .ok () => pure (true, lines)
      | .error _ => yesNo saveAnyway false lines

/-- The entries with their tokens. -/
def setTokens (config : AppConfig) (got : List (Nat × Token)) : AppConfig :=
  { config with
    units := got.foldl (fun units (index, token) => units.modify index (withToken · token))
      config.units }

/-- Where the copy of the configuration goes. -/
def backupPath (path : Str) : Str := path ++ ".before-fetch".toList

/-- The version before first, and then the one with the tokens. -/
def save (path : Str) (config : AppConfig) (got : List (Nat × Token)) : Command Unit := do
  match ← saveConfig (backupPath path) config .adminReadable with
  | .error e => .failed (.error ("cannot write the backup ".toList ++ backupPath path ++
      ": ".toList ++ e))
  | .ok () =>
      match ← saveConfig path (setTokens config got) .adminReadable with
      | .error e => .failed (.error ("cannot write ".toList ++ path ++ ": ".toList ++ e))
      | .ok () => pure ()

/-- An id as the cloud has it, unless it is negative. -/
def unsignedId (unit : UnitConfig) : Option UInt64 :=
  if 0 ≤ unit.id.toInt then some (UInt64.ofInt unit.id.toInt) else none

/-- Each unit's token, and how many are still without one. A unit that is not among those listed
under the account is not asked for, and counts as one without. -/
def fetchUnits (C : Crates) (session : Session) (config : AppConfig)
    (listed : Option (List Appliance)) (got : List (Nat × Token)) (missing : Nat) (lines : Lines) :
    List Nat → Command (List (Nat × Token) × Nat)
  | [] => pure (got, missing)
  | index :: wanted =>
      match config.units[index]? with
      | none => .failed .panic
      | some unit =>
          match unsignedId unit with
          | none => fetchUnits C session config listed got missing lines wanted
          | some id =>
              if listed.any fun list => !list.any fun a => a.id = id then
                fetchUnits C session config listed got (missing + 1) lines wanted
              else do
                match ← ofCloud (session.token C id) with
                | .error _ => fetchUnits C session config listed got (missing + 1) lines wanted
                | .ok token =>
                    let (keep, lines) ← check unit token lines
                    if keep then
                      fetchUnits C session config listed (got ++ [(index, token)]) missing lines
                        wanted
                    else fetchUnits C session config listed got (missing + 1) lines wanted

/-- The account's own list first, where the cloud has one. -/
def fetchAll (C : Crates) (session : Session) (path : Str) (config : AppConfig)
    (wanted : List Nat) (lines : Lines) : Command Nat := do
  let listing ← ofCloud (session.appliances C)
  let listed := match listing with
    | .ok listed => listed
    | .error _ => none
  let (got, missing) ← fetchUnits C session config listed [] 0 lines wanted
  if got = [] then pure 1
  else do
    save path config got
    pure (if missing = 0 then 0 else 1)

/-- Once more, in case the cloud that stopped has changed. The first unit's token is asked for as
a test, and only where it is given are all of them. -/
def nethome (C : Crates) (account : Str) (options : Options) (path : Str) (config : AppConfig)
    (wanted : List Nat) (terminal : Terminal) : Command Nat := do
  let (session, terminal) ← signIn C .netHomePlus account options (tries options) terminal
  match session with
  | none => pure 1
  | some session =>
      match wanted.head? >>= (config.units[·]?) with
      | none => .failed .panic
      | some first =>
          match unsignedId first with
          | none => pure 1
          | some id => do
              match ← ofCloud (session.token C id) with
              | .ok _ => fetchAll C session path config wanted terminal.lines
              | .error _ => pure 1

/-! ## The units -/

/-- Whether a unit is the one asked for, by its name, its address or its id. -/
def isCalled (name : Str) (u : UnitConfig) : Bool :=
  toAsciiLowercase u.name = toAsciiLowercase name ∨ u.ip = name ∨ u.idText = name

/-- The units named, each once. -/
def namedTargets (units : List UnitConfig) : (out : List Nat) → List Str → Except Str (List Nat)
  | out, [] => .ok out
  | out, name :: asked =>
      match units.findIdx? (isCalled name) with
      | some i => namedTargets units (if i ∈ out then out else out ++ [i]) asked
      | none =>
          .error ("no unit called or at '".toList ++ name ++
            "' in config.json. The units it has: ".toList ++
            if units = [] then "none".toList
            else List.intercalate ", ".toList (units.map UnitConfig.name))

/-- Every unit with no token, or the ones named. -/
def targets (config : AppConfig) (asked : List Str) : Except Str (List Nat) :=
  if asked = [] then
    .ok ((config.units.zipIdx.filter fun (u, _) => u.token.isNone || u.key.isNone).map Prod.snd)
  else namedTargets config.units [] asked

/-- What a unit turns out to be when its address is tried. -/
inductive Probe where
  | v3
  | other
  | silent
  | moved (id : UInt64)
  deriving DecidableEq

/-- What answers at the unit's address. -/
def probe (unit : UnitConfig) : Command Probe := do
  match ← scanSubnet (trim unit.ip ++ "/32".toList) with
  | .error _ => pure .silent
  | .ok found =>
      pure <| match found.head? with
        | none => .silent
        | some (id, version) =>
            if (id.toNat : Int) ≠ unit.id.toInt then .moved id
            else if version = .v3 then .v3 else .other

/-- The units worth fetching for: those that answer as V3, and those that do not answer. -/
def probeUnits (config : AppConfig) : List Nat → Command (List Nat)
  | [] => pure []
  | index :: indices =>
      match config.units[index]? with
      | none => .failed .panic
      | some unit => do
          let found ← probe unit
          let rest ← probeUnits config indices
          pure (if found = .v3 ∨ found = .silent then index :: rest else rest)

/-! ## The command -/

/-- The app, from the options or asked for. -/
def chooseApp (options : Options) (lines : Lines) : Command (Choice × Lines) :=
  match options.cloud with
  | some name => do
      let choice ← .ofExcept ((parseCloud name).mapError Fault.error)
      pure (choice, lines)
  | none => askApp lines

/-- The account that is named in the options, or that is typed. -/
def chooseAccount (options : Options) (lines : Lines) : Command (Str × Lines) :=
  match options.account with
  | some a => pure (trim a, lines)
  | none => askAccount lines

/-- The error of a file that may not be read, with what to do about it. -/
def unreadable (path : Str) (e : Str) : Fault Str :=
  .error ("cannot read ".toList ++ path ++ ": ".toList ++ e ++
    (". It is readable by root and the breeze group, so run this with sudo " ++
      "(or as a member of that group).").toList)

/-- The error of a file that is not there. -/
def noConfig (path : Str) : Fault Str :=
  .error ("there is no config.json at ".toList ++ path ++
    (" yet. Run `breeze-core pair` first: it finds the units on the network and writes it, " ++
      "and then this can fill in their tokens.").toList)

/-- Sign in to an app's cloud, and fetch. -/
def fetchSignedIn (C : Crates) (cloud : Cloud) (account : Str) (options : Options) (path : Str)
    (config : AppConfig) (wanted : List Nat) (terminal : Terminal) : Command Nat := do
  let (session, terminal) ← signIn C cloud account options (tries options) terminal
  match session with
  | none => pure 1
  | some session => fetchAll C session path config wanted terminal.lines

/-- From the account on. -/
def fetchFor (C : Crates) (options : Options) (path : Str) (config : AppConfig)
    (wanted : List Nat) (terminal : Terminal) : Command Nat := do
  let (choice, lines) ← chooseApp options terminal.lines
  let (account, lines) ← chooseAccount options lines
  let known ← whoKnows C account choice
  let (cloud, lines) ← decide choice known lines
  let terminal := { terminal with lines := lines }
  match cloud with
  | none => pure 1
  | some .netHomePlus => nethome C account options path config wanted terminal
  | some cloud => fetchSignedIn C cloud account options path config wanted terminal

/-- The whole run.  The JSON reader and the path a configuration is at by default are given. The
clouds are asked only when some unit wanted a token and was there to take it. -/
def run (C : Crates) (fromJson : Str → Except Str AppConfig) (defaultPath : Str)
    (options : Options) (terminal : Terminal) : Command Nat := do
  let path := options.config.getD defaultPath
  match ← load fromJson path with
  | .error (.io .notFound) => .failed (noConfig path)
  | .error (.io (.other e)) | .error (.parse e) => .failed (unreadable path e)
  | .ok config => do
      let targets ← .ofExcept ((targets config options.units).mapError Fault.error)
      if targets = [] then pure 0
      else do
        let wanted ← probeUnits config targets
        if wanted = [] then pure 0
        else fetchFor C options path config wanted terminal

end BreezeCli.Fetch
