import BreezeCore.Device.Units
import BreezeCore.Lib.Exec
import BreezeCore.Lib.Runs
import BreezeCore.Proto.Discover
import BreezeCore.Store.Config

/-!
# The configuration routes

The unit list lives in three places: the document, the manager's slots and the manager's
list of ids.  Here are the start of the server, which fills the manager from the document,
and the routes that add, rename and remove a unit in both.

What a scan finds, what the cloud answers and whether the document can be saved are
arguments.
-/

namespace BreezeHttp.ConfigRoutes

open Fallible Bytes Text Net BreezeStore BreezeDevice Discover Runs

/-! ## A stored unit as one the device layer can drive -/

/-- Two characters at a time.  A slice that would cut a character panics, and one that is
no byte ends the reading. -/
def hexPairs : Str → Exec Unit (Option Octets)
  | [] => pure (some [])
  | [c] => if c.utf8Size = 2 then pure none else crash
  | c :: d :: rest =>
      if c.utf8Size = 2 then pure none
      else if c.utf8Size ≠ 1 ∨ d.utf8Size ≠ 1 then crash
      else
        match fromStrRadix 16 256 [c, d] with
        | none => pure none
        | some n => do
            let bytes ← hexPairs rest
            pure (bytes.map (UInt8.ofNat n :: ·))

/-- The bytes of a text of hex digits, in pairs; none of a text that is empty or has an odd length
in bytes. -/
def hexToBytes (s : Str) : Exec Unit (Option Octets) :=
  if s = [] ∨ (toUtf8 s).length % 2 = 1 then pure none else hexPairs s

example : hexToBytes "00ff".toList = .ok (some [0, 255]) ∧ hexToBytes [] = .ok none ∧
    hexToBytes "abc".toList = .ok none ∧ hexToBytes "zz".toList = .ok none ∧
    hexToBytes "aéb".toList = crash := by decide +kernel

/-- A credential, where there is one. -/
def optionalHex : Option Str → Exec Unit (Option Octets)
  | none => pure none
  | some s => hexToBytes s

/-- Turn a stored unit into one the device layer can drive.  A unit with an unparseable
address or a negative id is skipped. -/
def toDeviceUnit (unit : UnitConfig) : Exec Unit (Option DeviceUnit) :=
  match IpAddr.parse unit.ip with
  | none => pure none
  | some ip => do
      let key ← optionalHex unit.key
      if 0 ≤ unit.id.toInt then do
        let token ← optionalHex unit.token
        pure (some
          { id := unit.id.toInt.toNat
            name := unit.name
            ip := ip
            port := unit.port
            token := token
            key := key.bind fun k => if h : k.length = 32 then some ⟨k, h⟩ else none })
      else pure none

/-- The id under which a stored unit can be driven: its address parses and the id is not
negative. -/
def deviceId (unit : UnitConfig) : Option Nat :=
  if (IpAddr.parse unit.ip).isSome ∧ 0 ≤ unit.id.toInt then some unit.id.toInt.toNat else none

/-! ## Server state -/

/-- The document, whether its lock is poisoned, and the manager. -/
structure ConfigState where
  config : AppConfig
  /-- A handler panicked while it held the document's lock for writing. -/
  poisoned : Bool := false
  manager : DeviceManager

/-- Why the server does not start. -/
inductive StartupError where
  /-- The config exists but has no API key, so nothing could ever authenticate. -/
  | noApiKey (configPath : Str)
  deriving DecidableEq

/-- The start of the server, from a config that was read from its path.  Without a key it
refuses to start, before it has looked at the units. -/
def ConfigState.load (configPath : Str) (config : AppConfig) :
    Exec Unit (Except StartupError ConfigState) :=
  if config.apiKey.getD [] = [] then pure (.error (.noApiKey configPath))
  else do
    let units ← config.units.mapM toDeviceUnit
    pure (.ok { config := config, manager := .withTiming (units.filterMap id) })

/-- A unit as a client may see it: never a credential. -/
structure UnitView where
  id : Str
  name : Str
  ip : Str
  port : Nat
  hasV3Credentials : Bool
  deriving DecidableEq

/-- A unit as a client sees it, without its credentials. -/
def unitView (unit : UnitConfig) : UnitView where
  id := unit.idText
  name := unit.name
  ip := unit.ip
  port := unit.port
  hasV3Credentials := unit.token.isSome && unit.key.isSome

/-- What a reply has in it. -/
inductive Content where
  | detail (message : String)
  | refusal (detail advice : String)
  | view (unit : UnitView)
  | empty
  deriving DecidableEq

/-- The status and the content of a reply. -/
structure Reply where
  status : Nat
  content : Content
  deriving DecidableEq

/-- A reply that only tells what is wrong. -/
def Reply.detail (status : Nat) (message : String) : Reply := ⟨status, .detail message⟩

/-- Names are no longer than this. -/
def NAME_MAX_CHARS : Nat := 64

/-- A V3 token is 64 bytes and a key is 32, both as hex. -/
def TOKEN_HEX_LEN : Nat := 128
/-- A key has this many hexadecimal digits. -/
def KEY_HEX_LEN : Nat := 64

/-- A hex digit, as a byte. -/
def isAsciiHexdigit (b : UInt8) : Bool :=
  (48 ≤ b && b ≤ 57) || (97 ≤ b && b ≤ 102) || (65 ≤ b && b ≤ 70)

/-- Check a credential is hex of the right length. -/
def validHex (value : Str) (expectedLen : Nat) : Bool :=
  (toUtf8 value).length = expectedLen && (toUtf8 value).all isAsciiHexdigit

/-- What a client sends to add a unit. -/
structure AddUnitRequest where
  ip : Str
  name : Option Str := none
  token : Option Str := none
  key : Option Str := none
  mideaAccount : Option Str := none
  mideaPassword : Option Str := none
  mideaRegion : Option Str := none
  deriving DecidableEq

/-- What the cloud says: credentials, or why not and what to do.  Nothing when the build
has no cloud support. -/
abbrev CloudAnswer := Option (Except (String × String) (Str × Str))

/-- The credentials to store for a unit being added: what the caller supplied, or one cloud
round-trip with an account they typed once. -/
def resolveCredentials (request : AddUnitRequest) (cloud : CloudAnswer) :
    Except Reply (Option Str × Option Str) :=
  match cloud with
  | some answer =>
      if request.token.isSome then .ok (request.token, request.key)
      else if request.mideaAccount.isSome ∧ request.mideaPassword.isSome then
        match answer with
        | .ok (token, key) => .ok (some token, some key)
        | .error (detail, advice) => .error ⟨502, .refusal detail advice⟩
      else .ok (none, none)
  | none =>
      if request.token.isNone ∧ request.mideaAccount.isSome ∧ request.mideaPassword.isSome then
        .error (.detail 501
          "this build has no cloud support; add the unit with a token and key instead")
      else .ok (request.token, request.key)

/-- An addition that passed every check before the document is touched. -/
structure Addition where
  request : AddUnitRequest
  found : Discovered
  id : Int64
  supplied : Option Str × Option Str

/-- The checks: the request, the scan of its address, and the credentials. They are made in the
order of the source, so that the first one that fails gives the answer. -/
def checkAdd (body : Except String AddUnitRequest) (scan : Except String (List Discovered))
    (cloud : CloudAnswer) : Except Reply Addition :=
  match body with
  | .error e => .error (.detail 422 ("invalid add request: " ++ e))
  | .ok request =>
      match Ipv4Addr.parse (trim request.ip) with
      | none =>
          .error (.detail 422 ("'" ++ String.ofList request.ip ++ "' is not an IPv4 address"))
      | some ip =>
          if request.name.any (NAME_MAX_CHARS < ·.length) then
            .error (.detail 422
              ("name must be at most " ++ toString NAME_MAX_CHARS ++ " characters"))
          else if request.token.any (¬ validHex · TOKEN_HEX_LEN) then
            .error (.detail 422 ("token must be " ++ toString TOKEN_HEX_LEN ++ " hex characters"))
          else if request.key.any (¬ validHex · KEY_HEX_LEN) then
            .error (.detail 422 ("key must be " ++ toString KEY_HEX_LEN ++ " hex characters"))
          else if request.token.isSome ≠ request.key.isSome then
            .error (.detail 422 "token and key must be given together")
          else
            match scan with
            | .error e => .error (.detail 503 ("discovery failed: " ++ e))
            | .ok [] =>
                .error (.detail 404 ("no Midea unit answered at " ++ String.ofList ip.toText))
            | .ok (found :: _) =>
                if found.id < 2 ^ 63 then
                  match resolveCredentials request cloud with
                  | .error reply => .error reply
                  | .ok supplied => .ok ⟨request, found, Int64.ofNat found.id, supplied⟩
                else .error (.detail 503 "that unit reported an unusable id")

/-- The entry to store.  An explicit name wins, then the one already stored. -/
def Addition.entry (a : Addition) (config : AppConfig) : UnitConfig where
  name :=
    let given := (a.request.name.map trim).filter (· ≠ [])
    let stored := (config.findUnit (showInt a.id.toInt)).map UnitConfig.name
    (given.or stored).getD ("AC ".toList ++ a.found.ip.toText)
  ip := a.found.ip.toText
  port := a.found.port
  id := a.id
  token := a.supplied.1
  key := a.supplied.2

/-- The reply when the lock is poisoned. -/
def configUnavailable : Reply := .detail 500 "config unavailable"

/-- The reply when the document cannot be saved. -/
def cannotWriteConfig (e : String) : Reply := .detail 500 ("cannot write the config: " ++ e)

/-- `POST /api/units`.  A panic that unwinds leaves no answer and the lock poisoned. A save that
fails puts the list of units back, and the manager is told of the unit only behind it. -/
def addUnit (state : ConfigState) (body : Except String AddUnitRequest)
    (scan : Except String (List Discovered)) (cloud : CloudAnswer) (saved : Except String Unit) :
    Option Reply × ConfigState :=
  match checkAdd body scan cloud with
  | .error reply => (some reply, state)
  | .ok addition =>
      if state.poisoned then (some configUnavailable, state)
      else
        let config := (state.config.addOrUpdateUnit (addition.entry state.config)).2
        match saved with
        | .error e =>
            (some (cannotWriteConfig e),
              { state with config := { config with units := state.config.units } })
        | .ok () =>
            match config.findUnit (showInt addition.id.toInt) with
            | none => (none, { state with config := config, poisoned := true })
            | some stored =>
                match toDeviceUnit stored with
                | .error _ => (none, { state with config := config, poisoned := true })
                | .ok none => (some ⟨201, .view (unitView stored)⟩, { state with config := config })
                | .ok (some unit) =>
                    (some ⟨201, .view (unitView stored)⟩,
                      { state with config := config, manager := state.manager.upsert unit })

/-- `PATCH /api/units/{id}`. A save that fails gives the entry its old name again. The manager's
unit gets the name too, if nobody has it at the moment. -/
def renameUnit (state : ConfigState) (unitId : Str) (body : Except String Str)
    (saved : Except String Unit) (isFree : Bool) : Option Reply × ConfigState :=
  match body with
  | .error e => (some (.detail 422 ("invalid rename request: " ++ e)), state)
  | .ok text =>
      let name := trim text
      if name.length = 0 then (some (.detail 422 "name must not be empty"), state)
      else if NAME_MAX_CHARS < name.length then
        (some (.detail 422 ("name must be at most " ++ toString NAME_MAX_CHARS ++
          " characters, got " ++ toString name.length)), state)
      else if state.poisoned then (some configUnavailable, state)
      else
        match state.config.findUnit unitId with
        | none => (some (.detail 404 ("Unknown unit '" ++ String.ofList unitId ++ "'")), state)
        | some unit =>
            let config := state.config.setName unitId name
            match saved with
            | .error e =>
                (some (cannotWriteConfig e),
                  { state with config := config.setName unitId unit.name })
            | .ok () =>
                (some ⟨200, .view (unitView { unit with name := name })⟩,
                  { state with
                    config := config
                    manager :=
                      match fromStrRadix 10 (2 ^ 64) unitId with
                      | none => state.manager
                      | some id => state.manager.rename id name isFree })

/-- `DELETE /api/units/{id}`. A save that fails puts the list of units back. The id is the text of
the document, and the manager has its number. -/
def deleteUnit (state : ConfigState) (unitId : Str) (saved : Except String Unit) :
    Option Reply × ConfigState :=
  if state.poisoned then (some configUnavailable, state)
  else
    match state.config.findUnit unitId with
    | none => (some (.detail 404 ("Unknown unit '" ++ String.ofList unitId ++ "'")), state)
    | some _ =>
        let config := (state.config.removeUnit unitId).2
        match saved with
        | .error e =>
            (some (cannotWriteConfig e),
              { state with config := { config with units := state.config.units } })
        | .ok () =>
            (some ⟨204, .empty⟩,
              { state with
                config := config
                manager :=
                  match fromStrRadix 10 (2 ^ 64) unitId with
                  | none => state.manager
                  | some id => state.manager.remove id })

/-- The three requests that change the configuration, with all that the world adds to them. -/
inductive Op where
  | add (body : Except String AddUnitRequest) (scan : Except String (List Discovered))
      (cloud : CloudAnswer) (saved : Except String Unit)
  | rename (unitId : Str) (body : Except String Str) (saved : Except String Unit) (isFree : Bool)
  | delete (unitId : Str) (saved : Except String Unit)

/-- One request after the other; where a handler panics there is no reply. -/
def step (state : ConfigState) : Op → Option Reply × ConfigState
  | .add body scan cloud saved => addUnit state body scan cloud saved
  | .rename unitId body saved isFree => renameUnit state unitId body saved isFree
  | .delete unitId saved => deleteUnit state unitId saved

end BreezeHttp.ConfigRoutes
