import BreezeCore.Cloud.Timestamp
import BreezeCore.Lib.JsonValue
import BreezeCore.Lib.Talks
import BreezeCore.Store.Programs

/-!
# The vendor's clouds

What the clients of the three clouds share: the accounts and tokens, the errors, the talk
with a server, and the search for a unit's token in an answer.  A cloud is a stranger: its
answers are whatever it likes to send.
-/

namespace BreezeCloud

open Text Bytes JsonValue Talks BreezeStore

/-- The digests and the JSON reader and printer, which come from other crates. -/
structure Crates where
  sha256 : Octets → Arr 32
  md5 : Octets → Arr 16
  /-- The key first. -/
  hmacSha256 : Octets → Octets → Arr 32
  base64 : Octets → Str
  fromStr : Str → Except Str Json
  toText : Json → Str

/-- A Midea account, held only as long as one exchange takes. -/
structure Credentials where
  account : Str
  password : Str
  region : Str

/-- What a unit needs before it will accept a V3 session. -/
structure Token where
  token : Str
  key : Str
  deriving DecidableEq

inductive CloudError where
  /-- The network, or TLS, or a timeout. -/
  | transport (e : Str)
  /-- The cloud answered with a refusal. -/
  | api (code : Int) (message : Str)
  /-- It answered, but not with a token for the unit that was asked about. -/
  | noToken (e : Str)
  /-- The response was not the shape it should be. -/
  | malformed (e : Str)
  /-- None of the clouds asked has this account at all. -/
  | unknownAccount
  deriving DecidableEq

/-- Which Midea app, and so which cloud, an account belongs to. -/
inductive Cloud where
  | smartHome
  | meiju
  | netHomePlus
  deriving DecidableEq, Repr

/-- The app as a person knows it. -/
def Cloud.appName : Cloud → Str
  | .smartHome => "MSmartHome".toList
  | .meiju => "美的美居 (Meiju)".toList
  | .netHomePlus => "NetHome Plus".toList

/-! ## The talk with a server -/

/-- What a request carries: a text, or a form. -/
inductive Body where
  | text (text : Str)
  | form (fields : List (Str × Str))
  deriving DecidableEq

/-- A POST. -/
structure Request where
  url : Str
  headers : List (Str × Str)
  body : Body
  deriving DecidableEq

/-- What comes of a request.  Reading the body of an answer can fail as well. -/
inductive Response where
  | answered (body : Except Str Str)
  /-- An answer with the status of an error. -/
  | status (code : Nat) (body : Except Str Str)
  | failed (e : Str)

/-- What a client asks of the world: the time, some random bytes, a request. -/
inductive Kind where
  | time
  | entropy
  | post

def Question : Kind → Type
  | .time => Unit
  | .entropy => Nat
  | .post => Request

def Answer : Kind → Type
  /- Seconds since the epoch, unless the clock is before it. -/
  | .time => Option UInt64
  | .entropy => Option Octets
  | .post => Response

/-- A client at work. -/
abbrev Conversation (α : Type) := Talk Question Answer CloudError α

abbrev Exchange := Said Question Answer

def secondsSinceEpoch : Conversation UInt64 := .ask (κ := .time) () fun now => pure (now.getD 0)

def send (request : Request) : Conversation Response := .ask (κ := .post) request pure

/-- UTC, `yyyymmddHHMMSS`, now. -/
def timestampNow : Conversation Str := do
  let now ← secondsSinceEpoch
  match timestamp now with
  | .ok text => pure text
  | .error _ => pure []

/-- Bytes in hexadecimal.  Without random ones, the same byte again and again. -/
def randomHex (bytes : Nat) : Conversation Str :=
  .ask (κ := .entropy) bytes fun buffer =>
    pure (hexLower (buffer.getD (List.replicate bytes 0x42)))

/-- The text of the answer.  One with the status of an error still carries a body, and the
body is where the code is. -/
def Response.body : Response → Except CloudError Str
  | .answered body | .status _ body => body.mapError .transport
  | .failed e => .error (.transport e)

/-! ## Units and tokens -/

/-- One unit as an account's cloud lists it. -/
structure Appliance where
  id : UInt64
  name : Str
  kind : Option UInt8
  online : Bool
  deriving DecidableEq

/-- A field that is a number, or the text of one. -/
def idOf (raw : Json) : Option UInt64 :=
  raw.asU64 <|> (raw.asStr >>= fun s => (fromStrRadix 10 (2 ^ 64) (trim s)).map UInt64.ofNat)

/-- The text behind the starts taken off it, as often as they are there. -/
def trimStartMatches (start : Str) : (fuel : Nat) → Str → Str
  | 0, text => text
  | fuel + 1, text =>
      if start.isPrefixOf text then trimStartMatches start fuel (text.drop start.length) else text

def kindOf (text : Str) : Option UInt8 :=
  let text := trimStartMatches "0x".toList text.length text
  let text := trimStartMatches "0X".toList text.length text
  (fromStrRadix 16 (2 ^ 8) text).map UInt8.ofNat

/-- From either cloud's listing: one calls the id `id`, the other `applianceCode`, and either
may send it as a string or a number. -/
def Appliance.fromCloud (value : Json) : Option Appliance := do
  let raw ← value.get "id".toList <|> value.get "applianceCode".toList
  let id ← idOf raw
  some {
    id := id
    name := (value.strAt "name").getD "unnamed".toList
    kind := value.strAt "type" >>= kindOf
    online := value.strAt "onlineStatus" = some "1".toList }

/-- The error when no entry was for the unit. -/
def noneForThisUnit (entries : Nat) : CloudError :=
  .noToken ("the cloud listed ".toList ++ showNat entries ++
    " token(s), none of them for this unit".toList)

/-- The entry as a token, when it is for `wanted`. -/
def entryToken (wanted : Str) (entry : Json) : Option Token :=
  if toAsciiLowercase ((entry.strAt "udpId").getD []) = toAsciiLowercase wanted then do
    let token ← entry.strAt "token"
    let key ← entry.strAt "key"
    some ⟨toAsciiLowercase token, toAsciiLowercase key⟩
  else none

/-- The token for `wanted` out of the `tokenlist` of an answer.  The list can carry other
units' entries. -/
def pickToken (answer : Json) (wanted : Str) : Except CloudError Token :=
  match answer.arrayAt "tokenlist" with
  | none => .error (.malformed "no tokenlist in the response".toList)
  | some list =>
      match list.findSome? (entryToken wanted) with
      | some token => .ok token
      | none => .error (noneForThisUnit list.length)

/-- Ask with each byte order in turn.  A refusal is about the account or the API, not the byte
order, so it ends the search. -/
def tryOrders (ask : Bool → Conversation Token) (last : Option CloudError) :
    List Bool → Conversation Token
  | [] => .failed (last.getD (.noToken "no token for this unit".toList))
  | bigEndian :: orders => do
      match ← (ask bigEndian).attempt with
      | .ok token => pure token
      | .error (.api code message) => .failed (.api code message)
      | .error e => tryOrders ask (some e) orders

/-- Little-endian first. -/
def tryBothOrders (ask : Bool → Conversation Token) : Conversation Token :=
  tryOrders ask none [false, true]

variable (C : Crates)

/-- The udpid the token API keys a device by: the digest of the id as six bytes, its two halves
laid over each other. -/
def udpid (deviceId : UInt64) (bigEndian : Bool) : Str :=
  let six := beBytes 6 deviceId.toNat
  let digest := (C.sha256 (if bigEndian then six else six.reverse)).val
  hexLower (List.zipWith (· ^^^ ·) (digest.take 16) (digest.drop 16))

end BreezeCloud
