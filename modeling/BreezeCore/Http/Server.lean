import BreezeCore.Auth.Enroll
import BreezeCore.Auth.Net

/-!
# The request, the guards and the state behind them

`Incoming.read` takes what it needs out of a request; `authorise` holds it to
the guard of its route.  Of the application state only what the guards and the
pairing routes use is here.
-/

namespace BreezeHttp

open Bytes Text Net BreezeStore BreezeAuth

/-- A response body, before it is written out as JSON. -/
inductive Content where
  | detail (message : String)
  | rejection (detail : RejectionDetail)
  | upgradeRequired (detail : UpgradeRequiredDetail)
  | started (sessionId userCode : Str) (expiresIn : Nat)
  | paired (tokenId label : Str)
  | status (status : String)
  | collected (status : String) (record : DeviceRecord) (deviceToken : Option Str)
  | upgraded (tokenId : Str) (authVersion : UInt8)
  | empty
  deriving DecidableEq, Repr

/-- A response body plus its status. -/
structure Reply where
  status : Nat
  content : Content
  deriving DecidableEq, Repr

def Reply.detail (status : Nat) (message : String) : Reply := ⟨status, .detail message⟩

/-- What the guards and the pairing routes keep. -/
structure AppState where
  behindProxy : Bool
  apiKey : Option Str
  verifier : Verifier
  devices : DevicesDoc := {}
  nonces : NonceCache
  enrollment : EnrollmentService := {}

/-- A request as the HTTP layer hands it over. -/
structure Request where
  method : Str
  url : Str
  headers : List (Str × Str) := []
  remoteAddr : Option IpAddr
  body : Octets := []
  httpVersion : Nat × Nat := (1, 1)
  deriving DecidableEq, Repr

/-- A request with what the routes need taken out. -/
structure Incoming where
  method : Str
  /-- Path only, no query. -/
  path : Str
  /-- Path plus query, which is what a v2 signature covers. -/
  signedPath : Str
  body : Octets
  apiKey : Option Str
  bearer : Option Str
  authVersion : Option Str
  keyId : Option Str
  timestamp : Option Str
  nonce : Option Str
  signature : Option Str
  peer : Option IpAddr
  forwardedFor : Option Str
  acceptEncoding : Option Str
  deviceTokenId : Option Str
  ifNoneMatch : Option Str
  host : Option Str
  userAgent : Option Str
  forwardedProto : Option Str
  httpVersion : Str
  deriving DecidableEq, Repr

/-- The value of the first header line with this name, whatever its case. -/
def header (headers : List (Str × Str)) (name : String) : Option Str :=
  (headers.find? fun h => toAsciiLowercase h.1 = name.toList).map Prod.snd

def Incoming.read (request : Request) : Incoming :=
  let header := header request.headers
  { method := request.method
    path := match splitOnce '?' request.url with
      | some (path, _) => path
      | none => request.url
    signedPath := request.url
    body := request.body
    apiKey := header "x-api-key"
    bearer := (header "authorization").bind bearerFromHeader
    authVersion := header "x-breeze-auth-version"
    keyId := header "x-breeze-key-id"
    timestamp := header "x-breeze-timestamp"
    nonce := header "x-breeze-nonce"
    signature := header "x-breeze-signature"
    peer := request.remoteAddr
    forwardedFor := header "x-forwarded-for"
    acceptEncoding := header "accept-encoding"
    deviceTokenId := none
    ifNoneMatch := header "if-none-match"
    host := header "host"
    userAgent := header "user-agent"
    forwardedProto := header "x-forwarded-proto"
    httpVersion :=
      (toString request.httpVersion.1 ++ "." ++ toString request.httpVersion.2).toList }

def Incoming.presented (incoming : Incoming) : Presented where
  apiKey := incoming.apiKey
  bearer := incoming.bearer
  authVersion := incoming.authVersion
  keyId := incoming.keyId
  timestamp := incoming.timestamp
  nonce := incoming.nonce
  signature := incoming.signature
  method := incoming.method
  path := incoming.signedPath
  body := incoming.body

/-- What a route needs before it runs. -/
inductive Guard where
  | openToAll
  | apiKey
  | full
  | adminLan
  deriving DecidableEq, Repr

/-- Apply a change to the first record with this id. -/
def updateFirst (tokenId : Str) (change : DeviceRecord → DeviceRecord) :
    List DeviceRecord → List DeviceRecord
  | [] => []
  | record :: records =>
      if record.tokenId = tokenId then change record :: records
      else record :: updateFirst tokenId change records

/-- Note when a device was last seen. -/
def markUsed (state : AppState) (tokenId : Str) (now : ℚ) : AppState :=
  let used := updateFirst tokenId (fun r => { r with lastUsed := some now }) state.devices.devices
  { state with devices := { devices := used } }

variable (C : Crypto)

/-- The per-device credential, checked against the state and noted in it. -/
def authoriseDevice (state : AppState) (presented : Presented) (now : ℚ) : Decision × AppState :=
  let (decision, nonces) := state.verifier.verifyDevice C state.devices presented state.nonces now
  let state := { state with nonces := nonces }
  match decision with
  | .allow who => (decision, markUsed state who.tokenId now)
  | _ => (decision, state)

/-- The address the administrative guard decides on. -/
def guardAddress (state : AppState) (incoming : Incoming) : Option IpAddr :=
  clientIp incoming.peer incoming.forwardedFor state.behindProxy

/-- Hold a request to its guard: the id of the identified device, when the guard
involved one, or the reply that refuses it. -/
def authorise (state : AppState) (incoming : Incoming) (guard : Guard) (now : ℚ) :
    Except Reply (Option Str) × AppState :=
  if guard = .openToAll then (.ok none, state)
  else
    match state.verifier.verifyApiKey incoming.apiKey state.apiKey with
    | some rejection => (.error ⟨rejection.status, .rejection rejection.body⟩, state)
    | none =>
        match guard with
        | .openToAll | .apiKey => (.ok none, state)
        | .adminLan =>
            if ¬ isPrivateIp (guardAddress state incoming) then
              (.error (.detail 403 "this admin action must come from the local network"), state)
            else (.ok none, state)
        | .full =>
            match authoriseDevice C state incoming.presented now with
            | (.allow who, state) => (.ok (some who.tokenId), state)
            | (.reject r, state) => (.error ⟨r.status, .rejection r.body⟩, state)
            | (.upgradeRequired minAuthVersion, state) =>
                (.error ⟨426, .upgradeRequired (upgradeRequiredBody minAuthVersion)⟩, state)

end BreezeHttp
