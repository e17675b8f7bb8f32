import BreezeCore.Cloud.Cloud

/-!
# The "v5 proxy" API

Two of the clouds speak it.  Every request is a JSON POST, signed over the exact text sent,
and an answer is an envelope with a code.
-/

namespace BreezeCloud.V5

open Text Bytes JsonValue Talks BreezeStore

/-- Which app a client is pretending to be. -/
structure Profile where
  appId : Str
  appKey : Str
  /-- Salts the password hashes. -/
  loginKey : Str
  iotKey : Str
  hmacKey : Str
  baseUrl : Str
  /-- One app alone wants `x-recipe-app` and Basic authorisation on every request. -/
  smarthomeHeaders : Bool

/-- Midea's current app outside China. -/
def SMARTHOME : Profile where
  appId := "1010".toList
  appKey := "ac21b9f9cbfe4ca5a88562ef25e2b768".toList
  loginKey := "ac21b9f9cbfe4ca5a88562ef25e2b768".toList
  iotKey := "meicloud".toList
  hmacKey := "PROD_VnoClJI9aikS8dyy".toList
  baseUrl := "https://mp-prod.appsmb.com/mas/v5/app/proxy?alias=".toList
  smarthomeHeaders := true

/-- The app in mainland China. -/
def MEIJU : Profile where
  appId := "900".toList
  appKey := "46579c15".toList
  loginKey := "ad0ee21d48a64bf49f4fb583ab76e799".toList
  iotKey := "prod_secret123@muc".toList
  hmacKey := "PROD_VnoClJI9aikS8dyy".toList
  baseUrl := "https://mp-prod.smartmidea.net/mas/v5/app/proxy?alias=".toList
  smarthomeHeaders := false

variable (C : Crates)

/-- The signature over a body and the time it is sent at. -/
def sign (profile : Profile) (body random : Str) : Str :=
  hexLower (C.hmacSha256 (toUtf8 profile.hmacKey)
    (toUtf8 profile.iotKey ++ toUtf8 body ++ toUtf8 random)).val

/-- The app key and iot key, for Basic authorisation. -/
def basic (profile : Profile) : Str :=
  C.base64 (toUtf8 (profile.appKey ++ ':' :: profile.iotKey))

/-- The apps' device id, the same for the same account. -/
def deviceIdOf (account : Str) : Str :=
  (hexLower (C.sha256 (toUtf8 ("Hello, ".toList ++ account ++ "!".toList))).val).take 16

/-- `sha256(login_id + sha256hex(password) + login_key)`. -/
def passwordHash (profile : Profile) (loginId password : Str) : Str :=
  let first := hexLower (C.sha256 (toUtf8 password)).val
  hexLower (C.sha256 (toUtf8 (loginId ++ first ++ profile.loginKey))).val

/-- `md5hex(md5hex(password))`. -/
def md5Twice (password : Str) : Str :=
  hexLower (C.md5 (toUtf8 (hexLower (C.md5 (toUtf8 password)).val))).val

def smarthomeIampwd (loginId password : Str) : Str :=
  hexLower (C.sha256 (toUtf8 (loginId ++ md5Twice C password ++ SMARTHOME.loginKey))).val

/-- `{"code": 0, "msg": "...", "data": {...}}`, the code a number or a string. -/
def parseEnvelope (text : Str) : Except CloudError Json := do
  let body ← (C.fromStr text).mapError .malformed
  let code := body.get "code".toList >>= fun v => v.asI64 <|> (v.asStr >>= parseI64)
  match code with
  | none => .error (.malformed "no code in the response".toList)
  | some code =>
      if code ≠ 0 then .error (.api code ((body.strAt "msg").getD "no message".toList))
      else .ok ((body.get "data".toList).getD .null)

/-- One account's conversation with one cloud. -/
structure Client where
  profile : Profile
  base : Str
  /-- Derived from the account, so repeated runs look like one phone. -/
  deviceId : Str
  uid : Option Str := none
  accessToken : Option Str := none

def Client.new (profile : Profile) (account : Str) : Client where
  profile := profile
  base := profile.baseUrl
  deviceId := deviceIdOf C account

variable {C} (client : Client)

/-- The fields every request carries, as the apps send them. -/
def Client.general : Conversation Fields := do
  let stamp ← timestampNow
  let reqId ← randomHex 16
  pure [("src".toList, .string client.profile.appId),
    ("format".toList, .string "2".toList),
    ("stamp".toList, .string stamp),
    ("platformId".toList, .string "1".toList),
    ("deviceId".toList, .string client.deviceId),
    ("reqId".toList, .string reqId),
    ("uid".toList, (client.uid.map Json.string).getD .null),
    ("clientType".toList, .string "1".toList),
    ("appId".toList, .string client.profile.appId),
    ("language".toList, .string "en_US".toList)]

/-- A field that is not there yet gets a value. -/
def orInsertWith (data : Fields) (key : Str) (value : Conversation Str) : Conversation Fields :=
  match Fields.get? data key with
  | some _ => pure data
  | none => do
      let value ← value
      pure (Fields.insert data key (.string value))

variable (C)

/-- The headers of a request with this body. -/
def Client.headers (body random : Str) : List (Str × Str) :=
  [("content-type".toList, "application/json; charset=utf-8".toList),
    ("secretVersion".toList, "1".toList),
    ("sign".toList, sign C client.profile body random),
    ("random".toList, random)] ++
  (client.uid.map fun uid => ("uid".toList, uid)).toList ++
  (client.accessToken.map fun token => ("accessToken".toList, token)).toList ++
  if client.profile.smarthomeHeaders then
    [("x-recipe-app".toList, client.profile.appId),
      ("authorization".toList, "Basic ".toList ++ basic C client.profile)]
  else []

/-- A request as it is sent.  The text that is signed is the text that is sent. -/
def Client.requestWith (endpoint : String) (data : Fields) (random : Str) : Request where
  url := client.base ++ endpoint.toList
  headers := client.headers C (C.toText (.object data)) random
  body := .text (C.toText (.object data))

/-- The envelope in an answer. -/
def unwrap (response : Response) : Conversation Json := do
  let text ← .ofExcept response.body
  .ofExcept (parseEnvelope C text)

/-- One signed request, unwrapping the envelope. -/
def Client.request (endpoint : String) (data : Fields) : Conversation Json := do
  let data ← orInsertWith data "reqId".toList (randomHex 16)
  let data ← orInsertWith data "stamp".toList timestampNow
  let now ← secondsSinceEpoch
  let response ← send (client.requestWith C endpoint data (showNat now.toNat))
  unwrap C response

/-- The account's loginId, which salts the password hashes.  It sends no password. -/
def Client.loginId (account : Str) : Conversation Str := do
  let data ← client.general
  let response ← client.request C "/v1/user/login/id/get"
    (Fields.insert data "loginAccount".toList (.string account))
  match response.strAt "loginId" with
  | some id => pure id
  | none => .failed (.malformed "no loginId in the response".toList)

end BreezeCloud.V5
