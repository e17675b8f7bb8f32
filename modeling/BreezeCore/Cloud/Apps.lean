import BreezeCore.Cloud.V5

/-!
# The three apps

Whether an app's cloud has an account is asked without the password.  A login asks for the
account's loginId first, which salts the password hash, and a session then asks for a unit's
token.  `fetchTokenAny` does all of it when nobody is there to choose the app.
-/

namespace BreezeCloud

open Text Bytes JsonValue Talks BreezeStore V5

variable (C : Crates)

/-- The access token in the answer to a login. -/
def loggedIn (client : Client) (answer : Json) : Conversation Client :=
  let client := { client with accessToken := answer.get "mdata".toList >>= (·.strAt "accessToken") }
  if client.accessToken.isNone then
    .failed (.malformed "logged in, but no access token came back".toList)
  else pure client

/-- A unit's token, asked for with each byte order of the udpid. -/
def askToken (client : Client) (endpoint : String) (deviceId : UInt64)
    (fields : (wanted : Str) → Fields → Fields) : Conversation Token :=
  tryBothOrders fun bigEndian => do
    let wanted := udpid C deviceId bigEndian
    let data ← client.general
    let answer ← client.request C endpoint (fields wanted data)
    .ofExcept (pickToken answer wanted)

namespace SmartHome

/-- A client pointed at the account's own regional server.  Routing failing is not fatal, so
only a refusal that names the account as unknown is passed on. -/
def routed (account : Str) (base : Option Str) : Conversation Client := do
  let client := Client.new C SMARTHOME account
  let client := { client with base := base.getD client.base }
  let data ← client.general
  let data := Fields.insert data "userType".toList (.string "0".toList)
  let data := Fields.insert data "userName".toList (.string account)
  match ← (client.request C "/v1/multicloud/platform/user/route" data).attempt with
  | .ok answer =>
      match answer.strAt "masUrl" with
      | some url => pure (if base.isNone ∧ url ≠ [] then { client with base := url } else client)
      | none => pure client
  | .error (.api 10004 message) => .failed (.api 10004 message)
  | .error _ => pure client

/-- `false` for the two answers that mean "no such account here". -/
def accountKnownAt (account : Str) (base : Option Str) : Conversation Bool := do
  match ← (routed C account base).attempt with
  | .error (.api 10004 _) => pure false
  | .error e => .failed e
  | .ok client =>
      match ← (client.loginId C account).attempt with
      | .ok _ => pure true
      | .error (.api 3102 _) => pure false
      | .error e => .failed e

/-- Whether there is an account of that name, wherever it is served. -/
def accountKnown (account : Str) : Conversation Bool := accountKnownAt C account none

/-- What is sent to log in. -/
def loginData (client : Client) (credentials : Credentials) (loginId : Str) (general : Fields)
    (stamp : Str) : Fields :=
  let iot := Fields.remove general "uid".toList
  let iot := Fields.insert iot "iampwd".toList
    (.string (smarthomeIampwd C loginId credentials.password))
  let iot := Fields.insert iot "loginAccount".toList (.string credentials.account)
  let iot := Fields.insert iot "password".toList
    (.string (passwordHash C SMARTHOME loginId credentials.password))
  let iot := Fields.insert iot "stamp".toList (.string stamp)
  [("iotData".toList, .object iot),
    ("data".toList, .object [("appKey".toList, .string SMARTHOME.appKey),
      ("deviceId".toList, .string client.deviceId),
      ("platform".toList, .string "2".toList)]),
    ("stamp".toList, .string stamp)]

/-- Sign in: where the account is served, its login id, and then the password. -/
def loginAt (credentials : Credentials) (base : Option Str) : Conversation Client := do
  let client ← routed C credentials.account base
  let loginId ← client.loginId C credentials.account
  let general ← client.general
  let stamp ← timestampNow
  let answer ← client.request C "/mj/user/login"
    (loginData C client credentials loginId general stamp)
  loggedIn { client with uid := answer.strAt "uid" } answer

/-- Sign in, from the beginning. -/
def login (credentials : Credentials) : Conversation Client := loginAt C credentials none

/-- The units paired with this account. -/
def appliances (client : Client) : Conversation (List Appliance) := do
  let data ← client.general
  let answer ← client.request C "/v1/appliance/user/list/get" data
  match answer.arrayAt "list" with
  | some list => pure (list.filterMap Appliance.fromCloud)
  | none => .failed (.malformed "no appliance list in the response".toList)

/-- The unit's token and key. -/
def token (client : Client) (deviceId : UInt64) : Conversation Token :=
  askToken C client "/v1/iot/secure/getToken" deviceId fun wanted data =>
    -- Without the codes, every request is refused.
    Fields.insert (Fields.insert data "udpid".toList (.string wanted)) "applianceCodes".toList
      (.string (showNat deviceId.toNat))

end SmartHome

namespace Meiju

/-- A client of this cloud, at another base if one is named. -/
def clientAt (account : Str) (base : Option Str) : Client :=
  let client := Client.new C MEIJU account
  { client with base := base.getD client.base }

/-- An account that cannot even be read as one is no account here either. -/
def accountKnownAt (account : Str) (base : Option Str) : Conversation Bool := do
  match ← ((clientAt C account base).loginId C account).attempt with
  | .ok _ => pure true
  | .error (.api code message) =>
      if code = 3102 ∨ code = 1006 then pure false else .failed (.api code message)
  | .error e => .failed e

def accountKnown (account : Str) : Conversation Bool := accountKnownAt C account none

/-- What is sent to log in. -/
def loginData (client : Client) (credentials : Credentials) (loginId : Str) (reqId stamp : Str) :
    Fields :=
  [("iotData".toList, .object [("clientType".toList, .number (.posInt 1)),
      ("deviceId".toList, .string client.deviceId),
      ("iampwd".toList, .string (md5Twice C credentials.password)),
      ("iotAppId".toList, .string MEIJU.appId),
      ("loginAccount".toList, .string credentials.account),
      ("password".toList, .string (passwordHash C MEIJU loginId credentials.password)),
      ("reqId".toList, .string reqId),
      ("stamp".toList, .string stamp)]),
    ("data".toList, .object [("appKey".toList, .string MEIJU.appKey),
      ("deviceId".toList, .string client.deviceId),
      ("platform".toList, .number (.posInt 2))]),
    ("timestamp".toList, .string stamp),
    ("stamp".toList, .string stamp)]

def loginAt (credentials : Credentials) (base : Option Str) : Conversation Client := do
  let client := clientAt C credentials.account base
  let loginId ← client.loginId C credentials.account
  let stamp ← timestampNow
  let reqId ← randomHex 16
  let answer ← client.request C "/mj/user/login"
    (loginData C client credentials loginId reqId stamp)
  loggedIn client answer

def login (credentials : Credentials) : Conversation Client := loginAt C credentials none

/-- The account's homes: tokens are issued per home. -/
def homes (client : Client) : Conversation (List Str) := do
  let answer ← client.request C "/v1/homegroup/list/get" []
  pure <| match answer.arrayAt "homeList" with
    | some list => (list.filterMap (·.get "homegroupId".toList)).map fun id =>
        id.asStr.getD (C.toText id)
    | none => []

/-- The units in the rooms of one home's answer. -/
def unitsIn (answer : Json) : List Appliance :=
  let rooms := ((answer.arrayAt "homeList").getD []).filterMap (·.arrayAt "roomList")
  (rooms.flatten.flatMap fun room => (room.arrayAt "applianceList").getD []).filterMap
    Appliance.fromCloud

/-- The units of some homes, after those found already. -/
def appliancesOf (client : Client) (out : List Appliance) : List Str → Conversation (List Appliance)
  | [] => pure out
  | home :: homes => do
      let answer ← client.request C "/v1/appliance/home/list/get"
        [("homegroupId".toList, .string home)]
      appliancesOf client (out ++ unitsIn answer) homes

/-- The units paired with this account, across every home. -/
def appliances (client : Client) : Conversation (List Appliance) := do
  let homes ← homes C client
  appliancesOf C client [] homes

/-- The new endpoint, which wants the home the unit is in. -/
def tokenIn (client : Client) (deviceId : UInt64) (home : Str) : Conversation Token :=
  askToken C client "/v2/iot/secure/getToken" deviceId fun wanted data =>
    Fields.insert (Fields.insert (Fields.insert data "homegroupId".toList (.string home))
      "udpid".toList (.string wanted)) "applianceCodes".toList
      (.array [.string (showNat deviceId.toNat)])

/-- The old endpoint, for accounts it still serves. -/
def tokenV1 (client : Client) (deviceId : UInt64) : Conversation Token :=
  askToken C client "/v1/iot/secure/getToken" deviceId fun wanted data =>
    Fields.insert (Fields.insert data "udpid".toList (.string wanted)) "applianceCodes".toList
      (.string (showNat deviceId.toNat))

/-- In each home, then the old endpoint.  The error is that of the last home. -/
def tokenFrom (client : Client) (deviceId : UInt64) (last : Option CloudError) :
    List Str → Conversation Token
  | [] => do
      match ← (tokenV1 C client deviceId).attempt with
      | .ok token => pure token
      | .error e => .failed (last.getD e)
  | home :: homes => do
      match ← (tokenIn C client deviceId home).attempt with
      | .ok token => pure token
      | .error e => tokenFrom client deviceId (some e) homes

/-- The unit's token and key. -/
def token (client : Client) (deviceId : UInt64) : Conversation Token := do
  let homes ← homes C client
  tokenFrom C client deviceId none homes

end Meiju

namespace NetHome

/-- The server of the older app. -/
def BASE_URL : Str := "https://mapp.appsmb.com".toList

/-- The name this program goes by there. -/
def APP_ID : Str := "1017".toList

/-- What its requests are signed with. -/
def APP_KEY : Str := "3742e9e5842d4ad59c2db887e12449f9".toList

/-- A logged-in session. Holds no credentials. -/
structure Session where
  sessionId : Str
  deviceId : Str
  deriving DecidableEq

/-- `{"errorCode": "0", "result": {...}, "msg": "..."}`. -/
def parseEnvelope (text : Str) : Except CloudError Json := do
  let body ← (C.fromStr text).mapError .malformed
  let code := body.get "errorCode".toList >>= fun v => (v.asStr >>= parseI64) <|> v.asI64
  match code with
  | none => .error (.malformed "no errorCode in the response".toList)
  | some code =>
      if code ≠ 0 then .error (.api code ((body.strAt "msg").getD "no message".toList))
      else match body.get "result".toList with
        | some result => .ok result
        | none => .error (.malformed "a success with no result".toList)

/-- A parameter among the sorted ones, in the place of the one with its name. -/
def insertSorted (key : String) (value : Str) : List (String × Str) → List (String × Str)
  | [] => [(key, value)]
  | (k, v) :: rest =>
      if key < k then (key, value) :: (k, v) :: rest
      else if k = key then (key, value) :: rest
      else (k, v) :: insertSorted key value rest

/-- The signature, over the path, the sorted parameters and the app key. -/
def sign (path : Str) (body : List (String × Str)) : Str :=
  let query := body.map fun (k, v) => k.toList ++ '=' :: v
  hexLower (C.sha256 (toUtf8 (path ++ List.intercalate ['&'] query ++ APP_KEY))).val

/-- `sha256(login_id + sha256(password) + app key)`. -/
def encryptPassword (loginId password : Str) : Str :=
  let first := hexLower (C.sha256 (toUtf8 password)).val
  hexLower (C.sha256 (toUtf8 (loginId ++ first ++ APP_KEY))).val

/-- The parameters of a request, sorted, because the signature is over the sorted ones. -/
def parameters (session : Session) (stamp : Str) (extra : List (String × Str)) :
    List (String × Str) :=
  ([("appId", APP_ID), ("src", APP_ID), ("format", "2".toList), ("clientType", "1".toList),
    ("language", "en_US".toList), ("deviceId", session.deviceId), ("stamp", stamp),
    ("sessionId", session.sessionId)] ++ extra).foldl
      (fun body (key, value) => insertSorted key value body) []

/-- A request as it is sent. -/
def requestWith (endpoint : String) (body : List (String × Str)) : Request where
  url := BASE_URL ++ endpoint.toList
  headers := []
  body := .form (body.map (fun (k, v) => (k.toList, v)) ++
    [("sign".toList, sign C endpoint.toList body)])

/-- The envelope in an answer. -/
def unwrap (response : Response) : Conversation Json := do
  let text ← .ofExcept response.body
  .ofExcept (parseEnvelope C text)

/-- One signed, form-encoded POST, unwrapping the response envelope. -/
def request (session : Session) (endpoint : String) (extra : List (String × Str)) :
    Conversation Json := do
  let stamp ← timestampNow
  let response ← send (requestWith C endpoint (parameters session stamp extra))
  unwrap C response

/-- The first step of a login alone, which takes only the account name. -/
def accountKnown (account : Str) : Conversation Bool := do
  let deviceId ← randomHex 8
  let response := request C ⟨[], deviceId⟩ "/v1/user/login/id/get" [("loginAccount", account)]
  match ← response.attempt with
  | .ok _ => pure true
  | .error (.api 3102 _) => pure false
  | .error e => .failed e

def login (credentials : Credentials) : Conversation Session := do
  let deviceId ← randomHex 8
  let session : Session := ⟨[], deviceId⟩
  let response ← request C session "/v1/user/login/id/get" [("loginAccount", credentials.account)]
  match response.strAt "loginId" with
  | none => .failed (.malformed "no loginId in the response".toList)
  | some loginId =>
      let hashed := encryptPassword C loginId credentials.password
      let response ← request C session "/v1/user/login"
        [("loginAccount", credentials.account), ("password", hashed)]
      match response.strAt "sessionId" with
      | none => .failed (.malformed "no sessionId in the response".toList)
      | some sessionId => pure { session with sessionId := sessionId }

/-- The entry as a token, when it is for `wanted`, letter for letter. -/
def entryToken (wanted : Str) (entry : Json) : Option Token :=
  if entry.strAt "udpId" = some wanted then do
    let token ← entry.strAt "token"
    let key ← entry.strAt "key"
    some ⟨token, key⟩
  else none

/-- Ask for the token of a unit, under the udpid of one byte order. -/
def getToken (session : Session) (deviceId : UInt64) (bigEndian : Bool) : Conversation Token := do
  let wanted := udpid C deviceId bigEndian
  let response ← request C session "/v1/iot/secure/getToken" [("udpid", wanted)]
  match response.arrayAt "tokenlist" with
  | none => .failed (.malformed "no tokenlist in the response".toList)
  | some list =>
      match list.findSome? (entryToken wanted) with
      | some token => pure token
      | none => .failed (noneForThisUnit list.length)

/-- The token, from a session already logged in. -/
def fetchWith (session : Session) (deviceId : UInt64) : Conversation Token :=
  tryBothOrders fun bigEndian => getToken C session deviceId bigEndian

end NetHome

/-! ## Any of them -/

/-- A logged-in session with one of the clouds. -/
inductive Session where
  | smartHome (client : Client)
  | meiju (client : Client)
  | netHomePlus (session : NetHome.Session)

/-- Whether the cloud has the account, asked of any of the three. -/
def Cloud.accountKnown (account : Str) : Cloud → Conversation Bool
  | .smartHome => SmartHome.accountKnown C account
  | .meiju => Meiju.accountKnown C account
  | .netHomePlus => NetHome.accountKnown C account

/-- Logging in to any of the three. -/
def Cloud.login (credentials : Credentials) : Cloud → Conversation Session
  | .smartHome => do
      let client ← SmartHome.login C credentials
      pure (.smartHome client)
  | .meiju => do
      let client ← Meiju.login C credentials
      pure (.meiju client)
  | .netHomePlus => do
      let session ← NetHome.login C credentials
      pure (.netHomePlus session)

/-- The units paired with the account, where the cloud will say. -/
def Session.appliances : Session → Conversation (Option (List Appliance))
  | .smartHome client => do
      let list ← SmartHome.appliances C client
      pure (some list)
  | .meiju client => do
      let list ← Meiju.appliances C client
      pure (some list)
  | .netHomePlus _ => pure none

/-- The search for a unit's token, with the session of any of them. -/
def Session.token (deviceId : UInt64) : Session → Conversation Token
  | .smartHome client => SmartHome.token C client deviceId
  | .meiju client => Meiju.token C client deviceId
  | .netHomePlus session => NetHome.fetchWith C session deviceId

/-- Ask each cloud in turn, and fetch from the first that has the account. -/
def fetchFrom (credentials : Credentials) (deviceId : UInt64) (last : Option CloudError) :
    List Cloud → Conversation (Cloud × Token)
  | [] => .failed (last.getD .unknownAccount)
  | cloud :: clouds => do
      match ← (cloud.accountKnown C credentials.account).attempt with
      | .ok true => do
          let session ← cloud.login C credentials
          let token ← session.token C deviceId
          pure (cloud, token)
      | .ok false => fetchFrom credentials deviceId last clouds
      | .error e => fetchFrom credentials deviceId (some e) clouds

/-- For a caller with nobody to talk to: find the cloud that knows the account, asking each
without the password, log in to that one alone, and fetch. -/
def fetchTokenAny (credentials : Credentials) (deviceId : UInt64) : Conversation (Cloud × Token) :=
  fetchFrom C credentials deviceId none [.smartHome, .meiju, .netHomePlus]

end BreezeCloud
