import BreezeCore.Http.Server

/-!
# The pairing routes

Each handler takes the state and its request as the JSON reader left it, a value
or the reader's complaint.  Saving the device store either works or fails with a
message; which of the two is an argument, and so are the random draws.
-/

namespace BreezeHttp

open Bytes Text BreezeStore BreezeAuth

structure StartRequest where
  label : Str := []
  authVersion : UInt8 := 1
  publicKey : Option Str := none
  deriving DecidableEq, Repr

structure PollRequest where
  sessionId : Str := []
  deriving DecidableEq, Repr

structure ApproveRequest where
  code : Str := []
  deriving DecidableEq, Repr

structure UpgradeRequest where
  publicKey : Str
  deriving DecidableEq, Repr

def PUBLIC_KEY_MAX : Nat := 128

variable (C : Crypto)

/-- What an upgrade makes of a record. -/
def upgradeRecord (publicKey : Str) (record : DeviceRecord) : DeviceRecord :=
  -- The bearer goes: it would be a second, weaker way in.
  { record with authVersion := 2, publicKey := some publicKey, tokenHash := none }

/-- `POST /api/auth/upgrade`: move the calling device to version 2 in place. The key is checked
before the record is looked for, and where the save fails the record is put back. -/
def upgrade (state : AppState) (tokenId : Option Str) (body : Except String UpgradeRequest)
    (saved : Except String Unit) : Reply × AppState :=
  match tokenId, body with
  | none, _ => (.detail 401 "no authenticated device to upgrade", state)
  | some _, .error e => (.detail 422 ("invalid upgrade request: " ++ e), state)
  | some tokenId, .ok request =>
      if PUBLIC_KEY_MAX < (toUtf8 request.publicKey).length then
        (.detail 400 "invalid Ed25519 public_key", state)
      else if ¬ publicKeyIsValid C request.publicKey then
        (.detail 400 "invalid Ed25519 public_key", state)
      else
        match state.devices.devices.find? fun d => d.tokenId = tokenId with
        | none => (.detail 404 "device not found", state)
        | some previous =>
            let devices :=
              updateFirst tokenId (upgradeRecord request.publicKey) state.devices.devices
            match saved with
            | .error e =>
                -- Roll back: a device that believes it upgraded could authenticate neither way.
                let devices := updateFirst tokenId (fun _ => previous) devices
                (.detail 500 ("cannot write the device store: " ++ e),
                  { state with devices := { devices := devices } })
            | .ok () =>
                (⟨200, .upgraded tokenId 2⟩, { state with devices := { devices := devices } })

/-- `POST /api/auth/enroll/start`.  An empty body is a v1 enrolment without a
label. -/
def start (state : AppState) (body : Except String StartRequest) (bodyIsEmpty : Bool)
    (idDraw : Draw 18) (codeDraw : Draw 5) (now : ℚ) : Reply × AppState :=
  match (match body with
    | .ok request => Except.ok request
    | .error e => if bodyIsEmpty then .ok {} else .error e) with
  | .error e => (.detail 422 ("invalid enrolment request: " ++ e), state)
  | .ok request =>
      let (result, enrollment) := state.enrollment.start C request.label request.authVersion
        request.publicKey idDraw codeDraw now
      let state := { state with enrollment := enrollment }
      match result with
      | .ok (sessionId, userCode, expiresIn) =>
          (⟨200, .started sessionId userCode expiresIn⟩, state)
      | .error e => (.detail 422 e.message, state)

/-- Add a freshly minted record and write it out.  A failed save leaves the
record where it is. -/
def persistNewDevice (state : AppState) (record : DeviceRecord) (saved : Except String Unit) :
    Except String Unit × AppState :=
  let state := { state with devices := { devices := state.devices.devices ++ [record] } }
  match saved with
  | .ok () => (.ok (), state)
  | .error e => (.error ("cannot write the device store: " ++ e), state)

/-- An approval as far as it holds the pairing sessions: the record it mints, or the reply
that ends it. -/
def approveMint (state : AppState) (body : Except String ApproveRequest) (walk : Walk)
    (idDraw : Draw 8) (secretDraw : Draw 32) (now : ℚ) : Except Reply DeviceRecord × AppState :=
  match body with
  | .error e => (.error (.detail 422 ("invalid approval request: " ++ e)), state)
  | .ok request =>
      let (record, enrollment) :=
        state.enrollment.approve C request.code walk idDraw secretDraw now
      let state := { state with enrollment := enrollment }
      match record with
      | none => (.error (.detail 404 "no pending enrolment matches that code"), state)
      | some record => (.ok record, state)

/-- And as it goes on once it has let go of them. -/
def approvePersist (state : AppState) (record : DeviceRecord) (saved : Except String Unit) :
    Reply × AppState :=
  match persistNewDevice state record saved with
  | (.error e, state) => (.detail 500 e, state)
  | (.ok (), state) => (⟨200, .paired record.tokenId record.label⟩, state)

/-- `POST /api/auth/enroll/approve`. -/
def approve (state : AppState) (body : Except String ApproveRequest) (walk : Walk)
    (idDraw : Draw 8) (secretDraw : Draw 32) (now : ℚ) (saved : Except String Unit) :
    Reply × AppState :=
  match approveMint C state body walk idDraw secretDraw now with
  | (.error reply, state) => (reply, state)
  | (.ok record, state) => approvePersist state record saved

/-- `POST /api/auth/enroll/poll`. A session that is approved hands over its record and its token,
and is gone with that. -/
def poll (state : AppState) (body : Except String PollRequest) (now : ℚ) : Reply × AppState :=
  match body with
  | .error e => (.detail 422 ("invalid poll request: " ++ e), state)
  | .ok request =>
      let (outcome, enrollment) := state.enrollment.poll request.sessionId now
      let state := { state with enrollment := enrollment }
      match outcome.record with
      | some record =>
          if outcome.status = APPROVED then
            (⟨200, .collected APPROVED record outcome.deviceToken⟩, state)
          else (⟨200, .status outcome.status⟩, state)
      | none => (⟨200, .status outcome.status⟩, state)

/-- `DELETE /api/auth/devices/{token_id}`.  A failed save does not bring the
record back. -/
def revoke (state : AppState) (tokenId : Str) (saved : Except String Unit) : Reply × AppState :=
  let devices := state.devices.devices.filter fun d => d.tokenId ≠ tokenId
  let removed := devices.length ≠ state.devices.devices.length
  let state := { state with devices := { devices := devices } }
  if removed then
    match saved with
    | .error e => (.detail 500 ("cannot write the device store: " ++ e), state)
    | .ok () => (⟨204, .empty⟩, state)
  else (.detail 404 "no such device", state)

end BreezeHttp
