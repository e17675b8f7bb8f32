import BreezeCore.Http.Soundness
import BreezeCore.Store.Save

/-!
# The device store in memory and on disk

Each of the handlers that change the device records has its own order of changing
them, saving them and undoing the change.  `upgrade` and `revoke` hold the lock of
the records throughout; `approve` lets go of the pairing sessions, with the session
already approved, before it takes the records and saves.  Here an approval is two
steps, `approveMint` and `approvePersist`, and polls come in between.

* `store_atomic` — what the handlers promise when no save of an approval or a
  revocation fails and no poll collects what is not saved yet.
-/

namespace BreezeHttp.Persistence

open Bytes Text BreezeStore BreezeAuth Runs

/-- The server with its device store and the approvals in progress. -/
structure StoreState where
  app : AppState
  /-- What `devices.json` holds. -/
  disk : DevicesDoc
  /-- Records of approvals that have not got to the store yet. -/
  minted : List DeviceRecord := []

/-- The requests that change the sessions or the devices, an approval in the parts between which
others may come. -/
inductive Op where
  | start (body : Except String StartRequest) (bodyIsEmpty : Bool) (idDraw : Draw 18)
      (codeDraw : Draw 5) (now : ℚ)
  /-- An approval, as far as it holds the sessions. -/
  | mint (body : Except String ApproveRequest) (walk : Walk) (idDraw : Draw 8)
      (secretDraw : Draw 32) (now : ℚ)
  /-- One of the approvals in progress stores its record. -/
  | persist (i : Nat) (saved : Saved)
  | poll (body : Except String PollRequest) (now : ℚ)
  | upgrade (tokenId : Option Str) (body : Except String UpgradeRequest) (saved : Saved)
  | revoke (tokenId : Str) (saved : Saved)
  | verify (presented : Presented) (now : ℚ)

/-- What comes of one: an answer, a decision of the verifier, or nothing yet. -/
inductive Answer where
  | reply (r : Reply)
  | decision (d : Decision)
  | silent
  deriving DecidableEq, Repr

/-- The reply to a save that failed. -/
def storeFailed (e : String) : Reply := .detail 500 ("cannot write the device store: " ++ e)

variable (C : Crypto)

/-- A handler that saves the records it would leave if that worked.  One that refuses
does not get so far. -/
def StoreState.handle (state : StoreState) (handler : Except String Unit → Reply × AppState)
    (saved : Saved) : Reply × StoreState :=
  let done := handler (.ok ())
  let (reply, app) := handler saved.result
  (reply,
    { state with
      app := app
      disk := if done.1.status < 300 then saved.onDisk state.disk done.2.devices else state.disk })

/-- A step of one of the handlers. An approval is two of them, with the lock of the sessions given
up in between, so that other requests may come there. -/
def step (state : StoreState) : Op → Answer × StoreState
  | .start body bodyIsEmpty idDraw codeDraw now =>
      let (reply, app) := start C state.app body bodyIsEmpty idDraw codeDraw now
      (.reply reply, { state with app := app })
  | .mint body walk idDraw secretDraw now =>
      match approveMint C state.app body walk idDraw secretDraw now with
      | (.error reply, app) => (.reply reply, { state with app := app })
      | (.ok record, app) =>
          (.silent, { state with app := app, minted := state.minted ++ [record] })
  | .persist i saved =>
      match state.minted[i]? with
      | none => (.silent, state)
      | some record =>
          let (reply, state) := state.handle (approvePersist state.app record) saved
          (.reply reply, { state with minted := state.minted.eraseIdx i })
  | .poll body now =>
      let (reply, app) := poll state.app body now
      (.reply reply, { state with app := app })
  | .upgrade tokenId body saved =>
      let (reply, state) := state.handle (upgrade C state.app tokenId body) saved
      (.reply reply, state)
  | .revoke tokenId saved =>
      let (reply, state) := state.handle (revoke state.app tokenId) saved
      (.reply reply, state)
  | .verify presented now =>
      let (decision, app) := authoriseDevice C state.app presented now
      (.decision decision, { state with app := app })

/-! ## What is promised -/

/-- A step of a run, with the state before it. -/
abbrev Moment := Entry StoreState Op Answer

/-- The handler answers that the device store could not be written. -/
def Fails (e : Moment) : Prop := ∃ m, e.output = .reply (storeFailed m)

/-- The approval of this record fails. -/
def ApprovalFails (e : Moment) (record : DeviceRecord) : Prop :=
  Fails e ∧ ∃ i saved, e.input = .persist i saved ∧ e.before.minted[i]? = some record

/-- A poll collects this record. -/
def Delivers (e : Moment) (record : DeviceRecord) : Prop :=
  ∃ token, e.output = .reply ⟨200, .collected APPROVED record token⟩

/-- A device with this id is let in. -/
def Accepts (e : Moment) (tokenId : Str) : Prop :=
  ∃ who, e.output = .decision (.allow who) ∧ who.tokenId = tokenId

/-- What a run of the pairing handlers promises. -/
structure StoreAtomic (entries : List Moment) : Prop where
  /-- A handler that fails to save leaves the records and the sessions alone. -/
  kept : ∀ e ∈ entries, Fails e →
    e.after.app.devices = e.before.app.devices ∧ e.after.app.enrollment = e.before.app.enrollment
  /-- An approval that fails leaves no session approved with its record. -/
  unapproved : ∀ e ∈ entries, ∀ record, ApprovalFails e record →
    ∀ s ∈ e.after.app.enrollment.sessions, s.2.record ≠ some record
  /-- Its device collects nothing, before or after, and is not let in. -/
  refused : ∀ e ∈ entries, ∀ record, ApprovalFails e record →
    ∀ e' ∈ entries, ¬ Delivers e' record ∧ ¬ Accepts e' record.tokenId
  /-- What is collected was stored before. -/
  stored : ∀ pre e post, entries = pre ++ e :: post → ∀ record, Delivers e record →
    ∃ e' ∈ pre, record ∈ e'.after.disk.devices
  /-- A device whose revocation fails stays, in memory and on disk. -/
  revoked : ∀ e ∈ entries, Fails e → ∀ tokenId saved, e.input = .revoke tokenId saved →
    e.after.app.devices = e.before.app.devices ∧ e.after.disk = e.before.disk

/-- A save of an approval or of a revocation works, and a poll finds no session whose
record is still on its way to the store. -/
def Fine (state : StoreState) : Op → Prop
  | .persist i saved => state.minted[i]? ≠ none → saved.result = .ok ()
  | .revoke tokenId saved =>
      (∃ r ∈ state.app.devices.devices, r.tokenId = tokenId) → saved.result = .ok ()
  | .poll (.ok request) now =>
      ∀ session ∈ (state.app.enrollment.sweep now).get request.sessionId,
        ∀ record ∈ session.record, record ∉ state.minted
  | _ => True

instance (state : StoreState) (op : Op) : Decidable (Fine state op) := by
  unfold Fine
  split <;> infer_instance

/-! ## Failed saves -/

variable {C}

/-- Starting a pairing stores nothing on disk, so nothing of it can fail there. -/
theorem start_status (app : AppState) (body : Except String StartRequest) (bodyIsEmpty : Bool)
    (idDraw : Draw 18) (codeDraw : Draw 5) (now : ℚ) :
    (start C app body bodyIsEmpty idDraw codeDraw now).1.status ≠ 500 := by
  unfold start
  split
  next => simp [Reply.detail]
  next =>
    dsimp only
    split
    next => simp
    next => simp [Reply.detail]

/-- Nor does what an approval does before it stores: none of its refusals is a failed save. -/
theorem mint_status {app : AppState} {body : Except String ApproveRequest} {walk : Walk}
    {idDraw : Draw 8} {secretDraw : Draw 32} {now : ℚ} {reply : Reply} {app' : AppState}
    (h : approveMint C app body walk idDraw secretDraw now = (.error reply, app')) :
    reply.status ≠ 500 := by
  unfold approveMint at h
  split at h
  next =>
    obtain ⟨hreply, -⟩ := Prod.mk.inj h
    cases hreply
    simp [Reply.detail]
  next =>
    dsimp only at h
    split at h
    next =>
      obtain ⟨hreply, -⟩ := Prod.mk.inj h
      cases hreply
      simp [Reply.detail]
    next => cases (Prod.mk.inj h).1

/-- A poll never answers with a failed save, as it saves nothing. -/
theorem poll_status (app : AppState) (body : Except String PollRequest) (now : ℚ) :
    (poll app body now).1.status ≠ 500 := by
  unfold poll
  split
  next => simp [Reply.detail]
  next =>
    dsimp only
    split
    next => split <;> simp
    next => simp

/-- What a handler that saves answers and leaves in memory. -/
theorem handle_app (state : StoreState) (handler : Except String Unit → Reply × AppState)
    (saved : Saved) :
    (state.handle handler saved).1 = (handler saved.result).1 ∧
      (state.handle handler saved).2.app = (handler saved.result).2 := ⟨rfl, rfl⟩

/-- **One failed save.**  Where approvals and revocations are saved, only an upgrade
fails to save, and it puts the old record back. -/
theorem upgrade_of_fails {state : StoreState} {op : Op} {m : String} (hfine : Fine state op)
    (h : (step C state op).1 = .reply (storeFailed m)) :
    ∃ tokenId body saved, op = .upgrade tokenId body saved ∧
      (step C state op).2.app = state.app := by
  have hstatus : ∀ {reply : Reply}, Answer.reply reply = .reply (storeFailed m) →
      reply.status = 500 := by
    intro reply heq
    rw [Answer.reply.inj heq]
    rfl
  cases op with
  | start body bodyIsEmpty idDraw codeDraw now =>
      exact absurd (hstatus h) (start_status state.app body bodyIsEmpty idDraw codeDraw now)
  | mint body walk idDraw secretDraw now =>
      unfold step at h
      dsimp only at h
      split at h
      next hmint => exact absurd (hstatus h) (mint_status hmint)
      next => cases h
  | persist i saved =>
      unfold step at h
      dsimp only at h
      split at h
      next => cases h
      next record hminted =>
        have hsaved : saved.result = .ok () := hfine (by rw [hminted]; nofun)
        have hreply := Answer.reply.inj h
        rw [(handle_app state _ saved).1, hsaved] at hreply
        cases hreply
  | poll body now => exact absurd (hstatus h) (poll_status state.app body now)
  | upgrade tokenId body saved =>
      refine ⟨tokenId, body, saved, rfl, ?_⟩
      have hreply : (upgrade C state.app tokenId body saved.result).1 = storeFailed m :=
        Answer.reply.inj h
      rcases upgrade_cases C state.app tokenId body saved.result with
        ⟨-, hsame⟩ | ⟨id, publicKey, -, -, heq⟩
      · exact hsame
      · rw [heq] at hreply
        cases hreply
  | revoke tokenId saved =>
      have hreply : (revoke state.app tokenId saved.result).1 = storeFailed m :=
        Answer.reply.inj h
      unfold revoke at hreply
      dsimp only at hreply
      split at hreply
      next hremoved =>
        have hsaved : saved.result = .ok () := by
          apply hfine
          by_contra hnone
          apply hremoved
          rw [List.filter_eq_self.mpr]
          intro r hr
          apply decide_eq_true
          intro hid
          exact hnone ⟨r, hr, hid⟩
        rw [hsaved] at hreply
        cases hreply
      next => cases hreply
  | verify presented now => cases h

/-! ## Credentials and the store -/

/-- Checking a request leaves the sessions alone. -/
theorem authoriseDevice_enrollment (app : AppState) (presented : Presented) (now : ℚ) :
    (authoriseDevice C app presented now).2.enrollment = app.enrollment := by
  unfold authoriseDevice
  dsimp only
  split <;> rfl

/-- So does revoking a device, stored or not. -/
theorem revoke_enrollment (app : AppState) (tokenId : Str) (saved : Except String Unit) :
    (revoke app tokenId saved).2.enrollment = app.enrollment := by
  unfold revoke
  dsimp only
  split
  next => split <;> rfl
  next => rfl

/-- Upgrading a device leaves the sessions alone. -/
theorem upgrade_enrollment (app : AppState) (tokenId : Option Str)
    (body : Except String UpgradeRequest) (saved : Except String Unit) :
    (upgrade C app tokenId body saved).2.enrollment = app.enrollment := by
  rcases upgrade_cases C app tokenId body saved with ⟨-, hsame⟩ | ⟨id, publicKey, -, -, heq⟩
  · rw [hsame]
  · rw [heq]

/-- A session that starts has no record yet. -/
theorem start_recorded {app : AppState} {body : Except String StartRequest} {bodyIsEmpty : Bool}
    {idDraw : Draw 18} {codeDraw : Draw 5} {now : ℚ} {record : DeviceRecord}
    (h : (start C app body bodyIsEmpty idDraw codeDraw now).2.enrollment.Recorded record) :
    app.enrollment.Recorded record := by
  unfold start at h
  split at h
  next => exact h
  next =>
    dsimp only at h
    split at h
    next => exact h.of_start
    next => exact h.of_start

/-- A poll records nothing. -/
theorem poll_recorded {app : AppState} {body : Except String PollRequest} {now : ℚ}
    {record : DeviceRecord} (h : (poll app body now).2.enrollment.Recorded record) :
    app.enrollment.Recorded record := by
  unfold poll at h
  split at h
  next => exact h
  next =>
    dsimp only at h
    split at h
    next => split at h <;> exact h.of_poll
    next => exact h.of_poll

/-- A first part that goes on leaves the record it goes on with. -/
theorem mint_recorded (app : AppState) (body : Except String ApproveRequest) (walk : Walk)
    (idDraw : Draw 8) (secretDraw : Draw 32) (now : ℚ) (record : DeviceRecord)
    (h : (approveMint C app body walk idDraw secretDraw now).2.enrollment.Recorded record) :
    (approveMint C app body walk idDraw secretDraw now).1 = .ok record ∨
      app.enrollment.Recorded record := by
  unfold approveMint at h ⊢
  cases body with
  | error e => exact Or.inr h
  | ok request =>
      dsimp only at h ⊢
      split at h
      next hnone =>
        rcases EnrollmentService.Recorded.of_approve h with hnew | hold
        · rw [hnone] at hnew
          cases hnew
        · exact Or.inr hold
      next minted hsome =>
        rcases EnrollmentService.Recorded.of_approve h with hnew | hold
        · rw [hsome] at hnew
          exact Or.inl (congrArg Except.ok (Option.some.inj hnew))
        · exact Or.inr hold

/-- A save that works leaves the new record on the disk. -/
theorem persist_stored (state : StoreState) (record : DeviceRecord) {saved : Saved}
    (hsaved : saved.result = .ok ()) :
    record ∈ (state.handle (approvePersist state.app record) saved).2.disk.devices := by
  have hdisk : (state.handle (approvePersist state.app record) saved).2.disk =
      saved.onDisk state.disk (approvePersist state.app record (.ok ())).2.devices := rfl
  rw [hdisk, Saved.onDisk, if_pos (saved.stored hsaved)]
  exact List.mem_append_right _ List.mem_cons_self

/-- **Where a record is.**  The record of an approved session is on its way to the
store, or has just got there, or was approved before and was not on its way. -/
theorem recorded_step {state : StoreState} {op : Op} (hfine : Fine state op) {record : DeviceRecord}
    (h : (step C state op).2.app.enrollment.Recorded record) :
    record ∈ (step C state op).2.minted ∨ record ∈ (step C state op).2.disk.devices ∨
      (state.app.enrollment.Recorded record ∧ record ∉ state.minted) := by
  -- What does not touch the approvals in progress.
  have hstays : (step C state op).2.minted = state.minted →
      state.app.enrollment.Recorded record → record ∈ (step C state op).2.minted ∨
      record ∈ (step C state op).2.disk.devices ∨
      (state.app.enrollment.Recorded record ∧ record ∉ state.minted) := by
    intro hminted hrecorded
    by_cases hmem : record ∈ state.minted
    · exact Or.inl (hminted ▸ hmem)
    · exact Or.inr (Or.inr ⟨hrecorded, hmem⟩)
  cases op with
  | start body bodyIsEmpty idDraw codeDraw now => exact hstays rfl (start_recorded h)
  | mint body walk idDraw secretDraw now =>
      cases hmint : approveMint C state.app body walk idDraw secretDraw now with
      | mk result app =>
          have hnew := mint_recorded (C := C) state.app body walk idDraw secretDraw now record
          rw [hmint] at hnew
          unfold step at h hstays ⊢
          dsimp only at h hstays ⊢
          rw [hmint] at h hstays ⊢
          cases result with
          | error reply =>
              rcases hnew h with heq | hold
              · cases heq
              · exact hstays rfl hold
          | ok minted =>
              rcases hnew h with heq | hold
              · obtain rfl : minted = record := Except.ok.inj heq
                exact Or.inl (List.mem_append_right _ List.mem_cons_self)
              · by_cases hmem : record ∈ state.minted
                · exact Or.inl (List.mem_append_left _ hmem)
                · exact Or.inr (Or.inr ⟨hold, hmem⟩)
  | persist i saved =>
      unfold step at h hstays ⊢
      dsimp only at h hstays ⊢
      cases hminted : state.minted[i]? with
      | none =>
          rw [hminted] at h hstays
          exact hstays rfl h
      | some minted =>
          rw [hminted] at h
          have hsaved : saved.result = .ok () := hfine (by rw [hminted]; nofun)
          have hold : state.app.enrollment.Recorded record := by
            dsimp only at h
            rw [(handle_app state _ saved).2, hsaved] at h
            exact h
          dsimp only
          by_cases hmem : record ∈ state.minted
          · obtain ⟨j, hj⟩ := List.mem_iff_getElem?.mp hmem
            by_cases hij : j = i
            · rw [hij, hminted] at hj
              obtain rfl := Option.some.inj hj
              exact Or.inr (Or.inl (persist_stored state minted hsaved))
            · exact Or.inl (List.mem_eraseIdx_iff_getElem?.mpr ⟨j, hij, hj⟩)
          · exact Or.inr (Or.inr ⟨hold, hmem⟩)
  | poll body now => exact hstays rfl (poll_recorded h)
  | upgrade tokenId body saved =>
      apply hstays rfl
      rw [← upgrade_enrollment (C := C) state.app tokenId body saved.result]
      exact h
  | revoke tokenId saved =>
      apply hstays rfl
      rw [← revoke_enrollment state.app tokenId saved.result]
      exact h
  | verify presented now =>
      apply hstays rfl
      rw [← authoriseDevice_enrollment (C := C) state.app presented now]
      exact h

/-- Only a poll hands over a record, and it is the record of the session it names. The other
requests answer with other bodies, and a poll of a session that is pending with none. -/
theorem poll_of_delivers {state : StoreState} {op : Op} {record : DeviceRecord}
    {token : Option Str}
    (h : (step C state op).1 = .reply ⟨200, .collected APPROVED record token⟩) :
    ∃ request now session, op = .poll (.ok request) now ∧
      (state.app.enrollment.sweep now).get request.sessionId = some session ∧
      session.record = some record := by
  cases op with
  | start body bodyIsEmpty idDraw codeDraw now =>
      have hreply : (start C state.app body bodyIsEmpty idDraw codeDraw now).1 = _ :=
        Answer.reply.inj h
      unfold start at hreply
      split at hreply
      next => cases hreply
      next =>
        dsimp only at hreply
        split at hreply <;> cases hreply
  | mint body walk idDraw secretDraw now =>
      unfold step approveMint at h
      cases body with
      | error e => cases h
      | ok request =>
          dsimp only at h
          cases hrecord :
            (state.app.enrollment.approve C request.code walk idDraw secretDraw now).1 with
          | none =>
              rw [hrecord] at h
              cases h
          | some minted =>
              rw [hrecord] at h
              cases h
  | persist i saved =>
      unfold step at h
      dsimp only at h
      cases hminted : state.minted[i]? with
      | none =>
          rw [hminted] at h
          cases h
      | some minted =>
          rw [hminted] at h
          dsimp only at h
          have hreply := Answer.reply.inj h
          rw [(handle_app state _ saved).1] at hreply
          cases hsaved : saved.result with
          | error e =>
              rw [hsaved] at hreply
              cases hreply
          | ok =>
              rw [hsaved] at hreply
              cases hreply
  | poll body now =>
      have hreply : (poll state.app body now).1 = _ := Answer.reply.inj h
      unfold poll at hreply
      split at hreply
      next => cases hreply
      next request =>
        dsimp only at hreply
        split at hreply
        next record' hrecord =>
          split at hreply
          next =>
            cases hreply
            obtain ⟨session, hget, -, hsession⟩ := EnrollmentService.poll_record hrecord
            exact ⟨request, now, session, rfl, hget, hsession⟩
          next => cases hreply
        next => cases hreply
  | upgrade tokenId body saved =>
      have hreply : (upgrade C state.app tokenId body saved.result).1 = _ := Answer.reply.inj h
      rcases upgrade_cases C state.app tokenId body saved.result with
        ⟨hstatus, -⟩ | ⟨id, publicKey, -, -, heq⟩
      · rw [hreply] at hstatus
        exact absurd rfl hstatus
      · rw [heq] at hreply
        cases hreply
  | revoke tokenId saved =>
      have hreply : (revoke state.app tokenId saved.result).1 = _ := Answer.reply.inj h
      unfold revoke at hreply
      dsimp only at hreply
      split at hreply
      next => split at hreply <;> cases hreply
      next => cases hreply
  | verify presented now => cases h

variable (C)

/-- Every record of a session is on its way to the store or was on the disk, and the
steps to come are fine. -/
structure StoredFirst (past : List Moment) (state : StoreState) (ops : List Op) : Prop where
  stored : ∀ record, state.app.enrollment.Recorded record →
    record ∈ state.minted ∨ ∃ e ∈ past, record ∈ e.after.disk.devices
  fine : ∀ e ∈ trace (step C) state ops, Fine e.before e.input

/-- A record that a session has was stored before: the step that records it comes behind the one
that stores it. -/
theorem storedFirst_step (past : List Moment) (state : StoreState) (op : Op) (ops : List Op)
    (h : StoredFirst C past state (op :: ops)) :
    StoredFirst C (past ++ [entry (step C) state op]) (step C state op).2 ops := by
  refine ⟨?_, fun e he => h.fine e (List.mem_cons_of_mem _ he)⟩
  intro record hrecorded
  have hthis : Fine state op := h.fine _ List.mem_cons_self
  rcases recorded_step hthis hrecorded with hminted | hstored | ⟨hold, hnew⟩
  · exact Or.inl hminted
  · exact Or.inr ⟨_, List.mem_append_right _ List.mem_cons_self, hstored⟩
  · rcases h.stored record hold with hminted | ⟨e, he, hstored⟩
    · exact absurd hminted hnew
    · exact Or.inr ⟨e, List.mem_append_left _ he, hstored⟩

/-- **Stored first.**  Every record of a session is on its way to the store, or was on
the disk after an earlier step; a poll that collects one finds it there. -/
theorem stored_of_delivers {state : StoreState} {ops : List Op}
    (hsessions : ∀ s ∈ state.app.enrollment.sessions, s.2.record = none)
    (hfine : ∀ e ∈ trace (step C) state ops, Fine e.before e.input) {pre post : List Moment}
    {e : Moment} (heq : trace (step C) state ops = pre ++ e :: post) {record : DeviceRecord}
    (hdelivers : Delivers e record) : ∃ e' ∈ pre, record ∈ e'.after.disk.devices := by
  have hinit : StoredFirst C [] state ops := by
    refine ⟨?_, hfine⟩
    rintro record ⟨s, hs, hrecord⟩
    rw [hsessions s hs] at hrecord
    cases hrecord
  obtain ⟨hentry, rest, hfirst⟩ :=
    history_trace (storedFirst_step C) ops state [] hinit pre e post heq
  obtain ⟨token, houtput⟩ := hdelivers
  rw [hentry] at houtput
  obtain ⟨request, now, session, hop, hget, hrecord⟩ := poll_of_delivers houtput
  have hpolled : Fine e.before e.input :=
    hfirst.fine (entry (step C) e.before e.input) List.mem_cons_self
  rw [hop] at hpolled
  have hrecorded := (EnrollmentService.Recorded.of_get hget hrecord).of_sweep
  exact (hfirst.stored record hrecorded).resolve_left (hpolled session hget record hrecord)

/-- **Device-store atomicity.**  The server starts with any records and without an
approved session.  As long as every approval and every revocation is saved, and no
poll finds a session whose record is still on its way to the store, a handler that
fails to save leaves the records and the sessions as they were, and no credential is
collected before its record is stored. -/
theorem store_atomic (state : StoreState) (ops : List Op)
    (hsessions : ∀ s ∈ state.app.enrollment.sessions, s.2.record = none)
    (hfine : ∀ e ∈ trace (step C) state ops, Fine e.before e.input) :
    StoreAtomic (trace (step C) state ops) := by
  have hupgrade : ∀ e ∈ trace (step C) state ops, Fails e →
      (∃ tokenId body saved, e.input = .upgrade tokenId body saved) ∧
        e.after.app = e.before.app := by
    rintro e he ⟨m, hfails⟩
    obtain ⟨hentry, -⟩ := @forall_trace _ _ _ _ (fun _ _ => True) (fun _ _ _ _ => trivial)
      ops state trivial e he
    rw [hentry] at hfails
    obtain ⟨tokenId, body, saved, hop, happ⟩ := upgrade_of_fails (hfine e he) hfails
    refine ⟨⟨tokenId, body, saved, hop⟩, ?_⟩
    rw [hentry]
    exact happ
  have hnot : ∀ e ∈ trace (step C) state ops, ∀ record, ¬ ApprovalFails e record := by
    rintro e he record ⟨hfails, i, saved, hop, -⟩
    obtain ⟨⟨tokenId, body, saved', hop'⟩, -⟩ := hupgrade e he hfails
    rw [hop] at hop'
    cases hop'
  refine ⟨?_, ?_, ?_, ?_, ?_⟩
  · intro e he hfails
    obtain ⟨-, happ⟩ := hupgrade e he hfails
    rw [happ]
    exact ⟨rfl, rfl⟩
  · intro e he record hfails
    exact absurd hfails (hnot e he record)
  · intro e he record hfails
    exact absurd hfails (hnot e he record)
  · intro pre e post heq record hdelivers
    exact stored_of_delivers C hsessions hfine heq hdelivers
  · intro e he hfails tokenId saved hop
    obtain ⟨⟨tokenId', body, saved', hop'⟩, -⟩ := hupgrade e he hfails
    rw [hop] at hop'
    cases hop'

/-- Nothing is stored and nobody is paired. -/
def emptyStore : StoreState := { app := emptyState, disk := {} }

/-- The signer asks to pair, is approved, and collects its credential; then it moves to
a key, at first without success. -/
def signerStores : List Op :=
  [.start (.error "") true (sameByte 18 7) (sameByte 5 7) 100,
   .mint (.ok ⟨"a4dq-obyh".toList⟩) .inOrder (sameByte 8 7) (sameByte 32 7) 110,
   .persist 0 .done,
   .poll (.ok ⟨signerSession⟩) 120,
   .upgrade (some "0707070707070707".toList) (.ok ⟨signerKeyText⟩) .diskFull]

/-- A device is paired while another request comes in between. -/
theorem store_atomic_signer : StoreAtomic (trace (step oneSigner) emptyStore signerStores) :=
  store_atomic oneSigner emptyStore signerStores (fun _ hs => absurd hs List.not_mem_nil)
    (by decide +kernel)

/-- The signer again, whose record cannot be saved. -/
def signerUnsaved : List Op :=
  [.start (.error "") true (sameByte 18 7) (sameByte 5 7) 100,
   .mint (.ok ⟨"a4dq-obyh".toList⟩) .inOrder (sameByte 8 7) (sameByte 32 7) 110,
   .persist 0 .diskFull,
   .poll (.ok ⟨signerSession⟩) 120]

example : (trace (step oneSigner) emptyStore signerUnsaved).map (fun e => e.output) =
    [.reply ⟨200, .started signerSession "A4DQ-OBYH".toList 60⟩,
     .silent,
     .reply (storeFailed "disk full"),
     .reply ⟨200, .collected APPROVED
       { tokenId := "0707070707070707".toList, label := "unnamed device".toList, authVersion := 1
         tokenHash := some (hashSecret oneSigner signerSecret), publicKey := none, createdAt := 110
         expiresAt := some (110 + 3650 * 86400), lastUsed := none } (some signerSecret)⟩] := by
  decide +kernel

/-- The store with one device. -/
def oneDevice : StoreState :=
  let devices : DevicesDoc := ⟨[{ tokenId := "0707070707070707".toList
                                  label := "unnamed device".toList, authVersion := 2
                                  tokenHash := none, publicKey := some signerKeyText
                                  createdAt := 110, expiresAt := none, lastUsed := none }]⟩
  { app := { emptyState with devices := devices }, disk := devices }

/-- A revocation that cannot be saved takes the device out of memory all the same. -/
theorem unsaved_revocation_kept :
    ¬ StoreAtomic (trace (step oneSigner) oneDevice
      [.revoke "0707070707070707".toList .diskFull]) := by
  intro hatomic
  obtain ⟨hdevices, -⟩ := hatomic.kept _ List.mem_cons_self ⟨"disk full", by decide +kernel⟩
  revert hdevices
  decide +kernel

end BreezeHttp.Persistence
