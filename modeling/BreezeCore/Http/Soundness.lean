import BreezeCore.Lib.Runs
import BreezeCore.Http.AuthRoutes

/-!
# Authentication over whole runs

The server starts without devices and then pairs, upgrades, revokes and
verifies, in any order and with the device store failing to save at any point.
Each step edits the list of records in one of five ways (`step_edited`); what
every edit keeps is `Sound`, and `Dead` for a secret that was given up.

`authentication_sound` draws the conclusions.
-/

namespace BreezeHttp

open Bytes Text BreezeStore BreezeAuth Runs

/-- Everything that happens to the device records. -/
inductive Op where
  | start (body : Except String StartRequest) (bodyIsEmpty : Bool) (idDraw : Draw 18)
      (codeDraw : Draw 5) (now : ℚ)
  | approve (body : Except String ApproveRequest) (walk : Walk) (idDraw : Draw 8)
      (secretDraw : Draw 32) (now : ℚ) (saved : Except String Unit)
  | poll (body : Except String PollRequest) (now : ℚ)
  | upgrade (tokenId : Option Str) (body : Except String UpgradeRequest)
      (saved : Except String Unit)
  | revoke (tokenId : Str) (saved : Except String Unit)
  | verify (presented : Presented) (now : ℚ)

/-- An answer: a reply of one of the routes, or a decision. -/
inductive Answer where
  | reply (r : Reply)
  | decision (d : Decision)
  deriving DecidableEq, Repr

variable (C : Crypto)

/-- A route's reply as an answer. -/
def Answer.ofReply (result : Reply × AppState) : Answer × AppState := (.reply result.1, result.2)

/-- One request, with what is answered in it. -/
def step (state : AppState) : Op → Answer × AppState
  | .start body bodyIsEmpty idDraw codeDraw now =>
      Answer.ofReply (start C state body bodyIsEmpty idDraw codeDraw now)
  | .approve body walk idDraw secretDraw now saved =>
      Answer.ofReply (approve C state body walk idDraw secretDraw now saved)
  | .poll body now => Answer.ofReply (poll state body now)
  | .upgrade tokenId body saved => Answer.ofReply (upgrade C state tokenId body saved)
  | .revoke tokenId saved => Answer.ofReply (revoke state tokenId saved)
  | .verify presented now =>
      let (decision, state) := authoriseDevice C state presented now
      (.decision decision, state)

/-- The token id an operation draws. -/
def Op.drawnId : Op → Option Str
  | .approve _ _ idDraw _ _ _ => idDraw.map fun raw => hexLower raw.1
  | _ => none

/-- The secret an operation draws. -/
def Op.drawnSecret : Op → Option Str
  | .approve _ _ _ secretDraw _ _ => secretDraw.map fun raw => C.b64url raw.1
  | _ => none

/-- No token id and no secret is drawn twice. -/
structure DistinctDraws (ops : List Op) : Prop where
  ids : (ops.filterMap Op.drawnId).Nodup
  secrets : (ops.filterMap (Op.drawnSecret C)).Nodup

/-! ## Edits of the record list -/

/-- The records differ in their ids and in their token hashes. -/
def Apart (a b : DeviceRecord) : Prop :=
  a.tokenId ≠ b.tokenId ∧ ∀ hash, a.tokenHash = some hash → b.tokenHash ≠ some hash

/-- A change that keeps the id, and the token hash or drops it. -/
structure Keeps (change : DeviceRecord → DeviceRecord) : Prop where
  tokenId : ∀ r, (change r).tokenId = r.tokenId
  tokenHash : ∀ r hash, (change r).tokenHash = some hash → r.tokenHash = some hash

/-- Noting when a device was last seen changes nothing else of it. -/
theorem keeps_lastUsed (now : ℚ) : Keeps fun r => { r with lastUsed := some now } where
  tokenId := fun _ => rfl
  tokenHash := fun _ _ h => h

/-- An upgrade keeps the record's id and its bounds. -/
theorem keeps_upgradeRecord (publicKey : Str) : Keeps (upgradeRecord publicKey) where
  tokenId := fun _ => rfl
  tokenHash := fun _ _ h => by cases h

/-- Records that were apart stay apart, and only those with the id change. By induction on the
records, where the first one with the id is the only one. -/
theorem updateFirst_apart {change : DeviceRecord → DeviceRecord} (h : Keeps change) (tokenId : Str)
    {records : List DeviceRecord} (hapart : records.Pairwise Apart) :
    (updateFirst tokenId change records).Pairwise Apart ∧
      ∀ r ∈ updateFirst tokenId change records, (r ∈ records ∧ r.tokenId ≠ tokenId) ∨
        ∃ old ∈ records, old.tokenId = tokenId ∧ r = change old := by
  induction records with
  | nil => exact ⟨List.Pairwise.nil, nofun⟩
  | cons record records ih =>
      obtain ⟨hrecord, hrest⟩ := List.pairwise_cons.mp hapart
      obtain ⟨ihapart, ihmem⟩ := ih hrest
      rw [updateFirst]
      split
      next hid =>
        constructor
        · refine List.pairwise_cons.mpr ⟨?_, hrest⟩
          intro r hr
          refine ⟨?_, ?_⟩
          · rw [h.tokenId]
            exact (hrecord r hr).1
          · intro hash hhash
            exact (hrecord r hr).2 hash (h.tokenHash record hash hhash)
        · intro r hr
          rcases List.mem_cons.mp hr with rfl | hr
          · exact Or.inr ⟨record, List.mem_cons_self, hid, rfl⟩
          · refine Or.inl ⟨List.mem_cons_of_mem _ hr, ?_⟩
            rw [← hid]
            exact Ne.symm (hrecord r hr).1
      next hid =>
        constructor
        · refine List.pairwise_cons.mpr ⟨?_, ihapart⟩
          intro r hr
          rcases ihmem r hr with ⟨hr, -⟩ | ⟨old, hold, -, rfl⟩
          · exact hrecord r hr
          · refine ⟨?_, ?_⟩
            · rw [h.tokenId]
              exact (hrecord old hold).1
            · intro hash hhash hnew
              exact (hrecord old hold).2 hash hhash (h.tokenHash old hash hnew)
        · intro r hr
          rcases List.mem_cons.mp hr with rfl | hr
          · exact Or.inl ⟨List.mem_cons_self, hid⟩
          · rcases ihmem r hr with ⟨hr, hother⟩ | ⟨old, hold, hid, rfl⟩
            · exact Or.inl ⟨List.mem_cons_of_mem _ hr, hother⟩
            · exact Or.inr ⟨old, List.mem_cons_of_mem _ hold, hid, rfl⟩

/-- A change is undone by putting the old record back. -/
theorem updateFirst_restore {change : DeviceRecord → DeviceRecord}
    (hid : ∀ r, (change r).tokenId = r.tokenId) {tokenId : Str} {previous : DeviceRecord}
    {records : List DeviceRecord}
    (hfind : (records.find? fun d => d.tokenId = tokenId) = some previous) :
    updateFirst tokenId (fun _ => previous) (updateFirst tokenId change records) = records := by
  induction records with
  | nil => cases hfind
  | cons record records ih =>
      rw [List.find?_cons] at hfind
      by_cases hrecord : record.tokenId = tokenId
      · rw [decide_eq_true hrecord] at hfind
        obtain rfl := Option.some.inj hfind
        rw [updateFirst, if_pos hrecord, updateFirst, if_pos ((hid record).trans hrecord)]
      · rw [decide_eq_false hrecord] at hfind
        rw [updateFirst, if_neg hrecord, updateFirst, if_neg hrecord, ih hfind]

/-- What one operation can do to the records: nothing, note a use, add a record
with what it drew, give one a key in place of its hash, or drop one. -/
inductive Edited (op : Op) (records : List DeviceRecord) : List DeviceRecord → Prop where
  | same : Edited op records records
  | used (tokenId : Str) (now : ℚ) :
      Edited op records (updateFirst tokenId (fun r => { r with lastUsed := some now }) records)
  | minted (record : DeviceRecord) (hid : op.drawnId = some record.tokenId)
      (hkind : (record.authVersion = 2 ∧ record.tokenHash = none ∧
          usableKey C record.publicKey = true) ∨
        (record.authVersion = 1 ∧ ∃ secret, op.drawnSecret C = some secret ∧
          record.tokenHash = some (hashSecret C secret))) :
      Edited op records (records ++ [record])
  | upgraded (tokenId publicKey : Str) (hkey : publicKeyIsValid C publicKey = true) :
      Edited op records (updateFirst tokenId (upgradeRecord publicKey) records)
  | revoked (tokenId : Str) : Edited op records (records.filter fun d => d.tokenId ≠ tokenId)

/-- An upgrade is refused and changes nothing, or replaces the record by one without a secret. -/
theorem upgrade_cases (state : AppState) (tokenId : Option Str)
    (body : Except String UpgradeRequest) (saved : Except String Unit) :
    ((upgrade C state tokenId body saved).1.status ≠ 200 ∧
      (upgrade C state tokenId body saved).2 = state) ∨
    ∃ id publicKey, tokenId = some id ∧ publicKeyIsValid C publicKey = true ∧
      upgrade C state tokenId body saved = (⟨200, .upgraded id 2⟩,
        { state with
          devices := ⟨updateFirst id (upgradeRecord publicKey) state.devices.devices⟩ }) := by
  unfold upgrade
  split
  next => exact Or.inl ⟨by simp [Reply.detail], rfl⟩
  next => exact Or.inl ⟨by simp [Reply.detail], rfl⟩
  next id request =>
    split
    next => exact Or.inl ⟨by simp [Reply.detail], rfl⟩
    next =>
      split
      next => exact Or.inl ⟨by simp [Reply.detail], rfl⟩
      next hvalid =>
        split
        next => exact Or.inl ⟨by simp [Reply.detail], rfl⟩
        next previous hfind =>
          dsimp only
          split
          next e =>
            refine Or.inl ⟨by simp [Reply.detail], ?_⟩
            rw [updateFirst_restore (keeps_upgradeRecord request.publicKey).tokenId hfind]
          next => exact Or.inr ⟨id, request.publicKey, rfl, not_not.mp hvalid, rfl⟩

/-- An approval mints a record from what it drew. -/
theorem approve_edited {state : AppState} (hsessions : state.enrollment.KeysUsable C)
    (body : Except String ApproveRequest) (walk : Walk) (idDraw : Draw 8) (secretDraw : Draw 32)
    (now : ℚ) (saved : Except String Unit) :
    Edited C (.approve body walk idDraw secretDraw now saved) state.devices.devices
        (approve C state body walk idDraw secretDraw now saved).2.devices.devices ∧
      (approve C state body walk idDraw secretDraw now saved).2.enrollment.KeysUsable C ∧
      (approve C state body walk idDraw secretDraw now saved).2.verifier = state.verifier := by
  cases body with
  | error e => exact ⟨.same, hsessions, rfl⟩
  | ok request =>
      have hkeys := hsessions.approve request.code walk idDraw secretDraw now
      unfold approve approveMint
      dsimp only
      rcases state.enrollment.approve_cases request.code walk idDraw secretDraw now with
        heq | ⟨rawId, id, session, record, token, hid, hget, hmint, heq⟩
      · rw [heq] at hkeys ⊢
        exact ⟨.same, hkeys, rfl⟩
      · rw [heq] at hkeys ⊢
        obtain ⟨htokenId, hkind⟩ := EnrollmentService.mint_some hmint
        have hedit : Edited C (.approve (.ok request) walk idDraw secretDraw now saved)
            state.devices.devices (state.devices.devices ++ [record]) := by
          refine .minted record ?_ ?_
          · rw [htokenId, hid]
            rfl
          · rcases hkind with
              ⟨hversion, -, hhash, hrecord, hkey⟩ | ⟨-, hrecord, raw, hraw, -, hhash⟩
            · left
              refine ⟨hrecord, hhash, ?_⟩
              rw [hkey]
              exact (hsessions.sweep now).get hget hversion
            · right
              refine ⟨hrecord, C.b64url raw.1, ?_, hhash⟩
              rw [hraw]
              rfl
        cases saved with
        | ok => exact ⟨hedit, hkeys, rfl⟩
        | error e => exact ⟨hedit, hkeys, rfl⟩

/-- **What a step does to the records and to the pending sessions.** -/
theorem step_edited {state : AppState} (hsessions : state.enrollment.KeysUsable C) (op : Op) :
    Edited C op state.devices.devices (step C state op).2.devices.devices ∧
      (step C state op).2.enrollment.KeysUsable C ∧
      (step C state op).2.verifier = state.verifier := by
  cases op with
  | start body bodyIsEmpty idDraw codeDraw now =>
      unfold step Answer.ofReply start
      dsimp only
      split
      next => exact ⟨.same, hsessions, rfl⟩
      next request _ =>
        have hstart := hsessions.start request.label request.authVersion request.publicKey idDraw
          codeDraw now
        split <;> exact ⟨.same, hstart, rfl⟩
  | approve body walk idDraw secretDraw now saved =>
      exact approve_edited C hsessions body walk idDraw secretDraw now saved
  | poll body now =>
      unfold step Answer.ofReply poll
      dsimp only
      split
      next => exact ⟨.same, hsessions, rfl⟩
      next request =>
        have hpoll := hsessions.poll request.sessionId now
        split
        next => split <;> exact ⟨.same, hpoll, rfl⟩
        next => exact ⟨.same, hpoll, rfl⟩
  | upgrade tokenId body saved =>
      have hstate : (step C state (.upgrade tokenId body saved)).2 =
          (upgrade C state tokenId body saved).2 := rfl
      rw [hstate]
      rcases upgrade_cases C state tokenId body saved with
        ⟨-, heq⟩ | ⟨id, publicKey, -, hvalid, heq⟩
      · rw [heq]
        exact ⟨.same, hsessions, rfl⟩
      · rw [heq]
        exact ⟨.upgraded id publicKey hvalid, hsessions, rfl⟩
  | revoke tokenId saved =>
      unfold step Answer.ofReply revoke
      dsimp only
      split
      next => split <;> exact ⟨.revoked tokenId, hsessions, rfl⟩
      next => exact ⟨.revoked tokenId, hsessions, rfl⟩
  | verify presented now =>
      unfold step authoriseDevice
      dsimp only
      split
      next who _ => exact ⟨.used who.tokenId now, hsessions, rfl⟩
      next => exact ⟨.same, hsessions, rfl⟩

/-! ## What every edit keeps -/

/-- The records before some operations: apart from one another, none with an id
still to be drawn, and each either a version 1 record with the hash of a secret
that is not to be drawn again, or a version 2 record with a key and no hash. -/
structure Sound (records : List DeviceRecord) (ops : List Op) : Prop where
  apart : records.Pairwise Apart
  ids : ∀ r ∈ records, r.tokenId ∉ ops.filterMap Op.drawnId
  kinds : ∀ r ∈ records,
    (r.authVersion = 1 ∧ ∃ secret, r.tokenHash = some (hashSecret C secret) ∧
      secret ∉ ops.filterMap (Op.drawnSecret C)) ∨
    (r.authVersion = 2 ∧ r.tokenHash = none ∧ usableKey C r.publicKey = true)
  draws : DistinctDraws C ops

/-- A secret that opens no record, and is not to be drawn again. -/
structure Dead (secret : Str) (records : List DeviceRecord) (ops : List Op) : Prop where
  unknown : ∀ r ∈ records, r.tokenHash ≠ some (hashSecret C secret)
  undrawn : secret ∉ ops.filterMap (Op.drawnSecret C)

/-- What is drawn nowhere is not drawn first, nor later. -/
private theorem notMem_filterMap_tail {α β : Type} {f : α → Option β} {x : β} {a : α} {as : List α}
    (h : x ∉ (a :: as).filterMap f) : x ∉ as.filterMap f ∧ f a ≠ some x := by
  constructor
  · intro hmem
    obtain ⟨b, hb, hx⟩ := List.mem_filterMap.mp hmem
    exact h (List.mem_filterMap.mpr ⟨b, List.mem_cons_of_mem _ hb, hx⟩)
  · intro ha
    exact h (List.mem_filterMap.mpr ⟨a, List.mem_cons_self, ha⟩)

/-- What is drawn once is not drawn later. -/
private theorem nodup_filterMap_tail {α β : Type} {f : α → Option β} {a : α} {as : List α}
    (h : ((a :: as).filterMap f).Nodup) :
    (as.filterMap f).Nodup ∧ ∀ x, f a = some x → x ∉ as.filterMap f := by
  rw [List.filterMap_cons] at h
  split at h
  next hnone => exact ⟨h, fun x hx => by rw [hnone] at hx; cases hx⟩
  next y hy =>
    obtain ⟨hhead, htail⟩ := List.nodup_cons.mp h
    refine ⟨htail, ?_⟩
    intro x hx
    obtain rfl := Option.some.inj (hy.symm.trans hx)
    exact hhead

/-- What is so for all the requests is so for those behind the first. -/
theorem Sound.tail {records : List DeviceRecord} {op : Op} {ops : List Op}
    (h : Sound C records (op :: ops)) : Sound C records ops where
  apart := h.apart
  ids := fun r hr => (notMem_filterMap_tail (h.ids r hr)).1
  kinds := fun r hr => (h.kinds r hr).imp_left fun ⟨hversion, secret, hhash, hsecret⟩ =>
    ⟨hversion, secret, hhash, (notMem_filterMap_tail hsecret).1⟩
  draws := ⟨(nodup_filterMap_tail h.draws.ids).1, (nodup_filterMap_tail h.draws.secrets).1⟩

/-- A change of some records that keeps each of its kind keeps the list sound. -/
theorem Sound.updateFirst {records : List DeviceRecord} {ops : List Op}
    (h : Sound C records ops) {change : DeviceRecord → DeviceRecord} (hkeeps : Keeps change)
    (hkind : ∀ r, (change r = { r with lastUsed := (change r).lastUsed }) ∨
      ((change r).authVersion = 2 ∧ (change r).tokenHash = none ∧
        usableKey C (change r).publicKey = true)) (tokenId : Str) :
    Sound C (updateFirst tokenId change records) ops := by
  obtain ⟨hapart, hmem⟩ := updateFirst_apart hkeeps tokenId h.apart
  refine ⟨hapart, ?_, ?_, h.draws⟩
  · intro r hr
    rcases hmem r hr with ⟨hr, -⟩ | ⟨old, hold, -, rfl⟩
    · exact h.ids r hr
    · rw [hkeeps.tokenId]
      exact h.ids old hold
  · intro r hr
    rcases hmem r hr with ⟨hr, -⟩ | ⟨old, hold, -, rfl⟩
    · exact h.kinds r hr
    · rcases hkind old with hsame | hupgraded
      · rw [hsame]
        exact h.kinds old hold
      · exact Or.inr hupgraded

/-- **Every edit keeps the records sound.** -/
theorem sound_edited (hinj : Function.Injective (hashSecret C)) {op : Op} {ops : List Op}
    {records records' : List DeviceRecord} (h : Sound C records (op :: ops))
    (hedit : Edited C op records records') : Sound C records' ops := by
  cases hedit with
  | same => exact h.tail
  | used tokenId now =>
      exact h.tail.updateFirst C (keeps_lastUsed now) (fun _ => Or.inl rfl) tokenId
  | upgraded tokenId publicKey hkey =>
      exact h.tail.updateFirst C (keeps_upgradeRecord publicKey)
        (fun _ => Or.inr ⟨rfl, rfl, hkey⟩) tokenId
  | revoked tokenId =>
      have hsub : ∀ r ∈ records.filter fun d => d.tokenId ≠ tokenId, r ∈ records :=
        fun r hr => (List.mem_filter.mp hr).1
      exact ⟨h.apart.sublist List.filter_sublist, fun r hr => h.tail.ids r (hsub r hr),
        fun r hr => h.tail.kinds r (hsub r hr), h.tail.draws⟩
  | minted record hid hkind =>
      refine ⟨?_, ?_, ?_, h.tail.draws⟩
      · refine List.pairwise_append.mpr ⟨h.apart, List.pairwise_singleton _ _, ?_⟩
        intro r hr new hnew
        obtain rfl := List.mem_singleton.mp hnew
        constructor
        · intro heq
          rw [← heq] at hid
          exact (notMem_filterMap_tail (h.ids r hr)).2 hid
        · intro hash hhash hnew
          rcases h.kinds r hr with ⟨-, secret, hsecret, hundrawn⟩ | ⟨-, hnone, -⟩
          · rcases hkind with ⟨-, hnone, -⟩ | ⟨-, fresh, hdrawn, hfresh⟩
            · rw [hnone] at hnew
              cases hnew
            · have heq : hashSecret C fresh = hashSecret C secret :=
                Option.some.inj ((hfresh.symm.trans hnew).trans (hhash.symm.trans hsecret))
              rw [hinj heq] at hdrawn
              exact (notMem_filterMap_tail hundrawn).2 hdrawn
          · rw [hnone] at hhash
            cases hhash
      · intro r hr
        rcases List.mem_append.mp hr with hr | hr
        · exact h.tail.ids r hr
        · obtain rfl := List.mem_singleton.mp hr
          exact (nodup_filterMap_tail h.draws.ids).2 _ hid
      · intro r hr
        rcases List.mem_append.mp hr with hr | hr
        · exact h.tail.kinds r hr
        · obtain rfl := List.mem_singleton.mp hr
          rcases hkind with hv2 | ⟨hversion, secret, hdrawn, hhash⟩
          · exact Or.inr hv2
          · exact Or.inl
              ⟨hversion, secret, hhash, (nodup_filterMap_tail h.draws.secrets).2 _ hdrawn⟩

/-- **A secret that was given up stays given up.** No edit of the document brings its hash back,
since records are changed in ways that keep their hash or drop it, and new ones have a secret just
drawn. -/
theorem dead_edited (hinj : Function.Injective (hashSecret C)) {op : Op} {ops : List Op}
    {secret : Str} {records records' : List DeviceRecord} (hapart : records.Pairwise Apart)
    (h : Dead C secret records (op :: ops)) (hedit : Edited C op records records') :
    Dead C secret records' ops := by
  refine ⟨?_, (notMem_filterMap_tail h.undrawn).1⟩
  have hupdate : ∀ (change : DeviceRecord → DeviceRecord), Keeps change → ∀ tokenId,
      ∀ r ∈ updateFirst tokenId change records, r.tokenHash ≠ some (hashSecret C secret) := by
    intro change hkeeps tokenId r hr hhash
    rcases (updateFirst_apart hkeeps tokenId hapart).2 r hr with ⟨hr, -⟩ | ⟨old, hold, -, rfl⟩
    · exact h.unknown r hr hhash
    · exact h.unknown old hold (hkeeps.tokenHash old _ hhash)
  cases hedit with
  | same => exact h.unknown
  | used tokenId now => exact hupdate _ (keeps_lastUsed now) tokenId
  | upgraded tokenId publicKey hkey => exact hupdate _ (keeps_upgradeRecord publicKey) tokenId
  | revoked tokenId => exact fun r hr => h.unknown r (List.mem_filter.mp hr).1
  | minted record hid hkind =>
      intro r hr hhash
      rcases List.mem_append.mp hr with hr | hr
      · exact h.unknown r hr hhash
      · obtain rfl := List.mem_singleton.mp hr
        rcases hkind with ⟨-, hnone, -⟩ | ⟨-, fresh, hdrawn, hfresh⟩
        · rw [hnone] at hhash
          cases hhash
        · rw [hinj (Option.some.inj (hfresh.symm.trans hhash))] at hdrawn
          exact (notMem_filterMap_tail h.undrawn).2 hdrawn

/-! ## What an answer of yes rests on -/

instance : Std.Symm Apart where
  symm := fun _ _ h => ⟨Ne.symm h.1, fun hash hb ha => h.2 hash ha hb⟩

/-- The record was opened by the token presented. -/
def ByBearer (record : DeviceRecord) (presented : Presented) : Prop :=
  ∃ token, presented.bearer = some token ∧ record.tokenHash = some (hashSecret C token)

/-- The record's own key verified the request, inside the window and with a nonce
that was not remembered. -/
def BySignature (nonces : NonceCache) (record : DeviceRecord) (presented : Presented) (now : ℚ) :
    Prop :=
  ∃ key timestamp nonce signature, record.publicKey = some key ∧
    Headers presented record.tokenId timestamp nonce signature ∧
    verifySignature C key
      (buildCanonical C presented.method presented.path timestamp nonce presented.body)
      signature = true ∧
    nonces.timestampInWindow C.toF64 timestamp now = true ∧ nonces.Unused nonce now

/-- The one record with the id let in is unexpired, not below the floor, and was
opened by the scheme of its version. -/
def Accepted (state : AppState) (presented : Presented) (now : ℚ) (who : Authenticated) : Prop :=
  ∃ record ∈ state.devices.devices, record.tokenId = who.tokenId ∧
    (∀ other ∈ state.devices.devices, other.tokenId = who.tokenId → other = record) ∧
    record.Unexpired now ∧ state.verifier.minAuthVersion ≤ record.authVersion ∧
    ((record.authVersion = 1 ∧ ByBearer C record presented) ∨
      (record.authVersion = 2 ∧ BySignature C state.nonces record presented now))

/-- The decision is the verifier's. -/
theorem authoriseDevice_decision (state : AppState) (presented : Presented) (now : ℚ) :
    (authoriseDevice C state presented now).1 =
      (state.verifier.verifyDevice C state.devices presented state.nonces now).1 := by
  unfold authoriseDevice
  dsimp only
  split <;> rfl

/-- **On sound records, an answer of yes is right.** The record that let the request in is the
only one with its name, whichever of the two versions it was let in by. -/
theorem accepted_of_allow {state : AppState} {ops : List Op}
    (hsound : Sound C state.devices.devices ops) {presented : Presented} {now : ℚ}
    {who : Authenticated} (h : (authoriseDevice C state presented now).1 = .allow who) :
    Accepted C state presented now who := by
  have hdecision := (authoriseDevice_decision C state presented now).symm.trans h
  have honly : ∀ record ∈ state.devices.devices, ∀ other ∈ state.devices.devices,
      other.tokenId = record.tokenId → other = record := by
    intro record hrecord other hother hid
    by_contra hne
    exact (hsound.apart.forall hother hrecord hne).1 hid
  unfold Verifier.verifyDevice at hdecision
  split at hdecision
  next =>
    obtain ⟨keyId, timestamp, nonce, signature, record, hheaders, hsigned, hunused, rfl, -⟩ :=
      Verifier.verifyV2_allow C hdecision
    obtain ⟨hmem, rfl, hversion, hunexpired⟩ := findByKeyId_some hsigned.found
    refine ⟨record, hmem, rfl, honly record hmem, hunexpired, hsigned.version, Or.inr
      ⟨hversion, ?_⟩⟩
    -- A version 2 record has a key, so it was this key that verified.
    obtain ⟨key, hkey⟩ : ∃ key, record.publicKey = some key := by
      rcases hsound.kinds record hmem with ⟨hv1, -⟩ | ⟨-, -, husable⟩
      · rw [hv1] at hversion
        cases hversion
      · cases hkey : record.publicKey with
        | none => rw [hkey] at husable; cases husable
        | some key => exact ⟨key, rfl⟩
    have hsignature := hsigned.signature
    rw [hkey, Option.getD_some] at hsignature
    exact ⟨key, timestamp, nonce, signature, hkey, hheaders, hsignature, hsigned.inWindow, hunused⟩
  next =>
    obtain ⟨record, token, hmem, hbearer, -, hhash, hunexpired, hversion, rfl⟩ :=
      Verifier.verifyV1_allow C hdecision
    refine ⟨record, hmem, rfl, honly record hmem, hunexpired, hversion, Or.inl ⟨?_, token, hbearer,
      hhash⟩⟩
    rcases hsound.kinds record hmem with ⟨hv1, -⟩ | ⟨-, hnone, -⟩
    · exact hv1
    · rw [hnone] at hhash
      cases hhash

/-- An upgrade answered with success, of a device whose bearer token was
`secret`. -/
def GivesUp (e : Entry AppState Op Answer) (secret : Str) : Prop :=
  ∃ tokenId body saved reply, e.input = .upgrade (some tokenId) body saved ∧
    e.output = .reply reply ∧ reply.status = 200 ∧
    ∃ record ∈ e.before.devices.devices, record.tokenId = tokenId ∧
      record.tokenHash = some (hashSecret C secret)

/-- A bearer token that lets a request in. -/
def AcceptsBearer (e : Entry AppState Op Answer) (secret : Str) : Prop :=
  ∃ presented now who, e.input = .verify presented now ∧
    presented.authVersion ≠ some "2".toList ∧ presented.bearer = some secret ∧
    e.output = .decision (.allow who)

/-- An upgrade gives up the device's secret. The hash goes out of the one record that had it, and
no other record has the same. -/
theorem dead_of_upgrade (hinj : Function.Injective (hashSecret C)) {state : AppState}
    {tokenId secret : Str} {body : Except String UpgradeRequest} {saved : Except String Unit}
    {ops : List Op}
    (hsound : Sound C state.devices.devices (.upgrade (some tokenId) body saved :: ops))
    (hstatus : (upgrade C state (some tokenId) body saved).1.status = 200)
    {record : DeviceRecord} (hmem : record ∈ state.devices.devices)
    (hid : record.tokenId = tokenId) (hhash : record.tokenHash = some (hashSecret C secret)) :
    Dead C secret (upgrade C state (some tokenId) body saved).2.devices.devices ops := by
  rcases upgrade_cases C state (some tokenId) body saved with
    ⟨hfailed, -⟩ | ⟨id, publicKey, heqid, -, heq⟩
  · exact absurd hstatus hfailed
  · obtain rfl := Option.some.inj heqid
    rw [heq]
    constructor
    · intro r hr hsame
      rcases (updateFirst_apart (keeps_upgradeRecord publicKey) tokenId hsound.apart).2 r hr with
        ⟨hr, hother⟩ | ⟨old, -, -, rfl⟩
      · have hne : r ≠ record := by
          rintro rfl
          exact hother hid
        exact (hsound.apart.forall hr hmem hne).2 _ hsame hhash
      · cases hsame
    · rcases hsound.tail.kinds record hmem with ⟨-, minted, hminted, hundrawn⟩ | ⟨-, hnone, -⟩
      · rw [hinj (Option.some.inj (hhash.symm.trans hminted))]
        exact hundrawn
      · rw [hnone] at hhash
        cases hhash

/-- A secret that was given up lets nothing in. -/
theorem Dead.not_accepted {state : AppState} {ops : List Op} {secret : Str}
    (h : Dead C secret state.devices.devices ops) {presented : Presented} {now : ℚ}
    {who : Authenticated} (hversion : presented.authVersion ≠ some "2".toList)
    (hbearer : presented.bearer = some secret) :
    (authoriseDevice C state presented now).1 ≠ .allow who := by
  intro hallow
  have hdecision := (authoriseDevice_decision C state presented now).symm.trans hallow
  unfold Verifier.verifyDevice at hdecision
  rw [if_neg hversion] at hdecision
  obtain ⟨record, token, hmem, htoken, -, hhash, -⟩ := Verifier.verifyV1_allow C hdecision
  obtain rfl := Option.some.inj (hbearer.symm.trans htoken)
  exact h.unknown record hmem hhash

/-! ## Whole runs -/

/-- The state before some operations: sound records, and keys in the sessions
that need one. -/
def Ready (state : AppState) (ops : List Op) : Prop :=
  Sound C state.devices.devices ops ∧ state.enrollment.KeysUsable C

/-- A step keeps the secrets apart, those that are stored and those to be drawn. -/
theorem ready_step (hinj : Function.Injective (hashSecret C)) (state : AppState) (op : Op)
    (ops : List Op) (h : Ready C state (op :: ops)) : Ready C (step C state op).2 ops := by
  obtain ⟨hedit, hkeys, -⟩ := step_edited C h.2 op
  exact ⟨sound_edited C hinj h.1 hedit, hkeys⟩

/-- Ready, with a secret that was given up. -/
def ReadyWithout (secret : Str) (state : AppState) (ops : List Op) : Prop :=
  Ready C state ops ∧ Dead C secret state.devices.devices ops

/-- And a secret that was given up stays out of the records. -/
theorem readyWithout_step (hinj : Function.Injective (hashSecret C)) {secret : Str}
    (state : AppState) (op : Op) (ops : List Op) (h : ReadyWithout C secret state (op :: ops)) :
    ReadyWithout C secret (step C state op).2 ops := by
  refine ⟨ready_step C hinj state op ops h.1, ?_⟩
  exact dead_edited C hinj h.1.1.apart h.2 (step_edited C h.1.2 op).1

/-- After an upgrade, the bearer token it gave up lets nothing in. -/
theorem not_accepted_after_upgrade (hinj : Function.Injective (hashSecret C)) {state : AppState}
    {op : Op} {ops : List Op} (h : Ready C state (op :: ops)) {secret : Str}
    (hgives : GivesUp C (entry (step C) state op) secret) :
    ∀ e ∈ trace (step C) (step C state op).2 ops, ¬ AcceptsBearer e secret := by
  obtain ⟨tokenId, body, saved, reply, hop, houtput, hstatus, record, hmem, hid, hrecord⟩ := hgives
  obtain rfl : op = .upgrade (some tokenId) body saved := hop
  have hsuccess : (upgrade C state (some tokenId) body saved).1.status = 200 := by
    have hreply : Answer.reply (upgrade C state (some tokenId) body saved).1 = .reply reply :=
      houtput
    rw [Answer.reply.inj hreply]
    exact hstatus
  have hdead := dead_of_upgrade C hinj h.1 hsuccess hmem hid hrecord
  intro e he haccepts
  obtain ⟨hentry, rest, -, hdead⟩ :=
    forall_trace (readyWithout_step C hinj) ops _ ⟨ready_step C hinj _ _ _ h, hdead⟩ e he
  obtain ⟨presented, now, who, hinput, hversion, hbearer, hallow⟩ := haccepts
  rw [hentry, hinput] at hallow
  injection hallow with hallow
  exact hdead.not_accepted C hversion hbearer hallow

/-- **Authentication is sound, and an upgrade is final.**  In every run of a
server that starts without devices: whoever is let in is let in on a record of
its own, by the scheme of that record; no version 2 record has a token hash; and
a bearer token lets nothing in once its device was upgraded. -/
theorem authentication_sound (hinj : Function.Injective C.sha256) (state : AppState)
    (hdevices : state.devices.devices = []) (hsessions : state.enrollment.sessions = [])
    (ops : List Op) (hdraws : DistinctDraws C ops) :
    (∀ e ∈ trace (step C) state ops,
      (∀ presented now who, e.input = .verify presented now → e.output = .decision (.allow who) →
        Accepted C e.before presented now who) ∧
      (∀ record ∈ e.after.devices.devices, record.authVersion = 2 → record.tokenHash = none)) ∧
    (trace (step C) state ops).Pairwise fun e later =>
      ∀ secret, GivesUp C e secret → ¬ AcceptsBearer later secret := by
  have hhash := hashSecret_injective hinj
  have hinit : Ready C state ops := by
    constructor
    · rw [hdevices]
      exact ⟨List.Pairwise.nil, nofun, nofun, hdraws⟩
    · intro entry hentry
      rw [hsessions] at hentry
      cases hentry
  constructor
  · intro e he
    obtain ⟨hentry, rest, hready⟩ := forall_trace (ready_step C hhash) ops state hinit e he
    constructor
    · intro presented now who hinput houtput
      apply accepted_of_allow C hready.1
      rw [hentry, hinput] at houtput
      injection houtput
    · intro record hrecord hversion
      rw [hentry] at hrecord
      rcases (ready_step C hhash _ _ _ hready).1.kinds record hrecord with ⟨hv1, -⟩ | ⟨-, hnone, -⟩
      · rw [hv1] at hversion
        cases hversion
      · exact hnone
  · refine pairwise_trace (ready_step C hhash) ?_ ops state hinit
    intro s op ops h e he secret hgives
    exact not_accepted_after_upgrade C hhash h hgives e he

/-- The signer pairs with a bearer token, shows it, moves to a key and shows the
token again. -/
def signerOps : List Op :=
  [.start (.error "") true (sameByte 18 7) (sameByte 5 7) 100,
   .approve (.ok ⟨"a4dq-obyh".toList⟩) .inOrder (sameByte 8 7) (sameByte 32 7) 110 (.ok ()),
   .verify { bearer := some signerSecret } 120,
   .upgrade (some "0707070707070707".toList) (.ok ⟨signerKeyText⟩) (.error "disk full"),
   .verify { bearer := some signerSecret } 130,
   .upgrade (some "0707070707070707".toList) (.ok ⟨signerKeyText⟩) (.ok ()),
   .verify { bearer := some signerSecret } 140]

/-- Nobody is paired. -/
def emptyState : AppState :=
  { behindProxy := false, apiKey := none, verifier := ⟨1⟩, nonces := { skewSeconds := 60 } }

example : (trace (step oneSigner) emptyState signerOps).map (fun e => e.output) =
    [.reply ⟨200, .started signerSession "A4DQ-OBYH".toList 60⟩,
     .reply ⟨200, .paired "0707070707070707".toList "unnamed device".toList⟩,
     .decision (.allow ⟨"0707070707070707".toList, 1⟩),
     .reply (.detail 500 "cannot write the device store: disk full"),
     .decision (.allow ⟨"0707070707070707".toList, 1⟩),
     .reply ⟨200, .upgraded "0707070707070707".toList 2⟩,
     .decision (.reject (.unauthorized .unknownKey
       "missing, invalid, or expired device token — enroll this device to get one"))] := by
  decide +kernel

/-- A device is paired, upgraded to a key, and revoked. -/
theorem authentication_sound_signer :
    (trace (step oneSigner) emptyState signerOps).Pairwise fun e later =>
      ∀ secret, GivesUp oneSigner e secret → ¬ AcceptsBearer later secret := by
  refine (authentication_sound oneSigner (Equiv.injective _) emptyState rfl rfl signerOps
    ⟨?_, ?_⟩).2
  all_goals decide +kernel

end BreezeHttp
