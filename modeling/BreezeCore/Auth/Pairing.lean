import BreezeCore.Lib.Runs
import BreezeCore.Auth.Enroll
import Mathlib.Data.List.Nodup

/-!
# Pairing over whole runs

Sessions are opened, approved and collected, in any order, and every operation first
drops those that are past their time.  What a session holds is `Traced` to the calls
that opened and approved it; what was drawn for it is drawn once (`Fresh`).

* `pairing_safe` — a code approves one session, once and in time; a credential is
  collected once, by the id of its session; a version 2 session yields no secret; and
  a code that opens nothing changes nothing.
-/

namespace BreezeAuth.Pairing

open Bytes Text BreezeStore Runs EnrollmentService

/-- The steps of a pairing: a device starts one, the admin approves a code, and the device asks
how it stands. -/
inductive Op where
  | start (label : Str) (authVersion : UInt8) (publicKey : Option Str) (idDraw : Draw 18)
      (codeDraw : Draw 5) (now : ℚ)
  | approve (userCode : Str) (walk : Walk) (idDraw : Draw 8) (secretDraw : Draw 32) (now : ℚ)
  | poll (sessionId : Str) (now : ℚ)

/-- What each of them is answered. -/
inductive Answer where
  | started (result : Except EnrollError (Str × Str × Nat))
  | approved (result : Option DeviceRecord)
  | polled (outcome : PollOutcome)
  deriving DecidableEq, Repr

/-- The time of a call. -/
def Op.now : Op → ℚ
  | .start _ _ _ _ _ now | .approve _ _ _ _ now | .poll _ now => now

variable (C : Crypto)

/-- One step of the service, with what is drawn and the time as arguments. -/
def step (service : EnrollmentService) : Op → Answer × EnrollmentService
  | .start label authVersion publicKey idDraw codeDraw now =>
      let (result, service) :=
        service.start C label authVersion publicKey idDraw codeDraw now
      (.started result, service)
  | .approve userCode walk idDraw secretDraw now =>
      let (result, service) := service.approve C userCode walk idDraw secretDraw now
      (.approved result, service)
  | .poll sessionId now =>
      let (outcome, service) := service.poll sessionId now
      (.polled outcome, service)

/-! ## What is drawn -/

/-- The session id a call draws. -/
def Op.drawnSession : Op → Option Str
  | .start _ _ _ idDraw _ _ => idDraw.map fun raw => C.b64url raw.1
  | _ => none

/-- The pairing code a call draws. -/
def Op.drawnCode : Op → Option Str
  | .start _ _ _ _ codeDraw _ => codeDraw.map newPairingCode
  | _ => none

/-- The token id a call draws. -/
def Op.drawnId : Op → Option Str
  | .approve _ _ idDraw _ _ => idDraw.map fun raw => hexLower raw.1
  | _ => none

/-- The bearer secret a call draws. -/
def Op.drawnSecret : Op → Option Str
  | .approve _ _ _ secretDraw _ => secretDraw.map fun raw => C.b64url raw.1
  | _ => none

/-- Nothing is drawn twice. -/
structure DistinctDraws (ops : List Op) : Prop where
  sessions : (ops.filterMap (Op.drawnSession C)).Nodup
  codes : (ops.filterMap Op.drawnCode).Nodup
  ids : (ops.filterMap Op.drawnId).Nodup
  secrets : (ops.filterMap (Op.drawnSecret C)).Nodup

/-! ## Codes -/

/-- How a code is kept. -/
def codeHash (code : Str) : Str := hashSecret C (normalizeCode C code)

/-- The hash of the code a call draws. -/
def Op.drawnHash (op : Op) : Option Str := op.drawnCode.map (codeHash C)

/-- The code a call shows, or is called with. -/
def Op.code : Op → Option Str
  | .start _ _ _ _ codeDraw _ => codeDraw.map newPairingCode
  | .approve userCode _ _ _ _ => some userCode
  | .poll _ _ => none

/-- A code that was drawn is the code of the step that drew it. -/
theorem Op.code_of_drawn {op : Op} {code : Str} (h : op.drawnCode = some code) :
    op.code = some code := by
  cases op with
  | start => exact h
  | approve | poll => cases h

/-- Of the codes shown and typed, two that are not spelled alike have different hashes. -/
def NoCollision (ops : List Op) : Prop :=
  ∀ op ∈ ops, ∀ op' ∈ ops, ∀ code code', op.code = some code → op'.code = some code' →
    codeHash C code = codeHash C code' → normalizeCode C code = normalizeCode C code'

/-- The letters of a code are neither blanks nor hyphens, so nothing of a code is dropped when it
is typed. -/
theorem alphabet_plain : ∀ c ∈ ALPHABET, (! isWhitespace c && c != '-') = true :=
  List.all_eq_true.mp (by decide)

/-- A drawn code is eight letters with a hyphen between. -/
theorem newPairingCode_letters (raw : Arr 5) :
    ∃ letters : Str, (∀ c ∈ letters, c ∈ ALPHABET) ∧
      newPairingCode raw = letters.take 4 ++ '-' :: letters.drop 4 := by
  refine ⟨_, ?_, rfl⟩
  intro c hc
  obtain ⟨i, -, rfl⟩ := List.mem_map.mp hc
  rw [List.getD_eq_getElem?_getD]
  cases hletter : ALPHABET[raw.1.foldl (fun n b => n * 256 + b.toNat) 0 / 2 ^ (35 - i * 5) % 32]?
  with
  | none => decide
  | some letter => exact List.mem_of_getElem? hletter

variable {C}

/-- A code of letters of the alphabet is in its normal form already. -/
theorem normalizeCode_letters (hupper : ∀ c ∈ ALPHABET, C.upper c = [c]) {letters : Str}
    (hletters : ∀ c ∈ letters, c ∈ ALPHABET) :
    normalizeCode C letters = letters := by
  unfold normalizeCode
  rw [List.filter_eq_self.mpr fun c hc => alphabet_plain c (hletters c hc)]
  rw [List.flatMap_congr fun c hc => hupper c (hletters c hc), List.flatMap_singleton']

/-- Drawn codes that are spelled alike are the same. -/
theorem normalizeCode_drawn (hupper : ∀ c ∈ ALPHABET, C.upper c = [c]) (raw : Arr 5) :
    ∃ letters : Str, normalizeCode C (newPairingCode raw) = letters ∧
      newPairingCode raw = letters.take 4 ++ '-' :: letters.drop 4 := by
  obtain ⟨letters, hletters, heq⟩ := newPairingCode_letters raw
  refine ⟨letters, ?_, heq⟩
  have hplain : ∀ part : Str, normalizeCode C (letters.take 4 ++ '-' :: part) =
      normalizeCode C (letters.take 4 ++ part) := by
    intro part
    unfold normalizeCode
    rw [List.filter_append, List.filter_append, List.filter_cons_of_neg (by decide)]
  rw [heq, hplain, List.take_append_drop]
  exact normalizeCode_letters hupper hletters

/-- Two codes that are the same when typed were the same. -/
theorem newPairingCode_of_normal (hupper : ∀ c ∈ ALPHABET, C.upper c = [c]) {raw raw' : Arr 5}
    (h : normalizeCode C (newPairingCode raw) = normalizeCode C (newPairingCode raw')) :
    newPairingCode raw = newPairingCode raw' := by
  obtain ⟨letters, hnormal, heq⟩ := normalizeCode_drawn hupper raw
  obtain ⟨letters', hnormal', heq'⟩ := normalizeCode_drawn hupper raw'
  rw [hnormal, hnormal'] at h
  rw [heq, heq', h]

/-- So the hashes are distinct when the codes are. What is drawn is a code in its normal form
already, so that two draws with one hash are one code by the assumption on collisions. -/
theorem hashes_nodup (hupper : ∀ c ∈ ALPHABET, C.upper c = [c]) {ops : List Op}
    (hcollide : NoCollision C ops) (h : (ops.filterMap Op.drawnCode).Nodup) :
    (ops.filterMap (Op.drawnHash C)).Nodup := by
  have hmap : ops.filterMap (Op.drawnHash C) = (ops.filterMap Op.drawnCode).map (codeHash C) := by
    rw [List.map_filterMap]
    rfl
  rw [hmap]
  refine List.Nodup.map_on ?_ h
  intro code hcode code' hcode' hsame
  have hdrawn : ∀ code ∈ ops.filterMap Op.drawnCode, ∃ op ∈ ops, op.drawnCode = some code ∧
      ∃ raw, newPairingCode raw = code := by
    intro code hcode
    obtain ⟨op, hmem, hop⟩ := List.mem_filterMap.mp hcode
    refine ⟨op, hmem, hop, ?_⟩
    unfold Op.drawnCode at hop
    split at hop
    next =>
      obtain ⟨raw, -, hraw⟩ := Option.map_eq_some_iff.mp hop
      exact ⟨raw, hraw⟩
    next => cases hop
  obtain ⟨op, hmem, hop, raw, rfl⟩ := hdrawn code hcode
  obtain ⟨op', hmem', hop', raw', rfl⟩ := hdrawn code' hcode'
  apply newPairingCode_of_normal hupper
  exact hcollide op hmem op' hmem' _ _ (Op.code_of_drawn hop) (Op.code_of_drawn hop') hsame

/-! ## What the calls do -/

/-- The search ends with a session that is not approved yet and has the code. -/
theorem matched_some {target id : Str} {sessions : List (Str × Session)} {found : Option Str}
    (h : matched target sessions found = some id) :
    found = some id ∨
      ∃ session, (id, session) ∈ sessions ∧ session.approved = false ∧
        session.codeHash = target := by
  induction sessions generalizing found with
  | nil => exact Or.inl h
  | cons s sessions ih =>
      obtain ⟨id', session⟩ := s
      rw [matched] at h
      rcases ih h with hfound | ⟨session', hmem, hrest⟩
      · split at hfound
        next hsession =>
          obtain rfl := Option.some.inj hfound
          refine Or.inr ⟨session, List.mem_cons_self, ?_, hsession.2⟩
          simpa using hsession.1
        next => exact Or.inl hfound
      · exact Or.inr ⟨session', List.mem_cons_of_mem _ hmem, hrest⟩

/-- A session that is found is stored under its id. -/
theorem mem_of_get {service : EnrollmentService} {id : Str} {session : Session}
    (h : service.get id = some session) : (id, session) ∈ service.sessions := by
  obtain ⟨s, hfind, rfl⟩ := Option.map_eq_some_iff.mp h
  have hid : s.1 = id := by simpa using List.find?_some hfind
  rw [← hid]
  exact List.mem_of_find?_eq_some hfind

/-- No two sessions have the same id. -/
def UniqueIds (service : EnrollmentService) : Prop :=
  ∀ s ∈ service.sessions, ∀ s' ∈ service.sessions, s.1 = s'.1 → s = s'

/-- Forgetting sessions makes no two share an id. -/
theorem UniqueIds.sweep {service : EnrollmentService} (h : UniqueIds service) (now : ℚ) :
    UniqueIds (service.sweep now) := by
  intro s hs s' hs'
  exact h s (List.mem_filter.mp hs).1 s' (List.mem_filter.mp hs').1

/-- What a poll that is not a delivery hands over. -/
def Answer.quiet : Answer → Prop
  | .started result => ∃ e, result = .error e
  | .approved result => result = none
  | .polled outcome => outcome.status ≠ APPROVED ∧ outcome.deviceToken = none ∧
      outcome.record = none

variable (C)

/-- What one call does to the sessions, and what it answers. Besides the refusal there are four:
nothing happens but the sweep, a session is opened, one is approved, or one is collected from and
goes. -/
inductive Section (service : EnrollmentService) : Op → Answer → EnrollmentService → Prop where
  /-- A public key is missing or bad. -/
  | refused (label : Str) (publicKey : Option Str) (idDraw : Draw 18) (codeDraw : Draw 5)
      (now : ℚ) :
      Section service (.start label 2 publicKey idDraw codeDraw now)
        (.started (.error .badPublicKey)) service
  | idle (op : Op) {answer : Answer} (quiet : answer.quiet) :
      Section service op answer (service.sweep op.now)
  | opened (label : Str) (authVersion : UInt8) (publicKey : Option Str) (rawId : Arr 18)
      (rawCode : Arr 5) (now : ℚ) (label' : Str)
      (key : authVersion = 2 → usableKey C publicKey = true) :
      Section service (.start label authVersion publicKey (some rawId) (some rawCode) now)
        (.started (.ok (C.b64url rawId.1, newPairingCode rawCode, service.codeTtl)))
        ((service.sweep now).insert (C.b64url rawId.1)
          { codeHash := codeHash C (newPairingCode rawCode), label := label'
            expiresAt := now + service.codeTtl, authVersion := authVersion
            publicKey := publicKey })
  | approved (userCode : Str) (walk : Walk) (rawId : Arr 8) (secretDraw : Draw 32) (now : ℚ)
      {id : Str} {session : Session} {record : DeviceRecord} {token : Option Str}
      (found : (id, session) ∈ (service.sweep now).sessions) (pending : session.approved = false)
      (code : session.codeHash = codeHash C userCode)
      (minted : mint C session (hexLower rawId.1) (service.tokenExpiry now) secretDraw now =
        some (record, token)) :
      Section service (.approve userCode walk (some rawId) secretDraw now)
        (.approved (some record))
        ((service.sweep now).insert id
          { session with approved := true, token := token, record := some record })
  | collected (id : Str) (now : ℚ) {session : Session}
      (found : (id, session) ∈ (service.sweep now).sessions) (done : session.approved = true) :
      Section service (.poll id now)
        (.polled { status := APPROVED, deviceToken := session.token, record := session.record })
        ((service.sweep now).remove id)

/-- Every step is one of the sections below, with what it changes. The cases are those of the
code, the refusals included. -/
theorem step_section {service : EnrollmentService} (hids : UniqueIds service) (op : Op) :
    Section C service op (step C service op).1 (step C service op).2 := by
  cases op with
  | start label authVersion publicKey idDraw codeDraw now =>
      unfold step EnrollmentService.start
      dsimp only
      split
      next hbad =>
        obtain ⟨rfl, -⟩ := hbad
        exact .refused label publicKey idDraw codeDraw now
      next hkey =>
        cases idDraw with
        | none => exact .idle (.start label authVersion publicKey none codeDraw now) ⟨_, rfl⟩
        | some rawId =>
            cases codeDraw with
            | none =>
                exact .idle (.start label authVersion publicKey (some rawId) none now) ⟨_, rfl⟩
            | some rawCode =>
                refine .opened label authVersion publicKey rawId rawCode now _ ?_
                intro hversion
                by_contra hunusable
                exact hkey ⟨hversion, hunusable⟩
  | approve userCode walk idDraw secretDraw now =>
      have hswept := hids.sweep now
      unfold step approve
      dsimp only
      split
      next => exact .idle (.approve userCode walk idDraw secretDraw now) rfl
      next id hmatched =>
        -- The session that was found is the one under its id.
        obtain ⟨session, hmem, hpending, hcode⟩ := (matched_some hmatched).resolve_left nofun
        have hmem : (id, session) ∈ (service.sweep now).sessions := (walk.perm _).mem_iff.mp hmem
        cases idDraw with
        | none => exact .idle (.approve userCode walk none secretDraw now) rfl
        | some rawId =>
            cases hget : (service.sweep now).get id with
            | none => exact .idle (.approve userCode walk (some rawId) secretDraw now) rfl
            | some session' =>
                have hsame := hswept _ (mem_of_get hget) _ hmem rfl
                obtain rfl : session' = session := (Prod.mk.inj hsame).2
                dsimp only
                split
                next => exact .idle (.approve userCode walk (some rawId) secretDraw now) rfl
                next record token hmint =>
                  exact .approved userCode walk rawId secretDraw now hmem hpending hcode hmint
  | poll sessionId now =>
      unfold step EnrollmentService.poll
      dsimp only
      split
      next => exact .idle (.poll sessionId now) ⟨(by decide : UNKNOWN ≠ APPROVED), rfl, rfl⟩
      next session hget =>
        split
        next => exact .idle (.poll sessionId now) ⟨(by decide : PENDING ≠ APPROVED), rfl, rfl⟩
        next hdone => exact .collected sessionId now (mem_of_get hget) (not_not.mp hdone)

/-! ## What is drawn is held once -/

/-- What a session holds under a key is held by no other, and is not drawn again. -/
structure Fresh (held : Str × Session → Option Str) (drawn : Op → Option Str)
    (service : EnrollmentService) (ops : List Op) : Prop where
  unique : ∀ s ∈ service.sessions, ∀ s' ∈ service.sessions, ∀ x,
    held s = some x → held s' = some x → s = s'
  undrawn : ∀ s ∈ service.sessions, ∀ x, held s = some x → x ∉ ops.filterMap drawn
  draws : (ops.filterMap drawn).Nodup

section

variable {held : Str × Session → Option Str} {drawn : Op → Option Str}
  {service service' : EnrollmentService} {op : Op} {ops : List Op}

/-- What is drawn nowhere is not drawn first, nor later. -/
theorem notMem_drawn {x : Str} (h : x ∉ (op :: ops).filterMap drawn) :
    drawn op ≠ some x ∧ x ∉ ops.filterMap drawn := by
  constructor
  · intro hop
    exact h (List.mem_filterMap.mpr ⟨op, List.mem_cons_self, hop⟩)
  · intro hmem
    exact h (((List.sublist_cons_self op ops).filterMap drawn).subset hmem)

/-- What is drawn once is not drawn later. -/
theorem notMem_of_drawn (hdraws : ((op :: ops).filterMap drawn).Nodup) {x : Str}
    (h : drawn op = some x) : x ∉ ops.filterMap drawn := by
  have hcons : (op :: ops).filterMap drawn = x :: ops.filterMap drawn :=
    List.filterMap_cons_some h
  rw [hcons] at hdraws
  exact (List.nodup_cons.mp hdraws).1

/-- Sessions may go. -/
theorem Fresh.kept (h : Fresh held drawn service (op :: ops))
    (hkept : ∀ s ∈ service'.sessions, s ∈ service.sessions) : Fresh held drawn service' ops where
  unique := fun s hs s' hs' => h.unique s (hkept s hs) s' (hkept s' hs')
  undrawn := fun s hs x hx => (notMem_drawn (h.undrawn s (hkept s hs) x hx)).2
  draws := h.draws.sublist ((List.sublist_cons_self op ops).filterMap drawn)

/-- A session may come: what it holds was just drawn, or was held by one that goes. In either case
nobody else holds it, and it is not drawn again. -/
theorem Fresh.added (h : Fresh held drawn service (op :: ops)) {new : Str × Session}
    (hafter : ∀ s ∈ service'.sessions, s = new ∨ s ∈ service.sessions)
    (hnew : ∀ x, held new = some x → drawn op = some x ∨
      ∃ old ∈ service.sessions, held old = some x ∧ old ∉ service'.sessions) :
    Fresh held drawn service' ops := by
  -- Nobody else holds what the new session holds.
  have hother : ∀ s ∈ service'.sessions, s ∈ service.sessions → ∀ x,
      held new = some x → held s ≠ some x := by
    intro s hs hold x hx hs'
    rcases hnew x hx with hdrawn | ⟨old, hmem, hheld, hgone⟩
    · exact (notMem_drawn (h.undrawn s hold x hs')).1 hdrawn
    · rw [h.unique old hmem s hold x hheld hs'] at hgone
      exact hgone hs
  refine ⟨?_, ?_, h.draws.sublist ((List.sublist_cons_self op ops).filterMap drawn)⟩
  · intro s hs s' hs' x hx hx'
    rcases hafter s hs with rfl | hold
    · rcases hafter s' hs' with rfl | hold'
      · rfl
      · exact absurd hx' (hother s' hs' hold' x hx)
    · rcases hafter s' hs' with rfl | hold'
      · exact absurd hx (hother s hs hold x hx')
      · exact h.unique s hold s' hold' x hx hx'
  · intro s hs x hx
    rcases hafter s hs with rfl | hold
    · rcases hnew x hx with hdrawn | ⟨old, hmem, hheld, -⟩
      · exact notMem_of_drawn h.draws hdrawn
      · exact (notMem_drawn (h.undrawn old hmem x hheld)).2
    · exact (notMem_drawn (h.undrawn s hold x hx)).2

end

variable {C}

/-- What is stored after an insertion: the new one, and the others as they were. -/
theorem mem_insert {service : EnrollmentService} {id : Str} {session : Session}
    {s : Str × Session} (h : s ∈ (service.insert id session).sessions) :
    s = (id, session) ∨ (s ∈ service.sessions ∧ s.1 ≠ id) := by
  refine (List.mem_cons.mp h).imp_right fun hmem => ?_
  obtain ⟨hold, hid⟩ := List.mem_filter.mp hmem
  exact ⟨hold, by simpa using hid⟩

/-- The same where old sessions were forgotten before. -/
theorem mem_sweep_insert {service : EnrollmentService} {now : ℚ} {id : Str} {session : Session}
    {s : Str × Session} (h : s ∈ ((service.sweep now).insert id session).sessions) :
    s = (id, session) ∨ s ∈ service.sessions :=
  (mem_insert h).imp_right fun hold => (List.mem_filter.mp hold.1).1

variable (C)

/-- A session holds under this key what was drawn when it was opened or approved. So the invariant
for ids, codes, tokens and secrets is proved once, for any such key. -/
structure Key (held : Str × Session → Option Str) (drawn : Op → Option Str) : Prop where
  opened : ∀ (label : Str) (authVersion : UInt8) (publicKey : Option Str) (rawId : Arr 18)
    (rawCode : Arr 5) (now : ℚ) (session : Session),
    session.codeHash = codeHash C (newPairingCode rawCode) → session.record = none →
    session.token = none → ∀ x, held (C.b64url rawId.1, session) = some x →
    drawn (.start label authVersion publicKey (some rawId) (some rawCode) now) = some x
  approved : ∀ (userCode : Str) (walk : Walk) (rawId : Arr 8) (secretDraw : Draw 32) (now : ℚ)
    (id : Str) (session : Session) (expiresAt : Option ℚ) (record : DeviceRecord)
    (token : Option Str),
    mint C session (hexLower rawId.1) expiresAt secretDraw now = some (record, token) →
    ∀ x, held (id, { session with approved := true, token := token, record := some record }) =
      some x →
    drawn (.approve userCode walk (some rawId) secretDraw now) = some x ∨
      held (id, session) = some x

/-- Sessions are found by their id, which was drawn for them. -/
theorem sessionKey : Key C (fun s => some s.1) (Op.drawnSession C) where
  opened := fun _ _ _ _ _ _ _ _ _ _ _ hx => hx
  approved := fun _ _ _ _ _ _ _ _ _ _ _ _ hx => Or.inr hx

/-- The hash of its code is such a key, as the store keeps the sessions under it. -/
theorem codeKey : Key C (fun s => some s.2.codeHash) (Op.drawnHash C) where
  opened := by
    intro label authVersion publicKey rawId rawCode now session hcode _ _ x hx
    rw [← hx, hcode]
    rfl
  approved := fun _ _ _ _ _ _ _ _ _ _ _ _ hx => Or.inr hx

/-- The token's id was drawn when it was approved. -/
theorem idKey : Key C (fun s => s.2.record.map DeviceRecord.tokenId) Op.drawnId where
  opened := by
    intro label authVersion publicKey rawId rawCode now session _ hrecord _ x hx
    rw [hrecord] at hx
    cases hx
  approved := by
    intro userCode walk rawId secretDraw now id session expiresAt record token hmint x hx
    rw [← hx]
    exact Or.inl (congrArg some (mint_some hmint).1.symm)

/-- The secret that a session holds is such a key too: it was drawn when the session was
approved. -/
theorem secretKey : Key C (fun s => s.2.token) (Op.drawnSecret C) where
  opened := by
    intro label authVersion publicKey rawId rawCode now session _ _ htoken x hx
    rw [htoken] at hx
    cases hx
  approved := by
    intro userCode walk rawId secretDraw now id session expiresAt record token hmint x hx
    left
    rcases (mint_some hmint).2 with ⟨-, hnone, -⟩ | ⟨-, -, raw, hraw, hsome, -⟩
    · rw [hnone] at hx
      cases hx
    · rw [hsome] at hx
      rw [← hx, hraw]
      rfl

variable {C} {held : Str × Session → Option Str} {drawn : Op → Option Str}

/-- **Origin.**  What a session holds after a call was drawn by the call or held
before, and a session that was approved stays so. -/
theorem Key.origin (hkey : Key C held drawn) {service : EnrollmentService}
    (hids : UniqueIds service) (op : Op) {s : Str × Session}
    (hs : s ∈ (step C service op).2.sessions) {x : Str} (hx : held s = some x) :
    drawn op = some x ∨ ∃ old ∈ service.sessions, held old = some x ∧
      (old.2.approved = true → s.2.approved = true) := by
  have hsection := step_section C hids op
  generalize (step C service op).1 = answer at hsection
  generalize (step C service op).2 = service' at hsection hs
  have hkept : s ∈ service.sessions → drawn op = some x ∨ ∃ old ∈ service.sessions,
      held old = some x ∧ (old.2.approved = true → s.2.approved = true) :=
    fun hold => Or.inr ⟨s, hold, hx, id⟩
  cases hsection with
  | refused label publicKey idDraw codeDraw now => exact hkept hs
  | idle op quiet => exact hkept (List.mem_filter.mp hs).1
  | opened label authVersion publicKey rawId rawCode now label' key =>
      rcases mem_sweep_insert hs with rfl | hold
      · exact Or.inl (hkey.opened _ _ _ _ _ _ _ rfl rfl rfl x hx)
      · exact hkept hold
  | @approved userCode walk rawId secretDraw now id session record token found pending code
      minted =>
      rcases mem_sweep_insert hs with rfl | hold
      · refine (hkey.approved _ _ _ _ _ _ _ _ _ _ minted x hx).imp_right fun hbefore => ?_
        exact ⟨(id, session), (List.mem_filter.mp found).1, hbefore, fun _ => rfl⟩
      · exact hkept hold
  | collected id now found done =>
      exact hkept (List.mem_filter.mp (List.mem_filter.mp hs).1).1

/-- What is held and what is still to be drawn stay apart: a step holds only what it held or
drew. -/
theorem Key.fresh_step (hkey : Key C held drawn) {service : EnrollmentService} {op : Op}
    {ops : List Op} (hids : UniqueIds service) (h : Fresh held drawn service (op :: ops)) :
    Fresh held drawn (step C service op).2 ops := by
  have hsection := step_section C hids op
  generalize (step C service op).1 = answer at hsection
  generalize (step C service op).2 = service' at hsection ⊢
  cases hsection with
  | refused label publicKey idDraw codeDraw now => exact h.kept fun s hs => hs
  | idle op quiet => exact h.kept fun s hs => (List.mem_filter.mp hs).1
  | opened label authVersion publicKey rawId rawCode now label' key =>
      refine h.added (fun _ => mem_sweep_insert) fun x hx => Or.inl ?_
      exact hkey.opened _ _ _ _ _ _ _ rfl rfl rfl x hx
  | @approved userCode walk rawId secretDraw now id session record token found pending code
      minted =>
      -- The session as it was goes.
      have hgone : (id, session) ∉ ((service.sweep now).insert id { session with
          approved := true, token := token, record := some record }).sessions := by
        intro hmem
        rcases mem_insert hmem with heq | ⟨-, hid⟩
        · have happroved := congrArg (fun s : Str × Session => s.2.approved) heq
          rw [show (id, session).2.approved = false from pending] at happroved
          cases happroved
        · exact hid rfl
      refine h.added (fun _ => mem_sweep_insert) fun x hx => ?_
      refine (hkey.approved _ _ _ _ _ _ _ _ _ _ minted x hx).imp_right fun hbefore => ?_
      exact ⟨(id, session), (List.mem_filter.mp found).1, hbefore, hgone⟩
  | collected id now found done =>
      exact h.kept fun s hs => (List.mem_filter.mp (List.mem_filter.mp hs).1).1

variable (C)

/-- All that is drawn. -/
structure AllFresh (service : EnrollmentService) (ops : List Op) : Prop where
  sessions : Fresh (fun s => some s.1) (Op.drawnSession C) service ops
  codes : Fresh (fun s => some s.2.codeHash) (Op.drawnHash C) service ops
  ids : Fresh (fun s => s.2.record.map DeviceRecord.tokenId) Op.drawnId service ops
  secrets : Fresh (fun s => s.2.token) (Op.drawnSecret C) service ops

variable {C}

/-- In particular the ids of the sessions are apart. -/
theorem AllFresh.unique {service : EnrollmentService} {ops : List Op}
    (h : AllFresh C service ops) : UniqueIds service :=
  fun s hs s' hs' hid => h.sessions.unique s hs s' hs' s.1 rfl (congrArg some hid.symm)

variable (C)

/-- The four kinds of draws, together. -/
theorem allFresh_step (service : EnrollmentService) (op : Op) (ops : List Op)
    (h : AllFresh C service (op :: ops)) : AllFresh C (step C service op).2 ops where
  sessions := (sessionKey C).fresh_step h.unique h.sessions
  codes := (codeKey C).fresh_step h.unique h.codes
  ids := (idKey C).fresh_step h.unique h.ids
  secrets := (secretKey C).fresh_step h.unique h.secrets

/-! ## Codes, sessions and credentials that are used up -/

/-- What is held under this key is held by approved sessions, and no more drawn. -/
structure Over (held : Str × Session → Option Str) (drawn : Op → Option Str) (x : Str)
    (service : EnrollmentService) (ops : List Op) : Prop where
  undrawn : x ∉ ops.filterMap drawn
  settled : ∀ s ∈ service.sessions, held s = some x → s.2.approved = true

/-- It is not held any more. -/
structure Gone (held : Str × Session → Option Str) (drawn : Op → Option Str) (x : Str)
    (service : EnrollmentService) (ops : List Op) : Prop where
  undrawn : x ∉ ops.filterMap drawn
  gone : ∀ s ∈ service.sessions, held s ≠ some x

variable {C}

/-- What was held and is gone, or is held, is never drawn again. -/
theorem Key.over_step (hkey : Key C held drawn) {service : EnrollmentService} {op : Op}
    {ops : List Op} {x : Str} (hids : UniqueIds service)
    (h : Over held drawn x service (op :: ops)) : Over held drawn x (step C service op).2 ops := by
  have hundrawn := notMem_drawn h.undrawn
  refine ⟨hundrawn.2, ?_⟩
  intro s hs hx
  rcases hkey.origin hids op hs hx with hdrawn | ⟨old, hold, hheld, hstays⟩
  · exact absurd hdrawn hundrawn.1
  · exact hstays (h.settled old hold hheld)

/-- What no session holds and nobody draws again does not come back. -/
theorem Key.gone_step (hkey : Key C held drawn) {service : EnrollmentService} {op : Op}
    {ops : List Op} {x : Str} (hids : UniqueIds service)
    (h : Gone held drawn x service (op :: ops)) : Gone held drawn x (step C service op).2 ops := by
  have hundrawn := notMem_drawn h.undrawn
  refine ⟨hundrawn.2, ?_⟩
  intro s hs hx
  rcases hkey.origin hids op hs hx with hdrawn | ⟨old, hold, hheld, -⟩
  · exact absurd hdrawn hundrawn.1
  · exact h.gone old hold hheld

/-! ## The calls of a run -/

/-- A step of a run, with its answer and the service before it. -/
abbrev Call := Entry EnrollmentService Op Answer

/-- The call opens a session and shows its code. -/
def Opens (e : Call) (id code : Str) (authVersion : UInt8) (publicKey : Option Str)
    (expiresAt : ℚ) : Prop :=
  ∃ label idDraw codeDraw now expiresIn,
    e.input = .start label authVersion publicKey idDraw codeDraw now ∧
      e.output = .started (.ok (id, code, expiresIn)) ∧ expiresAt = now + expiresIn

/-- The call approves a pending session by this code and answers with its record. -/
def Approves (e : Call) (code id : Str) (record : DeviceRecord) : Prop :=
  (∃ walk idDraw secretDraw now, e.input = .approve code walk idDraw secretDraw now) ∧
    e.output = .approved (some record) ∧
    (∃ s ∈ e.before.sessions, s.1 = id ∧ s.2.approved = false) ∧
    ∃ s ∈ e.after.sessions, s.1 = id ∧ s.2.approved = true ∧ s.2.record = some record

/-- The call collects what the session holds. -/
def Delivers (e : Call) (id : Str) (record : Option DeviceRecord) (token : Option Str) : Prop :=
  ∃ now, e.input = .poll id now ∧
    e.output = .polled { status := APPROVED, deviceToken := token, record := record }

/-- What an approval makes of the version and the key given at the start. -/
def Minted (C : Crypto) (authVersion : UInt8) (publicKey : Option Str) (token : Option Str)
    (record : DeviceRecord) : Prop :=
  (authVersion = 2 ∧ token = none ∧ record.tokenHash = none ∧ record.authVersion = 2 ∧
      record.publicKey = publicKey) ∨
    (authVersion ≠ 2 ∧ ∃ secret, token = some secret ∧
      record.tokenHash = some (hashSecret C secret))

/-- An approval that answers with a record found a session for it. -/
theorem approved_of_answer {service : EnrollmentService} (hids : UniqueIds service) {op : Op}
    {record : DeviceRecord} (h : (step C service op).1 = .approved (some record)) :
    ∃ userCode walk rawId secretDraw now id session token,
      op = .approve userCode walk (some rawId) secretDraw now ∧
      (id, session) ∈ (service.sweep now).sessions ∧ session.approved = false ∧
      session.codeHash = codeHash C userCode ∧
      mint C session (hexLower rawId.1) (service.tokenExpiry now) secretDraw now =
        some (record, token) ∧
      (step C service op).2 = (service.sweep now).insert id
        { session with approved := true, token := token, record := some record } := by
  have hsection := step_section C hids op
  rw [h] at hsection
  generalize (step C service op).2 = service' at hsection ⊢
  generalize hanswer : Answer.approved (some record) = answer at hsection
  cases hsection with
  | refused => cases hanswer
  | idle op quiet =>
      rw [← hanswer] at quiet
      cases quiet
  | opened => cases hanswer
  | approved userCode walk rawId secretDraw now found pending code minted =>
      cases hanswer
      exact ⟨userCode, walk, rawId, secretDraw, now, _, _, _, rfl, found, pending, code, minted,
        rfl⟩
  | collected => cases hanswer

/-- And that session is the one that is approved. -/
theorem approves_entry {service : EnrollmentService} (hids : UniqueIds service) {op : Op}
    {code id : Str} {record : DeviceRecord}
    (h : Approves (entry (step C) service op) code id record) :
    ∃ walk rawId secretDraw now session token,
      op = .approve code walk (some rawId) secretDraw now ∧
      (id, session) ∈ (service.sweep now).sessions ∧ session.approved = false ∧
      session.codeHash = codeHash C code ∧
      mint C session (hexLower rawId.1) (service.tokenExpiry now) secretDraw now =
        some (record, token) ∧
      (step C service op).2 = (service.sweep now).insert id
        { session with approved := true, token := token, record := some record } := by
  obtain ⟨⟨walk', idDraw, secretDraw', now', hop⟩, houtput, ⟨s, hs, hsid, hspending⟩,
    s', hs', hsid', happroved, -⟩ := h
  obtain ⟨userCode, walk, rawId, secretDraw, now, id', session, token, rfl, found, pending, hcode,
    hmint, hafter⟩ := approved_of_answer hids houtput
  obtain rfl : userCode = code := by
    have heq : Op.approve userCode walk (some rawId) secretDraw now = _ := hop
    cases heq
    rfl
  have hs' : s' ∈ (step C service _).2.sessions := hs'
  rw [hafter] at hs'
  obtain rfl : id' = id := by
    rcases mem_insert hs' with rfl | ⟨hold, -⟩
    · exact hsid'
    · have hsame := hids s hs s' (List.mem_filter.mp hold).1 (hsid.trans hsid'.symm)
      rw [hsame, happroved] at hspending
      cases hspending
  exact ⟨walk, rawId, secretDraw, now, session, token, rfl, found, pending, hcode, hmint, hafter⟩

/-- An approved session is over, and so is its code. The session stays in the table with
`approved` set, and by freshness nobody else holds its code and no later draw brings it back. -/
theorem over_of_approves {service : EnrollmentService} {op : Op} {ops : List Op}
    (hfresh : AllFresh C service (op :: ops)) {code id : Str} {record : DeviceRecord}
    (h : Approves (entry (step C) service op) code id record) :
    Over (fun s => some s.1) (Op.drawnSession C) id (step C service op).2 ops ∧
      Over (fun s => some s.2.codeHash) (Op.drawnHash C) (codeHash C code)
        (step C service op).2 ops := by
  obtain ⟨walk, rawId, secretDraw, now, session, token, -, found, -, hcode, -, hafter⟩ :=
    approves_entry hfresh.unique h
  have hmem : (id, session) ∈ service.sessions := (List.mem_filter.mp found).1
  rw [hafter]
  constructor
  · refine ⟨(notMem_drawn (hfresh.sessions.undrawn _ hmem id rfl)).2, ?_⟩
    intro s hs hid
    rcases mem_insert hs with rfl | ⟨-, hother⟩
    · rfl
    · exact absurd (Option.some.inj hid) hother
  · refine ⟨(notMem_drawn (hfresh.codes.undrawn _ hmem _ (congrArg some hcode))).2, ?_⟩
    intro s hs hheld
    rcases mem_insert hs with rfl | ⟨hold, hother⟩
    · rfl
    · -- No other session has the code.
      have hsame := hfresh.codes.unique s (List.mem_filter.mp hold).1 _ hmem _ hheld
        (congrArg some hcode)
      exact absurd (congrArg Prod.fst hsame) hother

/-- A token is delivered by a poll of its session, which was approved, and the session is gone
after it. -/
theorem delivers_entry {service : EnrollmentService} (hids : UniqueIds service) {op : Op}
    {id : Str} {record : Option DeviceRecord} {token : Option Str}
    (h : Delivers (entry (step C) service op) id record token) :
    ∃ now session, op = .poll id now ∧ (id, session) ∈ (service.sweep now).sessions ∧
      session.approved = true ∧ session.record = record ∧ session.token = token ∧
      (step C service op).2 = (service.sweep now).remove id := by
  obtain ⟨now, hop, houtput⟩ := h
  obtain rfl : op = .poll id now := hop
  have houtput : (step C service (.poll id now)).1 = _ := houtput
  have hsection := step_section C hids (.poll id now)
  rw [houtput] at hsection
  generalize (step C service (.poll id now)).2 = service' at hsection ⊢
  generalize hanswer : Answer.polled _ = answer at hsection
  cases hsection with
  | idle op quiet =>
      rw [← hanswer] at quiet
      exact absurd rfl quiet.1
  | @collected _ _ session found done =>
      cases hanswer
      exact ⟨now, session, rfl, found, done, rfl, rfl, rfl⟩

/-- What a session held is gone once it is collected. -/
theorem gone_of_collected {service : EnrollmentService} {op : Op} {ops : List Op} {id x : Str}
    {now : ℚ} {session : Session} (hfresh : Fresh held drawn service (op :: ops))
    (found : (id, session) ∈ (service.sweep now).sessions) (hheld : held (id, session) = some x) :
    Gone held drawn x ((service.sweep now).remove id) ops := by
  have hmem : (id, session) ∈ service.sessions := (List.mem_filter.mp found).1
  refine ⟨(notMem_drawn (hfresh.undrawn _ hmem x hheld)).2, ?_⟩
  intro s hs hx
  obtain ⟨hold, hother⟩ := List.mem_filter.mp hs
  have hsame := hfresh.unique s (List.mem_filter.mp hold).1 _ hmem x hx hheld
  rw [hsame] at hother
  simp at hother

/-- A call that answers with a record approves one session. That it is only one rests on the
table: no two sessions in it have one code. -/
theorem approves_one {service : EnrollmentService} {op : Op} {ops : List Op}
    (hfresh : AllFresh C service (op :: ops)) {record : DeviceRecord}
    (h : (step C service op).1 = .approved (some record)) :
    ∃ code, ∃! id, Approves (entry (step C) service op) code id record := by
  obtain ⟨code, walk, rawId, secretDraw, now, id, session, token, rfl, found, pending, hcode, hmint,
    hafter⟩ := approved_of_answer hfresh.unique h
  refine ⟨code, id, ?_, ?_⟩
  · refine ⟨⟨walk, some rawId, secretDraw, now, rfl⟩, h, ?_, ?_⟩
    · exact ⟨_, (List.mem_filter.mp found).1, rfl, pending⟩
    · refine ⟨(id, { session with approved := true, token := token, record := some record }),
        ?_, rfl, rfl, rfl⟩
      have hentry : (entry (step C) service
        (.approve code walk (some rawId) secretDraw now)).after = _ := hafter
      rw [hentry]
      exact List.mem_cons_self
  · intro id' happroves
    obtain ⟨_, _, _, _, session', _, -, found', -, hcode', -⟩ :=
      approves_entry hfresh.unique happroves
    have hone := hfresh.codes.unique _ (List.mem_filter.mp found').1 _ (List.mem_filter.mp found).1
      _ (congrArg some hcode') (congrArg some hcode)
    exact congrArg Prod.fst hone

/-! ## Where a session comes from -/

/-- The calls that opened a session and, once it is approved, that approved it. -/
structure Traced (C : Crypto) (past : List Call) (s : Str × Session) : Prop where
  opened : ∃ e ∈ past, ∃ code, Opens e s.1 code s.2.authVersion s.2.publicKey s.2.expiresAt ∧
    e.input.drawnCode = some code ∧ s.2.codeHash = codeHash C code
  approved : s.2.approved = true → ∃ e ∈ past, ∃ code record, Approves e code s.1 record ∧
    s.2.record = some record ∧ Minted C s.2.authVersion s.2.publicKey s.2.token record

/-- A session's origin in the run is not changed by later steps. -/
theorem Traced.later {past : List Call} {s : Str × Session} (h : Traced C past s) (e : Call) :
    Traced C (past ++ [e]) s where
  opened := by
    obtain ⟨e', he', hopened⟩ := h.opened
    exact ⟨e', List.mem_append_left _ he', hopened⟩
  approved := by
    intro happroved
    obtain ⟨e', he', hrest⟩ := h.approved happroved
    exact ⟨e', List.mem_append_left _ he', hrest⟩

/-- Every session that is stored was started, and if it was approved, approved, by earlier steps
of the run. -/
theorem traced_step {past : List Call} {service : EnrollmentService} (hids : UniqueIds service)
    (h : ∀ s ∈ service.sessions, Traced C past s) (op : Op) :
    ∀ s ∈ (step C service op).2.sessions,
      Traced C (past ++ [entry (step C) service op]) s := by
  have hlast : entry (step C) service op ∈ past ++ [entry (step C) service op] :=
    List.mem_append_right _ List.mem_cons_self
  have hsection := step_section C hids op
  have houtput : (entry (step C) service op).output = (step C service op).1 := rfl
  have hafter : (entry (step C) service op).after = (step C service op).2 := rfl
  have hbefore : (entry (step C) service op).before = service := rfl
  have hinput : (entry (step C) service op).input = op := rfl
  generalize entry (step C) service op = e at houtput hafter hbefore hinput hlast ⊢
  generalize (step C service op).1 = answer at hsection houtput
  generalize (step C service op).2 = service' at hsection hafter ⊢
  intro s hs
  cases hsection with
  | refused label publicKey idDraw codeDraw now => exact (h s hs).later e
  | idle op quiet => exact (h s (List.mem_filter.mp hs).1).later e
  | opened label authVersion publicKey rawId rawCode now label' key =>
      rcases mem_sweep_insert hs with rfl | hold
      · refine ⟨⟨e, hlast, newPairingCode rawCode, ?_, ?_, rfl⟩, nofun⟩
        · exact ⟨label, some rawId, some rawCode, now, service.codeTtl, hinput, houtput, rfl⟩
        · rw [hinput]
          rfl
      · exact (h s hold).later e
  | @approved userCode walk rawId secretDraw now id session record token found pending code
      minted =>
      rcases mem_sweep_insert hs with rfl | hold
      · have hmem := (List.mem_filter.mp found).1
        refine ⟨((h _ hmem).later e).opened, fun _ => ?_⟩
        refine ⟨e, hlast, userCode, record, ?_, rfl, ?_⟩
        · refine ⟨⟨walk, some rawId, secretDraw, now, hinput⟩, houtput, ?_, ?_⟩
          · rw [hbefore]
            exact ⟨_, hmem, rfl, pending⟩
          · rw [hafter]
            exact ⟨_, List.mem_cons_self, rfl, rfl, rfl⟩
        · rcases (mint_some minted).2 with ⟨h2, hrest⟩ | ⟨h1, -, raw, -, htoken, hhash⟩
          · exact Or.inl ⟨h2, hrest⟩
          · exact Or.inr ⟨h1, _, htoken, hhash⟩
      · exact (h s hold).later e
  | collected id now found done =>
      exact (h s (List.mem_filter.mp (List.mem_filter.mp hs).1).1).later e

/-- **An approval** answers a code that was shown, and in time. -/
theorem opened_of_approves {past : List Call} {service : EnrollmentService} {op : Op}
    (hids : UniqueIds service) (htraced : ∀ s ∈ service.sessions, Traced C past s)
    {code id : Str} {record : DeviceRecord}
    (h : Approves (entry (step C) service op) code id record) :
    op.code = some code ∧ ∃ e₀ ∈ past, ∃ code₀ authVersion publicKey expiresAt,
      Opens e₀ id code₀ authVersion publicKey expiresAt ∧ e₀.input.drawnCode = some code₀ ∧
        codeHash C code₀ = codeHash C code ∧ op.now ≤ expiresAt := by
  obtain ⟨_, _, _, now, session, _, rfl, found, -, hcode, -⟩ := approves_entry hids h
  obtain ⟨hmem, hlive⟩ := List.mem_filter.mp found
  obtain ⟨e₀, he₀, code₀, hopens, hdrawn, hcode₀⟩ := (htraced _ hmem).opened
  exact ⟨rfl, e₀, he₀, code₀, _, _, _, hopens, hdrawn, hcode₀.symm.trans hcode,
    of_decide_eq_true hlive⟩

/-- **A delivery** hands over what an approval answered with, minted for the version and
the key of the start. -/
theorem approved_of_delivers {past : List Call} {service : EnrollmentService} {op : Op}
    (hids : UniqueIds service) (htraced : ∀ s ∈ service.sessions, Traced C past s) {id : Str}
    {record : Option DeviceRecord} {token : Option Str}
    (h : Delivers (entry (step C) service op) id record token) :
    ∃ e₁ ∈ past, ∃ code approved, Approves e₁ code id approved ∧ record = some approved ∧
      ∃ e₀ ∈ past, ∃ code₀ authVersion publicKey expiresAt,
        Opens e₀ id code₀ authVersion publicKey expiresAt ∧
          Minted C authVersion publicKey token approved := by
  obtain ⟨now, session, -, found, happroved, rfl, rfl, -⟩ := delivers_entry hids h
  have hsession := htraced _ (List.mem_filter.mp found).1
  obtain ⟨e₁, he₁, code, approved, happroves, hrecord, hminted⟩ := hsession.approved happroved
  obtain ⟨e₀, he₀, code₀, hopens, -, -⟩ := hsession.opened
  exact ⟨e₁, he₁, code, approved, happroves, hrecord, e₀, he₀, code₀, _, _, _, hopens, hminted⟩

/-- An approval that finds no session only drops what has expired. -/
theorem idle_or_opened {past : List Call} {service : EnrollmentService}
    (hids : UniqueIds service) (htraced : ∀ s ∈ service.sessions, Traced C past s)
    (code : Str) (walk : Walk) (idDraw : Draw 8) (secretDraw : Draw 32) (now : ℚ) :
    ((step C service (.approve code walk idDraw secretDraw now)).1 = .approved none ∧
      (step C service (.approve code walk idDraw secretDraw now)).2.sessions =
        service.sessions.filter fun s => now ≤ s.2.expiresAt) ∨
    ∃ e₀ ∈ past, ∃ id code₀ authVersion publicKey expiresAt,
      Opens e₀ id code₀ authVersion publicKey expiresAt ∧ e₀.input.drawnCode = some code₀ ∧
        codeHash C code₀ = codeHash C code ∧ now ≤ expiresAt := by
  have hsection := step_section C hids (.approve code walk idDraw secretDraw now)
  have hanswer : (step C service (.approve code walk idDraw secretDraw now)).1 =
      .approved (service.approve C code walk idDraw secretDraw now).1 := rfl
  rw [hanswer] at hsection ⊢
  generalize (service.approve C code walk idDraw secretDraw now).1 = result at hsection ⊢
  generalize (step C service _).2 = service' at hsection ⊢
  cases hsection with
  | idle op quiet => exact Or.inl ⟨congrArg Answer.approved quiet, rfl⟩
  | approved userCode walk rawId secretDraw now found pending hcode minted =>
      right
      obtain ⟨hmem, hlive⟩ := List.mem_filter.mp found
      obtain ⟨e₀, he₀, code₀, hopens, hdrawn, hcode₀⟩ := (htraced _ hmem).opened
      exact ⟨e₀, he₀, _, code₀, _, _, _, hopens, hdrawn, hcode₀.symm.trans hcode,
        of_decide_eq_true hlive⟩

/-- A poll that does not deliver hands over nothing. -/
theorem quiet_of_polled {service : EnrollmentService} (hids : UniqueIds service) {op : Op}
    {outcome : PollOutcome} (h : (step C service op).1 = .polled outcome)
    (hstatus : outcome.status ≠ APPROVED) :
    outcome.deviceToken = none ∧ outcome.record = none := by
  have hsection := step_section C hids op
  rw [h] at hsection
  generalize (step C service op).2 = service' at hsection
  generalize hanswer : Answer.polled outcome = answer at hsection
  cases hsection with
  | idle op quiet =>
      rw [← hanswer] at quiet
      exact quiet.2
  | collected =>
      cases hanswer
      exact absurd rfl hstatus
  | refused | opened | approved => cases hanswer

/-! ## Once -/

/-- **A code and a session** are approved once. After the first approval both are over, which
every later step keeps, while a second approval would need a session that is pending. -/
theorem approves_once {service : EnrollmentService} {ops : List Op}
    (hfresh : AllFresh C service ops) :
    (trace (step C) service ops).Pairwise fun e e' => ∀ code id record code' id' record',
      Approves e code id record → Approves e' code' id' record' →
        normalizeCode C code ≠ normalizeCode C code' ∧ id ≠ id' := by
  refine pairwise_trace (allFresh_step C) ?_ ops service hfresh
  intro service op ops h e' he' code id record code' id' record' happroves happroves'
  obtain ⟨hid, hcode⟩ := over_of_approves h happroves
  obtain ⟨hentry, rest, hthis, hid', hcode'⟩ := @forall_trace _ _ _ (step C)
    (fun service ops => AllFresh C service ops ∧
      Over (fun s => some s.1) (Op.drawnSession C) id service ops ∧
      Over (fun s => some s.2.codeHash) (Op.drawnHash C) (codeHash C code) service ops)
    (fun service op ops h => ⟨allFresh_step C service op ops h.1,
      (sessionKey C).over_step h.1.unique h.2.1, (codeKey C).over_step h.1.unique h.2.2⟩)
    ops _ ⟨allFresh_step C service op ops h, hid, hcode⟩ e' he'
  rw [hentry] at happroves'
  obtain ⟨_, _, _, _, session, _, -, found, pending, hhash, -⟩ :=
    approves_entry hthis.unique happroves'
  have hmem := (List.mem_filter.mp found).1
  constructor
  · intro hnormal
    have hheld : codeHash C code' = codeHash C code := congrArg (hashSecret C) hnormal.symm
    have happroved := hcode'.settled _ hmem (congrArg some (hhash.trans hheld))
    rw [pending] at happroved
    cases happroved
  · rintro rfl
    have happroved := hid'.settled _ hmem rfl
    rw [pending] at happroved
    cases happroved

/-- **A credential** is collected once. Collecting removes the session, and with it the
identifier, the token's name and the secret are gone from the table and from every later draw. -/
theorem delivers_once {service : EnrollmentService} {ops : List Op}
    (hfresh : AllFresh C service ops) :
    (trace (step C) service ops).Pairwise fun e e' => ∀ id record token id' record' token',
      Delivers e id (some record) token → Delivers e' id' (some record') token' →
        id ≠ id' ∧ record.tokenId ≠ record'.tokenId ∧ ∀ secret, token = some secret →
          token' ≠ some secret := by
  refine pairwise_trace (allFresh_step C) ?_ ops service hfresh
  intro service op ops h e' he' id record token id' record' token' hdelivers hdelivers'
  obtain ⟨now, session, -, found, -, hrecord, htoken, hafter⟩ :=
    delivers_entry h.unique hdelivers
  have hid := gone_of_collected h.sessions found rfl
  have htokenId := gone_of_collected h.ids found (congrArg (Option.map _) hrecord)
  have hsecret : ∀ secret, token = some secret → Gone (fun s => s.2.token) (Op.drawnSecret C)
      secret ((service.sweep now).remove id) ops :=
    fun secret hsome => gone_of_collected h.secrets found (htoken.trans hsome)
  rw [← hafter] at hid htokenId hsecret
  obtain ⟨hentry, rest, hthis, hid', htokenId', hsecret'⟩ := @forall_trace _ _ _ (step C)
    (fun service ops => AllFresh C service ops ∧
      Gone (fun s => some s.1) (Op.drawnSession C) id service ops ∧
      Gone (fun s => s.2.record.map DeviceRecord.tokenId) Op.drawnId record.tokenId service ops ∧
      ∀ secret, token = some secret →
        Gone (fun s => s.2.token) (Op.drawnSecret C) secret service ops)
    (fun service op ops h => ⟨allFresh_step C service op ops h.1,
      (sessionKey C).gone_step h.1.unique h.2.1, (idKey C).gone_step h.1.unique h.2.2.1,
      fun secret hsome => (secretKey C).gone_step h.1.unique (h.2.2.2 secret hsome)⟩)
    ops _ ⟨allFresh_step C service op ops h, hid, htokenId, hsecret⟩ e' he'
  rw [hentry] at hdelivers'
  obtain ⟨now', session', -, found', -, hrecord', htoken', -⟩ :=
    delivers_entry hthis.unique hdelivers'
  have hmem := (List.mem_filter.mp found').1
  refine ⟨?_, ?_, ?_⟩
  · rintro rfl
    exact hid'.gone _ hmem rfl
  · intro heq
    apply htokenId'.gone _ hmem
    rw [heq]
    exact congrArg (Option.map _) hrecord'
  · intro secret hsome hsome'
    exact (hsecret' secret hsome).gone _ hmem (htoken'.trans hsome')

/-! ## Whole runs -/

/-- A service without sessions has nothing drawn twice. -/
theorem allFresh_new (hupper : ∀ c ∈ ALPHABET, C.upper c = [c]) {service : EnrollmentService}
    (hsessions : service.sessions = []) {ops : List Op} (hdraws : DistinctDraws C ops)
    (hcollide : NoCollision C ops) : AllFresh C service ops := by
  have hnew : ∀ {held : Str × Session → Option Str} {drawn : Op → Option Str},
      (ops.filterMap drawn).Nodup → Fresh held drawn service ops := by
    intro held drawn hnodup
    refine ⟨?_, ?_, hnodup⟩
    · rw [hsessions]
      exact fun s hs => absurd hs List.not_mem_nil
    · rw [hsessions]
      exact fun s hs => absurd hs List.not_mem_nil
  exact ⟨hnew hdraws.sessions, hnew (hashes_nodup hupper hcollide hdraws.codes), hnew hdraws.ids,
    hnew hdraws.secrets⟩

/-- The code of an approval is spelled like one that was shown before when their hashes
are equal. -/
theorem NoCollision.spelled {service : EnrollmentService} {ops : List Op} {pre post : List Call}
    {e e₀ : Call} {code₀ code : Str} (h : NoCollision C ops)
    (heq : trace (step C) service ops = pre ++ e :: post) (he₀ : e₀ ∈ pre)
    (hdrawn : e₀.input.drawnCode = some code₀) (hcode : e.input.code = some code)
    (hhash : codeHash C code₀ = codeHash C code) :
    normalizeCode C code₀ = normalizeCode C code := by
  have hfirst : e₀ ∈ trace (step C) service ops := by
    rw [heq]
    exact List.mem_append_left _ he₀
  have hlast : e ∈ trace (step C) service ops := by
    rw [heq]
    exact List.mem_append_right _ List.mem_cons_self
  exact h _ (input_mem_of_trace hfirst) _ (input_mem_of_trace hlast) _ _
    (Op.code_of_drawn hdrawn) hcode hhash

/-- What a run of pairings promises. -/
structure PairingSafe (C : Crypto) (entries : List Call) : Prop where
  /-- A call that approves anything approves one session. -/
  one : ∀ e ∈ entries, ∀ record, e.output = .approved (some record) →
    ∃ code, ∃! id, Approves e code id record
  /-- A code approves once, in whatever spelling, and so does a session. -/
  once : entries.Pairwise fun e e' => ∀ code id record code' id' record',
    Approves e code id record → Approves e' code' id' record' →
      normalizeCode C code ≠ normalizeCode C code' ∧ id ≠ id'
  /-- It approves the session it was shown for, before that expires. -/
  opened : ∀ pre e post, entries = pre ++ e :: post → ∀ code id record,
    Approves e code id record → ∃ e₀ ∈ pre, ∃ code₀ authVersion publicKey expiresAt,
      Opens e₀ id code₀ authVersion publicKey expiresAt ∧
        normalizeCode C code₀ = normalizeCode C code ∧ e.input.now ≤ expiresAt
  /-- What is collected under an id was approved for it; it is the record that was
  answered, and the token is the one whose hash that record has, or there is none. -/
  delivered : ∀ pre e post, entries = pre ++ e :: post → ∀ id record token,
    Delivers e id record token → ∃ e₁ ∈ pre, ∃ code approved, Approves e₁ code id approved ∧
      record = some approved ∧
      ∃ e₀ ∈ pre, ∃ code₀ authVersion publicKey expiresAt,
        Opens e₀ id code₀ authVersion publicKey expiresAt ∧
          Minted C authVersion publicKey token approved
  /-- It is collected once. -/
  single : entries.Pairwise fun e e' => ∀ id record token id' record' token',
    Delivers e id (some record) token → Delivers e' id' (some record') token' →
      id ≠ id' ∧ record.tokenId ≠ record'.tokenId ∧ ∀ secret, token = some secret →
        token' ≠ some secret
  /-- Nothing else is handed over. -/
  quiet : ∀ e ∈ entries, ∀ outcome, e.output = .polled outcome → outcome.status ≠ APPROVED →
    outcome.deviceToken = none ∧ outcome.record = none
  /-- A code that was not shown, or whose sessions have expired, changes no session that
  has not expired. -/
  wrong : ∀ pre e post, entries = pre ++ e :: post →
    ∀ code walk idDraw secretDraw now, e.input = .approve code walk idDraw secretDraw now →
      (∀ e₀ ∈ pre, ∀ id code₀ authVersion publicKey expiresAt,
        Opens e₀ id code₀ authVersion publicKey expiresAt →
          normalizeCode C code₀ = normalizeCode C code → expiresAt < now) →
      e.output = .approved none ∧
        e.after.sessions = e.before.sessions.filter fun s => now ≤ s.2.expiresAt

variable (C)

/-- **Enrollment protocol safety.**  From a service without sessions, whatever is
called in whatever order, with distinct ids, codes and secrets, and no collision of
codes. -/
theorem pairing_safe (hupper : ∀ c ∈ ALPHABET, C.upper c = [c]) (service : EnrollmentService)
    (hsessions : service.sessions = []) (ops : List Op) (hdraws : DistinctDraws C ops)
    (hcollide : NoCollision C ops) :
    PairingSafe C (trace (step C) service ops) := by
  have hfresh := allFresh_new hupper hsessions hdraws hcollide
  have hevery := forall_trace (allFresh_step C) ops service hfresh
  -- At every call, all sessions there are come from earlier calls.
  have hpast := @history_trace _ _ _ (step C)
    (fun past service ops => AllFresh C service ops ∧
      ∀ s ∈ service.sessions, Traced C past s)
    (fun past service op ops h => ⟨allFresh_step C service op ops h.1,
      traced_step h.1.unique h.2 op⟩)
    ops service [] ⟨hfresh, by rw [hsessions]; exact fun s hs => absurd hs List.not_mem_nil⟩
  refine ⟨?_, approves_once hfresh, ?_, ?_, delivers_once hfresh, ?_, ?_⟩
  · intro e he record hrecord
    obtain ⟨hentry, rest, hthis⟩ := hevery e he
    rw [hentry] at hrecord ⊢
    exact approves_one hthis hrecord
  · intro pre e post heq code id record happroves
    obtain ⟨hentry, rest, hthis, htraced⟩ := hpast pre e post heq
    rw [hentry] at happroves
    obtain ⟨htyped, e₀, he₀, code₀, authVersion, publicKey, expiresAt, hopens, hdrawn, hhash,
      hlive⟩ := opened_of_approves hthis.unique htraced happroves
    exact ⟨e₀, he₀, code₀, authVersion, publicKey, expiresAt, hopens,
      hcollide.spelled heq he₀ hdrawn htyped hhash, hlive⟩
  · intro pre e post heq id record token hdelivers
    obtain ⟨hentry, rest, hthis, htraced⟩ := hpast pre e post heq
    rw [hentry] at hdelivers
    exact approved_of_delivers hthis.unique htraced hdelivers
  · intro e he outcome houtput hstatus
    obtain ⟨hentry, rest, hthis⟩ := hevery e he
    rw [hentry] at houtput
    exact quiet_of_polled hthis.unique houtput hstatus
  · intro pre e post heq code walk idDraw secretDraw now hop hwrong
    obtain ⟨hentry, rest, hthis, htraced⟩ := hpast pre e post heq
    have htyped : e.input.code = some code := congrArg Op.code hop
    rw [hentry, hop]
    rcases idle_or_opened hthis.unique htraced code walk idDraw secretDraw now with
      hidle | ⟨e₀, he₀, id, code₀, authVersion, publicKey, expiresAt, hopens, hdrawn, hhash, hlive⟩
    · exact hidle
    · have hsame := hcollide.spelled heq he₀ hdrawn htyped hhash
      exact absurd hlive
        (not_le.mpr (hwrong e₀ he₀ id code₀ authVersion publicKey expiresAt hopens hsame))

/-- The signer pairs: a poll too early, a wrong code, the code in another spelling, and
the same code again; then it collects its token, once. -/
def signerPairing : List Op :=
  [.start "phone".toList 1 none (sameByte 18 7) (sameByte 5 7) 100,
   .poll signerSession 105,
   .approve "AAAA-AAAA".toList .inOrder (sameByte 8 6) none 106,
   .approve "a4dq obyh".toList .inOrder (sameByte 8 7) (sameByte 32 7) 110,
   .approve "A4DQ-OBYH".toList .inOrder (sameByte 8 8) none 111,
   .poll signerSession 112,
   .poll signerSession 113]

example : (trace (step oneSigner) {} signerPairing).map (fun e => e.output) =
    [.started (.ok (signerSession, "A4DQ-OBYH".toList, 60)),
     .polled { status := PENDING },
     .approved none,
     .approved (some
       { tokenId := "0707070707070707".toList, label := "phone".toList, authVersion := 1
         tokenHash := some (hashSecret oneSigner signerSecret), publicKey := none, createdAt := 110
         expiresAt := some (110 + 3650 * 86400), lastUsed := none }),
     .approved none,
     .polled
       { status := APPROVED, deviceToken := some signerSecret
         record := some
           { tokenId := "0707070707070707".toList, label := "phone".toList, authVersion := 1
             tokenHash := some (hashSecret oneSigner signerSecret), publicKey := none
             createdAt := 110, expiresAt := some (110 + 3650 * 86400), lastUsed := none } },
     .polled { status := UNKNOWN }] := by
  decide +kernel

/-- A device is paired: it starts, is approved, and polls twice. -/
theorem pairing_safe_signer : PairingSafe oneSigner (trace (step oneSigner) {} signerPairing) := by
  have hupper : ALPHABET.all (fun c => decide (oneSigner.upper c = [c])) = true := by decide
  refine pairing_safe oneSigner
    (fun c hc => of_decide_eq_true (List.all_eq_true.mp hupper c hc)) {} rfl signerPairing
    ⟨by decide +kernel, by decide +kernel, by decide +kernel, by decide +kernel⟩ ?_
  exact fun _ _ _ _ _ _ _ _ hhash => hashSecret_injective (Equiv.injective _) hhash

end BreezeAuth.Pairing
