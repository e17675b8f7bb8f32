import BreezeCore.Device.Told
import BreezeCore.Lib.Runs

/-!
# Reads that share an answer

Whoever wants something of a unit waits for its lock and has the unit for
himself until he is done.  A read that had to wait first looks whether a state,
or a failure, was noted since it arrived, and asks the unit only if there is none.

A `Visit` is the time one of them has the unit.  Visits follow each other in the
order in which the lock was obtained; a read may have arrived at any moment before
its own visit, also in the middle of somebody else's.
-/

namespace BreezeDevice

open Runs

/-! ## What the device remembers -/

/-- The last state, if it arrived at or after `since`. -/
def Device.stateSince (d : Device) (since : Nat) : Option Ac.State :=
  match d.lastStateAt with
  | some at_ => if since ≤ at_ then d.lastState else none
  | none => none

/-- The last failure, if it happened at or after `since` and nothing has
succeeded since. -/
def Device.failureSince (d : Device) (since : Nat) : Option DeviceError :=
  match d.lastFailure with
  | some (at_, e) => if since ≤ at_ then some e else none
  | none => none

/-- How long keep-warm leaves a unit alone after it failed, in milliseconds. -/
def WARM_BACKOFF : Nat := 300000

/-- Whether keep-warm should read this unit now: it has been quiet for at least
`maxIdle`, or never spoken, and it has not failed recently. -/
def Device.needsWarming (d : Device) (credentials : Bool) (maxIdle now : Nat) : Bool :=
  let failedRecently := match d.lastFailure with
    | some (at_, _) => decide (now - at_ < WARM_BACKOFF)
    | none => false
  let quiet := match d.lastExchangeAt with
    | some at_ => decide (maxIdle ≤ now - at_)
    | none => true
  !failedRecently && credentials && quiet

/-! ## Visits -/

/-- The unit behind its lock. -/
structure Guarded where
  device : Device := {}
  /-- Somebody panicked while he had the unit. -/
  poisoned : Bool := false
  /-- Somebody has the unit and waits for it. -/
  held : Bool := false

/-- The unit as it is handed out: rebuilt, if somebody panicked with it. -/
def Guarded.lockDevice (g : Guarded) : Device := if g.poisoned then g.device.forget else g.device

variable {T : Type}

/-- Call something on the unit, and give the unit back if the call comes back. -/
def Guarded.withUnit (g : Guarded) (f : Device → Outcome T × Device) : Outcome T × Guarded :=
  match f g.lockDevice with
  | (.panicked, d) => (.panicked, { g with device := d, poisoned := true })
  | (.waiting, d) => (.waiting, { g with device := d, held := true })
  | (outcome, d) => (outcome, { g with device := d })

/-- Read a unit's state, sharing a round-trip with any request that got there
first. -/
def readState (arrived : Nat) (d : Device) : Outcome Ac.State × Device :=
  match d.stateSince arrived with
  | some state => (.ok state, d)
  | none =>
      match d.failureSince arrived with
      | some e => (.failed e, d)
      | none => d.refresh

/-- What somebody wants of the unit. -/
inductive Request where
  /-- A read, and when it arrived. -/
  | readState (arrived : Nat)
  /-- The first control of its batch, with all that was merged into it. -/
  | control (change : Change) (merged : Nat)
  /-- A control that finds the outcome of its batch. -/
  | collect
  | capabilities
  /-- A pass of keep-warm, for a unit with or without credentials. -/
  | keepWarm (maxIdle : Nat) (credentials : Bool)
  | forget

/-- One visit to the unit: what for, from when on, how the unit answers, and how
the clock runs on after an answer. -/
structure Visit where
  request : Request
  now : Nat
  answers : List Attempt := []
  lags : List Nat := []

/-- What comes of a visit. -/
inductive Served where
  | state (outcome : Outcome Ac.State)
  | control (outcome : Outcome ControlOutcome)
  | capabilities (outcome : Outcome Ac.Capabilities)
  | nothing

/-- The unit with the answers it has for this visit. -/
def Guarded.facing (g : Guarded) (visit : Visit) : Guarded :=
  { g with device := { g.device with line := visit.answers, lags := visit.lags } }

/-- Give someone his turn.  While the unit is held nobody else gets one;
keep-warm does not even wait for a unit that is busy, or poisoned. -/
def Guarded.step (g : Guarded) (visit : Visit) : Served × Guarded :=
  if g.held then (.nothing, g)
  else
    let g := g.facing visit
    match visit.request with
    | .readState arrived =>
        let (outcome, g) := g.withUnit (BreezeDevice.readState arrived)
        (.state outcome, g)
    | .control change merged =>
        let (outcome, g) := g.withUnit fun d => sendChange d change merged visit.now
        (.control outcome, g)
    | .collect => (.nothing, { g with device := g.lockDevice })
    | .capabilities =>
        let (outcome, g) := g.withUnit Device.fetchCapabilities
        (.capabilities outcome, g)
    | .keepWarm maxIdle credentials =>
        if g.poisoned || !g.device.needsWarming credentials maxIdle visit.now then (.nothing, g)
        else
          let (_, g) := g.withUnit Device.refresh
          (.nothing, g)
    | .forget => (.nothing, { g with device := g.lockDevice.forget })

/-- Time goes on: a read gets the unit after it arrived, and the unit answers
after it was asked. -/
structure Visit.Clocked (visit : Visit) : Prop where
  arrived : ∀ arrived, visit.request = .readState arrived → arrived ≤ visit.now
  answered : ∀ a ∈ visit.answers, visit.now ≤ a.instant

/-! ## What a log tells -/

/-- The failure an event brings, and when. -/
def Event.failure? : Event → Option (Nat × DeviceError)
  | ⟨t, .failed e⟩ => some (t, e)
  | _ => none

/-- The last report of a log. -/
def lastReport (log : List Event) : Option (Nat × Ac.State) :=
  (log.filterMap Event.report?).getLast?

/-- The failure a log ends with. -/
def lastFailed (log : List Event) : Option (Nat × DeviceError) := log.getLast?.bind Event.failure?

/-- One event more: its report is the last, if it is one. -/
theorem lastReport_append (log : List Event) (x : Event) :
    lastReport (log ++ [x]) = x.report?.or (lastReport log) := by
  unfold lastReport
  rw [List.filterMap_append, List.getLast?_append]
  cases h : x.report? with
  | none => simp [h]
  | some r => simp [h]

/-- And the last failure is that of the last event, or none. -/
theorem lastFailed_append (log : List Event) (x : Event) :
    lastFailed (log ++ [x]) = x.failure? := by
  unfold lastFailed
  rw [List.getLast?_append, List.getLast?_singleton, Option.some_or, Option.bind_some]

/-- **The cache.**  What a device remembers is what its log tells. -/
structure Noted (d : Device) : Prop where
  state : d.lastState = (lastReport d.log).map Prod.snd
  stateAt : d.lastStateAt = (lastReport d.log).map Prod.fst
  failure : d.lastFailure = lastFailed d.log

/-- What of an event an attempt accounts for: its end, and the frame a report was
read from. -/
def Attempt.Brings (a : Attempt) (x : Event) : Prop :=
  match x.ended with
  | .answered | .failed _ => a.instant = x.instant
  | .reported state => a.instant ≤ x.instant ∧ ∃ inner payload, a.inner = .ok inner ∧
      Frame.parse inner .airConditioner = .ok payload ∧ Ac.State.parse payload = .ok state

/-- What an attempt brings is noted no earlier than it was answered. -/
theorem Attempt.Brings.le {a : Attempt} {x : Event} (h : a.Brings x) : a.instant ≤ x.instant := by
  unfold Attempt.Brings at h
  split at h
  next => exact le_of_eq h
  next => exact le_of_eq h
  next => exact h.1

/-- One device comes after another: it has noted these events since, all brought by
attempts there were answers for. -/
structure Follows (d d' : Device) (events : List Event) : Prop where
  log : d'.log = d.log ++ events
  brought : ∀ x ∈ events, ∃ a ∈ d.line, a.Brings x
  line : ∀ a ∈ d'.line, a ∈ d.line
  noted : Noted d → Noted d'

variable {d d' d'' : Device}

/-- Nothing was noted. -/
theorem Follows.refl (d : Device) : Follows d d [] :=
  ⟨(List.append_nil _).symm, fun _ hx => absurd hx List.not_mem_nil, fun _ ha => ha, id⟩

/-- What two steps note, they note in their order. -/
theorem Follows.trans {events events' : List Event} (h : Follows d d' events)
    (h' : Follows d' d'' events') : Follows d d'' (events ++ events') := by
  refine ⟨?_, ?_, fun a ha => h.line a (h'.line a ha), h'.noted ∘ h.noted⟩
  · rw [h'.log, h.log, List.append_assoc]
  · intro x hx
    rcases List.mem_append.mp hx with hx | hx
    · exact h.brought x hx
    · obtain ⟨a, ha, hbrings⟩ := h'.brought x hx
      exact ⟨a, h.line a ha, hbrings⟩

/-- A device moves on through the calls that are made one after the other. -/
theorem Follows.and_then {events : List Event} (h : Follows d d' events)
    (hnext : ∃ events, Follows d' d'' events) : ∃ events, Follows d d'' events := by
  obtain ⟨events', h'⟩ := hnext
  exact ⟨_, h.trans h'⟩

/-- Changes to what is neither remembered nor logged. -/
theorem Follows.quiet (hlog : d'.log = d.log) (hstate : d'.lastState = d.lastState)
    (hat : d'.lastStateAt = d.lastStateAt) (hfailure : d'.lastFailure = d.lastFailure)
    (hline : ∀ a ∈ d'.line, a ∈ d.line) : Follows d d' [] := by
  refine ⟨?_, fun _ hx => absurd hx List.not_mem_nil, hline, ?_⟩
  · rw [hlog, List.append_nil]
  · rintro ⟨hs, ha, hf⟩
    refine ⟨?_, ?_, ?_⟩
    · rw [hstate, hlog, hs]
    · rw [hat, hlog, ha]
    · rw [hfailure, hlog, hf]

/-- One more entry in the log, brought by an attempt since then. -/
theorem Follows.note {events : List Event} (h : Follows d d' events) {a : Attempt}
    (ha : a ∈ d.line) {x : Event} (hbrings : a.Brings x) (hlog : d''.log = d'.log ++ [x])
    (hline : d''.line = d'.line) (hnoted : Noted d' → Noted d'') :
    Follows d d'' (events ++ [x]) := by
  refine ⟨?_, ?_, ?_, hnoted ∘ h.noted⟩
  · rw [hlog, h.log, List.append_assoc]
  · intro y hy
    rcases List.mem_append.mp hy with hy | hy
    · exact h.brought y hy
    · obtain rfl := List.mem_singleton.mp hy
      exact ⟨a, ha, hbrings⟩
  · rw [hline]
    exact h.line

/-- Dropping the session notes nothing. -/
theorem follows_dropSession (d : Device) : Follows d d.dropSession [] :=
  Follows.quiet rfl rfl rfl rfl fun _ ha => ha

/-- Forgetting everything the device has at hand notes nothing. -/
theorem follows_forget (d : Device) : Follows d d.forget [] :=
  Follows.quiet rfl rfl rfl rfl fun _ ha => ha

/-- Counting messages notes nothing. -/
theorem follows_nextMessageId (d : Device) : Follows d d.nextMessageId.2 [] :=
  Follows.quiet rfl rfl rfl rfl fun _ ha => ha

/-- Keeping the capabilities notes nothing. -/
theorem follows_capabilities (d : Device) (caps : Ac.Capabilities) :
    Follows d { d with capabilities := some caps } [] :=
  Follows.quiet rfl rfl rfl rfl fun _ ha => ha

/-! ## What the calls do -/

section Attempts

variable {command : Bytes.Octets} {decode : Bytes.Octets → Fallible.Exec DeviceError T} {at_ : Nat}

/-- Taking an answer off the line notes nothing. -/
theorem tryExchange_follows (d : Device) (command : Bytes.Octets) :
    Follows d (d.tryExchange command).2.2 [] := by
  unfold Device.tryExchange
  dsimp only
  split
  next => exact Follows.quiet rfl rfl rfl rfl fun _ ha => ha
  next attempt line hline =>
    have hrest : ∀ a ∈ line, a ∈ d.line := by
      intro a ha
      rw [hline]
      exact List.mem_cons_of_mem _ ha
    split
    next => exact Follows.quiet rfl rfl rfl rfl hrest
    next => exact Follows.quiet rfl rfl rfl rfl hrest

/-- An attempt alone notes nothing: its outcome is noted by the exchange. -/
theorem attempt_follows (d : Device) (command : Bytes.Octets)
    (decode : Bytes.Octets → Fallible.Exec DeviceError T) :
    Follows d (d.attempt command decode).2.2 [] := by
  have htry := tryExchange_follows d command
  unfold Device.attempt
  split <;> simp_all only

/-- The payload of a frame that came back. -/
theorem tryExchange_ok {payload : Bytes.Octets}
    (h : d.tryExchange command = (.ok payload, at_, d')) :
    ∃ a ∈ d.line, at_ = a.instant ∧
      ∃ inner, a.inner = .ok inner ∧ Frame.parse inner .airConditioner = .ok payload := by
  unfold Device.tryExchange at h
  dsimp only at h
  split at h
  next => cases (Prod.mk.inj h).1
  next attempt line hline =>
    split at h
    next => cases (Prod.mk.inj h).1
    next inner hinner =>
      obtain ⟨hpayload, hrest⟩ := Prod.mk.inj h
      refine ⟨attempt, ?_, (Prod.mk.inj hrest).1.symm, inner, hinner, ?_⟩
      · rw [hline]
        exact List.mem_cons_self
      · exact Fallible.mapFail_eq_ok (Outcome.ofExec_eq_ok hpayload)

/-- The value of an attempt is what its frame says, once decoded. -/
theorem attempt_ok {value : T} (h : d.attempt command decode = (.ok value, at_, d')) :
    ∃ a ∈ d.line, at_ = a.instant ∧ ∃ inner payload, a.inner = .ok inner ∧
      Frame.parse inner .airConditioner = .ok payload ∧ decode payload = .ok value := by
  unfold Device.attempt at h
  split at h
  next payload _ _ heq =>
    obtain ⟨hvalue, hrest⟩ := Prod.mk.inj h
    obtain ⟨rfl, -⟩ := Prod.mk.inj hrest
    obtain ⟨a, ha, hat, inner, hinner, hparse⟩ := tryExchange_ok heq
    exact ⟨a, ha, hat, inner, payload, hinner, hparse, Outcome.ofExec_eq_ok hvalue⟩
  next => cases (Prod.mk.inj h).1
  next => cases (Prod.mk.inj h).1
  next => cases (Prod.mk.inj h).1

/-- The unit is only waited for when there is no answer on the line. -/
theorem tryExchange_instant (d : Device) (command : Bytes.Octets) :
    (d.tryExchange command).1 = .waiting ∨
      ∃ a ∈ d.line, (d.tryExchange command).2.1 = a.instant := by
  unfold Device.tryExchange
  dsimp only
  split
  next => exact Or.inl rfl
  next attempt line hline =>
    right
    refine ⟨attempt, ?_, ?_⟩
    · rw [hline]
      exact List.mem_cons_self
    · split <;> rfl

/-- The failure of an attempt has the instant of an answer, too. -/
theorem attempt_failed {e : DeviceError} (h : d.attempt command decode = (.failed e, at_, d')) :
    ∃ a ∈ d.line, at_ = a.instant := by
  have hinstant := tryExchange_instant d command
  unfold Device.attempt at h
  split at h
  next heq =>
    obtain ⟨-, hrest⟩ := Prod.mk.inj h
    obtain ⟨rfl, -⟩ := Prod.mk.inj hrest
    rw [heq] at hinstant
    rcases hinstant with hwaits | hat
    · cases hwaits
    · exact hat
  next heq =>
    obtain ⟨-, hrest⟩ := Prod.mk.inj h
    obtain ⟨rfl, -⟩ := Prod.mk.inj hrest
    rw [heq] at hinstant
    rcases hinstant with hwaits | hat
    · cases hwaits
    · exact hat
  next => cases (Prod.mk.inj h).1
  next => cases (Prod.mk.inj h).1

end Attempts

/-- How a call leaves the device: with what is `good` for its value noted, with the
failure it came back with, or, if it did not come back, with nothing. -/
def Ends (d : Device) (good : Attempt → T → List Event → Device → Prop) :
    Outcome T × Device → Prop
  | (.ok value, d') => ∃ a ∈ d.line, ∃ events, Follows d d' events ∧ good a value events d'
  | (.failed e, d') => ∃ t, Follows d d' [⟨t, .failed e⟩]
  | (_, d') => Follows d d' []

variable {good : Attempt → T → List Event → Device → Prop} {r : Outcome T × Device}

/-- A call that goes on after a quiet part ends as its rest does. -/
theorem Ends.after (hquiet : Follows d d' []) (h : Ends d' good r) : Ends d good r := by
  obtain ⟨outcome, d''⟩ := r
  cases outcome with
  | ok _ =>
      obtain ⟨a, ha, events, hfollows, hgood⟩ := h
      exact ⟨a, hquiet.line a ha, events, hquiet.trans hfollows, hgood⟩
  | failed e =>
      obtain ⟨t, hfollows⟩ := h
      exact ⟨t, hquiet.trans hfollows⟩
  | panicked => exact hquiet.trans h
  | waiting => exact hquiet.trans h

/-- Whatever it comes to, the device has moved on. -/
theorem Ends.follows (h : Ends d good r) : ∃ events, Follows d r.2 events := by
  obtain ⟨outcome, d'⟩ := r
  cases outcome with
  | ok _ =>
      obtain ⟨_, _, events, hfollows, -⟩ := h
      exact ⟨events, hfollows⟩
  | failed e =>
      obtain ⟨t, hfollows⟩ := h
      exact ⟨_, hfollows⟩
  | panicked => exact ⟨_, h⟩
  | waiting => exact ⟨_, h⟩

/-- An exchange that succeeded has been answered, at the instant the device keeps. -/
def Answered (decode : Bytes.Octets → Fallible.Exec DeviceError T) (a : Attempt) (value : T)
    (events : List Event) (d : Device) : Prop :=
  events = [⟨a.instant, .answered⟩] ∧ d.lastExchangeAt = some a.instant ∧
    ∃ inner payload, a.inner = .ok inner ∧
      Frame.parse inner .airConditioner = .ok payload ∧ decode payload = .ok value

/-- A call for a state has been answered by a report. -/
def Reported (a : Attempt) (state : Ac.State) (events : List Event) (_ : Device) : Prop :=
  ∃ t, events = [⟨a.instant, .answered⟩, ⟨t, .reported state⟩]

/-- The end of an exchange that succeeded clears the failure. -/
theorem noted_answered (h : Noted d) (t : Nat) :
    Noted { d with
      online := true
      lastExchangeAt := some t
      lastFailure := none
      log := d.log ++ [⟨t, .answered⟩] } := by
  refine ⟨?_, ?_, ?_⟩
  · rw [lastReport_append]
    exact h.state
  · rw [lastReport_append]
    exact h.stateAt
  · rw [lastFailed_append]
    rfl

/-- The end of one that failed leaves the last report as it was. -/
theorem noted_failed (h : Noted d) (t : Nat) (e : DeviceError) :
    Noted { d with
      online := false
      lastFailure := some (t, e)
      log := d.log ++ [⟨t, .failed e⟩] } := by
  refine ⟨?_, ?_, ?_⟩
  · rw [lastReport_append]
    exact h.state
  · rw [lastReport_append]
    exact h.stateAt
  · rw [lastFailed_append]
    rfl

/-- A report is kept after the answer that brought it. -/
theorem noted_remember (h : Noted d) (hanswered : lastFailed d.log = none) (state : Ac.State) :
    Noted (d.remember state) := by
  refine ⟨?_, ?_, ?_⟩
  · rw [Device.remember, lastReport_append]
    rfl
  · rw [Device.remember, lastReport_append]
    rfl
  · rw [Device.remember, lastFailed_append]
    exact h.failure.trans hanswered

section Loop

variable {command : Bytes.Octets} {decode : Bytes.Octets → Fallible.Exec DeviceError T} {at_ : Nat}

/-- An attempt that succeeds ends the exchange. -/
theorem ends_answered {value : T} (heq : d.attempt command decode = (.ok value, at_, d')) :
    Ends d (Answered decode) (Outcome.ok value,
      { d' with
        online := true
        lastExchangeAt := some at_
        lastFailure := none
        log := d'.log ++ [⟨at_, .answered⟩] }) := by
  have hquiet := attempt_follows d command decode
  rw [heq] at hquiet
  obtain ⟨a, ha, rfl, hvalue⟩ := attempt_ok heq
  refine ⟨a, ha, [⟨a.instant, .answered⟩], ?_, rfl, rfl, hvalue⟩
  exact hquiet.note ha rfl rfl rfl fun h => noted_answered h a.instant

/-- One that fails for good does too. -/
theorem ends_failed {e : DeviceError} (heq : d.attempt command decode = (.failed e, at_, d')) :
    Ends d (Answered decode) ((.failed e : Outcome T),
      { d'.dropSession with
        online := false
        lastFailure := some (at_, e)
        log := d'.dropSession.log ++ [⟨at_, .failed e⟩] }) := by
  have hquiet := attempt_follows d command decode
  rw [heq] at hquiet
  obtain ⟨a, ha, rfl⟩ := attempt_failed heq
  have hdrop := hquiet.trans (follows_dropSession d')
  exact ⟨a.instant, hdrop.note ha rfl rfl rfl fun h => noted_failed h a.instant e⟩

/-- **An exchange** ends with one entry in the log, however many attempts it took. Attempts that
are followed by another note nothing, so the entry is that of the last one. -/
theorem exchangeLoop_ends (more : Nat) :
    ∀ d : Device, Ends d (Answered decode) (Device.exchangeLoop command decode more d) := by
  induction more with
  | zero =>
      intro d
      have hquiet := attempt_follows d command decode
      unfold Device.exchangeLoop
      split
      next heq => exact ends_answered heq
      next heq => exact ends_failed heq
      next heq =>
        rw [heq] at hquiet
        exact hquiet
      next heq =>
        rw [heq] at hquiet
        exact hquiet
  | succ more ih =>
      intro d
      have hquiet := attempt_follows d command decode
      unfold Device.exchangeLoop
      split
      next heq => exact ends_answered heq
      next e at_ d' heq =>
        dsimp only
        split
        next =>
          -- The connection is dropped, and a fresh one gets its attempt.
          rw [heq] at hquiet
          exact (ih d'.dropSession).after (hquiet.trans (follows_dropSession d'))
        next => exact ends_failed heq
      next heq =>
        rw [heq] at hquiet
        exact hquiet
      next heq =>
        rw [heq] at hquiet
        exact hquiet

end Loop

/-- An exchange notes what it came to, once: a report or a failure. -/
theorem exchange_ends (d : Device) (command : Bytes.Octets)
    (decode : Bytes.Octets → Fallible.Exec DeviceError T) :
    Ends d (Answered decode) (d.exchange command decode) :=
  exchangeLoop_ends _ d

/-- A call for a state notes its report after the answer. The entry of the exchange comes first,
and the report's instant is the reading behind it. -/
theorem exchangeState_ends (d : Device) (command : Bytes.Octets) :
    Ends d Reported (d.exchangeState command) := by
  have hends := exchange_ends d command
    fun payload => Fallible.mapFail DeviceError.response (Ac.State.parse payload)
  unfold Device.exchangeState
  split
  next state d' heq =>
    rw [heq] at hends
    obtain ⟨a, ha, _, hfollows, rfl, hat, inner, payload, hinner, hparse, hstate⟩ := hends
    refine ⟨a, ha, _, ?_, d'.clock, rfl⟩
    have hclock : a.instant ≤ d'.clock := by
      unfold Device.clock
      rw [hat]
      exact Nat.le_add_right _ _
    have hanswered : lastFailed d'.log = none := by
      rw [hfollows.log, lastFailed_append]
      rfl
    exact hfollows.note ha
      (show a.Brings ⟨d'.clock, .reported state⟩ from
        ⟨hclock, inner, payload, hinner, hparse, Fallible.mapFail_eq_ok hstate⟩)
      rfl rfl fun h => noted_remember h hanswered state
  next outcome d' hother heq =>
    rw [heq] at hends
    cases outcome with
    | ok state => exact (hother state rfl).elim
    | failed e => exact hends
    | panicked => exact hends
    | waiting => exact hends

/-- A refresh is an exchange for a state. -/
theorem refresh_ends (d : Device) : Ends d Reported d.refresh :=
  (exchangeState_ends d.nextMessageId.2 _).after (follows_nextMessageId d)

/-- So is sending a setpoint, with the echo for the state. -/
theorem apply_ends (d : Device) (setpoint : Ac.Setpoint) : Ends d Reported (d.apply setpoint) :=
  (exchangeState_ends d.nextMessageId.2 _).after (follows_nextMessageId d)

/-- Asking for the rest of the capabilities notes what its exchanges came to. What the answer is
does not matter, as the capabilities are no report. -/
theorem fetchMore_follows (d : Device) (caps : Ac.Capabilities) :
    ∃ events, Follows d (d.fetchMore caps).2 events := by
  have hends := (exchange_ends d.nextMessageId.2 (Ac.getMoreCapabilities d.nextMessageId.1)
    Ac.Capabilities.parse).after (follows_nextMessageId d)
  obtain ⟨events, hfollows⟩ := hends.follows
  unfold Device.fetchMore
  dsimp only
  split
  next heq =>
    rw [heq] at hfollows
    exact hfollows.and_then ⟨_, follows_capabilities _ _⟩
  next heq =>
    rw [heq] at hfollows
    exact hfollows.and_then ⟨_, follows_capabilities _ _⟩
  next heq =>
    rw [heq] at hfollows
    exact ⟨events, hfollows⟩
  next heq =>
    rw [heq] at hfollows
    exact ⟨events, hfollows⟩

/-- The whole query for capabilities notes what its exchanges came to. -/
theorem fetchCapabilities_follows (d : Device) :
    ∃ events, Follows d d.fetchCapabilities.2 events := by
  unfold Device.fetchCapabilities
  split
  next => exact ⟨[], Follows.refl d⟩
  next =>
    have hends := (exchange_ends d.nextMessageId.2 (Ac.getCapabilities d.nextMessageId.1)
      Ac.Capabilities.parse).after (follows_nextMessageId d)
    obtain ⟨events, hfollows⟩ := hends.follows
    dsimp only
    split
    next caps d' heq =>
      rw [heq] at hfollows
      split
      next => exact hfollows.and_then (fetchMore_follows d' caps)
      next => exact hfollows.and_then ⟨_, follows_capabilities d' caps⟩
    next heq =>
      rw [heq] at hfollows
      exact ⟨events, hfollows⟩

/-- Sending a change notes the echo, or the failure. -/
theorem sendOver_follows (change : Change) (merged : Nat) (baseWasCached : Bool) (base : Ac.State)
    (d : Device) : ∃ events, Follows d (sendOver change merged baseWasCached base d).2 events :=
  (apply_ends d (change.applyTo (Ac.Setpoint.fromState base))).follows

/-- With the state that is asked for before, if it is. A state at hand is taken as it is;
otherwise the refresh comes first, and where that fails nothing is sent. -/
theorem sendChange_follows (d : Device) (change : Change) (merged now : Nat) :
    ∃ events, Follows d (sendChange d change merged now).2 events := by
  unfold sendChange
  split
  next base _ => exact sendOver_follows change merged true base d
  next =>
    obtain ⟨events, hfollows⟩ := (refresh_ends d).follows
    split
    next base d' heq =>
      rw [heq] at hfollows
      exact hfollows.and_then (sendOver_follows change merged false base d')
    next heq =>
      rw [heq] at hfollows
      exact ⟨events, hfollows⟩
    next heq =>
      rw [heq] at hfollows
      exact ⟨events, hfollows⟩
    next heq =>
      rw [heq] at hfollows
      exact ⟨events, hfollows⟩

/-! ## Reads -/

/-- What a read that arrived then may be answered with, after these exchanges: the
last report of all or the failure of the last exchange, noted since it arrived. -/
def Current (arrived : Nat) (log : List Event) : Outcome Ac.State → Prop
  | .ok state => ∃ t, arrived ≤ t ∧ lastReport log = some (t, state)
  | .failed e => ∃ t, arrived ≤ t ∧ lastFailed log = some (t, e)
  | _ => True

/-- A state that is shared is the last one reported. It was noted no earlier than the read
arrived, since the reading kept with it is compared. -/
theorem stateSince_current {arrived : Nat} {state : Ac.State} (hnoted : Noted d)
    (h : d.stateSince arrived = some state) : Current arrived d.log (.ok state) := by
  unfold Device.stateSince at h
  rw [hnoted.stateAt, hnoted.state] at h
  cases hlast : lastReport d.log with
  | none =>
      rw [hlast] at h
      cases h
  | some r =>
      obtain ⟨t, state'⟩ := r
      rw [hlast] at h
      simp only [Option.map_some] at h
      split at h
      next ht =>
        obtain rfl := Option.some.inj h
        exact ⟨t, ht, hlast⟩
      next => cases h

/-- A failure that is shared is that of the last exchange. A success in between would have taken
it off. -/
theorem failureSince_current {arrived : Nat} {e : DeviceError} (hnoted : Noted d)
    (h : d.failureSince arrived = some e) : Current arrived d.log (.failed e) := by
  unfold Device.failureSince at h
  rw [hnoted.failure] at h
  cases hlast : lastFailed d.log with
  | none =>
      rw [hlast] at h
      cases h
  | some r =>
      obtain ⟨t, e'⟩ := r
      rw [hlast] at h
      dsimp only at h
      split at h
      next ht =>
        obtain rfl := Option.some.inj h
        exact ⟨t, ht, hlast⟩
      next => cases h

/-- What the unit is asked for now is as fresh as can be. Its entry is the last of the log, and
every answer of this visit comes after the read arrived. -/
theorem Ends.current {arrived : Nat} {r : Outcome Ac.State × Device}
    (hline : ∀ a ∈ d.line, arrived ≤ a.instant) (h : Ends d Reported r) :
    Current arrived r.2.log r.1 := by
  obtain ⟨outcome, d'⟩ := r
  cases outcome with
  | ok state =>
      obtain ⟨_, -, _, hfollows, t, rfl⟩ := h
      obtain ⟨a, ha, hbrings⟩ := hfollows.brought ⟨t, .reported state⟩
        (List.mem_cons_of_mem _ (List.mem_singleton.mpr rfl))
      refine ⟨t, (hline a ha).trans hbrings.le, ?_⟩
      rw [hfollows.log, List.append_cons, lastReport_append]
      rfl
  | failed e =>
      obtain ⟨t, hfollows⟩ := h
      obtain ⟨a, ha, hbrings⟩ := hfollows.brought ⟨t, .failed e⟩ (List.mem_singleton.mpr rfl)
      refine ⟨t, (hline a ha).trans hbrings.le, ?_⟩
      rw [hfollows.log, lastFailed_append]
      rfl
  | panicked => trivial
  | waiting => trivial

/-- **One read.**  Its answer is fresh, and one that asks nothing was fresh already. A state at
hand comes first, a failure second, and the unit is asked only without either. -/
theorem readState_current {arrived : Nat} (hnoted : Noted d)
    (hline : ∀ a ∈ d.line, arrived ≤ a.instant) :
    Current arrived (readState arrived d).2.log (readState arrived d).1 ∧
      ((readState arrived d).2.sent = d.sent → Current arrived d.log (readState arrived d).1) := by
  unfold readState
  split
  next state hstate =>
    have hcurrent := stateSince_current hnoted hstate
    exact ⟨hcurrent, fun _ => hcurrent⟩
  next =>
    split
    next e hfailure =>
      have hcurrent := failureSince_current hnoted hfailure
      exact ⟨hcurrent, fun _ => hcurrent⟩
    next =>
      refine ⟨(refresh_ends d).current hline, ?_⟩
      intro hsent
      -- A read of its own is on the line.
      obtain ⟨n, hn⟩ := d.refresh_sent
      rw [hsent, List.self_eq_append_right, List.replicate_succ] at hn
      cases hn

/-- A read notes its refresh, if it has one. -/
theorem readState_follows (arrived : Nat) (d : Device) :
    ∃ events, Follows d (readState arrived d).2 events := by
  unfold readState
  split
  next => exact ⟨[], Follows.refl d⟩
  next =>
    split
    next => exact ⟨[], Follows.refl d⟩
    next => exact (refresh_ends d).follows

/-- Over a read, too, the log is longer by exactly the reports in the answers it took. -/
theorem readState_tells (arrived : Nat) (d : Device) :
    ∃ n, Tells Attempt.state? n d (readState arrived d).2 := by
  unfold readState
  split
  next => exact ⟨0, Tells.quiet rfl rfl rfl⟩
  next =>
    split
    next => exact ⟨0, Tells.quiet rfl rfl rfl⟩
    next => exact refresh_tells d

/-! ## Visits one after the other -/

/-- A call under the lock answers what it does on the device behind it. -/
theorem Guarded.withUnit_fst (g : Guarded) (f : Device → Outcome T × Device) :
    (g.withUnit f).1 = (f g.lockDevice).1 := by
  unfold Guarded.withUnit
  split <;> simp_all

/-- A call under the lock leaves the device as the call left it. -/
theorem Guarded.withUnit_device (g : Guarded) (f : Device → Outcome T × Device) :
    (g.withUnit f).2.device = (f g.lockDevice).2 := by
  unfold Guarded.withUnit
  split <;> simp_all

/-- Rebuilding the connection is not a note. -/
theorem follows_lockDevice (g : Guarded) : Follows g.device g.lockDevice [] := by
  unfold Guarded.lockDevice
  split
  next => exact follows_forget g.device
  next => exact Follows.refl g.device

/-- Getting the lock asks the unit nothing, poisoned or not. -/
theorem tells_lockDevice {told : Attempt → Option Ac.State} (g : Guarded) :
    Tells told 0 g.device g.lockDevice := by
  unfold Guarded.lockDevice
  split <;> exact Tells.quiet rfl rfl rfl

/-- A call on the unit moves it on. -/
theorem withUnit_follows {f : Device → Outcome T × Device}
    (hf : ∀ d, ∃ events, Follows d (f d).2 events) (g : Guarded) :
    ∃ events, Follows g.device (g.withUnit f).2.device events := by
  rw [g.withUnit_device f]
  exact (follows_lockDevice g).and_then (hf g.lockDevice)

/-- **One visit**, for whatever request, moves the unit on. -/
theorem step_follows (g : Guarded) (visit : Visit) :
    (g.step visit).2 = g ∨
      ∃ events, Follows (g.facing visit).device (g.step visit).2.device events := by
  unfold Guarded.step
  split
  next => exact Or.inl rfl
  next =>
    right
    dsimp only
    split
    next arrived _ => exact withUnit_follows (readState_follows arrived) _
    next change merged _ => exact withUnit_follows (sendChange_follows · change merged visit.now) _
    next => exact ⟨_, follows_lockDevice _⟩
    next => exact withUnit_follows fetchCapabilities_follows _
    next =>
      split
      next => exact ⟨_, Follows.refl _⟩
      next => exact withUnit_follows (fun d => (refresh_ends d).follows) _
    next => exact (follows_lockDevice _).and_then ⟨_, follows_forget _⟩

/-- What a call on the unit is told. -/
theorem withUnit_tells {f : Device → Outcome T × Device} {told : Attempt → Option Ac.State}
    (hf : ∀ d, ∃ n, Tells told n d (f d).2) (g : Guarded) :
    ∃ n, Tells told n g.device (g.withUnit f).2.device := by
  rw [g.withUnit_device f]
  exact (tells_lockDevice g).and_then (hf g.lockDevice)

/-- What a request reads in an answer: a query for capabilities looks for no state. -/
def Request.state? : Request → Attempt → Option Ac.State
  | .capabilities => Attempt.nothing?
  | _ => Attempt.state?

/-- **One visit**, for whatever request, notes every report it is told. Only reading and sending
can be told one; asking for capabilities or the lock alone is quiet. -/
theorem step_tells (g : Guarded) (visit : Visit) :
    (g.step visit).2 = g ∨
      ∃ n, Tells visit.request.state? n (g.facing visit).device (g.step visit).2.device := by
  unfold Guarded.step
  split
  next => exact Or.inl rfl
  next =>
    right
    dsimp only
    split
    next arrived hrequest =>
      rw [hrequest]
      exact withUnit_tells (readState_tells arrived) _
    next change merged hrequest =>
      rw [hrequest]
      exact withUnit_tells (sendChange_tells · change merged visit.now) _
    next => exact ⟨0, tells_lockDevice _⟩
    next hrequest =>
      rw [hrequest]
      exact withUnit_tells fetchCapabilities_tells _
    next hrequest =>
      rw [hrequest]
      split
      next => exact ⟨0, Tells.quiet rfl rfl rfl⟩
      next => exact withUnit_tells refresh_tells _
    next => exact (tells_lockDevice _).and_then ⟨0, Tells.quiet rfl rfl rfl⟩

/-- The reports the unit gave while someone had it: those in the answers to the commands
that went out meanwhile. -/
def Visit.told (visit : Visit) (before after : Guarded) : List Ac.State :=
  (visit.answers.take (after.device.sent.length - before.device.sent.length)).filterMap
    visit.request.state?

/-- What a visit adds to the log was brought by the answers it had, and has all the
reports it was told. -/
theorem step_log (g : Guarded) (visit : Visit) :
    ∃ own, (g.step visit).2.device.log = g.device.log ++ own ∧
      (∀ x ∈ own, ∃ a ∈ visit.answers, a.Brings x) ∧
      reports own = visit.told g (g.step visit).2 := by
  rcases step_follows g visit with hsame | ⟨events, hfollows⟩
  · rw [hsame]
    refine ⟨[], (List.append_nil _).symm, fun _ hx => absurd hx List.not_mem_nil, ?_⟩
    unfold Visit.told
    rw [Nat.sub_self]
    rfl
  · refine ⟨events, hfollows.log, hfollows.brought, ?_⟩
    have hreports := congrArg reports hfollows.log
    rw [reports_append] at hreports
    unfold Visit.told
    rcases step_tells g visit with hsame | ⟨n, htells⟩
    · rw [hsame, show (g.facing visit).device.log = g.device.log from rfl] at hreports
      rw [hsame, Nat.sub_self]
      exact (List.self_eq_append_right.mp hreports)
    · rw [htells.sent, show (g.facing visit).device.sent = g.device.sent from rfl,
        Nat.add_sub_cancel_left]
      exact List.append_cancel_left (hreports.symm.trans htells.log)

/-- **The cache** agrees with the log from visit to visit. -/
theorem noted_step {g : Guarded} (hnoted : Noted g.device) (visit : Visit) :
    Noted (g.step visit).2.device := by
  rcases step_follows g visit with hsame | ⟨events, hfollows⟩
  · rw [hsame]
    exact hnoted
  · exact hfollows.noted ⟨hnoted.state, hnoted.stateAt, hnoted.failure⟩

/-- The visit of a read. What it hands out is current by the log as it is afterwards, and by the
log as it was where nothing had to be sent. -/
theorem step_read {g : Guarded} {visit : Visit} {arrived : Nat} {outcome : Outcome Ac.State}
    (hnoted : Noted g.device) (hclock : visit.Clocked)
    (hrequest : visit.request = .readState arrived)
    (houtcome : (g.step visit).1 = .state outcome) :
    Current arrived (g.step visit).2.device.log outcome ∧
      ((g.step visit).2.device.sent = g.device.sent → Current arrived g.device.log outcome) := by
  unfold Guarded.step at houtcome ⊢
  split at houtcome
  next => cases houtcome
  next hfree =>
    rw [if_neg hfree]
    rw [hrequest] at houtcome ⊢
    dsimp only at houtcome ⊢
    obtain rfl := Served.state.inj houtcome
    have hlock := follows_lockDevice (g.facing visit)
    have hlog : (g.facing visit).lockDevice.log = g.device.log := by
      rw [hlock.log, List.append_nil]
      rfl
    have hsent : (g.facing visit).lockDevice.sent = g.device.sent := by
      unfold Guarded.lockDevice
      split <;> rfl
    have hfacing : Noted (g.facing visit).device := ⟨hnoted.state, hnoted.stateAt, hnoted.failure⟩
    have hline : ∀ a ∈ (g.facing visit).lockDevice.line, arrived ≤ a.instant := by
      intro a ha
      exact (hclock.arrived arrived hrequest).trans (hclock.answered a (hlock.line a ha))
    obtain ⟨hcurrent, hshared⟩ := readState_current (hlock.noted hfacing) hline
    rw [Guarded.withUnit_fst, Guarded.withUnit_device]
    refine ⟨hcurrent, ?_⟩
    intro hnothing
    rw [← hlog]
    exact hshared (hnothing.trans hsent.symm)

/-- **Fresh reads.**  In every sequence of reads, controls, capability queries, passes
of keep-warm and resets that visit one unit, whatever the unit answers:
every visit notes what came of its own exchanges with the unit, all the reports the unit
gave in them and no others, and a read returns the last state of all that were reported,
or the failure of the last exchange, noted no earlier than the read arrived.  A read that
asks nothing of the unit shares what had been noted before its visit. -/
theorem reads_fresh {visits : List Visit} (hclock : ∀ visit ∈ visits, visit.Clocked) :
    ∀ e ∈ trace Guarded.step {} visits,
      (∃ own, e.after.device.log = e.before.device.log ++ own ∧
        (∀ x ∈ own, ∃ a ∈ e.input.answers, a.Brings x) ∧
        reports own = e.input.told e.before e.after) ∧
      ∀ arrived outcome, e.input.request = .readState arrived → e.output = .state outcome →
        Current arrived e.after.device.log outcome ∧
          (e.after.device.sent = e.before.device.sent →
            Current arrived e.before.device.log outcome) := by
  intro e he
  have hstep : ∀ (g : Guarded) visit rest,
      (Noted g.device ∧ ∀ t ∈ visit :: rest, Visit.Clocked t) →
        Noted (g.step visit).2.device ∧ ∀ t ∈ rest, Visit.Clocked t := by
    rintro g visit rest ⟨hnoted, hclocked⟩
    exact ⟨noted_step hnoted visit, fun t ht => hclocked t (List.mem_cons_of_mem _ ht)⟩
  obtain ⟨hentry, _, hnoted, hclocked⟩ := @forall_trace _ _ _ _
    (fun g rest => Noted g.device ∧ ∀ t ∈ rest, Visit.Clocked t) hstep visits {}
    ⟨⟨rfl, rfl, rfl⟩, hclock⟩ e he
  have hlog := step_log e.before e.input
  refine ⟨?_, ?_⟩
  · rw [hentry]
    exact hlog
  · intro arrived outcome hrequest houtcome
    have hread := step_read hnoted (hclocked e.input List.mem_cons_self) hrequest
      (by rw [hentry] at houtcome; exact houtcome)
    rw [hentry]
    exact hread

/-- Two reads arrive one after the other, the second while the unit answers the
first; it shares the answer.  A third finds the unit gone, a fourth shares that.  The
fifth arrives while the unit confirms a control, and shares what it confirmed. -/
def readsInTurn : List Visit :=
  let reply := [0xAA, 0x23, 0xAC, 0, 0, 0, 0, 0, 0x02, 0x03, 0xC0, 0x01, 0x88, 0x64, 0x7F, 0x7F, 0,
    0, 0, 0, 0, 0x63, 0x45, 0x0C, 0, 0x56, 0x19, 0, 0, 0, 0, 0, 0, 0x04, 0x97, 0xC3]
  [{ request := .readState 0, now := 1, answers := [⟨.ok reply, 9⟩], lags := [1] },
    { request := .readState 5, now := 10 },
    { request := .readState 20, now := 20, answers := [⟨.error .missingCredentials, 30⟩] },
    { request := .readState 25, now := 30 },
    { request := .control { powerOn := some true } 1, now := 40, answers := [⟨.ok reply, 60⟩] },
    { request := .readState 50, now := 61 }]

/-- Reads and a control in turn, some of them answered out of what had been noted. -/
theorem reads_fresh_inTurn :
    (trace Guarded.step {} readsInTurn).map (fun e => e.after.device.sent.length) =
        [1, 1, 2, 2, 3, 3] ∧
      ∀ e ∈ trace Guarded.step {} readsInTurn,
        (∃ own, e.after.device.log = e.before.device.log ++ own ∧
          (∀ x ∈ own, ∃ a ∈ e.input.answers, a.Brings x) ∧
          reports own = e.input.told e.before e.after) ∧
        ∀ arrived outcome, e.input.request = .readState arrived → e.output = .state outcome →
          Current arrived e.after.device.log outcome ∧
            (e.after.device.sent = e.before.device.sent →
              Current arrived e.before.device.log outcome) := by
  refine ⟨by decide +kernel, reads_fresh ?_⟩
  intro visit hvisit
  simp only [readsInTurn, List.mem_cons, List.not_mem_nil, or_false] at hvisit
  rcases hvisit with rfl | rfl | rfl | rfl | rfl | rfl
  · exact ⟨fun _ h => by cases h; decide, by simp⟩
  · exact ⟨fun _ h => by cases h; decide, by simp⟩
  · exact ⟨fun _ h => by cases h; decide, by simp⟩
  · exact ⟨fun _ h => by cases h; decide, by simp⟩
  · exact ⟨fun _ h => (by cases h), by simp⟩
  · exact ⟨fun _ h => by cases h; decide, by simp⟩

end BreezeDevice
