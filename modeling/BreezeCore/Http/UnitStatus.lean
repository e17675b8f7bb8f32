import BreezeCore.Http.WarmReads

/-!
# What a listing shows of a unit

The status beside a unit is read without waiting for it: whether the unit answered the last
time anything asked, and whether a session is open.  The two are told apart, as a session could
be open to a unit that has stopped replying.  But every failure closes the session, and every
answer has one, so they never differ (`status_agrees`).
-/

namespace BreezeHttp.Warm

open BreezeDevice Runs

/-- The unit answered last time exactly if a session is open. -/
def Agreeing (d : Device) : Prop := d.online = d.connected

/-- A call that came back left the device agreeing. -/
def Settles {T : Type} : Outcome T × Device → Prop
  | (.ok _, d) | (.failed _, d) => Agreeing d
  | _ => True

variable {T : Type} {d d' : Device} {r : Outcome T × Device}

section Attempts

variable {command : Bytes.Octets} {decode : Bytes.Octets → Fallible.Exec DeviceError T} {at_ : Nat}

/-- An answer comes over an open session. Every way an attempt closes its session ends in a
failure or a panic. -/
theorem attempt_connected {value : T} (h : d.attempt command decode = (.ok value, at_, d')) :
    d'.connected = true := by
  have htry : ∀ payload t, d.tryExchange command = (.ok payload, t, d') → d'.connected = true := by
    intro payload t htry
    unfold Device.tryExchange at htry
    dsimp only at htry
    split at htry
    next => cases (Prod.mk.inj htry).1
    next =>
      split at htry
      next => cases (Prod.mk.inj htry).1
      next =>
        obtain ⟨-, hrest⟩ := Prod.mk.inj htry
        obtain ⟨-, rfl⟩ := Prod.mk.inj hrest
        rfl
  unfold Device.attempt at h
  split at h
  next payload t d₁ heq =>
    obtain ⟨-, hrest⟩ := Prod.mk.inj h
    obtain ⟨-, rfl⟩ := Prod.mk.inj hrest
    exact htry payload t heq
  next => cases (Prod.mk.inj h).1
  next => cases (Prod.mk.inj h).1
  next => cases (Prod.mk.inj h).1

/-- **An exchange** ends with an answer and a session, or with neither. By induction on the
attempts that are left, where the last one that fails drops the session and notes the failure. -/
theorem exchangeLoop_settles (more : Nat) :
    ∀ d : Device, Settles (Device.exchangeLoop command decode more d) := by
  induction more with
  | zero =>
      intro d
      unfold Device.exchangeLoop
      split
      next heq => exact (attempt_connected heq).symm
      next => exact rfl
      next => trivial
      next => trivial
  | succ more ih =>
      intro d
      unfold Device.exchangeLoop
      split
      next heq => exact (attempt_connected heq).symm
      next e at_ d' heq =>
        dsimp only
        split
        next => exact ih d'.dropSession
        next => exact rfl
      next => trivial
      next => trivial

end Attempts

theorem exchangeState_settles (d : Device) (command : Bytes.Octets) :
    Settles (d.exchangeState command) := by
  have hsettles : Settles (d.exchange command fun payload =>
      Fallible.mapFail DeviceError.response (Ac.State.parse payload)) := exchangeLoop_settles _ d
  unfold Device.exchangeState
  split
  next state d' heq =>
    rw [heq] at hsettles
    exact hsettles
  next outcome d' _ heq =>
    rw [heq] at hsettles
    exact hsettles

theorem refresh_settles (d : Device) : Settles d.refresh := exchangeState_settles _ _

theorem fetchMore_settles (d : Device) (caps : Ac.Capabilities) : Settles (d.fetchMore caps) := by
  have hsettles : Settles (d.nextMessageId.2.exchange (Ac.getMoreCapabilities d.nextMessageId.1)
      Ac.Capabilities.parse) := exchangeLoop_settles _ _
  unfold Device.fetchMore
  dsimp only
  split
  next heq =>
    rw [heq] at hsettles
    exact hsettles
  next heq =>
    -- Half a capability list beats none, and the failure has closed the session.
    rw [heq] at hsettles
    exact hsettles
  next => trivial
  next => trivial

theorem fetchCapabilities_settles (hd : Agreeing d) : Settles d.fetchCapabilities := by
  unfold Device.fetchCapabilities
  split
  next => exact hd
  next =>
    have hsettles : Settles (d.nextMessageId.2.exchange (Ac.getCapabilities d.nextMessageId.1)
        Ac.Capabilities.parse) := exchangeLoop_settles _ _
    dsimp only
    split
    next caps d' heq =>
      rw [heq] at hsettles
      split
      next => exact fetchMore_settles d' caps
      next => exact hsettles
    next heq =>
      rw [heq] at hsettles
      exact hsettles

theorem settles_map {β : Type} {f : T → β} (h : Settles r) :
    Settles ((r.1.map f, r.2) : Outcome β × Device) := by
  obtain ⟨outcome, d⟩ := r
  cases outcome with
  | ok _ => exact h
  | failed _ => exact h
  | panicked => trivial
  | waiting => trivial

theorem sendChange_settles (d : Device) (change : Change) (merged now : Nat) :
    Settles (sendChange d change merged now) := by
  have hover : ∀ (cached : Bool) (base : Ac.State) (d : Device),
      Settles (sendOver change merged cached base d) :=
    fun cached base d => settles_map (exchangeState_settles d.nextMessageId.2 _)
  unfold sendChange
  split
  next => exact hover _ _ d
  next =>
    have hsettles := refresh_settles d
    split
    next => exact hover _ _ _
    next heq =>
      rw [heq] at hsettles
      exact hsettles
    next => trivial
    next => trivial

theorem serve_settles (now : Nat) (request : BreezeDevice.Request) (hd : Agreeing d) :
    Settles (serve now d request) := by
  cases request with
  | readState arrived =>
      refine settles_map (r := readState arrived d) ?_
      unfold readState
      split
      next => exact hd
      next =>
        split
        next => exact hd
        next => exact refresh_settles d
  | control change merged => exact settles_map (sendChange_settles d change merged now)
  | collect => exact hd
  | capabilities => exact settles_map (fetchCapabilities_settles hd)
  | keepWarm maxIdle credentials => exact settles_map (refresh_settles d)
  | forget => exact rfl

/-- A call that does not publish had its answer there already. What was read or failed since the
call arrived is handed out as it stands, and the device is not asked. -/
theorem serve_unpublished {now : Nat} {request : BreezeDevice.Request}
    (h : publishes d request = false) : (serve now d request).2 = d := by
  cases request with
  | readState arrived =>
      change ((d.stateSince arrived).isNone && (d.failureSince arrived).isNone) = false at h
      change (readState arrived d).2 = d
      unfold readState
      split
      next => rfl
      next hstate =>
        split
        next => rfl
        next hfailure =>
          rw [hstate, hfailure] at h
          cases h
  | collect => rfl
  | control => cases h
  | capabilities => cases h
  | keepWarm => cases h
  | forget => cases h

/-- The status agrees with itself, and with the device unless somebody panicked with it. -/
structure Told (slot : Slot) : Prop where
  agrees : slot.status.online = slot.status.connected
  mirrors : slot.poisoned = false → slot.status = .ofDevice slot.device
  taken : ∀ request since, slot.holder = some (.request request since) → Agreeing slot.device
  read : ∀ asked, slot.holder = some (.keepWarm asked) → slot.poisoned = false

theorem Told.agreeing {slot : Slot} (h : Told slot) (hsound : slot.poisoned = false) :
    Agreeing slot.device := by
  have hagrees := h.agrees
  rw [h.mirrors hsound] at hagrees
  exact hagrees

theorem Told.free {slot : Slot} (hfree : slot.holder = none)
    (hagrees : slot.status.online = slot.status.connected)
    (hmirrors : slot.poisoned = false → slot.status = .ofDevice slot.device) : Told slot := by
  refine ⟨hagrees, hmirrors, fun request since hholder => ?_, fun asked hholder => ?_⟩
  · rw [hfree] at hholder
    cases hholder
  · rw [hfree] at hholder
    cases hholder

/-- What a call on an agreeing device leaves. Either it published what it came to, or it left the
device as it was and what was published before still agrees with it. -/
theorem told_returned {slot slot' : Slot} {since : Nat} {request : BreezeDevice.Request}
    {answers : List Attempt} {lags : List Nat} (h : Told slot) (hd : Agreeing slot.device)
    (hback : slot.returned (publishes (slot.facing answers lags) request)
      (serve since (slot.facing answers lags) request) = some slot') : Told slot' := by
  have hsettles : Settles (serve since (slot.facing answers lags) request) :=
    serve_settles since request hd
  have hquiet : publishes (slot.facing answers lags) request = false →
      (serve since (slot.facing answers lags) request).2 = slot.facing answers lags :=
    serve_unpublished
  have hmirrors := h.mirrors
  generalize publishes (slot.facing answers lags) request = publish at hback hquiet
  generalize serve since (slot.facing answers lags) request = r at hback hsettles hquiet
  have hreturned : ∀ d, Agreeing d → r.2 = d →
      slot' = { slot with
        device := d
        status := if publish then .ofDevice d else slot.status
        holder := none } → Told slot' := by
    rintro d hd' hr rfl
    cases publish with
    | true => exact .free rfl hd' fun _ => rfl
    | false =>
        obtain rfl : d = slot.facing answers lags := hr.symm.trans (hquiet rfl)
        exact .free rfl h.agrees hmirrors
  obtain ⟨outcome, d⟩ := r
  cases outcome with
  | ok _ => exact hreturned d hsettles rfl (Option.some.inj hback).symm
  | failed e => exact hreturned d hsettles rfl (Option.some.inj hback).symm
  | panicked =>
      obtain rfl := Option.some.inj hback
      exact .free rfl h.agrees fun hsound => by cases hsound
  | waiting => cases hback

theorem told_step {s : Server} {address : Nat} {slot slot' : Slot}
    (h : SlotMove s address slot slot') (hs : Told slot) : Told slot' := by
  cases h with
  | same => exact hs
  | created => exact .free rfl rfl fun _ => rfl
  | taken request hfree =>
      have hagreeing : Agreeing slot.lockDevice := by
        unfold Slot.lockDevice
        split
        next => exact rfl
        next hsound => exact hs.agreeing (Bool.eq_false_iff.mpr hsound)
      refine ⟨hs.agrees, fun hsound => ?_, fun _ _ _ => hagreeing, fun _ h => by cases h⟩
      have hdevice : slot.lockDevice = slot.device := by
        unfold Slot.lockDevice
        rw [if_neg (Bool.eq_false_iff.mp hsound)]
      dsimp only
      rw [hdevice]
      exact hs.mirrors hsound
  | given since request answers lags _ hholder hduring hback =>
      exact told_returned hs (hs.taken request since hholder) hback
  | passed => exact ⟨hs.agrees, hs.mirrors, hs.taken, hs.read⟩
  | asked began id rest hthread hfree hsound hneeds =>
      refine ⟨hs.agrees, hs.mirrors, fun request since hholder => ?_, fun _ _ => hsound⟩
      cases hholder
  | warmed asked credentials answers lags _ hholder hduring hback =>
      exact told_returned hs (hs.agreeing (hs.read asked hholder)) hback

/-- **The status.**  In every run, a unit is shown online exactly when a session with it is
open; and what is shown is what the device knows whenever nobody has it, unless somebody
panicked with it. -/
theorem status_agrees {setting : KeepWarm} {configs : List (Nat × Bool)}
    {acts : List (Nat × Act)} {s : Server}
    (h : Run Steps (Server.start setting configs) acts s) (address : Nat) :
    (s.slots address).status.online = (s.slots address).status.connected ∧
      ((s.slots address).poisoned = false →
        (s.slots address).status = .ofDevice (s.slots address).device) := by
  have hkeep : ∀ s a s', Told (s.slots address) → Steps s a s' → Told (s'.slots address) :=
    fun s a s' hs hstep => told_step ((step_move hstep).2.slot address) hs
  have hstart : Told ((Server.start setting configs).slots address) := by
    obtain ⟨credentials, hslot⟩ := (started_start setting configs).slots address
    rw [hslot]
    exact .free rfl rfl fun _ => rfl
  have htold := Run.preserves hkeep h hstart
  exact ⟨htold.agrees, htold.mirrors⟩

/-- The unit that answers is shown online, with a session. -/
theorem status_agrees_lookedIn : ∃ s : Server,
    (s.slots 0).status = ⟨true, true, none⟩ ∧
      (s.slots 0).status.online = (s.slots 0).status.connected ∧
      ((s.slots 0).poisoned = false → (s.slots 0).status = .ofDevice (s.slots 0).device) := by
  have hstatus : (lookedIn.foldlM Server.step
      (Server.start (.forWindow (.fromSecs 60)) [(7, true)])).map (fun s => (s.slots 0).status) =
        some ⟨true, true, none⟩ := by decide +kernel
  obtain ⟨s, hrun, hslot⟩ := exists_run (fun s => (s.slots 0).status) hstatus
  exact ⟨s, hslot, status_agrees hrun 0⟩

end BreezeHttp.Warm
