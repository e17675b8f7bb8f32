import BreezeCore.Device.Error
import BreezeCore.Proto.Capabilities
import BreezeCore.Proto.Command

/-!
# One air conditioner

A device sends framed commands and decodes the replies.  What the connection
does with a command (connect, authenticate, encrypt, wait, decrypt) is its
environment here: `line` lists, attempt by attempt, the frame that came back or
the error, and when.  `sent` lists the commands that went out.

`exchange` is the loop every command goes through: a failure retires the
connection, and one that a fresh connection may cure is tried once more.  `log`
is bookkeeping: what the exchanges have come to, as the device noted it.
-/

namespace BreezeDevice

open Fallible Bytes Ac

/-- Connections per operation. -/
def ATTEMPTS : Nat := 2

/-- What one attempt brings back, and when. -/
structure Attempt where
  inner : Except DeviceError Octets
  instant : Nat

/-- What a device notes at the end of an exchange, and when. -/
inductive Ended where
  | answered
  /-- The answer was a state report. -/
  | reported (state : State)
  | failed (e : DeviceError)

structure Event where
  instant : Nat
  ended : Ended

/-- A unit and what is known of it. -/
structure Device where
  /-- Whether a session is open. -/
  connected : Bool := false
  /-- Fetched on first request and kept. -/
  capabilities : Option Capabilities := none
  /-- Last successfully decoded state. -/
  lastState : Option State := none
  lastStateAt : Option Nat := none
  /-- When the unit last answered anything. -/
  lastExchangeAt : Option Nat := none
  /-- The most recent failure. -/
  lastFailure : Option (Nat × DeviceError) := none
  online : Bool := false
  nextId : UInt8 := 1
  line : List Attempt := []
  /-- How much later the clock is read once more for a state report, report by
  report. -/
  lags : List Nat := []
  sent : List Octets := []
  log : List Event := []

variable {T : Type}

/-- Hand out a message id. -/
def Device.nextMessageId (d : Device) : UInt8 × Device :=
  (d.nextId, { d with nextId := d.nextId + 1 })

/-- Send a command and take the payload out of the frame that comes back. -/
def Device.tryExchange (d : Device) (command : Octets) : Outcome Octets × Nat × Device :=
  let d := { d with sent := d.sent ++ [command] }
  match d.line with
  | [] => (.waiting, 0, d)
  | attempt :: line =>
      let d := { d with line := line }
      match attempt.inner with
      | .error e => (.failed e, attempt.instant, d)
      | .ok inner =>
          (.ofExec (mapFail .frame (Frame.parse inner .airConditioner)), attempt.instant,
            { d with connected := true })

/-- One attempt with its decoding. -/
def Device.attempt (d : Device) (command : Octets) (decode : Octets → Exec DeviceError T) :
    Outcome T × Nat × Device :=
  match d.tryExchange command with
  | (.ok payload, at_, d) => (.ofExec (decode payload), at_, d)
  | (.failed e, at_, d) => (.failed e, at_, d)
  | (.panicked, at_, d) => (.panicked, at_, d)
  | (.waiting, at_, d) => (.waiting, at_, d)

/-- Close the connection. -/
def Device.dropSession (d : Device) : Device := { d with connected := false }

/-- The attempts of one exchange, `more` of them left after this one. An answer ends it, and so
does a failure that is not worth another attempt; the last failure is what is noted. -/
def Device.exchangeLoop (command : Octets) (decode : Octets → Exec DeviceError T) :
    (more : Nat) → Device → Outcome T × Device
  | more, d =>
      match d.attempt command decode with
      | (.ok value, at_, d) =>
          (.ok value,
            { d with
              online := true
              lastExchangeAt := some at_
              lastFailure := none
              log := d.log ++ [⟨at_, .answered⟩] })
      | (.failed e, at_, d) =>
          -- Any failure retires the connection, not only the ones worth retrying.
          let d := d.dropSession
          let stop := (.failed e,
            { d with
              online := false
              lastFailure := some (at_, e)
              log := d.log ++ [⟨at_, .failed e⟩] })
          match more with
          | 0 => stop
          | more + 1 => if e.isRetryable then exchangeLoop command decode more d else stop
      | (.panicked, _, d) => (.panicked, d)
      | (.waiting, _, d) => (.waiting, d)

/-- Send a framed command and decode its reply, reconnecting once if the
connection turns out to be dead. -/
def Device.exchange (d : Device) (command : Octets) (decode : Octets → Exec DeviceError T) :
    Outcome T × Device :=
  exchangeLoop command decode (ATTEMPTS - 1) d

/-- The clock, read once more after an answer. -/
def Device.clock (d : Device) : Nat := d.lastExchangeAt.getD 0 + d.lags.headD 0

/-- Keep a state report and when it arrived. -/
def Device.remember (d : Device) (state : State) : Device :=
  { d with
    lastState := some state
    lastStateAt := some d.clock
    lags := d.lags.tail
    log := d.log ++ [⟨d.clock, .reported state⟩] }

/-- A command that is answered by a state report. -/
def Device.exchangeState (d : Device) (command : Octets) : Outcome State × Device :=
  match d.exchange command fun payload => mapFail .response (State.parse payload) with
  | (.ok state, d) => (.ok state, d.remember state)
  | (other, d) => (other, d)

/-- Read current state from the unit. -/
def Device.refresh (d : Device) : Outcome State × Device :=
  let (messageId, d) := d.nextMessageId
  d.exchangeState (getState messageId .indoor)

/-- Apply a complete setpoint and return the state the unit reports back. -/
def Device.apply (d : Device) (setpoint : Setpoint) : Outcome State × Device :=
  let (messageId, d) := d.nextMessageId
  d.exchangeState (setState messageId setpoint)

/-- The second query, for a unit that announces more.  Its failing is no error:
half a capability list beats none. -/
def Device.fetchMore (d : Device) (caps : Capabilities) : Outcome Capabilities × Device :=
  let (messageId, d) := d.nextMessageId
  match d.exchange (getMoreCapabilities messageId) Capabilities.parse with
  | (.ok more, d) => (.ok (caps.merge more), { d with capabilities := some (caps.merge more) })
  | (.failed _, d) => (.ok caps, { d with capabilities := some caps })
  | (.panicked, d) => (.panicked, d)
  | (.waiting, d) => (.waiting, d)

/-- What the unit says it can do, fetched once and cached. -/
def Device.fetchCapabilities (d : Device) : Outcome Capabilities × Device :=
  match d.capabilities with
  | some cached => (.ok cached, d)
  | none =>
      let (messageId, d) := d.nextMessageId
      match d.exchange (getCapabilities messageId) Capabilities.parse with
      | (.ok caps, d) =>
          if caps.additional then d.fetchMore caps
          else (.ok caps, { d with capabilities := some caps })
      | (other, d) => (other, d)

/-! ## What an exchange puts on the line -/

/-- One attempt logs its command, and nothing else. -/
theorem Device.attempt_sent (d : Device) (command : Octets)
    (decode : Octets → Exec DeviceError T) :
    (d.attempt command decode).2.2.sent = d.sent ++ [command] := by
  have htry : (d.tryExchange command).2.2.sent = d.sent ++ [command] := by
    unfold tryExchange
    dsimp only
    split
    next => rfl
    next => split <;> rfl
  unfold attempt
  split <;> simp_all

/-- An exchange sends its command once or more, and no other. By induction on the attempts that
are left, each of which sends it once. -/
theorem Device.exchangeLoop_sent (command : Octets) (decode : Octets → Exec DeviceError T)
    (more : Nat) :
    ∀ d : Device, ∃ n, (exchangeLoop command decode more d).2.sent =
      d.sent ++ List.replicate (n + 1) command := by
  induction more with
  | zero =>
      intro d
      have hsent := attempt_sent d command decode
      refine ⟨0, ?_⟩
      unfold exchangeLoop
      split <;> simp_all [dropSession]
  | succ more ih =>
      intro d
      have hsent := attempt_sent d command decode
      unfold exchangeLoop
      split
      next heq => exact ⟨0, by simp_all⟩
      next e at_ d' heq =>
        rw [heq] at hsent
        dsimp only
        split
        next =>
          obtain ⟨n, hn⟩ := ih d'.dropSession
          refine ⟨n + 1, ?_⟩
          rw [hn, List.replicate_succ (n := n + 1)]
          simp only [dropSession] at hsent ⊢
          simp [hsent]
        next => exact ⟨0, by simp_all [dropSession]⟩
      next heq => exact ⟨0, by simp_all⟩
      next heq => exact ⟨0, by simp_all⟩

theorem Device.exchange_sent (d : Device) (command : Octets)
    (decode : Octets → Exec DeviceError T) :
    ∃ n, (d.exchange command decode).2.sent = d.sent ++ List.replicate (n + 1) command :=
  exchangeLoop_sent command decode _ d

/-- The second query is sent, whatever becomes of it. -/
theorem Device.fetchMore_sent (d : Device) (caps : Capabilities) :
    ∃ n, (d.fetchMore caps).2.sent =
      d.sent ++ List.replicate (n + 1) (getMoreCapabilities d.nextId) := by
  obtain ⟨n, hn⟩ := exchange_sent (T := Capabilities) d.nextMessageId.2
    (getMoreCapabilities d.nextId) Capabilities.parse
  refine ⟨n, ?_⟩
  unfold fetchMore
  simp only [nextMessageId] at hn ⊢
  rw [← hn]
  split <;> simp_all only

/-- A frame that parses and decodes ends the exchange at its first attempt. -/
theorem Device.exchange_answered {d : Device} {command frame payload : Octets} {t : Nat}
    {line : List Attempt} {decode : Octets → Exec DeviceError T} {value : T}
    (hline : d.line = ⟨.ok frame, t⟩ :: line)
    (hparse : Frame.parse frame .airConditioner = .ok payload)
    (hdecode : decode payload = .ok value) :
    ∃ d', d.exchange command decode = (.ok value, d') ∧ d'.sent = d.sent ++ [command] ∧
      d'.nextId = d.nextId := by
  simp only [exchange, ATTEMPTS, exchangeLoop, attempt, tryExchange, hline, hparse, mapFail_ok,
    Outcome.ofExec_ok, hdecode]
  exact ⟨_, rfl, rfl, rfl⟩

end BreezeDevice
