import BreezeCore.Proto.Frame
import BreezeCore.Proto.Lan
import BreezeCore.Proto.Packet
import BreezeCore.Proto.Response

/-!
# What can go wrong talking to a unit

The distinction that matters to callers is retryable or not: a timeout is worth
another attempt on a fresh connection, a rejected key never will be.

A call that talks to a unit can also still be waiting for it.  `Outcome` is the
result of such a call against an environment of which only a finite part is
given: when the given part is used up the call has not come back yet.
-/

namespace BreezeDevice

open Fallible

/-- `std::io::ErrorKind`, as far as the device layer tells kinds apart. -/
inductive IoKind where
  | timedOut
  | wouldBlock
  | connectionReset
  | connectionAborted
  | brokenPipe
  | unexpectedEof
  | interrupted
  | connectionRefused
  | other
  deriving DecidableEq, Repr

inductive DeviceError where
  /-- Socket-level failure: unreachable, refused, timed out, closed. -/
  | io (kind : IoKind)
  /-- Session framing or crypto. -/
  | protocol (e : Lan.LanError)
  /-- V2 packet framing or digest. -/
  | packet (e : Packet.PacketError)
  /-- Appliance frame framing or checksum. -/
  | frame (e : Frame.FrameError)
  /-- State report we could not read. -/
  | response (e : Ac.ResponseError)
  /-- A request was attempted before the handshake. -/
  | notAuthenticated
  /-- A unit claimed a packet size we refuse to allocate. -/
  | packetTooLarge (size : Nat)
  /-- This unit has no V3 credentials in the configuration. -/
  | missingCredentials
  /-- Ran out of attempts. -/
  | unreachable (attempts : Nat)
  deriving DecidableEq, Repr

/-- Whether another attempt could plausibly succeed. -/
def DeviceError.isRetryable : DeviceError → Bool
  | .io kind =>
      kind = .timedOut || kind = .wouldBlock || kind = .connectionReset ||
        kind = .connectionAborted || kind = .brokenPipe || kind = .unexpectedEof
  -- A stale session produces garbage that fails its signature.
  | .protocol .badSignature => true
  | .protocol (.incomplete _ _) => true
  | .notAuthenticated => true
  | _ => false

/-- No reply in time. -/
def timedOut : DeviceError := .io .timedOut

/-- The unit hung up. -/
def closed : DeviceError := .io .unexpectedEof

def isTimeout (e : DeviceError) : Bool := e = .io .timedOut

/-- How far a call has come: back with a value, back with an error, stopped by a
panic, or still waiting for the unit. -/
inductive Outcome (α : Type) where
  | ok (a : α)
  | failed (e : DeviceError)
  | panicked
  | waiting
  deriving DecidableEq, Repr

variable {α : Type}

/-- An outcome with its value changed, and its failure or panic as it is. -/
def Outcome.map {β : Type} (f : α → β) : Outcome α → Outcome β
  | .ok a => .ok (f a)
  | .failed e => .failed e
  | .panicked => .panicked
  | .waiting => .waiting

theorem Outcome.map_eq_ok {β : Type} {f : α → β} {outcome : Outcome α} {b : β}
    (h : outcome.map f = .ok b) : ∃ a, outcome = .ok a ∧ f a = b := by
  cases outcome with
  | ok a => exact ⟨a, rfl, Outcome.ok.inj h⟩
  | failed e => cases h
  | panicked => cases h
  | waiting => cases h

/-- The outcome of a computation that does not wait. -/
def Outcome.ofExec : Exec DeviceError α → Outcome α
  | .ok a => .ok a
  | .error (.error e) => .failed e
  | .error .panic => .panicked

@[simp] theorem Outcome.ofExec_ok (a : α) : Outcome.ofExec (.ok a) = .ok a := rfl

theorem Outcome.ofExec_eq_ok {x : Exec DeviceError α} {a : α} (h : Outcome.ofExec x = .ok a) :
    x = .ok a := by
  match x, h with
  | .ok _, h => exact congrArg _ (Outcome.ok.inj h)

end BreezeDevice
