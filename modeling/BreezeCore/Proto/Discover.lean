import BreezeCore.Lib.Ip
import BreezeCore.Proto.Security

/-!
# Finding units on the LAN

A fixed hello goes out by broadcast; anything that answers identifies itself in
a codebook-encrypted blob.  The reply's first two bytes say which generation of
the protocol it speaks, and a V3 reply is a V2 one in a wrapper.  Every range
here is taken with `get`, so a reply that lies about a length is an error.
-/

namespace Discover

open Fallible Bytes Security Net Text

/-- Which generation of the protocol a unit speaks. -/
inductive Version where
  /-- XML over TCP.  Not supported. -/
  | v1
  /-- Plain packets. -/
  | v2
  /-- Packets inside an authenticated session. -/
  | v3
  deriving DecidableEq, Repr

/-- What a unit told us about itself. -/
structure Discovered where
  /-- The address the reply was received from, which is authoritative. -/
  ip : Ipv4Addr
  /-- The address the unit claims. -/
  reportedIp : Ipv4Addr
  port : Nat
  id : Nat
  serialNumber : List Char
  ssid : List Char
  deviceType : UInt8
  version : Version
  deriving DecidableEq, Repr

inductive DiscoverError where
  /-- Header matched nothing we know. -/
  | unknownVersion (first second : UInt8)
  /-- V1 units need a TCP follow-up that is not implemented. -/
  | v1Unsupported
  /-- Reply was too short for the fields it must contain. -/
  | truncated (length : Nat)
  /-- Decryption or padding failed. -/
  | undecryptable
  /-- The SSID did not carry a parseable device type. -/
  | noDeviceType (ssid : List Char)
  deriving DecidableEq, Repr

/-- Identify the protocol generation from a reply's first bytes. -/
def versionOf : Octets → Exec DiscoverError Version
  | 0x5A :: 0x5A :: _ => pure .v2
  | 0x83 :: 0x70 :: _ => pure .v3
  -- V1 answers with XML rather than a binary header.
  | 0x3C :: _ => pure .v1
  | a :: b :: _ => fail (.unknownVersion a b)
  | reply => fail (.truncated reply.length)

/-- A value, or the error that the reply was cut short. -/
def orTruncated {α : Type} (length : Nat) : Option α → Exec DiscoverError α
  | some a => pure a
  | none => fail (.truncated length)

/-- `a.checked_sub(b)`. -/
def checkedSub (a b : Nat) : Option Nat := if b ≤ a then some (a - b) else none

/-- The appliance type in an SSID such as `net_ac_19CA`: the middle field, in
hexadecimal. -/
def deviceTypeOf (ssid : List Char) : Option UInt8 := do
  let field ← (split '_' ssid)[1]?
  let n ← fromStrRadix 16 256 field
  some (UInt8.ofNat n)

variable (P : Primitives)

/-- The V2 reply in what was received: a V3 reply has an 8-byte header in front
of it and a 16-byte hash behind. -/
def bodyOf (version : Version) (reply : Octets) : Exec DiscoverError Octets :=
  if version = .v3 then do
    let stop ← orTruncated reply.length (checkedSub reply.length 16)
    orTruncated reply.length (getRange? reply 8 stop)
  else pure reply

/-- Parse a discovery reply received from `src`. Every slice is tested for its bounds, and a reply
that is too short for one is truncated. -/
def parse (src : Ipv4Addr) (reply : Octets) : Exec DiscoverError Discovered := do
  let version ← versionOf reply
  if version = .v1 then fail .v1Unsupported
  else do
    let body ← bodyOf version reply
    let stop ← orTruncated reply.length (checkedSub body.length 16)
    let encrypted ← orTruncated reply.length (getRange? body 40 stop)
    let idBytes ← orTruncated reply.length (getRange? body 20 26)
    let plain ← mapFail (fun _ => DiscoverError.undecryptable) (decryptAes P encrypted)
    if plain.length < 41 then fail (.truncated plain.length)
    else do
      let p0 ← index plain 0
      let p1 ← index plain 1
      let p2 ← index plain 2
      let p3 ← index plain 3
      let p4 ← index plain 4
      let p5 ← index plain 5
      let serialBytes ← slice plain 8 40
      let nameLen ← index plain 40
      let nameBytes ← orTruncated plain.length (getRange? plain 41 (41 + nameLen.toNat))
      let ssid := fromUtf8Lossy nameBytes
      match deviceTypeOf ssid with
      | none => fail (.noDeviceType ssid)
      | some deviceType =>
          pure {
            ip := src
            -- The address is stored most significant octet last.
            reportedIp := ⟨p3, p2, p1, p0⟩
            port := ofLeBytes [p4, p5]
            id := ofLeBytes idBytes
            serialNumber := fromUtf8Lossy serialBytes
            ssid := ssid
            deviceType := deviceType
            version := version }

theorem returns_versionOf (reply : Octets) : Returns (versionOf reply) := by
  unfold versionOf
  split <;> trivial

@[simp] theorem returns_orTruncated {α : Type} (length : Nat) (x : Option α) :
    Returns (orTruncated length x) := by
  cases x <;> trivial

theorem returns_bodyOf (version : Version) (reply : Octets) :
    Returns (bodyOf version reply) := by
  unfold bodyOf
  split
  next => exact returns_bind (returns_orTruncated _ _) fun _ _ => returns_orTruncated _ _
  next => trivial

/-- **The reply decoder is total.**  Every range is a checked one, and the few
fixed positions lie in front of the 41 bytes it insists on. -/
theorem returns_parse (src : Ipv4Addr) (reply : Octets) : Returns (parse P src reply) := by
  unfold parse
  refine returns_bind (returns_versionOf reply) fun version _ => ?_
  split
  next => trivial
  next =>
    refine returns_bind (returns_bodyOf version reply) fun body _ => ?_
    refine returns_bind (returns_orTruncated _ _) fun stop _ => ?_
    refine returns_bind (returns_orTruncated _ _) fun encrypted _ => ?_
    refine returns_bind (returns_orTruncated _ _) fun idBytes _ => ?_
    refine returns_bind ?_ fun plain _ => ?_
    · rw [returns_mapFail]
      exact returns_decryptAes P encrypted
    · split
      next => trivial
      next hlen =>
        rw [index_eq (by omega), ok_bind, index_eq (by omega), ok_bind, index_eq (by omega),
          ok_bind, index_eq (by omega), ok_bind, index_eq (by omega), ok_bind,
          index_eq (by omega), ok_bind, slice_eq (by omega) (by omega), ok_bind,
          index_eq (by omega), ok_bind]
        refine returns_bind (returns_orTruncated _ _) fun nameBytes _ => ?_
        dsimp only
        split <;> trivial

end Discover
