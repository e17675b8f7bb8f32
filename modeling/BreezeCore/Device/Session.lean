import BreezeCore.Device.Error

/-!
# A live session over any byte stream

A unit now and then ignores a request, so an unanswered one is sent again on the
same connection; nothing in a reply says which request it answers.  The defence
is to clear the line before every request: `drain` buffers what has arrived,
drops the whole packets in it and, when a fragment is left over, reads on until
that packet is complete and drops it too.

The line is the environment: lists of what reads without waiting, timed reads,
writes and looks at the clock will give.  A byte is kept with the number of
requests that had been written when it came in, which the code never looks at
and the theorems about stale replies do.
-/

namespace BreezeDevice

open Fallible Bytes Security

/-- Largest packet we will buffer from a unit. -/
def MAX_PACKET : Nat := 8192

/-- What one read delivers: at least a byte, and at most the buffer. -/
structure Chunk where
  bytes : Octets
  nonempty : bytes ≠ []
  fits : bytes.length ≤ 1024

/-- The result of a read.  No bytes means that the peer has closed. -/
inductive Answer where
  | closed
  | data (chunk : Chunk)
  | err (kind : IoKind)

/-- One turn of a timed read: its time is up, its deadline cannot be set, or the
read comes back. -/
inductive Turn where
  | expired
  | deadline (kind : IoKind)
  | answer (answer : Answer)

/-- A byte and how many requests had been written when it came in. -/
structure Received where
  byte : UInt8
  sends : Nat
  deriving DecidableEq, Repr

/-- What the stream under a session will do, and what was written to it. -/
structure Line where
  now : List Answer := []
  turns : List Turn := []
  writes : List (Option IoKind) := []
  /-- Whether the time to linger is up, look by look. -/
  clock : List Bool := []
  written : List Octets := []

structure Session where
  sessionKey : Option (Arr 32) := none
  packetId : UInt16 := 1
  /-- `timing.sends`: sends per request on one connection. -/
  sends : Nat := 3
  /-- Bytes received and not yet consumed as a packet. -/
  rx : List Received := []
  resends : Nat := 0
  discarded : Nat := 0
  line : Line

/-- The buffered bytes. -/
def Session.bytes (s : Session) : Octets := s.rx.map Received.byte

/-- How many requests have been written. -/
def Session.sent (s : Session) : Nat := s.line.written.length

/-- `self.rx.extend_from_slice`. -/
def Session.receive (s : Session) (chunk : Chunk) : Session :=
  { s with rx := s.rx ++ chunk.bytes.map fun byte => ⟨byte, s.sent⟩ }

/-- 12 bits, per the protocol. -/
def Session.bumpPacketId (s : Session) : Session :=
  { s with packetId := (s.packetId + 1) &&& 0xFFF }

/-- What the front of the buffer is. -/
inductive Head where
  /-- Not the start of a packet. -/
  | lost (first second : UInt8)
  /-- The start of a packet that is too large. -/
  | tooLarge (total : Nat)
  /-- The start of a packet that is not all there. -/
  | fragment
  /-- A packet of `total` bytes. -/
  | whole (total : Nat)
  deriving DecidableEq, Repr

/-- The tests of `take_packet`, in order. -/
def headOf (bytes : Octets) : Head :=
  -- Even a fragment must start like a packet.
  if 2 ≤ bytes.length ∧ bytes.take 2 ≠ [0x83, 0x70] then
    .lost (bytes.getD 0 0) (bytes.getD 1 0)
  else
    match Lan.packetLen bytes with
    | none => .fragment
    | some total =>
        if MAX_PACKET < total then .tooLarge total
        else if bytes.length < total then .fragment
        else .whole total

theorem headOf_whole {bytes : Octets} {total : Nat} (h : headOf bytes = .whole total) :
    8 ≤ total ∧ total ≤ bytes.length := by
  unfold headOf at h
  split at h
  next => cases h
  next =>
    split at h
    next => cases h
    next size hsize =>
      split at h
      next => cases h
      next =>
        split at h
        next => cases h
        next hlong =>
          cases h
          exact ⟨Lan.packetLen_ge hsize, by omega⟩

/-- What the front of the buffer is does not change when more arrives, unless it is
the start of a packet that is not all there. -/
theorem headOf_stable {bytes : Octets} (rest : Octets) (h : headOf bytes ≠ .fragment) :
    headOf (bytes ++ rest) = headOf bytes := by
  by_cases hlost : 2 ≤ bytes.length ∧ bytes.take 2 ≠ [0x83, 0x70]
  · obtain ⟨hlen, hmarker⟩ := hlost
    have htake : (bytes ++ rest).take 2 = bytes.take 2 := List.take_append_of_le_length hlen
    have hlonger : 2 ≤ (bytes ++ rest).length ∧ (bytes ++ rest).take 2 ≠ [0x83, 0x70] := by
      rw [List.length_append, htake]
      exact ⟨by omega, hmarker⟩
    unfold headOf
    rw [if_pos hlonger, if_pos ⟨hlen, hmarker⟩, List.getD_append _ _ _ _ (by omega),
      List.getD_append _ _ _ _ (by omega)]
  · unfold headOf at h ⊢
    rw [if_neg hlost] at h ⊢
    cases hsize : Lan.packetLen bytes with
    | none =>
        rw [hsize] at h
        exact absurd rfl h
    | some total =>
        have hsix := Lan.packetLen_isSome hsize
        have htake : (bytes ++ rest).take 2 = bytes.take 2 :=
          List.take_append_of_le_length (by omega)
        have hstart : ¬ (2 ≤ (bytes ++ rest).length ∧ (bytes ++ rest).take 2 ≠ [0x83, 0x70]) := by
          rw [htake]
          exact fun hbad => hlost ⟨by omega, hbad.2⟩
        rw [hsize] at h
        rw [Lan.packetLen_append rest hsix, hsize, if_neg hstart]
        dsimp only at h ⊢
        by_cases hlarge : MAX_PACKET < total
        · rw [if_pos hlarge, if_pos hlarge]
        · rw [if_neg hlarge] at h ⊢
          by_cases hshort : bytes.length < total
          · rw [if_pos hshort] at h
            exact absurd rfl h
          · rw [if_neg hlarge, if_neg hshort, if_neg (by rw [List.length_append]; omega)]

/-- A whole packet stays one, whatever arrives behind it. -/
theorem headOf_append {bytes : Octets} {total : Nat} (rest : Octets)
    (h : headOf bytes = .whole total) : headOf (bytes ++ rest) = .whole total := by
  rw [headOf_stable rest (by rw [h]; exact nofun), h]

/-- Split one complete packet off the front of the receive buffer. -/
def Session.takePacket (s : Session) : Except DeviceError (Option (List Received)) × Session :=
  match headOf s.bytes with
  | .lost first second => (.error (.protocol (.notAPacket first second)), { s with rx := [] })
  | .tooLarge total => (.error (.packetTooLarge total), { s with rx := [] })
  | .fragment => (.ok none, s)
  | .whole total => (.ok (some (s.rx.take total)), { s with rx := s.rx.drop total })

/-- The turns of `read_packet`. The buffer is looked at first, and only a fragment, or nothing,
reads on; a turn is one read of the socket or the clock running out. -/
def Session.readLoop : List Turn → Session → Outcome (List Received) × Session
  | turns, s =>
      match s.takePacket with
      | (.error e, s) => (.failed e, { s with line := { s.line with turns := turns } })
      | (.ok (some packet), s) => (.ok packet, { s with line := { s.line with turns := turns } })
      | (.ok none, s) =>
          match turns with
          | [] => (.waiting, { s with line := { s.line with turns := [] } })
          | .expired :: turns =>
              (.failed timedOut, { s with line := { s.line with turns := turns } })
          | .deadline kind :: turns =>
              (.failed (.io kind), { s with line := { s.line with turns := turns } })
          | .answer .closed :: turns =>
              (.failed closed, { s with line := { s.line with turns := turns } })
          | .answer (.data chunk) :: turns => readLoop turns (s.receive chunk)
          | .answer (.err kind) :: turns =>
              if kind = .interrupted then readLoop turns s
              else if kind = .wouldBlock ∨ kind = .timedOut then
                (.failed timedOut, { s with line := { s.line with turns := turns } })
              else (.failed (.io kind), { s with line := { s.line with turns := turns } })

/-- Read exactly one framed packet, however it is split across reads. -/
def Session.readPacket (s : Session) : Outcome (List Received) × Session :=
  readLoop s.line.turns s

/-- Buffer what has already arrived. -/
def Session.bufferNow : List Answer → Session → Outcome Unit × Session
  | [], s => (.waiting, { s with line := { s.line with now := [] } })
  | .closed :: now, s => (.failed closed, { s with line := { s.line with now := now } })
  | .data chunk :: now, s => bufferNow now (s.receive chunk)
  | .err kind :: now, s =>
      if kind = .wouldBlock then (.ok (), { s with line := { s.line with now := now } })
      else if kind = .interrupted then bufferNow now s
      else (.failed (.io kind), { s with line := { s.line with now := now } })

/-- Drop whole packets from the front of the buffer. -/
def Session.discardWhole : (fuel : Nat) → Session → Except DeviceError Unit × Session
  | 0, s => (.ok (), s)
  | fuel + 1, s =>
      match s.takePacket with
      | (.error e, s) => (.error e, s)
      | (.ok none, s) => (.ok (), s)
      | (.ok (some _), s) => discardWhole fuel { s with discarded := s.discarded + 1 }

/-- Discard whatever has arrived that no request is waiting for. Whole packets go at once; a
fragment behind them is read on to its end, and goes too. -/
def Session.drain (s : Session) : Outcome Unit × Session :=
  match bufferNow s.line.now s with
  | (.ok (), s) =>
      match discardWhole s.rx.length s with
      | (.error e, s) => (.failed e, s)
      | (.ok (), s) =>
          -- A fragment left over is the front of a stale packet still arriving.
          if s.rx = [] then (.ok (), s)
          else
            match s.readPacket with
            | (.ok _, s) => (.ok (), { s with discarded := s.discarded + 1 })
            | (.failed e, s) => (.failed e, s)
            | (.panicked, s) => (.panicked, s)
            | (.waiting, s) => (.waiting, s)
  | (other, s) => (other, s)

/-- `self.stream.write_all`. -/
def Session.writeAll (s : Session) (bytes : Octets) : Outcome Unit × Session :=
  match s.line.writes with
  | [] => (.waiting, s)
  | none :: writes =>
      (.ok (), { s with
        line := { s.line with writes := writes, written := s.line.written ++ [bytes] } })
  | some kind :: writes => (.failed (.io kind), { s with line := { s.line with writes := writes } })

/-- After a resent request, wait out the linger window and discard what
arrives. -/
def Session.absorbLoop : List Bool → Session → Outcome Unit × Session
  | [], s => (.waiting, { s with line := { s.line with clock := [] } })
  | true :: clock, s => (.ok (), { s with line := { s.line with clock := clock } })
  | false :: clock, s =>
      match s.readPacket with
      | (.ok _, s) => absorbLoop clock { s with discarded := s.discarded + 1 }
      | (.failed _, s) => (.ok (), { s with line := { s.line with clock := clock } })
      | (.panicked, s) => (.panicked, s)
      | (.waiting, s) => (.waiting, s)

/-- Send and wait, `more` further sends being allowed and `resent` done. Each send has the next
packet id, and only a timeout sends again. -/
def Session.sendLoop (encode : UInt16 → Exec Lan.LanError Octets) :
    (more : Nat) → (resent : Nat) → Session → Outcome (List Received) × Session
  | more, resent, s =>
      match encode s.packetId with
      | .error (.error e) => (.failed (.protocol e), s)
      | .error .panic => (.panicked, s)
      | .ok bytes =>
          match s.bumpPacketId.writeAll bytes with
          | (.failed e, s) => (.failed e, s)
          | (.panicked, s) => (.panicked, s)
          | (.waiting, s) => (.waiting, s)
          | (.ok (), s) =>
              match s.readPacket with
              | (.ok packet, s) =>
                  if resent = 0 then (.ok packet, s)
                  else
                    let s := { s with resends := s.resends + resent }
                    match absorbLoop s.line.clock s with
                    | (.ok (), s) => (.ok packet, s)
                    | (.failed e, s) => (.failed e, s)
                    | (.panicked, s) => (.panicked, s)
                    | (.waiting, s) => (.waiting, s)
              | (.failed e, s) =>
                  match more with
                  | 0 => (.failed e, s)
                  | more + 1 =>
                      if isTimeout e then sendLoop encode more (resent + 1) s else (.failed e, s)
              | (.panicked, s) => (.panicked, s)
              | (.waiting, s) => (.waiting, s)

/-- Send, wait, and resend on silence. -/
def Session.sendAndWait (s : Session) (encode : UInt16 → Exec Lan.LanError Octets) :
    Outcome (List Received) × Session :=
  sendLoop encode (s.sends - 1) 0 s

variable (P : Primitives)

/-- Perform the token handshake and derive the session key. The buffer is cleared first, and any
answer but the handshake's own is an error. -/
def Session.authenticate (s : Session) (token : Octets) (key : Arr 32) : Outcome Unit × Session :=
  match { s with rx := [] }.sendAndWait
      fun packetId => .ok (Lan.encodeHandshake packetId token) with
  | (.ok packet, s) =>
      match Lan.decode P (packet.map Received.byte) none with
      | .ok (.handshake payload) =>
          match Lan.deriveSessionKey P key payload with
          | .ok sessionKey => (.ok (), { s with sessionKey := some sessionKey })
          | .error (.error e) => (.failed (.protocol e), s)
          | .error .panic => (.panicked, s)
      | .ok (.response _) =>
          (.failed (.protocol (.unexpectedType Lan.PacketType.encryptedResponse.byte)), s)
      | .error (.error e) => (.failed (.protocol e), s)
      | .error .panic => (.panicked, s)
  | (.failed e, s) => (.failed e, s)
  | (.panicked, s) => (.panicked, s)
  | (.waiting, s) => (.waiting, s)

/-- The packet a request takes as its reply: the line is cleared, the request
sent, and the first packet to arrive taken. -/
def Session.takeReply (s : Session) (key : Arr 32) (packet : Octets) :
    Outcome (List Received) × Session :=
  match s.drain with
  | (.ok (), s) => s.sendAndWait fun packetId => Lan.encodeRequest P key packetId packet 0
  | (.failed e, s) => (.failed e, s)
  | (.panicked, s) => (.panicked, s)
  | (.waiting, s) => (.waiting, s)

/-- Send a V2 packet and return the V2 packet that comes back. Without a session key nothing is
sent. -/
def Session.request (s : Session) (packet : Octets) : Outcome Octets × Session :=
  match s.sessionKey with
  | none => (.failed .notAuthenticated, s)
  | some key =>
      match s.takeReply P key packet with
      | (.ok reply, s) =>
          match Lan.decode P (reply.map Received.byte) (some key) with
          | .ok (.response v2) => (.ok v2, s)
          | .ok (.handshake _) =>
              (.failed (.protocol (.unexpectedType Lan.PacketType.handshakeResponse.byte)), s)
          | .error (.error e) => (.failed (.protocol e), s)
          | .error .panic => (.panicked, s)
      | (.failed e, s) => (.failed e, s)
      | (.panicked, s) => (.panicked, s)
      | (.waiting, s) => (.waiting, s)

end BreezeDevice
