import BreezeCore.Proto.Capabilities
import BreezeCore.Proto.Discover
import BreezeCore.Proto.Frame
import BreezeCore.Proto.Lan
import BreezeCore.Proto.Packet
import BreezeCore.Proto.Response

/-!
# The layers together

A command goes out as a frame in a V2 packet in an encrypted session packet, and
a reply comes back the same way.  `wrap` and `unwrap` are the two directions;
`unwrap_wrap` says that nothing is lost between them and that each of the three
length fields is the true length.  `outer_decoders_return` collects what the
layers outside the frame do on hostile input.
-/

namespace Stack

open Fallible Bytes Security

/-- An error of one of the three layers. -/
inductive StackError where
  | lan (e : Lan.LanError)
  | packet (e : Packet.PacketError)
  | frame (e : Frame.FrameError)
  deriving DecidableEq, Repr

variable (P : Primitives)

/-- What the layers add to a payload besides the payload itself. -/
structure Envelope where
  device : Frame.DeviceType
  frameType : Frame.FrameType
  deviceId : UInt64
  ts : Arr 8
  sessionKey : Arr 32
  packetId : UInt16
  padFiller : UInt8
  kind : Lan.PacketType

/-- The frame of a payload. -/
def frameOf (e : Envelope) (payload : Octets) : Octets :=
  Frame.build e.device e.frameType payload

/-- Encode a payload through the three layers. -/
def wrap (e : Envelope) (payload : Octets) : Exec StackError Octets := do
  let packet ← Packet.encodeAt P e.deviceId (frameOf e payload) e.ts
  mapFail .lan (Lan.encodeEncrypted P e.sessionKey e.packetId packet e.padFiller e.kind)

/-- Decode a session packet through the three layers. -/
def unwrap (sessionKey : Arr 32) (device : Frame.DeviceType) (bytes : Octets) :
    Exec StackError Octets := do
  let (_, packet) ← mapFail .lan (Lan.decodeEncrypted P bytes sessionKey)
  let frame ← mapFail .packet (Packet.decode P packet)
  mapFail .frame (Frame.parse frame device)

/-- **Whole-stack round trip.**  For every payload of at most 245 bytes and
everything the layers add to it, what is wrapped is unwrapped to the payload, the
session packet announces its own length, and so do the packet and the frame
inside it. -/
theorem unwrap_wrap (hP : P.Inverse) (e : Envelope) (hkind : e.kind.Encrypted)
    {payload : Octets} (hlen : payload.length ≤ 245) :
    ∃ packet bytes,
      (Packet.encodeAt P e.deviceId (frameOf e payload) e.ts : Exec StackError Octets) =
        .ok packet ∧
      wrap P e payload = .ok bytes ∧
      unwrap P e.sessionKey e.device bytes = .ok payload ∧
      Lan.packetLen bytes = some bytes.length ∧
      Packet.declared packet = packet.length ∧
      Frame.lengthByte (frameOf e payload) + 1 = (frameOf e payload).length := by
  obtain ⟨hparse, hbyte⟩ := Frame.parse_build e.device e.frameType hlen
  have hframe : (frameOf e payload).length ≤ 256 := by
    rw [frameOf, Frame.build_length, Frame.HEADER_LEN]
    omega
  obtain ⟨packet, hpacket, hsize, hdeclared, hdecode⟩ :=
    Packet.decode_encodeAt (ε := StackError) P hP e.deviceId e.ts (frameOf e payload)
      (by simp only [Packet.HEADER_LEN, Packet.TAIL_LEN]; omega)
  simp only [Packet.HEADER_LEN, Packet.TAIL_LEN] at hsize
  obtain ⟨bytes, hbytes, hpacketLen, -, hopen⟩ :=
    Lan.decodeEncrypted_encodeEncrypted P hP e.sessionKey e.packetId packet
      e.padFiller hkind (by omega)
  refine ⟨packet, bytes, hpacket, ?_, ?_, hpacketLen, hdeclared, hbyte⟩
  · rw [wrap, hpacket, ok_bind, hbytes, mapFail_ok]
  · rw [unwrap, hopen, mapFail_ok, ok_bind]
    dsimp only
    rw [hdecode, mapFail_ok, ok_bind]
    exact congrArg (mapFail StackError.frame) hparse

/-! ## One query -/

/-- A query of a unit, on a session key of zeros and with a filler byte of `0xFF`. -/
def queryEnvelope : Envelope :=
  ⟨.airConditioner, .query, 7, Arr.zero 8, Arr.zero 32, 1, 0xFF, .encryptedRequest⟩

/-- Its frame with the padding, in clear and as AES makes it. -/
def queryFrame : List (Arr 16 × Arr 16) :=
  [(⟨[170, 13, 172, 0, 0, 0, 0, 0, 0, 3, 181, 1, 0, 142, 2, 2], rfl⟩,
      ⟨[253, 14, 255, 128, 210, 2, 75, 138, 52, 164, 194, 136, 229, 163, 39, 157], rfl⟩)]

/-- The blocks that go through the cipher when its packet is chained. -/
def queryBlocks : List (Arr 16 × Arr 16) :=
  [(⟨[0, 1, 90, 90, 1, 17, 72, 0, 32, 0, 0, 0, 0, 0, 0, 0], rfl⟩,
      ⟨[2, 234, 170, 11, 158, 159, 148, 185, 152, 46, 127, 43, 197, 21, 239, 219], rfl⟩),
    (⟨[2, 234, 170, 11, 158, 159, 147, 185, 152, 46, 127, 43, 197, 21, 239, 219], rfl⟩,
      ⟨[6, 10, 68, 83, 53, 104, 194, 114, 85, 137, 212, 25, 139, 247, 202, 167], rfl⟩),
    (⟨[6, 10, 68, 83, 53, 104, 194, 114, 85, 137, 41, 23, 116, 119, 24, 165], rfl⟩,
      ⟨[114, 163, 102, 25, 218, 106, 158, 155, 176, 16, 213, 230, 80, 241, 59, 160], rfl⟩),
    (⟨[57, 41, 82, 189, 24, 226, 123, 56, 151, 141, 150, 215, 39, 208, 229, 247], rfl⟩,
      ⟨[236, 103, 199, 202, 165, 108, 255, 121, 93, 190, 17, 120, 236, 184, 175, 56], rfl⟩),
    (⟨[193, 151, 60, 113, 172, 89, 202, 179, 205, 249, 238, 135, 19, 71, 80, 199], rfl⟩,
      ⟨[196, 54, 242, 218, 237, 179, 108, 71, 44, 15, 28, 3, 251, 109, 2, 240], rfl⟩)]

/-- The MD5 digest of its packet with the signing key. -/
def querySign : Octets :=
  [67, 49, 119, 33, 222, 87, 45, 240, 251, 187, 9, 53, 53, 202, 144, 71]

/-- The SHA-256 digest of its session packet in clear. -/
def queryDigest : Octets :=
  [168, 93, 120, 21, 213, 26, 78, 42, 30, 255, 11, 205, 121, 147, 97, 31, 206, 139, 201, 37, 10,
   1, 146, 107, 4, 97, 130, 27, 48, 25, 13, 66]

/-- The crates, on this query. -/
def queryPrimitives : Primitives where
  md5 data := if data = SIGN_KEY then signKeyDigest else ⟨querySign, rfl⟩
  sha256 _ := ⟨queryDigest, rfl⟩
  aes128Encrypt _ := exchanging queryFrame
  aes128Decrypt _ := (exchanging queryFrame).symm
  aes256Encrypt _ := exchanging queryBlocks
  aes256Decrypt _ := (exchanging queryBlocks).symm

theorem queryPrimitives_inverse : queryPrimitives.Inverse :=
  ⟨fun _ => (exchanging queryFrame).symm_apply_apply,
    fun _ => (exchanging queryBlocks).symm_apply_apply⟩

/-- What goes out: the header, every block in cipher text, and the digest. -/
example : wrap queryPrimitives queryEnvelope [0xB5, 0x01, 0x00] =
    .ok ([131, 112, 0, 110, 32, 102] ++ queryBlocks.flatMap (fun block => block.2.val) ++
      queryDigest) := by decide +kernel

/-- The round trip of a three-byte query. -/
theorem unwrap_wrap_query :
    ∃ packet bytes, (Packet.encodeAt queryPrimitives 7
        (frameOf queryEnvelope [0xB5, 0x01, 0x00]) (Arr.zero 8) : Exec StackError Octets) =
        .ok packet ∧
      wrap queryPrimitives queryEnvelope [0xB5, 0x01, 0x00] = .ok bytes ∧
      unwrap queryPrimitives (Arr.zero 32) .airConditioner bytes = .ok [0xB5, 0x01, 0x00] ∧
      Lan.packetLen bytes = some bytes.length ∧
      Packet.declared packet = packet.length ∧
      Frame.lengthByte (frameOf queryEnvelope [0xB5, 0x01, 0x00]) + 1 =
        (frameOf queryEnvelope [0xB5, 0x01, 0x00]).length :=
  unwrap_wrap queryPrimitives queryPrimitives_inverse queryEnvelope (Or.inl rfl) (by decide)

/-- **No outer decoder panics.**  Every decoder of bytes from the network other
than the frame's returns a value or an error, whatever the bytes and keys. -/
theorem outer_decoders_return (bytes : Octets) (key : Arr 32) (sessionKey : Option (Arr 32))
    (src : Net.Ipv4Addr) :
    Returns (Lan.decode P bytes sessionKey) ∧
      Returns (Lan.decodeEncrypted P bytes key) ∧
      Returns (Lan.deriveSessionKey P key bytes) ∧
      Returns (Packet.decode P bytes) ∧
      Returns (Discover.parse P src bytes) ∧
      Returns (Ac.State.parse bytes) ∧
      Returns (Ac.Capabilities.parse bytes : Exec Empty Ac.Capabilities) :=
  ⟨Lan.returns_decode P bytes sessionKey, Lan.returns_decodeEncrypted P bytes key,
    Lan.returns_deriveSessionKey P key bytes, Packet.returns_decode P bytes,
    Discover.returns_parse P src bytes, Ac.State.returns_parse bytes,
    Ac.Capabilities.returns_parse bytes⟩

end Stack
