import BreezeCore.Proto.Security
import Mathlib.Data.List.GetD

/-!
# The V3 session packet

Framing, the token handshake and the encrypted packets of either direction.
The length field counts the payload, its padding and the signature but not the
packet id in front of the payload, which is why a packet is eight bytes longer
than it says; the packet id does count for the block alignment.

`returns_decodeEncrypted` says that nothing panics in the encrypted half, and
`decodeEncrypted_encodeEncrypted` is its round trip.
-/

namespace Lan

open Fallible Bytes Security

/-- Packet types in the low nibble of the flags byte. -/
inductive PacketType where
  | handshakeRequest
  | handshakeResponse
  | encryptedResponse
  | encryptedRequest
  | error
  deriving DecidableEq, Repr

/-- `packet_type as u8`. -/
def PacketType.byte : PacketType → UInt8
  | .handshakeRequest => 0x0
  | .handshakeResponse => 0x1
  | .encryptedResponse => 0x3
  | .encryptedRequest => 0x6
  | .error => 0xF

inductive LanError where
  | tooShort (length : Nat)
  | notAPacket (first second : UInt8)
  | badMagic (magic : UInt8)
  | incomplete (need have_ : Nat)
  /-- The device answered with an explicit error packet. -/
  | deviceError
  | unexpectedType (kind : UInt8)
  /-- Signature over the plaintext did not match. -/
  | badSignature
  /-- The handshake payload was not the expected 64 bytes. -/
  | badHandshakeLength (length : Nat)
  /-- The key we hold does not match what the device expects. -/
  | rejected
  | crypto (e : CryptoError)
  deriving DecidableEq, Repr

/-- How many bytes the packet starting at `buf` will be, once complete; no
value until the six header bytes have arrived. -/
def packetLen (buf : Octets) : Option Nat :=
  if h : buf.length < 6 then none
  else some (ofBeBytes [buf[2], buf[3]] + 8)

def header (length : Nat) (flags : UInt8) : Octets :=
  [0x83, 0x70] ++ beBytes 2 length ++ [0x20, flags]

/-- Build the handshake request that opens a session: the token, unencrypted. -/
def encodeHandshake (packetId : UInt16) (token : Octets) : Octets :=
  header token.length PacketType.handshakeRequest.byte ++ beBytes 2 packetId.toNat ++ token

variable (P : Primitives)

/-- Derive the session key from a handshake response. -/
def deriveSessionKey (key : Arr 32) (response : Octets) : Exec LanError (Arr 32) :=
  if response.length ≠ 64 then fail (.badHandshakeLength response.length)
  else do
    let sealed ← sliceTo response 32
    let plain ← mapFail .crypto (decryptAesCbc P key sealed)
    let digest ← sliceFrom response 32
    if (P.sha256 plain).val ≠ digest then fail .rejected
    else do
      let front ← sliceTo plain 32
      let mask ← Arr.fromSlice 32 front
      pure (mask.xor key)

/-- How many alignment bytes follow `length` bytes of data: the packet id
counts towards the alignment. -/
def padding (length : Nat) : Nat :=
  let remainder := (length + 2) % 16
  if remainder ≠ 0 then 16 - remainder else 0

/-- Encrypted framing for either direction. -/
def encodeEncrypted (sessionKey : Arr 32) (packetId : UInt16) (data : Octets)
    (padFiller : UInt8) (packetType : PacketType) : Exec LanError Octets := do
  let pad := padding data.length
  let length := data.length + pad + 32
  let hdr := header length ((UInt8.ofNat pad <<< 4) ||| packetType.byte)
  let payload := beBytes 2 packetId.toNat ++ data ++ List.replicate pad padFiller
  let digest := P.sha256 (hdr ++ payload)
  let sealed ← mapFail .crypto (encryptAesCbc P sessionKey payload)
  pure (hdr ++ sealed ++ digest.val)

/-- Wrap `data` (a V2 packet) as an encrypted request. -/
def encodeRequest (sessionKey : Arr 32) (packetId : UInt16) (data : Octets)
    (padFiller : UInt8) : Exec LanError Octets :=
  encodeEncrypted P sessionKey packetId data padFiller .encryptedRequest

/-- The type an encrypted packet may carry: a request or a response. -/
def encryptedKind (flags : UInt8) : Exec LanError PacketType :=
  let kind := flags &&& 0xF
  if kind = PacketType.encryptedRequest.byte then .ok .encryptedRequest
  else if kind = PacketType.encryptedResponse.byte then .ok .encryptedResponse
  else fail (.unexpectedType kind)

/-- Verify and decrypt an encrypted packet of either direction. The digest is over the header and
the plain text, and the padding is told by the flags. -/
def decodeEncrypted (packet : Octets) (sessionKey : Arr 32) :
    Exec LanError (PacketType × Octets) :=
  if packet.length < 6 + 32 then fail (.tooShort packet.length)
  else do
    let flags ← index packet 5
    let kind ← encryptedKind flags
    let (hdr, rest) ← splitAt packet 6
    let cut ← sub rest.length 32
    let (body, rxDigest) ← splitAt rest cut
    let plain ← mapFail .crypto (decryptAesCbc P sessionKey body)
    if (P.sha256 (hdr ++ plain)).val ≠ rxDigest then fail .badSignature
    else do
      let pad := (flags >>> 4).toNat
      if plain.length < 2 + pad then fail (.tooShort plain.length)
      else do
        let stop ← sub plain.length pad
        let data ← slice plain 2 stop
        pure (kind, data)

/-- The payload of a decoded packet. -/
inductive Decoded where
  /-- 64 bytes to feed to `deriveSessionKey`. -/
  | handshake (payload : Octets)
  /-- A V2 packet. -/
  | response (v2 : Octets)
  deriving DecidableEq, Repr

/-- Verify and unwrap a received packet.  The session key is only needed for
encrypted responses. -/
def decode (packet : Octets) (sessionKey : Option (Arr 32)) : Exec LanError Decoded :=
  if packet.length < 8 then fail (.tooShort packet.length)
  else do
    let start ← sliceTo packet 2
    if start ≠ [0x83, 0x70] then do
      let first ← index packet 0
      let second ← index packet 1
      fail (.notAPacket first second)
    else do
      let magic ← index packet 4
      if magic ≠ 0x20 then fail (.badMagic magic)
      else do
        let need ← expect (packetLen packet)
        if packet.length < need then fail (.incomplete need packet.length)
        else do
          let packet ← sliceTo packet need
          let flags ← index packet 5
          let kind := flags &&& 0xF
          if kind = PacketType.error.byte then fail .deviceError
          else if kind = PacketType.handshakeResponse.byte then do
            let payload ← sliceFrom packet 8
            pure (.handshake payload)
          else if kind = PacketType.encryptedResponse.byte then
            match sessionKey with
            | none => fail (.unexpectedType kind)
            | some key => do
                let (_, payload) ← decodeEncrypted P packet key
                pure (.response payload)
          else fail (.unexpectedType kind)

/-! ## No packet makes a decoder panic -/

theorem packetLen_eq {buf : Octets} (h : 6 ≤ buf.length) :
    packetLen buf = some (ofBeBytes [buf.getD 2 0, buf.getD 3 0] + 8) := by
  rw [packetLen, dif_neg (by omega), List.getD_eq_getElem _ _ (by omega),
    List.getD_eq_getElem _ _ (by omega)]

/-- A packet is never shorter than its header and packet id. -/
theorem packetLen_ge {buf : Octets} {total : Nat} (h : packetLen buf = some total) :
    8 ≤ total := by
  unfold packetLen at h
  split at h
  next => cases h
  next => have := Option.some.inj h; omega

/-- There is a length once the header is there. -/
theorem packetLen_isSome {buf : Octets} {total : Nat} (h : packetLen buf = some total) :
    6 ≤ buf.length := by
  unfold packetLen at h
  split at h
  next => cases h
  next hlen => exact Nat.le_of_not_lt hlen

/-- The length in a header does not depend on what follows it. -/
theorem packetLen_append {buf : Octets} (rest : Octets) (h : 6 ≤ buf.length) :
    packetLen (buf ++ rest) = packetLen buf := by
  rw [packetLen_eq h, packetLen_eq (by rw [List.length_append]; omega),
    List.getD_append _ _ _ _ (by omega), List.getD_append _ _ _ _ (by omega)]

/-- **Key derivation is total.** The answer is tested for its 64 bytes first, and every slice is
within them. -/
theorem returns_deriveSessionKey (key : Arr 32) (response : Octets) :
    Returns (deriveSessionKey P key response) := by
  unfold deriveSessionKey
  split
  next => trivial
  next hlen =>
    have h64 : response.length = 64 := by simpa using hlen
    rw [sliceTo_eq (by omega), ok_bind]
    refine returns_bind ?_ fun plain hplain => ?_
    · rw [returns_mapFail]
      exact returns_decryptAesCbc P key _
    · have hsize : plain.length = 32 := by
        rw [decryptAesCbc_length P (mapFail_eq_ok hplain), List.length_take, h64]
        rfl
      rw [sliceFrom_eq (by omega), ok_bind]
      split
      next => trivial
      next =>
        rw [sliceTo_eq (by omega), ok_bind, Arr.fromSlice_eq (by rw [List.length_take]; omega)]
        trivial

theorem returns_encryptedKind (flags : UInt8) : Returns (encryptedKind flags) := by
  unfold encryptedKind
  dsimp only
  split
  next => trivial
  next => split <;> trivial

/-- **The encrypted decoder is total**, whatever the padding nibble and the
length of the body claim. -/
theorem returns_decodeEncrypted (packet : Octets) (sessionKey : Arr 32) :
    Returns (decodeEncrypted P packet sessionKey) := by
  unfold decodeEncrypted
  split
  next => trivial
  next hshort =>
    have hrest : (packet.drop 6).length = packet.length - 6 := List.length_drop
    rw [index_eq (by omega), ok_bind]
    refine returns_bind (returns_encryptedKind _) fun kind _ => ?_
    rw [splitAt_eq (by omega), ok_bind]
    dsimp only
    rw [sub_eq (by omega), ok_bind, splitAt_eq (by omega), ok_bind]
    refine returns_bind ?_ fun plain _ => ?_
    · rw [returns_mapFail]
      exact returns_decryptAesCbc P sessionKey _
    · dsimp only
      split
      next => trivial
      next =>
        split
        next => trivial
        next hpad =>
          rw [sub_eq (by omega), ok_bind, slice_eq (by omega) (by omega)]
          trivial

/-- **The packet decoder is total**, for every key or none. Each slice and each subtraction is
behind a test of the length, also in the packets that are sealed. -/
theorem returns_decode (packet : Octets) (sessionKey : Option (Arr 32)) :
    Returns (decode P packet sessionKey) := by
  unfold decode
  split
  next => trivial
  next hshort =>
    rw [sliceTo_eq (by omega), ok_bind]
    split
    next =>
      rw [index_eq (by omega), ok_bind, index_eq (by omega), ok_bind]
      trivial
    next =>
      rw [index_eq (by omega), ok_bind]
      split
      next => trivial
      next =>
        have hlen : packetLen packet = some (ofBeBytes [packet.getD 2 0, packet.getD 3 0] + 8) :=
          packetLen_eq (by omega)
        have hge := packetLen_ge hlen
        rw [hlen, expect_some, ok_bind]
        split
        next => trivial
        next hfull =>
          rw [sliceTo_eq (by omega), ok_bind, index_eq (by rw [List.length_take]; omega), ok_bind]
          dsimp only
          split
          next => trivial
          next =>
            split
            next =>
              rw [sliceFrom_eq (by rw [List.length_take]; omega)]
              trivial
            next =>
              split
              next =>
                split
                next => trivial
                next => exact returns_bind (returns_decodeEncrypted P _ _) fun _ _ => trivial
              next => trivial

/-! ## What is encoded is decoded -/

@[simp] theorem header_length (length : Nat) (flags : UInt8) :
    (header length flags).length = 6 := by
  simp [header]

theorem padding_lt (length : Nat) : padding length < 16 := by
  unfold padding
  dsimp only
  split <;> omega

/-- The padding completes the last block, and adds nothing to a full one. -/
theorem padding_aligns (length : Nat) : (2 + length + padding length) % 16 = 0 := by
  unfold padding
  dsimp only
  split <;> omega

/-- A padding nibble and a packet type share the flags byte and are read back
apart. -/
theorem flags_read_back {pad : Nat} (hpad : pad < 16) (kind : PacketType) :
    ((UInt8.ofNat pad <<< 4) ||| kind.byte) &&& 0xF = kind.byte ∧
      (((UInt8.ofNat pad <<< 4) ||| kind.byte) >>> 4).toNat = pad := by
  have hall : ∀ pad : Fin 16, ∀ kind ∈ [PacketType.handshakeRequest, .handshakeResponse,
      .encryptedResponse, .encryptedRequest, .error],
      ((UInt8.ofNat pad <<< 4) ||| kind.byte) &&& 0xF = kind.byte ∧
        (((UInt8.ofNat pad <<< 4) ||| kind.byte) >>> 4).toNat = pad := by decide
  exact hall ⟨pad, hpad⟩ kind (by cases kind <;> simp)

/-- The two directions a packet can be encrypted for. -/
def PacketType.Encrypted (kind : PacketType) : Prop :=
  kind = .encryptedRequest ∨ kind = .encryptedResponse

theorem encryptedKind_eq {flags : UInt8} {kind : PacketType} (hkind : kind.Encrypted)
    (hflags : flags &&& 0xF = kind.byte) : encryptedKind flags = .ok kind := by
  unfold encryptedKind
  rcases hkind with rfl | rfl <;> simp [hflags, PacketType.byte]

/-- The length an encoded packet announces, before any question of wrapping. -/
theorem packetLen_header_append (length : Nat) (flags : UInt8) (rest : Octets) :
    packetLen (header length flags ++ rest) = some (length % 65536 + 8) := by
  have hsix : 6 ≤ (header length flags ++ rest).length := by simp
  have hfield : ofBeBytes (beBytes 2 length) = length % 65536 := by
    rw [ofBeBytes, beBytes, List.reverse_reverse]
    exact ofLeBytes_leBytes 2 length
  rw [packetLen_eq hsix, ← hfield]
  rfl

/-- **Session round trip.**  For every data short enough for the length field,
every packet id and every padding filler: the packet decodes to the data and
its direction, it announces its own length, and the filler is gone. -/
theorem decodeEncrypted_encodeEncrypted (hP : P.Inverse) (sessionKey : Arr 32)
    (packetId : UInt16) (data : Octets) (padFiller : UInt8) {kind : PacketType}
    (hkind : kind.Encrypted) (hlen : data.length + 47 < 65536) :
    ∃ packet, encodeEncrypted P sessionKey packetId data padFiller kind = .ok packet ∧
      packetLen packet = some packet.length ∧
      packet.length = data.length + padding data.length + 40 ∧
      decodeEncrypted P packet sessionKey = .ok (kind, data) := by
  have hpad := padding_lt data.length
  let payload := beBytes 2 packetId.toNat ++ data ++ List.replicate (padding data.length) padFiller
  let hdr := header (data.length + padding data.length + 32)
    ((UInt8.ofNat (padding data.length) <<< 4) ||| kind.byte)
  have hpayload : payload.length = 2 + data.length + padding data.length := by
    simp [payload, Nat.add_assoc]
  have hhdr : hdr.length = 6 := header_length _ _
  obtain ⟨sealed, hsealed, hsize, hopen⟩ := decryptAesCbc_encryptAesCbc P hP sessionKey
    payload (by rw [hpayload]; exact padding_aligns _)
  have hdigest : (P.sha256 (hdr ++ payload)).val.length = 32 := (P.sha256 _).property
  let packet := hdr ++ sealed ++ (P.sha256 (hdr ++ payload)).val
  have htotal : packet.length = data.length + padding data.length + 40 := by
    simp only [packet, List.length_append, hhdr, hdigest, hsize, hpayload]
    omega
  obtain ⟨hlow, hhigh⟩ := flags_read_back hpad kind
  have hfive : 5 < packet.length := by omega
  have hflag : packet[5] =
      (UInt8.ofNat (padding data.length) <<< 4) ||| kind.byte := rfl
  have hsplit : packet.drop 6 = sealed ++ (P.sha256 (hdr ++ payload)).val := by
    simp only [packet, List.append_assoc]
    exact List.drop_left' hhdr
  have hfront : packet.take 6 = hdr := by
    simp only [packet, List.append_assoc]
    exact List.take_left' hhdr
  have hcut : (packet.drop 6).length - 32 = sealed.length := by
    rw [hsplit, List.length_append, hdigest]
    omega
  refine ⟨packet, ?_, ?_, htotal, ?_⟩
  · rw [encodeEncrypted]
    simp only [show encryptAesCbc P sessionKey (beBytes 2 packetId.toNat ++ data ++
      List.replicate (padding data.length) padFiller) = .ok sealed from hsealed, mapFail_ok,
      ok_bind]
    rfl
  · rw [htotal]
    simp only [packet, hdr, List.append_assoc]
    rw [packetLen_header_append, Nat.mod_eq_of_lt (by omega)]
  · rw [decodeEncrypted, if_neg (by omega), index_eq (by omega), ok_bind, hflag,
      encryptedKind_eq hkind hlow, ok_bind, splitAt_eq (by omega), ok_bind]
    dsimp only
    rw [sub_eq (by rw [hsplit, List.length_append, hdigest]; omega), ok_bind, hcut,
      splitAt_eq (by rw [hsplit, List.length_append]; omega), ok_bind]
    dsimp only
    rw [hsplit, List.take_left, List.drop_left, hopen, mapFail_ok, ok_bind, hfront,
      if_neg (not_not_intro rfl), hhigh, if_neg (by omega), sub_eq (by omega), ok_bind,
      slice_eq (by omega) (by omega), ok_bind]
    have hstop : payload.length - padding data.length = 2 + data.length := by omega
    have hkeep : payload.take (2 + data.length) = beBytes 2 packetId.toNat ++ data :=
      List.take_left' (by simp)
    rw [hstop, hkeep, List.drop_left' (by simp)]
    rfl

end Lan
