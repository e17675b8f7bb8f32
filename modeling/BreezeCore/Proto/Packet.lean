import BreezeCore.Proto.Security
import Mathlib.Data.List.GetD

/-!
# The V2 packet

A framed message wrapped in a 40-byte header, encrypted block by block, with an
MD5 tail over all of it.  `decode_cases` is the decoder's whole contract in
front of the cipher: which packets get as far as decryption, and what is
decrypted there.
-/

namespace Packet

open Fallible Bytes Security

def HEADER_LEN : Nat := 40
def TAIL_LEN : Nat := 16

inductive PacketError where
  | tooShort (length : Nat)
  | notAPacket (first second : UInt8)
  | truncated (declared actual : Nat)
  /-- The MD5 tail did not match, so the packet was corrupted or forged. -/
  | badDigest
  | crypto (e : CryptoError)
  deriving DecidableEq, Repr

variable (P : Primitives)

/-- The 40 header bytes of a packet carrying `bodyLength` encrypted bytes. -/
def header (deviceId : UInt64) (bodyLength : Nat) (ts : Arr 8) : Octets :=
  [0x5A, 0x5A, 0x01, 0x11] ++ leBytes 2 (HEADER_LEN + bodyLength + TAIL_LEN) ++ [0x20, 0x00] ++
    List.replicate 4 0 ++ ts.val ++ leBytes 8 deviceId.toNat ++ List.replicate 12 0

/-- Wrap a framed message in a V2 packet addressed to `deviceId`. -/
def encodeAt {ε : Type} (deviceId : UInt64) (frame : Octets) (ts : Arr 8) : Exec ε Octets := do
  let body ← encryptAes P frame
  let p := header deviceId body.length ts ++ body
  pure (p ++ (sign P p).val)

/-- Verify a V2 packet and return the framed message inside it. The length it declares may be less
than what came, and the rest is dropped. -/
def decode (packet : Octets) : Exec PacketError Octets :=
  if packet.length < HEADER_LEN + TAIL_LEN then fail (.tooShort packet.length)
  else do
    let magic ← sliceTo packet 2
    if magic ≠ [0x5A, 0x5A] then do
      let first ← index packet 0
      let second ← index packet 1
      fail (.notAPacket first second)
    else do
      let low ← index packet 4
      let high ← index packet 5
      let declared := ofLeBytes [low, high]
      if packet.length < declared ∨ declared < HEADER_LEN + TAIL_LEN then
        fail (.truncated declared packet.length)
      else do
        let packet ← sliceTo packet declared
        let split ← sub packet.length TAIL_LEN
        let signed ← sliceTo packet split
        let tail ← sliceFrom packet split
        if (sign P signed).val ≠ tail then fail .badDigest
        else do
          let body ← slice packet HEADER_LEN split
          mapFail .crypto (decryptAes P body)

/-- What the length field of a packet says. -/
def declared (packet : Octets) : Nat := ofLeBytes [packet.getD 4 0, packet.getD 5 0]

/-- The packet passes every check in front of the cipher. -/
structure WellFormed (packet : Octets) : Prop where
  magic : packet.take 2 = [0x5A, 0x5A]
  covers : HEADER_LEN + TAIL_LEN ≤ declared packet
  arrived : declared packet ≤ packet.length
  signed : (sign P (packet.take (declared packet - TAIL_LEN))).val =
    (packet.take (declared packet)).drop (declared packet - TAIL_LEN)

/-- The encrypted part of a packet. -/
def body (packet : Octets) : Octets :=
  (packet.take (declared packet - TAIL_LEN)).drop HEADER_LEN

/-- **The decoder, check by check.**  A packet is refused with an error exactly
when it is not well formed; otherwise its body is decrypted. -/
theorem decode_cases (packet : Octets) :
    (¬ WellFormed P packet ∧ ∃ e, decode P packet = fail e) ∨
      (WellFormed P packet ∧ decode P packet = mapFail .crypto (decryptAes P (body packet))) := by
  have htail : TAIL_LEN = 16 := rfl
  have h40 : HEADER_LEN = 40 := rfl
  unfold decode
  split
  next hshort =>
    refine Or.inl ⟨fun hwf => ?_, _, rfl⟩
    have := hwf.covers
    have := hwf.arrived
    omega
  next hshort =>
    rw [sliceTo_eq (by omega), ok_bind]
    split
    next hmagic =>
      rw [index_eq (by omega), ok_bind, index_eq (by omega), ok_bind]
      exact Or.inl ⟨fun hwf => hmagic hwf.magic, _, rfl⟩
    next hmagic =>
      have hlow : packet[4] = packet.getD 4 0 := (List.getD_eq_getElem _ _ (by omega)).symm
      have hhigh : packet[5] = packet.getD 5 0 := (List.getD_eq_getElem _ _ (by omega)).symm
      rw [index_eq (by omega), ok_bind, index_eq (by omega), ok_bind, hlow, hhigh,
        show ofLeBytes [packet.getD 4 0, packet.getD 5 0] = declared packet from rfl]
      dsimp only
      split
      next hlen =>
        refine Or.inl ⟨fun hwf => ?_, _, rfl⟩
        have := hwf.covers
        have := hwf.arrived
        omega
      next hlen =>
        have hcut : (packet.take (declared packet)).length = declared packet := by
          rw [List.length_take]
          omega
        have hsigned : (packet.take (declared packet)).take (declared packet - TAIL_LEN) =
            packet.take (declared packet - TAIL_LEN) := by
          rw [List.take_take, Nat.min_eq_left (by omega)]
        rw [sliceTo_eq (by omega : declared packet ≤ packet.length), ok_bind, hcut,
          sub_eq (by omega), ok_bind, sliceTo_eq (by omega), ok_bind, sliceFrom_eq (by omega),
          ok_bind, hsigned]
        split
        next hsign => exact Or.inl ⟨fun hwf => hsign hwf.signed, _, rfl⟩
        next hsign =>
          rw [slice_eq (by omega) (by omega), ok_bind, hsigned]
          exact Or.inr ⟨⟨by simpa using hmagic, by omega, by omega, by simpa using hsign⟩, rfl⟩

/-- **The packet decoder is total.** -/
theorem returns_decode (packet : Octets) : Returns (decode P packet) := by
  rcases decode_cases P packet with ⟨_, e, h⟩ | ⟨_, h⟩
  · rw [h]
    trivial
  · rw [h, returns_mapFail]
    exact returns_decryptAes P (body packet)

/-! ## What is encoded is decoded -/

@[simp] theorem header_length (deviceId : UInt64) (bodyLength : Nat) (ts : Arr 8) :
    (header deviceId bodyLength ts).length = HEADER_LEN := by
  simp [header, ts.property, HEADER_LEN]

/-- The first six header bytes: the magic, two constants and the length. -/
private theorem header_eq (deviceId : UInt64) (bodyLength : Nat) (ts : Arr 8) :
    ∃ rest, header deviceId bodyLength ts = 0x5A :: 0x5A :: 0x01 :: 0x11 ::
      UInt8.ofNat (HEADER_LEN + bodyLength + TAIL_LEN) ::
      UInt8.ofNat ((HEADER_LEN + bodyLength + TAIL_LEN) / 256) :: rest := by
  simp only [header, leBytes, List.cons_append, List.nil_append, List.append_assoc]
  exact ⟨_, rfl⟩

/-- The length field of an encoded packet, before any question of wrapping. -/
theorem declared_header_append (deviceId : UInt64) (bodyLength : Nat) (ts : Arr 8)
    (rest : Octets) :
    declared (header deviceId bodyLength ts ++ rest) =
      (HEADER_LEN + bodyLength + TAIL_LEN) % 65536 := by
  obtain ⟨tail, htail⟩ := header_eq deviceId bodyLength ts
  have hlen : ofLeBytes (leBytes 2 (HEADER_LEN + bodyLength + TAIL_LEN)) =
      (HEADER_LEN + bodyLength + TAIL_LEN) % 65536 := ofLeBytes_leBytes 2 _
  rw [htail, ← hlen]
  rfl

/-- **Packet round trip.**  A frame short enough for the length field comes
back, the length field says how long the packet is, and the packet is as long
as its header, its blocks and its tail. -/
theorem decode_encodeAt (hP : P.Inverse) {ε : Type} (deviceId : UInt64) (ts : Arr 8)
    (frame : Octets) (hlen : HEADER_LEN + 16 * (frame.length / 16 + 1) + TAIL_LEN < 65536) :
    ∃ packet, (encodeAt P deviceId frame ts : Exec ε Octets) = .ok packet ∧
      packet.length = HEADER_LEN + 16 * (frame.length / 16 + 1) + TAIL_LEN ∧
      declared packet = packet.length ∧
      decode P packet = .ok frame := by
  obtain ⟨sealed, hsealed, hsize, hopen⟩ := decryptAes_encryptAes (ε := ε) P hP frame
  have htail : TAIL_LEN = 16 := rfl
  have h40 : HEADER_LEN = 40 := rfl
  let signed := header deviceId sealed.length ts ++ sealed
  have hsignedLen : signed.length = HEADER_LEN + sealed.length := by
    rw [List.length_append, header_length]
  have hpacketLen : (signed ++ (sign P signed).val).length =
      HEADER_LEN + sealed.length + TAIL_LEN := by
    rw [List.length_append, hsignedLen, (sign P signed).property, htail]
  have hdecl : declared (signed ++ (sign P signed).val) =
      HEADER_LEN + sealed.length + TAIL_LEN := by
    rw [List.append_assoc, declared_header_append, Nat.mod_eq_of_lt (by omega)]
  have htake : (signed ++ (sign P signed).val).take (HEADER_LEN + sealed.length) = signed :=
    List.take_left' hsignedLen
  have hsplit : HEADER_LEN + sealed.length + TAIL_LEN - TAIL_LEN =
      HEADER_LEN + sealed.length := by omega
  have hwf : WellFormed P (signed ++ (sign P signed).val) := by
    constructor
    · obtain ⟨rest, hrest⟩ := header_eq deviceId sealed.length ts
      rw [List.append_assoc, hrest]
      rfl
    · omega
    · omega
    · rw [hdecl, hsplit, htake, ← hpacketLen, List.take_length, List.drop_left' hsignedLen]
  have hbody : body (signed ++ (sign P signed).val) = sealed := by
    rw [body, hdecl, hsplit, htake, List.drop_left' (header_length ..)]
  refine ⟨signed ++ (sign P signed).val, ?_, by rw [hpacketLen, hsize], by
    rw [hdecl, hpacketLen], ?_⟩
  · rw [encodeAt, hsealed]
    rfl
  · rcases decode_cases P (signed ++ (sign P signed).val) with ⟨h, _⟩ | ⟨_, h⟩
    · exact absurd hwf h
    · rw [h, hbody, hopen, mapFail_ok]

end Packet
