import BreezeCore.Lib.Numerals
import BreezeCore.Lib.Utf8
import BreezeCore.Proto.Discover

/-!
# What a unit answers

A unit announces itself by a reply with fields at fixed positions, the ones that follow the
header being encrypted.

* `parse_replyV2` — a reply laid out from an announcement is parsed as what it announces;
* `bodyOf_wrapV3` — the wrapper of the third generation is cut off at both ends;
* `discovery_round_trip` — so a reply is parsed as what it announces in either generation.
-/

namespace Fallible

variable {ε α : Type}

/-- A range that is the middle of three parts. -/
theorem getRange?_middle {front middle : List α} (back : List α) {a b : Nat}
    (ha : front.length = a) (hb : a + middle.length = b) :
    getRange? (front ++ middle ++ back) a b = some middle := by
  have hlen : b ≤ (front ++ middle ++ back).length := by
    simp only [List.length_append]
    omega
  have htake : (front ++ middle ++ back).take b = front ++ middle :=
    List.take_left' (by rw [List.length_append]; omega)
  rw [getRange?, if_pos ⟨by omega, hlen⟩, htake, List.drop_left' ha]

/-- The middle of three parts, by the lengths of the first two. -/
theorem slice_middle {front middle : List α} (back : List α) {a b : Nat}
    (ha : front.length = a) (hb : a + middle.length = b) :
    (slice (front ++ middle ++ back) a b : Exec ε (List α)) = .ok middle := by
  have h := getRange?_middle back ha hb
  unfold getRange? at h
  unfold slice
  split at h
  next hrange => rw [if_pos hrange, Option.some.inj h]
  next => cases h

/-- A byte of the first part. -/
theorem index_front {front : List α} (back : List α) {x : α} {i : Nat} (h : front[i]? = some x) :
    (index (front ++ back) i : Exec ε α) = .ok x := by
  obtain ⟨hi, -⟩ := List.getElem?_eq_some_iff.mp h
  rw [index, List.getElem?_append_left hi, h]
  rfl

/-- The byte between two parts. -/
theorem index_middle {front back : List α} {x : α} {i : Nat} (hi : front.length = i) :
    (index (front ++ [x] ++ back) i : Exec ε α) = .ok x := by
  rw [index, List.append_assoc, List.getElem?_append_right (Nat.le_of_eq hi), hi, Nat.sub_self]
  rfl

end Fallible

namespace Discover

open Fallible Bytes Security Net Text

/-- What a unit says of itself. -/
structure Announcement where
  ip : Ipv4Addr
  port : UInt16
  /-- An id of 48 bits. -/
  id : Fin (256 ^ 6)
  serialNumber : Str
  /-- The name of the unit's access point. -/
  ssid : Str
  deviceType : UInt8
  serial_ascii : ∀ c ∈ serialNumber, c.toNat < 128
  serial_length : serialNumber.length = 32
  ssid_length : (toUtf8 ssid).length ≤ 255
  /-- The second part of the name is the type in two hexadecimal digits. -/
  ssid_type : ∃ field, (split '_' ssid)[1]? = some field ∧ field.length = 2 ∧
    Numeral 16 field deviceType.toNat

/-- The bytes of a reply that say nothing. -/
structure Filler where
  header : Arr 18
  middle : Arr 14
  pad : Arr 2
  trailer : Arr 16

variable (a : Announcement)

/-- The fields of a fixed length.  The address is stored most significant octet last. -/
def Announcement.fixed (pad : Arr 2) : Octets :=
  [a.ip.d, a.ip.c, a.ip.b, a.ip.a] ++ leBytes 2 a.port.toNat ++ pad.val ++ toUtf8 a.serialNumber

/-- The encrypted part, in clear: the name comes last, behind its length. -/
def Announcement.plain (pad : Arr 2) : Octets :=
  a.fixed pad ++ [UInt8.ofNat (toUtf8 a.ssid).length] ++ toUtf8 a.ssid

variable (P : Primitives) {ε : Type}

/-- A reply around its encrypted part. -/
def Announcement.layout (filler : Filler) (body : Octets) : Octets :=
  [0x5A, 0x5A] ++ filler.header.val ++ leBytes 6 a.id.val ++ filler.middle.val ++ body ++
    filler.trailer.val

/-- A reply of the second generation. -/
def Announcement.replyV2 (filler : Filler) : Exec ε Octets := do
  let body ← encryptAes P (a.plain filler.pad)
  .ok (a.layout filler body)

/-- A reply in the wrapper of the third generation. -/
def wrapV3 (header : Arr 6) (reply : Octets) (trailer : Arr 16) : Octets :=
  [0x83, 0x70] ++ header.val ++ reply ++ trailer.val

/-- What is found of a unit that announces itself. -/
def Announcement.discovered (src : Ipv4Addr) (version : Version) : Discovered where
  ip := src
  reportedIp := a.ip
  port := a.port.toNat
  id := a.id.val
  serialNumber := a.serialNumber
  ssid := a.ssid
  deviceType := a.deviceType
  version := version

/-- The type is read from the name. -/
theorem deviceTypeOf_ssid : deviceTypeOf a.ssid = some a.deviceType := by
  obtain ⟨field, hfield, -, hnumeral⟩ := a.ssid_type
  have hread : fromStrRadix 16 256 field = some a.deviceType.toNat :=
    (fromStrRadix_eq_some (by decide) (by decide)).mpr
      ⟨field, .inl rfl, hnumeral, a.deviceType.toNat_lt⟩
  simp only [deviceTypeOf, hfield, hread, Option.bind_eq_bind, Option.bind_some,
    UInt8.ofNat_toNat]

/-! ## Where the fields are -/

section Fields

variable {a} (filler : Filler) (body : Octets)

/-- A reply is 56 bytes and the encrypted part. -/
theorem layout_length : (a.layout filler body).length = 56 + body.length := by
  have := filler.header.property
  have := filler.middle.property
  have := filler.trailer.property
  simp only [Announcement.layout, List.length_append, List.length_cons, List.length_nil,
    leBytes_length]
  omega

/-- Which stands at its fixed place. -/
theorem layout_body :
    getRange? (a.layout filler body) 40 (40 + body.length) = some body := by
  apply getRange?_middle _ _ rfl
  have := filler.header.property
  have := filler.middle.property
  simp only [List.length_append, List.length_cons, List.length_nil, leBytes_length]
  omega

/-- The six bytes of the id stand at their place in the layout. -/
theorem layout_id : getRange? (a.layout filler body) 20 26 = some (leBytes 6 a.id.val) := by
  have hfront : ([0x5A, 0x5A] ++ filler.header.val).length = 20 := by
    have := filler.header.property
    simp only [List.length_append, List.length_cons, List.length_nil]
    omega
  have h := getRange?_middle (filler.middle.val ++ body ++ filler.trailer.val) hfront
    (by rw [leBytes_length] : 20 + (leBytes 6 a.id.val).length = 26)
  simpa only [Announcement.layout, List.append_assoc] using h

variable (a) (pad : Arr 2)

/-- The serial number is ASCII, so its bytes are its characters. -/
theorem serial_bytes : (toUtf8 a.serialNumber).length = 32 :=
  (length_toUtf8_of_ascii a.serial_ascii).trans a.serial_length

/-- What stands in front of the name is 40 bytes long. -/
theorem fixed_length : (a.fixed pad).length = 40 := by
  have := serial_bytes a
  have := pad.property
  simp only [Announcement.fixed, List.length_append, List.length_cons, List.length_nil,
    leBytes_length]
  omega

/-- Behind it come the name's length and the name. -/
theorem plain_length : (a.plain pad).length = 41 + (toUtf8 a.ssid).length := by
  rw [Announcement.plain, List.length_append, List.length_append, fixed_length,
    List.length_singleton]

/-- The address and the port come first. -/
theorem plain_front {i : Nat} {x : UInt8}
    (h : [a.ip.d, a.ip.c, a.ip.b, a.ip.a, UInt8.ofNat a.port.toNat,
      UInt8.ofNat (a.port.toNat / 256)][i]? = some x) :
    (index (a.plain pad) i : Exec ε UInt8) = .ok x := by
  have hrest := index_front (ε := ε) (pad.val ++ (toUtf8 a.serialNumber ++
    ([UInt8.ofNat (toUtf8 a.ssid).length] ++ toUtf8 a.ssid))) h
  simpa only [Announcement.plain, Announcement.fixed, leBytes, List.cons_append, List.nil_append,
    List.append_assoc] using hrest

/-- The serial number, in its place. -/
theorem plain_serial :
    (slice (a.plain pad) 8 40 : Exec ε Octets) = .ok (toUtf8 a.serialNumber) := by
  have hfront : ([a.ip.d, a.ip.c, a.ip.b, a.ip.a] ++ leBytes 2 a.port.toNat ++ pad.val).length =
      8 := by
    have := pad.property
    simp only [List.length_append, List.length_cons, List.length_nil, leBytes_length]
    omega
  have h := slice_middle (ε := ε) ([UInt8.ofNat (toUtf8 a.ssid).length] ++ toUtf8 a.ssid) hfront
    (show 8 + (toUtf8 a.serialNumber).length = 40 by rw [serial_bytes])
  simpa only [Announcement.plain, Announcement.fixed, List.append_assoc] using h

/-- The length of the name. -/
theorem plain_nameLen : (index (a.plain pad) 40 : Exec ε UInt8) =
    .ok (UInt8.ofNat (toUtf8 a.ssid).length) :=
  index_middle (fixed_length a pad)

/-- The name. -/
theorem plain_name :
    getRange? (a.plain pad) 41 (41 + (toUtf8 a.ssid).length) = some (toUtf8 a.ssid) := by
  have hfront : (a.fixed pad ++ [UInt8.ofNat (toUtf8 a.ssid).length]).length = 41 := by
    rw [List.length_append, fixed_length]
    rfl
  have h := getRange?_middle [] hfront (Eq.refl (41 + (toUtf8 a.ssid).length))
  rwa [List.append_nil] at h

end Fields

/-! ## The reply is parsed -/

/-- The length fits in a byte. -/
theorem nameLen_toNat :
    (UInt8.ofNat (toUtf8 a.ssid).length).toNat = (toUtf8 a.ssid).length :=
  Nat.mod_eq_of_lt (Nat.lt_succ_of_le a.ssid_length)

variable {P}

/-- **The fields of a body.**  A reply with the body in it is parsed as the announcement. The body
is cut out by its length, and each field is a slice of the plain text at its own place. -/
theorem parse_of_body {reply body : Octets} {version : Version} {filler : Filler}
    (src : Ipv4Addr) (hversion : versionOf reply = .ok version) (hsupported : version ≠ .v1)
    (hbody : bodyOf version reply = .ok (a.layout filler body))
    (hplain : decryptAes P body = .ok (a.plain filler.pad)) :
    parse P src reply = .ok (a.discovered src version) := by
  have hstop : checkedSub (a.layout filler body).length 16 = some (40 + body.length) := by
    rw [layout_length, checkedSub, if_pos (by omega)]
    exact congrArg some (by omega)
  have hlong : ¬ (a.plain filler.pad).length < 41 := by
    rw [plain_length]
    omega
  rw [parse, hversion, ok_bind, if_neg hsupported, hbody, ok_bind, hstop, orTruncated]
  simp only [pure, Except.pure, ok_bind]
  rw [layout_body, layout_id]
  have h0 := plain_front (ε := DiscoverError) a filler.pad (i := 0) rfl
  have h1 := plain_front (ε := DiscoverError) a filler.pad (i := 1) rfl
  have h2 := plain_front (ε := DiscoverError) a filler.pad (i := 2) rfl
  have h3 := plain_front (ε := DiscoverError) a filler.pad (i := 3) rfl
  have h4 := plain_front (ε := DiscoverError) a filler.pad (i := 4) rfl
  have h5 := plain_front (ε := DiscoverError) a filler.pad (i := 5) rfl
  have hport : ofLeBytes [UInt8.ofNat a.port.toNat, UInt8.ofNat (a.port.toNat / 256)] =
      a.port.toNat :=
    @ofLeBytes_leBytes_of_lt 2 _ a.port.toNat_lt
  have hid : ofLeBytes (leBytes 6 a.id.val) = a.id.val := ofLeBytes_leBytes_of_lt a.id.isLt
  simp only [orTruncated, pure, Except.pure, ok_bind, hplain, mapFail_ok, if_neg hlong, h0, h1, h2,
    h3, h4, h5, plain_serial, plain_nameLen, nameLen_toNat, plain_name,
    Utf8.fromUtf8Lossy_toUtf8, deviceTypeOf_ssid, hid, hport]
  rfl

/-- **A reply of the second generation.** -/
theorem parse_replyV2 (hP : P.Inverse) (src : Ipv4Addr) (filler : Filler) :
    ∃ body, (a.replyV2 P filler : Exec ε Octets) = .ok (a.layout filler body) ∧
      decryptAes P body = .ok (a.plain filler.pad) ∧
      parse P src (a.layout filler body) = .ok (a.discovered src .v2) := by
  obtain ⟨body, hsealed, -, hplain⟩ := decryptAes_encryptAes (ε := ε) P hP (a.plain filler.pad)
  refine ⟨body, ?_, hplain, ?_⟩
  · rw [Announcement.replyV2, hsealed]
    rfl
  · exact parse_of_body a src rfl nofun rfl hplain

/-- **The wrapper** of the third generation is cut off at both ends. -/
theorem bodyOf_wrapV3 (header : Arr 6) (reply : Octets) (trailer : Arr 16) :
    bodyOf .v3 (wrapV3 header reply trailer) = .ok reply := by
  have hheader : ([0x83, 0x70] ++ header.val).length = 8 := by
    have := header.property
    rw [List.length_append]
    show 2 + _ = 8
    omega
  have hlength : (wrapV3 header reply trailer).length = 8 + reply.length + 16 := by
    rw [wrapV3, List.length_append, List.length_append, hheader, trailer.property]
  have hstop : checkedSub (wrapV3 header reply trailer).length 16 = some (8 + reply.length) := by
    rw [hlength, checkedSub, if_pos (by omega), Nat.add_sub_cancel]
  have hreply := getRange?_middle trailer.val hheader (Eq.refl (8 + reply.length))
  rw [bodyOf, if_pos rfl, hstop]
  simp only [orTruncated, pure, Except.pure, ok_bind]
  rw [wrapV3, hreply]

/-- **What was announced is discovered**, in either generation of the protocol. The reply of an
announcement is parsed as it is, with any filler in it, and in any header and trailer of the later
generation. -/
theorem discovery_round_trip (P : Primitives) (hP : P.Inverse) (a : Announcement)
    (filler : Filler) (src : Ipv4Addr) :
    ∃ reply, (a.replyV2 P filler : Exec DiscoverError Octets) = .ok reply ∧
      parse P src reply = .ok (a.discovered src .v2) ∧
      ∀ (header : Arr 6) (trailer : Arr 16),
        parse P src (wrapV3 header reply trailer) = .ok (a.discovered src .v3) := by
  obtain ⟨body, hreply, hplain, hv2⟩ := parse_replyV2 (ε := DiscoverError) a hP src filler
  refine ⟨a.layout filler body, hreply, hv2, fun header trailer => ?_⟩
  exact parse_of_body a src rfl nofun (bodyOf_wrapV3 header _ trailer) hplain

/-! ## One unit -/

/-- A unit's encrypted part, block by block in clear and as AES makes it. -/
def unitBlocks : List (Arr 16 × Arr 16) :=
  [(⟨[73, 1, 168, 192, 44, 25, 0, 0, 48, 48, 48, 48, 48, 48, 80, 48], rfl⟩,
      ⟨[20, 130, 248, 41, 6, 149, 79, 235, 148, 218, 104, 234, 52, 140, 231, 166], rfl⟩),
    (⟨[48, 48, 48, 48, 48, 48, 81, 49, 65, 67, 55, 50, 68, 68, 48, 65], rfl⟩,
      ⟨[173, 157, 74, 63, 122, 85, 84, 244, 204, 160, 79, 21, 226, 173, 157, 197], rfl⟩),
    (⟨[50, 51, 69, 52, 48, 48, 48, 48, 11, 110, 101, 116, 95, 97, 99, 95], rfl⟩,
      ⟨[155, 198, 109, 11, 237, 32, 245, 166, 6, 213, 161, 225, 24, 233, 138, 49], rfl⟩),
    (⟨[50, 51, 69, 52, 12, 12, 12, 12, 12, 12, 12, 12, 12, 12, 12, 12], rfl⟩,
      ⟨[155, 77, 71, 235, 20, 60, 148, 135, 236, 68, 209, 67, 221, 105, 239, 133], rfl⟩)]

/-- The crates, on this unit's reply. -/
def unitPrimitives : Primitives where
  md5 data := if data = SIGN_KEY then signKeyDigest else Arr.zero 16
  sha256 _ := Arr.zero 32
  aes128Encrypt _ := exchanging unitBlocks
  aes128Decrypt _ := (exchanging unitBlocks).symm
  aes256Encrypt _ block := block
  aes256Decrypt _ block := block

/-- What they encrypt they decrypt. -/
theorem unitPrimitives_inverse : unitPrimitives.Inverse :=
  ⟨fun _ => (exchanging unitBlocks).symm_apply_apply, fun _ _ => rfl⟩

/-- What the unit announces. -/
def unitAnnouncement : Announcement where
  ip := ⟨192, 168, 1, 73⟩
  port := 6444
  id := 153931628470980
  serialNumber := "000000P0000000Q1AC72DD0A23E40000".toList
  ssid := "net_ac_23E4".toList
  deviceType := 0xAC
  serial_ascii := by
    have hall : ("000000P0000000Q1AC72DD0A23E40000".toList.all fun c => c.toNat < 128) = true := by
      decide +kernel
    exact fun c hc => of_decide_eq_true (List.all_eq_true.mp hall c hc)
  serial_length := rfl
  ssid_length := by decide +kernel
  ssid_type := by
    have hall : ("ac".toList.all fun c => IsDigitIn 16 c) = true := by decide +kernel
    exact ⟨"ac".toList, by decide +kernel, rfl, by decide +kernel,
      fun c hc => of_decide_eq_true (List.all_eq_true.mp hall c hc), rfl⟩

/-- Zeros where nothing is announced. -/
def noFiller : Filler := ⟨Arr.zero 18, Arr.zero 14, Arr.zero 2, Arr.zero 16⟩

example : encryptAes unitPrimitives (unitAnnouncement.plain noFiller.pad) =
    (.ok (unitBlocks.flatMap fun block => block.2.val) : Exec Empty Octets) := by decide +kernel

/-- The unit's reply, byte for byte as AES makes it. -/
theorem discovery_round_trip_unit :
    ∃ reply, (unitAnnouncement.replyV2 unitPrimitives noFiller : Exec DiscoverError Octets) =
        .ok reply ∧
      parse unitPrimitives ⟨192, 168, 1, 73⟩ reply =
        .ok (unitAnnouncement.discovered ⟨192, 168, 1, 73⟩ .v2) ∧
      ∀ (header : Arr 6) (trailer : Arr 16),
        parse unitPrimitives ⟨192, 168, 1, 73⟩ (wrapV3 header reply trailer) =
          .ok (unitAnnouncement.discovered ⟨192, 168, 1, 73⟩ .v3) :=
  discovery_round_trip unitPrimitives unitPrimitives_inverse unitAnnouncement noFiller
    ⟨192, 168, 1, 73⟩

end Discover
