import BreezeCore.Lib.Bytes
import Mathlib.Data.List.GetD

/-!
# The appliance frame

The innermost layer: a ten-byte header, the payload and a checksum byte.  The
declared length counts the header and the payload but not the checksum, which
is why a frame is one byte longer than it says.

`parse_eq` writes the decoder out as a chain of tests on the input, and
everything else here is read off it.  Two of its branches panic: the declared
length is compared with what arrived and never with the header, so a length
byte of zero inverts the checksum range, and a length byte short of the header
inverts the payload range once checksum and appliance type agree.
-/

namespace Frame

open Fallible Bytes

def HEADER_LEN : Nat := 10

/-- Appliance type.  Only air conditioners are in scope. -/
inductive DeviceType where
  | airConditioner
  deriving DecidableEq, Repr

/-- `device as u8`. -/
def DeviceType.byte : DeviceType → UInt8
  | .airConditioner => 0xAC

/-- What a frame is for. -/
inductive FrameType where
  | control
  | query
  | report
  | abnormalReport
  deriving DecidableEq, Repr

/-- `frame_type as u8`. -/
def FrameType.byte : FrameType → UInt8
  | .control => 0x02
  | .query => 0x03
  | .report => 0x04
  | .abnormalReport => 0x06

inductive FrameError where
  /-- Shorter than a header, so nothing can be read from it. -/
  | tooShort (length : Nat)
  /-- The length byte disagrees with how many bytes arrived. -/
  | lengthMismatch (declared actual : Nat)
  /-- Trailing checksum did not match the body. -/
  | badChecksum (expected found : UInt8)
  /-- Frame is for an appliance type we do not speak. -/
  | wrongDeviceType (kind : UInt8)
  deriving DecidableEq, Repr

/-- Two's complement of the byte sum. -/
def checksum (data : Octets) : UInt8 :=
  let sum := data.foldl (· + ·) 0
  ~~~sum + 1

/-- The ten header bytes `build` fills in. -/
def header (device : DeviceType) (frameType : FrameType) (payload : Octets) : Octets :=
  ((((List.replicate HEADER_LEN 0).set 0 0xAA).set 1
    (UInt8.ofNat (payload.length + HEADER_LEN))).set 2 device.byte).set 9 frameType.byte

/-- Wrap `payload` in a frame for the given device and frame type. -/
def build (device : DeviceType) (frameType : FrameType) (payload : Octets) : Octets :=
  let frame := header device frameType payload ++ payload
  frame ++ [checksum (frame.drop 1)]

/-- Check a received frame and return its payload, everything between the
header and the checksum byte. -/
def parse (frame : Octets) (expected : DeviceType) : Exec FrameError Octets :=
  if frame.length < HEADER_LEN then fail (.tooShort frame.length)
  else do
    let lengthByte ← index frame 1
    let declared := lengthByte.toNat + 1
    -- A longer frame than declared is tolerated, a shorter one is not.
    if frame.length < declared then fail (.lengthMismatch declared frame.length)
    else do
      let frame ← sliceTo frame declared
      let last ← sub frame.length 1
      let body ← slice frame 1 last
      let found ← index frame last
      if checksum body ≠ found then fail (.badChecksum (checksum body) found)
      else do
        let kind ← index frame 2
        if kind ≠ expected.byte then fail (.wrongDeviceType kind)
        else slice frame HEADER_LEN last

/-! ## The decoder as tests on its input -/

/-- What the length byte of a frame says. -/
def lengthByte (frame : Octets) : Nat := (frame.getD 1 0).toNat

/-- The checksum byte agrees with the bytes the length byte points it at. -/
def ChecksumAgrees (frame : Octets) : Prop :=
  checksum ((frame.take (lengthByte frame)).drop 1) = frame.getD (lengthByte frame) 0

instance : DecidablePred ChecksumAgrees := fun _ => inferInstanceAs (Decidable (_ = _))

@[simp] theorem checksum_nil : checksum [] = 0 := by decide

private theorem getElem_eq_getD {frame : Octets} {i : Nat} (h : i < frame.length) :
    frame[i] = frame.getD i 0 := by
  simp [List.getD_eq_getElem?_getD, List.getElem?_eq_getElem h]

/-- With a length byte of one the checksum covers nothing, and the byte it is
compared with is the length byte itself. -/
private theorem not_checksumAgrees_of_one {frame : Octets} (h : lengthByte frame = 1) :
    ¬ ChecksumAgrees frame := by
  intro hagree
  have hbyte : (frame.getD 1 0).toNat = 1 := h
  have hempty : (frame.take 1).drop 1 = [] := by simp
  rw [ChecksumAgrees, h, hempty, checksum_nil] at hagree
  rw [← hagree] at hbyte
  simp at hbyte

/-- **The decoder, branch by branch.**  For a frame at least a header long
every check and every slice is a test on the length byte, the checksum and the
appliance type. -/
theorem parse_eq {frame : Octets} (expected : DeviceType) (hlen : HEADER_LEN ≤ frame.length) :
    parse frame expected =
      if frame.length < lengthByte frame + 1 then
        fail (.lengthMismatch (lengthByte frame + 1) frame.length)
      else if lengthByte frame = 0 then crash
      else if ¬ ChecksumAgrees frame then
        fail (.badChecksum (checksum ((frame.take (lengthByte frame)).drop 1))
          (frame.getD (lengthByte frame) 0))
      else if frame.getD 2 0 ≠ expected.byte then fail (.wrongDeviceType (frame.getD 2 0))
      else if lengthByte frame < HEADER_LEN then crash
      else .ok ((frame.take (lengthByte frame)).drop HEADER_LEN) := by
  have h10 : 10 ≤ frame.length := hlen
  rw [parse, if_neg (by omega), index_eq (by omega), ok_bind,
    getElem_eq_getD (by omega : 1 < frame.length),
    show (frame.getD 1 0).toNat = lengthByte frame from rfl]
  dsimp only
  split
  next => rfl
  next hshort =>
    have hcut : (frame.take (lengthByte frame + 1)).length = lengthByte frame + 1 := by
      rw [List.length_take]
      omega
    have hget : ∀ i, i ≤ lengthByte frame →
        (index (frame.take (lengthByte frame + 1)) i : Exec FrameError UInt8) =
          .ok (frame.getD i 0) := by
      intro i hi
      rw [index_eq (by omega), List.getElem_take, getElem_eq_getD]
    rw [sliceTo_eq (by omega : lengthByte frame + 1 ≤ frame.length), ok_bind, hcut,
      sub_eq (by omega : 1 ≤ lengthByte frame + 1), ok_bind]
    rcases Nat.eq_zero_or_pos (lengthByte frame) with hzero | hpos
    · -- The checksum range of `frame[1..0]` is inverted.
      rw [if_pos hzero, hzero]
      rfl
    · have htake : ((frame.take (lengthByte frame + 1)).take (lengthByte frame)) =
          frame.take (lengthByte frame) := by
        rw [List.take_take, Nat.min_eq_left (by omega)]
      have hbody : (slice (frame.take (lengthByte frame + 1)) 1
          (lengthByte frame + 1 - 1) : Exec FrameError Octets) =
            .ok ((frame.take (lengthByte frame)).drop 1) := by
        rw [Nat.add_sub_cancel, slice_eq hpos (by omega), htake]
      rw [hbody, ok_bind, hget _ (by omega), ok_bind, Nat.add_sub_cancel,
        if_neg (by omega : ¬ lengthByte frame = 0)]
      change (if ¬ ChecksumAgrees frame then _ else _) = _
      by_cases hsum : ChecksumAgrees frame
      · rw [if_neg (not_not_intro hsum), if_neg (not_not_intro hsum)]
        have htwo : 2 ≤ lengthByte frame := by
          have : lengthByte frame ≠ 1 := fun hone => not_checksumAgrees_of_one hone hsum
          omega
        rw [hget 2 htwo, ok_bind]
        by_cases hkind : frame.getD 2 0 = expected.byte
        · rw [if_neg (not_not_intro hkind), if_neg (not_not_intro hkind)]
          split
          next hhead =>
            rw [slice, if_neg]
            omega
          next hhead => rw [slice_eq (by omega) (by omega), htake]
        · rw [if_pos hkind, if_pos hkind]
      · rw [if_pos hsum, if_pos hsum]

/-- A frame shorter than its header is refused before anything is read. -/
theorem parse_short {frame : Octets} (expected : DeviceType) (hlen : frame.length < HEADER_LEN) :
    parse frame expected = fail (.tooShort frame.length) := by
  rw [parse, if_pos hlen]

/-- **When the decoder keeps its promise.**  `parse` answers a frame, with a
payload or an error, exactly when the frame is shorter than its header, its
length byte covers the header, or its length byte is positive and one of the
two checks in between refuses it. -/
theorem returns_parse_iff (frame : Octets) (expected : DeviceType) :
    Returns (parse frame expected) ↔
      frame.length < HEADER_LEN ∨ HEADER_LEN ≤ lengthByte frame ∨
        (0 < lengthByte frame ∧
          ¬ (ChecksumAgrees frame ∧ frame.getD 2 0 = expected.byte)) := by
  rcases Nat.lt_or_ge frame.length HEADER_LEN with hshort | hlen
  · simp [parse_short expected hshort, hshort]
  · have h10 : 10 ≤ frame.length := hlen
    have hhead : HEADER_LEN = 10 := rfl
    rw [parse_eq expected hlen]
    by_cases hlong : frame.length < lengthByte frame + 1
    · simp only [if_pos hlong, returns_fail, true_iff]
      omega
    · simp only [if_neg hlong]
      by_cases hzero : lengthByte frame = 0
      · simp only [if_pos hzero, not_returns_crash, false_iff]
        omega
      · simp only [if_neg hzero]
        by_cases hsum : ChecksumAgrees frame
        · simp only [hsum, not_true_eq_false, if_false, true_and]
          by_cases hkind : frame.getD 2 0 = expected.byte
          · simp only [hkind, ne_eq, not_true_eq_false, if_false, and_false, or_false]
            by_cases hcover : lengthByte frame < HEADER_LEN
            · simp only [if_pos hcover, not_returns_crash, false_iff]
              omega
            · simp only [if_neg hcover, returns_ok, true_iff]
              omega
          · simp only [ne_eq, hkind, not_false_eq_true, if_true, returns_fail, and_true, true_iff]
            omega
        · simp only [hsum, not_false_eq_true, if_true, returns_fail, false_and, and_true, true_iff]
          omega

/-- A ten-byte frame whose length byte is zero is enough to panic. -/
theorem parse_panics_on_zero_length :
    ¬ ∀ frame expected, Returns (parse frame expected) := by
  intro h
  exact absurd (h [0xAA, 0, 0xAC, 0, 0, 0, 0, 0, 0, 4] .airConditioner) (by decide)

/-- A length byte short of the header panics as well, once the checksum over
the shorter range is right. -/
example : ¬ Returns (parse [0xAA, 9, 0xAC, 0, 0, 0, 0, 0, 0, 0x4B] .airConditioner) := by
  decide

/-! ## What is built is parsed -/

@[simp] theorem header_length (device : DeviceType) (frameType : FrameType) (payload : Octets) :
    (header device frameType payload).length = HEADER_LEN := rfl

@[simp] theorem build_length (device : DeviceType) (frameType : FrameType) (payload : Octets) :
    (build device frameType payload).length = payload.length + HEADER_LEN + 1 := by
  simp only [build, List.length_append, header_length, List.length_singleton]
  omega

/-- The length byte of a built frame, before any question of wrapping. -/
theorem lengthByte_build (device : DeviceType) (frameType : FrameType) (payload : Octets) :
    lengthByte (build device frameType payload) = (payload.length + HEADER_LEN) % 256 := by
  simp [lengthByte, build, header, HEADER_LEN]

/-- **Frame round trip.**  A payload of at most 245 bytes comes back, and the
length byte says how long the frame is. -/
theorem parse_build (device : DeviceType) (frameType : FrameType) {payload : Octets}
    (hlen : payload.length ≤ 245) :
    parse (build device frameType payload) device = .ok payload ∧
      lengthByte (build device frameType payload) + 1 =
        (build device frameType payload).length := by
  have hbyte : lengthByte (build device frameType payload) = payload.length + HEADER_LEN := by
    rw [lengthByte_build, Nat.mod_eq_of_lt (by simp only [HEADER_LEN]; omega)]
  have htake : (build device frameType payload).take (payload.length + HEADER_LEN) =
      header device frameType payload ++ payload := by
    rw [build, List.take_left' (by rw [List.length_append, header_length, Nat.add_comm])]
  have hlast : (build device frameType payload).getD (payload.length + HEADER_LEN) 0 =
      checksum ((header device frameType payload ++ payload).drop 1) := by
    rw [build, List.getD_append_right _ _ _ _
      (by rw [List.length_append, header_length, Nat.add_comm])]
    simp [Nat.add_comm]
  have hagree : ChecksumAgrees (build device frameType payload) := by
    rw [ChecksumAgrees, hbyte, htake, hlast]
  have hkind : (build device frameType payload).getD 2 0 = device.byte := by
    simp [build, header, HEADER_LEN]
  refine ⟨?_, by rw [hbyte, build_length]⟩
  rw [parse_eq device (by rw [build_length]; omega), if_neg (by rw [hbyte, build_length]; omega),
    if_neg (by rw [hbyte]; simp only [HEADER_LEN]; omega), if_neg (not_not_intro hagree),
    if_neg (not_not_intro hkind), if_neg (by rw [hbyte]; omega), hbyte, htake,
    List.drop_left' (header_length ..)]

/-- A parsed payload is the part of the frame between the header and the byte
its length names. -/
theorem parse_eq_ok {frame payload : Octets} {expected : DeviceType}
    (h : parse frame expected = .ok payload) :
    HEADER_LEN ≤ lengthByte frame ∧ lengthByte frame < frame.length ∧
      payload = (frame.take (lengthByte frame)).drop HEADER_LEN := by
  rcases Nat.lt_or_ge frame.length HEADER_LEN with hshort | hlen
  · simp [parse_short expected hshort, fail] at h
  · rw [parse_eq expected hlen] at h
    split at h
    next => simp [fail] at h
    next hlong =>
      split at h
      next => simp [crash] at h
      next =>
        split at h
        next => simp [fail] at h
        next =>
          split at h
          next => simp [fail] at h
          next =>
            split at h
            next => simp [crash] at h
            next hcover =>
              exact ⟨by omega, by omega, (Except.ok.inj h).symm⟩

end Frame
