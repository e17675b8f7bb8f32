import BreezeCore.Device.Device

/-!
# When the second capability query goes out

A unit that has more to report ends its reply with a flag, its message id and a
CRC, the trailer of every message.  The frame layer strips the checksum and
nothing else, so all three bytes are still there when the record walk ends, and
the byte before the last is the message id (`parse_replyPayload`).

So the flag is obeyed exactly on the replies whose message id happens to agree
with it (`second_query_iff`).
-/

namespace BreezeDevice

open Fallible Bytes Ac

/-- A capability reply as the frame layer hands it over. -/
def replyPayload (records : List Record) (flag messageId crc : UInt8) : Octets :=
  0xB5 :: UInt8.ofNat records.length :: (recordBytes records ++ [flag, messageId, crc])

/-- The second query is among the commands fetching the capabilities sends. -/
def AsksForMore (d : Device) : Prop :=
  getMoreCapabilities (d.nextId + 1) ∈ d.fetchCapabilities.2.sent.drop d.sent.length

instance : DecidablePred AsksForMore := fun _ => inferInstanceAs (Decidable (_ ∈ _))

/-- A payload that came through the frame layer counts its records in a byte. -/
private theorem records_fit {records : List Record} {flag messageId crc : UInt8} {frame : Octets}
    (hframe : Frame.parse frame .airConditioner = .ok (replyPayload records flag messageId crc)) :
    records.length < 256 := by
  obtain ⟨hhead, -, hpayload⟩ := Frame.parse_eq_ok hframe
  have hbyte : Frame.lengthByte frame < 256 := UInt8.toNat_lt _
  have hsize : (replyPayload records flag messageId crc).length ≤ Frame.lengthByte frame := by
    rw [hpayload, List.length_drop, List.length_take]
    omega
  have hrecords := length_le_recordBytes records
  simp only [replyPayload, List.length_cons, List.length_append] at hsize
  omega

/-- **What the decoder reads.**  The byte it takes for the flag is the message
id. -/
theorem parse_replyPayload {ε : Type} {records : List Record} (hcount : records.length < 256)
    (flag messageId crc : UInt8) :
    ∃ caps, (Capabilities.parse (replyPayload records flag messageId crc) :
        Exec ε Capabilities) = .ok caps ∧
      caps.additional = (messageId != 0) :=
  Capabilities.parse_records records hcount 0xB5 [flag] messageId crc

/-- The two queries are different commands. -/
private theorem queries_differ (a b : UInt8) : getMoreCapabilities a ≠ getCapabilities b := by
  intro h
  have hlen := congrArg List.length h
  simp only [getMoreCapabilities, getCapabilities, finish, Frame.build_length,
    List.length_append, List.length_cons, List.length_nil] at hlen
  omega

/-- On a device that has not asked yet, the second query follows the message id
of the reply to the first. -/
theorem asksForMore_iff {d : Device} {records : List Record} {flag messageId crc : UInt8}
    {frame : Octets} {t : Nat} {line : List Attempt} (hcold : d.capabilities = none)
    (hline : d.line = ⟨.ok frame, t⟩ :: line)
    (hframe : Frame.parse frame .airConditioner = .ok (replyPayload records flag messageId crc)) :
    AsksForMore d ↔ messageId ≠ 0 := by
  obtain ⟨caps, hcaps, hmore⟩ :=
    parse_replyPayload (ε := DeviceError) (records_fit hframe) flag messageId crc
  obtain ⟨d', hfirst, hsent, hnext⟩ : ∃ d' : Device,
      d.nextMessageId.2.exchange (getCapabilities d.nextId) Capabilities.parse = (.ok caps, d') ∧
        d'.sent = d.sent ++ [getCapabilities d.nextId] ∧ d'.nextId = d.nextId + 1 :=
    Device.exchange_answered hline hframe hcaps
  have hfetch : d.fetchCapabilities = if caps.additional then d'.fetchMore caps
      else (.ok caps, { d' with capabilities := some caps }) := by
    unfold Device.fetchCapabilities
    have hid : d.nextMessageId.1 = d.nextId := rfl
    rw [hcold]
    dsimp only
    rw [hid, hfirst]
  unfold AsksForMore
  rw [hfetch, hmore]
  by_cases hid : messageId = 0
  · have hne := queries_differ (d.nextId + 1) d.nextId
    simp [hid, hsent, hne]
  · obtain ⟨n, hn⟩ := d'.fetchMore_sent caps
    rw [if_pos (by simp [hid]), hn, hsent, hnext, List.append_assoc, List.drop_left]
    simp [hid]

/-- **The flag is obeyed exactly where the message id agrees with it.**  For
every reply that comes through the frame layer, the decoder announces more
records and the device asks for them if and only if the unit said so, exactly
when flag and message id are both zero or both not. -/
theorem second_query_iff {records : List Record} {flag messageId crc : UInt8} {frame : Octets}
    (hframe : Frame.parse frame .airConditioner = .ok (replyPayload records flag messageId crc)) :
    ((∃ caps, (Capabilities.parse (replyPayload records flag messageId crc) :
          Exec DeviceError Capabilities) = .ok caps ∧ (caps.additional = true ↔ flag ≠ 0)) ∧
      ∀ (d : Device) (t : Nat) (line : List Attempt), d.capabilities = none →
        d.line = ⟨.ok frame, t⟩ :: line → (AsksForMore d ↔ flag ≠ 0)) ↔
      (messageId ≠ 0 ↔ flag ≠ 0) := by
  obtain ⟨caps, hcaps, hmore⟩ :=
    parse_replyPayload (ε := DeviceError) (records_fit hframe) flag messageId crc
  have hbool : caps.additional = true ↔ messageId ≠ 0 := by rw [hmore, bne_iff_ne]
  constructor
  · rintro ⟨⟨caps', hcaps', hflag⟩, -⟩
    obtain rfl : caps = caps' := Except.ok.inj (hcaps.symm.trans hcaps')
    exact hbool.symm.trans hflag
  · intro hagree
    refine ⟨⟨caps, hcaps, hbool.trans hagree⟩, ?_⟩
    intro d t line hcold hline
    exact (asksForMore_iff hcold hline hframe).trans hagree

/-- The reply with no records, a set flag and message id 7. -/
theorem second_query_flag_and_id_set :
    ((∃ caps, (Capabilities.parse (replyPayload [] 1 7 0) :
          Exec DeviceError Capabilities) = .ok caps ∧
          (caps.additional = true ↔ (1 : UInt8) ≠ 0)) ∧
      ∀ (d : Device) (t : Nat) (line : List Attempt), d.capabilities = none →
        d.line = ⟨.ok (Frame.build .airConditioner .query (replyPayload [] 1 7 0)), t⟩ :: line →
        (AsksForMore d ↔ (1 : UInt8) ≠ 0)) ↔
      ((7 : UInt8) ≠ 0 ↔ (1 : UInt8) ≠ 0) :=
  @second_query_iff [] 1 7 0 (Frame.build .airConditioner .query (replyPayload [] 1 7 0))
    (by decide)

/-- A unit with nothing more to report and message id 1 is asked again. -/
theorem second_query_without_flag :
    ¬ ∀ (records : List Record) (flag messageId crc : UInt8) (frame : Octets),
      Frame.parse frame .airConditioner = .ok (replyPayload records flag messageId crc) →
      ((∃ caps, (Capabilities.parse (replyPayload records flag messageId crc) :
            Exec DeviceError Capabilities) = .ok caps ∧ (caps.additional = true ↔ flag ≠ 0)) ∧
        ∀ (d : Device) (t : Nat) (line : List Attempt), d.capabilities = none →
          d.line = ⟨.ok frame, t⟩ :: line → (AsksForMore d ↔ flag ≠ 0)) := by
  intro h
  obtain ⟨-, hasks⟩ := h [] 0 1 0
    (Frame.build .airConditioner .query (replyPayload [] 0 1 0)) (by decide)
  have hnot := hasks { line := [⟨.ok (Frame.build .airConditioner .query (replyPayload [] 0 1 0)),
    0⟩] } 0 [] rfl rfl
  have hwith : AsksForMore { line := [⟨.ok (Frame.build .airConditioner .query
      (replyPayload [] 0 1 0)), 0⟩] } ↔ (1 : UInt8) ≠ 0 :=
    @asksForMore_iff _ [] 0 1 0 _ _ _ rfl rfl (by decide)
  rw [hwith] at hnot
  exact absurd hnot (by decide)

end BreezeDevice
