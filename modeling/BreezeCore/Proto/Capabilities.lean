import BreezeCore.Lib.Bytes
import Mathlib.Data.Finset.Insert
import Mathlib.Data.Finset.Lattice.Basic
import Mathlib.Data.List.GetD
import Mathlib.Data.Rat.Defs

/-!
# What a unit says it can do

The reply to a `0xB5` query is a count followed by that many
`[id_lo, id_hi, size, value...]` records.  The walk over them is the loop
`walk`; it never fails, because half a capability list is more useful than an
error, so the only question about it is whether it panics (`returns_parse`).

`walk_records` says what it does on records that are all there: one `apply`
each, in order, with the bytes behind the last record left over.
-/

namespace Ac

open Fallible Bytes

/-! ## Capability ids

The numbering is the vendor's. -/

namespace Id

def SWING_UD_ANGLE : UInt16 := 0x0009
def SWING_LR_ANGLE : UInt16 := 0x000A
def BREEZELESS : UInt16 := 0x0018
def SMART_EYE : UInt16 := 0x0030
def WIND_ON_ME : UInt16 := 0x0032
def WIND_OFF_ME : UInt16 := 0x0033
def SELF_CLEAN : UInt16 := 0x0039
/-- Seen in real logs with no known meaning. -/
def UNKNOWN_0040 : UInt16 := 0x0040
def BREEZE_AWAY : UInt16 := 0x0042
def BREEZE_CONTROL : UInt16 := 0x0043
def FRESH_AIR : UInt16 := 0x004B
def CASCADE : UInt16 := 0x0059
def FLASH : UInt16 := 0x0067
def AUX_FAN_SPEED_CONTROL : UInt16 := 0x0093
def AUX_HEAT_FAN_SPEED_CONTROL : UInt16 := 0x0094
def OUT_SILENT : UInt16 := 0x00CD
def FAN_SPEED_CONTROL : UInt16 := 0x0210
def PRESET_ECO : UInt16 := 0x0212
def PRESET_FREEZE_PROTECTION : UInt16 := 0x0213
def MODES : UInt16 := 0x0214
def SWING_MODES : UInt16 := 0x0215
def ENERGY : UInt16 := 0x0216
def FILTER_REMIND : UInt16 := 0x0217
def AUX_ELECTRIC_HEAT : UInt16 := 0x0219
def PRESET_TURBO : UInt16 := 0x021A
def ANION : UInt16 := 0x021E
def HUMIDITY : UInt16 := 0x021F
def FAHRENHEIT : UInt16 := 0x0222
def DISPLAY_CONTROL : UInt16 := 0x0224
def TEMPERATURES : UInt16 := 0x0225
def BUZZER : UInt16 := 0x022C

end Id

/-- Everything a unit reported.  Fields are `false` until a record says
otherwise: an absent capability is an absent feature. -/
structure Capabilities where
  coolMode : Bool := false
  heatMode : Bool := false
  dryMode : Bool := false
  autoMode : Bool := false
  auxHeatMode : Bool := false
  auxMode : Bool := false
  auxElectricHeat : Bool := false
  swingHorizontal : Bool := false
  swingVertical : Bool := false
  swingHorizontalAngle : Bool := false
  swingVerticalAngle : Bool := false
  fanSilent : Bool := false
  fanLow : Bool := false
  fanMedium : Bool := false
  fanHigh : Bool := false
  fanAuto : Bool := false
  /-- Custom (arbitrary percentage) speeds. -/
  fanCustom : Bool := false
  /-- Whether any fan record was present. -/
  sawFanCapability : Bool := false
  eco : Bool := false
  turboCool : Bool := false
  turboHeat : Bool := false
  freezeProtection : Bool := false
  displayControl : Bool := false
  anion : Bool := false
  filterNotice : Bool := false
  filterClean : Bool := false
  humidityAutoSet : Bool := false
  humidityManualSet : Bool := false
  selfClean : Bool := false
  breezeAway : Bool := false
  breezeControl : Bool := false
  breezeless : Bool := false
  buzzer : Bool := false
  fahrenheit : Bool := false
  energyStats : Bool := false
  smartEye : Bool := false
  windOnMe : Bool := false
  windOffMe : Bool := false
  freshAir : Bool := false
  cascade : Bool := false
  flash : Bool := false
  outSilent : Bool := false
  auxFanSpeed : Bool := false
  auxHeatFanSpeed : Bool := false
  coolMinTemperature : Option ℚ := none
  coolMaxTemperature : Option ℚ := none
  autoMinTemperature : Option ℚ := none
  autoMaxTemperature : Option ℚ := none
  heatMinTemperature : Option ℚ := none
  heatMaxTemperature : Option ℚ := none
  /-- Whether the unit accepts half degrees. -/
  decimals : Bool := false
  /-- The unit says it has more to report. -/
  additional : Bool := false
  /-- Ids that appeared and are not interpreted here. -/
  unknownIds : Finset UInt16 := ∅
  deriving DecidableEq

/-- True if the first byte is one of `accepted`. -/
def oneOf (value accepted : Octets) : Bool :=
  match value.head? with
  | none => false
  | some v => accepted.contains v

variable {ε : Type}

/-- The temperature limits of one record, read by absolute offset into it. In a short record the
byte for the decimals is not there, and the size byte is read in its place. -/
def Capabilities.applyTemperatures (caps : Capabilities) (value record : Octets) :
    Exec ε Capabilities :=
  if record.length < 9 ∨ value.length < 6 then pure caps
  else do
    let coolMin ← index record 3
    let coolMax ← index record 4
    let autoMin ← index record 5
    let autoMax ← index record 6
    let heatMin ← index record 7
    let heatMax ← index record 8
    let decimals ← index record (if 6 < value.length ∧ 9 < record.length then 9 else 2)
    pure { caps with
      coolMinTemperature := some (coolMin.toNat * (1 / 2))
      coolMaxTemperature := some (coolMax.toNat * (1 / 2))
      autoMinTemperature := some (autoMin.toNat * (1 / 2))
      autoMaxTemperature := some (autoMax.toNat * (1 / 2))
      heatMinTemperature := some (heatMin.toNat * (1 / 2))
      heatMaxTemperature := some (heatMax.toNat * (1 / 2))
      decimals := decimals != 0 }

/-- The records that are read off the first byte of their value. -/
def Capabilities.applyValue (caps : Capabilities) (id : UInt16) (value : Octets) : Capabilities :=
  if id = Id.MODES then { caps with
    heatMode := oneOf value [1, 2, 4, 6, 7, 9, 10, 11, 12, 13]
    coolMode := oneOf value [0, 1, 3, 4, 5, 6, 7, 8, 9, 11, 13, 14, 15]
    dryMode := oneOf value [0, 1, 5, 6, 9, 11, 13, 14, 15]
    autoMode := oneOf value [0, 1, 2, 7, 8, 9, 13, 14]
    auxHeatMode := oneOf value [9]
    auxMode := oneOf value [9, 10, 11, 13, 14, 15] }
  else if id = Id.SWING_MODES then { caps with
    swingHorizontal := oneOf value [1, 3]
    swingVertical := oneOf value [0, 1] }
  else if id = Id.SWING_UD_ANGLE then { caps with swingVerticalAngle := oneOf value [1] }
  else if id = Id.SWING_LR_ANGLE then { caps with swingHorizontalAngle := oneOf value [1] }
  else if id = Id.FAN_SPEED_CONTROL then { caps with
    sawFanCapability := true
    fanSilent := oneOf value [6, 9]
    fanLow := oneOf value [3, 4, 5, 6, 7, 9]
    fanMedium := oneOf value [5, 6, 7]
    fanHigh := oneOf value [3, 4, 5, 6, 7, 9]
    fanAuto := oneOf value [4, 5, 6, 9]
    fanCustom := oneOf value [1] }
  else if id = Id.PRESET_ECO then { caps with eco := oneOf value [1, 2] }
  else if id = Id.PRESET_TURBO then { caps with
    turboHeat := oneOf value [1, 3]
    turboCool := oneOf value [0, 1] }
  else if id = Id.PRESET_FREEZE_PROTECTION then
    { caps with freezeProtection := oneOf value [1] }
  else if id = Id.DISPLAY_CONTROL then { caps with displayControl := oneOf value [1, 2, 100] }
  else if id = Id.ANION then { caps with anion := oneOf value [1] }
  else if id = Id.FILTER_REMIND then { caps with
    filterNotice := oneOf value [1, 2, 4]
    filterClean := oneOf value [3, 4] }
  else if id = Id.HUMIDITY then { caps with
    humidityAutoSet := oneOf value [1, 2]
    humidityManualSet := oneOf value [2, 3] }
  else if id = Id.ENERGY then { caps with energyStats := oneOf value [2, 3, 4, 5] }
  else if id = Id.FAHRENHEIT then { caps with fahrenheit := oneOf value [0] }
  else if id = Id.BUZZER then { caps with buzzer := oneOf value [1] }
  else if id = Id.SELF_CLEAN then { caps with selfClean := oneOf value [1] }
  else if id = Id.BREEZE_AWAY then { caps with breezeAway := oneOf value [1] }
  else if id = Id.BREEZE_CONTROL then { caps with breezeControl := oneOf value [1] }
  else if id = Id.BREEZELESS then { caps with breezeless := oneOf value [1] }
  else if id = Id.SMART_EYE then { caps with smartEye := oneOf value [1] }
  else if id = Id.WIND_ON_ME then { caps with windOnMe := oneOf value [1] }
  else if id = Id.WIND_OFF_ME then { caps with windOffMe := oneOf value [1] }
  else if id = Id.FRESH_AIR then { caps with freshAir := oneOf value [1] }
  else if id = Id.CASCADE then { caps with cascade := oneOf value [1] }
  else if id = Id.FLASH then { caps with flash := oneOf value [1, 2, 3, 4] }
  else if id = Id.OUT_SILENT then { caps with outSilent := oneOf value [1, 3] }
  else if id = Id.AUX_ELECTRIC_HEAT then { caps with auxElectricHeat := oneOf value [1] }
  else if id = Id.AUX_FAN_SPEED_CONTROL then { caps with auxFanSpeed := oneOf value [1] }
  else if id = Id.AUX_HEAT_FAN_SPEED_CONTROL then
    { caps with auxHeatFanSpeed := oneOf value [1] }
  else if id = Id.UNKNOWN_0040 then caps
  else { caps with unknownIds := insert id caps.unknownIds }

/-- Apply one record.  `record` is everything from its header on, which only the
temperature limits need. -/
def Capabilities.apply (caps : Capabilities) (id : UInt16) (value record : Octets) :
    Exec ε Capabilities :=
  if id = Id.TEMPERATURES then caps.applyTemperatures value record
  else pure (caps.applyValue id value)

/-- The loop over the records: `count` of them at most, with the capabilities so
far and the bytes not yet read. -/
def Capabilities.walk : (count : Nat) → Capabilities → Octets → Exec ε (Capabilities × Octets)
  | 0, caps, rest => pure (caps, rest)
  | count + 1, caps, rest =>
      if rest.length < 3 then pure (caps, rest)
      else do
        let lo ← index rest 0
        let hi ← index rest 1
        let id := UInt16.ofNat (ofLeBytes [lo, hi])
        let sizeByte ← index rest 2
        let size := sizeByte.toNat
        if size = 0 then do
          -- An empty record still occupies its header.
          let rest ← sliceFrom rest 3
          walk count caps rest
        else if rest.length < 3 + size then pure (caps, rest)
        else do
          let value ← slice rest 3 (3 + size)
          let caps ← caps.apply id value rest
          let rest ← sliceFrom rest (3 + size)
          walk count caps rest

/-- Decode a `0xB5` capability payload, which starts at the command byte. The count is taken as it
is, and the walk stops where the bytes do. -/
def Capabilities.parse (payload : Octets) : Exec ε Capabilities :=
  if payload.length < 2 then pure {}
  else do
    let countByte ← index payload 1
    let rest ← sliceFrom payload 2
    let (caps, rest) ← walk countByte.toNat {} rest
    -- A trailing byte says whether a second query would return more.
    if 1 < rest.length then do
      let at_ ← sub rest.length 2
      let more ← index rest at_
      pure { caps with additional := more != 0 }
    else pure caps

/-- Fold a second response into this one. -/
def Capabilities.merge (self other : Capabilities) : Capabilities where
  coolMode := self.coolMode || other.coolMode
  heatMode := self.heatMode || other.heatMode
  dryMode := self.dryMode || other.dryMode
  autoMode := self.autoMode || other.autoMode
  auxHeatMode := self.auxHeatMode || other.auxHeatMode
  auxMode := self.auxMode || other.auxMode
  auxElectricHeat := self.auxElectricHeat || other.auxElectricHeat
  swingHorizontal := self.swingHorizontal || other.swingHorizontal
  swingVertical := self.swingVertical || other.swingVertical
  swingHorizontalAngle := self.swingHorizontalAngle || other.swingHorizontalAngle
  swingVerticalAngle := self.swingVerticalAngle || other.swingVerticalAngle
  fanSilent := self.fanSilent || other.fanSilent
  fanLow := self.fanLow || other.fanLow
  fanMedium := self.fanMedium || other.fanMedium
  fanHigh := self.fanHigh || other.fanHigh
  fanAuto := self.fanAuto || other.fanAuto
  fanCustom := self.fanCustom || other.fanCustom
  sawFanCapability := self.sawFanCapability || other.sawFanCapability
  eco := self.eco || other.eco
  turboCool := self.turboCool || other.turboCool
  turboHeat := self.turboHeat || other.turboHeat
  freezeProtection := self.freezeProtection || other.freezeProtection
  displayControl := self.displayControl || other.displayControl
  anion := self.anion || other.anion
  filterNotice := self.filterNotice || other.filterNotice
  filterClean := self.filterClean || other.filterClean
  humidityAutoSet := self.humidityAutoSet || other.humidityAutoSet
  humidityManualSet := self.humidityManualSet || other.humidityManualSet
  selfClean := self.selfClean || other.selfClean
  breezeAway := self.breezeAway || other.breezeAway
  breezeControl := self.breezeControl || other.breezeControl
  breezeless := self.breezeless || other.breezeless
  buzzer := self.buzzer || other.buzzer
  fahrenheit := self.fahrenheit || other.fahrenheit
  energyStats := self.energyStats || other.energyStats
  smartEye := self.smartEye || other.smartEye
  windOnMe := self.windOnMe || other.windOnMe
  windOffMe := self.windOffMe || other.windOffMe
  freshAir := self.freshAir || other.freshAir
  cascade := self.cascade || other.cascade
  flash := self.flash || other.flash
  outSilent := self.outSilent || other.outSilent
  auxFanSpeed := self.auxFanSpeed || other.auxFanSpeed
  auxHeatFanSpeed := self.auxHeatFanSpeed || other.auxHeatFanSpeed
  coolMinTemperature := self.coolMinTemperature <|> other.coolMinTemperature
  coolMaxTemperature := self.coolMaxTemperature <|> other.coolMaxTemperature
  autoMinTemperature := self.autoMinTemperature <|> other.autoMinTemperature
  autoMaxTemperature := self.autoMaxTemperature <|> other.autoMaxTemperature
  heatMinTemperature := self.heatMinTemperature <|> other.heatMinTemperature
  heatMaxTemperature := self.heatMaxTemperature <|> other.heatMaxTemperature
  decimals := self.decimals || other.decimals
  -- Not or-ed: the second response says whether a third is needed.
  additional := other.additional
  unknownIds := self.unknownIds ∪ other.unknownIds

/-! ## The walk never panics -/

/-- Applying a record returns the capabilities; it cannot fail. The only index into the record is
behind a test of its length, or at a byte of its head. -/
theorem Capabilities.apply_eq_ok (caps : Capabilities) (id : UInt16) (value record : Octets) :
    ∃ caps', (caps.apply id value record : Exec ε Capabilities) = .ok caps' := by
  have htemperatures : ∃ caps',
      (caps.applyTemperatures value record : Exec ε Capabilities) = .ok caps' := by
    unfold applyTemperatures
    split
    next => exact ⟨_, rfl⟩
    next hlong =>
      rw [not_or] at hlong
      have hlast : (if 6 < value.length ∧ 9 < record.length then 9 else 2) < record.length := by
        split <;> omega
      simp only [index_eq (show 3 < record.length by omega),
        index_eq (show 4 < record.length by omega), index_eq (show 5 < record.length by omega),
        index_eq (show 6 < record.length by omega), index_eq (show 7 < record.length by omega),
        index_eq (show 8 < record.length by omega), index_eq hlast, ok_bind]
      exact ⟨_, rfl⟩
  unfold apply
  split
  next => exact htemperatures
  next => exact ⟨_, rfl⟩

/-- The loop returns, whatever it was given. By induction on the count, with every slice behind a
test of what is left. -/
theorem Capabilities.walk_eq_ok (count : Nat) :
    ∀ (caps : Capabilities) (rest : Octets),
      ∃ out, (walk count caps rest : Exec ε (Capabilities × Octets)) = .ok out := by
  induction count with
  | zero => intro caps rest; exact ⟨_, rfl⟩
  | succ count ih =>
      intro caps rest
      unfold walk
      split
      next => exact ⟨_, rfl⟩
      next hthree =>
        rw [index_eq (by omega), ok_bind, index_eq (by omega), ok_bind]
        dsimp only
        rw [index_eq (by omega), ok_bind]
        split
        next =>
          rw [sliceFrom_eq (by omega), ok_bind]
          exact ih _ _
        next =>
          split
          next => exact ⟨_, rfl⟩
          next hsize =>
            rw [slice_eq (by omega) (by omega), ok_bind]
            obtain ⟨caps', hcaps'⟩ := apply_eq_ok (ε := ε) caps _ _ _
            rw [hcaps', ok_bind, sliceFrom_eq (by omega), ok_bind]
            exact ih _ _

/-- Decoding returns the capabilities; it cannot fail. -/
theorem Capabilities.parse_eq_ok (payload : Octets) :
    ∃ caps, (Capabilities.parse payload : Exec ε Capabilities) = .ok caps := by
  unfold Capabilities.parse
  split
  next => exact ⟨_, rfl⟩
  next hlen =>
    rw [index_eq (by omega), ok_bind, sliceFrom_eq (by omega), ok_bind]
    obtain ⟨⟨caps, rest⟩, hwalk⟩ := walk_eq_ok (ε := ε) (payload[1]).toNat {} (payload.drop 2)
    rw [hwalk, ok_bind]
    dsimp only
    split
    next => rw [sub_eq (by omega), ok_bind, index_eq (by omega)]; exact ⟨_, rfl⟩
    next => exact ⟨_, rfl⟩

/-- **The capability decoder is total**, whatever the count and the sizes
claim. -/
theorem Capabilities.returns_parse (payload : Octets) :
    Returns (Capabilities.parse payload : Exec ε Capabilities) := by
  obtain ⟨caps, hcaps⟩ := parse_eq_ok (ε := ε) payload
  rw [hcaps]
  trivial

/-! ## Records that are all there -/

/-- A record as a unit sends it: an id and at most 255 bytes of value. -/
structure Record where
  id : UInt16
  value : Octets
  fits : value.length < 256

/-- `[id_lo, id_hi, size, value...]`. -/
def Record.bytes (r : Record) : Octets :=
  leBytes 2 r.id.toNat ++ [UInt8.ofNat r.value.length] ++ r.value

/-- Two bytes of id, one of length, and the value. -/
theorem Record.bytes_length (r : Record) : r.bytes.length = 3 + r.value.length := by
  simp only [Record.bytes, List.length_append, leBytes_length, List.length_singleton]

/-- The bytes of a list of records. -/
def recordBytes (records : List Record) : Octets := records.flatMap Record.bytes

/-- A record takes at least its header. -/
theorem length_le_recordBytes (records : List Record) :
    3 * records.length ≤ (recordBytes records).length := by
  induction records with
  | nil => simp
  | cons r records ih =>
      have hcons : recordBytes (r :: records) = r.bytes ++ recordBytes records := rfl
      rw [hcons, List.length_append, Record.bytes_length, List.length_cons]
      omega

/-- The temperature limits a value carries, when there is enough of it. -/
def Capabilities.readLimits (caps : Capabilities) (value : Octets) : Capabilities :=
  if value.length < 6 then caps
  else { caps with
    coolMinTemperature := some ((value.getD 0 0).toNat * (1 / 2))
    coolMaxTemperature := some ((value.getD 1 0).toNat * (1 / 2))
    autoMinTemperature := some ((value.getD 2 0).toNat * (1 / 2))
    autoMaxTemperature := some ((value.getD 3 0).toNat * (1 / 2))
    heatMinTemperature := some ((value.getD 4 0).toNat * (1 / 2))
    heatMaxTemperature := some ((value.getD 5 0).toNat * (1 / 2))
    -- Without a seventh byte the size of the record is taken for it.
    decimals := if 6 < value.length then value.getD 6 0 != 0 else true }

/-- What a record does that is all there: one without a value, nothing. -/
def Capabilities.applyRecord (caps : Capabilities) (r : Record) : Capabilities :=
  if r.value = [] then caps
  else if r.id = Id.TEMPERATURES then caps.readLimits r.value
  else caps.applyValue r.id r.value

/-- An id is read back as it was written. -/
theorem Record.id_of_bytes (r : Record) :
    UInt16.ofNat (ofLeBytes (leBytes 2 r.id.toNat)) = r.id := by
  rw [ofLeBytes_leBytes_of_lt r.id.toNat_lt, UInt16.ofNat_toNat]

/-- Reading a value behind the three header bytes. -/
theorem Record.index_value (r : Record) (rest : Octets) {i : Nat} (h : i < r.value.length) :
    (index (r.bytes ++ rest) (3 + i) : Exec ε UInt8) = .ok (r.value.getD i 0) := by
  have hrecord : 3 + i < r.bytes.length := by
    rw [Record.bytes_length]
    omega
  have hheader : (leBytes 2 r.id.toNat ++ [UInt8.ofNat r.value.length]).length = 3 := rfl
  rw [index_eq (by rw [List.length_append]; omega), List.getElem_append_left hrecord,
    List.getD_eq_getElem _ _ h]
  simp only [Record.bytes]
  rw [List.getElem_append_right (by omega)]
  simp only [hheader, Nat.add_sub_cancel_left]

/-- The limits of a record are in its value, whatever follows it. The byte for the decimals is in
the value where that is long enough, and a byte of the head where it is not. -/
theorem Capabilities.applyTemperatures_record (caps : Capabilities) (r : Record) (rest : Octets) :
    (caps.applyTemperatures r.value (r.bytes ++ rest) : Exec ε Capabilities) =
      .ok (caps.readLimits r.value) := by
  have hlen : (r.bytes ++ rest).length = 3 + r.value.length + rest.length := by
    rw [List.length_append, Record.bytes_length]
  unfold applyTemperatures readLimits
  by_cases hshort : r.value.length < 6
  · rw [if_pos (Or.inr hshort), if_pos hshort]
    rfl
  · have hdecimals : (index (r.bytes ++ rest)
        (if 6 < r.value.length ∧ 9 < (r.bytes ++ rest).length then 9 else 2) : Exec ε UInt8) =
          .ok (if 6 < r.value.length then r.value.getD 6 0 else UInt8.ofNat r.value.length) := by
      by_cases hlong : 6 < r.value.length
      · rw [if_pos ⟨hlong, by omega⟩, if_pos hlong]
        exact r.index_value rest hlong
      · rw [if_neg (fun h => hlong h.1), if_neg hlong, index_eq (by omega)]
        rfl
    have hsix : ¬ 6 < r.value.length → UInt8.ofNat r.value.length != 0 := by
      intro hlong
      rw [show r.value.length = 6 by omega]
      decide
    rw [if_neg (by omega), if_neg hshort, r.index_value (i := 0) rest (by omega), ok_bind]
    rw [r.index_value (i := 1) rest (by omega), ok_bind, r.index_value (i := 2) rest (by omega),
      ok_bind, r.index_value (i := 3) rest (by omega), ok_bind,
      r.index_value (i := 4) rest (by omega), ok_bind, r.index_value (i := 5) rest (by omega),
      ok_bind, hdecimals, ok_bind]
    by_cases hlong : 6 < r.value.length
    · rw [if_pos hlong, if_pos hlong]
      rfl
    · rw [if_neg hlong, if_neg hlong, hsix hlong]
      rfl

/-- **One record** that is all there is applied, and the walk goes on behind it. Its size byte is
the length of its value, so that the cut falls at its end. -/
theorem Capabilities.walk_record (r : Record) (rest : Octets) (count : Nat) (caps : Capabilities) :
    (walk (count + 1) caps (r.bytes ++ rest) : Exec ε (Capabilities × Octets)) =
      walk count (caps.applyRecord r) rest := by
  have hsize : (UInt8.ofNat r.value.length).toNat = r.value.length := by
    rw [UInt8.toNat_ofNat']
    exact Nat.mod_eq_of_lt r.fits
  have hlen : (r.bytes ++ rest).length = 3 + r.value.length + rest.length := by
    rw [List.length_append, Record.bytes_length]
  have hdrop : (r.bytes ++ rest).drop (3 + r.value.length) = rest :=
    List.drop_left' (Record.bytes_length r)
  have hvalue : ((r.bytes ++ rest).take (3 + r.value.length)).drop 3 = r.value := by
    rw [List.take_left' (Record.bytes_length r)]
    rfl
  have hzero : 0 < (r.bytes ++ rest).length := by omega
  have hone : 1 < (r.bytes ++ rest).length := by omega
  have htwo : 2 < (r.bytes ++ rest).length := by omega
  have hid : UInt16.ofNat (ofLeBytes [(r.bytes ++ rest)[0], (r.bytes ++ rest)[1]]) = r.id :=
    r.id_of_bytes
  have hthird : (r.bytes ++ rest)[2] = UInt8.ofNat r.value.length := rfl
  rw [walk, if_neg (by omega), index_eq hzero, ok_bind, index_eq hone, ok_bind]
  dsimp only
  rw [hid, index_eq htwo, ok_bind, hthird, hsize]
  by_cases hempty : r.value = []
  · rw [hempty, List.length_nil, Nat.add_zero] at hdrop
    rw [if_pos (by rw [hempty]; rfl), sliceFrom_eq (by omega), ok_bind, hdrop, applyRecord,
      if_pos hempty]
  · have hpos : r.value.length ≠ 0 := fun hzero => hempty (List.eq_nil_of_length_eq_zero hzero)
    have happly : (caps.apply r.id r.value (r.bytes ++ rest) : Exec ε Capabilities) =
        .ok (caps.applyRecord r) := by
      unfold apply applyRecord
      rw [if_neg hempty]
      split
      next => exact applyTemperatures_record caps r rest
      next => rfl
    rw [if_neg hpos, if_neg (by omega), slice_eq (by omega) (by omega), ok_bind, hvalue, happly,
      ok_bind, sliceFrom_eq (by omega), ok_bind, hdrop]

/-- **The walk takes whole records.**  Counting the records and walking over
their bytes applies each of them, in order, and leaves exactly the bytes behind them. -/
theorem Capabilities.walk_records (records : List Record) (rest : Octets) :
    ∀ caps : Capabilities, (walk records.length caps (recordBytes records ++ rest) :
      Exec ε (Capabilities × Octets)) = .ok (records.foldl applyRecord caps, rest) := by
  induction records with
  | nil => intro caps; rfl
  | cons r records ih =>
      intro caps
      have hcons : recordBytes (r :: records) ++ rest =
          r.bytes ++ (recordBytes records ++ rest) := by
        rw [← List.append_assoc]
        rfl
      rw [hcons, List.length_cons, walk_record, ih, List.foldl_cons]

/-- **What the last bytes decide.**  With `count` records in front, the flag
that asks for a second query is read from the byte before the last. -/
theorem Capabilities.parse_records (records : List Record) (hcount : records.length < 256)
    (command : UInt8) (front : Octets) (more last : UInt8) :
    ∃ caps, (Capabilities.parse (command :: UInt8.ofNat records.length ::
        (recordBytes records ++ (front ++ [more, last]))) : Exec ε Capabilities) = .ok caps ∧
      caps.additional = (more != 0) := by
  have hsize : (UInt8.ofNat records.length).toNat = records.length := by
    rw [UInt8.toNat_ofNat']
    exact Nat.mod_eq_of_lt hcount
  have hwalk := walk_records (ε := ε) records (front ++ [more, last]) {}
  generalize records.foldl applyRecord {} = caps at hwalk
  have hlen : (front ++ [more, last]).length = front.length + 2 := by simp
  have hbound : front.length < (front ++ [more, last]).length := by omega
  have hmore : (front ++ [more, last])[front.length] = more := by simp
  refine ⟨{ caps with additional := more != 0 }, ?_, rfl⟩
  rw [Capabilities.parse, if_neg (by simp), index_eq (by simp), ok_bind, sliceFrom_eq (by simp),
    ok_bind]
  simp only [List.getElem_cons_succ, List.getElem_cons_zero, List.drop_succ_cons, List.drop_zero,
    hsize, hwalk, ok_bind, hlen]
  rw [if_pos (by omega), sub_eq (by omega), ok_bind, Nat.add_sub_cancel, index_eq (by omega),
    ok_bind, hmore]
  rfl

end Ac
