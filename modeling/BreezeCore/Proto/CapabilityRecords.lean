import BreezeCore.Lib.Parts
import BreezeCore.Proto.Capabilities
import Mathlib.Data.Finset.Lattice.Lemmas

/-!
# Capability lists, together and in part

What a capability list says is, flag by flag, what its last record for that flag
says.  So a list may come in two replies: merging what they say is reading them as
one, as long as no id is in both (`decoding`).  And it may be cut short: what is
applied are the records that are all there.
-/

namespace Ac

open Fallible Bytes Parts

/-! ## Flags -/

/-- What a capability reply says yes or no to. -/
inductive Flag where
  | coolMode | heatMode | dryMode | autoMode | auxHeatMode | auxMode | auxElectricHeat
  | swingHorizontal | swingVertical | swingHorizontalAngle | swingVerticalAngle
  | fanSilent | fanLow | fanMedium | fanHigh | fanAuto | fanCustom | sawFanCapability
  | eco | turboCool | turboHeat | freezeProtection | displayControl | anion
  | filterNotice | filterClean | humidityAutoSet | humidityManualSet | selfClean
  | breezeAway | breezeControl | breezeless | buzzer | fahrenheit | energyStats
  | smartEye | windOnMe | windOffMe | freshAir | cascade | flash | outSilent
  | auxFanSpeed | auxHeatFanSpeed
  deriving DecidableEq

/-- The field of a flag. -/
def Capabilities.flag (caps : Capabilities) : Flag → Bool
  | .coolMode => caps.coolMode
  | .heatMode => caps.heatMode
  | .dryMode => caps.dryMode
  | .autoMode => caps.autoMode
  | .auxHeatMode => caps.auxHeatMode
  | .auxMode => caps.auxMode
  | .auxElectricHeat => caps.auxElectricHeat
  | .swingHorizontal => caps.swingHorizontal
  | .swingVertical => caps.swingVertical
  | .swingHorizontalAngle => caps.swingHorizontalAngle
  | .swingVerticalAngle => caps.swingVerticalAngle
  | .fanSilent => caps.fanSilent
  | .fanLow => caps.fanLow
  | .fanMedium => caps.fanMedium
  | .fanHigh => caps.fanHigh
  | .fanAuto => caps.fanAuto
  | .fanCustom => caps.fanCustom
  | .sawFanCapability => caps.sawFanCapability
  | .eco => caps.eco
  | .turboCool => caps.turboCool
  | .turboHeat => caps.turboHeat
  | .freezeProtection => caps.freezeProtection
  | .displayControl => caps.displayControl
  | .anion => caps.anion
  | .filterNotice => caps.filterNotice
  | .filterClean => caps.filterClean
  | .humidityAutoSet => caps.humidityAutoSet
  | .humidityManualSet => caps.humidityManualSet
  | .selfClean => caps.selfClean
  | .breezeAway => caps.breezeAway
  | .breezeControl => caps.breezeControl
  | .breezeless => caps.breezeless
  | .buzzer => caps.buzzer
  | .fahrenheit => caps.fahrenheit
  | .energyStats => caps.energyStats
  | .smartEye => caps.smartEye
  | .windOnMe => caps.windOnMe
  | .windOffMe => caps.windOffMe
  | .freshAir => caps.freshAir
  | .cascade => caps.cascade
  | .flash => caps.flash
  | .outSilent => caps.outSilent
  | .auxFanSpeed => caps.auxFanSpeed
  | .auxHeatFanSpeed => caps.auxHeatFanSpeed

/-- The records that decide it. -/
def Flag.id : Flag → UInt16
  | .coolMode | .heatMode | .dryMode | .autoMode | .auxHeatMode | .auxMode => Id.MODES
  | .auxElectricHeat => Id.AUX_ELECTRIC_HEAT
  | .swingHorizontal | .swingVertical => Id.SWING_MODES
  | .swingHorizontalAngle => Id.SWING_LR_ANGLE
  | .swingVerticalAngle => Id.SWING_UD_ANGLE
  | .fanSilent | .fanLow | .fanMedium | .fanHigh | .fanAuto | .fanCustom | .sawFanCapability =>
      Id.FAN_SPEED_CONTROL
  | .eco => Id.PRESET_ECO
  | .turboCool | .turboHeat => Id.PRESET_TURBO
  | .freezeProtection => Id.PRESET_FREEZE_PROTECTION
  | .displayControl => Id.DISPLAY_CONTROL
  | .anion => Id.ANION
  | .filterNotice | .filterClean => Id.FILTER_REMIND
  | .humidityAutoSet | .humidityManualSet => Id.HUMIDITY
  | .selfClean => Id.SELF_CLEAN
  | .breezeAway => Id.BREEZE_AWAY
  | .breezeControl => Id.BREEZE_CONTROL
  | .breezeless => Id.BREEZELESS
  | .buzzer => Id.BUZZER
  | .fahrenheit => Id.FAHRENHEIT
  | .energyStats => Id.ENERGY
  | .smartEye => Id.SMART_EYE
  | .windOnMe => Id.WIND_ON_ME
  | .windOffMe => Id.WIND_OFF_ME
  | .freshAir => Id.FRESH_AIR
  | .cascade => Id.CASCADE
  | .flash => Id.FLASH
  | .outSilent => Id.OUT_SILENT
  | .auxFanSpeed => Id.AUX_FAN_SPEED_CONTROL
  | .auxHeatFanSpeed => Id.AUX_HEAT_FAN_SPEED_CONTROL

/-- What they say, whatever was said before. -/
def Flag.says (flag : Flag) (value : Octets) : Bool :=
  (({} : Capabilities).applyValue flag.id value).flag flag

theorem flag_ite {c : Prop} [Decidable c] (a b : Capabilities) (flag : Flag) :
    (if c then a else b).flag flag = if c then a.flag flag else b.flag flag :=
  apply_ite (fun caps : Capabilities => caps.flag flag) c a b

/-- A record that decides a flag decides it whatever was known. -/
theorem flag_applyValue_self (caps : Capabilities) (value : Octets) (flag : Flag) :
    (caps.applyValue flag.id value).flag flag = flag.says value := by
  cases flag <;> rfl

/-- The other records leave it alone. -/
theorem flag_applyValue_other (caps : Capabilities) {id : UInt16} (value : Octets) {flag : Flag}
    (h : id ≠ flag.id) : (caps.applyValue id value).flag flag = caps.flag flag := by
  unfold Capabilities.applyValue
  simp only [flag_ite]
  cases flag <;> simp only [Flag.id] at h <;> simp only [Capabilities.flag, ite_self, if_neg h]

theorem flag_readLimits (caps : Capabilities) (value : Octets) (flag : Flag) :
    (caps.readLimits value).flag flag = caps.flag flag := by
  unfold Capabilities.readLimits
  rw [flag_ite]
  cases flag <;> exact ite_self _

theorem flag_merge (a b : Capabilities) (flag : Flag) :
    (a.merge b).flag flag = (a.flag flag || b.flag flag) := by
  cases flag <;> rfl

theorem flag_none (flag : Flag) : ({} : Capabilities).flag flag = false := by
  cases flag <;> rfl

/-- The record of the temperatures decides no flag. -/
theorem Flag.id_ne (flag : Flag) : flag.id ≠ Id.TEMPERATURES := by
  cases flag <;> decide

/-! ## Limits and unknown ids -/

/-- The temperature limits, and whether half degrees are accepted. -/
def Capabilities.limits (caps : Capabilities) : List (Option ℚ) × Bool :=
  ([caps.coolMinTemperature, caps.coolMaxTemperature, caps.autoMinTemperature,
    caps.autoMaxTemperature, caps.heatMinTemperature, caps.heatMaxTemperature], caps.decimals)

theorem limits_applyValue (caps : Capabilities) (id : UInt16) (value : Octets) :
    (caps.applyValue id value).limits = caps.limits := by
  unfold Capabilities.applyValue
  simp only [apply_ite Capabilities.limits]
  simp only [Capabilities.limits, ite_self]

/-- What a value says about the limits depends on the limits known, and on nothing else. -/
theorem limits_readLimits (caps : Capabilities) (value : Octets) :
    (caps.readLimits value).limits =
      if value.length < 6 then caps.limits else (({} : Capabilities).readLimits value).limits := by
  unfold Capabilities.readLimits
  split <;> rfl

/-- An id is unknown for what it is, not for what came before. -/
theorem unknownIds_applyValue (caps : Capabilities) (id : UInt16) (value : Octets) :
    (caps.applyValue id value).unknownIds =
      caps.unknownIds ∪ (({} : Capabilities).applyValue id value).unknownIds := by
  unfold Capabilities.applyValue
  simp only [apply_ite Capabilities.unknownIds, apply_ite (caps.unknownIds ∪ ·)]
  simp only [Finset.union_empty, Finset.union_insert]

theorem unknownIds_applyRecord (caps : Capabilities) (r : Record) :
    (caps.applyRecord r).unknownIds =
      caps.unknownIds ∪ (({} : Capabilities).applyRecord r).unknownIds := by
  unfold Capabilities.applyRecord
  split
  next => exact (Finset.union_empty _).symm
  next =>
    split
    next =>
      have hlimits : ∀ caps : Capabilities,
          (caps.readLimits r.value).unknownIds = caps.unknownIds := by
        intro caps
        unfold Capabilities.readLimits
        split <;> rfl
      rw [hlimits, hlimits]
      exact (Finset.union_empty _).symm
    next => exact unknownIds_applyValue caps r.id r.value

theorem limits_merge (a b : Capabilities) :
    (a.merge b).limits =
      (List.zipWith (· <|> ·) a.limits.1 b.limits.1, a.limits.2 || b.limits.2) :=
  rfl

/-- Two decoded lists agree on everything but whether there is more to come. -/
def Capabilities.Agree (a b : Capabilities) : Prop := { a with additional := b.additional } = b

/-- Agreement, part by part. Flags, limits and unknown ids are all the fields there are, but for
the one that asks for more. -/
theorem Capabilities.agree_of_parts {a b : Capabilities}
    (hflags : ∀ flag, a.flag flag = b.flag flag) (hlimits : a.limits = b.limits)
    (hunknown : a.unknownIds = b.unknownIds) : a.Agree b := by
  obtain ⟨hlist, hdecimals⟩ := Prod.mk.inj hlimits
  obtain ⟨hcoolMin, hcoolMax, hautoMin, hautoMax, hheatMin, hheatMax⟩ :
      a.coolMinTemperature = b.coolMinTemperature ∧ a.coolMaxTemperature = b.coolMaxTemperature ∧
        a.autoMinTemperature = b.autoMinTemperature ∧ a.autoMaxTemperature = b.autoMaxTemperature ∧
        a.heatMinTemperature = b.heatMinTemperature ∧
        a.heatMaxTemperature = b.heatMaxTemperature := by
    simpa using hlist
  unfold Capabilities.Agree
  rw [Capabilities.mk.injEq]
  exact ⟨hflags .coolMode, hflags .heatMode, hflags .dryMode, hflags .autoMode,
    hflags .auxHeatMode, hflags .auxMode, hflags .auxElectricHeat, hflags .swingHorizontal,
    hflags .swingVertical, hflags .swingHorizontalAngle, hflags .swingVerticalAngle,
    hflags .fanSilent, hflags .fanLow, hflags .fanMedium, hflags .fanHigh, hflags .fanAuto,
    hflags .fanCustom, hflags .sawFanCapability, hflags .eco, hflags .turboCool,
    hflags .turboHeat, hflags .freezeProtection, hflags .displayControl, hflags .anion,
    hflags .filterNotice, hflags .filterClean, hflags .humidityAutoSet, hflags .humidityManualSet,
    hflags .selfClean, hflags .breezeAway, hflags .breezeControl, hflags .breezeless,
    hflags .buzzer, hflags .fahrenheit, hflags .energyStats, hflags .smartEye, hflags .windOnMe,
    hflags .windOffMe, hflags .freshAir, hflags .cascade, hflags .flash, hflags .outSilent,
    hflags .auxFanSpeed, hflags .auxHeatFanSpeed, hcoolMin, hcoolMax, hautoMin, hautoMax,
    hheatMin, hheatMax, hdecimals, rfl, hunknown⟩

/-- Lists that agree with a third agree with each other. -/
theorem Capabilities.Agree.trans_symm {a b c : Capabilities} (ha : a.Agree c) (hb : b.Agree c) :
    a.Agree b := by
  have hsame := congrArg (fun caps : Capabilities => { caps with additional := b.additional })
    (Eq.trans ha (Eq.symm hb))
  exact hsame

theorem Capabilities.Agree.trans {a b c : Capabilities} (h : a.Agree b) (h' : b.Agree c) :
    a.Agree c := by
  unfold Capabilities.Agree at h h' ⊢
  rw [← h', ← h]

/-- Merging lists that agree gives lists that agree. -/
theorem Capabilities.Agree.merge {a b A B : Capabilities} (ha : a.Agree A) (hb : b.Agree B) :
    (a.merge b).Agree (A.merge B) := by
  obtain ⟨more, rfl⟩ : ∃ more, A = { a with additional := more } := ⟨_, ha.symm⟩
  obtain ⟨more', rfl⟩ : ∃ more, B = { b with additional := more } := ⟨_, hb.symm⟩
  rfl

/-! ## The parts of a capability list -/

abbrev CapabilityPart (T : Type) :=
  Part T Capabilities.applyRecord Record.id Capabilities.merge {}

/-- A flag is a part of a capability list. -/
def Flag.part (flag : Flag) : CapabilityPart Bool where
  view caps := caps.flag flag
  next known r := if r.value = [] ∨ r.id ≠ flag.id then known else flag.says r.value
  owner := flag.id
  view_step := by
    intro caps r
    unfold Capabilities.applyRecord
    by_cases hempty : r.value = []
    · rw [if_pos hempty, if_pos (Or.inl hempty)]
    · rw [if_neg hempty]
      by_cases hid : r.id = flag.id
      · have hother : r.id ≠ Id.TEMPERATURES := by
          rw [hid]
          exact flag.id_ne
        rw [if_neg hother, hid, flag_applyValue_self, if_neg (by simp [hempty])]
      · rw [if_pos (Or.inr hid)]
        split
        next => exact flag_readLimits caps r.value flag
        next => exact flag_applyValue_other caps r.value hid
  next_other known r h := if_pos (Or.inr h)
  merge_left := by
    intro a b h
    rw [flag_merge, h, flag_none, Bool.false_or]
  merge_right := by
    intro a b h
    rw [flag_merge, h, flag_none, Bool.or_false]

/-- The temperature limits are a part of a capability list too, and one record alone writes
them. -/
def limitsPart : CapabilityPart (List (Option ℚ) × Bool) where
  view := Capabilities.limits
  next known r :=
    if r.value = [] ∨ r.id ≠ Id.TEMPERATURES ∨ r.value.length < 6 then known
    else (({} : Capabilities).readLimits r.value).limits
  owner := Id.TEMPERATURES
  view_step := by
    intro caps r
    unfold Capabilities.applyRecord
    by_cases hempty : r.value = []
    · rw [if_pos hempty, if_pos (Or.inl hempty)]
    · rw [if_neg hempty]
      by_cases hid : r.id = Id.TEMPERATURES
      · rw [if_pos hid, limits_readLimits]
        by_cases hshort : r.value.length < 6
        · rw [if_pos hshort, if_pos (Or.inr (Or.inr hshort))]
        · rw [if_neg hshort, if_neg (by simp [hempty, hid, hshort])]
      · rw [if_neg hid, if_pos (Or.inr (Or.inl hid)), limits_applyValue]
  next_other known r h := if_pos (Or.inr (Or.inl h))
  merge_left := by
    intro a b h
    rw [limits_merge, h]
    rfl
  merge_right := by
    intro a b h
    rw [limits_merge, h]
    simp [Capabilities.limits]

/-- The unknown ids of a list are those of its records. -/
theorem unknownIds_foldl (records : List Record) :
    ∀ caps : Capabilities, (records.foldl Capabilities.applyRecord caps).unknownIds =
      caps.unknownIds ∪ (records.foldl Capabilities.applyRecord {}).unknownIds := by
  induction records with
  | nil =>
      intro caps
      exact (Finset.union_empty _).symm
  | cons r records ih =>
      intro caps
      rw [List.foldl_cons, List.foldl_cons, ih, ih (({} : Capabilities).applyRecord r),
        unknownIds_applyRecord, Finset.union_assoc]

/-- **Two lists** without a common id, merged, are one. -/
theorem merge_records {xs ys : List Record} (h : ∀ x ∈ xs, ∀ y ∈ ys, x.id ≠ y.id) :
    ((xs.foldl Capabilities.applyRecord {}).merge (ys.foldl Capabilities.applyRecord {})).Agree
      ((xs ++ ys).foldl Capabilities.applyRecord {}) := by
  refine Capabilities.agree_of_parts ?_ ?_ ?_
  · intro flag
    exact flag.part.foldl_merge h
  · exact limitsPart.foldl_merge h
  · rw [List.foldl_append, unknownIds_foldl ys]
    rfl

/-! ## Lists that are cut short -/

/-- The records that are all there in the first `k` bytes of a list. -/
def complete : (k : Nat) → List Record → List Record
  | _, [] => []
  | k, r :: records =>
      if r.bytes.length ≤ k then r :: complete (k - r.bytes.length) records else []

/-- They come first, they fit, and the next one does not. By induction on the records, with the
bytes each one takes off the room there is. -/
theorem complete_spec (records : List Record) :
    ∀ k, complete k records <+: records ∧ (recordBytes (complete k records)).length ≤ k ∧
      ∀ r after, records = complete k records ++ r :: after →
        k < (recordBytes (complete k records ++ [r])).length := by
  induction records with
  | nil =>
      intro k
      refine ⟨List.prefix_rfl, Nat.zero_le k, ?_⟩
      intro r after h
      cases h
  | cons r records ih =>
      intro k
      have hcons : ∀ rs,
        (recordBytes (r :: rs)).length = r.bytes.length + (recordBytes rs).length :=
        fun rs => List.length_append
      unfold complete
      by_cases hfits : r.bytes.length ≤ k
      · obtain ⟨hfront, hlen, hnext⟩ := ih (k - r.bytes.length)
        rw [if_pos hfits]
        refine ⟨(List.prefix_cons_inj r).mpr hfront, ?_, ?_⟩
        · rw [hcons]
          omega
        · intro r' after h
          have hlonger := hnext r' after (List.cons.inj h).2
          rw [List.cons_append, hcons]
          omega
      · rw [if_neg hfits]
        refine ⟨ List.nil_prefix, Nat.zero_le k, ?_⟩
        intro r' after h
        obtain ⟨rfl, -⟩ := List.cons.inj h
        rw [List.nil_append, hcons]
        omega

/-- A record that is not all there ends the walk. -/
theorem walk_cut {ε : Type} (r : Record) {k : Nat} (h : k < r.bytes.length) (count : Nat)
    (caps : Capabilities) :
    (Capabilities.walk count caps (r.bytes.take k) : Exec ε (Capabilities × Octets)) =
      .ok (caps, r.bytes.take k) := by
  cases count with
  | zero => rfl
  | succ count =>
      have hlen : (r.bytes.take k).length = k := List.length_take_of_le h.le
      unfold Capabilities.walk
      by_cases hheader : k < 3
      · rw [if_pos (by omega)]
        rfl
      · have hthird : (r.bytes.take k)[2] = UInt8.ofNat r.value.length := List.getElem_take
        have hsize : (UInt8.ofNat r.value.length).toNat = r.value.length := by
          rw [UInt8.toNat_ofNat']
          exact Nat.mod_eq_of_lt r.fits
        rw [Record.bytes_length] at h
        rw [if_neg (by omega), index_eq (by omega), ok_bind, index_eq (by omega), ok_bind]
        dsimp only
        rw [index_eq (by omega), ok_bind, hthird, hsize, if_neg (by omega), if_pos (by omega)]
        rfl

/-- **The walk over a list that is cut short** applies the records that are all there. By
induction on the records: behind the last one that is whole there are too few bytes for the
next. -/
theorem walk_take {ε : Type} (records : List Record) :
    ∀ (k count : Nat) (caps : Capabilities), records.length ≤ count →
      ∃ rest, (Capabilities.walk count caps ((recordBytes records).take k) :
        Exec ε (Capabilities × Octets)) =
          .ok ((complete k records).foldl Capabilities.applyRecord caps, rest) := by
  induction records with
  | nil =>
      intro k count caps _
      refine ⟨[], ?_⟩
      rw [recordBytes, List.flatMap_nil, List.take_nil]
      cases count <;> rfl
  | cons r records ih =>
      intro k count caps hcount
      have hcons : recordBytes (r :: records) = r.bytes ++ recordBytes records := rfl
      rw [hcons]
      unfold complete
      by_cases hfits : r.bytes.length ≤ k
      · obtain ⟨count, rfl⟩ : ∃ c, count = c + 1 := ⟨count - 1, by
          rw [List.length_cons] at hcount
          omega⟩
        obtain ⟨rest, hrest⟩ := ih (k - r.bytes.length) count (caps.applyRecord r)
          (Nat.le_of_succ_le_succ hcount)
        refine ⟨rest, ?_⟩
        rw [List.take_append, List.take_of_length_le hfits, Capabilities.walk_record, hrest,
          if_pos hfits, List.foldl_cons]
      · refine ⟨r.bytes.take k, ?_⟩
        rw [List.take_append_of_le_length (by omega), walk_cut r (by omega), if_neg hfits,
          List.foldl_nil]

/-- A capability reply with these records and nothing behind them. -/
def payload (records : List Record) : Octets :=
  0xB5 :: UInt8.ofNat records.length :: recordBytes records

/-- What is left behind the records decides nothing but whether there is more. -/
theorem parse_of_walk {ε : Type} (command count : UInt8) {body rest : Octets} {caps : Capabilities}
    (h : (Capabilities.walk count.toNat {} body : Exec ε (Capabilities × Octets)) =
      .ok (caps, rest)) :
    ∃ c, (Capabilities.parse (command :: count :: body) : Exec ε Capabilities) = .ok c ∧
      c.Agree caps := by
  unfold Capabilities.parse
  rw [if_neg (by simp), index_eq (by simp), ok_bind, sliceFrom_eq (by simp), ok_bind]
  have hbody : (command :: count :: body).drop 2 = body := rfl
  have hcount : (command :: count :: body)[1] = count := rfl
  rw [hbody, hcount, h, ok_bind]
  dsimp only
  by_cases hmore : 1 < rest.length
  · rw [if_pos hmore, sub_eq (by omega), ok_bind, index_eq (by omega), ok_bind]
    exact ⟨_, rfl, rfl⟩
  · rw [if_neg hmore]
    exact ⟨caps, rfl, rfl⟩

theorem toNat_count {records : List Record} (h : records.length ≤ 255) :
    (UInt8.ofNat records.length).toNat = records.length := by
  rw [UInt8.toNat_ofNat']
  exact Nat.mod_eq_of_lt (by omega)

/-- A reply is decoded by applying its records, one after the other. -/
theorem parse_payload {ε : Type} {records : List Record} (h : records.length ≤ 255) :
    ∃ c, (Capabilities.parse (payload records) : Exec ε Capabilities) = .ok c ∧
      c.Agree (records.foldl Capabilities.applyRecord {}) := by
  have hwalk := Capabilities.walk_records (ε := ε) records [] {}
  rw [List.append_nil] at hwalk
  exact parse_of_walk _ _ (by rw [toNat_count h]; exact hwalk)

/-- **Capability lists.**  Merging what two replies say whose records have no id in
common is decoding one reply with all their records; and a reply that is cut after any
byte says what its records say that are all there: those that come first and fit, up
to one that does not. -/
theorem decoding {ε : Type} :
    (∀ xs ys : List Record, (∀ x ∈ xs, ∀ y ∈ ys, x.id ≠ y.id) → xs.length + ys.length ≤ 255 →
        ∃ a b c, (Capabilities.parse (payload xs) : Exec ε Capabilities) = .ok a ∧
          (Capabilities.parse (payload ys) : Exec ε Capabilities) = .ok b ∧
          (Capabilities.parse (payload (xs ++ ys)) : Exec ε Capabilities) = .ok c ∧
          (a.merge b).Agree c) ∧
      ∀ records : List Record, records.length ≤ 255 → ∀ k,
        (∃ a c, (Capabilities.parse (payload (complete k records)) : Exec ε Capabilities) = .ok a ∧
          (Capabilities.parse (0xB5 :: UInt8.ofNat records.length ::
            (recordBytes records).take k) : Exec ε Capabilities) = .ok c ∧ c.Agree a ∧
          c.Agree ((complete k records).foldl Capabilities.applyRecord {})) ∧
        complete k records <+: records ∧ (recordBytes (complete k records)).length ≤ k ∧
          ∀ r after, records = complete k records ++ r :: after →
            k < (recordBytes (complete k records ++ [r])).length := by
  refine ⟨?_, ?_⟩
  · intro xs ys hids hcount
    have happend : (xs ++ ys).length ≤ 255 := by
      rw [List.length_append]
      exact hcount
    obtain ⟨a, hparse, ha⟩ := parse_payload (ε := ε) (show xs.length ≤ 255 by omega)
    obtain ⟨b, hparse', hb⟩ := parse_payload (ε := ε) (show ys.length ≤ 255 by omega)
    obtain ⟨c, hparse'', hc⟩ := parse_payload (ε := ε) happend
    refine ⟨a, b, c, hparse, hparse', hparse'', ?_⟩
    exact ((ha.merge hb).trans (merge_records hids)).trans_symm hc
  · intro records hcount k
    have hspec := complete_spec records k
    have hfewer : (complete k records).length ≤ 255 := hspec.1.length_le.trans hcount
    obtain ⟨a, hparse, ha⟩ := parse_payload (ε := ε) hfewer
    obtain ⟨rest, hwalk⟩ := walk_take (ε := ε) records k records.length {} (Nat.le_refl _)
    obtain ⟨c, hparse', hc⟩ := parse_of_walk 0xB5 (UInt8.ofNat records.length)
      (by rw [toNat_count hcount]; exact hwalk)
    exact ⟨⟨a, c, hparse, hparse', hc.trans_symm ha, hc⟩, hspec⟩

end Ac
