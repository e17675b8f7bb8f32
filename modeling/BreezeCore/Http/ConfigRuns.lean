import BreezeCore.Http.ConfigRoutes

/-!
# Document and manager over runs of the configuration routes

* `refused_unchanged` — an error answer leaves document and manager as they were;
* `add_keepsCredentials` — an addition without credentials takes none away;
* `configuration_agrees_iff` — document and manager agree over every run exactly when no
  id is drivable twice in the file, and no addition of a new unit ends in credentials that
  cannot be cut.
-/

namespace BreezeHttp.ConfigRoutes

open Fallible Text Net BreezeStore BreezeDevice Runs

/-- The ids under which the stored units can be driven. -/
def drivableIds (units : List UnitConfig) : List Nat := units.filterMap deviceId

/-- **Document and manager agree.** -/
structure Agree (s : ConfigState) : Prop where
  listed : s.manager.Listed
  drivable : ∀ id, id ∈ s.manager.order ↔ id ∈ drivableIds s.config.units

/-! ## The start -/

/-- A unit that is made has the id its entry can be driven by. The address and the id are read by
the same functions that `deviceId` reads them by, and credentials only add a way to fail. -/
theorem toDeviceUnit_ok {unit : UnitConfig} {result : Option DeviceUnit}
    (h : toDeviceUnit unit = .ok result) : result.map DeviceUnit.id = deviceId unit := by
  unfold toDeviceUnit at h
  unfold deviceId
  split at h
  next hip =>
    obtain rfl := Except.ok.inj h
    rw [hip, if_neg (by simp)]
    rfl
  next ip hip =>
    obtain ⟨key, -, h⟩ := bind_eq_ok h
    rw [hip]
    split at h
    next hid =>
      obtain ⟨token, -, h⟩ := bind_eq_ok h
      obtain rfl := Except.ok.inj h
      rw [if_pos ⟨rfl, hid⟩]
      rfl
    next hid =>
      obtain rfl := Except.ok.inj h
      rw [if_neg fun h => hid h.2]
      rfl

/-- So what is made of a list are the units that can be driven. -/
theorem mapM_toDeviceUnit_ok {units : List UnitConfig} {results : List (Option DeviceUnit)}
    (h : units.mapM toDeviceUnit = .ok results) :
    (results.filterMap id).map DeviceUnit.id = drivableIds units := by
  induction units generalizing results with
  | nil =>
      obtain rfl := Except.ok.inj h
      rfl
  | cons unit units ih =>
      rw [List.mapM_cons] at h
      obtain ⟨result, hresult, h⟩ := bind_eq_ok h
      obtain ⟨rest, hrest, h⟩ := bind_eq_ok h
      obtain rfl := Except.ok.inj h
      have hid := toDeviceUnit_ok hresult
      unfold drivableIds
      rw [List.filterMap_cons, List.filterMap_cons, ← hid]
      cases result with
      | none => exact ih hrest
      | some unit => exact congrArg (unit.id :: ·) (ih hrest)

/-- **At the start** document and manager agree exactly when no id is drivable twice. The
manager's order is the list of drivable ids as they stand in the file, repetitions included. -/
theorem load_agree_iff {configPath : Str} {config : AppConfig} {s : ConfigState}
    (h : ConfigState.load configPath config = .ok (.ok s)) :
    Agree s ↔ (drivableIds config.units).Nodup := by
  unfold ConfigState.load at h
  split at h
  next => cases Except.ok.inj h
  obtain ⟨results, hresults, h⟩ := bind_eq_ok h
  obtain rfl := Except.ok.inj (Except.ok.inj h)
  have hids := mapM_toDeviceUnit_ok hresults
  constructor
  · intro hagree
    have hnodup := (DeviceManager.listed_withTiming_iff _).mp hagree.listed
    rw [hids] at hnodup
    exact hnodup
  · intro hnodup
    refine ⟨(DeviceManager.listed_withTiming_iff _).mpr (hids ▸ hnodup), ?_⟩
    intro id
    dsimp only
    rw [DeviceManager.withTiming_order, hids]

/-! ## What the routes do to the drivable ids -/

/-- What passes a check passes the rest. -/
theorem of_refused {α : Type} {c : Prop} [Decidable c] {r : Reply} {x : Except Reply α} {a : α}
    (h : (if c then .error r else x) = .ok a) : ¬ c ∧ x = .ok a := by
  split at h
  next => cases h
  next hc => exact ⟨hc, h⟩

/-- An addition that passed the checks bears the id that was found. The checks go by the first
unit that the scan found, and its id has to fit in the signed field of the document. -/
theorem checkAdd_id {body : Except String AddUnitRequest}
    {scan : Except String (List Discover.Discovered)} {cloud : CloudAnswer} {a : Addition}
    (h : checkAdd body scan cloud = .ok a) : a.id.toInt = a.found.id := by
  unfold checkAdd at h
  split at h
  next => cases h
  next request =>
    split at h
    next => cases h
    next =>
      -- The name and the credentials, and then what the scan found.
      have h := (of_refused (of_refused (of_refused (of_refused h).2).2).2).2
      split at h
      next => cases h
      next => cases h
      next found rest =>
        split at h
        next hsmall =>
          split at h
          next => cases h
          next supplied =>
            obtain rfl := Except.ok.inj h
            exact Int64.toInt_ofNat_of_lt hsmall
        next => cases h

/-- What is stored can be driven. -/
theorem deviceId_entry {unit : UnitConfig} {ip : Ipv4Addr} {n : Nat} (hip : unit.ip = ip.toText)
    (hid : unit.id.toInt = n) : deviceId unit = some n := by
  unfold deviceId
  rw [hip, IpAddr.parse_toText, hid, if_pos ⟨rfl, Int.natCast_nonneg n⟩, Int.toNat_natCast]

/-- The id is read back from its text. -/
theorem fromStrRadix_idText {unit : UnitConfig} :
    fromStrRadix 10 (2 ^ 64) unit.idText =
      if unit.id.toInt < 0 then none else some unit.id.toInt.toNat := by
  have hlt := unit.id.toInt_lt
  exact fromStrRadix_showInt (by push_cast; omega)

/-- An id can be driven when some entry with it can. -/
theorem mem_drivableIds {units : List UnitConfig} {n : Nat} :
    n ∈ drivableIds units ↔ ∃ u ∈ units, deviceId u = some n := List.mem_filterMap

/-- The id of a unit that can be driven. -/
theorem toInt_of_deviceId {unit : UnitConfig} {n : Nat} (h : deviceId unit = some n) :
    unit.id.toInt = n := by
  unfold deviceId at h
  split at h
  next hok =>
    have hn := Option.some.inj h
    omega
  next => cases h

/-- **An addition** makes the unit drivable, and changes nothing for the others. An entry under
the id is brought up to date in its place, and otherwise the unit goes to the end of the list. -/
theorem mem_drivableIds_add {config : AppConfig} {unit : UnitConfig} {ip : Ipv4Addr} {m : Nat}
    (hip : unit.ip = ip.toText) (hid : unit.id.toInt = m) (n : Nat) :
    n ∈ drivableIds (config.addOrUpdateUnit unit).2.units ↔
      n = m ∨ n ∈ drivableIds config.units := by
  rcases config.addOrUpdateUnit_cases unit with
    ⟨before, existing, after, hunits, hsame, -, hupdated⟩ | ⟨-, hadded⟩
  · have hnew : deviceId (existing.updated unit) = some m :=
      @deviceId_entry _ ip _ hip (hsame ▸ hid)
    have hold : ∀ k, deviceId existing = some k → k = m := by
      intro k hk
      have hk' := toInt_of_deviceId hk
      rw [hsame, hid] at hk'
      exact (Int.ofNat.inj hk').symm
    rw [hupdated, hunits]
    unfold drivableIds
    rw [List.filterMap_append, List.filterMap_append, List.filterMap_cons, List.filterMap_cons,
      hnew]
    cases hexisting : deviceId existing with
    | none =>
        simp only [List.mem_append, List.mem_cons]
        tauto
    | some k =>
        obtain rfl := hold k hexisting
        simp only [List.mem_append, List.mem_cons]
        tauto
  · have hnew : deviceId unit = some m := @deviceId_entry _ ip _ hip hid
    rw [hadded]
    unfold drivableIds
    rw [List.filterMap_append, List.filterMap_cons, hnew, List.filterMap_nil, List.mem_append,
      List.mem_singleton, or_comm]

/-- The unit that was added is found.  It can be driven, and it has the credentials it was
added with or else those it had. -/
theorem findUnit_add {config : AppConfig} {unit : UnitConfig} {ip : Ipv4Addr} {m : Nat}
    (hip : unit.ip = ip.toText) (hid : unit.id.toInt = m) :
    ∃ stored, (config.addOrUpdateUnit unit).2.findUnit (showInt unit.id.toInt) = some stored ∧
      deviceId stored = some m ∧
      stored.token =
        unit.token.or ((config.findUnit (showInt unit.id.toInt)).bind UnitConfig.token) ∧
      stored.key = unit.key.or ((config.findUnit (showInt unit.id.toInt)).bind UnitConfig.key) := by
  have hskip : ∀ units : List UnitConfig, (∀ u ∈ units, u.id ≠ unit.id) →
      units.find? (fun u => u.idText = showInt unit.id.toInt) = none := by
    intro units hother
    rw [List.find?_eq_none]
    intro u hu htext
    exact hother u hu (UnitConfig.idText_eq_iff.mp (of_decide_eq_true htext))
  have hself : ∀ u : UnitConfig, u.id = unit.id → ∀ rest : List UnitConfig,
      (u :: rest).find? (fun u => u.idText = showInt unit.id.toInt) = some u := by
    intro u hu rest
    exact List.find?_cons_of_pos (decide_eq_true (UnitConfig.idText_eq_iff.mpr hu))
  unfold AppConfig.findUnit
  rcases config.addOrUpdateUnit_cases unit with
    ⟨before, existing, after, hunits, hsame, hbefore, hupdated⟩ | ⟨hnone, hadded⟩
  · have hexisting : config.units.find? (fun u => u.idText = showInt unit.id.toInt) =
        some existing := by
      rw [hunits, List.find?_append, hskip before hbefore, Option.none_or, hself existing hsame]
    refine ⟨existing.updated unit, ?_, @deviceId_entry _ ip _ hip (hsame ▸ hid), ?_⟩
    · rw [hupdated, List.find?_append, hskip before hbefore, Option.none_or,
        hself (existing.updated unit) hsame]
    · rw [hexisting]
      exact ⟨rfl, rfl⟩
  · refine ⟨unit, ?_, @deviceId_entry _ ip _ hip hid, ?_⟩
    · rw [hadded, List.find?_append, hskip _ hnone, Option.none_or, hself unit rfl]
    · rw [hskip _ hnone]
      exact ⟨Option.or_none.symm, Option.or_none.symm⟩

/-- **A removal** takes the id out in both places. The document goes by the text of the id and the
manager by its number, and the one is the other written out. -/
theorem agree_remove {s : ConfigState} (h : Agree s) {unitId : Str} {found : UnitConfig}
    (hfound : s.config.findUnit unitId = some found) :
    Agree { s with
      config := (s.config.removeUnit unitId).2
      manager :=
        match fromStrRadix 10 (2 ^ 64) unitId with
        | none => s.manager
        | some id => s.manager.remove id } := by
  have htext : found.idText = unitId := by simpa using List.find?_some hfound
  subst htext
  have hmem : ∀ n, n ∈ drivableIds (s.config.removeUnit found.idText).2.units ↔
      n ∈ drivableIds s.config.units ∧ (n : Int) ≠ found.id.toInt := by
    intro n
    rw [mem_drivableIds, mem_drivableIds]
    constructor
    · rintro ⟨u, hu, hid⟩
      obtain ⟨hu, hne⟩ := List.mem_filter.mp hu
      refine ⟨⟨u, hu, hid⟩, ?_⟩
      intro hsame
      rw [← toInt_of_deviceId hid, Int64.toInt_inj] at hsame
      exact of_decide_eq_true hne (UnitConfig.idText_eq_iff.mpr hsame)
    · rintro ⟨⟨u, hu, hid⟩, hne⟩
      refine ⟨u, List.mem_filter.mpr ⟨hu, decide_eq_true ?_⟩, hid⟩
      intro htext
      rw [← toInt_of_deviceId hid, UnitConfig.idText_eq_iff.mp htext] at hne
      exact hne rfl
  rw [fromStrRadix_idText]
  split
  next hnone =>
    -- A negative id is in neither.
    have hneg : found.id.toInt < 0 := by
      by_contra hpos
      rw [if_neg hpos] at hnone
      cases hnone
    refine ⟨h.listed, ?_⟩
    intro n
    dsimp only
    rw [h.drivable, hmem]
    exact (and_iff_left (by omega)).symm
  next id hsome =>
    have hpos : ¬ found.id.toInt < 0 := by
      intro hneg
      rw [if_pos hneg] at hsome
      cases hsome
    rw [if_neg hpos] at hsome
    have hid := Option.some.inj hsome
    refine ⟨h.listed.remove id, ?_⟩
    intro n
    dsimp only
    rw [DeviceManager.mem_remove, h.drivable, hmem]
    apply and_congr_right
    intro _
    omega

/-- **A rename** changes no id and no address. -/
theorem drivableIds_setName (config : AppConfig) (unitId name : Str) :
    drivableIds (config.setName unitId name).units = drivableIds config.units := by
  unfold drivableIds AppConfig.setName
  dsimp only
  generalize config.units.findIdx (fun u => u.idText = unitId) = i
  induction config.units generalizing i with
  | nil => rw [List.modify_nil]
  | cons u units ih =>
      cases i with
      | zero => rfl
      | succ i => rw [List.modify_succ_cons, List.filterMap_cons, List.filterMap_cons, ih]

/-! ## The steps -/

/-- An answer below 400 is no refusal. -/
theorem not_refused {r : Reply} {status : Nat} {content : Content}
    (h : some (⟨status, content⟩ : Reply) = some r) (hstatus : 400 ≤ r.status) :
    400 ≤ status := by
  obtain rfl := Option.some.inj h
  exact hstatus

/-- An addition that is refused changes neither document nor manager. The list of units is put
back when the save fails, the manager is written only behind it, and every other refusal comes in
front of both. -/
theorem addUnit_refused {s : ConfigState} {body : Except String AddUnitRequest}
    {scan : Except String (List Discover.Discovered)} {cloud : CloudAnswer}
    {saved : Except String Unit} {r : Reply} (h : (addUnit s body scan cloud saved).1 = some r)
    (hstatus : 400 ≤ r.status) :
    (addUnit s body scan cloud saved).2.config = s.config ∧
      (addUnit s body scan cloud saved).2.manager = s.manager := by
  revert h
  unfold addUnit
  cases checkAdd body scan cloud with
  | error reply => exact fun _ => ⟨rfl, rfl⟩
  | ok addition =>
      dsimp only
      split
      next => exact fun _ => ⟨rfl, rfl⟩
      next =>
        cases saved with
        | error e => exact fun _ => ⟨AppConfig.addOrUpdateUnit_back _ _, rfl⟩
        | ok =>
            dsimp only
            split
            next => exact fun h => absurd h nofun
            next =>
              split
              next => exact fun h => absurd h nofun
              next => exact fun h => absurd (not_refused h hstatus) (by decide)
              next => exact fun h => absurd (not_refused h hstatus) (by decide)

/-- Nor does a name. The old one is put back when the save fails, and the manager is told the new
one only behind the save. -/
theorem renameUnit_refused {s : ConfigState} {unitId : Str} {body : Except String Str}
    {saved : Except String Unit} {isFree : Bool} {r : Reply}
    (h : (renameUnit s unitId body saved isFree).1 = some r) (hstatus : 400 ≤ r.status) :
    (renameUnit s unitId body saved isFree).2.config = s.config ∧
      (renameUnit s unitId body saved isFree).2.manager = s.manager := by
  revert h
  unfold renameUnit
  cases body with
  | error e => exact fun _ => ⟨rfl, rfl⟩
  | ok text =>
      dsimp only
      split
      next => exact fun _ => ⟨rfl, rfl⟩
      split
      next => exact fun _ => ⟨rfl, rfl⟩
      split
      next => exact fun _ => ⟨rfl, rfl⟩
      split
      next => exact fun _ => ⟨rfl, rfl⟩
      next found hfound =>
        cases saved with
        | error e => exact fun _ => ⟨AppConfig.setName_back hfound _, rfl⟩
        | ok => exact fun h => absurd (not_refused h hstatus) (by decide)

/-- A removal that is refused changes neither document nor manager. The units are put back when
the save fails. -/
theorem deleteUnit_refused {s : ConfigState} {unitId : Str} {saved : Except String Unit}
    {r : Reply} (h : (deleteUnit s unitId saved).1 = some r) (hstatus : 400 ≤ r.status) :
    (deleteUnit s unitId saved).2.config = s.config ∧
      (deleteUnit s unitId saved).2.manager = s.manager := by
  revert h
  unfold deleteUnit
  split
  next => exact fun _ => ⟨rfl, rfl⟩
  split
  next => exact fun _ => ⟨rfl, rfl⟩
  next =>
    cases saved with
    | error e => exact fun _ => ⟨rfl, rfl⟩
    | ok => exact fun h => absurd (not_refused h hstatus) (by decide)

/-- **An error answer** leaves document and manager as they were. -/
theorem refused_unchanged {s : ConfigState} {op : Op} {r : Reply} (h : (step s op).1 = some r)
    (hstatus : 400 ≤ r.status) :
    (step s op).2.config = s.config ∧ (step s op).2.manager = s.manager := by
  cases op with
  | add body scan cloud saved => exact addUnit_refused h hstatus
  | rename unitId body saved isFree => exact renameUnit_refused h hstatus
  | delete unitId saved => exact deleteUnit_refused h hstatus

/-! ### Additions -/

/-- Reading pairs reports no error. -/
theorem hexPairs_ok_or_crash (s : Str) : (∃ r, hexPairs s = .ok r) ∨ hexPairs s = crash := by
  fun_induction hexPairs s with
  | case1 | case2 | case4 | case6 => exact .inl ⟨_, rfl⟩
  | case3 | case5 => exact .inr rfl
  | case7 c d rest hwide hnarrow n hn ih =>
      rcases ih with ⟨r, hr⟩ | hcrash
      · rw [hr]
        exact .inl ⟨_, rfl⟩
      · rw [hcrash]
        exact .inr rfl

/-- Reading a credential either works or panics. -/
theorem optionalHex_ok_or_crash (text : Option Str) :
    (∃ r, optionalHex text = .ok r) ∨ optionalHex text = crash := by
  cases text with
  | none => exact .inl ⟨_, rfl⟩
  | some s =>
      unfold optionalHex hexToBytes
      dsimp only
      split
      next => exact .inl ⟨_, rfl⟩
      next => exact hexPairs_ok_or_crash s

/-- A unit that can be driven is turned into one exactly when its credentials can be cut. Cutting
the key comes first and the token second, and either panics on a text it cannot cut. -/
theorem toDeviceUnit_of_deviceId {unit : UnitConfig} {n : Nat} (h : deviceId unit = some n) :
    if Returns (optionalHex unit.key) ∧ Returns (optionalHex unit.token) then
      ∃ device, toDeviceUnit unit = .ok (some device) ∧ device.id = n
    else toDeviceUnit unit = crash := by
  have hid := toInt_of_deviceId h
  have hpos : 0 ≤ unit.id.toInt := by omega
  cases hip : IpAddr.parse unit.ip with
  | none =>
      unfold deviceId at h
      rw [hip] at h
      cases h
  | some ip =>
      unfold toDeviceUnit
      rw [hip]
      dsimp only
      rcases optionalHex_ok_or_crash unit.key with ⟨key, hkey⟩ | hkey
      · rw [hkey, ok_bind, if_pos hpos]
        rcases optionalHex_ok_or_crash unit.token with ⟨token, htoken⟩ | htoken
        · rw [htoken, if_pos ⟨trivial, trivial⟩]
          exact ⟨_, rfl, by rw [hid, Int.toNat_natCast]⟩
        · rw [htoken, if_neg fun h => h.2]
          rfl
      · rw [hkey, if_neg fun h => h.1]
        rfl

/-- The credentials of a unit once it was added: those supplied, or those it had. -/
def Addition.credentials (a : Addition) (config : AppConfig) : Option Str × Option Str :=
  let stored := config.findUnit (showInt a.id.toInt)
  (a.supplied.1.or (stored.bind UnitConfig.token), a.supplied.2.or (stored.bind UnitConfig.key))

/-- An addition that is stored is of a unit the manager has, or its credentials can be
cut. -/
def Storable (s : ConfigState) : Op → Prop
  | .add body scan cloud (.ok ()) =>
      ∀ a ∈ (checkAdd body scan cloud).toOption,
        s.poisoned = false → a.found.id ∉ s.manager.order →
          Returns (optionalHex (a.credentials s.config).2) ∧
            Returns (optionalHex (a.credentials s.config).1)
  | _ => True

instance (s : ConfigState) : DecidablePred (Storable s) := fun op =>
  match op with
  | .add body scan cloud (.ok ()) =>
      inferInstanceAs (Decidable (∀ a ∈ (checkAdd body scan cloud).toOption, _ → _ → _ ∧ _))
  | .add _ _ _ (.error _) | .rename .. | .delete .. => inferInstanceAs (Decidable True)

/-- **An addition** that is saved: the unit is in the document, and in the manager too if its
credentials can be cut. -/
theorem addUnit_saved {s : ConfigState} {body : Except String AddUnitRequest}
    {scan : Except String (List Discover.Discovered)} {cloud : CloudAnswer} {a : Addition}
    (ha : checkAdd body scan cloud = .ok a) (hs : s.poisoned = false) :
    (addUnit s body scan cloud (.ok ())).2.config =
        (s.config.addOrUpdateUnit (a.entry s.config)).2 ∧
      if Returns (optionalHex (a.credentials s.config).2) ∧
          Returns (optionalHex (a.credentials s.config).1) then
        ∃ device, device.id = a.found.id ∧
          (addUnit s body scan cloud (.ok ())).2.manager = s.manager.upsert device
      else (addUnit s body scan cloud (.ok ())).2.manager = s.manager := by
  obtain ⟨stored, hstored, hid, htoken, hkey⟩ :=
    @findUnit_add s.config (a.entry s.config) a.found.ip a.found.id rfl (checkAdd_id ha)
  have hunit := toDeviceUnit_of_deviceId hid
  rw [htoken, hkey] at hunit
  have hfound : (s.config.addOrUpdateUnit (a.entry s.config)).2.findUnit
      (showInt a.id.toInt) = some stored := hstored
  unfold addUnit
  rw [ha]
  dsimp only
  rw [hs, if_neg (by decide), hfound]
  dsimp only
  by_cases hcut : Returns (optionalHex (a.credentials s.config).2) ∧
      Returns (optionalHex (a.credentials s.config).1)
  · rw [if_pos hcut]
    obtain ⟨device, hdevice, hdeviceId⟩ := (if_pos hcut).mp hunit
    rw [hdevice]
    exact ⟨rfl, device, hdeviceId, rfl⟩
  · rw [if_neg hcut]
    have hcrash : toDeviceUnit stored = crash := (if_neg hcut).mp hunit
    rw [hcrash]
    exact ⟨rfl, rfl⟩

/-- Nothing of the unit list is another's. -/
theorem Agree.of_eq {s t : ConfigState} (h : Agree s)
    (hids : drivableIds t.config.units = drivableIds s.config.units)
    (horder : t.manager.order = s.manager.order) (hlisted : t.manager.Listed) : Agree t :=
  ⟨hlisted, fun id => by rw [horder, hids]; exact h.drivable id⟩

/-- An addition that is not saved changes nothing. -/
theorem addUnit_unsaved {s : ConfigState} {body : Except String AddUnitRequest}
    {scan : Except String (List Discover.Discovered)} {cloud : CloudAnswer}
    {saved : Except String Unit}
    (h : ∀ a, checkAdd body scan cloud = .ok a → s.poisoned = false → saved ≠ .ok ()) :
    (addUnit s body scan cloud saved).2.config = s.config ∧
      (addUnit s body scan cloud saved).2.manager = s.manager := by
  unfold addUnit
  cases ha : checkAdd body scan cloud with
  | error reply => exact ⟨rfl, rfl⟩
  | ok a =>
      dsimp only
      split
      next => exact ⟨rfl, rfl⟩
      next hs =>
        cases saved with
        | error e => exact ⟨AppConfig.addOrUpdateUnit_back _ _, rfl⟩
        | ok => exact absurd rfl (h a ha (by simpa using hs))

/-- An addition keeps document and manager in agreement exactly when it can be stored: unless the
manager panics over the credentials after the document was saved. -/
theorem agree_add_iff {s : ConfigState} (h : Agree s) (body : Except String AddUnitRequest)
    (scan : Except String (List Discover.Discovered)) (cloud : CloudAnswer)
    (saved : Except String Unit) :
    Agree (addUnit s body scan cloud saved).2 ↔ Storable s (.add body scan cloud saved) := by
  by_cases hsaved : ∃ a, checkAdd body scan cloud = .ok a ∧ s.poisoned = false ∧ saved = .ok ()
  · obtain ⟨a, ha, hs, rfl⟩ := hsaved
    obtain ⟨hconfig, hmanager⟩ := addUnit_saved ha hs
    have hdrivable : ∀ n, n ∈ drivableIds (addUnit s body scan cloud (.ok ())).2.config.units ↔
        n = a.found.id ∨ n ∈ s.manager.order := by
      intro n
      rw [hconfig, h.drivable]
      exact @mem_drivableIds_add _ _ a.found.ip _ rfl (checkAdd_id ha) n
    have hfine : Storable s (.add body scan cloud (.ok ())) ↔ (a.found.id ∉ s.manager.order →
        Returns (optionalHex (a.credentials s.config).2) ∧
          Returns (optionalHex (a.credentials s.config).1)) := by
      constructor
      · intro hall
        exact hall a (by rw [ha]; rfl) hs
      · intro hcut a' ha' _
        rw [ha] at ha'
        obtain rfl := Option.some.inj ha'
        exact hcut
    rw [hfine]
    split at hmanager
    next hcut =>
      obtain ⟨device, hid, hmanager⟩ := hmanager
      refine iff_of_true ⟨hmanager ▸ h.listed.upsert device, ?_⟩ fun _ => hcut
      intro n
      rw [hdrivable, hmanager, DeviceManager.mem_upsert h.listed, hid]
    next hcut =>
      constructor
      · intro hagree hnew
        -- The document has a unit now that the manager lacks.
        have hin := (hagree.drivable a.found.id).mpr ((hdrivable _).mpr (.inl rfl))
        rw [hmanager] at hin
        exact absurd hin hnew
      · intro hcond
        have hold : a.found.id ∈ s.manager.order := by
          by_contra hnew
          exact hcut (hcond hnew)
        refine ⟨hmanager ▸ h.listed, ?_⟩
        intro n
        rw [hdrivable, hmanager]
        refine ⟨.inr, ?_⟩
        rintro (rfl | hn)
        · exact hold
        · exact hn
  · obtain ⟨hconfig, hmanager⟩ := @addUnit_unsaved s body scan cloud saved
      fun a ha hs hok => hsaved ⟨a, ha, hs, hok⟩
    refine iff_of_true ?_ ?_
    · exact h.of_eq (by rw [hconfig]) (by rw [hmanager]) (by rw [hmanager]; exact h.listed)
    · cases saved with
      | error e => trivial
      | ok =>
          intro a ha hs
          cases hchecked : checkAdd body scan cloud with
          | error reply =>
              rw [hchecked] at ha
              cases ha
          | ok a' => exact absurd ⟨a', hchecked, hs, rfl⟩ hsaved

/-- A name is none of their business. It changes no address and no id, so that the same units can
be driven. -/
theorem agree_rename {s : ConfigState} (h : Agree s) (unitId : Str) (body : Except String Str)
    (saved : Except String Unit) (isFree : Bool) :
    Agree (renameUnit s unitId body saved isFree).2 := by
  unfold renameUnit
  cases body with
  | error e => exact h
  | ok text =>
      dsimp only
      split
      next => exact h
      split
      next => exact h
      split
      next => exact h
      split
      next => exact h
      next found hfound =>
        cases saved with
        | error e =>
            refine h.of_eq ?_ rfl h.listed
            dsimp only
            rw [drivableIds_setName, drivableIds_setName]
        | ok =>
            dsimp only
            split
            next => exact h.of_eq (drivableIds_setName _ _ _) rfl h.listed
            next id =>
              exact h.of_eq (drivableIds_setName _ _ _) (DeviceManager.rename_order _ _ _ _)
                (h.listed.rename _ _ _)

/-- A removal is one in both. -/
theorem agree_delete {s : ConfigState} (h : Agree s) (unitId : Str) (saved : Except String Unit) :
    Agree (deleteUnit s unitId saved).2 := by
  unfold deleteUnit
  split
  next => exact h
  split
  next => exact h
  next found hfound =>
    cases saved with
    | error e => exact h.of_eq rfl rfl h.listed
    | ok => exact agree_remove h hfound

/-- **A step** from document and manager in agreement. -/
theorem agree_step_iff {s : ConfigState} (h : Agree s) (op : Op) :
    Agree (step s op).2 ↔ Storable s op := by
  cases op with
  | add body scan cloud saved => exact agree_add_iff h body scan cloud saved
  | rename unitId body saved isFree =>
      exact iff_of_true (agree_rename h unitId body saved isFree) trivial
  | delete unitId saved => exact iff_of_true (agree_delete h unitId saved) trivial

/-! ## Credentials -/

/-- Every unit is still there, with its id, and with the credentials it had where none are
supplied. -/
def KeepsCredentials (before after : AppConfig) (supplied : Option Str × Option Str) : Prop :=
  ∀ (i : Nat) (u : UnitConfig), before.units[i]? = some u →
    ∃ u', after.units[i]? = some u' ∧ u'.id = u.id ∧
      (supplied.1 = none → u'.token = u.token) ∧ (supplied.2 = none → u'.key = u.key)

/-- A document that was not changed keeps its credentials. -/
theorem KeepsCredentials.refl (config : AppConfig) (supplied : Option Str × Option Str) :
    KeepsCredentials config config supplied :=
  fun _ u hu => ⟨u, hu, rfl, fun _ => rfl, fun _ => rfl⟩

/-- An update without credentials keeps those that are there. Only the entry under the id changes,
and `updated` takes the old field where the new one is missing. -/
theorem addOrUpdateUnit_keepsCredentials (config : AppConfig) (unit : UnitConfig) :
    KeepsCredentials config (config.addOrUpdateUnit unit).2 (unit.token, unit.key) := by
  intro i u hu
  rcases config.addOrUpdateUnit_cases unit with
    ⟨before, existing, after, hunits, hsame, -, hupdated⟩ | ⟨-, hadded⟩
  · rw [hunits] at hu
    rw [hupdated]
    rcases Nat.lt_trichotomy i before.length with hi | hi | hi
    · refine ⟨u, ?_, rfl, fun _ => rfl, fun _ => rfl⟩
      rw [List.getElem?_append_left hi] at hu ⊢
      exact hu
    · subst hi
      rw [List.getElem?_append_right le_rfl, Nat.sub_self] at hu
      obtain rfl := Option.some.inj hu
      refine ⟨existing.updated unit, ?_, rfl, ?_, ?_⟩
      · rw [List.getElem?_append_right le_rfl, Nat.sub_self]
        rfl
      · intro hnone
        exact (congrArg (·.or existing.token) hnone).trans Option.none_or
      · intro hnone
        exact (congrArg (·.or existing.key) hnone).trans Option.none_or
    · refine ⟨u, ?_, rfl, fun _ => rfl, fun _ => rfl⟩
      obtain ⟨k, hk⟩ : ∃ k, i - before.length = k + 1 := ⟨i - before.length - 1, by omega⟩
      rw [List.getElem?_append_right hi.le, hk, List.getElem?_cons_succ] at hu ⊢
      exact hu
  · rw [hadded]
    refine ⟨u, ?_, rfl, fun _ => rfl, fun _ => rfl⟩
    obtain ⟨hi, -⟩ := List.getElem?_eq_some_iff.mp hu
    rw [List.getElem?_append_left hi]
    exact hu

/-- The request brings no credentials, neither itself nor by an account. -/
def AddUnitRequest.BringsNone (request : AddUnitRequest) : Prop :=
  request.token = none ∧ request.key = none ∧
    ¬ (request.mideaAccount.isSome = true ∧ request.mideaPassword.isSome = true)

/-- A request that brings none is given none. -/
theorem resolveCredentials_of_bringsNone {request : AddUnitRequest} (h : request.BringsNone)
    (cloud : CloudAnswer) : resolveCredentials request cloud = .ok (none, none) := by
  obtain ⟨htoken, hkey, haccount⟩ := h
  unfold resolveCredentials
  cases cloud with
  | some answer =>
      dsimp only
      rw [htoken, if_neg (by decide), if_neg haccount]
  | none =>
      dsimp only
      rw [if_neg fun h => haccount h.2, htoken, hkey]

/-- An addition that passed the checks has the credentials they were resolved to. None of the
checks behind the resolution looks at them or changes them. -/
theorem checkAdd_supplied {request : AddUnitRequest}
    {scan : Except String (List Discover.Discovered)} {cloud : CloudAnswer} {a : Addition}
    (h : checkAdd (.ok request) scan cloud = .ok a) :
    resolveCredentials request cloud = .ok a.supplied := by
  unfold checkAdd at h
  dsimp only at h
  split at h
  next => cases h
  next =>
    have h := (of_refused (of_refused (of_refused (of_refused h).2).2).2).2
    split at h
    next => cases h
    next => cases h
    next found rest =>
      split at h
      next hsmall =>
        split at h
        next => cases h
        next supplied hsupplied =>
          obtain rfl := Except.ok.inj h
          exact hsupplied
      next => cases h

/-- **An addition** that brings no credentials takes none away, whatever becomes of it. With none
in the request and no account to ask, what is resolved is none, and the entry keeps its own. -/
theorem add_keepsCredentials (s : ConfigState) {request : AddUnitRequest}
    (hnone : request.BringsNone) (scan : Except String (List Discover.Discovered))
    (cloud : CloudAnswer) (saved : Except String Unit) :
    KeepsCredentials s.config (addUnit s (.ok request) scan cloud saved).2.config (none, none) := by
  unfold addUnit
  cases ha : checkAdd (.ok request) scan cloud with
  | error reply => exact .refl _ _
  | ok a =>
      have hsupplied : a.supplied = (none, none) :=
        (Except.ok.inj ((resolveCredentials_of_bringsNone hnone cloud).symm.trans
          (checkAdd_supplied ha))).symm
      have hkept := addOrUpdateUnit_keepsCredentials s.config (a.entry s.config)
      have hentry : ((a.entry s.config).token, (a.entry s.config).key) = (none, none) := hsupplied
      rw [hentry] at hkept
      dsimp only
      split
      next => exact .refl _ _
      cases saved with
      | error e =>
          dsimp only
          rw [AppConfig.addOrUpdateUnit_back]
          exact .refl _ _
      | ok =>
          dsimp only
          split
          next => exact hkept
          split <;> exact hkept

/-! ## Runs -/

/-- **What a run keeps:** document and manager agree at every moment, an operation answered
with an error changes neither, and no addition takes credentials away. -/
structure Agrees (s : ConfigState) (entries : List (Entry ConfigState Op (Option Reply))) :
    Prop where
  start : Agree s
  after : ∀ e ∈ entries, Agree e.after
  refused : ∀ e ∈ entries, ∀ r, e.output = some r → 400 ≤ r.status →
    e.after.config = e.before.config ∧ e.after.manager = e.before.manager
  kept : ∀ e ∈ entries, ∀ request scan cloud saved, e.input = .add (.ok request) scan cloud saved →
    request.BringsNone → KeepsCredentials e.before.config e.after.config (none, none)

/-- **Document and manager agree** through a run exactly when no id of the file is drivable
twice and every addition can be stored. -/
theorem configuration_agrees_iff {configPath : Str} {config : AppConfig} {state : ConfigState}
    (hload : ConfigState.load configPath config = .ok (.ok state)) (ops : List Op) :
    Agrees state (trace step state ops) ↔
      (drivableIds config.units).Nodup ∧
        ∀ e ∈ trace step state ops, Storable e.before e.input := by
  have hentry : ∀ e ∈ trace step state ops, e = entry step e.before e.input := fun e he =>
    (@forall_trace _ _ _ _ (fun _ _ => True) (fun _ _ _ _ => trivial) ops state trivial e he).1
  have hruns := fun hstart : Agree state =>
    @forall_trace_iff _ _ _ step (fun _ => True) Agree Storable (fun _ _ _ => trivial)
      (fun _ op _ hs => agree_step_iff hs op) ops state trivial hstart
  rw [← load_agree_iff hload]
  constructor
  · intro h
    exact ⟨h.start, (hruns h.start).mp h.after⟩
  · rintro ⟨hstart, hstorable⟩
    refine ⟨hstart, (hruns hstart).mpr hstorable, ?_, ?_⟩
    · intro e he r hanswer hstatus
      rw [hentry e he] at hanswer ⊢
      exact refused_unchanged hanswer hstatus
    · intro e he request scan cloud saved hinput hnone
      have hafter : e.after = (step e.before e.input).2 := congrArg Entry.after (hentry e he)
      rw [hafter, hinput]
      exact add_keepsCredentials e.before hnone scan cloud saved

/-- A unit, and another whose address is a name and whose token is no hex. -/
def twoUnits : AppConfig where
  apiKey := some "k".toList
  units :=
    [{ name := "Bedroom".toList, ip := "192.168.1.20".toList, id := 7 },
      { name := "Kitchen".toList, ip := "kitchen.lan".toList, id := 9, token := some "zz".toList }]

/-- What a scan of an address finds. -/
def foundAt (ip : Ipv4Addr) (id : Nat) : Discover.Discovered where
  ip := ip
  reportedIp := ip
  port := 6444
  id := id
  serialNumber := []
  ssid := []
  deviceType := 0xac
  version := .v2

/-- The second unit is found, the first is renamed, and then it is removed, at the second
try. -/
def kitchenFound : List Op :=
  [.add (.ok { ip := "192.168.1.21".toList }) (.ok [foundAt ⟨192, 168, 1, 21⟩ 9]) none (.ok ()),
    .rename "7".toList (.ok "Study".toList) (.ok ()) true,
    .delete "7".toList (.error "read-only file system"),
    .delete "7".toList (.ok ())]

/-- What the server starts with, from that file. -/
def twoUnitsLoaded : ConfigState where
  config := twoUnits
  manager := .withTiming
    [{ id := 7, name := "Bedroom".toList, ip := .v4 ⟨192, 168, 1, 20⟩, port := 6444
       token := none, key := none }]

/-- The server starts with two units, and one is added that was found. -/
theorem configuration_agrees_kitchenFound :
    ConfigState.load "config.json".toList twoUnits = .ok (.ok twoUnitsLoaded) ∧
      Agrees twoUnitsLoaded (trace step twoUnitsLoaded kitchenFound) := by
  have hload : ConfigState.load "config.json".toList twoUnits = .ok (.ok twoUnitsLoaded) := by rfl
  exact ⟨hload, (configuration_agrees_iff hload kitchenFound).mpr
    ⟨by decide +kernel, by decide +kernel⟩⟩

/-- A unit that is listed twice in the file is listed twice by the manager. -/
theorem configuration_listed_twice :
    ∃ state, ConfigState.load "config.json".toList
        { twoUnits with units := twoUnits.units ++ twoUnits.units } = .ok (.ok state) ∧
      state.manager.order = [7, 7] ∧ ∀ ops, ¬ Agrees state (trace step state ops) := by
  refine ⟨_, rfl, by decide +kernel, ?_⟩
  intro ops h
  exact absurd h.start.listed.nodup (by decide +kernel)

end BreezeHttp.ConfigRoutes
