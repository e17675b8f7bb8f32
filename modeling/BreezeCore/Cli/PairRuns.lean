import BreezeCore.Cli.Pair

/-!
# What `breeze-core pair` saves

* `grown_update` — pairing one unit keeps every entry, adds one at most, and replaces no token;
* `pair_saves` — so what a run saves is what it loaded, with the units that were found in it.
-/

namespace BreezeCli.Pair

open Fallible Text Bytes Talks Talk BreezeStore Discover
open BreezeDevice (ScanReport)
open Fetch (ReadError LoadError loaded)

/-! ## One entry -/

/-- Looking a unit up by the text of its id finds the first entry with that id: the text of an id
belongs to one id. -/
theorem findUnit_eq (config : AppConfig) (id : Int64) :
    config.findUnit (showInt id.toInt) = config.units.find? fun u => u.id = id := by
  unfold AppConfig.findUnit
  congr 1
  funext u
  rw [UnitConfig.idText, decide_eq_decide, showInt_injective.eq_iff, Int64.toInt_inj]

/-- **An addition**, with the entry that is found before it. -/
theorem add_cases (config : AppConfig) (unit : UnitConfig) :
    (∃ before existing after, config.units = before ++ existing :: after ∧
        existing.id = unit.id ∧ (∀ u ∈ before, u.id ≠ unit.id) ∧
        config.findUnit (showInt unit.id.toInt) = some existing ∧
        (config.addOrUpdateUnit unit).2.units = before ++ existing.updated unit :: after) ∨
      (∀ u ∈ config.units, u.id ≠ unit.id) ∧
        config.findUnit (showInt unit.id.toInt) = none ∧
        (config.addOrUpdateUnit unit).2.units = config.units ++ [unit] := by
  rw [findUnit_eq]
  rcases config.addOrUpdateUnit_cases unit with
    ⟨before, existing, after, hunits, hid, hbefore, hadded⟩ | ⟨hnew, hadded⟩
  · refine .inl ⟨before, existing, after, hunits, hid, hbefore, ?_, hadded⟩
    rw [List.find?_eq_some_iff_append]
    refine ⟨decide_eq_true hid, before, after, hunits, fun u hu => ?_⟩
    simpa using hbefore u hu
  · refine .inr ⟨hnew, List.find?_eq_none.mpr fun u hu => ?_, hadded⟩
    simpa using hnew u hu

/-- Adding a unit leaves the key alone. -/
theorem add_apiKey (config : AppConfig) (unit : UnitConfig) :
    (config.addOrUpdateUnit unit).2.apiKey = config.apiKey := by
  unfold AppConfig.addOrUpdateUnit
  split <;> rfl

/-- A prompt, and what came of it. -/
def prompted (message : Str) (r : Typed) : Step := @Said.mk _ Question Answer .ask message r

/-- A line that was printed. -/
def printed (line : Line) : Step := @Said.mk _ Question Answer .say line ()

/-- This was typed where the name of the unit was asked for, whatever name was offered for it. -/
def NameTyped (log : List Step) (device : Discovered) (name : Str) : Prop :=
  ∃ offered line, prompted (namePrompt device offered) (.line line) ∈ log ∧ trim line = name

/-- Both credentials were typed at the two prompts that come right after the note on this V3
unit, and have the right shape. -/
def PairTyped (log : List Step) (device : Discovered) (c : Credentials) : Prop :=
  device.version = .v3 ∧ ∃ token key,
    [printed (.text (v3Note device)), printed (.text pasteNote),
      prompted tokenPrompt (.line token), prompted keyPrompt (.line key)] <:+: log ∧
    validatePair (trim token) (trim key) = .ok () ∧ c = ⟨some (trim token), some (trim key)⟩

/-- What an entry has of credentials. -/
def credentialsOf (u : UnitConfig) : Credentials := ⟨u.token, u.key⟩

/-- Of one of the units that were found, the one with the id of the entry. -/
def OfUnit (found : List Discovered) (u : UnitConfig) (P : Discovered → Prop) : Prop :=
  ∃ d ∈ found, (d.id : Int) = u.id.toInt ∧ P d

/-- The entry tells where a unit that was found is. -/
def PlacedBy (found : List Discovered) (u : UnitConfig) : Prop :=
  OfUnit found u fun d => u.ip = d.ip.toText ∧ u.port = d.port

/-- The entry has a name that was typed for its unit. -/
def Named (log : List Step) (found : List Discovered) (u : UnitConfig) : Prop :=
  OfUnit found u fun d => NameTyped log d u.name

/-- The entry has a token and a key that were typed for its unit. -/
def Supplied (log : List Step) (found : List Discovered) (u : UnitConfig) : Prop :=
  OfUnit found u fun d => PairTyped log d (credentialsOf u)

/-- An entry that was there: it keeps its id, its name unless another was typed for its unit, and
its credentials unless it had no token and both were typed for its unit; and it is not touched
unless the unit was found. -/
structure Kept (log : List Step) (found : List Discovered) (u u' : UnitConfig) : Prop where
  id : u'.id = u.id
  name : u'.name = u.name ∨ Named log found u'
  credentials : credentialsOf u' = credentialsOf u ∨ u.token = none ∧ Supplied log found u'
  place : u' = u ∨ PlacedBy found u'

/-- A new entry: a unit that was found, under a name that was typed for it or a number, and with
credentials only where they were typed for it. -/
structure Added (log : List Step) (found : List Discovered) (u : UnitConfig) : Prop where
  name : Named log found u ∨ ∃ index, u.name = "AC ".toList ++ showNat (index + 1)
  credentials : credentialsOf u = {} ∨ Supplied log found u
  place : PlacedBy found u

/-- What an entry, or no entry, has become. -/
def Became (log : List Step) (found : List Discovered) : Option UnitConfig → UnitConfig → Prop
  | some u, u' => Kept log found u u'
  | none, u' => Added log found u'

/-- The configuration has the entries it had, in their places, and behind them a new one for
each id that was not there. -/
structure Grown (log : List Step) (found : List Discovered) (config₀ config : AppConfig) :
    Prop where
  apiKey : config.apiKey = config₀.apiKey
  entries : ∃ n, List.Forall₂ (Became log found)
    (config₀.units.map some ++ List.replicate n none) config.units
  ids : ∃ ids, config.units.map UnitConfig.id = config₀.units.map UnitConfig.id ++ ids ∧
    ids.Nodup ∧ ∀ id ∈ ids, id ∉ config₀.units.map UnitConfig.id

variable {log past now : List Step} {found : List Discovered} {config config₀ : AppConfig}

/-! What was typed stays typed. -/

/-- What was typed at a prompt stays typed there. -/
theorem NameTyped.later {device : Discovered} {name : Str} (h : NameTyped past device name)
    (hnow : past <+: now) : NameTyped now device name := by
  obtain ⟨offered, line, hmem, hline⟩ := h
  exact ⟨offered, line, hnow.subset hmem, hline⟩

/-- A pair that was typed at two prompts was typed there as the log grows, too. -/
theorem PairTyped.later {device : Discovered} {c : Credentials} (h : PairTyped past device c)
    (hnow : past <+: now) : PairTyped now device c := by
  obtain ⟨hv3, token, key, htyped, hvalid⟩ := h
  exact ⟨hv3, token, key, htyped.trans hnow.isInfix, hvalid⟩

/-- What is known of the units an entry may be for may be weakened. -/
theorem OfUnit.mono {u : UnitConfig} {P Q : Discovered → Prop} (h : OfUnit found u P)
    (hPQ : ∀ d, P d → Q d) : OfUnit found u Q := by
  obtain ⟨d, hd, hid, hp⟩ := h
  exact ⟨d, hd, hid, hPQ d hp⟩

/-- Where an entry's name comes from does not change as the run goes on. -/
theorem Named.later {u : UnitConfig} (h : Named past found u) (hnow : past <+: now) :
    Named now found u :=
  OfUnit.mono h fun _ htyped => htyped.later hnow

/-- Where an entry's credentials come from does not change as the log grows. -/
theorem Supplied.later {u : UnitConfig} (h : Supplied past found u) (hnow : past <+: now) :
    Supplied now found u :=
  OfUnit.mono h fun _ htyped => htyped.later hnow

/-- An entry stays what it has become as the log grows. -/
theorem Became.later {old : Option UnitConfig} {u : UnitConfig} (h : Became past found old u)
    (hnow : past <+: now) : Became now found old u := by
  cases old with
  | some v =>
      refine ⟨h.id, h.name.imp_right (·.later hnow), h.credentials.imp_right ?_, h.place⟩
      exact And.imp_right (·.later hnow)
  | none => exact ⟨h.name.imp_left (·.later hnow), h.credentials.imp_right (·.later hnow), h.place⟩

/-- And with every entry the whole configuration. -/
theorem Grown.later (h : Grown past found config₀ config) (hnow : past <+: now) :
    Grown now found config₀ config := by
  obtain ⟨n, hentries⟩ := h.entries
  exact ⟨h.apiKey, ⟨n, hentries.imp fun _ _ hold => hold.later hnow⟩, h.ids⟩

/-- A configuration that nothing was done to has grown by nothing. -/
theorem grown_refl (log : List Step) (found : List Discovered) (config : AppConfig) :
    Grown log found config config := by
  refine ⟨rfl, ⟨0, ?_⟩, ⟨[], (List.append_nil _).symm, List.nodup_nil, nofun⟩⟩
  rw [List.replicate_zero, List.append_nil, List.forall₂_map_left_iff]
  exact List.forall₂_same.mpr fun u _ => ⟨rfl, .inl rfl, .inl rfl, .inl rfl⟩

/-- One entry of a list is replaced. -/
theorem forall₂_replace {α β : Type} {R : α → β → Prop} {xs : List α} {before after : List β}
    {y y' : β} (h : List.Forall₂ R xs (before ++ y :: after)) (hy : ∀ x, R x y → R x y') :
    List.Forall₂ R xs (before ++ y' :: after) := by
  induction before generalizing xs with
  | nil =>
      cases h with
      | cons hfirst hrest => exact .cons (hy _ hfirst) hrest
  | cons z before ih =>
      cases h with
      | cons hfirst hrest => exact .cons hfirst (ih hrest)

/-- An entry of a unit that is paired: what is found of it is written, its name is the one it had
or was typed for it, and so are its credentials. -/
structure Paired (log : List Step) (device : Discovered) (index : Nat)
    (existing : Option UnitConfig) (unit : UnitConfig) : Prop where
  id : unit.id = Int64.ofNat device.id
  ip : unit.ip = device.ip.toText
  port : unit.port = device.port
  name : unit.name = defaultName existing index ∨ NameTyped log device unit.name
  credentials : credentialsOf unit = storedCredentials existing ∨
    (storedCredentials existing).token = none ∧ PairTyped log device (credentialsOf unit)

/-- The credentials of an entry that is updated are those of the update. -/
theorem Paired.updated {device : Discovered} {index : Nat} {existing unit : UnitConfig}
    (h : Paired log device index (some existing) unit) :
    credentialsOf (existing.updated unit) = credentialsOf unit := by
  rcases h.credentials with hsame | ⟨-, -, token, key, -, -, htyped⟩
  · obtain ⟨htoken, hkey⟩ := Credentials.mk.inj hsame
    unfold credentialsOf UnitConfig.updated
    rw [htoken, hkey, Option.or_self, Option.or_self]
  · obtain ⟨htoken, hkey⟩ := Credentials.mk.inj htyped
    unfold credentialsOf UnitConfig.updated
    rw [htoken, hkey]
    rfl

/-- **An entry that is updated** is still what it may have become: where this pairing put
something new in it, that was typed for its unit. -/
theorem Became.paired {device : Discovered} {index : Nat} {existing unit : UnitConfig}
    {old : Option UnitConfig} (h : Became log found old existing)
    (hunit : Paired log device index (some existing) unit)
    (hof : ∀ u : UnitConfig, u.id = unit.id → ∀ P : Discovered → Prop, P device → OfUnit found u P)
    (hid : existing.id = unit.id) : Became log found old (existing.updated unit) := by
  have hplace : PlacedBy found (existing.updated unit) := hof _ hid _ ⟨hunit.ip, hunit.port⟩
  -- The name and the credentials are the update's, and these the entry's own or typed for it.
  have hname : unit.name = existing.name ∨ Named log found (existing.updated unit) :=
    hunit.name.imp_right fun htyped => hof _ hid _ htyped
  have hcredentials : credentialsOf (existing.updated unit) = credentialsOf existing ∨
      existing.token = none ∧ Supplied log found (existing.updated unit) := by
    rw [hunit.updated]
    refine hunit.credentials.imp_right fun htyped => ⟨htyped.1, hof _ hid _ ?_⟩
    rw [hunit.updated]
    exact htyped.2
  have hnamed : unit.name = existing.name → Named log found existing →
      Named log found (existing.updated unit) := by
    rintro hsame ⟨d, hd, hid', htyped⟩
    refine ⟨d, hd, hid', ?_⟩
    change NameTyped log d unit.name
    rwa [hsame]
  have hsupplied : credentialsOf (existing.updated unit) = credentialsOf existing →
      Supplied log found existing → Supplied log found (existing.updated unit) := by
    rintro hsame ⟨d, hd, hid', htyped⟩
    exact ⟨d, hd, hid', hsame ▸ htyped⟩
  cases old with
  | some u =>
      refine ⟨h.id, ?_, ?_, .inr hplace⟩
      · rcases hname with hsame | htyped
        · exact h.name.imp hsame.trans (hnamed hsame)
        · exact .inr htyped
      · rcases hcredentials with hsame | ⟨hnone, htyped⟩
        · exact h.credentials.imp hsame.trans (And.imp_right (hsupplied hsame))
        · refine .inr ⟨?_, htyped⟩
          rcases h.credentials with hkept | ⟨hnone', -⟩
          · exact (congrArg Credentials.token hkept).symm.trans hnone
          · exact hnone'
  | none =>
      refine ⟨?_, ?_, hplace⟩
      · rcases hname with hsame | htyped
        · exact h.name.imp (hnamed hsame) fun ⟨i, hi⟩ => ⟨i, hsame.trans hi⟩
        · exact .inl htyped
      · rcases hcredentials with hsame | ⟨-, htyped⟩
        · exact h.credentials.imp hsame.trans (hsupplied hsame)
        · exact .inr htyped

/-- **One unit** is paired. Its entry is brought up to date in its place, or is a new one at the
end, whose id no other entry has. -/
theorem grown_update {device : Discovered} {index : Nat} {unit : UnitConfig}
    (h : Grown log found config₀ config) (hdevice : device ∈ found)
    (hsmall : device.id < 2 ^ 63)
    (hunit : Paired log device index (config.findUnit (showInt unit.id.toInt)) unit) :
    Grown log found config₀ (config.addOrUpdateUnit unit).2 := by
  obtain ⟨n, hentries⟩ := h.entries
  obtain ⟨ids, hids, hnodup, hnew⟩ := h.ids
  have hof : ∀ u : UnitConfig, u.id = unit.id → ∀ P : Discovered → Prop, P device →
      OfUnit found u P := by
    intro u hid P hP
    refine ⟨device, hdevice, ?_, hP⟩
    rw [hid, hunit.id, Int64.toInt_ofNat_of_lt hsmall]
  rcases add_cases config unit with
    ⟨before, existing, after, hunits, hid, hbefore, hfind, hadded⟩ | ⟨habsent, hfind, hadded⟩
  · rw [hfind] at hunit
    refine ⟨(add_apiKey ..).trans h.apiKey, ⟨n, ?_⟩, ⟨ids, ?_, hnodup, hnew⟩⟩
    · rw [hadded]
      rw [hunits] at hentries
      exact forall₂_replace hentries fun old hold => hold.paired hunit hof hid
    · rw [hadded, ← hids, hunits, List.map_append, List.map_append, List.map_cons, List.map_cons]
      rfl
  · rw [hfind] at hunit
    have hfresh : unit.id ∉ config₀.units.map UnitConfig.id ++ ids := by
      rw [← hids]
      intro hmem
      obtain ⟨u, hu, hid⟩ := List.mem_map.mp hmem
      exact habsent u hu hid
    rw [List.mem_append, not_or] at hfresh
    refine ⟨(add_apiKey ..).trans h.apiKey, ⟨n + 1, ?_⟩, ⟨ids ++ [unit.id], ?_, ?_, ?_⟩⟩
    · rw [hadded, List.replicate_succ', ← List.append_assoc]
      refine List.rel_append hentries (.cons ?_ .nil)
      refine ⟨?_, ?_, hof unit rfl _ ⟨hunit.ip, hunit.port⟩⟩
      · exact hunit.name.symm.imp (hof unit rfl _) fun hname => ⟨index, hname⟩
      · exact hunit.credentials.imp_right fun htyped => hof unit rfl _ htyped.2
    · rw [hadded, List.map_append, hids, List.map_singleton, List.append_assoc]
    · rw [List.nodup_append]
      refine ⟨hnodup, List.pairwise_singleton _ _, fun a ha b hb heq => hfresh.2 ?_⟩
      rwa [← List.mem_singleton.mp hb, ← heq]
    · intro id hid
      rcases List.mem_append.mp hid with hid | hid
      · exact hnew id hid
      · rw [List.mem_singleton.mp hid]
        exact hfresh.1

/-! ## The entry of a unit that was found -/

/-- The first entry with the unit's id tells where the unit is. -/
def Listed (config : AppConfig) (d : Discovered) : Prop :=
  ∃ u, config.units.find? (fun u => u.id = Int64.ofNat d.id) = some u ∧
    u.ip = d.ip.toText ∧ u.port = d.port

/-- Adding a unit does not change what is found under another id. -/
theorem find_add_of_ne {unit : UnitConfig} {id : Int64} (hne : unit.id ≠ id) :
    (config.addOrUpdateUnit unit).2.units.find? (fun u => u.id = id) =
      config.units.find? fun u => u.id = id := by
  rcases add_cases config unit with
    ⟨before, existing, after, hunits, hid, -, -, hadded⟩ | ⟨-, -, hadded⟩
  · have hupdated : (existing.updated unit).id ≠ id := fun heq => hne (hid.symm.trans heq)
    have hexisting : existing.id ≠ id := fun heq => hne (hid.symm.trans heq)
    rw [hadded, hunits, List.find?_append, List.find?_append,
      List.find?_cons_of_neg (by simpa using hupdated),
      List.find?_cons_of_neg (by simpa using hexisting)]
  · rw [hadded, List.find?_append, List.find?_cons_of_neg (by simpa using hne), List.find?_nil,
      Option.or_none]

/-- Under its own id the unit is found, at the address it was added with. -/
theorem find_add_self (config : AppConfig) (unit : UnitConfig) :
    ∃ u, (config.addOrUpdateUnit unit).2.units.find? (fun u => u.id = unit.id) = some u ∧
      u.ip = unit.ip ∧ u.port = unit.port := by
  rcases add_cases config unit with
    ⟨before, existing, after, hunits, hid, hbefore, -, hadded⟩ | ⟨habsent, -, hadded⟩
  · refine ⟨existing.updated unit, ?_, rfl, rfl⟩
    rw [hadded, List.find?_eq_some_iff_append]
    refine ⟨decide_eq_true hid, before, after, rfl, fun u hu => ?_⟩
    simpa using hbefore u hu
  · refine ⟨unit, ?_, rfl, rfl⟩
    rw [hadded, List.find?_eq_some_iff_append]
    refine ⟨decide_eq_true rfl, config.units, [], rfl, fun u hu => ?_⟩
    simpa using habsent u hu

/-- Ids that fit in 63 bits are still apart as the signed numbers they are stored as. -/
theorem ofNat_inj {m n : Nat} (hm : m < 2 ^ 63) (hn : n < 2 ^ 63)
    (h : Int64.ofNat m = Int64.ofNat n) : m = n := by
  have hint := congrArg Int64.toInt h
  rw [Int64.toInt_ofNat_of_lt hm, Int64.toInt_ofNat_of_lt hn] at hint
  exact Int.ofNat_inj.mp hint

/-- Of the units found so far, those whose id no other has are listed. -/
def AllListed (config : AppConfig) (paired : List Discovered) : Prop :=
  ∀ d ∈ paired, d.id < 2 ^ 63 → (∀ e ∈ paired, e.id = d.id → e = d) → Listed config d

/-- The units that were paired so far and the one that is added now are all listed: the new entry
has the address the unit answered from, and the others are found as before. -/
theorem allListed_update {paired : List Discovered} {device : Discovered} {index : Nat}
    {existing : Option UnitConfig} {unit : UnitConfig} (h : AllListed config paired)
    (hsmall : device.id < 2 ^ 63) (hunit : Paired log device index existing unit) :
    AllListed (config.addOrUpdateUnit unit).2 (paired ++ [device]) := by
  intro d hd hd' honly
  by_cases hid : device.id = d.id
  · obtain rfl := honly device (List.mem_append_right _ (List.mem_singleton_self _)) hid
    obtain ⟨u, hu, hip, hport⟩ := find_add_self config unit
    rw [hunit.id] at hu
    exact ⟨u, hu, hip.trans hunit.ip, hport.trans hunit.port⟩
  · have hmem : d ∈ paired := by
      rcases List.mem_append.mp hd with hd | hd
      · exact hd
      · exact absurd (congrArg Discovered.id (List.mem_singleton.mp hd)).symm hid
    obtain ⟨u, hu, hplace⟩ := h d hmem hd' fun e he => honly e (List.mem_append_left _ he)
    refine ⟨u, ?_, hplace⟩
    rw [find_add_of_ne]
    · exact hu
    · rw [hunit.id]
      exact fun heq => hid (ofNat_inj hsmall hd' heq)

/-- A unit whose id does not fit is not paired, and nothing is promised of it. -/
theorem AllListed.skip {paired : List Discovered} {device : Discovered}
    (h : AllListed config paired) (hlarge : ¬ device.id < 2 ^ 63) :
    AllListed config (paired ++ [device]) := by
  intro d hd hd' honly
  rcases List.mem_append.mp hd with hd | hd
  · exact h d hd hd' fun e he => honly e (List.mem_append_left _ he)
  · rw [List.mem_singleton.mp hd] at hd'
    exact absurd hd' hlarge

/-! ## What the parts of a run ask -/

/-- Saves are as they should be, and everything else is allowed. -/
def Saving (ok : List Step → Str × AppConfig × Mode → Prop) (now : List Step) :
    (κ : Kind) → Question κ → Prop
  | .save, q => ok now q
  | .read, _ | .entropy, _ | .scan, _ | .ask, _ | .say, _ => True

/-- Since then nothing was saved. -/
def Unsaved (past now : List Step) : Prop := ∃ mid, now = past ++ mid ∧ ∀ e ∈ mid, e.kind ≠ .save

variable {ok : List Step → Str × AppConfig × Mode → Prop}

/-- Nothing was saved in no step. -/
theorem unsaved_refl (past : List Step) : Unsaved past past :=
  ⟨[], (List.append_nil _).symm, nofun⟩

/-- A step that is no save saves nothing. -/
theorem unsaved_step {e : Step} (h : e.kind ≠ .save) : Unsaved past (past ++ [e]) :=
  ⟨[e], rfl, fun _ he => List.mem_singleton.mp he ▸ h⟩

/-- Two stretches without a save make one. -/
theorem Unsaved.trans {later : List Step} (h : Unsaved past now) (h' : Unsaved now later) :
    Unsaved past later := by
  obtain ⟨mid, rfl, hmid⟩ := h
  obtain ⟨mid', rfl, hmid'⟩ := h'
  refine ⟨mid ++ mid', List.append_assoc .., fun e he => ?_⟩
  exact (List.mem_append.mp he).elim (hmid e) (hmid' e)

/-- What was done before is still there. -/
theorem Unsaved.isPrefix (h : Unsaved past now) : past <+: now := by
  obtain ⟨mid, rfl, -⟩ := h
  exact List.prefix_append _ _

/-- Step by step. -/
theorem Unsaved.mem (h : Unsaved past now) {e : Step} (he : e ∈ past) : e ∈ now :=
  h.isPrefix.subset he

/-- What came of a prompt: a line that was typed, or the end of the input. -/
inductive AskedFor (past : List Step) (message : Str) (now : List Step) : Option Str → Prop
  | ended (h : now = past ++ [prompted message .ended]) : AskedFor past message now none
  | line (line : Str) (h : now = past ++ [prompted message (.line line)]) :
      AskedFor past message now (some (trim line))

/-- A prompt, asked for or left out, saves nothing. -/
theorem AskedFor.unsaved {message : Str} {typed : Option Str}
    (h : AskedFor past message now typed) : Unsaved past now := by
  cases h with
  | ended h => exact h ▸ unsaved_step nofun
  | line _ h => exact h ▸ unsaved_step nofun

/-- A prompt is one step, and what is typed there is the line without the space around it. -/
theorem keeps_ask (message : Str) :
    Talk.Keeps (Saving ok) past (ask message) (fun now typed => AskedFor past message now typed)
      fun _ _ => True := by
  refine ⟨trivial, fun r => ?_⟩
  cases r with
  | unwritable e => trivial
  | unreadable e => trivial
  | ended => exact AskedFor.ended rfl
  | line s => exact AskedFor.line s rfl

/-- At a prompt where the end of the input is an empty line, anything else was typed there. -/
theorem keeps_askOrEmpty (message : Str) :
    Talk.Keeps (Saving ok) past (askOrEmpty message)
      (fun now typed => Unsaved past now ∧
        (typed ≠ [] → ∃ line, now = past ++ [prompted message (.line line)] ∧ trim line = typed))
      fun _ _ => True := by
  refine (keeps_ask message).seq fun now typed h => ⟨h.unsaved, fun hne => ?_⟩
  cases h with
  | ended _ => exact absurd rfl hne
  | line s h => exact ⟨s, h, rfl⟩

/-- A line is printed in one step. -/
theorem keeps_print (line : Line) :
    Talk.Keeps (Saving ok) past (print line) (fun now _ => now = past ++ [printed line])
      fun _ _ => True :=
  ⟨trivial, fun _ => rfl⟩

/-- Printing a line leaves the log longer by that line. -/
theorem keeps_say (s : Str) :
    Talk.Keeps (Saving ok) past (say s) (fun now _ => now = past ++ [printed (.text s)])
      fun _ _ => True :=
  keeps_print _

/-- Printing a line saves nothing. -/
theorem unsaved_printed {line : Line} (h : now = past ++ [printed line]) : Unsaved past now :=
  h ▸ unsaved_step nofun

/-- While lines are printed nothing is saved. -/
theorem keeps_printEach (lines : List Line) :
    Talk.Keeps (Saving ok) past (printEach lines) (fun now _ => Unsaved past now)
      fun _ _ => True := by
  induction lines generalizing past with
  | nil => exact unsaved_refl past
  | cons line lines ih =>
      refine (keeps_print line).seq fun now _ hnow => ?_
      exact ih.weaken (fun _ _ h => (unsaved_printed hnow).trans h) fun _ _ _ => trivial

variable {options : Options}

/-- The name is the one that was offered, or was typed where it was asked for. -/
theorem keeps_chooseName (device : Discovered) (name : Str) :
    Talk.Keeps (Saving ok) past (chooseName options device name)
      (fun now chosen => Unsaved past now ∧ (chosen = name ∨ NameTyped now device chosen))
      fun _ _ => True := by
  unfold chooseName
  split
  · refine (keeps_ask _).seq fun now typed h => ⟨h.unsaved, ?_⟩
    cases h with
    | ended _ => exact .inl rfl
    | line s h =>
        dsimp only
        split
        · exact .inl rfl
        · refine .inr ⟨name, s, ?_, rfl⟩
          rw [h]
          exact List.mem_append_right _ (List.mem_singleton_self _)
  · exact ⟨unsaved_refl past, .inl rfl⟩

/-- The credentials are the ones that were stored, or were both typed for the unit where it had no
token. -/
def Chosen (device : Discovered) (stored : Credentials) (now : List Step) (c : Credentials) :
    Prop :=
  c = stored ∨ stored.token = none ∧ PairTyped now device c

/-- The note on the unit, the prompt for its token and the one for its key follow each other. -/
theorem keeps_askCredentials {device : Discovered} {stored : Credentials}
    (hv3 : device.version = .v3) (hnone : stored.token = none) :
    Talk.Keeps (Saving ok) past (askCredentials device stored)
      (fun now c => Unsaved past now ∧ Chosen device stored now c) fun _ _ => True := by
  refine (keeps_say _).seq fun before _ hbefore => ?_
  refine (keeps_say _).seq fun now _ hsaid => ?_
  have hnoted := (unsaved_printed hbefore).trans (unsaved_printed hsaid)
  refine (keeps_askOrEmpty tokenPrompt).seq fun now' token htoken => ?_
  have hpast := hnoted.trans htoken.1
  split
  next => exact ⟨hpast, .inl rfl⟩
  next hne =>
    refine (keeps_askOrEmpty keyPrompt).seq fun now'' key hkey => ?_
    have hpast' := hpast.trans hkey.1
    split
    next hvalid =>
      have hkeyNe : key ≠ [] := by
        rintro rfl
        cases hvalid
      obtain ⟨line, hnow', rfl⟩ := htoken.2 hne
      obtain ⟨line', hnow'', rfl⟩ := hkey.2 hkeyNe
      refine ⟨hpast', .inr ⟨hnone, hv3, line, line', ⟨past, [], ?_⟩, hvalid, rfl⟩⟩
      rw [hnow'', hnow', hsaid, hbefore, List.append_nil, List.append_assoc, List.append_assoc,
        List.append_assoc]
      rfl
    next =>
      refine (keeps_say _).seq fun later _ hlater => ?_
      exact ⟨hpast'.trans (unsaved_printed hlater), .inl rfl⟩

/-- Credentials are asked for where a V3 unit has no token, and not otherwise. -/
theorem keeps_credentials (device : Discovered) (stored : Credentials) :
    Talk.Keeps (Saving ok) past (credentials options device stored)
      (fun now c => Unsaved past now ∧ Chosen device stored now c) fun _ _ => True := by
  unfold credentials
  split
  next h =>
    split
    · exact keeps_askCredentials h.1 h.2
    · exact (keeps_say _).seq fun now _ hnow => ⟨unsaved_printed hnow, .inl rfl⟩
  next => exact ⟨unsaved_refl past, .inl rfl⟩

/-- One unit is paired, or skipped where its id does not fit. -/
theorem keeps_pairOne (config : AppConfig) (device : Discovered) (index : Nat) :
    Talk.Keeps (Saving ok) past (pairOne options config device index)
      (fun now r => Unsaved past now ∧ match r with
        | none => ¬ device.id < 2 ^ 63
        | some config' => device.id < 2 ^ 63 ∧ ∃ unit,
            Paired now device index (config.findUnit (showInt unit.id.toInt)) unit ∧
              config' = (config.addOrUpdateUnit unit).2)
      fun _ _ => True := by
  unfold pairOne
  split
  next hsmall =>
    refine (keeps_chooseName device _).seq fun now name hname => ?_
    refine (keeps_credentials device _).seq fun later c hc => ?_
    refine ⟨hname.1.trans hc.1, hsmall, _, ?_, rfl⟩
    exact ⟨rfl, rfl, rfl, hname.2.imp_right (·.later hc.1.isPrefix), hc.2⟩
  next hlarge => exact (keeps_say _).seq fun now _ hnow => ⟨unsaved_printed hnow, hlarge⟩

/-- What has become of the configuration when some of the units are paired. -/
structure Progress (found : List Discovered) (config₀ : AppConfig) (paired : List Discovered)
    (now : List Step) (config : AppConfig) : Prop where
  grown : Grown now found config₀ config
  listed : AllListed config paired

/-- Every unit that was found is paired in its turn, by induction on those that are left; what is
known of the ones before stays true. -/
theorem keeps_pairAll {paired : List Discovered} {count : Nat} (devices : List (Discovered × Nat))
    (hdevices : ∀ device ∈ devices, device.1 ∈ found)
    (h : Progress found config₀ paired past config) :
    Talk.Keeps (Saving ok) past (pairAll options config count devices)
      (fun now r => Unsaved past now ∧
        Progress found config₀ (paired ++ devices.map Prod.fst) now r.1)
      fun _ _ => True := by
  induction devices generalizing past config paired count with
  | nil =>
      refine ⟨unsaved_refl past, ?_⟩
      rw [List.map_nil, List.append_nil]
      exact h
  | cons head devices ih =>
      obtain ⟨device, index⟩ := head
      obtain ⟨hdevice, hrest⟩ := List.forall_mem_cons.mp hdevices
      have hmore : paired ++ ((device, index) :: devices).map Prod.fst =
          paired ++ [device] ++ devices.map Prod.fst := by
        rw [List.map_cons, List.append_cons]
      refine (keeps_pairOne config device index).seq fun now r hr => ?_
      obtain ⟨hnow, hr⟩ := hr
      have hgrown := h.grown.later hnow.isPrefix
      rw [hmore]
      cases r with
      | none =>
          refine (ih hrest ⟨hgrown, h.listed.skip hr⟩).weaken ?_ fun _ _ _ => trivial
          exact fun later r h => ⟨hnow.trans h.1, h.2⟩
      | some config' =>
          obtain ⟨hsmall, unit, hunit, rfl⟩ := hr
          have hgrown' := grown_update hgrown hdevice hsmall hunit
          have hlisted' := allListed_update h.listed hsmall hunit
          refine (ih hrest ⟨hgrown', hlisted'⟩).weaken ?_ fun _ _ _ => trivial
          exact fun later r h => ⟨hnow.trans h.1, h.2⟩

/-! ## The run -/

/-- The configuration was read from a path. -/
def readFile (path : Str) (r : Except ReadError Str) : Step :=
  @Said.mk _ Question Answer .read path r

/-- The network was scanned. -/
def scanned (subnet : Option Str) (r : Except Str ScanReport) : Step :=
  @Said.mk _ Question Answer .scan subnet r

/-- Bytes were drawn for a key. -/
def drawn (r : Except Str (Arr 24)) : Step := @Said.mk _ Question Answer .entropy () r

/-- What the run began with: what is in the file, or a fresh one where that is no JSON. -/
def LoadedIn (fromJson : Str → Except Str AppConfig) (path : Str) (log : List Step)
    (config : AppConfig) : Prop :=
  ∃ r, readFile path r ∈ log ∧ (loaded fromJson r = .ok config ∨
    (∃ e, loaded fromJson r = .error (.parse e)) ∧ config = {})

/-- What was loaded stays what was loaded. -/
theorem LoadedIn.later {fromJson : Str → Except Str AppConfig} {path : Str}
    (h : LoadedIn fromJson path past config) (hnow : Unsaved past now) :
    LoadedIn fromJson path now config := by
  obtain ⟨r, hmem, hr⟩ := h
  exact ⟨r, hnow.mem hmem, hr⟩

/-- Loading reads the file and gives what stands there, or a fresh configuration. -/
theorem keeps_loadConfig (fromJson : Str → Except Str AppConfig) (path : Str) :
    Talk.Keeps (Saving ok) past (loadConfig fromJson path)
      (fun now config => Unsaved past now ∧ LoadedIn fromJson path now config)
      fun _ _ => True := by
  refine ⟨trivial, fun r => ?_⟩
  have hunsaved : Unsaved past (past ++ [readFile path r]) := unsaved_step nofun
  have hmem : readFile path r ∈ past ++ [readFile path r] :=
    List.mem_append_right _ (List.mem_singleton_self _)
  change Talk.Keeps _ _ (orFresh path (loaded fromJson r)) _ _
  unfold orFresh
  split
  next config hconfig => exact ⟨hunsaved, r, hmem, .inl hconfig⟩
  next e he =>
    refine (keeps_say _).seq fun now _ hnow => ?_
    have hsaid := unsaved_printed hnow
    exact ⟨hunsaved.trans hsaid, r, hsaid.mem hmem, .inr ⟨⟨e, he⟩, rfl⟩⟩
  next => trivial

/-- The configuration with its key, or with a new one. -/
def Keyed (log : List Step) (config keyed : AppConfig) : Prop :=
  keyed.units = config.units ∧ (keyed.apiKey = config.apiKey ∧ config.apiKey.isSome = true ∨
    config.apiKey = none ∧ ∃ bytes, drawn (.ok bytes) ∈ log ∧
      keyed.apiKey = some (Base64.encode Base64.urlSafe bytes.val))

/-- A key is minted only where there is none, and is made of the bytes that were drawn. -/
theorem keeps_withKey (config : AppConfig) :
    Talk.Keeps (Saving ok) past (withKey config)
      (fun now keyed => Unsaved past now ∧ Keyed now config keyed) fun _ _ => True := by
  unfold withKey
  split
  next key hkey =>
    refine ⟨unsaved_refl past, rfl, .inl ⟨rfl, ?_⟩⟩
    rw [hkey]
    rfl
  next hnone =>
    refine ⟨trivial, fun r => ?_⟩
    cases r with
    | error e => trivial
    | ok bytes =>
        refine ⟨unsaved_step nofun, rfl, .inr ⟨hnone, bytes, ?_, rfl⟩⟩
        exact List.mem_append_right _ (List.mem_singleton_self _)

/-- The key stays the one that was there or was drawn. -/
theorem Keyed.later {keyed : AppConfig} (h : Keyed past config keyed) (hnow : Unsaved past now) :
    Keyed now config keyed := by
  refine ⟨h.1, h.2.imp_right ?_⟩
  rintro ⟨hnone, bytes, hmem, hkey⟩
  exact ⟨hnone, bytes, hnow.mem hmem, hkey⟩

/-- What is found was reported by a scan of this run. -/
theorem keeps_discover (options : Options) :
    Talk.Keeps (Saving ok) past (discover options)
      (fun now report => Unsaved past now ∧ ∃ subnet, scanned subnet (.ok report) ∈ now)
      fun _ _ => True := by
  refine ⟨trivial, fun r => ?_⟩
  cases r with
  | error e => trivial
  | ok report =>
      refine ⟨unsaved_step nofun, options.ip.map fun ip => trim ip ++ "/32".toList, ?_⟩
      exact List.mem_append_right _ (List.mem_singleton_self _)

/-- A save of a run that loaded this configuration and found these units. -/
structure SavedFrom (path : Str) (config₀ : AppConfig) (found : List Discovered) (log : List Step)
    (q : Str × AppConfig × Mode) : Prop where
  path : q.1 = path
  mode : q.2.2 = .adminReadable
  /-- Nothing was saved before. -/
  first : ∀ e ∈ log, e.kind ≠ .save
  keyed : ∃ keyed, Keyed log config₀ keyed ∧ Grown log found keyed q.2.1
  listed : AllListed q.2.1 found

/-- From the scan on: the units are paired, and what is saved at the end is what `SavedFrom` tells
of. Up to there nothing was saved. -/
theorem keeps_pairFound {path : Str} {keyed : AppConfig} {newKey : Bool} {report : ScanReport}
    (hpast : Unsaved [] past) (hkeyed : Keyed past config₀ keyed) :
    Talk.Keeps (Saving (SavedFrom path config₀ report.found)) past
      (pairFound options path keyed newKey report) (fun _ _ => True) fun _ _ => True := by
  unfold pairFound
  split
  · exact (keeps_printEach _).weaken (fun _ _ _ => trivial) fun _ _ _ => trivial
  have hstart : Progress report.found keyed [] past keyed := ⟨grown_refl _ _ _, nofun⟩
  have hdevices : ∀ device ∈ report.found.zipIdx, device.1 ∈ report.found :=
    fun device hdevice => List.fst_mem_of_mem_zipIdx hdevice
  refine (keeps_pairAll _ hdevices hstart).seq fun now r hr => ?_
  obtain ⟨hnow, hgrown, hlisted⟩ := hr
  rw [List.nil_append, List.zipIdx_map_fst] at hlisted
  have hfirst : ∀ e ∈ now, e.kind ≠ .save := by
    obtain ⟨mid, rfl, hmid⟩ := hpast.trans hnow
    exact hmid
  refine ⟨⟨rfl, rfl, hfirst, ⟨keyed, hkeyed.later hnow, hgrown⟩, hlisted⟩, fun saved => ?_⟩
  cases saved with
  | error e => trivial
  | ok _ => exact (keeps_printEach _).weaken (fun _ _ _ => trivial) fun _ _ _ => trivial

/-- **What a run saves.**  Nothing, or one document, to the path of the run and for the admin to
read: the configuration that was loaded, with a key if it had none, in which every entry keeps
its place, its id, its name unless another was typed at the prompt for it, its address unless the
unit was found, and its credentials unless it had no token and a valid pair was typed at its own
two prompts; and every unit that was found, each new one once. -/
theorem pair_saves (fromJson : Str → Except Str AppConfig) (defaultPath : Str)
    (options : Options) (log : List Step) (q : Str × AppConfig × Mode)
    (go : Except Str Unit → Command Unit)
    (h : After (run fromJson defaultPath options) log (.ask (κ := .save) q go)) :
    ∃ config₀ report subnet, LoadedIn fromJson (options.out.getD defaultPath) log config₀ ∧
      scanned subnet (.ok report) ∈ log ∧
      SavedFrom (options.out.getD defaultPath) config₀ report.found log q := by
  have hkeeps : Talk.Keeps (Saving fun now q => ∃ config₀ report subnet,
      LoadedIn fromJson (options.out.getD defaultPath) now config₀ ∧
        scanned subnet (.ok report) ∈ now ∧
        SavedFrom (options.out.getD defaultPath) config₀ report.found now q) []
      (run fromJson defaultPath options) (fun _ _ => True) fun _ _ => True := by
    refine (keeps_loadConfig fromJson _).seq fun now config₀ hload => ?_
    refine (keeps_withKey config₀).seq fun now' keyed hkeyed => ?_
    refine (keeps_discover options).seq fun now'' report hreport => ?_
    obtain ⟨hdiscovered, subnet, hscanned⟩ := hreport
    have hpast := (hload.1.trans hkeyed.1).trans hdiscovered
    refine (keeps_pairFound hpast (hkeyed.2.later hdiscovered)).since.guard ?_
    rintro later κ q ⟨hlater, hq⟩
    cases κ with
    | save =>
        obtain ⟨r, hr, hloaded⟩ := hload.2
        have hread := (hkeyed.1.trans hdiscovered).mem hr
        exact ⟨config₀, report, subnet, ⟨r, hlater.subset hread, hloaded⟩,
          hlater.subset hscanned, hq⟩
    | read | entropy | scan | ask | say => trivial
  exact hkeeps.asked h

/-- The document a run is about to save. -/
def nextSave : Command Unit → Option (Str × AppConfig × Mode)
  | @Talk.ask _ _ _ _ _ .save q _ => some q
  | _ => none

/-- That it is about to save one, in the words of the model. -/
theorem nextSave_eq_some {p : Command Unit} {q : Str × AppConfig × Mode} (h : nextSave p = some q) :
    ∃ go : Except Str Unit → Command Unit, p = .ask (κ := .save) q go := by
  match p, h with
  | @Talk.ask _ _ _ _ _ .save q' go, h => exact ⟨go, by rw [Option.some.inj h]⟩

/-- A unit that is found. -/
def bedroom : Discovered where
  ip := ⟨192, 168, 1, 73⟩
  reportedIp := ⟨192, 168, 1, 73⟩
  port := 6444
  id := 42
  serialNumber := []
  ssid := "net_ac_0001".toList
  deviceType := 0xAC
  version := .v2

/-- A first run: there is no file yet, and one unit is on the network. -/
def newcomer : (κ : Kind) → Question κ → Answer κ
  | .read, _ => .error .notFound
  | .entropy, _ => .ok (Arr.zero 24)
  | .scan, _ => .ok ⟨[bedroom], [], 3, true, none⟩
  | .ask, _ => .line " Bedroom\n".toList
  | .say, _ => ()
  | .save, _ => .ok ()

/-- The options of a run that may ask. -/
def prompting : Options := ⟨none, none, true⟩

/-- The run until it saves. -/
def firstRun : List Step × Command Unit :=
  talkWith newcomer 4 (run (fun _ => .error []) "config.json".toList prompting)

/-- The key that zeros make. -/
def newKey : Str := Base64.encode Base64.urlSafe (Arr.zero 24).val

/-- What the first run is to save. -/
def bedroomConfig : AppConfig where
  apiKey := some newKey
  units := [{ name := "Bedroom".toList, ip := "192.168.1.73".toList, id := 42 }]

/-- A first run, in which there is no file yet and one unit is named by hand. -/
theorem pair_saves_newcomer : ∃ config₀ report subnet,
    LoadedIn (fun _ => .error []) "config.json".toList firstRun.1 config₀ ∧
      scanned subnet (.ok report) ∈ firstRun.1 ∧
      SavedFrom "config.json".toList config₀ report.found firstRun.1
        ("config.json".toList, bedroomConfig, .adminReadable) := by
  have hnext : nextSave firstRun.2 =
      some ("config.json".toList, bedroomConfig, .adminReadable) := by decide +kernel
  obtain ⟨go, hask⟩ := nextSave_eq_some hnext
  exact pair_saves (fun _ => .error []) "config.json".toList prompting firstRun.1 _ go
    (hask ▸ after_talkWith newcomer 4 _)

end BreezeCli.Pair
