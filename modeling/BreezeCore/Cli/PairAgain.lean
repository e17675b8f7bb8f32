import BreezeCore.Cli.PairRuns

/-!
# Pairing again

A run over what an earlier run saved, where nothing is asked and no unit is found that the earlier
one did not find.

* `update_listed` — an entry that tells where its unit is does not change;
* `pair_again` — so the later run asks nobody, makes no key, and when it ends it has saved what it
  loaded.
-/

namespace BreezeCli.Pair

open Fallible Text Bytes Talks Talk BreezeStore Discover
open BreezeDevice (ScanReport)
open Fetch (ReadError LoadError loaded)

/-- Nobody is asked, no key is made, and nothing is saved but this, at this path. -/
def Unchanged (path : Str) (config : AppConfig) : (κ : Kind) → Question κ → Prop
  | .save, q => q = (path, config, .adminReadable)
  | .entropy, _ | .ask, _ => False
  | .read, _ | .scan, _ | .say, _ => True

/-- The configuration was saved. -/
def saved (q : Str × AppConfig × Mode) (r : Except Str Unit) : Step :=
  @Said.mk _ Question Answer .save q r

/-- Since then lines were printed, and nothing else was done. -/
def OnlySaid (past now : List Step) : Prop := ∃ mid, now = past ++ mid ∧ ∀ e ∈ mid, e.kind = .say

/-- The configuration was saved at this path once, after the file was read and the network was
scanned, and everything else that was done was to print lines. -/
def SavedAgain (path : Str) (config : AppConfig) (log : List Step) : Prop :=
  ∃ (r : Except ReadError Str) (subnet : Option Str) (report : ScanReport)
      (result : Except Str Unit) (before after : List Step),
    log = [readFile path r, scanned subnet (.ok report)] ++ before ++
      saved (path, config, .adminReadable) result :: after ∧
    (∀ e ∈ before, e.kind = .say) ∧ ∀ e ∈ after, e.kind = .say

/-- Some unit was found. -/
def FoundSome (log : List Step) : Prop :=
  ∃ subnet report, scanned subnet (.ok report) ∈ log ∧ report.found ≠ []

/-- The entry of a unit that is where it was. -/
def placedAt (u : UnitConfig) (device : Discovered) : UnitConfig :=
  { u with ip := device.ip.toText, port := device.port, id := Int64.ofNat device.id }

/-- Bringing an entry up to date with the address it has already changes nothing. The unit found
under the identifier is the very entry, and `updated` keeps every field of it. -/
theorem update_listed {config : AppConfig} {device : Discovered} (h : Listed config device) :
    ∃ u, config.findUnit (showInt (Int64.ofNat device.id).toInt) = some u ∧
      (config.addOrUpdateUnit (placedAt u device)).2 = config := by
  obtain ⟨u, hfind, hip, hport⟩ := h
  refine ⟨u, (findUnit_eq ..).trans hfind, ?_⟩
  have hid : u.id = Int64.ofNat device.id := by simpa using List.find?_some hfind
  have hplaced : placedAt u device = u := by
    unfold placedAt
    rw [← hip, ← hport, ← hid]
  rw [hplaced]
  have hunits : (config.addOrUpdateUnit u).2.units = config.units := by
    rcases add_cases config u with
      ⟨before, existing, after, hunits, -, -, hexisting, hadded⟩ | ⟨habsent, -, -⟩
    · rw [findUnit_eq, hid, hfind] at hexisting
      obtain rfl := Option.some.inj hexisting
      have hupdated : u.updated u = u := by
        unfold UnitConfig.updated
        rw [Option.or_self, Option.or_self]
      rw [hadded, hupdated, hunits]
    · exact absurd rfl (habsent u (List.mem_of_find?_eq_some hfind))
  calc (config.addOrUpdateUnit u).2
      = { (config.addOrUpdateUnit u).2 with units := config.units } := by rw [← hunits]
    _ = config := config.addOrUpdateUnit_back u

variable {options : Options} {config : AppConfig} {found : List Discovered}
  {past now : List Step} {path : Str}

/-- Nothing was said in no step. -/
theorem onlySaid_refl (past : List Step) : OnlySaid past past :=
  ⟨[], (List.append_nil _).symm, nofun⟩

/-- A line was printed. -/
theorem onlySaid_printed {line : Line} : OnlySaid past (past ++ [printed line]) :=
  ⟨[printed line], rfl, fun _ he => List.mem_singleton.mp he ▸ rfl⟩

/-- Two stretches in which lines were printed make one. -/
theorem OnlySaid.trans {later : List Step} (h : OnlySaid past now) (h' : OnlySaid now later) :
    OnlySaid past later := by
  obtain ⟨mid, rfl, hmid⟩ := h
  obtain ⟨mid', rfl, hmid'⟩ := h'
  refine ⟨mid ++ mid', List.append_assoc .., fun e he => ?_⟩
  exact (List.mem_append.mp he).elim (hmid e) (hmid' e)

/-- A talk that cannot go on as supposed. -/
theorem keeps_otherwise {W : List Step → Prop} {H : (κ : Kind) → Question κ → Prop}
    {R : List Step → Prop} {α : Type} (hW : ∀ now, past <+: now → ¬ W now) (p : Command α) :
    Talk.Keeps (fun now κ q => W now → H κ q) past p (fun now _ => W now → R now)
      fun now _ => W now → R now := by
  have hfree : Talk.Keeps (fun _ _ _ => True) past p (fun _ _ => True) fun _ _ => True :=
    keeps_free (fun _ _ _ => trivial) p
  refine (hfree.since.guard fun now _ _ hnow hw => absurd hw (hW now hnow.1)).talk.weaken ?_ ?_
  all_goals
    rintro now _ ⟨-, mid, rfl, -⟩ hw
    exact absurd hw (hW _ (List.prefix_append _ _))

/-- Lines are printed, and nothing else is done. -/
theorem keeps_printEach_again (lines : List Line) :
    Talk.Keeps (fun _ => Unchanged path config) past (printEach lines)
      (fun now _ => OnlySaid past now) fun _ _ => False := by
  induction lines generalizing past with
  | nil => exact onlySaid_refl past
  | cons line lines ih =>
      refine ⟨trivial, fun _ => ?_⟩
      exact ih.weaken (fun _ _ h => onlySaid_printed.trans h) fun _ _ h => h

/-- The credentials that are stored are kept, and at most a note is printed. -/
theorem keeps_credentials_again (hprompt : options.prompt = false) (device : Discovered)
    (stored : Credentials) :
    Talk.Keeps (fun _ => Unchanged path config) past (credentials options device stored)
      (fun now c => OnlySaid past now ∧ c = stored) fun _ _ => False := by
  unfold credentials
  rw [hprompt]
  split
  · exact ⟨trivial, fun _ => ⟨onlySaid_printed, rfl⟩⟩
  · exact ⟨onlySaid_refl past, rfl⟩

/-- A unit that is listed changes nothing. Nobody is asked for its name or its credentials, and
what is stored is what its entry is brought up to date with. -/
theorem keeps_pairOne_again (hprompt : options.prompt = false) {device : Discovered}
    (hlisted : device.id < 2 ^ 63 → Listed config device) (index : Nat) :
    Talk.Keeps (fun _ => Unchanged path config) past (pairOne options config device index)
      (fun now r => OnlySaid past now ∧ ∀ config', r = some config' → config' = config)
      fun _ _ => False := by
  unfold pairOne
  split
  next hsmall =>
    obtain ⟨u, hfind, hupdate⟩ := update_listed (hlisted hsmall)
    have hname : chooseName options device (defaultName (some u) index) = .done u.name := by
      unfold chooseName
      rw [hprompt]
      rfl
    dsimp only
    rw [hfind, hname]
    refine (keeps_credentials_again hprompt device ⟨u.token, u.key⟩).seq fun now c hc => ?_
    refine ⟨hc.1, ?_⟩
    rintro config' hconfig'
    obtain rfl := Option.some.inj hconfig'
    rw [hc.2]
    exact hupdate
  next => exact ⟨trivial, fun _ => ⟨onlySaid_printed, nofun⟩⟩

/-- Units that are all listed change nothing, whatever their number and order. -/
theorem keeps_pairAll_again (hprompt : options.prompt = false) {count : Nat}
    (devices : List (Discovered × Nat))
    (hlisted : ∀ device ∈ devices, device.1.id < 2 ^ 63 → Listed config device.1) :
    Talk.Keeps (fun _ => Unchanged path config) past (pairAll options config count devices)
      (fun now r => OnlySaid past now ∧ r.1 = config) fun _ _ => False := by
  induction devices generalizing past count with
  | nil => exact ⟨onlySaid_refl past, rfl⟩
  | cons head devices ih =>
      obtain ⟨hhead, hrest⟩ := List.forall_mem_cons.mp hlisted
      refine (keeps_pairOne_again hprompt hhead head.2).seq fun now r hr => ?_
      cases r with
      | none => exact (ih hrest).weaken (fun _ _ h => ⟨hr.1.trans h.1, h.2⟩) fun _ _ h => h
      | some config' =>
          obtain rfl := hr.2 config' rfl
          exact (ih hrest).weaken (fun _ _ h => ⟨hr.1.trans h.1, h.2⟩) fun _ _ h => h

/-- In this talk the file held one configuration, and only these units were on the network. -/
structure SameWorld (fromJson : Str → Except Str AppConfig) (config : AppConfig)
    (found : List Discovered) (log : List Step) : Prop where
  read : ∀ path r, readFile path r ∈ log → loaded fromJson r = .ok config
  scan : ∀ subnet report, scanned subnet (.ok report) ∈ log → report.found ⊆ found

/-- What is so of the whole run was so of its beginning. -/
theorem SameWorld.earlier {fromJson : Str → Except Str AppConfig} {later : List Step}
    (h : SameWorld fromJson config found later) (hnow : past ⊆ later) :
    SameWorld fromJson config found past :=
  ⟨fun path r hr => h.read path r (hnow hr), fun subnet report hr => h.scan subnet report (hnow hr)⟩

/-- What was found is listed: where that is something, the configuration is saved. Nothing found
ends in printed lines; otherwise the pass over the units gives back the configuration it was
given. -/
theorem keeps_pairFound_again (hprompt : options.prompt = false) (path : Str) (newKey : Bool)
    {r : Except ReadError Str} {subnet : Option Str} {report : ScanReport}
    (hpast : past = [readFile path r, scanned subnet (.ok report)])
    (hlisted : ∀ device ∈ report.found, device.id < 2 ^ 63 → Listed config device) :
    Talk.Keeps (fun _ => Unchanged path config) past (pairFound options path config newKey report)
      (fun now _ => FoundSome now → SavedAgain path config now)
      fun now _ => FoundSome now → SavedAgain path config now := by
  unfold pairFound
  split
  next hnone =>
    refine (keeps_printEach_again _).weaken ?_ fun _ _ h => absurd h id
    rintro now _ ⟨mid, rfl, hmid⟩ ⟨subnet', report', hmem, hfound⟩
    rw [hpast] at hmem
    rcases List.mem_append.mp hmem with hmem | hmem
    · rcases hmem with - | ⟨-, - | ⟨-, ⟨⟩⟩⟩
      exact absurd hnone hfound
    · cases hmid _ hmem
  have hdevices : ∀ device ∈ report.found.zipIdx, device.1.id < 2 ^ 63 →
      Listed config device.1 := fun device hdevice =>
    hlisted device.1 (List.fst_mem_of_mem_zipIdx hdevice)
  refine ((keeps_pairAll_again hprompt _ hdevices).weaken (fun _ _ h => h)
    fun _ _ h => absurd h id).seq fun now paired hr => ?_
  obtain ⟨⟨before, hnow, hbefore⟩, hsame⟩ := hr
  obtain ⟨config', count⟩ := paired
  obtain rfl : config' = config := hsame
  refine ⟨rfl, fun result => ?_⟩
  have hagain : ∀ after, (∀ e ∈ after, e.kind = .say) → SavedAgain path config'
      (now ++ [saved (path, config', .adminReadable) result] ++ after) := fun after hafter =>
    ⟨r, subnet, report, result, before, after, by rw [hnow, hpast, List.append_assoc]; rfl,
      hbefore, hafter⟩
  cases result with
  | error e =>
      have hend := hagain [] nofun
      rw [List.append_nil] at hend
      exact fun _ => hend
  | ok _ =>
      refine (keeps_printEach_again _).weaken ?_ fun _ _ h => absurd h id
      rintro later _ ⟨after, rfl, hafter⟩ -
      exact hagain after hafter

/-- A run over a configuration that has a key and lists the units that are there. The file is
read as that configuration, the key is kept, and a scan that finds other units is outside the
promise. -/
theorem keeps_run_again (fromJson : Str → Except Str AppConfig) (defaultPath : Str)
    (hprompt : options.prompt = false) (hkey : config.apiKey.isSome = true)
    (hlisted : ∀ device ∈ found, device.id < 2 ^ 63 → Listed config device) :
    Talk.Keeps (fun now κ q => SameWorld fromJson config found now →
        Unchanged (options.out.getD defaultPath) config κ q) []
      (run fromJson defaultPath options)
      (fun now _ => SameWorld fromJson config found now → FoundSome now →
        SavedAgain (options.out.getD defaultPath) config now)
      fun now _ => SameWorld fromJson config found now → FoundSome now →
        SavedAgain (options.out.getD defaultPath) config now := by
  unfold run
  refine ⟨fun _ => trivial, fun r => ?_⟩
  have hmem : readFile (options.out.getD defaultPath) r ∈
      [] ++ [readFile (options.out.getD defaultPath) r] := List.mem_cons_self
  by_cases hloaded : loaded fromJson r = .ok config
  · change Talk.Keeps _ _ (orFresh _ (loaded fromJson r) >>= _) _ _
    rw [hloaded]
    obtain ⟨key, hkey⟩ := Option.isSome_iff_exists.mp hkey
    have hkeyed : withKey config = .done config := by
      unfold withKey
      rw [hkey]
      rfl
    change Talk.Keeps _ _ (withKey config >>= _) _ _
    rw [hkeyed]
    refine ⟨fun _ => trivial, fun scan => ?_⟩
    cases scan with
    | error e =>
        rintro - ⟨subnet, report, hmem', -⟩
        rcases List.mem_append.mp hmem' with hmem' | hmem'
        · cases List.mem_singleton.mp hmem'
        · cases List.mem_singleton.mp hmem'
    | ok report =>
        by_cases hfound : report.found ⊆ found
        · refine ((keeps_pairFound_again hprompt _ _ rfl ?_).guard ?_).weaken ?_ ?_
          · exact fun device hdevice => hlisted device (hfound hdevice)
          · exact fun now κ q hq _ => hq
          · exact fun _ _ h _ => h
          · exact fun _ _ h _ => h
        · refine keeps_otherwise (fun now hnow hworld => hfound ?_) _
          exact hworld.scan _ report (hnow.subset (List.mem_append_right _ List.mem_cons_self))
  · refine keeps_otherwise (fun now hnow hworld => hloaded ?_) _
    exact hworld.read _ r (hnow.subset hmem)

/-- **The units that are paired are left alone.**  A run that asks nobody, over what an earlier run
saved, wherever it finds units that the earlier one found too and that had one id each: whatever it
has done so far was to read, to scan, to print, or to save that configuration as it is at the path
it read it from; and when it has ended and found any of the units, it has saved it, once. -/
theorem pair_again (fromJson : Str → Except Str AppConfig) (defaultPath : Str)
    (options options' : Options) (log log' : List Step) (q : Str × AppConfig × Mode)
    (go : Except Str Unit → Command Unit) (found : List Discovered) (p' : Command Unit)
    (h : After (run fromJson defaultPath options) log (.ask (κ := .save) q go))
    (hfound : ∀ subnet report, scanned subnet (.ok report) ∈ log → report.found = found)
    (hids : (found.map Discovered.id).Nodup) (hprompt : options'.prompt = false)
    (h' : After (run fromJson defaultPath options') log' p')
    (hworld : SameWorld fromJson q.2.1 found log') :
    (∀ e ∈ log', Unchanged (options'.out.getD defaultPath) q.2.1 e.kind e.question) ∧
      ((outcome p').isSome = true → FoundSome log' →
        SavedAgain (options'.out.getD defaultPath) q.2.1 log') := by
  obtain ⟨config₀, report, subnet, -, hscanned, hsaved⟩ := pair_saves fromJson defaultPath options
    log q go h
  have hreport := hfound subnet report hscanned
  have hlisted : ∀ device ∈ found, device.id < 2 ^ 63 → Listed q.2.1 device := by
    intro device hdevice hsmall
    refine hsaved.listed device (hreport ▸ hdevice) hsmall fun e he hid => ?_
    exact List.inj_on_of_nodup_map hids (hreport ▸ he) hdevice hid
  have hkey : q.2.1.apiKey.isSome = true := by
    obtain ⟨keyed, ⟨-, hkeyed⟩, hgrown⟩ := hsaved.keyed
    rw [hgrown.apiKey]
    rcases hkeyed with ⟨hsame, hsome⟩ | ⟨-, bytes, -, hnew⟩
    · rw [hsame]
      exact hsome
    · rw [hnew]
      rfl
  have hkeeps := keeps_run_again fromJson defaultPath hprompt hkey hlisted
  refine ⟨fun e he => ?_, fun hended hsome => ?_⟩
  · obtain ⟨before, after, rfl⟩ := List.append_of_mem he
    exact hkeeps.said h' (hworld.earlier (List.subset_append_left _ _))
  · cases p' with
    | done _ => exact hkeeps.ended h' hworld hsome
    | failed e => exact hkeeps.stopped h' hworld hsome
    | ask q' go' => cases hended

/-- The next day: the file is what was saved, and the unit is where it was. -/
def nextDay : (κ : Kind) → Question κ → Answer κ
  | .read, _ => .ok "{}".toList
  | .entropy, _ => .error []
  | .scan, _ => .ok ⟨[bedroom], [], 3, true, none⟩
  | .ask, _ => .ended
  | .say, _ => ()
  | .save, _ => .ok ()

/-- The options of a run that asks nobody. -/
def quiet : Options := ⟨none, none, false⟩

/-- The first run until it saves, and the whole of the later one. -/
def runs : (List Step × Command Unit) × (List Step × Command Unit) :=
  (talkWith newcomer 4 (run (fun _ => .ok bedroomConfig) "config.json".toList prompting),
    talkWith nextDay 9 (run (fun _ => .ok bedroomConfig) "config.json".toList quiet))

/-- The first run reads, draws a key, scans and asks for a name. -/
theorem runs_first : runs.1.1 =
    [readFile "config.json".toList (.error .notFound), drawn (.ok (Arr.zero 24)),
      scanned none (.ok ⟨[bedroom], [], 3, true, none⟩),
      prompted "Name for unit at 192.168.1.73 [AC 1]: ".toList (.line " Bedroom\n".toList)] := rfl

/-- The later one reads, scans, saves and prints. -/
theorem runs_later : runs.2.1 =
    [readFile "config.json".toList (.ok "{}".toList),
      scanned none (.ok ⟨[bedroom], [], 3, true, none⟩),
      saved ("config.json".toList, bedroomConfig, .adminReadable) (.ok ())] ++
      (closing "config.json".toList bedroomConfig 1 false).map printed := rfl

/-- The next day's run over what the first one saved. Both logs are those of the two runs, and the
second ends with the configuration of the first saved once more. -/
theorem pair_again_nextDay :
    (∀ e ∈ runs.2.1, Unchanged "config.json".toList bedroomConfig e.kind e.question) ∧
      SavedAgain "config.json".toList bedroomConfig runs.2.1 := by
  have hfirst : nextSave runs.1.2 =
      some ("config.json".toList, bedroomConfig, .adminReadable) := by decide +kernel
  obtain ⟨go, hgo⟩ := nextSave_eq_some hfirst
  have hscan : scanned none (.ok ⟨[bedroom], [], 3, true, none⟩) ∈ runs.2.1 :=
    List.mem_cons_of_mem _ List.mem_cons_self
  have hfound : ∀ subnet report, scanned subnet (.ok report) ∈ runs.1.1 →
      report.found = [bedroom] := by
    intro subnet report hmem
    rw [runs_first] at hmem
    rcases hmem with - | ⟨-, - | ⟨-, - | ⟨-, - | ⟨-, ⟨⟩⟩⟩⟩⟩
    rfl
  have hworld : SameWorld (fun _ => .ok bedroomConfig) bedroomConfig [bedroom] runs.2.1 := by
    rw [runs_later]
    refine ⟨fun path r hmem => ?_, fun subnet report hmem => ?_⟩
    · rcases hmem with - | ⟨-, - | ⟨-, - | ⟨-, - | ⟨-, - | ⟨-, ⟨⟩⟩⟩⟩⟩⟩
      rfl
    · rcases hmem with - | ⟨-, - | ⟨-, - | ⟨-, - | ⟨-, - | ⟨-, ⟨⟩⟩⟩⟩⟩⟩
      exact List.Subset.refl _
  obtain ⟨hasked, hsaved⟩ := pair_again (fun _ => .ok bedroomConfig) "config.json".toList prompting
    quiet runs.1.1 runs.2.1 ("config.json".toList, bedroomConfig, .adminReadable) go [bedroom]
    runs.2.2 (hgo ▸ after_talkWith newcomer 4 _) hfound (List.nodup_singleton _) rfl
    (after_talkWith nextDay 9 _) hworld
  exact ⟨hasked, hsaved rfl ⟨none, _, hscan, List.cons_ne_nil _ _⟩⟩

end BreezeCli.Pair
