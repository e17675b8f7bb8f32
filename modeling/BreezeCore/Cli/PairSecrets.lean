import BreezeCore.Cli.PairRuns

/-!
# What `breeze-core pair` shows

Two runs that differ in nothing but secrets: the tokens and keys that are stored, the ones that are
typed, the API key, and the random bytes a new one is made of.

* `parallel_run` — they go on side by side, whatever is answered;
* `pair_redacted` — so what is printed is the same.
-/

namespace BreezeCli.Pair

open Fallible Text Bytes Talks Talk BreezeStore Discover
open BreezeDevice (ScanReport)
open BreezeHttp.ConfigRoutes (UnitView unitView)
open Fetch (ReadError LoadError loaded)

/-! ## Alike but for secrets -/

/-- Both are there, or neither is. -/
def SameIsSome {α : Type} (x x' : Option α) : Prop := x.isSome = x'.isSome

/-- Two entries that differ at most in what their token and key are, not in whether they have
one. -/
structure UnitAlike (u u' : UnitConfig) : Prop where
  name : u.name = u'.name
  ip : u.ip = u'.ip
  port : u.port = u'.port
  id : u.id = u'.id
  token : SameIsSome u.token u'.token
  key : SameIsSome u.key u'.key

/-- Two configurations that differ at most in secrets, entry by entry. -/
structure ConfigAlike (config config' : AppConfig) : Prop where
  apiKey : SameIsSome config.apiKey config'.apiKey
  units : List.Forall₂ UnitAlike config.units config'.units

/-- Two pairs of credentials of which the same parts are there. -/
structure CredentialsAlike (c c' : Credentials) : Prop where
  token : SameIsSome c.token c'.token
  key : SameIsSome c.key c'.key

/-- What a reading of the file comes to. -/
inductive LoadedAlike : Except LoadError AppConfig → Except LoadError AppConfig → Prop
  | ok {config config' : AppConfig} (h : ConfigAlike config config') :
      LoadedAlike (.ok config) (.ok config')
  | parse (e e' : Str) : LoadedAlike (.error (.parse e)) (.error (.parse e'))
  | io (e : ReadError) : LoadedAlike (.error (.io e)) (.error (.io e))

/-- What is typed where a secret of so many digits is asked for. -/
inductive TypedAlike (len : Nat) : Typed → Typed → Prop
  | same (r : Typed) : TypedAlike len r r
  | lines {s s' : Str} (hempty : trim s = [] ↔ trim s' = [])
      (hhex : isHex (trim s) len = isHex (trim s') len) : TypedAlike len (.line s) (.line s')

/-- What is typed at a prompt.  The one for a token and the one for a key ask for secrets. -/
def PromptAlike (message : Str) (r r' : Typed) : Prop :=
  if message = tokenPrompt then TypedAlike TOKEN_HEX_LEN r r'
  else if message = keyPrompt then TypedAlike KEY_HEX_LEN r r'
  else r = r'

/-- What is put to the world: everything but the contents of the file that is saved. -/
def PutAlike : (κ : Kind) → Question κ → Question κ → Prop
  | .save, q, q' => q.1 = q'.1 ∧ ConfigAlike q.2.1 q'.2.1 ∧ q.2.2 = q'.2.2
  | .read, q, q' | .entropy, q, q' | .scan, q, q' | .ask, q, q' | .say, q, q' => q = q'

/-- What the world answers: everything but secrets. -/
def AnswerAlike (fromJson : Str → Except Str AppConfig) :
    (κ : Kind) → Question κ → Answer κ → Answer κ → Prop
  | .read, _, r, r' => LoadedAlike (loaded fromJson r) (loaded fromJson r')
  | .entropy, _, .ok _, .ok _ => True
  | .entropy, _, r, r' => r = r'
  | .ask, message, r, r' => PromptAlike message r r'
  | .scan, _, r, r' | .say, _, r, r' | .save, _, r, r' => r = r'

abbrev SideBySide {α : Type} (fromJson : Str → Except Str AppConfig) (R : α → α → Prop)
    (p p' : Command α) : Prop := Parallel PutAlike (AnswerAlike fromJson) R p p'

variable {fromJson : Str → Except Str AppConfig} {options : Options}

/-! ## Side by side -/

theorem UnitAlike.view {u u' : UnitConfig} (h : UnitAlike u u') : unitView u = unitView u' := by
  unfold unitView UnitConfig.idText
  rw [h.name, h.ip, h.port, h.id, h.token, h.key]

/-- So both units can be spoken to, or neither. -/
theorem UnitAlike.hasCredentials {u u' : UnitConfig} (h : UnitAlike u u') :
    hasCredentials u = hasCredentials u' := by
  unfold Pair.hasCredentials
  rw [h.token, h.key]

/-- Both runs print the same line. -/
theorem parallel_print (line : Line) :
    SideBySide fromJson (fun _ _ => True) (print line) (print line) :=
  .ask rfl fun _ _ _ => .done trivial

/-- Both runs print the same text. -/
theorem parallel_say (s : Str) : SideBySide fromJson (fun _ _ => True) (say s) (say s) :=
  parallel_print _

/-- Both runs print the same lines, one by one. -/
theorem parallel_printEach (lines : List Line) :
    SideBySide fromJson (fun _ _ => True) (printEach lines) (printEach lines) := by
  induction lines with
  | nil => exact .done trivial
  | cons line lines ih => exact (parallel_print line).bind fun _ _ _ => ih

/-- A prompt for something that is shown. -/
theorem parallel_ask {message : Str} (htoken : message ≠ tokenPrompt)
    (hkey : message ≠ keyPrompt) :
    SideBySide fromJson (· = ·) (ask message) (ask message) := by
  refine .ask rfl fun r r' h => ?_
  obtain rfl : r = r' := by
    change PromptAlike message r r' at h
    unfold PromptAlike at h
    rwa [if_neg htoken, if_neg hkey] at h
  cases r with
  | unwritable e => exact .failed _
  | unreadable e => exact .failed _
  | ended => exact .done rfl
  | line s => exact .done rfl

/-- What was typed for a secret: both are empty, or neither, and both have the right shape, or
neither. -/
structure SecretAlike (len : Nat) (s s' : Str) : Prop where
  empty : s = [] ↔ s' = []
  hex : isHex s len = isHex s' len

/-- What is typed for a token is alike where the prompt is for a token. -/
theorem typedAlike_token {r r' : Typed} (h : PromptAlike tokenPrompt r r') :
    TypedAlike TOKEN_HEX_LEN r r' := by
  unfold PromptAlike at h
  rwa [if_pos rfl] at h

/-- What is typed at a prompt for a key is alike as keys are, where the two prompts' answers are
alike. -/
theorem typedAlike_key {r r' : Typed} (h : PromptAlike keyPrompt r r') :
    TypedAlike KEY_HEX_LEN r r' := by
  unfold PromptAlike at h
  rwa [if_neg (by decide), if_pos rfl] at h

/-- A prompt whose answers are alike gives texts that are both empty or both of the right form, or
neither. -/
theorem parallel_askOrEmpty {message : Str} {len : Nat}
    (hmessage : ∀ r r', PromptAlike message r r' → TypedAlike len r r') :
    SideBySide fromJson (SecretAlike len) (askOrEmpty message) (askOrEmpty message) := by
  refine .ask rfl fun r r' h => ?_
  cases hmessage r r' h with
  | same =>
      cases r with
      | unwritable e => exact .failed _
      | unreadable e => exact .failed _
      | ended => exact .done ⟨Iff.rfl, rfl⟩
      | line s => exact .done ⟨Iff.rfl, rfl⟩
  | lines hempty hhex => exact .done ⟨hempty, hhex⟩

/-- So the check of the pair refuses both for the same reason, or neither. -/
theorem validatePair_alike {token token' key key' : Str}
    (htoken : SecretAlike TOKEN_HEX_LEN token token') (hkey : SecretAlike KEY_HEX_LEN key key') :
    validatePair token key = validatePair token' key' := by
  unfold validatePair
  rw [htoken.hex, hkey.hex]
  simp only [hkey.empty]

/-- The name is no secret: both runs ask for it and get the same. -/
theorem parallel_chooseName (device : Discovered) (name : Str) :
    SideBySide fromJson (· = ·) (chooseName options device name)
      (chooseName options device name) := by
  unfold chooseName
  split
  · have hprompt : ∀ message : Str, message.head? = some ' ' →
        namePrompt device name ≠ message := by
      rintro message hmessage rfl
      cases hmessage
    refine (parallel_ask (hprompt _ rfl) (hprompt _ rfl)).bind fun typed typed' h => .done ?_
    rw [h]
  · exact .done rfl

/-- Both prompts come in both runs, and what is kept of the answers is alike. -/
theorem parallel_askCredentials (device : Discovered) {stored stored' : Credentials}
    (h : CredentialsAlike stored stored') :
    SideBySide fromJson CredentialsAlike (askCredentials device stored)
      (askCredentials device stored') := by
  refine (parallel_say _).bind fun _ _ _ => (parallel_say _).bind fun _ _ _ => ?_
  refine (parallel_askOrEmpty fun _ _ => typedAlike_token).bind fun token token' htoken => ?_
  by_cases hempty : token = []
  · rw [if_pos hempty, if_pos (htoken.empty.mp hempty)]
    exact .done h
  rw [if_neg hempty, if_neg (mt htoken.empty.mpr hempty)]
  refine (parallel_askOrEmpty fun _ _ => typedAlike_key).bind fun key key' hkey => ?_
  rw [validatePair_alike htoken hkey]
  cases validatePair token' key' with
  | ok _ => exact .done ⟨rfl, rfl⟩
  | error e => exact (parallel_say _).bind fun _ _ _ => .done h

/-- Whether the prompts come at all depends on whether there is a token, which is the same in
both. -/
theorem parallel_credentials (device : Discovered) {stored stored' : Credentials}
    (h : CredentialsAlike stored stored') :
    SideBySide fromJson CredentialsAlike (credentials options device stored)
      (credentials options device stored') := by
  have hnone : stored.token = none ↔ stored'.token = none := by
    rw [← Option.not_isSome_iff_eq_none, ← Option.not_isSome_iff_eq_none, h.token]
  unfold credentials
  simp only [hnone]
  split
  · split
    · exact parallel_askCredentials device h
    · exact (parallel_say _).bind fun _ _ _ => .done h
  · exact .done h

/-! ## The configuration -/

/-- Two entries alike, brought up to date with entries alike, are alike. -/
theorem UnitAlike.updated {u u' v v' : UnitConfig} (h : UnitAlike u u') (hnew : UnitAlike v v') :
    UnitAlike (u.updated v) (u'.updated v') := by
  refine ⟨hnew.name, hnew.ip, hnew.port, h.id, ?_, ?_⟩
  · change (v.token.or u.token).isSome = (v'.token.or u'.token).isSome
    rw [Option.isSome_or, Option.isSome_or, hnew.token, h.token]
  · change (v.key.or u.key).isSome = (v'.key.or u'.key).isSome
    rw [Option.isSome_or, Option.isSome_or, hnew.key, h.key]

/-- What is the same of entries that are alike. -/
theorem map_alike {β : Type} {f g : UnitConfig → β} {us us' : List UnitConfig}
    (h : List.Forall₂ UnitAlike us us') (hf : ∀ u u', UnitAlike u u' → f u = g u') :
    us.map f = us'.map g := by
  rw [← List.forall₂_eq_eq_eq, List.forall₂_map_left_iff, List.forall₂_map_right_iff]
  exact h.imp hf

/-- A test that cannot tell secrets apart finds an entry in both lists or in neither. -/
theorem any_alike {f g : UnitConfig → Bool} {us us' : List UnitConfig}
    (h : List.Forall₂ UnitAlike us us') (hf : ∀ u u', UnitAlike u u' → f u = g u') :
    us.any f = us'.any g := by
  have hmap := congrArg (List.any · id) (map_alike h hf)
  rwa [List.any_map, List.any_map] at hmap

/-- An entry is looked for in both. -/
theorem find_alike {us us' : List UnitConfig} (h : List.Forall₂ UnitAlike us us') (id : Int64) :
    Option.Rel UnitAlike (us.find? fun u => u.id = id) (us'.find? fun u => u.id = id) := by
  induction h with
  | nil => exact .none
  | @cons u u' us us' hfirst _ ih =>
      by_cases hid : u.id = id
      · rw [List.find?_cons_of_pos (by simpa using hid),
          List.find?_cons_of_pos (by simpa using hfirst.id ▸ hid)]
        exact .some hfirst
      · rw [List.find?_cons_of_neg (by simpa using hid),
          List.find?_cons_of_neg (by simpa using hfirst.id ▸ hid)]
        exact ih

/-- An entry that is updated in both lists leaves them alike. -/
theorem update_alike {us us' : List UnitConfig} (h : List.Forall₂ UnitAlike us us')
    {v v' : UnitConfig} (hnew : UnitAlike v v') :
    List.Forall₂ UnitAlike
      (us.modify (us.findIdx fun u => u.id = v.id) fun existing => existing.updated v)
      (us'.modify (us'.findIdx fun u => u.id = v'.id) fun existing => existing.updated v') := by
  induction h with
  | nil => exact .nil
  | @cons u u' us us' hfirst hrest ih =>
      have hid : u.id = v.id ↔ u'.id = v'.id := by rw [hfirst.id, hnew.id]
      rw [List.findIdx_cons, List.findIdx_cons]
      simp only [hid]
      by_cases hid' : u'.id = v'.id
      · simp only [hid', decide_true, cond_true, List.modify_zero_cons]
        exact .cons (hfirst.updated hnew) hrest
      · simp only [hid', decide_false, cond_false, List.modify_succ_cons]
        exact .cons hfirst ih

/-- Adding entries alike to configurations alike replaces the same place, or appends. -/
theorem ConfigAlike.add {config config' : AppConfig} (h : ConfigAlike config config')
    {v v' : UnitConfig} (hnew : UnitAlike v v') :
    ConfigAlike (config.addOrUpdateUnit v).2 (config'.addOrUpdateUnit v').2 := by
  have hany : (config.units.any fun u => u.id = v.id) = config'.units.any fun u => u.id = v'.id :=
    any_alike h.units fun u u' hu => by rw [hu.id, hnew.id]
  refine ⟨?_, ?_⟩
  · rw [add_apiKey, add_apiKey]
    exact h.apiKey
  unfold AppConfig.addOrUpdateUnit
  rw [hany]
  split
  · exact update_alike h.units hnew
  · exact List.rel_append h.units (.cons hnew .nil)

/-- The credentials of entries alike are alike. -/
theorem CredentialsAlike.stored {existing existing' : Option UnitConfig}
    (h : Option.Rel UnitAlike existing existing') :
    CredentialsAlike (storedCredentials existing) (storedCredentials existing') := by
  cases h with
  | none => exact ⟨rfl, rfl⟩
  | some h => exact ⟨h.token, h.key⟩

/-- The name that is offered is the same. -/
theorem defaultName_alike {existing existing' : Option UnitConfig}
    (h : Option.Rel UnitAlike existing existing') (index : Nat) :
    defaultName existing index = defaultName existing' index := by
  cases h with
  | none => rfl
  | some h => exact h.name

/-- So one unit is paired alike, with the same lines printed and the same prompts. -/
theorem parallel_pairOne {config config' : AppConfig} (h : ConfigAlike config config')
    (device : Discovered) (index : Nat) :
    SideBySide fromJson (Option.Rel ConfigAlike) (pairOne options config device index)
      (pairOne options config' device index) := by
  unfold pairOne
  split
  · have hexisting := find_alike h.units (Int64.ofNat device.id)
    rw [← findUnit_eq, ← findUnit_eq] at hexisting
    dsimp only
    rw [defaultName_alike hexisting]
    refine (parallel_chooseName device _).bind fun name name' hname => ?_
    refine (parallel_credentials device (.stored hexisting)).bind fun c c' hc => .done ?_
    exact .some (h.add ⟨hname, rfl, rfl, rfl, hc.token, hc.key⟩)
  · exact (parallel_say _).bind fun _ _ _ => .done .none

/-- And all of them, by induction on those that are left. -/
theorem parallel_pairAll (devices : List (Discovered × Nat)) {config config' : AppConfig}
    (h : ConfigAlike config config') (count : Nat) :
    SideBySide fromJson (fun r r' => ConfigAlike r.1 r'.1 ∧ r.2 = r'.2)
      (pairAll options config count devices) (pairAll options config' count devices) := by
  induction devices generalizing config config' count with
  | nil => exact .done ⟨h, rfl⟩
  | cons head devices ih =>
      refine (parallel_pairOne h head.1 head.2).bind fun r r' hr => ?_
      cases hr with
      | none => exact ih h count
      | some hr => exact ih hr (count + 1)

/-! ## The run -/

/-- What is printed at the end shows the key's presence at most. -/
theorem closing_alike {config config' : AppConfig} (h : ConfigAlike config config') (path : Str)
    (count : Nat) (newKey : Bool) :
    closing path config count newKey = closing path config' count newKey := by
  unfold closing
  rw [h.units.length_eq, map_alike h.units fun _ _ => UnitAlike.view,
    any_alike h.units fun _ _ => UnitAlike.hasCredentials]

/-- From the scan on the two runs go side by side. -/
theorem parallel_pairFound {config config' : AppConfig} (h : ConfigAlike config config')
    (path : Str) (newKey : Bool) (report : ScanReport) :
    SideBySide fromJson (fun _ _ => True) (pairFound options path config newKey report)
      (pairFound options path config' newKey report) := by
  unfold pairFound
  split
  · exact parallel_printEach _
  refine (parallel_pairAll _ h 0).bind fun r r' hr => ?_
  refine .ask ⟨rfl, hr.1, rfl⟩ fun saved saved' hsaved => ?_
  obtain rfl : saved = saved' := hsaved
  cases saved with
  | error e => exact .failed _
  | ok _ =>
      change SideBySide _ _ (printEach _) (printEach _)
      rw [closing_alike hr.1, hr.2]
      exact parallel_printEach _

/-- What is read may differ in secrets; what is made of it differs no more than that. -/
theorem parallel_loadConfig (path : Str) :
    SideBySide fromJson ConfigAlike (loadConfig fromJson path) (loadConfig fromJson path) := by
  refine .ask rfl fun r r' h => ?_
  change SideBySide _ _ (orFresh path (loaded fromJson r)) (orFresh path (loaded fromJson r'))
  change LoadedAlike (loaded fromJson r) (loaded fromJson r') at h
  generalize loaded fromJson r = now, loaded fromJson r' = now' at h
  cases h with
  | ok h => exact .done h
  | parse e e' => exact (parallel_say _).bind fun _ _ _ => .done ⟨rfl, .nil⟩
  | io e => exact .failed _

/-- A key is minted in both runs or in neither. Which it is depends on whether there is one
already, and there the two configurations are alike; what the minted bytes are plays no part. -/
theorem parallel_withKey {config config' : AppConfig} (h : ConfigAlike config config') :
    SideBySide fromJson ConfigAlike (withKey config) (withKey config') := by
  have hkey := h.apiKey
  unfold SameIsSome at hkey
  unfold withKey
  cases hold : config.apiKey with
  | some key =>
      rw [hold, Option.isSome_some] at hkey
      obtain ⟨key', hold'⟩ := Option.isSome_iff_exists.mp hkey.symm
      rw [hold']
      exact .done h
  | none =>
      rw [hold, Option.isSome_none] at hkey
      have hold' : config'.apiKey = none :=
        Option.not_isSome_iff_eq_none.mp (hkey ▸ Bool.false_ne_true)
      simp only [hold']
      refine .ask rfl fun r r' h' => ?_
      cases r with
      | ok bytes =>
          cases r' with
          | ok bytes' => exact .done ⟨rfl, h.units⟩
          | error e => cases h'
      | error e =>
          cases r' with
          | ok bytes' => cases h'
          | error e' =>
              obtain rfl : e = e' := Except.error.inj h'
              exact .failed _

/-- The scan does not depend on secrets, and its answer is the same. -/
theorem parallel_discover (options : Options) :
    SideBySide fromJson (· = ·) (discover options) (discover options) := by
  refine .ask rfl fun r r' h => ?_
  obtain rfl : r = r' := h
  cases r with
  | error e => exact .failed _
  | ok report => exact .done rfl

/-- Two runs of the command. -/
theorem parallel_run (fromJson : Str → Except Str AppConfig) (defaultPath : Str)
    (options : Options) :
    SideBySide fromJson (fun _ _ => True) (run fromJson defaultPath options)
      (run fromJson defaultPath options) := by
  refine (parallel_loadConfig _).bind fun config config' h => ?_
  refine (parallel_withKey h).bind fun keyed keyed' hkeyed => ?_
  refine (parallel_discover options).bind fun report report' hreport => ?_
  have hnew : config.apiKey.isNone = config'.apiKey.isNone := by
    rw [← Option.not_isSome, ← Option.not_isSome, h.apiKey]
  rw [hnew, hreport]
  exact parallel_pairFound hkeyed _ _ _

/-- What a step shows: the line that is printed, or the prompt. -/
def shownBy : Step → Option Line
  | @Said.mk _ _ _ .say line _ => some line
  | @Said.mk _ _ _ .ask message _ => some (.text message)
  | _ => none

/-- All that a run has printed, prompts included. -/
def shown (log : List Step) : List Line := log.filterMap shownBy

/-- Two steps alike show the same. -/
theorem shownBy_alike {e e' : Step} (h : AskedAlike PutAlike e e') : shownBy e = shownBy e' := by
  cases h with
  | @mk κ q q' r r' h =>
      cases κ with
      | say => exact congrArg some h
      | ask => exact congrArg (some ∘ Line.text) h
      | read | entropy | scan | save => rfl

/-- Two logs that are alike show the same. -/
theorem shown_alike {log log' : List Step}
    (h : List.Forall₂ (AskedAlike PutAlike) log log') : shown log = shown log' := by
  induction h with
  | nil => rfl
  | cons hfirst _ ih =>
      unfold shown at ih ⊢
      rw [List.filterMap_cons, List.filterMap_cons, shownBy_alike hfirst, ih]

/-- **No secret is shown.**  Of two runs, in two worlds that differ in nothing but stored and typed
tokens and keys, the API key and the random bytes, each prints and prompts what the other does,
and so they go on: to the same question but for secrets in what is saved, or to the same end with
the same error. -/
theorem pair_redacted (fromJson : Str → Except Str AppConfig) (defaultPath : Str)
    (options : Options) (log log' : List Step) (p p' : Command Unit)
    (h : After (run fromJson defaultPath options) log p)
    (h' : After (run fromJson defaultPath options) log' p')
    (hanswers : List.Forall₂ (AnsweredAlike (AnswerAlike fromJson)) log log') :
    shown log = shown log' ∧ SideBySide fromJson (fun _ _ => True) p p' := by
  obtain ⟨hlogs, hend⟩ := (parallel_run fromJson defaultPath options).after h h' hanswers
  exact ⟨shown_alike hlogs, hend⟩

/-- A file that holds one secret or another, and bytes for a key. -/
def keeper (secret : Str) (byte : UInt8) : (κ : Kind) → Question κ → Answer κ
  | .read, _ => .ok secret
  | .entropy, _ => .ok ⟨List.replicate 24 byte, List.length_replicate⟩
  | .scan, _ => .ok ⟨[bedroom], [], 3, true, none⟩
  | .ask, _ => .line "Bedroom\n".toList
  | .say, _ => ()
  | .save, _ => .ok ()

/-- The file holds the token of a unit, for short. -/
def holding (secret : Str) : Except Str AppConfig :=
  .ok { units := [{ name := [], ip := [], id := 42, token := some secret, key := some secret }] }

/-- The whole run. -/
def kept (secret : Str) (byte : UInt8) : List Step × Command Unit :=
  talkWith (keeper secret byte) 9 (run holding "config.json".toList prompting)

/-- Two homes with a token each, and another one. -/
theorem pair_redacted_keeper :
    shown (kept "ab".toList 1).1 = shown (kept "cd".toList 2).1 ∧
      SideBySide holding (fun _ _ => True) (kept "ab".toList 1).2 (kept "cd".toList 2).2 := by
  refine pair_redacted holding "config.json".toList prompting _ _ _ _ (after_talkWith _ 9 _)
    (after_talkWith _ 9 _) ?_
  refine .cons ?_ (.cons ?_ (.cons ?_ (.cons ?_ (.cons ?_ (.cons ?_ (.cons ?_ (.cons ?_
    (.cons ?_ .nil))))))))
  · rintro κ q q' r r' ⟨⟩ ⟨⟩
    exact .ok ⟨rfl, .cons ⟨rfl, rfl, rfl, rfl, rfl, rfl⟩ .nil⟩
  all_goals
    rintro κ q q' r r' ⟨⟩ ⟨⟩
    trivial

end BreezeCli.Pair
