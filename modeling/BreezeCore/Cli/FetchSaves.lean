import BreezeCore.Cli.FetchRuns

/-!
# What `breeze-core fetch` saves

* `fetch_saves` — the configuration is written only after a copy of it as it was, and a unit in
  it only changes by a token that a cloud gave for its id and that the unit accepted, unless the
  person said yes to keeping it.
-/

namespace BreezeCli.Fetch

open Fallible Text Bytes Talks Talk BreezeCloud BreezeStore
open BreezeDevice (DeviceUnit)

variable {C : Crates}

/-! ## The saves of a run -/

/-- Nothing is saved. -/
abbrev Unsaving : (κ : Kind) → Question κ → Prop :=
  steps (fun _ => True) (fun _ => True) (fun _ => True) fun _ => False

/-- Without login, password and save there is no save. -/
theorem unsaving_of_still (κ : Kind) (q : Question κ) (hq : Still κ q) : Unsaving κ q :=
  steps_mono (fun _ _ => trivial) (fun _ h => h) (fun _ _ => trivial) (fun _ hfalse => hfalse)
    κ q hq

/-- Nobody is asked anything, and nothing is saved. -/
abbrev Unattended : (κ : Kind) → Question κ → Prop :=
  steps (fun _ => True) (fun _ => False) (fun _ => False) fun _ => False

/-- Nor is there one where nobody is asked and nothing saved. -/
theorem unsaving_of_unattended (κ : Kind) (q : Question κ) (hq : Unattended κ q) : Unsaving κ q :=
  steps_mono (fun _ h => h) (fun _ _ => trivial) (fun _ _ => trivial) (fun _ h => h) κ q hq

/-- Where nobody is asked, nobody types a line. -/
theorem unread_of_unattended (κ : Kind) (q : Question κ) (hq : Unattended κ q) : Unread κ q :=
  steps_mono (fun _ h => h) (fun _ h => h) (fun _ h => h) (fun _ _ => trivial) κ q hq

/-- A save, and what came of it. -/
def saveOf : Step → Option ((Str × AppConfig × Mode) × Except Str Unit)
  | @Said.mk _ _ _ .save q r => some (q, r)
  | _ => none

/-- What a run has saved so far, with what came of it. -/
def saved (log : List Step) : List ((Str × AppConfig × Mode) × Except Str Unit) :=
  log.filterMap saveOf

/-- One stretch after the other. -/
theorem saved_append (log log' : List Step) : saved (log ++ log') = saved log ++ saved log' :=
  List.filterMap_append

/-- Steps that are no saves have saved nothing. -/
theorem saved_eq_nil {log : List Step} (h : ∀ e ∈ log, Unsaving e.kind e.question) :
    saved log = [] := by
  refine List.filterMap_eq_nil_iff.mpr fun e he => ?_
  have hunsaving := h e he
  match e, hunsaving with
  | @Said.mk _ _ _ (.cloud _) _ _, _ | @Said.mk _ _ _ .read _ _, _ | @Said.mk _ _ _ .scan _ _, _
  | @Said.mk _ _ _ .refresh _ _, _ | @Said.mk _ _ _ .ask _ _, _
  | @Said.mk _ _ _ .password _ _, _ => rfl

/-- A session with a unit and a state read, and what came of it. -/
def refreshed (unit : DeviceUnit) (r : Except Str Unit) : Step :=
  @Said.mk Kind Question Answer .refresh unit r

/-- The unit took the token: a session with it and a state read went well. -/
def Accepted (now : List Step) (unit : UnitConfig) (token : Token) : Prop :=
  ∃ deviceUnit,
    BreezeHttp.ConfigRoutes.toDeviceUnit (withToken unit token) = .ok (some deviceUnit) ∧
    refreshed deviceUnit (.ok ()) ∈ now

/-- The unit did not take the token, and to the question that came right then, whether to save it
anyway, yes was typed. -/
def SavedAnyway (options : Options) (lines : Lines) (now : List Step) (unit : UnitConfig)
    (token : Token) : Prop :=
  ∃ deviceUnit e before answered,
    BreezeHttp.ConfigRoutes.toDeviceUnit (withToken unit token) = .ok (some deviceUnit) ∧
    SaysYes options lines (yesNoPrompt saveAnyway false)
      (before ++ [refreshed deviceUnit (.error e)]) answered ∧ answered <+: now

/-- The unit took the token, or the person said yes to keeping it. -/
def Approved (options : Options) (lines : Lines) (now : List Step) (unit : UnitConfig)
    (token : Token) : Prop :=
  Accepted now unit token ∨ SavedAnyway options lines now unit token

/-- A cloud gave the token for the unit's id, and the unit took it or the person said yes to
keeping it. -/
def Granted (C : Crates) (options : Options) (lines : Lines) (now : List Step) (unit : UnitConfig)
    (token : Token) : Prop :=
  (∃ id before, unsignedId unit = some id ∧ before <+: now ∧
      EndsWithToken C id (cloudTalk before) token) ∧ Approved options lines now unit token

/-- The configuration with some of its units' tokens changed. -/
def Changed (C : Crates) (options : Options) (config : AppConfig) (lines : Lines)
    (now : List Step) (config' : AppConfig) : Prop :=
  config'.apiKey = config.apiKey ∧ config'.units.length = config.units.length ∧
    ∀ (j : Nat) (u' : UnitConfig), config'.units[j]? = some u' → ∃ u, config.units[j]? = some u ∧
      (u' = u ∨ ∃ token, u' = withToken u token ∧ Granted C options lines now u token)

/-- What may be saved: the copy first, and then the changed configuration. -/
def MaySave (C : Crates) (options : Options) (path : Str) (config : AppConfig) (lines : Lines)
    (now : List Step) : (κ : Kind) → Question κ → Prop :=
  steps (fun _ => True) (fun _ => True) (fun _ => True) fun (path', config', mode) =>
    mode = .adminReadable ∧
    ((path' = backupPath path ∧ config' = config ∧ saved now = []) ∨
      (path' = path ∧ saved now = [((backupPath path, config, .adminReadable), .ok ())] ∧
        Changed C options config lines now config'))

variable {options : Options} {path : Str} {config : AppConfig} {lines : Lines} {past : List Step}
  {unit : UnitConfig} {token : Token}

/-- A step that is no save is allowed at any point. -/
theorem maySave_of_unsaving (now : List Step) (κ : Kind) (q : Question κ) (h : Unsaving κ q) :
    MaySave C options path config lines now κ q :=
  steps_mono (fun _ h => h) (fun _ h => h) (fun _ h => h) (fun _ hfalse => hfalse.elim) κ q h

/-- A token that the unit took, or that the person wanted kept, stays approved. -/
theorem Approved.append (h : Approved options lines past unit token) (mid : List Step) :
    Approved options lines (past ++ mid) unit token := by
  rcases h with ⟨deviceUnit, hunit, hmem⟩ | ⟨deviceUnit, e, before, answered, hunit, hyes, hnow⟩
  · exact .inl ⟨deviceUnit, hunit, List.mem_append_left _ hmem⟩
  · exact .inr ⟨deviceUnit, e, before, answered, hunit, hyes,
      hnow.trans (List.prefix_append _ _)⟩

/-- What was granted stays granted as the log grows. -/
theorem Granted.append (h : Granted C options lines past unit token) (mid : List Step) :
    Granted C options lines (past ++ mid) unit token := by
  obtain ⟨⟨id, before, hid, hbefore, htoken⟩, happroved⟩ := h
  exact ⟨⟨id, before, hid, hbefore.trans (List.prefix_append _ _), htoken⟩, happroved.append mid⟩

/-! ## Tokens in the configuration -/

/-- Entering the tokens one after the other changes each unit by the last one that was got for it,
and nothing else. -/
theorem foldl_withToken (got : List (Nat × Token)) (units : List UnitConfig) :
    let units' := got.foldl (fun units (index, token) =>
      units.modify index (withToken · token)) units
    units'.length = units.length ∧
      ∀ (j : Nat) (u' : UnitConfig), units'[j]? = some u' → ∃ u, units[j]? = some u ∧
        (u' = u ∨ ∃ token, (j, token) ∈ got ∧ u' = withToken u token) := by
  induction got generalizing units with
  | nil => exact ⟨rfl, fun j u' h => ⟨u', h, .inl rfl⟩⟩
  | cons entry got ih =>
      obtain ⟨index, token⟩ := entry
      obtain ⟨hlength, hunits⟩ := ih (units.modify index (withToken · token))
      refine ⟨hlength.trans (List.length_modify ..), fun j u' h => ?_⟩
      obtain ⟨u₁, hu₁, hu'⟩ := hunits j u' h
      rw [List.getElem?_modify] at hu₁
      obtain ⟨u, hu, rfl⟩ := Option.map_eq_some_iff.mp hu₁
      refine ⟨u, hu, ?_⟩
      rcases hu' with rfl | ⟨later, hmem, rfl⟩
      · by_cases hij : index = j
        · subst hij
          rw [if_pos rfl]
          exact .inr ⟨token, List.mem_cons_self, rfl⟩
        · rw [if_neg hij]
          exact .inl rfl
      · refine .inr ⟨later, List.mem_cons_of_mem _ hmem, ?_⟩
        split <;> rfl

/-- What a token that was got does to the configuration, and what it does not. -/
theorem changed_setTokens {got : List (Nat × Token)}
    (hgot : ∀ i token, (i, token) ∈ got → ∀ u, config.units[i]? = some u →
      Granted C options lines past u token) :
    Changed C options config lines past (setTokens config got) := by
  obtain ⟨hlength, hunits⟩ := foldl_withToken got config.units
  refine ⟨rfl, hlength, fun j u' h => ?_⟩
  obtain ⟨u, hu, hu'⟩ := hunits j u' h
  refine ⟨u, hu, hu'.imp_right ?_⟩
  rintro ⟨token, hmem, rfl⟩
  exact ⟨token, rfl, hgot j token hmem u hu⟩

/-! ## The steps -/

variable {guard : List Step → (κ : Kind) → Question κ → Prop}

/-- A token is kept when the unit takes it, or the person says yes to keeping it. The question has
no as its default, so that the yes was typed at the question about this unit. -/
theorem keeps_check {rest : Lines} (hG : ∀ now κ (q : Question κ), Unsaving κ q → guard now κ q)
    (hrest : Unused options lines past rest) :
    Talk.Keeps guard past (check unit token rest)
      (fun now kept => Unused options lines now kept.2 ∧
        (kept.1 = true → Approved options lines now unit token))
      fun _ _ => True := by
  unfold check
  split
  · trivial
  · exact ⟨hrest, nofun⟩
  case h_3 deviceUnit hunit =>
      refine Talk.Keeps.seq (P := fun now r => now = past ++ [refreshed deviceUnit r])
        ⟨hG _ _ _ trivial, fun r => rfl⟩ ?_
      intro now r hnow
      subst hnow
      have hunread : Unused options lines (past ++ [refreshed deviceUnit r]) rest :=
        hrest.unread fun e he => by rw [List.mem_singleton.mp he]; trivial
      split
      · exact ⟨hunread, fun _ =>
          .inl ⟨deviceUnit, hunit, List.mem_append_right _ (List.mem_singleton_self _)⟩⟩
      next e =>
        refine (keeps_yesNo (fun now message => hG now .ask message trivial) _ _ hunread).weaken ?_
          fun _ _ h => h
        intro later kept hkept
        exact ⟨hkept.1, fun hyes => .inr ⟨deviceUnit, e, past, later, hunit, hkept.2 rfl hyes,
          List.prefix_rfl⟩⟩

/-- In a talk with a cloud nobody is asked anything, and nothing is saved. -/
theorem only_within {α : Type} (p : Conversation α) : Only Unattended (Talk.within clouds p) :=
  (only_free posts_true p).within clouds steps_cloud

/-- In a talk with the clouds nobody types. -/
theorem unread_of_cloud {α : Type} {p : Conversation α} {p' : Talk Question Answer CloudError α}
    {mid : List Step} (h : After (Talk.within clouds p) mid p') :
    ∀ e ∈ mid, Unread e.kind e.question :=
  fun e he => unread_of_unattended _ _ ((only_within p).said h e he)

/-- Every token that is got was granted. The induction is on the units still wanted: what was
granted before stays so as the log grows, and the unit at hand adds its own token or none. -/
theorem keeps_fetchUnits (hG : ∀ now κ (q : Question κ), Unsaving κ q → guard now κ q)
    (session : Session) (listed : Option (List Appliance)) (got : List (Nat × Token))
    (missing : Nat) (rest : Lines) (wanted : List Nat) (hrest : Unused options lines past rest)
    (hgot : ∀ i token, (i, token) ∈ got → ∀ u, config.units[i]? = some u →
      Granted C options lines past u token) :
    Talk.Keeps guard past (fetchUnits C session config listed got missing rest wanted)
      (fun now found => ∀ i token, (i, token) ∈ found.1 → ∀ u, config.units[i]? = some u →
        Granted C options lines now u token) fun _ _ => True := by
  induction wanted generalizing past got missing rest with
  | nil => exact hgot
  | cons index wanted ih =>
      unfold fetchUnits
      split
      · trivial
      case h_2 unit hunit =>
          split
          · exact ih got missing rest hrest hgot
          case h_2 id hid =>
              split
              · exact ih got (missing + 1) rest hrest hgot
              refine keeps_bind.mpr (keeps_attempt.mpr ((keeps_within clouds
                (keeps_token id session) fun now κ q _ =>
                  hG _ _ _ (steps_cloud κ q (posts_true κ q))).talk.weaken ?_ ?_))
              · rintro now token ⟨htoken, mid, rfl, hmid⟩
                have hgot' : ∀ i token, (i, token) ∈ got → ∀ u, config.units[i]? = some u →
                    Granted C options lines (past ++ mid) u token := fun i t hmem u hu =>
                  (hgot i t hmem u hu).append mid
                have hrest' := hrest.unread (unread_of_cloud hmid)
                refine keeps_bind.mpr ((keeps_check hG hrest').talk.weaken ?_ fun _ _ _ => trivial)
                rintro later ⟨keep, rest'⟩ ⟨⟨hrest'', hkeep⟩, mid', rfl, -⟩
                have hgot'' : ∀ i token, (i, token) ∈ got → ∀ u, config.units[i]? = some u →
                    Granted C options lines (past ++ mid ++ mid') u token := fun i t hmem u hu =>
                  (hgot' i t hmem u hu).append mid'
                dsimp only
                split
                case isTrue hkept =>
                    refine ih _ _ _ hrest'' fun i t hmem u hu => ?_
                    rcases List.mem_append.mp hmem with hmem | hmem
                    · exact hgot'' i t hmem u hu
                    · obtain ⟨rfl, rfl⟩ := Prod.mk.inj (List.mem_singleton.mp hmem)
                      obtain rfl : unit = u := Option.some.inj (hunit.symm.trans hu)
                      exact ⟨⟨id, past ++ mid, hid, List.prefix_append _ _, htoken⟩, hkeep hkept⟩
                case isFalse => exact ih _ _ _ hrest'' hgot''
              · rintro now e ⟨-, mid, rfl, hmid⟩
                exact ih got (missing + 1) rest (hrest.unread (unread_of_cloud hmid))
                  fun i t hmem u hu => (hgot i t hmem u hu).append mid

/-- A copy of what was there, and then the tokens. Where the copy cannot be written nothing else
is. -/
theorem keeps_save {got : List (Nat × Token)} (hpast : saved past = [])
    (hgot : ∀ i token, (i, token) ∈ got → ∀ u, config.units[i]? = some u →
      Granted C options lines past u token) :
    Talk.Keeps (MaySave C options path config lines) past (save path config got) (fun _ _ => True)
      fun _ _ => True := by
  have hbackup : Talk.Keeps (MaySave C options path config lines) past
      (saveConfig (backupPath path) config .adminReadable)
      (fun now r => saved now = [((backupPath path, config, .adminReadable), r)] ∧
        ∃ step, now = past ++ [step]) fun _ _ => True := by
    refine ⟨⟨rfl, .inl ⟨rfl, rfl, hpast⟩⟩, fun r => ⟨?_, _, rfl⟩⟩
    rw [saved_append, hpast]
    rfl
  refine hbackup.seq ?_
  rintro now r ⟨hsaved, step, rfl⟩
  split
  · trivial
  · refine Talk.Keeps.seq (P := fun _ _ => True) ⟨⟨rfl, .inr ⟨rfl, hsaved, ?_⟩⟩, fun _ => trivial⟩
      fun later r' _ => ?_
    · exact changed_setTokens fun i t hmem u hu => (hgot i t hmem u hu).append _
    · split <;> trivial

/-- In a run from here on the copy is saved first, and then what was granted. -/
theorem keeps_fetchAll (session : Session) (wanted : List Nat) (rest : Lines)
    (hrest : Unused options lines past rest) (hpast : saved past = []) :
    Talk.Keeps (MaySave C options path config lines) past
      (fetchAll C session path config wanted rest) (fun _ _ => True) fun _ _ => True := by
  refine (only_ofCloud (only_free posts_true _)).seq (H := Unattended)
    (fun now κ q hq => maySave_of_unsaving now κ q (unsaving_of_unattended κ q hq))
    (fun mid listing hmid _ => ?_) fun _ _ _ _ => trivial
  have hrest' := hrest.unread fun e he => unread_of_unattended _ _ (hmid e he)
  refine keeps_bind.mpr ((keeps_fetchUnits maySave_of_unsaving session _ [] 0 rest wanted hrest'
    fun _ _ hmem => absurd hmem List.not_mem_nil).talk.weaken ?_ fun _ _ _ => trivial)
  rintro now ⟨got, missing⟩ ⟨hgot, mid', rfl, hmid'⟩
  have hpast' : saved (past ++ mid ++ mid') = [] := by
    rw [saved_append, saved_append, hpast,
      saved_eq_nil fun e he => unsaving_of_unattended _ _ (hmid e he),
      saved_eq_nil fun e he => unsaving_of_still _ _ ((only_fetchUnits ..).said hmid' e he)]
    rfl
  dsimp only
  split
  · trivial
  · exact (keeps_save hpast' hgot).seq fun _ _ _ => trivial

variable {cloud : Cloud} {account : Str}

/-- Nobody attends while the clouds are asked about the account. -/
theorem only_askClouds (order : List Cloud) : Only Unattended (askClouds C account order) := by
  induction order with
  | nil => trivial
  | cons cloud order ih =>
      exact (only_ofCloud (only_free posts_true _)).bind fun answer => ih.bind fun rest => trivial

/-- Asking for the app saves nothing. -/
theorem only_askApp (lines : Lines) : Only Unsaving (askApp lines) := by
  induction lines with
  | nil => exact (only_prompt trivial).bind fun _ => trivial
  | cons line lines ih =>
      unfold askApp
      refine (only_prompt trivial).bind fun _ => ?_
      cases line with
      | error e => trivial
      | ok line =>
          dsimp only
          repeat' split
          all_goals first
            | exact ih
            | trivial

/-- Asking for the account saves nothing. -/
theorem only_askAccount (lines : Lines) : Only Unsaving (askAccount lines) := by
  induction lines with
  | nil => exact (only_prompt trivial).bind fun _ => trivial
  | cons line lines ih =>
      unfold askAccount
      refine (only_prompt trivial).bind fun _ => ?_
      cases line with
      | error e => trivial
      | ok line =>
          dsimp only
          split
          · exact ih
          · trivial

/-- So the choice of the app saves nothing, typed or not. -/
theorem only_chooseApp (lines : Lines) : Only Unsaving (chooseApp options lines) := by
  unfold chooseApp
  split
  · exact (only_ofExcept _).bind fun _ => trivial
  · exact only_askApp lines

/-- The choice of the account saves nothing. -/
theorem only_chooseAccount (lines : Lines) : Only Unsaving (chooseAccount options lines) := by
  unfold chooseAccount
  split
  · trivial
  · exact only_askAccount lines

/-- Nor does the choice between the clouds that know it. -/
theorem only_decide (choice : Choice) (known : List (Cloud × Option Bool)) (lines : Lines) :
    Only Unsaving (decide choice known lines) := by
  unfold decide
  dsimp only
  split
  · split
    · exact (only_yesNo trivial lines).bind fun _ => trivial
    · trivial
  · trivial
  · trivial

/-- Nor does a sign-in, with any number of tries. -/
theorem only_signIn (tries : Nat) (terminal : Terminal) :
    Only Unsaving (signIn C cloud account options tries terminal) := by
  induction tries generalizing terminal with
  | zero => trivial
  | succ tries ih =>
      refine Only.bind (p := askPassword account cloud) ⟨trivial, fun _ => trivial⟩ fun _ => ?_
      refine (only_ofExcept _).bind fun typed => (only_ofCloud (only_free posts_true _)).bind
        fun r => ?_
      split
      · trivial
      · split
        · exact ih _
        · trivial
      · trivial

/-- What only reads lines, in a run where nothing was saved yet. -/
theorem keeps_unsaved {α : Type} {p : Command α} {P : List Step → α → Prop}
    (hpast : saved past = []) (honly : Only Unsaving p)
    (hp : Talk.Keeps (fun _ _ _ => True) past p P fun _ _ => True) :
    Talk.Keeps (MaySave C options path config lines) past p (fun now a => P now a ∧ saved now = [])
      fun _ _ => True := by
  have hsaves : Talk.Keeps (MaySave C options path config lines) past p
      (fun now a => P now a) fun _ _ => True := hp.only honly maySave_of_unsaving
  refine hsaves.talk.weaken ?_ fun _ _ _ => trivial
  rintro now a ⟨ha, mid, rfl, hmid⟩
  refine ⟨ha, ?_⟩
  rw [saved_append, hpast, saved_eq_nil (honly.said hmid)]
  rfl

/-- The password is a line where it comes from standard input, and nothing else is read. At the
terminal it is typed unseen and leaves the lines alone. -/
theorem unused_password (account : Str) (cloud : Cloud) {terminal : Terminal}
    (hterminal : Unused options lines past terminal.lines) {typed : Str} {terminal' : Terminal}
    (h : password options terminal = .ok (typed, terminal')) :
    Unused options lines (past ++ [@Said.mk _ Question Answer .password (account, cloud) ()])
      terminal'.lines := by
  have hread : linesRead options
      (past ++ [@Said.mk _ Question Answer .password (account, cloud) ()]) =
        linesRead options past + if options.passwordStdin then 1 else 0 := by
    rw [linesRead_append]
    cases hstdin : options.passwordStdin <;> simp [linesRead, readsLine, hstdin]
  unfold Unused at hterminal ⊢
  rw [hread, ← List.drop_drop, ← hterminal]
  unfold password at h
  split at h
  next hstdin =>
    rw [if_pos hstdin]
    split at h
    case h_1 hlines => cases h; rw [hlines]; rfl
    case h_2 line rest hlines => cases h; rw [hlines]; rfl
    case h_3 => cases h
  next hstdin =>
    rw [if_neg hstdin]
    split at h
    case h_1 => cases h
    case h_2 => cases h; rfl
    case h_3 => cases h

/-- Signing in reads the lines it takes. Each try reads one password, and what the cloud answers
reads none. -/
theorem keeps_signIn_lines (tries : Nat) (terminal : Terminal)
    (hterminal : Unused options lines past terminal.lines) :
    Talk.Keeps (fun _ _ _ => True) past (signIn C cloud account options tries terminal)
      (fun now found => Unused options lines now found.2.lines) fun _ _ => True := by
  induction tries generalizing past terminal with
  | zero => exact hterminal
  | succ tries ih =>
      refine Talk.Keeps.seq
        (P := fun now _ => now = past ++ [@Said.mk _ Question Answer .password (account, cloud) ()])
        ⟨trivial, fun _ => rfl⟩ fun now _ hnow => ?_
      subst hnow
      refine keeps_bind.mpr (keeps_ofExcept (fun typed htyped => ?_) fun _ _ => trivial)
      have hterminal' := unused_password account cloud hterminal htyped
      refine keeps_bind.mpr (keeps_attempt.mpr ((keeps_free (fun _ _ _ => trivial) _).talk.weaken
        ?_ ?_))
      · rintro later session ⟨-, mid, rfl, hmid⟩
        exact hterminal'.unread (unread_of_cloud hmid)
      · rintro later e ⟨-, mid, rfl, hmid⟩
        have hlater := hterminal'.unread (unread_of_cloud hmid)
        split
        · exact hlater
        · split
          · exact ih _ hlater
          · exact hlater
        · exact hlater

/-- With a session the tokens are fetched and saved; up to there nothing was saved, and the lines
that are left were not read. -/
theorem keeps_fetchSignedIn_saves {wanted : List Nat} (cloud : Cloud) (account : Str)
    (terminal : Terminal) (hterminal : Unused options lines past terminal.lines)
    (hpast : saved past = []) :
    Talk.Keeps (MaySave C options path config lines) past
      (fetchSignedIn C cloud account options path config wanted terminal)
      (fun _ _ => True) fun _ _ => True := by
  refine (keeps_unsaved hpast (only_signIn _ terminal)
    (keeps_signIn_lines (tries options) _ hterminal)).seq ?_
  rintro now ⟨session, terminal'⟩ ⟨hrest, hnow⟩
  cases session with
  | none => trivial
  | some session => exact keeps_fetchAll session wanted _ hrest hnow

/-- The same with the cloud that has its own protocol. Listing the units is unattended, so the
tokens are asked for with the lines and the log as signing in left them. -/
theorem keeps_nethome_saves {wanted : List Nat} (account : Str) (terminal : Terminal)
    (hterminal : Unused options lines past terminal.lines) (hpast : saved past = []) :
    Talk.Keeps (MaySave C options path config lines) past
      (nethome C account options path config wanted terminal)
      (fun _ _ => True) fun _ _ => True := by
  refine (keeps_unsaved hpast (only_signIn _ terminal)
    (keeps_signIn_lines (tries options) _ hterminal)).seq ?_
  rintro now ⟨session, terminal'⟩ ⟨hrest, hnow⟩
  dsimp only
  split
  · trivial
  split
  · trivial
  split
  · trivial
  refine (only_ofCloud (only_free posts_true _)).seq (H := Unattended)
    (fun now κ q hq => maySave_of_unsaving now κ q (unsaving_of_unattended κ q hq))
    (fun mid token hmid _ => ?_) fun _ _ _ _ => trivial
  have hrest' := hrest.unread fun e he => unread_of_unattended _ _ (hmid e he)
  have hnow' : saved (now ++ mid) = [] := by
    rw [saved_append, hnow, saved_eq_nil fun e he => unsaving_of_unattended _ _ (hmid e he)]
    rfl
  split
  · exact keeps_fetchAll _ wanted _ hrest' hnow'
  · trivial

/-- And so from the choice of the account on. Nothing is saved until the units are asked for, and
the two ways there are the clouds with and without the other protocol. -/
theorem keeps_fetchFor_saves {wanted : List Nat} (terminal : Terminal)
    (hterminal : Unused options lines past terminal.lines) (hpast : saved past = []) :
    Talk.Keeps (MaySave C options path config lines) past
      (fetchFor C options path config wanted terminal) (fun _ _ => True) fun _ _ => True := by
  refine (keeps_unsaved hpast (only_chooseApp _)
    (keeps_chooseApp (fun _ _ => trivial) hterminal)).seq fun now chosen hchosen => ?_
  refine (keeps_unsaved hchosen.2 (only_chooseAccount _)
    (keeps_chooseAccount (fun _ _ => trivial) hchosen.1)).seq fun now' given hgiven => ?_
  refine (only_askClouds _).seq (fun now κ q hq =>
    maySave_of_unsaving now κ q (unsaving_of_unattended κ q hq))
    (fun mid known hmid _ => ?_) fun _ _ _ _ => trivial
  have hrest := hgiven.1.1.unread fun e he => unread_of_unattended _ _ (hmid e he)
  have hsaved : saved (now' ++ mid) = [] := by
    rw [saved_append, hgiven.2, saved_eq_nil fun e he => unsaving_of_unattended _ _ (hmid e he)]
    rfl
  refine (keeps_unsaved hsaved (only_decide _ _ _)
    (keeps_decide (fun _ _ => trivial) hrest)).seq fun later decided hdecided => ?_
  obtain ⟨cloud, rest'⟩ := decided
  cases cloud with
  | none => trivial
  | some cloud =>
      cases cloud with
      | netHomePlus => exact keeps_nethome_saves _ _ hdecided.1.1 hdecided.2
      | smartHome => exact keeps_fetchSignedIn_saves _ _ _ hdecided.1.1 hdecided.2
      | meiju => exact keeps_fetchSignedIn_saves _ _ _ hdecided.1.1 hdecided.2

/-! ## The run -/

/-- The configuration the run began with. -/
def Loaded (fromJson : Str → Except Str AppConfig) (path : Str) (config : AppConfig)
    (log : List Step) : Prop :=
  ∃ before, before <+: log ∧ After (load fromJson path) before (done (.ok config))

/-- The first thing saved is a copy of the configuration as it was loaded.  The only other one
has the same units with the same settings, but for tokens that a cloud gave for the unit's id
and that the unit took, or that the person said yes to when it was asked, right after the unit had
refused, whether to save it anyway. -/
theorem fetch_saves (C : Crates) (fromJson : Str → Except Str AppConfig) (defaultPath : Str)
    (options : Options) (terminal : Terminal) (log : List Step) (path : Str) (config : AppConfig)
    (mode : Mode) (go : Except Str Unit → Command Nat)
    (h : After (run C fromJson defaultPath options terminal) log
      (.ask (κ := .save) (path, config, mode) go)) :
    ∃ config₀, Loaded fromJson (options.config.getD defaultPath) config₀ log ∧
      mode = .adminReadable ∧
      ((path = backupPath (options.config.getD defaultPath) ∧ config = config₀ ∧ saved log = []) ∨
        (path = options.config.getD defaultPath ∧
          saved log = [((backupPath path, config₀, .adminReadable), .ok ())] ∧
          Changed C options config₀ terminal.lines log config)) := by
  have hkeeps : Talk.Keeps (fun now κ q => Unsaving κ q ∨ ∃ config₀,
      Loaded fromJson (options.config.getD defaultPath) config₀ now ∧
        MaySave C options (options.config.getD defaultPath) config₀ terminal.lines now κ q) []
      (run C fromJson defaultPath options terminal) (fun _ _ => True) fun _ _ => True := by
    have hlocal : ∀ {mid : List Step}, (∀ e ∈ mid, Local e.kind e.question) →
        (∀ e ∈ mid, Unsaving e.kind e.question) ∧ ∀ e ∈ mid, Unread e.kind e.question :=
      fun h => ⟨fun e he => steps_of_local _ _ (h e he), fun e he => steps_of_local _ _ (h e he)⟩
    refine (only_load fromJson _).seq (H := Local) (fun now κ q hq => .inl (steps_of_local κ q hq))
      (fun mid loaded hmid hload => ?_) fun _ _ _ _ => trivial
    split
    · trivial
    · trivial
    · trivial
    case h_4 config₀ =>
        refine keeps_bind.mpr (keeps_ofExcept (fun targets _ => ?_) fun _ _ => trivial)
        split
        · trivial
        refine (only_probeUnits config₀ _).seq (H := Local)
          (fun now κ q hq => .inl (steps_of_local κ q hq))
          (fun mid' wanted hmid' _ => ?_) fun _ _ _ _ => trivial
        split
        · trivial
        have hunsaved : saved ([] ++ mid ++ mid') = [] := by
          rw [saved_append, saved_eq_nil (hlocal hmid').1, List.append_nil]
          exact saved_eq_nil (hlocal hmid).1
        have hunused := ((unused_start options terminal.lines).unread (hlocal hmid).2).unread
          (hlocal hmid').2
        refine (keeps_fetchFor_saves terminal hunused hunsaved).since.guard ?_
        rintro now κ q ⟨hnow, hq⟩
        exact .inr ⟨config₀, ⟨mid, (List.prefix_append _ _).trans hnow, hload⟩, hq⟩
  rcases hkeeps.asked h with hfalse | ⟨config₀, hloaded, hmode, hsave⟩
  · exact hfalse.elim
  · refine ⟨config₀, hloaded, hmode, hsave.imp_right ?_⟩
    rintro ⟨rfl, hsaved, hchanged⟩
    exact ⟨rfl, hsaved, hchanged⟩

/-- The document a run is about to save. -/
def nextSave : Command Nat → Option (Str × AppConfig × Mode)
  | @Talk.ask _ _ _ _ _ .save q _ => some q
  | _ => none

/-- That it is about to save one, in the words of the model. -/
theorem nextSave_eq_some {p : Command Nat} {q : Str × AppConfig × Mode} (h : nextSave p = some q) :
    ∃ go : Except Str Unit → Command Nat, p = .ask (κ := .save) q go := by
  match p, h with
  | @Talk.ask _ _ _ _ _ .save q' go, h => exact ⟨go, by rw [Option.some.inj h]⟩

/-- The second save of the run to the end. -/
theorem fetch_saves_atHome : ∃ config₀,
    Loaded (fun _ => .ok oneUnit) "config.json".toList config₀ (fetchRun 42).1 ∧
      Mode.adminReadable = .adminReadable ∧
      (("config.json".toList = backupPath "config.json".toList ∧
          setTokens oneUnit [(0, ⟨"ab".toList, "cd".toList⟩)] = config₀ ∧
          saved (fetchRun 42).1 = []) ∨
        ("config.json".toList = "config.json".toList ∧
          saved (fetchRun 42).1 =
            [((backupPath "config.json".toList, config₀, .adminReadable), .ok ())] ∧
          Changed plainCrates atHome config₀ [] (fetchRun 42).1
            (setTokens oneUnit [(0, ⟨"ab".toList, "cd".toList⟩)]))) := by
  have hnext : nextSave (fetchRun 42).2 = some ("config.json".toList,
      setTokens oneUnit [(0, ⟨"ab".toList, "cd".toList⟩)], .adminReadable) := by decide +kernel
  obtain ⟨go, hask⟩ := nextSave_eq_some hnext
  exact fetch_saves plainCrates (fun _ => .ok oneUnit) [] atHome ⟨[], [.ok "pw".toList]⟩
    (fetchRun 42).1 _ _ _ go (hask ▸ after_talkWith obliging 42 _)

end BreezeCli.Fetch
