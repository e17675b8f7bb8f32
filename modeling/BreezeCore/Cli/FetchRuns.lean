import BreezeCore.Cli.Fetch

/-!
# Runs of `breeze-core fetch`

* `password_asked` — the password is asked for, and a login sent, only for a cloud that said in
  this run that it has the account;
* `fetch_saves` — the configuration is written only after a copy of it as it was, and a unit in
  it only changes by a token that a cloud gave for its id and that the unit accepted, unless the
  person said yes to keeping it.
-/

namespace BreezeCli.Fetch

open Fallible Text Bytes Talks Talk BreezeCloud BreezeStore
open BreezeDevice (DeviceUnit)

variable {C : Crates} {α : Type}

/-- What the clouds were asked in a run, and said. -/
abbrev cloudTalk (log : List Step) : List BreezeCloud.Exchange := clouds.part log

/-! ## What a step of the command asks -/

/-- A condition on the requests to a cloud, the prompts, the passwords asked for and what is
saved. -/
def steps (g : Request → Prop) (a : Str → Prop) (h : Str × Cloud → Prop)
    (s : Str × AppConfig × Mode → Prop) : (κ : Kind) → Question κ → Prop
  | .cloud .post, q => g q
  | .ask, q => a q
  | .password, q => h q
  | .save, q => s q
  | .cloud .time, _ | .cloud .entropy, _ | .read, _ | .scan, _ | .refresh, _ => True

/-- No login, and no password. -/
abbrev Quiet : (κ : Kind) → Question κ → Prop :=
  steps NoLogin (fun _ => True) (fun _ => False) fun _ => True

/-- No login is sent, no password is asked for, and nothing is saved. -/
abbrev Still : (κ : Kind) → Question κ → Prop :=
  steps NoLogin (fun _ => True) (fun _ => False) fun _ => False

/-- Nobody is asked anything. -/
abbrev Unread : (κ : Kind) → Question κ → Prop :=
  steps (fun _ => True) (fun _ => False) (fun _ => False) fun _ => True

/-- A file is read, or units are looked for or tried, and that is all. -/
abbrev Local : (κ : Kind) → Question κ → Prop :=
  steps (fun _ => False) (fun _ => False) (fun _ => False) fun _ => False

/-- What is allowed of the requests, prompts, cloud questions and saves of a run may be weakened,
kind by kind. -/
theorem steps_mono {g g' : Request → Prop} {a a' : Str → Prop} {h h' : Str × Cloud → Prop}
    {s s' : Str × AppConfig × Mode → Prop} (hg : ∀ q, g q → g' q) (ha : ∀ q, a q → a' q)
    (hh : ∀ q, h q → h' q) (hs : ∀ q, s q → s' q) (κ : Kind) (q : Question κ)
    (hq : steps g a h s κ q) : steps g' a' h' s' κ q := by
  match κ, q, hq with
  | .cloud .post, q, hq => exact hg q hq
  | .ask, q, hq => exact ha q hq
  | .password, q, hq => exact hh q hq
  | .save, q, hq => exact hs q hq
  | .cloud .time, _, _ | .cloud .entropy, _, _ | .read, _, _ | .scan, _, _ | .refresh, _, _ =>
      trivial

variable {g : Request → Prop} {a : Str → Prop} {h : Str × Cloud → Prop}
  {s : Str × AppConfig × Mode → Prop}

/-- A step of the clouds' talk is a step of the command. -/
theorem steps_cloud (κ : BreezeCloud.Kind) (q : BreezeCloud.Question κ) (hq : posts g κ q) :
    steps g a h s (.cloud κ) q := by
  cases κ with
  | time => trivial
  | entropy => trivial
  | post => exact hq

/-- Still steps are quiet: they save nothing besides. -/
theorem quiet_of_still (κ : Kind) (q : Question κ) (hq : Still κ q) : Quiet κ q :=
  steps_mono (fun _ hg => hg) (fun _ ha => ha) (fun _ hh => hh) (fun _ hfalse => hfalse.elim) κ q hq

/-- A step on the machine itself is allowed whatever is demanded of the others. -/
theorem steps_of_local (κ : Kind) (q : Question κ) (hq : Local κ q) : steps g a h s κ q :=
  steps_mono (fun _ hfalse => hfalse.elim) (fun _ hfalse => hfalse.elim)
    (fun _ hfalse => hfalse.elim) (fun _ hfalse => hfalse.elim) κ q hq

/-- A talk with the clouds, run by the command, takes the steps it took there. -/
theorem only_ofCloud {p : Conversation α} (hp : Only (posts g) p) :
    Only (steps g a h s) (ofCloud p) :=
  (hp.within clouds steps_cloud).attempt

/-- Connecting to a unit is a step on the local network. -/
theorem only_refresh (unit : DeviceUnit) : Only (steps g a h s) (refresh unit) :=
  ⟨trivial, fun _ => trivial⟩

/-- A scan of a subnet is a step on the machine, and such a run takes it. -/
theorem only_scanSubnet (cidr : Str) : Only (steps g a h s) (scanSubnet cidr) :=
  ⟨trivial, fun _ => trivial⟩

/-- Reading a file is a step on the machine. -/
theorem only_readToString (path : Str) : Only (steps g a h s) (readToString path) :=
  ⟨trivial, fun _ => trivial⟩

/-- A single save sends no login and asks for no password. -/
theorem only_saveConfig (path : Str) (config : AppConfig) (mode : Mode) :
    Only Quiet (saveConfig path config mode) := ⟨trivial, fun _ => trivial⟩

/-- A prompt prints its message and reads a line. -/
theorem only_prompt {message : Str} (hmessage : a message) :
    Only (steps g a h s) (prompt message) := by
  refine ⟨hmessage, fun r => ?_⟩
  cases r with
  | ok _ => trivial
  | error e => trivial

/-- A question with a default is one prompt, with the default in its text. -/
theorem only_yesNo {question : Str} {default : Bool} (ha : a (yesNoPrompt question default))
    (lines : Lines) : Only (steps g a h s) (yesNo question default lines) := by
  induction lines with
  | nil => exact (only_prompt ha).bind fun _ => trivial
  | cons line lines ih =>
      unfold yesNo
      refine (only_prompt ha).bind fun _ => ?_
      cases line with
      | error e => trivial
      | ok line =>
          dsimp only
          split
          · trivial
          split
          · trivial
          split
          · trivial
          · exact ih

/-- The unit is tried, and where it refuses the person is asked once. -/
theorem only_check (ha : a (yesNoPrompt saveAnyway false)) (unit : UnitConfig) (token : Token)
    (lines : Lines) : Only (steps g a h s) (check unit token lines) := by
  unfold check
  split
  · trivial
  · trivial
  · refine (only_refresh _).bind fun r => ?_
    split
    · trivial
    · exact only_yesNo ha lines

/-- Saving, with the copy that is made before, has no login and no password. -/
theorem only_save (path : Str) (config : AppConfig) (got : List (Nat × Token)) :
    Only Quiet (save path config got) := by
  refine (only_saveConfig _ _ _).bind fun r => ?_
  split
  · trivial
  · refine (only_saveConfig _ _ _).bind fun r => ?_
    split <;> trivial

/-- Going through the wanted units asks the cloud about each: there is no login in it, no password
and no save. -/
theorem only_fetchUnits (session : Session) (config : AppConfig)
    (listed : Option (List Appliance)) (got : List (Nat × Token)) (missing : Nat) (lines : Lines)
    (wanted : List Nat) :
    Only Still (fetchUnits C session config listed got missing lines wanted) := by
  induction wanted generalizing got missing lines with
  | nil => trivial
  | cons index wanted ih =>
      unfold fetchUnits
      split
      · trivial
      split
      · exact ih _ _ _
      split
      · exact ih _ _ _
      refine (only_ofCloud (only_token _ session)).bind fun token => ?_
      split
      · exact ih _ _ _
      · refine (only_check trivial _ _ _).bind fun kept => ?_
        dsimp only
        split
        · exact ih _ _ _
        · exact ih _ _ _

/-- What follows it saves at most. -/
theorem only_fetchAll (session : Session) (path : Str) (config : AppConfig) (wanted : List Nat)
    (lines : Lines) : Only Quiet (fetchAll C session path config wanted lines) := by
  refine (only_ofCloud (only_appliances session)).bind fun listing => ?_
  refine ((only_fetchUnits ..).weaken quiet_of_still).bind fun found => ?_
  dsimp only
  split
  · trivial
  · exact (only_save ..).bind fun _ => trivial

/-- The units are probed one by one on the local network. -/
theorem only_probeUnits (config : AppConfig) (indices : List Nat) :
    Only (steps g a h s) (probeUnits config indices) := by
  induction indices with
  | nil => trivial
  | cons index indices ih =>
      unfold probeUnits
      split
      · trivial
      · refine Only.bind ((only_scanSubnet _).bind fun found => ?_) fun found =>
          ih.bind fun _ => trivial
        split <;> trivial

/-- Reading the configuration is the first step of a run. -/
theorem only_load (fromJson : Str → Except Str AppConfig) (path : Str) :
    Only (steps g a h s) (load fromJson path) :=
  (only_readToString path).bind fun _ => trivial

/-! ## The terminal -/

variable {options : Options} {lines : Lines} {past now : List Step}
  {guard : List Step → (κ : Kind) → Question κ → Prop}

/-- A prompt that was shown. -/
def prompted (message : Str) : Step := @Said.mk _ Question Answer .ask message (.ok ())

/-- Whether the next line was read in a step: each prompt reads one, and so does the password
where it comes from standard input. -/
def readsLine (options : Options) : Step → Bool
  | @Said.mk _ _ _ .ask _ (.ok ()) => true
  | @Said.mk _ _ _ .password _ _ => options.passwordStdin
  | _ => false

/-- How many lines of the terminal the run has read, told from its prompts. -/
def linesRead (options : Options) (log : List Step) : Nat := log.countP (readsLine options)

/-- What was typed at the prompt that came right after this talk. -/
def typedAt (options : Options) (lines : Lines) (log : List Step) : Option (Except Str Str) :=
  lines[linesRead options log]?

/-- These are the lines that have not been read yet. -/
def Unused (options : Options) (lines : Lines) (now : List Step) (rest : Lines) : Prop :=
  rest = lines.drop (linesRead options now)

/-- Lines read in one stretch and in the next add up. -/
theorem linesRead_append (log log' : List Step) :
    linesRead options (log ++ log') = linesRead options log + linesRead options log' :=
  List.countP_append

/-- A prompt reads one line. -/
theorem linesRead_prompted (log : List Step) (message : Str) :
    linesRead options (log ++ [prompted message]) = linesRead options log + 1 :=
  linesRead_append log _

/-- Steps that read no line count for none. -/
theorem linesRead_unread {mid : List Step} (h : ∀ e ∈ mid, Unread e.kind e.question) :
    linesRead options mid = 0 := by
  refine List.countP_eq_zero.mpr fun e he => ?_
  have hunread := h e he
  match e, hunread with
  | @Said.mk _ _ _ (.cloud _) _ _, _ | @Said.mk _ _ _ .read _ _, _ | @Said.mk _ _ _ .scan _ _, _
  | @Said.mk _ _ _ .refresh _ _, _ | @Said.mk _ _ _ .save _ _, _ => exact Bool.false_ne_true

/-- At the start of a run no line is used. -/
theorem unused_start (options : Options) (lines : Lines) : Unused options lines [] lines := rfl

/-- Where nobody is asked, no line is read. -/
theorem Unused.unread {rest : Lines} {mid : List Step} (h : Unused options lines past rest)
    (hmid : ∀ e ∈ mid, Unread e.kind e.question) : Unused options lines (past ++ mid) rest := by
  unfold Unused at h ⊢
  rw [linesRead_append, linesRead_unread hmid, Nat.add_zero]
  exact h

/-- A prompt takes the first of the lines. -/
theorem Unused.typed {line : Except Str Str} {rest : Lines}
    (h : Unused options lines past (line :: rest)) :
    typedAt options lines past = some line ∧
      ∀ message, Unused options lines (past ++ [prompted message]) rest := by
  have htyped : (lines.drop (linesRead options past))[0]? = some line := by
    rw [← show line :: rest = _ from h]
    rfl
  refine ⟨?_, fun message => ?_⟩
  · rwa [List.getElem?_drop, Nat.add_zero] at htyped
  · unfold Unused at h ⊢
    rw [linesRead_prompted, ← List.drop_drop, ← h]
    rfl

/-- At the end of the lines there are none after another prompt. -/
theorem Unused.ended (h : Unused options lines past []) (message : Str) :
    Unused options lines (past ++ [prompted message]) [] := by
  unfold Unused at h ⊢
  rw [linesRead_prompted, ← List.drop_drop, ← h]
  rfl

/-- A prompt leaves the log longer by itself and changes nothing else. -/
theorem keeps_prompt (hG : ∀ now message, guard now .ask message) (message : Str) :
    Talk.Keeps guard past (prompt message) (fun now _ => now = past ++ [prompted message])
      fun _ _ => True := by
  refine ⟨hG _ _, fun r => ?_⟩
  cases r with
  | ok _ => rfl
  | error e => trivial

/-- Asking which app is one's own uses up the lines it reads, and no others. By induction on the
lines, since a line that names no app is asked again. -/
theorem keeps_askApp (hG : ∀ now message, guard now .ask message) {rest : Lines}
    (hrest : Unused options lines past rest) :
    Talk.Keeps guard past (askApp rest) (fun now r => Unused options lines now r.2)
      fun _ _ => True := by
  induction rest generalizing past with
  | nil => exact (keeps_prompt hG _).seq fun _ _ _ => trivial
  | cons line rest ih =>
      obtain ⟨-, hnext⟩ := hrest.typed
      unfold askApp
      refine (keeps_prompt hG _).seq fun now _ hnow => ?_
      subst hnow
      cases line with
      | error e => trivial
      | ok line =>
          dsimp only
          split
          · exact hnext _
          split
          · exact hnext _
          split
          · exact hnext _
          split
          · exact hnext _
          · exact ih (hnext _)

/-- The account was typed where it was asked for. -/
def AccountTyped (options : Options) (lines : Lines) (now : List Step) (account : Str) : Prop :=
  ∃ before line, before ++ [prompted accountPrompt] <+: now ∧
    typedAt options lines before = some (.ok line) ∧ account = trim line ∧ account ≠ []

/-- An account that was typed stays typed as the run goes on. -/
theorem AccountTyped.later {account : Str} (h : AccountTyped options lines past account)
    (hnow : past <+: now) : AccountTyped options lines now account := by
  obtain ⟨before, line, hbefore, hline⟩ := h
  exact ⟨before, line, hbefore.trans hnow, hline⟩

/-- The account that is read here was typed at this prompt. -/
theorem keeps_askAccount (hG : ∀ now message, guard now .ask message) {rest : Lines}
    (hrest : Unused options lines past rest) :
    Talk.Keeps guard past (askAccount rest)
      (fun now r => Unused options lines now r.2 ∧ AccountTyped options lines now r.1)
      fun _ _ => True := by
  induction rest generalizing past with
  | nil => exact (keeps_prompt hG _).seq fun _ _ _ => trivial
  | cons line rest ih =>
      obtain ⟨htyped, hnext⟩ := hrest.typed
      unfold askAccount
      refine (keeps_prompt hG _).seq fun now _ hnow => ?_
      subst hnow
      cases line with
      | error e => trivial
      | ok line =>
          dsimp only
          split
          · exact ih (hnext _)
          next hne => exact ⟨hnext _, past, line, List.prefix_rfl, htyped, rfl, hne⟩

/-- At one question, asked again until the answer was one: yes was typed. -/
inductive SaysYes (options : Options) (lines : Lines) (message : Str) :
    List Step → List Step → Prop
  | yes {past : List Step} {line : Str} (htyped : typedAt options lines past = some (.ok line))
      (hyes : saysYes line = true) : SaysYes options lines message past (past ++ [prompted message])
  | again {past now : List Step} {line : Str}
      (htyped : typedAt options lines past = some (.ok line)) (hne : trim line ≠ [])
      (hno : saysNo line = false)
      (h : SaysYes options lines message (past ++ [prompted message]) now) :
      SaysYes options lines message past now

/-- A yes that is not the default was typed at the question. An empty line takes the default, a
line that is neither yes nor no asks again, and the induction is on the lines that are left. -/
theorem keeps_yesNo (hG : ∀ now message, guard now .ask message) (question : Str) (default : Bool)
    {rest : Lines} (hrest : Unused options lines past rest) :
    Talk.Keeps guard past (yesNo question default rest)
      (fun now r => Unused options lines now r.2 ∧ (default = false → r.1 = true →
        SaysYes options lines (yesNoPrompt question default) past now))
      fun _ _ => True := by
  induction rest generalizing past with
  | nil =>
      refine (keeps_prompt hG _).seq fun now _ hnow => ?_
      subst hnow
      exact ⟨hrest.ended _, fun hdefault hyes => absurd (hdefault.symm.trans hyes) (by decide)⟩
  | cons line rest ih =>
      obtain ⟨htyped, hnext⟩ := hrest.typed
      unfold yesNo
      refine (keeps_prompt hG _).seq fun now _ hnow => ?_
      subst hnow
      cases line with
      | error e => trivial
      | ok line =>
          dsimp only
          split
          · exact ⟨hnext _, fun hdefault hyes => absurd (hdefault.symm.trans hyes) (by decide)⟩
          next hne =>
            split
            next hyes => exact ⟨hnext _, fun _ _ => .yes htyped hyes⟩
            split
            · exact ⟨hnext _, fun _ hyes => absurd hyes Bool.false_ne_true⟩
            next hno =>
              refine (ih (hnext _)).weaken ?_ fun _ _ h => h
              intro later r hr
              exact ⟨hr.1, fun hdefault hyes =>
                .again htyped hne (Bool.not_eq_true _ ▸ hno) (hr.2 hdefault hyes)⟩

/-- With the app named in the options nothing is read. -/
theorem keeps_chooseApp (hG : ∀ now message, guard now .ask message) {rest : Lines}
    (hrest : Unused options lines past rest) :
    Talk.Keeps guard past (chooseApp options rest) (fun now r => Unused options lines now r.2)
      fun _ _ => True := by
  unfold chooseApp
  split
  · exact keeps_bind.mpr (keeps_ofExcept (fun _ _ => hrest) fun _ _ => trivial)
  · exact keeps_askApp hG hrest

/-- The account of a run: the one that was given, or the one that was typed for it. -/
def AccountOf (options : Options) (lines : Lines) (now : List Step) (account : Str) : Prop :=
  (∃ given, options.account = some given ∧ account = trim given) ∨
    options.account = none ∧ AccountTyped options lines now account

/-- Where the account comes from does not change as the run goes on. -/
theorem AccountOf.later {account : Str} (h : AccountOf options lines past account)
    (hnow : past <+: now) : AccountOf options lines now account :=
  h.imp_right (And.imp_right (·.later hnow))

/-- The account of the run is the one of the options, or the one that is typed. -/
theorem keeps_chooseAccount (hG : ∀ now message, guard now .ask message) {rest : Lines}
    (hrest : Unused options lines past rest) :
    Talk.Keeps guard past (chooseAccount options rest)
      (fun now r => Unused options lines now r.2 ∧ AccountOf options lines now r.1)
      fun _ _ => True := by
  unfold chooseAccount
  split
  next given hgiven => exact ⟨hrest, .inl ⟨given, hgiven, rfl⟩⟩
  next hnone =>
    exact (keeps_askAccount hG hrest).weaken (fun _ _ h => ⟨h.1, .inr ⟨hnone, h.2⟩⟩) fun _ _ h => h

/-! ## The password -/

/-- What may be asked for an account: a login goes to a server of a cloud that has it, and so
does a password. -/
def MayAsk (C : Crates) (account : Str) (now : List Step) : (κ : Kind) → Question κ → Prop :=
  steps
    (fun q => IsLogin q → ∃ cloud base, Confirmed C cloud account (cloudTalk now) ∧
      ServedBy C cloud (cloudTalk now) base ∧ q.url = base ++ cloud.loginEndpoint.toList)
    (fun _ => True)
    (fun (account', cloud) => account' = account ∧ Confirmed C cloud account (cloudTalk now))
    fun _ => True

variable {account : Str}

/-- A step that is neither the password prompt nor a login is allowed at any point. -/
theorem mayAsk_of_quiet (now : List Step) (κ : Kind) (q : Question κ) (h : Quiet κ q) :
    MayAsk C account now κ q :=
  steps_mono (fun _ hno hlogin => absurd hlogin hno) (fun _ h => h) (fun _ hfalse => hfalse.elim)
    (fun _ h => h) κ q h

/-! ### Which cloud has the account -/

/-- What is known of the clouds was said by them. -/
def KnownFrom (C : Crates) (account : Str) (now : List Step) (known : List (Cloud × Option Bool)) :
    Prop :=
  ∀ cloud, knows known cloud = true → Confirmed C cloud account (cloudTalk now)

/-- What is known of a cloud is the answer it gave, or what was known before. -/
theorem knows_cons {c cloud : Cloud} {answer : Option Bool} {known : List (Cloud × Option Bool)} :
    knows ((c, answer) :: known) cloud = true ↔
      (c = cloud ∧ answer = some true) ∨ knows known cloud = true := by
  simp [knows]

/-- A confirmation in the clouds' part of the log stays there. -/
theorem confirmed_append {cloud : Cloud} (h : Confirmed C cloud account (cloudTalk past))
    (mid : List Step) : Confirmed C cloud account (cloudTalk (past ++ mid)) := by
  rw [cloudTalk, clouds.part_append]
  exact h.append _

/-- Asking the clouds about the account takes no password, and a yes is theirs. A cloud that fails
is asked no more and counts as unknown; the others keep what was found before. -/
theorem keeps_askClouds (order : List Cloud) :
    Talk.Keeps (MayAsk C account) past (askClouds C account order) (KnownFrom C account)
      fun _ _ => True := by
  induction order generalizing past with
  | nil => exact fun cloud h => by cases h
  | cons cloud order ih =>
      refine keeps_bind.mpr (keeps_attempt.mpr ((keeps_within clouds
        ((only_accountKnown account cloud).keeps
          (G := fun _ κ q => posts NoLogin κ q) fun _ _ _ hq => hq).talk
        fun now κ q hq => mayAsk_of_quiet now _ _ (steps_cloud κ q hq)).weaken ?_ ?_))
      · rintro now known ⟨-, asked, hnow, hasked⟩
        refine keeps_bind.mpr (ih.talk.weaken ?_ fun _ _ _ => trivial)
        rintro later rest ⟨hrest, mid, rfl, -⟩ cloud' hknows
        rcases knows_cons.mp hknows with ⟨rfl, hyes⟩ | hknows
        · obtain rfl : known = true := Option.some.inj hyes
          exact confirmed_append ⟨_, asked, [], by rw [List.append_nil]; exact hnow, hasked⟩ mid
        · exact hrest cloud' hknows
      · rintro now e -
        refine keeps_bind.mpr (ih.weaken ?_ fun _ _ _ => trivial)
        rintro later rest hrest cloud' hknows
        rcases knows_cons.mp hknows with ⟨-, hyes⟩ | hknows
        · cases hyes
        · exact hrest cloud' hknows

/-- Only a cloud that has the account is signed in to. Every branch of the choice takes a cloud
that `knows` was true of, whether it was chosen, found first or said yes to. -/
theorem keeps_decide (hG : ∀ now message, guard now .ask message) {choice : Choice}
    {known : List (Cloud × Option Bool)} {rest : Lines} (hrest : Unused options lines past rest) :
    Talk.Keeps guard past (decide choice known rest)
      (fun now r => Unused options lines now r.2 ∧
        ∀ cloud, r.1 = some cloud → knows known cloud = true) fun _ _ => True := by
  have hissuing : ∀ c, [Cloud.smartHome, .meiju].find? (knows known) = some c →
      knows known c = true := fun c hc => List.find?_some hc
  have hnetHome : ∀ c, (if knows known .netHomePlus then some Cloud.netHomePlus else none) =
      some c → knows known c = true := by
    intro c hc
    split at hc
    case isTrue hknows => cases hc; exact hknows
    case isFalse => cases hc
  have hor : ∀ c, ([Cloud.smartHome, .meiju].find? (knows known) <|>
      if knows known .netHomePlus then some Cloud.netHomePlus else none) = some c →
      knows known c = true := by
    intro c hc
    cases hfind : [Cloud.smartHome, .meiju].find? (knows known) with
    | some other => rw [hfind] at hc; cases hc; exact hissuing _ hfind
    | none => rw [hfind] at hc; exact hnetHome c hc
  unfold decide
  dsimp only
  split
  case h_1 =>
      split
      case h_1 other hother =>
          refine (keeps_yesNo hG _ _ hrest).seq fun now r hr => ⟨hr.1, fun cloud hcloud => ?_⟩
          obtain ⟨yes, rest'⟩ := r
          cases yes with
          | true => cases hcloud; exact hissuing _ hother
          | false => exact hnetHome _ hcloud
      case h_2 => exact ⟨hrest, hnetHome⟩
  case h_2 chosen _ =>
      refine ⟨hrest, fun cloud hcloud => ?_⟩
      dsimp only at hcloud
      split at hcloud
      case isTrue hknows => cases hcloud; exact hknows
      case isFalse => exact hor _ hcloud
  case h_3 => exact ⟨hrest, hor⟩

/-- Which cloud has the account is asked of the clouds. -/
theorem only_askClouds_unread (order : List Cloud) : Only Unread (askClouds C account order) := by
  induction order with
  | nil => trivial
  | cons cloud order ih =>
      exact (only_ofCloud (only_free posts_true _)).bind fun answer => ih.bind fun rest => trivial

/-! ### Signing in -/

/-- A sign-in with a cloud that has confirmed the account asks for the password for that cloud
only, at every try. By induction on the tries that are left. -/
theorem keeps_signIn {cloud : Cloud} (tries : Nat) (terminal : Terminal)
    (hconfirmed : Confirmed C cloud account (cloudTalk past)) :
    Talk.Keeps (MayAsk C account) past (signIn C cloud account options tries terminal)
      (fun _ _ => True) fun _ _ => True := by
  induction tries generalizing past terminal with
  | zero => trivial
  | succ tries ih =>
      have hprompt : Talk.Keeps (MayAsk C account) past (askPassword account cloud)
          (fun now _ => Confirmed C cloud account (cloudTalk now)) fun _ _ => True :=
        ⟨⟨rfl, hconfirmed⟩, fun _ => confirmed_append hconfirmed _⟩
      refine hprompt.seq fun now _ hconfirmed => ?_
      refine keeps_bind.mpr (keeps_ofExcept (fun typed _ => ?_) fun _ _ => trivial)
      refine keeps_bind.mpr (keeps_attempt.mpr ((keeps_within clouds (keeps_login cloud)
        fun later κ q hq => ?_).talk.weaken ?_ ?_))
      · cases κ with
        | time => trivial
        | entropy => trivial
        | post =>
            intro hlogin
            obtain ⟨base, mid, hlater, hserved, hurl, -⟩ := hq hlogin
            have hconfirmed : Confirmed C cloud account (cloudTalk later) := by
              rw [cloudTalk, hlater]
              exact hconfirmed.append mid
            refine ⟨cloud, base, hconfirmed, ?_, hurl⟩
            rw [cloudTalk, hlater]
            exact hserved.append_left _
      · exact fun _ _ _ => trivial
      · rintro later e ⟨-, mid, rfl, -⟩
        split
        case h_1 heq => cases heq
        case h_2 =>
            split
            · exact ih _ (confirmed_append hconfirmed mid)
            · trivial
        case h_3 => trivial

variable {path : Str} {config : AppConfig} {wanted : List Nat}

/-- The fetching from the cloud with its own protocol keeps to what the account was confirmed
for. -/
theorem keeps_nethome (terminal : Terminal)
    (hconfirmed : Confirmed C .netHomePlus account (cloudTalk past)) :
    Talk.Keeps (MayAsk C account) past (nethome C account options path config wanted terminal)
      (fun _ _ => True) fun _ _ => True := by
  refine (keeps_signIn (tries options) terminal hconfirmed).seq fun now found _ => ?_
  refine Only.keeps (H := Quiet) ?_ mayAsk_of_quiet
  dsimp only
  split
  · trivial
  split
  · trivial
  split
  · trivial
  refine (only_ofCloud (only_token _ _)).bind fun token => ?_
  split
  · exact only_fetchAll ..
  · trivial

/-- A run asks for a password, and logs in, only where the account is known. -/
def Confined (C : Crates) (options : Options) (terminal : Terminal) (now : List Step) (κ : Kind)
    (q : Question κ) : Prop :=
  Quiet κ q ∨ ∃ account, AccountOf options terminal.lines now account ∧ MayAsk C account now κ q

/-- What is done with either session once it is there keeps to it as well. -/
theorem keeps_fetchSignedIn {cloud : Cloud} {account : Str} (terminal : Terminal)
    (hconfirmed : Confirmed C cloud account (cloudTalk past)) :
    Talk.Keeps (MayAsk C account) past
      (fetchSignedIn C cloud account options path config wanted terminal)
      (fun _ _ => True) fun _ _ => True := by
  refine (keeps_signIn (tries options) terminal hconfirmed).seq fun later found _ => ?_
  refine Only.keeps (H := Quiet) ?_ mayAsk_of_quiet
  dsimp only
  split
  · trivial
  · exact only_fetchAll ..

/-- From the choice of the account on, every step is confined: no password is asked for before a
cloud has confirmed the account that was chosen. -/
theorem keeps_fetchFor (terminal : Terminal)
    (hpast : Unused options terminal.lines past terminal.lines) :
    Talk.Keeps (Confined C options terminal) past (fetchFor C options path config wanted terminal)
      (fun _ _ => True) fun _ _ => True := by
  have hask : ∀ now message, Confined C options terminal now .ask message :=
    fun _ _ => .inl trivial
  refine (keeps_chooseApp hask hpast).seq fun now chosen hchosen => ?_
  refine (keeps_chooseAccount hask hchosen).seq fun now' given hgiven => ?_
  obtain ⟨account, rest⟩ := given
  refine Talk.Keeps.guard (G := fun now κ q => now' <+: now ∧ MayAsk C account now κ q)
    (Talk.Keeps.since ?_) fun later κ q hq => .inr ⟨account, hgiven.2.later hq.1, hq.2⟩
  refine keeps_bind.mpr ((keeps_askClouds _).talk.weaken ?_ fun _ _ _ => trivial)
  rintro now'' known ⟨hknown, mid, rfl, hmid⟩
  have hunread := (only_askClouds_unread _).said hmid
  refine keeps_bind.mpr ((keeps_decide (fun _ _ => trivial)
    (hgiven.1.unread hunread)).talk.weaken ?_ fun _ _ _ => trivial)
  rintro later ⟨cloud, lines⟩ ⟨⟨-, hknows⟩, mid', rfl, -⟩
  cases cloud with
  | none => trivial
  | some cloud =>
      have hconfirmed := confirmed_append (hknown cloud (hknows cloud rfl)) mid'
      cases cloud with
      | netHomePlus => exact keeps_nethome _ hconfirmed
      | smartHome => exact keeps_fetchSignedIn _ hconfirmed
      | meiju => exact keeps_fetchSignedIn _ hconfirmed

/-- A password is asked for, and a login sent, only for the account that was given to the run or
typed where it asked for one, and only for a cloud that said in the run that it has the account. -/
theorem password_asked (C : Crates) (fromJson : Str → Except Str AppConfig) (defaultPath : Str)
    (options : Options) (terminal : Terminal) (log : List Step) (κ : Kind) (q : Question κ)
    (go : Answer κ → Command Nat)
    (h : After (run C fromJson defaultPath options terminal) log (.ask q go)) :
    Confined C options terminal log κ q := by
  refine Talk.Keeps.asked (P := fun _ _ => True) (E := fun _ _ => True) ?_ h
  have hread : ∀ now κ (q : Question κ), Local κ q → Confined C options terminal now κ q :=
    fun now κ q hq => .inl (steps_of_local κ q hq)
  refine (only_load fromJson _).seq hread (fun mid loaded hmid _ => ?_) fun _ _ _ _ => trivial
  split
  · trivial
  · trivial
  · trivial
  · refine keeps_bind.mpr (keeps_ofExcept (fun targets _ => ?_) fun _ _ => trivial)
    split
    · trivial
    · refine (only_probeUnits _ _).seq hread (fun mid' wanted hmid' _ => ?_)
        fun _ _ _ _ => trivial
      split
      · trivial
      · refine keeps_fetchFor terminal (((unused_start options terminal.lines).unread ?_).unread ?_)
        · exact fun e he => steps_of_local _ _ (hmid e he)
        · exact fun e he => steps_of_local _ _ (hmid' e he)

/-! ## What the password changes -/

/-- The same question, or two logins at the same place. -/
def SameStep : (κ : Kind) → Question κ → Question κ → Prop
  | .cloud κ, q, q' => SameButLogin κ q q'
  | .read, q, q' | .scan, q, q' | .refresh, q, q' | .ask, q, q' | .password, q, q' | .save, q, q' =>
      q = q'

/-- A step is the same as itself, whatever password it is about. -/
theorem sameStep_refl (κ : Kind) (q : Question κ) : SameStep κ q q := by
  cases κ with
  | cloud κ => exact sameButLogin_refl κ q
  | read | scan | refresh | ask | password | save => rfl

variable {cloud : Cloud}

/-- A command that reads no password does the same in both runs. -/
theorem alike_command (p : Command α) : Alike SameStep (· = ·) p p :=
  alike_refl sameStep_refl (fun _ => rfl) p

/-- What came of two prompts, but for what was typed. -/
def SameFate (typed typed' : Except Str Str) : Prop :=
  (∃ t t', typed = .ok t ∧ typed' = .ok t') ∨ ∃ e, typed = .error e ∧ typed' = .error e

/-- The same lines, and passwords typed at the same prompts. -/
def SameTerminal (t t' : Terminal) : Prop :=
  t.lines = t'.lines ∧ List.Forall₂ SameFate t.passwords t'.passwords

/-- The same password prompt gets another password. -/
theorem password_alike (hstdin : options.passwordStdin = false) {terminal terminal' : Terminal}
    (h : SameTerminal terminal terminal') :
    (∃ t t' next next', password options terminal = .ok (t, next) ∧
        password options terminal' = .ok (t', next') ∧ SameTerminal next next') ∨
      ∃ e, password options terminal = .error e ∧ password options terminal' = .error e := by
  obtain ⟨lines, passwords⟩ := terminal
  obtain ⟨lines', passwords'⟩ := terminal'
  obtain ⟨hlines, hpasswords⟩ := h
  obtain rfl : lines = lines' := hlines
  have hpasswords : List.Forall₂ SameFate passwords passwords' := hpasswords
  unfold password
  rw [if_neg (by rw [hstdin]; decide), if_neg (by rw [hstdin]; decide)]
  cases hpasswords with
  | nil => exact .inr ⟨_, rfl, rfl⟩
  | cons hfate hrest =>
      rcases hfate with ⟨t, t', rfl, rfl⟩ | ⟨e, rfl, rfl⟩
      · exact .inl ⟨t, t', _, _, rfl, rfl, rfl, hrest⟩
      · exact .inr ⟨_, rfl, rfl⟩

/-- Two sign-ins with other passwords go through the same steps but for the logins, and give
sessions that are the same and leave the same lines unread. By induction on the tries. -/
theorem alike_signIn (hstdin : options.passwordStdin = false) (tries : Nat)
    {terminal terminal' : Terminal} (h : SameTerminal terminal terminal') :
    Alike SameStep (fun found found' => found.1 = found'.1 ∧ SameTerminal found.2 found'.2)
      (signIn C cloud account options tries terminal)
      (signIn C cloud account options tries terminal') := by
  induction tries generalizing terminal terminal' with
  | zero => exact .done ⟨rfl, h⟩
  | succ tries ih =>
      refine (alike_command (askPassword account cloud)).bind fun _ _ _ => ?_
      rcases password_alike hstdin h with ⟨t, t', next, next', ht, ht', hnext⟩ | ⟨e, he, he'⟩
      · rw [ht, ht']
        have hlogin := (alike_login (C := C) account t t' [] [] cloud).within clouds
          (V := SameStep) fun _ _ _ hq => hq
        refine (hlogin.attempt (T := (· = ·)) (fun _ _ heq => congrArg Except.ok heq)
          fun _ => rfl).bind fun r r' heq => ?_
        subst heq
        split
        · exact .done ⟨rfl, hnext⟩
        · split
          · exact ih hnext
          · exact .done ⟨rfl, hnext⟩
        · exact .done ⟨rfl, hnext⟩
      · rw [he, he']
        exact .failed e

/-- From the signing in on, two runs with the same answers save the same. -/
theorem alike_fetchSignedIn (hstdin : options.passwordStdin = false) {wanted : List Nat}
    (cloud : Cloud) (account : Str) {terminal terminal' : Terminal}
    (h : SameTerminal terminal terminal') :
    Alike SameStep (· = ·)
      (fetchSignedIn C cloud account options path config wanted terminal)
      (fetchSignedIn C cloud account options path config wanted terminal') := by
  refine (alike_signIn hstdin (tries options) h).bind ?_
  rintro ⟨session, rest⟩ ⟨session', rest'⟩ ⟨hsession, hrest, -⟩
  obtain rfl : session = session' := hsession
  dsimp only
  rw [← hrest]
  exact alike_command _

/-- From the choice of the account on the two runs go side by side. Every step before the signing
in is the same command in both, and after it the two sessions are equal. -/
theorem alike_fetchFor (hstdin : options.passwordStdin = false) {wanted : List Nat}
    {terminal terminal' : Terminal} (h : SameTerminal terminal terminal') :
    Alike SameStep (· = ·) (fetchFor C options path config wanted terminal)
      (fetchFor C options path config wanted terminal') := by
  obtain ⟨hlines, hpasswords⟩ := h
  unfold fetchFor
  rw [← hlines]
  refine (alike_command _).bind fun chosen _ heq => heq ▸ ?_
  refine (alike_command _).bind fun given _ heq => heq ▸ ?_
  refine (alike_command _).bind fun known _ heq => heq ▸ ?_
  refine (alike_command _).bind fun decided _ heq => heq ▸ ?_
  have hnext : SameTerminal { terminal with lines := decided.2 }
      { terminal' with lines := decided.2 } := ⟨rfl, hpasswords⟩
  obtain ⟨cloud, lines⟩ := decided
  cases cloud with
  | none => exact alike_command _
  | some cloud =>
      cases cloud with
      | netHomePlus =>
          refine (alike_signIn hstdin (tries options) hnext).bind ?_
          rintro ⟨session, rest⟩ ⟨session', rest'⟩ ⟨hsession, hrest, -⟩
          obtain rfl : session = session' := hsession
          dsimp only
          rw [← hrest]
          exact alike_command _
      | smartHome => exact alike_fetchSignedIn hstdin _ _ hnext
      | meiju => exact alike_fetchSignedIn hstdin _ _ hnext

/-- The password is in the logins and nowhere else: with other passwords typed, and the same
answers, the run asks and saves the same, and ends the same way. -/
theorem password_not_kept (C : Crates) (fromJson : Str → Except Str AppConfig) (defaultPath : Str)
    (options : Options) (hstdin : options.passwordStdin = false) (terminal terminal' : Terminal)
    (hterminal : SameTerminal terminal terminal') (log : List Step) (p : Command Nat)
    (h : After (run C fromJson defaultPath options terminal) log p) :
    ∃ log' p', After (run C fromJson defaultPath options terminal') log' p' ∧
      List.Forall₂ (SaidAlike SameStep) log log' ∧
      (∀ code, p = done code → p' = done code) ∧ ∀ e, p = failed e → p' = failed e := by
  have halike : Alike SameStep (· = ·) (run C fromJson defaultPath options terminal)
      (run C fromJson defaultPath options terminal') := by
    refine (alike_command (load fromJson _)).bind fun loaded _ heq => heq ▸ ?_
    split
    · exact alike_command _
    · exact alike_command _
    · exact alike_command _
    · refine (alike_command _).bind fun targets _ heq => heq ▸ ?_
      split
      · exact alike_command _
      · refine (alike_command _).bind fun wanted _ heq => heq ▸ ?_
        split
        · exact alike_command _
        · exact alike_fetchFor hstdin hterminal
  obtain ⟨log', p', hlog', hlogs, hend⟩ := halike.after h
  refine ⟨log', p', hlog', hlogs, ?_, ?_⟩
  · rintro code rfl
    cases hend with
    | done heq => rw [heq]
  · rintro e rfl
    cases hend with
    | failed e => rfl


/-! ## A run to the end -/

/-- One unit, without a token. -/
def oneUnit : AppConfig where
  units := [{ name := "Bedroom".toList, ip := "10.0.0.5".toList, id := 1 }]

/-- A file, a V3 unit that takes its token, and the clouds of the generous world. -/
def obliging : (κ : Kind) → Question κ → Answer κ
  | .cloud κ, q => generous κ q
  | .read, _ => .ok "\x7b\x7d".toList
  | .scan, _ => .ok [(1, .v3)]
  | .refresh, _ => .ok ()
  | .ask, _ => .ok ()
  | .password, _ => ()
  | .save, _ => .ok ()

/-- Everything but the password is named in the options. -/
def atHome : Options where
  units := []
  config := some "config.json".toList
  cloud := some "smarthome".toList
  account := some "me".toList
  passwordStdin := false

/-- The talk of that run, after so many questions. -/
def fetchRun (n : Nat) : List Step × Command Nat :=
  talkWith obliging n (run plainCrates (fun _ => .ok oneUnit) [] atHome ⟨[], [.ok "pw".toList]⟩)

/-- The password prompt a run has come to. -/
def nextPassword : Command Nat → Option (Str × Cloud)
  | @Talk.ask _ _ _ _ _ .password q _ => some q
  | _ => none

/-- That it has come to one, in the words of the model. -/
theorem nextPassword_eq_some {p : Command Nat} {q : Str × Cloud} (h : nextPassword p = some q) :
    ∃ go : Unit → Command Nat, p = .ask (κ := .password) q go := by
  match p, h with
  | @Talk.ask _ _ _ _ _ .password q' go, h => exact ⟨go, by rw [Option.some.inj h]⟩

/-- The password of that run is asked for. -/
theorem password_asked_atHome : Confined plainCrates atHome ⟨[], [.ok "pw".toList]⟩
    (fetchRun 17).1 .password ("me".toList, .smartHome) := by
  have hnext : nextPassword (fetchRun 17).2 = some ("me".toList, .smartHome) := by decide +kernel
  obtain ⟨go, hask⟩ := nextPassword_eq_some hnext
  exact password_asked plainCrates (fun _ => .ok oneUnit) [] atHome ⟨[], [.ok "pw".toList]⟩
    (fetchRun 17).1 .password _ go (hask ▸ after_talkWith obliging 17 _)

/-- The password of the run at home is not in what it saves. -/
theorem password_not_kept_atHome : ∃ log' p',
    After (run plainCrates (fun _ => .ok oneUnit) [] atHome ⟨[], [.ok "other".toList]⟩) log' p' ∧
      List.Forall₂ (SaidAlike SameStep) (fetchRun 50).1 log' ∧
      (∀ code, (fetchRun 50).2 = done code → p' = done code) ∧
      ∀ e, (fetchRun 50).2 = failed e → p' = failed e :=
  password_not_kept plainCrates (fun _ => .ok oneUnit) [] atHome rfl ⟨[], [.ok "pw".toList]⟩
    ⟨[], [.ok "other".toList]⟩ ⟨rfl, .cons (.inl ⟨_, _, rfl, rfl⟩) .nil⟩ _ _
    (after_talkWith obliging 50 _)

end BreezeCli.Fetch
