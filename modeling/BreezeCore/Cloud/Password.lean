import BreezeCore.Cloud.Apps

/-!
# Where the password goes

Asking three clouds for a token, with clouds that answer what they like.

* `password_confined` — a login is asked only of a server of a cloud that said, earlier in
  the same talk and without being told the password, that it has the account; and only once;
* `password_unseen` — the password changes nothing else that is asked, and nothing about how
  the program ends but through the answers.
-/

namespace BreezeCloud

open Text Bytes JsonValue Talks Talk V5

/-! ## Talks with a server -/

/-- What may be asked, when only requests matter. -/
def posts (g : Request → Prop) : (κ : Kind) → Question κ → Prop
  | .post, q => g q
  | .time, _ | .entropy, _ => True

/-- A condition on the requests that are posted, by what was said before. -/
def atPost (g : List Exchange → Request → Prop) (now : List Exchange) :
    (κ : Kind) → Question κ → Prop :=
  posts (g now)

/-- A request and its answer. -/
def exchange (q : Request) (r : Response) : Exchange := @Said.mk Kind Question Answer .post q r

/-- No request in a talk but those `g` allows. -/
def Sends (g : Request → Prop) (log : List Exchange) : Prop :=
  ∀ e ∈ log, posts g e.kind e.question

variable {g g' : Request → Prop} {past log : List Exchange}

/-- What is allowed of every request of a talk may be weakened request by request; the other steps
of a talk are allowed either way. -/
theorem posts_mono (h : ∀ q, g q → g' q) (κ : Kind) (q : Question κ) (hq : posts g κ q) :
    posts g' κ q := by
  cases κ with
  | time => trivial
  | entropy => trivial
  | post => exact h q hq

/-- With no condition on the requests, every step is allowed. -/
theorem posts_true (κ : Kind) (q : Question κ) : posts (fun _ => True) κ q := by
  cases κ <;> trivial

/-- Nothing posted is always allowed. -/
theorem atPost_of_silent {gate : List Exchange → Request → Prop} (now : List Exchange) (κ : Kind)
    (q : Question κ) (h : posts (fun _ => False) κ q) : atPost gate now κ q :=
  posts_mono (fun _ hfalse => hfalse.elim) κ q h

/-- A condition that all the requests of a log meet may be weakened. -/
theorem Sends.mono (h : ∀ q, g q → g' q) (hlog : Sends g log) : Sends g' log :=
  fun e he => posts_mono h _ _ (hlog e he)

/-- Two stretches of a log meet a condition together when each does. -/
theorem Sends.append {log' : List Exchange} (h : Sends g log) (h' : Sends g log') :
    Sends g (log ++ log') := by
  intro e he
  rcases List.mem_append.mp he with he | he
  · exact h e he
  · exact h' e he

variable {C : Crates} {client : Client} {endpoint : String} {data : Fields}

/-- Reading the clock sends nothing, so it meets any condition on requests. -/
theorem only_secondsSinceEpoch : Only (posts g) secondsSinceEpoch := ⟨trivial, fun _ => trivial⟩

/-- The time as the clouds write it is made of the clock alone: nothing is sent. -/
theorem only_timestampNow : Only (posts g) timestampNow := by
  refine only_secondsSinceEpoch.bind fun now => ?_
  split <;> trivial

/-- Random digits are drawn, not asked of a cloud. -/
theorem only_randomHex (bytes : Nat) : Only (posts g) (randomHex bytes) :=
  ⟨trivial, fun _ => trivial⟩

/-- The fields every request has are made of the clock and of random digits. -/
theorem only_general : Only (posts g) client.general :=
  only_timestampNow.bind fun _ => (only_randomHex 16).bind fun _ => trivial

/-- A field that is put in where it is missing sends what making its value sends. -/
theorem only_orInsertWith {key : Str} {value : Conversation Str} (h : Only (posts g) value) :
    Only (posts g) (orInsertWith data key value) := by
  unfold orInsertWith
  split
  · trivial
  · exact h.bind fun _ => trivial

/-- Reading an answer sends nothing. -/
theorem only_unwrap (r : Response) : Only (posts g) (unwrap C r) :=
  (only_ofExcept _).bind fun _ => only_ofExcept _

/-- Reading the clock cannot fail. -/
theorem sure_secondsSinceEpoch : Sure secondsSinceEpoch := fun _ => trivial

/-- Writing the time down cannot fail. -/
theorem sure_timestampNow : Sure timestampNow := by
  refine sure_secondsSinceEpoch.bind fun now => ?_
  split <;> trivial

/-- Drawing random digits cannot fail. -/
theorem sure_randomHex (bytes : Nat) : Sure (randomHex bytes) := fun _ => trivial

/-- So the fields every request has are always made: a request of a client fails over its answer
only. -/
theorem sure_general : Sure client.general :=
  sure_timestampNow.bind fun _ => (sure_randomHex 16).bind fun _ => trivial

/-- A field is put in without an error when its value is made without one. -/
theorem sure_orInsertWith {key : Str} {value : Conversation Str} (h : Sure value) :
    Sure (orInsertWith data key value) := by
  unfold orInsertWith
  split
  · trivial
  · exact h.bind fun _ => trivial

/-- A client that is logged in is the client with the access token from the answer. -/
theorem only_loggedIn (answer : Json) : Only (posts g) (loggedIn client answer) := by
  unfold loggedIn
  dsimp only
  split <;> trivial

/-- A request of a client is one post, to the client's base and the endpoint; a condition that
holds of it with whatever headers and body holds of all that is sent. -/
theorem only_request (h : ∀ headers body, g ⟨client.base ++ endpoint.toList, headers, body⟩) :
    Only (posts g) (client.request C endpoint data) :=
  (only_orInsertWith (only_randomHex 16)).bind fun _ =>
    (only_orInsertWith only_timestampNow).bind fun _ =>
      only_secondsSinceEpoch.bind fun _ => ⟨h _ _, fun r => only_unwrap r⟩

/-- What was there before is still there. -/
def Extends (data data' : Fields) : Prop :=
  ∀ key value, Fields.get? data key = some value → Fields.get? data' key = some value

/-- Putting a field in where there was none keeps the others. -/
theorem Extends.insert {key : Str} {value : Json} (h : Fields.get? data key = none) :
    Extends data (Fields.insert data key value) := by
  intro k v hk
  have hne : key ≠ k := fun heq => by rw [heq, hk] at h; cases h
  rw [Fields.get?_insert, if_neg hne, hk]

/-- What is there already is kept when a missing field is put in. -/
theorem extends_orInsertWith {key : Str} {value : Conversation Str} {mid : List Exchange}
    {data' : Fields} (hvalue : Only (posts fun _ => False) value)
    (h : After (orInsertWith data key value) mid (done data')) : Extends data data' := by
  refine Keeps.ended (G := fun _ _ _ => True) (P := fun _ data' => Extends data data')
    (E := fun _ _ => True) ?_ h
  unfold orInsertWith
  split
  case h_1 => exact fun _ _ hk => hk
  case h_2 hnone =>
      exact (hvalue.keeps fun _ _ _ _ => trivial).seq fun _ _ _ => Extends.insert hnone

variable {gate : List Exchange → Request → Prop} {P : List Exchange → Json → Prop}
  {E : List Exchange → CloudError → Prop}

/-- The envelope in the answer is a refusal. -/
def Refuses (C : Crates) (r : Response) : Prop :=
  ∃ text code message, r.body = .ok text ∧ parseEnvelope C text = .error (.api code message)

/-- No envelope with an answer in it came back. -/
def Unanswered (C : Crates) (r : Response) : Prop :=
  ∀ text answer, r.body = .ok text → parseEnvelope C text ≠ .ok answer

/-- The body of a response fails for one reason only, which is the transport's. -/
theorem body_eq_error {r : Response} {e : CloudError} (h : r.body = .error e) :
    ∃ cause, e = .transport cause := by
  cases r with
  | answered body | status _ body =>
      cases body with
      | ok text => cases h
      | error cause => exact ⟨cause, (Except.error.inj h).symm⟩
  | failed cause => exact ⟨cause, (Except.error.inj h).symm⟩

/-- An answer gives its value, or else an error that is a refusal only if the answer is one. -/
theorem keeps_unwrap {G : List Exchange → (κ : Kind) → Question κ → Prop} {r : Response}
    (h : ∀ text answer, r.body = .ok text → parseEnvelope C text = .ok answer → P past answer)
    (herror : ∀ e, Unanswered C r → (∀ code message, e = .api code message → Refuses C r) →
      E past e) :
    Keeps G past (unwrap C r) P E := by
  refine keeps_bind.mpr (keeps_ofExcept (fun text htext => ?_) fun e hbody => ?_)
  · refine keeps_ofExcept (fun answer hanswer => h text answer htext hanswer) fun e he => ?_
    refine herror e (fun text' answer htext' hanswer => ?_) ?_
    · obtain rfl := Except.ok.inj (htext.symm.trans htext')
      rw [he] at hanswer
      cases hanswer
    · rintro code message rfl
      exact ⟨text, code, message, htext, he⟩
  · obtain ⟨cause, rfl⟩ := body_eq_error hbody
    refine herror _ (fun text answer htext _ => ?_) nofun
    rw [hbody] at htext
    cases htext

/-- A request asks the time and some random bytes first, and adds two fields at most. Neither
question sends anything, so that the request is the next exchange. -/
theorem keeps_request
    (h : ∀ mid data' random, Sends (fun _ => False) mid → Extends data data' →
      gate (past ++ mid) (client.requestWith C endpoint data' random) ∧
      ∀ r, Keeps (atPost gate)
        (past ++ mid ++ [exchange (client.requestWith C endpoint data' random) r])
        (unwrap C r) P E) :
    Keeps (atPost gate) past (client.request C endpoint data) P E := by
  refine (only_orInsertWith (only_randomHex 16)).seq atPost_of_silent ?_ fun _ _ _ hlog =>
    absurd hlog (sure_orInsertWith (sure_randomHex 16)).not_failed
  intro mid₁ data₁ hmid₁ hlog₁
  refine (only_orInsertWith only_timestampNow).seq atPost_of_silent ?_ fun _ _ _ hlog =>
    absurd hlog (sure_orInsertWith sure_timestampNow).not_failed
  intro mid₂ data₂ hmid₂ hlog₂
  refine only_secondsSinceEpoch.seq atPost_of_silent ?_ fun _ _ _ hlog =>
    absurd hlog sure_secondsSinceEpoch.not_failed
  intro mid₃ now hmid₃ _
  have hsilent := Sends.append (Sends.append hmid₁ hmid₂) hmid₃
  have hextends : Extends data data₂ := fun key value hkey =>
    extends_orInsertWith only_timestampNow hlog₂ _ _
      (extends_orInsertWith (only_randomHex 16) hlog₁ _ _ hkey)
  specialize h _ data₂ (showNat now.toNat) hsilent hextends
  rw [← List.append_assoc, ← List.append_assoc] at h
  exact h

/-- A request that is a form, with what is promised of every answer to it. -/
theorem keeps_nethome {session : NetHome.Session} {extra : List (String × Str)}
    (h : ∀ mid stamp, Sends (fun _ => False) mid →
      let q := NetHome.requestWith C endpoint (NetHome.parameters session stamp extra)
      gate (past ++ mid) q ∧ ∀ r text answer, r.body = .ok text →
        NetHome.parseEnvelope C text = .ok answer → P (past ++ mid ++ [exchange q r]) answer)
    (herror : ∀ now e, E now e) :
    Keeps (atPost gate) past (NetHome.request C session endpoint extra) P E := by
  refine only_timestampNow.seq atPost_of_silent (fun mid stamp hmid _ => ?_)
    fun _ _ _ _ => herror _ _
  refine ⟨(h mid stamp hmid).1, fun r => ?_⟩
  have hunwrap : Keeps (atPost gate) (past ++ mid ++ [exchange _ r]) (NetHome.unwrap C r) P E :=
    keeps_bind.mpr (keeps_ofExcept (fun text htext => keeps_ofExcept
      (fun answer hanswer => (h mid stamp hmid).2 r text answer htext hanswer)
      fun e _ => herror _ e) fun e _ => herror _ e)
  exact hunwrap

/-! ## Everything but a login -/

/-- A request that carries what was made of a password. -/
def IsLogin (q : Request) : Prop := "/user/login".toList <:+ q.url

/-- A request for the server of an account. -/
def IsRouting (q : Request) : Prop := "/user/route".toList <:+ q.url

/-- The end of a URL is the end of its endpoint. -/
theorem suffix_endpoint {tail base : Str} (h : tail.length ≤ endpoint.toList.length) :
    tail <:+ base ++ endpoint.toList ↔ tail <:+ endpoint.toList :=
  ⟨fun hurl => List.suffix_of_suffix_length_le hurl (List.suffix_append _ _) h,
    fun hurl => hurl.trans (List.suffix_append _ _)⟩

/-- Whether a request is a login can be told from its endpoint, which is longer than the tail that
is looked for, whatever the base in front of it. -/
theorem isLogin_endpoint {base : Str} {headers : List (Str × Str)} {body : Body}
    (h : "/user/login".toList.length ≤ endpoint.toList.length) :
    IsLogin ⟨base ++ endpoint.toList, headers, body⟩ ↔ "/user/login".toList <:+ endpoint.toList :=
  suffix_endpoint h

/-- Any request but a login: one that nothing of the password is in. -/
abbrev NoLogin (q : Request) : Prop := ¬ IsLogin q

/-- What is asked between a routing and the login. -/
abbrev Between (q : Request) : Prop := ¬ IsLogin q ∧ ¬ IsRouting q

/-- A request to an endpoint that does not end like a login is none. -/
theorem only_loginFree
    (h : "/user/login".toList.length ≤ endpoint.toList.length ∧
      ¬ "/user/login".toList <:+ endpoint.toList) :
    Only (posts NoLogin) (client.request C endpoint data) :=
  only_request fun _ _ => mt (isLogin_endpoint h.1).mp h.2

/-- Asking for the login id is between the routing and the login: neither. -/
theorem only_loginId (account : Str) : Only (posts Between) (client.loginId C account) := by
  have hfree : ∀ data, Only (posts Between) (client.request C "/v1/user/login/id/get" data) :=
    fun data => only_request fun _ _ => ⟨mt (isLogin_endpoint (by decide)).mp (by decide),
      mt (suffix_endpoint (by decide)).mp (by decide)⟩
  refine only_general.bind fun data => (hfree _).bind fun answer => ?_
  cases answer.strAt "loginId" <;> trivial

/-- In particular it carries nothing of the password. -/
theorem only_loginId_free (account : Str) : Only (posts NoLogin) (client.loginId C account) :=
  (only_loginId account).weaken (posts_mono fun _ h => h.1)

/-- Asking where an account is served sends no login, whether or not the base is known. -/
theorem only_routed (account : Str) (base : Option Str) :
    Only (posts NoLogin) (SmartHome.routed C account base) := by
  refine only_general.bind fun data => ?_
  refine (only_loginFree ⟨by decide, by decide⟩).attempt.bind fun answer => ?_
  split
  · split <;> trivial
  · trivial
  · trivial

/-- A request to NetHome Plus goes to the one base it has; only the body depends on the
account. -/
theorem only_nethome {session : NetHome.Session} {extra : List (String × Str)}
    (h : ∀ body, g ⟨NetHome.BASE_URL ++ endpoint.toList, [], body⟩) :
    Only (posts g) (NetHome.request C session endpoint extra) :=
  only_timestampNow.bind fun _ =>
    ⟨h _, fun _ => (only_ofExcept _).bind fun _ => only_ofExcept _⟩

/-- Asking a cloud about an account sends no login, with any of the clouds. Each of them asks for
a login id or for the route, and reads the refusal as an answer. -/
theorem only_accountKnown (account : Str) (cloud : Cloud) :
    Only (posts NoLogin) (cloud.accountKnown C account) := by
  cases cloud with
  | smartHome =>
      refine (only_routed account none).attempt.bind fun client => ?_
      split
      · trivial
      · trivial
      · refine (only_loginId_free account).attempt.bind fun answer => ?_
        split <;> trivial
  | meiju =>
      refine (only_loginId_free account).attempt.bind fun answer => ?_
      split
      · trivial
      · split <;> trivial
      · trivial
  | netHomePlus =>
      refine (only_randomHex 8).bind fun deviceId => ?_
      refine (only_nethome fun _ => mt (isLogin_endpoint (by decide)).mp (by decide)).attempt.bind
        fun answer => ?_
      split <;> trivial

/-! ## Tokens -/

/-- Both byte orders of an id are asked about in the same way, so what holds of one request holds
of the search. -/
theorem only_tryOrders {ask : Bool → Conversation Token} (h : ∀ order, Only (posts g) (ask order))
    (last : Option CloudError) (orders : List Bool) :
    Only (posts g) (tryOrders ask last orders) := by
  induction orders generalizing last with
  | nil => trivial
  | cons order orders ih =>
      refine (h order).attempt.bind fun token => ?_
      split
      · trivial
      · trivial
      · exact ih _

/-- Asking for a token is one post to the client's base. -/
theorem only_askToken {deviceId : UInt64} {fields : Str → Fields → Fields}
    (h : ∀ headers body, g ⟨client.base ++ endpoint.toList, headers, body⟩) :
    Only (posts g) (askToken C client endpoint deviceId fields) :=
  only_tryOrders (fun _ => only_general.bind fun _ => (only_request h).bind fun _ =>
    only_ofExcept _) none _

/-- A search for a token is no login, whatever its endpoint is of these. -/
theorem only_askFree {deviceId : UInt64} {fields : Str → Fields → Fields}
    (h : "/user/login".toList.length ≤ endpoint.toList.length ∧
      ¬ "/user/login".toList <:+ endpoint.toList) :
    Only (posts NoLogin) (askToken C client endpoint deviceId fields) :=
  only_askToken fun _ _ => mt (isLogin_endpoint h.1).mp h.2

/-- Going through the homes sends no login, by induction on the homes that are left. -/
theorem only_tokenFrom (deviceId : UInt64) (last : Option CloudError) (homes : List Str) :
    Only (posts NoLogin) (Meiju.tokenFrom C client deviceId last homes) := by
  induction homes generalizing last with
  | nil =>
      have hv1 : Only (posts NoLogin) (Meiju.tokenV1 C client deviceId) := only_askFree (by decide)
      refine hv1.attempt.bind fun token => ?_
      split <;> trivial
  | cons home homes ih =>
      have hin : Only (posts NoLogin) (Meiju.tokenIn C client deviceId home) :=
        only_askFree (by decide)
      refine hin.attempt.bind fun token => ?_
      split
      · trivial
      · exact ih _

/-- Listing the homes sends no login. -/
theorem only_homes : Only (posts NoLogin) (Meiju.homes C client) := by
  have hpost : Only (posts NoLogin) (client.request C "/v1/homegroup/list/get" []) :=
    only_loginFree (by decide)
  exact hpost.bind fun _ => trivial

/-- Nor does the search for a token with any session: the login came before it. -/
theorem only_token (deviceId : UInt64) (session : Session) :
    Only (posts NoLogin) (session.token C deviceId) := by
  cases session with
  | smartHome client =>
      have hv1 : Only (posts NoLogin) (SmartHome.token C client deviceId) :=
        only_askFree (by decide)
      exact hv1
  | meiju client =>
      exact only_homes.bind fun homes => only_tokenFrom deviceId none homes
  | netHomePlus session =>
      refine only_tryOrders (fun order => ?_) none _
      refine (only_nethome fun _ => mt (isLogin_endpoint (by decide)).mp (by decide)).bind
        fun answer => ?_
      split
      · trivial
      · split <;> trivial

/-- Nor does listing the appliances, home by home. -/
theorem only_appliancesOf (out : List Appliance) (homes : List Str) :
    Only (posts NoLogin) (Meiju.appliancesOf C client out homes) := by
  induction homes generalizing out with
  | nil => trivial
  | cons home homes ih => exact (only_loginFree (by decide)).bind fun answer => ih _

/-- Listing the units sends no login, with any session. -/
theorem only_appliances (session : Session) : Only (posts NoLogin) (session.appliances C) := by
  cases session with
  | smartHome client =>
      refine Only.bind (only_general.bind fun data =>
        (only_loginFree (by decide)).bind fun answer => ?_) fun list => trivial
      split <;> trivial
  | meiju client =>
      exact Only.bind (only_homes.bind fun homes => only_appliancesOf [] homes) fun list => trivial
  | netHomePlus session => trivial

/-! ## A login -/

/-- Where the login of a cloud goes, behind its base. -/
def Cloud.loginEndpoint : Cloud → String
  | .smartHome | .meiju => "/mj/user/login"
  | .netHomePlus => "/v1/user/login"

/-- In the talk, the cloud was asked whether it has the account, and said yes. -/
def Confirmed (C : Crates) (cloud : Cloud) (account : Str) (log : List Exchange) : Prop :=
  ∃ before asked after, log = before ++ asked ++ after ∧
    After (cloud.accountKnown C account) asked (done true)

/-- The answer to a routing names a server. -/
def Names (C : Crates) (r : Response) (base : Str) : Prop :=
  base ≠ [] ∧ ∃ text answer, r.body = .ok text ∧ parseEnvelope C text = .ok answer ∧
    answer.strAt "masUrl" = some base

/-- Where the last routing of the talk led: to the server that its answer named, and to the
cloud's own only where it named none. -/
def RoutedTo (C : Crates) (log : List Exchange) (base : Str) : Prop :=
  ∃ before q r after, log = before ++ exchange q r :: after ∧
    q.url = SMARTHOME.baseUrl ++ "/v1/multicloud/platform/user/route".toList ∧
    Sends (fun q => ¬ IsRouting q) after ∧
    (Names C r base ∨ base = SMARTHOME.baseUrl ∧ ∀ other, ¬ Names C r other)

/-- The server of a cloud that a login goes to. -/
def ServedBy (C : Crates) : Cloud → List Exchange → Str → Prop
  | .smartHome, log, base => RoutedTo C log base
  | .meiju, _, base => base = MEIJU.baseUrl
  | .netHomePlus, _, base => base = NetHome.BASE_URL

/-- When and where a login may be asked. -/
def Allowed (C : Crates) (account : Str) (now : List Exchange) (q : Request) : Prop :=
  IsLogin q → ∃ cloud base, Confirmed C cloud account now ∧ ServedBy C cloud now base ∧
    q.url = base ++ cloud.loginEndpoint.toList ∧ Sends NoLogin now

/-- What was said before the last routing does not matter. -/
theorem ServedBy.append_left {cloud : Cloud} {base : Str} {mid : List Exchange}
    (h : ServedBy C cloud mid base) (past : List Exchange) :
    ServedBy C cloud (past ++ mid) base := by
  cases cloud with
  | smartHome =>
      obtain ⟨before, q, r, after, rfl, hrest⟩ := h
      exact ⟨past ++ before, q, r, after, (List.append_assoc _ _ _).symm, hrest⟩
  | meiju => exact h
  | netHomePlus => exact h

/-- Nor what was said since without another one. -/
theorem RoutedTo.append_right {base : Str} {mid after : List Exchange} (h : RoutedTo C mid base)
    (hafter : Sends (fun q => ¬ IsRouting q) after) : RoutedTo C (mid ++ after) base := by
  obtain ⟨before, q, r, since, rfl, hurl, hsince, hbase⟩ := h
  exact ⟨before, q, r, since ++ after, by rw [List.append_assoc, List.cons_append], hurl,
    hsince.append hafter, hbase⟩

/-- A cloud that said it has the account has said so from then on. -/
theorem Confirmed.append {cloud : Cloud} {account : Str} (h : Confirmed C cloud account past)
    (mid : List Exchange) : Confirmed C cloud account (past ++ mid) := by
  obtain ⟨before, asked, after, rfl, hasked⟩ := h
  exact ⟨before, asked, after ++ mid, by simp, hasked⟩

/-- What is no login is allowed at any point of a fetch. -/
theorem allowed_of_noLogin {account : Str} (now : List Exchange) (κ : Kind) (q : Question κ)
    (h : posts NoLogin κ q) : atPost (Allowed C account) now κ q :=
  posts_mono (fun _ hno hlogin => absurd hlogin hno) κ q h

/-- Where a client is pointed at. The last answer to the routing names a base that is not empty,
or names none and the client keeps the default of its cloud. -/
theorem routed_to {account : Str} {mid : List Exchange} {client : Client}
    (h : After (SmartHome.routed C account none) mid (done client)) :
    RoutedTo C mid client.base := by
  refine Keeps.ended (G := atPost fun _ _ => True)
    (P := fun now client => RoutedTo C now client.base) (E := fun _ _ => True) ?_ h
  have hall : ∀ now κ (q : Question κ), posts (fun _ => True) κ q →
      atPost (fun _ _ => True) now κ q := fun _ _ _ hq => hq
  refine only_general.seq hall (fun mid data _ _ => ?_) fun _ _ _ _ => trivial
  refine keeps_bind.mpr (keeps_attempt.mpr (keeps_request (fun mid' data' random _ _ =>
    ⟨trivial, fun r => keeps_unwrap (fun text answer htext hanswer => ?_)
      fun e hunanswered _ => ?_⟩)))
  case refine_1 =>
    have hnames : ∀ base, Names C r base ↔ base ≠ [] ∧ answer.strAt "masUrl" = some base := by
      intro base
      refine and_congr_right fun _ => ⟨?_, fun hurl => ⟨text, answer, htext, hanswer, hurl⟩⟩
      rintro ⟨text', answer', htext', hanswer', hurl⟩
      obtain rfl := Except.ok.inj (htext.symm.trans htext')
      obtain rfl := Except.ok.inj (hanswer.symm.trans hanswer')
      exact hurl
    dsimp only
    split
    case h_1 url hurl =>
        refine keeps_done.mpr ⟨_, _, r, [], rfl, rfl, List.forall_mem_nil _, ?_⟩
        split
        case isTrue hgiven => exact .inl ((hnames _).mpr ⟨hgiven.2, hurl⟩)
        case isFalse hempty =>
            refine .inr ⟨rfl, fun other hother => ?_⟩
            obtain ⟨hne, hnamed⟩ := (hnames _).mp hother
            obtain rfl := Option.some.inj (hurl.symm.trans hnamed)
            exact hempty ⟨rfl, hne⟩
    case h_2 hurl =>
        refine ⟨_, _, r, [], rfl, rfl, List.forall_mem_nil _, .inr ⟨rfl, fun other hother => ?_⟩⟩
        obtain ⟨-, hnamed⟩ := (hnames _).mp hother
        rw [hurl] at hnamed
        cases hnamed
  case refine_2 =>
    have hnone : ∀ other, ¬ Names C r other := by
      rintro other ⟨-, text, answer, htext, hanswer, -⟩
      exact hunanswered text answer htext hanswer
    dsimp only
    split
    · contradiction
    · trivial
    · exact ⟨_, _, r, [], rfl, rfl, List.forall_mem_nil _, .inr ⟨rfl, hnone⟩⟩

variable {credentials : Credentials}

/-- Every login since then goes to a server of the cloud, and there is at most one. -/
def LoginSince (C : Crates) (cloud : Cloud) (past now : List Exchange) (q : Request) : Prop :=
  IsLogin q → ∃ base mid, now = past ++ mid ∧ ServedBy C cloud mid base ∧
    q.url = base ++ cloud.loginEndpoint.toList ∧ Sends NoLogin mid

/-- What is no login is allowed within a sign-in. -/
theorem loginSince_of_noLogin {cloud : Cloud} (now : List Exchange) (κ : Kind) (q : Question κ)
    (h : posts NoLogin κ q) : atPost (LoginSince C cloud past) now κ q :=
  posts_mono (fun _ hno hlogin => absurd hlogin hno) κ q h

/-- Logging in to a cloud asks one login, of a server of that cloud. What comes between the
routing and the login is no login and no routing, so that the base is still the one that was
named. -/
theorem keeps_login (cloud : Cloud) :
    Keeps (atPost (LoginSince C cloud past)) past (cloud.login C credentials)
      (fun _ _ => True) (fun _ _ => True) := by
  have hsilent : ∀ {g : Request → Prop} {mid : List Exchange}, Sends (fun _ => False) mid →
      Sends g mid := fun h => Sends.mono (fun _ hfalse => False.elim hfalse) h
  cases cloud with
  | smartHome =>
      refine Keeps.seq (P := fun _ _ => True) ?_ fun _ _ _ => trivial
      refine (only_routed _ none).seq loginSince_of_noLogin (fun mid₁ client hmid₁ hlog₁ => ?_)
        fun _ _ _ _ => trivial
      have hbetween : ∀ now κ (q : Question κ), posts Between κ q →
          atPost (LoginSince C .smartHome past) now κ q := fun now κ q hq =>
        loginSince_of_noLogin now κ q (posts_mono (fun _ h => h.1) κ q hq)
      refine (only_loginId _).seq hbetween (fun mid₂ loginId hmid₂ _ => ?_) fun _ _ _ _ => trivial
      refine only_general.seq hbetween (fun mid₃ general hmid₃ _ => ?_) fun _ _ _ _ => trivial
      refine only_timestampNow.seq hbetween (fun mid₄ stamp hmid₄ _ => ?_)
        fun _ _ _ _ => trivial
      refine Keeps.seq (P := fun _ _ => True) (keeps_request (fun mid data random hmid _ =>
        ⟨?_, fun r => keeps_unwrap (fun _ _ _ _ => trivial) fun _ _ _ => trivial⟩))
        fun now answer _ => (only_loggedIn answer).keeps loginSince_of_noLogin
      have hafter : Sends Between (mid₂ ++ (mid₃ ++ (mid₄ ++ mid))) :=
        Sends.append hmid₂ (Sends.append hmid₃ (Sends.append hmid₄ (hsilent hmid)))
      have hserved : ServedBy C .smartHome (mid₁ ++ (mid₂ ++ (mid₃ ++ (mid₄ ++ mid))))
          client.base :=
        (routed_to hlog₁).append_right (hafter.mono fun _ h => h.2)
      have hsends : Sends NoLogin (mid₁ ++ (mid₂ ++ (mid₃ ++ (mid₄ ++ mid)))) :=
        Sends.append hmid₁ (hafter.mono fun _ h => h.1)
      exact fun _ => ⟨_, _, by simp only [List.append_assoc], hserved, rfl, hsends⟩
  | meiju =>
      refine Keeps.seq (P := fun _ _ => True) ?_ fun _ _ _ => trivial
      refine (only_loginId_free _).seq loginSince_of_noLogin (fun mid₁ loginId hmid₁ _ => ?_)
        fun _ _ _ _ => trivial
      refine only_timestampNow.seq loginSince_of_noLogin (fun mid₂ stamp hmid₂ _ => ?_)
        fun _ _ _ _ => trivial
      refine (only_randomHex 16).seq loginSince_of_noLogin (fun mid₃ reqId hmid₃ _ => ?_)
        fun _ _ _ _ => trivial
      refine Keeps.seq (P := fun _ _ => True) (keeps_request (fun mid data random hmid _ =>
        ⟨?_, fun r => keeps_unwrap (fun _ _ _ _ => trivial) fun _ _ _ => trivial⟩))
        fun now answer _ => (only_loggedIn answer).keeps loginSince_of_noLogin
      have hsends : Sends NoLogin (mid₁ ++ (mid₂ ++ (mid₃ ++ mid))) :=
        Sends.append hmid₁ (Sends.append hmid₂ (Sends.append hmid₃ (hsilent hmid)))
      exact fun _ => ⟨_, _, by simp only [List.append_assoc], rfl, rfl, hsends⟩
  | netHomePlus =>
      refine Keeps.seq (P := fun _ _ => True) ?_ fun _ _ _ => trivial
      refine (only_randomHex 8).seq loginSince_of_noLogin (fun mid₁ deviceId hmid₁ _ => ?_)
        fun _ _ _ _ => trivial
      refine (only_nethome fun _ => mt (isLogin_endpoint (by decide)).mp (by decide)).seq
        loginSince_of_noLogin (fun mid₂ answer hmid₂ _ => ?_) fun _ _ _ _ => trivial
      split
      case h_1 => trivial
      case h_2 loginId _ =>
          refine Keeps.seq (P := fun _ _ => True) (keeps_nethome (fun mid stamp hmid =>
            ⟨?_, fun _ _ _ _ _ => trivial⟩) fun _ _ => trivial) fun now answer _ => ?_
          · have hsends : Sends NoLogin (mid₁ ++ (mid₂ ++ mid)) :=
              Sends.append hmid₁ (Sends.append hmid₂ (hsilent hmid))
            exact fun _ => ⟨_, _, by simp only [List.append_assoc], rfl, rfl, hsends⟩
          · split <;> trivial

/-- What makes a login allowed. -/
theorem LoginSince.allowed {cloud : Cloud} {account : Str} {now : List Exchange} {q : Request}
    (h : LoginSince C cloud past now q) (hconfirmed : Confirmed C cloud account past)
    (hpast : Sends NoLogin past) : Allowed C account now q := by
  intro hlogin
  obtain ⟨base, mid, rfl, hserved, hurl, hmid⟩ := h hlogin
  exact ⟨cloud, base, hconfirmed.append mid,
    hserved.append_left past, hurl, hpast.append hmid⟩

/-- The search over the clouds, started where nothing was logged in to. The first cloud that
confirms the account is logged in to and the search ends with it; the others are only asked. -/
theorem keeps_fetchFrom (deviceId : UInt64) (last : Option CloudError) (clouds : List Cloud)
    (hpast : Sends NoLogin past) :
    Keeps (atPost (Allowed C credentials.account)) past
      (fetchFrom C credentials deviceId last clouds) (fun _ _ => True) (fun _ _ => True) := by
  induction clouds generalizing past last with
  | nil => trivial
  | cons cloud clouds ih =>
      refine keeps_bind.mpr (keeps_attempt.mpr ?_)
      refine ((only_accountKnown credentials.account cloud).keeps allowed_of_noLogin).talk.weaken
        ?_ ?_
      · rintro now known ⟨-, asked, rfl, hasked⟩
        have hsends := Sends.append hpast ((only_accountKnown _ cloud).said hasked)
        cases known with
        | true =>
            have hconfirmed : Confirmed C cloud credentials.account (past ++ asked) :=
              ⟨past, asked, [], (List.append_nil _).symm, hasked⟩
            refine Keeps.seq (P := fun _ _ => True) ((keeps_login cloud).guard fun now κ q hq =>
              posts_mono (fun _ h => LoginSince.allowed h hconfirmed hsends) κ q hq)
              fun now session _ => ?_
            exact ((only_token deviceId session).keeps allowed_of_noLogin).seq fun _ _ _ => trivial
        | false => exact ih last hsends
      · rintro now e ⟨-, asked, rfl, hasked⟩
        exact ih (some e) (Sends.append hpast ((only_accountKnown _ cloud).said hasked))

/-- A request that carries what was made of the password goes, once, to a cloud that said
before that it has the account. -/
theorem password_confined (C : Crates) (credentials : Credentials) (deviceId : UInt64)
    (log : List Exchange) (q : Request) (go : Response → Conversation (Cloud × Token))
    (h : After (fetchTokenAny C credentials deviceId) log (.ask (κ := .post) q go))
    (hlogin : IsLogin q) :
    ∃ cloud base, Confirmed C cloud credentials.account log ∧ ServedBy C cloud log base ∧
      q.url = base ++ cloud.loginEndpoint.toList ∧ Sends NoLogin log :=
  (keeps_fetchFrom deviceId none _ (List.forall_mem_nil _)).asked h hlogin

/-! ## What the password changes -/

/-- The same question, or two logins at the same place. -/
def SameButLogin : (κ : Kind) → Question κ → Question κ → Prop
  | .post, q, q' => q = q' ∨ (IsLogin q ∧ IsLogin q' ∧ q.url = q'.url)
  | .time, q, q' | .entropy, q, q' => q = q'

/-- A step is the same as itself, login or not. -/
theorem sameButLogin_refl (κ : Kind) (q : Question κ) : SameButLogin κ q q := by
  cases κ with
  | time => rfl
  | entropy => rfl
  | post => exact .inl rfl

variable {α β : Type}

/-- A program that has no password is the same with every password. -/
theorem alike_same (p : Conversation α) : Alike SameButLogin (· = ·) p p :=
  alike_refl sameButLogin_refl (fun _ => rfl) p

/-- The same program first, and then two that are alike wherever it ends. -/
theorem alike_seq (p : Conversation α) {f f' : α → Conversation β}
    (h : ∀ a, Alike SameButLogin (· = ·) (f a) (f' a)) :
    Alike SameButLogin (· = ·) (p >>= f) (p >>= f') :=
  (alike_same p).bind fun _ _ heq => heq ▸ h _

/-- Two records with the same keys get the same fields put in, and have the same keys after it. -/
theorem alike_orInsertWith {data data' : Fields} (hkeys : Fields.keys data = Fields.keys data')
    (key : Str) (value : Conversation Str) :
    Alike SameButLogin (fun data data' => Fields.keys data = Fields.keys data')
      (orInsertWith data key value) (orInsertWith data' key value) := by
  have hsome : (Fields.get? data key).isSome = (Fields.get? data' key).isSome := by
    rw [Fields.get?_isSome, Fields.get?_isSome, hkeys]
  unfold orInsertWith
  cases hdata : Fields.get? data key with
  | some value =>
      rw [hdata, Option.isSome_some] at hsome
      obtain ⟨value', hdata'⟩ := Option.isSome_iff_exists.mp hsome.symm
      rw [hdata']
      exact .done hkeys
  | none =>
      rw [hdata, Option.isSome_none] at hsome
      rw [Option.not_isSome_iff_eq_none.mp (Bool.eq_false_iff.mp hsome.symm)]
      refine (alike_same value).bind fun v v' heq => .done ?_
      rw [heq, Fields.keys_insert, Fields.keys_insert, hkeys]

/-- Two logins that send the same fields, whatever is in them. -/
theorem alike_request {data data' : Fields} (hkeys : Fields.keys data = Fields.keys data')
    (hlogin : ∀ headers body, IsLogin ⟨client.base ++ endpoint.toList, headers, body⟩) :
    Alike SameButLogin (· = ·) (client.request C endpoint data)
      (client.request C endpoint data') := by
  refine (alike_orInsertWith hkeys _ _).bind fun data₁ data₁' hkeys₁ => ?_
  refine (alike_orInsertWith hkeys₁ _ _).bind fun data₂ data₂' _ => ?_
  exact alike_seq _ fun now => .ask (.inr ⟨hlogin _ _, hlogin _ _, rfl⟩) fun r => alike_same _

/-- The clouds of the fifth version have one login endpoint. -/
theorem isLogin_mj (base : Str) (headers : List (Str × Str)) (body : Body) :
    IsLogin ⟨base ++ "/mj/user/login".toList, headers, body⟩ :=
  (isLogin_endpoint (by decide)).mpr (by decide)

/-- The keys of a login do not depend on the password, only what stands under them does. -/
theorem keys_smartHomeLogin (credentials : Credentials) (loginId : Str) (general : Fields)
    (stamp : Str) : Fields.keys (SmartHome.loginData C client credentials loginId general stamp) =
      ["iotData".toList, "data".toList, "stamp".toList] := rfl

/-- The keys of the login to Meiju do not depend on the password either. -/
theorem keys_meijuLogin (credentials : Credentials) (loginId reqId stamp : Str) :
    Fields.keys (Meiju.loginData C client credentials loginId reqId stamp) =
      ["iotData".toList, "data".toList, "timestamp".toList, "stamp".toList] := rfl

/-- Two logins that differ in the password and the region ask the same in the same order, the
login itself aside, and go on with the same session. -/
theorem alike_login (account password password' region region' : Str) (cloud : Cloud) :
    Alike SameButLogin (· = ·) (cloud.login C ⟨account, password, region⟩)
      (cloud.login C ⟨account, password', region'⟩) := by
  cases cloud with
  | smartHome =>
      refine Alike.bind (R := (· = ·)) ?_ fun client client' heq => heq ▸ alike_same _
      refine alike_seq (SmartHome.routed C account none) fun client => ?_
      refine alike_seq (client.loginId C account) fun loginId => ?_
      refine alike_seq _ fun general => alike_seq _ fun stamp => ?_
      refine (alike_request ((keys_smartHomeLogin ..).trans (keys_smartHomeLogin ..).symm)
        (isLogin_mj _)).bind fun answer answer' heq => ?_
      exact heq ▸ alike_same _
  | meiju =>
      refine Alike.bind (R := (· = ·)) ?_ fun client client' heq => heq ▸ alike_same _
      refine alike_seq ((Meiju.clientAt C account none).loginId C account) fun loginId => ?_
      refine alike_seq _ fun stamp => alike_seq _ fun reqId => ?_
      refine (alike_request ((keys_meijuLogin ..).trans (keys_meijuLogin ..).symm)
        (isLogin_mj _)).bind fun answer answer' heq => ?_
      exact heq ▸ alike_same _
  | netHomePlus =>
      refine Alike.bind (R := (· = ·)) ?_ fun session session' heq => heq ▸ alike_same _
      refine alike_seq _ fun deviceId => alike_seq _ fun answer => ?_
      split
      case h_1 => exact alike_same _
      case h_2 loginId _ =>
          have hurl : ∀ headers body, IsLogin
              ⟨NetHome.BASE_URL ++ "/v1/user/login".toList, headers, body⟩ := fun _ _ =>
            (isLogin_endpoint (by decide)).mpr (by decide)
          refine Alike.bind (R := (· = ·)) ?_ fun answer answer' heq => heq ▸ alike_same _
          exact alike_seq _ fun stamp => .ask (.inr ⟨hurl _ _, hurl _ _, rfl⟩) fun r => alike_same _

/-- So do two fetches over the same clouds, by induction on the clouds that are left. -/
theorem alike_fetchFrom (account password password' region region' : Str) (deviceId : UInt64)
    (last : Option CloudError) (clouds : List Cloud) :
    Alike SameButLogin (· = ·) (fetchFrom C ⟨account, password, region⟩ deviceId last clouds)
      (fetchFrom C ⟨account, password', region'⟩ deviceId last clouds) := by
  induction clouds generalizing last with
  | nil => exact alike_same _
  | cons cloud clouds ih =>
      refine alike_seq _ fun known => ?_
      split
      · exact (alike_login ..).bind fun session session' heq => heq ▸ alike_same _
      · exact ih last
      · exact ih _

/-- The password is in the logins and nowhere else: with another one, and the same answers, the
talk and its end are the same but for what the logins carry. -/
theorem password_unseen (C : Crates) (account password password' region region' : Str)
    (deviceId : UInt64) (log : List Exchange) (p : Conversation (Cloud × Token))
    (h : After (fetchTokenAny C ⟨account, password, region⟩ deviceId) log p) :
    ∃ log' p', After (fetchTokenAny C ⟨account, password', region'⟩ deviceId) log' p' ∧
      List.Forall₂ (SaidAlike SameButLogin) log log' ∧
      (∀ found, p = done found → p' = done found) ∧ ∀ e, p = failed e → p' = failed e := by
  obtain ⟨log', p', hlog', hlogs, hend⟩ := (alike_fetchFrom account password password' region
    region' deviceId none _).after h
  refine ⟨log', p', hlog', hlogs, ?_, ?_⟩
  · rintro found rfl
    cases hend with
    | done heq => rw [heq]
  · rintro e rfl
    cases hend with
    | failed e => rfl

/-! ## A talk to the end -/

/-- The answers of a cloud that has the account and the unit, as texts and as values. -/
def loginIdText : Str := "\x7b\"code\":0,\"data\":\x7b\"loginId\":\"a\"\x7d\x7d".toList

/-- A login that was accepted. -/
def loginText : Str :=
  "\x7b\"code\":0,\"data\":\x7b\"mdata\":\x7b\"accessToken\":\"t\"\x7d\x7d\x7d".toList

/-- A list with one token, under the udpid that the digest of zeros has. -/
def tokenText : Str :=
  ("\x7b\"code\":0,\"data\":\x7b\"tokenlist\":[\x7b" ++
    "\"udpId\":\"00000000000000000000000000000000\"," ++
    "\"token\":\"AB\",\"key\":\"CD\"\x7d]\x7d\x7d").toList

/-- A list of one home. -/
def homesText : Str :=
  "\x7b\"code\":0,\"data\":\x7b\"homeList\":[\x7b\"homegroupId\":\"h\"\x7d]\x7d\x7d".toList

/-- An answer without an error. -/
def envelope (data : Fields) : Json :=
  .object [("code".toList, .number (.posInt 0)), ("data".toList, .object data)]

/-- Crates for the runs below: the digests are zeros, and three texts can be read. -/
def plainCrates : Crates where
  sha256 _ := Arr.zero 32
  md5 _ := Arr.zero 16
  hmacSha256 _ _ := Arr.zero 32
  base64 _ := []
  fromStr text :=
    if text = loginIdText then .ok (envelope [("loginId".toList, .string "a".toList)])
    else if text = loginText then
      .ok (envelope [("mdata".toList, .object [("accessToken".toList, .string "t".toList)])])
    else if text = tokenText then
      .ok (envelope [("tokenlist".toList, .array [.object [
        ("udpId".toList, .string (List.replicate 32 '0')), ("token".toList, .string "AB".toList),
        ("key".toList, .string "CD".toList)]])])
    else if text = homesText then
      .ok (envelope [("homeList".toList, .array [.object [
        ("homegroupId".toList, .string "h".toList)]])])
    else .error "expected value at line 1 column 1".toList
  toText _ := "\x7b\x7d".toList

/-- The first cloud has every account and every unit. -/
def generous : (κ : Kind) → Question κ → Answer κ
  | .time, _ => some 1790000000
  | .entropy, n => some (List.replicate n 7)
  | .post, q =>
      if "/mj/user/login".toList.isSuffixOf q.url then .answered (.ok loginText)
      else if "/getToken".toList.isSuffixOf q.url then .answered (.ok tokenText)
      else .answered (.ok loginIdText)

/-- The talk about unit 1 with that world, after so many questions. -/
def fetched (n : Nat) : List Exchange × Conversation (Cloud × Token) :=
  talkWith generous n (fetchTokenAny plainCrates ⟨"me".toList, "pw".toList, []⟩ 1)

/-- The URL of the request a program is about to send. -/
def nextUrl : Conversation (Cloud × Token) → Option Str
  | @Talk.ask _ _ _ _ _ .post q _ => some q.url
  | _ => none

/-- The next step of such a talk is a request to that address. -/
theorem nextUrl_eq_some {p : Conversation (Cloud × Token)} {url : Str} (h : nextUrl p = some url) :
    ∃ (q : Request) (go : Response → Conversation (Cloud × Token)),
      p = .ask (κ := .post) q go ∧ q.url = url := by
  match p, h with
  | @Talk.ask _ _ _ _ _ .post q go, h => exact ⟨q, go, rfl, Option.some.inj h⟩

/-- The run below comes to its login. -/
theorem fetched_login :
    nextUrl (fetched 21).2 = some (SMARTHOME.baseUrl ++ "/mj/user/login".toList) := by
  decide +kernel

/-- The cloud in that world is asked to log in, and it had said that it has the account. -/
theorem password_confined_generous : ∃ cloud base,
    Confirmed plainCrates cloud "me".toList (fetched 21).1 ∧
      ServedBy plainCrates cloud (fetched 21).1 base ∧
      SMARTHOME.baseUrl ++ "/mj/user/login".toList = base ++ cloud.loginEndpoint.toList ∧
      Sends NoLogin (fetched 21).1 := by
  obtain ⟨q, go, hq, hurl⟩ := nextUrl_eq_some fetched_login
  have hlog := after_talkWith generous 21
    (fetchTokenAny plainCrates ⟨"me".toList, "pw".toList, []⟩ 1)
  have hlogin : IsLogin q := by
    unfold IsLogin
    rw [hurl]
    decide
  have h := password_confined plainCrates ⟨"me".toList, "pw".toList, []⟩ 1 (fetched 21).1 q go
    (hq ▸ hlog) hlogin
  rwa [hurl] at h

/-- In the generous world, whatever the password is, the same log but for the login. -/
theorem password_unseen_generous : ∃ log' p',
    After (fetchTokenAny plainCrates ⟨"me".toList, "other".toList, []⟩ 1) log' p' ∧
      List.Forall₂ (SaidAlike SameButLogin) (fetched 40).1 log' ∧
      (∀ found, (fetched 40).2 = done found → p' = done found) ∧
      ∀ e, (fetched 40).2 = failed e → p' = failed e :=
  password_unseen plainCrates "me".toList "pw".toList "other".toList [] [] 1 _ _
    (after_talkWith generous 40 _)

end BreezeCloud
