import BreezeCore.Cloud.Password

/-!
# The token of the right unit

A cloud's list of tokens can carry other units' entries, and a unit's udpid comes in two byte
orders.

* `token_for_unit` — a token that is returned was asked for by the unit's own udpid, and was in
  the answer under that udpid;
* `homes_exhausted` — a search that fails went through every home in both byte orders, but for
  a home where a refusal ended it.
-/

namespace BreezeCloud

open Text Bytes JsonValue Talks Talk V5

variable {C : Crates} {client : Client} {endpoint : String} {past log : List Exchange}

/-- The request asks for the token of this udpid. -/
def AsksFor (C : Crates) (wanted : Str) (q : Request) : Prop :=
  "/iot/secure/getToken".toList <:+ q.url ∧
    ((∃ data, q.body = .text (C.toText (.object data)) ∧
        Fields.get? data "udpid".toList = some (.string wanted)) ∨
      ∃ fields, q.body = .form fields ∧ ("udpid".toList, wanted) ∈ fields)

/-- The answer lists this token for this udpid. -/
def Grants (C : Crates) (wanted : Str) (token : Token) (r : Response) : Prop :=
  ∃ text answer list entry, r.body = .ok text ∧ answer.arrayAt "tokenlist" = some list ∧
    entry ∈ list ∧
    ((parseEnvelope C text = .ok answer ∧
        toAsciiLowercase ((entry.strAt "udpId").getD []) = toAsciiLowercase wanted ∧
        (entry.strAt "token").map toAsciiLowercase = some token.token ∧
        (entry.strAt "key").map toAsciiLowercase = some token.key) ∨
      (NetHome.parseEnvelope C text = .ok answer ∧ entry.strAt "udpId" = some wanted ∧
        entry.strAt "token" = some token.token ∧ entry.strAt "key" = some token.key))

/-- The talk ends with a request for a unit's token and the answer that has it. -/
def EndsWithToken (C : Crates) (deviceId : UInt64) (log : List Exchange) (token : Token) : Prop :=
  ∃ before bigEndian q r, log = before ++ [exchange q r] ∧
    AsksFor C (udpid C deviceId bigEndian) q ∧ Grants C (udpid C deviceId bigEndian) token r

/-- A token that is taken from an entry stands there, under the udpid that was wanted in any case
of its letters. -/
theorem entryToken_eq_some {wanted : Str} {entry : Json} {token : Token}
    (h : entryToken wanted entry = some token) :
    toAsciiLowercase ((entry.strAt "udpId").getD []) = toAsciiLowercase wanted ∧
      (entry.strAt "token").map toAsciiLowercase = some token.token ∧
      (entry.strAt "key").map toAsciiLowercase = some token.key := by
  unfold entryToken at h
  split at h
  case isTrue hudpid =>
      obtain ⟨t, ht, h⟩ := Option.bind_eq_some_iff.mp h
      obtain ⟨k, hk, h⟩ := Option.bind_eq_some_iff.mp h
      cases h
      exact ⟨hudpid, by rw [ht]; rfl, by rw [hk]; rfl⟩
  case isFalse => cases h

/-- In the older cloud it stands under that very udpid. -/
theorem netHome_entryToken_eq_some {wanted : Str} {entry : Json} {token : Token}
    (h : NetHome.entryToken wanted entry = some token) :
    entry.strAt "udpId" = some wanted ∧ entry.strAt "token" = some token.token ∧
      entry.strAt "key" = some token.key := by
  unfold NetHome.entryToken at h
  split at h
  case isTrue hudpid =>
      obtain ⟨t, ht, h⟩ := Option.bind_eq_some_iff.mp h
      obtain ⟨k, hk, h⟩ := Option.bind_eq_some_iff.mp h
      cases h
      exact ⟨hudpid, ht, hk⟩
  case isFalse => cases h

/-- A token that is picked stands in an entry of the list that was answered. -/
theorem pickToken_eq_ok {answer : Json} {wanted : Str} {token : Token}
    (h : pickToken answer wanted = .ok token) :
    ∃ list entry, answer.arrayAt "tokenlist" = some list ∧ entry ∈ list ∧
      entryToken wanted entry = some token := by
  unfold pickToken at h
  split at h
  · cases h
  case h_2 list hlist =>
      split at h
      case h_1 found hfound =>
          cases h
          obtain ⟨entry, hmem, hentry⟩ := List.exists_of_findSome?_eq_some hfound
          exact ⟨list, entry, hlist, hmem, hentry⟩
      case h_2 => cases h

/-- A parameter that is put in is there. -/
theorem mem_insertSorted (key : String) (value : Str) (body : List (String × Str)) :
    (key, value) ∈ NetHome.insertSorted key value body := by
  induction body with
  | nil => exact List.mem_singleton_self _
  | cons field rest ih =>
      obtain ⟨k, v⟩ := field
      unfold NetHome.insertSorted
      split
      · exact List.mem_cons_self
      · split
        · exact List.mem_cons_self
        · exact List.mem_cons_of_mem _ ih

/-- So what a request is made from is in its parameters. -/
theorem mem_parameters (session : NetHome.Session) (stamp : Str) (key : String) (value : Str) :
    (key, value) ∈ NetHome.parameters session stamp [(key, value)] := by
  unfold NetHome.parameters
  rw [List.foldl_append]
  exact mem_insertSorted key value _

/-! ## One search -/

/-- Every request may be made. -/
theorem anything (now : List Exchange) (κ : Kind) (q : Question κ) :
    atPost (fun _ _ => True) now κ q :=
  posts_true κ q

/-- A search ends with the token that one of its questions ended with. -/
theorem keeps_tryOrders {P : List Exchange → Token → Prop} {ask : Bool → Conversation Token}
    (h : ∀ past order, Keeps (atPost fun _ _ => True) past (ask order) P fun _ _ => True)
    (last : Option CloudError) (orders : List Bool) :
    Keeps (atPost fun _ _ => True) past (tryOrders ask last orders) P fun _ _ => True := by
  induction orders generalizing past last with
  | nil => trivial
  | cons order orders ih =>
      refine keeps_bind.mpr (keeps_attempt.mpr ((h past order).weaken (fun now token ht => ht) ?_))
      intro now e _
      split
      case h_1 heq => cases heq
      · trivial
      · exact ih _

/-- A token that is answered to a request was asked for in it: the request has the udpid that the
entry stands under. -/
theorem keeps_askToken {deviceId : UInt64} {fields : Str → Fields → Fields}
    (hurl : "/iot/secure/getToken".toList <:+ endpoint.toList)
    (hudpid : ∀ wanted data,
      Fields.get? (fields wanted data) "udpid".toList = some (.string wanted)) :
    Keeps (atPost fun _ _ => True) past (askToken C client endpoint deviceId fields)
      (EndsWithToken C deviceId) fun _ _ => True := by
  refine keeps_tryOrders (fun past bigEndian => ?_) none _
  refine only_general.seq (fun _ _ _ hq => hq) (fun mid data _ _ => ?_) fun _ _ _ _ => trivial
  refine keeps_bind.mpr (keeps_request (fun mid' data' random _ hextends => ⟨trivial, fun r =>
    keeps_unwrap (fun text answer htext hanswer => ?_) fun _ _ _ => trivial⟩))
  refine keeps_ofExcept (fun token htoken => ?_) fun _ _ => trivial
  obtain ⟨list, entry, hlist, hentry, hgrant⟩ := pickToken_eq_ok htoken
  obtain ⟨hid, ht, hk⟩ := entryToken_eq_some hgrant
  exact ⟨_, bigEndian, _, r, rfl,
    ⟨hurl.trans (List.suffix_append _ _), .inl ⟨data', rfl, hextends _ _ (hudpid _ _)⟩⟩,
    text, answer, list, entry, htext, hlist, hentry, .inl ⟨hanswer, hid, ht, hk⟩⟩

/-- So was one that was found in some home, by induction on the homes. -/
theorem keeps_tokenFrom (deviceId : UInt64) (last : Option CloudError) (homes : List Str) :
    Keeps (atPost fun _ _ => True) past (Meiju.tokenFrom C client deviceId last homes)
      (EndsWithToken C deviceId) fun _ _ => True := by
  induction homes generalizing past last with
  | nil =>
      have hv1 : Keeps (atPost fun _ _ => True) past (Meiju.tokenV1 C client deviceId)
          (EndsWithToken C deviceId) fun _ _ => True :=
        keeps_askToken (by decide) fun wanted data => by
          rw [Fields.get?_insert, if_neg (by decide), Fields.get?_insert, if_pos rfl]
      exact keeps_bind.mpr (keeps_attempt.mpr (hv1.weaken (fun _ _ h => h) fun _ _ _ => trivial))
  | cons home homes ih =>
      have hin : Keeps (atPost fun _ _ => True) past (Meiju.tokenIn C client deviceId home)
          (EndsWithToken C deviceId) fun _ _ => True :=
        keeps_askToken (by decide) fun wanted data => by
          rw [Fields.get?_insert, if_neg (by decide), Fields.get?_insert, if_pos rfl]
      exact keeps_bind.mpr (keeps_attempt.mpr (hin.weaken (fun _ _ h => h) fun _ _ _ => ih _))

/-- And one that a session's search comes to. The clouds differ in where the token stands: in the
one entry, in a home's appliance, or in a list asked for under either byte order. -/
theorem keeps_token (deviceId : UInt64) (session : Session) :
    Keeps (atPost fun _ _ => True) past (session.token C deviceId) (EndsWithToken C deviceId)
      fun _ _ => True := by
  cases session with
  | smartHome client =>
      have hv1 : Keeps (atPost fun _ _ => True) past (SmartHome.token C client deviceId)
          (EndsWithToken C deviceId) fun _ _ => True :=
        keeps_askToken (by decide) fun wanted data => by
          rw [Fields.get?_insert, if_neg (by decide), Fields.get?_insert, if_pos rfl]
      exact hv1
  | meiju client =>
      exact (keeps_free anything _).seq fun now homes _ => keeps_tokenFrom deviceId none homes
  | netHomePlus session =>
      refine keeps_tryOrders (fun past bigEndian => ?_) none _
      refine keeps_bind.mpr (keeps_nethome (fun mid stamp _ => ⟨trivial,
        fun r text answer htext hanswer => ?_⟩) fun _ _ => trivial)
      split
      · trivial
      case h_2 list hlist =>
          split
          case h_1 token htoken =>
              obtain ⟨entry, hmem, hentry⟩ := List.exists_of_findSome?_eq_some htoken
              obtain ⟨hid, ht, hk⟩ := netHome_entryToken_eq_some hentry
              refine ⟨_, bigEndian, _, r, rfl, ⟨?_, .inr ⟨_, rfl, ?_⟩⟩, text, answer, list, entry,
                htext, hlist, hmem, .inr ⟨hanswer, hid, ht, hk⟩⟩
              · exact List.IsSuffix.trans (by decide) (List.suffix_append _ _)
              · exact List.mem_append_left _ (List.mem_map.mpr
                  ⟨("udpid", _), mem_parameters session stamp "udpid" _, rfl⟩)
          case h_2 => trivial

/-- And one that a fetch does, whichever cloud has it. -/
theorem keeps_fetched {credentials : Credentials} (deviceId : UInt64) (last : Option CloudError)
    (clouds : List Cloud) :
    Keeps (atPost fun _ _ => True) past (fetchFrom C credentials deviceId last clouds)
      (fun now found => EndsWithToken C deviceId now found.2) fun _ _ => True := by
  induction clouds generalizing past last with
  | nil => trivial
  | cons cloud clouds ih =>
      refine keeps_bind.mpr (keeps_attempt.mpr ((keeps_free anything _).weaken ?_
        fun _ e _ => ih _))
      intro now known _
      cases known with
      | true =>
          exact (keeps_free anything _).seq fun now session _ =>
            (keeps_token deviceId session).seq fun now token htoken => htoken
      | false => exact ih last

/-- A token that is returned was asked for by the udpid of the unit, and was in the answer under
that udpid. -/
theorem token_for_unit (C : Crates) (credentials : Credentials) (deviceId : UInt64)
    (log : List Exchange) (cloud : Cloud) (token : Token)
    (h : After (fetchTokenAny C credentials deviceId) log (done (cloud, token))) :
    EndsWithToken C deviceId log token :=
  (keeps_fetched deviceId none _).ended h

/-- The token in the world where the first cloud grants it is unit 1's. -/
theorem token_for_unit_generous :
    EndsWithToken plainCrates 1 (fetched 40).1 ⟨"ab".toList, "cd".toList⟩ := by
  refine token_for_unit plainCrates ⟨"me".toList, "pw".toList, []⟩ 1 _ .smartHome _ ?_
  have hdone : (fetched 40).2 = done (.smartHome, ⟨"ab".toList, "cd".toList⟩) :=
    outcome_eq_ok (by decide +kernel)
  exact hdone ▸ after_talkWith generous 40 _

/-! ## A search that fails -/

/-- A search asks about a unit in one byte order. -/
abbrev Asks := Bool → Request → Prop

/-- The talk has a question with this byte order. -/
def Tried (asks : Asks) (order : Bool) (log : List Exchange) : Prop :=
  ∃ q r, exchange q r ∈ log ∧ asks order q

/-- The talk has a refusal to a question with this byte order. -/
def RefusedAt (C : Crates) (asks : Asks) (order : Bool) (log : List Exchange) : Prop :=
  ∃ q r, exchange q r ∈ log ∧ asks order q ∧ Refuses C r

/-- Both byte orders were tried, but for what a refusal ended. -/
def Exhausted (C : Crates) (asks : Asks) (log : List Exchange) : Prop :=
  Tried asks false log ∧ (RefusedAt C asks false log ∨ Tried asks true log)

/-- A question for a unit's token, in one byte order. -/
def asksAt (C : Crates) (client : Client) (endpoint : String) (deviceId : UInt64)
    (home : Option Str) : Asks := fun order q =>
  q.url = client.base ++ endpoint.toList ∧ ∃ data, q.body = .text (C.toText (.object data)) ∧
    Fields.get? data "udpid".toList = some (.string (udpid C deviceId order)) ∧
    ∀ home', home = some home' →
      Fields.get? data "homegroupId".toList = some (.string home')

/-- That a list has no such token is no refusal of the cloud. -/
theorem pickToken_ne_api {answer : Json} {wanted message : Str} {code : Int} :
    pickToken answer wanted ≠ .error (.api code message) := by
  unfold pickToken
  split
  · exact nofun
  · split <;> exact nofun

/-- What a question that found nothing leaves behind. -/
theorem keeps_ask {deviceId : UInt64} {fields : Str → Fields → Fields} {home : Option Str}
    (hudpid : ∀ wanted data,
      Fields.get? (fields wanted data) "udpid".toList = some (.string wanted))
    (hhome : ∀ wanted data home', home = some home' →
      Fields.get? (fields wanted data) "homegroupId".toList = some (.string home'))
    (order : Bool) :
    Keeps (atPost fun _ _ => True) past (do
      let wanted := udpid C deviceId order
      let data ← client.general
      let answer ← client.request C endpoint (fields wanted data)
      Talk.ofExcept (pickToken answer wanted)) (fun _ _ => True)
      fun now e => ∃ q r, exchange q r ∈ now ∧ asksAt C client endpoint deviceId home order q ∧
        ∀ code message, e = .api code message → Refuses C r := by
  refine only_general.seq (fun _ _ _ hq => hq) (fun mid data _ _ => ?_) fun _ _ _ hlog =>
    absurd hlog sure_general.not_failed
  refine keeps_bind.mpr (keeps_request (fun mid' data' random _ hextends => ⟨trivial, fun r =>
    ?_⟩))
  have hasks : asksAt C client endpoint deviceId home order
      (client.requestWith C endpoint data' random) :=
    ⟨rfl, data', rfl, hextends _ _ (hudpid _ _), fun home' h => hextends _ _ (hhome _ _ home' h)⟩
  have hmem : ∀ past, exchange (client.requestWith C endpoint data' random) r ∈
      past ++ [exchange (client.requestWith C endpoint data' random) r] := fun past =>
    List.mem_append_right _ (List.mem_singleton_self _)
  refine keeps_unwrap (fun text answer _ _ => ?_) fun e _ he => ⟨_, r, hmem _, hasks, he⟩
  exact keeps_ofExcept (fun _ _ => trivial) fun e he => ⟨_, r, hmem _, hasks,
    fun code message hapi => absurd (hapi ▸ he) pickToken_ne_api⟩

variable {asks : Asks}

/-- What was asked in part of a log was asked in all of it. -/
theorem Exhausted.mono {log' : List Exchange} (h : Exhausted C asks log)
    (hsub : ∀ e ∈ log, e ∈ log') : Exhausted C asks log' := by
  obtain ⟨⟨q, r, hmem, hasks⟩, hsecond⟩ := h
  refine ⟨⟨q, r, hsub _ hmem, hasks⟩, ?_⟩
  rcases hsecond with ⟨q, r, hmem, hrest⟩ | ⟨q, r, hmem, hrest⟩
  · exact .inl ⟨q, r, hsub _ hmem, hrest⟩
  · exact .inr ⟨q, r, hsub _ hmem, hrest⟩

/-- A search that fails tried both byte orders, or was refused. An answer without the token tries
the other order, and the last failure is what is returned. -/
theorem keeps_exhausted {deviceId : UInt64} {fields : Str → Fields → Fields} {home : Option Str}
    (hudpid : ∀ wanted data,
      Fields.get? (fields wanted data) "udpid".toList = some (.string wanted))
    (hhome : ∀ wanted data home', home = some home' →
      Fields.get? (fields wanted data) "homegroupId".toList = some (.string home')) :
    Keeps (atPost fun _ _ => True) past (askToken C client endpoint deviceId fields)
      (fun _ _ => True)
      fun now _ => Exhausted C (asksAt C client endpoint deviceId home) now := by
  refine keeps_bind.mpr (keeps_attempt.mpr ((keeps_ask hudpid hhome false).weaken
    (fun _ _ _ => trivial) ?_))
  rintro now e ⟨q, r, hmem, hasks, hrefused⟩
  have htried : Tried (asksAt C client endpoint deviceId home) false now := ⟨q, r, hmem, hasks⟩
  split
  case h_1 heq => cases heq
  case h_2 code message heq =>
      exact ⟨htried, .inl ⟨q, r, hmem, hasks, hrefused code message (Except.error.inj heq)⟩⟩
  case h_3 =>
      refine keeps_bind.mpr (keeps_attempt.mpr ((keeps_ask hudpid hhome true).talk.weaken
        (fun _ _ _ => trivial) ?_))
      rintro later e' ⟨⟨q', r', hmem', hasks', -⟩, mid, rfl, -⟩
      have hexhausted : Exhausted C (asksAt C client endpoint deviceId home) (now ++ mid) :=
        ⟨⟨q, r, List.mem_append_left _ hmem, hasks⟩, .inr ⟨q', r', hmem', hasks'⟩⟩
      split
      case h_1 heq => cases heq
      · exact hexhausted
      · exact hexhausted

/-- Each home and then the old endpoint. By induction on the homes, as a home without the token
leads on to the next one. -/
theorem keeps_homes_exhausted (deviceId : UInt64) (last : Option CloudError) (homes : List Str) :
    Keeps (atPost fun _ _ => True) past (Meiju.tokenFrom C client deviceId last homes)
      (fun _ _ => True) fun now _ =>
        (∀ home ∈ homes, Exhausted C
          (asksAt C client "/v2/iot/secure/getToken" deviceId (some home)) now) ∧
        Exhausted C (asksAt C client "/v1/iot/secure/getToken" deviceId none) now := by
  induction homes generalizing past last with
  | nil =>
      have hv1 : Keeps (atPost fun _ _ => True) past (Meiju.tokenV1 C client deviceId)
          (fun _ _ => True) fun now _ => Exhausted C
            (asksAt C client "/v1/iot/secure/getToken" deviceId none) now :=
        keeps_exhausted (fun wanted data => by
          rw [Fields.get?_insert, if_neg (by decide), Fields.get?_insert, if_pos rfl]) nofun
      exact keeps_bind.mpr (keeps_attempt.mpr (hv1.weaken (fun _ _ _ => trivial)
        fun _ _ h => ⟨List.forall_mem_nil _, h⟩))
  | cons home homes ih =>
      have hin : Keeps (atPost fun _ _ => True) past (Meiju.tokenIn C client deviceId home)
          (fun _ _ => True) fun now _ => Exhausted C
            (asksAt C client "/v2/iot/secure/getToken" deviceId (some home)) now :=
        keeps_exhausted
          (fun wanted data => by
            rw [Fields.get?_insert, if_neg (by decide), Fields.get?_insert, if_pos rfl])
          (fun wanted data home' heq => by
            cases heq
            rw [Fields.get?_insert, if_neg (by decide), Fields.get?_insert, if_neg (by decide),
              Fields.get?_insert, if_pos rfl])
      refine keeps_bind.mpr (keeps_attempt.mpr (hin.weaken (fun _ _ _ => trivial)
        fun now e h => ?_))
      refine (ih (some e)).talk.weaken (fun _ _ _ => trivial) ?_
      rintro later e' ⟨⟨hhomes, hv1⟩, mid, rfl, -⟩
      exact ⟨List.forall_mem_cons.mpr ⟨h.mono fun _ he => List.mem_append_left _ he, hhomes⟩, hv1⟩

/-- A search over the homes that fails, once they are listed, went through each of them in both
byte orders and then through the old endpoint, but for what a refusal ended. -/
theorem homes_exhausted (C : Crates) (client : Client) (deviceId : UInt64) (log : List Exchange)
    (e : CloudError) (h : After (Meiju.token C client deviceId) log (failed e)) :
    After (Meiju.homes C client) log (failed e) ∨
      ∃ homes before after, log = before ++ after ∧
        After (Meiju.homes C client) before (done homes) ∧
        (∀ home ∈ homes, Exhausted C
          (asksAt C client "/v2/iot/secure/getToken" deviceId (some home)) log) ∧
        Exhausted C (asksAt C client "/v1/iot/secure/getToken" deviceId none) log := by
  refine Keeps.stopped (G := atPost fun _ _ => True) (P := fun _ _ => True)
    (E := fun now e => After (Meiju.homes C client) now (failed e) ∨
      ∃ homes before after, now = before ++ after ∧
        After (Meiju.homes C client) before (done homes) ∧
        (∀ home ∈ homes, Exhausted C
          (asksAt C client "/v2/iot/secure/getToken" deviceId (some home)) now) ∧
        Exhausted C (asksAt C client "/v1/iot/secure/getToken" deviceId none) now) ?_ h
  refine keeps_bind.mpr ((keeps_free anything (Meiju.homes C client)).talk.weaken ?_ ?_)
  · rintro now homes ⟨-, mid, hnow, hmid⟩
    obtain rfl : now = mid := hnow
    refine (keeps_homes_exhausted deviceId none homes).talk.weaken (fun _ _ _ => trivial) ?_
    rintro later e' ⟨⟨hhomes, hv1⟩, after, rfl, -⟩
    exact .inr ⟨homes, now, after, rfl, hmid, hhomes, hv1⟩
  · rintro now e' ⟨-, mid, hnow, hmid⟩
    obtain rfl : now = mid := hnow
    exact .inl hmid

/-- One home, and answers that list no tokens. -/
def stingy : (κ : Kind) → Question κ → Answer κ
  | .time, _ => some 1790000000
  | .entropy, n => some (List.replicate n 7)
  | .post, q =>
      if "/homegroup/list/get".toList.isSuffixOf q.url then .answered (.ok homesText)
      else .answered (.ok loginIdText)

/-- A search with a cloud that has one home and no token. -/
def searched : List Exchange × Conversation Token :=
  talkWith stingy 40 (Meiju.token plainCrates (Meiju.clientAt plainCrates [] none) 1)

/-- It fails, and has asked everything. -/
theorem homes_exhausted_stingy :
    After (Meiju.homes plainCrates (Meiju.clientAt plainCrates [] none)) searched.1
        (failed (.malformed "no tokenlist in the response".toList)) ∨
      ∃ homes before after, searched.1 = before ++ after ∧
        After (Meiju.homes plainCrates (Meiju.clientAt plainCrates [] none)) before (done homes) ∧
        (∀ home ∈ homes, Exhausted plainCrates (asksAt plainCrates
          (Meiju.clientAt plainCrates [] none) "/v2/iot/secure/getToken" 1 (some home))
          searched.1) ∧
        Exhausted plainCrates (asksAt plainCrates (Meiju.clientAt plainCrates [] none)
          "/v1/iot/secure/getToken" 1 none) searched.1 := by
  refine homes_exhausted plainCrates (Meiju.clientAt plainCrates [] none) 1 searched.1 _ ?_
  have hfailed : searched.2 = failed (.malformed "no tokenlist in the response".toList) :=
    outcome_eq_error (by decide +kernel)
  exact hfailed ▸ after_talkWith stingy 40 _

end BreezeCloud
