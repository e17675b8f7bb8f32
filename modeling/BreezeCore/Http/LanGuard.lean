import BreezeCore.Http.Server

/-!
# What the administrative guard goes by

A proxy adds the address it saw behind everything the client sent, on the
client's line or on a line of its own.  The guard reads the first forwarded line
a request has.

* `guardAddress_read` — the address comes from the last entry of that line;
* `lan_guard_iff` — it is the last entry of all exactly when the first line and
  the last end in entries of one address, and then nothing in front of the last
  entry has a say.
-/

namespace BreezeHttp

open Text Net BreezeAuth

def isForwarded (line : Str × Str) : Bool :=
  toAsciiLowercase line.1 = "x-forwarded-for".toList

/-- The forwarded lines of a request, in order. -/
def Request.forwardedLines (request : Request) : List Str :=
  (request.headers.filter isForwarded).map Prod.snd

/-- Their entries, all in one list. -/
def Request.forwardedEntries (request : Request) : List Str :=
  request.forwardedLines.flatMap (split ',')

/-- The address of the last entry, and the peer's without one. -/
def Request.lastForwarded (request : Request) : Option IpAddr :=
  match request.forwardedEntries.getLast? with
  | some entry => entryAddress request.remoteAddr entry
  | none => request.remoteAddr

/-- The first forwarded line and the last end in entries of one address, as they
do when there is but one line. -/
def Request.LinesAgree (request : Request) : Prop :=
  ∀ first last, request.forwardedLines.head? = some first →
    request.forwardedLines.getLast? = some last →
    entryAddress request.remoteAddr (lastPiece ',' first) =
      entryAddress request.remoteAddr (lastPiece ',' last)

/-- Two requests that differ in nothing but forwarded entries before the last,
and in white space around that one. -/
structure SameButEarlier (r r' : Request) : Prop where
  method : r'.method = r.method
  url : r'.url = r.url
  remoteAddr : r'.remoteAddr = r.remoteAddr
  body : r'.body = r.body
  httpVersion : r'.httpVersion = r.httpVersion
  otherHeaders : (r'.headers.filter fun line => ! isForwarded line) =
    r.headers.filter fun line => ! isForwarded line
  lastEntry : r'.forwardedEntries.getLast?.map trim = r.forwardedEntries.getLast?.map trim

/-! ## Reading the headers -/

theorem header_eq_head? (headers : List (Str × Str)) (name : String) :
    header headers name =
      ((headers.filter fun h => toAsciiLowercase h.1 = name.toList).map Prod.snd).head? := by
  rw [header, ← List.head?_filter, List.head?_map]

theorem forwardedFor_read (request : Request) :
    (Incoming.read request).forwardedFor = request.forwardedLines.head? :=
  header_eq_head? request.headers "x-forwarded-for"

/-- A header of another name is found among the other lines. -/
theorem header_filter_not_forwarded (headers : List (Str × Str)) {name : String}
    (hname : name.toList ≠ "x-forwarded-for".toList) :
    header (headers.filter fun line => ! isForwarded line) name = header headers name := by
  rw [header_eq_head?, header_eq_head?, List.filter_filter]
  congr 2
  apply List.filter_congr
  intro line _
  by_cases hline : toAsciiLowercase line.1 = name.toList
  · have hother : isForwarded line = false := by
      rw [isForwarded, hline]
      exact decide_eq_false hname
    simp [hline, hother]
  · simp [hline]

/-- The last of all entries ends the last line. -/
theorem getLast?_entries (lines : List Str) :
    (lines.flatMap (split ',')).getLast? = lines.getLast?.map (lastPiece ',') := by
  rcases List.eq_nil_or_concat lines with rfl | ⟨init, last, rfl⟩
  · rfl
  · rw [List.concat_eq_append, List.flatMap_append, List.getLast?_append, List.getLast?_concat,
      List.flatMap_singleton, getLast?_split, Option.some_or, Option.map_some]

/-- **The address the guard decides on** comes from the first forwarded line. -/
theorem guardAddress_read (state : AppState) (hproxy : state.behindProxy = true)
    (request : Request) :
    guardAddress state (Incoming.read request) =
      match request.forwardedLines.head? with
      | some first => entryAddress request.remoteAddr (lastPiece ',' first)
      | none => request.remoteAddr := by
  have hread : guardAddress state (Incoming.read request) =
      clientIp request.remoteAddr (Incoming.read request).forwardedFor state.behindProxy := rfl
  rw [hread, hproxy, forwardedFor_read]
  cases request.forwardedLines.head? with
  | none => rfl
  | some first => rfl

theorem lastForwarded_eq (request : Request) :
    request.lastForwarded =
      match request.forwardedLines.getLast? with
      | some last => entryAddress request.remoteAddr (lastPiece ',' last)
      | none => request.remoteAddr := by
  unfold Request.lastForwarded Request.forwardedEntries
  rw [getLast?_entries]
  cases request.forwardedLines.getLast? <;> rfl

/-- What stands in front of the last entry does not reach its address. -/
theorem lastForwarded_congr {r r' : Request} (h : SameButEarlier r r') :
    r'.lastForwarded = r.lastForwarded := by
  have hlast := h.lastEntry
  unfold Request.lastForwarded
  rw [h.remoteAddr]
  cases hr : r.forwardedEntries.getLast? with
  | none =>
      rw [hr, Option.map_none, Option.map_eq_none_iff] at hlast
      rw [hlast]
  | some entry =>
      rw [hr, Option.map_some, Option.map_eq_some_iff] at hlast
      obtain ⟨entry', hr', htrim⟩ := hlast
      simp only [hr', entryAddress, htrim]

/-- The guard goes by the last entry exactly when the lines agree. It reads the first line alone,
so that further lines count only where their last entry is the same. -/
theorem guardAddress_eq_lastForwarded_iff (state : AppState) (hproxy : state.behindProxy = true)
    (request : Request) :
    guardAddress state (Incoming.read request) = request.lastForwarded ↔ request.LinesAgree := by
  rw [guardAddress_read state hproxy, lastForwarded_eq]
  unfold Request.LinesAgree
  rcases List.eq_nil_or_concat request.forwardedLines with hnil | ⟨init, last, hlast⟩
  · rw [hnil]
    simp
  · obtain ⟨first, hfirst⟩ : ∃ first, request.forwardedLines.head? = some first := by
      rw [hlast]
      cases init with
      | nil => exact ⟨last, rfl⟩
      | cons first init => exact ⟨first, rfl⟩
    have hend : request.forwardedLines.getLast? = some last := by
      rw [hlast, List.concat_eq_append, List.getLast?_concat]
    rw [hfirst, hend]
    constructor
    · rintro h first' last' hfirst' hlast'
      obtain rfl := Option.some.inj hfirst'
      obtain rfl := Option.some.inj hlast'
      exact h
    · intro h
      exact h first last rfl rfl

/-- A request with at most one forwarded line agrees with itself. -/
theorem linesAgree_of_length_le_one {request : Request}
    (h : request.forwardedLines.length ≤ 1) : request.LinesAgree := by
  intro first last hfirst hlast
  match hlines : request.forwardedLines, h with
  | [], _ => rw [hlines] at hfirst; cases hfirst
  | [line], _ =>
      rw [hlines] at hfirst hlast
      obtain rfl := Option.some.inj hfirst
      obtain rfl := Option.some.inj hlast
      rfl

/-! ## The decision -/

variable (C : Crypto)

/-- What the administrative guard answers depends on the API key and the address
alone. -/
theorem authorise_adminLan_congr {state : AppState} {incoming incoming' : Incoming} (now : ℚ)
    (hkey : incoming'.apiKey = incoming.apiKey)
    (haddress : guardAddress state incoming' = guardAddress state incoming) :
    authorise C state incoming' .adminLan now = authorise C state incoming .adminLan now := by
  unfold authorise
  rw [hkey, haddress]

/-- **What the LAN guard decides on, behind a proxy.**  It is the address of the
last forwarded entry exactly when the first line and the last agree; requests
that do get one decision whatever stands before the last entry. -/
theorem lan_guard_iff (state : AppState) (hproxy : state.behindProxy = true) (now : ℚ) :
    (∀ request : Request, guardAddress state (Incoming.read request) = request.lastForwarded ↔
      request.LinesAgree) ∧
    (∀ r r' : Request, r.LinesAgree → r'.LinesAgree → SameButEarlier r r' →
      authorise C state (Incoming.read r') .adminLan now =
        authorise C state (Incoming.read r) .adminLan now) := by
  refine ⟨guardAddress_eq_lastForwarded_iff state hproxy, ?_⟩
  intro r r' hr hr' hsame
  have hkey : (Incoming.read r').apiKey = (Incoming.read r).apiKey := by
    have hname : "x-api-key".toList ≠ "x-forwarded-for".toList := by decide
    calc (Incoming.read r').apiKey
        = header (r'.headers.filter fun line => ! isForwarded line) "x-api-key" :=
          (header_filter_not_forwarded r'.headers hname).symm
      _ = header (r.headers.filter fun line => ! isForwarded line) "x-api-key" := by
          rw [hsame.otherHeaders]
      _ = (Incoming.read r).apiKey := header_filter_not_forwarded r.headers hname
  apply authorise_adminLan_congr C now hkey
  rw [(guardAddress_eq_lastForwarded_iff state hproxy r').mpr hr',
    (guardAddress_eq_lastForwarded_iff state hproxy r).mpr hr]
  exact lastForwarded_congr hsame

/-- A server behind a proxy on its own machine. -/
def proxiedState : AppState :=
  { behindProxy := true, apiKey := some "key".toList, verifier := ⟨1⟩
    nonces := { skewSeconds := 60 } }

/-- An approval that reached the proxy from 203.0.113.9. -/
def proxiedRequest (forwarded : List String) : Request :=
  { method := "POST".toList, url := "/api/auth/enroll/approve".toList
    remoteAddr := some (.v4 ⟨127, 0, 0, 1⟩)
    headers := ("X-API-Key".toList, "key".toList) ::
      forwarded.map fun line => ("X-Forwarded-For".toList, line.toList) }

/-- Behind a proxy that appends to the line, what the client wrote in front of the last entry
makes no difference. -/
theorem lan_guard_appending_proxy :
    authorise oneSigner proxiedState
        (Incoming.read (proxiedRequest ["192.168.1.5, 203.0.113.9"])) .adminLan 0 =
      authorise oneSigner proxiedState (Incoming.read (proxiedRequest ["203.0.113.9"]))
        .adminLan 0 := by
  refine (lan_guard_iff oneSigner proxiedState rfl 0).2 _ _
    (linesAgree_of_length_le_one ?_) (linesAgree_of_length_le_one ?_)
    ⟨rfl, rfl, rfl, rfl, rfl, ?_, ?_⟩
  all_goals decide +kernel

/-- A client's own line in front of the proxy's passes for the LAN. -/
theorem lan_guard_reads_client_line :
    guardAddress proxiedState
        (Incoming.read (proxiedRequest ["192.168.1.5", "203.0.113.9"])) ≠
      (proxiedRequest ["192.168.1.5", "203.0.113.9"]).lastForwarded ∧
    SameButEarlier (proxiedRequest ["203.0.113.9"])
      (proxiedRequest ["192.168.1.5", "203.0.113.9"]) ∧
    (authorise oneSigner proxiedState
      (Incoming.read (proxiedRequest ["192.168.1.5", "203.0.113.9"])) .adminLan 0).1 =
        .ok none ∧
    (authorise oneSigner proxiedState
      (Incoming.read (proxiedRequest ["203.0.113.9"])) .adminLan 0).1 =
        .error (.detail 403 "this admin action must come from the local network") := by
  refine ⟨?_, ⟨rfl, rfl, rfl, rfl, rfl, ?_, ?_⟩, ?_, ?_⟩
  all_goals decide +kernel

end BreezeHttp
