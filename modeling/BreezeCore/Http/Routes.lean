import BreezeCore.Http.Server
import Mathlib.Data.List.TakeWhile

/-!
# The routing table

A method and a path lead to a guard and a handler.  Two special paths and a list
of fixed ones come first, then the patterns that take an id out of the path.

`offers` says once what a path is: the stream, or a table of the methods it answers.
The method named by a not-allowed answer is the first of that table, so it works; and
a fixed path never reaches a pattern.
-/

namespace BreezeHttp

open Text

/-- The functions that answer a request. -/
inductive Handler where
  | health
  | version
  | metrics
  | units
  | allStates
  | config
  | system
  | addUnit
  | enrollStart
  | enrollPoll
  | enrollApprove
  | listDevices
  | revokeDevice
  | whoami
  | upgrade
  | timerStatus
  | timersList
  | timerCreate
  | timerCancel
  | programStatus
  | programsList
  | programCreate
  | programGet
  | programUpdate
  | programDelete
  | programApply
  | scan
  | renameUnit
  | deleteUnit
  | unitState
  | unitCapabilities
  | unitHistory
  | control
  deriving DecidableEq, Repr

/-! ## What a handler takes from the path -/

/-- The id in `/api/programs/{id}`. -/
def programIdFrom (path : Str) : Str := (path.dropPrefix? "/api/programs/".toList).getD []

/-- The raw `{id}` segment of `/api/units/{id}/...`. -/
def unitSegment (path : Str) : Str :=
  match path.dropPrefix? "/api/units/".toList with
  | some rest => rest.takeWhile (· ≠ '/')
  | none => []

/-- The id a handler takes out of the path, for those that take one. -/
def Handler.idFrom : Handler → Option (Str → Str)
  | .timerCancel => some fun path => (path.dropPrefix? "/api/timers/".toList).getD []
  | .programGet | .programUpdate | .programDelete => some programIdFrom
  | .programApply =>
      some fun path => ((programIdFrom path).dropSuffix? "/apply".toList).getD []
  | .revokeDevice => some fun path => (path.dropPrefix? "/api/auth/devices/".toList).getD []
  | .renameUnit | .deleteUnit | .unitState | .unitCapabilities | .unitHistory | .control =>
      some unitSegment
  | _ => none

/-! ## What a handler reads and writes -/

/-- The parts of the server's state. -/
inductive Part where
  /-- The configured units. -/
  | config
  /-- The units themselves, on the network. -/
  | manager
  /-- Their last readings. -/
  | history
  | timers
  | programs
  /-- The timer runner's counters. -/
  | runner
  | scheduler
  | stream
  | devices
  | enrollment
  deriving DecidableEq, Repr

/-- The parts a handler reads or writes. -/
def Handler.uses : Handler → List Part
  | .health => []
  | .version => [.manager]
  | .metrics => [.config, .manager, .history, .scheduler]
  | .units => [.manager]
  | .allStates => [.manager, .history]
  | .config => [.config]
  | .system => [.config, .manager, .history, .programs, .scheduler, .stream, .devices]
  | .addUnit => [.config, .manager]
  | .enrollStart | .enrollPoll => [.enrollment]
  | .enrollApprove => [.enrollment, .devices]
  | .listDevices | .revokeDevice | .whoami | .upgrade => [.devices]
  | .timerStatus => [.runner, .timers]
  | .timersList | .timerCancel => [.timers]
  | .timerCreate => [.manager, .timers]
  | .programStatus => [.scheduler]
  | .programsList | .programCreate | .programGet | .programUpdate | .programDelete => [.programs]
  | .programApply => [.programs, .manager]
  | .scan => [.config]
  | .renameUnit => [.config]
  | .deleteUnit => [.config, .manager]
  | .unitState | .unitHistory => [.manager, .history]
  | .unitCapabilities | .control => [.manager]

/-- It reads or writes a unit, a timer or a program. -/
def Handler.touches (handler : Handler) : Bool :=
  handler.uses.any fun part =>
    part ∈ [Part.config, Part.manager, Part.history, Part.timers, Part.programs]

/-- It approves an enrolment, or manages the devices. -/
def Handler.administers (handler : Handler) : Bool :=
  handler ∈ [Handler.enrollApprove, Handler.listDevices, Handler.revokeDevice]

/-! ## The table -/

/-- What a method and a path come to. -/
inductive Resolved where
  | route (guard : Guard) (handler : Handler)
  /-- The path exists but not under this method. -/
  | methodNotAllowed (allow : Str)
  | notFound
  /-- The connection is handed over rather than answered with a body. -/
  | stream (guard : Guard)
  deriving DecidableEq, Repr

/-- A row of the list of fixed paths. -/
structure FixedPath where
  method : String
  path : String
  guard : Guard
  handler : Handler

/-- The paths that are given in full, in the order in which they are tried. -/
def fixed : List FixedPath :=
  [⟨"GET", "/api/health", .openToAll, .health⟩,
    ⟨"GET", "/api/version", .apiKey, .version⟩,
    ⟨"GET", "/metrics", .apiKey, .metrics⟩,
    ⟨"GET", "/api/units", .full, .units⟩,
    ⟨"GET", "/api/units/state", .full, .allStates⟩,
    ⟨"GET", "/api/config", .full, .config⟩,
    ⟨"GET", "/api/system", .full, .system⟩,
    ⟨"POST", "/api/units", .full, .addUnit⟩,
    ⟨"POST", "/api/auth/enroll/start", .apiKey, .enrollStart⟩,
    ⟨"POST", "/api/auth/enroll/poll", .apiKey, .enrollPoll⟩,
    ⟨"POST", "/api/auth/enroll/approve", .adminLan, .enrollApprove⟩,
    ⟨"GET", "/api/auth/devices", .adminLan, .listDevices⟩,
    ⟨"GET", "/api/auth/whoami", .full, .whoami⟩,
    ⟨"POST", "/api/auth/upgrade", .full, .upgrade⟩,
    ⟨"GET", "/api/timers/status", .full, .timerStatus⟩,
    ⟨"GET", "/api/timers", .full, .timersList⟩,
    ⟨"POST", "/api/timers", .full, .timerCreate⟩,
    ⟨"GET", "/api/programs/status", .full, .programStatus⟩,
    ⟨"GET", "/api/programs", .full, .programsList⟩,
    ⟨"POST", "/api/programs", .full, .programCreate⟩]

/-- A path that answers one method. -/
def only (method : Str) (verb : String) (guard : Guard) (handler : Handler) : Resolved :=
  if method = verb.toList then .route guard handler else .methodNotAllowed verb.toList

/-- `{id}` of a timer. -/
def resolveTimer (method timerId : Str) : Resolved :=
  if timerId = [] ∨ '/' ∈ timerId then .notFound
  else only method "DELETE" .full .timerCancel

/-- Either `{id}` or `{id}/apply` of a program, nothing else. -/
def resolveProgram (method rest : Str) : Resolved :=
  match rest.dropSuffix? "/apply".toList with
  | some id =>
      if id = [] ∨ '/' ∈ id then .notFound
      else only method "POST" .full .programApply
  | none =>
      if rest = [] ∨ '/' ∈ rest then .notFound
      else if method = "GET".toList then .route .full .programGet
      else if method = "PUT".toList then .route .full .programUpdate
      else if method = "DELETE".toList then .route .full .programDelete
      else .methodNotAllowed "GET".toList

/-- `{id}` of a device. -/
def resolveDevice (method tokenId : Str) : Resolved :=
  if tokenId = [] ∨ '/' ∈ tokenId then .notFound
  else only method "DELETE" .adminLan .revokeDevice

/-- `{id}` of a unit, or `{id}/{action}`. An empty id is no unit, and an action that is not known
is not found with any method. -/
def resolveUnit (method rest : Str) : Resolved :=
  match splitOnce '/' rest with
  | none =>
      if rest = [] then .notFound
      else if method = "PATCH".toList then .route .full .renameUnit
      else if method = "DELETE".toList then .route .full .deleteUnit
      else .methodNotAllowed "PATCH".toList
  | some (_, tail) =>
      if tail = "state".toList then only method "GET" .full .unitState
      else if tail = "capabilities".toList then only method "GET" .full .unitCapabilities
      else if tail = "history".toList then only method "GET" .full .unitHistory
      else if tail = "control".toList then only method "POST" .full .control
      else .notFound

/-- The patterns behind the fixed paths. Each prefix has its own function for what is behind it,
and the first prefix that fits is the one. -/
def resolvePattern (method path : Str) : Resolved :=
  match path.dropPrefix? "/api/timers/".toList with
  | some timerId => resolveTimer method timerId
  | none =>
    match path.dropPrefix? "/api/programs/".toList with
    | some rest => resolveProgram method rest
    | none =>
      match path.dropPrefix? "/api/auth/devices/".toList with
      | some tokenId => resolveDevice method tokenId
      | none =>
        match path.dropPrefix? "/api/units/".toList with
        | some rest => resolveUnit method rest
        | none => .notFound

/-- Match a method and path to a guard and a handler. The stream and the scan come first, as their
paths would be read as the id of a unit. -/
def resolve (method path : Str) : Resolved :=
  if path = "/api/units/stream".toList then
    if method = "GET".toList then .stream .full else .methodNotAllowed "GET".toList
  else if path = "/api/units/scan".toList then only method "GET" .full .scan
  else
    -- Two passes, because one path may accept more than one method.
    match fixed.find? fun row => row.path.toList = path && row.method.toList = method with
    | some row => .route row.guard row.handler
    | none =>
        match fixed.find? fun row => row.path.toList = path with
        | some row => .methodNotAllowed row.method.toList
        | none => resolvePattern method path

/-- The paths that name a thing of their own. -/
def fixedPaths : List Str :=
  "/api/units/stream".toList :: "/api/units/scan".toList :: fixed.map fun row => row.path.toList

/-! ## The methods of a path -/

/-- A method a path answers, and what it leads to. -/
structure Choice where
  method : Str
  guard : Guard
  handler : Handler

/-- The first choice under this method; failing that, `allow` is named. -/
def offerOr (allow method : Str) : List Choice → Resolved
  | [] => .methodNotAllowed allow
  | choice :: rest =>
      if method = choice.method then .route choice.guard choice.handler
      else offerOr allow method rest

/-- A table of choices, where the first names its own method. -/
def offer (method : Str) : List Choice → Resolved
  | [] => .notFound
  | first :: rest => offerOr first.method method (first :: rest)

/-- The first choice for the method, or a refusal that names the methods there are. -/
theorem offerOr_eq (allow method : Str) (choices : List Choice) :
    offerOr allow method choices =
      match choices.find? fun choice => choice.method = method with
      | some choice => .route choice.guard choice.handler
      | none => .methodNotAllowed allow := by
  induction choices with
  | nil => rfl
  | cons choice rest ih =>
      by_cases h : method = choice.method
      · rw [offerOr, if_pos h, List.find?_cons, decide_eq_true h.symm]
      · rw [offerOr, if_neg h, List.find?_cons, decide_eq_false (Ne.symm h), ih]

/-- A route is one of the choices, under its own method. -/
theorem mem_of_offer_route {method : Str} {choices : List Choice} {guard : Guard}
    {handler : Handler} (h : offer method choices = .route guard handler) :
    ∃ choice ∈ choices, choice.method = method ∧ choice.guard = guard ∧
      choice.handler = handler := by
  cases choices with
  | nil => cases h
  | cons first rest =>
      rw [offer, offerOr_eq] at h
      split at h
      · next choice hfind =>
          obtain ⟨rfl, rfl⟩ := Resolved.route.inj h
          have hmethod := List.find?_some hfind
          exact ⟨choice, List.mem_of_find?_eq_some hfind, of_decide_eq_true hmethod, rfl, rfl⟩
      · cases h

/-- **The method that is named works.** -/
theorem offer_named {method allow : Str} {choices : List Choice}
    (h : offer method choices = .methodNotAllowed allow) :
    ∃ guard handler, offer allow choices = .route guard handler := by
  cases choices with
  | nil => cases h
  | cons first rest =>
      rw [offer, offerOr_eq] at h
      split at h
      · cases h
      · obtain rfl := Resolved.methodNotAllowed.inj h
        exact ⟨first.guard, first.handler, by rw [offer, offerOr, if_pos rfl]⟩

/-- A choice of handlers is not the stream. -/
theorem offer_ne_stream (method : Str) (choices : List Choice) (guard : Guard) :
    offer method choices ≠ .stream guard := by
  intro h
  cases choices with
  | nil => cases h
  | cons first rest =>
      rw [offer, offerOr_eq] at h
      split at h <;> cases h

/-! ## The patterns -/

/-- A guard is what the handler behind it needs. -/
def Guarded (guard : Guard) (handler : Handler) : Prop :=
  (handler.touches = true → guard = .full) ∧ (handler.administers = true → guard = .adminLan)

instance (guard : Guard) (handler : Handler) : Decidable (Guarded guard handler) := by
  unfold Guarded
  infer_instance

/-- A path whose answers are a table of well-guarded choices, none of them open. -/
def Closed (answer : Str → Resolved) : Prop :=
  ∃ choices, (∀ method, answer method = offer method choices) ∧
    ∀ choice ∈ choices, Guarded choice.guard choice.handler ∧ choice.guard ≠ .openToAll

/-- Where there is nothing, nothing is open. -/
theorem closed_notFound : Closed fun _ => .notFound :=
  ⟨[], fun _ => rfl, fun _ h => absurd h List.not_mem_nil⟩

/-- A single handler is a choice of one. -/
theorem only_offer (method : Str) (verb : String) (guard : Guard) (handler : Handler) :
    only method verb guard handler = offer method [⟨verb.toList, guard, handler⟩] := rfl

/-- A handler that is guarded as it should be, behind any guard, is not open. -/
theorem closed_only (verb : String) {guard : Guard} {handler : Handler}
    (hguarded : Guarded guard handler) (hopen : guard ≠ .openToAll) :
    Closed fun method => only method verb guard handler := by
  refine ⟨[⟨verb.toList, guard, handler⟩], fun method => only_offer method verb guard handler, ?_⟩
  intro choice hmem
  obtain rfl := List.mem_singleton.mp hmem
  exact ⟨hguarded, hopen⟩

/-- An id that is empty or holds a slash is nothing. -/
theorem closed_ite {answer : Str → Resolved} {p : Prop} [Decidable p] (h : Closed answer) :
    Closed fun method => if p then .notFound else answer method := by
  by_cases hp : p
  · simpa only [if_pos hp] using closed_notFound
  · simpa only [if_neg hp] using h

/-- The routes of one timer are guarded. -/
theorem closed_resolveTimer (timerId : Str) : Closed fun method => resolveTimer method timerId :=
  closed_ite (closed_only "DELETE" (by decide) (by decide))

/-- The methods of the path of one device do not depend on the one that is asked for. -/
theorem closed_resolveDevice (tokenId : Str) :
    Closed fun method => resolveDevice method tokenId :=
  closed_ite (closed_only "DELETE" (by decide) (by decide))

/-- The three methods of a program, and the one of its application. -/
theorem closed_resolveProgram (rest : Str) : Closed fun method => resolveProgram method rest := by
  unfold resolveProgram
  cases rest.dropSuffix? "/apply".toList with
  | some id => exact closed_ite (closed_only "POST" (by decide) (by decide))
  | none =>
      apply closed_ite
      exact ⟨[⟨"GET".toList, .full, .programGet⟩, ⟨"PUT".toList, .full, .programUpdate⟩,
        ⟨"DELETE".toList, .full, .programDelete⟩], fun _ => rfl, by decide⟩

/-- The two methods of a unit, and the one of each of its actions. The path decides first, so that
the methods on offer do not depend on the method that is asked for. -/
theorem closed_resolveUnit (rest : Str) : Closed fun method => resolveUnit method rest := by
  unfold resolveUnit
  cases splitOnce '/' rest with
  | none =>
      apply closed_ite
      exact ⟨[⟨"PATCH".toList, .full, .renameUnit⟩, ⟨"DELETE".toList, .full, .deleteUnit⟩],
        fun _ => rfl, by decide⟩
  | some parts =>
      by_cases hstate : parts.2 = "state".toList
      · simpa only [if_pos hstate] using closed_only "GET" (by decide) (by decide)
      by_cases hcapabilities : parts.2 = "capabilities".toList
      · simpa only [if_neg hstate, if_pos hcapabilities] using
          closed_only "GET" (by decide) (by decide)
      by_cases hhistory : parts.2 = "history".toList
      · simpa only [if_neg hstate, if_neg hcapabilities, if_pos hhistory] using
          closed_only "GET" (by decide) (by decide)
      by_cases hcontrol : parts.2 = "control".toList
      · simpa only [if_neg hstate, if_neg hcapabilities, if_neg hhistory, if_pos hcontrol] using
          closed_only "POST" (by decide) (by decide)
      · simpa only [if_neg hstate, if_neg hcapabilities, if_neg hhistory, if_neg hcontrol] using
          closed_notFound

/-- So are all of those with an id in their path, by the cases of the path. -/
theorem closed_resolvePattern (path : Str) : Closed fun method => resolvePattern method path := by
  unfold resolvePattern
  cases path.dropPrefix? "/api/timers/".toList with
  | some timerId => exact closed_resolveTimer timerId
  | none =>
    cases path.dropPrefix? "/api/programs/".toList with
    | some rest => exact closed_resolveProgram rest
    | none =>
      cases path.dropPrefix? "/api/auth/devices/".toList with
      | some tokenId => exact closed_resolveDevice tokenId
      | none =>
        cases path.dropPrefix? "/api/units/".toList with
        | some rest => exact closed_resolveUnit rest
        | none => exact closed_notFound

/-! ## The whole table -/

/-- A row of the table, as a choice at its path. -/
def FixedPath.choice (row : FixedPath) : Choice := ⟨row.method.toList, row.guard, row.handler⟩

/-- The rows of the list for a path. -/
def fixedAt (path : Str) : List FixedPath := fixed.filter fun row => row.path.toList = path

/-- The reports that the API key alone opens: they give the number of units, and
what was last read of them. -/
def keyedReports : List Str := ["/api/version".toList, "/metrics".toList]

/-- The rows at a path. -/
theorem mem_fixedAt {path : Str} {row : FixedPath} :
    row ∈ fixedAt path ↔ row ∈ fixed ∧ row.path.toList = path := by
  rw [fixedAt, List.mem_filter, decide_eq_true_iff]

/-- A path is the stream, or it offers a table of choices: those of the fixed
paths, which take no id, or those of a pattern, which no fixed path reaches. -/
inductive Offers (path : Str) : Prop where
  | stream (hpath : path = "/api/units/stream".toList)
  | fixed (choices : List Choice) (h : ∀ method, resolve method path = offer method choices)
      (hguarded : ∀ choice ∈ choices, Guarded choice.guard choice.handler ∨
        (choice.guard = .apiKey ∧ choice.handler.administers = false ∧
          choice.method = "GET".toList ∧ path ∈ keyedReports))
      (hopen : ∀ choice ∈ choices, choice.guard = .openToAll →
        choice.method = "GET".toList ∧ path = "/api/health".toList)
      (hid : ∀ choice ∈ choices, choice.handler.idFrom.isNone = true)
  | pattern (hpath : path ∉ fixedPaths) (h : Closed fun method => resolve method path)

/-- What the two passes over the list come to. -/
theorem offer_fixedAt {method path : Str} (hstream : path ≠ "/api/units/stream".toList)
    (hscan : path ≠ "/api/units/scan".toList) (hfixed : fixedAt path ≠ []) :
    resolve method path = offer method ((fixedAt path).map FixedPath.choice) := by
  have hboth : (fixed.find? fun row => row.path.toList = path && row.method.toList = method) =
      (fixedAt path).find? fun row => row.method.toList = method := by
    simp only [fixedAt, List.find?_filter, Bool.decide_and, Bool.decide_eq_true]
  have hpath : (fixed.find? fun row => row.path.toList = path) = (fixedAt path).head? := by
    rw [fixedAt, List.head?_filter]
  rw [resolve, if_neg hstream, if_neg hscan, hboth, hpath]
  cases hrows : fixedAt path with
  | nil => exact absurd hrows hfixed
  | cons first rest =>
      have hsame : ((fun choice : Choice => decide (choice.method = method)) ∘ FixedPath.choice) =
          fun row => decide (row.method.toList = method) := rfl
      rw [List.map_cons, offer, offerOr_eq, ← List.map_cons, List.find?_map, hsame]
      cases (first :: rest).find? fun row => row.method.toList = method <;> rfl

/-- A path that is not in the table is looked at part by part. -/
theorem resolve_pattern {method path : Str} (h : path ∉ fixedPaths) :
    resolve method path = resolvePattern method path := by
  rw [fixedPaths, List.mem_cons, List.mem_cons, not_or, not_or] at h
  obtain ⟨hstream, hscan, hlist⟩ := h
  have hfixed : ∀ row ∈ fixed, row.path.toList ≠ path :=
    fun row hrow heq => hlist (List.mem_map.mpr ⟨row, hrow, heq⟩)
  have hnone : ∀ row ∈ fixed, ¬ decide (row.path.toList = path) = true :=
    fun row hrow heq => hfixed row hrow (of_decide_eq_true heq)
  have hboth : fixed.find? (fun row => row.path.toList = path && row.method.toList = method) =
      none := by
    rw [List.find?_eq_none]
    intro row hrow heq
    exact hnone row hrow (Bool.and_eq_true_iff.mp heq).1
  rw [resolve, if_neg hstream, if_neg hscan, hboth, List.find?_eq_none.mpr hnone]

/-- Every row is guarded as it should be, or is one of the two reports for whoever has the key.
The table is gone through row by row. -/
theorem fixed_guarded : ∀ row ∈ fixed, Guarded row.guard row.handler ∨
    (row.guard = .apiKey ∧ row.handler.administers = false ∧ row.method.toList = "GET".toList ∧
      row.path.toList ∈ keyedReports) := by decide

/-- The one row that is open is the health check. -/
theorem fixed_open : ∀ row ∈ fixed, row.guard = .openToAll →
    row.method = "GET" ∧ row.path = "/api/health" := by decide

/-- No row takes an id out of its path. -/
theorem fixed_idFrom : ∀ row ∈ fixed, row.handler.idFrom.isNone = true := by decide

/-- What every path offers. The stream and the scan stand in front of the table of fixed paths,
and the paths with an id in them come behind it. -/
theorem offers (path : Str) : Offers path := by
  by_cases hstream : path = "/api/units/stream".toList
  · exact .stream hstream
  by_cases hscan : path = "/api/units/scan".toList
  · have honly : ∀ method, resolve method path = only method "GET" .full .scan :=
      fun method => by rw [resolve, if_neg hstream, if_pos hscan]
    refine .fixed [⟨"GET".toList, .full, .scan⟩]
      (fun method => (honly method).trans (only_offer _ _ _ _)) ?_ ?_ (by decide)
    · intro choice hmem
      obtain rfl := List.mem_singleton.mp hmem
      exact .inl (by decide)
    · intro choice hmem hopen
      obtain rfl := List.mem_singleton.mp hmem
      cases hopen
  by_cases hfixed : fixedAt path = []
  · have hpath : path ∉ fixedPaths := by
      rw [fixedPaths, List.mem_cons, List.mem_cons, not_or, not_or]
      refine ⟨hstream, hscan, fun hlist => ?_⟩
      obtain ⟨row, hrow, heq⟩ := List.mem_map.mp hlist
      have hmem := mem_fixedAt.mpr ⟨hrow, heq⟩
      rw [hfixed] at hmem
      exact List.not_mem_nil hmem
    obtain ⟨choices, h, hall⟩ := closed_resolvePattern path
    exact .pattern hpath ⟨choices, fun method => (resolve_pattern hpath).trans (h method), hall⟩
  · have hrow : ∀ choice ∈ (fixedAt path).map FixedPath.choice,
        ∃ row ∈ fixed, row.path.toList = path ∧ row.choice = choice := by
      intro choice hmem
      obtain ⟨row, hrow, heq⟩ := List.mem_map.mp hmem
      obtain ⟨hmem', hpath⟩ := mem_fixedAt.mp hrow
      exact ⟨row, hmem', hpath, heq⟩
    refine .fixed _ (fun method => offer_fixedAt hstream hscan hfixed) ?_ ?_ ?_
    · intro choice hmem
      obtain ⟨row, hmem', hpath, rfl⟩ := hrow choice hmem
      exact hpath ▸ fixed_guarded row hmem'
    · intro choice hmem hopen
      obtain ⟨row, hmem', hpath, rfl⟩ := hrow choice hmem
      obtain ⟨hmethod, hhealth⟩ := fixed_open row hmem' hopen
      exact ⟨congrArg String.toList hmethod, hpath.symm.trans (congrArg String.toList hhealth)⟩
    · intro choice hmem
      obtain ⟨row, hmem', -, rfl⟩ := hrow choice hmem
      exact fixed_idFrom row hmem'

/-- The stream is behind the full check, and has one method. -/
theorem resolve_stream (method : Str) :
    resolve method "/api/units/stream".toList = .stream .full ∨
      resolve method "/api/units/stream".toList = .methodNotAllowed "GET".toList := by
  by_cases hget : method = "GET".toList
  · exact .inl (by rw [resolve, if_pos rfl, if_pos hget])
  · exact .inr (by rw [resolve, if_pos rfl, if_neg hget])

/-- A method and a path that come to something. -/
def Resolved.found : Resolved → Bool
  | .route _ _ | .stream _ => true
  | .methodNotAllowed _ | .notFound => false

/-- **The table is consistent.**  Only the health path is open; a method that is
named works; what touches a unit, a timer or a program is fully guarded, but for two
reports behind the API key; approvals and the management of devices stay on the local
network; and a fixed path is never read as an id. -/
theorem table_consistent (method path : Str) :
    (∀ handler, resolve method path = .route .openToAll handler →
      method = "GET".toList ∧ path = "/api/health".toList) ∧
    (∀ guard, resolve method path = .stream guard → guard = .full) ∧
    (∀ allow, resolve method path = .methodNotAllowed allow →
      (resolve allow path).found = true) ∧
    (∀ guard handler, resolve method path = .route guard handler →
      (handler.touches = true → guard = .full ∨
        (guard = .apiKey ∧ method = "GET".toList ∧ path ∈ keyedReports)) ∧
      (handler.administers = true → guard = .adminLan)) ∧
    (path ∈ fixedPaths → ∀ guard handler, resolve method path = .route guard handler →
      handler.idFrom.isNone = true) := by
  have hnamed : ∀ choices, (∀ method, resolve method path = offer method choices) →
      ∀ allow, resolve method path = .methodNotAllowed allow →
        (resolve allow path).found = true := by
    intro choices h allow hallow
    obtain ⟨guard, handler, hroute⟩ := offer_named ((h method).symm.trans hallow)
    rw [h allow, hroute]
    rfl
  cases offers path with
  | stream hpath =>
      subst hpath
      have hroute : ∀ guard handler,
          resolve method "/api/units/stream".toList ≠ .route guard handler := by
        intro guard handler h
        rcases resolve_stream method with hs | hs <;> rw [hs] at h <;> cases h
      refine ⟨fun handler h => absurd h (hroute _ _), ?_, ?_,
        fun guard handler h => absurd h (hroute _ _),
        fun _ guard handler h => absurd h (hroute _ _)⟩
      · intro guard h
        rcases resolve_stream method with hs | hs <;> rw [hs] at h <;> cases h
        rfl
      · intro allow h
        rcases resolve_stream method with hs | hs <;> rw [hs] at h <;> cases h
        rfl
  | fixed choices h hguarded hopen hid =>
      refine ⟨?_, ?_, hnamed choices h, ?_, ?_⟩
      · intro handler hroute
        obtain ⟨choice, hmem, rfl, hguard, -⟩ := mem_of_offer_route ((h method).symm.trans hroute)
        exact hopen choice hmem hguard
      · intro guard hroute
        exact absurd ((h method).symm.trans hroute) (offer_ne_stream method choices guard)
      · intro guard handler hroute
        obtain ⟨choice, hmem, rfl, rfl, rfl⟩ :=
          mem_of_offer_route ((h method).symm.trans hroute)
        rcases hguarded choice hmem with ⟨hfull, hadmin⟩ | ⟨hkey, hnot, hget, hpath⟩
        · exact ⟨fun htouches => .inl (hfull htouches), hadmin⟩
        · refine ⟨fun _ => .inr ⟨hkey, hget, hpath⟩, fun hadmin => ?_⟩
          rw [hnot] at hadmin
          cases hadmin
      · intro _ guard handler hroute
        obtain ⟨choice, hmem, -, -, rfl⟩ := mem_of_offer_route ((h method).symm.trans hroute)
        exact hid choice hmem
  | pattern hpath hclosed =>
      obtain ⟨choices, h, hall⟩ := hclosed
      refine ⟨?_, ?_, hnamed choices h, ?_, fun hmem => absurd hmem hpath⟩
      · intro handler hroute
        obtain ⟨choice, hmem, -, hguard, -⟩ := mem_of_offer_route ((h method).symm.trans hroute)
        exact absurd hguard (hall choice hmem).2
      · intro guard hroute
        exact absurd ((h method).symm.trans hroute) (offer_ne_stream method choices guard)
      · intro guard handler hroute
        obtain ⟨choice, hmem, -, rfl, rfl⟩ := mem_of_offer_route ((h method).symm.trans hroute)
        obtain ⟨hfull, hadmin⟩ := (hall choice hmem).1
        exact ⟨fun htouches => .inl (hfull htouches), hadmin⟩

/-- The last readings of the units are behind the API key alone. -/
theorem metrics_keyed :
    ¬ ∀ method path guard handler, resolve method path = .route guard handler →
      handler.touches = true → guard = .full := by
  intro h
  have hmetrics : resolve "GET".toList "/metrics".toList = .route .apiKey .metrics := by decide
  have hguard := h _ _ _ _ hmetrics (by decide)
  cases hguard

/-- A name of the list is not read as an id, whatever the method. -/
example : resolve "DELETE".toList "/api/units/state".toList = .methodNotAllowed "GET".toList := by
  decide

end BreezeHttp
