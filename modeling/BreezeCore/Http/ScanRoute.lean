import BreezeCore.Device.Listen
import BreezeCore.Http.Query
import BreezeCore.Lib.Runs
import BreezeCore.Store.Config

/-!
# The scan route

One scan at a time: a request that comes while another sweeps is refused.  The lock is held by
the request that sweeps, so a panic in a sweep would close the route for good.

* `sweep_returns` — no query and nothing that arrives on the network makes a sweep panic;
* `scan_conflict` — so in every run a request is refused exactly while another one sweeps.
-/

namespace BreezeHttp.ScanRoute

open Fallible Text Net Security BreezeStore Discover Runs Query
open BreezeDevice (Network ScanReport ScanProblem scan scanSubnet)

/-- A unit that was found, as a client sees it. -/
structure Candidate where
  ip : Str
  port : Nat
  /-- Whether a unit with this address is configured. -/
  known : Bool
  id : Str
  ssid : Str
  version : Str
  deriving DecidableEq

inductive Content where
  | detail (message : Str)
  | report (candidates : List Candidate) (scanned : Option Str) (probesSent : Nat)
      (broadcastSent : Bool) (unparseable : List (Str × Str))
  deriving DecidableEq

structure Reply where
  status : Nat
  content : Content
  deriving DecidableEq

def versionText : Version → Str
  | .v1 => "V1".toList
  | .v2 => "V2".toList
  | .v3 => "V3".toList

def candidate (known : List Str) (unit : Discovered) : Candidate where
  ip := unit.ip.toText
  port := unit.port
  known := known.any fun ip => ip = unit.ip.toText
  id := showNat unit.id
  ssid := unit.ssid
  version := versionText unit.version

/-- What a request meets: its query, the addresses the server would send from, the network, and
the configured units, unless they cannot be read. -/
structure World where
  query : Str
  locals : List (Option IpAddr)
  network : Network
  units : Option (List UnitConfig)

variable (P : Primitives) (quoted : Str → Str)

/-- Sweep the subnet that is named, or the server's own. An empty name is as good as none, and a
subnet that is refused is the client's mistake. -/
def sweep (world : World) : Exec Reply ScanReport :=
  match queryValue world.query "subnet".toList with
  | some cidr =>
      if cidr ≠ [] then
        mapFail (fun
          | .refused (.badSubnet why) => ⟨400, .detail why⟩
          | .io e => ⟨503, .detail ("scan failed: ".toList ++ e)⟩)
          (scanSubnet P quoted cidr world.network)
      else own
  | none => own
where
  own : Exec Reply ScanReport :=
    mapFail (fun
      | .refused (.badSubnet e) | .io e => ⟨503, .detail ("scan failed: ".toList ++ e)⟩)
      (scan P quoted world.locals world.network)

/-- What is answered, unless the sweep panics. -/
def answer (world : World) : Option Reply :=
  let known := (world.units.getD []).map UnitConfig.ip
  match sweep P quoted world with
  | .ok report => some ⟨200, .report (report.found.map (candidate known)) report.swept
      report.probesSent report.broadcastSent
      (report.unparseable.map fun (ip, why) => (ip.toText, why))⟩
  | .error (.error reply) => some reply
  | .error .panic => none

/-! ## One at a time -/

/-- The lock: who has it, and whether somebody panicked with it. -/
structure Scanning where
  sweeping : Option Nat := none
  poisoned : Bool := false
  deriving DecidableEq

inductive Act where
  /-- A request comes. -/
  | request (t : Nat)
  /-- The sweep of a request is over. -/
  | finish (t : Nat) (world : World)

def busy : Reply := ⟨409, .detail "a scan is already in progress".toList⟩

/-- One step, with what is answered in it. -/
def Scanning.step (s : Scanning) : Act → Option (Option Reply × Scanning)
  | .request t =>
      if s.poisoned ∨ s.sweeping.isSome then some (some busy, s)
      else some (none, { s with sweeping := some t })
  | .finish t world =>
      if s.sweeping = some t then
        match answer P quoted world with
        | some reply => some (some reply, { s with sweeping := none })
        | none => some (none, { sweeping := none, poisoned := true })
      else none

/-- The server takes a step. -/
def Steps (s : Scanning) (a : Act) (s' : Scanning) : Prop :=
  ∃ reply, s.step P quoted a = some (reply, s')

variable {P quoted}

theorem mapFail_eq_error {ε ε' α : Type} {f : ε → ε'} {x : Exec ε α} {e' : ε'}
    (h : mapFail f x = .error (.error e')) : ∃ e, x = .error (.error e) ∧ e' = f e := by
  match x, h with
  | .error (.error e), h => exact ⟨e, rfl, (Fault.error.inj (Except.error.inj h)).symm⟩

/-- **A sweep does not panic.** -/
theorem sweep_returns (P : Primitives) (quoted : Str → Str) (world : World) :
    Returns (sweep P quoted world) := by
  have hown : Returns (sweep.own P quoted world) :=
    (returns_mapFail _ _).mpr (BreezeDevice.scan_returns _)
  unfold sweep
  split
  · split
    · exact (returns_mapFail _ _).mpr (BreezeDevice.scanSubnet_returns _)
    · exact hown
  · exact hown

theorem sweep_status {world : World} {reply : Reply}
    (h : sweep P quoted world = .error (.error reply)) :
    reply.status = 400 ∨ reply.status = 503 := by
  have hown : sweep.own P quoted world = .error (.error reply) → reply.status = 503 := by
    intro h
    unfold sweep.own at h
    obtain ⟨problem, -, rfl⟩ := mapFail_eq_error h
    cases problem <;> rfl
  unfold sweep at h
  split at h
  · split at h
    · obtain ⟨problem, -, rfl⟩ := mapFail_eq_error h
      cases problem with
      | io e => exact .inr rfl
      | refused e =>
          cases e
          exact .inl rfl
    · exact .inr (hown h)
  · exact .inr (hown h)

/-- **Every sweep is answered.** -/
theorem answer_isSome (P : Primitives) (quoted : Str → Str) (world : World) :
    ∃ reply, answer P quoted world = some reply ∧
      (reply.status = 200 ∨ reply.status = 400 ∨ reply.status = 503) := by
  have hreturns := sweep_returns P quoted world
  unfold answer
  dsimp only
  cases hsweep : sweep P quoted world with
  | ok report => exact ⟨_, rfl, .inl rfl⟩
  | error fault =>
      cases fault with
      | error reply => exact ⟨reply, rfl, .inr (sweep_status hsweep)⟩
      | panic =>
          rw [hsweep] at hreturns
          exact hreturns.elim

/-- **One step** leaves the lock usable. -/
theorem step_sound {s s' : Scanning} {a : Act} (hs : s.poisoned = false)
    (h : Steps P quoted s a s') : s'.poisoned = false := by
  obtain ⟨reply, h⟩ := h
  cases a with
  | request t =>
      simp only [Scanning.step] at h
      split at h
      · rw [← (Prod.mk.inj (Option.some.inj h)).2]
        exact hs
      · rw [← (Prod.mk.inj (Option.some.inj h)).2]
        exact hs
  | finish t world =>
      obtain ⟨answered, hanswer, -⟩ := answer_isSome P quoted world
      simp only [Scanning.step, hanswer] at h
      split at h
      · rw [← (Prod.mk.inj (Option.some.inj h)).2]
        exact hs
      · cases h

/-- **One scan at a time**, and the next one whenever none is under way: in every run a request
is refused exactly while another one sweeps, and every sweep is answered and lets go of the
lock, whatever it was asked and whatever arrived. -/
theorem scan_conflict {acts : List Act} {s : Scanning} (h : Run (Steps P quoted) {} acts s) :
    (∀ t, s.step P quoted (.request t) =
      if s.sweeping.isSome then some (some busy, s)
      else some (none, { s with sweeping := some t })) ∧
    ∀ t world, s.sweeping = some t → ∃ reply,
      s.step P quoted (.finish t world) = some (some reply, { s with sweeping := none }) ∧
        (reply.status = 200 ∨ reply.status = 400 ∨ reply.status = 503) := by
  have hkeep : ∀ s a s', s.poisoned = false → Steps P quoted s a s' → s'.poisoned = false :=
    fun _ _ _ hs hstep => step_sound hs hstep
  have hsound : s.poisoned = false := Run.preserves hkeep h rfl
  refine ⟨fun t => ?_, fun t world hsweeping => ?_⟩
  · simp only [Scanning.step, hsound, Bool.false_eq_true, false_or]
  · obtain ⟨reply, hreply, hstatus⟩ := answer_isSome P quoted world
    refine ⟨reply, ?_, hstatus⟩
    simp only [Scanning.step, if_pos hsweeping, hreply]

/-- At home, where a unit and the router answer. -/
def homeWorld : World where
  query := []
  locals := [some (.v4 ⟨192, 168, 1, 5⟩)]
  network := BreezeDevice.homeNetwork BreezeDevice.homeReply
  units := some []

/-- What a client is told there. -/
def homeAnswer : Reply where
  status := 200
  content := .report
    [⟨"192.168.1.73".toList, 6444, false, "153931628470980".toList, "net_ac_23E4".toList,
      "V3".toList⟩]
    (some "192.168.1.5/24".toList) 508 true
    [("192.168.1.1".toList, "V1 device: XML discovery is not supported".toList)]

example : answer unitPrimitives id homeWorld = some homeAnswer := by decide +kernel

/-- A first request sweeps, another comes meanwhile; the first is answered, and a third
sweeps. -/
theorem scan_conflict_second :
    (⟨some 3, false⟩ : Scanning).step unitPrimitives id (.request 4) =
        some (some busy, ⟨some 3, false⟩) ∧
      ∃ reply, (⟨some 3, false⟩ : Scanning).step unitPrimitives id (.finish 3 homeWorld) =
        some (some reply, ⟨none, false⟩) := by
  have hfinish : (⟨some 1, false⟩ : Scanning).step unitPrimitives id (.finish 1 homeWorld) =
      some (some homeAnswer, ⟨none, false⟩) := by decide +kernel
  have hrun : Run (Steps unitPrimitives id) {}
      [.request 1, .request 2, .finish 1 homeWorld, .request 3] ⟨some 3, false⟩ :=
    .cons ⟨none, rfl⟩ (.cons ⟨some busy, rfl⟩ (.cons ⟨_, hfinish⟩ (.cons ⟨none, rfl⟩ (.nil _))))
  obtain ⟨hrequest, hanswered⟩ := scan_conflict hrun
  obtain ⟨reply, hreply, -⟩ := hanswered 3 homeWorld rfl
  exact ⟨hrequest 4, reply, hreply⟩

end BreezeHttp.ScanRoute
