import BreezeCore.Lib.Runs
import BreezeCore.Lib.Text
import BreezeCore.Proto.Response

/-!
# The live stream

One poller reads every unit and hands what changed to every open stream.  A stream learns
which units there are, subscribes, writes a snapshot of the last known values, and from
then on writes what its queue brings.

Lanes of a pass, streams and the routes that add and remove units run side by side, so
each thing one of them does under a lock is a step of its own.  `serde_json` writing a
value as text is a parameter.
-/

namespace BreezeHttp.LiveStream

open Text Ac

/-- How many events one slow client may fall behind before it starts losing them. -/
def QUEUE_DEPTH : Nat := 200

/-- Ceiling on concurrent streams. -/
def MAX_STREAMS : Nat := 64

/-- A unit as clients see it. -/
structure UnitState where
  /-- A number here, and text on the wire. -/
  id : Nat
  name : Str
  ip : Str
  online : Bool
  powerState : Bool
  operationalMode : String
  targetTemperature : ℚ
  indoorTemperature : Option ℚ
  outdoorTemperature : Option ℚ
  fanSpeed : UInt8
  swingMode : String
  eco : Bool
  turbo : Bool
  deriving DecidableEq, Repr

/-- What the manager knows of a unit, its id apart. -/
structure UnitInfo where
  name : Str
  ip : Str
  deriving DecidableEq, Repr

def UnitState.fromInfo (id : Nat) (info : UnitInfo) (state : State) : UnitState where
  id := id
  name := info.name
  ip := info.ip
  online := true
  powerState := state.powerOn
  operationalMode := (state.mode.map Mode.asStr).getD "UNKNOWN"
  targetTemperature := state.targetTemperature
  indoorTemperature := state.indoorTemperature
  outdoorTemperature := state.outdoorTemperature
  fanSpeed := state.fanSpeed.raw
  swingMode := (state.swingMode.map SwingMode.asStr).getD "UNKNOWN"
  eco := state.eco
  turbo := state.turbo

/-- Last state per unit, and the text that tells a change. -/
abbrev Last := Nat → Option (Str × UnitState)

/-- The state to report for a unit we could not read: its last known values, or those of a
unit never seen. -/
def offlineValue (last : Last) (configured : Option UnitInfo) (id : Nat) : UnitState :=
  match last id with
  | some (_, previous) => { previous with online := false }
  | none =>
      { id := id
        name := (configured.map UnitInfo.name).getD []
        ip := (configured.map UnitInfo.ip).getD []
        online := false
        powerState := false
        operationalMode := "AUTO"
        targetTemperature := 22
        indoorTemperature := none
        outdoorTemperature := none
        fanSpeed := 102
        swingMode := "OFF"
        eco := false
        turbo := false }

/-- Refresh one unit.  What it answers, if it does, comes from the manager; the
configuration is asked for its name and address. -/
def readUnit (last : Last) (live : Option (UnitInfo × State)) (configured : Option UnitInfo)
    (id : Nat) : UnitState :=
  match live with
  | some (info, state) => .fromInfo id info state
  | none => offlineValue last configured id

/-- Where a lane is with the unit it polls. -/
inductive Work where
  | free
  /-- The unit is read, and its value not yet compared. -/
  | answered (id : Nat) (value : UnitState)
  /-- The value is new and recorded, and not yet broadcast. -/
  | recorded (id : Nat) (value : UnitState)
  deriving DecidableEq

/-- One lane of a pass, with the units it has still to poll. -/
structure Lane where
  todo : List Nat
  work : Work := .free
  deriving DecidableEq

def Lane.done (lane : Lane) : Bool := lane.todo = [] && lane.work = .free

inductive Phase where
  /-- It has asked which units there are. -/
  | opened
  /-- It is a subscriber. -/
  | subscribed
  /-- It has taken its snapshot. -/
  | live
  | closed
  deriving DecidableEq

/-- One stream. -/
structure Stream where
  /-- The units there were when it was opened. -/
  order : List Nat
  phase : Phase := .opened
  /-- The events of the snapshot still to be written. -/
  snapshot : List UnitState := []
  queue : List UnitState := []
  written : List UnitState := []
  deriving DecidableEq

def Stream.isSubscriber (stream : Stream) : Bool :=
  stream.phase = .subscribed || stream.phase = .live

/-- The poller, the streams and the unit list. -/
structure StreamState where
  /-- The manager's unit ids, in configuration order. -/
  units : List Nat
  last : Last := fun _ => none
  streams : List Stream := []
  /-- The lanes of the pass in progress. -/
  lanes : List Lane := []

def StreamState.subscriberCount (s : StreamState) : Nat := s.streams.countP Stream.isSubscriber

/-! ## The poller -/

/-- How many lanes to actually run. -/
def laneCount (units requested : Nat) : Nat := min (max requested 1) (max units 1)

/-- The units of one lane: lanes claim them by index modulo lane count. -/
def laneUnits (units : List Nat) (lanes lane : Nat) : List Nat :=
  (units.zipIdx.filter fun u => u.2 % lanes = lane).map Prod.fst

/-- A pass begins, when the one before is over and someone is subscribed. -/
def startPass (s : StreamState) (requested : Nat) : Option StreamState :=
  if s.subscriberCount ≠ 0 ∧ s.lanes.all Lane.done then
    let lanes := laneCount s.units.length requested
    some { s with
      lanes := (List.range lanes).map fun lane => ⟨laneUnits s.units lanes lane, .free⟩ }
  else none

/-- A lane reads its next unit. -/
def read (s : StreamState) (i : Nat) (live : Option (UnitInfo × State))
    (configured : Option UnitInfo) : Option StreamState :=
  match s.lanes[i]? with
  | some ⟨id :: todo, .free⟩ =>
      some { s with
        lanes := s.lanes.set i ⟨todo, .answered id (readUnit s.last live configured id)⟩ }
  | _ => none

section Canonical

variable (canonical : UnitState → Str)

/-- It records the value if that has changed. -/
def record (s : StreamState) (i : Nat) : Option StreamState :=
  match s.lanes[i]? with
  | some ⟨todo, .answered id value⟩ =>
      if (s.last id).map Prod.fst = some (canonical value) then
        some { s with lanes := s.lanes.set i ⟨todo, .free⟩ }
      else
        some { s with
          last := Function.update s.last id (some (canonical value, value))
          lanes := s.lanes.set i ⟨todo, .recorded id value⟩ }
  | _ => none

/-- An event reaches a subscriber, unless its queue is full. -/
def Stream.push (event : UnitState) (stream : Stream) : Stream :=
  if stream.isSubscriber ∧ stream.queue.length < QUEUE_DEPTH then
    { stream with queue := stream.queue ++ [event] }
  else stream

/-- The lane broadcasts what it has recorded, to every subscriber. -/
def broadcast (s : StreamState) (i : Nat) : Option StreamState :=
  match s.lanes[i]? with
  | some ⟨todo, .recorded _ value⟩ =>
      some { s with
        streams := s.streams.map (Stream.push value)
        lanes := s.lanes.set i ⟨todo, .free⟩ }
  | _ => none

/-! ## A stream -/

/-- Last known state for these units. -/
def snapshotOf (last : Last) (order : List Nat) : List UnitState :=
  order.filterMap fun id => (last id).map Prod.snd

/-- A stream is opened, and asks which units there are. -/
def openStream (s : StreamState) : StreamState :=
  { s with streams := s.streams ++ [{ order := s.units }] }

/-- It subscribes, or is refused for there are too many. -/
def subscribe (s : StreamState) (i : Nat) : Option StreamState :=
  match s.streams[i]? with
  | none => none
  | some stream =>
      if stream.phase ≠ .opened then none
      else if MAX_STREAMS ≤ s.subscriberCount then
        some { s with streams := s.streams.set i { stream with phase := .closed } }
      else some { s with streams := s.streams.set i { stream with phase := .subscribed } }

/-- It takes its snapshot. -/
def takeSnapshot (s : StreamState) (i : Nat) : Option StreamState :=
  match s.streams[i]? with
  | none => none
  | some stream =>
      if stream.phase ≠ .subscribed then none
      else
        some { s with
          streams := s.streams.set i
            { stream with phase := .live, snapshot := snapshotOf s.last stream.order } }

/-- It writes its next event: the snapshot first, and then what the queue brings. A stream that
has neither has nothing to write. -/
def write (s : StreamState) (i : Nat) : Option StreamState :=
  match s.streams[i]? with
  | none => none
  | some stream =>
      if stream.phase ≠ .live then none
      else
        match stream.snapshot, stream.queue with
        | event :: rest, _ =>
            some { s with
              streams := s.streams.set i
                { stream with snapshot := rest, written := stream.written ++ [event] } }
        | [], event :: rest =>
            some { s with
              streams := s.streams.set i
                { stream with queue := rest, written := stream.written ++ [event] } }
        | [], [] => none

/-- A write fails, and the stream ends. -/
def close (s : StreamState) (i : Nat) : Option StreamState :=
  match s.streams[i]? with
  | none => none
  | some stream =>
      some { s with streams := s.streams.set i { stream with phase := .closed, queue := [] } }

inductive Op where
  /-- Units are added or removed. -/
  | configure (units : List Nat)
  | startPass (requested : Nat)
  | read (lane : Nat) (live : Option (UnitInfo × State)) (configured : Option UnitInfo)
  | record (lane : Nat)
  | broadcast (lane : Nat)
  | openStream
  | subscribe (stream : Nat)
  | takeSnapshot (stream : Nat)
  | write (stream : Nat)
  | close (stream : Nat)

/-- One step of one of the threads, where it can be made. -/
def step (s : StreamState) : Op → Option StreamState
  | .configure units => some { s with units := units }
  | .startPass requested => startPass s requested
  | .read i live configured => read s i live configured
  | .record i => record canonical s i
  | .broadcast i => broadcast s i
  | .openStream => some (openStream s)
  | .subscribe i => subscribe s i
  | .takeSnapshot i => takeSnapshot s i
  | .write i => write s i
  | .close i => close s i

end Canonical

/-- The server has just started. -/
structure Start (s : StreamState) : Prop where
  last : ∀ u, s.last u = none
  streams : s.streams = []
  lanes : s.lanes = []

/-- The last of some events that is about a unit. -/
def latest (u : Nat) (events : List UnitState) : Option UnitState :=
  (events.filter fun e => e.id = u).getLast?

/-- A lane has recorded this value and not broadcast it. -/
def Pending (s : StreamState) (u : Nat) (v : UnitState) : Prop :=
  ∃ j < s.lanes.length, (s.lanes[j]?).map Lane.work = some (.recorded u v)

instance (s : StreamState) (u : Nat) (v : UnitState) : Decidable (Pending s u v) :=
  inferInstanceAs (Decidable (∃ j < _, _))

/-- **Live streams are consistent**: one that has written its snapshot and drained its
queue wrote last, about every configured unit that was polled, what the poller knows of it,
save a value that is about to be broadcast. -/
def Consistent (s : StreamState) : Prop :=
  ∀ stream ∈ s.streams, stream.phase = .live → stream.snapshot = [] → stream.queue = [] →
    ∀ u ∈ s.units, ∀ text v, s.last u = some (text, v) → ¬ Pending s u v →
      latest u stream.written = some v

end BreezeHttp.LiveStream
