import BreezeCore.Device.Poison
import BreezeCore.Http.KeepWarm

/-!
# Keeping unit connections open between uses

A unit closes a connection 30 s after the last request it received.  So for a while after the
server was last used a thread looks at every unit each few seconds, and reads the ones that
have gone quiet: never one that is busy, and none that has just failed to answer.

The thread and whoever else wants something of a unit meet at the unit's lock.  A call is two
steps here, taking the lock and coming back with what the unit answered meanwhile; in between
the other units, the thread and the configuration go on.  A unit is at its address in `slots`,
and who holds it keeps it when the configuration has replaced it by another.  All instants are
in milliseconds.  `reads` and `lastLook` are bookkeeping: when the thread asked the unit and
came by.
-/

namespace BreezeHttp.Warm

open BreezeDevice

/-- Read a unit once it has been quiet this long. -/
def WARM_AFTER : Nat := 20000

/-- How often to look. -/
def TICK : Nat := 5000

/-- What closes a connection: no request for this long. -/
def IDLE_TIMEOUT : Nat := 30000

/-! ## Units -/

/-- What the server last learned about a unit, readable without waiting for it. -/
structure UnitStatus where
  /-- Whether the last exchange worked. -/
  online : Bool := false
  /-- Whether a session is open right now. -/
  connected : Bool := false
  capabilities : Option Ac.Capabilities := none
  deriving DecidableEq

/-- What a device knows. -/
def UnitStatus.ofDevice (d : Device) : UnitStatus where
  online := d.online
  connected := d.connected
  capabilities := d.capabilities

/-- Who has a unit's lock, and since when. -/
inductive Holder where
  | request (request : BreezeDevice.Request) (since : Nat)
  | keepWarm (asked : Nat)

/-- A read of the thread: when its pass began, and when it asked. -/
structure Read where
  began : Nat
  asked : Nat
  deriving DecidableEq, Repr

structure Slot where
  device : Device := {}
  /-- Somebody panicked while he had the unit. -/
  poisoned : Bool := false
  status : UnitStatus := {}
  /-- There is a token, and a key. -/
  credentials : Bool := false
  holder : Option Holder := none
  reads : List Read := []
  lastLook : Option Nat := none

/-- Lock the unit itself.  After a panic the connection is rebuilt on the next call. -/
def Slot.lockDevice (slot : Slot) : Device :=
  if slot.poisoned then slot.device.forget else slot.device

/-- The unit with the answers it has for a call. -/
def Slot.facing (slot : Slot) (answers : List Attempt) (lags : List Nat) : Device :=
  { slot.device with line := answers, lags := lags }

/-- What a request calls on the unit it has. -/
def serve (now : Nat) (d : Device) : BreezeDevice.Request → Outcome Unit × Device
  | .readState arrived => ((readState arrived d).1.map fun _ => (), (readState arrived d).2)
  | .control change merged =>
      ((sendChange d change merged now).1.map fun _ => (), (sendChange d change merged now).2)
  | .collect => (.ok (), d)
  | .capabilities => (d.fetchCapabilities.1.map fun _ => (), d.fetchCapabilities.2)
  | .keepWarm .. => (d.refresh.1.map fun _ => (), d.refresh.2)
  | .forget => (.ok (), d.forget)

/-- Whether the call copies what the device knows to the status: not when the answer was
there already. -/
def publishes (d : Device) : BreezeDevice.Request → Bool
  | .readState arrived => (d.stateSince arrived).isNone && (d.failureSince arrived).isNone
  | .collect => false
  | _ => true

/-- The unit after a call.  The lock is free again, unless the call still waits. -/
def Slot.returned (slot : Slot) (publish : Bool) : Outcome Unit × Device → Option Slot
  | (.waiting, _) => none
  | (.panicked, d) => some { slot with device := d, poisoned := true, holder := none }
  | (_, d) =>
      some { slot with
        device := d
        status := if publish then .ofDevice d else slot.status
        holder := none }

/-! ## The server -/

/-- Where the thread is: not there, asleep, on its way through the units, reading one. -/
inductive Thread where
  | ended
  | asleep (since : Nat)
  | walking (began : Nat) (rest : List Nat)
  | reading (began slot : Nat) (rest : List Nat)

structure Server where
  clock : Nat := 0
  setting : KeepWarm
  /-- When the server was last used. -/
  lastUse : Option Nat := none
  slots : Nat → Slot := fun _ => {}
  /-- The next address. -/
  fresh : Nat := 0
  /-- Where the unit with an id is. -/
  units : Nat → Option Nat := fun _ => none
  /-- Configured order. -/
  order : List Nat := []
  thread : Thread := .ended

inductive Act where
  /-- An authenticated request came, or a stream is open. -/
  | use
  /-- A request gets the lock it waited for. -/
  | take (slot : Nat) (request : BreezeDevice.Request)
  /-- Its call comes back. -/
  | give (slot : Nat) (answers : List Attempt) (lags : List Nat)
  | wake
  /-- The thread looks at the next unit of its pass, or is through. -/
  | look
  /-- Its read comes back. -/
  | warmed (answers : List Attempt) (lags : List Nat)
  | upsert (id : Nat) (credentials : Bool)
  | remove (id : Nat)

def Server.set (s : Server) (address : Nat) (slot : Slot) : Server :=
  { s with slots := Function.update s.slots address slot }

/-- Whether to keep units warm now, given how long ago the server was last used. -/
def active (setting : KeepWarm) (sinceLastUse : Option Nat) : Bool :=
  match setting with
  | .off => false
  | .always => true
  | .forWindow window =>
      sinceLastUse.any fun ms =>
        decide (ms * 1000000 ≤ window.secs.toNat * 1000000000 + window.nanos)

def Server.active (s : Server) : Bool := Warm.active s.setting (s.lastUse.map (s.clock - ·))

/-- The answers came while somebody waited for them. -/
def during (since now : Nat) (answers : List Attempt) : Prop :=
  ∀ a ∈ answers, since ≤ a.instant ∧ a.instant ≤ now

instance (since now : Nat) (answers : List Attempt) : Decidable (during since now answers) :=
  inferInstanceAs (Decidable (∀ a ∈ answers, _))

def Server.take (s : Server) (address : Nat) (request : BreezeDevice.Request) : Option Server :=
  let slot := s.slots address
  if request.waits && slot.holder.isNone && decide (address < s.fresh) then
    some (s.set address
      { slot with device := slot.lockDevice, holder := some (.request request s.clock) })
  else none

def Server.give (s : Server) (address : Nat) (answers : List Attempt) (lags : List Nat) :
    Option Server :=
  let slot := s.slots address
  match slot.holder with
  | some (.request request since) =>
      if during since s.clock answers then
        let d := slot.facing answers lags
        (slot.returned (publishes d request) (serve since d request)).map (s.set address)
      else none
  | _ => none

def Server.wake (s : Server) : Option Server :=
  match s.thread with
  | .asleep since =>
      if s.clock < since + TICK then none
      else if s.active then some { s with thread := .walking s.clock s.order }
      else some { s with thread := .asleep s.clock }
  | _ => none

/-- The thread comes by a unit: it takes the lock if nobody has it, and gives it back at once
if there is no need to read. -/
def Server.lookAt (s : Server) (began address : Nat) (rest : List Nat) : Server :=
  let slot := { s.slots address with lastLook := some s.clock }
  if slot.holder.isSome || slot.poisoned ||
      !slot.device.needsWarming slot.credentials WARM_AFTER s.clock then
    { s.set address slot with thread := .walking began rest }
  else
    { s.set address { slot with
        holder := some (.keepWarm s.clock)
        reads := slot.reads ++ [⟨began, s.clock⟩] } with
      thread := .reading began address rest }

def Server.look (s : Server) : Option Server :=
  match s.thread with
  | .walking _ [] => some { s with thread := .asleep s.clock }
  | .walking began (id :: rest) =>
      match s.units id with
      | none => some { s with thread := .walking began rest }
      | some address => some (s.lookAt began address rest)
  | _ => none

def Server.warmed (s : Server) (answers : List Attempt) (lags : List Nat) : Option Server :=
  match s.thread with
  | .reading began address rest =>
      let slot := s.slots address
      match slot.holder with
      | some (.keepWarm asked) =>
          if during asked s.clock answers then
            let r := serve asked (slot.facing answers lags) (.keepWarm WARM_AFTER slot.credentials)
            -- A panic ends the thread.
            let thread := if r.1 = .panicked then .ended else .walking began rest
            (slot.returned true r).map fun slot => { s.set address slot with thread := thread }
          else none
      | _ => none
  | _ => none

/-- Add a unit, or replace one whose configuration changed. -/
def Server.upsert (s : Server) (id : Nat) (credentials : Bool) : Server :=
  { s with
    slots := Function.update s.slots s.fresh { credentials := credentials }
    fresh := s.fresh + 1
    units := Function.update s.units id (some s.fresh)
    order := if (s.units id).isSome then s.order else s.order ++ [id] }

/-- Remove a unit entirely. -/
def Server.remove (s : Server) (id : Nat) : Server :=
  { s with units := Function.update s.units id none, order := s.order.filter (· ≠ id) }

/-- What is done at an instant. -/
def Server.act (s : Server) : Act → Option Server
  | .use => some { s with lastUse := some s.clock }
  | .take address request => s.take address request
  | .give address answers lags => s.give address answers lags
  | .wake => s.wake
  | .look => s.look
  | .warmed answers lags => s.warmed answers lags
  | .upsert id credentials => some (s.upsert id credentials)
  | .remove id => some (s.remove id)

/-- The clock does not run back. -/
def Server.step (s : Server) (a : Nat × Act) : Option Server :=
  if a.1 < s.clock then none else { s with clock := a.1 }.act a.2

/-- One configuration of the constructor's list. -/
def Server.insert (s : Server) (c : Nat × Bool) : Server :=
  { s.upsert c.1 c.2 with order := s.order ++ [c.1] }

/-- The server when it starts.  There is no thread if the setting says never. -/
def Server.start (setting : KeepWarm) (configs : List (Nat × Bool)) : Server :=
  configs.foldl Server.insert
    { setting := setting, thread := if setting = .off then .ended else .asleep 0 }

end BreezeHttp.Warm
