import BreezeCore.Device.FreshReads
import BreezeCore.Lib.Text

/-!
# A unit somebody panicked with

A panic poisons the lock it happens under.  Whoever waits for the lock gets the unit with
its session dropped; who only tries the lock (keep-warm, a rename) leaves a poisoned unit
alone.  Nobody takes the mark off again.

* `recovered_iff` — a unit behaves as if nobody had panicked only when nobody has, or when
  nobody will get it any more;
* `recovers_iff` — so a history keeps its promise of recovery only when no request succeeds
  after one that panicked.
-/

namespace BreezeDevice

open Runs Text

/-- A unit behind its lock, and the name clients see beside it. -/
structure Labelled where
  guarded : Guarded := {}
  name : Str
  /-- The device's own copy of the name. -/
  ownName : Str

/-- Rename a unit in place, without waiting for it.  The device's own copy changes when
nobody has the device. -/
def Labelled.rename (u : Labelled) (name : Str) (isFree : Bool) : Labelled :=
  { u with
    name := name
    ownName := if isFree && !u.guarded.held && !u.guarded.poisoned then name else u.ownName }

/-- A visit under the unit's lock, or a rename, which does not take it. -/
inductive Act where
  | visit (visit : Visit)
  | rename (name : Str) (isFree : Bool)

/-- One of these, on a unit with its name. -/
def Labelled.step (u : Labelled) : Act → Served × Labelled
  | .visit visit => ((u.guarded.step visit).1, { u with guarded := (u.guarded.step visit).2 })
  | .rename name isFree => (.nothing, u.rename name isFree)

/-- A request was answered. -/
def Served.succeeded : Served → Bool
  | .state (.ok _) | .control (.ok _) | .capabilities (.ok _) => true
  | _ => false

/-- Whoever visited panicked. -/
def Served.panicked : Served → Bool
  | .state .panicked | .control .panicked | .capabilities .panicked => true
  | _ => false

/-- Somebody panicked with the unit: a request, or keep-warm, which answers nobody. -/
def Panicked (e : Entry Labelled Act Served) : Bool :=
  e.output.panicked || (!e.before.guarded.poisoned && e.after.guarded.poisoned)

/-- All but keep-warm wait for the lock. -/
def Request.waits : Request → Bool
  | .keepWarm .. => false
  | _ => true

/-- The visit asks for the lock, and waits for it if it has to. -/
def Act.waits : Act → Bool
  | .visit v => v.request.waits
  | .rename .. => false

/-- A request closed an open session because somebody had panicked. -/
def Discards (e : Entry Labelled Act Served) : Bool :=
  e.before.guarded.poisoned && e.before.guarded.device.connected && !e.before.guarded.held &&
    e.input.waits

/-- The unit as it would be had nobody panicked. -/
def Labelled.unpoisoned (u : Labelled) : Labelled :=
  { u with guarded := { u.guarded with poisoned := false } }

/-- **Recovered:** whatever is done next goes as if nobody had panicked. -/
def Recovered (u : Labelled) : Prop :=
  ∀ act, (u.step act).1 = (u.unpoisoned.step act).1 ∧
    (u.step act).2.unpoisoned = (u.unpoisoned.step act).2.unpoisoned

/-- **The promise:** a unit has recovered once a request succeeds after a panic, and no
panic costs more than one session. -/
structure Recovers (entries : List (Entry Labelled Act Served)) : Prop where
  recovered : ∀ pre e post, entries = pre ++ e :: post →
    (∃ p ∈ pre, Panicked p = true) → e.output.succeeded = true → Recovered e.after
  discards : entries.countP Discards ≤ entries.countP Panicked

variable {T : Type}

/-! ## A failure leaves no session -/

/-- An exchange that fails gives the connection up. By induction on the messages it still waits
for. -/
theorem exchangeLoop_retires {command : Bytes.Octets}
    {decode : Bytes.Octets → Fallible.Exec DeviceError T} {more : Nat} {d d' : Device}
    {e : DeviceError} (h : Device.exchangeLoop command decode more d = (.failed e, d')) :
    d'.connected = false := by
  induction more generalizing d with
  | zero =>
      unfold Device.exchangeLoop at h
      split at h
      next => cases h
      next =>
        obtain ⟨-, rfl⟩ := Prod.mk.inj h
        rfl
      next => cases h
      next => cases h
  | succ more ih =>
      unfold Device.exchangeLoop at h
      split at h
      next => cases h
      next =>
        dsimp only at h
        split at h
        next => exact ih h
        next =>
          obtain ⟨-, rfl⟩ := Prod.mk.inj h
          rfl
      next => cases h
      next => cases h

/-- A call that fails leaves no session behind, when it was given none. -/
def Retires (f : Device → Outcome T × Device) : Prop :=
  ∀ d e, d.connected = false → (f d).1 = .failed e → (f d).2.connected = false

/-- A call for a state that fails leaves no session behind. -/
theorem exchangeState_retires {command : Bytes.Octets} {d d' : Device} {e : DeviceError}
    (h : d.exchangeState command = (.failed e, d')) : d'.connected = false := by
  unfold Device.exchangeState at h
  split at h
  next => cases h
  next outcome d'' hexchange =>
    obtain ⟨rfl, rfl⟩ := Prod.mk.inj h
    exact exchangeLoop_retires hexchange

/-- So a refresh that fails leaves no session behind. -/
theorem refresh_retires : Retires Device.refresh :=
  fun _ _ _ h => exchangeState_retires (Prod.ext h rfl)

/-- A read that fails leaves no session behind, when it was given none. -/
theorem readState_retires (arrived : Nat) : Retires (readState arrived) := by
  intro d e hclosed
  unfold readState
  split
  next => nofun
  next =>
    split
    next => exact fun _ => hclosed
    next => exact refresh_retires d e hclosed

/-- A change sent over a state leaves no session behind when it fails. -/
theorem sendOver_retires {change : Change} {merged : Nat} {cached : Bool} {base : Ac.State}
    {d : Device} {e : DeviceError} (h : (sendOver change merged cached base d).1 = .failed e) :
    (sendOver change merged cached base d).2.connected = false := by
  unfold sendOver at h ⊢
  dsimp only at h ⊢
  cases happly : d.apply (change.applyTo (.fromState base)) with
  | mk outcome d' =>
      rw [happly] at h
      cases outcome with
      | failed e' => exact exchangeState_retires happly
      | ok state => cases h
      | panicked => cases h
      | waiting => cases h

/-- A control that fails leaves no session behind, when it was given none: neither the read in
front of it nor the send does. -/
theorem sendChange_retires (change : Change) (merged now : Nat) :
    Retires fun d => sendChange d change merged now := by
  intro d e hclosed
  unfold sendChange
  dsimp only
  split
  next => exact sendOver_retires
  next =>
    split
    next => exact sendOver_retires
    next e' d' hrefresh =>
      have hlost := refresh_retires d e' hclosed
      rw [hrefresh] at hlost
      exact fun _ => hlost rfl
    next => nofun
    next => nofun

/-- A query for capabilities that fails leaves none either, in the first of its two exchanges or
in the second. -/
theorem fetchCapabilities_retires : Retires Device.fetchCapabilities := by
  intro d e hclosed
  unfold Device.fetchCapabilities
  split
  next => nofun
  next =>
    dsimp only
    split
    next caps d' hexchange =>
      split
      next =>
        unfold Device.fetchMore
        dsimp only
        split <;> nofun
      next => nofun
    next outcome d' hexchange =>
      rintro rfl
      exact exchangeLoop_retires hexchange

/-! ## What a visit does -/

/-- The lock is poisoned after a call when it was before, or the call panicked. -/
theorem Guarded.withUnit_poisoned (g : Guarded) (f : Device → Outcome T × Device) :
    (g.withUnit f).2.poisoned = true ↔ g.poisoned = true ∨ (f g.lockDevice).1 = .panicked := by
  unfold withUnit
  cases hf : f g.lockDevice with
  | mk outcome d => cases outcome <;> simp

/-- It is held after a call when it was before, or the call does not return. -/
theorem Guarded.withUnit_held (g : Guarded) (f : Device → Outcome T × Device) :
    (g.withUnit f).2.held = true ↔ g.held = true ∨ (f g.lockDevice).1 = .waiting := by
  unfold withUnit
  cases hf : f g.lockDevice with
  | mk outcome d => cases outcome <;> simp

/-- What is told of a call is what came of it. -/
structure Told (wrap : Outcome T → Served) : Prop where
  succeeded : ∀ o, (wrap o).succeeded = true ↔ ∃ a, o = .ok a
  panicked : ∀ o, (wrap o).panicked = true ↔ o = .panicked

/-- What a reader is told is what its call came to. -/
theorem told_state : Told Served.state := by
  constructor <;> intro o <;> cases o <;> simp [Served.succeeded, Served.panicked]

/-- What a controller is told has its success and its panic read off the outcome of the
request. -/
theorem told_control : Told Served.control := by
  constructor <;> intro o <;> cases o <;> simp [Served.succeeded, Served.panicked]

/-- What is told of the capabilities has its success and its panic read off the outcome. -/
theorem told_capabilities : Told Served.capabilities := by
  constructor <;> intro o <;> cases o <;> simp [Served.succeeded, Served.panicked]

/-- A session that is open when the unit is handed out was open, and nobody panicked. -/
theorem lockDevice_connected {g : Guarded} (h : g.lockDevice.connected = true) :
    g.poisoned = false ∧ g.device.connected = true := by
  unfold Guarded.lockDevice at h
  split at h
  next => cases h
  next hpoisoned => exact ⟨by simpa using hpoisoned, h⟩

/-- **A visit** to a unit that nobody has: a call on the unit, which tells what came of it
unless it is keep-warm's, or no call at all. -/
theorem Guarded.step_cases {g : Guarded} (hfree : g.held = false) (visit : Visit) :
    ((g.step visit).1 = .nothing ∧ (g.step visit).2.poisoned = g.poisoned ∧
        (g.step visit).2.held = false ∧
        ((g.step visit).2.device.connected = true →
          (visit.request.waits = true → g.poisoned = false) ∧ g.device.connected = true)) ∨
      ∃ (T : Type) (f : Device → Outcome T × Device) (wrap : Outcome T → Served),
        g.step visit = (wrap ((g.facing visit).withUnit f).1, ((g.facing visit).withUnit f).2) ∧
          Retires f ∧ (Told wrap ∨ g.poisoned = false ∧ wrap = fun _ => .nothing) := by
  unfold step
  rw [if_neg (by simp [hfree])]
  dsimp only
  cases visit.request with
  | readState arrived =>
      exact .inr ⟨_, _, .state, rfl, readState_retires arrived, .inl told_state⟩
  | control change merged =>
      exact .inr ⟨_, _, .control, rfl, sendChange_retires change merged visit.now,
        .inl told_control⟩
  | collect =>
      refine .inl ⟨rfl, rfl, hfree, ?_⟩
      intro h
      exact ⟨fun _ => (lockDevice_connected h).1, (lockDevice_connected h).2⟩
  | capabilities =>
      exact .inr ⟨_, _, .capabilities, rfl, fetchCapabilities_retires, .inl told_capabilities⟩
  | keepWarm maxIdle credentials =>
      dsimp only
      split
      next => exact .inl ⟨rfl, rfl, hfree, fun h => ⟨nofun, h⟩⟩
      next hwarm =>
        refine .inr ⟨_, _, fun _ => .nothing, rfl, refresh_retires, .inr ⟨?_, rfl⟩⟩
        rw [Bool.or_eq_true, not_or] at hwarm
        exact Bool.eq_false_of_not_eq_true hwarm.1
  | forget => exact .inl ⟨rfl, rfl, hfree, nofun⟩

/-- While somebody holds the lock nobody gets it. -/
theorem Guarded.step_held {g : Guarded} (hheld : g.held = true) (visit : Visit) :
    g.step visit = (.nothing, g) := by
  unfold step
  rw [if_pos hheld]

/-- A request that succeeds had the unit, and gave it back. -/
theorem Guarded.step_succeeded {g : Guarded} {visit : Visit}
    (h : (g.step visit).1.succeeded = true) : (g.step visit).2.held = false := by
  cases hheld : g.held with
  | true =>
      rw [step_held hheld] at h
      cases h
  | false =>
      rcases step_cases hheld visit with ⟨hnothing, -⟩ | ⟨T, f, wrap, hstep, -, htold⟩
      · rw [hnothing] at h
        cases h
      · rw [hstep] at h ⊢
        rcases htold with htold | ⟨-, rfl⟩
        · obtain ⟨a, ha⟩ := (htold.succeeded _).mp h
          rw [withUnit_fst] at ha
          have hfree := (not_congr (withUnit_held (g.facing visit) f)).mpr
            (by rw [ha]; simpa [facing] using hheld)
          simpa using hfree
        · cases h

/-- **Nobody takes the mark off**, and a panic sets it. The lock is taken with the mark on it, and
given back with it. -/
theorem Guarded.step_poisoned {g : Guarded} {visit : Visit}
    (h : g.poisoned = true ∨ (g.step visit).1.panicked = true) :
    (g.step visit).2.poisoned = true := by
  cases hheld : g.held with
  | true =>
      rw [step_held hheld] at h ⊢
      exact h.resolve_right nofun
  | false =>
      rcases step_cases hheld visit with ⟨hnothing, hsame, -⟩ | ⟨T, f, wrap, hstep, -, htold⟩
      · rw [hnothing] at h
        rw [hsame]
        exact h.resolve_right nofun
      · rw [hstep] at h ⊢
        refine (withUnit_poisoned _ _).mpr (h.imp id ?_)
        intro hpanicked
        rcases htold with htold | ⟨-, rfl⟩
        · rw [← withUnit_fst]
          exact (htold.panicked _).mp hpanicked
        · cases hpanicked

/-- On a unit that somebody panicked with, a session stays open only if nobody waits for the
unit, or the request succeeds, panics, or never comes back. -/
theorem Guarded.step_connected {g : Guarded} {visit : Visit} (hfree : g.held = false)
    (hpoisoned : g.poisoned = true) (h : (g.step visit).2.device.connected = true) :
    (visit.request.waits = false ∧ g.device.connected = true) ∨
      (g.step visit).1.succeeded = true ∨ (g.step visit).1.panicked = true ∨
        (g.step visit).2.held = true := by
  rcases step_cases hfree visit with ⟨-, -, -, hopen⟩ | ⟨T, f, wrap, hstep, hretires, htold⟩
  · obtain ⟨hwaits, hconnected⟩ := hopen h
    refine .inl ⟨?_, hconnected⟩
    by_contra hwait
    rw [hwaits (by simpa using hwait)] at hpoisoned
    cases hpoisoned
  · right
    rw [hstep] at h ⊢
    rcases htold with htold | ⟨hclean, -⟩
    · rw [withUnit_device] at h
      rw [withUnit_held, withUnit_fst]
      cases hoc : (f (g.facing visit).lockDevice).1 with
      | ok a => exact .inl ((htold.succeeded _).mpr ⟨a, rfl⟩)
      | panicked => exact .inr (.inl ((htold.panicked _).mpr rfl))
      | waiting => exact .inr (.inr (.inr rfl))
      | failed e =>
          have hclosed : (g.facing visit).lockDevice.connected = false := by
            by_contra hopen
            have hclean := (lockDevice_connected (by simpa using hopen)).1
            exact absurd (hpoisoned.symm.trans hclean) (by decide)
          rw [hretires _ e hclosed hoc] at h
          cases h
    · rw [hclean] at hpoisoned
      cases hpoisoned

/-! ## Recovery -/

/-- **A unit has recovered** only when nobody panicked with it, or when nobody will get it
any more. -/
theorem recovered_iff {u : Labelled} :
    Recovered u ↔ u.guarded.poisoned = false ∨ u.guarded.held = true := by
  constructor
  · intro h
    by_contra hbad
    obtain ⟨hpoisoned, hfree⟩ := not_or.mp hbad
    rw [Bool.not_eq_false] at hpoisoned
    rw [Bool.not_eq_true] at hfree
    -- A new name does not reach the device.
    have hname := congrArg Labelled.ownName (h (.rename ('x' :: u.ownName) true)).2
    simp [Labelled.step, Labelled.rename, Labelled.unpoisoned, hpoisoned, hfree] at hname
  · rintro (hclean | hheld) act
    · have hsame : u.unpoisoned = u := by
        unfold Labelled.unpoisoned
        rw [← hclean]
      rw [hsame]
      exact ⟨rfl, rfl⟩
    · cases act with
      | visit visit =>
          have hheld' : u.unpoisoned.guarded.held = true := hheld
          simp only [Labelled.step, Guarded.step_held hheld, Guarded.step_held hheld']
          exact ⟨trivial, rfl⟩
      | rename name isFree =>
          simp [Labelled.step, Labelled.rename, Labelled.unpoisoned, hheld]

/-- Whoever succeeds gives the unit back. -/
theorem step_returned {u : Labelled} {act : Act} (h : (u.step act).1.succeeded = true) :
    (u.step act).2.guarded.held = false := by
  cases act with
  | visit visit => exact Guarded.step_succeeded h
  | rename name isFree => cases h

/-- A step sets the mark exactly when somebody panics in it. No step takes the mark off, which is
why the other direction keeps what was set before. -/
theorem step_poisoned_iff (u : Labelled) (act : Act) :
    (u.step act).2.guarded.poisoned = true ↔
      u.guarded.poisoned = true ∨ Panicked (entry Labelled.step u act) = true := by
  unfold Panicked entry
  constructor
  · intro h
    cases hpoisoned : u.guarded.poisoned with
    | true => exact .inl rfl
    | false => exact .inr (by simp [h])
  · intro h
    cases act with
    | visit visit =>
        rcases h with h | h
        · exact Guarded.step_poisoned (.inl h)
        · rcases Bool.or_eq_true_iff.mp h with h | h
          · exact Guarded.step_poisoned (.inr h)
          · exact (Bool.and_eq_true_iff.mp h).2
    | rename name isFree =>
        rcases h with h | h
        · exact h
        · simp [Labelled.step, Labelled.rename, Served.panicked] at h

/-- An open session that the next request to wait for the unit will close. -/
def Labelled.owed (u : Labelled) : Nat :=
  if u.guarded.poisoned && u.guarded.device.connected && !u.guarded.held then 1 else 0

/-- At most one session is owed. -/
theorem owed_le (u : Labelled) : u.owed ≤ 1 := by
  unfold Labelled.owed
  split <;> omega

/-- A visit discards no more than what is owed. -/
theorem discards_le_owed (u : Labelled) (act : Act) :
    (Discards (entry Labelled.step u act)).toNat ≤ u.owed := by
  unfold Discards entry Labelled.owed
  dsimp only
  cases u.guarded.poisoned && u.guarded.device.connected && !u.guarded.held with
  | false => exact le_rfl
  | true => cases act.waits <;> decide

/-- What a step closes or leaves to be closed was left to it, or somebody panics in it. A mark
that is set behind a step without a panic is older than the step, so the step succeeded for
nobody. -/
theorem discards_step {u : Labelled} {act : Act}
    (hcalm : (u.step act).1.succeeded = true → u.guarded.poisoned = false) :
    (Discards (entry Labelled.step u act)).toNat + (u.step act).2.owed ≤
      (Panicked (entry Labelled.step u act)).toNat + u.owed := by
  have hdiscards := discards_le_owed u act
  cases hpanicked : Panicked (entry Labelled.step u act) with
  | true =>
      have hnext := owed_le (u.step act).2
      rw [Bool.toNat_true]
      omega
  | false =>
      by_cases hopen : ((u.step act).2.guarded.poisoned &&
          (u.step act).2.guarded.device.connected && !(u.step act).2.guarded.held) = true
      · obtain ⟨⟨hafter, hconnected⟩, hreturned⟩ := by simpa using hopen
        -- The mark is older than the step, and nobody waited for the unit.
        have hpoisoned : u.guarded.poisoned = true := by
          have hsticky := (step_poisoned_iff u act).mp hafter
          rw [hpanicked] at hsticky
          exact hsticky.resolve_right nofun
        have hkept : Discards (entry Labelled.step u act) = false ∧
            u.guarded.device.connected = true ∧ u.guarded.held = false := by
          cases act with
          | rename name isFree =>
              refine ⟨?_, hconnected, hreturned⟩
              simp [Discards, entry, Act.waits]
          | visit visit =>
              have hfree : u.guarded.held = false := by
                by_contra hheld
                have hstuck := Guarded.step_held (by simpa using hheld) visit
                simp only [Labelled.step, hstuck] at hreturned
                exact hheld hreturned
              rcases Guarded.step_connected hfree hpoisoned hconnected with
                ⟨hwaits, hold⟩ | hsucceeded | htold | hheld
              · refine ⟨?_, hold, hfree⟩
                simp [Discards, entry, Act.waits, hwaits]
              · exact absurd (hpoisoned.symm.trans (hcalm hsucceeded)) (by decide)
              · have hboth : Panicked (entry Labelled.step u (.visit visit)) = true :=
                  Bool.or_eq_true_iff.mpr (.inl htold)
                exact absurd (hboth.symm.trans hpanicked) (by decide)
              · exact absurd (hheld.symm.trans hreturned) (by decide)
        obtain ⟨hnone, hold, hfree⟩ := hkept
        have howed : u.owed = 1 := by simp [Labelled.owed, hpoisoned, hold, hfree]
        have hnext := owed_le (u.step act).2
        rw [hnone, howed, Bool.toNat_false]
        omega
      · have hnext : (u.step act).2.owed = 0 := if_neg hopen
        rw [hnext]
        omega

/-- Where no request succeeds on a unit somebody panicked with, no panic costs more than one
session. -/
theorem countP_discards_le (acts : List Act) : ∀ u : Labelled,
    (∀ e ∈ trace Labelled.step u acts,
      e.output.succeeded = true → e.before.guarded.poisoned = false) →
    (trace Labelled.step u acts).countP Discards ≤
      (trace Labelled.step u acts).countP Panicked + u.owed := by
  induction acts with
  | nil => exact fun u _ => Nat.zero_le _
  | cons act acts ih =>
      intro u hcalm
      have hcons : trace Labelled.step u (act :: acts) =
          entry Labelled.step u act :: trace Labelled.step (u.step act).2 acts := rfl
      rw [hcons, List.forall_mem_cons] at hcalm
      obtain ⟨hfirst, hrest⟩ := hcalm
      have hstep := discards_step hfirst
      have hnext := ih (u.step act).2 hrest
      have hone : ∀ b : Bool, (if b = true then 1 else 0) = b.toNat := by decide
      rw [hcons, List.countP_cons, List.countP_cons, hone, hone]
      omega

/-- **Recovery.**  A history keeps the promise exactly when no request succeeds in it after
somebody panicked: none that says anything of the promise. -/
theorem recovers_iff {u : Labelled} (hfresh : u.guarded.poisoned = false) (acts : List Act) :
    Recovers (trace Labelled.step u acts) ↔ (trace Labelled.step u acts).Pairwise fun p e =>
      Panicked p = true → e.output.succeeded = false := by
  have hmarked : ∀ pre e post, trace Labelled.step u acts = pre ++ e :: post →
      e = entry Labelled.step e.before e.input ∧
        (e.before.guarded.poisoned = true ↔ ∃ p ∈ pre, Panicked p = true) := by
    intro pre e post heq
    obtain ⟨hentry, rest, hmarked⟩ := @history_trace _ _ _ Labelled.step
      (fun past s _ => s.guarded.poisoned = true ↔ ∃ p ∈ past, Panicked p = true) (by
        intro past s act _ h
        rw [step_poisoned_iff, h]
        simp [or_and_right, exists_or]) acts u [] (by simp [hfresh]) pre e post heq
    exact ⟨hentry, hmarked⟩
  rw [pairwise_iff_split]
  constructor
  · intro h pre e post heq p hp hpanicked
    have hexists : ∃ p ∈ pre, Panicked p = true := ⟨p, hp, hpanicked⟩
    by_contra hfailed
    have hsucceeded : e.output.succeeded = true := by simpa using hfailed
    obtain ⟨hentry, hmark⟩ := hmarked pre e post heq
    have hpoisoned : e.after.guarded.poisoned = true := by
      rw [hentry]
      exact (step_poisoned_iff _ _).mpr (.inl (hmark.mpr hexists))
    have hreturned : e.after.guarded.held = false := by
      rw [hentry] at hsucceeded ⊢
      exact step_returned hsucceeded
    rcases recovered_iff.mp (h.recovered pre e post heq hexists hsucceeded) with hclean | hheld
    · exact absurd (hpoisoned.symm.trans hclean) (by decide)
    · exact absurd (hheld.symm.trans hreturned) (by decide)
  · intro h
    refine ⟨?_, ?_⟩
    · rintro pre e post heq ⟨p, hp, hpanicked⟩ hsucceeded
      rw [h pre e post heq p hp hpanicked] at hsucceeded
      cases hsucceeded
    · have hcount := countP_discards_le acts u ?_
      · have howed : u.owed = 0 := by simp [Labelled.owed, hfresh]
        rw [howed] at hcount
        exact hcount
      · intro e he hsucceeded
        obtain ⟨pre, post, heq⟩ := List.append_of_mem he
        by_contra hpoisoned
        obtain ⟨p, hp, hpanicked⟩ := (hmarked pre e post heq).2.mp (by simpa using hpoisoned)
        rw [h pre e post heq p hp hpanicked] at hsucceeded
        cases hsucceeded

/-- A frame whose length byte is zero. -/
def badFrame : Bytes.Octets := [0xAA, 0, 0xAC, 0, 0, 0, 0, 0, 0, 4]

/-- A state as a unit reports it. -/
def stateFrame : Bytes.Octets :=
  [0xAA, 0x23, 0xAC, 0, 0, 0, 0, 0, 0x02, 0x03, 0xC0, 0x01, 0x88, 0x64, 0x7F, 0x7F, 0, 0, 0, 0, 0,
    0x63, 0x45, 0x0C, 0, 0x56, 0x19, 0, 0, 0, 0, 0, 0, 0x04, 0x97, 0xC3]

/-- A read that starts at `now` and is answered ten milliseconds later. -/
def readAt (now : Nat) (reply : Except DeviceError Bytes.Octets) : Act :=
  .visit { request := .readState now, now := now, answers := [⟨reply, now + 10⟩] }

/-- A unit with its name. -/
def bedroom : Labelled where
  name := "Bedroom".toList
  ownName := "Bedroom".toList

/-- A read panics, and the unit is gone when the next two ask. -/
theorem recovers_unitGone :
    Recovers (trace Labelled.step bedroom
      [readAt 0 (.ok stateFrame), readAt 100 (.ok badFrame), readAt 200 (.error closed),
        readAt 300 (.error closed)]) :=
  (recovers_iff rfl _).mpr (by decide +kernel)

/-- A read panics, and the next two succeed: both close the session they found open. -/
theorem session_discarded_twice :
    let entries := trace Labelled.step bedroom
      [readAt 0 (.ok badFrame), readAt 100 (.ok stateFrame), readAt 200 (.ok stateFrame)]
    entries.countP Panicked = 1 ∧ entries.countP Discards = 2 ∧ ¬ Recovers entries := by
  refine ⟨by decide +kernel, by decide +kernel, ?_⟩
  intro h
  exact absurd h.discards (by decide +kernel)

end BreezeDevice
