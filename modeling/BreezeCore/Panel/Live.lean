import Mathlib.Data.List.Basic
import BreezeCore.Lib.Runs

/-!
# Keeping the panel live

The panel follows the server's stream, and polls while it has none.  Whatever waits for the
network or for a timer goes on in an event of its own; what runs between two events is one
step.

* `panel_live` — where no request for the stream is answered 401 while nothing polls, the
  panel always has a live source; otherwise it can be left without one.
-/

namespace BreezePanel.Live

open Runs

/-- How long the panel waits before it opens the stream again. -/
def STREAM_RETRY_MS : Nat := 3000

/-- The wait doubles up to this. -/
def STREAM_RETRY_MAX_MS : Nat := 30000

/-- Where one call of `apiStream` is. -/
inductive Phase where
  | asking
  | opened
  /-- `startLive` has done with it. -/
  | settled
  deriving DecidableEq

/-- One call of `apiStream` and whether its controller was aborted. -/
structure Stream where
  phase : Phase := .asking
  aborted : Bool := false
  deriving DecidableEq

/-- What of the page's state decides whether anything live goes on: the streams that were opened,
the controller of the current one, the poll timer and the reconnects that are scheduled. -/
structure Panel where
  hidden : Bool
  reauthing : Bool
  streams : List Stream := []
  /-- The stream whose controller it is. -/
  streamAbort : Option Nat := none
  streamRetry : Nat := STREAM_RETRY_MS
  pollTimer : Bool := false
  /-- The delays of the reconnects that are scheduled. -/
  timeouts : List Nat := []
  deriving DecidableEq

/-- A pairing begins. -/
def reauth (s : Panel) : Panel := { s with reauthing := true }

/-- No poll timer runs any more. -/
def stopPolling (s : Panel) : Panel := { s with pollTimer := false }

/-- The poll timer runs; starting it again changes nothing. -/
def startPolling (s : Panel) : Panel := { s with pollTimer := true }

/-- One stream changes, the others stay as they are. -/
def setStream (s : Panel) (k : Nat) (stream : Stream) : Panel :=
  { s with streams := s.streams.set k stream }

/-- Abort the stream whose controller is held, and stop the poll timer. -/
def stopLive (s : Panel) : Panel :=
  match s.streamAbort with
  | some k =>
      let stream := (s.streams[k]?).getD {}
      stopPolling { setStream s k { stream with aborted := true } with streamAbort := none }
  | none => stopPolling s

/-- `startLive` up to its request. -/
def startLive (s : Panel) : Panel :=
  if s.streamAbort.isSome ∨ s.hidden then s
  else { s with streams := s.streams ++ [{}], streamAbort := some s.streams.length }

/-- The end of `startLive`: reconnect with backoff, and poll in the meantime. -/
def reconnect (s : Panel) : Panel :=
  let s := { s with streamAbort := none }
  if s.hidden then s
  else
    let s := startPolling s
    let retry := min (s.streamRetry * 2) STREAM_RETRY_MAX_MS
    { s with streamRetry := retry, timeouts := s.timeouts ++ [retry] }

/-- What `startLive` does about an exception. -/
def caught (s : Panel) (stream : Stream) : Panel :=
  if stream.aborted then s
  else reconnect (if stream.phase = .opened then s else startPolling s)

/-- `Response.ok` of a fetch. -/
def ok (status : Nat) : Bool := 200 ≤ status ∧ status ≤ 299

/-- The request of a stream is answered.  One that was aborted may still turn out to be
rejected with 401, and nothing else. -/
def answered (s : Panel) (k : Nat) (stream : Stream) (status : Nat) (body : Bool) : Panel :=
  if ok status ∧ body then
    stopPolling { setStream s k { stream with phase := .opened } with
      streamRetry := STREAM_RETRY_MS }
  else
    let s := setStream s k { stream with phase := .settled }
    if status = 401 then reauth s
    else if status = 404 ∨ status = 405 then startPolling { s with streamAbort := none }
    else if ¬ ok status then caught s stream
    else reconnect s

/-- What can happen to the page: a stream is answered, ends or fails, the page is hidden or shown,
a scheduled reconnect comes due, and a pairing ends. -/
inductive Op where
  | answered (k : Nat) (status : Nat) (body : Bool)
  /-- The server closes the stream. -/
  | ended (k : Nat)
  /-- The request or the stream fails, as it does when it was aborted. -/
  | failed (k : Nat)
  | hide
  | shown
  | timeout (i : Nat)
  /-- A request other than the stream's is answered 401. -/
  | unauthorized
  | reauthDone
  deriving DecidableEq

/-- One event, where it can happen at all. A stream that was aborted can still be answered 401,
since that answer may be on its way already. -/
def step (s : Panel) : Op → Option Panel
  | .answered k status body => do
      let stream ← s.streams[k]?
      if stream.phase = .asking ∧ (stream.aborted = true → status = 401) then
        some (answered s k stream status body)
      else none
  | .ended k => do
      let stream ← s.streams[k]?
      if stream.phase = .opened ∧ stream.aborted = false then
        some (reconnect (setStream s k { stream with phase := .settled }))
      else none
  | .failed k => do
      let stream ← s.streams[k]?
      if stream.phase = .settled then none
      else some (caught (setStream s k { stream with phase := .settled }) stream)
  | .hide => if s.hidden then none else some (stopLive { s with hidden := true })
  | .shown => if s.hidden then some (startLive { s with hidden := false }) else none
  | .timeout i =>
      if i < s.timeouts.length then some (startLive { s with timeouts := s.timeouts.eraseIdx i })
      else none
  | .unauthorized => some (reauth s)
  | .reauthDone => if s.reauthing then some { s with reauthing := false } else none

/-- The panel once it has been set up.  `init` comes to this after the units were listed and
their states fetched; where the list cannot be had it has returned before, with nothing live
at all, and no event of that page is one of these. -/
def afterInit (hidden reauthing : Bool) : Panel := startLive { hidden, reauthing }

/-! ## What is live -/

/-- A call that goes on, and was not told to stop. -/
def Stream.Running (stream : Stream) : Prop := stream.aborted = false ∧ stream.phase ≠ .settled

/-- A request for the stream is under way that nobody gave up. -/
def Panel.Pending (s : Panel) : Prop :=
  ∃ stream ∈ s.streams, stream.aborted = false ∧ stream.phase = .asking

/-- The stream of this number is open, and nobody gave it up. -/
def Panel.Open (s : Panel) (k : Nat) : Prop :=
  ∃ stream, s.streams[k]? = some stream ∧ stream.aborted = false ∧ stream.phase = .opened

/-- **No live source**, though the tab is visible and nothing is under way. -/
structure Frozen (s : Panel) : Prop where
  visible : s.hidden = false
  idle : ¬ s.Pending ∧ s.reauthing = false
  noStream : ∀ k, ¬ s.Open k
  noPoll : s.pollTimer = false
  noRetry : s.timeouts = []

/-- No two streams are open at a time. -/
def OneOpen (s : Panel) : Prop := ∀ i j, s.Open i → s.Open j → i = j

/-- A request for the stream is answered 401 only while the poll timer runs, or when it was
aborted. -/
def Meets (s : Panel) : Op → Prop
  | .answered k status _ => status = 401 → s.pollTimer = true ∨
      ∃ stream, s.streams[k]? = some stream ∧ stream.aborted = true
  | _ => True

/-- The panel takes the step. -/
abbrev Step (s : Panel) (op : Op) (s' : Panel) : Prop := step s op = some s'

/-- It takes it, and the step is not the rejection that leaves the controller behind. -/
def MeetsStep (s : Panel) (op : Op) (s' : Panel) : Prop := Step s op s' ∧ Meets s op

/-! ## What becomes of a stream -/

/-- Nothing more comes of the stream. -/
def settle (s : Panel) (k : Nat) (stream : Stream) : Panel :=
  setStream s k { stream with phase := .settled }

/-- What an event of a stream makes of the panel. Only a stream that is still the running one
opens, polls or reconnects. -/
inductive Outcome (s : Panel) (op : Op) (k : Nat) (stream : Stream) : Panel → Prop where
  | opens : stream.Running → Outcome s op k stream (stopPolling
      { setStream s k { stream with phase := .opened } with streamRetry := STREAM_RETRY_MS })
  /-- The controller is left where it is. -/
  | rejected (body : Bool) : op = .answered k 401 body →
      Outcome s op k stream (reauth (settle s k stream))
  | noRoute : stream.Running →
      Outcome s op k stream (startPolling { settle s k stream with streamAbort := none })
  | dropped : stream.Running → Outcome s op k stream (reconnect (settle s k stream))
  | refused : stream.Running →
      Outcome s op k stream (reconnect (startPolling (settle s k stream)))
  | stopped : stream.aborted = true → Outcome s op k stream (settle s k stream)

/-- What the catch block does is one of the outcomes, whatever the stream was doing. -/
theorem caught_outcome {s : Panel} (op : Op) {k : Nat} {stream : Stream}
    (hphase : stream.phase ≠ .settled) :
    Outcome s op k stream (caught (settle s k stream) stream) := by
  unfold caught
  split
  next haborted => exact .stopped haborted
  next haborted =>
    have hrunning : stream.Running := ⟨by simpa using haborted, hphase⟩
    split
    next => exact .dropped hrunning
    next => exact .refused hrunning

/-- So is what follows an answer: every branch of `startLive` behind the fetch is an outcome. The
cases are the status, whether there is a body, and whether it was aborted meanwhile. -/
theorem answered_outcome {s : Panel} {k : Nat} {stream : Stream} {status : Nat} {body : Bool}
    (hphase : stream.phase = .asking) (hstatus : stream.aborted = true → status = 401) :
    Outcome s (.answered k status body) k stream (answered s k stream status body) := by
  have hasking : stream.phase ≠ .settled := by rw [hphase]; decide
  have hrunning (hne : status ≠ 401) : stream.Running := by
    refine ⟨?_, hasking⟩
    cases haborted : stream.aborted with
    | false => rfl
    | true => exact absurd (hstatus haborted) hne
  unfold answered
  split
  next hopen =>
    refine .opens (hrunning ?_)
    rintro rfl
    cases hopen.1
  next =>
    change Outcome s _ k stream (if status = 401 then reauth (settle s k stream) else _)
    split
    next heq => exact .rejected body (by rw [heq])
    next hne =>
      split
      next => exact .noRoute (hrunning hne)
      next =>
        split
        next => exact caught_outcome _ hasking
        next => exact .dropped (hrunning hne)

/-- The stream an event is about. -/
def Op.stream : Op → Option Nat
  | .answered k _ _ | .ended k | .failed k => some k
  | _ => none

/-- **An event of a stream** has one of six outcomes. They are told apart by the event, by whether
the call is still the one whose controller is kept, and by the status it was answered with. -/
theorem step_outcome {s s' : Panel} {op : Op} {k : Nat} (hop : op.stream = some k)
    (h : step s op = some s') :
    ∃ stream, s.streams[k]? = some stream ∧ stream.phase ≠ .settled ∧
      Outcome s op k stream s' := by
  cases op with
  | answered k status body =>
      obtain rfl := Option.some.inj hop
      obtain ⟨stream, hstream, h⟩ := Option.bind_eq_some_iff.mp h
      split at h
      next hmay =>
        obtain rfl := Option.some.inj h
        exact ⟨stream, hstream, by rw [hmay.1]; decide, answered_outcome hmay.1 hmay.2⟩
      next => cases h
  | ended k =>
      obtain rfl := Option.some.inj hop
      obtain ⟨stream, hstream, h⟩ := Option.bind_eq_some_iff.mp h
      split at h
      next hmay =>
        obtain rfl := Option.some.inj h
        have hphase : stream.phase ≠ .settled := by rw [hmay.1]; decide
        exact ⟨stream, hstream, hphase, .dropped ⟨hmay.2, hphase⟩⟩
      next => cases h
  | failed k =>
      obtain rfl := Option.some.inj hop
      obtain ⟨stream, hstream, h⟩ := Option.bind_eq_some_iff.mp h
      split at h
      next => cases h
      next hphase =>
        obtain rfl := Option.some.inj h
        exact ⟨stream, hstream, hphase, caught_outcome _ hphase⟩
  | hide | shown | timeout | unauthorized | reauthDone => cases hop

section Others

variable {s s' : Panel}

/-- Hiding the page can happen only once, and stops what was live. -/
theorem step_hide (h : step s .hide = some s') :
    s.hidden = false ∧ s' = stopLive { s with hidden := true } := by
  simp only [step] at h
  split at h
  next => cases h
  next hvisible => exact ⟨by simpa using hvisible, (Option.some.inj h).symm⟩

/-- The page can be shown only when it was hidden, and starts what is live. -/
theorem step_shown (h : step s .shown = some s') :
    s.hidden = true ∧ s' = startLive { s with hidden := false } := by
  simp only [step] at h
  split at h
  next hhidden => exact ⟨hhidden, (Option.some.inj h).symm⟩
  next => cases h

/-- A reconnect that comes due is taken off the list, and starts what is live. -/
theorem step_timeout {i : Nat} (h : step s (.timeout i) = some s') :
    s' = startLive { s with timeouts := s.timeouts.eraseIdx i } := by
  simp only [step] at h
  split at h
  next => exact (Option.some.inj h).symm
  next => cases h

/-- A pairing that ends starts nothing: whether the panel is live again is left to others. -/
theorem step_reauthDone (h : step s .reauthDone = some s') :
    s' = { s with reauthing := false } := by
  simp only [step] at h
  split at h
  next => exact (Option.some.inj h).symm
  next => cases h

end Others

/-! ## One controller -/

/-- A call that runs is the one whose controller is kept. -/
def Single (s : Panel) : Prop :=
  ∀ (k : Nat) (stream : Stream), s.streams[k]? = some stream → stream.Running →
    s.streamAbort = some k

/-- What holds in every state.  While the tab is hidden no controller is kept. -/
structure Inv (s : Panel) : Prop where
  single : Single s
  hidden : s.hidden = true → s.streamAbort = none

/-- No call runs. -/
def Idle (s : Panel) : Prop :=
  ∀ (k : Nat) (stream : Stream), s.streams[k]? = some stream → ¬ stream.Running

/-- With no controller held, nothing is running. -/
theorem Single.idle {s : Panel} (h : Single s) (hnone : s.streamAbort = none) : Idle s := by
  intro k stream hstream hrunning
  have hctl := h k stream hstream hrunning
  rw [hnone] at hctl
  cases hctl

/-- An invariant that speaks of no timer and of no re-pairing. -/
theorem Inv.congr {s s' : Panel} (h : Inv s) (hstreams : s'.streams = s.streams)
    (hctl : s'.streamAbort = s.streamAbort) (hhidden : s'.hidden = s.hidden) : Inv s' where
  single k stream hstream hrunning := by
    rw [hctl]
    exact h.single k stream (hstreams ▸ hstream) hrunning
  hidden hh := by
    rw [hctl]
    exact h.hidden (hhidden ▸ hh)

/-- A stream of the changed list is the one that was put there, or was there before. -/
theorem getElem?_setStream {s : Panel} {k j : Nat} {stream other : Stream}
    (h : (setStream s k stream).streams[j]? = some other) :
    j = k ∧ other = stream ∨ j ≠ k ∧ s.streams[j]? = some other := by
  change (s.streams.set k stream)[j]? = some other at h
  rw [List.getElem?_set] at h
  split at h
  next heq =>
    split at h
    next => exact Or.inl ⟨heq.symm, (Option.some.inj h).symm⟩
    next => cases h
  next hne => exact Or.inr ⟨fun heq => hne heq.symm, h⟩

/-- What runs after a call is settled ran before, and is another. -/
theorem running_settle {s : Panel} {k j : Nat} {stream other : Stream}
    (h : (settle s k stream).streams[j]? = some other) (hrunning : other.Running) :
    j ≠ k ∧ s.streams[j]? = some other := by
  rcases getElem?_setStream h with ⟨-, rfl⟩ | hother
  · exact absurd rfl hrunning.2
  · exact hother

/-- Settling a stream keeps the invariant: one stream less can be running. -/
theorem Inv.settle {s : Panel} (h : Inv s) (k : Nat) (stream : Stream) :
    Inv (settle s k stream) where
  single j other hother hrunning :=
    h.single j other (running_settle hother hrunning).2 hrunning
  hidden := h.hidden

/-- Once the call that ran is settled, none runs. -/
theorem Inv.idle_settle {s : Panel} (h : Inv s) {k : Nat} {stream : Stream}
    (hstream : s.streams[k]? = some stream) (hrunning : stream.Running) :
    Idle (BreezePanel.Live.settle s k stream) := by
  intro j other hother hruns
  obtain ⟨hne, hold⟩ := running_settle hother hruns
  have hsame := (h.single j other hold hruns).symm.trans (h.single k stream hstream hrunning)
  exact hne (Option.some.inj hsame)

/-- A panel on which nothing runs meets the invariant. -/
theorem Idle.inv {s : Panel} (h : Idle s) (hnone : s.streamAbort = none) : Inv s where
  single k stream hstream hrunning := absurd hrunning (h k stream hstream)
  hidden _ := hnone

/-- A reconnect is scheduled and no stream touched. -/
@[simp] theorem streams_reconnect (s : Panel) : (reconnect s).streams = s.streams := by
  unfold reconnect
  dsimp only
  split <;> rfl

/-- The controller is given up first. -/
@[simp] theorem streamAbort_reconnect (s : Panel) : (reconnect s).streamAbort = none := by
  unfold reconnect
  dsimp only
  split <;> rfl

/-- Whether the page is seen is not its business. -/
@[simp] theorem hidden_reconnect (s : Panel) : (reconnect s).hidden = s.hidden := by
  unfold reconnect
  dsimp only
  split <;> rfl

/-- On a page that is seen the poll timer runs until the stream is back. -/
theorem pollTimer_reconnect {s : Panel} (h : s.hidden = false) :
    (reconnect s).pollTimer = true := by
  unfold reconnect
  dsimp only
  rw [if_neg (by rw [h]; decide)]
  rfl

/-- From a panel on which nothing runs, scheduling a reconnect keeps the invariant. -/
theorem Idle.reconnect {s : Panel} (h : Idle s) : Inv (reconnect s) := by
  refine Idle.inv ?_ (streamAbort_reconnect s)
  intro k stream hstream
  rw [streams_reconnect] at hstream
  exact h k stream hstream

/-- A new call becomes the one whose controller is kept. None is kept where it starts, so none was
running. -/
theorem inv_startLive {s : Panel} (h : Inv s) : Inv (startLive s) := by
  unfold startLive
  split
  next => exact h
  next hstart =>
    have hnone : s.streamAbort = none := by
      cases hctl : s.streamAbort with
      | none => rfl
      | some k => exact absurd (Or.inl (by rw [hctl]; rfl)) hstart
    refine { single := ?_, hidden := fun hh => absurd (Or.inr hh) hstart }
    intro k stream hstream hrunning
    change (s.streams ++ [_])[k]? = some stream at hstream
    rw [List.getElem?_append] at hstream
    split at hstream
    next => exact absurd hrunning (h.single.idle hnone k stream hstream)
    next hlen =>
      have hlast : k - s.streams.length < 1 := by
        simpa using (List.getElem?_eq_some_iff.mp hstream).1
      exact congrArg some (by omega)

/-- No controller is held once everything is stopped. -/
theorem streamAbort_stopLive (s : Panel) : (stopLive s).streamAbort = none := by
  unfold stopLive
  split
  next => rfl
  next hctl => exact hctl

/-- Stopping aborts the one stream that could be running, and what is left meets the invariant. -/
theorem inv_stopLive {s : Panel} (h : Single s) : Inv (stopLive s) := by
  refine Idle.inv ?_ (streamAbort_stopLive s)
  intro j stream hstream hrunning
  unfold stopLive at hstream
  split at hstream
  next k hctl =>
    rcases getElem?_setStream hstream with ⟨-, rfl⟩ | ⟨hne, hold⟩
    · cases hrunning.1
    · have hsame := (h j stream hold hrunning).symm.trans hctl
      exact hne (Option.some.inj hsame)
  next hctl => exact h.idle hctl j stream hstream hrunning

/-- Whatever comes of a stream, the invariant is kept: the stream that it comes of is the only one
that could be running. -/
theorem inv_outcome {s s' : Panel} (h : Inv s) {op : Op} {k : Nat} {stream : Stream}
    (hstream : s.streams[k]? = some stream) (houtcome : Outcome s op k stream s') : Inv s' := by
  cases houtcome with
  | opens hrunning =>
      refine { single := ?_, hidden := h.hidden }
      intro j other hother hruns
      rcases getElem?_setStream hother with ⟨rfl, -⟩ | ⟨-, hold⟩
      · exact h.single j stream hstream hrunning
      · exact h.single j other hold hruns
  | rejected => exact (h.settle k stream).congr rfl rfl rfl
  | noRoute hrunning => exact @Idle.inv (startPolling _) (h.idle_settle hstream hrunning) rfl
  | dropped hrunning => exact (h.idle_settle hstream hrunning).reconnect
  | refused hrunning => exact @Idle.reconnect (startPolling _) (h.idle_settle hstream hrunning)
  | stopped => exact h.settle k stream

/-- **One step keeps the invariant.** The events of a stream go by their outcome, and hiding and
showing the tab stop what runs and start one call. -/
theorem inv_step {s s' : Panel} {op : Op} (h : Inv s) (hstep : step s op = some s') : Inv s' := by
  cases op with
  | answered _ _ _ | ended _ | failed _ =>
      obtain ⟨stream, hstream, -, houtcome⟩ := step_outcome rfl hstep
      exact inv_outcome h hstream houtcome
  | hide =>
      obtain ⟨-, rfl⟩ := step_hide hstep
      exact inv_stopLive h.single
  | shown =>
      obtain ⟨-, rfl⟩ := step_shown hstep
      exact inv_startLive { single := h.single, hidden := nofun }
  | timeout i =>
      obtain rfl := step_timeout hstep
      exact inv_startLive (h.congr rfl rfl rfl)
  | unauthorized =>
      obtain rfl := Option.some.inj hstep
      exact h.congr rfl rfl rfl
  | reauthDone =>
      obtain rfl := step_reauthDone hstep
      exact h.congr rfl rfl rfl

/-- The invariant is about running streams; those that are open are among them. -/
theorem Inv.oneOpen {s : Panel} (h : Inv s) : OneOpen s := by
  rintro i j ⟨first, hfirst, haborted, hphase⟩ ⟨second, hsecond, haborted', hphase'⟩
  have hi := h.single i first hfirst ⟨haborted, by rw [hphase]; decide⟩
  have hj := h.single j second hsecond ⟨haborted', by rw [hphase']; decide⟩
  exact Option.some.inj (hi.symm.trans hj)

/-! ## A live source -/

/-- While the tab is visible, the poll timer or a call runs. -/
def Fed (s : Panel) : Prop :=
  s.hidden = false → s.pollTimer = true ∨
    ∃ (k : Nat) (stream : Stream), s.streams[k]? = some stream ∧ stream.Running

/-- A fed panel is not frozen: the poll timer is a source, and a call that runs is one or is about
to be. -/
theorem Fed.notFrozen {s : Panel} (h : Fed s) : ¬ Frozen s := by
  intro hfrozen
  rcases h hfrozen.visible with hpoll | ⟨k, stream, hstream, haborted, hphase⟩
  · rw [hfrozen.noPoll] at hpoll
    cases hpoll
  · cases hcase : stream.phase with
    | asking =>
        exact hfrozen.idle.1 ⟨stream, List.mem_of_getElem? hstream, haborted, hcase⟩
    | opened => exact hfrozen.noStream k ⟨stream, hstream, haborted, hcase⟩
    | settled => exact hphase hcase

/-- A start that finds nothing in its way makes a call. -/
theorem running_startLive {s : Panel} (hnone : s.streamAbort = none) (hvisible : s.hidden = false) :
    ∃ (k : Nat) (stream : Stream), (startLive s).streams[k]? = some stream ∧ stream.Running := by
  refine ⟨s.streams.length, {}, ?_, rfl, nofun⟩
  unfold startLive
  rw [if_neg (by rw [hnone, hvisible]; decide)]
  change (s.streams ++ [_])[s.streams.length]? = some _
  rw [List.getElem?_append_right (Nat.le_refl _), Nat.sub_self]
  rfl

/-- With a controller held, starting is refused. -/
theorem startLive_kept {s : Panel} (h : s.streamAbort.isSome) : startLive s = s :=
  if_pos (Or.inl h)

/-- Starting keeps a panel fed: it opens a stream where none is held. -/
theorem Fed.startLive {s : Panel} (h : Fed s) : Fed (startLive s) := by
  cases hctl : s.streamAbort with
  | some k =>
      rw [startLive_kept (by rw [hctl]; rfl)]
      exact h
  | none =>
      intro hvisible
      cases hhidden : s.hidden with
      | false => exact Or.inr (running_startLive hctl hhidden)
      | true =>
          rw [show BreezePanel.Live.startLive s = s from if_pos (Or.inr hhidden), hhidden]
            at hvisible
          cases hvisible

/-- Settling a call that was aborted stops nothing that runs. -/
theorem Fed.settle {s : Panel} (h : Fed s) {k : Nat} {stream : Stream}
    (hstream : s.streams[k]? = some stream) (haborted : stream.aborted = true) :
    Fed (settle s k stream) := by
  intro hvisible
  rcases h hvisible with hpoll | ⟨j, other, hother, hruns⟩
  · exact Or.inl hpoll
  · have hne : k ≠ j := by
      rintro rfl
      obtain rfl := Option.some.inj (hstream.symm.trans hother)
      rw [hruns.1] at haborted
      cases haborted
    exact Or.inr ⟨j, other, (List.getElem?_set_ne hne).trans hother, hruns⟩

/-- Whatever comes of a stream on a step that meets the condition, the panel is fed: the branch of
the rejection is the one the condition leaves out. -/
theorem fed_outcome {s s' : Panel} (h : Fed s) {op : Op} {k : Nat} {stream : Stream}
    (hstream : s.streams[k]? = some stream) (hmeets : Meets s op)
    (houtcome : Outcome s op k stream s') : Fed s' := by
  cases houtcome with
  | opens hrunning =>
      intro _
      have hlen := (List.getElem?_eq_some_iff.mp hstream).1
      exact Or.inr ⟨k, _, List.getElem?_set_self hlen, hrunning.1, nofun⟩
  | rejected body hop =>
      subst hop
      rcases hmeets rfl with hpoll | ⟨other, hother, haborted⟩
      · exact fun _ => Or.inl hpoll
      · obtain rfl := Option.some.inj (hstream.symm.trans hother)
        exact h.settle hstream haborted
  | noRoute => exact fun _ => Or.inl rfl
  | dropped | refused =>
      intro hvisible
      exact Or.inl (pollTimer_reconnect ((hidden_reconnect _).symm.trans hvisible))
  | stopped haborted => exact h.settle hstream haborted

/-- **One step that meets the condition** leaves the panel fed. The condition is used by the
events of a stream alone; showing the tab starts a call whatever went before. -/
theorem fed_step {s s' : Panel} {op : Op} (hinv : Inv s) (h : Fed s) (hmeets : Meets s op)
    (hstep : step s op = some s') : Fed s' := by
  cases op with
  | answered _ _ _ | ended _ | failed _ =>
      obtain ⟨stream, hstream, -, houtcome⟩ := step_outcome rfl hstep
      exact fed_outcome h hstream hmeets houtcome
  | hide =>
      obtain ⟨-, rfl⟩ := step_hide hstep
      intro hvisible
      unfold stopLive at hvisible
      split at hvisible <;> cases hvisible
  | shown =>
      obtain ⟨hhidden, rfl⟩ := step_shown hstep
      exact fun _ => Or.inr (running_startLive (hinv.hidden hhidden) rfl)
  | timeout i =>
      obtain rfl := step_timeout hstep
      exact Fed.startLive h
  | unauthorized =>
      obtain rfl := Option.some.inj hstep
      exact h
  | reauthDone =>
      obtain rfl := step_reauthDone hstep
      exact h

/-! ## A controller left behind -/

/-- The controller of a call that is done with is kept, and nothing runs. -/
structure Dead (s : Panel) : Prop where
  visible : s.hidden = false
  kept : s.streamAbort.isSome = true
  idle : Idle s
  noPoll : s.pollTimer = false

/-- A rejection outside the condition leaves a controller kept with nothing running, no poll
timer, and the reconnects there were. -/
theorem dead_of_rejected {s s' : Panel} {op : Op} (hinv : Inv s) (hstep : step s op = some s')
    (hmeets : ¬ Meets s op) : Dead s' ∧ s'.timeouts = s.timeouts := by
  cases op with
  | answered k status body =>
      unfold Meets at hmeets
      push Not at hmeets
      obtain ⟨rfl, hpoll, hrunning⟩ := hmeets
      obtain ⟨stream, hstream, h⟩ := Option.bind_eq_some_iff.mp hstep
      split at h
      next hmay =>
        obtain rfl := Option.some.inj h
        have hruns : stream.Running :=
          ⟨by simpa using hrunning stream hstream, by rw [hmay.1]; decide⟩
        have hctl := hinv.single k stream hstream hruns
        refine ⟨{ visible := ?_, kept := ?_, idle := ?_, noPoll := ?_ }, rfl⟩
        · cases hhidden : s.hidden with
          | false => exact hhidden
          | true =>
              rw [hinv.hidden hhidden] at hctl
              cases hctl
        · exact congrArg Option.isSome hctl
        · exact hinv.idle_settle hstream hruns
        · exact eq_false_of_ne_true hpoll
      next => cases h
  | ended | failed | hide | shown | timeout | unauthorized | reauthDone =>
      exact absurd trivial hmeets

/-- A dead panel stays dead whatever comes of its streams. -/
theorem dead_outcome {s s' : Panel} (h : Dead s) {op : Op} {k : Nat} {stream : Stream}
    (hstream : s.streams[k]? = some stream) (houtcome : Outcome s op k stream s') : Dead s' := by
  have hdone := h.idle k stream hstream
  have hidle : Idle (settle s k stream) := fun j other hother hruns =>
    h.idle j other (running_settle hother hruns).2 hruns
  cases houtcome with
  | opens hruns => exact absurd hruns hdone
  | noRoute hruns => exact absurd hruns hdone
  | dropped hruns => exact absurd hruns hdone
  | refused hruns => exact absurd hruns hdone
  | rejected | stopped =>
      exact { visible := h.visible, kept := h.kept, idle := hidle, noPoll := h.noPoll }

/-- **Until the tab is hidden**, nothing runs again. The tab is visible, so it cannot be shown
again, and the events of streams that are settled start none. -/
theorem dead_step {s s' : Panel} {op : Op} (h : Dead s) (hop : op ≠ .hide)
    (hstep : step s op = some s') : Dead s' := by
  cases op with
  | answered _ _ _ | ended _ | failed _ =>
      obtain ⟨stream, hstream, -, houtcome⟩ := step_outcome rfl hstep
      exact dead_outcome h hstream houtcome
  | hide => exact absurd rfl hop
  | shown =>
      obtain ⟨hhidden, -⟩ := step_shown hstep
      rw [h.visible] at hhidden
      cases hhidden
  | timeout i =>
      obtain rfl := step_timeout hstep
      rw [@startLive_kept { s with timeouts := s.timeouts.eraseIdx i } h.kept]
      exact { visible := h.visible, kept := h.kept, idle := h.idle, noPoll := h.noPoll }
  | unauthorized =>
      obtain rfl := Option.some.inj hstep
      exact { visible := h.visible, kept := h.kept, idle := h.idle, noPoll := h.noPoll }
  | reauthDone =>
      obtain rfl := step_reauthDone hstep
      exact { visible := h.visible, kept := h.kept, idle := h.idle, noPoll := h.noPoll }

/-- Once the reconnects that were scheduled have come to nothing and the re-pairing is over,
the panel is frozen. -/
theorem frozen_of_dead {s : Panel} (h : Dead s) :
    ∃ ops t, Run Step s ops t ∧ Frozen t := by
  induction htimeouts : s.timeouts generalizing s with
  | cons delay rest ih =>
      have hstep : step s (.timeout 0) = some { s with timeouts := rest } := by
        simp only [step]
        rw [if_pos (by rw [htimeouts]; exact Nat.succ_pos _), htimeouts]
        exact congrArg some (startLive_kept h.kept)
      obtain ⟨ops, t, hrun, hfrozen⟩ := ih (@dead_step _ _ (.timeout 0) h (by decide) hstep) rfl
      exact ⟨_, t, .cons hstep hrun, hfrozen⟩
  | nil =>
      have hfrozen {t : Panel} (hstreams : t.streams = s.streams) (hhidden : t.hidden = s.hidden)
          (hpoll : t.pollTimer = s.pollTimer) (hretry : t.timeouts = s.timeouts)
          (hreauthing : t.reauthing = false) : Frozen t := by
        refine
          { visible := hhidden.trans h.visible
            idle := ⟨?_, hreauthing⟩
            noStream := ?_
            noPoll := hpoll.trans h.noPoll
            noRetry := hretry.trans htimeouts }
        · rintro ⟨stream, hmem, haborted, hphase⟩
          obtain ⟨k, hk⟩ := List.getElem?_of_mem (hstreams ▸ hmem)
          exact h.idle k stream hk ⟨haborted, by rw [hphase]; decide⟩
        · rintro k ⟨stream, hstream, haborted, hphase⟩
          exact h.idle k stream (hstreams ▸ hstream) ⟨haborted, by rw [hphase]; decide⟩
      cases hreauthing : s.reauthing with
      | false => exact ⟨[], s, .nil s, hfrozen rfl rfl rfl rfl hreauthing⟩
      | true =>
          have hstep : step s .reauthDone = some { s with reauthing := false } := by
            simp only [step]
            exact if_pos hreauthing
          exact ⟨_, _, .cons hstep (.nil _), hfrozen rfl rfl rfl rfl rfl⟩

/-! ## Every order of events -/

/-- The panel that was set up meets the invariant, hidden or not. -/
theorem inv_afterInit (hidden reauthing : Bool) : Inv (afterInit hidden reauthing) :=
  inv_startLive { single := nofun, hidden := fun _ => rfl }

/-- The panel is fed when it has started. -/
theorem fed_afterInit (hidden reauthing : Bool) : Fed (afterInit hidden reauthing) := by
  cases hidden with
  | false => exact fun _ => Or.inr (running_startLive rfl rfl)
  | true => exact nofun

/-- The invariant holds after every run from a panel that has started. -/
theorem inv_run {hidden reauthing : Bool} {s : Panel} {ops : List Op}
    (hrun : Run Step (afterInit hidden reauthing) ops s) : Inv s :=
  hrun.preserves (fun _ _ _ h hstep => inv_step h hstep) (inv_afterInit hidden reauthing)

/-- **The panel never freezes** in a run in which no request for the stream is answered 401
while nothing polls; and no run has two streams open.  After an answer of 401 while nothing
polls the panel can be left frozen. -/
theorem panel_live (hidden reauthing : Bool) :
    (∀ ops s, Run Step (afterInit hidden reauthing) ops s → OneOpen s) ∧
      (∀ ops s, Run MeetsStep (afterInit hidden reauthing) ops s → OneOpen s ∧ ¬ Frozen s) ∧
      ∀ ops s op s', Run Step (afterInit hidden reauthing) ops s → Step s op s' →
        ¬ Meets s op → ∃ more t, Run Step s' more t ∧ Frozen t := by
  refine ⟨fun _ _ hrun => (inv_run hrun).oneOpen, ?_, ?_⟩
  · intro ops s hrun
    have hstart : Inv (afterInit hidden reauthing) ∧ Fed (afterInit hidden reauthing) :=
      ⟨inv_afterInit hidden reauthing, fed_afterInit hidden reauthing⟩
    have hkeep : ∀ s op s', Inv s ∧ Fed s → MeetsStep s op s' → Inv s' ∧ Fed s' :=
      fun _ _ _ h hstep => ⟨inv_step h.1 hstep.1, fed_step h.1 h.2 hstep.2 hstep.1⟩
    obtain ⟨hinv, hfed⟩ := hrun.preserves hkeep hstart
    exact ⟨hinv.oneOpen, hfed.notFrozen⟩
  · intro ops s op s' hrun hstep hmeets
    exact frozen_of_dead (dead_of_rejected (inv_run hrun) hstep hmeets).1

/-- The stream drops, and the server asks for a new pairing when the panel reconnects. -/
def droppedThenRejected : List Op :=
  [.answered 0 200 true, .ended 0, .timeout 0, .answered 1 401 true, .reauthDone]

/-- A stream drops, is opened again and rejected while the panel polls. -/
theorem panel_live_dropped : ∃ s, Run MeetsStep (afterInit false false) droppedThenRejected s ∧
    OneOpen s ∧ ¬ Frozen s := by
  have hrun : Run MeetsStep (afterInit false false) droppedThenRejected _ :=
    .cons ⟨rfl, nofun⟩ (.cons ⟨rfl, trivial⟩ (.cons ⟨rfl, trivial⟩
      (.cons ⟨rfl, fun _ => Or.inl rfl⟩ (.cons ⟨rfl, trivial⟩ (.nil _)))))
  exact ⟨_, hrun, (panel_live false false).2.1 _ _ hrun⟩

/-- The first request of the page is answered 401, and the device paired again. -/
theorem frozen_after_pairing : ¬ ∀ hidden reauthing ops s,
    Run Step (afterInit hidden reauthing) ops s → OneOpen s ∧ ¬ Frozen s := by
  intro h
  have hrun : Run Step (afterInit false false) [.answered 0 401 true, .reauthDone] _ :=
    .cons rfl (.cons rfl (.nil _))
  refine (h _ _ _ _ hrun).2 ?_
  refine { visible := rfl, idle := ⟨?_, rfl⟩, noStream := ?_, noPoll := rfl, noRetry := rfl }
  · rintro ⟨stream, hmem, -, hphase⟩
    obtain rfl := List.mem_singleton.mp hmem
    cases hphase
  · rintro k ⟨stream, hstream, -, hphase⟩
    obtain rfl := List.mem_singleton.mp (List.mem_of_getElem? hstream)
    cases hphase

end BreezePanel.Live
