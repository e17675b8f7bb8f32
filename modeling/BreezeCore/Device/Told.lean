import BreezeCore.Device.Manager

/-!
# Everything the unit has told

The log of a device is complete: whatever report the unit gave in answer to a command
that asks for its state is in it, in the order in which they came.  What was told is read
off the answers and the number of the commands that went out, without the log.

`Tells` says so of a stretch of a device's life; `exchangeLoop_takes` shows it for the
loop every command goes through, and the calls follow one by one.
-/

namespace BreezeDevice

variable {T : Type} {d d' d'' : Device}

/-- The state report an event brings, and when. -/
def Event.report? : Event → Option (Nat × Ac.State)
  | ⟨t, .reported state⟩ => some (t, state)
  | _ => none

/-- The states a log tells of, first to last. -/
def reports (log : List Event) : List Ac.State := (log.filterMap Event.report?).map Prod.snd

/-- The reports of two stretches of a log. -/
theorem reports_append (log log' : List Event) :
    reports (log ++ log') = reports log ++ reports log' := by
  unfold reports
  rw [List.filterMap_append, List.map_append]

/-- What the frame an attempt brought says, if it says anything. -/
def Attempt.value? {ε : Type} (decode : Bytes.Octets → Fallible.Exec ε T) (a : Attempt) :
    Option T :=
  a.inner.toOption.bind fun inner =>
    (Frame.parse inner .airConditioner).toOption.bind fun payload => (decode payload).toOption

/-- The value of a call that came back with one. -/
def Outcome.value? : Outcome T → Option T
  | .ok value => some value
  | _ => none

/-- What was decoded is the value of the outcome. -/
theorem Outcome.ofExec_value (x : Fallible.Exec DeviceError T) :
    (Outcome.ofExec x).value? = x.toOption := by
  match x with
  | .ok _ => rfl
  | .error (.error _) => rfl
  | .error .panic => rfl

/-- Renaming errors makes and loses no value. -/
theorem mapFail_toOption {ε ε' : Type} (f : ε → ε') (x : Fallible.Exec ε T) :
    (Fallible.mapFail f x).toOption = x.toOption := by
  match x with
  | .ok _ => rfl
  | .error (.error _) => rfl
  | .error .panic => rfl

/-- From one device to the next `n` commands went out, each was answered by the next
answer there was, and the log has exactly the reports that were `told` in those. -/
structure Tells (told : Attempt → Option Ac.State) (n : Nat) (d d' : Device) : Prop where
  sent : d'.sent.length = d.sent.length + n
  line : d'.line = d.line.drop n
  log : reports d'.log = reports d.log ++ (d.line.take n).filterMap told

/-- A report is what its attempt says, read as a state. -/
abbrev Attempt.state? : Attempt → Option Ac.State := Attempt.value? Ac.State.parse

/-- Nothing is read as a state. -/
abbrev Attempt.nothing? : Attempt → Option Ac.State := fun _ => none

section Telling

variable {told : Attempt → Option Ac.State} {m n : Nat}

/-- What leaves the line, the commands and the log alone. -/
theorem Tells.quiet (hsent : d'.sent = d.sent) (hline : d'.line = d.line)
    (hlog : d'.log = d.log) : Tells told 0 d d' :=
  ⟨by rw [hsent]; rfl, hline, by rw [hlog]; exact (List.append_nil _).symm⟩

/-- One step after the other: the second takes its answers behind those of the first. -/
theorem Tells.trans (h : Tells told m d d') (h' : Tells told n d' d'') :
    Tells told (m + n) d d'' := by
  refine ⟨?_, ?_, ?_⟩
  · rw [h'.sent, h.sent, Nat.add_assoc]
  · rw [h'.line, h.line, List.drop_drop]
  · rw [h'.log, h.log, h.line, List.take_add, List.filterMap_append, List.append_assoc]

/-- Calls that are made one after the other. -/
theorem Tells.and_then (h : Tells told m d d') (hnext : ∃ n, Tells told n d' d'') :
    ∃ n, Tells told n d d'' := by
  obtain ⟨n, h'⟩ := hnext
  exact ⟨m + n, h.trans h'⟩

/-- A call before which nothing is told. -/
theorem Tells.after (h : Tells told 0 d d') (hnext : Tells told n d' d'') :
    Tells told n d d'' := by
  have htrans := h.trans hnext
  rw [Nat.zero_add] at htrans
  exact htrans

/-- Counting messages asks the unit nothing. -/
theorem tells_nextMessageId (d : Device) : Tells told 0 d d.nextMessageId.2 :=
  Tells.quiet rfl rfl rfl

/-- Dropping the session notes no report. -/
theorem tells_dropSession (d : Device) : Tells told 0 d d.dropSession := Tells.quiet rfl rfl rfl

/-- Keeping the capabilities notes no report. -/
theorem tells_capabilities (d : Device) (caps : Ac.Capabilities) :
    Tells told 0 d { d with capabilities := some caps } := Tells.quiet rfl rfl rfl

variable {command : Bytes.Octets} {decode : Bytes.Octets → Fallible.Exec DeviceError T}

/-- An attempt takes the next answer off the line. -/
theorem attempt_line (d : Device) (command : Bytes.Octets)
    (decode : Bytes.Octets → Fallible.Exec DeviceError T) :
    (d.attempt command decode).2.2.line = d.line.drop 1 := by
  have htry : (d.tryExchange command).2.2.line = d.line.drop 1 := by
    unfold Device.tryExchange
    dsimp only
    split
    next hline =>
      rw [hline]
      rfl
    next a line hline =>
      rw [hline]
      split <;> rfl
  unfold Device.attempt
  split <;> simp_all only

/-- An attempt notes nothing. -/
theorem attempt_log (d : Device) (command : Bytes.Octets)
    (decode : Bytes.Octets → Fallible.Exec DeviceError T) :
    (d.attempt command decode).2.2.log = d.log := by
  have htry : (d.tryExchange command).2.2.log = d.log := by
    unfold Device.tryExchange
    dsimp only
    split
    next => rfl
    next => split <;> rfl
  unfold Device.attempt
  split <;> simp_all only

/-- The payload is that of the next answer. -/
theorem tryExchange_value (d : Device) (command : Bytes.Octets) :
    (d.tryExchange command).1.value? = d.line.head?.bind fun a =>
      a.inner.toOption.bind fun inner => (Frame.parse inner .airConditioner).toOption := by
  unfold Device.tryExchange
  dsimp only
  split
  next hline => rw [hline]; rfl
  next a line hline =>
    rw [hline, List.head?_cons, Option.bind_some]
    split
    next e hinner => rw [hinner]; rfl
    next inner hinner =>
      rw [hinner]
      exact (Outcome.ofExec_value _).trans (mapFail_toOption _ _)

/-- The value of an attempt is what the next answer says. -/
theorem attempt_value (d : Device) (command : Bytes.Octets)
    (decode : Bytes.Octets → Fallible.Exec DeviceError T) :
    (d.attempt command decode).1.value? = d.line.head?.bind (Attempt.value? decode) := by
  have htold : d.line.head?.bind (Attempt.value? decode) =
      (d.tryExchange command).1.value?.bind fun payload => (decode payload).toOption := by
    rw [tryExchange_value, Option.bind_assoc]
    congr 1
    funext a
    exact (Option.bind_assoc _ _ _).symm
  rw [htold]
  unfold Device.attempt
  split
  next payload _ _ heq =>
    rw [heq]
    exact Outcome.ofExec_value (decode payload)
  next heq => rw [heq]; rfl
  next heq => rw [heq]; rfl
  next heq => rw [heq]; rfl

/-- One attempt, from the device before to the device after. -/
theorem attempt_tells (d : Device) (command : Bytes.Octets)
    (decode : Bytes.Octets → Fallible.Exec DeviceError T) :
    Tells Attempt.nothing? 1 d (d.attempt command decode).2.2 := by
  refine ⟨?_, attempt_line d command decode, ?_⟩
  · rw [d.attempt_sent, List.length_append, List.length_singleton]
  · rw [attempt_log]
    simp

/-- Of one attempt at most one value comes. -/
theorem filterMap_take_one (line : List Attempt) (value : Attempt → Option T) :
    (line.take 1).filterMap value = (line.head?.bind value).toList := by
  cases line with
  | nil => rfl
  | cons a line =>
      rw [List.take_succ_cons, List.take_zero, List.head?_cons, Option.bind_some]
      cases h : value a <;> simp [h]

/-- The note at the end of an exchange is no report. -/
theorem Tells.note (h : Tells told n d d') {x : Event} (hx : x.report? = none)
    (hsent : d''.sent = d'.sent) (hline : d''.line = d'.line) (hlog : d''.log = d'.log ++ [x]) :
    Tells told n d d'' := by
  refine ⟨by rw [hsent, h.sent], by rw [hline, h.line], ?_⟩
  rw [hlog, reports_append, h.log]
  have hnone : reports [x] = [] := by
    unfold reports
    rw [List.filterMap_cons_none hx]
    rfl
  rw [hnone, List.append_nil]

/-- A call took this many answers, and of all they tell came back with the last. -/
def Takes (decode : Bytes.Octets → Fallible.Exec DeviceError T) (d : Device)
    (r : Outcome T × Device) : Prop :=
  ∃ n, Tells Attempt.nothing? n d r.2 ∧
    (d.line.take n).filterMap (Attempt.value? decode) = r.1.value?.toList

/-- An exchange takes one answer after the other until one tells something, and
comes back with that. -/
theorem exchangeLoop_takes (more : Nat) :
    ∀ d : Device, Takes decode d (Device.exchangeLoop command decode more d) := by
  induction more with
  | zero =>
      intro d
      have htells := attempt_tells d command decode
      have hvalue := filterMap_take_one d.line (Attempt.value? decode)
      rw [← attempt_value d command decode] at hvalue
      unfold Device.exchangeLoop
      split
      next heq =>
        rw [heq] at htells hvalue
        exact ⟨1, htells.note rfl rfl rfl rfl, hvalue⟩
      next heq =>
        rw [heq] at htells hvalue
        exact ⟨1, (htells.trans (tells_dropSession _)).note rfl rfl rfl rfl, hvalue⟩
      next heq =>
        rw [heq] at htells hvalue
        exact ⟨1, htells, hvalue⟩
      next heq =>
        rw [heq] at htells hvalue
        exact ⟨1, htells, hvalue⟩
  | succ more ih =>
      intro d
      have htells := attempt_tells d command decode
      have hvalue := filterMap_take_one d.line (Attempt.value? decode)
      rw [← attempt_value d command decode] at hvalue
      unfold Device.exchangeLoop
      split
      next heq =>
        rw [heq] at htells hvalue
        exact ⟨1, htells.note rfl rfl rfl rfl, hvalue⟩
      next e at_ d' heq =>
        rw [heq] at htells hvalue
        have hdrop := htells.trans (tells_dropSession d')
        dsimp only
        split
        next =>
          obtain ⟨n, hrest, hlast⟩ := ih d'.dropSession
          refine ⟨1 + n, hdrop.trans hrest, ?_⟩
          rw [List.take_add, List.filterMap_append, hvalue, ← htells.line]
          exact hlast
        next => exact ⟨1, hdrop.note rfl rfl rfl rfl, hvalue⟩
      next heq =>
        rw [heq] at htells hvalue
        exact ⟨1, htells, hvalue⟩
      next heq =>
        rw [heq] at htells hvalue
        exact ⟨1, htells, hvalue⟩

/-- An exchange takes the answers it needs, and comes back with what the last of them tells. -/
theorem exchange_takes (d : Device) (command : Bytes.Octets)
    (decode : Bytes.Octets → Fallible.Exec DeviceError T) :
    Takes decode d (d.exchange command decode) := exchangeLoop_takes _ d

/-- A call for a state notes every report it was answered with. The exchange itself notes nothing;
the report is noted by the call when it has been parsed, and only then. -/
theorem exchangeState_tells (d : Device) (command : Bytes.Octets) :
    ∃ n, Tells Attempt.state? n d (d.exchangeState command).2 := by
  have hvalue : Attempt.value? (fun payload =>
      Fallible.mapFail DeviceError.response (Ac.State.parse payload)) = Attempt.state? := by
    funext a
    unfold Attempt.state? Attempt.value?
    simp only [mapFail_toOption]
  have htakes := exchange_takes d command
    fun payload => Fallible.mapFail DeviceError.response (Ac.State.parse payload)
  unfold Takes at htakes
  rw [hvalue] at htakes
  obtain ⟨n, htells, htold⟩ := htakes
  have hsilent : reports (d.exchange command
      fun payload => Fallible.mapFail DeviceError.response (Ac.State.parse payload)).2.log =
        reports d.log := by
    rw [htells.log]
    simp
  refine ⟨n, ?_⟩
  unfold Device.exchangeState
  split
  next state d' heq =>
    rw [heq] at htells htold hsilent
    refine ⟨htells.sent, htells.line, ?_⟩
    rw [htold, ← hsilent]
    exact reports_append _ _
  next outcome d' hother heq =>
    rw [heq] at htells htold hsilent
    refine ⟨htells.sent, htells.line, ?_⟩
    rw [htold, hsilent]
    cases outcome with
    | ok state => exact (hother state rfl).elim
    | failed e => exact (List.append_nil _).symm
    | panicked => exact (List.append_nil _).symm
    | waiting => exact (List.append_nil _).symm

/-- Over a refresh the log is longer by exactly the reports in the answers it took. -/
theorem refresh_tells (d : Device) : ∃ n, Tells Attempt.state? n d d.refresh.2 :=
  (tells_nextMessageId d).and_then (exchangeState_tells d.nextMessageId.2 _)

/-- Sending a setpoint notes the reports it was answered with. -/
theorem apply_tells (d : Device) (setpoint : Ac.Setpoint) :
    ∃ n, Tells Attempt.state? n d (d.apply setpoint).2 :=
  (tells_nextMessageId d).and_then (exchangeState_tells d.nextMessageId.2 _)

/-- And when a change is, as often as the command has to be repeated. -/
theorem sendOver_tells (change : Change) (merged : Nat) (baseWasCached : Bool) (base : Ac.State)
    (d : Device) :
    ∃ n, Tells Attempt.state? n d (sendOver change merged baseWasCached base d).2 :=
  apply_tells d _

/-- A control notes the report it read first, if it read one, and its echo. The first is read only
where no state is at hand. -/
theorem sendChange_tells (d : Device) (change : Change) (merged now : Nat) :
    ∃ n, Tells Attempt.state? n d (sendChange d change merged now).2 := by
  unfold sendChange
  split
  next base _ => exact sendOver_tells change merged true base d
  next =>
    obtain ⟨n, htells⟩ := refresh_tells d
    split
    next base d' heq =>
      rw [heq] at htells
      exact htells.and_then (sendOver_tells change merged false base d')
    next heq =>
      rw [heq] at htells
      exact ⟨n, htells⟩
    next heq =>
      rw [heq] at htells
      exact ⟨n, htells⟩
    next heq =>
      rw [heq] at htells
      exact ⟨n, htells⟩

/-- What answers a query for capabilities is not read as a state. So the log grows by no report,
whether the query succeeds or not. -/
theorem fetchMore_tells (d : Device) (caps : Ac.Capabilities) :
    ∃ n, Tells Attempt.nothing? n d (d.fetchMore caps).2 := by
  obtain ⟨n, hexchange, -⟩ := exchange_takes d.nextMessageId.2
    (Ac.getMoreCapabilities d.nextMessageId.1) Ac.Capabilities.parse
  have htells := (tells_nextMessageId d).after hexchange
  unfold Device.fetchMore
  dsimp only
  split
  next heq =>
    rw [heq] at htells
    exact ⟨_, htells.trans (tells_capabilities _ _)⟩
  next heq =>
    rw [heq] at htells
    exact ⟨_, htells.trans (tells_capabilities _ _)⟩
  next heq =>
    rw [heq] at htells
    exact ⟨n, htells⟩
  next heq =>
    rw [heq] at htells
    exact ⟨n, htells⟩

/-- A query for capabilities adds no report to the log, whatever it was answered. -/
theorem fetchCapabilities_tells (d : Device) :
    ∃ n, Tells Attempt.nothing? n d d.fetchCapabilities.2 := by
  unfold Device.fetchCapabilities
  split
  next => exact ⟨0, Tells.quiet rfl rfl rfl⟩
  next =>
    obtain ⟨n, hexchange, -⟩ := exchange_takes d.nextMessageId.2
      (Ac.getCapabilities d.nextMessageId.1) Ac.Capabilities.parse
    have htells := (tells_nextMessageId d).after hexchange
    dsimp only
    split
    next caps d' heq =>
      rw [heq] at htells
      split
      next => exact htells.and_then (fetchMore_tells d' caps)
      next => exact ⟨_, htells.trans (tells_capabilities d' caps)⟩
    next heq =>
      rw [heq] at htells
      exact ⟨n, htells⟩

end Telling

end BreezeDevice
