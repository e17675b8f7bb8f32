import BreezeCore.Http.Warm
import BreezeCore.Lib.Runs

/-!
# How often keep-warm reads a unit

* `Heard` — what a call on a unit leaves of what keep-warm goes by, whatever the call;
* `Move` — what one step of the server can do;
* `warm_reads` — in every run a unit, as it was last added, is asked no more than once in twenty
  seconds, in passes that began within the window after the last use.
-/

namespace BreezeHttp.Warm

open BreezeDevice Runs

/-! ## What a call leaves -/

/-- What keep-warm goes by after a call, when it was answered between these instants: as it
was, or by its last exchange. -/
inductive Word (lo hi : Nat) (d d' : Device) : Prop where
  | nothing (hexchange : d'.lastExchangeAt = d.lastExchangeAt)
      (hfailure : d'.lastFailure = d.lastFailure)
  | answered (t : Nat) (hlo : lo ≤ t) (hhi : t ≤ hi) (hexchange : d'.lastExchangeAt = some t)
      (hfailure : d'.lastFailure = none)
  | failed (t : Nat) (e : DeviceError) (hlo : lo ≤ t) (hhi : t ≤ hi)
      (hexchange : d'.lastExchangeAt = d.lastExchangeAt ∨
        ∃ t', lo ≤ t' ∧ t' ≤ hi ∧ d'.lastExchangeAt = some t')
      (hfailure : d'.lastFailure = some (t, e))

/-- A device that was called, with the answers it had. -/
structure Heard (d d' : Device) : Prop where
  line : ∀ a ∈ d'.line, a ∈ d.line
  word : ∀ lo hi, during lo hi d.line → Word lo hi d d'

variable {T : Type} {d d' d'' : Device} {lo hi : Nat}

/-- What leaves the answers and the last exchange alone has heard nothing. -/
theorem Heard.quiet (hline : ∀ a ∈ d'.line, a ∈ d.line)
    (hexchange : d'.lastExchangeAt = d.lastExchangeAt)
    (hfailure : d'.lastFailure = d.lastFailure) : Heard d d' :=
  ⟨hline, fun _ _ _ => .nothing hexchange hfailure⟩

/-- Nothing was done. -/
theorem Heard.refl (d : Device) : Heard d d := .quiet (fun _ ha => ha) rfl rfl

/-- What was heard over two stretches was heard from one end to the other. The later word counts,
and where the second stretch brought none the first one's stands. -/
theorem Word.trans (h : Word lo hi d d') (h' : Word lo hi d' d'') : Word lo hi d d'' := by
  cases h' with
  | nothing hexchange' hfailure' =>
      cases h with
      | nothing hexchange hfailure =>
          exact .nothing (hexchange'.trans hexchange) (hfailure'.trans hfailure)
      | answered t hlo hhi hexchange hfailure =>
          exact .answered t hlo hhi (hexchange'.trans hexchange) (hfailure'.trans hfailure)
      | failed t e hlo hhi hexchange hfailure =>
          refine .failed t e hlo hhi ?_ (hfailure'.trans hfailure)
          rw [hexchange']
          exact hexchange
  | answered t hlo hhi hexchange' hfailure' => exact .answered t hlo hhi hexchange' hfailure'
  | failed t e hlo hhi hexchange' hfailure' =>
      refine .failed t e hlo hhi ?_ hfailure'
      rcases hexchange' with hsame | hnew
      · rw [hsame]
        cases h with
        | nothing hexchange _ => exact .inl hexchange
        | answered t' hlo' hhi' hexchange _ => exact .inr ⟨t', hlo', hhi', hexchange⟩
        | failed _ _ _ _ hexchange _ => exact hexchange
      · exact .inr hnew

/-- Two steps in which nothing is heard but by an exchange make one, one after the other. -/
theorem Heard.trans (h : Heard d d') (h' : Heard d' d'') : Heard d d'' where
  line a ha := h.line a (h'.line a ha)
  word lo hi hduring :=
    (h.word lo hi hduring).trans (h'.word lo hi fun a ha => hduring a (h.line a ha))

/-- How a single exchange leaves the unit: answered, failed, or, if it did not come back, as
it was. -/
def Closes (d : Device) : Outcome T × Device → Prop
  | (.ok _, d') => (∀ a ∈ d'.line, a ∈ d.line) ∧ ∃ a ∈ d.line,
      d'.lastExchangeAt = some a.instant ∧ d'.lastFailure = none
  | (.failed e, d') => (∀ a ∈ d'.line, a ∈ d.line) ∧ ∃ a ∈ d.line,
      d'.lastExchangeAt = d.lastExchangeAt ∧ d'.lastFailure = some (a.instant, e)
  | (_, d') => (∀ a ∈ d'.line, a ∈ d.line) ∧
      d'.lastExchangeAt = d.lastExchangeAt ∧ d'.lastFailure = d.lastFailure

variable {r : Outcome T × Device}

/-- A single exchange has heard of the unit, or changed nothing that keep-warm goes by. -/
theorem Closes.heard (h : Closes d r) : Heard d r.2 := by
  obtain ⟨outcome, d'⟩ := r
  cases outcome with
  | ok _ =>
      obtain ⟨hline, a, ha, hexchange, hfailure⟩ := h
      exact ⟨hline, fun lo hi hduring =>
        .answered a.instant (hduring a ha).1 (hduring a ha).2 hexchange hfailure⟩
  | failed e =>
      obtain ⟨hline, a, ha, hexchange, hfailure⟩ := h
      exact ⟨hline, fun lo hi hduring =>
        .failed a.instant e (hduring a ha).1 (hduring a ha).2 (.inl hexchange) hfailure⟩
  | panicked => exact .quiet h.1 h.2.1 h.2.2
  | waiting => exact .quiet h.1 h.2.1 h.2.2

/-- What comes before an exchange without touching what is remembered does not matter. -/
theorem Closes.after (hline : ∀ a ∈ d'.line, a ∈ d.line)
    (hexchange : d'.lastExchangeAt = d.lastExchangeAt)
    (hfailure : d'.lastFailure = d.lastFailure) (h : Closes d' r) : Closes d r := by
  obtain ⟨outcome, d''⟩ := r
  cases outcome with
  | ok _ =>
      obtain ⟨hline', a, ha, hexchange', hfailure'⟩ := h
      exact ⟨fun b hb => hline b (hline' b hb), a, hline a ha, hexchange', hfailure'⟩
  | failed e =>
      obtain ⟨hline', a, ha, hexchange', hfailure'⟩ := h
      exact ⟨fun b hb => hline b (hline' b hb), a, hline a ha, hexchange'.trans hexchange,
        hfailure'⟩
  | panicked =>
      obtain ⟨hline', hexchange', hfailure'⟩ := h
      exact ⟨fun b hb => hline b (hline' b hb), hexchange'.trans hexchange,
        hfailure'.trans hfailure⟩
  | waiting =>
      obtain ⟨hline', hexchange', hfailure'⟩ := h
      exact ⟨fun b hb => hline b (hline' b hb), hexchange'.trans hexchange,
        hfailure'.trans hfailure⟩

section Attempts

variable {command : Bytes.Octets} {decode : Bytes.Octets → Fallible.Exec DeviceError T} {at_ : Nat}

/-- One attempt takes an answer off the line, and remembers nothing. -/
theorem attempt_quiet (d : Device) (command : Bytes.Octets)
    (decode : Bytes.Octets → Fallible.Exec DeviceError T) :
    (d.attempt command decode).2.2.lastExchangeAt = d.lastExchangeAt ∧
      (d.attempt command decode).2.2.lastFailure = d.lastFailure := by
  have htry : (d.tryExchange command).2.2.lastExchangeAt = d.lastExchangeAt ∧
      (d.tryExchange command).2.2.lastFailure = d.lastFailure := by
    unfold Device.tryExchange
    dsimp only
    split
    next => exact ⟨rfl, rfl⟩
    next => split <;> exact ⟨rfl, rfl⟩
  unfold Device.attempt
  split <;> simp_all

/-- **An exchange** is answered, or fails, by its last attempt. By induction on the attempts that
are left; those that fail before the last one say nothing about the unit. -/
theorem exchangeLoop_closes (more : Nat) :
    ∀ d : Device, Closes d (Device.exchangeLoop command decode more d) := by
  have hend : ∀ (d d' : Device) (e : DeviceError) (at_ : Nat),
      d.attempt command decode = (.failed e, at_, d') →
      Closes d ((.failed e : Outcome T), { d'.dropSession with
        online := false
        lastFailure := some (at_, e)
        log := d'.dropSession.log ++ [⟨at_, .failed e⟩] }) := by
    intro d d' e at_ heq
    have hline := (attempt_follows d command decode).line
    have hquiet := attempt_quiet d command decode
    rw [heq] at hline hquiet
    obtain ⟨a, ha, rfl⟩ := attempt_failed heq
    exact ⟨hline, a, ha, hquiet.1, rfl⟩
  induction more with
  | zero =>
      intro d
      have hline := (attempt_follows d command decode).line
      have hquiet := attempt_quiet d command decode
      unfold Device.exchangeLoop
      split
      next heq =>
        rw [heq] at hline
        obtain ⟨a, ha, rfl, -⟩ := attempt_ok heq
        exact ⟨hline, a, ha, rfl, rfl⟩
      next heq => exact hend _ _ _ _ heq
      next heq =>
        rw [heq] at hline hquiet
        exact ⟨hline, hquiet.1, hquiet.2⟩
      next heq =>
        rw [heq] at hline hquiet
        exact ⟨hline, hquiet.1, hquiet.2⟩
  | succ more ih =>
      intro d
      have hline := (attempt_follows d command decode).line
      have hquiet := attempt_quiet d command decode
      unfold Device.exchangeLoop
      split
      next heq =>
        rw [heq] at hline
        obtain ⟨a, ha, rfl, -⟩ := attempt_ok heq
        exact ⟨hline, a, ha, rfl, rfl⟩
      next e at_ d' heq =>
        dsimp only
        split
        next =>
          rw [heq] at hline hquiet
          exact (ih d'.dropSession).after hline hquiet.1 hquiet.2
        next => exact hend _ _ _ _ heq
      next heq =>
        rw [heq] at hline hquiet
        exact ⟨hline, hquiet.1, hquiet.2⟩
      next heq =>
        rw [heq] at hline hquiet
        exact ⟨hline, hquiet.1, hquiet.2⟩

end Attempts

/-- A call for a state keeps its report, which keep-warm does not look at. -/
theorem exchangeState_closes (d : Device) (command : Bytes.Octets) :
    Closes d (d.exchangeState command) := by
  have hcloses : Closes d (d.exchange command fun payload =>
      Fallible.mapFail DeviceError.response (Ac.State.parse payload)) := exchangeLoop_closes _ d
  unfold Device.exchangeState
  split
  next state d' heq =>
    rw [heq] at hcloses
    exact hcloses
  next outcome d' _ heq =>
    rw [heq] at hcloses
    exact hcloses

/-- A refresh is a single exchange. -/
theorem refresh_closes (d : Device) : Closes d d.refresh :=
  (exchangeState_closes d.nextMessageId.2 _).after (fun _ ha => ha) rfl rfl

/-- Sending a setpoint is one too. -/
theorem heard_apply (d : Device) (setpoint : Ac.Setpoint) : Heard d (d.apply setpoint).2 :=
  Closes.heard ((exchangeState_closes d.nextMessageId.2 _).after (fun _ ha => ha) rfl rfl)

/-- And so is asking for a page of capabilities. -/
theorem heard_query (d : Device) (command : Bytes.Octets) :
    Heard d (d.nextMessageId.2.exchange command Ac.Capabilities.parse).2 :=
  Closes.heard ((exchangeLoop_closes _ d.nextMessageId.2).after (fun _ ha => ha) rfl rfl)

/-- Two pages are two of them. -/
theorem heard_fetchMore (d : Device) (caps : Ac.Capabilities) : Heard d (d.fetchMore caps).2 := by
  have hheard := heard_query d (Ac.getMoreCapabilities d.nextMessageId.1)
  unfold Device.fetchMore
  dsimp only
  split <;> simp_all only
  · exact hheard.trans (.quiet (fun _ ha => ha) rfl rfl)
  · exact hheard.trans (.quiet (fun _ ha => ha) rfl rfl)

/-- The whole query for capabilities, with its second exchange or without. -/
theorem heard_fetchCapabilities (d : Device) : Heard d d.fetchCapabilities.2 := by
  unfold Device.fetchCapabilities
  split
  next => exact .refl d
  next =>
    have hheard := heard_query d (Ac.getCapabilities d.nextMessageId.1)
    dsimp only
    split
    next caps d' heq =>
      rw [heq] at hheard
      split
      next => exact hheard.trans (heard_fetchMore d' caps)
      next => exact hheard.trans (.quiet (fun _ ha => ha) rfl rfl)
    next heq =>
      rw [heq] at hheard
      exact hheard

/-- A change is sent over a state that is asked for, or is recent enough. Where asking fails, that
failure is the last that was heard. -/
theorem heard_sendChange (d : Device) (change : Change) (merged now : Nat) :
    Heard d (sendChange d change merged now).2 := by
  unfold sendChange
  split
  next => exact heard_apply d _
  next =>
    have hheard := (refresh_closes d).heard
    split
    next base d' heq =>
      rw [heq] at hheard
      exact hheard.trans (heard_apply d' _)
    next heq =>
      rw [heq] at hheard
      exact hheard
    next heq =>
      rw [heq] at hheard
      exact hheard
    next heq =>
      rw [heq] at hheard
      exact hheard

/-- A read asks for the state, or has it already. -/
theorem heard_readState (arrived : Nat) (d : Device) : Heard d (readState arrived d).2 := by
  unfold readState
  split
  next => exact .refl d
  next =>
    split
    next => exact .refl d
    next => exact (refresh_closes d).heard

/-- **Whatever is called** on a unit, keep-warm goes by its last exchange. -/
theorem heard_serve (now : Nat) (d : Device) (request : BreezeDevice.Request) :
    Heard d (serve now d request).2 := by
  cases request with
  | readState arrived => exact heard_readState arrived d
  | control change merged => exact heard_sendChange d change merged now
  | collect => exact .refl d
  | capabilities => exact heard_fetchCapabilities d
  | keepWarm maxIdle credentials => exact (refresh_closes d).heard
  | forget => exact .quiet (fun _ ha => ha) rfl rfl

/-! ## What a step does -/

/-- What a step can do, once the clock shows its instant. -/
inductive Move (s : Server) : Server → Prop where
  | use : Move s { s with lastUse := some s.clock }
  | take (address : Nat) (request : BreezeDevice.Request)
      (hfree : (s.slots address).holder = none) (hold : address < s.fresh) :
      Move s (s.set address { s.slots address with
        device := (s.slots address).lockDevice
        holder := some (.request request s.clock) })
  | give (address since : Nat) (request : BreezeDevice.Request) (answers : List Attempt)
      (lags : List Nat) (slot : Slot)
      (hholder : (s.slots address).holder = some (.request request since))
      (hduring : during since s.clock answers)
      (hback : (s.slots address).returned
        (publishes ((s.slots address).facing answers lags) request)
        (serve since ((s.slots address).facing answers lags) request) = some slot) :
      Move s (s.set address slot)
  | wake (since : Nat) (hthread : s.thread = .asleep since) (hactive : s.active = true) :
      Move s { s with thread := .walking s.clock s.order }
  | doze (since : Nat) (hthread : s.thread = .asleep since) (hactive : s.active = false) :
      Move s { s with thread := .asleep s.clock }
  | through (began : Nat) (hthread : s.thread = .walking began []) :
      Move s { s with thread := .asleep s.clock }
  | gone (began id : Nat) (rest : List Nat) (hthread : s.thread = .walking began (id :: rest))
      (hunit : s.units id = none) : Move s { s with thread := .walking began rest }
  | pass (began id address : Nat) (rest : List Nat)
      (hthread : s.thread = .walking began (id :: rest)) (hunit : s.units id = some address)
      (hskip : (s.slots address).holder.isSome = true ∨ (s.slots address).poisoned = true ∨
        (s.slots address).device.needsWarming (s.slots address).credentials WARM_AFTER s.clock =
          false) :
      Move s { s.set address { s.slots address with lastLook := some s.clock } with
        thread := .walking began rest }
  | ask (began id address : Nat) (rest : List Nat)
      (hthread : s.thread = .walking began (id :: rest)) (hunit : s.units id = some address)
      (hfree : (s.slots address).holder = none) (hsound : (s.slots address).poisoned = false)
      (hneeds : (s.slots address).device.needsWarming (s.slots address).credentials WARM_AFTER
        s.clock = true) :
      Move s { s.set address { s.slots address with
          lastLook := some s.clock
          holder := some (.keepWarm s.clock)
          reads := (s.slots address).reads ++ [⟨began, s.clock⟩] } with
        thread := .reading began address rest }
  | warm (began address asked : Nat) (rest : List Nat) (credentials : Bool)
      (answers : List Attempt) (lags : List Nat) (slot : Slot) (thread : Thread)
      (hthread : s.thread = .reading began address rest)
      (hholder : (s.slots address).holder = some (.keepWarm asked))
      (hduring : during asked s.clock answers)
      (hback : (s.slots address).returned true (serve asked
        ((s.slots address).facing answers lags) (.keepWarm WARM_AFTER credentials)) = some slot)
      (hnext : thread = .walking began rest ∨ thread = .ended) :
      Move s { s.set address slot with thread := thread }
  | upsert (id : Nat) (credentials : Bool) : Move s (s.upsert id credentials)
  | remove (id : Nat) : Move s (s.remove id)

/-- **Every step** is one of these. The clock goes first, and does not go back; what happens then
is read off the act. -/
theorem step_move {s s' : Server} {a : Nat × Act} (h : s.step a = some s') :
    s.clock ≤ a.1 ∧ Move { s with clock := a.1 } s' := by
  obtain ⟨now, act⟩ := a
  unfold Server.step at h
  split at h
  next => cases h
  next hclock =>
    refine ⟨Nat.le_of_not_lt hclock, ?_⟩
    generalize { s with clock := now } = s at h
    cases act with
    | use =>
        obtain rfl := Option.some.inj h
        exact .use
    | take address request =>
        simp only [Server.act, Server.take, Option.ite_none_right_eq_some, Bool.and_eq_true,
          Option.isNone_iff_eq_none, decide_eq_true_eq, Option.some.injEq] at h
        obtain ⟨⟨⟨-, hfree⟩, hold⟩, rfl⟩ := h
        exact .take address request hfree hold
    | give address answers lags =>
        simp only [Server.act, Server.give] at h
        split at h
        next request since hholder =>
          simp only [Option.ite_none_right_eq_some, Option.map_eq_some_iff] at h
          obtain ⟨hduring, slot, hback, rfl⟩ := h
          exact .give address since request answers lags slot hholder hduring hback
        next => cases h
    | wake =>
        simp only [Server.act, Server.wake] at h
        split at h
        next since hthread =>
          simp only [Option.ite_none_left_eq_some] at h
          obtain ⟨-, h⟩ := h
          split at h
          next hactive =>
            obtain rfl := Option.some.inj h
            exact .wake since hthread hactive
          next hactive =>
            obtain rfl := Option.some.inj h
            exact .doze since hthread (Bool.eq_false_iff.mpr hactive)
        next => cases h
    | look =>
        simp only [Server.act, Server.look] at h
        split at h
        next began hthread =>
          obtain rfl := Option.some.inj h
          exact .through began hthread
        next began id rest hthread =>
          split at h
          next hunit =>
            obtain rfl := Option.some.inj h
            exact .gone began id rest hthread hunit
          next address hunit =>
            obtain rfl := Option.some.inj h
            unfold Server.lookAt
            dsimp only
            split
            next hskip =>
              simp only [Bool.or_eq_true, Bool.not_eq_true', or_assoc] at hskip
              exact .pass began id address rest hthread hunit hskip
            next hneeds =>
              simp only [Bool.or_eq_true, Bool.not_eq_true', not_or, Bool.not_eq_false,
                Bool.not_eq_true, Option.isSome_eq_false_iff, Option.isNone_iff_eq_none] at hneeds
              obtain ⟨⟨hfree, hsound⟩, hneeds⟩ := hneeds
              exact .ask began id address rest hthread hunit hfree hsound hneeds
        next => cases h
    | warmed answers lags =>
        simp only [Server.act, Server.warmed] at h
        split at h
        next began address rest hthread =>
          split at h
          next asked hholder =>
            simp only [Option.ite_none_right_eq_some, Option.map_eq_some_iff] at h
            obtain ⟨hduring, slot, hback, rfl⟩ := h
            refine .warm began address asked rest _ answers lags slot _ hthread hholder hduring
              hback ?_
            split
            next => exact .inr rfl
            next => exact .inl rfl
          next => cases h
        next => cases h
    | upsert id credentials =>
        obtain rfl := Option.some.inj h
        exact .upsert id credentials
    | remove id =>
        obtain rfl := Option.some.inj h
        exact .remove id

/-- What a step can do to one unit. -/
inductive SlotMove (s : Server) (address : Nat) (slot : Slot) : Slot → Prop where
  | same : SlotMove s address slot slot
  | created (credentials : Bool) (hfresh : address = s.fresh) :
      SlotMove s address slot { credentials := credentials }
  | taken (request : BreezeDevice.Request) (hfree : slot.holder = none) :
      SlotMove s address slot { slot with
        device := slot.lockDevice
        holder := some (.request request s.clock) }
  | given (since : Nat) (request : BreezeDevice.Request) (answers : List Attempt)
      (lags : List Nat) (slot' : Slot) (hholder : slot.holder = some (.request request since))
      (hduring : during since s.clock answers)
      (hback : slot.returned (publishes (slot.facing answers lags) request)
        (serve since (slot.facing answers lags) request) = some slot') :
      SlotMove s address slot slot'
  | passed (began id : Nat) (rest : List Nat) (hthread : s.thread = .walking began (id :: rest))
      (hskip : slot.holder.isSome = true ∨ slot.poisoned = true ∨
        slot.device.needsWarming slot.credentials WARM_AFTER s.clock = false) :
      SlotMove s address slot { slot with lastLook := some s.clock }
  | asked (began id : Nat) (rest : List Nat) (hthread : s.thread = .walking began (id :: rest))
      (hfree : slot.holder = none) (hsound : slot.poisoned = false)
      (hneeds : slot.device.needsWarming slot.credentials WARM_AFTER s.clock = true) :
      SlotMove s address slot { slot with
        lastLook := some s.clock
        holder := some (.keepWarm s.clock)
        reads := slot.reads ++ [⟨began, s.clock⟩] }
  | warmed (asked : Nat) (credentials : Bool) (answers : List Attempt) (lags : List Nat)
      (slot' : Slot) (hholder : slot.holder = some (.keepWarm asked))
      (hduring : during asked s.clock answers)
      (hback : slot.returned true (serve asked (slot.facing answers lags)
        (.keepWarm WARM_AFTER credentials)) = some slot') : SlotMove s address slot slot'

/-- A unit somewhere else is left alone. -/
theorem slotMove_set {s s' : Server} {address : Nat} {slot : Slot}
    (hslots : s'.slots = Function.update s.slots address slot)
    (h : SlotMove s address (s.slots address) slot) (other : Nat) :
    SlotMove s other (s.slots other) (s'.slots other) := by
  rw [hslots]
  by_cases hother : other = address
  · subst hother
    rw [Function.update_self]
    exact h
  · rw [Function.update_of_ne hother]
    exact .same

/-- A move of the server, as it looks from one unit. The moves that touch a slot name its address,
and for every other address nothing has happened. -/
theorem Move.slot {s s' : Server} (h : Move s s') (address : Nat) :
    SlotMove s address (s.slots address) (s'.slots address) := by
  cases h with
  | use => exact .same
  | take address request hfree hold => exact slotMove_set rfl (.taken request hfree) _
  | give address since request answers lags slot hholder hduring hback =>
      exact slotMove_set rfl (.given since request answers lags slot hholder hduring hback) _
  | wake => exact .same
  | doze => exact .same
  | through => exact .same
  | gone => exact .same
  | pass began id address rest hthread hunit hskip =>
      exact slotMove_set rfl (.passed began id rest hthread hskip) _
  | ask began id address rest hthread hunit hfree hsound hneeds =>
      exact slotMove_set rfl (.asked began id rest hthread hfree hsound hneeds) _
  | warm began address asked rest credentials answers lags slot thread hthread hholder hduring
      hback hnext =>
      exact slotMove_set rfl (.warmed asked credentials answers lags slot hholder hduring hback) _
  | upsert id credentials => exact slotMove_set rfl (.created credentials rfl) _
  | remove => exact .same

/-! ## How often a unit is read -/

/-- The unit has been heard of, or given up, since then. -/
def Slot.HeardSince (slot : Slot) (a : Nat) : Prop :=
  slot.poisoned = true ∨ (∃ t, slot.device.lastExchangeAt = some t ∧ a ≤ t) ∨
    ∃ t e, slot.device.lastFailure = some (t, e) ∧ a ≤ t

/-- A unit that was heard of is left in peace for a while. -/
theorem Slot.HeardSince.rests {slot : Slot} {a now : Nat} (h : slot.HeardSince a)
    (hsound : slot.poisoned = false)
    (hneeds : slot.device.needsWarming slot.credentials WARM_AFTER now = true) :
    a + WARM_AFTER ≤ now := by
  simp only [Device.needsWarming, Bool.and_eq_true, Bool.not_eq_true'] at hneeds
  obtain ⟨⟨hfailure, -⟩, hquiet⟩ := hneeds
  rcases h with hpoisoned | ⟨t, hexchange, hle⟩ | ⟨t, e, hfailed, hle⟩
  · rw [hpoisoned] at hsound
    cases hsound
  · rw [hexchange] at hquiet
    have hlong := of_decide_eq_true hquiet
    unfold WARM_AFTER at hlong ⊢
    omega
  · rw [hfailed] at hfailure
    have hlong := of_decide_eq_false hfailure
    unfold WARM_BACKOFF at hlong
    unfold WARM_AFTER
    omega

/-- Whatever was called on it, a unit heard of before is one still. -/
theorem Word.heardSince {lo hi a : Nat} {slot slot' : Slot}
    (h : Word lo hi slot.device slot'.device) (ha : a ≤ lo)
    (hpoisoned : slot.poisoned = true → slot'.poisoned = true) (hsince : slot.HeardSince a) :
    slot'.HeardSince a := by
  cases h with
  | nothing hexchange hfailure =>
      unfold Slot.HeardSince
      rw [hexchange, hfailure]
      exact hsince.imp_left hpoisoned
  | answered t hlo _ hexchange _ => exact .inr (.inl ⟨t, hexchange, ha.trans hlo⟩)
  | failed t e hlo _ _ hfailure => exact .inr (.inr ⟨t, e, hfailure, ha.trans hlo⟩)

/-- What a call that came back left, panic or not. -/
theorem returned_cases {slot slot' : Slot} {publish : Bool} {r : Outcome Unit × Device}
    (h : slot.returned publish r = some slot') :
    slot'.device = r.2 ∧ slot'.holder = none ∧ slot'.reads = slot.reads ∧
      slot'.lastLook = slot.lastLook ∧ slot'.credentials = slot.credentials ∧
      (slot'.poisoned = slot.poisoned ∧ r.1 ≠ .panicked ∧
          slot'.status = (if publish then .ofDevice r.2 else slot.status) ∨
        slot'.poisoned = true ∧ r.1 = .panicked) ∧ r.1 ≠ .waiting := by
  obtain ⟨outcome, d⟩ := r
  cases outcome with
  | ok _ =>
      obtain rfl := Option.some.inj h
      exact ⟨rfl, rfl, rfl, rfl, rfl, .inl ⟨rfl, nofun, rfl⟩, nofun⟩
  | failed e =>
      obtain rfl := Option.some.inj h
      exact ⟨rfl, rfl, rfl, rfl, rfl, .inl ⟨rfl, nofun, rfl⟩, nofun⟩
  | panicked =>
      obtain rfl := Option.some.inj h
      exact ⟨rfl, rfl, rfl, rfl, rfl, .inr ⟨rfl, rfl⟩, nofun⟩
  | waiting => cases h

/-- A call that came back, and what keep-warm goes by now. -/
theorem returned_word {slot slot' : Slot} {publish : Bool} {since now : Nat}
    {request : BreezeDevice.Request} {answers : List Attempt} {lags : List Nat}
    (h : slot.returned publish (serve since (slot.facing answers lags) request) = some slot')
    (hduring : during since now answers) : Word since now slot.device slot'.device := by
  have hword := (heard_serve since (slot.facing answers lags) request).word since now hduring
  rw [(returned_cases h).1]
  cases hword with
  | nothing hexchange hfailure => exact .nothing hexchange hfailure
  | answered t hlo hhi hexchange hfailure => exact .answered t hlo hhi hexchange hfailure
  | failed t e hlo hhi hexchange hfailure => exact .failed t e hlo hhi hexchange hfailure

/-- A lock that is poisoned stays poisoned. -/
theorem returned_poisoned {slot slot' : Slot} {publish : Bool} {r : Outcome Unit × Device}
    (h : slot.returned publish r = some slot') (hpoisoned : slot.poisoned = true) :
    slot'.poisoned = true := by
  rcases (returned_cases h).2.2.2.2.2.1 with ⟨hsame, -⟩ | ⟨hset, -⟩
  · rw [hsame, hpoisoned]
  · exact hset

/-- A read of the thread that came back: the unit was heard of. The exchange ends with an answer
or a failure, and both have their moment in the time the read took. -/
theorem returned_heardSince {slot slot' : Slot} {publish credentials : Bool}
    {maxIdle asked now : Nat} {answers : List Attempt} {lags : List Nat}
    (h : slot.returned publish (serve asked (slot.facing answers lags)
      (.keepWarm maxIdle credentials)) = some slot')
    (hduring : during asked now answers) : slot'.HeardSince asked := by
  obtain ⟨hdevice, -, -, -, -, hpanic, hwaiting⟩ := returned_cases h
  have hcloses := refresh_closes (slot.facing answers lags)
  have hserve : serve asked (slot.facing answers lags) (.keepWarm maxIdle credentials) =
      ((slot.facing answers lags).refresh.1.map fun _ => (),
        (slot.facing answers lags).refresh.2) := rfl
  rw [hserve] at hdevice hpanic hwaiting
  unfold Slot.HeardSince
  rw [hdevice]
  generalize (slot.facing answers lags).refresh = r at hcloses hpanic hwaiting
  obtain ⟨outcome, d⟩ := r
  cases outcome with
  | ok _ =>
      obtain ⟨-, a, ha, hexchange, -⟩ := hcloses
      exact .inr (.inl ⟨a.instant, hexchange, (hduring a ha).1⟩)
  | failed e =>
      obtain ⟨-, a, ha, -, hfailure⟩ := hcloses
      exact .inr (.inr ⟨a.instant, e, hfailure, (hduring a ha).1⟩)
  | panicked =>
      rcases hpanic with ⟨-, hne, -⟩ | ⟨hpoisoned, -⟩
      · exact absurd rfl hne
      · exact .inl hpoisoned
  | waiting => exact absurd rfl hwaiting

/-- The reads of a unit keep their distance, and the last of them was answered, or failed,
unless it still goes on. -/
structure Spaced (now : Nat) (slot : Slot) : Prop where
  apart : (slot.reads.map Read.asked).Pairwise fun t t' => t + WARM_AFTER ≤ t'
  past : ∀ r ∈ slot.reads, r.asked ≤ now
  heard : ∀ r ∈ slot.reads,
    match slot.holder with
    | none => slot.HeardSince r.asked
    | some (.request _ since) => r.asked ≤ since ∧ slot.HeardSince r.asked
    | some (.keepWarm asked) => r.asked ≤ asked

/-- Reads that are far enough apart stay so as time passes. -/
theorem Spaced.later {now now' : Nat} {slot : Slot} (h : Spaced now slot) (hle : now ≤ now') :
    Spaced now' slot := ⟨h.apart, fun r hr => (h.past r hr).trans hle, h.heard⟩

/-- **One step.** A read that is added comes at least twenty seconds after the one before it,
since keep-warm asks only a unit that nobody heard of for so long. -/
theorem spaced_step {s : Server} {address : Nat} {slot slot' : Slot}
    (h : SlotMove s address slot slot')
    (hs : Spaced s.clock slot) : Spaced s.clock slot' := by
  obtain ⟨hapart, hpast, hheard⟩ := hs
  cases h with
  | same => exact ⟨hapart, hpast, hheard⟩
  | created => exact ⟨.nil, nofun, nofun⟩
  | taken request hfree =>
      refine ⟨hapart, hpast, fun r hr => ⟨hpast r hr, ?_⟩⟩
      have hsince := hheard r hr
      rw [hfree] at hsince
      -- The lock leaves the failure and the last exchange as they were.
      unfold Slot.HeardSince Slot.lockDevice
      split
      next => exact hsince
      next => exact hsince
  | given since request answers lags _ hholder hduring hback =>
      obtain ⟨-, hfree, hreads, -⟩ := returned_cases hback
      refine ⟨by rw [hreads]; exact hapart, by rw [hreads]; exact hpast, fun r hr => ?_⟩
      rw [hreads] at hr
      have hsince := hheard r hr
      rw [hholder] at hsince
      rw [hfree]
      exact (returned_word hback hduring).heardSince hsince.1 (returned_poisoned hback) hsince.2
  | passed => exact ⟨hapart, hpast, hheard⟩
  | asked began id rest hthread hfree hsound hneeds =>
      have hrests : ∀ r ∈ slot.reads, r.asked + WARM_AFTER ≤ s.clock := by
        intro r hr
        have hsince := hheard r hr
        rw [hfree] at hsince
        exact hsince.rests hsound hneeds
      refine ⟨?_, ?_, ?_⟩
      · rw [List.map_append, List.pairwise_append]
        refine ⟨hapart, List.pairwise_singleton _ _, ?_⟩
        intro t ht t' ht'
        obtain ⟨r, hr, rfl⟩ := List.mem_map.mp ht
        obtain rfl := List.mem_singleton.mp ht'
        exact hrests r hr
      · rw [List.forall_mem_append]
        exact ⟨hpast, fun r hr => by rw [List.mem_singleton.mp hr]⟩
      · rw [List.forall_mem_append]
        exact ⟨hpast, fun r hr => by rw [List.mem_singleton.mp hr]⟩
  | warmed asked credentials answers lags _ hholder hduring hback =>
      obtain ⟨-, hfree, hreads, -⟩ := returned_cases hback
      have hnow := returned_heardSince hback hduring
      refine ⟨by rw [hreads]; exact hapart, by rw [hreads]; exact hpast, fun r hr => ?_⟩
      rw [hreads] at hr
      have hbefore := hheard r hr
      rw [hholder] at hbefore
      rw [hfree]
      rcases hnow with hpoisoned | ⟨t, hexchange, hle⟩ | ⟨t, e, hfailure, hle⟩
      · exact .inl hpoisoned
      · exact .inr (.inl ⟨t, hexchange, hbefore.trans hle⟩)
      · exact .inr (.inr ⟨t, e, hfailure, hbefore.trans hle⟩)

/-! ## When -/

/-- A pass began while the server was in use, or within the window after its last use. -/
def Within (s : Server) (began : Nat) : Prop :=
  s.setting = .always ∨ ∃ window u, s.setting = .forWindow window ∧ s.lastUse = some u ∧
    (began - u) * 1000000 ≤ window.secs.toNat * 1000000000 + window.nanos

/-- While the server counts as used, a pass that begins now begins within the window. -/
theorem within_of_active {s : Server} (h : s.active = true) : Within s s.clock := by
  unfold Server.active active at h
  split at h
  next => cases h
  next hsetting => exact .inl hsetting
  next window hsetting =>
    cases hlast : s.lastUse with
    | none =>
        rw [hlast] at h
        cases h
    | some u =>
        rw [hlast, Option.map_some, Option.any_some, decide_eq_true_iff] at h
        exact .inr ⟨window, u, hsetting, hlast, h⟩

/-- The pass the thread is on began then. -/
def Thread.OnPass : Thread → Nat → Prop
  | .ended, _ | .asleep _, _ => False
  | .walking began _, t | .reading began _ _, t => t = began

/-- Passes begin within the window, and so do those the reads belong to. -/
structure Licensed (s : Server) : Prop where
  used : ∀ u, s.lastUse = some u → u ≤ s.clock
  pass : ∀ began, s.thread.OnPass began → began ≤ s.clock ∧ Within s began
  reads : ∀ address, ∀ r ∈ (s.slots address).reads, r.began ≤ r.asked ∧ Within s r.began

/-- A later use does not take the licence back. -/
theorem Within.used {s : Server} {began : Nat} (hused : ∀ u, s.lastUse = some u → u ≤ s.clock)
    (h : Within s began) : Within { s with lastUse := some s.clock } began := by
  rcases h with halways | ⟨window, u, hsetting, hlast, hle⟩
  · exact .inl halways
  · refine .inr ⟨window, s.clock, hsetting, rfl, le_trans (Nat.mul_le_mul_right _ ?_) hle⟩
    have hu := hused u hlast
    omega

/-- A step changes neither the setting nor the clock, and the last use only by a new one. -/
theorem Move.frame {s s' : Server} (h : Move s s') :
    s'.clock = s.clock ∧ s'.setting = s.setting ∧
      (s'.lastUse = s.lastUse ∨ s' = { s with lastUse := some s.clock }) := by
  cases h <;> exact ⟨rfl, rfl, by first | exact .inl rfl | exact .inr rfl⟩

/-- A pass that began within it has begun within it, whatever happens since; a later use moves the
window on. -/
theorem Move.within {s s' : Server} {began : Nat} (hmove : Move s s')
    (hused : ∀ u, s.lastUse = some u → u ≤ s.clock) (h : Within s began) : Within s' began := by
  obtain ⟨-, hsetting, hlast | rfl⟩ := hmove.frame
  · unfold Within
    rw [hsetting, hlast]
    exact h
  · exact h.used hused

/-- The pass the thread is on is the one it was on, or begins now. -/
theorem Move.onPass {s s' : Server} {began : Nat} (h : Move s s') (hpass : s'.thread.OnPass began) :
    s.thread.OnPass began ∨ (began = s.clock ∧ s.active = true) := by
  cases h with
  | use => exact .inl hpass
  | take => exact .inl hpass
  | give => exact .inl hpass
  | wake since hthread hactive => exact .inr ⟨hpass, hactive⟩
  | doze => exact hpass.elim
  | through => exact hpass.elim
  | gone began id rest hthread => exact .inl (hthread ▸ hpass)
  | pass began id address rest hthread => exact .inl (hthread ▸ hpass)
  | ask began id address rest hthread => exact .inl (hthread ▸ hpass)
  | warm began address asked rest credentials answers lags slot thread hthread hholder hduring
      hback hnext =>
      rcases hnext with rfl | rfl
      · exact .inl (hthread ▸ hpass)
      · exact hpass.elim
  | upsert => exact .inl hpass
  | remove => exact .inl hpass

/-- So keep-warm asks in passes that may ask. A pass is within the window when it begins, and what
it asks for later is asked in that pass. -/
theorem licensed_move {s s' : Server} (h : Move s s') (hs : Licensed s) : Licensed s' := by
  obtain ⟨hused, hpass, hreads⟩ := hs
  obtain ⟨hclock, -, hlast⟩ := h.frame
  have hpass' : ∀ began, s'.thread.OnPass began → began ≤ s'.clock ∧ Within s' began := by
    intro began hon
    rw [hclock]
    rcases h.onPass hon with hon | ⟨rfl, hactive⟩
    · exact ⟨(hpass began hon).1, h.within hused (hpass began hon).2⟩
    · exact ⟨le_rfl, h.within hused (within_of_active hactive)⟩
  refine ⟨?_, hpass', fun address r hr => ?_⟩
  · intro u hu
    rw [hclock]
    rcases hlast with hsame | rfl
    · exact hused u (hsame ▸ hu)
    · exact (Option.some.inj hu).ge
  · have hslot := h.slot address
    generalize s'.slots address = slot' at hslot hr
    have hkept : r ∈ (s.slots address).reads → r.began ≤ r.asked ∧ Within s' r.began :=
      fun hr => ⟨(hreads address r hr).1, h.within hused (hreads address r hr).2⟩
    cases hslot with
    | same => exact hkept hr
    | created => cases hr
    | taken => exact hkept hr
    | given _ _ _ _ _ _ _ hback => exact hkept ((returned_cases hback).2.2.1 ▸ hr)
    | passed => exact hkept hr
    | asked began id rest hthread =>
        rcases List.mem_append.mp hr with hr | hr
        · exact hkept hr
        · obtain rfl := List.mem_singleton.mp hr
          have hon : s.thread.OnPass began := by
            rw [hthread]
            exact rfl
          exact ⟨(hpass began hon).1, h.within hused (hpass began hon).2⟩
    | warmed _ _ _ _ _ _ _ hback => exact hkept ((returned_cases hback).2.2.1 ▸ hr)

/-! ## Over a run -/

/-- One step, as a relation. -/
def Steps (s : Server) (a : Nat × Act) (s' : Server) : Prop := s.step a = some s'

/-- A server that has just started: nobody has used it, and no unit was ever called. -/
structure Started (chosen : KeepWarm) (s : Server) : Prop where
  setting : s.setting = chosen
  clock : s.clock = 0
  lastUse : s.lastUse = none
  thread : s.thread = if chosen = .off then .ended else .asleep 0
  slots : ∀ address, ∃ credentials, s.slots address = { credentials := credentials }
  units : ∀ id address, s.units id = some address → address < s.fresh

variable {setting : KeepWarm}

/-- Adding a unit at the start leaves the rest as it was set up. -/
theorem started_upsert {s : Server} (h : Started setting s) (id : Nat) (credentials : Bool)
    (order : List Nat) : Started setting { s.upsert id credentials with order := order } := by
  obtain ⟨hsetting, hclock, hlast, hthread, hslots, hunits⟩ := h
  refine ⟨hsetting, hclock, hlast, hthread, fun address => ?_, fun id' address hunit => ?_⟩
  · by_cases haddress : address = s.fresh
    · subst haddress
      exact ⟨credentials, Function.update_self _ _ _⟩
    · obtain ⟨c, hc⟩ := hslots address
      exact ⟨c, (Function.update_of_ne haddress _ _).trans hc⟩
  · change Function.update s.units id (some s.fresh) id' = some address at hunit
    change address < s.fresh + 1
    by_cases hid : id' = id
    · subst hid
      rw [Function.update_self] at hunit
      exact Option.some.inj hunit ▸ Nat.lt_succ_self _
    · rw [Function.update_of_ne hid] at hunit
      exact Nat.lt_succ_of_lt (hunits id' address hunit)

/-- Adding all the units of the configuration leaves a server that has just started. -/
theorem started_foldl {s : Server} (h : Started setting s) (configs : List (Nat × Bool)) :
    Started setting (configs.foldl Server.insert s) := by
  induction configs generalizing s with
  | nil => exact h
  | cons c configs ih => exact ih (started_upsert h c.1 c.2 _)

/-- The server as it starts. -/
theorem started_start (setting : KeepWarm) (configs : List (Nat × Bool)) :
    Started setting (Server.start setting configs) := by
  unfold Server.start
  apply started_foldl
  refine ⟨rfl, rfl, rfl, rfl, fun _ => ⟨false, rfl⟩, ?_⟩
  intro id address hunit
  cases hunit

variable {configs : List (Nat × Bool)} {acts : List (Nat × Act)} {s : Server}

/-- Every run keeps the reads of a unit apart. -/
theorem spaced_run (h : Run Steps (Server.start setting configs) acts s) (address : Nat) :
    Spaced s.clock (s.slots address) := by
  have hkeep : ∀ s a s', Spaced s.clock (s.slots address) → Steps s a s' →
      Spaced s'.clock (s'.slots address) := by
    intro s a s' hs hstep
    obtain ⟨hclock, hmove⟩ := step_move hstep
    rw [hmove.frame.1]
    exact spaced_step (hmove.slot address) (hs.later hclock)
  apply Run.preserves hkeep h
  obtain ⟨credentials, hslot⟩ := (started_start setting configs).slots address
  rw [hslot]
  exact ⟨.nil, nofun, nofun⟩

/-- And every run keeps to the setting it began with. Nothing was used, begun or read at the
start, so that the invariant holds there. -/
theorem licensed_run (h : Run Steps (Server.start setting configs) acts s) :
    s.setting = setting ∧ Licensed s := by
  have hkeep : ∀ s a s', s.setting = setting ∧ Licensed s → Steps s a s' →
      s'.setting = setting ∧ Licensed s' := by
    rintro s a s' ⟨hsetting, hused, hpass, hreads⟩ hstep
    obtain ⟨hclock, hmove⟩ := step_move hstep
    refine ⟨hmove.frame.2.1.trans hsetting, licensed_move hmove ⟨?_, ?_, hreads⟩⟩
    · exact fun u hu => (hused u hu).trans hclock
    · exact fun began hon => ⟨(hpass began hon).1.trans hclock, (hpass began hon).2⟩
  obtain ⟨hsetting, -, hlast, hthread, hslots, -⟩ := started_start setting configs
  apply Run.preserves hkeep h
  refine ⟨hsetting, ?_, ?_, ?_⟩
  · rw [hlast]
    nofun
  · rw [hthread]
    intro began hon
    split at hon
    next => exact hon.elim
    next => exact hon.elim
  · intro address
    obtain ⟨credentials, hslot⟩ := hslots address
    rw [hslot]
    nofun

/-- The configuration adds the unit with this id, again perhaps, or takes it away. -/
def Act.replaces (id : Nat) : Act → Bool
  | .upsert id' _ | .remove id' => id' = id
  | .use | .take .. | .give .. | .wake | .look | .warmed .. => false

/-- A unit is where it is until it is added again or taken away. Those two name the id; a removal
of another unit and every act on a slot leave its place alone. -/
theorem units_act {s s' : Server} {act : Act} (h : s.act act = some s') {id : Nat}
    (hact : act.replaces id = false) : s'.units id = s.units id := by
  cases act with
  | use =>
      obtain rfl := Option.some.inj h
      rfl
  | take address request =>
      simp only [Server.act, Server.take, Option.ite_none_right_eq_some, Option.some.injEq] at h
      obtain ⟨-, rfl⟩ := h
      rfl
  | give address answers lags =>
      simp only [Server.act, Server.give] at h
      split at h
      next =>
        simp only [Option.ite_none_right_eq_some, Option.map_eq_some_iff] at h
        obtain ⟨-, slot, -, rfl⟩ := h
        rfl
      next => cases h
  | wake =>
      simp only [Server.act, Server.wake] at h
      split at h
      next =>
        simp only [Option.ite_none_left_eq_some] at h
        obtain ⟨-, h⟩ := h
        split at h
        all_goals
          obtain rfl := Option.some.inj h
          rfl
      next => cases h
  | look =>
      simp only [Server.act, Server.look] at h
      split at h
      next =>
        obtain rfl := Option.some.inj h
        rfl
      next =>
        split at h
        next =>
          obtain rfl := Option.some.inj h
          rfl
        next =>
          obtain rfl := Option.some.inj h
          unfold Server.lookAt
          dsimp only
          split <;> rfl
      next => cases h
  | warmed answers lags =>
      simp only [Server.act, Server.warmed] at h
      split at h
      next =>
        split at h
        next =>
          simp only [Option.ite_none_right_eq_some, Option.map_eq_some_iff] at h
          obtain ⟨-, slot, -, rfl⟩ := h
          rfl
        next => cases h
      next => cases h
  | upsert id' credentials =>
      obtain rfl := Option.some.inj h
      exact Function.update_of_ne (fun heq => of_decide_eq_false hact heq.symm) _ _
  | remove id' =>
      obtain rfl := Option.some.inj h
      exact Function.update_of_ne (fun heq => of_decide_eq_false hact heq.symm) _ _

/-- A unit keeps its address until it is added again or taken away. By induction on the run. -/
theorem units_run {s₀ : Server} {later : List (Nat × Act)} (h : Run Steps s₀ later s) {id : Nat}
    (hlater : ∀ a ∈ later, a.2.replaces id = false) : s.units id = s₀.units id := by
  induction h with
  | nil => rfl
  | cons hfirst _ ih =>
      obtain ⟨ha, hrest⟩ := List.forall_mem_cons.mp hlater
      refine (ih hrest).trans ?_
      simp only [Steps, Server.step, Option.ite_none_left_eq_some] at hfirst
      exact units_act hfirst.2 ha

/-- **Keep-warm's reads.**  Between any two instants it asks the unit at an address no more than
once in twenty seconds, and it asks in passes that began while the server was in use or within the
window after its last use.  The unit with an id is at one address until it is added again or taken
away: what is added again is a new unit, which nobody has heard of yet. -/
theorem warm_reads (h : Run Steps (Server.start setting configs) acts s) (address : Nat) :
    (∀ id s₀ later, Run Steps s₀ later s → (∀ a ∈ later, a.2.replaces id = false) →
        s.units id = s₀.units id) ∧
      (∀ lo hi, (((s.slots address).reads.filter fun r =>
        decide (lo ≤ r.asked ∧ r.asked ≤ hi)).length - 1) * WARM_AFTER ≤ hi - lo) ∧
      ∀ r ∈ (s.slots address).reads, r.began ≤ r.asked ∧ r.asked ≤ s.clock ∧
        (setting = .always ∨ ∃ window u, setting = .forWindow window ∧ s.lastUse = some u ∧
          (r.began - u) * 1000000 ≤ window.secs.toNat * 1000000000 + window.nanos) := by
  have hspaced := spaced_run h address
  obtain ⟨hsetting, hlicensed⟩ := licensed_run h
  refine ⟨fun id s₀ later hrun hlater => units_run hrun hlater, fun lo hi => ?_, fun r hr => ?_⟩
  · have hsub : ((s.slots address).reads.filter fun r =>
        decide (lo ≤ r.asked ∧ r.asked ≤ hi)).Sublist (s.slots address).reads :=
      List.filter_sublist
    have hin : ∀ t ∈ ((s.slots address).reads.filter fun r =>
        decide (lo ≤ r.asked ∧ r.asked ≤ hi)).map Read.asked, lo ≤ t ∧ t ≤ hi := by
      intro t ht
      obtain ⟨r, hr, rfl⟩ := List.mem_map.mp ht
      exact of_decide_eq_true (List.mem_filter.mp hr).2
    have hfew := length_of_apart (hspaced.apart.sublist (hsub.map _)) (fun t ht => (hin t ht).1)
      fun t ht => (hin t ht).2
    rwa [List.length_map] at hfew
  · have hwithin := (hlicensed.reads address r hr).2
    unfold Within at hwithin
    rw [hsetting] at hwithin
    exact ⟨(hlicensed.reads address r hr).1, hspaced.past r hr, hwithin⟩

/-- A run from the moves themselves. -/
theorem exists_run {T : Type} (f : Server → T) {s : Server} {acts : List (Nat × Act)} {x : T}
    (h : (acts.foldlM Server.step s).map f = some x) :
    ∃ s', Run Steps s acts s' ∧ f s' = x := by
  obtain ⟨s', hs', hx⟩ := Option.map_eq_some_iff.mp h
  have hrun : Run Steps s (acts.map id) s' := Run.of_foldlM (fun _ _ _ h => h) hs'
  rw [List.map_id] at hrun
  exact ⟨s', hrun, hx⟩

/-- Somebody looks in once, and the unit answers. -/
def lookedIn : List (Nat × Act) :=
  [(1000, .use), (5000, .wake), (5000, .look), (5700, .warmed [⟨.ok stateFrame, 5600⟩] [1]),
    (5700, .look), (27000, .wake), (27000, .look)]

/-- Somebody looks in at the start, and keep-warm asks twice since. -/
theorem warm_reads_lookedIn : ∃ s : Server,
    (s.slots 0).reads.map (fun r => (r.began, r.asked)) = [(5000, 5000), (27000, 27000)] ∧
      (∀ id s₀ later, Run Steps s₀ later s → (∀ a ∈ later, a.2.replaces id = false) →
        s.units id = s₀.units id) ∧
      (∀ lo hi, (((s.slots 0).reads.filter fun r =>
        decide (lo ≤ r.asked ∧ r.asked ≤ hi)).length - 1) * WARM_AFTER ≤ hi - lo) ∧
      ∀ r ∈ (s.slots 0).reads, r.began ≤ r.asked ∧ r.asked ≤ s.clock ∧
        (KeepWarm.forWindow (.fromSecs 60) = .always ∨ ∃ window u,
          KeepWarm.forWindow (.fromSecs 60) = .forWindow window ∧ s.lastUse = some u ∧
            (r.began - u) * 1000000 ≤ window.secs.toNat * 1000000000 + window.nanos) := by
  have hreads : (lookedIn.foldlM Server.step
      (Server.start (.forWindow (.fromSecs 60)) [(7, true)])).map
        (fun s => (s.slots 0).reads.map fun r => (r.began, r.asked)) =
          some [(5000, 5000), (27000, 27000)] := by decide +kernel
  obtain ⟨s, hrun, hslot⟩ :=
    exists_run (fun s => (s.slots 0).reads.map fun r => (r.began, r.asked)) hreads
  exact ⟨s, hslot, warm_reads hrun 0⟩

end BreezeHttp.Warm
