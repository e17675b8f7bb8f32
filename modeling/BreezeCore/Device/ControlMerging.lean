import BreezeCore.Device.MergeInvariant
import BreezeCore.Lib.Runs

/-!
# Every request has one outcome

What the invariant of the merging machine means for the requests.

* `control_merging` — in every reachable state the batches, the sends, the
  answers and the table of outcomes fit together, a request keeps its outcome,
  and as long as one waits somebody can go on, though not for ever.
-/

namespace BreezeDevice

open Runs Tally

/-! ## One outcome each -/

/-- A request that has its outcome keeps it. Every step moves a request in some other phase, so
that the one that has finished is not the one that moves. -/
theorem finished_step {i : Nat} {outcome : Result} (s : Slot) (a : Action) (s' : Slot)
    (h : s.phase i = .finished outcome) (hstep : Step s a s') : s'.phase i = .finished outcome := by
  have hkeep : ∀ j p, (∀ o, s.phase j ≠ .finished o) →
      Function.update s.phase j p i = .finished outcome := by
    intro j p hj
    have hij : i ≠ j := by
      rintro rfl
      exact hj outcome h
    rw [Function.update_of_ne hij, h]
  cases hstep with
  | join change idle => exact hkeep _ _ fun o hp => by rw [idle] at hp; cases hp
  | acquire waiting free => exact hkeep _ _ fun o hp => by rw [waiting] at hp; cases hp
  | collected holding found => exact hkeep _ _ fun o hp => by rw [holding] at hp; cases hp
  | uncollected holding missing => exact hkeep _ _ fun o hp => by rw [holding] at hp; cases hp
  | taken unanswered found => exact hkeep _ _ fun o hp => by rw [unanswered] at hp; cases hp
  | lost unanswered missing => exact hkeep _ _ fun o hp => by rw [unanswered] at hp; cases hp
  | sent line now sending answered => exact hkeep _ _ fun o hp => by rw [sending] at hp; cases hp
  | panicked line now sending panics => exact hkeep _ _ fun o hp => by rw [sending] at hp; cases hp
  | publish publishing => exact hkeep _ _ fun o hp => by rw [publishing] at hp; cases hp
  | other device poisoned free => exact h

/-! ## Nobody waits for ever -/

/-- A step a request takes after it has joined. -/
def Action.own : Action → Nat
  | .join _ _ | .other => 0
  | .acquire _ | .collect _ | .take _ | .send _ | .publish _ => 1

/-- The steps an action brings with it. -/
def Action.brings : Action → Nat
  | .join _ _ => 5
  | _ => 0

/-- The steps all requests have before them. -/
def Slot.work (s : Slot) : Nat := tally Joined.id Phase.work s.phase s.joined

/-- A request that goes on has less before it. -/
theorem work_update {s : Slot} (h : Inv s) {i n : Nat} {p q : Phase} (hfrom : s.phase i = q)
    (hbatch : q.batch? = some n) (hless : p.work < q.work) :
    1 + tally Joined.id Phase.work (Function.update s.phase i p) s.joined ≤ s.work := by
  rw [← hfrom] at hbatch hless
  obtain ⟨r, hr, hid, -⟩ := h.record hbatch
  have hmem : i ∈ s.joined.map Joined.id := by
    rw [← hid]
    exact List.mem_map_of_mem hr
  have htally := tally_update Phase.work s.phase p h.joins.ids hmem
  unfold Slot.work
  omega

/-- **Every step is paid for.** A join brings the work of its request along, and every other step
leaves its request with less, while a panic or a visit of another request costs nothing. -/
theorem work_step (s : Slot) (a : Action) (s' : Slot) (h : Inv s) (hstep : Step s a s') :
    a.own + s'.work ≤ s.work + a.brings := by
  cases hstep with
  | @join i change idle =>
      have hnew := (h.joins.idle i).mp idle
      have hold : tally Joined.id Phase.work
          (Function.update s.phase i (.waiting (s.queue.join change).1)) s.joined = s.work :=
        tally_update_of_notMem _ hnew
      have hsplit : ∀ phase : Nat → Phase, tally Joined.id Phase.work phase
          (s.joined ++ [⟨i, (s.queue.join change).1, change⟩]) =
            tally Joined.id Phase.work phase s.joined + (phase i).work := by
        intro phase
        simp [tally]
      have hwork : (Phase.waiting (s.queue.join change).1).work = 5 := rfl
      unfold Slot.work Action.own Action.brings
      dsimp only
      rw [hsplit, hold, Function.update_self, hwork]
      unfold Slot.work
      omega
  | @acquire i batch waiting free =>
      exact work_update h waiting rfl (by simp [Phase.work])
  | @collected i batch outcome queue holding found =>
      exact work_update h holding rfl (by simp [Phase.work])
  | @uncollected i batch holding missing =>
      exact work_update h holding rfl (by simp [Phase.work])
  | @taken i batch merged change queue unanswered found =>
      exact work_update h unanswered rfl (by simp [Phase.work])
  | @lost i batch unanswered missing =>
      exact work_update h unanswered rfl (by simp [Phase.work])
  | @sent i batch merged change result device line now sending answered =>
      exact work_update h sending rfl (by simp [Phase.work])
  | @panicked i batch merged change device line now sending panics =>
      exact work_update h sending rfl (by simp [Phase.work])
  | @publish i batch merged outcome publishing =>
      exact work_update h publishing rfl (by simp [Phase.work])
  | other device poisoned free => exact le_of_eq (Nat.zero_add _)

/-- A send comes back when the unit answers, if only with an error. -/
theorem sendChange_answers (d : Device) (change : Change) (merged : Nat) :
    ∃ line now result device, sendChange { d with line := line } change merged now =
      (.ofResult result, device) := by
  refine ⟨[⟨.error .missingCredentials, 0⟩], 0, .error .missingCredentials, ?_⟩
  unfold sendChange
  split
  next base _ => exact ⟨_, rfl⟩
  next => exact ⟨_, rfl⟩

/-- **No deadlock.**  As long as a request waits for its outcome, some request can
take a step. -/
theorem can_go_on {s : Slot} (h : Inv s) {i n : Nat} (hbatch : (s.phase i).batch? = some n) :
    ∃ a s', a.own = 1 ∧ Step s a s' := by
  cases hholder : s.holder with
  | none =>
      have hfree : ¬ (s.phase i).holds = true := by
        rw [h.wire.alone i, hholder]
        exact nofun
      cases hphase : s.phase i with
      | waiting batch => exact ⟨_, _, rfl, .acquire hphase hholder⟩
      | idle | finished _ | panicked =>
          rw [hphase] at hbatch
          cases hbatch
      | holding _ | unanswered _ | sending _ _ _ | publishing _ _ _ =>
          rw [hphase] at hfree
          exact absurd rfl hfree
  | some j =>
      have hholds := (h.wire.alone j).mpr hholder
      cases hphase : s.phase j with
      | idle | waiting _ | finished _ | panicked =>
          rw [hphase] at hholds
          cases hholds
      | holding batch =>
          cases hcollect : s.queue.collect batch with
          | none => exact ⟨_, _, rfl, .uncollected hphase hcollect⟩
          | some found => exact ⟨_, _, rfl, .collected hphase hcollect⟩
      | unanswered batch =>
          cases htake : s.queue.takeBatch batch with
          | none => exact ⟨_, _, rfl, .lost hphase htake⟩
          | some found => exact ⟨_, _, rfl, .taken hphase htake⟩
      | sending batch change merged =>
          obtain ⟨line, now, result, device, hanswer⟩ := sendChange_answers s.device change merged
          exact ⟨_, _, rfl, .sent line now hphase hanswer⟩
      | publishing batch merged outcome => exact ⟨_, _, rfl, .publish hphase⟩

/-! ## The protocol -/

/-- How the requests, the sends and the table of outcomes fit together. -/
structure Merged (s : Slot) : Prop where
  /-- A request joins once. -/
  ids : (s.joined.map Joined.id).Nodup
  /-- A batch is sent once. -/
  batches : (s.sends.map Sent.batch).Nodup
  /-- By one of its members, and as the changes of all of them in order of
  arrival. -/
  sends : ∀ x ∈ s.sends, (∃ r ∈ members s.joined x.batch, r.id = x.sender) ∧
    x.change = mergeAll ((members s.joined x.batch).map Joined.change) ∧
    x.merged = (members s.joined x.batch).length
  /-- What goes on the line is the unit's base state with that change, whenever there is one. -/
  written : ∀ x ∈ s.sends, Wrote x.device x.change x.now x.written
  /-- A success reports it, the base and the size of the batch. -/
  reported : ∀ x ∈ s.sends, ∀ o, x.result = .ok o →
    Built x.change x.merged o ∧ BaseOf x.device x.now o.base
  /-- And what it reports as sent went on the line, once at least. -/
  delivered : ∀ x ∈ s.sends, ∀ o, x.result = .ok o → ∃ reads readId copies writeId,
    x.written = List.replicate reads (Ac.getState readId .indoor) ++
      List.replicate (copies + 1) (Ac.setState writeId o.sent)
  /-- A request waits for its outcome, has it, or panicked over a send. -/
  joined : ∀ r ∈ s.joined, (s.phase r.id).waits = 1 ∨
    (∃ outcome, s.phase r.id = .finished outcome) ∨
    ∃ x ∈ s.sends, x.sender = r.id ∧ x.batch = r.batch ∧ x.result = .panicked
  /-- Every answer comes from the send of the request's own batch. -/
  answers : ∀ r ∈ s.joined, ∀ outcome, s.phase r.id = .finished outcome →
    ∃ x ∈ s.sends, x.batch = r.batch ∧ Receives s.phase x r.id outcome
  /-- When that send panicked, it is an error. -/
  lost : ∀ x ∈ s.sends, x.result = .panicked → ∀ r ∈ members s.joined x.batch, ∀ outcome,
    s.phase r.id = .finished outcome → outcome = lostBeforeSent
  /-- A published outcome is kept for the members that have still to collect it. -/
  table : ∀ n f, s.queue.done n = some f → ∃ x ∈ s.sends, x.batch = n ∧
    x.result = .ofResult f.outcome ∧ s.phase x.sender = .finished f.outcome ∧
    f.uncollected = outstanding s.joined s.phase n ∧ 0 < f.uncollected
  /-- And then no longer. -/
  cleared : ∀ n, outstanding s.joined s.phase n = 0 → s.queue.done n = none

/-- What a send put on the line. -/
theorem Sent.wrote (x : Sent) : Wrote x.device x.change x.now x.written := by
  obtain ⟨written, hsent, hwrote⟩ := sendChange_wrote x.device x.change x.merged x.now
  unfold Sent.written
  rw [hsent, List.drop_left]
  exact hwrote

theorem merged_of_inv {s : Slot} (h : Inv s) : Merged s := by
  have htable : ∀ n f, s.queue.done n = some f → ∃ x ∈ s.sends, x.batch = n ∧
      x.result = .ofResult f.outcome ∧ s.phase x.sender = .finished f.outcome ∧
      f.uncollected = outstanding s.joined s.phase n ∧ 0 < f.uncollected := by
    intro n f hf
    obtain ⟨x, hx, rfl, own, hown⟩ := h.outcomes.tableOnly n f hf
    have hentry := h.outcomes.table x hx own hown
    rw [hf] at hentry
    split at hentry
    next => cases hentry
    next hpos =>
      obtain rfl := Option.some.inj hentry
      exact ⟨x, hx, rfl, h.outcomes.result_of_finished hx hown, hown, rfl, Nat.pos_of_ne_zero hpos⟩
  refine ⟨h.joins.ids, h.wire.batches.1, ?_, fun x _ => x.wrote,
    fun x _ o ho => sendChange_built ho, fun x _ o ho => ?_, ?_, h.outcomes.finished, ?_, htable,
    ?_⟩
  · intro x hx
    obtain ⟨hchange, hmerged, r, hr, hid, hbatch⟩ := h.wire.sent x hx
    exact ⟨⟨r, mem_members.mpr ⟨hr, hbatch⟩, hid⟩, hchange, hmerged⟩
  · obtain ⟨hbuilt, hbase⟩ := sendChange_built ho
    rw [hbuilt.sent]
    exact x.wrote.delivered hbase
  · intro r hr
    cases hphase : s.phase r.id with
    | idle => exact absurd (List.mem_map_of_mem hr) ((h.joins.idle r.id).mp hphase)
    | waiting _ | holding _ | unanswered _ | sending _ _ _ | publishing _ _ _ => exact Or.inl rfl
    | finished outcome => exact Or.inr (Or.inl ⟨outcome, rfl⟩)
    | panicked =>
        obtain ⟨x, hx, hsender, hresult⟩ := h.outcomes.panicked r.id hphase
        obtain ⟨-, -, r', hr', hid, hbatch⟩ := h.wire.sent x hx
        obtain rfl := joined_unique h.joins.ids hr' hr (hid.trans hsender)
        exact Or.inr (Or.inr ⟨x, hx, hsender, hbatch.symm, hresult⟩)
  · intro x hx hpanicked r hr outcome hphase
    obtain ⟨hmem, hbatch⟩ := mem_members.mp hr
    obtain ⟨y, hy, hyb, hreceives⟩ := h.outcomes.finished r hmem outcome hphase
    obtain rfl := h.wire.send_unique hy hx (hyb.trans hbatch)
    have hnever : ∀ o : Result, y.result ≠ .ofResult o := by
      intro o
      rw [hpanicked]
      cases o <;> exact nofun
    cases hreceives with
    | own sender result => exact absurd result (hnever _)
    | collected other result published => exact absurd result (hnever _)
    | lost other result => rfl
  · intro n hzero
    cases hf : s.queue.done n with
    | none => rfl
    | some f =>
        obtain ⟨x, -, -, -, -, hcount, hpos⟩ := htable n f hf
        omega

/-- **Merging control requests.**  Whatever the unit does and however the steps of
the requests interleave: sends, answers and table fit together in every state; a
request that has its outcome keeps it; as long as a request waits, some request
can take a step; and the steps taken are at most five for each request. -/
theorem control_merging {device : Device} {actions : List Action} {s : Slot}
    (hrun : Run Step (Slot.new device) actions s) :
    Merged s ∧
      (∀ i outcome, s.phase i = .finished outcome → ∀ later s', Run Step s later s' →
        s'.phase i = .finished outcome) ∧
      (∀ r ∈ s.joined, (s.phase r.id).waits = 1 → ∃ a s', a.own = 1 ∧ Step s a s') ∧
      (actions.map Action.own).sum + s.work ≤ (actions.map Action.brings).sum := by
  have hinv := hrun.preserves inv_step (inv_new device)
  refine ⟨merged_of_inv hinv, ?_, ?_, ?_⟩
  · intro i outcome hfinished later s' hlater
    exact hlater.preserves finished_step hfinished
  · intro r _ hwaits
    obtain ⟨n, hbatch⟩ : ∃ n, (s.phase r.id).batch? = some n := by
      cases hphase : (s.phase r.id).batch? with
      | none =>
          unfold Phase.waits at hwaits
          rw [hphase] at hwaits
          cases hwaits
      | some n => exact ⟨n, rfl⟩
    exact can_go_on hinv hbatch
  · have hcost := hrun.cost_le inv_step work_step (inv_new device)
    have hzero : (Slot.new device).work = 0 := rfl
    omega

/-- A request joins while another has the unit and has sent nothing yet; both go
out in one command. -/
def twoInOne : List Move :=
  let reply := [0xAA, 0x23, 0xAC, 0, 0, 0, 0, 0, 0x02, 0x03, 0xC0, 0x01, 0x88, 0x64, 0x7F, 0x7F, 0,
    0, 0, 0, 0, 0x63, 0x45, 0x0C, 0, 0x56, 0x19, 0, 0, 0, 0, 0, 0, 0x04, 0x97, 0xC3]
  [.join 1 { powerOn := some true }, .acquire 1, .collect 1, .join 2 { eco := some true }, .take 1,
    .send 1 [⟨.ok reply, 5⟩, ⟨.ok reply, 6⟩] 5, .publish 1, .acquire 2, .collect 2]

/-- Two requests join one batch, one of them sends it, and both have their outcome. -/
theorem control_merging_two : ∃ s, Run Step (Slot.new {}) (twoInOne.map Move.action) s ∧ Merged s ∧
    s.sends.map Sent.merged = [2] ∧ (s.phase 1).work + (s.phase 2).work = 0 ∧
    (s.queue.done 0).isNone = true := by
  have hend : (twoInOne.foldlM act (Slot.new {})).map (fun s =>
      (s.sends.map Sent.merged, (s.phase 1).work + (s.phase 2).work, (s.queue.done 0).isNone)) =
        some ([2], 0, true) := by
    decide +kernel
  obtain ⟨s, hs, hfacts⟩ := Option.map_eq_some_iff.mp hend
  obtain ⟨hmerged, hrest⟩ := Prod.mk.inj hfacts
  obtain ⟨hwork, hdone⟩ := Prod.mk.inj hrest
  have hrun := Run.of_foldlM act_step hs
  exact ⟨s, hrun, (control_merging hrun).1, hmerged, hwork, hdone⟩

end BreezeDevice
