import BreezeCore.Device.Merge

/-!
# What holds while requests share a command

The invariant of the merging machine, in three parts: who joined what (`Joins`),
who has the unit and what went out (`Wire`), and what became of it (`Outcomes`).
Each part has one lemma for each kind of step; `inv_step` puts them together.
-/

namespace BreezeDevice

open Tally

/-! ## The invariant -/

/-- The queue holds the batch that is open, and every request is on record. -/
structure Joins (joined : List Joined) (phase : Nat → Phase) (queue : ControlQueue) : Prop where
  ids : (joined.map Joined.id).Nodup
  idle : ∀ i, phase i = .idle ↔ i ∉ joined.map Joined.id
  batch : ∀ i n, (phase i).batch? = some n → ∃ r ∈ joined, r.id = i ∧ r.batch = n
  opened : ∀ r ∈ joined, r.batch ≤ queue.nextBatch
  pending : queue.pending = folded (members joined queue.nextBatch)
  pendingCount : queue.pendingCount = (members joined queue.nextBatch).length

/-- One request at a time has the unit, and the batches go out in order. -/
structure Wire (joined : List Joined) (phase : Nat → Phase) (holder : Option Nat)
    (nextBatch : Nat) (sends : List Sent) : Prop where
  alone : ∀ i, (phase i).holds = true ↔ holder = some i
  sending : ∀ i n change merged, phase i = .sending n change merged →
    n + 1 = nextBatch ∧ change = folded (members joined n) ∧
      merged = (members joined n).length ∧ sends.map Sent.batch = List.range n
  quiet : (∀ i n change merged, phase i ≠ .sending n change merged) →
    sends.map Sent.batch = List.range nextBatch
  sent : ∀ x ∈ sends, x.change = folded (members joined x.batch) ∧
    x.merged = (members joined x.batch).length ∧
    ∃ r ∈ joined, r.id = x.sender ∧ r.batch = x.batch

/-- What a request that was in the batch of a send can have received. -/
inductive Receives (phase : Nat → Phase) (x : Sent) (i : Nat) : Result → Prop where
  /-- The sender, what the send came back with. -/
  | own {outcome : Result} (sender : x.sender = i) (result : x.result = .ofResult outcome) :
      Receives phase x i outcome
  /-- Another member, what the sender published. -/
  | collected {outcome : Result} (other : x.sender ≠ i) (result : x.result = .ofResult outcome)
      (published : phase x.sender = .finished outcome) : Receives phase x i (shared outcome)
  /-- Another member, that the sender did not live to publish. -/
  | lost (other : x.sender ≠ i) (result : x.result = .panicked) :
      Receives phase x i lostBeforeSent

/-- Every outcome is where it belongs: with its sender, in the table until the
last member collects it, and with those who did. -/
structure Outcomes (joined : List Joined) (phase : Nat → Phase) (done : Nat → Option Finished)
    (sends : List Sent) : Prop where
  senders : ∀ x ∈ sends,
    (∃ outcome, x.result = .ofResult outcome ∧
      (phase x.sender = .publishing x.batch x.merged outcome ∨
        phase x.sender = .finished outcome)) ∨
    (x.result = .panicked ∧ phase x.sender = .panicked)
  publishing : ∀ i n merged outcome, phase i = .publishing n merged outcome →
    ∃ x ∈ sends, x.sender = i ∧ x.batch = n ∧ x.merged = merged ∧ x.result = .ofResult outcome
  panicked : ∀ i, phase i = .panicked → ∃ x ∈ sends, x.sender = i ∧ x.result = .panicked
  finished : ∀ r ∈ joined, ∀ outcome, phase r.id = .finished outcome →
    ∃ x ∈ sends, x.batch = r.batch ∧ Receives phase x r.id outcome
  table : ∀ x ∈ sends, ∀ outcome, phase x.sender = .finished outcome →
    done x.batch = if outstanding joined phase x.batch = 0 then none
      else some ⟨outcome, outstanding joined phase x.batch⟩
  tableOnly : ∀ n f, done n = some f →
    ∃ x ∈ sends, x.batch = n ∧ ∃ outcome, phase x.sender = .finished outcome
  missing : ∀ i n, phase i = .unanswered n → done n = none

/-- What holds in every reachable state. -/
structure Inv (s : Slot) : Prop where
  joins : Joins s.joined s.phase s.queue
  wire : Wire s.joined s.phase s.holder s.queue.nextBatch s.sends
  outcomes : Outcomes s.joined s.phase s.queue.done s.sends

/-! ### Who joined what -/

/-- A request that goes on, and keeps its batch number or drops it, is still on
record. -/
theorem Joins.move {joined : List Joined} {phase : Nat → Phase} {queue queue' : ControlQueue}
    (h : Joins joined phase queue) {i : Nat} {p : Phase} (hfrom : phase i ≠ .idle)
    (hto : p ≠ .idle) (hbatch : ∀ n, p.batch? = some n → (phase i).batch? = some n)
    (hopen : queue'.nextBatch = queue.nextBatch) (hpending : queue'.pending = queue.pending)
    (hcount : queue'.pendingCount = queue.pendingCount) :
    Joins joined (Function.update phase i p) queue' := by
  refine ⟨h.ids, ?_, ?_, ?_, ?_, ?_⟩
  · intro j
    by_cases hj : j = i
    · subst hj
      rw [Function.update_self]
      exact iff_of_false hto fun hmem => hfrom ((h.idle j).mpr hmem)
    · rw [Function.update_of_ne hj]
      exact h.idle j
  · intro j n hn
    by_cases hj : j = i
    · subst hj
      rw [Function.update_self] at hn
      exact h.batch j n (hbatch n hn)
    · rw [Function.update_of_ne hj] at hn
      exact h.batch j n hn
  · rw [hopen]
    exact h.opened
  · rw [hopen, hpending]
    exact h.pending
  · rw [hopen, hcount]
    exact h.pendingCount

/-- A new request joins the open batch. It was idle, so it is on no list yet, and the open batch's
change and count grow by its own. -/
theorem Joins.join {joined : List Joined} {phase : Nat → Phase} {queue : ControlQueue}
    (h : Joins joined phase queue) {i : Nat} (change : Change) (hidle : phase i = .idle) :
    Joins (joined ++ [Joined.mk i queue.nextBatch change])
      (Function.update phase i (.waiting queue.nextBatch)) (queue.join change).2 := by
  have hnew := (h.idle i).mp hidle
  have hmap : (joined ++ [Joined.mk i queue.nextBatch change]).map Joined.id =
      joined.map Joined.id ++ [i] := List.map_append
  refine ⟨?_, ?_, ?_, ?_, ?_, ?_⟩
  · rw [hmap]
    exact List.nodup_append.mpr ⟨h.ids, List.nodup_singleton i, by
      intro a ha b hb
      obtain rfl := List.mem_singleton.mp hb
      rintro rfl
      exact hnew ha⟩
  · intro j
    rw [hmap, List.mem_append, List.mem_singleton, not_or]
    by_cases hj : j = i
    · subst hj
      rw [Function.update_self]
      exact iff_of_false nofun fun hmem => hmem.2 rfl
    · rw [Function.update_of_ne hj, h.idle j]
      exact (and_iff_left hj).symm
  · intro j n hn
    by_cases hj : j = i
    · subst hj
      rw [Function.update_self] at hn
      exact ⟨_, List.mem_append_right _ List.mem_cons_self, rfl, Option.some.inj hn⟩
    · rw [Function.update_of_ne hj] at hn
      obtain ⟨r, hr, hid, hbatch⟩ := h.batch j n hn
      exact ⟨r, List.mem_append_left _ hr, hid, hbatch⟩
  · intro r hr
    rcases List.mem_append.mp hr with hr | hr
    · exact h.opened r hr
    · obtain rfl := List.mem_singleton.mp hr
      exact le_refl _
  · have hfold := members_append_self joined (Joined.mk i queue.nextBatch change)
    calc queue.pending.merge change
        = (folded (members joined queue.nextBatch)).merge change := by rw [← h.pending]
      _ = folded (members joined queue.nextBatch ++ [Joined.mk i queue.nextBatch change]) :=
          (folded_append _ (Joined.mk i queue.nextBatch change)).symm
      _ = folded (members (joined ++ [Joined.mk i queue.nextBatch change]) queue.nextBatch) := by
          rw [hfold]
  · have hfold := members_append_self joined (Joined.mk i queue.nextBatch change)
    calc queue.pendingCount + 1
        = (members joined queue.nextBatch).length + 1 := by rw [h.pendingCount]
      _ = (members joined queue.nextBatch ++ [Joined.mk i queue.nextBatch change]).length :=
          by rw [List.length_append, List.length_singleton]
      _ = (members (joined ++ [Joined.mk i queue.nextBatch change]) queue.nextBatch).length := by
          rw [hfold]

/-- Taking the open batch opens the next one, which nobody has joined. So the new batch starts
with no change pending and a count of nothing. -/
theorem Joins.take {joined : List Joined} {phase : Nat → Phase} {queue : ControlQueue}
    (h : Joins joined phase queue) {i n merged : Nat} {change : Change}
    (hfrom : (phase i).batch? = some n) {queue' : ControlQueue}
    (hopen : queue'.nextBatch = queue.nextBatch + 1) (hpending : queue'.pending = {})
    (hcount : queue'.pendingCount = 0) :
    Joins joined (Function.update phase i (.sending n change merged)) queue' := by
  have hempty : members joined (queue.nextBatch + 1) = [] := by
    apply List.filter_eq_nil_iff.mpr
    intro r hr hbatch
    have hle := h.opened r hr
    have heq := of_decide_eq_true hbatch
    omega
  have hnot : phase i ≠ .idle := by
    intro hidle
    rw [hidle] at hfrom
    cases hfrom
  have hmoved : Joins joined (Function.update phase i (.sending n change merged)) queue :=
    h.move hnot nofun (fun m hm => hfrom.trans hm) rfl rfl rfl
  refine ⟨hmoved.ids, hmoved.idle, hmoved.batch, ?_, ?_, ?_⟩
  · intro r hr
    have hle := h.opened r hr
    omega
  · rw [hopen, hpending, hempty]
    rfl
  · rw [hopen, hcount, hempty]
    rfl

/-! ### Who has the unit -/

/-- A request that has the unit goes on with it. -/
theorem alone_keep {phase : Nat → Phase} {holder : Option Nat} {i : Nat} {p : Phase}
    (h : ∀ j, (phase j).holds = true ↔ holder = some j) (hfrom : (phase i).holds = true)
    (hto : p.holds = true) :
    ∀ j, (Function.update phase i p j).holds = true ↔ holder = some j := by
  intro j
  by_cases hj : j = i
  · subst hj
    rw [Function.update_self]
    exact iff_of_true hto ((h j).mp hfrom)
  · rw [Function.update_of_ne hj]
    exact h j

/-- A request that has the unit gives it up. -/
theorem alone_release {phase : Nat → Phase} {holder : Option Nat} {i : Nat} {p : Phase}
    (h : ∀ j, (phase j).holds = true ↔ holder = some j) (hfrom : (phase i).holds = true)
    (hto : p.holds = false) :
    ∀ j, (Function.update phase i p j).holds = true ↔ none = some j := by
  intro j
  refine iff_of_false ?_ nofun
  by_cases hj : j = i
  · subst hj
    rw [Function.update_self, hto]
    exact Bool.false_ne_true
  · rw [Function.update_of_ne hj, h j, (h i).mp hfrom]
    intro hij
    exact hj (Option.some.inj hij).symm

/-- A request gets the unit. -/
theorem alone_acquire {phase : Nat → Phase} {i : Nat} {p : Phase}
    (h : ∀ j, (phase j).holds = true ↔ none = some j) (hto : p.holds = true) :
    ∀ j, (Function.update phase i p j).holds = true ↔ some i = some j := by
  intro j
  by_cases hj : j = i
  · subst hj
    rw [Function.update_self]
    exact iff_of_true hto rfl
  · rw [Function.update_of_ne hj]
    refine iff_of_false ?_ fun hij => hj (Option.some.inj hij).symm
    intro hholds
    cases (h j).mp hholds

/-- A request without the unit goes on without it. -/
theorem alone_without {phase : Nat → Phase} {holder : Option Nat} {i : Nat} {p : Phase}
    (h : ∀ j, (phase j).holds = true ↔ holder = some j) (hfrom : (phase i).holds = false)
    (hto : p.holds = false) :
    ∀ j, (Function.update phase i p j).holds = true ↔ holder = some j := by
  intro j
  by_cases hj : j = i
  · subst hj
    rw [Function.update_self, hto, ← hfrom]
    exact h j
  · rw [Function.update_of_ne hj]
    exact h j

variable {joined : List Joined} {phase : Nat → Phase} {holder : Option Nat} {nextBatch : Nat}
  {sends : List Sent}

/-- Two requests that have the unit are one. -/
theorem Wire.holds_unique (h : Wire joined phase holder nextBatch sends) {i j : Nat}
    (hi : (phase i).holds = true) (hj : (phase j).holds = true) : i = j :=
  Option.some.inj (((h.alone i).mp hi).symm.trans ((h.alone j).mp hj))

/-- With the unit in hands that are not sending, every batch taken has gone
out. -/
theorem Wire.range_of_holds (h : Wire joined phase holder nextBatch sends) {i : Nat}
    (hi : (phase i).holds = true)
    (hnot : ∀ n change merged, phase i ≠ .sending n change merged) :
    sends.map Sent.batch = List.range nextBatch := by
  apply h.quiet
  intro j n change merged hj
  have hholds : (phase j).holds = true := by
    rw [hj]
    rfl
  obtain rfl := h.holds_unique hi hholds
  exact hnot n change merged hj

/-- Batches have gone out once each, and only such as were taken. The batches on the wire are the
first so many in order, one fewer while one of them is being sent. -/
theorem Wire.batches (h : Wire joined phase holder nextBatch sends) :
    (sends.map Sent.batch).Nodup ∧ ∀ x ∈ sends, x.batch < nextBatch := by
  by_cases hsending : ∃ i n change merged, phase i = .sending n change merged
  · obtain ⟨i, n, change, merged, hi⟩ := hsending
    obtain ⟨hnext, -, -, hrange⟩ := h.sending i n change merged hi
    rw [hrange]
    refine ⟨List.nodup_range, ?_⟩
    intro x hx
    have hmem : x.batch ∈ List.range n := by
      rw [← hrange]
      exact List.mem_map_of_mem hx
    have hlt := List.mem_range.mp hmem
    omega
  · have hrange := h.quiet fun i n change merged hi => hsending ⟨i, n, change, merged, hi⟩
    rw [hrange]
    refine ⟨List.nodup_range, ?_⟩
    intro x hx
    have hmem : x.batch ∈ List.range nextBatch := by
      rw [← hrange]
      exact List.mem_map_of_mem hx
    exact List.mem_range.mp hmem

theorem Wire.send_unique (h : Wire joined phase holder nextBatch sends) {x y : Sent}
    (hx : x ∈ sends) (hy : y ∈ sends) (hbatch : x.batch = y.batch) : x = y :=
  List.inj_on_of_nodup_map h.batches.1 hx hy hbatch

/-- A step of one request that does not end or begin a send. The requests that are sending are the
same before and after, so what is known of their batches is kept. -/
theorem Wire.move (h : Wire joined phase holder nextBatch sends) {i : Nat} {p : Phase}
    {holder' : Option Nat}
    (halone : ∀ j, (Function.update phase i p j).holds = true ↔ holder' = some j)
    (hfrom : ∀ n change merged, phase i ≠ .sending n change merged)
    (hto : ∀ n change merged, p ≠ .sending n change merged) :
    Wire joined (Function.update phase i p) holder' nextBatch sends := by
  have hsame : ∀ j n change merged,
      Function.update phase i p j = .sending n change merged →
        phase j = .sending n change merged := by
    intro j n change merged hj
    by_cases hji : j = i
    · subst hji
      rw [Function.update_self] at hj
      exact absurd hj (hto n change merged)
    · rwa [Function.update_of_ne hji] at hj
  refine ⟨halone, ?_, ?_, h.sent⟩
  · intro j n change merged hj
    exact h.sending j n change merged (hsame j n change merged hj)
  · intro hnone
    apply h.quiet
    intro j n change merged hj
    apply hnone j n change merged
    have hji : j ≠ i := by
      rintro rfl
      exact hfrom n change merged hj
    rwa [Function.update_of_ne hji]

/-- A new member of the open batch changes nothing about those that went out. Their batches are
older, so that their members are as they were. -/
theorem Wire.join (h : Wire joined phase holder nextBatch sends) {r : Joined}
    (hopen : r.batch = nextBatch) (hidle : (phase r.id).holds = false) :
    Wire (joined ++ [r]) (Function.update phase r.id (.waiting nextBatch)) holder nextBatch
      sends := by
  have hfrom : ∀ n change merged, phase r.id ≠ .sending n change merged := by
    intro n change merged hsending
    rw [hsending] at hidle
    cases hidle
  have hto : ∀ n change merged, Phase.waiting nextBatch ≠ .sending n change merged := by
    intro n change merged hsending
    cases hsending
  have hmoved := h.move (alone_without h.alone hidle rfl) hfrom hto
  refine ⟨hmoved.alone, ?_, hmoved.quiet, ?_⟩
  · intro j n change merged hj
    obtain ⟨hnext, hchange, hmerged, hrange⟩ := hmoved.sending j n change merged hj
    have hne : r.batch ≠ n := by omega
    rw [members_append_of_ne hne]
    exact ⟨hnext, hchange, hmerged, hrange⟩
  · intro x hx
    have hlt := h.batches.2 x hx
    have hne : r.batch ≠ x.batch := by omega
    obtain ⟨hchange, hmerged, member, hmember, hsender⟩ := h.sent x hx
    rw [members_append_of_ne hne]
    exact ⟨hchange, hmerged, member, List.mem_append_left _ hmember, hsender⟩

/-- The open batch is taken. Whoever takes it holds the lock, so nobody else is sending, and what
is to be sent is what all its members asked for. -/
theorem Wire.take (h : Wire joined phase holder nextBatch sends) {i : Nat}
    (hfrom : phase i = .unanswered nextBatch) :
    Wire joined (Function.update phase i (.sending nextBatch
        (folded (members joined nextBatch)) (members joined nextBatch).length))
      holder (nextBatch + 1) sends := by
  have hholds : (phase i).holds = true := by
    rw [hfrom]
    rfl
  have hnot : ∀ n change merged, phase i ≠ .sending n change merged := by
    intro n change merged hsending
    rw [hfrom] at hsending
    cases hsending
  have hrange := h.range_of_holds hholds hnot
  refine ⟨alone_keep h.alone hholds rfl, ?_, ?_, h.sent⟩
  · intro j n change merged hj
    by_cases hji : j = i
    · subst hji
      rw [Function.update_self] at hj
      obtain ⟨rfl, rfl, rfl⟩ := Phase.sending.inj hj
      exact ⟨rfl, rfl, rfl, hrange⟩
    · rw [Function.update_of_ne hji] at hj
      have hother : (phase j).holds = true := by
        rw [hj]
        rfl
      exact absurd (h.holds_unique hother hholds) hji
  · intro hnone
    exact absurd (Function.update_self i _ phase) (hnone i _ _ _)

/-- The batch that was taken goes out. It is the newest, and with it the batches on the wire are
all that were taken so far. -/
theorem Wire.send (h : Wire joined phase holder nextBatch sends) {i n merged : Nat}
    {change : Change} (hfrom : phase i = .sending n change merged) {p : Phase}
    {holder' : Option Nat}
    (halone : ∀ j, (Function.update phase i p j).holds = true ↔ holder' = some j)
    (hto : ∀ n change merged, p ≠ .sending n change merged)
    (hmember : ∃ r ∈ joined, r.id = i ∧ r.batch = n) (device : Device) (now : Nat) :
    Wire joined (Function.update phase i p) holder' nextBatch
      (sends ++ [⟨n, i, change, merged, device, now⟩]) := by
  obtain ⟨hnext, hchange, hmerged, hrange⟩ := h.sending i n change merged hfrom
  have hholds : (phase i).holds = true := by
    rw [hfrom]
    rfl
  refine ⟨halone, ?_, ?_, ?_⟩
  · intro j m change' merged' hj
    by_cases hji : j = i
    · subst hji
      rw [Function.update_self] at hj
      exact absurd hj (hto _ _ _)
    · rw [Function.update_of_ne hji] at hj
      have hother : (phase j).holds = true := by
        rw [hj]
        rfl
      exact absurd (h.holds_unique hother hholds) hji
  · intro _
    rw [List.map_append, hrange, ← hnext, List.range_succ]
    rfl
  · intro x hx
    rcases List.mem_append.mp hx with hx | hx
    · exact h.sent x hx
    · obtain rfl := List.mem_singleton.mp hx
      exact ⟨hchange, hmerged, hmember⟩

/-! ### What became of it -/

/-- Two records with one id are one. -/
theorem joined_unique (hids : (joined.map Joined.id).Nodup) {r r' : Joined} (hr : r ∈ joined)
    (hr' : r' ∈ joined) (hid : r.id = r'.id) : r = r' :=
  List.inj_on_of_nodup_map hids hr hr' hid

/-- A request counts in its own batch only. -/
theorem outstanding_of_ne (hids : (joined.map Joined.id).Nodup) {r : Joined} (hr : r ∈ joined)
    (p : Phase) {n : Nat} (hn : r.batch ≠ n) :
    outstanding joined (Function.update phase r.id p) n = outstanding joined phase n := by
  apply tally_update_of_notMem p
  intro hmem
  obtain ⟨r', hr', hid⟩ := List.mem_map.mp hmem
  obtain ⟨hjoined, hbatch⟩ := mem_members.mp hr'
  exact hn ((congrArg Joined.batch (joined_unique hids hr hjoined hid.symm)).trans hbatch)

/-- One that stops waiting counts no more. -/
theorem outstanding_settle (hids : (joined.map Joined.id).Nodup) {r : Joined} (hr : r ∈ joined)
    {p : Phase} (hfrom : (phase r.id).waits = 1) (hto : p.waits = 0) :
    outstanding joined (Function.update phase r.id p) r.batch + 1 =
      outstanding joined phase r.batch := by
  have hmem : r.id ∈ (members joined r.batch).map Joined.id :=
    List.mem_map_of_mem (mem_members.mpr ⟨hr, rfl⟩)
  have htally := tally_update Phase.waits phase p
    (nodup_members hids r.batch) hmem
  unfold outstanding
  omega

variable {done : Nat → Option Finished}

/-- Whoever sent something is past its beginnings. -/
theorem Outcomes.sender_ne (h : Outcomes joined phase done sends) {i : Nat}
    (hearly : (phase i).early = true) {x : Sent} (hx : x ∈ sends) : x.sender ≠ i := by
  rintro rfl
  rcases h.senders x hx with ⟨outcome, -, hphase | hphase⟩ | ⟨-, hphase⟩
  all_goals
    rw [hphase] at hearly
    cases hearly

/-- So a change at its beginnings changes no sender. -/
theorem Outcomes.sender_keeps (h : Outcomes joined phase done sends) {i : Nat}
    (hearly : (phase i).early = true) (p : Phase) {x : Sent} (hx : x ∈ sends) :
    Function.update phase i p x.sender = phase x.sender :=
  Function.update_of_ne (h.sender_ne hearly hx) p phase

/-- A sender that has finished has what its send came back with. -/
theorem Outcomes.result_of_finished (h : Outcomes joined phase done sends) {x : Sent}
    (hx : x ∈ sends) {outcome : Result} (hphase : phase x.sender = .finished outcome) :
    x.result = .ofResult outcome := by
  rcases h.senders x hx with ⟨o, hresult, hsender | hsender⟩ | ⟨-, hsender⟩
  · rw [hphase] at hsender
    cases hsender
  · rw [hphase] at hsender
    rw [hresult, Phase.finished.inj hsender]
  · rw [hphase] at hsender
    cases hsender

/-- A phase other than the one somebody moved to was there before. -/
theorem phase_before {i j : Nat} {p q : Phase} (hne : p ≠ q)
    (h : Function.update phase i p j = q) : j ≠ i ∧ phase j = q := by
  by_cases hji : j = i
  · subst hji
    rw [Function.update_self] at h
    exact absurd h hne
  · rw [Function.update_of_ne hji] at h
    exact ⟨hji, h⟩

theorem Receives.congr {phase' : Nat → Phase} {x : Sent} {i : Nat} {outcome : Result}
    (h : Receives phase x i outcome)
    (hsame : ∀ own, phase x.sender = .finished own → phase' x.sender = .finished own) :
    Receives phase' x i outcome := by
  cases h with
  | own sender result => exact .own sender result
  | collected other result published => exact .collected other result (hsame _ published)
  | lost other result => exact .lost other result

/-- **A request goes on** without receiving anything.  Whatever was sent and received
before stays; a new send is its own, and its new phase says what came of it. -/
theorem Outcomes.go_on (h : Outcomes joined phase done sends) {i : Nat} {p : Phase}
    {joined' : List Joined} {sends' : List Sent} (hearly : (phase i).early = true)
    (hjoined : ∀ r ∈ joined', r ∈ joined ∨ r.id = i) (hold : ∀ x ∈ sends, x ∈ sends')
    (hnew : ∀ x ∈ sends', x ∈ sends ∨ x.sender = i ∧
      ((∃ outcome, x.result = .ofResult outcome ∧ p = .publishing x.batch x.merged outcome) ∨
        (x.result = .panicked ∧ p = .panicked)))
    (hpublishing : ∀ n merged outcome, p = .publishing n merged outcome →
      ∃ x ∈ sends', x.sender = i ∧ x.batch = n ∧ x.merged = merged ∧ x.result = .ofResult outcome)
    (hpanicked : p = .panicked → ∃ x ∈ sends', x.sender = i ∧ x.result = .panicked)
    (hfinished : ∀ outcome, p ≠ .finished outcome)
    (hmissing : ∀ n, p = .unanswered n → done n = none)
    (hcount : ∀ x ∈ sends, outstanding joined' (Function.update phase i p) x.batch =
      outstanding joined phase x.batch) :
    Outcomes joined' (Function.update phase i p) done sends' := by
  have hsender : ∀ x ∈ sends, Function.update phase i p x.sender = phase x.sender :=
    fun x hx => h.sender_keeps hearly p hx
  refine ⟨?_, ?_, ?_, ?_, ?_, ?_, ?_⟩
  · intro x hx
    rcases hnew x hx with hx | ⟨rfl, ⟨outcome, hresult, hp⟩ | ⟨hresult, hp⟩⟩
    · rw [hsender x hx]
      exact h.senders x hx
    · exact Or.inl ⟨outcome, hresult, Or.inl ((Function.update_self _ _ _).trans hp)⟩
    · exact Or.inr ⟨hresult, (Function.update_self _ _ _).trans hp⟩
  · intro j n merged outcome hj
    by_cases hji : j = i
    · subst hji
      rw [Function.update_self] at hj
      exact hpublishing n merged outcome hj
    · rw [Function.update_of_ne hji] at hj
      obtain ⟨x, hx, hrest⟩ := h.publishing j n merged outcome hj
      exact ⟨x, hold x hx, hrest⟩
  · intro j hj
    by_cases hji : j = i
    · subst hji
      rw [Function.update_self] at hj
      exact hpanicked hj
    · rw [Function.update_of_ne hji] at hj
      obtain ⟨x, hx, hrest⟩ := h.panicked j hj
      exact ⟨x, hold x hx, hrest⟩
  · intro r hr outcome hj
    obtain ⟨hne, hphase⟩ := phase_before (hfinished outcome) hj
    obtain ⟨x, hx, hbatch, hreceives⟩ :=
      h.finished r ((hjoined r hr).resolve_right hne) outcome hphase
    exact ⟨x, hold x hx, hbatch, hreceives.congr fun own hown => (hsender x hx).trans hown⟩
  · intro x hx outcome hj
    rcases hnew x hx with hx | ⟨rfl, -⟩
    · rw [hcount x hx]
      exact h.table x hx outcome ((hsender x hx).symm.trans hj)
    · rw [Function.update_self] at hj
      exact absurd hj (hfinished outcome)
  · intro n f hf
    obtain ⟨x, hx, hbatch, outcome, hphase⟩ := h.tableOnly n f hf
    exact ⟨x, hold x hx, hbatch, outcome, (hsender x hx).trans hphase⟩
  · intro j n hj
    by_cases hji : j = i
    · subst hji
      rw [Function.update_self] at hj
      exact hmissing n hj
    · rw [Function.update_of_ne hji] at hj
      exact h.missing j n hj

/-- A request that goes on without sending or receiving anything. -/
theorem Outcomes.move (h : Outcomes joined phase done sends) {i : Nat} {p : Phase}
    (hfrom : (phase i).early = true) (hto : p.early = true) (hwaits : p.waits = (phase i).waits)
    (hmissing : ∀ n, p = .unanswered n → done n = none) :
    Outcomes joined (Function.update phase i p) done sends := by
  have hother : ∀ q, q.early = false → p ≠ q := by
    rintro q hq rfl
    rw [hto] at hq
    cases hq
  refine h.go_on hfrom (fun _ hr => Or.inl hr) (fun _ hx => hx) (fun _ hx => Or.inl hx) ?_ ?_
    (fun outcome => hother _ rfl) hmissing (fun x _ => tally_update_of_eq hwaits)
  · intro n merged outcome hp
    exact absurd hp (hother _ rfl)
  · intro hp
    exact absurd hp (hother _ rfl)

/-- A new member of a batch that has not gone out. -/
theorem Outcomes.join (h : Outcomes joined phase done sends) {r : Joined}
    (hidle : phase r.id = .idle) (hnew : r.id ∉ joined.map Joined.id)
    (hopen : ∀ x ∈ sends, r.batch ≠ x.batch) :
    Outcomes (joined ++ [r]) (Function.update phase r.id (.waiting r.batch)) done sends := by
  have hearly : (phase r.id).early = true := by
    rw [hidle]
    rfl
  refine h.go_on hearly ?_ (fun _ hx => hx) (fun _ hx => Or.inl hx) (fun _ _ _ hp => by cases hp)
    (fun hp => by cases hp) (fun _ hp => by cases hp) (fun _ hp => by cases hp) ?_
  · intro member hmember
    refine (List.mem_append.mp hmember).imp_right fun hmember => ?_
    rw [List.mem_singleton.mp hmember]
  · intro x hx
    unfold outstanding
    rw [members_append_of_ne (hopen x hx)]
    apply tally_update_of_notMem _
    intro hmem
    exact hnew ((List.filter_sublist.map Joined.id).subset hmem)

/-- A send came back: its sender has the outcome, and everybody else waits. The table has no entry
of the batch yet, as that comes with publishing. -/
theorem Outcomes.send (h : Outcomes joined phase done sends) {x : Sent}
    {change : Change} (hfrom : phase x.sender = .sending x.batch change x.merged)
    {outcome : Result} (hresult : x.result = .ofResult outcome) :
    Outcomes joined (Function.update phase x.sender (.publishing x.batch x.merged outcome)) done
      (sends ++ [x]) := by
  have hearly : (phase x.sender).early = true := by
    rw [hfrom]
    rfl
  refine h.go_on hearly (fun _ hr => Or.inl hr) (fun _ hy => List.mem_append_left _ hy) ?_ ?_
    (fun hp => by cases hp) (fun _ hp => by cases hp) (fun _ hp => by cases hp) ?_
  · intro y hy
    refine (List.mem_append.mp hy).imp_right fun hy => ?_
    obtain rfl := List.mem_singleton.mp hy
    exact ⟨rfl, Or.inl ⟨outcome, hresult, rfl⟩⟩
  · intro n merged o hp
    obtain ⟨rfl, rfl, rfl⟩ := Phase.publishing.inj hp
    exact ⟨x, List.mem_append_right _ List.mem_cons_self, rfl, rfl, rfl, hresult⟩
  · intro y hy
    apply tally_update_of_eq
    rw [hfrom]
    rfl

/-- A send panicked: nobody has an outcome, and nobody will. The others of the batch find nothing
in the table and are told that it was lost. -/
theorem Outcomes.panic (h : Outcomes joined phase done sends)
    (hids : (joined.map Joined.id).Nodup) {r : Joined} (hr : r ∈ joined) {x : Sent}
    (hid : r.id = x.sender) (hbatch : r.batch = x.batch) {change : Change}
    (hfrom : phase x.sender = .sending x.batch change x.merged) (hresult : x.result = .panicked)
    (hfirst : ∀ y ∈ sends, x.batch ≠ y.batch) :
    Outcomes joined (Function.update phase x.sender .panicked) done (sends ++ [x]) := by
  have hearly : (phase x.sender).early = true := by
    rw [hfrom]
    rfl
  refine h.go_on hearly (fun _ hr => Or.inl hr) (fun _ hy => List.mem_append_left _ hy) ?_
    (fun _ _ _ hp => by cases hp) ?_ (fun _ hp => by cases hp) (fun _ hp => by cases hp) ?_
  · intro y hy
    refine (List.mem_append.mp hy).imp_right fun hy => ?_
    obtain rfl := List.mem_singleton.mp hy
    exact ⟨rfl, Or.inr ⟨hresult, rfl⟩⟩
  · intro _
    exact ⟨x, List.mem_append_right _ List.mem_cons_self, rfl, hresult⟩
  · intro y hy
    have hother : r.batch ≠ y.batch := by
      rw [hbatch]
      exact hfirst y hy
    rw [← hid, outstanding_of_ne hids hr .panicked hother]

/-- A request that did not send receives what there is for it, and the table is
brought up to date. -/
theorem Outcomes.finish (h : Outcomes joined phase done sends)
    (hids : (joined.map Joined.id).Nodup) {r : Joined} (hr : r ∈ joined)
    (hearly : (phase r.id).early = true) (hwaits : (phase r.id).waits = 1)
    (hmissing : ∀ j n, phase j = .unanswered n → j = r.id) {x : Sent} (hx : x ∈ sends)
    (hbatch : x.batch = r.batch) (honly : ∀ y ∈ sends, y.batch = r.batch → y = x)
    {outcome : Result} (hreceives : Receives phase x r.id outcome)
    {done' : Nat → Option Finished} (hother : ∀ n, n ≠ r.batch → done' n = done n)
    (htable : ∀ own, phase x.sender = .finished own →
      done' r.batch = if outstanding joined phase r.batch - 1 = 0 then none
        else some ⟨own, outstanding joined phase r.batch - 1⟩)
    (htableOnly : ∀ f, done' r.batch = some f → ∃ own, phase x.sender = .finished own) :
    Outcomes joined (Function.update phase r.id (.finished outcome)) done' sends := by
  have hsender : ∀ y ∈ sends,
      Function.update phase r.id (.finished outcome) y.sender = phase y.sender :=
    fun y hy => h.sender_keeps hearly _ hy
  have hsettled := outstanding_settle hids hr (p := .finished outcome) hwaits rfl
  refine ⟨?_, ?_, ?_, ?_, ?_, ?_, ?_⟩
  · intro y hy
    rw [hsender y hy]
    exact h.senders y hy
  · intro j n merged o hj
    exact h.publishing j n merged o (phase_before (fun hq => by cases hq) hj).2
  · intro j hj
    exact h.panicked j (phase_before (fun hq => by cases hq) hj).2
  · intro member hmember o hj
    by_cases hji : member.id = r.id
    · rw [hji, Function.update_self] at hj
      obtain rfl := Phase.finished.inj hj
      obtain rfl := joined_unique hids hmember hr hji
      exact ⟨x, hx, hbatch, hreceives.congr fun own hown => (hsender x hx).trans hown⟩
    · rw [Function.update_of_ne hji] at hj
      obtain ⟨y, hy, hbatch', hreceives'⟩ := h.finished member hmember o hj
      exact ⟨y, hy, hbatch', hreceives'.congr fun own hown => (hsender y hy).trans hown⟩
  · intro y hy o hj
    rw [hsender y hy] at hj
    by_cases hyb : y.batch = r.batch
    · obtain rfl := honly y hy hyb
      rw [hyb, htable o hj]
      have hcount : outstanding joined (Function.update phase r.id (.finished outcome)) r.batch =
          outstanding joined phase r.batch - 1 := by omega
      rw [hcount]
    · rw [hother y.batch hyb, outstanding_of_ne hids hr (.finished outcome) (Ne.symm hyb)]
      exact h.table y hy o hj
  · intro n f hf
    by_cases hn : n = r.batch
    · subst hn
      obtain ⟨own, hown⟩ := htableOnly f hf
      exact ⟨x, hx, hbatch, own, (hsender x hx).trans hown⟩
    · rw [hother n hn] at hf
      obtain ⟨y, hy, hyb, o, hphase⟩ := h.tableOnly n f hf
      exact ⟨y, hy, hyb, o, (hsender y hy).trans hphase⟩
  · intro j n hj
    obtain ⟨hne, hphase⟩ := phase_before (fun hq => by cases hq) hj
    exact absurd (hmissing j n hphase) hne

/-- While the sender has not published, its whole batch waits. So the number it publishes, the
size of its batch, is the number of those who have no outcome. -/
theorem Outcomes.all_wait (h : Outcomes joined phase done sends)
    {queue : ControlQueue} (hjoins : Joins joined phase queue)
    (hwire : Wire joined phase holder nextBatch sends) {x : Sent} (hx : x ∈ sends)
    {outcome : Result} (hfrom : phase x.sender = .publishing x.batch x.merged outcome)
    (hresult : x.result = .ofResult outcome) :
    outstanding joined phase x.batch = (members joined x.batch).length := by
  have hlive : x.result ≠ .panicked := by
    rw [hresult]
    cases outcome <;> exact nofun
  apply tally_eq_length
  intro r hr
  obtain ⟨hmem, hbatch⟩ := mem_members.mp hr
  cases hphase : phase r.id with
  | idle => exact absurd (List.mem_map_of_mem hmem) ((hjoins.idle r.id).mp hphase)
  | waiting n => rfl
  | holding n => rfl
  | unanswered n => rfl
  | sending n change merged => rfl
  | publishing n merged o => rfl
  | finished o =>
      obtain ⟨y, hy, hyb, hreceives⟩ := h.finished r hmem o hphase
      obtain rfl := hwire.send_unique hy hx (hyb.trans hbatch)
      cases hreceives with
      | own sender =>
          rw [← sender, hfrom] at hphase
          cases hphase
      | collected other _ published =>
          rw [hfrom] at published
          cases published
      | lost other result => exact absurd result hlive
  | panicked =>
      obtain ⟨y, hy, hsender, hpanicked⟩ := h.panicked r.id hphase
      obtain ⟨-, -, r', hr', hid, hyb⟩ := hwire.sent y hy
      obtain rfl := joined_unique hjoins.ids hr' hmem (hid.trans hsender)
      obtain rfl := hwire.send_unique hy hx (hyb.symm.trans hbatch)
      exact absurd hpanicked hlive

/-- The sender publishes and is answered; the others of its batch can collect. The entry counts
the others, and there is none where there are none. -/
theorem Outcomes.publish (h : Outcomes joined phase done sends)
    (hids : (joined.map Joined.id).Nodup) {r : Joined} (hr : r ∈ joined) {x : Sent}
    (hx : x ∈ sends) (hid : r.id = x.sender) (hbatch : r.batch = x.batch) {outcome : Result}
    (hfrom : phase x.sender = .publishing x.batch x.merged outcome)
    (hresult : x.result = .ofResult outcome)
    (honly : ∀ y ∈ sends, y.batch = x.batch → y = x)
    (hmissing : ∀ j n, phase j ≠ .unanswered n)
    (hcount : outstanding joined phase x.batch = x.merged) {queue : ControlQueue}
    (hdone : queue.done = done) :
    Outcomes joined (Function.update phase x.sender (.finished outcome))
      (queue.publish x.batch x.merged outcome).done sends := by
  have hunpublished : done x.batch = none := by
    cases hf : done x.batch with
    | none => rfl
    | some f =>
        obtain ⟨y, hy, hyb, o, hphase⟩ := h.tableOnly _ f hf
        obtain rfl := honly y hy hyb
        rw [hfrom] at hphase
        cases hphase
  have hother : ∀ n, n ≠ x.batch → (queue.publish x.batch x.merged outcome).done n = done n := by
    intro n hn
    rw [queue.publish_other x.merged outcome hn, hdone]
  have hself := queue.publish_self x.merged outcome
    ((congrFun hdone x.batch).trans hunpublished)
  have hsettled : outstanding joined (Function.update phase x.sender (.finished outcome)) x.batch =
      x.merged - 1 := by
    have hwaits : (phase r.id).waits = 1 := by
      rw [hid, hfrom]
      rfl
    have hone := outstanding_settle hids hr (p := .finished outcome) hwaits rfl
    rw [hid, hbatch, hcount] at hone
    omega
  have hkeep : ∀ j own, phase j = .finished own →
      Function.update phase x.sender (.finished outcome) j = .finished own := by
    intro j own hj
    by_cases hji : j = x.sender
    · subst hji
      rw [hfrom] at hj
      cases hj
    · rwa [Function.update_of_ne hji]
  refine ⟨?_, ?_, ?_, ?_, ?_, ?_, ?_⟩
  · intro y hy
    by_cases hys : y.sender = x.sender
    · left
      rw [hys, Function.update_self]
      rcases h.senders y hy with ⟨o, hres, hphase | hphase⟩ | ⟨-, hphase⟩
      · rw [hys, hfrom] at hphase
        obtain ⟨-, -, rfl⟩ := Phase.publishing.inj hphase
        exact ⟨outcome, hres, Or.inr rfl⟩
      · rw [hys, hfrom] at hphase
        cases hphase
      · rw [hys, hfrom] at hphase
        cases hphase
    · rw [Function.update_of_ne hys]
      exact h.senders y hy
  · intro j n merged o hj
    exact h.publishing j n merged o (phase_before (fun hq => by cases hq) hj).2
  · intro j hj
    exact h.panicked j (phase_before (fun hq => by cases hq) hj).2
  · intro member hmember o hj
    by_cases hji : member.id = x.sender
    · rw [hji, Function.update_self] at hj
      obtain rfl := Phase.finished.inj hj
      obtain rfl := joined_unique hids hmember hr (hji.trans hid.symm)
      exact ⟨x, hx, hbatch.symm, .own hji.symm hresult⟩
    · rw [Function.update_of_ne hji] at hj
      obtain ⟨y, hy, hyb, hreceives⟩ := h.finished member hmember o hj
      exact ⟨y, hy, hyb, hreceives.congr fun own hown => hkeep y.sender own hown⟩
  · intro y hy o hj
    by_cases hyb : y.batch = x.batch
    · obtain rfl := honly y hy hyb
      rw [Function.update_self] at hj
      obtain rfl := Phase.finished.inj hj
      rw [hself, hsettled]
    · have hys : y.sender ≠ x.sender := by
        intro hys
        rcases h.senders y hy with ⟨o', -, hphase | hphase⟩ | ⟨-, hphase⟩
        · rw [hys, hfrom] at hphase
          exact hyb (Phase.publishing.inj hphase).1.symm
        · rw [hys, hfrom] at hphase
          cases hphase
        · rw [hys, hfrom] at hphase
          cases hphase
      rw [Function.update_of_ne hys] at hj
      have hne : r.batch ≠ y.batch := fun heq => hyb (heq.symm.trans hbatch)
      rw [hother y.batch hyb, ← hid, outstanding_of_ne hids hr _ hne]
      exact h.table y hy o hj
  · intro n f hf
    by_cases hn : n = x.batch
    · exact ⟨x, hx, hn.symm, outcome, Function.update_self _ _ _⟩
    · rw [hother n hn] at hf
      obtain ⟨y, hy, hyb, o, hphase⟩ := h.tableOnly n f hf
      exact ⟨y, hy, hyb, o, hkeep y.sender o hphase⟩
  · intro j n hj
    exact absurd (phase_before (fun hq => by cases hq) hj).2 (hmissing j n)

/-! ### Every step -/

/-- A unit nobody has asked to change anything. -/
def Slot.new (device : Device) : Slot := { device := device }

theorem inv_new (device : Device) : Inv (Slot.new device) := by
  have hnone : ∀ {α : Type} {P : α → Prop}, ∀ a ∈ ([] : List α), P a :=
    fun a ha => absurd ha List.not_mem_nil
  constructor
  · refine ⟨List.nodup_nil, fun i => iff_of_true rfl List.not_mem_nil, ?_, hnone, rfl, rfl⟩
    intro i n h
    cases h
  · refine ⟨fun i => iff_of_false Bool.false_ne_true ?_, ?_, fun _ => rfl, hnone⟩
    · intro h
      cases h
    · intro i n change merged h
      cases h
  · refine ⟨hnone, ?_, ?_, hnone, hnone, ?_, ?_⟩
    · intro i n merged outcome h
      cases h
    · intro i h
      cases h
    · intro n f h
      cases h
    · intro i n h
      cases h

/-- The record of a request on its way. -/
theorem Inv.record {s : Slot} (h : Inv s) {i n : Nat} (hbatch : (s.phase i).batch? = some n) :
    ∃ r ∈ s.joined, r.id = i ∧ r.batch = n := h.joins.batch i n hbatch

/-- A collected outcome is the one the sender of the batch published. The entry counts those who
are still to collect, and goes with the last of them. -/
theorem Inv.collected {s : Slot} (h : Inv s) {r : Joined} (hr : r ∈ s.joined)
    (hfrom : s.phase r.id = .holding r.batch) {outcome : Result} {queue : ControlQueue}
    (hfound : s.queue.collect r.batch = some (outcome, queue)) :
    Outcomes s.joined (Function.update s.phase r.id (.finished outcome)) queue.done s.sends := by
  obtain ⟨f, hf, rfl, -, -, -, hother, hself⟩ := ControlQueue.collect_some hfound
  obtain ⟨x, hx, hbatch, own, hown⟩ := h.outcomes.tableOnly _ f hf
  have hentry := h.outcomes.table x hx own hown
  rw [hbatch, hf] at hentry
  have hfull : f = ⟨own, outstanding s.joined s.phase r.batch⟩ := by
    split at hentry
    next => cases hentry
    next => exact Option.some.inj hentry
  have hearly : (s.phase r.id).early = true := by
    rw [hfrom]
    rfl
  have hresult := h.outcomes.result_of_finished hx hown
  subst hfull
  refine h.outcomes.finish h.joins.ids hr hearly (by rw [hfrom]; rfl) ?_ hx hbatch ?_
    (.collected (h.outcomes.sender_ne hearly hx) hresult hown) hother ?_ ?_
  · intro j n hj
    refine h.wire.holds_unique ?_ ?_
    · rw [hj]
      rfl
    · rw [hfrom]
      rfl
  · exact fun y hy hyb => h.wire.send_unique hy hx (hyb.trans hbatch.symm)
  · intro own' hown'
    rw [hown] at hown'
    obtain rfl := Phase.finished.inj hown'
    exact hself
  · exact fun _ _ => ⟨own, hown⟩

/-- A batch that is gone without an outcome was taken by a sender that
panicked. -/
theorem Inv.lost {s : Slot} (h : Inv s) {r : Joined} (hr : r ∈ s.joined)
    (hfrom : s.phase r.id = .unanswered r.batch) (hmissing : s.queue.takeBatch r.batch = none) :
    Outcomes s.joined (Function.update s.phase r.id (.finished lostBeforeSent)) s.queue.done
      s.sends := by
  have hholds : (s.phase r.id).holds = true := by
    rw [hfrom]
    rfl
  have hearly : (s.phase r.id).early = true := by
    rw [hfrom]
    rfl
  have hwaits : (s.phase r.id).waits = 1 := by
    rw [hfrom]
    rfl
  have hnone := h.outcomes.missing r.id r.batch hfrom
  have hnot : ∀ n change merged, s.phase r.id ≠ .sending n change merged := by
    intro n change merged hsending
    rw [hfrom] at hsending
    cases hsending
  have hrange := h.wire.range_of_holds hholds hnot
  have hlt : r.batch < s.queue.nextBatch := by
    have hle := h.joins.opened r hr
    have hne := ControlQueue.takeBatch_none hmissing
    omega
  obtain ⟨x, hx, hbatch⟩ : ∃ x ∈ s.sends, x.batch = r.batch := by
    have hmem : r.batch ∈ s.sends.map Sent.batch := by
      rw [hrange]
      exact List.mem_range.mpr hlt
    exact List.mem_map.mp hmem
  have hpanicked : x.result = .panicked ∧ s.phase x.sender = .panicked := by
    rcases h.outcomes.senders x hx with ⟨o, -, hphase | hphase⟩ | hpanicked
    · have hsender : (s.phase x.sender).holds = true := by
        rw [hphase]
        rfl
      exact absurd (h.wire.holds_unique hsender hholds) (h.outcomes.sender_ne hearly hx)
    · -- It would have left an entry: this request has not collected it yet.
      have hentry := h.outcomes.table x hx o hphase
      rw [hbatch, hnone] at hentry
      split at hentry
      next hzero =>
        have hweight := tally_eq_zero.mp hzero r (mem_members.mpr ⟨hr, rfl⟩)
        rw [hwaits] at hweight
        cases hweight
      next => cases hentry
    · exact hpanicked
  refine h.outcomes.finish h.joins.ids hr hearly hwaits ?_ hx hbatch ?_
    (.lost (h.outcomes.sender_ne hearly hx) hpanicked.1) (fun _ _ => rfl) ?_ ?_
  · intro j n hj
    refine h.wire.holds_unique ?_ hholds
    rw [hj]
    rfl
  · exact fun y hy hyb => h.wire.send_unique hy hx (hyb.trans hbatch.symm)
  · intro own hown
    rw [hpanicked.2] at hown
    cases hown
  · intro f hf
    rw [hnone] at hf
    cases hf

/-- **Every step keeps the invariant.** One case for each action, and in each the three parts are
kept on their own: who joined which batch, what is on the wire, and what the outcomes are. -/
theorem inv_step (s : Slot) (a : Action) (s' : Slot) (h : Inv s) (hstep : Step s a s') :
    Inv s' := by
  cases hstep with
  | @join i change idle =>
      have hnew := (h.joins.idle i).mp idle
      have hfree : (s.phase i).holds = false := by
        rw [idle]
        rfl
      refine ⟨h.joins.join change idle, ?_, ?_⟩
      · exact h.wire.join (r := ⟨i, s.queue.nextBatch, change⟩) rfl hfree
      · refine h.outcomes.join (r := ⟨i, s.queue.nextBatch, change⟩) idle hnew ?_
        intro x hx
        exact Ne.symm (Nat.ne_of_lt (h.wire.batches.2 x hx))
  | @acquire i batch waiting free =>
      have halone := h.wire.alone
      rw [free] at halone
      refine ⟨?_, ?_, ?_⟩
      · exact h.joins.move (by rw [waiting]; exact nofun) nofun
          (by rw [waiting]; exact fun _ h => h) rfl rfl rfl
      · exact h.wire.move (alone_acquire halone rfl)
          (fun _ _ _ hp => by rw [waiting] at hp; cases hp) (fun _ _ _ hp => by cases hp)
      · exact h.outcomes.move (by rw [waiting]; rfl) rfl (by rw [waiting]; rfl)
          (fun _ hp => by cases hp)
  | @collected i batch outcome queue holding found =>
      have hholds : (s.phase i).holds = true := by
        rw [holding]
        rfl
      obtain ⟨f, -, -, hopen, hpending, hcount, -⟩ := ControlQueue.collect_some found
      obtain ⟨r, hr, rfl, rfl⟩ : ∃ r ∈ s.joined, r.id = i ∧ r.batch = batch :=
        h.record (by rw [holding]; rfl)
      refine ⟨?_, ?_, h.collected hr holding found⟩
      · exact h.joins.move (by rw [holding]; exact nofun) nofun nofun hopen hpending hcount
      · have hmoved := h.wire.move (alone_release h.wire.alone hholds rfl)
          (fun _ _ _ hp => by rw [holding] at hp; cases hp)
          (fun _ _ _ hp => by cases (hp : Phase.finished outcome = _))
        rw [← hopen] at hmoved
        exact hmoved
  | @uncollected i batch holding missing =>
      have hholds : (s.phase i).holds = true := by
        rw [holding]
        rfl
      have hnone := ControlQueue.collect_none missing
      refine ⟨?_, ?_, ?_⟩
      · exact h.joins.move (by rw [holding]; exact nofun) nofun
          (by rw [holding]; exact fun _ h => h) rfl rfl rfl
      · exact h.wire.move (alone_keep h.wire.alone hholds rfl)
          (fun _ _ _ hp => by rw [holding] at hp; cases hp) (fun _ _ _ hp => by cases hp)
      · refine h.outcomes.move (by rw [holding]; rfl) rfl (by rw [holding]; rfl) ?_
        intro n hp
        obtain rfl := Phase.unanswered.inj hp
        exact hnone
  | @taken i batch merged change queue unanswered found =>
      obtain ⟨rfl, rfl, rfl, hopen, hpending, hcount, hdone⟩ := ControlQueue.takeBatch_some found
      refine ⟨?_, ?_, ?_⟩
      · exact h.joins.take (by rw [unanswered]; rfl) hopen hpending hcount
      · have htaken := h.wire.take unanswered
        rw [← h.joins.pending, ← h.joins.pendingCount, ← hopen] at htaken
        exact htaken
      · have hmoved := h.outcomes.move (i := i)
          (p := .sending s.queue.nextBatch s.queue.pending s.queue.pendingCount)
          (by rw [unanswered]; rfl) rfl (by rw [unanswered]; rfl) (fun _ hp => by cases hp)
        rw [← hdone] at hmoved
        exact hmoved
  | @lost i batch unanswered missing =>
      have hholds : (s.phase i).holds = true := by
        rw [unanswered]
        rfl
      obtain ⟨r, hr, rfl, rfl⟩ : ∃ r ∈ s.joined, r.id = i ∧ r.batch = batch :=
        h.record (by rw [unanswered]; rfl)
      refine ⟨?_, ?_, h.lost hr unanswered missing⟩
      · exact h.joins.move (by rw [unanswered]; exact nofun) nofun nofun rfl rfl rfl
      · exact h.wire.move (alone_release h.wire.alone hholds rfl)
          (fun _ _ _ hp => by rw [unanswered] at hp; cases hp) (fun _ _ _ hp => by cases hp)
  | @sent i batch merged change result device line now sending answered =>
      have hholds : (s.phase i).holds = true := by
        rw [sending]
        rfl
      have hmember := h.record (i := i) (n := batch) (by rw [sending]; rfl)
      have hresult : Sent.result ⟨batch, i, change, merged, { s.device with line := line }, now⟩ =
          .ofResult result := congrArg Prod.fst answered
      refine ⟨?_, ?_, h.outcomes.send sending hresult⟩
      · exact h.joins.move (by rw [sending]; exact nofun) nofun
          (by rw [sending]; exact fun _ h => h) rfl rfl rfl
      · exact h.wire.send sending (alone_keep h.wire.alone hholds rfl)
          (fun _ _ _ hp => by cases hp) hmember _ now
  | @panicked i batch merged change device line now sending panics =>
      have hholds : (s.phase i).holds = true := by
        rw [sending]
        rfl
      have hmember := h.record (i := i) (n := batch) (by rw [sending]; rfl)
      have hresult : Sent.result ⟨batch, i, change, merged, { s.device with line := line }, now⟩ =
          .panicked := congrArg Prod.fst panics
      refine ⟨?_, ?_, ?_⟩
      · exact h.joins.move (by rw [sending]; exact nofun) nofun nofun rfl rfl rfl
      · exact h.wire.send sending (alone_release h.wire.alone hholds rfl)
          (fun _ _ _ hp => by cases hp) hmember _ now
      · obtain ⟨r, hr, hid, hbatch⟩ := hmember
        apply h.outcomes.panic h.joins.ids hr hid hbatch sending hresult
        intro y hy
        obtain ⟨-, -, -, hrange⟩ := h.wire.sending i batch change merged sending
        have hmem : y.batch ∈ List.range batch := by
          rw [← hrange]
          exact List.mem_map_of_mem hy
        exact Ne.symm (Nat.ne_of_lt (List.mem_range.mp hmem))
  | @publish i batch merged outcome publishing =>
      have hholds : (s.phase i).holds = true := by
        rw [publishing]
        rfl
      obtain ⟨hopen, hpending, hcount⟩ := s.queue.publish_open batch merged outcome
      obtain ⟨r, hr, hid, hbatch⟩ := h.record (i := i) (n := batch) (by rw [publishing]; rfl)
      obtain ⟨x, hx, rfl, rfl, rfl, hresult⟩ :=
        h.outcomes.publishing i batch merged outcome publishing
      refine ⟨?_, ?_, ?_⟩
      · exact h.joins.move (by rw [publishing]; exact nofun) nofun nofun hopen hpending hcount
      · have hmoved := h.wire.move (alone_release h.wire.alone hholds rfl)
          (fun _ _ _ hp => by rw [publishing] at hp; cases hp)
          (fun _ _ _ hp => by cases (hp : Phase.finished outcome = _))
        rw [← hopen] at hmoved
        exact hmoved
      · obtain ⟨-, hmerged, -⟩ := h.wire.sent x hx
        have hwait := h.outcomes.all_wait h.joins h.wire hx publishing hresult
        refine h.outcomes.publish h.joins.ids hr hx hid hbatch publishing hresult
          (fun y hy hyb => h.wire.send_unique hy hx hyb) ?_ (hwait.trans hmerged.symm) rfl
        intro j n hj
        have hother : (s.phase j).holds = true := by
          rw [hj]
          rfl
        obtain rfl := h.wire.holds_unique hother hholds
        rw [publishing] at hj
        cases hj
  | other device poisoned free => exact ⟨h.joins, h.wire, h.outcomes⟩

end BreezeDevice
