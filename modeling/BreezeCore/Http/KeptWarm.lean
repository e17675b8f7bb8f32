import BreezeCore.Http.WarmReads

/-!
# Connections that outlive the idle timer

A unit that is read when it has been quiet for twenty seconds, by a thread that looks every
five, has not been quiet for thirty when it is next read: if the thread gets through the units
in time, and whoever has the unit when it comes by keeps it warm himself (`kept_warm`).

The proof goes by the instant until which the thread will have come by once more
(`Thread.deadline`), which no step puts off but one that looks at the unit.
-/

namespace BreezeHttp.Warm

open BreezeDevice Runs

/-- Where the thread has been since then: asleep, or on its pass. -/
def Thread.Since : Thread → Nat → Prop
  | .ended, _ => False
  | .asleep since, t => t = since
  | .walking began _, t | .reading began _ _, t => t = began

/-- The thread is on time: it wakes no later than `late` after it should, and a pass takes no
longer than `walk`. -/
def Thread.Prompt (late walk : Nat) : Thread → Nat → Prop
  | .ended, _ => True
  | .asleep since, now => now ≤ since + TICK + late
  | .walking began _, now | .reading began _ _, now => now ≤ began + walk

/-- When a thread on time will have come by the unit once more. -/
def Thread.deadline (late walk id : Nat) : Thread → Nat
  | .ended => 0
  | .asleep since => since + TICK + late + walk
  | .walking began rest | .reading began _ rest =>
      if id ∈ rest then began + walk else began + walk + TICK + late + walk

/-- Who is where. -/
structure Placed (s : Server) : Prop where
  thread : ∀ t, s.thread.Since t → t ≤ s.clock
  taken : ∀ address request since,
    (s.slots address).holder = some (.request request since) → since ≤ s.clock
  reading : ∀ address asked, (s.slots address).holder = some (.keepWarm asked) →
    ∃ began rest, s.thread = .reading began address rest
  listed : ∀ id address, s.units id = some address → address < s.fresh

theorem Placed.later {s : Server} {now : Nat} (h : Placed s) (hle : s.clock ≤ now) :
    Placed { s with clock := now } :=
  ⟨fun t ht => (h.thread t ht).trans hle,
    fun address request since hholder => (h.taken address request since hholder).trans hle,
    h.reading, h.listed⟩

/-- A step at one address: who has that unit, and where the thread is now. Every other unit is
with whom it was, and its requests began no later than the clock. -/
theorem placed_set {s : Server} (hs : Placed s) (address : Nat) (slot : Slot) {thread : Thread}
    (hthread : ∀ t, thread.Since t → t ≤ s.clock)
    (htaken : ∀ request since, slot.holder = some (.request request since) → since ≤ s.clock)
    (hreading : ∀ asked, slot.holder = some (.keepWarm asked) →
      ∃ began rest, thread = .reading began address rest)
    (hothers : ∀ other asked, other ≠ address →
      (∃ began rest, s.thread = .reading began other rest) →
        (s.slots other).holder = some (.keepWarm asked) →
          ∃ began rest, thread = .reading began other rest) :
    Placed { s.set address slot with thread := thread } := by
  refine ⟨hthread, fun other request since hholder => ?_, fun other asked hholder => ?_, hs.listed⟩
  · change (Function.update s.slots address slot other).holder = _ at hholder
    by_cases hother : other = address
    · subst hother
      rw [Function.update_self] at hholder
      exact htaken request since hholder
    · rw [Function.update_of_ne hother] at hholder
      exact hs.taken other request since hholder
  · change (Function.update s.slots address slot other).holder = _ at hholder
    by_cases hother : other = address
    · subst hother
      rw [Function.update_self] at hholder
      exact hreading asked hholder
    · rw [Function.update_of_ne hother] at hholder
      exact hothers other asked hother (hs.reading other asked hholder) hholder

/-- A thread that reads nothing, where it was not reading either. -/
theorem placed_thread {s : Server} (hs : Placed s) {thread : Thread}
    (hread : ∀ began address rest, s.thread ≠ .reading began address rest)
    (hthread : ∀ t, thread.Since t → t ≤ s.clock) : Placed { s with thread := thread } := by
  refine ⟨hthread, hs.taken, fun address asked hholder => ?_, hs.listed⟩
  obtain ⟨began, rest, h⟩ := hs.reading address asked hholder
  exact absurd h (hread began address rest)

theorem placed_move {s s' : Server} (h : Move s s') (hs : Placed s) : Placed s' := by
  cases h with
  | use => exact ⟨hs.thread, hs.taken, hs.reading, hs.listed⟩
  | take address request hfree hold =>
      refine placed_set hs _ _ hs.thread ?_ ?_ fun _ _ _ hread _ => hread
      · rintro _ _ ⟨⟩
        exact le_rfl
      · rintro _ ⟨⟩
  | give address since request answers lags slot hholder hduring hback =>
      have hfree := (returned_cases hback).2.1
      refine placed_set hs _ _ hs.thread ?_ ?_ fun _ _ _ hread _ => hread
      · rw [hfree]
        rintro _ _ ⟨⟩
      · rw [hfree]
        rintro _ ⟨⟩
  | wake since hthread hactive =>
      refine placed_thread hs (fun began address rest => ?_) fun t ht => le_of_eq ht
      rw [hthread]
      rintro ⟨⟩
  | doze since hthread hactive =>
      refine placed_thread hs (fun began address rest => ?_) fun t ht => le_of_eq ht
      rw [hthread]
      rintro ⟨⟩
  | through began hthread =>
      refine placed_thread hs (fun began address rest => ?_) fun t ht => le_of_eq ht
      rw [hthread]
      rintro ⟨⟩
  | gone began id rest hthread hunit =>
      refine placed_thread hs (fun began address rest => ?_) fun t ht => hs.thread t ?_
      · rw [hthread]
        rintro ⟨⟩
      · rw [hthread]
        exact ht
  | pass began id address rest hthread hunit hskip =>
      have hread : ∀ began' other rest', s.thread ≠ .reading began' other rest' := by
        rw [hthread]
        rintro _ _ _ ⟨⟩
      refine placed_set hs _ _ (fun t ht => hs.thread t ?_) (hs.taken address)
        (fun asked hholder => ?_) fun other asked _ ⟨_, _, h⟩ _ => absurd h (hread _ _ _)
      · rw [hthread]
        exact ht
      · obtain ⟨_, _, h⟩ := hs.reading address asked hholder
        exact absurd h (hread _ _ _)
  | ask began id address rest hthread hunit hfree hsound hneeds =>
      have hread : ∀ began' other rest', s.thread ≠ .reading began' other rest' := by
        rw [hthread]
        rintro _ _ _ ⟨⟩
      refine placed_set hs _ _ (fun t ht => hs.thread t ?_) ?_ (fun _ _ => ⟨began, rest, rfl⟩)
        fun other asked _ ⟨_, _, h⟩ _ => absurd h (hread _ _ _)
      · rw [hthread]
        exact ht
      · rintro _ _ ⟨⟩
  | warm began address asked rest credentials answers lags slot thread hthread hholder hduring
      hback hnext =>
      have hfree := (returned_cases hback).2.1
      refine placed_set hs _ _ (fun t ht => ?_) ?_ ?_ fun other _ hother ⟨_, _, h⟩ _ => ?_
      · rcases hnext with rfl | rfl
        · refine hs.thread t ?_
          rw [hthread]
          exact ht
        · exact ht.elim
      · rw [hfree]
        rintro _ _ ⟨⟩
      · rw [hfree]
        rintro _ ⟨⟩
      · rw [hthread] at h
        cases h
        exact absurd rfl hother
  | upsert id credentials =>
      have hset := placed_set hs s.fresh { credentials := credentials } hs.thread
        (by rintro _ _ ⟨⟩) (by rintro _ ⟨⟩) fun _ _ _ hread _ => hread
      refine ⟨hset.thread, hset.taken, hset.reading, fun id' address hunit => ?_⟩
      change Function.update s.units id (some s.fresh) id' = some address at hunit
      change address < s.fresh + 1
      by_cases hid : id' = id
      · subst hid
        rw [Function.update_self] at hunit
        exact Option.some.inj hunit ▸ Nat.lt_succ_self _
      · rw [Function.update_of_ne hid] at hunit
        exact Nat.lt_succ_of_lt (hs.listed id' address hunit)
  | remove id =>
      refine ⟨hs.thread, hs.taken, hs.reading, fun id' address hunit => ?_⟩
      change Function.update s.units id none id' = some address at hunit
      by_cases hid : id' = id
      · subst hid
        rw [Function.update_self] at hunit
        cases hunit
      · rw [Function.update_of_ne hid] at hunit
        exact hs.listed id' address hunit

/-! ## The unit that is kept warm -/

/-- A unit that can be asked, and answers. -/
structure Slot.Fit (slot : Slot) : Prop where
  credentials : slot.credentials = true
  sound : slot.poisoned = false
  answering : slot.device.lastFailure = none

/-- The unit with an id is at this address and answers, and the thread is there while the
server counts as used. -/
structure Kept (id address : Nat) (s : Server) : Prop where
  listed : id ∈ s.order
  unit : s.units id = some address
  fit : (s.slots address).Fit
  active : s.active = true
  awake : s.thread ≠ .ended

/-- A step on time that keeps the unit answering; and a request that had the unit when the
thread came by has heard from it by the time it lets it go. -/
structure Careful (late walk id address : Nat) (s : Server) (a : Nat × Act) (s' : Server) :
    Prop where
  step : s.step a = some s'
  prompt : s.thread.Prompt late walk s'.clock
  kept : Kept id address s'
  used : ∀ request since look, (s.slots address).holder = some (.request request since) →
    (s'.slots address).holder = none → (s.slots address).lastLook = some look → since ≤ look →
      ∃ t, (s'.slots address).device.lastExchangeAt = some t ∧ look < t + WARM_AFTER

/-- When the thread came by, the unit had been heard of, or was being asked. -/
def Slot.Recent (slot : Slot) (look : Nat) : Prop :=
  match slot.holder with
  | none => ∃ t, slot.device.lastExchangeAt = some t ∧ look < t + WARM_AFTER
  | some (.request _ since) => look < since →
      ∃ t, slot.device.lastExchangeAt = some t ∧ look < t + WARM_AFTER
  | some (.keepWarm asked) => look ≤ asked

variable {late walk id address look now : Nat} {s s' : Server} {slot slot' : Slot}

/-- The thread had no reason to read: somebody has the unit, or it was heard of. The thread is not
in the middle of a reading of its own, so that whoever has the unit is a request. -/
theorem recent_passed (hs : Placed s)
    (hthread : ∀ began other rest, s.thread ≠ .reading began other rest)
    (hfit : (s.slots address).Fit)
    (hskip : (s.slots address).holder.isSome = true ∨ (s.slots address).poisoned = true ∨
      (s.slots address).device.needsWarming (s.slots address).credentials WARM_AFTER s.clock =
        false) :
    { s.slots address with lastLook := some s.clock }.Recent s.clock := by
  obtain ⟨hcredentials, hsound, hanswering⟩ := hfit
  unfold Slot.Recent
  dsimp only
  split
  next hfree =>
    rw [hfree, hsound, hcredentials] at hskip
    have hneeds : (s.slots address).device.needsWarming true WARM_AFTER s.clock = false := by
      rcases hskip with h | h | h
      · cases h
      · cases h
      · exact h
    unfold Device.needsWarming at hneeds
    rw [hanswering] at hneeds
    cases hexchange : (s.slots address).device.lastExchangeAt with
    | none =>
        rw [hexchange] at hneeds
        cases hneeds
    | some t =>
        rw [hexchange] at hneeds
        refine ⟨t, rfl, ?_⟩
        have hshort : ¬ WARM_AFTER ≤ s.clock - t := by simpa using hneeds
        omega
  next request since hholder =>
    intro hlt
    have hsince := hs.taken address request since hholder
    omega
  next asked hholder =>
    obtain ⟨began, rest, h⟩ := hs.reading address asked hholder
    exact absurd h (hthread began address rest)

/-- Calls that come back leave it so. -/
theorem recent_given {since : Nat} {request : BreezeDevice.Request} {publish : Bool}
    {answers : List Attempt} {lags : List Nat}
    (hholder : slot.holder = some (.request request since)) (h : slot.Recent look)
    (hback : slot.returned publish (serve since (slot.facing answers lags) request) = some slot')
    (hduring : during since now answers) (hfit : slot'.Fit)
    (hused : since ≤ look → ∃ t, slot'.device.lastExchangeAt = some t ∧ look < t + WARM_AFTER) :
    slot'.Recent look := by
  unfold Slot.Recent at h ⊢
  rw [hholder] at h
  rw [(returned_cases hback).2.1]
  rcases Nat.lt_or_ge look since with hlt | hge
  · cases returned_word hback hduring with
    | nothing hexchange _ =>
        rw [hexchange]
        exact h hlt
    | answered t hlo _ hexchange _ => exact ⟨t, hexchange, by omega⟩
    | failed t e _ _ _ hfailure => cases hfailure.symm.trans hfit.answering
  · exact hused hge

theorem recent_warmed {asked : Nat} {credentials : Bool} {answers : List Attempt}
    {lags : List Nat} (hholder : slot.holder = some (.keepWarm asked)) (h : slot.Recent look)
    (hback : slot.returned true (serve asked (slot.facing answers lags)
      (.keepWarm WARM_AFTER credentials)) = some slot')
    (hduring : during asked now answers) (hfit : slot'.Fit) : slot'.Recent look := by
  unfold Slot.Recent at h ⊢
  rw [hholder] at h
  rw [(returned_cases hback).2.1]
  rcases returned_heardSince hback hduring with
    hpoisoned | ⟨t, hexchange, hle⟩ | ⟨t, e, hfailure, -⟩
  · cases hpoisoned.symm.trans hfit.sound
  · refine ⟨t, hexchange, ?_⟩
    have hlook : look ≤ asked := h
    unfold WARM_AFTER
    omega
  · cases hfailure.symm.trans hfit.answering

/-! ## The deadline -/

/-- Wherever the thread is, it will have come by in time. -/
theorem deadline_le (hs : Placed s) :
    s.thread.deadline late walk id ≤ s.clock + (TICK + late + 2 * walk) := by
  have hsince := hs.thread
  unfold Thread.deadline
  split
  next => exact Nat.zero_le _
  next since hthread =>
    have hle := hsince since (by rw [hthread]; rfl)
    omega
  next began rest hthread =>
    have hle := hsince began (by rw [hthread]; rfl)
    split <;> omega
  next began slot rest hthread =>
    have hle := hsince began (by rw [hthread]; rfl)
    split <;> omega

/-- A thread on time has not missed its deadline. -/
theorem Thread.Prompt.le_deadline {thread : Thread} (h : thread.Prompt late walk now)
    (hawake : thread ≠ .ended) : now ≤ thread.deadline late walk id := by
  unfold Thread.deadline
  cases thread with
  | ended => exact absurd rfl hawake
  | asleep since =>
      change now ≤ since + TICK + late at h
      dsimp only
      omega
  | walking began rest =>
      change now ≤ began + walk at h
      dsimp only
      split <;> omega
  | reading began slot rest =>
      change now ≤ began + walk at h
      dsimp only
      split <;> omega

/-- Passing another unit by does not move it. -/
theorem deadline_next {began other : Nat} {rest : List Nat} (hother : id ≠ other) :
    (Thread.walking began (other :: rest)).deadline late walk id =
      (Thread.walking began rest).deadline late walk id := by
  unfold Thread.deadline
  dsimp only
  simp only [List.mem_cons, hother, false_or]

/-- **No step puts the deadline off** but one by which the thread comes by the unit. Waking,
walking and ending each leave the thread as much time as it had at most. -/
theorem deadline_move (h : Move s s') (hs : Placed s)
    (hprompt : s.thread.Prompt late walk s.clock) (hlisted : id ∈ s.order)
    (hunit : s.units id = some address) (hfit : (s.slots address).Fit)
    (hs' : Kept id address s') :
    s'.thread.deadline late walk id ≤ s.thread.deadline late walk id ∨
      ((s'.slots address).lastLook = some s.clock ∧ (s'.slots address).Recent s.clock) := by
  cases h with
  | use => exact .inl le_rfl
  | take => exact .inl le_rfl
  | give => exact .inl le_rfl
  | wake since hthread hactive =>
      left
      rw [hthread] at hprompt ⊢
      change s.clock ≤ since + TICK + late at hprompt
      unfold Thread.deadline
      dsimp only
      rw [if_pos hlisted]
      omega
  | doze since hthread hactive =>
      have hstill : s.active = true := hs'.active
      cases hactive.symm.trans hstill
  | through began hthread =>
      left
      rw [hthread] at hprompt ⊢
      change s.clock ≤ began + walk at hprompt
      unfold Thread.deadline
      dsimp only
      rw [if_neg List.not_mem_nil]
      omega
  | gone began other rest hthread hgone =>
      left
      have hother : id ≠ other := by
        rintro rfl
        cases hunit.symm.trans hgone
      rw [hthread, deadline_next hother]
  | pass began other address' rest hthread hother hskip =>
      by_cases haddress : address' = address
      · subst haddress
        right
        change (Function.update s.slots address' _ address').lastLook = _ ∧
          (Function.update s.slots address' _ address').Recent _
        rw [Function.update_self]
        refine ⟨rfl, recent_passed hs (fun began' other' rest' hread => ?_) hfit hskip⟩
        cases hthread.symm.trans hread
      · left
        have hne : id ≠ other := by
          rintro rfl
          exact haddress (Option.some.inj (hother.symm.trans hunit))
        rw [hthread, deadline_next hne]
  | ask began other address' rest hthread hother hfree hsound hneeds =>
      by_cases haddress : address' = address
      · subst haddress
        right
        change (Function.update s.slots address' _ address').lastLook = _ ∧
          (Function.update s.slots address' _ address').Recent _
        rw [Function.update_self]
        exact ⟨rfl, le_refl s.clock⟩
      · left
        have hne : id ≠ other := by
          rintro rfl
          exact haddress (Option.some.inj (hother.symm.trans hunit))
        rw [hthread, deadline_next hne]
        exact le_rfl
  | warm began address' asked rest credentials answers lags slot thread hthread hholder hduring
      hback hnext =>
      left
      rcases hnext with rfl | rfl
      · rw [hthread]
        exact le_rfl
      · exact absurd rfl hs'.awake
  | upsert => exact .inl le_rfl
  | remove => exact .inl le_rfl

/-! ## Over a run -/

/-- The thread will have come by again in time, counted from the start or from when it last
came by; and then the unit had been heard of. -/
def OnTime (late walk id address start : Nat) (s : Server) : Prop :=
  (s.clock ≤ start + (TICK + late + 2 * walk) ∧
      s.thread.deadline late walk id ≤ start + (TICK + late + 2 * walk)) ∨
    ∃ look, (s.slots address).lastLook = some look ∧ (s.slots address).Recent look ∧
      s.clock ≤ look + (TICK + late + 2 * walk) ∧
      s.thread.deadline late walk id ≤ look + (TICK + late + 2 * walk)

/-- What was heard of when the thread came by still was, after a step that is no look. A request
that ends leaves the unit heard of since the look, and nothing else changes when it was heard
last. -/
theorem recent_step {a : Nat × Act} (hstep : Careful late walk id address s a s')
    (hmove : SlotMove { s with clock := a.1 } address (s.slots address) (s'.slots address))
    (hold : address < s.fresh)
    (hlook : (s.slots address).lastLook = some look) (hrecent : (s.slots address).Recent look)
    (hplaced : Placed { s with clock := a.1 }) (hfit : (s.slots address).Fit) :
    ((s'.slots address).lastLook = some look ∧ (s'.slots address).Recent look) ∨
      ((s'.slots address).lastLook = some a.1 ∧ (s'.slots address).Recent a.1) := by
  have hused := hstep.used
  have hfit' := hstep.kept.fit
  generalize s'.slots address = slot' at hmove hused hfit'
  cases hmove with
  | same => exact .inl ⟨hlook, hrecent⟩
  | created credentials hfresh => exact absurd hfresh hold.ne
  | taken request hfree =>
      left
      refine ⟨hlook, fun _ => ?_⟩
      unfold Slot.Recent at hrecent
      rw [hfree] at hrecent
      obtain ⟨t, hexchange, hlt⟩ := hrecent
      refine ⟨t, ?_, hlt⟩
      rw [← hexchange]
      dsimp only
      unfold Slot.lockDevice
      split <;> rfl
  | given since request answers lags _ hholder hduring hback =>
      left
      obtain ⟨-, hfree, -, hlast, -⟩ := returned_cases hback
      exact ⟨hlast.trans hlook, recent_given hholder hrecent hback hduring hfit'
        (hused request since look hholder hfree hlook)⟩
  | passed began other rest hthread hskip =>
      right
      refine ⟨rfl, recent_passed (s := { s with clock := a.1 }) hplaced ?_ hfit hskip⟩
      intro began' other' rest' hread
      cases hthread.symm.trans hread
  | asked began other rest hthread hfree hsound hneeds => exact .inr ⟨rfl, le_refl a.1⟩
  | warmed asked credentials answers lags _ hholder hduring hback =>
      left
      obtain ⟨-, -, -, hlast, -⟩ := returned_cases hback
      exact ⟨hlast.trans hlook, recent_warmed hholder hrecent hback hduring hfit'⟩

/-- **One step** keeps the thread on time. A look sets both clocks afresh; any other step leaves
the deadline where it was, and the last look as recent as it was. -/
theorem onTime_step {a : Nat × Act} {start : Nat} (h : Careful late walk id address s a s')
    (hs : Placed s) (hkept : Kept id address s) (hon : OnTime late walk id address start s) :
    OnTime late walk id address start s' := by
  obtain ⟨hclock, hmove⟩ := step_move h.step
  have hplaced := hs.later hclock
  have hnow : s'.clock = a.1 := hmove.frame.1
  have hprompt : s.thread.Prompt late walk a.1 := hnow ▸ h.prompt
  have hdue : a.1 ≤ s.thread.deadline late walk id := hprompt.le_deadline hkept.awake
  have hnext : s'.thread.deadline late walk id ≤ a.1 + (TICK + late + 2 * walk) :=
    hnow ▸ deadline_le (placed_move hmove hplaced)
  have hlooked : (s'.slots address).lastLook = some a.1 → (s'.slots address).Recent a.1 →
      OnTime late walk id address start s' := by
    intro hlook hrecent
    exact .inr ⟨a.1, hlook, hrecent, by omega, hnext⟩
  have hdeadline := deadline_move (s := { s with clock := a.1 }) hmove hplaced hprompt hkept.listed
    hkept.unit hkept.fit h.kept
  rcases hdeadline with hkeeps | ⟨hlook, hrecent⟩
  · rcases hon with ⟨-, hbefore⟩ | ⟨look, hlook, hrecent, -, hbefore⟩
    · exact .inl ⟨hnow ▸ hdue.trans hbefore, hkeeps.trans hbefore⟩
    · have hold : address < s.fresh := hs.listed id address hkept.unit
      rcases recent_step h (hmove.slot address) hold hlook hrecent hplaced hkept.fit with
        ⟨hlook', hrecent'⟩ | ⟨hlook', hrecent'⟩
      · exact .inr ⟨look, hlook', hrecent', hnow ▸ hdue.trans hbefore, hkeeps.trans hbefore⟩
      · exact hlooked hlook' hrecent'
  · exact hlooked hlook hrecent

theorem placed_run {setting : KeepWarm} {configs : List (Nat × Bool)} {acts : List (Nat × Act)}
    (h : Run Steps (Server.start setting configs) acts s) : Placed s := by
  have hkeep : ∀ s a s', Placed s → Steps s a s' → Placed s' := by
    intro s a s' hs hstep
    obtain ⟨hclock, hmove⟩ := step_move hstep
    exact placed_move hmove (hs.later hclock)
  apply Run.preserves hkeep h
  obtain ⟨-, hclock, -, hthread, hslots, hunits⟩ := started_start setting configs
  refine ⟨fun t ht => ?_, fun address request since hholder => ?_,
    fun address asked hholder => ?_, hunits⟩
  · rw [hthread] at ht
    split at ht
    next => exact ht.elim
    next => exact ht.trans_le (Nat.zero_le _)
  · obtain ⟨credentials, hslot⟩ := hslots address
    rw [hslot] at hholder
    cases hholder
  · obtain ⟨credentials, hslot⟩ := hslots address
    rw [hslot] at hholder
    cases hholder

/-- **Kept warm.**  From any state the server can be in: while the unit answers, the server
counts as used and the thread is on time, whenever nobody has the unit it was heard of less
than thirty seconds ago, but for the ten seconds it takes the thread to come by. -/
theorem kept_warm {setting : KeepWarm} {configs : List (Nat × Bool)}
    {acts acts' : List (Nat × Act)} {s s' : Server} {late walk id address : Nat}
    (hfast : late + 2 * walk ≤ TICK) (h : Run Steps (Server.start setting configs) acts s)
    (hkept : Kept id address s) (h' : Run (Careful late walk id address) s acts' s')
    (hfree : (s'.slots address).holder = none) :
    s'.clock ≤ s.clock + 2 * TICK ∨ ∃ t, (s'.slots address).device.lastExchangeAt = some t ∧
      s'.clock < t + IDLE_TIMEOUT := by
  have hplaced := placed_run h
  have hkeep : ∀ now a next,
      Placed now ∧ Kept id address now ∧ OnTime late walk id address s.clock now →
      Careful late walk id address now a next →
      Placed next ∧ Kept id address next ∧ OnTime late walk id address s.clock next := by
    rintro now a next ⟨hs, hkept, hon⟩ hstep
    obtain ⟨hclock, hmove⟩ := step_move hstep.step
    exact ⟨placed_move hmove (hs.later hclock), hstep.kept, onTime_step hstep hs hkept hon⟩
  have hstart : OnTime late walk id address s.clock s :=
    .inl ⟨Nat.le_add_right _ _, deadline_le hplaced⟩
  obtain ⟨-, -, hon⟩ := Run.preserves hkeep h' ⟨hplaced, hkept, hstart⟩
  unfold TICK at hfast
  rcases hon with ⟨hclock, -⟩ | ⟨look, -, hrecent, hclock, -⟩
  · left
    unfold TICK at hclock ⊢
    omega
  · right
    unfold Slot.Recent at hrecent
    rw [hfree] at hrecent
    obtain ⟨t, hexchange, hlt⟩ := hrecent
    refine ⟨t, hexchange, ?_⟩
    unfold TICK at hclock
    unfold WARM_AFTER at hlt
    unfold IDLE_TIMEOUT
    omega

instance (late walk now : Nat) : ∀ thread : Thread, Decidable (thread.Prompt late walk now)
  | .ended => .isTrue trivial
  | .asleep since => inferInstanceAs (Decidable (now ≤ since + TICK + late))
  | .walking began _ | .reading began _ _ => inferInstanceAs (Decidable (now ≤ began + walk))

/-- No request has the unit. -/
def unattended : Option Holder → Bool
  | some (.request _ _) => false
  | _ => true

def Thread.runs : Thread → Bool
  | .ended => false
  | _ => true

/-- A step that is careful, where the thread alone asks the unit. -/
def Server.careful (late walk id address : Nat) (s : Server) (a : Nat × Act) : Option Server :=
  (s.step a).bind fun s' =>
    if s.thread.Prompt late walk s'.clock ∧ unattended (s.slots address).holder = true ∧
        s'.thread.runs = true ∧ id ∈ s'.order ∧ s'.units id = some address ∧ s'.active = true ∧
        (s'.slots address).credentials = true ∧ (s'.slots address).poisoned = false ∧
        (s'.slots address).device.lastFailure.isNone = true then some s'
    else none

theorem careful_step {a : Nat × Act} (h : s.careful late walk id address a = some s') :
    Careful late walk id address s a s' := by
  obtain ⟨next, hstep, h⟩ := Option.bind_eq_some_iff.mp h
  simp only [Option.ite_none_right_eq_some, Option.some.injEq] at h
  obtain ⟨⟨hprompt, halone, hawake, hlisted, hunit, hactive, hcredentials, hsound, hanswering⟩,
    rfl⟩ := h
  have hfit : (next.slots address).Fit :=
    ⟨hcredentials, hsound, Option.isNone_iff_eq_none.mp hanswering⟩
  refine ⟨hstep, hprompt, ⟨hlisted, hunit, hfit, hactive, ?_⟩, ?_⟩
  · intro hended
    rw [hended] at hawake
    cases hawake
  · intro request since look hholder
    rw [hholder] at halone
    cases halone

/-- Nobody asks anything for half a minute, and the unit stays warm. -/
def quietEvening : List (Nat × Act) :=
  [(5000, .wake), (5000, .look), (5700, .warmed [⟨.ok stateFrame, 5600⟩] [1]), (5700, .look),
    (10700, .wake), (10700, .look), (10700, .look), (15700, .wake), (15700, .look), (15700, .look),
    (20700, .wake), (20700, .look), (20700, .look), (25700, .wake), (25700, .look),
    (26400, .warmed [⟨.ok stateFrame, 26300⟩] [1])]

/-- An evening on which nobody looks in, and keep-warm reads the unit by itself. -/
theorem kept_warm_quietEvening : ∃ s' : Server, s'.clock = 26400 ∧
    (s'.clock ≤ (Server.start .always [(7, true)]).clock + 2 * TICK ∨
      ∃ t, (s'.slots 0).device.lastExchangeAt = some t ∧ s'.clock < t + IDLE_TIMEOUT) := by
  have hmoves : (quietEvening.foldlM (Server.careful 0 700 7 0)
      (Server.start .always [(7, true)])).map
        (fun s => (s.clock, (s.slots 0).holder.isNone)) = some (26400, true) := by
    decide +kernel
  obtain ⟨s', hs', hx⟩ := Option.map_eq_some_iff.mp hmoves
  obtain ⟨hclock, hholder⟩ := Prod.mk.inj hx
  have hrun : Run (Careful 0 700 7 0) (Server.start .always [(7, true)])
      (quietEvening.map id) s' := Run.of_foldlM (fun _ _ _ h => careful_step h) hs'
  refine ⟨s', hclock, kept_warm (by decide) (.nil _) ?_ hrun
    (Option.isNone_iff_eq_none.mp hholder)⟩
  exact ⟨by decide, by decide, ⟨rfl, rfl, rfl⟩, by decide, by rintro ⟨⟩⟩

end BreezeHttp.Warm
