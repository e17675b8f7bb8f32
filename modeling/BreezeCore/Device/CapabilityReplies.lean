import BreezeCore.Device.Device

/-!
# What the capabilities are read from

Replies carry nothing that ties them to a query, and the decoder of capabilities takes
whatever comes: it fails on no payload, of whatever kind.  `replies` lists the packets that
come back where an answer is expected.

That the capabilities come from capability replies alone is said by what another decoder would
make of it: `only_replies_iff` says on which lines a decoder that reads `0xB5` payloads the
same and others otherwise, or not at all, leads to the same capabilities.
-/

namespace BreezeDevice

open Fallible Bytes Ac

/-- The command byte of a capability reply. -/
def CAPABILITY_REPLY : UInt8 := 0xB5

abbrev Decoder : Type := Octets → Exec DeviceError Capabilities

section With

variable (decode : Decoder)

/-- The second query, with this decoder. -/
def Device.fetchMoreWith (d : Device) (caps : Capabilities) : Outcome Capabilities × Device :=
  let (messageId, d) := d.nextMessageId
  match d.exchange (getMoreCapabilities messageId) decode with
  | (.ok more, d) => (.ok (caps.merge more), { d with capabilities := some (caps.merge more) })
  | (.failed _, d) => (.ok caps, { d with capabilities := some caps })
  | (.panicked, d) => (.panicked, d)
  | (.waiting, d) => (.waiting, d)

/-- What the unit says it can do, read with this decoder. -/
def Device.fetchWith (d : Device) : Outcome Capabilities × Device :=
  match d.capabilities with
  | some cached => (.ok cached, d)
  | none =>
      let (messageId, d) := d.nextMessageId
      match d.exchange (getCapabilities messageId) decode with
      | (.ok caps, d) =>
          if caps.additional then d.fetchMoreWith decode caps
          else (.ok caps, { d with capabilities := some caps })
      | (other, d) => (other, d)

end With

theorem Device.fetchCapabilities_eq (d : Device) :
    d.fetchCapabilities = d.fetchWith Capabilities.parse := rfl

/-- The decoder reads capability replies as the device does. -/
def ReadsReplies (decode : Decoder) : Prop :=
  ∀ payload, payload.head? = some CAPABILITY_REPLY → decode payload = Capabilities.parse payload

/-- The capabilities are decoded from capability replies and from nothing else: whatever a
decoder makes of other payloads (an error, say), they are the same, and so is what is kept. -/
def OnlyReplies (d : Device) : Prop :=
  ∀ decode, ReadsReplies decode →
    (d.fetchWith decode).1 = d.fetchCapabilities.1 ∧
      (d.fetchWith decode).2.capabilities = d.fetchCapabilities.2.capabilities

/-! ## The packets that come back -/

/-- What an attempt brings: the payload of a whole frame, or an error. -/
def Attempt.payload (attempt : Attempt) : Outcome Octets :=
  match attempt.inner with
  | .error e => .failed e
  | .ok inner => .ofExec (mapFail .frame (Frame.parse inner .airConditioner))

/-- The first whole frame among the attempts of an exchange, `more` of them after this one, and
the line behind it. -/
def answer : (more : Nat) → List Attempt → Option (Octets × List Attempt)
  | _, [] => none
  | more, attempt :: line =>
      match attempt.payload with
      | .ok payload => some (payload, line)
      | .failed e =>
          match more with
          | 0 => none
          | more + 1 => if e.isRetryable then answer more line else none
      | .panicked => none
      | .waiting => none

@[simp] theorem answer_nil (more : Nat) : answer more [] = none := by rw [answer]

/-- The payload announces more. -/
def announces (payload : Octets) : Bool :=
  match (Capabilities.parse payload : Exec DeviceError Capabilities) with
  | .ok caps => caps.additional
  | .error _ => false

/-- The packets that answer the two queries: that of the first, and if it announces more, that
of the second. -/
def replies (line : List Attempt) : List Octets :=
  match answer (ATTEMPTS - 1) line with
  | none => []
  | some (first, line) =>
      first :: (if announces first then ((answer (ATTEMPTS - 1) line).map Prod.fst).toList else [])

/-! ## An exchange and its answer -/

variable {T : Type}

theorem Device.tryExchange_cons {d : Device} {attempt : Attempt} {line : List Attempt}
    (command : Octets) (hline : d.line = attempt :: line) :
    (d.tryExchange command).1 = attempt.payload ∧ (d.tryExchange command).2.2.line = line ∧
      (d.tryExchange command).2.2.capabilities = d.capabilities := by
  unfold tryExchange Attempt.payload
  rw [hline]
  dsimp only
  cases attempt.inner <;> exact ⟨rfl, rfl, rfl⟩

/-- An attempt with its decoding, in terms of what it brings. -/
theorem Device.attempt_cons {d : Device} {attempt : Attempt} {line : List Attempt}
    (command : Octets) (hline : d.line = attempt :: line) :
    ∃ (at_ : Nat) (d' : Device), d'.line = line ∧ d'.capabilities = d.capabilities ∧
      ∀ decode : Octets → Exec DeviceError T, d.attempt command decode =
        match attempt.payload with
        | .ok payload => (.ofExec (decode payload), at_, d')
        | .failed e => (.failed e, at_, d')
        | .panicked => (.panicked, at_, d')
        | .waiting => (.waiting, at_, d') := by
  obtain ⟨hpayload, hrest, hcaps⟩ := d.tryExchange_cons command hline
  refine ⟨(d.tryExchange command).2.1, (d.tryExchange command).2.2, hrest, hcaps, fun decode => ?_⟩
  unfold Device.attempt
  rw [← hpayload]
  rcases d.tryExchange command with ⟨outcome, at_, d'⟩
  cases outcome <;> rfl

/-- A line with nothing on it is waited for. -/
theorem Device.attempt_nil {d : Device} (command : Octets)
    (decode : Octets → Exec DeviceError T) (hline : d.line = []) :
    (d.attempt command decode).1 = .waiting := by
  unfold attempt tryExchange
  rw [hline]

/-- **The first whole frame is the answer**, if it decodes. By induction on the line: attempts
without one are retried while there are some left. -/
theorem Device.exchangeLoop_answer {command payload : Octets} {rest line : List Attempt}
    {decode : Octets → Exec DeviceError T} {value : T} (hdecode : decode payload = .ok value)
    {more : Nat} {d : Device} (hline : d.line = line)
    (h : answer more line = some (payload, rest)) :
    ∃ d', exchangeLoop command decode more d = (.ok value, d') ∧ d'.line = rest ∧
      d'.capabilities = d.capabilities := by
  induction line generalizing more d with
  | nil => simp at h
  | cons attempt line ih =>
      obtain ⟨at_, d', hrest, hcaps, hattempt⟩ := attempt_cons (T := T) command hline
      rw [answer] at h
      rw [exchangeLoop, hattempt]
      cases hpayload : attempt.payload with
      | ok first =>
          rw [hpayload] at h
          obtain ⟨rfl, rfl⟩ := Prod.mk.inj (Option.some.inj h)
          dsimp only
          rw [hdecode]
          exact ⟨_, rfl, hrest, hcaps⟩
      | failed e =>
          rw [hpayload] at h
          cases more with
          | zero => cases h
          | succ more =>
              dsimp only at h ⊢
              split at h
              next hretry =>
                rw [if_pos hretry, ← hcaps]
                exact @ih more d'.dropSession hrest h
              next => cases h
      | panicked => rw [hpayload] at h; cases h
      | waiting => rw [hpayload] at h; cases h

/-- An exchange that no whole frame answers has no result, whatever the decoder makes of
others. -/
theorem Device.exchangeLoop_unanswered {command : Octets} {line : List Attempt}
    (decode : Octets → Exec DeviceError T) {more : Nat} {d : Device} (hline : d.line = line)
    (h : answer more line = none) (value : T) :
    (exchangeLoop command decode more d).1 ≠ .ok value := by
  induction line generalizing more d with
  | nil =>
      have hwaits := attempt_nil command decode hline
      rw [exchangeLoop]
      split <;> simp_all
  | cons attempt line ih =>
      obtain ⟨at_, d', hrest, -, hattempt⟩ := attempt_cons (T := T) command hline
      rw [answer] at h
      rw [exchangeLoop, hattempt]
      cases hpayload : attempt.payload with
      | ok first => rw [hpayload] at h; cases h
      | failed e =>
          rw [hpayload] at h
          cases more with
          | zero => exact fun heq => by cases heq
          | succ more =>
              dsimp only at h ⊢
              split at h
              next hretry =>
                rw [if_pos hretry]
                exact @ih more d'.dropSession hrest h
              next hfinal =>
                rw [if_neg hfinal]
                exact fun heq => by cases heq
      | panicked => exact fun heq => by cases heq
      | waiting => exact fun heq => by cases heq

/-- Decoders that agree on the answer make the same of the exchange. The induction is on the
attempts still in line: one that fails is the same failure for both, and tries the next. -/
theorem Device.exchangeLoop_congr {command : Octets} {line : List Attempt}
    {decode decode' : Octets → Exec DeviceError T} {more : Nat} {d : Device} (hline : d.line = line)
    (h : ∀ payload rest, answer more line = some (payload, rest) →
      ∃ value, decode payload = .ok value ∧ decode' payload = .ok value) :
    exchangeLoop command decode more d = exchangeLoop command decode' more d := by
  induction line generalizing more d with
  | nil =>
      unfold exchangeLoop attempt tryExchange
      rw [hline]
  | cons attempt line ih =>
      obtain ⟨at_, d', hrest, -, hattempt⟩ := attempt_cons (T := T) command hline
      rw [answer] at h
      rw [exchangeLoop, exchangeLoop, hattempt, hattempt]
      cases hpayload : attempt.payload with
      | ok first =>
          rw [hpayload] at h
          obtain ⟨value, hdecode, hdecode'⟩ := h first line rfl
          dsimp only
          rw [hdecode, hdecode']
          rfl
      | failed e =>
          rw [hpayload] at h
          cases more with
          | zero => rfl
          | succ more =>
              dsimp only at h ⊢
              by_cases hretry : e.isRetryable = true
              · rw [if_pos hretry] at h
                rw [if_pos hretry, if_pos hretry]
                exact @ih more d'.dropSession hrest h
              · rw [if_neg hretry, if_neg hretry]
      | panicked => rfl
      | waiting => rfl

/-! ## Which packets are read -/

/-- A decoder that reads replies the same and everything else as `other`. -/
def readsElse (other : Capabilities) : Decoder := fun payload =>
  if payload.head? = some CAPABILITY_REPLY then Capabilities.parse payload else .ok other

theorem readsElse_reads (other : Capabilities) : ReadsReplies (readsElse other) :=
  fun _ h => if_pos h

variable {d : Device}

/-- What the first query comes to, for a device that has not asked before. -/
theorem Device.fetchWith_first {decode : Decoder} {payload : Octets} {rest : List Attempt}
    {caps : Capabilities} (hcold : d.capabilities = none)
    (h : answer (ATTEMPTS - 1) d.line = some (payload, rest))
    (hdecode : decode payload = .ok caps) :
    ∃ d' : Device, d'.line = rest ∧ d.fetchWith decode =
      if caps.additional then d'.fetchMoreWith decode caps
      else (.ok caps, { d' with capabilities := some caps }) := by
  obtain ⟨d', hexchange, hrest, -⟩ := @exchangeLoop_answer _ (getCapabilities d.nextId) payload
    rest d.line decode caps hdecode (ATTEMPTS - 1) d.nextMessageId.2 rfl h
  refine ⟨d', hrest, ?_⟩
  unfold fetchWith
  rw [hcold]
  dsimp only
  have hfirst : d.nextMessageId.2.exchange (getCapabilities d.nextMessageId.1) decode =
      (.ok caps, d') := hexchange
  rw [hfirst]

theorem Device.fetchWith_unanswered {decode : Decoder} (hcold : d.capabilities = none)
    (h : answer (ATTEMPTS - 1) d.line = none) :
    d.fetchWith decode = d.fetchCapabilities := by
  have hexchange : d.nextMessageId.2.exchange (getCapabilities d.nextMessageId.1) decode =
      d.nextMessageId.2.exchange (getCapabilities d.nextMessageId.1) Capabilities.parse :=
    exchangeLoop_congr rfl fun payload rest hanswer => by
      rw [show d.nextMessageId.2.line = d.line from rfl, h] at hanswer
      cases hanswer
  have hnone : ∀ caps, (d.nextMessageId.2.exchange (getCapabilities d.nextMessageId.1)
      Capabilities.parse).1 ≠ .ok caps := exchangeLoop_unanswered _ rfl h
  rw [fetchCapabilities_eq]
  unfold fetchWith
  rw [hcold]
  dsimp only
  rw [hexchange]
  split
  next heq =>
    rw [heq] at hnone
    exact absurd rfl (hnone _)
  next => rfl

/-- What the second query comes to: its answer is folded in, and it never fails. -/
theorem Device.fetchMoreWith_answer {decode : Decoder} {payload : Octets} {rest : List Attempt}
    {more : Capabilities} (caps : Capabilities)
    (h : answer (ATTEMPTS - 1) d.line = some (payload, rest))
    (hdecode : decode payload = .ok more) :
    (d.fetchMoreWith decode caps).1 = .ok (caps.merge more) := by
  obtain ⟨d', hexchange, -, -⟩ := @exchangeLoop_answer _ (getMoreCapabilities d.nextId) payload
    rest d.line decode more hdecode (ATTEMPTS - 1) d.nextMessageId.2 rfl h
  have hsecond : d.nextMessageId.2.exchange (getMoreCapabilities d.nextMessageId.1) decode =
      (.ok more, d') := hexchange
  unfold fetchMoreWith
  dsimp only
  rw [hsecond]

theorem Device.fetchMoreWith_congr {decode decode' : Decoder} (caps : Capabilities)
    (h : ∀ payload rest, answer (ATTEMPTS - 1) d.line = some (payload, rest) →
      ∃ more, decode payload = .ok more ∧ decode' payload = .ok more) :
    d.fetchMoreWith decode caps = d.fetchMoreWith decode' caps := by
  have hexchange : d.nextMessageId.2.exchange (getMoreCapabilities d.nextMessageId.1) decode =
      d.nextMessageId.2.exchange (getMoreCapabilities d.nextMessageId.1) decode' :=
    exchangeLoop_congr rfl h
  unfold fetchMoreWith
  dsimp only
  rw [hexchange]

/-- Decoders that agree on the answers of both queries come to the same. The second query is sent
only where the first answer asks for it, and that answer is one value for both. -/
theorem Device.fetchWith_congr {decode decode' : Decoder} {first : Octets} {line : List Attempt}
    {caps : Capabilities} (hcold : d.capabilities = none)
    (hfirst : answer (ATTEMPTS - 1) d.line = some (first, line)) (hcaps : decode first = .ok caps)
    (hcaps' : decode' first = .ok caps)
    (hsecond : caps.additional = true → ∀ payload rest,
      answer (ATTEMPTS - 1) line = some (payload, rest) →
        ∃ more, decode payload = .ok more ∧ decode' payload = .ok more) :
    d.fetchWith decode = d.fetchWith decode' := by
  have hexchange : d.nextMessageId.2.exchange (getCapabilities d.nextMessageId.1) decode =
      d.nextMessageId.2.exchange (getCapabilities d.nextMessageId.1) decode' := by
    refine exchangeLoop_congr rfl fun payload rest hanswer => ?_
    obtain ⟨rfl, -⟩ := Prod.mk.inj (Option.some.inj (hanswer.symm.trans hfirst))
    exact ⟨caps, hcaps, hcaps'⟩
  obtain ⟨d', hanswered, hrest, -⟩ := @exchangeLoop_answer _ (getCapabilities d.nextId) first
    line d.line decode' caps hcaps' (ATTEMPTS - 1) d.nextMessageId.2 rfl hfirst
  have hanswered' : d.nextMessageId.2.exchange (getCapabilities d.nextMessageId.1) decode' =
      (.ok caps, d') := hanswered
  unfold fetchWith
  rw [hcold]
  dsimp only
  rw [hexchange, hanswered']
  dsimp only
  by_cases hmore : caps.additional = true
  · rw [if_pos hmore, if_pos hmore]
    exact fetchMoreWith_congr caps (hrest.symm ▸ hsecond hmore)
  · rw [if_neg hmore, if_neg hmore]

/-- What is made of another packet is what the device ends with, so it shows. -/
theorem OnlyReplies.first {payload : Octets} {rest : List Attempt} (h : OnlyReplies d)
    (hcold : d.capabilities = none)
    (hfirst : answer (ATTEMPTS - 1) d.line = some (payload, rest)) :
    payload.head? = some CAPABILITY_REPLY := by
  by_contra hother
  have hsame : ∀ other : Capabilities, other.additional = false →
      Outcome.ok other = d.fetchCapabilities.1 := by
    intro other hadditional
    obtain ⟨d', -, hfetch⟩ :=
      @Device.fetchWith_first d (readsElse other) payload rest other hcold hfirst (if_neg hother)
    rw [← (h _ (readsElse_reads other)).1, hfetch, hadditional]
    rfl
  have hempty := hsame {} rfl
  have hcool := hsame { coolMode := true } rfl
  have heq := congrArg Capabilities.coolMode (Outcome.ok.inj (hempty.trans hcool.symm))
  cases heq

/-- So does what is made of another packet in answer to the second query. The decoder looks at no
type byte, so that a report would be merged into the list. -/
theorem OnlyReplies.second {first payload : Octets} {line rest : List Attempt}
    {caps : Capabilities} (h : OnlyReplies d) (hcold : d.capabilities = none)
    (hfirst : answer (ATTEMPTS - 1) d.line = some (first, line))
    (hcaps : Capabilities.parse (ε := DeviceError) first = .ok caps)
    (hmore : caps.additional = true)
    (hsecond : answer (ATTEMPTS - 1) line = some (payload, rest)) :
    payload.head? = some CAPABILITY_REPLY := by
  have hhead := h.first hcold hfirst
  by_contra hother
  have hsame : ∀ other : Capabilities,
      Outcome.ok (caps.merge other) = d.fetchCapabilities.1 := by
    intro other
    obtain ⟨d', hline, hfetch⟩ := @Device.fetchWith_first d (readsElse other) first line
      caps hcold hfirst ((if_pos hhead).trans hcaps)
    rw [← (h _ (readsElse_reads other)).1, hfetch, if_pos hmore]
    exact (Device.fetchMoreWith_answer caps (hline.symm ▸ hsecond) (if_neg hother)).symm
  have hempty := hsame {}
  have hmany := hsame { additional := true }
  have heq := congrArg Capabilities.additional (Outcome.ok.inj (hempty.trans hmany.symm))
  cases heq

/-- **The capabilities come from capability replies alone** exactly when all packets that come
back in answer to the two queries are such. -/
theorem only_replies_iff (d : Device) :
    OnlyReplies d ↔
      (d.capabilities = none → ∀ payload ∈ replies d.line,
        payload.head? = some CAPABILITY_REPLY) := by
  cases hcold : d.capabilities with
  | some cached =>
      refine iff_of_true (fun decode _ => ?_) nofun
      unfold Device.fetchWith Device.fetchCapabilities
      rw [hcold]
      exact ⟨rfl, rfl⟩
  | none =>
      cases hfirst : answer (ATTEMPTS - 1) d.line with
      | none =>
          refine iff_of_true (fun decode _ => ?_) fun _ payload hmem => ?_
          · rw [Device.fetchWith_unanswered hcold hfirst]
            exact ⟨rfl, rfl⟩
          · rw [replies, hfirst] at hmem
            cases hmem
      | some answered =>
          obtain ⟨first, line⟩ := answered
          obtain ⟨caps, hcaps⟩ := Capabilities.parse_eq_ok (ε := DeviceError) first
          have hreplies : replies d.line = first :: (if caps.additional then
              ((answer (ATTEMPTS - 1) line).map Prod.fst).toList else []) := by
            rw [replies, hfirst]
            dsimp only
            rw [announces, hcaps]
          rw [hreplies]
          constructor
          · intro h _
            refine List.forall_mem_cons.mpr ⟨h.first hcold hfirst, fun second hmem => ?_⟩
            by_cases hmore : caps.additional = true
            · rw [if_pos hmore, Option.mem_toList, Option.map_eq_some_iff] at hmem
              obtain ⟨⟨payload, rest⟩, hsecond, rfl⟩ := hmem
              exact h.second hcold hfirst hcaps hmore hsecond
            · rw [if_neg hmore] at hmem
              cases hmem
          · intro hall decode hreads
            obtain ⟨hhead, hrest⟩ := List.forall_mem_cons.mp (hall rfl)
            have hfetch : d.fetchWith decode = d.fetchCapabilities := by
              rw [Device.fetchCapabilities_eq]
              refine Device.fetchWith_congr hcold hfirst ((hreads first hhead).trans hcaps) hcaps ?_
              intro hmore payload rest hsecond
              obtain ⟨more, hparse⟩ := Capabilities.parse_eq_ok (ε := DeviceError) payload
              have hreply := hrest payload (by rw [if_pos hmore, hsecond]; exact List.mem_cons_self)
              exact ⟨more, (hreads payload hreply).trans hparse, hparse⟩
            rw [hfetch]
            exact ⟨rfl, rfl⟩

/-- A state report that comes late. -/
def lateReport : Octets := 0xC0 :: List.replicate 23 0

/-- A device that has just been asked what it can do, and gets a state report. -/
def reportingLate : Device :=
  { line := [⟨.ok (Frame.build .airConditioner .query lateReport), 0⟩] }

/-- The report is kept as an empty list of capabilities. -/
theorem report_taken_for_capabilities :
    (State.parse lateReport).isOk = true ∧
      reportingLate.fetchCapabilities.2.capabilities = some {} ∧ ¬ OnlyReplies reportingLate := by
  refine ⟨by decide +kernel, by decide +kernel, fun h => ?_⟩
  have hsame := (h _ (readsElse_reads { coolMode := true })).1
  exact absurd hsame (by decide +kernel)

end BreezeDevice
