import BreezeCore.Device.Session
import BreezeCore.Lib.Framing

/-!
# Packets are put together again

The unit's packets come out of a stream that TCP cuts as it likes.  `read_packet`
is the reader of `Framing` for the framer `headOf` describes, so what repeated calls
extract is what the framer makes of the stream, for every way of cutting it and
however often a call times out in between.
-/

namespace BreezeDevice

open Bytes Framing

/-! ## The reader -/

/-- What `take_packet` does about the front of the buffer. -/
def Head.verdict : Head → Verdict DeviceError
  | .lost first second => .bad (.protocol (.notAPacket first second))
  | .tooLarge total => .bad (.packetTooLarge total)
  | .fragment => .more
  | .whole total => .whole total

theorem Head.verdict_whole {head : Head} {total : Nat} (h : head.verdict = .whole total) :
    head = .whole total := by
  cases head with
  | whole _ => exact congrArg _ (Verdict.whole.inj h)
  | lost _ _ | tooLarge _ | fragment => cases h

/-- The framer of a session. -/
def framer : Framer Received DeviceError where
  head rx := (headOf (rx.map Received.byte)).verdict
  whole_le := by
    intro rx n h
    obtain ⟨hlow, hhigh⟩ := headOf_whole (Head.verdict_whole h)
    rw [List.length_map] at hhigh
    exact ⟨by omega, hhigh⟩
  stable := by
    intro rx more h
    have hhead : headOf (rx.map Received.byte) ≠ .fragment := fun hf => h (by rw [hf]; rfl)
    rw [List.map_append, headOf_stable _ hhead]

/-- What a turn is to the reader: an interrupted read is repeated, and one that times
out can be. -/
def Turn.arrival? (sends : Nat) : Turn → Option (Arrival Received DeviceError)
  | .expired => some .pause
  | .deadline kind => some (if kind = .timedOut then .pause else .stop (.io kind))
  | .answer .closed => some (.stop closed)
  | .answer (.data chunk) => some (.chunk (chunk.bytes.map fun byte => ⟨byte, sends⟩))
  | .answer (.err kind) =>
      if kind = .interrupted then none
      else if kind = .wouldBlock ∨ kind = .timedOut then some .pause
      else some (.stop (.io kind))

def arrivals (sends : Nat) (turns : List Turn) : List (Arrival Received DeviceError) :=
  turns.filterMap (Turn.arrival? sends)

/-- What a call returns. -/
def outcomeOf : Got Received DeviceError → Outcome (List Received)
  | .packet packet => .ok packet
  | .pause => .failed timedOut
  | .stopped e => .failed e
  | .nothing => .waiting

/-- A call that has done what the reader does. -/
structure DoneBy (sends : Nat) (call : Outcome (List Received) × Session)
    (got : Got Received DeviceError × List Received × List (Arrival Received DeviceError)) :
    Prop where
  outcome : call.1 = outcomeOf got.1
  rx : call.2.rx = got.2.1
  turns : arrivals sends call.2.line.turns = got.2.2
  sent : call.2.sent = sends
  /-- What stops the reader is not a timeout. -/
  stopped : ∀ e, got.1 = .stopped e → isTimeout e = false

/-- A call that finds a packet, or an error, in the buffer. It does not touch the line, in the
code and in the reader alike, and each kind of head has its own answer. -/
theorem reads_of_buffer (turns : List Turn) {s : Session} (h : headOf s.bytes ≠ .fragment) :
    DoneBy s.sent (Session.readLoop turns s) (framer.next (arrivals s.sent turns) s.rx) := by
  have hhead : framer.head s.rx = (headOf s.bytes).verdict := rfl
  unfold Session.readLoop Session.takePacket
  cases hfront : headOf s.bytes with
  | fragment => exact absurd hfront h
  | lost first second =>
      rw [hfront] at hhead
      rw [Framer.next_bad hhead]
      refine ⟨rfl, rfl, rfl, rfl, ?_⟩
      rintro _ ⟨⟩
      rfl
  | tooLarge total =>
      rw [hfront] at hhead
      rw [Framer.next_bad hhead]
      refine ⟨rfl, rfl, rfl, rfl, ?_⟩
      rintro _ ⟨⟩
      rfl
  | whole total =>
      rw [hfront] at hhead
      rw [Framer.next_whole hhead]
      exact ⟨rfl, rfl, rfl, rfl, fun _ he => by cases he⟩

/-- A fragment makes the reader ask for more. -/
theorem takePacket_fragment {s : Session} (h : headOf s.bytes = .fragment) :
    s.takePacket = (.ok none, s) := by
  unfold Session.takePacket
  rw [h]

/-- A call that gives up for now. -/
theorem DoneBy.pause {s : Session} {turns turns' : List Turn} (hmore : framer.head s.rx = .more)
    (h : arrivals s.sent turns' = .pause :: arrivals s.sent turns) :
    DoneBy s.sent (.failed timedOut, { s with line := { s.line with turns := turns } })
      (framer.next (arrivals s.sent turns') s.rx) := by
  rw [h, Framer.next_pause hmore]
  exact ⟨rfl, rfl, rfl, rfl, nofun⟩

/-- A call that finds the stream at its end. -/
theorem DoneBy.stop {s : Session} {turns turns' : List Turn} {e : DeviceError}
    (hmore : framer.head s.rx = .more)
    (h : arrivals s.sent turns' = .stop e :: arrivals s.sent turns) (hlate : isTimeout e = false) :
    DoneBy s.sent (.failed e, { s with line := { s.line with turns := turns } })
      (framer.next (arrivals s.sent turns') s.rx) := by
  rw [h, Framer.next_stop hmore]
  refine ⟨rfl, rfl, rfl, rfl, ?_⟩
  rintro _ ⟨⟩
  exact hlate

/-- **One call** of `read_packet` is one call of the reader. By induction on the turns of the
line: a fragment waits for the next turn, and anything else is answered from the buffer. -/
theorem readLoop_reads (turns : List Turn) :
    ∀ s : Session,
      DoneBy s.sent (Session.readLoop turns s) (framer.next (arrivals s.sent turns) s.rx) := by
  induction turns with
  | nil =>
      intro s
      by_cases hfront : headOf s.bytes = .fragment
      · have hmore : framer.head s.rx = .more := congrArg Head.verdict hfront
        unfold Session.readLoop
        rw [takePacket_fragment hfront, arrivals, List.filterMap_nil, Framer.next_nil hmore]
        exact ⟨rfl, rfl, rfl, rfl, nofun⟩
      · exact reads_of_buffer [] hfront
  | cons turn turns ih =>
      intro s
      by_cases hfront : headOf s.bytes = .fragment
      · have hmore : framer.head s.rx = .more := congrArg Head.verdict hfront
        unfold Session.readLoop
        rw [takePacket_fragment hfront]
        cases turn with
        | expired => exact .pause hmore rfl
        | deadline kind =>
            by_cases hkind : kind = .timedOut
            · subst hkind
              exact .pause hmore rfl
            · refine .stop hmore ?_ (by simp [isTimeout, hkind])
              simp [arrivals, Turn.arrival?, hkind]
        | answer answer =>
            cases answer with
            | closed => exact .stop hmore rfl rfl
            | data chunk =>
                have harrivals : arrivals s.sent (.answer (.data chunk) :: turns) =
                  .chunk (chunk.bytes.map fun byte => ⟨byte, s.sent⟩) :: arrivals s.sent turns :=
                    rfl
                rw [harrivals, Framer.next_chunk hmore]
                exact ih (s.receive chunk)
            | err kind =>
                dsimp only
                by_cases hagain : kind = .interrupted
                · -- The read is repeated.
                  subst hagain
                  exact ih s
                · rw [if_neg hagain]
                  by_cases hlate : kind = .wouldBlock ∨ kind = .timedOut
                  · rw [if_pos hlate]
                    exact .pause hmore (by simp [arrivals, Turn.arrival?, hagain, hlate])
                  · rw [if_neg hlate]
                    refine .stop hmore ?_ (by simp [isTimeout, not_or.mp hlate])
                    simp [arrivals, Turn.arrival?, hagain, hlate]
      · exact reads_of_buffer (turn :: turns) hfront

/-! ## Call after call -/

/-- At most so many calls of `read_packet`, up to the first error; one that times out
is simply repeated. -/
def Session.readPackets : Nat → Session → Split Received DeviceError
  | 0, s => ⟨[], none, s.rx⟩
  | n + 1, s =>
      match s.readPacket with
      | (.ok packet, s) => (readPackets n s).after packet
      | (.failed e, s) => if isTimeout e then readPackets n s else ⟨[], some e, s.rx⟩
      | (.panicked, s) => ⟨[], none, s.rx⟩
      | (.waiting, s) => ⟨[], none, s.rx⟩

/-- **Repeated calls** are repeated calls of the reader. Each call leaves the buffer and the turns
that the reader leaves, and sends nothing, so that the next one starts alike. -/
theorem readPackets_eq_run (n : Nat) :
    ∀ s : Session, s.readPackets n = framer.run n (arrivals s.sent s.line.turns) s.rx := by
  induction n with
  | zero => intro s; rfl
  | succ n ih =>
      intro s
      have hreads := readLoop_reads s.line.turns s
      unfold Session.readPackets Framer.run Session.readPacket
      generalize Session.readLoop s.line.turns s = call at hreads ⊢
      generalize framer.next (arrivals s.sent s.line.turns) s.rx = got at hreads ⊢
      obtain ⟨outcome, s'⟩ := call
      obtain ⟨got, rx, rest⟩ := got
      obtain ⟨houtcome, hrx, hturns, hsent, hstopped⟩ := hreads
      dsimp only at houtcome hrx hturns hsent hstopped
      subst houtcome hrx hturns
      have hnext := ih s'
      rw [hsent] at hnext
      cases got with
      | packet packet => exact congrArg (Split.after packet) hnext
      | pause => exact hnext
      | stopped e =>
          have hlate := hstopped e rfl
          dsimp only [outcomeOf]
          rw [if_neg (by rw [hlate]; exact Bool.false_ne_true)]
      | nothing => rfl

/-- The bytes that the reads of some turns bring, up to a hard error. -/
def stream (turns : List Turn) : Octets := (bytes (arrivals 0 turns)).map Received.byte

/-- That error. -/
def streamEnd (turns : List Turn) : Option DeviceError := ending (arrivals 0 turns)

/-- The session with these turns to come. -/
def Session.facing (s : Session) (turns : List Turn) : Session :=
  { s with line := { s.line with turns := turns } }

/-- The bytes are the same whenever they come in, only marked otherwise, and they end
alike. -/
theorem arrivals_bring (sends : Nat) (turns : List Turn) :
    bytes (arrivals sends turns) = ((stream turns).map fun byte => ⟨byte, sends⟩) ∧
      ending (arrivals sends turns) = streamEnd turns := by
  induction turns with
  | nil => exact ⟨rfl, rfl⟩
  | cons turn turns ih =>
      simp only [stream, streamEnd, arrivals, List.filterMap_cons] at ih ⊢
      cases turn with
      | expired => exact ih
      | deadline kind =>
          by_cases hkind : kind = .timedOut
          · simpa [Turn.arrival?, hkind, bytes, ending] using ih
          · simp [Turn.arrival?, hkind, bytes, ending]
      | answer answer =>
          cases answer with
          | closed => exact ⟨rfl, rfl⟩
          | data chunk => simp [Turn.arrival?, bytes, ending, ih.1, ih.2]
          | err kind =>
              by_cases hagain : kind = .interrupted
              · simpa [Turn.arrival?, hagain] using ih
              · by_cases hlate : kind = .wouldBlock ∨ kind = .timedOut
                · simpa [Turn.arrival?, hagain, hlate, bytes, ending] using ih
                · simp [Turn.arrival?, hagain, hlate, bytes, ending]

theorem arrivals_length (sends : Nat) (turns : List Turn) :
    (arrivals sends turns).length ≤ turns.length :=
  List.length_filterMap_le _ _

/-- **What repeated calls extract** is what the framer makes of the buffer and the
stream behind it. -/
theorem readPackets_eq_split (s : Session) {turns : List Turn} {n : Nat}
    (hn : s.rx.length + (stream turns).length + turns.length < n) :
    (s.facing turns).readPackets n =
      framer.split (streamEnd turns) (s.rx ++ (stream turns).map fun byte => ⟨byte, s.sent⟩) := by
  obtain ⟨hbytes, hending⟩ := arrivals_bring s.sent turns
  have harrivals := arrivals_length s.sent turns
  have henough : (s.rx ++ bytes (arrivals s.sent turns)).length +
      (arrivals s.sent turns).length < n := by
    rw [hbytes, List.length_append, List.length_map]
    omega
  have hrun := Framer.run_eq_split (F := framer) henough
  rw [hbytes, hending] at hrun
  exact (readPackets_eq_run n (s.facing turns)).trans hrun

/-! ## Packets of a unit -/

/-- A packet as a session takes it: it starts like one and says how long it is, which
is no more than a session buffers. -/
structure WellFormed (packet : Octets) : Prop where
  marker : packet.take 2 = [0x83, 0x70]
  length : Lan.packetLen packet = some packet.length
  fits : packet.length ≤ MAX_PACKET

theorem headOf_wellFormed {packet : Octets} (h : WellFormed packet) :
    headOf packet = .whole packet.length := by
  unfold headOf
  rw [if_neg fun hbad => hbad.2 h.marker, h.length]
  dsimp only
  rw [if_neg (Nat.not_lt.mpr h.fits), if_neg (Nat.lt_irrefl _)]

/-- A list that comes from another, cut in pieces, comes from the pieces of the other. -/
theorem exists_pieces {A B : Type} (f : A → B) {pieces : List (List B)} :
    ∀ {xs : List A}, xs.map f = pieces.flatten →
      ∃ cut : List (List A), cut.flatten = xs ∧ cut.map (List.map f) = pieces := by
  induction pieces with
  | nil =>
      intro xs h
      rw [List.flatten_nil, List.map_eq_nil_iff] at h
      exact ⟨[], h.symm, rfl⟩
  | cons piece pieces ih =>
      intro xs h
      rw [List.flatten_cons] at h
      obtain ⟨front, back, rfl, hfront, hback⟩ := List.map_eq_append_iff.mp h
      obtain ⟨cut, rfl, hcut⟩ := ih hback
      refine ⟨front :: cut, List.flatten_cons, ?_⟩
      rw [List.map_cons, hfront, hcut]

/-- A list of marked bytes, without the marks. -/
theorem map_byte_mark (bytes : Octets) (sends : Nat) :
    (bytes.map fun byte => (⟨byte, sends⟩ : Received)).map Received.byte = bytes := by
  rw [List.map_map]
  exact List.map_id bytes

/-- **A timeout** takes nothing. What came in before it is still in the buffer, so that the buffer
and the line together hold the bytes they held. -/
theorem bytes_of_timeout {s s' : Session} {turns : List Turn} {e : DeviceError}
    (hcall : (s.facing turns).readPacket = (.failed e, s')) (hlate : isTimeout e = true) :
    s'.bytes ++ stream s'.line.turns = s.bytes ++ stream turns := by
  have hreads : DoneBy s.sent (.failed e, s') (framer.next (arrivals s.sent turns) s.rx) := by
    rw [← hcall]
    exact readLoop_reads turns (s.facing turns)
  have hfits := Framer.next_fits (F := framer) (arrivals s.sent turns) s.rx
  generalize framer.next (arrivals s.sent turns) s.rx = got at hreads hfits
  obtain ⟨got, rx, rest⟩ := got
  cases got with
  | packet packet => cases hreads.outcome
  | nothing => cases hreads.outcome
  | stopped e' =>
      obtain rfl : e = e' := Outcome.failed.inj hreads.outcome
      rw [hreads.stopped e rfl] at hlate
      cases hlate
  | pause =>
      obtain ⟨hsame, -, -⟩ := hfits
      have hrx : s'.rx = rx := hreads.rx
      have hrest : arrivals s.sent s'.line.turns = rest := hreads.turns
      rw [← hrx, ← hrest, (arrivals_bring _ _).1, (arrivals_bring _ _).1] at hsame
      have hbytes := congrArg (List.map Received.byte) hsame
      rw [List.map_append, List.map_append, map_byte_mark, map_byte_mark] at hbytes
      exact hbytes

/-- **Reassembly.**  However the stream is cut into reads, whatever reads time out or
are interrupted in between, and whatever is in the buffer already: enough calls of
`read_packet` extract the same packets, with the same error at the end and the same
rest; where buffer and stream together are well-formed packets one after the other,
they extract just these; and a call that times out leaves buffer and stream together
as they were. -/
theorem reassembly (s : Session) :
    (∀ (turns turns' : List Turn) (n n' : Nat),
        stream turns = stream turns' → streamEnd turns = streamEnd turns' →
        s.rx.length + (stream turns).length + turns.length < n →
        s.rx.length + (stream turns').length + turns'.length < n' →
        (s.facing turns).readPackets n = (s.facing turns').readPackets n') ∧
      (∀ (packets : List Octets) (turns : List Turn) (n : Nat),
        (∀ packet ∈ packets, WellFormed packet) →
        s.bytes ++ stream turns = packets.flatten →
        s.rx.length + (stream turns).length + turns.length < n →
        ((s.facing turns).readPackets n).packets.map (List.map Received.byte) = packets ∧
          ((s.facing turns).readPackets n).error = streamEnd turns ∧
          ((s.facing turns).readPackets n).rest = []) ∧
      ∀ (turns : List Turn) (e : DeviceError) (s' : Session),
        (s.facing turns).readPacket = (.failed e, s') → isTimeout e = true →
        s'.bytes ++ stream s'.line.turns = s.bytes ++ stream turns := by
  refine ⟨?_, ?_, ?_⟩
  · intro turns turns' n n' hstream hend hn hn'
    rw [readPackets_eq_split s hn, readPackets_eq_split s hn', hstream, hend]
  · intro packets turns n hformed hpackets hn
    have hwhole : (s.rx ++ (stream turns).map fun byte => (⟨byte, s.sent⟩ : Received)).map
        Received.byte = packets.flatten := by
      rw [List.map_append, map_byte_mark]
      exact hpackets
    obtain ⟨cut, hcut, rfl⟩ := exists_pieces Received.byte hwhole
    have hsplit : framer.split (streamEnd turns) cut.flatten = ⟨cut, streamEnd turns, []⟩ := by
      apply Framer.split_flatten _ rfl
      intro packet hpacket
      have hhead := headOf_wellFormed (hformed _ (List.mem_map_of_mem hpacket))
      rw [List.length_map] at hhead
      exact congrArg Head.verdict hhead
    rw [readPackets_eq_split s hn, ← hcut, hsplit]
    exact ⟨rfl, rfl, rfl⟩
  · intro turns e s' hcall hlate
    exact bytes_of_timeout hcall hlate

/-- The bytes of one packet, and of two: at once, or with the first byte alone, a read
that times out, and the last byte alone. -/
def packetBytes : Octets := [0x83, 0x70, 0, 1, 0x20, 3, 0, 1, 9]

def atOnce : List Turn := [.answer (.data ⟨packetBytes ++ packetBytes, by decide, by decide⟩)]

def inPieces : List Turn :=
  [.answer (.data ⟨[0x83], by decide, by decide⟩), .expired,
    .answer (.data ⟨packetBytes.tail ++ packetBytes.dropLast, by decide, by decide⟩),
    .answer (.data ⟨[9], by decide, by decide⟩)]

/-- Two packets that come at once, and the same two in pieces with a timeout in between. -/
theorem reassembly_inPieces :
    (({ line := {} } : Session).facing atOnce).readPackets 20 =
        (({ line := {} } : Session).facing inPieces).readPackets 25 ∧
      ((({ line := {} } : Session).facing inPieces).readPackets 25).packets.map
        (List.map Received.byte) = [packetBytes, packetBytes] := by
  obtain ⟨hcuts, hpackets, -⟩ := reassembly { line := {} }
  have hformed : ∀ packet ∈ [packetBytes, packetBytes], WellFormed packet := by
    intro packet hpacket
    obtain rfl : packet = packetBytes := by simpa using hpacket
    exact ⟨by decide, by decide, by decide⟩
  exact ⟨hcuts atOnce inPieces 20 25 (by decide) (by decide) (by decide) (by decide),
    (hpackets [packetBytes, packetBytes] inPieces 25 hformed (by decide) (by decide)).1⟩

end BreezeDevice
