import BreezeCore.Device.Session
import BreezeCore.Proto.Stack

/-!
# When a reply is stale

A reply is fresh when every byte of it came in after the request was sent.  A
session gives a fresh reply exactly when its drain leaves nothing behind
(`takeReply_fresh`), and a drain that succeeds leaves nothing behind exactly on
a line that is `Clean`: either the packets already there end with the buffer, or
the reads that complete the last one end with it.  A read takes what is there,
up to 1024 bytes, so on any other line it brings in the start of a further stale
packet, and that packet is the next reply.
-/

namespace BreezeDevice

open Fallible Bytes Security

/-! ## The line, as bytes -/

/-- The bytes that have arrived before a read finds nothing more. -/
def arrived : List Answer → Octets
  | .data chunk :: now => chunk.bytes ++ arrived now
  | .err kind :: now => if kind = .interrupted then arrived now else []
  | _ => []

/-- The bytes some turns of a timed read deliver. -/
def delivered : List Turn → Octets
  | [] => []
  | .answer (.data chunk) :: turns => chunk.bytes ++ delivered turns
  | _ :: turns => delivered turns

/-- What is left of a byte string without the whole packets in front. -/
def remainderFrom : (fuel : Nat) → Octets → Octets
  | 0, bytes => bytes
  | fuel + 1, bytes =>
      match headOf bytes with
      | .whole total => remainderFrom fuel (bytes.drop total)
      | _ => bytes

/-- What is left of some bytes when the whole packets in front are taken away. -/
def remainder (bytes : Octets) : Octets := remainderFrom bytes.length bytes

/-- After some of the reads to come, the fragment is exactly one packet. -/
def CompletesExactly (fragment : Octets) (turns : List Turn) : Prop :=
  ∃ k, headOf (fragment ++ delivered (turns.take k)) =
    .whole (fragment ++ delivered (turns.take k)).length

/-- Nothing is left behind: what has arrived is whole packets, or the reads that
complete the last one end where it ends. -/
def Clean (s : Session) : Prop :=
  remainder (s.bytes ++ arrived s.line.now) = [] ∨
    CompletesExactly (remainder (s.bytes ++ arrived s.line.now)) s.line.turns

/-! ## Completing a packet -/

/-- The packet at the front is the whole buffer exactly when some reads to come
would leave it so: none are needed, and any byte more would be left over. -/
theorem completesExactly_of_whole {bytes : Octets} {total : Nat} (turns : List Turn)
    (h : headOf bytes = .whole total) : CompletesExactly bytes turns ↔ total = bytes.length := by
  obtain ⟨-, hhigh⟩ := headOf_whole h
  constructor
  · rintro ⟨k, hk⟩
    rw [headOf_append _ h] at hk
    have hlen : total = (bytes ++ delivered (turns.take k)).length := by injection hk
    rw [List.length_append] at hlen
    omega
  · intro hlen
    refine ⟨0, ?_⟩
    simp only [List.take_zero, delivered, List.append_nil]
    rw [h, hlen]

/-- A fragment is completed by the turns that follow the first one. It is no packet yet, so that
at least one turn is taken, and the first turn only adds what it delivers. -/
theorem completesExactly_cons {bytes : Octets} (turn : Turn) (turns : List Turn)
    (h : headOf bytes = .fragment) :
    CompletesExactly bytes (turn :: turns) ↔
      CompletesExactly (bytes ++ delivered [turn]) turns := by
  have hcons : ∀ k, delivered ((turn :: turns).take (k + 1)) =
      delivered [turn] ++ delivered (turns.take k) := by
    intro k
    rw [List.take_succ_cons]
    cases turn with
    | expired => rfl
    | deadline kind => rfl
    | answer answer => cases answer <;> simp [delivered]
  constructor
  · rintro ⟨k, hk⟩
    cases k with
    | zero =>
        simp only [List.take_zero, delivered, List.append_nil] at hk
        rw [h] at hk
        cases hk
    | succ k =>
        refine ⟨k, ?_⟩
        rw [hcons, ← List.append_assoc] at hk
        exact hk
  · rintro ⟨k, hk⟩
    refine ⟨k + 1, ?_⟩
    rw [hcons, ← List.append_assoc]
    exact hk

/-! ## Reading -/

/-- A chunk is put behind what had come. -/
@[simp] theorem Session.bytes_receive (s : Session) (chunk : Chunk) :
    (s.receive chunk).bytes = s.bytes ++ chunk.bytes := by
  simp [Session.bytes, receive, Function.comp_def]

/-- Receiving bytes sends nothing. -/
@[simp] theorem Session.sent_receive (s : Session) (chunk : Chunk) :
    (s.receive chunk).sent = s.sent := rfl

/-- Bytes that come in during a call, on a session that has written `n`
requests when they do. -/
def ReceivedAt (n : Nat) (extra : List Received) : Prop := ∀ r ∈ extra, r.sends = n

/-- The bytes of a chunk are marked with what had been sent when they came. -/
theorem Session.receive_rx (s : Session) (chunk : Chunk) :
    ∃ extra, (s.receive chunk).rx = s.rx ++ extra ∧ ReceivedAt s.sent extra := by
  refine ⟨_, rfl, ?_⟩
  intro r hr
  obtain ⟨byte, -, rfl⟩ := List.mem_map.mp hr
  rfl

/-- The bytes `xs` are those of the buffer followed by what came in. -/
def Grown (s : Session) (xs : List Received) : Prop :=
  ∃ extra, xs = s.rx ++ extra ∧ ReceivedAt s.sent extra

/-- Nothing came. -/
theorem Grown.refl (s : Session) : Grown s s.rx :=
  ⟨[], (List.append_nil _).symm, fun _ h => absurd h List.not_mem_nil⟩

/-- What came in earlier in the same call came in. -/
theorem Grown.of_receive {s : Session} {chunk : Chunk} {xs : List Received}
    (h : Grown (s.receive chunk) xs) : Grown s xs := by
  obtain ⟨first, hfirst, hat⟩ := s.receive_rx chunk
  obtain ⟨extra, hxs, hextra⟩ := h
  refine ⟨first ++ extra, by rw [hxs, hfirst, List.append_assoc], ?_⟩
  intro r hr
  rcases List.mem_append.mp hr with hr | hr
  · exact hat r hr
  · exact hextra r hr

/-- What a timed read does to the buffer: a packet and what is left make up what
was there and what came in, and so does the buffer after a timeout. -/
def ReadSpec (s : Session) : Outcome (List Received) → Session → Prop
  | .ok packet, s' => packet ≠ [] ∧ Grown s (packet ++ s'.rx)
  | .failed e, s' => (s'.rx = [] ∧ isTimeout e = false) ∨ Grown s s'.rx
  | _, s' => Grown s s'.rx

/-- What is read after a chunk has come was read since before it came. -/
theorem ReadSpec.of_receive {s : Session} {chunk : Chunk} {out : Outcome (List Received)}
    {s' : Session} (h : ReadSpec (s.receive chunk) out s') : ReadSpec s out s' := by
  match out, h with
  | .ok packet, ⟨hne, hgrown⟩ => exact ⟨hne, hgrown.of_receive⟩
  | .failed e, Or.inl hnil => exact Or.inl hnil
  | .failed e, Or.inr hgrown => exact Or.inr hgrown.of_receive
  | .panicked, hgrown => exact Grown.of_receive hgrown
  | .waiting, hgrown => exact Grown.of_receive hgrown

/-- A read leaves everything but the buffer and the turns alone. -/
structure Reads (s s' : Session) : Prop where
  written : s'.line.written = s.line.written
  now : s'.line.now = s.line.now

/-- Reading sends nothing. -/
theorem Reads.sent {s s' : Session} (h : Reads s s') : s'.sent = s.sent :=
  congrArg List.length h.written

/-- A call that takes a packet from the front of the buffer. -/
private theorem takePacket_whole {s : Session} {total : Nat} (h : headOf s.bytes = .whole total) :
    s.takePacket = (.ok (some (s.rx.take total)), { s with rx := s.rx.drop total }) ∧
      s.rx.take total ≠ [] ∧ (s.rx.drop total = [] ↔ total = s.bytes.length) := by
  obtain ⟨hlow, hhigh⟩ := headOf_whole h
  have hlen : s.bytes.length = s.rx.length := List.length_map ..
  refine ⟨by rw [Session.takePacket, h], ?_, ?_⟩
  · intro hnil
    have hzero := congrArg List.length hnil
    rw [List.length_take, List.length_nil] at hzero
    omega
  · rw [List.drop_eq_nil_iff]
    omega

/-- A read that finds the front of the buffer settled returns at once. -/
private theorem readLoop_settled (turns : List Turn) {s : Session}
    (h : headOf s.bytes ≠ .fragment) :
    Reads s (Session.readLoop turns s).2 ∧
      ReadSpec s (Session.readLoop turns s).1 (Session.readLoop turns s).2 ∧
      ∀ packet, (Session.readLoop turns s).1 = .ok packet →
        ((Session.readLoop turns s).2.rx = [] ↔ CompletesExactly s.bytes turns) := by
  unfold Session.readLoop
  cases hhead : headOf s.bytes with
  | lost first second =>
      rw [Session.takePacket, hhead]
      exact ⟨⟨rfl, rfl⟩, Or.inl ⟨rfl, rfl⟩, nofun⟩
  | tooLarge total =>
      rw [Session.takePacket, hhead]
      exact ⟨⟨rfl, rfl⟩, Or.inl ⟨rfl, rfl⟩, nofun⟩
  | fragment => exact absurd hhead h
  | whole total =>
      obtain ⟨htake, hne, hempty⟩ := takePacket_whole hhead
      rw [htake, completesExactly_of_whole _ hhead]
      refine ⟨⟨rfl, rfl⟩, ⟨hne, ?_⟩, fun _ _ => hempty⟩
      rw [List.take_append_drop]
      exact Grown.refl s

/-- **One timed read.**  It writes nothing, it does to the buffer what
`ReadSpec` says, and when it returns a packet the buffer is empty afterwards
exactly if the turns complete the packet exactly. -/
theorem Session.readLoop_spec :
    ∀ (turns : List Turn) (s : Session),
      Reads s (readLoop turns s).2 ∧ ReadSpec s (readLoop turns s).1 (readLoop turns s).2 ∧
        ∀ packet, (readLoop turns s).1 = .ok packet →
          ((readLoop turns s).2.rx = [] ↔ CompletesExactly s.bytes turns) := by
  intro turns
  induction turns with
  | nil =>
      intro s
      by_cases hhead : headOf s.bytes = .fragment
      · unfold readLoop
        rw [takePacket, hhead]
        exact ⟨⟨rfl, rfl⟩, Grown.refl s, nofun⟩
      · exact readLoop_settled [] hhead
  | cons turn turns ih =>
      intro s
      by_cases hhead : headOf s.bytes = .fragment
      · unfold readLoop
        rw [takePacket, hhead, completesExactly_cons _ _ hhead]
        dsimp only
        split
        next hnil => cases hnil
        next => exact ⟨⟨rfl, rfl⟩, Or.inr (Grown.refl s), nofun⟩
        next => exact ⟨⟨rfl, rfl⟩, Or.inr (Grown.refl s), nofun⟩
        next => exact ⟨⟨rfl, rfl⟩, Or.inr (Grown.refl s), nofun⟩
        next chunk rest heq =>
          obtain ⟨rfl, rfl⟩ := List.cons.inj heq
          obtain ⟨hreads, hspec, hempty⟩ := ih (s.receive chunk)
          refine ⟨⟨hreads.written, hreads.now⟩, hspec.of_receive, ?_⟩
          simpa only [bytes_receive, delivered, List.append_nil] using hempty
        next kind rest heq =>
          obtain ⟨rfl, rfl⟩ := List.cons.inj heq
          split
          next => simpa only [delivered, List.append_nil] using ih s
          next =>
            split
            next => exact ⟨⟨rfl, rfl⟩, Or.inr (Grown.refl s), nofun⟩
            next => exact ⟨⟨rfl, rfl⟩, Or.inr (Grown.refl s), nofun⟩
      · exact readLoop_settled (turn :: turns) hhead

/-! ## Draining -/

/-- Buffering what has arrived appends it. By induction on what is at hand: a closed connection or
an error stops it, an interrupted read is made again, and a read that would block ends it well. -/
theorem Session.bufferNow_spec :
    ∀ (now : List Answer) (s : Session),
      (bufferNow now s).2.line.written = s.line.written ∧
        (bufferNow now s).2.line.turns = s.line.turns ∧ Grown s (bufferNow now s).2.rx ∧
        ((bufferNow now s).1 = .ok () → (bufferNow now s).2.bytes = s.bytes ++ arrived now) := by
  intro now
  induction now with
  | nil => intro s; exact ⟨rfl, rfl, Grown.refl s, nofun⟩
  | cons answer now ih =>
      intro s
      cases answer with
      | closed => exact ⟨rfl, rfl, Grown.refl s, nofun⟩
      | data chunk =>
          obtain ⟨hwritten, hturns, hgrown, hbytes⟩ := ih (s.receive chunk)
          refine ⟨hwritten, hturns, hgrown.of_receive, ?_⟩
          intro hok
          rw [arrived, ← List.append_assoc, ← bytes_receive]
          exact hbytes hok
      | err kind =>
          unfold bufferNow
          by_cases hblock : kind = .wouldBlock
          · rw [if_pos hblock]
            refine ⟨rfl, rfl, Grown.refl s, fun _ => ?_⟩
            simp only [arrived, hblock]
            exact (List.append_nil _).symm
          · rw [if_neg hblock]
            by_cases hagain : kind = .interrupted
            · rw [if_pos hagain]
              simpa only [arrived, hagain, if_true] using ih s
            · rw [if_neg hagain]
              exact ⟨rfl, rfl, Grown.refl s, nofun⟩

/-- Dropping whole packets leaves the end of the buffer. By induction on the fuel, one packet off
the front in each round. -/
theorem Session.discardWhole_spec :
    ∀ (fuel : Nat) (s : Session),
      (discardWhole fuel s).2.line = s.line ∧
        (∃ front, s.rx = front ++ (discardWhole fuel s).2.rx) ∧
        ((discardWhole fuel s).1 = .ok () →
          (discardWhole fuel s).2.bytes = remainderFrom fuel s.bytes) := by
  intro fuel
  induction fuel with
  | zero => intro s; exact ⟨rfl, ⟨[], rfl⟩, fun _ => rfl⟩
  | succ fuel ih =>
      intro s
      unfold discardWhole takePacket remainderFrom
      cases hhead : headOf s.bytes with
      | lost first second => exact ⟨rfl, ⟨s.rx, (List.append_nil _).symm⟩, nofun⟩
      | tooLarge total => exact ⟨rfl, ⟨s.rx, (List.append_nil _).symm⟩, nofun⟩
      | fragment => exact ⟨rfl, ⟨[], rfl⟩, fun _ => rfl⟩
      | whole total =>
          obtain ⟨hline, ⟨front, hfront⟩, hbytes⟩ :=
            ih { s with rx := s.rx.drop total, discarded := s.discarded + 1 }
          refine ⟨hline, ⟨s.rx.take total ++ front, ?_⟩, ?_⟩
          · rw [List.append_assoc, ← hfront]
            exact (List.take_append_drop total s.rx).symm
          · simpa only [Session.bytes, List.map_drop] using hbytes

/-- The loop stops by itself: its fuel is never what ends it. Each round takes at least a byte,
and the fuel is the length of the buffer. -/
theorem headOf_remainderFrom :
    ∀ (fuel : Nat) (bytes : Octets) (total : Nat), bytes.length ≤ fuel →
      headOf (remainderFrom fuel bytes) ≠ .whole total := by
  intro fuel
  induction fuel with
  | zero =>
      intro bytes total hfuel hwhole
      obtain ⟨hlow, hhigh⟩ := headOf_whole hwhole
      simp only [remainderFrom] at hhigh
      omega
  | succ fuel ih =>
      intro bytes total hfuel
      unfold remainderFrom
      split
      next size hsize =>
        obtain ⟨hlow, hhigh⟩ := headOf_whole hsize
        exact ih _ total (by rw [List.length_drop]; omega)
      next hother => exact fun hwhole => hother total hwhole

/-- A call may write, and what it leaves in the buffer was there or came in no
later than its last write. -/
structure Advances (s s' : Session) : Prop where
  sent : s.sent ≤ s'.sent
  rx : ∀ r ∈ s'.rx, r ∈ s.rx ∨ r.sends ≤ s'.sent

/-- Nothing was done. -/
theorem Advances.refl (s : Session) : Advances s s := ⟨Nat.le_refl _, fun _ h => Or.inl h⟩

/-- What came over two stretches came over both. -/
theorem Advances.trans {s s' s'' : Session} (h : Advances s s') (h' : Advances s' s'') :
    Advances s s'' := by
  refine ⟨Nat.le_trans h.sent h'.sent, ?_⟩
  intro r hr
  rcases h'.rx r hr with hr | hr
  · rcases h.rx r hr with hr | hr
    · exact Or.inl hr
    · exact Or.inr (Nat.le_trans hr h'.sent)
  · exact Or.inr hr

/-- Bytes that came, less some that were taken, are still bytes that came. -/
theorem Grown.advances {s s' : Session} {xs : List Received} (h : Grown s xs)
    (hsent : s'.sent = s.sent) (hsub : ∀ r ∈ s'.rx, r ∈ xs) : Advances s s' := by
  obtain ⟨extra, rfl, hextra⟩ := h
  refine ⟨Nat.le_of_eq hsent.symm, ?_⟩
  intro r hr
  rcases List.mem_append.mp (hsub r hr) with hr | hr
  · exact Or.inl hr
  · exact Or.inr (by rw [hextra r hr, hsent])

/-- Reading a packet takes bytes away, and may let more come. A packet goes off the front of the
buffer, an error drops the whole of it or nothing. -/
theorem Session.readPacket_advances (s : Session) : Advances s s.readPacket.2 := by
  obtain ⟨hreads, hspec, -⟩ := readLoop_spec s.line.turns s
  have hsent : s.readPacket.2.sent = s.sent := hreads.sent
  have hspec : ReadSpec s s.readPacket.1 s.readPacket.2 := hspec
  match hout : s.readPacket.1 with
  | .ok packet =>
      rw [hout] at hspec
      exact hspec.2.advances hsent fun r hr => List.mem_append.mpr (Or.inr hr)
  | .failed e =>
      rw [hout] at hspec
      rcases hspec with ⟨hnil, -⟩ | hgrown
      · exact ⟨Nat.le_of_eq hsent.symm, by rw [hnil]; nofun⟩
      · exact hgrown.advances hsent fun r hr => hr
  | .panicked =>
      rw [hout] at hspec
      exact Grown.advances hspec hsent fun r hr => hr
  | .waiting =>
      rw [hout] at hspec
      exact Grown.advances hspec hsent fun r hr => hr

/-- What a successful drain has gone through: the buffering, the dropping, and
for a fragment the read that completes it. -/
theorem Session.drain_cases {s s' : Session} (h : s.drain = (.ok (), s')) :
    ∃ s₁ s₂, bufferNow s.line.now s = (.ok (), s₁) ∧
      discardWhole s₁.rx.length s₁ = (.ok (), s₂) ∧
      ((s₂.rx = [] ∧ s' = s₂) ∨
        (s₂.rx ≠ [] ∧ ∃ packet s₃, s₂.readPacket = (.ok packet, s₃) ∧
          s' = { s₃ with discarded := s₃.discarded + 1 })) := by
  unfold drain at h
  split at h
  next s₁ hbuffer =>
    split at h
    next => cases h
    next s₂ hdiscard =>
      refine ⟨s₁, s₂, hbuffer, hdiscard, ?_⟩
      split at h
      next hnil =>
        cases h
        exact Or.inl ⟨hnil, rfl⟩
      next hne =>
        split at h
        next packet s₃ hread =>
          cases h
          exact Or.inr ⟨hne, packet, s₃, hread, rfl⟩
        next => cases h
        next => cases h
        next => cases h
  next out s₁ hnot hbuffer =>
    cases h
    exact absurd rfl hnot

/-- **What a drain leaves.**  A drain that succeeds has written nothing, and
leaves the buffer empty exactly on a clean line. -/
theorem Session.drain_ok {s s' : Session} (h : s.drain = (.ok (), s')) :
    s'.sent = s.sent ∧ (s'.rx = [] ↔ Clean s) := by
  obtain ⟨s₁, s₂, hbuffer, hdiscard, hrest⟩ := drain_cases h
  obtain ⟨hwritten₁, hturns₁, -, hbytes₁⟩ := bufferNow_spec s.line.now s
  obtain ⟨hline₂, -, hbytes₂⟩ := discardWhole_spec s₁.rx.length s₁
  rw [hbuffer] at hwritten₁ hturns₁ hbytes₁
  rw [hdiscard] at hline₂ hbytes₂
  have hwritten₂ : s₂.line.written = s.line.written := by rw [hline₂, hwritten₁]
  have hleft : s₂.bytes = remainder (s.bytes ++ arrived s.line.now) := by
    have hlen : s₁.rx.length = s₁.bytes.length := (List.length_map ..).symm
    rw [hbytes₂ rfl, hlen, hbytes₁ rfl, remainder]
  have hturns₂ : s₂.line.turns = s.line.turns := by rw [hline₂, hturns₁]
  unfold Clean
  rw [← hleft, ← hturns₂]
  have hnil : s₂.bytes = [] ↔ s₂.rx = [] := List.map_eq_nil_iff
  rcases hrest with ⟨hempty, rfl⟩ | ⟨hne, packet, s₃, hread, rfl⟩
  · refine ⟨congrArg List.length hwritten₂, ?_⟩
    simp only [hempty, hnil, true_or]
  · obtain ⟨hreads, -, hexact⟩ := readLoop_spec s₂.line.turns s₂
    have hread' : readLoop s₂.line.turns s₂ = (.ok packet, s₃) := hread
    rw [hread'] at hreads hexact
    refine ⟨hreads.sent.trans (congrArg List.length hwritten₂), ?_⟩
    have hiff := hexact packet rfl
    simp only [hnil, hne, false_or]
    exact hiff

/-- Looking at what is there lets bytes come. -/
theorem Session.bufferNow_advances (now : List Answer) (s : Session) :
    Advances s (bufferNow now s).2 := by
  obtain ⟨hwritten, -, hgrown, -⟩ := bufferNow_spec now s
  exact hgrown.advances (congrArg List.length hwritten) fun r hr => hr

/-- Discarding whole packets takes bytes away. -/
theorem Session.discardWhole_advances (fuel : Nat) (s : Session) :
    Advances s (discardWhole fuel s).2 := by
  obtain ⟨hline, ⟨front, hfront⟩, -⟩ := discardWhole_spec fuel s
  refine ⟨by rw [sent, sent, hline], ?_⟩
  intro r hr
  rw [hfront]
  exact Or.inl (List.mem_append.mpr (Or.inr hr))

/-- So the whole drain only lets bytes come and takes some away. It is what has arrived, the whole
packets in it, and one more read for a fragment that is left. -/
theorem Session.drain_advances (s : Session) : Advances s s.drain.2 := by
  have hbuffer := bufferNow_advances s.line.now s
  unfold drain
  split
  next s₁ heq =>
    rw [heq] at hbuffer
    have hdiscard := discardWhole_advances s₁.rx.length s₁
    split
    next e s₂ heq₂ =>
      rw [heq₂] at hdiscard
      exact hbuffer.trans hdiscard
    next s₂ heq₂ =>
      rw [heq₂] at hdiscard
      have hread := s₂.readPacket_advances
      split
      next => exact hbuffer.trans hdiscard
      next =>
        have hall := hbuffer.trans (hdiscard.trans hread)
        split
        next heq₃ => rw [heq₃] at hall; exact ⟨hall.sent, hall.rx⟩
        next heq₃ => rw [heq₃] at hall; exact hall
        next heq₃ => rw [heq₃] at hall; exact hall
        next heq₃ => rw [heq₃] at hall; exact hall
  next out s₁ _ heq =>
    rw [heq] at hbuffer
    exact hbuffer

/-! ## Sending -/

/-- So does waiting for the line to settle. By induction on the clock, with one read for each tick
until the time is up or a read fails. -/
theorem Session.absorbLoop_advances :
    ∀ (clock : List Bool) (s : Session), Advances s (absorbLoop clock s).2 := by
  intro clock
  induction clock with
  | nil => intro s; exact ⟨Nat.le_refl _, fun _ h => Or.inl h⟩
  | cons up clock ih =>
      intro s
      cases up with
      | true => exact ⟨Nat.le_refl _, fun _ h => Or.inl h⟩
      | false =>
          have hread := s.readPacket_advances
          unfold absorbLoop
          split
          next packet s₁ heq =>
            rw [heq] at hread
            have hcount : Advances s { s₁ with discarded := s₁.discarded + 1 } :=
              ⟨hread.sent, hread.rx⟩
            exact hcount.trans (ih _)
          next heq => rw [heq] at hread; exact ⟨hread.sent, hread.rx⟩
          next heq => rw [heq] at hread; exact hread
          next heq => rw [heq] at hread; exact hread

/-- Writing logs what is written, if it succeeds, and does nothing else to the
buffer. -/
theorem Session.writeAll_spec (s : Session) (bytes : Octets) :
    (s.writeAll bytes).2.rx = s.rx ∧
      ((s.writeAll bytes).1 = .ok () → (s.writeAll bytes).2.sent = s.sent + 1) ∧
      s.sent ≤ (s.writeAll bytes).2.sent := by
  unfold writeAll
  split
  next => exact ⟨rfl, nofun, Nat.le_refl _⟩
  next =>
    have hone : (s.line.written ++ [bytes]).length = s.line.written.length + 1 :=
      List.length_append
    exact ⟨rfl, fun _ => hone, by simp only [sent, hone]; omega⟩
  next => exact ⟨rfl, nofun, Nat.le_refl _⟩

/-- A packet taken after a send, with what is left of the buffer. -/
def ReplySpec (s : Session) (packet : List Received) : Prop :=
  packet ≠ [] ∧ ∃ tail extra, packet ++ tail = s.rx ++ extra ∧ ∀ r ∈ extra, s.sent < r.sends

/-- **Send and wait.**  The packet returned starts with what was in the buffer
before, and the rest of it came in after the first send. -/
theorem Session.sendLoop_spec (encode : UInt16 → Exec Lan.LanError Octets) (more : Nat) :
    ∀ (resent : Nat) (s : Session),
      Advances s (sendLoop encode more resent s).2 ∧
        ∀ packet, (sendLoop encode more resent s).1 = .ok packet → ReplySpec s packet := by
  induction more using Nat.strongRecOn with
  | _ more ih =>
      intro resent s
      unfold sendLoop
      split
      next => exact ⟨Advances.refl s, nofun⟩
      next => exact ⟨Advances.refl s, nofun⟩
      next bytes _ =>
        obtain ⟨hrx, hsent, hle⟩ := s.bumpPacketId.writeAll_spec bytes
        have hwrite : Advances s (s.bumpPacketId.writeAll bytes).2 :=
          ⟨hle, fun r hr => Or.inl (hrx ▸ hr)⟩
        split
        next heq => rw [heq] at hwrite; exact ⟨hwrite, nofun⟩
        next heq => rw [heq] at hwrite; exact ⟨hwrite, nofun⟩
        next heq => rw [heq] at hwrite; exact ⟨hwrite, nofun⟩
        next s₁ heq =>
          rw [heq] at hwrite hrx hsent
          have hrx₁ : s₁.rx = s.rx := hrx
          have hsent₁ : s₁.sent = s.sent + 1 := hsent rfl
          have hread := hwrite.trans s₁.readPacket_advances
          obtain ⟨hreads, hspec, -⟩ := readLoop_spec s₁.line.turns s₁
          have hspec : ReadSpec s₁ s₁.readPacket.1 s₁.readPacket.2 := hspec
          have hsent₂ : s₁.readPacket.2.sent = s.sent + 1 := hreads.sent.trans hsent₁
          split
          next packet s₂ heq₂ =>
            rw [heq₂] at hread hspec
            obtain ⟨hne, extra, hextra, hat⟩ := hspec
            have hreply : ReplySpec s packet := by
              refine ⟨hne, s₂.rx, extra, by rw [hextra, hrx₁], ?_⟩
              intro r hr
              rw [hat r hr, hsent₁]
              exact Nat.lt_succ_self _
            have hdone : ∀ p, Outcome.ok packet = .ok p → ReplySpec s p := by
              rintro p ⟨⟩
              exact hreply
            split
            next => exact ⟨hread, hdone⟩
            next =>
              have hcount : Advances s { s₂ with resends := s₂.resends + resent } :=
                ⟨hread.sent, hread.rx⟩
              have habsorb := hcount.trans (absorbLoop_advances s₂.line.clock _)
              dsimp only
              split
              next heq₃ => rw [heq₃] at habsorb; exact ⟨habsorb, hdone⟩
              next heq₃ => rw [heq₃] at habsorb; exact ⟨habsorb, nofun⟩
              next heq₃ => rw [heq₃] at habsorb; exact ⟨habsorb, nofun⟩
              next heq₃ => rw [heq₃] at habsorb; exact ⟨habsorb, nofun⟩
          next e s₂ heq₂ =>
            rw [heq₂] at hread hspec hsent₂
            split
            next => exact ⟨hread, nofun⟩
            next more =>
              split
              next htimeout =>
                -- Silence: what came in meanwhile stays in front of the next send.
                obtain ⟨hagain, hreply⟩ := ih more (Nat.lt_succ_self _) (resent + 1) s₂
                refine ⟨hread.trans hagain, ?_⟩
                intro packet hpacket
                obtain ⟨hne, tail, late, hlate, hafter⟩ := hreply packet hpacket
                rcases hspec with ⟨-, hno⟩ | ⟨extra, hextra, hat⟩
                · rw [htimeout] at hno
                  cases hno
                · refine ⟨hne, tail, extra ++ late, ?_, ?_⟩
                  · rw [hlate, hextra, hrx₁, List.append_assoc]
                  · intro r hr
                    rcases List.mem_append.mp hr with hr | hr
                    · rw [hat r hr, hsent₁]
                      exact Nat.lt_succ_self _
                    · have hlt := hafter r hr
                      have hs₂ : s₂.sent = s.sent + 1 := hsent₂
                      omega
              next => exact ⟨hread, nofun⟩
          next heq₂ => rw [heq₂] at hread; exact ⟨hread, nofun⟩
          next heq₂ => rw [heq₂] at hread; exact ⟨hread, nofun⟩

variable (P : Primitives)

/-- The wait for a reply lets bytes come and takes some away, like everything it is made of. -/
theorem Session.takeReply_advances (s : Session) (key : Arr 32) (packet : Octets) :
    Advances s (s.takeReply P key packet).2 := by
  have hdrain := s.drain_advances
  unfold takeReply
  split
  next s₁ heq =>
    rw [heq] at hdrain
    exact hdrain.trans (sendLoop_spec _ _ _ s₁).1
  next heq => rw [heq] at hdrain; exact hdrain
  next heq => rw [heq] at hdrain; exact hdrain
  next heq => rw [heq] at hdrain; exact hdrain

/-- Every byte in the buffer came in before the next request. -/
def Stamped (s : Session) : Prop := ∀ r ∈ s.rx, r.sends ≤ s.sent

/-- So every byte keeps its mark, of what had been sent when it came. -/
theorem Stamped.advances {s s' : Session} (h : Stamped s) (hadv : Advances s s') : Stamped s' := by
  intro r hr
  rcases hadv.rx r hr with hr | hr
  · exact Nat.le_trans (h r hr) hadv.sent
  · exact hr

/-- Every byte of a reply came in after the request that was sent from `s`. -/
def Fresh (s : Session) (reply : List Received) : Prop := ∀ r ∈ reply, s.sent < r.sends

/-- **A reply is fresh exactly on a clean line.**  On any other, its first byte
came in before the request. -/
theorem Session.takeReply_fresh {s s' : Session} {key : Arr 32} {packet : Octets}
    {reply : List Received} (hstamped : Stamped s)
    (h : s.takeReply P key packet = (.ok reply, s')) : Fresh s reply ↔ Clean s := by
  unfold takeReply at h
  split at h
  next s₁ hdrain =>
    obtain ⟨hsent, hclean⟩ := drain_ok hdrain
    have hadv := s.drain_advances
    rw [hdrain] at hadv
    have hstamped₁ : Stamped s₁ := hstamped.advances hadv
    obtain ⟨hne, tail, extra, hreply, hafter⟩ :=
      (sendLoop_spec (fun packetId => Lan.encodeRequest P key packetId packet 0)
        (s₁.sends - 1) 0 s₁).2 reply (congrArg Prod.fst h)
    rw [← hclean]
    constructor
    · intro hfresh
      -- A byte left in the buffer would be the first of the reply.
      by_contra hleft
      obtain ⟨r, rest, hr⟩ := List.exists_cons_of_ne_nil hleft
      obtain ⟨first, more, hfirst⟩ := List.exists_cons_of_ne_nil hne
      rw [hr, hfirst, List.cons_append, List.cons_append] at hreply
      obtain rfl := (List.cons.inj hreply).1
      have hold := hstamped₁ first (by rw [hr]; exact List.mem_cons_self)
      have hnew := hfresh first (by rw [hfirst]; exact List.mem_cons_self)
      omega
    · intro hempty r hr
      rw [hempty, List.nil_append] at hreply
      have hmem : r ∈ extra := by
        rw [← hreply]
        exact List.mem_append.mpr (Or.inl hr)
      have hlt := hafter r hmem
      omega
  next => cases h
  next => cases h
  next => cases h

/-- A request sends, and reads its reply. -/
theorem Session.request_advances (s : Session) (packet : Octets) :
    Advances s (s.request P packet).2 := by
  unfold request
  split
  next => exact Advances.refl s
  next key _ =>
    have htake := s.takeReply_advances P key packet
    split
    next heq =>
      rw [heq] at htake
      split <;> exact htake
    next heq => rw [heq] at htake; exact htake
    next heq => rw [heq] at htake; exact htake
    next heq => rw [heq] at htake; exact htake

/-- A handshake does so twice. It clears the buffer, sends its token, and reads the answer, so
that nothing from before it is taken for that answer. -/
theorem Session.authenticate_advances (s : Session) (token : Octets) (key : Arr 32) :
    Advances s (s.authenticate P token key).2 := by
  have hclear : Advances s { s with rx := [] } := ⟨Nat.le_refl _, nofun⟩
  have hsend := hclear.trans (sendLoop_spec
    (fun packetId => .ok (Lan.encodeHandshake packetId token)) (s.sends - 1) 0
    { s with rx := [] }).1
  have hsend : Advances s (({ s with rx := [] } : Session).sendAndWait
    fun packetId => .ok (Lan.encodeHandshake packetId token)).2 := hsend
  unfold authenticate
  split
  next heq =>
    rw [heq] at hsend
    split
    next =>
      split
      next => exact ⟨hsend.sent, hsend.rx⟩
      next => exact hsend
      next => exact hsend
    next => exact hsend
    next => exact hsend
    next => exact hsend
  next heq => rw [heq] at hsend; exact hsend
  next heq => rw [heq] at hsend; exact hsend
  next heq => rw [heq] at hsend; exact hsend

/-! ## Runs -/

/-- A session over a line, before its handshake. -/
def Session.new (sends : Nat) (line : Line) : Session := { sends := sends, line := line }

/-- What a session is asked to do. -/
inductive Op where
  | authenticate (token : Octets) (key : Arr 32)
  | request (packet : Octets)

/-- A request of a run: the session it found, and the packet it took as its
reply. -/
structure Taken where
  before : Session
  reply : Outcome (List Received)

/-- The requests of a run.  A call that does not come back ends it. -/
def run : List Op → Session → List Taken
  | [], _ => []
  | .authenticate token key :: ops, s =>
      match s.authenticate P token key with
      | (.ok (), s) => run ops s
      | (.failed _, s) => run ops s
      | (.panicked, _) => []
      | (.waiting, _) => []
  | .request packet :: ops, s =>
      let reply :=
        match s.sessionKey with
        | none => .failed .notAuthenticated
        | some key => (s.takeReply P key packet).1
      ⟨s, reply⟩ ::
        match s.request P packet with
        | (.ok _, s) => run ops s
        | (.failed _, s) => run ops s
        | (.panicked, _) => []
        | (.waiting, _) => []

/-- A run keeps its stamps in order, and each of its replies was taken from the
session before it. -/
private theorem run_stamped :
    ∀ (ops : List Op) (s : Session), Stamped s →
      ∀ taken ∈ run P ops s, Stamped taken.before ∧
        ∀ reply, taken.reply = .ok reply → ∃ key packet s',
          taken.before.takeReply P key packet = (.ok reply, s') := by
  intro ops
  induction ops with
  | nil => intro s _ taken htaken; cases htaken
  | cons op ops ih =>
      intro s hstamped taken htaken
      cases op with
      | authenticate token key =>
          have hadv := s.authenticate_advances P token key
          unfold run at htaken
          split at htaken
          next heq => rw [heq] at hadv; exact ih _ (hstamped.advances hadv) taken htaken
          next heq => rw [heq] at hadv; exact ih _ (hstamped.advances hadv) taken htaken
          next => cases htaken
          next => cases htaken
      | request packet =>
          have hadv := s.request_advances P packet
          unfold run at htaken
          rcases List.mem_cons.mp htaken with rfl | htaken
          · refine ⟨hstamped, ?_⟩
            intro reply hreply
            dsimp only at hreply
            split at hreply
            next => cases hreply
            next key _ => exact ⟨key, packet, _, Prod.ext hreply rfl⟩
          · split at htaken
            next heq => rw [heq] at hadv; exact ih _ (hstamped.advances hadv) taken htaken
            next heq => rw [heq] at hadv; exact ih _ (hstamped.advances hadv) taken htaken
            next => cases htaken
            next => cases htaken

/-- **No stale reply, exactly on a clean line.**  In every run of a new session
over any line, whatever is asked of it and however the line splits and times
what it delivers: a drain that succeeds leaves the buffer empty, and a reply that
is taken is fresh, exactly if the line was clean when the request came. -/
theorem replies_fresh_iff (sends : Nat) (line : Line) (ops : List Op) :
    ∀ taken ∈ run P ops (Session.new sends line),
      (∀ s', taken.before.drain = (.ok (), s') → (s'.rx = [] ↔ Clean taken.before)) ∧
        ∀ reply, taken.reply = .ok reply → (Fresh taken.before reply ↔ Clean taken.before) := by
  intro taken htaken
  have hnew : Stamped (Session.new sends line) := nofun
  obtain ⟨hstamped, hreply⟩ := run_stamped P ops _ hnew taken htaken
  refine ⟨fun s' hdrain => (Session.drain_ok hdrain).2, ?_⟩
  intro reply hok
  obtain ⟨key, packet, s', htake⟩ := hreply reply hok
  exact Session.takeReply_fresh P hstamped htake

/-- The key material of a handshake reply that is all zero, as AES decrypts it. -/
def handshakePlain : Octets :=
  [103, 103, 28, 225, 250, 145, 221, 235, 15, 143, 187, 179, 102, 181, 49, 180, 103, 103, 28,
   225, 250, 145, 221, 235, 15, 143, 187, 179, 102, 181, 49, 180]

/-- Its SHA-256 digest. -/
def handshakeDigest : Octets :=
  [142, 221, 101, 221, 219, 31, 153, 195, 224, 77, 143, 208, 145, 42, 115, 155, 225, 140, 109,
   104, 51, 227, 165, 102, 140, 45, 13, 166, 85, 112, 172, 238]

/-- A block of zeros decrypted under the key of the unit, and the payload of a request
encrypted under the session key. -/
def sessionBlocks : List (Arr 16 × Arr 16) :=
  [(⟨[103, 103, 28, 225, 250, 145, 221, 235, 15, 143, 187, 179, 102, 181, 49, 180], rfl⟩,
      ⟨[0, 0, 0, 0, 0, 0, 0, 0, 0, 0, 0, 0, 0, 0, 0, 0], rfl⟩),
    (⟨[0, 2, 0, 0, 0, 0, 0, 0, 0, 0, 0, 0, 0, 0, 0, 0], rfl⟩,
      ⟨[175, 170, 157, 160, 246, 176, 94, 251, 82, 209, 202, 150, 42, 125, 194, 123], rfl⟩)]

/-- The crates, on this handshake and the request after it. -/
def sessionPrimitives : Primitives where
  md5 _ := Arr.zero 16
  sha256 data :=
    if data = handshakePlain then ⟨handshakeDigest, rfl⟩
    else
      ⟨[180, 223, 66, 15, 97, 89, 232, 222, 180, 174, 123, 115, 107, 139, 107, 238, 109, 54, 192,
        4, 67, 122, 246, 165, 15, 48, 107, 164, 240, 149, 139, 140], rfl⟩
  aes128Encrypt _ block := block
  aes128Decrypt _ block := block
  aes256Encrypt _ := exchanging sessionBlocks
  aes256Decrypt _ := (exchanging sessionBlocks).symm

/-- A handshake reply with zeros for its key material. -/
def zeroHandshake : Chunk where
  bytes := [0x83, 0x70, 0x00, 0x40, 0x20, 0x01, 0x00, 0x00] ++ List.replicate 32 0 ++
    handshakeDigest
  nonempty := by simp
  fits := by decide

/-- An eight-byte packet, the shortest there is. -/
def shortPacket : Chunk where
  bytes := [0x83, 0x70, 0x00, 0x00, 0x20, 0x03, 0x00, 0x00]
  nonempty := by simp
  fits := by decide

/-- The first four bytes of a packet. -/
def packetFront : Chunk where
  bytes := [0x83, 0x70, 0x00, 0x00]
  nonempty := by simp
  fits := by decide

/-- The other four bytes of it, with the next packet right behind. -/
def packetRestAndNext : Chunk where
  bytes := [0x20, 0x03, 0x00, 0x00] ++ shortPacket.bytes
  nonempty := by simp
  fits := by decide

/-- A line with a whole stale packet on it when the request comes. -/
def wholeStaleLine : Line where
  now := [.data shortPacket, .err .wouldBlock]
  turns := [.answer (.data zeroHandshake), .answer (.data shortPacket)]
  writes := [none, none]

/-- The stale packet is dropped and the reply is the next one. -/
theorem replies_fresh_whole_packet :
    ∃ taken ∈ run sessionPrimitives [.authenticate [1] (Arr.zero 32), .request []]
        (Session.new 3 wholeStaleLine),
      (∀ s', taken.before.drain = (.ok (), s') → (s'.rx = [] ↔ Clean taken.before)) ∧
        ∀ reply, taken.reply = .ok reply →
          (Fresh taken.before reply ↔ Clean taken.before) := by
  have hlen : 0 < (run sessionPrimitives [.authenticate [1] (Arr.zero 32), .request []]
      (Session.new 3 wholeStaleLine)).length := by decide +kernel
  exact ⟨_, List.get_mem _ ⟨0, hlen⟩, replies_fresh_iff sessionPrimitives 3 wholeStaleLine
    [.authenticate [1] (Arr.zero 32), .request []] _ (List.get_mem _ ⟨0, hlen⟩)⟩

/-- A line with half a stale packet on it, the read that completes it bringing
in a whole further one. -/
def splitStaleLine : Line where
  now := [.data packetFront, .err .wouldBlock]
  turns := [.answer (.data zeroHandshake), .answer (.data packetRestAndNext)]
  writes := [none, none]

instance (s : Session) : DecidablePred (Fresh s) :=
  fun reply => inferInstanceAs (Decidable (∀ r ∈ reply, s.sent < r.sends))

/-- A reply was taken, and it is stale. -/
def tookStale (taken : Taken) : Bool :=
  match taken.reply with
  | .ok reply => !decide (Fresh taken.before reply)
  | _ => false

/-- On that line the further packet becomes the reply. -/
theorem reply_stale_after_split :
    ¬ ∀ (P : Primitives) (sends : Nat) (line : Line) (ops : List Op),
      ∀ taken ∈ run P ops (Session.new sends line),
        (∀ s', taken.before.drain = (.ok (), s') → s'.rx = []) ∧
          ∀ reply, taken.reply = .ok reply → Fresh taken.before reply := by
  intro h
  have hstale : (run sessionPrimitives [.authenticate [1] (Arr.zero 32), .request []]
      (Session.new 3 splitStaleLine)).any tookStale = true := by decide +kernel
  obtain ⟨taken, htaken, hbad⟩ := List.any_eq_true.mp hstale
  have hfresh := (h _ _ _ _ taken htaken).2
  unfold tookStale at hbad
  split at hbad
  next reply hreply => simp [hfresh reply hreply] at hbad
  next => cases hbad

end BreezeDevice
