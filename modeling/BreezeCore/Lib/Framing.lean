import Mathlib.Data.List.Basic

/-!
# Packets out of a stream

A framer tells from the front of a buffer where the first packet ends, and does
not change its mind when more arrives.  `split` is what it makes of a whole
stream: the packets, the error that stopped it, and what is left over.  `next` is
a reader that looks at its buffer, asks for more when there is no packet in it,
and may be told to come back later; `run` calls it again and again.

`run_eq_split`: whatever way the stream is cut into arrivals, and whenever the
reader was put off, the calls together make of it what `split` does.
-/

namespace Framing

variable {A E : Type}

/-- What the front of a buffer is. -/
inductive Verdict (E : Type) where
  /-- Nothing that can be told yet. -/
  | more
  /-- Not a packet. -/
  | bad (e : E)
  /-- A packet of so many elements. -/
  | whole (n : Nat)
  deriving DecidableEq

structure Framer (A E : Type) where
  head : List A → Verdict E
  whole_le : ∀ {xs n}, head xs = .whole n → 0 < n ∧ n ≤ xs.length
  stable : ∀ {xs} ys, head xs ≠ .more → head (xs ++ ys) = head xs

/-- What is made of a stream. -/
structure Split (A E : Type) where
  packets : List (List A)
  error : Option E
  rest : List A

/-- One packet before the others. -/
def Split.after (packet : List A) (r : Split A E) : Split A E :=
  { r with packets := packet :: r.packets }

namespace Framer

variable (F : Framer A E)

/-- The packets of a stream that ends with `ending`. -/
def split (ending : Option E) (xs : List A) : Split A E :=
  match _h : F.head xs with
  | .more => ⟨[], ending, xs⟩
  | .bad e => ⟨[], some e, []⟩
  | .whole n => (split ending (xs.drop n)).after (xs.take n)
termination_by xs.length
decreasing_by
  have hle := F.whole_le _h
  rw [List.length_drop]
  omega

variable {F} {xs ys : List A}

theorem split_more (ending : Option E) (h : F.head xs = .more) :
    F.split ending xs = ⟨[], ending, xs⟩ := by
  rw [split]
  split <;> simp_all

theorem split_bad {e : E} (ending : Option E) (h : F.head xs = .bad e) :
    F.split ending xs = ⟨[], some e, []⟩ := by
  rw [split]
  split <;> simp_all

theorem split_whole {n : Nat} (ending : Option E) (h : F.head xs = .whole n) :
    F.split ending xs = (F.split ending (xs.drop n)).after (xs.take n) := by
  rw [split]
  split <;> simp_all

/-- **Packets and nothing else** are taken apart as they were put together. -/
theorem split_flatten (ending : Option E) (hnil : F.head [] = .more) {packets : List (List A)}
    (h : ∀ packet ∈ packets, F.head packet = .whole packet.length) :
    F.split ending packets.flatten = ⟨packets, ending, []⟩ := by
  induction packets with
  | nil => exact split_more ending hnil
  | cons packet packets ih =>
      have hhead : F.head (packet ++ packets.flatten) = .whole packet.length := by
        have hpacket := h packet List.mem_cons_self
        rw [F.stable _ (by rw [hpacket]; exact nofun), hpacket]
      rw [List.flatten_cons, split_whole ending hhead, List.drop_left, List.take_left,
        ih fun p hp => h p (List.mem_cons_of_mem _ hp)]
      rfl

end Framer

/-! ## Reading bit by bit -/

/-- What a reader is given when it asks for more. -/
inductive Arrival (A E : Type) where
  | chunk (xs : List A)
  /-- Come back later. -/
  | pause
  /-- There will be no more. -/
  | stop (e : E)

/-- Everything that arrives. -/
def bytes : List (Arrival A E) → List A
  | [] => []
  | .chunk xs :: arrivals => xs ++ bytes arrivals
  | .pause :: arrivals => bytes arrivals
  | .stop _ :: _ => []

/-- What it ends with. -/
def ending : List (Arrival A E) → Option E
  | [] => none
  | .chunk _ :: arrivals => ending arrivals
  | .pause :: arrivals => ending arrivals
  | .stop e :: _ => some e

/-- What one call brings. -/
inductive Got (A E : Type) where
  | packet (xs : List A)
  | pause
  | stopped (e : E)
  | nothing

namespace Framer

variable (F : Framer A E)

/-- One call: the buffer is looked at first, and again after every arrival. -/
def next : List (Arrival A E) → List A → Got A E × List A × List (Arrival A E)
  | arrivals, buffer =>
      match F.head buffer with
      | .bad e => (.stopped e, [], arrivals)
      | .whole n => (.packet (buffer.take n), buffer.drop n, arrivals)
      | .more =>
          match arrivals with
          | [] => (.nothing, buffer, [])
          | .pause :: arrivals => (.pause, buffer, arrivals)
          | .stop e :: arrivals => (.stopped e, buffer, arrivals)
          | .chunk xs :: arrivals => next arrivals (buffer ++ xs)

/-- At most so many calls, up to the first error. -/
def run : Nat → List (Arrival A E) → List A → Split A E
  | 0, _, buffer => ⟨[], none, buffer⟩
  | n + 1, arrivals, buffer =>
      match F.next arrivals buffer with
      | (.packet packet, buffer, arrivals) => (run n arrivals buffer).after packet
      | (.pause, buffer, arrivals) => run n arrivals buffer
      | (.stopped e, buffer, _) => ⟨[], some e, buffer⟩
      | (.nothing, buffer, _) => ⟨[], none, buffer⟩

variable {F}

section Next

variable {buffer : List A}

theorem next_bad {e : E} (h : F.head buffer = .bad e) (arrivals : List (Arrival A E)) :
    F.next arrivals buffer = (.stopped e, [], arrivals) := by
  unfold next
  rw [h]

theorem next_whole {n : Nat} (h : F.head buffer = .whole n) (arrivals : List (Arrival A E)) :
    F.next arrivals buffer = (.packet (buffer.take n), buffer.drop n, arrivals) := by
  unfold next
  rw [h]

theorem next_nil (h : F.head buffer = .more) : F.next [] buffer = (.nothing, buffer, []) := by
  unfold next
  rw [h]

theorem next_pause (h : F.head buffer = .more) (arrivals : List (Arrival A E)) :
    F.next (.pause :: arrivals) buffer = (.pause, buffer, arrivals) := by
  unfold next
  rw [h]

theorem next_stop (h : F.head buffer = .more) (e : E) (arrivals : List (Arrival A E)) :
    F.next (.stop e :: arrivals) buffer = (.stopped e, buffer, arrivals) := by
  unfold next
  rw [h]

theorem next_chunk (h : F.head buffer = .more) (xs : List A) (arrivals : List (Arrival A E)) :
    F.next (.chunk xs :: arrivals) buffer = F.next arrivals (buffer ++ xs) := by
  rw [next, h]

end Next

/-- What a call brings is decided by buffer and arrivals together, and what it does not
take is still there. -/
def Fits (F : Framer A E) (arrivals : List (Arrival A E)) (buffer : List A) :
    Got A E × List A × List (Arrival A E) → Prop
  | (.packet packet, buffer', arrivals') =>
      F.head (buffer ++ bytes arrivals) = .whole packet.length ∧
        packet ++ (buffer' ++ bytes arrivals') = buffer ++ bytes arrivals ∧
        ending arrivals' = ending arrivals ∧ arrivals'.length ≤ arrivals.length
  | (.pause, buffer', arrivals') =>
      buffer' ++ bytes arrivals' = buffer ++ bytes arrivals ∧
        ending arrivals' = ending arrivals ∧ arrivals'.length < arrivals.length
  | (.stopped e, buffer', _) =>
      (F.head (buffer ++ bytes arrivals) = .bad e ∧ buffer' = []) ∨
        (F.head (buffer ++ bytes arrivals) = .more ∧ buffer' = buffer ++ bytes arrivals ∧
          ending arrivals = some e)
  | (.nothing, buffer', _) =>
      F.head (buffer ++ bytes arrivals) = .more ∧ buffer' = buffer ++ bytes arrivals ∧
        ending arrivals = none

/-- A chunk may as well have been in the buffer. -/
theorem Fits.of_chunk {arrivals : List (Arrival A E)} {buffer xs : List A}
    {r : Got A E × List A × List (Arrival A E)} (h : Fits F arrivals (buffer ++ xs) r) :
    Fits F (.chunk xs :: arrivals) buffer r := by
  have hbytes : buffer ++ bytes (.chunk xs :: arrivals) = buffer ++ xs ++ bytes arrivals :=
    (List.append_assoc _ _ _).symm
  obtain ⟨got, buffer', arrivals'⟩ := r
  unfold Fits at h ⊢
  rw [hbytes]
  cases got with
  | packet packet =>
      obtain ⟨hhead, hsame, hending, hle⟩ := h
      exact ⟨hhead, hsame, hending, Nat.le_succ_of_le hle⟩
  | pause =>
      obtain ⟨hsame, hending, hlt⟩ := h
      exact ⟨hsame, hending, Nat.lt_succ_of_lt hlt⟩
  | stopped e => exact h
  | nothing => exact h

/-- What the buffer decides already is not changed by what arrives. -/
theorem fits_of_buffer {arrivals : List (Arrival A E)} {buffer : List A}
    (hmore : F.head buffer ≠ .more) : Fits F arrivals buffer (F.next arrivals buffer) := by
  have hstable := F.stable (bytes arrivals) hmore
  cases hhead : F.head buffer with
  | more => exact absurd hhead hmore
  | bad e =>
      rw [hhead] at hstable
      rw [next_bad hhead]
      exact Or.inl ⟨hstable, rfl⟩
  | whole n =>
      obtain ⟨-, hle⟩ := F.whole_le hhead
      rw [hhead] at hstable
      rw [next_whole hhead]
      refine ⟨?_, ?_, rfl, Nat.le_refl _⟩
      · rw [hstable, List.length_take, Nat.min_eq_left hle]
      · rw [← List.append_assoc, List.take_append_drop]

/-- **One call.** By induction on what arrives: a buffer with too little in it takes the next
arrival, and any other is decided as it stands. -/
theorem next_fits (arrivals : List (Arrival A E)) :
    ∀ buffer : List A, Fits F arrivals buffer (F.next arrivals buffer) := by
  induction arrivals with
  | nil =>
      intro buffer
      by_cases hmore : F.head buffer = .more
      · rw [next_nil hmore]
        refine ⟨?_, (List.append_nil _).symm, rfl⟩
        rw [bytes, List.append_nil]
        exact hmore
      · exact fits_of_buffer hmore
  | cons arrival arrivals ih =>
      intro buffer
      by_cases hmore : F.head buffer = .more
      · cases arrival with
        | chunk xs =>
            rw [next_chunk hmore]
            exact (ih (buffer ++ xs)).of_chunk
        | pause =>
            rw [next_pause hmore]
            exact ⟨rfl, rfl, Nat.lt_succ_self _⟩
        | stop e =>
            rw [next_stop hmore]
            refine Or.inr ⟨?_, (List.append_nil _).symm, rfl⟩
            rw [bytes, List.append_nil]
            exact hmore
      · exact fits_of_buffer hmore

/-- **Any cut.**  Enough calls make of buffer and arrivals what `split` makes of the
stream they are. -/
theorem run_eq_split {n : Nat} :
    ∀ {arrivals : List (Arrival A E)} {buffer : List A},
      (buffer ++ bytes arrivals).length + arrivals.length < n →
        F.run n arrivals buffer = F.split (ending arrivals) (buffer ++ bytes arrivals) := by
  induction n with
  | zero =>
      intro _ _ h
      omega
  | succ n ih =>
      intro arrivals buffer hn
      have hfits := next_fits (F := F) arrivals buffer
      unfold run
      split
      next packet buffer' arrivals' heq =>
        rw [heq] at hfits
        obtain ⟨hhead, hsame, hending, hle⟩ := hfits
        have hpos := (F.whole_le hhead).1
        have hlen := congrArg List.length hsame
        rw [List.length_append] at hlen
        rw [ih (by omega), hending, split_whole _ hhead, ← hsame, List.take_left, List.drop_left]
      next buffer' arrivals' heq =>
        rw [heq] at hfits
        obtain ⟨hsame, hending, hlt⟩ := hfits
        rw [ih (by rw [hsame]; omega), hending, hsame]
      next e buffer' arrivals' heq =>
        rw [heq] at hfits
        rcases hfits with ⟨hhead, rfl⟩ | ⟨hhead, rfl, hending⟩
        · rw [split_bad _ hhead]
        · rw [split_more _ hhead, hending]
      next buffer' arrivals' heq =>
        rw [heq] at hfits
        obtain ⟨hhead, rfl, hending⟩ := hfits
        rw [split_more _ hhead, hending]

end Framer

end Framing
