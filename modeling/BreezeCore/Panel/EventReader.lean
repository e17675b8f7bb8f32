import Mathlib.Data.List.Basic
import BreezeCore.Lib.Utf8

/-!
# The panel's event reader

The stream is read chunk by chunk: a decoder makes text of the bytes, the line ends of the
text are made one kind, and what stands before a blank line is taken out of the buffer as a
frame.

`apiStream_eq`: the chunks together bring what `dispatch` makes of the text as it was put in
the buffer, character by character.
-/

namespace BreezePanel.EventReader

open Bytes Text

/-- An event: its name and its data. -/
abbrev Event : Type := Str × Str

/-! ## The decoder -/

/-- `TextDecoder`, which drops a byte order mark in front of the whole stream. -/
structure TextDecoder where
  state : Option Utf8.Partial := none
  bomSeen : Bool := false
  deriving DecidableEq

/-- A piece of the stream as text: a character that is cut is kept for the next piece, and a byte
order mark in front of everything is dropped. -/
def TextDecoder.decode (d : TextDecoder) (value : Octets) : TextDecoder × Str :=
  let (state, out) := Utf8.feed d.state value
  if d.bomSeen then ({ d with state := state }, out)
  else
    match out with
    | [] => ({ d with state := state }, [])
    | c :: rest => (⟨state, true⟩, if c = Char.ofNat 0xFEFF then rest else out)

/-- **It does not matter how the bytes are cut.** -/
theorem TextDecoder.decode_append (d : TextDecoder) (xs ys : Octets) :
    d.decode (xs ++ ys) =
      (((d.decode xs).1.decode ys).1, (d.decode xs).2 ++ ((d.decode xs).1.decode ys).2) := by
  obtain ⟨state, bomSeen⟩ := d
  unfold decode
  rw [Utf8.feed_append]
  cases bomSeen with
  | true => rfl
  | false =>
      cases hout : (Utf8.feed state xs).2 with
      | nil => simp [hout]
      | cons c rest =>
          simp only [hout, List.cons_append, Bool.false_eq_true, if_false]
          split <;> rfl

/-- The text that each chunk brings. -/
def pieces (d : TextDecoder) : List Octets → List Str
  | [] => []
  | value :: values => (d.decode value).2 :: pieces (d.decode value).1 values

/-- An empty piece is no text. -/
theorem decode_nil (d : TextDecoder) : (d.decode []).2 = [] := by
  unfold TextDecoder.decode
  dsimp only [Utf8.feed]
  split <;> rfl

/-- The pieces decoded one after the other are the text decoded at once. -/
theorem flatten_pieces (chunks : List Octets) (d : TextDecoder) :
    (pieces d chunks).flatten = (d.decode chunks.flatten).2 := by
  induction chunks generalizing d with
  | nil => exact (decode_nil d).symm
  | cons value values ih =>
      rw [pieces, List.flatten_cons, List.flatten_cons, TextDecoder.decode_append, ih]

/-- The bytes of a text are read as the text, unless a byte order mark stands in front. -/
theorem decode_toUtf8 {text : Str} (h : text.head? ≠ some (Char.ofNat 0xFEFF)) :
    (TextDecoder.decode {} (toUtf8 text)).2 = text := by
  unfold TextDecoder.decode
  rw [Utf8.feed_toUtf8]
  cases text with
  | nil => rfl
  | cons c rest => exact if_neg fun heq => h (congrArg some heq)

/-! ## Lines and frames -/

/-- `replace(/\r\n/g, "\n")`. -/
def normalise : Str → Str
  | '\r' :: '\n' :: rest => '\n' :: normalise rest
  | c :: rest => c :: normalise rest
  | [] => []

/-- What stands before the first `"\n\n"`, and what stands behind it. -/
def cutFrame : Str → Option (Str × Str)
  | '\n' :: '\n' :: rest => some ([], rest)
  | c :: rest => (cutFrame rest).map fun (frame, buf) => (c :: frame, buf)
  | [] => none

/-- All frames of a buffer, and what is left of it. -/
def takeFrames : (fuel : Nat) → Str → List Str × Str
  | 0, buf => ([], buf)
  | fuel + 1, buf =>
      match cutFrame buf with
      | none => ([], buf)
      | some (frame, buf) =>
          let (frames, buf) := takeFrames fuel buf
          (frame :: frames, buf)

/-- What `trim` drops. -/
def isSpace (c : Char) : Bool :=
  let n := c.toNat
  (9 ≤ n ∧ n ≤ 13) ∨ n = 0x20 ∨ n = 0xA0 ∨ n = 0x1680 ∨ (0x2000 ≤ n ∧ n ≤ 0x200A) ∨ n = 0x2028 ∨
    n = 0x2029 ∨ n = 0x202F ∨ n = 0x205F ∨ n = 0x3000 ∨ n = 0xFEFF

/-- `trim` of a text. -/
def jsTrim (text : Str) : Str :=
  ((text.dropWhile isSpace).reverse.dropWhile isSpace).reverse

/-- `replace(/^ /, "")`. -/
def dropSpace : Str → Str
  | ' ' :: rest => rest
  | text => text

/-- What has been read of a frame. -/
structure Frame where
  name : Str := "message".toList
  data : List Str := []
  deriving DecidableEq

/-- One line of a frame. -/
def Frame.line (f : Frame) (line : Str) : Frame :=
  if line = [] ∨ line.head? = some ':' then f
  else if "event:".toList <+: line then { f with name := jsTrim (line.drop 6) }
  else if "data:".toList <+: line then { f with data := f.data ++ [dropSpace (line.drop 5)] }
  else f

/-- What a frame comes to: nothing without data, else its data in one. -/
def Frame.event (f : Frame) : Option Event :=
  if f.data = [] then none else some (f.name, List.intercalate ['\n'] f.data)

/-- A frame, read line by line. -/
def readFrame (frame : Str) : Option Event := ((split '\n' frame).foldl Frame.line {}).event

/-! ## The reader -/

/-- The state of the reader between two pieces. -/
structure Reader where
  decoder : TextDecoder := {}
  buf : Str := []
  deriving DecidableEq

/-- One chunk. -/
def Reader.read (r : Reader) (value : Octets) : Reader × List Event :=
  let (decoder, text) := r.decoder.decode value
  let buf := r.buf ++ normalise text
  let (frames, buf) := takeFrames buf.length buf
  (⟨decoder, buf⟩, frames.filterMap readFrame)

/-- All the events of a stream that comes in these pieces. -/
def Reader.readAll (r : Reader) : List Octets → List Event
  | [] => []
  | value :: values => (r.read value).2 ++ (r.read value).1.readAll values

/-- The events a stream brings, up to its end. -/
def apiStream (chunks : List Octets) : List Event := Reader.readAll {} chunks

/-! ## Character by character -/

/-- The events of a text, after some lines of a frame and the beginning of a line. -/
def dispatch (f : Frame) (acc : Str) : Str → List Event
  | [] => []
  | c :: rest =>
      if c = '\n' then
        if acc = [] then f.event.toList ++ dispatch {} [] rest
        else dispatch (f.line acc) [] rest
      else dispatch f (acc ++ [c]) rest

/-- An empty line ends the frame. -/
theorem dispatch_blank (f : Frame) (rest : Str) :
    dispatch f [] ('\n' :: rest) = f.event.toList ++ dispatch {} [] rest := rfl

/-- Any other line is a line of it. -/
theorem dispatch_line (f : Frame) {acc : Str} (h : acc ≠ []) (rest : Str) :
    dispatch f acc ('\n' :: rest) = dispatch (f.line acc) [] rest := by
  rw [dispatch, if_pos rfl, if_neg h]

/-- A character is collected. -/
theorem dispatch_char (f : Frame) (acc : Str) {c : Char} (h : c ≠ '\n') (rest : Str) :
    dispatch f acc (c :: rest) = dispatch f (acc ++ [c]) rest := by
  rw [dispatch, if_neg h]

/-- An empty line changes nothing of a frame. -/
theorem line_nil (f : Frame) : f.line [] = f := rfl

/-- A frame begins with this character, or is about to begin a line that is not blank. -/
def Begun (f : Frame) (acc text : Str) : Prop :=
  acc = [] → f = {} ∨ text.head? ≠ some '\n'

/-- The first line, and the rest. -/
theorem split_line {acc rest : Str} (h : '\n' ∉ acc) :
    split '\n' (acc ++ '\n' :: rest) = acc :: split '\n' rest := by
  rw [split_append, split_of_notMem h]
  rfl

/-- A line that has begun is begun. -/
theorem begun_char {f : Frame} {acc rest : Str} {c : Char} : Begun f (acc ++ [c]) rest :=
  fun h => absurd (List.append_eq_nil_iff.mp h).2 (List.cons_ne_nil _ _)

/-- A character in front does not end a frame, unless it is the first of two line feeds. -/
theorem cutFrame_char {c : Char} {rest : Str} (h : ¬ (c = '\n' ∧ rest.head? = some '\n')) :
    cutFrame (c :: rest) = (cutFrame rest).map fun (frame, buf) => (c :: frame, buf) := by
  conv => lhs; unfold cutFrame
  split
  next heq =>
    obtain ⟨rfl, rfl⟩ := List.cons.inj heq
    exact absurd ⟨rfl, rfl⟩ h
  next heq =>
    obtain ⟨rfl, rfl⟩ := List.cons.inj heq
    rfl
  next heq => cases heq

/-- **Up to the first `"\n\n"`** the text is the frame that is taken out of the buffer. By
induction on the buffer, with the lines read so far in `f` and the one being read in `acc`. -/
theorem dispatch_cutFrame {buf frame rest : Str} (h : cutFrame buf = some (frame, rest))
    (more : Str) : ∀ (f : Frame) (acc : Str), '\n' ∉ acc → Begun f acc buf →
      dispatch f acc (buf ++ more) =
        ((split '\n' (acc ++ frame)).foldl Frame.line f).event.toList ++
          dispatch {} [] (rest ++ more) := by
  induction buf generalizing frame rest with
  | nil => cases h
  | cons c buf ih =>
      intro f acc hacc hbegun
      by_cases hboth : c = '\n' ∧ buf.head? = some '\n'
      · obtain ⟨rfl, hhead⟩ := hboth
        obtain ⟨buf, rfl⟩ := List.head?_eq_some_iff.mp hhead
        obtain ⟨rfl, rfl⟩ := Prod.ext_iff.mp (Option.some.inj h)
        have hsplit : split '\n' (acc ++ []) = [acc] := by
          rw [List.append_nil, split_of_notMem hacc]
        rw [hsplit, List.foldl_cons, List.foldl_nil, List.cons_append, List.cons_append]
        by_cases hnil : acc = []
        · subst hnil
          rw [dispatch_blank, dispatch_blank, line_nil]
          rfl
        · rw [dispatch_line f hnil, dispatch_blank]
      · rw [cutFrame_char hboth] at h
        obtain ⟨⟨before, behind⟩, hcut, heq⟩ := Option.map_eq_some_iff.mp h
        obtain ⟨rfl, rfl⟩ := Prod.ext_iff.mp heq
        rw [List.cons_append]
        by_cases hline : c = '\n'
        · subst hline
          have hnext : buf.head? ≠ some '\n' := fun hhead => hboth ⟨rfl, hhead⟩
          rw [split_line hacc, List.foldl_cons]
          by_cases hnil : acc = []
          · subst hnil
            obtain rfl : f = {} := (hbegun rfl).resolve_right (not_not.mpr rfl)
            rw [dispatch_blank, line_nil]
            exact ih hcut {} [] List.not_mem_nil fun _ => Or.inl rfl
          · rw [dispatch_line f hnil]
            exact ih hcut _ [] List.not_mem_nil fun _ => Or.inr hnext
        · have hkept : '\n' ∉ acc ++ [c] := by
            rw [List.mem_append, List.mem_singleton, not_or]
            exact ⟨hacc, fun heq => hline heq.symm⟩
          have hframe : acc ++ c :: before = acc ++ [c] ++ before := List.append_cons acc c before
          rw [dispatch_char f acc hline, hframe]
          exact ih hcut f _ hkept begun_char

/-- **A text without `"\n\n"`** brings nothing. By induction on the text, as a line feed that is
not followed by another begins a line that is not blank. -/
theorem dispatch_nothing {buf : Str} (h : cutFrame buf = none) :
    ∀ (f : Frame) (acc : Str), Begun f acc buf → dispatch f acc buf = [] := by
  induction buf with
  | nil => intro f acc _; rfl
  | cons c buf ih =>
      intro f acc hbegun
      have hboth : ¬ (c = '\n' ∧ buf.head? = some '\n') := by
        rintro ⟨rfl, hhead⟩
        obtain ⟨buf, rfl⟩ := List.head?_eq_some_iff.mp hhead
        cases h
      rw [cutFrame_char hboth] at h
      have hnone := Option.map_eq_none_iff.mp h
      by_cases hline : c = '\n'
      · subst hline
        by_cases hnil : acc = []
        · subst hnil
          obtain rfl : f = {} := (hbegun rfl).resolve_right (not_not.mpr rfl)
          rw [dispatch_blank]
          exact ih hnone {} [] fun _ => Or.inl rfl
        · rw [dispatch_line f hnil]
          exact ih hnone _ [] fun _ => Or.inr fun hhead => hboth ⟨rfl, hhead⟩
      · rw [dispatch_char f acc hline]
        exact ih hnone f _ begun_char

/-- What is left behind a frame is shorter, so the loop ends. -/
theorem cutFrame_length {buf frame rest : Str} (h : cutFrame buf = some (frame, rest)) :
    rest.length < buf.length := by
  induction buf generalizing frame rest with
  | nil => cases h
  | cons c buf ih =>
      by_cases hboth : c = '\n' ∧ buf.head? = some '\n'
      · obtain ⟨rfl, hhead⟩ := hboth
        obtain ⟨buf, rfl⟩ := List.head?_eq_some_iff.mp hhead
        obtain ⟨rfl, rfl⟩ := Prod.ext_iff.mp (Option.some.inj h)
        simp only [List.length_cons]
        omega
      · rw [cutFrame_char hboth] at h
        obtain ⟨⟨before, behind⟩, hcut, heq⟩ := Option.map_eq_some_iff.mp h
        obtain ⟨rfl, rfl⟩ := Prod.ext_iff.mp heq
        exact (ih hcut).trans (Nat.lt_succ_self _)

/-- **The frames of a buffer** bring what it has to bring, and leave no frame in it. Each round
takes a frame out, so that the length of the buffer is fuel enough. -/
theorem takeFrames_spec : ∀ {fuel : Nat} {buf : Str}, buf.length ≤ fuel →
    cutFrame (takeFrames fuel buf).2 = none ∧
      ∀ more, dispatch {} [] (buf ++ more) =
        (takeFrames fuel buf).1.filterMap readFrame ++
          dispatch {} [] ((takeFrames fuel buf).2 ++ more) := by
  intro fuel
  induction fuel with
  | zero =>
      intro buf hlen
      obtain rfl := List.eq_nil_of_length_eq_zero (Nat.le_zero.mp hlen)
      exact ⟨rfl, fun _ => rfl⟩
  | succ fuel ih =>
      intro buf hlen
      unfold takeFrames
      cases hcut : cutFrame buf with
      | none => exact ⟨hcut, fun _ => rfl⟩
      | some parts =>
          obtain ⟨frame, rest⟩ := parts
          obtain ⟨hdone, hevents⟩ := ih (Nat.le_of_lt_succ ((cutFrame_length hcut).trans_le hlen))
          refine ⟨hdone, fun more => ?_⟩
          rw [dispatch_cutFrame hcut more {} [] List.not_mem_nil fun _ => Or.inl rfl, hevents more,
            ← List.append_assoc, List.filterMap_cons]
          change (readFrame frame).toList ++ _ ++ _ = _
          cases readFrame frame with
          | none => rfl
          | some event => rfl

/-- Reading piece by piece is reading the text of all the pieces, each normalised by itself. By
induction on the pieces. -/
theorem readAll_eq (chunks : List Octets) : ∀ r : Reader, cutFrame r.buf = none →
    r.readAll chunks =
      dispatch {} [] (r.buf ++ ((pieces r.decoder chunks).map normalise).flatten) := by
  induction chunks with
  | nil =>
      intro r hbuf
      rw [pieces, List.map_nil, List.flatten_nil, List.append_nil]
      exact (dispatch_nothing hbuf {} [] fun _ => Or.inl rfl).symm
  | cons value values ih =>
      intro r _
      obtain ⟨hdone, hevents⟩ := @takeFrames_spec _ (r.buf ++ normalise (r.decoder.decode value).2)
        (Nat.le_refl _)
      rw [Reader.readAll, ih _ hdone, pieces, List.map_cons, List.flatten_cons,
        ← List.append_assoc, hevents]
      rfl

/-- **The chunks together** bring what the text in the buffer brings. -/
theorem apiStream_eq (chunks : List Octets) :
    apiStream chunks = dispatch {} [] ((pieces {} chunks).map normalise).flatten :=
  readAll_eq chunks {} rfl

end BreezePanel.EventReader
