import BreezeCore.Panel.EventChunks

/-!
# The frames the server writes

Every event is a frame of two lines and a blank one, and comments stand between them.  A proxy
may have rewritten the line ends.  `serde_json` writing a value is a parameter.

* `reader_chunking_iff` — when the reader gets them as they were written.
-/

namespace BreezePanel.EventReader

open Bytes Text

section Server

variable {V : Type} (toString : V → Option Str)

/-- The data of a frame. -/
def json (data : V) : Str := (toString data).getD "\x7b\x7d".toList

/-- One frame, as `stream::frame` writes it. -/
def frame (kind : Str) (data : V) : Str :=
  "event: ".toList ++ kind ++ "\ndata: ".toList ++ json toString data ++ "\n\n".toList

/-- What a stream writes: events, and the comments that keep it alive. -/
inductive Written (V : Type) where
  | event (kind : Str) (data : V)
  | comment (text : Str)

/-- What is written on the stream: an event as a frame, or a comment, which keeps the line
open. -/
def Written.text : Written V → Str
  | .event kind data => frame toString kind data
  | .comment text => ": ".toList ++ text ++ "\n\n".toList

/-- What a reader is to get of it: of a comment nothing. -/
def Written.sent : Written V → Option Event
  | .event kind data => some (kind, json toString data)
  | .comment _ => none

/-- Text on one line. -/
def OneLine (text : Str) : Prop := '\n' ∉ text ∧ '\r' ∉ text

/-- The kinds and comments are words on one line, as `state`, `connected` and `keepalive`
are. -/
def Written.Plain : Written V → Prop
  | .event kind _ => OneLine kind ∧ jsTrim kind = kind
  | .comment text => OneLine text

/-- Some line feeds have a carriage return put in front of them. -/
inductive Rewritten : Str → Str → Prop where
  | nil : Rewritten [] []
  | kept (c : Char) {text text' : Str} : Rewritten text text' → Rewritten (c :: text) (c :: text')
  | crlf {text text' : Str} :
      Rewritten text text' → Rewritten ('\n' :: text) ('\r' :: '\n' :: text')

/-- A proxy may leave the line feeds alone. -/
theorem Rewritten.refl : ∀ text : Str, Rewritten text text
  | [] => .nil
  | c :: text => .kept c (refl text)

/-- A proxy that rewrites all of them. -/
def toCrlf (text : Str) : Str := text.flatMap fun c => if c = '\n' then ['\r', '\n'] else [c]

/-- Or put a carriage return before each of them. -/
theorem rewritten_toCrlf : ∀ text : Str, Rewritten text (toCrlf text)
  | [] => .nil
  | c :: text => by
      change Rewritten (c :: text) ((if c = '\n' then ['\r', '\n'] else [c]) ++ toCrlf text)
      split
      next hline =>
        subst hline
        exact .crlf (rewritten_toCrlf text)
      next => exact .kept c (rewritten_toCrlf text)

/-- The panel takes the rewriting back. -/
theorem Rewritten.normalise {text text' : Str} (h : Rewritten text text') (hplain : '\r' ∉ text) :
    normalise text' = text := by
  induction h with
  | nil => rfl
  | kept c h ih =>
      rw [List.mem_cons, not_or] at hplain
      rw [normalise_other fun hboth => hplain.1 hboth.1.symm, ih hplain.2]
  | crlf h ih =>
      rw [List.mem_cons, not_or] at hplain
      exact congrArg (List.cons '\n') (ih hplain.2)

/-- The first character is still the first, unless a carriage return was put before it. -/
theorem Rewritten.head? {text text' : Str} (h : Rewritten text text') :
    text'.head? = text.head? ∨ text'.head? = some '\r' := by
  cases h with
  | nil => exact Or.inl rfl
  | kept => exact Or.inl rfl
  | crlf => exact Or.inr rfl

/-- Characters of a line are collected up to the line feed. -/
theorem dispatch_append (f : Frame) {acc line : Str} (h : '\n' ∉ line) (rest : Str) :
    dispatch f acc (line ++ '\n' :: rest) = dispatch f (acc ++ line) ('\n' :: rest) := by
  induction line generalizing acc with
  | nil => rw [List.append_nil]; rfl
  | cons c line ih =>
      rw [List.mem_cons, not_or] at h
      rw [List.cons_append, dispatch_char f acc fun heq => h.1 heq.symm, ih h.2,
        List.append_assoc]
      rfl

/-- A line that is not blank. -/
theorem dispatch_whole (f : Frame) {line : Str} (hline : '\n' ∉ line) (hne : line ≠ [])
    (rest : Str) : dispatch f [] (line ++ '\n' :: rest) = dispatch (f.line line) [] rest := by
  rw [dispatch_append f hline, List.nil_append, dispatch_line f hne]

variable {toString}

/-- A line with a name sets the name. -/
theorem line_event (kind : Str) (f : Frame) (h : jsTrim kind = kind) :
    f.line ("event: ".toList ++ kind) = { f with name := kind } := by
  have hname : nameOf ("event: ".toList ++ kind) = some kind := by
    have htrim : jsTrim (' ' :: kind) = jsTrim kind := by
      unfold jsTrim
      rw [List.dropWhile_cons_of_pos (by decide)]
    change some (jsTrim (' ' :: kind)) = some kind
    rw [htrim, h]
  have hdata : dataOf ("event: ".toList ++ kind) = none := rfl
  rw [line_eq, hname, hdata]
  simp

/-- A line with data adds the data. -/
theorem line_data (data : Str) (f : Frame) :
    f.line ("data: ".toList ++ data) = { f with data := f.data ++ [data] } := by
  have hname : nameOf ("data: ".toList ++ data) = none := rfl
  have hdata : dataOf ("data: ".toList ++ data) = some data := rfl
  rw [line_eq, hname, hdata]
  rfl

/-- A comment does neither. -/
theorem line_comment (text : Str) (f : Frame) : f.line (": ".toList ++ text) = f := rfl

/-- Two texts without line ends make one. -/
theorem oneLine_append {lead text : Str} (hlead : OneLine lead) (h : OneLine text) :
    OneLine (lead ++ text) :=
  ⟨fun hmem => (List.mem_append.mp hmem).elim hlead.1 h.1,
    fun hmem => (List.mem_append.mp hmem).elim hlead.2 h.2⟩

/-- `serde_json` never puts a line break inside a compact document. -/
def Compact (toString : V → Option Str) : Prop :=
  ∀ data text, toString data = some text → OneLine text

/-- What is sent has no line end in it. -/
theorem Compact.json (h : Compact toString) (data : V) : OneLine (json toString data) := by
  unfold EventReader.json
  cases hdata : toString data with
  | none => exact ⟨by decide, by decide⟩
  | some text => exact h data text hdata

/-- So a frame that is read gives its event, and then the rest is read. Neither the kind nor the
data has a line end in it, and the blank line behind them is what gives the event. -/
theorem dispatch_frame (hjson : Compact toString) {kind : Str} (hkind : OneLine kind)
    (htrim : jsTrim kind = kind) (data : V) (rest : Str) :
    dispatch {} [] (frame toString kind data ++ rest) =
      (kind, json toString data) :: dispatch {} [] rest := by
  have htext : frame toString kind data ++ rest =
      ("event: ".toList ++ kind) ++ '\n' :: (("data: ".toList ++ json toString data) ++
        '\n' :: '\n' :: rest) := by
    have hdata : "\ndata: ".toList = '\n' :: "data: ".toList := by decide
    have hend : "\n\n".toList = ['\n', '\n'] := rfl
    unfold frame
    rw [hdata, hend]
    generalize "event: ".toList = event
    generalize "data: ".toList = field
    simp only [List.append_assoc, List.cons_append, List.nil_append]
  have hevent := @oneLine_append "event: ".toList _ ⟨by decide, by decide⟩ hkind
  have hbody := @oneLine_append "data: ".toList _ ⟨by decide, by decide⟩ (hjson.json data)
  rw [htext, dispatch_whole _ hevent.1 (List.append_ne_nil_of_left_ne_nil (by decide) _),
    line_event kind _ htrim,
    dispatch_whole _ hbody.1 (List.append_ne_nil_of_left_ne_nil (by decide) _), line_data,
    dispatch_blank]
  change (kind, List.intercalate ['\n'] [json toString data]) :: dispatch {} [] rest = _
  rw [List.intercalate_singleton]

/-- A comment in a frame of its own gives no event, and the rest is read as it would be. -/
theorem dispatch_comment {text : Str} (h : OneLine text) (rest : Str) :
    dispatch {} [] (": ".toList ++ text ++ "\n\n".toList ++ rest) = dispatch {} [] rest := by
  have htext : ": ".toList ++ text ++ "\n\n".toList ++ rest =
      (": ".toList ++ text) ++ '\n' :: '\n' :: rest := by
    have hend : "\n\n".toList = ['\n', '\n'] := rfl
    rw [hend]
    simp only [List.append_assoc, List.cons_append, List.nil_append]
  have hline := @oneLine_append ": ".toList _ ⟨by decide, by decide⟩ h
  rw [htext, dispatch_whole _ hline.1 (List.append_ne_nil_of_left_ne_nil (by decide) _),
    line_comment, dispatch_blank]
  rfl

/-- **What is written is what is read.** -/
theorem dispatch_written (hjson : Compact toString) {ws : List (Written V)}
    (hplain : ∀ w ∈ ws, w.Plain) :
    dispatch {} [] (ws.flatMap (Written.text toString)) = ws.filterMap (Written.sent toString) := by
  induction ws with
  | nil => rfl
  | cons w ws ih =>
      have hrest := ih fun other hother => hplain other (List.mem_cons_of_mem _ hother)
      have hw := hplain w List.mem_cons_self
      rw [List.flatMap_cons, List.filterMap_cons, ← hrest]
      cases w with
      | event kind data => exact dispatch_frame hjson hw.1 hw.2 data _
      | comment text => exact dispatch_comment hw _

/-- No carriage return is written. -/
theorem written_plain (hjson : Compact toString) {w : Written V} (h : w.Plain) :
    '\r' ∉ w.text toString := by
  cases w with
  | event kind data =>
      change '\r' ∉ "event: ".toList ++ kind ++ "\ndata: ".toList ++ json toString data ++
        "\n\n".toList
      have hevent : '\r' ∉ "event: ".toList := by decide
      have hmid : '\r' ∉ "\ndata: ".toList := by decide
      have hend : '\r' ∉ "\n\n".toList := by decide
      simp only [List.mem_append, not_or]
      exact ⟨⟨⟨⟨hevent, h.1.2⟩, hmid⟩, (hjson.json data).2⟩, hend⟩
  | comment text =>
      change '\r' ∉ ": ".toList ++ text ++ "\n\n".toList
      have hlead : '\r' ∉ ": ".toList := by decide
      have hend : '\r' ∉ "\n\n".toList := by decide
      simp only [List.mem_append, not_or]
      exact ⟨⟨hlead, h.2⟩, hend⟩

/-- Nothing that is written begins with a byte order mark. -/
theorem head?_written (ws : List (Written V)) :
    (ws.flatMap (Written.text toString)).head? ≠ some (Char.ofNat 0xFEFF) := by
  cases ws with
  | nil => nofun
  | cons w ws =>
      cases w with
      | event kind data => exact fun h => absurd (Option.some.inj h) (by decide)
      | comment text => exact fun h => absurd (Option.some.inj h) (by decide)

/-- **The written stream in one chunk** brings what was sent. -/
theorem apiStream_written (hjson : Compact toString) {ws : List (Written V)} {text : Str}
    (hplain : ∀ w ∈ ws, w.Plain)
    (htext : Rewritten (ws.flatMap (Written.text toString)) text) :
    apiStream [toUtf8 text] = ws.filterMap (Written.sent toString) := by
  have hmark : text.head? ≠ some (Char.ofNat 0xFEFF) := by
    rcases htext.head? with h | h
    · rw [h]
      exact head?_written ws
    · rw [h]
      exact fun heq => absurd (Option.some.inj heq) (by decide)
  have hreturn : '\r' ∉ ws.flatMap (Written.text toString) := by
    rw [List.mem_flatMap]
    rintro ⟨w, hw, hmem⟩
    exact written_plain hjson (hplain w hw) hmem
  have hpieces : pieces {} [toUtf8 text] = [text] :=
    congrArg (fun piece => [piece]) (decode_toUtf8 hmark)
  rw [apiStream_eq, hpieces, List.map_singleton, List.flatten_singleton,
    htext.normalise hreturn, dispatch_written hjson hplain]

/-- **The panel's event reader and the cuts between chunks.**  A stream brings the events it
brings in one chunk exactly when its lines are fine; and what the server writes, whatever a
proxy makes of the line ends, is read as it was sent exactly then. -/
theorem reader_chunking_iff (toString : V → Option Str) (hjson : Compact toString) :
    (∀ chunks, apiStream chunks = apiStream [chunks.flatten] ↔ Fine (lines chunks)) ∧
      ∀ (ws : List (Written V)) (text : Str) (chunks : List Octets), (∀ w ∈ ws, w.Plain) →
        Rewritten (ws.flatMap (Written.text toString)) text → chunks.flatten = toUtf8 text →
          (apiStream chunks = ws.filterMap (Written.sent toString) ↔ Fine (lines chunks)) := by
  have hchunks (chunks : List Octets) :
      apiStream chunks = apiStream [chunks.flatten] ↔ Fine (lines chunks) := by
    rw [apiStream_lines, apiStream_flatten]
    exact deliver_iff (lines chunks)
  refine ⟨hchunks, ?_⟩
  intro ws text chunks hplain htext hbytes
  rw [← apiStream_written hjson hplain htext, ← hbytes]
  exact hchunks chunks

end Server

/-- One value, and a stream of a comment and two frames of it, as a proxy rewrites it. -/
def unitJson (_ : Unit) : Option Str := some "\x7b\x7d".toList

/-- A comment and two events. -/
def twoFrames : List (Written Unit) :=
  [.comment "connected".toList, .event "state".toList (), .event "state".toList ()]

/-- As they come from a proxy that ends lines in two characters. -/
def twoFramesText : Str := toCrlf (twoFrames.flatMap (Written.text unitJson))

/-- The stream in two chunks. -/
def cutAt (n : Nat) : List Octets := [(toUtf8 twoFramesText).take n, (toUtf8 twoFramesText).drop n]

/-- The pieces make the text, wherever it is cut. -/
theorem flatten_cutAt (n : Nat) : (cutAt n).flatten = toUtf8 twoFramesText := by
  change List.take n _ ++ (List.drop n _ ++ []) = _
  rw [List.append_nil, List.take_append_drop]

/-- The writer below puts no line end into its texts. -/
theorem compact_unitJson : Compact unitJson := by
  rintro _ text h
  obtain rfl := Option.some.inj h
  exact ⟨by decide, by decide⟩

/-- The names and the data of the two frames are plain. -/
theorem plain_twoFrames : ∀ w ∈ twoFrames, w.Plain := by
  intro w hw
  simp only [twoFrames, List.mem_cons, List.not_mem_nil, or_false] at hw
  rcases hw with rfl | rfl | rfl
  · exact ⟨by decide, by decide⟩
  · exact ⟨⟨by decide, by decide⟩, by decide⟩
  · exact ⟨⟨by decide, by decide⟩, by decide⟩

/-- The end of the line with the name is cut. -/
theorem reader_chunking_name : Fine (lines (cutAt 28)) :=
  ((reader_chunking_iff unitJson compact_unitJson).2 twoFrames twoFramesText (cutAt 28)
    plain_twoFrames (rewritten_toCrlf _) (flatten_cutAt 28)).mp (by decide +kernel)

/-- The end of the blank line between the frames is cut. -/
theorem blank_line_cut : ¬ ∀ chunks : List Octets, chunks.flatten = toUtf8 twoFramesText →
    apiStream chunks = apiStream [chunks.flatten] ∧
      apiStream chunks = twoFrames.filterMap (Written.sent unitJson) := by
  intro h
  have hcut : apiStream (cutAt 40) = twoFrames.filterMap (Written.sent unitJson) :=
    (h _ (flatten_cutAt 40)).2
  revert hcut
  decide +kernel

end BreezePanel.EventReader
