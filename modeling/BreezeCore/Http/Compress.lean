import BreezeCore.Lib.Text

/-!
# Response compression

A reply is compressed when it is worth it and the client can take it.  Whether it can
is in its `Accept-Encoding`: a list of codings, each with a weight, where weight zero
is a refusal and `*` stands for whatever is not listed.

`acceptsGzip_text` is what the scan makes of such a list, and `negotiated_iff` when
that is what the list means.
-/

namespace BreezeHttp.Compress

open Bytes Text

/-! ## The scan -/

/-- A parameter that is read as an explicit refusal. -/
def refuses (p : Str) : Bool :=
  let p := (trim p).filter (· ≠ ' ')
  p = "q=0".toList || p = "q=0.0".toList || p = "q=0.00".toList

/-- One part of the list: a coding this server has, and no refusal behind it. -/
def acceptsPart (part : Str) : Bool :=
  let bits := split ';' part
  let coding := trim (bits.headD [])
  !bits.tail.any refuses &&
    (toAsciiLowercase coding = "gzip".toList || coding = "*".toList)

/-- Whether the client said it can decode gzip. -/
def acceptsGzip : Option Str → Bool
  | none => false
  | some header => (split ',' header).any acceptsPart

example : acceptsGzip (some "br, gzip;q=0.8".toList) = true ∧
    acceptsGzip (some "deflate, *".toList) = true ∧
    acceptsGzip (some "gzip;q=0, deflate".toList) = false := by decide +kernel

/-- Below this, compressing costs more than it saves. -/
def MIN_SIZE : Nat := 512

/-- A response, as far as compression looks at it. -/
structure Reply where
  status : Nat
  body : Octets
  extra : List (String × String) := []
  deriving DecidableEq

/-- Compress a reply, if it is worth it and the client can take it.  Returns whether it
did. -/
def maybeCompress (gzip : Octets → Option Octets) (reply : Reply) (acceptEncoding : Option Str) :
    Bool × Reply :=
  if ! acceptsGzip acceptEncoding then (false, reply)
  else if reply.body.length < MIN_SIZE then (false, reply)
  else if reply.status = 204 ∨ reply.status = 304 ∨ reply.status < 200 then (false, reply)
  -- Never double-encode.
  else if reply.extra.any fun h =>
      toAsciiLowercase h.1.toList = toAsciiLowercase "Content-Encoding".toList then (false, reply)
  else
    match gzip reply.body with
    | none => (false, reply)
    | some compressed =>
        if reply.body.length ≤ compressed.length then (false, reply)
        else
          (true,
            { reply with
              body := compressed
              extra := reply.extra ++ [("Content-Encoding", "gzip"), ("Vary", "Accept-Encoding")] })

/-! ## The grammar -/

/-- A space or a tab. -/
def IsOws (c : Char) : Prop := c = ' ' ∨ c = '\t'

/-- The characters of a token: letters, digits and these signs. -/
def IsTchar (c : Char) : Prop :=
  isDigit c = true ∨ (65 ≤ c.toNat ∧ c.toNat ≤ 90) ∨ (97 ≤ c.toNat ∧ c.toNat ≤ 122) ∨
    c.toNat ∈ [33, 35, 36, 37, 38, 39, 42, 43, 45, 46, 94, 95, 96, 124, 126]

instance : DecidablePred IsTchar := fun c => by
  unfold IsTchar
  infer_instance

/-- `0` or `1`, and up to three digits behind a point, all zeros behind a one. -/
def IsQvalue (value : Str) : Prop :=
  ∃ lead fraction, (lead = '0' ∨ lead = '1' ∧ ∀ c ∈ fraction, c = '0') ∧ fraction.length ≤ 3 ∧
    (∀ c ∈ fraction, isDigit c = true) ∧
    (value = [lead] ∧ fraction = [] ∨ value = lead :: '.' :: fraction)

/-- `OWS ";" OWS "q=" qvalue`, the letter in either case. -/
structure Weight where
  before : Str
  after : Str
  letter : Char
  value : Str
  spaces : ∀ c ∈ before ++ after, IsOws c
  letter_q : letter = 'q' ∨ letter = 'Q'
  qvalue : IsQvalue value

/-- A coding, or `*`, and its weight. -/
structure Entry where
  coding : Str
  weight : Option Weight
  ne_nil : coding ≠ []
  token : ∀ c ∈ coding, IsTchar c

/-- An element of the list, which may be empty, and the spaces around it. -/
structure Element where
  lead : Str
  entry : Option Entry
  trail : Str
  spaces : ∀ c ∈ lead ++ trail, IsOws c

/-- How a weight is written: a semicolon, the letter q, and the value. -/
def Weight.text (w : Weight) : Str := w.before ++ ';' :: (w.after ++ w.letter :: '=' :: w.value)

/-- How an entry is written: the coding, with its weight if it has one. -/
def Entry.text (e : Entry) : Str := e.coding ++ (e.weight.elim [] Weight.text)

/-- How an element of the list is written, with the blanks around it. -/
def Element.text (e : Element) : Str := e.lead ++ (e.entry.elim [] Entry.text) ++ e.trail

/-- The value of the header. -/
def headerText (list : List Element) : Str := [','].intercalate (list.map Element.text)

/-- What the list says. -/
def entries (list : List Element) : List Entry := list.filterMap Element.entry

/-! ## Its meaning -/

/-- No digit but zeros. -/
def Weight.isZero (w : Weight) : Prop := ∀ c ∈ w.value, c = '0' ∨ c = '.'

/-- The coding is refused; without a weight it is not. -/
def Entry.refused (e : Entry) : Prop := ∃ w, e.weight = some w ∧ w.isZero

/-- The entry is about gzip, in any case of its letters. -/
def Entry.isGzip (e : Entry) : Prop := toAsciiLowercase e.coding = "gzip".toList

/-- The entry is about whatever is not named. -/
def Entry.isWildcard (e : Entry) : Prop := e.coding = "*".toList

/-- The client takes gzip: it lists it with a weight that is not zero, or does not list
it and lists `*` with such a weight. -/
def TakesGzip (es : List Entry) : Prop :=
  (∃ e ∈ es, e.isGzip ∧ ¬ e.refused) ∨
    (∀ e ∈ es, ¬ e.isGzip) ∧ ∃ e ∈ es, e.isWildcard ∧ ¬ e.refused

/-- Weight zero in one of the three spellings the scan knows. -/
def Weight.plainZero (w : Weight) : Prop :=
  w.letter = 'q' ∧ (w.value = "0".toList ∨ w.value = "0.0".toList ∨ w.value = "0.00".toList)

/-- Its weight is a zero in one of the spellings the code looks for. -/
def Entry.plainlyRefused (e : Entry) : Prop := ∃ w, e.weight = some w ∧ w.plainZero

/-- Refusals can be told as such: where the codings that decide are all refused, so are
all of gzip and `*`, and in the spellings the scan knows. -/
def RefusalsPlain (es : List Entry) : Prop :=
  ((∀ e ∈ es, e.isGzip → e.refused) ∧ (∃ e ∈ es, e.isGzip) ∨
      (∀ e ∈ es, ¬ e.isGzip) ∧ ∀ e ∈ es, e.isWildcard → e.refused) →
    ∀ e ∈ es, e.isGzip ∨ e.isWildcard → e.plainlyRefused

/-! ## The parts -/

/-- Characters with different numbers are different. -/
private theorem ne_of_toNat {c d : Char} (h : c.toNat ≠ d.toNat) : c ≠ d := fun heq => h (heq ▸ rfl)

/-- A character that is printed is no blank. -/
private theorem isWhitespace_false {c : Char} (h : 33 ≤ c.toNat ∧ c.toNat ≤ 126) :
    isWhitespace c = false := by
  simp only [isWhitespace, Bool.or_eq_false_iff, Bool.and_eq_false_iff, decide_eq_false_iff_not,
    beq_eq_false_iff_ne]
  omega

/-- The characters of a token are printed, and are neither comma nor semicolon. -/
private theorem IsTchar.bounds {c : Char} (h : IsTchar c) :
    33 ≤ c.toNat ∧ c.toNat ≤ 126 ∧ c.toNat ≠ 44 ∧ c.toNat ≠ 59 := by
  simp only [IsTchar, isDigit, Bool.and_eq_true, decide_eq_true_eq, List.mem_cons,
    List.not_mem_nil, or_false] at h
  omega

/-- A text with neither a comma nor a semicolon in it, which is cut nowhere. -/
def Inside (text : Str) : Prop := ',' ∉ text ∧ ';' ∉ text

/-- A text stays inside its element when each half of it does. -/
private theorem inside_append {a b : Str} : Inside (a ++ b) ↔ Inside a ∧ Inside b := by
  simp only [Inside, List.mem_append, not_or]
  tauto

/-- Blanks do. -/
private theorem ows_inside {spaces : Str} (h : ∀ c ∈ spaces, IsOws c) : Inside spaces := by
  constructor <;> intro hmem <;> rcases h _ hmem with heq | heq <;> exact absurd heq (by decide)

/-- Blanks are trimmed. -/
private theorem ows_whitespace {spaces : Str} (h : ∀ c ∈ spaces, IsOws c) :
    ∀ c ∈ spaces, isWhitespace c = true := by
  intro c hc
  rcases h c hc with rfl | rfl <;> decide

/-- A token stays inside its element. -/
private theorem token_inside {token : Str} (h : ∀ c ∈ token, IsTchar c) : Inside token := by
  constructor <;> intro hmem
  · exact absurd rfl (h _ hmem).bounds.2.2.1
  · exact absurd rfl (h _ hmem).bounds.2.2.2

/-- Nothing of a token is trimmed. -/
private theorem token_dark {token : Str} (h : ∀ c ∈ token, IsTchar c) :
    ∀ c ∈ token, isWhitespace c = false := fun c hc =>
  isWhitespace_false ⟨(h c hc).bounds.1, (h c hc).bounds.2.1⟩

/-- A weight is digits and a point. -/
private theorem IsQvalue.chars {value : Str} (h : IsQvalue value) :
    ∀ c ∈ value, isDigit c = true ∨ c = '.' := by
  obtain ⟨lead, fraction, hlead, -, hdigits, hvalue⟩ := h
  have hlead' : isDigit lead = true := by
    rcases hlead with rfl | ⟨rfl, -⟩ <;> decide
  rcases hvalue with ⟨rfl, -⟩ | rfl
  · intro c hc
    rw [List.mem_singleton.mp hc]
    exact Or.inl hlead'
  · rw [List.forall_mem_cons, List.forall_mem_cons]
    exact ⟨Or.inl hlead', Or.inr rfl, fun c hc => Or.inl (hdigits c hc)⟩

/-- What stands behind the semicolon, its spaces apart, is a token too. -/
private theorem Weight.tchars (w : Weight) :
    ∀ c ∈ w.letter :: '=' :: w.value,
      33 ≤ c.toNat ∧ c.toNat ≤ 126 ∧ c.toNat ≠ 44 ∧ c.toNat ≠ 59 := by
  rw [List.forall_mem_cons, List.forall_mem_cons]
  refine ⟨?_, by decide, ?_⟩
  · rcases w.letter_q with h | h <;> rw [h] <;> decide
  · intro c hc
    rcases w.qvalue.chars c hc with hdigit | rfl
    · simp only [isDigit, Bool.and_eq_true, decide_eq_true_eq] at hdigit
      omega
    · decide

/-- A weight is read as a refusal exactly in the three spellings. -/
private theorem refuses_weight (w : Weight) {trail : Str} (htrail : ∀ c ∈ trail, IsOws c) :
    refuses (w.after ++ (w.letter :: '=' :: w.value) ++ trail) = true ↔ w.plainZero := by
  have hafter : ∀ c ∈ w.after, IsOws c := fun c hc => w.spaces c (List.mem_append_right _ hc)
  have htrim := trim_padded (ows_whitespace hafter)
    (fun c hc => isWhitespace_false ⟨(w.tchars c hc).1, (w.tchars c hc).2.1⟩)
    (ows_whitespace htrail)
  have hfilter : (w.letter :: '=' :: w.value).filter (· ≠ ' ') = w.letter :: '=' :: w.value := by
    rw [List.filter_eq_self]
    intro c hc
    have hlow := (w.tchars c hc).1
    exact decide_eq_true (ne_of_toNat (by
      have hspace : ' '.toNat = 32 := rfl
      omega))
  unfold refuses
  rw [htrim, hfilter]
  simp [Weight.plainZero, and_or_left, or_assoc]

/-- A coding between spaces. -/
private theorem trim_coding (e : Entry) {lead trail : Str} (hlead : ∀ c ∈ lead, IsOws c)
    (htrail : ∀ c ∈ trail, IsOws c) : trim (lead ++ e.coding ++ trail) = e.coding :=
  trim_padded (ows_whitespace hlead) (token_dark e.token) (ows_whitespace htrail)

/-- What is decided of one element: nothing in it refuses, and the coding is gzip or the
wildcard. -/
theorem acceptsPart_of_split {part coding : Str} {bits : List Str}
    (h : split ';' part = coding :: bits) :
    acceptsPart part = true ↔
      (∀ bit ∈ bits, ¬ refuses bit = true) ∧
        (toAsciiLowercase (trim coding) = "gzip".toList ∨ trim coding = "*".toList) := by
  simp only [acceptsPart, h, List.headD_cons, List.tail_cons, Bool.and_eq_true, Bool.not_eq_true',
    List.any_eq_false, Bool.or_eq_true, decide_eq_true_eq]

/-- An empty element accepts nothing. -/
theorem acceptsPart_empty {spaces : Str} (h : ∀ c ∈ spaces, IsOws c) :
    acceptsPart spaces = false := by
  have htrim : trim spaces = [] := by
    have hpadded := @trim_padded spaces [] [] (ows_whitespace h)
      (fun c hc => absurd hc List.not_mem_nil) fun c hc => absurd hc List.not_mem_nil
    rwa [List.append_nil, List.append_nil] at hpadded
  rw [← Bool.not_eq_true, acceptsPart_of_split (split_of_notMem (ows_inside h).2), htrim]
  decide

/-- **One part of the list** is accepted when it names gzip or `*` and is not refused in
a spelling the scan knows. -/
theorem acceptsPart_entry (e : Entry) {lead trail : Str} (hlead : ∀ c ∈ lead, IsOws c)
    (htrail : ∀ c ∈ trail, IsOws c) :
    acceptsPart (lead ++ e.text ++ trail) = true ↔
      (e.isGzip ∨ e.isWildcard) ∧ ¬ e.plainlyRefused := by
  unfold Entry.text Entry.plainlyRefused
  cases e.weight with
  | none =>
      have hinside : ';' ∉ lead ++ (e.coding ++ []) ++ trail := by
        rw [List.append_nil]
        exact (inside_append.mpr ⟨inside_append.mpr ⟨ows_inside hlead, token_inside e.token⟩,
          ows_inside htrail⟩).2
      rw [Option.elim_none, acceptsPart_of_split (split_of_notMem hinside), List.append_nil,
        trim_coding e hlead htrail]
      simp [Entry.isGzip, Entry.isWildcard]
  | some w =>
      have hbefore : ∀ c ∈ w.before, IsOws c := fun c hc => w.spaces c (List.mem_append_left _ hc)
      have hafter : ∀ c ∈ w.after, IsOws c := fun c hc => w.spaces c (List.mem_append_right _ hc)
      have hcut : lead ++ (e.coding ++ w.text) ++ trail =
          (lead ++ e.coding ++ w.before) ++
            ';' :: (w.after ++ (w.letter :: '=' :: w.value) ++ trail) := by
        simp [Weight.text]
      have hfront : ';' ∉ lead ++ e.coding ++ w.before :=
        (inside_append.mpr ⟨inside_append.mpr ⟨ows_inside hlead, token_inside e.token⟩,
          ows_inside hbefore⟩).2
      have hweight : ';' ∉ w.letter :: '=' :: w.value := fun hmem =>
        (w.tchars _ hmem).2.2.2 rfl
      have hback : ';' ∉ w.after ++ (w.letter :: '=' :: w.value) ++ trail := by
        rw [List.mem_append, List.mem_append, not_or, not_or]
        exact ⟨⟨(ows_inside hafter).2, hweight⟩, (ows_inside htrail).2⟩
      have hsplit : split ';' ((lead ++ e.coding ++ w.before) ++
          ';' :: (w.after ++ (w.letter :: '=' :: w.value) ++ trail)) =
            [lead ++ e.coding ++ w.before, w.after ++ (w.letter :: '=' :: w.value) ++ trail] := by
        rw [split_append, split_of_notMem hfront, split_of_notMem hback]
        rfl
      rw [Option.elim_some, hcut, acceptsPart_of_split hsplit, trim_coding e hlead hbefore,
        List.forall_mem_singleton, refuses_weight w htrail]
      simp only [Option.some.injEq, exists_eq_left', Entry.isGzip, Entry.isWildcard]
      exact and_comm

/-! ## The list -/

/-- An element has no comma in it, so the list is cut between its elements. Neither spaces nor the
characters of a token are one, and the weight is made of these. -/
theorem Element.inside (el : Element) : ',' ∉ el.text := by
  have hlead : ∀ c ∈ el.lead, IsOws c := fun c hc => el.spaces c (List.mem_append_left _ hc)
  have htrail : ∀ c ∈ el.trail, IsOws c := fun c hc => el.spaces c (List.mem_append_right _ hc)
  have hentry : ',' ∉ el.entry.elim [] Entry.text := by
    cases el.entry with
    | none => exact List.not_mem_nil
    | some e =>
        rw [Option.elim_some, Entry.text, List.mem_append, not_or]
        refine ⟨(token_inside e.token).1, ?_⟩
        cases e.weight with
        | none => exact List.not_mem_nil
        | some w =>
            have hspaces := ows_inside w.spaces
            rw [inside_append] at hspaces
            have hweight : ',' ∉ w.letter :: '=' :: w.value := fun hmem =>
              (w.tchars _ hmem).2.2.1 rfl
            rw [Option.elim_some, Weight.text, List.mem_append, List.mem_cons, List.mem_append,
              not_or, not_or, not_or]
            exact ⟨hspaces.1.1, by decide, hspaces.2.1, hweight⟩
  rw [Element.text, List.mem_append, List.mem_append, not_or, not_or]
  exact ⟨⟨(ows_inside hlead).1, hentry⟩, (ows_inside htrail).1⟩

/-- So an element is accepted when it has an entry for gzip or the wildcard that is not plainly
refused. -/
theorem acceptsPart_element (el : Element) :
    acceptsPart el.text = true ↔
      ∃ e, el.entry = some e ∧ (e.isGzip ∨ e.isWildcard) ∧ ¬ e.plainlyRefused := by
  have hlead : ∀ c ∈ el.lead, IsOws c := fun c hc => el.spaces c (List.mem_append_left _ hc)
  have htrail : ∀ c ∈ el.trail, IsOws c := fun c hc => el.spaces c (List.mem_append_right _ hc)
  unfold Element.text
  cases el.entry with
  | none =>
      rw [Option.elim_none, List.append_nil, acceptsPart_empty el.spaces]
      exact iff_of_false (by decide) fun ⟨e, he, _⟩ => by cases he
  | some e =>
      rw [Option.elim_some, acceptsPart_entry e hlead htrail]
      simp only [Option.some.injEq, exists_eq_left']

/-- **What the scan makes of a list.** The text is cut back into its elements, and one of them
that names gzip or the wildcard is enough unless its weight is a plain zero. -/
theorem acceptsGzip_text (list : List Element) :
    acceptsGzip (some (headerText list)) = true ↔
      ∃ e ∈ entries list, (e.isGzip ∨ e.isWildcard) ∧ ¬ e.plainlyRefused := by
  have hparts : (∃ el ∈ list, acceptsPart el.text = true) ↔
      ∃ e ∈ entries list, (e.isGzip ∨ e.isWildcard) ∧ ¬ e.plainlyRefused := by
    unfold entries
    simp only [acceptsPart_element, List.mem_filterMap]
    grind
  rw [← hparts]
  cases list with
  | nil =>
      refine iff_of_false ?_ fun ⟨el, hel, _⟩ => absurd hel List.not_mem_nil
      decide
  | cons first rest =>
      have hsplit : split ',' (headerText (first :: rest)) = (first :: rest).map Element.text := by
        apply split_intercalate
        · exact List.cons_ne_nil _ _
        · intro piece hpiece
          obtain ⟨el, -, rfl⟩ := List.mem_map.mp hpiece
          exact el.inside
      rw [acceptsGzip, hsplit, List.any_map, List.any_eq_true]
      rfl

/-! ## What it means -/

/-- What is plainly refused is refused. -/
theorem Entry.plainlyRefused.refused {e : Entry} (h : e.plainlyRefused) : e.refused := by
  obtain ⟨w, hw, -, hvalue⟩ := h
  refine ⟨w, hw, ?_⟩
  unfold Weight.isZero
  rcases hvalue with h | h | h <;> rw [h] <;> exact all_decide_iff.mp (by decide)

/-- A client that takes gzip is not taken for one that does not. -/
theorem TakesGzip.accepted {es : List Entry} (h : TakesGzip es) :
    ∃ e ∈ es, (e.isGzip ∨ e.isWildcard) ∧ ¬ e.plainlyRefused := by
  rcases h with ⟨e, he, hgzip, hopen⟩ | ⟨-, e, he, hwildcard, hopen⟩
  · exact ⟨e, he, Or.inl hgzip, fun h => hopen h.refused⟩
  · exact ⟨e, he, Or.inr hwildcard, fun h => hopen h.refused⟩

/-- The two ways not to take gzip. -/
theorem not_takesGzip_iff {es : List Entry} :
    ¬ TakesGzip es ↔
      (∀ e ∈ es, e.isGzip → e.refused) ∧ (∃ e ∈ es, e.isGzip) ∨
        (∀ e ∈ es, ¬ e.isGzip) ∧ ∀ e ∈ es, e.isWildcard → e.refused := by
  have hlisted : (∀ e ∈ es, ¬ e.isGzip) ↔ ¬ ∃ e ∈ es, e.isGzip := by
    simp only [not_exists, not_and]
  unfold TakesGzip
  rw [hlisted]
  by_cases hgzip : ∃ e ∈ es, e.isGzip
  · simp only [hgzip, not_true_eq_false, false_and, or_false, and_true, not_exists, not_and,
      not_not]
  · simp only [hgzip, not_false_eq_true, true_and, and_false, false_or, not_or, not_exists,
      not_and, not_not]
    exact and_iff_right fun e he h => absurd ⟨e, he, h⟩ hgzip

/-- The list is read as it is meant, and a client that refuses gzip is never sent any. -/
def Negotiated (list : List Element) : Prop :=
  (acceptsGzip (some (headerText list)) = true ↔ TakesGzip (entries list)) ∧
    ∀ (gzip : Octets → Option Octets) (reply : Reply), ¬ TakesGzip (entries list) →
      maybeCompress gzip reply (some (headerText list)) = (false, reply)

/-- **A list is read as it is meant** exactly when refusals that decide can be told as
such. -/
theorem negotiated_iff (list : List Element) :
    Negotiated list ↔ RefusalsPlain (entries list) := by
  have hscan := acceptsGzip_text list
  constructor
  · rintro ⟨hread, -⟩ hnone e he hnamed
    by_contra hopen
    have htakes := hread.mp (hscan.mpr ⟨e, he, hnamed, hopen⟩)
    exact not_takesGzip_iff.mpr hnone htakes
  · intro hplain
    have hread : acceptsGzip (some (headerText list)) = true ↔ TakesGzip (entries list) := by
      refine ⟨?_, fun h => hscan.mpr h.accepted⟩
      intro haccept
      obtain ⟨e, he, hnamed, hopen⟩ := hscan.mp haccept
      by_contra htakes
      exact hopen (hplain (not_takesGzip_iff.mp htakes) e he hnamed)
    refine ⟨hread, ?_⟩
    intro gzip reply htakes
    have hscanned : acceptsGzip (some (headerText list)) = false :=
      Bool.eq_false_iff.mpr fun h => htakes (hread.mp h)
    rw [maybeCompress, hscanned]
    rfl

/-- The weight `q=` with this value. -/
def weightOf (value : Str) (h : IsQvalue value) : Weight where
  before := []
  after := []
  letter := 'q'
  value := value
  spaces := fun _ h => absurd h List.not_mem_nil
  letter_q := Or.inl rfl
  qvalue := h

/-- Gzip with a weight. -/
def gzipEntry (weight : Weight) : Entry where
  coding := "gzip".toList
  weight := some weight
  ne_nil := by decide
  token := all_decide_iff.mp (by decide)

/-- The wildcard. -/
def anyEntry : Entry where
  coding := ['*']
  weight := none
  ne_nil := by decide
  token := all_decide_iff.mp (by decide)

/-- An element behind so many spaces. -/
def elementOf (spaces : Nat) (entry : Entry) : Element where
  lead := List.replicate spaces ' '
  entry := some entry
  trail := []
  spaces := by
    intro c hc
    rw [List.append_nil] at hc
    exact Or.inl (List.eq_of_mem_replicate hc)

/-- `q=0` and `q=0.000`. -/
def shortZero : Weight :=
  weightOf ['0'] ⟨'0', [], Or.inl rfl, by decide, fun _ h => absurd h List.not_mem_nil,
    Or.inl ⟨rfl, rfl⟩⟩

/-- A zero that the code does not look for. -/
def longZero : Weight :=
  weightOf ['0', '.', '0', '0', '0'] ⟨'0', ['0', '0', '0'], Or.inl rfl, by decide,
    all_decide_iff.mp (by decide), Or.inr rfl⟩

/-- Gzip is refused and everything else welcome. -/
def anyButGzip : List Element := [elementOf 0 (gzipEntry shortZero), elementOf 1 anyEntry]

/-- Gzip is refused to three decimals. -/
def noGzip : List Element := [elementOf 0 (gzipEntry longZero)]

/-- A client that gives gzip the weight zero does not take it, whatever it says of others. -/
private theorem gzip_refused {weight : Weight} (hzero : weight.isZero) {es : List Entry}
    (hothers : ∀ e ∈ es, ¬ e.isGzip) : ¬ TakesGzip (gzipEntry weight :: es) := by
  rw [not_takesGzip_iff]
  have hgzip : toAsciiLowercase "gzip".toList = "gzip".toList := by decide
  refine Or.inl ⟨?_, gzipEntry weight, List.mem_cons_self, hgzip⟩
  rw [List.forall_mem_cons]
  exact ⟨fun _ => ⟨weight, rfl, hzero⟩, fun e he h => absurd h (hothers e he)⟩

/-- Two clients that refused gzip and are sent it. -/
theorem refusal_overlooked :
    (headerText anyButGzip = "gzip;q=0, *".toList ∧ ¬ Negotiated anyButGzip) ∧
      headerText noGzip = "gzip;q=0.000".toList ∧ ¬ Negotiated noGzip := by
  have hshort : shortZero.isZero := all_decide_iff.mp (by decide)
  have hlong : longZero.isZero := all_decide_iff.mp (by decide)
  have hothers : ∀ e ∈ [anyEntry], ¬ e.isGzip := by
    rw [List.forall_mem_singleton]
    unfold Entry.isGzip
    decide
  have hscan : acceptsGzip (some "gzip;q=0, *".toList) = true ∧
      acceptsGzip (some "gzip;q=0.000".toList) = true := by decide +kernel
  refine ⟨⟨rfl, ?_⟩, rfl, ?_⟩
  · rintro ⟨hread, -⟩
    exact gzip_refused hshort hothers (hread.mp hscan.1)
  · rintro ⟨hread, -⟩
    exact gzip_refused hlong (fun _ h => absurd h List.not_mem_nil) (hread.mp hscan.2)

end BreezeHttp.Compress
