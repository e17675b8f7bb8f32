import BreezeCore.Lib.Bytes
import Mathlib.Data.Rat.Cast.Order
import Mathlib.Data.List.TakeWhile
import Mathlib.Logic.Function.Basic

/-!
# Text as a list of characters

The string operations a program takes from its standard library, over lists of
characters: trimming, splitting, letter case, unsigned numbers in a radix,
decimal fractions, hexadecimal, and bytes written and read as UTF-8.
-/

namespace Text

open Bytes

/-- A text. -/
abbrev Str := List Char

/-- Characters with the Unicode property `White_Space`. -/
def isWhitespace (c : Char) : Bool :=
  let n := c.toNat
  (0x9 ≤ n && n ≤ 0xD) || n == 0x20 || n == 0x85 || n == 0xA0 || n == 0x1680 ||
    (0x2000 ≤ n && n ≤ 0x200A) || n == 0x2028 || n == 0x2029 || n == 0x202F || n == 0x205F ||
    n == 0x3000

/-- White space removed at both ends. -/
def trim (text : List Char) : List Char :=
  ((text.dropWhile isWhitespace).reverse.dropWhile isWhitespace).reverse

/-- `A` to `Z` made lower case, everything else left alone. -/
def toAsciiLowercase (text : List Char) : List Char := text.map Char.toLower

/-- The pieces between separators; a text without one is a single piece. -/
def split (sep : Char) : List Char → List (List Char)
  | [] => [[]]
  | c :: rest =>
      if c = sep then [] :: split sep rest
      else
        match split sep rest with
        | [] => [[c]]
        | piece :: pieces => (c :: piece) :: pieces

/-- What stands before the first separator and what stands after it. -/
def splitOnce (sep : Char) (text : List Char) : Option (List Char × List Char) :=
  match text.dropWhile (· ≠ sep) with
  | [] => none
  | _ :: rest => some (text.takeWhile (· ≠ sep), rest)

/-- The last piece: what stands behind the last separator, or everything. -/
def lastPiece (sep : Char) (text : List Char) : List Char :=
  (text.reverse.takeWhile (· ≠ sep)).reverse

/-- What is tested of every character holds of every character. -/
theorem all_decide_iff {p : Char → Prop} [DecidablePred p] {text : List Char} :
    (text.all fun c => decide (p c)) = true ↔ ∀ c ∈ text, p c := by
  rw [List.all_eq_true]
  exact forall₂_congr fun _ _ => decide_eq_true_iff

/-- Up to a list that stops the scan, only the part in front of it is scanned. -/
private theorem takeWhile_append_stop {p : Char → Bool} {stop : Char} (hstop : p stop = false)
    (xs ys : List Char) : (xs ++ stop :: ys).takeWhile p = xs.takeWhile p := by
  induction xs with
  | nil => simp [hstop]
  | cons x xs ih => simp only [List.cons_append, List.takeWhile_cons, ih]

/-- **Only the end counts.**  What stands before a separator does not reach the
last piece. -/
theorem lastPiece_append (sep : Char) (front back : List Char) :
    lastPiece sep (front ++ sep :: back) = lastPiece sep back := by
  have hrev : (front ++ sep :: back).reverse = back.reverse ++ sep :: front.reverse := by simp
  rw [lastPiece, hrev, takeWhile_append_stop (by simp), lastPiece]

/-- There is always one piece, if only an empty one. -/
theorem split_ne_nil (sep : Char) (text : List Char) : split sep text ≠ [] := by
  cases text with
  | nil => exact List.cons_ne_nil _ _
  | cons c rest =>
      rw [split]
      split
      · exact List.cons_ne_nil _ _
      · split <;> exact List.cons_ne_nil _ _

/-- A separator cuts a text in two. -/
theorem split_append (sep : Char) (front back : List Char) :
    split sep (front ++ sep :: back) = split sep front ++ split sep back := by
  induction front with
  | nil => simp [split]
  | cons c front ih =>
      rw [List.cons_append, split, split]
      by_cases hc : c = sep
      · rw [if_pos hc, if_pos hc, ih, List.cons_append]
      · rw [if_neg hc, if_neg hc, ih]
        cases hfront : split sep front with
        | nil => exact absurd hfront (split_ne_nil sep front)
        | cons piece pieces => rfl

/-- A text without the separator is one piece, the whole of it. -/
theorem split_of_notMem {sep : Char} {text : List Char} (h : sep ∉ text) :
    split sep text = [text] := by
  induction text with
  | nil => rfl
  | cons c rest ih =>
      rw [List.mem_cons, not_or] at h
      rw [split, if_neg (Ne.symm h.1), ih h.2]

/-- Pieces joined by a separator that none of them holds are the pieces again. -/
theorem split_intercalate {sep : Char} {pieces : List (List Char)} (hne : pieces ≠ [])
    (h : ∀ piece ∈ pieces, sep ∉ piece) : split sep ([sep].intercalate pieces) = pieces := by
  induction pieces with
  | nil => exact absurd rfl hne
  | cons piece pieces ih =>
      rw [List.forall_mem_cons] at h
      cases pieces with
      | nil => rw [List.intercalate_singleton, split_of_notMem h.1]
      | cons next rest =>
          rw [List.intercalate_cons_cons, List.append_assoc, List.singleton_append, split_append,
            split_of_notMem h.1, ih (List.cons_ne_nil _ _) h.2]
          rfl

/-- Trimming leaves a text that has no white space at its own ends. What is in front of it is
dropped from the left, and what is behind it from the right. -/
theorem trim_ends {lead text trail : List Char} (hlead : ∀ c ∈ lead, isWhitespace c = true)
    (hfirst : ∀ c ∈ text.head?, isWhitespace c = false)
    (hlast : ∀ c ∈ text.getLast?, isWhitespace c = false)
    (htrail : ∀ c ∈ trail, isWhitespace c = true) : trim (lead ++ text ++ trail) = text := by
  have hkeep : ∀ t : List Char, (∀ c ∈ t.head?, isWhitespace c = false) →
      t.dropWhile isWhitespace = t := by
    intro t ht
    cases t with
    | nil => rfl
    | cons c t => exact List.dropWhile_cons_of_neg (by rw [ht c rfl]; decide)
  have htrail' : ∀ c ∈ trail.reverse, isWhitespace c = true :=
    fun c hc => htrail c (List.mem_reverse.mp hc)
  have hlast' : ∀ c ∈ text.reverse.head?, isWhitespace c = false := by
    rw [List.head?_reverse]
    exact hlast
  rw [trim, List.append_assoc, List.dropWhile_append_of_pos hlead]
  cases text with
  | nil =>
      have hnil : trail.dropWhile isWhitespace = [] := List.dropWhile_eq_nil_iff.mpr htrail
      rw [List.nil_append, hnil]
      rfl
  | cons c text =>
      have hstop : (c :: text ++ trail).dropWhile isWhitespace = c :: text ++ trail :=
        List.dropWhile_cons_of_neg (by rw [hfirst c rfl]; decide)
      rw [hstop, List.reverse_append, List.dropWhile_append_of_pos htrail', hkeep _ hlast',
        List.reverse_reverse]

/-- A text without white space is what trimming leaves of it between white space. -/
theorem trim_padded {lead text trail : List Char} (hlead : ∀ c ∈ lead, isWhitespace c = true)
    (htext : ∀ c ∈ text, isWhitespace c = false) (htrail : ∀ c ∈ trail, isWhitespace c = true) :
    trim (lead ++ text ++ trail) = text :=
  trim_ends hlead (fun c hc => htext c (List.mem_of_head? hc))
    (fun c hc => htext c (List.mem_of_getLast? hc)) htrail

/-- Trimming takes off white space only. -/
theorem exists_trim (text : List Char) : ∃ lead trail, text = lead ++ trim text ++ trail ∧
    (∀ c ∈ lead, isWhitespace c = true) ∧ ∀ c ∈ trail, isWhitespace c = true := by
  refine ⟨text.takeWhile isWhitespace,
    ((text.dropWhile isWhitespace).reverse.takeWhile isWhitespace).reverse, ?_,
    fun c hc => List.mem_takeWhile_imp hc,
    fun c hc => List.mem_takeWhile_imp (List.mem_reverse.mp hc)⟩
  rw [trim, List.append_assoc, ← List.reverse_append, List.takeWhile_append_dropWhile,
    List.reverse_reverse, List.takeWhile_append_dropWhile]

/-- The last piece of a text without the separator is the text. -/
theorem lastPiece_of_notMem {sep : Char} {text : List Char} (h : sep ∉ text) :
    lastPiece sep text = text := by
  have hall : ∀ c ∈ text.reverse, decide (c ≠ sep) = true := by
    intro c hc
    apply decide_eq_true
    rintro rfl
    exact h (List.mem_reverse.mp hc)
  rw [lastPiece, List.takeWhile_eq_self_iff.mpr hall, List.reverse_reverse]

/-- The last piece is the last of the pieces. -/
theorem getLast?_split (sep : Char) (text : List Char) :
    (split sep text).getLast? = some (lastPiece sep text) := by
  by_cases h : sep ∈ text
  · -- Cut at the last separator, the first one from behind.
    obtain ⟨back, front, htext, hback⟩ :=
      List.eq_append_cons_of_mem (List.mem_reverse.mpr h)
    have hcut : text = front.reverse ++ sep :: back.reverse := by
      rw [← List.reverse_reverse text, htext]
      simp
    have hnone : sep ∉ back.reverse := fun hmem => hback (List.mem_reverse.mp hmem)
    rw [hcut, split_append, split_of_notMem hnone, lastPiece_append, lastPiece_of_notMem hnone,
      List.getLast?_concat]
  · rw [split_of_notMem h, lastPiece_of_notMem h]
    rfl

/-- Text in front of a first separator and behind it. The front is all that holds no separator, so
the two parts are determined by the text. -/
theorem splitOnce_eq_some {sep : Char} {text front back : List Char} :
    splitOnce sep text = some (front, back) ↔ text = front ++ sep :: back ∧ sep ∉ front := by
  have hstop : ∀ front' rest : List Char, sep ∉ front' →
      (front' ++ sep :: rest).takeWhile (· ≠ sep) = front' ∧
        (front' ++ sep :: rest).dropWhile (· ≠ sep) = sep :: rest := by
    intro front' rest hfront
    have hall : ∀ c ∈ front', decide (c ≠ sep) = true :=
      fun c hc => decide_eq_true fun heq => hfront (heq ▸ hc)
    rw [List.takeWhile_append_of_pos hall, List.dropWhile_append_of_pos hall]
    simp
  constructor
  · intro h
    by_cases hmem : sep ∈ text
    · obtain ⟨front', rest, rfl, hfront⟩ := List.eq_append_cons_of_mem hmem
      obtain ⟨htake, hdrop⟩ := hstop front' rest hfront
      rw [splitOnce, hdrop, htake] at h
      obtain ⟨rfl, rfl⟩ := Prod.mk.inj (Option.some.inj h)
      exact ⟨rfl, hfront⟩
    · have hdrop : text.dropWhile (· ≠ sep) = [] := by
        rw [List.dropWhile_eq_nil_iff]
        intro c hc
        exact decide_eq_true fun heq => hmem (heq ▸ hc)
      rw [splitOnce, hdrop] at h
      cases h
  · rintro ⟨rfl, hfront⟩
    obtain ⟨htake, hdrop⟩ := hstop front back hfront
    rw [splitOnce, hdrop, htake]

/-! ## Numbers -/

/-- The value of a digit, letters of either case counting from ten. -/
def digitValue (c : Char) : Option Nat :=
  let n := c.toNat
  if 48 ≤ n ∧ n ≤ 57 then some (n - 48)
  else if 97 ≤ n ∧ n ≤ 122 then some (n - 87)
  else if 65 ≤ n ∧ n ≤ 90 then some (n - 55)
  else none

/-- Read digits of a radix onto `acc`, giving up at `bound`. -/
def readDigits (radix bound : Nat) : (acc : Nat) → List Char → Option Nat
  | acc, [] => some acc
  | acc, c :: rest =>
      match digitValue c with
      | none => none
      | some d =>
          if d < radix ∧ acc * radix + d < bound then
            readDigits radix bound (acc * radix + d) rest
          else none

/-- An unsigned number below `bound`, with an optional plus sign. -/
def fromStrRadix (radix bound : Nat) : List Char → Option Nat
  | [] => none
  | ['+'] => none
  | '+' :: digits => readDigits radix bound 0 digits
  | digits => readDigits radix bound 0 digits

/-! ## Decimal fractions -/

/-- One of the ten digits. -/
def isDigit (c : Char) : Bool := 48 ≤ c.toNat && c.toNat ≤ 57

/-- The number some decimal digits denote. -/
def decimal (digits : List Char) : Nat :=
  digits.foldl (fun acc c => acc * 10 + (c.toNat - 48)) 0

/-- An optional sign in front of a text: whether it is a minus, and the rest. -/
def readSign : List Char → Bool × List Char
  | '-' :: rest => (true, rest)
  | '+' :: rest => (false, rest)
  | rest => (false, rest)

/-- The exponent a text ends in, zero if there is none. -/
def readExponent : List Char → Option Int
  | [] => some 0
  | c :: rest =>
      if c = 'e' ∨ c = 'E' then
        let (negative, digits) := readSign rest
        if digits ≠ [] ∧ digits.all isDigit then
          some (if negative then -(decimal digits : Int) else decimal digits)
        else none
      else none

/-- The value `m * 10 ^ e`. -/
def scale (m : Nat) (e : Int) : ℚ :=
  if 0 ≤ e then ((m * 10 ^ e.toNat : Nat) : ℚ) else (m : ℚ) / ((10 ^ (-e).toNat : Nat) : ℚ)

/-- The decimal fractions that round to a finite double are the ones below this
bound. -/
def f64Bound : ℚ := ((2 ^ 1024 - 2 ^ 970 : Nat) : ℚ)

/-- Read a text as a finite double: `text.parse::<f64>()` where the result is
finite.  What is written is rounded to a double once, by `toF64`. -/
def parseFiniteF64 (toF64 : ℚ → ℚ) (text : List Char) : Option ℚ :=
  let (negative, body) := readSign text
  let whole := body.takeWhile isDigit
  let rest := body.drop whole.length
  let (fraction, rest) : List Char × List Char :=
    match rest with
    | '.' :: rest => (rest.takeWhile isDigit, rest.dropWhile isDigit)
    | rest => ([], rest)
  if whole = [] ∧ fraction = [] then none
  else
    match readExponent rest with
    | none => none
    | some e =>
        let value := scale (decimal (whole ++ fraction)) (e - fraction.length)
        if value < f64Bound then some (toF64 (if negative then -value else value)) else none

/-- What is read has been rounded. -/
theorem parseFiniteF64_rounded {toF64 : ℚ → ℚ} {text : List Char} {ts : ℚ}
    (h : parseFiniteF64 toF64 text = some ts) : ∃ x, toF64 x = ts := by
  unfold parseFiniteF64 at h
  dsimp only at h
  -- with a fraction and without one, and then the exponent
  repeat' split at h
  all_goals first
    | exact ⟨_, Option.some.inj h⟩
    | cases h

/-! ## Bytes read as UTF-8 -/

/-- What may follow a leading byte: the number of continuation bytes, the range
of the first of them, and the payload bits of the leading byte itself. -/
def utf8Lead (byte : UInt8) : Option (Nat × UInt8 × UInt8 × Nat) :=
  let n := byte.toNat
  if 0xC2 ≤ n ∧ n ≤ 0xDF then some (1, 0x80, 0xBF, n - 0xC0)
  else if n = 0xE0 then some (2, 0xA0, 0xBF, 0)
  else if n = 0xED then some (2, 0x80, 0x9F, 0xD)
  else if 0xE1 ≤ n ∧ n ≤ 0xEF then some (2, 0x80, 0xBF, n - 0xE0)
  else if n = 0xF0 then some (3, 0x90, 0xBF, 0)
  else if 0xF1 ≤ n ∧ n ≤ 0xF3 then some (3, 0x80, 0xBF, n - 0xF0)
  else if n = 0xF4 then some (3, 0x80, 0x8F, 4)
  else none

/-- Read continuation bytes onto `acc`, stopping in front of the first bad one.
Only the first is held to a narrower range than `0x80..=0xBF`. -/
def utf8Tail : (count : Nat) → (lo hi : UInt8) → (acc : Nat) → Octets → Option Nat × Octets
  | 0, _, _, acc, rest => (some acc, rest)
  | _ + 1, _, _, _, [] => (none, [])
  | count + 1, lo, hi, acc, byte :: rest =>
      if lo ≤ byte ∧ byte ≤ hi then
        utf8Tail count 0x80 0xBF (acc * 64 + (byte.toNat - 0x80)) rest
      else (none, byte :: rest)

/-- Decode from here on; a byte that begins no character is replaced and passed over. The fuel is
the number of bytes. -/
def fromUtf8LossyFrom : (fuel : Nat) → Octets → List Char
  | 0, _ => []
  | _, [] => []
  | fuel + 1, byte :: rest =>
      if byte < 0x80 then Char.ofNat byte.toNat :: fromUtf8LossyFrom fuel rest
      else
        match utf8Lead byte with
        | none => Char.ofNat 0xFFFD :: fromUtf8LossyFrom fuel rest
        | some (count, lo, hi, bits) =>
            match utf8Tail count lo hi bits rest with
            | (some n, rest) => Char.ofNat n :: fromUtf8LossyFrom fuel rest
            | (none, rest) => Char.ofNat 0xFFFD :: fromUtf8LossyFrom fuel rest

/-- Bytes read as UTF-8, each maximal bad sequence as one `U+FFFD`. -/
def fromUtf8Lossy (bytes : Octets) : List Char := fromUtf8LossyFrom bytes.length bytes

/-- A truncated sequence is one replacement character, and reading goes on
behind it. -/
example : fromUtf8Lossy [0x6E, 0xC3, 0xA9, 0xE2, 0x82, 0x5F] =
    ['n', 'é', Char.ofNat 0xFFFD, '_'] := by decide

/-- The bytes of a text. -/
def toUtf8 (text : List Char) : Octets := text.flatMap String.utf8EncodeChar

/-- Different texts have different bytes. -/
theorem toUtf8_injective : Function.Injective toUtf8 := by
  intro a b h
  have hbytes : a.utf8Encode = b.utf8Encode := congrArg List.toByteArray h
  have hdecode := congrArg ByteArray.utf8Decode? hbytes
  rw [List.utf8Decode?_utf8Encode, List.utf8Decode?_utf8Encode] at hdecode
  simpa using hdecode

/-- Each ASCII character is one byte. -/
theorem length_toUtf8_of_ascii {text : List Char} (h : ∀ c ∈ text, c.toNat < 128) :
    (toUtf8 text).length = text.length := by
  induction text with
  | nil => rfl
  | cons c text ih =>
      rw [List.forall_mem_cons] at h
      have hsize : c.utf8Size = 1 :=
        Char.utf8Size_eq_one_iff.mpr (UInt32.le_iff_toNat_le.mpr (Nat.le_of_lt_succ h.1))
      have hrest : (text.flatMap String.utf8EncodeChar).length = text.length := ih h.2
      rw [toUtf8, List.flatMap_cons, List.length_append, String.length_utf8EncodeChar, hsize, hrest,
        List.length_cons, Nat.add_comm]

/-! ## Hexadecimal -/

/-- A digit in lower case. -/
def hexDigit (n : Nat) : Char := if n < 10 then Char.ofNat (48 + n) else Char.ofNat (87 + n)

/-- Two lower-case digits for each byte. -/
def hexLower (bytes : Octets) : List Char :=
  bytes.flatMap fun b => [hexDigit (b.toNat / 16), hexDigit (b.toNat % 16)]

/-- Sixteen different characters. -/
private theorem hexDigit_injective : ∀ a b : Fin 16, hexDigit a = hexDigit b → a = b := by decide

/-- Different bytes have different digits. Each byte gives two of them, so that the digits are
compared pair by pair. -/
theorem hexLower_injective : Function.Injective hexLower := by
  intro xs
  induction xs with
  | nil =>
      intro ys h
      cases ys with
      | nil => rfl
      | cons y ys => simp [hexLower] at h
  | cons x xs ih =>
      intro ys h
      cases ys with
      | nil => simp [hexLower] at h
      | cons y ys =>
          have hx := x.toNat_lt
          have hy := y.toNat_lt
          have hcons : hexDigit (x.toNat / 16) :: hexDigit (x.toNat % 16) :: hexLower xs =
              hexDigit (y.toNat / 16) :: hexDigit (y.toNat % 16) :: hexLower ys := h
          obtain ⟨hhigh, hrest⟩ := List.cons.inj hcons
          obtain ⟨hlow, hrest⟩ := List.cons.inj hrest
          have hdiv := hexDigit_injective ⟨x.toNat / 16, by omega⟩ ⟨y.toNat / 16, by omega⟩ hhigh
          have hmod := hexDigit_injective ⟨x.toNat % 16, by omega⟩ ⟨y.toNat % 16, by omega⟩ hlow
          have hdiv' : x.toNat / 16 = y.toNat / 16 := congrArg Fin.val hdiv
          have hmod' : x.toNat % 16 = y.toNat % 16 := congrArg Fin.val hmod
          have hxy : x = y := UInt8.toNat_inj.mp (by omega)
          rw [hxy, ih hrest]

end Text
