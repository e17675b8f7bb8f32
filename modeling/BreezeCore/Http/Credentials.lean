import BreezeCore.Http.ConfigRuns
import BreezeCore.Lib.Numerals

/-!
# Credentials in the configuration

One bad entry of `config.json` must not stop the other units working, so a
credential that is not hexadecimal is left out.  The decoder cuts the text two
bytes at a time and gives each slice to the integer parser: a slice that ends
inside a character panics, and a slice of a plus sign and a digit is a number.
`honoured_iff` says that nothing else stands between the start of the
server and what the document means.
-/

namespace BreezeHttp.ConfigRoutes

open Fallible Bytes Text Net BreezeStore BreezeDevice

/-! ## What a credential means -/

/-- A non-empty text of an even number of hexadecimal digits. -/
def IsHex (s : Str) : Prop := s ≠ [] ∧ s.length % 2 = 0 ∧ ∀ c ∈ s, IsDigitIn 16 c

instance (s : Str) : Decidable (IsHex s) :=
  decidable_of_iff
    (s ≠ [] ∧ s.length % 2 = 0 ∧ (s.all fun c => decide (IsDigitIn 16 c)) = true)
    (and_congr_right fun _ => and_congr_right fun _ => all_decide_iff)

/-- The byte that two digits denote. -/
def pairValue (pair : Char × Char) : UInt8 :=
  UInt8.ofNat ((digitValue pair.1).getD 0 * 16 + (digitValue pair.2).getD 0)

/-- The bytes that pairs of digits denote. -/
def denoted : Str → Octets
  | c :: d :: rest => pairValue (c, d) :: denoted rest
  | _ => []

/-- A credential field, where it is one. -/
def credential (s : Str) : Option Octets := if IsHex s then some (denoted s) else none

/-- A key has 32 bytes. -/
def keyOf (bytes : Octets) : Option (Arr 32) :=
  if h : bytes.length = 32 then some ⟨bytes, h⟩ else none

/-- The unit an entry of the document stands for, or that it is skipped. A text that is no
credential counts as none, and the entry as a unit without it. -/
def intended (unit : UnitConfig) : Option DeviceUnit :=
  match IpAddr.parse unit.ip with
  | none => none
  | some ip =>
      if 0 ≤ unit.id.toInt then
        some
          { id := unit.id.toInt.toNat
            name := unit.name
            ip := ip
            port := unit.port
            token := unit.token.bind credential
            key := (unit.key.bind credential).bind keyOf }
      else none

example : credential "00fF".toList = some [0, 255] ∧ credential "+5".toList = none ∧
    credential "".toList = none ∧ credential "é".toList = none := by decide +kernel

/-! ## What the decoder makes of a text -/

/-- The parser takes the slice for a number. -/
def Readable (pair : Char × Char) : Prop :=
  (IsDigitIn 16 pair.1 ∨ pair.1 = '+') ∧ IsDigitIn 16 pair.2

/-- The text of some slices. -/
def spelled (pairs : List (Char × Char)) : Str := pairs.flatMap fun pair => [pair.1, pair.2]

/-- The text ends, or has no character boundary, before its second byte is complete. -/
def Cut (rest : Str) : Prop := rest ≠ [] ∧ ∀ front, front <+: rest → (toUtf8 front).length ≠ 2

/-- Behind slices that are numbers comes one that cuts a character. -/
def Stops (s : Str) : Prop :=
  ∃ pairs rest, s = spelled pairs ++ rest ∧ (∀ pair ∈ pairs, Readable pair) ∧ Cut rest

/-- All slices are numbers. -/
def AllReadable (s : Str) : Prop := ∃ pairs, s = spelled pairs ∧ ∀ pair ∈ pairs, Readable pair

/-- A text of an even number of bytes has a slice that cuts a character, and only slices
that are numbers in front of it. -/
def CutsCharacter (s : Str) : Prop := (toUtf8 s).length % 2 = 0 ∧ Stops s

/-- All slices are numbers, and one of them has a plus sign. -/
def Signed (s : Str) : Prop :=
  ∃ pairs, s = spelled pairs ∧ (∀ pair ∈ pairs, Readable pair) ∧ ∃ pair ∈ pairs, pair.1 = '+'

/-- A text is as long, in bytes, as its first character and the rest. -/
private theorem length_toUtf8_cons (c : Char) (text : Str) :
    (toUtf8 (c :: text)).length = c.utf8Size + (toUtf8 text).length := by
  simp [toUtf8]

/-- One character is cut unless it is two bytes long. -/
theorem cut_single {c : Char} : Cut [c] ↔ c.utf8Size ≠ 2 := by
  have hnil : (toUtf8 ([] : Str)).length = 0 := rfl
  constructor
  · rintro ⟨-, hcut⟩ hsize
    have := hcut [c] (List.prefix_refl _)
    rw [length_toUtf8_cons] at this
    omega
  · intro hsize
    refine ⟨List.cons_ne_nil _ _, ?_⟩
    intro front hfront
    rcases List.prefix_cons_iff.mp hfront with rfl | ⟨tail, rfl, htail⟩
    · rw [hnil]
      decide
    · rw [List.prefix_nil.mp htail, length_toUtf8_cons]
      omega

/-- Two are cut unless the first is two bytes long or each of them is one. The code slices by
bytes, two at a time, and a slice has to begin and end between characters. -/
theorem cut_pair {c d : Char} {rest : Str} :
    Cut (c :: d :: rest) ↔ c.utf8Size ≠ 2 ∧ ¬ (c.utf8Size = 1 ∧ d.utf8Size = 1) := by
  have hnil : (toUtf8 ([] : Str)).length = 0 := rfl
  have hc := c.utf8Size_pos
  have hd := d.utf8Size_pos
  constructor
  · rintro ⟨-, hcut⟩
    have hone := hcut [c] ⟨d :: rest, rfl⟩
    have htwo := hcut [c, d] ⟨rest, rfl⟩
    rw [length_toUtf8_cons] at hone
    rw [length_toUtf8_cons, length_toUtf8_cons] at htwo
    omega
  · rintro ⟨hone, htwo⟩
    refine ⟨List.cons_ne_nil _ _, ?_⟩
    intro front hfront
    rcases List.prefix_cons_iff.mp hfront with rfl | ⟨tail, rfl, htail⟩
    · rw [hnil]
      decide
    · rcases List.prefix_cons_iff.mp htail with rfl | ⟨more, rfl, -⟩
      · rw [length_toUtf8_cons]
        omega
      · rw [length_toUtf8_cons, length_toUtf8_cons]
        omega

/-- A slice of two characters. A plus sign in front is taken as a sign, so that `+7` is a byte
like any other. -/
theorem fromStrRadix_pair {c d : Char} {n : Nat} :
    fromStrRadix 16 256 [c, d] = some n ↔
      Readable (c, d) ∧ n = (digitValue c).getD 0 * 16 + (digitValue d).getD 0 := by
  rw [fromStrRadix_eq_some (by decide) (by decide)]
  unfold Numeral Readable
  constructor
  · rintro ⟨digits, rfl | hsign, ⟨hne, hdigits, rfl⟩, -⟩
    · rw [List.forall_mem_cons, List.forall_mem_singleton] at hdigits
      exact ⟨⟨Or.inl hdigits.1, hdigits.2⟩, by simp [digitsOnto]⟩
    · obtain ⟨rfl, rfl⟩ := List.cons.inj hsign
      rw [List.forall_mem_singleton] at hdigits
      exact ⟨⟨Or.inr rfl, hdigits⟩, by simp [digitsOnto, digitValue]⟩
  · rintro ⟨⟨hc | rfl, hd⟩, rfl⟩
    · obtain ⟨x, hx, hcx⟩ := hc
      obtain ⟨y, hy, hdy⟩ := hd
      refine ⟨[c, d], Or.inl rfl, ⟨List.cons_ne_nil _ _, ?_, ?_⟩, ?_⟩
      · rw [List.forall_mem_cons, List.forall_mem_singleton]
        exact ⟨⟨x, hx, hcx⟩, ⟨y, hy, hdy⟩⟩
      · simp [digitsOnto]
      · rw [hcx, hdy]
        dsimp only [Option.getD_some]
        omega
    · obtain ⟨y, hy, hdy⟩ := hd
      refine ⟨[d], Or.inr rfl, ⟨List.cons_ne_nil _ _, ?_, ?_⟩, ?_⟩
      · rw [List.forall_mem_singleton]
        exact ⟨y, hy, hdy⟩
      · simp [digitsOnto, digitValue]
      · rw [hdy]
        have hplus : digitValue '+' = none := by decide
        rw [hplus, Option.getD_some, Option.getD_none]
        omega

/-- A slice that is a number is two bytes long. -/
theorem Readable.size {c d : Char} (h : Readable (c, d)) : c.utf8Size = 1 ∧ d.utf8Size = 1 := by
  have hsize : ∀ c : Char, c.toNat < 128 → c.utf8Size = 1 := fun c hc =>
    Char.utf8Size_eq_one_iff.mpr (UInt32.le_iff_toNat_le.mpr (Nat.le_of_lt_succ hc))
  obtain ⟨hc | rfl, hd⟩ := h
  · exact ⟨hsize c (toNat_lt_of_isDigitIn hc), hsize d (toNat_lt_of_isDigitIn hd)⟩
  · exact ⟨rfl, hsize d (toNat_lt_of_isDigitIn hd)⟩

/-- A spelling is one pair after the other. -/
theorem spelled_cons (pair : Char × Char) (pairs : List (Char × Char)) :
    spelled (pair :: pairs) = pair.1 :: pair.2 :: spelled pairs := rfl

/-- An empty text has nothing to stop at. -/
theorem stops_nil : ¬ Stops [] := by
  rintro ⟨pairs, rest, heq, -, hne, -⟩
  exact hne (List.append_eq_nil_iff.mp heq.symm).2

/-- One character stops the reading when it is cut. -/
theorem stops_single {c : Char} : Stops [c] ↔ Cut [c] := by
  constructor
  · rintro ⟨pairs, rest, heq, -, hcut⟩
    cases pairs with
    | nil => exact heq ▸ hcut
    | cons pair pairs => cases heq
  · exact fun h => ⟨[], [c], rfl, fun pair hpair => absurd hpair List.not_mem_nil, h⟩

/-- Two stop it at once, or further on if the first pair can be read. -/
theorem stops_pair {c d : Char} {rest : Str} :
    Stops (c :: d :: rest) ↔ Cut (c :: d :: rest) ∨ Readable (c, d) ∧ Stops rest := by
  constructor
  · rintro ⟨pairs, tail, heq, hpairs, hcut⟩
    cases pairs with
    | nil => exact Or.inl (heq ▸ hcut)
    | cons pair pairs =>
        rw [spelled_cons, List.cons_append, List.cons_append, List.cons.injEq, List.cons.injEq]
          at heq
        obtain ⟨rfl, rfl, hrest⟩ := heq
        rw [List.forall_mem_cons] at hpairs
        exact Or.inr ⟨hpairs.1, pairs, tail, hrest, hpairs.2, hcut⟩
  · rintro (hcut | ⟨hread, pairs, tail, rfl, hpairs, hcut⟩)
    · exact ⟨[], _, rfl, fun pair hpair => absurd hpair List.not_mem_nil, hcut⟩
    · exact ⟨(c, d) :: pairs, tail, rfl, List.forall_mem_cons.mpr ⟨hread, hpairs⟩, hcut⟩

/-- All of an empty text can be read. -/
theorem allReadable_nil : AllReadable [] :=
  ⟨[], rfl, fun _ h => absurd h List.not_mem_nil⟩

/-- A single character is no pair. -/
theorem allReadable_single {c : Char} : ¬ AllReadable [c] := by
  rintro ⟨pairs, heq, -⟩
  cases pairs with
  | nil => cases heq
  | cons pair pairs => cases heq

/-- A pair can be read, and the rest. -/
theorem allReadable_pair {c d : Char} {rest : Str} :
    AllReadable (c :: d :: rest) ↔ Readable (c, d) ∧ AllReadable rest := by
  constructor
  · rintro ⟨pairs, heq, hpairs⟩
    cases pairs with
    | nil => cases heq
    | cons pair pairs =>
        rw [spelled_cons, List.cons.injEq, List.cons.injEq] at heq
        obtain ⟨rfl, rfl, rfl⟩ := heq
        rw [List.forall_mem_cons] at hpairs
        exact ⟨hpairs.1, pairs, rfl, hpairs.2⟩
  · rintro ⟨hread, pairs, rfl, hpairs⟩
    exact ⟨(c, d) :: pairs, rfl, List.forall_mem_cons.mpr ⟨hread, hpairs⟩⟩

/-- **What the decoder does.**  It panics at a slice that cuts a character, makes bytes
of slices that are all numbers, and gives up otherwise. -/
theorem hexPairs_spec (s : Str) :
    (Stops s → hexPairs s = crash) ∧ (AllReadable s → hexPairs s = .ok (some (denoted s))) ∧
      (¬ Stops s → ¬ AllReadable s → hexPairs s = .ok none) := by
  fun_induction hexPairs s with
  | case1 =>
      exact ⟨fun h => absurd h stops_nil, fun _ => rfl, fun _ h => absurd allReadable_nil h⟩
  | case2 c hwide =>
      refine ⟨fun h => absurd hwide (cut_single.mp (stops_single.mp h)), ?_, fun _ _ => rfl⟩
      exact fun h => absurd h allReadable_single
  | case3 c hwide =>
      refine ⟨fun _ => rfl, fun h => absurd h allReadable_single, ?_⟩
      exact fun h => absurd (stops_single.mpr (cut_single.mpr hwide)) h
  | case4 c d rest hwide =>
      have hread : ¬ Readable (c, d) := fun h => by have := h.size.1; omega
      refine ⟨?_, fun h => absurd (allReadable_pair.mp h).1 hread, fun _ _ => rfl⟩
      intro h
      rcases stops_pair.mp h with hcut | ⟨h, -⟩
      · exact absurd hwide (cut_pair.mp hcut).1
      · exact absurd h hread
  | case5 c d rest hwide hnarrow =>
      have hcut : Cut (c :: d :: rest) := cut_pair.mpr ⟨hwide, by omega⟩
      refine ⟨fun _ => rfl, ?_, fun h => absurd (stops_pair.mpr (Or.inl hcut)) h⟩
      intro h
      have hsize := (allReadable_pair.mp h).1.size
      omega
  | case6 c d rest hwide hnarrow hnone =>
      have hread : ¬ Readable (c, d) := by
        intro h
        rw [fromStrRadix_pair.mpr ⟨h, rfl⟩] at hnone
        cases hnone
      refine ⟨?_, fun h => absurd (allReadable_pair.mp h).1 hread, fun _ _ => rfl⟩
      intro h
      rcases stops_pair.mp h with hcut | ⟨h, -⟩
      · have hsizes := (cut_pair.mp hcut).2
        omega
      · exact absurd h hread
  | case7 c d rest hwide hnarrow n hn ih =>
      obtain ⟨hread, rfl⟩ := fromStrRadix_pair.mp hn
      refine ⟨?_, ?_, ?_⟩
      · intro h
        rcases stops_pair.mp h with hcut | ⟨-, hrest⟩
        · have hsizes := (cut_pair.mp hcut).2
          omega
        · rw [ih.1 hrest]
          rfl
      · intro h
        rw [ih.2.1 (allReadable_pair.mp h).2]
        rfl
      · intro hstop hall
        rw [ih.2.2 (fun h => hstop (stops_pair.mpr (Or.inr ⟨hread, h⟩)))
          (fun h => hall (allReadable_pair.mpr ⟨hread, h⟩))]
        rfl

/-! ## A credential field -/

/-- An even number of characters is pairs. -/
theorem exists_spelled : ∀ s : Str, s.length % 2 = 0 → ∃ pairs, s = spelled pairs
  | [], _ => ⟨[], rfl⟩
  | [_], h => absurd h (show ¬ 1 % 2 = 0 by decide)
  | c :: d :: rest, h => by
      rw [List.length_cons, List.length_cons] at h
      obtain ⟨pairs, rfl⟩ := exists_spelled rest (by omega)
      exact ⟨(c, d) :: pairs, rfl⟩

/-- Two to each. -/
theorem length_spelled (pairs : List (Char × Char)) :
    (spelled pairs).length = 2 * pairs.length := by
  induction pairs with
  | nil => rfl
  | cons pair pairs ih =>
      rw [spelled_cons, List.length_cons, List.length_cons, ih, List.length_cons]
      omega

/-- What can be read is ASCII, so it has as many bytes as characters, and an even number. -/
theorem AllReadable.even {s : Str} (h : AllReadable s) : (toUtf8 s).length % 2 = 0 := by
  obtain ⟨pairs, rfl, hpairs⟩ := h
  induction pairs with
  | nil => rfl
  | cons pair pairs ih =>
      rw [List.forall_mem_cons] at hpairs
      obtain ⟨hc, hd⟩ := hpairs.1.size
      have hrest := ih hpairs.2
      rw [spelled_cons, length_toUtf8_cons, length_toUtf8_cons]
      omega

/-- A text with a plus sign among its pairs can be read. -/
theorem Signed.allReadable {s : Str} (h : Signed s) : AllReadable s := by
  obtain ⟨pairs, heq, hpairs, -⟩ := h
  exact ⟨pairs, heq, hpairs⟩

/-- A text with a plus sign in it is no hexadecimal text. -/
theorem Signed.not_isHex {s : Str} (h : Signed s) : ¬ IsHex s := by
  obtain ⟨pairs, rfl, -, pair, hpair, hplus⟩ := h
  rintro ⟨-, -, hdigits⟩
  have hmem : pair.1 ∈ spelled pairs := List.mem_flatMap.mpr ⟨pair, hpair, List.mem_cons_self⟩
  rw [hplus] at hmem
  exact not_isDigitIn_plus (hdigits '+' hmem)

/-- Hexadecimal digits are slices that are numbers without a plus sign. Both cut the text into
pairs, and a pair is two digits or a sign and a digit. -/
theorem isHex_iff {s : Str} : IsHex s ↔ s ≠ [] ∧ AllReadable s ∧ ¬ Signed s := by
  constructor
  · intro h
    refine ⟨h.1, ?_, fun hsigned => hsigned.not_isHex h⟩
    obtain ⟨-, heven, hdigits⟩ := h
    obtain ⟨pairs, rfl⟩ := exists_spelled s heven
    refine ⟨pairs, rfl, ?_⟩
    intro pair hpair
    have hmem : ∀ c ∈ [pair.1, pair.2], IsDigitIn 16 c := fun c hc =>
      hdigits c (List.mem_flatMap.mpr ⟨pair, hpair, hc⟩)
    rw [List.forall_mem_cons, List.forall_mem_singleton] at hmem
    exact ⟨Or.inl hmem.1, hmem.2⟩
  · rintro ⟨hne, ⟨pairs, rfl, hpairs⟩, hsigned⟩
    refine ⟨hne, by rw [length_spelled, Nat.mul_mod_right], ?_⟩
    · intro c hc
      obtain ⟨pair, hpair, hc⟩ := List.mem_flatMap.mp hc
      obtain ⟨hfirst, hsecond⟩ := hpairs pair hpair
      have hdigit : IsDigitIn 16 pair.1 :=
        hfirst.resolve_right fun hplus => hsigned ⟨pairs, rfl, hpairs, pair, hpair, hplus⟩
      rcases List.mem_cons.mp hc with rfl | hc
      · exact hdigit
      · rwa [List.mem_singleton.mp hc]

/-- **What becomes of a credential field.** A text that is cut within a character panics; one
of readable pairs is their bytes; and anything else, an empty or odd text included, is no
credential. -/
theorem hexToBytes_spec (s : Str) :
    (CutsCharacter s → hexToBytes s = crash) ∧
      (s ≠ [] → AllReadable s → hexToBytes s = .ok (some (denoted s))) ∧
      (¬ CutsCharacter s → (s = [] ∨ ¬ AllReadable s) → hexToBytes s = .ok none) := by
  obtain ⟨hstops, hall, hnone⟩ := hexPairs_spec s
  unfold hexToBytes
  by_cases hskip : s = [] ∨ (toUtf8 s).length % 2 = 1
  · rw [if_pos hskip]
    refine ⟨?_, ?_, fun _ _ => rfl⟩
    · rintro ⟨heven, h⟩
      rcases hskip with rfl | hodd
      · exact absurd h stops_nil
      · omega
    · intro hne h
      have heven := h.even
      exact absurd hskip (not_or.mpr ⟨hne, by omega⟩)
  · rw [if_neg hskip]
    rw [not_or] at hskip
    refine ⟨fun h => hstops h.2, fun _ => hall, ?_⟩
    intro hcut hread
    exact hnone (fun h => hcut ⟨by omega, h⟩) (hread.resolve_left hskip.1)

/-- A text that is cut in a character cannot be read to its end. -/
theorem CutsCharacter.not_allReadable {s : Str} (h : CutsCharacter s) : ¬ AllReadable s := by
  intro hall
  have hread := (hexPairs_spec s).2.1 hall
  rw [(hexPairs_spec s).1 h.2] at hread
  cases hread

/-- **A token is taken for what it is** exactly when no slice cuts a character and no
plus sign passes for a digit. -/
theorem hexToBytes_eq_iff {s : Str} :
    hexToBytes s = .ok (credential s) ↔ ¬ CutsCharacter s ∧ ¬ Signed s := by
  obtain ⟨hcut, hall, hnone⟩ := hexToBytes_spec s
  unfold credential
  by_cases hcuts : CutsCharacter s
  · rw [hcut hcuts]
    exact iff_of_false (fun h => by cases h) fun h => h.1 hcuts
  · by_cases hread : s ≠ [] ∧ AllReadable s
    · rw [hall hread.1 hread.2]
      by_cases hsigned : Signed s
      · rw [if_neg hsigned.not_isHex]
        exact iff_of_false (fun h => by cases h) fun h => h.2 hsigned
      · rw [if_pos (isHex_iff.mpr ⟨hread.1, hread.2, hsigned⟩)]
        exact iff_of_true rfl ⟨hcuts, hsigned⟩
    · rw [not_and_or, not_not] at hread
      have hhex : ¬ IsHex s := fun h => by
        obtain ⟨hne, hread', -⟩ := isHex_iff.mp h
        exact hread.elim hne fun h => h hread'
      have hsigned : ¬ Signed s := by
        rintro h
        rcases hread with rfl | hread
        · obtain ⟨pairs, heq, -, pair, hpair, -⟩ := h
          cases pairs with
          | nil => exact List.not_mem_nil hpair
          | cons first rest => cases heq
        · exact hread h.allReadable
      rw [hnone hcuts hread, if_neg hhex]
      exact iff_of_true rfl ⟨hcuts, hsigned⟩

/-- A byte to two digits. -/
theorem length_denoted (s : Str) : (denoted s).length = s.length / 2 := by
  fun_induction denoted s with
  | case1 c d rest ih =>
      rw [List.length_cons, ih, List.length_cons, List.length_cons]
      omega
  | case2 s hshort =>
      match s with
      | [] => rfl
      | [c] => exact (Nat.div_eq_of_lt (show 1 < 2 by decide)).symm
      | c :: d :: rest => exact absurd rfl (hshort c d rest)

/-- A key has thirty-two bytes. -/
theorem keyOf_isSome {bytes : Octets} : (keyOf bytes).isSome = true ↔ bytes.length = 32 := by
  unfold keyOf
  split
  next h => exact iff_of_true rfl h
  next h => exact iff_of_false (by decide) h

/-- **A key is taken for what it is** exactly when no slice cuts a character and no plus
sign passes for a digit in a text of the right length. -/
theorem hexToBytes_key_iff {s : Str} :
    (∃ bytes, hexToBytes s = .ok bytes ∧ bytes.bind keyOf = (credential s).bind keyOf) ↔
      ¬ CutsCharacter s ∧ ¬ (Signed s ∧ s.length = 64) := by
  by_cases hsigned : Signed s
  · have hne : s ≠ [] := by
      obtain ⟨pairs, rfl, -, pair, hpair, -⟩ := hsigned
      cases pairs with
      | nil => exact absurd hpair List.not_mem_nil
      | cons first rest => exact List.cons_ne_nil _ _
    have hall := hsigned.allReadable
    have hread := (hexToBytes_spec s).2.1 hne hall
    have hcuts : ¬ CutsCharacter s := fun h => h.not_allReadable hall
    have hkey : keyOf (denoted s) = none ↔ ¬ s.length = 64 := by
      obtain ⟨pairs, rfl, -⟩ := hall
      rw [← Option.not_isSome_iff_eq_none, keyOf_isSome, length_denoted, length_spelled]
      omega
    have hnone : credential s = none := if_neg hsigned.not_isHex
    rw [hread, hnone]
    constructor
    · rintro ⟨bytes, hbytes, hsame⟩
      obtain rfl := Except.ok.inj hbytes
      exact ⟨hcuts, fun h => hkey.mp hsame h.2⟩
    · rintro ⟨-, hlen⟩
      exact ⟨_, rfl, hkey.mpr fun h => hlen ⟨hsigned, h⟩⟩
  · constructor
    · rintro ⟨bytes, hbytes, -⟩
      refine ⟨?_, fun h => hsigned h.1⟩
      intro hcuts
      rw [(hexToBytes_spec s).1 hcuts] at hbytes
      cases hbytes
    · rintro ⟨hcuts, -⟩
      exact ⟨_, hexToBytes_eq_iff.mpr ⟨hcuts, hsigned⟩, rfl⟩

/-! ## The document -/

/-- The credentials of an entry are read as what they are, as far as they are looked at:
the token, and what a key holds, only where the id is not negative. -/
structure Clean (unit : UnitConfig) : Prop where
  key : ∀ s, unit.key = some s → ¬ CutsCharacter s
  keySigned : 0 ≤ unit.id.toInt → ∀ s, unit.key = some s → ¬ (Signed s ∧ s.length = 64)
  token : 0 ≤ unit.id.toInt → ∀ s, unit.token = some s → ¬ CutsCharacter s ∧ ¬ Signed s

/-- A token is honoured unless it cuts a character or has a plus sign. -/
theorem optionalHex_token_iff {token : Option Str} :
    optionalHex token = .ok (token.bind credential) ↔
      ∀ s, token = some s → ¬ CutsCharacter s ∧ ¬ Signed s := by
  cases token with
  | none => exact iff_of_true rfl fun s h => by cases h
  | some s =>
      refine hexToBytes_eq_iff.trans ⟨?_, fun h => h s rfl⟩
      rintro h t ⟨⟩
      exact h

/-- So is a key, and a plus sign harms only one that has the length of a key. -/
theorem optionalHex_key_iff {key : Option Str} :
    (∃ bytes, optionalHex key = .ok bytes ∧
        bytes.bind keyOf = (key.bind credential).bind keyOf) ↔
      ∀ s, key = some s → ¬ CutsCharacter s ∧ ¬ (Signed s ∧ s.length = 64) := by
  cases key with
  | none => exact iff_of_true ⟨none, rfl, rfl⟩ fun s h => by cases h
  | some s =>
      refine hexToBytes_key_iff.trans ⟨?_, fun h => h s rfl⟩
      rintro h t ⟨⟩
      exact h

/-- Reading does not panic unless a character is cut. -/
theorem optionalHex_ok_iff {text : Option Str} :
    (∃ bytes, optionalHex text = .ok bytes) ↔ ∀ s, text = some s → ¬ CutsCharacter s := by
  constructor
  · rintro ⟨bytes, hbytes⟩ s rfl hcuts
    rw [optionalHex, (hexToBytes_spec s).1 hcuts] at hbytes
    cases hbytes
  · intro h
    cases text with
    | none => exact ⟨none, rfl⟩
    | some s =>
        by_cases hread : s ≠ [] ∧ AllReadable s
        · exact ⟨_, (hexToBytes_spec s).2.1 hread.1 hread.2⟩
        · rw [not_and_or, not_not] at hread
          exact ⟨_, (hexToBytes_spec s).2.2 (h s rfl) hread⟩

/-- **An entry becomes the unit it stands for, or is skipped,** exactly when its address
does not parse or its credentials are clean. -/
theorem toDeviceUnit_eq_iff {unit : UnitConfig} :
    toDeviceUnit unit = .ok (intended unit) ↔
      ((IpAddr.parse unit.ip).isSome = true → Clean unit) := by
  unfold toDeviceUnit intended
  cases hip : IpAddr.parse unit.ip with
  | none => exact iff_of_true rfl fun h => by cases h
  | some ip =>
      dsimp only
      by_cases hid : 0 ≤ unit.id.toInt
      · rw [if_pos hid]
        constructor
        · intro h _
          obtain ⟨key, hkey, h⟩ := bind_eq_ok h
          rw [if_pos hid] at h
          obtain ⟨token, htoken, h⟩ := bind_eq_ok h
          have hunit := Option.some.inj (Except.ok.inj h)
          have hkeys := optionalHex_key_iff.mp ⟨key, hkey, congrArg DeviceUnit.key hunit⟩
          have htokens := congrArg DeviceUnit.token hunit
          dsimp only at htokens
          rw [htokens] at htoken
          exact ⟨fun s hs => (hkeys s hs).1, fun _ s hs => (hkeys s hs).2,
            fun _ => optionalHex_token_iff.mp htoken⟩
        · intro h
          have hclean := h rfl
          obtain ⟨key, hkey, hsame⟩ := optionalHex_key_iff.mpr fun s hs =>
            ⟨hclean.key s hs, hclean.keySigned hid s hs⟩
          have htoken := optionalHex_token_iff.mpr (hclean.token hid)
          rw [hkey, ok_bind, if_pos hid, htoken, ← hsame]
          rfl
      · rw [if_neg hid]
        constructor
        · intro h _
          obtain ⟨key, hkey, -⟩ := bind_eq_ok h
          exact ⟨optionalHex_ok_iff.mp ⟨key, hkey⟩, fun h => absurd h hid, fun h => absurd h hid⟩
        · intro h
          obtain ⟨key, hkey⟩ := optionalHex_ok_iff.mpr (h rfl).key
          rw [hkey, ok_bind, if_neg hid]
          rfl

/-- Where every unit is made as intended, all of them are. -/
theorem mapM_toDeviceUnit {units : List UnitConfig}
    (h : ∀ unit ∈ units, toDeviceUnit unit = .ok (intended unit)) :
    units.mapM toDeviceUnit = .ok (units.map intended) := by
  induction units with
  | nil => rfl
  | cons unit units ih =>
      rw [List.forall_mem_cons] at h
      rw [List.mapM_cons, h.1, ih h.2]
      rfl

/-- What the document asks for at the start: every entry is a unit or is skipped, and the
server comes up with those units, if there is a key to come up with at all. -/
def Honoured (config : AppConfig) : Prop :=
  (∀ unit ∈ config.units, toDeviceUnit unit = .ok (intended unit)) ∧
    ∀ configPath, ConfigState.load configPath config =
      .ok (if config.apiKey.getD [] = [] then .error (.noApiKey configPath)
        else .ok { config := config, manager := .withTiming (config.units.filterMap intended) })

/-- **One bad entry does not stop the other units,** and every credential is taken for
what it is, exactly when behind each address that parses the credentials are clean. -/
theorem honoured_iff (config : AppConfig) :
    Honoured config ↔
      ∀ unit ∈ config.units, (IpAddr.parse unit.ip).isSome = true → Clean unit := by
  constructor
  · intro h unit hunit
    exact toDeviceUnit_eq_iff.mp (h.1 unit hunit)
  · intro h
    have hunits : ∀ unit ∈ config.units, toDeviceUnit unit = .ok (intended unit) :=
      fun unit hunit => toDeviceUnit_eq_iff.mpr (h unit hunit)
    refine ⟨hunits, ?_⟩
    intro configPath
    unfold ConfigState.load
    split
    next => rfl
    next =>
      rw [mapM_toDeviceUnit hunits, ok_bind, List.filterMap_map]
      rfl

/-- A unit whose token has an accent in it. -/
def accented : UnitConfig :=
  { name := "Attic".toList, ip := "192.168.1.20".toList, id := 7, token := some "aéb".toList }

/-- A unit whose token is a plus sign and a digit. -/
def plusSign : UnitConfig :=
  { name := "Attic".toList, ip := "192.168.1.20".toList, id := 7, token := some "+5".toList }

/-- The accent is two bytes, the second of which is in the next pair. -/
private theorem accented_crash : toDeviceUnit accented = crash := by
  have hip : IpAddr.parse accented.ip = some (.v4 ⟨192, 168, 1, 20⟩) := by decide +kernel
  have hid : 0 ≤ accented.id.toInt := by decide
  have hkey : optionalHex accented.key = .ok none := rfl
  have htoken : optionalHex accented.token = crash := by decide +kernel
  unfold toDeviceUnit
  rw [hip]
  dsimp only
  rw [hkey, ok_bind, if_pos hid, htoken]
  rfl

/-- The plus sign and the five are read as five. -/
private theorem plusSign_token :
    ∃ device, toDeviceUnit plusSign = .ok (some device) ∧ device.token = some [5] := by
  have hip : IpAddr.parse plusSign.ip = some (.v4 ⟨192, 168, 1, 20⟩) := by decide +kernel
  have hid : 0 ≤ plusSign.id.toInt := by decide
  have hkey : optionalHex plusSign.key = .ok none := rfl
  have htoken : optionalHex plusSign.token = .ok (some [5]) := by decide +kernel
  unfold toDeviceUnit
  rw [hip]
  dsimp only
  rw [hkey, ok_bind, if_pos hid, htoken]
  exact ⟨_, rfl, rfl⟩

/-- The accent panics, and the plus sign makes a token of one byte. Neither text is a credential,
and neither is passed over as the empty one is. -/
theorem credentials_misread :
    toDeviceUnit accented = crash ∧
      (∃ device, toDeviceUnit plusSign = .ok (some device) ∧ device.token = some [5]) ∧
      ¬ Honoured { apiKey := some "k".toList, units := [accented] } ∧
      ¬ Honoured { apiKey := some "k".toList, units := [plusSign] } := by
  refine ⟨accented_crash, plusSign_token, ?_, ?_⟩
  · intro h
    have hunit := h.1 accented List.mem_cons_self
    rw [accented_crash] at hunit
    cases hunit
  · intro h
    have hunit := h.1 plusSign List.mem_cons_self
    obtain ⟨device, hdevice, htoken⟩ := plusSign_token
    rw [hdevice] at hunit
    have hsame := Except.ok.inj hunit
    have hskipped :
        intended plusSign = none ∨ ∃ d, intended plusSign = some d ∧ d.token = none := by
      unfold intended
      have hnone : plusSign.token.bind credential = none := by decide +kernel
      cases IpAddr.parse plusSign.ip with
      | none => exact Or.inl rfl
      | some ip =>
          dsimp only
          split
          next => exact Or.inr ⟨_, rfl, hnone⟩
          next => exact Or.inl rfl
    rcases hskipped with hnone | ⟨d, hd, hnone⟩
    · rw [hnone] at hsame
      cases hsame
    · rw [hd] at hsame
      obtain rfl := Option.some.inj hsame
      rw [htoken] at hnone
      cases hnone

end BreezeHttp.ConfigRoutes
