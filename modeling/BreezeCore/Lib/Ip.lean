import BreezeCore.Lib.Decimal

/-!
# IP addresses and their text form

Addresses of both families, the standard predicates on them, and the standard
reader of their text: four decimal numbers without leading zeros, or up to eight
groups of hexadecimal digits with at most one `::` and, at the end, an embedded
IPv4 address.  An IPv4 address that is written reads back (`IpAddr.parse_toText`).
-/

namespace Net

open Text

structure Ipv4Addr where
  a : UInt8
  b : UInt8
  c : UInt8
  d : UInt8
  deriving DecidableEq, Repr

structure Ipv6Addr where
  s0 : UInt16
  s1 : UInt16
  s2 : UInt16
  s3 : UInt16
  s4 : UInt16
  s5 : UInt16
  s6 : UInt16
  s7 : UInt16
  deriving DecidableEq, Repr

inductive IpAddr where
  | v4 (addr : Ipv4Addr)
  | v6 (addr : Ipv6Addr)
  deriving DecidableEq, Repr

/-- 10/8, 172.16/12 and 192.168/16. -/
def Ipv4Addr.isPrivate (ip : Ipv4Addr) : Bool :=
  ip.a == 10 || (ip.a == 172 && ip.b &&& 0xF0 == 16) || (ip.a == 192 && ip.b == 168)

/-- 127/8. -/
def Ipv4Addr.isLoopback (ip : Ipv4Addr) : Bool := ip.a == 127

/-- 169.254/16. -/
def Ipv4Addr.isLinkLocal (ip : Ipv4Addr) : Bool := ip.a == 169 && ip.b == 254

/-- `::1`. -/
def Ipv6Addr.isLoopback (ip : Ipv6Addr) : Bool := ip = ⟨0, 0, 0, 0, 0, 0, 0, 1⟩

/-- fc00::/7. -/
def Ipv6Addr.isUniqueLocal (ip : Ipv6Addr) : Bool := ip.s0 &&& 0xFE00 == 0xFC00

/-- fe80::/10. -/
def Ipv6Addr.isUnicastLinkLocal (ip : Ipv6Addr) : Bool := ip.s0 &&& 0xFFC0 == 0xFE80

/-- The IPv4 address that `::ffff:a.b.c.d` stands for. -/
def Ipv6Addr.toIpv4Mapped (ip : Ipv6Addr) : Option Ipv4Addr :=
  if ip.s0 = 0 ∧ ip.s1 = 0 ∧ ip.s2 = 0 ∧ ip.s3 = 0 ∧ ip.s4 = 0 ∧ ip.s5 = 0xFFFF then
    some ⟨(ip.s6 >>> 8).toUInt8, ip.s6.toUInt8, (ip.s7 >>> 8).toUInt8, ip.s7.toUInt8⟩
  else none

/-- The address with these groups, missing ones being zero. -/
def Ipv6Addr.ofGroups (groups : List UInt16) : Ipv6Addr :=
  ⟨groups.getD 0 0, groups.getD 1 0, groups.getD 2 0, groups.getD 3 0, groups.getD 4 0,
    groups.getD 5 0, groups.getD 6 0, groups.getD 7 0⟩

/-! ## The reader

Each step takes something off the front of the text, or nothing at all. -/

/-- Read a given character. -/
def readChar (c : Char) : List Char → Option (List Char)
  | [] => none
  | d :: rest => if d = c then some rest else none

/-- Read a number of at most `maxDigits` digits that is below `bound`. All the digits there are
count, so that one too many is no number, and a zero in front of others is none unless it is
allowed. -/
def readNumber (radix maxDigits bound : Nat) (allowZeroPrefix : Bool) (text : List Char) :
    Option (Nat × List Char) :=
  let isDigit (c : Char) : Bool :=
    match digitValue c with
    | none => false
    | some d => d < radix
  let digits := text.takeWhile isDigit
  if digits = [] ∨ maxDigits < digits.length then none
  else if ¬ allowZeroPrefix ∧ digits.head? = some '0' ∧ 1 < digits.length then none
  else
    match readDigits radix bound 0 digits with
    | none => none
    | some n => some (n, text.drop digits.length)

/-- Read the separator in front of every part but the first. -/
def readSeparator (sep : Char) (i : Nat) (text : List Char) : Option (List Char) :=
  if i = 0 then some text else readChar sep text

/-- Read the parts of a dotted address from the `i`-th on. -/
def readOctets : (count : Nat) → (i : Nat) → List Char → Option (List UInt8 × List Char)
  | 0, _, text => some ([], text)
  | count + 1, i, text => do
      let text ← readSeparator '.' i text
      let (n, text) ← readNumber 10 3 256 false text
      let (rest, text) ← readOctets count (i + 1) text
      some (UInt8.ofNat n :: rest, text)

def readIpv4 (text : List Char) : Option (Ipv4Addr × List Char) := do
  let (octets, rest) ← readOctets 4 0 text
  match octets with
  | [a, b, c, d] => some (⟨a, b, c, d⟩, rest)
  | _ => none

/-- Read at most `count` more groups, the `i`-th of `limit` next.  An embedded
IPv4 address needs two of them and ends the reading. -/
def readGroups (limit : Nat) : (count : Nat) → (i : Nat) → List Char →
    List UInt16 × Bool × List Char
  | 0, _, text => ([], false, text)
  | count + 1, i, text =>
      let embedded : Option (Ipv4Addr × List Char) :=
        if i + 1 < limit then (readSeparator ':' i text).bind readIpv4 else none
      match embedded with
      | some (ip, rest) =>
          ([UInt16.ofNat (ip.a.toNat * 256 + ip.b.toNat),
            UInt16.ofNat (ip.c.toNat * 256 + ip.d.toNat)], true, rest)
      | none =>
          match (readSeparator ':' i text).bind (readNumber 16 4 65536 true) with
          | none => ([], false, text)
          | some (n, rest) =>
              let (groups, ipv4, rest) := readGroups limit count (i + 1) rest
              (UInt16.ofNat n :: groups, ipv4, rest)

def readIpv6 (text : List Char) : Option (Ipv6Addr × List Char) :=
  let (head, headIpv4, rest) := readGroups 8 8 0 text
  if head.length = 8 then some (Ipv6Addr.ofGroups head, rest)
  else if headIpv4 then none
  else do
    let rest ← readChar ':' rest
    let rest ← readChar ':' rest
    -- `::` stands for at least one group.
    let limit := 8 - (head.length + 1)
    let (tail, _, rest) := readGroups limit limit 0 rest
    let zeros := List.replicate (8 - tail.length - head.length) 0
    some (Ipv6Addr.ofGroups (head ++ zeros ++ tail), rest)

/-- The IPv4 address a whole text stands for. -/
def Ipv4Addr.parse (text : List Char) : Option Ipv4Addr :=
  match readIpv4 text with
  | some (ip, []) => some ip
  | _ => none

/-- The address a whole text stands for. -/
def IpAddr.parse (text : List Char) : Option IpAddr :=
  let read : Option (IpAddr × List Char) :=
    match readIpv4 text with
    | some (ip, rest) => some (.v4 ip, rest)
    | none => (readIpv6 text).map fun (ip, rest) => (.v6 ip, rest)
  match read with
  | some (ip, []) => some ip
  | _ => none

example : IpAddr.parse "192.168.1.5".toList = some (.v4 ⟨192, 168, 1, 5⟩) ∧
    IpAddr.parse "192.168.01.5".toList = none ∧
    IpAddr.parse "fe80::1:10.0.0.1".toList = some (.v6 ⟨0xFE80, 0, 0, 0, 0, 1, 0xA00, 1⟩) ∧
    IpAddr.parse "::".toList = some (.v6 ⟨0, 0, 0, 0, 0, 0, 0, 0⟩) ∧
    IpAddr.parse "1::2::3".toList = none := by decide +kernel

/-! ## The writer -/

/-- An IPv4 address as four numbers with dots. -/
def Ipv4Addr.toText (ip : Ipv4Addr) : Str :=
  showNat ip.a.toNat ++ '.' :: (showNat ip.b.toNat ++ '.' ::
    (showNat ip.c.toNat ++ '.' :: showNat ip.d.toNat))

/-- An octet is at most three digits, without a zero in front. The number is cut at ten and at a
hundred, one digit for each. -/
private theorem showNat_octet {n : Nat} (h : n < 256) : (showNat n).length ≤ 3 ∧
    ((showNat n).head? = some '0' → (showNat n).length ≤ 1) ∧
    ∀ c ∈ showNat n, (digitValue c).any (· < 10) = true := by
  refine ⟨?_, ?_, ?_⟩
  · by_cases hone : n < 10
    · rw [showNat_digit hone]
      exact Nat.le_add_left 1 2
    · rw [showNat_more (by omega), List.length_append, List.length_singleton]
      by_cases htwo : n / 10 < 10
      · rw [showNat_digit htwo, List.length_singleton]
        omega
      · rw [showNat_more (by omega), showNat_digit (by omega)]
        exact Nat.le_refl 3
  · intro hhead
    by_cases hzero : n = 0
    · rw [hzero, showNat_digit (by decide)]
      exact Nat.le_refl 1
    · exact absurd hhead (head?_showNat (by omega))
  · intro c hc
    obtain ⟨d, hd, rfl⟩ := digit_of_mem_showNat hc
    rw [digitValue_digitChar hd]
    simpa using hd

/-- What stops the scan of a number. -/
def StopsNumber (rest : List Char) : Prop :=
  ∀ c ∈ rest.head?, (digitValue c).any (· < 10) = false

/-- An octet that is written is read, up to what follows it. What follows stops the number, so
that the digits taken are those that were written. -/
theorem readNumber_octet (n : UInt8) {rest : List Char} (hrest : StopsNumber rest) :
    readNumber 10 3 256 false (showNat n.toNat ++ rest) = some (n.toNat, rest) := by
  obtain ⟨hlength, hzero, hdigits⟩ := showNat_octet n.toNat_lt
  have hscan : (showNat n.toNat ++ rest).takeWhile (fun c =>
      match digitValue c with
      | none => false
      | some d => d < 10) = showNat n.toNat := by
    have hsame : ∀ c, (match digitValue c with
        | none => false
        | some d => decide (d < 10)) = (digitValue c).any (· < 10) := by
      intro c
      cases digitValue c <;> rfl
    simp only [hsame]
    cases rest with
    | nil =>
        rw [List.append_nil]
        exact List.takeWhile_eq_self_iff.mpr hdigits
    | cons c rest =>
        have hstop := hrest c rfl
        rw [List.takeWhile_append_of_pos hdigits, List.takeWhile_cons_of_neg (by simp [hstop]),
          List.append_nil]
  unfold readNumber
  simp only [hscan]
  have hempty : ¬ (showNat n.toNat = [] ∨ 3 < (showNat n.toNat).length) := by
    rintro (h | h)
    · exact showNat_ne_nil _ h
    · omega
  rw [if_neg hempty, if_neg (by
    rintro ⟨-, hhead, hlong⟩
    have := hzero hhead
    omega), readDigits_showNat n.toNat_lt, List.drop_left]

private theorem stops_dot (rest : List Char) : StopsNumber ('.' :: rest) := by
  intro c hc
  obtain rfl := Option.some.inj hc
  decide

private theorem stops_nil : StopsNumber [] := nofun

theorem readIpv4_toText (ip : Ipv4Addr) : readIpv4 ip.toText = some (ip, []) := by
  have hlast : readNumber 10 3 256 false (showNat ip.d.toNat) = some (ip.d.toNat, []) := by
    have h := readNumber_octet ip.d stops_nil
    rw [List.append_nil] at h
    exact h
  have hoctets : readOctets 4 0 ip.toText = some ([ip.a, ip.b, ip.c, ip.d], []) := by
    simp only [readOctets, readSeparator, readChar, Ipv4Addr.toText, ↓reduceIte, Nat.zero_add,
      Nat.reduceAdd, Option.bind_eq_bind, Option.bind_some, readNumber_octet _ (stops_dot _), hlast,
      UInt8.ofNat_toNat, OfNat.ofNat_ne_zero, one_ne_zero]
  unfold readIpv4
  rw [hoctets]
  rfl

/-- **An IPv4 address that is written reads back.** -/
theorem IpAddr.parse_toText (ip : Ipv4Addr) : IpAddr.parse ip.toText = some (.v4 ip) := by
  unfold IpAddr.parse
  rw [readIpv4_toText]

end Net
