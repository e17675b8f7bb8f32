import Mathlib.Data.List.Induction
import Mathlib.Data.Nat.Bitwise
import BreezeCore.Lib.Numerals
import BreezeCore.Lib.Ranges

/-!
# Subnets

The addresses that agree with one on its leading bits are a block of consecutive numbers,
as many as a power of two, and the block begins at a multiple of its size.

* `and_mask` — masking finds where it begins;
* `mem_block` — it is exactly the addresses of the range;
* `Ipv4Addr.parse_eq_some` — and an address has one text only.
-/

namespace Net

open Text

/-! ## Blocks of numbers -/

/-- Where the block of `2 ^ k` numbers begins that holds `n`. -/
def blockStart (k n : Nat) : Nat := n / 2 ^ k * 2 ^ k

/-- The numbers of a block in order. -/
def block (k n : Nat) : List Nat := (List.range (2 ^ k)).map (blockStart k n + ·)

/-- The numbers of a block agree above its size. -/
theorem mem_block {k n m : Nat} : m ∈ block k n ↔ m / 2 ^ k = n / 2 ^ k := by
  have hpos : 0 < 2 ^ k := Nat.two_pow_pos k
  simp only [block, List.mem_map, List.mem_range, blockStart]
  constructor
  · rintro ⟨i, hi, rfl⟩
    rw [Nat.mul_comm, Nat.mul_add_div hpos, Nat.div_eq_of_lt hi, Nat.add_zero]
  · intro h
    refine ⟨m % 2 ^ k, Nat.mod_lt m hpos, ?_⟩
    rw [← h, Nat.div_add_mod']

/-- Any offset below the size is one of them. -/
theorem offset_mem_block {k n i : Nat} (hi : i < 2 ^ k) : blockStart k n + i ∈ block k n :=
  List.mem_map.mpr ⟨i, List.mem_range.mpr hi, rfl⟩

/-- Numbers that agree above `k` bits agree above more. -/
theorem div_eq_of_le {j k n m : Nat} (hkj : k ≤ j) (h : m / 2 ^ k = n / 2 ^ k) :
    m / 2 ^ j = n / 2 ^ j := by
  obtain ⟨d, rfl⟩ := Nat.exists_eq_add_of_le hkj
  rw [Nat.pow_add, ← Nat.div_div_eq_div_mul, ← Nat.div_div_eq_div_mul, h]

/-- A block ends below every power of two it begins below. -/
theorem block_lt {w k n i : Nat} (hk : k ≤ w) (hn : n < 2 ^ w) (hi : i < 2 ^ k) :
    blockStart k n + i < 2 ^ w := by
  have hdiv := div_eq_of_le hk (mem_block.mp (offset_mem_block (n := n) hi))
  rw [Nat.div_eq_of_lt hn, Nat.div_eq_zero_iff] at hdiv
  exact hdiv.resolve_left (Nat.two_pow_pos w).ne'

/-- **Masking.**  Of a number of `w` bits, all but the last `k` are where its block
begins. -/
theorem and_mask {w n : Nat} (k : Nat) (hn : n < 2 ^ w) :
    n &&& ((2 ^ w - 1) * 2 ^ k % 2 ^ w) = blockStart k n := by
  apply Nat.eq_of_testBit_eq
  intro i
  have hones : ((2 ^ w - 1) * 2 ^ k).testBit i = (decide (k ≤ i) && decide (i - k < w)) := by
    rw [Nat.testBit_mul_two_pow, Nat.testBit_two_pow_sub_one]
  rw [Nat.testBit_and, Nat.testBit_mod_two_pow, hones, blockStart, Nat.testBit_mul_two_pow,
    Nat.testBit_div_two_pow]
  by_cases hki : k ≤ i
  · rw [Nat.sub_add_cancel hki]
    by_cases hiw : i < w
    · simp [hki, hiw, Nat.lt_of_le_of_lt (Nat.sub_le i k) hiw]
    · have hhigh : n.testBit i = false :=
        Nat.testBit_lt_two_pow (Nat.lt_of_lt_of_le hn (Nat.pow_le_pow_right (by decide) (by omega)))
      simp [hhigh]
  · simp [hki]

/-! ## Addresses as numbers -/

/-- An address is a number of 32 bits. -/
theorem Ipv4Addr.toNat_lt (ip : Ipv4Addr) : ip.toNat < 2 ^ 32 := by
  have := ip.a.toNat_lt; have := ip.b.toNat_lt; have := ip.c.toNat_lt; have := ip.d.toNat_lt
  unfold toNat
  omega

/-- The address of a number. -/
def Ipv4Addr.ofNat (n : Nat) : Ipv4Addr :=
  ⟨UInt8.ofNat (n / 2 ^ 24), UInt8.ofNat (n / 2 ^ 16), UInt8.ofNat (n / 2 ^ 8), UInt8.ofNat n⟩

/-- Which is read back. -/
theorem Ipv4Addr.toNat_ofNat {n : Nat} (h : n < 2 ^ 32) : (ofNat n).toNat = n := by
  simp only [ofNat, toNat, UInt8.toNat_ofNat']
  omega

/-- So different addresses have different numbers. -/
theorem Ipv4Addr.toNat_injective : Function.Injective toNat := by
  intro ip other h
  exact (Range.contains_v4_32 other ip).mp ((Range.contains_v4 other ip 32).mpr (by rw [h]))

/-- Each address is that of its number. -/
theorem Ipv4Addr.ofNat_toNat (ip : Ipv4Addr) : ofNat ip.toNat = ip :=
  toNat_injective (toNat_ofNat ip.toNat_lt)

/-- Whether an address is private shows in its first two octets. -/
theorem Ipv4Addr.isPrivate_congr {ip other : Ipv4Addr}
    (h : ip.toNat / 2 ^ 16 = other.toNat / 2 ^ 16) : ip.isPrivate = other.isPrivate := by
  obtain ⟨ha, hb⟩ := (Range.contains_v4_16 other ip).mp ((Range.contains_v4 other ip 16).mpr h)
  rw [isPrivate, isPrivate, ha, hb]

/-! ## Hosts -/

/-- The numbers of a block that hosts can have: where it has two bits or more, the first is
the network and the last is the broadcast address. -/
def isHost (k n m : Nat) : Bool :=
  k < 2 || (m ≠ blockStart k n && m ≠ blockStart k n + (2 ^ k - 1))

/-- The hosts of a block in order. -/
def hosts (k n : Nat) : List Nat := (block k n).filter (isHost k n)

/-- The least address of a range. -/
def Range.IsFirst (range : Range) (ip : Ipv4Addr) : Prop :=
  ∀ other, range.contains (.v4 other) = true → ip.toNat ≤ other.toNat

/-- The greatest address of a range. -/
def Range.IsLast (range : Range) (ip : Ipv4Addr) : Prop :=
  ∀ other, range.contains (.v4 other) = true → other.toNat ≤ ip.toNat

/-- An address of a range that a host can have: in a range of four addresses or more, neither
the first nor the last. -/
def Range.Usable (range : Range) (ip : Ipv4Addr) : Prop :=
  range.contains (.v4 ip) = true ∧
    (2 ≤ 32 - range.length → ¬ range.IsFirst ip ∧ ¬ range.IsLast ip)

/-- A block is in order. -/
theorem block_pairwise (k n : Nat) : (block k n).Pairwise (· < ·) :=
  List.pairwise_map.mpr (List.pairwise_lt_range.imp fun h => Nat.add_lt_add_left h _)

/-- The numbers of a block fit where its own number does. -/
theorem lt_of_mem_block {w k n m : Nat} (hk : k ≤ w) (hn : n < 2 ^ w) (hm : m ∈ block k n) :
    m < 2 ^ w := by
  obtain ⟨i, hi, rfl⟩ := List.mem_map.mp hm
  exact block_lt hk hn (List.mem_range.mp hi)

section Hosts

variable (base : Ipv4Addr) (length : Nat)

/-- The numbers of a block are those of addresses. -/
theorem Ipv4Addr.toNat_ofNat_of_mem_block {m : Nat} (hm : m ∈ block (32 - length) base.toNat) :
    (ofNat m).toNat = m :=
  toNat_ofNat (lt_of_mem_block (Nat.sub_le 32 length) base.toNat_lt hm)

/-- The numbers of the addresses in a range are a block. -/
theorem Range.contains_iff_mem_block (ip : Ipv4Addr) :
    (⟨.v4 base, length⟩ : Range).contains (.v4 ip) = true ↔
      ip.toNat ∈ block (32 - length) base.toNat := by
  rw [contains_v4, mem_block]

/-- Of the range. -/
theorem Range.contains_ofNat {m : Nat} (hm : m ∈ block (32 - length) base.toNat) :
    (⟨.v4 base, length⟩ : Range).contains (.v4 (.ofNat m)) = true := by
  rwa [contains_iff_mem_block, Ipv4Addr.toNat_ofNat_of_mem_block base length hm]

variable {base length}

/-- The first address of a range is the first of its block. -/
theorem Range.isFirst_iff {ip : Ipv4Addr}
    (hip : (⟨.v4 base, length⟩ : Range).contains (.v4 ip) = true) :
    (⟨.v4 base, length⟩ : Range).IsFirst ip ↔ ip.toNat = blockStart (32 - length) base.toNat := by
  have hpos : 0 < 2 ^ (32 - length) := Nat.two_pow_pos _
  obtain ⟨i, -, hi⟩ := List.mem_map.mp ((contains_iff_mem_block base length ip).mp hip)
  constructor
  · intro h
    have hmem := offset_mem_block (n := base.toNat) hpos
    have hle := h _ (contains_ofNat base length hmem)
    rw [Ipv4Addr.toNat_ofNat_of_mem_block base length hmem] at hle
    omega
  · intro h other hother
    obtain ⟨j, -, hj⟩ := List.mem_map.mp ((contains_iff_mem_block base length other).mp hother)
    omega

/-- The last number of a block is that of the last address of the range. -/
theorem Range.isLast_iff {ip : Ipv4Addr}
    (hip : (⟨.v4 base, length⟩ : Range).contains (.v4 ip) = true) :
    (⟨.v4 base, length⟩ : Range).IsLast ip ↔
      ip.toNat = blockStart (32 - length) base.toNat + (2 ^ (32 - length) - 1) := by
  have hpos : 0 < 2 ^ (32 - length) := Nat.two_pow_pos _
  obtain ⟨i, hlt, hi⟩ := List.mem_map.mp ((contains_iff_mem_block base length ip).mp hip)
  rw [List.mem_range] at hlt
  constructor
  · intro h
    have hmem := offset_mem_block (n := base.toNat) (Nat.sub_lt hpos Nat.one_pos)
    have hle := h _ (contains_ofNat base length hmem)
    rw [Ipv4Addr.toNat_ofNat_of_mem_block base length hmem] at hle
    omega
  · intro h other hother
    obtain ⟨j, hj, heq⟩ := List.mem_map.mp ((contains_iff_mem_block base length other).mp hother)
    rw [List.mem_range] at hj
    omega

/-- **The hosts of a block are the usable addresses of the range.** -/
theorem Range.usable_iff {ip : Ipv4Addr} :
    (⟨.v4 base, length⟩ : Range).Usable ip ↔
      ip.toNat ∈ hosts (32 - length) base.toNat := by
  rw [hosts, List.mem_filter, ← contains_iff_mem_block]
  refine and_congr_right fun hip => ?_
  rw [isFirst_iff hip, isLast_iff hip]
  simp only [isHost, Bool.or_eq_true, Bool.and_eq_true, decide_eq_true_eq]
  omega

/-- The hosts are the addresses of the range that can be used. -/
theorem mem_map_ofNat_hosts {ip : Ipv4Addr} :
    ip ∈ (hosts (32 - length) base.toNat).map .ofNat ↔
      (⟨.v4 base, length⟩ : Range).Usable ip := by
  rw [Range.usable_iff, List.mem_map]
  constructor
  · rintro ⟨m, hm, rfl⟩
    have hmem := (List.mem_filter.mp hm).1
    rwa [Ipv4Addr.toNat_ofNat_of_mem_block base length hmem]
  · exact fun h => ⟨ip.toNat, h, ip.ofNat_toNat⟩

end Hosts

/-- Addresses made of numbers in order are in order. -/
theorem pairwise_map_ofNat {numbers : List Nat} (hlt : ∀ m ∈ numbers, m < 2 ^ 32)
    (h : numbers.Pairwise (· < ·)) :
    (numbers.map Ipv4Addr.ofNat).Pairwise (·.toNat < ·.toNat) := by
  rw [List.pairwise_map]
  refine h.imp_of_mem fun hm hm' hmm => ?_
  rwa [Ipv4Addr.toNat_ofNat (hlt _ hm), Ipv4Addr.toNat_ofNat (hlt _ hm')]

/-! ## An address has one text -/

/-- One digit more. -/
theorem decimal_append_digit (digits : List Char) (c : Char) :
    decimal (digits ++ [c]) = decimal digits * 10 + (c.toNat - 48) := by
  rw [decimal, List.foldl_append]
  rfl

/-- A digit is the character of its value. -/
theorem digitChar_of_isDigit {c : Char} (h : isDigit c = true) :
    c.toNat - 48 < 10 ∧ Nat.digitChar (c.toNat - 48) = c := by
  have hall : ∀ d : Fin 10, Nat.digitChar d = Char.ofNat (d.val + 48) := by decide
  simp only [isDigit, Bool.and_eq_true, decide_eq_true_eq] at h
  refine ⟨by omega, ?_⟩
  have hchar := hall ⟨c.toNat - 48, by omega⟩
  rw [hchar, Nat.sub_add_cancel h.1, Char.ofNat_toNat]

/-- A digit other than zero in front makes a number other than zero. -/
theorem decimal_pos {digits : List Char} (hne : digits ≠ [])
    (hdigits : ∀ c ∈ digits, isDigit c = true) (hzero : digits.head? ≠ some '0') :
    0 < decimal digits := by
  cases digits with
  | nil => exact absurd rfl hne
  | cons c rest =>
      obtain ⟨-, hchar⟩ := digitChar_of_isDigit (hdigits c List.mem_cons_self)
      have hfirst : digitsOnto 10 0 (c :: rest) = digitsOnto 10 (c.toNat - 48) rest := by
        rw [digitsOnto, List.foldl_cons, digitValue_of_isDigit (hdigits c List.mem_cons_self),
          Nat.zero_mul, Nat.zero_add]
        rfl
      rw [← digitsOnto_ten hdigits, hfirst]
      refine Nat.lt_of_lt_of_le (Nat.pos_of_ne_zero fun h => hzero ?_)
        (le_digitsOnto (by decide) _ rest)
      rw [List.head?_cons, ← hchar, h]
      rfl

/-- Digits without a zero in front are how their number is written. By induction from the last
digit, which is the remainder by ten. -/
theorem showNat_decimal {digits : List Char} (hne : digits ≠ [])
    (hdigits : ∀ c ∈ digits, isDigit c = true)
    (hzero : digits.head? = some '0' → digits.length ≤ 1) : showNat (decimal digits) = digits := by
  induction digits using List.reverseRecOn with
  | nil => exact absurd rfl hne
  | append_singleton front c ih =>
      obtain ⟨hlt, hchar⟩ := digitChar_of_isDigit (hdigits c (by simp))
      have hdigits' : ∀ c ∈ front, isDigit c = true :=
        fun c hc => hdigits c (List.mem_append_left _ hc)
      rw [decimal_append_digit]
      by_cases hfront : front = []
      · rw [hfront, decimal, List.foldl_nil, Nat.zero_mul, Nat.zero_add, showNat_digit hlt, hchar]
        rfl
      · have hhead : front.head? ≠ some '0' := by
          intro h
          have hlong := hzero (by rw [List.head?_append, h]; rfl)
          rw [List.length_append, List.length_singleton] at hlong
          have := List.length_pos_iff.mpr hfront
          omega
        have hpos := decimal_pos hfront hdigits' hhead
        have hdiv : (decimal front * 10 + (c.toNat - 48)) / 10 = decimal front := by omega
        have hmod : (decimal front * 10 + (c.toNat - 48)) % 10 = c.toNat - 48 := by omega
        rw [showNat_more (by omega), hdiv, hmod, hchar,
          ih hfront hdigits' fun h => absurd h hhead]

/-- A number of an address is the text it was read from. The reader refuses a zero in front and
more than three digits, so there is one way only to write it. -/
theorem readNumber_eq_some {text rest : List Char} {n : Nat}
    (h : readNumber 10 3 256 false text = some (n, rest)) :
    n < 256 ∧ text = showNat n ++ rest := by
  unfold readNumber at h
  dsimp only at h
  split at h
  next => cases h
  next hsize =>
    split at h
    next => cases h
    next hzero =>
      split at h
      next => cases h
      next m hread =>
        obtain ⟨rfl, rfl⟩ := Prod.mk.inj (Option.some.inj h)
        obtain ⟨hdigits, hvalue, hlt⟩ := (readDigits_eq_some (by decide) (by decide)).mp hread
        simp only [isDigitIn_ten] at hdigits
        rw [digitsOnto_ten hdigits] at hvalue
        rw [not_or] at hsize
        refine ⟨hlt, ?_⟩
        rw [hvalue, showNat_decimal hsize.1 hdigits (by
          intro hhead
          by_contra hlong
          exact hzero ⟨by decide, hhead, by omega⟩)]
        exact (List.prefix_iff_eq_append.mp (List.takeWhile_prefix _)).symm

/-- A character that is read was in front. -/
theorem readChar_eq_some {c : Char} {text rest : List Char} (h : readChar c text = some rest) :
    text = c :: rest := by
  cases text with
  | nil => cases h
  | cons d text =>
      rw [readChar] at h
      split at h
      next hd => rw [hd, Option.some.inj h]
      next => cases h

/-- One number of an address is read, with the dot in front of it. -/
theorem readOctets_succ {count i : Nat} {text rest : List Char} {octets : List UInt8}
    (h : readOctets (count + 1) i text = some (octets, rest)) :
    ∃ (o : UInt8) (tail : List UInt8) (back : List Char), octets = o :: tail ∧
      text = (if i = 0 then [] else ['.']) ++ showNat o.toNat ++ back ∧
      readOctets count (i + 1) back = some (tail, rest) := by
  simp only [readOctets, Option.bind_eq_bind, Option.bind_eq_some_iff, Option.some.injEq,
    Prod.exists, Prod.mk.injEq] at h
  obtain ⟨text', hsep, n, back, hnumber, tail, rest', hrest, rfl, rfl⟩ := h
  obtain ⟨hlt, rfl⟩ := readNumber_eq_some hnumber
  refine ⟨UInt8.ofNat n, tail, back, rfl, ?_, hrest⟩
  have hvalue : (UInt8.ofNat n).toNat = n := Nat.mod_eq_of_lt hlt
  rw [hvalue]
  unfold readSeparator at hsep
  split at hsep
  next hi => rw [if_pos hi, Option.some.inj hsep, List.nil_append]
  next hi => rw [if_neg hi, readChar_eq_some hsep]; rfl

/-- It is digits and dots. -/
theorem Ipv4Addr.mem_toText {ip : Ipv4Addr} {c : Char} (h : c ∈ ip.toText) :
    isDigit c = true ∨ c = '.' := by
  simp only [toText, List.mem_append, List.mem_cons] at h
  rcases h with h | h | h | h | h | h | h
  · exact .inl (isDigit_showNat h)
  · exact .inr h
  · exact .inl (isDigit_showNat h)
  · exact .inr h
  · exact .inl (isDigit_showNat h)
  · exact .inr h
  · exact .inl (isDigit_showNat h)

/-- **The text of an address.** Four octets with points between them are read off one after the
other, and each of them only in the way it is written. -/
theorem Ipv4Addr.parse_eq_some {text : List Char} {ip : Ipv4Addr} :
    parse text = some ip ↔ text = ip.toText := by
  constructor
  · intro h
    unfold parse at h
    split at h
    next ip' hread =>
      obtain rfl := Option.some.inj h
      simp only [readIpv4, Option.bind_eq_bind, Option.bind_eq_some_iff, Prod.exists] at hread
      obtain ⟨octets, rest, hfour, hread⟩ := hread
      obtain ⟨a, _, _, rfl, rfl, hthree⟩ := readOctets_succ hfour
      obtain ⟨b, _, _, rfl, rfl, htwo⟩ := readOctets_succ hthree
      obtain ⟨c, _, _, rfl, rfl, hone⟩ := readOctets_succ htwo
      obtain ⟨d, _, _, rfl, rfl, hnone⟩ := readOctets_succ hone
      obtain ⟨rfl, rfl⟩ := Prod.mk.inj (Option.some.inj hnone)
      obtain ⟨rfl, rfl⟩ := Prod.mk.inj (Option.some.inj hread)
      simp [toText]
    next => cases h
  · rintro rfl
    unfold parse
    rw [readIpv4_toText]

end Net
