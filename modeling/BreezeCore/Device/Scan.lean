import BreezeCore.Lib.Exec
import BreezeCore.Lib.Subnets

/-!
# The subnet a scan sweeps

A scan can be told to sweep a subnet, named by an address and a length.

* `parseCidr_returns` — no shift, sum or difference on the way panics, for any text;
* `parseCidr_eq_ok` — accepted are the private subnets within the limit, and the hosts are
  those of the subnet in order;
* `parse_cidr` — both, with what the hosts are.
-/

namespace BreezeDevice

open Fallible Text Net

inductive ScanError where
  /-- The subnet was public, or too large to sweep. -/
  | badSubnet (reason : Str)
  deriving DecidableEq, Repr

/-- Never sweep anything bigger than this. -/
def MAX_SWEEP_HOSTS : Nat := 1024

/-- An optional value, with the error there is when it is missing. -/
def okOr {α : Type} (value : Option α) (reason : Str) : Exec ScanError α :=
  match value with
  | some a => .ok a
  | none => fail (.badSubnet reason)

/-- `1u64 << bits`. -/
def shlU64 (bits : Nat) : Exec ScanError Nat := if bits < 64 then .ok (2 ^ bits) else crash

/-- `(!0u32).checked_shl(bits)`. -/
def checkedShlMax (bits : Nat) : Option Nat :=
  if bits < 32 then some ((2 ^ 32 - 1) * 2 ^ bits % 2 ^ 32) else none

/-- `a + b`, on 32 bits. -/
def addU32 (a b : Nat) : Exec ScanError Nat := if a + b < 2 ^ 32 then .ok (a + b) else crash

/-- Whether an offset is skipped: the network and broadcast addresses of anything bigger than
a /31.  `count - 1` is evaluated only for an offset other than zero. -/
def skips (hostBits count offset : Nat) : Exec ScanError Bool :=
  if 2 ≤ hostBits then
    if offset = 0 then .ok true
    else do
      let last ← sub count 1
      .ok (offset = last)
  else .ok false

def sweepStep (base hostBits count : Nat) (hosts : List Ipv4Addr) (offset : Nat) :
    Exec ScanError (List Ipv4Addr) := do
  let candidate ← addU32 base offset
  let skipped ← skips hostBits count offset
  .ok (if skipped then hosts else hosts ++ [.ofNat candidate])

/-- The hosts around an address, `count` being a number of 64 bits cut to 32. -/
def sweep (addr : Ipv4Addr) (hostBits count : Nat) : Exec ScanError (List Ipv4Addr) :=
  let base := addr.toNat &&& (checkedShlMax hostBits).getD 0
  (List.range (count % 2 ^ 32)).foldlM (sweepStep base hostBits (count % 2 ^ 32)) []

/-- Parse `a.b.c.d/len` into its host addresses. The subnet has to be private and no larger than
the limit; its label has the address as it was given. -/
def parseCidr (cidr : Str) : Exec ScanError (List Ipv4Addr × Str) := do
  let (addrText, lenText) ←
    okOr (splitOnce '/' cidr) ("'".toList ++ cidr ++ "' is not a CIDR subnet".toList)
  let addr ← okOr (Ipv4Addr.parse (trim addrText))
    ("'".toList ++ addrText ++ "' is not an IPv4 address".toList)
  let len ← okOr (fromStrRadix 10 (2 ^ 32) (trim lenText))
    ("'".toList ++ lenText ++ "' is not a prefix length".toList)
  if 32 < len then fail (.badSubnet ("/".toList ++ showNat len ++ " is not a prefix".toList))
  else if ¬ addr.isPrivate then
    fail (.badSubnet "refusing to scan a non-private subnet".toList)
  else do
    let hostBits ← sub 32 len
    let count ← shlU64 hostBits
    if MAX_SWEEP_HOSTS < count then
      fail (.badSubnet ("subnet too large: ".toList ++ showNat count ++
        " addresses, the limit is ".toList ++ showNat MAX_SWEEP_HOSTS))
    else do
      let hosts ← sweep addr hostBits count
      .ok (hosts, addr.toText ++ '/' :: showNat len)

/-! ## The sweep -/

theorem mask_eq {addr : Ipv4Addr} {hostBits : Nat} (h : hostBits ≤ 32) :
    addr.toNat &&& (checkedShlMax hostBits).getD 0 = blockStart hostBits addr.toNat := by
  unfold checkedShlMax
  split
  next => exact and_mask hostBits addr.toNat_lt
  next hbits =>
    -- A shift by all 32 bits has no result, and the mask is zero.
    obtain rfl : hostBits = 32 := by omega
    rw [Option.getD_none, Nat.and_zero, blockStart, Nat.div_eq_of_lt addr.toNat_lt, Nat.zero_mul]

theorem skips_eq {hostBits offset count : Nat} (hcount : 0 < count) :
    skips hostBits count offset =
      .ok (2 ≤ hostBits && (offset = 0 || offset = count - 1)) := by
  unfold skips
  by_cases hbits : 2 ≤ hostBits
  · by_cases hoffset : offset = 0
    · simp [hbits, hoffset]
    · simp [hbits, hoffset, sub_eq (show 1 ≤ count from hcount)]
  · simp [hbits]

/-- One turn keeps the candidate where a host can have it. -/
theorem sweepStep_eq {n k offset : Nat} (hk : k < 32) (hn : n < 2 ^ 32) (hoffset : offset < 2 ^ k)
    (hosts : List Ipv4Addr) :
    sweepStep (blockStart k n) k (2 ^ k) hosts offset =
      .ok (if isHost k n (blockStart k n + offset) then
        hosts ++ [.ofNat (blockStart k n + offset)] else hosts) := by
  have hsum : addU32 (blockStart k n) offset = .ok (blockStart k n + offset) :=
    if_pos (block_lt (by omega) hn hoffset)
  have hhost : isHost k n (blockStart k n + offset) =
      !(2 ≤ k && (offset = 0 || offset = 2 ^ k - 1)) := by
    rw [isHost, Bool.eq_iff_iff]
    simp only [Bool.or_eq_true, Bool.and_eq_true, Bool.not_eq_true', decide_eq_true_eq,
      Bool.and_eq_false_iff, Bool.or_eq_false_iff, decide_eq_false_iff_not]
    omega
  rw [sweepStep, hsum, ok_bind, skips_eq (Nat.two_pow_pos k), ok_bind, hhost]
  cases (decide (2 ≤ k) && (decide (offset = 0) || decide (offset = 2 ^ k - 1))) <;> rfl

/-- **The sweep.**  Of a subnet of fewer than all addresses it finds the hosts. -/
theorem sweep_eq {addr : Ipv4Addr} {hostBits : Nat} (h : hostBits < 32) :
    sweep addr hostBits (2 ^ hostBits) = .ok ((hosts hostBits addr.toNat).map .ofNat) := by
  have hcut : 2 ^ hostBits % 2 ^ 32 = 2 ^ hostBits :=
    Nat.mod_eq_of_lt (Nat.pow_lt_pow_right (by decide) h)
  rw [sweep, mask_eq (Nat.le_of_lt h), hcut]
  have hstep := fun kept offset (hoffset : offset ∈ List.range (2 ^ hostBits)) =>
    sweepStep_eq h addr.toNat_lt (List.mem_range.mp hoffset) kept
  refine (foldlM_filter_map hstep []).trans ?_
  rw [List.nil_append, hosts, block, List.filter_map, List.map_map]
  rfl

/-- Of all addresses there are none on 32 bits, and the loop does not begin. -/
theorem sweep_all (addr : Ipv4Addr) : sweep addr 32 (2 ^ 32) = .ok [] := rfl

theorem sweep_returns (addr : Ipv4Addr) {hostBits : Nat} (h : hostBits ≤ 32) :
    Returns (sweep addr hostBits (2 ^ hostBits)) := by
  rcases Nat.lt_or_eq_of_le h with h | rfl
  · rw [sweep_eq h]
    trivial
  · rw [sweep_all]
    trivial

/-! ## The text -/

/-- An address, a slash and a length, with white space around both.  The length is digits,
perhaps with a plus sign in front. -/
def NamesSubnet (text : Str) (ip : Ipv4Addr) (len : Nat) : Prop :=
  ∃ lead trail lead' trail' number,
    text = lead ++ ip.toText ++ trail ++ '/' :: (lead' ++ number ++ trail') ∧
    (∀ c ∈ lead ++ trail ++ lead' ++ trail', isWhitespace c = true) ∧
    ∃ digits, (number = digits ∨ number = '+' :: digits) ∧ Numeral 10 digits len

/-- What the code reads of a text. -/
def ReadsSubnet (text : Str) (ip : Ipv4Addr) (len : Nat) : Prop :=
  ∃ addrText lenText, splitOnce '/' text = some (addrText, lenText) ∧
    Ipv4Addr.parse (trim addrText) = some ip ∧ fromStrRadix 10 (2 ^ 32) (trim lenText) = some len

theorem readsSubnet_iff {text : Str} {ip : Ipv4Addr} {len : Nat} :
    ReadsSubnet text ip len ↔ NamesSubnet text ip len ∧ len < 2 ^ 32 := by
  constructor
  · rintro ⟨addrText, lenText, hsplit, haddr, hlen⟩
    obtain ⟨rfl, -⟩ := splitOnce_eq_some.mp hsplit
    rw [Ipv4Addr.parse_eq_some] at haddr
    obtain ⟨digits, hnumber, hnumeral, hlt⟩ :=
      (fromStrRadix_eq_some (by decide) (Nat.two_pow_pos 32)).mp hlen
    obtain ⟨lead, trail, haddrText, hlead, htrail⟩ := exists_trim addrText
    obtain ⟨lead', trail', hlenText, hlead', htrail'⟩ := exists_trim lenText
    refine ⟨⟨lead, trail, lead', trail', trim lenText, ?_, ?_, digits, hnumber, hnumeral⟩, hlt⟩
    · rw [← haddr, ← haddrText, ← hlenText]
    · simp only [List.mem_append]
      rintro c (((hc | hc) | hc) | hc)
      exacts [hlead c hc, htrail c hc, hlead' c hc, htrail' c hc]
  · rintro ⟨⟨lead, trail, lead', trail', number, rfl, hspace, digits, hnumber, hnumeral⟩, hlt⟩
    have haddr : ∀ c ∈ ip.toText, isWhitespace c = false := by
      intro c hc
      rcases Ipv4Addr.mem_toText hc with hdigit | rfl
      · exact not_whitespace_of_isDigit hdigit
      · decide
    have hlen : ∀ c ∈ number, isWhitespace c = false := by
      intro c hc
      have hdigits := fun c hc => not_whitespace_of_isDigit ((numeral_ten.mp hnumeral).2.1 c hc)
      rcases hnumber with rfl | rfl
      · exact hdigits c hc
      · rcases List.mem_cons.mp hc with rfl | hc
        · decide
        · exact hdigits c hc
    have hslash : '/' ∉ lead ++ ip.toText ++ trail := by
      have hnot : ∀ c, isWhitespace c = true → '/' ≠ c := by
        rintro c hc rfl
        cases hc
      simp only [List.mem_append, not_or]
      refine ⟨⟨fun h => ?_, fun h => ?_⟩, fun h => ?_⟩
      · exact hnot _ (hspace _ (by simp [h])) rfl
      · rcases Ipv4Addr.mem_toText h with h | h
        · cases h
        · exact absurd h (by decide)
      · exact hnot _ (hspace _ (by simp [h])) rfl
    refine ⟨_, _, splitOnce_eq_some.mpr ⟨rfl, hslash⟩, ?_, ?_⟩
    · rw [trim_padded (fun c hc => hspace c (by simp [hc])) haddr
        (fun c hc => hspace c (by simp [hc])), Ipv4Addr.parse_eq_some]
    · rw [trim_padded (fun c hc => hspace c (by simp [hc])) hlen
        (fun c hc => hspace c (by simp [hc])),
        fromStrRadix_eq_some (by decide) (Nat.two_pow_pos 32)]
      exact ⟨digits, hnumber, hnumeral, hlt⟩

/-- A subnet within the limit has ten bits or fewer. -/
theorem bits_le_ten {hostBits : Nat} (h : 2 ^ hostBits ≤ MAX_SWEEP_HOSTS) : hostBits ≤ 10 := by
  by_contra hmore
  have hle := Nat.pow_le_pow_right (show 0 < 2 by decide) (Nat.lt_of_not_le hmore)
  unfold MAX_SWEEP_HOSTS at h
  omega

/-- **What is made of a text that is read.** -/
theorem parseCidr_of_reads {text : Str} {ip : Ipv4Addr} {len : Nat} (h : ReadsSubnet text ip len) :
    parseCidr text =
      if 32 < len then fail (.badSubnet ("/".toList ++ showNat len ++ " is not a prefix".toList))
      else if ¬ ip.isPrivate then
        fail (.badSubnet "refusing to scan a non-private subnet".toList)
      else if MAX_SWEEP_HOSTS < 2 ^ (32 - len) then
        fail (.badSubnet ("subnet too large: ".toList ++ showNat (2 ^ (32 - len)) ++
          " addresses, the limit is ".toList ++ showNat MAX_SWEEP_HOSTS))
      else .ok ((hosts (32 - len) ip.toNat).map .ofNat, ip.toText ++ '/' :: showNat len) := by
  obtain ⟨addrText, lenText, hsplit, haddr, hlen⟩ := h
  rw [parseCidr, hsplit, okOr, ok_bind]
  dsimp only
  rw [haddr, okOr, ok_bind, hlen, okOr, ok_bind]
  by_cases hlong : 32 < len
  · rw [if_pos hlong, if_pos hlong]
  · have hbits : 32 - len < 64 := by omega
    rw [if_neg hlong, if_neg hlong, sub_eq (by omega), ok_bind, shlU64, if_pos hbits, ok_bind]
    split_ifs with hprivate hlarge
    · rfl
    · have hsmall := bits_le_ten (Nat.le_of_not_lt hlarge)
      rw [sweep_eq (by omega), ok_bind]
    · rfl

/-- A text that is not read is answered with an error. -/
theorem parseCidr_of_not_reads {text : Str} (h : ∀ ip len, ¬ ReadsSubnet text ip len) :
    ∃ reason, parseCidr text = fail (.badSubnet reason) := by
  rw [parseCidr]
  cases hsplit : splitOnce '/' text with
  | none => exact ⟨_, rfl⟩
  | some pieces =>
      obtain ⟨addrText, lenText⟩ := pieces
      rw [okOr, ok_bind]
      dsimp only
      cases haddr : Ipv4Addr.parse (trim addrText) with
      | none => exact ⟨_, rfl⟩
      | some ip =>
          rw [okOr, ok_bind]
          cases hlen : fromStrRadix 10 (2 ^ 32) (trim lenText) with
          | none => exact ⟨_, rfl⟩
          | some len => exact absurd ⟨addrText, lenText, hsplit, haddr, hlen⟩ (h ip len)

/-- **Nothing panics.** -/
theorem parseCidr_returns (text : Str) : Returns (parseCidr text) := by
  by_cases h : ∃ ip len, ReadsSubnet text ip len
  · obtain ⟨ip, len, h⟩ := h
    rw [parseCidr_of_reads h]
    split_ifs <;> trivial
  · obtain ⟨reason, hreason⟩ := parseCidr_of_not_reads fun ip len hreads => h ⟨ip, len, hreads⟩
    rw [hreason]
    trivial

/-- **What is accepted**, and what is made of it. The tests are made in the code's order: the
text, the length of the prefix, whether the network is private, and its size. -/
theorem parseCidr_eq_ok {text : Str} {found : List Ipv4Addr} {label : Str} :
    parseCidr text = .ok (found, label) ↔
      ∃ ip len, NamesSubnet text ip len ∧ len ≤ 32 ∧ ip.isPrivate = true ∧
        2 ^ (32 - len) ≤ MAX_SWEEP_HOSTS ∧ found = (hosts (32 - len) ip.toNat).map .ofNat ∧
        label = ip.toText ++ '/' :: showNat len := by
  constructor
  · intro h
    by_cases hreads : ∃ ip len, ReadsSubnet text ip len
    · obtain ⟨ip, len, hreads⟩ := hreads
      rw [parseCidr_of_reads hreads] at h
      split_ifs at h with hlong hprivate hlarge
      · cases h
      · cases h
      · obtain ⟨rfl, rfl⟩ := Prod.mk.inj (Except.ok.inj h)
        exact ⟨ip, len, (readsSubnet_iff.mp hreads).1, Nat.le_of_not_lt hlong, hprivate,
          Nat.le_of_not_lt hlarge, rfl, rfl⟩
      · cases h
    · obtain ⟨reason, hreason⟩ := parseCidr_of_not_reads fun ip len hr => hreads ⟨ip, len, hr⟩
      rw [hreason] at h
      cases h
  · rintro ⟨ip, len, hnames, hlen, hprivate, hlarge, rfl, rfl⟩
    have hlt : len < 2 ^ 32 := by omega
    rw [parseCidr_of_reads (readsSubnet_iff.mpr ⟨hnames, hlt⟩), if_neg (Nat.not_lt.mpr hlen),
      if_neg (by simp [hprivate]), if_neg (Nat.not_lt.mpr hlarge)]

example : parseCidr " 192.168.1.6/30".toList =
      .ok ([⟨192, 168, 1, 5⟩, ⟨192, 168, 1, 6⟩], "192.168.1.6/30".toList) ∧
    parseCidr "192.168.1.0/31".toList =
      .ok ([⟨192, 168, 1, 0⟩, ⟨192, 168, 1, 1⟩], "192.168.1.0/31".toList) := by decide +kernel

/-! ## The hosts -/

/-- A list of hosts to sweep: private addresses in order, no more than the limit, and all the
usable ones of a subnet. -/
structure Sweeps (ip : Ipv4Addr) (len : Nat) (found : List Ipv4Addr) : Prop where
  nodup : found.Nodup
  ascending : found.Pairwise (·.toNat < ·.toNat)
  isPrivate : ∀ host ∈ found, host.isPrivate = true
  length_le : found.length ≤ MAX_SWEEP_HOSTS
  mem : ∀ host, host ∈ found ↔ (⟨.v4 ip, len⟩ : Range).Usable host

/-- The hosts of a private subnet within the limit. They are a block in ascending order, without
the network and the broadcast address where the block has more than two. -/
theorem sweeps_hosts {ip : Ipv4Addr} {len : Nat} (hprivate : ip.isPrivate = true)
    (hlarge : 2 ^ (32 - len) ≤ MAX_SWEEP_HOSTS) :
    Sweeps ip len ((hosts (32 - len) ip.toNat).map .ofNat) := by
  have hblock : ∀ m ∈ hosts (32 - len) ip.toNat, m ∈ block (32 - len) ip.toNat :=
    fun m hm => (List.mem_filter.mp hm).1
  have hascending : ((hosts (32 - len) ip.toNat).map Ipv4Addr.ofNat).Pairwise
      (·.toNat < ·.toNat) :=
    pairwise_map_ofNat
      (fun m hm => lt_of_mem_block (Nat.sub_le 32 len) ip.toNat_lt (hblock m hm))
      ((block_pairwise _ _).filter _)
  refine ⟨hascending.imp fun h heq => ?_, hascending, ?_, ?_, fun host => mem_map_ofNat_hosts⟩
  · rw [heq] at h
    exact Nat.lt_irrefl _ h
  · intro host hhost
    -- The last ten bits are the hosts', and whether they are private shows in the first sixteen.
    have hbits : 32 - len ≤ 16 := Nat.le_trans (bits_le_ten hlarge) (by decide)
    have hcontains := (mem_map_ofNat_hosts.mp hhost).1
    rw [Range.contains_v4] at hcontains
    rw [Ipv4Addr.isPrivate_congr (div_eq_of_le hbits hcontains)]
    exact hprivate
  · rw [List.length_map]
    refine Nat.le_trans (List.length_filter_le _ _) (Nat.le_trans (Nat.le_of_eq ?_) hlarge)
    rw [block, List.length_map, List.length_range]

/-- **Naming a subnet.** Reading a text never panics, nor does sweeping what it names; what is
accepted is a network of at most 32 bits and is swept as `Sweeps` has it; and every private
network within the limit is accepted in the form that names it. -/
theorem parse_cidr :
    (∀ text, Returns (parseCidr text)) ∧
    (∀ (ip : Ipv4Addr) (len : Nat), len ≤ 32 → Returns (sweep ip (32 - len) (2 ^ (32 - len)))) ∧
    (∀ text found label, parseCidr text = .ok (found, label) → ∃ ip len,
      NamesSubnet text ip len ∧ len ≤ 32 ∧ label = ip.toText ++ '/' :: showNat len ∧
        Sweeps ip len found) ∧
    ∀ text ip len, NamesSubnet text ip len → len ≤ 32 → ip.isPrivate = true →
      2 ^ (32 - len) ≤ MAX_SWEEP_HOSTS →
      ∃ found, parseCidr text = .ok (found, ip.toText ++ '/' :: showNat len) := by
  refine ⟨parseCidr_returns, fun ip len _ => sweep_returns ip (Nat.sub_le 32 len), ?_, ?_⟩
  · intro text found label h
    obtain ⟨ip, len, hnames, hlen, hprivate, hlarge, rfl, hlabel⟩ := parseCidr_eq_ok.mp h
    exact ⟨ip, len, hnames, hlen, hlabel, sweeps_hosts hprivate hlarge⟩
  · intro text ip len hnames hlen hprivate hlarge
    exact ⟨_, parseCidr_eq_ok.mpr ⟨ip, len, hnames, hlen, hprivate, hlarge, rfl, rfl⟩⟩

end BreezeDevice
