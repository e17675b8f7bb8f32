import BreezeCore.Lib.Ip

/-!
# Address ranges

A range is an address and how many of its leading bits count.  An address is in the range
when it is of the same family and agrees on these bits, whatever the others are.
-/

namespace Net

open Text

/-- The address as a number, the first octet on top. -/
def Ipv4Addr.toNat (ip : Ipv4Addr) : Nat :=
  ((ip.a.toNat * 256 + ip.b.toNat) * 256 + ip.c.toNat) * 256 + ip.d.toNat

/-- An address of eight groups as a number. -/
def Ipv6Addr.toNat (ip : Ipv6Addr) : Nat :=
  [ip.s0, ip.s1, ip.s2, ip.s3, ip.s4, ip.s5, ip.s6, ip.s7].foldl
    (fun n group => n * 65536 + group.toNat) 0

/-- An address and how many of its bits count. -/
structure Range where
  base : IpAddr
  /-- How many leading bits count. -/
  length : Nat
  deriving DecidableEq, Repr

/-- An address of the same family that agrees on those bits. -/
def Range.contains (range : Range) (ip : IpAddr) : Bool :=
  match range.base, ip with
  | .v4 base, .v4 ip =>
      ip.toNat / 2 ^ (32 - range.length) = base.toNat / 2 ^ (32 - range.length)
  | .v6 base, .v6 ip =>
      ip.toNat / 2 ^ (128 - range.length) = base.toNat / 2 ^ (128 - range.length)
  | _, _ => false

/-- How many bits an address has. -/
def IpAddr.bits : IpAddr → Nat
  | .v4 _ => 32
  | .v6 _ => 128

/-- An address, or an address and a length after a slash. -/
def Range.parse (text : Str) : Option Range :=
  let (address, length) := text.span (· ≠ '/')
  match IpAddr.parse address, length with
  | some ip, [] => some ⟨ip, ip.bits⟩
  | some ip, _ :: digits =>
      match fromStrRadix 10 (ip.bits + 1) digits with
      | some n => some ⟨ip, n⟩
      | none => none
  | none, _ => none

example : Range.parse "10.0.0.0/8".toList = some ⟨.v4 ⟨10, 0, 0, 0⟩, 8⟩ ∧
    Range.parse "::1".toList = some ⟨.v6 ⟨0, 0, 0, 0, 0, 0, 0, 1⟩, 128⟩ ∧
    Range.parse "10.0.0.0/33".toList = none := by decide +kernel

/-! ## What some lengths mean -/

/-- For four bytes, as numbers. -/
theorem Range.contains_v4 (base ip : Ipv4Addr) (n : Nat) :
    (⟨.v4 base, n⟩ : Range).contains (.v4 ip) = true ↔
      ip.toNat / 2 ^ (32 - n) = base.toNat / 2 ^ (32 - n) := decide_eq_true_iff

/-- For eight groups. -/
theorem Range.contains_v6 (base ip : Ipv6Addr) (n : Nat) :
    (⟨.v6 base, n⟩ : Range).contains (.v6 ip) = true ↔
      ip.toNat / 2 ^ (128 - n) = base.toNat / 2 ^ (128 - n) := decide_eq_true_iff

section V4

variable (base ip : Ipv4Addr)

/-- The first byte counts. -/
theorem Range.contains_v4_8 :
    (⟨.v4 base, 8⟩ : Range).contains (.v4 ip) = true ↔ ip.a = base.a := by
  have := ip.b.toNat_lt; have := ip.c.toNat_lt; have := ip.d.toNat_lt
  have := base.b.toNat_lt; have := base.c.toNat_lt; have := base.d.toNat_lt
  simp only [contains_v4, Ipv4Addr.toNat, ← UInt8.toNat_inj, Nat.reduceSub, Nat.reducePow]
  omega

/-- The first byte and half of the second. -/
theorem Range.contains_v4_12 :
    (⟨.v4 base, 12⟩ : Range).contains (.v4 ip) = true ↔
      ip.a = base.a ∧ ip.b.toNat / 16 = base.b.toNat / 16 := by
  have := ip.b.toNat_lt; have := ip.c.toNat_lt; have := ip.d.toNat_lt
  have := base.b.toNat_lt; have := base.c.toNat_lt; have := base.d.toNat_lt
  simp only [contains_v4, Ipv4Addr.toNat, ← UInt8.toNat_inj, Nat.reduceSub, Nat.reducePow]
  omega

/-- The first two. -/
theorem Range.contains_v4_16 :
    (⟨.v4 base, 16⟩ : Range).contains (.v4 ip) = true ↔ ip.a = base.a ∧ ip.b = base.b := by
  have := ip.b.toNat_lt; have := ip.c.toNat_lt; have := ip.d.toNat_lt
  have := base.b.toNat_lt; have := base.c.toNat_lt; have := base.d.toNat_lt
  simp only [contains_v4, Ipv4Addr.toNat, ← UInt8.toNat_inj, Nat.reduceSub, Nat.reducePow]
  omega

/-- All of it. -/
theorem Range.contains_v4_32 :
    (⟨.v4 base, 32⟩ : Range).contains (.v4 ip) = true ↔ ip = base := by
  have := ip.b.toNat_lt; have := ip.c.toNat_lt; have := ip.d.toNat_lt
  have := base.b.toNat_lt; have := base.c.toNat_lt; have := base.d.toNat_lt
  rw [contains_v4]
  unfold Ipv4Addr.toNat
  obtain ⟨a, b, c, d⟩ := ip
  obtain ⟨a', b', c', d'⟩ := base
  rw [Ipv4Addr.mk.injEq, ← UInt8.toNat_inj, ← UInt8.toNat_inj, ← UInt8.toNat_inj,
    ← UInt8.toNat_inj]
  dsimp only at *
  omega

end V4

/-- All of it. -/
theorem Range.contains_v6_128 (base ip : Ipv6Addr) :
    (⟨.v6 base, 128⟩ : Range).contains (.v6 ip) = true ↔ ip = base := by
  obtain ⟨s0, s1, s2, s3, s4, s5, s6, s7⟩ := ip
  obtain ⟨t0, t1, t2, t3, t4, t5, t6, t7⟩ := base
  have := s1.toNat_lt; have := s2.toNat_lt; have := s3.toNat_lt; have := s4.toNat_lt
  have := s5.toNat_lt; have := s6.toNat_lt; have := s7.toNat_lt
  have := t1.toNat_lt; have := t2.toNat_lt; have := t3.toNat_lt; have := t4.toNat_lt
  have := t5.toNat_lt; have := t6.toNat_lt; have := t7.toNat_lt
  rw [contains_v6, Ipv6Addr.mk.injEq]
  unfold Ipv6Addr.toNat
  simp only [← UInt16.toNat_inj, List.foldl_cons, List.foldl_nil]
  omega

/-- Ranges of one family hold nothing of the other. -/
theorem Range.contains_v4_v6 (base : Ipv4Addr) (length : Nat) (ip : Ipv6Addr) :
    (⟨.v4 base, length⟩ : Range).contains (.v6 ip) = false := rfl

/-- No range holds addresses of the other family. -/
theorem Range.contains_v6_v4 (base : Ipv6Addr) (length : Nat) (ip : Ipv4Addr) :
    (⟨.v6 base, length⟩ : Range).contains (.v4 ip) = false := rfl

/-- Some range holds the address. -/
def admits (ranges : List Range) (ip : IpAddr) : Bool := ranges.any (·.contains ip)

end Net
