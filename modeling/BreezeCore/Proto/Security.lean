import Mathlib.Logic.Equiv.Basic
import BreezeCore.Lib.Blocks

/-!
# The crypto the LAN protocol is built on

AES in two modes and two digests.  The block cipher and the digests come from
other crates, so they are the fields of `Primitives`; what is written out here
is what the source writes out itself: the PKCS padding, the codebook and the
chaining loops, and the checks in front of them.

Every result about a value that comes back needs one fact about the ciphers,
`Primitives.Inverse`: decrypting a block undoes encrypting it.
-/

namespace Security

open Fallible Bytes

/-- The ciphers and digests of the crates `aes`, `md5` and `sha2`. -/
structure Primitives where
  md5 : Octets → Arr 16
  sha256 : Octets → Arr 32
  aes128Encrypt : (key : Arr 16) → Arr 16 → Arr 16
  aes128Decrypt : (key : Arr 16) → Arr 16 → Arr 16
  aes256Encrypt : (key : Arr 32) → Arr 16 → Arr 16
  aes256Decrypt : (key : Arr 32) → Arr 16 → Arr 16

/-- Decrypting a block undoes encrypting it, under every key. -/
structure Primitives.Inverse (P : Primitives) : Prop where
  aes128 : ∀ key block, P.aes128Decrypt key (P.aes128Encrypt key block) = block
  aes256 : ∀ key block, P.aes256Decrypt key (P.aes256Encrypt key block) = block

/-- Exchanging each block with its cipher text.  That is what a cipher does to the blocks of
the list, and decrypting undoes it. -/
def exchanging (blocks : List (Arr 16 × Arr 16)) : Equiv.Perm (Arr 16) :=
  blocks.foldr (fun block cipher => (Equiv.swap block.1 block.2).trans cipher)
    (Equiv.refl (Arr 16))

/-- Errors from the crypto layer. -/
inductive CryptoError where
  /-- Input was not a whole number of AES blocks. -/
  | misaligned (length : Nat)
  /-- The padding byte was outside `1..=16`, or longer than the plaintext. -/
  | badPadding (pad : Nat)
  deriving DecidableEq, Repr

/-- The vendor's fixed signing key. -/
def SIGN_KEY : Octets :=
  "xhdiwjnchekd4d512chdjx5d8e4c394D2D7S".toList.map fun c => UInt8.ofNat c.toNat

variable (P : Primitives) {ε : Type}

/-- The 16-byte key for the packet-level codebook layer. -/
def encKey : Arr 16 := P.md5 SIGN_KEY

/-- The key as the crate `md5` makes it. -/
def signKeyDigest : Arr 16 :=
  ⟨[106, 146, 239, 64, 107, 173, 47, 3, 89, 186, 173, 153, 65, 113, 234, 109], rfl⟩

/-- MD5 of `data` with the signing key appended. -/
def sign (data : Octets) : Arr 16 := P.md5 (data ++ SIGN_KEY)

/-- The loop both codebook directions share: one block of 16 after another. -/
def ecbLoop (cipher : Arr 16 → Arr 16) : List Octets → Exec ε Octets
  | [] => pure []
  | chunk :: rest => do
      let block ← Arr.fromSlice 16 chunk
      let out ← ecbLoop cipher rest
      pure ((cipher block).val ++ out)

/-- AES-128 codebook encryption with PKCS padding, under the fixed key. -/
def encryptAes (data : Octets) : Exec ε Octets :=
  let pad := 16 - data.length % 16
  let buf := data ++ List.replicate pad (UInt8.ofNat pad)
  ecbLoop (P.aes128Encrypt (encKey P)) (chunks 16 buf)

/-- AES-128 codebook decryption, stripping the padding, under the fixed key. -/
def decryptAes (data : Octets) : Exec CryptoError Octets :=
  if data = [] ∨ data.length % 16 ≠ 0 then fail (.misaligned data.length)
  else do
    let out ← ecbLoop (P.aes128Decrypt (encKey P)) (chunks 16 data)
    let last ← expect out.getLast?
    let pad := last.toNat
    if pad = 0 ∨ 16 < pad ∨ out.length < pad then fail (.badPadding pad)
    else do
      let keep ← sub out.length pad
      pure (out.take keep)

/-- The encrypting loop of the chaining mode. -/
def cbcEncryptLoop (cipher : Arr 16 → Arr 16) : (prev : Arr 16) → List Octets → Exec ε Octets
  | _, [] => pure []
  | prev, chunk :: rest => do
      let block ← Arr.fromSlice 16 chunk
      let sealed := cipher (block.xor prev)
      let out ← cbcEncryptLoop cipher sealed rest
      pure (sealed.val ++ out)

/-- The decrypting loop of the chaining mode. -/
def cbcDecryptLoop (cipher : Arr 16 → Arr 16) : (prev : Arr 16) → List Octets → Exec ε Octets
  | _, [] => pure []
  | prev, chunk :: rest => do
      let block ← Arr.fromSlice 16 chunk
      let out ← cbcDecryptLoop cipher block rest
      pure (((cipher block).xor prev).val ++ out)

/-- AES-256 chaining encryption, zero IV, no padding. -/
def encryptAesCbc (key : Arr 32) (data : Octets) : Exec CryptoError Octets :=
  if data.length % 16 ≠ 0 then fail (.misaligned data.length)
  else cbcEncryptLoop (P.aes256Encrypt key) (Arr.zero 16) (chunks 16 data)

/-- AES-256 chaining decryption, zero IV, no padding. -/
def decryptAesCbc (key : Arr 32) (data : Octets) : Exec CryptoError Octets :=
  if data.length % 16 ≠ 0 then fail (.misaligned data.length)
  else cbcDecryptLoop (P.aes256Decrypt key) (Arr.zero 16) (chunks 16 data)

/-! ## The loops over whole blocks -/

/-- Over whole blocks the codebook loop is `List.map`. -/
theorem ecbLoop_map (cipher : Arr 16 → Arr 16) (blocks : List (Arr 16)) :
    (ecbLoop cipher (blocks.map Subtype.val) : Exec ε Octets) =
      .ok (join (blocks.map cipher)) := by
  induction blocks with
  | nil => rfl
  | cons block blocks ih =>
      simp only [List.map_cons, ecbLoop, Arr.fromSlice_val, ok_bind, ih]
      rfl

/-- Over whole blocks the encrypting loop is the general chaining mode. -/
theorem cbcEncryptLoop_map (cipher : Arr 16 → Arr 16) (blocks : List (Arr 16)) :
    ∀ prev, (cbcEncryptLoop cipher prev (blocks.map Subtype.val) : Exec ε Octets) =
      .ok (join (cbcEncrypt cipher Arr.xor prev blocks)) := by
  induction blocks with
  | nil => intro _; rfl
  | cons block blocks ih =>
      intro prev
      simp only [List.map_cons, cbcEncryptLoop, Arr.fromSlice_val, ok_bind, ih]
      rfl

/-- Over whole blocks the decrypting loop is the general chaining mode. -/
theorem cbcDecryptLoop_map (cipher : Arr 16 → Arr 16) (blocks : List (Arr 16)) :
    ∀ prev, (cbcDecryptLoop cipher prev (blocks.map Subtype.val) : Exec ε Octets) =
      .ok (join (cbcDecrypt cipher Arr.xor prev blocks)) := by
  induction blocks with
  | nil => intro _; rfl
  | cons block blocks ih =>
      intro prev
      simp only [List.map_cons, cbcDecryptLoop, Arr.fromSlice_val, ok_bind, ih]
      rfl

/-- Chaining encryption of whole blocks. -/
theorem encryptAesCbc_join (key : Arr 32) (blocks : List (Arr 16)) :
    encryptAesCbc P key (join blocks) =
      .ok (join (cbcEncrypt (P.aes256Encrypt key) Arr.xor (Arr.zero 16) blocks)) := by
  rw [encryptAesCbc, if_neg (by simp), chunks_join (by decide), cbcEncryptLoop_map]

/-- Chaining decryption of whole blocks. -/
theorem decryptAesCbc_join (key : Arr 32) (blocks : List (Arr 16)) :
    decryptAesCbc P key (join blocks) =
      .ok (join (cbcDecrypt (P.aes256Decrypt key) Arr.xor (Arr.zero 16) blocks)) := by
  rw [decryptAesCbc, if_neg (by simp), chunks_join (by decide), cbcDecryptLoop_map]

/-- Codebook decryption of whole blocks, up to the padding. -/
theorem decryptAes_join {blocks : List (Arr 16)} (hne : blocks ≠ []) :
    decryptAes P (join blocks) = (do
      let out := join (blocks.map (P.aes128Decrypt (encKey P)))
      let last ← expect out.getLast?
      let pad := last.toNat
      if pad = 0 ∨ 16 < pad ∨ out.length < pad then fail (.badPadding pad)
      else do
        let keep ← sub out.length pad
        pure (out.take keep)) := by
  have hjoin : join blocks ≠ [] := by
    rw [← List.length_pos_iff, join_length]
    exact Nat.mul_pos (by decide) (List.length_pos_iff.mpr hne)
  rw [decryptAes, if_neg (by simp [hjoin]), chunks_join (by decide), ecbLoop_map]
  rfl

/-! ## No input makes the crypto layer panic -/

/-- Chaining decryption is total, and keeps the length. -/
theorem decryptAesCbc_cases (key : Arr 32) (data : Octets) :
    decryptAesCbc P key data = fail (.misaligned data.length) ∨
      ∃ plain, decryptAesCbc P key data = .ok plain ∧ plain.length = data.length := by
  by_cases halign : data.length % 16 = 0
  · obtain ⟨blocks, rfl⟩ := exists_join (n := 16) (by decide) halign
    refine Or.inr ⟨_, decryptAesCbc_join P key blocks, ?_⟩
    simp
  · exact Or.inl (by rw [decryptAesCbc, if_pos halign])

theorem returns_decryptAesCbc (key : Arr 32) (data : Octets) :
    Returns (decryptAesCbc P key data) := by
  rcases decryptAesCbc_cases P key data with h | ⟨_, h, _⟩ <;> rw [h] <;> trivial

theorem decryptAesCbc_length {key : Arr 32} {data plain : Octets}
    (h : decryptAesCbc P key data = .ok plain) : plain.length = data.length := by
  rcases decryptAesCbc_cases P key data with hfail | ⟨out, hok, hlen⟩
  · simp [hfail, fail] at h
  · obtain rfl := Except.ok.inj (hok.symm.trans h)
    exact hlen

/-- Codebook decryption is total: the padding byte is there, and the length it
claims is checked before it is subtracted. -/
theorem returns_decryptAes (data : Octets) : Returns (decryptAes P data) := by
  by_cases hbad : data = [] ∨ data.length % 16 ≠ 0
  · rw [decryptAes, if_pos hbad]
    trivial
  · obtain ⟨hne, halign⟩ : data ≠ [] ∧ data.length % 16 = 0 := by
      simpa [not_or] using hbad
    obtain ⟨blocks, rfl⟩ := exists_join (n := 16) (by decide) halign
    have hblocks : blocks ≠ [] := by
      rintro rfl
      exact hne rfl
    rw [decryptAes_join P hblocks]
    have hout : join (blocks.map (P.aes128Decrypt (encKey P))) ≠ [] := by
      rw [← List.length_pos_iff, join_length, List.length_map]
      exact Nat.mul_pos (by decide) (List.length_pos_iff.mpr hblocks)
    obtain ⟨last, hlast⟩ := Option.isSome_iff_exists.mp (List.getLast?_isSome.mpr hout)
    simp only [hlast, expect_some, ok_bind]
    split
    next => trivial
    next hpad =>
      rw [sub_eq (by omega)]
      trivial

/-! ## What is encrypted is decrypted -/

/-- The padded plaintext is a whole, positive number of blocks. -/
theorem padded_length (data : Octets) :
    (data ++ List.replicate (16 - data.length % 16)
      (UInt8.ofNat (16 - data.length % 16))).length = 16 * (data.length / 16 + 1) := by
  rw [List.length_append, List.length_replicate]
  omega

/-- Codebook encryption of any message: whole blocks, one more than the
message fills. -/
theorem encryptAes_eq (data : Octets) :
    ∃ blocks : List (Arr 16),
      join blocks = data ++ List.replicate (16 - data.length % 16)
        (UInt8.ofNat (16 - data.length % 16)) ∧
      blocks.length = data.length / 16 + 1 ∧
      (encryptAes P data : Exec ε Octets) =
        .ok (join (blocks.map (P.aes128Encrypt (encKey P)))) := by
  have hlen := padded_length data
  obtain ⟨blocks, hblocks⟩ := exists_join (n := 16) (by decide) (by rw [hlen]; simp)
  refine ⟨blocks, hblocks, ?_, ?_⟩
  · rw [← hblocks, join_length] at hlen
    omega
  · rw [encryptAes, ← hblocks, chunks_join (by decide), ecbLoop_map]

/-- **Codebook round trip.**  The padding comes off exactly, for every length. The data is cut
into blocks, which the cipher gives back one by one, and the last byte tells how much is
padding. -/
theorem decryptAes_encryptAes (hP : P.Inverse) (data : Octets) :
    ∃ sealed, (encryptAes P data : Exec ε Octets) = .ok sealed ∧
      sealed.length = 16 * (data.length / 16 + 1) ∧
      decryptAes P sealed = .ok data := by
  obtain ⟨blocks, hjoin, hcount, hsealed⟩ := encryptAes_eq (ε := ε) P data
  refine ⟨_, hsealed, by simp [hcount], ?_⟩
  have hpos : blocks ≠ [] := by
    rw [← List.length_pos_iff, hcount]
    omega
  have hout : join ((blocks.map (P.aes128Encrypt (encKey P))).map
      (P.aes128Decrypt (encKey P))) = data ++ List.replicate (16 - data.length % 16)
        (UInt8.ofNat (16 - data.length % 16)) := by
    rw [map_map_cancel (hP.aes128 _), hjoin]
  rw [decryptAes_join P (by simpa using hpos)]
  simp only [hout]
  have hpad : 16 - data.length % 16 ≠ 0 := by omega
  rw [List.getLast?_append_of_ne_nil _ (by simpa using hpad), List.getLast?_replicate, if_neg hpad,
    expect_some, ok_bind]
  have hbyte : (UInt8.ofNat (16 - data.length % 16)).toNat = 16 - data.length % 16 := by
    simp only [UInt8.toNat_ofNat']
    omega
  have hlen := padded_length data
  rw [hbyte, if_neg (by omega), sub_eq (by omega), ok_bind]
  simp [pure, Except.pure]

/-- **Chaining round trip**, for every aligned message. -/
theorem decryptAesCbc_encryptAesCbc (hP : P.Inverse) (key : Arr 32) (data : Octets)
    (halign : data.length % 16 = 0) :
    ∃ sealed, encryptAesCbc P key data = .ok sealed ∧ sealed.length = data.length ∧
      decryptAesCbc P key sealed = .ok data := by
  obtain ⟨blocks, rfl⟩ := exists_join (n := 16) (by decide) halign
  refine ⟨_, encryptAesCbc_join P key blocks, by simp, ?_⟩
  rw [decryptAesCbc_join, cbcDecrypt_cbcEncrypt (hP.aes256 key) Arr.xor_xor_cancel]

end Security
