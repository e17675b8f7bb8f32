import BreezeCore.Auth.Signing
import BreezeCore.Lib.Base64

/-!
# Base64 in either alphabet

Clients write keys and signatures in the standard or the URL-safe alphabet, with or without
padding, and `b64Decode` reads them all by way of the crate's strict decoder.

* `unpadded_encode` — each of the four encodings of some bytes comes to the one the crate reads;
* `b64Decode_congr` — only the text without its padding and with its alphabet translated
  counts;
* `base64_understood` — so all four read back, and nothing else makes a difference.
-/

namespace BreezeAuth

open Bytes Text Base64

variable (C : Crypto)

/-- A character of the URL-safe alphabet as one of the standard alphabet. -/
def normalise (c : Char) : Char := if c = '-' then '+' else if c = '_' then '/' else c

/-- A text without the padding at its end. -/
def unpadded (text : Str) : Str := (text.reverse.dropWhile (· = '=')).reverse

/-- Some of the characters are replaced by those of the standard alphabet. -/
def Respelled (text text' : Str) : Prop :=
  List.Forall₂ (fun c c' => c' = c ∨ c = '-' ∧ c' = '+' ∨ c = '_' ∧ c' = '/') text text'

theorem normalise_eq_pad {c : Char} : normalise c = '=' ↔ c = '=' := by
  unfold normalise
  split
  next h =>
    rw [h]
    decide
  split
  next h =>
    rw [h]
    decide
  next => exact Iff.rfl

/-- Padding and translation do not meet. -/
theorem unpadded_map (text : Str) :
    unpadded (text.map normalise) = (unpadded text).map normalise := by
  have hpad : (fun c => decide (c = '=')) ∘ normalise = fun c => decide (c = '=') := by
    funext c
    exact decide_eq_decide.mpr normalise_eq_pad
  rw [unpadded, unpadded, ← List.map_reverse, List.dropWhile_map, hpad, List.map_reverse]

theorem b64Decode_eq (text : Str) : b64Decode C text = C.b64 (unpadded (text.map normalise)) := by
  rw [unpadded_map]
  rfl

/-- **Only so much counts.** -/
theorem b64Decode_congr {text text' : Str}
    (h : unpadded (text.map normalise) = unpadded (text'.map normalise)) :
    b64Decode C text = b64Decode C text' := by
  rw [b64Decode_eq, b64Decode_eq, h]

theorem unpadded_append (text : Str) (n : Nat) :
    unpadded (text ++ List.replicate n '=') = unpadded text := by
  have hpads : ∀ c ∈ List.replicate n '=', decide (c = '=') = true :=
    fun c hc => decide_eq_true (List.eq_of_mem_replicate hc)
  rw [unpadded, List.reverse_append, List.reverse_replicate, List.dropWhile_append_of_pos hpads,
    unpadded]

theorem unpadded_of_notMem {text : Str} (h : '=' ∉ text) : unpadded text = text := by
  have hkeep : text.reverse.dropWhile (· = '=') = text.reverse := by
    cases hrev : text.reverse with
    | nil => rfl
    | cons c rest =>
        have hc : c ∈ text := List.mem_reverse.mp (hrev ▸ List.mem_cons_self)
        rw [List.dropWhile_cons_of_neg]
        simpa using fun heq : c = '=' => h (heq ▸ hc)
  rw [unpadded, hkeep, List.reverse_reverse]

theorem Respelled.normalise_eq {text text' : Str} (h : Respelled text text') :
    text'.map normalise = text.map normalise := by
  induction h with
  | nil => rfl
  | cons hc _ ih =>
      rw [List.map_cons, List.map_cons, ih]
      rcases hc with rfl | ⟨rfl, rfl⟩ | ⟨rfl, rfl⟩
      · rfl
      · rfl
      · rfl

/-- In one alphabet or the other, the digits come to the standard ones. -/
theorem normalise_digit {a : Alphabet} (ha : a = standard ∨ a = urlSafe) {n : Nat} (hn : n < 64) :
    normalise (digit a n) = digit standard n ∧ digit standard n ≠ '=' := by
  have hall : ∀ n : Fin 64, normalise (digit standard n) = digit standard n ∧
      normalise (digit urlSafe n) = digit standard n ∧ digit standard n ≠ '=' := by
    decide +kernel
  obtain ⟨hstandard, hurl, hne⟩ := hall ⟨n, hn⟩
  rcases ha with rfl | rfl
  · exact ⟨hstandard, hne⟩
  · exact ⟨hurl, hne⟩

/-- Whatever padding stands behind it, an encoding in either alphabet comes to the standard
one without padding. -/
theorem unpadded_encode {a : Alphabet} (ha : a = standard ∨ a = urlSafe) (bytes : Octets)
    (n : Nat) :
    unpadded ((encode a bytes ++ List.replicate n '=').map normalise) = encode standard bytes := by
  have hpad : normalise '=' = '=' := by decide
  have hdigits : (encode a bytes).map normalise = encode standard bytes :=
    map_encode (fun _ hn => (normalise_digit ha hn).1) bytes
  have hnone : '=' ∉ encode standard bytes := by
    intro hmem
    obtain ⟨m, hm, heq⟩ := mem_encode hmem
    exact (normalise_digit ha hm).2 heq.symm
  rw [List.map_append, List.map_replicate, hpad, hdigits, unpadded_append,
    unpadded_of_notMem hnone]

/-- **Every client's base64 is understood**, where the crate's decoder inverts its encoder:
whatever the bytes, each of their four encodings reads back; and in a text that is
accepted neither characters of the other alphabet nor more or less padding make a
difference. -/
theorem base64_understood (hcrate : ∀ bytes, C.b64 (encode standard bytes) = some bytes) :
    (∀ bytes, ∀ a ∈ [standard, urlSafe],
      b64Decode C (encode a bytes) = some bytes ∧
        b64Decode C (encodePadded a bytes) = some bytes) ∧
      ∀ text bytes, b64Decode C text = some bytes →
        (∀ text', Respelled text text' → b64Decode C text' = some bytes) ∧
        ∀ core n m, text = core ++ List.replicate n '=' →
          b64Decode C (core ++ List.replicate m '=') = some bytes := by
  constructor
  · intro bytes a ha
    have ha' : a = standard ∨ a = urlSafe := by simpa using ha
    have hread : ∀ n, b64Decode C (encode a bytes ++ List.replicate n '=') = some bytes := by
      intro n
      rw [b64Decode_eq, unpadded_encode ha', hcrate]
    refine ⟨?_, hread _⟩
    have h := hread 0
    rwa [List.replicate_zero, List.append_nil] at h
  · intro text bytes h
    constructor
    · intro text' hspelled
      rw [← h]
      exact b64Decode_congr C (by rw [hspelled.normalise_eq])
    · intro core n m htext
      rw [← h, htext]
      apply b64Decode_congr
      rw [unpadded_map, unpadded_map, unpadded_append, unpadded_append]

/-- The crates, with a decoder that reads every encoding. -/
def withBase64 : Crypto := { oneSigner with b64 := decode }

/-- A signature in the alphabet for URLs, and one with more padding than it needs. -/
theorem base64_understood_signature :
    b64Decode withBase64 (encodePadded urlSafe signerSignature) = some signerSignature ∧
      b64Decode withBase64 (encode standard signerSignature ++ "==".toList) =
        some signerSignature := by
  obtain ⟨hencodings, htexts⟩ := base64_understood withBase64 decode_encode
  have hplain := (hencodings signerSignature standard (by simp)).1
  refine ⟨(hencodings signerSignature urlSafe (by simp)).2, ?_⟩
  exact (htexts _ _ hplain).2 _ 0 2 (List.append_nil _).symm

end BreezeAuth
