import BreezeCore.Auth.Signing

/-!
# What a signature is about

The signed text joins five fields with line feeds.

* `buildCanonical_injective` — it gives the fields back, as long as no line feed stands in
  the path, the timestamp or the nonce; the digest is hexadecimal, and the method comes first;
* `canonical_pins` — so a signature that verifies for two requests is of one and the same,
  but for collisions of the digests.
-/

namespace BreezeAuth

open Bytes Text

/-- The parts of a request that its signature covers. -/
structure SignedParts where
  method : Str
  path : Str
  timestamp : Str
  nonce : Str
  body : Octets

variable (C : Crypto)

def SignedParts.canonical (r : SignedParts) : Octets :=
  buildCanonical C r.method r.path r.timestamp r.nonce r.body

/-- No line feed stands in a field. -/
structure SignedParts.OneLine (r : SignedParts) : Prop where
  method : '\n' ∉ r.method
  path : '\n' ∉ r.path
  timestamp : '\n' ∉ r.timestamp
  nonce : '\n' ∉ r.nonce

/-- Two requests with the same fields, their bodies by digest and their methods in upper
case. -/
structure SignedParts.Alike (r r' : SignedParts) : Prop where
  method : r.method.flatMap C.upper = r'.method.flatMap C.upper
  path : r.path = r'.path
  timestamp : r.timestamp = r'.timestamp
  nonce : r.nonce = r'.nonce
  digest : C.sha3_512 r.body = C.sha3_512 r'.body

/-- Text cut at the last separator. -/
theorem append_cons_inj {sep : Char} {front front' back back' : Str} (hback : sep ∉ back)
    (hback' : sep ∉ back') (h : front ++ sep :: back = front' ++ sep :: back') :
    front = front' ∧ back = back' := by
  have hlast := congrArg (lastPiece sep) h
  rw [lastPiece_append, lastPiece_append, lastPiece_of_notMem hback,
    lastPiece_of_notMem hback'] at hlast
  rw [hlast] at h
  exact ⟨List.append_cancel_right h, hlast⟩

/-- There is no line feed among hexadecimal digits. -/
theorem notMem_hexLower (bytes : Octets) : '\n' ∉ hexLower bytes := by
  have hdigit : ∀ n : Fin 16, hexDigit n ≠ '\n' := by decide
  rw [hexLower, List.mem_flatMap]
  rintro ⟨b, -, hb⟩
  have hlt := b.toNat_lt
  rw [List.mem_cons, List.mem_singleton] at hb
  rcases hb with hb | hb
  · exact hdigit ⟨b.toNat / 16, by omega⟩ hb.symm
  · exact hdigit ⟨b.toNat % 16, by omega⟩ hb.symm

variable {C}

/-- **The signed text pins its fields.** -/
theorem buildCanonical_injective {r r' : SignedParts} (hr : r.OneLine) (hr' : r'.OneLine)
    (h : r.canonical C = r'.canonical C) : r.Alike C r' := by
  have htext := toUtf8_injective h
  obtain ⟨htext, hdigest⟩ := append_cons_inj (notMem_hexLower _) (notMem_hexLower _) htext
  obtain ⟨htext, hnonce⟩ := append_cons_inj hr.nonce hr'.nonce htext
  obtain ⟨htext, htimestamp⟩ := append_cons_inj hr.timestamp hr'.timestamp htext
  obtain ⟨htext, hpath⟩ := append_cons_inj hr.path hr'.path htext
  have hmethod := List.append_cancel_left htext
  exact ⟨(List.cons.inj hmethod).2, hpath, htimestamp, hnonce, hexLower_injective hdigest⟩

/-- A signature that verifies is 64 bytes the key accepts for the text. -/
theorem verifyStrict_of_verifySignature {keyText signatureText : Str} {message : Octets}
    (h : verifySignature C keyText message signatureText = true) :
    ∃ key signature, parsePublicKey C keyText = some key ∧
      (b64Decode C signatureText).bind (tryInto 64) = some signature ∧
      C.verifyStrict key message signature = true := by
  unfold verifySignature at h
  cases hkey : parsePublicKey C keyText with
  | none => simp [hkey] at h
  | some key =>
      cases hsignature : (b64Decode C signatureText).bind (tryInto 64) with
      | none => simp [hkey, hsignature] at h
      | some signature =>
          simp only [hkey, hsignature] at h
          exact ⟨key, signature, rfl, rfl, h⟩

variable (C) in
/-- The curve takes one signature for the two different texts of two requests. -/
def SignedParts.Collide (r r' : SignedParts) (keyText signatureText : Str) : Prop :=
  r.canonical C ≠ r'.canonical C ∧
    ∃ key signature, parsePublicKey C keyText = some key ∧
      (b64Decode C signatureText).bind (tryInto 64) = some signature ∧
      C.verifyStrict key (r.canonical C) signature = true ∧
      C.verifyStrict key (r'.canonical C) signature = true

/-- **No signature for another request.**  One that verifies for two requests is of the
same fields, unless a digest collides: of the bodies, or of the curve on these two texts. -/
theorem alike_of_verifySignature {r r' : SignedParts} {keyText signatureText : Str}
    (hr : r.OneLine) (hr' : r'.OneLine)
    (h : verifySignature C keyText (r.canonical C) signatureText = true)
    (h' : verifySignature C keyText (r'.canonical C) signatureText = true) :
    r.Alike C r' ∨ r.Collide C r' keyText signatureText := by
  by_cases htext : r.canonical C = r'.canonical C
  · exact .inl (buildCanonical_injective hr hr' htext)
  · obtain ⟨key, signature, hkey, hsignature, hstrict⟩ := verifyStrict_of_verifySignature h
    obtain ⟨key', signature', hkey', hsignature', hstrict'⟩ :=
      verifyStrict_of_verifySignature h'
    obtain rfl := Option.some.inj (hkey.symm.trans hkey')
    obtain rfl := Option.some.inj (hsignature.symm.trans hsignature')
    exact .inr ⟨htext, key, signature, hkey, hsignature, hstrict, hstrict'⟩

/-- **The signed text pins the request.** Two requests without line ends in their fields that have
one text are alike in every field of it; and two that one signature verifies for are alike, and
have one body or bodies of one digest, unless the signature collides. -/
theorem canonical_pins (C : Crypto) :
    (∀ r r' : SignedParts, r.OneLine → r'.OneLine → r.canonical C = r'.canonical C →
      r.Alike C r') ∧
    ∀ (r r' : SignedParts) (keyText signatureText : Str), r.OneLine → r'.OneLine →
      verifySignature C keyText (r.canonical C) signatureText = true →
      verifySignature C keyText (r'.canonical C) signatureText = true →
      (r.Alike C r' ∧ (r.body = r'.body ∨
        r.body ≠ r'.body ∧ C.sha3_512 r.body = C.sha3_512 r'.body)) ∨
      r.Collide C r' keyText signatureText := by
  refine ⟨fun r r' => buildCanonical_injective, ?_⟩
  intro r r' keyText signatureText hr hr' h h'
  refine (alike_of_verifySignature hr hr' h h').imp_left fun halike => ⟨halike, ?_⟩
  by_cases hbody : r.body = r'.body
  · exact .inl hbody
  · exact .inr ⟨hbody, halike.digest⟩

/-- The request of the one signer, its method as it was typed and as it is signed. -/
def signerParts (method : String) : SignedParts :=
  ⟨method.toList, "/api/units".toList, "1787488556".toList, "nonce-1".toList, []⟩

/-- The method in small letters and in capitals: one text, and one signature for both. -/
theorem canonical_pins_signer :
    (signerParts "get").Alike oneSigner (signerParts "GET") ∧
      (((signerParts "get").Alike oneSigner (signerParts "GET") ∧
          ((signerParts "get").body = (signerParts "GET").body ∨
            (signerParts "get").body ≠ (signerParts "GET").body ∧
              oneSigner.sha3_512 (signerParts "get").body =
                oneSigner.sha3_512 (signerParts "GET").body)) ∨
        (signerParts "get").Collide oneSigner (signerParts "GET") signerKeyText
          signerSignatureText) := by
  obtain ⟨hpins, hsigned⟩ := canonical_pins oneSigner
  have hlower : (signerParts "get").OneLine :=
    ⟨by decide +kernel, by decide +kernel, by decide +kernel, by decide +kernel⟩
  have hupper : (signerParts "GET").OneLine :=
    ⟨by decide +kernel, by decide +kernel, by decide +kernel, by decide +kernel⟩
  exact ⟨hpins _ _ hlower hupper (by decide +kernel),
    hsigned _ _ signerKeyText signerSignatureText hlower hupper (by decide +kernel)
      (by decide +kernel)⟩

end BreezeAuth
