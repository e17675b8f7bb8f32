import BreezeCore.Lib.Bytes

/-!
# Blocks and block cipher modes

A byte string whose length is a multiple of `n` is the concatenation of its
`n`-byte blocks, and cutting it into chunks gives exactly those blocks back
(`chunks_join`).  Over blocks of any type, electronic codebook is `List.map` and
cipher block chaining is the pair `cbcEncrypt` / `cbcDecrypt`: the second undoes
the first whenever the block cipher is undone by its inverse and masking twice
is masking not at all.
-/

namespace Bytes

variable {α β : Type} {n : Nat}

/-- Cut off chunks of `n` elements; `fuel` bounds their number. -/
def chunksFrom (n : Nat) : (fuel : Nat) → List α → List (List α)
  | 0, _ => []
  | _, [] => []
  | fuel + 1, x :: xs => (x :: xs).take n :: chunksFrom n fuel ((x :: xs).drop n)

/-- The chunks of `n` elements of a list, the last one possibly shorter. -/
def chunks (n : Nat) (xs : List α) : List (List α) := chunksFrom n xs.length xs

/-- The bytes of a list of blocks. -/
def join (blocks : List (Arr n)) : Octets := blocks.flatMap Subtype.val

@[simp] theorem join_nil : join ([] : List (Arr n)) = [] := rfl

@[simp] theorem join_cons (block : Arr n) (blocks : List (Arr n)) :
    join (block :: blocks) = block.val ++ join blocks := rfl

@[simp] theorem join_length (blocks : List (Arr n)) :
    (join blocks).length = n * blocks.length := by
  induction blocks with
  | nil => simp
  | cons block blocks ih =>
      rw [join_cons, List.length_append, ih, block.property, List.length_cons]
      ring

private theorem chunksFrom_join (hn : 0 < n) :
    ∀ (blocks : List (Arr n)) (fuel : Nat), blocks.length ≤ fuel →
      chunksFrom n fuel (join blocks) = blocks.map Subtype.val := by
  intro blocks
  induction blocks with
  | nil => intro fuel _; cases fuel <;> rfl
  | cons block blocks ih =>
      intro fuel hfuel
      obtain ⟨fuel, rfl⟩ : ∃ k, fuel = k + 1 :=
        ⟨fuel - 1, by simp at hfuel; omega⟩
      have hne : join (block :: blocks) ≠ [] := by
        rw [← List.length_pos_iff, join_length, List.length_cons]
        exact Nat.mul_pos hn (Nat.succ_pos _)
      obtain ⟨x, xs, hx⟩ := List.exists_cons_of_ne_nil hne
      have htake : (join (block :: blocks)).take n = block.val := by
        rw [join_cons, List.take_left' block.property]
      have hdrop : (join (block :: blocks)).drop n = join blocks := by
        rw [join_cons, List.drop_left' block.property]
      rw [hx] at htake hdrop ⊢
      rw [chunksFrom, htake, hdrop, ih fuel (by simpa using hfuel), List.map_cons]

/-- Cutting a concatenation of blocks gives the blocks back. -/
theorem chunks_join (hn : 0 < n) (blocks : List (Arr n)) :
    chunks n (join blocks) = blocks.map Subtype.val := by
  apply chunksFrom_join hn
  rw [join_length]
  exact Nat.le_mul_of_pos_left _ hn

/-- Every byte string of aligned length is a concatenation of blocks. -/
theorem exists_join (hn : 0 < n) :
    ∀ {bytes : Octets}, bytes.length % n = 0 → ∃ blocks : List (Arr n), join blocks = bytes := by
  intro bytes
  induction hlen : bytes.length using Nat.strongRecOn generalizing bytes with
  | _ len ih =>
      intro halign
      subst hlen
      rcases Nat.eq_zero_or_pos bytes.length with hzero | hpos
      · exact ⟨[], by simpa using (List.length_eq_zero_iff.mp hzero).symm⟩
      · have hle : n ≤ bytes.length := Nat.le_of_dvd hpos (Nat.dvd_of_mod_eq_zero halign)
        have hrest : (bytes.drop n).length % n = 0 := by
          rw [List.length_drop, ← Nat.mod_eq_sub_mod hle]
          exact halign
        obtain ⟨blocks, hblocks⟩ :=
          ih (bytes.drop n).length (by rw [List.length_drop]; omega) rfl hrest
        refine ⟨⟨bytes.take n, by simpa using hle⟩ :: blocks, ?_⟩
        rw [join_cons, hblocks]
        exact List.take_append_drop n bytes

/-! ## Modes -/

/-- Cipher block chaining: each block is masked with the previous ciphertext
before it is encrypted. -/
def cbcEncrypt (enc : β → β) (mask : β → β → β) : (prev : β) → List β → List β
  | _, [] => []
  | prev, block :: rest =>
      enc (mask block prev) :: cbcEncrypt enc mask (enc (mask block prev)) rest

/-- Undoing cipher block chaining: each block is decrypted and unmasked with
the previous ciphertext. -/
def cbcDecrypt (dec : β → β) (mask : β → β → β) : (prev : β) → List β → List β
  | _, [] => []
  | prev, block :: rest => mask (dec block) prev :: cbcDecrypt dec mask block rest

/-- **Chaining is undone.**  The only facts used about the cipher and the mask
are that each is undone. -/
theorem cbcDecrypt_cbcEncrypt {enc dec : β → β} {mask : β → β → β}
    (hdec : ∀ b, dec (enc b) = b) (hmask : ∀ a b, mask (mask a b) b = a) :
    ∀ (blocks : List β) (prev : β),
      cbcDecrypt dec mask prev (cbcEncrypt enc mask prev blocks) = blocks := by
  intro blocks
  induction blocks with
  | nil => intro _; rfl
  | cons block rest ih => intro prev; simp only [cbcEncrypt, cbcDecrypt, hdec, hmask, ih]

@[simp] theorem cbcEncrypt_length (enc : β → β) (mask : β → β → β) :
    ∀ (blocks : List β) (prev : β), (cbcEncrypt enc mask prev blocks).length = blocks.length := by
  intro blocks
  induction blocks with
  | nil => intro _; rfl
  | cons block rest ih => intro prev; simp [cbcEncrypt, ih]

@[simp] theorem cbcDecrypt_length (dec : β → β) (mask : β → β → β) :
    ∀ (blocks : List β) (prev : β), (cbcDecrypt dec mask prev blocks).length = blocks.length := by
  intro blocks
  induction blocks with
  | nil => intro _; rfl
  | cons block rest ih => intro prev; simp [cbcDecrypt, ih]

/-- Electronic codebook, undone block by block. -/
theorem map_map_cancel {enc dec : β → β} (hdec : ∀ b, dec (enc b) = b) (blocks : List β) :
    (blocks.map enc).map dec = blocks := by
  rw [List.map_map, show dec ∘ enc = id from funext hdec, List.map_id]

end Bytes
