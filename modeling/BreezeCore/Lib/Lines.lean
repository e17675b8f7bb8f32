import BreezeCore.Lib.Text

/-!
# The lines of a text

A line is ended by a line feed, or by a carriage return and a line feed; only the last one may
be without an end.  Lines that are written one after the other read back as they were, but for a
carriage return that one of them ends in (`linesOf_joined`).
-/

namespace Text

/-- The line without a carriage return at its end, if it has one there. -/
def withoutReturn (line : Str) : Str := if line.getLast? = some '\r' then line.dropLast else line

/-- The lines of a text, without their ends.  A line that is not ended is left as it is. -/
def linesOf (text : Str) : List Str :=
  (split '\n' text).dropLast.map withoutReturn ++
    if lastPiece '\n' text = [] then [] else [lastPiece '\n' text]

/-- Lines written one after the other, each ended by a line feed. -/
def joined (lines : List Str) : Str := List.intercalate "\n".toList lines ++ "\n".toList

example : linesOf "a\r\nb\n\nc\r".toList = ["a".toList, "b".toList, [], "c\r".toList] := by decide

theorem withoutReturn_eq_self {line : Str} (h : line.getLast? ≠ some '\r') :
    withoutReturn line = line := if_neg h

/-- A line that ends in a carriage return is not read as it was written. -/
theorem withoutReturn_ne_self {line : Str} (h : line.getLast? = some '\r') :
    withoutReturn line ≠ line := by
  rw [withoutReturn, if_pos h]
  intro heq
  have hlen := congrArg List.length heq
  have hpos : line ≠ [] := by
    rintro rfl
    cases h
  rw [List.length_dropLast] at hlen
  have := List.length_pos_iff.mpr hpos
  omega

theorem withoutReturn_isPrefixOf (line : Str) : withoutReturn line <+: line := by
  unfold withoutReturn
  split
  next => exact List.dropLast_prefix line
  next => exact List.prefix_refl line

/-- Behind a part that does not end in one, the carriage return is taken off what follows. -/
theorem withoutReturn_append {front : Str} (hfront : front.getLast? ≠ some '\r') (back : Str) :
    withoutReturn (front ++ back) = front ++ withoutReturn back := by
  cases hback : back.getLast? with
  | none =>
      obtain rfl := List.getLast?_eq_none_iff.mp hback
      rw [List.append_nil, withoutReturn_eq_self hfront]
      exact (List.append_nil front).symm
  | some c =>
      have hne : back ≠ [] := by
        rintro rfl
        cases hback
      have hlast : (front ++ back).getLast? = some c := by
        rw [List.getLast?_append_of_ne_nil _ hne, hback]
      rw [withoutReturn, withoutReturn, hlast, hback]
      split
      next => exact List.dropLast_append_of_ne_nil hne
      next => rfl

/-- Taking off the carriage return leaves a beginning that does not end in one. -/
theorem isPrefix_withoutReturn {front line : Str} (hfront : front.getLast? ≠ some '\r') :
    front <+: withoutReturn line ↔ front <+: line := by
  refine ⟨fun h => h.trans (withoutReturn_isPrefixOf line), ?_⟩
  rintro ⟨rest, rfl⟩
  rw [withoutReturn_append hfront]
  exact List.prefix_append _ _

theorem notMem_of_mem_split {sep : Char} {text piece : List Char} (h : piece ∈ split sep text) :
    sep ∉ piece := by
  induction text generalizing piece with
  | nil =>
      obtain rfl := List.mem_singleton.mp h
      exact List.not_mem_nil
  | cons c rest ih =>
      rw [split] at h
      split at h
      next =>
        rcases List.mem_cons.mp h with rfl | h
        · exact List.not_mem_nil
        · exact ih h
      next hc =>
        cases hrest : split sep rest with
        | nil => exact absurd hrest (split_ne_nil sep rest)
        | cons first pieces =>
            rw [hrest] at h ih
            rcases List.mem_cons.mp h with rfl | h
            · rw [List.mem_cons, not_or]
              exact ⟨Ne.symm hc, ih List.mem_cons_self⟩
            · exact ih (List.mem_cons_of_mem _ h)

/-- There is no line feed in a line. -/
theorem notMem_of_mem_linesOf {text line : Str} (h : line ∈ linesOf text) : '\n' ∉ line := by
  rcases List.mem_append.mp h with h | h
  · obtain ⟨piece, hpiece, rfl⟩ := List.mem_map.mp h
    have hnone := notMem_of_mem_split ((List.dropLast_sublist _).subset hpiece)
    exact fun hmem => hnone ((withoutReturn_isPrefixOf piece).subset hmem)
  · split at h
    next => cases h
    next =>
      obtain rfl := List.mem_singleton.mp h
      exact notMem_of_mem_split (List.mem_of_getLast? (getLast?_split '\n' text))

theorem split_joined {lines : List Str} (hne : lines ≠ []) (hlines : ∀ line ∈ lines, '\n' ∉ line) :
    split '\n' (joined lines) = lines ++ [[]] := by
  have hjoined : joined lines = ['\n'].intercalate lines ++ '\n' :: [] := rfl
  rw [hjoined, split_append, split_intercalate hne hlines]
  rfl

/-- **Lines that are written** are read without a carriage return at their ends. -/
theorem linesOf_joined {lines : List Str} (hne : lines ≠ [])
    (hlines : ∀ line ∈ lines, '\n' ∉ line) :
    linesOf (joined lines) = lines.map withoutReturn := by
  have hlast : lastPiece '\n' (joined lines) = [] := lastPiece_append '\n' _ []
  rw [linesOf, hlast, if_pos rfl, split_joined hne hlines, List.dropLast_concat, List.append_nil]

/-- Different lines are written differently. -/
theorem joined_inj {lines lines' : List Str} (hne : lines ≠ []) (hne' : lines' ≠ [])
    (hlines : ∀ line ∈ lines, '\n' ∉ line) (hlines' : ∀ line ∈ lines', '\n' ∉ line)
    (h : joined lines = joined lines') : lines = lines' := by
  have hsplit := congrArg (split '\n') h
  rw [split_joined hne hlines, split_joined hne' hlines'] at hsplit
  exact List.append_cancel_right hsplit

end Text
