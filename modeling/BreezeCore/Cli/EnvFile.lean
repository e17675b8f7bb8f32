import Mathlib.Data.List.Forall2
import BreezeCore.Cli.Proxy

/-!
# What the edit of the settings leaves

Moving Breeze Core behind a proxy edits the lines of its settings one by one.

* `editLine_editLine`, `words_editOpts` — an edited line is not edited again, and its options are
  those it had, and the new one;
* `editsWell_iff` — the whole edit does what it says unless a line that it keeps ends in a
  carriage return: written with a line feed behind it, that is another line.
-/

namespace BreezeCli

open Text

/-! ## Lines by their beginning -/

/-- A line that sets the address the service listens at. -/
def IsHost (line : Str) : Prop := "BREEZE_HOST=".toList <+: line

/-- A line that sets its options. -/
def IsOpts (line : Str) : Prop := "BREEZE_OPTS=".toList <+: line

instance : DecidablePred IsHost := fun _ => inferInstanceAs (Decidable (_ <+: _))

instance : DecidablePred IsOpts := fun _ => inferInstanceAs (Decidable (_ <+: _))

/-- The option is a word of a line of options. -/
def HasOption (line : Str) : Prop :=
  ∃ rest, line = "BREEZE_OPTS=".toList ++ rest ∧ "--behind-proxy".toList ∈ words (unquoted rest)

/-- A line that is to be kept: an address where the LAN bind is, options with the option among
them, and every other line. -/
structure KeptLine (keepLan : Bool) (line : Str) : Prop where
  host : IsHost line → keepLan = true
  opts : IsOpts line → HasOption line

/-- No line does both. -/
theorem not_isOpts_of_isHost {line : Str} (h : IsHost line) : ¬ IsOpts line := by
  intro h'
  exact absurd (List.prefix_of_prefix_length_le h h' (by decide)) (by decide)

/-- Whatever the options are. -/
theorem isOpts_append (rest : Str) : IsOpts ("BREEZE_OPTS=".toList ++ rest) :=
  List.prefix_append _ rest

/-- A line of options sets no address. -/
theorem not_isHost_append (rest : Str) : ¬ IsHost ("BREEZE_OPTS=".toList ++ rest) :=
  fun h => not_isOpts_of_isHost h (isOpts_append rest)

/-- What is stripped was in front. -/
theorem stripPrefix_eq_some {lead text rest : Str} :
    stripPrefix lead text = some rest ↔ text = lead ++ rest := by
  unfold stripPrefix
  constructor
  · intro h
    split at h
    next hlead =>
      obtain ⟨rest', rfl⟩ := hlead
      obtain rfl := Option.some.inj h
      rw [List.drop_left]
    next => cases h
  · rintro rfl
    rw [if_pos (List.prefix_append lead rest), List.drop_left]

/-- Nothing is stripped from a text that begins otherwise. -/
theorem stripPrefix_eq_none {lead text : Str} : stripPrefix lead text = none ↔ ¬ lead <+: text := by
  unfold stripPrefix
  split <;> simp_all

/-! ## One line -/

/-- The address is set to the loopback, unless the network is to keep its access. -/
theorem editLine_host {keepLan : Bool} {line : Str} (h : IsHost line) :
    editLine keepLan line = if keepLan then line else "BREEZE_HOST=127.0.0.1".toList := if_pos h

/-- The option is added to the options. -/
theorem editLine_opts (keepLan : Bool) (rest : Str) :
    editLine keepLan ("BREEZE_OPTS=".toList ++ rest) =
      "BREEZE_OPTS=".toList ++ editOpts rest := by
  have hhost : ¬ "BREEZE_HOST=".toList <+: "BREEZE_OPTS=".toList ++ rest := not_isHost_append rest
  rw [editLine, if_neg hhost, stripPrefix_eq_some.mpr rfl]
  dsimp only
  unfold editOpts
  split_ifs <;> rfl

/-- Every other line is left as it is. -/
theorem editLine_other {keepLan : Bool} {line : Str} (hhost : ¬ IsHost line)
    (hopts : ¬ IsOpts line) : editLine keepLan line = line := by
  refine (if_neg hhost).trans ?_
  rw [stripPrefix_eq_none.mpr hopts]

/-- A line is of one of three kinds. -/
theorem editLine_cases (keepLan : Bool) (line : Str) :
    (IsHost line ∧ editLine keepLan line =
      if keepLan then line else "BREEZE_HOST=127.0.0.1".toList) ∨
    (∃ rest, line = "BREEZE_OPTS=".toList ++ rest ∧
      editLine keepLan line = "BREEZE_OPTS=".toList ++ editOpts rest) ∨
    (¬ IsHost line ∧ ¬ IsOpts line ∧ editLine keepLan line = line) := by
  by_cases hhost : IsHost line
  · exact .inl ⟨hhost, editLine_host hhost⟩
  · by_cases hopts : IsOpts line
    · obtain ⟨rest, rfl⟩ := hopts
      exact .inr (.inl ⟨rest, rfl, editLine_opts keepLan rest⟩)
    · exact .inr (.inr ⟨hhost, hopts, editLine_other hhost hopts⟩)

/-- The option is added to the words there are. -/
theorem words_append_option (opts : Str) :
    words (opts ++ " --behind-proxy".toList) = words opts ++ ["--behind-proxy".toList] := by
  have hsplit : (opts ++ " --behind-proxy".toList).splitOnP isWhitespace =
      opts.splitOnP isWhitespace ++ "--behind-proxy".toList.splitOnP isWhitespace :=
    List.splitOnP_append_cons opts "--behind-proxy".toList (show isWhitespace ' ' = true by decide)
  rw [words, hsplit, List.filter_append]
  exact congrArg (words opts ++ ·) (by decide +kernel)

/-- A text that does not begin with a quote keeps its front. -/
theorem dropWhile_quote {text : Str} (h : ∀ c ∈ text.head?, c ≠ '\x22') :
    text.dropWhile (fun c => decide (c = '\x22')) = text := by
  cases text with
  | nil => rfl
  | cons c text => exact List.dropWhile_cons_of_neg (by simpa using h c rfl)

/-- What is in quotes is what is left without them. -/
theorem unquoted_quoted {text : Str} (hfirst : ∀ c ∈ text.head?, c ≠ '\x22')
    (hlast : ∀ c ∈ text.getLast?, c ≠ '\x22') :
    unquoted ("\"".toList ++ text ++ "\"".toList) = text := by
  have hquote : ∀ rest : Str, ('\x22' :: rest).dropWhile (fun c => decide (c = '\x22')) =
      rest.dropWhile (fun c => decide (c = '\x22')) :=
    fun rest => List.dropWhile_cons_of_pos rfl
  have htrim : trim ('\x22' :: (text ++ ['\x22'])) = '\x22' :: (text ++ ['\x22']) := by
    have h := @trim_ends [] ('\x22' :: (text ++ ['\x22'])) [] nofun
      (by rintro c ⟨rfl⟩; decide) (by
        rw [← List.cons_append, List.getLast?_concat]
        rintro c ⟨rfl⟩
        decide) nofun
    rwa [List.nil_append, List.append_nil] at h
  have hlist : "\"".toList ++ text ++ "\"".toList = '\x22' :: (text ++ ['\x22']) := rfl
  rw [hlist, unquoted, htrim]
  cases text with
  | nil => rfl
  | cons c text =>
      have hfront : ∀ d ∈ ((c :: text) ++ ['\x22']).head?, d ≠ '\x22' := hfirst
      have hback : ∀ d ∈ (c :: text).reverse.head?, d ≠ '\x22' := by
        rw [List.head?_reverse]
        exact hlast
      rw [hquote, dropWhile_quote hfront, List.reverse_append, List.reverse_singleton,
        List.singleton_append, hquote, dropWhile_quote hback, List.reverse_reverse]

/-- What is left without quotes does not begin with one. -/
theorem head?_unquoted (text : Str) : ∀ c ∈ (unquoted text).head?, c ≠ '\x22' := by
  intro c hc
  have hfront : unquoted text <+: (trim text).dropWhile fun c => decide (c = '\x22') := by
    have hsuffix := List.dropWhile_suffix (fun c => decide (c = '\x22'))
      (l := ((trim text).dropWhile fun c => decide (c = '\x22')).reverse)
    have hreverse := List.reverse_prefix.mpr hsuffix
    rwa [List.reverse_reverse] at hreverse
  obtain ⟨back, hback⟩ := hfront
  have hhead : ((trim text).dropWhile fun c => decide (c = '\x22')).head? = some c := by
    rw [← hback, List.head?_append, hc]
    rfl
  have hstop := List.head?_dropWhile_not (fun c => decide (c = '\x22')) (trim text)
  rw [hhead] at hstop
  exact of_decide_eq_false hstop

/-- It is part of the text. -/
theorem mem_of_mem_unquoted {text : Str} {c : Char} (h : c ∈ unquoted text) : c ∈ text := by
  obtain ⟨lead, trail, htext, -, -⟩ := exists_trim text
  have htrim : c ∈ trim text := by
    have hdrop := (List.dropWhile_sublist _).subset (List.mem_reverse.mp h)
    exact (List.dropWhile_sublist _).subset (List.mem_reverse.mp hdrop)
  rw [htext]
  exact List.mem_append_left _ (List.mem_append_right _ htrim)

/-- A carriage return at the end is white space. -/
theorem trim_withoutReturn (text : Str) : trim (withoutReturn text) = trim text := by
  unfold withoutReturn
  split
  next h =>
    have htext : text = text.dropLast ++ ['\r'] := (List.dropLast_append_getLast? '\r' h).symm
    have hreturn : isWhitespace '\r' = true := by decide
    conv_rhs => rw [htext]
    rw [trim, trim, List.dropWhile_append]
    split
    next hempty => rw [List.isEmpty_iff.mp hempty, List.dropWhile_cons_of_pos hreturn]; rfl
    next => rw [List.reverse_append, List.reverse_singleton, List.singleton_append,
      List.dropWhile_cons_of_pos hreturn]
  next => rfl

/-- A carriage return at the end is trimmed with the blanks. -/
theorem unquoted_withoutReturn (text : Str) : unquoted (withoutReturn text) = unquoted text := by
  rw [unquoted, unquoted, trim_withoutReturn]

/-- **The options after the edit**: those there were, and the option, once. The quotes come off
and go on again, and an empty list gets the option alone. -/
theorem words_editOpts (rest : Str) :
    words (unquoted (editOpts rest)) =
      if "--behind-proxy".toList ∈ words (unquoted rest) then words (unquoted rest)
      else words (unquoted rest) ++ ["--behind-proxy".toList] := by
  unfold editOpts
  split_ifs with hword hempty
  · rfl
  · rw [hempty]
    decide +kernel
  · have hquoted : "\"".toList ++ unquoted rest ++ " --behind-proxy\"".toList =
        "\"".toList ++ (unquoted rest ++ " --behind-proxy".toList) ++ "\"".toList := by
      simp only [List.append_assoc]
      rfl
    have hfirst : ∀ c ∈ (unquoted rest ++ " --behind-proxy".toList).head?, c ≠ '\x22' := by
      rw [List.head?_append_of_ne_nil _ hempty]
      exact head?_unquoted rest
    have hlast : ∀ c ∈ (unquoted rest ++ " --behind-proxy".toList).getLast?, c ≠ '\x22' := by
      rw [List.getLast?_append_of_ne_nil _ (by decide)]
      rintro c ⟨rfl⟩
      decide
    rw [hquoted, unquoted_quoted hfirst hlast, words_append_option]

/-- After the edit the option is among the words. -/
theorem option_mem_editOpts (rest : Str) :
    "--behind-proxy".toList ∈ words (unquoted (editOpts rest)) := by
  rw [words_editOpts]
  split_ifs with hword
  · exact hword
  · exact List.mem_append_right _ List.mem_cons_self

/-- All the words that were among the options are so after the edit. -/
theorem subset_editOpts (rest : Str) :
    words (unquoted rest) ⊆ words (unquoted (editOpts rest)) := by
  rw [words_editOpts]
  split_ifs
  · exact List.Subset.refl _
  · exact List.subset_append_left _ _

/-- A line sets the address after the edit if it did before. -/
theorem isHost_editLine {keepLan : Bool} {line : Str} :
    IsHost (editLine keepLan line) ↔ IsHost line := by
  rcases editLine_cases keepLan line with ⟨hhost, hedit⟩ | ⟨rest, rfl, hedit⟩ | ⟨-, -, hedit⟩
  · rw [hedit]
    refine iff_of_true ?_ hhost
    split
    next => exact hhost
    next => decide
  · rw [hedit]
    exact iff_of_false (not_isHost_append _) (not_isHost_append rest)
  · rw [hedit]

/-- An edited line holds options where the line did. -/
theorem isOpts_editLine {keepLan : Bool} {line : Str} :
    IsOpts (editLine keepLan line) ↔ IsOpts line := by
  rcases editLine_cases keepLan line with ⟨hhost, -⟩ | ⟨rest, rfl, hedit⟩ | ⟨-, -, hedit⟩
  · exact iff_of_false (not_isOpts_of_isHost (isHost_editLine.mpr hhost))
      (not_isOpts_of_isHost hhost)
  · rw [hedit]
    exact iff_of_true (isOpts_append _) (isOpts_append rest)
  · rw [hedit]

/-- What is to be kept is kept. -/
theorem editLine_of_kept {keepLan : Bool} {line : Str} (h : KeptLine keepLan line) :
    editLine keepLan line = line := by
  rcases editLine_cases keepLan line with ⟨hhost, hedit⟩ | ⟨rest, rfl, hedit⟩ | ⟨-, -, hedit⟩
  · rw [hedit, if_pos (h.host hhost)]
  · obtain ⟨rest', heq, hword⟩ := h.opts (isOpts_append rest)
    obtain rfl := List.append_cancel_left heq
    rw [hedit, editOpts, if_pos hword]
  · exact hedit

/-- What is written in place of a line does not end in a carriage return. -/
theorem getLast?_editLine {keepLan : Bool} {line : Str} (h : ¬ KeptLine keepLan line) :
    (editLine keepLan line).getLast? ≠ some '\r' := by
  rcases editLine_cases keepLan line with ⟨hhost, hedit⟩ | ⟨rest, rfl, hedit⟩ | ⟨hhost, hopts, -⟩
  · have hdrop : ¬ keepLan = true := fun hkeep =>
      h ⟨fun _ => hkeep, fun hopts => absurd hopts (not_isOpts_of_isHost hhost)⟩
    rw [hedit, if_neg hdrop]
    decide
  · have hword : "--behind-proxy".toList ∉ words (unquoted rest) := fun hword =>
      h ⟨fun hhost => absurd hhost (not_isHost_append rest), fun _ => ⟨rest, rfl, hword⟩⟩
    rw [hedit, editOpts, if_neg hword]
    split
    next => decide
    next =>
      rw [List.getLast?_append_of_ne_nil _ (by simp),
        List.getLast?_append_of_ne_nil _ (by decide)]
      decide
  · exact absurd ⟨fun h' => absurd h' hhost, fun h' => absurd h' hopts⟩ h

/-- A carriage return at the end does not matter to it. -/
theorem isHost_withoutReturn {line : Str} : IsHost (withoutReturn line) ↔ IsHost line :=
  isPrefix_withoutReturn (by decide)

/-- A carriage return at the end makes no difference to whether a line holds options. -/
theorem isOpts_withoutReturn {line : Str} : IsOpts (withoutReturn line) ↔ IsOpts line :=
  isPrefix_withoutReturn (by decide)

/-- **An edited line is not edited again**, with its carriage return or without. The address is
the one that is written, and the options have the option. -/
theorem editLine_editLine (keepLan : Bool) (line : Str) :
    editLine keepLan (withoutReturn (editLine keepLan line)) =
      withoutReturn (editLine keepLan line) := by
  rcases editLine_cases keepLan line with
    ⟨hhost, hedit⟩ | ⟨rest, rfl, hedit⟩ | ⟨hhost, hopts, hedit⟩
  · rw [editLine_host (isHost_withoutReturn.mpr (isHost_editLine.mpr hhost))]
    split
    next => rfl
    next hdrop =>
      rw [hedit, if_neg hdrop]
      decide
  · have hword : "--behind-proxy".toList ∈ words (unquoted (withoutReturn (editOpts rest))) := by
      rw [unquoted_withoutReturn]
      exact option_mem_editOpts rest
    rw [hedit, withoutReturn_append (by decide), editLine_opts, editOpts, if_pos hword]
  · rw [hedit]
    exact editLine_other (fun h => hhost (isHost_withoutReturn.mp h))
      (fun h => hopts (isOpts_withoutReturn.mp h))

/-- A line stays one line. -/
theorem notMem_editLine {keepLan : Bool} {line : Str} (h : '\n' ∉ line) :
    '\n' ∉ editLine keepLan line := by
  rcases editLine_cases keepLan line with ⟨-, hedit⟩ | ⟨rest, rfl, hedit⟩ | ⟨-, -, hedit⟩
  · rw [hedit]
    split
    next => exact h
    next => decide
  · rw [List.mem_append, not_or] at h
    rw [hedit, List.mem_append, not_or]
    refine ⟨h.1, ?_⟩
    unfold editOpts
    split_ifs
    · exact h.2
    · decide
    · simp only [List.mem_append, not_or]
      exact ⟨⟨by decide, fun hmem => h.2 (mem_of_mem_unquoted hmem)⟩, by decide⟩
  · rw [hedit]
    exact h

/-! ## All lines -/

/-- The lines after the edit. -/
def editedLines (env : Str) (keepLan : Bool) : List Str :=
  (linesOf env).map (editLine keepLan) ++
    (if !((linesOf env).any fun line => IsHost line) && !keepLan then
      ["BREEZE_HOST=127.0.0.1".toList] else []) ++
    (if !((linesOf env).any fun line => IsOpts line) then
      ["BREEZE_OPTS=--behind-proxy".toList] else [])

/-- The file is put together from the edited lines. -/
theorem editEnv_eq (env : Str) (keepLan : Bool) :
    editEnv env keepLan = joined (editedLines env keepLan) := rfl

/-- An edited line is one that was there, or one of two new ones. -/
theorem mem_editedLines {env line : Str} {keepLan : Bool} (h : line ∈ editedLines env keepLan) :
    (∃ before ∈ linesOf env, line = editLine keepLan before) ∨
      (line = "BREEZE_HOST=127.0.0.1".toList ∧ keepLan = false) ∨
      line = "BREEZE_OPTS=--behind-proxy".toList := by
  rcases List.mem_append.mp h with h | h
  · rcases List.mem_append.mp h with h | h
    · obtain ⟨before, hbefore, rfl⟩ := List.mem_map.mp h
      exact .inl ⟨before, hbefore, rfl⟩
    · split at h
      next hnew =>
        rw [Bool.and_eq_true, Bool.not_eq_true', Bool.not_eq_true'] at hnew
        exact .inr (.inl ⟨List.mem_singleton.mp h, hnew.2⟩)
      next => cases h
  · split at h
    next => exact .inr (.inr (List.mem_singleton.mp h))
    next => cases h

/-- Every line is there, edited. -/
theorem mem_editedLines_of_mem {env line : Str} {keepLan : Bool} (h : line ∈ linesOf env) :
    editLine keepLan line ∈ editedLines env keepLan :=
  List.mem_append_left _ (List.mem_append_left _ (List.mem_map_of_mem h))

/-- There are options after the edit. -/
theorem exists_isOpts (env : Str) (keepLan : Bool) :
    ∃ line ∈ editedLines env keepLan, IsOpts line := by
  by_cases h : ((linesOf env).any fun line => IsOpts line) = true
  · obtain ⟨line, hline, hopts⟩ := List.any_eq_true.mp h
    exact ⟨_, mem_editedLines_of_mem hline, isOpts_editLine.mpr (of_decide_eq_true hopts)⟩
  · refine ⟨"BREEZE_OPTS=--behind-proxy".toList, List.mem_append_right _ ?_, by decide⟩
    rw [if_pos (by simpa using h)]
    exact List.mem_cons_self

/-- There is an address after the edit, where the LAN bind goes. -/
theorem exists_isHost (env : Str) : ∃ line ∈ editedLines env false, IsHost line := by
  by_cases h : ((linesOf env).any fun line => IsHost line) = true
  · obtain ⟨line, hline, hhost⟩ := List.any_eq_true.mp h
    exact ⟨_, mem_editedLines_of_mem hline, isHost_editLine.mpr (of_decide_eq_true hhost)⟩
  · refine ⟨"BREEZE_HOST=127.0.0.1".toList,
      List.mem_append_left _ (List.mem_append_right _ ?_), by decide⟩
    rw [if_pos (by simpa using h)]
    exact List.mem_cons_self

/-- There is at least the line with the option. -/
theorem editedLines_ne_nil (env : Str) (keepLan : Bool) : editedLines env keepLan ≠ [] := by
  obtain ⟨line, hline, -⟩ := exists_isOpts env keepLan
  exact List.ne_nil_of_mem hline

/-- Each is one line. -/
theorem notMem_editedLines {env line : Str} {keepLan : Bool}
    (h : line ∈ editedLines env keepLan) : '\n' ∉ line := by
  rcases mem_editedLines h with ⟨before, hbefore, rfl⟩ | ⟨rfl, -⟩ | rfl
  · exact notMem_editLine (notMem_of_mem_linesOf hbefore)
  · decide
  · decide

/-- **The lines of the edited text.** -/
theorem linesOf_editEnv (env : Str) (keepLan : Bool) :
    linesOf (editEnv env keepLan) = (editedLines env keepLan).map withoutReturn :=
  linesOf_joined (editedLines_ne_nil env keepLan) fun _ => notMem_editedLines

/-- No edited line is edited again. -/
theorem editLine_of_mem_editedLines {env line : Str} {keepLan : Bool}
    (h : line ∈ editedLines env keepLan) :
    editLine keepLan (withoutReturn line) = withoutReturn line := by
  rcases mem_editedLines h with ⟨before, -, rfl⟩ | ⟨rfl, rfl⟩ | rfl
  · exact editLine_editLine keepLan before
  · decide
  · cases keepLan <;> decide +kernel

/-- **A second edit** only takes off what a first one left at the ends of lines. The options
line and the address are there already, so nothing is appended, and each edited line is left
as it is. -/
theorem editEnv_editEnv (env : Str) (keepLan : Bool) :
    editEnv (editEnv env keepLan) keepLan =
      joined ((editedLines env keepLan).map withoutReturn) := by
  have hopts : ((linesOf (editEnv env keepLan)).any fun line => IsOpts line) = true := by
    obtain ⟨line, hline, hopts⟩ := exists_isOpts env keepLan
    rw [linesOf_editEnv, List.any_eq_true]
    exact ⟨_, List.mem_map_of_mem hline, decide_eq_true (isOpts_withoutReturn.mpr hopts)⟩
  have hhost : (!((linesOf (editEnv env keepLan)).any fun line => IsHost line) && !keepLan) =
      false := by
    cases keepLan with
    | true => exact Bool.and_false _
    | false =>
        obtain ⟨line, hline, hhost⟩ := exists_isHost env
        have hany : ((linesOf (editEnv env false)).any fun line => IsHost line) = true := by
          rw [linesOf_editEnv, List.any_eq_true]
          exact ⟨_, List.mem_map_of_mem hline, decide_eq_true (isHost_withoutReturn.mpr hhost)⟩
        rw [hany]
        rfl
  have hlines : (linesOf (editEnv env keepLan)).map (editLine keepLan) =
      (editedLines env keepLan).map withoutReturn := by
    rw [linesOf_editEnv, List.map_map]
    exact List.map_congr_left fun line hline => editLine_of_mem_editedLines hline
  rw [editEnv_eq, editedLines, hopts, hhost, hlines]
  simp

/-- No line is kept with a carriage return at its end. -/
def NoKeptReturn (env : Str) (keepLan : Bool) : Prop :=
  ∀ line ∈ linesOf env, KeptLine keepLan line → line.getLast? ≠ some '\r'

/-- No carriage return is left at the end of a line when no edited line ends in one. -/
theorem noKeptReturn_iff {env : Str} {keepLan : Bool} :
    NoKeptReturn env keepLan ↔
      ∀ line ∈ editedLines env keepLan, line.getLast? ≠ some '\r' := by
  constructor
  · intro h line hline
    rcases mem_editedLines hline with ⟨before, hbefore, rfl⟩ | ⟨rfl, -⟩ | rfl
    · by_cases hkept : KeptLine keepLan before
      · rw [editLine_of_kept hkept]
        exact h before hbefore hkept
      · exact getLast?_editLine hkept
    · decide
    · decide
  · intro h line hline hkept
    have hedited := h _ (mem_editedLines_of_mem hline)
    rwa [editLine_of_kept hkept] at hedited

/-- **The edit is done once and for all** exactly where no line is kept with a carriage return
at its end. -/
theorem editEnv_idempotent_iff {env : Str} {keepLan : Bool} :
    editEnv (editEnv env keepLan) keepLan = editEnv env keepLan ↔ NoKeptReturn env keepLan := by
  rw [noKeptReturn_iff, editEnv_editEnv, editEnv_eq]
  constructor
  · intro h line hline hreturn
    have hlines := joined_inj (by simpa using editedLines_ne_nil env keepLan)
      (editedLines_ne_nil env keepLan)
      (fun line hline => by
        obtain ⟨before, hbefore, rfl⟩ := List.mem_map.mp hline
        exact fun hmem =>
          notMem_editedLines hbefore ((withoutReturn_isPrefixOf before).subset hmem))
      (fun _ => notMem_editedLines) h
    have hline' := List.map_inj_left.mp (hlines.trans (List.map_id' _).symm) line hline
    exact withoutReturn_ne_self hreturn hline'
  · intro h
    rw [List.map_congr_left fun line hline => withoutReturn_eq_self (h line hline), List.map_id']

/-! ## What is read back -/

/-- A line that holds neither an address nor options. -/
def isOther (line : Str) : Bool := !IsHost line && !IsOpts line

/-- The lines of options. -/
def optsLines (env : Str) : List Str := (linesOf env).filter fun line => IsOpts line

/-- The words of the options that are read. -/
def optionsOf (env : Str) : List Str := words ((envValue env "BREEZE_OPTS".toList).getD [])

/-- What the edit is to do. -/
structure EditsWell (env : Str) (keepLan : Bool) : Prop where
  others : (linesOf (editEnv env keepLan)).filter isOther = (linesOf env).filter isOther
  host : envValue (editEnv env keepLan) "BREEZE_HOST".toList =
    if keepLan then envValue env "BREEZE_HOST".toList else some "127.0.0.1".toList
  behindProxy : "--behind-proxy".toList ∈ optionsOf (editEnv env keepLan)
  options : optionsOf env ⊆ optionsOf (editEnv env keepLan)
  /-- Line by line, options that have the option are as they were. -/
  unchanged : List.Forall₂ (fun before after => HasOption before → after = before)
    (optsLines env) ((optsLines (editEnv env keepLan)).take (optsLines env).length)
  idempotent : editEnv (editEnv env keepLan) keepLan = editEnv env keepLan

section Settled

variable {env : Str} {keepLan : Bool}

/-- Then the file that is written is read as these lines again. -/
theorem linesOf_editEnv_of_noKeptReturn (h : NoKeptReturn env keepLan) :
    linesOf (editEnv env keepLan) = editedLines env keepLan := by
  rw [linesOf_editEnv, List.map_congr_left fun line hline =>
    withoutReturn_eq_self (noKeptReturn_iff.mp h line hline), List.map_id']

/-- A line that is neither stays neither. -/
theorem isOther_editLine (line : Str) : isOther (editLine keepLan line) = isOther line := by
  simp only [isOther, isHost_editLine, isOpts_editLine]

/-- A line that holds neither is left alone. -/
theorem editLine_of_isOther {line : Str} (h : isOther line = true) :
    editLine keepLan line = line := by
  simp only [isOther, Bool.and_eq_true, Bool.not_eq_true', decide_eq_false_iff_not] at h
  exact editLine_other h.1 h.2

/-- Every other line is kept, and there is no new one. -/
theorem others_kept (h : NoKeptReturn env keepLan) :
    (linesOf (editEnv env keepLan)).filter isOther = (linesOf env).filter isOther := by
  have hnew : ∀ (present : Bool) (line : Str), isOther line = false →
      (if present then [line] else []).filter isOther = [] := by
    intro present line hline
    cases present with
    | true => exact List.filter_cons_of_neg (by simp [hline])
    | false => rfl
  have hlines : ((linesOf env).map (editLine keepLan)).filter isOther =
      (linesOf env).filter isOther := by
    have hsame : isOther ∘ editLine keepLan = isOther := funext isOther_editLine
    rw [List.filter_map, hsame]
    refine (List.map_congr_left fun line hline => ?_).trans (List.map_id' _)
    exact editLine_of_isOther (List.mem_filter.mp hline).2
  rw [linesOf_editEnv_of_noKeptReturn h, editedLines, List.filter_append, List.filter_append,
    hnew _ _ (by decide), hnew _ _ (by decide), hlines, List.append_nil, List.append_nil]

/-- Where an edit keeps a beginning, what is found behind it is edited. -/
theorem findSome?_stripPrefix_map {lead : Str} {g f : Str → Str}
    (hkeep : ∀ line, lead <+: g line ↔ lead <+: line)
    (hlead : ∀ rest, g (lead ++ rest) = lead ++ f rest) (lines : List Str) :
    (lines.map g).findSome? (stripPrefix lead) =
      (lines.findSome? (stripPrefix lead)).map f := by
  rw [List.findSome?_map, List.map_findSome?]
  refine congrArg (List.findSome? · lines) (funext fun line => ?_)
  by_cases h : lead <+: line
  · obtain ⟨rest, rfl⟩ := h
    rw [Function.comp_apply, Function.comp_apply, hlead, stripPrefix_eq_some.mpr rfl,
      stripPrefix_eq_some.mpr rfl, Option.map_some]
  · rw [Function.comp_apply, Function.comp_apply, stripPrefix_eq_none.mpr h,
      stripPrefix_eq_none.mpr fun h' => h ((hkeep line).mp h'), Option.map_none]

/-- What is found behind a beginning is found in the first line with it. -/
theorem findSome?_stripPrefix_eq_none {lead : Str} {lines : List Str} :
    lines.findSome? (stripPrefix lead) = none ↔
      (lines.any fun line => lead <+: line) = false := by
  rw [List.findSome?_eq_none_iff, List.any_eq_false]
  exact forall₂_congr fun line _ => stripPrefix_eq_none.trans (by simp)

/-- The first options after the edit. -/
theorem first_opts : (editedLines env keepLan).findSome? (stripPrefix "BREEZE_OPTS=".toList) =
    some (((linesOf env).findSome? (stripPrefix "BREEZE_OPTS=".toList)).elim
      "--behind-proxy".toList editOpts) := by
  have hlines : ((linesOf env).map (editLine keepLan)).findSome?
      (stripPrefix "BREEZE_OPTS=".toList) =
      ((linesOf env).findSome? (stripPrefix "BREEZE_OPTS=".toList)).map editOpts :=
    findSome?_stripPrefix_map (fun _ => isOpts_editLine) (editLine_opts keepLan) _
  have hhost : ∀ new : Bool, (if new then ["BREEZE_HOST=127.0.0.1".toList] else []).findSome?
      (stripPrefix "BREEZE_OPTS=".toList) = none := by decide
  rw [editedLines, List.findSome?_append, List.findSome?_append, hlines, hhost, Option.or_none]
  cases hfirst : (linesOf env).findSome? (stripPrefix "BREEZE_OPTS=".toList) with
  | some rest => rfl
  | none =>
      have hany : ((linesOf env).any fun line => IsOpts line) = false :=
        findSome?_stripPrefix_eq_none.mp hfirst
      rw [hany]
      decide

/-- The first address after the edit. The edit keeps which lines hold an address and changes only
what stands in them; where there was none, the one that is appended comes first. -/
theorem first_host : (editedLines env keepLan).findSome? (stripPrefix "BREEZE_HOST=".toList) =
    if keepLan then (linesOf env).findSome? (stripPrefix "BREEZE_HOST=".toList)
    else some "127.0.0.1".toList := by
  have hlines : ((linesOf env).map (editLine keepLan)).findSome?
      (stripPrefix "BREEZE_HOST=".toList) =
      ((linesOf env).findSome? (stripPrefix "BREEZE_HOST=".toList)).map
        fun rest => if keepLan then rest else "127.0.0.1".toList := by
    refine findSome?_stripPrefix_map (fun _ => isHost_editLine) (fun rest => ?_) _
    rw [editLine_host (List.prefix_append _ rest)]
    cases keepLan <;> rfl
  have hopts : ∀ new : Bool, (if new then ["BREEZE_OPTS=--behind-proxy".toList] else []).findSome?
      (stripPrefix "BREEZE_HOST=".toList) = none := by decide
  rw [editedLines, List.findSome?_append, List.findSome?_append, hlines, hopts, Option.or_none]
  cases keepLan with
  | true =>
      rw [Bool.not_true, Bool.and_false]
      exact Option.or_none.trans Option.map_id'
  | false =>
      cases hfirst : (linesOf env).findSome? (stripPrefix "BREEZE_HOST=".toList) with
      | some rest => rfl
      | none =>
          have hany : ((linesOf env).any fun line => IsHost line) = false :=
            findSome?_stripPrefix_eq_none.mp hfirst
          rw [hany]
          decide

/-- The words of the options that are read are those of the first line of options. -/
theorem optionsOf_eq (env : Str) : optionsOf env =
    ((linesOf env).findSome? (stripPrefix "BREEZE_OPTS=".toList)).elim []
      fun rest => words (unquoted rest) := by
  have hkey : "BREEZE_OPTS".toList ++ "=".toList = "BREEZE_OPTS=".toList := rfl
  rw [optionsOf, envValue, hkey]
  cases (linesOf env).findSome? (stripPrefix "BREEZE_OPTS=".toList) with
  | none => rfl
  | some rest =>
      show words (((some (unquoted rest)).filter fun value => decide (value ≠ [])).getD []) =
        words (unquoted rest)
      by_cases hempty : unquoted rest = []
      · rw [hempty]
        rfl
      · rw [Option.filter_some, if_pos (decide_eq_true hempty), Option.getD_some]

/-- The address that is read back. -/
theorem host_editEnv (h : NoKeptReturn env keepLan) :
    envValue (editEnv env keepLan) "BREEZE_HOST".toList =
      if keepLan then envValue env "BREEZE_HOST".toList else some "127.0.0.1".toList := by
  have hkey : "BREEZE_HOST".toList ++ "=".toList = "BREEZE_HOST=".toList := rfl
  have hread : ((some "127.0.0.1".toList).map unquoted).filter (fun value => decide (value ≠ [])) =
      some "127.0.0.1".toList := by decide +kernel
  rw [envValue, envValue, hkey, linesOf_editEnv_of_noKeptReturn h, first_host]
  cases keepLan with
  | true => rfl
  | false => exact hread

/-- The options that are read back have the option, and all there were. -/
theorem optionsOf_editEnv (h : NoKeptReturn env keepLan) :
    "--behind-proxy".toList ∈ optionsOf (editEnv env keepLan) ∧
      optionsOf env ⊆ optionsOf (editEnv env keepLan) := by
  rw [optionsOf_eq, optionsOf_eq, linesOf_editEnv_of_noKeptReturn h, first_opts]
  have hnew : "--behind-proxy".toList ∈ words (unquoted "--behind-proxy".toList) := by
    decide +kernel
  cases (linesOf env).findSome? (stripPrefix "BREEZE_OPTS=".toList) with
  | none =>
      simp only [Option.elim_none, Option.elim_some]
      exact ⟨hnew, List.nil_subset _⟩
  | some rest =>
      simp only [Option.elim_some]
      exact ⟨option_mem_editOpts rest, subset_editOpts rest⟩

/-- Line by line, options that have the option are as they were. The lines with options are the
same ones before and after, but for one that may be appended. -/
theorem optsLines_editEnv (h : NoKeptReturn env keepLan) :
    List.Forall₂ (fun before after => HasOption before → after = before)
      (optsLines env) ((optsLines (editEnv env keepLan)).take (optsLines env).length) := by
  have hlines : ((linesOf env).map (editLine keepLan)).filter (fun line => IsOpts line) =
      (optsLines env).map (editLine keepLan) := by
    have hsame : (fun line => decide (IsOpts line)) ∘ editLine keepLan =
        fun line => decide (IsOpts line) :=
      funext fun line => decide_eq_decide.mpr isOpts_editLine
    rw [List.filter_map, hsame]
    rfl
  have hfront : (optsLines (editEnv env keepLan)).take (optsLines env).length =
      (optsLines env).map (editLine keepLan) := by
    have hafter : optsLines (editEnv env keepLan) =
        (editedLines env keepLan).filter fun line => IsOpts line := by
      rw [optsLines, linesOf_editEnv_of_noKeptReturn h]
    rw [hafter, editedLines, List.append_assoc, List.filter_append, hlines]
    exact List.take_left' (List.length_map _)
  rw [hfront, List.forall₂_map_right_iff, List.forall₂_same]
  rintro line - ⟨rest, rfl, hword⟩
  rw [editLine_opts, editOpts, if_pos hword]

end Settled

/-- **What the edit does, and when.** It sets the address and the options, keeps every other line
as it was, and changes nothing when made again, exactly when no line that it keeps ends in a
carriage return. -/
theorem editsWell_iff (env : Str) (keepLan : Bool) :
    EditsWell env keepLan ↔
      ∀ line ∈ linesOf env, KeptLine keepLan line → line.getLast? ≠ some '\r' := by
  constructor
  · exact fun h => editEnv_idempotent_iff.mp h.idempotent
  · intro h
    exact ⟨others_kept h, host_editEnv h, (optionsOf_editEnv h).1, (optionsOf_editEnv h).2,
      optsLines_editEnv h, editEnv_idempotent_iff.mpr h⟩

/-- A last line that is not ended but by a carriage return is another one after the edit. -/
theorem edits_badly_at_return : ¬ EditsWell "BREEZE_PORT=8420\r".toList false :=
  fun h => absurd h.idempotent (by decide +kernel)

end BreezeCli
