import BreezeCore.Cli.Control

/-!
# The grammar of the control command

A slot takes what `SlotTakes` says, and a duration is digits and a unit.  A duration
leaves the slots alone wherever it stands, so the command is that of the other words
with a timer; and what is accepted passes the checks of the server, the bounds of the
timer apart.

`parse_duration` states the law with its exact condition: the minutes are those of a
product of 32 bits, and nothing but the server bounds them.
-/

namespace BreezeCli

open Text Ac BreezeStore

/-! ## The timer is passive -/

/-- The command with a timer of so many minutes, or none. -/
def Command.withTimer (c : Command) (timer : Option UInt32) : Command :=
  { c with timerMinutes := timer }

/-- The extras are read without a look at the timer. -/
theorem applyParts_withTimer (timer : Option UInt32) (parts : List Str) (c : Command) :
    applyParts (c.withTimer timer) parts = (applyParts c parts).map (·.withTimer timer) := by
  induction parts generalizing c with
  | nil => rfl
  | cons part parts ih =>
      unfold applyParts
      split
      next => exact ih c
      next =>
        cases named EXTRA_WORDS (trim part) with
        | none => rfl
        | some extra =>
            have hset : extra.set (c.withTimer timer) = (extra.set c).withTimer timer := by
              cases extra <;> rfl
            dsimp only
            rw [hset, ih]

/-- No slot looks at the timer or changes it. -/
theorem applySlot_withTimer (toF64 : ℚ → ℚ) (timer : Option UInt32) (c : Command) (index : Nat)
    (word : Str) :
    applySlot toF64 (c.withTimer timer) index word =
      (applySlot toF64 c index word).map (·.withTimer timer) := by
  unfold applySlot
  dsimp only
  split
  next =>
    unfold applyType
    split
    next => rfl
    next =>
      split
      next => rfl
      next => cases named MODE_WORDS (toAsciiLowercase word) <;> rfl
  next => cases parseTemperature toF64 (toAsciiLowercase word) <;> rfl
  next => cases parseFlap (toAsciiLowercase word) <;> rfl
  next => cases parseFan (toAsciiLowercase word) <;> rfl
  next => exact applyParts_withTimer timer _ c
  next => rfl

/-- **The slots do not see the timer.** -/
theorem applyWords_withTimer (toF64 : ℚ → ℚ) (timer : Option UInt32) (words : List Str)
    (c : Command) (index : Nat) :
    applyWords toF64 (c.withTimer timer) index words =
      (applyWords toF64 c index words).map (·.withTimer timer) := by
  induction words generalizing c index with
  | nil => rfl
  | cons word words ih =>
      unfold applyWords
      split
      next => exact ih c _
      next =>
        rw [applySlot_withTimer]
        cases applySlot toF64 c index word with
        | error e => rfl
        | ok next => exact ih next _

/-! ## What a slot takes -/

/-- The word is one its slot takes, or leaves the slot alone. The slots are the type, the
temperature, the flap, the fan and the extras; behind them only a word that is skipped may
come. -/
def SlotTakes (toF64 : ℚ → ℚ) (index : Nat) (word : Str) : Prop :=
  let lower := toAsciiLowercase word
  skipped lower = true ∨
    match index with
    | 0 => lower = "off".toList ∨ lower = "on".toList ∨ ∃ mode, named MODE_WORDS lower = some mode
    | 1 => ∃ t, parseF64 toF64 (trimEndMatches ['c', 'C', '°'] lower) = some (.finite t) ∧
        16 ≤ t ∧ t ≤ 30 ∧ t * 2 = (trunc (t * 2) : ℚ)
    | 2 => ∃ flap, named FLAP_WORDS lower = some flap
    | 3 => (∃ speed, named FAN_WORDS lower = some speed) ∨
        ∃ v, parseI64 (trimEndMatches ['%'] lower) = some v ∧ v ∈ ALLOWED_FAN_SPEEDS
    | 4 => ∀ part ∈ extraParts lower, trim part = [] ∨
        ∃ extra, named EXTRA_WORDS (trim part) = some extra
    | _ => False

/-- The extras are understood when each of them is empty or has a name. By induction on the
list. -/
theorem applyParts_ok_iff {parts : List Str} {c : Command} :
    (∃ c', applyParts c parts = .ok c') ↔
      ∀ part ∈ parts, trim part = [] ∨ ∃ extra, named EXTRA_WORDS (trim part) = some extra := by
  induction parts generalizing c with
  | nil => exact iff_of_true ⟨c, rfl⟩ fun part h => absurd h List.not_mem_nil
  | cons part parts ih =>
      rw [List.forall_mem_cons]
      unfold applyParts
      split
      next hempty => rw [ih, and_iff_right (Or.inl hempty)]
      next hpart =>
        cases hnamed : named EXTRA_WORDS (trim part) with
        | none =>
            refine iff_of_false (fun ⟨c', h⟩ => by cases h) ?_
            rintro ⟨hempty | ⟨extra, hextra⟩, -⟩
            · exact hpart hempty
            · cases hextra
        | some extra =>
            dsimp only
            rw [ih, and_iff_right (Or.inr ⟨extra, rfl⟩)]

/-- A temperature is understood when it is a number from 16 to 30, in steps of a half. The
cases are those of the code: no number, out of range, no half step, and neither NaN nor
infinity passes. -/
theorem parseTemperature_ok_iff {toF64 : ℚ → ℚ} {word : Str} {t : ℚ} :
    parseTemperature toF64 word = .ok t ↔
      parseF64 toF64 (trimEndMatches ['c', 'C', '°'] word) = some (.finite t) ∧
        16 ≤ t ∧ t ≤ 30 ∧ t * 2 = (trunc (t * 2) : ℚ) := by
  unfold parseTemperature
  split
  next hnone => simp [hnone]
  next value hvalue =>
    rw [hvalue]
    simp only [Option.some.injEq, Double.finite.injEq]
    by_cases hrange : 16 ≤ value ∧ value ≤ 30
    · rw [if_neg (not_not_intro hrange)]
      by_cases hhalf : value * 2 - trunc (value * 2) = 0
      · rw [if_neg (not_not_intro hhalf)]
        rw [sub_eq_zero] at hhalf
        constructor
        · intro h
          obtain rfl := Except.ok.inj h
          exact ⟨rfl, hrange.1, hrange.2, hhalf⟩
        · rintro ⟨rfl, -⟩
          rfl
      · rw [if_pos hhalf]
        refine iff_of_false (fun h => by cases h) ?_
        rintro ⟨rfl, -, -, h⟩
        exact hhalf (sub_eq_zero.mpr h)
    · rw [if_pos hrange]
      refine iff_of_false (fun h => by cases h) ?_
      rintro ⟨rfl, hlow, hhigh, -⟩
      exact hrange ⟨hlow, hhigh⟩
  next value hother hvalue =>
    refine iff_of_false (fun h => by cases h) ?_
    rintro ⟨h, -⟩
    exact hother t (Option.some.inj (hvalue.symm.trans h))

/-- A fan speed is a name, or else a number that is allowed. The names come first, so that a word
in the table is never read as a number. -/
theorem parseFan_ok_iff {word : Str} {v : Int} :
    parseFan word = .ok v ↔
      named FAN_WORDS word = some v ∨ named FAN_WORDS word = none ∧
        parseI64 (trimEndMatches ['%'] word) = some v ∧ v ∈ ALLOWED_FAN_SPEEDS := by
  unfold parseFan
  cases named FAN_WORDS word with
  | some speed => simp
  | none =>
      cases parseI64 (trimEndMatches ['%'] word) with
      | none => simp
      | some value =>
          dsimp only
          by_cases hallowed : value ∈ ALLOWED_FAN_SPEEDS
          · rw [if_neg (not_not_intro (List.contains_iff_mem.mpr hallowed))]
            constructor
            · intro h
              obtain rfl := Except.ok.inj h
              exact Or.inr ⟨rfl, rfl, hallowed⟩
            · rintro (h | ⟨-, h, -⟩)
              · cases h
              · rw [Option.some.inj h]
          · rw [if_pos fun h => hallowed (List.contains_iff_mem.mp h)]
            refine iff_of_false (fun h => by cases h) ?_
            rintro (h | ⟨-, h, hv⟩)
            · cases h
            · exact hallowed (Option.some.inj h ▸ hv)

/-- What is made of a result is there when the result is. -/
private theorem map_ok_iff {α : Type} {x : Except Refusal α} {f : α → Command} :
    (∃ c, x.map f = .ok c) ↔ ∃ a, x = .ok a := by
  cases x with
  | error e => exact iff_of_false (fun ⟨_, h⟩ => by cases h) fun ⟨_, h⟩ => by cases h
  | ok a => exact iff_of_true ⟨_, rfl⟩ ⟨_, rfl⟩

/-- The first word is on, off, or a mode. -/
private theorem applyType_ok_iff {c : Command} {word : Str} :
    (∃ c', applyType c word = .ok c') ↔
      word = "off".toList ∨ word = "on".toList ∨ ∃ mode, named MODE_WORDS word = some mode := by
  unfold applyType
  by_cases hoff : word = "off".toList
  · rw [if_pos hoff]
    exact iff_of_true ⟨_, rfl⟩ (Or.inl hoff)
  · rw [if_neg hoff]
    by_cases hon : word = "on".toList
    · rw [if_pos hon]
      exact iff_of_true ⟨_, rfl⟩ (Or.inr (Or.inl hon))
    · rw [if_neg hon]
      simp only [hoff, hon, false_or]
      cases named MODE_WORDS word with
      | none => exact iff_of_false (fun ⟨_, h⟩ => by cases h) fun ⟨_, h⟩ => by cases h
      | some mode => exact iff_of_true ⟨_, rfl⟩ ⟨_, rfl⟩

/-- A flap position has a name. -/
private theorem parseFlap_ok_iff {word : Str} :
    (∃ flap, parseFlap word = .ok flap) ↔ ∃ flap, named FLAP_WORDS word = some flap := by
  unfold parseFlap
  cases named FLAP_WORDS word with
  | none => exact iff_of_false (fun ⟨_, h⟩ => by cases h) fun ⟨_, h⟩ => by cases h
  | some flap => exact iff_of_true ⟨_, rfl⟩ ⟨_, rfl⟩

/-- So a slot takes the words that it is said to take, besides those that are skipped. -/
theorem applySlot_ok_iff {toF64 : ℚ → ℚ} {c : Command} {index : Nat} {word : Str} :
    (skipped (toAsciiLowercase word) = true ∨
        ∃ c', applySlot toF64 c index word = .ok c') ↔ SlotTakes toF64 index word := by
  unfold SlotTakes
  refine or_congr_right' fun _ => ?_
  match index with
  | 0 => exact applyType_ok_iff
  | 1 => exact map_ok_iff.trans (exists_congr fun t => parseTemperature_ok_iff)
  | 2 => exact map_ok_iff.trans parseFlap_ok_iff
  | 3 =>
      refine map_ok_iff.trans ?_
      simp only [parseFan_ok_iff]
      cases named FAN_WORDS (toAsciiLowercase word) with
      | none => simp
      | some speed => simp
  | 4 => exact applyParts_ok_iff
  | _ + 5 => exact iff_of_false (fun ⟨_, h⟩ => by cases h) id

/-- **The words are accepted** exactly when each slot takes its word. By induction on the words: a
word that is skipped or that its slot takes moves on to the next slot, and nothing looks back. -/
theorem applyWords_ok_iff {toF64 : ℚ → ℚ} {words : List Str} {c : Command} {index : Nat} :
    (∃ c', applyWords toF64 c index words = .ok c') ↔
      ∀ k word, words[k]? = some word → SlotTakes toF64 (index + k) word := by
  induction words generalizing c index with
  | nil => exact iff_of_true ⟨c, rfl⟩ fun k word h => by cases h
  | cons word words ih =>
      have hsplit : (∀ k w, (word :: words)[k]? = some w → SlotTakes toF64 (index + k) w) ↔
          SlotTakes toF64 index word ∧
            ∀ k w, words[k]? = some w → SlotTakes toF64 (index + 1 + k) w := by
        constructor
        · intro h
          refine ⟨h 0 word rfl, ?_⟩
          intro k w hw
          have hnext := h (k + 1) w hw
          rwa [Nat.add_comm k 1, ← Nat.add_assoc] at hnext
        · rintro ⟨hfirst, hrest⟩ k w hw
          cases k with
          | zero =>
              obtain rfl := Option.some.inj hw
              exact hfirst
          | succ k =>
              have hnext := hrest k w hw
              rwa [Nat.add_assoc, Nat.add_comm 1 k] at hnext
      rw [hsplit, ← @applySlot_ok_iff toF64 c]
      unfold applyWords
      split
      next hskip => rw [ih, and_iff_right (Or.inl hskip)]
      next hword =>
        cases happly : applySlot toF64 c index word with
        | error e =>
            refine iff_of_false (fun ⟨_, h⟩ => by cases h) ?_
            rintro ⟨hskip | ⟨_, h⟩, -⟩
            · exact hword hskip
            · cases h
        | ok next =>
            dsimp only
            rw [ih, and_iff_right (Or.inr ⟨next, rfl⟩)]

/-! ## What is accepted is valid -/

/-- Every field that is set passes the check of the server. -/
structure Command.Valid (c : Command) : Prop where
  mode : ∀ m, c.mode = some m → m ∈ OPERATIONAL_MODES
  temperature : ∀ t, c.targetTemperature = some t →
    TEMP_MIN ≤ t ∧ t ≤ TEMP_MAX ∧ t * 2 = (trunc (t * 2) : ℚ)
  swing : ∀ m, c.swingMode = some m → m ∈ SWING_MODES
  fan : ∀ v, c.fanSpeed = some v → v ∈ ALLOWED_FAN_SPEEDS

/-- What a name stands for is in the table. -/
theorem named_mem {α : Type} {table : List (String × α)} {word : Str} {value : α}
    (h : named table word = some value) : value ∈ table.map Prod.snd := by
  obtain ⟨entry, hfind, rfl⟩ := Option.map_eq_some_iff.mp h
  exact List.mem_map_of_mem (List.mem_of_find?_eq_some hfind)

/-- The right-hand sides of the tables. -/
theorem tables_valid :
    (∀ m ∈ MODE_WORDS.map Prod.snd, m ∈ OPERATIONAL_MODES) ∧
      (∀ m ∈ FLAP_WORDS.map Prod.snd, m ∈ SWING_MODES) ∧
      ∀ v ∈ FAN_WORDS.map Prod.snd, v ∈ ALLOWED_FAN_SPEEDS := by
  decide

/-- The extras cannot make a command invalid. -/
theorem applyParts_valid {parts : List Str} {c c' : Command} (hc : c.Valid)
    (h : applyParts c parts = .ok c') : c'.Valid := by
  induction parts generalizing c with
  | nil => exact Except.ok.inj h ▸ hc
  | cons part parts ih =>
      unfold applyParts at h
      split at h
      next => exact ih hc h
      next =>
        split at h
        next => cases h
        next extra _ =>
          refine ih ?_ h
          cases extra with
          | turbo on => exact ⟨hc.mode, hc.temperature, hc.swing, hc.fan⟩
          | eco on => exact ⟨hc.mode, hc.temperature, hc.swing, hc.fan⟩

/-- Nor can the first word, which sets the power, or a mode from the table of names. -/
theorem applyType_valid {word : Str} {c c' : Command} (hc : c.Valid)
    (h : applyType c word = .ok c') : c'.Valid := by
  unfold applyType at h
  split at h
  next =>
    obtain rfl := Except.ok.inj h
    exact ⟨hc.mode, hc.temperature, hc.swing, hc.fan⟩
  next =>
    split at h
    next =>
      obtain rfl := Except.ok.inj h
      exact ⟨hc.mode, hc.temperature, hc.swing, hc.fan⟩
    next =>
      split at h
      next => cases h
      next mode hmode =>
        obtain rfl := Except.ok.inj h
        refine ⟨?_, hc.temperature, hc.swing, hc.fan⟩
        intro m hm
        obtain rfl := Option.some.inj hm
        exact tables_valid.1 _ (named_mem hmode)

/-- Where what is made of a result comes from. -/
private theorem map_eq_ok {α : Type} {x : Except Refusal α} {f : α → Command} {c : Command}
    (h : x.map f = .ok c) : ∃ a, x = .ok a ∧ f a = c := by
  cases x with
  | error e => cases h
  | ok a => exact ⟨a, rfl, Except.ok.inj h⟩

/-- Nor can any slot: a fan speed and a temperature were checked as they were read, and the modes
and flaps come from tables all of whose entries are valid. -/
theorem applySlot_valid {toF64 : ℚ → ℚ} {index : Nat} {word : Str} {c c' : Command}
    (hc : c.Valid) (h : applySlot toF64 c index word = .ok c') : c'.Valid := by
  match index with
  | 0 => exact applyType_valid hc h
  | 1 =>
      obtain ⟨t, ht, rfl⟩ := map_eq_ok h
      refine ⟨hc.mode, ?_, hc.swing, hc.fan⟩
      intro t' ht'
      obtain rfl := Option.some.inj ht'
      exact (parseTemperature_ok_iff.mp ht).2
  | 2 =>
      obtain ⟨flap, hflap, rfl⟩ := map_eq_ok h
      refine ⟨hc.mode, hc.temperature, ?_, hc.fan⟩
      intro m hm
      obtain rfl := Option.some.inj hm
      unfold parseFlap at hflap
      split at hflap
      next => cases hflap
      next flap' hnamed =>
        obtain rfl := Except.ok.inj hflap
        exact tables_valid.2.1 _ (named_mem hnamed)
  | 3 =>
      obtain ⟨speed, hspeed, rfl⟩ := map_eq_ok h
      refine ⟨hc.mode, hc.temperature, hc.swing, ?_⟩
      intro v hv
      obtain rfl := Option.some.inj hv
      rcases parseFan_ok_iff.mp hspeed with hnamed | ⟨-, -, hallowed⟩
      · exact tables_valid.2.2 _ (named_mem hnamed)
      · exact hallowed
  | 4 => exact applyParts_valid hc h
  | _ + 5 => cases h

/-- So no list of words can, by induction on the list. -/
theorem applyWords_valid {toF64 : ℚ → ℚ} {words : List Str} {index : Nat} {c c' : Command}
    (hc : c.Valid) (h : applyWords toF64 c index words = .ok c') : c'.Valid := by
  induction words generalizing c index with
  | nil => exact Except.ok.inj h ▸ hc
  | cons word words ih =>
      unfold applyWords at h
      split at h
      next => exact ih hc h
      next =>
        split at h
        next => cases h
        next next hnext => exact ih (applySlot_valid hc hnext) h

/-- A command that was parsed is valid. -/
theorem parse_valid {toF64 : ℚ → ℚ} {words : List Str} {c : Command}
    (h : parse toF64 words = .ok c) : c.Valid := by
  unfold parse at h
  split at h
  next => cases h
  next =>
    split at h
    next => cases h
    next =>
      refine applyWords_valid ?_ h
      exact ⟨fun _ h => (by cases h), fun _ h => (by cases h), fun _ h => (by cases h),
        fun _ h => (by cases h)⟩

/-- **The body passes** the check of the server. -/
theorem Command.Valid.validate {c : Command} (h : c.Valid) (table : Char → List Char) :
    c.body.validate (unicodeUppercase table) = .ok () := by
  have hswing : ∀ mode ∈ SWING_MODES, ∀ ch ∈ mode.toList, ch.isUpper = true ∨ ch = '_' := by
    have hall : (SWING_MODES.all fun mode =>
        mode.toList.all fun ch => ch.isUpper || ch == '_') = true := by decide
    simpa only [List.all_eq_true, Bool.or_eq_true, beq_iff_eq] using hall
  have hkeeps := unicodeUppercase_keepsCapitals table
  refine ControlRequest.validate_iff.mpr ⟨h.temperature, h.fan, ?_, ?_⟩
  · intro m hm
    rw [mode_capitals hkeeps (h.mode m hm)]
    exact h.mode m hm
  · intro m hm
    rw [hkeeps m (hswing m (h.swing m hm))]
    exact h.swing m hm

/-! ## Durations -/

/-- Digits and a unit of minutes or hours. -/
def Duration (word : Str) (n unit : Nat) : Prop :=
  ∃ digits suffix, toAsciiLowercase word = digits ++ suffix ∧ digits ≠ [] ∧
    (∀ c ∈ digits, isDigit c = true) ∧ n = decimal digits ∧
    ((∃ text ∈ MINUTE_UNITS, suffix = text.toList) ∧ unit = 1 ∨
      (∃ text ∈ HOUR_UNITS, suffix = text.toList) ∧ unit = 60)

/-- What matters of a unit: its first character, its last, and all of them. -/
structure UnitText (suffix : Str) : Prop where
  first : ∃ c rest, suffix = c :: rest ∧ c ≠ '.' ∧ c ≠ 'e' ∧ c ≠ 'E'
  last : ∃ front c, suffix = front ++ [c] ∧ c ∉ ['c', 'C', '°', '%']
  inner : ∀ c ∈ suffix, isDigit c = false ∧ isWhitespace c = false ∧ c ≠ '+' ∧ c ≠ ','

/-- The names of the units are letters only. -/
private theorem unitText_of_mem {text : String} (h : text ∈ MINUTE_UNITS ++ HOUR_UNITS) :
    UnitText text.toList := by
  have hall : ((MINUTE_UNITS ++ HOUR_UNITS).all fun text =>
      (text.toList.head?.any fun c => c ≠ '.' && c ≠ 'e' && c ≠ 'E') &&
        (text.toList.getLast?.any fun c => !(['c', 'C', '°', '%'].contains c)) &&
        text.toList.all fun c => !isDigit c && !isWhitespace c && c ≠ '+' && c ≠ ',') = true := by
    decide +kernel
  have hone := List.all_eq_true.mp hall text h
  simp only [Bool.and_eq_true, Option.any_eq_true, List.all_eq_true, decide_eq_true_eq,
    Bool.not_eq_true', List.contains_eq_mem, decide_eq_false_iff_not] at hone
  obtain ⟨⟨⟨c, hc, hfirst⟩, l, hl, hlast⟩, hinner⟩ := hone
  obtain ⟨rest, hrest⟩ := List.head?_eq_some_iff.mp hc
  obtain ⟨front, hfront⟩ := List.getLast?_eq_some_iff.mp hl
  exact ⟨⟨c, rest, hrest, hfirst.1.1, hfirst.1.2, hfirst.2⟩, ⟨front, l, hfront, hlast⟩,
    fun c hc => ⟨(hinner c hc).1.1.1, (hinner c hc).1.1.2, (hinner c hc).1.2, (hinner c hc).2⟩⟩

/-- A duration is its digits and a unit behind them. -/
theorem Duration.parts {word : Str} {n unit : Nat} (h : Duration word n unit) :
    ∃ digits suffix, toAsciiLowercase word = digits ++ suffix ∧ digits ≠ [] ∧
      (∀ c ∈ digits, isDigit c = true) ∧ n = decimal digits ∧ UnitText suffix := by
  obtain ⟨digits, suffix, hlower, hne, hdigits, hn, hunit⟩ := h
  refine ⟨digits, suffix, hlower, hne, hdigits, hn, ?_⟩
  rcases hunit with ⟨⟨text, htext, rfl⟩, -⟩ | ⟨⟨text, htext, rfl⟩, -⟩
  · exact unitText_of_mem (List.mem_append_left _ htext)
  · exact unitText_of_mem (List.mem_append_right _ htext)

/-- Digits with a unit behind them are cut where the unit begins. -/
theorem UnitText.scan {digits suffix : Str} (h : UnitText suffix)
    (hdigits : ∀ c ∈ digits, isDigit c = true) :
    (digits ++ suffix).takeWhile isDigit = digits ∧
      (digits ++ suffix).dropWhile isDigit = suffix := by
  obtain ⟨c, rest, rfl, -⟩ := h.first
  have hc : ¬ isDigit c = true := by
    rw [(h.inner c List.mem_cons_self).1]
    decide
  rw [List.takeWhile_append_of_pos hdigits, List.dropWhile_append_of_pos hdigits,
    List.takeWhile_cons_of_neg hc, List.dropWhile_cons_of_neg hc, List.append_nil]
  exact ⟨rfl, rfl⟩

/-- The two tables of units have no text in common. -/
private theorem units_apart {text : String} (h : text ∈ HOUR_UNITS) :
    (MINUTE_UNITS.any fun other => text.toList = other.toList) = false := by
  have hall : (HOUR_UNITS.all fun text =>
      !MINUTE_UNITS.any fun other => text.toList = other.toList) = true := by decide +kernel
  have hone := List.all_eq_true.mp hall text h
  rwa [Bool.not_eq_true'] at hone

/-- A unit that is in the table is found there. -/
private theorem any_unit {table : List String} {text : String} (h : text ∈ table) :
    (table.any fun other => text.toList = other.toList) = true :=
  List.any_eq_true.mpr ⟨text, h, decide_eq_true rfl⟩

/-- So a duration is read: its minutes, or sixty to the hour, if the number fits in 32 bits. -/
theorem parseTimer_parts {digits suffix : Str} (hne : digits ≠ [])
    (hdigits : ∀ c ∈ digits, isDigit c = true) (hunit : UnitText suffix) :
    parseTimer (digits ++ suffix) =
      if decimal digits < 2 ^ 32 then
        if MINUTE_UNITS.any fun text => suffix = text.toList then
          some (UInt32.ofNat (decimal digits))
        else if HOUR_UNITS.any fun text => suffix = text.toList then
          some (UInt32.ofNat (decimal digits) * 60)
        else none
      else none := by
  obtain ⟨htake, hdrop⟩ := hunit.scan hdigits
  have hsuffix : suffix ≠ [] := by
    obtain ⟨c, rest, rfl, -⟩ := hunit.first
    exact List.cons_ne_nil c rest
  unfold parseTimer
  rw [htake, hdrop]
  dsimp only
  rw [if_neg (not_or.mpr ⟨hsuffix, hne⟩), fromStrRadix_digits (by decide) hne hdigits]
  by_cases hfits : decimal digits < 2 ^ 32
  · rw [if_pos hfits, if_pos hfits]
  · rw [if_neg hfits, if_neg hfits]

/-- **The minutes of a duration** are those of a product of 32 bits, where the number
itself fits. -/
theorem parseTimer_duration {word : Str} {n unit : Nat} (h : Duration word n unit) :
    parseTimer (toAsciiLowercase word) =
      if n < 2 ^ 32 then some (UInt32.ofNat (n * unit)) else none := by
  obtain ⟨digits, suffix, hlower, hne, hdigits, rfl, hunit⟩ := h
  rcases hunit with ⟨⟨text, htext, rfl⟩, rfl⟩ | ⟨⟨text, htext, rfl⟩, rfl⟩
  · rw [hlower, parseTimer_parts hne hdigits (unitText_of_mem (List.mem_append_left _ htext)),
      if_pos (any_unit htext), Nat.mul_one]
  · rw [hlower, parseTimer_parts hne hdigits (unitText_of_mem (List.mem_append_right _ htext)),
      units_apart htext, if_neg Bool.false_ne_true, if_pos (any_unit htext), UInt32.ofNat_mul]
    rfl

/-- What is no duration is no timer. A word that `parseTimer` reads is digits and a unit, and
these digits and this unit would have made it a duration. -/
theorem parseTimer_none {word : Str} (h : ∀ n unit, ¬ Duration word n unit) :
    parseTimer (toAsciiLowercase word) = none := by
  rw [Option.eq_none_iff_forall_ne_some]
  intro m hm
  unfold parseTimer at hm
  dsimp only at hm
  split at hm
  next => cases hm
  next hparts =>
    rw [not_or] at hparts
    have hdigits : ∀ c ∈ (toAsciiLowercase word).takeWhile isDigit, isDigit c = true :=
      fun c hc => List.mem_takeWhile_imp hc
    have hcut : toAsciiLowercase word =
        (toAsciiLowercase word).takeWhile isDigit ++ (toAsciiLowercase word).dropWhile isDigit :=
      List.takeWhile_append_dropWhile.symm
    have hnone := fun unit hunit =>
      h _ unit ⟨_, _, hcut, hparts.2, hdigits, rfl, hunit⟩
    split at hm
    next => cases hm
    next =>
      split at hm
      next hminutes =>
        obtain ⟨text, htext, heq⟩ := List.any_eq_true.mp hminutes
        exact hnone 1 (Or.inl ⟨⟨text, htext, of_decide_eq_true heq⟩, rfl⟩)
      next =>
        split at hm
        next hhours =>
          obtain ⟨text, htext, heq⟩ := List.any_eq_true.mp hhours
          exact hnone 60 (Or.inr ⟨⟨text, htext, of_decide_eq_true heq⟩, rfl⟩)
        next => cases hm

/-! ### No slot takes a duration -/

/-- No word of the table begins with a digit. -/
def Wordy {α : Type} (table : List (String × α)) : Prop :=
  (table.all fun entry => !entry.1.toList.head?.any isDigit) = true

/-- A word that begins with a digit is no name. -/
private theorem named_none {α : Type} {table : List (String × α)} (hwordy : Wordy table)
    {word : Str} (hdigit : word.head?.any isDigit = true) : named table word = none := by
  unfold named
  rw [Option.map_eq_none_iff, List.find?_eq_none]
  intro entry hentry heq
  have hone := List.all_eq_true.mp hwordy entry hentry
  rw [← of_decide_eq_true heq, hdigit] at hone
  cases hone

/-- A word that begins with a digit is none of those that are skipped. -/
private theorem skipped_false {word : Str} (hdigit : word.head?.any isDigit = true) :
    skipped word = false := by
  have hall : (["none", "-", "", "same", "keep"].all fun text =>
      !text.toList.head?.any isDigit) = true := by decide +kernel
  rw [skipped, List.any_eq_false]
  intro text htext heq
  have hone := List.all_eq_true.mp hall text htext
  rw [← of_decide_eq_true heq, hdigit] at hone
  cases hone

/-- The end of a duration is none of the signs that are taken off. -/
private theorem trimEndMatches_unit {chars digits suffix : Str} (hunit : UnitText suffix)
    (hchars : ∀ c ∈ chars, c ∈ ['c', 'C', '°', '%']) :
    trimEndMatches chars (digits ++ suffix) = digits ++ suffix := by
  obtain ⟨front, l, rfl, hlast⟩ := hunit.last
  have hl : ¬ chars.contains l = true := fun h => hlast (hchars l (List.contains_iff_mem.mp h))
  have hreverse : (digits ++ (front ++ [l])).reverse = l :: (digits ++ front).reverse := by simp
  rw [trimEndMatches, hreverse, List.dropWhile_cons_of_neg hl, ← hreverse, List.reverse_reverse]

/-- It has no sign. -/
private theorem readSign_digits {digits suffix : Str} (hne : digits ≠ [])
    (hdigits : ∀ c ∈ digits, isDigit c = true) :
    readSign (digits ++ suffix) = (false, digits ++ suffix) := by
  obtain ⟨d, rest, rfl⟩ := List.exists_cons_of_ne_nil hne
  have hd := hdigits d List.mem_cons_self
  rw [List.cons_append]
  unfold readSign
  split
  next h => exact absurd ((List.cons.inj h).1 ▸ hd) (by decide)
  next h => exact absurd ((List.cons.inj h).1 ▸ hd) (by decide)
  next => rfl

/-- A digit has no lower case. -/
private theorem toLower_digit {d : Char} (h : isDigit d = true) : d.toLower = d := by
  simp only [isDigit, Bool.and_eq_true, decide_eq_true_eq] at h
  refine dif_neg fun hupper => ?_
  have hlow : 65 ≤ d.toNat := UInt32.le_iff_toNat_le.mp hupper.1
  omega

/-- A duration is no number: behind the digits comes a letter that is no exponent. -/
private theorem parseF64_duration {toF64 : ℚ → ℚ} {digits suffix : Str} (hne : digits ≠ [])
    (hdigits : ∀ c ∈ digits, isDigit c = true) (hunit : UnitText suffix) :
    parseF64 toF64 (digits ++ suffix) = none := by
  obtain ⟨htake, hdrop⟩ := hunit.scan hdigits
  have hrest : (digits ++ suffix).drop digits.length = suffix := by simp
  have hread : readDecimal (digits ++ suffix) = none := by
    obtain ⟨c, rest, rfl, hpoint, he, hE⟩ := hunit.first
    have hexponent : readExponent (c :: rest) = none := by
      rw [readExponent, if_neg (not_or.mpr ⟨he, hE⟩)]
    unfold readDecimal
    rw [htake]
    dsimp only
    rw [hrest]
    split
    next h => exact absurd (List.cons.inj h).1 hpoint
    next =>
      dsimp only
      rw [if_neg fun h => hne h.1, hexponent]
      rfl
  obtain ⟨d, tail, rfl⟩ := List.exists_cons_of_ne_nil hne
  have hd := toLower_digit (hdigits d List.mem_cons_self)
  have hnames : ∀ name ∈ ["inf", "infinity", "nan"],
      toAsciiLowercase (d :: tail ++ suffix) ≠ name.toList := by
    intro name hname heq
    have hall : (["inf", "infinity", "nan"].all fun name =>
        !name.toList.head?.any isDigit) = true := by decide +kernel
    have hone := List.all_eq_true.mp hall name hname
    have hfirst : (toAsciiLowercase (d :: tail ++ suffix)).head? = some d := congrArg some hd
    rw [← heq, hfirst, Option.any_some, hdigits d List.mem_cons_self] at hone
    cases hone
  unfold parseF64
  rw [readSign_digits hne hdigits]
  dsimp only
  rw [if_neg (not_or.mpr ⟨hnames _ (by decide), hnames _ (by decide)⟩),
    if_neg (hnames _ (by decide)), hread]
  rfl

/-- A duration is no integer: behind the digits comes a letter. -/
private theorem parseI64_duration {digits suffix : Str} (hne : digits ≠ [])
    (hdigits : ∀ c ∈ digits, isDigit c = true) (hunit : UnitText suffix) :
    parseI64 (digits ++ suffix) = none := by
  obtain ⟨c, rest, rfl, -⟩ := hunit.first
  have hc := (hunit.inner c List.mem_cons_self).1
  have hmem : c ∈ digits ++ c :: rest := List.mem_append_right _ List.mem_cons_self
  have hnone : fromStrRadix 10 (2 ^ 63) (digits ++ c :: rest) = none := by
    rw [Option.eq_none_iff_forall_ne_some]
    intro n hn
    obtain ⟨ds, htext, hnumeral, -⟩ := (fromStrRadix_eq_some (by decide) (by decide)).mp hn
    have hds := (numeral_ten.mp hnumeral).2.1
    rcases htext with htext | htext
    · rw [htext] at hmem
      rw [hds c hmem] at hc
      cases hc
    · obtain ⟨d, tail, rfl⟩ := List.exists_cons_of_ne_nil hne
      have hd := hdigits d List.mem_cons_self
      rw [(List.cons.inj htext).1] at hd
      exact absurd hd (by decide)
  obtain ⟨d, tail, rfl⟩ := List.exists_cons_of_ne_nil hne
  have hd := hdigits d List.mem_cons_self
  unfold parseI64
  split
  next h => exact absurd ((List.cons.inj h).1 ▸ hd) (by decide)
  next h => exact absurd ((List.cons.inj h).1 ▸ hd) (by decide)
  next => rw [hnone]; rfl

/-- A duration is one part of the extras, with nothing to trim. -/
private theorem extraParts_duration {digits suffix : Str}
    (hdigits : ∀ c ∈ digits, isDigit c = true) (hunit : UnitText suffix) :
    extraParts (digits ++ suffix) = [digits ++ suffix] ∧
      trim (digits ++ suffix) = digits ++ suffix := by
  have hchars : ∀ c ∈ digits ++ suffix, isWhitespace c = false ∧ c ≠ '+' ∧ c ≠ ',' := by
    intro c hc
    rcases List.mem_append.mp hc with hc | hc
    · have hd := hdigits c hc
      refine ⟨?_, ?_, ?_⟩
      · simp only [isDigit, Bool.and_eq_true, decide_eq_true_eq] at hd
        simp only [isWhitespace, Bool.or_eq_false_iff, Bool.and_eq_false_iff,
          decide_eq_false_iff_not, beq_eq_false_iff_ne]
        omega
      · rintro rfl
        exact absurd hd (by decide)
      · rintro rfl
        exact absurd hd (by decide)
    · exact (hunit.inner c hc).2
  constructor
  · rw [extraParts, split_of_notMem fun h => (hchars '+' h).2.1 rfl, List.flatMap_singleton,
      split_of_notMem fun h => (hchars ',' h).2.2 rfl]
  · have hpadded := @trim_padded [] (digits ++ suffix) [] (fun c h => absurd h List.not_mem_nil)
      (fun c hc => (hchars c hc).1) fun c h => absurd h List.not_mem_nil
    rwa [List.nil_append, List.append_nil] at hpadded

/-- **No slot takes a duration.** It begins with a digit, so it is no name, and it ends with a
letter, so it is no number. -/
theorem Duration.not_taken {toF64 : ℚ → ℚ} {word : Str} {n unit : Nat}
    (h : Duration word n unit) (index : Nat) : ¬ SlotTakes toF64 index word := by
  obtain ⟨digits, suffix, hlower, hne, hdigits, -, hunit⟩ := h.parts
  have hdigit : (digits ++ suffix).head?.any isDigit = true := by
    obtain ⟨d, rest, rfl⟩ := List.exists_cons_of_ne_nil hne
    exact hdigits d List.mem_cons_self
  unfold SlotTakes
  rw [hlower]
  dsimp only
  rw [skipped_false hdigit, or_iff_right Bool.false_ne_true]
  match index with
  | 0 =>
      have hwords : ∀ text ∈ ["off", "on"], digits ++ suffix ≠ text.toList := by
        intro text htext heq
        have hall : (["off", "on"].all fun text => !text.toList.head?.any isDigit) = true := by
          decide +kernel
        have hone := List.all_eq_true.mp hall text htext
        rw [← heq, hdigit] at hone
        cases hone
      rintro (hoff | hon | ⟨mode, hmode⟩)
      · exact hwords _ (by decide) hoff
      · exact hwords _ (by decide) hon
      · rw [named_none (by unfold Wordy; decide +kernel) hdigit] at hmode
        cases hmode
  | 1 =>
      rintro ⟨t, ht, -⟩
      rw [trimEndMatches_unit hunit (all_decide_iff.mp (by decide)),
        parseF64_duration hne hdigits hunit] at ht
      cases ht
  | 2 =>
      rintro ⟨flap, hflap⟩
      rw [named_none (by unfold Wordy; decide +kernel) hdigit] at hflap
      cases hflap
  | 3 =>
      rintro (⟨speed, hspeed⟩ | ⟨v, hv, -⟩)
      · rw [named_none (by unfold Wordy; decide +kernel) hdigit] at hspeed
        cases hspeed
      · rw [trimEndMatches_unit hunit (all_decide_iff.mp (by decide)),
          parseI64_duration hne hdigits hunit] at hv
        cases hv
  | 4 =>
      obtain ⟨hparts, htrim⟩ := extraParts_duration hdigits hunit
      rw [hparts, List.forall_mem_singleton, htrim]
      rintro (hempty | ⟨extra, hextra⟩)
      · exact hne (List.append_eq_nil_iff.mp hempty).1
      · rw [named_none (by unfold Wordy; decide +kernel) hdigit] at hextra
        cases hextra
  | _ + 5 => exact id

/-! ## A duration among the words -/

/-- The list is of words that are no durations. -/
def NoDurations (words : List Str) : Prop := ∀ word ∈ words, ∀ n unit, ¬ Duration word n unit

/-- Words that are no durations are put aside for the slots. -/
theorem takeTimer_append {timer : Option UInt32} {positional words rest : List Str}
    (h : ∀ word ∈ words, parseTimer (toAsciiLowercase word) = none) :
    takeTimer timer positional (words ++ rest) =
      takeTimer timer (positional ++ words) rest := by
  induction words generalizing positional with
  | nil => rw [List.nil_append, List.append_nil]
  | cons word words ih =>
      rw [List.forall_mem_cons] at h
      rw [List.cons_append, takeTimer, h.1]
      dsimp only
      rw [ih h.2, List.append_assoc, List.singleton_append]

/-- If none is, there is no timer. -/
theorem takeTimer_all {timer : Option UInt32} {positional words : List Str}
    (h : ∀ word ∈ words, parseTimer (toAsciiLowercase word) = none) :
    takeTimer timer positional words = .ok (timer, positional ++ words) := by
  have happend := @takeTimer_append timer positional words [] h
  rwa [List.append_nil] at happend

/-- Without a duration the words fill the slots in order. -/
theorem parse_plain {toF64 : ℚ → ℚ} {words : List Str} (hlen : words.length ≤ 6)
    (h : ∀ word ∈ words, parseTimer (toAsciiLowercase word) = none) :
    parse toF64 words = applyWords toF64 {} 0 words := by
  rw [parse, if_neg (Nat.not_lt.mpr hlen), takeTimer_all h, List.nil_append]

/-- Words without a duration are refused when some slot does not take its word. -/
theorem parse_plain_error_iff {toF64 : ℚ → ℚ} {words : List Str} (hlen : words.length ≤ 6)
    (h : ∀ word ∈ words, parseTimer (toAsciiLowercase word) = none) :
    (∃ e, parse toF64 words = .error e) ↔
      ∃ k word, words[k]? = some word ∧ ¬ SlotTakes toF64 k word := by
  have htaken := @applyWords_ok_iff toF64 words {} 0
  simp only [Nat.zero_add] at htaken
  rw [parse_plain hlen h]
  cases hlist : applyWords toF64 {} 0 words with
  | error e =>
      refine iff_of_true ⟨e, rfl⟩ ?_
      by_contra hnone
      obtain ⟨c, hc⟩ := htaken.mpr fun k word hword =>
        not_not.mp fun hnot => hnone ⟨k, word, hword, hnot⟩
      rw [hlist] at hc
      cases hc
  | ok c =>
      refine iff_of_false (fun ⟨_, herror⟩ => by cases herror) ?_
      rintro ⟨k, word, hword, hnot⟩
      exact hnot (htaken.mp ⟨c, hlist⟩ k word hword)

/-- **A duration that is read** leaves the other words what they are. -/
theorem parse_timer {toF64 : ℚ → ℚ} {before after : List Str} {text : Str} {m : UInt32}
    (hlen : before.length + after.length ≤ 5)
    (h : ∀ word ∈ before ++ after, parseTimer (toAsciiLowercase word) = none)
    (htext : parseTimer (toAsciiLowercase text) = some m) :
    parse toF64 (before ++ text :: after) =
      (parse toF64 (before ++ after)).map (·.withTimer (some m)) := by
  rw [List.forall_mem_append] at h
  have htake : takeTimer none [] (before ++ text :: after) = .ok (some m, before ++ after) := by
    rw [takeTimer_append h.1, takeTimer, htext]
    dsimp only
    rw [if_neg (by decide), takeTimer_all h.2, List.nil_append]
  rw [parse_plain (by rw [List.length_append]; omega) (List.forall_mem_append.mpr h), parse,
    if_neg (by rw [List.length_append, List.length_cons]; omega), htake]
  exact applyWords_withTimer toF64 (some m) (before ++ after) {} 0

/-- **A number too large** is refused with the text it stands in, whatever the slot. -/
theorem parse_oversize {toF64 : ℚ → ℚ} {before after : List Str} {text : Str} {n unit : Nat}
    (hlen : before.length + after.length ≤ 5)
    (h : ∀ word ∈ before ++ after, parseTimer (toAsciiLowercase word) = none)
    (htext : Duration text n unit) (hlarge : 2 ^ 32 ≤ n) :
    ∃ e, parse toF64 (before ++ text :: after) = .error e := by
  have hnone : parseTimer (toAsciiLowercase text) = none := by
    rw [parseTimer_duration htext, if_neg (Nat.not_lt.mpr hlarge)]
  rw [List.forall_mem_append] at h
  have hall : ∀ word ∈ before ++ text :: after, parseTimer (toAsciiLowercase word) = none :=
    List.forall_mem_append.mpr ⟨h.1, List.forall_mem_cons.mpr ⟨hnone, h.2⟩⟩
  rw [parse_plain (by rw [List.length_append, List.length_cons]; omega) hall]
  cases hwords : applyWords toF64 {} 0 (before ++ text :: after) with
  | error e => exact ⟨e, rfl⟩
  | ok c =>
      have htakes := applyWords_ok_iff.mp ⟨c, hwords⟩ before.length text (by simp)
      exact absurd htakes (htext.not_taken _)

/-- A duration whose number has 32 bits is read, its minutes with as many. -/
theorem parse_inserted {toF64 : ℚ → ℚ} {before after : List Str} {text : Str} {n unit : Nat}
    (hlen : before.length + after.length ≤ 5)
    (h : ∀ word ∈ before ++ after, parseTimer (toAsciiLowercase word) = none)
    (htext : Duration text n unit) (hsmall : n < 2 ^ 32) :
    parse toF64 (before ++ text :: after) =
      (parse toF64 (before ++ after)).map (·.withTimer (some (UInt32.ofNat (n * unit)))) :=
  parse_timer hlen h (by rw [parseTimer_duration htext, if_pos hsmall])

/-- Where the command is accepted, the number has 32 bits and the other words are taken. The
duration is taken out of the words wherever it stands, and its minutes wrap around on 32 bits. -/
theorem parse_inserted_ok {toF64 : ℚ → ℚ} {before after : List Str} {text : Str} {n unit : Nat}
    {c : Command} (hlen : before.length + after.length ≤ 5)
    (h : ∀ word ∈ before ++ after, parseTimer (toAsciiLowercase word) = none)
    (htext : Duration text n unit) (hc : parse toF64 (before ++ text :: after) = .ok c) :
    n < 2 ^ 32 ∧ c.timerMinutes = some (UInt32.ofNat (n * unit)) ∧
      ∃ c', parse toF64 (before ++ after) = .ok c' := by
  have hsmall : n < 2 ^ 32 := by
    by_contra hlarge
    obtain ⟨e, he⟩ := @parse_oversize toF64 _ _ _ _ _ hlen h htext (Nat.not_lt.mp hlarge)
    rw [hc] at he
    cases he
  rw [parse_inserted hlen h htext hsmall] at hc
  cases hlist : parse toF64 (before ++ after) with
  | error e =>
      rw [hlist] at hc
      cases hc
  | ok c' =>
      rw [hlist] at hc
      obtain rfl := Except.ok.inj hc
      exact ⟨hsmall, rfl, c', rfl⟩

/-- The timer of one unit is built from the minutes within a day. -/
theorem buildTimer_ok_iff {clock : Clock} {id unitId label : Str} {minutes : Nat}
    {settings : Option ControlRequest} {now : LocalTime} :
    (∃ t, buildTimer clock id [unitId] minutes settings label now = .ok t) ↔
      1 ≤ minutes ∧ minutes ≤ 1440 := by
  unfold buildTimer
  by_cases hbounds : minutes = 0 ∨ MAX_MINUTES < minutes
  · rw [if_pos hbounds]
    refine iff_of_false (fun ⟨_, h⟩ => by cases h) ?_
    unfold MAX_MINUTES at hbounds
    omega
  · have hone : ¬ MAX_UNITS < [unitId].length := show ¬ 64 < 1 by decide
    rw [if_neg hbounds, if_neg hone]
    refine iff_of_true ⟨_, rfl⟩ ?_
    unfold MAX_MINUTES at hbounds
    omega

/-- What the command owes to a duration among the words: the command of the other words
with its minutes, or their refusal; a refusal where the minutes do not fit; and nothing
accepted that the server refuses. -/
structure Inserted (toF64 : ℚ → ℚ) (table : Char → List Char) (before after : List Str)
    (text : Str) (n unit : Nat) : Prop where
  fits : n * unit < 2 ^ 32 → ∃ m : UInt32, m.toNat = n * unit ∧
    parse toF64 (before ++ text :: after) =
      (parse toF64 (before ++ after)).map (·.withTimer (some m))
  refused : 2 ^ 32 ≤ n * unit → ∃ e, parse toF64 (before ++ text :: after) = .error e
  accepted : ∀ c, parse toF64 (before ++ text :: after) = .ok c →
    c.body.validate (unicodeUppercase table) = .ok () ∧
      ∀ m, c.timerMinutes = some m → ∀ (clock : Clock) (id unitId label : Str) (now : LocalTime),
        ∃ t, buildTimer clock id [unitId] m.toNat none label now = .ok t

/-- **The grammar of the control command.**  Its body always passes the check of the
server.  A duration is taken as it should be exactly when the other words are refused
anyway, when its number alone has no 32 bits, or when its minutes are within a day. -/
theorem parse_duration (toF64 : ℚ → ℚ) (table : Char → List Char) :
    (∀ words c, parse toF64 words = .ok c →
      c.body.validate (unicodeUppercase table) = .ok ()) ∧
    ∀ (before after : List Str) (text : Str) (n unit : Nat),
      before.length + after.length ≤ 5 → NoDurations (before ++ after) → Duration text n unit →
        (Inserted toF64 table before after text n unit ↔
          (∃ k word, (before ++ after)[k]? = some word ∧ ¬ SlotTakes toF64 k word) ∨
            2 ^ 32 ≤ n ∨ 1 ≤ n * unit ∧ n * unit ≤ 1440) := by
  refine ⟨fun words c h => (parse_valid h).validate table, ?_⟩
  intro before after text n unit hlen hplain htext
  have hwords : ∀ word ∈ before ++ after, parseTimer (toAsciiLowercase word) = none :=
    fun word hword => parseTimer_none (hplain word hword)
  have hunit : n ≤ n * unit := by
    obtain ⟨-, -, -, -, -, -, ⟨-, rfl⟩ | ⟨-, rfl⟩⟩ := htext <;> omega
  have hread : n < 2 ^ 32 → parse toF64 (before ++ text :: after) =
      (parse toF64 (before ++ after)).map (·.withTimer (some (UInt32.ofNat (n * unit)))) :=
    parse_inserted hlen hwords htext
  have hvalue : n * unit < 2 ^ 32 → (UInt32.ofNat (n * unit)).toNat = n * unit :=
    fun h => UInt32.toNat_ofNat_of_lt' h
  rw [← parse_plain_error_iff (by rw [List.length_append]; omega) hwords]
  constructor
  · intro h
    by_contra hcond
    rw [not_or, not_or, Nat.not_le] at hcond
    obtain ⟨hok, hsmall, hminutes⟩ := hcond
    cases hlist : parse toF64 (before ++ after) with
    | error e => exact hok ⟨e, hlist⟩
    | ok c =>
        have hparse := hread hsmall
        rw [hlist] at hparse
        by_cases hfits : n * unit < 2 ^ 32
        · have hbuilt := (h.accepted _ hparse).2 _ rfl oneDay [] [] [] 0
          rw [buildTimer_ok_iff, hvalue hfits] at hbuilt
          exact hminutes hbuilt
        · obtain ⟨e, he⟩ := h.refused (Nat.not_lt.mp hfits)
          rw [hparse] at he
          cases he
  · intro hcond
    refine ⟨?_, ?_, ?_⟩
    · intro hfits
      exact ⟨_, hvalue hfits, hread (by omega)⟩
    · intro hlarge
      by_cases hsmall : n < 2 ^ 32
      · rcases hcond with ⟨e, he⟩ | hcond
        · rw [hread hsmall, he]
          exact ⟨e, rfl⟩
        · omega
      · exact parse_oversize hlen hwords htext (Nat.not_lt.mp hsmall)
    · intro c hc
      refine ⟨(parse_valid hc).validate table, ?_⟩
      intro m hm clock id unitId label now
      obtain ⟨hsmall, htimer, c', hlist⟩ := parse_inserted_ok hlen hwords htext hc
      rw [htimer] at hm
      obtain rfl := Option.some.inj hm
      rw [buildTimer_ok_iff]
      rcases hcond with ⟨e, he⟩ | hlarge | hminutes
      · rw [hlist] at he
        cases he
      · omega
      · rwa [hvalue (by omega)]

/-- No minutes, more than a day, and minutes that wrap around: all are accepted. -/
theorem parse_duration_unbounded :
    ¬ Inserted id (fun c => [c]) [] [] "0m".toList 0 1 ∧
      ¬ Inserted id (fun c => [c]) [] [] "2000m".toList 2000 1 ∧
      ¬ Inserted id (fun c => [c]) [] [] "71582789h".toList 71582789 60 := by
  have hzero : parse id ["0m".toList] = .ok { timerMinutes := some 0 } := by decide +kernel
  have hlong : parse id ["2000m".toList] = .ok { timerMinutes := some 2000 } := by decide +kernel
  have hwrap : parse id ["71582789h".toList] = .ok { timerMinutes := some 44 } := by
    decide +kernel
  refine ⟨?_, ?_, ?_⟩
  · intro h
    have hbuilt := (h.accepted _ hzero).2 0 rfl oneDay [] [] [] 0
    rw [buildTimer_ok_iff] at hbuilt
    exact absurd hbuilt.1 (by decide)
  · intro h
    have hbuilt := (h.accepted _ hlong).2 2000 rfl oneDay [] [] [] 0
    rw [buildTimer_ok_iff] at hbuilt
    exact absurd hbuilt.2 (by decide)
  · intro h
    obtain ⟨e, he⟩ := h.refused (by decide)
    rw [List.nil_append, hwrap] at he
    cases he

end BreezeCli
