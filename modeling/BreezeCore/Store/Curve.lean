import Mathlib.Data.Finset.Max
import BreezeCore.Lib.Circle
import BreezeCore.Lib.Rounding
import BreezeCore.Store.Programs

/-!
# What a curve asks for

The points of a curve are positions on a circle of 1440 minutes, and at a minute the curve is
meant to be on the straight line from the latest point at or before it to the first one after
it, rounded to half a degree (`Interpolates`).

The search through the points takes the first segment that covers the minute
(`curveSetpoint_eq`).  Two points at the same time make a segment of a whole day, which
covers every minute: `curve_setpoint_iff` says when that one is taken for another.
-/

namespace BreezeStore

open Text Ac Circle Rounding

/-! ## Half degrees -/

/-- The half degree a temperature is rounded to, the even one of two that are as near. -/
def HalfDegree (t v : ℚ) : Prop := ∃ k : ℤ, IsNearest (t * 2) k ∧ v = k / 2

/-- Rounding to half degrees keeps the order. -/
theorem HalfDegree.mono {t t' v v' : ℚ} (h : HalfDegree t v) (h' : HalfDegree t' v')
    (hle : t ≤ t') : v ≤ v' := by
  obtain ⟨k, hk, rfl⟩ := h
  obtain ⟨k', hk', rfl⟩ := h'
  have hmono : ((k : ℤ) : ℚ) ≤ k' := by exact_mod_cast hk.mono hk' (by linarith)
  linarith

/-- There is one half degree to round to. -/
theorem HalfDegree.unique {t v v' : ℚ} (h : HalfDegree t v) (h' : HalfDegree t v') : v = v' :=
  le_antisymm (h.mono h' le_rfl) (h'.mono h le_rfl)

/-- A number of half degrees is in the middle when it is so from below. Truncation goes towards
zero, so a negative number is cut at its ceiling. -/
private theorem abs_sub_trunc {d : ℚ} : |d - trunc d| = 1 / 2 ↔ d - ⌊d⌋ = 1 / 2 := by
  unfold trunc
  have hlow := Int.floor_le d
  split
  next => rw [abs_of_nonneg (by linarith)]
  next =>
    have hhigh := Int.le_ceil d
    rw [abs_of_nonpos (by linarith)]
    constructor
    · intro h
      have hfloor : ⌊d⌋ = ⌈d⌉ - 1 :=
        Int.floor_eq_iff.mpr ⟨by push_cast; linarith, by push_cast; linarith⟩
      rw [hfloor]
      push_cast
      linarith
    · intro h
      have hceil : ⌈d⌉ = ⌊d⌋ + 1 :=
        Int.ceil_eq_iff.mpr ⟨by push_cast; linarith, by push_cast; linarith⟩
      rw [hceil]
      push_cast
      linarith

/-- **Rounding is to the nearest half degree**, and then into the range. -/
theorem roundHalf_eq (t : ℚ) :
    ∃ k : ℤ, IsNearest (t * 2) k ∧ roundHalf t = max 16 (min 30 ((k : ℚ) / 2)) := by
  unfold roundHalf
  dsimp only
  by_cases hmiddle : |t * 2 - trunc (t * 2)| = 1 / 2
  · rw [if_pos hmiddle]
    exact ⟨_, isNearest_of_lower (abs_sub_trunc.mp hmiddle), rfl⟩
  · rw [if_neg hmiddle]
    exact ⟨_, isNearest_floor fun h => hmiddle (abs_sub_trunc.mpr h), rfl⟩

/-- In the range it is to the nearest half degree. -/
theorem halfDegree_roundHalf {t : ℚ} (hlow : 16 ≤ t) (hhigh : t ≤ 30) :
    HalfDegree t (roundHalf t) := by
  obtain ⟨k, hk, hround⟩ := roundHalf_eq t
  have hklow : (32 : ℤ) ≤ k := hk.le_of_ge (by push_cast; linarith)
  have hkhigh : k ≤ (60 : ℤ) := hk.le_of_le (by push_cast; linarith)
  have hqlow : (32 : ℚ) ≤ k := by exact_mod_cast hklow
  have hqhigh : (k : ℚ) ≤ 60 := by exact_mod_cast hkhigh
  refine ⟨k, hk, ?_⟩
  rw [hround, min_eq_right (by linarith), max_eq_right (by linarith)]

/-- The code's rounding to half degrees keeps the order of temperatures. -/
theorem roundHalf_mono : Monotone roundHalf := by
  intro t t' hle
  obtain ⟨k, hk, hround⟩ := roundHalf_eq t
  obtain ⟨k', hk', hround'⟩ := roundHalf_eq t'
  have hmono : ((k : ℤ) : ℚ) ≤ k' := by exact_mod_cast hk.mono hk' (by linarith)
  rw [hround, hround']
  gcongr

/-- **What is rounded** is a whole number of half degrees from 16 to 30. -/
theorem roundHalf_grid (t : ℚ) : 16 ≤ roundHalf t ∧ roundHalf t ≤ 30 ∧
    ∃ k : ℤ, roundHalf t = k / 2 := by
  obtain ⟨k, -, hround⟩ := roundHalf_eq t
  rw [hround]
  refine ⟨le_max_left _ _, max_le (by norm_num) (min_le_left _ _), ?_⟩
  rcases le_total ((k : ℚ) / 2) 30 with hle | hge
  · rw [min_eq_right hle]
    rcases le_total 16 ((k : ℚ) / 2) with hle' | hge'
    · exact ⟨k, max_eq_right hle'⟩
    · exact ⟨32, (max_eq_left hge').trans (by norm_num)⟩
  · rw [min_eq_left hge]
    exact ⟨60, by norm_num⟩

/-! ## On the line between two points -/

/-- The points whose time can be read, as minutes and temperatures. -/
def timed (points : List CurvePoint) : List (Int × ℚ) :=
  points.filterMap fun p => (minutesOfDay p.time).map fun m => (m, p.temperature)

/-- The latest point at or before a minute, around the day. -/
structure Latest (pts : List (Int × ℚ)) (mins : Int) (p : Int × ℚ) : Prop where
  mem : p ∈ pts
  latest : ∀ q ∈ pts, ahead MINUTES_PER_DAY p.1 mins ≤ ahead MINUTES_PER_DAY q.1 mins

/-- The first point after it. -/
structure First (pts : List (Int × ℚ)) (mins : Int) (q : Int × ℚ) : Prop where
  mem : q ∈ pts
  first : ∀ r ∈ pts, past MINUTES_PER_DAY mins q.1 ≤ past MINUTES_PER_DAY mins r.1

/-- The straight line from one point to another. -/
def lineAt (p q : Int × ℚ) (mins : Int) : ℚ :=
  p.2 + (q.2 - p.2) * ((ahead MINUTES_PER_DAY p.1 mins : ℚ) /
    (ahead MINUTES_PER_DAY p.1 mins + past MINUTES_PER_DAY mins q.1 : ℤ))

/-- What a curve is to ask for: the rounded temperature on the line between the two points
around the minute, which is between theirs, and that of a point where there is one at that
minute. -/
structure Interpolates (points : List CurvePoint) (mins : Int) (v : ℚ) : Prop where
  onLine : ∃ p q, Latest (timed points) mins p ∧ First (timed points) mins q ∧
    HalfDegree (lineAt p q mins) v ∧
    ∀ low high, HalfDegree (min p.2 q.2) low → HalfDegree (max p.2 q.2) high →
      low ≤ v ∧ v ≤ high
  atPoint : ∀ p ∈ timed points, p.1 = mins →
    ∃ q ∈ timed points, q.1 = mins ∧ HalfDegree q.2 v

/-- A list of points that comes with a curve the server takes. -/
def Accepted (points : List CurvePoint) : Prop :=
  ∃ (toUppercase : String → String) (spec : ProgramSpec) (id : Str) (program : Program)
    (curve : CurveConfig), spec.intoProgram toUppercase id = .ok program ∧
      program.curve = some curve ∧ curve.points = points

/-- The minutes of the points. -/
def minutesOf (points : List CurvePoint) : List Int := (timed points).map Prod.fst

/-- A minute that is lost to two points at the same time: they come before it, or it comes
before all points; and not all points are at that time. -/
def Swallowed (points : List CurvePoint) (mins : Int) : Prop :=
  (∃ d, 2 ≤ (minutesOf points).count d ∧ (d < mins ∨ ∀ m ∈ minutesOf points, mins < m)) ∧
    ∃ m ∈ minutesOf points, ∃ m' ∈ minutesOf points, m ≠ m'

/-- A list of points is accepted when each has a time that can be read and a temperature in
range. -/
theorem accepted_iff {points : List CurvePoint} :
    Accepted points ↔ ∀ p ∈ points, validHhmm p.time = true ∧ TEMP_MIN ≤ p.temperature ∧
      p.temperature ≤ TEMP_MAX := by
  constructor
  · rintro ⟨toUppercase, spec, id, program, curve, h, hcurve, rfl⟩
    exact ((ProgramSpec.intoProgram_ok h).1.curve curve hcurve).points
  · intro h
    have hcheck : checkPoints points = .ok () := by
      induction points with
      | nil => rfl
      | cons p points ih =>
          obtain ⟨⟨htime, hlow, hhigh⟩, hrest⟩ := List.forall_mem_cons.mp h
          rw [checkPoints, checkPoint, if_neg (not_not_intro htime),
            if_neg (not_not_intro ⟨hlow, hhigh⟩)]
          exact ih hrest
    refine ⟨fun s => s, { name := ['C'], curve := some { points := points } }, [],
      { name := ['C'], curve := some { points := points }, id := [] }, { points := points }, ?_,
      rfl, rfl⟩
    unfold ProgramSpec.intoProgram checkSettings checkEntries checkOptionalCurve checkCurve
    simp [hcheck, NAME_MAX_CHARS, PROGRAM_KINDS, OPERATIONAL_MODES, ALLOWED_FAN_SPEEDS]

/-- The time of an accepted point is a minute of the day. -/
theorem minutesOfDay_accepted {points : List CurvePoint} (h : Accepted points)
    {p : CurvePoint} (hp : p ∈ points) : ∃ m, minutesOfDay p.time = some m :=
  minutesOfDay_of_validHhmm (accepted_iff.mp h p hp).1

/-- Which is one of the day's 1440. -/
theorem timed_range {points : List CurvePoint} {p : Int × ℚ} (hp : p ∈ timed points) :
    0 ≤ p.1 ∧ p.1 < MINUTES_PER_DAY := by
  obtain ⟨point, -, hread⟩ := List.mem_filterMap.mp hp
  obtain ⟨m, hm, rfl⟩ := Option.map_eq_some_iff.mp hread
  exact minutesOfDay_range hm

/-! ## The search through the segments -/

/-- Sorting the points loses none. -/
theorem readPoints_perm (points : List CurvePoint) : (readPoints points).Perm (timed points) :=
  List.perm_insertionSort _ _

/-- And puts them in the order of their times. -/
theorem readPoints_sorted (points : List CurvePoint) :
    ((readPoints points).map Prod.fst).Pairwise (· ≤ ·) := by
  have : Std.Total fun a b : Int × ℚ => a.1 ≤ b.1 := ⟨fun a b => le_total a.1 b.1⟩
  have : IsTrans (Int × ℚ) fun a b => a.1 ≤ b.1 := ⟨fun _ _ _ => le_trans⟩
  exact List.pairwise_map.mpr (List.pairwise_insertionSort _ _)

/-- The minutes of the points in order. -/
def clock (points : List CurvePoint) : List Int := (readPoints points).map Prod.fst

/-- The times of the curve are the times of its points. -/
theorem clock_perm (points : List CurvePoint) : (clock points).Perm (minutesOf points) :=
  (readPoints_perm points).map Prod.fst

/-- They go once around the day. -/
theorem clock_dial {points : List CurvePoint} (hne : readPoints points ≠ []) :
    Dial MINUTES_PER_DAY (nth (clock points)) (clock points).length := by
  refine dial_of_sorted (by simpa [clock] using hne) (readPoints_sorted points) ?_
  intro m hm
  obtain ⟨p, hp, rfl⟩ := List.mem_map.mp ((clock_perm points).mem_iff.mp hm)
  exact timed_range hp

/-- The temperature on the `i`-th segment. -/
def valueAt (pts : List (Int × ℚ)) (mins : Int) (i : Nat) : ℚ :=
  let a := pts.getD i (0, 0)
  let b := pts.getD (next pts.length i) (0, 0)
  a.2 + (b.2 - a.2) *
    ((ahead MINUTES_PER_DAY a.1 mins : ℚ) / (past MINUTES_PER_DAY a.1 b.1 : ℤ))

/-- The time of a point by its number. -/
theorem nth_map_fst (pts : List (Int × ℚ)) (i : Nat) :
    nth (pts.map Prod.fst) i = (pts.getD i (0, 0)).1 :=
  @List.getD_map _ _ pts (0, 0) i Prod.fst

/-- A segment answers exactly the minutes that it covers. The last one goes on over midnight, and
a segment whose two ends are one minute is the whole day. -/
theorem segmentSetpoint_eq {points : List CurvePoint} {mins : Int} {i : Nat}
    (hmins : 0 ≤ mins ∧ mins < MINUTES_PER_DAY) (hi : i < (readPoints points).length) :
    segmentSetpoint id (readPoints points) mins i =
      if Covers MINUTES_PER_DAY (nth (clock points)) (readPoints points).length mins i then
        some (roundHalf (valueAt (readPoints points) mins i))
      else none := by
  have hnext : next (readPoints points).length i < (readPoints points).length := by
    unfold next
    split <;> omega
  have hrange : ∀ j (hj : j < (readPoints points).length),
      0 ≤ ((readPoints points)[j]).1 ∧ ((readPoints points)[j]).1 < MINUTES_PER_DAY :=
    fun j hj => timed_range ((readPoints_perm points).mem_iff.mp (List.getElem_mem hj))
  have hcovers : Covers MINUTES_PER_DAY (nth (clock points)) (readPoints points).length mins i ↔
      ahead MINUTES_PER_DAY ((readPoints points)[i]).1 mins <
        past MINUTES_PER_DAY ((readPoints points)[i]).1
          ((readPoints points)[next (readPoints points).length i]).1 := by
    unfold Covers clock
    rw [nth_map_fst, nth_map_fst, List.getD_eq_getElem _ _ hi, List.getD_eq_getElem _ _ hnext]
  unfold segmentSetpoint valueAt
  rw [next_eq_mod hi, List.getElem?_eq_getElem hi, List.getElem?_eq_getElem hnext,
    List.getD_eq_getElem _ _ hi, List.getD_eq_getElem _ _ hnext]
  dsimp only [id]
  rw [emod_eq_past (hrange _ hi) (hrange _ hnext), emod_eq_ahead (hrange _ hi) hmins]
  by_cases hc : Covers MINUTES_PER_DAY (nth (clock points)) (readPoints points).length mins i
  · rw [if_pos hc, if_pos (hcovers.mp hc)]
  · rw [if_neg hc, if_neg fun h => hc (hcovers.mpr h)]

/-- The first of a range that has a value. -/
private theorem findSome?_range {α : Type} {f : Nat → Option α} {n i : Nat} {a : α} (hi : i < n)
    (hat : f i = some a) (hbefore : ∀ j < i, f j = none) :
    (List.range n).findSome? f = some a := by
  refine List.findSome?_eq_some_iff.mpr
    ⟨List.range i, i, (List.range (n - i - 1)).map (i + 1 + ·), ?_, hat, ?_⟩
  · have hsplit : List.range n = List.range (i + 1 + (n - i - 1)) := by congr 1; omega
    rw [hsplit, List.range_add, List.range_succ, List.append_assoc]
    rfl
  · exact fun j hj => hbefore j (List.mem_range.mp hj)

/-- **The first segment that covers the minute** says what the curve asks for. There is one, as
the segments go round the whole day. -/
theorem curveSetpoint_eq {points : List CurvePoint} {now : LocalTime}
    (hne : readPoints points ≠ []) :
    ∃ i < (readPoints points).length,
      Covers MINUTES_PER_DAY (nth (clock points)) (readPoints points).length (minuteOfDay now) i ∧
      (∀ j < i, ¬ Covers MINUTES_PER_DAY (nth (clock points)) (readPoints points).length
        (minuteOfDay now) j) ∧
      curveSetpoint id points now =
        some (roundHalf (valueAt (readPoints points) (minuteOfDay now) i)) := by
  have hclock := minuteOfDay_lt now
  have hmins : 0 ≤ (minuteOfDay now : Int) ∧ (minuteOfDay now : Int) < MINUTES_PER_DAY := by
    unfold MINUTES_PER_DAY
    omega
  have hlength : (clock points).length = (readPoints points).length := List.length_map _
  have hdial := clock_dial hne
  rw [hlength] at hdial
  have hsome := hdial.exists_covers hmins
  classical
  obtain ⟨i, ⟨hlt, hcovers⟩, hmin⟩ : ∃ i, (i < (readPoints points).length ∧
      Covers MINUTES_PER_DAY (nth (clock points)) (readPoints points).length (minuteOfDay now) i) ∧
      ∀ j < i, ¬ (j < (readPoints points).length ∧ Covers MINUTES_PER_DAY (nth (clock points))
        (readPoints points).length (minuteOfDay now) j) :=
    ⟨Nat.find hsome, Nat.find_spec hsome, fun _ => Nat.find_min hsome⟩
  have hbefore : ∀ j < i, ¬ Covers MINUTES_PER_DAY (nth (clock points))
      (readPoints points).length (minuteOfDay now) j :=
    fun j hj hcover => hmin j hj ⟨by omega, hcover⟩
  refine ⟨i, hlt, hcovers, hbefore, ?_⟩
  have hscan := findSome?_range hlt ((segmentSetpoint_eq hmins hlt).trans (if_pos hcovers))
    fun j hj => (segmentSetpoint_eq hmins (by omega)).trans (if_neg (hbefore j hj))
  unfold curveSetpoint
  split
  next h => exact absurd h hne
  next m t hone =>
    -- a single point is a segment from itself to itself
    rw [hone] at hlt ⊢
    obtain rfl : i = 0 := Nat.lt_one_iff.mp hlt
    simp [valueAt, next]
  next m t rest hlong hmany =>
    dsimp only
    rw [← hmany, hscan]

/-! ## Where the curve is on the line -/

section Line

variable {points : List CurvePoint} {mins : Int} {p q : Int × ℚ}

/-- The temperature of an accepted point is in range. -/
theorem temperature_range (h : Accepted points) (hp : p ∈ timed points) : 16 ≤ p.2 ∧ p.2 ≤ 30 := by
  obtain ⟨point, hpoint, hread⟩ := List.mem_filterMap.mp hp
  obtain ⟨m, -, rfl⟩ := Option.map_eq_some_iff.mp hread
  exact (accepted_iff.mp h point hpoint).2

/-- The share of the way that is done. -/
private theorem share_range (hp : 0 ≤ p.1 ∧ p.1 < MINUTES_PER_DAY)
    (hq : 0 ≤ q.1 ∧ q.1 < MINUTES_PER_DAY) (hmins : 0 ≤ mins ∧ mins < MINUTES_PER_DAY) :
    0 ≤ (ahead MINUTES_PER_DAY p.1 mins : ℚ) /
        (ahead MINUTES_PER_DAY p.1 mins + past MINUTES_PER_DAY mins q.1 : ℤ) ∧
      (ahead MINUTES_PER_DAY p.1 mins : ℚ) /
        (ahead MINUTES_PER_DAY p.1 mins + past MINUTES_PER_DAY mins q.1 : ℤ) < 1 := by
  have hahead : (0 : ℚ) ≤ ahead MINUTES_PER_DAY p.1 mins := by
    exact_mod_cast ahead_nonneg hp hmins
  have hpast : (0 : ℚ) < past MINUTES_PER_DAY mins q.1 := by
    exact_mod_cast past_pos hmins hq
  push_cast
  refine ⟨by positivity, ?_⟩
  rw [div_lt_one (by linarith)]
  linarith

/-- The line stays between its ends. -/
theorem lineAt_between (hp : 0 ≤ p.1 ∧ p.1 < MINUTES_PER_DAY)
    (hq : 0 ≤ q.1 ∧ q.1 < MINUTES_PER_DAY) (hmins : 0 ≤ mins ∧ mins < MINUTES_PER_DAY) :
    min p.2 q.2 ≤ lineAt p q mins ∧ lineAt p q mins ≤ max p.2 q.2 := by
  obtain ⟨hlow, hhigh⟩ := share_range hp hq hmins
  unfold lineAt
  rcases le_total p.2 q.2 with hle | hle
  · rw [min_eq_left hle, max_eq_right hle]
    constructor <;> nlinarith
  · rw [min_eq_right hle, max_eq_left hle]
    constructor <;> nlinarith

/-- It starts at its first end. -/
theorem lineAt_start (h : p.1 = mins) : lineAt p q mins = p.2 := by
  have hzero : ahead MINUTES_PER_DAY p.1 mins = 0 := by
    rw [h]
    unfold ahead
    rw [if_pos le_rfl, sub_self]
  rw [lineAt, hzero]
  simp

/-- **The rounded value of the line is what the curve is to ask for.** -/
theorem Interpolates.of_line (h : Accepted points) (hmins : 0 ≤ mins ∧ mins < MINUTES_PER_DAY)
    (hp : Latest (timed points) mins p) (hq : First (timed points) mins q) :
    Interpolates points mins (roundHalf (lineAt p q mins)) := by
  have hprange := timed_range hp.mem
  have hqrange := timed_range hq.mem
  obtain ⟨hplow, hphigh⟩ := temperature_range h hp.mem
  obtain ⟨hqlow, hqhigh⟩ := temperature_range h hq.mem
  obtain ⟨hlow, hhigh⟩ := lineAt_between hprange hqrange hmins
  have hround : HalfDegree (lineAt p q mins) (roundHalf (lineAt p q mins)) :=
    halfDegree_roundHalf ((le_min hplow hqlow).trans hlow) (hhigh.trans (max_le hphigh hqhigh))
  refine ⟨⟨p, q, hp, hq, hround, fun low high hl hh => ⟨hl.mono hround hlow, hround.mono hh hhigh⟩⟩,
    fun r hr hat => ⟨p, hp.mem, ?_, ?_⟩⟩
  all_goals
    have hzero : ahead MINUTES_PER_DAY p.1 mins ≤ ahead MINUTES_PER_DAY r.1 mins := hp.latest r hr
    rw [(ahead_eq_zero (timed_range hr) hmins).mpr hat] at hzero
    have hstart : p.1 = mins := (ahead_eq_zero hprange hmins).mp
      (le_antisymm hzero (ahead_nonneg hprange hmins))
  · exact hstart
  · rw [← lineAt_start hstart]
    exact hround

/-- Where there are points, one comes first after a given minute. -/
theorem exists_first (hne : timed points ≠ []) : ∃ q, First (timed points) mins q := by
  obtain ⟨q, hq, hmin⟩ := (timed points).toFinset.exists_min_image
    (fun q => past MINUTES_PER_DAY mins q.1) (List.toFinset_nonempty_iff _ |>.mpr hne)
  exact ⟨q, List.mem_toFinset.mp hq, fun r hr => hmin r (List.mem_toFinset.mpr hr)⟩

end Line

/-! ## When the right segment is taken -/

/-- The times of a list of points depend on their texts alone. -/
theorem minutesOf_eq (points : List CurvePoint) :
    minutesOf points = (points.map CurvePoint.time).filterMap minutesOfDay := by
  unfold minutesOf timed
  rw [List.map_filterMap, List.filterMap_map]
  congr 1
  funext p
  simp [Function.comp_def]

/-- The times alone say in which order the points come. -/
theorem clock_eq (points : List CurvePoint) :
    clock points = (minutesOf points).insertionSort (· ≤ ·) := by
  have hsort := List.map_insertionSort (fun a b : Int × ℚ => a.1 ≤ b.1) (· ≤ ·) Prod.fst
    (timed points) fun _ _ _ _ => Iff.rfl
  exact hsort

section Search

variable {points : List CurvePoint} {mins : Int} {i : Nat}

/-- The `i`-th point in order. -/
def pointAt (points : List CurvePoint) (i : Nat) : Int × ℚ := (readPoints points).getD i (0, 0)

/-- A point by its number is one of the points. -/
theorem pointAt_mem (hi : i < (readPoints points).length) : pointAt points i ∈ timed points := by
  rw [pointAt, List.getD_eq_getElem _ _ hi]
  exact (readPoints_perm points).mem_iff.mp (List.getElem_mem hi)

/-- Every timed point has its number in the order of the day. -/
theorem exists_pointAt {p : Int × ℚ} (hp : p ∈ timed points) :
    ∃ j < (readPoints points).length, pointAt points j = p := by
  obtain ⟨j, hj, hget⟩ := List.getElem_of_mem ((readPoints_perm points).mem_iff.mpr hp)
  exact ⟨j, hj, (List.getD_eq_getElem _ _ hj).trans hget⟩

/-- The number of a point is that of its time. -/
theorem nth_clock (points : List CurvePoint) (i : Nat) :
    nth (clock points) i = (pointAt points i).1 := nth_map_fst _ _

/-- The point behind the last one is the first. -/
theorem next_lt (hi : i < (readPoints points).length) :
    next (readPoints points).length i < (readPoints points).length := by
  unfold next
  split <;> omega

/-- The lost minutes in terms of the points in order. A minute listed twice makes a segment of no
length, which the code takes for the whole day. -/
theorem swallowed_iff (hne : readPoints points ≠ []) : Swallowed points mins ↔
    (∃ d, Repeats (nth (clock points)) (readPoints points).length d ∧
      (d < mins ∨ mins < nth (clock points) 0)) ∧
    ∃ j < (readPoints points).length, nth (clock points) j ≠ nth (clock points) 0 := by
  have hlength : (clock points).length = (readPoints points).length := List.length_map _
  have hdial := clock_dial hne
  rw [hlength] at hdial
  have hmem : ∀ m, m ∈ minutesOf points ↔
      ∃ j < (readPoints points).length, nth (clock points) j = m := by
    intro m
    rw [← (clock_perm points).mem_iff, List.mem_iff_getElem, ← hlength]
    exact ⟨fun ⟨j, hj, h⟩ => ⟨j, hj, (nth_eq hj).trans h⟩,
      fun ⟨j, hj, h⟩ => ⟨j, hj, (nth_eq hj).symm.trans h⟩⟩
  have hbefore : (∀ m ∈ minutesOf points, mins < m) ↔ mins < nth (clock points) 0 := by
    constructor
    · exact fun h => h _ ((hmem _).mpr ⟨0, hdial.pos, rfl⟩)
    · intro h m hm
      obtain ⟨j, hj, rfl⟩ := (hmem m).mp hm
      exact h.trans_le (hdial.mono 0 j (Nat.zero_le j) hj)
  have htwice : ∀ d, 2 ≤ (minutesOf points).count d ↔
      Repeats (nth (clock points)) (readPoints points).length d := by
    intro d
    rw [← (clock_perm points).count_eq, ← hlength]
    exact (repeats_iff_two_le_count (readPoints_sorted points)).symm
  have hmany : (∃ m ∈ minutesOf points, ∃ m' ∈ minutesOf points, m ≠ m') ↔
      ∃ j < (readPoints points).length, nth (clock points) j ≠ nth (clock points) 0 := by
    constructor
    · rintro ⟨m, hm, m', hm', hne⟩
      obtain ⟨j, hj, rfl⟩ := (hmem m).mp hm
      obtain ⟨j', hj', rfl⟩ := (hmem m').mp hm'
      by_cases h : nth (clock points) j = nth (clock points) 0
      · exact ⟨j', hj', fun h' => hne (h.trans h'.symm)⟩
      · exact ⟨j, hj, h⟩
    · rintro ⟨j, hj, h⟩
      exact ⟨_, (hmem _).mpr ⟨j, hj, rfl⟩, _, (hmem _).mpr ⟨0, hdial.pos, rfl⟩, h⟩
  unfold Swallowed
  rw [hmany, hbefore]
  simp only [htwice]

/-- **A segment that covers the minute is the right one**, unless it goes from a time to
itself while there are others, and then it is at its own minute. -/
theorem interpolates_of_covers (h : Accepted points) (hne : readPoints points ≠ [])
    (hmins : 0 ≤ mins ∧ mins < MINUTES_PER_DAY) (hi : i < (readPoints points).length)
    (hcovers : Covers MINUTES_PER_DAY (nth (clock points)) (readPoints points).length mins i)
    (hright : (∃ j < (readPoints points).length, nth (clock points) j ≠ nth (clock points) 0) →
      ¬ (nth (clock points) i = nth (clock points) (next (readPoints points).length i) ∧
        nth (clock points) i ≠ mins)) :
    Interpolates points mins (roundHalf (valueAt (readPoints points) mins i)) := by
  have hlength : (clock points).length = (readPoints points).length := List.length_map _
  have hdial := clock_dial hne
  rw [hlength] at hdial
  have hpast := hcovers.past_eq hdial hmins hi
  have ha := pointAt_mem hi
  have hb := pointAt_mem (next_lt hi)
  rw [nth_clock, nth_clock] at hpast
  have hvalue : valueAt (readPoints points) mins i =
      lineAt (pointAt points i) (pointAt points (next (readPoints points).length i)) mins := by
    unfold valueAt lineAt
    rw [← hpast]
    rfl
  by_cases hstart : nth (clock points) i = mins
  · -- the first of two points at this minute, say, is as good as the other
    obtain ⟨q, hq⟩ := @exists_first points mins fun hnil => by rw [hnil] at ha; cases ha
    have hlatest : Latest (timed points) mins (pointAt points i) := by
      refine ⟨ha, fun r hr => ?_⟩
      rw [(ahead_eq_zero (timed_range ha) hmins).mpr ((nth_clock points i).symm.trans hstart)]
      exact ahead_nonneg (timed_range hr) hmins
    have hline : lineAt (pointAt points i) (pointAt points (next (readPoints points).length i))
        mins = lineAt (pointAt points i) q mins := by
      rw [nth_clock] at hstart
      rw [lineAt_start hstart, lineAt_start hstart]
    rw [hvalue, hline]
    exact .of_line h hmins hlatest hq
  · rw [hvalue]
    refine .of_line h hmins ⟨ha, ?_⟩ ⟨hb, ?_⟩
    all_goals
      intro r hr
      obtain ⟨j, hj, rfl⟩ := exists_pointAt hr
      rw [← nth_clock, ← nth_clock]
      by_cases hends : nth (clock points) i = nth (clock points) (next (readPoints points).length i)
    · -- all points are at one time
      have hsame : ∀ k < (readPoints points).length, nth (clock points) k = nth (clock points) 0 :=
        fun k hk => by_contra fun hother => hright ⟨k, hk, hother⟩ ⟨hends, hstart⟩
      rw [hsame i hi, hsame j hj]
    · exact hcovers.latest hdial hmins hi hends hj
    · have hsame : ∀ k < (readPoints points).length, nth (clock points) k = nth (clock points) 0 :=
        fun k hk => by_contra fun hother => hright ⟨k, hk, hother⟩ ⟨hends, hstart⟩
      rw [hsame _ (next_lt hi), hsame j hj]
    · exact hcovers.next hdial hmins hi hends hj

end Search

/-- The minute of the day is one of the day's 1440. -/
theorem minuteOfDay_range (now : LocalTime) :
    0 ≤ (minuteOfDay now : Int) ∧ (minuteOfDay now : Int) < MINUTES_PER_DAY := by
  have hclock := minuteOfDay_lt now
  unfold MINUTES_PER_DAY
  omega

section Accepted

variable {points points' : List CurvePoint} {now : LocalTime}

/-- An accepted list that is not empty has points to read. -/
theorem readPoints_ne_nil (h : Accepted points) (hne : points ≠ []) : readPoints points ≠ [] := by
  obtain ⟨p, hp⟩ := List.exists_mem_of_ne_nil _ hne
  obtain ⟨m, hm⟩ := minutesOfDay_accepted h hp
  have hmem : (m, p.temperature) ∈ timed points :=
    List.mem_filterMap.mpr ⟨p, hp, by rw [hm]; rfl⟩
  exact List.ne_nil_of_mem ((readPoints_perm points).mem_iff.mpr hmem)

/-- **On the line**, unless the minute is lost. -/
theorem interpolates_of_not_swallowed (h : Accepted points) (hne : points ≠ [])
    (hclear : ¬ Swallowed points (minuteOfDay now)) :
    ∃ v, curveSetpoint id points now = some v ∧ Interpolates points (minuteOfDay now) v := by
  have hread := readPoints_ne_nil h hne
  have hlength : (clock points).length = (readPoints points).length := List.length_map _
  have hdial := clock_dial hread
  rw [hlength] at hdial
  obtain ⟨i, hi, hcovers, hfirst, hvalue⟩ := @curveSetpoint_eq points now hread
  refine ⟨_, hvalue, interpolates_of_covers h hread (minuteOfDay_range now) hi hcovers ?_⟩
  intro hmany hturn
  rw [first_covers_iff hdial (minuteOfDay_range now) hi hcovers hfirst hmany] at hturn
  exact hclear ((swallowed_iff hread).mpr ⟨hturn, hmany⟩)

/-- The same times with other temperatures: 16.25 at the minute `d` and 30 at all others. -/
def warped (d : Int) (points : List CurvePoint) : List CurvePoint :=
  points.map fun p =>
    { p with temperature := if minutesOfDay p.time = some d then 65 / 4 else 30 }

/-- The list below has the times of the given one. -/
theorem warped_times (d : Int) (points : List CurvePoint) :
    (warped d points).map CurvePoint.time = points.map CurvePoint.time := by
  unfold warped
  rw [List.map_map]
  rfl

/-- The points are accepted with the new temperatures too, which are in range. -/
theorem warped_accepted (h : Accepted points) (d : Int) : Accepted (warped d points) := by
  refine accepted_iff.mpr fun p hp => ?_
  obtain ⟨point, hpoint, rfl⟩ := List.mem_map.mp hp
  refine ⟨(accepted_iff.mp h point hpoint).1, ?_⟩
  unfold TEMP_MIN TEMP_MAX
  dsimp only
  split <;> norm_num

/-- It is 30 degrees everywhere but at one minute. -/
theorem warped_temperature {d : Int} {p : Int × ℚ} (hp : p ∈ timed (warped d points)) :
    p.2 = if p.1 = d then 65 / 4 else 30 := by
  obtain ⟨point, hpoint, hread⟩ := List.mem_filterMap.mp hp
  obtain ⟨m, hm, rfl⟩ := Option.map_eq_some_iff.mp hread
  obtain ⟨point, -, rfl⟩ := List.mem_map.mp hpoint
  dsimp only at hm ⊢
  simp only [hm, Option.some.injEq]

/-- A line between such temperatures that is not at `d` from end to end is above 16.25, away
from `d` itself. -/
theorem lineAt_warped {d mins : Int} {p q : Int × ℚ} (hmins : 0 ≤ mins ∧ mins < MINUTES_PER_DAY)
    (hp : p ∈ timed (warped d points)) (hq : q ∈ timed (warped d points)) (hoff : d ≠ mins)
    (hends : ¬ (p.1 = d ∧ q.1 = d)) : 65 / 4 < lineAt p q mins := by
  have hprange := timed_range hp
  obtain ⟨hlow, hhigh⟩ := share_range hprange (timed_range hq) hmins
  have hptemp := warped_temperature hp
  have hqtemp := warped_temperature hq
  unfold lineAt
  by_cases hpd : p.1 = d
  · have hqd : q.1 ≠ d := fun hqd => hends ⟨hpd, hqd⟩
    have hpos : (0 : ℚ) < ahead MINUTES_PER_DAY p.1 mins := by
      have hne : ahead MINUTES_PER_DAY p.1 mins ≠ 0 :=
        fun h => hoff (hpd.symm.trans ((ahead_eq_zero hprange hmins).mp h))
      have hnonneg := ahead_nonneg hprange hmins
      exact_mod_cast lt_of_le_of_ne hnonneg hne.symm
    have hpast : (0 : ℚ) < past MINUTES_PER_DAY mins q.1 := by
      exact_mod_cast past_pos hmins (timed_range hq)
    have hshare : 0 < (ahead MINUTES_PER_DAY p.1 mins : ℚ) /
        (ahead MINUTES_PER_DAY p.1 mins + past MINUTES_PER_DAY mins q.1 : ℤ) := by
      push_cast
      positivity
    rw [hptemp, hqtemp, if_pos hpd, if_neg hqd]
    linarith
  · rw [hptemp, hqtemp, if_neg hpd]
    split <;> linarith

/-- Its clock is that of the given one. -/
theorem clock_warped (d : Int) (points : List CurvePoint) :
    clock (warped d points) = clock points := by
  rw [clock_eq, clock_eq, minutesOf_eq (warped d points), warped_times, ← minutesOf_eq]

/-- There are as many points with the new temperatures as there were before. -/
theorem length_warped (d : Int) (points : List CurvePoint) :
    (readPoints (warped d points)).length = (readPoints points).length := by
  have hwarped : (clock (warped d points)).length = (readPoints (warped d points)).length :=
    List.length_map _
  have hpoints : (clock points).length = (readPoints points).length := List.length_map _
  rw [← hwarped, clock_warped, hpoints]

/-- A segment from `d` to `d` is 16.25 all along. -/
theorem valueAt_warped {d mins : Int} {i : Nat}
    (hi : i < (readPoints (warped d points)).length) (hstart : nth (clock points) i = d)
    (hend : nth (clock points) (next (readPoints points).length i) = d) :
    valueAt (readPoints (warped d points)) mins i = 65 / 4 := by
  have hstart' := warped_temperature (pointAt_mem hi)
  have hend' := warped_temperature (pointAt_mem (next_lt hi))
  rw [length_warped] at hend'
  rw [← nth_clock, clock_warped, if_pos hstart] at hstart'
  rw [← nth_clock, clock_warped, if_pos hend] at hend'
  unfold pointAt at hstart' hend'
  unfold valueAt
  rw [length_warped]
  dsimp only
  rw [hstart', hend', sub_self, zero_mul, add_zero]

/-- If the latest point and the first after it are at one time, there is no other. -/
theorem eq_of_latest_first {mins : Int} {p q r : Int × ℚ} (hp : Latest (timed points) mins p)
    (hq : First (timed points) mins q) (hsame : q.1 = p.1) (hr : r ∈ timed points) :
    r.1 = p.1 := by
  have hlatest := hp.latest r hr
  have hnext := hq.first r hr
  rw [hsame] at hnext
  exact eq_of_ahead_of_past (timed_range hp.mem) (timed_range hr) hlatest hnext

/-- **At a lost minute** there are temperatures for which the curve is off the line. The points
that count are given temperatures far apart, with the times as they are. -/
theorem not_interpolates_of_swallowed (h : Accepted points) (hne : points ≠ [])
    (hlost : Swallowed points (minuteOfDay now)) :
    ∃ points', Accepted points' ∧ points'.map CurvePoint.time = points.map CurvePoint.time ∧
      ¬ ∃ v, curveSetpoint id points' now = some v ∧
        Interpolates points' (minuteOfDay now) v := by
  have hread := readPoints_ne_nil h hne
  have hmins := minuteOfDay_range now
  have hlength : (clock points).length = (readPoints points).length := List.length_map _
  have hdial := clock_dial hread
  rw [hlength] at hdial
  obtain ⟨i, hi, hcovers, hfirst, -⟩ := @curveSetpoint_eq points now hread
  obtain ⟨hrepeats, hmany⟩ := (swallowed_iff hread).mp hlost
  obtain ⟨hends, hoff⟩ := (first_covers_iff hdial hmins hi hcovers hfirst hmany).mpr hrepeats
  obtain ⟨d, hd⟩ : ∃ d, nth (clock points) i = d := ⟨_, rfl⟩
  rw [hd] at hends hoff
  refine ⟨warped d points, warped_accepted h d, warped_times d points, ?_⟩
  rintro ⟨v, hv, hon⟩
  -- the order of the points has not changed, so the same segment is taken
  have hclock := clock_warped d points
  have hcount := length_warped d points
  have hread' : readPoints (warped d points) ≠ [] :=
    List.length_pos_iff.mp (by omega)
  obtain ⟨i', hi', hcovers', hfirst', hvalue⟩ := @curveSetpoint_eq _ now hread'
  rw [hclock, hcount] at hcovers'
  simp only [hclock, hcount] at hfirst'
  obtain rfl : i' = i := by
    rcases Nat.lt_trichotomy i' i with hlt | heq | hgt
    · exact absurd hcovers' (hfirst i' hlt)
    · exact heq
    · exact absurd hcovers (hfirst' i hgt)
  have hsixteen : v = 16 := by
    rw [hvalue, valueAt_warped hi' hd hends.symm] at hv
    exact (Option.some.inj hv).symm.trans (by decide +kernel)
  obtain ⟨p, q, hp, hq, ⟨k, hk, hround⟩, -⟩ := hon.onLine
  have hnot : ¬ (p.1 = d ∧ q.1 = d) := by
    rintro ⟨hpd, hqd⟩
    have hall : ∀ j < (readPoints points).length, nth (clock points) j = d := by
      intro j hj
      have hmem := pointAt_mem (hcount.symm ▸ hj : j < (readPoints (warped d points)).length)
      rw [← hclock, nth_clock]
      exact (eq_of_latest_first hp hq (hqd.trans hpd.symm) hmem).trans hpd
    obtain ⟨j, hj, hother⟩ := hmany
    exact hother ((hall j hj).trans (hall 0 hdial.pos).symm)
  have hline := lineAt_warped hmins hp.mem hq.mem hoff hnot
  have hk32 : (k : ℚ) = 32 := by linarith [hround, hsixteen]
  obtain ⟨-, hnear⟩ := abs_le.mp hk.near
  linarith

/-- **A curve is on the line**, whatever its temperatures are, at exactly the minutes that two
points at one time do not swallow. -/
theorem curve_setpoint_iff (h : Accepted points) (hne : points ≠ []) (now : LocalTime) :
    (∀ points', Accepted points' → points'.map CurvePoint.time = points.map CurvePoint.time →
      ∃ v, curveSetpoint id points' now = some v ∧ Interpolates points' (minuteOfDay now) v) ↔
    ¬ Swallowed points (minuteOfDay now) := by
  constructor
  · intro hall hlost
    obtain ⟨points', haccepted, htimes, hwrong⟩ := not_interpolates_of_swallowed h hne hlost
    exact hwrong (hall points' haccepted htimes)
  · intro hclear points' haccepted htimes
    have hne' : points' ≠ [] := by
      rintro rfl
      exact hne (List.map_eq_nil_iff.mp htimes.symm)
    have hclear' : ¬ Swallowed points' (minuteOfDay now) := by
      unfold Swallowed at hclear ⊢
      rw [minutesOf_eq, htimes, ← minutesOf_eq]
      exact hclear
    exact interpolates_of_not_swallowed haccepted hne' hclear'

/-- Two times, and midnight between them. -/
def twoPoints : List CurvePoint := [⟨"08:00".toList, 20⟩, ⟨"22:00".toList, 24⟩]

/-- Two points, at midnight: the exact condition, decided. -/
theorem curve_setpoint_two_points :
    (∀ points', Accepted points' →
      points'.map CurvePoint.time = twoPoints.map CurvePoint.time →
      ∃ v, curveSetpoint id points' 0 = some v ∧ Interpolates points' (minuteOfDay 0) v) ↔
    ¬ Swallowed twoPoints (minuteOfDay 0) :=
  curve_setpoint_iff (accepted_iff.mpr (by decide +kernel)) (List.cons_ne_nil _ _) 0

/-- Six o'clock twice, at 16 degrees, and noon at 30. -/
def sixTwice : List CurvePoint :=
  [⟨"06:00".toList, 16⟩, ⟨"06:00".toList, 16⟩, ⟨"12:00".toList, 30⟩]

/-- At noon the curve asks for 16 degrees. Six o'clock is listed twice, and the segment between
the two takes the whole day, while the point at noon has 30. -/
theorem curve_setpoint_six_twice :
    Accepted sixTwice ∧ curveSetpoint id sixTwice (720 * MINUTE) = some 16 ∧
      ¬ ∃ v, curveSetpoint id sixTwice (720 * MINUTE) = some v ∧
        Interpolates sixTwice (minuteOfDay (720 * MINUTE)) v := by
  have hvalue : curveSetpoint id sixTwice (720 * MINUTE) = some 16 := by decide +kernel
  refine ⟨accepted_iff.mpr (by decide +kernel), hvalue, ?_⟩
  rintro ⟨v, hv, hon⟩
  obtain rfl : (16 : ℚ) = v := Option.some.inj (hvalue.symm.trans hv)
  have htimed : timed sixTwice = [(360, 16), (360, 16), (720, 30)] := by decide +kernel
  have hminute : (minuteOfDay (720 * MINUTE) : Int) = 720 := by decide +kernel
  obtain ⟨q, hq, hat, hround⟩ := hon.atPoint (720, 30) (by rw [htimed]; decide) hminute.symm
  rw [htimed] at hq
  rw [hminute] at hat
  have hthirty : q = (720, 30) := by
    simp only [List.mem_cons, List.not_mem_nil, or_false] at hq
    rcases hq with rfl | rfl | rfl
    · cases hat
    · cases hat
    · rfl
  rw [hthirty] at hround
  have hunique := hround.unique (halfDegree_roundHalf (t := 30) (by norm_num) le_rfl)
  exact absurd hunique (by decide +kernel)

end Accepted

end BreezeStore
