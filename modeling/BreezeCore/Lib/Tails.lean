import Mathlib.Data.List.DropRight
import Mathlib.Data.List.Induction
import Mathlib.Logic.Function.Basic

/-!
# The tail of a log

A buffer of bounded size forgets its oldest entry to take a new one, so it holds the tail
of everything put into it (`foldl_push`).  Buffers under keys do not disturb each other:
each one holds the tail of what came under its key (`foldl_pushAt`).
-/

namespace Tails

variable {α K : Type*}

/-- Put an entry behind the others, the oldest making room. -/
def push (n : ℕ) (buffer : List α) (x : α) : List α :=
  (if n ≤ buffer.length then buffer.tail else buffer) ++ [x]

theorem length_rtake (n : ℕ) (xs : List α) : (xs.rtake n).length = min n xs.length := by
  rw [List.rtake, List.length_drop]
  omega

theorem rtake_of_length_le {n : ℕ} {xs : List α} (h : xs.length ≤ n) : xs.rtake n = xs := by
  rw [List.rtake, Nat.sub_eq_zero_of_le h, List.drop_zero]

theorem tail_rtake {n : ℕ} {xs : List α} (h : n < xs.length) :
    (xs.rtake (n + 1)).tail = xs.rtake n := by
  have hstart : xs.length - (n + 1) + 1 = xs.length - n := by omega
  rw [List.rtake, List.rtake, List.tail_drop, hstart]

/-- One entry more, in the log and in the buffer. -/
theorem push_rtake {n : ℕ} (hn : 0 < n) (log : List α) (x : α) :
    push n (log.rtake n) x = (log ++ [x]).rtake n := by
  obtain ⟨m, rfl⟩ := Nat.exists_eq_add_of_lt hn
  rw [Nat.zero_add, List.rtake_concat_succ, push, length_rtake]
  congr 1
  by_cases hfull : m < log.length
  · rw [if_pos (by omega), tail_rtake hfull]
  · rw [if_neg (by omega), rtake_of_length_le (by omega), rtake_of_length_le (by omega)]

/-- **A bounded buffer holds the tail of the log.** -/
theorem foldl_push {n : ℕ} (hn : 0 < n) (log : List α) : log.foldl (push n) [] = log.rtake n := by
  induction log using List.reverseRecOn with
  | nil => rw [List.foldl_nil, List.rtake_nil]
  | append_singleton log x ih => rw [List.foldl_append, ih, List.foldl_cons, List.foldl_nil,
      push_rtake hn]

/-- Its newest entry is the log's. -/
theorem getLast?_rtake {n : ℕ} (hn : 0 < n) (log : List α) :
    (log.rtake n).getLast? = log.getLast? := by
  cases log using List.reverseRecOn with
  | nil => rw [List.rtake_nil]
  | append_singleton log x =>
      obtain ⟨m, rfl⟩ := Nat.exists_eq_add_of_lt hn
      rw [Nat.zero_add, List.rtake_concat_succ, List.getLast?_concat, List.getLast?_concat]

/-! ## Buffers under keys -/

section Keys

variable [DecidableEq K]

/-- Put an entry into the buffer of its key, a new one if there is none. -/
def pushAt (n : ℕ) (buffers : K → Option (List α)) (entry : K × α) : K → Option (List α) :=
  Function.update buffers entry.1 (some (push n ((buffers entry.1).getD []) entry.2))

/-- The entries of a log under one key. -/
def under (k : K) (log : List (K × α)) : List α :=
  log.filterMap fun entry => if entry.1 = k then some entry.2 else none

theorem under_concat (k : K) (log : List (K × α)) (entry : K × α) :
    under k (log ++ [entry]) = under k log ++ if entry.1 = k then [entry.2] else [] := by
  rw [under, List.filterMap_append]
  congr 1
  rw [List.filterMap_cons, List.filterMap_nil]
  split <;> simp_all

/-- **Keys are kept apart**: the buffer of a key holds the tail of its own entries. -/
theorem foldl_pushAt {n : ℕ} (hn : 0 < n) (log : List (K × α)) (k : K) :
    ((log.foldl (pushAt n) fun _ => none) k).getD [] = (under k log).rtake n := by
  induction log using List.reverseRecOn with
  | nil => rw [List.foldl_nil, under, List.filterMap_nil, List.rtake_nil, Option.getD_none]
  | append_singleton log entry ih =>
      rw [List.foldl_append, List.foldl_cons, List.foldl_nil, pushAt, under_concat]
      by_cases hkey : entry.1 = k
      · rw [if_pos hkey, hkey, Function.update_self, Option.getD_some, ih, push_rtake hn]
      · rw [if_neg hkey, List.append_nil, Function.update_of_ne (Ne.symm hkey), ih]

end Keys

end Tails
