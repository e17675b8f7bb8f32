import Mathlib.Data.List.Basic

/-!
# A mutex with a condition variable

`Monitor` is the state of the two: who holds the mutex, and who sleeps on the condition
variable without having been notified.  An operation that would block, or that its thread may
not do, gives `none`; the `_eq_some` lemmas say what the others do.
-/

structure Monitor (T : Type) where
  holder : Option T := none
  waiting : List T := []
  deriving DecidableEq

namespace Monitor

variable {T : Type} [DecidableEq T]

/-- `lock`, and what a woken thread does before its `wait` returns. -/
def acquire (m : Monitor T) (t : T) : Option (Monitor T) :=
  if m.holder = none ∧ t ∉ m.waiting then some { m with holder := some t } else none

/-- The guard is dropped. -/
def release (m : Monitor T) (t : T) : Option (Monitor T) :=
  if m.holder = some t then some { m with holder := none } else none

/-- `wait` gives up the mutex and falls asleep in one step. -/
def wait (m : Monitor T) (t : T) : Option (Monitor T) :=
  if m.holder = some t then some { holder := none, waiting := t :: m.waiting } else none

def notifyAll (m : Monitor T) : Monitor T := { m with waiting := [] }

/-- A thread wakes up without having been notified. -/
def wakeUp (m : Monitor T) (t : T) : Option (Monitor T) :=
  if t ∈ m.waiting then some { m with waiting := m.waiting.filter (· ≠ t) } else none

variable {m m' : Monitor T} {t : T}

theorem acquire_eq_some : m.acquire t = some m' ↔
    m.holder = none ∧ t ∉ m.waiting ∧ m' = { m with holder := some t } := by
  unfold acquire
  split
  next h => simp [h, eq_comm]
  next h =>
    refine iff_of_false (by simp) ?_
    rintro ⟨hfree, hawake, -⟩
    exact h ⟨hfree, hawake⟩

theorem release_eq_some : m.release t = some m' ↔
    m.holder = some t ∧ m' = { m with holder := none } := by
  unfold release
  split
  next h => simp [h, eq_comm]
  next h => exact iff_of_false (by simp) fun hboth => h hboth.1

theorem wait_eq_some : m.wait t = some m' ↔
    m.holder = some t ∧ m' = { holder := none, waiting := t :: m.waiting } := by
  unfold wait
  split
  next h => simp [h, eq_comm]
  next h => exact iff_of_false (by simp) fun hboth => h hboth.1

theorem wakeUp_eq_some : m.wakeUp t = some m' ↔
    t ∈ m.waiting ∧ m' = { m with waiting := m.waiting.filter (· ≠ t) } := by
  unfold wakeUp
  split
  next h => simp [h, eq_comm]
  next h => exact iff_of_false (by simp) fun hboth => h hboth.1

omit [DecidableEq T] in
@[simp] theorem holder_notifyAll : m.notifyAll.holder = m.holder := rfl

omit [DecidableEq T] in
@[simp] theorem waiting_notifyAll : m.notifyAll.waiting = [] := rfl

end Monitor
