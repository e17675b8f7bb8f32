import Mathlib.Algebra.BigOperators.Group.List.Basic
import Mathlib.Algebra.GroupWithZero.Nat
import Mathlib.Data.List.Forall2
import Mathlib.Data.List.Induction
import Mathlib.Data.List.Pairwise

/-!
# Runs of a machine

A machine answers each input and moves to its next state.  `trace` lists what
happened, entry by entry, and four rules reason about all of it: an invariant
that may speak of the inputs still to come holds at every entry (`forall_trace`),
so does one that speaks of all that came before (`history_trace`), a relation that
holds between an entry and everything after it holds between any two entries in
order (`pairwise_trace`), and inputs without lasting effect can be left out
(`trace_without`).

A machine that may also refuse an action, or have more than one way to take it,
is a relation; `Run` is its runs, with the rules `Run.preserves`,
`Run.cost_le` and `Run.spends`.
-/

namespace Runs

variable {S I O : Type}

/-- One step of a run: the state before, the input, the answer, the state
after. -/
structure Entry (S I O : Type) where
  before : S
  input : I
  output : O
  after : S

/-- What a step makes of a state and an input. -/
def entry (step : S → I → O × S) (s : S) (i : I) : Entry S I O :=
  ⟨s, i, (step s i).1, (step s i).2⟩

/-- The entries of the run over some inputs. -/
def trace (step : S → I → O × S) : S → List I → List (Entry S I O)
  | _, [] => []
  | s, i :: is => entry step s i :: trace step (step s i).2 is

/-- What holds of every element of a list and all before it, holds so of a longer list when
it does of the last element. -/
theorem forall_split_concat {α : Type} {Q : List α → α → Prop} {xs : List α} {y : α} :
    (∀ pre x post, xs ++ [y] = pre ++ x :: post → Q pre x) ↔
      (∀ pre x post, xs = pre ++ x :: post → Q pre x) ∧ Q xs y := by
  constructor
  · intro h
    refine ⟨fun pre x post heq => h pre x (post ++ [y]) ?_, h xs y [] rfl⟩
    rw [heq, List.append_assoc, List.cons_append]
  · rintro ⟨hold, hlast⟩ pre x post heq
    rcases List.eq_nil_or_concat post with rfl | ⟨post, last, rfl⟩
    · obtain ⟨rfl, hx⟩ := List.append_inj' heq rfl
      obtain rfl := (List.cons.inj hx).1
      exact hlast
    · rw [List.concat_eq_append, ← List.cons_append, ← List.append_assoc] at heq
      obtain ⟨hxs, -⟩ := List.append_inj' heq rfl
      exact hold pre x post hxs

theorem forall_split_nil {α : Type} {Q : List α → α → Prop} :
    ∀ pre x post, [] = pre ++ x :: post → Q pre x := by
  intro pre x post heq
  cases (List.append_eq_nil_iff.mp heq.symm).2

/-- A relation holds between any two elements in order when it holds between each and all
before it. -/
theorem pairwise_iff_split {α : Type} {R : α → α → Prop} {xs : List α} :
    xs.Pairwise R ↔ ∀ pre x post, xs = pre ++ x :: post → ∀ y ∈ pre, R y x := by
  induction xs using List.reverseRecOn with
  | nil => exact iff_of_true .nil forall_split_nil
  | append_singleton xs x ih =>
      rw [forall_split_concat, ← ih, List.pairwise_append]
      simp

/-- Instants that keep a distance are few. The last of them is as many distances behind the first
as there are instants between, and both are within the bounds. -/
theorem length_of_apart {g lo hi : Nat} {ts : List Nat}
    (h : ts.Pairwise fun t t' => t + g ≤ t') (hlo : ∀ t ∈ ts, lo ≤ t) (hhi : ∀ t ∈ ts, t ≤ hi) :
    (ts.length - 1) * g ≤ hi - lo := by
  have hlast : ∀ (t : Nat) (ts : List Nat), (t :: ts).Pairwise (fun t t' => t + g ≤ t') →
      (∀ t' ∈ t :: ts, t' ≤ hi) → t + ts.length * g ≤ hi := by
    intro t ts
    induction ts generalizing t with
    | nil =>
        intro _ hhi
        have ht := hhi t List.mem_cons_self
        simpa using ht
    | cons t' ts ih =>
        intro h hhi
        obtain ⟨hfirst, hrest⟩ := List.pairwise_cons.mp h
        have hnext := ih t' hrest fun u hu => hhi u (List.mem_cons_of_mem _ hu)
        have hstep := hfirst t' List.mem_cons_self
        rw [List.length_cons, Nat.add_mul, Nat.one_mul]
        omega
  cases ts with
  | nil => simp
  | cons t ts =>
      have hsum := hlast t ts h hhi
      have ht := hlo t List.mem_cons_self
      rw [List.length_cons, Nat.add_sub_cancel]
      omega

variable {step : S → I → O × S}

/-- The inputs of the entries are those of the run. -/
theorem input_mem_of_trace {is : List I} {s : S} {e : Entry S I O} (h : e ∈ trace step s is) :
    e.input ∈ is := by
  induction is generalizing s with
  | nil => cases h
  | cons i is ih =>
      rcases List.mem_cons.mp h with rfl | h
      · exact List.mem_cons_self
      · exact List.mem_cons_of_mem _ (ih h)

/-- **Invariants.**  What every step preserves, of the state and the inputs to
come, holds at every entry of a run. -/
theorem forall_trace {Inv : S → List I → Prop}
    (hstep : ∀ s i is, Inv s (i :: is) → Inv (step s i).2 is) :
    ∀ (is : List I) (s : S), Inv s is → ∀ e ∈ trace step s is,
      e = entry step e.before e.input ∧ ∃ rest, Inv e.before (e.input :: rest) := by
  intro is
  induction is with
  | nil => intro s _ e he; cases he
  | cons i is ih =>
      intro s h e he
      rcases List.mem_cons.mp he with rfl | he
      · exact ⟨rfl, is, h⟩
      · exact ih _ (hstep s i is h) e he

/-- **Pairs.**  A relation between an entry and all that follow it holds between
any two entries of a run, in order. -/
theorem pairwise_trace {Inv : S → List I → Prop} {R : Entry S I O → Entry S I O → Prop}
    (hstep : ∀ s i is, Inv s (i :: is) → Inv (step s i).2 is)
    (hR : ∀ s i is, Inv s (i :: is) →
      ∀ e ∈ trace step (step s i).2 is, R (entry step s i) e) :
    ∀ (is : List I) (s : S), Inv s is → (trace step s is).Pairwise R := by
  intro is
  induction is with
  | nil => intro s _; exact List.Pairwise.nil
  | cons i is ih =>
      intro s h
      exact List.Pairwise.cons (hR s i is h) (ih _ (hstep s i is h))

/-- **Histories.**  What every step preserves, of the entries so far, the state and
the inputs to come, holds at every entry of a run with all that came before it. -/
theorem history_trace {Inv : List (Entry S I O) → S → List I → Prop}
    (hstep : ∀ past s i is, Inv past s (i :: is) → Inv (past ++ [entry step s i]) (step s i).2 is) :
    ∀ (is : List I) (s : S) (past : List (Entry S I O)), Inv past s is →
      ∀ pre e post, trace step s is = pre ++ e :: post →
        e = entry step e.before e.input ∧ ∃ rest, Inv (past ++ pre) e.before (e.input :: rest) := by
  intro is
  induction is with
  | nil =>
      intro s past _ pre e post heq
      cases (List.append_eq_nil_iff.mp heq.symm).2
  | cons i is ih =>
      intro s past h pre e post heq
      have hcons : trace step s (i :: is) = entry step s i :: trace step (step s i).2 is := rfl
      rw [hcons] at heq
      cases pre with
      | nil =>
          obtain ⟨rfl, -⟩ := List.cons.inj heq
          refine ⟨rfl, is, ?_⟩
          rw [List.append_nil]
          exact h
      | cons e' pre =>
          obtain ⟨rfl, hrest⟩ := List.cons.inj heq
          have hnext := ih _ _ (hstep past s i is h) pre e post hrest
          rw [List.append_assoc, List.singleton_append] at hnext
          exact hnext

/-- **Conditions.**  Where a step from a good state leads to a good one exactly
when a condition holds, all states of a run are good exactly when the condition
holds at all entries. -/
theorem forall_trace_iff {Inv Good : S → Prop} {Fine : S → I → Prop}
    (hinv : ∀ s i, Inv s → Inv (step s i).2)
    (hstep : ∀ s i, Inv s → Good s → (Good (step s i).2 ↔ Fine s i)) :
    ∀ (is : List I) (s : S), Inv s → Good s →
      ((∀ e ∈ trace step s is, Good e.after) ↔ ∀ e ∈ trace step s is, Fine e.before e.input) := by
  intro is
  induction is with
  | nil => intro s _ _; exact iff_of_true nofun nofun
  | cons i is ih =>
      intro s hs hgood
      have hcons : trace step s (i :: is) = entry step s i :: trace step (step s i).2 is := rfl
      have hfirst := hstep s i hs hgood
      rw [hcons, List.forall_mem_cons, List.forall_mem_cons]
      constructor
      · rintro ⟨hnext, hrest⟩
        exact ⟨hfirst.mp hnext, (ih _ (hinv s i hs) hnext).mp hrest⟩
      · rintro ⟨hfine, hrest⟩
        exact ⟨hfirst.mpr hfine, (ih _ (hinv s i hs) (hfirst.mpr hfine)).mpr hrest⟩

/-- **Two runs.**  An input whose answer is dropped leaves its state related to one that
never saw it, and any other keeps related states related: then the inputs that are
not dropped are answered alike without the others, as far as relatedness says. -/
theorem trace_without {Rel : S → S → List I → Prop} {dropped : O → Bool}
    {Alike : I → O → O → Prop}
    (hkept : ∀ s t i is, Rel s t (i :: is) → dropped (step s i).1 = false →
      Alike i (step s i).1 (step t i).1 ∧ Rel (step s i).2 (step t i).2 is)
    (hdropped : ∀ s t i is, Rel s t (i :: is) → dropped (step s i).1 = true →
      Rel (step s i).2 t is) :
    ∀ (is : List I) (s t : S), Rel s t is →
      List.Forall₂ (fun e e' => e'.input = e.input ∧ Alike e.input e.output e'.output)
        ((trace step s is).filter fun e => ! dropped e.output)
        (trace step t (((trace step s is).filter fun e => ! dropped e.output).map
          Entry.input)) := by
  intro is
  induction is with
  | nil => intro s t _; exact .nil
  | cons i is ih =>
      intro s t h
      have hcons : trace step s (i :: is) = entry step s i :: trace step (step s i).2 is := rfl
      rw [hcons]
      cases hanswer : dropped (step s i).1 with
      | true =>
          rw [List.filter_cons_of_neg (by simp [entry, hanswer])]
          exact ih _ _ (hdropped s t i is h hanswer)
      | false =>
          obtain ⟨halike, hrel⟩ := hkept s t i is h hanswer
          rw [List.filter_cons_of_pos (by simp [entry, hanswer]), List.map_cons]
          exact .cons ⟨rfl, halike⟩ (ih _ _ hrel)

/-- Where related states answer the same, so do the two runs. -/
theorem trace_dropped {Rel : S → S → List I → Prop} {dropped : O → Bool}
    (hkept : ∀ s t i is, Rel s t (i :: is) →
      (step t i).1 = (step s i).1 ∧ Rel (step s i).2 (step t i).2 is)
    (hdropped : ∀ s t i is, Rel s t (i :: is) → dropped (step s i).1 = true →
      Rel (step s i).2 t is) (is : List I) (s t : S) (h : Rel s t is) :
    (trace step t (((trace step s is).filter fun e => ! dropped e.output).map Entry.input)).map
        Entry.output =
      ((trace step s is).filter fun e => ! dropped e.output).map Entry.output := by
  have hruns := @trace_without _ _ _ step Rel dropped (fun _ o o' => o' = o)
    (fun s t i is h _ => hkept s t i is h) hdropped is s t h
  rw [← List.forall₂_eq_eq_eq, List.forall₂_map_left_iff, List.forall₂_map_right_iff]
  exact (hruns.imp fun _ _ halike => halike.2).flip

/-! ## Relations -/

/-- The runs of a labelled step relation. -/
inductive Run {A : Type} (Step : S → A → S → Prop) : S → List A → S → Prop where
  | nil (s : S) : Run Step s [] s
  | cons {s s' s'' : S} {a : A} {as : List A} :
      Step s a s' → Run Step s' as s'' → Run Step s (a :: as) s''

variable {A : Type} {Step : S → A → S → Prop}

/-- Moves that are computed, and are steps, make a run. -/
theorem Run.of_foldlM {M : Type} {next : S → M → Option S} {label : M → A}
    (hnext : ∀ s m s', next s m = some s' → Step s (label m) s') {moves : List M} :
    ∀ {s s' : S}, moves.foldlM next s = some s' → Run Step s (moves.map label) s' := by
  induction moves with
  | nil =>
      intro s s' h
      obtain rfl := Option.some.inj h
      exact .nil s
  | cons m moves ih =>
      intro s s' h
      rw [List.foldlM_cons] at h
      obtain ⟨next', hfirst, hrest⟩ := Option.bind_eq_some_iff.mp h
      exact .cons (hnext s m next' hfirst) (ih hrest)

/-- **Invariants of a relation.**  What every step preserves, a run preserves. -/
theorem Run.preserves {Inv : S → Prop} (hstep : ∀ s a s', Inv s → Step s a s' → Inv s')
    {s s' : S} {as : List A} (h : Run Step s as s') (hs : Inv s) : Inv s' := by
  induction h with
  | nil => exact hs
  | cons hfirst _ ih => exact ih (hstep _ _ _ hs hfirst)

/-- **Termination.**  Where every action pays its cost out of a size, and adds no
more than its gain to it, a run costs no more than the size it starts with and
what is gained on the way. -/
theorem Run.cost_le {Inv : S → Prop} (hstep : ∀ s a s', Inv s → Step s a s' → Inv s')
    {size : S → Nat} {cost gain : A → Nat}
    (hsize : ∀ s a s', Inv s → Step s a s' → cost a + size s' ≤ size s + gain a)
    {s s' : S} {as : List A} (h : Run Step s as s') (hs : Inv s) :
    (as.map cost).sum + size s' ≤ size s + (as.map gain).sum := by
  induction h with
  | nil => simp
  | cons hfirst _ ih =>
      have hpaid := hsize _ _ _ hs hfirst
      have hrest := ih (hstep _ _ _ hs hfirst)
      rw [List.map_cons, List.map_cons, List.sum_cons, List.sum_cons]
      omega

/-- **Accounts.**  Where every action takes what it spends out of a stock, the stock a run
starts with is what it spends and what is left in the end. -/
theorem Run.spends {B : Type} {stock : S → List B} {spent : A → List B}
    (hstep : ∀ s a s', Step s a s' → (stock s).Perm (spent a ++ stock s'))
    {s s' : S} {as : List A} (h : Run Step s as s') :
    (stock s).Perm (as.flatMap spent ++ stock s') := by
  induction h with
  | nil s => exact List.Perm.refl _
  | cons hfirst _ ih =>
      refine (hstep _ _ _ hfirst).trans ?_
      rw [List.flatMap_cons, List.append_assoc]
      exact ih.append_left _

end Runs
