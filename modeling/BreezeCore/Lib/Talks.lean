import Mathlib.Data.List.Basic
import Mathlib.Data.List.Forall2

/-!
# Programs that ask the world

A program of this kind puts questions to the world and goes on with whatever it is answered;
there is no assumption on the answers.  Questions come in kinds, and a kind says what an
answer to it is.  A program ends with a value or with an error.

* `Talk.Keeps G past p P E` — started after the talk `past`, the program only asks what `G`
  allows at that moment, and ends where `P` or `E` holds.  One rule for each way programs
  are put together, and `Keeps.after` brings it back to explicit talks.
* `Talk.Alike S R p p'` — two programs that, given the same answers, ask the same questions up
  to `S` and end the same way up to `R`; `Talk.Parallel S T R p p'` asks the same of them when
  the answers are the same up to `T`.
-/

namespace Talks

variable {K : Type} {Q A : K → Type} {ε ε' α β γ : Type}

/-- A program that puts questions to the world. -/
inductive Talk (Q A : K → Type) (ε α : Type) where
  | done (a : α)
  | failed (e : ε)
  | ask {κ : K} (question : Q κ) (go : A κ → Talk Q A ε α)

/-- A question and what was answered. -/
structure Said (Q A : K → Type) where
  {kind : K}
  question : Q kind
  answer : A kind

namespace Talk

/-- One talk after another: the second begins with what the first came to. -/
def bind : Talk Q A ε α → (α → Talk Q A ε β) → Talk Q A ε β
  | done a, f => f a
  | failed e, _ => failed e
  | ask q go, f => ask q fun r => (go r).bind f

instance : Monad (Talk Q A ε) where
  pure := done
  bind := bind

/-- An error as a value, so that the program can look at it and go on. -/
def attempt : Talk Q A ε α → Talk Q A ε' (Except ε α)
  | done a => done (.ok a)
  | failed e => done (.error e)
  | ask q go => ask q fun r => (go r).attempt

/-- What is known already, with nothing asked. -/
def ofExcept : Except ε α → Talk Q A ε α
  | .ok a => done a
  | .error e => failed e

/-- After a result the next talk begins. -/
@[simp] theorem done_bind (a : α) (f : α → Talk Q A ε β) : (done a >>= f) = f a := rfl

/-- A result in the words of the monad. -/
@[simp] theorem pure_eq (a : α) : (Pure.pure a : Talk Q A ε α) = done a := rfl

/-- An error ends both. -/
@[simp] theorem failed_bind (e : ε) (f : α → Talk Q A ε β) :
    ((failed e : Talk Q A ε α) >>= f) = failed e := rfl

/-- What comes behind a question comes behind each of its answers. -/
@[simp] theorem ask_bind {κ : K} (q : Q κ) (go : A κ → Talk Q A ε α) (f : α → Talk Q A ε β) :
    (ask q go >>= f) = ask q fun r => go r >>= f := rfl

/-! ## Talks -/

/-- After the talk `log` the program goes on as another one. -/
inductive After : Talk Q A ε α → List (Said Q A) → Talk Q A ε α → Prop
  | start (p : Talk Q A ε α) : After p [] p
  | answered {κ : K} {q : Q κ} {go : A κ → Talk Q A ε α} {log : List (Said Q A)}
      {p' : Talk Q A ε α} (r : A κ) (h : After (go r) log p') :
      After (ask q go) (⟨q, r⟩ :: log) p'

/-- The talk with a world whose answers depend on the question alone, for so many questions. -/
def talkWith (replies : (κ : K) → Q κ → A κ) :
    Nat → Talk Q A ε α → List (Said Q A) × Talk Q A ε α
  | n + 1, ask q go =>
      let (log, p) := talkWith replies n (go (replies _ q))
      (⟨q, replies _ q⟩ :: log, p)
  | _, p => ([], p)

/-- Where a talk has come to with given answers is somewhere it can come to. -/
theorem after_talkWith (replies : (κ : K) → Q κ → A κ) (n : Nat) (p : Talk Q A ε α) :
    After p (talkWith replies n p).1 (talkWith replies n p).2 := by
  induction n generalizing p with
  | zero => exact .start p
  | succ n ih =>
      cases p with
      | done a => exact .start _
      | failed e => exact .start _
      | ask q go => exact .answered _ (ih _)

/-- How a program ended, when it did. -/
def outcome : Talk Q A ε α → Option (Except ε α)
  | done a => some (.ok a)
  | failed e => some (.error e)
  | ask _ _ => none

/-- A talk that has come to a result is that result. -/
theorem outcome_eq_ok {p : Talk Q A ε α} {a : α} (h : outcome p = some (.ok a)) : p = done a := by
  cases p with
  | done b => exact congrArg done (Except.ok.inj (Option.some.inj h))
  | failed e => cases h
  | ask q go => cases h

/-- And one that has come to an error is that error. -/
theorem outcome_eq_error {p : Talk Q A ε α} {e : ε} (h : outcome p = some (.error e)) :
    p = failed e := by
  cases p with
  | done b => cases h
  | failed e => exact congrArg failed (Except.error.inj (Option.some.inj h))
  | ask q go => cases h

/-- What is asked is allowed at that moment, whatever was answered before, and the end is as
wanted. -/
def Keeps (G : List (Said Q A) → (κ : K) → Q κ → Prop) (past : List (Said Q A)) :
    Talk Q A ε α → (List (Said Q A) → α → Prop) → (List (Said Q A) → ε → Prop) → Prop
  | done a, P, _ => P past a
  | failed e, _, E => E past e
  | ask q go, P, E => G past _ q ∧ ∀ r, Keeps G (past ++ [⟨q, r⟩]) (go r) P E

variable {G : List (Said Q A) → (κ : K) → Q κ → Prop} {past log : List (Said Q A)}
  {P P' : List (Said Q A) → α → Prop} {E E' : List (Said Q A) → ε → Prop}
  {p p' : Talk Q A ε α}

/-- A talk that is over keeps everything; only its result is asked about. -/
@[simp] theorem keeps_done {a : α} : Keeps G past (done a) P E ↔ P past a := Iff.rfl

/-- A talk that has ended with an error keeps what is promised of errors. -/
@[simp] theorem keeps_failed {e : ε} : Keeps G past (failed e) P E ↔ E past e := Iff.rfl

/-- A question has to be allowed where it is asked, and what follows each answer has to keep with
the question and the answer behind it. -/
@[simp] theorem keeps_ask {κ : K} {q : Q κ} {go : A κ → Talk Q A ε α} :
    Keeps G past (ask q go) P E ↔
      G past κ q ∧ ∀ r, Keeps G (past ++ [⟨q, r⟩]) (go r) P E := Iff.rfl

/-- The rule for one talk after another: what the first guarantees of the log and its result is
what the second begins with. By induction on the first. -/
theorem keeps_bind {f : α → Talk Q A ε β} {R : List (Said Q A) → β → Prop} :
    Keeps G past (p >>= f) R E ↔ Keeps G past p (fun past a => Keeps G past (f a) R E) E := by
  induction p generalizing past with
  | done a => exact Iff.rfl
  | failed e => exact Iff.rfl
  | ask q go ih => exact and_congr_right fun _ => forall_congr' fun r => ih r

/-- A talk whose errors are caught ends with what it came to, error or not. -/
theorem keeps_attempt {E' : List (Said Q A) → ε' → Prop}
    {R : List (Said Q A) → Except ε α → Prop} :
    Keeps G past (p.attempt : Talk Q A ε' (Except ε α)) R E' ↔
      Keeps G past p (fun past a => R past (.ok a)) (fun past e => R past (.error e)) := by
  induction p generalizing past with
  | done a => exact Iff.rfl
  | failed e => exact Iff.rfl
  | ask q go ih => exact and_congr_right fun _ => forall_congr' fun r => ih r

/-- What is known already is looked at in its two cases. -/
theorem keeps_ofExcept {x : Except ε α} (hok : ∀ a, x = .ok a → P past a)
    (herror : ∀ e, x = .error e → E past e) : Keeps G past (ofExcept x) P E := by
  cases x with
  | ok a => exact hok a rfl
  | error e => exact herror e rfl

/-- What is guaranteed at the end may be weakened, of results and of errors. -/
theorem Keeps.weaken (h : Keeps G past p P E) (hP : ∀ past a, P past a → P' past a)
    (hE : ∀ past e, E past e → E' past e) : Keeps G past p P' E' := by
  induction p generalizing past with
  | done a => exact hP _ _ h
  | failed e => exact hE _ _ h
  | ask q go ih => exact ⟨h.1, fun r => ih r (h.2 r)⟩

/-- A guard may be loosened for as long as an invariant of the talk holds. -/
theorem Keeps.guard {G' : List (Said Q A) → (κ : K) → Q κ → Prop} (h : Keeps G past p P E)
    (hG : ∀ past κ (q : Q κ), G past κ q → G' past κ q) : Keeps G' past p P E := by
  induction p generalizing past with
  | done a => exact h
  | failed e => exact h
  | ask q go ih => exact ⟨hG _ _ _ h.1, fun r => ih r (h.2 r)⟩

/-- The rule of a sequence: the first program, and what follows from where it can end. -/
theorem Keeps.seq {f : α → Talk Q A ε β} {R : List (Said Q A) → β → Prop}
    (h : Keeps G past p P E) (hf : ∀ past a, P past a → Keeps G past (f a) R E) :
    Keeps G past (p >>= f) R E :=
  keeps_bind.mpr (h.weaken hf fun _ _ he => he)

/-- What was specified holds of what is left to do after a talk. -/
theorem Keeps.after (h : Keeps G past p P E) (hlog : After p log p') :
    Keeps G (past ++ log) p' P E := by
  induction hlog generalizing past with
  | start p => rwa [List.append_nil]
  | answered r _ ih => rw [List.append_cons]; exact ih (h.2 r)

/-- A talk that ended ended as specified. -/
theorem Keeps.ended {a : α} (h : Keeps G [] p P E) (hlog : After p log (done a)) : P log a :=
  h.after hlog

/-- What is guaranteed of errors holds of the error a run ended with. -/
theorem Keeps.stopped {e : ε} (h : Keeps G [] p P E) (hlog : After p log (failed e)) : E log e :=
  h.after hlog

/-- Each question of a talk was allowed when it was asked. -/
theorem Keeps.asked {κ : K} {q : Q κ} {go : A κ → Talk Q A ε α} (h : Keeps G [] p P E)
    (hlog : After p log (ask q go)) : G log κ q :=
  (h.after hlog).1

/-- And so was each question that was answered, after what was said before it. -/
theorem Keeps.said {before after : List (Said Q A)} {e : Said Q A} (h : Keeps G past p P E)
    (hlog : After p (before ++ e :: after) p') : G (past ++ before) e.kind e.question := by
  induction before generalizing past p with
  | nil =>
      rw [List.append_nil]
      cases hlog with
      | answered r _ => exact h.1
  | cons first before ih =>
      cases hlog with
      | answered r hlog =>
          rw [List.append_cons]
          exact ih (h.2 r) hlog

/-! ## The talk itself -/

/-- Specifications may speak of the talk a program had. -/
theorem Keeps.talk (h : Keeps G past p P E) :
    Keeps G past p (fun now a => P now a ∧ ∃ mid, now = past ++ mid ∧ After p mid (done a))
      (fun now e => E now e ∧ ∃ mid, now = past ++ mid ∧ After p mid (failed e)) := by
  induction p generalizing past with
  | done a => exact ⟨h, [], (List.append_nil _).symm, .start _⟩
  | failed e => exact ⟨h, [], (List.append_nil _).symm, .start _⟩
  | ask q go ih =>
      refine ⟨h.1, fun r => (ih r (h.2 r)).weaken ?_ ?_⟩
      · rintro now a ⟨ha, mid, rfl, hmid⟩
        exact ⟨ha, _, List.append_assoc .., .answered r hmid⟩
      · rintro now e ⟨he, mid, rfl, hmid⟩
        exact ⟨he, _, List.append_assoc .., .answered r hmid⟩

/-- What was said before a program began is still there when it asks. -/
theorem Keeps.since (h : Keeps G past p P E) :
    Keeps (fun now κ q => past <+: now ∧ G now κ q) past p P E := by
  suffices hgen : ∀ start past : List (Said Q A), start <+: past → Keeps G past p P E →
      Keeps (fun now κ q => start <+: now ∧ G now κ q) past p P E from
    hgen past past List.prefix_rfl h
  clear h
  induction p with
  | done a => intro start past _ h; exact h
  | failed e => intro start past _ h; exact h
  | ask q go ih =>
      intro start past hstart h
      exact ⟨⟨hstart, h.1⟩, fun r => ih r start _ (hstart.trans (List.prefix_append _ _)) (h.2 r)⟩

/-- Nothing is asked but what `H` allows. -/
def Only (H : (κ : K) → Q κ → Prop) : Talk Q A ε α → Prop
  | done _ | failed _ => True
  | ask q go => H _ q ∧ ∀ r, Only H (go r)

variable {H : (κ : K) → Q κ → Prop}

/-- A result asks nothing. -/
@[simp] theorem only_done (a : α) : Only H (done a : Talk Q A ε α) := trivial

/-- A talk that ends with an error asks nothing. -/
@[simp] theorem only_failed (e : ε) : Only H (failed e : Talk Q A ε α) := trivial

/-- A question has to be allowed, and so has all that follows whatever is answered. -/
@[simp] theorem only_ask {κ : K} {q : Q κ} {go : A κ → Talk Q A ε α} :
    Only H (ask q go) ↔ H κ q ∧ ∀ r, Only H (go r) := Iff.rfl

/-- Where everything may be asked, any talk will do. -/
theorem only_free (hH : ∀ κ q, H κ q) (p : Talk Q A ε α) : Only H p := by
  induction p with
  | done a => trivial
  | failed e => trivial
  | ask q go ih => exact ⟨hH _ _, ih⟩

/-- What is known already asks nothing. -/
@[simp] theorem only_ofExcept (x : Except ε α) : Only H (ofExcept x : Talk Q A ε α) := by
  cases x with
  | ok a => exact only_done a
  | error e => exact only_failed e

/-- What two talks may ask, they may ask one after the other. -/
theorem Only.bind {f : α → Talk Q A ε β} (h : Only H p) (hf : ∀ a, Only H (f a)) :
    Only H (p >>= f) := by
  induction p with
  | done a => exact hf a
  | failed e => trivial
  | ask q go ih => exact ⟨h.1, fun r => ih r (h.2 r)⟩

/-- Catching the errors of a talk asks nothing more. -/
theorem Only.attempt (h : Only H p) : Only H (p.attempt : Talk Q A ε' (Except ε α)) := by
  induction p with
  | done a => trivial
  | failed e => trivial
  | ask q go ih => exact ⟨h.1, fun r => ih r (h.2 r)⟩

/-- More may be allowed. -/
theorem Only.weaken {H' : (κ : K) → Q κ → Prop} (h : Only H p) (hH : ∀ κ q, H κ q → H' κ q) :
    Only H' p := by
  induction p with
  | done a => trivial
  | failed e => trivial
  | ask q go ih => exact ⟨hH _ _ h.1, fun r => ih r (h.2 r)⟩

/-- Every question in the log of such a talk was allowed. -/
theorem Only.said (h : Only H p) (hlog : After p log p') : ∀ e ∈ log, H e.kind e.question := by
  induction hlog with
  | start p => intro e he; cases he
  | answered r _ ih =>
      intro e he
      rcases List.mem_cons.mp he with rfl | he
      · exact h.1
      · exact ih (h.2 r) e he

/-- A talk whose questions are allowed at any point keeps to them at each. -/
theorem Only.keeps (h : Only H p) (hH : ∀ now κ q, H κ q → G now κ q) :
    Keeps G past p (fun _ _ => True) (fun _ _ => True) := by
  induction p generalizing past with
  | done a => trivial
  | failed e => trivial
  | ask q go ih => exact ⟨hH _ _ _ h.1, fun r => ih r (h.2 r)⟩

/-- What is asked is one thing, and where it ends is another. -/
theorem Keeps.only {G' : List (Said Q A) → (κ : K) → Q κ → Prop} (h : Keeps G' past p P E)
    (honly : Only H p) (hH : ∀ now κ q, H κ q → G now κ q) : Keeps G past p P E := by
  induction p generalizing past with
  | done a => exact h
  | failed e => exact h
  | ask q go ih => exact ⟨hH _ _ _ honly.1, fun r => ih r (h.2 r) (honly.2 r)⟩

/-- A program that may ask everything. -/
theorem keeps_free (hG : ∀ now κ q, G now κ q) (p : Talk Q A ε α) :
    Keeps G past p (fun _ _ => True) (fun _ _ => True) :=
  (only_free (H := fun _ _ => True) (fun _ _ => trivial) p).keeps fun now κ q _ => hG now κ q

/-- There is no way to an error. -/
def Sure : Talk Q A ε α → Prop
  | done _ => True
  | failed _ => False
  | ask _ go => ∀ r, Sure (go r)

/-- What cannot fail, followed by what cannot fail, cannot. -/
theorem Sure.bind {f : α → Talk Q A ε β} (h : Sure p) (hf : ∀ a, Sure (f a)) :
    Sure (p >>= f) := by
  induction p with
  | done a => exact hf a
  | failed e => exact h
  | ask q go ih => exact fun r => ih r (h r)

/-- No run of a talk that cannot fail ends with an error. -/
theorem Sure.not_failed {e : ε} (h : Sure p) : ¬ After p log (failed e) := by
  suffices hgen : ∀ p', After p log p' → p' ≠ failed e from fun hlog => hgen _ hlog rfl
  intro p' hlog
  induction hlog with
  | start p => rintro rfl; exact h
  | answered r _ ih => exact ih (h r)

/-- A program that asks only what is always allowed, and what is left to do after its talk. -/
theorem Only.seq {f : α → Talk Q A ε β} {R : List (Said Q A) → β → Prop} (h : Only H p)
    (hH : ∀ now κ q, H κ q → G now κ q)
    (hok : ∀ mid a, (∀ e ∈ mid, H e.kind e.question) → After p mid (done a) →
      Keeps G (past ++ mid) (f a) R E)
    (herror : ∀ mid e, (∀ e ∈ mid, H e.kind e.question) → After p mid (failed e) →
      E (past ++ mid) e) :
    Keeps G past (p >>= f) R E := by
  refine keeps_bind.mpr ((h.keeps hH).talk.weaken ?_ ?_)
  · rintro now a ⟨-, mid, rfl, hmid⟩
    exact hok mid a (h.said hmid) hmid
  · rintro now e ⟨-, mid, rfl, hmid⟩
    exact herror mid e (h.said hmid) hmid

/-! ## Two programs that ask alike -/

/-- Given the same answers, the programs ask the same up to `S` and end the same up to `R`. -/
inductive Alike (S : (κ : K) → Q κ → Q κ → Prop) (R : α → β → Prop) :
    Talk Q A ε α → Talk Q A ε β → Prop
  | done {a : α} {b : β} (h : R a b) : Alike S R (done a) (done b)
  | failed (e : ε) : Alike S R (failed e) (failed e)
  | ask {κ : K} {q q' : Q κ} {go : A κ → Talk Q A ε α} {go' : A κ → Talk Q A ε β}
      (hq : S κ q q') (h : ∀ r, Alike S R (go r) (go' r)) : Alike S R (ask q go) (ask q' go')

/-- Two entries of logs with the same answer, to questions that are alike. -/
inductive SaidAlike (S : (κ : K) → Q κ → Q κ → Prop) : Said Q A → Said Q A → Prop
  | mk {κ : K} {q q' : Q κ} (r : A κ) (h : S κ q q') : SaidAlike S ⟨q, r⟩ ⟨q', r⟩

variable {S : (κ : K) → Q κ → Q κ → Prop} {R : α → α → Prop}

/-- A talk is like itself, where every question is like itself. -/
theorem alike_refl (hS : ∀ κ q, S κ q q) (hR : ∀ a, R a a) (p : Talk Q A ε α) :
    Alike S R p p := by
  induction p with
  | done a => exact .done (hR a)
  | failed e => exact .failed e
  | ask q go ih => exact .ask (hS _ q) ih

/-- Two pairs of talks alike make one: from results that are alike the second parts go on
alike. -/
theorem Alike.bind {T : β → β → Prop} {f f' : α → Talk Q A ε β} (h : Alike S R p p')
    (hf : ∀ a a', R a a' → Alike S T (f a) (f' a')) : Alike S T (p >>= f) (p' >>= f') := by
  induction h with
  | done h => exact hf _ _ h
  | failed e => exact .failed e
  | ask hq _ ih => exact .ask hq ih

/-- So do talks whose errors are caught, the errors being the same. -/
theorem Alike.attempt {T : Except ε α → Except ε α → Prop} (h : Alike S R p p')
    (hok : ∀ a a', R a a' → T (.ok a) (.ok a')) (herror : ∀ e, T (.error e) (.error e)) :
    Alike S T (p.attempt : Talk Q A ε' (Except ε α)) p'.attempt := by
  induction h with
  | done h => exact .done (hok _ _ h)
  | failed e => exact .done (herror e)
  | ask hq _ ih => exact .ask hq ih

/-- A talk of the one program is a talk of the other, answer for answer. -/
theorem Alike.after {p₁ : Talk Q A ε α} (h : Alike S R p p') (hlog : After p log p₁) :
    ∃ log' p₁', After p' log' p₁' ∧ List.Forall₂ (SaidAlike S) log log' ∧ Alike S R p₁ p₁' := by
  induction hlog generalizing p' with
  | start p => exact ⟨[], p', .start p', .nil, h⟩
  | answered r _ ih =>
      cases h with
      | ask hq hgo =>
          obtain ⟨log', p₁', hafter, hlogs, hend⟩ := ih (hgo r)
          exact ⟨_, p₁', .answered r hafter, .cons (.mk r hq) hlogs, hend⟩

/-! ## Two programs in two worlds -/

/-- As long as the answers are the same up to `T`, the programs ask the same up to `S`, and they
end the same up to `R` or with the same error. -/
inductive Parallel (S : (κ : K) → Q κ → Q κ → Prop) (T : (κ : K) → Q κ → A κ → A κ → Prop)
    (R : α → β → Prop) : Talk Q A ε α → Talk Q A ε β → Prop
  | done {a : α} {b : β} (h : R a b) : Parallel S T R (done a) (done b)
  | failed (e : ε) : Parallel S T R (failed e) (failed e)
  | ask {κ : K} {q q' : Q κ} {go : A κ → Talk Q A ε α} {go' : A κ → Talk Q A ε β}
      (hq : S κ q q') (h : ∀ r r', T κ q r r' → Parallel S T R (go r) (go' r')) :
      Parallel S T R (ask q go) (ask q' go')

/-- Answers that are the same up to `T`, where they are answers of one kind. -/
def AnsweredAlike (T : (κ : K) → Q κ → A κ → A κ → Prop) (e e' : Said Q A) : Prop :=
  ∀ (κ : K) (q q' : Q κ) (r r' : A κ), e = ⟨q, r⟩ → e' = ⟨q', r'⟩ → T κ q r r'

/-- Questions of one kind that are the same up to `S`. -/
inductive AskedAlike (S : (κ : K) → Q κ → Q κ → Prop) : Said Q A → Said Q A → Prop
  | mk {κ : K} {q q' : Q κ} (r r' : A κ) (h : S κ q q') : AskedAlike S ⟨q, r⟩ ⟨q', r'⟩

section Parallel

variable {T : (κ : K) → Q κ → A κ → A κ → Prop} {V : α → β → Prop} {p₁ : Talk Q A ε α}
  {p₂ p₂' : Talk Q A ε β} {log' : List (Said Q A)}

/-- The same of talks whose answers may differ too. -/
theorem Parallel.bind {α' β' : Type} {W : α' → β' → Prop} {f : α → Talk Q A ε α'}
    {f' : β → Talk Q A ε β'} (h : Parallel S T V p p₂)
    (hf : ∀ a b, V a b → Parallel S T W (f a) (f' b)) :
    Parallel S T W (p >>= f) (p₂ >>= f') := by
  induction h with
  | done h => exact hf _ _ h
  | failed e => exact .failed e
  | ask hq _ ih => exact .ask hq ih

/-- Two talks with answers that are alike are alike, and so is what is left to do. -/
theorem Parallel.after (h : Parallel S T V p p₂) (hlog : After p log p₁)
    (hlog' : After p₂ log' p₂') (hanswers : List.Forall₂ (AnsweredAlike T) log log') :
    List.Forall₂ (AskedAlike S) log log' ∧ Parallel S T V p₁ p₂' := by
  induction hlog generalizing p₂ log' with
  | start p =>
      cases hanswers
      cases hlog'
      exact ⟨.nil, h⟩
  | answered r _ ih =>
      cases hanswers with
      | cons hfirst hrest =>
          cases h with
          | ask hq hgo =>
              cases hlog' with
              | answered r' hlog' =>
                  have hanswer := hfirst _ _ _ r r' rfl rfl
                  obtain ⟨hlogs, hend⟩ := ih (hgo r r' hanswer) hlog' hrest
                  exact ⟨.cons (.mk r r' hq) hlogs, hend⟩

end Parallel

/-! ## A program inside a larger one -/

section Inside

variable {K' : Type} {Q' A' : K' → Type}

/-- The questions of one kind of program among those of another. -/
structure Embedding (Q A : K → Type) (Q' A' : K' → Type) where
  kind : K → K'
  up : (κ : K) → Q κ → Q' (kind κ)
  down : (κ : K) → A' (kind κ) → A κ
  /-- The question and answer inside, when they are of the smaller program. -/
  inner : Said Q' A' → Option (Said Q A)
  inner_up : ∀ κ q r, inner ⟨up κ q, r⟩ = some ⟨q, down κ r⟩

variable (i : Embedding Q A Q' A')

/-- A talk in a smaller language, as one in a larger: each question is taken up, and each answer
back down. -/
def within : Talk Q A ε α → Talk Q' A' ε α
  | done a => done a
  | failed e => failed e
  | ask q go => ask (i.up _ q) fun r => (go (i.down _ r)).within

/-- The talk of the smaller program in a talk of the larger one. -/
def Embedding.part (log : List (Said Q' A')) : List (Said Q A) := log.filterMap i.inner

/-- The smaller language's part of a log is taken stretch by stretch. -/
theorem Embedding.part_append (log log' : List (Said Q' A')) :
    i.part (log ++ log') = i.part log ++ i.part log' := List.filterMap_append

/-- What is specified of a program is specified of it inside a larger one. -/
theorem keeps_within {G' : List (Said Q' A') → (κ : K') → Q' κ → Prop}
    {past : List (Said Q' A')} (h : Keeps G (i.part past) p P E)
    (hG : ∀ now κ q, G (i.part now) κ q → G' now (i.kind κ) (i.up κ q)) :
    Keeps G' past (p.within i) (fun now a => P (i.part now) a) (fun now e => E (i.part now) e) := by
  induction p generalizing past with
  | done a => exact h
  | failed e => exact h
  | ask q go ih =>
      refine ⟨hG _ _ _ h.1, fun r => ih _ ?_⟩
      rw [i.part_append]
      have hpart : i.part [⟨i.up _ q, r⟩] = [⟨q, i.down _ r⟩] := by
        rw [Embedding.part, List.filterMap_cons_some (i.inner_up _ q r), List.filterMap_nil]
      rw [hpart]
      exact h.2 _

/-- A talk in the smaller language asks in the larger one what its questions become. -/
theorem Only.within {H' : (κ : K') → Q' κ → Prop} (h : Only H p)
    (hH : ∀ κ q, H κ q → H' (i.kind κ) (i.up κ q)) : Only H' (p.within i) := by
  induction p with
  | done a => trivial
  | failed e => trivial
  | ask q go ih => exact ⟨hH _ _ h.1, fun r => ih _ (h.2 _)⟩

/-- Two talks that are alike stay so within a larger one. -/
theorem Alike.within {V : (κ : K') → Q' κ → Q' κ → Prop} (h : Alike S R p p')
    (hS : ∀ κ q q', S κ q q' → V (i.kind κ) (i.up κ q) (i.up κ q')) :
    Alike V R (p.within i) (p'.within i) := by
  induction h with
  | done h => exact .done h
  | failed e => exact .failed e
  | ask hq _ ih => exact .ask (hS _ _ _ hq) fun r => ih _

end Inside

end Talk

end Talks
