import Mathlib.Order.Defs.Unbundled

/-!
# Transactions over a store

A transaction reads and writes a store and may fail. A failing statement keeps
what was written before it: code that swallows the error goes on from there, and
only the outermost `commit` undoes the writes of a transaction that failed.

Two kinds of facts are stated about transactions.

* `Steps R m`: whatever `m` does, succeed or fail, it takes the store along the
  relation `R`. For a preorder this is closed under every way of composing
  transactions, so it is proved once for the statements that write and then
  holds of every program made of them. An invariant `I` is the preorder
  `fun s s' => I s → I s'`.
* `Succeeds I m`: in a store where `I` holds, `m` succeeds and `I` holds after it.
-/

namespace Rimsky

/-- A transaction over stores of type `σ` with errors of type `ε`. -/
def Transaction (ε σ α : Type) : Type := σ → Except ε α × σ

namespace Transaction

variable {ε σ α β : Type}

protected def pure (a : α) : Transaction ε σ α := fun s => (.ok a, s)

protected def bind (m : Transaction ε σ α) (f : α → Transaction ε σ β) : Transaction ε σ β :=
  fun s =>
    match m s with
    | (.ok a, s') => f a s'
    | (.error e, s') => (.error e, s')

instance : Monad (Transaction ε σ) where
  pure := Transaction.pure
  bind := Transaction.bind

instance : LawfulMonad (Transaction ε σ) := by
  refine LawfulMonad.mk' _ ?_ (fun _ _ => rfl) ?_
  · intro α m
    funext s
    change Transaction.bind m Transaction.pure s = m s
    unfold Transaction.bind
    split
    case h_1 run => exact run.symm
    case h_2 run => exact run.symm
  · intro α β γ m f g
    funext s
    change Transaction.bind (Transaction.bind m f) g s =
      Transaction.bind m (fun a => Transaction.bind (f a) g) s
    unfold Transaction.bind
    cases run : m s with
    | mk result mid => cases result <;> rfl

def read (f : σ → α) : Transaction ε σ α := fun s => (.ok (f s), s)

def write (f : σ → σ) : Transaction ε σ Unit := fun s => (.ok (), f s)

def fail (e : ε) : Transaction ε σ α := fun s => (.error e, s)

/-- The value of an optional row, or the error of not finding it. -/
def need (e : ε) : Option α → Transaction ε σ α
  | some a => pure a
  | none => fail e

/-- Run `m` and hand its outcome over, error or not. -/
def attempt (m : Transaction ε σ α) : Transaction ε σ (Except ε α) :=
  fun s => (.ok (m s).1, (m s).2)

/-- Run `m`; log its error and go on, as the code does where it only warns. -/
def swallow (m : Transaction ε σ Unit) : Transaction ε σ Unit :=
  fun s => (.ok (), (m s).2)

/-- The outermost transaction: all of `m`, or none of it. -/
def commit (m : Transaction ε σ α) (s : σ) : Except ε α × σ :=
  match m s with
  | (.ok a, s') => (.ok a, s')
  | (.error e, _) => (.error e, s)

variable {m n : Transaction ε σ α} {f : α → Transaction ε σ β} {s s' : σ}

@[simp]
theorem pure_apply (a : α) (s : σ) : (pure a : Transaction ε σ α) s = (.ok a, s) := rfl

theorem bind_apply (m : Transaction ε σ α) (f : α → Transaction ε σ β) (s : σ) :
    (m >>= f) s = match m s with
      | (.ok a, s') => f a s'
      | (.error e, s') => (.error e, s') := rfl

@[simp]
theorem read_apply (f : σ → α) (s : σ) : (read f : Transaction ε σ α) s = (.ok (f s), s) := rfl

@[simp]
theorem write_apply (f : σ → σ) (s : σ) :
    (write f : Transaction ε σ Unit) s = (.ok (), f s) := rfl

@[simp]
theorem fail_apply (e : ε) (s : σ) : (fail e : Transaction ε σ α) s = (.error e, s) := rfl

@[simp]
theorem attempt_apply (m : Transaction ε σ α) (s : σ) :
    attempt m s = (.ok (m s).1, (m s).2) := rfl

variable {a : α}

theorem bind_of_ok (run : m s = (.ok a, s')) : (m >>= f) s = f a s' := by
  simp [bind_apply, run]

theorem bind_of_error {e : ε} (run : m s = (.error e, s')) : (m >>= f) s = (.error e, s') := by
  simp [bind_apply, run]

@[simp]
theorem read_bind (f : σ → α) (k : α → Transaction ε σ β) (s : σ) :
    (read f >>= k) s = k (f s) s := rfl

@[simp]
theorem pure_bind (a : α) (k : α → Transaction ε σ β) (s : σ) :
    (pure a >>= k) s = k a s := rfl

@[simp]
theorem write_bind (f : σ → σ) (k : Unit → Transaction ε σ β) (s : σ) :
    (write f >>= k) s = k () (f s) := rfl

@[simp]
theorem fail_bind (e : ε) (k : α → Transaction ε σ β) (s : σ) :
    (fail e >>= k) s = (.error e, s) := rfl

@[simp]
theorem need_some (e : ε) (a : α) : (need e (some a) : Transaction ε σ α) = pure a := rfl

variable {b : β}

theorem bind_eq_ok :
    (m >>= f) s = (.ok b, s') ↔ ∃ a mid, m s = (.ok a, mid) ∧ f a mid = (.ok b, s') := by
  constructor
  · intro run
    rw [bind_apply] at run
    split at run
    case h_1 a mid first => exact ⟨a, mid, first, run⟩
    case h_2 => simp at run
  · rintro ⟨a, mid, first, second⟩
    rw [bind_of_ok first, second]

variable {p : Prop}

theorem branch_eq_ok [Decidable p] {k : α → Transaction ε σ β}
    (run : (if p then m >>= k else n >>= k) s = (.ok b, s')) :
    ∃ a mid, (if p then m else n) s = (.ok a, mid) ∧ k a mid = (.ok b, s') := by
  by_cases holds : p
  · simp only [if_pos holds] at run ⊢
    exact bind_eq_ok.mp run
  · simp only [if_neg holds] at run ⊢
    exact bind_eq_ok.mp run

variable {R : σ → σ → Prop} {xs : List α} {init : β}

theorem foldlM_runs [IsPreorder σ R] {I : List α → σ → Prop} {f : β → α → Transaction ε σ β}
    (each : ∀ acc x xs s acc' s', I (x :: xs) s → f acc x s = (.ok acc', s') → I xs s' ∧ R s s')
    {acc : β} (start : I xs s) (run : xs.foldlM f init s = (.ok acc, s')) : I [] s' ∧ R s s' := by
  induction xs generalizing init s with
  | nil =>
    cases run
    exact ⟨start, refl _⟩
  | cons x xs ih =>
    rcases bind_eq_ok.mp run with ⟨next, mid, first, rest⟩
    rcases each init x xs s next mid start first with ⟨holds, step⟩
    rcases ih holds rest with ⟨done, steps⟩
    exact ⟨done, IsTrans.trans _ _ _ step steps⟩

theorem bind_agree {m m' : Transaction ε σ α} {f f' : α → Transaction ε σ β} (first : m s = m' s)
    (rest : ∀ a mid, m s = (.ok a, mid) → f a mid = f' a mid) :
    (m >>= f) s = (m' >>= f') s := by
  rw [bind_apply, bind_apply, ← first]
  cases ran : m s with
  | mk outcome mid =>
    cases outcome with
    | ok a => exact rest a mid ran
    | error e => rfl

theorem branch_agree [Decidable p] {m m' n : Transaction ε σ α} {f f' : α → Transaction ε σ β}
    (first : p → m s = m' s) (rest : ∀ a mid, (if p then m else n) s = (.ok a, mid) →
      f a mid = f' a mid) :
    (if p then m >>= f else n >>= f) s = (if p then m' >>= f' else n >>= f') s := by
  by_cases holds : p
  · simp only [if_pos holds] at rest ⊢
    exact bind_agree (first holds) rest
  · simp only [if_neg holds] at rest ⊢
    exact bind_agree rfl rest

theorem foldlM_agree {I : List α → σ → Prop} {f f' : β → α → Transaction ε σ β}
    (each : ∀ acc x xs s, I (x :: xs) s → f acc x s = f' acc x s ∧
      ∀ acc' s', f acc x s = (.ok acc', s') → I xs s')
    (start : I xs s) :
    xs.foldlM f init s = xs.foldlM f' init s := by
  induction xs generalizing init s with
  | nil => rfl
  | cons x xs ih =>
    rcases each init x xs s start with ⟨first, rest⟩
    refine bind_agree first fun acc mid ran => ?_
    exact ih (rest acc mid ran)

theorem forM_ok {f : α → Transaction ε σ PUnit} (each : ∀ x ∈ xs, ∀ s, ∃ s', f x s = (.ok ⟨⟩, s'))
    (s : σ) :
    ∃ s', xs.forM f s = (.ok ⟨⟩, s') := by
  induction xs generalizing s with
  | nil => exact ⟨s, rfl⟩
  | cons x xs ih =>
    rcases each x (by simp) s with ⟨mid, first⟩
    rcases ih (fun y mem => each y (by simp [mem])) mid with ⟨s', rest⟩
    exact ⟨s', (bind_of_ok first).trans rest⟩

theorem commit_of_ok (run : m s = (.ok a, s')) :
    commit m s = (.ok a, s') := by
  unfold commit
  rw [run]

theorem commit_eq_ok (done : commit m s = (.ok a, s')) : m s = (.ok a, s') := by
  unfold commit at done
  split at done
  case h_1 run => exact run.trans done
  case h_2 => cases done

theorem exists_ok_of_isOk (ok : (m s).1.isOk) :
    ∃ a, m s = (.ok a, (m s).2) := by
  rcases run : m s with ⟨outcome, s'⟩
  rw [run] at ok
  cases outcome with
  | error e => cases ok
  | ok a => exact ⟨a, rfl⟩

theorem bind_store (reads : ∀ a s, (f a s).2 = s) (s : σ) : ((m >>= f) s).2 = (m s).2 := by
  rw [bind_apply]
  split
  case h_1 run => rw [run, reads]
  case h_2 run => rw [run]

theorem bind_pure_store (m : Transaction ε σ α) (f : α → β) (s : σ) :
    ((m >>= fun a => pure (f a)) s).2 = (m s).2 :=
  bind_store (fun _ _ => rfl) s

theorem commit_store (m : Transaction ε σ α) (s : σ) :
    (commit m s).2 = s ∨ (commit m s).2 = (m s).2 := by
  unfold commit
  split
  case h_1 run => exact .inr (by rw [run])
  case h_2 run => exact .inl rfl

/-- Every run of `m`, successful or not, takes the store along `R`. -/
def Steps (R : σ → σ → Prop) (m : Transaction ε σ α) : Prop := ∀ s, R s (m s).2

theorem Steps.run (step : Steps R m) {result : Except ε α} (run : m s = (result, s')) : R s s' := by
  have along := step s
  rwa [run] at along

theorem bind_reads_eq_ok (reads : Steps Eq m) (run : (m >>= f) s = (.ok b, s')) :
    ∃ a, m s = (.ok a, s) ∧ f a s = (.ok b, s') := by
  rcases bind_eq_ok.mp run with ⟨a, mid, first, rest⟩
  have same : s = mid := reads.run first
  subst same
  exact ⟨a, first, rest⟩

theorem steps_mono {R' : σ → σ → Prop} (step : Steps R m) (weaker : ∀ s s', R s s' → R' s s') :
    Steps R' m := fun s => weaker _ _ (step s)

theorem steps_read_bind {g : σ → α} (rest : ∀ s, R s (f (g s) s).2) : Steps R (read g >>= f) := rest

theorem steps_write {f : σ → σ} (step : ∀ s, R s (f s)) :
    Steps R (write f : Transaction ε σ Unit) := step

theorem steps_attempt (step : Steps R m) :
    Steps R (attempt m) := step

theorem steps_ite [Decidable p] (whenTrue : p → Steps R m) (whenFalse : ¬p → Steps R n) :
    Steps R (if p then m else n) := by
  split
  case isTrue holds => exact whenTrue holds
  case isFalse fails => exact whenFalse fails

section Steps

variable {R : σ → σ → Prop} [IsPreorder σ R]

theorem steps_pure (a : α) : Steps R (pure a : Transaction ε σ α) := fun s => refl s

theorem steps_read (f : σ → α) : Steps R (read f : Transaction ε σ α) := fun s => refl s

theorem steps_fail (e : ε) : Steps R (fail e : Transaction ε σ α) := fun s => refl s

theorem steps_need (e : ε) (a : Option α) : Steps R (need e a : Transaction ε σ α) := by
  cases a with
  | none => exact steps_fail e
  | some a => exact steps_pure a

theorem steps_bind_at (first : Steps R m) (rest : ∀ s a mid, m s = (.ok a, mid) →
    R mid (f a mid).2) :
    Steps R (m >>= f) := by
  intro s
  have step := first s
  rw [bind_apply]
  split
  case h_1 a mid run =>
    rw [run] at step
    exact IsTrans.trans _ _ _ step (rest s a mid run)
  case h_2 e mid run =>
    rw [run] at step
    exact step

theorem steps_bind (first : Steps R m) (rest : ∀ a, Steps R (f a)) : Steps R (m >>= f) :=
  steps_bind_at first fun _ a mid _ => rest a mid

theorem steps_reads {f : σ → α} {k : α → Transaction ε σ β} (rest : ∀ a, Steps R (k a)) :
    Steps R (read f >>= k) := steps_bind (steps_read f) rest

theorem steps_check [Decidable p] {e : ε} (rest : ¬p → Steps R m) :
    Steps R (if p then fail e else m) := steps_ite (fun _ => steps_fail e) rest

theorem steps_unless [Decidable p] (rest : ¬p → Steps R m) :
    Steps R (if p then pure a else m) := steps_ite (fun _ => steps_pure a) rest

theorem steps_bind_from (first : R s (m s).2) (rest : ∀ a, Steps R (f a)) :
    R s ((m >>= f) s).2 := by
  rw [bind_apply]
  split
  case h_1 a mid run =>
    rw [run] at first
    exact IsTrans.trans _ _ _ first (rest a mid)
  case h_2 e mid run =>
    rw [run] at first
    exact first

theorem steps_guarded [Decidable p] {m : Transaction ε σ Unit} {k : Unit → Transaction ε σ β}
    (guarded : p → Steps R m) (rest : ∀ u, Steps R (k u)) :
    Steps R (if p then m >>= k else k ()) :=
  steps_ite (fun holds => steps_bind (guarded holds) rest) fun _ => rest ()

theorem steps_forM {f : α → Transaction ε σ PUnit} (each : ∀ x ∈ xs, Steps R (f x)) :
    Steps R (xs.forM f) := by
  induction xs with
  | nil => exact steps_pure _
  | cons x xs ih =>
    exact steps_bind (each x (by simp)) fun _ => ih fun y mem => each y (by simp [mem])

theorem steps_mapM (each : ∀ x ∈ xs, Steps R (f x)) : Steps R (xs.mapM f) := by
  induction xs with
  | nil =>
    exact steps_pure _
  | cons x xs ih =>
    rw [List.mapM_cons]
    refine steps_bind (each x (by simp)) fun b => ?_
    exact steps_bind (ih fun y mem => each y (by simp [mem])) fun bs => steps_pure _

theorem steps_foldlM {f : β → α → Transaction ε σ β} (each : ∀ acc, ∀ x ∈ xs, Steps R (f acc x)) :
    Steps R (xs.foldlM f init) := by
  induction xs generalizing init with
  | nil => exact steps_pure _
  | cons x xs ih =>
    exact steps_bind (each init x (by simp)) fun acc =>
      ih fun acc y mem => each acc y (by simp [mem])

theorem steps_commit (step : Steps R m) (s : σ) : R s (commit m s).2 := by
  have along := step s
  unfold commit
  split
  case h_1 run => rwa [run] at along
  case h_2 => exact refl s

end Steps

/-- Where `I` holds, `m` succeeds and `I` still holds. -/
def Succeeds (I : σ → Prop) (m : Transaction ε σ Unit) : Prop :=
  ∀ s, I s → ∃ s', m s = (.ok (), s') ∧ I s'

section Succeeds

variable {I : σ → Prop} {m n : Transaction ε σ Unit}

theorem succeeds_pure : Succeeds I (pure () : Transaction ε σ Unit) :=
  fun s holds => ⟨s, rfl, holds⟩

theorem succeeds_bind (first : Succeeds I m) (second : Succeeds I n) :
    Succeeds I (m >>= fun _ => n) := by
  intro s holds
  rcases first s holds with ⟨mid, run, holds⟩
  rcases second mid holds with ⟨s', rest, holds⟩
  exact ⟨s', by rw [bind_of_ok run, rest], holds⟩

theorem succeeds_guarded [Decidable p] (guarded : p → Succeeds I m) (rest : Succeeds I n) :
    Succeeds I (if p then m >>= fun _ => n else n) := by
  split
  case isTrue holds => exact succeeds_bind (guarded holds) rest
  case isFalse => exact rest

end Succeeds

end Transaction

end Rimsky
