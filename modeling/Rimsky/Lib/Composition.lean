import Rimsky.Lib.Transaction

/-!
# Properties of transactions that compose

A property of transactions composes if it holds of reading, returning and failing, and of every
composite of transactions it holds of. What is proved of the statements of a program then holds
of the program, whatever the property says. Besides `Steps` one property of this kind is used:
`Avoids I bad m` says that where `I` holds it still holds after `m`, and that `m` does not fail
with a bad error.
-/

namespace Rimsky

namespace Transaction

variable {ε σ α β : Type}

/-- A property of transactions that composes; it has to hold of failing with allowed errors only. -/
structure Composes (allowed : ε → Prop) (T : ∀ {α : Type}, Transaction ε σ α → Prop) : Prop where
  value : ∀ {α : Type} (a : α), T (pure a : Transaction ε σ α)
  reads : ∀ {α : Type} (f : σ → α), T (read f : Transaction ε σ α)
  fails : ∀ {α : Type} {e : ε}, allowed e → T (fail e : Transaction ε σ α)
  chain : ∀ {α β : Type} {m : Transaction ε σ α} {f : α → Transaction ε σ β},
    T m → (∀ a, T (f a)) → T (m >>= f)

variable {m : Transaction ε σ α}

section Programs

variable {allowed : ε → Prop} {T : ∀ {α : Type}, Transaction ε σ α → Prop}

namespace Composes

variable {p : Prop}

theorem ite [Decidable p] {n : Transaction ε σ α} (whenTrue : p → T m) (whenFalse : ¬p → T n) :
    T (if p then m else n) := by
  split
  case isTrue holds => exact whenTrue holds
  case isFalse fails => exact whenFalse fails

variable (c : Composes allowed T)

include c

theorem reading {f : σ → α} {k : α → Transaction ε σ β} (rest : ∀ a, T (k a)) : T (read f >>= k) :=
  c.chain (c.reads f) rest

theorem skips [Decidable p] {a : α} (rest : ¬p → T m) :
    T (if p then pure a else m) := ite (fun _ => c.value a) rest

theorem needs {e : ε} (may : allowed e) (a : Option α) : T (need e a : Transaction ε σ α) := by
  cases a with
  | none => exact c.fails may
  | some a => exact c.value a

theorem guarded [Decidable p] {m : Transaction ε σ Unit} {k : Unit → Transaction ε σ β}
    (guard : p → T m) (rest : ∀ u, T (k u)) :
    T (if p then m >>= k else k ()) :=
  ite (fun holds => c.chain (guard holds) rest) fun _ => rest ()

theorem branch [Decidable p] {n : Transaction ε σ α} {k : α → Transaction ε σ β}
    (whenTrue : p → T m) (whenFalse : ¬p → T n) (rest : ∀ a, T (k a)) :
    T (if p then m >>= k else n >>= k) :=
  ite (fun holds => c.chain (whenTrue holds) rest) fun fails => c.chain (whenFalse fails) rest

theorem forM {xs : List α} {f : α → Transaction ε σ PUnit} (each : ∀ x ∈ xs, T (f x)) :
    T (xs.forM f) := by
  induction xs with
  | nil => exact c.value _
  | cons x xs ih => exact c.chain (each x (by simp)) fun _ => ih fun y mem => each y (by simp [mem])

theorem foldlM {xs : List α} {f : β → α → Transaction ε σ β} {init : β}
    (each : ∀ acc, ∀ x ∈ xs, T (f acc x)) : T (xs.foldlM f init) := by
  induction xs generalizing init with
  | nil => exact c.value _
  | cons x xs ih =>
    exact c.chain (each init x (by simp)) fun acc =>
      ih fun acc y mem => each acc y (by simp [mem])

end Composes

end Programs

theorem steps_composes (R : σ → σ → Prop) [IsPreorder σ R] (allowed : ε → Prop) :
    Composes allowed fun {_} (m : Transaction ε σ _) => Steps R m where
  value := steps_pure
  reads := steps_read
  fails _ := steps_fail _
  chain := steps_bind

/-- Where `I` holds it holds after `m`, and `m` does not fail with a bad error. -/
def Avoids (I : σ → Prop) (bad : ε → Prop) (m : Transaction ε σ α) : Prop :=
  ∀ s, I s → I (m s).2 ∧ ∀ e, (m s).1 = .error e → ¬ bad e

theorem avoids_bind {I : σ → Prop} {bad : ε → Prop} {f : α → Transaction ε σ β}
    (first : Avoids I bad m) (rest : ∀ a, Avoids I bad (f a)) :
    Avoids I bad (m >>= f) := by
  intro s holds
  have here := first s holds
  rw [bind_apply]
  split
  case h_1 a mid run =>
    rw [run] at here
    exact rest a mid here.1
  case h_2 e mid run =>
    rw [run] at here
    refine ⟨here.1, ?_⟩
    rintro e' ⟨⟩
    exact here.2 e rfl

theorem avoids_attempt_bind {I : σ → Prop} {bad : ε → Prop} {f : Except ε α → Transaction ε σ β}
    (first : Avoids I bad m)
    (rest : ∀ outcome, (∀ e, outcome = .error e → ¬ bad e) → Avoids I bad (f outcome)) :
    Avoids I bad (attempt m >>= f) :=
  fun s holds => rest (m s).1 (first s holds).2 (m s).2 (first s holds).1

theorem avoids_composes (I : σ → Prop) (bad : ε → Prop) :
    Composes (fun e => ¬ bad e) fun {_} (m : Transaction ε σ _) => Avoids I bad m where
  value _ s holds := ⟨holds, by simp⟩
  reads _ s holds := ⟨holds, by simp⟩
  fails may s holds := by
    refine ⟨holds, ?_⟩
    rintro e' ⟨⟩
    exact may
  chain := avoids_bind

end Transaction

end Rimsky
