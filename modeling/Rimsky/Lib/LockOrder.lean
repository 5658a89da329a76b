import Mathlib.Data.List.Sort

/-!
# Locks taken in a common order

A stable sort leaves elements that it does not tell apart in the order in which they came.
Parties that take their locks one after another, each in the order of a key that tells all locks
apart, never wait for one another in a circle.
-/

namespace Rimsky

open List

section Stable

variable {α : Type} {r : α → α → Prop} [DecidableRel r] {p : α → Bool}
  (tied : ∀ a b, p a → p b → r a b)

include tied

theorem filter_orderedInsert (a : α) (l : List α) :
    (l.orderedInsert r a).filter p = (a :: l).filter p := by
  induction l with
  | nil => rfl
  | cons b l ih =>
    by_cases before : r a b
    · rw [orderedInsert_cons_of_le _ l before]
    · rw [orderedInsert_of_not_le _ l before, filter_cons, ih]
      cases fits : p a with
      | false => simp [fits, filter_cons]
      | true =>
        have other : p b = false := by
          by_contra holds
          exact before (tied a b fits (by simpa using holds))
        simp [fits, other]

theorem filter_insertionSort (l : List α) : (l.insertionSort r).filter p = l.filter p := by
  induction l with
  | nil => rfl
  | cons a l ih =>
    rw [insertionSort_cons, filter_orderedInsert tied, filter_cons, filter_cons, ih]

theorem pair_sublist_insertionSort_iff {a b : α} (fits : p a) (fits' : p b) (l : List α) :
    [a, b].Sublist (l.insertionSort r) ↔ [a, b].Sublist l := by
  have pair : [a, b].filter p = [a, b] := by simp [fits, fits']
  have among : ∀ l : List α, [a, b].Sublist l ↔ [a, b].Sublist (l.filter p) := by
    intro l
    refine ⟨fun sub => ?_, fun sub => sub.trans filter_sublist⟩
    have filtered := sub.filter p
    rwa [pair] at filtered
  rw [among (l.insertionSort r), filter_insertionSort tied, ← among]

end Stable

section Waiting

variable {ι ρ : Type}

def Holds (locks : ι → List ρ) (taken : ι → Nat) (i : ι) (x : ρ) : Prop :=
  x ∈ (locks i).take (taken i)

def Wants (locks : ι → List ρ) (taken : ι → Nat) (i : ι) (x : ρ) : Prop :=
  (locks i)[taken i]? = some x

def WaitsFor (locks : ι → List ρ) (taken : ι → Nat) (i j : ι) : Prop :=
  i ≠ j ∧ ∃ x, Wants locks taken i x ∧ Holds locks taken j x

variable {locks : ι → List ρ} {taken : ι → Nat}

theorem Holds.related {R : ρ → ρ → Prop} {i : ι} (ordered : (locks i).Pairwise R) {x y : ρ}
    (held : Holds locks taken i x) (wanted : Wants locks taken i y) : R x y := by
  rcases mem_take_iff_getElem.mp held with ⟨n, below, rfl⟩
  rcases List.getElem?_eq_some_iff.mp wanted with ⟨inside, rfl⟩
  exact pairwise_iff_getElem.mp ordered n (taken i) _ _ (by omega)

variable {κ : Type} [PartialOrder κ] (key : ρ → κ)
  (ordered : ∀ i, (locks i).Pairwise fun x y => key x ≤ key y)

include ordered

theorem le_of_waits {i j : ι} (waits : Relation.TransGen (WaitsFor locks taken) i j) :
    ∃ x z, Wants locks taken i x ∧ Holds locks taken j z ∧ key x ≤ key z := by
  induction waits with
  | single wait =>
    rcases wait with ⟨-, x, wanted, held⟩
    exact ⟨x, x, wanted, held, le_refl _⟩
  | tail _ wait ih =>
    rcases ih with ⟨x, z, wanted, held, le⟩
    rcases wait with ⟨-, y, wantedNext, heldNext⟩
    exact ⟨x, y, wanted, heldNext, le.trans (held.related (ordered _) wantedNext)⟩

theorem not_waits_in_circle (apart : ∀ i j, ∀ x ∈ locks i, ∀ y ∈ locks j, key x = key y → x = y)
    (exclusive : ∀ i j x, Holds locks taken i x → Holds locks taken j x → i = j) (i : ι) :
    ¬Relation.TransGen (WaitsFor locks taken) i i := by
  intro circle
  rcases le_of_waits key ordered circle with ⟨x, z, wanted, held, le⟩
  have ge : key z ≤ key x := held.related (ordered i) wanted
  have mem : x ∈ locks i := mem_of_getElem? wanted
  have same : x = z := apart i i x mem z (mem_of_mem_take held) (le_antisymm le ge)
  subst same
  -- The lock that starts the circle is held by the party itself, so by no other.
  rcases Relation.TransGen.head'_iff.mp circle with ⟨j, ⟨distinct, y, wanted', held'⟩, -⟩
  have same : x = y := Option.some.inj (wanted.symm.trans wanted')
  subst same
  exact distinct (exclusive i j x held held')

end Waiting

end Rimsky
