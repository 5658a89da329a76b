import Mathlib.Data.List.Nodup

/-!
# Lists with a key

Rows of a table are found by their key. Where keys are distinct, what is in the list is what
is found.
-/

namespace Rimsky

open List

variable {α : Type} {κ : Type} {key : α → κ} {xs : List α}

theorem map_key_of_map {change : α → α} (sameKey : ∀ x, key (change x) = key x) :
    (xs.map change).map key = xs.map key := by
  rw [map_map]
  congr 1
  funext x
  exact sameKey x

theorem nodup_key_concat (distinct : (xs.map key).Nodup) {x : α} (fresh : ∀ y ∈ xs, key y ≠ key x) :
    ((xs ++ [x]).map key).Nodup := by
  rw [map_append, nodup_append_comm]
  refine nodup_cons.mpr ⟨fun old => ?_, distinct⟩
  rcases mem_map.mp old with ⟨y, mem, same⟩
  exact fresh y mem same

theorem map_fst_filterMap_sublist {β : Type} {pick : α → Option (κ × β)}
    (keyed : ∀ x, ∀ p ∈ pick x, p.1 = key x) (xs : List α) :
    ((xs.filterMap pick).map (·.1)).Sublist (xs.map key) := by
  induction xs with
  | nil => simp
  | cons x xs ih =>
    rw [filterMap_cons, map_cons]
    cases picked : pick x with
    | none => exact ih.cons _
    | some p =>
      rw [← keyed x p picked]
      exact ih.cons_cons _

variable [DecidableEq κ]

theorem find?_key (distinct : (xs.map key).Nodup) {x : α} (mem : x ∈ xs) :
    xs.find? (fun y => decide (key y = key x)) = some x := by
  cases found : xs.find? (fun y => decide (key y = key x)) with
  | none =>
    have absent := find?_eq_none.mp found x mem
    simp at absent
  | some y =>
    have same : key y = key x := by simpa using find?_some found
    rw [inj_on_of_nodup_map distinct (mem_of_find?_eq_some found) mem same]

theorem find?_key_map {change : α → α} (sameKey : ∀ x, key (change x) = key x) (k : κ) :
    (xs.map change).find? (fun y => decide (key y = k)) =
      (xs.find? (fun y => decide (key y = k))).map change := by
  rw [find?_map]
  congr 2
  funext y
  simp [sameKey]

theorem find?_filter_key (keep : κ → Bool) {k : κ} (kept : keep k) :
    (xs.filter fun x => keep (key x)).find? (fun y => decide (key y = k)) =
      xs.find? (fun y => decide (key y = k)) := by
  rw [find?_filter]
  congr 1
  funext y
  by_cases same : key y = k
  · simp [same, kept]
  · simp [same]

theorem find?_key_filter (distinct : (xs.map key).Nodup) (keep : α → Bool) (k : κ) :
    (xs.filter keep).find? (fun y => decide (key y = k)) =
      (xs.find? (fun y => decide (key y = k))).filter keep := by
  induction xs with
  | nil => rfl
  | cons x xs ih =>
    rw [map_cons, nodup_cons] at distinct
    by_cases this : key x = k
    · cases kept : keep x with
      | true => simp [kept, this, Option.filter]
      | false =>
        have none : xs.find? (fun y => decide (key y = k)) = none := by
          rw [find?_eq_none]
          intro y mem same
          refine distinct.1 (mem_map.mpr ⟨y, mem, ?_⟩)
          rw [this]
          exact of_decide_eq_true same
        rw [filter_cons_of_neg (by simp [kept]), ih distinct.2, none]
        simp [this, kept, Option.filter]
    · cases kept : keep x with
      | true => simp [kept, this, ih distinct.2]
      | false => simp [kept, this, ih distinct.2]

theorem find?_numbered {β : Type} (row : β → Nat → α) {xs : List β} {key : α → Nat}
    (numbered : ∀ x i, key (row x i) = i) {start : Nat} {x : β} {i : Nat}
    (mem : (x, i) ∈ xs.zipIdx start) :
    ((xs.zipIdx start).map fun entry => row entry.1 entry.2).find? (fun y => decide (key y = i)) =
      some (row x i) := by
  have keys : ((xs.zipIdx start).map fun entry => row entry.1 entry.2).map key =
      range' start xs.length := by
    rw [map_map, ← zipIdx_map_snd start xs]
    congr 1
    funext entry
    exact numbered entry.1 entry.2
  have distinct : (((xs.zipIdx start).map fun entry => row entry.1 entry.2).map key).Nodup := by
    rw [keys]
    exact nodup_range'
  have found := find?_key distinct (mem_map_of_mem mem)
  simpa only [numbered] using found

end Rimsky
