import Mathlib.Data.List.Perm.Subperm

/-!
# Searching a graph by a work list

A vertex is taken from the list, and its neighbours that were not met before are met and put at
the end of the list. In a finite graph each vertex is put there once, so that as many rounds as
there are vertices reach all that can be reached.
-/

namespace Rimsky

open List

section Worklist

variable {α : Type} [DecidableEq α] (next : α → List α)

/-- A neighbour, with what is met and what is queued. -/
def meet (found : List α × List α) (neighbour : α) : List α × List α :=
  if neighbour ∈ found.1 then found else (found.1 ++ [neighbour], found.2 ++ [neighbour])

def spread : Nat → List α → List α → List α
  | _, met, [] => met
  | 0, met, _ => met
  | rounds + 1, met, head :: queue =>
    let found := (next head).foldl meet (met, queue)
    spread rounds found.1 found.2

theorem foldl_meet (neighbours met queue : List α) : ∃ new,
    neighbours.foldl meet (met, queue) = (met ++ new, queue ++ new) ∧
      (∀ y ∈ new, y ∈ neighbours) ∧ (∀ y ∈ neighbours, y ∈ met ++ new) ∧
      (met.Nodup → (met ++ new).Nodup) := by
  induction neighbours generalizing met queue with
  | nil => exact ⟨[], by simp⟩
  | cons n neighbours ih =>
    rw [foldl_cons, meet]
    split
    case isTrue known =>
      rcases ih met queue with ⟨new, run, among, all, nodup⟩
      refine ⟨new, run, fun y mem => mem_cons_of_mem _ (among y mem), fun y mem => ?_, nodup⟩
      rcases mem_cons.mp mem with rfl | mem
      · exact mem_append_left _ known
      · exact all y mem
    case isFalse unknown =>
      rcases ih (met ++ [n]) (queue ++ [n]) with ⟨new, run, among, all, nodup⟩
      rw [append_assoc, singleton_append] at all nodup
      refine ⟨n :: new, by simpa using run, fun y mem => ?_, fun y mem => ?_, fun old => nodup ?_⟩
      · rcases mem_cons.mp mem with rfl | mem
        · exact mem_cons_self
        · exact mem_cons_of_mem _ (among y mem)
      · rcases mem_cons.mp mem with rfl | mem
        · exact mem_append_right _ mem_cons_self
        · exact all y mem
      · exact nodup_append.mpr ⟨old, by simp, by rintro x mem _ last rfl; simp_all⟩

/-- What is met can be reached, and only the neighbours of what is queued are yet to be met. -/
structure Searching (start : α) (met queue : List α) : Prop where
  begun : start ∈ met
  reached : ∀ x ∈ met, Relation.ReflTransGen (fun a b => b ∈ next a) start x
  queued : ∀ x ∈ queue, x ∈ met
  settled : ∀ x ∈ met, x ∉ queue → ∀ y ∈ next x, y ∈ met

variable {next} {start : α} {met : List α}

theorem Searching.step {head : α} {queue new : List α}
    (search : Searching next start met (head :: queue)) (among : ∀ y ∈ new, y ∈ next head)
    (all : ∀ y ∈ next head, y ∈ met ++ new) : Searching next start (met ++ new) (queue ++ new) where
  begun := mem_append_left _ search.begun
  reached x mem := by
    rcases mem_append.mp mem with old | fresh
    · exact search.reached x old
    · exact (search.reached head (search.queued head (by simp))).tail (among x fresh)
  queued x mem := by
    rcases mem_append.mp mem with old | fresh
    · exact mem_append_left _ (search.queued x (mem_cons_of_mem _ old))
    · exact mem_append_right _ fresh
  settled x mem done y edge := by
    rw [mem_append, not_or] at done
    by_cases here : x = head
    · exact all y (here ▸ edge)
    · have old := (mem_append.mp mem).resolve_right done.2
      exact mem_append_left _ (search.settled x old (by simp [here, done.1]) y edge)

variable {x : α}

omit [DecidableEq α] in
theorem Searching.mem_iff (search : Searching next start met []) :
    x ∈ met ↔ Relation.ReflTransGen (fun a b => b ∈ next a) start x := by
  refine ⟨search.reached x, fun path => ?_⟩
  induction path with
  | refl => exact search.begun
  | tail _ edge ih => exact search.settled _ ih (by simp) _ edge

theorem mem_spread {domain : List α} (inside : ∀ x ∈ domain, ∀ y ∈ next x, y ∈ domain)
    {rounds : Nat} {queue : List α} (search : Searching next start met queue) (nodup : met.Nodup)
    (within : ∀ x ∈ met, x ∈ domain) (enough : queue.length + domain.length ≤ rounds + met.length) :
    x ∈ spread next rounds met queue ↔
      Relation.ReflTransGen (fun a b => b ∈ next a) start x := by
  induction rounds generalizing met queue with
  | zero =>
    have bound := (subperm_of_subset nodup within).length_le
    cases queue with
    | nil => exact search.mem_iff
    | cons => simp only [length_cons] at enough; omega
  | succ rounds ih =>
    cases queue with
    | nil => exact search.mem_iff
    | cons head queue =>
      rcases foldl_meet (next head) met queue with ⟨new, run, among, all, distinct⟩
      rw [spread, run]
      refine ih (search.step among all) (distinct nodup) (fun y mem => ?_) ?_
      · rcases mem_append.mp mem with old | fresh
        · exact within y old
        · exact inside head (within head (search.queued head (by simp))) y (among y fresh)
      · simp only [length_append, length_cons] at enough ⊢
        omega

theorem mem_spread_start {domain : List α} (inside : ∀ x ∈ domain, ∀ y ∈ next x, y ∈ domain)
    (mem : start ∈ domain) :
    x ∈ spread next domain.length [start] [start] ↔
      Relation.ReflTransGen (fun a b => b ∈ next a) start x := by
  refine mem_spread inside ⟨by simp, fun x same => ?_, fun _ queued => queued, ?_⟩ (by simp)
    (by simpa using mem) (by simp [Nat.add_comm])
  · rw [mem_singleton.mp same]
  · exact fun _ mem none => absurd mem none

end Worklist

end Rimsky
