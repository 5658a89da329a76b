import Mathlib.Data.List.Nodup

/-!
# Queues that several parties serve

Tickets carry a number and the key of the queue they stand in. Several parties serve them, each
from a list it has taken at some time, and may serve a ticket more than once. The queue of a key
is in order if a ticket is served only after those of smaller number in its queue. A list that
was complete when it was taken, of which a party serves the tickets in order and leaves a queue
alone once it has passed over one of its tickets, keeps queues in order.
-/

namespace Rimsky

open List

structure Ticket (κ : Type) where
  seq : Nat
  key : κ
  deriving DecidableEq, Repr

section Fifo

variable {κ : Type} {published served : List (Ticket κ)}

/-- A ticket is served only once those before it in its queue are. -/
def ServedInOrder (published served : List (Ticket κ)) : Prop :=
  ∀ before t after, served = before ++ t :: after →
    ∀ u ∈ published, u.key = t.key → u.seq < t.seq → u ∈ before

/-- Every ticket of an open queue comes after those that are to be served before it. -/
def Ready (published served : List (Ticket κ)) (isOpen : κ → Prop) (rest : List (Ticket κ)) :
    Prop :=
  ∀ before t after, rest = before ++ t :: after → isOpen t.key →
    ∀ u ∈ published, u.key = t.key → u.seq < t.seq → u ∈ served ∨ u ∈ before

variable {t : Ticket κ}

theorem ServedInOrder.serve (inOrder : ServedInOrder published served)
    (first : ∀ u ∈ published, u.key = t.key → u.seq < t.seq → u ∈ served) :
    ServedInOrder published (served ++ [t]) := by
  intro before t' after split u mem sameKey smaller
  rcases eq_nil_or_concat after with rfl | ⟨after, last, rfl⟩
  · have ends := append_inj' split rfl
    cases ends.2
    rw [← ends.1]
    exact first u mem sameKey smaller
  · have ends : served = before ++ t' :: after ∧ [t] = [last] :=
      append_inj' (by simpa using split) rfl
    exact inOrder before t' after ends.1 u mem sameKey smaller

theorem ServedInOrder.publish (inOrder : ServedInOrder published served)
    (known : ∀ t ∈ served, t ∈ published) (latest : ∀ u ∈ published, u.key = t.key →
      u.seq < t.seq) :
    ServedInOrder (published ++ [t]) served := by
  intro before t' after split u mem sameKey smaller
  rcases mem_append.mp mem with old | new
  · exact inOrder before t' after split u old sameKey smaller
  · cases mem_singleton.mp new
    have older := latest t' (known t' (by simp [split])) sameKey.symm
    omega

namespace Ready

variable {isOpen : κ → Prop} {rest : List (Ticket κ)}

theorem nil : Ready published served isOpen [] := by
  intro before t after split
  simp at split

section

variable (ready : Ready published served isOpen (t :: rest))

include ready

theorem head (opened : isOpen t.key) :
    ∀ u ∈ published, u.key = t.key → u.seq < t.seq → u ∈ served := by
  intro u mem sameKey smaller
  simpa using ready [] t rest rfl opened u mem sameKey smaller

theorem served_head :
    Ready published (served ++ [t]) isOpen rest := by
  intro before t' after split opened u mem sameKey smaller
  have earlier := ready (t :: before) t' after (by rw [split, cons_append]) opened u mem
    sameKey smaller
  simp only [mem_append, mem_cons, not_mem_nil, or_false] at earlier ⊢
  tauto

theorem passed_head {isOpen' : κ → Prop} (fewer : ∀ key, isOpen' key → isOpen key)
    (closed : ¬isOpen' t.key) :
    Ready published served isOpen' rest := by
  intro before t' after split opened u mem sameKey smaller
  have earlier := ready (t :: before) t' after (by rw [split, cons_append]) (fewer _ opened) u mem
    sameKey smaller
  rcases earlier with done | here
  · exact .inl done
  · rcases mem_cons.mp here with rfl | here
    · exact absurd (sameKey ▸ opened) closed
    · exact .inr here

end

theorem serve (ready : Ready published served isOpen rest) (t : Ticket κ) :
    Ready published (served ++ [t]) isOpen rest := by
  intro before t' after split opened u mem sameKey smaller
  rcases ready before t' after split opened u mem sameKey smaller with done | here
  · exact .inl (mem_append_left _ done)
  · exact .inr here

theorem publish (ready : Ready published served isOpen rest) (known : ∀ t ∈ rest, t ∈ published)
    (latest : ∀ u ∈ published, u.key = t.key → u.seq < t.seq) :
    Ready (published ++ [t]) served isOpen rest := by
  intro before t' after split opened u mem sameKey smaller
  rcases mem_append.mp mem with old | new
  · exact ready before t' after split opened u old sameKey smaller
  · cases mem_singleton.mp new
    have older := latest t' (known t' (by simp [split])) sameKey.symm
    omega

theorem of_sorted (picked : κ → Bool) (sorted : rest.Pairwise fun t u => t.seq ≤ u.seq)
    (complete : ∀ t ∈ published, t ∈ served ∨ (picked t.key → t ∈ rest))
    (only : ∀ t ∈ rest, picked t.key) : Ready published served isOpen rest := by
  intro before t after split _ u mem sameKey smaller
  have fits : picked u.key := by
    rw [sameKey]
    exact only t (by simp [split])
  rcases complete u mem with done | here
  · exact .inl done
  · right
    have inside := here fits
    rw [split] at inside sorted
    rcases mem_append.mp inside with before | later
    · exact before
    · rcases mem_cons.mp later with rfl | later
      · omega
      · have le := (pairwise_cons.mp (pairwise_append.mp sorted).2.1).1 u later
        omega

end Ready

end Fifo

end Rimsky
