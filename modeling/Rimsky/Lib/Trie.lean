import Mathlib.Data.List.Infix

/-!
# Tries

A tree of values whose branches are labelled, addressed by the labels on the way down. Values
that were never written are the default, so changing the value at one path leaves what is found
at all others.
-/

namespace Rimsky

section Assoc

variable {κ α : Type} [DecidableEq κ]

/-- The entry of a key is replaced where it is, or added. -/
def assocPut (k : κ) (a : α) : List (κ × α) → List (κ × α)
  | [] => [(k, a)]
  | entry :: rest => if entry.1 = k then (k, a) :: rest else entry :: assocPut k a rest

def assocGet? (k : κ) (entries : List (κ × α)) : Option α :=
  (entries.find? fun entry => entry.1 = k).map (·.2)

@[simp]
theorem assocGet?_put (k k' : κ) (a : α) (entries : List (κ × α)) :
    assocGet? k' (assocPut k a entries) = if k' = k then some a else assocGet? k' entries := by
  induction entries with
  | nil =>
    by_cases same : k' = k
    · simp [assocPut, assocGet?, same]
    · simp [assocPut, assocGet?, same, Ne.symm same]
  | cons entry rest ih =>
    unfold assocGet? at ih ⊢
    unfold assocPut
    by_cases here : entry.1 = k
    · rw [if_pos here]
      by_cases same : k' = k
      · simp [same]
      · simp [same, here, Ne.symm same]
    · rw [if_neg here]
      by_cases mine : entry.1 = k'
      · have other : k' ≠ k := fun same => here (mine.trans same)
        simp [mine, other]
      · simpa [List.find?_cons, mine] using ih

end Assoc

inductive Trie (κ β : Type) where
  | node (value : β) (children : List (κ × Trie κ β))

namespace Trie

variable {κ β : Type} [DecidableEq κ]

def value : Trie κ β → β
  | node value _ => value

def children : Trie κ β → List (κ × Trie κ β)
  | node _ children => children

def child? (k : κ) (t : Trie κ β) : Option (Trie κ β) := assocGet? k t.children

variable [Inhabited β]

instance : Inhabited (Trie κ β) := ⟨node default []⟩

/-- Change the value at a path, with the branches down to it. -/
def modify (f : β → β) : List κ → Trie κ β → Trie κ β
  | [], t => node (f t.value) t.children
  | k :: path, t => node t.value (assocPut k (modify f path ((t.child? k).getD default)) t.children)

def get : List κ → Trie κ β → β
  | [], t => t.value
  | k :: path, t => ((t.child? k).map (get path)).getD default

theorem get_default (path : List κ) : get path (default : Trie κ β) = default := by
  cases path <;> rfl

theorem get_cons (k : κ) (path : List κ) (t : Trie κ β) :
    get (k :: path) t = get path ((t.child? k).getD default) := by
  change ((t.child? k).map (get path)).getD default = _
  cases t.child? k with
  | none =>
    rw [Option.getD_none, get_default]
    rfl
  | some child => rfl

theorem get_modify (f : β → β) (path path' : List κ) (t : Trie κ β) :
    get path' (modify f path t) = if path' = path then f (get path t) else get path' t := by
  induction path generalizing path' t with
  | nil =>
    cases path' with
    | nil => rfl
    | cons k path' =>
      rfl
  | cons k path ih =>
    cases path' with
    | nil =>
      rfl
    | cons k' path' =>
      have child : (modify f (k :: path) t).child? k' =
          if k' = k then some (modify f path ((t.child? k).getD default)) else t.child? k' :=
        assocGet?_put k k' _ _
      rw [get_cons, child, get_cons k path]
      by_cases same : k' = k
      · rw [if_pos same, Option.getD_some, ih, same, ← get_cons k path']
        simp
      · rw [if_neg same, if_neg (by simp [same]), ← get_cons]

end Trie

end Rimsky
