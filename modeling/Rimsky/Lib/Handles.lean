import Mathlib.Data.Option.Basic
import Mathlib.Logic.Function.Basic

/-!
# Contents kept under handles

Owners refer to contents by handles that are allotted once each. A handle that an owner gives up
is enrolled as an orphan, and the content of an orphan may be reaped. Two things are to be kept:
no owner loses its content, and no content is lost sight of.
-/

namespace Rimsky

open Function List

structure Orphan where
  handle : Nat
  reapAfter : Nat
  deriving DecidableEq, Repr

structure Handles (ω β : Type) where
  ref : ω → Option Nat := fun _ => none
  content : Nat → Option β := fun _ => none
  orphans : List Orphan := []
  next : Nat := 0

namespace Handles

variable {ω β : Type}

def read (h : Handles ω β) (o : ω) : Option β := (h.ref o).bind h.content

def isOrphan (h : Handles ω β) (k : Nat) : Bool := h.orphans.any (·.handle = k)

def enroll (h : Handles ω β) (k reapAfter : Nat) : Handles ω β :=
  if h.isOrphan k then h else { h with orphans := h.orphans ++ [⟨k, reapAfter⟩] }

/-- A content is written under a new handle, which nothing refers to yet. -/
def write (h : Handles ω β) (b : β) : Handles ω β :=
  { h with content := Function.update h.content h.next (some b), next := h.next + 1 }

section Owners

variable [DecidableEq ω]

/-- An owner refers to another handle, and the one it gives up is enrolled. -/
def assign (h : Handles ω β) (o : ω) (new : Option Nat) (reapAfter : Nat) : Handles ω β :=
  let assigned : Handles ω β := { h with ref := Function.update h.ref o new }
  match h.ref o with
  | none => assigned
  | some prior => if new = some prior then assigned else assigned.enroll prior reapAfter

def put (h : Handles ω β) (o : ω) (b : β) (reapAfter : Nat) : Handles ω β :=
  (h.write b).assign o (some h.next) reapAfter

end Owners

/-- Owners are removed, and those of their handles that are listed are enrolled. -/
def delete (h : Handles ω β) (stays : ω → Bool) (enrolled : List Nat) (reapAfter : Nat) :
    Handles ω β :=
  enrolled.foldl (fun h k => h.enroll k reapAfter)
    { h with ref := fun o => if stays o then h.ref o else none }

/-- The content of a handle is deleted, and then its orphan; either may fail. -/
def reap (h : Handles ω β) (k : Nat) (deletes forgets : Bool) : Handles ω β :=
  if deletes then { h with
    content := Function.update h.content k none
    orphans := if forgets then h.orphans.filter (·.handle ≠ k) else h.orphans }
  else h

/--
Handles are new when they are allotted, and one that is referred to has one owner and no orphan.
-/
structure Sound (h : Handles ω β) : Prop where
  refBounded : ∀ {o k}, h.ref o = some k → k < h.next
  orphanBounded : ∀ {k}, h.isOrphan k → k < h.next
  live : ∀ {o k}, h.ref o = some k → (h.content k).isSome
  kept : ∀ {o k}, h.ref o = some k → h.isOrphan k = false
  one : ∀ {o o' k}, h.ref o = some k → h.ref o' = some k → o = o'

/-- Every content has an owner or is an orphan. -/
def Accounted (h : Handles ω β) : Prop :=
  ∀ k < h.next, (h.content k).isSome → (∃ o, h.ref o = some k) ∨ h.isOrphan k

variable {h : Handles ω β}

theorem Sound.empty : ({} : Handles ω β).Sound := by
  constructor <;> simp [isOrphan]

theorem Accounted.empty : ({} : Handles ω β).Accounted := by
  simp [Accounted]

@[simp] theorem enroll_ref (k r : Nat) : (h.enroll k r).ref = h.ref := by
  unfold enroll
  split <;> rfl

@[simp] theorem enroll_content (k r : Nat) : (h.enroll k r).content = h.content := by
  unfold enroll
  split <;> rfl

@[simp] theorem enroll_next (k r : Nat) : (h.enroll k r).next = h.next := by
  unfold enroll
  split <;> rfl

@[simp] theorem enroll_isOrphan (k r k' : Nat) :
    (h.enroll k r).isOrphan k' = (h.isOrphan k' || k = k') := by
  unfold enroll
  split
  · next already =>
      by_cases same : k = k'
      · subst same
        simp [already]
      · simp [same]
  · simp [isOrphan]

theorem Sound.enroll (sound : h.Sound) {k : Nat} (r : Nat) (bounded : k < h.next)
    (free : ∀ o, h.ref o ≠ some k) : (h.enroll k r).Sound := by
  constructor
  · intro o k' ref
    rw [enroll_ref] at ref
    rw [enroll_next]
    exact sound.refBounded ref
  · intro k' orphan
    simp only [enroll_isOrphan, Bool.or_eq_true, decide_eq_true_eq] at orphan
    rcases orphan with old | rfl
    · simpa using sound.orphanBounded old
    · simpa using bounded
  · intro o k' ref
    rw [enroll_ref] at ref
    rw [enroll_content]
    exact sound.live ref
  · intro o k' ref
    rw [enroll_ref] at ref
    simp only [enroll_isOrphan, sound.kept ref, Bool.false_or, decide_eq_false_iff_not]
    rintro rfl
    exact free o ref
  · rw [enroll_ref]
    exact sound.one

theorem Sound.write (sound : h.Sound) (b : β) : (h.write b).Sound := by
  constructor
  · exact fun ref => Nat.lt_succ_of_lt (sound.refBounded ref)
  · exact fun orphan => Nat.lt_succ_of_lt (sound.orphanBounded orphan)
  · intro o k ref
    have old : k ≠ h.next := Nat.ne_of_lt (sound.refBounded ref)
    simpa [Handles.write, update_of_ne old] using sound.live ref
  · exact sound.kept
  · exact sound.one

theorem Sound.read_write (sound : h.Sound) (b : β) (o : ω) : (h.write b).read o = h.read o := by
  change (h.ref o).bind (h.write b).content = (h.ref o).bind h.content
  cases ref : h.ref o with
  | none => rfl
  | some k =>
    have old : k ≠ h.next := Nat.ne_of_lt (sound.refBounded ref)
    simp [Handles.write, update_of_ne old]

section Owners

variable [DecidableEq ω]

@[simp] theorem assign_ref (o : ω) (new : Option Nat) (r : Nat) :
    (h.assign o new r).ref = Function.update h.ref o new := by
  unfold assign
  split
  · rfl
  · split <;> simp

@[simp] theorem assign_content (o : ω) (new : Option Nat) (r : Nat) :
    (h.assign o new r).content = h.content := by
  unfold assign
  split
  · rfl
  · split <;> simp

@[simp] theorem assign_next (o : ω) (new : Option Nat) (r : Nat) :
    (h.assign o new r).next = h.next := by
  unfold assign
  split
  · rfl
  · split <;> simp

/-- A handle is given to an owner if nobody else has it and it is no orphan. -/
theorem Sound.assign (sound : h.Sound) (o : ω) {new : Option Nat} (r : Nat)
    (free : ∀ k, new = some k →
      k < h.next ∧ (h.content k).isSome ∧ h.isOrphan k = false ∧ ∀ o', h.ref o' ≠ some k) :
    (h.assign o new r).Sound := by
  have assigned : ({ h with ref := update h.ref o new } : Handles ω β).Sound := by
    have cases_ref : ∀ {o' k}, update h.ref o new o' = some k →
        (o' = o ∧ new = some k) ∨ (o' ≠ o ∧ h.ref o' = some k) := by
      intro o' k ref
      by_cases same : o' = o
      · rw [same, update_self] at ref
        exact .inl ⟨same, ref⟩
      · rw [update_of_ne same] at ref
        exact .inr ⟨same, ref⟩
    constructor
    · intro o' k ref
      rcases cases_ref ref with ⟨-, isNew⟩ | ⟨-, old⟩
      · exact (free k isNew).1
      · exact sound.refBounded old
    · exact sound.orphanBounded
    · intro o' k ref
      rcases cases_ref ref with ⟨-, isNew⟩ | ⟨-, old⟩
      · exact (free k isNew).2.1
      · exact sound.live old
    · intro o' k ref
      rcases cases_ref ref with ⟨-, isNew⟩ | ⟨-, old⟩
      · exact (free k isNew).2.2.1
      · exact sound.kept old
    · intro o' o'' k ref ref'
      rcases cases_ref ref with ⟨here, isNew⟩ | ⟨-, old⟩ <;>
        rcases cases_ref ref' with ⟨here', isNew'⟩ | ⟨-, old'⟩
      · rw [here, here']
      · exact absurd old' ((free k isNew).2.2.2 o'')
      · exact absurd old ((free k isNew').2.2.2 o')
      · exact sound.one old old'
  unfold Handles.assign
  cases prior : h.ref o with
  | none => exact assigned
  | some k =>
    dsimp only
    split
    · exact assigned
    · next changed =>
        refine assigned.enroll r (sound.refBounded prior) fun o' ref => ?_
        by_cases same : o' = o
        · rw [same] at ref
          exact changed (by simpa using ref)
        · have old : h.ref o' = some k := by simpa [update_of_ne same] using ref
          exact same (sound.one old prior)

theorem Sound.put (sound : h.Sound) (o : ω) (b : β) (r : Nat) : (h.put o b r).Sound := by
  refine (sound.write b).assign o r fun k isNew => ?_
  cases isNew
  refine ⟨Nat.lt_succ_self _, by simp [Handles.write], ?_, fun o' ref => ?_⟩
  · cases orphan : h.isOrphan h.next with
    | false => exact orphan
    | true => exact absurd (sound.orphanBounded orphan) (Nat.lt_irrefl _)
  · exact absurd (sound.refBounded ref) (Nat.lt_irrefl _)

theorem put_of_none {o : ω} (unused : h.ref o = none) (b : β) (r : Nat) :
    h.put o b r = { h.write b with ref := Function.update (h.write b).ref o (some h.next) } := by
  have same : (h.write b).ref o = none := unused
  simp [Handles.put, Handles.assign, same]

theorem Sound.clear (sound : h.Sound) (o : ω) (r : Nat) : (h.assign o none r).Sound :=
  sound.assign o r (by simp)

/-- An owner reads what it put, and the others read what they read before. -/
theorem Sound.read_put (sound : h.Sound) (o : ω) (b : β) (r : Nat) (o' : ω) :
    (h.put o b r).read o' = if o' = o then some b else h.read o' := by
  rw [← sound.read_write b o']
  unfold read Handles.put
  split
  · next same =>
      subst same
      simp [Handles.write]
  · next other => simp [update_of_ne other]

theorem read_clear (o : ω) (r : Nat) (o' : ω) :
    (h.assign o none r).read o' = if o' = o then none else h.read o' := by
  unfold read
  split
  · next same =>
      subst same
      simp
  · next other => simp [update_of_ne other]

/-- What an owner gives up is enrolled, so it stays in sight. -/
theorem Accounted.of_assign (o : ω) (new : Option Nat) (r : Nat)
    (known : ∀ k < h.next, (h.content k).isSome →
      new = some k ∨ (∃ o, h.ref o = some k) ∨ h.isOrphan k) : (h.assign o new r).Accounted := by
  intro k bounded there
  rw [assign_next] at bounded
  rw [assign_content] at there
  rw [assign_ref]
  by_cases takes : new = some k
  · exact .inl ⟨o, by simp [takes]⟩
  · rcases (known k bounded there).resolve_left takes with ⟨o', ref⟩ | orphan
    · by_cases same : o' = o
      · subst same
        right
        simp [Handles.assign, ref, takes]
      · exact .inl ⟨o', by rw [update_of_ne same, ref]⟩
    · right
      have still : ({ h with ref := update h.ref o new } : Handles ω β).isOrphan k := orphan
      unfold Handles.assign
      split
      · exact still
      · split
        · exact still
        · simp [still]

theorem Accounted.clear (accounted : h.Accounted) (o : ω) (r : Nat) :
    (h.assign o none r).Accounted :=
  .of_assign o none r fun k bounded there => .inr (accounted k bounded there)

theorem Accounted.put (accounted : h.Accounted) (o : ω) (b : β) (r : Nat) :
    (h.put o b r).Accounted := by
  refine .of_assign o _ r fun k bounded there => ?_
  by_cases new : h.next = k
  · exact .inl (congrArg some new)
  · have older : k < h.next := by
      change k < h.next + 1 at bounded
      omega
    have before : (h.content k).isSome := by
      simpa [Handles.write, update_of_ne (Ne.symm new)] using there
    exact .inr (accounted k older before)

end Owners

theorem foldl_enroll (enrolled : List Nat) (r : Nat) (h : Handles ω β) :
    let h' := enrolled.foldl (fun h k => h.enroll k r) h
    h'.ref = h.ref ∧ h'.content = h.content ∧ h'.next = h.next ∧
      ∀ k, h'.isOrphan k = (h.isOrphan k || enrolled.contains k) := by
  induction enrolled generalizing h with
  | nil => simp
  | cons k ks ih =>
    have rest := ih (h.enroll k r)
    simp only [enroll_ref, enroll_content, enroll_next, enroll_isOrphan] at rest
    refine ⟨rest.1, rest.2.1, rest.2.2.1, fun k' => ?_⟩
    rw [foldl_cons, rest.2.2.2]
    by_cases same : k = k'
    · simp [same]
    · have other : k' ≠ k := fun eq => same eq.symm
      simp [same, other]

section Delete

variable {stays : ω → Bool} {enrolled : List Nat} {r : Nat}

theorem delete_ref (o : ω) : (h.delete stays enrolled r).ref o = if stays o then
    h.ref o else none := by
  unfold delete
  rw [(foldl_enroll enrolled r _).1]

theorem delete_content : (h.delete stays enrolled r).content = h.content :=
  (foldl_enroll enrolled r _).2.1

theorem delete_next : (h.delete stays enrolled r).next = h.next := (foldl_enroll enrolled r _).2.2.1

theorem delete_isOrphan (k : Nat) :
    (h.delete stays enrolled r).isOrphan k = (h.isOrphan k || enrolled.contains k) :=
  (foldl_enroll enrolled r _).2.2.2 k

theorem read_delete (o : ω) : (h.delete stays enrolled r).read o = if stays o then
    h.read o else none := by
  unfold read
  rw [delete_ref, delete_content]
  split <;> rfl

/-- Only handles of the owners that go may be enrolled. -/
theorem Sound.delete (sound : h.Sound)
    (own : ∀ k ∈ enrolled, ∃ o, h.ref o = some k ∧ stays o = false) :
    (h.delete stays enrolled r).Sound := by
  have old : ∀ {o k}, (h.delete stays enrolled r).ref o = some k → stays o = true ∧
      h.ref o = some k := by
    intro o k ref
    rw [delete_ref] at ref
    split at ref
    · next stay => exact ⟨stay, ref⟩
    · cases ref
  constructor
  · intro o k ref
    rw [delete_next]
    exact sound.refBounded (old ref).2
  · intro k orphan
    rw [delete_isOrphan, Bool.or_eq_true, contains_iff_mem] at orphan
    rw [delete_next]
    rcases orphan with orphan | listed
    · exact sound.orphanBounded orphan
    · rcases own k listed with ⟨o, ref, -⟩
      exact sound.refBounded ref
  · intro o k ref
    rw [delete_content]
    exact sound.live (old ref).2
  · intro o k ref
    rw [delete_isOrphan, sound.kept (old ref).2, Bool.false_or]
    refine Bool.eq_false_iff.mpr fun listed => ?_
    rcases own k (contains_iff_mem.mp listed) with ⟨o', ref', goes⟩
    rw [sound.one ref' (old ref).2, (old ref).1] at goes
    cases goes
  · exact fun ref ref' => sound.one (old ref).2 (old ref').2

/-- All handles of the owners that go have to be enrolled. -/
theorem Accounted.delete (accounted : h.Accounted)
    (listed : ∀ o k, h.ref o = some k → stays o = false → k ∈ enrolled) :
    (h.delete stays enrolled r).Accounted := by
  intro k bounded there
  rw [delete_next] at bounded
  rw [delete_content] at there
  rw [delete_isOrphan, Bool.or_eq_true, contains_iff_mem]
  rcases accounted k bounded there with ⟨o, ref⟩ | orphan
  · cases stay : stays o with
    | true => exact .inl ⟨o, by rw [delete_ref, if_pos stay, ref]⟩
    | false => exact .inr (.inr (listed o k ref stay))
  · exact .inr (.inl orphan)

end Delete

section Reap

variable {k : Nat} (deletes forgets : Bool)

theorem reap_ref : (h.reap k deletes forgets).ref = h.ref := by
  unfold reap
  split <;> rfl

theorem reap_next : (h.reap k deletes forgets).next = h.next := by
  unfold reap
  split <;> rfl

theorem reap_content {k' : Nat} (other : k' ≠ k) : (h.reap k deletes forgets).content k' =
    h.content k' := by
  unfold reap
  split
  · exact update_of_ne other _ _
  · rfl

theorem isOrphan_of_reap {k' : Nat} (orphan : (h.reap k deletes forgets).isOrphan k') :
    h.isOrphan k' := by
  unfold reap at orphan
  split at orphan
  · split at orphan
    · simp only [isOrphan, any_filter] at orphan ⊢
      rcases any_eq_true.mp orphan with ⟨o, mem, both⟩
      exact any_eq_true.mpr ⟨o, mem, (Bool.and_eq_true _ _ ▸ both).2⟩
    · exact orphan
  · exact orphan

/-- A handle without an owner may be reaped, whether or not its orphan is forgotten. -/
theorem Sound.reap (sound : h.Sound) (free : ∀ o, h.ref o ≠ some k) :
    (h.reap k deletes forgets).Sound := by
  constructor
  · intro o k' ref
    rw [reap_next]
    rw [reap_ref] at ref
    exact sound.refBounded ref
  · intro k' orphan'
    rw [reap_next]
    exact sound.orphanBounded (isOrphan_of_reap _ _ orphan')
  · intro o k' ref
    rw [reap_ref] at ref
    have other : k' ≠ k := by
      rintro rfl
      exact free o ref
    rw [reap_content _ _ other]
    exact sound.live ref
  · intro o k' ref
    rw [reap_ref] at ref
    refine Bool.eq_false_iff.mpr fun orphan' => ?_
    have before := isOrphan_of_reap _ _ orphan'
    rw [sound.kept ref] at before
    cases before
  · rw [reap_ref]
    exact sound.one

theorem read_reap (free : ∀ o, h.ref o ≠ some k) (o : ω) :
    (h.reap k deletes forgets).read o = h.read o := by
  unfold read
  rw [reap_ref]
  cases ref : h.ref o with
  | none => rfl
  | some k' =>
    have other : k' ≠ k := by
      rintro rfl
      exact free o ref
    exact reap_content _ _ other

theorem Sound.free (sound : h.Sound) (orphan : h.isOrphan k) (o : ω) : h.ref o ≠ some k := by
  intro ref
  rw [sound.kept ref] at orphan
  cases orphan

theorem Accounted.reap (accounted : h.Accounted) : (h.reap k deletes forgets).Accounted := by
  intro k' bounded there
  rw [reap_next] at bounded
  rw [reap_ref]
  by_cases same : k' = k
  · subst same
    cases deletes with
    | false => exact accounted k' bounded there
    | true => simp [Handles.reap] at there
  · rw [reap_content _ _ same] at there
    refine (accounted k' bounded there).imp_right fun orphan => ?_
    unfold Handles.reap
    split
    · split
      · rcases any_eq_true.mp orphan with ⟨o, mem, handle⟩
        have isHandle : o.handle = k' := by simpa using handle
        refine any_eq_true.mpr ⟨o, mem_filter.mpr ⟨mem, ?_⟩, handle⟩
        simpa [isHandle] using same
      · exact orphan
    · exact orphan

end Reap

end Handles

end Rimsky
