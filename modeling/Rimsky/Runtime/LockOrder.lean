import Rimsky.Lib.LockOrder
import Rimsky.Runtime.Acquire
import Mathlib.Data.Prod.Lex

/-!
# The order of locks

`sortLockSpecs` of `runtime/runner_locks.go` brings the locks of a node into the order in which
`tryAcquire` takes them. The sort key of a claim is the name of its producer and its selector
with a colon in between, which does not tell all claims apart: the claims of producer `a` on
`b:c` and of producer `a:b` on `c` stay in the order in which their nodes declare them.
-/

namespace Rimsky

namespace LockRequest

def kind : LockRequest → String
  | named _ => "named"
  | claim _ => "scope"

def sortKey : LockRequest → String
  | named name => name
  | claim spec => spec.producerName ++ ":" ++ spec.selector

def less (a b : LockRequest) : Bool :=
  if a.kind ≠ b.kind then a.kind < b.kind else a.sortKey < b.sortKey

end LockRequest

def sortLockSpecs (specs : List LockRequest) : List LockRequest :=
  specs.insertionSort fun a b => !b.less a

inductive LockIdentity where
  | named (name : String)
  | claim (producerName selector : String)
  deriving DecidableEq, Repr

namespace LockIdentity

def key : LockIdentity → String ×ₗ String
  | named name => toLex ("named", name)
  | claim producerName selector => toLex ("scope", producerName ++ ":" ++ selector)

end LockIdentity

namespace LockRequest

def identity : LockRequest → LockIdentity
  | named name => .named name
  | claim spec => .claim spec.producerName spec.selector

theorem key_identity (a : LockRequest) : a.identity.key = toLex (a.kind, a.sortKey) := by
  cases a <;> rfl

theorem less_eq_false_iff {a b : LockRequest} : b.less a = false ↔
    a.identity.key ≤ b.identity.key := by
  have less_iff : b.less a = true ↔ b.identity.key < a.identity.key := by
    rw [key_identity, key_identity, Prod.Lex.toLex_lt_toLex, less]
    by_cases same : b.kind = a.kind
    · simp [same]
    · simp [same]
  rw [← not_lt, ← less_iff, Bool.not_eq_true]

end LockRequest

/-- A lock of the one identity is taken before one of the other. -/
def Precedes (specs : List LockRequest) (a b : LockIdentity) : Prop :=
  ∃ x y, [x, y].Sublist specs ∧ x.identity = a ∧ y.identity = b

/-- No two locks are taken in the one order here and in the other order there. -/
def SameOrder (specs specs' : List LockRequest) : Prop :=
  ∀ a b, a ≠ b → ¬(Precedes specs a b ∧ Precedes specs' b a)

/-- Locks with one sort key are declared in the same order here and there. -/
def TiesAgree (specs specs' : List LockRequest) : Prop :=
  ∀ a b, a ≠ b → a.key = b.key → ¬(Precedes specs a b ∧ Precedes specs' b a)

theorem sortLockSpecs_sorted (specs : List LockRequest) :
    (sortLockSpecs specs).Pairwise fun x y => x.identity.key ≤ y.identity.key := by
  have total : Std.Total fun a b : LockRequest => (!b.less a) = true := by
    refine ⟨fun a b => ?_⟩
    simp only [Bool.not_eq_true', LockRequest.less_eq_false_iff]
    exact le_total _ _
  have trans : IsTrans LockRequest fun a b => (!b.less a) = true := by
    refine ⟨fun a b c => ?_⟩
    simp only [Bool.not_eq_true', LockRequest.less_eq_false_iff]
    exact le_trans
  refine (List.pairwise_insertionSort _ specs).imp fun {x y} le => ?_
  simpa [LockRequest.less_eq_false_iff] using le

theorem precedes_sortLockSpecs_iff {a b : LockIdentity} (tie : a.key = b.key)
    (specs : List LockRequest) : Precedes (sortLockSpecs specs) a b ↔ Precedes specs a b := by
  have kept : ∀ x y : LockRequest, x.identity = a → y.identity = b →
      ([x, y].Sublist (sortLockSpecs specs) ↔ [x, y].Sublist specs) := by
    rintro x y rfl rfl
    refine pair_sublist_insertionSort_iff (p := fun z => z.identity.key = x.identity.key)
      (fun u v fits fits' => ?_) (by simp) (by simp [tie]) specs
    simp only [decide_eq_true_eq] at fits fits'
    simp [LockRequest.less_eq_false_iff, fits, fits']
  constructor
  · rintro ⟨x, y, sub, rfl, rfl⟩
    exact ⟨x, y, (kept x y rfl rfl).mp sub, rfl, rfl⟩
  · rintro ⟨x, y, sub, rfl, rfl⟩
    exact ⟨x, y, (kept x y rfl rfl).mpr sub, rfl, rfl⟩

theorem Precedes.key_le {specs : List LockRequest} {a b : LockIdentity}
    (first : Precedes (sortLockSpecs specs) a b) : a.key ≤ b.key := by
  rcases first with ⟨x, y, sub, rfl, rfl⟩
  have pair := (sortLockSpecs_sorted specs).sublist sub
  exact (List.pairwise_cons.mp pair).1 y (by simp)

theorem sameOrder_sortLockSpecs_iff (specs specs' : List LockRequest) :
    SameOrder (sortLockSpecs specs) (sortLockSpecs specs') ↔ TiesAgree specs specs' := by
  constructor
  · rintro same a b distinct tie ⟨first, second⟩
    exact same a b distinct ⟨(precedes_sortLockSpecs_iff tie specs).mpr first,
      (precedes_sortLockSpecs_iff tie.symm specs').mpr second⟩
  · rintro agree a b distinct ⟨first, second⟩
    have tie : a.key = b.key := le_antisymm first.key_le second.key_le
    exact agree a b distinct tie ⟨(precedes_sortLockSpecs_iff tie specs).mp first,
      (precedes_sortLockSpecs_iff tie.symm specs').mp second⟩

def lockIdentities (specs : List LockRequest) : List LockIdentity :=
  (sortLockSpecs specs).map (·.identity)

def KeysApart {ι : Type} (specs : ι → List LockRequest) : Prop :=
  ∀ i j, ∀ x ∈ specs i, ∀ y ∈ specs j, x.identity.key = y.identity.key → x.identity = y.identity

theorem mem_lockIdentities {specs : List LockRequest} {a : LockIdentity} :
    a ∈ lockIdentities specs ↔ ∃ x ∈ specs, x.identity = a := by
  simp [lockIdentities, sortLockSpecs]

theorem not_waits_of_keysApart {ι : Type} {specs : ι → List LockRequest} (apart : KeysApart specs)
    {taken : ι → Nat}
    (exclusive : ∀ i j a, Holds (fun i => lockIdentities (specs i)) taken i a →
      Holds (fun i => lockIdentities (specs i)) taken j a → i = j) (i : ι) :
    ¬Relation.TransGen (WaitsFor (fun i => lockIdentities (specs i)) taken) i i := by
  refine not_waits_in_circle LockIdentity.key (fun i => ?_)
    (fun i j a inI b inJ tie => ?_) exclusive i
  · exact List.pairwise_map.mpr (sortLockSpecs_sorted (specs i))
  · rcases mem_lockIdentities.mp inI with ⟨x, mem, rfl⟩
    rcases mem_lockIdentities.mp inJ with ⟨y, mem', rfl⟩
    exact apart i j x mem y mem' tie

/--
Two acquisitions take the locks they share in one order exactly if they declare those with one
sort key in one order; and acquisitions whose locks are all told apart never wait in a circle.
-/
theorem lock_order {ι : Type} (specs : ι → List LockRequest) :
    (∀ i j, SameOrder (sortLockSpecs (specs i)) (sortLockSpecs (specs j)) ↔
      TiesAgree (specs i) (specs j)) ∧
    (KeysApart specs → ∀ {taken : ι → Nat},
      (∀ i j a, Holds (fun i => lockIdentities (specs i)) taken i a →
        Holds (fun i => lockIdentities (specs i)) taken j a → i = j) →
      ∀ i, ¬Relation.TransGen (WaitsFor (fun i => lockIdentities (specs i)) taken) i i) :=
  ⟨fun i j => sameOrder_sortLockSpecs_iff (specs i) (specs j), not_waits_of_keysApart⟩

def plainRequests (first : Bool) : List LockRequest :=
  if first then [.claim { producerName := "vault", selector := "ledger" }, .named "nightly"]
  else [.named "nightly", .claim { producerName := "vault", selector := "ledger" }]

theorem plainRequests_ordered :
    SameOrder (sortLockSpecs (plainRequests true)) (sortLockSpecs (plainRequests false)) ∧
    ¬Relation.TransGen (WaitsFor (fun first => lockIdentities (plainRequests first))
      fun first => if first then 1 else 0) true true := by
  have apart : KeysApart plainRequests := by
    unfold KeysApart
    decide +kernel
  refine ⟨((lock_order plainRequests).1 true false).mpr ?_,
    (lock_order plainRequests).2 apart ?_ true⟩
  · rintro a b distinct tie ⟨⟨x, y, sub, rfl, rfl⟩, -⟩
    exact distinct (apart true true x (sub.subset (by simp)) y (sub.subset (by simp)) tie)
  · rintro ( _ | _) ( _ | _) a held held'
    · rfl
    · cases held
    · cases held'
    · rfl

/-- Claims on `b:c` of producer `a` and on `c` of producer `a:b`. -/
def tiedClaims : List LockRequest :=
  [.claim { producerName := "a", selector := "b:c" },
    .claim { producerName := "a:b", selector := "c" }]

/--
One node declares the two claims in the one order, another in the other order. Sorting leaves both
as they are, and once each has taken its first lock they wait for each other.
-/
theorem tiedClaims_wait :
    (¬SameOrder (sortLockSpecs tiedClaims) (sortLockSpecs tiedClaims.reverse)) ∧
    Relation.TransGen (WaitsFor (fun first : Bool =>
      lockIdentities (if first then tiedClaims else tiedClaims.reverse)) fun _ => 1) true true := by
  have asDeclared : sortLockSpecs tiedClaims = tiedClaims ∧
      sortLockSpecs tiedClaims.reverse = tiedClaims.reverse := by decide +kernel
  refine ⟨?_, ?_⟩
  · intro same
    exact same (.claim "a" "b:c") (.claim "a:b" "c") (by decide)
      ⟨⟨_, _, .refl _, rfl, rfl⟩, ⟨_, _, .refl _, rfl, rfl⟩⟩
  · have waits : ∀ first, WaitsFor (fun first : Bool =>
        lockIdentities (if first then tiedClaims else tiedClaims.reverse))
          (fun _ => 1) first !first := by
      intro first
      cases first with
      | true =>
        refine ⟨by decide, .claim "a:b" "c", ?_, ?_⟩
        · rfl
        · simp only [Holds, lockIdentities, Bool.not_true, Bool.false_eq_true, if_false,
            asDeclared.2]
          decide
      | false =>
        refine ⟨by decide, .claim "a" "b:c", ?_, ?_⟩
        · rfl
        · simp only [Holds, lockIdentities, Bool.not_false, if_true, asDeclared.1]
          decide
    exact .tail (.single (waits true)) (waits false)

end Rimsky
