import Rimsky.Lib.Keyed
import Rimsky.Runtime.Propagation

/-!
# The two verdicts of a fan-out

A fan-out is judged twice: `Aggregate` settles the parent run from the states of its children,
and `aggregateParentOutcome` resolves the parent claim from how many sub-claims were committed
and abandoned. The two agree except for a best effort without any success and for a first
success that was let pass by an error policy. Either way a verdict on the run is final: children
that settle later do not change it.
-/

namespace Rimsky

open Transaction List NodeRun

variable {children children' : List NodeRun} {state : NodeState} {maxFailures : Int}

/-- The parent claim once every child has resolved its sub-claim as its run has settled. -/
def ClaimHandle.counting (h : ClaimHandle) (policy : Option AggregationPolicy)
    (children : List NodeRun) : ClaimHandle :=
  { h with
    aggregationPolicy := policy
    expectedChildrenCount := children.length
    committedChildrenCount := (children.filter (·.state = .fresh)).length
    abandonedChildrenCount := (children.filter (·.state = .failed)).length }

/-- A best effort has a success; a first success is one that `Aggregate` recognises. -/
def VerdictsMeet (policy : Option AggregationPolicy) (children : List NodeRun) : Prop :=
  match policy.map AggregationPolicy.kind with
  | some .bestEffort => ∃ c ∈ children, c.state = .fresh
  | some .first => (∃ c ∈ children, c.isSuccess) ∨ ∀ c ∈ children, c.state = .failed
  | _ => True

instance (policy : Option AggregationPolicy) (children : List NodeRun) :
    Decidable (VerdictsMeet policy children) := by
  unfold VerdictsMeet
  split <;> infer_instance

/-- The run's verdict is out, and it is a success just if the claim is committed. -/
def SameVerdict (h : ClaimHandle) (policy : Option AggregationPolicy) (children : List NodeRun)
    (seed : TerminalOutcome) : Prop :=
  ∃ result, aggregate children policy = some result ∧
    (result.parentState = .fresh ↔
      aggregateParentOutcome (h.counting policy children) seed = .commit)

section Verdicts

variable {h : ClaimHandle} {children : List NodeRun} {seed : TerminalOutcome}
  (nonempty : children ≠ []) (settled : ∀ c ∈ children, c.isSettled)

include nonempty

theorem aggregateParentOutcome_counting (policy : Option AggregationPolicy) :
    aggregateParentOutcome (h.counting policy children) seed =
      match policy with
      | some { kind := .threshold, maxFailures } =>
        if (if maxFailures ≤ 0 then 1 else maxFailures) ≤
          ((children.filter (·.state = .failed)).length : Int) then .abandon else .commit
      | some { kind := .bestEffort, .. } | some { kind := .first, .. } =>
        if ∃ c ∈ children, c.state = .fresh then .commit else .abandon
      | _ => if ∃ c ∈ children, c.state = .failed then .abandon else .commit := by
  have some' : children.length ≠ 0 := by simpa using nonempty
  have counted : ∀ state : NodeState, 0 < (children.filter (·.state = state)).length ↔
      ∃ c ∈ children, c.state = state := by
    intro state
    simp [length_pos_iff_exists_mem]
  unfold aggregateParentOutcome ClaimHandle.counting
  rcases policy with _ | ⟨kind, maxFailures⟩
  · simp only [some', if_false, counted]
  · cases kind <;> simp only [some', if_false, counted]

include settled

theorem sameVerdict_strict (policy : Option AggregationPolicy)
    (strict : policy.map AggregationPolicy.kind = none ∨
      policy.map AggregationPolicy.kind = some .strict) :
    SameVerdict h policy children seed := by
  have verdict : aggregate children policy = aggregateStrict children := by
    rcases policy with _ | ⟨kind, maxFailures⟩
    · simp [aggregate, nonempty]
    · cases kind <;> simp_all [aggregate]
  have outcome : aggregateParentOutcome (h.counting policy children) seed =
      if ∃ c ∈ children, c.state = .failed then .abandon else .commit := by
    rw [aggregateParentOutcome_counting nonempty]
    rcases policy with _ | ⟨kind, maxFailures⟩
    · rfl
    · cases kind <;> simp_all
  unfold SameVerdict
  rw [verdict, outcome, aggregateStrict]
  have failing : children.any (·.isFailure) ↔ ∃ c ∈ children, c.state = .failed := by
    simp [isFailure]
  by_cases failed : ∃ c ∈ children, c.state = .failed
  · rw [if_pos (failing.mpr failed), if_pos failed]
    exact ⟨_, rfl, by simp⟩
  · rw [if_neg (mt failing.mp failed), if_pos (all_eq_true.mpr settled), if_neg failed]
    exact ⟨_, rfl, by simp [aggregateSuccess]⟩

theorem sameVerdict_threshold (maxFailures : Int) :
    SameVerdict h (some { kind := .threshold, maxFailures }) children seed := by
  have verdict : aggregate children (some { kind := .threshold, maxFailures }) =
      aggregateThreshold children maxFailures := by simp [aggregate, nonempty]
  have failures : children.filter (·.isFailure) = children.filter (·.state = .failed) := rfl
  unfold SameVerdict
  rw [verdict, aggregateParentOutcome_counting nonempty, aggregateThreshold, failures]
  dsimp only
  generalize (if maxFailures ≤ 0 then 1 else maxFailures) = limit
  by_cases reached : limit ≤ ((children.filter (·.state = .failed)).length : Int)
  · rw [if_pos reached, if_pos reached]
    exact ⟨_, rfl, by simp⟩
  · rw [if_neg reached, if_pos (all_eq_true.mpr settled), if_neg reached]
    exact ⟨_, rfl, by simp [aggregateSuccess]⟩

theorem sameVerdict_bestEffort_iff (maxFailures : Int) :
    SameVerdict h (some { kind := .bestEffort, maxFailures }) children seed ↔
      ∃ c ∈ children, c.state = .fresh := by
  have verdict : aggregate children (some { kind := .bestEffort, maxFailures }) =
      some (aggregateSuccess children) := by
    have all : children.all (·.isSettled) := all_eq_true.mpr settled
    simp [aggregate, nonempty, aggregateBestEffort, all]
  unfold SameVerdict
  rw [verdict, aggregateParentOutcome_counting nonempty]
  by_cases fresh : ∃ c ∈ children, c.state = .fresh
  · simp [fresh, aggregateSuccess]
  · simp [fresh, aggregateSuccess]

omit settled in
theorem sameVerdict_first_iff (maxFailures : Int) :
    SameVerdict h (some { kind := .first, maxFailures }) children seed ↔
      (∃ c ∈ children, c.isSuccess) ∨ ∀ c ∈ children, c.state = .failed := by
  have verdict : aggregate children (some { kind := .first, maxFailures }) =
      aggregateFirst children := by simp [aggregate, nonempty]
  unfold SameVerdict
  rw [verdict, aggregateParentOutcome_counting nonempty, aggregateFirst]
  cases winner : children.find? (·.isSuccess) with
  | some c =>
    have mem : c ∈ children := mem_of_find?_eq_some winner
    have success : c.isSuccess := by simpa using find?_some winner
    have fresh : ∃ c ∈ children, c.state = .fresh := by
      refine ⟨c, mem, ?_⟩
      simp only [isSuccess, Bool.and_eq_true, decide_eq_true_eq] at success
      exact success.1
    simp only [fresh, if_true]
    exact iff_of_true ⟨_, rfl, by simp⟩ (.inl ⟨c, mem, success⟩)
  | none =>
    have none' : ¬∃ c ∈ children, c.isSuccess := by
      rintro ⟨c, mem, success⟩
      exact find?_eq_none.mp winner c mem success
    by_cases failed : ∀ c ∈ children, c.state = .failed
    · have unfresh : ¬∃ c ∈ children, c.state = .fresh := by
        rintro ⟨c, mem, fresh⟩
        rw [failed c mem] at fresh
        cases fresh
      have all : children.all (·.isFailure) := by simpa [isFailure] using failed
      simp only [all, if_true, unfresh, if_false]
      exact iff_of_true ⟨_, rfl, by simp⟩ (.inr failed)
    · have notAll : ¬children.all (·.isFailure) := by simpa [isFailure] using failed
      simp only [notAll]
      exact iff_of_false (by simp) (by simp [none', failed])

/-- The verdict of a fan-out's runs is the one of its claims exactly where they meet. -/
theorem sameVerdict_iff (policy : Option AggregationPolicy) :
    SameVerdict h policy children seed ↔ VerdictsMeet policy children := by
  rcases policy with _ | ⟨kind, maxFailures⟩
  · exact iff_of_true (sameVerdict_strict nonempty settled _ (.inl rfl)) trivial
  · cases kind with
    | strict => exact iff_of_true (sameVerdict_strict nonempty settled _ (.inr rfl)) trivial
    | threshold => exact iff_of_true (sameVerdict_threshold nonempty settled _) trivial
    | bestEffort => exact sameVerdict_bestEffort_iff nonempty settled _
    | first => exact sameVerdict_first_iff nonempty _

end Verdicts

def settledChild (id : Id) (state : NodeState) (settlingSignalType : String) : NodeRun where
  id := id
  nodeId := 1
  enqueuedAt := 0
  state := state
  creationReason := .cascade
  sequence := 1
  frameId := 1
  runScopeId := id
  settlingSignalType := some settlingSignalType

def partitionedHandle : ClaimHandle where
  id := 1
  lockKind := .claimScope
  holderSupervisorId := some "sup"
  holderNodeId := 1
  claimedAt := 0
  expiresAt := 0

/--
A best effort whose only child has failed settles fresh over an abandoned claim. A first success
that an error policy let pass commits the claim, and the parent is never settled.
-/
theorem verdicts_differ :
    (¬SameVerdict partitionedHandle (some { kind := .bestEffort })
      [settledChild 2 .failed "terminal/error/broken"] .abandon) ∧
    ¬SameVerdict partitionedHandle (some { kind := .first })
      [settledChild 2 .fresh "terminal/error/broken"] .commit := by
  refine ⟨?_, ?_⟩
  · rintro ⟨result, verdict, same⟩
    cases verdict
    exact absurd (same.mp rfl) (by decide)
  · rintro ⟨result, verdict, -⟩
    cases verdict

/-- One success is enough for a best effort and for a first. -/
theorem verdicts_meet :
    SameVerdict partitionedHandle (some { kind := .first })
      [settledChild 2 .failed "terminal/error/broken", settledChild 3 .fresh "terminal/success"]
        .commit :=
  (sameVerdict_iff (by simp) (by decide) _).mpr (by decide +kernel)

def verdict (policy : Option AggregationPolicy) (children : List NodeRun) : Option NodeState :=
  (aggregate children policy).map (·.parentState)

/-- A child that has settled stays as it is; one that has not may settle in any way. -/
def NodeRun.SettlesInto (c c' : NodeRun) : Prop := c' = c ∨ c.isSettled = false ∧ c'.isSettled

inductive Proceeds : List NodeRun → List NodeRun → Prop where
  | reorders {children children' : List NodeRun} (perm : children.Perm children') :
      Proceeds children children'
  | settles {children children' : List NodeRun}
      (each : List.Forall₂ NodeRun.SettlesInto children children') : Proceeds children children'

/--
The form all verdicts have: one state as soon as the children decide it, the other one once all
children are through.
-/
def judge (decided through : List NodeRun → Bool) (early late : NodeState)
    (children : List NodeRun) : Option NodeState :=
  if decided children then some early else if through children then some late else none

structure Final (decided through : List NodeRun → Bool) : Prop where
  decidedPerm : ∀ {children children' : List NodeRun}, children.Perm children' →
    decided children = decided children'
  throughPerm : ∀ {children children' : List NodeRun}, children.Perm children' →
    through children = through children'
  decidedStays : ∀ {children children' : List NodeRun},
    List.Forall₂ NodeRun.SettlesInto children children' → decided children → decided children'
  throughSettled : ∀ {children : List NodeRun}, through children → ∀ c ∈ children, c.isSettled

theorem settled_unchanged (each : List.Forall₂ NodeRun.SettlesInto children children')
    (settled : ∀ c ∈ children, c.isSettled) : children' = children := by
  induction each with
  | nil => rfl
  | @cons c c' children children' first rest ih =>
    have same : c' = c := by
      rcases first with same | ⟨unsettled, -⟩
      · exact same
      · rw [settled c mem_cons_self] at unsettled
        cases unsettled
    rw [same, ih fun c mem => settled c (mem_cons_of_mem _ mem)]

namespace Final

variable {decided through : List NodeRun → Bool} (final : Final decided through)
  {early late : NodeState} {children children' : List NodeRun}

include final

theorem judge_perm (perm : children.Perm children') :
    judge decided through early late children = judge decided through early late children' := by
  unfold judge
  rw [final.decidedPerm perm, final.throughPerm perm]

theorem judge_settles (each : List.Forall₂ NodeRun.SettlesInto children children')
    (settled : judge decided through early late children = some state) :
    judge decided through early late children' = some state := by
  unfold judge at settled ⊢
  by_cases out : decided children
  · rw [if_pos out] at settled
    rw [if_pos (final.decidedStays each out)]
    exact settled
  · rw [if_neg out] at settled
    by_cases done : through children
    · rw [settled_unchanged each (final.throughSettled done), if_neg out]
      exact settled
    · rw [if_neg done] at settled
      cases settled

end Final

theorem any_settles {p : NodeRun → Bool}
    (each : List.Forall₂ NodeRun.SettlesInto children children') (settled : ∀ c, p c → c.isSettled)
    (some' : children.any p) : children'.any p := by
  induction each with
  | nil => exact some'
  | @cons c c' children children' first rest ih =>
    rw [any_cons, Bool.or_eq_true] at some' ⊢
    rcases some' with here | later
    · rcases first with same | ⟨unsettled, -⟩
      · exact .inl (same ▸ here)
      · rw [settled c here] at unsettled
        cases unsettled
    · exact .inr (ih later)

theorem length_filter_settles {p : NodeRun → Bool}
    (each : List.Forall₂ NodeRun.SettlesInto children children')
    (settled : ∀ c, p c → c.isSettled) :
    (children.filter p).length ≤ (children'.filter p).length := by
  induction each with
  | nil => exact Nat.le_refl _
  | @cons c c' children children' first rest ih =>
    by_cases here : p c
    · have same : c' = c := by
        rcases first with same | ⟨unsettled, -⟩
        · exact same
        · rw [settled c here] at unsettled
          cases unsettled
      rw [same, filter_cons_of_pos here, filter_cons_of_pos here]
      exact Nat.succ_le_succ ih
    · rw [filter_cons_of_neg here]
      refine Nat.le_trans ih (List.Sublist.length_le ?_)
      exact (sublist_cons_self c' children').filter p

theorem isSettled_of_isFailure {c : NodeRun} (failure : c.isFailure) : c.isSettled := by
  have failed : c.state = .failed := by simpa [isFailure] using failure
  rw [isSettled, failed]
  rfl

theorem isSettled_of_isSuccess {c : NodeRun} (success : c.isSuccess) : c.isSettled := by
  simp only [isSuccess, Bool.and_eq_true, decide_eq_true_eq] at success
  rw [isSettled, success.1]
  rfl

theorem final_settled {decided : List NodeRun → Bool}
    (perm : ∀ {children children' : List NodeRun}, children.Perm children' →
      decided children = decided children')
    (stays : ∀ {children children' : List NodeRun},
      List.Forall₂ NodeRun.SettlesInto children children' → decided children → decided children') :
    Final decided (·.all (·.isSettled)) where
  decidedPerm := perm
  throughPerm perm := perm.all_eq
  decidedStays := stays
  throughSettled all := all_eq_true.mp all

theorem verdict_strict {policy : Option AggregationPolicy} (strict : verdict policy children =
      (if children.isEmpty then none else aggregateStrict children).map (·.parentState))
    (some' : children ≠ []) : verdict policy children =
      judge (·.any (·.isFailure)) (·.all (·.isSettled)) .failed .fresh children := by
  rw [strict, if_neg (by simpa using some')]
  unfold aggregateStrict judge
  split
  · rfl
  · split <;> rfl

theorem verdict_threshold (some' : children ≠ []) :
    verdict (some { kind := .threshold, maxFailures }) children =
      judge (fun children => (if maxFailures ≤ 0 then 1 else maxFailures) ≤
        ((children.filter (·.isFailure)).length : Int)) (·.all (·.isSettled)) .failed .fresh
        children := by
  have out : verdict (some { kind := .threshold, maxFailures }) children =
      (if children.isEmpty then none else aggregateThreshold children maxFailures).map
        (·.parentState) := rfl
  rw [out, if_neg (by simpa using some')]
  unfold aggregateThreshold judge
  generalize (if maxFailures ≤ 0 then 1 else maxFailures) = limit
  simp only [decide_eq_true_eq]
  by_cases reached : limit ≤ ((children.filter (·.isFailure)).length : Int)
  · rw [if_pos reached, if_pos reached]
    rfl
  · rw [if_neg reached, if_neg reached]
    split <;> rfl

theorem verdict_bestEffort (some' : children ≠ []) :
    verdict (some { kind := .bestEffort, maxFailures }) children =
      judge (fun _ => false) (·.all (·.isSettled)) .failed .fresh children := by
  have out : verdict (some { kind := .bestEffort, maxFailures }) children =
      (if children.isEmpty then none else aggregateBestEffort children).map (·.parentState) := rfl
  rw [out, if_neg (by simpa using some')]
  unfold aggregateBestEffort judge
  split <;> rfl

theorem verdict_first (some' : children ≠ []) :
    verdict (some { kind := .first, maxFailures }) children =
      judge (·.any (·.isSuccess)) (·.all (·.isFailure)) .fresh .failed children := by
  have out : verdict (some { kind := .first, maxFailures }) children =
      (if children.isEmpty then none else aggregateFirst children).map (·.parentState) := rfl
  rw [out, if_neg (by simpa using some')]
  unfold aggregateFirst judge
  cases winner : children.find? (·.isSuccess) with
  | some c =>
    have any : children.any (·.isSuccess) :=
      any_eq_true.mpr ⟨c, mem_of_find?_eq_some winner, by simpa using find?_some winner⟩
    rw [if_pos any]
    rfl
  | none =>
    have any : ¬children.any (·.isSuccess) := by
      simpa using find?_eq_none.mp winner
    dsimp only
    split <;> rfl

section

variable (policy : Option AggregationPolicy)

include policy

theorem verdict_eq_judge :
    ∃ decided through early late, Final decided through ∧ early.isTerminal ∧ late.isTerminal ∧
      ∀ children, children ≠ [] →
        verdict policy children = judge decided through early late children := by
  have strict : Final (·.any (·.isFailure)) (·.all (·.isSettled)) :=
    final_settled (fun perm => perm.any_eq) fun each => any_settles each fun _ =>
      isSettled_of_isFailure
  rcases policy with _ | ⟨kind, maxFailures⟩
  · exact ⟨_, _, .failed, .fresh, strict, rfl, rfl, fun _ => verdict_strict rfl⟩
  · cases kind with
    | strict => exact ⟨_, _, .failed, .fresh, strict, rfl, rfl, fun _ => verdict_strict rfl⟩
    | threshold =>
      refine ⟨_, _, .failed, .fresh, final_settled (fun perm => ?_) fun each most => ?_, rfl, rfl,
        fun _ => verdict_threshold⟩
      · rw [(perm.filter _).length_eq]
      · have more := length_filter_settles each fun _ => isSettled_of_isFailure
        simp only [decide_eq_true_eq] at most ⊢
        omega
    | bestEffort =>
      exact ⟨fun _ => false, _, .failed, .fresh, final_settled (fun _ => rfl) fun _ never => never,
        rfl, rfl, fun _ => verdict_bestEffort⟩
    | first =>
      refine ⟨_, _, .fresh, .failed, ⟨fun perm => perm.any_eq, fun perm => perm.all_eq, ?_, ?_⟩,
        rfl, rfl, fun _ => verdict_first⟩
      · exact fun each => any_settles each fun _ => isSettled_of_isSuccess
      · exact fun all c mem => isSettled_of_isFailure (all_eq_true.mp all c mem)

theorem verdict_perm (perm : children.Perm children') :
    verdict policy children = verdict policy children' := by
  rcases verdict_eq_judge policy with ⟨decided, through, early, late, final, -, -, judged⟩
  by_cases none : children = []
  · rw [none] at perm
    rw [none, nil_perm.mp perm]
  · rw [judged children none, judged children' fun none' => none (perm_nil.mp (none' ▸ perm))]
    exact final.judge_perm perm

theorem verdict_settles (each : List.Forall₂ NodeRun.SettlesInto children children')
    (settled : verdict policy children = some state) : verdict policy children' = some state := by
  rcases verdict_eq_judge policy with ⟨decided, through, early, late, final, -, -, judged⟩
  have some' : children ≠ [] := by
    rintro rfl
    cases settled
  have some'' : children' ≠ [] := by
    rintro rfl
    exact some' (forall₂_nil_right_iff.mp each)
  rw [judged children some'] at settled
  rw [judged children' some'']
  exact final.judge_settles each settled

theorem verdict_proceeds (onward : Relation.ReflTransGen Proceeds children children')
    (settled : verdict policy children = some state) : verdict policy children' = some state := by
  induction onward with
  | refl => exact settled
  | tail _ step ih =>
    cases step with
    | reorders perm => exact (verdict_perm policy perm).symm.trans ih
    | settles each => exact verdict_settles policy each ih

end

theorem verdict_terminal {policy : Option AggregationPolicy}
    (settled : verdict policy children = some state) : state.isTerminal := by
  rcases verdict_eq_judge policy with
    ⟨decided, through, early, late, -, earlyEnds, lateEnds, judged⟩
  have some' : children ≠ [] := by
    rintro rfl
    cases settled
  rw [judged children some', judge] at settled
  split at settled
  · exact Option.some.inj settled ▸ earlyEnds
  · split at settled
    · exact Option.some.inj settled ▸ lateEnds
    · cases settled

theorem updateStateAndOutcome_row {runId : Id} {s s' : Store} {row : NodeRun} {sig : Option String}
    {changed : Bool} {u : Unit} (found : s.run? runId = some row)
    (run : NodeRunTree.updateStateAndOutcome runId state sig changed s = (.ok u, s'))
    (same : row.state = state) : ∃ row', s'.run? runId = some row' ∧ row'.state = row.state := by
  rcases bind_eq_ok.mp run with ⟨n, mid, updated, rest⟩
  rw [updateRuns_eq] at updated
  split at updated
  · cases updated
    split at rest
    · cases rest
    · cases rest
      have keeps : ∀ r : NodeRun, NodeRun.id (if decide (r.id = runId) then { r with
          state, changed, settlingSignalType := sig.or r.settlingSignalType } else r) = r.id := by
        intro r
        split <;> rfl
      refine ⟨_, (find?_key_map keeps runId).trans (congrArg _ found), ?_⟩
      have mine : row.id = runId := by simpa using find?_some found
      simp [mine, same]
  · cases updated

theorem walkUpwards_again {fuel : Nat} {runId : Id} {s s' : Store} {parent : NodeRun}
    {result : AggregateResult} {settlements : List (ParentSettlement × List NodeRun)}
    (found : s.run? runId = some parent)
    (settled : aggregate (s.children runId) parent.aggregationPolicy = some result)
    (same : parent.state = result.parentState)
    (run : walkUpwards fuel runId s = (.ok settlements, s')) :
    settlements = [] ∧ ∃ row, s'.run? runId = some row ∧ row.state = parent.state := by
  have out : verdict parent.aggregationPolicy (s.children runId) = some result.parentState := by
    rw [verdict, settled]
    rfl
  have ended : parent.isSettled := by
    rw [isSettled, same]
    exact verdict_terminal out
  cases fuel with
  | zero => cases run
  | succ fuel =>
    unfold walkUpwards at run
    rw [read_bind] at run
    simp only [id_eq, found, need_some, Transaction.pure_bind, settled] at run
    split at run
    · cases run
      exact ⟨rfl, parent, found, rfl⟩
    · rcases bind_eq_ok.mp run with ⟨_, mid, recorded, rest⟩
      rw [if_pos (by simp [ended, same])] at rest
      cases rest
      exact ⟨rfl, updateStateAndOutcome_row found recorded same⟩

/--
The verdict on a parent does not depend on the order of its children, and once it is out it is
the verdict for good: later walks from the children upwards leave the parent's state alone.
-/
theorem verdicts_final (policy : Option AggregationPolicy) (children : List NodeRun) :
    (∀ children', children.Perm children' → verdict policy children' = verdict policy children) ∧
    ∀ state, verdict policy children = some state →
      (∀ children', List.Forall₂ NodeRun.SettlesInto children children' →
        verdict policy children' = some state) ∧
      ∀ fuel runId s parent settlements s', s.run? runId = some parent →
        parent.aggregationPolicy = policy → parent.state = state →
        Relation.ReflTransGen Proceeds children (s.children runId) →
        walkUpwards fuel runId s = (.ok settlements, s') →
        settlements = [] ∧ ∃ row, s'.run? runId = some row ∧ row.state = state := by
  refine ⟨fun children' perm => (verdict_perm policy perm).symm, fun state settled => ⟨?_, ?_⟩⟩
  · exact fun children' each => verdict_settles policy each settled
  · intro fuel runId s parent settlements s' found kept same onward run
    have now := verdict_proceeds policy onward settled
    rw [← kept] at now
    rcases Option.map_eq_some_iff.mp now with ⟨result, aggregated, verdict⟩
    have again := walkUpwards_again found aggregated (same.trans verdict.symm) run
    rwa [same] at again

/-- A strict parent has failed with its first child, whatever becomes of the second. -/
theorem verdict_kept :
    verdict none [settledChild 3 .running "", settledChild 2 .failed "terminal/error/broken"] =
      some .failed ∧
    verdict none [settledChild 2 .failed "terminal/error/broken",
      settledChild 3 .fresh "terminal/success"] = some .failed := by
  have final := verdicts_final none
    [settledChild 2 .failed "terminal/error/broken", settledChild 3 .running ""]
  refine ⟨final.1 _ (List.Perm.swap _ _ _), (final.2 .failed rfl).1 _ ?_⟩
  exact .cons (.inl rfl) (.cons (.inr ⟨rfl, rfl⟩) .nil)

end Rimsky
