import Rimsky.Runtime.Walking

/-!
# Idempotent cascade modes

`applyCascadeModeRule` drops a pending run of an idempotent node when its resolved bag equals
that of an earlier run. The run it is compared with is the latest queued one that no supervisor
has claimed and, for `idempotent-settled` when there is none, the latest fresh one. Runs that
are claimed, running, held or parked are passed over, and the rule comes before the check for
them. A drop keeps the last input exactly if the run compared with has the input of the latest
run that has not failed.
-/

namespace Rimsky

open Transaction Store

/-- The bag a run is dispatched with; a run without one is resolved on demand. -/
def inputBag? (args : RunArgs) (s : Store) (r : NodeRun) : Option Bag :=
  match s.dispatchInputBag? r.id with
  | some bag => some bag
  | none =>
    match (loadReceiverCarryForward r >>= buildResolvedBagAtGateEval args r) s with
    | (.ok (.ok bag), _) => some bag
    | _ => none

namespace Store

/-- The latest run before the row, of its node and scope, that has not failed. -/
def lastLive? (s : Store) (row : NodeRun) : Option NodeRun :=
  s.latestRun? row.nodeId row.runScopeId fun r => r.sequence < row.sequence && r.state ≠ .failed

def comparedRun? (s : Store) (row : NodeRun) (mode : CascadeMode) : Option NodeRun :=
  let queued := s.latestRun? row.nodeId row.runScopeId fun r =>
    r.sequence < row.sequence && (r.state = .pending || r.state = .stale) &&
      r.creationReason = .cascade && r.claimedBy.isNone
  match mode with
  | .idempotentQueue => queued
  | .idempotentSettled => queued.or <|
      s.latestRun? row.nodeId row.runScopeId fun r => r.sequence < row.sequence && r.state = .fresh
  | _ => none

def inputs (s : Store) (args : RunArgs) (row : NodeRun) (fits : NodeRun → Bool) :
    List (Option Bag) :=
  (bySequence <| s.runs.filter fun r => r.nodeId = row.nodeId && r.runScopeId = row.runScopeId &&
    (fits r && r.state ≠ .failed)).map (inputBag? args s)

end Store

def EndAlike (executed others : List (Option Bag)) : Prop :=
  executed.getLast? = others.getLast? ∨
    ∃ a b, executed.getLast? = some (some a) ∧ others.getLast? = some (some b) ∧ b.same a

/--
Whatever the resolved bag of the row is, if the rule drops the row then the latest run before it
has that input, and the runs that stay end on the input all of them would end on.
-/
def DropsKeepLastInput (args : RunArgs) (s : Store) (row : NodeRun) (mode : CascadeMode) : Prop :=
  ∀ bag, (applyCascadeModeRule args row bag mode s).1 = .ok true →
    (∃ last input, s.lastLive? row = some last ∧ inputBag? args s last = some input ∧
      input.same bag) ∧
    EndAlike
      (s.inputs args row (·.sequence < row.sequence) ++ [some bag] ++
        s.inputs args row (row.sequence < ·.sequence))
      (s.inputs args row (·.sequence < row.sequence) ++
        s.inputs args row (row.sequence < ·.sequence))

/-- The run the mode compares with, if its input is known, has that of the latest run. -/
def ComparesWithLastInput (args : RunArgs) (s : Store) (row : NodeRun) (mode : CascadeMode) :
    Prop :=
  ∀ compared input, s.comparedRun? row mode = some compared →
    inputBag? args s compared = some input →
    ∃ last input', s.lastLive? row = some last ∧ inputBag? args s last = some input' ∧
      input'.same input

section Rule

variable {args : RunArgs} {s : Store} {row prior : NodeRun} {bag : Bag}

theorem bagsEqual_iff :
    (bagsEqual args prior bag s).1 = .ok true ↔
      ∃ input, inputBag? args s prior = some input ∧ input.same bag := by
  unfold bagsEqual inputBag?
  rw [read_bind]
  cases s.dispatchInputBag? prior.id with
  | some stored => simp
  | none =>
    dsimp only
    cases carried : loadReceiverCarryForward prior s with
    | mk carry mid =>
      have same : s = mid := (Walking.readOnly_loadReceiverCarryForward prior).run carried
      subst same
      cases carry with
      | error e => simp [bind_of_error carried]
      | ok carry =>
        rw [bind_of_ok carried, bind_of_ok carried]
        cases built : buildResolvedBagAtGateEval args prior carry s with
        | mk resolved mid =>
          cases resolved with
          | error e => simp [bind_of_error built]
          | ok resolved =>
            rw [bind_of_ok built]
            cases resolved <;> simp

theorem modeDropIfPriorEqual_iff {mode : CascadeMode} (includeSettled : Bool)
    (which : mode = if includeSettled then .idempotentSettled else .idempotentQueue) :
    (modeDropIfPriorEqual args row bag includeSettled s).1 = .ok true ↔
      ∃ compared input, s.comparedRun? row mode = some compared ∧
        inputBag? args s compared = some input ∧ input.same bag := by
  have target : ∀ prior, s.comparedRun? row mode = some prior →
      ((bagsEqual args prior bag s).1 = .ok true ↔
        ∃ compared input, s.comparedRun? row mode = some compared ∧
          inputBag? args s compared = some input ∧ input.same bag) := by
    intro prior found
    simp [bagsEqual_iff, found]
  unfold modeDropIfPriorEqual Nodes.getPriorCascadeQueuedNotClaimed Nodes.getMostRecentSettledRun
  rw [read_bind]
  cases queued : s.latestRun? row.nodeId row.runScopeId fun r =>
      r.sequence < row.sequence && (r.state = .pending || r.state = .stale) &&
        r.creationReason = .cascade && r.claimedBy.isNone with
  | some prior =>
    refine target prior ?_
    cases includeSettled <;> simp [which, comparedRun?, queued]
  | none =>
    cases includeSettled with
    | false => simp [which, comparedRun?, queued]
    | true =>
      simp only [Bool.not_true, Bool.false_eq_true, ↓reduceIte, read_bind]
      cases settled : s.latestRun? row.nodeId row.runScopeId fun r =>
          r.sequence < row.sequence && r.state = .fresh with
      | none => simp [which, comparedRun?, queued, settled]
      | some prior =>
        refine target prior ?_
        simp [which, comparedRun?, queued, settled]

theorem applyCascadeModeRule_drops_iff {mode : CascadeMode}
    (idempotent : mode = .idempotentQueue ∨ mode = .idempotentSettled) :
    (applyCascadeModeRule args row bag mode s).1 = .ok true ↔
      ∃ compared input, s.comparedRun? row mode = some compared ∧
        inputBag? args s compared = some input ∧ input.same bag := by
  rcases idempotent with rfl | rfl
  · exact modeDropIfPriorEqual_iff false rfl
  · exact modeDropIfPriorEqual_iff true rfl

end Rule

theorem Bag.same_refl (bag : Bag) : bag.same bag := (Bag.same_iff _ _).mpr fun _ => rfl

theorem Bag.same_trans {a b c : Bag} (first : a.same b) (second : b.same c) : a.same c := by
  rw [Bag.same_iff] at *
  intro key
  exact (first key).trans (second key)

theorem getLast?_inputs_below (args : RunArgs) (s : Store) (row : NodeRun) :
    (s.inputs args row (·.sequence < row.sequence)).getLast? =
      (s.lastLive? row).map (inputBag? args s) := by
  simp [inputs, lastLive?, latestRun?, List.getLast?_map]

theorem endAlike_of_last {before after : List (Option Bag)} {bag input : Bag}
    (last : before.getLast? = some (some input)) (same : input.same bag) :
    EndAlike (before ++ [some bag] ++ after) (before ++ after) := by
  rcases List.eq_nil_or_concat after with rfl | ⟨others, final, rfl⟩
  · exact .inr ⟨bag, input, by simp, by simpa using last, same⟩
  · refine .inl ?_
    rw [List.getLast?_append, List.getLast?_append]
    simp

/--
Drops of an idempotent mode keep the last input exactly if the run compared with has the input of
the latest run that has not failed.
-/
theorem dropsKeepLastInput_iff (args : RunArgs) (s : Store) (row : NodeRun) {mode : CascadeMode}
    (idempotent : mode = .idempotentQueue ∨ mode = .idempotentSettled) :
    DropsKeepLastInput args s row mode ↔ ComparesWithLastInput args s row mode := by
  constructor
  · intro safe compared input found known
    have dropped := (applyCascadeModeRule_drops_iff idempotent).mpr
      ⟨compared, input, found, known, input.same_refl⟩
    exact (safe input dropped).1
  · intro compares bag dropped
    rcases (applyCascadeModeRule_drops_iff idempotent).mp dropped with
      ⟨compared, input, found, known, same⟩
    rcases compares compared input found known with ⟨last, input', latest, has, alike⟩
    have equal := Bag.same_trans alike same
    refine ⟨⟨last, input', latest, has, equal⟩, endAlike_of_last ?_ equal⟩
    rw [getLast?_inputs_below, latest, Option.map_some, has]

structure Round where
  id : Id
  state : NodeState
  input : Option String := none

def Round.run (r : Round) : NodeRun :=
  { id := r.id, nodeId := 1, enqueuedAt := 0, state := r.state, creationReason := .cascade
    sequence := r.id, frameId := 1, runScopeId := 1
    claimedBy := if r.state = .running then some "a" else none }

def roundsStore (rounds : List Round) : Store where
  runs := rounds.map Round.run
  attributes := rounds.filterMap fun r => r.input.map fun text =>
    { nodeRunId := r.id, nodeId := 1, dispatchInputBag := some [("x", .str text)], updatedAt := 0 }

def roundsArgs : RunArgs := .plain "a"

/-- After a failed second round the third may be dropped: the first is the last that counts. -/
theorem dropsKeepLastInput_after_failure :
    DropsKeepLastInput roundsArgs
      (roundsStore [⟨1, .fresh, "a"⟩, ⟨2, .failed, "b"⟩, ⟨3, .pending, none⟩])
      (Round.run ⟨3, .pending, none⟩) .idempotentSettled := by
  refine (dropsKeepLastInput_iff _ _ _ (.inr rfl)).mpr ?_
  intro compared input found known
  have first : compared = Round.run ⟨1, .fresh, "a"⟩ := Option.some.inj (found.symm.trans rfl)
  subst first
  exact ⟨_, input, rfl, known, input.same_refl⟩

/--
While the second round runs with `b` the third, again with `a`, is compared with the first and
dropped, so that the node ends on `b`.
-/
theorem third_round_lost :
    (applyCascadeModeRule roundsArgs (Round.run ⟨3, .pending, none⟩) [("x", .str "a")]
      .idempotentSettled
      (roundsStore [⟨1, .fresh, "a"⟩, ⟨2, .running, "b"⟩, ⟨3, .pending, none⟩])).1 = .ok true ∧
    ¬ DropsKeepLastInput roundsArgs
      (roundsStore [⟨1, .fresh, "a"⟩, ⟨2, .running, "b"⟩, ⟨3, .pending, none⟩])
      (Round.run ⟨3, .pending, none⟩) .idempotentSettled := by
  have dropped : (applyCascadeModeRule roundsArgs (Round.run ⟨3, .pending, none⟩)
      [("x", .str "a")] .idempotentSettled
      (roundsStore [⟨1, .fresh, "a"⟩, ⟨2, .running, "b"⟩, ⟨3, .pending, none⟩])).1 = .ok true := by
    rfl
  refine ⟨dropped, fun safe => ?_⟩
  rcases (safe _ dropped).1 with ⟨last, input, latest, has, same⟩
  have second : last = Round.run ⟨2, .running, "b"⟩ := Option.some.inj (latest.symm.trans rfl)
  subst second
  have other : input = [("x", .str "b")] := Option.some.inj (has.symm.trans rfl)
  subst other
  revert same
  decide

end Rimsky
