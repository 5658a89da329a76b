import Rimsky.Runtime.Settlements

/-!
# Claims are committed over completed holders

The check of a claim that several runs hold looks at the rows of its holders, while a fan-out
parent is settled by the counters of its sub-claims. Both commit only once no holder is in
flight; only the first sees that a holder has failed.
-/

namespace Rimsky

open Transaction List Store

/--
What any settlement does to handles and holders, whoever holds the handles: what is resolved
stays, holders finish once, and commits keep to the rule.
-/
structure Obeys (rule : CommitRule) (s s' : Store) : Prop extends Outlasts s s' where
  holders : ∀ x' ∈ s'.claimHolders, ∃ x ∈ s.claimHolders, x.Finishes x'
  commits : ∀ id h h', s.claimHandle? id = some h → s'.claimHandle? id = some h' →
    h.state = .active → h'.state = .committed → rule.Allows (s'.holdersOf id)

variable {s : Store} {s' : Store}

theorem CommitRule.Allows.finish {rule : CommitRule} {id : Id}
    (allows : rule.Allows (s.holdersOf id))
    (holders : ∀ x' ∈ s'.claimHolders, ∃ x ∈ s.claimHolders, x.Finishes x') :
    rule.Allows (s'.holdersOf id) := by
  cases rule with
  | never => exact allows
  | always => trivial
  | completed =>
    intro x' mem
    rcases mem_filter.mp mem with ⟨mem, ofHandle⟩
    rcases holders x' mem with ⟨x, old, finishes⟩
    have done := allows x (mem_filter.mpr ⟨old, finishes.handle ▸ ofHandle⟩)
    rw [finishes.once (by rw [done]; simp), done]

namespace Obeys

variable {rule : CommitRule} {supervisorId : String} {s mid s' : Store}

theorem of_resolves (resolves : Resolves supervisorId rule s s') : Obeys rule s s' := by
  refine ⟨resolves.disposes.toOutlasts, fun x mem => ?_, resolves.commits⟩
  exact ⟨x, resolves.holders x mem, rfl, rfl, fun _ => rfl⟩

theorem of_uncommitted (outlasts : Outlasts s s')
    (uncommitted : ∀ id h h', s.claimHandle? id = some h → s'.claimHandle? id = some h' →
      h.state = .active → h'.state ≠ .committed)
    (holders : ∀ x' ∈ s'.claimHolders, ∃ x ∈ s.claimHolders, x.Finishes x') : Obeys rule s s' :=
  ⟨outlasts, holders, fun id h h' old new active committed =>
    absurd committed (uncommitted id h h' old new active)⟩

theorem of_handles (handles : s'.claimHandles = s.claimHandles)
    (holders : ∀ x' ∈ s'.claimHolders, ∃ x ∈ s.claimHolders, x.Finishes x') : Obeys rule s s' := by
  have found := claimHandle?_of_same handles
  refine of_uncommitted (.of_map (fun id => (found id).trans Option.map_id'.symm) .refl) ?_ holders
  intro id h h' old new active
  rw [found, old] at new
  cases new
  simp [active]

theorem trans (first : Obeys rule s mid) (second : Obeys rule mid s') : Obeys rule s s' := by
  refine ⟨first.toOutlasts.trans second.toOutlasts, ?_, ?_⟩
  · intro x'' mem
    rcases second.holders x'' mem with ⟨x', mem', finishes'⟩
    rcases first.holders x' mem' with ⟨x, mem, finishes⟩
    refine ⟨x, mem, finishes'.handle.trans finishes.handle, finishes'.run.trans finishes.run, ?_⟩
    intro finished
    rw [finishes.once finished] at finishes'
    exact finishes'.once finished
  · intro id h h' old new active committed
    rcases second.row new with ⟨hMid, between, progresses⟩
    by_cases still : hMid.state = .active
    · exact second.commits id hMid h' between new still committed
    · have early := (progresses.resolved still).symm.trans committed
      exact (first.commits id h hMid old between active early).finish second.holders

instance : IsPreorder Store (Obeys rule) where
  refl _ := of_handles rfl fun x mem => ⟨x, mem, rfl, rfl, fun _ => rfl⟩
  trans _ _ _ := trans

theorem of_marks {claimHandleId : Id} (marks : Marks claimHandleId s s') : Obeys rule s s' := by
  rcases marks with ⟨finish, each, -, rfl⟩
  refine of_handles rfl fun x' mem => ?_
  rcases mem_map.mp mem with ⟨x, old, rfl⟩
  exact ⟨x, old, each x⟩

end Obeys

theorem promoteHandleState_obeys {td : TerminalDecision} {u : Unit}
    (uncommitted : td.outcome = .commit → ∀ h, s.claimHandle? td.claimHandleId = some h →
      h.state = .active → h.holderSupervisorId ≠ some td.supervisorId)
    (run : promoteHandleState td s = (.ok u, s')) : Obeys rule s s' := by
  have found := claimHandle?_promoted run
  refine .of_uncommitted (.of_map found (td.promotion_progresses s.clock)) ?_ ?_
  · intro id h h' old new active committed
    rw [found, old] at new
    cases new
    by_cases mine : h.id = td.claimHandleId ∧ h.holderSupervisorId = some td.supervisorId
    · rw [TerminalDecision.promotion_of_owned mine.1 active mine.2] at committed
      refine uncommitted (TerminalOutcome.eq_commit committed) h ?_ active mine.2
      rw [← mine.1, id_of_claimHandle? old, old]
    · rw [TerminalDecision.promotion_of_unowned, active] at committed
      · cases committed
      · exact fun same _ owned => mine ⟨same, owned⟩
  · intro x mem
    rw [promoteHandleState_ok run] at mem
    exact ⟨x, mem, rfl, rfl, fun _ => rfl⟩

section Decisions

variable {rule : CommitRule} {args : RunArgs} {fuel : Nat} {s s' : Store} {post : List PostCommit}

variable (mayCommit : rule ≠ .never)

include mayCommit in
theorem resolveClaimHandleTerminal_obeys {td : TerminalDecision} (sound : s.ClaimsSound)
    (source : td.source ≠ .ownershipBail) (supervisor : td.supervisorId = args.supervisorId)
    (parent : ∀ parentId, td.parentClaimHandleId = some parentId → ∃ row,
      s.claimHandle? td.claimHandleId = some row ∧ row.parentClaimHandleId = some parentId)
    (allows : td.outcome = .commit → rule.Allows (s.holdersOf td.claimHandleId))
    (tolerant : s.FanOutsTolerant rule none)
    (run : (knot args fuel).resolveClaimHandleTerminal td s = (.ok post, s')) :
    s'.ClaimsSound ∧ Obeys rule s s' ∧ s'.FanOutsTolerant rule none ∧
      ∀ x ∈ s'.claimHolders, x ∈ s.claimHolders := by
  by_cases mine : ∃ row, s.claimHandle? td.claimHandleId = some row ∧ row.state = .active ∧
      row.holderSupervisorId = some args.supervisorId
  · rcases mine with ⟨row, known, active, owned⟩
    have decides : s.Decides args.supervisorId td row := by
      refine ⟨source, supervisor, known, active, owned, ?_⟩
      cases up : td.parentClaimHandleId with
      | none => exact .inl rfl
      | some parentId =>
        rcases parent parentId up with ⟨row', known', ofParent⟩
        rw [known] at known'
        cases known'
        exact .inr ofParent.symm
    rcases knot_ascends args fuel mayCommit td row s s' post sound decides allows
      (tolerant.except _) run with ⟨sound', resolves, -⟩
    exact ⟨sound', .of_resolves resolves, tolerant.resolves sound' resolves, resolves.holders⟩
  · cases fuel with
    | zero => cases run
    | succ fuel =>
      -- the verb is queued although the promotion will be refused
      rcases resolveClaimHandleTerminalBody_runs source run with
        ⟨s₁, s₂, s₃, s₄, runs, top, ascend⟩
      rcases enqueueProducerVerb_queues sound runs.queue with ⟨sound₁, queues⟩
      have same := claimHandle?_of_same queues.handles
      have first : Obeys rule s s₁ := .of_handles queues.handles fun x mem =>
        ⟨x, queues.holders ▸ mem, rfl, rfl, fun _ => rfl⟩
      rcases runs.descent (knot_descends args fuel) sound₁ with ⟨sound₂, resolves₂⟩
      have refused : td.outcome = .commit → ∀ h, s₂.claimHandle? td.claimHandleId = some h →
          h.state = .active → h.holderSupervisorId ≠ some td.supervisorId := by
        intro commits h found active owned
        rw [runs.keep commits, same] at found
        exact mine ⟨h, found, active, supervisor ▸ owned⟩
      rcases runs.defers (Apart.gate args fuel) sound₂ with ⟨sound₃, apart⟩
      have silent : s₄.ClaimsSound ∧ Resolves args.supervisorId rule s₃ s₄ :=
        apart.resolves sound₃
      have before : Obeys rule s s₄ := first.trans (Obeys.trans (.of_resolves resolves₂.of_never)
        ((promoteHandleState_obeys refused runs.promote).trans (.of_resolves silent.2)))
      have fewer₂ : ∀ x ∈ s₄.claimHolders, x ∈ s₂.claimHolders := by
        intro x mem
        have promoted := silent.2.holders x mem
        rwa [promoteHandleState_ok runs.promote] at promoted
      have fewer : ∀ x ∈ s₄.claimHolders, x ∈ s.claimHolders := by
        intro x mem
        exact queues.holders ▸ resolves₂.holders x (fewer₂ x mem)
      -- the promotion keeps the tree as it is
      have tolerant₄ : s₄.FanOutsTolerant rule none := by
        have tolerant₁ : s₁.FanOutsTolerant rule none :=
          tolerant.mono sound₁ (.of_same queues.handles) fun x mem => queues.holders ▸ mem
        have tolerant₂ := tolerant₁.resolves sound₂ resolves₂.of_never
        exact tolerant₂.mono silent.1 (runs.ages (Apart.gate args fuel) sound₂) fewer₂
      cases up : td.parentClaimHandleId with
      | none =>
        rw [top up]
        exact ⟨silent.1, before, tolerant₄, fewer⟩
      | some parentId =>
        rcases ascend parentId up with ⟨metadata, settled, settle⟩
        have isParent : s₄.IsParent parentId := by
          rcases parent parentId up with ⟨row, known, ofParent⟩
          rcases resolves₂.rows _ _ ((same _).trans known) with ⟨row₂, known₂, advances⟩
          have known₃ : s₃.claimHandle? td.claimHandleId = some (td.promotion s₂.clock row₂) := by
            rw [claimHandle?_promoted runs.promote, known₂]
            rfl
          refine silent.2.isParent ⟨_, _, known₃, ?_⟩
          rw [td.promotion_parent, advances.parent, ofParent]
        have settles := settleFromFanoutChild_resolves mayCommit (knot_ascends args fuel mayCommit)
          silent.1 tolerant₄ ?_ (.inl isParent) settle
        · exact ⟨settles.1, before.trans (.of_resolves settles.2),
            tolerant₄.resolves settles.1 settles.2, fun x mem => fewer x (settles.2.holders x mem)⟩
        · intro p found active
          have pId := id_of_claimHandle? found
          rw [← pId] at isParent ⊢
          exact tolerant₄ p (mem_of_claimHandle? found) active (by simp) isParent

theorem ClaimHandles.delete_obeys {id : Id} {supervisorId : String} {u : Unit}
    (sound : s.ClaimsSound) (run : ClaimHandles.delete id supervisorId s = (.ok u, s')) :
    s'.ClaimsSound ∧ Obeys rule s s' := by
  rcases ClaimHandles.delete_disposes sound run with ⟨sound', disposes⟩
  rw [ClaimHandles.delete_ok run] at sound' disposes ⊢
  refine ⟨sound', .of_uncommitted disposes.toOutlasts ?_ fun x mem =>
    ⟨x, (mem_filter.mp mem).1, rfl, rfl, fun _ => rfl⟩⟩
  intro id' h h' old new active
  rcases row_of_deleteHandles sound new with ⟨h₀, old', same⟩
  rw [old] at old'
  cases old'
  rcases same with rfl | rfl
  · simp [active]
  · simp [active]

end Decisions

/-- The condition under which a call does not commit over a holder that failed or is in flight. -/
def ClaimCall.CommitsBy (rule : CommitRule) (supervisorId : String) (s : Store) : ClaimCall → Prop
  | .releaseAcquiredLock acq success lk =>
    match lk.spec with
    | .named _ => True
    | .claim _ claimAlias =>
      if isAliasHeld acq.heldSubgraphs acq.nodeType claimAlias then
        s.FanOutsTolerant rule (some lk.claimHandleId)
      else s.FanOutsTolerant rule none ∧
        (success → rule.Allows (s.holdersOf lk.claimHandleId))
  | .resolveLinkedSubClaims acq success => s.FanOutsTolerant rule none ∧
      (success → ∀ row ∈ s.linkedSubClaims acq, rule.Allows (s.holdersOf row.id))
  | .releaseInherited claimHandleId _ _ => s.FanOutsTolerant rule (some claimHandleId)
  | .checkAndFireResolution claimHandleId => s.FanOutsTolerant rule (some claimHandleId)
  | .settleFromFanoutChild parentId _ _ _ => s.FanOutsTolerant rule none ∧
      s.Tolerant rule parentId ∧ s.MaySettle supervisorId parentId
  | .cancelInFlightSiblings _ _ => s.FanOutsTolerant rule none
  | .cancelDescendantClaims _ => True
  | .elsewhere m => Steps Apart m

section Calls

variable {rule : CommitRule} {args : RunArgs} {fuel : Nat} {s s' : Store} {post : List PostCommit}
  (mayCommit : rule ≠ .never)

include mayCommit

theorem checkAndFireResolution_obeys {mid : Store} {claimHandleId : Id} (sound : s.ClaimsSound)
    (marks : Marks claimHandleId s mid) (tolerant : s.FanOutsTolerant rule (some claimHandleId))
    (run : checkAndFireResolution args (knot args fuel) claimHandleId mid = (.ok post, s')) :
    s'.ClaimsSound ∧ Obeys rule s s' :=
  (checkAndFireResolution_resolves mayCommit (marks.sound sound) (marks.tolerant tolerant)
    run).imp_right fun resolves => (Obeys.of_marks marks).trans (.of_resolves resolves)

theorem releaseClaim_obeys {acq : Acquisition} {lk : AcquiredLock} {claimAlias : String}
    {success : Bool} (sound : s.ClaimsSound)
    (condition : if isAliasHeld acq.heldSubgraphs acq.nodeType claimAlias then
        s.FanOutsTolerant rule (some lk.claimHandleId)
      else s.FanOutsTolerant rule none ∧
        (success → rule.Allows (s.holdersOf lk.claimHandleId)))
    (run : releaseClaim args (knot args fuel) acq lk claimAlias success s = (.ok post, s')) :
    s'.ClaimsSound ∧ Obeys rule s s' := by
  rcases releaseClaim_cases run with ⟨held, mid, marks, check⟩ |
    ⟨notHeld, ⟨-, -, -, rfl⟩ | ⟨td, releases, run⟩⟩
  · rw [if_pos held] at condition
    exact checkAndFireResolution_obeys mayCommit sound marks condition check
  · exact ⟨sound, refl _⟩
  · rw [if_neg (by simp [notHeld])] at condition
    have completes := resolveClaimHandleTerminal_obeys mayCommit sound (by simp [releases.source])
      releases.supervisor ?_ ?_ condition.1 run
    · exact ⟨completes.1, completes.2.1⟩
    · intro parentId up
      rw [releases.parent] at up
      rcases Option.bind_eq_some_iff.mp up with ⟨row, found, ofParent⟩
      exact ⟨row, releases.ofHandle ▸ found, ofParent⟩
    · intro commits
      rw [releases.ofHandle]
      exact condition.2 (releases.succeeds commits)

theorem resolveLinkedSubClaims_obeys {acq : Acquisition} {success : Bool} (sound : s.ClaimsSound)
    (tolerant : s.FanOutsTolerant rule none)
    (completed : success → ∀ row ∈ s.linkedSubClaims acq, rule.Allows (s.holdersOf row.id))
    (run : resolveLinkedSubClaims args (knot args fuel) acq success s = (.ok post, s')) :
    s'.ClaimsSound ∧ Obeys rule s s' := by
  have runs := resolveLinkedSubClaims_runs (R := Obeys rule)
    (I := fun rows s => s.ClaimsSound ∧ s.FanOutsTolerant rule none ∧
      (success → ∀ row ∈ rows, rule.Allows (s.holdersOf row.id)))
    ?_ ?_ ⟨sound, tolerant, completed⟩ run
  · exact ⟨runs.1.1, runs.2⟩
  · rintro row rows s ⟨sound, tolerant, completed⟩
    exact ⟨sound, tolerant, fun commits row' mem => completed commits row' (mem_cons_of_mem _ mem)⟩
  · rintro row rows h td s s' post ⟨sound, tolerant, completed⟩ found releases step
    have resolved := resolveClaimHandleTerminal_obeys mayCommit sound (by simp [releases.source])
      releases.supervisor ?_ ?_ tolerant step
    · rcases resolved with ⟨sound', completes, tolerant', fewer⟩
      refine ⟨⟨sound', tolerant', fun commits row' mem => ?_⟩, completes⟩
      exact (completed commits row' (mem_cons_of_mem _ mem)).mono (holdersOf_mono fewer _)
    · intro parentId up
      exact ⟨h, releases.ofHandle ▸ found, releases.up found ▸ up⟩
    · intro commits
      rw [releases.ofHandle]
      exact completed (releases.succeeds commits) row mem_cons_self

theorem ClaimCall.obeys {call : ClaimCall} (sound : s.ClaimsSound)
    (condition : call.CommitsBy rule args.supervisorId s)
    (run : call.perform args (knot args fuel) s = (.ok post, s')) :
    s'.ClaimsSound ∧ Obeys rule s s' := by
  cases call with
  | releaseAcquiredLock acq success lk =>
    simp only [perform, Rimsky.releaseAcquiredLock] at run
    cases spec : lk.spec with
    | named name =>
      simp only [spec] at run
      rcases bind_eq_ok.mp run with ⟨_, mid, delete, done⟩
      cases done
      exact ClaimHandles.delete_obeys sound delete
    | claim producerName claimAlias =>
      simp only [spec, CommitsBy] at run condition
      exact releaseClaim_obeys mayCommit sound condition run
  | resolveLinkedSubClaims acq success =>
    exact resolveLinkedSubClaims_obeys mayCommit sound condition.1 condition.2 run
  | releaseInherited claimHandleId runId success =>
    rcases bind_eq_ok.mp run with ⟨_, mid, mark, check⟩
    exact checkAndFireResolution_obeys mayCommit sound (markClaimHolderForRun_marks mark) condition
      check
  | checkAndFireResolution claimHandleId =>
    exact checkAndFireResolution_obeys mayCommit sound (.refl _ s) condition run
  | settleFromFanoutChild parentId childId childOutcome metadata =>
    exact (settleFromFanoutChild_resolves mayCommit (knot_ascends args fuel mayCommit) sound
      condition.1 (fun _ _ _ => condition.2.1) condition.2.2 run).imp_right .of_resolves
  | cancelInFlightSiblings parentId triggerId =>
    exact (cancelInFlightSiblings_resolves (knot_ascends args fuel mayCommit) sound condition
      run).imp_right .of_resolves
  | cancelDescendantClaims rowId =>
    exact (cancelDescendantClaims_resolves (knot_descends args fuel) sound run).imp_right
      fun resolves => .of_resolves resolves.of_never
  | elsewhere m =>
    rcases bind_eq_ok.mp run with ⟨_, mid, step, done⟩
    have silent : mid.ClaimsSound ∧ Resolves args.supervisorId rule s mid :=
      (Steps.run condition step).resolves sound
    cases done
    exact silent.imp_right .of_resolves

end Calls

/-- Every handle that the step commits has completed holders only. -/
def CommitsOverCompleted (s s' : Store) : Prop :=
  ∀ id h h', s.claimHandle? id = some h → s'.claimHandle? id = some h' → h.state = .active →
    h'.state = .committed → ∀ x ∈ s'.holdersOf id, x.state = .completed

/--
A claim is never committed over a holder that did not complete: over every sequence of settlements
in which no handle with sub-claims is settled by them once one of its holders has failed, and
plain releases commit only what has completed holders.
-/
theorem committedOverCompleted {s₀ s : Store} (sound : s₀.ClaimsSound)
    (run : Reaches ClaimSettlement.step (ClaimSettlement.Meets (ClaimCall.CommitsBy .completed))
      s₀ s)
    (t : ClaimSettlement) (meets : t.Meets (ClaimCall.CommitsBy .completed) s) :
    CommitsOverCompleted s (commit t.transaction s).2 := by
  have mayCommit : CommitRule.completed ≠ .never := by simp
  have completes : ∀ (t : ClaimSettlement) (s : Store), s.ClaimsSound →
      t.Meets (ClaimCall.CommitsBy .completed) s →
      (commit t.transaction s).2.ClaimsSound ∧ Obeys .completed s (commit t.transaction s).2 := by
    intro t s sound meets
    exact t.runs (I := Store.ClaimsSound) (R := Obeys .completed)
      (fun _ _ _ _ sound condition run => ClaimCall.obeys mayCommit sound condition run) sound meets
  have sound' : s.ClaimsSound := by
    refine run.invariant (I := Store.ClaimsSound) ?_ sound
    intro s t s' sound meets taken
    cases taken
    exact (completes t s sound meets).1
  exact (completes t s sound' meets).2.commits

/-- A claim that a second run holds along, split into one sub-claim. -/
def splitStore : Store where
  nodes := [{ id := 1, instanceId := 1, nodeType := "writer" }]
  runs := [1, 3, 5].map fun id => {
    id, nodeId := 1, enqueuedAt := 0, state := .running, creationReason := .cascade
    sequence := 1, frameId := 1, runScopeId := 1 }
  claimHandles := [
    { vaultHandle "a" with
      id := 1, nodeRunId := some 1, isHeld := true, expectedChildrenCount := 1 },
    { vaultHandle "a" with id := 2, nodeRunId := some 3, parentClaimHandleId := some 1 }]
  claimHolders := [{ id := 8, claimHandleId := 1, holderRunId := 5 }]
  nextId := 10

def otherHolderSettles (success : Bool) : ClaimSettlement where
  args := RunArgs.plain "b"
  fuel := 2
  calls := [.releaseInherited 1 5 success]

def subClaimSettles : ClaimSettlement where
  args := RunArgs.plain "a"
  fuel := 3
  calls := [.resolveLinkedSubClaims { vaultAcquisition with nodeRunId := 3, locks := [] } true]

theorem splitStore_sound : splitStore.ClaimsSound :=
  ⟨pendingFree_of_bounded (by decide) (by decide) (by decide), by decide, by decide⟩

theorem not_commitsOverCompleted (id : Id) (before : (s.claimHandle? id).any (·.state = .active))
    (after : (s'.claimHandle? id).any (·.state = .committed))
    (unfinished : (s'.holdersOf id).any (·.state ≠ .completed)) : ¬CommitsOverCompleted s s' := by
  intro completed
  rcases any_eq_true.mp unfinished with ⟨x, mem, other⟩
  cases old : s.claimHandle? id with
  | none => simp [old] at before
  | some h =>
    cases new : s'.claimHandle? id with
    | none => simp [new] at after
    | some h' =>
      rw [old, Option.any_some, decide_eq_true_eq] at before
      rw [new, Option.any_some, decide_eq_true_eq] at after
      exact of_decide_eq_true other (completed id h h' old new before after x mem)

/-- The failure of the other holder is not seen when the sub-claim settles the claim. -/
theorem splitStore_commits_over_failed :
    splitStore.ClaimsSound ∧ ∃ s, ClaimSettlement.step splitStore (otherHolderSettles false) =
      some s ∧ ¬CommitsOverCompleted s (commit subClaimSettles.transaction s).2 := by
  refine ⟨splitStore_sound, _, rfl, not_commitsOverCompleted 1 ?_ ?_ ?_⟩
  · decide +kernel
  · decide +kernel
  · decide +kernel

theorem Store.fanOutsTolerant_of_rows {except : Option Id}
    (rows : ∀ p ∈ s.claimHandles, p.state = .active → some p.id ≠ except →
      (∃ child ∈ s.claimHandles, child.parentClaimHandleId = some p.id) →
      ∀ x ∈ s.holdersOf p.id, x.state ≠ .failed) :
    s.FanOutsTolerant .completed except := by
  rintro p mem active other ⟨_, child, found, ofParent⟩
  exact rows p mem active other ⟨child, mem_of_claimHandle? found, ofParent⟩

/-- With the other holder completed, the claim is committed over completed holders. -/
theorem splitStore_commits_over_completed :
    ∃ s, ClaimSettlement.step splitStore (otherHolderSettles true) = some s ∧
      CommitsOverCompleted s (commit subClaimSettles.transaction s).2 := by
  refine ⟨_, rfl, committedOverCompleted splitStore_sound
    (.tail (otherHolderSettles true) (.refl _) ⟨?_, fun _ _ _ => trivial⟩ rfl) subClaimSettles
    ⟨⟨?_, fun _ => ?_⟩, fun _ _ _ => trivial⟩⟩
  · exact fanOutsTolerant_of_rows (by decide)
  · exact fanOutsTolerant_of_rows (by decide +kernel)
  · change ∀ row ∈ _, ∀ x ∈ _, _
    decide +kernel

end Rimsky
