import Rimsky.Runtime.CompletedHolders

/-!
# The poison rule

A claim that several runs hold is to be abandoned as soon as one of them fails, and the others
are to lose their rows in the same transaction. When its acquirer fails, all rows are failed
before the claim is checked, provided the acquirer's supervisor holds the handle. When a co-holder
fails, only its own row is failed, and the check waits for the rows that are still active. An
acquisition that does not carry the holding sub-graphs, as the one a callback settles, takes
neither way: the acquirer abandons its handle and leaves all rows, and a co-holder releases
nothing.
-/

namespace Rimsky

open Transaction List Store ClaimHolders

/-- The handle is abandoned, and nobody holds it any more. -/
def Store.Struck (s : Store) (id : Id) : Prop :=
  (∃ h, s.claimHandle? id = some h ∧ h.state = .abandoned) ∧ ∀ x ∈ s.holdersOf id, x.state ≠ .active

theorem Store.not_struck_of_active {s : Store} {id : Id} {h : ClaimHandle}
    (found : s.claimHandle? id = some h) (active : h.state = .active) : ¬s.Struck id := by
  rintro ⟨⟨h', found', abandoned⟩, -⟩
  rw [found] at found'
  cases found'
  rw [active] at abandoned
  cases abandoned

def Store.Unheld (s : Store) (id : Id) : Prop :=
  ∀ h, s.claimHandle? id = some h → h.holderSupervisorId = none

def ClaimHolder.finished (x : ClaimHolder) (claimHandleId runId : Id) (state : ClaimHolderState) :
    ClaimHolder :=
  if (x.claimHandleId = claimHandleId && x.holderRunId = runId) && x.state = .active then
    { x with state }
  else x

variable {claimHandleId : Id} {runId : Id} {u : Unit}

theorem markClaimHolderForRun_ok {success : Bool} {s s' : Store}
    (run : markClaimHolderForRun claimHandleId runId success s = (.ok u, s')) :
    (∃ x ∈ s.claimHolders, x.claimHandleId = claimHandleId ∧ x.holderRunId = runId ∧
      x.state = .active) ∧
    s' = { s with
      claimHolders := s.claimHolders.map fun x =>
        x.finished claimHandleId runId (if success then .completed else .failed) } := by
  simp only [markClaimHolderForRun, completeByClaimHandleAndRun,
    completeWhere, read_bind] at run
  split at run
  case isTrue own =>
    rcases any_eq_true.mp own with ⟨x, mem, fits⟩
    simp only [Bool.and_eq_true, decide_eq_true_eq] at fits
    exact ⟨⟨x, mem, fits.1.1, fits.1.2, fits.2⟩, (congrArg Prod.snd run).symm⟩
  case isFalse => cases run

theorem markClaimHolderForRun_fails {s s' : Store}
    (run : markClaimHolderForRun claimHandleId runId false s = (.ok u, s')) :
    s'.claimHandles = s.claimHandles ∧ (∃ x ∈ s'.holdersOf claimHandleId, x.state = .failed) ∧
      ((∃ x ∈ s'.holdersOf claimHandleId, x.state = .active) ↔
        ∃ x ∈ s.holdersOf claimHandleId, x.holderRunId ≠ runId ∧ x.state = .active) := by
  rcases markClaimHolderForRun_ok run with ⟨⟨own, ownMem, ofHandle, ofRun, ownActive⟩, marked⟩
  rw [marked]
  refine ⟨rfl, ⟨own.finished claimHandleId runId .failed, ?_, ?_⟩, ?_, ?_⟩
  · refine mem_filter.mpr ⟨mem_map_of_mem ownMem, ?_⟩
    simp [ClaimHolder.finished, ofHandle, ofRun, ownActive]
  · simp [ClaimHolder.finished, ofHandle, ofRun, ownActive]
  · rintro ⟨x', mem, active⟩
    rcases mem_filter.mp mem with ⟨mem, ofHandle'⟩
    rcases mem_map.mp mem with ⟨x, old, rfl⟩
    unfold ClaimHolder.finished at active ofHandle'
    split at active
    case isTrue => cases active
    case isFalse others =>
      rw [if_neg others] at ofHandle'
      refine ⟨x, mem_filter.mpr ⟨old, ofHandle'⟩, fun same => others ?_, active⟩
      simpa [same, active] using ofHandle'
  · rintro ⟨x, mem, other, active⟩
    rcases mem_filter.mp mem with ⟨mem, ofHandle'⟩
    have kept : x.finished claimHandleId runId .failed = x := by
      simp [ClaimHolder.finished, other]
    exact ⟨x, mem_filter.mpr ⟨mem_map.mpr ⟨x, mem, kept⟩, ofHandle'⟩, active⟩

theorem failAllActiveByClaimHandle_fails {supervisorId : String} {s s' : Store} {h : ClaimHandle}
    (known : s.claimHandle? claimHandleId = some h)
    (owned : h.holderSupervisorId = some supervisorId)
    (run : ClaimHolders.failAllActiveByClaimHandle claimHandleId supervisorId s = (.ok u, s')) :
    s'.claimHandles = s.claimHandles ∧ (∀ x ∈ s'.holdersOf claimHandleId, x.state ≠ .active) ∧
      ((∃ x ∈ s.holdersOf claimHandleId, x.state = .failed) →
        ∃ x ∈ s'.holdersOf claimHandleId, x.state = .failed) := by
  have after := (congrArg Prod.snd run).symm
  simp only [failAllActiveByClaimHandle, write_apply, known, Option.any_some,
    ClaimHandles.claimant, owned, decide_true, if_true] at after
  rw [after]
  refine ⟨rfl, ?_, ?_⟩
  · intro x' mem active
    rcases mem_filter.mp mem with ⟨mem, ofHandle⟩
    rcases mem_map.mp mem with ⟨x, old, rfl⟩
    split at active
    case isTrue => cases active
    case isFalse others =>
      rw [if_neg others] at ofHandle
      exact others (by simpa [active] using ofHandle)
  · rintro ⟨x, mem, failed⟩
    rcases mem_filter.mp mem with ⟨mem, ofHandle⟩
    refine ⟨x, mem_filter.mpr ⟨mem_map.mpr ⟨x, mem, ?_⟩, ofHandle⟩, failed⟩
    simp [failed]

section Check

variable {args : RunArgs} {fuel : Nat} {claimHandleId : Id} {row : ClaimHandle} {s s' : Store}
  {post : List PostCommit}

theorem checkAndFireResolution_skips {rec : Rec} (known : s.claimHandle? claimHandleId = some row)
    (waits : row.holderSupervisorId ≠ some args.supervisorId ∨
      ∃ x ∈ s.holdersOf claimHandleId, x.state = .active)
    (run : checkAndFireResolution args rec claimHandleId s = (.ok post, s')) : s' = s := by
  rcases checkAndFireResolution_runs run with ⟨-, same⟩ | ⟨row', td, found, fires, -⟩
  · exact same
  rw [known] at found
  cases found
  rcases waits with other | ⟨x, mem, active⟩
  · exact absurd fires.owned other
  · have joined := fires.joined
    simp only [awaitsHolders, Bool.or_eq_false_iff, any_eq_false] at joined
    exact absurd (by simpa using active) (joined.1.2 x (id_of_claimHandle? known ▸ mem))

/-- The handle is abandoned over finished holders, and its supervisor lets go of it. -/
theorem Store.Decides.strikes {td : TerminalDecision}
    (decides : s.Decides args.supervisorId td row) (ofHandle : td.claimHandleId = claimHandleId)
    (abandons : td.outcome.isAbandon) (sound : s.ClaimsSound)
    (finished : ∀ x ∈ s.holdersOf claimHandleId, x.state ≠ .active)
    (run : (knot args fuel).resolveClaimHandleTerminal td s = (.ok post, s')) :
    s'.Struck claimHandleId ∧ s'.Unheld claimHandleId := by
  subst ofHandle
  rcases decides.settled sound run with ⟨-, resolves, row', after, state⟩
  have abandoned : row'.state = .abandoned := by rw [state, TerminalOutcome.state, if_pos abandons]
  refine ⟨⟨⟨row', after, abandoned⟩, fun y mem => finished y (resolves.holdersOf _ y mem)⟩, ?_⟩
  intro h' same
  rcases resolves.rows _ _ decides.known with ⟨h₁, after₁, advances⟩
  rw [after] at after₁ same
  cases after₁
  cases same
  exact advances.released decides.active (by simp [abandoned])

theorem checkAndFireResolution_strikes (sound : s.ClaimsSound)
    (known : s.claimHandle? claimHandleId = some row) (active : row.state = .active)
    (owned : row.holderSupervisorId = some args.supervisorId)
    (failed : ∃ x ∈ s.holdersOf claimHandleId, x.state = .failed)
    (finished : ∀ x ∈ s.holdersOf claimHandleId, x.state ≠ .active)
    (run : checkAndFireResolution args (knot args fuel) claimHandleId s = (.ok post, s')) :
    s'.Struck claimHandleId ∧ s'.Unheld claimHandleId := by
  have rowId := id_of_claimHandle? known
  rcases failed with ⟨x, mem, isFailed⟩
  have anyFailed : s.anyHolderFailed row.id = true :=
    any_eq_true.mpr ⟨x, rowId ▸ mem, by simpa using isFailed⟩
  rcases checkAndFireResolution_runs run with ⟨stays, -⟩ | ⟨row', td, found, fires, run⟩
  · rcases autoTerminal_none known owned active stays with holders | children
    · simp only [awaitsHolders, Bool.or_eq_true] at holders
      rcases holders with (nobody | flying) | missing
      · exact absurd (isEmpty_iff.mp nobody) (ne_nil_of_mem (rowId ▸ mem))
      · rcases any_eq_true.mp flying with ⟨y, yMem, yActive⟩
        exact absurd (by simpa using yActive) (finished y (rowId ▸ yMem))
      · simp only [anyHolderFailed] at anyFailed
        simp [anyFailed] at missing
    · simp [awaitsChildren, anyFailed] at children
  · rw [known] at found
    cases found
    refine (fires.decides known).strikes (fires.handle.trans rowId) ?_ sound finished run
    rw [fires.outcome, anyFailed]
    simp [ClaimHandle.autoOutcome, TerminalOutcome.isAbandon]

end Check

/-- The release of an acquired claim finds it in the holding sub-graphs of the acquisition. -/
def AcquiredLock.IsHeldBy (lk : AcquiredLock) (acq : Acquisition) : Prop :=
  match lk.spec with
  | .named _ => False
  | .claim _ claimAlias => isAliasHeld acq.heldSubgraphs acq.nodeType claimAlias

/-- The failure of a holder of the claim is released by the call. -/
def ClaimCall.FailsHolder (id : Id) : ClaimCall → Prop
  | .releaseAcquiredLock _ success lk => success = false ∧ lk.claimHandleId = id ∧
      ∃ producerName claimAlias, lk.spec = .claim producerName claimAlias
  | .releaseInherited claimHandleId _ success => success = false ∧ claimHandleId = id
  | _ => False

/--
The supervisor holds the handle, a co-holder that fails is the last one, and an acquirer that
fails knows that the claim is held, unless no holder is in flight.
-/
def ClaimCall.Strikes (supervisorId : String) (s : Store) (id : Id) (call : ClaimCall) : Prop :=
  (∀ h, s.claimHandle? id = some h → h.holderSupervisorId = some supervisorId) ∧
    match call with
    | .releaseAcquiredLock acq _ lk =>
      lk.IsHeldBy acq ∨ ∀ x ∈ s.holdersOf id, x.state ≠ .active
    | .releaseInherited _ runId _ =>
      ∀ x ∈ s.holdersOf id, x.holderRunId ≠ runId → x.state ≠ .active
    | _ => True

/-- The call looks at the holders of the claim. -/
def ClaimCall.Checks : ClaimCall → Prop
  | .releaseAcquiredLock acq _ lk => lk.IsHeldBy acq
  | _ => True

section Fails

variable {args : RunArgs} {fuel : Nat} {id : Id} {h : ClaimHandle} {s s' : Store}
  {post : List PostCommit}

theorem releaseInherited_strikes_iff (sound : s.ClaimsSound) (known : s.claimHandle? id = some h)
    (active : h.state = .active)
    (run : releaseInherited args (knot args fuel) id runId false s = (.ok post, s')) :
    (s'.Struck id ↔ h.holderSupervisorId = some args.supervisorId ∧
        ∀ x ∈ s.holdersOf id, x.holderRunId ≠ runId → x.state ≠ .active) ∧
      (s'.Struck id → s'.Unheld id) := by
  rcases bind_eq_ok.mp run with ⟨_, mid, mark, check⟩
  rcases markClaimHolderForRun_fails mark with ⟨handles, failed, others⟩
  have sound' := (markClaimHolderForRun_marks mark).sound sound
  have known' := (claimHandle?_of_same handles id).trans known
  by_cases strikes : h.holderSupervisorId = some args.supervisorId ∧
      ∀ x ∈ s.holdersOf id, x.holderRunId ≠ runId → x.state ≠ .active
  · have finished : ∀ x ∈ mid.holdersOf id, x.state ≠ .active := by
      intro x mem still
      rcases others.mp ⟨x, mem, still⟩ with ⟨y, yMem, other, yActive⟩
      exact strikes.2 y yMem other yActive
    rcases checkAndFireResolution_strikes sound' known' active strikes.1 failed finished check with
      ⟨struck, unheld⟩
    exact ⟨⟨fun _ => strikes, fun _ => struck⟩, fun _ => unheld⟩
  · have waits : h.holderSupervisorId ≠ some args.supervisorId ∨
        ∃ x ∈ mid.holdersOf id, x.state = .active := by
      by_cases owned : h.holderSupervisorId = some args.supervisorId
      · right
        refine others.mpr ?_
        by_contra none
        refine strikes ⟨owned, fun x mem other still => none ⟨x, mem, other, still⟩⟩
      · exact .inl owned
    have same := checkAndFireResolution_skips known' waits check
    rw [same]
    have alive := not_struck_of_active known' active
    exact ⟨⟨fun struck => absurd struck alive, fun held => absurd held strikes⟩,
      fun struck => absurd struck alive⟩

theorem releaseClaim_strikes_iff {acq : Acquisition} {lk : AcquiredLock} {claimAlias : String}
    (sound : s.ClaimsSound) (held : isAliasHeld acq.heldSubgraphs acq.nodeType claimAlias)
    (known : s.claimHandle? lk.claimHandleId = some h) (active : h.state = .active)
    (run : releaseClaim args (knot args fuel) acq lk claimAlias false s = (.ok post, s')) :
    (s'.Struck lk.claimHandleId ↔ h.holderSupervisorId = some args.supervisorId) ∧
      (s'.Struck lk.claimHandleId → s'.Unheld lk.claimHandleId) := by
  unfold releaseClaim at run
  rw [if_pos held] at run
  rcases bind_eq_ok.mp run with ⟨_, s₁, mark, run⟩
  rcases bind_eq_ok.mp run with ⟨_, s₂, failAll, check⟩
  rcases markClaimHolderForRun_fails mark with ⟨handles, failed, -⟩
  have marks := failAllActiveByClaimHandle_marks failAll
  have sound₂ := marks.sound ((markClaimHolderForRun_marks mark).sound sound)
  have known₁ := (claimHandle?_of_same handles lk.claimHandleId).trans known
  have known₂ : s₂.claimHandle? lk.claimHandleId = some h := by
    rcases marks with ⟨finish, -, -, rfl⟩
    exact known₁
  by_cases owned : h.holderSupervisorId = some args.supervisorId
  · rcases failAllActiveByClaimHandle_fails known₁ owned failAll with ⟨-, finished, stays⟩
    rcases checkAndFireResolution_strikes sound₂ known₂ active owned (stays failed) finished
      check with ⟨struck, unheld⟩
    exact ⟨⟨fun _ => owned, fun _ => struck⟩, fun _ => unheld⟩
  · have same := checkAndFireResolution_skips known₂ (.inl owned) check
    rw [same]
    have alive := not_struck_of_active known₂ active
    exact ⟨⟨fun struck => absurd struck alive, fun mine => absurd mine owned⟩,
      fun struck => absurd struck alive⟩

/-- Without its holding sub-graphs the acquirer abandons the handle and leaves the rows. -/
theorem releaseClaim_strikes {acq : Acquisition} {lk : AcquiredLock} {claimAlias : String}
    (sound : s.ClaimsSound) (held : isAliasHeld acq.heldSubgraphs acq.nodeType claimAlias = false)
    (known : s.claimHandle? lk.claimHandleId = some h) (active : h.state = .active)
    (owned : h.holderSupervisorId = some args.supervisorId)
    (finished : ∀ x ∈ s.holdersOf lk.claimHandleId, x.state ≠ .active)
    (run : releaseClaim args (knot args fuel) acq lk claimAlias false s = (.ok post, s')) :
    s'.Struck lk.claimHandleId ∧ s'.Unheld lk.claimHandleId := by
  rcases releaseClaim_cases run with ⟨heldAlias, -⟩ |
    ⟨-, ⟨row, found, resolved, -⟩ | ⟨td, releases, run⟩⟩
  · rw [held] at heldAlias
    cases heldAlias
  · rw [known] at found
    cases found
    exact absurd active resolved
  · exact (releases.decides known owned).strikes releases.ofHandle (by rw [releases.decided]; rfl)
      sound finished run

theorem ClaimCall.strikes_iff {call : ClaimCall} (sound : s.ClaimsSound)
    (fails : call.FailsHolder id) (known : s.claimHandle? id = some h) (active : h.state = .active)
    (run : call.perform args (knot args fuel) s = (.ok post, s')) :
    (call.Checks → s'.Struck id → call.Strikes args.supervisorId s id) ∧
      (call.Strikes args.supervisorId s id → s'.Struck id ∧ s'.Unheld id) := by
  have owned : (∀ h, s.claimHandle? id = some h → h.holderSupervisorId = some args.supervisorId) ↔
      h.holderSupervisorId = some args.supervisorId := by
    rw [known]
    exact ⟨fun all => all h rfl, fun owned _ same => Option.some.inj same ▸ owned⟩
  cases call with
  | releaseAcquiredLock acq success lk =>
    rcases fails with ⟨rfl, rfl, producerName, claimAlias, spec⟩
    simp only [perform, Rimsky.releaseAcquiredLock, spec] at run
    simp only [Checks, Strikes, AcquiredLock.IsHeldBy, spec, owned]
    by_cases held : isAliasHeld acq.heldSubgraphs acq.nodeType claimAlias
    · rcases releaseClaim_strikes_iff sound held known active run with ⟨iff, unheld⟩
      refine ⟨fun _ struck => ⟨iff.mp struck, .inl held⟩, fun strikes => ?_⟩
      exact ⟨iff.mpr strikes.1, unheld (iff.mpr strikes.1)⟩
    · refine ⟨fun checks => absurd checks held, fun strikes => ?_⟩
      have finished := strikes.2.resolve_left held
      exact releaseClaim_strikes sound (by simpa using held) known active strikes.1 finished run
  | releaseInherited claimHandleId runId success =>
    rcases fails with ⟨rfl, rfl⟩
    rcases releaseInherited_strikes_iff sound known active run with ⟨iff, unheld⟩
    simp only [Strikes, owned]
    exact ⟨fun _ => iff.mp, fun strikes => ⟨iff.mpr strikes, unheld (iff.mpr strikes)⟩⟩
  | _ => exact fails.elim

end Fails

theorem Store.Struck.obeys {rule : CommitRule} {s s' : Store} {id : Id} (struck : s.Struck id)
    (unheld : s.Unheld id) (obeys : Obeys rule s s') : s'.Struck id := by
  rcases struck with ⟨⟨h, found, abandoned⟩, finished⟩
  refine ⟨?_, ?_⟩
  · rcases obeys.kept id h found with ⟨h', after, progresses⟩ | ⟨held, -⟩
    · exact ⟨h', after, (progresses.resolved (by rw [abandoned]; simp)).trans abandoned⟩
    · exact absurd (unheld h found) held
  · intro x' mem
    rcases mem_filter.mp mem with ⟨mem, ofHandle⟩
    rcases obeys.holders x' mem with ⟨x, old, finishes⟩
    have done := finished x (mem_filter.mpr ⟨old, finishes.handle ▸ ofHandle⟩)
    rw [finishes.once done]
    exact done

theorem ClaimCall.FailsHolder.commitsBy_always {id : Id} {call : ClaimCall}
    (fails : call.FailsHolder id) (s : Store) {supervisorId : String} :
    call.CommitsBy .always supervisorId s := by
  cases call with
  | releaseAcquiredLock acq success lk =>
    simp only [CommitsBy]
    split
    · trivial
    · split
      · exact s.fanOutsTolerant_always _
      · exact ⟨s.fanOutsTolerant_always _, fun _ => trivial⟩
  | releaseInherited claimHandleId runId success => exact s.fanOutsTolerant_always _
  | _ => exact fails.elim

/--
The failure of a holder strikes the claim at once, and the claim stays so to the end of the
transaction, if the supervisor that settles the holder holds the handle and, where a co-holder
fails, no other holder is in flight, or, where the acquirer fails, its acquisition carries the
holding sub-graphs. Of a call that looks at the holders this is needed, too.
-/
theorem poisonImmediate_of_strikes {args : RunArgs} {fuel : Nat} {call : ClaimCall} {id : Id}
    {h : ClaimHandle} {s mid : Store} {post : List PostCommit} (sound : s.ClaimsSound)
    (fails : call.FailsHolder id) (known : s.claimHandle? id = some h) (active : h.state = .active)
    (run : call.perform args (knot args fuel) s = (.ok post, mid)) :
    (call.Checks → mid.Struck id → call.Strikes args.supervisorId s id) ∧
      (call.Strikes args.supervisorId s id → mid.Struck id ∧
        ∀ calls rest s', CallsMeet (ClaimCall.CommitsBy .always) args (knot args fuel) calls mid →
          collectPost (ClaimCall.perform args (knot args fuel)) calls mid = (.ok rest, s') →
            s'.Struck id) := by
  rcases ClaimCall.strikes_iff sound fails known active run with ⟨needed, enough⟩
  refine ⟨needed, fun strikes => ?_⟩
  rcases enough strikes with ⟨struck, unheld⟩
  refine ⟨struck, fun calls rest s' meets finish => ?_⟩
  have always : CommitRule.always ≠ .never := by simp
  have condition : call.CommitsBy .always args.supervisorId s := fails.commitsBy_always s
  have sound' := (ClaimCall.obeys always sound condition run).1
  have along := CallsMeet.runs (I := Store.ClaimsSound) (R := Obeys .always)
    (fun _ _ _ _ sound condition run => ClaimCall.obeys always sound condition run) sound' meets
    finish
  exact struck.obeys unheld along.2

/-- A claim of supervisor `sup` that its acquirer, run 1, and run 5 hold. -/
def sharedStore (acquirer : ClaimHolderState) : Store where
  nodes := [{ id := 1, instanceId := 1, nodeType := "writer" }]
  runs := [1, 5].map fun id => {
    id, nodeId := 1, enqueuedAt := 0, state := .running, creationReason := .cascade
    sequence := 1, frameId := 1, runScopeId := 1 }
  claimHandles := [{ vaultHandle "sup" with isHeld := true }]
  claimHolders := [{ id := 8, claimHandleId := 7, holderRunId := 1, state := acquirer },
    { id := 9, claimHandleId := 7, holderRunId := 5 }]
  nextId := 10

theorem sharedStore_sound (acquirer : ClaimHolderState) : (sharedStore acquirer).ClaimsSound :=
  ⟨pendingFree_of_bounded (by simp [sharedStore, vaultHandle]) (by simp [sharedStore])
    (by simp [sharedStore]), by simp [sharedStore], by simp [sharedStore]⟩

def coHolderFails : ClaimCall := .releaseInherited 7 5 false

def acquirerFails (heldSubgraphs : List HoldingSubgraph) : ClaimCall :=
  .releaseAcquiredLock { vaultAcquisition with heldSubgraphs } false
    { claimHandleId := 7, spec := .claim "vault" "ledger", producer := some "vault" }

def ledgerHeld : List HoldingSubgraph :=
  [{ acquirerType := "writer", «alias» := "ledger", members := ["reader", "writer"] }]

/--
A co-holder that fails while the acquirer is in flight leaves the claim active, and so does an
acquirer that is settled by another supervisor than the one that holds the handle. An acquirer
that is settled by a callback, without holding sub-graphs, leaves the rows of all holders active,
and a co-holder that is settled so releases nothing.
-/
theorem sharedStore_not_struck :
    (sharedStore .active).ClaimsSound ∧
    (coHolderFails.FailsHolder 7 ∧ ∃ post s',
      coHolderFails.perform (RunArgs.plain "sup") (knot (RunArgs.plain "sup") 2)
        (sharedStore .active) = (.ok post, s') ∧ ¬s'.Struck 7) ∧
    ((acquirerFails ledgerHeld).FailsHolder 7 ∧ ∃ post s',
      (acquirerFails ledgerHeld).perform (RunArgs.plain "b") (knot (RunArgs.plain "b") 2)
        (sharedStore .active) = (.ok post, s') ∧ ¬s'.Struck 7) ∧
    ((acquirerFails []).FailsHolder 7 ∧ ∃ post s',
      (acquirerFails []).perform (RunArgs.plain "sup") (knot (RunArgs.plain "sup") 2)
        (sharedStore .active) = (.ok post, s') ∧ ¬s'.Struck 7) ∧
    releaseInheritedClaims (RunArgs.plain "sup") (knot (RunArgs.plain "sup") 2)
      { vaultAcquisition with nodeRunId := 5, nodeType := "reader" } false (sharedStore .active) =
      (.ok [], sharedStore .active) := by
  refine ⟨sharedStore_sound _, ⟨⟨rfl, rfl⟩, _, _, rfl, ?_⟩, ⟨⟨rfl, rfl, _, _, rfl⟩, _, _, rfl, ?_⟩,
    ⟨⟨rfl, rfl, _, _, rfl⟩, _, _, rfl, ?_⟩, rfl⟩
  · exact not_struck_of_active rfl rfl
  · exact not_struck_of_active rfl rfl
  · rintro ⟨-, finished⟩
    exact finished { id := 9, claimHandleId := 7, holderRunId := 5 } (by decide +kernel) rfl

/-- A co-holder that fails last strikes the claim. -/
theorem sharedStore_struck : ∃ post s',
    coHolderFails.perform (RunArgs.plain "sup") (knot (RunArgs.plain "sup") 2)
      (sharedStore .completed) = (.ok post, s') ∧ s'.Struck 7 := by
  have fails : coHolderFails.FailsHolder 7 := ⟨rfl, rfl⟩
  have ends : ∃ post s', coHolderFails.perform (RunArgs.plain "sup") (knot (RunArgs.plain "sup") 2)
      (sharedStore .completed) = (.ok post, s') := ⟨_, _, rfl⟩
  rcases ends with ⟨post, s', run⟩
  refine ⟨post, s', run,
    ((poisonImmediate_of_strikes (sharedStore_sound _) fails rfl rfl run).2 ⟨?_, ?_⟩).1⟩
  · intro h found
    cases found
    rfl
  · change ∀ x ∈ (sharedStore .completed).holdersOf 7, x.holderRunId ≠ 5 → x.state ≠ .active
    decide

end Rimsky
