import Rimsky.Lib.Run
import Rimsky.Runtime.AutoTerminal
import Rimsky.Runtime.ClaimTree

/-!
# Settlements and the verbs they queue

A settlement is a transaction of one supervisor that releases claims, checks whether claims that
several runs hold can be resolved, settles fan-out parents and cancels siblings or descendants,
in any order. The producer of a handle is told its disposition by a verb that is queued
in the same transaction. The verb is queued before the row is promoted, and a promotion that
is refused is not an error: what keeps the two in agreement is that the handle is active and
held by the supervisor that settles it.
-/

namespace Rimsky

open Transaction List Store ClaimHandles ClaimHolders ClaimHandleState

variable {args : RunArgs} {rec : Rec} {s s' : Store} {post : List PostCommit} {claimHandleId : Id}
  {success : Bool} {u : Unit} {supervisorId : String} {acq : Acquisition}

/-- A step of a settlement: a call that settles claims, or something else that leaves them alone. -/
inductive ClaimCall where
  | releaseAcquiredLock (acq : Acquisition) (success : Bool) (lk : AcquiredLock)
  | resolveLinkedSubClaims (acq : Acquisition) (success : Bool)
  | releaseInherited (claimHandleId runId : Id) (success : Bool)
  | checkAndFireResolution (claimHandleId : Id)
  | settleFromFanoutChild (parentId childId : Id) (childOutcome : TerminalOutcome)
      (metadata : Option String)
  | cancelInFlightSiblings (parentId triggerId : Id)
  | cancelDescendantClaims (rowId : Id)
  | elsewhere (m : Tx Unit)

def releaseInherited (args : RunArgs) (rec : Rec) (claimHandleId runId : Id) (success : Bool) :
    Tx (List PostCommit) := do
  markClaimHolderForRun claimHandleId runId success
  checkAndFireResolution args rec claimHandleId

def ClaimCall.perform (args : RunArgs) (rec : Rec) : ClaimCall → Tx (List PostCommit)
  | .releaseAcquiredLock acq success lk => Rimsky.releaseAcquiredLock args rec acq success lk
  | .resolveLinkedSubClaims acq success => Rimsky.resolveLinkedSubClaims args rec acq success
  | .releaseInherited claimHandleId runId success =>
    Rimsky.releaseInherited args rec claimHandleId runId success
  | .checkAndFireResolution claimHandleId => Rimsky.checkAndFireResolution args rec claimHandleId
  | .settleFromFanoutChild parentId childId childOutcome metadata =>
    Rimsky.settleFromFanoutChild args rec parentId childId childOutcome metadata
  | .cancelInFlightSiblings parentId triggerId =>
    Rimsky.cancelInFlightSiblings args rec parentId triggerId
  | .cancelDescendantClaims rowId => Rimsky.cancelDescendantClaims args rec rowId
  | .elsewhere m => do
    m
    return []

structure ClaimSettlement where
  args : RunArgs
  fuel : Nat
  calls : List ClaimCall

def ClaimSettlement.transaction (t : ClaimSettlement) : Tx (List PostCommit) :=
  collectPost (ClaimCall.perform t.args (knot t.args t.fuel)) t.calls

def ClaimSettlement.step (s : Store) (t : ClaimSettlement) : Option Store :=
  some (commit t.transaction s).2

def CallsMeet (condition : String → Store → ClaimCall → Prop) (args : RunArgs) (rec : Rec) :
    List ClaimCall → Store → Prop
  | [], _ => True
  | call :: calls, s => condition args.supervisorId s call ∧
      ∀ post s', call.perform args rec s = (.ok post, s') → CallsMeet condition args rec calls s'

def ClaimSettlement.Meets (condition : String → Store → ClaimCall → Prop) (s : Store)
    (t : ClaimSettlement) :
    Prop := CallsMeet condition t.args (knot t.args t.fuel) t.calls s

variable {R : Store → Store → Prop}

theorem CallsMeet.runs {condition : String → Store → ClaimCall → Prop} {I : Store → Prop}
    [IsPreorder Store R]
    (each : ∀ call s post s', I s → condition args.supervisorId s call →
      call.perform args rec s = (.ok post, s') → I s' ∧ R s s')
    {calls : List ClaimCall} (start : I s) (meets : CallsMeet condition args rec calls s)
    (run : collectPost (ClaimCall.perform args rec) calls s = (.ok post, s')) : I s' ∧ R s s' := by
  have along := collectPost_runs (R := R)
    (I := fun calls s => I s ∧ CallsMeet condition args rec calls s)
    (fun call calls s post s' inv step => ?_) ⟨start, meets⟩ run
  · exact ⟨along.1.1, along.2⟩
  · rcases each call s post s' inv.1 inv.2.1 step with ⟨keeps, along⟩
    exact ⟨⟨keeps, inv.2.2 post s' step⟩, along⟩

theorem ClaimSettlement.runs {condition : String → Store → ClaimCall → Prop} {t : ClaimSettlement}
    {I : Store → Prop} [IsPreorder Store R]
    (each : ∀ call s post s', I s → condition t.args.supervisorId s call →
      call.perform t.args (knot t.args t.fuel) s = (.ok post, s') → I s' ∧ R s s')
    (start : I s) (meets : t.Meets condition s) :
    I (commit t.transaction s).2 ∧ R s (commit t.transaction s).2 := by
  cases run : t.transaction s with
  | mk result s' =>
    unfold commit
    rw [run]
    cases result with
    | error e => exact ⟨start, refl s⟩
    | ok post => exact CallsMeet.runs each start meets run

theorem Store.Fires.decides {row : ClaimHandle} {td : TerminalDecision}
    (fires : s.Fires args row td) (found : s.claimHandle? claimHandleId = some row) :
    s.Decides args.supervisorId td row := by
  refine ⟨by simp [fires.source], fires.supervisor, ?_, fires.active, fires.owned,
    .inr fires.parent⟩
  rw [fires.handle, id_of_claimHandle? found, found]

section Calls

variable {args : RunArgs} {fuel : Nat} {rule : CommitRule} (mayCommit : rule ≠ .never)

include mayCommit

theorem checkAndFireResolution_resolves (sound : s.ClaimsSound)
    (tolerant : s.FanOutsTolerant rule (some claimHandleId))
    (run : checkAndFireResolution args (knot args fuel) claimHandleId s = (.ok post, s')) :
    s'.ClaimsSound ∧ Resolves args.supervisorId rule s s' := by
  rcases checkAndFireResolution_runs run with ⟨-, rfl⟩ | ⟨row, td, found, fires, run⟩
  · exact ⟨sound, refl _⟩
  have handle : td.claimHandleId = claimHandleId := fires.handle.trans (id_of_claimHandle? found)
  refine (knot_ascends args fuel mayCommit td row s s' post sound (fires.decides found) ?_
    (handle.symm ▸ tolerant) run).imp_right And.left
  intro commits
  have completed : ∀ h ∈ s.holdersOf td.claimHandleId, h.state = .completed := by
    intro h mem
    rcases mem_filter.mp mem with ⟨known, ofHandle⟩
    rw [fires.handle, decide_eq_true_eq] at ofHandle
    exact fires.completed commits known ofHandle
  refine CommitRule.allows_of_tolerates mayCommit (fun h mem => ?_) fun h mem => ?_
  · simp [completed h mem]
  · exact rule.tolerates_of_ne_failed (by simp [completed h mem])

end Calls

structure ClaimHolder.Finishes (h h' : ClaimHolder) : Prop where
  handle : h'.claimHandleId = h.claimHandleId
  run : h'.holderRunId = h.holderRunId
  once : h.state ≠ .active → h' = h

def Marks (claimHandleId : Id) (s s' : Store) : Prop :=
  ∃ finish : ClaimHolder → ClaimHolder, (∀ h : ClaimHolder, h.Finishes (finish h)) ∧
    (∀ h, h.claimHandleId ≠ claimHandleId → finish h = h) ∧
    s' = { s with claimHolders := s.claimHolders.map finish }

theorem Marks.refl (claimHandleId : Id) (s : Store) : Marks claimHandleId s s :=
  ⟨id, fun _ => ⟨rfl, rfl, fun _ => rfl⟩, fun _ _ => rfl, by simp⟩

theorem Marks.trans {mid : Store} (first : Marks claimHandleId s mid)
    (second : Marks claimHandleId mid s') : Marks claimHandleId s s' := by
  rcases first with ⟨finish, each, others, rfl⟩
  rcases second with ⟨finish', each', others', rfl⟩
  refine ⟨fun h => finish' (finish h), fun h => ?_, fun h other => ?_, by simp [Function.comp_def]⟩
  · refine ⟨(each' _).handle.trans (each h).handle, (each' _).run.trans (each h).run, ?_⟩
    intro finished
    change finish' (finish h) = h
    rw [(each h).once finished]
    exact (each' h).once finished
  · change finish' (finish h) = h
    rw [others h other]
    exact others' h other

theorem Marks.sound (marks : Marks claimHandleId s s') (sound : s.ClaimsSound) :
    s'.ClaimsSound := by
  rcases marks with ⟨finish, each, -, rfl⟩
  refine ⟨⟨sound.free.handles, ?_⟩, sound.handles, sound.verbs⟩
  intro h' mem
  rcases mem_map.mp mem with ⟨h, old, rfl⟩
  rw [(each h).run]
  exact sound.free.holders h old

theorem Marks.tolerant (marks : Marks claimHandleId s s') {rule : CommitRule}
    (tolerant : s.FanOutsTolerant rule (some claimHandleId)) :
    s'.FanOutsTolerant rule (some claimHandleId) := by
  rcases marks with ⟨finish, each, others, rfl⟩
  intro p mem active other parent h' memH
  rcases mem_filter.mp memH with ⟨memH, ofP⟩
  rcases mem_map.mp memH with ⟨h, old, rfl⟩
  rw [(each h).handle, decide_eq_true_eq] at ofP
  rw [others h (by rw [ofP]; exact fun same => other (congrArg some same))]
  exact tolerant p mem active other parent h (mem_filter.mpr ⟨old, by simpa using ofP⟩)

theorem marks_of_finish {fits : ClaimHolder → Bool} (state : ClaimHolderState)
    (own : ∀ h, fits h → h.claimHandleId = claimHandleId) : Marks claimHandleId s { s with
      claimHolders := s.claimHolders.map fun h =>
        if fits h && h.state = .active then { h with state } else h } := by
  refine ⟨_, fun h => ?_, fun h other => ?_, rfl⟩
  · split
    case isTrue finishes =>
      simp only [Bool.and_eq_true, decide_eq_true_eq] at finishes
      exact ⟨rfl, rfl, fun finished => absurd finishes.2 finished⟩
    case isFalse => exact ⟨rfl, rfl, fun _ => rfl⟩
  · rw [Bool.eq_false_of_not_eq_true fun fit => other (own h fit)]
    rfl

theorem markClaimHolderForRun_marks {runId : Id}
    (run : markClaimHolderForRun claimHandleId runId success s = (.ok u, s')) :
    Marks claimHandleId s s' := by
  simp only [markClaimHolderForRun, completeByClaimHandleAndRun,
    completeWhere, read_bind] at run
  split at run
  · cases run
    exact marks_of_finish _ fun h fits => by simp at fits; exact fits.1
  · cases run

theorem failAllActiveByClaimHandle_marks
    (run : ClaimHolders.failAllActiveByClaimHandle claimHandleId supervisorId s = (.ok u, s')) :
    Marks claimHandleId s s' := by
  have after := (congrArg Prod.snd run).symm
  simp only [failAllActiveByClaimHandle, write_apply] at after
  rw [after]
  split
  · exact marks_of_finish _ fun h fits => of_decide_eq_true fits
  · exact .refl _ s

/-- The decision by which a run gives a handle back that is not resolved. -/
structure Store.Releases (s : Store) (supervisorId : String) (success : Bool) (id : Id)
    (td : TerminalDecision) : Prop where
  ofHandle : td.claimHandleId = id
  source : td.source = .active
  supervisor : td.supervisorId = supervisorId
  decided : td.outcome = if success then .commit else .abandon
  parent : td.parentClaimHandleId = (s.claimHandle? id).bind (·.parentClaimHandleId)
  active : ∀ h, s.claimHandle? id = some h → h.state = .active

namespace Store.Releases

variable {id : Id} {td : TerminalDecision} {h : ClaimHandle}
  (releases : s.Releases supervisorId success id td)

include releases

theorem up (found : s.claimHandle? id = some h) :
    td.parentClaimHandleId = h.parentClaimHandleId := by
  rw [releases.parent, found]
  rfl

theorem decides (found : s.claimHandle? id = some h)
    (owned : h.holderSupervisorId = some supervisorId) : s.Decides supervisorId td h :=
  ⟨by simp [releases.source], releases.supervisor, releases.ofHandle ▸ found,
    releases.active h found, owned, .inr (releases.up found)⟩

theorem succeeds (commits : td.outcome = .commit) : success := by
  cases success with
  | true => rfl
  | false =>
    rw [releases.decided] at commits
    cases commits

end Store.Releases

theorem releaseClaim_cases {lk : AcquiredLock} {claimAlias : String}
    (run : releaseClaim args rec acq lk claimAlias success s = (.ok post, s')) :
    (isAliasHeld acq.heldSubgraphs acq.nodeType claimAlias ∧ ∃ mid, Marks lk.claimHandleId s mid ∧
      checkAndFireResolution args rec lk.claimHandleId mid = (.ok post, s')) ∨
    (isAliasHeld acq.heldSubgraphs acq.nodeType claimAlias = false ∧
      ((∃ h, s.claimHandle? lk.claimHandleId = some h ∧ h.state ≠ .active ∧ s' = s) ∨
        ∃ td, s.Releases args.supervisorId success lk.claimHandleId td ∧
          rec.resolveClaimHandleTerminal td s = (.ok post, s'))) := by
  unfold releaseClaim at run
  split at run
  case isTrue held =>
    refine .inl ⟨held, ?_⟩
    rcases bind_eq_ok.mp run with ⟨_, s₁, mark, run⟩
    have marks := markClaimHolderForRun_marks mark
    cases success with
    | true => exact ⟨s₁, marks, run⟩
    | false =>
      rcases bind_eq_ok.mp run with ⟨_, s₂, failAll, run⟩
      exact ⟨s₂, marks.trans (failAllActiveByClaimHandle_marks failAll), run⟩
  case isFalse notHeld =>
    refine .inr ⟨by simpa using notHeld, ?_⟩
    rw [read_bind] at run
    split at run
    case isTrue resolved =>
      rcases (Option.any_eq_true ..).mp resolved with ⟨h, found, resolved⟩
      exact .inl ⟨h, found, by simpa using resolved, (congrArg Prod.snd run).symm⟩
    case isFalse active =>
      refine .inr ⟨_, ⟨rfl, rfl, rfl, rfl, rfl, fun h found => ?_⟩, run⟩
      simpa [found] using active

def Store.linkedSubClaims (s : Store) (acq : Acquisition) : List ClaimHandle :=
  (s.handlesByClaimedAt fun h => h.nodeRunId = some acq.nodeRunId).filter fun row =>
    row.parentClaimHandleId.isSome && !(acq.locks.map (·.claimHandleId)).contains row.id &&
      !row.isHeld

theorem Store.mem_of_mem_linkedSubClaims {row : ClaimHandle} (mem : row ∈ s.linkedSubClaims acq) :
    row ∈ s.claimHandles := by
  have sorted := (mem_filter.mp mem).1
  rw [handlesByClaimedAt, mem_insertionSort] at sorted
  exact (mem_filter.mp sorted).1

theorem resolveLinkedSubClaims_runs [IsPreorder Store R] {I : List ClaimHandle → Store → Prop}
    (skip : ∀ row rows s, I (row :: rows) s → I rows s)
    (resolve : ∀ row rows h td s s' post, I (row :: rows) s → s.claimHandle? row.id = some h →
      s.Releases args.supervisorId success row.id td →
      rec.resolveClaimHandleTerminal td s = (.ok post, s') → I rows s' ∧ R s s')
    (start : I (s.linkedSubClaims acq) s)
    (run : resolveLinkedSubClaims args rec acq success s = (.ok post, s')) : I [] s' ∧ R s s' := by
  refine collectPost_runs (fun row rows s post s' inv step => ?_) start run
  simp only [read_bind] at step
  cases found : s.claimHandle? row.id with
  | none =>
    simp only [found] at step
    cases step
    exact ⟨skip row rows _ inv, refl _⟩
  | some h =>
    simp only [found] at step
    split at step
    · cases step
      exact ⟨skip row rows _ inv, refl _⟩
    rename_i active
    rcases bind_reads_eq_ok (Walking.producerOf h) step with ⟨producer, -, step⟩
    refine resolve row rows h _ s s' post inv found
      ⟨id_of_claimHandle? found, rfl, rfl, rfl, by rw [found]; rfl, fun h' known => ?_⟩ step
    rw [found] at known
    cases known
    simpa using active

/-- The sub-claims that the supervisor holds when the walk begins are given back as its own. -/
theorem resolveLinkedSubClaims_owned [IsPreorder Store R] {I : Store → Prop}
    (settles : ∀ s s', R s s' → Settles args.supervisorId s s')
    (resolve : ∀ h td s s' post, I s → s.Decides args.supervisorId td h →
      td.parentClaimHandleId = h.parentClaimHandleId →
      rec.resolveClaimHandleTerminal td s = (.ok post, s') → I s' ∧ R s s')
    (sound : s.ClaimsSound)
    (owned : ∀ row ∈ s.linkedSubClaims acq, row.state = .active →
      row.holderSupervisorId = some args.supervisorId)
    (start : I s) (run : resolveLinkedSubClaims args rec acq success s = (.ok post, s')) :
    I s' ∧ R s s' := by
  have runs := resolveLinkedSubClaims_runs (R := R)
    (I := fun rows s => I s ∧ s.Lists args.supervisorId rows ∧
      ∀ row ∈ rows, row.state = .active → row.holderSupervisorId = some args.supervisorId)
    ?_ ?_ ⟨start, s.lists_of_mem sound (fun _ => mem_of_mem_linkedSubClaims) _, owned⟩ run
  · exact ⟨runs.1.1, runs.2⟩
  · rintro row rows s ⟨holds, lists, owned⟩
    exact ⟨holds, lists.tail, fun row' mem => owned row' (mem_cons_of_mem _ mem)⟩
  · rintro row rows h td s s' post ⟨holds, lists, owned⟩ found releases step
    have advances := lists row mem_cons_self h found
    have active := releases.active h found
    have mine := advances.owned (owned row mem_cons_self (advances.was_active active)) active
    rcases resolve h td s s' post holds (releases.decides found mine) (releases.up found) step with
      ⟨holds', along⟩
    exact ⟨⟨holds', (lists.settles (settles _ _ along)).tail,
      fun row' mem => owned row' (mem_cons_of_mem _ mem)⟩, along⟩

theorem Disposes.of_marks (marks : Marks claimHandleId s s') : Disposes supervisorId s s' := by
  rcases marks with ⟨finish, -, -, rfl⟩
  exact Settles.disposes (.of_same rfl rfl)

def ClaimHandle.orphaned (h : ClaimHandle) (ids : List Id) : ClaimHandle :=
  if h.parentClaimHandleId.any ids.contains then { h with parentClaimHandleId := none } else h

theorem ClaimHandle.orphaned_eq (h : ClaimHandle) (ids : List Id) :
    h.orphaned ids = h ∨ h.orphaned ids = { h with parentClaimHandleId := none } := by
  unfold ClaimHandle.orphaned
  split
  · exact .inr rfl
  · exact .inl rfl

theorem ClaimHandle.orphaned_id (h : ClaimHandle) (ids : List Id) : (h.orphaned ids).id = h.id := by
  rcases h.orphaned_eq ids with same | orphan
  · rw [same]
  · rw [orphan]

theorem ClaimHandle.orphaned_progresses (h : ClaimHandle) (ids : List Id) :
    h.Progresses (h.orphaned ids) := by
  rcases h.orphaned_eq ids with same | orphan
  · rw [same]
    exact .refl h
  · rw [orphan]
    exact .of_same rfl rfl rfl rfl rfl (Nat.le_refl _)

theorem Store.claimHandle?_deleteHandles (sound : s.ClaimsSound) (gone : ClaimHandle → Bool)
    (id : Id) :
    (s.deleteHandles gone).claimHandle? id =
      ((s.claimHandle? id).filter fun h => !gone h).map
        (·.orphaned ((s.claimHandles.filter gone).map (·.id))) :=
  (find?_key_map (fun h => h.orphaned_id _) id).trans
    (congrArg _ (find?_key_filter sound.handles _ id))

theorem Store.ClaimsSound.deleteHandles (sound : s.ClaimsSound) (gone : ClaimHandle → Bool) :
    (s.deleteHandles gone).ClaimsSound := by
  refine ⟨⟨?_, ?_⟩, ?_, sound.verbs⟩
  · intro h' mem runId bound
    rcases mem_map.mp mem with ⟨h, kept, rfl⟩
    refine sound.free.handles h (mem_filter.mp kept).1 runId ?_
    rcases h.orphaned_eq ((s.claimHandles.filter gone).map (·.id)) with same | orphan
    · exact same ▸ bound
    · have unchanged : (h.orphaned ((s.claimHandles.filter gone).map (·.id))).nodeRunId =
          h.nodeRunId := by rw [orphan]
      exact unchanged.symm.trans bound
  · intro h mem
    exact sound.free.holders h (mem_filter.mp mem).1
  · have sameId : ∀ h : ClaimHandle,
        (h.orphaned ((s.claimHandles.filter gone).map (·.id))).id = h.id := (·.orphaned_id _)
    have ids : (s.deleteHandles gone).claimHandles.map (·.id) =
        (s.claimHandles.filter fun h => !gone h).map (·.id) := map_key_of_map sameId
    rw [ids]
    exact sound.handles.sublist (filter_sublist.map _)

theorem Store.row_of_deleteHandles (sound : s.ClaimsSound) {gone : ClaimHandle → Bool} {id : Id}
    {h' : ClaimHandle} (after : (s.deleteHandles gone).claimHandle? id = some h') :
    ∃ h, s.claimHandle? id = some h ∧ (h' = h ∨ h' = { h with parentClaimHandleId := none }) := by
  rw [claimHandle?_deleteHandles sound] at after
  rcases Option.map_eq_some_iff.mp after with ⟨h, old, orphan⟩
  exact ⟨h, (Option.filter_eq_some_iff.mp old).1, orphan ▸ h.orphaned_eq _⟩

theorem ClaimHandles.delete_ok {id : Id}
    (run : ClaimHandles.delete id supervisorId s = (.ok u, s')) :
    s' = s.deleteHandles fun h => h.id = id && ClaimHandles.claimant supervisorId h := by
  simp only [delete, read_bind] at run
  split at run
  case isFalse => cases run
  case isTrue => exact (congrArg Prod.snd run).symm

theorem ClaimHandles.delete_disposes {id : Id} (sound : s.ClaimsSound)
    (run : ClaimHandles.delete id supervisorId s = (.ok u, s')) :
    s'.ClaimsSound ∧ Disposes supervisorId s s' := by
  rw [delete_ok run]
  refine ⟨sound.deleteHandles _, ⟨?_, ?_⟩, ⟨?_, ⟨[], (append_nil _).symm, by simp⟩, ?_⟩, ?_⟩
  · intro id' h old
    rw [claimHandle?_deleteHandles sound, old]
    cases leaves : (h.id = id && claimant supervisorId h : Bool) with
    | true =>
      refine .inr ⟨?_, by simp [Option.filter, leaves]⟩
      simp only [claimant, Bool.and_eq_true, decide_eq_true_eq] at leaves
      rw [leaves.2]
      simp
    | false =>
      exact .inl ⟨_, by simp only [Option.filter, leaves]; rfl, h.orphaned_progresses _⟩
  · intro id' absent
    rw [claimHandle?_deleteHandles sound, absent]
    rfl
  · intro id' h h' old after mine
    rcases row_of_deleteHandles sound after with ⟨h₀, old', same⟩
    rw [old] at old'
    cases old'
    rcases same with rfl | rfl
    · exact .inl mine
    · exact .inl mine
  · intro id' h h' old after active verb told
    rcases row_of_deleteHandles sound after with ⟨h₀, old', same⟩
    rw [old] at old'
    cases old'
    rcases same with rfl | rfl
    · exact absurd active (ne_active_of_verb? told)
    · exact absurd active (ne_active_of_verb? told)
  · rintro id' ⟨childId, child', after, ofParent⟩
    rcases row_of_deleteHandles sound after with ⟨child, old, rfl | rfl⟩
    · exact ⟨childId, _, old, ofParent⟩
    · cases ofParent

/-- The condition under which a call settles only what its supervisor may settle. -/
def ClaimCall.Owned (supervisorId : String) (s : Store) : ClaimCall → Prop
  | .releaseAcquiredLock acq _ lk =>
    match lk.spec with
    | .named _ => True
    | .claim _ claimAlias => isAliasHeld acq.heldSubgraphs acq.nodeType claimAlias ∨
        ∃ row, s.claimHandle? lk.claimHandleId = some row ∧
          (row.state = .active → row.holderSupervisorId = some supervisorId)
  | .resolveLinkedSubClaims acq _ => ∀ row ∈ s.linkedSubClaims acq, row.state = .active →
      row.holderSupervisorId = some supervisorId
  | .settleFromFanoutChild parentId _ _ _ => s.MaySettle supervisorId parentId
  | .elsewhere m => Steps Apart m
  | _ => True

section Owned

variable {args : RunArgs} {fuel : Nat} {s s' : Store} {post : List PostCommit}

theorem checkAndFireResolution_disposes {mid : Store} (sound : s.ClaimsSound)
    (marks : Marks claimHandleId s mid)
    (run : checkAndFireResolution args (knot args fuel) claimHandleId mid = (.ok post, s')) :
    s'.ClaimsSound ∧ Disposes args.supervisorId s s' := by
  have always : CommitRule.always ≠ .never := by simp
  exact (checkAndFireResolution_resolves always (marks.sound sound) (mid.fanOutsTolerant_always _)
    run).imp_right fun resolves => (Disposes.of_marks marks).trans resolves.disposes

theorem releaseClaim_disposes {lk : AcquiredLock} {claimAlias : String} (sound : s.ClaimsSound)
    (owned : isAliasHeld acq.heldSubgraphs acq.nodeType claimAlias ∨
      ∃ row, s.claimHandle? lk.claimHandleId = some row ∧
        (row.state = .active → row.holderSupervisorId = some args.supervisorId))
    (run : releaseClaim args (knot args fuel) acq lk claimAlias success s = (.ok post, s')) :
    s'.ClaimsSound ∧ Disposes args.supervisorId s s' := by
  rcases releaseClaim_cases run with ⟨-, mid, marks, check⟩ |
    ⟨notHeld, ⟨-, -, -, rfl⟩ | ⟨td, releases, run⟩⟩
  · exact checkAndFireResolution_disposes sound marks check
  · exact ⟨sound, refl _⟩
  · rcases owned with held | ⟨row, found, owned⟩
    · rw [notHeld] at held
      cases held
    · have mine := owned (releases.active row found)
      rcases (releases.decides found mine).settled sound run with ⟨sound', resolves, -⟩
      exact ⟨sound', resolves.disposes⟩

theorem resolveLinkedSubClaims_disposes (sound : s.ClaimsSound)
    (owned : ∀ row ∈ s.linkedSubClaims acq, row.state = .active →
      row.holderSupervisorId = some args.supervisorId)
    (run : resolveLinkedSubClaims args (knot args fuel) acq success s = (.ok post, s')) :
    s'.ClaimsSound ∧ Disposes args.supervisorId s s' := by
  refine (resolveLinkedSubClaims_owned (R := Settles args.supervisorId) (I := Store.ClaimsSound)
    (fun _ _ settles => settles) ?_ sound owned sound run).imp_right (·.disposes)
  intro h td s s' post sound decides _ step
  rcases decides.settled sound step with ⟨sound', resolves, -⟩
  exact ⟨sound', resolves.toSettles⟩

theorem ClaimCall.disposes {call : ClaimCall} (sound : s.ClaimsSound)
    (owned : call.Owned args.supervisorId s)
    (run : call.perform args (knot args fuel) s = (.ok post, s')) :
    s'.ClaimsSound ∧ Disposes args.supervisorId s s' := by
  have always : CommitRule.always ≠ .never := by simp
  cases call with
  | releaseAcquiredLock acq success lk =>
    simp only [perform, Rimsky.releaseAcquiredLock] at run
    cases spec : lk.spec with
    | named name =>
      simp only [spec] at run
      rcases bind_eq_ok.mp run with ⟨_, mid, delete, done⟩
      cases done
      exact delete_disposes sound delete
    | claim claimSpec claimAlias =>
      simp only [spec, Owned] at run owned
      exact releaseClaim_disposes sound owned run
  | resolveLinkedSubClaims acq success => exact resolveLinkedSubClaims_disposes sound owned run
  | releaseInherited claimHandleId runId success =>
    rcases bind_eq_ok.mp run with ⟨_, mid, mark, check⟩
    exact checkAndFireResolution_disposes sound (markClaimHolderForRun_marks mark) check
  | checkAndFireResolution claimHandleId =>
    exact checkAndFireResolution_disposes sound (.refl _ s) run
  | settleFromFanoutChild parentId childId childOutcome metadata =>
    exact (settleFromFanoutChild_resolves always (knot_always args fuel) sound
      (s.fanOutsTolerant_always _) (fun _ _ _ _ _ => trivial) owned run).imp_right (·.disposes)
  | cancelInFlightSiblings parentId triggerId =>
    exact (cancelInFlightSiblings_resolves (knot_always args fuel) sound
      (s.fanOutsTolerant_always _) run).imp_right (·.disposes)
  | cancelDescendantClaims rowId =>
    exact (cancelDescendantClaims_resolves (knot_descends args fuel) sound run).imp_right
      (·.disposes)
  | elsewhere m =>
    rcases bind_eq_ok.mp run with ⟨_, mid, step, done⟩
    have silent : mid.ClaimsSound ∧ Resolves args.supervisorId .always s mid :=
      (Steps.run owned step).resolves sound
    cases done
    exact silent.imp_right (·.disposes)

end Owned

/-- The verbs queued so far are those of the handles as they are, one each. -/
structure Store.VerbsConsistent (s : Store) : Prop where
  agree : ∀ o ∈ s.outbox, o.verb ≠ .release → ∀ h, s.claimHandle? o.claimHandleId = some h →
    h.state.verb? = some o.verb
  once : ∀ o ∈ s.outbox, ∀ o' ∈ s.outbox, o.claimHandleId = o'.claimHandleId →
    o.verb ≠ .release → o'.verb ≠ .release → o = o'

/--
A verb is queued for a handle just if the handle goes from active to the state of the verb. It
is held by the supervisor, which also settles the handles that others were split off from.
-/
def VerbsAgree (supervisorId : String) (s s' : Store) : Prop :=
  ∃ new, s'.outbox = s.outbox ++ new ∧
    (∀ id verb, (∃ o ∈ new, o.claimHandleId = id ∧ o.verb = verb) ↔
      ∃ h h', s.claimHandle? id = some h ∧ h.state = .active ∧ s'.claimHandle? id = some h' ∧
        h'.state.verb? = some verb) ∧
    ∀ o ∈ new, ∀ h, s.claimHandle? o.claimHandleId = some h →
      h.holderSupervisorId = some supervisorId ∨ s.IsParent o.claimHandleId

theorem ClaimHandleState.verb?_ne_release (state : ClaimHandleState) :
    state.verb? ≠ some .release := by
  cases state <;> simp [verb?]

namespace Disposes

variable {supervisorId : String} {s s' : Store}

theorem consistent (disposes : Disposes supervisorId s s') (sound' : s'.ClaimsSound)
    (consistent : s.VerbsConsistent) : s'.VerbsConsistent := by
  rcases disposes.queued with ⟨new, extended, each⟩
  have fresh : ∀ o ∈ s.outbox, o.verb ≠ .release → ∀ o' ∈ new,
      o.claimHandleId ≠ o'.claimHandleId := by
    intro o mem terminal o' mem' same
    rcases each o' mem' with ⟨h, -, old, active, -⟩
    have told := consistent.agree o mem terminal h (same ▸ old)
    exact ne_active_of_verb? told active
  refine ⟨?_, ?_⟩
  · intro o mem terminal h' found
    rw [extended] at mem
    rcases mem_append.mp mem with old | late
    · rcases disposes.row found with ⟨h, before, progresses⟩
      have told := consistent.agree o old terminal h before
      rw [progresses.resolved (ne_active_of_verb? told)]
      exact told
    · rcases each o late with ⟨_, h'', -, -, -, after, verb, -⟩
      rw [found] at after
      cases after
      exact verb
  · intro o mem o' mem' same terminal terminal'
    rw [extended] at mem mem'
    rcases mem_append.mp mem with old | late
    · rcases mem_append.mp mem' with old' | late'
      · exact consistent.once o old o' old' same terminal terminal'
      · exact absurd same (fresh o old terminal o' late')
    · rcases mem_append.mp mem' with old' | late'
      · exact absurd same.symm (fresh o' old' terminal' o late)
      · -- both say what the handle has become, and the table has a verb for a handle once
        rcases each o late with ⟨_, h', -, -, -, after, verb, -⟩
        rcases each o' late' with ⟨_, h'', -, -, -, after', verb', -⟩
        rw [← same, after] at after'
        cases after'
        rw [verb] at verb'
        refine inj_on_of_nodup_map sound'.verbs ?_ ?_ (Prod.ext same (Option.some.inj verb'))
        · rw [extended]
          exact mem
        · rw [extended]
          exact mem'

theorem agree (disposes : Disposes supervisorId s s') (consistent : s.VerbsConsistent) :
    VerbsAgree supervisorId s s' := by
  rcases disposes.queued with ⟨new, extended, each⟩
  refine ⟨new, extended, fun id verb => ⟨?_, ?_⟩, ?_⟩
  · rintro ⟨o, mem, rfl, rfl⟩
    rcases each o mem with ⟨h, h', old, active, -, after, verb, -⟩
    exact ⟨h, h', old, active, after, verb⟩
  · rintro ⟨h, h', old, active, after, told⟩
    rcases disposes.told id h h' old after active verb told with ⟨o, mem, rfl, rfl⟩
    rw [extended] at mem
    rcases mem_append.mp mem with early | late
    · have terminal : o.verb ≠ .release := fun release => h'.state.verb?_ne_release (release ▸ told)
      have before := consistent.agree o early terminal h old
      exact absurd active (ne_active_of_verb? before)
    · exact ⟨o, late, rfl, rfl⟩
  · intro o mem h found
    rcases each o mem with ⟨h', -, old, -, mine, -⟩
    rw [found] at old
    cases old
    exact mine

end Disposes

theorem ClaimSettlement.disposes {t : ClaimSettlement} (sound : s.ClaimsSound)
    (meets : t.Meets ClaimCall.Owned s) : (commit t.transaction s).2.ClaimsSound ∧
      Disposes t.args.supervisorId s (commit t.transaction s).2 :=
  t.runs (I := Store.ClaimsSound) (R := Disposes t.args.supervisorId)
    (fun _ _ _ _ sound owned run => ClaimCall.disposes sound owned run) sound meets

/--
Producer verbs agree with recorded dispositions: over every sequence of settlements that
release and resolve only handles of the supervisor that settles, each of them queues a verb for
a handle just if it moves the handle there, and no handle has two terminal verbs.
-/
theorem producerVerbs_agree {s₀ s : Store} (sound : s₀.ClaimsSound)
    (consistent : s₀.VerbsConsistent)
    (run : Reaches ClaimSettlement.step (ClaimSettlement.Meets ClaimCall.Owned) s₀ s) :
    s.VerbsConsistent ∧ ∀ t : ClaimSettlement, t.Meets ClaimCall.Owned s →
      VerbsAgree t.args.supervisorId s (commit t.transaction s).2 := by
  have invariant : s.ClaimsSound ∧ s.VerbsConsistent := by
    refine run.invariant (I := fun s => s.ClaimsSound ∧ s.VerbsConsistent) ?_ ⟨sound, consistent⟩
    rintro s t s' ⟨sound, consistent⟩ meets taken
    cases taken
    rcases t.disposes sound meets with ⟨sound', disposes⟩
    exact ⟨sound', disposes.consistent sound' consistent⟩
  refine ⟨invariant.2, fun t meets => ?_⟩
  exact (t.disposes invariant.1 meets).2.agree invariant.2

def vaultAcquisition : Acquisition where
  nodeRunId := 1
  nodeId := 1
  instanceId := 1
  nodeType := "writer"
  runScopeId := 1
  frameId := 1
  locks := [{ claimHandleId := 7, spec := .claim "vault" "ledger", producer := some "vault" }]

def vaultHandle (supervisorId : String) : ClaimHandle where
  id := 7
  lockKind := .claimScope
  producerName := some "vault"
  holderSupervisorId := some supervisorId
  holderNodeId := 1
  claimedAt := 0
  expiresAt := 10

def vaultRelease (supervisorId : String) : ClaimSettlement where
  args := RunArgs.plain supervisorId
  fuel := 1
  calls := vaultAcquisition.locks.map (.releaseAcquiredLock vaultAcquisition true)

def vaultStore (handles : List ClaimHandle) : Store where
  claimHandles := handles
  nextId := 10

theorem vaultStore_sound {handles : List ClaimHandle} (distinct : (handles.map (·.id)).Nodup)
    (unbound : ∀ h ∈ handles, h.nodeRunId = none) : (vaultStore handles).ClaimsSound := by
  refine ⟨⟨?_, by simp [vaultStore]⟩, distinct, by simp [vaultStore]⟩
  intro h mem runId bound
  rw [unbound h mem] at bound
  cases bound

theorem vaultStore_consistent (handles : List ClaimHandle) : (vaultStore handles).VerbsConsistent :=
  ⟨by simp [vaultStore], by simp [vaultStore]⟩

theorem not_verbsAgree (id : Id) (empty : s.outbox = [])
    (queued : s'.outbox.any (·.claimHandleId = id))
    (still : (s'.claimHandle? id).all (·.state = .active)) : ¬VerbsAgree supervisorId s s' := by
  rintro ⟨new, extended, agree, -⟩
  rw [extended, empty, nil_append] at queued
  rcases any_eq_true.mp queued with ⟨o, mem, same⟩
  rcases (agree id o.verb).mp ⟨o, mem, of_decide_eq_true same, rfl⟩ with ⟨_, h', -, -, after, told⟩
  rw [after, Option.all_some, decide_eq_true_eq] at still
  exact ne_active_of_verb? told still

/--
A commit is queued for a claim whose row was swept meanwhile, and for one that is now another
supervisor's, which stays active.
-/
theorem vaultRelease_disagrees :
    (∃ s : Store, s.ClaimsSound ∧ s.VerbsConsistent ∧ s.claimHandle? 7 = none ∧
      ¬VerbsAgree "sup" s (commit (vaultRelease "sup").transaction s).2) ∧
    ∃ s : Store, s.ClaimsSound ∧ s.VerbsConsistent ∧ s.claimHandle? 7 = some (vaultHandle "other") ∧
      ¬VerbsAgree "sup" s (commit (vaultRelease "sup").transaction s).2 := by
  refine ⟨⟨vaultStore [], vaultStore_sound (by simp) (by simp), vaultStore_consistent _, rfl, ?_⟩,
    vaultStore [vaultHandle "other"], vaultStore_sound (by simp) (by simp [vaultHandle]),
    vaultStore_consistent _, rfl, ?_⟩
  · refine not_verbsAgree 7 rfl ?_ ?_
    · decide +kernel
    · decide +kernel
  · refine not_verbsAgree 7 rfl ?_ ?_
    · decide +kernel
    · decide +kernel

/-- The supervisor's own claim is committed with its verb. -/
theorem vaultRelease_agrees :
    VerbsAgree "sup" (vaultStore [vaultHandle "sup"])
      (commit (vaultRelease "sup").transaction (vaultStore [vaultHandle "sup"])).2 := by
  refine (producerVerbs_agree (vaultStore_sound (by simp) (by simp [vaultHandle]))
    (vaultStore_consistent _) (.refl (vaultStore [vaultHandle "sup"]))).2
      (vaultRelease "sup") ⟨?_, ?_⟩
  · exact .inr ⟨vaultHandle "sup", rfl, fun _ => rfl⟩
  · intro post s' _
    trivial

/-- A claim that is resolved stays as it was resolved, and its producer is told nothing more. -/
theorem resolved_for_good {s₀ s : Store} (sound : s₀.ClaimsSound)
    (run : Reaches ClaimSettlement.step (ClaimSettlement.Meets ClaimCall.Owned) s₀ s) {id : Id}
    {h : ClaimHandle}
    (found : s₀.claimHandle? id = some h) (resolved : h.state ≠ .active)
    (unheld : h.holderSupervisorId = none) :
    (∃ h', s.claimHandle? id = some h' ∧ h'.state = h.state ∧ h'.holderSupervisorId = none) ∧
      ∀ o ∈ s.outbox, o.claimHandleId = id → o ∈ s₀.outbox := by
  have kept : s.ClaimsSound ∧
      (∃ h', s.claimHandle? id = some h' ∧ h'.state = h.state ∧ h'.holderSupervisorId = none) ∧
      ∀ o ∈ s.outbox, o.claimHandleId = id → o ∈ s₀.outbox := by
    refine run.invariant (I := fun s => s.ClaimsSound ∧
      (∃ h', s.claimHandle? id = some h' ∧ h'.state = h.state ∧ h'.holderSupervisorId = none) ∧
      ∀ o ∈ s.outbox, o.claimHandleId = id → o ∈ s₀.outbox) ?_
      ⟨sound, ⟨h, found, rfl, unheld⟩, fun o mem _ => mem⟩
    rintro s t s' ⟨sound, ⟨h', found', same, unheld'⟩, told⟩ meets taken
    cases taken
    rcases t.disposes sound meets with ⟨sound', disposes⟩
    refine ⟨sound', ?_, fun o mem mine => ?_⟩
    · rcases disposes.kept id h' found' with ⟨h'', found'', progresses⟩ | ⟨held, -⟩
      · exact ⟨h'', found'', (progresses.resolved (same ▸ resolved)).trans same,
          progresses.unheld unheld'⟩
      · exact absurd unheld' held
    · rcases disposes.queued with ⟨new, extended, each⟩
      rw [extended] at mem
      rcases mem_append.mp mem with old | late
      · exact told o old mine
      · -- verbs are queued for active handles only
        rcases each o late with ⟨row, -, there, active, -⟩
        rw [mine, found'] at there
        cases there
        exact absurd (same ▸ active) resolved
  exact kept.2

def committedHandle : ClaimHandle :=
  { vaultHandle "sup" with state := .committed, holderSupervisorId := none }

/-- The producer of a claim that is committed already is not told again. -/
theorem resolved_for_good_vault :
    ∃ s, Reaches ClaimSettlement.step (ClaimSettlement.Meets ClaimCall.Owned)
      (vaultStore [committedHandle]) s ∧
      ∀ o ∈ s.outbox, o.claimHandleId = 7 → o ∈ (vaultStore [committedHandle]).outbox := by
  have run : Reaches ClaimSettlement.step (ClaimSettlement.Meets ClaimCall.Owned)
      (vaultStore [committedHandle])
      (commit (vaultRelease "sup").transaction (vaultStore [committedHandle])).2 := by
    refine .tail (vaultRelease "sup") (.refl _) ⟨.inr ⟨committedHandle, rfl, ?_⟩, fun _ _ _ =>
      trivial⟩ rfl
    intro active
    cases active
  exact ⟨_, run, (resolved_for_good (vaultStore_sound (by simp)
    (by simp [committedHandle, vaultHandle])) run (h := committedHandle) rfl nofun rfl).2⟩

end Rimsky
