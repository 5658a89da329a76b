import Rimsky.Runtime.ClaimsApart

/-!
# Resolving claim trees

A decision about a handle descends to abandon the handles split off from it and ascends to
settle the handle it was split off from. What all of this may do to claims is one relation
between the stores before and after it: handles are resolved once and for good, and each that
is resolved has its verb queued. The decision itself has to be about an active handle of the
supervisor that takes it; every other handle on the way is checked by the walks themselves.
-/

namespace Rimsky

open Transaction List Store ClaimHandles TerminalDecision TerminalOutcome

variable {h h' : ClaimHandle} {rule : CommitRule} {supervisorId : String} {s s' : Store} {u : Unit}
  {td : TerminalDecision} {post : List PostCommit} {rows : List ClaimHandle}
  {outcome childOutcome : TerminalOutcome} {keepParent : Bool} {parentId : Id}

def ClaimHandleState.verb? : ClaimHandleState → Option ProducerVerb
  | .active => none
  | .committed => some .commit
  | .abandoned => some .abandon

def TerminalOutcome.state (o : TerminalOutcome) : ClaimHandleState :=
  if o.isAbandon then .abandoned else .committed

theorem TerminalOutcome.state_ne_active (o : TerminalOutcome) : o.state ≠ .active := by
  unfold state
  split <;> simp

def TerminalOutcome.verb (o : TerminalOutcome) : ProducerVerb :=
  if o = .commit then .commit else .abandon

theorem TerminalOutcome.verb?_state (o : TerminalOutcome) : o.state.verb? = some o.verb := by
  cases o <;> rfl

theorem TerminalOutcome.eq_commit {o : TerminalOutcome} (committed : o.state = .committed) :
    o = .commit := by
  cases o with
  | commit => rfl
  | abandon => cases committed
  | abandonSiblingCancel => cases committed
  | abandonDescendantCancel => cases committed

def Store.holdersOf (s : Store) (claimHandleId : Id) : List ClaimHolder :=
  s.claimHolders.filter (·.claimHandleId = claimHandleId)

theorem Store.holdersOf_mono (fewer : ∀ h ∈ s'.claimHolders, h ∈ s.claimHolders) (id : Id) :
    ∀ h ∈ s'.holdersOf id, h ∈ s.holdersOf id := by
  intro h mem
  rcases mem_filter.mp mem with ⟨mem, fits⟩
  exact mem_filter.mpr ⟨fewer h mem, fits⟩

/-- When a handle may be committed, by the rows of its holders. -/
inductive CommitRule where
  | never | always | completed

def CommitRule.Allows (rule : CommitRule) (holders : List ClaimHolder) : Prop :=
  match rule with
  | .never => False
  | .always => True
  | .completed => ∀ h ∈ holders, h.state = .completed

def CommitRule.Tolerates (rule : CommitRule) (h : ClaimHolder) : Prop :=
  match rule with
  | .completed => h.state ≠ .failed
  | _ => True

theorem CommitRule.tolerates_of_ne_failed (rule : CommitRule) {h : ClaimHolder}
    (fine : h.state ≠ .failed) : rule.Tolerates h := by
  cases rule with
  | never => trivial
  | always => trivial
  | completed => exact fine

theorem CommitRule.Allows.mono {holders holders' : List ClaimHolder} (allows : rule.Allows holders)
    (fewer : ∀ h ∈ holders', h ∈ holders) : rule.Allows holders' := by
  cases rule with
  | never => exact allows
  | always => trivial
  | completed =>
    intro h mem
    exact allows h (fewer h mem)

theorem CommitRule.allows_of_tolerates (some : rule ≠ .never) {holders : List ClaimHolder}
    (finished : ∀ h ∈ holders, h.state ≠ .active) (tolerates : ∀ h ∈ holders, rule.Tolerates h) :
    rule.Allows holders := by
  cases rule with
  | never => exact absurd rfl some
  | always => trivial
  | completed =>
    intro h mem
    cases state : h.state with
    | active => exact absurd state (finished h mem)
    | completed => rfl
    | failed => exact absurd state (tolerates h mem)

/--
A handle is resolved for good, and nobody holds it then. What was split off from it is counted
as it is resolved.
-/
structure ClaimHandle.Progresses (h h' : ClaimHandle) : Prop where
  resolved : h.state ≠ .active → h'.state = h.state
  unheld : h.holderSupervisorId = none → h'.holderSupervisorId = none
  released : h.state = .active → h'.state ≠ .active → h'.holderSupervisorId = none
  stillHeld : h.holderSupervisorId ≠ none → h'.state = .active → h'.holderSupervisorId ≠ none
  node : h'.holderNodeId = h.holderNodeId
  producer : h'.producerName = h.producerName
  expected : h'.expectedChildrenCount = h.expectedChildrenCount
  tally : h.committedChildrenCount + h.abandonedChildrenCount ≤
    h'.committedChildrenCount + h'.abandonedChildrenCount

theorem ClaimHandle.Progresses.of_same (state : h'.state = h.state)
    (holder : h'.holderSupervisorId = h.holderSupervisorId)
    (node : h'.holderNodeId = h.holderNodeId) (producer : h'.producerName = h.producerName)
    (expected : h'.expectedChildrenCount = h.expectedChildrenCount)
    (tally : h.committedChildrenCount + h.abandonedChildrenCount ≤
      h'.committedChildrenCount + h'.abandonedChildrenCount) : h.Progresses h' := by
  refine ⟨fun _ => state, fun unheld => holder.trans unheld, ?_, ?_, node, producer,
    expected, tally⟩
  · intro active resolved
    exact absurd (state.trans active) resolved
  · intro held _
    rwa [holder]

theorem ClaimHandle.Progresses.refl (h : ClaimHandle) : h.Progresses h :=
  .of_same rfl rfl rfl rfl rfl (Nat.le_refl _)

theorem ClaimHandle.Progresses.was_active (progresses : h.Progresses h')
    (active : h'.state = .active) : h.state = .active := by
  by_contra resolved
  exact resolved (progresses.resolved resolved ▸ active)

theorem ClaimHandle.Progresses.trans {h'' : ClaimHandle} (first : h.Progresses h')
    (second : h'.Progresses h'') : h.Progresses h'' := by
  refine ⟨?_, fun unheld => second.unheld (first.unheld unheld), ?_, ?_,
    second.node.trans first.node, second.producer.trans first.producer,
    second.expected.trans first.expected, Nat.le_trans first.tally second.tally⟩
  · intro resolved
    have mid := first.resolved resolved
    exact (second.resolved (mid ▸ resolved)).trans mid
  · intro active resolved
    by_cases still : h'.state = .active
    · exact second.released still resolved
    · exact second.unheld (first.released active still)
  · intro held active
    exact second.stillHeld (first.stillHeld held (second.was_active active)) active

structure ClaimHandle.Advances (supervisorId : String) (h h' : ClaimHandle) : Prop
    extends h.Progresses h' where
  parent : h'.parentClaimHandleId = h.parentClaimHandleId
  owned : h.holderSupervisorId = some supervisorId → h'.state = .active →
    h'.holderSupervisorId = some supervisorId

theorem ClaimHandle.Advances.refl (supervisorId : String) (h : ClaimHandle) :
    h.Advances supervisorId h := ⟨.refl h, rfl, fun owned _ => owned⟩

theorem ClaimHandle.Advances.of_holder (progresses : h.Progresses h')
    (holder : h'.holderSupervisorId = h.holderSupervisorId)
    (parent : h'.parentClaimHandleId = h.parentClaimHandleId) : h.Advances supervisorId h' :=
  ⟨progresses, parent, fun owned _ => holder.trans owned⟩

theorem ClaimHandle.unbound_progresses (h : ClaimHandle) (gone : Id → Bool) :
    h.Progresses (h.unbound gone) := by
  unfold ClaimHandle.unbound
  split
  · exact .of_same rfl rfl rfl rfl rfl (Nat.le_refl _)
  · exact .refl h

theorem ClaimHandle.Advances.trans {h'' : ClaimHandle} (first : h.Advances supervisorId h')
    (second : h'.Advances supervisorId h'') : h.Advances supervisorId h'' := by
  refine ⟨first.toProgresses.trans second.toProgresses, second.parent.trans first.parent, ?_⟩
  intro owned active
  exact second.owned (first.owned owned (second.was_active active)) active

/-- What the tables of claims guarantee by themselves, and that pending runs have none. -/
structure Store.ClaimsSound (s : Store) : Prop where
  free : s.PendingFree
  handles : (s.claimHandles.map (·.id)).Nodup
  verbs : (s.outbox.map fun o => (o.claimHandleId, o.verb)).Nodup

theorem Store.ClaimsSound.find (sound : s.ClaimsSound) (mem : h ∈ s.claimHandles) :
    s.claimHandle? h.id = some h := find?_key sound.handles mem

def Store.mapHandles (s : Store) (change : ClaimHandle → ClaimHandle) : Store :=
  { s with claimHandles := s.claimHandles.map change }

variable {change : ClaimHandle → ClaimHandle}

theorem Store.claimHandle?_of_map (handles : s'.claimHandles = s.claimHandles.map change)
    (sameId : ∀ h, (change h).id = h.id) (id : Id) :
    s'.claimHandle? id = (s.claimHandle? id).map change := by
  rw [claimHandle?, handles]
  exact find?_key_map sameId id

theorem Store.claimHandle?_of_same (handles : s'.claimHandles = s.claimHandles) (id : Id) :
    s'.claimHandle? id = s.claimHandle? id := by
  simp only [claimHandle?, handles]

theorem Store.claimHandle?_mapHandles (sameId : ∀ h, (change h).id = h.id) (id : Id) :
    (s.mapHandles change).claimHandle? id = (s.claimHandle? id).map change :=
  claimHandle?_of_map rfl sameId id

theorem Store.ClaimsSound.mapHandles (sound : s.ClaimsSound) (sameId : ∀ h, (change h).id = h.id)
    (sameRun : ∀ h, (change h).nodeRunId = h.nodeRunId) :
    (s.mapHandles change).ClaimsSound := by
  refine ⟨⟨?_, sound.free.holders⟩, ?_, sound.verbs⟩
  · intro h' mem runId bound
    rcases mem_map.mp mem with ⟨h, old, rfl⟩
    exact sound.free.handles h old runId (sameRun h ▸ bound)
  · change ((s.claimHandles.map change).map (·.id)).Nodup
    rw [map_key_of_map sameId]
    exact sound.handles

def Store.mapHandle (s : Store) (id : Id) (guard : ClaimHandle → Bool)
    (change : Nat → ClaimHandle → ClaimHandle) : Store :=
  s.mapHandles fun h => if h.id = id && guard h then change s.clock h else h

variable {guard : ClaimHandle → Bool}

theorem ClaimHandles.update_of_any {id : Id} {change : Nat → ClaimHandle → ClaimHandle}
    (guarded : s.claimHandles.any fun h => h.id = id && guard h) :
    ClaimHandles.update id guard change s = (.ok (), s.mapHandle id guard change) := by
  simp only [update, read_bind, guarded, if_true]
  rfl

theorem ClaimHandles.update_of_none {id : Id} {change : Nat → ClaimHandle → ClaimHandle}
    (none : s.claimHandles.any (fun h => h.id = id && guard h) = false) :
    ClaimHandles.update id guard change s = (.error .illegalClaimHandleTransition, s) := by
  simp only [update, read_bind, none]
  rfl

theorem ClaimHandles.update_ok {id : Id} {change : Nat → ClaimHandle → ClaimHandle}
    (run : ClaimHandles.update id guard change s = (.ok u, s')) :
    s' = s.mapHandle id guard change := by
  cases guarded : s.claimHandles.any fun h => h.id = id && guard h with
  | false =>
    rw [update_of_none guarded] at run
    cases run
  | true =>
    rw [update_of_any guarded] at run
    exact (congrArg Prod.snd run).symm

def Store.IsParent (s : Store) (id : Id) : Prop :=
  ∃ childId child, s.claimHandle? childId = some child ∧ child.parentClaimHandleId = some id

/--
Handles go on. A named lock has a handle too, whose row is deleted when the lock is released; a
handle that was resolved is held by nobody and stays.
-/
structure Outlasts (s s' : Store) : Prop where
  kept : ∀ id h, s.claimHandle? id = some h →
    (∃ h', s'.claimHandle? id = some h' ∧ h.Progresses h') ∨
      (h.holderSupervisorId ≠ none ∧ s'.claimHandle? id = none)
  absent : ∀ id, s.claimHandle? id = none → s'.claimHandle? id = none

/--
A verb is queued just for the handles that are resolved. A supervisor takes over a handle only to
settle it for the handles split off from it.
-/
structure Informs (supervisorId : String) (s s' : Store) : Prop where
  taken : ∀ id h h', s.claimHandle? id = some h → s'.claimHandle? id = some h' →
    h'.holderSupervisorId = some supervisorId →
      h.holderSupervisorId = some supervisorId ∨ s.IsParent id
  queued : ∃ new, s'.outbox = s.outbox ++ new ∧ ∀ o ∈ new, ∃ h h',
    s.claimHandle? o.claimHandleId = some h ∧ h.state = .active ∧
      (h.holderSupervisorId = some supervisorId ∨ s.IsParent o.claimHandleId) ∧
      s'.claimHandle? o.claimHandleId = some h' ∧ h'.state.verb? = some o.verb ∧
      h'.holderSupervisorId = none
  told : ∀ id h h', s.claimHandle? id = some h → s'.claimHandle? id = some h' →
    h.state = .active → ∀ verb, h'.state.verb? = some verb →
      ∃ o ∈ s'.outbox, o.claimHandleId = id ∧ o.verb = verb

/-- What a settlement does to handles and verbs. -/
structure Disposes (supervisorId : String) (s s' : Store) : Prop
    extends Outlasts s s', Informs supervisorId s s' where
  parents : ∀ id, s'.IsParent id → s.IsParent id

theorem ClaimHandleState.ne_active_of_verb? {state : ClaimHandleState} {verb : ProducerVerb}
    (told : state.verb? = some verb) : state ≠ .active := by
  rintro rfl
  cases told

namespace Outlasts

variable {s mid s' : Store}

theorem of_map (found : ∀ id, s'.claimHandle? id = (s.claimHandle? id).map change)
    (progresses : ∀ h : ClaimHandle, h.Progresses (change h)) : Outlasts s s' where
  kept id h old := .inl ⟨change h, by rw [found, old]; rfl, progresses h⟩
  absent id absent := by
    rw [found, absent]
    rfl

theorem row (outlasts : Outlasts s s') {id : Id} {h' : ClaimHandle}
    (found : s'.claimHandle? id = some h') :
    ∃ h, s.claimHandle? id = some h ∧ h.Progresses h' := by
  cases old : s.claimHandle? id with
  | none =>
    rw [outlasts.absent id old] at found
    cases found
  | some h =>
    rcases outlasts.kept id h old with ⟨h'', new, progresses⟩ | ⟨-, gone⟩
    · rw [new] at found
      cases found
      exact ⟨h, rfl, progresses⟩
    · rw [gone] at found
      cases found

theorem trans (first : Outlasts s mid) (second : Outlasts mid s') : Outlasts s s' := by
  refine ⟨fun id h old => ?_, fun id absent => second.absent id (first.absent id absent)⟩
  rcases first.kept id h old with ⟨hMid, between, progresses⟩ | ⟨held, gone⟩
  · rcases second.kept id hMid between with ⟨h', new, progresses'⟩ | ⟨held, gone⟩
    · exact .inl ⟨h', new, progresses.trans progresses'⟩
    · exact .inr ⟨fun unheld => held (progresses.unheld unheld), gone⟩
  · exact .inr ⟨held, second.absent id gone⟩

end Outlasts

theorem Disposes.trans {supervisorId : String} {s mid s' : Store}
    (first : Disposes supervisorId s mid) (second : Disposes supervisorId mid s') :
    Disposes supervisorId s s' := by
  refine ⟨first.toOutlasts.trans second.toOutlasts, ⟨?_, ?_, ?_⟩,
    fun id parent => first.parents id (second.parents id parent)⟩
  · intro id h h' old after mine
    rcases second.row after with ⟨hMid, between, -⟩
    rcases second.taken id hMid h' between after mine with own | parent
    · exact first.taken id h hMid old between own
    · exact .inr (first.parents id parent)
  · rcases first.queued with ⟨new, extended, each⟩
    rcases second.queued with ⟨new', extended', each'⟩
    refine ⟨new ++ new', by rw [extended', extended, append_assoc], ?_⟩
    intro o mem
    rcases mem_append.mp mem with early | late
    · rcases each o early with ⟨h, hMid, old, active, mine, between, verb, unheld⟩
      rcases second.kept _ _ between with ⟨h', after, progresses⟩ | ⟨held, -⟩
      · exact ⟨h, h', old, active, mine, after,
          progresses.resolved (ClaimHandleState.ne_active_of_verb? verb) ▸ verb,
          progresses.unheld unheld⟩
      · exact absurd unheld held
    · rcases each' o late with ⟨hMid, h', between, active, mine, after, verb, unheld⟩
      rcases first.row between with ⟨h, old, progresses⟩
      refine ⟨h, h', old, progresses.was_active active, ?_, after, verb, unheld⟩
      rcases mine with own | parent
      · exact first.taken _ h hMid old between own
      · exact .inr (first.parents _ parent)
  · intro id h h' old after active verb told
    rcases second.row after with ⟨hMid, between, progresses⟩
    by_cases still : hMid.state = .active
    · exact second.told id hMid h' between after still verb told
    · rw [progresses.resolved still] at told
      rcases first.told id h hMid old between active verb told with ⟨o, mem, known⟩
      rcases second.queued with ⟨new, extended, -⟩
      exact ⟨o, by rw [extended]; exact mem_append_left _ mem, known⟩

/-- Handles are resolved for good, and all rows stay. -/
structure Settles (supervisorId : String) (s s' : Store) : Prop
    extends Informs supervisorId s s' where
  rows : ∀ id h, s.claimHandle? id = some h →
    ∃ h', s'.claimHandle? id = some h' ∧ h.Advances supervisorId h'
  absent : ∀ id, s.claimHandle? id = none → s'.claimHandle? id = none

namespace Settles

variable {supervisorId : String} {s mid s' : Store}

theorem of_map (handles : s'.claimHandles = s.claimHandles.map change)
    (outbox : s'.outbox = s.outbox) (sameId : ∀ h, (change h).id = h.id)
    (sameState : ∀ h, (change h).state = h.state)
    (advances : ∀ h : ClaimHandle, h.Advances supervisorId (change h))
    (taken : ∀ h, (change h).holderSupervisorId = some supervisorId →
      h.holderSupervisorId = some supervisorId ∨ s.IsParent h.id) : Settles supervisorId s s' := by
  have found := claimHandle?_of_map handles sameId
  refine ⟨⟨?_, ⟨[], by simp [outbox], by simp⟩, ?_⟩, fun id h old => ?_, fun id absent => ?_⟩
  · intro id h h' old new mine
    rw [found, old] at new
    cases new
    exact id_of_claimHandle? old ▸ taken h mine
  · intro id h h' old new active verb told
    rw [found, old] at new
    cases new
    rw [sameState, active] at told
    cases told
  · exact ⟨change h, by rw [found, old]; rfl, advances h⟩
  · rw [found, absent]
    rfl

theorem of_same (handles : s'.claimHandles = s.claimHandles) (outbox : s'.outbox = s.outbox) :
    Settles supervisorId s s' :=
  of_map (handles.trans (map_id _).symm) outbox (fun _ => rfl) (fun _ => rfl) (.refl _)
    fun _ => .inl

section

variable (settles : Settles supervisorId s s')

include settles

theorem row {id : Id} (found : s'.claimHandle? id = some h') :
    ∃ h, s.claimHandle? id = some h ∧ h.Advances supervisorId h' := by
  cases old : s.claimHandle? id with
  | none =>
    rw [settles.absent id old] at found
    cases found
  | some h =>
    rcases settles.rows id h old with ⟨h'', new, advances⟩
    rw [new] at found
    exact ⟨h, rfl, Option.some.inj found ▸ advances⟩

theorem isParent {id : Id} (parent : s.IsParent id) :
    s'.IsParent id := by
  rcases parent with ⟨childId, child, found, ofParent⟩
  rcases settles.rows childId child found with ⟨child', new, advances⟩
  exact ⟨childId, child', new, advances.parent.trans ofParent⟩

theorem wasParent {id : Id} (parent : s'.IsParent id) :
    s.IsParent id := by
  rcases parent with ⟨childId, child', found, ofParent⟩
  rcases settles.row found with ⟨child, old, advances⟩
  exact ⟨childId, child, old, advances.parent.symm.trans ofParent⟩

theorem disposes : Disposes supervisorId s s' := by
  refine ⟨⟨fun id h old => ?_, settles.absent⟩, settles.toInforms, fun _ => settles.wasParent⟩
  rcases settles.rows id h old with ⟨h', new, advances⟩
  exact .inl ⟨h', new, advances.toProgresses⟩

end

theorem trans (first : Settles supervisorId s mid) (second : Settles supervisorId mid s') :
    Settles supervisorId s s' := by
  have disposes := first.disposes.trans second.disposes
  refine ⟨disposes.toInforms, fun id h old => ?_, disposes.absent⟩
  rcases first.rows id h old with ⟨hMid, between, advances⟩
  rcases second.rows id hMid between with ⟨h', new, advances'⟩
  exact ⟨h', new, advances.trans advances'⟩

instance : IsPreorder Store (Settles supervisorId) where
  refl _ := of_same rfl rfl
  trans _ _ _ := trans

end Settles

/-- No row is new, none changes its parent, and none is taken back into flight. -/
def Ages (s s' : Store) : Prop :=
  ∀ id h', s'.claimHandle? id = some h' → ∃ h, s.claimHandle? id = some h ∧
    h'.parentClaimHandleId = h.parentClaimHandleId ∧ (h'.state = .active → h.state = .active)

theorem Settles.ages (settles : Settles supervisorId s s') : Ages s s' := by
  intro id h' found
  rcases settles.row found with ⟨h, old, advances⟩
  exact ⟨h, old, advances.parent, advances.was_active⟩

theorem Ages.trans {mid : Store} (first : Ages s mid) (second : Ages mid s') : Ages s s' := by
  intro id h'' found
  rcases second id h'' found with ⟨h', between, parent', active'⟩
  rcases first id h' between with ⟨h, old, parent, active⟩
  exact ⟨h, old, parent'.trans parent, active ∘ active'⟩

theorem Ages.of_same (handles : s'.claimHandles = s.claimHandles) : Ages s s' :=
  fun id h found => ⟨h, claimHandle?_of_same handles id ▸ found, rfl, fun active => active⟩

instance {supervisorId : String} : IsPreorder Store (Disposes supervisorId) where
  refl s := (refl s : Settles supervisorId s s).disposes
  trans _ _ _ := Disposes.trans

/-- Settling within one decision: holders are not marked, and commits keep to the rule. -/
structure Resolves (supervisorId : String) (rule : CommitRule) (s s' : Store) : Prop
    extends Settles supervisorId s s' where
  holders : ∀ h ∈ s'.claimHolders, h ∈ s.claimHolders
  commits : ∀ id h h', s.claimHandle? id = some h → s'.claimHandle? id = some h' →
    h.state = .active → h'.state = .committed → rule.Allows (s'.holdersOf id)

namespace Resolves

variable {supervisorId : String} {rule : CommitRule} {s mid s' : Store}

theorem holdersOf (resolves : Resolves supervisorId rule s s') (id : Id) :
    ∀ h ∈ s'.holdersOf id, h ∈ s.holdersOf id := holdersOf_mono resolves.holders id

theorem of_map (handles : s'.claimHandles = s.claimHandles.map change)
    (outbox : s'.outbox = s.outbox) (holders : ∀ h ∈ s'.claimHolders, h ∈ s.claimHolders)
    (sameId : ∀ h, (change h).id = h.id) (sameState : ∀ h, (change h).state = h.state)
    (advances : ∀ h : ClaimHandle, h.Advances supervisorId (change h))
    (taken : ∀ h, (change h).holderSupervisorId = some supervisorId →
      h.holderSupervisorId = some supervisorId ∨ s.IsParent h.id) :
    Resolves supervisorId rule s s' := by
  refine ⟨.of_map handles outbox sameId sameState advances taken, holders, ?_⟩
  intro id h h' old new active committed
  rw [claimHandle?_of_map handles sameId, old] at new
  cases new
  rw [sameState, active] at committed
  cases committed

instance : IsPreorder Store (Resolves supervisorId rule) where
  refl s := of_map (map_id _).symm rfl (fun _ mem => mem) (fun _ => rfl) (fun _ => rfl) (.refl _)
    fun _ => .inl
  trans a b c first second := by
    refine ⟨first.toSettles.trans second.toSettles,
      fun h mem => first.holders h (second.holders h mem), ?_⟩
    intro id h h' old after active committed
    rcases first.rows id h old with ⟨hMid, between, -⟩
    by_cases still : hMid.state = .active
    · exact second.commits id hMid h' between after still committed
    · rcases second.rows id hMid between with ⟨h'', after', advances⟩
      rw [after'] at after
      cases after
      rw [advances.resolved still] at committed
      exact (first.commits id h hMid old between active committed).mono (second.holdersOf id)

theorem of_never (resolves : Resolves supervisorId .never s s') : Resolves supervisorId rule s s' :=
  { toSettles := resolves.toSettles
    holders := resolves.holders
    commits := fun id h h' old new active committed =>
      (resolves.commits id h h' old new active committed).elim }

end Resolves

theorem Apart.resolves (apart : Apart s s') (sound : s.ClaimsSound) :
    s'.ClaimsSound ∧ Resolves supervisorId rule s s' := by
  rcases apart sound.free with ⟨free, gone, outbox, handles, holders⟩
  refine ⟨⟨free, ?_, outbox ▸ sound.verbs⟩, .of_map handles outbox ?_ (·.unbound_id gone)
    (·.unbound_state gone) ?_ fun h mine => .inl (h.unbound_holder gone ▸ mine)⟩
  · rw [handles, map_key_of_map (·.unbound_id gone)]
    exact sound.handles
  · intro h mem
    rw [holders] at mem
    exact (mem_filter.mp mem).1
  · intro h
    exact .of_holder (h.unbound_progresses gone) (h.unbound_holder gone) (h.unbound_parent gone)

theorem Apart.row (apart : Apart s s') (sound : s.ClaimsSound) {id : Id}
    (found : s.claimHandle? id = some h) : ∃ gone, s'.claimHandle? id = some (h.unbound gone) := by
  rcases apart sound.free with ⟨-, gone, -, handles, -⟩
  refine ⟨gone, ?_⟩
  rw [claimHandle?_of_map handles (·.unbound_id gone), found]
  rfl

structure Store.Decides (s : Store) (supervisorId : String) (td : TerminalDecision)
    (row : ClaimHandle) : Prop where
  source : td.source ≠ .ownershipBail
  supervisor : td.supervisorId = supervisorId
  known : s.claimHandle? td.claimHandleId = some row
  active : row.state = .active
  owned : row.holderSupervisorId = some supervisorId
  parent : td.parentClaimHandleId = none ∨ td.parentClaimHandleId = row.parentClaimHandleId

structure Queues (claimHandleId : Id) (verb : ProducerVerb) (s s' : Store) : Prop where
  handles : s'.claimHandles = s.claimHandles
  holders : s'.claimHolders = s.claimHolders
  extended : ∃ new, s'.outbox = s.outbox ++ new ∧
    ∀ o ∈ new, o.claimHandleId = claimHandleId ∧ o.verb = verb
  told : ∃ o ∈ s'.outbox, o.claimHandleId = claimHandleId ∧ o.verb = verb

theorem ProducerVerbOutbox.enqueue_queues {row : OutboxRow} (sound : s.ClaimsSound)
    (run : ProducerVerbOutbox.enqueue row s = (.ok u, s')) :
    s'.ClaimsSound ∧ Queues row.claimHandleId row.verb s s' := by
  have later : ∀ runId, s.MayHold runId →
      ({ s with nextId := s.nextId + 1 } : Store).MayHold runId :=
    fun runId may => ⟨Nat.lt_succ_of_lt may.1, may.2⟩
  have free : ({ s with nextId := s.nextId + 1 } : Store).PendingFree :=
    sound.free.trimmed (.of_same rfl rfl rfl) later
  simp only [ProducerVerbOutbox.enqueue, newId, read_bind, bind_assoc, write_bind, pure_bind,
    write_apply, Prod.mk.injEq, true_and] at run
  subst run
  split
  case isTrue there =>
    rcases any_eq_true.mp there with ⟨o, mem, same⟩
    simp only [Bool.and_eq_true, decide_eq_true_eq] at same
    exact ⟨⟨free, sound.handles, sound.verbs⟩, rfl, rfl, ⟨[], (append_nil _).symm, by simp⟩,
      o, mem, same⟩
  case isFalse fresh =>
    refine ⟨⟨⟨free.handles, free.holders⟩, sound.handles, ?_⟩, rfl, rfl, ⟨_, rfl, ?_⟩, ?_⟩
    · simp only [map_append, map_cons, map_nil]
      refine List.Nodup.append sound.verbs (nodup_singleton _) ?_
      intro pair old new
      rcases mem_map.mp old with ⟨o, mem, rfl⟩
      refine fresh (any_eq_true.mpr ⟨o, mem, ?_⟩)
      simpa using mem_singleton.mp new
    · intro o mem
      rw [mem_singleton.mp mem]
      exact ⟨rfl, rfl⟩
    · exact ⟨_, mem_append_right _ (mem_singleton_self _), rfl, rfl⟩

theorem enqueueProducerVerb_queues (sound : s.ClaimsSound)
    (run : enqueueProducerVerb td s = (.ok u, s')) :
    s'.ClaimsSound ∧ Queues td.claimHandleId td.outcome.verb s s' := by
  exact ProducerVerbOutbox.enqueue_queues sound run

def TerminalDecision.promotion (td : TerminalDecision) (now : Nat) (h : ClaimHandle) :
    ClaimHandle :=
  if h.id = td.claimHandleId && (h.state = .active && ClaimHandles.claimant td.supervisorId h) then
    { h with state := td.outcome.state, holderSupervisorId := none, resolvedAt := some now }
  else h

theorem TerminalDecision.promotion_id (td : TerminalDecision) (now : Nat) (h : ClaimHandle) :
    (td.promotion now h).id = h.id := by
  unfold promotion
  split <;> rfl

theorem TerminalDecision.promotion_of_owned (sameId : h.id = td.claimHandleId)
    (active : h.state = .active) (owned : h.holderSupervisorId = some td.supervisorId) (now : Nat) :
    td.promotion now h =
      { h with state := td.outcome.state, holderSupervisorId := none, resolvedAt := some now } := by
  rw [promotion, if_pos]
  simp [claimant, sameId, active, owned]

theorem TerminalDecision.promotion_of_unowned
    (unowned : h.id = td.claimHandleId → h.state = .active →
      h.holderSupervisorId ≠ some td.supervisorId) (now : Nat) : td.promotion now h = h := by
  rw [promotion, if_neg]
  simp only [claimant, Bool.and_eq_true, decide_eq_true_eq, not_and]
  exact unowned

theorem TerminalDecision.promotion_progresses (td : TerminalDecision) (now : Nat)
    (h : ClaimHandle) :
    h.Progresses (td.promotion now h) := by
  unfold promotion
  split
  case isTrue fits =>
    simp only [Bool.and_eq_true, decide_eq_true_eq] at fits
    refine ⟨fun resolved => absurd fits.2.1 resolved, fun _ => rfl, fun _ _ =>
      rfl, ?_, rfl, rfl, rfl, Nat.le_refl _⟩
    intro _ active
    exact absurd active td.outcome.state_ne_active
  case isFalse => exact .refl h

theorem TerminalDecision.promotion_parent (td : TerminalDecision) (now : Nat) (h : ClaimHandle) :
    (td.promotion now h).parentClaimHandleId = h.parentClaimHandleId := by
  unfold promotion
  split <;> rfl

theorem TerminalDecision.promotion_run (td : TerminalDecision) (now : Nat) (h : ClaimHandle) :
    (td.promotion now h).nodeRunId = h.nodeRunId := by
  unfold promotion
  split <;> rfl

theorem promoteHandleState_ok (run : promoteHandleState td s = (.ok u, s')) :
    s' = s.mapHandles (td.promotion s.clock) := by
  let guard : ClaimHandle → Bool := fun h =>
    h.state = .active && claimant td.supervisorId h
  let change : Nat → ClaimHandle → ClaimHandle := fun now h =>
    { h with state := td.outcome.state, holderSupervisorId := none, resolvedAt := some now }
  change (attempt (update td.claimHandleId guard change) >>= _) s = _ at run
  cases guarded : s.claimHandles.any fun h => h.id = td.claimHandleId && guard h with
  | true =>
    rw [bind_of_ok (attempt_apply _ s), update_of_any guarded] at run
    exact (congrArg Prod.snd run).symm
  | false =>
    rw [bind_of_ok (attempt_apply _ s), update_of_none guarded] at run
    have unchanged : s.claimHandles.map (td.promotion s.clock) = s.claimHandles := by
      refine (map_congr_left fun h mem => ?_).trans (map_id _)
      rw [any_eq_false] at guarded
      exact if_neg (guarded h mem)
    have same : s' = s := (congrArg Prod.snd run).symm
    rw [same, mapHandles, unchanged]

theorem Store.ClaimsSound.promoted (sound : s.ClaimsSound)
    (run : promoteHandleState td s = (.ok u, s')) : s'.ClaimsSound := by
  rw [promoteHandleState_ok run]
  exact sound.mapHandles (td.promotion_id _) (td.promotion_run _)

theorem Store.claimHandle?_promoted (run : promoteHandleState td s = (.ok u, s')) (id : Id) :
    s'.claimHandle? id = (s.claimHandle? id).map (td.promotion s.clock) := by
  rw [promoteHandleState_ok run]
  exact claimHandle?_mapHandles (td.promotion_id _) id

structure Promotes (td : TerminalDecision) (row : ClaimHandle) (s s' : Store) : Prop where
  holders : s'.claimHolders = s.claimHolders
  outbox : s'.outbox = s.outbox
  others : ∀ id, id ≠ td.claimHandleId → s'.claimHandle? id = s.claimHandle? id
  promoted : ∃ row', s'.claimHandle? td.claimHandleId = some row' ∧
    row.Advances td.supervisorId row' ∧ row'.state = td.outcome.state

theorem promoteHandleState_promotes {row : ClaimHandle}
    (known : s.claimHandle? td.claimHandleId = some row)
    (owned : row.state = .active → row.holderSupervisorId = some td.supervisorId)
    (decided : row.state ≠ .active → row.state = td.outcome.state)
    (run : promoteHandleState td s = (.ok u, s')) : Promotes td row s s' := by
  have rowId := id_of_claimHandle? known
  have found := claimHandle?_promoted run
  refine ⟨?_, ?_, ?_, td.promotion s.clock row, ?_, ?_⟩
  · rw [promoteHandleState_ok run]
    rfl
  · rw [promoteHandleState_ok run]
    rfl
  · intro id other
    rw [found]
    cases old : s.claimHandle? id with
    | none => rfl
    | some h =>
      rw [Option.map_some, promotion_of_unowned]
      intro same
      exact absurd ((id_of_claimHandle? old).symm.trans same) other
  · rw [found, known]
    rfl
  · have progresses := td.promotion_progresses s.clock row
    by_cases active : row.state = .active
    · rw [promotion_of_owned rowId active (owned active)] at progresses ⊢
      refine ⟨⟨progresses, rfl, ?_⟩, rfl⟩
      intro _ still
      exact absurd still td.outcome.state_ne_active
    · rw [promotion_of_unowned fun _ still => absurd still active]
      exact ⟨.refl _ row, decided active⟩

/--
Queue the verb, abandon what was split off, promote the row: the descent may reach the handle
itself, and then has left it as the decision wants it.
-/
theorem Resolves.of_decision {row mid : ClaimHandle} {s₁ s₂ s₃ : Store}
    (decides : s.Decides supervisorId td row)
    (allows : td.outcome = .commit → rule.Allows (s.holdersOf td.claimHandleId))
    (queues : Queues td.claimHandleId td.outcome.verb s s₁)
    (descends : Resolves supervisorId .never s₁ s₂)
    (between : s₂.claimHandle? td.claimHandleId = some mid) (promotes : Promotes td mid s₂ s₃) :
    Resolves supervisorId rule s s₃ := by
  have same := claimHandle?_of_same queues.handles
  rcases promotes.promoted with ⟨row', promoted, advances, decided⟩
  rw [decides.supervisor] at advances
  rcases queues.extended with ⟨new, extended, each⟩
  rcases descends.queued with ⟨new', extended', each'⟩
  have fewer : ∀ h ∈ s₃.claimHolders, h ∈ s.claimHolders := by
    intro h mem
    rw [promotes.holders] at mem
    exact queues.holders ▸ descends.holders h mem
  have isParent : ∀ id, s₁.IsParent id → s.IsParent id := by
    rintro id ⟨childId, child, found, ofParent⟩
    exact ⟨childId, child, (same childId).symm.trans found, ofParent⟩
  have whole : row.Advances supervisorId row' := by
    rcases descends.rows _ row ((same _).trans decides.known) with ⟨h₂, after, advances₂⟩
    rw [after] at between
    cases between
    exact advances₂.trans advances
  have resolved : row'.state ≠ .active := decided ▸ td.outcome.state_ne_active
  refine ⟨⟨⟨?_, ⟨new ++ new', ?_, ?_⟩, ?_⟩, ?_, ?_⟩, fewer, ?_⟩
  · intro id h h' old after mine
    by_cases this : id = td.claimHandleId
    · subst this
      rw [decides.known] at old
      cases old
      exact .inl decides.owned
    · rw [promotes.others id this] at after
      exact (descends.taken id h h' ((same id).trans old) after mine).imp_right (isParent id)
  · rw [promotes.outbox, extended', extended, append_assoc]
  · intro o mem
    rcases mem_append.mp mem with early | late
    · rcases each o early with ⟨this, verb⟩
      rw [this]
      refine ⟨row, row', decides.known, decides.active, .inl decides.owned, promoted, ?_,
        whole.released decides.active resolved⟩
      rw [decided, verb, td.outcome.verb?_state]
    · rcases each' o late with ⟨h, h₂, old, active, mine, after, verb, unheld⟩
      rw [same] at old
      have mine := mine.imp_right (isParent _)
      by_cases this : o.claimHandleId = td.claimHandleId
      · rw [this] at old after mine ⊢
        rw [after] at between
        cases between
        exact ⟨h, row', old, active, mine, promoted,
          advances.resolved (ClaimHandleState.ne_active_of_verb? verb) ▸ verb,
          advances.unheld unheld⟩
      · exact ⟨h, h₂, old, active, mine, (promotes.others _ this).trans after, verb, unheld⟩
  · intro id h h' old after active verb told
    rw [promotes.outbox]
    by_cases this : id = td.claimHandleId
    · subst this
      rw [promoted] at after
      cases after
      rcases queues.told with ⟨o, mem, known, said⟩
      refine ⟨o, by rw [extended']; exact mem_append_left _ mem, known, ?_⟩
      rw [decided, td.outcome.verb?_state] at told
      exact said.trans (Option.some.inj told)
    · rw [promotes.others id this] at after
      exact descends.told id h h' ((same id).trans old) after active verb told
  · intro id h old
    by_cases this : id = td.claimHandleId
    · subst this
      rw [decides.known] at old
      cases old
      exact ⟨row', promoted, whole⟩
    · rcases descends.rows id h ((same id).trans old) with ⟨h₂, after, advances₂⟩
      exact ⟨h₂, (promotes.others id this).trans after, advances₂⟩
  · intro id absent
    have other : id ≠ td.claimHandleId := by
      rintro rfl
      rw [decides.known] at absent
      cases absent
    exact (promotes.others id other).trans (descends.absent id ((same id).trans absent))
  · intro id h h' old after active committed
    by_cases this : id = td.claimHandleId
    · subst this
      rw [promoted] at after
      cases after
      exact (allows (eq_commit (decided ▸ committed))).mono (holdersOf_mono fewer _)
    · rw [promotes.others id this] at after
      exact (descends.commits id h h' ((same id).trans old) after active committed).elim

variable {R : Store → Store → Prop}

theorem collectPost_runs {α : Type} {f : α → Tx (List PostCommit)} [IsPreorder Store R]
    {I : List α → Store → Prop}
    (each : ∀ x xs s post s', I (x :: xs) s → f x s = (.ok post, s') → I xs s' ∧ R s s')
    {xs : List α} (start : I xs s) (run : collectPost f xs s = (.ok post, s')) :
    I [] s' ∧ R s s' := by
  refine foldlM_runs (fun acc x xs s acc' s' holds step => ?_) start run
  rcases bind_eq_ok.mp step with ⟨post, mid, first, done⟩
  cases done
  exact each x xs s post _ holds first

def Store.Resolved (s : Store) (id : Id) : Prop :=
  ∀ h, s.claimHandle? id = some h → h.state ≠ .active

theorem Store.Resolved.settles {id : Id} (resolved : s.Resolved id)
    (settles : Settles supervisorId s s') : s'.Resolved id := by
  intro h' found active
  rcases settles.row found with ⟨h, old, advances⟩
  exact resolved h old (advances.was_active active)

def Store.Lists (s : Store) (supervisorId : String) (rows : List ClaimHandle) : Prop :=
  ∀ row ∈ rows, ∀ h, s.claimHandle? row.id = some h → row.Advances supervisorId h

theorem Store.lists_of_mem (sound : s.ClaimsSound) (mem : ∀ row ∈ rows, row ∈ s.claimHandles)
    (supervisorId : String) : s.Lists supervisorId rows := by
  intro row listed h found
  rw [sound.find (mem row listed)] at found
  cases found
  exact .refl _ row

theorem Store.Lists.settles (lists : s.Lists supervisorId rows)
    (settles : Settles supervisorId s s') : s'.Lists supervisorId rows := by
  intro row listed h' found
  rcases settles.row found with ⟨h, old, advances⟩
  exact (lists row listed h old).trans advances

theorem Store.Lists.tail {row : ClaimHandle} (lists : s.Lists supervisorId (row :: rows)) :
    s.Lists supervisorId rows := fun row' listed => lists row' (List.mem_cons_of_mem _ listed)

section Walk

variable {args : RunArgs} {rec : Rec} {choice : Option TerminalDecision}

variable (rec) in
/-- Carry a decision out, if one was taken. -/
def carryOut : Option TerminalDecision → Tx (List PostCommit)
  | none => return []
  | some td => rec.resolveClaimHandleTerminal td

variable (args) in
/-- What `cancelClaimHandleWalk` decides about a row. -/
def cancelDecision (outcome : TerminalOutcome) (keepParent : Bool) (row : ClaimHandle) :
    Tx (Option TerminalDecision) := do
  if row.state ≠ .active || row.holderSupervisorId ≠ some args.supervisorId then return none
  else if !(← read (·.claimHandle? row.id)).any (·.state = .active) then return none
  else
    let producer ← producerOf args row
    let instanceId ← acquirerInstanceId row.holderNodeId
    return row.decision args.supervisorId .held outcome producer (row.hint instanceId)
      (if keepParent then row.parentClaimHandleId else none)

theorem cancelClaimHandleWalk_eq : cancelClaimHandleWalk args rec outcome keepParent rows =
    collectPost (fun row => cancelDecision args outcome keepParent row >>= carryOut rec) rows := by
  refine congrArg (collectPost · rows) (funext fun row => ?_)
  unfold cancelDecision
  split
  · rfl
  · simp only [bind_assoc]
    refine bind_congr fun found => ?_
    split
    · rfl
    · simp only [bind_assoc]
      rfl

/-- A decision to abandon a handle as the walk over listed rows comes to it. -/
structure Cancelling (args : RunArgs) (outcome : TerminalOutcome) (keepParent : Bool)
    (row h : ClaimHandle) (td : TerminalDecision) (s : Store) : Prop
    extends s.Decides args.supervisorId td h where
  ofRow : td.claimHandleId = row.id
  advances : row.Advances args.supervisorId h
  decided : td.outcome = outcome
  up : td.parentClaimHandleId = if keepParent then h.parentClaimHandleId else none

theorem cancelDecision_ok {row : ClaimHandle}
    (listed : ∀ h, s.claimHandle? row.id = some h → row.Advances args.supervisorId h)
    (run : cancelDecision args outcome keepParent row s = (.ok choice, s')) :
    s' = s ∧
      (choice = none ∧ (row.holderSupervisorId = some args.supervisorId → s.Resolved row.id) ∨
        ∃ td h, choice = some td ∧ Cancelling args outcome keepParent row h td s) := by
  unfold cancelDecision at run
  split at run
  case isTrue other =>
    cases run
    refine ⟨rfl, .inl ⟨rfl, fun mine h found active => ?_⟩⟩
    simp [mine, (listed h found).was_active active] at other
  case isFalse mine =>
    simp only [ne_eq, Bool.or_eq_true, decide_eq_true_eq, not_or, not_not] at mine
    rw [read_bind] at run
    split at run
    case isTrue resolved =>
      cases run
      refine ⟨rfl, .inl ⟨rfl, fun _ h found active => ?_⟩⟩
      simp [found, active] at resolved
    case isFalse found =>
      simp only [Bool.not_eq_true', Bool.not_eq_false, Option.any_eq_true,
        decide_eq_true_eq] at found
      rcases found with ⟨h, found, active⟩
      rcases bind_reads_eq_ok (Walking.producerOf row) run with ⟨producer, -, run⟩
      rcases bind_reads_eq_ok (Walking.acquirerInstanceId _) run with ⟨instanceId, -, run⟩
      cases run
      have advances := listed h found
      refine ⟨rfl, .inr ⟨_, h, rfl, ⟨by rintro ⟨⟩, rfl, found, active,
        advances.owned mine.2 active, ?_⟩, rfl, advances, rfl, ?_⟩⟩
      · cases keepParent with
        | false => exact .inl rfl
        | true => exact .inr advances.parent.symm
      · rw [advances.parent]
        rfl

theorem cancelClaimHandleWalk_loop [IsPreorder Store R]
    (settles : ∀ s s', R s s' → Settles args.supervisorId s s')
    {I : List ClaimHandle → Store → Prop}
    (skip : ∀ row left s, I (row :: left) s →
      (row.holderSupervisorId = some args.supervisorId → s.Resolved row.id) → I left s)
    (resolve : ∀ row ∈ rows, ∀ left td h s s' post, I (row :: left) s →
      Cancelling args outcome keepParent row h td s →
      rec.resolveClaimHandleTerminal td s = (.ok post, s') → I left s' ∧ R s s')
    (start : I rows s) (lists : s.Lists args.supervisorId rows)
    (run : cancelClaimHandleWalk args rec outcome keepParent rows s = (.ok post, s')) :
    I [] s' ∧ R s s' := by
  rw [cancelClaimHandleWalk_eq] at run
  have walked := collectPost_runs (R := R)
    (I := fun left s => I left s ∧ s.Lists args.supervisorId left ∧ ∀ row ∈ left, row ∈ rows)
    (fun row left s post s' inv step => ?_) ⟨start, lists, fun _ mem => mem⟩ run
  · exact ⟨walked.1.1, walked.2⟩
  · rcases inv with ⟨holds, lists, listed⟩
    have listed' : ∀ row ∈ left, row ∈ rows := fun row' mem => listed row' (mem_cons_of_mem _ mem)
    rcases bind_eq_ok.mp step with ⟨choice, mid, decision, step⟩
    rcases cancelDecision_ok (lists row mem_cons_self) decision with
      ⟨rfl, ⟨rfl, resolved⟩ | ⟨td, h, rfl, cancelling⟩⟩
    · cases step
      exact ⟨⟨skip row left _ holds resolved, lists.tail, listed'⟩, refl _⟩
    · rcases resolve row (listed row mem_cons_self) left td h _ s' post holds cancelling step with
        ⟨holds', along⟩
      exact ⟨⟨holds', (lists.settles (settles _ _ along)).tail, listed'⟩, along⟩

theorem cancelClaimHandleWalk_runs [IsPreorder Store R]
    (settles : ∀ s s', R s s' → Settles args.supervisorId s s') {I : Store → Prop}
    (resolve : ∀ row ∈ rows, ∀ td h s s' post, I s → Cancelling args outcome keepParent row h td s →
      rec.resolveClaimHandleTerminal td s = (.ok post, s') → I s' ∧ R s s')
    (start : I s) (lists : s.Lists args.supervisorId rows)
    (run : cancelClaimHandleWalk args rec outcome keepParent rows s = (.ok post, s')) :
    I s' ∧ R s s' :=
  cancelClaimHandleWalk_loop (I := fun _ => I) settles (fun _ _ _ holds _ => holds)
    (fun row mem _ => resolve row mem) start lists run

variable (args rec) in
def Descends : Prop :=
  ∀ td row s s' post, s.ClaimsSound → s.Decides args.supervisorId td row → td.outcome.isAbandon →
    td.parentClaimHandleId = none → rec.resolveClaimHandleTerminal td s = (.ok post, s') →
      s'.ClaimsSound ∧ Resolves args.supervisorId .never s s'

theorem cancelDescendantClaims_resolves (descends : Descends args rec) {rowId : Id}
    (sound : s.ClaimsSound) (run : cancelDescendantClaims args rec rowId s = (.ok post, s')) :
    s'.ClaimsSound ∧ Resolves args.supervisorId .never s s' := by
  refine cancelClaimHandleWalk_runs (I := Store.ClaimsSound)
    (fun _ _ resolves => resolves.toSettles) ?_ sound
    (s.lists_of_mem sound (fun row mem => (mem_filter.mp mem).1) _) run
  intro row _ td h s s' post sound cancelling run
  exact descends td h s s' post sound cancelling.toDecides (by rw [cancelling.decided]; rfl)
    cancelling.up run

variable (args rec) in
structure DecisionRuns (td : TerminalDecision) (s s₁ s₂ s₃ s₄ : Store) : Prop where
  queue : enqueueProducerVerb td s = (.ok (), s₁)
  descend : td.outcome ≠ .commit →
    ∃ cancelled, cancelDescendantClaims args rec td.claimHandleId s₁ = (.ok cancelled, s₂)
  keep : td.outcome = .commit → s₂ = s₁
  promote : promoteHandleState td s₂ = (.ok (), s₃)
  defer : ∃ deferred, emitDeferredHeldCascade args rec td s₃ = (.ok deferred, s₄)

theorem resolveClaimHandleTerminalBody_runs (source : td.source ≠ .ownershipBail)
    (run : resolveClaimHandleTerminalBody args rec td s = (.ok post, s')) :
    ∃ s₁ s₂ s₃ s₄, DecisionRuns args rec td s s₁ s₂ s₃ s₄ ∧
      (td.parentClaimHandleId = none → s' = s₄) ∧
      ∀ parentId, td.parentClaimHandleId = some parentId → ∃ metadata settled,
        settleFromFanoutChild args rec parentId td.claimHandleId td.outcome metadata s₄ =
          (.ok settled, s') := by
  unfold resolveClaimHandleTerminalBody at run
  split at run
  · cases run
  rcases bind_reads_eq_ok (Walking.dispatchDataProcessingTerminal td) run with ⟨metadata, -, run⟩
  rcases bind_eq_ok.mp run with ⟨_, s₁, queue, run⟩
  rcases branch_eq_ok run with ⟨cancelled, s₂, descend, run⟩
  rcases bind_eq_ok.mp run with ⟨_, s₃, promote, run⟩
  rcases bind_eq_ok.mp run with ⟨deferred, s₄, defer, run⟩
  refine ⟨s₁, s₂, s₃, s₄, ⟨queue, ?_, ?_, promote, deferred, defer⟩, ?_, ?_⟩
  · intro abandons
    exact ⟨cancelled, by simpa [isAbandon, abandons] using descend⟩
  · intro commits
    simp only [isAbandon, commits] at descend
    exact (congrArg Prod.snd descend).symm
  · intro top
    simp only [top] at run
    exact (congrArg Prod.snd run).symm
  · intro parentId parent
    simp only [parent] at run
    rcases bind_eq_ok.mp run with ⟨settled, last, settle, done⟩
    cases done
    exact ⟨metadata, settled, settle⟩

namespace DecisionRuns

variable {td : TerminalDecision} {s s₁ s₂ s₃ s₄ : Store}

theorem descent (runs : DecisionRuns args rec td s s₁ s₂ s₃ s₄) (descends : Descends args rec)
    (sound₁ : s₁.ClaimsSound) : s₂.ClaimsSound ∧ Resolves args.supervisorId .never s₁ s₂ := by
  by_cases commits : td.outcome = .commit
  · rw [runs.keep commits]
    exact ⟨sound₁, refl _⟩
  · rcases runs.descend commits with ⟨cancelled, descend⟩
    exact cancelDescendantClaims_resolves descends sound₁ descend

section

variable (runs : DecisionRuns args rec td s s₁ s₂ s₃ s₄)
  (gate : ∀ id, Steps Apart (rec.evaluateOneGate id)) (sound₂ : s₂.ClaimsSound)

include runs gate sound₂

theorem defers : s₃.ClaimsSound ∧ Apart s₃ s₄ := by
  rcases runs.defer with ⟨deferred, defer⟩
  exact ⟨sound₂.promoted runs.promote,
    (Walking.emitDeferredHeldCascade (Apart.holders gate) td).run defer⟩

/-- Handles other than that of the decision are resolved on the way down, if at all. -/
theorem others {id : Id} (other : id ≠ td.claimHandleId) (between : s₂.claimHandle? id = some h) :
    ∃ gone, s₄.claimHandle? id = some (h.unbound gone) := by
  rcases runs.defers gate sound₂ with ⟨sound₃, apart⟩
  refine apart.row sound₃ ?_
  rw [claimHandle?_promoted runs.promote, between, Option.map_some, promotion_of_unowned]
  intro this
  exact absurd ((id_of_claimHandle? between).symm.trans this) other

theorem ages : Ages s₂ s₄ := by
  rcases runs.defers gate sound₂ with ⟨sound₃, apart⟩
  have silent : s₄.ClaimsSound ∧ Resolves "" .never s₃ s₄ := apart.resolves sound₃
  refine Ages.trans ?_ silent.2.ages
  intro id h' found
  rw [claimHandle?_promoted runs.promote] at found
  rcases Option.map_eq_some_iff.mp found with ⟨h, old, rfl⟩
  exact ⟨h, old, td.promotion_parent _ h, (td.promotion_progresses _ h).was_active⟩

end

theorem resolves (runs : DecisionRuns args rec td s s₁ s₂ s₃ s₄) (descends : Descends args rec)
    (gate : ∀ id, Steps Apart (rec.evaluateOneGate id)) {row : ClaimHandle} (sound : s.ClaimsSound)
    (decides : s.Decides args.supervisorId td row)
    (allows : td.outcome = .commit → rule.Allows (s.holdersOf td.claimHandleId)) :
    s₄.ClaimsSound ∧ Resolves args.supervisorId rule s s₄ ∧
      ∃ row', s₄.claimHandle? td.claimHandleId = some row' ∧ row'.state = td.outcome.state := by
  rcases enqueueProducerVerb_queues sound runs.queue with ⟨sound₁, queues⟩
  rcases runs.descent descends sound₁ with ⟨sound₂, resolves₂⟩
  have known : s₁.claimHandle? td.claimHandleId = some row :=
    (claimHandle?_of_same queues.handles _).trans decides.known
  rcases resolves₂.rows _ _ known with ⟨mid, between, advances⟩
  have promotes := promoteHandleState_promotes between ?_ ?_ runs.promote
  · have resolves₃ : Resolves args.supervisorId rule s s₃ :=
      .of_decision decides allows queues resolves₂ between promotes
    rcases runs.defers gate sound₂ with ⟨sound₃, apart⟩
    have silent : s₄.ClaimsSound ∧ Resolves args.supervisorId rule s₃ s₄ := apart.resolves sound₃
    rcases silent with ⟨sound₄, resolves₄⟩
    rcases promotes.promoted with ⟨row₃, promoted, -, decided⟩
    rcases resolves₄.rows _ _ promoted with ⟨row₄, after, advances₄⟩
    refine ⟨sound₄, IsTrans.trans _ _ _ resolves₃ resolves₄, row₄, after, ?_⟩
    rw [advances₄.resolved (decided ▸ td.outcome.state_ne_active), decided]
  · intro active
    exact decides.supervisor ▸ advances.owned decides.owned active
  · intro resolved
    -- the descent came back to the handle itself, and it never commits
    have abandons : td.outcome ≠ .commit := by
      intro commits
      rw [runs.keep commits, known] at between
      cases between
      exact resolved decides.active
    cases state : mid.state with
    | active => exact absurd state resolved
    | committed => exact (resolves₂.commits _ _ _ known between decides.active state).elim
    | abandoned => simp [TerminalOutcome.state, TerminalOutcome.isAbandon, abandons]

end DecisionRuns

theorem not_commit {P : Prop} (abandons : td.outcome.isAbandon) (commits : td.outcome = .commit) :
    P := by
  simp [isAbandon, commits] at abandons

theorem Descends.body (descends : Descends args rec)
    (gate : ∀ id, Steps Apart (rec.evaluateOneGate id)) (evaluate : Id → Tx Unit) : Descends args {
      evaluateOneGate := evaluate
      resolveClaimHandleTerminal := resolveClaimHandleTerminalBody args rec } := by
  intro td row s s' post sound decides abandons top run
  rcases resolveClaimHandleTerminalBody_runs decides.source run with ⟨s₁, s₂, s₃, s₄, runs, same, -⟩
  rw [same top]
  exact (runs.resolves descends gate sound decides (not_commit abandons)).imp_right And.left

theorem knot_descends (args : RunArgs) (fuel : Nat) : Descends args (knot args fuel) := by
  induction fuel with
  | zero =>
    intro td row s s' post _ _ _ _ run
    cases run
  | succ fuel ih => exact ih.body (Apart.gate args fuel) _

def Store.Tolerant (s : Store) (rule : CommitRule) (claimHandleId : Id) : Prop :=
  ∀ h ∈ s.holdersOf claimHandleId, rule.Tolerates h

/-- The handles that are settled by the handles split off from them can be committed. -/
def Store.FanOutsTolerant (s : Store) (rule : CommitRule) (except : Option Id) : Prop :=
  ∀ p ∈ s.claimHandles, p.state = .active → some p.id ≠ except → s.IsParent p.id →
    s.Tolerant rule p.id

theorem Store.Tolerant.resolves {id : Id} (tolerant : s.Tolerant rule id)
    (resolves : Resolves supervisorId rule s s') :
    s'.Tolerant rule id := fun h mem => tolerant h (resolves.holdersOf id h mem)

theorem Store.FanOutsTolerant.mono {except : Option Id} (tolerant : s.FanOutsTolerant rule except)
    (sound' : s'.ClaimsSound) (ages : Ages s s')
    (holders : ∀ h ∈ s'.claimHolders, h ∈ s.claimHolders) : s'.FanOutsTolerant rule except := by
  intro p' mem active other parent h memH
  rcases ages _ _ (sound'.find mem) with ⟨p, old, -, wasActive⟩
  rcases parent with ⟨childId, child', found, ofParent⟩
  rcases ages childId child' found with ⟨child, oldChild, sameParent, -⟩
  have pId := id_of_claimHandle? old
  rcases mem_filter.mp memH with ⟨memH, ofHandle⟩
  refine tolerant p (mem_of_claimHandle? old) (wasActive active) (by rwa [pId]) ?_ h ?_
  · exact ⟨childId, child, oldChild, by rw [← sameParent, ofParent, pId]⟩
  · exact mem_filter.mpr ⟨holders h memH, by rwa [pId]⟩

theorem Store.FanOutsTolerant.resolves {except : Option Id}
    (tolerant : s.FanOutsTolerant rule except) (sound' : s'.ClaimsSound)
    (resolves : Resolves supervisorId rule s s') : s'.FanOutsTolerant rule except :=
  tolerant.mono sound' resolves.ages resolves.holders

theorem Store.FanOutsTolerant.all (sound : s.ClaimsSound) {id : Id}
    (tolerant : s.FanOutsTolerant rule (some id)) {row : ClaimHandle}
    (known : s.claimHandle? id = some row) (resolved : row.state ≠ .active) :
    s.FanOutsTolerant rule none := by
  intro p mem active _ child
  refine tolerant p mem active ?_ child
  intro same
  have found := sound.find mem
  rw [Option.some.inj same, known] at found
  cases found
  exact resolved active

theorem Store.FanOutsTolerant.except (tolerant : s.FanOutsTolerant rule none) (except : Option Id) :
    s.FanOutsTolerant rule except :=
  fun p mem active _ child => tolerant p mem active (by simp) child

/-- The supervisor settles the handle as its own, or for a handle split off from it. -/
def Store.MaySettle (s : Store) (supervisorId : String) (id : Id) : Prop :=
  s.IsParent id ∨ ∀ p, s.claimHandle? id = some p → p.state = .active →
    p.holderSupervisorId = some supervisorId

theorem Store.MaySettle.settles {id : Id} (may : s.MaySettle supervisorId id)
    (settles : Settles supervisorId s s') : s'.MaySettle supervisorId id := by
  rcases may with parent | own
  · exact .inl (settles.isParent parent)
  · refine .inr fun p' found active => ?_
    rcases settles.row found with ⟨p, old, advances⟩
    exact advances.owned (own p old (advances.was_active active)) active

variable (args rec) in
def Ascends (rule : CommitRule) : Prop :=
  ∀ td row s s' post, s.ClaimsSound → s.Decides args.supervisorId td row →
    (td.outcome = .commit → rule.Allows (s.holdersOf td.claimHandleId)) →
    s.FanOutsTolerant rule (some td.claimHandleId) →
    rec.resolveClaimHandleTerminal td s = (.ok post, s') →
      s'.ClaimsSound ∧ Resolves args.supervisorId rule s s' ∧
        ∃ row', s'.claimHandle? td.claimHandleId = some row' ∧ row'.state = td.outcome.state

/-- The siblings are listed only if the parent is active and strict. -/
theorem cancelInFlightSiblings_runs [IsPreorder Store R] {triggerId : Id}
    (settles : ∀ s s', R s s' → Settles args.supervisorId s s') {I : Store → Prop}
    (resolve : ∀ row td h s s' post, row.parentClaimHandleId = some parentId → I s →
      Cancelling args .abandonSiblingCancel true row h td s →
      rec.resolveClaimHandleTerminal td s = (.ok post, s') → I s' ∧ R s s')
    (sound : s.ClaimsSound) (start : I s)
    (run : cancelInFlightSiblings args rec parentId triggerId s = (.ok post, s')) :
    I s' ∧ R s s' := by
  simp only [cancelInFlightSiblings, read_bind] at run
  cases found : s.claimHandle? parentId with
  | none =>
    simp only [found] at run
    cases run
    exact ⟨start, refl _⟩
  | some parent =>
    simp only [found] at run
    split at run
    · cases run
      exact ⟨start, refl _⟩
    refine cancelClaimHandleWalk_runs settles ?_ start (s.lists_of_mem sound ?_ _) run
    · intro row listed td h s s' post
      exact resolve row td h s s' post (by simpa using (mem_filter.mp (mem_filter.mp listed).1).2)
    · intro row mem
      exact (mem_filter.mp (mem_filter.mp mem).1).1

theorem cancelInFlightSiblings_resolves (ascends : Ascends args rec rule) {triggerId : Id}
    (sound : s.ClaimsSound) (tolerant : s.FanOutsTolerant rule none)
    (run : cancelInFlightSiblings args rec parentId triggerId s = (.ok post, s')) :
    s'.ClaimsSound ∧ Resolves args.supervisorId rule s s' := by
  have walked := cancelInFlightSiblings_runs (R := Resolves args.supervisorId rule)
    (I := fun s => s.ClaimsSound ∧ s.FanOutsTolerant rule none)
    (fun _ _ resolves => resolves.toSettles) ?_ sound ⟨sound, tolerant⟩ run
  · exact ⟨walked.1.1, walked.2⟩
  · rintro row td h s s' post - ⟨sound, tolerant⟩ cancelling run
    rcases ascends td h s s' post sound cancelling.toDecides (by simp [cancelling.decided])
      (tolerant.except _) run with ⟨sound', resolves, -⟩
    exact ⟨⟨sound', tolerant.resolves sound' resolves⟩, resolves⟩

/-- The handle passes from one supervisor to another. -/
def ClaimHandle.reassigned (id : Id) (holder supervisorId : String) (h : ClaimHandle) :
    ClaimHandle :=
  if h.id = id && (h.state = .active && claimant holder h) then
    { h with holderSupervisorId := some supervisorId }
  else h

theorem ClaimHandle.reassigned_eq (id : Id) (holder supervisorId : String) (h : ClaimHandle) :
    ∃ k, h.reassigned id holder supervisorId = { h with holderSupervisorId := k } ∧
      (k = h.holderSupervisorId ∨
        h.id = id ∧ h.holderSupervisorId = some holder ∧ k = some supervisorId) := by
  unfold reassigned
  split
  case isTrue fits =>
    simp only [claimant, Bool.and_eq_true, decide_eq_true_eq] at fits
    exact ⟨_, rfl, .inr ⟨fits.1, fits.2.2, rfl⟩⟩
  case isFalse => exact ⟨_, rfl, .inl rfl⟩

theorem ClaimHandle.reassigned_self (id : Id) (holder : String) (h : ClaimHandle) :
    h.reassigned id holder holder = h := by
  rcases h.reassigned_eq id holder holder with ⟨k, same, rfl | ⟨-, held, rfl⟩⟩
  · exact same
  · rw [same, ← held]

theorem ClaimHandle.reassigned_id (id : Id) (holder supervisorId : String) (h : ClaimHandle) :
    (h.reassigned id holder supervisorId).id = h.id := by
  rcases h.reassigned_eq id holder supervisorId with ⟨k, same, -⟩
  rw [same]

theorem ClaimHandle.reassigned_state (id : Id) (holder supervisorId : String) (h : ClaimHandle) :
    (h.reassigned id holder supervisorId).state = h.state := by
  rcases h.reassigned_eq id holder supervisorId with ⟨k, same, -⟩
  rw [same]

theorem Resolves.reassigned {id : Id} {holder : String} (sound : s.ClaimsSound)
    (taken : holder = supervisorId ∨ s.IsParent id) :
    (s.mapHandles (·.reassigned id holder supervisorId)).ClaimsSound ∧
      Resolves supervisorId rule s (s.mapHandles (·.reassigned id holder supervisorId)) := by
  have sameId := ClaimHandle.reassigned_id id holder supervisorId
  refine ⟨sound.mapHandles sameId ?_, .of_map rfl rfl (fun _ mem => mem) sameId
    (ClaimHandle.reassigned_state id holder supervisorId) ?_ ?_⟩
  all_goals
    intro h
    rcases h.reassigned_eq id holder supervisorId with ⟨k, same, rfl | ⟨this, held, rfl⟩⟩
    all_goals rw [same]
  · exact .refl _ h
  · refine ⟨⟨fun _ => rfl, ?_, fun active resolved => absurd active resolved, nofun, rfl, rfl, rfl,
      Nat.le_refl _⟩, rfl, fun _ _ => rfl⟩
    intro unheld
    rw [held] at unheld
    cases unheld
  · exact .inl
  · intro _
    rcases taken with rfl | isParent
    · exact .inl held
    · exact .inr (this ▸ isParent)

/-- One more child of the handle is counted. -/
def ClaimHandle.counted (id : Id) (holder : String) (committed : Bool) (h : ClaimHandle) :
    ClaimHandle :=
  if h.id = id && claimant holder h then
    if committed then { h with committedChildrenCount := h.committedChildrenCount + 1 }
    else { h with abandonedChildrenCount := h.abandonedChildrenCount + 1 }
  else h

theorem ClaimHandle.counted_eq (id : Id) (holder : String) (committed : Bool) (h : ClaimHandle) :
    ∃ c a, h.counted id holder committed =
        { h with committedChildrenCount := c, abandonedChildrenCount := a } ∧
      h.committedChildrenCount + h.abandonedChildrenCount ≤ c + a ∧
      (h.id ≠ id → c = h.committedChildrenCount ∧ a = h.abandonedChildrenCount) := by
  unfold counted
  split
  case isTrue fits =>
    simp only [Bool.and_eq_true, decide_eq_true_eq] at fits
    split
    · exact ⟨_, _, rfl, by omega, fun other => absurd fits.1 other⟩
    · exact ⟨_, _, rfl, by omega, fun other => absurd fits.1 other⟩
  case isFalse => exact ⟨_, _, rfl, Nat.le_refl _, fun _ => ⟨rfl, rfl⟩⟩

theorem ClaimHandle.counted_id (id : Id) (holder : String) (committed : Bool) (h : ClaimHandle) :
    (h.counted id holder committed).id = h.id := by
  rcases h.counted_eq id holder committed with ⟨c, a, same, -⟩
  rw [same]

theorem ClaimHandle.counted_state (id : Id) (holder : String) (committed : Bool) (h : ClaimHandle) :
    (h.counted id holder committed).state = h.state := by
  rcases h.counted_eq id holder committed with ⟨c, a, same, -⟩
  rw [same]

theorem ClaimHandle.counted_of_held {id : Id} {holder : String} (sameId : h.id = id)
    (held : h.holderSupervisorId = some holder) (committed : Bool) :
    h.counted id holder committed =
      if committed then { h with committedChildrenCount := h.committedChildrenCount + 1 }
      else { h with abandonedChildrenCount := h.abandonedChildrenCount + 1 } := by
  rw [counted, if_pos]
  simp [claimant, sameId, held]

theorem bumpChildOutcomeCount_ok {id : Id} {holder : String} {committed : Bool}
    (run : ClaimHandles.bumpChildOutcomeCount id holder committed 1 s = (.ok u, s')) :
    s' = s.mapHandles (·.counted id holder committed) := update_ok run

theorem bumpChildOutcomeCount_resolves {id : Id} {holder : String} {committed : Bool}
    (sound : s.ClaimsSound)
    (run : ClaimHandles.bumpChildOutcomeCount id holder committed 1 s = (.ok u, s')) :
    s'.ClaimsSound ∧ Resolves supervisorId rule s s' := by
  have sameId := ClaimHandle.counted_id id holder committed
  rw [bumpChildOutcomeCount_ok run]
  refine ⟨sound.mapHandles sameId ?_, .of_map rfl rfl (fun _ mem => mem) sameId
    (ClaimHandle.counted_state _ _ _) ?_ ?_⟩
  all_goals
    intro h
    rcases h.counted_eq id holder committed with ⟨c, a, same, more, -⟩
    rw [same]
  · exact .of_holder (.of_same rfl rfl rfl rfl rfl more) rfl rfl
  · exact .inl

def Store.InFlight (s : Store) (id : Id) : Prop :=
  (∃ x ∈ s.holdersOf id, x.state = .active) ∨
    ∃ c ∈ s.claimHandles, c.parentClaimHandleId = some id ∧ c.state = .active

variable (args) in
/-- What `settleReady` decides about the parent, which the supervisor takes over if need be. -/
def readyDecision (parentId : Id) (childOutcome : TerminalOutcome) :
    Tx (Option TerminalDecision) := do
  let s ← read id
  match s.claimHandle? parentId with
  | none => return none
  | some parent =>
    match parent.holderSupervisorId with
    | none => return none
    | some holder =>
      let children := s.claimHandles.filter (·.parentClaimHandleId = some parentId)
      if parent.state ≠ .active ||
          s.claimHolders.any (fun h => h.claimHandleId = parentId && h.state = .active) ||
          children.any (·.state = .active) then return none
      else
        closePartitionScopes children
        let instanceId ← acquirerInstanceId parent.holderNodeId
        let producer ← producerOf args parent
        if holder ≠ args.supervisorId then
          reassignHolderSupervisor parent.id holder args.supervisorId
        return parent.decision args.supervisorId .held (aggregateParentOutcome parent childOutcome)
          producer (parent.hint instanceId) parent.parentClaimHandleId

theorem settleReady_eq (cancelled : List PostCommit) :
    settleReady args rec parentId childOutcome cancelled = (do
      let choice ← readyDecision args parentId childOutcome
      return cancelled ++ (← carryOut rec choice)) := by
  simp only [settleReady, readyDecision, bind_assoc]
  refine bind_congr fun s => ?_
  cases s.claimHandle? parentId with
  | none => simp [carryOut]
  | some parent =>
    dsimp only
    cases parent.holderSupervisorId with
    | none => simp [carryOut]
    | some holder =>
      dsimp only
      split
      · simp [carryOut]
      · simp only [settleFanoutParent, bind_assoc]
        refine bind_congr fun _ => bind_congr fun _ => bind_congr fun _ => ?_
        split
        · simp only [bind_assoc]
          rfl
        · rfl

/-- The decision about a parent of which nothing is in flight any more. -/
structure Readies (args : RunArgs) (parentId : Id) (childOutcome : TerminalOutcome)
    (p row : ClaimHandle) (holder : String) (td : TerminalDecision) (s mid s' : Store) : Prop
    extends s'.Decides args.supervisorId td row where
  found : s.claimHandle? parentId = some p
  held : p.holderSupervisorId = some holder
  flew : p.state = .active
  landed : ¬s.InFlight parentId
  close : closePartitionScopes (s.claimHandles.filter (·.parentClaimHandleId = some parentId)) s =
    (.ok (), mid)
  passes : s' = mid.mapHandles (·.reassigned parentId holder args.supervisorId)
  ofParent : td.claimHandleId = parentId
  up : td.parentClaimHandleId = row.parentClaimHandleId
  decided : td.outcome = aggregateParentOutcome p childOutcome

theorem readyDecision_ok (sound : s.ClaimsSound)
    (run : readyDecision args parentId childOutcome s = (.ok choice, s')) :
    (choice = none ∧ s' = s ∧ ∀ parent, s.claimHandle? parentId = some parent →
      parent.holderSupervisorId = none ∨ parent.state ≠ .active ∨ s.InFlight parentId) ∨
    ∃ td parent row holder mid, choice = some td ∧
      Readies args parentId childOutcome parent row holder td s mid s' := by
  simp only [readyDecision, read_bind, id] at run
  cases found : s.claimHandle? parentId with
  | none =>
    simp only [found] at run
    cases run
    exact .inl ⟨rfl, rfl, by rintro _ ⟨⟩⟩
  | some parent =>
    cases held : parent.holderSupervisorId with
    | none =>
      simp only [found, held] at run
      cases run
      exact .inl ⟨rfl, rfl, fun _ same => .inl (Option.some.inj same ▸ held)⟩
    | some holder =>
      simp only [found, held] at run
      have flying : (s.claimHolders.any (fun h => h.claimHandleId = parentId &&
          h.state = .active) || (s.claimHandles.filter (·.parentClaimHandleId = some parentId)).any
            (·.state = .active)) = true ↔ s.InFlight parentId := by
        simp [Store.InFlight, holdersOf, and_assoc]
      rw [Bool.or_assoc] at run
      split at run
      case isTrue stays =>
        rw [Bool.or_eq_true, decide_eq_true_eq, flying] at stays
        cases run
        exact .inl ⟨rfl, rfl, fun _ same => .inr (Option.some.inj same ▸ stays)⟩
      case isFalse ready =>
        rw [Bool.or_eq_true, decide_eq_true_eq, flying, not_or, ne_eq, not_not] at ready
        rcases ready with ⟨active, landed⟩
        rcases bind_eq_ok.mp run with ⟨_, mid, close, run⟩
        rcases bind_reads_eq_ok (Walking.acquirerInstanceId _) run with ⟨instanceId, -, run⟩
        rcases bind_reads_eq_ok (Walking.producerOf _) run with ⟨producer, -, run⟩
        have passes : choice = some (parent.decision args.supervisorId .held
              (aggregateParentOutcome parent childOutcome) producer (parent.hint instanceId)
              parent.parentClaimHandleId) ∧
            s' = mid.mapHandles (·.reassigned parent.id holder args.supervisorId) := by
          split at run
          · rcases bind_eq_ok.mp run with ⟨_, last, reassign, done⟩
            cases done
            unfold reassignHolderSupervisor at reassign
            split at reassign
            · cases reassign
            · exact ⟨rfl, update_ok reassign⟩
          · rename_i same
            cases run
            simp [not_ne_iff.mp same, ClaimHandle.reassigned_self, mapHandles]
        have sameId := id_of_claimHandle? found
        subst sameId
        have apart := (Apart.walking.closePartitionScopes _).run close
        rcases apart.row sound found with ⟨gone, foundMid⟩
        refine .inr ⟨_, parent, (parent.unbound gone).reassigned parent.id holder args.supervisorId,
          holder, mid, passes.1, ⟨nofun, rfl, ?_, ?_, ?_, .inr ?_⟩, found, held, active,
            landed, close,
          passes.2, rfl, ?_, rfl⟩
        all_goals
          have fits : (parent.unbound gone).reassigned parent.id holder args.supervisorId =
              { parent.unbound gone with holderSupervisorId := some args.supervisorId } := by
            simp [ClaimHandle.reassigned, claimant, active, held]
        · rw [passes.2, claimHandle?_mapHandles (ClaimHandle.reassigned_id _ _ _)]
          exact congrArg _ foundMid
        · rw [fits]
          exact (parent.unbound_state gone).trans active
        · rw [fits]
        · rw [fits]
          exact (parent.unbound_parent gone).symm
        · rw [fits]
          exact (parent.unbound_parent gone).symm

namespace Readies

variable {parent row : ClaimHandle} {holder : String} {mid : Store}
  (readies : Readies args parentId childOutcome parent row holder td s mid s')

include readies

theorem apart : Apart s mid := (Apart.walking.closePartitionScopes _).run readies.close

theorem taken (may : s.MaySettle args.supervisorId parentId) :
    holder = args.supervisorId ∨ s.IsParent parentId := by
  rcases may with isParent | own
  · exact .inr isParent
  · have mine := own parent readies.found readies.flew
    rw [readies.held] at mine
    exact .inl (Option.some.inj mine)

theorem resolves (sound : s.ClaimsSound) (may : s.MaySettle args.supervisorId parentId) :
    s'.ClaimsSound ∧ Resolves args.supervisorId rule s s' := by
  have silent : mid.ClaimsSound ∧ Resolves args.supervisorId rule s mid :=
    readies.apart.resolves sound
  have taken := (readies.taken may).imp_right silent.2.isParent
  rw [readies.passes]
  exact (Resolves.reassigned silent.1 taken).imp_right (IsTrans.trans _ _ _ silent.2)

end Readies

theorem settleReady_runs {cancelled : List PostCommit} (sound : s.ClaimsSound)
    (run : settleReady args rec parentId childOutcome cancelled s = (.ok post, s')) :
    (s' = s ∧ ∀ parent, s.claimHandle? parentId = some parent →
      parent.holderSupervisorId = none ∨ parent.state ≠ .active ∨ s.InFlight parentId) ∨
    ∃ td parent row holder mid s₁ post',
      Readies args parentId childOutcome parent row holder td s mid s₁ ∧
      rec.resolveClaimHandleTerminal td s₁ = (.ok post', s') := by
  rw [settleReady_eq] at run
  rcases bind_eq_ok.mp run with ⟨choice, s₁, decision, run⟩
  rcases bind_eq_ok.mp run with ⟨post', last, settle, done⟩
  cases done
  rcases readyDecision_ok sound decision with
    ⟨rfl, rfl, waits⟩ | ⟨td, parent, row, holder, mid, rfl, readies⟩
  · cases settle
    exact .inl ⟨rfl, waits⟩
  · exact .inr ⟨td, parent, row, holder, mid, s₁, post', readies, settle⟩

theorem settleReady_resolves (mayCommit : rule ≠ .never) (ascends : Ascends args rec rule)
    {cancelled : List PostCommit} (sound : s.ClaimsSound) (tolerant : s.FanOutsTolerant rule none)
    (tolerated : s.Tolerant rule parentId) (may : s.MaySettle args.supervisorId parentId)
    (run : settleReady args rec parentId childOutcome cancelled s = (.ok post, s')) :
    s'.ClaimsSound ∧ Resolves args.supervisorId rule s s' := by
  rcases settleReady_runs sound run with
    ⟨rfl, -⟩ | ⟨td, parent, row, holder, mid, s₁, post', readies, settle⟩
  · exact ⟨sound, refl _⟩
  have taken : s₁.ClaimsSound ∧ Resolves args.supervisorId rule s s₁ := readies.resolves sound may
  rcases taken with ⟨sound₁, resolves₁⟩
  have allows : rule.Allows (s₁.holdersOf td.claimHandleId) := by
    rw [readies.ofParent]
    refine CommitRule.allows_of_tolerates mayCommit ?_ (tolerated.resolves resolves₁)
    intro x mem still
    exact readies.landed (.inl ⟨x, resolves₁.holdersOf _ x mem, still⟩)
  rcases ascends td row _ s' post' sound₁ readies.toDecides (fun _ => allows)
    ((tolerant.resolves sound₁ resolves₁).except _) settle with ⟨sound', resolves', -⟩
  exact ⟨sound', IsTrans.trans _ _ _ resolves₁ resolves'⟩

theorem settleFromFanoutChild_runs {childId : Id} {metadata : Option String}
    (run : settleFromFanoutChild args rec parentId childId childOutcome metadata s =
      (.ok post, s')) :
    (s.claimHandle? parentId = none ∧ s' = s) ∨
    ∃ parent s₁, s.claimHandle? parentId = some parent ∧
      recordChildCommitMetadata parent childId childOutcome metadata s = (.ok (), s₁) ∧
      (((parent.holderSupervisorId = none ∨ parent.state ≠ .active) ∧ s' = s₁) ∨
        ∃ holder s₂ cancelled s₃, parent.holderSupervisorId = some holder ∧ parent.state = .active ∧
          ClaimHandles.bumpChildOutcomeCount parentId holder (!childOutcome.isAbandon) 1 s₁ =
            (.ok (), s₂) ∧
          (childOutcome.isAbandon = false ∧ s₃ = s₂ ∨ childOutcome.isAbandon = true ∧
            cancelInFlightSiblings args rec parentId childId s₂ = (.ok cancelled, s₃)) ∧
          settleReady args rec parentId childOutcome cancelled s₃ = (.ok post, s')) := by
  simp only [settleFromFanoutChild, read_bind] at run
  cases found : s.claimHandle? parentId with
  | none =>
    simp only [found] at run
    exact .inl ⟨rfl, (congrArg Prod.snd run).symm⟩
  | some parent =>
    simp only [found] at run
    rcases bind_eq_ok.mp run with ⟨_, s₁, record, run⟩
    refine .inr ⟨parent, s₁, rfl, record, ?_⟩
    cases held : parent.holderSupervisorId with
    | none =>
      simp only [held] at run
      exact .inl ⟨.inl rfl, (congrArg Prod.snd run).symm⟩
    | some holder =>
      simp only [held] at run
      split at run
      case isTrue resolved => exact .inl ⟨.inr resolved, (congrArg Prod.snd run).symm⟩
      case isFalse active =>
        rcases bind_eq_ok.mp run with ⟨_, s₂, bump, run⟩
        rcases branch_eq_ok run with ⟨cancelled, s₃, cancel, run⟩
        refine .inr ⟨holder, s₂, cancelled, s₃, rfl, not_not.mp active, bump, ?_, run⟩
        cases abandons : childOutcome.isAbandon with
        | true => exact .inr ⟨rfl, by simpa [abandons] using cancel⟩
        | false =>
          simp only [abandons, Bool.false_eq_true, if_false] at cancel
          exact .inl ⟨rfl, (congrArg Prod.snd cancel).symm⟩

theorem settleFromFanoutChild_resolves (mayCommit : rule ≠ .never) (ascends : Ascends args rec rule)
    {childId : Id} {metadata : Option String} (sound : s.ClaimsSound)
    (tolerant : s.FanOutsTolerant rule none)
    (commits : ∀ parent, s.claimHandle? parentId = some parent → parent.state = .active →
      s.Tolerant rule parentId) (may : s.MaySettle args.supervisorId parentId)
    (run : settleFromFanoutChild args rec parentId childId childOutcome metadata s =
      (.ok post, s')) :
    s'.ClaimsSound ∧ Resolves args.supervisorId rule s s' := by
  rcases settleFromFanoutChild_runs run with ⟨-, same⟩ | ⟨parent, s₁, found, record, rest⟩
  · rw [same]
    exact ⟨sound, refl s⟩
  have apart := (Apart.walking.recordChildCommitMetadata _ _ _ _).run record
  have silent : s₁.ClaimsSound ∧ Resolves args.supervisorId rule s s₁ := apart.resolves sound
  rcases silent with ⟨sound₁, resolves₁⟩
  rcases rest with ⟨-, same⟩ | ⟨holder, s₂, cancelled, s₃, held, active, bump, cancel, ready⟩
  · rw [same]
    exact ⟨sound₁, resolves₁⟩
  rcases bumpChildOutcomeCount_resolves sound₁ bump with ⟨sound₂, resolves₂⟩
  have resolves₂ : Resolves args.supervisorId rule s s₂ := IsTrans.trans _ _ _ resolves₁ resolves₂
  have resolves₃ : s₃.ClaimsSound ∧ Resolves args.supervisorId rule s₂ s₃ := by
    rcases cancel with ⟨-, same⟩ | ⟨-, cancel⟩
    · rw [same]
      exact ⟨sound₂, refl _⟩
    · exact cancelInFlightSiblings_resolves ascends sound₂
        (tolerant.resolves sound₂ resolves₂) cancel
  rcases resolves₃ with ⟨sound₃, resolves₃⟩
  have resolves₃ : Resolves args.supervisorId rule s s₃ := IsTrans.trans _ _ _ resolves₂ resolves₃
  rcases settleReady_resolves mayCommit ascends sound₃ (tolerant.resolves sound₃ resolves₃)
    ((commits parent found active).resolves resolves₃) (may.settles resolves₃.toSettles) ready with
    ⟨sound', resolves⟩
  exact ⟨sound', IsTrans.trans _ _ _ resolves₃ resolves⟩

theorem knot_ascends (args : RunArgs) (fuel : Nat) (mayCommit : rule ≠ .never) :
    Ascends args (knot args fuel) rule := by
  induction fuel with
  | zero =>
    intro td row s s' post _ _ _ _ run
    cases run
  | succ fuel ih =>
    intro td row s s' post sound decides allows tolerant run
    rcases resolveClaimHandleTerminalBody_runs decides.source run with
      ⟨s₁, s₂, s₃, mid, runs, top, ascend⟩
    rcases runs.resolves (knot_descends args fuel) (Apart.gate args fuel) sound decides allows with
      ⟨sound', resolves, row', known, decided⟩
    have resolved : row'.state ≠ .active := decided ▸ td.outcome.state_ne_active
    cases parent : td.parentClaimHandleId with
    | none =>
      rw [top parent]
      exact ⟨sound', resolves, row', known, decided⟩
    | some parentId =>
      rcases ascend parentId parent with ⟨metadata, post', settle⟩
      have tolerant' := (tolerant.resolves sound' resolves).all sound' known resolved
      -- the handle of the decision was split off from the parent
      have isParent : mid.IsParent parentId := by
        rcases resolves.row known with ⟨row₀, old, advances⟩
        rw [decides.known] at old
        cases old
        refine ⟨_, row', known, ?_⟩
        rcases decides.parent with none | same
        · rw [parent] at none
          cases none
        · rw [advances.parent, ← same, parent]
      have settled := settleFromFanoutChild_resolves mayCommit ih sound' tolerant' ?_
        (.inl isParent) settle
      · rcases settled with ⟨sound'', resolves'⟩
        rcases resolves'.rows _ _ known with ⟨row'', after, advances⟩
        exact ⟨sound'', IsTrans.trans _ _ _ resolves resolves', row'', after,
          (advances.resolved resolved).trans decided⟩
      · intro p found active
        have pId := id_of_claimHandle? found
        rw [← pId] at isParent ⊢
        exact tolerant' p (mem_of_claimHandle? found) active (by simp) isParent

theorem Store.fanOutsTolerant_always (s : Store) (except : Option Id) :
    s.FanOutsTolerant .always except := fun _ _ _ _ _ _ _ => trivial

theorem knot_always (args : RunArgs) (fuel : Nat) : Ascends args (knot args fuel) .always :=
  knot_ascends args fuel (by simp)

/-- Where nothing is asked of the holders, a decision is carried out as it was taken. -/
theorem Store.Decides.settled {row : ClaimHandle} {fuel : Nat}
    (decides : s.Decides args.supervisorId td row) (sound : s.ClaimsSound)
    (run : (knot args fuel).resolveClaimHandleTerminal td s = (.ok post, s')) :
    s'.ClaimsSound ∧ Resolves args.supervisorId .always s s' ∧
      ∃ row', s'.claimHandle? td.claimHandleId = some row' ∧ row'.state = td.outcome.state :=
  knot_always args fuel td row s s' post sound decides (fun _ => trivial)
    (s.fanOutsTolerant_always _) run

end Walk

end Rimsky
