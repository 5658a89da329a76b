import Rimsky.Runtime.Settlements

/-!
# No claim is stranded

A claim that several runs hold is resolved by whoever settles last, be it a holder or a handle
split off from it. The check that a holder makes gives up where the handle is held by another
supervisor, and it looks the members of the sub-graph up by the producer of the claim. Where
neither is in the way, a handle that waits for nobody is resolved in the transaction that made
it so.

A fan-out parent is checked by counters: it is owed one count for a moment, between the
resolution of a handle split off from it and its own settlement.
-/

namespace Rimsky

open Transaction List Store ClaimHandles Detached

variable {s s' : Store} {childId parentId : Id} {h h' : ClaimHandle} {supervisorId : String}
  {owed unready : Option Id} {post : List PostCommit}

/-- The members of the sub-graph hold the handle together, by a claim its acquirer declares. -/
def Store.HeldBy (s : Store) (h : ClaimHandle) (sg : HoldingSubgraph) : Prop :=
  ∃ acquirer spec acqDef, s.node? h.holderNodeId = some acquirer ∧
    s.template? acquirer.instanceId = some spec ∧
    spec.lookupNodeDef acquirer.nodeType = some acqDef ∧
    ∃ ref ∈ acqDef.claimProducers, ref.name = h.producerName.getD "" ∧
      findHoldingSubgraph (holdingSubgraphsForTemplate spec) acquirer.nodeType ref.aliasOf =
        some sg ∧
      sg.isHeld

/-- Every declared member of the handle's holding sub-graph is a holder. -/
def Store.Joined (s : Store) (h : ClaimHandle) : Prop :=
  ∃ sg, s.HeldBy h sg ∧ ∀ m ∈ sg.members, ∃ x ∈ s.holdersOf h.id, s.holderType? x = some m

def Store.Stranded (s : Store) (h : ClaimHandle) : Prop :=
  h.state = .active ∧ s.Joined h ∧ ¬s.InFlight h.id

/-- The holder stands for a member that no other holder stands for. -/
def Store.Essential (s : Store) (h : ClaimHandle) (x : ClaimHolder) : Prop :=
  ∀ sg, s.HeldBy h sg → ∃ m ∈ sg.members, s.holderType? x = some m ∧
    ∀ y ∈ s.holdersOf h.id, s.holderType? y = some m → y = x

def Store.activeChildren (s : Store) (id : Id) : List Id :=
  (s.claimHandles.filter fun c => c.parentClaimHandleId = some id && c.state = .active).map (·.id)

theorem Store.ClaimsSound.mem_activeChildren (sound : s.ClaimsSound) {id : Id} :
    childId ∈ s.activeChildren id ↔ ∃ c, s.claimHandle? childId = some c ∧
      c.parentClaimHandleId = some id ∧ c.state = .active := by
  simp only [activeChildren, mem_map, mem_filter, Bool.and_eq_true, decide_eq_true_eq]
  constructor
  · rintro ⟨c, ⟨mem, parent, active⟩, rfl⟩
    exact ⟨c, sound.find mem, parent, active⟩
  · rintro ⟨c, found, parent, active⟩
    exact ⟨c, ⟨mem_of_claimHandle? found, parent, active⟩, id_of_claimHandle? found⟩

theorem Store.ClaimsSound.activeChildren_nodup (sound : s.ClaimsSound) (id : Id) :
    (s.activeChildren id).Nodup := sound.handles.sublist (List.filter_sublist.map _)

def owes (owed : Option Id) (id : Id) : Nat := if owed = some id then 1 else 0

/--
Handles are held while they are active, count what was split off from them, and wait for
somebody once all members have joined; the last for all but one. Holders in flight are
essential, and the sub-graph that holds a handle can be told from its producer.
-/
structure Store.Orderly (s : Store) (owed unready : Option Id) : Prop where
  held : ∀ id h, s.claimHandle? id = some h → h.state = .active → h.holderSupervisorId ≠ none
  counted : ∀ id h, s.claimHandle? id = some h → h.state = .active → h.expectedChildrenCount ≤
    h.committedChildrenCount + h.abandonedChildrenCount + (s.activeChildren id).length +
      owes owed id
  waits : ∀ id h, s.claimHandle? id = some h → h.state = .active → some id ≠ unready →
    s.Joined h → s.InFlight id
  essential : ∀ id h, s.claimHandle? id = some h → h.state = .active →
    ∀ x ∈ s.holdersOf id, x.state = .active → s.Essential h x
  told : ∀ id h, s.claimHandle? id = some h → h.state = .active →
    ∀ sg sg', s.HeldBy h sg → s.HeldBy h sg' → sg = sg'

namespace Store.Orderly

variable {s : Store} {owed unready : Option Id}

theorem noneStranded (orderly : s.Orderly owed none) {id : Id}
    (found : s.claimHandle? id = some h) : ¬s.Stranded h := by
  rintro ⟨active, joined, nobody⟩
  rw [id_of_claimHandle? found] at nobody
  exact nobody (orderly.waits id h found active (by simp) joined)

theorem settled {id : Id} (orderly : s.Orderly owed (some id))
    (waits : ∀ h, s.claimHandle? id = some h → h.state = .active → s.Joined h → s.InFlight id) :
    s.Orderly owed none := by
  refine ⟨orderly.held, orderly.counted, ?_, orderly.essential, orderly.told⟩
  intro id' h found active _ joined
  by_cases this : id' = id
  · subst this
    exact waits h found active joined
  · exact orderly.waits id' h found active (fun same => this (Option.some.inj same)) joined

theorem except (orderly : s.Orderly owed none) (unready : Option Id) : s.Orderly owed unready :=
  { orderly with waits := fun id h found active _ => orderly.waits id h found active (by simp) }

theorem paid {id : Id} (orderly : s.Orderly (some id) unready)
    (resolved : ∀ h, s.claimHandle? id = some h → h.state ≠ .active) : s.Orderly none unready := by
  refine ⟨orderly.held, ?_, orderly.waits, orderly.essential, orderly.told⟩
  intro id' h found active
  have counted := orderly.counted id' h found active
  have other : some id ≠ some id' := by
    intro same
    cases same
    exact resolved h found active
  simpa [owes, other] using counted

end Store.Orderly

structure Enrolls (s s' : Store) : Prop where
  nodes : s'.nodes = s.nodes
  instances : s'.instances = s.instances
  holders : ∀ x ∈ s'.claimHolders, x ∈ s.claimHolders
  types : ∀ x ∈ s'.claimHolders, s'.holderType? x = s.holderType? x

namespace Enrolls

variable {s s' : Store}

theorem of_same (nodes : s'.nodes = s.nodes) (instances : s'.instances = s.instances)
    (runs : s'.runs = s.runs) (holders : s'.claimHolders = s.claimHolders) : Enrolls s s' := by
  refine ⟨nodes, instances, fun x mem => holders ▸ mem, fun x _ => ?_⟩
  simp only [holderType?, run?, node?, nodes, runs]

instance : IsPreorder Store Enrolls where
  refl _ := of_same rfl rfl rfl rfl
  trans a b c first second := by
    refine ⟨second.nodes.trans first.nodes, second.instances.trans first.instances,
      fun x mem => first.holders x (second.holders x mem), fun x mem => ?_⟩
    rw [second.types x mem, first.types x (second.holders x mem)]

section

variable (enrolls : Enrolls s s')

include enrolls

theorem holdersOf (id : Id) : ∀ x ∈ s'.holdersOf id, x ∈ s.holdersOf id :=
  holdersOf_mono enrolls.holders id

section

variable (progresses : h.Progresses h')

include progresses

theorem heldBy {sg : HoldingSubgraph} :
    s'.HeldBy h' sg ↔ s.HeldBy h sg := by
  simp only [Store.HeldBy, node?, template?, instance?, enrolls.nodes,
    enrolls.instances, progresses.node, progresses.producer]

theorem joined (sameId : h'.id = h.id) (joined : s'.Joined h') : s.Joined h := by
  rcases joined with ⟨sg, heldBy, members⟩
  refine ⟨sg, (enrolls.heldBy progresses).mp heldBy, fun m mem => ?_⟩
  rcases members m mem with ⟨x, isHolder, ofType⟩
  rw [sameId] at isHolder
  refine ⟨x, enrolls.holdersOf _ x isHolder, ?_⟩
  rw [← enrolls.types x (mem_filter.mp isHolder).1, ofType]

theorem essential (sameId : h'.id = h.id) {x : ClaimHolder} (kept : x ∈ s'.claimHolders)
    (essential : s.Essential h x) : s'.Essential h' x := by
  intro sg heldBy
  rcases essential sg ((enrolls.heldBy progresses).mp heldBy) with ⟨m, mem, ofType, only⟩
  refine ⟨m, mem, (enrolls.types x kept).trans ofType, ?_⟩
  intro y isHolder sameType
  rw [sameId] at isHolder
  rw [enrolls.types y (mem_filter.mp isHolder).1] at sameType
  exact only y (enrolls.holdersOf _ y isHolder) sameType

theorem kept (sameId : h'.id = h.id) {x : ClaimHolder} (essential : s.Essential h x)
    (joined : s'.Joined h') : x ∈ s'.holdersOf h.id := by
  rcases joined with ⟨sg, heldBy, members⟩
  rcases essential sg ((enrolls.heldBy progresses).mp heldBy) with ⟨m, mem, -, only⟩
  rcases members m mem with ⟨y, isHolder, ofType⟩
  rw [sameId] at isHolder
  rw [enrolls.types y (mem_filter.mp isHolder).1] at ofType
  exact only y (enrolls.holdersOf _ y isHolder) ofType ▸ isHolder

end

end

end Enrolls

theorem Store.holderType?_eq (s : Store) (x : ClaimHolder) : s.holderType? x =
    ((s.run? x.holderRunId).map (·.nodeId)).bind fun nodeId =>
      (s.node? nodeId).map (·.nodeType) := by
  unfold holderType?
  cases s.run? x.holderRunId <;> rfl

theorem Detached.enrolls (detached : Detached s s') (sound : s.ClaimsSound) : Enrolls s s' := by
  rcases detached sound.free with ⟨-, gone, culled⟩
  have kept : ∀ x ∈ s'.claimHolders, x ∈ s.claimHolders ∧ gone x.holderRunId = false := by
    intro x mem
    rw [culled.holders] at mem
    simpa using mem_filter.mp mem
  refine ⟨culled.nodes, culled.instances, fun x mem => (kept x mem).1, fun x mem => ?_⟩
  rcases kept x mem with ⟨old, stays⟩
  rw [holderType?_eq, holderType?_eq, culled.nodeOf (sound.free.holders x old).1 stays]
  simp only [node?, culled.nodes]

/-- A handle that is resolved leaves no active parent behind, but for the excepted handles. -/
def Keeps (except : Id → Prop) (s s' : Store) : Prop :=
  ∀ childId child child', s.claimHandle? childId = some child →
    s'.claimHandle? childId = some child' → child.state = .active → child'.state ≠ .active →
    except childId ∨ ∀ p, child.parentClaimHandleId = some p →
      ∀ q, s'.claimHandle? p = some q → q.state ≠ .active

variable {except : Id → Prop}

theorem Keeps.of_states
    (same : ∀ id h h', s.claimHandle? id = some h → s'.claimHandle? id = some h' →
      h'.state = h.state) :
    Keeps except s s' := by
  intro id h h' old new active resolved
  exact absurd ((same id h h' old new).trans active) resolved

theorem Keeps.trans {mid : Store} (first : Keeps except s mid) (second : Keeps except mid s')
    (settles : Settles supervisorId s mid) (settles' : Settles supervisorId mid s') :
    Keeps except s s' := by
  intro childId child child' old new active resolved
  rcases settles.rows childId child old with ⟨childMid, between, advances⟩
  by_cases still : childMid.state = .active
  · rcases second childId childMid child' between new still resolved with excepted | parents
    · exact .inl excepted
    · exact .inr fun p parent => parents p (advances.parent.trans parent)
  · refine (first childId child childMid old between active still).imp_right
      fun parents p parent q' => ?_
    intro found isActive
    rcases settles'.row found with ⟨q, foundMid, advances'⟩
    exact parents p parent q foundMid (advances'.was_active isActive)

theorem Keeps.child (keeps : Keeps except s s') (settles : Settles supervisorId s s')
    (sound : s.ClaimsSound)
    (sound' : s'.ClaimsSound) {id : Id} (found : s'.claimHandle? id = some h')
    (active : h'.state = .active)
    (child : childId ∈ s.activeChildren id) : childId ∈ s'.activeChildren id ∨ except childId := by
  rcases sound.mem_activeChildren.mp child with ⟨c, old, parent, wasActive⟩
  rcases settles.rows childId c old with ⟨c', new, advances⟩
  by_cases still : c'.state = .active
  · exact .inl (sound'.mem_activeChildren.mpr ⟨c', new, advances.parent.trans parent, still⟩)
  · rcases keeps childId c c' old new wasActive still with excepted | parents
    · exact .inr excepted
    · exact absurd active (parents id parent h' found)

theorem Settles.progress (settles : Settles supervisorId s s') {id : Id}
    (found : s'.claimHandle? id = some h') : ∃ h, s.claimHandle? id = some h ∧ h.Progresses h' := by
  rcases settles.row found with ⟨h, old, advances⟩
  exact ⟨h, old, advances.toProgresses⟩

theorem Store.Orderly.advance {owed' unready' : Option Id} (orderly : s.Orderly owed unready)
    (sound : s.ClaimsSound) (sound' : s'.ClaimsSound) (enrolls : Enrolls s s')
    (rows : ∀ id h', s'.claimHandle? id = some h' →
      ∃ h, s.claimHandle? id = some h ∧ h.Progresses h')
    (children : ∀ id h', s'.claimHandle? id = some h' → h'.state = .active →
      ∀ childId ∈ s.activeChildren id, childId ∈ s'.activeChildren id ∨ except childId)
    (counts : ∀ id h', s'.claimHandle? id = some h' → h'.state = .active →
      (s.activeChildren id).length + owes owed id ≤ (s'.activeChildren id).length + owes owed' id)
    (waits : ∀ id h', s'.claimHandle? id = some h' → h'.state = .active → some id ≠ unready' →
      some id ≠ unready ∧ ∀ childId ∈ s.activeChildren id, ¬except childId) :
    s'.Orderly owed' unready' := by
  have before : ∀ id h', s'.claimHandle? id = some h' → h'.state = .active →
      ∃ h, s.claimHandle? id = some h ∧ h.state = .active ∧ h.Progresses h' ∧ h'.id = h.id := by
    intro id h' found active
    rcases rows id h' found with ⟨h, old, progresses⟩
    exact ⟨h, old, progresses.was_active active, progresses,
      (id_of_claimHandle? found).trans (id_of_claimHandle? old).symm⟩
  refine ⟨?_, ?_, ?_, ?_, ?_⟩
  · intro id h' found active
    rcases before id h' found active with ⟨h, old, wasActive, progresses, -⟩
    exact progresses.stillHeld (orderly.held id h old wasActive) active
  · intro id h' found active
    rcases before id h' found active with ⟨h, old, wasActive, progresses, -⟩
    have counted := orderly.counted id h old wasActive
    have fewer := counts id h' found active
    have tally := progresses.tally
    rw [progresses.expected]
    omega
  · intro id h' found active other joined
    rcases before id h' found active with ⟨h, old, wasActive, progresses, sameId⟩
    rcases waits id h' found active other with ⟨other, unexcepted⟩
    rcases orderly.waits id h old wasActive other (enrolls.joined progresses sameId joined) with
      ⟨x, isHolder, flying⟩ | ⟨c, mem, parent, flying⟩
    · have essential := orderly.essential id h old wasActive x isHolder flying
      have kept := enrolls.kept progresses sameId essential joined
      rw [id_of_claimHandle? old] at kept
      exact .inl ⟨x, kept, flying⟩
    · have child := sound.mem_activeChildren.mpr ⟨c, sound.find mem, parent, flying⟩
      rcases children id h' found active _ child with still | excepted
      · rcases sound'.mem_activeChildren.mp still with ⟨c', new, parent', flying'⟩
        exact .inr ⟨c', mem_of_claimHandle? new, parent', flying'⟩
      · exact absurd excepted (unexcepted _ child)
  · intro id h' found active x isHolder flying
    rcases before id h' found active with ⟨h, old, wasActive, progresses, sameId⟩
    exact enrolls.essential progresses sameId (mem_filter.mp isHolder).1
      (orderly.essential id h old wasActive x (enrolls.holdersOf id x isHolder) flying)
  · intro id h' found active sg sg' heldBy heldBy'
    rcases before id h' found active with ⟨h, old, wasActive, progresses, -⟩
    exact orderly.told id h old wasActive sg sg' ((enrolls.heldBy progresses).mp heldBy)
      ((enrolls.heldBy progresses).mp heldBy')

theorem activeChildren_length_le (sound : s.ClaimsSound) {id : Id}
    (fewer : s.activeChildren id ⊆ s'.activeChildren id) :
    (s.activeChildren id).length ≤ (s'.activeChildren id).length :=
  (subperm_of_subset (sound.activeChildren_nodup id) fewer).length_le

/-- Handles that stay active keep what was split off from them and is in flight. -/
theorem Store.Orderly.lossless (orderly : s.Orderly owed unready) (sound : s.ClaimsSound)
    (sound' : s'.ClaimsSound) (enrolls : Enrolls s s')
    (rows : ∀ id h', s'.claimHandle? id = some h' →
      ∃ h, s.claimHandle? id = some h ∧ h.Progresses h')
    (children : ∀ id h', s'.claimHandle? id = some h' → h'.state = .active →
      s.activeChildren id ⊆ s'.activeChildren id) : s'.Orderly owed unready := by
  have kept : ∀ id h', s'.claimHandle? id = some h' → h'.state = .active →
      ∀ childId ∈ s.activeChildren id, childId ∈ s'.activeChildren id ∨ False :=
    fun id h' found active _ child => .inl (children id h' found active child)
  refine orderly.advance sound sound' enrolls rows kept ?_ ?_
  · intro id h' found active
    exact Nat.add_le_add_right (activeChildren_length_le sound (children id h' found active)) _
  · exact fun _ _ _ _ other => ⟨other, fun _ _ none => none⟩

theorem Store.Orderly.unresolved (orderly : s.Orderly owed unready) (sound : s.ClaimsSound)
    (sound' : s'.ClaimsSound) (settles : Settles supervisorId s s') (enrolls : Enrolls s s')
    (same : ∀ id h h', s.claimHandle? id = some h → s'.claimHandle? id = some h' →
      h'.state = h.state) : s'.Orderly owed unready := by
  have keeps : Keeps (fun _ => False) s s' := .of_states same
  refine orderly.lossless sound sound' enrolls (fun _ _ => settles.progress) ?_
  intro id h' found active childId child
  exact (keeps.child settles sound sound' found active child).resolve_right not_false

theorem Store.Orderly.mapped {change : ClaimHandle → ClaimHandle} (orderly : s.Orderly owed unready)
    (sound : s.ClaimsSound) (sound' : (s.mapHandles change).ClaimsSound)
    (settles : Settles supervisorId s (s.mapHandles change)) (sameId : ∀ h, (change h).id = h.id)
    (sameState : ∀ h, (change h).state = h.state) : (s.mapHandles change).Orderly owed unready := by
  refine orderly.unresolved sound sound' settles (.of_same rfl rfl rfl rfl) ?_
  intro id h h' old new
  rw [claimHandle?_mapHandles sameId, old] at new
  cases new
  exact sameState h

theorem Detached.orderly (detached : Detached s s') (sound : s.ClaimsSound)
    (orderly : s.Orderly owed unready) : s'.Orderly owed unready := by
  have silent : s'.ClaimsSound ∧ Resolves "" .never s s' := detached.apart.resolves sound
  refine orderly.unresolved sound silent.1 silent.2.toSettles (detached.enrolls sound) ?_
  intro id h h' old new
  rcases detached.apart.row sound old with ⟨gone, after⟩
  rw [new] at after
  rw [Option.some.inj after, ClaimHandle.unbound_state]

structure Fells (supervisorId : String) (except : Id → Prop) (s s' : Store) : Prop
    extends Resolves supervisorId .never s s' where
  enrolls : Enrolls s s'
  keeps : Keeps except s s'

instance (supervisorId : String) (except : Id → Prop) :
    IsPreorder Store (Fells supervisorId except) where
  refl s := by
    refine ⟨refl s, refl s, .of_states fun id h h' old new => ?_⟩
    rw [old] at new
    cases new
    rfl
  trans a b c first second :=
    ⟨IsTrans.trans _ _ _ first.toResolves second.toResolves,
      IsTrans.trans _ _ _ first.enrolls second.enrolls,
      first.keeps.trans second.keeps first.toSettles second.toSettles⟩

theorem Fells.mono {except' : Id → Prop} (fells : Fells supervisorId except s s')
    (weaker : ∀ id, except id → except' id) : Fells supervisorId except' s s' :=
  { fells with
    keeps := fun id h h' old new active resolved =>
      (fells.keeps id h h' old new active resolved).imp_left (weaker id) }

section Decisions

variable {args : RunArgs} {rec : Rec}

variable (args rec) in
def FellsDown : Prop :=
  ∀ td row s s' post, s.ClaimsSound → s.Decides args.supervisorId td row → td.outcome.isAbandon →
    td.parentClaimHandleId = none → rec.resolveClaimHandleTerminal td s = (.ok post, s') →
      s'.ClaimsSound ∧ Fells args.supervisorId (· = td.claimHandleId) s s'

theorem FellsDown.descends (fells : FellsDown args rec) : Descends args rec := by
  intro td row s s' post sound decides abandon top run
  rcases fells td row s s' post sound decides abandon top run with ⟨sound', fells⟩
  exact ⟨sound', fells.toResolves⟩

theorem cancelDescendantClaims_fells (fells : FellsDown args rec) {rowId : Id}
    (sound : s.ClaimsSound) (run : cancelDescendantClaims args rec rowId s = (.ok post, s')) :
    s'.ClaimsSound ∧ Fells args.supervisorId
      (fun id => ∃ c, s.claimHandle? id = some c ∧ c.parentClaimHandleId = some rowId) s s' := by
  refine cancelClaimHandleWalk_runs (I := Store.ClaimsSound) (fun _ _ fells => fells.toSettles)
    ?_ sound (s.lists_of_mem sound (fun row mem => (mem_filter.mp mem).1) _) run
  intro row listed td h s₁ s₂ post sound₁ cancelling run
  rcases fells td h s₁ s₂ post sound₁ cancelling.toDecides (by rw [cancelling.decided]; rfl)
    cancelling.up run with ⟨sound₂, fells⟩
  refine ⟨sound₂, fells.mono ?_⟩
  rintro id rfl
  rcases mem_filter.mp listed with ⟨mem, ofParent⟩
  exact ⟨row, cancelling.ofRow ▸ sound.find mem, by simpa using ofParent⟩

theorem ProducerVerbOutbox.enqueue_enrolls (row : OutboxRow) :
    Steps Enrolls (ProducerVerbOutbox.enqueue row) := by
  intro s
  simp only [ProducerVerbOutbox.enqueue, newId, read_bind, bind_assoc, write_bind, pure_bind,
    write_apply]
  split
  · exact .of_same rfl rfl rfl rfl
  · exact .of_same rfl rfl rfl rfl

theorem enqueueProducerVerb_enrolls (td : TerminalDecision) :
    Steps Enrolls (enqueueProducerVerb td) :=
  steps_reads fun _ => ProducerVerbOutbox.enqueue_enrolls _

namespace DecisionRuns

variable {td : TerminalDecision} {row : ClaimHandle} {s s₁ s₂ s₃ s₄ : Store}
  (runs : DecisionRuns args rec td s s₁ s₂ s₃ s₄) (down : FellsDown args rec)
  (gate : ∀ id, Steps Detached (rec.evaluateOneGate id)) (sound : s.ClaimsSound)
  (decides : s.Decides args.supervisorId td row)

include runs down gate sound decides

theorem settles : s₄.ClaimsSound ∧ Resolves args.supervisorId .always s s₄ ∧
    ∃ row', s₄.claimHandle? td.claimHandleId = some row' ∧ row'.state = td.outcome.state :=
  runs.resolves down.descends (fun id => steps_mono (gate id) fun _ _ => apart) sound decides
    fun _ => trivial

theorem fells : Enrolls s s₄ ∧ Keeps (· = td.claimHandleId) s s₄ := by
  rcases runs.settles down gate sound decides with ⟨sound₄, -, row', known', decided⟩
  rcases enqueueProducerVerb_queues sound runs.queue with ⟨sound₁, queues⟩
  have same := claimHandle?_of_same queues.handles
  have descent : s₂.ClaimsSound ∧ Fells args.supervisorId (fun id => ∃ c,
      s₁.claimHandle? id = some c ∧ c.parentClaimHandleId = some td.claimHandleId) s₁ s₂ := by
    by_cases commits : td.outcome = .commit
    · rw [runs.keep commits]
      exact ⟨sound₁, refl _⟩
    · rcases runs.descend commits with ⟨cancelled, descend⟩
      exact cancelDescendantClaims_fells down sound₁ descend
  rcases descent with ⟨sound₂, fells₂⟩
  have apart : ∀ id, Steps Apart (rec.evaluateOneGate id) :=
    fun id => steps_mono (gate id) fun _ _ => apart
  refine ⟨?_, ?_⟩
  · rcases runs.defer with ⟨deferred, defer⟩
    have detached := (Walking.emitDeferredHeldCascade (holders gate) td).run defer
    have promotes : Enrolls s₂ s₃ := by
      rw [promoteHandleState_ok runs.promote]
      exact .of_same rfl rfl rfl rfl
    exact IsTrans.trans _ _ _ ((enqueueProducerVerb_enrolls td).run runs.queue)
      (IsTrans.trans _ _ _ fells₂.enrolls (IsTrans.trans _ _ _ promotes
        (detached.enrolls (sound₂.promoted runs.promote))))
  · intro childId child child' old new active resolved
    by_cases this : childId = td.claimHandleId
    · exact .inl this
    rcases fells₂.rows childId child ((same childId).trans old) with ⟨child₂, between, -⟩
    have resolved₂ : child₂.state ≠ .active := by
      rcases runs.others apart sound₂ this between with ⟨gone, after⟩
      rw [new] at after
      rwa [Option.some.inj after, ClaimHandle.unbound_state] at resolved
    refine .inr fun p parent q found isActive => ?_
    rcases fells₂.keeps childId child child₂ ((same childId).trans old) between active
      resolved₂ with ⟨c, foundChild, ofTd⟩ | parents
    · rw [same, old] at foundChild
      cases foundChild
      rw [parent] at ofTd
      cases ofTd
      rw [known'] at found
      cases found
      exact td.outcome.state_ne_active (decided ▸ isActive)
    · rcases runs.ages apart sound₂ p q found with ⟨q₂, known₂, -, wasActive⟩
      exact parents p parent q₂ known₂ (wasActive isActive)

theorem orderly (orderly : s.Orderly none (some td.claimHandleId)) :
    s₄.Orderly row.parentClaimHandleId row.parentClaimHandleId := by
  rcases runs.settles down gate sound decides with ⟨sound₄, resolves, row', known', decided⟩
  rcases runs.fells down gate sound decides with ⟨enrolls, keeps⟩
  have lost : ∀ id, td.claimHandleId ∈ s.activeChildren id → row.parentClaimHandleId = some id := by
    intro id child
    rcases sound.mem_activeChildren.mp child with ⟨c, found, parent, -⟩
    rw [decides.known] at found
    cases found
    exact parent
  have children : ∀ id h', s₄.claimHandle? id = some h' → h'.state = .active →
      ∀ childId ∈ s.activeChildren id, childId ∈ s₄.activeChildren id ∨
        childId = td.claimHandleId :=
    fun id h' found active childId => keeps.child resolves.toSettles sound sound₄ found active
  refine orderly.advance sound sound₄ enrolls (fun _ _ =>
    resolves.toSettles.progress) children ?_ ?_
  · intro id h' found active
    by_cases parent : row.parentClaimHandleId = some id
    · have fewer : s.activeChildren id ⊆ td.claimHandleId :: s₄.activeChildren id := by
        intro childId child
        rcases children id h' found active childId child with still | this
        · exact mem_cons_of_mem _ still
        · exact this ▸ mem_cons_self
      have count := (subperm_of_subset (sound.activeChildren_nodup id) fewer).length_le
      simpa [owes, parent] using count
    · have fewer : s.activeChildren id ⊆ s₄.activeChildren id := by
        intro childId child
        rcases children id h' found active childId child with still | this
        · exact still
        · subst this
          exact absurd (lost id child) parent
      simpa [owes, parent] using activeChildren_length_le sound fewer
  · intro id h' found active other
    refine ⟨?_, ?_⟩
    · intro this
      cases this
      rw [known'] at found
      cases found
      exact td.outcome.state_ne_active (decided ▸ active)
    · rintro childId child rfl
      exact other (lost id child).symm

end DecisionRuns

theorem knot_fellsDown (args : RunArgs) (fuel : Nat) : FellsDown args (knot args fuel) := by
  induction fuel with
  | zero =>
    intro td row s s' post _ _ _ _ run
    cases run
  | succ fuel ih =>
    intro td row s s' post sound decides abandon top run
    rcases knot_descends args (fuel + 1) td row s s' post sound decides abandon top run with
      ⟨sound', resolves⟩
    rcases resolveClaimHandleTerminalBody_runs decides.source run with
      ⟨s₁, s₂, s₃, s₄, runs, same, -⟩
    rcases runs.fells ih (gate args fuel) sound decides with ⟨enrolls, keeps⟩
    rw [← same top] at enrolls keeps
    exact ⟨sound', resolves, enrolls, keeps⟩

end Decisions

theorem bumpChildOutcomeCount_orderly {id : Id} {holder : String} {committed : Bool} {u : Unit}
    (sound : s.ClaimsSound) (orderly : s.Orderly (some id) unready)
    (found : s.claimHandle? id = some h) (held : h.holderSupervisorId = some holder)
    (run : ClaimHandles.bumpChildOutcomeCount id holder committed 1 s = (.ok u, s')) :
    s'.Orderly none unready := by
  have settles : s'.ClaimsSound ∧ Resolves "" .never s s' :=
    bumpChildOutcomeCount_resolves sound run
  have bumped := bumpChildOutcomeCount_ok run
  subst bumped
  have sameId := ClaimHandle.counted_id id holder committed
  have sameState := ClaimHandle.counted_state id holder committed
  have base := orderly.mapped sound settles.1 settles.2.toSettles sameId sameState
  refine { base with counted := ?_ }
  intro i x' new active
  have counted := base.counted i x' new active
  by_cases this : id = i
  · subst this
    have after := claimHandle?_mapHandles (s := s) sameId id
    rw [new, found] at after
    cases after
    have tally := orderly.counted id h found (sameState h ▸ active)
    have children : s.activeChildren id ⊆
        (s.mapHandles (·.counted id holder committed)).activeChildren id := by
      intro childId child
      rcases sound.mem_activeChildren.mp child with ⟨c, old, parent, flying⟩
      rcases settles.2.rows childId c old with ⟨c', new', advances⟩
      refine settles.1.mem_activeChildren.mpr ⟨c', new', advances.parent.trans parent, ?_⟩
      rw [claimHandle?_mapHandles sameId, old] at new'
      cases new'
      exact (sameState c).trans flying
    have fewer := activeChildren_length_le sound children
    rw [ClaimHandle.counted_of_held (id_of_claimHandle? found) held]
    simp only [owes, if_true, reduceCtorEq, if_false] at tally ⊢
    cases committed with
    | true =>
      simp only [if_true]
      omega
    | false =>
      simp only [Bool.false_eq_true, if_false]
      omega
  · simpa [owes, this] using counted

section Ascent

variable {args : RunArgs} {rec : Rec}

variable (args rec) in
def Clears : Prop :=
  ∀ td row s s' post, s.ClaimsSound → s.Decides args.supervisorId td row →
    td.parentClaimHandleId = row.parentClaimHandleId → s.Orderly none (some td.claimHandleId) →
    rec.resolveClaimHandleTerminal td s = (.ok post, s') → s'.Orderly none none

theorem cancelInFlightSiblings_orderly (clears : Clears args rec)
    (ascends : Ascends args rec .always) {triggerId : Id}
    (only : ∀ id, unready = some id → id = parentId) (sound : s.ClaimsSound)
    (orderly : s.Orderly none unready)
    (run : cancelInFlightSiblings args rec parentId triggerId s = (.ok post, s')) :
    s'.Orderly none unready := by
  have walked := cancelInFlightSiblings_runs (R := Resolves args.supervisorId .always)
    (I := fun s => s.ClaimsSound ∧ s.Orderly none unready)
    (fun _ _ resolves => resolves.toSettles) ?_ sound ⟨sound, orderly⟩ run
  · exact walked.1.2
  · rintro row td h s s' post ofParent ⟨sound, orderly⟩ cancelling run
    have inFlight : s.InFlight parentId := .inr ⟨h, mem_of_claimHandle? cancelling.known,
      cancelling.advances.parent.trans ofParent, cancelling.active⟩
    have all : s.Orderly none none := by
      cases unready with
      | none => exact orderly
      | some id =>
        rw [only id rfl] at orderly
        exact orderly.settled fun _ _ _ _ => inFlight
    rcases ascends td h s s' post sound cancelling.toDecides (fun _ => trivial)
      (s.fanOutsTolerant_always _) run with ⟨sound', resolves, -⟩
    have cleared := clears td h s s' post sound cancelling.toDecides cancelling.up
      (all.except _) run
    exact ⟨⟨sound', cleared.except _⟩, resolves⟩

theorem settleReady_orderly (clears : Clears args rec) {childOutcome : TerminalOutcome}
    {cancelled : List PostCommit} (sound : s.ClaimsSound) (orderly : s.Orderly none (some parentId))
    (may : s.MaySettle args.supervisorId parentId)
    (run : settleReady args rec parentId childOutcome cancelled s = (.ok post, s')) :
    s'.Orderly none none := by
  rcases settleReady_runs sound run with
    ⟨rfl, waits⟩ | ⟨td, parent, row, holder, mid, s₁, post', readies, settle⟩
  · refine orderly.settled fun h found active _ => ?_
    rcases waits h found with unheld | resolved | inFlight
    · exact absurd unheld (orderly.held _ h found active)
    · exact absurd active resolved
    · exact inFlight
  have detached := (walking.closePartitionScopes _).run readies.close
  have silent : mid.ClaimsSound ∧ Resolves args.supervisorId .never s mid :=
    detached.apart.resolves sound
  have taken : (mid.mapHandles (·.reassigned parentId holder args.supervisorId)).ClaimsSound ∧
      Resolves args.supervisorId .never mid _ :=
    Resolves.reassigned silent.1 ((readies.taken may).imp_right silent.2.isParent)
  have orderly₁ := (detached.orderly sound orderly).mapped silent.1 taken.1 taken.2.toSettles
    (ClaimHandle.reassigned_id _ _ _) (ClaimHandle.reassigned_state _ _ _)
  rw [← readies.passes] at taken orderly₁
  exact clears td row s₁ s' post' taken.1 readies.toDecides readies.up (readies.ofParent ▸ orderly₁)
    settle

theorem settleFromFanoutChild_orderly (clears : Clears args rec)
    (ascends : Ascends args rec .always) {childOutcome : TerminalOutcome} {metadata : Option String}
    (sound : s.ClaimsSound) (orderly : s.Orderly (some parentId) (some parentId))
    (may : s.MaySettle args.supervisorId parentId)
    (run : settleFromFanoutChild args rec parentId childId childOutcome metadata s =
      (.ok post, s')) :
    s'.Orderly none none := by
  rcases settleFromFanoutChild_runs run with ⟨absent, same⟩ | ⟨parent, s₁, found, record, rest⟩
  · rw [same]
    have absurd : ∀ h, s.claimHandle? parentId = some h → False := by
      intro h found
      rw [absent] at found
      cases found
    exact (orderly.settled fun h found => (absurd h found).elim).paid fun h found =>
      (absurd h found).elim
  have detached := (walking.recordChildCommitMetadata _ _ _ _).run record
  have orderly₁ := detached.orderly sound orderly
  have silent : s₁.ClaimsSound ∧ Resolves args.supervisorId .always s s₁ :=
    detached.apart.resolves sound
  rcases silent with ⟨sound₁, resolves₁⟩
  rcases detached.apart.row sound found with ⟨gone, found₁⟩
  rcases rest with ⟨stays, same⟩ | ⟨holder, s₂, cancelled, s₃, held, active, bump, cancel, ready⟩
  · rw [same]
    have resolved : ∀ h, s₁.claimHandle? parentId = some h → h.state ≠ .active := by
      intro h found' active
      have wasActive : parent.state = .active := by
        rw [found₁] at found'
        cases found'
        simpa using active
      rcases stays with unheld | resolved
      · exact orderly.held _ parent found wasActive unheld
      · exact resolved wasActive
    exact (orderly₁.settled fun h found active => absurd active (resolved h found)).paid resolved
  have orderly₂ := bumpChildOutcomeCount_orderly sound₁ orderly₁ found₁ (by simpa using held) bump
  have settles₂ : s₂.ClaimsSound ∧ Resolves args.supervisorId .always s₁ s₂ :=
    bumpChildOutcomeCount_resolves sound₁ bump
  rcases settles₂ with ⟨sound₂, resolves₂⟩
  have may₂ := (may.settles resolves₁.toSettles).settles resolves₂.toSettles
  rcases cancel with ⟨-, same⟩ | ⟨-, cancel⟩
  · rw [same] at ready
    exact settleReady_orderly clears sound₂ orderly₂ may₂ ready
  · rcases cancelInFlightSiblings_resolves ascends sound₂ (s₂.fanOutsTolerant_always _) cancel with
      ⟨sound₃, resolves₃⟩
    have orderly₃ := cancelInFlightSiblings_orderly clears ascends
      (fun id same => (Option.some.inj same).symm) sound₂ orderly₂ cancel
    exact settleReady_orderly clears sound₃ orderly₃ (may₂.settles resolves₃.toSettles) ready

end Ascent

theorem knot_clears (args : RunArgs) (fuel : Nat) : Clears args (knot args fuel) := by
  induction fuel with
  | zero =>
    intro td row s s' post _ _ _ _ run
    cases run
  | succ fuel ih =>
    intro td row s s' post sound decides parent orderly run
    have allows : td.outcome = .commit → CommitRule.always.Allows (s.holdersOf td.claimHandleId) :=
      fun _ => trivial
    rcases resolveClaimHandleTerminalBody_runs decides.source run with
      ⟨s₁, s₂, s₃, s₄, runs, top, ascend⟩
    have orderly₄ := runs.orderly (knot_fellsDown args fuel) (gate args fuel) sound decides
      orderly
    rcases runs.resolves (knot_descends args fuel) (Apart.gate args fuel) sound decides allows with
      ⟨sound₄, resolves, row', known, -⟩
    rw [← parent] at orderly₄
    cases up : td.parentClaimHandleId with
    | none =>
      rw [up] at orderly₄
      rw [top up]
      exact orderly₄
    | some parentId =>
      rw [up] at orderly₄
      rcases ascend parentId up with ⟨metadata, settled, settle⟩
      have isParent : s₄.IsParent parentId :=
        resolves.isParent ⟨_, row, decides.known, parent.symm.trans up⟩
      exact settleFromFanoutChild_orderly ih (knot_always args fuel) sound₄ orderly₄ (.inl isParent)
        settle

theorem Store.Joined.notMissing (joined : s.Joined h)
    (told : ∀ sg sg', s.HeldBy h sg → s.HeldBy h sg' → sg = sg') :
    s.expectedInheritorsMissing h (s.holdersOf h.id) = false := by
  rcases joined with ⟨sg, heldBy, members⟩
  have theirs := heldBy
  rcases heldBy with ⟨acquirer, spec, acqDef, known, template, defined, ref, declared, named, -, -⟩
  cases first : acqDef.claimProducers.find? (·.name = h.producerName.getD "") with
  | none =>
    have absent := find?_eq_none.mp first ref declared
    simp [named] at absent
  | some ref₀ =>
    have ofProducer : ref₀.name = h.producerName.getD "" := by simpa using find?_some first
    simp only [expectedInheritorsMissing, known, template, defined,
      TemplateNodeDef.aliasOfProducer, first, Option.map_some, Option.getD_some]
    cases found : findHoldingSubgraph (holdingSubgraphsForTemplate spec) acquirer.nodeType
        ref₀.aliasOf with
    | none => rfl
    | some sg₀ =>
      cases held : sg₀.isHeld with
      | false => simp [held]
      | true =>
        have same : sg₀ = sg := told sg₀ sg ⟨acquirer, spec, acqDef, known, template, defined,
          ref₀, mem_of_find?_eq_some first, ofProducer, found, held⟩ theirs
        have present : (sg₀.members.any fun m => !((s.holdersOf h.id).filterMap fun x =>
            (s.run? x.holderRunId).bind fun r => (s.node? r.nodeId).map (·.nodeType)).contains m) =
            false := by
          rw [any_eq_false]
          intro m mem
          rcases members m (same ▸ mem) with ⟨x, isHolder, ofType⟩
          simp only [Bool.not_eq_true, Bool.not_eq_false', contains_eq_mem,
            decide_eq_true_eq, mem_filterMap]
          exact ⟨x, isHolder, ofType⟩
        simp only [present, Bool.and_false]

theorem Store.Joined.holders_ne_nil (joined : s.Joined h) : s.holdersOf h.id ≠ [] := by
  rcases joined with ⟨sg, heldBy, members⟩
  rcases heldBy with ⟨acquirer, spec, acqDef, -, -, -, ref, -, -, -, held⟩
  have some : sg.members ≠ [] := by
    intro none
    simp [HoldingSubgraph.isHeld, none] at held
  rcases exists_mem_of_ne_nil _ some with ⟨m, mem⟩
  rcases members m mem with ⟨x, isHolder, -⟩
  exact ne_nil_of_mem isHolder

def Store.OwnedBy (s : Store) (supervisorId : String) (id : Id) : Prop :=
  ∀ row, s.claimHandle? id = some row → row.state = .active →
    row.holderSupervisorId = some supervisorId

variable {s s' : Store}

section Calls

variable {args : RunArgs} {fuel : Nat} {post : List PostCommit}

theorem checkAndFireResolution_orderly {claimHandleId : Id} (sound : s.ClaimsSound)
    (orderly : s.Orderly none (some claimHandleId))
    (owned : s.OwnedBy args.supervisorId claimHandleId)
    (run : checkAndFireResolution args (knot args fuel) claimHandleId s = (.ok post, s')) :
    s'.Orderly none none := by
  rcases checkAndFireResolution_runs run with ⟨stays, rfl⟩ | ⟨row, td, found, fires, run⟩
  · refine orderly.settled fun row found active joined => ?_
    have rowId := id_of_claimHandle? found
    rcases autoTerminal_none found (owned row found active) active stays with holders | children
    · simp only [awaitsHolders, Bool.or_eq_true] at holders
      rcases holders with (nobody | flying) | missing
      · exact absurd (isEmpty_iff.mp nobody) joined.holders_ne_nil
      · rcases any_eq_true.mp flying with ⟨x, isHolder, isActive⟩
        exact .inl ⟨x, rowId ▸ isHolder, by simpa using isActive⟩
      · have notMissing := joined.notMissing (orderly.told _ row found active)
        rw [Bool.and_eq_true] at missing
        exact absurd (missing.2.symm.trans notMissing) (by simp)
    · have counted := orderly.counted _ row found active
      simp only [awaitsChildren, Bool.and_eq_true, decide_eq_true_eq] at children
      have some : s'.activeChildren claimHandleId ≠ [] := by
        intro none
        simp only [none, length_nil, owes, reduceCtorEq, if_false] at counted
        omega
      rcases exists_mem_of_ne_nil _ some with ⟨childId, child⟩
      rcases sound.mem_activeChildren.mp child with ⟨c, known, parent, flying⟩
      exact .inr ⟨c, mem_of_claimHandle? known, parent, flying⟩
  · have handle : td.claimHandleId = claimHandleId := fires.handle.trans (id_of_claimHandle? found)
    exact knot_clears args fuel td row s s' post sound (fires.decides found) fires.parent
      (handle.symm ▸ orderly) run

end Calls

theorem Marks.orderly {claimHandleId : Id} (marks : Marks claimHandleId s s')
    (orderly : s.Orderly none none) : s'.Orderly none (some claimHandleId) := by
  rcases marks with ⟨finish, each, others, rfl⟩
  have sameType : ∀ x, s.holderType? (finish x) = s.holderType? x := by
    intro x
    simp only [holderType?, (each x).run]
  have listed : ∀ id x', x' ∈ ({ s with claimHolders := s.claimHolders.map finish } :
    Store).holdersOf id →
      ∃ x ∈ s.holdersOf id, finish x = x' := by
    intro id x' isHolder
    rcases mem_filter.mp isHolder with ⟨mem, ofHandle⟩
    rcases mem_map.mp mem with ⟨x, old, rfl⟩
    exact ⟨x, mem_filter.mpr ⟨old, (each x).handle ▸ ofHandle⟩, rfl⟩
  refine ⟨orderly.held, orderly.counted, ?_, ?_, orderly.told⟩
  · intro id h found active other joined
    have unmarked : ∀ x ∈ s.holdersOf id, finish x = x := by
      intro x isHolder
      have ofHandle : x.claimHandleId = id := by simpa using (mem_filter.mp isHolder).2
      exact others x fun same => other (congrArg some (ofHandle.symm.trans same))
    have before : s.Joined h := by
      rcases joined with ⟨sg, heldBy, members⟩
      refine ⟨sg, heldBy, fun m mem => ?_⟩
      rcases members m mem with ⟨x', isHolder, ofType⟩
      rcases listed _ x' isHolder with ⟨x, old, rfl⟩
      exact ⟨x, old, (sameType x).symm.trans ofType⟩
    rcases orderly.waits id h found active (by simp) before with ⟨x, isHolder, flying⟩ | child
    · refine .inl ⟨x, mem_filter.mpr ⟨mem_map.mpr ⟨x, (mem_filter.mp isHolder).1,
        unmarked x isHolder⟩, (mem_filter.mp isHolder).2⟩, flying⟩
    · exact .inr child
  · intro id h found active x' isHolder flying
    rcases listed id x' isHolder with ⟨x, old, rfl⟩
    have wasFlying : x.state = .active := by
      by_contra finished
      rw [(each x).once finished] at flying
      exact finished flying
    intro sg heldBy
    rcases orderly.essential id h found active x old wasFlying sg heldBy with ⟨m, mem, ofType, only⟩
    refine ⟨m, mem, (sameType x).trans ofType, fun y' isHolder' sameMember => ?_⟩
    rcases listed _ y' isHolder' with ⟨y, oldY, rfl⟩
    rw [only y oldY ((sameType y).symm.trans sameMember)]

theorem ClaimHandles.delete_orderly {id : Id} {u : Unit} (sound : s.ClaimsSound)
    (orderly : s.Orderly none none)
    (root : ∀ h, s.claimHandle? id = some h → h.parentClaimHandleId = none)
    (run : ClaimHandles.delete id supervisorId s = (.ok u, s')) : s'.Orderly none none := by
  rw [delete_ok run]
  let gone : ClaimHandle → Bool := fun h => h.id = id && claimant supervisorId h
  have children : ∀ p h', (s.deleteHandles gone).claimHandle? p = some h' → h'.state = .active →
      s.activeChildren p ⊆ (s.deleteHandles gone).activeChildren p := by
    intro p h' found _ childId child
    rcases sound.mem_activeChildren.mp child with ⟨c, known, parent, flying⟩
    have kept : gone c = false := by
      cases leaves : gone c with
      | false => rfl
      | true =>
        simp only [gone, Bool.and_eq_true, decide_eq_true_eq] at leaves
        rw [← id_of_claimHandle? known, leaves.1] at known
        rw [root c known] at parent
        cases parent
    have parentStays : ¬p ∈ (s.claimHandles.filter gone).map (·.id) := by
      intro mem
      rcases mem_map.mp mem with ⟨g, leaves, rfl⟩
      rcases mem_filter.mp leaves with ⟨known, leaves⟩
      rw [claimHandle?_deleteHandles sound, sound.find known] at found
      simp [Option.filter, leaves] at found
    have same : c.orphaned ((s.claimHandles.filter gone).map (·.id)) = c := by
      simp [ClaimHandle.orphaned, parent, parentStays]
    refine (sound.deleteHandles gone).mem_activeChildren.mpr ⟨c, ?_, parent, flying⟩
    rw [claimHandle?_deleteHandles sound, known]
    simp [Option.filter, kept, same]
  have enrolls : Enrolls s (s.deleteHandles gone) :=
    ⟨rfl, rfl, fun x mem => (mem_filter.mp mem).1, fun _ _ => rfl⟩
  refine orderly.lossless sound (sound.deleteHandles gone) enrolls ?_ children
  intro p h' found
  rcases row_of_deleteHandles sound found with ⟨h, old, rfl | rfl⟩
  · exact ⟨_, old, .refl _⟩
  · exact ⟨h, old, .of_same rfl rfl rfl rfl rfl (Nat.le_refl _)⟩

section Calls

variable {args : RunArgs} {fuel : Nat} {post : List PostCommit}

theorem Store.Orderly.decided {td : TerminalDecision} {row : ClaimHandle} (sound : s.ClaimsSound)
    (orderly : s.Orderly none none) (decides : s.Decides args.supervisorId td row)
    (parent : td.parentClaimHandleId = row.parentClaimHandleId)
    (run : (knot args fuel).resolveClaimHandleTerminal td s = (.ok post, s')) :
    s'.ClaimsSound ∧ Settles args.supervisorId s s' ∧ s'.Orderly none none := by
  rcases decides.settled sound run with ⟨sound', resolves, -⟩
  exact ⟨sound', resolves.toSettles,
    knot_clears args fuel td row s s' post sound decides parent (orderly.except _) run⟩

theorem releaseClaim_orderly {acq : Acquisition} {lk : AcquiredLock} {claimAlias : String}
    {success : Bool} (sound : s.ClaimsSound) (orderly : s.Orderly none none)
    (owned : s.OwnedBy args.supervisorId lk.claimHandleId)
    (known : isAliasHeld acq.heldSubgraphs acq.nodeType claimAlias ∨
      ∃ row, s.claimHandle? lk.claimHandleId = some row)
    (run : releaseClaim args (knot args fuel) acq lk claimAlias success s = (.ok post, s')) :
    s'.Orderly none none := by
  rcases releaseClaim_cases run with ⟨-, mid, marks, check⟩ |
    ⟨notHeld, ⟨-, -, -, rfl⟩ | ⟨td, releases, run⟩⟩
  · have owned' : mid.OwnedBy args.supervisorId lk.claimHandleId := by
      rcases marks with ⟨finish, -, -, rfl⟩
      exact owned
    exact checkAndFireResolution_orderly (marks.sound sound) (marks.orderly orderly) owned' check
  · exact orderly
  · rcases known with held | ⟨row, found⟩
    · rw [notHeld] at held
      cases held
    · have mine := owned row found (releases.active row found)
      exact (orderly.decided sound (releases.decides found mine) (releases.up found) run).2.2

theorem resolveLinkedSubClaims_orderly {acq : Acquisition} {success : Bool} (sound : s.ClaimsSound)
    (orderly : s.Orderly none none)
    (owned : ∀ row ∈ s.linkedSubClaims acq, row.state = .active →
      row.holderSupervisorId = some args.supervisorId)
    (run : resolveLinkedSubClaims args (knot args fuel) acq success s = (.ok post, s')) :
    s'.Orderly none none := by
  refine (resolveLinkedSubClaims_owned (R := Settles args.supervisorId)
    (I := fun s => s.ClaimsSound ∧ s.Orderly none none) (fun _ _ settles => settles) ?_ sound owned
    ⟨sound, orderly⟩ run).1.2
  rintro h td s s' post ⟨sound, orderly⟩ decides up step
  rcases orderly.decided sound decides up step with ⟨sound', settles, orderly'⟩
  exact ⟨⟨sound', orderly'⟩, settles⟩

/-- The condition under which a call leaves no handle behind that waits for nobody. -/
def ClaimCall.Finishing (supervisorId : String) (s : Store) : ClaimCall → Prop
  | .releaseAcquiredLock acq _ lk =>
    match lk.spec with
    | .named _ => ∀ row, s.claimHandle? lk.claimHandleId = some row → row.parentClaimHandleId = none
    | .claim _ claimAlias => s.OwnedBy supervisorId lk.claimHandleId ∧
        (isAliasHeld acq.heldSubgraphs acq.nodeType claimAlias ∨
          ∃ row, s.claimHandle? lk.claimHandleId = some row)
  | .resolveLinkedSubClaims acq _ => ∀ row ∈ s.linkedSubClaims acq, row.state = .active →
      row.holderSupervisorId = some supervisorId
  | .releaseInherited claimHandleId _ _ => s.OwnedBy supervisorId claimHandleId
  | .checkAndFireResolution claimHandleId => s.OwnedBy supervisorId claimHandleId
  | .settleFromFanoutChild parentId _ _ _ => s.MaySettle supervisorId parentId
  | .cancelInFlightSiblings _ _ => True
  | .cancelDescendantClaims rowId => ∀ row, s.claimHandle? rowId = some row → row.state ≠ .active
  | .elsewhere m => Steps Detached m

theorem ClaimCall.orderly {call : ClaimCall} (sound : s.ClaimsSound) (orderly : s.Orderly none none)
    (finishing : call.Finishing args.supervisorId s)
    (run : call.perform args (knot args fuel) s = (.ok post, s')) : s'.Orderly none none := by
  have ascends := knot_always args fuel
  have clears := knot_clears args fuel
  cases call with
  | releaseAcquiredLock acq success lk =>
    simp only [perform, Rimsky.releaseAcquiredLock] at run
    cases spec : lk.spec with
    | named name =>
      simp only [spec, Finishing] at run finishing
      rcases bind_eq_ok.mp run with ⟨_, mid, delete, done⟩
      cases done
      exact delete_orderly sound orderly finishing delete
    | claim claimSpec claimAlias =>
      simp only [spec, Finishing] at run finishing
      exact releaseClaim_orderly sound orderly finishing.1 finishing.2 run
  | resolveLinkedSubClaims acq success =>
    exact resolveLinkedSubClaims_orderly sound orderly finishing run
  | releaseInherited claimHandleId runId success =>
    rcases bind_eq_ok.mp run with ⟨_, mid, mark, check⟩
    have marks := markClaimHolderForRun_marks mark
    have owned : mid.OwnedBy args.supervisorId claimHandleId := by
      rcases marks with ⟨finish, -, -, rfl⟩
      exact finishing
    exact checkAndFireResolution_orderly (marks.sound sound) (marks.orderly orderly) owned check
  | checkAndFireResolution claimHandleId =>
    exact checkAndFireResolution_orderly sound (orderly.except _) finishing run
  | settleFromFanoutChild parentId childId childOutcome metadata =>
    have owed : s.Orderly (some parentId) (some parentId) := by
      refine { orderly.except (some parentId) with counted := ?_ }
      intro id h found active
      exact Nat.le_trans (orderly.counted id h found active)
        (Nat.add_le_add_left (by simp [owes]) _)
    exact settleFromFanoutChild_orderly clears ascends sound owed finishing run
  | cancelInFlightSiblings parentId triggerId =>
    have only : ∀ id, (none : Option Id) = some id → id = parentId := by rintro _ ⟨⟩
    exact cancelInFlightSiblings_orderly clears ascends only sound orderly run
  | cancelDescendantClaims rowId =>
    rcases cancelDescendantClaims_fells (knot_fellsDown args fuel) sound run with ⟨sound', fells⟩
    -- only handles split off from a resolved one are resolved
    refine orderly.lossless sound sound' fells.enrolls (fun _ _ => fells.toSettles.progress) ?_
    intro id h' found active childId child
    rcases fells.keeps.child fells.toSettles sound sound' found active child with still | below
    · exact still
    · rcases below with ⟨c, known, ofRow⟩
      rcases sound.mem_activeChildren.mp child with ⟨c', known', parent, -⟩
      rw [known] at known'
      cases known'
      rw [ofRow] at parent
      cases parent
      rcases fells.row found with ⟨h, old, advances⟩
      exact absurd (advances.was_active active) (finishing h old)
  | elsewhere m =>
    rcases bind_eq_ok.mp run with ⟨_, mid, step, done⟩
    cases done
    exact (Steps.run finishing step).orderly sound orderly

end Calls

theorem ClaimCall.Finishing.owned {call : ClaimCall} (finishing : call.Finishing supervisorId s) :
    call.Owned supervisorId s := by
  cases call with
  | releaseAcquiredLock acq success lk =>
    cases spec : lk.spec with
    | named name => simp only [Owned, spec]
    | claim claimSpec claimAlias =>
      simp only [Owned, Finishing, spec] at finishing ⊢
      refine finishing.2.imp_right ?_
      rintro ⟨row, found⟩
      exact ⟨row, found, finishing.1 row found⟩
  | resolveLinkedSubClaims acq success => exact finishing
  | releaseInherited claimHandleId runId success => trivial
  | checkAndFireResolution claimHandleId => trivial
  | settleFromFanoutChild parentId childId childOutcome metadata => exact finishing
  | cancelInFlightSiblings parentId triggerId => trivial
  | cancelDescendantClaims rowId => trivial
  | elsewhere m => exact steps_mono finishing fun _ _ => apart

/-- No handle is active, held by all members of its sub-graph and waits for nobody. -/
def Store.NoneStranded (s : Store) : Prop := ∀ h ∈ s.claimHandles, ¬s.Stranded h

/--
Settlements strand no handle in a run in which each settles handles for the supervisor that
holds them: whoever settles last resolves the handle.
-/
theorem noneStranded_of_finishing {s₀ s : Store} (sound : s₀.ClaimsSound)
    (orderly : s₀.Orderly none none)
    (run : Reaches ClaimSettlement.step (ClaimSettlement.Meets ClaimCall.Finishing) s₀ s)
    (t : ClaimSettlement) (meets : t.Meets ClaimCall.Finishing s) :
    (commit t.transaction s).2.NoneStranded := by
  have keeps : ∀ (t : ClaimSettlement) (s : Store), s.ClaimsSound ∧ s.Orderly none none →
      t.Meets ClaimCall.Finishing s →
      (commit t.transaction s).2.ClaimsSound ∧ (commit t.transaction s).2.Orderly none none := by
    intro t s inv meets
    refine (t.runs (I := fun s => s.ClaimsSound ∧ s.Orderly none none)
      (R := Disposes t.args.supervisorId) ?_ inv meets).1
    rintro call s post s' ⟨sound, orderly⟩ finishing run
    rcases call.disposes sound finishing.owned run with ⟨sound', disposes⟩
    exact ⟨⟨sound', call.orderly sound orderly finishing run⟩, disposes⟩
  have before : s.ClaimsSound ∧ s.Orderly none none := by
    refine run.invariant (I := fun s => s.ClaimsSound ∧ s.Orderly none none) ?_ ⟨sound, orderly⟩
    intro s t s' inv meets taken
    cases taken
    exact keeps t s inv meets
  rcases keeps t s before meets with ⟨sound', orderly'⟩
  intro h mem
  exact orderly'.noneStranded (sound'.find mem)

/-- The writer has settled its claim at the archive, and the reader holds it on. -/
def tandemStore (supervisorId : String) : Store where
  instances := [{ id := 1, template := twoVaults }]
  nodes := [joinedNode "writer" 1, joinedNode "reader" 2]
  runs := [joinedRun 1, { joinedRun 2 with state := .running }]
  claimHandles := [{ joinedHandle { name := "archive" } with
    holderSupervisorId := some supervisorId }]
  claimHolders := [joinedHolder 1, { joinedHolder 2 with state := .active }]
  nextId := 10

def readerSettles : ClaimSettlement where
  args := RunArgs.plain "b"
  fuel := 3
  calls := [.releaseInherited 1 2 true]

theorem tandemStore_sound (supervisorId : String) : (tandemStore supervisorId).ClaimsSound :=
  ⟨pendingFree_of_bounded (by simp [tandemStore, joinedHandle])
    (by simp [tandemStore, joinedHolder]) (by simp [tandemStore, joinedRun]),
    by simp [tandemStore], by simp [tandemStore]⟩

theorem tandemStore_heldBy (mem : h ∈ (tandemStore supervisorId).claimHandles)
    {sg : HoldingSubgraph} (heldBy : (tandemStore supervisorId).HeldBy h sg) :
    sg = { acquirerType := "writer", «alias» := "ledger", members := ["reader", "writer"] } := by
  rw [mem_singleton.mp mem] at heldBy
  rcases heldBy with ⟨acquirer, spec, acqDef, known, template, defined, ref, declared,
    named, found, -⟩
  cases known
  cases template
  cases defined
  simp only [mem_cons, not_mem_nil, or_false] at declared
  rcases declared with rfl | rfl
  · simp [joinedHandle] at named
  · have same : findHoldingSubgraph (holdingSubgraphsForTemplate twoVaults) "writer" "ledger" =
        some {
          acquirerType := "writer", «alias» := "ledger", members := ["reader", "writer"] } := by
      decide +kernel
    exact Option.some.inj (found.symm.trans same)

theorem tandemStore_orderly (supervisorId : String) :
    (tandemStore supervisorId).Orderly none none := by
  have only : ∀ id h, (tandemStore supervisorId).claimHandle? id = some h → id = 1 ∧
      h = { joinedHandle { name := "archive" } with holderSupervisorId := some supervisorId } := by
    intro id h found
    have same := mem_singleton.mp (mem_of_claimHandle? found)
    subst same
    exact ⟨(id_of_claimHandle? found).symm, rfl⟩
  refine ⟨?_, ?_, ?_, ?_, ?_⟩
  · intro id h found _
    rcases only id h found with ⟨-, rfl⟩
    simp
  · intro id h found _
    rcases only id h found with ⟨-, rfl⟩
    exact Nat.zero_le _
  · intro id h found _ _ _
    rcases only id h found with ⟨rfl, -⟩
    exact .inl ⟨_, mem_cons_of_mem _ mem_cons_self, rfl⟩
  · intro id h found _ x isHolder flying sg heldBy
    have known := mem_of_claimHandle? found
    rcases only id h found with ⟨rfl, rfl⟩
    refine ⟨"reader", ?_, ?_⟩
    · rw [tandemStore_heldBy known heldBy]
      simp
    · have rows : ∀ y ∈ (tandemStore supervisorId).holdersOf 1,
          y = joinedHolder 1 ∨ y = { joinedHolder 2 with state := .active } := by
        intro y mem
        simpa [tandemStore] using (mem_filter.mp mem).1
      rcases rows x isHolder with rfl | rfl
      · cases flying
      · refine ⟨rfl, fun y isHolder' ofType => ?_⟩
        rcases rows y isHolder' with rfl | rfl
        · have ofWriter : (tandemStore supervisorId).holderType? (joinedHolder 1) =
              some "writer" := rfl
          rw [ofWriter] at ofType
          simp at ofType
        · rfl
  · intro id h found _ sg sg' heldBy heldBy'
    have known := mem_of_claimHandle? found
    rw [tandemStore_heldBy known heldBy, tandemStore_heldBy known heldBy']

/-- The writer ran on supervisor a, which nothing makes look at the claim again. -/
theorem tandemStore_strands :
    (tandemStore "a").ClaimsSound ∧ (tandemStore "a").Orderly none none ∧
      (tandemStore "a").NoneStranded ∧
        ¬(commit readerSettles.transaction (tandemStore "a")).2.NoneStranded := by
  refine ⟨tandemStore_sound _, tandemStore_orderly _, ?_, ?_⟩
  · intro h mem
    exact (tandemStore_orderly "a").noneStranded ((tandemStore_sound "a").find mem)
  · intro none
    refine none { joinedHandle { name := "archive" } with holderSupervisorId := some "a" }
      (by decide)
      ⟨rfl, ⟨{ acquirerType := "writer", «alias» := "ledger", members := ["reader", "writer"] },
        ?_, ?_⟩, ?_⟩
    · exact ⟨joinedNode "writer" 1, twoVaults, _, rfl, rfl, rfl, _, mem_cons_of_mem _ mem_cons_self,
        rfl, by decide +kernel, rfl⟩
    · decide +kernel
    · rintro (⟨x, isHolder, flying⟩ | ⟨c, mem, parent, -⟩)
      · revert x
        decide +kernel
      · revert c
        decide +kernel

/-- On the supervisor of the writer, the reader resolves the claim. -/
theorem tandemStore_resolves :
    (tandemStore "b").ClaimsSound ∧ (tandemStore "b").Orderly none none ∧
      readerSettles.Meets ClaimCall.Finishing (tandemStore "b") ∧
      (commit readerSettles.transaction (tandemStore "b")).2.NoneStranded := by
  have meets : readerSettles.Meets ClaimCall.Finishing (tandemStore "b") := by
    refine ⟨?_, fun _ _ _ => trivial⟩
    intro row found _
    rw [mem_singleton.mp (mem_of_claimHandle? found)]
    rfl
  exact ⟨tandemStore_sound _, tandemStore_orderly _, meets,
    noneStranded_of_finishing (tandemStore_sound _) (tandemStore_orderly _) (.refl _) readerSettles
      meets⟩

end Rimsky
