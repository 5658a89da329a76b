import Mathlib.Data.List.MinMax
import Rimsky.Runtime.Acquire
import Rimsky.Runtime.AutoTerminal

/-!
# The claims held along with an upstream

A `holds` entry names an alias of an upstream node. Handle rows carry no alias, so
`lookupClaimHandleForAlias` translates the alias to the producer the upstream declares
for it and takes the latest usable handle that the upstream holds at that producer. The
table of handles says nothing about the aliases they were opened under; `opened` records
them, with none for the handles that a fan-out splits off.
-/

namespace Rimsky

open Transaction List Store Option

variable {h : ClaimHandle} {resolved : List ResolvedHold} {s' : Store} {r : ResolvedHold}

def ClaimHandle.UsableIn (h : ClaimHandle) (frameId : Id) : Prop :=
  (h.state = .active ∨ h.state = .committed) ∧ (h.lifetime = .durable ∨ h.frameId = some frameId)

section Latest

variable {s : Store} {upstream : Node} {spec : TemplateSpec} {heldAlias : String} {frameId : Id}
  {upstreamDef : TemplateNodeDef} {ref : NodeClaimProducerRef}

def Store.candidates (s : Store) (upstream : Node) (producerName : String) (frameId : Id) :
    List ClaimHandle :=
  (s.handlesByClaimedAt fun h => h.holderNodeId = upstream.id).filter fun h =>
    h.producerName = some producerName && (h.state = .active || h.state = .committed) &&
      (h.lifetime = .durable || h.frameId = some frameId)

theorem mem_candidates {producerName : String} :
    h ∈ s.candidates upstream producerName frameId ↔
      h ∈ s.claimHandles ∧ h.holderNodeId = upstream.id ∧ h.producerName = some producerName ∧
        h.UsableIn frameId := by
  simp [candidates, handlesByClaimedAt, mem_insertionSort, ClaimHandle.UsableIn,
    and_assoc]

section

variable (defined : spec.lookupNodeDef upstream.nodeType = some upstreamDef)

include defined

theorem claimHandleForAlias?_eq (declared :
    upstreamDef.claimProducers.find? (·.aliasOf = heldAlias) = some ref) :
    s.claimHandleForAlias? upstream spec heldAlias frameId =
      (s.candidates upstream ref.name frameId).argmax (·.claimedAt) := by
  simp only [claimHandleForAlias?, defined, bind_some, declared, map_some]
  congr 1
  funext best h
  cases best with
  | none => rfl
  | some b => rfl

theorem claimHandleForAlias?_some (found : s.claimHandleForAlias? upstream spec heldAlias frameId =
    some h) :
    ∃ ref ∈ upstreamDef.claimProducers, ref.aliasOf = heldAlias ∧ h.producerName = some ref.name ∧
      h ∈ s.claimHandles ∧ h.holderNodeId = upstream.id ∧ h.UsableIn frameId := by
  cases declared : upstreamDef.claimProducers.find? (·.aliasOf = heldAlias) with
  | none => simp [claimHandleForAlias?, defined, declared] at found
  | some ref =>
    rw [claimHandleForAlias?_eq defined declared] at found
    rcases mem_candidates.mp (argmax_mem found) with ⟨mem, ofUpstream, producer, usable⟩
    refine ⟨ref, mem_of_find?_eq_some declared, by simpa using find?_some declared, ?_⟩
    exact ⟨producer, mem, ofUpstream, usable⟩

theorem claimHandleForAlias?_latest (declared :
    upstreamDef.claimProducers.find? (·.aliasOf = heldAlias) = some ref)
    (mem : h ∈ s.claimHandles) (ofUpstream : h.holderNodeId = upstream.id)
    (producer : h.producerName = some ref.name) (usable : h.UsableIn frameId) :
    ∃ latest, s.claimHandleForAlias? upstream spec heldAlias frameId = some latest ∧
      h.claimedAt ≤ latest.claimedAt := by
  have candidate := mem_candidates.mpr ⟨mem, ofUpstream, producer, usable⟩
  rw [claimHandleForAlias?_eq defined declared]
  cases found : (s.candidates upstream ref.name frameId).argmax (·.claimedAt) with
  | none =>
    rw [argmax_eq_none.mp found] at candidate
    simp at candidate
  | some latest => exact ⟨latest, rfl, le_of_mem_argmax candidate found⟩

end

end Latest

def TemplateNodeDef.producerOfAlias? (n : TemplateNodeDef) (claimAlias : String) : Option String :=
  (n.claimProducers.find? (·.aliasOf = claimAlias)).map (·.name)

def TemplateSpec.splitProducer? (spec : TemplateSpec) (n : TemplateNodeDef) : Option String :=
  n.fanOut.bind fun fanOut =>
    match n.producerOfAlias? fanOut.claim with
    | some producerName => some producerName
    | none => (List.lookup fanOut.claim n.holds).bind fun binding =>
      (spec.lookupNodeDef binding.from).bind (·.producerOfAlias? fanOut.claim)

/--
The handles of an instance's nodes are those their definitions open: one under an alias has
the producer declared for it, one under no alias was split off by the fan-out.
-/
def Store.OpenedAs (s : Store) (spec : TemplateSpec) (instanceId : Id)
    (opened : Id → Option String) : Prop :=
  ∀ n ∈ s.instanceNodes instanceId, ∀ h ∈ s.claimHandles, h.holderNodeId = n.id →
    ∃ nodeDef, spec.lookupNodeDef n.nodeType = some nodeDef ∧
      ((∃ ref ∈ nodeDef.claimProducers, h.producerName = some ref.name ∧
          opened h.id = some ref.aliasOf) ∨
        (opened h.id = none ∧ ∀ producerName, h.producerName = some producerName →
          spec.splitProducer? nodeDef = some producerName))

/-- The handles that a frame's `holds` are resolved to are those of the aliases they name. -/
structure ResolvedRight (s : Store) (opened : Id → Option String) (instanceId frameId : Id)
    (nodeDef : TemplateNodeDef) (resolved : List ResolvedHold) : Prop where
  declared : ∀ r ∈ resolved, (r.heldAlias, r.binding) ∈ nodeDef.holds
  ofUpstream : ∀ r ∈ resolved, r.upstreamNode.nodeType = r.binding.from ∧
    r.claimHandle ∈ s.claimHandles ∧ r.claimHandle.holderNodeId = r.upstreamNode.id ∧
    r.claimHandle.UsableIn frameId
  underAlias : ∀ r ∈ resolved, opened r.claimHandle.id = some r.heldAlias
  latest : ∀ entry ∈ nodeDef.holds, ∀ upstream, s.holdUpstream? instanceId entry = some upstream →
    ∀ h ∈ s.claimHandles, h.holderNodeId = upstream.id → opened h.id = some entry.1 →
      h.UsableIn frameId → ∃ r ∈ resolved, r.heldAlias = entry.1 ∧ r.binding = entry.2 ∧
        h.claimedAt ≤ r.claimHandle.claimedAt
  apart : ∀ r ∈ resolved, ∀ r' ∈ resolved, r.heldAlias ≠ r'.heldAlias →
    r.claimHandle.id ≠ r'.claimHandle.id

/-- What is seen under the local alias of an entry belongs to a handle of the entry's alias. -/
def SeenRight (s : Store) (opened : Id → Option String) (nodeDef : TemplateNodeDef)
    (seen : List (String × ClaimResult)) : Prop :=
  ∀ entry ∈ nodeDef.holds, ∀ result,
    seen.lookup (effectiveHoldsLocalAlias entry.1 entry.2) = some result →
    ∃ h ∈ s.claimHandles, opened h.id = some entry.1 ∧
      result = { address := h.address, payload := h.payload, claimScope := h.claimScopeData }

/-- The holder rows that are new are rows of the run, each of a handle of a held alias. -/
def JoinedRight (s s' : Store) (opened : Id → Option String) (runId : Id)
    (nodeDef : TemplateNodeDef) : Prop :=
  ∀ holder ∈ s'.claimHolders, holder ∉ s.claimHolders →
    holder.holderRunId = runId ∧ ∃ entry ∈ nodeDef.holds, opened holder.claimHandleId = some entry.1

/-- In every store the aliases a node holds along stand for the handles opened under them. -/
def HoldsBindRight (spec : TemplateSpec) (nodeDef : TemplateNodeDef) : Prop :=
  ∀ (s : Store) (opened : Id → Option String) (instanceId frameId : Id),
    s.OpenedAs spec instanceId opened →
    (∀ requireUpstreamNode resolved s',
      resolveHolds instanceId frameId spec nodeDef requireUpstreamNode s = (.ok resolved, s') →
      ResolvedRight s opened instanceId frameId nodeDef resolved) ∧
    (∀ seen s', collectCoHeldClaims instanceId frameId spec nodeDef s = (.ok seen, s') →
      SeenRight s opened nodeDef seen) ∧
    ∀ (run : NodeRun) s', run.frameId = frameId →
      insertCoHolderClaimHoldersAtAcquire instanceId run spec nodeDef s = (.ok (), s') →
      JoinedRight s s' opened run.id nodeDef

/--
No other claim of the upstream and no part split off from one is at the producer that the
upstream declares for an alias that is held along.
-/
def ProducersTellApart (spec : TemplateSpec) (nodeDef : TemplateNodeDef) : Prop :=
  ∀ entry ∈ nodeDef.holds, ∀ upstreamDef ∈ spec.nodes, upstreamDef.type = entry.2.from →
    ∀ ref ∈ upstreamDef.claimProducers, ref.aliasOf = entry.1 →
      (∀ other ∈ upstreamDef.claimProducers, other.name = ref.name → other.aliasOf = ref.aliasOf) ∧
        spec.splitProducer? upstreamDef ≠ some ref.name

instance (spec : TemplateSpec) (nodeDef : TemplateNodeDef) :
    Decidable (ProducersTellApart spec nodeDef) :=
  inferInstanceAs (Decidable (∀ _ ∈ _, _))

section Holds

variable {hooks : RegistryHooks} {spec : TemplateSpec} {nodeDef : TemplateNodeDef} {s : Store}
  {opened : Id → Option String} {instanceId frameId : Id}

theorem resolveHolds_ok {requireUpstreamNode : Bool}
    (run : resolveHolds instanceId frameId spec nodeDef requireUpstreamNode s =
      (.ok resolved, s')) :
    s' = s ∧ resolved = (nodeDef.holds.filter (·.2.from ≠ "")).filterMap
      (s.resolvedHold? instanceId frameId spec) := by
  simp only [resolveHolds, read_bind, id_eq] at run
  split at run
  case isTrue => simp at run
  case isFalse =>
    cases run
    exact ⟨rfl, rfl⟩

variable {entry : String × HoldsBinding}

theorem holdUpstream?_some {upstream : Node}
    (found : s.holdUpstream? instanceId entry = some upstream) :
    upstream ∈ s.instanceNodes instanceId ∧ upstream.nodeType = entry.2.from :=
  ⟨mem_of_find?_eq_some found, by simpa using find?_some found⟩

theorem resolvedHold?_some (found : s.resolvedHold? instanceId frameId spec entry = some r) :
    r.heldAlias = entry.1 ∧ r.binding = entry.2 ∧
      s.holdUpstream? instanceId entry = some r.upstreamNode ∧
      s.claimHandleForAlias? r.upstreamNode spec entry.1 frameId = some r.claimHandle := by
  rcases bind_eq_some_iff.mp found with ⟨upstream, known, found⟩
  rcases map_eq_some_iff.mp found with ⟨h, lookedUp, rfl⟩
  exact ⟨rfl, rfl, known, lookedUp⟩

theorem resolvedHold_underAlias (apart : ProducersTellApart spec nodeDef)
    (openedAs : s.OpenedAs spec instanceId opened) (held : entry ∈ nodeDef.holds)
    (found : s.resolvedHold? instanceId frameId spec entry = some r) :
    opened r.claimHandle.id = some entry.1 ∧ r.claimHandle ∈ s.claimHandles ∧
      r.claimHandle.holderNodeId = r.upstreamNode.id ∧ r.claimHandle.UsableIn frameId := by
  rcases resolvedHold?_some found with ⟨-, -, known, lookedUp⟩
  rcases holdUpstream?_some known with ⟨upstreamMem, ofType⟩
  cases defined : spec.lookupNodeDef r.upstreamNode.nodeType with
  | none => simp [claimHandleForAlias?, defined] at lookedUp
  | some upstreamDef =>
    have defMem : upstreamDef ∈ spec.nodes := mem_of_find?_eq_some defined
    have defType : upstreamDef.type = entry.2.from := by
      rw [← ofType]
      simpa using find?_some defined
    rcases claimHandleForAlias?_some defined lookedUp with
      ⟨ref, refMem, refAlias, producer, mem, ofUpstream, usable⟩
    refine ⟨?_, mem, ofUpstream, usable⟩
    rcases apart entry held upstreamDef defMem defType ref refMem refAlias with ⟨only, unsplit⟩
    rcases openedAs r.upstreamNode upstreamMem r.claimHandle mem ofUpstream with
      ⟨sameDef, defined', under⟩
    rw [defined, some.injEq] at defined'
    subst defined'
    rcases under with ⟨other, otherMem, otherProducer, under⟩ | ⟨-, split⟩
    · have sameName : other.name = ref.name := by
        rw [producer, some.injEq] at otherProducer
        exact otherProducer.symm
      rw [under, only other otherMem sameName, refAlias]
    · exact (unsplit (split ref.name producer)).elim

section

variable (accepted : validateClaims hooks spec = [])

include accepted

theorem resolvedHold_latest (openedAs : s.OpenedAs spec instanceId opened) {upstream : Node}
    (known : s.holdUpstream? instanceId entry = some upstream) (mem : h ∈ s.claimHandles)
    (ofUpstream : h.holderNodeId = upstream.id) (under : opened h.id = some entry.1)
    (usable : h.UsableIn frameId) :
    ∃ r, s.resolvedHold? instanceId frameId spec entry = some r ∧
      h.claimedAt ≤ r.claimHandle.claimedAt := by
  rcases holdUpstream?_some known with ⟨upstreamMem, -⟩
  rcases openedAs upstream upstreamMem h mem ofUpstream with ⟨upstreamDef, defined, opening⟩
  rcases opening with ⟨ref, refMem, producer, underRef⟩ | ⟨underNone, -⟩
  · have sameAlias : ref.aliasOf = entry.1 := by
      rw [under, some.injEq] at underRef
      exact underRef.symm
    have declared := find?_aliasOf accepted (mem_of_find?_eq_some defined) refMem
    rw [sameAlias] at declared
    rcases claimHandleForAlias?_latest defined declared mem ofUpstream producer usable with
      ⟨latest, lookedUp, later⟩
    refine ⟨{ heldAlias := entry.1, binding := entry.2, upstreamNode := upstream
              claimHandle := latest }, ?_, later⟩
    simp only [resolvedHold?, known, bind_some, lookedUp, map_some]
  · rw [under] at underNone
    simp at underNone

theorem resolvedRight (mem : nodeDef ∈ spec.nodes) (apart : ProducersTellApart spec nodeDef)
    (openedAs : s.OpenedAs spec instanceId opened) {requireUpstreamNode : Bool}
    (run : resolveHolds instanceId frameId spec nodeDef requireUpstreamNode s =
      (.ok resolved, s')) :
    ResolvedRight s opened instanceId frameId nodeDef resolved := by
  rcases resolveHolds_ok run with ⟨-, rfl⟩
  have resolvedFrom : ∀ r ∈ (nodeDef.holds.filter (·.2.from ≠ "")).filterMap
      (s.resolvedHold? instanceId frameId spec), ∃ entry ∈ nodeDef.holds,
        s.resolvedHold? instanceId frameId spec entry = some r := by
    intro r resolved
    rcases mem_filterMap.mp resolved with ⟨entry, held, found⟩
    exact ⟨entry, (mem_filter.mp held).1, found⟩
  have underAlias : ∀ r ∈ (nodeDef.holds.filter (·.2.from ≠ "")).filterMap
      (s.resolvedHold? instanceId frameId spec), opened r.claimHandle.id = some r.heldAlias := by
    intro r resolved
    rcases resolvedFrom r resolved with ⟨entry, held, found⟩
    rw [(resolvedHold?_some found).1]
    exact (resolvedHold_underAlias apart openedAs held found).1
  refine ⟨?_, ?_, underAlias, ?_, ?_⟩
  · intro r resolved
    rcases resolvedFrom r resolved with ⟨entry, held, found⟩
    rcases resolvedHold?_some found with ⟨sameAlias, sameBinding, -, -⟩
    rw [sameAlias, sameBinding]
    exact held
  · intro r resolved
    rcases resolvedFrom r resolved with ⟨entry, held, found⟩
    rcases resolvedHold?_some found with ⟨-, sameBinding, known, -⟩
    rw [sameBinding]
    exact ⟨(holdUpstream?_some known).2, (resolvedHold_underAlias apart openedAs held found).2⟩
  · intro entry held upstream known h hMem ofUpstream under usable
    rcases resolvedHold_latest accepted openedAs known hMem ofUpstream under usable with
      ⟨r, found, later⟩
    rcases resolvedHold?_some found with ⟨sameAlias, sameBinding, -, -⟩
    have named : entry ∈ nodeDef.holds.filter (·.2.from ≠ "") := by
      simp [held, accepted_from_ne_empty accepted mem held]
    exact ⟨r, mem_filterMap.mpr ⟨entry, named, found⟩, sameAlias, sameBinding, later⟩
  · intro r resolved r' resolved' different same
    have under := underAlias r resolved
    rw [same, underAlias r' resolved', some.injEq] at under
    exact different under.symm

theorem seenRight (mem : nodeDef ∈ spec.nodes) (apart : ProducersTellApart spec nodeDef)
    (openedAs : s.OpenedAs spec instanceId opened) {seen : List (String × ClaimResult)}
    (run : collectCoHeldClaims instanceId frameId spec nodeDef s = (.ok seen, s')) :
    SeenRight s opened nodeDef seen := by
  rcases bind_eq_ok.mp run with ⟨resolved, mid, resolving, collected⟩
  cases collected
  have right := resolvedRight accepted mem apart openedAs resolving
  intro entry held result found
  rcases lookup_eq_some_iff.mp found with ⟨before, after, listed, -⟩
  have resultMem : (effectiveHoldsLocalAlias entry.1 entry.2, result) ∈
      before ++ (effectiveHoldsLocalAlias entry.1 entry.2, result) :: after := by simp
  rw [← listed] at resultMem
  rcases mem_map.mp resultMem with ⟨r, rMem, same⟩
  rw [Prod.mk.injEq] at same
  have sameEntry := accepted_localAlias_inj accepted mem (right.declared r rMem) held same.1
  refine ⟨r.claimHandle, (right.ofUpstream r rMem).2.1, ?_, same.2.symm⟩
  rw [right.underAlias r rMem, ← sameEntry]

end

def Joins (resolved : List ResolvedHold) (runId : Id) (s s' : Store) : Prop :=
  ∀ holder ∈ s'.claimHolders, holder ∈ s.claimHolders ∨
    (holder.holderRunId = runId ∧ ∃ r ∈ resolved, holder.claimHandleId = r.claimHandle.id)

instance (resolved : List ResolvedHold) (runId : Id) : IsPreorder Store (Joins resolved runId) where
  refl s holder mem := .inl mem
  trans s t u first second holder mem := by
    rcases second holder mem with old | new
    · exact first holder old
    · exact .inr new

theorem joins_insert {runId : Id} (mem : r ∈ resolved) :
    Steps (Joins resolved runId) (ClaimHolders.insert r.claimHandle.id runId) := by
  refine steps_bind ?_ fun id => steps_write fun s holder holderMem => ?_
  · intro s holder holderMem
    exact .inl holderMem
  · split at holderMem
    case isTrue => exact .inl holderMem
    case isFalse =>
      rcases mem_append.mp holderMem with old | new
      · exact .inl old
      · rw [mem_singleton.mp new]
        exact .inr ⟨rfl, r, mem, rfl⟩

theorem joinedRight (accepted : validateClaims hooks spec = []) (mem : nodeDef ∈ spec.nodes)
    (apart : ProducersTellApart spec nodeDef) (openedAs : s.OpenedAs spec instanceId opened)
    {run : NodeRun}
    (inserting : insertCoHolderClaimHoldersAtAcquire instanceId run spec nodeDef s = (.ok (), s')) :
    JoinedRight s s' opened run.id nodeDef := by
  rcases bind_eq_ok.mp inserting with ⟨resolved, mid, resolving, inserted⟩
  have right := resolvedRight accepted mem apart openedAs resolving
  have unchanged := (resolveHolds_ok resolving).1
  subst unchanged
  have joins : Steps (Joins resolved run.id)
      (resolved.forM fun r => ClaimHolders.insert r.claimHandle.id run.id) :=
    steps_forM fun r rMem => joins_insert rMem
  have joined := joins mid
  rw [inserted] at joined
  intro holder holderMem new
  rcases joined holder holderMem with old | ⟨ofRun, r, rMem, ofHandle⟩
  · exact (new old).elim
  · refine ⟨ofRun, _, right.declared r rMem, ?_⟩
    rw [ofHandle]
    exact right.underAlias r rMem

def reboundHandle (ref : NodeClaimProducerRef) (id : Id) : ClaimHandle :=
  { joinedHandle ref with id, claimedAt := id, isHeld := false }

def reboundStore (upstreamType : String) (ref : NodeClaimProducerRef) : Store where
  nodes := [joinedNode upstreamType 1]
  claimHandles := [reboundHandle ref 1, reboundHandle ref 2]

variable {upstreamDef : TemplateNodeDef} {ref : NodeClaimProducerRef}

theorem reboundStore_resolves (accepted : validateClaims hooks spec = [])
    (defMem : upstreamDef ∈ spec.nodes) (defType : upstreamDef.type = entry.2.from)
    (refMem : ref ∈ upstreamDef.claimProducers) (refAlias : ref.aliasOf = entry.1) :
    ∃ r, (reboundStore upstreamDef.type ref).resolvedHold? 1 1 spec entry = some r ∧
      r.heldAlias = entry.1 ∧ r.claimHandle.id = 2 := by
  have known : (reboundStore upstreamDef.type ref).holdUpstream? 1 entry =
      some (joinedNode upstreamDef.type 1) := by
    simp [holdUpstream?, instanceNodes, reboundStore, joinedNode, defType]
  have defined : spec.lookupNodeDef (joinedNode upstreamDef.type 1).nodeType = some upstreamDef :=
    lookupNodeDef_of_mem accepted defMem
  have declared := find?_aliasOf accepted defMem refMem
  rw [refAlias] at declared
  have second : reboundHandle ref 2 ∈ (reboundStore upstreamDef.type ref).claimHandles := by
    simp [reboundStore]
  rcases claimHandleForAlias?_latest defined declared second rfl rfl ⟨.inl rfl, .inr rfl⟩ with
    ⟨latest, lookedUp, later⟩
  refine ⟨{ heldAlias := entry.1, binding := entry.2, claimHandle := latest
            upstreamNode := joinedNode upstreamDef.type 1 }, ?_, rfl, ?_⟩
  · simp only [resolvedHold?, known, bind_some, lookedUp, map_some]
  · rcases claimHandleForAlias?_some defined lookedUp with ⟨-, -, -, -, latestMem, -, -⟩
    simp only [reboundStore, mem_cons, not_mem_nil, or_false] at latestMem
    rcases latestMem with rfl | rfl
    · simp [reboundHandle] at later
    · rfl

theorem reboundStore_binds (accepted : validateClaims hooks spec = []) (mem : nodeDef ∈ spec.nodes)
    (right : HoldsBindRight spec nodeDef) (held : entry ∈ nodeDef.holds)
    (defMem : upstreamDef ∈ spec.nodes) (defType : upstreamDef.type = entry.2.from)
    (refMem : ref ∈ upstreamDef.claimProducers) (refAlias : ref.aliasOf = entry.1)
    {later : Option String}
    (opening : (∃ other ∈ upstreamDef.claimProducers, other.name = ref.name ∧
      later = some other.aliasOf) ∨
      (later = none ∧ spec.splitProducer? upstreamDef = some ref.name)) :
    later = some entry.1 := by
  let opened : Id → Option String := fun id => if id = 2 then later else some ref.aliasOf
  have openedAs : (reboundStore upstreamDef.type ref).OpenedAs spec 1 opened := by
    intro n nMem h hMem ofNode
    have onlyNode : n = joinedNode upstreamDef.type 1 := by
      simpa [instanceNodes, reboundStore, joinedNode] using nMem
    subst onlyNode
    refine ⟨upstreamDef, lookupNodeDef_of_mem accepted defMem, ?_⟩
    simp only [reboundStore, mem_cons, not_mem_nil, or_false] at hMem
    rcases hMem with rfl | rfl
    · exact .inl ⟨ref, refMem, rfl, rfl⟩
    · rcases opening with ⟨other, otherMem, sameName, rfl⟩ | ⟨rfl, split⟩
      · exact .inl ⟨other, otherMem, by rw [sameName]; rfl, rfl⟩
      · refine .inr ⟨rfl, ?_⟩
        intro producerName producer
        cases producer
        exact split
  rcases reboundStore_resolves accepted defMem defType refMem refAlias with
    ⟨r, found, ofAlias, second⟩
  have resolved := (right _ opened 1 1 openedAs).1 false _ _ rfl
  have named : entry ∈ nodeDef.holds.filter (·.2.from ≠ "") := by
    simp [held, accepted_from_ne_empty accepted mem held]
  have under := resolved.underAlias r (mem_filterMap.mpr ⟨entry, named, found⟩)
  rw [second, ofAlias] at under
  exact under

/--
Held aliases stand for the claims opened under them in every store if and only if the
producers of the upstream tell its claims apart.
-/
theorem holdsBindRight_iff (accepted : validateClaims hooks spec = [])
    (mem : nodeDef ∈ spec.nodes) :
    HoldsBindRight spec nodeDef ↔ ProducersTellApart spec nodeDef := by
  constructor
  · intro right entry held upstreamDef defMem defType ref refMem refAlias
    refine ⟨?_, ?_⟩
    · intro other otherMem sameName
      have bound := reboundStore_binds accepted mem right held defMem defType refMem refAlias
        (.inl ⟨other, otherMem, sameName, rfl⟩)
      rw [some.injEq] at bound
      rw [bound, refAlias]
    · intro split
      have bound := reboundStore_binds accepted mem right held defMem defType refMem refAlias
        (.inr ⟨rfl, split⟩)
      simp at bound
  · intro apart s opened instanceId frameId openedAs
    refine ⟨?_, ?_, ?_⟩
    · intro requireUpstreamNode resolved s' run
      exact resolvedRight accepted mem apart openedAs run
    · intro seen s' run
      exact seenRight accepted mem apart openedAs run
    · intro run s' ofFrame inserting
      exact joinedRight accepted mem apart openedAs inserting

end Holds

def bothHeld : TemplateSpec where
  nodes := [
    vaultWriter,
    { type := "reader", executor := "worker"
      holds := [("drafts", { «from» := "writer" }), ("ledger", { «from» := "writer" })]
      subscribes := [{ node := "writer", type := "terminal/success" }] }]

/-- The drafts are opened first, so both aliases stand for the ledger. -/
theorem bothHeld_bind_wrong :
    validateClaims sharedVaultHooks bothHeld = [] ∧
      ∃ nodeDef ∈ bothHeld.nodes, ¬HoldsBindRight bothHeld nodeDef := by
  refine ⟨by decide +kernel, _, mem_cons_of_mem _ mem_cons_self, ?_⟩
  intro right
  let opened : Id → Option String := fun id => if id = 1 then some "drafts" else some "ledger"
  have openedAs : (reboundStore "writer" { name := "vault" }).OpenedAs bothHeld 1 opened := by
    intro n nMem h hMem ofNode
    rw [mem_singleton.mp nMem]
    refine ⟨_, rfl, .inl ?_⟩
    rcases mem_cons.mp hMem with rfl | hMem
    · exact ⟨_, mem_cons_self, rfl, rfl⟩
    · rw [mem_singleton.mp hMem]
      exact ⟨_, mem_cons_of_mem _ mem_cons_self, rfl, rfl⟩
  have bound := ((right _ opened 1 1 openedAs).1 true _ _ rfl).underAlias
  revert bound
  decide +kernel

/-- With the claims at two vaults every alias is bound right. -/
theorem twoVaults_bind_right :
    ∃ nodeDef ∈ twoVaults.nodes, nodeDef.holds ≠ [] ∧ HoldsBindRight twoVaults nodeDef := by
  refine ⟨_, mem_cons_of_mem _ mem_cons_self, by decide, ?_⟩
  have accepted : validateClaims sharedVaultHooks twoVaults = [] := by decide +kernel
  exact (holdsBindRight_iff accepted (mem_cons_of_mem _ mem_cons_self)).mpr (by decide)

end Rimsky
