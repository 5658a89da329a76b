import Rimsky.Runtime.Stranded

/-!
# Cancelling the siblings of an abandoned sub-claim

`ResolveClaimHandleTerminal`, `SettleFromFanoutChild`, `cancelInFlightSiblings` and
`cancelDescendantClaims` call each other while the table they list changes. Going down, a handle
is resolved after what was split off from it; going up, a strict parent counts the child and
cancels the others, the first of which cancels all that are left and settles the parent, so that
the outer calls find nothing to do.

Depth bounds the way down, and the number of active handles the way up: it falls with every
promotion, and a call that ascends has promoted its handle.
-/

namespace Rimsky

open Transaction List Store ClaimHandles TerminalDecision TerminalOutcome

variable {supervisorId : String} {s s' : Store} {h : ClaimHandle} {td : TerminalDecision}
  {rows : List ClaimHandle} {post cancelled : List PostCommit} {parentId triggerId childId : Id}
  {childOutcome : TerminalOutcome} {metadata : Option String} {k k' : Nat}

def Store.Barren (s : Store) (id : Id) : Prop :=
  ∀ childId c, s.claimHandle? childId = some c → c.parentClaimHandleId = some id → c.state ≠ .active

/--
Handles lie deeper than what they were split off from, nothing in flight hangs below a resolved
handle, and what is in flight is held by the supervisor.
-/
structure Store.Forest (s : Store) (supervisorId : String) (depth : Id → Nat) : Prop where
  sound : s.ClaimsSound
  deeper : ∀ id h p, s.claimHandle? id = some h → h.parentClaimHandleId = some p →
    depth p < depth id
  owned : ∀ id h, s.claimHandle? id = some h → h.state = .active →
    h.holderSupervisorId = some supervisorId
  severed : ∀ id h, s.claimHandle? id = some h → h.state ≠ .active → s.Barren id

theorem Store.Barren.ages {id : Id} (barren : s.Barren id) (ages : Ages s s') : s'.Barren id := by
  intro childId c' found parent active
  rcases ages childId c' found with ⟨c, old, sameParent, wasActive⟩
  exact barren childId c old (sameParent ▸ parent) (wasActive active)

variable {depth : Id → Nat}

theorem Store.Forest.of_rows (sound : s.ClaimsSound)
    (deeper : ∀ h ∈ s.claimHandles, ∀ p, h.parentClaimHandleId = some p → depth p < depth h.id)
    (owned : ∀ h ∈ s.claimHandles, h.state = .active → h.holderSupervisorId = some supervisorId)
    (severed : ∀ h ∈ s.claimHandles, h.state ≠ .active → ∀ c ∈ s.claimHandles,
      c.parentClaimHandleId = some h.id → c.state ≠ .active) : s.Forest supervisorId depth := by
  refine ⟨sound, ?_, ?_, ?_⟩
  · intro id h p found parent
    rw [← id_of_claimHandle? found]
    exact deeper h (mem_of_claimHandle? found) p parent
  · intro id h found
    exact owned h (mem_of_claimHandle? found)
  · intro id h found resolved childId c known parent
    rw [← id_of_claimHandle? found] at parent
    exact severed h (mem_of_claimHandle? found) resolved c (mem_of_claimHandle? known) parent

section

variable (forest : s.Forest supervisorId depth)

include forest

theorem Store.Forest.settles (sound' : s'.ClaimsSound) (settles : Settles supervisorId s s')
    (severed : ∀ id h, s'.claimHandle? id = some h → h.state ≠ .active → s'.Barren id) :
    s'.Forest supervisorId depth := by
  refine ⟨sound', ?_, ?_, severed⟩
  · intro id h' p found parent
    rcases settles.row found with ⟨h, old, advances⟩
    exact forest.deeper id h p old (advances.parent ▸ parent)
  · intro id h' found active
    rcases settles.row found with ⟨h, old, advances⟩
    exact advances.owned (forest.owned id h old (advances.was_active active)) active

theorem Store.Forest.of_same (sound' : s'.ClaimsSound)
    (handles : s'.claimHandles = s.claimHandles) : s'.Forest supervisorId depth := by
  have same := claimHandle?_of_same handles
  refine ⟨sound', ?_, ?_, ?_⟩
  · intro id h p found
    exact forest.deeper id h p ((same id).symm.trans found)
  · intro id h found
    exact forest.owned id h ((same id).symm.trans found)
  · intro id h found resolved
    exact (forest.severed id h ((same id).symm.trans found) resolved).ages (.of_same handles)

theorem Store.Forest.parent_active {id p : Id} {parent : ClaimHandle}
    (found : s.claimHandle? id = some h) (active : h.state = .active)
    (ofParent : h.parentClaimHandleId = some p) (known : s.claimHandle? p = some parent) :
    parent.state = .active := by
  by_contra resolved
  exact forest.severed p parent known resolved id h found ofParent active

end

structure ClaimHandle.Reshapes (bumps falls : Prop) (h h' : ClaimHandle) : Prop where
  policy : h'.aggregationPolicy = h.aggregationPolicy
  parent : h'.parentClaimHandleId = h.parentClaimHandleId
  counts : ¬bumps → h'.committedChildrenCount = h.committedChildrenCount ∧
    h'.abandonedChildrenCount = h.abandonedChildrenCount
  state : h'.state = h.state ∨ falls

theorem ClaimHandle.Reshapes.refl (bumps falls : Prop) (h : ClaimHandle) :
    h.Reshapes bumps falls h := ⟨rfl, rfl, fun _ => ⟨rfl, rfl⟩, .inl rfl⟩

/-- Which rows may count and which may fall is said by their ids and their parents. -/
def Reshapes (bumps : Id → Prop) (falls : Id → Option Id → Prop) (s s' : Store) : Prop :=
  ∀ id h, s.claimHandle? id = some h → ∃ h', s'.claimHandle? id = some h' ∧
    h.Reshapes (bumps id) (falls id h.parentClaimHandleId) h'

namespace Reshapes

variable {bumps bumps' : Id → Prop} {falls falls' : Id → Option Id → Prop} {s mid s' : Store}

theorem of_map {change : ClaimHandle → ClaimHandle} (sameId : ∀ h, (change h).id = h.id)
    (handles : s'.claimHandles = s.claimHandles.map change)
    (each : ∀ h ∈ s.claimHandles,
      h.Reshapes (bumps h.id) (falls h.id h.parentClaimHandleId) (change h)) :
    Reshapes bumps falls s s' := by
  intro id h found
  refine ⟨change h, by rw [claimHandle?_of_map handles sameId, found]; rfl, ?_⟩
  have here := each h (mem_of_claimHandle? found)
  rwa [id_of_claimHandle? found] at here

theorem of_same (handles : s'.claimHandles = s.claimHandles) : Reshapes bumps falls s s' :=
  of_map (fun _ => rfl) (handles.trans (map_id _).symm) fun h _ => .refl _ _ h

instance : IsPreorder Store (Reshapes bumps falls) where
  refl _ := of_same rfl
  trans a b c first second := by
    intro id h found
    rcases first id h found with ⟨h', between, reshapes⟩
    rcases second id h' between with ⟨h'', after, reshapes'⟩
    rw [reshapes.parent] at reshapes'
    refine ⟨h'', after, reshapes'.policy.trans reshapes.policy,
      reshapes'.parent.trans reshapes.parent, fun still => ?_, ?_⟩
    · rcases reshapes.counts still with ⟨committed, abandoned⟩
      rcases reshapes'.counts still with ⟨committed', abandoned'⟩
      exact ⟨committed'.trans committed, abandoned'.trans abandoned⟩
    · rcases reshapes'.state with same | falls
      · rw [same]
        exact reshapes.state
      · exact .inr falls

theorem mono (reshapes : Reshapes bumps falls s s') (moreBumps : ∀ id, bumps id → bumps' id)
    (moreFalls : ∀ id h, s.claimHandle? id = some h → falls id h.parentClaimHandleId →
      falls' id h.parentClaimHandleId) : Reshapes bumps' falls' s s' := by
  intro id h found
  rcases reshapes id h found with ⟨h', after, policy, parent, counts, state⟩
  exact ⟨h', after, policy, parent, fun still => counts (still ∘ moreBumps id),
    state.imp_right (moreFalls id h found)⟩

theorem row (reshapes : Reshapes bumps falls s s') {id : Id} {h' : ClaimHandle}
    (found : s.claimHandle? id = some h) (after : s'.claimHandle? id = some h') :
    h.Reshapes (bumps id) (falls id h.parentClaimHandleId) h' := by
  rcases reshapes id h found with ⟨h'', after', reshapes⟩
  rw [after] at after'
  cases after'
  exact reshapes

end Reshapes

structure Thins (supervisorId : String) (bumps : Id → Prop) (falls : Id → Option Id → Prop)
    (s s' : Store) : Prop extends Resolves supervisorId .always s s' where
  reshapes : Reshapes bumps falls s s'

namespace Thins

variable {supervisorId : String} {bumps bumps' : Id → Prop} {falls falls' : Id → Option Id → Prop}
  {s s' : Store}

instance : IsPreorder Store (Thins supervisorId bumps falls) where
  refl s := ⟨refl s, refl s⟩
  trans a b c first second := ⟨IsTrans.trans a b c first.toResolves second.toResolves,
    IsTrans.trans a b c first.reshapes second.reshapes⟩

theorem ages (thins : Thins supervisorId bumps falls s s') : Ages s s' := thins.toSettles.ages

theorem mono (thins : Thins supervisorId bumps falls s s')
    (moreBumps : ∀ id, bumps id → bumps' id)
    (moreFalls : ∀ id h, s.claimHandle? id = some h → falls id h.parentClaimHandleId →
      falls' id h.parentClaimHandleId) : Thins supervisorId bumps' falls' s s' :=
  ⟨thins.toResolves, thins.reshapes.mono moreBumps moreFalls⟩

end Thins

theorem ClaimHandle.unbound_reshapes (bumps falls : Prop) (h : ClaimHandle) (gone : Id → Bool) :
    h.Reshapes bumps falls (h.unbound gone) := by
  unfold ClaimHandle.unbound
  split
  · exact ⟨rfl, rfl, fun _ => ⟨rfl, rfl⟩, .inl rfl⟩
  · exact .refl _ _ h

theorem TerminalDecision.promotion_reshapes (td : TerminalDecision) (now : Nat) (bumps : Prop)
    (h : ClaimHandle) : h.Reshapes bumps (h.id = td.claimHandleId) (td.promotion now h) := by
  unfold promotion
  split
  case isTrue fits =>
    simp only [Bool.and_eq_true, decide_eq_true_eq] at fits
    exact ⟨rfl, rfl, fun _ => ⟨rfl, rfl⟩, .inr fits.1⟩
  case isFalse => exact .refl _ _ h

section Forest

variable {args : RunArgs} {rec : Rec} {depth : Id → Nat}

/-- Where no handle is resolved the forest stands. -/
theorem Store.Forest.upright {bumps : Id → Prop} (forest : s.Forest supervisorId depth)
    (sound' : s'.ClaimsSound) (settles : Settles supervisorId s s')
    (reshapes : Reshapes bumps (fun _ _ => False) s s') : s'.Forest supervisorId depth := by
  refine forest.settles sound' settles fun id h' found resolved => ?_
  rcases settles.row found with ⟨h, old, -⟩
  have same := (reshapes.row old found).state.resolve_right not_false
  exact (forest.severed id h old (same ▸ resolved)).ages settles.ages

theorem Apart.reshapes (apart : Apart s s') (sound : s.ClaimsSound) {bumps : Id → Prop}
    {falls : Id → Option Id → Prop} : Reshapes bumps falls s s' := by
  rcases apart sound.free with ⟨-, gone, -, handles, -⟩
  exact .of_map (·.unbound_id gone) handles fun h _ => h.unbound_reshapes _ _ gone

theorem Apart.thins (apart : Apart s s') (forest : s.Forest supervisorId depth) (bumps : Id → Prop)
    (falls : Id → Option Id → Prop) :
    s'.Forest supervisorId depth ∧ Thins supervisorId bumps falls s s' := by
  have settled : s'.ClaimsSound ∧ Resolves supervisorId .always s s' := apart.resolves forest.sound
  rcases settled with ⟨sound', resolves⟩
  have reshapes : Reshapes (fun _ => True) (fun _ _ => False) s s' := apart.reshapes forest.sound
  exact ⟨forest.upright sound' resolves.toSettles reshapes, resolves, apart.reshapes forest.sound⟩

def Deep (depth : Id → Nat) (k : Nat) (parent : Option Id) : Prop :=
  ∃ q, parent = some q ∧ k ≤ depth q

def TerminalDecision.Fells (td : TerminalDecision) (depth : Id → Nat) (id : Id)
    (parent : Option Id) : Prop := id = td.claimHandleId ∨
      Deep depth (depth td.claimHandleId) parent

def Store.Ends (s : Store) (td : TerminalDecision) : Prop :=
  ∃ row, s.claimHandle? td.claimHandleId = some row ∧ row.state = td.outcome.state

theorem Store.Ends.resolved (ends : s.Ends td) : s.Resolved td.claimHandleId := by
  rcases ends with ⟨row, known, decided⟩
  intro h found
  rw [known] at found
  cases found
  rw [decided]
  exact td.outcome.state_ne_active

/-- What becomes of a strict parent when a child of it is abandoned. -/
structure Cancels (parentId : Id) (s s' : Store) : Prop where
  barren : s'.Barren parentId
  tally : ∀ p p', s.claimHandle? parentId = some p → s'.claimHandle? parentId = some p' →
    p'.committedChildrenCount + p'.abandonedChildrenCount =
      p.committedChildrenCount + p.abandonedChildrenCount + (s.activeChildren parentId).length
  doomed : ∀ p', s'.claimHandle? parentId = some p' →
    0 < p'.abandonedChildrenCount ∧ p'.state ≠ .committed
  settled : (∀ x ∈ s.holdersOf parentId, x.state ≠ .active) →
    ∀ p', s'.claimHandle? parentId = some p' → p'.state = .abandoned

def ClaimHandle.IsStrict (h : ClaimHandle) : Prop := h.aggregationPolicy.any (·.kind = .strict)

theorem ClaimHandle.Reshapes.strict {bumps falls : Prop} {h' : ClaimHandle}
    (reshapes : h.Reshapes bumps falls h') (strict : h.IsStrict) : h'.IsStrict := by
  rwa [IsStrict, reshapes.policy]

structure Thinning (args : RunArgs) (depth : Id → Nat)
    (resolve : TerminalDecision → Tx (List PostCommit)) : Prop where
  thins : ∀ td row s s' post, s.Forest args.supervisorId depth →
    s.Decides args.supervisorId td row → (td.outcome = .commit → s.Barren td.claimHandleId) →
    resolve td s = (.ok post, s') → s'.Forest args.supervisorId depth ∧
      Thins args.supervisorId (fun id => ¬s.Barren id) (fun _ _ => True) s s' ∧ s'.Ends td
  descends : ∀ td row s s' post k, s.Forest args.supervisorId depth →
    s.Decides args.supervisorId td row → td.outcome.isAbandon → td.parentClaimHandleId = none →
    Deep depth k row.parentClaimHandleId → resolve td s = (.ok post, s') →
      Thins args.supervisorId (fun _ => False) (fun _ parent => Deep depth k parent) s s'
  cancels : ∀ td row s s' post parentId p, s.Forest args.supervisorId depth →
    s.Decides args.supervisorId td row → td.outcome.isAbandon →
    td.parentClaimHandleId = some parentId → s.claimHandle? parentId = some p → p.IsStrict →
    resolve td s = (.ok post, s') → Cancels parentId s s'

def Store.LeftOf (s : Store) (supervisorId : String) (rows left : List ClaimHandle) : Prop :=
  ∀ row ∈ rows, row ∈ left ∧ row.holderSupervisorId = some supervisorId ∨ s.Resolved row.id

theorem Store.Forest.leftOf (forest : s.Forest supervisorId depth)
    (mem : ∀ row ∈ rows, row ∈ s.claimHandles) : s.LeftOf supervisorId rows rows := by
  intro row listed
  have found := forest.sound.find (mem row listed)
  by_cases active : row.state = .active
  · exact .inl ⟨listed, forest.owned _ _ found active⟩
  · refine .inr fun h known => ?_
    rw [found] at known
    cases known
    exact active

variable {row : ClaimHandle}

theorem Store.LeftOf.skip {left : List ClaimHandle}
    (leftOf : s.LeftOf supervisorId rows (row :: left))
    (resolved : row.holderSupervisorId = some supervisorId → s.Resolved row.id) :
    s.LeftOf supervisorId rows left := by
  intro row' listed
  rcases leftOf row' listed with ⟨mem, mine⟩ | done
  · rcases mem_cons.mp mem with same | mem
    · subst same
      exact .inr (resolved mine)
    · exact .inl ⟨mem, mine⟩
  · exact .inr done

theorem Store.LeftOf.settles {left : List ClaimHandle} (leftOf : s.LeftOf supervisorId rows left)
    (settles : Settles supervisorId s s') : s'.LeftOf supervisorId rows left := by
  intro row listed
  exact (leftOf row listed).imp_right (·.settles settles)

theorem Store.LeftOf.done (leftOf : s.LeftOf supervisorId rows []) :
    ∀ row ∈ rows, s.Resolved row.id := by
  intro row listed
  rcases leftOf row listed with ⟨mem, -⟩ | done
  · cases mem
  · exact done

section

variable (thinning : Thinning args depth rec.resolveClaimHandleTerminal)
  (forest : s.Forest args.supervisorId depth)

include thinning forest

theorem cancelDescendantClaims_thins {rowId : Id}
    (run : cancelDescendantClaims args rec rowId s = (.ok post, s')) :
    s'.Forest args.supervisorId depth ∧ Thins args.supervisorId (fun _ => False)
      (fun _ parent => Deep depth (depth rowId) parent) s s' ∧ s'.Barren rowId := by
  have listed : ∀ row ∈ s.claimHandles.filter (·.parentClaimHandleId = some rowId),
      row ∈ s.claimHandles := fun row mem => (mem_filter.mp mem).1
  have walked := cancelClaimHandleWalk_loop
    (R := Thins args.supervisorId (fun _ => False) fun _ parent => Deep depth (depth rowId) parent)
    (I := fun left t => t.Forest args.supervisorId depth ∧ t.LeftOf args.supervisorId
      (s.claimHandles.filter (·.parentClaimHandleId = some rowId)) left)
    (fun _ _ thins => thins.toSettles) ?_ ?_ ⟨forest, forest.leftOf listed⟩
    (s.lists_of_mem forest.sound listed _) run
  · rcases walked with ⟨⟨forest', leftOf⟩, thins⟩
    refine ⟨forest', thins, ?_⟩
    intro childId c' found parent
    rcases thins.row found with ⟨c, old, advances⟩
    have mem : c ∈ s.claimHandles.filter (·.parentClaimHandleId = some rowId) :=
      mem_filter.mpr ⟨mem_of_claimHandle? old, by simpa [advances.parent] using parent⟩
    have resolved := leftOf.done c mem
    rw [id_of_claimHandle? old] at resolved
    exact resolved c' found
  · rintro row left t ⟨forest, leftOf⟩ resolved
    exact ⟨forest, leftOf.skip resolved⟩
  · rintro row mem left td h t t' post ⟨forest, leftOf⟩ cancelling run
    have abandons : td.outcome.isAbandon := by rw [cancelling.decided]; rfl
    have ofParent : row.parentClaimHandleId = some rowId := by simpa using (mem_filter.mp mem).2
    rcases thinning.thins td h t t' post forest cancelling.toDecides (not_commit abandons) run with
      ⟨forest', thins, ends⟩
    have down := thinning.descends td h t t' post (depth rowId) forest cancelling.toDecides abandons
      cancelling.up ⟨rowId, cancelling.advances.parent.trans ofParent, Nat.le_refl _⟩ run
    exact ⟨⟨forest', (leftOf.settles thins.toSettles).skip
      fun _ => cancelling.ofRow ▸ ends.resolved⟩, down⟩

theorem DecisionRuns.thins {s₁ s₂ s₃ s₄ : Store} (runs : DecisionRuns args rec td s s₁ s₂ s₃ s₄)
    (descends : Descends args rec) (gate : ∀ id, Steps Apart (rec.evaluateOneGate id))
    (decides : s.Decides args.supervisorId td row)
    (barren : td.outcome = .commit → s.Barren td.claimHandleId) :
    s₄.Forest args.supervisorId depth ∧
      Thins args.supervisorId (fun _ => False) (td.Fells depth) s s₄ ∧ s₄.Ends td := by
  have settled : s₄.ClaimsSound ∧ Resolves args.supervisorId .always s s₄ ∧ s₄.Ends td :=
    runs.resolves descends gate forest.sound decides fun _ => trivial
  rcases settled with ⟨sound₄, resolves, ends⟩
  rcases enqueueProducerVerb_queues forest.sound runs.queue with ⟨sound₁, queues⟩
  have forest₁ := forest.of_same sound₁ queues.handles
  have descended : s₂.Forest args.supervisorId depth ∧
      Reshapes (fun _ => False) (td.Fells depth) s₁ s₂ ∧ s₂.Barren td.claimHandleId := by
    by_cases commits : td.outcome = .commit
    · rw [runs.keep commits]
      exact ⟨forest₁, refl _, (barren commits).ages (.of_same queues.handles)⟩
    · rcases runs.descend commits with ⟨cancelled, descend⟩
      rcases cancelDescendantClaims_thins thinning forest₁ descend with ⟨forest₂, thins, barren₂⟩
      exact ⟨forest₂, thins.reshapes.mono (fun _ none => none) fun _ _ _ deep => .inr deep, barren₂⟩
  rcases descended with ⟨forest₂, reshapes₂, barren₂⟩
  rcases runs.defers gate forest₂.sound with ⟨sound₃, apart⟩
  refine ⟨forest.settles sound₄ resolves.toSettles ?_, ⟨resolves, ?_⟩, ends⟩
  · intro id h₄ found resolved
    have ages := runs.ages gate forest₂.sound
    refine Store.Barren.ages ?_ ages
    by_cases this : id = td.claimHandleId
    · rw [this]
      exact barren₂
    · rcases ages id h₄ found with ⟨h₂, between, -, -⟩
      rcases runs.others gate forest₂.sound this between with ⟨gone, after⟩
      rw [found] at after
      cases after
      exact forest₂.severed id h₂ between (h₂.unbound_state gone ▸ resolved)
  · have queued : Reshapes (fun _ => False) (td.Fells depth) s s₁ := .of_same queues.handles
    have reshapes₃ : Reshapes (fun _ => False) (td.Fells depth) s₂ s₃ := by
      rw [promoteHandleState_ok runs.promote]
      refine .of_map (td.promotion_id _) rfl fun h _ => ?_
      rcases td.promotion_reshapes s₂.clock False h with ⟨policy, parent, counts, state⟩
      exact ⟨policy, parent, counts, state.imp_right .inl⟩
    exact IsTrans.trans _ _ _ queued (IsTrans.trans _ _ _ reshapes₂
      (IsTrans.trans _ _ _ reshapes₃ (apart.reshapes sound₃)))

omit thinning in
theorem bumpChildOutcomeCount_thins {id : Id} {holder : String} {committed : Bool} {u : Unit}
    (run : ClaimHandles.bumpChildOutcomeCount id holder committed 1 s = (.ok u, s')) :
    s'.Forest args.supervisorId depth ∧
      Thins args.supervisorId (· = id) (fun _ _ => False) s s' := by
  have settled : s'.ClaimsSound ∧ Resolves args.supervisorId .always s s' :=
    bumpChildOutcomeCount_resolves forest.sound run
  rcases settled with ⟨sound', resolves⟩
  have reshapes : Reshapes (· = id) (fun _ _ => False) s s' := by
    rw [bumpChildOutcomeCount_ok run]
    refine .of_map (ClaimHandle.counted_id _ _ _) rfl fun h _ => ?_
    rcases h.counted_eq id holder committed with ⟨c, a, same, -, counts⟩
    rw [same]
    exact ⟨rfl, rfl, counts, .inl rfl⟩
  exact ⟨forest.upright sound' resolves.toSettles reshapes, resolves, reshapes⟩

theorem cancelInFlightSiblings_thins
    (run : cancelInFlightSiblings args rec parentId triggerId s = (.ok post, s')) :
    s'.Forest args.supervisorId depth ∧
      Thins args.supervisorId (fun id => ¬s.Barren id) (fun _ _ => True) s s' := by
  have walked := cancelInFlightSiblings_runs
    (R := Thins args.supervisorId (fun id => ¬s.Barren id) fun _ _ => True)
    (I := fun t => t.Forest args.supervisorId depth ∧ ∀ id, s.Barren id → t.Barren id)
    (fun _ _ thins => thins.toSettles) ?_ forest.sound ⟨forest, fun _ barren => barren⟩ run
  · exact ⟨walked.1.1, walked.2⟩
  · rintro row td h t t' post - ⟨forest, fewer⟩ cancelling run
    rcases thinning.thins td h t t' post forest cancelling.toDecides (by simp [cancelling.decided])
      run with ⟨forest', thins, -⟩
    exact ⟨⟨forest', fun id barren => (fewer id barren).ages thins.ages⟩,
      thins.mono (fun id some barren => some (fewer id barren)) fun _ _ _ _ => trivial⟩

omit thinning in
/-- The supervisor holds the parent already, which is barren by now. -/
theorem Readies.of_forest {p : ClaimHandle} {holder : String} {mid : Store}
    (readies : Readies args parentId childOutcome p row holder td s mid s') :
    Apart s s' ∧ s.Barren parentId := by
  constructor
  · have mine := forest.owned parentId p readies.found readies.flew
    rw [readies.held] at mine
    cases mine
    rw [readies.passes, show (fun h : ClaimHandle => h.reassigned parentId _ _) = id from
      funext (ClaimHandle.reassigned_self _ _), mapHandles, map_id]
    exact readies.apart
  · intro childId c known ofHandle flying
    exact readies.landed (.inr ⟨c, mem_of_claimHandle? known, ofHandle, flying⟩)

theorem settleReady_thins
    (run : settleReady args rec parentId childOutcome cancelled s = (.ok post, s')) :
    s'.Forest args.supervisorId depth ∧
      Thins args.supervisorId (fun id => ¬s.Barren id) (fun _ _ => True) s s' := by
  rcases settleReady_runs forest.sound run with
    ⟨rfl, -⟩ | ⟨td, parent, row, holder, mid, s₁, post', readies, run⟩
  · exact ⟨forest, refl _⟩
  rcases readies.of_forest forest with ⟨apart, barren⟩
  rcases apart.thins forest (fun id => ¬s.Barren id) (fun _ _ => True) with ⟨forest₁, thins₁⟩
  rcases thinning.thins td row s₁ s' post' forest₁ readies.toDecides
    (fun _ => readies.ofParent ▸ barren.ages thins₁.ages) run with ⟨forest', thins, -⟩
  refine ⟨forest', IsTrans.trans _ _ _ thins₁ (thins.mono ?_ fun _ _ _ _ => trivial)⟩
  exact fun id some barren => some (barren.ages thins₁.ages)

theorem settleFromFanoutChild_thins
    (run : settleFromFanoutChild args rec parentId childId childOutcome metadata s =
      (.ok post, s')) :
    s'.Forest args.supervisorId depth ∧
      Thins args.supervisorId (fun id => id = parentId ∨ ¬s.Barren id) (fun _ _ => True) s s' := by
  rcases settleFromFanoutChild_runs run with ⟨-, same⟩ | ⟨parent, s₁, found, record, rest⟩
  · rw [same]
    exact ⟨forest, refl _⟩
  have apart := (Apart.walking.recordChildCommitMetadata _ _ _ _).run record
  rcases apart.thins forest (fun id => id = parentId ∨ ¬s.Barren id) (fun _ _ => True) with
    ⟨forest₁, thins₁⟩
  rcases rest with ⟨-, same⟩ | ⟨holder, s₂, cancelled, s₃, -, -, bump, cancel, ready⟩
  · rw [same]
    exact ⟨forest₁, thins₁⟩
  rcases bumpChildOutcomeCount_thins forest₁ bump with ⟨forest₂, thins₂⟩
  have thins₂ : Thins args.supervisorId (fun id => id = parentId ∨ ¬s.Barren id) (fun _ _ => True)
      s s₂ := IsTrans.trans _ _ _ thins₁ (thins₂.mono (fun _ => .inl) fun _ _ _ _ => trivial)
  have thins₃ : s₃.Forest args.supervisorId depth ∧
      Thins args.supervisorId (fun id => id = parentId ∨ ¬s.Barren id) (fun _ _ => True) s s₃ := by
    rcases cancel with ⟨-, same⟩ | ⟨-, cancel⟩
    · rw [same]
      exact ⟨forest₂, thins₂⟩
    · rcases cancelInFlightSiblings_thins thinning forest₂ cancel with ⟨forest₃, thins₃⟩
      refine ⟨forest₃, IsTrans.trans _ _ _ thins₂ (thins₃.mono ?_ fun _ _ _ _ => trivial)⟩
      exact fun id some => .inr fun barren => some (barren.ages thins₂.ages)
  rcases thins₃ with ⟨forest₃, thins₃⟩
  rcases settleReady_thins thinning forest₃ ready with ⟨forest', thins'⟩
  refine ⟨forest', IsTrans.trans _ _ _ thins₃ (thins'.mono ?_ fun _ _ _ _ => trivial)⟩
  exact fun id some => .inr fun barren => some (barren.ages thins₃.ages)

end

theorem Store.Barren.activeChildren (sound : s.ClaimsSound) {id : Id} (barren : s.Barren id) :
    s.activeChildren id = [] := by
  refine eq_nil_iff_forall_not_mem.mpr fun childId child => ?_
  rcases sound.mem_activeChildren.mp child with ⟨c, found, parent, active⟩
  exact barren childId c found parent active

variable {bumps : Id → Prop} {falls : Id → Option Id → Prop}

section

variable (reshapes : Reshapes bumps falls s s') (ages : Ages s s') (sound : s.ClaimsSound)
  (sound' : s'.ClaimsSound)

include reshapes ages sound sound'

theorem Reshapes.mem_activeChildren {id : Id} (stays : ¬falls childId (some id)) :
    childId ∈ s'.activeChildren id ↔ childId ∈ s.activeChildren id := by
  rw [sound.mem_activeChildren, sound'.mem_activeChildren]
  constructor
  · rintro ⟨c', found, parent, active⟩
    rcases ages childId c' found with ⟨c, old, sameParent, wasActive⟩
    exact ⟨c, old, sameParent ▸ parent, wasActive active⟩
  · rintro ⟨c, old, parent, active⟩
    rcases reshapes childId c old with ⟨c', found, reshaped⟩
    rcases reshaped.state with same | falls
    · exact ⟨c', found, reshaped.parent.trans parent, same.trans active⟩
    · exact absurd (parent ▸ falls) stays

theorem Reshapes.activeChildren_length {id : Id} (stays : ∀ childId, ¬falls childId (some id)) :
    (s'.activeChildren id).length = (s.activeChildren id).length := by
  refine List.Perm.length_eq ?_
  rw [perm_ext_iff_of_nodup (sound'.activeChildren_nodup id) (sound.activeChildren_nodup id)]
  exact fun childId => reshapes.mem_activeChildren ages sound sound' (stays childId)

theorem Reshapes.activeChildren_length_succ {id : Id} (child : childId ∈ s.activeChildren id)
    (resolved : s'.Resolved childId) (stays : ∀ other, other ≠ childId → ¬falls other (some id)) :
    (s.activeChildren id).length = (s'.activeChildren id).length + 1 := by
  have gone : childId ∉ s'.activeChildren id := by
    intro still
    rcases sound'.mem_activeChildren.mp still with ⟨c, found, -, active⟩
    exact resolved c found active
  have perm : (s.activeChildren id).Perm (childId :: s'.activeChildren id) := by
    rw [perm_ext_iff_of_nodup (sound.activeChildren_nodup id)
      (nodup_cons.mpr ⟨gone, sound'.activeChildren_nodup id⟩)]
    intro other
    rw [mem_cons]
    by_cases this : other = childId
    · simp [this, child]
    · rw [reshapes.mem_activeChildren ages sound sound' (stays other this)]
      simp [this]
  simpa using perm.length_eq

end

/--
A strict handle that has counted an abandoned child; counted and active children make a total.
-/
structure ClaimHandle.Dooms (s : Store) (total : Nat) (p : ClaimHandle) : Prop where
  strict : p.IsStrict
  tally : p.committedChildrenCount + p.abandonedChildrenCount + (s.activeChildren p.id).length =
    total
  abandoned : 0 < p.abandonedChildrenCount
  uncommitted : p.state ≠ .committed

def Store.Doomed (s : Store) (id : Id) (total : Nat) : Prop :=
  ∃ p, s.claimHandle? id = some p ∧ p.Dooms s total

theorem Store.Doomed.dooms {id : Id} {total : Nat} {p : ClaimHandle} (doomed : s.Doomed id total)
    (found : s.claimHandle? id = some p) : p.Dooms s total := by
  rcases doomed with ⟨q, known, dooms⟩
  rw [found] at known
  cases known
  exact dooms

theorem aggregateParentOutcome_of_strict {p : ClaimHandle} {seed : TerminalOutcome}
    (strict : p.IsStrict) (abandoned : 0 < p.abandonedChildrenCount) (abandons : seed.isAbandon) :
    (aggregateParentOutcome p seed).isAbandon := by
  unfold aggregateParentOutcome
  by_cases unsplit : p.expectedChildrenCount = 0
  · rw [if_pos unsplit]
    exact abandons
  · rw [if_neg unsplit, if_pos abandoned]
    cases policy : p.aggregationPolicy with
    | none => simp [ClaimHandle.IsStrict, policy] at strict
    | some q =>
      rcases q with ⟨kind, maxFailures⟩
      have kindStrict : kind = .strict := by simpa [ClaimHandle.IsStrict, policy] using strict
      subst kindStrict
      rfl

theorem Thins.doomed (thins : Thins supervisorId bumps falls s s') (sound : s.ClaimsSound)
    (sound' : s'.ClaimsSound) {id : Id} {total : Nat} (doomed : s.Doomed id total)
    (unbumped : ¬bumps id) (upright : ∀ parent, ¬falls id parent)
    (stays : ∀ childId, ¬falls childId (some id)) :
    s'.Doomed id total := by
  rcases doomed with ⟨p, found, strict, tally, abandoned, uncommitted⟩
  rcases thins.reshapes id p found with ⟨p', after, reshaped⟩
  rcases reshaped.counts unbumped with ⟨sameCommitted, sameAbandoned⟩
  have children := thins.reshapes.activeChildren_length thins.ages sound sound' stays
  have sameState : p'.state = p.state := reshaped.state.resolve_right (upright _)
  rw [id_of_claimHandle? found] at tally
  refine ⟨p', after, reshaped.strict strict, ?_, ?_, ?_⟩
  · rw [id_of_claimHandle? after, sameCommitted, sameAbandoned, children, tally]
  · rw [sameAbandoned]
    exact abandoned
  · rw [sameState]
    exact uncommitted

section

variable (thinning : Thinning args depth rec.resolveClaimHandleTerminal)

include thinning

section

variable (forest : s.Forest args.supervisorId depth)

include forest

/-- The first sibling cancels all that are left, and the others find nothing to do. -/
theorem cancelInFlightSiblings_clears {total : Nat} (doomed : s.Doomed parentId total)
    (active : ∀ p, s.claimHandle? parentId = some p → p.state = .active)
    (trigger : s.Resolved triggerId)
    (run : cancelInFlightSiblings args rec parentId triggerId s = (.ok post, s')) :
    s'.Doomed parentId total ∧ s'.Barren parentId := by
  rcases doomed with ⟨p, found, dooms⟩
  have strict := dooms.strict
  unfold ClaimHandle.IsStrict at strict
  simp only [cancelInFlightSiblings, read_bind, found, active p found, strict, ne_eq,
    not_true_eq_false, decide_false, Bool.not_true, Bool.or_self, Bool.false_eq_true, if_false,
    listChildClaimHandles] at run
  have listed : ∀ row ∈ (s.claimHandles.filter (·.parentClaimHandleId = some parentId)).filter
      (·.id ≠ triggerId), row ∈ s.claimHandles :=
    fun row mem => (mem_filter.mp (mem_filter.mp mem).1).1
  have walked := cancelClaimHandleWalk_loop (R := Resolves args.supervisorId .always)
    (I := fun left t => (t.Forest args.supervisorId depth ∧ t.Doomed parentId total) ∧
      t.LeftOf args.supervisorId ((s.claimHandles.filter
        (·.parentClaimHandleId = some parentId)).filter (·.id ≠ triggerId)) left)
    (fun _ _ resolves => resolves.toSettles) ?_ ?_ ⟨⟨forest, p, found, dooms⟩, forest.leftOf listed⟩
    (s.lists_of_mem forest.sound listed _) run
  · rcases walked with ⟨⟨⟨-, doomed'⟩, leftOf⟩, resolves⟩
    refine ⟨doomed', ?_⟩
    intro childId c' known parent
    by_cases this : childId = triggerId
    · subst this
      exact trigger.settles resolves.toSettles c' known
    rcases resolves.row known with ⟨c, old, advances⟩
    have childOf := id_of_claimHandle? old
    have mem : c ∈ (s.claimHandles.filter (·.parentClaimHandleId = some parentId)).filter
        (·.id ≠ triggerId) := by
      refine mem_filter.mpr ⟨mem_filter.mpr ⟨mem_of_claimHandle? old, ?_⟩, ?_⟩
      · simpa [advances.parent] using parent
      · simpa [childOf] using this
    have resolved := leftOf.done c mem
    rw [childOf] at resolved
    exact resolved c' known
  · rintro row left t ⟨holds, leftOf⟩ resolved
    exact ⟨holds, leftOf.skip resolved⟩
  · rintro row mem left td h t t' post ⟨⟨forest, q, known, dooms⟩, leftOf⟩ cancelling run
    have decides := cancelling.toDecides
    have abandons : td.outcome.isAbandon := by rw [cancelling.decided]; rfl
    have ofParent : td.parentClaimHandleId = some parentId := by
      rw [cancelling.up, if_pos rfl, cancelling.advances.parent]
      simpa using (mem_filter.mp (mem_filter.mp mem).1).2
    rcases thinning.thins td h t t' post forest decides (not_commit abandons) run with
      ⟨forest', thins, ends⟩
    have cancels := thinning.cancels td h t t' post parentId q forest decides abandons
      ofParent known dooms.strict run
    rcases thins.reshapes parentId q known with ⟨q', after, reshaped⟩
    rcases cancels.doomed q' after with ⟨abandoned, uncommitted⟩
    have tally := cancels.tally q q' known after
    have before := dooms.tally
    rw [id_of_claimHandle? known] at before
    refine ⟨⟨⟨forest', q', after, reshaped.strict dooms.strict, ?_, abandoned, uncommitted⟩, ?_⟩,
      thins.toResolves⟩
    · rw [id_of_claimHandle? after, cancels.barren.activeChildren forest'.sound, tally, before]
      rfl
    · exact (leftOf.settles thins.toSettles).skip fun _ => cancelling.ofRow ▸ ends.resolved

theorem settleFromFanoutChild_cancels {p : ClaimHandle} (found : s.claimHandle? parentId = some p)
    (active : p.state = .active) (strict : p.IsStrict) (child : s.Resolved childId)
    (abandons : childOutcome.isAbandon)
    (run : settleFromFanoutChild args rec parentId childId childOutcome metadata s =
      (.ok post, s')) :
    s'.Barren parentId ∧ s'.Doomed parentId (p.committedChildrenCount + p.abandonedChildrenCount +
      (s.activeChildren parentId).length + 1) ∧
      ((∀ x ∈ s.holdersOf parentId, x.state ≠ .active) →
        ∀ p', s'.claimHandle? parentId = some p' → p'.state = .abandoned) := by
  rcases settleFromFanoutChild_runs run with ⟨absent, -⟩ | ⟨parent, s₁, known, record, rest⟩
  · rw [absent] at found
    cases found
  rw [found] at known
  cases known
  have apart := (Apart.walking.recordChildCommitMetadata _ _ _ _).run record
  rcases apart.thins forest (fun _ => False) (fun _ _ => False) with ⟨forest₁, thins₁⟩
  have mine := forest.owned parentId p found active
  rcases rest with ⟨unsettled | resolved, -⟩ |
    ⟨holder, s₂, cancelled, s₃, held, -, bump, cancel, ready⟩
  · rw [mine] at unsettled
    cases unsettled
  · exact absurd active resolved
  -- the bump
  rcases apart.row forest.sound found with ⟨gone, found₁⟩
  rcases bumpChildOutcomeCount_thins forest₁ bump with ⟨forest₂, thins₂⟩
  have children₁ : (s₁.activeChildren parentId).length = (s.activeChildren parentId).length :=
    thins₁.reshapes.activeChildren_length thins₁.ages forest.sound forest₁.sound
      fun _ none => none
  have children₂ : (s₂.activeChildren parentId).length = (s₁.activeChildren parentId).length :=
    thins₂.reshapes.activeChildren_length thins₂.ages forest₁.sound forest₂.sound
      fun _ none => none
  have bumped : s₂.claimHandle? parentId = some { p.unbound gone with
      abandonedChildrenCount := (p.unbound gone).abandonedChildrenCount + 1 } := by
    rw [abandons] at bump
    rw [bumpChildOutcomeCount_ok bump, claimHandle?_mapHandles (ClaimHandle.counted_id _ _ _),
      found₁, Option.map_some, ClaimHandle.counted_of_held (id_of_claimHandle? found₁)
        ((p.unbound_holder gone).trans held)]
    rfl
  have reshaped := p.unbound_reshapes False False gone
  rcases reshaped.counts (fun none => none) with ⟨sameCommitted, sameAbandoned⟩
  have doomed₂ : s₂.Doomed parentId (p.committedChildrenCount + p.abandonedChildrenCount +
      (s.activeChildren parentId).length + 1) := by
    refine ⟨_, bumped, reshaped.strict strict, ?_, Nat.succ_pos _, ?_⟩
    · rw [id_of_claimHandle? bumped, children₂, children₁]
      change (p.unbound gone).committedChildrenCount +
        ((p.unbound gone).abandonedChildrenCount + 1) + _ = _
      omega
    · change (p.unbound gone).state ≠ .committed
      simp [active]
  have active₂ : ∀ q, s₂.claimHandle? parentId = some q → q.state = .active := by
    intro q known
    rw [bumped] at known
    cases known
    exact (p.unbound_state gone).trans active
  -- the siblings
  have resolves₂ : Resolves args.supervisorId .always s s₂ :=
    IsTrans.trans _ _ _ thins₁.toResolves thins₂.toResolves
  have cancel : cancelInFlightSiblings args rec parentId childId s₂ = (.ok cancelled, s₃) := by
    rcases cancel with ⟨commits, -⟩ | ⟨-, cancel⟩
    · rw [abandons] at commits
      cases commits
    · exact cancel
  rcases cancelInFlightSiblings_clears thinning forest₂ doomed₂ active₂
    (child.settles resolves₂.toSettles) cancel with ⟨doomed₃, barren₃⟩
  rcases cancelInFlightSiblings_thins thinning forest₂ cancel with ⟨forest₃, thins₃⟩
  have resolves₃ : Resolves args.supervisorId .always s s₃ :=
    IsTrans.trans _ _ _ resolves₂ thins₃.toResolves
  -- the parent
  rcases settleReady_runs forest₃.sound ready with
    ⟨rfl, stays⟩ | ⟨td, parent, row, holder, mid, s₄, post', readies, run⟩
  · refine ⟨barren₃, doomed₃, fun unheld p' known => ?_⟩
    cases state : p'.state with
    | abandoned => rfl
    | committed => exact absurd state (doomed₃.dooms known).uncommitted
    | active =>
      rcases stays p' known with free | resolved | ⟨x, mem, flying⟩ | ⟨c, mem, ofHandle, flying⟩
      · rw [forest₃.owned parentId p' known state] at free
        cases free
      · exact absurd state resolved
      · exact absurd flying (unheld x (resolves₃.holdersOf parentId x mem))
      · exact absurd flying (barren₃ c.id c (forest₃.sound.find mem) ofHandle)
  · rcases readies.of_forest forest₃ with ⟨apart', -⟩
    rcases apart'.thins forest₃ (fun _ => False) (fun _ _ => False) with ⟨forestMid, thinsMid⟩
    have barrenMid : s₄.Barren parentId := barren₃.ages thinsMid.ages
    have doomedMid : s₄.Doomed parentId _ := thinsMid.doomed forest₃.sound forestMid.sound doomed₃
      (fun none => none) (fun _ none => none) fun _ none => none
    have abandon : td.outcome.isAbandon := by
      have dooms := doomed₃.dooms readies.found
      rw [readies.decided]
      exact aggregateParentOutcome_of_strict dooms.strict dooms.abandoned abandons
    rcases thinning.thins td row s₄ s' post' forestMid readies.toDecides
      (fun _ => readies.ofParent ▸ barrenMid) run with ⟨forest', thins', ends⟩
    have barren' := barrenMid.ages thins'.ages
    rcases ends with ⟨q', after, decided⟩
    rw [readies.ofParent] at after
    have abandoned : q'.state = .abandoned := by
      rw [decided, state, if_pos abandon]
    refine ⟨barren', ?_, fun _ p' known => ?_⟩
    · rcases doomedMid with ⟨q, knownMid, dooms⟩
      have reshaped' := thins'.reshapes.row knownMid after
      rcases reshaped'.counts (fun some => some barrenMid) with ⟨sameCommitted', sameAbandoned'⟩
      have tally := dooms.tally
      rw [id_of_claimHandle? knownMid, barrenMid.activeChildren forestMid.sound] at tally
      refine ⟨q', after, reshaped'.strict dooms.strict, ?_, ?_, ?_⟩
      · rw [id_of_claimHandle? after, barren'.activeChildren forest'.sound, sameCommitted',
          sameAbandoned']
        exact tally
      · rw [sameAbandoned']
        exact dooms.abandoned
      · simp [abandoned]
    · rw [after] at known
      cases known
      exact abandoned

end

theorem Thinning.body (descends : Descends args rec)
    (gate : ∀ id, Steps Apart (rec.evaluateOneGate id)) :
    Thinning args depth (resolveClaimHandleTerminalBody args rec) where
  thins td row s s' post forest decides barren run := by
    rcases resolveClaimHandleTerminalBody_runs decides.source run with
      ⟨s₁, s₂, s₃, s₄, runs, top, ascend⟩
    rcases runs.thins thinning forest descends gate decides barren with ⟨forest₄, thins₄, ends₄⟩
    have thins₄ : Thins args.supervisorId (fun id => ¬s.Barren id) (fun _ _ => True) s s₄ :=
      thins₄.mono (fun _ none => none.elim) fun _ _ _ _ => trivial
    cases parent : td.parentClaimHandleId with
    | none =>
      rw [top parent]
      exact ⟨forest₄, thins₄, ends₄⟩
    | some parentId =>
      rcases ascend parentId parent with ⟨metadata, settled, settle⟩
      rcases settleFromFanoutChild_thins thinning forest₄ settle with ⟨forest', thins'⟩
      -- the handle of the decision was in flight below the parent
      have fruitful : ¬s.Barren parentId := by
        intro barren
        rcases decides.parent with none | same
        · rw [parent] at none
          cases none
        · exact barren _ row decides.known (same.symm.trans parent) decides.active
      refine ⟨forest', IsTrans.trans _ _ _ thins₄ (thins'.mono ?_ fun _ _ _ _ => trivial), ?_⟩
      · rintro id (same | some) barren
        · exact fruitful (same ▸ barren)
        · exact some (barren.ages thins₄.ages)
      · rcases ends₄ with ⟨row₄, known, decided⟩
        rcases thins'.rows _ _ known with ⟨row', after, advances⟩
        refine ⟨row', after, ?_⟩
        rw [advances.resolved (decided ▸ td.outcome.state_ne_active), decided]
  descends td row s s' post k forest decides abandons top deep run := by
    rcases resolveClaimHandleTerminalBody_runs decides.source run with
      ⟨s₁, s₂, s₃, s₄, runs, same, -⟩
    rcases runs.thins thinning forest descends gate decides (not_commit abandons) with ⟨-, thins, -⟩
    rw [same top]
    refine thins.mono (fun _ none => none) fun id h found falls => ?_
    rcases deep with ⟨q, parent, below⟩
    rcases falls with this | ⟨q', parent', below'⟩
    · rw [this, decides.known] at found
      cases found
      exact ⟨q, parent, below⟩
    · have above := forest.deeper _ row q decides.known parent
      exact ⟨q', parent', by omega⟩
  cancels td row s s' post parentId p forest decides abandons parent found strict run := by
    rcases resolveClaimHandleTerminalBody_runs decides.source run with
      ⟨s₁, s₂, s₃, s₄, runs, -, ascend⟩
    rcases runs.thins thinning forest descends gate decides (not_commit abandons) with
      ⟨forest₄, thins₄, ends₄⟩
    rcases ascend parentId parent with ⟨metadata, settled, settle⟩
    have ofParent : row.parentClaimHandleId = some parentId := by
      rcases decides.parent with none | same
      · rw [parent] at none
        cases none
      · exact same.symm.trans parent
    have above := forest.deeper _ row parentId decides.known ofParent
    have active := forest.parent_active decides.known decides.active ofParent found
    -- neither the parent nor another child of it is on the way down
    rcases thins₄.reshapes parentId p found with ⟨p₄, found₄, reshaped⟩
    have upright : p₄.state = p.state := by
      refine reshaped.state.resolve_right ?_
      rintro (this | ⟨q, ofHandle, below⟩)
      · rw [this] at above
        omega
      · have := forest.deeper parentId p q found ofHandle
        omega
    have child : td.claimHandleId ∈ s.activeChildren parentId :=
      forest.sound.mem_activeChildren.mpr ⟨row, decides.known, ofParent, decides.active⟩
    have children := thins₄.reshapes.activeChildren_length_succ thins₄.ages forest.sound
      forest₄.sound child ends₄.resolved (by
        rintro other this (same | ⟨q, ofHandle, below⟩)
        · exact this same
        · cases ofHandle
          omega)
    rcases reshaped.counts (fun none => none) with ⟨sameCommitted, sameAbandoned⟩
    rcases settleFromFanoutChild_cancels thinning forest₄ found₄ (upright.trans active)
      (reshaped.strict strict) ends₄.resolved abandons settle with
      ⟨barren', ⟨q, known, dooms⟩, settles⟩
    rcases settleFromFanoutChild_thins thinning forest₄ settle with ⟨forest', -⟩
    have tally := dooms.tally
    rw [id_of_claimHandle? known, barren'.activeChildren forest'.sound, sameCommitted,
      sameAbandoned] at tally
    refine ⟨barren', ?_, ?_, ?_⟩
    · intro p₀ p' found' known'
      rw [found] at found'
      rw [known] at known'
      cases found'
      cases known'
      rw [children]
      simpa only [length_nil, Nat.add_zero, Nat.add_assoc] using tally
    · intro p' known'
      rw [known] at known'
      cases known'
      exact ⟨dooms.abandoned, dooms.uncommitted⟩
    · intro unheld
      exact settles fun x mem => unheld x (thins₄.holdersOf parentId x mem)

end

variable (args) in
/-- `ResolveClaimHandleTerminal` with at most so many nested calls, and what stands below them. -/
def resolveWithin (gate : Id → Tx Unit) (deeper : TerminalDecision → Tx (List PostCommit)) :
    Nat → TerminalDecision → Tx (List PostCommit)
  | 0 => deeper
  | n + 1 => resolveClaimHandleTerminalBody args {
      evaluateOneGate := gate, resolveClaimHandleTerminal := resolveWithin gate deeper n }

variable {gate : Id → Tx Unit}

theorem resolveWithin_descends (apart : ∀ id, Steps Apart (gate id)) (n : Nat) :
    Descends args {
      evaluateOneGate := gate
      resolveClaimHandleTerminal := resolveWithin args gate (fun _ => fail .outOfFuel) n } := by
  induction n with
  | zero =>
    intro td row s s' post _ _ _ _ run
    cases run
  | succ n ih => exact ih.body apart gate

theorem resolveWithin_thinning (apart : ∀ id, Steps Apart (gate id)) (depth : Id → Nat) (n : Nat) :
    Thinning args depth (resolveWithin args gate (fun _ => fail .outOfFuel) n) := by
  induction n with
  | zero =>
    refine ⟨?_, ?_, ?_⟩
    · intro td row s s' post _ _ _ run
      cases run
    · intro td row s s' post k _ _ _ _ _ run
      cases run
    · intro td row s s' post parentId p _ _ _ _ _ _ run
      cases run
  | succ n ih =>
    let below : Rec := {
      evaluateOneGate := gate
      resolveClaimHandleTerminal := resolveWithin args gate (fun _ => fail .outOfFuel) n }
    have thinning : Thinning args depth below.resolveClaimHandleTerminal := ih
    exact thinning.body (resolveWithin_descends apart n) apart

def Store.activeFrom (s : Store) (depth : Id → Nat) (k : Nat) : List Id :=
  (s.claimHandles.filter fun h => h.state = .active && k ≤ depth h.id).map (·.id)

theorem Store.ClaimsSound.mem_activeFrom (sound : s.ClaimsSound) {id : Id} :
    id ∈ s.activeFrom depth k ↔
      ∃ h, s.claimHandle? id = some h ∧ h.state = .active ∧ k ≤ depth id := by
  simp only [activeFrom, mem_map, mem_filter, Bool.and_eq_true, decide_eq_true_eq]
  constructor
  · rintro ⟨h, ⟨mem, active, from_k⟩, rfl⟩
    exact ⟨h, sound.find mem, active, from_k⟩
  · rintro ⟨h, found, active, from_k⟩
    have sameId := id_of_claimHandle? found
    exact ⟨h, ⟨mem_of_claimHandle? found, active, sameId ▸ from_k⟩, sameId⟩

theorem Store.ClaimsSound.activeFrom_nodup (sound : s.ClaimsSound) (k : Nat) :
    (s.activeFrom depth k).Nodup := sound.handles.sublist (List.filter_sublist.map _)

theorem Ages.activeFrom_subset (ages : Ages s s') (sound : s.ClaimsSound) (sound' : s'.ClaimsSound)
    (deeper : k ≤ k') : s'.activeFrom depth k' ⊆ s.activeFrom depth k := by
  intro id mem
  rcases sound'.mem_activeFrom.mp mem with ⟨h', found, active, from_k⟩
  rcases ages id h' found with ⟨h, old, -, wasActive⟩
  exact sound.mem_activeFrom.mpr ⟨h, old, wasActive active, deeper.trans from_k⟩

theorem Ages.activeFrom_length_le (ages : Ages s s') (sound : s.ClaimsSound)
    (sound' : s'.ClaimsSound) (deeper : k ≤ k') :
    (s'.activeFrom depth k').length ≤ (s.activeFrom depth k).length :=
  (subperm_of_subset (sound'.activeFrom_nodup k')
    (ages.activeFrom_subset sound sound' deeper)).length_le

theorem Ages.activeFrom_length_lt (ages : Ages s s') (sound : s.ClaimsSound)
    (sound' : s'.ClaimsSound) (deeper : k ≤ k') {id : Id} (mem : id ∈ s.activeFrom depth k)
    (gone : id ∉ s'.activeFrom depth k') :
    (s'.activeFrom depth k').length < (s.activeFrom depth k).length := by
  have nodup : (id :: s'.activeFrom depth k').Nodup :=
    nodup_cons.mpr ⟨gone, sound'.activeFrom_nodup k'⟩
  have subset : id :: s'.activeFrom depth k' ⊆ s.activeFrom depth k :=
    cons_subset.mpr ⟨mem, ages.activeFrom_subset sound sound' deeper⟩
  exact (subperm_of_subset nodup subset).length_le

/-- Where a decision can act: from its handle on down, or everywhere if it ascends. -/
def TerminalDecision.reach (td : TerminalDecision) (depth : Id → Nat) : Nat :=
  if td.parentClaimHandleId.isNone then depth td.claimHandleId else 0

theorem TerminalDecision.reach_le (td : TerminalDecision) :
    td.reach depth ≤ depth td.claimHandleId := by
  unfold reach
  split
  · exact Nat.le_refl _
  · exact Nat.zero_le _

variable (args depth) in
def Agree (n : Nat) (resolve resolve' : TerminalDecision → Tx (List PostCommit)) : Prop :=
  ∀ td row s, s.Forest args.supervisorId depth → s.Decides args.supervisorId td row →
    (td.outcome = .commit → s.Barren td.claimHandleId) →
    (s.activeFrom depth (td.reach depth)).length ≤ n → resolve td s = resolve' td s

variable {rec' : Rec} {n : Nat}

section Agree

variable (agree : Agree args depth n rec.resolveClaimHandleTerminal rec'.resolveClaimHandleTerminal)
  (thinning : Thinning args depth rec.resolveClaimHandleTerminal)
  (forest : s.Forest args.supervisorId depth)

include thinning forest

theorem cancelClaimHandleWalk_agrees {outcome : TerminalOutcome} {keepParent : Bool}
    (abandons : outcome.isAbandon) (mem : ∀ row ∈ rows, row ∈ s.claimHandles)
    (calls : ∀ row ∈ rows, ∀ td h t, Ages s t → t.Forest args.supervisorId depth →
      Cancelling args outcome keepParent row h td t →
      rec.resolveClaimHandleTerminal td t = rec'.resolveClaimHandleTerminal td t) :
    cancelClaimHandleWalk args rec outcome keepParent rows s =
      cancelClaimHandleWalk args rec' outcome keepParent rows s := by
  rw [cancelClaimHandleWalk_eq, cancelClaimHandleWalk_eq]
  refine foldlM_agree (I := fun left t => (t.Forest args.supervisorId depth ∧ Ages s t) ∧
    t.Lists args.supervisorId left ∧ ∀ row ∈ left, row ∈ rows) ?_
    ⟨⟨forest, .of_same rfl⟩, s.lists_of_mem forest.sound mem _, fun _ mem => mem⟩
  rintro acc row left t ⟨⟨forest, ages⟩, lists, listed⟩
  have here := lists row mem_cons_self
  have listed' : ∀ row ∈ left, row ∈ rows := fun row' mem => listed row' (mem_cons_of_mem _ mem)
  refine ⟨bind_agree (bind_agree rfl fun choice mid decision => ?_) fun _ _ _ => rfl, ?_⟩
  · rcases cancelDecision_ok here decision with ⟨rfl, ⟨rfl, -⟩ | ⟨td, h, rfl, cancelling⟩⟩
    · rfl
    · exact calls row (listed row mem_cons_self) td h _ ages forest cancelling
  · intro acc' t' step
    rcases bind_eq_ok.mp step with ⟨post, mid, first, done⟩
    cases done
    rcases bind_eq_ok.mp first with ⟨choice, mid, decision, run⟩
    rcases cancelDecision_ok here decision with ⟨rfl, ⟨rfl, -⟩ | ⟨td, h, rfl, cancelling⟩⟩
    · cases run
      exact ⟨⟨forest, ages⟩, lists.tail, listed'⟩
    · rcases thinning.thins td h _ t' post forest cancelling.toDecides
        (not_commit (cancelling.decided ▸ abandons)) run with ⟨forest', thins, -⟩
      exact ⟨⟨forest', ages.trans thins.ages⟩, (lists.settles thins.toSettles).tail, listed'⟩

include agree

theorem cancelDescendantClaims_agrees {rowId : Id}
    (few : ∀ k, depth rowId < k → (s.activeFrom depth k).length ≤ n) :
    cancelDescendantClaims args rec rowId s = cancelDescendantClaims args rec' rowId s := by
  refine cancelClaimHandleWalk_agrees thinning forest rfl
    (fun row mem => (mem_filter.mp mem).1) fun row mem td h t ages forest' cancelling => ?_
  have ofParent : row.parentClaimHandleId = some rowId := by simpa using (mem_filter.mp mem).2
  have below := forest.deeper row.id row rowId (forest.sound.find (mem_filter.mp mem).1) ofParent
  have reach : td.reach depth = depth row.id := by
    rw [reach, cancelling.up, cancelling.ofRow]
    rfl
  refine agree td h t forest' cancelling.toDecides (by simp [cancelling.decided]) ?_
  rw [reach]
  exact (ages.activeFrom_length_le forest.sound forest'.sound (Nat.le_refl _)).trans (few _ below)

variable (few : (s.activeFrom depth 0).length ≤ n)

include few

omit thinning in
theorem Agree.call {t : Store} (ages : Ages s t) (forest' : t.Forest args.supervisorId depth)
    (decides : t.Decides args.supervisorId td row)
    (barren : td.outcome = .commit → t.Barren td.claimHandleId) :
    rec.resolveClaimHandleTerminal td t = rec'.resolveClaimHandleTerminal td t :=
  agree td row t forest' decides barren
    ((ages.activeFrom_length_le forest.sound forest'.sound (Nat.zero_le _)).trans few)

theorem cancelInFlightSiblings_agrees : cancelInFlightSiblings args rec parentId triggerId s =
    cancelInFlightSiblings args rec' parentId triggerId s := by
  simp only [cancelInFlightSiblings, read_bind]
  cases found : s.claimHandle? parentId with
  | none => rfl
  | some parent =>
    dsimp only
    split
    · rfl
    refine cancelClaimHandleWalk_agrees thinning forest rfl
      (fun row mem => (mem_filter.mp (mem_filter.mp mem).1).1)
      fun row mem td h t ages forest' cancelling => ?_
    exact agree.call forest few ages forest' cancelling.toDecides (by simp [cancelling.decided])

omit thinning in
theorem settleReady_agrees : settleReady args rec parentId childOutcome cancelled s =
    settleReady args rec' parentId childOutcome cancelled s := by
  rw [settleReady_eq, settleReady_eq]
  refine bind_agree rfl fun choice s₁ decision => bind_agree ?_ fun _ _ _ => rfl
  rcases readyDecision_ok forest.sound decision with
    ⟨rfl, -⟩ | ⟨td, parent, row, holder, mid, rfl, readies⟩
  · rfl
  rcases readies.of_forest forest with ⟨apart, barren⟩
  rcases apart.thins forest (fun _ => False) (fun _ _ => False) with ⟨forest₁, thins₁⟩
  exact agree.call forest few thins₁.ages forest₁ readies.toDecides
    fun _ => readies.ofParent ▸ barren.ages thins₁.ages

theorem settleFromFanoutChild_agrees :
    settleFromFanoutChild args rec parentId childId childOutcome metadata s =
      settleFromFanoutChild args rec' parentId childId childOutcome metadata s := by
  simp only [settleFromFanoutChild, read_bind]
  cases found : s.claimHandle? parentId with
  | none => rfl
  | some parent =>
    refine bind_agree rfl fun _ s₁ record => ?_
    have apart := (Apart.walking.recordChildCommitMetadata _ _ _ _).run record
    rcases apart.thins forest (fun _ => False) (fun _ _ => False) with ⟨forest₁, thins₁⟩
    cases held : parent.holderSupervisorId with
    | none => rfl
    | some holder =>
      split
      · rfl
      refine bind_agree rfl fun _ s₂ bump => ?_
      rcases bumpChildOutcomeCount_thins forest₁ bump with ⟨forest₂, thins₂⟩
      have few₂ := ((thins₁.ages.trans thins₂.ages).activeFrom_length_le
        forest.sound forest₂.sound (Nat.le_refl 0)).trans few
      split
      · refine bind_agree (cancelInFlightSiblings_agrees agree thinning forest₂ few₂)
          fun cancelled s₃ cancel => ?_
        rcases cancelInFlightSiblings_thins thinning forest₂ cancel with ⟨forest₃, thins₃⟩
        have few₃ := (thins₃.ages.activeFrom_length_le forest₂.sound forest₃.sound
          (Nat.le_refl 0)).trans few₂
        exact settleReady_agrees agree forest₃ few₃
      · exact bind_agree rfl fun cancelled s₃ kept => by
          cases kept
          exact settleReady_agrees agree forest₂ few₂

end Agree

theorem resolveClaimHandleTerminalBody_agrees (gates : rec'.evaluateOneGate = rec.evaluateOneGate)
    (source : td.source ≠ .ownershipBail) (down : ∀ s₁, enqueueProducerVerb td s = (.ok (), s₁) →
      cancelDescendantClaims args rec td.claimHandleId s₁ =
        cancelDescendantClaims args rec' td.claimHandleId s₁)
    (up : ∀ s₁ s₂ s₃ s₄ parentId metadata, DecisionRuns args rec td s s₁ s₂ s₃ s₄ →
      td.parentClaimHandleId = some parentId →
      settleFromFanoutChild args rec parentId td.claimHandleId td.outcome metadata s₄ =
        settleFromFanoutChild args rec' parentId td.claimHandleId td.outcome metadata s₄) :
    resolveClaimHandleTerminalBody args rec td s =
      resolveClaimHandleTerminalBody args rec' td s := by
  have defers : emitDeferredHeldCascade args rec' td = emitDeferredHeldCascade args rec td := by
    rcases rec with ⟨gate, resolve⟩
    rcases rec' with ⟨gate', resolve'⟩
    subst gates
    rfl
  unfold resolveClaimHandleTerminalBody
  split
  · rfl
  refine bind_agree rfl fun metadata mid ran => ?_
  have same : s = mid := (Walking.dispatchDataProcessingTerminal td).run ran
  subst same
  refine bind_agree rfl fun _ s₁ queue => ?_
  refine branch_agree (fun _ => down s₁ queue) fun cancelled s₂ descend => ?_
  refine bind_agree rfl fun _ s₃ promote => bind_agree (by rw [defers]) fun deferred s₄ defer => ?_
  cases parent : td.parentClaimHandleId with
  | none => rfl
  | some parentId =>
    refine bind_agree (up s₁ s₂ s₃ s₄ parentId metadata
      ⟨queue, ?_, ?_, promote, deferred, defer⟩ parent) fun _ _ _ => rfl
    · intro abandons
      exact ⟨cancelled, by simpa [isAbandon, abandons] using descend⟩
    · intro commits
      simp only [isAbandon, commits] at descend
      exact (congrArg Prod.snd descend).symm

/-- As many nested calls as handles in flight are enough: what stands below them is not reached. -/
theorem resolveWithin_agrees (apart : ∀ id, Steps Apart (gate id))
    (deeper : TerminalDecision → Tx (List PostCommit)) (n : Nat) :
    Agree args depth n (resolveWithin args gate (fun _ => fail .outOfFuel) n)
      (resolveWithin args gate deeper n) := by
  induction n with
  | zero =>
    intro td row s forest decides _ few
    have mem : td.claimHandleId ∈ s.activeFrom depth (td.reach depth) :=
      forest.sound.mem_activeFrom.mpr ⟨row, decides.known, decides.active, td.reach_le⟩
    rw [length_eq_zero_iff.mp (Nat.le_zero.mp few)] at mem
    cases mem
  | succ n ih =>
    intro td row s forest decides barren few
    let below : Rec := {
      evaluateOneGate := gate
      resolveClaimHandleTerminal := resolveWithin args gate (fun _ => fail .outOfFuel) n }
    let below' : Rec := {
      evaluateOneGate := gate, resolveClaimHandleTerminal := resolveWithin args gate deeper n }
    have thinning : Thinning args depth below.resolveClaimHandleTerminal :=
      resolveWithin_thinning apart depth n
    have descends : Descends args below := resolveWithin_descends apart n
    have agree : Agree args depth n below.resolveClaimHandleTerminal
      below'.resolveClaimHandleTerminal := ih
    have mem : td.claimHandleId ∈ s.activeFrom depth (td.reach depth) :=
      forest.sound.mem_activeFrom.mpr ⟨row, decides.known, decides.active, td.reach_le⟩
    have agrees : resolveClaimHandleTerminalBody args below td s =
        resolveClaimHandleTerminalBody args below' td s := by
      refine resolveClaimHandleTerminalBody_agrees rfl decides.source ?_ ?_
      -- going down leaves the handle itself behind
      · intro s₁ queue
        rcases enqueueProducerVerb_queues forest.sound queue with ⟨sound₁, queues⟩
        have forest₁ := forest.of_same sound₁ queues.handles
        refine cancelDescendantClaims_agrees agree thinning forest₁ fun k deeper => ?_
        have fewer := Ages.activeFrom_length_lt (.of_same queues.handles) forest.sound sound₁
          (td.reach_le.trans deeper.le) mem (by
            intro still
            rcases sound₁.mem_activeFrom.mp still with ⟨-, -, -, from_k⟩
            omega)
        omega
      -- going up leaves it resolved
      · intro s₁ s₂ s₃ s₄ parentId metadata runs parent
        rcases runs.thins thinning forest descends apart decides barren with
          ⟨forest₄, thins₄, ends₄⟩
        have top : td.reach depth = 0 := by simp [reach, parent]
        rw [top] at mem few
        have fewer := thins₄.ages.activeFrom_length_lt forest.sound forest₄.sound
          (Nat.le_refl 0) mem (by
            intro still
            rcases forest₄.sound.mem_activeFrom.mp still with ⟨h, found, active, -⟩
            exact ends₄.resolved h found active)
        exact settleFromFanoutChild_agrees agree thinning forest₄ (by omega)
    exact agrees

theorem resolveWithin_add (gate : Id → Tx Unit) (deeper : TerminalDecision → Tx (List PostCommit))
    (n k : Nat) : resolveWithin args gate deeper (n + k) =
      resolveWithin args gate (resolveWithin args gate deeper k) n := by
  induction n with
  | zero => rw [Nat.zero_add]; rfl
  | succ n ih =>
    rw [Nat.succ_add]
    simp only [resolveWithin, ih]

def Store.resolvedChildren (s : Store) (id : Id) : List Id :=
  (s.claimHandles.filter fun c => c.parentClaimHandleId = some id && c.state ≠ .active).map (·.id)

def Store.activeCount (s : Store) : Nat := (s.claimHandles.filter (·.state = .active)).length

theorem Store.length_activeFrom_zero (s : Store) (depth : Id → Nat) :
    (s.activeFrom depth 0).length = s.activeCount := by
  simp [activeFrom, activeCount]

def Store.splitOff (s : Store) (id : Id) : List Id :=
  (s.claimHandles.filter (·.parentClaimHandleId = some id)).map (·.id)

theorem Store.length_splitOff (s : Store) (id : Id) :
    (s.splitOff id).length = (s.activeChildren id).length + (s.resolvedChildren id).length := by
  simp only [splitOff, activeChildren, resolvedChildren, length_map]
  induction s.claimHandles with
  | nil => rfl
  | cons h rest ih =>
    by_cases parent : h.parentClaimHandleId = some id <;> by_cases active : h.state = .active <;>
      simp [parent, active, ih] <;> omega

theorem Store.ClaimsSound.mem_splitOff (sound : s.ClaimsSound) {id : Id} :
    childId ∈ s.splitOff id ↔
      ∃ c, s.claimHandle? childId = some c ∧ c.parentClaimHandleId = some id := by
  simp only [splitOff, mem_map, mem_filter, decide_eq_true_eq]
  constructor
  · rintro ⟨c, ⟨mem, parent⟩, rfl⟩
    exact ⟨c, sound.find mem, parent⟩
  · rintro ⟨c, found, parent⟩
    exact ⟨c, ⟨mem_of_claimHandle? found, parent⟩, id_of_claimHandle? found⟩

theorem Settles.length_splitOff (settles : Settles supervisorId s s') (sound : s.ClaimsSound)
    (sound' : s'.ClaimsSound) (id : Id) : (s'.splitOff id).length = (s.splitOff id).length := by
  have nodup : ∀ {t : Store}, t.ClaimsSound → (t.splitOff id).Nodup :=
    fun sound => sound.handles.sublist (filter_sublist.map _)
  refine List.Perm.length_eq ?_
  rw [perm_ext_iff_of_nodup (nodup sound') (nodup sound)]
  intro childId
  rw [sound.mem_splitOff, sound'.mem_splitOff]
  constructor
  · rintro ⟨c', found, parent⟩
    rcases settles.row found with ⟨c, old, advances⟩
    exact ⟨c, old, advances.parent ▸ parent⟩
  · rintro ⟨c, found, parent⟩
    rcases settles.rows childId c found with ⟨c', after, advances⟩
    exact ⟨c', after, advances.parent.trans parent⟩

theorem Store.Forest.resolved_below (forest : s.Forest supervisorId depth) {id : Id}
    (found : s.claimHandle? id = some h) (resolved : h.state ≠ .active) {below : Id}
    (path : Relation.TransGen (fun a d => d ∈ s.splitOff a) id below) :
    ∃ d, s.claimHandle? below = some d ∧ d.state ≠ .active := by
  induction path with
  | single child =>
    rcases forest.sound.mem_splitOff.mp child with ⟨c, known, parent⟩
    exact ⟨c, known, forest.severed id h found resolved _ c known parent⟩
  | tail _ child ih =>
    rcases ih with ⟨b, between, resolved⟩
    rcases forest.sound.mem_splitOff.mp child with ⟨c, known, parent⟩
    exact ⟨c, known, forest.severed _ b between resolved _ c known parent⟩

/--
What the abandonment of a child of a strict handle leaves behind. No row is deleted: a promotion
shows in the state of a handle, which is never taken back, and in the verb queued along with it.
-/
structure ExactlyCancelled (parentId : Id) (s s' : Store) : Prop where
  children : s'.Barren parentId
  descendants : ∀ id h, s'.claimHandle? id = some h → h.state = .abandoned →
    ∀ below, Relation.TransGen (fun a d => d ∈ s'.splitOff a) id below →
      ∃ d, s'.claimHandle? below = some d ∧ d.state ≠ .active
  kept : ∀ id h, s.claimHandle? id = some h → ∃ h', s'.claimHandle? id = some h' ∧
    h'.parentClaimHandleId = h.parentClaimHandleId ∧ (h.state ≠ .active → h'.state = h.state)
  once : ∀ id h h', s.claimHandle? id = some h → s'.claimHandle? id = some h' →
    h.state = .active → h'.state ≠ .active →
      (s'.outbox.filter fun o => o.claimHandleId = id && h'.state.verb? = some o.verb).length = 1
  queued : ∃ new, s'.outbox = s.outbox ++ new ∧ (new.map (·.claimHandleId)).Nodup ∧
    ∀ o ∈ new, ∃ h h', s.claimHandle? o.claimHandleId = some h ∧ h.state = .active ∧
      s'.claimHandle? o.claimHandleId = some h' ∧ h'.state.verb? = some o.verb
  counted : ∀ p', s'.claimHandle? parentId = some p' →
    p'.committedChildrenCount + p'.abandonedChildrenCount = (s'.resolvedChildren parentId).length
  parent : (∀ x ∈ s.holdersOf parentId, x.state ≠ .active) →
    ∀ p', s'.claimHandle? parentId = some p' → p'.state = .abandoned

theorem Settles.queued_nodup (settles : Settles supervisorId s s') (sound' : s'.ClaimsSound) :
    ∃ new, s'.outbox = s.outbox ++ new ∧ (new.map (·.claimHandleId)).Nodup ∧
      ∀ o ∈ new, ∃ h h', s.claimHandle? o.claimHandleId = some h ∧ h.state = .active ∧
        s'.claimHandle? o.claimHandleId = some h' ∧ h'.state.verb? = some o.verb := by
  rcases settles.queued with ⟨new, extended, each⟩
  refine ⟨new, extended, ?_, ?_⟩
  · have verbs := sound'.verbs
    rw [extended, map_append] at verbs
    have distinct : (new.map fun o => (o.claimHandleId, o.verb)).Nodup :=
      (nodup_append.mp verbs).2.1
    -- the verb is told by the state the handle is in now
    refine List.Nodup.of_map (fun id => (id, (s'.claimHandle? id).bind (·.state.verb?))) ?_
    rw [map_map]
    have same : new.map ((fun id => (id, (s'.claimHandle? id).bind (·.state.verb?))) ∘
        (·.claimHandleId)) = (new.map fun o => (o.claimHandleId, o.verb)).map
          fun x => (x.1, some x.2) := by
      rw [map_map]
      refine map_congr_left fun o mem => ?_
      rcases each o mem with ⟨h, h', -, -, -, after, verb, -⟩
      simp [after, verb]
    rw [same]
    refine distinct.map ?_
    rintro ⟨id, verb⟩ ⟨id', verb'⟩ same
    simpa using same
  · intro o mem
    rcases each o mem with ⟨h, h', old, active, -, after, verb, -⟩
    exact ⟨h, h', old, active, after, verb⟩

theorem Settles.told_once (settles : Settles supervisorId s s') (sound' : s'.ClaimsSound) {id : Id}
    {h' : ClaimHandle} (old : s.claimHandle? id = some h) (after : s'.claimHandle? id = some h')
    (active : h.state = .active) (resolved : h'.state ≠ .active) :
    (s'.outbox.filter fun o => o.claimHandleId = id && h'.state.verb? = some o.verb).length =
      1 := by
  rcases verb : h'.state.verb? with _ | v
  · cases state : h'.state with
    | active => exact absurd state resolved
    | committed => simp [state, ClaimHandleState.verb?] at verb
    | abandoned => simp [state, ClaimHandleState.verb?] at verb
  rcases settles.told id h h' old after active v verb with ⟨o, mem, ofHandle, fits⟩
  refine Nat.le_antisymm ?_ (length_pos_of_mem (mem_filter.mpr ⟨mem, by simp [ofHandle, fits]⟩))
  have all : (s'.outbox.filter fun o => o.claimHandleId = id && some v = some o.verb).map
      (fun o => (o.claimHandleId, o.verb)) = replicate
        (s'.outbox.filter fun o => o.claimHandleId = id &&
          some v = some o.verb).length (id, v) := by
    refine eq_replicate_iff.mpr ⟨length_map _, ?_⟩
    rintro x listed
    rcases mem_map.mp listed with ⟨o', mem', rfl⟩
    have kept := (mem_filter.mp mem').2
    simp only [Bool.and_eq_true, decide_eq_true_eq, Option.some.injEq] at kept
    rw [kept.1, kept.2]
  have distinct := sound'.verbs.sublist ((filter_sublist
    (p := fun o => o.claimHandleId = id && some v = some o.verb) (l := s'.outbox)).map _)
  rw [all] at distinct
  exact nodup_replicate.mp distinct

variable {s : Store} {td : TerminalDecision} {row p : ClaimHandle} {parentId : Id}
  (apart : ∀ id, Steps Apart (gate id)) (forest : s.Forest args.supervisorId depth)
  (decides : s.Decides args.supervisorId td row) (abandons : td.outcome.isAbandon)
  (ofParent : td.parentClaimHandleId = some parentId) (found : s.claimHandle? parentId = some p)
  (strict : p.IsStrict)
  (counted : p.committedChildrenCount + p.abandonedChildrenCount =
    (s.resolvedChildren parentId).length)

include apart forest decides abandons ofParent found strict counted

theorem exactlyCancelled {n : Nat}
    (run : resolveWithin args gate (fun _ => fail .outOfFuel) n td s = (.ok post, s')) :
    s'.Forest args.supervisorId depth ∧ ExactlyCancelled parentId s s' := by
  have thinning : Thinning args depth (resolveWithin args gate (fun _ => fail .outOfFuel) n) :=
    resolveWithin_thinning apart depth n
  rcases thinning.thins td row s s' post forest decides (not_commit abandons) run with
    ⟨forest', thins, -⟩
  have cancels := thinning.cancels td row s s' post parentId p forest decides abandons
    ofParent found strict run
  refine ⟨forest', cancels.barren, ?_, ?_, ?_, thins.queued_nodup forest'.sound, ?_,
    cancels.settled⟩
  · intro id h known abandoned below path
    exact forest'.resolved_below known (by simp [abandoned]) path
  · intro id h known
    rcases thins.rows id h known with ⟨h', after, advances⟩
    exact ⟨h', after, advances.parent, advances.resolved⟩
  · intro id h h' old after active resolved
    exact thins.told_once forest'.sound old after active resolved
  · intro p' known
    have before := s.length_splitOff parentId
    have after := s'.length_splitOff parentId
    rw [thins.length_splitOff forest.sound forest'.sound,
      cancels.barren.activeChildren forest'.sound, length_nil] at after
    rw [cancels.tally p p' found known, counted]
    omega

/--
The calls that settle an abandoned child of a strict handle come to an end, nested no deeper than
there are handles in flight, and cancel exactly what is left of the handle.
-/
theorem strict_cancellation :
    ∃ result, (∀ n deeper, s.activeCount ≤ n → resolveWithin args gate deeper n td s = result) ∧
      ∀ post s', result = (.ok post, s') →
        s'.Forest args.supervisorId depth ∧ ExactlyCancelled parentId s s' := by
  refine ⟨resolveWithin args gate (fun _ => fail .outOfFuel) s.activeCount td s, ?_, ?_⟩
  · intro n deeper enough
    rcases Nat.exists_eq_add_of_le enough with ⟨k, rfl⟩
    rw [resolveWithin_add]
    have agree : Agree args depth s.activeCount
      (resolveWithin args gate (fun _ => fail .outOfFuel) s.activeCount)
      (resolveWithin args gate (resolveWithin args gate deeper k) s.activeCount) :=
      resolveWithin_agrees apart _ _
    refine (agree td row s forest decides (not_commit abandons) ?_).symm
    rw [← s.length_activeFrom_zero depth]
    exact Ages.activeFrom_length_le (.of_same rfl) forest.sound forest.sound (Nat.zero_le _)
  · intro post s' run
    exact exactlyCancelled apart forest decides abandons ofParent found strict counted run

end Forest

namespace Quarry

def plot (i : Nat) (parent : Option Id) : ClaimHandle where
  id := i
  lockKind := .claimScope
  producerName := some "quarry"
  holderSupervisorId := some "sup"
  holderNodeId := 1
  claimedAt := 0
  expiresAt := 0
  parentClaimHandleId := parent

def whole : ClaimHandle :=
  { plot 1 none with
    aggregationPolicy := some { kind := .strict }, expectedChildrenCount := 3
    committedChildrenCount := 1 }

/-- A strict claim on three plots, one of which is split once more; the first is committed. -/
def quarry : Store where
  nodes := [{ id := 1, instanceId := 1, nodeType := "digger" }]
  runs := []
  claimHandles := [whole, { plot 2 (some 1) with state := .committed, holderSupervisorId := none },
    plot 3 (some 1), plot 4 (some 1), plot 5 (some 4)]
  nextId := 10

def givenUp : TerminalDecision :=
  (plot 3 (some 1)).decision "sup" .active .abandon "quarry" {} (some 1)

def work : TerminalDecision → Tx (List PostCommit) :=
  resolveWithin (RunArgs.plain "sup") (fun _ => pure ()) (fun _ => fail .outOfFuel) 4

theorem quarry_forest : quarry.Forest "sup" id := by
  refine .of_rows ⟨pendingFree_of_bounded (by simp [quarry, whole, plot]) (by simp [quarry])
    (by simp [quarry]), by simp [quarry, whole, plot], by simp [quarry]⟩ ?_ ?_ ?_
  · simp [quarry, whole, plot]
  · simp [quarry, whole, plot]
  · simp [quarry, whole, plot]

theorem quarry_cancelled : ∃ post s', work givenUp quarry = (.ok post, s') ∧
    ExactlyCancelled 1 quarry s' := by
  have decides : quarry.Decides "sup" givenUp (plot 3 (some 1)) :=
    ⟨by simp [givenUp, ClaimHandle.decision], rfl, rfl, rfl, rfl, .inr rfl⟩
  have found : quarry.claimHandle? 1 = some whole := rfl
  have counted : whole.committedChildrenCount + whole.abandonedChildrenCount =
    (quarry.resolvedChildren 1).length := by decide
  have settled : ∃ result, (∀ n deeper, quarry.activeCount ≤ n →
      resolveWithin (RunArgs.plain "sup") (fun _ => pure ()) deeper n givenUp quarry = result) ∧
      ∀ post s', result = (.ok post, s') → s'.Forest "sup" id ∧ ExactlyCancelled 1 quarry s' :=
    strict_cancellation (fun _ => steps_pure ()) quarry_forest decides rfl rfl found rfl counted
  rcases settled with ⟨result, ends, cancelled⟩
  have value : work givenUp quarry = result := ends 4 (fun _ => fail .outOfFuel) (by decide +kernel)
  have succeeds : (work givenUp quarry).1.isOk := by decide +kernel
  rcases exists_ok_of_isOk succeeds with ⟨post, run⟩
  exact ⟨post, _, run, (cancelled post _ (value.symm.trans run)).2⟩

end Quarry

end Rimsky
