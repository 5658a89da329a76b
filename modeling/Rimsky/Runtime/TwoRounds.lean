import Rimsky.Runtime.Attributes
import Rimsky.Graph.RichContext
import Mathlib.Data.List.Nodup

/-!
# The two rounds of attribute substitution

A property whose source is late bound is resolved over two transactions with different
contexts: the gate knows the dependencies, the dispatch knows the claims. This file
says when the two rounds together do what one substitution with both contexts does.
-/

namespace Rimsky

open List Bag

variable {name source : String} {prop : SchemaProperty} {inputs : DispatchInputs} {carry : Bag}
  {body : List Char} {ctx : ResolveContext} {value : Json} {carried : Option Json} {length : Nat}

structure DispatchInputs where
  deps : List (String × Json)
  params : Option Json
  declaredTypes : Option (List String)
  claims : List (String × ClaimResult)
  partitionKey : String
  env : String → Option String

namespace DispatchInputs

def first (inputs : DispatchInputs) : ResolveContext where
  deps := inputs.deps
  params := inputs.params
  registryDeclaredTypes := inputs.declaredTypes
  envLookup := inputs.env

def second (inputs : DispatchInputs) : ResolveContext where
  claim := inputs.claims
  params := inputs.params
  childPartitionKey := inputs.partitionKey
  envLookup := inputs.env

def union (inputs : DispatchInputs) : ResolveContext where
  deps := inputs.deps
  claim := inputs.claims
  params := inputs.params
  childPartitionKey := inputs.partitionKey
  registryDeclaredTypes := inputs.declaredTypes
  envLookup := inputs.env

end DispatchInputs

def twoRounds (schema : AttributeSchema) (inputs : DispatchInputs) (carryForward : Bag) :
    Except SubstitutionError Bag := do
  let partialBag ← substituteAttributesSchemaWith (some schema) inputs.first carryForward true
  fillClaimRefs (some schema) inputs.second partialBag

def firstEntry (rctx : ResolveContext) (name : String) (prop : SchemaProperty)
    (entry : Option Json) : Except SubstitutionError (Option Json) :=
  match prop.source, prop.default with
  | some source, _ =>
    if source = "" then .ok entry
    else match substituteValue source rctx with
      | .ok value => .ok (some (storedValue prop value))
      | .error error =>
        if error.isMissingSource && sourceReferencesLateBound source then .ok entry
        else .error (error.withField name)
  | none, some default => .ok (some (entry.getD default))
  | none, none => .ok entry

def secondEntry (rctx : ResolveContext) (name : String) (prop : SchemaProperty)
    (entry : Option Json) : Except SubstitutionError (Option Json) :=
  match entry, prop.source with
  | some value, _ => .ok (some value)
  | none, none => .ok none
  | none, some source =>
    if source = "" || !sourceReferencesLateBound source then .ok none
    else match substituteValue source rctx with
      | .ok value => .ok (some (storedValue prop value))
      | .error error => .error (error.withField name)

/-- A step over bags that only looks at and only changes the entry of its property. -/
def Pointwise (step : Bag → String × SchemaProperty → Except SubstitutionError Bag)
    (entry : String → SchemaProperty → Option Json → Except SubstitutionError (Option Json)) :
    Prop :=
  ∀ bag name prop,
    match entry name prop (bag.get? name) with
    | .error error => step bag (name, prop) = .error error
    | .ok after => ∃ bag', step bag (name, prop) = .ok bag' ∧ bag'.get? name = after ∧
        ∀ other ≠ name, bag'.get? other = bag.get? other

theorem get?_set_self (bag : Bag) (name : String) (value : Json) :
    (bag.set name value).get? name = some value := by
  simp [get?_set]

theorem get?_set_of_ne (bag : Bag) {other : String} (value : Json) (ne : other ≠ name) :
    (bag.set name value).get? other = bag.get? other := by
  simp [get?_set, ne]

theorem pointwise_substituteProperty (rctx : ResolveContext) :
    Pointwise (substituteProperty rctx true) (firstEntry rctx) := by
  intro bag name prop
  rcases prop with ⟨type, _ | source, default⟩
  · cases default with
    | none => simp [firstEntry, substituteProperty]
    | some default =>
      cases present : bag.get? name with
      | some value => simp [firstEntry, substituteProperty, has, present]
      | none =>
        simp only [firstEntry, substituteProperty, has, present]
        exact ⟨_, rfl, get?_set_self .., fun other ne => get?_set_of_ne _ _ ne⟩
  · by_cases empty : source = ""
    · simp [firstEntry, substituteProperty, empty]
    · cases outcome : substituteValue source rctx with
      | ok value =>
        simp only [firstEntry, substituteProperty, empty, if_false, outcome]
        exact ⟨_, rfl, get?_set_self .., fun other ne => get?_set_of_ne _ _ ne⟩
      | error error =>
        cases missing : error.isMissingSource <;>
          cases late : sourceReferencesLateBound source <;>
          simp [firstEntry, substituteProperty, empty, outcome, missing, late]

theorem pointwise_fillProperty (rctx : ResolveContext) :
    Pointwise (fillProperty rctx) (secondEntry rctx) := by
  intro bag name prop
  cases present : bag.get? name with
  | some value => simp [secondEntry, fillProperty, has, present]
  | none =>
    rcases prop with ⟨type, _ | source, default⟩
    · simp [secondEntry, fillProperty, has, present]
    · by_cases skipped : source = "" || !sourceReferencesLateBound source
      · simp_all [secondEntry, fillProperty, has]
      · cases outcome : substituteValue source rctx with
        | ok value =>
          simp only [secondEntry, fillProperty, has, present, skipped, outcome]
          exact ⟨_, rfl, get?_set_self .., fun other ne => get?_set_of_ne _ _ ne⟩
        | error error => simp_all [secondEntry, fillProperty, has]

variable {properties : List (String × SchemaProperty)}

theorem foldlM_pointwise {step : Bag → String × SchemaProperty → Except SubstitutionError Bag}
    {entry : String → SchemaProperty → Option Json → Except SubstitutionError (Option Json)}
    (pointwise : Pointwise step entry) (distinct : (properties.map Prod.fst).Nodup) (bag : Bag) :
    ((∃ out, properties.foldlM step bag = .ok out) ↔
      ∀ p ∈ properties, ∃ after, entry p.1 p.2 (bag.get? p.1) = .ok after) ∧
    ∀ out, properties.foldlM step bag = .ok out →
      (∀ p ∈ properties, entry p.1 p.2 (bag.get? p.1) = .ok (out.get? p.1)) ∧
        ∀ key, key ∉ properties.map Prod.fst → out.get? key = bag.get? key := by
  induction properties generalizing bag with
  | nil => simp [pure, Except.pure]
  | cons p properties ih =>
    simp only [map_cons, nodup_cons] at distinct
    have head := pointwise bag p.1 p.2
    rw [foldlM_cons]
    cases outcome : entry p.1 p.2 (bag.get? p.1) with
    | error error =>
      simp only [outcome] at head
      have fails : step bag p = .error error := head
      simp [fails, outcome, bind, Except.bind]
    | ok after =>
      simp only [outcome] at head
      rcases head with ⟨bag', taken, entered, others⟩
      -- the later properties have other names, so they start from the entries of `bag`
      have same : ∀ q ∈ properties, bag'.get? q.1 = bag.get? q.1 := by
        intro q mem
        apply others
        rintro equal
        exact distinct.1 (equal ▸ mem_map_of_mem mem)
      rcases ih distinct.2 bag' with ⟨resolves, entries⟩
      have tail : (∀ q ∈ properties, ∃ after, entry q.1 q.2 (bag'.get? q.1) = .ok after) ↔
          ∀ q ∈ properties, ∃ after, entry q.1 q.2 (bag.get? q.1) = .ok after := by
        constructor <;> intro each q mem
        · rw [← same q mem]
          exact each q mem
        · rw [same q mem]
          exact each q mem
      simp only [taken, bind, Except.bind, mem_cons, forall_eq_or_imp, outcome,
        Except.ok.injEq, exists_eq', true_and]
      refine ⟨resolves.trans tail, ?_⟩
      intro out run
      rcases entries out run with ⟨entries, kept⟩
      refine ⟨⟨?_, ?_⟩, ?_⟩
      · rw [kept _ distinct.1, entered]
      · intro q mem
        rw [← same q mem]
        exact entries q mem
      · intro key absent
        simp only [map_cons, mem_cons, not_or] at absent
        rw [kept key absent.2, others key absent.1]

def entryRounds (inputs : DispatchInputs) (name : String) (prop : SchemaProperty)
    (carried : Option Json) : Except SubstitutionError (Option Json) := do
  let entry ← firstEntry inputs.first name prop carried
  secondEntry inputs.second name prop entry

theorem twoRounds_pointwise (distinct : (properties.map Prod.fst).Nodup) (inputs : DispatchInputs)
    (carry : Bag) :
    ((∃ out, twoRounds ⟨some properties⟩ inputs carry = .ok out) ↔
      ∀ p ∈ properties, ∃ entry, entryRounds inputs p.1 p.2 (carry.get? p.1) = .ok entry) ∧
    ∀ out, twoRounds ⟨some properties⟩ inputs carry = .ok out →
      ∀ p ∈ properties, entryRounds inputs p.1 p.2 (carry.get? p.1) = .ok (out.get? p.1) := by
  rcases foldlM_pointwise (pointwise_substituteProperty inputs.first) distinct carry with
    ⟨firstOk, firstEntries⟩
  have rounds : twoRounds ⟨some properties⟩ inputs carry =
      (properties.foldlM (substituteProperty inputs.first true) carry >>= fun bag =>
        properties.foldlM (fillProperty inputs.second) bag) := rfl
  rw [rounds]
  cases run : properties.foldlM (substituteProperty inputs.first true) carry with
  | error error =>
    -- the first round fails, so it fails on one of the properties
    have fails : ¬ ∀ p ∈ properties, ∃ after,
        firstEntry inputs.first p.1 p.2 (carry.get? p.1) = .ok after := by
      rw [← firstOk, run]
      simp
    simp only [bind, Except.bind, reduceCtorEq, exists_false, false_iff, false_implies,
      implies_true, and_true]
    intro each
    apply fails
    intro p mem
    rcases each p mem with ⟨entry, rounds⟩
    cases first : firstEntry inputs.first p.1 p.2 (carry.get? p.1) with
    | error error => simp [entryRounds, first, bind, Except.bind] at rounds
    | ok after => exact ⟨after, rfl⟩
  | ok bag =>
    rcases foldlM_pointwise (pointwise_fillProperty inputs.second) distinct bag with
      ⟨secondOk, secondEntries⟩
    have entry : ∀ p ∈ properties, entryRounds inputs p.1 p.2 (carry.get? p.1) =
        secondEntry inputs.second p.1 p.2 (bag.get? p.1) := by
      intro p mem
      simp [entryRounds, (firstEntries bag run).1 p mem, bind, Except.bind]
    refine ⟨secondOk.trans ?_, ?_⟩
    · constructor <;> intro each p mem
      · rw [entry p mem]
        exact each p mem
      · rw [← entry p mem]
        exact each p mem
    · intro out run p mem
      rw [entry p mem]
      exact (secondEntries out run).1 p mem

/--
The two rounds do to a property what one substitution of its source with both contexts
does: they fail if it fails, and otherwise store its value and fail for no reason of
their own.
-/
def RoundsAgree (properties : List (String × SchemaProperty)) (inputs : DispatchInputs)
    (carry : Bag) (name : String) (prop : SchemaProperty) (source : String) : Prop :=
  match substituteValue source inputs.union with
  | .error _ => ∀ out, twoRounds ⟨some properties⟩ inputs carry ≠ .ok out
  | .ok value =>
    (∀ out, twoRounds ⟨some properties⟩ inputs carry = .ok out →
      out.get? name = some (storedValue prop value)) ∧
    ((∃ out, twoRounds ⟨some (properties.filter (·.1 ≠ name))⟩ inputs carry = .ok out) →
      ∃ out, twoRounds ⟨some properties⟩ inputs carry = .ok out)

def EntryAgrees (inputs : DispatchInputs) (carried : Option Json) (name : String)
    (prop : SchemaProperty) (source : String) : Prop :=
  match substituteValue source inputs.union with
  | .error _ => ∀ entry, entryRounds inputs name prop carried ≠ .ok entry
  | .ok value => entryRounds inputs name prop carried = .ok (some (storedValue prop value))

theorem roundsAgree_of_entryAgrees (distinct : (properties.map Prod.fst).Nodup)
    (mem : (name, prop) ∈ properties)
    (agrees : EntryAgrees inputs (carry.get? name) name prop source) :
    RoundsAgree properties inputs carry name prop source := by
  unfold RoundsAgree
  unfold EntryAgrees at agrees
  rcases twoRounds_pointwise distinct inputs carry with ⟨resolves, entries⟩
  cases outcome : substituteValue source inputs.union with
  | error error =>
    simp only [outcome] at agrees
    intro out run
    exact agrees _ (entries out run _ mem)
  | ok value =>
    simp only [outcome] at agrees
    refine ⟨?_, ?_⟩
    · intro out run
      have entry := entries out run _ mem
      simp only [agrees, Except.ok.injEq] at entry
      exact entry.symm
    · intro others
      have distinct' : ((properties.filter (·.1 ≠ name)).map Prod.fst).Nodup :=
        distinct.sublist (filter_sublist.map _)
      rw [(twoRounds_pointwise distinct' inputs carry).1] at others
      rw [resolves]
      intro p inP
      by_cases same : p.1 = name
      · -- the names are distinct, so this is the property itself
        have equal : p = (name, prop) := inj_on_of_nodup_map distinct inP mem same
        exact ⟨_, by rw [equal]; exact agrees⟩
      · exact others p (by simp [inP, same])

theorem entryAgrees_of_roundsAgree
    (agree : RoundsAgree [(name, prop)] inputs carry name prop source) :
    EntryAgrees inputs (carry.get? name) name prop source := by
  have distinct : ([(name, prop)].map Prod.fst).Nodup := by simp
  rcases twoRounds_pointwise distinct inputs carry with ⟨resolves, entries⟩
  unfold RoundsAgree at agree
  unfold EntryAgrees
  cases outcome : substituteValue source inputs.union with
  | error error =>
    simp only [outcome] at agree
    intro entry rounds
    rcases resolves.mpr (by simpa using ⟨entry, rounds⟩) with ⟨out, run⟩
    exact agree out run
  | ok value =>
    simp only [outcome] at agree
    have none : ∃ out, twoRounds ⟨some ([(name, prop)].filter (·.1 ≠ name))⟩ inputs carry =
        .ok out := ⟨carry, by simp [twoRounds, substituteAttributesSchemaWith, fillClaimRefs]; rfl⟩
    rcases agree.2 none with ⟨out, run⟩
    rw [entries out run (name, prop) (by simp), agree.1 out run]

theorem roundsAgree_iff_entryAgrees (name : String) (prop : SchemaProperty) (source : String)
    (inputs : DispatchInputs) (carry : Bag) :
    (∀ properties : List (String × SchemaProperty), (properties.map Prod.fst).Nodup →
      (name, prop) ∈ properties → RoundsAgree properties inputs carry name prop source) ↔
    EntryAgrees inputs (carry.get? name) name prop source := by
  constructor
  · intro agree
    exact entryAgrees_of_roundsAgree (agree [(name, prop)] (by simp) (by simp))
  · intro agrees properties distinct mem
    exact roundsAgree_of_entryAgrees distinct mem agrees

def lateDirectives (source : String) : List (List Char) :=
  (sourceDirectives source).filter fun body => isLateBound (bodyParts body)

def Unresolvable (source : String) : Prop := ∀ ctx value, substituteValue source ctx ≠ .ok value

/-- Without claims and partition key the source never fails with a missing source. -/
def FailsHard (source : String) : Prop :=
  ∀ ctx, ctx.claim = [] → ctx.childPartitionKey = "" →
    ∀ error, substituteValue source ctx = .error error → error.isMissingSource = false

/--
What makes the two rounds agree with one: nothing is carried forward, no directive
needs the dependencies, which the second round does not have, and the first failure among
the late-bound directives is a missing source, so that the first round defers. A source
that cannot resolve at all only must not be hidden by a carried value.
-/
def RoundsCondition (source : String) (carried : Option Json) : Prop :=
  (Unresolvable source ∧ (carried = none ∨ FailsHard source)) ∨
  (carried = none ∧ (∀ body ∈ sourceDirectives source, isUpstreamBound (bodyParts body) = false) ∧
    ∃ error, firstError {} (lateDirectives source) = some error ∧ error.isMissingSource)

section LateBound

variable {name : String} {prop : SchemaProperty} {source : String}
  (declared : prop.source = some source) (late : lateDirectives source ≠ [])

theorem mem_lateDirectives : body ∈ lateDirectives source ↔
    body ∈ sourceDirectives source ∧ isLateBound (bodyParts body) := by
  simp [lateDirectives]

include late in
theorem sourceReferencesLateBound_of_late : sourceReferencesLateBound source := by
  rcases exists_mem_of_ne_nil _ late with ⟨body, mem⟩
  rw [mem_lateDirectives] at mem
  have inSource := infix_bodyText mem.1
  unfold sourceReferencesLateBound
  rw [Bool.or_eq_true, decide_eq_true_eq, decide_eq_true_eq]
  exact (infix_isLateBound mem.2).imp (·.trans inSource) (·.trans inSource)

include late in
theorem source_ne_empty_of_late : source ≠ "" := by
  rintro rfl
  exact absurd (sourceReferencesLateBound_of_late late) (by decide)

include declared late in
theorem entryRounds_of_late (inputs : DispatchInputs) (carried : Option Json) :
    entryRounds inputs name prop carried =
      match substituteValue source inputs.first with
      | .ok value => .ok (some (storedValue prop value))
      | .error error =>
        if error.isMissingSource then
          match carried with
          | some value => .ok (some value)
          | none =>
            match substituteValue source inputs.second with
            | .ok value => .ok (some (storedValue prop value))
            | .error error => .error (error.withField name)
        else .error (error.withField name) := by
  have nonempty := source_ne_empty_of_late late
  have text := sourceReferencesLateBound_of_late late
  unfold entryRounds firstEntry
  simp only [declared, nonempty, if_false, text, Bool.and_true]
  cases substituteValue source inputs.first with
  | ok value => simp [secondEntry, bind, Except.bind]
  | error error =>
    cases missing : error.isMissingSource with
    | false => simp [missing, bind, Except.bind]
    | true =>
      cases carried <;>
        simp [secondEntry, declared, nonempty, text, missing, bind, Except.bind]

end LateBound

theorem resolveMatch_first_of_early (inputs : DispatchInputs)
    (early : isLateBound (bodyParts body) = false) :
    SameOutcome (resolveMatch body inputs.first) (resolveMatch body inputs.union) :=
  resolveMatch_congr (raw_congr_of_not_late early rfl rfl rfl rfl)

theorem resolveMatch_first_of_late (inputs : DispatchInputs) (late : isLateBound (bodyParts body)) :
    SameOutcome (resolveMatch body {}) (resolveMatch body inputs.first) :=
  resolveMatch_congr ((raw_of_late late rfl rfl).trans (raw_of_late late rfl rfl).symm)

theorem substituteValue_second (inputs : DispatchInputs)
    (noUpstream : ∀ body ∈ sourceDirectives source, isUpstreamBound (bodyParts body) = false) :
    SameOutcome (substituteValue source inputs.second) (substituteValue source inputs.union) :=
  substituteValue_congr fun body mem =>
    resolveMatch_congr (raw_congr_of_not_upstream (noUpstream body mem) rfl rfl rfl rfl)

theorem firstError_filter_late {bodies : List (List Char)}
    (resolve : ∀ body ∈ bodies, isLateBound (bodyParts body) = false →
      ∃ value, resolveMatch body ctx = .ok value) :
    firstError ctx (bodies.filter fun body => isLateBound (bodyParts body)) =
      firstError ctx bodies := by
  induction bodies with
  | nil => rfl
  | cons body bodies ih =>
    have tail := ih fun other mem => resolve other (by simp [mem])
    cases late : isLateBound (bodyParts body) with
    | true => simp [late, firstError, tail]
    | false =>
      rcases resolve body (by simp) late with ⟨value, outcome⟩
      simp [late, firstError, outcome, tail]

theorem lateDirectives_flags (source : String) (inputs : DispatchInputs) :
    (firstError {} (lateDirectives source)).map SubstitutionError.isMissingSource =
      (firstError inputs.first (lateDirectives source)).map SubstitutionError.isMissingSource :=
  firstError_congr fun _ mem => resolveMatch_first_of_late inputs (mem_lateDirectives.mp mem).2

theorem first_missing_iff (resolved : substituteValue source inputs.union = .ok value) :
    (∃ error, substituteValue source inputs.first = .error error ∧ error.isMissingSource) ↔
      ∃ error, firstError {} (lateDirectives source) = some error ∧ error.isMissingSource := by
  have each := (substituteValue_ok_iff source inputs.union).mp ⟨value, resolved⟩
  have early : ∀ body ∈ sourceDirectives source, isLateBound (bodyParts body) = false →
      ∃ value, resolveMatch body inputs.first = .ok value := by
    intro body mem early
    rcases each body mem with ⟨value, outcome⟩
    exact ⟨value, ((resolveMatch_first_of_early inputs early).ok_iff value).mpr outcome⟩
  have flags := lateDirectives_flags source inputs
  simp only [substituteValue_eq_error, ← firstError_filter_late early]
  change (∃ error, firstError inputs.first (lateDirectives source) = some error ∧ _) ↔ _
  revert flags
  cases firstError {} (lateDirectives source) <;>
    cases firstError inputs.first (lateDirectives source) <;> simp
  intro equal
  rw [equal]

theorem first_fails_of_late {error : SubstitutionError}
    (fails : firstError {} (lateDirectives source) = some error) (inputs : DispatchInputs) :
    ∃ error, substituteValue source inputs.first = .error error := by
  have flags := lateDirectives_flags source inputs
  cases outcome : substituteValue source inputs.first with
  | error error => exact ⟨error, rfl⟩
  | ok value =>
    have each := (substituteValue_ok_iff source inputs.first).mp ⟨value, outcome⟩
    have none : firstError inputs.first (lateDirectives source) = none :=
      (firstError_eq_none_iff _ _).mpr fun body mem => each body (mem_lateDirectives.mp mem).1
    simp [fails, none] at flags

section LateBound

variable {name : String} {prop : SchemaProperty} {source : String}
  (declared : prop.source = some source) (late : lateDirectives source ≠ [])

include declared late in
theorem entryAgrees_of_strict
    (noUpstream : ∀ body ∈ sourceDirectives source, isUpstreamBound (bodyParts body) = false)
    {error : SubstitutionError} (fails : firstError {} (lateDirectives source) = some error)
    (missing : error.isMissingSource) (inputs : DispatchInputs) :
    EntryAgrees inputs none name prop source := by
  have same := substituteValue_second inputs noUpstream
  rcases first_fails_of_late fails inputs with ⟨error', first⟩
  unfold EntryAgrees
  rw [entryRounds_of_late declared late, first]
  cases union : substituteValue source inputs.union with
  | ok value =>
    rcases (first_missing_iff union).mpr ⟨error, fails, missing⟩ with ⟨error'', first', missing'⟩
    rw [first'] at first
    injection first with equal
    subst equal
    simp [missing', (same.ok_iff value).mpr union]
  | error unionError =>
    cases second : substituteValue source inputs.second with
    | ok value => simp [(same.ok_iff value).mp second] at union
    | error secondError => by_cases missing' : error'.isMissingSource <;> simp [missing']

include declared late in
theorem entryAgrees_of_unresolvable (never : Unresolvable source)
    (exposed : carried = none ∨ FailsHard source) (inputs : DispatchInputs) :
    EntryAgrees inputs carried name prop source := by
  unfold EntryAgrees
  rw [entryRounds_of_late declared late]
  cases union : substituteValue source inputs.union with
  | ok value => exact absurd union (never _ _)
  | error unionError =>
    intro entry
    cases first : substituteValue source inputs.first with
    | ok value => exact absurd first (never _ _)
    | error firstError =>
      cases second : substituteValue source inputs.second with
      | ok value => exact absurd second (never _ _)
      | error secondError =>
        rcases exposed with rfl | hard
        · by_cases missing : firstError.isMissingSource <;> simp [missing]
        · simp [hard inputs.first rfl rfl firstError first]

include declared late in
theorem entryAgrees_of_condition (holds : RoundsCondition source carried)
    (inputs : DispatchInputs) : EntryAgrees inputs carried name prop source := by
  rcases holds with ⟨never, exposed⟩ | ⟨rfl, noUpstream, error, fails, missing⟩
  · exact entryAgrees_of_unresolvable declared late never exposed inputs
  · exact entryAgrees_of_strict declared late noUpstream fails missing inputs

end LateBound

def sourceNames (source : String) : List String := (sourceDirectives source).flatMap bodyParts

theorem mem_sourceNames (mem : body ∈ sourceDirectives source) {part : String}
    (inBody : part ∈ bodyParts body) : part ∈ sourceNames source :=
  mem_flatMap.mpr ⟨body, mem, inBody⟩

theorem length_bodyParts_le (mem : body ∈ sourceDirectives source) :
    (bodyParts body).length ≤ (sourceNames source).length := by
  unfold sourceNames
  generalize sourceDirectives source = bodies at mem
  induction bodies with
  | nil => simp at mem
  | cons other bodies ih =>
    simp only [flatMap_cons, length_append]
    rcases mem_cons.mp mem with rfl | mem
    · omega
    · have := ih mem
      omega

def withRichClaims (source : String) (length : Nat) (ctx : ResolveContext) : ResolveContext :=
  { ctx with
    claim := richClaims (sourceNames source) (sourceNames source).length length
    childPartitionKey := longText length }

def withRichDeps (source : String) (length : Nat) (ctx : ResolveContext) : ResolveContext :=
  { ctx with
    deps := richDeps (sourceNames source) (sourceNames source).length length
    registryDeclaredTypes := none }

/--
A source that resolves also resolves, to a long text, in a context that differs from its
own only in that some directives are found there at length.
-/
theorem substituteValue_of_rich {ctx' : ResolveContext}
    (resolved : substituteValue source ctx = .ok value) (bound : List Char → Bool)
    (rich : ∀ body ∈ sourceDirectives source, bound body → ∃ value,
      rawValue body ctx' = some value ∧ length ≤ (directiveText value).length)
    (other : ∀ body ∈ sourceDirectives source, bound body = false →
      rawValue body ctx = rawValue body ctx')
    (some : ∃ body ∈ sourceDirectives source, bound body) :
    ∃ value, substituteValue source ctx' = .ok value ∧ length ≤ (directiveText value).length := by
  have each := (substituteValue_ok_iff source ctx).mp ⟨value, resolved⟩
  have resolves : ∃ value, substituteValue source ctx' = .ok value := by
    apply (substituteValue_ok_iff source ctx').mpr
    intro body mem
    rcases each body mem with ⟨value, outcome⟩
    cases kind : bound body with
    | true =>
      rcases rich body mem kind with ⟨found, raw, -⟩
      exact ⟨found, resolveMatch_of_raw outcome raw⟩
    | false =>
      exact ⟨value, ((resolveMatch_congr (other body mem kind)).ok_iff value).mp outcome⟩
  rcases resolves with ⟨long, resolved'⟩
  rcases some with ⟨body, mem, kind⟩
  rcases each body mem with ⟨old, outcome⟩
  rcases rich body mem kind with ⟨found, raw, bounded⟩
  refine ⟨long, resolved', bounded.trans ?_⟩
  exact length_directiveText_le_value resolved' mem (resolveMatch_of_raw outcome raw)

theorem substituteValue_withRichClaims (late : lateDirectives source ≠ [])
    (resolved : substituteValue source ctx = .ok value) (positive : 0 < length) :
    ∃ value, substituteValue source (withRichClaims source length ctx) = .ok value ∧
      length ≤ (directiveText value).length := by
  apply substituteValue_of_rich resolved fun body => isLateBound (bodyParts body)
  · intro body mem bound
    exact raw_richClaims bound (fun part => mem_sourceNames mem)
      (length_bodyParts_le mem) positive ctx
  · intro body mem early
    exact raw_congr_of_not_late early rfl rfl rfl rfl
  · rcases exists_mem_of_ne_nil _ late with ⟨body, mem⟩
    exact ⟨body, mem_lateDirectives.mp mem⟩

theorem substituteValue_withRichDeps
    (upstream : ∃ body ∈ sourceDirectives source, isUpstreamBound (bodyParts body))
    (resolved : substituteValue source ctx = .ok value) (length : Nat) :
    ∃ value, substituteValue source (withRichDeps source length ctx) = .ok value ∧
      length ≤ (directiveText value).length := by
  apply substituteValue_of_rich resolved fun body => isUpstreamBound (bodyParts body)
  · intro body mem bound
    exact raw_richDeps bound (fun part => mem_sourceNames mem) (length_bodyParts_le mem) ctx
  · intro body mem early
    exact raw_congr_of_not_upstream early rfl rfl rfl rfl
  · exact upstream

theorem storedValue_of_long (long : 0 < (directiveText value).length) :
    storedValue prop value = value := by
  cases value <;> simp_all [storedValue, directiveText]

section LateBound

variable {name : String} {prop : SchemaProperty} {source : String}
  (declared : prop.source = some source) (late : lateDirectives source ≠ [])
  {carried : Option Json} (agrees : ∀ inputs, EntryAgrees inputs carried name prop source)
  {ctx : ResolveContext} {value : Json} (resolved : substituteValue source ctx = .ok value)

def DispatchInputs.ofUnion (ctx : ResolveContext) : DispatchInputs where
  deps := ctx.deps
  params := ctx.params
  declaredTypes := ctx.registryDeclaredTypes
  claims := ctx.claim
  partitionKey := ctx.childPartitionKey
  env := ctx.envLookup

@[simp]
theorem DispatchInputs.union_ofUnion (ctx : ResolveContext) :
    (DispatchInputs.ofUnion ctx).union = ctx := rfl

theorem first_withRichClaims (source : String) (length : Nat) (ctx : ResolveContext) :
    (DispatchInputs.ofUnion (withRichClaims source length ctx)).first =
      (DispatchInputs.ofUnion ctx).first := rfl

theorem second_withRichDeps (source : String) (length : Nat) (ctx : ResolveContext) :
    (DispatchInputs.ofUnion (withRichDeps source length ctx)).second =
      (DispatchInputs.ofUnion ctx).second := rfl

include agrees in
theorem entryRounds_ofUnion (resolved : substituteValue source ctx = .ok value)
    (long : length < (directiveText value).length) :
    ∃ value, entryRounds (.ofUnion ctx) name prop carried = .ok (some value) ∧
      length < (directiveText value).length := by
  have agree := agrees (.ofUnion ctx)
  unfold EntryAgrees at agree
  rw [DispatchInputs.union_ofUnion, resolved] at agree
  refine ⟨value, ?_, long⟩
  have stored : storedValue prop value = value := storedValue_of_long (by omega)
  rw [← stored]
  exact agree

include declared late agrees resolved in
theorem deferred_of_agrees : carried = none ∧
    ∃ error, firstError {} (lateDirectives source) = some error ∧ error.isMissingSource := by
  -- the claims do not show in the first round, but make the single substitution arbitrarily long
  have rounds (length : Nat) : ∃ inputs : DispatchInputs,
      inputs.first = (DispatchInputs.ofUnion ctx).first ∧
      (∃ value, substituteValue source inputs.union = .ok value) ∧
      ∃ value, entryRounds inputs name prop carried = .ok (some value) ∧
        length < (directiveText value).length := by
    rcases substituteValue_withRichClaims late resolved (by omega : 0 < length + 1) with
      ⟨value, resolved', long⟩
    refine ⟨.ofUnion (withRichClaims source (length + 1) ctx), first_withRichClaims ..,
      ⟨value, ?_⟩, ?_⟩
    · rwa [DispatchInputs.union_ofUnion]
    · exact entryRounds_ofUnion agrees resolved' long
  simp only [entryRounds_of_late declared late] at rounds
  cases outcome : substituteValue source (DispatchInputs.ofUnion ctx).first with
  | ok value =>
    rcases rounds (directiveText (storedValue prop value)).length with
      ⟨inputs, same, -, long, stored, longer⟩
    simp only [same, outcome, Except.ok.injEq, Option.some.injEq] at stored
    subst stored
    omega
  | error error =>
    cases missing : error.isMissingSource with
    | false =>
      rcases rounds 0 with ⟨inputs, same, -, long, stored, -⟩
      simp [same, outcome, missing] at stored
    | true =>
      cases carried with
      | some value =>
        rcases rounds (directiveText value).length with ⟨inputs, same, -, long, stored, longer⟩
        simp only [same, outcome, missing, if_true, Except.ok.injEq,
          Option.some.injEq] at stored
        subst stored
        omega
      | none =>
        rcases rounds 0 with ⟨inputs, same, ⟨value, union⟩, -⟩
        exact ⟨rfl, (first_missing_iff union).mp ⟨error, same ▸ outcome, missing⟩⟩

include declared late agrees resolved in
theorem noUpstream_of_agrees :
    ∀ body ∈ sourceDirectives source, isUpstreamBound (bodyParts body) = false := by
  rcases deferred_of_agrees declared late agrees resolved with ⟨rfl, error, fails, -⟩
  by_contra upstream
  simp only [not_forall, Bool.not_eq_false] at upstream
  rcases upstream with ⟨body, mem, upstream⟩
  -- the dependencies do not show in the second round
  generalize second_eq : (DispatchInputs.ofUnion ctx).second = second
  have rounds (length : Nat) : ∃ inputs : DispatchInputs, inputs.second = second ∧
      ∃ value, entryRounds inputs name prop none = .ok (some value) ∧
        length < (directiveText value).length := by
    rcases substituteValue_withRichDeps ⟨body, mem, upstream⟩ resolved (length + 1) with
      ⟨value, resolved', long⟩
    refine ⟨.ofUnion (withRichDeps source (length + 1) ctx), ?_, ?_⟩
    · rw [second_withRichDeps, second_eq]
    · exact entryRounds_ofUnion agrees resolved' long
  simp only [entryRounds_of_late declared late] at rounds
  have stored (length : Nat) : ∃ value value', substituteValue source second = .ok value ∧
      storedValue prop value = value' ∧ length < (directiveText value').length := by
    rcases rounds length with ⟨inputs, same, value', stored, longer⟩
    rcases first_fails_of_late fails inputs with ⟨error', first⟩
    rw [first, same] at stored
    cases outcome : substituteValue source second with
    | error error => cases missing : error'.isMissingSource <;> simp [missing, outcome] at stored
    | ok value =>
      refine ⟨value, value', rfl, ?_, longer⟩
      cases missing : error'.isMissingSource with
      | false => simp [missing] at stored
      | true => simpa [missing, outcome] using stored
  rcases stored 0 with ⟨value, -, outcome, -⟩
  rcases stored (directiveText (storedValue prop value)).length with
    ⟨same, -, outcome', rfl, longer⟩
  rw [outcome] at outcome'
  injection outcome' with equal
  subst equal
  omega

end LateBound

theorem condition_of_entryAgrees (declared : prop.source = some source)
    (late : lateDirectives source ≠ [])
    (agrees : ∀ inputs, EntryAgrees inputs carried name prop source) :
    RoundsCondition source carried := by
  by_cases never : Unresolvable source
  · refine .inl ⟨never, ?_⟩
    cases carried with
    | none => exact .inl rfl
    | some value =>
      -- a missing source would be hidden by the carried value
      refine .inr fun ctx claims key error outcome => ?_
      by_contra missing
      have agree := agrees (.ofUnion ctx)
      have first : (DispatchInputs.ofUnion ctx).first = ctx := by
        rcases ctx with ⟨deps, claim, params, partitionKey, types, env⟩
        simp_all [DispatchInputs.ofUnion, DispatchInputs.first]
      unfold EntryAgrees at agree
      rw [entryRounds_of_late declared late, DispatchInputs.union_ofUnion, first,
        outcome] at agree
      rw [Bool.not_eq_false] at missing
      simp [missing] at agree
  · simp only [Unresolvable, not_forall, not_not] at never
    rcases never with ⟨ctx, value, resolved⟩
    rcases deferred_of_agrees declared late agrees resolved with ⟨none, deferred⟩
    exact .inr ⟨none, noUpstream_of_agrees declared late agrees resolved, deferred⟩

/--
For a property with a late-bound source the two rounds agree with one substitution, in every
schema and for all inputs, exactly under `RoundsCondition`.
-/
theorem roundsAgree_iff {name : String} {prop : SchemaProperty} {source : String}
    (declared : prop.source = some source) (late : lateDirectives source ≠ []) (carry : Bag) :
    (∀ (properties : List (String × SchemaProperty)) (inputs : DispatchInputs),
      (properties.map Prod.fst).Nodup → (name, prop) ∈ properties →
        RoundsAgree properties inputs carry name prop source) ↔
    RoundsCondition source (carry.get? name) := by
  constructor
  · intro agree
    apply condition_of_entryAgrees declared late
    intro inputs
    exact (roundsAgree_iff_entryAgrees name prop source inputs carry).mp
      fun properties => agree properties inputs
  · intro holds properties inputs
    exact (roundsAgree_iff_entryAgrees name prop source inputs carry).mpr
      (entryAgrees_of_condition declared late holds inputs) properties

def addressProperty : SchemaProperty where
  source := some "\x7b\x7bclaim.db.address\x7d\x7d"

def addressInputs (address : String) : DispatchInputs where
  deps := []
  params := none
  declaredTypes := none
  claims := [("db", { address := some (Json.raw (.str address)) })]
  partitionKey := ""
  env := fun _ => none

/-- On the first dispatch of a node the address is that of its claim. -/
theorem roundsAgree_iff_first_address :
    lateDirectives "\x7b\x7bclaim.db.address\x7d\x7d" ≠ [] ∧
    ∀ (properties : List (String × SchemaProperty)) (inputs : DispatchInputs),
      (properties.map Prod.fst).Nodup → ("url", addressProperty) ∈ properties →
        RoundsAgree properties inputs [] "url" addressProperty
          "\x7b\x7bclaim.db.address\x7d\x7d" := by
  have late : lateDirectives "\x7b\x7bclaim.db.address\x7d\x7d" ≠ [] := by decide +kernel
  have fails : firstError {} (lateDirectives "\x7b\x7bclaim.db.address\x7d\x7d") =
      some (.missingSource "claim.db.address" "no claim for alias db" "") := by decide +kernel
  have noUpstream : ∀ body ∈ sourceDirectives "\x7b\x7bclaim.db.address\x7d\x7d",
      isUpstreamBound (bodyParts body) = false := by decide +kernel
  have declared : addressProperty.source = some "\x7b\x7bclaim.db.address\x7d\x7d" := rfl
  exact ⟨late, (roundsAgree_iff declared late []).mpr (.inr ⟨rfl, noUpstream, _, fails, rfl⟩)⟩

theorem not_roundsAgree {out : Bag} (rounds : twoRounds ⟨some properties⟩ inputs carry = .ok out)
    (single : substituteValue source inputs.union = .ok value)
    (differs : out.get? name ≠ some (storedValue prop value)) :
    ¬ RoundsAgree properties inputs carry name prop source := by
  intro agree
  unfold RoundsAgree at agree
  rw [single] at agree
  exact differs (agree.1 out rounds)

/-- On a later dispatch the address of the earlier claim, carried forward, survives. -/
theorem carried_address_survives :
    twoRounds ⟨some [("url", addressProperty)]⟩ (addressInputs "db-2") [("url", .str "db-1")] =
      .ok [("url", .str "db-1")] ∧
    substituteValue "\x7b\x7bclaim.db.address\x7d\x7d" (addressInputs "db-2").union =
      .ok (.str "db-2") ∧
    ¬ RoundsAgree [("url", addressProperty)] (addressInputs "db-2") [("url", .str "db-1")] "url"
      addressProperty "\x7b\x7bclaim.db.address\x7d\x7d" := by
  have rounds : twoRounds ⟨some [("url", addressProperty)]⟩ (addressInputs "db-2")
      [("url", .str "db-1")] = .ok [("url", .str "db-1")] := by
    decide +kernel
  have single : substituteValue "\x7b\x7bclaim.db.address\x7d\x7d" (addressInputs "db-2").union =
      .ok (.str "db-2") := by decide +kernel
  exact ⟨rounds, single, not_roundsAgree rounds single (by decide +kernel)⟩

end Rimsky
