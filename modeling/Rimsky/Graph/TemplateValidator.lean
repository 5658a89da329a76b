import Rimsky.Graph.Subscription
import Rimsky.Lib.Keyed

/-!
# Validating claims and holds

The checks of `graph/node/template_validator.go` and `template_validator_holds.go` that are
about claim producers and `holds`. Intents and lifetimes are enumerations here, so the checks
of their texts have nothing to reject, and the directives of selectors are checked by a hook.
-/

namespace Rimsky

open List hiding beq_eq_decide

variable {ref : NodeClaimProducerRef} {n : TemplateNodeDef}

structure ValidationError where
  path : String
  msg : String
  deriving DecidableEq, Repr

structure RegistryHooks where
  storeDeclared : Option (String → Bool) := none
  /-- `checkScopeDirectives` of a selector found at a path. -/
  checkScopeDirectives : String → String → List ValidationError := fun _ _ => []

def trimmed (text : String) : String := String.ofList (trimSpace text.toList)

/-- The escape of a character in a text printed by `%q`. -/
def escapedChar (c : Char) : List Char :=
  if c = '"' ∨ c = '\\' then ['\\', c]
  else match (['\x07', '\x08', '\t', '\n', '\x0b', '\x0c', '\r'].zip "abtnvfr".toList).lookup c with
    | some letter => ['\\', letter]
    | none =>
      if c.toNat < 32 ∨ c.toNat = 127 then
        ['\\', 'x', Nat.digitChar (c.toNat / 16), Nat.digitChar (c.toNat % 16)]
      else [c]

/-- A text printed by `%q`; characters beyond ASCII are taken to be printable. -/
def quoted (text : String) : String :=
  String.ofList ('"' :: text.toList.flatMap escapedChar ++ ['"'])

/-- The loop of `ValidateTemplate` that collects the node types, from an index on. -/
def validateNodeTypesFrom : Nat → List String → List TemplateNodeDef → List ValidationError
  | _, _, [] => []
  | i, declared, n :: rest =>
    let path := "nodes[" ++ toString i ++ "].type"
    if trimmed n.type = "" then
      { path, msg := "type is required" } :: validateNodeTypesFrom (i + 1) declared rest
    else if declared.contains n.type then
      { path, msg := "duplicate node type " ++ quoted n.type } ::
        validateNodeTypesFrom (i + 1) declared rest
    else validateNodeTypesFrom (i + 1) (n.type :: declared) rest

/-- The loop of `validateClaimProducers` from an index on; `seen` are the aliases before it. -/
def validateClaimProducersFrom (hooks : RegistryHooks) (base : String) :
    Nat → List (String × Nat) → List NodeClaimProducerRef → List ValidationError
  | _, _, [] => []
  | j, seen, ref :: rest =>
    let sbase := base ++ ".claim_producers[" ++ toString j ++ "]"
    let name := trimmed ref.name
    if name = "" then
      { path := sbase ++ ".name", msg := "store name is required" } ::
        validateClaimProducersFrom hooks base (j + 1) seen rest
    else if hooks.storeDeclared.any fun declared => !declared name then
      { path := sbase ++ ".name"
        msg := "store " ++ quoted name ++
          " is not declared in the operator's claim_producers: block" } ::
        validateClaimProducersFrom hooks base (j + 1) seen rest
    else
      (if trimmed ref.selector = "" then
        [{ path := sbase ++ ".selector", msg := "selector is required" }]
      else hooks.checkScopeDirectives ref.selector (sbase ++ ".selector")) ++
      match seen.lookup ref.aliasOf with
      | some prev =>
        { path := sbase ++ ".alias"
          msg := "duplicate claim alias " ++ quoted ref.aliasOf ++
            " (already at claim_producers[" ++ toString prev ++ "])" } ::
          validateClaimProducersFrom hooks base (j + 1) seen rest
      | none =>
        validateClaimProducersFrom hooks base (j + 1) ((ref.aliasOf, j) :: seen) rest

def validateClaimProducers (hooks : RegistryHooks) (n : TemplateNodeDef) (base : String) :
    List ValidationError :=
  validateClaimProducersFrom hooks base 0 [] n.claimProducers

def effectiveHoldsLocalAlias (heldAlias : String) (binding : HoldsBinding) : String :=
  if trimmed binding.as ≠ "" then trimmed binding.as else heldAlias

def TemplateNodeDef.storeAliasDeclared (n : TemplateNodeDef) (claimAlias : String) : Bool :=
  n.claimProducers.any (·.aliasOf = claimAlias)

/-- `validateHoldsLocalAliasCollisions`; the aliases are listed in the order of the map. -/
def validateHoldsLocalAliasCollisions (n : TemplateNodeDef) (base : String) :
    List ValidationError :=
  let locals := (n.holds.map fun (heldAlias, binding) =>
    effectiveHoldsLocalAlias heldAlias binding).eraseDups
  locals.filterMap fun localAlias =>
    let aliases := (n.holds.filter fun (heldAlias, binding) =>
      effectiveHoldsLocalAlias heldAlias binding = localAlias).map (·.1)
    if aliases.length < 2 then none
    else some {
      path := base ++ ".holds"
      msg := "holds_local_alias_collision: aliases " ++ ", ".intercalate aliases ++
        " resolve to the same local alias " ++ quoted localAlias ++
        " (via as: or the alias itself); each holds: entry must resolve to a distinct local alias" }

def validateHold (spec : TemplateSpec) (n : TemplateNodeDef) (base : String)
    (entry : String × HoldsBinding) : List ValidationError :=
  let hbase := base ++ ".holds[" ++ entry.1 ++ "]"
  let sender := trimmed entry.2.from
  if sender = "" then [{ path := hbase ++ ".from", msg := "from is required" }]
  else if sender = n.type then
    [{ path := hbase ++ ".from"
       msg := "holds_from_not_dependency: " ++ quoted sender ++ " cannot hold from itself — a " ++
        "co-holdership pointer is not an upstream dependency of its own node" }]
  else
    match spec.lookupNodeDef sender with
    | none =>
      [{ path := hbase ++ ".from"
         msg := "holds_from_undeclared: " ++ quoted sender ++
          " does not name a node declared in this template" }]
    | some senderDef =>
      if senderDef.storeAliasDeclared entry.1 then []
      else
        [{ path := hbase
           msg := "holds_unknown_claim_alias: node " ++ quoted sender ++
            " does not declare a claim alias " ++ quoted entry.1 ++ " in its claims: block" }]

def validateHolds (spec : TemplateSpec) (n : TemplateNodeDef) (base : String) :
    List ValidationError :=
  if n.holds.isEmpty then []
  else validateHoldsLocalAliasCollisions n base ++ n.holds.flatMap (validateHold spec n base)

/-- The part of `ValidateTemplate` that is about node types and claims. -/
def validateClaims (hooks : RegistryHooks) (spec : TemplateSpec) : List ValidationError :=
  validateNodeTypesFrom 0 [] spec.nodes ++ spec.nodes.zipIdx.flatMap fun (n, i) =>
    let base := "nodes[" ++ toString i ++ "]"
    validateClaimProducers hooks n base ++ validateHolds spec n base

theorem trimmed_empty : trimmed "" = "" := by decide

theorem ne_empty_of_trimmed {text : String} (named : trimmed text ≠ "") : text ≠ "" := by
  rintro rfl
  exact named trimmed_empty

theorem NodeClaimProducerRef.aliasOf_ne_empty (named : trimmed ref.name ≠ "") :
    ref.aliasOf ≠ "" := by
  unfold NodeClaimProducerRef.aliasOf
  split
  case isTrue declared => exact declared
  case isFalse => exact ne_empty_of_trimmed named

theorem nodeTypesFrom_accepted {nodes : List TemplateNodeDef} {i : Nat} {declared : List String}
    (accepted : validateNodeTypesFrom i declared nodes = []) :
    (∀ n ∈ nodes, n.type ≠ "" ∧ n.type ∉ declared) ∧ (nodes.map (·.type)).Nodup := by
  induction nodes generalizing i declared with
  | nil => simp
  | cons n rest ih =>
    simp only [validateNodeTypesFrom] at accepted
    split at accepted
    case isTrue => simp at accepted
    case isFalse named =>
      split at accepted
      case isTrue => simp at accepted
      case isFalse new =>
        rcases ih accepted with ⟨each, distinct⟩
        have new : n.type ∉ declared := by simpa using new
        refine ⟨?_, ?_⟩
        · intro other mem
          rcases mem_cons.mp mem with rfl | mem
          · exact ⟨ne_empty_of_trimmed named, new⟩
          · exact ⟨(each other mem).1, fun old => (each other mem).2 (mem_cons_of_mem _ old)⟩
        · rw [map_cons, nodup_cons]
          refine ⟨?_, distinct⟩
          intro mem
          rcases mem_map.mp mem with ⟨other, mem, same⟩
          apply (each other mem).2
          simp [same]

theorem claimProducersFrom_accepted {hooks : RegistryHooks} {base : String}
    {refs : List NodeClaimProducerRef} {j : Nat} {seen : List (String × Nat)}
    (accepted : validateClaimProducersFrom hooks base j seen refs = []) :
    (∀ ref ∈ refs, trimmed ref.name ≠ "" ∧ ref.aliasOf ∉ seen.map (·.1)) ∧
      (refs.map (·.aliasOf)).Nodup := by
  induction refs generalizing j seen with
  | nil => simp
  | cons ref rest ih =>
    simp only [validateClaimProducersFrom] at accepted
    split at accepted
    case isTrue => simp at accepted
    case isFalse named =>
      split at accepted
      case isTrue => simp at accepted
      case isFalse =>
        rw [append_eq_nil_iff] at accepted
        rcases accepted with ⟨-, accepted⟩
        split at accepted
        case h_1 => simp at accepted
        case h_2 new =>
          rcases ih accepted with ⟨each, distinct⟩
          have unseen : ref.aliasOf ∉ seen.map (·.1) := by
            intro mem
            rcases mem_map.mp mem with ⟨entry, mem, same⟩
            rw [lookup_eq_none_iff] at new
            simpa [same] using new entry mem
          have apart : ∀ other ∈ rest, other.aliasOf ≠ ref.aliasOf := by
            intro other mem same
            apply (each other mem).2
            simp [same]
          refine ⟨?_, ?_⟩
          · intro other mem
            rcases mem_cons.mp mem with rfl | mem
            · exact ⟨named, unseen⟩
            · refine ⟨(each other mem).1, fun old => (each other mem).2 ?_⟩
              rw [map_cons, mem_cons]
              exact .inr old
          · rw [map_cons, nodup_cons]
            refine ⟨?_, distinct⟩
            intro mem
            rcases mem_map.mp mem with ⟨other, mem, same⟩
            exact apart other mem same

section Accepted

variable {hooks : RegistryHooks} {spec : TemplateSpec} (accepted : validateClaims hooks spec = [])

include accepted

theorem accepted_node (mem : n ∈ spec.nodes) :
    ∃ base, validateClaimProducers hooks n base = [] ∧ validateHolds spec n base = [] := by
  rcases getElem_of_mem mem with ⟨i, lt, rfl⟩
  have indexed : (spec.nodes[i], i) ∈ spec.nodes.zipIdx := by
    simp [mem_zipIdx_iff_getElem?]
  have each := flatMap_eq_nil_iff.mp (append_eq_nil_iff.mp accepted).2 _ indexed
  exact ⟨_, append_eq_nil_iff.mp each⟩

theorem accepted_type_ne_empty (mem : n ∈ spec.nodes) : n.type ≠ "" :=
  ((nodeTypesFrom_accepted (append_eq_nil_iff.mp accepted).1).1 n mem).1

theorem accepted_types_nodup : (spec.nodes.map (·.type)).Nodup :=
  (nodeTypesFrom_accepted (append_eq_nil_iff.mp accepted).1).2

theorem accepted_aliasOf_ne_empty (mem : n ∈ spec.nodes) (declared : ref ∈ n.claimProducers) :
    ref.aliasOf ≠ "" := by
  rcases accepted_node accepted mem with ⟨base, producers, -⟩
  exact NodeClaimProducerRef.aliasOf_ne_empty
    ((claimProducersFrom_accepted producers).1 ref declared).1

theorem accepted_aliases_nodup (mem : n ∈ spec.nodes) :
    (n.claimProducers.map (·.aliasOf)).Nodup := by
  rcases accepted_node accepted mem with ⟨base, producers, -⟩
  exact (claimProducersFrom_accepted producers).2

theorem lookupNodeDef_of_mem (mem : n ∈ spec.nodes) : spec.lookupNodeDef n.type = some n := by
  have found := find?_key (accepted_types_nodup accepted) mem
  simpa [TemplateSpec.lookupNodeDef, beq_eq_decide] using found

theorem find?_aliasOf (mem : n ∈ spec.nodes) (declared : ref ∈ n.claimProducers) :
    n.claimProducers.find? (·.aliasOf = ref.aliasOf) = some ref :=
  find?_key (accepted_aliases_nodup accepted mem) declared

variable {entry : String × HoldsBinding}

theorem accepted_holds (mem : n ∈ spec.nodes) (held : entry ∈ n.holds) :
    ∃ base, validateHoldsLocalAliasCollisions n base = [] ∧
      validateHold spec n base entry = [] := by
  rcases accepted_node accepted mem with ⟨base, -, holds⟩
  unfold validateHolds at holds
  split at holds
  case isTrue none => simp [List.isEmpty_iff.mp none] at held
  case isFalse =>
    rw [append_eq_nil_iff] at holds
    exact ⟨base, holds.1, flatMap_eq_nil_iff.mp holds.2 entry held⟩

theorem accepted_from_ne_empty (mem : n ∈ spec.nodes) (held : entry ∈ n.holds) :
    entry.2.from ≠ "" := by
  rcases accepted_holds accepted mem held with ⟨base, -, each⟩
  simp only [validateHold] at each
  split at each
  case isTrue => simp at each
  case isFalse named => exact ne_empty_of_trimmed named

theorem accepted_localAlias_inj (mem : n ∈ spec.nodes) {entry' : String × HoldsBinding}
    (held : entry ∈ n.holds) (held' : entry' ∈ n.holds)
    (same : effectiveHoldsLocalAlias entry.1 entry.2 = effectiveHoldsLocalAlias entry'.1 entry'.2) :
    entry = entry' := by
  rcases accepted_holds accepted mem held with ⟨base, collisions, -⟩
  have listed : effectiveHoldsLocalAlias entry.1 entry.2 ∈ (n.holds.map fun entry =>
      effectiveHoldsLocalAlias entry.1 entry.2).eraseDups := by
    rw [mem_eraseDups]
    exact mem_map_of_mem held
  have few := filterMap_eq_nil_iff.mp collisions _ listed
  simp only at few
  split at few
  case isFalse => simp at few
  case isTrue short =>
    rw [length_map] at short
    by_contra apart
    have both : [entry, entry'] ⊆ n.holds.filter fun e =>
        effectiveHoldsLocalAlias e.1 e.2 = effectiveHoldsLocalAlias entry.1 entry.2 := by
      simp [held, held', same]
    have two := (subperm_of_subset (by simpa using apart) both).length_le
    exact absurd (Nat.lt_of_le_of_lt two short) (by simp)

end Accepted

end Rimsky
