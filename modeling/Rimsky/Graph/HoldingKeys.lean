import Mathlib.Data.List.TakeWhile
import Rimsky.Graph.TemplateValidator

/-!
# Holding sub-graphs and their keys

Where an acquirer has a bar in its type, a key is not cut apart where it was joined, and
acquirers are read as written, with the blanks that the validator trims off. The sub-graphs are
those that a template declares just if neither occurs.
-/

namespace Rimsky.HoldingKeys

open List

def Declares (spec : TemplateSpec) (pair : String × String) : Prop :=
  ∃ n ∈ spec.nodes, ∃ ref ∈ n.claimProducers, (n.type, ref.aliasOf) = pair

/-- The member holds the alias from the acquirer, as the validator reads it. -/
def Holds (spec : TemplateSpec) (pair : String × String) (member : String) : Prop :=
  ∃ n ∈ spec.nodes, n.type = member ∧ ∃ hb, (pair.2, hb) ∈ n.holds ∧ trimmed hb.from = pair.1

def pairOf (sg : HoldingSubgraph) : String × String := (sg.acquirerType, sg.alias)

structure Exact (spec : TemplateSpec) (sgs : List HoldingSubgraph) : Prop where
  distinct : (sgs.map pairOf).Nodup
  pairs : ∀ pair, pair ∈ sgs.map pairOf ↔ Declares spec pair
  members : ∀ sg ∈ sgs, ∀ member,
    member ∈ sg.members ↔ member = sg.acquirerType ∨ Holds spec (pairOf sg) member

/-- Acquirers have no bar in their names, and `holds` no blanks around them. -/
structure Plain (spec : TemplateSpec) : Prop where
  bars : ∀ n ∈ spec.nodes, n.claimProducers ≠ [] → '|' ∉ n.type.toList
  blanks : ∀ n ∈ spec.nodes, ∀ entry ∈ n.holds, trimmed entry.2.from = entry.2.from

theorem splitSubgraphKey_subgraphKey {pair : String × String} (bare : '|' ∉ pair.1.toList) :
    splitSubgraphKey (subgraphKey pair) = pair := by
  have each : ∀ c ∈ pair.1.toList, decide (c ≠ '|') = true := by
    intro c mem
    exact decide_eq_true fun same => bare (same ▸ mem)
  have taken : (subgraphKey pair).toList.takeWhile (· ≠ '|') = pair.1.toList := by
    rw [subgraphKey, String.toList_append, String.toList_append, append_assoc,
      takeWhile_append_of_pos each]
    simp
  rw [splitSubgraphKey, taken]
  simp [subgraphKey]

theorem bare_splitSubgraphKey (key : String) : '|' ∉ (splitSubgraphKey key).1.toList := by
  intro mem
  have kept : '|' ∈ key.toList.takeWhile (· ≠ '|') := by simpa [splitSubgraphKey] using mem
  simpa using mem_takeWhile_imp kept

/-- A text that was joined has a bar, so cutting it apart and joining it again changes nothing. -/
theorem subgraphKey_splitSubgraphKey (pair : String × String) :
    subgraphKey (splitSubgraphKey (subgraphKey pair)) = subgraphKey pair := by
  have barred : '|' ∈ (subgraphKey pair).toList := by simp [subgraphKey]
  rcases eq_append_cons_of_mem barred with ⟨front, back, same, bare⟩
  have joined : subgraphKey pair = subgraphKey (String.ofList front, String.ofList back) := by
    apply String.toList_inj.mp
    simp [subgraphKey, ← same]
  rw [joined, splitSubgraphKey_subgraphKey (by simpa using bare)]

theorem bare_of_trimmed {text : String} (bare : '|' ∉ (trimmed text).toList) :
    '|' ∉ text.toList := by
  have kept : ∀ {chars : List Char}, '|' ∈ chars → '|' ∈ chars.dropWhile isSpace := by
    intro chars mem
    rw [← takeWhile_append_dropWhile (p := isSpace) (l := chars)] at mem
    rcases mem_append.mp mem with blank | rest
    · exact absurd (mem_takeWhile_imp blank) (by decide)
    · exact rest
  intro mem
  refine bare ?_
  simpa [trimmed, trimSpace] using kept (mem_reverse.mpr (kept mem))

variable {hooks : RegistryHooks} {spec : TemplateSpec} {n : TemplateNodeDef}
  {pair : String × String} {key member : String}

theorem mem_entered : (pair, member) ∈ entered n ↔
    ((∃ ref ∈ n.claimProducers, (n.type, ref.aliasOf) = pair) ∧ member = pair.1) ∨
      pair ∈ n.heldFrom ∧ (member = pair.1 ∨ member = n.type) := by
  simp only [entered, mem_append, mem_map, mem_flatMap, mem_pair, Prod.mk.injEq]
  refine or_congr ⟨?_, ?_⟩ ⟨?_, ?_⟩
  · rintro ⟨ref, declared, rfl, rfl⟩
    exact ⟨⟨ref, declared, rfl⟩, rfl⟩
  · rintro ⟨⟨ref, declared, rfl⟩, rfl⟩
    exact ⟨ref, declared, rfl, rfl⟩
  · rintro ⟨_, held, ⟨rfl, same⟩ | ⟨rfl, same⟩⟩
    · exact ⟨held, .inl same⟩
    · exact ⟨held, .inr same⟩
  · rintro ⟨held, same⟩
    exact ⟨pair, held, same.imp (⟨rfl, ·⟩) (⟨rfl, ·⟩)⟩

theorem mem_heldFrom : pair ∈ n.heldFrom ↔ ∃ hb, (pair.2, hb) ∈ n.holds ∧ hb.from = pair.1 ∧
    pair.1 ≠ "" ∧ pair.2 ≠ "" ∧ pair.1 ≠ n.type := by
  rcases pair with ⟨acquirer, heldAlias⟩
  simp only [TemplateNodeDef.heldFrom, mem_map, mem_filter, Bool.and_eq_true, decide_eq_true_eq,
    Prod.mk.injEq]
  constructor
  · rintro ⟨⟨_, hb⟩, ⟨held, ⟨named, aliased⟩, other⟩, rfl, rfl⟩
    exact ⟨hb, held, rfl, named, aliased, other⟩
  · rintro ⟨hb, held, rfl, named, aliased, other⟩
    exact ⟨(heldAlias, hb), ⟨held, ⟨named, aliased⟩, other⟩, rfl, rfl⟩

theorem pairs_perm (spec : TemplateSpec) : ((holdingSubgraphsForTemplate spec).map pairOf).Perm
    (((subgraphs spec).map (·.1)).eraseDups.map splitSubgraphKey) := by
  have sorted := (perm_insertionSort (fun a b : HoldingSubgraph => a.acquirerType < b.acquirerType ∨
    a.acquirerType = b.acquirerType ∧ a.alias ≤ b.alias)
      (((subgraphs spec).map (·.1)).eraseDups.map (subgraphOf spec))).map pairOf
  rwa [map_map] at sorted

theorem mem_subgraphOf : member ∈ (subgraphOf spec key).members ↔
    (key, member) ∈ subgraphs spec := by
  simp [subgraphOf]

theorem mem_holdingSubgraphs {sg : HoldingSubgraph} :
    sg ∈ holdingSubgraphsForTemplate spec ↔
      ∃ key member, (key, member) ∈ subgraphs spec ∧ subgraphOf spec key = sg := by
  simp [holdingSubgraphsForTemplate]

/-- A sub-graph has its members under the text its acquirer and its alias give. -/
theorem subgraphOf_of_mem {sg : HoldingSubgraph} (listed : sg ∈ holdingSubgraphsForTemplate spec) :
    sg = subgraphOf spec (subgraphKey (pairOf sg)) := by
  rcases mem_holdingSubgraphs.mp listed with ⟨key, member, filed, rfl⟩
  simp only [subgraphs, mem_map] at filed
  rcases filed with ⟨⟨pair, member⟩, -, same⟩
  cases same
  exact congrArg (subgraphOf spec) (subgraphKey_splitSubgraphKey pair).symm

theorem bare_of_mem {sg : HoldingSubgraph} (listed : sg ∈ holdingSubgraphsForTemplate spec) :
    '|' ∉ sg.acquirerType.toList := by
  rw [subgraphOf_of_mem listed]
  exact bare_splitSubgraphKey _

theorem pairOf_found {sgs : List HoldingSubgraph} {acquirerType heldAlias : String}
    {sg : HoldingSubgraph} (found : findHoldingSubgraph sgs acquirerType heldAlias = some sg) :
    sg ∈ sgs ∧ pairOf sg = (acquirerType, heldAlias) := by
  have named := find?_some found
  simp only [Bool.and_eq_true, decide_eq_true_eq] at named
  exact ⟨mem_of_find?_eq_some found, Prod.ext named.1 named.2⟩

/-- The members found for an acquirer and an alias: none, if the acquirer has a bar. -/
theorem mem_findHoldingSubgraph {acquirerType heldAlias : String} :
    (∃ sg, findHoldingSubgraph (holdingSubgraphsForTemplate spec) acquirerType heldAlias = some sg ∧
      member ∈ sg.members) ↔
    '|' ∉ acquirerType.toList ∧
      (subgraphKey (acquirerType, heldAlias), member) ∈ subgraphs spec := by
  constructor
  · rintro ⟨sg, found, joined⟩
    rcases pairOf_found found with ⟨listed, same⟩
    have bare : '|' ∉ (pairOf sg).1.toList := bare_of_mem listed
    rw [subgraphOf_of_mem listed, mem_subgraphOf] at joined
    rw [same] at bare joined
    exact ⟨bare, joined⟩
  · rintro ⟨bare, filed⟩
    have split := @splitSubgraphKey_subgraphKey (acquirerType, heldAlias) bare
    cases found : findHoldingSubgraph (holdingSubgraphsForTemplate spec) acquirerType heldAlias with
    | none =>
      have listed := mem_holdingSubgraphs.mpr ⟨_, _, filed, rfl⟩
      simpa [subgraphOf, split] using find?_eq_none.mp found _ listed
    | some sg =>
      rcases pairOf_found found with ⟨listed, same⟩
      refine ⟨sg, rfl, ?_⟩
      rw [subgraphOf_of_mem listed, mem_subgraphOf, same]
      exact filed

theorem mem_subgraphs_of_declared {ref : NodeClaimProducerRef} (mem : n ∈ spec.nodes)
    (declared : ref ∈ n.claimProducers) :
    (subgraphKey (n.type, ref.aliasOf), n.type) ∈ subgraphs spec :=
  mem_map.mpr ⟨((n.type, ref.aliasOf), n.type), mem_flatMap.mpr ⟨n, mem,
    mem_entered.mpr (.inl ⟨⟨ref, declared, rfl⟩, rfl⟩)⟩, rfl⟩

section Bare

variable (bare : ∀ n ∈ spec.nodes, ∀ entry ∈ entered n, '|' ∉ entry.1.1.toList)

include bare

/-- Where no acquirer has a bar, keys are cut apart where they were joined. -/
theorem mem_subgraphs : (key, member) ∈ subgraphs spec ↔
    subgraphKey (splitSubgraphKey key) = key ∧
      ∃ n ∈ spec.nodes, (splitSubgraphKey key, member) ∈ entered n := by
  simp only [subgraphs, mem_map, mem_flatMap]
  constructor
  · rintro ⟨⟨pair, member⟩, ⟨n, mem, listed⟩, same⟩
    cases same
    rw [splitSubgraphKey_subgraphKey (bare n mem _ listed)]
    exact ⟨rfl, n, mem, listed⟩
  · rintro ⟨joined, n, mem, listed⟩
    exact ⟨_, ⟨n, mem, listed⟩, congrArg (·, member) joined⟩

theorem mem_pairs : pair ∈ (holdingSubgraphsForTemplate spec).map pairOf ↔
    ∃ n ∈ spec.nodes, ∃ member, (pair, member) ∈ entered n := by
  simp only [(pairs_perm spec).mem_iff, mem_map, mem_eraseDups]
  constructor
  · rintro ⟨-, ⟨⟨key, member⟩, mem, rfl⟩, rfl⟩
    rcases (mem_subgraphs bare).mp mem with ⟨-, n, known, listed⟩
    exact ⟨n, known, member, listed⟩
  · rintro ⟨n, known, member, listed⟩
    have same : splitSubgraphKey (subgraphKey pair) = pair :=
      splitSubgraphKey_subgraphKey (bare n known _ listed)
    refine ⟨_, ⟨(subgraphKey pair, member), (mem_subgraphs bare).mpr ?_, rfl⟩, same⟩
    rw [same]
    exact ⟨rfl, n, known, listed⟩

theorem mem_members {sg : HoldingSubgraph} (listed : sg ∈ holdingSubgraphsForTemplate spec) :
    member ∈ sg.members ↔ ∃ n ∈ spec.nodes, (pairOf sg, member) ∈ entered n := by
  rcases mem_holdingSubgraphs.mp listed with ⟨key, first, mem, rfl⟩
  rw [mem_subgraphOf, mem_subgraphs bare]
  exact and_iff_right ((mem_subgraphs bare).mp mem).1

end Bare

section Accepted

variable (accepted : validateClaims hooks spec = [])

include accepted

theorem declares_of_held (mem : n ∈ spec.nodes) {heldAlias : String} {hb : HoldsBinding}
    (held : (heldAlias, hb) ∈ n.holds) :
    trimmed hb.from ≠ n.type ∧ Declares spec (trimmed hb.from, heldAlias) := by
  rcases accepted_holds accepted mem held with ⟨base, -, each⟩
  simp only [validateHold] at each
  split at each
  · cases each
  split at each
  · cases each
  rename_i other
  split at each
  · cases each
  rename_i sender found
  split at each
  · rename_i declared
    simp only [TemplateNodeDef.storeAliasDeclared, any_eq_true, decide_eq_true_eq] at declared
    rcases declared with ⟨ref, listed, same⟩
    have named : sender.type = trimmed hb.from := by simpa using find?_some found
    exact ⟨other, sender, mem_of_find?_eq_some found, ref, listed, by rw [named, same]⟩
  · cases each

theorem bare_of_bars (bars : ∀ n ∈ spec.nodes, n.claimProducers ≠ [] → '|' ∉ n.type.toList) :
    ∀ n ∈ spec.nodes, ∀ entry ∈ entered n, '|' ∉ entry.1.1.toList := by
  rintro n mem ⟨pair, member⟩ listed
  rcases mem_entered.mp listed with ⟨⟨ref, declared, rfl⟩, -⟩ | ⟨held, -⟩
  · exact bars n mem (ne_nil_of_mem declared)
  · rcases mem_heldFrom.mp held with ⟨hb, held, raw, -⟩
    rcases declares_of_held accepted mem held with ⟨-, sender, known, ref, declared, same⟩
    have named : sender.type = trimmed hb.from := congrArg Prod.fst same
    have bare := bars sender known (ne_nil_of_mem declared)
    rw [named] at bare
    exact raw ▸ bare_of_trimmed bare

theorem exact_of_plain (plain : Plain spec) : Exact spec (holdingSubgraphsForTemplate spec) := by
  have bare := bare_of_bars accepted plain.bars
  have declares : ∀ {pair member}, (∃ n ∈ spec.nodes, (pair, member) ∈ entered n) →
      Declares spec pair := by
    rintro pair member ⟨n, mem, listed⟩
    rcases mem_entered.mp listed with ⟨own, -⟩ | ⟨held, -⟩
    · exact ⟨n, mem, own⟩
    · rcases mem_heldFrom.mp held with ⟨hb, held, raw, -⟩
      have declares := (declares_of_held accepted mem held).2
      rwa [plain.blanks n mem _ held, raw] at declares
  have own : ∀ {pair}, Declares spec pair → ∃ n ∈ spec.nodes, (pair, pair.1) ∈ entered n := by
    rintro pair ⟨n, mem, own⟩
    exact ⟨n, mem, mem_entered.mpr (.inl ⟨own, rfl⟩)⟩
  have pairs : ∀ pair, pair ∈ (holdingSubgraphsForTemplate spec).map pairOf ↔
      Declares spec pair := by
    intro pair
    rw [mem_pairs bare]
    constructor
    · rintro ⟨n, mem, member, listed⟩
      exact declares ⟨n, mem, listed⟩
    · intro declared
      rcases own declared with ⟨n, mem, listed⟩
      exact ⟨n, mem, _, listed⟩
  refine ⟨(pairs_perm spec).nodup_iff.mpr ?_, pairs, fun sg listed member => ?_⟩
  · refine List.Nodup.map_on (fun key mem key' mem' same => ?_) (nodup_eraseDups _)
    rw [mem_eraseDups] at mem mem'
    rcases mem_map.mp mem with ⟨⟨key, member⟩, first, rfl⟩
    rcases mem_map.mp mem' with ⟨⟨key', member'⟩, second, rfl⟩
    exact ((mem_subgraphs bare).mp first).1.symm.trans
      ((congrArg subgraphKey same).trans ((mem_subgraphs bare).mp second).1)
  · rw [mem_members bare listed]
    constructor
    · rintro ⟨n, known, listed⟩
      rcases mem_entered.mp listed with ⟨-, same⟩ | ⟨held, same | rfl⟩
      · exact .inl same
      · exact .inl same
      · rcases mem_heldFrom.mp held with ⟨hb, held, raw, -⟩
        exact .inr ⟨n, known, rfl, hb, held, (plain.blanks n known _ held).trans raw⟩
    · rintro (rfl | ⟨n, known, rfl, hb, held, same⟩)
      · exact own ((pairs _).mp (mem_map_of_mem listed))
      · rcases declares_of_held accepted known held with ⟨other, sender, declared, ref, refs, pair⟩
        rw [same] at other pair
        refine ⟨n, known, mem_entered.mpr (.inr ⟨mem_heldFrom.mpr ⟨hb, held,
          (plain.blanks n known _ held).symm.trans same, ?_, ?_, other⟩, .inr rfl⟩)⟩
        · exact congrArg Prod.fst pair ▸ accepted_type_ne_empty accepted declared
        · exact congrArg Prod.snd pair ▸ accepted_aliasOf_ne_empty accepted declared refs

theorem plain_of_exact (keyed : ∀ n ∈ spec.nodes, (n.holds.map (·.1)).Nodup)
    (exactly : Exact spec (holdingSubgraphsForTemplate spec)) : Plain spec := by
  have bars : ∀ n ∈ spec.nodes, n.claimProducers ≠ [] → '|' ∉ n.type.toList := by
    intro n mem claims
    rcases exists_mem_of_ne_nil _ claims with ⟨ref, declared⟩
    have listed := (exactly.pairs _).mpr ⟨n, mem, ref, declared, rfl⟩
    rcases mem_map.mp ((pairs_perm spec).mem_iff.mp listed) with ⟨key, -, same⟩
    have bare := bare_splitSubgraphKey key
    rwa [same] at bare
  refine ⟨bars, ?_⟩
  rintro n mem ⟨heldAlias, hb⟩ held
  rcases declares_of_held accepted mem held with ⟨other, declares⟩
  -- the node is among the members of the sub-graph it is meant for
  rcases mem_map.mp ((exactly.pairs _).mpr declares) with ⟨sg, listed, same⟩
  have holds : Holds spec (pairOf sg) n.type := ⟨n, mem, rfl, hb, by rw [same]; exact ⟨held, rfl⟩⟩
  have member := (exactly.members sg listed n.type).mpr (.inr holds)
  rcases (mem_members (bare_of_bars accepted bars) listed).mp member with ⟨n', mem', entry⟩
  rw [same] at entry
  rcases mem_entered.mp entry with ⟨-, self⟩ | ⟨held', self | self⟩
  · exact absurd self.symm other
  · exact absurd self.symm other
  · have sameNode := inj_on_of_nodup_map (accepted_types_nodup accepted) mem mem' self
    subst sameNode
    rcases mem_heldFrom.mp held' with ⟨hb', held', raw, -⟩
    cases inj_on_of_nodup_map (keyed n mem) held held' rfl
    exact raw.symm

end Accepted

/--
The sub-graphs are exact just if acquirers have no bar and `holds` are written without blanks.
-/
theorem holdingSubgraphs_exact_iff (accepted : validateClaims hooks spec = [])
    (keyed : ∀ n ∈ spec.nodes, (n.holds.map (·.1)).Nodup) :
    Exact spec (holdingSubgraphsForTemplate spec) ↔ Plain spec :=
  ⟨plain_of_exact accepted keyed, exact_of_plain accepted⟩

def sharedLedger (writer «from» : String) : TemplateSpec where
  nodes := [{ type := writer, claimProducers := [{ name := "ledger", selector := "all" }] },
    { type := "reader", holds := [("ledger", { «from» })] }]

theorem sharedLedger_exact : Exact (sharedLedger "writer" "writer")
    (holdingSubgraphsForTemplate (sharedLedger "writer" "writer")) := by
  refine (@holdingSubgraphs_exact_iff {} _ (by decide +kernel)
    (by simp [sharedLedger])).mpr ⟨?_, ?_⟩
  · simp [sharedLedger]
  · simp only [sharedLedger]
    decide +kernel

/-- A bar in the acquirer's type goes over to the alias; after a blank the reader is on its own. -/
theorem sharedLedger_inexact :
    (validateClaims {} (sharedLedger "writer|1" "writer|1") = [] ∧
      holdingSubgraphsForTemplate (sharedLedger "writer|1" "writer|1") =
        [{ acquirerType := "writer", «alias» := "1|ledger", members := ["reader", "writer|1"] }] ∧
      ¬Exact (sharedLedger "writer|1" "writer|1")
        (holdingSubgraphsForTemplate (sharedLedger "writer|1" "writer|1"))) ∧
    validateClaims {} (sharedLedger "writer" " writer") = [] ∧
      holdingSubgraphsForTemplate (sharedLedger "writer" " writer") =
        [{ acquirerType := " writer", «alias» := "ledger", members := [" writer", "reader"] },
          { acquirerType := "writer", «alias» := "ledger", members := ["writer"] }] ∧
      ¬Exact (sharedLedger "writer" " writer")
        (holdingSubgraphsForTemplate (sharedLedger "writer" " writer")) := by
  have barred : validateClaims {} (sharedLedger "writer|1" "writer|1") = [] := by decide +kernel
  have blank : validateClaims {} (sharedLedger "writer" " writer") = [] := by decide +kernel
  refine ⟨⟨barred, by decide +kernel, fun exactly => ?_⟩, blank, by decide +kernel,
    fun exactly => ?_⟩
  · have plain := plain_of_exact barred (by simp [sharedLedger]) exactly
    exact plain.bars _ mem_cons_self (cons_ne_nil _ _) (by decide)
  · have plain := plain_of_exact blank (by simp [sharedLedger]) exactly
    exact absurd (plain.blanks _ (mem_cons_of_mem _ mem_cons_self) _ mem_cons_self)
      (by decide +kernel)

end Rimsky.HoldingKeys
