import Rimsky.Graph.TemplateValidator
import Rimsky.Lib.Worklist

/-!
# Nodes of a sub-graph lie between its entry and its exit

`validateGraphReachability` of `template_validator_graphs.go`. The nodes of a graph are a map by
their type there, so the last definition of a type counts; maps are gone through in the order of
the definitions.
-/

namespace Rimsky

open List

namespace GraphSpec

variable (g : GraphSpec)

def nodeTypes : List String := ((g.nodes.map (·.type)).filter (· ≠ "")).eraseDups

def nodeDef? (type : String) : Option TemplateNodeDef :=
  if type = "" then none else g.nodes.reverse.find? (·.type = type)

def backward (type : String) : List String :=
  ((((g.nodeDef? type).map (·.subscribes)).getD []).map (·.node)).filter (· ∈ g.nodeTypes)

def forward (type : String) : List String :=
  g.nodeTypes.flatMap fun name => ((g.backward name).filter (· = type)).map fun _ => name

end GraphSpec

def validateGraphReachability (g : GraphSpec) : List ValidationError :=
  if g.entry = "" ∨ g.exit = "" then []
  else
    let reachable := spread g.forward g.nodeTypes.length [g.entry] [g.entry]
    let canReachExit := spread g.backward g.nodeTypes.length [g.exit] [g.exit]
    g.nodeTypes.filterMap (fun name =>
      if name = g.entry ∨ name = g.exit then none
      else if name ∉ reachable ∨ name ∉ canReachExit then
        some {
          path := "graphs[" ++ quoted g.name ++ "].nodes[" ++ quoted name ++ "]"
          msg := "subgraph_disconnected_internal_node: node " ++ quoted name ++ " in graph " ++
            quoted g.name ++ " is not reachable from entry " ++ quoted g.entry ++
            " or cannot reach exit " ++ quoted g.exit ++ " along subscribes edges" }
      else none) ++
    if g.exit ≠ g.entry ∧ g.exit ∉ reachable then
      [{ path := "graphs[" ++ quoted g.name ++ "]"
         msg := "subgraph_exit_unreachable: graph " ++ quoted g.name ++ " exit " ++ quoted g.exit ++
          " is not reachable from entry " ++ quoted g.entry ++ " along subscribes edges" }]
    else []

namespace GraphSpec

variable {g : GraphSpec} {sender receiver : String}

/-- The second node declares a subscription on the first one, inside the graph. -/
def Edge (g : GraphSpec) (sender receiver : String) : Prop :=
  sender ∈ g.nodeTypes ∧ ∃ n, g.nodeDef? receiver = some n ∧ ∃ s ∈ n.subscribes, s.node = sender

def Leads (g : GraphSpec) : String → String → Prop := Relation.ReflTransGen g.Edge

theorem mem_backward : sender ∈ g.backward receiver ↔ g.Edge sender receiver := by
  unfold backward Edge
  cases g.nodeDef? receiver with
  | none => simp
  | some n => simp [and_comm]

theorem Edge.receiver_mem (edge : g.Edge sender receiver) : receiver ∈ g.nodeTypes := by
  rcases edge with ⟨-, n, found, -⟩
  unfold nodeDef? at found
  split at found
  case isTrue => cases found
  case isFalse named =>
    have mem := mem_of_find?_eq_some found
    have type : n.type = receiver := by simpa using find?_some found
    simp only [nodeTypes, mem_eraseDups, mem_filter, mem_map, decide_eq_true_eq]
    exact ⟨⟨n, mem_reverse.mp mem, type⟩, named⟩

theorem mem_forward : receiver ∈ g.forward sender ↔ g.Edge sender receiver := by
  simp only [forward, mem_flatMap, mem_map, mem_filter, mem_backward, decide_eq_true_eq]
  constructor
  · rintro ⟨name, -, _, ⟨edge, rfl⟩, rfl⟩
    exact edge
  · intro edge
    exact ⟨receiver, edge.receiver_mem, sender, ⟨edge, rfl⟩, rfl⟩

theorem mem_reachable (inside : g.entry ∈ g.nodeTypes) {name : String} :
    name ∈ spread g.forward g.nodeTypes.length [g.entry] [g.entry] ↔ g.Leads g.entry name := by
  rw [mem_spread_start (fun _ _ y mem => (mem_forward.mp mem).receiver_mem) inside]
  simp only [mem_forward]
  rfl

theorem mem_canReachExit (inside : g.exit ∈ g.nodeTypes) {name : String} :
    name ∈ spread g.backward g.nodeTypes.length [g.exit] [g.exit] ↔ g.Leads name g.exit := by
  rw [mem_spread_start (fun _ _ y mem => (mem_backward.mp mem).1) inside]
  simp only [mem_backward]
  exact Relation.reflTransGen_swap

end GraphSpec

theorem validateGraphReachability_iff {g : GraphSpec} (entry : g.entry ∈ g.nodeTypes)
    (exit : g.exit ∈ g.nodeTypes) (distinct : g.exit ≠ g.entry) :
    validateGraphReachability g = [] ↔ g.Leads g.entry g.exit ∧
      ∀ name ∈ g.nodeTypes, name ≠ g.entry → name ≠ g.exit →
        g.Leads g.entry name ∧ g.Leads name g.exit := by
  have named : ∀ name ∈ g.nodeTypes, name ≠ "" := by simp [GraphSpec.nodeTypes]
  have both : ¬(g.entry = "" ∨ g.exit = "") := by simp [named _ entry, named _ exit]
  rw [validateGraphReachability, if_neg both, append_eq_nil_iff, filterMap_eq_nil_iff, and_comm]
  refine and_congr ?_ (forall₂_congr fun name _ => ?_)
  · rw [ite_eq_right_iff, g.mem_reachable entry]
    simp [distinct]
  · by_cases ends : name = g.entry ∨ name = g.exit
    · rw [if_pos ends]
      exact ⟨fun _ notEntry notExit => absurd ends (by simp [notEntry, notExit]), fun _ => rfl⟩
    · rw [if_neg ends, ite_eq_right_iff, g.mem_reachable entry, g.mem_canReachExit exit]
      rw [not_or] at ends
      simp [ends]

def looping : GraphSpec where
  name := "sub"
  entry := "in"
  exit := "out"
  nodes := [{ type := "in" },
    { type := "loop"
      subscribes := [{ node := "in", type := "*" }, { node := "loop", type := "*" }] },
    { type := "out", subscribes := [{ node := "loop", type := "*" }] }]

theorem looping_accepted : validateGraphReachability looping = [] ∧
    looping.Leads "in" "out" ∧ looping.Leads "in" "loop" ∧ looping.Leads "loop" "out" := by
  have accepted : validateGraphReachability looping = [] := by decide +kernel
  have leads := (validateGraphReachability_iff (g := looping) (by decide +kernel)
    (by decide +kernel) (by decide)).mp accepted
  have between := leads.2 "loop" (by decide +kernel) (by decide) (by decide)
  exact ⟨accepted, leads.1, between.1, between.2⟩

end Rimsky
