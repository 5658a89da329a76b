import Rimsky.Graph.SubstitutionFacts

/-!
# Contexts that resolve everything

For a set of names and a length there are claims, a partition key and a dependency map
in which every late-bound, respectively every upstream-bound, directive over these names
resolves to a text of at least that length. They tell a value that was resolved in a
context from one that was not.
-/

namespace Rimsky

open List Json

variable {depth : Nat}

section FullTree

variable (names : List String) (leaf : String)

/-- The JSON value in which every path over the names, up to a depth, is found. -/
def fullTree : Nat → Json
  | 0 => .str leaf
  | depth + 1 => .obj (names.map fun name => (name, fullTree depth))

variable {names}

theorem lookup_map_of_mem {α : Type} {name : String} (mem : name ∈ names) (value : α) :
    (names.map fun other => (other, value)).lookup name = some value := by
  induction names with
  | nil => simp at mem
  | cons other names ih =>
    by_cases equal : name = other
    · simp [equal]
    · have differs : (name == other) = false := by simpa using equal
      rw [map_cons, lookup_cons, differs]
      exact ih (mem_of_ne_of_mem equal mem)

theorem walkPath_fullTree {path : List String} (mem : ∀ seg ∈ path, seg ∈ names)
    (deep : path.length ≤ depth) :
    walkPath (fullTree names leaf depth) path =
      some (fullTree names leaf (depth - path.length)) := by
  induction path generalizing depth with
  | nil => cases depth <;> simp [fullTree, walkPath]
  | cons seg path ih =>
    cases depth with
    | zero => simp at deep
    | succ depth =>
      simp only [length_cons, Nat.add_le_add_iff_right] at deep
      have found := lookup_map_of_mem (mem seg (by simp)) (fullTree names leaf depth)
      simp only [fullTree, walkPath, found]
      rw [ih (fun other inPath => mem other (by simp [inPath])) deep]
      simp

end FullTree

theorem length_flatMap_escapeChar (text : List Char) :
    text.length ≤ (text.flatMap Json.escapeChar).length := by
  induction text with
  | nil => simp
  | cons c text ih =>
    have one : 1 ≤ (escapeChar c).length := by
      unfold escapeChar
      repeat' split
      all_goals simp
    simp only [length_cons, flatMap_cons, length_append]
    omega

variable {names : List String}

theorem length_le_marshal_fullTree (inhabited : names ≠ []) (leaf : String) (depth : Nat) :
    leaf.toList.length ≤ (fullTree names leaf depth).marshal.length := by
  induction depth with
  | zero =>
    have escaped := length_flatMap_escapeChar leaf.toList
    simp only [fullTree, marshal, quote, cons_append, length_cons,
      length_append, length_nil]
    omega
  | succ depth ih =>
    rcases names with _ | ⟨name, _ | ⟨other, names⟩⟩
    · contradiction
    all_goals
      simp only [fullTree, map_cons, map_nil, marshal, marshalFields,
        length_append, length_cons]
      omega

theorem length_le_directiveText_fullTree (inhabited : names ≠ []) (leaf : String) (depth : Nat) :
    leaf.toList.length ≤ (directiveText (fullTree names leaf depth)).length := by
  cases depth with
  | zero => simp [fullTree, directiveText, stringify]
  | succ depth =>
    have long := length_le_marshal_fullTree inhabited leaf (depth + 1)
    simpa [fullTree, directiveText, stringify] using long

def longText (length : Nat) : String := String.ofList (List.replicate length 'x')

@[simp]
theorem length_longText (length : Nat) : (longText length).toList.length = length := by
  simp [longText]

def richClaims (names : List String) (depth length : Nat) : List (String × ClaimResult) :=
  names.map fun name => (name, {
    address := some (Json.raw (.str (longText length)))
    claimScope := some (Json.raw (.str (longText length)))
    payload := some (fullTree names (longText length) depth) })

def richDeps (names : List String) (depth length : Nat) : List (String × Json) :=
  names.map fun name => (name, fullTree names (longText length) depth)

theorem raw_richClaims {body : List Char} {length : Nat} (late : isLateBound (directiveParts body))
    (named : ∀ part ∈ directiveParts body, part ∈ names)
    (deep : (directiveParts body).length ≤ depth) (positive : 0 < length) (ctx : ResolveContext) :
    ∃ value, (resolveDirectiveValueRaw body { ctx with
        claim := richClaims names depth length
        childPartitionKey := longText length }).toOption = some value ∧
      length ≤ (directiveText value).length := by
  unfold resolveDirectiveValueRaw
  rcases parts : directiveParts body with _ | ⟨kind, _ | ⟨first, others⟩⟩
  · simp [parts, isLateBound] at late
  · simp [parts, isLateBound] at late
  rw [parts] at late named deep
  have inhabited : names ≠ [] := List.ne_nil_of_mem (named kind (by simp))
  by_cases claim : kind = "claim"
  · simp only [isLateBound, claim, if_true] at late
    rcases others with _ | ⟨field, path⟩
    · simp [isClaimRef] at late
    have found : (richClaims names depth length).lookup first = some {
        address := some (Json.raw (.str (longText length)))
        claimScope := some (Json.raw (.str (longText length)))
        payload := some (fullTree names (longText length) depth) } :=
      lookup_map_of_mem (named first (by simp)) _
    simp only [isClaimRef, Bool.or_eq_true, Bool.and_eq_true, beq_iff_eq,
      List.isEmpty_iff] at late
    rcases late with ⟨scalar, rfl⟩ | rfl
    · refine ⟨.str (longText length), ?_, by simp [directiveText, stringify]⟩
      rcases scalar with rfl | rfl <;>
        simp [claim, resolveClaimValue, found, stringifyRaw, Json.raw, Except.toOption]
    · have walk : walkPath (fullTree names (longText length) depth) path = some _ :=
        walkPath_fullTree _ (fun seg mem => named seg (by simp [mem]))
        (by simp only [List.length_cons] at deep; omega)
      refine ⟨fullTree names (longText length) (depth - path.length), ?_, ?_⟩
      · simp [claim, resolveClaimValue, found, walk, Except.toOption]
      · simpa using length_le_directiveText_fullTree inhabited (longText length) _
  · simp only [isLateBound, claim, if_false, Bool.and_eq_true, beq_iff_eq] at late
    have nonempty : longText length ≠ "" := by
      intro empty
      have := length_longText length
      simp [empty] at this
      omega
    refine ⟨.str (longText length), ?_, by simp [directiveText, stringify]⟩
    simp [late.1, late.2, resolveChildValue, nonempty, Except.toOption]

theorem raw_richDeps {body : List Char} {length : Nat}
    (upstream : isUpstreamBound (directiveParts body))
    (named : ∀ part ∈ directiveParts body, part ∈ names)
    (deep : (directiveParts body).length ≤ depth) (ctx : ResolveContext) :
    ∃ value, (resolveDirectiveValueRaw body { ctx with
        deps := richDeps names depth length
        registryDeclaredTypes := none }).toOption = some value ∧
      length ≤ (directiveText value).length := by
  unfold resolveDirectiveValueRaw
  rcases parts : directiveParts body with _ | ⟨kind, _ | ⟨first, others⟩⟩
  · simp [parts, isUpstreamBound] at upstream
  · simp [parts, isUpstreamBound] at upstream
  rw [parts] at upstream named deep
  have inhabited : names ≠ [] := ne_nil_of_mem (named kind (by simp))
  have found : (richDeps names depth length).lookup first =
      some (fullTree names (longText length) depth) :=
    lookup_map_of_mem (named first (by simp)) _
  have long (depth : Nat) :
      length ≤ (directiveText (fullTree names (longText length) depth)).length := by
    simpa using length_le_directiveText_fullTree inhabited (longText length) depth
  simp only [isUpstreamBound, Bool.and_eq_true, bne_iff_ne, Bool.or_eq_true, beq_iff_eq]
    at upstream
  rcases upstream with ⟨nonempty, ⟨rfl, second⟩ | rfl⟩
  · rcases others with _ | ⟨field, path⟩
    · simp at second
    simp only [head?_cons, Option.some.injEq] at second
    subst second
    have walk : walkPath (fullTree names (longText length) depth) path = some _ :=
      walkPath_fullTree _ (fun seg mem => named seg (by simp [mem]))
      (by simp only [length_cons] at deep; omega)
    refine ⟨_, ?_, long (depth - path.length)⟩
    simp [resolveNodesValue, nonempty, found, walk, Except.toOption]
  · have walk : walkPath (fullTree names (longText length) depth) others = some _ :=
      walkPath_fullTree _ (fun seg mem => named seg (by simp [mem]))
      (by simp only [length_cons] at deep; omega)
    refine ⟨_, ?_, long (depth - others.length)⟩
    simp [resolveMessagesValue, nonempty, found, walk, Except.toOption]

end Rimsky
