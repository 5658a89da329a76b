import Rimsky.Graph.Substitution

/-!
# What a substitution depends on

A source fails with the error of its first directive that fails, and a directive
reads the claims and the partition key only if it is late bound, the dependency map
only if it is bound upstream. The reasons of missing sources may differ between two
contexts that agree otherwise, so outcomes are compared up to the text of the reason.
-/

namespace Rimsky

open List

variable {ctx ctx' : ResolveContext} {segs : List Segment} {raw : String} {text body : List Char}
  {value : Json}

def directiveBodies : List Segment → List (List Char)
  | [] => []
  | .literal _ :: rest => directiveBodies rest
  | .directive body :: rest => body :: directiveBodies rest

def sourceSegments (raw : String) : List Segment :=
  match segments 0 (trimSpace raw.toList) with
  | [.directive body] => [.directive body]
  | _ => segments 0 raw.toList

def sourceDirectives (raw : String) : List (List Char) := directiveBodies (sourceSegments raw)

def firstError (ctx : ResolveContext) : List (List Char) → Option SubstitutionError
  | [] => none
  | body :: rest =>
    match resolveMatch body ctx with
    | .error error => some error
    | .ok _ => firstError ctx rest

/-- The same value, or both fail, with a missing source in both or in neither. -/
def SameOutcome {α : Type} : Except SubstitutionError α → Except SubstitutionError α → Prop
  | .ok a, .ok b => a = b
  | .error e, .error e' => e.isMissingSource = e'.isMissingSource
  | _, _ => False

theorem SameOutcome.rfl {α : Type} {r : Except SubstitutionError α} : SameOutcome r r := by
  cases r <;> simp [SameOutcome]

theorem SameOutcome.ok_iff {α : Type} {r r' : Except SubstitutionError α}
    (same : SameOutcome r r') (a : α) : r = .ok a ↔ r' = .ok a := by
  cases r <;> cases r' <;> simp_all [SameOutcome]

theorem SameOutcome.map {α β : Type} {r r' : Except SubstitutionError α}
    (same : SameOutcome r r') (f : α → β) : SameOutcome (r.map f) (r'.map f) := by
  cases r <;> cases r' <;> simp_all [SameOutcome, Except.map]

theorem map_eq_error {α β : Type} (r : Except SubstitutionError α) (f : α → β)
    (error : SubstitutionError) : r.map f = .error error ↔ r = .error error := by
  cases r <;> simp [Except.map]

theorem substituteSegments_eq_error (ctx : ResolveContext) (segs : List Segment)
    (error : SubstitutionError) :
    substituteSegments ctx segs = .error error ↔
      firstError ctx (directiveBodies segs) = some error := by
  induction segs with
  | nil => simp [substituteSegments, directiveBodies, firstError]
  | cons seg segs ih =>
    cases seg with
    | literal c => rw [directiveBodies, ← ih, substituteSegments, map_eq_error]
    | directive body =>
      rw [directiveBodies, firstError, substituteSegments]
      cases resolveMatch body ctx with
      | error e => simp
      | ok value => simpa [map_eq_error] using ih

theorem source_cases (raw : String) :
    (∃ body, sourceSegments raw = [.directive body] ∧
      ∀ ctx, substituteValue raw ctx = resolveMatch body ctx) ∨
    (∀ ctx, substituteValue raw ctx =
      ((substituteSegments ctx (sourceSegments raw)).map String.ofList).map Json.str) := by
  unfold substituteValue sourceSegments substitute
  generalize segments 0 (trimSpace raw.toList) = trimmed
  match trimmed with
  | [.directive body] => exact .inl ⟨body, rfl, fun _ => rfl⟩
  | [] => exact .inr fun _ => rfl
  | .literal _ :: _ => exact .inr fun _ => rfl
  | .directive _ :: _ :: _ => exact .inr fun _ => rfl

theorem substituteValue_eq_error (raw : String) (ctx : ResolveContext)
    (error : SubstitutionError) :
    substituteValue raw ctx = .error error ↔
      firstError ctx (sourceDirectives raw) = some error := by
  unfold sourceDirectives
  rcases source_cases raw with ⟨body, whole, value⟩ | value
  · rw [value, whole, directiveBodies, directiveBodies, firstError, firstError]
    cases resolveMatch body ctx <;> simp
  · rw [value, map_eq_error, map_eq_error, substituteSegments_eq_error]

theorem firstError_eq_none_iff (ctx : ResolveContext) (bodies : List (List Char)) :
    firstError ctx bodies = none ↔ ∀ body ∈ bodies, ∃ value, resolveMatch body ctx = .ok value := by
  induction bodies with
  | nil => simp [firstError]
  | cons body bodies ih =>
    cases outcome : resolveMatch body ctx with
    | error e => simp [firstError, outcome]
    | ok value => simp [firstError, outcome, ih]

theorem substituteValue_ok_iff (raw : String) (ctx : ResolveContext) :
    (∃ value, substituteValue raw ctx = .ok value) ↔
      ∀ body ∈ sourceDirectives raw, ∃ value, resolveMatch body ctx = .ok value := by
  rw [← firstError_eq_none_iff]
  cases outcome : substituteValue raw ctx with
  | error e => simp [(substituteValue_eq_error raw ctx e).mp outcome]
  | ok value =>
    cases found : firstError ctx (sourceDirectives raw) with
    | none => simp
    | some e => simp [(substituteValue_eq_error raw ctx e).mpr found] at outcome

theorem firstError_congr {bodies : List (List Char)}
    (same : ∀ body ∈ bodies, SameOutcome (resolveMatch body ctx) (resolveMatch body ctx')) :
    (firstError ctx bodies).map SubstitutionError.isMissingSource =
      (firstError ctx' bodies).map SubstitutionError.isMissingSource := by
  induction bodies with
  | nil => rfl
  | cons body bodies ih =>
    have head := same body (by simp)
    revert head
    unfold firstError
    cases resolveMatch body ctx <;> cases resolveMatch body ctx' <;> simp_all [SameOutcome]

theorem substituteSegments_congr (same : ∀ body ∈ directiveBodies segs,
      SameOutcome (resolveMatch body ctx) (resolveMatch body ctx')) :
    SameOutcome (substituteSegments ctx segs) (substituteSegments ctx' segs) := by
  induction segs with
  | nil => simp [substituteSegments, SameOutcome]
  | cons seg segs ih =>
    cases seg with
    | literal c => exact (ih same).map _
    | directive body =>
      have head := same body (by simp [directiveBodies])
      have tail := ih fun other mem => same other (by simp [directiveBodies, mem])
      rw [substituteSegments, substituteSegments]
      revert head
      cases resolveMatch body ctx <;> cases resolveMatch body ctx' <;>
        simp only [SameOutcome, false_implies, imp_self]
      rintro rfl
      exact tail.map _

theorem substituteValue_congr (same : ∀ body ∈ sourceDirectives raw,
      SameOutcome (resolveMatch body ctx) (resolveMatch body ctx')) :
    SameOutcome (substituteValue raw ctx) (substituteValue raw ctx') := by
  unfold sourceDirectives at same
  rcases source_cases raw with ⟨body, whole, value⟩ | value
  · rw [value, value]
    exact same body (by simp [whole, directiveBodies])
  · rw [value, value]
    exact ((substituteSegments_congr same).map _).map _

theorem length_directiveText_le (resolved : substituteSegments ctx segs = .ok text)
    (mem : body ∈ directiveBodies segs) (outcome : resolveMatch body ctx = .ok value) :
    (directiveText value).length ≤ text.length := by
  induction segs generalizing text with
  | nil => simp [directiveBodies] at mem
  | cons seg segs ih =>
    cases seg with
    | literal c =>
      cases rest : substituteSegments ctx segs with
      | error e => simp [substituteSegments, rest, Except.map] at resolved
      | ok tail =>
        have bound := ih rest mem
        simp only [substituteSegments, rest, Except.map, Except.ok.injEq] at resolved
        subst resolved
        simp only [length_cons]
        omega
    | directive other =>
      cases head : resolveMatch other ctx with
      | error e => simp [substituteSegments, head] at resolved
      | ok first =>
        cases rest : substituteSegments ctx segs with
        | error e => simp [substituteSegments, head, rest, Except.map] at resolved
        | ok tail =>
          simp only [substituteSegments, head, rest, Except.map, Except.ok.injEq] at resolved
          subst resolved
          simp only [directiveBodies, mem_cons] at mem
          simp only [length_append]
          rcases mem with equal | mem
          · subst equal
            rw [head] at outcome
            injection outcome with outcome
            subst outcome
            omega
          · have bound := ih rest mem
            omega

theorem length_directiveText_le_value {result : Json}
    (resolved : substituteValue raw ctx = .ok result) (mem : body ∈ sourceDirectives raw)
    (outcome : resolveMatch body ctx = .ok value) :
    (directiveText value).length ≤ (directiveText result).length := by
  unfold sourceDirectives at mem
  rcases source_cases raw with ⟨other, whole, value⟩ | value
  · simp only [whole, directiveBodies, mem_singleton] at mem
    subst mem
    rw [value, outcome] at resolved
    injection resolved with equal
    rw [equal]
  · rw [value] at resolved
    cases parts : substituteSegments ctx (sourceSegments raw) with
    | error e => simp [parts, Except.map] at resolved
    | ok text =>
      simp only [parts, Except.map, Except.ok.injEq] at resolved
      subst resolved
      simpa [directiveText, Json.stringify] using length_directiveText_le parts mem outcome

def bodyParts (body : List Char) : List String :=
  directiveParts (parseDirectiveShape (trimSpace body)).body

def isClaimRef : List String → Bool
  | _ :: field :: path =>
    (field == "address" || field == "claim_scope") && path.isEmpty || field == "payload"
  | _ => false

/-- The parts name a claim or the partition key, which exist only once a run is acquired. -/
def isLateBound : List String → Bool
  | kind :: first :: others =>
    if kind = "claim" then isClaimRef (first :: others)
    else kind == "child" && first :: others == ["partition_key"]
  | _ => false

def isUpstreamBound : List String → Bool
  | kind :: first :: others =>
    first != "" && (kind == "nodes" && others.head? == some "attribute" || kind == "messages")
  | _ => false

theorem resolveClaimValue_of_not_claimRef {rest : List String} (noRef : isClaimRef rest = false)
    (claims : List (String × ClaimResult)) : (resolveClaimValue rest claims).toOption = none := by
  rcases rest with _ | ⟨name, _ | ⟨field, path⟩⟩
  · rfl
  · rfl
  · simp only [isClaimRef, Bool.or_eq_false_iff, Bool.and_eq_false_iff, beq_eq_false_iff_ne,
      isEmpty_eq_false_iff] at noRef
    rcases noRef with ⟨scalar, noPayload⟩
    cases found : claims.lookup name with
    | none => simp [resolveClaimValue, found, Except.toOption]
    | some claim =>
      by_cases address : field = "address"
      · have path : path ≠ [] := by tauto
        simp [resolveClaimValue, found, address, path, Except.toOption]
      · by_cases scope : field = "claim_scope"
        · have path : path ≠ [] := by tauto
          simp [resolveClaimValue, found, scope, path, Except.toOption]
        · simp [resolveClaimValue, found, address, scope, noPayload, Except.toOption]

theorem resolveChildValue_of_ne {rest : List String} (noKey : rest ≠ ["partition_key"])
    (ctx : ResolveContext) : (resolveChildValue rest ctx).toOption = none := by
  simp [resolveChildValue, noKey, Except.toOption]

/-- Only a late-bound directive reads the claims and the partition key. -/
theorem raw_congr_of_not_late (early : isLateBound (directiveParts body) = false)
    (deps : ctx.deps = ctx'.deps) (params : ctx.params = ctx'.params)
    (types : ctx.registryDeclaredTypes = ctx'.registryDeclaredTypes)
    (env : ctx.envLookup = ctx'.envLookup) :
    (resolveDirectiveValueRaw body ctx).toOption =
      (resolveDirectiveValueRaw body ctx').toOption := by
  unfold resolveDirectiveValueRaw
  rcases parts : directiveParts body with _ | ⟨kind, _ | ⟨first, others⟩⟩
  · rfl
  · rfl
  · rw [parts] at early
    simp only [isLateBound] at early
    by_cases claim : kind = "claim"
    · simp only [claim, if_true] at early ⊢
      rw [resolveClaimValue_of_not_claimRef early, resolveClaimValue_of_not_claimRef early]
    · by_cases child : kind = "child"
      · have noKey : first :: others ≠ ["partition_key"] := by
          simpa [claim, child] using early
        subst child
        simp [resolveChildValue_of_ne noKey]
      · simp [claim, child, params, resolveNodesValue, resolveMessagesValue, resolveEnvValue, deps,
          types, env]

theorem raw_of_late (late : isLateBound (directiveParts body)) (claims : ctx.claim = [])
    (key : ctx.childPartitionKey = "") : (resolveDirectiveValueRaw body ctx).toOption = none := by
  unfold resolveDirectiveValueRaw
  rcases parts : directiveParts body with _ | ⟨kind, _ | ⟨first, others⟩⟩
  · rfl
  · rfl
  · rw [parts] at late
    simp only [isLateBound] at late
    by_cases claim : kind = "claim"
    · subst claim
      rcases others with _ | ⟨field, path⟩
      · rfl
      · simp [resolveClaimValue, claims, Except.toOption]
    · have child : kind = "child" := by
        simp only [claim, if_false, Bool.and_eq_true, beq_iff_eq] at late
        exact late.1
      subst child
      by_cases named : first :: others = ["partition_key"] <;>
        simp [resolveChildValue, named, key, Except.toOption]

/-- Only a directive bound upstream reads the dependency map and the message registry. -/
theorem raw_congr_of_not_upstream (notUpstream : isUpstreamBound (directiveParts body) = false)
    (claims : ctx.claim = ctx'.claim) (key : ctx.childPartitionKey = ctx'.childPartitionKey)
    (params : ctx.params = ctx'.params) (env : ctx.envLookup = ctx'.envLookup) :
    (resolveDirectiveValueRaw body ctx).toOption =
      (resolveDirectiveValueRaw body ctx').toOption := by
  unfold resolveDirectiveValueRaw
  rcases parts : directiveParts body with _ | ⟨kind, _ | ⟨first, others⟩⟩
  · rfl
  · rfl
  · rw [parts] at notUpstream
    simp only [isUpstreamBound, Bool.and_eq_false_iff, bne_eq_false_iff_eq, Bool.or_eq_false_iff,
      beq_eq_false_iff_ne] at notUpstream
    by_cases nodes : kind = "nodes"
    · have none : ∀ c, (resolveNodesValue (first :: others) c).toOption = none := by
        intro c
        unfold resolveNodesValue
        by_cases empty : first = ""
        · simp [empty, Except.toOption]
        · have head : others.head? ≠ some "attribute" := by tauto
          rcases others with _ | ⟨second, path⟩
          · simp [empty, Except.toOption]
          · have second : second ≠ "attribute" := by simpa using head
            simp [empty, Except.toOption]
            split <;> simp_all
      subst nodes
      simp [none]
    · by_cases messages : kind = "messages"
      · have empty : first = "" := by tauto
        subst messages empty
        simp [resolveMessagesValue]
      · simp [nodes, messages, claims, params, resolveChildValue, key, resolveEnvValue, env]

def rawValue (body : List Char) (ctx : ResolveContext) : Option Json :=
  (resolveDirectiveValueRaw (parseDirectiveShape (trimSpace body)).body ctx).toOption

theorem finish_congr (shape : DirectiveShape) (directive : List Char)
    {raw raw' : Except String Json} (same : raw.toOption = raw'.toOption) :
    SameOutcome (shape.finish directive raw) (shape.finish directive raw') := by
  unfold DirectiveShape.finish
  split
  · exact .rfl
  · split
    · exact .rfl
    · cases raw with
      | ok value =>
        cases raw' with
        | ok value' => simpa [Except.toOption, SameOutcome] using same
        | error reason => simp [Except.toOption] at same
      | error reason =>
        cases raw' with
        | ok value' => simp [Except.toOption] at same
        | error reason' =>
          cases shape.fallbackLiteral with
          | some literal => exact .rfl
          | none =>
            by_cases lenient : shape.lenient <;>
              simp [lenient, SameOutcome, SubstitutionError.isMissingSource]

theorem resolveMatch_congr (raw : rawValue body ctx = rawValue body ctx') :
    SameOutcome (resolveMatch body ctx) (resolveMatch body ctx') := by
  unfold resolveMatch resolveDirectiveValue
  split
  · exact .rfl
  · exact finish_congr _ _ raw

theorem finish_of_found {shape : DirectiveShape} {directive : List Char}
    {raw raw' : Except String Json} {value' : Json}
    (somewhere : shape.finish directive raw = .ok value) (found : raw'.toOption = some value') :
    shape.finish directive raw' = .ok value' := by
  cases raw' with
  | error reason => simp [Except.toOption] at found
  | ok other =>
    simp only [Except.toOption, Option.some.injEq] at found
    unfold DirectiveShape.finish at somewhere ⊢
    split at somewhere
    · simp at somewhere
    · split at somewhere
      · simp at somewhere
      · simp_all

theorem resolveMatch_of_raw {value' : Json} (somewhere : resolveMatch body ctx = .ok value)
    (found : rawValue body ctx' = some value') : resolveMatch body ctx' = .ok value' := by
  unfold resolveMatch resolveDirectiveValue at somewhere ⊢
  split at somewhere
  · simp at somewhere
  · rename_i nonempty
    rw [if_neg nonempty]
    exact finish_of_found somewhere found

theorem infix_trimSpace (text : List Char) : trimSpace text <:+: text := by
  have tail := (dropWhile_suffix (l := (text.dropWhile isSpace).reverse) isSpace)
  have front : ((text.dropWhile isSpace).reverse.dropWhile isSpace).reverse <+:
      text.dropWhile isSpace := by
    simpa using reverse_prefix.mpr tail
  exact front.isInfix.trans (dropWhile_suffix isSpace).isInfix

theorem infix_pipePieces {inQuotes escaped : Bool} {piece : List Char}
    (mem : piece ∈ pipePieces inQuotes escaped text) : piece <:+: text := by
  suffices general : ∀ text inQuotes escaped, ∃ head tail,
      pipePieces inQuotes escaped text = head :: tail ∧ head <+: text ∧
        ∀ other ∈ tail, other <:+: text by
    rcases general text inQuotes escaped with ⟨head, tail, equal, front, others⟩
    rw [equal, mem_cons] at mem
    rcases mem with rfl | mem
    · exact front.isInfix
    · exact others piece mem
  intro text
  induction text with
  | nil => exact fun _ _ => ⟨[], [], by simp [pipePieces]⟩
  | cons c text ih =>
    intro inQuotes escaped
    unfold pipePieces
    split
    · rcases ih false false with ⟨head, tail, equal, front, others⟩
      refine ⟨[], pipePieces false false text, rfl, nil_prefix, ?_⟩
      intro other mem
      rw [equal, mem_cons] at mem
      rcases mem with rfl | mem
      · exact front.isInfix.trans (suffix_cons c text).isInfix
      · exact (others other mem).trans (suffix_cons c text).isInfix
    · rcases ih (if inQuotes then escaped || c ≠ '"' else c = '"')
        (inQuotes && !escaped && c = '\\') with ⟨head, tail, equal, front, others⟩
      simp only [equal]
      refine ⟨c :: head, tail, rfl, prefix_cons_inj c |>.mpr front, ?_⟩
      intro other mem
      exact (others other mem).trans (suffix_cons c text).isInfix

theorem infix_parseLenientMarker (body : List Char) : (parseLenientMarker body).2 <:+: body := by
  unfold parseLenientMarker
  split
  · exact (infix_trimSpace _).trans ((List.dropLast_prefix _).isInfix.trans (infix_trimSpace body))
  · exact infix_rfl

theorem infix_shape_body (directive : List Char) :
    (parseDirectiveShape directive).body <:+: directive := by
  unfold parseDirectiveShape
  split
  case h_1 left right pieces =>
    have mem : left ∈ pipePieces false false directive := by simp [pieces]
    exact (infix_parseLenientMarker _).trans ((infix_trimSpace _).trans (infix_pipePieces mem))
  case h_2 => exact infix_parseLenientMarker directive
  case h_3 => exact nil_infix

theorem infix_directiveBody (found : directiveBody text = some body) : body <:+: text := by
  unfold directiveBody at found
  split at found
  · injection found with equal
    rw [← equal]
    exact (List.takeWhile_prefix _).isInfix
  · simp at found

theorem infix_directive {skip : Nat} (mem : .directive body ∈ segments skip text) :
    body <:+: text := by
  induction text generalizing skip with
  | nil => cases skip <;> simp [segments] at mem
  | cons c text ih =>
    have step (skip : Nat) (mem : .directive body ∈ segments skip text) :
        body <:+: c :: text := (ih mem).trans (suffix_cons c text).isInfix
    cases skip with
    | succ skip => exact step skip (by simpa [segments] using mem)
    | zero =>
      unfold segments at mem
      split at mem
      case h_1 rest =>
        split at mem
        case h_1 found body' =>
          rw [mem_cons] at mem
          rcases mem with equal | mem
          · injection equal with equal
            subst equal
            exact (infix_directiveBody body').trans ((suffix_cons _ _).trans
              (suffix_cons _ _)).isInfix
          · exact step _ mem
        case h_2 => exact step 0 (by simpa using mem)
      case h_2 => exact step 0 (by simpa using mem)

theorem mem_directiveBodies : body ∈ directiveBodies segs ↔ .directive body ∈ segs := by
  induction segs with
  | nil => simp [directiveBodies]
  | cons seg segs ih => cases seg <;> simp [directiveBodies, ih]

theorem infix_sourceDirective (mem : body ∈ sourceDirectives raw) : body <:+: raw.toList := by
  rw [sourceDirectives, mem_directiveBodies] at mem
  unfold sourceSegments at mem
  split at mem
  case h_1 other whole =>
    rw [← whole] at mem
    exact (infix_directive mem).trans (infix_trimSpace _)
  case h_2 => exact infix_directive mem

theorem infix_bodyText (mem : body ∈ sourceDirectives raw) :
    (parseDirectiveShape (trimSpace body)).body <:+: raw.toList :=
  (infix_shape_body _).trans ((infix_trimSpace _).trans (infix_sourceDirective mem))

theorem prefix_of_directiveParts {kind first : String} {others : List String}
    (parts : directiveParts body = kind :: first :: others) : kind.toList ++ ['.'] <+: body := by
  unfold directiveParts at parts
  rcases pieces : body.splitOn '.' with _ | ⟨head, _ | ⟨next, tail⟩⟩
  · simp [pieces] at parts
  · simp [pieces] at parts
  · rw [pieces] at parts
    simp only [map_cons, cons.injEq] at parts
    have joined : ['.'].intercalate (body.splitOn '.') = body := intercalate_splitOn '.'
    rw [pieces] at joined
    refine ⟨['.'].intercalate (next :: tail), ?_⟩
    rw [← joined, ← parts.1]
    simp [intercalate]

theorem infix_isLateBound (late : isLateBound (directiveParts body)) :
    "claim.".toList <:+: body ∨ "child.".toList <:+: body := by
  rcases parts : directiveParts body with _ | ⟨kind, _ | ⟨first, others⟩⟩
  · simp [parts, isLateBound] at late
  · simp [parts, isLateBound] at late
  · have front := (prefix_of_directiveParts parts).isInfix
    rw [parts] at late
    simp only [isLateBound] at late
    split at late
    case isTrue claim =>
      left
      rw [claim] at front
      exact front
    case isFalse =>
      right
      simp only [Bool.and_eq_true, beq_iff_eq] at late
      rw [late.1] at front
      exact front

end Rimsky
