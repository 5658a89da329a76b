import Rimsky.Foundation.Json
import Mathlib.Data.List.Sort
import Mathlib.Data.String.Basic

/-!
# Signals

`foundation/signal`: a signal has a type path such as `terminal/error/timeout` and a
payload. Only `terminal` and `attribute` signals reach subscribers; the others are kept
for the audit log.
-/

namespace Rimsky

open List

/-- A bag with its keys in order and none twice: two bags agree iff these are equal. -/
def Bag.canonical (bag : Bag) : Bag :=
  (bag.keys.insertionSort (· ≤ ·)).map fun key => (key, bag.getD key)

theorem Bag.get?_canonical (bag : Bag) (key : String) : bag.canonical.get? key = bag.get? key := by
  have entries : ∀ keys : List String, (∀ k ∈ keys, k ∈ bag.keys) →
      Bag.get? (keys.map fun k => (k, bag.getD k)) key = if key ∈ keys then
        bag.get? key else none := by
    intro keys known
    induction keys with
    | nil => rfl
    | cons k keys ih =>
      rw [map_cons, get?_cons, ih fun k' mem => known k' (by simp [mem])]
      by_cases same : key = k
      · have present := (mem_keys_iff bag k).mp (known k (by simp))
        rcases Option.isSome_iff_exists.mp present with ⟨value, found⟩
        simp [same, Bag.getD, found]
      · simp [same]
  unfold canonical
  rw [entries _ fun k mem => (mem_insertionSort _).mp mem]
  split
  · rfl
  · next absent =>
    rw [mem_insertionSort, mem_keys_iff] at absent
    exact (Option.not_isSome_iff_eq_none.mp absent).symm

theorem nodup_eraseDups (names : List String) : names.eraseDups.Nodup := by
  induction len : names.length using Nat.strongRecOn generalizing names with
  | ind n ih =>
    cases names with
    | nil => simp
    | cons name names =>
      rw [eraseDups_cons, nodup_cons, mem_eraseDups]
      refine ⟨by simp, ih _ ?_ _ rfl⟩
      rw [← len]
      exact Nat.lt_succ_of_le (length_filter_le _ _)

theorem Bag.canonical_eq_iff (a b : Bag) :
    a.canonical = b.canonical ↔ ∀ key, a.get? key = b.get? key := by
  constructor
  · intro same key
    rw [← get?_canonical a, ← get?_canonical b, same]
  · intro same
    have members : ∀ key, key ∈ a.keys ↔ key ∈ b.keys := by
      intro key
      rw [mem_keys_iff, mem_keys_iff, same key]
    have nodup : ∀ bag : Bag, bag.keys.Nodup := fun bag => nodup_eraseDups _
    have sorted : a.keys.insertionSort (· ≤ ·) = b.keys.insertionSort (· ≤ ·) := by
      refine List.Perm.eq_of_sortedLE sortedLE_insertionSort sortedLE_insertionSort ?_
      refine (perm_insertionSort _ _).trans (.trans ?_ (perm_insertionSort _ _).symm)
      exact (perm_ext_iff_of_nodup (nodup a) (nodup b)).mpr members
    unfold canonical
    rw [sorted]
    refine map_congr_left fun key _ => ?_
    unfold Bag.getD
    rw [same key]

/-- The payload messages of the signal package. -/
inductive SignalPayload where
  | terminalSuccess (changed : Bool) (attributesDelta : Bag) (changeSummary : String)
      (tags : List String)
  | terminalError (errorClass : String) (errorPayload : Option Bag) (attempt retriesSoFar : Nat)
      (attributesDelta : Bag) (tags : List String)
  | attributeChanged (key : String) (value oldValue : Json)
  | transientRetry (attempt cap : Nat) (errorClass : String) (errorPayload : Option Bag)
  | transientReleaseAndRequeue (errorClass : String) (errorPayload : Option Bag)
  | transientInfra (reason : String) (details : Option Bag)
  | transientPark (resumeAt : Option Nat) (tags : List String)
  deriving DecidableEq

structure Signal where
  type : String
  payload : SignalPayload
  deriving DecidableEq

def buildTerminalSuccessSignal (changed : Bool) (attributesDelta : Bag) (changeSummary : String)
    (tags : List String) : Signal where
  type := "terminal/success"
  payload := .terminalSuccess changed attributesDelta.canonical changeSummary tags

def buildTerminalErrorSignal (errorClass : String) (errorPayload : Option Bag)
    (attempt retriesSoFar : Nat) (attributesDelta : Bag) (tags : List String) : Signal where
  type := "terminal/error/" ++ errorClass
  payload := .terminalError errorClass (errorPayload.map Bag.canonical) attempt retriesSoFar
    attributesDelta.canonical tags

def trimSuffix (suffix text : List Char) : List Char :=
  if suffix <:+ text then text.take (text.length - suffix.length) else text

/-- `splitSegments`: a trailing slash is dropped, and the empty path has no segments. -/
def splitSegments (path : List Char) : List (List Char) :=
  match trimSuffix ['/'] path with
  | [] => []
  | path => path.splitOn '/'

inductive TopLevelKind where
  | terminal | transient | «attribute» | none
  deriving DecidableEq, Repr

def topLevel (type : String) : TopLevelKind :=
  match String.ofList (type.toList.takeWhile (· ≠ '/')) with
  | "terminal" => .terminal
  | "transient" => .transient
  | "attribute" => .attribute
  | _ => .none

def shouldCascade (type : String) : Bool :=
  topLevel type = .terminal || topLevel type = .attribute

def canonicalEmitPatterns : List String :=
  ["terminal/success", "terminal/error/*", "transient/park", "transient/retry/*",
    "transient/infra/*", "transient/release_and_requeue/*", "transient/await_async",
    "attribute/*/changed"]

def canonicalSubscriptionPatterns : List String := canonicalEmitPatterns.filter shouldCascade

/-- The path is `attribute/<key>/changed` for a key without slashes. -/
def isAttributeChanged (path : List Char) : Bool :=
  let before := "attribute/".toList
  let suffix := "/changed".toList
  let middle := (path.drop before.length).take (path.length - (before.length + suffix.length))
  decide (before.length + suffix.length ≤ path.length) && decide (before <+: path) &&
    decide (suffix <:+ path) && !middle.isEmpty && !middle.contains '/'

/-- `matchesPatterns` of a path that is not itself a pattern. -/
def matchesPatterns (patterns : List String) (path : List Char) : Bool :=
  patterns.any fun pattern =>
    let pattern := pattern.toList
    if pattern = "attribute/*/changed".toList then isAttributeChanged path
    else if ['*'] <:+ pattern then
      let before := trimSuffix ['*'] pattern
      decide (before <+: path) && decide (before.length < path.length)
    else decide (path = pattern)

/-- `matchesPatterns` with a trailing wildcard allowed. -/
def matchesSubscriptionPatterns (patterns : List String) (path : List Char) : Bool :=
  if ['*'] <:+ path then
    let before := trimSuffix ['*'] path
    !before.isEmpty && patterns.any fun pattern =>
      let canon := trimSuffix ['*'] pattern.toList
      decide (before <+: canon) || decide (canon <+: before)
  else matchesPatterns patterns path

def validTypePath (type : String) : Bool :=
  type ≠ "" && matchesPatterns canonicalEmitPatterns type.toList

def validSubscriptionType (type : String) : Bool :=
  type ≠ "" && !(type.toList.dropLast.contains '*') && type ≠ "transient/park" &&
    type ≠ "transient/park/*" &&
      matchesSubscriptionPatterns canonicalSubscriptionPatterns type.toList

/-- `HasPrefix`: a trailing wildcard matches every path that goes on from it. -/
def typeHasPrefix (type pattern : String) : Bool :=
  if ['*'] <:+ pattern.toList then decide (trimSuffix ['*'] pattern.toList <+: type.toList)
  else decide (type = pattern)

theorem toList_attributePath (key : String) :
    ("attribute/" ++ key ++ "/changed").toList =
      "attribute".toList ++ '/' :: (key.toList ++ "/change".toList ++ ['d']) := by
  simp [String.toList_append]

theorem splitSegments_attributePath (key : String) :
    ∃ rest, splitSegments ("attribute/" ++ key ++ "/changed").toList =
      "attribute".toList :: rest := by
  have ends : ¬['/'] <:+ "attribute".toList ++
      '/' :: (key.toList ++ "/change".toList ++ ['d']) := by
    rw [← cons_append, ← append_assoc, singleton_suffix_append_singleton_iff]
    decide
  unfold splitSegments trimSuffix
  rw [toList_attributePath, if_neg ends]
  exact ⟨_, splitOn_append_cons_self_of_not_mem (by decide) _⟩

theorem topLevel_attributePath (key : String) :
    topLevel ("attribute/" ++ key ++ "/changed") = .attribute := by
  unfold topLevel
  simp

end Rimsky
