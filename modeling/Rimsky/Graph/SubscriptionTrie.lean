import Rimsky.Graph.Subscription
import Rimsky.Lib.Trie

/-!
# The subscription trie

`graph/node/subscription_edges.go`: the edges of a sender are filed in a trie by the segments of
their pattern, and a signal collects them on its way down. The trie finds what the flat list of
edges finds. It does not quite find what `HasPrefix` says a pattern matches: a wildcard that
breaks off inside a segment is filed under a segment no signal has, and slashes at the end of a
pattern or of a type do not count.
-/

namespace Rimsky

open List SubscriptionEdgeMap

variable {edges : SubscriptionEdgeMap} {sender type pattern : String} {path path' stem : List Char}
  (inserts : List (String × SubscriptionEdge))

structure FiledEdges where
  exact : List SubscriptionEdge := []
  wildcard : List SubscriptionEdge := []
  deriving DecidableEq, Repr

instance : Inhabited FiledEdges := ⟨{}⟩

abbrev PrefixNode := Trie (List Char) FiledEdges

/-- `SubscriptionEdgeMap` of the source. -/
structure SubscriptionEdgeTrie where
  bySender : List (String × PrefixNode) := []

def FiledEdges.file (edge : SubscriptionEdge) (filed : FiledEdges) : FiledEdges :=
  if SubscriptionEdgeMap.isWildcard edge.typePattern then
    if filed.wildcard.contains edge then filed
    else { filed with wildcard := filed.wildcard ++ [edge] }
  else if filed.exact.contains edge then filed
  else { filed with exact := filed.exact ++ [edge] }

/-- The loop of `appendMatches` over the segments of a type. -/
def appendMatchesLoop : List SubscriptionEdge → List PrefixNode → List (List Char) →
    List SubscriptionEdge
  | out, frontier, [] => out ++ frontier.flatMap (·.value.exact)
  | out, frontier, seg :: segs =>
    let next := frontier.filterMap (·.child? seg)
    let out := out ++ next.flatMap (·.value.wildcard)
    if next.isEmpty then out else appendMatchesLoop out next segs

def appendMatches (out : List SubscriptionEdge) (root : Option PrefixNode) (type : String) :
    List SubscriptionEdge :=
  match root with
  | none => out
  | some root =>
    appendMatchesLoop (out ++ root.value.wildcard) [root] (splitSegments type.toList)

namespace SubscriptionEdgeTrie

def insert (m : SubscriptionEdgeTrie) (sender : String) (edge : SubscriptionEdge) :
    SubscriptionEdgeTrie where
  bySender := assocPut sender
    (Trie.modify (FiledEdges.file edge) (SubscriptionEdgeMap.patternSegments edge.typePattern)
      ((assocGet? sender m.bySender).getD default)) m.bySender

def «match» (m : SubscriptionEdgeTrie) (sender type : String) : List SubscriptionEdge :=
  appendMatches [] (assocGet? sender m.bySender) type

def ofInserts : SubscriptionEdgeTrie :=
  inserts.foldl (fun m entry => m.insert entry.1 entry.2) {}

end SubscriptionEdgeTrie

theorem appendMatchesLoop_eq (out : List SubscriptionEdge) (t : PrefixNode)
    (segs : List (List Char)) :
    appendMatchesLoop out [t] segs =
      out ++ segs.inits.tail.flatMap (fun above => (t.get above).wildcard) ++
        (t.get segs).exact := by
  induction segs generalizing out t with
  | nil => simp [appendMatchesLoop, Trie.get]
  | cons seg segs ih =>
    have below : ∀ path, t.get (seg :: path) = ((t.child? seg).getD default).get path :=
      fun path => Trie.get_cons seg path t
    have tails : (seg :: segs).inits.tail = segs.inits.map (seg :: ·) := by simp
    have next : [t].filterMap (·.child? seg) = (t.child? seg).toList := by
      cases found : t.child? seg <;> simp [found]
    unfold appendMatchesLoop
    rw [tails, flatMap_map, below, next]
    simp only [below]
    cases t.child? seg with
    | none =>
      have nothing : ∀ path, (default : PrefixNode).get path = {} := Trie.get_default
      simp [nothing]
    | some child =>
      have first : segs.inits = [] :: segs.inits.tail := by cases segs <;> rfl
      refine (if_neg (by simp)).trans ((ih _ child).trans ?_)
      rw [Option.getD_some, first]
      simp [Trie.get]

theorem SubscriptionEdgeTrie.match_eq (m : SubscriptionEdgeTrie) (sender type : String) :
    m.match sender type =
      (splitSegments type.toList).inits.flatMap (fun above =>
        (((assocGet? sender m.bySender).getD default).get above).wildcard) ++
      (((assocGet? sender m.bySender).getD default).get (splitSegments type.toList)).exact := by
  unfold SubscriptionEdgeTrie.match appendMatches
  cases assocGet? sender m.bySender with
  | none =>
    have nothing : ∀ path, (default : PrefixNode).get path = {} := Trie.get_default
    simp [nothing]
  | some root =>
    generalize splitSegments type.toList = segs
    have first : segs.inits = [] :: segs.inits.tail := by cases segs <;> rfl
    dsimp only [Option.getD_some]
    rw [appendMatchesLoop_eq, first]
    simp [Trie.get]

def SubscriptionEdgeTrie.Files (m : SubscriptionEdgeTrie) (edges : SubscriptionEdgeMap) : Prop :=
  ∀ sender path, ((assocGet? sender m.bySender).getD default).get path = {
    exact := (edges.ofSender sender).filter fun e =>
      !SubscriptionEdgeMap.isWildcard e.typePattern &&
        SubscriptionEdgeMap.patternSegments e.typePattern = path
    wildcard := (edges.ofSender sender).filter fun e =>
      SubscriptionEdgeMap.isWildcard e.typePattern &&
        SubscriptionEdgeMap.patternSegments e.typePattern = path }

namespace SubscriptionEdgeMap

def ofInserts : SubscriptionEdgeMap :=
  inserts.foldl (fun edges entry => SubscriptionEdgeMap.insert edges entry.1 entry.2) []

theorem mem_ofSender {e : SubscriptionEdge} : e ∈ edges.ofSender sender ↔ (sender, e) ∈ edges := by
  unfold ofSender
  simp

theorem ofSender_insert (edges : SubscriptionEdgeMap) (sender sender' : String)
    (edge : SubscriptionEdge) :
    (SubscriptionEdgeMap.insert edges sender edge).ofSender sender' =
      if sender' = sender ∧ (sender, edge) ∉ edges then edges.ofSender sender' ++ [edge]
      else edges.ofSender sender' := by
  unfold insert
  by_cases known : (sender, edge) ∈ edges
  · rw [if_pos (by simpa using known), if_neg (by simp [known])]
  · rw [if_neg (by simpa using known)]
    by_cases same : sender' = sender
    · rw [if_pos ⟨same, known⟩]
      simp [ofSender, same]
    · rw [if_neg (by simp [same])]
      simp [ofSender, Ne.symm same]

end SubscriptionEdgeMap

theorem SubscriptionEdgeTrie.Files.insert {m : SubscriptionEdgeTrie} (files : m.Files edges)
    (sender : String) (edge : SubscriptionEdge) :
    (m.insert sender edge).Files (SubscriptionEdgeMap.insert edges sender edge) := by
  intro sender' path
  rw [ofSender_insert]
  have root : assocGet? sender' (m.insert sender edge).bySender = if sender' = sender then
      some (Trie.modify (FiledEdges.file edge) (patternSegments edge.typePattern)
        ((assocGet? sender m.bySender).getD default)) else assocGet? sender' m.bySender :=
    assocGet?_put _ _ _ _
  rw [root]
  by_cases same : sender' = sender
  · subst same
    rw [if_pos rfl, Option.getD_some, Trie.get_modify, files, files]
    by_cases here : path = patternSegments edge.typePattern
    · subst here
      unfold FiledEdges.file
      cases wild : isWildcard edge.typePattern with
      | _ =>
        by_cases known : (sender', edge) ∈ edges
        · simp [known, mem_ofSender, wild]
        · simp [known, mem_ofSender, wild, filter_append]
    · rw [if_neg here]
      split
      · simp [filter_append, Ne.symm here]
      · rfl
  · rw [if_neg same, if_neg (by simp [same])]
    exact files sender' path

theorem SubscriptionEdgeTrie.files_ofInserts :
    (ofInserts inserts).Files (SubscriptionEdgeMap.ofInserts inserts) := by
  have loop : ∀ (m : SubscriptionEdgeTrie) (edges : SubscriptionEdgeMap), m.Files edges →
      (inserts.foldl (fun m entry => m.insert entry.1 entry.2) m).Files
        (inserts.foldl (fun edges entry =>
          SubscriptionEdgeMap.insert edges entry.1 entry.2) edges) := by
    induction inserts with
    | nil => exact fun m edges files => files
    | cons entry inserts ih => exact fun m edges files => ih _ _ (files.insert entry.1 entry.2)
  refine loop {} [] fun sender path => ?_
  exact Trie.get_default path

theorem SubscriptionEdgeTrie.match_ofInserts (sender type : String) :
    (ofInserts inserts).match sender type =
      (SubscriptionEdgeMap.ofInserts inserts).match sender type := by
  have files := files_ofInserts inserts sender
  rw [match_eq]
  simp only [files]
  rfl

def Collects (pattern type : String) : Prop :=
  if SubscriptionEdgeMap.isWildcard pattern then
    SubscriptionEdgeMap.patternSegments pattern <+: splitSegments type.toList
  else SubscriptionEdgeMap.patternSegments pattern = splitSegments type.toList

namespace SubscriptionEdgeMap

theorem mem_match {e : SubscriptionEdge} :
    e ∈ edges.match sender type ↔ (sender, e) ∈ edges ∧ Collects e.typePattern type := by
  unfold SubscriptionEdgeMap.match Collects
  cases wild : isWildcard e.typePattern with
  | true => simp [wild, mem_ofSender, and_comm]
  | false => simp [wild, mem_ofSender]

theorem nodup_ofSender (distinct : edges.Nodup) (sender : String) :
    (edges.ofSender sender).Nodup := by
  refine (distinct.filter _).map_on fun entry mem entry' mem' same => ?_
  rw [mem_filter, decide_eq_true_iff] at mem mem'
  exact Prod.ext (mem.2.trans mem'.2.symm) same

theorem nodup_inits (path : List (List Char)) : path.inits.Nodup := by
  induction path with
  | nil => simp
  | cons segment path ih =>
    rw [inits_cons, nodup_cons]
    exact ⟨by simp, ih.map (cons_injective)⟩

/-- The wildcards above a path are filed at different depths, so none is found twice. -/
theorem nodup_match (distinct : edges.Nodup) (sender type : String) :
    (edges.match sender type).Nodup := by
  have mine := nodup_ofSender distinct sender
  refine List.Nodup.append (nodup_flatMap.mpr ⟨fun above _ => mine.filter _, ?_⟩)
    (mine.filter _) ?_
  · refine (nodup_inits _).imp fun {above above'} differ e mem mem' => differ ?_
    simp only [mem_filter, Bool.and_eq_true, decide_eq_true_eq] at mem mem'
    exact mem.2.2.symm.trans mem'.2.2
  · intro e wild exact
    simp only [mem_flatMap, mem_filter, Bool.and_eq_true, Bool.not_eq_true'] at wild exact
    rcases wild with ⟨above, -, -, wild, -⟩
    rw [wild] at exact
    exact Bool.noConfusion exact.2.1

theorem mem_insert {edge : SubscriptionEdge} {entry : String × SubscriptionEdge} :
    entry ∈ SubscriptionEdgeMap.insert edges sender edge ↔ entry ∈ edges ∨
      entry = (sender, edge) := by
  unfold insert
  split
  · rename_i found
    rw [contains_iff_mem] at found
    exact ⟨.inl, fun mem => mem.elim id fun same => same ▸ found⟩
  · rw [mem_append, mem_singleton]

theorem nodup_insert (distinct : edges.Nodup) (sender : String) (edge : SubscriptionEdge) :
    (SubscriptionEdgeMap.insert edges sender edge).Nodup := by
  unfold insert
  split
  · exact distinct
  · rename_i absent
    rw [contains_iff_mem] at absent
    rw [← concat_eq_append]
    exact distinct.concat absent

theorem mem_ofInserts {inserts : List (String × SubscriptionEdge)}
    {entry : String × SubscriptionEdge} :
    entry ∈ ofInserts inserts ↔ entry ∈ inserts := by
  have loop : ∀ edges : SubscriptionEdgeMap,
      entry ∈ inserts.foldl (fun edges entry => insert edges entry.1 entry.2) edges ↔
        entry ∈ edges ∨ entry ∈ inserts := by
    induction inserts with
    | nil => simp
    | cons first inserts ih =>
      intro edges
      rw [foldl_cons, ih, mem_insert, mem_cons, or_assoc]
  rw [ofInserts, loop, or_iff_right (not_mem_nil)]

theorem nodup_ofInserts : (ofInserts inserts).Nodup := by
  have loop : ∀ edges : SubscriptionEdgeMap, edges.Nodup →
      (inserts.foldl (fun edges entry => insert edges entry.1 entry.2)
        edges).Nodup := by
    induction inserts with
    | nil => exact fun edges distinct => distinct
    | cons entry inserts ih => exact fun edges distinct => ih _ (nodup_insert distinct _ _)
  exact loop [] nodup_nil

end SubscriptionEdgeMap

def bare (path : List Char) : List Char := trimSuffix ['/'] path

/--
The trie reads the pattern as it is meant: a wildcard does not break off inside a segment that
the type goes on with, and where pattern and type agree without the slashes at the end, they
agree with them.
-/
def Aligned (pattern type : String) : Prop :=
  if SubscriptionEdgeMap.isWildcard pattern then
    let stem := trimSuffix ['*'] pattern.toList
    (¬['/'] <:+ stem → ∀ c, stem ++ [c] <+: type.toList → c = '/') ∧
      (['/'] <:+ stem → bare type.toList = bare (bare stem) ∨
        bare (bare stem) ++ ['/'] <+: bare type.toList → stem <+: type.toList)
  else bare pattern.toList = bare type.toList → pattern = type

theorem bare_of_suffix : bare (path ++ ['/']) = path := by
  simp [bare, trimSuffix]

theorem bare_of_not_suffix (ends : ¬['/'] <:+ path) : bare path = path := by
  rw [bare, trimSuffix, if_neg ends]

theorem bare_starts (path : List Char) : bare path <+: path := by
  unfold bare trimSuffix
  split
  · exact take_prefix _ _
  · exact prefix_refl _

theorem bare_cases (path : List Char) : bare path = path ∧ ¬['/'] <:+ path ∨
    path = bare path ++ ['/'] := by
  by_cases ends : ['/'] <:+ path
  · rcases ends with ⟨front, rfl⟩
    exact .inr (by rw [bare_of_suffix])
  · exact .inl ⟨bare_of_not_suffix ends, ends⟩

theorem bare_append {front tail : List Char} (some' : tail ≠ []) :
    bare (front ++ tail) = front ++ bare tail := by
  rcases eq_nil_or_concat tail with rfl | ⟨init, last, rfl⟩
  · exact absurd rfl some'
  · by_cases slash : last = '/'
    · subst slash
      rw [concat_eq_append, ← append_assoc, bare_of_suffix, bare_of_suffix]
    · have ends : ∀ path : List Char, ¬['/'] <:+ path ++ [last] := by
        rintro path
        rw [singleton_suffix_append_singleton_iff]
        exact fun same => slash same.symm
      rw [concat_eq_append, ← append_assoc, bare_of_not_suffix (ends _),
        bare_of_not_suffix (ends _), append_assoc]

theorem splitSegments_eq (some' : bare path ≠ []) :
    splitSegments path = (bare path).splitOn '/' := by
  unfold splitSegments
  split
  · rename_i none
    exact absurd none some'
  · rfl

theorem splitOn_inj : path.splitOn '/' = path'.splitOn '/' ↔ path = path' := by
  refine ⟨fun same => ?_, congrArg _⟩
  have back : ['/'].intercalate (path.splitOn '/') = path := intercalate_splitOn ..
  rw [← back, same, intercalate_splitOn]

theorem intercalate_append (sep : List Char) {front back : List (List Char)} (before : front ≠ [])
    (after : back ≠ []) :
    sep.intercalate (front ++ back) = sep.intercalate front ++ sep ++ sep.intercalate back := by
  induction front with
  | nil => exact absurd rfl before
  | cons first front ih =>
    cases front with
    | nil =>
      rcases exists_cons_of_ne_nil after with ⟨next, back, rfl⟩
      simp [intercalate_cons_cons]
    | cons second front =>
      rw [cons_append, cons_append, intercalate_cons_cons,
        intercalate_cons_cons, ← cons_append, ih (cons_ne_nil _ _)]
      simp only [append_assoc]

theorem splitOn_starts :
    path.splitOn '/' <+: path'.splitOn '/' ↔ path' = path ∨ path ++ ['/'] <+: path' := by
  constructor
  · rintro ⟨rest, split⟩
    have back : ['/'].intercalate (path.splitOn '/' ++ rest) = path' := by
      rw [split, intercalate_splitOn]
    rcases eq_or_ne rest [] with rfl | more
    · rw [append_nil, intercalate_splitOn] at back
      exact .inl back.symm
    · rw [intercalate_append _ (splitOn_ne_nil _ _) more, intercalate_splitOn] at back
      exact .inr ⟨_, back⟩
  · rintro (rfl | ⟨rest, rfl⟩)
    · exact prefix_refl _
    · rw [append_assoc, singleton_append, splitOn_append_cons_self]
      exact prefix_append _ _

/-- The path begins with something other than a slash, as every accepted one does. -/
def Rooted (path : List Char) : Prop := ∃ c rest, path = c :: rest ∧ c ≠ '/'

theorem Rooted.ne_nil (rooted : Rooted path) : path ≠ [] := by
  rcases rooted with ⟨c, rest, rfl, -⟩
  exact cons_ne_nil _ _

theorem Rooted.of_begins (rooted : Rooted path) (starts : path' <+: path) (some' : path' ≠ []) :
    Rooted path' := by
  rcases rooted with ⟨c, rest, rfl, other⟩
  rcases exists_cons_of_ne_nil some' with ⟨c', rest', rfl⟩
  have same := (cons_prefix_cons.mp starts).1
  exact ⟨c', rest', rfl, same ▸ other⟩

theorem Rooted.append (rooted : Rooted path) (more : List Char) : Rooted (path ++ more) := by
  rcases rooted with ⟨c, rest, rfl, other⟩
  exact ⟨c, rest ++ more, rfl, other⟩

theorem Rooted.bare (rooted : Rooted path) : Rooted (bare path) := by
  refine rooted.of_begins (bare_starts path) fun none => ?_
  rcases bare_cases path with ⟨same, -⟩ | slash
  · exact rooted.ne_nil (same ▸ none)
  · rcases rooted with ⟨c, rest, rfl, other⟩
    rw [none, nil_append, cons.injEq] at slash
    exact other slash.1

theorem collects_wildcard (wild : SubscriptionEdgeMap.isWildcard pattern = true)
    (stemmed : Rooted (trimSuffix ['*'] pattern.toList)) (typed : Rooted type.toList) :
    Collects pattern type ↔
      bare type.toList = bare (bare (trimSuffix ['*'] pattern.toList)) ∨
        bare (bare (trimSuffix ['*'] pattern.toList)) ++ ['/'] <+: bare type.toList := by
  rw [Collects, if_pos wild, patternSegments, if_pos wild, ← bare,
    splitSegments_eq stemmed.bare.bare.ne_nil, splitSegments_eq typed.bare.ne_nil, splitOn_starts]

theorem collects_exact (wild : ¬SubscriptionEdgeMap.isWildcard pattern = true)
    (stemmed : Rooted pattern.toList) (typed : Rooted type.toList) :
    Collects pattern type ↔ bare pattern.toList = bare type.toList := by
  rw [Collects, if_neg wild, patternSegments, if_neg wild,
    splitSegments_eq stemmed.bare.ne_nil, splitSegments_eq typed.bare.ne_nil, splitOn_inj]

theorem bare_of_slash (stem rest : List Char) :
    bare (stem ++ '/' :: rest) = stem ∨ stem ++ ['/'] <+: bare (stem ++ '/' :: rest) := by
  rcases eq_or_ne rest [] with rfl | more
  · exact .inl bare_of_suffix
  · right
    rw [append_cons stem '/' rest, bare_append more]
    exact prefix_append _ _

theorem eq_of_beginses {text : List Char} {c c' : Char} (first : stem ++ [c] <+: text)
    (second : stem ++ [c'] <+: text) : c = c' := by
  rcases first with ⟨rest, rfl⟩
  rw [append_assoc, prefix_append_right_inj, singleton_append,
    cons_prefix_cons] at second
  exact second.1.symm

theorem collects_open {type : List Char} (ends : ¬['/'] <:+ stem) :
    ((bare type = stem ∨ stem ++ ['/'] <+: bare type) ↔ stem <+: type) ↔
      ∀ c, stem ++ [c] <+: type → c = '/' := by
  constructor
  · intro agree c next
    rcases agree.mpr ((prefix_append _ _).trans next) with same | below
    · rcases bare_cases type with ⟨whole, -⟩ | slash
      · rw [← whole, same] at next
        exact absurd next.length_le (by simp)
      · rw [same] at slash
        exact eq_of_beginses next (slash ▸ prefix_refl _)
    · exact eq_of_beginses next (below.trans (bare_starts type))
  · intro closed
    constructor
    · rintro (same | below)
      · exact same ▸ bare_starts type
      · exact ((prefix_append _ _).trans below).trans (bare_starts type)
    · rintro ⟨rest, rfl⟩
      cases rest with
      | nil => exact .inl (by rw [append_nil, bare_of_not_suffix ends])
      | cons c rest =>
        have slash : c = '/' := closed c ⟨rest, by rw [append_assoc, singleton_append]⟩
        rw [slash]
        exact bare_of_slash stem rest

theorem collects_closed {type : List Char} (ends : ['/'] <:+ stem) (starts : stem <+: type) :
    bare type = bare (bare stem) ∨ bare (bare stem) ++ ['/'] <+: bare type := by
  rcases ends with ⟨front, rfl⟩
  rcases starts with ⟨rest, rfl⟩
  rw [bare_of_suffix, append_assoc, singleton_append]
  have below := bare_of_slash front rest
  rcases bare_cases front with ⟨same, -⟩ | slash
  · rwa [same]
  · refine .inr ((slash ▸ prefix_refl _ : bare front ++ ['/'] <+: front).trans ?_)
    rcases below with same | below
    · exact ⟨[], by rw [append_nil, same]⟩
    · exact (prefix_append _ _).trans below

/-- The trie and the language agree on a pattern just where the pattern is aligned. -/
theorem collects_iff_hasPrefix (stemmed : Rooted pattern.toList)
    (stemmed' : SubscriptionEdgeMap.isWildcard pattern = true →
      Rooted (trimSuffix ['*'] pattern.toList)) (typed : Rooted type.toList) :
    (Collects pattern type ↔ typeHasPrefix type pattern = true) ↔ Aligned pattern type := by
  by_cases wild : isWildcard pattern = true
  · have starts : typeHasPrefix type pattern = true ↔
        trimSuffix ['*'] pattern.toList <+: type.toList := by
      rw [typeHasPrefix, if_pos (of_decide_eq_true wild), decide_eq_true_iff]
    rw [collects_wildcard wild (stemmed' wild) typed, starts, Aligned, if_pos wild]
    by_cases ends : ['/'] <:+ trimSuffix ['*'] pattern.toList
    · simp only [ends, not_true_eq_false, false_implies, true_implies, true_and]
      exact ⟨Iff.mp, fun strict => ⟨strict, collects_closed ends⟩⟩
    · simp only [ends, not_false_eq_true, true_implies, false_implies, and_true]
      rw [bare_of_not_suffix ends, bare_of_not_suffix ends]
      exact collects_open ends
  · have same : typeHasPrefix type pattern = true ↔ type = pattern := by
      rw [typeHasPrefix, if_neg fun ends => wild (decide_eq_true ends), decide_eq_true_iff]
    rw [collects_exact wild stemmed typed, same, Aligned, if_neg wild]
    exact ⟨fun agree slack => (agree.mp slack).symm,
      fun strict => ⟨fun slack => (strict slack).symm, fun whole => by rw [whole]⟩⟩

theorem rooted_iff : path.head?.any (· ≠ '/') = true ↔ Rooted path := by
  cases path with
  | nil => simp [Rooted]
  | cons c rest => simp [Rooted]

theorem rooted_canonical : ∀ pattern ∈ canonicalEmitPatterns,
    Rooted (trimSuffix ['*'] pattern.toList) := by
  simp only [← rooted_iff]
  decide +kernel

theorem Rooted.of_starts {front : List Char} (rooted : Rooted front) (starts : front <+: path) :
    Rooted path := by
  rcases starts with ⟨rest, rfl⟩
  exact rooted.append rest

theorem trimSuffix_starts (suffix path : List Char) : trimSuffix suffix path <+: path := by
  unfold trimSuffix
  split
  · exact take_prefix _ _
  · exact prefix_refl _

theorem rooted_of_matchesPatterns {patterns : List String}
    (rooted : ∀ pattern ∈ patterns, Rooted (trimSuffix ['*'] pattern.toList))
    (matching : matchesPatterns patterns path = true) : Rooted path := by
  rcases any_eq_true.mp matching with ⟨pattern, listed, matching⟩
  have root := rooted pattern listed
  by_cases changed : pattern.toList = "attribute/*/changed".toList
  · rw [if_pos changed] at matching
    unfold isAttributeChanged at matching
    simp only [Bool.and_eq_true, decide_eq_true_eq] at matching
    exact (rooted_iff.mp (by decide)).of_starts matching.1.1.1.2
  · rw [if_neg changed] at matching
    by_cases wild : ['*'] <:+ pattern.toList
    · rw [if_pos wild, Bool.and_eq_true, decide_eq_true_iff] at matching
      exact root.of_starts matching.1
    · rw [if_neg wild, decide_eq_true_iff] at matching
      rw [matching]
      exact root.of_starts (trimSuffix_starts _ _)

theorem rooted_of_validTypePath (valid : validTypePath type = true) : Rooted type.toList := by
  rw [validTypePath, Bool.and_eq_true] at valid
  exact rooted_of_matchesPatterns rooted_canonical valid.2

theorem rooted_of_validSubscriptionType (valid : validSubscriptionType pattern = true) :
    Rooted pattern.toList ∧ (SubscriptionEdgeMap.isWildcard pattern = true →
      Rooted (trimSuffix ['*'] pattern.toList)) := by
  have matching : matchesSubscriptionPatterns canonicalSubscriptionPatterns pattern.toList =
      true := by
    rw [validSubscriptionType, Bool.and_eq_true] at valid
    exact valid.2
  have canonical : ∀ canon ∈ canonicalSubscriptionPatterns,
      Rooted (trimSuffix ['*'] canon.toList) :=
    fun canon listed => rooted_canonical canon (mem_of_mem_filter listed)
  unfold matchesSubscriptionPatterns at matching
  by_cases wild : ['*'] <:+ pattern.toList
  · rw [if_pos wild, Bool.and_eq_true] at matching
    rcases matching with ⟨some', matching⟩
    rcases any_eq_true.mp matching with ⟨canon, listed, either⟩
    have stemmed : Rooted (trimSuffix ['*'] pattern.toList) := by
      rw [Bool.or_eq_true, decide_eq_true_iff, decide_eq_true_iff] at either
      rcases either with above | below
      · refine (canonical canon listed).of_begins above ?_
        simpa using some'
      · exact (canonical canon listed).of_starts below
    exact ⟨stemmed.of_starts (trimSuffix_starts _ _), fun _ => stemmed⟩
  · rw [if_neg wild] at matching
    exact ⟨rooted_of_matchesPatterns canonical matching,
      fun wildcard => absurd (of_decide_eq_true wildcard) wild⟩

/--
The result holds the distinct inserted edges of the sender whose pattern matches the type under
`HasPrefix`, each of them once.
-/
def ExactlyMatching (sender type : String) (result : List SubscriptionEdge) : Prop :=
  result.Nodup ∧ ∀ e, e ∈ result ↔ (sender, e) ∈ inserts ∧ typeHasPrefix type e.typePattern = true

/--
Over accepted patterns and types, whatever the order of the insertions, the trie finds the edges
the language names just where every pattern of the sender is aligned with the type.
-/
theorem match_exactlyMatching_iff {inserts : List (String × SubscriptionEdge)} {type : String}
    (accepted : ∀ entry ∈ inserts, validSubscriptionType entry.2.typePattern = true)
    (valid : validTypePath type = true) (sender : String) :
    (∀ inserts', inserts'.Perm inserts → ExactlyMatching inserts sender type
        ((SubscriptionEdgeTrie.ofInserts inserts').match sender type)) ↔
      ∀ e, (sender, e) ∈ inserts → Aligned e.typePattern type := by
  have typed := rooted_of_validTypePath valid
  have agree : ∀ e, (sender, e) ∈ inserts →
      ((Collects e.typePattern type ↔ typeHasPrefix type e.typePattern = true) ↔
        Aligned e.typePattern type) := fun e inserted => by
    have stemmed := rooted_of_validSubscriptionType (accepted (sender, e) inserted)
    exact collects_iff_hasPrefix stemmed.1 stemmed.2 typed
  have found : ∀ inserts', inserts'.Perm inserts → ∀ e,
      e ∈ (SubscriptionEdgeTrie.ofInserts inserts').match sender type ↔
        (sender, e) ∈ inserts ∧ Collects e.typePattern type := fun inserts' perm e => by
    rw [SubscriptionEdgeTrie.match_ofInserts, mem_match,
      mem_ofInserts, perm.mem_iff]
  constructor
  · intro exact e inserted
    rw [← agree e inserted]
    have here := (exact inserts (List.Perm.refl _)).2 e
    rw [found inserts (List.Perm.refl _)] at here
    simpa only [inserted, true_and] using here
  · intro aligned inserts' perm
    refine ⟨?_, fun e => ?_⟩
    · rw [SubscriptionEdgeTrie.match_ofInserts]
      exact nodup_match (nodup_ofInserts _) _ _
    · rw [found inserts' perm]
      exact and_congr_right fun inserted => (agree e inserted).mpr (aligned e inserted)

def errorEdge : SubscriptionEdge :=
  { receiverNodeType := "watcher", typePattern := "terminal/error/*" }

theorem match_exactlyMatching_error :
    ExactlyMatching [("worker", errorEdge), ("worker", errorEdge)] "worker" "terminal/error/timeout"
      ((SubscriptionEdgeTrie.ofInserts [("worker", errorEdge), ("worker", errorEdge)]).match
        "worker" "terminal/error/timeout") := by
  refine (match_exactlyMatching_iff ?_ (by decide +kernel) "worker").mpr ?_ _ (.refl _)
  · intro entry listed
    have same : entry = ("worker", errorEdge) := by simpa using listed
    rw [same]
    decide +kernel
  · intro e listed
    have same : e = errorEdge := by simpa using listed
    have wild : isWildcard errorEdge.typePattern = true := by decide +kernel
    rw [same, Aligned, if_pos wild]
    exact ⟨fun open' => absurd (by decide +kernel) open', fun _ _ => by decide +kernel⟩

def brokenEdge : SubscriptionEdge :=
  { receiverNodeType := "watcher", typePattern := "terminal/err*" }

/-- The subscription is accepted and the language matches it, but the trie finds nothing. -/
theorem match_misses_broken_segment :
    validSubscriptionType brokenEdge.typePattern = true ∧
      validTypePath "terminal/error/timeout" = true ∧
      typeHasPrefix "terminal/error/timeout" brokenEdge.typePattern = true ∧
      ¬ExactlyMatching [("worker", brokenEdge)] "worker" "terminal/error/timeout"
        ((SubscriptionEdgeTrie.ofInserts [("worker", brokenEdge)]).match "worker"
          "terminal/error/timeout") := by
  have named : typeHasPrefix "terminal/error/timeout" brokenEdge.typePattern = true := by
    decide +kernel
  refine ⟨by decide +kernel, by decide +kernel, named, fun exact => ?_⟩
  have found := (exact.2 brokenEdge).mpr ⟨mem_singleton.mpr rfl, named⟩
  exact not_mem_nil found

end Rimsky
