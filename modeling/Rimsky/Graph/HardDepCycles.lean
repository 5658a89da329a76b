import Mathlib.Data.Finset.Max
import Mathlib.Data.List.Rotate
import Mathlib.Data.List.Chain
import Rimsky.Graph.Subscription

/-!
# Cycles of forced refreshes

`graph/node/hard_dep_edges.go` rejects templates whose forced refreshes pull one another in a
circle. `findAllCycles` is a depth-first search that reports the path from a node on when it comes
back to it, unless a rotation of the cycle was reported before. The recursion is bounded here by the
number of names in the map.
-/

namespace Rimsky.HardDepCycles

open List

abbrev HardDepEdgeMap := List (String × List String)

def HardDepEdgeMap.next (adj : HardDepEdgeMap) (node : String) : List String :=
  (adj.lookup node).getD []

def HardDepEdgeMap.names (adj : HardDepEdgeMap) : List String := adj.flatMap fun e => e.1 :: e.2

inductive Color where
  | white | gray | black
  deriving DecidableEq

/-- `color` and `cycles`; `seenCycles` are the keys of the cycles. -/
structure Search where
  color : String → Color := fun _ => .white
  cycles : List (List String) := []

def Search.paint (st : Search) (node : String) (color : Color) : Search :=
  { st with color := Function.update st.color node color }

theorem Search.paint_color (st : Search) (node x : String) (color : Color) :
    (st.paint node color).color x = if x = node then color else st.color x :=
  Function.update_apply _ _ _ _

/-- `canonicalCycleKey`: the body of the cycle from its first least node on. -/
def canonicalCycleKey (path : List String) : String :=
  if path.length < 2 then "→".intercalate path
  else
    let body := path.dropLast
    "→".intercalate (body.rotate (body.findIdx fun a => body.all (a ≤ ·)))

def Search.record (st : Search) (cyclePath : List String) : Search :=
  if canonicalCycleKey cyclePath ∈ st.cycles.map canonicalCycleKey then st
  else { st with cycles := st.cycles ++ [cyclePath] }

def visit (path : List String) (dfs : String → Search → Option Search) (st : Search)
    (next : String) :
    Option Search :=
  match st.color next with
  | .gray => some (st.record (path.dropWhile (· ≠ next) ++ [next]))
  | .white => dfs next st
  | .black => some st

def dfs (adj : HardDepEdgeMap) : Nat → List String → String → Search → Option Search
  | 0, _, _, _ => none
  | fuel + 1, path, node, st =>
    ((adj.next node).foldlM (visit (path ++ [node]) (dfs adj fuel (path ++ [node])))
      (st.paint node .gray)).map (·.paint node .black)

def findAllCycles (adj : HardDepEdgeMap) : Option (List (List String)) :=
  (((adj.map (·.1)).insertionSort (· ≤ ·)).foldlM (fun st node =>
    if st.color node = .white then dfs adj (adj.names.length + 1) [] node st else some st) {}).map
      (·.cycles)

/-- The `%v` of a list of texts. -/
def printed (texts : List String) : String := "[" ++ " ".intercalate texts ++ "]"

def detectHardDepCycle (adj : HardDepEdgeMap) : Option (Except String Unit) :=
  (findAllCycles adj).map fun
    | [] => .ok ()
    | [cycle] => .error ("hard-dep cycle detected: " ++ printed cycle)
    | cycles => .error ("hard-dep cycles detected (" ++ toString cycles.length ++ "): " ++
        printed (cycles.map printed))

/-- Refreshing the first node forces a refresh of the second one. -/
def Pulls (adj : HardDepEdgeMap) (receiver sender : String) : Prop := sender ∈ adj.next receiver

/-- A walk along the edges that comes back to its first node, and to no other. -/
def ClosedWalk (adj : HardDepEdgeMap) (c : List String) : Prop :=
  c.IsChain (Pulls adj) ∧ ∃ x rest, c = x :: rest ++ [x] ∧ (x :: rest).Nodup

variable {adj : HardDepEdgeMap} {st st' mid : Search} {path : List String} {node next : String}

theorem eq_of_isRotated {l l' : List String} (rotated : l ~r l') (distinct : l.Nodup)
    (same : l'.head? = l.head?) : l' = l := by
  rcases rotated with ⟨n, rfl⟩
  by_cases nonempty : l.length = 0
  · rw [length_eq_zero_iff.mp nonempty, rotate_nil]
  have nonempty := Nat.pos_of_ne_zero nonempty
  have lt := Nat.mod_lt n nonempty
  rw [← l.rotate_mod, head?_rotate lt, head?_eq_getElem?, getElem?_eq_getElem lt,
    getElem?_eq_getElem nonempty, Option.some.injEq, distinct.getElem_inj_iff] at same
  rw [← l.rotate_mod, same, l.rotate_zero]

theorem head?_rotate_least {body : List String} (nonempty : body ≠ []) :
    ∃ least ∈ body, (∀ b ∈ body, least ≤ b) ∧
      (body.rotate (body.findIdx fun a => body.all (a ≤ ·))).head? = some least := by
  rcases body.toFinset.exists_min_image id ((toFinset_nonempty_iff _).mpr nonempty) with
    ⟨least, mem, each⟩
  have found : body.findIdx (fun a => body.all (a ≤ ·)) < body.length :=
    findIdx_lt_length_of_exists ⟨least, by simpa using mem, by simpa using each⟩
  refine ⟨_, getElem_mem found, ?_, ?_⟩
  · simpa using findIdx_getElem (w := found)
  · rw [head?_rotate found, getElem?_eq_getElem]

theorem canonicalCycleKey_congr {c c' : List String} (walk : ClosedWalk adj c)
    (walk' : ClosedWalk adj c')
    (rotated : c.dropLast ~r c'.dropLast) : canonicalCycleKey c = canonicalCycleKey c' := by
  rcases walk with ⟨-, x, rest, rfl, distinct⟩
  rcases walk' with ⟨-, x', rest', rfl, -⟩
  rw [dropLast_concat, dropLast_concat] at rotated
  rcases head?_rotate_least (cons_ne_nil x rest) with ⟨least, mem, each, head⟩
  rcases head?_rotate_least (cons_ne_nil x' rest') with ⟨least', mem', each', head'⟩
  have same : least' = least :=
    le_antisymm (each' _ (rotated.mem_iff.mp mem)) (each _ (rotated.mem_iff.mpr mem'))
  have turned := eq_of_isRotated (List.IsRotated.trans
    (List.IsRotated.symm ⟨_, rfl⟩) (rotated.trans ⟨_, rfl⟩)) ((nodup_rotate).mpr distinct)
    (head'.trans ((congrArg some same).trans head.symm))
  have long : ∀ x (rest : List String), ¬(x :: rest ++ [x]).length < 2 := by simp
  simp only [canonicalCycleKey, if_neg (long _ _), dropLast_concat, turned]

structure Search.Sound (adj : HardDepEdgeMap) (path : List String) (st : Search) : Prop where
  gray : ∀ x, st.color x = .gray ↔ x ∈ path
  chain : path.IsChain (Pulls adj)
  distinct : path.Nodup
  walks : ∀ c ∈ st.cycles, ClosedWalk adj c
  keys : (st.cycles.map canonicalCycleKey).Nodup
  black : st.cycles = [] → ∀ x, st.color x = .black → Acc (fun b a => Pulls adj a b) x

structure Search.Grows (st st' : Search) : Prop where
  color : ∀ x, st.color x ≠ .white → st'.color x = st.color x
  cycles : st'.cycles = [] → st.cycles = []

theorem Search.Grows.refl (st : Search) : st.Grows st := ⟨fun _ _ => rfl, fun none => none⟩

theorem Search.Grows.trans (first : st.Grows mid) (second : mid.Grows st') : st.Grows st' :=
  ⟨fun x colored => by
    have same := first.color x colored
    exact (second.color x (same ▸ colored)).trans same,
    fun none => first.cycles (second.cycles none)⟩

def Search.whites (names : Finset String) (st : Search) : Nat :=
  (names.filter (st.color · = .white)).card

theorem Search.Grows.whites_le (grows : st.Grows st') (names : Finset String) :
    st'.whites names ≤ st.whites names := by
  refine Finset.card_le_card fun x mem => ?_
  simp only [Finset.mem_filter] at mem ⊢
  refine ⟨mem.1, ?_⟩
  by_contra colored
  exact colored (grows.color x colored ▸ mem.2)

theorem closedWalk_of_mem (chain : path.IsChain (Pulls adj)) (distinct : path.Nodup)
    (mem : next ∈ path) (below : ∀ last ∈ path.getLast?, Pulls adj last next) :
    ClosedWalk adj (path.dropWhile (· ≠ next) ++ [next]) := by
  rcases append_of_mem mem with ⟨front, back, rfl⟩
  rw [getLast?_append_of_ne_nil _ (cons_ne_nil _ _)] at below
  have away : ∀ x ∈ front, decide (x ≠ next) = true := by
    intro x mem
    exact decide_eq_true fun same =>
      disjoint_of_nodup_append distinct mem (same ▸ mem_cons_self)
  rw [dropWhile_append_of_pos away, dropWhile_cons_of_neg (by simp)]
  refine ⟨isChain_append.mpr ⟨(isChain_append.mp chain).2.1, .singleton _, ?_⟩, next, back, rfl,
    (nodup_append.mp distinct).2.1⟩
  intro last mem y here
  rw [← Option.mem_some.mp here]
  exact below last mem

theorem Search.Sound.record (sound : st.Sound adj path) {c : List String}
    (walk : ClosedWalk adj c) :
    (st.record c).Sound adj path ∧ st.Grows (st.record c) ∧ (st.record c).cycles ≠ [] := by
  unfold Search.record
  split
  case isTrue known =>
    refine ⟨sound, .refl st, fun none => ?_⟩
    rw [none] at known
    cases known
  case isFalse new =>
    refine ⟨⟨sound.gray, sound.chain, sound.distinct, ?_, ?_, by simp⟩,
      ⟨fun _ _ => rfl, by simp⟩, by simp⟩
    · intro c' mem
      rcases mem_append.mp mem with old | this
      · exact sound.walks c' old
      · rw [mem_singleton.mp this]
        exact walk
    · rw [map_append, nodup_append_comm]
      exact nodup_cons.mpr ⟨new, sound.keys⟩

variable {names : Finset String} {fuel : Nat}

def Turns (adj : HardDepEdgeMap) (path : List String) (node : String) (st : Search)
    (result : Option Search) : Prop :=
  ∃ st', result = some st' ∧ st'.Sound adj path ∧ st.Grows st' ∧
    (st'.cycles = [] → st'.color node = .black)

theorem loop_turns {turn : Search → String → Option Search} {rest : List String}
    (turns : ∀ st, st.whites names < fuel → st.Sound adj path → ∀ node ∈ rest,
      Turns adj path node st (turn st node))
    (few : st.whites names < fuel) (sound : st.Sound adj path) :
    ∃ st', rest.foldlM turn st = some st' ∧ st'.Sound adj path ∧ st.Grows st' ∧
      (st'.cycles = [] → ∀ node ∈ rest, st'.color node = .black) := by
  induction rest generalizing st with
  | nil => exact ⟨st, rfl, sound, .refl st, by simp⟩
  | cons node rest ih =>
    rcases turns st few sound node mem_cons_self with ⟨mid, first, soundMid, grows, black⟩
    rcases ih (fun st few sound node mem => turns st few sound node (mem_cons_of_mem _ mem))
      (Nat.lt_of_le_of_lt (grows.whites_le names) few) soundMid with
        ⟨st', second, sound', grows', blacks⟩
    refine ⟨st', by rw [foldlM_cons, first]; exact second, sound', grows.trans grows', ?_⟩
    intro none other mem
    rcases mem_cons.mp mem with rfl | mem
    · have here := black (grows'.cycles none)
      exact (grows'.color other (by rw [here]; exact nofun)).trans here
    · exact blacks none other mem

theorem Search.Sound.enter (sound : st.Sound adj path) (white : st.color node = .white)
    (below : ∀ last ∈ path.getLast?, Pulls adj last node) :
    (st.paint node .gray).Sound adj (path ++ [node]) := by
  have new : node ∉ path := fun mem => by simp [(sound.gray node).mpr mem] at white
  refine ⟨fun x => ?_, isChain_append.mpr ⟨sound.chain, .singleton _, ?_⟩,
    nodup_append_comm.mpr (nodup_cons.mpr ⟨new, sound.distinct⟩), sound.walks, sound.keys, ?_⟩
  · by_cases this : x = node <;> simp [Search.paint_color, this, sound.gray]
  · intro last mem y here
    rw [← Option.mem_some.mp here]
    exact below last mem
  · intro none x black
    by_cases this : x = node
    · simp [Search.paint_color, this] at black
    · exact sound.black none x (by simpa [Search.paint_color, this] using black)

theorem Search.Sound.leave (sound : st.Sound adj (path ++ [node]))
    (blacks : st.cycles = [] → ∀ b ∈ adj.next node, st.color b = .black) :
    (st.paint node .black).Sound adj path := by
  have new : node ∉ path := fun mem =>
    disjoint_of_nodup_append sound.distinct mem (mem_singleton_self _)
  refine ⟨fun x => ?_, (isChain_append.mp sound.chain).1, (nodup_append.mp sound.distinct).1,
    sound.walks, sound.keys, fun none x black => ?_⟩
  · by_cases this : x = node <;> simp [Search.paint_color, this, new, sound.gray]
  · by_cases this : x = node
    · rw [this]
      exact ⟨_, fun b pulls => sound.black none b (blacks none b pulls)⟩
    · exact sound.black none x (by simpa [Search.paint_color, this] using black)

theorem dfs_turns (closed : ∀ a b, Pulls adj a b → b ∈ names) (few : st.whites names < fuel)
    (sound : st.Sound adj path) (named : node ∈ names) (white : st.color node = .white)
    (below : ∀ last ∈ path.getLast?, Pulls adj last node) :
    Turns adj path node st (dfs adj fuel path node st) := by
  induction fuel generalizing st path node with
  | zero => cases few
  | succ fuel ih =>
    have fewer : (st.paint node .gray).whites names < fuel := by
      refine Nat.lt_of_lt_of_le (Finset.card_lt_card ?_) (Nat.le_of_lt_succ few)
      rw [Finset.ssubset_iff_of_subset fun x mem => ?_]
      · exact ⟨node, by simp [named, white], by simp [Search.paint_color]⟩
      · by_cases this : x = node
        · simp [Search.paint_color, this] at mem
        · simpa [Search.paint_color, this] using mem
    have visits : ∀ st, st.whites names < fuel → st.Sound adj (path ++ [node]) →
        ∀ next ∈ adj.next node, Turns adj (path ++ [node]) next st
          (visit (path ++ [node]) (dfs adj fuel (path ++ [node])) st next) := by
      intro st few sound next pulls
      have below : ∀ last ∈ (path ++ [node]).getLast?, Pulls adj last next := by
        simpa [Pulls] using pulls
      unfold visit
      cases color : st.color next with
      | gray =>
        rcases sound.record (closedWalk_of_mem sound.chain sound.distinct
          ((sound.gray next).mp color) below) with ⟨sound', grows, some⟩
        exact ⟨_, rfl, sound', grows, fun none => absurd none some⟩
      | white => exact ih few sound (closed node next pulls) color below
      | black => exact ⟨st, rfl, sound, .refl st, fun _ => color⟩
    rcases loop_turns visits fewer (sound.enter white below) with ⟨st', done, sound', grows, blacks⟩
    refine ⟨st'.paint node .black, by rw [dfs, done]; rfl, sound'.leave blacks,
      ⟨fun x colored => ?_, grows.cycles⟩, fun _ => by simp [Search.paint_color]⟩
    have this : x ≠ node := fun same => colored (same ▸ white)
    have same := grows.color x (by simpa [Search.paint_color, this] using colored)
    simpa [Search.paint_color, this] using same

theorem mem_of_pulls (pulls : Pulls adj node next) : ∃ e ∈ adj, e.1 = node ∧ next ∈ e.2 := by
  unfold Pulls HardDepEdgeMap.next at pulls
  cases found : adj.lookup node with
  | none => simp [found] at pulls
  | some senders =>
    rw [found] at pulls
    rcases lookup_eq_some_iff.mp found with ⟨front, back, split, -⟩
    exact ⟨(node, senders), by simp [split], rfl, pulls⟩

theorem ClosedWalk.not_wellFounded {c : List String} (walk : ClosedWalk adj c) :
    ¬WellFounded fun b a => Pulls adj a b := by
  rcases walk with ⟨chain, x, rest, rfl, -⟩
  intro wellFounded
  have ordered := isChain_iff_pairwise.mp
    (chain.imp fun a b (pulls : Pulls adj a b) => Relation.TransGen.single pulls)
  have loop := (pairwise_cons.mp ordered).1 x (by simp)
  exact (WellFounded.transGen wellFounded).irrefl.irrefl x (Relation.transGen_swap.mp loop)

theorem findAllCycles_searches (adj : HardDepEdgeMap) : ∃ st : Search,
    findAllCycles adj = some st.cycles ∧ st.Sound adj [] ∧
      (st.cycles = [] ↔ WellFounded fun b a => Pulls adj a b) := by
  have closed : ∀ a b, Pulls adj a b → b ∈ adj.names.toFinset := by
    intro a b pulls
    rcases mem_of_pulls pulls with ⟨e, mem, -, listed⟩
    exact mem_toFinset.mpr (mem_flatMap.mpr ⟨e, mem, mem_cons_of_mem _ listed⟩)
  have turns : ∀ st : Search, st.whites adj.names.toFinset < adj.names.length + 1 →
      st.Sound adj [] → ∀ node ∈ (adj.map (·.1)).insertionSort (· ≤ ·), Turns adj [] node st
        (if st.color node = .white then dfs adj (adj.names.length + 1)
          [] node st else some st) := by
    intro st few sound node mem
    split
    case isTrue white =>
      rcases mem_map.mp ((mem_insertionSort _).mp mem) with ⟨e, listed, rfl⟩
      exact dfs_turns closed few sound (mem_toFinset.mpr
        (mem_flatMap.mpr ⟨e, listed, mem_cons_self⟩)) white (by simp)
    case isFalse colored =>
      refine ⟨st, rfl, sound, .refl st, fun _ => ?_⟩
      cases color : st.color node with
      | white => exact absurd color colored
      | gray => cases (sound.gray node).mp color
      | black => rfl
  have start : Search.Sound adj [] {} := ⟨by simp, .nil, .nil, by simp, .nil, by simp⟩
  have few : Search.whites adj.names.toFinset {} ≤ adj.names.length :=
    (Finset.card_filter_le _ _).trans (toFinset_card_le _)
  rcases loop_turns turns (Nat.lt_succ_of_le few) start with ⟨st, done, sound, -, blacks⟩
  refine ⟨st, congrArg (Option.map _) done, sound, fun none =>
    ⟨fun a => ⟨a, fun b pulls => ?_⟩⟩, ?_⟩
  · by_cases root : b ∈ adj.map (·.1)
    · exact sound.black none b (blacks none b ((mem_insertionSort _).mpr root))
    · refine ⟨b, fun c pulls => ?_⟩
      rcases mem_of_pulls pulls with ⟨e, mem, rfl, -⟩
      exact absurd (mem_map_of_mem mem) root
  · intro wellFounded
    by_contra some
    rcases exists_mem_of_ne_nil _ some with ⟨c, mem⟩
    exact (sound.walks c mem).not_wellFounded wellFounded

/--
The search for cycles of forced refreshes ends. It reports closed walks, none of them twice, and
none at all just if no refresh pulls itself; then, and only then, the edges are accepted.
-/
theorem findAllCycles_exact (adj : HardDepEdgeMap) : ∃ cycles, findAllCycles adj = some cycles ∧
    (cycles = [] ↔ WellFounded fun b a => Pulls adj a b) ∧
    (detectHardDepCycle adj = some (.ok ()) ↔ WellFounded fun b a => Pulls adj a b) ∧
    (∀ c ∈ cycles, ClosedWalk adj c) ∧
    cycles.Pairwise fun c c' => ¬c.dropLast ~r c'.dropLast := by
  rcases findAllCycles_searches adj with ⟨st, found, sound, acyclic⟩
  refine ⟨st.cycles, found, acyclic, ?_, sound.walks, ?_⟩
  · rw [← acyclic, detectHardDepCycle, found]
    rcases st.cycles with _ | ⟨c, _ | ⟨c', rest⟩⟩ <;> simp
  · refine List.Pairwise.imp_of_mem (fun mem mem' apart rotated => apart ?_)
      (pairwise_map.mp sound.keys)
    exact canonicalCycleKey_congr (sound.walks _ mem) (sound.walks _ mem') rotated

end Rimsky.HardDepCycles
