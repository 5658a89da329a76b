import Std.Data.String.ToInt
import Rimsky.Lib.Pages
import Rimsky.Lib.Run
import Rimsky.Producers.Ledger

/-!
# Pages of the claim ledger

`services/claim_producers/shared/claimledger/claimledger.go`: the records with their sequence
numbers, the order in which `List` walks them, and its cursors, which are sequence numbers. A claim
that is opened again gets a new number and keeps its place in the order. A cursor then passes over
records behind the claim that have lower numbers, or leads back to ones before it that have higher
ones.
-/

namespace Rimsky

def ClaimState.text : ClaimState → String
  | .open => "OPEN"
  | .committed => "COMMITTED"
  | .abandoned => "ABANDONED"
  | .released => "RELEASED"
  | .unknown => "UNKNOWN"

namespace LedgerPages

open ClaimLedger List

/-- The ledger of `NewClaimLedger` after a sequence of calls. -/
def run (max : Int) (calls : List (Reading × Call)) : ClaimLedger :=
  calls.foldl call (new max)

/-- `strconv.FormatInt` and `strconv.ParseInt`, to the base ten. -/
structure Strconv where
  formatInt : Int64 → String
  parseInt : String → Option Int64
  parse_format : ∀ n, parseInt (formatInt n) = some n
  format_ne : ∀ n, formatInt n ≠ ""

def picks (stateFilter : String) (r : ClaimRecord) : Bool :=
  stateFilter = "" ∨ r.state.text = stateFilter

def seq (row : String × ClaimRecord) : Int64 :=
  row.2.seq

variable (conv : Strconv) (l : ClaimLedger) (stateFilter : String) (limit : Int)

/-- The records with the state asked for, each with its claim id, in order. -/
def rows : List (String × ClaimRecord) :=
  l.order.filterMap fun id => ((l.records.lookup id).filter (picks stateFilter)).map (id, ·)

def afterSeq (cursor : String) : Option Int64 :=
  if cursor = "" then some 0 else conv.parseInt cursor

def list (cursor : String) : List (String × ClaimRecord) × String :=
  let limit := if limit ≤ 0 then 50 else limit.toNat
  match afterSeq conv cursor with
  | none => ([], "")
  | some afterSeq =>
    let out := page seq (rows l stateFilter) limit afterSeq
    let lastSeq := lastKey seq out afterSeq
    (out, if limit ≤ out.length ∧ lastSeq ≠ afterSeq then conv.formatInt lastSeq else "")

/-- Follows the cursors until one is empty, for at most `fuel` pages. -/
def listAll : Nat → String → Option (List (String × ClaimRecord))
  | 0, _ => none
  | fuel + 1, cursor =>
    let (out, next) := list conv l stateFilter limit cursor
    if next = "" then some out else (listAll fuel next).map (out ++ ·)

/-- The pages end and have every record that matches the filter once. -/
def ListsOnce : Prop :=
  ∃ fuel out, listAll conv l stateFilter limit fuel "" = some out ∧ out.Nodup ∧
    ∀ row, row ∈ out ↔ row.2 ∈ l.records.lookup row.1 ∧ picks stateFilter row.2

variable {conv l stateFilter limit}

def Indexed (l : ClaimLedger) : Prop :=
  l.order.Perm l.records.keys

namespace Indexed

variable {claimId : String} {r : ClaimRecord}

theorem put (indexed : Indexed l) (claimId : String) (r : ClaimRecord) (nextSeq : Int64) :
    Indexed { l with
      nextSeq, records := l.records.insert claimId r
      order := if claimId ∈ l.records then l.order else l.order ++ [claimId] } := by
  unfold Indexed
  rw [AList.keys_insert]
  split
  case isTrue there => exact indexed.trans (perm_cons_erase there)
  case isFalse absent =>
    rw [erase_of_not_mem absent]
    exact (indexed.append_right _).trans (perm_append_singleton ..)

theorem change (indexed : Indexed l) (found : r ∈ l.records.lookup claimId) (new : ClaimRecord) :
    Indexed { l with records := l.records.insert claimId new } := by
  have put := indexed.put claimId new l.nextSeq
  rwa [if_pos (AList.lookup_isSome.mp (Option.isSome_of_mem found))] at put

theorem recordOf (indexed : Indexed l) (made : Int) (claimId : String) :
    Indexed (recordOf l made claimId).1 ∧
      (recordOf l made claimId).2 ∈ (recordOf l made claimId).1.records.lookup claimId := by
  unfold ClaimLedger.recordOf
  cases found : l.records.lookup claimId with
  | some r => exact ⟨indexed, found⟩
  | none =>
    have put := indexed.put claimId (newUnknownRecordLocked l made claimId).2 (l.nextSeq + 1)
    rw [if_neg (AList.lookup_eq_none.mp found)] at put
    exact ⟨put, AList.lookup_insert _⟩

theorem record (indexed : Indexed l) (reading : Reading) (c : Call) :
    Indexed (record l reading c) := by
  cases c with
  | recordOpen => exact indexed.put _ _ _
  | recordEvent claimId | recordTerminal claimId =>
    have ⟨made, found⟩ := indexed.recordOf reading.made claimId
    exact made.change found _

theorem erase (indexed : Indexed l) (id : String) :
    Indexed { l with records := l.records.erase id, order := l.order.erase id } := by
  unfold Indexed
  rw [AList.keys_erase]
  exact List.Perm.erase id indexed

theorem call (indexed : Indexed l) (c : Reading × Call) : Indexed (call l c) :=
  evictIfNeeded_keeps (indexed.record c.1 c.2) (fun _ id indexed => indexed.erase id) _

theorem run (max : Int) (calls : List (Reading × Call)) : Indexed (run max calls) := by
  unfold LedgerPages.run
  have start : Indexed (new max) := .refl []
  generalize new max = l at start
  induction calls generalizing l with
  | nil => exact start
  | cons c calls ih => exact ih _ (start.call c)

theorem nodup_rows (indexed : Indexed l) : (rows l stateFilter).Nodup := by
  refine (indexed.nodup_iff.mpr l.records.keys_nodup).filterMap fun id other row mem mem' => ?_
  rcases Option.map_eq_some_iff.mp mem with ⟨r, -, rfl⟩
  rcases Option.map_eq_some_iff.mp mem' with ⟨r', -, same⟩
  exact (congrArg Prod.fst same).symm

theorem mem_rows (indexed : Indexed l) (row : String × ClaimRecord) : row ∈ rows l stateFilter ↔
    row.2 ∈ l.records.lookup row.1 ∧ picks stateFilter row.2 := by
  rw [rows, mem_filterMap]
  constructor
  · rintro ⟨id, -, listed⟩
    rcases Option.map_eq_some_iff.mp listed with ⟨r, picked, rfl⟩
    exact Option.filter_eq_some_iff.mp picked
  · intro picked
    refine ⟨row.1, ?_, Option.map_eq_some_iff.mpr ⟨row.2, ?_, rfl⟩⟩
    · rw [indexed.mem_iff]
      exact AList.lookup_isSome.mp (Option.isSome_of_mem picked.1)
    · exact Option.filter_eq_some_iff.mpr picked

end Indexed

theorem afterSeq_formatInt (n : Int64) : afterSeq conv (conv.formatInt n) = some n := by
  rw [afterSeq, if_neg (conv.format_ne n), conv.parse_format]

theorem listAll_eq_pages (positive : 1 ≤ limit) {cursor : String} {c : Int64}
    (points : afterSeq conv cursor = some c) (fuel : Nat) :
    listAll conv l stateFilter limit fuel cursor =
      pages seq (rows l stateFilter) limit.toNat fuel c := by
  induction fuel generalizing cursor c with
  | zero => rfl
  | succ fuel ih =>
    have numbered : ¬limit ≤ 0 := by omega
    simp only [listAll, list, points, if_neg numbered, pages]
    by_cases full : limit.toNat ≤ (page seq (rows l stateFilter) limit.toNat c).length
    · have some : page seq (rows l stateFilter) limit.toNat c ≠ [] :=
        length_pos_iff.mp (by omega)
      have moved := (Std.ne_of_lt (lt_lastKey_page some)).symm
      simp [full, moved, conv.format_ne, ih (afterSeq_formatInt _)]
    · simp [full]

theorem Indexed.listsOnce_iff (indexed : Indexed l) (positive : 1 ≤ limit) :
    ListsOnce conv l stateFilter limit ↔
      ∀ {before after}, PageEnd (rows l stateFilter) limit.toNat before after →
        Separates seq (lastKey seq before 0) before after := by
  rw [← pages_once_iff (by omega) indexed.nodup_rows]
  simp only [ListsOnce, listAll_eq_pages positive (rfl : afterSeq conv "" = some 0),
    indexed.mem_rows]

theorem listsOnce_run_iff {max : Int} {calls : List (Reading × Call)} (positive : 1 ≤ limit) :
    ListsOnce conv (run max calls) stateFilter limit ↔
      ∀ {before after}, PageEnd (rows (run max calls) stateFilter) limit.toNat before after →
        Separates seq (lastKey seq before 0) before after :=
  (Indexed.run max calls).listsOnce_iff positive

def decimal : Strconv where
  formatInt n := n.toInt.repr
  parseInt s := s.toInt?.map Int64.ofInt
  parse_format n := by simp
  format_ne n := by
    rw [Int.repr_eq_if]
    split <;> simp

def opened (claimId : String) : Reading × Call :=
  ({}, .recordOpen claimId "" [] [])

theorem listsOnce_run_iff_twoClaims : (1 : Int) ≤ 1 ∧
    ListsOnce decimal (run 8 [opened "a", opened "b"]) "" 1 := by
  refine ⟨by decide, (listsOnce_run_iff (by decide)).mpr fun ended => ended.separates ?_⟩
  decide +kernel

def seqOf (records : AList fun _ : String => ClaimRecord) (id : String) : Option Int64 :=
  (records.lookup id).map (·.seq)

theorem seqs_rows (l : ClaimLedger) (stateFilter : String) :
    ((rows l stateFilter).map seq).Sublist (l.order.filterMap (seqOf l.records)) := by
  unfold rows
  induction l.order with
  | nil => exact .refl []
  | cons id order ih =>
    cases found : l.records.lookup id with
    | none => simpa [seqOf, found] using ih
    | some r =>
      by_cases picked : picks stateFilter r
      · simpa [seqOf, found, picked, seq] using ih
      · simpa [seqOf, found, picked] using ih.cons _

/-- The numbers increase along the order, up to the next one. -/
structure Increasing (l : ClaimLedger) : Prop where
  indexed : Indexed l
  seqs : (0 :: l.order.filterMap (seqOf l.records) ++ [l.nextSeq + 1]).Pairwise (· < ·)

/-- The call opens no claim that has a record, and the numbers do not wrap. -/
def OpensFirst (l : ClaimLedger) (c : Reading × Call) : Prop :=
  l.nextSeq + 1 < l.nextSeq + 1 + 1 ∧
    match c.2 with
    | .recordOpen claimId .. => claimId ∉ l.records
    | _ => True

namespace Increasing

variable {claimId : String} {r : ClaimRecord} (increasing : Increasing l)

include increasing

theorem put (absent : claimId ∉ l.records) (room : l.nextSeq + 1 < l.nextSeq + 1 + 1)
    (numbered : r.seq = l.nextSeq + 1) :
    Increasing { l with
      nextSeq := l.nextSeq + 1, records := l.records.insert claimId r
      order := if claimId ∈ l.records then l.order else l.order ++ [claimId] } := by
  have kept : ∀ id ∈ l.order, seqOf (l.records.insert claimId r) id = seqOf l.records id := by
    intro id mem
    rw [seqOf, AList.lookup_insert_ne, seqOf]
    rintro rfl
    exact absent (increasing.indexed.mem_iff.mp mem)
  have last : [claimId].filterMap (seqOf (l.records.insert claimId r)) = [l.nextSeq + 1] := by
    simp [seqOf, numbered]
  refine ⟨increasing.indexed.put claimId r _, ?_⟩
  simp only [if_neg absent, filterMap_append, filterMap_congr kept, last]
  rw [← cons_append]
  refine pairwise_append.mpr ⟨increasing.seqs, pairwise_singleton .., ?_⟩
  intro n mem next isNext
  rw [mem_singleton.mp isNext]
  rcases mem_append.mp mem with before | same
  · exact Int64.lt_trans ((pairwise_append.mp increasing.seqs).2.2 n before _ (by simp)) room
  · rwa [mem_singleton.mp same]

theorem change (found : r ∈ l.records.lookup claimId) {new : ClaimRecord}
    (numbered : new.seq = r.seq) :
    Increasing { l with records := l.records.insert claimId new } := by
  have kept : ∀ id ∈ l.order, seqOf (l.records.insert claimId new) id = seqOf l.records id := by
    intro id _
    by_cases same : id = claimId
    · rw [same, seqOf, seqOf, AList.lookup_insert, found]
      exact congrArg some numbered
    · rw [seqOf, AList.lookup_insert_ne same, seqOf]
  refine ⟨increasing.indexed.change found new, ?_⟩
  rw [filterMap_congr kept]
  exact increasing.seqs

theorem erase (id : String) :
    Increasing { l with records := l.records.erase id, order := l.order.erase id } := by
  have nodup := increasing.indexed.nodup_iff.mpr l.records.keys_nodup
  have kept : ∀ other ∈ l.order.erase id,
      seqOf (l.records.erase id) other = seqOf l.records other := by
    intro other mem
    rw [seqOf, AList.lookup_erase_ne (nodup.mem_erase_iff.mp mem).1, seqOf]
  refine ⟨increasing.indexed.erase id, increasing.seqs.sublist ?_⟩
  rw [filterMap_congr kept]
  exact ((erase_sublist.filterMap _).cons_cons _).append_right _

theorem call {c : Reading × Call} (first : OpensFirst l c) : Increasing (call l c) := by
  refine evictIfNeeded_keeps ?_ (fun _ id increasing => increasing.erase id) _
  have made : ∀ at' claimId, Increasing (recordOf l at' claimId).1 := by
    intro at' claimId
    unfold recordOf
    cases found : l.records.lookup claimId with
    | some r => exact increasing
    | none =>
      have put := increasing.put (AList.lookup_eq_none.mp found) first.1
        (rfl : (newUnknownRecordLocked l at' claimId).2.seq = _)
      rwa [if_neg (AList.lookup_eq_none.mp found)] at put
  rcases c with ⟨reading, _ | ⟨claimId⟩ | ⟨claimId⟩⟩
  · exact increasing.put first.2 first.1 rfl
  all_goals
    have found := (increasing.indexed.recordOf reading.made claimId).2
    exact (made reading.made claimId).change found rfl

end Increasing

/-- The listing is exact if no claim that has a record is opened again. -/
theorem listsOnce_of_opensFirst {max : Int} (positive : 1 ≤ limit)
    (run : Reaches (fun l c => some (call l c)) OpensFirst (new max) l) :
    ListsOnce conv l stateFilter limit := by
  have kept : Increasing l := by
    refine run.invariant ?_ ⟨.refl [], (by decide : [(0 : Int64), 1].Pairwise (· < ·))⟩
    rintro l c _ increasing first ⟨⟩
    exact increasing.call first
  refine (kept.indexed.listsOnce_iff positive).mpr fun ended => ended.separates ?_
  exact kept.seqs.sublist
    (((seqs_rows l stateFilter).cons_cons _).trans (sublist_append_left ..))

def openedAgain : ClaimLedger :=
  run 8 [opened "a", opened "b", opened "a"]

/-- The claim opened again is listed first, with the number 3, and the other, with 2, is not. -/
theorem openedAgain_skips : ¬ListsOnce decimal openedAgain "" 1 := by
  have ended : PageEnd (rows openedAgain "") 1 ((rows openedAgain "").take 1)
      ((rows openedAgain "").drop 1) := ⟨take_append_drop .., by decide +kernel⟩
  intro listed
  have separates := ((Indexed.run ..).listsOnce_iff (by decide)).mp listed ended
  exact absurd separates.above (by decide +kernel)

end LedgerPages

end Rimsky
