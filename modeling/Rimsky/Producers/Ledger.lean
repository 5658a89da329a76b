import Mathlib.Data.List.AList

/-!
# Shared parts of the claim producers

`protocols/action/action.go` and `services/claim_producers/shared/claimledger/claimledger.go`:
the actions of a pick policy, and the ledger in which a producer keeps the claims it was asked
about. The ledger lives in memory. A record made for a failed or late call of a claim the ledger
does not know has no selector.
-/

namespace Rimsky

inductive PickActionKind where
  | pop | popAndMove | popAndDelete | recycle
  deriving DecidableEq, Repr

structure PickAction where
  kind : PickActionKind
  moveTarget : String := ""
  deriving DecidableEq, Repr

inductive ClaimState where
  | «open» | committed | abandoned | released | unknown
  deriving DecidableEq, Repr

structure ClaimEvent where
  eventId : String
  timestamp : Int
  severity : String := "INFO"
  category : String
  attributes : List (String × String)

/-- `ClaimRecord`, which the ledger keeps under its claim id. -/
structure ClaimRecord where
  state : ClaimState
  address : List UInt8 := []
  scope : List UInt8 := []
  selector : String := ""
  openedAt : Int
  closedAt : Option Int := none
  history : List ClaimEvent := []
  seq : Int64

structure ClaimLedger where
  records : AList fun _ : String => ClaimRecord := ∅
  order : List String := []
  max : Int
  nextSeq : Int64 := 0

namespace ClaimLedger

def new (max : Int) : ClaimLedger where
  max := if max ≤ 0 then 1024 else max

def get? (l : ClaimLedger) (claimId : String) : Option ClaimRecord :=
  l.records.lookup claimId

/-- What a call reads: the clock, for a record that it makes and for its event, and `uuid.New`. -/
structure Reading where
  made : Int := 0
  now : Int := 0
  uuid : String := ""

inductive Call where
  | recordOpen (claimId selector : String) (address scope : List UInt8)
  | recordEvent (claimId category severity : String) (attributes : List (String × String))
  | recordTerminal (claimId category : String) (attributes : List (String × String))

/-- One pass of `evictIfNeeded` over the order. -/
def evict (l : ClaimLedger) : Option ClaimLedger := do
  let id ← l.order.find? fun id => (l.records.lookup id).all (·.state ≠ .open)
  some { l with records := l.records.erase id, order := l.order.erase id }

/-- `evictIfNeeded`; as many passes as the order is long suffice. -/
def evictIfNeeded : Nat → ClaimLedger → ClaimLedger
  | 0, l => l
  | n + 1, l => if l.max < l.records.keys.length then (evict l).elim l (evictIfNeeded n) else l

def newUnknownRecordLocked (l : ClaimLedger) (made : Int) (claimId : String) :
    ClaimLedger × ClaimRecord :=
  let nextSeq := l.nextSeq + 1
  let record := { state := .unknown, openedAt := made, seq := nextSeq }
  ({ l with nextSeq, records := l.records.insert claimId record, order := l.order ++ [claimId] },
    record)

def recordOf (l : ClaimLedger) (made : Int) (claimId : String) : ClaimLedger × ClaimRecord :=
  ((l.records.lookup claimId).map (l, ·)).getD (newUnknownRecordLocked l made claimId)

def record (l : ClaimLedger) (reading : Reading) : Call → ClaimLedger
  | .recordOpen claimId selector address scope =>
    let event := { eventId := reading.uuid, timestamp := reading.now, category := "claim_opened"
                   attributes := [("selector", selector)] }
    let nextSeq := l.nextSeq + 1
    let record := { state := .open, address, scope, selector, openedAt := reading.now
                    history := [event], seq := nextSeq }
    { l with
      nextSeq, records := l.records.insert claimId record
      order := if claimId ∈ l.records then l.order else l.order ++ [claimId] }
  | .recordEvent claimId category severity attributes =>
    let (l, record) := recordOf l reading.made claimId
    let event := { eventId := reading.uuid, timestamp := reading.now, category, attributes
                   severity := if severity = "" then "INFO" else severity }
    { l with
      records := l.records.insert claimId { record with history := record.history ++ [event] } }
  | .recordTerminal claimId category attributes =>
    let (l, record) := recordOf l reading.made claimId
    let event := { eventId := reading.uuid, timestamp := reading.now, category, attributes }
    { l with
      records := l.records.insert claimId { record with
        closedAt := some reading.now
        state := match category with
          | "claim_committed" => .committed
          | "claim_abandoned" => .abandoned
          | "claim_released" => .released
          | _ => record.state
        history := record.history ++ [event] } }

def call (l : ClaimLedger) (c : Reading × Call) : ClaimLedger :=
  let l := record l c.1 c.2
  evictIfNeeded l.order.length l

variable {l : ClaimLedger} {r : ClaimRecord} {id claimId : String} {reading : Reading}

theorem evictIfNeeded_keeps {I : ClaimLedger → Prop} (start : I l)
    (keeps : ∀ l id, I l → I { l with records := l.records.erase id, order := l.order.erase id })
    (n : Nat) : I (evictIfNeeded n l) := by
  induction n generalizing l with
  | zero => exact start
  | succ n ih =>
    unfold evictIfNeeded evict
    split
    · cases l.order.find? fun id => (l.records.lookup id).all (·.state ≠ .open) with
      | none => exact start
      | some id => exact ih (keeps l id start)
    · exact start

theorem mem_of_evictIfNeeded {n : Nat} : r ∈ (evictIfNeeded n l).get? id → r ∈ l.get? id := by
  refine evictIfNeeded_keeps (I := fun l' => r ∈ l'.get? id → r ∈ l.get? id) (fun old => old)
    (fun l' gone old found => old ?_) n
  have kept : r ∈ (l'.records.erase gone).lookup id := found
  by_cases same : id = gone
  · rw [same, AList.lookup_erase] at kept
    cases kept
  · rwa [AList.lookup_erase_ne same] at kept

theorem mem_of_insert {records : AList fun _ : String => ClaimRecord} {new : ClaimRecord}
    (found : r ∈ (records.insert claimId new).lookup id) :
    id = claimId ∧ r = new ∨ id ≠ claimId ∧ r ∈ records.lookup id := by
  by_cases same : id = claimId
  · rw [same, AList.lookup_insert] at found
    exact .inl ⟨same, (Option.some.inj found).symm⟩
  · rw [AList.lookup_insert_ne same] at found
    exact .inr ⟨same, found⟩

theorem mem_recordOpen {selector : String} {address scope : List UInt8}
    (found : r ∈ (l.call (reading, .recordOpen claimId selector address scope)).get? id) :
    id = claimId ∧ r.selector = selector ∨ r ∈ l.get? id := by
  rcases mem_of_insert (mem_of_evictIfNeeded found) with ⟨same, rfl⟩ | ⟨-, old⟩
  · exact .inl ⟨same, rfl⟩
  · exact .inr old

/-- A record that is changed or made after the claim was opened keeps its selector, or has none. -/
theorem mem_recordOf {made : Int} {new : ClaimRecord}
    (found : r ∈ ((recordOf l made claimId).1.records.insert claimId new).lookup id)
    (keeps : new.selector = (recordOf l made claimId).2.selector) :
    (∃ old ∈ l.get? id, old.selector = r.selector) ∨ l.get? claimId = none ∧ id = claimId := by
  have made := mem_of_insert found
  unfold recordOf at keeps made
  cases known : l.records.lookup claimId with
  | some old =>
    rw [known] at keeps made
    rcases made with ⟨rfl, rfl⟩ | ⟨-, there⟩
    · exact .inl ⟨old, known, keeps.symm⟩
    · exact .inl ⟨r, there, rfl⟩
  | none =>
    rw [known] at made
    rcases made with ⟨same, -⟩ | ⟨other, there⟩
    · exact .inr ⟨known, same⟩
    · rcases mem_of_insert there with ⟨same, -⟩ | ⟨-, old⟩
      · exact absurd same other
      · exact .inl ⟨r, old, rfl⟩

end ClaimLedger

end Rimsky
