import Rimsky.Lib.Program
import Rimsky.Producers.Ledger
import Rimsky.Foundation.Spec

/-!
# The Postgres claim producer

`services/claim_producers/postgres/store`: staged writes to schemas and pick policies over items
tables. Each statement or transaction of the database is one operation, as is each call of the
ledger; the calls of the producer are programs over them. An operation of the database may fail,
and one that changes something may do so although its answer is lost.

Schemas are named contents, of any type. The hash in the names of staging schemas is a parameter.
-/

namespace Rimsky.Postgres

/-! ## Configuration -/

inductive WriteSemantics where
  | sync | stagedAsync | blockingAsync | readOnly
  deriving DecidableEq, Repr

structure PickPolicy where
  itemsTable : String
  onCommit : PickAction
  onGiveUp : PickAction
  visibilityTimeout : Nat
  deriving DecidableEq, Repr

/-- `ItemsTableIdentRegex` matches. -/
def validIdent (name : String) : Bool :=
  match name.toList with
  | [] => false
  | c :: rest => (c.isLower || c = '_') && rest.all fun c => c.isLower || c.isDigit || c = '_'

def validPickAction (kind : PickActionKind) : Bool := kind = .pop || kind = .recycle

def validatePickPolicy (pp : PickPolicy) : Bool :=
  validIdent pp.itemsTable && validPickAction pp.onCommit.kind && pp.onCommit.moveTarget = "" &&
    validPickAction pp.onGiveUp.kind && pp.onGiveUp.moveTarget = "" && 0 < pp.visibilityTimeout

/-- The fixed fields of `Store`, as `New` accepts them. -/
structure Config where
  writeSemantics : WriteSemantics := .stagedAsync
  /-- By selector. -/
  pickPolicies : List (String × PickPolicy) := []
  distinct : (pickPolicies.map (·.1)).Nodup := by decide
  valid : pickPolicies.all (fun entry => validatePickPolicy entry.2) = true := by decide
  /-- The hash of a claim id in the name of its staging schema. -/
  hash : String → String
  /-- `json.Valid`. -/
  validJson : String → Bool := fun _ => true
  ledgerMaxRecords : Nat := 1024

def Config.pickPolicy? (cfg : Config) (selector : String) : Option PickPolicy :=
  (cfg.pickPolicies.find? (·.1 = selector)).map (·.2)

def stagingSchemaPrefix : List Char := "rimsky_stg_".toList

def Config.stagingSchemaName (cfg : Config) (claimId : String) : String :=
  "rimsky_stg_" ++ cfg.hash claimId

def carriesStagingPrefix (name : String) : Bool := decide (stagingSchemaPrefix <+: name.toList)

/-- `stagingOrphanHorizon`, in milliseconds. -/
def stagingOrphanHorizon : Nat := 24 * 60 * 60 * 1000

/-! ## State -/

inductive ItemState where
  | available | inProgress
  deriving DecidableEq, Repr

structure Item where
  itemId : String
  /-- The raw JSON. -/
  payload : String
  state : ItemState := .available
  claimToken : Option String := none
  claimedAt : Option Nat := none
  priority : Int := 0
  sequence : Nat
  deriving DecidableEq, Repr

structure ItemsTable where
  rows : List Item := []
  /-- The next value of the sequence of the column. -/
  nextSequence : Nat := 0
  deriving DecidableEq, Repr

structure Reservation where
  schemaName : String
  claimId : String
  reservedAt : Nat
  deriving DecidableEq, Repr

structure State (γ : Type) where
  schemas : String → Option γ := fun _ => none
  /-- An object outside the schema that depends on one inside. -/
  dependents : String → Option (String × String) := fun _ => none
  reservations : List Reservation := []
  tables : String → ItemsTable := fun _ => {}
  ledger : ClaimLedger
  now : Nat := 0

variable {γ : Type}

def State.putSchema (s : State γ) (name : String) (contents : Option γ) : State γ :=
  { s with schemas := fun n => if n = name then contents else s.schemas n }

def State.putTable (s : State γ) (name : String) (table : ItemsTable) : State γ :=
  { s with tables := fun n => if n = name then table else s.tables n }

def Item.recycled (row : Item) (sequence : Nat) : Item :=
  { row with state := .available, claimToken := none, claimedAt := none, sequence := sequence }

/-- The rows to be recycled are put behind all others, one after the other. -/
def recycleRows (these : Item → Bool) : Nat → List Item → List Item
  | _, [] => []
  | next, row :: rows =>
    if these row then row.recycled next :: recycleRows these (next + 1) rows
    else row :: recycleRows these next rows

def ItemsTable.recycle (these : Item → Bool) (table : ItemsTable) : ItemsTable where
  rows := recycleRows these table.nextSequence table.rows
  nextSequence := table.nextSequence + (table.rows.filter these).length

def ItemsTable.pop (these : Item → Bool) (table : ItemsTable) : ItemsTable :=
  { table with rows := table.rows.filter fun row => !these row }

def Item.holdsToken (claimId : String) (row : Item) : Bool := row.claimToken = some claimId

/-- The transaction of an action; it is only begun for the two the producer supports. -/
def ItemsTable.act (kind : PickActionKind) (claimId : String) (table : ItemsTable) : ItemsTable :=
  match kind with
  | .pop => table.pop (·.holdsToken claimId)
  | .recycle => table.recycle (·.holdsToken claimId)
  | _ => table

/-- `ORDER BY priority DESC, sequence ASC LIMIT 1` over the available rows. -/
def ItemsTable.first? (table : ItemsTable) : Option Item :=
  (table.rows.filter (·.state = .available)).foldl
    (fun best row => match best with
      | none => some row
      | some b =>
        if b.priority < row.priority || (b.priority = row.priority && row.sequence < b.sequence)
        then some row else some b) none

/-- The update of `openPickPolicy`. -/
def ItemsTable.lease (table : ItemsTable) (itemId claimId : String) (now : Nat) : ItemsTable :=
  { table with rows := table.rows.map fun row =>
      if row.itemId = itemId then
        { row with state := .inProgress, claimToken := some claimId, claimedAt := some now }
      else row }

/-! ## Operations -/

inductive DbError where
  | unavailable
  deriving DecidableEq, Repr

/-- What the environment does to an operation of the database. -/
inductive Fault where
  | none
  /-- It fails and changes nothing. -/
  | fails
  /-- It is done, but its answer is lost. -/
  | lost
  deriving DecidableEq, Repr

instance : Inhabited Fault := ⟨.none⟩

/-- How the transaction of `commitStagingSwap` can end without an error. -/
inductive SwapOutcome where
  /-- The staging schema has taken the place of the canonical one. -/
  | swapped
  /-- The staging schema is gone and the canonical one is there. -/
  | taken
  deriving DecidableEq, Repr

inductive SwapError where
  | db
  | indeterminate (staging canonical : String)
  | externalDependent (canonical depSchema depObject : String)
  deriving DecidableEq, Repr

inductive Op (γ : Type) where
  | externalDependent (schema : String)
  | createSchema (name : String)
  | recordStagingReservation (staging claimId : String)
  | clearStagingReservation (staging : String)
  | swap (canonical staging : String)
  | dropSchema (name : String)
  | takeExpiredReservations
  /-- A node writes to a schema it was given. -/
  | writeSchema (name : String) (contents : γ)
  | leaseFirst (table claimId : String)
  | hasToken (table claimId : String)
  | act (table : String) (kind : PickActionKind) (claimId : String)
  | recycleExpired (table : String) (visibilityTimeout : Nat)
  | insertItems (table : String) (items : List (String × String))
  | ledgerGet (claimId : String)
  | record (call : ClaimLedger.Call)
  /-- An object outside a schema comes to depend on it, or no longer does. -/
  | setDependent (schema : String) (dependent : Option (String × String))
  | tick (milliseconds : Nat)
  /-- The producer is started anew. -/
  | restart

/-- The address and the scope of the record, which only observers see, are left out. -/
abbrev Op.recordOpen (claimId selector : String) : Op γ :=
  .record (.recordOpen claimId selector [] [])

abbrev Op.Answer : Op γ → Type
  | .externalDependent _ => Except DbError (Option (String × String))
  | .swap _ _ => Except SwapError SwapOutcome
  | .takeExpiredReservations => Except DbError (List String)
  | .leaseFirst _ _ => Except DbError (Option Item)
  | .hasToken _ _ => Except DbError Bool
  | .ledgerGet _ => Option ClaimRecord
  | .record _ | .setDependent _ _ | .tick _ | .restart | .writeSchema _ _ => Unit
  | _ => Except DbError Unit

/-- A change under a fault: one that fails leaves the state, one whose answer is lost does not. -/
def change (fault : Fault) (s : State γ) (changed : State γ) : Except DbError Unit × State γ :=
  match fault with
  | .none => (.ok (), changed)
  | .fails => (.error .unavailable, s)
  | .lost => (.error .unavailable, changed)

theorem change_cases (fault : Fault) (s changed : State γ) :
    (change fault s changed).2 = s ∧ (change fault s changed).1 ≠ .ok () ∨
      (change fault s changed).2 = changed := by
  cases fault with
  | none => exact .inr rfl
  | fails => exact .inl ⟨rfl, by simp [change]⟩
  | lost => exact .inr rfl

def query {α : Type} (fault : Fault) (s : State γ) (answer : α) : Except DbError α × State γ :=
  match fault with
  | .none => (.ok answer, s)
  | _ => (.error .unavailable, s)

/-- The transaction of `commitStagingSwap`, as one step. -/
def State.swap (fault : Fault) (canonical staging : String) (s : State γ) :
    Except SwapError SwapOutcome × State γ :=
  if fault = .fails then (.error .db, s)
  else match s.schemas staging, s.schemas canonical with
  | none, some _ => (.ok .taken, s)
  | none, none => (.error (.indeterminate staging canonical), s)
  | some contents, _ =>
    match s.dependents canonical with
    | some (depSchema, depObject) => (.error (.externalDependent canonical depSchema depObject), s)
    | none =>
      let swapped := (s.putSchema staging none).putSchema canonical (some contents)
      (if fault = .lost then .error .db else .ok .swapped, swapped)

/-- The transaction of `openPickPolicy`, as one step. -/
def State.leaseFirst (fault : Fault) (table claimId : String) (s : State γ) :
    Except DbError (Option Item) × State γ :=
  match (s.tables table).first? with
  | none => query fault s none
  | some item =>
    let leased := s.putTable table ((s.tables table).lease item.itemId claimId s.now)
    match fault with
    | .none => (.ok (some item), leased)
    | .fails => (.error .unavailable, s)
    | .lost => (.error .unavailable, leased)

/-- The row is in progress since before the time allowed. -/
def Item.expired (now visibilityTimeout : Nat) (row : Item) : Bool :=
  row.state = .inProgress && row.claimedAt.any fun claimedAt => claimedAt + visibilityTimeout < now

def Reservation.expired (now : Nat) (r : Reservation) : Bool :=
  r.reservedAt + stagingOrphanHorizon < now

def newItem (sequence : Nat) (item : String × String) : Item where
  itemId := item.1
  payload := item.2
  sequence

def ItemsTable.insert (items : List (String × String)) (table : ItemsTable) : ItemsTable where
  rows := table.rows ++ (items.zipIdx table.nextSequence).map fun entry => newItem entry.2 entry.1
  nextSequence := table.nextSequence + items.length

variable [Inhabited γ]

/-- What an operation answers and does; a new schema has the default contents. -/
def execute (ledgerMaxRecords : Nat) : (op : Op γ) → Fault → State γ → op.Answer × State γ
  | .externalDependent schema, fault, s => query fault s (s.dependents schema)
  | .createSchema name, fault, s =>
    change fault s (if (s.schemas name).isSome then s else s.putSchema name (some default))
  | .recordStagingReservation staging claimId, fault, s =>
    let others := s.reservations.filter fun r => r.schemaName ≠ staging
    change fault s { s with reservations := others ++ [⟨staging, claimId, s.now⟩] }
  | .clearStagingReservation staging, fault, s =>
    let others := s.reservations.filter fun r => r.schemaName ≠ staging
    change fault s { s with reservations := others }
  | .swap canonical staging, fault, s => s.swap fault canonical staging
  | .dropSchema name, fault, s => change fault s (s.putSchema name none)
  | .takeExpiredReservations, fault, s =>
    let taken := { s with reservations := s.reservations.filter fun r => !r.expired s.now }
    match fault with
    | .none => (.ok ((s.reservations.filter (·.expired s.now)).map (·.schemaName)), taken)
    | .fails => (.error .unavailable, s)
    | .lost => (.error .unavailable, taken)
  | .writeSchema name contents, _, s =>
    ((), if (s.schemas name).isSome then s.putSchema name (some contents) else s)
  | .leaseFirst table claimId, fault, s => s.leaseFirst fault table claimId
  | .hasToken table claimId, fault, s =>
    query fault s ((s.tables table).rows.any (·.holdsToken claimId))
  | .act table kind claimId, fault, s =>
    change fault s (s.putTable table ((s.tables table).act kind claimId))
  | .recycleExpired table timeout, fault, s =>
    change fault s (s.putTable table ((s.tables table).recycle (·.expired s.now timeout)))
  | .insertItems table items, fault, s =>
    change fault s (s.putTable table ((s.tables table).insert items))
  | .ledgerGet claimId, _, s => (s.ledger.get? claimId, s)
  | .record call, _, s =>
    ((), { s with ledger := s.ledger.call ({ made := s.now, now := s.now }, call) })
  | .setDependent schema dependent, _, s =>
    ((), { s with dependents := fun n => if n = schema then dependent else s.dependents n })
  | .tick milliseconds, _, s => ((), { s with now := s.now + milliseconds })
  | .restart, _, s => ((), { s with ledger := .new ledgerMaxRecords })

/-! ## Programs -/

inductive StoreError where
  | notIdentifier (selector : String)
  | reservedPrefix (selector : String)
  | notReplaceable (selector depSchema depObject : String)
  | notStagingSchema (name : String)
  | undecodable
  | swap (error : SwapError)
  | invalidAction (kind : PickActionKind)
  | noPickPolicy (selector : String)
  | invalidPayload
  | db
  deriving DecidableEq, Repr

inductive Answer where
  | opened (address claimScope : String)
  | unavailable
  | done
  deriving DecidableEq, Repr

abbrev Prog (γ α : Type) := Program (Op γ) Op.Answer α

abbrev perform (op : Op γ) : Prog γ op.Answer := Program.perform op

variable (cfg : Config)

/-- `openPickPolicy`: the address and the scope are the item's id. -/
def openPickPolicy (claimId : String) (pp : PickPolicy) : Prog γ (Except StoreError Answer) := do
  match ← perform (.leaseFirst pp.itemsTable claimId) with
  | .error _ => return .error .db
  | .ok none => return .ok .unavailable
  | .ok (some item) => return .ok (.opened item.itemId item.itemId)

/-- `openStaging`: the address of the claim is its staging schema, its scope the canonical one. -/
def openStaging (claimId selector : String) : Prog γ (Except StoreError Answer) := do
  if !validIdent selector then return .error (.notIdentifier selector)
  if carriesStagingPrefix selector then return .error (.reservedPrefix selector)
  match ← perform (.externalDependent selector) with
  | .error _ => return .error .db
  | .ok (some (depSchema, depObject)) =>
    return .error (.notReplaceable selector depSchema depObject)
  | .ok none =>
    let staging := cfg.stagingSchemaName claimId
    match ← perform (.createSchema staging) with
    | .error _ => return .error .db
    | .ok () =>
      match ← perform (.recordStagingReservation staging claimId) with
      | .error _ => return .error .db
      | .ok () => return .ok (.opened staging selector)

def openClaim (claimId selector : String) (intent : Intent) :
    Prog γ (Except StoreError Answer) := do
  match cfg.pickPolicy? selector with
  | some pp =>
    match ← openPickPolicy claimId pp with
    | .ok (.opened address claimScope) =>
      perform (.recordOpen claimId selector)
      return .ok (.opened address claimScope)
    | out => return out
  | none =>
    if cfg.writeSemantics = .stagedAsync ∧ intent ≠ .r then
      if !validIdent selector then return .error (.notIdentifier selector)
      match ← openStaging cfg claimId selector with
      | .ok out =>
        perform (.recordOpen claimId selector)
        return .ok out
      | .error e => return .error e
    else
      perform (.recordOpen claimId selector)
      return .ok (.opened selector selector)

/-- What the caller sends as a scope or an address. -/
inductive RawName where
  /-- Not a JSON string. -/
  | other
  /-- It begins like a JSON string and does not decode. -/
  | broken
  | name (text : String)
  deriving DecidableEq, Repr

/-- `stagedSwapTarget`: the canonical schema and the staging schema of a staged write. -/
def stagedSwapTarget (claimScope address : RawName) :
    Except StoreError (Option (String × String)) :=
  if cfg.writeSemantics ≠ .stagedAsync then .ok none
  else match claimScope, address with
  | .other, _ => .ok none
  | _, .other => .ok none
  | .broken, _ => .error .undecodable
  | _, .broken => .error .undecodable
  | .name canonical, .name staging =>
    if canonical = "" ∨ staging = "" ∨ canonical = staging then .ok none
    else if (cfg.pickPolicy? canonical).isSome then .ok none
    else if !validIdent canonical then .ok none
    else .ok (some (canonical, staging))

def requireStagingSchemaIdent (staging : String) : Bool :=
  validIdent staging && carriesStagingPrefix staging

def commitStagingSwap (canonical staging : String) : Prog γ (Except StoreError Unit) := do
  if !validIdent canonical then return .error (.notIdentifier canonical)
  if carriesStagingPrefix canonical then return .error (.reservedPrefix canonical)
  if !requireStagingSchemaIdent staging then return .error (.notStagingSchema staging)
  match ← perform (.swap canonical staging) with
  | .error e => return .error (.swap e)
  | .ok .taken => return .ok ()
  | .ok .swapped =>
    let _ ← perform (.clearStagingReservation staging)
    return .ok ()

def dropStaging (staging : String) : Prog γ (Except StoreError Unit) := do
  if !requireStagingSchemaIdent staging then return .error (.notStagingSchema staging)
  match ← perform (.dropSchema staging) with
  | .error _ => return .error .db
  | .ok () =>
    let _ ← perform (.clearStagingReservation staging)
    return .ok ()

def findPolicyForClaim (claimId : String) :
    List (String × PickPolicy) → Prog γ (Except StoreError (Option PickPolicy))
  | [] => return .ok none
  | (_, pp) :: rest => do
    match ← perform (.hasToken pp.itemsTable claimId) with
    | .error _ => return .error .db
    | .ok true => return .ok (some pp)
    | .ok false => findPolicyForClaim claimId rest

def locatePickPolicyForClaim (order : List (String × PickPolicy)) (claimId : String) :
    Prog γ (Except StoreError (Option PickPolicy)) := do
  match ← perform (.ledgerGet claimId) with
  | some rec => return .ok (cfg.pickPolicy? rec.selector)
  | none => findPolicyForClaim claimId order

def PickPolicy.action (pp : PickPolicy) (successPath : Bool) : PickAction :=
  if successPath then pp.onCommit else pp.onGiveUp

/-- `applyPickAction`; the transaction of the action is one operation. -/
def applyPickAction (order : List (String × PickPolicy)) (claimId : String) (successPath : Bool) :
    Prog γ (Except StoreError Unit) := do
  if claimId = "" then return .ok ()
  match ← locatePickPolicyForClaim cfg order claimId with
  | .error e => return .error e
  | .ok none => return .ok ()
  | .ok (some pp) =>
    let kind := (pp.action successPath).kind
    if !validPickAction kind then return .error (.invalidAction kind)
    match ← perform (.act pp.itemsTable kind claimId) with
    | .error _ => return .error .db
    | .ok () => return .ok ()

/-- The record a verb leaves in the ledger, and its answer. -/
def recorded (claimId verb done : String) (outcome : Except StoreError Unit) :
    Prog γ (Except StoreError Answer) := do
  match outcome with
  | .error e =>
    perform (.record (.recordEvent claimId ("claim_" ++ verb ++ "_failed") "ERROR" []))
    return .error e
  | .ok () =>
    perform (.record (.recordTerminal claimId ("claim_" ++ done) []))
    return .ok .done

/-- What a verb does: `staged` to the schemas of a staged write, and `inPlace` to any other. -/
def settling (claimScope address : RawName)
    (staged : String → String → Prog γ (Except StoreError Unit))
    (inPlace : Prog γ (Except StoreError Unit)) : Prog γ (Except StoreError Unit) :=
  match stagedSwapTarget cfg claimScope address with
  | .error e => return .error e
  | .ok (some (canonical, staging)) => staged canonical staging
  | .ok none => inPlace

def commit (order : List (String × PickPolicy)) (claimId : String) (claimScope address : RawName) :
    Prog γ (Except StoreError Answer) := do
  recorded claimId "commit" "committed" (← settling cfg claimScope address commitStagingSwap
    (applyPickAction cfg order claimId true))

def abandon (order : List (String × PickPolicy)) (claimId : String) (claimScope address : RawName) :
    Prog γ (Except StoreError Answer) := do
  recorded claimId "abandon" "abandoned" (← settling cfg claimScope address
    (fun _ staging => dropStaging staging) (applyPickAction cfg order claimId false))

/-- `Release`: nothing is done to an item. -/
def release (claimId : String) (claimScope address : RawName) :
    Prog γ (Except StoreError Answer) := do
  recorded claimId "release" "released" (← settling cfg claimScope address
    (fun _ staging => dropStaging staging) (return .ok ()))

/-- The loop of `sweepOnce` over the policies. -/
def sweepPolicies : List (String × PickPolicy) → Prog γ Unit
  | [] => return
  | (_, pp) :: rest => do
    if pp.visibilityTimeout ≤ 0 then sweepPolicies rest
    else
      let _ ← perform (.recycleExpired pp.itemsTable pp.visibilityTimeout)
      sweepPolicies rest

/-- The loop of `sweepStagingOrphans` over the names it has taken. -/
def dropOrphans : List String → Prog γ Unit
  | [] => return
  | name :: rest => do
    if requireStagingSchemaIdent name then
      let _ ← perform (.dropSchema name)
      dropOrphans rest
    else dropOrphans rest

def sweepStagingOrphans : Prog γ Unit := do
  match ← perform .takeExpiredReservations with
  | .error _ => return
  | .ok orphaned => dropOrphans orphaned

def sweepOnce (order : List (String × PickPolicy)) : Prog γ (Except StoreError Answer) := do
  sweepPolicies order
  sweepStagingOrphans
  return .ok .done

def insertItems (selector : String) (items : List (String × String)) :
    Prog γ (Except StoreError Answer) := do
  match cfg.pickPolicy? selector with
  | none => return .error (.noPickPolicy selector)
  | some pp =>
    if items.any fun item => item.2.isEmpty || !cfg.validJson item.2 then
      return .error .invalidPayload
    match ← perform (.insertItems pp.itemsTable items) with
    | .error _ => return .error .db
    | .ok () => return .ok .done

inductive Call (γ : Type) where
  | «open» (claimId selector : String) (intent : Intent)
  | commit (order : List (String × PickPolicy)) (claimId : String) (claimScope address : RawName)
  | abandon (order : List (String × PickPolicy)) (claimId : String) (claimScope address : RawName)
  | release (claimId : String) (claimScope address : RawName)
  | sweep (order : List (String × PickPolicy))
  | insertItems (selector : String) (items : List (String × String))
  | write (schema : String) (contents : γ)
  | setDependent (schema : String) (dependent : Option (String × String))
  | tick (milliseconds : Nat)
  | restart

def program : Call γ → Prog γ (Except StoreError Answer)
  | .open claimId selector intent => openClaim cfg claimId selector intent
  | .commit order claimId claimScope address => commit cfg order claimId claimScope address
  | .abandon order claimId claimScope address => abandon cfg order claimId claimScope address
  | .release claimId claimScope address => release cfg claimId claimScope address
  | .sweep order => sweepOnce order
  | .insertItems selector items => insertItems cfg selector items
  | .write schema contents => do
    perform (.writeSchema schema contents)
    return .ok .done
  | .setDependent schema dependent => do
    perform (.setDependent schema dependent)
    return .ok .done
  | .tick milliseconds => do
    perform (.tick milliseconds)
    return .ok .done
  | .restart => do
    perform .restart
    return .ok .done

@[reducible] def system (γ : Type) [Inhabited γ] (cfg : Config) : CallSystem where
  Op := Op γ
  Ans := Op.Answer
  State := State γ
  Call := Call γ
  Result := Except StoreError Answer
  Choice := Fault
  execute := execute cfg.ledgerMaxRecords
  program := program cfg

/-! ## What the programs may do -/

section Only

variable {cfg : Config} {γ : Type}

/-- The operation swaps nothing, leases nothing and does not touch the ledger. -/
def Op.Quiet : Op γ → Prop
  | .swap _ _ | .leaseFirst _ _ | .record _ | .restart => False
  | _ => True

theorem commitStagingSwap_only (canonical staging : String) :
    (commitStagingSwap canonical staging : Prog γ _).Only fun op =>
      op = .swap canonical staging ∧ carriesStagingPrefix canonical = false ∨ op.Quiet := by
  unfold commitStagingSwap
  split
  · trivial
  split
  · trivial
  rename_i free
  split
  · trivial
  refine ⟨.inl ⟨rfl, by simpa using free⟩, fun answer => ?_⟩
  match answer with
  | .error e => trivial
  | .ok .taken => trivial
  | .ok .swapped => exact ⟨.inr trivial, fun _ => trivial⟩

theorem dropStaging_quiet (staging : String) :
    (dropStaging staging : Prog γ _).Only Op.Quiet := by
  unfold dropStaging
  split
  · trivial
  refine ⟨trivial, fun answer => ?_⟩
  match answer with
  | .error e => trivial
  | .ok () => exact ⟨trivial, fun _ => trivial⟩

theorem openStaging_quiet (claimId selector : String) :
    (openStaging cfg claimId selector : Prog γ _).Only Op.Quiet := by
  unfold openStaging
  split
  · trivial
  split
  · trivial
  refine ⟨trivial, fun dependent => ?_⟩
  match dependent with
  | .error e => trivial
  | .ok (some (depSchema, depObject)) => trivial
  | .ok none =>
    refine ⟨trivial, fun created => ?_⟩
    match created with
    | .error e => trivial
    | .ok () =>
      refine ⟨trivial, fun reserved => ?_⟩
      match reserved with
      | .error e => trivial
      | .ok () => trivial

theorem sweepPolicies_quiet (order : List (String × PickPolicy)) :
    (sweepPolicies order : Prog γ _).Only Op.Quiet := by
  induction order with
  | nil => trivial
  | cons entry rest ih =>
    unfold sweepPolicies
    split
    · exact ih
    · exact ⟨trivial, fun _ => ih⟩

theorem dropOrphans_quiet (names : List String) :
    (dropOrphans names : Prog γ _).Only Op.Quiet := by
  induction names with
  | nil => trivial
  | cons name rest ih =>
    unfold dropOrphans
    split
    · exact ⟨trivial, fun _ => ih⟩
    · exact ih

theorem sweepOnce_quiet (order : List (String × PickPolicy)) :
    (sweepOnce order : Prog γ _).Only Op.Quiet := by
  refine (sweepPolicies_quiet order).bind fun _ => ?_
  refine Program.Only.bind ⟨trivial, fun taken => ?_⟩ fun _ => trivial
  match taken with
  | .error e => trivial
  | .ok orphaned => exact dropOrphans_quiet orphaned

theorem insertItems_quiet (selector : String) (items : List (String × String)) :
    (insertItems cfg selector items : Prog γ _).Only Op.Quiet := by
  unfold insertItems
  split
  · trivial
  split
  · trivial
  · refine ⟨trivial, fun answer => ?_⟩
    match answer with
    | .error e => trivial
    | .ok () => trivial

theorem findPolicyForClaim_quiet (claimId : String) (order : List (String × PickPolicy)) :
    (findPolicyForClaim claimId order : Prog γ _).Only Op.Quiet := by
  induction order with
  | nil => trivial
  | cons entry rest ih =>
    refine ⟨trivial, fun held => ?_⟩
    match held with
    | .error e => trivial
    | .ok true => trivial
    | .ok false => exact ih

theorem applyPickAction_quiet (order : List (String × PickPolicy)) (claimId : String)
    (successPath : Bool) :
    (applyPickAction cfg order claimId successPath : Prog γ _).Only Op.Quiet := by
  unfold applyPickAction
  split
  · trivial
  refine Program.Only.bind ⟨trivial, fun record => ?_⟩ fun found => ?_
  · match record with
    | some r => trivial
    | none => exact findPolicyForClaim_quiet claimId order
  · match found with
    | .error e => trivial
    | .ok none => trivial
    | .ok (some pp) =>
      dsimp only
      split
      · trivial
      · refine ⟨trivial, fun acted => ?_⟩
        match acted with
        | .error e => trivial
        | .ok () => trivial

end Only

end Rimsky.Postgres
