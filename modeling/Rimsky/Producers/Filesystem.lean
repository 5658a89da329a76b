import Mathlib.Data.List.Sort
import Rimsky.Lib.Program
import Rimsky.Producers.Ledger

/-!
# The verbs of the filesystem claim producer

`services/claim_producers/filesystem/store`: what `Commit`, `Abandon` and `Release` of `store.go` do
with a folder that a pick policy of `pick_policy.go` has leased. A folder that may be leased has a
sentinel in the policy's directory `available`, one that is leased has a sentinel
`folder.claim.nanos` in `in_progress`; the sentinel `drained` says that no folder was left. Each
operation on the filesystem is atomic; the verbs are programs over them.

What a sentinel contains decides only in which order the folders are leased, so it is not kept. The
entries of `in_progress` stand for their names; names `ParseFromRight` refuses are skipped.
-/

namespace Rimsky.Filesystem

/-! ## Paths -/

/-- The components of a path, from the last: `..` takes away the one before it. -/
def cleanStep (rooted : Bool) (stack : List (List Char)) (part : List Char) : List (List Char) :=
  if part = [] ∨ part = ['.'] then stack
  else if part = ['.', '.'] then
    match stack with
    | [] => if rooted then [] else [part]
    | last :: rest => if last = ['.', '.'] then part :: stack else rest
  else part :: stack

/-- The components `filepath.Clean` leaves of a path. -/
def components (path : String) : List (List Char) :=
  ((path.toList.splitOn '/').foldl (cleanStep (path.toList.head? = some '/')) []).reverse

/-- `filepath.Clean`. -/
def clean (path : String) : String :=
  let body := List.intercalate ['/'] (components path)
  if path.toList.head? = some '/' then String.ofList ('/' :: body)
  else if body = [] then "." else String.ofList body

def join (dir name : String) : String :=
  if dir = "" then clean name else if name = "" then clean dir else clean (dir ++ "/" ++ name)

/-! ## Configuration -/

inductive SyncStrategy where
  | onOpen | onDrain | explicit | never
  deriving DecidableEq, Repr

structure PickPolicy where
  /-- The directory of the folders, relative to the root of the store. -/
  root : String
  onCommit : PickAction
  onGiveUp : PickAction
  visibilityTimeout : Nat
  syncStrategy : SyncStrategy := .onOpen

def PickPolicy.dir (pp : PickPolicy) : String := clean pp.root

/-- `Action.Validate` and `validateMoveTargetSameFS`, as far as they depend on the texts. -/
def validAction (root : String) (act : PickAction) : Bool :=
  if act.kind = .popAndMove then act.moveTarget ≠ "" && clean act.moveTarget ≠ clean root
  else act.moveTarget = ""

def validatePickPolicy (pp : PickPolicy) : Bool :=
  validAction pp.root pp.onCommit && validAction pp.root pp.onGiveUp && 0 < pp.visibilityTimeout &&
    !(pp.onCommit.kind = .pop && pp.syncStrategy = .onOpen)

/-- The fixed fields of `Store`, as `New` accepts them. -/
structure Config where
  /-- By selector. -/
  pickPolicies : List (String × PickPolicy)
  distinct : (pickPolicies.map (·.1)).Nodup := by decide
  valid : pickPolicies.all (fun entry => validatePickPolicy entry.2) = true := by decide +kernel
  caseFold : Bool := false
  /-- `strings.ToLower`. -/
  toLower : String → String := String.toLower

namespace Config

variable (cfg : Config)

def fold (path : String) : String := if cfg.caseFold then cfg.toLower path else path

def scopeOf (pp : PickPolicy) (folder : String) : String := cfg.fold (clean (join pp.root folder))

/-- The folder of the policy a scope names: the first part of the loop of `findByScope`. -/
def wantFolder (pp : PickPolicy) (subPath : String) : Option String :=
  let policyRoot := cfg.fold pp.root
  let within := policyRoot.toList ++ ['/']
  let want : Option (List Char) :=
    if subPath = policyRoot then none
    else if within.isPrefixOf subPath.toList then some (subPath.toList.drop within.length)
    else if policyRoot = "" ∨ policyRoot = "." then some subPath.toList
    else none
  match want with
  | none => none
  | some folder => if '/' ∈ folder then none else some (String.ofList folder)

end Config

/-! ## State -/

/-- The claim id in the name of a sentinel; that of a batch lease begins with `batchlease~`. -/
inductive Holder where
  | claim (claimId : String)
  | batchLease (claimId : String)
  deriving DecidableEq, Repr

/-- A sentinel in `in_progress`, by its name. -/
structure Lease where
  folder : String
  holder : Holder
  nanos : Nat
  deriving DecidableEq, Repr

/-- `batchLeaseToken`; a claim opened by `Open` has none. -/
structure LeaseToken where
  claimId : String
  nanos : Nat
  deriving DecidableEq, Repr

def Lease.token (l : Lease) : Option LeaseToken :=
  match l.holder with
  | .claim _ => none
  | .batchLease claimId => some ⟨claimId, l.nanos⟩

/-- The sentinels by selector, the folders by directory. -/
structure State where
  available : String → List String := fun _ => []
  inProgress : String → List Lease := fun _ => []
  drained : String → Bool := fun _ => false
  folders : String → List String := fun _ => []

def put {α : Type} (table : String → α) (key : String) (entry : α) : String → α :=
  fun k => if k = key then entry else table k

/-! ## Operations -/

inductive FsError where
  | notExist | exist | failed
  deriving DecidableEq, Repr

/-- What a listing of `in_progress` is made for. -/
inductive Reader where
  | claim (claimId : String)
  | scope (folder : String) (token : Option LeaseToken)
  deriving DecidableEq, Repr

inductive Op where
  /-- `checkRootAvailable`; the second time in a verb, for the lease that was found. -/
  | checkRoot (found : Option (String × Lease))
  | readInProgress (selector : String) (reader : Reader)
  | removeInProgress (selector : String) (l : Lease)
  | stamp (selector : String) (l : Lease)
  /-- The sentinel is renamed to `available`. -/
  | recycle (selector : String) (l : Lease)
  | moveFolder (selector dir folder target : String)
  | deleteFolder (selector dir folder : String)
  | removeDrained (selector : String)
  deriving DecidableEq

abbrev Op.Answer : Op → Type
  | .readInProgress _ _ => Except FsError (List Lease)
  | _ => Except FsError Unit

/-- What the environment decides about an operation. -/
structure Choice where
  fails : Bool := false
  /-- The directory a rename leads to is missing. -/
  targetMissing : Bool := false
  deriving Inhabited

def change (choice : Choice) (refused : Option FsError) (s changed : State) :
    Except FsError Unit × State :=
  if choice.fails then (.error .failed, s)
  else match refused with
  | some e => (.error e, s)
  | none => (.ok (), changed)

def query {α : Type} (choice : Choice) (s : State) (answer : α) : Except FsError α × State :=
  (if choice.fails then .error .failed else .ok answer, s)

def missing (there : Bool) : Option FsError := if there then none else some .notExist

def State.takeLease (s : State) (selector : String) (l : Lease) : State :=
  { s with inProgress := put s.inProgress selector ((s.inProgress selector).erase l) }

def State.takeAvailable (s : State) (selector folder : String) : State :=
  { s with available := put s.available selector ((s.available selector).erase folder) }

def State.addAvailable (s : State) (selector folder : String) : State :=
  { s with available := put s.available selector (folder :: s.available selector) }

def State.setFolders (s : State) (dir : String) (names : List String) : State :=
  { s with folders := put s.folders dir names }

def State.takeFolder (s : State) (dir folder : String) : State :=
  s.setFolders dir ((s.folders dir).filter (· ≠ folder))

def execute : (op : Op) → Choice → State → op.Answer × State
  | .checkRoot _, choice, s => query choice s ()
  | .readInProgress selector _, choice, s => query choice s (s.inProgress selector)
  | .removeInProgress selector l, choice, s =>
    change choice (missing (l ∈ s.inProgress selector)) s (s.takeLease selector l)
  | .stamp selector l, choice, s => change choice (missing (l ∈ s.inProgress selector)) s s
  | .recycle selector l, choice, s =>
    change choice (missing (l ∈ s.inProgress selector && !choice.targetMissing)) s
      (((s.takeLease selector l).takeAvailable selector l.folder).addAvailable selector l.folder)
  | .moveFolder _ dir folder target, choice, s =>
    let moved := s.takeFolder dir folder
    change choice (if folder ∉ s.folders dir ∨ choice.targetMissing then some .notExist
        else if folder ∈ s.folders target then some .exist else none)
      s (moved.setFolders target (folder :: moved.folders target))
  | .deleteFolder _ dir folder, choice, s => change choice none s (s.takeFolder dir folder)
  | .removeDrained selector, choice, s =>
    change choice (missing (s.drained selector)) s { s with
        drained := put s.drained selector false }

/-! ## Programs -/

inductive StoreError where
  | rootUnavailable
  | fs (e : FsError)
  deriving DecidableEq, Repr

abbrev Act (α : Type) := ExceptT StoreError (Program Op Op.Answer) α

def perform (op : Op) : Act op.Answer := ExceptT.lift (Program.perform op)

def orFail {α : Type} (answer : Except FsError α) : Act α :=
  match answer with
  | .ok a => pure a
  | .error e => throw (.fs e)

/-- What is missing is not an error. -/
def orMissing (answer : Except FsError Unit) : Act Unit :=
  match answer with
  | .ok () | .error .notExist => pure ()
  | .error e => throw (.fs e)

def checkRootAvailable (found : Option (String × Lease)) : Act Unit := do
  match ← perform (.checkRoot found) with
  | .ok () => pure ()
  | .error _ => throw .rootUnavailable

abbrev Found := String × PickPolicy × Lease

/-- The batch lease of the folder, and with the token if there is one. -/
def Config.matches (cfg : Config) (folder : String) (token : Option LeaseToken) (l : Lease) :
    Bool :=
  cfg.fold l.folder = folder && l.token.isSome && (token = none || l.token = token)

def Config.wants (cfg : Config) : Reader → Lease → Bool
  | .claim claimId, l => l.holder = .claim claimId
  | .scope folder token, l => cfg.matches folder token l

/-- The first entry that is looked for, over the policies in the order of the range statement. -/
def findIn (cfg : Config) (reader : PickPolicy → Option Reader) :
    List (String × PickPolicy) → Act (Option Found)
  | [] => pure none
  | (selector, pp) :: rest =>
    match reader pp with
    | none => findIn cfg reader rest
    | some reading => do
      let answer ← perform (.readInProgress selector reading)
      match answer.toOption.bind (·.find? (cfg.wants reading)) with
      | some l => pure (some (selector, pp, l))
      | none => findIn cfg reader rest

def findByClaimID (cfg : Config) (claimId : String) :
    List (String × PickPolicy) → Act (Option Found) :=
  findIn cfg fun _ => some (.claim claimId)

/-- `findByScope`; the scope is decoded, and empty if it is not a text. -/
def findByScope (cfg : Config) (subPath : String) (token : Option LeaseToken) :
    List (String × PickPolicy) → Act (Option Found) :=
  findIn cfg fun pp =>
    if subPath = "" then none else (cfg.wantFolder pp subPath).map (.scope · token)

def applyPickAction (pp : PickPolicy) (selector : String) (l : Lease) (act : PickAction) :
    Act Unit := do
  match act.kind with
  | .pop => orMissing (← perform (.removeInProgress selector l))
  | .popAndMove =>
    orMissing (← perform (.removeInProgress selector l))
    orMissing (← perform (.moveFolder selector pp.dir l.folder (clean act.moveTarget)))
  | .popAndDelete =>
    orMissing (← perform (.removeInProgress selector l))
    orFail (← perform (.deleteFolder selector pp.dir l.folder))
  | .recycle =>
    orMissing (← perform (.stamp selector l))
    orMissing (← perform (.recycle selector l))
    let _ ← perform (.removeDrained selector)

inductive Verb where
  | commit | abandon | release
  deriving DecidableEq, Repr

def PickPolicy.action (pp : PickPolicy) : Verb → PickAction
  | .commit => pp.onCommit
  | .abandon => pp.onGiveUp
  | .release => { kind := .recycle }

structure Claimant where
  claimId : String
  scope : String
  token : Option LeaseToken
  deriving DecidableEq

def findLease (cfg : Config) (c : Claimant) (order : List (String × PickPolicy)) :
    Act (Option Found) := do
  match ← findByClaimID cfg c.claimId order with
  | some found => pure (some found)
  | none => findByScope cfg c.scope c.token order

/-- `Commit`, `Abandon` and `Release`. -/
def deliver (cfg : Config) (verb : Verb) (c : Claimant) (order : List (String × PickPolicy)) :
    Act Unit := do
  checkRootAvailable none
  match ← findLease cfg c order with
  | none => pure ()
  | some (selector, pp, l) =>
    checkRootAvailable (some (selector, l))
    applyPickAction pp selector l (pp.action verb)

def queuePolicy : PickPolicy where
  root := "jobs"
  onCommit := { kind := .popAndDelete }
  onGiveUp := { kind := .recycle }
  visibilityTimeout := 1000
  syncStrategy := .explicit

/-- A queue whose folders are deleted on commit and recycled on give-up. -/
def queue : Config where
  pickPolicies := [("jobs", queuePolicy)]

/-- The folder `f` of the queue, and the sentinels. -/
def queueState (available : List String) (inProgress : List Lease) : State where
  available := put (fun _ => []) "jobs" available
  inProgress := put (fun _ => []) "jobs" inProgress
  folders := put (fun _ => []) "jobs" ["f"]

def bareClaimant (claimId : String) : Claimant := ⟨claimId, "jobs/f", none⟩

end Rimsky.Filesystem
