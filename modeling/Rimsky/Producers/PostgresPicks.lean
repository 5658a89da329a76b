import Rimsky.Producers.Postgres

/-!
# Pick policies over failures and restarts

A `Commit` or `Abandon` of a picked item finds the policy through the claim's record in the
ledger, and through the items tables only if there is none. The ledger is empty after a restart.
An attempt that fails then leaves a record without a selector, and the next attempt is answered
with success although nothing is done to the item.

Where no attempt fails while the ledger does not know the claim, each successful call has applied
its policy's action. The invariant is that a record of a claim that holds an item names a policy
of the item's table, and that a claim holds items of one table only.
-/

namespace Rimsky.Postgres

open CallSystem List

variable {row : Item} {table : ItemsTable} {selector c : String} {pp : PickPolicy}
  {kind : PickActionKind} {successPath : Bool}

variable {γ : Type} {cfg : Config} (fault : Fault)

def State.Holds (s : State γ) (table claimId : String) : Prop :=
  ∃ row ∈ (s.tables table).rows, row.claimToken = some claimId

def Config.Uses (cfg : Config) (table : String) : Prop :=
  ∃ entry ∈ cfg.pickPolicies, entry.2.itemsTable = table

variable {these : Item → Bool}

theorem mem_recycleRows {next : Nat} {rows : List Item} {row' : Item}
    (mem : row' ∈ recycleRows these next rows) :
    row' ∈ rows ∧ these row' = false ∨ row'.claimToken = none := by
  induction rows generalizing next with
  | nil => cases mem
  | cons row rows ih =>
    rw [recycleRows] at mem
    split at mem
    · rcases mem_cons.mp mem with rfl | later
      · exact .inr rfl
      · exact (ih later).imp (fun old => ⟨mem_cons_of_mem _ old.1, old.2⟩) id
    · rename_i other
      rcases mem_cons.mp mem with rfl | later
      · exact .inl ⟨mem_cons_self, by simpa using other⟩
      · exact (ih later).imp (fun old => ⟨mem_cons_of_mem _ old.1, old.2⟩) id

theorem recycled_mem (next : Nat) {rows : List Item} (mem : row ∈ rows) (this : these row = true) :
    ∃ n, next ≤ n ∧ row.recycled n ∈ recycleRows these next rows := by
  induction rows generalizing next with
  | nil => cases mem
  | cons first rows ih =>
    rw [recycleRows]
    rcases mem_cons.mp mem with rfl | later
    · rw [if_pos this]
      exact ⟨next, Nat.le_refl _, mem_cons_self⟩
    · split
      · rcases ih (next + 1) later with ⟨n, le, there⟩
        exact ⟨n, by omega, mem_cons_of_mem _ there⟩
      · rcases ih next later with ⟨n, le, there⟩
        exact ⟨n, le, mem_cons_of_mem _ there⟩

def Fewer (s t : State γ) : Prop := ∀ table claimId, t.Holds table claimId → s.Holds table claimId

variable {s : State γ} {t : State γ}

theorem Fewer.of_tables (same : t.tables = s.tables) : Fewer s t := by
  intro table claimId holds
  rwa [State.Holds, same] at holds

theorem Fewer.trans {u : State γ} (first : Fewer s t) (second : Fewer t u) : Fewer s u :=
  fun table claimId holds => first table claimId (second table claimId holds)

theorem Fewer.putTable {name : String}
    (fewer : ∀ row ∈ table.rows, row.claimToken = none ∨ row ∈ (s.tables name).rows) :
    Fewer s (s.putTable name table) := by
  rintro name' claimId ⟨row, mem, token⟩
  rw [State.putTable] at mem
  dsimp only at mem
  split at mem
  · rename_i same
    rcases fewer row mem with free | old
    · rw [token] at free
      cases free
    · exact ⟨row, same ▸ old, token⟩
  · exact ⟨row, mem, token⟩

theorem mem_recycle (mem : row ∈ (table.recycle these).rows) :
    row.claimToken = none ∨ row ∈ table.rows :=
  (mem_recycleRows mem).elim (fun old => .inr old.1) .inl

theorem mem_pop :
    row ∈ (table.pop these).rows ↔ row ∈ table.rows ∧ these row = false := by
  simp [ItemsTable.pop, mem_filter]

theorem mem_insert {items : List (String × String)} (mem : row ∈ (table.insert items).rows) :
    row.claimToken = none ∨ row ∈ table.rows := by
  rcases mem_append.mp mem with old | new
  · exact .inr old
  · rcases mem_map.mp new with ⟨entry, -, rfl⟩
    exact .inl rfl

def Wanes (s t : State γ) : Prop := Fewer s t ∧ t.ledger = s.ledger

theorem wanes_of_tables (tables : t.tables = s.tables) (ledger : t.ledger = s.ledger) :
    Wanes s t :=
  ⟨Fewer.of_tables tables, ledger⟩

theorem wanes_change {changed : State γ} (wanes : Wanes s changed) :
    Wanes s (change fault s changed).2 := by
  rcases change_cases fault s changed with ⟨same, -⟩ | made
  · rw [same]
    exact wanes_of_tables rfl rfl
  · rwa [made]

theorem wanes_query {α : Type} (s : State γ) (answer : α) :
    Wanes s (query fault s answer).2 := by
  cases fault with
  | _ => exact wanes_of_tables rfl rfl

/--
A record of a claim that holds an item names a policy of the item's table, and a claim holds
items of one table only.
-/
structure Located (cfg : Config) (s : State γ) : Prop where
  known : ∀ claimId, ∀ r ∈ s.ledger.get? claimId, ∀ table, cfg.Uses table →
    s.Holds table claimId → ∃ pp, cfg.pickPolicy? r.selector = some pp ∧ pp.itemsTable = table
  single : ∀ claimId table table', cfg.Uses table → cfg.Uses table' → s.Holds table claimId →
    s.Holds table' claimId → table = table'
  named : ∀ table, cfg.Uses table → ¬s.Holds table ""

def Free (cfg : Config) (s : State γ) (claimId : String) : Prop :=
  ∀ table, cfg.Uses table → ¬s.Holds table claimId

theorem Located.mono (located : Located cfg s) (fewer : Fewer s t)
    (records : ∀ claimId, ∀ r ∈ t.ledger.get? claimId, Free cfg t claimId ∨
      ∃ old ∈ s.ledger.get? claimId, old.selector = r.selector) :
    Located cfg t where
  known claimId r mem table uses holds := by
    rcases records claimId r mem with free | ⟨old, there, same⟩
    · exact absurd holds (free table uses)
    · rw [← same]
      exact located.known claimId old there table uses (fewer table claimId holds)
  single claimId table table' uses uses' holds holds' :=
    located.single claimId table table' uses uses' (fewer _ _ holds) (fewer _ _ holds')
  named table uses holds := located.named table uses (fewer _ _ holds)

theorem Located.of_fewer (located : Located cfg s) (fewer : Fewer s t)
    (same : t.ledger = s.ledger) :
    Located cfg t :=
  located.mono fewer fun _ r mem => .inr ⟨r, same ▸ mem, rfl⟩

theorem Free.mono {claimId : String} (free : Free cfg s claimId) (fewer : Fewer s t) :
    Free cfg t claimId :=
  fun table uses holds => free table uses (fewer table claimId holds)

theorem pickPolicy?_mem (found : cfg.pickPolicy? selector = some pp) :
    (selector, pp) ∈ cfg.pickPolicies := by
  rcases Option.map_eq_some_iff.mp found with ⟨entry, there, rfl⟩
  have same : entry.1 = selector := by simpa using find?_some there
  rw [← same]
  exact mem_of_find?_eq_some there

def Locates (cfg : Config) (order : List (String × PickPolicy)) (s : State γ) (c : String)
    (found : Option PickPolicy) : Prop :=
  (∃ r ∈ s.ledger.get? c, found = cfg.pickPolicy? r.selector) ∨
    s.ledger.get? c = none ∧ ((found = none ∧ ∀ entry ∈ order, ¬s.Holds entry.2.itemsTable c) ∨
      ∃ entry ∈ order, found = some entry.2 ∧ s.Holds entry.2.itemsTable c)

variable {order : List (String × PickPolicy)}

theorem Located.found {table : String} {found : Option PickPolicy} (located : Located cfg s)
    (iterates : order.Perm cfg.pickPolicies) (locates : Locates cfg order s c found)
    (uses : cfg.Uses table) (holds : s.Holds table c) :
    ∃ selector pp, found = some pp ∧ (selector, pp) ∈ cfg.pickPolicies ∧ pp.itemsTable = table := by
  rcases locates with ⟨r, there, rfl⟩ | ⟨-, ⟨-, absent⟩ | ⟨entry, listed, rfl, held⟩⟩
  · rcases located.known c r there table uses holds with ⟨pp, found, same⟩
    exact ⟨r.selector, pp, found, pickPolicy?_mem found, same⟩
  · rcases uses with ⟨entry, listed, rfl⟩
    exact absurd holds (absent entry (iterates.mem_iff.mpr listed))
  · have listed := iterates.mem_iff.mp listed
    exact ⟨entry.1, entry.2, rfl, listed,
      located.single c _ _ ⟨entry, listed, rfl⟩ uses held holds⟩

theorem Locates.listed (iterates : order.Perm cfg.pickPolicies)
    (locates : Locates cfg order s c (some pp)) :
    ∃ selector, (selector, pp) ∈ cfg.pickPolicies := by
  rcases locates with ⟨r, -, found⟩ | ⟨-, ⟨none, -⟩ | ⟨entry, listed, same, -⟩⟩
  · exact ⟨r.selector, pickPolicy?_mem found.symm⟩
  · cases none
  · cases same
    exact ⟨entry.1, iterates.mem_iff.mp listed⟩

theorem mem_act (mem : row ∈ (table.act kind c).rows) :
    row.claimToken = none ∨ row ∈ table.rows := by
  cases kind with
  | pop => exact .inr (mem_pop.mp mem).1
  | recycle => exact mem_recycle mem
  | _ => exact .inr mem

theorem act_releases (valid : validPickAction kind = true) (mem : row ∈ (table.act kind c).rows) :
    row.claimToken ≠ some c := by
  cases kind with
  | pop => simpa [Item.holdsToken] using (mem_pop.mp mem).2
  | recycle =>
    rcases mem_recycleRows mem with ⟨-, other⟩ | free
    · simpa [Item.holdsToken] using other
    · rw [free]
      simp
  | _ => simp [validPickAction] at valid

theorem valid_action (listed : (selector, pp) ∈ cfg.pickPolicies) (successPath : Bool) :
    validPickAction (pp.action successPath).kind = true := by
  have valid := all_eq_true.mp cfg.valid _ listed
  simp only [validatePickPolicy, Bool.and_eq_true] at valid
  cases successPath with
  | true => exact valid.1.1.1.1.2
  | false => exact valid.1.1.2

def State.acted (s : State γ) (pp : PickPolicy) (successPath : Bool) (c : String) : State γ :=
  s.putTable pp.itemsTable ((s.tables pp.itemsTable).act (pp.action successPath).kind c)

inductive PickOutcome (cfg : Config) (can : Fault → Prop) (order : List (String × PickPolicy))
    (s : State γ) (c : String) (successPath : Bool) : Except StoreError Unit → State γ → Prop where
  | nameless (none : c = "") : PickOutcome cfg can order s c successPath (.ok ()) s
  | unlocated (e : StoreError) (faulty : ¬∀ fault, can fault → fault = .none) :
      PickOutcome cfg can order s c successPath (.error e) s
  | nowhere (locates : Locates cfg order s c none) :
      PickOutcome cfg can order s c successPath (.ok ()) s
  | invalid (e : StoreError) (pp : PickPolicy) (locates : Locates cfg order s c (some pp))
      (bad : validPickAction (pp.action successPath).kind = false) :
      PickOutcome cfg can order s c successPath (.error e) s
  | failed (e : StoreError) (pp : PickPolicy) (fault : Fault)
      (faulty : ¬∀ fault, can fault → fault = .none) :
      PickOutcome cfg can order s c successPath (.error e)
        (change fault s (s.acted pp successPath c)).2
  | acted (pp : PickPolicy) (locates : Locates cfg order s c (some pp)) :
      PickOutcome cfg can order s c successPath (.ok ()) (s.acted pp successPath c)

theorem wanes_act (s : State γ) (name : String) (kind : PickActionKind) (c : String) :
    Wanes s (s.putTable name ((s.tables name).act kind c)) :=
  ⟨Fewer.putTable fun _ mem => mem_act mem, rfl⟩

namespace PickOutcome

variable {can : Fault → Prop} {order : List (String × PickPolicy)} {s s' : State γ} {c : String}
  {successPath : Bool} {out : Except StoreError Unit}

section

variable (outcome : PickOutcome cfg can order s c successPath out s')

include outcome

theorem wanes : Wanes s s' := by
  cases outcome with
  | failed e pp fault _ => exact wanes_change fault (wanes_act ..)
  | acted pp _ => exact wanes_act ..
  | _ => exact wanes_of_tables rfl rfl

theorem ok_of_clean (iterates : order.Perm cfg.pickPolicies)
    (clean : ∀ fault, can fault → fault = .none) :
    out = .ok () := by
  cases outcome with
  | unlocated e faulty => exact absurd clean faulty
  | failed e pp fault faulty => exact absurd clean faulty
  | invalid e pp locates bad =>
    rcases locates.listed iterates with ⟨selector, listed⟩
    rw [valid_action listed successPath] at bad
    cases bad
  | _ => rfl

end

theorem acts (outcome : PickOutcome cfg can order s c successPath (.ok ()) s')
    (located : Located cfg s) (iterates : order.Perm cfg.pickPolicies) {table : String}
    (uses : cfg.Uses table) (holds : s.Holds table c) :
    ∃ selector pp, (selector, pp) ∈ cfg.pickPolicies ∧ pp.itemsTable = table ∧
      s' = s.acted pp successPath c := by
  cases outcome with
  | nameless none =>
    subst none
    exact absurd holds (located.named table uses)
  | nowhere locates =>
    rcases located.found iterates locates uses holds with ⟨_, _, none, -⟩
    cases none
  | acted pp locates =>
    rcases located.found iterates locates uses holds with ⟨selector, pp', same, listed, at'⟩
    cases same
    exact ⟨selector, pp, listed, at', rfl⟩

theorem frees (outcome : PickOutcome cfg can order s c successPath (.ok ()) s')
    (located : Located cfg s) (iterates : order.Perm cfg.pickPolicies) : Free cfg s' c := by
  intro table uses holds
  rcases outcome.acts located iterates uses (outcome.wanes.1 table c holds) with
    ⟨selector, pp, listed, rfl, rfl⟩
  rcases holds with ⟨row, mem, token⟩
  rw [State.acted, State.putTable] at mem
  dsimp only at mem
  rw [if_pos rfl] at mem
  exact act_releases (valid_action listed successPath) mem token

end PickOutcome

variable {s' : State γ}

section Runs

variable [Inhabited γ] {can : Fault → Prop}

theorem findPolicyForClaim_spec {found : Except StoreError (Option PickPolicy)}
    (runs : (system γ cfg).Runs can (findPolicyForClaim c order) s found s') :
    s' = s ∧ ((∀ fault, can fault → fault = .none) → ∃ pp, found = .ok pp) ∧
      ∀ pp, found = .ok pp → (pp = none ∧ ∀ entry ∈ order, ¬s.Holds entry.2.itemsTable c) ∨
        ∃ entry ∈ order, pp = some entry.2 ∧ s.Holds entry.2.itemsTable c := by
  induction order with
  | nil =>
    rcases runs.of_ret with ⟨rfl, rfl⟩
    refine ⟨rfl, fun _ => ⟨none, rfl⟩, fun pp same => .inl ⟨?_, by simp⟩⟩
    cases same
    rfl
  | cons entry rest ih =>
    rcases runs.of_perform with ⟨fault, may, runs⟩
    cases fault with
    | none =>
      simp only [execute, query] at runs
      cases held : (s.tables entry.2.itemsTable).rows.any fun row => row.holdsToken c with
      | true =>
        rw [held] at runs
        rcases runs.of_ret with ⟨rfl, rfl⟩
        refine ⟨rfl, fun _ => ⟨_, rfl⟩, fun pp same => .inr ⟨entry, mem_cons_self, ?_, ?_⟩⟩
        · cases same
          rfl
        · simpa [State.Holds, Item.holdsToken] using held
      | false =>
        rw [held] at runs
        rcases ih runs with ⟨same, answers, spec⟩
        have free : ¬s.Holds entry.2.itemsTable c := by
          simpa [State.Holds, Item.holdsToken] using held
        refine ⟨same, answers, fun pp ok => ?_⟩
        rcases spec pp ok with ⟨none, absent⟩ | ⟨other, listed, found⟩
        · exact .inl ⟨none, forall_mem_cons.mpr ⟨free, absent⟩⟩
        · exact .inr ⟨other, mem_cons_of_mem _ listed, found⟩
    | _ =>
      rcases runs.of_ret with ⟨rfl, rfl⟩
      exact ⟨rfl, fun clean => absurd (clean _ may) (by simp), by simp⟩

theorem locatePickPolicyForClaim_spec {out : Except StoreError (Option PickPolicy)}
    (runs : (system γ cfg).Runs can (locatePickPolicyForClaim cfg order c) s out s') :
    s' = s ∧ ((∀ fault, can fault → fault = .none) → ∃ found, out = .ok found) ∧
      ∀ found, out = .ok found → Locates cfg order s c found := by
  rcases runs.of_perform with ⟨fault, -, runs⟩
  simp only [execute] at runs
  cases record : s.ledger.get? c with
  | some r =>
    rw [record] at runs
    rcases runs.of_ret with ⟨rfl, rfl⟩
    refine ⟨rfl, fun _ => ⟨_, rfl⟩, fun found same => .inl ⟨r, record, ?_⟩⟩
    cases same
    rfl
  | none =>
    rw [record] at runs
    rcases findPolicyForClaim_spec runs with ⟨same, answers, spec⟩
    exact ⟨same, answers, fun found ok => .inr ⟨record, spec found ok⟩⟩

theorem applyPickAction_outcome {out : Except StoreError Unit}
    (runs : (system γ cfg).Runs can (applyPickAction cfg order c successPath) s out s') :
    PickOutcome cfg can order s c successPath out s' := by
  unfold applyPickAction at runs
  split at runs
  · rename_i none
    rcases runs.of_ret with ⟨rfl, rfl⟩
    exact .nameless none
  rcases runs.of_bind with ⟨found, mid, first, runs⟩
  rcases locatePickPolicyForClaim_spec first with ⟨rfl, answers, spec⟩
  match found with
  | .error e =>
    rcases runs.of_ret with ⟨rfl, rfl⟩
    refine .unlocated e fun clean => ?_
    rcases answers clean with ⟨_, ok⟩
    cases ok
  | .ok none =>
    rcases runs.of_ret with ⟨rfl, rfl⟩
    exact .nowhere (spec _ rfl)
  | .ok (some pp) =>
    have locates := spec _ rfl
    dsimp only at runs
    split at runs
    · rename_i bad
      rcases runs.of_ret with ⟨rfl, rfl⟩
      exact .invalid _ pp locates (by simpa using bad)
    · rcases runs.of_perform with ⟨fault, may, runs⟩
      cases fault with
      | none =>
        rcases runs.of_ret with ⟨rfl, rfl⟩
        exact .acted pp locates
      | fails =>
        rcases runs.of_ret with ⟨rfl, rfl⟩
        exact .failed _ pp .fails fun clean => absurd (clean _ may) (by simp)
      | lost =>
        rcases runs.of_ret with ⟨rfl, rfl⟩
        exact .failed _ pp .lost fun clean => absurd (clean _ may) (by simp)

theorem recorded_spec {verb done : String} {out : Except StoreError Unit}
    {answer : Except StoreError Answer}
    (runs : (system γ cfg).Runs can (recorded c verb done out) s answer s') :
    s'.tables = s.tables ∧ (answer = .ok .done → out = .ok ()) ∧
      ∀ claimId, ∀ r ∈ s'.ledger.get? claimId,
        (∃ old ∈ s.ledger.get? claimId, old.selector = r.selector) ∨
          s.ledger.get? c = none ∧ claimId = c := by
  cases out with
  | error e =>
    rcases runs.of_perform with ⟨fault, -, runs⟩
    rcases runs.of_ret with ⟨rfl, rfl⟩
    refine ⟨rfl, by simp, fun claimId r mem => ?_⟩
    exact ClaimLedger.mem_recordOf (ClaimLedger.mem_of_evictIfNeeded mem) rfl
  | ok done =>
    rcases runs.of_perform with ⟨fault, -, runs⟩
    rcases runs.of_ret with ⟨rfl, rfl⟩
    refine ⟨rfl, fun _ => rfl, fun claimId r mem => ?_⟩
    exact ClaimLedger.mem_recordOf (ClaimLedger.mem_of_evictIfNeeded mem) rfl

end Runs

def Op.Plain : Op γ → Prop
  | .leaseFirst _ _ | .record _ | .restart => False
  | _ => True

theorem wanes_swap (canonical staging : String) (s : State γ) :
    Wanes s (s.swap fault canonical staging).2 := by
  unfold State.swap
  split
  · exact wanes_of_tables rfl rfl
  split
  · exact wanes_of_tables rfl rfl
  · exact wanes_of_tables rfl rfl
  · split
    · exact wanes_of_tables rfl rfl
    · exact wanes_of_tables rfl rfl

theorem wanes_execute [Inhabited γ] {max : Nat} (op : Op γ) (fault : Fault) (s : State γ)
    (plain : op.Plain) : Wanes s (execute max op fault s).2 := by
  cases op with
  | externalDependent | hasToken => exact wanes_query ..
  | createSchema name =>
    refine wanes_change fault ?_
    split
    · exact wanes_of_tables rfl rfl
    · exact wanes_of_tables rfl rfl
  | recordStagingReservation | clearStagingReservation | dropSchema =>
    exact wanes_change fault (wanes_of_tables rfl rfl)
  | swap canonical staging => exact wanes_swap ..
  | takeExpiredReservations =>
    cases fault with
    | _ => exact wanes_of_tables rfl rfl
  | writeSchema name contents =>
    simp only [execute]
    split
    · exact wanes_of_tables rfl rfl
    · exact wanes_of_tables rfl rfl
  | act table kind claimId => exact wanes_change fault (wanes_act ..)
  | recycleExpired table timeout =>
    exact wanes_change fault ⟨Fewer.putTable fun _ mem => mem_recycle mem, rfl⟩
  | insertItems table items =>
    exact wanes_change fault ⟨Fewer.putTable fun _ mem => mem_insert mem, rfl⟩
  | leaseFirst | record | restart => exact plain.elim
  | ledgerGet | setDependent | tick => exact wanes_of_tables rfl rfl

theorem Op.Quiet.plain {op : Op γ} (quiet : op.Quiet) : op.Plain := by
  cases op with
  | swap canonical staging => trivial
  | _ => exact quiet

theorem commitStagingSwap_plain (canonical staging : String) :
    (commitStagingSwap canonical staging : Prog γ _).Only Op.Plain := by
  refine (commitStagingSwap_only canonical staging).mono fun op may => ?_
  rcases may with ⟨rfl, -⟩ | quiet
  · trivial
  · exact quiet.plain

theorem dropStaging_plain (staging : String) :
    (dropStaging staging : Prog γ _).Only Op.Plain :=
  (dropStaging_quiet staging).mono fun _ => Op.Quiet.plain

theorem wanes_of_runs [Inhabited γ] {can : Fault → Prop} {α : Type} {p : Prog γ α}
    (plain : p.Only Op.Plain) {a : α} (runs : (system γ cfg).Runs can p s a t) :
    Wanes s t :=
  runs.of_only (fun _ => wanes_of_tables rfl rfl)
    (fun _ _ _ first second => ⟨first.1.trans second.1, second.2.trans first.2⟩)
    (fun op fault s => wanes_execute op fault s) plain

theorem wanes_of_quiet [Inhabited γ] {can : Fault → Prop} {α : Type} {p : Prog γ α}
    (quiet : p.Only Op.Quiet) {a : α} (runs : (system γ cfg).Runs can p s a t) : Wanes s t :=
  wanes_of_runs (quiet.mono fun _ => Op.Quiet.plain) runs

/-- An open of a claim is under the selector of its record and of the items it holds. -/
def Opens (cfg : Config) (s : State γ) (c selector : String) : Prop :=
  c ≠ "" ∧ (∀ table, cfg.Uses table → s.Holds table c →
      ∃ pp, cfg.pickPolicy? selector = some pp ∧ pp.itemsTable = table) ∧
    ∀ r ∈ s.ledger.get? c, r.selector = selector

section Opening

variable (located : Located cfg s) (opens : Opens cfg s c selector)
  (tokens : ∀ table claimId, t.Holds table claimId → s.Holds table claimId ∨ claimId = c ∧
    ∃ pp, cfg.pickPolicy? selector = some pp ∧ pp.itemsTable = table)

include located opens tokens

theorem Located.of_open
    (records : ∀ claimId, ∀ r ∈ t.ledger.get? claimId, claimId = c ∧ r.selector = selector ∨
      r ∈ s.ledger.get? claimId) :
    Located cfg t := by
  rcases opens with ⟨named, leased, recorded⟩
  have under : ∀ table, cfg.Uses table → t.Holds table c →
      ∃ pp, cfg.pickPolicy? selector = some pp ∧ pp.itemsTable = table := by
    intro table uses holds
    rcases tokens table c holds with old | ⟨-, new⟩
    · exact leased table uses old
    · exact new
  have held : ∀ table claimId, claimId ≠ c → t.Holds table claimId → s.Holds table claimId :=
    fun table claimId other holds => (tokens table claimId holds).resolve_right fun new =>
      other new.1
  constructor
  · intro claimId r mem table uses holds
    by_cases this : claimId = c
    · subst this
      have selects : r.selector = selector :=
        (records claimId r mem).elim (fun new => new.2) fun old => recorded r old
      rw [selects]
      exact under table uses holds
    · have old := (records claimId r mem).resolve_left fun new => this new.1
      exact located.known claimId r old table uses (held table _ this holds)
  · intro claimId table table' uses uses' holds holds'
    by_cases this : claimId = c
    · subst this
      rcases under table uses holds with ⟨pp, found, rfl⟩
      rcases under table' uses' holds' with ⟨pp', found', rfl⟩
      rw [found] at found'
      cases found'
      rfl
    · exact located.single claimId table table' uses uses' (held _ _ this holds)
        (held _ _ this holds')
  · intro table uses holds
    exact located.named table uses (held table "" named.symm holds)

theorem Located.of_opened (ledger : t.ledger = s.ledger)
    (ends : s' = t ∨ ∃ reading, s' = { t with
      ledger := t.ledger.call (reading, .recordOpen c selector [] []) }) :
    Located cfg s' := by
  rcases ends with rfl | ⟨reading, rfl⟩
  · exact located.of_open opens tokens fun _ r mem => .inr (ledger ▸ mem)
  · refine located.of_open opens tokens fun claimId r mem => ?_
    rcases ClaimLedger.mem_recordOpen mem with new | old
    · exact .inl new
    · exact .inr (ledger ▸ old)

end Opening

theorem leaseFirst_tokens {fault : Fault} {table table' claimId : String}
    (holds : (s.leaseFirst fault table c).2.Holds table' claimId) :
    s.Holds table' claimId ∨ claimId = c ∧ table' = table := by
  unfold State.leaseFirst at holds
  split at holds
  · exact .inl ((wanes_query fault s _).1 table' claimId holds)
  · rename_i item _
    have leased : (s.putTable table ((s.tables table).lease item.itemId c s.now)).Holds
        table' claimId → s.Holds table' claimId ∨ claimId = c ∧ table' = table := by
      rintro ⟨row, mem, token⟩
      rw [State.putTable] at mem
      dsimp only at mem
      split at mem
      · rename_i same
        rcases mem_map.mp mem with ⟨old, listed, rfl⟩
        split at token
        · exact .inr ⟨(Option.some.inj token).symm, same⟩
        · exact .inl ⟨old, same ▸ listed, token⟩
      · exact .inl ⟨row, mem, token⟩
    cases fault with
    | none => exact leased holds
    | fails => exact .inl holds
    | lost => exact leased holds

theorem leaseFirst_ledger (table c : String) (s : State γ) :
    (s.leaseFirst fault table c).2.ledger = s.ledger := by
  unfold State.leaseFirst
  split
  · exact (wanes_query fault s _).2
  · cases fault with
    | _ => rfl

section Calls

variable [Inhabited γ] {can : Fault → Prop} {order : List (String × PickPolicy)} {c : String}
  {claimScope address : RawName} {s s' : State γ} {answer : Except StoreError Answer}

def VerbRuns (cfg : Config) (can : Fault → Prop) (order : List (String × PickPolicy)) (c : String)
    (claimScope address : RawName) (successPath : Bool) (s : State γ)
    (answer : Except StoreError Answer) (s' : State γ) : Prop :=
  ∃ verb done out mid, (system γ cfg).Runs can (recorded c verb done out) mid answer s' ∧
    ((system γ cfg).Runs can (applyPickAction cfg order c successPath) s out mid ∨
      stagedSwapTarget cfg claimScope address ≠ .ok none ∧ Wanes s mid)

theorem settling_runs {staged : String → String → Prog γ (Except StoreError Unit)}
    {inPlace : Prog γ (Except StoreError Unit)} {out : Except StoreError Unit}
    (plain : ∀ canonical staging, (staged canonical staging).Only Op.Plain)
    (runs : (system γ cfg).Runs can (settling cfg claimScope address staged inPlace) s out s') :
    (system γ cfg).Runs can inPlace s out s' ∨
      stagedSwapTarget cfg claimScope address ≠ .ok none ∧ Wanes s s' := by
  unfold settling at runs
  split at runs
  case h_1 e target =>
    rw [runs.of_ret.2]
    exact .inr ⟨by simp [target], wanes_of_tables rfl rfl⟩
  case h_2 canonical staging target =>
    exact .inr ⟨by simp [target], wanes_of_runs (plain canonical staging) runs⟩
  case h_3 => exact .inl runs

theorem commit_verbRuns
    (runs : (system γ cfg).Runs can (commit cfg order c claimScope address) s answer s') :
    VerbRuns cfg can order c claimScope address true s answer s' := by
  rcases runs.of_bind with ⟨out, mid, first, second⟩
  exact ⟨_, _, out, mid, second, settling_runs commitStagingSwap_plain first⟩

theorem abandon_verbRuns
    (runs : (system γ cfg).Runs can (abandon cfg order c claimScope address) s answer s') :
    VerbRuns cfg can order c claimScope address false s answer s' := by
  rcases runs.of_bind with ⟨out, mid, first, second⟩
  exact ⟨_, _, out, mid, second, settling_runs (fun _ => dropStaging_plain) first⟩

theorem stagedSwapTarget_same (cfg : Config) (id : String) :
    stagedSwapTarget cfg (.name id) (.name id) = .ok none := by
  unfold stagedSwapTarget
  split
  · rfl
  · simp

/-- The caller sends the item's id as the scope and the address, as `Open` answered. -/
def Picked (claimScope address : RawName) : Prop :=
  ∃ id, claimScope = .name id ∧ address = .name id

theorem VerbRuns.wanes
    (runs : VerbRuns cfg can order c claimScope address successPath s answer s') :
    ∃ verb done out mid, (system γ cfg).Runs can (recorded c verb done out) mid answer s' ∧
      Wanes s mid ∧
        (Picked claimScope address → PickOutcome cfg can order s c successPath out mid) := by
  rcases runs with ⟨verb, done, out, mid, second, acts | ⟨staged, wanes⟩⟩
  · have outcome := applyPickAction_outcome acts
    exact ⟨verb, done, out, mid, second, outcome.wanes, fun _ => outcome⟩
  · refine ⟨verb, done, out, mid, second, wanes, ?_⟩
    rintro ⟨id, rfl, rfl⟩
    exact absurd (stagedSwapTarget_same cfg id) staged

theorem Located.of_recorded {mid : State γ} {verb done : String} {out : Except StoreError Unit}
    (located : Located cfg s) (wanes : Wanes s mid)
    (record : (system γ cfg).Runs can (recorded c verb done out) mid answer s')
    (safe : s.ledger.get? c = none → Free cfg mid c) : Located cfg s' := by
  rcases recorded_spec record with ⟨tables, -, records⟩
  have later : Fewer mid s' := Fewer.of_tables tables
  refine located.mono (wanes.1.trans later) fun claimId r mem => ?_
  rw [wanes.2] at records
  rcases records claimId r mem with old | ⟨absent, rfl⟩
  · exact .inr old
  · exact .inl ((safe absent).mono later)

/--
A verb keeps the invariant if it cannot fail while the ledger does not know the claim: then a
record without a selector is only made once the claim holds nothing.
-/
theorem VerbRuns.located
    (runs : VerbRuns cfg can order c claimScope address successPath s answer s')
    (located : Located cfg s) (iterates : order.Perm cfg.pickPolicies)
    (safe : Free cfg s c ∨ Picked claimScope address ∧
      (s.ledger.get? c = none → ∀ fault, can fault → fault = .none)) : Located cfg s' := by
  rcases runs.wanes with ⟨verb, done, out, mid, record, wanes, outcome⟩
  refine located.of_recorded wanes record fun absent => ?_
  rcases safe with free | ⟨picked, clean⟩
  · exact free.mono wanes.1
  · have outcome := outcome picked
    have ok := outcome.ok_of_clean iterates (clean absent)
    rw [ok] at outcome
    exact outcome.frees located iterates

theorem VerbRuns.acts
    (runs : VerbRuns cfg can order c claimScope address successPath s (.ok .done) s')
    (located : Located cfg s) (iterates : order.Perm cfg.pickPolicies)
    (picked : Picked claimScope address) {table : String} (uses : cfg.Uses table)
    (holds : s.Holds table c) :
    ∃ selector pp, (selector, pp) ∈ cfg.pickPolicies ∧ pp.itemsTable = table ∧
      s'.tables table = (s.tables table).act (pp.action successPath).kind c := by
  rcases runs.wanes with ⟨verb, done, out, mid, record, -, outcome⟩
  rcases recorded_spec record with ⟨tables, answered, -⟩
  have outcome := outcome picked
  rw [answered rfl] at outcome
  rcases outcome.acts located iterates uses holds with ⟨selector, pp, listed, rfl, rfl⟩
  refine ⟨selector, pp, listed, rfl, ?_⟩
  rw [tables]
  exact if_pos rfl

theorem release_located
    (runs : (system γ cfg).Runs can (release cfg c claimScope address) s answer s')
    (located : Located cfg s) (safe : Free cfg s c ∨ s.ledger.get? c ≠ none) : Located cfg s' := by
  rcases runs.of_bind with ⟨out, mid, first, record⟩
  have wanes : Wanes s mid := by
    rcases settling_runs (fun _ => dropStaging_plain) first with nothing | ⟨-, wanes⟩
    · rw [nothing.of_ret.2]
      exact wanes_of_tables rfl rfl
    · exact wanes
  refine located.of_recorded wanes record fun absent => ?_
  exact (safe.resolve_right fun known => known absent).mono wanes.1

theorem openPickPolicy_leases (runs : (system γ cfg).Runs can (openPickPolicy c pp) s answer s') :
    ∃ fault, s' = (s.leaseFirst fault pp.itemsTable c).2 := by
  rcases runs.of_perform with ⟨fault, -, runs⟩
  refine ⟨fault, ?_⟩
  split at runs
  · exact runs.of_ret.2
  · exact runs.of_ret.2
  · exact runs.of_ret.2

theorem openClaim_located {intent : Intent}
    (runs : (system γ cfg).Runs can (openClaim cfg c selector intent) s answer s')
    (located : Located cfg s) (opens : Opens cfg s c selector) : Located cfg s' := by
  unfold openClaim at runs
  split at runs
  case h_1 pp policy =>
    rcases runs.of_bind with ⟨out, mid, first, second⟩
    rcases openPickPolicy_leases first with ⟨fault, rfl⟩
    have ledger := leaseFirst_ledger fault pp.itemsTable c s
    refine located.of_opened opens (fun table claimId holds => ?_) ledger ?_
    · rcases leaseFirst_tokens holds with old | ⟨same, at'⟩
      · exact .inl old
      · exact .inr ⟨same, pp, policy, at'.symm⟩
    · split at second
      · rcases second.of_perform with ⟨_, -, second⟩
        exact .inr ⟨_, second.of_ret.2⟩
      · exact .inl second.of_ret.2
  case h_2 =>
    split at runs
    · split at runs
      · rw [runs.of_ret.2]
        exact located
      · rcases runs.of_bind with ⟨out, mid, first, second⟩
        have wanes := wanes_of_quiet (openStaging_quiet c selector) first
        refine located.of_opened opens (fun table claimId holds =>
          .inl (wanes.1 table claimId holds)) wanes.2 ?_
        split at second
        · rcases second.of_perform with ⟨_, -, second⟩
          exact .inr ⟨_, second.of_ret.2⟩
        · exact .inl second.of_ret.2
    · rcases runs.of_perform with ⟨_, -, runs⟩
      exact located.of_opened opens (fun table claimId holds => .inl holds) rfl
        (.inr ⟨_, runs.of_ret.2⟩)

end Calls

structure Attempt (γ : Type) where
  call : Call γ
  faults : List Fault := []

/-- A verb for an item does not fail while the ledger has no record of the claim. -/
def VerbSafe (cfg : Config) (s : State γ) (order : List (String × PickPolicy)) (c : String)
    (claimScope address : RawName) (faults : List Fault) : Prop :=
  order.Perm cfg.pickPolicies ∧ (Free cfg s c ∨ Picked claimScope address ∧
    (s.ledger.get? c = none → ∀ fault ∈ faults, fault = .none))

/--
The calls under which the verbs of the pick policies are reliable: an open is under the one
selector of its claim, a verb sends what the open answered, and as long as a claim holds an item,
no verb of it fails and no release of it is recorded while the ledger has no record of it.
-/
def Allowed (cfg : Config) (s : State γ) (a : Attempt γ) : Prop :=
  match a.call with
  | .open c selector _ => Opens cfg s c selector
  | .commit order c claimScope address => VerbSafe cfg s order c claimScope address a.faults
  | .abandon order c claimScope address => VerbSafe cfg s order c claimScope address a.faults
  | .release c _ _ => Free cfg s c ∨ s.ledger.get? c ≠ none
  | _ => True

def Attempt.Can (a : Attempt γ) (fault : Fault) : Prop := fault ∈ a.faults ∨ fault = .none

theorem VerbSafe.safe {claimScope address : RawName} {a : Attempt γ}
    (safe : VerbSafe cfg s order c claimScope address a.faults) :
    Free cfg s c ∨ Picked claimScope address ∧
      (s.ledger.get? c = none → ∀ fault, a.Can fault → fault = .none) :=
  safe.2.imp id fun safe => ⟨safe.1, fun absent fault can => can.elim (safe.2 absent fault) id⟩

def State.Untouched (s : State γ) : Prop :=
  s.ledger.records = ∅ ∧ ∀ table, ∀ row ∈ (s.tables table).rows, row.claimToken = none

theorem located_of_untouched (cfg : Config) (untouched : s.Untouched) : Located cfg s := by
  have free : ∀ table claimId, ¬s.Holds table claimId := by
    rintro table claimId ⟨row, mem, token⟩
    rw [untouched.2 table row mem] at token
    cases token
  refine ⟨fun _ r mem => ?_, fun claimId table _ _ _ holds => absurd holds (free table claimId),
    fun table _ => free table ""⟩
  rw [ClaimLedger.get?, untouched.1] at mem
  cases mem

/-- The action was applied to the row: it is gone alone, or free again behind all others. -/
def Applied (kind : PickActionKind) (c : String) (table table' : ItemsTable) (row : Item) : Prop :=
  match kind with
  | .pop => ∀ row', row' ∈ table'.rows ↔ row' ∈ table.rows ∧ row'.claimToken ≠ some c
  | .recycle => row ∉ table'.rows ∧ ∃ n, table.nextSequence ≤ n ∧ row.recycled n ∈ table'.rows
  | _ => False

theorem applied_act (valid : validPickAction kind = true) (mem : row ∈ table.rows)
    (token : row.claimToken = some c) : Applied kind c table (table.act kind c) row := by
  cases kind with
  | pop =>
    intro row'
    rw [ItemsTable.act, mem_pop]
    simp [Item.holdsToken]
  | recycle =>
    refine ⟨fun still => ?_, recycled_mem _ mem (by simp [Item.holdsToken, token])⟩
    exact act_releases valid still token
  | _ => simp [validPickAction] at valid

/-- Policies over one table act alike. -/
def Config.ActsAlike (cfg : Config) : Prop :=
  ∀ entry ∈ cfg.pickPolicies, ∀ entry' ∈ cfg.pickPolicies,
    entry.2.itemsTable = entry'.2.itemsTable → ∀ successPath,
      (entry.2.action successPath).kind = (entry'.2.action successPath).kind

def Item.LeasedBy (c : String) (row : Item) : Prop :=
  row.state = .inProgress ∧ row.claimToken = some c

instance (c : String) (row : Item) : Decidable (row.LeasedBy c) :=
  inferInstanceAs (Decidable (_ ∧ _))

def Call.verb? : Call γ → Option (Bool × String)
  | .commit _ c _ _ => some (true, c)
  | .abandon _ c _ _ => some (false, c)
  | _ => none

section Histories

variable [Inhabited γ] {can : Fault → Prop} {order : List (String × PickPolicy)} {c : String}
  {claimScope address : RawName} {s s' : State γ}

def State.attempt (cfg : Config) (s : State γ) (a : Attempt γ) :
    Except StoreError Answer × State γ :=
  (system γ cfg).run (program cfg a.call) a.faults s

def State.step (cfg : Config) (s : State γ) (a : Attempt γ) : Option (State γ) :=
  some (s.attempt cfg a).2

theorem attempt_runs (cfg : Config) (s : State γ) (a : Attempt γ) :
    (system γ cfg).Runs a.Can (program cfg a.call) s (s.attempt cfg a).1 (s.attempt cfg a).2 := by
  have each : ∀ fault ∈ a.faults, a.Can fault := fun _ mem => Or.inl mem
  exact runs_run (S := system γ cfg) _ each (Or.inr rfl) s

theorem Located.step {a : Attempt γ} (located : Located cfg s) (may : Allowed cfg s a) :
    Located cfg (s.attempt cfg a).2 := by
  have runs := attempt_runs cfg s a
  rcases a with ⟨call, faults⟩
  have waned : Wanes s (s.attempt cfg ⟨call, faults⟩).2 → Located cfg _ :=
    fun wanes => located.of_fewer wanes.1 wanes.2
  cases call with
  | «open» c selector intent => exact openClaim_located runs located may
  | commit order c claimScope address =>
    exact (commit_verbRuns runs).located located may.1 (VerbSafe.safe may)
  | abandon order c claimScope address =>
    exact (abandon_verbRuns runs).located located may.1 (VerbSafe.safe may)
  | release c claimScope address => exact release_located runs located may
  | sweep order => exact waned (wanes_of_quiet (sweepOnce_quiet order) runs)
  | insertItems selector items =>
    exact waned (wanes_of_quiet (insertItems_quiet selector items) runs)
  | write | setDependent | tick =>
    refine waned (wanes_of_runs ?_ runs)
    exact ⟨trivial, fun _ => trivial⟩
  | restart =>
    refine located.mono (Fewer.of_tables rfl) fun claimId r mem => ?_
    cases mem

theorem VerbRuns.applies (alike : cfg.ActsAlike) {faults : List Fault}
    (runs : VerbRuns cfg can order c claimScope address successPath s (.ok .done) s')
    (located : Located cfg s) (safe : VerbSafe cfg s order c claimScope address faults)
    (policy : (selector, pp) ∈ cfg.pickPolicies) (listed : row ∈ (s.tables pp.itemsTable).rows)
    (token : row.claimToken = some c) :
    Applied (pp.action successPath).kind c (s.tables pp.itemsTable)
      (s'.tables pp.itemsTable) row := by
  have uses : cfg.Uses pp.itemsTable := ⟨(selector, pp), policy, rfl⟩
  have holds : s.Holds pp.itemsTable c := ⟨row, listed, token⟩
  have picked : Picked claimScope address := (safe.2.resolve_left fun free => free _ uses holds).1
  rcases runs.acts located safe.1 picked uses holds with ⟨selector', pp', policy', same, acted⟩
  rw [acted, alike _ policy' _ policy same successPath]
  exact applied_act (valid_action policy successPath) listed token

/--
After every such history: a `Commit` or an `Abandon` that is answered with success has applied
the policy's action to every item the claim had leased.
-/
theorem verb_applies (alike : cfg.ActsAlike) {start : State γ} (untouched : start.Untouched)
    (run : Reaches (State.step cfg) (Allowed cfg) start s) {a : Attempt γ} (may : Allowed cfg s a)
    {successPath : Bool} (verb : a.call.verb? = some (successPath, c))
    (answered : (s.attempt cfg a).1 = .ok .done) {selector : String} {pp : PickPolicy}
    (policy : (selector, pp) ∈ cfg.pickPolicies) {row : Item}
    (listed : row ∈ (s.tables pp.itemsTable).rows) (leased : row.LeasedBy c) :
    Applied (pp.action successPath).kind c (s.tables pp.itemsTable)
      ((s.attempt cfg a).2.tables pp.itemsTable) row := by
  have located : Located cfg s := by
    refine run.invariant (fun s a t located may taken => ?_) (located_of_untouched cfg untouched)
    cases taken
    exact located.step may
  have runs := attempt_runs cfg s a
  rw [answered] at runs
  rcases a with ⟨call, faults⟩
  cases call with
  | commit order c' claimScope address =>
    cases verb
    exact (commit_verbRuns runs).applies alike located may policy listed leased.2
  | abandon order c' claimScope address =>
    cases verb
    exact (abandon_verbRuns runs).applies alike located may policy listed leased.2
  | _ => cases verb

end Histories

def queueConfig : Config where
  pickPolicies := [("queue", {
    itemsTable := "items", onCommit := { kind := .pop }, onGiveUp := { kind := .recycle }
    visibilityTimeout := 1000 })]
  hash := id

def queueStart : State Nat where
  tables name := if name = "items" then
    ⟨[{ itemId := "i1", payload := "1", sequence := 0 }], 1⟩ else {}
  ledger := .new 1024

def commitItem (faults : List Fault) : Attempt Nat where
  call := .commit queueConfig.pickPolicies "c1" (.name "i1") (.name "i1")
  faults

def failedCommit : List (Attempt Nat) :=
  [{ call := .open "c1" "queue" .rw }, { call := .restart }, commitItem [.none, .fails]]

/-- The second `Commit` is answered with success, and the item stays as it was, in progress. -/
theorem commit_acknowledged_unapplied :
    ∃ s, Reaches (State.step queueConfig) (fun _ _ => True) queueStart s ∧
      (s.attempt queueConfig (commitItem [])).1 = .ok .done ∧
      ∃ row ∈ (s.tables "items").rows, row.LeasedBy "c1" ∧
        row ∈ ((s.attempt queueConfig (commitItem [])).2.tables "items").rows := by
  have run : (runAll (State.step queueConfig) (fun _ _ => True) failedCommit queueStart).any
      fun s => decide ((s.attempt queueConfig (commitItem [])).1 = .ok .done ∧
        ∃ row ∈ (s.tables "items").rows, row.LeasedBy "c1" ∧
          row ∈ ((s.attempt queueConfig (commitItem [])).2.tables "items").rows) := by
    decide +kernel
  rcases exists_reaches_of_runAll run with ⟨s, reached, found⟩
  exact ⟨s, reached, of_decide_eq_true found⟩

def forgottenItem : State Nat :=
  ((queueStart.attempt queueConfig { call := .open "c1" "queue" .rw }).2.attempt queueConfig
    { call := .restart }).2

theorem queueStart_untouched : queueStart.Untouched := by
  refine ⟨rfl, fun table row mem => ?_⟩
  unfold queueStart at mem
  dsimp only at mem
  split at mem
  · cases mem_singleton.mp mem
    rfl
  · cases mem

theorem commit_applied_after_restart :
    ∃ row ∈ (forgottenItem.tables "items").rows, row.LeasedBy "c1" ∧
      Applied .pop "c1" (forgottenItem.tables "items")
        ((forgottenItem.attempt queueConfig (commitItem [])).2.tables "items") row := by
  have opens : Allowed queueConfig queueStart { call := .open "c1" "queue" .rw } := by
    refine ⟨by decide, fun table _ holds => ?_, fun r mem => ?_⟩
    · rcases holds with ⟨row, mem, token⟩
      rw [queueStart_untouched.2 table row mem] at token
      cases token
    · cases mem
  have run : Reaches (State.step queueConfig) (Allowed queueConfig) queueStart forgottenItem :=
    .tail { call := .restart } (.tail _ (.refl _) opens rfl) trivial rfl
  have may : Allowed queueConfig forgottenItem (commitItem []) := by
    refine ⟨List.Perm.refl _, .inr ⟨⟨"i1", rfl, rfl⟩, fun _ fault mem => ?_⟩⟩
    cases mem
  have alike : queueConfig.ActsAlike := by
    intro entry mem entry' mem' _ successPath
    cases mem_singleton.mp mem
    cases mem_singleton.mp mem'
    rfl
  have leased : ∃ row ∈ (forgottenItem.tables "items").rows, row.LeasedBy "c1" := by decide +kernel
  rcases leased with ⟨row, listed, leased⟩
  have answered : (forgottenItem.attempt queueConfig (commitItem [])).1 = .ok .done := by
    decide +kernel
  exact ⟨row, listed, leased, verb_applies alike queueStart_untouched run may rfl answered
    mem_cons_self listed leased⟩

end Rimsky.Postgres
