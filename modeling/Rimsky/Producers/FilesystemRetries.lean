import Rimsky.Producers.Filesystem

/-!
# Verbs that are delivered again

A verb that fails is delivered again until it succeeds. A delivery looks for the lease first, and
the lease is also what the first step of most actions removes: an action that breaks off after that
step is not taken up again. A directory that cannot be listed, a rename into a directory that is
missing and a `drained` that cannot be removed are passed over in silence.
-/

namespace Rimsky.Filesystem

open List

/-- A delivery of a verb: the order of the policies, what fails, and what others do in between. -/
structure Delivery where
  order : List (String × PickPolicy)
  choose : Op → Choice := fun _ => default
  others : Op → State → State := fun _ s => s

def Delivery.execute (d : Delivery) (op : Op) (s : State) : op.Answer × State :=
  Filesystem.execute op (d.choose op) (d.others op s)

def Delivery.runs {α : Type} (d : Delivery) (p : Act α) (s : State) : Except StoreError α × State :=
  p.run.runWith d.execute s

def Config.readers (cfg : Config) (c : Claimant) (pp : PickPolicy) : List Reader :=
  .claim c.claimId ::
    (if c.scope = "" then none else (cfg.wantFolder pp c.scope).map (.scope · c.token)).toList

/-- What there is of a folder: its sentinels, that of its policy, and where it lies. -/
@[ext] structure View where
  leases : Lease → Prop
  available : Prop
  drained : Prop
  lies : String → Prop

/-- A claim with its lease, and a verb for it. -/
structure Holding where
  cfg : Config
  verb : Verb
  claimant : Claimant
  selector : String
  policy : PickPolicy
  known : (selector, policy) ∈ cfg.pickPolicies
  lease : Lease

namespace Holding

variable (x : Holding)

def run (d : Delivery) (s : State) : Except StoreError Unit × State :=
  d.runs (deliver x.cfg x.verb x.claimant d.order) s

/-- The deliveries one after the other: the last one succeeds, and the others fail. -/
def Redelivered : List Delivery → State → State → Prop
  | [], _, _ => False
  | d :: rest, s, t => (x.run d s).1 = .ok () ∧ rest = [] ∧ (x.run d s).2 = t ∨
      (∃ e, (x.run d s).1 = .error e) ∧ Redelivered rest (x.run d s).2 t

abbrev Held (s : State) : Prop := x.lease ∈ s.inProgress x.selector

def view (s : State) : View where
  leases l := l.folder = x.lease.folder ∧ l ∈ s.inProgress x.selector
  available := x.lease.folder ∈ s.available x.selector
  drained := s.drained x.selector = true
  lies dir := x.lease.folder ∈ s.folders dir

/-- The lookups for the claim take no other lease, and there is no second one of the name. -/
structure Alone (s : State) : Prop where
  once : (s.inProgress x.selector).count x.lease ≤ 1
  only : ∀ entry ∈ x.cfg.pickPolicies, ∀ reader ∈ x.cfg.readers x.claimant entry.2,
    ∀ l ∈ s.inProgress entry.1, x.cfg.wants reader l = true → entry.1 = x.selector ∧ l = x.lease

/-- The claim holds the lease: it was opened with it, or has its token and its scope. -/
structure Holds (s : State) : Prop where
  own : x.lease.holder = .claim x.claimant.claimId ∨ x.lease.token.isSome ∧
    x.claimant.token = x.lease.token ∧ x.claimant.scope = x.cfg.scopeOf x.policy x.lease.folder
  there : x.Held s
  lies : x.lease.folder ∈ s.folders x.policy.dir
  alone : x.Alone s

def Same (s t : State) : Prop := x.Alone t ∧ x.view t = x.view s

/-- The delivery goes through all policies, and others leave what is viewed alone. -/
structure Fits (d : Delivery) : Prop where
  order : d.order.Perm x.cfg.pickPolicies
  others : ∀ op s, x.Alone s → x.Same s (d.others op s)

def action : PickAction := x.policy.action x.verb

abbrev remove : Op := .removeInProgress x.selector x.lease

abbrev move : Op :=
  .moveFolder x.selector x.policy.dir x.lease.folder (clean x.action.moveTarget)

abbrev delete : Op := .deleteFolder x.selector x.policy.dir x.lease.folder

abbrev back : Op := .recycle x.selector x.lease

def disposal? : Option Op :=
  match x.action.kind with
  | .popAndMove => some x.move
  | .popAndDelete => some x.delete
  | _ => none

/--
The folder is as after a single delivery without failures; and it was moved or deleted, if the
action says so.
-/
def ActsOnce (s t : State) : Prop :=
  x.view t = x.view (x.run { order := x.cfg.pickPolicies } s).2 ∧
    (x.disposal?.isSome → x.lease.folder ∉ t.folders x.policy.dir)

def Sought : Prop :=
  ∃ reader ∈ x.cfg.readers x.claimant x.policy, x.cfg.wants reader x.lease = true

def Finds (d : Delivery) : Prop :=
  ∃ reader ∈ x.cfg.readers x.claimant x.policy, x.cfg.wants reader x.lease = true ∧
    (d.choose (.readInProgress x.selector reader)).fails = false

def Misses (d : Delivery) : Prop := (d.choose (.checkRoot none)).fails = false ∧ ¬x.Finds d

def Blocked (v : View) : Prop := x.action.kind = .popAndMove ∧ v.lies (clean x.action.moveTarget)

def Stuck (d : Delivery) (v : View) (step : Op) : Prop :=
  (d.choose step).fails = true ∨
    x.action.kind = .popAndMove ∧ (d.choose step).targetMissing = true ∨ x.Blocked v

/-- The lease is removed, and then the folder is not moved or deleted. -/
def Halts (d : Delivery) (v : View) : Prop :=
  (d.choose x.remove).fails = false ∧ ∃ step, x.disposal? = some step ∧ x.Stuck d v step

/-- A recycling goes on although the lease is not moved, or `drained` is not removed. -/
def Slips (d : Delivery) (v : View) : Prop :=
  x.action.kind = .recycle ∧ (d.choose (.stamp x.selector x.lease)).fails = false ∧
    (d.choose x.back).fails = false ∧ ((d.choose x.back).targetMissing = true ∨
      v.drained ∧ (d.choose (.removeDrained x.selector)).fails = true)

abbrev Spoils (d : Delivery) (v : View) : Prop := x.Halts d v ∨ x.Slips d v

/-- The lease is found, and the action is left half done. -/
def Breaks (d : Delivery) (v : View) : Prop :=
  (d.choose (.checkRoot none)).fails = false ∧ x.Finds d ∧
    (d.choose (.checkRoot (some (x.selector, x.lease)))).fails = false ∧ x.Spoils d v

/--
If the lookups can find the lease, no delivery misses it, and none leaves the action half done; if
they cannot, the action neither moves nor deletes the folder.
-/
def Steady (deliveries : List Delivery) (v : View) : Prop :=
  (x.Sought → ∀ d ∈ deliveries, ¬x.Misses d ∧ ¬x.Breaks d v) ∧ (¬x.Sought → x.disposal? = none)

variable {x} {d : Delivery} {s t : State}

theorem runs_bind {α β : Type} (p : Act α) (next : α → Act β) (s : State) :
    d.runs (p >>= next) s = match d.runs p s with
      | (.ok a, t) => d.runs (next a) t
      | (.error e, t) => (.error e, t) := by
  have split : d.runs (p >>= next) s =
      (ExceptT.bindCont next (d.runs p s).1).runWith d.execute (d.runs p s).2 :=
    Program.runWith_bind _ _ _ _
  rw [split]
  rcases d.runs p s with ⟨_ | a, t⟩
  · rfl
  · rfl

theorem runs_perform {β : Type} (op : Op) (next : op.Answer → Act β) (s : State) :
    d.runs (perform op >>= next) s = d.runs (next (d.execute op s).1) (d.execute op s).2 := rfl

theorem Same.trans {u : State} (first : x.Same s t) (second : x.Same t u) : x.Same s u :=
  ⟨second.1, second.2.trans first.2⟩

theorem held_iff : (x.view s).leases x.lease ↔ x.Held s := by
  simp [view]

theorem Same.held (same : x.Same s t) : x.Held t ↔ x.Held s := by
  rw [← held_iff, ← held_iff, same.2]

def Shows (x : Holding) (d : Delivery) (reader : PickPolicy → Option Reader) (s : State) : Prop :=
  x.Held s ∧ ∃ reading, reader x.policy = some reading ∧ x.cfg.wants reading x.lease = true ∧
    (d.choose (.readInProgress x.selector reading)).fails = false

theorem Same.shows {reader : PickPolicy → Option Reader} (same : x.Same s t) :
    x.Shows d reader t ↔ x.Shows d reader s := by
  rw [Shows, Shows, same.held]

theorem Same.refl (alone : x.Alone s) : x.Same s s := ⟨alone, rfl⟩

theorem fits_of_order (choose : Op → Choice) : x.Fits { order := x.cfg.pickPolicies, choose } :=
  ⟨.refl _, fun _ _ alone => .refl alone⟩

theorem Alone.of_inProgress (alone : x.Alone s) (same : t.inProgress = s.inProgress) :
    x.Alone t := by
  constructor
  · rw [same]
    exact alone.once
  · rw [same]
    exact alone.only

def without (x : Holding) (v : View) : View :=
  { v with leases := fun l => v.leases l ∧ l ≠ x.lease }

def acted (x : Holding) (v : View) : View where
  leases l := v.leases l ∧ l ≠ x.lease
  available := v.available ∨ x.action.kind = .recycle
  drained := v.drained ∧ x.action.kind ≠ .recycle
  lies dir := v.lies dir ∧ (dir = x.policy.dir → x.disposal? = none) ∨
    x.action.kind = .popAndMove ∧ dir = clean x.action.moveTarget

/-- What a half done action leaves: the folder without its lease, or a sentinel too many. -/
def Spoilt (x : Holding) (v v' : View) : Prop :=
  x.disposal?.isSome ∧ v' = x.without v ∨
    x.action.kind = .recycle ∧ (v'.leases x.lease ∨ v'.drained)

/-- An operation fails and the folder is left alone, or the verb acts, or it is left half done. -/
def Outcome (x : Holding) (d : Delivery) (v : View) (spoils : Prop) (r : Except StoreError Unit)
    (v' : View) : Prop :=
  ¬spoils ∧ (∃ e, r = .error e) ∧ v' = v ∧ (∃ op, (d.choose op).fails = true) ∨
    ¬spoils ∧ r = .ok () ∧ v' = x.acted v ∧ ¬x.Blocked v ∨
      spoils ∧ x.Spoilt v v' ∧ (x.disposal? = none → r = .ok ())

theorem mem_takeLease (alone : x.Alone s) {l : Lease} :
    l ∈ (s.inProgress x.selector).erase x.lease ↔ l ∈ s.inProgress x.selector ∧ l ≠ x.lease := by
  constructor
  · refine fun mem => ⟨mem_of_mem_erase mem, ?_⟩
    rintro rfl
    have once := alone.once
    have some := count_pos_iff.mpr mem
    rw [count_erase_self] at some
    omega
  · rintro ⟨mem, ne⟩
    exact (mem_erase_of_ne ne).mpr mem

theorem Alone.takeLease (alone : x.Alone s) : x.Alone (s.takeLease x.selector x.lease) := by
  constructor
  · simp only [State.takeLease, put, if_true]
    exact (erase_sublist.count_le _).trans alone.once
  · intro entry mem reader reads l there wants
    refine alone.only entry mem reader reads l ?_ wants
    simp only [State.takeLease, put] at there
    split at there
    case isTrue same => exact same ▸ mem_of_mem_erase there
    case isFalse => exact there

theorem view_takeFolder (s : State) (dir : String) :
    x.view (s.takeFolder dir x.lease.folder) =
      { x.view s with lies := fun other => (x.view s).lies other ∧ other ≠ dir } := by
  refine View.ext rfl rfl rfl (funext fun other => propext ?_)
  simp only [view, State.takeFolder, State.setFolders, put]
  split
  case isTrue same => simp [same]
  case isFalse ne => simp [ne]

theorem view_setFolders (s : State) (dir : String) (names : List String) :
    x.view (s.setFolders dir (x.lease.folder :: names)) =
      { x.view s with lies := fun other => other = dir ∨ (x.view s).lies other } := by
  refine View.ext rfl rfl rfl (funext fun other => propext ?_)
  simp only [view, State.setFolders, put]
  split
  case isTrue same => simp [same]
  case isFalse ne => simp [ne]

section Fits

variable (fits : x.Fits d) (alone : x.Alone s)

include fits alone

theorem checkRootAvailable_runs (found : Option (String × Lease)) :
    ∃ t, x.Same s t ∧ d.runs (checkRootAvailable found) s =
      (if (d.choose (.checkRoot found)).fails then .error .rootUnavailable else .ok (), t) := by
  refine ⟨d.others (.checkRoot found) s, fits.others _ s alone, ?_⟩
  rw [checkRootAvailable, runs_perform]
  simp only [Delivery.execute, Filesystem.execute, query]
  cases (d.choose (.checkRoot found)).fails with
  | true => rfl
  | false => rfl

theorem findIn_runs (reader : PickPolicy → Option Reader)
    (reads : ∀ pp reading, reader pp = some reading → reading ∈ x.cfg.readers x.claimant pp)
    {order : List (String × PickPolicy)} (within : order ⊆ x.cfg.pickPolicies) :
    ∃ found t, d.runs (findIn x.cfg reader order) s = (.ok found, t) ∧ x.Same s t ∧
      (found = some (x.selector, x.policy, x.lease) ∧ x.Shows d reader s ∨
        found = none ∧ ((x.selector, x.policy) ∈ order → ¬x.Shows d reader s)) := by
  induction order generalizing s with
  | nil => exact ⟨none, s, rfl, .refl alone, .inr ⟨rfl, by simp⟩⟩
  | cons entry rest ih =>
    obtain ⟨selector, pp⟩ := entry
    have here : (selector, pp) ∈ x.cfg.pickPolicies := within mem_cons_self
    -- what the rest of the policies comes to, if this one does not show the lease
    have later : ∀ t, x.Same s t → ((x.selector, x.policy) = (selector, pp) → ¬x.Shows d reader s) →
        ∃ found u, d.runs (findIn x.cfg reader rest) t = (.ok found, u) ∧ x.Same s u ∧
          (found = some (x.selector, x.policy, x.lease) ∧ x.Shows d reader s ∨ found = none ∧
            ((x.selector, x.policy) ∈ (selector, pp) :: rest → ¬x.Shows d reader s)) := by
      intro t same hidden
      rcases ih same.1 (fun entry mem => within (mem_cons_of_mem _ mem)) with
        ⟨found, u, run, same', outcome⟩
      refine ⟨found, u, run, same.trans same', ?_⟩
      rw [same.shows] at outcome
      refine outcome.imp_right (And.imp_right fun missing mem => ?_)
      rcases mem_cons.mp mem with head | mem
      · exact hidden head
      · exact missing mem
    unfold findIn
    split
    case h_1 unread =>
      refine later s (.refl alone) ?_
      rintro head ⟨-, reading, reads, -⟩
      cases head
      rw [unread] at reads
      cases reads
    case h_2 reading read =>
    have same := fits.others (.readInProgress selector reading) s alone
    rw [runs_perform]
    simp only [Delivery.execute, Filesystem.execute, query]
    cases fails : (d.choose (.readInProgress selector reading)).fails with
    | true =>
      refine later _ same ?_
      rintro head ⟨-, reading', reads', -, succeeds⟩
      cases head
      rw [read] at reads'
      cases reads'
      rw [fails] at succeeds
      cases succeeds
    | false =>
      simp only [Bool.false_eq_true, if_false, Except.toOption, Option.bind_some]
      cases found : ((d.others (.readInProgress selector reading) s).inProgress selector).find?
        (x.cfg.wants reading) with
      | none =>
        refine later _ same ?_
        rintro head ⟨there, reading', reads', wants, -⟩
        cases head
        rw [read] at reads'
        cases reads'
        exact find?_eq_none.mp found _ (same.held.mpr there) wants
      | some l =>
        have wants := find?_some found
        have mem := mem_of_find?_eq_some found
        rcases same.1.only _ here reading (reads pp reading read) l mem wants with ⟨rfl, rfl⟩
        have only : pp = x.policy := by
          have entry := inj_on_of_nodup_map x.cfg.distinct here x.known rfl
          exact congrArg Prod.snd entry
        subst only
        exact ⟨_, _, rfl, same, .inl ⟨rfl, same.held.mp mem, reading, read, wants, fails⟩⟩

theorem findLease_runs :
    ∃ found t, d.runs (findLease x.cfg x.claimant d.order) s = (.ok found, t) ∧ x.Same s t ∧
      (found = some (x.selector, x.policy, x.lease) ∧ x.Held s ∧ x.Finds d ∨
        found = none ∧ (x.Held s → ¬x.Finds d)) := by
  have mem := fits.order.mem_iff.mpr x.known
  rcases findIn_runs fits alone (fun _ => some (.claim x.claimant.claimId))
    (by simp [Config.readers]) fits.order.subset with ⟨found, t, byClaim, same, outcome⟩
  simp only [findLease, findByClaimID, runs_bind, byClaim]
  rcases outcome with ⟨rfl, there, reading, reads, wants, lists⟩ | ⟨rfl, hidden⟩
  · cases reads
    exact ⟨_, t, rfl, same, .inl ⟨rfl, there, _, by simp [Config.readers], wants, lists⟩⟩
  rcases findIn_runs fits same.1 (fun pp => if x.claimant.scope = "" then none
      else (x.cfg.wantFolder pp x.claimant.scope).map (.scope · x.claimant.token))
    (fun pp reading reads => mem_cons_of_mem _ (Option.mem_toList.mpr reads))
    fits.order.subset with ⟨found, u, byScope, same', outcome⟩
  refine ⟨found, u, byScope, same.trans same', ?_⟩
  rw [same.shows] at outcome
  rcases outcome with ⟨rfl, there, reading, reads, wants, lists⟩ | ⟨rfl, hidden'⟩
  · exact .inl ⟨rfl, there, reading, mem_cons_of_mem _ (Option.mem_toList.mpr reads), wants, lists⟩
  · refine .inr ⟨rfl, ?_⟩
    rintro there ⟨reading, reads, wants, lists⟩
    rcases mem_cons.mp reads with rfl | reads
    · exact hidden mem ⟨there, _, rfl, wants, lists⟩
    · exact hidden' mem ⟨there, _, Option.mem_toList.mp reads, wants, lists⟩

theorem removeDrained_executes :
    x.Alone (d.execute (.removeDrained x.selector) s).2 ∧
      x.view (d.execute (.removeDrained x.selector) s).2 =
        { x.view s with drained := (x.view s).drained ∧
            (d.choose (.removeDrained x.selector)).fails = true } := by
  have same := fits.others (.removeDrained x.selector) s alone
  rw [← same.2]
  simp only [Delivery.execute, Filesystem.execute, change, missing]
  cases fails : (d.choose (.removeDrained x.selector)).fails with
  | true => exact ⟨same.1, by simp⟩
  | false =>
    cases drained : (d.others (.removeDrained x.selector) s).drained x.selector with
    | true => exact ⟨same.1.of_inProgress rfl, by simp [view, put]⟩
    | false => exact ⟨same.1, by simp [view, drained]⟩

section Apply

variable (there : x.Held s)

include there

theorem removeInProgress_executes :
    ∃ t, x.Alone t ∧
      ((d.choose x.remove).fails = true ∧ x.view t = x.view s ∧
          d.execute x.remove s = (.error .failed, t) ∨
        (d.choose x.remove).fails = false ∧ x.view t = x.without (x.view s) ∧
          d.execute x.remove s = (.ok (), t)) := by
  have same := fits.others x.remove s alone
  have there := same.held.mpr there
  simp only [Delivery.execute, Filesystem.execute, change, missing, there, decide_true, if_true]
  cases fails : (d.choose x.remove).fails with
  | true => exact ⟨_, same.1, .inl ⟨rfl, same.2, rfl⟩⟩
  | false =>
    refine ⟨_, same.1.takeLease, .inr ⟨rfl, ?_, rfl⟩⟩
    rw [← same.2]
    simp only [view, without, State.takeLease, put, if_true, mem_takeLease same.1, and_assoc]

theorem recycle_executes :
    ∃ t, x.Alone t ∧
      ((d.choose x.back).fails = true ∧ x.view t = x.view s ∧
          d.execute x.back s = (.error .failed, t) ∨
        (d.choose x.back).fails = false ∧ (d.choose x.back).targetMissing = true ∧
            x.view t = x.view s ∧ d.execute x.back s = (.error .notExist, t) ∨
          (d.choose x.back).fails = false ∧ (d.choose x.back).targetMissing = false ∧
            x.view t = { x.without (x.view s) with available := True } ∧
            d.execute x.back s = (.ok (), t)) := by
  have same := fits.others x.back s alone
  have there := same.held.mpr there
  simp only [Delivery.execute, Filesystem.execute, change, missing, there, decide_true,
    Bool.true_and]
  cases (d.choose x.back).fails with
  | true => exact ⟨_, same.1, .inl ⟨rfl, same.2, rfl⟩⟩
  | false =>
    cases (d.choose x.back).targetMissing with
    | true => exact ⟨_, same.1, .inr (.inl ⟨rfl, rfl, same.2, rfl⟩)⟩
    | false =>
      refine ⟨_, ?_, .inr (.inr ⟨rfl, rfl, ?_, rfl⟩)⟩
      · exact same.1.takeLease.of_inProgress rfl
      rw [← same.2]
      simp only [view, without, State.takeLease, State.takeAvailable, State.addAvailable, put,
        if_true, mem_takeLease same.1, and_assoc, mem_cons, true_or]

theorem dispose_runs {step : Op} (isStep : x.disposal? = some step) {rest : Act Unit}
    (disposes : ∀ t, x.Alone t → x.view t = x.without (x.view s) →
      ∃ r u, d.runs rest t = (r, u) ∧ x.Alone u ∧
        (x.Stuck d (x.view s) step ∧ x.view u = x.without (x.view s) ∨
          ¬x.Stuck d (x.view s) step ∧ r = .ok () ∧ x.view u = x.acted (x.view s))) :
    ∃ r u, d.runs (do orMissing (← perform x.remove); rest) s = (r, u) ∧
      x.Alone u ∧ x.Outcome d (x.view s) (x.Spoils d (x.view s)) r (x.view u) := by
  have straight : ¬x.Slips d (x.view s) := by
    rintro ⟨recycles, -⟩
    simp [disposal?, recycles] at isStep
  rcases removeInProgress_executes fits alone there with
    ⟨t, alone', ⟨fails, same, run⟩ | ⟨fine, gone, run⟩⟩
  · rw [runs_perform, run]
    refine ⟨_, t, rfl, alone', .inl ⟨?_, ⟨_, rfl⟩, same, _, fails⟩⟩
    simp [Spoils, straight, Halts, fails]
  · rw [runs_perform, run]
    rcases disposes t alone' gone with ⟨r, u, run, alone', ⟨stuck, left⟩ | ⟨free, ok, acted⟩⟩
    · refine ⟨r, u, run, alone', .inr (.inr ⟨.inl ⟨fine, step, isStep, stuck⟩, ?_⟩)⟩
      exact ⟨.inl ⟨by simp [isStep], left⟩, by simp [isStep]⟩
    · refine ⟨r, u, run, alone',
        .inr (.inl ⟨?_, ok, acted, fun blocked => free (.inr (.inr blocked))⟩)⟩
      rintro (⟨-, step', isStep', stuck⟩ | slips)
      · rw [isStep] at isStep'
        cases isStep'
        exact free stuck
      · exact straight slips

/-- After the sentinel was stamped: it is renamed, and `drained` is removed. -/
theorem recycle_runs (kind : x.action.kind = .recycle)
    (stamped : (d.choose (.stamp x.selector x.lease)).fails = false) :
    ∃ r t, d.runs (do
        orMissing (← perform x.back)
        let _ ← perform (.removeDrained x.selector)) s = (r, t) ∧ x.Alone t ∧
      x.Outcome d (x.view s) (x.Spoils d (x.view s)) r (x.view t) := by
  have noStep : x.disposal? = none := by simp [disposal?, kind]
  have spoils : x.Spoils d (x.view s) ↔ x.Slips d (x.view s) := by simp [Spoils, Halts, noStep]
  have free : ¬x.Blocked (x.view s) := by simp [Blocked, kind]
  rw [spoils, runs_perform]
  rcases recycle_executes fits alone there with
    ⟨t, alone', ⟨fails, same, run⟩ | ⟨fine, missing, same, run⟩ | ⟨fine, found, back, run⟩⟩
  · rw [run]
    exact ⟨_, t, rfl, alone', .inl ⟨by simp [Slips, fails], ⟨_, rfl⟩, same, _, fails⟩⟩
  · -- the lease stays where it is, and the verb goes on
    rw [run]
    rcases removeDrained_executes fits alone' with ⟨alone', left⟩
    refine ⟨.ok (), _, rfl, alone', .inr (.inr ⟨⟨kind, stamped, fine, .inl missing⟩, ?_, by simp⟩)⟩
    refine .inr ⟨kind, .inl ?_⟩
    rw [left, same]
    exact held_iff.mpr there
  · rw [run]
    rcases removeDrained_executes fits alone' with ⟨alone', left⟩
    refine ⟨.ok (), _, rfl, alone', ?_⟩
    rw [left, back]
    by_cases slips : x.Slips d (x.view s)
    · rcases slips.2.2.2 with missing | drained
      · rw [found] at missing
        cases missing
      · exact .inr (.inr ⟨slips, .inr ⟨kind, .inr drained⟩, by simp⟩)
    · refine .inr (.inl ⟨slips, rfl, ?_, free⟩)
      have removed : (x.view s).drained →
          (d.choose (.removeDrained x.selector)).fails = false := by
        intro drained
        simpa [Slips, kind, stamped, fine, found, drained] using slips
      have clear : ((x.view s).drained ∧ (d.choose (.removeDrained x.selector)).fails = true) ↔
          ((x.view s).drained ∧ x.action.kind ≠ .recycle) := by
        simp only [kind, ne_eq, not_true_eq_false, and_false, iff_false, not_and,
          Bool.not_eq_true]
        exact removed
      simp [acted, without, kind, noStep, clear]

theorem applyPickAction_runs (lies : (x.view s).lies x.policy.dir) :
    ∃ r t, d.runs (applyPickAction x.policy x.selector x.lease x.action) s = (r, t) ∧ x.Alone t ∧
      x.Outcome d (x.view s) (x.Spoils d (x.view s)) r (x.view t) := by
  unfold applyPickAction
  split
  case h_1 kind =>
    have noStep : x.disposal? = none := by simp [disposal?, kind]
    have goesOn : ¬x.Spoils d (x.view s) := by simp [Spoils, Halts, Slips, noStep, kind]
    rcases removeInProgress_executes fits alone there with
      ⟨t, alone', ⟨fails, same, run⟩ | ⟨-, gone, run⟩⟩
    · rw [runs_perform, run]
      exact ⟨_, t, rfl, alone', .inl ⟨goesOn, ⟨_, rfl⟩, same, _, fails⟩⟩
    · rw [runs_perform, run]
      refine ⟨_, t, rfl, alone', .inr (.inl ⟨goesOn, rfl, ?_, by simp [Blocked, kind]⟩)⟩
      rw [gone]
      simp [acted, without, kind, noStep]
  case h_2 kind =>
    have isStep : x.disposal? = some x.move := by simp [disposal?, kind]
    refine dispose_runs fits alone there isStep fun t alone gone => ?_
    have same := fits.others x.move t alone
    rw [runs_perform]
    simp only [Delivery.execute, Filesystem.execute]
    generalize d.others (.moveFolder _ _ _ _) t = u at same ⊢
    have left := same.2.trans gone
    have here : x.lease.folder ∈ u.folders x.policy.dir :=
      (congrFun (congrArg View.lies left) x.policy.dir).mpr lies
    have occupied : x.lease.folder ∈ u.folders (clean x.action.moveTarget) ↔
        (x.view s).lies (clean x.action.moveTarget) :=
      iff_of_eq (congrFun (congrArg View.lies left) (clean x.action.moveTarget))
    simp only [change, here, not_true_eq_false, false_or]
    cases fails : (d.choose x.move).fails with
    | true => exact ⟨_, _, rfl, same.1, .inl ⟨.inl fails, left⟩⟩
    | false =>
      cases absent : (d.choose x.move).targetMissing with
      | true => exact ⟨_, _, rfl, same.1, .inl ⟨.inr (.inl ⟨kind, absent⟩), left⟩⟩
      | false =>
        by_cases taken : x.lease.folder ∈ u.folders (clean x.action.moveTarget)
        · simp only [taken, if_true, Bool.false_eq_true, if_false]
          exact ⟨_, _, rfl, same.1, .inl ⟨.inr (.inr ⟨kind, occupied.mp taken⟩), left⟩⟩
        · simp only [taken, Bool.false_eq_true, if_false]
          refine ⟨_, _, rfl, same.1.of_inProgress rfl, .inr ⟨?_, rfl, ?_⟩⟩
          · simpa [Stuck, Blocked, fails, absent, kind] using fun lies => taken (occupied.mpr lies)
          · rw [view_setFolders, view_takeFolder, left]
            simp [acted, without, kind, isStep, or_comm]
  case h_3 kind =>
    have isStep : x.disposal? = some x.delete := by simp [disposal?, kind]
    refine dispose_runs fits alone there isStep fun t alone gone => ?_
    have same := fits.others x.delete t alone
    rw [runs_perform]
    simp only [Delivery.execute, Filesystem.execute, change]
    cases fails : (d.choose x.delete).fails with
    | true => exact ⟨_, _, rfl, same.1, .inl ⟨.inl fails, same.2.trans gone⟩⟩
    | false =>
      simp only [Bool.false_eq_true, if_false]
      refine ⟨_, _, rfl, same.1.of_inProgress rfl,
        .inr ⟨by simp [Stuck, Blocked, fails, kind], rfl, ?_⟩⟩
      rw [view_takeFolder, same.2.trans gone]
      simp [acted, without, kind, isStep]
  case h_4 kind =>
    have stamped := fits.others (.stamp x.selector x.lease) s alone
    have stamp : d.execute (.stamp x.selector x.lease) s =
        (if (d.choose (.stamp x.selector x.lease)).fails then .error .failed else .ok (),
          d.others (.stamp x.selector x.lease) s) := by
      simp only [Delivery.execute, Filesystem.execute, change, missing, stamped.held.mpr there,
        decide_true, if_true]
      split <;> rfl
    rw [runs_perform, stamp]
    split
    case isTrue fails =>
      refine ⟨_, _, rfl, stamped.1, .inl ⟨?_, ⟨_, rfl⟩, stamped.2, _, fails⟩⟩
      simp [Spoils, Halts, Slips, fails, disposal?, kind]
    case isFalse fine =>
      rw [← stamped.2]
      exact recycle_runs fits stamped.1 (stamped.held.mpr there) kind (by simpa using fine)

end Apply

theorem run_outcome (holds : x.Holds s) :
    x.Alone (x.run d s).2 ∧
      (x.Misses d ∧ (x.run d s).1 = .ok () ∧ x.view (x.run d s).2 = x.view s ∨
        ¬x.Misses d ∧
          x.Outcome d (x.view s) (x.Breaks d (x.view s)) (x.run d s).1 (x.view (x.run d s).2)) := by
  rcases checkRootAvailable_runs fits alone none with ⟨t, same, root⟩
  rw [run, deliver, runs_bind, root]
  cases fails : (d.choose (.checkRoot none)).fails with
  | true =>
    exact ⟨same.1, .inr ⟨by simp [Misses, fails], .inl ⟨by simp [Breaks, fails], ⟨_, rfl⟩, same.2,
      _, fails⟩⟩⟩
  | false =>
    simp only [Bool.false_eq_true, if_false]
    rcases findLease_runs fits same.1 with ⟨found, u, look, same', outcome⟩
    rw [runs_bind, look]
    have seen := same.trans same'
    rcases outcome with ⟨rfl, there, finds⟩ | ⟨rfl, hidden⟩
    · have caught : ¬x.Misses d := fun misses => misses.2 finds
      rcases checkRootAvailable_runs fits seen.1 (some (x.selector, x.lease)) with ⟨v, same'', root⟩
      simp only [runs_bind, root]
      have kept := seen.trans same''
      cases again : (d.choose (.checkRoot (some (x.selector, x.lease)))).fails with
      | true =>
        exact ⟨kept.1, .inr ⟨caught, .inl ⟨by simp [Breaks, again], ⟨_, rfl⟩, kept.2, _, again⟩⟩⟩
      | false =>
        simp only [Bool.false_eq_true, if_false]
        have lies : (x.view v).lies x.policy.dir := by
          rw [kept.2]
          exact holds.lies
        rcases applyPickAction_runs fits kept.1 (kept.held.mpr holds.there) lies with
          ⟨r, w, act, alone', outcome⟩
        rw [kept.2] at outcome
        have breaks : x.Breaks d (x.view s) ↔ x.Spoils d (x.view s) := by
          simp [Breaks, fails, again, finds]
        rw [breaks]
        exact act ▸ ⟨alone', .inr ⟨caught, outcome⟩⟩
    · have misses : x.Misses d := ⟨fails, hidden (same.held.mpr holds.there)⟩
      exact ⟨seen.1, .inl ⟨misses, rfl, seen.2⟩⟩

theorem run_same (hidden : x.Held s → ¬x.Sought) : x.Same s (x.run d s).2 := by
  rcases checkRootAvailable_runs fits alone none with ⟨t, same, root⟩
  rw [run, deliver, runs_bind, root]
  cases fails : (d.choose (.checkRoot none)).fails with
  | true => exact same
  | false =>
    simp only [Bool.false_eq_true, if_false]
    rcases findLease_runs fits same.1 with ⟨found, u, look, same', found⟩
    rw [runs_bind, look]
    rcases found with ⟨-, there, reader, reads, wants, -⟩ | ⟨rfl, -⟩
    · exact absurd ⟨reader, reads, wants⟩ (hidden (same.held.mp there))
    · exact same.trans same'

end Fits

variable {deliveries : List Delivery}

theorem Redelivered.same (run : x.Redelivered deliveries s t) (fits : ∀ d ∈ deliveries, x.Fits d)
    (alone : x.Alone s) (hidden : x.Held s → ¬x.Sought) : x.view t = x.view s := by
  induction deliveries generalizing s with
  | nil => exact run.elim
  | cons d rest ih =>
    have same := run_same (fits d mem_cons_self) alone hidden
    rcases run with ⟨-, -, rfl⟩ | ⟨-, run⟩
    · exact same.2
    · have later := ih run (fun d mem => fits d (mem_cons_of_mem _ mem)) same.1
        fun there => hidden (same.held.mp there)
      exact later.trans same.2

theorem Holds.same (holds : x.Holds s) (same : x.Same s t) : x.Holds t :=
  ⟨holds.own, same.held.mpr holds.there,
    (congrFun (congrArg View.lies same.2) x.policy.dir).mpr holds.lies, same.1⟩

theorem Redelivered.outcome (run : x.Redelivered deliveries s t) (fits : ∀ d ∈ deliveries, x.Fits d)
    (holds : x.Holds s) :
    (∃ d ∈ deliveries, x.Misses d) ∧ x.view t = x.view s ∨
      (∀ d ∈ deliveries, ¬x.Misses d ∧ ¬x.Breaks d (x.view s)) ∧ x.view t = x.acted (x.view s) ∧
          ¬x.Blocked (x.view s) ∨
        (∃ d ∈ deliveries, x.Breaks d (x.view s)) ∧ x.Spoilt (x.view s) (x.view t) := by
  induction deliveries generalizing s with
  | nil => exact run.elim
  | cons d rest ih =>
    have fits' : ∀ d ∈ rest, x.Fits d := fun d mem => fits d (mem_cons_of_mem _ mem)
    rcases run_outcome (fits d mem_cons_self) holds.alone holds with
      ⟨alone, ⟨misses, ok, same⟩ | ⟨caught, outcome⟩⟩
    · rcases run with ⟨-, -, rfl⟩ | ⟨⟨e, error⟩, -⟩
      · exact .inl ⟨⟨d, mem_cons_self, misses⟩, same⟩
      · rw [ok] at error
        cases error
    rcases outcome with
      ⟨goesOn, ⟨e, error⟩, same, -⟩ | ⟨goesOn, ok, acts, free⟩ | ⟨breaks, spoilt, silent⟩
    · rcases run with ⟨ok, -, -⟩ | ⟨-, run⟩
      · rw [error] at ok
        cases ok
      have later := ih run fits' (holds.same ⟨alone, same⟩)
      rw [same] at later
      rcases later with
        ⟨⟨d', mem, misses⟩, kept⟩ | ⟨steady, acts, free⟩ | ⟨⟨d', mem, breaks⟩, spoilt⟩
      · exact .inl ⟨⟨d', mem_cons_of_mem _ mem, misses⟩, kept⟩
      · exact .inr (.inl ⟨forall_mem_cons.mpr ⟨⟨caught, goesOn⟩, steady⟩, acts, free⟩)
      · exact .inr (.inr ⟨⟨d', mem_cons_of_mem _ mem, breaks⟩, spoilt⟩)
    · rcases run with ⟨-, rfl, rfl⟩ | ⟨⟨e, error⟩, -⟩
      · exact .inr (.inl ⟨forall_mem_cons.mpr ⟨⟨caught, goesOn⟩, by simp⟩, acts, free⟩)
      · rw [ok] at error
        cases error
    · refine .inr (.inr ⟨⟨d, mem_cons_self, breaks⟩, ?_⟩)
      rcases run with ⟨-, -, rfl⟩ | ⟨⟨e, error⟩, run⟩
      · exact spoilt
      rcases spoilt with ⟨isStep, gone⟩ | ⟨recycles, -⟩
      · -- the lease is gone, so the later deliveries do nothing
        have unheld : ¬x.Held (x.run d s).2 := by
          rw [← held_iff, gone]
          simp [without]
        exact .inl ⟨isStep, (run.same fits' alone fun there => absurd there unheld).trans gone⟩
      · rw [silent (by simp [disposal?, recycles])] at error
        cases error

theorem run_reference (holds : x.Holds s) (sought : x.Sought) :
    ¬x.Blocked (x.view s) ∧
        x.view (x.run { order := x.cfg.pickPolicies } s).2 = x.acted (x.view s) ∨
      x.Blocked (x.view s) ∧
        x.view (x.run { order := x.cfg.pickPolicies } s).2 = x.without (x.view s) := by
  rcases sought with ⟨reader, reads, wants⟩
  rcases run_outcome (fits_of_order fun _ => default) holds.alone holds with
    ⟨-, ⟨misses, -⟩ | ⟨-, ⟨-, -, -, op, fails⟩ | ⟨-, -, acted, free⟩ | ⟨breaks, spoilt, -⟩⟩⟩
  · exact absurd ⟨reader, reads, wants, rfl⟩ misses.2
  · cases fails
  · exact .inl ⟨free, acted⟩
  · rcases breaks with ⟨-, -, -, ⟨-, step, isStep, fails | ⟨-, absent⟩ | blocked⟩ | slips⟩
    · cases fails
    · cases absent
    · rcases spoilt with ⟨-, gone⟩ | ⟨recycles, -⟩
      · exact .inr ⟨blocked, gone⟩
      · simp [disposal?, recycles] at isStep
    · rcases slips with ⟨-, -, -, absent | ⟨-, fails⟩⟩
      · cases absent
      · cases fails

end Holding

/--
A verb that is delivered until it succeeds acts exactly once if and only if no delivery misses the
lease because a directory could not be listed, and none leaves the action half done.
-/
theorem actsOnce_iff (x : Holding) {s t : State} (holds : x.Holds s) {deliveries : List Delivery}
    (fits : ∀ d ∈ deliveries, x.Fits d) (run : x.Redelivered deliveries s t) :
    x.ActsOnce s t ↔ x.Steady deliveries (x.view s) := by
  have lies : (x.view s).lies x.policy.dir := holds.lies
  by_cases sought : x.Sought
  · have reference := Holding.run_reference holds sought
    constructor
    · rintro ⟨same, disposed⟩
      refine ⟨fun _ => ?_, fun unsought => absurd sought unsought⟩
      rcases run.outcome fits holds with
        ⟨-, kept⟩ | ⟨steady, -⟩ | ⟨-, ⟨isStep, gone⟩ | ⟨recycles, left⟩⟩
      · -- the lease is still there
        have held := Holding.held_iff.mpr holds.there
        rw [← kept, same] at held
        rcases reference with ⟨-, acted⟩ | ⟨-, gone⟩
        · rw [acted] at held
          exact absurd rfl held.2
        · rw [gone] at held
          exact absurd rfl held.2
      · exact steady
      · -- the folder is still there
        have still : (x.view t).lies x.policy.dir := by
          rw [gone]
          exact lies
        exact absurd still (disposed isStep)
      · -- a sentinel is left that a delivery without failures removes
        rcases reference with ⟨-, acted⟩ | ⟨⟨moves, -⟩, -⟩
        · rw [same, acted] at left
          simp [Holding.acted, recycles] at left
        · rw [recycles] at moves
          cases moves
    · rintro ⟨steady, -⟩
      rcases run.outcome fits holds with
        ⟨⟨d, mem, misses⟩, -⟩ | ⟨-, acts, free⟩ | ⟨⟨d, mem, breaks⟩, -⟩
      · exact absurd misses (steady sought d mem).1
      · refine ⟨?_, fun isStep still => ?_⟩
        · rcases reference with ⟨-, acted⟩ | ⟨blocked, -⟩
          · rw [acts, acted]
          · exact absurd blocked free
        · have still : (x.view t).lies x.policy.dir := still
          rw [acts] at still
          rcases still with ⟨-, noStep⟩ | ⟨move, target⟩
          · simp [noStep rfl] at isStep
          · exact free ⟨move, target ▸ lies⟩
      · exact absurd breaks (steady sought d mem).2
  · have kept := run.same fits holds.alone fun _ => sought
    have reference := Holding.run_same (Holding.fits_of_order fun _ => default) holds.alone fun _ =>
      sought
    have still : x.lease.folder ∈ t.folders x.policy.dir :=
      (congrFun (congrArg View.lies kept) x.policy.dir).mpr lies
    simp only [Holding.ActsOnce, Holding.Steady, kept, reference.2, sought, still]
    simp

def heldJob : Holding where
  cfg := queue
  verb := .commit
  claimant := bareClaimant "c"
  selector := "jobs"
  policy := queuePolicy
  known := List.mem_singleton_self _
  lease := ⟨"f", .claim "c", 0⟩

def heldJobState : State := queueState [] [heldJob.lease]

theorem heldJob_holds : heldJob.Holds heldJobState := by
  refine ⟨.inl rfl, by decide, by decide +kernel, by decide, ?_⟩
  intro entry mem reader reads l there wants
  obtain rfl := mem_singleton.mp mem
  exact ⟨rfl, mem_singleton.mp there⟩

def deliveredTwice (bad : Op) : List Delivery :=
  [{ order := queue.pickPolicies, choose := fun op => { fails := op = bad } },
    { order := queue.pickPolicies }]

theorem deliveredTwice_fits (bad : Op) : ∀ d ∈ deliveredTwice bad, heldJob.Fits d := by
  simp only [deliveredTwice, forall_mem_cons]
  exact ⟨Holding.fits_of_order _, Holding.fits_of_order _, by simp⟩

/-- The root is away at first. -/
theorem actsOnce_after_rootUnavailable :
    ∃ t, heldJob.Redelivered (deliveredTwice (.checkRoot none)) heldJobState t ∧
      (heldJob.ActsOnce heldJobState t ↔
        heldJob.Steady (deliveredTwice (.checkRoot none)) (heldJob.view heldJobState)) := by
  have redelivered : heldJob.Redelivered (deliveredTwice (.checkRoot none)) heldJobState _ :=
    .inr ⟨⟨.rootUnavailable, by decide +kernel⟩, .inl ⟨by decide +kernel, rfl, rfl⟩⟩
  exact ⟨_, redelivered, actsOnce_iff heldJob heldJob_holds (deliveredTwice_fits _) redelivered⟩

/--
The sentinel is removed and the folder cannot be deleted; the second delivery reports success.
-/
theorem folder_left_behind :
    ∃ t, heldJob.Holds heldJobState ∧
      heldJob.Redelivered (deliveredTwice (.deleteFolder "jobs" "jobs" "f")) heldJobState t ∧
      (∀ d ∈ deliveredTwice (.deleteFolder "jobs" "jobs" "f"), heldJob.Fits d) ∧
      "f" ∈ t.folders "jobs" ∧ ¬heldJob.ActsOnce heldJobState t := by
  have redelivered :
      heldJob.Redelivered (deliveredTwice (.deleteFolder "jobs" "jobs" "f")) heldJobState _ :=
    .inr ⟨⟨.fs .failed, by decide +kernel⟩, .inl ⟨by decide +kernel, rfl, rfl⟩⟩
  refine ⟨_, heldJob_holds, redelivered, deliveredTwice_fits _, by decide +kernel, ?_⟩
  rintro ⟨-, disposed⟩
  exact disposed rfl (by decide +kernel)

end Rimsky.Filesystem
