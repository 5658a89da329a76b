import Rimsky.Producers.Postgres

/-!
# Staged commits

A staged write goes to a staging schema, and `Commit` puts that in the place of the canonical
one. Where the staging schema is gone and the canonical one is there, `Commit` takes it that an
earlier attempt has swapped them. But a sweep, an `Abandon` and a `Release` drop staging schemas
as well, so a `Commit` that comes after one of them is answered with success and nothing was
published.

Where no staging schema was dropped before the first swap of its claim, the inference is sound
over every interleaving: what has made the schema disappear can only have been a `Commit` of the
claim.
-/

namespace Rimsky.Postgres

open CallSystem List World

variable {name selector canonical staging c : String} {claimScope address : RawName}

variable {γ : Type} {cfg : Config}

theorem putSchema_self (s : State γ) (name : String) (contents : Option γ) :
    (s.putSchema name contents).schemas name = contents :=
  if_pos rfl

theorem putSchema_of_ne (s : State γ) {other : String} (contents : Option γ) (ne : other ≠ name) :
    (s.putSchema name contents).schemas other = s.schemas other :=
  if_neg ne

theorem swap_cases (fault : Fault) (canonical staging : String) (s : State γ) :
    (s.swap fault canonical staging).2 = s ∧
        ((s.swap fault canonical staging).1 = .ok .taken → s.schemas staging = none) ∧
        (s.swap fault canonical staging).1 ≠ .ok .swapped ∨
      ∃ contents, s.schemas staging = some contents ∧
        (s.swap fault canonical staging).1 ≠ .ok .taken ∧
        (s.swap fault canonical staging).2 =
          (s.putSchema staging none).putSchema canonical (some contents) := by
  unfold State.swap
  split
  · exact .inl ⟨rfl, by simp, by simp⟩
  split
  · rename_i gone _
    exact .inl ⟨rfl, fun _ => gone, by simp⟩
  · exact .inl ⟨rfl, by simp, by simp⟩
  · rename_i contents there
    split
    · exact .inl ⟨rfl, by simp, by simp⟩
    · refine .inr ⟨contents, there, ?_, rfl⟩
      split
      · simp
      · simp

variable {op : Op γ}

theorem removed_cases [Inhabited γ] {max : Nat} {fault : Fault} {s : State γ} {contents : γ}
    (there : s.schemas name = some contents)
    (gone : (execute max op fault s).2.schemas name = none) :
    op = .dropSchema name ∨
      ∃ canonical, op = .swap canonical name ∧
        (execute max op fault s).2.schemas canonical = some contents := by
  have unchanged : (execute max op fault s).2.schemas name ≠ s.schemas name := by
    rw [gone, there]
    simp
  cases op with
  | createSchema created =>
    refine absurd ?_ unchanged
    rcases change_cases fault s (if (s.schemas created).isSome then s else
      s.putSchema created (some default)) with ⟨same, -⟩ | made
    · exact congrArg (fun t => t.schemas name) same
    · refine (congrArg (fun t => t.schemas name) made).trans ?_
      split
      · rfl
      · rename_i absent
        refine putSchema_of_ne s _ fun same => absent ?_
        rw [← same, there]
        rfl
  | swap canonical staging =>
    rcases swap_cases fault canonical staging s with ⟨same, -⟩ | ⟨moved, found, -, swapped⟩
    · exact absurd (congrArg (fun t => t.schemas name) same) unchanged
    · have after : (execute max (.swap canonical staging) fault s).2 =
          (s.putSchema staging none).putSchema canonical (some moved) := swapped
      rw [after] at gone ⊢
      have apart : name ≠ canonical := by
        rintro rfl
        rw [putSchema_self] at gone
        cases gone
      have staged : name = staging := by
        by_contra other
        rw [putSchema_of_ne _ _ apart, putSchema_of_ne _ _ other, there] at gone
        cases gone
      subst staged
      rw [there] at found
      cases found
      exact .inr ⟨canonical, rfl, putSchema_self ..⟩
  | dropSchema dropped =>
    rcases eq_or_ne name dropped with rfl | other
    · exact .inl rfl
    · refine absurd ?_ unchanged
      rcases change_cases fault s (s.putSchema dropped none) with ⟨same, -⟩ | made
      · exact congrArg (fun t => t.schemas name) same
      · exact (congrArg (fun t => t.schemas name) made).trans (putSchema_of_ne s _ other)
  | writeSchema written contents =>
    simp only [execute] at gone
    split at gone
    · rcases eq_or_ne name written with rfl | other
      · rw [putSchema_self] at gone
        cases gone
      · rw [putSchema_of_ne _ _ other, there] at gone
        cases gone
    · rw [there] at gone
      cases gone
  | leaseFirst table claimId =>
    simp only [execute, State.leaseFirst] at unchanged
    split at unchanged
    · cases fault with
      | _ => exact absurd rfl unchanged
    · cases fault with
      | _ => exact absurd rfl unchanged
  | _ =>
    -- The other operations leave the schemas alone, whether they fail or not.
    cases fault with
    | _ => exact absurd rfl unchanged

/-- A call only swaps the schemas it was given, and the canonical one is no staging schema. -/
def MaySwap (cfg : Config) (call : Call γ) (op : Op γ) : Prop :=
  ∀ canonical staging, op = .swap canonical staging →
    carriesStagingPrefix canonical = false ∧ ∃ order c claimScope address,
      call = .commit order c claimScope address ∧
      stagedSwapTarget cfg claimScope address = .ok (some (canonical, staging))

variable {call : Call γ}

theorem maySwap_of_quiet (quiet : op.Quiet) : MaySwap cfg call op := by
  rintro canonical staging rfl
  exact quiet.elim

theorem only_maySwap {α : Type} {p : Prog γ α} (quiet : p.Only Op.Quiet) :
    p.Only (MaySwap cfg call) :=
  quiet.mono fun _ => maySwap_of_quiet

theorem recorded_maySwap (c verb done : String) (out : Except StoreError Unit) :
    (recorded c verb done out : Prog γ _).Only (MaySwap cfg call) := by
  cases out with
  | _ => exact ⟨by simp [MaySwap], fun _ => trivial⟩

theorem openClaim_maySwap (c selector : String) (intent : Intent) :
    (openClaim cfg c selector intent : Prog γ _).Only (MaySwap cfg call) := by
  unfold openClaim
  split
  · refine Program.Only.bind ⟨by simp [MaySwap], fun leased => ?_⟩ fun out => ?_
    · match leased with
      | .error e => trivial
      | .ok none => trivial
      | .ok (some item) => trivial
    · split
      · exact ⟨by simp [MaySwap], fun _ => trivial⟩
      · trivial
  · split
    · split
      · trivial
      · refine Program.Only.bind (only_maySwap (openStaging_quiet c selector)) fun out => ?_
        split
        · exact ⟨by simp [MaySwap], fun _ => trivial⟩
        · trivial
    · exact ⟨by simp [MaySwap], fun _ => trivial⟩

theorem settling_maySwap {claimScope address : RawName} (c verb done : String)
    {staged : String → String → Prog γ (Except StoreError Unit)}
    {inPlace : Prog γ (Except StoreError Unit)}
    (swaps : ∀ canonical staging,
      stagedSwapTarget cfg claimScope address = .ok (some (canonical, staging)) →
      (staged canonical staging).Only (MaySwap cfg call)) (others : inPlace.Only Op.Quiet) :
    (settling cfg claimScope address staged inPlace >>= recorded c verb done).Only
      (MaySwap cfg call) := by
  refine Program.Only.bind ?_ fun out => recorded_maySwap ..
  unfold settling
  split
  case h_1 => trivial
  case h_2 canonical staging target => exact swaps canonical staging target
  case h_3 => exact only_maySwap others

theorem program_maySwap (call : Call γ) : (program cfg call).Only (MaySwap cfg call) := by
  cases call with
  | «open» c selector intent => exact openClaim_maySwap c selector intent
  | commit order c claimScope address =>
    refine settling_maySwap _ _ _ (fun canonical staging target => ?_)
      (applyPickAction_quiet order c true)
    refine (commitStagingSwap_only canonical staging).mono fun op may => ?_
    rcases may with ⟨rfl, free⟩ | quiet
    · intro canonical' staging' same
      cases same
      exact ⟨free, order, c, claimScope, address, rfl, target⟩
    · exact maySwap_of_quiet quiet
  | abandon order c claimScope address =>
    exact settling_maySwap _ _ _ (fun _ _ _ => only_maySwap (dropStaging_quiet _))
      (applyPickAction_quiet order c false)
  | release c claimScope address =>
    exact settling_maySwap _ _ _ (fun _ _ _ => only_maySwap (dropStaging_quiet _)) trivial
  | sweep order => exact only_maySwap (sweepOnce_quiet order)
  | insertItems selector items => exact only_maySwap (insertItems_quiet selector items)
  | write | setDependent | tick => exact ⟨maySwap_of_quiet trivial, fun _ => trivial⟩
  | restart => exact ⟨by simp [MaySwap], fun _ => trivial⟩

theorem ne_stagingSchemaName (free : carriesStagingPrefix name = false) (c : String) :
    name ≠ cfg.stagingSchemaName c := by
  rintro rfl
  have carries : stagingSchemaPrefix <+: (cfg.stagingSchemaName c).toList := by
    rw [Config.stagingSchemaName, String.toList_append]
    exact prefix_append _ _
  rw [carriesStagingPrefix, decide_eq_true carries] at free
  cases free

/-- The address and the scope are those of a staged write, or both name what is written in place. -/
def OpenAnswer (cfg : Config) (c selector : String) (out : Except StoreError Answer) : Prop :=
  ∀ address claimScope, out = .ok (.opened address claimScope) → address = claimScope ∨
    address = cfg.stagingSchemaName c ∧ claimScope = selector ∧
      stagedSwapTarget cfg (.name selector) (.name (cfg.stagingSchemaName c)) =
        .ok (some (selector, cfg.stagingSchemaName c))

def Creates (name : String) : (op : Op γ) → op.Answer → Prop
  | .createSchema created, answer => created = name ∧ answer = .ok ()
  | _, _ => False

theorem stagedSwapTarget_staged (c : String) (staged : cfg.writeSemantics = .stagedAsync)
    (noPick : cfg.pickPolicy? selector = none) (ident : validIdent selector = true)
    (free : carriesStagingPrefix selector = false) :
    stagedSwapTarget cfg (.name selector) (.name (cfg.stagingSchemaName c)) =
      .ok (some (selector, cfg.stagingSchemaName c)) := by
  have named : selector ≠ "" := by
    rintro rfl
    cases ident
  have nonempty : cfg.stagingSchemaName c ≠ "" := by
    intro none
    have same := congrArg String.toList none
    rw [Config.stagingSchemaName, String.toList_append] at same
    exact absurd same (by simp)
  unfold stagedSwapTarget
  rw [if_neg (not_not_intro staged)]
  dsimp only
  rw [if_neg (by simp [named, nonempty, ne_stagingSchemaName free c]), if_neg (by simp [noPick]),
    if_neg (by simp [ident])]

theorem OpenAnswer.inPlace (c selector name : String) :
    OpenAnswer cfg c selector (.ok (.opened name name)) := by
  intro address claimScope same
  cases same
  exact .inl rfl

theorem OpenAnswer.failed (c selector : String) (e : StoreError) :
    OpenAnswer cfg c selector (.error e) := by
  intro address claimScope same
  cases same

theorem openStaging_answers (c : String) (staged : cfg.writeSemantics = .stagedAsync)
    (noPick : cfg.pickPolicy? selector = none) :
    (openStaging cfg c selector : Prog γ _).Through (fun _ _ => False)
      (fun out => ¬OpenAnswer cfg c selector out) := by
  unfold openStaging
  split
  · exact not_not_intro (.failed _ _ _)
  rename_i ident
  split
  · exact not_not_intro (.failed _ _ _)
  rename_i free
  refine fun dependent => .inr ?_
  match dependent with
  | .error e => exact not_not_intro (.failed _ _ _)
  | .ok (some (depSchema, depObject)) => exact not_not_intro (.failed _ _ _)
  | .ok none =>
    refine fun created => .inr ?_
    match created with
    | .error e => exact not_not_intro (.failed _ _ _)
    | .ok () =>
      refine fun reserved => .inr ?_
      match reserved with
      | .error e => exact not_not_intro (.failed _ _ _)
      | .ok () =>
        refine not_not_intro fun address claimScope same => ?_
        cases same
        exact .inr ⟨rfl, rfl, stagedSwapTarget_staged c staged noPick (by simpa using ident)
          (by simpa using free)⟩

theorem openClaim_through {mark : (op : Op γ) → op.Answer → Prop}
    {wanted : Except StoreError Answer → Prop}
    (failed : ∀ e, ¬wanted (.error e)) (unavailable : ¬wanted (.ok .unavailable))
    (inPlace : ∀ name, ¬wanted (.ok (.opened name name))) (intent : Intent)
    (staging : cfg.writeSemantics = .stagedAsync → cfg.pickPolicy? selector = none →
      (openStaging cfg c selector : Prog γ _).Through mark wanted) :
    (openClaim cfg c selector intent : Prog γ _).Through mark wanted := by
  unfold openClaim
  split
  case h_1 pp _ =>
    have picks : (openPickPolicy c pp : Prog γ _).Through mark wanted := by
      refine fun leased => .inr ?_
      match leased with
      | .error e => exact failed _
      | .ok none => exact unavailable
      | .ok (some item) => exact inPlace _
    refine picks.bind fun out good => ?_
    split
    · exact fun _ => .inr good
    · exact good
  case h_2 noPick =>
    split
    · rename_i staged
      split
      · exact failed _
      · refine (staging staged.1 noPick).bind fun out good => ?_
        split
        · exact fun _ => .inr good
        · exact good
    · exact fun _ => .inr (inPlace _)

theorem openClaim_answers (c selector : String) (intent : Intent) :
    (openClaim cfg c selector intent : Prog γ _).Through (fun _ _ => False)
      (fun out => ¬OpenAnswer cfg c selector out) := by
  refine openClaim_through (fun e => not_not_intro (.failed _ _ e)) (not_not_intro ?_)
    (fun name => not_not_intro (.inPlace _ _ name)) intent (openStaging_answers c)
  intro address claimScope same
  cases same

def Elsewhere (out : Except StoreError Answer) : Prop :=
  ∃ address claimScope, out = .ok (.opened address claimScope) ∧ address ≠ claimScope

theorem not_elsewhere_error (e : StoreError) : ¬Elsewhere (.error e) := by
  rintro ⟨address, claimScope, same, -⟩
  cases same

theorem openStaging_creates (c selector : String) :
    (openStaging cfg c selector : Prog γ _).Through (Creates (cfg.stagingSchemaName c))
      Elsewhere := by
  unfold openStaging
  split
  · exact not_elsewhere_error _
  split
  · exact not_elsewhere_error _
  refine fun dependent => .inr ?_
  match dependent with
  | .error e => exact not_elsewhere_error _
  | .ok (some (depSchema, depObject)) => exact not_elsewhere_error _
  | .ok none =>
    intro created
    match created with
    | .error e => exact .inr (not_elsewhere_error _)
    | .ok () => exact .inl ⟨rfl, rfl⟩

theorem openClaim_creates (c selector : String) (intent : Intent) :
    (openClaim cfg c selector intent : Prog γ _).Through (Creates (cfg.stagingSchemaName c))
      Elsewhere := by
  refine openClaim_through not_elsewhere_error ?_ (fun name => ?_) intent
    fun _ _ => openStaging_creates c selector
  · rintro ⟨address, claimScope, same, -⟩
    cases same
  · rintro ⟨address, claimScope, same, ne⟩
    cases same
    exact ne rfl

def SwapsOk (canonical staging : String) : (op : Op γ) → op.Answer → Prop
  | .swap canonical' staging', answer =>
    canonical' = canonical ∧ staging' = staging ∧ ∃ outcome, answer = .ok outcome
  | _, _ => False

def Succeeds (out : Except StoreError Answer) : Prop := out = .ok .done

theorem commit_swaps (order : List (String × PickPolicy)) (c : String)
    (target : stagedSwapTarget cfg claimScope address = .ok (some (canonical, staging))) :
    (commit cfg order c claimScope address : Prog γ _).Through (SwapsOk canonical staging)
      Succeeds := by
  have swaps : (commitStagingSwap canonical staging : Prog γ _).Through (SwapsOk canonical staging)
      (fun out => out = .ok ()) := by
    unfold commitStagingSwap
    split
    · rintro ⟨⟩
    split
    · rintro ⟨⟩
    split
    · rintro ⟨⟩
    intro answer
    match answer with
    | .error e =>
      refine .inr fun same => ?_
      cases same
    | .ok outcome => exact .inl ⟨rfl, rfl, outcome, rfl⟩
  unfold commit settling
  rw [target]
  refine swaps.bind fun out failed => ?_
  match out with
  | .error e =>
    refine fun _ => .inr fun same => ?_
    cases same
  | .ok () => exact absurd rfl failed

section Histories

variable [Inhabited γ]

def Call.opens? : Call γ → Option (String × String)
  | .open c selector _ => some (c, selector)
  | _ => none

def Call.commits? : Call γ → Option String
  | .commit _ c _ _ => some c
  | _ => none

def answered? (t : (system γ cfg).Thread) : Option (String × RawName × RawName) :=
  match t.call, t.prog with
  | .open c _ _, .ret (.ok (.opened address claimScope)) =>
    some (c, .name address, .name claimScope)
  | _, _ => none

def swapsAway (c : String) (e : (system γ cfg).Event) : Bool :=
  match e.op with
  | .swap _ staging => e.call.commits? = some c && staging = cfg.stagingSchemaName c &&
      (e.before.schemas staging).isSome && (e.after.schemas staging).isNone
  | _ => false

def dropsAway (name : String) (e : (system γ cfg).Event) : Bool :=
  match e.op with
  | .dropSchema dropped =>
    dropped = name && (e.before.schemas name).isSome && (e.after.schemas name).isNone
  | _ => false

variable {e : (system γ cfg).Event}

theorem swapsAway_iff :
    swapsAway c e = true ↔ e.call.commits? = some c ∧
      (∃ canonical, e.op = .swap canonical (cfg.stagingSchemaName c)) ∧
      (∃ contents, e.before.schemas (cfg.stagingSchemaName c) = some contents) ∧
      e.after.schemas (cfg.stagingSchemaName c) = none := by
  rcases e with ⟨call, op, answer, before, after⟩
  unfold swapsAway
  cases op with
  | swap canonical staging =>
    by_cases same : staging = cfg.stagingSchemaName c
    · subst same
      simp [Option.isSome_iff_exists, and_assoc]
    · simp [same]
  | _ => simp

theorem dropsAway_iff :
    dropsAway name e = true ↔ e.op = .dropSchema name ∧
      (∃ contents, e.before.schemas name = some contents) ∧ e.after.schemas name = none := by
  rcases e with ⟨call, op, answer, before, after⟩
  unfold dropsAway
  cases op with
  | dropSchema dropped => simp [Option.isSome_iff_exists, and_assoc]
  | _ => simp

/--
The interleavings under which the inference of `Commit` is sound: opens with one staging name are
of one claim and one schema; a `Commit` sends what an open of its claim has answered; and when it
comes to the swap, the claim has been swapped before or its staging schema was never dropped.
-/
def allowed (w : (system γ cfg).World) : (system γ cfg).Label → Bool
  | .start (.open c selector _) =>
    w.threads.all fun t => t.call.opens?.all fun opened =>
      cfg.stagingSchemaName opened.1 ≠ cfg.stagingSchemaName c || opened = (c, selector)
  | .start (.commit _ c claimScope address) =>
    w.threads.any fun t => answered? t = some (c, address, claimScope)
  | .advance index _ =>
    match w.threads[index]? with
    | some ⟨.commit _ c _ _, .call (.swap _ _) _⟩ =>
      w.past.any (swapsAway c) || w.past.all fun e => !dropsAway (cfg.stagingSchemaName c) e
    | _ => true
  | _ => true

/-- A `Commit` of the claim replaced the canonical schema by the contents of the staging schema. -/
def Publishes (c canonical : String) (e : (system γ cfg).Event) : Prop :=
  (∃ order claimScope address, e.call = .commit order c claimScope address) ∧
    ∃ contents, e.before.schemas (cfg.stagingSchemaName c) = some contents ∧
      e.after.schemas canonical = some contents ∧
      e.after.schemas (cfg.stagingSchemaName c) = none

def Answered (w : (system γ cfg).World) (c : String) (address claimScope : RawName) : Prop :=
  ∃ t ∈ w.threads, answered? t = some (c, address, claimScope)

structure Sound (w : (system γ cfg).World) : Prop where
  /-- The opens with one staging name are of one claim and one schema. -/
  opens : ∀ t ∈ w.threads, ∀ t' ∈ w.threads, ∀ opened opened',
    t.call.opens? = some opened → t'.call.opens? = some opened' →
    cfg.stagingSchemaName opened.1 = cfg.stagingSchemaName opened'.1 → opened = opened'
  /-- A `Commit` sends what an open has answered. -/
  commits : ∀ t ∈ w.threads, ∀ order c claimScope address,
    t.call = .commit order c claimScope address → Answered w c address claimScope
  /-- An event is of one of the calls. -/
  calls : ∀ e ∈ w.past, ∃ t ∈ w.threads, t.call = e.call
  /-- A schema that was there and is gone was dropped, or a claim has published it. -/
  gone : ∀ name, (∃ e ∈ w.past, (e.after.schemas name).isSome) → w.state.schemas name = none →
    (∀ e ∈ w.past, dropsAway name e = false) →
    ∃ c, name = cfg.stagingSchemaName c ∧ ∃ e ∈ w.past, swapsAway c e
  /-- A swap that went well has published, or an earlier one had. -/
  swaps : ∀ e ∈ w.past, ∀ order c canonical,
    e.call = .commit order c (.name canonical) (.name (cfg.stagingSchemaName c)) →
    SwapsOk canonical (cfg.stagingSchemaName c) e.op e.answer →
    ∃ e' ∈ w.past, Publishes c canonical e'

theorem created_isSome {max : Nat} {answer : op.Answer} {fault : Fault} {s t : State γ}
    (executed : execute max op fault s = (answer, t)) (creates : Creates name op answer) :
    (t.schemas name).isSome := by
  cases op with
  | createSchema created =>
    rcases creates with ⟨rfl, ok⟩
    cases fault with
    | none =>
      have after : t = if (s.schemas created).isSome then s
          else s.putSchema created (some default) := (congrArg Prod.snd executed).symm
      rw [after]
      split
      · assumption
      · rw [putSchema_self]
        rfl
    | _ =>
      rw [ok] at executed
      cases executed
  | _ => exact creates.elim

section Reached

variable {may : (system γ cfg).World → (system γ cfg).Label → Prop} {start : State γ}
  {w : (system γ cfg).World} (run : Reaches World.step may ⟨start, [], []⟩ w)

include run

theorem open_answers {intent : Intent} {out : Except StoreError Answer}
    (returned : ⟨.open c selector intent, .ret out⟩ ∈ w.threads) :
    OpenAnswer cfg c selector out := by
  by_contra wrong
  rcases marked_of_returned (openClaim_answers c selector intent) run returned wrong with
    ⟨e, -, -, none⟩
  exact none

theorem open_created {intent : Intent} {out : Except StoreError Answer}
    (returned : ⟨.open c selector intent, .ret out⟩ ∈ w.threads) (elsewhere : Elsewhere out) :
    ∃ e ∈ w.past, (e.after.schemas (cfg.stagingSchemaName c)).isSome := by
  rcases marked_of_returned (openClaim_creates c selector intent) run returned elsewhere with
    ⟨e, mem, -, creates⟩
  rcases executed_of_reaches run e mem with ⟨fault, executed⟩
  exact ⟨e, mem, created_isSome executed creates⟩

theorem answered_cases {address claimScope : String}
    (answered : Answered w c (.name address) (.name claimScope)) (ne : address ≠ claimScope) :
    address = cfg.stagingSchemaName c ∧
      stagedSwapTarget cfg (.name claimScope) (.name address) = .ok (some (claimScope, address)) ∧
      (∃ t ∈ w.threads, t.call.opens? = some (c, claimScope)) ∧
      ∃ e ∈ w.past, (e.after.schemas (cfg.stagingSchemaName c)).isSome := by
  rcases answered with ⟨⟨call, prog⟩, mem, same⟩
  unfold answered? at same
  split at same
  case h_1 c' selector intent address' claimScope' opened returned =>
    cases same
    subst opened returned
    rcases open_answers run mem _ _ rfl with inPlace | ⟨staging, canonical, target⟩
    · exact absurd inPlace ne
    · subst staging canonical
      exact ⟨rfl, target, ⟨_, mem, rfl⟩, open_created run mem ⟨_, _, rfl, ne⟩⟩
  case h_2 => cases same

end Reached

variable {w w' : (system γ cfg).World} {label : (system γ cfg).Label}

theorem Answered.step (answered : Answered w c address claimScope)
    (taken : w.step label = some w') : Answered w' c address claimScope := by
  rcases answered with ⟨t, mem, same⟩
  have returned : ∃ out, t.prog = .ret out := by
    unfold answered? at same
    split at same
    case h_1 returned => exact ⟨_, returned⟩
    case h_2 => cases same
  rcases returned with ⟨out, returned⟩
  exact ⟨t, returned_of_step taken returned mem, same⟩

theorem Sound.opens_step (sound : Sound w) (may : allowed w label = true)
    (taken : w.step label = some w') : ∀ t ∈ w'.threads, ∀ t' ∈ w'.threads, ∀ opened opened',
    t.call.opens? = some opened → t'.call.opens? = some opened' →
    cfg.stagingSchemaName opened.1 = cfg.stagingSchemaName opened'.1 → opened = opened' := by
  -- An open that is made agrees with the earlier ones of its staging name.
  have made : ∀ call : Call γ, label = .start call → ∀ old ∈ w.threads, ∀ opened earlier,
      call.opens? = some opened → old.call.opens? = some earlier →
      cfg.stagingSchemaName earlier.1 = cfg.stagingSchemaName opened.1 → earlier = opened := by
    rintro call rfl old mem opened earlier opens opens' same
    cases call with
    | «open» c selector intent =>
      cases opens
      have agrees := all_eq_true.mp may old mem
      rw [opens'] at agrees
      simpa [same] using agrees
    | _ => cases opens
  intro t mem t' mem' opened opened' opens opens' named
  rcases call_of_step taken mem with ⟨old, there, same⟩ | start
  · rcases call_of_step taken mem' with ⟨old', there', same'⟩ | start'
    · exact sound.opens old there old' there' _ _ (same ▸ opens) (same' ▸ opens') named
    · exact made _ start' old there _ _ opens' (same ▸ opens) named
  · rcases call_of_step taken mem' with ⟨old', there', same'⟩ | start'
    · exact (made _ start old' there' _ _ opens (same' ▸ opens') named.symm).symm
    · have same : t.call = t'.call := Label.start.inj (start.symm.trans start')
      rw [← same, opens] at opens'
      exact Option.some.inj opens'

theorem Sound.commits_step (sound : Sound w) (may : allowed w label = true)
    (taken : w.step label = some w') : ∀ t ∈ w'.threads, ∀ order c claimScope address,
    t.call = .commit order c claimScope address → Answered w' c address claimScope := by
  intro t mem order c claimScope address same
  rcases call_of_step taken mem with ⟨old, there, before⟩ | start
  · exact (sound.commits old there order c claimScope address (before.trans same)).step taken
  · rw [same] at start
    subst start
    rcases any_eq_true.mp may with ⟨open', there, answered⟩
    exact Answered.step ⟨open', there, of_decide_eq_true answered⟩ taken

theorem Sound.calls_step (sound : Sound w) (taken : w.step label = some w') :
    ∀ e ∈ w'.past, ∃ t ∈ w'.threads, t.call = e.call := by
  have stays : ∀ t ∈ w.threads, ∀ call, t.call = call → ∃ t ∈ w'.threads, t.call = call :=
    fun t mem call same => same ▸ exists_call_of_step taken mem
  have earlier : ∀ e ∈ w.past, ∃ t ∈ w'.threads, t.call = e.call := by
    intro e mem
    rcases sound.calls e mem with ⟨t, there, same⟩
    exact stays t there _ same
  intro e mem
  rcases step_cases taken with ⟨call, rfl, rfl⟩ | ⟨index, fault, call, op, next, rfl, at', rfl⟩
  · exact earlier e mem
  · rcases mem_cons.mp mem with rfl | old
    · exact stays _ (mem_of_getElem? at') _ rfl
    · exact earlier e old

theorem stagedSwapTarget_names
    (target : stagedSwapTarget cfg claimScope address = .ok (some (canonical, staging))) :
    claimScope = .name canonical ∧ address = .name staging ∧ canonical ≠ staging := by
  unfold stagedSwapTarget at target
  split at target
  · cases target
  split at target
  · cases target
  · cases target
  · cases target
  · cases target
  · split at target
    · cases target
    rename_i distinct
    split at target
    · cases target
    split at target
    · cases target
    cases target
    exact ⟨rfl, rfl, fun same => distinct (.inr (.inr same))⟩

section Step

variable {may : (system γ cfg).World → (system γ cfg).Label → Prop} {start : State γ}
  (sound : Sound w) (run : Reaches World.step may ⟨start, [], []⟩ w)

include sound run

theorem Sound.swap_of {t : (system γ cfg).Thread} (mem : t ∈ w.threads)
    (mays : MaySwap cfg t.call (.swap canonical staging)) :
    ∃ c, t.call.commits? = some c ∧ staging = cfg.stagingSchemaName c ∧ canonical ≠ staging ∧
      (∃ t ∈ w.threads, t.call.opens? = some (c, canonical)) ∧
      ∃ e ∈ w.past, (e.after.schemas staging).isSome := by
  rcases mays canonical staging rfl with ⟨-, order, c, claimScope, address, same, target⟩
  rcases stagedSwapTarget_names target with ⟨rfl, rfl, ne⟩
  have answered := sound.commits t mem order c _ _ same
  rcases answered_cases run answered ne.symm with ⟨rfl, -, opens, created⟩
  exact ⟨c, by rw [same]; rfl, rfl, ne, opens, created⟩

theorem Sound.gone_step (taken : w.step label = some w')
    (mays : ∀ e ∈ w'.past, MaySwap cfg e.call e.op) :
    ∀ name, (∃ e ∈ w'.past, (e.after.schemas name).isSome) → w'.state.schemas name = none →
      (∀ e ∈ w'.past, dropsAway name e = false) →
      ∃ c, name = cfg.stagingSchemaName c ∧ ∃ e ∈ w'.past, swapsAway c e := by
  intro name there gone kept
  rcases step_cases taken with ⟨call, rfl, rfl⟩ | ⟨index, fault, call, op, next, rfl, at', rfl⟩
  · exact sound.gone name there gone kept
  · cases before : w.state.schemas name with
    | none =>
      rcases there with ⟨e, mem, found⟩
      rcases mem_cons.mp mem with rfl | old
      · rw [show (w.event call op fault).after.schemas _ = none from gone] at found
        cases found
      · rcases sound.gone name ⟨e, old, found⟩ before fun e mem => kept e (mem_cons_of_mem _ mem)
          with ⟨c, same, e', mem', swapped⟩
        exact ⟨c, same, e', mem_cons_of_mem _ mem', swapped⟩
    | some contents =>
      have last : w.event call op fault ∈ w.event call op fault :: w.past := mem_cons_self
      rcases removed_cases before gone with rfl | ⟨canonical, rfl, -⟩
      · have dropped : dropsAway name (w.event call _ fault) = true :=
          dropsAway_iff.mpr ⟨rfl, ⟨contents, before⟩, gone⟩
        rw [kept _ last] at dropped
        cases dropped
      · rcases sound.swap_of run (mem_of_getElem? at') (mays _ last) with
          ⟨c, commits, rfl, -⟩
        exact ⟨c, rfl, _, last,
          swapsAway_iff.mpr ⟨commits, ⟨canonical, rfl⟩, ⟨contents, before⟩, gone⟩⟩

theorem Sound.publishes (mem : e ∈ w.past) (swapped : swapsAway c e = true) :
    ∃ canonical, Publishes c canonical e ∧ ∃ t ∈ w.threads, t.call.opens? =
      some (c, canonical) := by
  have mays := only_of_reaches program_maySwap run e mem
  rcases executed_of_reaches run e mem with ⟨fault, executed⟩
  rcases sound.calls e mem with ⟨t, there, same⟩
  rcases swapsAway_iff.mp swapped with ⟨commits, ⟨canonical, isSwap⟩, ⟨contents, before⟩, gone⟩
  rw [isSwap, ← same] at mays
  rcases sound.swap_of run there mays with ⟨c', commits', -, -, opens, -⟩
  rw [same, commits] at commits'
  cases commits'
  have after : ((system γ cfg).execute e.op fault e.before).2 = e.after :=
    congrArg Prod.snd executed
  rw [← after] at gone
  rcases removed_cases before gone with isDrop | ⟨canonical', isSwap', published⟩
  · rw [isDrop] at isSwap
    cases isSwap
  · rw [isSwap] at isSwap'
    cases isSwap'
    refine ⟨canonical, ⟨?_, contents, before, ?_, ?_⟩, opens⟩
    · cases call : e.call with
      | commit order c'' claimScope address =>
        rw [call] at commits
        cases commits
        exact ⟨order, claimScope, address, rfl⟩
      | _ =>
        rw [call] at commits
        cases commits
    · rw [← after]
      exact published
    · rw [← after]
      exact gone

theorem Sound.published_of_taken
    (opens : ∃ t ∈ w.threads, t.call.opens? = some (c, canonical))
    (created : ∃ e ∈ w.past, (e.after.schemas (cfg.stagingSchemaName c)).isSome)
    (gone : w.state.schemas (cfg.stagingSchemaName c) = none)
    (allows : w.past.any (swapsAway c) = true ∨
      ∀ e ∈ w.past, dropsAway (cfg.stagingSchemaName c) e = false) :
    ∃ e ∈ w.past, Publishes c canonical e := by
  have swapped : ∃ c', cfg.stagingSchemaName c = cfg.stagingSchemaName c' ∧
      ∃ e ∈ w.past, swapsAway c' e = true := by
    rcases allows with earlier | kept
    · exact ⟨c, rfl, any_eq_true.mp earlier⟩
    · exact sound.gone _ created gone kept
  rcases swapped with ⟨c', named, e, mem, swapped⟩
  rcases sound.publishes run mem swapped with ⟨canonical', publishes, t', mem', opens'⟩
  rcases opens with ⟨t, there, opens⟩
  cases sound.opens t there t' mem' _ _ opens opens' named
  exact ⟨e, mem, publishes⟩

theorem Sound.swaps_step (allows : allowed w label = true) (taken : w.step label = some w')
    (mays : ∀ e ∈ w'.past, MaySwap cfg e.call e.op) :
    ∀ e ∈ w'.past, ∀ order c canonical,
      e.call = .commit order c (.name canonical) (.name (cfg.stagingSchemaName c)) →
      SwapsOk canonical (cfg.stagingSchemaName c) e.op e.answer →
      ∃ e' ∈ w'.past, Publishes c canonical e' := by
  intro e mem order c canonical commits swapsOk
  rcases step_cases taken with ⟨call, rfl, rfl⟩ | ⟨index, fault, call, op, next, rfl, at', rfl⟩
  · exact sound.swaps e mem order c canonical commits swapsOk
  rcases mem_cons.mp mem with rfl | old
  · have commits : call = .commit order c (.name canonical) (.name (cfg.stagingSchemaName c)) :=
      commits
    subst commits
    cases op with
    | swap canonical' staging =>
      rcases swapsOk with ⟨rfl, rfl, outcome, ok⟩
      rcases sound.swap_of run (mem_of_getElem? at') (mays _ mem) with
        ⟨c', commits, -, ne, opens, created⟩
      cases commits
      rcases swap_cases fault canonical' (cfg.stagingSchemaName c) w.state with
        ⟨-, found, unswapped⟩ | ⟨contents, staged, -, after⟩
      · have isTaken : outcome = .taken := by
          cases outcome with
          | taken => rfl
          | swapped => exact absurd ok unswapped
        subst isTaken
        have permitted : w.past.any (swapsAway c) = true ∨
            ∀ e ∈ w.past, dropsAway (cfg.stagingSchemaName c) e = false := by
          simpa [allowed, at'] using allows
        rcases sound.published_of_taken run opens created (found ok) permitted with
          ⟨e', mem', publishes⟩
        exact ⟨e', mem_cons_of_mem _ mem', publishes⟩
      · have after : ((system γ cfg).execute (.swap canonical' (cfg.stagingSchemaName c)) fault
            w.state).2 = (w.state.putSchema (cfg.stagingSchemaName c) none).putSchema canonical'
              (some contents) := after
        refine ⟨_, mem_cons_self, ⟨order, _, _, rfl⟩, contents, staged, ?_, ?_⟩
        · exact (congrArg (fun t : State γ => t.schemas canonical') after).trans
            (putSchema_self ..)
        · exact (congrArg (fun t : State γ => t.schemas (cfg.stagingSchemaName c)) after).trans
            ((putSchema_of_ne _ _ ne.symm).trans (putSchema_self ..))
    | _ => exact swapsOk.elim
  · rcases sound.swaps e old order c canonical commits swapsOk with ⟨e', mem', publishes⟩
    exact ⟨e', mem_cons_of_mem _ mem', publishes⟩

end Step

theorem sound_of_reaches {start : State γ}
    (run : Reaches World.step (fun w label => allowed w label = true) ⟨start, [], []⟩ w) :
    Sound w := by
  induction run with
  | refl =>
    refine ⟨?_, ?_, ?_, ?_, ?_⟩
    all_goals simp
  | @tail w w' label run may taken sound =>
    have run' := Reaches.tail label run may taken
    have mays : ∀ e ∈ w'.past, MaySwap cfg e.call e.op := only_of_reaches program_maySwap run'
    refine ⟨sound.opens_step may taken, sound.commits_step may taken, ?_,
      sound.gone_step run taken mays, sound.swaps_step run may taken mays⟩
    exact sound.calls_step taken

/--
Over every such interleaving: if a staged `Commit` has returned success, a transaction of a
`Commit` of the claim has replaced the canonical schema by the contents of its staging schema.
-/
theorem commit_published {start : State γ}
    (run : Reaches World.step (fun w label => allowed w label = true) ⟨start, [], []⟩ w)
    {order : List (String × PickPolicy)} {c canonical : String}
    (staged : canonical ≠ cfg.stagingSchemaName c)
    (returned : ⟨.commit order c (.name canonical) (.name (cfg.stagingSchemaName c)),
      .ret (.ok .done)⟩ ∈ w.threads) :
    ∃ e ∈ w.past, Publishes c canonical e := by
  have sound := sound_of_reaches run
  have answered := sound.commits _ returned order c _ _ rfl
  rcases answered_cases run answered staged.symm with ⟨-, target, -⟩
  have wanted : Succeeds (.ok .done) := rfl
  rcases marked_of_returned (commit_swaps order c target) run returned wanted with
    ⟨e, mem, same, swapsOk⟩
  exact sound.swaps e mem order c canonical same swapsOk

end Histories

def stagingConfig : Config where
  hash := id

def reports : State Nat where
  schemas name := if name = "reports" then some 1 else none
  ledger := .new 1024

def commitReports : Call Nat := .commit [] "c1" (.name "reports") (.name "rimsky_stg_c1")

/-- The claim is opened and written to; a day passes and a sweep comes before the `Commit`. -/
def sweptCommit : List (system Nat stagingConfig).Label :=
  [.start (.open "c1" "reports" .rw), .advance 0 .none, .advance 0 .none, .advance 0 .none,
    .advance 0 .none, .start (.write "rimsky_stg_c1" 2), .advance 1 .none,
    .start (.tick (stagingOrphanHorizon + 1)), .advance 2 .none,
    .start (.sweep []), .advance 3 .none, .advance 3 .none,
    .start commitReports, .advance 4 .none, .advance 4 .none]

def committed (t : (system Nat stagingConfig).Thread) : Bool :=
  match t.call, t.prog with
  | .commit [] "c1" (.name "reports") (.name "rimsky_stg_c1"), .ret (.ok .done) => true
  | _, _ => false

theorem committed_eq {t : (system Nat stagingConfig).Thread} (done : committed t = true) :
    t = ⟨commitReports, .ret (.ok .done)⟩ := by
  rcases t with ⟨call, prog⟩
  unfold committed at done
  split at done
  case h_1 same same' =>
    subst same same'
    rfl
  case h_2 => cases done

theorem commit_acknowledged_unpublished :
    ∃ w, Reaches World.step (fun _ _ => True)
      (⟨reports, [], []⟩ : (system Nat stagingConfig).World) w ∧
      ⟨commitReports, .ret (.ok .done)⟩ ∈ w.threads ∧
        ¬∃ e ∈ w.past, Publishes "c1" "reports" e := by
  have run : (runAll step (fun _ _ => True) sweptCommit
      (⟨reports, [], []⟩ : (system Nat stagingConfig).World)).any fun w =>
        w.threads.any committed && w.past.all fun e => e.call.commits?.isNone ||
          (e.before.schemas "rimsky_stg_c1").isNone := by
    decide +kernel
  rcases exists_reaches_of_runAll run with ⟨w, reached, found⟩
  rw [Bool.and_eq_true] at found
  rcases any_eq_true.mp found.1 with ⟨t, mem, done⟩
  refine ⟨w, reached, committed_eq done ▸ mem, ?_⟩
  rintro ⟨e, mem, ⟨order, claimScope, address, same⟩, contents, before, -⟩
  have unswapped := all_eq_true.mp found.2 e mem
  rw [same] at unswapped
  have before : e.before.schemas "rimsky_stg_c1" = some contents := before
  simp [Call.commits?, before] at unswapped

def writtenCommit : List (system Nat stagingConfig).Label :=
  [.start (.open "c1" "reports" .rw), .advance 0 .none, .advance 0 .none, .advance 0 .none,
    .advance 0 .none, .start (.write "rimsky_stg_c1" 2), .advance 1 .none,
    .start commitReports, .advance 2 .none, .advance 2 .none, .advance 2 .none]

theorem commit_published_reports :
    ∃ w, Reaches World.step (fun w label => allowed w label = true)
        (⟨reports, [], []⟩ : (system Nat stagingConfig).World) w ∧
      ∃ e ∈ w.past, Publishes "c1" "reports" e := by
  have run : (runAll step (fun w label => allowed w label = true) writtenCommit
      (⟨reports, [], []⟩ : (system Nat stagingConfig).World)).any fun w =>
        w.threads.any committed := by
    decide +kernel
  rcases exists_reaches_of_runAll run with ⟨w, reached, found⟩
  rcases any_eq_true.mp found with ⟨t, mem, done⟩
  have returned : ⟨commitReports, .ret (.ok .done)⟩ ∈ w.threads := committed_eq done ▸ mem
  exact ⟨w, reached, commit_published reached (by decide +kernel) returned⟩

end Rimsky.Postgres
