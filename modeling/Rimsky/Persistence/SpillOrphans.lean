import Rimsky.Persistence.SpillSound

/-!
# Blobs that no row refers to

A blob should be referred to by a row, be in the ledger of orphans, or be reaped. Rows that are
overwritten put their handles into the ledger, and so does pruning. Deletions by the mode rules put
only the scratch handles of the runs there: the bag of such a run is lost sight of if it was
spilled.
-/

namespace Rimsky

namespace Spill

variable {cfg : BlobConfig} {tidy : Prop} {s s' : Spill}

theorem foldl_reap_accounted (due : List Orphan) (deletes forgets : Nat → Bool)
    {h : Handles (HandleColumn × Id) Blob} (accounted : h.Accounted) :
    (due.foldl (fun h o => h.reap o.handle (deletes o.handle) (forgets o.handle)) h).Accounted := by
  induction due generalizing h with
  | nil => exact accounted
  | cons o due ih => exact ih (accounted.reap _ _)

theorem Touches.accounted (touches : Touches cfg tidy s s') (isTidy : tidy)
    (accounted : s.handles.Accounted) :
    s'.handles.Accounted := by
  cases touches with
  | keep rows => exact accounted
  | put rows kind here r spills => exact accounted.put _ _ _
  | clear rows o r => exact accounted.clear _ _
  | leak rows b untidy => exact absurd isTidy untidy
  | delete own listed => exact accounted.delete (listed isTidy)
  | sweep now limit deletes forgets => exact foldl_reap_accounted _ _ _ accounted

/-- In runs whose deletions meet no spilled bag, every blob is referred to, an orphan, or reaped. -/
theorem blobs_accounted {store : Store} (run : Reaches (next cfg) Enrolls { store } s) (k : Nat)
    (written : k < s.handles.next) :
    (∃ o, s.handles.ref o = some k ∧ s.store.hasRow o) ∨ s.handles.isOrphan k ∨
      s.handles.content k = none := by
  have kept : s.Sound ∧ s.handles.Accounted := by
    refine run.invariant (I := fun s => s.Sound ∧ s.handles.Accounted)
      (fun s act s' both enrolls taken => ?_) ⟨Sound.start store, Handles.Accounted.empty⟩
    have touches := next_touches both.1 taken
    exact ⟨touches.sound both.1, touches.accounted enrolls both.2⟩
  cases content : s.handles.content k with
  | none => exact .inr (.inr rfl)
  | some b =>
    rcases kept.2 k written (Option.isSome_iff_exists.mpr ⟨b, content⟩) with ⟨o, ref⟩ | orphan
    · exact .inl ⟨o, ref, kept.1.rows (Option.isSome_iff_exists.mpr ⟨k, ref⟩)⟩
    · exact .inr (.inl orphan)

def waitingRun : NodeRun where
  id := 1
  nodeId := 1
  enqueuedAt := 0
  state := .stale
  creationReason := .cascade
  sequence := 1
  frameId := 1
  runScopeId := 1

def spillAll : BlobConfig where
  backend := some "memory"
  threshold := 1

def Act.isWrite : Act → Bool
  | .upsert .. | .writeScratch .. | .insertRun _ => true
  | _ => false

theorem Enrolls.of_isWrite {act : Act} (writes : act.isWrite) : s.Enrolls act := by
  cases act <;> trivial

/--
A run that is saved twice: its first bag is an orphan, its second bag and its scratch are not.
-/
theorem overwritten_orphaned :
    ∃ s, Reaches (next spillAll) Enrolls { store := {} } s ∧ s.handles.next = 3 ∧
      s.handles.orphans.map (·.handle) = [0] ∧
      ∀ k < 3, (∃ o, s.handles.ref o = some k ∧ s.store.hasRow o) ∨ s.handles.isOrphan k ∨
        s.handles.content k = none := by
  have run : (runAll (next spillAll) (fun _ act => act.isWrite)
      [.insertRun waitingRun, .upsert 1 1 [("total", .null)], .writeScratch 1 "half done",
        .upsert 1 1 []] { store := {} }).any
          fun s => s.handles.next = 3 && s.handles.orphans.map (·.handle) = [0] := by decide +kernel
  rcases exists_reaches_of_runAll run with ⟨s, reached, facts⟩
  simp only [Bool.and_eq_true, decide_eq_true_eq] at facts
  have tidy : Reaches (next spillAll) Enrolls { store := {} } s := reached.mono fun _ _ =>
    Enrolls.of_isWrite
  exact ⟨s, tidy, facts.1, facts.2, fun k written => blobs_accounted tidy k (facts.1 ▸ written)⟩

/--
A run keeps a spilled bag from an attempt that failed and waits for the next one. A later round of
its node replaces it: the run is deleted with its bag, and nothing remembers the blob.
-/
theorem replaced_bag_lost :
    ∃ s, Reaches (next spillAll) (fun _ _ => True) { store := {} } s ∧ 0 < s.handles.next ∧
      (∀ o, s.handles.ref o ≠ some 0) ∧ s.handles.isOrphan 0 = false ∧
        (s.handles.content 0).isSome := by
  have run : (runAll (next spillAll) (fun _ _ => True)
      [.insertRun waitingRun, .upsert 1 1 [("total", .null)], .deletePriorCascadeStales 1 1 2]
        { store := {} }).any
        fun s => s.store.attributes.isEmpty && s.store.runs.isEmpty && s.handles.next = 1 &&
          !s.handles.isOrphan 0 && (s.handles.content 0).isSome := by decide +kernel
  rcases exists_reaches_of_runAll run with ⟨s, reached, facts⟩
  simp only [Bool.and_eq_true, List.isEmpty_iff, decide_eq_true_eq, Bool.not_eq_true'] at facts
  have sound : s.Sound := reached.invariant (fun _ _ _ sound _ taken => sound.next taken)
    (Sound.start _)
  refine ⟨s, reached, by omega, fun o ref => ?_, facts.1.2, facts.2⟩
  have row := sound.rows (Option.isSome_iff_exists.mpr ⟨0, ref⟩)
  rcases o with ⟨column, id⟩
  cases column with
  | value => simp [Store.hasRow, Store.attributes?, facts.1.1.1.1] at row
  | scratch => simp [Store.hasRow, Store.run?, facts.1.1.1.2] at row

/-- A blob that a row refers to is that row's alone, is there, and is not up for reaping. -/
theorem blobs_unshared (cfg : BlobConfig) (store : Store) (acts : List Act) {o : HandleColumn × Id}
    {k : Nat} (ref : (execute cfg acts { store }).handles.ref o = some k) :
    (∀ o', (execute cfg acts { store }).handles.ref o' = some k → o' = o) ∧
      ((execute cfg acts { store }).handles.content k).isSome ∧
      (execute cfg acts { store }).handles.isOrphan k = false := by
  have sound : (execute cfg acts { store }).Sound := (Sound.start store).execute acts
  exact ⟨fun o' ref' => sound.handles.one ref' ref, sound.handles.live ref, sound.handles.kept ref⟩

theorem blobs_unshared_overwritten :
    ((execute spillAll [.insertRun waitingRun, .upsert 1 1 [("total", .null)], .upsert 1 1 []]
      { store := {} }).handles.isOrphan 1) = false :=
  (blobs_unshared spillAll {} _ (o := (.value, 1)) (by decide +kernel)).2.2

end Spill

end Rimsky
