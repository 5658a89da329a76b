import Rimsky.Runtime.Walks

/-!
# Settled runs

Whatever the supervisors do, ids are not given out twice and a run that has settled stays settled;
only the caller of a sub-graph is set running again, by its own success.
-/

namespace Rimsky

open Transaction List Store NodeRun NodeState

variable {s mid s' : Store} {row : NodeRun} {args : RunArgs}

theorem NodeState.drifts_isTerminal {a b : NodeState} (drifts : a.drifts b)
    (terminal : a.isTerminal) : b.isTerminal := by
  cases a <;> cases b <;> cases drifts <;> first | rfl | cases terminal

structure Store.Continues (s s' : Store) : Prop where
  later : s.nextId ≤ s'.nextId
  back : ∀ r' ∈ s'.runs, r'.id < s.nextId →
    ∃ r ∈ s.runs, r'.origin = r.origin ∧ (r.state.isTerminal → r'.state.isTerminal)

namespace Store.Continues

theorem of_same (later : s.nextId ≤ s'.nextId) (runs : s'.runs = s.runs) : s.Continues s' :=
  ⟨later, fun r mem _ => ⟨r, runs ▸ mem, rfl, id⟩⟩

theorem of_map {f : NodeRun → NodeRun} (origin : ∀ r ∈ s.runs, (f r).origin = r.origin)
    (settled : ∀ r ∈ s.runs, r.state.isTerminal → (f r).state.isTerminal) :
    s.Continues { s with runs := s.runs.map f } := by
  refine ⟨Nat.le_refl _, fun r' mem _ => ?_⟩
  rcases mem_map.mp mem with ⟨r, old, rfl⟩
  exact ⟨r, old, origin r old, settled r old⟩

theorem trans (first : s.Continues mid) (second : mid.Continues s') : s.Continues s' := by
  refine ⟨Nat.le_trans first.later second.later, fun r'' mem known => ?_⟩
  rcases second.back r'' mem (Nat.lt_of_lt_of_le known first.later) with
    ⟨r', between, origin', settled'⟩
  have same : r''.id = r'.id := congrArg (·.id) origin'
  rcases first.back r' between (same ▸ known) with ⟨r, old, origin, settled⟩
  exact ⟨r, old, origin'.trans origin, settled' ∘ settled⟩

theorem of_calm (calm : Calm s s') : s.Continues s' := by
  refine ⟨calm.later, fun r' mem known => ?_⟩
  rcases calm.back r' mem with ⟨r, old, evolves⟩ | begins
  · exact ⟨r, old, evolves.origin, drifts_isTerminal evolves.state⟩
  · exact absurd known (Nat.not_lt.mpr begins.fresh)

theorem of_opens (opens : Opens row s s') : s.Continues s' := by
  rcases opens.runs with ⟨t, runs⟩
  refine ⟨Nat.le_of_eq opens.nextId.symm, fun r' mem _ => ?_⟩
  rw [runs] at mem
  rcases mem_map.mp mem with ⟨r, old, rfl⟩
  refine ⟨r, old, ?_, fun terminal => ?_⟩
  · unfold passed
    split <;> rfl
  · rwa [passed_of_ne (by rintro pending; rw [pending] at terminal; cases terminal)]

theorem of_adds (adds : Adds row s s') : s.Continues s' := by
  refine ⟨Nat.le_of_lt (Nat.lt_of_le_of_lt adds.fresh adds.known), fun r' mem known => ?_⟩
  rcases adds.mem_runs mem with old | rfl
  · exact ⟨r', old, rfl, id⟩
  · exact absurd known (Nat.not_lt.mpr adds.fresh)

theorem deleteRuns (s : Store) (ids : List Id) : s.Continues (s.deleteRuns ids) := by
  refine ⟨Nat.le_refl _, fun r' mem _ => ?_⟩
  rcases mem_deleteRuns mem with ⟨r, old, core, -⟩
  have state : r'.state = r.state := congrArg (·.state) core
  have origin : r'.core.origin = r.core.origin := congrArg NodeRun.origin core
  exact ⟨r, old, origin, fun terminal => state ▸ terminal⟩

end Store.Continues

theorem RunChange.continues (change : RunChange anytime args s s') : s.Continues s' := by
  cases change with
  | calm calm => exact .of_calm calm
  | clears row clears => exact .of_opens clears.toOpens
  | keeps row opens _ => exact .of_opens opens
  | prunes prunes => cases prunes <;> exact .deleteRuns s _
  | spawns row spawns => exact .of_adds spawns.toAdds
  | scopes parentId opens => exact .of_same (Nat.le_of_eq opens.nextId.symm) opens.runs

namespace RunAction

/-- A delegating caller succeeds: it has settled, and waits for its sub-graph again. -/
def delegates (a : RunAction) : Bool :=
  match a.step with
  | .terminal acq _ _ t => t.kind = .complete && acq.nodeDef.any (·.isSubgraphEntryAbsorbed)
  | _ => false

theorem Effect.continues {a : RunAction} (effect : a.Effect anytime s s') (sound : s.RunsSound)
    (settles : a.delegates = false) : s.Continues s' := by
  cases effect with
  | tidy changes =>
    induction changes with
    | refl => exact .of_same (Nat.le_refl _) rfl
    | tail _ change ih => exact ih.trans change.continues
  | handles call _ handles =>
    rcases handles with ⟨f, rfl, rows⟩
    refine .of_map (fun r mem => (rows r mem).origin) fun r mem terminal => ?_
    rcases (rows r mem).state with same | ⟨stale, -⟩ | ⟨advanced, -⟩
    · exact same ▸ terminal
    · rw [stale] at terminal
      cases terminal
    · cases state : r.state <;> simp [state, isTerminal, isAdvanced] at terminal advanced
  | creates input row _ _ _ _ adds => exact .of_adds adds
  | parks acq _ _ t _ mid row _ calm found running parked =>
    refine (Store.Continues.of_calm calm).trans (parked ▸
      .of_map (fun r _ => ?_) fun r mem terminal => ?_)
    · unfold setOn
      split <;> rfl
    · -- the run that is parked was running
      have other : r.id ≠ acq.nodeRunId := by
        intro same
        have known : row.id = acq.nodeRunId := by simpa using find?_some found
        rw [(calm.sound sound).eq_of_id mem (known.symm ▸ found) (same.trans known.symm),
          running] at terminal
        cases terminal
      simpa [setOn, other] using terminal
  | reopens acq _ _ t step mid complete delegates calm changes =>
    simp [RunAction.delegates, step, complete, delegates] at settles
  | claims same later free => exact .of_same later same.1

/-- A run with the id of a run from before is that run, and has settled if it had. -/
theorem settled_for_good {s₀ s : Store} (sound : s₀.RunsSound)
    (run : Reaches next (fun s a => a.Enabled s ∧ a.delegates = false) s₀ s) {r r' : NodeRun}
    (mem : r ∈ s₀.runs) (mem' : r' ∈ s.runs) (same : r'.id = r.id) :
    r'.origin = r.origin ∧ (r.state.isTerminal → r'.state.isTerminal) := by
  have both : s.RunsSound ∧ s₀.Continues s := by
    refine run.invariant (I := fun s => s.RunsSound ∧
      s₀.Continues s) ?_ ⟨sound, .of_same (Nat.le_refl _) rfl⟩
    rintro s a s' ⟨sound, continues⟩ ⟨enabled, settles⟩ taken
    have effect := next_effect sound enabled taken
    exact ⟨effect.sound sound, continues.trans (effect.continues sound settles)⟩
  rcases both.2.back r' mem' (same ▸ sound.known r mem) with ⟨old, here, origin, settled⟩
  have this : old = r := sound.eq_of_id here (sound.run?_of_mem mem)
    ((congrArg (·.id) origin).symm.trans same)
  exact this ▸ ⟨origin, settled⟩

end RunAction

def Chain.sourceSucceeds (runId : Id) : List RunAction :=
  [start 1 .messageDelivery] ++ dispatch runId ++ [succeed runId [("total", .num "4")]]

/-- The source has settled; its next run comes and settles as well. -/
theorem Chain.settled_for_good_source : ∃ s s' : Store, ∃ r ∈ s.runs, ∃ r' ∈ s'.runs,
    s.runs.length < s'.runs.length ∧ r'.id = r.id ∧ r.state.isTerminal ∧ r'.state.isTerminal := by
  have run : (runAll RunAction.next (fun s a => a.Enabled s) (sourceSucceeds 10)
      (store (report []))).any
      fun s => (runAll RunAction.next (fun s a => a.Enabled s ∧ a.delegates = false)
        (sourceSucceeds 12) s).any fun s' => ∃ r ∈ s.runs, ∃ r' ∈ s'.runs,
          s.runs.length < s'.runs.length ∧ r'.id = r.id ∧ r.state.isTerminal := by
    decide +kernel
  rcases exists_reaches_of_runAll run with ⟨s, before, later⟩
  rcases exists_reaches_of_runAll later with ⟨s', after, holds⟩
  rcases of_decide_eq_true holds with ⟨r, mem, r', mem', more, same, settled⟩
  have sound := RunAction.sound_of_reaches (store_sound _) before
  exact ⟨s, s', r, mem, r', mem', more, same, settled,
    (RunAction.settled_for_good sound after mem mem' same).2 settled⟩

end Rimsky
