import Rimsky.Lib.Run

/-!
# Programs over atomic operations

A program calls operations one at a time and goes on with their answers. What an operation
does to the state is given apart from the programs, and may depend on a choice of the
environment: a fault, a lost answer. A program is run alone, with a choice for each operation,
or interleaved with others, one operation at a time.

What holds over every interleaving is proved from a global invariant and an assertion for each
program that the operations of the others leave true.
-/

namespace Rimsky

open List

/-- A program whose operations have answers of their own type. -/
inductive Program (Op : Type) (Ans : Op → Type) (α : Type) where
  | ret (a : α)
  | call (op : Op) (next : Ans op → Program Op Ans α)

namespace Program

variable {Op : Type} {Ans : Op → Type} {α β : Type}

protected def bind : Program Op Ans α → (α → Program Op Ans β) → Program Op Ans β
  | .ret a, next => next a
  | .call op rest, next => .call op fun answer => (rest answer).bind next

instance : Monad (Program Op Ans) where
  pure := .ret
  bind := Program.bind

def perform (op : Op) : Program Op Ans (Ans op) := .call op .ret

def Only (may : Op → Prop) : Program Op Ans α → Prop
  | .ret _ => True
  | .call op next => may op ∧ ∀ answer, (next answer).Only may

variable {p : Program Op Ans α}

theorem Only.mono {may may' : Op → Prop} (weaker : ∀ op, may op → may' op) (only : p.Only may) :
    p.Only may' := by
  induction p with
  | ret a => trivial
  | call op next ih => exact ⟨weaker op only.1, fun answer => ih answer (only.2 answer)⟩

theorem Only.bind {may : Op → Prop} {next : α → Program Op Ans β} (first : p.Only may)
    (rest : ∀ a, (next a).Only may) : (p >>= next).Only may := by
  induction p with
  | ret a => exact rest a
  | call op cont ih => exact ⟨first.1, fun answer => ih answer (first.2 answer)⟩

/-- No path leads to such a result except through an operation with a marked answer. -/
def Through (mark : (op : Op) → Ans op → Prop) (result : α → Prop) : Program Op Ans α → Prop
  | .ret a => ¬result a
  | .call op next => ∀ answer, mark op answer ∨ (next answer).Through mark result

theorem Through.bind {mark : (op : Op) → Ans op → Prop} {between : α → Prop} {result : β → Prop}
    {next : α → Program Op Ans β} (first : p.Through mark between)
    (rest : ∀ a, ¬between a → (next a).Through mark result) : (p >>= next).Through mark result := by
  induction p with
  | ret a => exact rest a first
  | call op cont ih => exact fun answer => (first answer).imp id (ih answer)

/-- A program run to its end, where this is what its operations do. -/
def runWith {σ : Type} (exec : (op : Op) → σ → Ans op × σ) : Program Op Ans α → σ → α × σ
  | .ret a, s => (a, s)
  | .call op next, s => (next (exec op s).1).runWith exec (exec op s).2

theorem runWith_bind {σ : Type} (exec : (op : Op) → σ → Ans op × σ) (p : Program Op Ans α)
    (next : α → Program Op Ans β) (s : σ) : (p >>= next).runWith exec s =
      (next (p.runWith exec s).1).runWith exec (p.runWith exec s).2 := by
  induction p generalizing s with
  | ret a => rfl
  | call op rest ih => exact ih _ _

end Program

/-- Programs for the calls of a system, and what their operations do to its state. -/
structure CallSystem where
  Op : Type
  Ans : Op → Type
  State : Type
  Call : Type
  Result : Type
  Choice : Type
  execute : (op : Op) → Choice → State → Ans op × State
  program : Call → Program Op Ans Result

namespace CallSystem

variable (S : CallSystem)

abbrev Prog (α : Type) := Program S.Op S.Ans α

/-- A program run to its end; operations beyond the given choices meet the default one. -/
def run [Inhabited S.Choice] {α : Type} : S.Prog α → List S.Choice → S.State → α × S.State
  | .ret a, _, s => (a, s)
  | .call op next, choices, s =>
    let out := S.execute op (choices.headD default) s
    run (next out.1) choices.tail out.2

/-- A program can be run from one state to another with a result, under such choices. -/
inductive Runs (can : S.Choice → Prop) {α : Type} : S.Prog α → S.State → α → S.State → Prop where
  | ret (a : α) (s : S.State) : Runs can (.ret a) s a s
  | call {op : S.Op} {next : S.Ans op → S.Prog α} {s t : S.State} {a : α} (choice : S.Choice)
      (may : can choice)
      (rest : Runs can (next (S.execute op choice s).1) (S.execute op choice s).2 a t) :
      Runs can (.call op next) s a t

variable {S} {can : S.Choice → Prop}

theorem runs_run [Inhabited S.Choice] {α : Type} (p : S.Prog α) {choices : List S.Choice}
    (each : ∀ choice ∈ choices, can choice) (beyond : can default) (s : S.State) :
    S.Runs can p s (S.run p choices s).1 (S.run p choices s).2 := by
  induction p generalizing choices s with
  | ret a => exact .ret a s
  | call op next ih =>
    cases choices with
    | nil => exact .call default beyond (ih _ each _)
    | cons choice choices =>
      exact .call choice (each choice mem_cons_self)
        (ih _ (fun c mem => each c (mem_cons_of_mem _ mem)) _)

variable {s : S.State} {t : S.State}

theorem Runs.of_ret {α : Type} {a b : α} (runs : S.Runs can (.ret a) s b t) : b = a ∧ t = s := by
  cases runs
  exact ⟨rfl, rfl⟩

theorem Runs.of_call {α : Type} {op : S.Op} {next : S.Ans op → S.Prog α} {a : α}
    (runs : S.Runs can (.call op next) s a t) :
    ∃ choice, can choice ∧
      S.Runs can (next (S.execute op choice s).1) (S.execute op choice s).2 a t := by
  cases runs with
  | call choice may rest => exact ⟨choice, may, rest⟩

theorem Runs.of_perform {β : Type} {op : S.Op} {next : S.Ans op → S.Prog β} {b : β}
    (runs : S.Runs can (Program.perform op >>= next) s b t) :
    ∃ choice, can choice ∧
      S.Runs can (next (S.execute op choice s).1) (S.execute op choice s).2 b t :=
  Runs.of_call runs

theorem Runs.of_bind {α β : Type} {p : S.Prog α} {next : α → S.Prog β} {b : β}
    (runs : S.Runs can (p >>= next) s b t) :
    ∃ a mid, S.Runs can p s a mid ∧ S.Runs can (next a) mid b t := by
  induction p generalizing s with
  | ret a => exact ⟨a, s, .ret a s, runs⟩
  | call op rest ih =>
    rcases runs.of_call with ⟨choice, may, runs⟩
    rcases ih _ runs with ⟨a, mid, first, second⟩
    exact ⟨a, mid, .call choice may first, second⟩

theorem Runs.of_only {α : Type} {R : S.State → S.State → Prop} {may : S.Op → Prop}
    (refl : ∀ s, R s s) (trans : ∀ s t u, R s t → R t u → R s u)
    (step : ∀ op choice s, may op → R s (S.execute op choice s).2) {p : S.Prog α}
    (only : p.Only may) {a : α} (runs : S.Runs can p s a t) : R s t := by
  induction runs with
  | ret a s => exact refl s
  | call choice _ _ ih => exact trans _ _ _ (step _ choice _ only.1) (ih (only.2 _))

variable (S)

/-- A call with what is left of its program; one that has returned keeps its result. -/
structure Thread where
  call : S.Call
  prog : S.Prog S.Result

/-- An operation of a call, with its answer and the state before and after it. -/
structure Event where
  call : S.Call
  op : S.Op
  answer : S.Ans op
  before : S.State
  after : S.State

/-- The state, the calls made so far, and the operations so far, the newest first. -/
structure World where
  state : S.State
  threads : List S.Thread := []
  past : List S.Event := []

inductive Label where
  /-- A call is made. -/
  | start (call : S.Call)
  /-- The next operation of the call at the index is executed. -/
  | advance (index : Nat) (choice : S.Choice)

variable {S}

def World.event (w : S.World) (call : S.Call) (op : S.Op) (choice : S.Choice) : S.Event :=
  ⟨call, op, (S.execute op choice w.state).1, w.state, (S.execute op choice w.state).2⟩

def World.step (w : S.World) : S.Label → Option S.World
  | .start call => some { w with threads := w.threads ++ [⟨call, S.program call⟩] }
  | .advance index choice =>
    match w.threads[index]? with
    | some ⟨call, .call op next⟩ =>
      let out := S.execute op choice w.state
      some {
        state := out.2
        threads := w.threads.set index ⟨call, next out.1⟩
        past := w.event call op choice :: w.past }
    | _ => none

variable {w : S.World} {w' : S.World} {label : S.Label}

theorem World.step_cases (taken : w.step label = some w') :
    (∃ call, label = .start call ∧
      w' = { w with threads := w.threads ++ [⟨call, S.program call⟩] }) ∨
    ∃ index choice call op next, label = .advance index choice ∧
      w.threads[index]? = some ⟨call, .call op next⟩ ∧
      w' = {
        state := (S.execute op choice w.state).2
        threads := w.threads.set index ⟨call, next (S.execute op choice w.state).1⟩
        past := w.event call op choice :: w.past } := by
  cases label with
  | start call => exact .inl ⟨call, rfl, (Option.some.inj taken).symm⟩
  | advance index choice =>
    rw [World.step] at taken
    split at taken
    case h_1 call op next at' =>
      exact .inr ⟨index, choice, call, op, next, rfl, at', (Option.some.inj taken).symm⟩
    case h_2 => simp at taken

variable {t : S.Thread}

theorem World.returned_of_step (taken : w.step label = some w') {r : S.Result}
    (returned : t.prog = .ret r) (mem : t ∈ w.threads) :
    t ∈ w'.threads := by
  rcases World.step_cases taken with
    ⟨call, rfl, rfl⟩ | ⟨index, choice, call, op, next, rfl, at', rfl⟩
  · exact mem_append_left _ mem
  · rcases getElem?_of_mem mem with ⟨other, found⟩
    have ne : index ≠ other := by
      rintro rfl
      rw [at'] at found
      cases found
      cases returned
    refine mem_of_getElem? (i := other) ?_
    rw [getElem?_set_ne ne]
    exact found

theorem World.call_of_step (taken : w.step label = some w') (mem : t ∈ w'.threads) :
    (∃ old ∈ w.threads, old.call = t.call) ∨ label = .start t.call := by
  rcases World.step_cases taken with
    ⟨call, rfl, rfl⟩ | ⟨index, choice, call, op, next, rfl, at', rfl⟩
  · rcases mem_append.mp mem with old | new
    · exact .inl ⟨t, old, rfl⟩
    · cases mem_singleton.mp new
      exact .inr rfl
  · left
    rcases mem_or_eq_of_mem_set mem with old | rfl
    · exact ⟨t, old, rfl⟩
    · exact ⟨_, mem_of_getElem? at', rfl⟩

theorem World.exists_call_of_step (taken : w.step label = some w') (mem : t ∈ w.threads) :
    ∃ new ∈ w'.threads, new.call = t.call := by
  rcases World.step_cases taken with
    ⟨call, rfl, rfl⟩ | ⟨index, choice, call, op, next, rfl, at', rfl⟩
  · exact ⟨t, mem_append_left _ mem, rfl⟩
  · rcases getElem?_of_mem mem with ⟨other, found⟩
    rcases eq_or_ne index other with rfl | ne
    · rw [at'] at found
      cases found
      exact ⟨_, mem_set (List.getElem?_eq_some_iff.mp at').1 _, rfl⟩
    · refine ⟨t, mem_of_getElem? (i := other) ?_, rfl⟩
      rw [getElem?_set_ne ne]
      exact found

section Outline

variable (I : S.State → List S.Event → Prop)
  (A : S.State → List S.Event → S.Call → S.Prog S.Result → Prop)

structure World.Holds (w : S.World) : Prop where
  global : I w.state w.past
  each : ∀ t ∈ w.threads, A w.state w.past t.call t.prog

structure World.Turn (w : S.World) (index : Nat) (call : S.Call) (op : S.Op)
    (next : S.Ans op → S.Prog S.Result) : Prop extends w.Holds I A where
  at_index : w.threads[index]? = some ⟨call, .call op next⟩

variable {I A} {allowed : S.World → S.Label → Prop}

theorem World.Turn.own {index call op next} (turn : w.Turn I A index call op next) :
    A w.state w.past call (.call op next) :=
  turn.each _ (mem_of_getElem? turn.at_index)

/--
A call starts with its assertion; an operation keeps the invariant, takes its call from one
assertion to the next and leaves those of the other calls true. Then all of them hold along
every run.
-/
theorem World.Holds.of_reaches
    (start : ∀ (w : S.World) call, w.Holds I A → allowed w (.start call) →
      A w.state w.past call (S.program call))
    (advance : ∀ (w : S.World) index choice call op next, w.Turn I A index call op next →
      I (S.execute op choice w.state).2 (w.event call op choice :: w.past) ∧
      A (S.execute op choice w.state).2 (w.event call op choice :: w.past) call
      (next (S.execute op choice w.state).1))
    (others : ∀ (w : S.World) index choice call op next,
      w.Turn I A index call op next → ∀ other (t : S.Thread), other ≠ index →
      w.threads[other]? = some t →
      A (S.execute op choice w.state).2 (w.event call op choice :: w.past) t.call t.prog)
    (run : Reaches World.step allowed w w') (holds : w.Holds I A) :
    w'.Holds I A := by
  refine run.invariant ?_ holds
  intro w label w' holds may taken
  rcases World.step_cases taken with
    ⟨call, rfl, rfl⟩ | ⟨index, choice, call, op, next, rfl, at', rfl⟩
  · refine ⟨holds.global, fun t mem => ?_⟩
    rcases mem_append.mp mem with old | new
    · exact holds.each t old
    · cases mem_singleton.mp new
      exact start w call holds may
  · have turn : w.Turn I A index call op next := ⟨holds, at'⟩
    have done := advance w index choice call op next turn
    refine ⟨done.1, fun t mem => ?_⟩
    rcases getElem?_of_mem mem with ⟨other, found⟩
    rcases eq_or_ne other index with rfl | ne
    · have inside : other < w.threads.length := (List.getElem?_eq_some_iff.mp at').1
      rw [getElem?_set_self inside] at found
      cases found
      exact done.2
    · rw [getElem?_set_ne ne.symm] at found
      exact others w index choice call op next turn other t ne found

end Outline

variable {allowed : S.World → S.Label → Prop}

theorem only_of_reaches {may : S.Call → S.Op → Prop}
    (only : ∀ call, (S.program call).Only (may call))
    (run : Reaches World.step allowed ⟨s, [], []⟩ w) : ∀ e ∈ w.past, may e.call e.op := by
  have holds : w.Holds (fun _ past => ∀ e ∈ past, may e.call e.op)
      (fun _ _ call prog => prog.Only (may call)) := by
    refine World.Holds.of_reaches (fun w call _ _ => only call) ?_ ?_ run ⟨by simp, by simp⟩
    · intro w index choice call op next turn
      exact ⟨forall_mem_cons.mpr ⟨turn.own.1, turn.global⟩, turn.own.2 _⟩
    · intro w index choice call op next turn other t _ found
      exact turn.each t (mem_of_getElem? found)
  exact holds.global

theorem executed_of_reaches (run : Reaches World.step allowed ⟨s, [], []⟩ w) :
    ∀ e ∈ w.past, ∃ choice, S.execute e.op choice e.before = (e.answer, e.after) := by
  have holds : w.Holds (fun _ past => ∀ e ∈ past, ∃ choice,
      S.execute e.op choice e.before = (e.answer, e.after)) (fun _ _ _ _ => True) := by
    refine World.Holds.of_reaches (fun w call _ _ => trivial) ?_ ?_ run ⟨by simp, by simp⟩
    · intro w index choice call op next turn
      exact ⟨forall_mem_cons.mpr ⟨⟨choice, rfl⟩, turn.global⟩, trivial⟩
    · intro w index choice call op next turn other t _ found
      trivial
  exact holds.global

theorem marked_of_returned {call : S.Call} {mark : (op : S.Op) → S.Ans op → Prop}
    {result : S.Result → Prop} (through : (S.program call).Through mark result)
    (run : Reaches World.step allowed ⟨s, [], []⟩ w) {r : S.Result}
    (returned : ⟨call, .ret r⟩ ∈ w.threads) (wanted : result r) :
    ∃ e ∈ w.past, e.call = call ∧ mark e.op e.answer := by
  have holds : w.Holds (fun _ _ => True) (fun _ past call' prog => call' = call →
      prog.Through mark result ∨ ∃ e ∈ past, e.call = call ∧ mark e.op e.answer) := by
    refine World.Holds.of_reaches (fun w call' _ _ same => .inl (same ▸ through)) ?_ ?_ run
      ⟨trivial, by simp⟩
    · intro w index choice call' op next turn
      refine ⟨trivial, fun same => ?_⟩
      rcases turn.own same with through | ⟨e, mem, marked⟩
      · rcases through (S.execute op choice w.state).1 with marked | rest
        · exact .inr ⟨_, mem_cons_self, same, marked⟩
        · exact .inl rest
      · exact .inr ⟨e, mem_cons_of_mem _ mem, marked⟩
    · intro w index choice call' op next turn other t _ found same
      rcases turn.each t (mem_of_getElem? found) same with through | ⟨e, mem, marked⟩
      · exact .inl through
      · exact .inr ⟨e, mem_cons_of_mem _ mem, marked⟩
  rcases holds.each _ returned rfl with unreached | marked
  · exact absurd wanted unreached
  · exact marked

end CallSystem

end Rimsky
