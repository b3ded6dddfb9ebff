/-
# Runs of a step function

A component is a function from its state and an input to an output and the
next state, which may fail (`ε`). `Run step s log s'` says that the component
went from `s` to `s'`, and `log` lists its steps in order, each with the state
it started from, its input and its output.

`Amid step env s log s'` is a run of one party among others: between its steps
the state changes as `env` allows, and only its own steps are in the log.

`runAll` runs a list of inputs and collects the outputs, `outputs` and `steps`
do so for a step function that cannot fail. Two runs are compared with `SameOutcome R`:
they fail alike, or give the same outputs and end in states that `R` relates.

Key theorems: `Run.invariant`, `Run.history`, `Run.related`, `Run.step_of_mem`, `Run.append`,
`Run.split`, `Run.mid`, `Run.simulated`, `Amid.history`, `Amid.mid`, `runAll_sameOutcome`, `outputs_invariant`,
`steps_invariant`.
-/
import Mathlib.Tactic.Common

namespace Simulators

/-- One step as it was taken: the state before, the input and the output. -/
structure Event (σ ι ο : Type) where
  pre : σ
  input : ι
  output : ο

section Run

variable {σ ι ο ε : Type} {step : σ → ι → Except ε (ο × σ)}

inductive Run (step : σ → ι → Except ε (ο × σ)) : σ → List (Event σ ι ο) → σ → Prop
  | nil (s : σ) : Run step s [] s
  | cons {s s' s'' : σ} {i : ι} {o : ο} {log : List (Event σ ι ο)} (h : step s i = .ok (o, s'))
      (hr : Run step s' log s'') : Run step s (⟨s, i, o⟩ :: log) s''

theorem Run.append {s s' s'' : σ} {l l' : List (Event σ ι ο)} (h : Run step s l s') (h' : Run step s' l' s'') :
    Run step s (l ++ l') s'' := by
  induction h with
  | nil _ => exact h'
  | cons h _ ih => exact .cons h (ih h')

/-- A run passes through a state between any two parts of its log. -/
theorem Run.split {s s'' : σ} : ∀ {l l' : List (Event σ ι ο)}, Run step s (l ++ l') s'' →
    ∃ s', Run step s l s' ∧ Run step s' l' s''
  | [], _, h => ⟨s, .nil s, h⟩
  | _ :: l, l', .cons hs h => by
    have htail : Run step _ (l ++ l') s'' := h
    obtain ⟨s', h1, h2⟩ := htail.split
    exact ⟨s', .cons hs h1, h2⟩

/-- A run takes each step of its log. -/
theorem Run.mid {s s'' : σ} {l l' : List (Event σ ι ο)} {e : Event σ ι ο} (h : Run step s (l ++ e :: l') s'') :
    ∃ next, Run step s l e.pre ∧ step e.pre e.input = .ok (e.output, next) ∧ Run step next l' s'' := by
  obtain ⟨_, hpast, hrest⟩ := h.split
  cases hrest with
  | @cons _ next _ _ _ _ hs hr => exact ⟨next, hpast, hs, hr⟩

/-- What the steps of a run preserve holds at its end. -/
theorem Run.invariant {I : σ → Prop} {P : Event σ ι ο → Prop}
    (hstep : ∀ s i o s', I s → P ⟨s, i, o⟩ → step s i = .ok (o, s') → I s')
    {s s' : σ} {log : List (Event σ ι ο)} (h : Run step s log s') (hP : ∀ e ∈ log, P e) (hI : I s) : I s' := by
  induction h with
  | nil _ => exact hI
  | cons h _ ih =>
    refine ih (fun e he => hP e (List.mem_cons_of_mem _ he)) ?_
    exact hstep _ _ _ _ hI (hP _ List.mem_cons_self) h

theorem Run.history_from {I : List (Event σ ι ο) → σ → Prop}
    (hstep : ∀ past s i o s', I past s → step s i = .ok (o, s') → I (past ++ [⟨s, i, o⟩]) s') {s s' : σ}
    {log : List (Event σ ι ο)} (h : Run step s log s') : ∀ before, I before s → I (before ++ log) s' := by
  induction h with
  | nil _ =>
    intro before hI
    rwa [List.append_nil]
  | cons h _ ih =>
    intro before hI
    have htail := ih _ (hstep before _ _ _ _ hI h)
    rwa [List.append_assoc, List.singleton_append] at htail

/-- What relates the steps so far to the state they led to. -/
theorem Run.history {I : List (Event σ ι ο) → σ → Prop}
    (hstep : ∀ past s i o s', I past s → step s i = .ok (o, s') → I (past ++ [⟨s, i, o⟩]) s') {s s' : σ}
    {log : List (Event σ ι ο)} (h : Run step s log s') (hI : I [] s) : I log s' :=
  h.history_from hstep [] hI

/-- Every event of a run is a step, from a state with what the steps preserve. -/
theorem Run.step_of_mem {I : σ → Prop} (hstep : ∀ s i o s', I s → step s i = .ok (o, s') → I s')
    {s s' : σ} {log : List (Event σ ι ο)} (h : Run step s log s') (hI : I s) {e : Event σ ι ο} (he : e ∈ log) :
    I e.pre ∧ ∃ t, step e.pre e.input = .ok (e.output, t) := by
  induction h with
  | nil _ => simp at he
  | cons h _ ih =>
    rcases List.mem_cons.mp he with rfl | he
    · exact ⟨hI, _, h⟩
    · exact ih (hstep _ _ _ _ hI h) he

/-- A run goes along any preorder that its steps go along. -/
theorem Run.related {R : σ → σ → Prop} (hrefl : ∀ s, R s s) (htrans : ∀ s s' s'', R s s' → R s' s'' → R s s'')
    (hstep : ∀ s i o s', step s i = .ok (o, s') → R s s') {s s' : σ} {log : List (Event σ ι ο)}
    (h : Run step s log s') : R s s' := by
  induction h with
  | nil s => exact hrefl s
  | cons h _ ih => exact htrans _ _ _ (hstep _ _ _ _ h) ih

/-! ### Among others -/

inductive Amid (step : σ → ι → Except ε (ο × σ)) (env : σ → σ → Prop) (s : σ) : List (Event σ ι ο) → σ → Prop
  | nil : Amid step env s [] s
  | env {s' s'' : σ} {log : List (Event σ ι ο)} (h : Amid step env s log s') (he : env s' s'') :
      Amid step env s log s''
  | own {s' s'' : σ} {log : List (Event σ ι ο)} {i : ι} {o : ο} (h : Amid step env s log s')
      (hs : step s' i = .ok (o, s'')) : Amid step env s (log ++ [⟨s', i, o⟩]) s''

/-- What relates a party's steps to the state they led to, if the others leave it alone. -/
theorem Amid.history {env : σ → σ → Prop} {I : List (Event σ ι ο) → σ → Prop}
    (hstep : ∀ past s i o s', I past s → step s i = .ok (o, s') → I (past ++ [⟨s, i, o⟩]) s')
    (henv : ∀ past s s', I past s → env s s' → I past s') {s s' : σ} {log : List (Event σ ι ο)}
    (h : Amid step env s log s') (hI : I [] s) : I log s' := by
  induction h with
  | nil => exact hI
  | env _ he ih => exact henv _ _ _ ih he
  | own _ hs ih => exact hstep _ _ _ _ _ ih hs

/-- Every event of a party is a step of it, after its own events before. -/
theorem Amid.mid {env : σ → σ → Prop} {s s'' : σ} {log : List (Event σ ι ο)} (h : Amid step env s log s'') :
    ∀ {past rest : List (Event σ ι ο)} {e : Event σ ι ο}, log = past ++ e :: rest →
      Amid step env s past e.pre ∧ ∃ next, step e.pre e.input = .ok (e.output, next) := by
  induction h with
  | nil => simp
  | env _ _ ih => exact ih
  | @own s' s'' log i o h hs ih =>
    intro past rest e hlog
    rcases List.eq_nil_or_concat rest with rfl | ⟨rest', x, rfl⟩
    · obtain ⟨rfl, hlast⟩ := List.append_inj' hlog rfl
      cases hlast
      exact ⟨h, s'', hs⟩
    · have hsplit : log ++ [⟨s', i, o⟩] = (past ++ e :: rest') ++ [x] := by simpa using hlog
      exact ih (List.append_inj' hsplit rfl).1

/-- One party's run, in other terms: its steps are steps again, or leave no trace. -/
theorem Amid.filterMap {τ κ υ : Type} {step' : τ → κ → Except ε (υ × τ)} {env : σ → σ → Prop} {env' : τ → τ → Prop}
    {f : σ → τ} {g : Event σ ι ο → Option (Event τ κ υ)}
    (hstep : ∀ s i o s', step s i = .ok (o, s') → g ⟨s, i, o⟩ = none ∧ env' (f s) (f s') ∨
      ∃ k u, g ⟨s, i, o⟩ = some ⟨f s, k, u⟩ ∧ step' (f s) k = .ok (u, f s'))
    (henv : ∀ s s', env s s' → env' (f s) (f s')) {s s' : σ} {log : List (Event σ ι ο)}
    (h : Amid step env s log s') : Amid step' env' (f s) (log.filterMap g) (f s') := by
  induction h with
  | nil => exact .nil
  | env _ he ih => exact .env ih (henv _ _ he)
  | own _ hs ih =>
    rw [List.filterMap_append]
    rcases hstep _ _ _ _ hs with ⟨hg, he⟩ | ⟨k, u, hg, hs'⟩
    · rw [List.filterMap_cons_none hg, List.filterMap_nil, List.append_nil]
      exact .env ih he
    · rw [List.filterMap_cons_some hg, List.filterMap_nil]
      exact .own ih hs'

/-- The steps taken on the inputs in turn, and the last state. -/
def trace (step : σ → ι → Except ε (ο × σ)) : σ → List ι → Except ε (List (Event σ ι ο) × σ)
  | s, [] => .ok ([], s)
  | s, i :: is =>
    match step s i with
    | .error e => .error e
    | .ok (o, s') =>
      match trace step s' is with
      | .error e => .error e
      | .ok (log, s'') => .ok (⟨s, i, o⟩ :: log, s'')

theorem run_of_trace : ∀ {is : List ι} {s s' : σ} {log : List (Event σ ι ο)}, trace step s is = .ok (log, s') →
    Run step s log s'
  | [], s, _, _, h => by
    cases h
    exact .nil s
  | i :: is, s, _, _, h => by
    unfold trace at h
    split at h
    · cases h
    · rename_i hstep
      split at h
      · cases h
      · rename_i htrace
        cases h
        exact .cons hstep (run_of_trace htrace)

/-- A test of a run: what came before its last step, that step, and the last state. -/
def testLast (f : List (Event σ ι ο) → Event σ ι ο → σ → Bool) (r : List (Event σ ι ο) × σ) : Bool :=
  match r.1.reverse with
  | e :: past => f past.reverse e r.2
  | [] => false

/-- A run that passes a test, from its trace. -/
theorem exists_run_of_trace {f : List (Event σ ι ο) → Event σ ι ο → σ → Bool} {s : σ} {is : List ι}
    (h : (trace step s is).map (testLast f) = .ok true) :
    ∃ past e s', Run step s (past ++ [e]) s' ∧ f past e s' = true := by
  rcases ht : trace step s is with _ | ⟨log, s'⟩
  · rw [ht] at h
    cases h
  · rw [ht] at h
    simp only [Except.map, testLast, Except.ok.injEq] at h
    split at h
    · rename_i e past hrev
      have hlog : log = past.reverse ++ [e] := by rw [← List.reverse_cons, ← hrev, List.reverse_reverse]
      exact ⟨past.reverse, e, s', hlog ▸ run_of_trace ht, h⟩
    · cases h

/-- The outputs of the inputs in turn, and the last state. -/
def runAll (step : σ → ι → Except ε (ο × σ)) : σ → List ι → Except ε (List ο × σ)
  | s, [] => .ok ([], s)
  | s, i :: is =>
    match step s i with
    | .error e => .error e
    | .ok (o, s') =>
      match runAll step s' is with
      | .error e => .error e
      | .ok (os, s'') => .ok (o :: os, s'')

theorem runAll_cons {s s' s'' : σ} {i : ι} {is : List ι} {o : ο} {os : List ο} (h : step s i = .ok (o, s'))
    (hr : runAll step s' is = .ok (os, s'')) : runAll step s (i :: is) = .ok (o :: os, s'') := by
  simp only [runAll, h, hr]

/-- The same failure, or the same output and related states. -/
inductive SameOutcome (R : σ → σ → Prop) : Except ε (ο × σ) → Except ε (ο × σ) → Prop
  | ok (o : ο) {s t : σ} (h : R s t) : SameOutcome R (.ok (o, s)) (.ok (o, t))
  | error (e : ε) : SameOutcome R (.error e) (.error e)

/-- What holds of every step from related states holds of every run. -/
theorem runAll_sameOutcome {R : σ → σ → Prop} {P : ι → Prop}
    (hstep : ∀ s t i, P i → R s t → SameOutcome R (step s i) (step t i)) :
    ∀ (is : List ι) (s t : σ), (∀ i ∈ is, P i) → R s t → SameOutcome R (runAll step s is) (runAll step t is)
  | [], _, _, _, h => .ok [] h
  | i :: is, s, t, hP, h => by
    have h1 := hstep s t i (hP i List.mem_cons_self) h
    simp only [runAll]
    generalize step s i = x at h1
    generalize step t i = y at h1
    cases h1 with
    | error e => exact .error e
    | @ok o s' t' h' =>
      have h2 := runAll_sameOutcome hstep is s' t' (fun j hj => hP j (List.mem_cons_of_mem i hj)) h'
      dsimp only
      generalize runAll step s' is = x at h2
      generalize runAll step t' is = y at h2
      cases h2 with
      | error e => exact .error e
      | ok os h'' => exact .ok (o :: os) h''

end Run

section Total

variable {σ ι ο : Type}

/-- The outputs of a step function that cannot fail, and the last state. -/
def outputs (step : σ → ι → ο × σ) : σ → List ι → List ο × σ
  | s, [] => ([], s)
  | s, i :: is =>
    let (os, s'') := outputs step (step s i).2 is
    ((step s i).1 :: os, s'')

/-- What every step preserves holds after any inputs. -/
theorem outputs_invariant {step : σ → ι → ο × σ} {I : σ → Prop} (hstep : ∀ s i, I s → I (step s i).2) :
    ∀ (is : List ι) (s : σ), I s → I (outputs step s is).2
  | [], _, h => h
  | i :: is, s, h => outputs_invariant hstep is (step s i).2 (hstep s i h)

/-- The steps taken on the inputs in turn. -/
def steps (step : σ → ι → ο × σ) : σ → List ι → List (Event σ ι ο)
  | _, [] => []
  | s, i :: is => ⟨s, i, (step s i).1⟩ :: steps step (step s i).2 is

theorem steps_concat (step : σ → ι → ο × σ) (i : ι) : ∀ (is : List ι) (s : σ),
    steps step s (is ++ [i]) =
      steps step s is ++ [⟨(outputs step s is).2, i, (step (outputs step s is).2 i).1⟩]
  | [], _ => rfl
  | j :: is, s => by
    rw [List.cons_append, steps, steps, steps_concat step i is]
    rfl

theorem steps_invariant_from {step : σ → ι → ο × σ} {I : List (Event σ ι ο) → σ → Prop}
    (hstep : ∀ past s i, I past s → I (past ++ [⟨s, i, (step s i).1⟩]) (step s i).2) :
    ∀ (is : List ι) (before : List (Event σ ι ο)) (s : σ), I before s →
      ∀ past e rest, steps step s is = past ++ e :: rest →
        I (before ++ past) e.pre ∧ e.output = (step e.pre e.input).1
  | [], _, _, _, past, e, rest, h => by simp [steps] at h
  | i :: is, before, s, hI, [], e, rest, h => by
    simp only [steps, List.nil_append, List.cons.injEq] at h
    rw [← h.1, List.append_nil]
    exact ⟨hI, rfl⟩
  | i :: is, before, s, hI, f :: past, e, rest, h => by
    simp only [steps, List.cons_append, List.cons.injEq] at h
    obtain ⟨rfl, h⟩ := h
    have ih := steps_invariant_from hstep is _ _ (hstep before s i hI) past e rest h
    rw [List.append_assoc, List.singleton_append] at ih
    exact ih

/-- What holds of a state and of the steps that led to it, before each step. -/
theorem steps_invariant {step : σ → ι → ο × σ} {I : List (Event σ ι ο) → σ → Prop} {s : σ} (hI : I [] s)
    (hstep : ∀ past s i, I past s → I (past ++ [⟨s, i, (step s i).1⟩]) (step s i).2) {is : List ι}
    {past rest : List (Event σ ι ο)} {e : Event σ ι ο} (h : steps step s is = past ++ e :: rest) :
    I past e.pre ∧ e.output = (step e.pre e.input).1 :=
  steps_invariant_from hstep is [] s hI past e rest h

/-- The steps have the same input, and outputs that `Q` relates. -/
def Event.Matches {τ ο' : Type} (Q : ι → ο → ο' → Prop) (e : Event σ ι ο) (e' : Event τ ι ο') : Prop :=
  e'.input = e.input ∧ Q e.input e.output e'.output

/-- A run, step by step beside a component that cannot fail. -/
theorem Run.simulated {τ ο' ε : Type} {step : σ → ι → Except ε (ο × σ)} {step' : τ → ι → ο' × τ} {R : σ → τ → Prop}
    {Q : ι → ο → ο' → Prop} (hstep : ∀ {s i o s' t}, R s t → step s i = .ok (o, s') →
      Q i o (step' t i).1 ∧ R s' (step' t i).2) {s s' : σ} {log : List (Event σ ι ο)} (h : Run step s log s') :
    ∀ {t : τ}, R s t → List.Forall₂ (Event.Matches Q) log (steps step' t (log.map (·.input))) ∧
      R s' (outputs step' t (log.map (·.input))).2 := by
  induction h with
  | nil _ => exact fun ht => ⟨.nil, ht⟩
  | cons hs _ ih =>
    intro t ht
    obtain ⟨hq, ht'⟩ := hstep ht hs
    obtain ⟨hlog, hend⟩ := ih ht'
    exact ⟨.cons ⟨rfl, hq⟩ hlog, hend⟩

end Total

end Simulators
