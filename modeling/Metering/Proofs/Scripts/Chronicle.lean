import Metering.Lifetime.Script

/-!
# The Chronicle of a Script

All that happens while a script is performed, as a tree: every operation with the lifetime that it
met and the tasks that it set off, and every task with the operations that it performed in its turn.

The tree is grown from the operations themselves, so that the moments of a run that the script does
not report (the lifetime between two operations of a task) can be spoken of. What the script does
report is read off the tree.
-/

namespace Metering.Lifetime.Script

/-! ## Stacks -/

/-- What is written down about an operation: its answer, if it has one and a task asked. -/
def entry : Option String → Option Bool → List String
  | some owner, some answer => [answerEntry owner answer]
  | _, _ => []

theorem work_announce (l : Lifetime Task) (name : String) (rest : List Item) :
    work l (.announce name :: rest) = (name :: (work l rest).1, (work l rest).2) := by
  rw [work]

theorem work_perform (l : Lifetime Task) (owner : Option String) (s : Step) (rest : List Item) :
    work l (.perform owner s :: rest) =
      (entry owner (s.apply l).1 ++
          (work (s.apply l).2.2 ((s.apply l).2.1.flatMap Task.items ++ rest)).1,
        (work (s.apply l).2.2 ((s.apply l).2.1.flatMap Task.items ++ rest)).2) := by
  rw [work.eq_def]
  dsimp only
  cases owner <;> cases (s.apply l).1 <;> rfl

/-- Of two stacks, one on top of the other, the upper one is worked off first, with whatever is put on
top of it. -/
theorem work_append (l : Lifetime Task) (xs ys : List Item) :
    work l (xs ++ ys) =
      ((work l xs).1 ++ (work (work l xs).2 ys).1, (work (work l xs).2 ys).2) := by
  induction l, xs using work.induct with
  | case1 l => simp [work]
  | case2 l name rest _ _ _ ih => simp only [List.cons_append, work_announce, ih]
  | case3 l owner s rest _ _ _ ih =>
    simp only [List.cons_append, work_perform]
    rw [← List.append_assoc, ih]
    simp only [List.append_assoc]

/-- Tasks are only ever moved, so those that wait in the end weighed at least as much before. -/
theorem weights_work_le (l : Lifetime Task) (items : List Item) :
    Task.weights (work l items).2.pending ≤ Item.weights items + Task.weights l.pending := by
  induction l, items using work.induct with
  | case1 l => simp [work]
  | case2 l name rest _ _ _ ih =>
    rw [work_announce]
    simp only [Item.weights]
    omega
  | case3 l owner s rest _ _ _ ih =>
    rw [work_perform]
    have hstep := s.apply_weights l
    rw [Item.weights_append, Task.weights_items] at ih
    simp only [Item.weights, Item.weight]
    omega

theorem weights_run_lt (l : Lifetime Task) (s : Step) :
    Task.weights (run l s).2.2.pending < s.weight + Task.weights l.pending := by
  have hwork := weights_work_le (s.apply l).2.2 ((s.apply l).2.1.flatMap Task.items)
  rw [Task.weights_items] at hwork
  exact Nat.lt_of_le_of_lt hwork (s.apply_weights l)

theorem weights_work_items_lt (l : Lifetime Task) (t : Task) :
    Task.weights (work l t.items).2.pending < t.weight + Task.weights l.pending := by
  have hwork := weights_work_le l (t.body.map (.perform (some t.name)))
  rw [Item.weights_perform] at hwork
  rw [Task.items, work_announce, Task.weight]
  dsimp only
  omega

/-! ## Trees -/

mutual

/-- An operation that was performed, with the lifetime that it met and the tasks that it set off. -/
inductive Deed where
  | mk (step : Step) (before : Lifetime Task) (runs : List TaskRun)

/-- A task that ran, with what it did. -/
inductive TaskRun where
  | mk (task : Task) (deeds : List Deed)

end

namespace Deed

def step : Deed → Step
  | mk s _ _ => s

def before : Deed → Lifetime Task
  | mk _ l _ => l

def runs : Deed → List TaskRun
  | mk _ _ rs => rs

/-- The answer that an operation was given, if it is one that is answered. -/
def answer (d : Deed) : Option Bool := (d.step.apply d.before).1

/-- The tasks that an operation was handed. -/
def handed (d : Deed) : List Task := (d.step.apply d.before).2.1

/-- The lifetime right after an operation, before any of the tasks that it set off. -/
def after (d : Deed) : Lifetime Task := (d.step.apply d.before).2.2

end Deed

namespace TaskRun

def task : TaskRun → Task
  | mk t _ => t

def deeds : TaskRun → List Deed
  | mk _ ds => ds

end TaskRun

-- Tasks move from the lifetime to those at hand, and every operation and every announcement is done
-- with once. A list counts one more than what it consists of, as its first part is entered first.
mutual

/-- What happens when an operation is performed: it is applied, and the tasks that it hands out run. -/
def deed (l : Lifetime Task) (s : Step) : Deed :=
  .mk s l (runs (s.apply l).2.2 (s.apply l).2.1)
termination_by 2 * (s.weight + Task.weights l.pending)
decreasing_by
  have := s.apply_weights l
  omega

/-- What happens when operations are performed one after the other. -/
def deeds (l : Lifetime Task) : List Step → List Deed
  | [] => []
  | s :: rest => deed l s :: deeds (run l s).2.2 rest
termination_by steps => 2 * (Step.weights steps + Task.weights l.pending) + 1
decreasing_by
  · simp only [Step.weights]
    omega
  · have := weights_run_lt l s
    simp only [Step.weights]
    omega

/-- What happens when tasks run one after the other. -/
def runs (l : Lifetime Task) : List Task → List TaskRun
  | [] => []
  | t :: rest => .mk t (deeds l t.body) :: runs (work l t.items).2 rest
termination_by tasks => 2 * (Task.weights tasks + Task.weights l.pending) + 1
decreasing_by
  · simp only [Task.weights, Task.weight]
    omega
  · have := weights_work_items_lt l t
    simp only [Task.weights]
    omega

end

/-! ## The order of time -/

mutual

/-- An operation and those performed because of it, in the order of time. -/
def Deed.moments : Deed → List Deed
  | .mk s l rs => .mk s l rs :: momentsOfRuns rs

/-- Operations and those performed because of them, in the order of time. -/
def moments : List Deed → List Deed
  | [] => []
  | d :: rest => d.moments ++ moments rest

/-- The operations that tasks performed, in the order of time. -/
def momentsOfRuns : List TaskRun → List Deed
  | [] => []
  | .mk _ ds :: rest => moments ds ++ momentsOfRuns rest

end

mutual

/-- What is written down from an operation on, until the last task that it set off has run. -/
def Deed.log (owner : Option String) : Deed → List String
  | .mk s l rs => entry owner (s.apply l).1 ++ logOfRuns rs

/-- What is written down while operations are performed. -/
def log (owner : Option String) : List Deed → List String
  | [] => []
  | d :: rest => d.log owner ++ log owner rest

/-- What is written down while tasks run. -/
def logOfRuns : List TaskRun → List String
  | [] => []
  | .mk t ds :: rest => t.name :: log (some t.name) ds ++ logOfRuns rest

end

/-- The lifetime that operations leave when each is applied to what the one before it left. -/
def standing (l : Lifetime Task) (ds : List Deed) : Lifetime Task :=
  ds.foldl (fun l d => (d.step.apply l).2.2) l

theorem standing_append (l : Lifetime Task) (xs ys : List Deed) :
    standing l (xs ++ ys) = standing (standing l xs) ys :=
  List.foldl_append

/-- Every operation met the lifetime that those before it had left. -/
def Chained : Lifetime Task → List Deed → Prop
  | _, [] => True
  | l, d :: rest => d.before = l ∧ Chained (d.step.apply l).2.2 rest

theorem chained_append {l : Lifetime Task} {xs ys : List Deed} :
    Chained l (xs ++ ys) ↔ Chained l xs ∧ Chained (standing l xs) ys := by
  induction xs generalizing l with
  | nil => simp [Chained, standing]
  | cons d rest ih =>
    rw [List.cons_append, Chained, Chained, ih, and_assoc]
    rfl

theorem mem_momentsOfRuns_of_mem {rs : List TaskRun} {r : TaskRun} {d : Deed} (hr : r ∈ rs)
    (hd : d ∈ moments r.deeds) : d ∈ momentsOfRuns rs := by
  induction rs with
  | nil => cases hr
  | cons r' rest ih =>
    obtain ⟨t, ds⟩ := r'
    rw [momentsOfRuns, List.mem_append]
    rcases List.mem_cons.mp hr with rfl | hr
    · exact .inl hd
    · exact .inr (ih hr)

/-! ## The tree and the script -/

theorem map_step_deeds (l : Lifetime Task) (steps : List Step) :
    (deeds l steps).map Deed.step = steps := by
  induction steps generalizing l with
  | nil => simp [deeds]
  | cons s rest ih => simp [deeds, deed, Deed.step, ih]

theorem map_task_runs (l : Lifetime Task) (tasks : List Task) :
    (runs l tasks).map TaskRun.task = tasks := by
  induction tasks generalizing l with
  | nil => simp [runs]
  | cons t rest ih => simp [runs, TaskRun.task, ih]

/-- A task that runs performs its operations, one after the other. -/
theorem exists_deeds_of_mem_runs {l : Lifetime Task} {tasks : List Task} {r : TaskRun}
    (h : r ∈ runs l tasks) : ∃ l', r.deeds = deeds l' r.task.body := by
  induction tasks generalizing l with
  | nil => simp [runs] at h
  | cons t rest ih =>
    rw [runs] at h
    rcases List.mem_cons.mp h with rfl | h
    · exact ⟨l, rfl⟩
    · exact ih h

theorem work_perform_snd (l : Lifetime Task) (owner : Option String) (s : Step) :
    (work l [.perform owner s]).2 = (run l s).2.2 := by
  rw [work_perform, List.append_nil]
  rfl

/-- Working off a stack writes down what the tree says, and leaves what the operations of the tree
leave. By the recursion of the tree. -/
theorem work_eq :
    (∀ l s owner, work l [.perform owner s] =
      ((deed l s).log owner, standing l (deed l s).moments)) ∧
    (∀ l tasks, work l (tasks.flatMap Task.items) =
      (logOfRuns (runs l tasks), standing l (momentsOfRuns (runs l tasks)))) ∧
    ∀ l steps owner, work l (steps.map (.perform owner)) =
      (log owner (deeds l steps), standing l (moments (deeds l steps))) := by
  refine deed.mutual_induct _ _ (fun l steps => ∀ owner, work l (steps.map (.perform owner)) = _)
    ?deed ?noTasks ?tasks ?noSteps ?steps
  case deed =>
    intro l s ih owner
    rw [work_perform, List.append_nil, ih, deed, Deed.log, Deed.moments]
    rfl
  case noTasks =>
    intro l
    simp [work, runs, logOfRuns, momentsOfRuns, standing]
  case tasks =>
    -- The stack of the first task lies on top of those of the others.
    intro l t rest ihbody ihrest
    have hitems : work l t.items = (t.name :: log (some t.name) (deeds l t.body),
        standing l (moments (deeds l t.body))) := by
      rw [Task.items, work_announce, ihbody]
    rw [List.flatMap_cons, work_append, ihrest, runs, logOfRuns, momentsOfRuns, standing_append, hitems]
  case noSteps =>
    intro l owner
    simp [work, deeds, log, moments, standing]
  case steps =>
    intro l s rest ihs ihrest owner
    rw [List.map_cons, ← List.singleton_append, work_append, work_perform_snd, ihrest, deeds, log, moments,
      standing_append, ← work_perform_snd l owner s, ihs]

theorem run_eq (l : Lifetime Task) (s : Step) :
    run l s = ((deed l s).answer, logOfRuns (deed l s).runs, standing l (deed l s).moments) := by
  have hwork := work_eq.2.1 (s.apply l).2.2 (s.apply l).2.1
  rw [run, deed, Deed.moments]
  dsimp only
  rw [hwork]
  rfl

/-- What a script reports, operation by operation, is what the tree says. -/
theorem runAll_eq (l : Lifetime Task) (steps : List Step) :
    runAll l steps =
      (deeds l steps).map fun d => (d.answer, logOfRuns d.runs, standing d.before d.moments) := by
  induction steps generalizing l with
  | nil => simp [runAll, deeds]
  | cons s rest ih =>
    rw [runAll, deeds, List.map_cons, ← ih, run_eq]
    simp only [deed, Deed.before]

theorem chained :
    (∀ l s, Chained l (deed l s).moments) ∧
    (∀ l tasks, Chained l (momentsOfRuns (runs l tasks))) ∧
    ∀ l steps, Chained l (moments (deeds l steps)) := by
  refine deed.mutual_induct _ _ _ ?deed ?noTasks ?tasks ?noSteps ?steps
  case deed =>
    intro l s ih
    rw [deed, Deed.moments]
    exact ⟨rfl, ih⟩
  case noTasks =>
    intro l
    rw [runs]
    trivial
  case tasks =>
    intro l t rest ihbody ihrest
    have hstate : (work l t.items).2 = standing l (moments (deeds l t.body)) := by
      rw [Task.items, work_announce, work_eq.2.2]
    rw [runs, momentsOfRuns, chained_append, ← hstate]
    exact ⟨ihbody, ihrest⟩
  case noSteps =>
    intro l
    rw [deeds]
    trivial
  case steps =>
    intro l s rest ihs ihrest
    have hstate : (run l s).2.2 = standing l (deed l s).moments := by
      rw [run_eq]
    rw [deeds, moments, chained_append, ← hstate]
    exact ⟨ihs, ihrest⟩

/-- Every operation of the tree is one with all that it set off, given the lifetime that it met. -/
theorem eq_deed_of_mem :
    (∀ l s, ∀ d ∈ (deed l s).moments, d = deed d.before d.step) ∧
    (∀ l tasks, ∀ d ∈ momentsOfRuns (runs l tasks), d = deed d.before d.step) ∧
    ∀ l steps, ∀ d ∈ moments (deeds l steps), d = deed d.before d.step := by
  refine deed.mutual_induct _ _ _ ?deed ?noTasks ?tasks ?noSteps ?steps
  case deed =>
    intro l s ih d hd
    rw [deed, Deed.moments] at hd
    rcases List.mem_cons.mp hd with rfl | hd
    · rw [deed]; rfl
    · exact ih d hd
  case noTasks =>
    intro l d hd
    simp [runs, momentsOfRuns] at hd
  case tasks =>
    intro l t rest ihbody ihrest d hd
    rw [runs, momentsOfRuns] at hd
    exact (List.mem_append.mp hd).elim (ihbody d) (ihrest d)
  case noSteps =>
    intro l d hd
    simp [deeds, moments] at hd
  case steps =>
    intro l s rest ihs ihrest d hd
    rw [deeds, moments] at hd
    exact (List.mem_append.mp hd).elim (ihs d) (ihrest d)

end Metering.Lifetime.Script
