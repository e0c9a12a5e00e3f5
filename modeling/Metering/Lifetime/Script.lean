import Metering.Lifetime.Basic

/-!
# Scripts on a lifetime

Sequences of operations on one lifetime, in which a task left for the end is itself a sequence of operations. A task
runs as soon as it is handed out, before anything that was to come next, so the operations still to be done form a
stack.

Each operation takes its own weight off the stack and at most moves waiting tasks onto it, which is why a script
ends.
-/

namespace Metering.Lifetime.Script

/-! ## Operations -/

/-- An operation on a lifetime. -/
inductive Step where
  | acquire (f : Flavour)
  | tryAcquire (f : Flavour)
  | release (f : Flavour)
  | check
  | isStale
  /-- Leaves a task, known by a name, that performs further operations. -/
  | onStale (name : String) (body : List Step)

/-- A task left for the end of a lifetime. -/
structure Task where
  name : String
  body : List Step

/-- Something to be done: announce a task, or perform an operation, as part of a task or by itself. -/
inductive Item where
  | announce (name : String)
  | perform (owner : Option String) (step : Step)

/-- What a task comes to on the stack: its name is announced, then its operations are performed. -/
def Task.items (t : Task) : List Item := .announce t.name :: t.body.map (.perform (some t.name))

/-! ## Weights -/

mutual

/-- How much work an operation can cause, tasks that it leaves included. -/
def Step.weight : Step → Nat
  | .onStale _ body => 3 + Step.weights body
  | _ => 1

/-- How much work a list of operations can cause. -/
def Step.weights : List Step → Nat
  | [] => 0
  | s :: rest => s.weight + Step.weights rest

end

/-- The weight of a task that has been handed out. -/
def Task.weight (t : Task) : Nat := 1 + Step.weights t.body

/-- The weight of a list of tasks. -/
def Task.weights : List Task → Nat
  | [] => 0
  | t :: rest => t.weight + Task.weights rest

/-- The weight of something to be done. -/
def Item.weight : Item → Nat
  | announce _ => 1
  | perform _ s => s.weight

/-- The weight of a stack. -/
def Item.weights : List Item → Nat
  | [] => 0
  | i :: rest => i.weight + Item.weights rest

theorem Task.weights_append (xs ys : List Task) :
    Task.weights (xs ++ ys) = Task.weights xs + Task.weights ys := by
  induction xs with
  | nil => simp [Task.weights]
  | cons t rest ih => simp only [List.cons_append, Task.weights, ih, Nat.add_assoc]

theorem Item.weights_append (xs ys : List Item) :
    Item.weights (xs ++ ys) = Item.weights xs + Item.weights ys := by
  induction xs with
  | nil => simp [Item.weights]
  | cons i rest ih => simp only [List.cons_append, Item.weights, ih, Nat.add_assoc]

theorem Item.weights_perform (o : Option String) (steps : List Step) :
    Item.weights (steps.map (.perform o)) = Step.weights steps := by
  induction steps with
  | nil => rfl
  | cons s rest ih => simp only [List.map_cons, Item.weights, Item.weight, ih, Step.weights]

theorem Task.weights_items (ts : List Task) : Item.weights (ts.flatMap Task.items) = Task.weights ts := by
  induction ts with
  | nil => rfl
  | cons t rest ih =>
    rw [List.flatMap_cons, Item.weights_append, ih, Task.items, Item.weights, Item.weights_perform, Item.weight,
      Task.weights, Task.weight]

/-! ## Performing -/

/-- What an operation does: its answer, if it has one, the tasks it hands out, and the lifetime after it. -/
def Step.apply (l : Lifetime Task) : Step → Option Bool × List Task × Lifetime Task
  | .acquire f => (none, [], (l.acquire f).2)
  | .tryAcquire f => (some (l.acquire f).1, [], (l.acquire f).2)
  | .release f => (none, (l.release f).2)
  | .check => (none, l.settle)
  | .isStale => (some l.stale, [], l)
  | .onStale name body => (none, l.await ⟨name, body⟩)

theorem settle_weights (l : Lifetime Task) :
    Task.weights l.settle.1 + Task.weights l.settle.2.pending = Task.weights l.pending := by
  unfold Lifetime.settle
  split <;> simp [Task.weights]

theorem Step.apply_weights (l : Lifetime Task) (s : Step) :
    Task.weights (s.apply l).2.1 + Task.weights (s.apply l).2.2.pending < s.weight + Task.weights l.pending := by
  have pending_withCount (n : Nat) (f : Flavour) : (l.withCount n f).pending = l.pending := by cases f <;> rfl
  cases s with
  | acquire f | tryAcquire f =>
    simp only [apply, Lifetime.acquire, weight]
    split <;> simp [pending_withCount, Task.weights]
  | release f =>
    simp only [apply, Lifetime.release, weight]
    split
    · simp [Task.weights]
    · -- Tasks are handed out or still wait, and weigh the same.
      have := settle_weights (l.withCount (l.count f - 1) f)
      rw [pending_withCount] at this
      simp only
      omega
  | check => have := settle_weights l; simp only [apply, weight]; omega
  | isStale => simp [apply, weight, Task.weights]
  | onStale name body =>
    simp only [apply, Lifetime.await, weight]
    split
    · simp only [Task.weights, Task.weight]
      omega
    · simp only [Task.weights, Task.weights_append, Task.weight]
      omega

/-- What is written down about an answer given to a task. -/
def answerEntry (owner : String) (answer : Bool) : String := owner ++ ":" ++ toString answer

/-- Works off a stack, handed-out tasks first, and writes down what tasks announce and are answered. -/
def work (l : Lifetime Task) : List Item → List String × Lifetime Task
  | [] => ([], l)
  | .announce name :: rest =>
    let (log, l') := work l rest
    (name :: log, l')
  | .perform owner s :: rest =>
    let entry := match owner, (s.apply l).1 with
      | some o, some b => [answerEntry o b]
      | _, _ => []
    -- What was handed out goes on top of the stack.
    let (log, l') := work (s.apply l).2.2 ((s.apply l).2.1.flatMap Task.items ++ rest)
    (entry ++ log, l')
termination_by items => Item.weights items + Task.weights l.pending
decreasing_by
  · simp [Item.weights, Item.weight]
  · -- Tasks only move from the lifetime to the stack, and the operation leaves it.
    rw [Item.weights_append, Task.weights_items]
    have := s.apply_weights l
    have hw : Item.weights (.perform owner s :: rest) = s.weight + Item.weights rest := by
      simp [Item.weights, Item.weight]
    omega

/-- What one operation brings about: its answer, what is written down until the last task it set off has run, and
the lifetime then. -/
def run (l : Lifetime Task) (s : Step) : Option Bool × List String × Lifetime Task :=
  let (answer, tasks, l') := s.apply l
  (answer, work l' (tasks.flatMap Task.items))

/-- The outcomes of a sequence of operations. -/
def runAll (l : Lifetime Task) : List Step → List (Option Bool × List String × Lifetime Task)
  | [] => []
  | s :: rest =>
    let outcome := run l s
    outcome :: runAll outcome.2.2 rest

end Metering.Lifetime.Script
