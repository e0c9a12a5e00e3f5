import Metering.System.Collection

/-!
# Programs

Callbacks that follow a script. Each call plays the next pass of the program, and the last pass is played again and
again; a program without passes does nothing.
-/

namespace Metering

/-- What a callback does next; the instrument of an observation is named by a `ρ`. -/
inductive Action (ρ : Type) where
  | observe (target : ρ) (value : Float) (attributes : List Attribute)
  | panic (message : String)
  /-- Never returns. -/
  | hang
  /-- Notes down how much has been observed. -/
  | inspect

/-- A script for a callback, known by its name. -/
structure Program (ρ : Type) where
  name : String
  passes : List (List (Action ρ))

namespace Action

/-- The action with its target named otherwise. -/
def mapTarget {ρ τ : Type} (f : ρ → τ) : Action ρ → Action τ
  | observe target value attributes => observe (f target) value attributes
  | panic message => panic message
  | hang => hang
  | inspect => inspect

/-- The target of an observation. -/
def target? {ρ : Type} : Action ρ → Option ρ
  | observe target _ _ => some target
  | _ => none

end Action

namespace Program

/-- The message of a panic that carries none. -/
def unknownPanic : String := "unknown panic"

/-- The program with its targets named otherwise. -/
def mapTarget {ρ τ : Type} (f : ρ → τ) (p : Program ρ) : Program τ :=
  { name := p.name, passes := p.passes.map fun pass => pass.map (·.mapTarget f) }

/-- The targets that observations of the program name, each once. -/
def targets {ρ : Type} [BEq ρ] (p : Program ρ) : List ρ :=
  (p.passes.flatten.filterMap (·.target?)).eraseDups

/-- The pass played by the call with a number, counted from zero. -/
def pass {ρ : Type} (p : Program ρ) (n : Nat) : List (Action ρ) :=
  (p.passes[n]?.or p.passes.getLast?).getD []

end Program

/-- How much a callback has observed so far, as it notes it down. -/
def Feed.note (feed : Feed) (observations : List (Observation Float)) : String :=
  let table := feed.gather observations
  match feed with
  | .single n =>
    Text.record "Observer" [("observations", toString ((table.find? n).getD Table.empty).size)]
  | .batch _ => Text.record "BatchObserver" [("instruments", toString table.size)]

/-- Plays actions until one of them ends the call; gives the performance and what was noted down. -/
def Feed.play (feed : Feed) (before : List (Observation Float)) :
    List (Action ObserverRef) → Performance Float × List String
  | [] => (⟨before, .returned⟩, [])
  | .observe target value attributes :: rest => feed.play (before ++ [⟨target, attributes, value⟩]) rest
  | .panic message :: _ => (⟨before, .panicked message⟩, [])
  | .hang :: _ => (⟨before, .overran⟩, [])
  | .inspect :: rest =>
    let (performance, notes) := feed.play before rest
    (performance, feed.note before :: notes)

/-! ## Playbills -/

/-- A program on the bill: what it plays for a callback. -/
structure Role where
  feed : Feed
  program : Program ObserverRef

/-- Which callback plays which program, how often each program was called, and what it noted down. -/
structure Playbill where
  roles : Table CallbackRef Role
  called : Table String Nat
  notes : Table String (List String)

namespace Playbill

/-- The bill without programs. -/
def empty : Playbill := ⟨Table.empty, Table.empty, Table.empty⟩

/-- Gives a callback its role. -/
def assign (bill : Playbill) (c : CallbackRef) (role : Role) : Playbill :=
  { bill with roles := bill.roles.insert c role }

/-- Gives several callbacks their roles. -/
def assignAll (bill : Playbill) (roles : List (CallbackRef × Role)) : Playbill :=
  roles.foldl (fun bill e => bill.assign e.1 e.2) bill

/-- Answers the call of a callback with the next pass of its program. -/
def respond : Responder Playbill Float := fun bill c =>
  match bill.roles.find? c with
  | none => (⟨[], .returned⟩, bill)
  | some role =>
    let name := role.program.name
    let n := (bill.called.find? name).getD 0
    let (performance, notes) := role.feed.play [] (role.program.pass n)
    (performance,
      { bill with
        called := bill.called.insert name (n + 1)
        notes := if notes.isEmpty then bill.notes
          else bill.notes.update name fun found => found.getD [] ++ notes })

end Playbill

end Metering
