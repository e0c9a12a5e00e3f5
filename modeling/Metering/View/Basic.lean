import Metering.Aggregation.Choice
import Metering.View.Pattern

/-!
# Views

A view selects instruments and says what their streams look like: name, description, the attribute keys that are
kept, the aggregation, and how many exemplars are sampled. What a view leaves open comes from the instrument.
-/

namespace Metering

/-! ## Selection -/

/-- Which instruments a view selects; an absent criterion selects all. -/
structure Criteria where
  name : Option NamePattern
  kind : Option Kind
  unit : Option String
  scopeName : Option String
  scopeVersion : Option String
  schemaUrl : Option String
  deriving DecidableEq

namespace Criteria

/-- Whether no criterion is given. -/
def isEmpty (c : Criteria) : Bool :=
  c.name.isNone && c.kind.isNone && c.unit.isNone && c.scopeName.isNone && c.scopeVersion.isNone &&
    c.schemaUrl.isNone

/-- Whether an instrument of a scope meets every criterion. -/
def accepts (c : Criteria) (scope : Scope) (i : Identity) : Bool :=
  c.name.all (·.accepts i.name) && c.kind.all (· == i.kind) && c.unit.all (i.unit == some ·) &&
    c.scopeName.all (scope.name == ·) && c.scopeVersion.all (scope.version == some ·) &&
    c.schemaUrl.all (scope.schemaUrl == some ·)

end Criteria

/-! ## Projection -/

/-- What the streams of an instrument look like. -/
structure Projection (α : Type) where
  name : String
  unit : Option String
  description : Option String
  filter : Option AttributeFilter
  aggregation : Option (Aggregation α)
  /-- The size of the exemplar reservoir of each series, if exemplars are sampled. -/
  reservoir : Option Nat

/-- A selection of instruments with what to change about their streams. -/
structure View (α : Type) where
  criteria : Criteria
  name : Option String
  description : Option String
  keys : Option (List String)
  aggregation : Option (Aggregation α)
  reservoir : Option Nat

/-- The streams of an instrument that no view selects. -/
def Projection.identity {α : Type} (i : Instrument α) : Projection α :=
  { name := i.identity.name
    unit := i.identity.unit
    description := i.identity.description
    filter := i.advice.keys.map AttributeFilter.ofList
    aggregation := none
    reservoir := none }

namespace View

variable {α : Type}

/-- The streams of an instrument under a view. -/
def project (v : View α) (i : Instrument α) : Projection α :=
  { name := v.name.getD i.identity.name
    unit := i.identity.unit
    description := v.description.or i.identity.description
    filter := (v.keys.or i.advice.keys).map AttributeFilter.ofList
    aggregation := v.aggregation
    reservoir := v.reservoir }

/-- The projections of an instrument under a list of views: one for each view that selects it, in order, or its own
when none does. -/
def projections (views : List (View α)) (scope : Scope) (i : Instrument α) : List (Projection α) :=
  match views.filter (·.criteria.accepts scope i.identity) with
  | [] => [.identity i]
  | selecting => selecting.map (·.project i)

/-- Refuses a view that selects everything, one that would give its name to whatever a wildcard selects, and one
whose aggregation is invalid; of several faults the first in this order counts. -/
def check [Quantity α] (v : View α) : Except (Error α) Unit := do
  if v.criteria.isEmpty then throw .emptySelection
  if v.name.isSome then
    match v.criteria.name with
    | some (.exact _) => pure ()
    | some (.wildcard glob) => throw (.wildcardRename glob)
    | none => throw (.wildcardRename "*")
  if let some aggregation := v.aggregation then aggregation.check

end View

end Metering
