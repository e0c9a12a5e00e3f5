import Metering.Attribute.Text

/-!
# Instrumentation scopes

The part of a program that instruments belong to. Two scopes are the same when their name, version, schema and
attributes are.
-/

namespace Metering

/-- What identifies a part of a program. -/
structure Scope where
  name : String
  version : Option String
  schemaUrl : Option String
  attributes : Attributes
  deriving Inhabited

namespace Scope

/-- The scope with a name alone. -/
def named (name : String) : Scope := ⟨name, none, none, KeyMap.empty⟩

instance : BEq Scope where
  beq a b := a.name == b.name && a.version == b.version && a.schemaUrl == b.schemaUrl &&
    a.attributes == b.attributes

instance : Hashable Scope where
  hash s := mixHash (hash s.name) (mixHash (hash s.version) (mixHash (hash s.schemaUrl) (hash s.attributes)))

/-- Scopes are equal when every part is. -/
theorem beq_iff {a b : Scope} : (a == b) = true ↔
    a.name = b.name ∧ a.version = b.version ∧ a.schemaUrl = b.schemaUrl ∧ (a.attributes == b.attributes) = true := by
  show (a.name == b.name && a.version == b.version && a.schemaUrl == b.schemaUrl && a.attributes == b.attributes) =
    true ↔ _
  simp [and_assoc]

instance : EquivBEq Scope where
  rfl := beq_iff.2 ⟨rfl, rfl, rfl, BEq.rfl⟩
  symm h :=
    have ⟨name, version, schema, attributes⟩ := beq_iff.1 h
    beq_iff.2 ⟨name.symm, version.symm, schema.symm, BEq.symm attributes⟩
  trans h k :=
    have ⟨name, version, schema, attributes⟩ := beq_iff.1 h
    have ⟨name', version', schema', attributes'⟩ := beq_iff.1 k
    beq_iff.2 ⟨name.trans name', version.trans version', schema.trans schema', BEq.trans attributes attributes'⟩

instance : LawfulHashable Scope where
  hash_eq a b h := by
    have ⟨name, version, schema, attributes⟩ := beq_iff.1 h
    show mixHash (hash a.name) (mixHash (hash a.version) (mixHash (hash a.schemaUrl) (hash a.attributes))) =
      mixHash (hash b.name) (mixHash (hash b.version) (mixHash (hash b.schemaUrl) (hash b.attributes)))
    rw [name, version, schema, LawfulHashable.hash_eq _ _ attributes]

/-- The name, with the version after an at sign if there is one. -/
def plain (s : Scope) : String :=
  match s.version with
  | some v => s.name ++ "@" ++ v
  | none => s.name

/-- The scope with its fields. -/
def described (s : Scope) : String :=
  Text.record "InstrumentationScope"
    [("name", Text.quoted s.name),
     ("version", Text.optional (s.version.map Text.quoted)),
     ("schema_url", Text.optional (s.schemaUrl.map Text.quoted)),
     ("attributes", s.attributes.described)]

end Scope

/-- The producer of the metrics, described by attributes. -/
abbrev Resource := Attributes

/-- The resource with its attributes. -/
def Resource.described (r : Resource) : String :=
  Text.record "Resource" [("attributes", Attributes.described r)]

end Metering
