import SqlMapper.Failure
import SqlMapper.Schema.Mapping
import SqlMapper.Value.Equality

/-!
# Entities and records

An entity lists the typed properties that its records have. A record is read and written through the
names of its properties; writing coerces the value into the type of the property.
-/

namespace SqlMapper

/-- A property of an entity. -/
structure Property where
  name : String
  type : Ty
  deriving DecidableEq, Repr

/-- A kind of record. -/
structure Entity where
  name : String
  properties : List Property
  deriving DecidableEq, Repr

def Fields : List Property → Type
  | [] => Unit
  | p :: ps => p.type.Carrier × Fields ps

namespace Fields

def initial : (ps : List Property) → Fields ps
  | [] => ()
  | p :: ps => (p.type.initial, initial ps)

/-- The names of the properties with their values as cells. -/
def toList : (ps : List Property) → Fields ps → List (String × Value)
  | [], _ => []
  | p :: ps, (a, rest) => (p.name, p.type.toValue a) :: toList ps rest

/-- The cell of the first property of a name. -/
def get? (name : String) : (ps : List Property) → Fields ps → Option Value
  | [], _ => none
  | p :: ps, (a, rest) => if name = p.name then some (p.type.toValue a) else get? name ps rest

/-- Sets the first property of a name; none when there is no such property. -/
def set? (name : String) (v : Value) : (ps : List Property) → Fields ps → Option (Coerced (Fields ps))
  | [], _ => none
  | p :: ps, (a, rest) =>
    if name = p.name then some ((p.type.ofValue v).map (·, rest))
    else (set? name v ps rest).map fun result => result.map (a, ·)

end Fields

/-- A record of an entity. -/
structure Record (e : Entity) where
  fields : Fields e.properties

namespace Entity

/-- The names of the properties in order. -/
def propertyNames (e : Entity) : List String := e.properties.map Property.name

end Entity

namespace Record

variable {e : Entity}

/-- The record before any property is set. -/
def initial (e : Entity) : Record e := ⟨Fields.initial e.properties⟩

/-- The names of the properties with their values as cells. -/
def toList (r : Record e) : List (String × Value) := Fields.toList e.properties r.fields

def get? (r : Record e) (name : String) : Option Value := Fields.get? name e.properties r.fields

/-- Sets a property. The faults of a cell that does not fit, or of a name that is no property, are
told by `report`. -/
def set (report : List Fault → Failure) (r : Record e) (name : String) (v : Value) :
    Result (Record e) :=
  match Fields.set? name v e.properties r.fields with
  | none => .error (report [.unknownProperty name e.name])
  | some (.ok fields) => .ok ⟨fields⟩
  | some (.error error) => .error (Failure.ofCoercion report error)

/-- Sets several properties in order, up to the first that fails. -/
def setAll (r : Record e) : List (String × Value) → Result (Record e)
  | [] => .ok r
  | (name, v) :: rest => do
    let r ← r.set Failure.ofFaults name v
    r.setAll rest

/-- The record with these properties set. -/
def ofList (e : Entity) (cells : List (String × Value)) : Result (Record e) :=
  (initial e).setAll cells

/-- Equality property by property, as cells are equal. -/
def same (r s : Record e) : Bool :=
  Value.sameAll (r.toList.map Prod.snd) (s.toList.map Prod.snd)

end Record

namespace Mapping

variable {e : Entity}

/-- The columns of the mapping with the cells of a record, in column order. -/
def values (m : Mapping) (r : Record e) : List (String × Value) :=
  m.entries.filterMap fun entry => (r.get? entry.2).map fun v => (entry.1, v)

/-- Sets the properties of mapped cells in order. Cells of other columns are left out. -/
def wrapCells (m : Mapping) (r : Record e) : List (String × Value) → Result (Record e)
  | [] => .ok r
  | (label, v) :: rest =>
    match m.propertyOf? label with
    | none => m.wrapCells r rest
    | some property => do
      let report (faults : List Fault) : Failure :=
        .of (.mapping ⟨.mapping, m.table, some label⟩ (.property m.entity property faults))
      let r ← r.set report property v
      m.wrapCells r rest

end Mapping

end SqlMapper
