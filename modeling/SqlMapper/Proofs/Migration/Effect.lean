import SqlMapper.Proofs.Migration.Denotation

/-! What statements do to a schema. A database has a table as a layout, which knows nothing of
records: its columns, its key and its indexes, all found by name in any letter case. A statement
changes a layout in its own way, or it is not possible there. -/
namespace SqlMapper

/-- A column as a database has it. -/
structure Field where
  name : String
  type : String
  notNull : Bool
  default : Option Literal
  comment : String

/-- A table as a database has it. -/
structure Layout where
  fields : List Field
  /-- The names of the primary key. -/
  key : List String := []
  indexes : List Index := []

/-- The column that a definition makes. A key column is not null. -/
def Definition.field (column : Definition) (keyed : Bool) : Field where
  name := column.name
  type := column.type
  notNull := column.notNull || keyed
  default := column.default
  comment := column.comment.getD ""

namespace Alteration

def applyTo (f : Field) : Alteration → Field
  | type name => { f with type := name }
  | nullable isNullable => { f with notNull := !isNullable }
  | setDefault literal => { f with default := some literal }
  | dropDefault => { f with default := none }

/-- The alteration lets a column be null. -/
def dropsNotNull : Alteration → Bool
  | nullable isNullable => isNullable
  | _ => false

end Alteration

namespace Layout

def field? (l : Layout) (name : String) : Option Field :=
  l.fields.find? fun f => Text.sameName f.name name

def has (l : Layout) (name : String) : Bool := (l.field? name).isSome

def isKey (l : Layout) (name : String) : Bool := l.key.any (Text.sameName · name)

def hasIndex (l : Layout) (name : String) : Bool :=
  l.indexes.any fun i => Text.sameName i.name name

def update (l : Layout) (name : String) (change : Field → Field) : Layout :=
  { l with fields := l.fields.map fun f => if Text.sameName f.name name then change f else f }

/-- The layout with a key, whose columns become not null. -/
def withKey (l : Layout) (names : List String) : Layout :=
  { l with
    fields := l.fields.map fun f =>
      { f with notNull := f.notNull || names.any (Text.sameName · f.name) }
    key := names }

def DistinctNames (names : List String) : Prop := (names.map Text.lowerCase).Nodup

instance (names : List String) : Decidable (DistinctNames names) :=
  inferInstanceAs (Decidable (List.Nodup _))

/-- The layout of a new table. Its columns have distinct names, and its key is declared once at most,
on distinct columns. -/
def create? (columns : List Definition) (compositeKey : List String) : Option Layout :=
  let declared := (columns.filter (·.isKey)).map Definition.name
  let key := declared ++ compositeKey
  let fields := columns.map fun column => column.field (key.any (Text.sameName · column.name))
  if DistinctNames (columns.map Definition.name) ∧
      declared.length + (if compositeKey.isEmpty then 0 else 1) ≤ 1 ∧ DistinctNames key ∧
      key.all (({ fields } : Layout).has) then some { fields, key } else none

/-- An action on the table. What is added must be absent, what is altered must be present, a key is
added where there is none, and its columns stay not null. The definition of a single column declares
no key here. -/
def act (l : Layout) : TableAction → Option Layout
  | .add column =>
    if l.has column.name || column.isKey then none
    else some { l with fields := l.fields ++ [column.field false] }
  | .redefine column =>
    if l.has column.name && !column.isKey then
      some (l.update column.name fun f => { column.field (l.isKey column.name) with name := f.name })
    else none
  | .addKey columns =>
    if l.key.isEmpty && !columns.isEmpty && DistinctNames columns && columns.all l.has then
      some (l.withKey columns)
    else none
  | .alter column alteration =>
    if l.has column && !(l.isKey column && alteration.dropsNotNull) then
      some (l.update column alteration.applyTo)
    else none

/-- A statement on a table that is there. What is commented or indexed must be present, and an
alteration has actions, each of which is possible after those before it. -/
def run (l : Layout) : SchemaStatement → Option Layout
  | .createTable _ _ => some l
  | .alterTable actions => if actions.isEmpty then none else actions.foldlM act l
  | .createIndex name unique guarded columns =>
    if !columns.all (l.has ·.1) then none
    else if l.hasIndex name then if guarded then some l else none
    else some { l with indexes := l.indexes ++ [⟨name, unique, columns⟩] }
  | .comment column text =>
    if l.has column then some (l.update column fun f => { f with comment := text }) else none

/-- Statements in order, up to the last one or the first that is not possible. -/
def runAll (l : Layout) : List SchemaStatement → Option Layout
  | [] => some l
  | statement :: statements => (l.run statement).bind (·.runAll statements)

/-- Statements in order on a table that may be missing. One that is missing is created first. -/
def runOn : Option Layout → List SchemaStatement → Option Layout
  | some l, statements => l.runAll statements
  | none, .createTable columns compositeKey :: statements =>
    (create? columns compositeKey).bind (·.runAll statements)
  | none, _ => none

variable {l l' l'' : Layout} {name other : String}

/-- Statements run one after the other, so a list of them may be cut anywhere. -/
theorem runAll_append {l l' : Layout} {es fs : List SchemaStatement} (h : l.runAll es = some l') :
    l.runAll (es ++ fs) = l'.runAll fs := by
  induction es generalizing l with
  | nil =>
      obtain rfl := Option.some.inj h
      rfl
  | cons e es ih =>
      rw [runAll] at h
      obtain ⟨m, hFirst, hRest⟩ := Option.bind_eq_some_iff.mp h
      rw [List.cons_append, runAll, hFirst, Option.bind_some, ih hRest]

theorem runAll_singleton (l : Layout) (e : SchemaStatement) : l.runAll [e] = l.run e :=
  Option.bind_fun_some (l.run e)

theorem run_single (l : Layout) (a : TableAction) : l.run (.alterTable [a]) = l.act a :=
  Option.bind_fun_some (l.act a)

/-! ### What stays -/

/-- The layouts differ in the column of a name at most. -/
structure SameBut (name : String) (l l' : Layout) : Prop where
  key : l'.key = l.key
  indexes : l'.indexes = l.indexes
  others : ∀ other, Text.sameName name other = false → l'.field? other = l.field? other

theorem SameBut.refl (name : String) (l : Layout) : SameBut name l l :=
  ⟨rfl, rfl, fun _ _ => rfl⟩

theorem SameBut.trans (first : SameBut name l l') (second : SameBut name l' l'') :
    SameBut name l l'' where
  key := second.key.trans first.key
  indexes := second.indexes.trans first.indexes
  others other h := (second.others other h).trans (first.others other h)

/-- A layout has a name exactly when a field answers to it. -/
theorem has_iff : l.has name = true ↔ ∃ f, l.field? name = some f := Option.isSome_iff_exists

/-- A name is one of the key in any case of its letters. -/
theorem isKey_iff : l.isKey name = true ↔ Text.lowerCase name ∈ l.key.map Text.lowerCase := by
  simp only [isKey, List.any_eq_true, Text.sameName_iff, List.mem_map]

/-- A search for a name in any letter case finds the same column. -/
theorem field?_congr (h : Text.lowerCase name = Text.lowerCase other) :
    l.field? name = l.field? other := by
  simp only [field?, Text.sameName, h]

/-- A new field answers under its own name, every other name as before. -/
theorem field?_concat (f : Field) (hAbsent : l.field? f.name = none) (other : String) :
    ({ l with fields := l.fields ++ [f] } : Layout).field? other =
      if Text.sameName f.name other then some f else l.field? other := by
  simp only [field?, List.find?_append, List.find?_singleton]
  split
  next hSame =>
    have hNone : l.field? other = none := by
      rw [field?_congr (Text.sameName_iff.mp hSame).symm, hAbsent]
    rw [field?] at hNone
    rw [hNone, Option.none_or]
  next => rw [Option.or_none]

/-- Only the column of the name is another one after it changed. -/
theorem field?_update {change : Field → Field} (hName : ∀ f, (change f).name = f.name)
    (l : Layout) (name other : String) :
    (l.update name change).field? other =
      if Text.sameName name other then (l.field? other).map change else l.field? other := by
  have hFound : (l.update name change).field? other =
      (l.field? other).map fun f => if Text.sameName f.name name then change f else f := by
    have hSearch : (fun f : Field => Text.sameName f.name other) ∘
        (fun f => if Text.sameName f.name name then change f else f) =
          fun f => Text.sameName f.name other := by
      funext f
      rw [Function.comp_apply]
      split
      next => rw [hName]
      next => rfl
    rw [field?, update, List.find?_map, hSearch, field?]
  have hNamed (f : Field) (h : l.field? other = some f) :
      Text.sameName f.name name = Text.sameName name other := by
    have hOther : Text.sameName f.name other = true :=
      List.find?_some (p := fun f : Field => Text.sameName f.name other) h
    rw [Bool.eq_iff_iff, Text.sameName_iff, Text.sameName_iff, Text.sameName_iff.mp hOther, eq_comm]
  rw [hFound]
  cases hField : l.field? other with
  | none => simp
  | some f =>
      rw [Option.map_some, hNamed f hField]
      split <;> rfl

/-- Changing one field leaves everything else of the layout alone. -/
theorem sameBut_update {change : Field → Field} (hName : ∀ f, (change f).name = f.name)
    (l : Layout) (name : String) : SameBut name l (l.update name change) where
  key := rfl
  indexes := rfl
  others other h := by rw [field?_update hName, h]; rfl

/-- Changes of one column in order are one change of it. -/
theorem foldlM_alter {alterations : List Alteration} (hHas : l.has name = true)
    (hAllowed : (l.isKey name && alterations.any (·.dropsNotNull)) = false) :
    (alterations.map (TableAction.alter name)).foldlM act l =
      some (l.update name fun f => alterations.foldl Alteration.applyTo f) := by
  induction alterations generalizing l with
  | nil =>
      have hSame : l.update name (fun f => f) = l := by
        simp [update]
      rw [List.map_nil, List.foldlM_nil]
      exact congrArg some hSame.symm
  | cons alteration alterations ih =>
      have hName (f : Field) : (alteration.applyTo f).name = f.name := by cases alteration <;> rfl
      rw [List.any_cons, Bool.and_or_distrib_left, Bool.or_eq_false_iff] at hAllowed
      have hFirst : l.act (.alter name alteration) = some (l.update name alteration.applyTo) := by
        rw [act, hHas, hAllowed.1]
        rfl
      have hThere : (l.update name alteration.applyTo).has name = true := by
        rw [has, field?_update hName, Text.sameName_self, if_pos rfl, Option.isSome_map]
        exact hHas
      rw [List.map_cons, List.foldlM_cons, hFirst, Option.bind_eq_bind, Option.bind_some,
        ih hThere hAllowed.2]
      refine congrArg some (congrArg (fun fields => { l with fields }) ?_)
      rw [update, List.map_map]
      refine List.map_congr_left fun f _ => ?_
      rw [Function.comp_apply]
      split
      next hNamed =>
        rw [hName, if_pos hNamed]
        rfl
      next => rfl

/-- Adding one field leaves everything else of the layout alone. -/
theorem sameBut_concat (f : Field) (hAbsent : l.field? f.name = none) :
    SameBut f.name l { l with fields := l.fields ++ [f] } where
  key := rfl
  indexes := rfl
  others other h := by rw [field?_concat f hAbsent, h]; rfl

/-- Making columns the key marks them not null and changes no field further. -/
theorem field?_withKey (names : List String) (l : Layout) (other : String) :
    (l.withKey names).field? other = (l.field? other).map fun f =>
      { f with notNull := f.notNull || names.any (Text.sameName · other) } := by
  have hFound : (l.withKey names).field? other = (l.field? other).map fun f =>
      { f with notNull := f.notNull || names.any (Text.sameName · f.name) } := by
    rw [field?, withKey, List.find?_map, field?]
    rfl
  rw [hFound]
  cases hField : l.field? other with
  | none => rfl
  | some f =>
      have hOther : Text.sameName f.name other = true :=
        List.find?_some (p := fun f : Field => Text.sameName f.name other) hField
      simp only [Option.map_some, Text.sameName, Text.sameName_iff.mp hOther]

end Layout

end SqlMapper
