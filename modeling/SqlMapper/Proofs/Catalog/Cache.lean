import SqlMapper.Proofs.Catalog.Reached

/-! Mappings that tables keep. A repository gets the mapping that the columns of its table give, as
long as no commit that fails half way changes columns under a mapping that was resolved before. -/
namespace SqlMapper

variable {properties : String → List String}

namespace Mapping

/-- All that a mapping takes from columns are their names and properties. -/
theorem resolve_congr {cs ds : List Column} (h : cs.map Column.label = ds.map Column.label)
    (entity : String) (names : List String) (table : String) :
    resolve entity names table cs = resolve entity names table ds := by
  let entryOf (l : String × String) : Option (String × String) :=
    (property? names (if l.2.isEmpty then l.1 else l.2)).map fun p => (l.1, p)
  have hEntries (ks : List Column) :
      (resolve entity names table ks).entries = (ks.map Column.label).filterMap entryOf := by
    rw [List.filterMap_map]
    rfl
  rw [mk.injEq]
  exact ⟨rfl, rfl, by rw [hEntries, hEntries, h]⟩

end Mapping

namespace Table

/-- Each mapping of the cache is the one that the columns give. An entity has one list of
properties. -/
def Coherent (properties : String → List String) (t : Table) : Prop :=
  ∀ m ∈ t.mappings, m = Mapping.resolve m.entity (properties m.entity) t.name t.columns

/-- An empty cache agrees with every table. -/
theorem coherent_of_empty {t : Table} (h : t.mappings = []) : t.Coherent properties := by
  intro m hm
  simp [h] at hm

/-- The cache answers with what it would be filled with, and stays in order. -/
theorem Coherent.mapping {t : Table} (h : t.Coherent properties) (entity : String) :
    (t.mapping entity (properties entity)).1 =
        Mapping.resolve entity (properties entity) t.name t.columns ∧
      (t.mapping entity (properties entity)).2.Coherent properties := by
  rw [Table.mapping]
  cases hCached : t.cachedMapping? entity with
  | some m =>
      have hEntity : m.entity = entity := by simpa using List.find?_some hCached
      have hFits := h m (List.mem_of_find?_eq_some hCached)
      rw [hEntity] at hFits
      exact ⟨hFits, h⟩
  | none =>
      refine ⟨rfl, ?_⟩
      intro m hm
      rcases List.mem_append.mp hm with hm | hm
      · exact h m hm
      · obtain rfl := List.mem_singleton.mp hm
        rfl

end Table

/-- A step keeps the cache with the name that it goes by, or drops the cache. -/
theorem TableChange.mappings_apply (change : TableChange) (target k : Table) :
    (change.apply target k).mappings = [] ∨
      (change.apply target k).mappings = k.mappings ∧ (change.apply target k).name = k.name := by
  cases change with
  | create => exact .inl rfl
  | _ => exact .inr ⟨rfl, rfl⟩

/-- So do steps one after another. -/
theorem Plan.mappings_tableAfter {target k t : Table} {steps : List Step}
    (h : tableAfter target (some k) steps = some t) :
    t.mappings = [] ∨ t.mappings = k.mappings ∧ t.name = k.name := by
  induction steps generalizing k with
  | nil =>
      obtain rfl := Option.some.inj h
      exact .inr ⟨rfl, rfl⟩
  | cons step steps ih =>
      have hLater := ih (k := step.change.apply target k) h
      rcases step.change.mappings_apply target k with hNone | ⟨hSame, hName⟩
      · rw [hNone] at hLater
        exact .inl (hLater.elim id And.left)
      · rwa [hSame, hName] at hLater

namespace Database

/-- The steps that ran have left the columns of the known table their names and properties, or have
found no mapping resolved for it. -/
def CacheSpared (db : Database) (s : Session) (done : List Step) : Prop :=
  ∀ k, s.known? db = some k → k.mappings = [] ∨
    ∀ t, Plan.tableAfter s.target (some k) done = some t →
      t.columns.map Column.label = k.columns.map Column.label

/-- The databases that can be come to when added tables bring no mappings but their own, and when no
commit that fails has changed columns under a mapping. -/
inductive Orderly (properties : String → List String) : Database → Prop where
  | new (d : Dialect) : Orderly properties (.new d)
  | setFeatures {db : Database} (before : Orderly properties db) (features : Features) :
      Orderly properties { db with features }
  | addSchema {db : Database} (before : Orderly properties db) (name : String) :
      Orderly properties (db.addSchema name)
  | setCurrentSchema {db : Database} (before : Orderly properties db) (name : String) :
      Orderly properties (db.setCurrentSchema name)
  | addTable {db db' : Database} {t : Table} (before : Orderly properties db)
      (own : t.Coherent properties) (added : db.addTable t = .ok db') : Orderly properties db'
  | openRepository {db db' : Database} {e : Entity} {name : String} {r : Repository e}
      (before : Orderly properties db) (entity : e.propertyNames = properties e.name)
      (opened : Repository.new e db name = .ok (r, db')) : Orderly properties db'
  | commit {db db' : Database} {s s' : Session} {w u : Wire} {n : Nat}
      (before : Orderly properties db) (committed : s.commit db w = (.ok n, s', db', u)) :
      Orderly properties db'
  | commitFailed {db db' : Database} {s s' : Session} {w u : Wire} {failure : Failure}
      (done : List Step) (before : Orderly properties db)
      (failed : s.commit db w = (.error failure, s', db', u)) (kept : db' = s.kept db done)
      (spared : db.CacheSpared s done) : Orderly properties db'

variable {db db' : Database}

/-- What a commit that fails leaves behind has its cache in order, if the cache was spared. -/
theorem coherent_tableAfter {s : Session} {done : List Step} {t : Table}
    (h : db.Slots fun _ t => t.Coherent properties) (hSpared : db.CacheSpared s done)
    (hTable : Plan.tableAfter s.target (s.known? db) done = some t) : t.Coherent properties := by
  cases hKnown : s.known? db with
  | none =>
      -- The first step starts from an empty table, which has no mappings.
      rw [hKnown] at hTable
      cases done with
      | nil => simp [Plan.tableAfter] at hTable
      | cons step done =>
          have hRest : Plan.tableAfter s.target (some (step.change.apply s.target { name := "" })) done =
              some t := hTable
          have hLater := Plan.mappings_tableAfter hRest
          rcases step.change.mappings_apply s.target { name := "" } with hNone | ⟨hNone, -⟩ <;>
            exact Table.coherent_of_empty (hLater.elim id fun hSame => hSame.1.trans hNone)
  | some k =>
      rw [hKnown] at hTable
      have hCoherent : k.Coherent properties := h.known? hKnown
      rcases Plan.mappings_tableAfter hTable with hNone | ⟨hSame, hName⟩
      · exact Table.coherent_of_empty hNone
      · rcases hSpared k hKnown with hNone | hLabels
        · exact Table.coherent_of_empty (hSame.trans hNone)
        · intro m hm
          rw [hSame] at hm
          rw [hName, Mapping.resolve_congr (hLabels t hTable)]
          exact hCoherent m hm

/-- Every table of such a database has its cache in order. -/
theorem Orderly.coherent (h : Orderly properties db) :
    db.Slots fun _ t => t.Coherent properties := by
  induction h with
  | new d => exact slots_new _ d
  | setFeatures _ _ ih => exact ih
  | addSchema _ name ih => exact Slots.addSchema ih name
  | setCurrentSchema _ name ih => exact Slots.addSchema ih name
  | addTable _ own added ih => exact ih.addTable added fun _ _ _ => own
  | openRepository _ entity opened ih =>
      obtain ⟨t, hTable, -, rfl⟩ := openRepository_eq_ok opened
      rw [entity]
      have hCoherent := ih _ _ _ (findTable?_of_table hTable)
      exact Slots.putInto ih _ fun _ _ => (hCoherent.mapping _).2
  | @commit db db' s s' w u n _ committed ih =>
      obtain ⟨-, -, -, -, -, rfl⟩ := Session.commit_eq_ok committed
      obtain ⟨columns, indexes, hMerged, -⟩ := s.target.exists_merged (s.known? db)
      refine Slots.putInto ih _ fun _ _ => Table.coherent_of_empty ?_
      rw [hMerged]
  | @commitFailed db db' s s' w u failure done _ _ kept spared ih =>
      subst kept
      rcases s.kept_cases db done with hKept | ⟨t, hTable, hKept⟩
      · rwa [hKept]
      · rw [hKept]
        exact Slots.putInto ih _ fun _ _ => coherent_tableAfter ih spared hTable

/-- A repository is opened on every table that is known, and maps its columns as they are. -/
theorem Orderly.mapping_openRepository (h : Orderly properties db) {e : Entity}
    (hEntity : e.propertyNames = properties e.name) {name : String} {t : Table}
    (hTable : db.table name = .ok t) :
    ∃ r db', Repository.new e db name = .ok (r, db') ∧
      r.mapping = Mapping.resolve e.name e.propertyNames t.name t.columns := by
  have hOpened : ∃ r db', Repository.new e db name = .ok (r, db') := by
    rw [Repository.new, hTable]
    exact ⟨_, _, rfl⟩
  obtain ⟨r, db', hOpened⟩ := hOpened
  obtain ⟨u, hSame, hMapping, -⟩ := openRepository_eq_ok hOpened
  obtain rfl : t = u := Except.ok.inj (hTable.symm.trans hSame)
  refine ⟨r, db', hOpened, ?_⟩
  rw [hMapping, hEntity]
  exact ((h.coherent _ _ _ (findTable?_of_table hTable)).mapping e.name).1

/-- A commit has altered a column of the mapping before it failed. -/
theorem Orderly.mapping_openRepository_altered :
    let e : Entity := ⟨"Product", [⟨"id", .integer .int64⟩, ⟨"name", .text⟩, ⟨"price", .float .double⟩]⟩
    let known : Table := { name := "t", columns := [.ofTy "id" (.integer .int32), .ofTy "NAME" .text] }
    let cached : Table := { known with mappings := [⟨"Product", "t", [("id", "id"), ("NAME", "name")]⟩] }
    let wide : Column := .ofTy "id" (.integer .int64)
    let s : Session :=
      { target := { name := "t", columns := [wide, .ofTy "NAME" .text, .ofTy "price" (.float .double)] } }
    let db := (Database.new .generic).put cached
    ∃ failure s' db' u t, s.commit db (.scripted .blocking [[], [.failure "disk full"]]) =
        (.error failure, s', db', u) ∧
      Orderly (fun _ => e.propertyNames) db' ∧ db'.table "t" = .ok t ∧ t.mappings = cached.mappings ∧
      ∃ r db'', Repository.new e db' "t" = .ok (r, db'') ∧
        r.mapping = Mapping.resolve e.name e.propertyNames t.name t.columns := by
  intro e known cached wide s db
  have hOpened : ∃ r, Repository.new e ((Database.new .generic).put known) "t" = .ok (r, db) := by
    dsimp +zetaDelta only
    exact ⟨_, rfl⟩
  obtain ⟨r, hOpened⟩ := hOpened
  have hAdded : (Database.new .generic).addTable known = .ok ((Database.new .generic).put known) := rfl
  have hOrderly : Orderly (fun _ => e.propertyNames) db :=
    .openRepository (.addTable (.new .generic) (Table.coherent_of_empty rfl) hAdded) rfl hOpened
  let altered : Table := { cached with columns := [wide, .ofTy "NAME" .text] }
  let done : List Step := [⟨.column wide, []⟩]
  have hFailed : ∃ failure s' u, s.commit db (.scripted .blocking [[], [.failure "disk full"]]) =
      (.error failure, s', db.put altered, u) := by
    dsimp +zetaDelta only
    exact ⟨_, _, _, rfl⟩
  obtain ⟨failure, s', u, hFailed⟩ := hFailed
  have hKnown : s.known? db = some cached := Session.known?_put rfl rfl
  have hAfter : Plan.tableAfter s.target (some cached) done = some altered := by
    dsimp +zetaDelta only
    rfl
  have hKept : db.put altered = s.kept db done := by
    rw [Session.kept, hKnown, hAfter]
    rfl
  have hSpared : db.CacheSpared s done := by
    intro k hk
    obtain rfl : cached = k := Option.some.inj (hKnown.symm.trans hk)
    refine .inr fun t ht => ?_
    obtain rfl : altered = t := Option.some.inj (hAfter.symm.trans ht)
    rfl
  have hLater : Orderly (fun _ => e.propertyNames) (db.put altered) :=
    .commitFailed done hOrderly hFailed hKept hSpared
  have hTable : (db.put altered).table "t" = .ok altered := by
    dsimp +zetaDelta only
    rfl
  exact ⟨failure, s', _, u, altered, hFailed, hLater, hTable, rfl,
    hLater.mapping_openRepository rfl hTable⟩

/-- A commit has added a column before it failed. The mapping that was resolved before lacks it. -/
theorem mapping_openRepository_added :
    let e : Entity := ⟨"Product", [⟨"id", .integer .int64⟩, ⟨"name", .text⟩, ⟨"price", .float .double⟩]⟩
    let known : Table := { name := "t", columns := [.ofTy "id" (.integer .int64), .ofTy "name" .text] }
    let target : Table :=
      { known with columns := known.columns ++ [.ofTy "price" (.float .double), .ofTy "note" .text] }
    ∃ db opened failure s' db' u t r db'',
      (Database.new .generic).addTable known = .ok db ∧
      (Repository.new e db "t").map Prod.snd = .ok opened ∧
      ({ target } : Session).commit opened (.scripted .blocking [[], [.failure "disk full"]]) =
        (.error failure, s', db', u) ∧
      db'.table "t" = .ok t ∧ Repository.new e db' "t" = .ok (r, db'') ∧
      (t.columns.map Column.name, r.mapping.entries) =
        (["id", "name", "price"], [("id", "id"), ("name", "name")]) ∧
      r.mapping ≠ Mapping.resolve e.name e.propertyNames t.name t.columns :=
  ⟨_, _, _, _, _, _, _, _, _, rfl, rfl, rfl, rfl, rfl, rfl, by decide⟩

end Database

end SqlMapper
