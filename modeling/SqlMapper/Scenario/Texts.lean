import SqlMapper.Scenario.Basic
import SqlMapper.Text.Occurrence

/-!
# Scenarios on records of texts

Records whose key is a text and whose other properties may be missing: storing and finding them,
the guards against statements without a condition, saving, and texts that would break out of a
statement if they ever reached its letters.
-/

namespace SqlMapper.Scenario.Texts

/-- The key and two texts that may be missing. One property has another name than its column. -/
def entity : Entity :=
  ⟨"EntityTest", [⟨"id", .text⟩, ⟨"name", .option .text⟩, ⟨"createTime", .option .text⟩]⟩

def record (id : String) (name createTime : Option String) : Record entity :=
  ⟨((id, name, createTime, ()) : String × Option String × Option String × Unit)⟩

def table : Table where
  name := "entity_test"
  columns := [
    { Column.ofTy "id" .text with length := some 32 }.asKey,
    .ofTy "name" .text,
    { Column.ofTy "create_time" .text with mappedTo := "createTime" }]

/-- The repository on the table that is there already. -/
def records : Scenario (Repository entity) := repository entity "entity_test"

def equals (column text : String) : Condition := .compare column .equal [.ofText text]

def matching (column pattern : String) : Condition := .compare column .like [.ofText pattern]

/-- Records are stored, found, counted, updated and deleted. -/
def storing : Scenario Unit := do
  let _ ← commit { target := table }
  let r ← records
  require (r.mapping.columnOf? "createTime" == some "create_time")
  let first := record "t1" (some "a") (some "2024-01-01")
  require ((← exchange (r.insert first)) == 1)
  let found ← present (← exchange (r.findById (.ofText "t1")))
  require (found.same first)
  requireCount r.query 1
  require (← exchange (r.findById (.ofText "t2"))).isNone
  let second := record "t2" none none
  let _ ← exchange (r.insert second)
  let all ← collect r (r.query.orderBy "id" .ascending)
  require (Record.sameAll all [first, second])
  let affected ← exchange ((r.update.set "name" (.ofText "b")).narrow (equals "id" "t1")).execute
  require (affected.rows == 1)
  let found ← present (← exchange (r.findById (.ofText "t1")))
  require ((found.get? "name").any (·.same (.ofText "b")))
  require ((← exchange (r.deleteById (.ofText "t1"))) == 1)
  require ((← exchange (r.deleteById (.ofText "t2"))) == 1)
  requireCount r.query 0

/-- A step is refused before anything is sent. -/
def requireRefused (step : Scenario α) : Scenario Unit := do
  require (← refusal step).isCompile

/-- No condition, or an empty one, selects nothing unless every row is asked for. -/
def guards : Scenario Unit := do
  let r ← records
  let _ ← exchange (r.insertBatch
    [record "g1" (some "first") none, record "g2" (some "second") none] none)
  let update := r.update.set "name" (.ofText "everyone")
  requireRefused (take update.compile)
  requireRefused (exchange update.execute)
  requireRefused (take r.deletion.compile)
  requireRefused (exchange r.deletion.execute)
  requireRefused (exchange (r.deletion.narrow (.all [])).execute)
  requireCount r.query 2
  let affected ← exchange { update with unconditional := true }.execute
  require (affected.rows == 2)
  let affected ← exchange { r.deletion with unconditional := true }.execute
  require (affected.rows == 2)
  requireCount r.query 0

/-- Saving inserts a record first and updates it later. -/
def saving : Scenario Unit := do
  let r ← records
  let draft := record "s1" (some "draft") (some "2024-02-01")
  require ((← exchange (r.save draft)) == 1)
  let found ← present (← exchange (r.findById (.ofText "s1")))
  require (found.same draft)
  let published := record "s1" (some "published") none
  let _ ← exchange (r.save published)
  let found ← present (← exchange (r.findById (.ofText "s1")))
  require (found.same published)
  requireCount r.query 1
  let _ ← exchange (r.deleteById (.ofText "s1"))

/-- Texts with quotes, comments and backslashes. -/
def hostileTexts : List String :=
  ["O'Brien", "'; DROP TABLE entity_test; --", "\" OR \"1\" = \"1", "back\\slash '' doubled"]

/-- A hostile text is bound and never written, and comes back as it was. -/
def hostileText (r : Repository entity) (number : Nat) (text : String) : Scenario Unit := do
  let stored := record ("q'" ++ toString number) (some text) (some "--")
  let _ ← exchange (r.insert stored)
  let query := r.query.narrow (equals "name" text)
  let request ← take query.compile
  require (!Text.contains text request.sql)
  require (Value.sameAll request.values [.ofText text])
  let found ← present (← exchange (r.fetchOne query))
  require (found.same stored)

/-- The hostile texts in order, numbered from `number`. -/
def hostileFrom (r : Repository entity) (number : Nat) : List String → Scenario Unit
  | [] => return ()
  | text :: texts => do
    hostileText r number text
    hostileFrom r (number + 1) texts

/-- Hostile texts are stored, found, counted and deleted like others. -/
def hostile : Scenario Unit := do
  let r ← records
  hostileFrom r 0 hostileTexts
  let keys := matching "id" "q'%"
  requireCount (r.query.narrow keys) hostileTexts.length
  let _ ← exchange (r.deletion.narrow keys).execute

end SqlMapper.Scenario.Texts
