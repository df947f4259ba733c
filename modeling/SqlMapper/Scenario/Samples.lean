import SqlMapper.Scenario.Basic

/-!
# Scenario on values of every type

Two records with a property of each type, one with all values present and one with most missing,
come back as they were stored.
-/

namespace SqlMapper.Scenario.Samples

def entity : Entity :=
  ⟨"Sample", [
    ⟨"id", .integer .int64⟩,
    ⟨"flag", .boolean⟩,
    ⟨"small", .integer .int16⟩,
    ⟨"unsigned", .integer .uint32⟩,
    ⟨"ratio", .float .double⟩,
    ⟨"amount", .option .decimal⟩,
    ⟨"balance", .option .decimal⟩,
    ⟨"day", .option .date⟩,
    ⟨"clock", .option .time⟩,
    ⟨"moment", .option .timestamp⟩,
    ⟨"zoned", .option .zoned⟩,
    ⟨"key", .option .uuid⟩,
    ⟨"payload", .option .blob⟩,
    ⟨"note", .option .text⟩]⟩

def needed (name : String) (t : Ty) : Column := { Column.ofTy name t with nullable := false }

def table : Table where
  name := "sample"
  columns := [
    (Column.ofTy "id" (.integer .int64)).asKey,
    needed "flag" .boolean,
    needed "small" (.integer .int16),
    needed "unsigned" (.integer .uint32),
    needed "ratio" (.float .double),
    { Column.ofTy "amount" .decimal with precision := some (10, 2) },
    { Column.ofTy "balance" .decimal with precision := some (28, 4) },
    .ofTy "day" .date,
    .ofTy "clock" .time,
    .ofTy "moment" .timestamp,
    .ofTy "zoned" .zoned,
    .ofTy "key" .uuid,
    .ofTy "payload" .blob,
    .ofTy "note" .text]

def moment? (year : Int) (month day hour minute second : Nat) : Option Timestamp := do
  return ⟨← Date.of? year month day, ← Time.of? hour minute second 0⟩

/-- The cells of the record without a missing value. The balance has more digits than a binary
number of double precision. -/
def fullCells : List (String × Value) := [
  ("id", .int64 1),
  ("flag", .boolean (some true)),
  ("small", .integer .int16 (Integer.ofInt? .int16 (-32000))),
  ("unsigned", .integer .uint32 (Integer.ofInt? .uint32 4000000000)),
  ("ratio", .float .double (some (.ofRatio .double false ⟨1, 8⟩))),
  ("amount", .decimal (Decimal.ofParts? false 12345 1) 0 0),
  ("balance", .decimal (Decimal.ofParts? false 12345678901234567891 4) 0 0),
  ("day", .date (Date.of? 2024 2 29)),
  ("clock", .time (Time.of? 23 59 58 0)),
  ("moment", .timestamp (moment? 1999 12 31 23 59 59)),
  ("zoned", .zoned ((moment? 2024 6 1 8 30 0).map .utc)),
  ("key", .uuid (Uuid.ofNat? 0x5e915574bb30443098cfc5854f61fbbd)),
  ("payload", .blob (some [0, 1, 2, 254, 255])),
  ("note", .ofText "complete")]

/-- The cells set in the record with most values missing. -/
def sparseCells : List (String × Value) := [
  ("id", .int64 2),
  ("ratio", .float .double (some (.ofRatio .double true ⟨3, 2⟩))),
  ("day", .date (some .epoch))]

/-- A record found by its key is the expected one. -/
def requireFound (r : Repository entity) (expected : Record entity) : Scenario Unit := do
  let id ← present (expected.get? "id")
  let found ← present (← exchange (r.findById id))
  require (found.same expected)

/-- Both records are stored in one batch and found one by one. -/
def roundTrips : Scenario Unit := do
  let _ ← commit { target := table }
  let r ← repository entity "sample"
  let full ← take (Record.ofList entity fullCells)
  let sparse ← take (Record.ofList entity sparseCells)
  require ((← exchange (r.insertBatch [full, sparse] none)) == 2)
  requireFound r full
  requireFound r sparse

end SqlMapper.Scenario.Samples
