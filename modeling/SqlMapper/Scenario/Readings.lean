import SqlMapper.Scenario.Basic

/-!
# Scenario on batches

Readings of sensors are inserted in chunks. A key that is there already stops the batch in its
chunk, and the failure tells how far the batch came.
-/

namespace SqlMapper.Scenario.Readings

/-- A number, the name of a sensor, and what it read. -/
def entity : Entity :=
  ⟨"Reading", [⟨"id", .integer .int32⟩, ⟨"sensor", .text⟩, ⟨"value", .float .double⟩]⟩

/-- The reading `n`, under another key if one is given. -/
def reading (n : Nat) (key : Nat) : Option (Record entity) :=
  (Integer.ofInt? .int32 key).map fun id =>
    ⟨((id, "sensor-" ++ toString (n % 3), Binary.ofRatio .double false ⟨n, 2⟩, ()) :
      Integer .int32 × String × Binary .double × Unit)⟩

/-- The readings from `start` on, before `stop`. -/
def readings (start stop : Nat) : List (Record entity) :=
  ((List.range stop).drop start).filterMap fun n => reading n n

def table : Table where
  name := "reading"
  columns := [
    (Column.ofTy "id" (.integer .int32)).asKey,
    { Column.ofTy "sensor" .text with nullable := false },
    .ofTy "value" (.float .double)]

/-- Twelve readings, the eighth under the key of a stored one. -/
def colliding : List (Record entity) :=
  readings 100 107 ++ (reading 107 3).toList ++ readings 108 112

/-- Batches run in chunks, stop at the first failure, and refuse chunks without rows. -/
def batches : Scenario Unit := do
  let _ ← commit { target := table }
  let r ← repository entity "reading"
  require ((← exchange (r.insertBatch (readings 0 23) (some 5))) == 23)
  requireCount r.query 23
  require ((← exchange (r.insertBatch [] (some 5))) == 0)
  let failure ← refusal (exchange (r.insertBatch colliding (some 5)))
  require (failure.batch? == some ⟨5, 1, 3⟩)
  require failure.isExecution
  requireCount r.query 28
  let failure ← refusal (exchange (r.insertBatch (readings 200 210) (some 0)))
  require failure.isCompile
  requireCount r.query 28

end SqlMapper.Scenario.Readings
