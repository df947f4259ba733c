import SqlMapper.Scenario.Basic

/-!
# Scenarios on a hundred items

Items with the keys 0 to 99: pages of the sorted result, and the counts of filters of every kind.
-/

namespace SqlMapper.Scenario.Items

def entity : Entity := ⟨"PagedItem", [⟨"id", .integer .int64⟩, ⟨"label", .text⟩]⟩

def item (n : Nat) : Option (Record entity) :=
  (Integer.ofInt? .int64 n).map fun id =>
    ⟨((id, "item " ++ toString n, ()) : Integer .int64 × String × Unit)⟩

/-- The items from `start` on, before `stop`. -/
def items (start stop : Nat) : List (Record entity) :=
  ((List.range stop).drop start).filterMap item

def table : Table where
  name := "paged_item"
  columns := [
    (Column.ofTy "id" (.integer .int64)).asKey,
    { Column.ofTy "label" .text with length := some 16, nullable := false }]

/-- Adds the pages of fifteen from `index` on to what was fetched, each with items not seen yet. -/
def pages (r : Repository entity) (seen : List (Record entity)) :
    (count index : Nat) → Scenario (List (Record entity))
  | 0, _ => return seen
  | count + 1, index => do
    let page ← collect r ((r.query.orderBy "id" .descending).page index 15)
    require (page.length ≤ 15)
    require (page.all fun x => !seen.any x.same)
    pages r (seen ++ page) count (index + 1)

/-- Pages cut the sorted result into parts; limit and count ignore each other. -/
def paging : Scenario Unit := do
  let _ ← commit { target := table }
  let r ← repository entity "paged_item"
  require ((← exchange (r.insertBatch (items 0 100) none)) == 100)
  let fourth := (r.query.orderBy "id" .ascending).page 3 10
  require (Record.sameAll (← collect r fourth) (items 30 40))
  let first ← present (← exchange (r.fetchOne fourth))
  require (Record.sameAll [first] (items 30 31))
  let union ← pages r [] 7 0
  let full ← collect r (r.query.orderBy "id" .descending)
  require (Record.sameAll union full)
  require (full.length == 100)
  require (← collect r ((r.query.orderBy "id" .ascending).page 10 10)).isEmpty
  let top := ((r.query.narrow (.compare "id" .greaterEqual [.int32 90])).orderBy "id"
    .ascending).limit 3
  require (Record.sameAll (← collect r top) (items 90 93))
  requireCount top 10

/-- A comparison of the number with others. -/
def number (operator : Operator) (ns : List Int) : Condition :=
  .compare "id" operator (ns.map .int32)

/-- A comparison of the label with others. -/
def label (operator : Operator) (values : List Value) : Condition :=
  .compare "label" operator values

/-- Filters with the counts of the items they hold for. -/
def filters : List (Condition × Nat) := [
  (number .isIn [1, 2, 3], 3),
  (number .notIn [1, 2, 3], 97),
  (number .between [10, 19], 10),
  (number .notBetween [10, 19], 90),
  (number .notEqual [0], 99),
  (.any [number .less [5], number .greater [95]], 9),
  ((Condition.all [number .greaterEqual [10], number .less [20]]).or (number .equal [50]), 11),
  (((number .equal [50]).or (number .equal [60])).and (number .lessEqual [55]), 1),
  ((number .equal [50]).or (.all [number .greaterEqual [60], number .lessEqual [62]]), 4),
  (label .like [.ofText "item 1%"], 11),
  (label .notLike [.ofText "item %"], 0),
  (label .isNull [], 0),
  (label .isNotNull [], 100),
  (label .equal [.text none], 0),
  (label .notEqual [.text none], 100)]

/-- Filters that no statement can be made of. -/
def malformed : List Condition :=
  [number .isIn [], .compare "id" .less [.null], (number .equal [1]).and (.any [])]

def requireCounts (q : Query) : List (Condition × Nat) → Scenario Unit
  | [] => return ()
  | (c, n) :: rest => do
    requireCount (q.narrow c) n
    requireCounts q rest

def query : Scenario Query := do
  let db ← database
  return { table := ← take (db.table "paged_item"), dialect := db.dialect }

/-- Each filter counts its items, and malformed ones are refused. -/
def filtering : Scenario Unit := do
  let q ← query
  requireCounts q filters
  malformed.forM fun c => do
    require (← refusal (exchange (q.narrow c).count)).isCompile
  let unknown := q.narrow (.compare "missing" .equal [.int32 1])
  require (← refusal (exchange unknown.count)).isMetadata

end SqlMapper.Scenario.Items
