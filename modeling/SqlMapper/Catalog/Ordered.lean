/-!
# Entries ordered by key

A list of keys with values, in ascending order of the keys, each key at most once.
-/

namespace SqlMapper.Ordered

def find? (key : String) : List (String × α) → Option α
  | [] => none
  | (k, a) :: rest => if k = key then some a else find? key rest

/-- Puts a value under a key, in place of the one that is there or where the order wants it. -/
def put (key : String) (a : α) : List (String × α) → List (String × α)
  | [] => [(key, a)]
  | (k, b) :: rest =>
    if key = k then (key, a) :: rest
    else if key < k then (key, a) :: (k, b) :: rest
    else (k, b) :: put key a rest

@[simp] theorem find?_put_self (key : String) (a : α) (entries : List (String × α)) :
    find? key (put key a entries) = some a := by
  induction entries with
  | nil => simp [put, find?]
  | cons entry rest ih =>
    obtain ⟨k, b⟩ := entry
    by_cases h : key = k
    · simp [put, find?, h]
    · have h' : k ≠ key := Ne.symm h
      by_cases hlt : key < k <;> simp [put, find?, h, h', hlt, ih]

theorem find?_put_of_ne {key other : String} (h : other ≠ key) (a : α)
    (entries : List (String × α)) : find? other (put key a entries) = find? other entries := by
  induction entries with
  | nil => simp [put, find?, Ne.symm h]
  | cons entry rest ih =>
    obtain ⟨k, b⟩ := entry
    by_cases hk : key = k
    · subst hk
      simp [put, find?, Ne.symm h]
    · by_cases hlt : key < k
      · simp [put, find?, hk, hlt, Ne.symm h]
      · rw [put, if_neg hk, if_neg hlt, find?, find?, ih]

end SqlMapper.Ordered
