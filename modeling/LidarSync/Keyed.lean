/-!
# Ascending association lists

A `Keyed α` gives values to names and lists them in the ascending order of the names, which is the
order in which every report of the library shows them. `insert` replaces or adds; a later value
for a name wins.
-/

namespace LidarSync

/-- Values by name, in ascending order of the names. -/
abbrev Keyed (α : Type) := List (String × α)

namespace Keyed

variable {α β : Type}

def insert (k : String) (v : α) : Keyed α → Keyed α
  | [] => [(k, v)]
  | (n, old) :: rest =>
    if k = n then (k, v) :: rest
    else if k < n then (k, v) :: (n, old) :: rest
    else (n, old) :: insert k v rest

def keys (m : Keyed α) : List String := m.map Prod.fst

def get? (m : Keyed α) (k : String) : Option α := m.lookup k

def contains (m : Keyed α) (k : String) : Bool := (m.get? k).isSome

/-- The values of a list of pairs; the last pair for a name counts. -/
def ofList (xs : List (String × α)) : Keyed α := xs.foldl (fun m (k, v) => insert k v m) []

def mapWithKey (f : String → α → β) (m : Keyed α) : Keyed β := m.map fun (k, v) => (k, f k v)

/-- Adds to the number of a name, which starts at zero. -/
def bump (k : String) (amount : Nat) (m : Keyed Nat) : Keyed Nat :=
  insert k ((m.get? k).getD 0 + amount) m

end Keyed

def ascending (names : List String) : List String :=
  Keyed.keys (Keyed.ofList (names.map (·, ())))

end LidarSync
