import LidarSync.Document.Basic

/-!
# Tables under construction

A TOML text fills its tables by headers, dotted keys and assignments in any order, and refuses to
define the same thing twice. A `Table` remembers for each of its tables how it came about, which is
what decides whether more may be added to it.
-/

namespace LidarSync.Document.Toml

/-- How a table came about: as an ancestor of a header, by a dotted key, or by a header of its
own. -/
inductive Origin where
  | implied
  | dotted
  | declared
deriving DecidableEq, Repr

/-- What a name stands for in a table. -/
inductive Entry where
  | value (d : Document)
  | table (origin : Origin) (members : List (String × Entry))
  | tables (elements : List (List (String × Entry)))

/-- A table under construction, its members in the order in which they were first named. -/
abbrev Table := List (String × Entry)

/-- Replaces what a name stands for, and adds the name at the end when it is new. -/
def Table.put (name : String) (e : Entry) : Table → Table
  | [] => [(name, e)]
  | (n, old) :: rest => if n = name then (n, e) :: rest else (n, old) :: Table.put name e rest

/-- Changes the table at a path of names, making tables on the way that are not there yet. An
array of tables stands for its last element, and nothing is inside a value. -/
def Table.updateAt (f : Table → Option Table) : List String → Table → Option Table
  | [], t => f t
  | name :: path, t =>
    match t.lookup name with
    | none => (Table.updateAt f path []).map fun u => t.put name (.table .implied u)
    | some (.value _) => none
    | some (.table origin u) =>
      (Table.updateAt f path u).map fun u => t.put name (.table origin u)
    | some (.tables us) =>
      (Table.updateAt f path (us.getLast?.getD [])).map fun u =>
        t.put name (.tables (us.dropLast ++ [u]))

/-- Declares a table by a header; one that so far only had parts declared may still be declared
itself. -/
def Table.declare (name : String) (t : Table) : Option Table :=
  match t.lookup name with
  | none => some (t.put name (.table .declared []))
  | some (.table .implied u) => some (t.put name (.table .declared u))
  | some _ => none

def Table.append (name : String) (t : Table) : Option Table :=
  match t.lookup name with
  | none => some (t.put name (.tables [[]]))
  | some (.tables us) => some (t.put name (.tables (us ++ [[]])))
  | some _ => none

/-- Gives a value to a dotted key. All names before the last one must be tables that dotted keys
made. -/
def Table.assign (d : Document) : List String → Table → Option Table
  | [], _ => none
  | [name], t => if (t.lookup name).isSome then none else some (t.put name (.value d))
  | name :: path, t =>
    match t.lookup name with
    | none => (Table.assign d path []).map fun u => t.put name (.table .dotted u)
    | some (.table .dotted u) =>
      (Table.assign d path u).map fun u => t.put name (.table .dotted u)
    | some (.table .implied u) =>
      if path.length = 1 then none
      else (Table.assign d path u).map fun u => t.put name (.table .implied u)
    | some _ => none

mutual

def Entry.toDocument : Entry → Document
  | .value d => d
  | .table _ members => .record (membersToDocument members)
  | .tables elements => .list (elementsToDocument elements)

def membersToDocument : List (String × Entry) → List (String × Document)
  | [] => []
  | (name, e) :: rest => (name, e.toDocument) :: membersToDocument rest

def elementsToDocument : List (List (String × Entry)) → List Document
  | [] => []
  | t :: rest => .record (membersToDocument t) :: elementsToDocument rest

end

end LidarSync.Document.Toml
