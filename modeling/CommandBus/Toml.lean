namespace CommandBus

inductive Toml.Origin
  /-- By a header of its own. -/
  | header
  /-- On the way to another table's header. -/
  | implied
  /-- On the way to a key with dots. -/
  | dotted
  /-- Between braces. -/
  | inline
  deriving DecidableEq, Inhabited, Repr

inductive Toml
  | text (value : String)
  | integer (value : Int)
  | float
  | boolean (value : Bool)
  | date
  | array (elements : List Toml)
  /-- Tables under repeated headers. -/
  | tables (elements : List (List (String × Toml)))
  | table (origin : Toml.Origin) (entries : List (String × Toml))

namespace Toml

abbrev Entries := List (String × Toml)

/-- Replaces the value of a key, or adds the key at the end. -/
def put (key : String) (value : Toml) : Entries → Entries
  | [] => [(key, value)]
  | (k, v) :: rest => if k = key then (key, value) :: rest else (k, v) :: put key value rest

/-- Changes the entries of the table at the end of a path; tables that are not there are made. A path
goes through the last of repeated tables, and never through a table between braces. The path of a key
with dots does not go through tables that have a header. -/
def alter (isDotted : Bool) (f : Origin → Entries → Option Entries) :
    List String → Origin → Entries → Option Entries
  | [], origin, entries => f origin entries
  | key :: path, _, entries =>
    match entries.lookup key with
    | none => do
      let origin := if isDotted then Origin.dotted else .implied
      return put key (.table origin (← alter isDotted f path origin [])) entries
    | some (.table .inline _) => none
    | some (.table origin inner) =>
      if isDotted && origin == .header then none
      else (alter isDotted f path origin inner).map fun inner => put key (.table origin inner) entries
    | some (.tables all) => do
      let inner ← alter isDotted f path .header (← all.getLast?)
      return put key (.tables (all.dropLast ++ [inner])) entries
    | some _ => none

/-- Adds a key to the table that the dots before it lead to. That table must have been made by dots
too, and the key must be new. -/
def addKey (path : List String) (key : String) (value : Toml) : Origin → Entries → Option Entries :=
  alter true (fun origin entries =>
    if (origin == .dotted) == path.isEmpty || (entries.lookup key).isSome then none
    else some (entries ++ [(key, value)])) path

/-- Begins the table of a header, which only tables under it may have come before. -/
def openTable (path : List String) (key : String) : Entries → Option Entries :=
  alter false (fun _ entries =>
    match entries.lookup key with
    | none => some (entries ++ [(key, .table .header [])])
    | some (.table .implied inner) => some (put key (.table .header inner) entries)
    | some _ => none) path .header

def openElement (path : List String) (key : String) : Entries → Option Entries :=
  alter false (fun _ entries =>
    match entries.lookup key with
    | none => some (entries ++ [(key, .tables [[]])])
    | some (.tables all) => some (put key (.tables (all ++ [[]])) entries)
    | some _ => none) path .header

end Toml

end CommandBus
