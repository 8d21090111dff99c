import GodotGraph.Toml.Error

/-!
Contract: the values of a document, and building its tables step by step.

Owns:
- values, and where a table comes from;
- changing the table at the end of a path;
- assigning a value, opening a table, and opening one more table of a list.

A table that was written out as a whole is closed. One that a header opened cannot be
opened again, and dotted keys do not reach into it.
-/

set_option autoImplicit false

namespace GodotGraph.Toml

/-- Where a table comes from. -/
inductive Origin where
  /-- A header names it. -/
  | header
  /-- A header names something inside it. -/
  | implied
  /-- A dotted key leads through it. -/
  | dotted
  /-- It was written out as a value. -/
  | inline
  deriving DecidableEq, Repr

/-- A value. Numbers with a fraction and moments are only known to be such. -/
inductive Value where
  | text (s : String)
  | integer (n : Int)
  | decimal
  | boolean (b : Bool)
  | moment
  | items (ofTables : Bool) (values : List Value)
  | table (origin : Origin) (entries : List (String × Value))
  deriving Repr

/-- The entries of a table in the order in which they came up. -/
abbrev Entries := List (String × Value)

namespace Entries

def find? (entries : Entries) (key : String) : Option Value :=
  entries.lookup key

/-- The entries with a value for a key, at its old place if it has one. -/
def put (key : String) (value : Value) : Entries → Entries
  | [] => [(key, value)]
  | entry :: rest => if entry.1 = key then (key, value) :: rest else entry :: put key value rest

/-! ## Paths -/

/-- How a path goes through tables: which ones it may enter, and what becomes of a name
that is not taken. -/
structure Route where
  enters : Origin → Bool
  missing : Origin

def Route.header : Route := ⟨fun origin => origin ≠ .inline, .implied⟩

def Route.dotted : Route := ⟨fun origin => origin = .implied || origin = .dotted, .dotted⟩

/-- Changes the table at the end of a path. In a list of tables the path goes through
the last one. -/
def within (route : Route) (change : Origin → Entries → Except Fault Entries) :
    List String → Origin → Entries → Except Fault Entries
  | [], origin, entries => change origin entries
  | key :: path, _, entries =>
      match entries.find? key with
      | none => do
          let inner ← within route change path route.missing []
          return entries.put key (.table route.missing inner)
      | some (.table origin inner) =>
          if route.enters origin then do
            let inner ← within route change path origin inner
            return entries.put key (.table origin inner)
          else .error (.closedTable key)
      | some (.items true values) =>
          match values.getLast? with
          | some (.table origin inner) => do
              let inner ← within route change path origin inner
              return entries.put key (.items true (values.dropLast ++ [.table origin inner]))
          | _ => .error (.closedTable key)
      | some _ => .error (.closedTable key)

/-! ## Changes -/

/-- Adds an entry whose key is not taken. -/
def add (key : String) (value : Value) (entries : Entries) : Except Fault Entries :=
  match entries.find? key with
  | none => .ok (entries ++ [(key, value)])
  | some _ => .error (.duplicateKey key)

/-- Assigns a value to the last of some keys; the others are the path to it. -/
def assign (path : List String) (key : String) (value : Value) (entries : Entries) :
    Except Fault Entries :=
  within Route.dotted
    (fun origin inner =>
      if path.isEmpty || origin = .dotted then inner.add key value
      else .error (.duplicateKey key))
    path .header entries

/-- Opens a table, unless it was opened before. -/
def openTable (key : String) (entries : Entries) : Except Fault Entries :=
  match entries.find? key with
  | none => .ok (entries.put key (.table .header []))
  | some (.table .implied inner) => .ok (entries.put key (.table .header inner))
  | some _ => .error (.duplicateKey key)

/-- Opens one more table of a list of tables. -/
def openItem (key : String) (entries : Entries) : Except Fault Entries :=
  match entries.find? key with
  | none => .ok (entries.put key (.items true [.table .header []]))
  | some (.items true values) =>
      .ok (entries.put key (.items true (values ++ [.table .header []])))
  | some _ => .error (.duplicateKey key)

/-- A key can be added only once. -/
theorem add_of_find? {entries : Entries} {key : String} {held : Value} (value : Value)
    (taken : entries.find? key = some held) :
    entries.add key value = .error (.duplicateKey key) := by
  simp [add, taken]

end Entries

end GodotGraph.Toml
