/-!
# TOML documents

The value of a TOML document: a table of keys. A table remembers how it came to be, since that
decides how it may be added to: a header opens a table once, keys joined by dots may only go into
tables that were begun so, and an inline table is closed.
-/

namespace SqlTree

/-- How a table came to be. -/
inductive TableOrigin where
  /-- By a header of its own. -/
  | headed
  /-- On the way to the table of a longer header. -/
  | implied
  /-- On the way of keys joined by dots. -/
  | dotted
  /-- Between braces. -/
  | inline
deriving DecidableEq, Repr

/-- A TOML value. Of floats and moments it only matters that they are there. -/
inductive Toml where
  | string (s : String)
  | integer (i : Int)
  | boolean (b : Bool)
  | float
  | moment
  | array (items : List Toml)
  /-- Tables that share a header in double brackets. -/
  | tables (all : List (List (String × Toml)))
  | table (origin : TableOrigin) (entries : List (String × Toml))

namespace Toml

/-- The entries of a table. -/
abbrev Entries := List (String × Toml)

/-- The entries with another value for a key that is there. -/
def Entries.replace (key : String) (value : Toml) : Entries → Entries
  | [] => []
  | (k, v) :: rest =>
    if k = key then (k, value) :: rest else (k, v) :: Entries.replace key value rest

/-- Adds a key with a value; the key must be new. -/
def Entries.addNew (entries : Entries) (key : String) (value : Toml) : Option Entries :=
  match entries.lookup key with
  | some _ => none
  | none => some (entries ++ [(key, value)])

/-- Adds a value under keys joined by dots. Tables that such keys did not begin are passed through
but not added to. -/
def Entries.addDotted (value : Toml) : List String → Entries → Option Entries
  | [], _ => none
  | [key], entries => entries.addNew key value
  | key :: keys, entries =>
    match entries.lookup key, keys with
    | none, _ => do
      return entries ++ [(key, .table .dotted (← Entries.addDotted value keys []))]
    | some (.table .dotted inner), _ => do
      return entries.replace key (.table .dotted (← Entries.addDotted value keys inner))
    | some (.table .implied inner), _ :: _ :: _ => do
      return entries.replace key (.table .implied (← Entries.addDotted value keys inner))
    | some (.tables all), _ :: _ :: _ => do
      let last ← all.getLast?
      return entries.replace key (.tables (all.dropLast ++ [← Entries.addDotted value keys last]))
    | _, _ => none

/-- Changes the entries of the table that a header names. On the way new tables are implied, and of
tables with a shared header the last is entered. -/
def Entries.modifyAt (change : Entries → Option Entries) : List String → Entries → Option Entries
  | [], entries => change entries
  | key :: keys, entries =>
    match entries.lookup key with
    | none => do
      let inner ← Entries.modifyAt change keys []
      return entries ++ [(key, .table .implied inner)]
    | some (.table .inline _) => none
    | some (.table origin inner) => do
      return entries.replace key (.table origin (← Entries.modifyAt change keys inner))
    | some (.tables all) => do
      let last ← all.getLast?
      return entries.replace key (.tables (all.dropLast ++ [← Entries.modifyAt change keys last]))
    | some _ => none

/-- Opens the table of a header, which must not have been opened before. -/
def Entries.openTable (key : String) (entries : Entries) : Option Entries :=
  match entries.lookup key with
  | none => some (entries ++ [(key, .table .headed [])])
  | some (.table .implied inner) => some (entries.replace key (.table .headed inner))
  | some _ => none

/-- Opens one more table of a shared header. -/
def Entries.openTables (key : String) (entries : Entries) : Option Entries :=
  match entries.lookup key with
  | none => some (entries ++ [(key, .tables [[]])])
  | some (.tables all) => some (entries.replace key (.tables (all ++ [[]])))
  | some _ => none

end Toml

end SqlTree
