import RecordExport.Text.Basic
/-!
# TOML tables

A configuration file builds one tree of tables, line by line. Which lines may touch a table depends
on how it came to be:

* a HEADER names a table in full and may do so once; the tables on its way there exist from then on,
  and may still get a header of their own;
* a DOTTED key makes the tables on its way; they may be added to by further dotted keys, and by
  nothing else;
* a table written as a value is closed.

Doubled brackets append a table to a list, and a path through such a list means its last table. A
key is given once.
-/

namespace RecordExport

/-- How a table came to be. -/
inductive TomlOrigin where
  /-- by a header of its own, or as the root of the file or of a written table -/
  | named
  /-- on the way to a header -/
  | passed
  /-- on the way to a dotted key -/
  | dotted
  deriving DecidableEq, Repr

/-- A value of a configuration file. Numbers with a fraction mean nothing to this library, nor do
    dates, so only their presence is kept. -/
inductive Toml where
  | string (s : String)
  | integer (n : Int)
  | boolean (b : Bool)
  | float
  | dateTime
  | array (items : List Toml)
  /-- a table written as a value -/
  | written (entries : List (String × Toml))
  | table (origin : TomlOrigin) (entries : List (String × Toml))
  /-- tables under doubled brackets -/
  | tables (ts : List (List (String × Toml)))

/-- An open table: how it came to be and what it holds. -/
structure TomlTable where
  origin : TomlOrigin
  entries : List (String × Toml)

namespace TomlTable

/-- A table with nothing in it. -/
def empty (origin : TomlOrigin) : TomlTable := ⟨origin, []⟩

/-- What stands under a key. -/
def get? (t : TomlTable) (key : String) : Option Toml := t.entries.lookup key

/-- The table with a value under a key, in the place of what stands there. -/
def set (t : TomlTable) (key : String) (v : Toml) : TomlTable :=
  if (t.get? key).isSome then
    { t with entries := t.entries.map fun e => if e.1 = key then (key, v) else e }
  else { t with entries := t.entries ++ [(key, v)] }

/-- Act on the table a path leads to, making the tables that are missing on the way. Dotted keys
    enter no table that has a header. -/
def reach (dotted : Bool) (act : TomlTable → Option TomlTable) :
    (path : List String) → TomlTable → Option TomlTable
  | [], t => act t
  | key :: path, t =>
    match t.get? key with
    | none =>
      (reach dotted act path (empty (if dotted then .dotted else .passed))).map
        fun inner => t.set key (.table inner.origin inner.entries)
    | some (.table origin entries) =>
      if dotted && origin = .named then none
      else (reach dotted act path ⟨origin, entries⟩).map
        fun inner => t.set key (.table inner.origin inner.entries)
    | some (.tables ts) =>
      match ts.getLast? with
      | none => none
      | some last => (reach dotted act path ⟨.named, last⟩).map
        fun inner => t.set key (.tables (ts.dropLast ++ [inner.entries]))
    | some _ => none

/-- Give a key its value. The table a dotted path ends in must have come by dotted keys, and one
    without a path must not. -/
def give (path : List String) (key : String) (v : Toml) (t : TomlTable) : Option TomlTable :=
  reach true (fun target =>
    if decide (target.origin = .dotted) = path.isEmpty then none
    else if (target.get? key).isSome then none
    else some (target.set key v)) path t

/-- Open a table under a header: one not there yet, or one only passed so far. -/
def openHeader (path : List String) (key : String) (t : TomlTable) : Option TomlTable :=
  reach false (fun parent =>
    match parent.get? key with
    | none => some (parent.set key (.table .named []))
    | some (.table .passed entries) => some (parent.set key (.table .named entries))
    | some _ => none) path t

/-- Append a table to the list under a header in doubled brackets. -/
def openListed (path : List String) (key : String) (t : TomlTable) : Option TomlTable :=
  reach false (fun parent =>
    match parent.get? key with
    | none => some (parent.set key (.tables [[]]))
    | some (.tables ts) => some (parent.set key (.tables (ts ++ [[]])))
    | some _ => none) path t

end TomlTable

/-! ## Files -/

/-- What a line of a file does. -/
inductive TomlLine where
  | header (path : List String) (key : String)
  | listed (path : List String) (key : String)
  | entry (path : List String) (key : String) (v : Toml)

/-- The tree so far, and the path of the table entries go to. -/
structure TomlFile where
  root : TomlTable
  current : List String

namespace TomlFile

/-- A file with no line read. -/
def empty : TomlFile := ⟨.empty .named, []⟩

/-- The file with one more line. -/
def add (f : TomlFile) : TomlLine → Option TomlFile
  | .header path key => (f.root.openHeader path key).map fun root => ⟨root, path ++ [key]⟩
  | .listed path key => (f.root.openListed path key).map fun root => ⟨root, path ++ [key]⟩
  | .entry path key v =>
    (TomlTable.reach false (·.give path key v) f.current f.root).map fun root => { f with root }

end TomlFile

/-- The table that entries write as a value. -/
def writtenTable (entries : List (List String × String × Toml)) : Option Toml :=
  (entries.foldlM (fun t e => TomlTable.give e.1 e.2.1 e.2.2 t) (TomlTable.empty .named)).map
    fun t => .written t.entries

end RecordExport
