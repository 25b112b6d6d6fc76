/-! # TOML documents

The tree that a TOML document stands for, and how its lines build the tree. A table may be opened by a
header only once, and a header or a dotted key may not reach into what was written in another way: into
an inline table, or by a dotted key into a table with a header of its own. Only from inside of the same
braces may a dotted key reach into an inline table.
-/

namespace VhdlOrder

/-- How a table has come about: between braces, by a header, on the way to a header with a longer name,
or by a dotted key. -/
inductive TomlOrigin where
  | inline | header | implied | dotted
deriving DecidableEq

/-- A value of a document. Of a number, or a date or time, it does not matter which one it is, as no
setting is one. -/
inductive TomlValue where
  | string (text : String)
  | bool (value : Bool)
  | number
  | moment
  | array (items : List TomlValue)
  | table (origin : TomlOrigin) (entries : List (String × TomlValue))

/-- The entries of a table in the order in which they are written. -/
abbrev TomlEntries := List (String × TomlValue)

/-- A line of a document: a header, or a key with a value. The parts of a dotted name are a list. -/
inductive TomlLine where
  | header (path : List String)
  | pair (path : List String) (value : TomlValue)

namespace Toml

/-- The value of a key. -/
def get? (entries : TomlEntries) (key : String) : Option TomlValue := entries.lookup key

/-- Puts a value in the place of the one that the key has. -/
def replace (entries : TomlEntries) (key : String) (value : TomlValue) : TomlEntries :=
  entries.map fun entry => if entry.1 == key then (key, value) else entry

/-- Adds a key, which may be dotted, with its value. A table that lies on the way to a longer header has
no keys of its own, but tables on the way may have further tables in them. -/
def insert (entries : TomlEntries) : List String → TomlValue → Option TomlEntries
  | [], _ => none
  | [key], value =>
      match get? entries key with
      | none => some (entries ++ [(key, value)])
      | some _ => none
  | key :: next :: path, value =>
      match get? entries key with
      | none =>
          (insert [] (next :: path) value).map fun inner =>
            entries ++ [(key, .table .dotted inner)]
      | some (.table .dotted inner) =>
          (insert inner (next :: path) value).map fun inner =>
            replace entries key (.table .dotted inner)
      | some (.table .implied inner) =>
          if path.isEmpty then none
          else
            (insert inner (next :: path) value).map fun inner =>
              replace entries key (.table .implied inner)
      | some _ => none

/-- Opens the table of a header. -/
def openTable (entries : TomlEntries) : List String → Option TomlEntries
  | [] => none
  | [key] =>
      match get? entries key with
      | none => some (entries ++ [(key, .table .header [])])
      | some (.table .implied inner) => some (replace entries key (.table .header inner))
      | some _ => none
  | key :: next :: path =>
      match get? entries key with
      | none =>
          (openTable [] (next :: path)).map fun inner => entries ++ [(key, .table .implied inner)]
      | some (.table .inline _) => none
      | some (.table origin inner) =>
          (openTable inner (next :: path)).map fun inner =>
            replace entries key (.table origin inner)
      | some _ => none

/-- Changes the entries of the table at a path. -/
def change (entries : TomlEntries) (action : TomlEntries → Option TomlEntries) :
    List String → Option TomlEntries
  | [] => action entries
  | key :: path =>
      match get? entries key with
      | some (.table origin inner) =>
          (change inner action path).map fun inner => replace entries key (.table origin inner)
      | _ => none

/-- The entries after some lines; `current` is the path of the table that was opened last. -/
def build (entries : TomlEntries) (current : List String) : List TomlLine → Option TomlEntries
  | [] => some entries
  | .header path :: lines =>
      match openTable entries path with
      | some entries => build entries path lines
      | none => none
  | .pair path value :: lines =>
      match change entries (fun inner => insert inner path value) current with
      | some entries => build entries current lines
      | none => none

/-- Adds a key, which may be dotted, with its value inside of braces. -/
def insertInline (entries : TomlEntries) : List String → TomlValue → Option TomlEntries
  | [], _ => none
  | [key], value =>
      match get? entries key with
      | none => some (entries ++ [(key, value)])
      | some _ => none
  | key :: next :: path, value =>
      match get? entries key with
      | none =>
          (insertInline [] (next :: path) value).map fun inner =>
            entries ++ [(key, .table .inline inner)]
      | some (.table origin inner) =>
          (insertInline inner (next :: path) value).map fun inner =>
            replace entries key (.table origin inner)
      | some _ => none

/-- The entries of an inline table. -/
def inlineTable : TomlEntries → List (List String × TomlValue) → Option TomlEntries
  | entries, [] => some entries
  | entries, (path, value) :: rest =>
      match insertInline entries path value with
      | some entries => inlineTable entries rest
      | none => none

end Toml

end VhdlOrder
