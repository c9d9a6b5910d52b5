import RustScript.Toml.Basic
import RustScript.Toml.Problem

/-!
# Building a TOML document

A document grows by one header or one entry at a time. Besides its table it remembers which keys
may not be opened again (`declared`) and below which keys nothing may change (`frozen`).
-/

set_option autoImplicit false

namespace RustScript.Toml

/-! ## Tables behind keys -/

/-- Changes the table behind a key, creating tables on the way. Behind an array of tables stands
its last table, if `throughArrays` allows that; any other value is in the way. -/
def updateNest (throughArrays : Bool) (change : Table → Except Problem Table) :
    Key → Table → Except Problem Table
  | [], table => change table
  | part :: rest, table => do
      let nested ← match table.get? part with
        | none => (Value.table ·) <$> updateNest throughArrays change rest []
        | some (.table entries) =>
            (Value.table ·) <$> updateNest throughArrays change rest entries
        | some (.array elements) =>
            match throughArrays, elements.getLast? with
            | true, some (.table entries) =>
                (fun entries => Value.array (elements.dropLast ++ [.table entries])) <$>
                  updateNest throughArrays change rest entries
            | _, _ => throw .overwritten
        | some _ => throw .overwritten
      return table.put part nested

/-- Adds an entry to a table that has no such key. -/
def addEntry (occupied : Problem) (name : String) (value : Value) (table : Table) :
    Except Problem Table :=
  if table.has name then throw occupied else return table.put name value

/-- Adds an empty table to the array of tables behind a name. -/
def addToArray (name : String) (table : Table) : Except Problem Table :=
  match table.get? name with
  | none => return table.put name (.array [.table []])
  | some (.array elements) => return table.put name (.array (elements ++ [.table []]))
  | some _ => throw .overwritten

/-! ## Documents -/

/-- A document that is being read. -/
structure Document where
  table : Table
  /-- Keys that a header or a dotted key has opened for good. -/
  declared : List Key
  /-- Keys opened by dotted keys since the last header. -/
  pending : List Key
  /-- Keys of arrays and inline tables. -/
  frozen : List Key
  /-- The key of the last header. -/
  header : Key

/-- The empty document. -/
def Document.empty : Document := ⟨[], [], [], [], []⟩

/-- The key, or one that it begins with, is in the list. -/
def isFrozen (frozen : List Key) (key : Key) : Bool := frozen.any (·.isPrefixOf key)

/-- The document at the beginning of a header: dotted keys so far are closed. -/
def Document.close (document : Document) : Document :=
  { document with declared := document.pending ++ document.declared, pending := [] }

/-- Opens the table `[key]`. -/
def Document.openTable (document : Document) (key : Key) : Except Problem Document := do
  -- a table may be opened once, and never below an array or an inline table
  if document.declared.contains key || isFrozen document.frozen key then throw (.declaredTwice key)
  let table ← updateNest true pure key document.table
  return { document with table := table, declared := key :: document.declared, header := key }

/-- Opens a new table of the array `[[key]]`. What lay below the key of an earlier table of the
array is free again. -/
def Document.openElement (document : Document) (key : Key) : Except Problem Document := do
  if isFrozen document.frozen key then throw (.immutable key)
  let keep (other : Key) : Bool := !key.isPrefixOf other
  let table ← updateNest true (addToArray (key.getLastD "")) key.dropLast document.table
  return { document with
    table := table
    declared := key :: document.declared.filter keep
    frozen := document.frozen.filter keep
    header := key }

/-- The keys that begin a dotted key, itself left out. -/
def properPrefixes (key : Key) : List Key := (List.range key.length).tail.map key.take

/-- The value is an array or an inline table. -/
def isComposite : Value → Bool
  | .array _ => true
  | .table _ => true
  | _ => false

/-- Enters a value under a key below the last header. -/
def Document.enter (document : Document) (key : Key) (value : Value) :
    Except Problem Document := do
  let opened := (properPrefixes key).map (document.header ++ ·)
  if let some container := opened.find? document.declared.contains then
    throw (.redefined container)
  let parent := document.header ++ key.dropLast
  if parent ≠ [] ∧ isFrozen document.frozen parent then throw (.immutable parent)
  let table ← updateNest true (addEntry .overwritten (key.getLastD "") value) parent document.table
  return { document with
    table := table
    pending := opened ++ document.pending
    frozen := if isComposite value then (document.header ++ key) :: document.frozen
      else document.frozen }

end RustScript.Toml
