import SchemaForge.Number.Binary64
import SchemaForge.OrderedMap

/-! What a settings file in TOML defines: values and tables by name. A table remembers how it came to be,
since that decides what may be added to it later: a table is declared by one header only, a dotted key
adds only to tables that dotted keys made, and a table that is written in place is closed. -/
namespace SchemaForge

inductive TableOrigin where
  /-- By a header of its own. -/
  | header
  /-- As a table above one that a header names. -/
  | implied
  /-- As a table above a dotted key. -/
  | dotted
  /-- By being written in place as a value. -/
  | inline
deriving DecidableEq

/-- A value or table of a settings file. Of a date only the fact that it is one is kept. -/
inductive TomlItem where
  | text (value : String)
  | integer (value : Int)
  | real (value : Binary64)
  /-- A number that is well written but has no value. It does no harm as long as it is not read. -/
  | unreadable
  | bool (value : Bool)
  | date
  | array (elements : List TomlItem)
  | table (origin : TableOrigin) (entries : List (String × TomlItem))
  | tables (elements : List (List (String × TomlItem)))

namespace TomlItem

/-- Assigns a value under a dotted key: the names above it, then its own. The flag says that the table at
hand takes keys from here. -/
def assign (takesKeys : Bool) (key : String) (value : TomlItem) :
    List String → Entries TomlItem → Option (Entries TomlItem)
  | [], entries => if takesKeys && !entries.has key then some (entries.put key value) else none
  | name :: above, entries =>
      match entries.find? name with
      | none => do
          let inner ← assign true key value above []
          return entries.put name (.table .dotted inner)
      | some (.table .dotted inner) => do
          let inner ← assign true key value above inner
          return entries.put name (.table .dotted inner)
      | some (.table .implied inner) => do
          let inner ← assign false key value above inner
          return entries.put name (.table .implied inner)
      | some (.tables elements) => do
          let inner ← assign false key value above (elements.getLast?.getD [])
          return entries.put name (.tables (elements.dropLast ++ [inner]))
      | some _ => none

/-- Changes what stands under the last of the names that a header consists of. On the way the last
element of a list of tables counts as the table. -/
def declare (change : Option TomlItem → Option TomlItem) :
    List String → Entries TomlItem → Option (Entries TomlItem)
  | [], _ => none
  | [name], entries => do
      let item ← change (entries.find? name)
      return entries.put name item
  | name :: below, entries =>
      match entries.find? name with
      | none => do
          let inner ← declare change below []
          return entries.put name (.table .implied inner)
      | some (.table .inline _) => none
      | some (.table origin inner) => do
          let inner ← declare change below inner
          return entries.put name (.table origin inner)
      | some (.tables elements) => do
          let inner ← declare change below (elements.getLast?.getD [])
          return entries.put name (.tables (elements.dropLast ++ [inner]))
      | some _ => none

/-- What a header of a table makes of the item under its name. -/
def declaredTable : Option TomlItem → Option TomlItem
  | none => some (.table .header [])
  | some (.table .implied inner) => some (.table .header inner)
  | some _ => none

/-- What a header of a list of tables makes of the item under its name. -/
def declaredElement : Option TomlItem → Option TomlItem
  | none => some (.tables [[]])
  | some (.tables elements) => some (.tables (elements ++ [[]]))
  | some _ => none

/-- Changes the entries of the table that a header declared. -/
def within (change : Entries TomlItem → Option (Entries TomlItem)) :
    List String → Entries TomlItem → Option (Entries TomlItem)
  | [], entries => change entries
  | name :: below, entries =>
      match entries.find? name with
      | some (.table origin inner) => do
          let inner ← within change below inner
          return entries.put name (.table origin inner)
      | some (.tables elements) => do
          let inner ← within change below (elements.getLast?.getD [])
          return entries.put name (.tables (elements.dropLast ++ [inner]))
      | _ => none

mutual

/-- The item can be read: all numbers in it have values. -/
def isReadable : TomlItem → Bool
  | .unreadable => false
  | .array elements => elementsReadable elements
  | .table _ entries => entriesReadable entries
  | .tables elements => tablesReadable elements
  | _ => true

def elementsReadable : List TomlItem → Bool
  | [] => true
  | item :: rest => item.isReadable && elementsReadable rest

def entriesReadable : List (String × TomlItem) → Bool
  | [] => true
  | (_, item) :: rest => item.isReadable && entriesReadable rest

def tablesReadable : List (List (String × TomlItem)) → Bool
  | [] => true
  | entries :: rest => entriesReadable entries && tablesReadable rest

end

end TomlItem

end SchemaForge
