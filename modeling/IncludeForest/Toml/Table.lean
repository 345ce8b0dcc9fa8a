import IncludeForest.Toml.Basic

/-!
# Tables under construction

A settings file builds one table, and three ways of writing name the places in
it: a header that opens a table, a header that opens a further element of a
list of tables, and a key with dots, which goes through tables of its own. A
table must not be defined twice, so each remembers how it came about.

* A table opened by a header is closed to headers and to dotted keys from
  elsewhere.
* A table that a header merely passed through on its way may still be opened.
* A table that a dotted key passed through takes more dotted keys, as long as
  the table that holds it is the open one, but cannot be opened.
* A value is complete: nothing goes into it, whether it is a table or not.
-/

namespace IncludeForest.Toml

/-- **How a table came about.** -/
inductive Origin where
  /-- A header opened it. -/
  | opened
  /-- A header passed through it. -/
  | passed
  /-- A dotted key passed through it. -/
  | dotted
  deriving DecidableEq, Repr

/-- **What a table under construction holds under a name.** -/
inductive Item where
  /-- A complete value. -/
  | value (v : Value)
  /-- A table, and how it came about. -/
  | table (origin : Origin) (entries : List (String × Item))
  /-- A list of tables that headers opened. -/
  | tables (elements : List (List (String × Item)))
  deriving Repr

/-- The entries of a table under construction. -/
abbrev Entries := List (String × Item)

namespace Entries

/-- The item under a name. -/
def get? (name : String) : Entries → Option Item
  | [] => none
  | (key, item) :: rest => if key = name then some item else get? name rest

/-- The entries with an item under a name, in place of any it had. -/
def set (name : String) (item : Item) : Entries → Entries
  | [] => [(name, item)]
  | (key, old) :: rest =>
    if key = name then (key, item) :: rest else (key, old) :: set name item rest

/-- The entries with what `change` makes of the entries of the last element. -/
def changeLast? (change : Entries → Option Entries) : List Entries → Option (List Entries)
  | [] => none
  | [last] => (change last).map ([·])
  | first :: rest => (changeLast? change rest).map (first :: ·)

/-- **The entries with a value under a dotted key**, which the table that holds
them accepts if `accepting`: a table accepts a key of its own, and a table that
a dotted key has come to accepts the key if such a key has made it. -/
def define? (accepting : Bool) (v : Value) : List String → Entries → Option Entries
  | [], _ => none
  | [key], entries =>
    if accepting ∧ (entries.get? key).isNone then some (entries.set key (.value v)) else none
  | key :: path, entries => do
    let item ← match entries.get? key with
      | none => (define? true v path []).map (Item.table .dotted)
      | some (.value _) => none
      | some (.tables elements) => (changeLast? (define? false v path) elements).map Item.tables
      | some (.table origin inside) =>
        if origin = .opened then none
        else (define? (origin = .dotted) v path inside).map (Item.table origin)
    return entries.set key item

/-- **The entries with a change at the place that a header names**, on the way
to which it passes through tables. -/
def atPath? (change : Option Item → Option Item) : List String → Entries → Option Entries
  | [], _ => none
  | [key], entries => (change (entries.get? key)).map (entries.set key)
  | key :: path, entries => do
    let item ← match entries.get? key with
      | none => (atPath? change path []).map (Item.table .passed)
      | some (.value _) => none
      | some (.tables elements) => (changeLast? (atPath? change path) elements).map Item.tables
      | some (.table origin inside) => (atPath? change path inside).map (Item.table origin)
    return entries.set key item

/-- The entries with all the values of a section. -/
def defineAll? (pairs : List (List String × Value)) (entries : Entries) : Option Entries :=
  pairs.foldlM (fun entries (path, v) => define? true v path entries) entries

/-- What a header makes of the item it opens: a table with the values of the
section in it, if the header may open it. -/
def openTable? (pairs : List (List String × Value)) : Option Item → Option Item
  | none => (defineAll? pairs []).map (.table .opened)
  | some (.table .passed inside) => (defineAll? pairs inside).map (.table .opened)
  | some _ => none

/-- What a header makes of the list that it adds an element to. -/
def openElement? (pairs : List (List String × Value)) : Option Item → Option Item
  | none => (defineAll? pairs []).map fun element => .tables [element]
  | some (.tables elements) =>
    (defineAll? pairs []).map fun element => .tables (elements ++ [element])
  | some _ => none

end Entries

mutual

/-- The value that a finished item is. -/
def Item.finished : Item → Value
  | .value v => v
  | .table _ entries => .table (entriesFinished entries)
  | .tables elements => .array (elementsFinished elements)

/-- The values that finished entries are. -/
def entriesFinished : List (String × Item) → List (String × Value)
  | [] => []
  | (key, item) :: rest => (key, item.finished) :: entriesFinished rest

/-- The tables that finished elements are. -/
def elementsFinished : List (List (String × Item)) → List Value
  | [] => []
  | element :: rest => .table (entriesFinished element) :: elementsFinished rest

end

end IncludeForest.Toml
