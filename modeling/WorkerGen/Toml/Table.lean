import WorkerGen.Dictionary
import WorkerGen.Toml.Value

/-!
# Building tables

A table comes about in one of three ways: by a header of its own, on the way to a table that has
one, or on the way to a value that has a dotted key.  This decides what may be added to it later:

* a header may take up a table that was only on the way to another header, and no other;
* a dotted key may go on through a table that dotted keys have made, not through one with a header;
* a value, be it an inline table, is complete and nothing is added to it.
-/

namespace WorkerGen.Toml

/-- A name in a key, and where it starts. -/
structure Name where
  text : String
  start : Nat

/-- How a table has come about. -/
inductive Origin where
  /-- By its own header. -/
  | header
  /-- On the way to a table with a header. -/
  | implied
  /-- On the way to a value with a dotted key. -/
  | dotted
deriving DecidableEq

/-- What stands under a name while a document is read. -/
inductive Item where
  /-- A complete value. -/
  | complete (value : Value)
  | table (origin : Origin) (start : Nat) (entries : List (String × Item))
  /-- A list of tables with headers, the last of which is added to. -/
  | tables (start : Nat) (earlier : List Value) (lastStart : Nat) (last : List (String × Item))

/-- The entries of a table that is being built, in the order of their keys. -/
abbrev Items := List (String × Item)

/-! ## Values of items -/

mutual

/-- The value of an item. -/
def Item.toValue : Item → Value
  | .complete v => v
  | .table _ start entries => .table start (entryValues entries)
  | .tables start earlier lastStart last =>
    .array start (earlier ++ [.table lastStart (entryValues last)])

/-- The values of entries. -/
def entryValues : List (String × Item) → List (String × Value)
  | [] => []
  | (name, item) :: rest => (name, item.toValue) :: entryValues rest

end

/-! ## Adding to tables -/

/-- Adds a value under a key with dots.  None if the key is taken, or if it leads through something
that nothing may be added to. -/
def assign (value : Value) : List Name → Items → Option Items
  | [], _ => none
  | [name], items =>
    match items.lookup name.text with
    | none => some (insertSorted name.text (.complete value) items)
    | some _ => none
  | name :: next :: rest, items =>
    match items.lookup name.text with
    | none =>
      (assign value (next :: rest) []).map fun inner =>
        insertSorted name.text (.table .dotted name.start inner) items
    | some (.table .dotted start inner) =>
      (assign value (next :: rest) inner).map fun inner =>
        insertSorted name.text (.table .dotted start inner) items
    | some (.table .implied start inner) =>
      if rest.isEmpty then none
      else (assign value (next :: rest) inner).map fun inner =>
        insertSorted name.text (.table .implied start inner) items
    | some (.tables start earlier lastStart last) =>
      if rest.isEmpty then none
      else (assign value (next :: rest) last).map fun last =>
        insertSorted name.text (.tables start earlier lastStart last) items
    | some (.table .header ..) | some (.complete _) => none

/-- Opens the table of a header.  `start` is where the header stands. -/
def openTable (start : Nat) : Option Item → Option Item
  | none => some (.table .header start [])
  | some (.table .implied _ entries) => some (.table .header start entries)
  | some _ => none

/-- Opens a further table of a list of tables. -/
def openElement (start : Nat) : Option Item → Option Item
  | none => some (.tables start [] start [])
  | some (.tables first earlier lastStart last) =>
    some (.tables first (earlier ++ [.table lastStart (entryValues last)]) start [])
  | some _ => none

/-- Changes what stands under a path of headers.  Tables on the way are made where there are none,
and of a list of tables the last is meant. -/
def alter (change : Option Item → Option Item) : List Name → Items → Option Items
  | [], _ => none
  | [name], items =>
    (change (items.lookup name.text)).map fun item => insertSorted name.text item items
  | name :: next :: rest, items =>
    match items.lookup name.text with
    | none =>
      (alter change (next :: rest) []).map fun inner =>
        insertSorted name.text (.table .implied name.start inner) items
    | some (.table origin start inner) =>
      (alter change (next :: rest) inner).map fun inner =>
        insertSorted name.text (.table origin start inner) items
    | some (.tables start earlier lastStart last) =>
      (alter change (next :: rest) last).map fun last =>
        insertSorted name.text (.tables start earlier lastStart last) items
    | some (.complete _) => none

/-- Adds a value to the table of the last header. -/
def assignIn (key : List Name) (value : Value) (header : List Name) (items : Items) :
    Option Items :=
  match header with
  | [] => assign value key items
  | _ => alter (fun
      | some (.table origin start entries) => (assign value key entries).map (.table origin start)
      | some (.tables start earlier lastStart last) =>
        (assign value key last).map (.tables start earlier lastStart)
      | _ => none) header items

end WorkerGen.Toml
