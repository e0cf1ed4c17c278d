import WorkerGen.Json.Value

/-!
# What is displayed

A report is displayed as a sequence of items, each of which says what it is; how it looks is decided
by what it is displayed on.  `DisplayItem.text` is how it looks on a terminal, where warnings and
errors go to a stream of their own.  `DisplayItem.toJson` is an item for another program.
-/

namespace WorkerGen

/-- An item of a report. -/
inductive DisplayItem where
  /-- The heading of a section. -/
  | section (name : String)
  | keyValue (key value : String)
  | listItem (text : String)
  /-- Something that has been made. -/
  | addedItem (text : String)
  | warning (message : String)
  | error (message : String)
  /-- A line between parts of a report. -/
  | divider (label : String)
  /-- Text as it is. -/
  | preformatted (text : String)
  | newline
deriving DecidableEq

namespace DisplayItem

/-- Whether an item goes to the stream for warnings and errors. -/
def isComplaint : DisplayItem → Bool
  | .warning _ | .error _ => true
  | _ => false

/-- The text of an item on a terminal. -/
def text : DisplayItem → String
  | .section name => name ++ ":\n"
  | .keyValue key value => key ++ ": " ++ value ++ "\n"
  | .listItem text => "  - " ++ text ++ "\n"
  | .addedItem text => "  + " ++ text ++ "\n"
  | .warning message => "warning: " ++ message ++ "\n"
  | .error message => "error: " ++ message ++ "\n"
  | .divider label => "── " ++ label ++ " ──\n"
  | .preformatted text => text ++ "\n"
  | .newline => "\n"

/-- An item as JSON. -/
def toJson : DisplayItem → Json
  | .section name => .array [.string "section", .string name]
  | .keyValue key value => .array [.string "key_value", .string key, .string value]
  | .listItem text => .array [.string "list_item", .string text]
  | .addedItem text => .array [.string "added_item", .string text]
  | .warning message => .array [.string "warning", .string message]
  | .error message => .array [.string "error", .string message]
  | .divider label => .array [.string "divider", .string label]
  | .preformatted text => .array [.string "preformatted", .string text]
  | .newline => .array [.string "newline"]

end DisplayItem

/-- What a report prints. -/
def printed (items : List DisplayItem) : String :=
  String.join ((items.filter (!·.isComplaint)).map DisplayItem.text)

/-- What a report complains about. -/
def complained (items : List DisplayItem) : String :=
  String.join ((items.filter (·.isComplaint)).map DisplayItem.text)

end WorkerGen
