import WorkerGen.Json.Text

/-!
# Generated text

A generated file is put together from lines, each of which ends with a line feed.  What comes from
the inputs is written into them as JSON, which is also a literal of the generated language.
-/

namespace WorkerGen.Worker

/-- The text of lines, each with a line feed at its end. -/
def ofLines (lines : List String) : String := String.join (lines.map (· ++ "\n"))

/-- A text as a literal. -/
def quote (s : String) : String := Json.encode (.string s)

/-- The line that begins every generated file. -/
def banner : String := "// Generated by skyway. Do not edit."

end WorkerGen.Worker
