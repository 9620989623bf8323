import Cashflow.Document.Json.Reader
import Cashflow.Document.Load
import Cashflow.Text.Letter
import Cashflow.Text.Path

/-!
# Documents in files

The format is the one asked for, else the suffix of the path; files without one are read like
`yaml`. Both formats are read by the same grammar, in which a blank `yaml` text is null. The digits
of whole numbers and the depth of nesting are limited; a `yaml` text is read in whole before its
numbers are. Events have a depth of their own, which is met when their turn comes.
-/

namespace Cashflow

/-- What a path leads to. -/
inductive FileContent where
  | absent
  | directory
  | nameTooLong
  | text (s : String)

namespace Document

def yamlFormats : List String := ["yaml", "yml", ""]

def fileFormat (path : String) (format : Option String) : String :=
  match format with
  | some f => if f = "" then Text.lowered (Text.pathSuffix path) else Text.lowered f
  | none => Text.lowered (Text.pathSuffix path)

/-- How many lists and mappings are read inside one another: in the two formats, and in an event. -/
structure Depths where
  json : Nat := 988
  yaml : Nat := 490
  event : Nat := 494

def readJson (depth : Nat) (text : String) : Except Json.ReadFault Value :=
  Json.read ⟨some Text.digitLimit, some depth⟩ text

def readYaml (depth : Nat) (text : String) : Except Json.ReadFault Value :=
  if text.toList.all Json.isSpace then .ok .null
  else do
    discard (Json.read ⟨none, some depth⟩ text)
    Json.read ⟨some Text.digitLimit, some depth⟩ text

/-- The value that was read in a format, or what became of it. -/
def judgedText (path format : String) : Except Json.ReadFault Value → Except LoadFailure Value
  | .ok v => .ok v
  | .error .malformed => .error (.load (.unreadable path format))
  | .error (.longNumeral n) => .error (.longNumeral n)
  | .error .nested => .error .nested

/-- The value in a text of a format. -/
def readText (depths : Depths) (path format text : String) : Except LoadFailure Value :=
  if yamlFormats.contains format then
    judgedText path (if format = "" then "yaml" else format) (readYaml depths.yaml text)
  else if format = "json" then judgedText path format (readJson depths.json text)
  else .error (.load (.unsupported format path))

def ofFile (depths : Depths) (path : String) (format : Option String) (content : FileContent) :
    Except LoadFailure Document :=
  let label := Text.normalPath path
  match content with
  | .absent => .error (.noFile label)
  | .directory => .error (.directory label)
  | .nameTooLong => .error (.nameTooLong label)
  | .text text =>
    match readText depths label (fileFormat path format) text with
    | .error f => .error f
    | .ok (.mapping entries) => ofEntriesWithin depths.event label entries
    | .ok _ => .error (.load (.notMapping label))

end Document

end Cashflow
