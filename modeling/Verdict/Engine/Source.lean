import Verdict.Document.Yaml
import Verdict.Engine.Failure
import Verdict.FileName

/-!
# Engine/Source — documents from texts and files

A text is read as YAML, and so is a file, unless its name ends in `.json`.  The document of a rule
is a mapping that is not empty.
-/

namespace Verdict

/-- Where a document comes from. -/
inductive Source where
  | text (s : String)
  /-- A file: what messages call it, and its text. -/
  | file (name content : String)

namespace Source

/-- A source given by a name: a text when the name has several lines, else the file. -/
def named (name content : String) : Source :=
  if name.contains '\n' then .text name else .file name content

/-- Whether a source is read as JSON. -/
def isJson : Source → Bool
  | .text _ => false
  | .file name _ => (FileName.extension name).map Char.toLower = ['j', 's', 'o', 'n']

/-- What messages call a source. -/
def name : Source → String
  | .text s => s
  | .file name _ => name

/-- The text of a source. -/
def content : Source → String
  | .text s => s
  | .file _ content => content

/-- Why a source is no document. -/
def failureOf (malformed : Failure) : Document.Error → Failure
  | .malformed => malformed
  | .noSuchMoment => .noSuchMoment
  | .limit f => .fault f

/-- The document of a source. -/
def read (s : Source) : Except Failure Value :=
  if s.isJson then (Json.ofText s.content).mapError (failureOf .malformedJson)
  else (Yaml.ofText s.content).mapError (failureOf .malformedYaml)

/-- What the message about a document that is no mapping calls it. -/
def kindWord : Value → String
  | .null => "NoneType"
  | .bool _ => "bool"
  | .int _ => "int"
  | .float _ => "float"
  | .str _ => "str"
  | .date _ => "date"
  | .dateTime _ => "datetime"
  | .list .. => "list"
  | .object .. => "dict"

/-- The document of a rule. -/
def readRule (s : Source) : Except Failure Value := do
  let v ← s.read
  if !v.isTruthy then .error (.emptyDocument s.name)
  else
    match v with
    | .object .. => .ok v
    | v => .error (.notAMapping (kindWord v))

end Source

end Verdict
