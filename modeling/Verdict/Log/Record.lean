import Verdict.Log.Level
import Verdict.Text.Placeholder
import Verdict.Text.Word

/-!
# Log/Record — records and their layout

A record is laid out by a text with placeholders for its fields.  On a terminal the name of the level
and the message are coloured; the record itself stays as it is.
-/

namespace Verdict

/-- A record of the log. -/
structure Record where
  logger : String
  level : Level
  message : Value
  /-- What stands in the placeholders of the message. -/
  values : List Value

namespace Record

/-- Why a record cannot be laid out. -/
inductive Error where
  /-- The layout has no placeholder. -/
  | noPlaceholder (layout : String)
  /-- The layout names a field that records lack. -/
  | noField (name : String)
  | placeholder (e : Placeholder.Error)

/-- The wording of an error. -/
def Error.message : Error → String
  | .noPlaceholder layout => "Invalid format '" ++ layout ++ "' for '%' style"
  | .noField name => "Formatting field not found in record: " ++ quote name
  | .placeholder e => e.message

/-- What stands in the placeholders of a message: a single object that is not empty gives fields. -/
def valuesOf (vs : List Value) : Placeholder.Values :=
  match vs with
  | [.object m (f :: fs)] => .fields (.object m (f :: fs))
  | vs => .inOrder vs

/-- A message with its placeholders filled; without values it stays as it is. -/
def filled (text : String) (values : List Value) : Except Placeholder.Error String :=
  if values.isEmpty then .ok text else Placeholder.fill text (valuesOf values)

/-- The letters that may end a placeholder of a layout. -/
def letters : List Char := "diouxefgcrsa%".toList

/-- Drop digits or an asterisk. -/
def dropNumber : List Char → List Char
  | '*' :: rest => rest
  | cs => cs.dropWhile Char.isDigit

/-- Whether a placeholder for a field begins a text. -/
def beginsPlaceholder : List Char → Bool
  | '%' :: '(' :: cs =>
    let name := cs.takeWhile isWordChar
    match cs.drop name.length with
    | ')' :: rest =>
      let rest := dropNumber (rest.dropWhile ['#', '0', '+', ' ', '-'].contains)
      let afterPoint := match rest with
        | '.' :: more => dropNumber more
        | rest => rest
      !name.isEmpty && (afterPoint.head?.any fun c => letters.contains c.toLower)
    | _ => false
  | _ => false

/-- Whether a text holds a placeholder for a field. -/
def holdsPlaceholder : List Char → Bool
  | [] => false
  | c :: rest => beginsPlaceholder (c :: rest) || holdsPlaceholder rest

/-- The layout of what is given as one; an empty text stands for the message alone. -/
def layoutOf (layout : String) : Except Error String :=
  let layout := if layout = "" then "%(message)s" else layout
  if holdsPlaceholder layout.toList then .ok layout else .error (.noPlaceholder layout)

/-- The fields of a record that a layout can show. -/
def fields (logger levelName message : String) (level : Level) : Value :=
  .ofFields [("name", .str logger), ("levelname", .str levelName), ("levelno", .int level),
    ("message", .str message)]

/-- Lay out fields. -/
def layOut (layout : String) (fields : Value) : Except Error String :=
  (Placeholder.fill layout (.fields fields)).mapError fun
    | .missing name => .noField name
    | e => .placeholder e

/-- A record as a terminal shows it. -/
def coloured (r : Record) (layout : String) : Except Error String := do
  let layout ← layoutOf layout
  let text ← (r.message.plain.mapError Placeholder.Error.limit).mapError Error.placeholder
  let message ← (filled (r.level.paint text) r.values).mapError Error.placeholder
  layOut layout (fields r.logger (r.level.paint r.level.name) message r.level)

end Record

end Verdict
