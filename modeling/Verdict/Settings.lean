import Verdict.Entries
import Verdict.FileName
import Verdict.Text.Blank
import Verdict.Text.LetterCase
import Verdict.Text.Quoted

/-!
# Settings — what the environment sets

Settings are read from variables.  Files of assignments come before the environment, a later file
before an earlier one.  Once read, settings stay in force until they are to be read anew.
-/

namespace Verdict

/-- Variables and their values. -/
abbrev Environment := List (String × String)

namespace Environment

/-- Whether a character may stand in the name of a variable. -/
def isNameChar (c : Char) : Bool := !(c = '=' || c = '#' || isBlank c)

/-- The text up to a mark that ends it. -/
def upTo (mark : Char) (cs : List Char) : Option (List Char) :=
  if cs.contains mark then some (cs.takeWhile (· ≠ mark)) else none

/-- The text before a comment, which white space comes before. -/
def beforeComment : List Char → List Char
  | [] => []
  | c :: rest =>
    if isBlank c && (rest.dropWhile isBlank).head? = some '#' then [] else c :: beforeComment rest

/-- The value that is assigned: between quotes, or up to a comment. -/
def assignedValue (cs : List Char) : Option String :=
  match cs with
  | '\'' :: rest => (upTo '\'' rest).map String.ofList
  | '"' :: rest => (upTo '"' rest).map String.ofList
  | cs => some (String.ofList (stripChars (beforeComment cs)))

/-- Drop the word that may come before an assignment. -/
def dropExport (cs : List Char) : List Char :=
  let word := ['e', 'x', 'p', 'o', 'r', 't']
  if word.isPrefixOf cs && ((cs.drop 6).head?.any isBlank) then (cs.drop 6).dropWhile isBlank else cs

/-- The assignment on a line; none on any other line. -/
def assignment? (line : String) : Option (String × String) :=
  let cs := dropExport (line.toList.dropWhile isBlank)
  let name := cs.takeWhile isNameChar
  match (cs.drop name.length).dropWhile isBlank with
  | '=' :: rest =>
    if name.isEmpty then none
    else (assignedValue (rest.dropWhile isBlank)).map fun v => (String.ofList name, v)
  | _ => none

/-- The assignments of a file. -/
def assignments (text : String) : List (String × String) := (text.splitOn "\n").filterMap assignment?

/-- The variables after assignments, each of which replaces what was there. -/
def assign (env : Environment) (pairs : List (String × String)) : Environment :=
  pairs.foldl (fun env e => Entries.put e.1 e.2 env) env

/-- The text of a file; none when there is no such file. -/
def file? (files : List (String × String)) (name : String) : Option String :=
  (files.find? fun f => FileName.plain f.1 = FileName.plain name).map Prod.snd

/-- The variables after the files of assignments: the usual one, and one given by name. -/
def withFiles (env : Environment) (files : List (String × String)) (name : String) : Environment :=
  [".env", name].foldl (fun env name => env.assign (((file? files name).map assignments).getD [])) env

/-- The value of a variable, or a default. -/
def valueOr (env : Environment) (name default : String) : String := (Entries.find? name env).getD default

end Environment

/-- A level that does not exist. -/
structure UnknownLevel where
  level : String

/-- The wording of a level that does not exist. -/
def UnknownLevel.message (e : UnknownLevel) : String := "LogConfig: invalid level " ++ quote e.level

/-- The settings. -/
structure Settings where
  /-- Whether rules are evaluated unchecked. -/
  trustsRules : Bool
  /-- Whether the results of transforms are kept. -/
  cachesResults : Bool
  logLevel : String
  logDirectory : String
  /-- Whether the log is also written to files. -/
  logsToFile : Bool
  deriving DecidableEq, Repr

namespace Settings

/-- The levels that may be set. -/
def levels : List String := ["DEBUG", "INFO", "WARNING", "ERROR", "CRITICAL"]

/-- Whether a word turns something on. -/
def isOn (word : String) : Bool := ["1", "true", "yes", "on"].contains (lowerText (stripText word))

/-- Read the settings of an environment. -/
def ofEnvironment (env : Environment) : Except UnknownLevel Settings :=
  let level := upperText (env.valueOr "LOG_LEVEL" "INFO")
  if levels.contains level then
    .ok {
      trustsRules := isOn (env.valueOr "RULE_ENGINE_TRUST_RULES" "false")
      cachesResults := isOn (env.valueOr "RULE_ENGINE_MUTATION_CACHE" "true")
      logLevel := level
      logDirectory := env.valueOr "LOG_DIR" "logs"
      logsToFile := isOn (env.valueOr "LOG_TO_FILE" "false") }
  else .error ⟨level⟩

/-- The settings in force: those that were in force before, unless there are none or they are to be
read anew. -/
def inForce (before : Option Settings) (anew : Bool) (env : Environment) : Except UnknownLevel Settings :=
  match before, anew with
  | some s, false => .ok s
  | _, _ => ofEnvironment env

/-- What does not fit together. -/
def problems (s : Settings) : List String :=
  if s.logsToFile && s.logDirectory = "" then ["LOG_TO_FILE is set but LOG_DIR is empty"] else []

/-- The settings on one line. -/
def summary (s : Settings) : String :=
  "Rules: " ++ (if s.trustsRules then "trusted" else "validated") ++
  " | Mutation cache: " ++ (if s.cachesResults then "on" else "off") ++
  " | Log: " ++ s.logLevel

/-- The settings of an empty environment. -/
def usual : Settings := ⟨false, true, "INFO", "logs", false⟩

end Settings

end Verdict
