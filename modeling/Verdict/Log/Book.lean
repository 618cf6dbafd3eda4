import Verdict.FileName
import Verdict.Log.Level
import Verdict.Settings
import Verdict.Text.LetterCase

/-!
# Log/Book — loggers and their files

There is one logger at a time, which is set up or made on first use.  Its components write to the
terminal and, where that is set, to a file of its directory.
-/

namespace Verdict

/-- A logger. -/
structure Logger where
  /-- The number of loggers before it, which tells loggers apart. -/
  number : Nat
  level : Level
  /-- The directory of its file, if it has one. -/
  directory : Option String

namespace Logger

/-- The name of all loggers. -/
def name : String := "rule_engine"

/-- The full name of a component. -/
def component (part : String) : String := name ++ "." ++ part

/-- Whether records of a level are let through. -/
def lets (l : Logger) (level : Level) : Bool := l.level.effective ≤ level

/-- Whether the finest records are let through. -/
def isDebug (l : Logger) : Bool := l.lets 10

/-- The places that records go to. -/
def outlets (l : Logger) : Nat := if l.directory.isSome then 2 else 1

end Logger

/-- The name of a level that does not exist. -/
structure NoSuchLevel where
  name : String

/-- The logger in use, the number of loggers so far, and the lines of all files by their
directories. -/
structure LogBook where
  logger : Option Logger
  count : Nat
  files : List (String × List String)

/-- How a logger is to be set up; what is left out comes from the settings. -/
structure LoggerRequest where
  level : Option String
  toFile : Option Bool
  directory : Option String

namespace LogBook

/-- No logger and no file. -/
def empty : LogBook := ⟨none, 0, []⟩

/-- The lines of the file of a directory. -/
def lines (b : LogBook) (directory : String) : List String := (Entries.find? directory b.files).getD []

/-- Set up a new logger, which is the one in use from then on. -/
def setUp (s : Settings) (b : LogBook) (r : LoggerRequest) : Except NoSuchLevel (Logger × LogBook) :=
  let name := upperText (r.level.getD s.logLevel)
  match Level.ofName? name with
  | none => .error ⟨name⟩
  | some level =>
    let directory :=
      if r.toFile.getD s.logsToFile then some (FileName.plain (r.directory.getD s.logDirectory)) else none
    let logger : Logger := ⟨b.count, level, directory⟩
    let files := directory.elim b.files fun d => Entries.put d (b.lines d) b.files
    .ok (logger, ⟨some logger, b.count + 1, files⟩)

/-- The logger in use, or a new one where there is none. -/
def get (s : Settings) (b : LogBook) (r : LoggerRequest) : Except NoSuchLevel (Logger × LogBook) :=
  match b.logger with
  | some l => .ok (l, b)
  | none => b.setUp s r

/-- A record on a line of a file, without its time. -/
def line (component : String) (level : Level) (message : String) : String :=
  level.name ++ " | " ++ Logger.component component ++ " | " ++ message

/-- Write a record of a component; a message of several lines takes several lines. -/
def write (b : LogBook) (component : String) (level : Level) (message : String) : LogBook :=
  match b.logger with
  | none => b
  | some l =>
    match l.directory with
    | none => b
    | some directory =>
      if l.lets level then
        let added := (line component level message).splitOn "\n"
        { b with files := Entries.put directory (b.lines directory ++ added) b.files }
      else b

end LogBook

end Verdict
