import Verdict.Text.DecimalDigit
import Verdict.Text.Part

/-!
# CommandLine/Arguments — what the command line asks for

A switch may be shortened as long as only one switch begins like it, and a long one may carry its
value after an equals sign.  A negative number, and whatever holds a blank, is no switch.  After `--`
nothing is.

Help is given as soon as it is asked for, if nothing before is wrong; arguments that are left over
are an error in the end.
-/

namespace Verdict.CommandLine

/-- Why the command line asks for nothing that can be done. -/
inductive Stop where
  | help
  | usage
  deriving DecidableEq, Repr

/-- A switch, and whether it takes a value. -/
structure Switch where
  name : String
  takesValue : Bool

/-- The switches for help. -/
def helpNames : List String := ["-h", "--help"]

/-- What an argument is. -/
inductive Argument where
  | value (s : String)
  /-- A switch, with what is attached to it. -/
  | switch (s : Switch) (attached : Option String)
  | help
  /-- Help with something attached that it does not take. -/
  | misused
  /-- It looks like a switch, but is none. -/
  | unknown
  /-- All arguments after it are values. -/
  | separator

/-- Digits of any script. -/
def areDigits (cs : List Char) : Bool := cs.all fun c => (decimalDigit? c).isSome

/-- A minus sign, and digits with at most one point among them, the last being a digit. -/
def isNegativeNumber (s : String) : Bool :=
  match s.toList with
  | '-' :: cs =>
    let whole := cs.takeWhile (· ≠ '.')
    match cs.drop whole.length with
    | [] => !whole.isEmpty && areDigits whole
    | _ :: places => areDigits whole && !places.isEmpty && areDigits places
  | _ => false

/-- What stands before the first equals sign, and after it. -/
def splitAttached (s : String) : String × Option String :=
  let cs := s.toList
  let before := cs.takeWhile (· ≠ '=')
  (String.ofList before,
    if before.length < cs.length then some (String.ofList (cs.drop (before.length + 1))) else none)

/-- A switch or help by its full name.  Nothing can be attached to help. -/
def named? (switches : List Switch) (name : String) (attached : Option String) : Option Argument :=
  if helpNames.contains name then some (if attached.isSome then .misused else .help)
  else (switches.find? fun s => s.name = name).map fun s => .switch s attached

/-- The short name of help with more letters behind it, which count for nothing. -/
def shortHelp (letters : List Char) : Argument :=
  match letters.dropWhile (· = 'h') with
  | '-' :: _ | '=' :: _ => .misused
  | _ => .help

/-- The names that a shortened name may stand for. -/
def candidates (switches : List Switch) (name : String) : List String :=
  (helpNames ++ switches.map Switch.name).filter fun full => startsWith full name

/-- An argument that is no switch by its full name: a shortened one, a value, or neither. -/
def classifyOther (switches : List Switch) (s : String) : Except Stop Argument :=
  let otherwise : Argument := if isNegativeNumber s || s.contains ' ' then .value s else .unknown
  if startsWith s "--" then
    let (name, attached) := splitAttached s
    match candidates switches name with
    | [] => .ok otherwise
    | [full] => .ok ((named? switches full attached).getD otherwise)
    | _ => .error .usage
  else if startsWith s "-h" then .ok (shortHelp (s.toList.drop 2))
  else .ok otherwise

/-- What an argument is that does not come after a separator. -/
def classify (switches : List Switch) (s : String) : Except Stop Argument :=
  if s = "--" then .ok .separator
  else if !startsWith s "-" || s = "-" then .ok (.value s)
  else
    match named? switches s none with
    | some a => .ok a
    | none =>
      let (name, attached) := splitAttached s
      match attached.bind fun _ => named? switches name attached with
      | some a => .ok a
      | none => classifyOther switches s

/-- What all arguments are. -/
def classifyAll (switches : List Switch) : List String → Except Stop (List Argument)
  | [] => .ok []
  | s :: rest => do
    match ← classify switches s with
    | .separator => .ok (.separator :: rest.map .value)
    | a => do
      let others ← classifyAll switches rest
      .ok (a :: others)

/-- Arguments that have been taken. -/
structure Taken where
  /-- The values, in order. -/
  values : List String
  /-- The switches and their values, the last first. -/
  switches : List (String × Option String)
  /-- Whether something was left over. -/
  leftOver : Bool

namespace Taken

/-- Nothing. -/
def nothing : Taken := ⟨[], [], false⟩

/-- Whether a switch is on. -/
def has (t : Taken) (name : String) : Bool := t.switches.any fun s => s.1 = name

/-- The value of a switch. -/
def valueOf (t : Taken) (name : String) : Option String := (t.switches.find? fun s => s.1 = name).bind Prod.snd

/-- With another value, if there is room for one. -/
def addValue (t : Taken) (room : Nat) (s : String) : Taken :=
  if t.values.length < room then { t with values := t.values ++ [s] } else { t with leftOver := true }

/-- With a switch. -/
def addSwitch (t : Taken) (name : String) (v : Option String) : Taken :=
  { t with switches := (name, v) :: t.switches }

end Taken

/-- Take arguments, of which at most `room` are values.  A separator belongs to a value beside it. -/
def take (room : Nat) (afterValue : Bool) (t : Taken) : List Argument → Except Stop Taken
  | [] => .ok t
  | .value s :: rest => take room (t.values.length < room) (t.addValue room s) rest
  | .switch ⟨name, true⟩ (some v) :: rest => take room false (t.addSwitch name (some v)) rest
  | .switch ⟨name, true⟩ none :: .value v :: rest => take room false (t.addSwitch name (some v)) rest
  | .switch ⟨name, false⟩ none :: rest => take room false (t.addSwitch name none) rest
  | .switch .. :: _ => .error .usage
  | .help :: _ => .error .help
  | .misused :: _ => .error .usage
  | .unknown :: rest => take room false { t with leftOver := true } rest
  | .separator :: rest =>
    let stray := !(afterValue || (!rest.isEmpty && t.values.length < room))
    take room false { t with leftOver := t.leftOver || stray } rest

/-- What can be done. -/
inductive Command where
  | evaluate (rule criteria : String) (trust : Bool)
  | introspect (rule : String) (metadata complexity : Bool)
  | validate (rule : String)
  | operators (category : Option String)
  deriving DecidableEq, Repr

/-- What the command line asks for. -/
structure Invocation where
  /-- The level of the log. -/
  logLevel : Option String
  /-- Nothing when no command is given. -/
  command : Option Command
  /-- Whether the answer is to be JSON. -/
  json : Bool
  deriving DecidableEq, Repr

/-- The switches that are no switches of a command. -/
def generalSwitches : List Switch := [⟨"--log-level", true⟩]

/-- The levels that may be asked for. -/
def logLevels : List String := ["DEBUG", "INFO", "WARNING", "ERROR"]

/-- The switches of a command, and the number of its values. -/
def shapeOf : String → Option (List Switch × Nat)
  | "evaluate" => some ([⟨"--trust", false⟩, ⟨"--json", false⟩], 2)
  | "introspect" => some ([⟨"--metadata", false⟩, ⟨"--complexity", false⟩, ⟨"--json", false⟩], 1)
  | "validate" => some ([⟨"--json", false⟩], 1)
  | "operators" => some ([⟨"--category", true⟩, ⟨"--json", false⟩], 0)
  | _ => none

/-- The command of a name and the arguments taken for it. -/
def commandOf (name : String) (t : Taken) : Option Command :=
  match name, t.values with
  | "evaluate", [rule, criteria] => some (.evaluate rule criteria (t.has "--trust"))
  | "introspect", [rule] => some (.introspect rule (t.has "--metadata") (t.has "--complexity"))
  | "validate", [rule] => some (.validate rule)
  | "operators", [] => some (.operators (t.valueOf "--category"))
  | _, _ => none

/-- Read a command with its arguments. -/
def readCommand (logLevel : Option String) (leftOver : Bool) (name : String) (args : List String) :
    Except Stop Invocation :=
  match shapeOf name with
  | none => .error .usage
  | some (switches, room) => do
    let t ← take room false .nothing (← classifyAll switches args)
    match commandOf name t with
    | some c => if leftOver || t.leftOver then .error .usage else .ok ⟨logLevel, some c, t.has "--json"⟩
    | none => .error .usage

/-- Read the level of the log. -/
def readLevel (level : String) : Except Stop String :=
  if logLevels.contains level then .ok level else .error .usage

/-- Read the arguments before the command, and the command. -/
def readGeneral (logLevel : Option String) (leftOver : Bool) : List String → Except Stop Invocation
  | [] => if leftOver then .error .usage else .ok ⟨logLevel, none, false⟩
  | s :: rest => do
    match ← classify generalSwitches s, rest with
    | .value name, args => readCommand logLevel leftOver name args
    | .switch _ (some level), rest => do
      let level ← readLevel level
      readGeneral (some level) leftOver rest
    | .switch _ none, next :: rest => do
      match ← classify generalSwitches next with
      | .value level => do
        let level ← readLevel level
        readGeneral (some level) leftOver rest
      | _ => .error .usage
    | .switch _ none, [] => .error .usage
    | .help, _ => .error .help
    | .misused, _ => .error .usage
    | .unknown, rest => readGeneral logLevel true rest
    | .separator, _ => .error .usage

/-- Read a command line. -/
def read (args : List String) : Except Stop Invocation := do
  let _ ← classifyAll generalSwitches args
  readGeneral none false args

end Verdict.CommandLine
