import Verdict.CommandLine.Arguments
import Verdict.Engine.Engine
import Verdict.Log.Book

/-!
# CommandLine/Run — doing what the command line asks for

The answer goes out as one JSON document or as lines for a reader.  The exit code is zero when a rule
passes or is valid, two when the command line is misused, and one otherwise; a failure of the input
is reported and counts as the latter.
-/

namespace Verdict.CommandLine

/-- What is printed. -/
inductive Printed where
  | json (v : Value)
  | lines (ls : List String)

/-- What the program ends with. -/
structure Outcome where
  exit : Nat
  printed : Printed

namespace Outcome

/-- The JSON document that is printed, if any. -/
def json? (o : Outcome) : Option Value :=
  match o.printed with
  | .json v => some v
  | .lines _ => none

end Outcome

/-- The files that arguments may name, and their texts. -/
abbrev Files := List (String × String)

/-- The source that an argument names: a file if there is one, else its own text. -/
def sourceOf (files : Files) (arg : String) : Source :=
  match Entries.find? arg files with
  | some content => .named arg content
  | none => .text arg

/-- Print a document. -/
def printJson (exit : Nat) (v : Value) : Except Failure Outcome :=
  Failure.ofFault (v.asWritten.map fun v => ⟨exit, .json v⟩)

/-- The message of a judgement for a reader.  Only a text can be shown. -/
def shownMessage (message : Value) : Except Fault String :=
  match message with
  | .str s => .ok s
  | v => if v.isTruthy then .error .wrongKind else .ok ""

/-- A judgement for a reader. -/
def judgementLine (r : Report) : Except Fault String := do
  let value ← r.judgement.value.write
  let message ← shownMessage r.judgement.message
  .ok ((if r.judgement.passed then "passed  " else "failed  ") ++ value ++
    (if message = "" then "" else "  " ++ message))

/-- Evaluate a rule. -/
def evaluate (e : Engine) (json : Bool) (rule criteria : Source) (trust : Bool) : Except Failure Outcome := do
  let rule ← rule.readRule
  let criteria ← criteria.read
  let (result, _, _) :=
    e.evaluate (if trust then some true else none) (.ready (.document rule)) criteria
  let result ← result
  let exit := if result.passed then 0 else 1
  if json then printJson exit result.toValue
  else
    let lines ← Failure.ofFault (result.reports.mapM judgementLine)
    .ok ⟨exit, .lines lines⟩

/-- The ways to a result for a reader. -/
def rangeLines (c : CriteriaRange) : Except Fault (List String) := do
  let result ← c.outcome.value.write
  let ways ← c.alternatives.mapM fun a => do
    let v ← a.toValue
    v.write
  .ok (("result " ++ result) :: ways.map fun way => "  " ++ way)

/-- Introspect a rule. -/
def introspect (e : Engine) (json : Bool) (rule : Source) (metadata complexity : Bool) :
    Except Failure Outcome := do
  let i ← e.introspect (.loadable rule)
  let v ← Failure.ofFault (i.toValue metadata complexity)
  if json then printJson 0 v
  else
    let ranges ← Failure.ofFault (i.ranges.mapM rangeLines)
    let rest ← Failure.ofFault
      ((["default", "metadata", "complexity", "warnings"].filterMap fun key =>
        (v.get? key).map fun part => (key, part)).mapM fun (key, part) =>
          part.write.map fun text => key ++ " " ++ text)
    .ok ⟨0, .lines (ranges.flatten ++ rest)⟩

/-- Validate a rule. -/
def validate (e : Engine) (json : Bool) (rule : Source) : Except Failure Outcome := do
  let problem ← e.validate (.loadable rule)
  let exit := if problem.isNone then 0 else 1
  if json then printJson exit (Validation.toValue problem)
  else
    match problem with
    | none => .ok ⟨exit, .lines ["The rule is valid."]⟩
    | some p => do
      let element ← Failure.ofFault p.element.write
      .ok ⟨exit, .lines [p.message, element]⟩

/-- List operators; an empty category stands for all. -/
def operators (e : Engine) (json : Bool) (category : Option String) : Except Failure Outcome := do
  let all := e.operators (category.filter (· ≠ ""))
  if json then printJson 0 (.ofItems all)
  else
    let lines ← Failure.ofFault (all.mapM Value.write)
    .ok ⟨0, .lines lines⟩

/-- Carry out a command. -/
def carryOut (files : Files) (e : Engine) (json : Bool) : Command → Except Failure Outcome
  | .evaluate rule criteria trust => evaluate e json (sourceOf files rule) (sourceOf files criteria) trust
  | .introspect rule metadata complexity => introspect e json (sourceOf files rule) metadata complexity
  | .validate rule => validate e json (sourceOf files rule)
  | .operators category => operators e json category

/-- How the program is used. -/
def usage : List String := [
  "usage: verdict [--log-level LEVEL] COMMAND",
  "  evaluate RULE CRITERIA [--trust] [--json]",
  "  introspect RULE [--metadata] [--complexity] [--json]",
  "  validate RULE [--json]",
  "  operators [--category CATEGORY] [--json]"]

/-- Run the program.  A failure that does not lie in the input ends it. -/
def run (files : Files) (settings : Settings) (registry : Registry) (args : List String) :
    Except Failure Outcome :=
  match read args with
  | .error .help => .ok ⟨0, .lines usage⟩
  | .error .usage => .ok ⟨2, .lines usage⟩
  | .ok ⟨_, none, _⟩ => .ok ⟨1, .lines usage⟩
  | .ok ⟨_, some c, json⟩ =>
    let e : Engine := ⟨registry, settings.trustsRules, .empty settings.cachesResults⟩
    match carryOut files e json c with
    | .ok o => .ok o
    | .error f => if f.isOfInput then .ok ⟨1, .lines [f.message]⟩ else .error f

end Verdict.CommandLine
