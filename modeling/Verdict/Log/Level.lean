import Verdict.Entries

/-!
# Log/Level — how grave a record is

A level is a number, and some numbers have names.  On a terminal each named level has a colour.
-/

namespace Verdict

/-- The level of a record. -/
abbrev Level := Int

namespace Level

/-- The levels with names. -/
def named : List (String × Level) := [
  ("CRITICAL", 50), ("ERROR", 40), ("WARNING", 30), ("INFO", 20), ("DEBUG", 10), ("NOTSET", 0)]

/-- Further names. -/
def aliases : List (String × Level) := [("FATAL", 50), ("WARN", 30)]

/-- The level of a name. -/
def ofName? (name : String) : Option Level := Entries.find? name (named ++ aliases)

/-- The name of a level. -/
def name (l : Level) : String :=
  match named.find? fun e => e.2 = l with
  | some (name, _) => name
  | none => "Level " ++ toString l

/-- A control sequence for terminals. -/
def control (code : String) : String := "\x1b[" ++ code ++ "m"

/-- The colour of a level. -/
def colour (l : Level) : String :=
  if l = 10 then control "96"
  else if l = 20 then control "92"
  else if l = 30 then control "93"
  else if l = 40 then control "91"
  else if l = 50 then control "1" ++ control "91"
  else control "97"

/-- A text in the colour of a level. -/
def paint (l : Level) (text : String) : String := l.colour ++ text ++ control "0"

/-- The level that counts where none is set. -/
def ofRoot : Level := 30

/-- The lowest level of the records that are let through. -/
def effective (l : Level) : Level := if l = 0 then ofRoot else l

theorem ofName?_name_of_mem {l : Level} (h : l ∈ named.map Prod.snd) : ofName? l.name = some l := by
  simp only [named, List.map_cons, List.map_nil, List.mem_cons, List.not_mem_nil, or_false] at h
  rcases h with rfl | rfl | rfl | rfl | rfl | rfl <;> decide

end Level

end Verdict
