import Verdict.Pattern.Fold
import Verdict.Pattern.Syntax
import Verdict.Text.Blank
import Verdict.Text.DecimalDigit
import Verdict.Text.Word

/-!
# Pattern/Match — searching a text

Matching backtracks: `run node text st next` tries the ways in which the node can match at `st`, in
order, and for each of them what comes `next`, until one succeeds.  Alternatives are tried from left
to right; a repetition stops once a round takes no character.
-/

namespace Verdict.Pattern

/-- A position in a text and what the groups captured before it. -/
structure State where
  pos : Nat
  /-- Start and end of what each group captured last, by index. -/
  captures : List (Nat × Nat × Nat)
  deriving Repr

/-- What comes after a match. -/
abbrev Next := State → Option State

/-- The code point at a position. -/
def codeAt (text : Array Char) (pos : Nat) : Option Nat := (text[pos]?).map Char.toNat

/-- A character of a class. -/
def Category.contains (ascii : Bool) (category : Category) (code : Nat) : Bool :=
  let c := Char.ofNat code
  if ascii && 128 ≤ code then false
  else
    match category with
    | .digit => isDecimalDigit c
    | .space => if ascii then 9 ≤ code && code ≤ 13 || code == 32 else isBlank c
    | .word => isWordChar c

/-- The code points that a member of a set is compared with: the code point itself, or all that are
alike. -/
def likes (mode : Mode) (code : Nat) : List Nat :=
  if !mode.ignoreCase then [code]
  else if mode.ascii then
    let small := foldAscii code
    if 97 ≤ small && small ≤ 122 then [small, small - 32] else [small]
  else (kin (foldCode code)).flatMap sharing

/-- A member of a set holds a code point; `alike` are the code points compared with. -/
def SetItem.contains (mode : Mode) (alike : List Nat) (code : Nat) : SetItem → Bool
  | .single c => alike.contains c
  | .range low high => alike.any fun c => low ≤ c && c ≤ high
  | .category c negated =>
    let code :=
      if !mode.ignoreCase then code else if mode.ascii then foldAscii code else foldCode code
    c.contains mode.ascii code != negated

/-- A set holds a code point. -/
def setContains (mode : Mode) (items : List SetItem) (code : Nat) : Bool :=
  let alike := likes mode code
  items.any fun item => item.contains mode alike code

/-- Two code points are the same, or alike where case is ignored. -/
def sameCode (mode : Mode) (a b : Nat) : Bool :=
  if !mode.ignoreCase then a == b
  else if mode.ascii then foldAscii a == foldAscii b
  else (kin (foldCode a)).contains (foldCode b)

/-- A word character before or after a position. -/
def isWordAt (mode : Mode) (text : Array Char) (pos : Nat) : Bool :=
  (codeAt text pos).any (Category.word.contains mode.ascii)

/-- Between a word character and another one or an end of the text.  An empty text has no
boundary. -/
def isBoundary (mode : Mode) (text : Array Char) (pos : Nat) : Bool :=
  (pos != 0 && isWordAt mode text (pos - 1)) != isWordAt mode text pos

/-- Whether an anchor holds at a position. -/
def Anchor.holds (mode : Mode) (text : Array Char) (pos : Nat) : Anchor → Bool
  | .textStart => pos == 0
  | .textEnd => pos == text.size
  | .start => pos == 0 || (mode.multiline && text[pos - 1]? == some '\n')
  | .finish =>
    pos == text.size || (text[pos]? == some '\n' && (mode.multiline || pos + 1 == text.size))
  | .boundary => text.size != 0 && isBoundary mode text pos
  | .notBoundary => text.size != 0 && !isBoundary mode text pos

/-- Take one character that passes a test. -/
def takeOne (text : Array Char) (test : Nat → Bool) (st : State) (next : Next) : Option State :=
  match codeAt text st.pos with
  | some code => if test code then next { st with pos := st.pos + 1 } else none
  | none => none

/-- What a group captured last. -/
def State.captured (st : State) (index : Nat) : Option (Nat × Nat) := st.captures.lookup index

/-- Note what a group captured. -/
def State.capture (st : State) (index start : Nat) : State :=
  { st with captures := (index, start, st.pos) :: st.captures.filter (·.1 != index) }

/-- Take the text that a group captured once more. -/
def takeAgain (mode : Mode) (text : Array Char) (start finish : Nat) (st : State) (next : Next) :
    Option State :=
  let size := finish - start
  if st.pos + size ≤ text.size &&
      (List.range size).all (fun i =>
        match codeAt text (start + i), codeAt text (st.pos + i) with
        | some a, some b => sameCode mode a b
        | _, _ => false)
  then next { st with pos := st.pos + size }
  else none

/-! ## Repetition

A repetition first takes the rounds it must (`least`), then as many as it may.  A further round is
tried only where the last one took a character; `fuel` bounds the rounds that do. -/

/-- The rounds that must be taken. -/
def least (round : State → Next → Option State) : Nat → State → Next → Option State
  | 0, st, next => next st
  | n + 1, st, next => round st fun st => least round n st next

/-- Whether another round may be tried: some are left and the last one got on. -/
def mayGoOn (left : Option Nat) (before : Option Nat) (st : State) : Bool :=
  left != some 0 && before != some st.pos

/-- Further rounds, the most first. -/
def moreGreedy (round : State → Next → Option State) :
    Nat → Option Nat → Option Nat → State → Next → Option State
  | 0, _, _, st, next => next st
  | fuel + 1, left, before, st, next =>
    if mayGoOn left before st then
      match round st fun st' => moreGreedy round fuel (left.map (· - 1)) (some st.pos) st' next with
      | some found => some found
      | none => next st
    else next st

/-- Further rounds, the fewest first. -/
def moreLazy (round : State → Next → Option State) :
    Nat → Option Nat → Option Nat → State → Next → Option State
  | 0, _, _, st, next => next st
  | fuel + 1, left, before, st, next =>
    match next st with
    | some found => some found
    | none =>
      if mayGoOn left before st then
        round st fun st' => moreLazy round fuel (left.map (· - 1)) (some st.pos) st' next
      else none

/-- Further rounds, each in the first way it matches, until one fails. -/
def morePossessive (round : State → Next → Option State) :
    Nat → Option Nat → Option Nat → State → State
  | 0, _, _, st => st
  | fuel + 1, left, before, st =>
    if mayGoOn left before st then
      match round st some with
      | some st' => morePossessive round fuel (left.map (· - 1)) (some st.pos) st'
      | none => st
    else st

/-- The rounds that must be taken, each in the first way it matches. -/
def leastPossessive (round : State → Next → Option State) : Nat → State → Option State
  | 0, st => some st
  | n + 1, st => (round st some).bind (leastPossessive round n)

/-- A repetition of a round. -/
def repeated (round : State → Next → Option State) (fewest : Nat) (most : Option Nat)
    (greed : Greed) (fuel : Nat) (st : State) (next : Next) : Option State :=
  let left := most.map (· - fewest)
  match greed with
  | .greedy => least round fewest st fun st => moreGreedy round fuel left none st next
  | .lazy => least round fewest st fun st => moreLazy round fuel left none st next
  | .possessive =>
    (leastPossessive round fewest st).bind fun st =>
      next (morePossessive round fuel left none st)

mutual

/-- Match a node at a state and go on. -/
def run (text : Array Char) : Node → State → Next → Option State
  | .char mode code, st, next => takeOne text (sameCode mode code) st next
  | .any mode, st, next => takeOne text (fun code => mode.dotAll || code != 10) st next
  | .set mode negated items, st, next =>
    takeOne text (fun code => setContains mode items code != negated) st next
  | .anchor mode a, st, next => if a.holds mode text st.pos then next st else none
  | .seq nodes, st, next => runAll text nodes st next
  | .alt branches, st, next => runAny text branches st next
  | .group body, st, next => run text body st next
  | .capture index body, st, next =>
    run text body st fun st' => next (st'.capture index st.pos)
  | .times fewest most greed body, st, next =>
    repeated (run text body) fewest most greed (text.size + 2) st next
  | .reference mode index, st, next =>
    match st.captured index with
    | some (start, finish) => takeAgain mode text start finish st next
    | none => none
  | .look behind negated body, st, next =>
    let width := behind.getD 0
    let found :=
      if st.pos < width then none else run text body { st with pos := st.pos - width } some
    match found, negated with
    | some st', false => next { st' with pos := st.pos }
    | none, true => next st
    | _, _ => none
  | .atomic body, st, next => (run text body st some).bind next
  | .conditional index yes no, st, next =>
    if (st.captured index).isSome then run text yes st next else run text no st next

/-- Match nodes one after another. -/
def runAll (text : Array Char) : List Node → State → Next → Option State
  | [], st, next => next st
  | node :: rest, st, next => run text node st fun st => runAll text rest st next

/-- Match the first of the nodes that leads to success. -/
def runAny (text : Array Char) : List Node → State → Next → Option State
  | [], _, _ => none
  | node :: rest, st, next =>
    match run text node st next with
    | some found => some found
    | none => runAny text rest st next

end

/-- Whether a pattern matches somewhere in a text. -/
def isFound (node : Node) (s : String) : Bool :=
  let text := s.toList.toArray
  (List.range (text.size + 1)).any fun pos => (run text node ⟨pos, []⟩ some).isSome

/-- Whether a pattern matches a text as a whole. -/
def isWhole (node : Node) (s : String) : Bool :=
  let text := s.toList.toArray
  (run text node ⟨0, []⟩ fun st => if st.pos = text.size then some st else none).isSome

end Verdict.Pattern
