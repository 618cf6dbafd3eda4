/-!
# Pattern/Syntax — regular expressions as trees

Modes are resolved when a pattern is read: every leaf carries the ones that hold where it stands.
Characters are code points, since a pattern may name code points that no text holds.
-/

namespace Verdict.Pattern

/-- How the characters around a leaf are understood. -/
structure Mode where
  /-- Letters match regardless of case. -/
  ignoreCase : Bool := false
  /-- The anchors of a text also hold at the ends of its lines. -/
  multiline : Bool := false
  /-- The dot also matches a line end. -/
  dotAll : Bool := false
  /-- White space and comments in the pattern are skipped. -/
  verbose : Bool := false
  /-- Classes and case know ASCII only. -/
  ascii : Bool := false
  deriving DecidableEq, Repr

/-- The classes of characters. -/
inductive Category where
  | digit | space | word
  deriving DecidableEq, Repr

/-- A member of a set of characters. -/
inductive SetItem where
  | single (code : Nat)
  | range (low high : Nat)
  | category (c : Category) (negated : Bool)
  deriving DecidableEq, Repr

/-- Places that match without taking a character. -/
inductive Anchor where
  /-- The start of the text, or of a line. -/
  | start
  /-- The end of the text, also before a last line end, or the end of a line. -/
  | finish
  | textStart
  | textEnd
  /-- Between a word character and another or an end of the text. -/
  | boundary
  | notBoundary
  deriving DecidableEq, Repr

/-- Which number of rounds a repetition tries first, and whether it goes back on it. -/
inductive Greed where
  | greedy | lazy | possessive
  deriving DecidableEq, Repr

/-- A regular expression. -/
inductive Node where
  | char (mode : Mode) (code : Nat)
  | any (mode : Mode)
  | set (mode : Mode) (negated : Bool) (items : List SetItem)
  | anchor (mode : Mode) (a : Anchor)
  | seq (nodes : List Node)
  | alt (branches : List Node)
  /-- Parentheses that capture nothing. -/
  | group (body : Node)
  | capture (index : Nat) (body : Node)
  /-- Between `least` and `most` rounds, without an upper bound when `most` is missing. -/
  | times (least : Nat) (most : Option Nat) (greed : Greed) (body : Node)
  | reference (mode : Mode) (index : Nat)
  /-- What follows, or what precedes within a width, matches or, negated, does not. -/
  | look (behind : Option Nat) (negated : Bool) (body : Node)
  /-- The first way the body matches is the only one. -/
  | atomic (body : Node)
  | conditional (index : Nat) (yes no : Node)
  deriving Repr, Inhabited

/-- The fewest and the most characters an expression takes; without an upper bound when `most` is
missing. -/
structure Width where
  least : Nat
  most : Option Nat
  deriving DecidableEq, Repr

namespace Width

/-- The width of nothing. -/
def zero : Width := ⟨0, some 0⟩

/-- The width of one character. -/
def one : Width := ⟨1, some 1⟩

/-- The width of one expression after another. -/
def add (a b : Width) : Width :=
  ⟨a.least + b.least, a.most.bind fun m => b.most.map fun n => m + n⟩

/-- The width of either of two expressions. -/
def union (a b : Width) : Width :=
  ⟨min a.least b.least, a.most.bind fun m => b.most.map fun n => max m n⟩

/-- The width of a repetition. -/
def times (a : Width) (least : Nat) (most : Option Nat) : Width :=
  ⟨a.least * least,
    if a.most = some 0 then some 0 else a.most.bind fun m => most.map fun n => m * n⟩

end Width

end Verdict.Pattern
