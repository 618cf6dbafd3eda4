import Verdict.Operator.Basic
import Verdict.Operator.Collection
import Verdict.Operator.Sort
import Verdict.Operator.Time
import Verdict.Operator.Wording

/-!
# Operator/BuiltIn — the operators that every rule can use

`builtIns` lists them by category.  `inversePairs` lists the pairs of which one holds exactly where
the other fails; `listOperators`, `patternOperators` and `plainOperators` are the operators that ask
for a list, ask for a pattern, and are left out when a requirement is written.
-/

namespace Verdict.Operator

open Value Test

/-- Operators that compare. -/
def comparisons : List Operator := [
  ⟨"equals", .comparison, [.any], ofRelation equal⟩,
  ⟨"not-equals", .comparison, [.any], (ofRelation equal).inverse⟩,
  ⟨"greater-than", .comparison, [.number, .string], ofRelation fun c v => less v c⟩,
  ⟨"greater-than-or-equals", .comparison, [.number, .string], ofRelation atLeast⟩,
  ⟨"less-than", .comparison, [.number, .string], ofRelation less⟩,
  ⟨"less-than-or-equals", .comparison, [.number, .string], ofRelation atMost⟩,
  ⟨"in", .comparison, [.any], ofRelation isAmong⟩,
  ⟨"not-in", .comparison, [.any], (ofRelation isAmong).inverse⟩,
  ⟨"between", .comparison, [.number], ofRelation isBetween⟩,
  ⟨"not-between", .comparison, [.number], (ofRelation isBetween).inverse⟩]

/-- Operators on lists, and on texts against lists. -/
def collections : List Operator := [
  ⟨"contains", .array, [.array], ofRelation holds⟩,
  ⟨"not-contains", .array, [.array], (ofRelation holds).inverse⟩,
  ⟨"contains-any", .array, [.array], ofRelation holdsAny⟩,
  ⟨"not-contains-any", .array, [.array], (ofRelation holdsAny).inverse⟩,
  ⟨"contains-all", .array, [.array], ofRelation holdsAll⟩,
  ⟨"not-contains-all", .array, [.array], (ofRelation holdsAll).inverse⟩,
  ⟨"self-contains-any", .array, [.string], mentionsAny⟩,
  ⟨"self-not-contains-any", .array, [.string], inverse mentionsAny⟩,
  ⟨"self-contains-all", .array, [.string], mentionsAll⟩,
  ⟨"self-not-contains-all", .array, [.string], inverse mentionsAll⟩,
  ⟨"self-contains-none", .array, [.string], inverse mentionsAny⟩,
  ⟨"array-length", .array, [.array], ofRelation fun c => countIs equal c.size?⟩,
  ⟨"array-min-length", .array, [.array], ofRelation fun c => countIs atLeast c.size?⟩,
  ⟨"array-max-length", .array, [.array], ofRelation fun c => countIs atMost c.size?⟩]

/-- Operators on texts. -/
def wordings : List Operator := [
  ⟨"like", .string, [.string], ofRelation (texts Like.isLike)⟩,
  ⟨"not-like", .string, [.string], (ofRelation (texts Like.isLike)).inverse⟩,
  ⟨"starts-with", .string, [.string], ofRelation (texts startsWith)⟩,
  ⟨"ends-with", .string, [.string], ofRelation (texts endsWith)⟩,
  ⟨"contains-string", .string, [.string], ofRelation (texts fun s part => isPartOf part s)⟩,
  ⟨"string-length", .string, [.string], ofRelation fun c => countIs equal c.length?⟩,
  ⟨"not-string-length", .string, [.string], (ofRelation fun c => countIs equal c.length?).inverse⟩,
  ⟨"min-length", .string, [.string], ofRelation fun c => countIs atLeast c.length?⟩,
  ⟨"max-length", .string, [.string], ofRelation fun c => countIs atMost c.length?⟩,
  ⟨"length-between", .string, [.string], ofRelation lengthBetween⟩,
  ⟨"not-length-between", .string, [.string], (ofRelation lengthBetween).inverse⟩]

/-- Operators for patterns and known formats. -/
def formats : List Operator := [
  ⟨"matches", .pattern, [.string], matchesPattern⟩,
  ⟨"not-matches", .pattern, [.string], inverse matchesPattern⟩,
  ⟨"email", .pattern, [.string], ofProperty (text Pattern.email.fits)⟩,
  ⟨"not-email", .pattern, [.string], (ofProperty (text Pattern.email.fits)).inverse⟩,
  ⟨"url", .pattern, [.string], ofProperty (text Url.isAbsolute)⟩,
  ⟨"not-url", .pattern, [.string], (ofProperty (text Url.isAbsolute)).inverse⟩,
  ⟨"uuid", .pattern, [.string], ofProperty (text Pattern.uuid.fits)⟩,
  ⟨"not-uuid", .pattern, [.string], (ofProperty (text Pattern.uuid.fits)).inverse⟩,
  ⟨"alpha", .pattern, [.string], ofProperty (text Pattern.letters.fits)⟩,
  ⟨"not-alpha", .pattern, [.string], (ofProperty (text Pattern.letters.fits)).inverse⟩,
  ⟨"alpha-numeric", .pattern, [.string], ofProperty (text Pattern.lettersAndDigits.fits)⟩,
  ⟨"not-alpha-numeric", .pattern, [.string],
    (ofProperty (text Pattern.lettersAndDigits.fits)).inverse⟩,
  ⟨"lower-case", .pattern, [.string], ofProperty (text isLowerCase)⟩,
  ⟨"not-lower-case", .pattern, [.string], (ofProperty (text isLowerCase)).inverse⟩,
  ⟨"upper-case", .pattern, [.string], ofProperty (text isUpperCase)⟩,
  ⟨"not-upper-case", .pattern, [.string], (ofProperty (text isUpperCase)).inverse⟩,
  ⟨"persian-alpha", .pattern, [.string], ofProperty (text Pattern.persian.fits)⟩,
  ⟨"not-persian-alpha", .pattern, [.string], (ofProperty (text Pattern.persian.fits)).inverse⟩,
  ⟨"persian-alpha-numeric", .pattern, [.string], ofProperty (text Pattern.persianAndDigits.fits)⟩,
  ⟨"not-persian-alpha-numeric", .pattern, [.string],
    (ofProperty (text Pattern.persianAndDigits.fits)).inverse⟩]

/-- A number of a given sign. -/
def hasSign (sign : Int) : Test := ofProperty fun c => c.sign? == some sign

/-- Operators on numbers. -/
def numerics : List Operator := [
  ⟨"numeric", .numeric, [.number, .string], ofProperty isNumeric⟩,
  ⟨"not-numeric", .numeric, [.any], (ofProperty isNumeric).inverse⟩,
  ⟨"number", .numeric, [.any], ofProperty isNumber⟩,
  ⟨"not-number", .numeric, [.any], (ofProperty isNumber).inverse⟩,
  ⟨"integer", .numeric, [.number], ofProperty isInteger⟩,
  ⟨"not-integer", .numeric, [.number], (ofProperty isInteger).inverse⟩,
  ⟨"float", .numeric, [.number], ofProperty fun c => c.isNumber && !c.isInteger⟩,
  ⟨"not-float", .numeric, [.number], (ofProperty fun c => c.isNumber && !c.isInteger).inverse⟩,
  ⟨"positive", .numeric, [.number], hasSign 1⟩,
  ⟨"not-positive", .numeric, [.number], (hasSign 1).inverse⟩,
  ⟨"negative", .numeric, [.number], hasSign (-1)⟩,
  ⟨"not-negative", .numeric, [.number], (hasSign (-1)).inverse⟩,
  ⟨"zero", .numeric, [.number], hasSign 0⟩,
  ⟨"not-zero", .numeric, [.number], (hasSign 0).inverse⟩,
  ⟨"min", .numeric, [.number], ofRelation fun c v => numberAtMost v c⟩,
  ⟨"max", .numeric, [.number], ofRelation numberAtMost⟩,
  ⟨"number-between", .numeric, [.number], ofRelation isBetween⟩,
  ⟨"not-number-between", .numeric, [.number], (ofRelation isBetween).inverse⟩]

/-- Operators that ask for the kind of a value. -/
def kinds : List Operator := [
  ⟨"string", .type, [.any], ofProperty isText⟩,
  ⟨"not-string", .type, [.any], (ofProperty isText).inverse⟩,
  ⟨"object", .type, [.any], ofProperty isObject⟩,
  ⟨"not-object", .type, [.any], (ofProperty isObject).inverse⟩,
  ⟨"array", .type, [.any], ofProperty isList⟩,
  ⟨"not-array", .type, [.any], (ofProperty isList).inverse⟩]

/-- Operators for truth values and what stands for them. -/
def booleans : List Operator := [
  ⟨"boolean", .boolean, [.any], ofProperty isBoolean⟩,
  ⟨"not-boolean", .boolean, [.any], (ofProperty isBoolean).inverse⟩,
  ⟨"boolean-string", .boolean, [.string], ofProperty (isOneOf ["true", "false"])⟩,
  ⟨"not-boolean-string", .boolean, [.string], (ofProperty (isOneOf ["true", "false"])).inverse⟩,
  ⟨"boolean-number", .boolean, [.number], ofProperty isZeroOrOne⟩,
  ⟨"not-boolean-number", .boolean, [.number], (ofProperty isZeroOrOne).inverse⟩,
  ⟨"boolean-number-string", .boolean, [.string], ofProperty (isOneOf ["0", "1"])⟩,
  ⟨"not-boolean-number-string", .boolean, [.string], (ofProperty (isOneOf ["0", "1"])).inverse⟩,
  ⟨"truthy", .boolean, [.any], ofProperty countsAsTrue⟩,
  ⟨"not-truthy", .boolean, [.any], (ofProperty countsAsTrue).inverse⟩,
  ⟨"falsy", .boolean, [.any], (ofProperty countsAsTrue).inverse⟩,
  ⟨"not-falsy", .boolean, [.any], (ofProperty countsAsTrue).inverse.inverse⟩]

/-- Operators that ask whether a field is there. -/
def presences : List Operator := [
  ⟨"exists", .existence, [.any], ofProperty fun c => !c.isMissing⟩,
  ⟨"not-exists", .existence, [.any], (ofProperty fun c => !c.isMissing).inverse⟩,
  ⟨"null-or-undefined", .existence, [.any], ofProperty isAbsent⟩,
  ⟨"not-null-or-undefined", .existence, [.any], (ofProperty isAbsent).inverse⟩,
  ⟨"empty", .existence, [.string, .array, .object], ofProperty Value.isEmpty⟩,
  ⟨"not-empty", .existence, [.string, .array, .object], (ofProperty Value.isEmpty).inverse⟩,
  ⟨"null-or-white-space", .existence, [.string], ofProperty isBlankOrAbsent⟩,
  ⟨"not-null-or-white-space", .existence, [.string], (ofProperty isBlankOrAbsent).inverse⟩]

/-- The types of fields that hold moments. -/
def momentTypes : List FieldType := [.date, .string, .number]

/-- Operators on moments and times of the day, of which `now` is the present moment. -/
def times (now : DateTime) : List Operator := [
  ⟨"date", .dateTime, [.any], ofProperty fun c => c.moment?.isSome⟩,
  ⟨"not-date", .dateTime, [.any], (ofProperty fun c => c.moment?.isSome).inverse⟩,
  ⟨"date-after", .dateTime, momentTypes, ofRelation (moments isAfter)⟩,
  ⟨"date-after-or-equals", .dateTime, momentTypes, ofRelation (moments isNotBefore)⟩,
  ⟨"date-before", .dateTime, momentTypes, ofRelation (moments isBefore)⟩,
  ⟨"date-before-or-equals", .dateTime, momentTypes, ofRelation (moments isNotAfter)⟩,
  ⟨"date-equals", .dateTime, momentTypes, ofRelation (moments isAt)⟩,
  ⟨"date-not-equals", .dateTime, momentTypes, (ofRelation (moments isAt)).inverse⟩,
  ⟨"date-between", .dateTime, momentTypes, ofRelation (isWithin instant?)⟩,
  ⟨"date-not-between", .dateTime, momentTypes, (ofRelation (isWithin instant?)).inverse⟩,
  ⟨"date-after-now", .dateTime, momentTypes, ofProperty (withNow now isAfter)⟩,
  ⟨"date-after-now-or-equals", .dateTime, momentTypes, ofProperty (withNow now isNotBefore)⟩,
  ⟨"date-before-now", .dateTime, momentTypes, ofProperty (withNow now isBefore)⟩,
  ⟨"date-before-now-or-equals", .dateTime, momentTypes, ofProperty (withNow now isNotAfter)⟩,
  ⟨"date-equals-to-now", .dateTime, momentTypes, fun c _ => isToday now c⟩,
  ⟨"date-not-equals-to-now", .dateTime, momentTypes, inverse fun c _ => isToday now c⟩,
  ⟨"time-after", .dateTime, [.time], ofRelation (clockTimes isAfter)⟩,
  ⟨"time-after-or-equals", .dateTime, [.time], ofRelation (clockTimes isNotBefore)⟩,
  ⟨"time-before", .dateTime, [.time], ofRelation (clockTimes isBefore)⟩,
  ⟨"time-before-or-equals", .dateTime, [.time], ofRelation (clockTimes isNotAfter)⟩,
  ⟨"time-equals", .dateTime, [.time], ofRelation (clockTimes isAt)⟩,
  ⟨"time-not-equals", .dateTime, [.time], (ofRelation (clockTimes isAt)).inverse⟩,
  ⟨"time-between", .dateTime, [.time], ofRelation (isWithin dayMillis?)⟩,
  ⟨"time-not-between", .dateTime, [.time], (ofRelation (isWithin dayMillis?)).inverse⟩]

/-- The built-in operators, category by category. -/
def builtIns (now : DateTime) : List Operator :=
  comparisons ++ collections ++ wordings ++ formats ++ numerics ++ kinds ++ booleans ++ presences ++
  times now

/-- The names of the built-in operators, which do not depend on the moment. -/
def builtInNames : List String := (builtIns default).map Operator.name

/-- Pairs of operators of which one holds where the other fails. -/
def inversePairs : List (String × String) := [
  ("equals", "not-equals"), ("like", "not-like"), ("greater-than", "less-than-or-equals"),
  ("less-than", "greater-than-or-equals"), ("in", "not-in"), ("between", "not-between"),
  ("contains", "not-contains"), ("contains-any", "not-contains-any"),
  ("contains-all", "not-contains-all"), ("self-contains-any", "self-not-contains-any"),
  ("self-contains-all", "self-not-contains-all"), ("string-length", "not-string-length"),
  ("length-between", "not-length-between"), ("matches", "not-matches"), ("email", "not-email"),
  ("url", "not-url"), ("uuid", "not-uuid"), ("alpha", "not-alpha"),
  ("alpha-numeric", "not-alpha-numeric"), ("lower-case", "not-lower-case"),
  ("upper-case", "not-upper-case"), ("persian-alpha", "not-persian-alpha"),
  ("persian-alpha-numeric", "not-persian-alpha-numeric"), ("numeric", "not-numeric"),
  ("number", "not-number"), ("integer", "not-integer"), ("float", "not-float"),
  ("positive", "not-positive"), ("negative", "not-negative"), ("zero", "not-zero"),
  ("number-between", "not-number-between"), ("string", "not-string"), ("object", "not-object"),
  ("array", "not-array"), ("boolean", "not-boolean"), ("boolean-string", "not-boolean-string"),
  ("boolean-number", "not-boolean-number"),
  ("boolean-number-string", "not-boolean-number-string"), ("truthy", "not-truthy"),
  ("falsy", "not-falsy"), ("exists", "not-exists"), ("null-or-undefined", "not-null-or-undefined"),
  ("empty", "not-empty"), ("null-or-white-space", "not-null-or-white-space"), ("date", "not-date"),
  ("date-after", "date-before-or-equals"), ("date-before", "date-after-or-equals"),
  ("date-equals", "date-not-equals"), ("date-between", "date-not-between"),
  ("date-equals-to-now", "date-not-equals-to-now"), ("date-after-now", "date-before-now-or-equals"),
  ("date-before-now", "date-after-now-or-equals"), ("time-after", "time-before-or-equals"),
  ("time-before", "time-after-or-equals"), ("time-equals", "time-not-equals"),
  ("time-between", "time-not-between")]

/-- Operators whose constraints hold a list. -/
def listOperators : List String := [
  "in", "not-in", "between", "not-between", "contains-any", "not-contains-any", "contains-all",
  "not-contains-all", "self-contains-any", "self-not-contains-any", "self-contains-all",
  "self-not-contains-all", "self-contains-none", "length-between", "not-length-between",
  "number-between", "not-number-between", "date-between", "date-not-between", "time-between",
  "time-not-between"]

/-- Operators whose constraints hold a pattern. -/
def patternOperators : List String := ["matches", "not-matches"]

/-- Operators that a requirement leaves out, giving the value alone. -/
def plainOperators : List String := ["equals", "in"]

end Verdict.Operator
