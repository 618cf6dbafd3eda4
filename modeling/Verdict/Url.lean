import Verdict.Text.Blank

/-!
# Url — scheme, host and path

A text is split at the scheme's colon, the two slashes before a host and the marks of parameters,
query and fragment.  A host between brackets must be an address of version 6 or a future one, and a
host may hold no character that decomposes to a mark.
-/

namespace Verdict.Url

/-- What absolute addresses are judged by. -/
structure Parts where
  scheme : List Char
  host : List Char
  path : List Char
  deriving Repr

/-- A character of a scheme. -/
def isSchemeChar (c : Char) : Bool := c.isAlphanum || c = '+' || c = '-' || c = '.'

/-- Schemes whose paths end at a semicolon. -/
def schemesWithParameters : List String :=
  ["", "ftp", "hdl", "prospero", "http", "imap", "https", "shttp", "rtsp", "rtsps", "rtspu", "sip",
    "sips", "mms", "sftp", "tel"]

/-- Characters that stand for one of the marks of an address once decomposed. -/
def decomposesToMark (c : Char) : Bool :=
  [0x2047, 0x2048, 0x2049, 0x2100, 0x2101, 0x2105, 0x2106, 0x2a74, 0xfe13, 0xfe16, 0xfe55, 0xfe56,
    0xfe5f, 0xfe6b, 0xff03, 0xff0f, 0xff1a, 0xff1f, 0xff20].contains c.toNat

/-- Split at every occurrence of a character. -/
def splitAtChar (mark : Char) (cs : List Char) : List (List Char) :=
  cs.foldr (fun c parts =>
    if c = mark then [] :: parts
    else
      match parts with
      | [] => [[c]]
      | part :: rest => (c :: part) :: rest) [[]]

/-- A number below 256 without leading zeros. -/
def isOctet (cs : List Char) : Bool :=
  !cs.isEmpty && cs.all Char.isDigit && cs.length ≤ 3 &&
  (cs.length = 1 || cs.head? ≠ some '0') &&
  cs.foldl (fun n c => 10 * n + (c.toNat - 48)) 0 < 256

/-- An address of version 4. -/
def isVersion4 (cs : List Char) : Bool :=
  let octets := splitAtChar '.' cs
  octets.length = 4 && octets.all isOctet

/-- One to four hexadecimal digits, or nothing. -/
def isGroup (cs : List Char) : Bool :=
  cs.length ≤ 4 && cs.all fun c => c.isDigit || ('a' ≤ c && c ≤ 'f') || ('A' ≤ c && c ≤ 'F')

/-- The colon-separated groups of an address of version 6, where an empty inner group stands for the
groups left out. -/
def areGroups (parts : List (List Char)) : Bool :=
  let inner := (parts.drop 1).dropLast
  let empties := (inner.filter List.isEmpty).length
  let first := (parts.head?.getD []).isEmpty
  let last := (parts.getLast?.getD []).isEmpty
  if parts.length > 9 || empties > 1 then false
  else if empties = 1 then
    let before := (inner.takeWhile fun p => !p.isEmpty).length + 1
    let after := parts.length - before - 1
    let before' := if first then before - 1 else before
    let after' := if last then after - 1 else after
    (!first || before' = 0) && (!last || after' = 0) && before' + after' < 8 && parts.all isGroup
  else parts.length = 8 && parts.all fun p => !p.isEmpty && isGroup p

/-- An address of version 6, whose last two groups may be written as one of version 4. -/
def isVersion6 (cs : List Char) : Bool :=
  let scope := cs.dropWhile (· ≠ '%')
  let address := cs.takeWhile (· ≠ '%')
  let parts := splitAtChar ':' address
  let last := parts.getLast?.getD []
  (scope.isEmpty || (scope.length > 1 && !(scope.drop 1).contains '%')) &&
  !address.isEmpty && parts.length ≥ 3 &&
  (if last.contains '.' then
    isVersion4 last && areGroups (parts.dropLast ++ [['0'], ['0']])
  else areGroups parts)

/-- An address of a version still to come: `v`, hexadecimal digits, a point and something more. -/
def isFuture (cs : List Char) : Bool :=
  match cs with
  | 'v' :: rest =>
    let digits := rest.takeWhile fun c => isGroup [c]
    !digits.isEmpty &&
    (match rest.drop digits.length with
      | '.' :: more => !more.isEmpty
      | _ => false)
  | _ => false

/-- Whether the brackets of a host are in order. -/
def areBracketsValid (host : List Char) : Bool :=
  if host.contains '[' != host.contains ']' then false
  else if host.contains '[' then
    let inside := ((host.dropWhile (· ≠ '[')).drop 1).takeWhile (· ≠ ']')
    if inside.head? = some 'v' then isFuture inside else isVersion6 inside
  else true

/-- The part of a path before its parameters. -/
def withoutParameters (path : List Char) : List Char :=
  let last := (path.reverse.takeWhile (· ≠ '/')).reverse
  path.take (path.length - last.length) ++ last.takeWhile (· ≠ ';')

/-- Split a text; none when its host is not in order. -/
def split? (s : String) : Option Parts :=
  let cs := (s.toList.dropWhile (·.toNat ≤ 32)).filter fun c => c ≠ '\t' && c ≠ '\r' && c ≠ '\n'
  let head := cs.takeWhile (· ≠ ':')
  let hasScheme := head.length < cs.length && head.head?.any Char.isAlpha && head.all isSchemeChar
  let scheme := if hasScheme then head.map Char.toLower else []
  let rest := if hasScheme then cs.drop (head.length + 1) else cs
  let (host, rest) :=
    match rest with
    | '/' :: '/' :: more => more.span fun c => !(c = '/' || c = '?' || c = '#')
    | _ => ([], rest)
  let path := (rest.takeWhile (· ≠ '#')).takeWhile (· ≠ '?')
  if !areBracketsValid host || host.any decomposesToMark then none
  else
    some ⟨scheme, host,
      if schemesWithParameters.contains (String.ofList scheme) then withoutParameters path else path⟩

/-- A text without white space at its ends that has a scheme and a host or a path. -/
def isAbsolute (s : String) : Bool :=
  stripText s == s &&
  (split? s).any fun parts =>
    !parts.scheme.isEmpty && (!parts.host.isEmpty || !parts.path.isEmpty)

end Verdict.Url
