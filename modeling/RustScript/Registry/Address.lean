import RustScript.Text.Lines
import RustScript.Text.Utf8

/-!
# Web addresses

The addresses of crates at a registry. `Address.ofText?` reads an address and brings it into the
form in which it is requested: the scheme and the host in lower case, no `.` and `..` in the path,
and characters that may not stand in an address written as percent escapes. Escapes that are there
already stay.
-/

set_option autoImplicit false

namespace RustScript.Registry

open RustScript.Text

/-- An address in the form in which it is requested. -/
structure Address where
  scheme : List Char
  authority : List Char
  path : List Char
  query : Option (List Char)
  fragment : Option (List Char)
  deriving DecidableEq, Repr

/-- A hexadecimal digit. -/
def isHex (c : Char) : Bool :=
  c.isDigit || ('a' ≤ c && c ≤ 'f') || ('A' ≤ c && c ≤ 'F')

/-- The percent escape of a byte. -/
def percentByte (b : UInt8) : List Char :=
  let digits := (Nat.toDigits 16 b.toNat).map Char.toUpper
  '%' :: List.replicate (2 - digits.length) '0' ++ digits

/-- A character as percent escapes. -/
def percentChar (c : Char) : List Char := (Utf8.encode (String.singleton c)).flatMap percentByte

/-- The text with escapes for the characters that are not safe. -/
def percentEncode (safe : Char → Bool) : List Char → List Char
  | '%' :: a :: b :: rest =>
      if isHex a && isHex b then '%' :: a :: b :: percentEncode safe rest
      else (if safe '%' then ['%'] else percentChar '%') ++ percentEncode safe (a :: b :: rest)
  | c :: rest => (if safe c then [c] else percentChar c) ++ percentEncode safe rest
  | [] => []
termination_by cs => cs.length

/-- The value of a hexadecimal digit. -/
def hexDigitValue (c : Char) : Nat :=
  if c.isDigit then c.toNat - '0'.toNat else c.toLower.toNat - 'a'.toNat + 10

/-- The bytes that a text with escapes stands for. -/
def percentBytes : List Char → List UInt8
  | '%' :: a :: b :: rest =>
      if isHex a && isHex b then
        UInt8.ofNat (hexDigitValue a * 16 + hexDigitValue b) :: percentBytes rest
      else Utf8.encode "%" ++ percentBytes (a :: b :: rest)
  | c :: rest => Utf8.encode (String.singleton c) ++ percentBytes rest
  | [] => []
termination_by cs => cs.length

/-- The text that a text with escapes stands for. -/
def percentDecode (cs : List Char) : List Char := Utf8.decodeLossy (percentBytes cs)

/-- A printable ASCII character that is none of the given ones. -/
def isPlainBut (others : List Char) (c : Char) : Bool :=
  0x20 < c.toNat && c.toNat < 0x7f && !others.contains c

/-- A character that may stand in a path. -/
def isPathSafe (c : Char) : Bool := isPlainBut ['"', '#', '<', '>', '?', '`', '\x7b', '\x7d'] c

/-- A character that may stand in a query. -/
def isQuerySafe (c : Char) : Bool := isPlainBut ['"', '#', '<', '>'] c

/-- A character that may stand in a fragment. -/
def isFragmentSafe (c : Char) : Bool := isPlainBut ['"', '<', '>', '`'] c

/-- The names of a path without `.` and without those that a `..` takes back; `kept` holds the
names so far, last first. -/
def dropDots (kept : List (List Char)) : List (List Char) → List (List Char)
  | [] => kept.reverse
  | ['.'] :: rest => dropDots kept rest
  | ['.', '.'] :: rest => dropDots (if kept = [[]] then kept else kept.tail) rest
  | name :: rest => dropDots (name :: kept) rest

/-- Names with slashes between them. -/
def joinNames (names : List (List Char)) : List Char := List.intercalate ['/'] names

/-- A scheme in front of a colon, and the text after the colon. -/
def schemePart (cs : List Char) : List Char × List Char :=
  match cs.span fun c => c.isAlphanum || c = '+' || c = '.' || c = '-' with
  | (first :: more, ':' :: rest) => if first.isAlpha then (first :: more, rest) else ([], cs)
  | _ => ([], cs)

/-- The authority after two slashes, and the text after it. -/
def authorityPart : List Char → List Char × List Char
  | '/' :: '/' :: rest => rest.span fun c => c ≠ '/' && c ≠ '?' && c ≠ '#'
  | cs => ([], cs)

/-- The socket number that a scheme has without saying so. -/
def usualSocket (scheme : List Char) : List Char :=
  if scheme = "http".toList then "80".toList
  else if scheme = "https".toList then "443".toList
  else []

/-- An authority in lower case, without the socket number that its scheme has anyway. -/
def plainAuthority (scheme authority : List Char) : List Char :=
  let lowered := authority.map Char.toLower
  let (socket, host) := lowered.reverse.span Char.isDigit
  match host with
  | ':' :: before =>
      if socket.isEmpty || socket.reverse = usualSocket scheme then before.reverse else lowered
  | _ => lowered

/-- The part after a mark, if the mark is there. -/
def partAfter (mark : Char) (safe : Char → Bool) : List Char → Option (List Char)
  | c :: rest => if c = mark then some (percentEncode safe rest) else none
  | [] => none

/-- The address that a text writes; `none` if there is a control character in it. -/
def Address.ofText? (text : List Char) : Option Address :=
  if text.any fun c => c.toNat < 0x20 || c.toNat = 0x7f then none
  else
    let (scheme, afterScheme) := schemePart text
    let scheme := scheme.map Char.toLower
    let (authority, afterAuthority) := authorityPart afterScheme
    let (path, afterPath) := afterAuthority.span fun c => c ≠ '?' && c ≠ '#'
    let names := cutAt '/' path
    let (query, afterQuery) := afterPath.span (· ≠ '#')
    let isAbsolute := !scheme.isEmpty || !authority.isEmpty
    some {
      scheme
      authority := plainAuthority scheme authority
      path := percentEncode isPathSafe (if isAbsolute then joinNames (dropDots [] names) else path)
      query := partAfter '?' isQuerySafe query
      fragment := partAfter '#' isFragmentSafe afterQuery }

/-- The address says by itself which server is meant. -/
def Address.isAbsolute (address : Address) : Bool :=
  !address.scheme.isEmpty && !address.authority.isEmpty

/-- The address as it is requested: one that is not absolute is read at the root of no server. -/
def Address.requested (address : Address) : Address :=
  if address.isAbsolute then address
  else ⟨[], [], '/' :: address.path.dropWhile (· = '/'), address.query, none⟩

/-- The address as text. -/
def Address.toText (address : Address) : List Char :=
  let scheme := if address.scheme.isEmpty then [] else address.scheme ++ [':']
  let authority := if address.authority.isEmpty then [] else '/' :: '/' :: address.authority
  let query := (address.query.map ('?' :: ·)).getD []
  let fragment := (address.fragment.map ('#' :: ·)).getD []
  scheme ++ authority ++ address.path ++ query ++ fragment

/-- The last name of the path, without escapes. -/
def Address.lastName (address : Address) : List Char :=
  (cutAt '/' (percentDecode address.path)).getLastD []

end RustScript.Registry
