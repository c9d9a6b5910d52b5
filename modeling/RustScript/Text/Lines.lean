import RustScript.Text.Blank

/-!
# Lines

Two ways to cut a text into lines. `splitLines` breaks at every line boundary of the Unicode
standard and keeps no empty last line; `breakLine` breaks once, at a line feed.
-/

set_option autoImplicit false

namespace RustScript.Text

/-- A character that ends a line. A carriage return takes a line feed behind it along. -/
def isLineBreak (c : Char) : Bool :=
  let n := c.toNat
  (0xa ≤ n && n ≤ 0xd) || (0x1c ≤ n && n ≤ 0x1e) || n == 0x85 || n == 0x2028 || n == 0x2029

/-- The lines of a text of which the line `line`, last character first, has been begun;
`begun` says whether a line is open. -/
def splitLinesFrom (line : List Char) (begun : Bool) : List Char → List (List Char)
  | [] => if begun then [line.reverse] else []
  | '\r' :: '\n' :: rest => line.reverse :: splitLinesFrom [] false rest
  | c :: rest =>
      if isLineBreak c then line.reverse :: splitLinesFrom [] false rest
      else splitLinesFrom (c :: line) true rest

/-- The lines of a text, without their line ends. -/
def splitLines (cs : List Char) : List (List Char) := splitLinesFrom [] false cs

/-- The part before the first line feed and, when there is one, the part after it. -/
def breakLine : List Char → List Char × Option (List Char)
  | [] => ([], none)
  | '\n' :: rest => ([], some rest)
  | c :: rest => let (line, after) := breakLine rest; (c :: line, after)

/-- The pieces of a text between the marks in it; there is one more of them than marks. -/
def cutAt (mark : Char) : List Char → List (List Char)
  | [] => [[]]
  | c :: rest =>
      if c = mark then [] :: cutAt mark rest
      else match cutAt mark rest with
        | piece :: pieces => (c :: piece) :: pieces
        | [] => [[c]]

/-- The pieces of a text between its line feeds. -/
def cutLines (cs : List Char) : List (List Char) := cutAt '\n' cs

/-- The lines joined by line feeds. -/
def joinLines : List (List Char) → List Char
  | [] => []
  | [line] => line
  | line :: rest => line ++ '\n' :: joinLines rest

/-- The text with every line end written as a line feed: a carriage return, with or without a
line feed behind it, becomes one line feed. -/
def normalizeLineEnds : List Char → List Char
  | [] => []
  | '\r' :: '\n' :: rest => '\n' :: normalizeLineEnds rest
  | c :: rest => (if c = '\r' then '\n' else c) :: normalizeLineEnds rest

end RustScript.Text
