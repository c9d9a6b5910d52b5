import RustScript.Rust.Token

/-!
# Cutting Rust source into tokens

Every reader here takes the text that is left and gives what remains after one lexical element.
`Token.lex` refuses a text with an unterminated comment or literal; a character that no token
starts with becomes a punctuation token, which the grammar refuses.
-/

set_option autoImplicit false

namespace RustScript.Rust

open RustScript.Text (isIdentifierStart isIdentifierContinue)

/-! ## Blanks and comments -/

/-- The characters that separate tokens. -/
def isSpace (c : Char) : Bool :=
  c = ' ' || c = '\n' || c = '\t' || c = '\r' || c = '\x0b' || c = '\x0c'

/-- The text after a block comment of which `depth` openings are unclosed. Comments nest. -/
def skipBlockComment : Nat → List Char → Option (List Char)
  | 0, cs => some cs
  | _ + 1, [] => none
  | depth + 1, '*' :: '/' :: rest => skipBlockComment depth rest
  | depth + 1, '/' :: '*' :: rest => skipBlockComment (depth + 2) rest
  | depth + 1, _ :: rest => skipBlockComment (depth + 1) rest
termination_by _ cs => cs.length

/-! ## Strings -/

/-- The text after an escape sequence; the backslash has been read. -/
def skipEscape : List Char → Option (List Char)
  | 'x' :: a :: b :: rest => if isHex a && isHex b then some rest else none
  | 'u' :: '{' :: rest =>
      match rest.span isHex with
      | (_ :: _, '}' :: after) => some after
      | _ => none
  | 'u' :: a :: b :: c :: d :: rest =>
      if isHex a && isHex b && isHex c && isHex d then some rest else none
  | 'x' :: _ => none
  | 'u' :: _ => none
  | _ :: rest => some rest
  | [] => none
where
  isHex (c : Char) : Bool := c.isDigit || ('a' ≤ c && c ≤ 'f') || ('A' ≤ c && c ≤ 'F')

/-- The text after the closing quote of a string. `fuel` bounds the characters read. -/
def skipString : Nat → List Char → Option (List Char)
  | 0, _ => none
  | _ + 1, [] => none
  | _ + 1, '"' :: rest => some rest
  | fuel + 1, '\\' :: rest => skipEscape rest >>= skipString fuel
  | fuel + 1, _ :: rest => skipString fuel rest

/-- The text after the closing quote of a raw string with `hashes` number signs. -/
def skipRawString (hashes : Nat) : List Char → Option (List Char)
  | [] => none
  | '"' :: rest =>
      if (rest.take hashes).length = hashes && (rest.take hashes).all (· = '#') then
        some (rest.drop hashes)
      else skipRawString hashes rest
  | _ :: rest => skipRawString hashes rest

/-- The text after the opening quote of a raw string, `r` or `r#…` read so far, with the number of
number signs. -/
def rawStringOpening (cs : List Char) : Option (Nat × List Char) :=
  match cs.span (· = '#') with
  | (hashes, '"' :: rest) => some (hashes.length, rest)
  | _ => none

/-- The text after a character literal; the opening quote has been read. -/
def skipCharacter : List Char → Option (List Char)
  | '\'' :: rest => some rest
  | '\\' :: rest =>
      match skipEscape rest with
      | some ('\'' :: after) => some after
      | _ => none
  | _ :: '\'' :: rest => some rest
  | _ => none

/-! ## Numbers -/

/-- A digit or the underscore that groups digits. -/
def isNumberChar (c : Char) : Bool := c.isDigit || c = '_'

/-- The type suffixes of an integer, longer ones before their beginnings. -/
def numericSuffixes : List (List Char) :=
  ["u128", "i128", "usize", "isize", "u16", "i16", "u32", "i32", "u64", "i64", "f32", "f64",
    "u8", "i8"].map String.toList

/-- The text after a type suffix, if one stands here. -/
def skipSuffix (cs : List Char) : List Char :=
  match numericSuffixes.find? (·.isPrefixOf cs) with
  | some suffix => cs.drop suffix.length
  | none => cs

/-- The text after an integer whose first digit stands at the front. -/
def skipInteger (cs : List Char) : List Char :=
  let based (digit : Char → Bool) (rest : List Char) : List Char :=
    match rest.span digit with
    | ([], _) => skipSuffix (cs.dropWhile isNumberChar)
    | (_, after) => skipSuffix after
  match cs with
  | '0' :: 'x' :: rest => based (fun c => skipEscape.isHex c || c = '_') rest
  | '0' :: 'b' :: rest => based (fun c => c = '0' || c = '1' || c = '_') rest
  | '0' :: 'o' :: rest => based (fun c => ('0' ≤ c && c ≤ '7') || c = '_') rest
  | _ => skipSuffix (cs.dropWhile isNumberChar)

/-- The text after the width of a float's type, when the suffix letter is followed by one. -/
def skipFloatSuffix (cs : List Char) : List Char :=
  match cs with
  | c :: rest =>
      if c = 'u' || c = 'i' || c = 'f' then
        match rest.span Char.isDigit with
        | ([], _) => cs
        | (_, after) => after
      else cs
  | [] => cs

/-- The text after the exponent letter, when it stands at the front. -/
def skipExponent? (cs : List Char) : Option (List Char) :=
  match cs with
  | c :: rest =>
      if c = 'e' || c = 'E' then
        let digits := match rest with
          | sign :: more => if sign = '+' || sign = '-' then more else rest
          | [] => rest
        match digits with
        | d :: _ => some (if isNumberChar d then skipFloatSuffix (digits.dropWhile isNumberChar)
            else cs)
        | [] => some cs
      else none
  | [] => none

/-- The text after a number with a fraction or an exponent, if one stands at the front. A dot that
is followed by a letter or by another dot is not the point of a number. -/
def skipFloat? (cs : List Char) : Option (List Char) :=
  let whole := cs.dropWhile isNumberChar
  match whole with
  | '.' :: rest =>
      match rest with
      | c :: _ =>
          -- `1..2` is a range and `1.max(2)` a call of a method
          if c = '.' || (isIdentifierStart c && c ≠ '_') then none
          else
            let fraction := rest.dropWhile isNumberChar
            some ((skipExponent? fraction).getD (skipFloatSuffix fraction))
      | [] => some []
  | _ => skipExponent? whole

/-! ## One token -/

/-- What the text begins with: the kind of token and the text after it. Numbers behind a field dot
have no fraction. -/
def readToken (afterDot : Bool) (cs : List Char) : Option (TokenKind × List Char) :=
  let literal (rest : Option (List Char)) := rest.map fun after => (TokenKind.literal, after)
  let string (rest : List Char) := literal (skipString (rest.length + 1) rest)
  let word := (TokenKind.word, cs.dropWhile isIdentifierContinue)
  let rawOrWord (rest : List Char) :=
    match rawStringOpening rest with
    | some (hashes, content) => literal (skipRawString hashes content)
    | none => some word
  match cs with
  | [] => none
  | '"' :: rest => string rest
  | 'b' :: '"' :: rest => string rest
  | 'c' :: '"' :: rest => string rest
  | 'r' :: '"' :: rest => rawOrWord ('"' :: rest)
  | 'b' :: 'r' :: rest => rawOrWord rest
  | 'c' :: 'r' :: rest => rawOrWord rest
  | 'r' :: '#' :: rest =>
      match rawStringOpening ('#' :: rest) with
      | some (hashes, content) => literal (skipRawString hashes content)
      | none =>
          match rest with
          | c :: _ =>
              if isIdentifierStart c then some (.word, rest.dropWhile isIdentifierContinue)
              else some word
          | [] => some word
  | 'b' :: '\'' :: rest =>
      match skipCharacter rest with
      | some after => some (.literal, after)
      | none => some word
  | '\'' :: rest =>
      match skipCharacter rest with
      | some after => some (.literal, after)
      -- the mark of a lifetime or of a label
      | none => some (.punctuation, rest)
  | '$' :: c :: rest =>
      if c.isAlpha || c = '_' then some (.metavariable, rest.dropWhile isIdentifierContinue)
      else some (.punctuation, c :: rest)
  | c :: rest =>
      if c.isDigit then
        match if afterDot then none else skipFloat? cs with
        | some after => some (.literal, after)
        | none => some (.integer, skipInteger cs)
      else if isIdentifierStart c then some word
      else some (.punctuation, rest)

/-! ## The whole text -/

/-- What the lexer remembers of the text before the next token. -/
structure LexState where
  /-- A token or an interpreter line has been read. -/
  begun : Bool
  /-- The last token is a single dot, so a number here is a field. -/
  afterDot : Bool
  /-- Nothing has been skipped since the last token. -/
  glued : Bool
  /-- A comment has been skipped since the last token. -/
  commented : Bool

/-- The text after a line `#!…` that is not the beginning of an inner attribute, if one stands at
the front. -/
def skipInterpreterLine? (cs : List Char) : Option (List Char) :=
  match cs with
  | '#' :: '!' :: rest =>
      if rest.head? = some '[' then none
      else match rest.dropWhile (· ≠ '\n') with
        | _ :: after => some after
        | [] => none
  | _ => none

/-- The tokens of a text; `fuel` bounds the lexical elements read. An interpreter line may stand
before the first token. -/
def lexFrom : Nat → LexState → List Char → Option (List Token)
  | 0, _, _ => some []
  | _ + 1, _, [] => some []
  | fuel + 1, state, '/' :: '/' :: rest =>
      lexFrom fuel { state with glued := false, commented := true } (rest.dropWhile (· ≠ '\n'))
  | fuel + 1, state, '/' :: '*' :: rest => do
      let after ← skipBlockComment 1 rest
      lexFrom fuel { state with glued := false, commented := true } after
  | fuel + 1, state, c :: rest => do
      if isSpace c then lexFrom fuel { state with glued := false } rest
      else if let some after := if state.begun then none else skipInterpreterLine? (c :: rest) then
        lexFrom fuel { state with begun := true } after
      else
        let (kind, after) ← readToken state.afterDot (c :: rest)
        let text := String.ofList ((c :: rest).take (rest.length + 1 - after.length))
        -- the second dot of a range is no field dot
        let dot := c = '.' && !(state.afterDot && state.glued)
        (⟨kind, text, state.glued, state.commented⟩ :: ·) <$>
          lexFrom fuel ⟨true, dot, true, false⟩ after

/-- The tokens of a source text, `none` when a comment or literal does not end. A byte order mark
at the start is skipped. -/
def Token.lex (source : String) : Option (List Token) :=
  let cs := match source.toList with
    | c :: rest => if c = Char.ofNat 0xfeff then rest else c :: rest
    | [] => []
  lexFrom (cs.length + 1) ⟨false, false, false, false⟩ cs

end RustScript.Rust
