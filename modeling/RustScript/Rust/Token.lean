import RustScript.Text.Identifier

/-!
# Tokens of Rust source

Words, literals and single punctuation characters. Operators of several characters are not tokens
of their own: whether `>>` is a shift or closes two generic lists is for the grammar to say, so
each character is one token that knows whether it is glued to the one before it.
-/

set_option autoImplicit false

namespace RustScript.Rust

/-- What a token is. -/
inductive TokenKind
  /-- An identifier or a keyword; which of the two depends on where it stands. -/
  | word
  /-- A number without fraction or exponent. -/
  | integer
  /-- Any other literal. -/
  | literal
  /-- A name after a dollar sign, `$crate`. -/
  | metavariable
  /-- One punctuation character. -/
  | punctuation
  deriving DecidableEq, Repr

/-- A token with its text. -/
structure Token where
  kind : TokenKind
  text : String
  /-- Nothing stands between this token and the one before it. -/
  glued : Bool
  /-- A comment stands between this token and the one before it. -/
  commented : Bool
  deriving DecidableEq, Repr

/-- The token is this punctuation character. -/
def Token.isPunctuation (t : Token) (c : Char) : Bool :=
  t.kind = .punctuation && t.text = String.singleton c

/-- The token is this word. -/
def Token.isWord (t : Token) (word : String) : Bool := t.kind = .word && t.text = word

/-- The token is a literal of any kind. -/
def Token.isLiteral (t : Token) : Bool := t.kind = .integer || t.kind = .literal

end RustScript.Rust
