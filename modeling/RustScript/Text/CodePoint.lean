import RustScript.Text.Quoted

/-!
# Texts from outside

A text from outside is a sequence of code points, among which there may be surrogates that stand
alone. Such a text has no bytes; one without surrogates is a `String`.
-/

set_option autoImplicit false

namespace RustScript

/-- A code point. -/
inductive CodePoint
  | char (c : Char)
  /-- The surrogate at this distance from the first one. -/
  | surrogate (offset : Fin 0x800)
  deriving DecidableEq, Repr

namespace CodePoint

/-- The first surrogate. -/
def firstSurrogate : Nat := 0xd800

/-- The number of the code point. -/
def toNat : CodePoint → Nat
  | .char c => c.toNat
  | .surrogate offset => firstSurrogate + offset

/-- The code point of a number; `none` beyond U+10FFFF. -/
def ofNat? (n : Nat) : Option CodePoint :=
  if h : n.isValidChar then some (.char (Char.ofNatAux n h))
  else if h : n - firstSurrogate < 0x800 then some (.surrogate ⟨n - firstSurrogate, h⟩)
  else none

/-- The character, unless the code point is a surrogate. -/
def char? : CodePoint → Option Char
  | .char c => some c
  | .surrogate _ => none

/-- The character, or for a surrogate the stand-in at the same distance from `base`. -/
def filled (base : Nat) : CodePoint → Char
  | .char c => c
  | .surrogate offset => Char.ofNat (base + offset)

end CodePoint

/-- A text from outside. -/
abbrev RawText := List CodePoint

namespace RawText

/-- A text without surrogates as one from outside. -/
def ofString (text : String) : RawText := text.toList.map .char

instance : Coe String RawText := ⟨ofString⟩

/-- The text, if there are no surrogates in it. -/
def toString? (text : RawText) : Option String := String.ofList <$> text.mapM CodePoint.char?

/-- The text with stand-ins for surrogates. -/
def filled (base : Nat) (text : RawText) : String := String.ofList (text.map (·.filled base))

/-- The complaint about a text that has no bytes, from its form with stand-ins that begin at `base`
and one with other stand-ins: the surrogates are where the two differ. -/
def complaint (base : Nat) (text other : String) : String :=
  let pairs := text.toList.zip other.toList
  let place := (pairs.takeWhile fun pair => pair.1 = pair.2).length
  let surrogates := (pairs.drop place).takeWhile fun pair => pair.1 ≠ pair.2
  let last := place + surrogates.length - 1
  let named := match surrogates with
    | [(c, _)] =>
        let digits := String.ofList (Text.hexDigits 4 (CodePoint.firstSurrogate + (c.toNat - base)))
        s!"character '\\u{digits}' in position {place}"
    | _ => s!"characters in position {place}-{last}"
  s!"'utf-8' codec can't encode {named}: surrogates not allowed"

end RawText

/-- A text with a surrogate in it. -/
abbrev BrokenText := { text : RawText // text.toString? = none }

end RustScript
