/-!
# UTF-8

Reading bytes as text. `decode` accepts exactly well-formed sequences and says where the first
offending sequence starts; `decodeLossy` puts U+FFFD in the place of each maximal invalid piece.
-/

set_option autoImplicit false

namespace RustScript.Utf8

/-- The character with this code point; `none` for surrogates and beyond U+10FFFF. -/
def char? (n : Nat) : Option Char := if h : n.isValidChar then some (Char.ofNatAux n h) else none

/-- How many continuation bytes follow the lead byte `b`, and the range of the first of them. -/
def leadClass (b : Nat) : Option (Nat × Nat × Nat) :=
  if 0xc2 ≤ b ∧ b ≤ 0xdf then some (1, 0x80, 0xbf)
  else if b = 0xe0 then some (2, 0xa0, 0xbf)
  else if b = 0xed then some (2, 0x80, 0x9f)
  else if 0xe1 ≤ b ∧ b ≤ 0xef then some (2, 0x80, 0xbf)
  else if b = 0xf0 then some (3, 0x90, 0xbf)
  else if 0xf1 ≤ b ∧ b ≤ 0xf3 then some (3, 0x80, 0xbf)
  else if b = 0xf4 then some (3, 0x80, 0x8f)
  else none

/-- What stands at the front of a byte sequence: a character of some bytes, or an invalid piece
of some bytes. -/
inductive Piece
  | char (c : Char) (size : Nat)
  | invalid (size : Nat)

/-- The number of bytes that a piece takes. -/
def Piece.size : Piece → Nat
  | .char _ size => size
  | .invalid size => size

/-- Reads `count` further continuation bytes of a character whose bits so far are `bits`; `taken`
bytes have been read, and the next byte must lie between `low` and `high`. -/
def continuation (bits taken low high : Nat) : Nat → List UInt8 → Piece
  | 0, _ =>
      match char? bits with
      | some c => .char c taken
      | none => .invalid taken
  | count + 1, bytes =>
      match bytes with
      | [] => .invalid taken
      | b :: rest =>
          if low ≤ b.toNat ∧ b.toNat ≤ high then
            continuation (bits * 64 + (b.toNat - 0x80)) (taken + 1) 0x80 0xbf count rest
          else .invalid taken

/-- The bits of a lead byte that belong to the character. -/
def leadBits (count b : Nat) : Nat :=
  match count with
  | 1 => b - 0xc0
  | 2 => b - 0xe0
  | _ => b - 0xf0

/-- The piece at the front of the bytes `b :: rest`. -/
def piece (b : UInt8) (rest : List UInt8) : Piece :=
  if b.toNat < 0x80 then .char (Char.ofNat b.toNat) 1
  else match leadClass b.toNat with
    | none => .invalid 1
    | some (count, low, high) => continuation (leadBits count b.toNat) 1 low high count rest

/-- Decodes at most `fuel` pieces; the error is the offset of the first invalid one. -/
def decodeFrom (offset : Nat) : Nat → List UInt8 → Except Nat (List Char)
  | 0, _ => .ok []
  | _ + 1, [] => .ok []
  | fuel + 1, b :: rest =>
      match piece b rest with
      | .invalid _ => .error offset
      | .char c size => (c :: ·) <$> decodeFrom (offset + size) fuel ((b :: rest).drop size)

/-- The text of a byte sequence, or the offset of the first byte that is not part of a character. -/
def decode (bytes : List UInt8) : Except Nat (List Char) := decodeFrom 0 bytes.length bytes

/-- Decodes at most `fuel` pieces, invalid ones as U+FFFD. -/
def decodeLossyFrom : Nat → List UInt8 → List Char
  | 0, _ => []
  | _ + 1, [] => []
  | fuel + 1, b :: rest =>
      match piece b rest with
      | .invalid size => Char.ofNat 0xfffd :: decodeLossyFrom fuel ((b :: rest).drop size)
      | .char c size => c :: decodeLossyFrom fuel ((b :: rest).drop size)

/-- The text of a byte sequence, with U+FFFD for every maximal invalid piece. -/
def decodeLossy (bytes : List UInt8) : List Char := decodeLossyFrom bytes.length bytes

/-- The bytes of a text. -/
def encode (s : String) : List UInt8 := s.toUTF8.data.toList

end RustScript.Utf8
