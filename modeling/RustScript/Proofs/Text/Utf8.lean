import Mathlib.Tactic.Common
import RustScript.Files.Text

/-!
# Texts in bytes

A text is found again in its bytes (`decode_encode`), and in a file whose bytes they are if it has
no carriage return (`textOfBytes_encode`).
-/

set_option autoImplicit false

namespace RustScript.Utf8

/-! ## Bytes of a character -/

theorem char?_toNat (c : Char) : char? c.toNat = some c := by
  unfold char?
  rw [dif_pos (show c.toNat.isValidChar from c.valid)]
  rfl

theorem toNat_le (c : Char) : c.toNat < 0xd800 ∨ 0xdfff < c.toNat ∧ c.toNat < 0x110000 := c.valid

/-- The value of a byte that is written as a number. -/
theorem toNat_ofNat {n : Nat} (h : n < 256) : (UInt8.ofNat n).toNat = n := by
  rw [UInt8.toNat_ofNat']
  exact Nat.mod_eq_of_lt h

/-- A byte in the range that is asked for is taken, with its six bits. -/
theorem continuation_cons {bits taken low high count : Nat} {b : UInt8} {rest : List UInt8}
    (h : low ≤ b.toNat ∧ b.toNat ≤ high) :
    continuation bits taken low high (count + 1) (b :: rest) =
      continuation (bits * 64 + (b.toNat - 0x80)) (taken + 1) 0x80 0xbf count rest := by
  rw [continuation, if_pos h]

/-- All bytes have been taken. -/
theorem continuation_done {bits taken low high : Nat} {rest : List UInt8} {c : Char}
    (h : bits = c.toNat) : continuation bits taken low high 0 rest = .char c taken := by
  rw [continuation, h, char?_toNat]

/-- The byte leads `count` others, the first of which may be `b`. -/
def Leads (lead count b : Nat) : Prop :=
  ∃ low high, leadClass lead = some (count, low, high) ∧ low ≤ b ∧ b ≤ high

theorem leads_two {lead b : Nat} (hlead : 0xc2 ≤ lead ∧ lead ≤ 0xdf) (hb : 0x80 ≤ b ∧ b ≤ 0xbf) :
    Leads lead 1 b := by
  refine ⟨0x80, 0xbf, ?_, hb⟩
  unfold leadClass
  rw [if_pos hlead]

theorem leads_three {lead b : Nat} (hlead : 0xe0 ≤ lead ∧ lead ≤ 0xef) (hb : 0x80 ≤ b ∧ b ≤ 0xbf)
    (hlow : lead = 0xe0 → 0xa0 ≤ b) (hhigh : lead = 0xed → b ≤ 0x9f) : Leads lead 2 b := by
  unfold Leads leadClass
  rw [if_neg (by omega)]
  by_cases hfirst : lead = 0xe0
  · rw [if_pos hfirst]
    exact ⟨_, _, rfl, hlow hfirst, hb.2⟩
  · rw [if_neg hfirst]
    by_cases hlast : lead = 0xed
    · rw [if_pos hlast]
      exact ⟨_, _, rfl, hb.1, hhigh hlast⟩
    · rw [if_neg hlast, if_pos (by omega)]
      exact ⟨_, _, rfl, hb⟩

theorem leads_four {lead b : Nat} (hlead : 0xf0 ≤ lead ∧ lead ≤ 0xf4) (hb : 0x80 ≤ b ∧ b ≤ 0xbf)
    (hlow : lead = 0xf0 → 0x90 ≤ b) (hhigh : lead = 0xf4 → b ≤ 0x8f) : Leads lead 3 b := by
  unfold Leads leadClass
  rw [if_neg (by omega), if_neg (by omega), if_neg (by omega), if_neg (by omega)]
  by_cases hfirst : lead = 0xf0
  · rw [if_pos hfirst]
    exact ⟨_, _, rfl, hlow hfirst, hb.2⟩
  · rw [if_neg hfirst]
    by_cases hlast : lead = 0xf4
    · rw [if_neg (by omega), if_pos hlast]
      exact ⟨_, _, rfl, hb.1, hhigh hlast⟩
    · rw [if_pos (by omega)]
      exact ⟨_, _, rfl, hb⟩

/-- A byte that leads others begins a character together with them. -/
theorem piece_of_leads {lead first : UInt8} {count : Nat} {rest : List UInt8}
    (hlead : 0x80 ≤ lead.toNat) (h : Leads lead.toNat (count + 1) first.toNat) :
    piece lead (first :: rest) =
      continuation (leadBits (count + 1) lead.toNat * 64 + (first.toNat - 0x80)) 2 0x80 0xbf count
        rest := by
  obtain ⟨low, high, hclass, hfirst⟩ := h
  unfold piece
  rw [if_neg (Nat.not_lt.mpr hlead), hclass]
  exact continuation_cons hfirst

/-- **The bytes of a character** are read as that character, whatever stands behind them. -/
theorem piece_encodeChar (c : Char) (rest : List UInt8) :
    ∃ b more, String.utf8EncodeChar c = b :: more ∧
      piece b (more ++ rest) = .char c (more.length + 1) := by
  have hvalid := toNat_le c
  have hcode : c.val.toNat = c.toNat := rfl
  unfold String.utf8EncodeChar
  rw [hcode]
  -- one case for each number of bytes
  by_cases hone : c.toNat ≤ 0x7f
  · refine ⟨UInt8.ofNat c.toNat, [], by rw [if_pos hone], ?_⟩
    unfold piece
    rw [toNat_ofNat (by omega), if_pos (by omega), Char.ofNat_toNat]
    rfl
  by_cases htwo : c.toNat ≤ 0x7ff
  · have hlead : (UInt8.ofNat (c.toNat / 64 % 0x20 + 0xc0)).toNat = c.toNat / 64 + 0xc0 := by
      rw [toNat_ofNat (by omega)]
      omega
    have hlast := toNat_ofNat (show c.toNat % 0x40 + 0x80 < 256 by omega)
    refine ⟨UInt8.ofNat (c.toNat / 64 % 0x20 + 0xc0), [UInt8.ofNat (c.toNat % 0x40 + 0x80)],
      by rw [if_neg hone, if_pos htwo], ?_⟩
    rw [List.singleton_append, piece_of_leads (by omega) (leads_two (by omega) (by omega)), hlead,
      hlast]
    refine continuation_done ?_
    show (c.toNat / 64 + 0xc0 - 0xc0) * 64 + (c.toNat % 0x40 + 0x80 - 0x80) = c.toNat
    omega
  by_cases hthree : c.toNat ≤ 0xffff
  · have hlead : (UInt8.ofNat (c.toNat / 4096 % 0x10 + 0xe0)).toNat = c.toNat / 4096 + 0xe0 := by
      rw [toNat_ofNat (by omega)]
      omega
    have hfirst := toNat_ofNat (show c.toNat / 64 % 0x40 + 0x80 < 256 by omega)
    have hlast := toNat_ofNat (show c.toNat % 0x40 + 0x80 < 256 by omega)
    refine ⟨UInt8.ofNat (c.toNat / 4096 % 0x10 + 0xe0),
      [UInt8.ofNat (c.toNat / 64 % 0x40 + 0x80), UInt8.ofNat (c.toNat % 0x40 + 0x80)],
      by rw [if_neg hone, if_neg htwo, if_pos hthree], ?_⟩
    rw [List.cons_append, List.singleton_append, piece_of_leads (by omega)
      (leads_three (by omega) (by omega) (by omega) (by omega)), continuation_cons (by omega),
      hlead, hfirst, hlast]
    refine continuation_done ?_
    show ((c.toNat / 4096 + 0xe0 - 0xe0) * 64 + (c.toNat / 64 % 0x40 + 0x80 - 0x80)) * 64 +
      (c.toNat % 0x40 + 0x80 - 0x80) = c.toNat
    omega
  · have hlead : (UInt8.ofNat (c.toNat / 262144 % 0x08 + 0xf0)).toNat =
        c.toNat / 262144 + 0xf0 := by
      rw [toNat_ofNat (by omega)]
      omega
    have hfirst := toNat_ofNat (show c.toNat / 4096 % 0x40 + 0x80 < 256 by omega)
    have hsecond := toNat_ofNat (show c.toNat / 64 % 0x40 + 0x80 < 256 by omega)
    have hlast := toNat_ofNat (show c.toNat % 0x40 + 0x80 < 256 by omega)
    refine ⟨UInt8.ofNat (c.toNat / 262144 % 0x08 + 0xf0),
      [UInt8.ofNat (c.toNat / 4096 % 0x40 + 0x80), UInt8.ofNat (c.toNat / 64 % 0x40 + 0x80),
        UInt8.ofNat (c.toNat % 0x40 + 0x80)],
      by rw [if_neg hone, if_neg htwo, if_neg hthree], ?_⟩
    rw [List.cons_append, List.cons_append, List.singleton_append, piece_of_leads (by omega)
      (leads_four (by omega) (by omega) (by omega) (by omega)), continuation_cons (by omega),
      continuation_cons (by omega), hlead, hfirst, hsecond, hlast]
    refine continuation_done ?_
    show (((c.toNat / 262144 + 0xf0 - 0xf0) * 64 + (c.toNat / 4096 % 0x40 + 0x80 - 0x80)) * 64 +
      (c.toNat / 64 % 0x40 + 0x80 - 0x80)) * 64 + (c.toNat % 0x40 + 0x80 - 0x80) = c.toNat
    omega

/-! ## Bytes of a text -/

theorem encode_eq (text : String) : encode text = text.toList.flatMap String.utf8EncodeChar := by
  unfold encode
  rw [String.toUTF8_eq_toByteArray, ← String.utf8Encode_toList, List.utf8Encode,
    List.toList_data_toByteArray]

theorem decodeFrom_encode (characters : List Char) {fuel : Nat}
    (h : (characters.flatMap String.utf8EncodeChar).length ≤ fuel) (offset : Nat) :
    decodeFrom offset fuel (characters.flatMap String.utf8EncodeChar) = .ok characters := by
  induction characters generalizing fuel offset with
  | nil => cases fuel <;> rfl
  | cons c rest ih =>
      obtain ⟨b, more, hbytes, hpiece⟩ :=
        piece_encodeChar c (rest.flatMap String.utf8EncodeChar)
      rw [List.flatMap_cons, hbytes] at h ⊢
      cases fuel with
      | zero => exact absurd h (Nat.not_succ_le_zero _)
      | succ fuel =>
          rw [List.cons_append, decodeFrom, hpiece]
          dsimp only
          have hrest : (rest.flatMap String.utf8EncodeChar).length ≤ fuel := by
            rw [List.length_append, List.length_cons] at h
            omega
          rw [List.drop_succ_cons, List.drop_left, ih hrest]
          rfl

/-- **A text is found again in its bytes.** -/
theorem decode_encode (text : String) : decode (encode text) = .ok text.toList := by
  unfold decode
  rw [encode_eq]
  exact decodeFrom_encode text.toList (Nat.le_refl _) 0

end RustScript.Utf8

namespace RustScript

/-- A text without carriage returns has the line ends that are read. -/
theorem Text.normalizeLineEnds_of_not_mem {cs : List Char} (h : '\r' ∉ cs) :
    Text.normalizeLineEnds cs = cs := by
  induction cs with
  | nil => rfl
  | cons c rest ih =>
      have hc : '\r' ≠ c := List.ne_of_not_mem_cons h
      have hrest : '\r' ∉ rest := List.not_mem_of_not_mem_cons h
      rw [Text.normalizeLineEnds, if_neg (Ne.symm hc), ih hrest]
      rintro left rfl
      exact absurd rfl hc

/-- **A text without carriage returns** is read from its bytes. -/
theorem textOfBytes_encode {text : String} (h : '\r' ∉ text.toList) :
    textOfBytes (Utf8.encode text) = .ok text := by
  unfold textOfBytes
  rw [Utf8.decode_encode]
  dsimp only
  rw [Text.normalizeLineEnds_of_not_mem h, String.ofList_toList]

end RustScript
