import Mathlib.Data.List.Basic

/-!
# Base64

Three bytes are four digits of six bits. A text is a list of UTF-16 code units. The decoder
takes the digits of both alphabets, asks for all of the padding, and wants the bits that are
left over to be zero.
-/
namespace ZiaCrypte.Lib.Base64

/-- A digit below 64, of the alphabet for URLs or of the standard one. -/
def digit (url : Bool) (n : Nat) : UInt16 :=
  if n < 26 then UInt16.ofNat (0x41 + n)
  else if n < 52 then UInt16.ofNat (0x61 + (n - 26))
  else if n < 62 then UInt16.ofNat (0x30 + (n - 52))
  else if n = 62 then if url then 0x2D else 0x2B
  else if url then 0x5F else 0x2F

def value (c : UInt16) : Option Nat :=
  if 0x41 ≤ c ∧ c ≤ 0x5A then some (c.toNat - 0x41)
  else if 0x61 ≤ c ∧ c ≤ 0x7A then some (c.toNat - 0x61 + 26)
  else if 0x30 ≤ c ∧ c ≤ 0x39 then some (c.toNat - 0x30 + 52)
  else if c = 0x2D ∨ c = 0x2B then some 62
  else if c = 0x5F ∨ c = 0x2F then some 63
  else none

def pad : UInt16 := 0x3D

def encode (url : Bool) : List UInt8 → List UInt16
  | [] => []
  | [a] => [digit url (a.toNat / 4), digit url (a.toNat % 4 * 16), pad, pad]
  | [a, b] =>
      [digit url (a.toNat / 4), digit url (a.toNat % 4 * 16 + b.toNat / 16),
        digit url (b.toNat % 16 * 4), pad]
  | a :: b :: c :: rest =>
      digit url (a.toNat / 4) :: digit url (a.toNat % 4 * 16 + b.toNat / 16) ::
        digit url (b.toNat % 16 * 4 + c.toNat / 64) :: digit url (c.toNat % 64) ::
          encode url rest

/-- So many signs of padding and nothing else; each may be escaped, as `%3D`. -/
def isPadding : Nat → List UInt16 → Bool
  | 0, text => text.isEmpty
  | n + 1, 0x3D :: rest => isPadding n rest
  | n + 1, 0x25 :: 0x33 :: d :: rest => (d == 0x44 || d == 0x64) && isPadding n rest
  | _ + 1, _ => false

def decode : List UInt16 → Option (List UInt8)
  | [] => some []
  | a :: b :: rest =>
      match value a, value b with
      | some x, some y =>
          match rest with
          | c :: rest =>
              match value c with
              | none =>
                  if y % 16 = 0 ∧ isPadding 2 (c :: rest) = true then
                    some [UInt8.ofNat (x * 4 + y / 16)]
                  else none
              | some z =>
                  match rest with
                  | d :: rest =>
                      match value d with
                      | none =>
                          if z % 4 = 0 ∧ isPadding 1 (d :: rest) = true then
                            some [UInt8.ofNat (x * 4 + y / 16), UInt8.ofNat (y % 16 * 16 + z / 4)]
                          else none
                      | some w =>
                          (decode rest).map fun bytes =>
                            UInt8.ofNat (x * 4 + y / 16) :: UInt8.ofNat (y % 16 * 16 + z / 4) ::
                              UInt8.ofNat (z % 4 * 64 + w) :: bytes
                  | [] => none
          | [] => none
      | _, _ => none
  | [_] => none

variable (url : Bool)

theorem value_digit {n : Nat} (h : n < 64) : value (digit url n) = some n := by
  have hall : ∀ url, ∀ n < 64, value (digit url n) = some n := by decide
  exact hall url n h

/-- A digit is none of the signs below it that texts are put together with. -/
theorem digit_ne {n : Nat} (h : n < 64) {c : UInt16} (hc : value c = none) : digit url n ≠ c := by
  rintro rfl
  rw [value_digit url h] at hc
  cases hc

theorem ofNat_eq {a : UInt8} {n : Nat} (h : n = a.toNat) : UInt8.ofNat n = a := by
  rw [h, UInt8.ofNat_toNat]

/-- Decoding gives back what was encoded. -/
theorem decode_encode (bytes : List UInt8) : decode (encode url bytes) = some bytes := by
  fun_induction encode url bytes with
  | case1 => rfl
  | case2 a =>
    have ha := a.toNat_lt
    have hpadding : isPadding 2 [pad, pad] = true := rfl
    have hx := value_digit url (n := a.toNat / 4) (by omega)
    have hy := value_digit url (n := a.toNat % 4 * 16) (by omega)
    have hpad : value pad = none := rfl
    simp only [decode, hx, hy, hpad, hpadding]
    rw [if_pos ⟨by omega, trivial⟩, ofNat_eq (a := a) (by omega)]
  | case3 a b =>
    have ha := a.toNat_lt
    have hb := b.toNat_lt
    have hpadding : isPadding 1 [pad] = true := rfl
    have hx := value_digit url (n := a.toNat / 4) (by omega)
    have hy := value_digit url (n := a.toNat % 4 * 16 + b.toNat / 16) (by omega)
    have hz := value_digit url (n := b.toNat % 16 * 4) (by omega)
    have hpad : value pad = none := rfl
    simp only [decode, hx, hy, hz, hpad, hpadding]
    rw [if_pos ⟨by omega, trivial⟩, ofNat_eq (a := a) (by omega), ofNat_eq (a := b) (by omega)]
  | case4 a b c rest ih =>
    have ha := a.toNat_lt
    have hb := b.toNat_lt
    have hc := c.toNat_lt
    have hx := value_digit url (n := a.toNat / 4) (by omega)
    have hy := value_digit url (n := a.toNat % 4 * 16 + b.toNat / 16) (by omega)
    have hz := value_digit url (n := b.toNat % 16 * 4 + c.toNat / 64) (by omega)
    have hw := value_digit url (n := c.toNat % 64) (by omega)
    simp only [decode, hx, hy, hz, hw, ih, Option.map_some]
    rw [ofNat_eq (a := a) (by omega), ofNat_eq (a := b) (by omega), ofNat_eq (a := c) (by omega)]

/-- What is encoded holds digits and padding only. -/
theorem not_mem_encode {c : UInt16} (hc : value c = none) (hpad : c ≠ pad) (bytes : List UInt8) :
    c ∉ encode url bytes := by
  fun_induction encode url bytes with
  | case1 => exact List.not_mem_nil
  | case2 a =>
    have ha := a.toNat_lt
    simp only [List.mem_cons, List.not_mem_nil, or_false, not_or]
    exact ⟨(digit_ne url (by omega) hc).symm, (digit_ne url (by omega) hc).symm, hpad, hpad⟩
  | case3 a b =>
    have ha := a.toNat_lt
    have hb := b.toNat_lt
    simp only [List.mem_cons, List.not_mem_nil, or_false, not_or]
    exact ⟨(digit_ne url (by omega) hc).symm, (digit_ne url (by omega) hc).symm,
      (digit_ne url (by omega) hc).symm, hpad⟩
  | case4 a b c' rest ih =>
    have ha := a.toNat_lt
    have hb := b.toNat_lt
    have hc' := c'.toNat_lt
    simp only [List.mem_cons, not_or]
    exact ⟨(digit_ne url (by omega) hc).symm, (digit_ne url (by omega) hc).symm,
      (digit_ne url (by omega) hc).symm, (digit_ne url (by omega) hc).symm, ih⟩

theorem encode_ne_nil {bytes : List UInt8} (h : bytes ≠ []) : encode url bytes ≠ [] := by
  fun_cases encode url bytes with
  | case1 => exact absurd rfl h
  | _ => exact List.cons_ne_nil _ _

end ZiaCrypte.Lib.Base64
