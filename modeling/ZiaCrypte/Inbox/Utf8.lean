import ZiaCrypte.Inbox.Dart
import Mathlib.Algebra.Group.Nat.Defs

/-!
# `utf8.encode` and `utf8.decode`

Half a surrogate pair is encoded as the replacement character. Bytes that encode nothing are
refused, and a byte order mark at the start is dropped.
-/
namespace ZiaCrypte.Inbox

open ZiaCrypte.Engine

/-- The UTF-8 of a code unit that is not one of a pair; half a pair is replaced. -/
def utf8Unit (c : UInt16) : Bytes :=
  if c < 0x80 then [c.toUInt8]
  else if c < 0x800 then [(0xC0 : UInt8) ||| (c >>> 6).toUInt8, (0x80 : UInt8) ||| (c &&& 0x3F).toUInt8]
  else if 0xD800 ≤ c ∧ c < 0xE000 then [0xEF, 0xBF, 0xBD]
  else [(0xE0 : UInt8) ||| (c >>> 12).toUInt8, (0x80 : UInt8) ||| ((c >>> 6) &&& 0x3F).toUInt8,
    (0x80 : UInt8) ||| (c &&& 0x3F).toUInt8]

/-- The code point of a pair. -/
def codePoint (c d : UInt16) : UInt32 :=
  (0x10000 : UInt32) + (((c &&& 0x3FF).toUInt32 <<< 10) ||| (d &&& 0x3FF).toUInt32)

def utf8Pair (c d : UInt16) : Bytes :=
  let n := codePoint c d
  [(0xF0 : UInt8) ||| (n >>> 18).toUInt8, (0x80 : UInt8) ||| ((n >>> 12) &&& 0x3F).toUInt8,
    (0x80 : UInt8) ||| ((n >>> 6) &&& 0x3F).toUInt8, (0x80 : UInt8) ||| (n &&& 0x3F).toUInt8]

def utf8 : Text → Bytes
  | [] => []
  | [c] => utf8Unit c
  | c :: d :: rest =>
      if 0xD800 ≤ c ∧ c < 0xDC00 ∧ 0xDC00 ≤ d ∧ d < 0xE000 then utf8Pair c d ++ utf8 rest
      else utf8Unit c ++ utf8 (d :: rest)

/-! ## Decoding -/

def isContinuation (b : UInt8) : Bool := 0x80 ≤ b && b < 0xC0

/-- What the six low bits of continuation bytes add to a first byte. -/
def scalarValue (start : Nat) (bytes : List UInt8) : Nat :=
  bytes.foldl (fun n b => n * 64 + (b.toNat - 0x80)) start

/-- The code units that bytes encode, each character in its shortest form. -/
def utf8Units : Bytes → Option Text
  | [] => some []
  | b :: rest =>
      if b < 0x80 then (utf8Units rest).map (b.toUInt16 :: ·)
      else if b < 0xE0 then
        match rest with
        | c :: rest =>
            let n := scalarValue (b.toNat - 0xC0) [c]
            if isContinuation c = true ∧ 0xC0 ≤ b ∧ 0x80 ≤ n then
              (utf8Units rest).map (UInt16.ofNat n :: ·)
            else none
        | _ => none
      else if b < 0xF0 then
        match rest with
        | c :: d :: rest =>
            let n := scalarValue (b.toNat - 0xE0) [c, d]
            if (isContinuation c && isContinuation d) = true ∧ 0x800 ≤ n ∧
                (n < 0xD800 ∨ 0xE000 ≤ n) then
              (utf8Units rest).map (UInt16.ofNat n :: ·)
            else none
        | _ => none
      else
        match rest with
        | c :: d :: e :: rest =>
            let n := scalarValue (b.toNat - 0xF0) [c, d, e]
            if (isContinuation c && isContinuation d && isContinuation e) = true ∧
                0x10000 ≤ n ∧ n < 0x110000 then
              (utf8Units rest).map fun t =>
                UInt16.ofNat (0xD800 + (n - 0x10000) / 1024) ::
                  UInt16.ofNat (0xDC00 + (n - 0x10000) % 1024) :: t
            else none
        | _ => none

def BOM : UInt16 := 0xFEFF

def utf8Decode (bytes : Bytes) : Option Text :=
  (utf8Units bytes).map fun t => if t.head? = some BOM then t.tail else t

def isSurrogate (c : UInt16) : Bool := 0xD800 ≤ c && c < 0xE000

abbrev IsPair (c d : UInt16) : Prop := 0xD800 ≤ c ∧ c < 0xDC00 ∧ 0xDC00 ≤ d ∧ d < 0xE000

/-- Every half of a surrogate pair has its other half. -/
def isWellFormed : Text → Bool
  | [] => true
  | [c] => !isSurrogate c
  | c :: d :: rest =>
      if IsPair c d then isWellFormed rest else !isSurrogate c && isWellFormed (d :: rest)

/-! ## The values of the bytes -/

theorem toNat_or_of_lt {m x : UInt8} {a k : Nat} (hm : m.toNat = 2 ^ k * a)
    (hx : x.toNat < 2 ^ k) : (m ||| x).toNat = m.toNat + x.toNat := by
  rw [UInt8.toNat_or, hm]
  exact (Nat.two_pow_add_eq_or_of_lt hx a).symm

theorem toNat_and_63 (c : UInt16) : (c &&& 0x3F).toNat = c.toNat % 64 := by
  rw [UInt16.toNat_and]
  exact Nat.and_two_pow_sub_one_eq_mod c.toNat 6

/-- A continuation byte carries six bits. -/
theorem toNat_continuation {x : UInt8} (hx : x.toNat < 64) :
    ((0x80 : UInt8) ||| x).toNat = 0x80 + x.toNat :=
  toNat_or_of_lt (a := 2) (k := 6) rfl hx

theorem isContinuation_iff {b : UInt8} :
    isContinuation b = true ↔ 0x80 ≤ b.toNat ∧ b.toNat < 0xC0 := by
  unfold isContinuation
  rw [Bool.and_eq_true, decide_eq_true_iff, decide_eq_true_iff]
  rfl

theorem toNat_low6 (c : UInt16) : (c &&& 0x3F).toUInt8.toNat = c.toNat % 64 := by
  rw [UInt16.toNat_toUInt8, toNat_and_63]
  omega

theorem toNat_mid6 (c : UInt16) : ((c >>> 6) &&& 0x3F).toUInt8.toNat = c.toNat / 64 % 64 := by
  rw [toNat_low6, UInt16.toNat_shiftRight, Nat.shiftRight_eq_div_pow]
  rfl

theorem toNat_shift (c : UInt16) {k : UInt16} (hk : c.toNat / 2 ^ (k.toNat % 16) < 256) :
    (c >>> k).toUInt8.toNat = c.toNat / 2 ^ (k.toNat % 16) := by
  rw [UInt16.toNat_toUInt8, UInt16.toNat_shiftRight, Nat.shiftRight_eq_div_pow]
  exact Nat.mod_eq_of_lt hk

/-! ## Encoding and decoding -/

theorem isSurrogate_iff {c : UInt16} :
    isSurrogate c = true ↔ 0xD800 ≤ c.toNat ∧ c.toNat < 0xE000 := by
  unfold isSurrogate
  rw [Bool.and_eq_true, decide_eq_true_iff, decide_eq_true_iff]
  rfl

theorem isContinuation_of {b : UInt8} {n : Nat} (hb : b.toNat = 0x80 + n % 64) :
    isContinuation b = true := by
  rw [isContinuation_iff, hb]
  omega

theorem not_lt_of_toNat_le {b k : UInt8} (h : k.toNat ≤ b.toNat) : ¬ b < k :=
  UInt8.not_lt.mpr (UInt8.le_iff_toNat_le.mpr h)

theorem utf8Units_one {b : UInt8} (rest : Bytes) (hb : b.toNat < 0x80) :
    utf8Units (b :: rest) = (utf8Units rest).map (b.toUInt16 :: ·) := by
  have h : b < 0x80 := UInt8.lt_iff_toNat_lt.mpr hb
  conv =>
    lhs
    unfold utf8Units
  exact if_pos h

/-- A character of two bytes. -/
theorem utf8Units_two {b c : UInt8} {n : Nat} (rest : Bytes) (hb : b.toNat = 0xC0 + n / 64)
    (hc : c.toNat = 0x80 + n % 64) (hlow : 0x80 ≤ n) (hhigh : n < 0x800) :
    utf8Units (b :: c :: rest) = (utf8Units rest).map (UInt16.ofNat n :: ·) := by
  have hvalue : scalarValue (b.toNat - 0xC0) [c] = n := by
    unfold scalarValue
    simp only [List.foldl_cons, List.foldl_nil]
    omega
  have h1 : ¬ b < 0x80 := not_lt_of_toNat_le (show 0x80 ≤ b.toNat by omega)
  have h2 : b < 0xE0 := UInt8.lt_iff_toNat_lt.mpr (show b.toNat < 0xE0 by omega)
  have h3 : (0xC0 : UInt8) ≤ b := UInt8.le_iff_toNat_le.mpr (show 0xC0 ≤ b.toNat by omega)
  rw [utf8Units, if_neg h1, if_pos h2]
  dsimp only
  rw [hvalue, if_pos ⟨isContinuation_of hc, h3, hlow⟩]

/-- A character of three bytes. -/
theorem utf8Units_three {b c d : UInt8} {n : Nat} (rest : Bytes)
    (hb : b.toNat = 0xE0 + n / 4096) (hc : c.toNat = 0x80 + n / 64 % 64)
    (hd : d.toNat = 0x80 + n % 64) (hlow : 0x800 ≤ n) (hhigh : n < 0x10000)
    (hsurrogate : n < 0xD800 ∨ 0xE000 ≤ n) :
    utf8Units (b :: c :: d :: rest) = (utf8Units rest).map (UInt16.ofNat n :: ·) := by
  have hvalue : scalarValue (b.toNat - 0xE0) [c, d] = n := by
    unfold scalarValue
    simp only [List.foldl_cons, List.foldl_nil]
    omega
  have h1 : ¬ b < 0x80 := not_lt_of_toNat_le (show 0x80 ≤ b.toNat by omega)
  have h2 : ¬ b < 0xE0 := not_lt_of_toNat_le (show 0xE0 ≤ b.toNat by omega)
  have h3 : b < 0xF0 := UInt8.lt_iff_toNat_lt.mpr (show b.toNat < 0xF0 by omega)
  have hcont : (isContinuation c && isContinuation d) = true :=
    Bool.and_eq_true_iff.mpr ⟨isContinuation_of hc, isContinuation_of hd⟩
  rw [utf8Units, if_neg h1, if_neg h2, if_pos h3]
  dsimp only
  rw [hvalue, if_pos ⟨hcont, hlow, hsurrogate⟩]

/-- A character of four bytes. -/
theorem utf8Units_four {b c d e : UInt8} {n : Nat} (rest : Bytes)
    (hb : b.toNat = 0xF0 + n / 262144) (hc : c.toNat = 0x80 + n / 4096 % 64)
    (hd : d.toNat = 0x80 + n / 64 % 64) (he : e.toNat = 0x80 + n % 64) (hlow : 0x10000 ≤ n)
    (hhigh : n < 0x110000) :
    utf8Units (b :: c :: d :: e :: rest) = (utf8Units rest).map fun t =>
      UInt16.ofNat (0xD800 + (n - 0x10000) / 1024) ::
        UInt16.ofNat (0xDC00 + (n - 0x10000) % 1024) :: t := by
  have hvalue : scalarValue (b.toNat - 0xF0) [c, d, e] = n := by
    unfold scalarValue
    simp only [List.foldl_cons, List.foldl_nil]
    omega
  have h1 : ¬ b < 0x80 := not_lt_of_toNat_le (show 0x80 ≤ b.toNat by omega)
  have h2 : ¬ b < 0xE0 := not_lt_of_toNat_le (show 0xE0 ≤ b.toNat by omega)
  have h3 : ¬ b < 0xF0 := not_lt_of_toNat_le (show 0xF0 ≤ b.toNat by omega)
  have hcont : (isContinuation c && isContinuation d && isContinuation e) = true := by
    rw [isContinuation_of hc, isContinuation_of hd, isContinuation_of he]
    rfl
  rw [utf8Units, if_neg h1, if_neg h2, if_neg h3]
  dsimp only
  rw [hvalue, if_pos ⟨hcont, hlow, hhigh⟩]

/-- What a code unit outside the pairs is encoded as is decoded to it. -/
theorem utf8Units_unit {c : UInt16} (hc : isSurrogate c = false) (rest : Bytes) :
    utf8Units (utf8Unit c ++ rest) = (utf8Units rest).map (c :: ·) := by
  have hsurrogate : ¬ (0xD800 ≤ c.toNat ∧ c.toNat < 0xE000) := by
    rw [← isSurrogate_iff, hc]
    decide
  have hlt := c.toNat_lt
  unfold utf8Unit
  split
  · rename_i h
    have hc : c.toNat < 0x80 := UInt16.lt_iff_toNat_lt.mp h
    have hb : c.toUInt8.toNat = c.toNat := by
      rw [UInt16.toNat_toUInt8]
      omega
    have hback : c.toUInt8.toUInt16 = c := by
      rw [← UInt16.toNat_inj, UInt8.toNat_toUInt16, hb]
    rw [List.singleton_append, utf8Units_one rest (by omega), hback]
  · rename_i h1
    have h1' : 0x80 ≤ c.toNat := UInt16.le_iff_toNat_le.mp (UInt16.not_lt.mp h1)
    have hlow := toNat_continuation (x := (c &&& 0x3F).toUInt8)
      (by rw [toNat_low6]; exact Nat.mod_lt _ (by decide))
    rw [toNat_low6] at hlow
    split
    · rename_i h2
      have h2' : c.toNat < 0x800 := UInt16.lt_iff_toNat_lt.mp h2
      have hshift : (c >>> 6).toUInt8.toNat = c.toNat / 64 :=
        toNat_shift c (k := 6) (show c.toNat / 64 < 256 by omega)
      have hlead : ((0xC0 : UInt8) ||| (c >>> 6).toUInt8).toNat = 0xC0 + c.toNat / 64 := by
        rw [← hshift]
        exact toNat_or_of_lt (a := 3) (k := 6) rfl (by rw [hshift]; omega)
      rw [List.cons_append, List.singleton_append, utf8Units_two rest hlead hlow h1' h2',
        UInt16.ofNat_toNat]
    · rename_i h2
      have h2' : 0x800 ≤ c.toNat := UInt16.le_iff_toNat_le.mp (UInt16.not_lt.mp h2)
      have hno : ¬ (0xD800 ≤ c ∧ c < 0xE000) := fun h =>
        hsurrogate ⟨UInt16.le_iff_toNat_le.mp h.1, UInt16.lt_iff_toNat_lt.mp h.2⟩
      have hshift : (c >>> 12).toUInt8.toNat = c.toNat / 4096 :=
        toNat_shift c (k := 12) (show c.toNat / 4096 < 256 by omega)
      have hlead : ((0xE0 : UInt8) ||| (c >>> 12).toUInt8).toNat = 0xE0 + c.toNat / 4096 := by
        rw [← hshift]
        exact toNat_or_of_lt (a := 14) (k := 4) rfl (by rw [hshift]; omega)
      have hmid := toNat_continuation (x := ((c >>> 6) &&& 0x3F).toUInt8)
        (by rw [toNat_mid6]; exact Nat.mod_lt _ (by decide))
      rw [toNat_mid6] at hmid
      rw [if_neg hno, List.cons_append, List.cons_append, List.singleton_append,
        utf8Units_three rest hlead hmid hlow h2' hlt (by omega), UInt16.ofNat_toNat]

/-! ## Pairs -/

theorem toNat_codePoint (c d : UInt16) :
    (codePoint c d).toNat = 0x10000 + (c.toNat % 1024 * 1024 + d.toNat % 1024) := by
  have hand : ∀ c : UInt16, (c &&& 0x3FF).toUInt32.toNat = c.toNat % 1024 := fun c => by
    rw [UInt16.toNat_toUInt32, UInt16.toNat_and]
    exact Nat.and_two_pow_sub_one_eq_mod c.toNat 10
  have hc := Nat.mod_lt c.toNat (show 0 < 1024 by decide)
  have hd := Nat.mod_lt d.toNat (show 0 < 1024 by decide)
  have hshift : ((c &&& 0x3FF).toUInt32 <<< 10).toNat = 2 ^ 10 * (c.toNat % 1024) := by
    rw [UInt32.toNat_shiftLeft, hand, Nat.shiftLeft_eq]
    change c.toNat % 1024 * 2 ^ 10 % 2 ^ 32 = _
    omega
  have hor : (((c &&& 0x3FF).toUInt32 <<< 10) ||| (d &&& 0x3FF).toUInt32).toNat =
      2 ^ 10 * (c.toNat % 1024) + d.toNat % 1024 := by
    rw [UInt32.toNat_or, hshift, hand]
    exact (Nat.two_pow_add_eq_or_of_lt (i := 10) hd _).symm
  unfold codePoint
  rw [UInt32.toNat_add, hor]
  change (0x10000 + _) % 2 ^ 32 = _
  omega

theorem utf8Units_pair {c d : UInt16} (h : IsPair c d) (rest : Bytes) :
    utf8Units (utf8Pair c d ++ rest) = (utf8Units rest).map fun t => c :: d :: t := by
  have hc1 : 0xD800 ≤ c.toNat := UInt16.le_iff_toNat_le.mp h.1
  have hc2 : c.toNat < 0xDC00 := UInt16.lt_iff_toNat_lt.mp h.2.1
  have hd1 : 0xDC00 ≤ d.toNat := UInt16.le_iff_toNat_le.mp h.2.2.1
  have hd2 : d.toNat < 0xE000 := UInt16.lt_iff_toNat_lt.mp h.2.2.2
  have hn := toNat_codePoint c d
  have hsix : ∀ x : UInt32, (x &&& 0x3F).toUInt8.toNat = x.toNat % 64 := fun x => by
    have hand : (x &&& 0x3F).toNat = x.toNat % 64 := by
      rw [UInt32.toNat_and]
      exact Nat.and_two_pow_sub_one_eq_mod x.toNat 6
    rw [UInt32.toNat_toUInt8, hand]
    omega
  have hmid : ∀ x : UInt32, ((0x80 : UInt8) ||| (x &&& 0x3F).toUInt8).toNat =
      0x80 + x.toNat % 64 := fun x => by
    rw [toNat_continuation (by rw [hsix]; exact Nat.mod_lt _ (by decide)), hsix]
  have h18 : (codePoint c d >>> 18).toNat = (codePoint c d).toNat / 262144 := by
    rw [UInt32.toNat_shiftRight, Nat.shiftRight_eq_div_pow]
    rfl
  have h12 : (codePoint c d >>> 12).toNat = (codePoint c d).toNat / 4096 := by
    rw [UInt32.toNat_shiftRight, Nat.shiftRight_eq_div_pow]
    rfl
  have h6 : (codePoint c d >>> 6).toNat = (codePoint c d).toNat / 64 := by
    rw [UInt32.toNat_shiftRight, Nat.shiftRight_eq_div_pow]
    rfl
  have htop : (codePoint c d >>> 18).toUInt8.toNat = (codePoint c d).toNat / 262144 := by
    rw [UInt32.toNat_toUInt8, h18]
    omega
  have hlead : ((0xF0 : UInt8) ||| (codePoint c d >>> 18).toUInt8).toNat =
      0xF0 + (codePoint c d).toNat / 262144 := by
    rw [← htop]
    exact toNat_or_of_lt (a := 30) (k := 3) rfl (by rw [htop]; omega)
  have hb2 := hmid (codePoint c d >>> 12)
  have hb3 := hmid (codePoint c d >>> 6)
  rw [h12] at hb2
  rw [h6] at hb3
  have hfour := utf8Units_four rest hlead hb2 hb3 (hmid (codePoint c d)) (by omega) (by omega)
  have hhigh : UInt16.ofNat (0xD800 + ((codePoint c d).toNat - 0x10000) / 1024) = c := by
    rw [← UInt16.toNat_inj, UInt16.toNat_ofNat']
    omega
  have hlow : UInt16.ofNat (0xDC00 + ((codePoint c d).toNat - 0x10000) % 1024) = d := by
    rw [← UInt16.toNat_inj, UInt16.toNat_ofNat']
    omega
  rw [hhigh, hlow] at hfour
  exact hfour

theorem not_isPair {c d : UInt16} (hc : isSurrogate c = false) : ¬ IsPair c d := by
  intro h
  have hsurrogate : isSurrogate c = true :=
    isSurrogate_iff.mpr ⟨UInt16.le_iff_toNat_le.mp h.1,
      Nat.lt_trans (UInt16.lt_iff_toNat_lt.mp h.2.1) (by decide)⟩
  rw [hc] at hsurrogate
  cases hsurrogate

theorem isWellFormed_cons {c : UInt16} {t : Text} (hc : isSurrogate c = false)
    (ht : isWellFormed t = true) : isWellFormed (c :: t) = true := by
  cases t with
  | nil => rw [isWellFormed, hc]; rfl
  | cons d rest =>
    rw [isWellFormed, if_neg (not_isPair hc), hc, ht]
    rfl

/-- Decoding gives back what was encoded, if it was well formed. -/
theorem utf8Units_utf8 {t : Text} (ht : isWellFormed t = true) : utf8Units (utf8 t) = some t := by
  fun_induction utf8 t with
  | case1 => rfl
  | case2 c =>
    have hc : isSurrogate c = false := by simpa [isWellFormed] using ht
    have hunit := utf8Units_unit hc []
    rw [List.append_nil] at hunit
    exact hunit
  | case3 c d rest hpair ih =>
    rw [isWellFormed, if_pos hpair] at ht
    rw [utf8Units_pair hpair, ih ht]
    rfl
  | case4 c d rest hpair ih =>
    rw [isWellFormed, if_neg hpair, Bool.and_eq_true_iff] at ht
    have hc : isSurrogate c = false := by simpa using ht.1
    rw [utf8Units_unit hc, ih ht.2]
    rfl

/-- Nothing that is well formed takes part in a pair with what comes after. -/
theorem utf8_append {t : Text} (ht : isWellFormed t = true) (u : Text) :
    utf8 (t ++ u) = utf8 t ++ utf8 u := by
  fun_induction utf8 t with
  | case1 => rfl
  | case2 c =>
    have hc : isSurrogate c = false := by simpa [isWellFormed] using ht
    cases u with
    | nil => exact (List.append_nil _).symm
    | cons d rest => exact (utf8.eq_3 c d rest).trans (if_neg (not_isPair hc))
  | case3 c d rest hpair ih =>
    rw [isWellFormed, if_pos hpair] at ht
    rw [List.cons_append, List.cons_append, utf8, if_pos hpair, ih ht, List.append_assoc]
  | case4 c d rest hpair ih =>
    rw [isWellFormed, if_neg hpair, Bool.and_eq_true_iff] at ht
    rw [List.cons_append, List.cons_append, utf8, if_neg hpair, ← List.cons_append, ih ht.2,
      List.append_assoc]

theorem isWellFormed_append {t u : Text} (ht : isWellFormed t = true)
    (hu : isWellFormed u = true) : isWellFormed (t ++ u) = true := by
  fun_induction utf8 t with
  | case1 => exact hu
  | case2 c =>
    have hc : isSurrogate c = false := by simpa [isWellFormed] using ht
    exact isWellFormed_cons hc hu
  | case3 c d rest hpair ih =>
    rw [isWellFormed, if_pos hpair] at ht
    rw [List.cons_append, List.cons_append, isWellFormed, if_pos hpair]
    exact ih ht
  | case4 c d rest hpair ih =>
    rw [isWellFormed, if_neg hpair, Bool.and_eq_true_iff] at ht
    rw [List.cons_append, List.cons_append, isWellFormed, if_neg hpair, ht.1]
    exact ih ht.2

/-- A mark at the start is lost. -/
theorem utf8Decode_utf8 {t : Text} (ht : isWellFormed t = true) :
    utf8Decode (utf8 t) = some (if t.head? = some BOM then t.tail else t) := by
  unfold utf8Decode
  rw [utf8Units_utf8 ht]
  rfl

/-! ## What comes out of decoding -/

theorem isSurrogate_ofNat {n : Nat} (hn : n < 0x10000) (h : n < 0xD800 ∨ 0xE000 ≤ n) :
    isSurrogate (UInt16.ofNat n) = false := by
  rw [← Bool.not_eq_true, isSurrogate_iff, UInt16.toNat_ofNat', Nat.mod_eq_of_lt hn]
  omega

/-- What is decoded is well formed. -/
theorem isWellFormed_of_utf8Units {b : Bytes} {t : Text} (h : utf8Units b = some t) :
    isWellFormed t = true := by
  fun_induction utf8Units b generalizing t with
  | case1 =>
    obtain rfl := Option.some.inj h
    rfl
  | case2 b rest hb ih =>
    obtain ⟨t', ht', rfl⟩ := Option.map_eq_some_iff.mp h
    refine isWellFormed_cons ?_ (ih ht')
    have hlt := UInt8.lt_iff_toNat_lt.mp hb
    rw [← Bool.not_eq_true, isSurrogate_iff, UInt8.toNat_toUInt16]
    change b.toNat < 0x80 at hlt
    omega
  | case4 | case5 | case7 | case8 | case10 | case11 => cases h
  | case3 b _ hb c rest n hn =>
    rename_i ih
    obtain ⟨t', ht', rfl⟩ := Option.map_eq_some_iff.mp h
    have hc := isContinuation_iff.mp hn.1
    have hlt : b.toNat < 0xE0 := UInt8.lt_iff_toNat_lt.mp hb
    have hvalue : n = (b.toNat - 0xC0) * 64 + (c.toNat - 0x80) := rfl
    exact isWellFormed_cons (isSurrogate_ofNat (by omega) (by omega)) (ih ht')
  | case6 b _ _ hb c d rest n hn =>
    rename_i ih
    obtain ⟨t', ht', rfl⟩ := Option.map_eq_some_iff.mp h
    obtain ⟨hc, hd⟩ := Bool.and_eq_true_iff.mp hn.1
    have hc := isContinuation_iff.mp hc
    have hd := isContinuation_iff.mp hd
    have hlt : b.toNat < 0xF0 := UInt8.lt_iff_toNat_lt.mp hb
    have hvalue : n = ((b.toNat - 0xE0) * 64 + (c.toNat - 0x80)) * 64 + (d.toNat - 0x80) := rfl
    exact isWellFormed_cons (isSurrogate_ofNat (by omega) hn.2.2) (ih ht')
  | case9 b _ _ _ c d e rest n hn =>
    rename_i ih
    obtain ⟨t', ht', rfl⟩ := Option.map_eq_some_iff.mp h
    have hhigh : (UInt16.ofNat (0xD800 + (n - 0x10000) / 1024)).toNat =
        0xD800 + (n - 0x10000) / 1024 := by
      rw [UInt16.toNat_ofNat']
      omega
    have hlow : (UInt16.ofNat (0xDC00 + (n - 0x10000) % 1024)).toNat =
        0xDC00 + (n - 0x10000) % 1024 := by
      rw [UInt16.toNat_ofNat']
      omega
    have hpair : IsPair (UInt16.ofNat (0xD800 + (n - 0x10000) / 1024))
        (UInt16.ofNat (0xDC00 + (n - 0x10000) % 1024)) := by
      refine ⟨UInt16.le_iff_toNat_le.mpr ?_, UInt16.lt_iff_toNat_lt.mpr ?_,
        UInt16.le_iff_toNat_le.mpr ?_, UInt16.lt_iff_toNat_lt.mpr ?_⟩
      · rw [hhigh]
        exact Nat.le_add_right _ _
      · rw [hhigh]
        change _ < 0xDC00
        omega
      · rw [hlow]
        exact Nat.le_add_right _ _
      · rw [hlow]
        change _ < 0xE000
        omega
    rw [isWellFormed, if_pos hpair]
    exact ih ht'

theorem isWellFormed_of_cons {c : UInt16} {t : Text} (hc : isSurrogate c = false)
    (ht : isWellFormed (c :: t) = true) : isWellFormed t = true := by
  cases t with
  | nil => rfl
  | cons d rest =>
    rw [isWellFormed, if_neg (not_isPair hc), Bool.and_eq_true_iff] at ht
    exact ht.2

/-- The texts that come back from encoding and decoding. -/
theorem utf8Decode_utf8_iff {t : Text} :
    utf8Decode (utf8 t) = some t ↔ isWellFormed t = true ∧ t.head? ≠ some BOM := by
  constructor
  · intro h
    obtain ⟨t', ht', heq⟩ := Option.map_eq_some_iff.mp h
    have hwf' := isWellFormed_of_utf8Units ht'
    have hwf : isWellFormed t = true := by
      split at heq
      · rename_i hbom
        obtain ⟨rest, rfl⟩ := List.head?_eq_some_iff.mp hbom
        rw [← heq]
        exact isWellFormed_of_cons (by decide) hwf'
      · exact heq ▸ hwf'
    refine ⟨hwf, fun hbom => ?_⟩
    rw [utf8Decode_utf8 hwf, if_pos hbom] at h
    obtain ⟨rest, rfl⟩ := List.head?_eq_some_iff.mp hbom
    exact List.cons_ne_self BOM rest (Option.some.inj h).symm
  · rintro ⟨hwf, hbom⟩
    rw [utf8Decode_utf8 hwf, if_neg hbom]

example : utf8Decode (utf8 [0x41, 0xE9, 0x20AC, 0xD83D, 0xDE00]) =
    some [0x41, 0xE9, 0x20AC, 0xD83D, 0xDE00] := by decide

end ZiaCrypte.Inbox
