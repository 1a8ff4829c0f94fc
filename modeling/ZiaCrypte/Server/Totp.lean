import ZiaCrypte.Server.TwoFactor
import ZiaCrypte.Lib.Bits
import Mathlib.Data.Nat.Bitwise
import Mathlib.Tactic.Conv

/-!
# `totp.ts` against RFC 4648 and RFC 6238

The accumulators of `base32Encode` and `base32Decode` are never masked, and their upper bits
are lost on long inputs; only the bits that still wait in them are read.
-/
namespace ZiaCrypte.Server

open ZiaCrypte.Lib

/-! ## The standards -/

def byteBits (data : List UInt8) : List Bool := data.flatMap fun byte => bits 8 byte.toNat

def symbol (n : Nat) : Char := B32_ALPHABET.getD n 'A'

/-- Base32 without padding: groups of five bits, the last filled up with zeros. -/
def base32Of (l : List Bool) : Chars :=
  (chunks 5 l).map fun group => symbol (ofBits (group.rightpad 5 false))

def rfc4648Base32 (data : List UInt8) : Chars := base32Of (byteBits data)

/-! ## What waits in the accumulator -/

/-- The bits that wait are the lowest of the word. -/
def Waits (value : UInt32) (p : List Bool) : Prop := value.toNat % 2 ^ p.length = ofBits p

variable {value : UInt32} {p q : List Bool}

theorem waits_nil (value : UInt32) : Waits value [] := Nat.mod_one _

/-- Pushing bits loses none that wait, as long as the word has room for them. -/
theorem Waits.push (h : Waits value p) {k x : UInt32} (hx : x.toNat < 2 ^ k.toNat)
    (hk : k.toNat < 32) (hroom : p.length + k.toNat ≤ 32) :
    Waits ((value <<< k) ||| x) (p ++ bits k.toNat x.toNat) := by
  have hshift : (value <<< k).toNat = 2 ^ k.toNat * (value.toNat % 2 ^ (32 - k.toNat)) := by
    have hpow : 2 ^ 32 = 2 ^ k.toNat * 2 ^ (32 - k.toNat) := by
      rw [← Nat.pow_add]
      congr 1
      omega
    rw [UInt32.toNat_shiftLeft, Nat.mod_eq_of_lt hk, Nat.shiftLeft_eq, Nat.mul_comm, hpow,
      Nat.mul_mod_mul_left]
  have hor : ((value <<< k) ||| x).toNat =
      2 ^ k.toNat * (value.toNat % 2 ^ (32 - k.toNat)) + x.toNat := by
    rw [UInt32.toNat_or, hshift]
    exact (Nat.two_pow_add_eq_or_of_lt hx _).symm
  have hmod : value.toNat % 2 ^ (32 - k.toNat) % 2 ^ p.length = ofBits p := by
    rw [Nat.mod_mod_of_dvd _ (Nat.pow_dvd_pow 2 (by omega))]
    exact h
  unfold Waits
  rw [hor, ofBits_append, ofBits_bits, Nat.mod_eq_of_lt hx, List.length_append, length_bits,
    Nat.add_comm p.length, Nat.pow_add, Nat.mod_mul, Nat.mul_add_mod, Nat.mod_eq_of_lt hx,
    Nat.mul_add_div (Nat.two_pow_pos _), Nat.div_eq_of_lt hx, Nat.add_zero, hmod]
  exact (Nat.add_comm _ _).trans (by rw [Nat.mul_comm])

/-- The bits on top of the others are read by a shift. -/
theorem Waits.top (h : Waits value (p ++ q)) (hq : q.length < 32) :
    (value >>> q.length.toUInt32).toNat % 2 ^ p.length = ofBits p := by
  have hk : q.length.toUInt32.toNat % 32 = q.length := by
    rw [Nat.toUInt32_eq, UInt32.toNat_ofNat']
    omega
  have h : value.toNat % 2 ^ (p ++ q).length = ofBits (p ++ q) := h
  rw [List.length_append, ofBits_append, Nat.add_comm, Nat.pow_add] at h
  rw [UInt32.toNat_shiftRight, hk, Nat.shiftRight_eq_div_pow, ← Nat.mod_mul_right_div_self, h,
    Nat.mul_comm, Nat.mul_add_div (Nat.two_pow_pos _), Nat.div_eq_of_lt (ofBits_lt q), Nat.add_zero]

theorem Waits.rest (h : Waits value (p ++ q)) : Waits value q := by
  have h : value.toNat % 2 ^ (p ++ q).length = ofBits (p ++ q) := h
  have hdvd : 2 ^ q.length ∣ 2 ^ (p ++ q).length :=
    Nat.pow_dvd_pow 2 (by rw [List.length_append]; omega)
  unfold Waits
  rw [← Nat.mod_mod_of_dvd _ hdvd, h, ofBits_append, Nat.mul_comm, Nat.mul_add_mod,
    Nat.mod_eq_of_lt (ofBits_lt q)]

theorem toNat_and_31 (x : UInt32) : (x &&& 31).toNat = x.toNat % 2 ^ 5 := by
  rw [UInt32.toNat_and]
  exact Nat.and_two_pow_sub_one_eq_mod x.toNat 5

/-! ## Encoding -/

theorem base32Of_append {g : List Bool} (hg : g.length = 5) (l : List Bool) :
    base32Of (g ++ l) = symbol (ofBits g) :: base32Of l := by
  have hpad : g.rightpad 5 false = g := by
    unfold List.rightpad
    rw [hg]
    exact List.append_nil g
  unfold base32Of
  rw [chunks_append (by decide) hg, List.map_cons, hpad]

/-- The inner loop takes the groups that are full. -/
theorem base32Emit_spec {n : Nat} (hp : p.length = n) (hn : n < 32) (h : Waits value p) :
    ∃ q, q.length = (base32Emit value n).2 ∧ q.length < 5 ∧ Waits value q ∧
      ∀ l, base32Of (p ++ l) = (base32Emit value n).1 ++ base32Of (q ++ l) := by
  fun_induction base32Emit value n generalizing p with
  | case1 n out left heq ih =>
    have hsplit := (List.take_append_drop 5 p).symm
    have hg : (p.take 5).length = 5 := List.length_take_of_le (by omega)
    have hq : (p.drop 5).length = n := by rw [List.length_drop]; omega
    rw [hsplit] at h
    obtain ⟨q, hleft, hlt, hwaits, hall⟩ := ih hq (by omega) h.rest
    refine ⟨q, by rw [hleft, heq], hlt, hwaits, fun l => ?_⟩
    have htop := h.top (by omega)
    rw [hq, hg] at htop
    rw [hsplit, List.append_assoc, base32Of_append hg, hall, heq, toNat_and_31, htop]
    rfl
  | case2 n hsmall =>
    have hlt : n < 5 := by
      by_contra hle
      obtain ⟨m, hm⟩ := Nat.exists_eq_add_of_le' (Nat.le_of_not_lt hle)
      exact hsmall m hm
    exact ⟨p, hp, by omega, h, fun l => rfl⟩

theorem bits_zero (w : Nat) : bits w 0 = List.replicate w false := by
  induction w with
  | zero => rfl
  | succ w ih => rw [bits, ih, Nat.zero_testBit, List.replicate_succ]

/-- The bits that wait and those of the bytes to come make the rest of the text. -/
theorem base32EncodeFrom_spec {n : Nat} (data : List UInt8) (hp : p.length = n) (hn : n < 5)
    (h : Waits value p) : base32EncodeFrom value n data = base32Of (p ++ byteBits data) := by
  induction data generalizing value p n with
  | nil =>
    have hnil : byteBits [] = [] := rfl
    rw [base32EncodeFrom, hnil, List.append_nil]
    split
    · rename_i hpos
      -- The last group is pushed to the left by zeros.
      have hk : (5 - n).toUInt32.toNat = 5 - n := by
        rw [Nat.toUInt32_eq, UInt32.toNat_ofNat']
        omega
      have hpush := h.push (k := (5 - n).toUInt32) (x := 0) (Nat.two_pow_pos _) (by omega)
        (by omega)
      rw [UInt32.or_zero, hk] at hpush
      have hlast : (value <<< (5 - n).toUInt32).toNat % 2 ^ 5 = ofBits (p.rightpad 5 false) := by
        have hpad : p ++ bits (5 - n) (0 : UInt32).toNat = p.rightpad 5 false := by
          rw [show (0 : UInt32).toNat = 0 from rfl, bits_zero]
          unfold List.rightpad
          rw [hp]
        have hlength : (p ++ bits (5 - n) (0 : UInt32).toNat).length = 5 := by
          rw [List.length_append, length_bits]
          omega
        have hpush : _ % _ = _ := hpush
        rw [hlength, hpad] at hpush
        exact hpush
      unfold base32Of
      rw [chunks_last (by omega) (by omega), toNat_and_31, hlast]
      rfl
    · have hempty : p = [] := List.length_eq_zero_iff.mp (by omega)
      subst hempty
      rfl
  | cons byte rest ih =>
    have hbyte : byte.toUInt32.toNat = byte.toNat := UInt8.toNat_toUInt32 byte
    have hpush := h.push (k := 8) (x := byte.toUInt32)
      (by rw [hbyte]; exact byte.toNat_lt) (by decide) (by rw [hp]; change n + 8 ≤ 32; omega)
    rw [hbyte, show (8 : UInt32).toNat = 8 from rfl] at hpush
    have hlength : (p ++ bits 8 byte.toNat).length = n + 8 := by
      rw [List.length_append, length_bits, hp]
    obtain ⟨q, hleft, hlt, hwaits, hall⟩ := base32Emit_spec hlength (by omega) hpush
    have hbits : byteBits (byte :: rest) = bits 8 byte.toNat ++ byteBits rest := rfl
    rw [hbits, ← List.append_assoc, hall, ← ih hleft (hleft ▸ hlt) hwaits]
    rfl

/-- `base32Encode` is the encoding of the standard. -/
theorem base32Encode_eq_rfc4648 (data : List UInt8) : base32Encode data = rfc4648Base32 data :=
  base32EncodeFrom_spec data rfl (by decide) (waits_nil 0)

/-! ## Decoding -/

theorem idxOf?_symbol {n : Nat} (h : n < 32) : B32_ALPHABET.idxOf? (symbol n) = some n := by
  have hall : ∀ n < 32, B32_ALPHABET.idxOf? (symbol n) = some n := by decide
  exact hall n h

def bytesOf (l : List Bool) : List UInt8 := (wholes 8 l).map fun group => UInt8.ofNat (ofBits group)

/-- The digits give the bytes that their bits fill, with those that wait before them. -/
theorem base32DecodeFrom_spec {n : Nat} {digits : List Nat} (hdigits : ∀ d ∈ digits, d < 32)
    (hp : p.length = n) (hn : n < 8) (h : Waits value p) :
    base32DecodeFrom value n (digits.map symbol) =
      some (bytesOf (p ++ digits.flatMap (bits 5))) := by
  induction digits generalizing value p n with
  | nil =>
    have hshort : bytesOf (p ++ [].flatMap (bits 5)) = [] := by
      unfold bytesOf
      rw [List.flatMap_nil, List.append_nil, wholes_short (by omega)]
      rfl
    rw [hshort]
    rfl
  | cons d digits ih =>
    have hd := hdigits d List.mem_cons_self
    have hrest : ∀ d ∈ digits, d < 32 := fun d hmem => hdigits d (List.mem_cons_of_mem _ hmem)
    have hdn : d.toUInt32.toNat = d := by
      rw [Nat.toUInt32_eq, UInt32.toNat_ofNat']
      omega
    have hpush := h.push (k := 5) (x := d.toUInt32) (by rw [hdn]; exact hd) (by decide)
      (by rw [hp]; change n + 5 ≤ 32; omega)
    rw [hdn, show (5 : UInt32).toNat = 5 from rfl] at hpush
    have hlength : (p ++ bits 5 d).length = n + 5 := by
      rw [List.length_append, length_bits, hp]
    rw [List.map_cons, base32DecodeFrom, idxOf?_symbol hd]
    simp only [Option.bind_eq_bind, Option.bind_some]
    rw [List.flatMap_cons, ← List.append_assoc]
    split
    · rename_i hfull
      have hsplit := (List.take_append_drop 8 (p ++ bits 5 d)).symm
      have hg : ((p ++ bits 5 d).take 8).length = 8 := List.length_take_of_le (by omega)
      have hq : ((p ++ bits 5 d).drop 8).length = n + 5 - 8 := by
        rw [List.length_drop, hlength]
      rw [hsplit] at hpush
      have htop := hpush.top (by omega)
      rw [hq, hg] at htop
      rw [ih hrest hq (by omega) hpush.rest, Option.bind_some]
      have hbyte : (((value <<< 5 ||| d.toUInt32) >>> (n + 5 - 8).toUInt32) &&& 0xff).toUInt8 =
          UInt8.ofNat (ofBits ((p ++ bits 5 d).take 8)) := by
        rw [← UInt8.toNat_inj, UInt32.toNat_toUInt8, UInt32.toNat_and, UInt8.toNat_ofNat',
          ← htop]
        have hmask : ∀ m, m &&& (0xff : UInt32).toNat = m % 2 ^ 8 := fun m =>
          Nat.and_two_pow_sub_one_eq_mod m 8
        rw [hmask]
      have hwhole : bytesOf ((p ++ bits 5 d) ++ digits.flatMap (bits 5)) =
          UInt8.ofNat (ofBits ((p ++ bits 5 d).take 8)) ::
            bytesOf ((p ++ bits 5 d).drop 8 ++ digits.flatMap (bits 5)) := by
        conv_lhs => rw [hsplit, List.append_assoc]
        unfold bytesOf
        rw [wholes_append (by decide) hg, List.map_cons]
      rw [hbyte, hwhole]
    · rw [ih hrest hlength (by omega) hpush]

theorem bytesOf_byteBits (data : List UInt8) {rest : List Bool} (hrest : rest.length < 8) :
    bytesOf (byteBits data ++ rest) = data := by
  induction data with
  | nil =>
    unfold bytesOf
    rw [show byteBits [] = [] from rfl, List.nil_append, wholes_short hrest]
    rfl
  | cons byte data ih =>
    have hbyte : UInt8.ofNat (ofBits (bits 8 byte.toNat)) = byte := by
      rw [ofBits_bits, Nat.mod_eq_of_lt byte.toNat_lt, UInt8.ofNat_toNat]
    have hsplit : byteBits (byte :: data) ++ rest =
        bits 8 byte.toNat ++ (byteBits data ++ rest) := List.append_assoc _ _ _
    unfold bytesOf at ih ⊢
    rw [hsplit, wholes_append (by decide) (length_bits 8 _), List.map_cons, hbyte, ih]

/-- The digits of a text that was encoded. -/
theorem base32Encode_digits (data : List UInt8) :
    ∃ digits : List Nat, ∃ zeros, base32Encode data = digits.map symbol ∧
      (∀ d ∈ digits, d < 32) ∧ zeros < 5 ∧
        digits.flatMap (bits 5) = byteBits data ++ List.replicate zeros false := by
  have hwidth : ∀ g ∈ chunks 5 (byteBits data), (g.rightpad 5 false).length = 5 := by
    intro g hg
    rw [List.length_rightpad]
    exact Nat.max_eq_left (length_of_mem_chunks hg)
  obtain ⟨zeros, hzeros, hflat⟩ := flatMap_chunks (w := 5) (by decide) (byteBits data)
  refine ⟨(chunks 5 (byteBits data)).map fun g => ofBits (g.rightpad 5 false), zeros, ?_, ?_,
    hzeros, ?_⟩
  · rw [base32Encode_eq_rfc4648, List.map_map]
    rfl
  · intro d hd
    obtain ⟨g, hg, rfl⟩ := List.mem_map.mp hd
    have hlt := ofBits_lt (g.rightpad 5 false)
    rwa [hwidth g hg] at hlt
  · rw [List.flatMap_map, ← hflat]
    refine List.flatMap_congr fun g hg => ?_
    have hback := bits_ofBits (g.rightpad 5 false)
    rwa [hwidth g hg] at hback

theorem base32DecodeFrom_encode (data : List UInt8) :
    base32DecodeFrom 0 0 (base32Encode data) = some data := by
  obtain ⟨digits, zeros, hencode, hdigits, hzeros, hbits⟩ := base32Encode_digits data
  have hdecode := base32DecodeFrom_spec hdigits (p := []) (n := 0) rfl (by decide) (waits_nil 0)
  rw [hencode, hdecode, List.nil_append, hbits,
    bytesOf_byteBits data (by rw [List.length_replicate]; omega)]

/-! ## Case, white space and padding -/

theorem toUpper_eq {c : Char} (h : ¬ ('a'.toNat ≤ c.toNat ∧ c.toNat ≤ 'z'.toNat)) :
    c.toUpper = c := by
  unfold Char.toUpper
  split
  · rename_i hlower
    exact absurd hlower h
  · rfl

/-- White space has no case. -/
theorem isSpace_toUpper (c : Char) : isSpace c.toUpper = isSpace c := by
  by_cases hlower : 'a'.toNat ≤ c.toNat ∧ c.toNat ≤ 'z'.toNat
  · have hall : ∀ n < 26, isSpace (Char.ofNat ('a'.toNat + n)).toUpper = false ∧
        isSpace (Char.ofNat ('a'.toNat + n)) = false := by decide
    obtain ⟨n, hn⟩ := Nat.exists_eq_add_of_le hlower.1
    have hc : c = Char.ofNat ('a'.toNat + n) := by rw [← hn, Char.ofNat_toNat]
    have hlt : n < 26 := by
      have hz : 'z'.toNat = 'a'.toNat + 25 := rfl
      omega
    rw [hc, (hall n hlt).1, (hall n hlt).2]
  · rw [toUpper_eq hlower]

theorem filter_map_toUpper (w : Chars) :
    (w.map Char.toUpper).filter (!isSpace ·) = (w.filter (!isSpace ·)).map Char.toUpper := by
  rw [List.filter_map]
  congr 1
  refine List.filter_congr fun c _ => ?_
  exact congrArg (!·) (isSpace_toUpper c)

/-- The padding at the end is taken off, if nothing before it is padding. -/
theorem dropWhile_padding {w : Chars} (hw : '=' ∉ w) (n : Nat) :
    ((w ++ List.replicate n '=').reverse.dropWhile (· == '=')).reverse = w := by
  have hkept : w.reverse.dropWhile (· == '=') = w.reverse := by
    cases hrev : w.reverse with
    | nil => rfl
    | cons c rest =>
      have hc : (c == '=') = false := by
        refine beq_false_of_ne fun heq => hw ?_
        rw [← heq, ← List.mem_reverse, hrev]
        exact List.mem_cons_self
      rw [List.dropWhile_cons, hc]
      rfl
  rw [List.reverse_append, List.reverse_replicate]
  induction n with
  | zero => rw [List.replicate_zero, List.nil_append, hkept, List.reverse_reverse]
  | succ n ih => exact ih

theorem symbol_ne_padding (n : Nat) : symbol n ≠ '=' := by
  unfold symbol
  rw [List.getD_eq_getElem?_getD]
  cases hget : B32_ALPHABET[n]? with
  | none => decide
  | some c =>
    rintro rfl
    exact absurd (List.mem_of_getElem? hget) (by decide)

/-- A text that is the encoding but for its case, white space and the padding behind it. -/
theorem base32Decode_of_spelling {data : List UInt8} {w : Chars}
    (hw : (w.filter (!isSpace ·)).map Char.toUpper = base32Encode data) (n : Nat) :
    base32Decode (w ++ List.replicate n '=') = some data := by
  have hpadding : '=' ∉ w.map Char.toUpper := by
    intro hmem
    have hkept : '=' ∈ (w.map Char.toUpper).filter (!isSpace ·) :=
      List.mem_filter.mpr ⟨hmem, by decide⟩
    rw [filter_map_toUpper, hw] at hkept
    obtain ⟨digits, -, hencode, -⟩ := base32Encode_digits data
    rw [hencode] at hkept
    obtain ⟨d, -, hd⟩ := List.mem_map.mp hkept
    exact symbol_ne_padding d hd
  have hupper : ('=' : Char).toUpper = '=' := by decide
  unfold base32Decode
  dsimp only
  rw [List.map_append, List.map_replicate, hupper, dropWhile_padding hpadding, filter_map_toUpper,
    hw, base32DecodeFrom_encode]

/-! ## Codes -/

/-- The decimal digits of a number, the lowest `k` of them. -/
def decimal : Nat → Nat → Chars
  | 0, _ => []
  | k + 1, n => decimal k (n / 10) ++ [Nat.digitChar (n % 10)]

/-- A number as bytes, the highest first. -/
def bigEndian : Nat → Nat → List UInt8
  | 0, _ => []
  | k + 1, n => bigEndian k (n / 256) ++ [UInt8.ofNat n]

def ofBigEndian (bytes : List UInt8) : Nat := bytes.foldl (fun n b => n * 256 + b.toNat) 0

section

variable (hmacSha1 : List UInt8 → List UInt8 → List UInt8)

/-- HOTP: the four bytes that the low bits of the last one point to, without the top bit. -/
def rfc4226Hotp (secret : List UInt8) (counter : Nat) : Chars :=
  let hs := hmacSha1 secret (bigEndian 8 counter)
  let offset := (hs.getD 19 0).toNat % 16
  decimal 6 (ofBigEndian ((hs.drop offset).take 4) % 2 ^ 31 % 10 ^ 6)

/-- The step of TOTP: 30 seconds, from the epoch on; the time is in milliseconds. -/
def rfc6238Step (now : Nat) : Nat := now / 30000

/-- The last time a `Date` can hold; up to it the divisions of the code lose no step. -/
def maxTime : Nat := 8640000000000000

end

theorem length_decimal (k n : Nat) : (decimal k n).length = k := by
  induction k generalizing n with
  | zero => rfl
  | succ k ih => rw [decimal, List.length_append, ih]; rfl

theorem decimal_zero (k : Nat) : decimal k 0 = List.replicate k '0' := by
  induction k with
  | zero => rfl
  | succ k ih =>
    rw [decimal, Nat.zero_div, ih, List.replicate_succ']
    rfl

/-- `toString().padStart(digits, '0')` -/
theorem leftpad_toDigits {k n : Nat} (hk : 0 < k) (hn : n < 10 ^ k) :
    (Nat.toDigits 10 n).leftpad k '0' = decimal k n := by
  induction k generalizing n with
  | zero => cases hk
  | succ k ih =>
    by_cases hlt : n < 10
    · rw [Nat.toDigits_of_lt_base hlt, decimal, Nat.div_eq_of_lt hlt, decimal_zero,
        Nat.mod_eq_of_lt hlt]
      rfl
    · have hk' : 0 < k := by
        rcases Nat.eq_zero_or_pos k with rfl | hpos
        · exact absurd hn hlt
        · exact hpos
      have hdiv : n / 10 < 10 ^ k := by
        rw [Nat.div_lt_iff_lt_mul (by decide)]
        rwa [Nat.pow_succ] at hn
      rw [Nat.toDigits_of_base_le (by decide) (Nat.le_of_not_lt hlt), decimal, ← ih hk' hdiv]
      unfold List.leftpad
      rw [List.length_append, List.length_singleton, Nat.add_sub_add_right, List.append_assoc]

theorem isDigit_decimal (k n : Nat) : (decimal k n).all Char.isDigit = true := by
  induction k generalizing n with
  | zero => rfl
  | succ k ih =>
    have hall : ∀ d < 10, (Nat.digitChar d).isDigit = true := by decide
    rw [decimal, List.all_append, ih, List.all_cons, List.all_nil,
      hall (n % 10) (Nat.mod_lt _ (by decide))]
    rfl

theorem uint32BE_eq (n : Nat) : uint32BE n = bigEndian 4 n := by
  unfold uint32BE
  simp only [bigEndian, Nat.shiftRight_eq_div_pow, Nat.div_div_eq_div_mul, List.nil_append,
    List.cons_append]

theorem uint32BE_mod (n : Nat) : uint32BE (n % 2 ^ 32) = uint32BE n := by
  have hbyte : ∀ k, k ≤ 24 → ((n % 2 ^ 32) >>> k).toUInt8 = (n >>> k).toUInt8 := by
    intro k hk
    rw [← UInt8.toNat_inj, Nat.toUInt8_eq, Nat.toUInt8_eq, UInt8.toNat_ofNat', UInt8.toNat_ofNat',
      Nat.shiftRight_eq_div_pow, Nat.shiftRight_eq_div_pow]
    have hpow : 2 ^ 32 = 2 ^ k * 2 ^ (32 - k) := by
      rw [← Nat.pow_add]
      congr 1
      omega
    rw [hpow, Nat.mod_mul_right_div_self, Nat.mod_mod_of_dvd _ (Nat.pow_dvd_pow 2 (by omega))]
  unfold uint32BE
  rw [hbyte 24 (by decide), hbyte 16 (by decide), hbyte 8 (by decide)]
  have hlow := hbyte 0 (by decide)
  simp only [Nat.shiftRight_zero] at hlow
  rw [hlow]

/-- The two halves of the counter are its eight bytes. -/
theorem counterBytes_eq {counter : Nat} (h : counter < 2 ^ 64) :
    counterBytes counter = some (bigEndian 8 counter) := by
  have hhigh : (counter : Int) / 2 ^ 32 = ((counter / 2 ^ 32 : Nat) : Int) := by norm_cast
  have hlow : (counter : Int) % 2 ^ 32 = ((counter % 2 ^ 32 : Nat) : Int) := by norm_cast
  have hfits : 0 ≤ ((counter / 2 ^ 32 : Nat) : Int) ∧
      ((counter / 2 ^ 32 : Nat) : Int) < 2 ^ 32 := by
    omega
  have hbytes : bigEndian 8 counter = bigEndian 4 (counter / 2 ^ 32) ++ bigEndian 4 counter := by
    simp only [bigEndian, Nat.div_div_eq_div_mul, List.nil_append, List.cons_append]
    rfl
  unfold counterBytes
  dsimp only
  rw [hhigh, hlow, if_pos hfits, Int.toNat_natCast, Int.toNat_natCast, uint32BE_mod, hbytes,
    uint32BE_eq, uint32BE_eq]

theorem or_eq_add {k x y : Nat} (hx : 2 ^ k ∣ x) (hy : y < 2 ^ k) : x ||| y = x + y := by
  obtain ⟨m, rfl⟩ := hx
  exact (Nat.two_pow_add_eq_or_of_lt hy m).symm

theorem word_eq {a b c d : Nat} (hb : b < 256) (hc : c < 256) (hd : d < 256) :
    (a &&& 0x7f) <<< 24 ||| b <<< 16 ||| c <<< 8 ||| d =
      (((a * 256 + b) * 256 + c) * 256 + d) % 2 ^ 31 := by
  have htop : a &&& 0x7f = a % 128 := Nat.and_two_pow_sub_one_eq_mod a 7
  have h1 : a % 128 * 2 ^ 24 ||| b * 2 ^ 16 = a % 128 * 2 ^ 24 + b * 2 ^ 16 :=
    or_eq_add (Nat.dvd_mul_left _ _) (by omega)
  have h2 : a % 128 * 2 ^ 24 + b * 2 ^ 16 ||| c * 2 ^ 8 =
      a % 128 * 2 ^ 24 + b * 2 ^ 16 + c * 2 ^ 8 :=
    or_eq_add (k := 16) (by omega) (by omega)
  have h3 : a % 128 * 2 ^ 24 + b * 2 ^ 16 + c * 2 ^ 8 ||| d =
      a % 128 * 2 ^ 24 + b * 2 ^ 16 + c * 2 ^ 8 + d :=
    or_eq_add (k := 8) (by omega) (by omega)
  rw [htop, Nat.shiftLeft_eq, Nat.shiftLeft_eq, Nat.shiftLeft_eq, h1, h2, h3]
  omega

/-- Four bytes from an offset of the digest on, as one number without its top bit. -/
theorem truncation {hs : List UInt8} {offset : Nat} (h : offset + 4 ≤ hs.length) :
    ((hs.getD offset 0).toNat &&& 0x7f) <<< 24 ||| (hs.getD (offset + 1) 0).toNat <<< 16 |||
        (hs.getD (offset + 2) 0).toNat <<< 8 ||| (hs.getD (offset + 3) 0).toNat =
      ofBigEndian ((hs.drop offset).take 4) % 2 ^ 31 := by
  have htake : (hs.drop offset).take 4 = [hs.getD offset 0, hs.getD (offset + 1) 0,
      hs.getD (offset + 2) 0, hs.getD (offset + 3) 0] := by
    rw [List.drop_eq_getElem_cons (by omega), List.drop_eq_getElem_cons (by omega),
      List.drop_eq_getElem_cons (by omega), List.drop_eq_getElem_cons (by omega),
      List.getD_eq_getElem hs 0 (by omega), List.getD_eq_getElem hs 0 (by omega),
      List.getD_eq_getElem hs 0 (by omega), List.getD_eq_getElem hs 0 (by omega)]
    rfl
  rw [htake, word_eq (UInt8.toNat_lt _) (UInt8.toNat_lt _) (UInt8.toNat_lt _)]
  unfold ofBigEndian
  simp only [List.foldl_cons, List.foldl_nil, Nat.zero_mul, Nat.zero_add]

section

variable {hmacSha1 : List UInt8 → List UInt8 → List UInt8}

theorem hotp_eq_rfc4226 (hlength : ∀ key message, (hmacSha1 key message).length = 20)
    (secret : List UInt8) {counter : Nat} (h : counter < 2 ^ 64) :
    hotp hmacSha1 secret counter = some (rfc4226Hotp hmacSha1 secret counter) := by
  have hlast : (hmacSha1 secret (bigEndian 8 counter)).getLast?.getD 0 =
      (hmacSha1 secret (bigEndian 8 counter)).getD 19 0 := by
    rw [List.getLast?_eq_getElem?, hlength, List.getD_eq_getElem?_getD]
  have hoffset : ∀ b : UInt8, (b &&& 0x0f).toNat = b.toNat % 16 := fun b => by
    rw [UInt8.toNat_and]
    exact Nat.and_two_pow_sub_one_eq_mod b.toNat 4
  unfold hotp
  rw [counterBytes_eq h, Option.bind_eq_bind, Option.bind_some]
  dsimp only
  rw [hlast, hoffset, truncation (by rw [hlength]; omega),
    leftpad_toDigits (by decide) (Nat.mod_lt _ (by decide))]
  rfl

/-- A window that does not throw accepts what is one of its codes. -/
theorem anyHotp_eq {secret : List UInt8} {cleaned : Chars} {counters : List Int}
    (code : Int → Chars) (h : ∀ c ∈ counters, hotp hmacSha1 secret c = some (code c)) :
    anyHotp hmacSha1 secret cleaned counters = some (decide (cleaned ∈ counters.map code)) := by
  induction counters with
  | nil => rfl
  | cons c counters ih =>
    rw [anyHotp, h c List.mem_cons_self, Option.bind_eq_bind, Option.bind_some,
      ih fun c hc => h c (List.mem_cons_of_mem _ hc), List.map_cons]
    by_cases hc : code c = cleaned
    · rw [if_pos hc, decide_eq_true (hc ▸ List.mem_cons_self)]
    · rw [if_neg hc]
      congr 1
      rw [decide_eq_decide, List.mem_cons, or_iff_right (Ne.symm hc)]

/-- The codes of the step, of the one before and of the one after. -/
def totpWindow (hmacSha1 : List UInt8 → List UInt8 → List UInt8) (secret : List UInt8)
    (now : Nat) : List Chars :=
  [rfc4226Hotp hmacSha1 secret (rfc6238Step now - 1), rfc4226Hotp hmacSha1 secret (rfc6238Step now),
    rfc4226Hotp hmacSha1 secret (rfc6238Step now + 1)]

/-- The text of a secret that was generated is one of its spellings. -/
theorem base32Decode_encode (data : List UInt8) : base32Decode (base32Encode data) = some data := by
  have hsymbol : ∀ d < 32, (!isSpace (symbol d)) = true ∧ (symbol d).toUpper = symbol d := by
    decide
  obtain ⟨digits, -, hencode, hdigits, -⟩ := base32Encode_digits data
  have hself : ((base32Encode data).filter (!isSpace ·)).map Char.toUpper = base32Encode data := by
    have hfilter : (digits.map symbol).filter (!isSpace ·) = digits.map symbol := by
      rw [List.filter_eq_self]
      intro c hc
      obtain ⟨d, hd, rfl⟩ := List.mem_map.mp hc
      exact (hsymbol d (hdigits d hd)).1
    rw [hencode, hfilter, List.map_map]
    exact List.map_congr_left fun d hd => (hsymbol d (hdigits d hd)).2
  have h := base32Decode_of_spelling hself 0
  rwa [List.replicate_zero, List.append_nil] at h

theorem verifyTotp_eq (hlength : ∀ key message, (hmacSha1 key message).length = 20)
    (random : List UInt8) (code : Chars) {now : Nat} (hfirst : 30000 ≤ now)
    (hlast : now ≤ maxTime) :
    verifyTotp hmacSha1 (base32Encode random) code now =
      some (decide (code.filter (!isSpace ·) ∈ totpWindow hmacSha1 random now)) := by
  unfold verifyTotp
  dsimp only
  split
  · have hstep : now / 1000 / PERIOD_SECONDS = rfc6238Step now := Nat.div_div_eq_div_mul _ _ _
    have hpos : 1 ≤ rfc6238Step now := (Nat.le_div_iff_mul_le (by decide)).mpr hfirst
    have hbound : rfc6238Step now + 1 < 2 ^ 64 := by
      have hle : rfc6238Step now ≤ now := Nat.div_le_self _ _
      unfold maxTime at hlast
      omega
    have hbefore : ((rfc6238Step now : Nat) : Int) - 1 = ((rfc6238Step now - 1 : Nat) : Int) := by
      omega
    have hafter : ((rfc6238Step now : Nat) : Int) + 1 = ((rfc6238Step now + 1 : Nat) : Int) := rfl
    rw [base32Decode_encode, Option.bind_eq_bind, Option.bind_some]
    rw [show (now : Int) / 1000 / (PERIOD_SECONDS : Int) = ((rfc6238Step now : Nat) : Int) from
      (by rw [← hstep]; norm_cast), hbefore, hafter]
    exact anyHotp_eq (fun c => rfc4226Hotp hmacSha1 random c.toNat) fun c hc => by
      simp only [List.mem_cons, List.not_mem_nil, or_false] at hc
      obtain rfl | rfl | rfl := hc <;> exact hotp_eq_rfc4226 hlength random (by omega)
  · -- What is not six digits is no code.
    rename_i hnot
    have hcode : ∀ counter,
        code.filter (!isSpace ·) ≠ rfc4226Hotp hmacSha1 random counter := by
      intro counter heq
      exact hnot ⟨by rw [heq]; exact length_decimal 6 _, by rw [heq]; exact isDigit_decimal 6 _⟩
    congr 1
    symm
    rw [decide_eq_false_iff_not]
    intro hmem
    simp only [totpWindow, List.mem_cons, List.not_mem_nil, or_false] at hmem
    obtain h | h | h := hmem <;> exact hcode _ h

end

/-- `totp.ts` follows the standards: the text of a secret, whatever its case, white space and
padding, and the codes that are accepted. -/
theorem totp_conforme (hmacSha1 : List UInt8 → List UInt8 → List UInt8)
    (hlength : ∀ key message, (hmacSha1 key message).length = 20) :
    (∀ data, base32Encode data = rfc4648Base32 data) ∧
    (∀ (data : List UInt8) (w : Chars) (n : Nat),
      (w.filter (!isSpace ·)).map Char.toUpper = base32Encode data →
        base32Decode (w ++ List.replicate n '=') = some data) ∧
    ∀ (random : List UInt8) (code : Chars) (now : Nat), 30000 ≤ now → now ≤ maxTime →
      verifyTotp hmacSha1 (base32Encode random) code now =
        some (decide (code.filter (!isSpace ·) ∈ totpWindow hmacSha1 random now)) :=
  ⟨base32Encode_eq_rfc4648, fun _ _ n hw => base32Decode_of_spelling hw n,
    fun random code _ hfirst hlast => verifyTotp_eq hlength random code hfirst hlast⟩

section

open TwoFactor

/-- The code of the step after, with a space, and one that is none of the three. -/
theorem firstKey_codes :
    base32Decode ((base32Encode firstKey).map Char.toLower ++ ['=', '=']) = some firstKey ∧
    verifyTotp sampleHmac (base32Encode firstKey) ['3', '5', '9', ' ', '1', '5', '2'] 59000 =
      some true ∧
    verifyTotp sampleHmac (base32Encode firstKey) ['9', '6', '9', '4', '2', '9'] 59000 =
      some false := by
  have hlength : ∀ key message, (sampleHmac key message).length = 20 := by
    intro key message
    unfold sampleHmac
    dsimp only
    repeat' split
    all_goals rfl
  obtain ⟨-, hdecode, hverify⟩ := totp_conforme sampleHmac hlength
  refine ⟨hdecode firstKey _ 2 (by decide), ?_, ?_⟩
  · rw [hverify firstKey _ 59000 (by decide) (by decide)]
    decide
  · rw [hverify firstKey _ 59000 (by decide) (by decide)]
    decide

end

end ZiaCrypte.Server
