import ZiaCrypte.Engine.Primitives
import ZiaCrypte.Lib.Sha256

/-!
# `hkdf_sha256`

The loop of the engine over the HMAC of libsodium, of which the three calls are parameters.
-/
namespace ZiaCrypte.Engine

open ZiaCrypte.Lib (Hash sha256)

/-- `crypto_auth_hmacsha256_init`, `_update` and `_final`. -/
structure HmacSha256 (S : Type) where
  init : Bytes → S
  update : S → Bytes → S
  final : S → FixedBytes 32

/-- As documented: the HMAC of the pieces, one after the other. -/
def HmacSha256.Streams {S : Type} (sodium : HmacSha256 S) (H : Hash) : Prop :=
  ∀ (key : Bytes) (pieces : List Bytes), (sodium.final (pieces.foldl sodium.update (sodium.init key))).bytes =
    H.hmac key pieces.flatten

/-- Up to the first zero. -/
def strlen (s : Bytes) : Nat := (s.takeWhile (· != 0)).length

/-- `memcpy(out + offset, src, src.length)` -/
def memcpy (out : Bytes) (offset : Nat) (src : Bytes) : Bytes :=
  out.take offset ++ src ++ out.drop (offset + src.length)

structure ExpandState where
  tPrev : FixedBytes 32
  tPrevLen : Nat
  generated : Nat
  counter : UInt8
  out : Bytes

section Code

variable {S : Type} (sodium : HmacSha256 S)

/-- The body of the loop. -/
def expandTurn (prk : FixedBytes 32) (info : Bytes) (infoLen outLen : Nat) (s : ExpandState) :
    ExpandState :=
  let init := sodium.init prk.bytes
  let prev := if 0 < s.tPrevLen then sodium.update init (s.tPrev.bytes.take s.tPrevLen) else init
  let tCur := sodium.final
    (sodium.update (sodium.update prev (info.take infoLen)) [s.counter])
  let chunk := min 32 (outLen - s.generated)
  { tPrev := tCur
    tPrevLen := 32
    generated := s.generated + chunk
    counter := s.counter + 1
    out := memcpy s.out s.generated (tCur.bytes.take chunk) }

/-- `while (generated < out_len)` -/
def expandLoop (prk : FixedBytes 32) (info : Bytes) (infoLen outLen : Nat) (s : ExpandState) :
    ExpandState :=
  if s.generated < outLen then
    expandLoop prk info infoLen outLen (expandTurn sodium prk info infoLen outLen s)
  else s
termination_by outLen - s.generated
decreasing_by
  simp only [expandTurn]
  omega

/-- `out_len` is the length of `out`; `stack` is what `t_prev` is before it is written. -/
def hkdfSha256 (stack : FixedBytes 32) (salt ikm info out : Bytes) : Bytes :=
  let prk := sodium.final (sodium.update (sodium.init salt) ikm)
  (expandLoop sodium prk info (strlen info) out.length ⟨stack, 0, 0, 1, out⟩).out

end Code

theorem take_strlen (s : Bytes) : s.take (strlen s) = s.takeWhile (· != 0) := by
  exact (List.prefix_iff_eq_take.mp (List.takeWhile_prefix _)).symm

theorem memcpy_append {out rest : Bytes} {offset : Nat} (h : out.length = offset) (src : Bytes) :
    memcpy (out ++ rest) offset src = out ++ src ++ rest.drop src.length := by
  rw [memcpy, ← h, List.take_left, List.drop_append, List.drop_eq_nil_of_le (Nat.le_add_right _ _),
    Nat.add_sub_cancel_left, List.nil_append]

/-! ## The loop -/

variable {S : Type} {sodium : HmacSha256 S} {H : Hash} {prk : FixedBytes 32}
  {info out : Bytes} {s : ExpandState} {i : Nat}

/-- `i` blocks have been generated. -/
structure Expanded (H : Hash) (prk : FixedBytes 32) (info out : Bytes) (i : Nat)
    (s : ExpandState) : Prop where
  generated : s.generated = min (i * 32) out.length
  counter : s.counter = UInt8.ofNat (i + 1)
  prev : s.tPrev.bytes.take s.tPrevLen = H.hkdfBlock prk.bytes info i
  out : s.out = (H.hkdfBlocks prk.bytes info i).take out.length ++ out.drop s.generated

/-- The update with what precedes, which is skipped where there is none. -/
theorem prev_update (h : Expanded H prk info out i s) :
    s.tPrevLen = 0 → H.hkdfBlock prk.bytes info i = [] := by
  intro hzero
  rw [← h.prev, hzero, List.take_zero]

/-- What the body computes is the next block. -/
theorem expandTurn_block (hsodium : sodium.Streams H) (h : Expanded H prk info out i s)
    {memory : Bytes} {infoLen : Nat} (hinfo : memory.take infoLen = info) (outLen : Nat) :
    (expandTurn sodium prk memory infoLen outLen s).tPrev.bytes =
      H.hkdfBlock prk.bytes info (i + 1) := by
  have hfinal : ∀ pieces : List Bytes, (sodium.final (pieces.foldl sodium.update (sodium.init prk.bytes))).bytes =
      H.hmac prk.bytes pieces.flatten := hsodium prk.bytes
  unfold expandTurn
  dsimp only
  rw [hinfo, h.counter]
  by_cases hprev : 0 < s.tPrevLen
  · rw [if_pos hprev, h.prev]
    have hblock := hfinal [H.hkdfBlock prk.bytes info i, info, [UInt8.ofNat (i + 1)]]
    rw [List.flatten_cons, List.flatten_cons, List.flatten_singleton, ← List.append_assoc] at hblock
    exact hblock
  · rw [if_neg hprev]
    have hblock := hfinal [info, [UInt8.ofNat (i + 1)]]
    rw [List.flatten_cons, List.flatten_singleton] at hblock
    rw [Hash.hkdfBlock, prev_update h (Nat.eq_zero_of_not_pos hprev), List.nil_append]
    exact hblock

theorem HmacSha256.Streams.len (hsodium : sodium.Streams H) : H.len = 32 := by
  have hlength := congrArg List.length (hsodium [] [])
  rw [FixedBytes.length_bytes, Hash.length_hmac] at hlength
  exact hlength.symm

theorem Expanded.turn (hsodium : sodium.Streams H) (h : Expanded H prk info out i s)
    {memory : Bytes} {infoLen : Nat} (hinfo : memory.take infoLen = info)
    (hmore : s.generated < out.length) :
    Expanded H prk info out (i + 1) (expandTurn sodium prk memory infoLen out.length s) := by
  have hblock := expandTurn_block hsodium h hinfo out.length
  have hgenerated := h.generated
  have hstart : s.generated = i * 32 := by omega
  have hlen := hsodium.len
  have hdone : (H.hkdfBlocks prk.bytes info i).length = i * 32 := by
    rw [Hash.length_hkdfBlocks, hlen]
  have hout : s.out = H.hkdfBlocks prk.bytes info i ++ out.drop (i * 32) := by
    rw [h.out, List.take_of_length_le (by omega), hstart]
  refine ⟨?_, ?_, ?_, ?_⟩
  · show s.generated + min 32 (out.length - s.generated) = _
    omega
  · show s.counter + 1 = _
    rw [h.counter]
    exact (UInt8.ofNat_add (i + 1) 1).symm
  · show (expandTurn sodium prk memory infoLen out.length s).tPrev.bytes.take 32 = _
    rw [List.take_of_length_le (Nat.le_of_eq (FixedBytes.length_bytes _)), hblock]
  · show memcpy s.out s.generated
      ((expandTurn sodium prk memory infoLen out.length s).tPrev.bytes.take
        (min 32 (out.length - s.generated))) = _
    have hsize : (H.hkdfBlock prk.bytes info (i + 1)).length = 32 := by
      rw [Hash.length_hkdfBlock, hlen]
    have hchunk : (H.hkdfBlock prk.bytes info (i + 1)).take (min 32 (out.length - i * 32)) =
        (H.hkdfBlock prk.bytes info (i + 1)).take (out.length - i * 32) := by
      have htake : (H.hkdfBlock prk.bytes info (i + 1)).take (out.length - i * 32) = _ :=
        List.take_eq_take_min
      rw [htake, hsize, Nat.min_comm]
    have hmade : (H.hkdfBlocks prk.bytes info (i + 1)).take out.length =
        H.hkdfBlocks prk.bytes info i ++
          (H.hkdfBlock prk.bytes info (i + 1)).take (out.length - i * 32) := by
      have hfull : out.length ≥ (H.hkdfBlocks prk.bytes info i).length := by omega
      rw [Hash.hkdfBlocks_succ, List.take_append, List.take_of_length_le hfull, hdone]
    have hnext : (expandTurn sodium prk memory infoLen out.length s).generated =
        i * 32 + min (out.length - i * 32) 32 := by
      show s.generated + min 32 (out.length - s.generated) = _
      omega
    rw [hblock, hstart, hout, hchunk, memcpy_append hdone, hmade, hnext, List.length_take, hsize,
      List.drop_drop]

/-- However many blocks have been generated, the loop fills the output with blocks. -/
theorem Expanded.loop (hsodium : sodium.Streams H) (h : Expanded H prk info out i s)
    {memory : Bytes} {infoLen : Nat} (hinfo : memory.take infoLen = info) :
    ∃ n, out.length ≤ n * 32 ∧
      (expandLoop sodium prk memory infoLen out.length s).out =
        (H.hkdfBlocks prk.bytes info n).take out.length := by
  induction hleft : out.length - s.generated using Nat.strongRecOn generalizing s i with
  | _ left ih =>
    subst hleft
    rw [expandLoop]
    split
    · rename_i hmore
      have hturn := h.turn hsodium hinfo hmore
      refine ih _ ?_ hturn rfl
      have hbefore := h.generated
      have hafter := hturn.generated
      omega
    · rename_i hdone
      have hgenerated := h.generated
      refine ⟨i, by omega, ?_⟩
      rw [h.out, List.drop_eq_nil_of_le (by omega), List.append_nil]

/-- For every key material, salt and string of information, up to 255 blocks. -/
theorem hkdfSha256_eq_rfc5869 (hsodium : sodium.Streams H) (stack : FixedBytes 32)
    (salt ikm info out : Bytes) (hlength : out.length ≤ 255 * 32) :
    H.hkdf salt ikm (info.takeWhile (· != 0)) out.length =
      some (hkdfSha256 sodium stack salt ikm info out) := by
  have hprk : (sodium.final (sodium.update (sodium.init salt) ikm)).bytes =
      H.hkdfExtract salt ikm := by
    have hmac := hsodium salt [ikm]
    rw [List.flatten_singleton] at hmac
    rw [Hash.hkdfExtract_eq]
    exact hmac
  have hlen := hsodium.len
  have hstart : Expanded H (sodium.final (sodium.update (sodium.init salt) ikm))
      (info.takeWhile (· != 0)) out 0 ⟨stack, 0, 0, 1, out⟩ :=
    ⟨by rw [Nat.zero_mul, Nat.zero_min], rfl, List.take_zero, by
      rw [List.drop_zero, Hash.hkdfBlocks, List.range_zero, List.flatMap_nil, List.take_nil,
        List.nil_append]⟩
  obtain ⟨n, hn, hout⟩ := hstart.loop hsodium (take_strlen info)
  rw [Hash.hkdf, ← hprk, Hash.hkdfExpand_eq (n := n) (by rwa [hlen]) (by rwa [hlen]), ← hout]
  rfl

/-- The three calls on a buffer. -/
def bufferedHmac : HmacSha256 (Bytes × Bytes) where
  init key := (key, [])
  update s piece := (s.1, s.2 ++ piece)
  final s := ⟨sha256.hmac s.1 s.2, sha256.length_hmac s.1 s.2⟩

theorem bufferedHmac_streams : bufferedHmac.Streams sha256 := by
  intro key pieces
  have hfold : ∀ s : Bytes × Bytes,
      pieces.foldl bufferedHmac.update s = (s.1, s.2 ++ pieces.flatten) := by
    induction pieces with
    | nil => exact fun s => by rw [List.flatten_nil, List.append_nil]; rfl
    | cons piece pieces ih =>
      intro s
      rw [List.foldl_cons, ih, List.flatten_cons, ← List.append_assoc]
      rfl
  rw [hfold]
  rfl

/-- The output of the third test case of the RFC. -/
def rfc5869Output3 : Bytes :=
  [0x8d, 0xa4, 0xe7, 0x75, 0xa5, 0x63, 0xc1, 0x8f, 0x71, 0x5f, 0x80, 0x2a, 0x06, 0x3c, 0x5a, 0x31,
    0xb8, 0xa1, 0x1f, 0x5c, 0x5e, 0xe1, 0x87, 0x9e, 0xc3, 0x45, 0x4e, 0x5f, 0x3c, 0x73, 0x8d, 0x2d,
    0x9d, 0x20, 0x13, 0x95, 0xfa, 0xa4, 0xb6, 0x1a, 0x96, 0xc8]

/-- No salt, no information, and 42 bytes. -/
theorem hkdfSha256_test3 :
    hkdfSha256 bufferedHmac (FixedBytes.zero 32) [] (List.replicate 22 0x0b) [0]
      (List.replicate 42 0) = rfc5869Output3 := by
  have hcode := hkdfSha256_eq_rfc5869 bufferedHmac_streams (FixedBytes.zero 32) []
    (List.replicate 22 0x0b) [0] (List.replicate 42 0) (by decide)
  have hspec : sha256.hkdf [] (List.replicate 22 0x0b) [] 42 = some rfc5869Output3 := by
    decide +kernel
  exact (Option.some.inj (hspec.symm.trans hcode)).symm

/-! ## The loop over whole blocks -/

def Piece.octets : Piece (FixedBytes 32) → Bytes
  | .key k => k.bytes
  | .text s => s.toUTF8.data.toList
  | .byte b => [b]

/-- The primitives whose keys are bytes and whose HMAC is that of the hash. -/
def Primitives.HmacOf (P : Primitives (FixedBytes 32)) (H : Hash) : Prop :=
  ∀ k pieces, (P.hmac k pieces).bytes = H.hmac k.bytes (pieces.flatMap Piece.octets)

variable {P : Primitives (FixedBytes 32)}

theorem hkdfExpand_blocks (hP : P.HmacOf H) (prk : FixedBytes 32) (label : String) (n i : Nat)
    (prev : Option (FixedBytes 32))
    (hprev : (prev.toList.map Piece.key).flatMap Piece.octets =
      H.hkdfBlock prk.bytes label.toUTF8.data.toList i) :
    H.hkdfBlocks prk.bytes label.toUTF8.data.toList i ++
        (P.hkdfExpand prk label n prev (UInt8.ofNat (i + 1))).flatMap (·.bytes) =
      H.hkdfBlocks prk.bytes label.toUTF8.data.toList (i + n) := by
  induction n generalizing i prev with
  | zero => exact List.append_nil _
  | succ n ih =>
    rw [Primitives.hkdfExpand]
    have hcur : (P.hmac prk (prev.toList.map .key ++ [.text label, .byte (UInt8.ofNat (i + 1))])).bytes =
        H.hkdfBlock prk.bytes label.toUTF8.data.toList (i + 1) := by
      rw [hP, List.flatMap_append, hprev, Hash.hkdfBlock, List.append_assoc]
      rfl
    have hnext := ih (i + 1) (some (P.hmac prk
      (prev.toList.map .key ++ [.text label, .byte (UInt8.ofNat (i + 1))]))) (by
        rw [← hcur]
        exact List.append_nil _)
    rw [List.flatMap_cons, hcur, ← List.append_assoc, ← Hash.hkdfBlocks_succ,
      show i + (n + 1) = i + 1 + n by omega, ← hnext, UInt8.ofNat_add (i + 1) 1]
    rfl

/-- Where the output is whole blocks, the keys of the ratchet and of the handshake are those
that the loop over bytes gives. -/
theorem hkdfSha256_blocks (hsodium : sodium.Streams H) (hP : P.HmacOf H)
    (stack salt : FixedBytes 32) (ikm : List (FixedBytes 32)) (label : String) (rest : Bytes)
    (hlabel : 0 ∉ label.toUTF8.data.toList) (n : Nat) (hn : n ≤ 255) (out : Bytes)
    (hout : out.length = n * 32) :
    (P.hkdfSha256 salt ikm label n).flatMap (·.bytes) =
      hkdfSha256 sodium stack salt.bytes (ikm.flatMap (·.bytes))
        (label.toUTF8.data.toList ++ 0 :: rest) out := by
  have hlen := hsodium.len
  have hcode := hkdfSha256_eq_rfc5869 hsodium stack salt.bytes (ikm.flatMap (·.bytes))
    (label.toUTF8.data.toList ++ 0 :: rest) out (by omega)
  have hinfo : (label.toUTF8.data.toList ++ 0 :: rest).takeWhile (· != 0) =
      label.toUTF8.data.toList := by
    have hpos : ∀ b ∈ label.toUTF8.data.toList, (b != 0) = true := fun b hb =>
      bne_iff_ne.mpr (ne_of_mem_of_not_mem hb hlabel)
    rw [List.takeWhile_append_of_pos hpos]
    exact List.append_nil _
  have hprk : (P.hmac salt (ikm.map .key)).bytes =
      H.hkdfExtract salt.bytes (ikm.flatMap (·.bytes)) := by
    rw [hP, Hash.hkdfExtract_eq, List.flatMap_map]
    rfl
  have hblocks : (P.hkdfSha256 salt ikm label n).flatMap (·.bytes) =
      H.hkdfBlocks (P.hmac salt (ikm.map .key)).bytes label.toUTF8.data.toList n := by
    have hexpand := hkdfExpand_blocks hP (P.hmac salt (ikm.map .key)) label n 0 none rfl
    rw [Nat.zero_add n] at hexpand
    exact hexpand
  rw [hinfo, Hash.hkdf, ← hprk, Hash.hkdfExpand_eq (n := n) (by omega) (by rw [hlen]; omega)] at hcode
  have hall : (H.hkdfBlocks (P.hmac salt (ikm.map .key)).bytes
      label.toUTF8.data.toList n).length ≤ out.length := by
    rw [Hash.length_hkdfBlocks, hlen]
    exact Nat.le_of_eq hout.symm
  rw [hblocks, ← Option.some.inj hcode, List.take_of_length_le hall]

end ZiaCrypte.Engine
