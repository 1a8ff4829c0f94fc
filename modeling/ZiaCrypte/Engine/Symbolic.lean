import ZiaCrypte.Engine.KeySchedule

/-!
# A symbolic instance of the primitives

A key is the byte string that spells how it was derived: HMAC writes its key and
its pieces one after another in a prefix code, so it is injective, and a
ciphertext spells the key and the associated data it was sealed with.
-/
namespace ZiaCrypte.Engine

/-! ## A prefix code -/

/-- Each byte behind a 1, and a 0 at the end. -/
def quote : Bytes → Bytes
  | [] => [0]
  | b :: bs => 1 :: b :: quote bs

theorem quote_append_inj {a b x y : Bytes} (h : quote a ++ x = quote b ++ y) :
    a = b ∧ x = y := by
  induction a generalizing b with
  | nil =>
    cases b with
    | nil => simpa [quote] using h
    | cons b bs => simp [quote] at h
  | cons a as ih =>
    cases b with
    | nil => simp [quote] at h
    | cons b bs =>
      simp only [quote, List.cons_append, List.cons.injEq, true_and] at h
      obtain ⟨rfl, hrest⟩ := h
      obtain ⟨rfl, hxy⟩ := ih hrest
      exact ⟨rfl, hxy⟩

def textBytes (s : String) : Bytes := s.toByteArray.data.toList

theorem textBytes_inj {s t : String} (h : textBytes s = textBytes t) : s = t :=
  String.toByteArray_inj.mp (ByteArray.ext (Array.toList_inj.mp h))

def pieceBytes : Piece Bytes → Bytes
  | .key k => 2 :: quote k
  | .text s => 3 :: quote (textBytes s)
  | .byte b => [4, b]

theorem pieceBytes_append_inj {p q : Piece Bytes} {x y : Bytes}
    (h : pieceBytes p ++ x = pieceBytes q ++ y) : p = q ∧ x = y := by
  cases p <;> cases q <;>
    simp only [pieceBytes, List.cons_append, List.nil_append, List.cons.injEq,
      true_and] at h
  case key.key =>
    obtain ⟨rfl, hxy⟩ := quote_append_inj h
    exact ⟨rfl, hxy⟩
  case text.text =>
    obtain ⟨htext, hxy⟩ := quote_append_inj h
    exact ⟨by rw [textBytes_inj htext], hxy⟩
  case byte.byte =>
    obtain ⟨rfl, hxy⟩ := h
    exact ⟨rfl, hxy⟩
  all_goals
    exact absurd h.1 (by decide)

theorem pieceBytes_ne_nil (p : Piece Bytes) : pieceBytes p ≠ [] := by
  cases p <;> simp [pieceBytes]

theorem flatMap_pieceBytes_inj {ps qs : List (Piece Bytes)}
    (h : ps.flatMap pieceBytes = qs.flatMap pieceBytes) : ps = qs := by
  induction ps generalizing qs with
  | nil =>
    cases qs with
    | nil => rfl
    | cons q qs =>
      have hnil := (List.append_eq_nil_iff.mp (List.flatMap_cons ▸ h.symm)).1
      exact absurd hnil (pieceBytes_ne_nil q)
  | cons p ps ih =>
    cases qs with
    | nil =>
      have hnil := (List.append_eq_nil_iff.mp (List.flatMap_cons ▸ h)).1
      exact absurd hnil (pieceBytes_ne_nil p)
    | cons q qs =>
      rw [List.flatMap_cons, List.flatMap_cons] at h
      obtain ⟨rfl, hrest⟩ := pieceBytes_append_inj h
      rw [ih hrest]

/-! ## The instance -/

/-- What a symbolic ciphertext starts with. -/
def sealPrefix (key nonce ad : Bytes) : Bytes := quote key ++ (quote nonce ++ quote ad)

theorem sealPrefix_append_inj {key key' nonce nonce' ad ad' x y : Bytes}
    (h : sealPrefix key nonce ad ++ x = sealPrefix key' nonce' ad' ++ y) :
    key = key' ∧ ad = ad' ∧ x = y := by
  simp only [sealPrefix, List.append_assoc] at h
  obtain ⟨rfl, hrest⟩ := quote_append_inj h
  obtain ⟨_, hrest'⟩ := quote_append_inj hrest
  obtain ⟨rfl, hxy⟩ := quote_append_inj hrest'
  exact ⟨rfl, rfl, hxy⟩

/-- The ciphertext, with the sixteen bytes of the tag left blank. -/
def symbolicSeal (key nonce m ad : Bytes) : Bytes :=
  sealPrefix key nonce ad ++ (List.replicate aeadABytes 0 ++ m)

def symbolic : X3dhPrimitives Bytes where
  hmac k ps := quote k ++ ps.flatMap pieceBytes
  x25519Base k := FixedBytes.copy 32 k 0
  x25519Scalarmult k p := some (List.zipWith (· + ·) (FixedBytes.copy 32 k 0).bytes p.bytes)
  aeadEncrypt key nonce m ad := some (symbolicSeal key nonce m ad)
  aeadDecrypt key nonce c ad :=
    let m := c.drop ((sealPrefix key nonce ad).length + aeadABytes)
    if c = symbolicSeal key nonce m ad then some m else none
  zero := List.replicate 32 0
  ed25519Verify _ _ _ := true
  ed25519ToX25519Public p := some p
  ed25519ToX25519Private k := some k
  mlkem768Encapsulate _ seed := some (seed, seed)
  mlkem768Decapsulate _ c := some c

theorem symbolic_hmacInjective : HmacInjective symbolic.toPrimitives := by
  intro k k' ps ps' h
  obtain ⟨rfl, hrest⟩ := quote_append_inj (h : quote k ++ _ = quote k' ++ _)
  exact ⟨rfl, flatMap_pieceBytes_inj hrest⟩

theorem symbolic_aeadIdeal : AeadIdeal symbolic.toPrimitives where
  sealed key nonce c ad m h := by
    simp only [symbolic] at h ⊢
    split at h
    · rename_i hc
      obtain rfl := Option.some.inj h
      rw [← hc]
    · cases h
  binds key key' nonce m m' ad ad' c h h' := by
    have heq := Option.some.inj (h.trans h'.symm)
    obtain ⟨hkey, had, _⟩ := sealPrefix_append_inj heq
    exact ⟨hkey, had⟩

theorem symbolic_aeadCorrect : AeadCorrect symbolic.toPrimitives := by
  intro key nonce m ad c h
  obtain rfl := Option.some.inj h
  have hdrop : (symbolicSeal key nonce m ad).drop
      ((sealPrefix key nonce ad).length + aeadABytes) = m := by
    rw [symbolicSeal, ← List.append_assoc]
    exact List.drop_left' (by simp)
  constructor
  · simp only [symbolic, hdrop, if_true]
  · simp only [symbolicSeal, List.length_append, List.length_replicate]
    omega

end ZiaCrypte.Engine
