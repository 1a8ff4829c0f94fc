import ZiaCrypte.Engine.X3dh

/-!
# The key schedule, read symbolically

HMAC is taken as injective in its key and its pieces. Then a message key says
which root key, which DH output and which index it came from, and the roots of
one session never come back to the shared secret they started from: that one is
derived under the label of the handshake.
-/
namespace ZiaCrypte.Engine

variable {K : Type}

/-- HMAC under different keys or on different pieces gives different keys. -/
def HmacInjective (P : Primitives K) : Prop :=
  ∀ k k' ps ps', P.hmac k ps = P.hmac k' ps' → k = k' ∧ ps = ps'

/-- The root key and the chain key of one `kdf_rk`. -/
def nextRoot (P : Primitives K) (rk dhOut : K) : K := (kdfRk P rk dhOut).1

def chainOf (P : Primitives K) (rk dhOut : K) : K := (kdfRk P rk dhOut).2

/-- The key of message `j` on the chain of a root key and a DH output. -/
def chainMessageKey (P : Primitives K) (rk dhOut : K) (j : Nat) : K :=
  messageKey P (chainKeyAt P (chainOf P rk dhOut) j)

variable {P : Primitives K}

theorem nextRoot_eq (rk dhOut : K) : nextRoot P rk dhOut =
    P.hmac (P.hmac rk [.key dhOut]) [.text "ZiaCrypteRatchetStep", .byte 1] := rfl

theorem chainOf_eq (rk dhOut : K) : chainOf P rk dhOut =
    P.hmac (P.hmac rk [.key dhOut])
      [.key (nextRoot P rk dhOut), .text "ZiaCrypteRatchetStep", .byte 2] := rfl

theorem extract_inj (h : HmacInjective P) {rk rk' dh dh' : K}
    (heq : P.hmac rk [.key dh] = P.hmac rk' [.key dh']) : rk = rk' ∧ dh = dh' := by
  obtain ⟨hrk, hps⟩ := h _ _ _ _ heq
  simp only [List.cons.injEq, Piece.key.injEq, and_true] at hps
  exact ⟨hrk, hps⟩

theorem nextRoot_inj (h : HmacInjective P) {rk rk' dh dh' : K}
    (heq : nextRoot P rk dh = nextRoot P rk' dh') : rk = rk' ∧ dh = dh' := by
  rw [nextRoot_eq, nextRoot_eq] at heq
  exact extract_inj h (h _ _ _ _ heq).1

theorem chainOf_inj (h : HmacInjective P) {rk rk' dh dh' : K}
    (heq : chainOf P rk dh = chainOf P rk' dh') : rk = rk' ∧ dh = dh' := by
  rw [chainOf_eq, chainOf_eq] at heq
  exact extract_inj h (h _ _ _ _ heq).1

/-- A chain never starts at a key another chain advanced to. -/
theorem chainOf_ne_nextChainKey (h : HmacInjective P) (rk dh ck : K) :
    chainOf P rk dh ≠ nextChainKey P ck := by
  intro heq
  rw [chainOf_eq, nextChainKey] at heq
  have hps := (h _ _ _ _ heq).2
  simp at hps

theorem chainKeyAt_chainOf_inj (h : HmacInjective P) {rk rk' dh dh' : K} {i j : Nat}
    (heq : chainKeyAt P (chainOf P rk dh) i = chainKeyAt P (chainOf P rk' dh') j) :
    i = j ∧ rk = rk' ∧ dh = dh' := by
  induction i generalizing j with
  | zero =>
    cases j with
    | zero => exact ⟨rfl, chainOf_inj h heq⟩
    | succ j =>
      rw [← nextChainKey_chainKeyAt P _ j] at heq
      exact absurd heq (chainOf_ne_nextChainKey h rk dh _)
  | succ i ih =>
    cases j with
    | zero =>
      rw [← nextChainKey_chainKeyAt P _ i] at heq
      exact absurd heq.symm (chainOf_ne_nextChainKey h rk' dh' _)
    | succ j =>
      rw [← nextChainKey_chainKeyAt, ← nextChainKey_chainKeyAt] at heq
      obtain ⟨rfl, hrest⟩ := ih (h _ _ _ _ heq).1
      exact ⟨rfl, hrest⟩

/-- A message key determines its chain and its index. -/
theorem chainMessageKey_inj (h : HmacInjective P) {rk rk' dh dh' : K} {i j : Nat}
    (heq : chainMessageKey P rk dh i = chainMessageKey P rk' dh' j) :
    i = j ∧ rk = rk' ∧ dh = dh' :=
  chainKeyAt_chainOf_inj h (h _ _ _ _ heq).1

/-! ## The root keys of one session -/

/-- `rk` is the root key after `n` applications of `kdf_rk` from `sk`. -/
inductive RootAt (P : Primitives K) (sk : K) : Nat → K → Prop where
  | zero : RootAt P sk 0 sk
  | succ {n : Nat} {rk : K} (dhOut : K) : RootAt P sk n rk → RootAt P sk (n + 1) (nextRoot P rk dhOut)

/-- `sk` is not itself the output of a ratchet step. -/
def NotRatchetRoot (P : Primitives K) (sk : K) : Prop := ∀ rk dhOut, nextRoot P rk dhOut ≠ sk

/-- No root key of a session occurs at two depths. -/
theorem RootAt.unique (h : HmacInjective P) {sk : K} (hsk : NotRatchetRoot P sk) {n m : Nat}
    {rk : K} (hn : RootAt P sk n rk) (hm : RootAt P sk m rk) : n = m := by
  induction hn generalizing m with
  | zero =>
    generalize hsk' : sk = r at hm
    cases hm with
    | zero => rfl
    | succ dh _ => exact absurd hsk'.symm (hsk _ dh)
  | @succ n rk dh hn ih =>
    generalize hrk : nextRoot P rk dh = r at hm
    cases hm with
    | zero => exact absurd hrk (hsk _ dh)
    | succ dh' hm' =>
      obtain ⟨rfl, _⟩ := nextRoot_inj h hrk
      rw [ih hm']

/-- A secret of X3DH or PQXDH is derived under another label than a ratchet root. -/
theorem deriveSharedSecret_notRatchetRoot (X : X3dhPrimitives K)
    (h : HmacInjective X.toPrimitives) (dh1 dh2 dh3 : K) (dh4 ss : Option K) :
    NotRatchetRoot X.toPrimitives (deriveSharedSecret X dh1 dh2 dh3 dh4 ss) := by
  intro rk dhOut heq
  have hsecret : deriveSharedSecret X dh1 dh2 dh3 dh4 ss =
      X.hmac (X.hmac X.zero (([dh1, dh2, dh3] ++ dh4.toList ++ ss.toList).map .key))
        [.text (if ss.isSome then "ZiaCryptePQXDH" else "ZiaCrypteX3DH"), .byte 1] := rfl
  rw [nextRoot_eq, hsecret] at heq
  have hps := (h _ _ _ _ heq).2
  cases ss <;> simp at hps

end ZiaCrypte.Engine
