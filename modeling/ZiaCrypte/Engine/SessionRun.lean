import ZiaCrypte.Engine.RatchetMoves

/-!
# Runs of one session

A session starts as initiator or responder and then sees any calls, in any
order, with arbitrary headers and ciphertexts. Between two calls it may be
stored and restored, which turns an absent chain key into 32 zero bytes.
-/
namespace ZiaCrypte.Engine

open ZiaCrypte.Lib

variable {K R : Type} (P : Primitives K)

/-- What `zia_session_from_bundle` or `accept_handshake` hands to its ratchet
initialiser. -/
inductive SessionStart (K : Type) where
  | initiator (env : CallEnv K) (ad : FixedBytes 64) (sk : K) (theirInitialDh : PublicKey)
  | responder (ad : FixedBytes 64) (sk : K) (myInitialDh : PublicKey) (myInitialDhPrivate : K)

def SessionStart.session : SessionStart K → ZiaSession K
  | .initiator env ad sk theirs => initAsInitiator P env ad sk theirs
  | .responder ad sk myPub myPriv => initAsResponder ad sk myPub myPriv

/-- A call on the session; `R` is what a store and a restore take from outside. -/
inductive SessionCall (K R : Type) where
  | encrypt (env : CallEnv K) (plaintext : Bytes)
  | decrypt (env : CallEnv K) (header ciphertext : Bytes)
  | reload (r : R)

/-- The session after a store and a restore, as `append_bool_and_key32` and
`deserialize_state` make it: a key whose flag is down comes back as `zero`. -/
def restored (zero : K) (s : ZiaSession K) : ZiaSession K :=
  { s with
    sendChainKey := some (if s.hasSendChain then s.sendChainKey.getD zero else zero)
    recvChainKey := some (if s.hasRecvChain then s.recvChainKey.getD zero else zero) }

/-- The session after one call; `none` when the call faults. -/
def SessionCall.apply (reload : R → ZiaSession K → ZiaSession K) :
    SessionCall K R → ZiaSession K → Option (ZiaSession K)
  | .encrypt env plaintext, s => (ziaSessionEncrypt P env s plaintext).session?
  | .decrypt env header ciphertext, s => (ziaSessionDecrypt P env s header ciphertext).session?
  | .reload r, s => some (reload r s)

/-- What holds of every session a client can get to. -/
structure WellFormed (s : ZiaSession K) : Prop where
  sendKey : s.hasSendChain = true → ∃ ck, s.sendChainKey = some ck
  recvKey : s.hasRecvChain = true → ∃ ck, s.recvChainKey = some ck
  sendDhr : s.hasSendChain = s.hasDhr
  recvDhr : s.hasRecvChain = true → s.hasDhr = true
  emptyCache : s.hasRecvChain = false → s.skipped = []
  bounded : s.skipped.length ≤ kMaxSkippedKeys

theorem wellFormed_start (start : SessionStart K) : WellFormed (start.session P) := by
  cases start with
  | initiator env ad sk theirs =>
    constructor <;> simp [SessionStart.session, initAsInitiator]
  | responder ad sk myPub myPriv =>
    constructor <;> simp [SessionStart.session, initAsResponder]

theorem length_pushSkipped_le {cache : List (ZiaSkippedKey K)} {sk : ZiaSkippedKey K}
    (h : cache.length ≤ kMaxSkippedKeys) : (pushSkipped cache sk).length ≤ kMaxSkippedKeys := by
  unfold pushSkipped
  split <;> simp [kMaxSkippedKeys] at * <;> omega

variable {P}

theorem WellFormed.move {s t : ZiaSession K} {key : Option K} (h : WellFormed s)
    (hm : Move P s key t) : WellFormed t := by
  cases hm with
  | take sk before after hsplit =>
    refine ⟨h.sendKey, h.recvKey, h.sendDhr, h.recvDhr, ?_, ?_⟩
    · intro hflag
      have hempty := h.emptyCache hflag
      rw [hsplit] at hempty
      simp at hempty
    · have hlen := h.bounded
      rw [hsplit] at hlen
      simp only [List.length_append, List.length_cons] at hlen ⊢
      omega
  | skip ck hflag hck =>
    refine ⟨h.sendKey, fun _ => ⟨_, rfl⟩, h.sendDhr, h.recvDhr, ?_, length_pushSkipped_le h.bounded⟩
    intro hflag'
    simp only [skipTurn, storeSkippedKey, hflag] at hflag'
    cases hflag'
  | ratchet env theirs =>
    refine ⟨fun _ => ⟨_, rfl⟩, fun _ => ⟨_, rfl⟩, rfl, fun _ => rfl, ?_, h.bounded⟩
    intro hflag
    simp [dhRatchetStep] at hflag
  | consume ck hck =>
    exact ⟨h.sendKey, fun _ => ⟨_, rfl⟩, h.sendDhr, h.recvDhr, h.emptyCache, h.bounded⟩
  | send ck hflag hck =>
    exact ⟨fun _ => ⟨_, rfl⟩, h.recvKey, h.sendDhr, h.recvDhr, h.emptyCache, h.bounded⟩

theorem WellFormed.moves {s t : ZiaSession K} {spent : List K} (h : WellFormed s)
    (hm : Moves P s spent t) : WellFormed t :=
  Moves.invariant (fun _ _ _ hs hmove => hs.move hmove) h hm

theorem WellFormed.restored {s : ZiaSession K} (zero : K) (h : WellFormed s) :
    WellFormed (restored zero s) :=
  ⟨fun _ => ⟨_, rfl⟩, fun _ => ⟨_, rfl⟩, h.sendDhr, h.recvDhr, h.emptyCache, h.bounded⟩

/-- No move takes a receive chain away. -/
theorem Moves.hasRecvChain {s t : ZiaSession K} {spent : List K} (hm : Moves P s spent t)
    (h : s.hasRecvChain = true) : t.hasRecvChain = true := by
  induction hm with
  | refl => exact h
  | tail _ hmove ih =>
    cases hmove with
    | take => exact ih
    | skip => exact ih
    | ratchet => rfl
    | consume => exact ih
    | send => exact ih

variable (P)

theorem WellFormed.apply {reload : R → ZiaSession K → ZiaSession K}
    (hreload : ∀ r s, WellFormed s → WellFormed (reload r s)) (c : SessionCall K R)
    (s t : ZiaSession K) (h : WellFormed s) (hc : c.apply P reload s = some t) :
    WellFormed t := by
  cases c with
  | encrypt env plaintext => exact h.moves (encrypt_silent P env s plaintext t hc)
  | decrypt env header ciphertext =>
    obtain ⟨spent, hmoves⟩ := decrypt_moves P hc
    exact h.moves hmoves
  | reload r =>
    obtain rfl := Option.some.inj hc
    exact hreload r s h

/-- A store and a restore only touch keys whose flag is down. -/
theorem restored_sendChainKey {zero : K} {s : ZiaSession K} (h : WellFormed s)
    (hflag : s.hasSendChain = true) : (restored zero s).sendChainKey = s.sendChainKey := by
  obtain ⟨ck, hck⟩ := h.sendKey hflag
  simp [restored, hflag, hck]

theorem restored_recvChainKey {zero : K} {s : ZiaSession K} (h : WellFormed s)
    (hflag : s.hasRecvChain = true) : (restored zero s).recvChainKey = s.recvChainKey := by
  obtain ⟨ck, hck⟩ := h.recvKey hflag
  simp [restored, hflag, hck]

/-! ## The branch without a receive chain

An initiator holds the peer's signed prekey as `dhr_public` before it has any
receive chain. A header that repeats that key takes no DH step, and the message
key is derived from `recv_chain_key` as it is. -/

/-- The header repeats `dhr_public` while no receive chain exists. -/
def repeatsPrekey (s : ZiaSession K) (h : RatchetHeader) : Bool :=
  s.hasDhr && !s.hasRecvChain && s.dhrPublic == h.dhPublic

/-- A call that gets past the length checks with such a header. -/
def SessionCall.entersWithoutChain : SessionCall K R → ZiaSession K → Bool
  | .decrypt _ header ciphertext, s =>
      header.length == kHeaderLen && decide (aeadABytes ≤ ciphertext.length) &&
        repeatsPrekey s (decodeHeader header)
  | _, _ => false

theorem advanceRecvChain_of_repeatsPrekey (env : CallEnv K) {s : ZiaSession K} {h : RatchetHeader}
    (hrep : repeatsPrekey s h = true) : advanceRecvChain P env s h = .ok () s := by
  simp only [repeatsPrekey, Bool.and_eq_true, Bool.not_eq_eq_eq_not, Bool.not_true,
    beq_iff_eq] at hrep
  obtain ⟨⟨hdhr, hflag⟩, heq⟩ := hrep
  have hopens : opensNewChain s h = false := by simp [opensNewChain, hdhr, heq]
  rw [advanceRecvChain, openChain, hopens]
  simp only [Bool.false_eq_true, if_false, Outcome.andThen_ok]
  exact skipRecvChainTo_absent P h.n hflag

/-- Without a receive chain, any other header steps the ratchet first. -/
theorem opensNewChain_of_not_repeatsPrekey {s : ZiaSession K} {h : RatchetHeader}
    (hflag : s.hasRecvChain = false) (hrep : repeatsPrekey s h = false) :
    opensNewChain s h = true := by
  simp only [repeatsPrekey, hflag, Bool.not_false, Bool.and_true] at hrep
  simp only [opensNewChain, bne]
  cases hdhr : s.hasDhr <;> simp_all

/-- Once the chain is open, `advance_recv_chain` leaves a session with one. -/
theorem hasRecvChain_of_advance {env : CallEnv K} {s t : ZiaSession K} {h : RatchetHeader}
    (hrep : repeatsPrekey s h = false) (hadv : advanceRecvChain P env s h = .ok () t) :
    t.hasRecvChain = true := by
  obtain ⟨_, u, hopen, hskip⟩ := Outcome.andThen_eq_ok.mp hadv
  have hu : u.hasRecvChain = true := by
    cases hopens : opensNewChain s h with
    | true =>
      rw [openChain, if_pos hopens] at hopen
      obtain ⟨_, v, _, hstep⟩ := Outcome.andThen_eq_ok.mp hopen
      cases hstep
      rfl
    | false =>
      rw [openChain, if_neg (by simp [hopens])] at hopen
      cases hopen
      by_contra hno
      rw [Bool.not_eq_true] at hno
      rw [opensNewChain_of_not_repeatsPrekey hno hrep] at hopens
      cases hopens
  exact (skipRecvChainTo_silent P u h.n t (by rw [hskip]; rfl)).hasRecvChain hu

end ZiaCrypte.Engine
