import ZiaCrypte.Engine.SessionRun

/-!
# `zia_session_decrypt`, branch by branch

For a well-formed session each branch is one equation: which key the header
selects, and the session the AEAD check is made on. The key is a function of the
session before the call.
-/
namespace ZiaCrypte.Engine

variable {K : Type} (P : Primitives K)

/-- `skip_recv_chain_to` refuses to go to `stop`. -/
def gapRefused (s : ZiaSession K) (stop : UInt32) : Bool :=
  s.hasRecvChain && decide (gap s stop > kMaxSkippedKeys)

/-- The session once the current chain, if any, has skipped up to `stop`. -/
def skippedTo (s : ZiaSession K) (stop : UInt32) : ZiaSession K :=
  match s.recvChainKey with
  | some ck => if s.hasRecvChain then skipBy P s ck (gap s stop) else s
  | none => s

/-- The receive chain a DH step with `theirs` gives this session. -/
def newRecvChain (env : CallEnv K) (s : ZiaSession K) (theirs : PublicKey) : K :=
  (kdfRk P s.rootKey ((P.x25519Scalarmult s.dhsPrivate theirs).getD env.stack₁)).2

variable {P}

theorem skipRecvChainTo_of_not_refused {s : ZiaSession K} {stop : UInt32} (h : WellFormed s)
    (hgap : gapRefused s stop = false) :
    skipRecvChainTo P s stop = .ok () (skippedTo P s stop) := by
  rcases skipRecvChainTo_cases P stop h.recvKey with
    ⟨hflag, heq⟩ | ⟨hflag, hfar, _⟩ | ⟨ck, hflag, hck, _, heq⟩
  · rw [heq, skippedTo]
    cases s.recvChainKey <;> simp [hflag]
  · simp [gapRefused, hflag, hfar] at hgap
  · rw [heq, skippedTo]
    simp [hflag, hck]

theorem skipRecvChainTo_of_refused {s : ZiaSession K} {stop : UInt32}
    (hgap : gapRefused s stop = true) :
    skipRecvChainTo P s stop = .error .skippedKeyLimit s := by
  simp only [gapRefused, Bool.and_eq_true, decide_eq_true_eq] at hgap
  exact skipRecvChainTo_refused P hgap.1 hgap.2

theorem WellFormed.skippedTo {s : ZiaSession K} (h : WellFormed s) (stop : UInt32)
    (hgap : gapRefused s stop = false) : WellFormed (skippedTo P s stop) :=
  h.moves (skipRecvChainTo_silent P s stop _
    (by rw [skipRecvChainTo_of_not_refused h hgap]; rfl))

variable (P)

/-- Skipping only moves the receive chain and the cache. -/
theorem skippedTo_frame (s : ZiaSession K) (stop : UInt32) :
    ∃ ck nr cache, skippedTo P s stop =
      { s with recvChainKey := ck, nr := nr, skipped := cache } := by
  unfold skippedTo
  split
  · split
    · exact ⟨_, _, _, rfl⟩
    · exact ⟨s.recvChainKey, s.nr, s.skipped, rfl⟩
  · exact ⟨s.recvChainKey, s.nr, s.skipped, rfl⟩

/-- Skipping does not touch what a DH step reads. -/
theorem newRecvChain_skippedTo (env : CallEnv K) (s : ZiaSession K) (stop : UInt32)
    (theirs : PublicKey) :
    newRecvChain P env (skippedTo P s stop) theirs = newRecvChain P env s theirs := by
  obtain ⟨_, _, _, heq⟩ := skippedTo_frame P s stop
  rw [heq]
  rfl

/-- The session after the old chain was closed and the DH step made. -/
def stepped (env : CallEnv K) (s : ZiaSession K) (h : RatchetHeader) : ZiaSession K :=
  dhRatchetStep P env (skippedTo P s h.pn) h.dhPublic

theorem stepped_recvChainKey (env : CallEnv K) (s : ZiaSession K) (h : RatchetHeader) :
    (stepped P env s h).recvChainKey = some (newRecvChain P env s h.dhPublic) := by
  rw [← newRecvChain_skippedTo P env s h.pn]
  rfl

theorem gap_stepped (env : CallEnv K) (s : ZiaSession K) (h : RatchetHeader) (stop : UInt32) :
    gap (stepped P env s h) stop = stop.toNat := Nat.sub_zero _

/-- The session a message of a new chain is opened on. -/
def onNewChain (env : CallEnv K) (s : ZiaSession K) (h : RatchetHeader) : ZiaSession K :=
  skipBy P (stepped P env s h) (newRecvChain P env s h.dhPublic) h.n.toNat

theorem advanceRecvChain_new_refused (env : CallEnv K) {s : ZiaSession K} {h : RatchetHeader}
    (hopens : opensNewChain s h = true) (hgap : gapRefused s h.pn = true) :
    advanceRecvChain P env s h = .error .skippedKeyLimit s := by
  rw [advanceRecvChain, openChain, if_pos hopens, skipRecvChainTo_of_refused hgap]
  rfl

theorem openChain_new (env : CallEnv K) {s : ZiaSession K} {h : RatchetHeader}
    (hwf : WellFormed s) (hopens : opensNewChain s h = true)
    (hgap : gapRefused s h.pn = false) :
    openChain P env s h = .ok () (stepped P env s h) := by
  rw [openChain, if_pos hopens, skipRecvChainTo_of_not_refused hwf hgap]
  rfl

theorem advanceRecvChain_new_far (env : CallEnv K) {s : ZiaSession K} {h : RatchetHeader}
    (hwf : WellFormed s) (hopens : opensNewChain s h = true)
    (hgap : gapRefused s h.pn = false) (hfar : h.n.toNat > kMaxSkippedKeys) :
    advanceRecvChain P env s h = .error .skippedKeyLimit (stepped P env s h) := by
  rw [advanceRecvChain, openChain_new P env hwf hopens hgap, Outcome.andThen_ok]
  exact skipRecvChainTo_refused P rfl (by rwa [gap_stepped])

theorem advanceRecvChain_new (env : CallEnv K) {s : ZiaSession K} {h : RatchetHeader}
    (hwf : WellFormed s) (hopens : opensNewChain s h = true)
    (hgap : gapRefused s h.pn = false) (hnear : h.n.toNat ≤ kMaxSkippedKeys) :
    advanceRecvChain P env s h = .ok () (onNewChain P env s h) := by
  rw [advanceRecvChain, openChain_new P env hwf hopens hgap, Outcome.andThen_ok,
    skipRecvChainTo_ahead P rfl (stepped_recvChainKey P env s h) (by rwa [gap_stepped]),
    gap_stepped]
  rfl

theorem advanceRecvChain_current (env : CallEnv K) {s : ZiaSession K} {h : RatchetHeader}
    (hopens : opensNewChain s h = false) :
    advanceRecvChain P env s h = skipRecvChainTo P s h.n := by
  rw [advanceRecvChain, openChain, if_neg (by simp [hopens]), Outcome.andThen_ok]

/-! ## The message key a header selects -/

/-- From the cache, from a new chain, or from the current one. -/
def selectedKey (env : CallEnv K) (s : ZiaSession K) (h : RatchetHeader) : Option K :=
  match takeSkippedKey s h.dhPublic h.n with
  | some taken => some taken.1
  | none =>
      if opensNewChain s h then
        if h.n.toNat ≤ kMaxSkippedKeys then
          some (messageKey P (chainKeyAt P (newRecvChain P env s h.dhPublic) h.n.toNat))
        else none
      else s.recvChainKey.map fun ck => messageKey P (chainKeyAt P ck (gap s h.n))

/-- The AEAD opens the message under the key its header selects. -/
def opensSelected (env : CallEnv K) (s : ZiaSession K) (header ciphertext : Bytes) : Bool :=
  env.alloc && ((selectedKey P env s (decodeHeader header)).bind fun key =>
    P.aeadDecrypt key zeroNonce ciphertext (messageAd s header)).isSome

theorem openMessage_opens {env : CallEnv K} {key : K} {ciphertext ad pt : Bytes}
    {s accepted : ZiaSession K} (halloc : env.alloc = true)
    (h : P.aeadDecrypt key zeroNonce ciphertext ad = some pt) :
    openMessage P env key ciphertext ad s accepted = .ok pt accepted := by
  simp [openMessage, halloc, h]

theorem openMessage_isOk {env : CallEnv K} {key : K} {ciphertext ad : Bytes}
    (s accepted : ZiaSession K)
    (h : (env.alloc && (P.aeadDecrypt key zeroNonce ciphertext ad).isSome) = true) :
    ∃ pt, openMessage P env key ciphertext ad s accepted = .ok pt accepted := by
  simp only [Bool.and_eq_true, Option.isSome_iff_exists] at h
  obtain ⟨halloc, pt, hpt⟩ := h
  exact ⟨pt, openMessage_opens P halloc hpt⟩

theorem openMessage_isError {env : CallEnv K} {key : K} {ciphertext ad : Bytes}
    (s accepted : ZiaSession K)
    (h : (env.alloc && (P.aeadDecrypt key zeroNonce ciphertext ad).isSome) = false) :
    ∃ rc, openMessage P env key ciphertext ad s accepted = .error rc s := by
  unfold openMessage
  cases halloc : env.alloc with
  | false => exact ⟨.outOfMemory, rfl⟩
  | true =>
    rw [halloc, Bool.true_and, Option.isSome_eq_false_iff, Option.isNone_iff_eq_none] at h
    exact ⟨.cryptoFailure, by simp [h]⟩

/-- From the cache. -/
theorem decrypt_cached (env : CallEnv K) {s t : ZiaSession K} {header : Bytes}
    (ciphertext : Bytes) {key : K}
    (hlen : header.length = kHeaderLen) (hct : aeadABytes ≤ ciphertext.length)
    (htake : takeSkippedKey s (decodeHeader header).dhPublic (decodeHeader header).n =
      some (key, t)) :
    ziaSessionDecrypt P env s header ciphertext =
      openMessage P env key ciphertext (messageAd s header) t t := by
  rw [ziaSessionDecrypt, if_neg (by simp [hlen]), if_neg (Nat.not_lt.mpr hct)]
  simp only [htake]

/-- On the current chain, within the limit. -/
theorem decrypt_currentChain (env : CallEnv K) {s : ZiaSession K} {header ciphertext : Bytes}
    {ck : K} (hwf : WellFormed s) (hreach : reachesRecvChain s header ciphertext = true)
    (hopens : opensNewChain s (decodeHeader header) = false)
    (hgap : gapRefused s (decodeHeader header).n = false) (hflag : s.hasRecvChain = true)
    (hck : s.recvChainKey = some ck) :
    ziaSessionDecrypt P env s header ciphertext =
      openMessage P env (messageKey P (chainKeyAt P ck (gap s (decodeHeader header).n)))
        ciphertext (messageAd s header) (skipBy P s ck (gap s (decodeHeader header).n))
        { skipBy P s ck (gap s (decodeHeader header).n) with
          recvChainKey := some (chainKeyAt P ck (gap s (decodeHeader header).n + 1))
          nr := s.nr + UInt32.ofNat (gap s (decodeHeader header).n) + 1 } := by
  have hskip : skippedTo P s (decodeHeader header).n =
      skipBy P s ck (gap s (decodeHeader header).n) := by
    simp [skippedTo, hck, hflag]
  rw [decrypt_of_reaches P env hreach, advanceRecvChain_current P env hopens,
    skipRecvChainTo_of_not_refused hwf hgap, Outcome.andThen_ok, hskip]
  simp only [openWithRecvChain, skipBy, kdfCk, Option.map_some, nextChainKey_chainKeyAt]

/-- On a new chain, within both limits. -/
theorem decrypt_newChain (env : CallEnv K) {s : ZiaSession K} {header ciphertext : Bytes}
    (hwf : WellFormed s) (hreach : reachesRecvChain s header ciphertext = true)
    (hopens : opensNewChain s (decodeHeader header) = true)
    (hgap : gapRefused s (decodeHeader header).pn = false)
    (hnear : (decodeHeader header).n.toNat ≤ kMaxSkippedKeys) :
    ziaSessionDecrypt P env s header ciphertext =
      openMessage P env
        (messageKey P (chainKeyAt P (newRecvChain P env s (decodeHeader header).dhPublic)
          (decodeHeader header).n.toNat))
        ciphertext (messageAd s header) (onNewChain P env s (decodeHeader header))
        { onNewChain P env s (decodeHeader header) with
          recvChainKey := some (chainKeyAt P
            (newRecvChain P env s (decodeHeader header).dhPublic)
            ((decodeHeader header).n.toNat + 1))
          nr := (onNewChain P env s (decodeHeader header)).nr + 1 } := by
  rw [decrypt_of_reaches P env hreach, advanceRecvChain_new P env hwf hopens hgap hnear,
    Outcome.andThen_ok]
  simp only [openWithRecvChain, onNewChain, skipBy, kdfCk, Option.map_some,
    nextChainKey_chainKeyAt]

end ZiaCrypte.Engine
