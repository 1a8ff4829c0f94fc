import ZiaCrypte.Engine.Instances

/-!
# Which chain a receive message key comes from

`recvDerivations` lists the sessions whose receive chain one call of
`zia_session_decrypt` feeds to `kdf_ck`; a run also records the chain key of
every DH ratchet step. A chain is established when it continues one of these.

An initiator starts with `has_dhr` and no receive chain, and the test for a new
remote key looks at `has_dhr` only. A header that repeats the peer's signed
prekey therefore skips the DH step, and after a restore the chain key it finds is
32 zero bytes.
-/
namespace ZiaCrypte.Engine

open ZiaCrypte.Lib

variable {K R : Type} (P : Primitives K)

/-! ## Derivations of a call -/

/-- The sessions `skip_recv_chain_to` derives a key from, turn by turn. -/
def skipLoopDerivations (stop : UInt32) : Nat → ZiaSession K → List (ZiaSession K)
  | 0, _ => []
  | fuel + 1, s =>
      if s.nr < stop then
        s :: match kdfCk P s.recvChainKey with
          | none => []
          | some (nextCk, mk) => skipLoopDerivations stop fuel (skipTurn s nextCk mk)
      else []

def skipDerivations (s : ZiaSession K) (stop : UInt32) : List (ZiaSession K) :=
  if !s.hasRecvChain then []
  else if stop ≤ s.nr then []
  else if (stop - s.nr).toNat > kMaxSkippedKeys then []
  else skipLoopDerivations P stop (stop - s.nr).toNat s

/-- The sessions a call of `zia_session_decrypt` derives a receive key from, in
order: closing the old chain, skipping on the current one, and the message itself. -/
def recvDerivations (env : CallEnv K) (s : ZiaSession K) (header ciphertext : Bytes) :
    List (ZiaSession K) :=
  let h := decodeHeader header
  if reachesRecvChain s header ciphertext then
    (if opensNewChain s h then skipDerivations P s h.pn else []) ++
      match openChain P env s h with
      | .ok _ t =>
          skipDerivations P t h.n ++
            match skipRecvChainTo P t h.n with
            | .ok _ u => [u]
            | _ => []
      | _ => []
  else []

/-- The receive chain key a DH step of this call establishes, if it takes one. -/
def establishedBy (env : CallEnv K) (s : ZiaSession K) (header ciphertext : Bytes) : List K :=
  let h := decodeHeader header
  if reachesRecvChain s header ciphertext && opensNewChain s h then
    match skipRecvChainTo P s h.pn with
    | .ok _ t =>
        [(kdfRk P t.rootKey ((P.x25519Scalarmult t.dhsPrivate h.dhPublic).getD env.stack₁)).2]
    | _ => []
  else []

/-- A session together with the chain keys its DH steps have established so far. -/
structure TrackedSession (K : Type) where
  session : ZiaSession K
  established : List K

def SessionCall.establishes : SessionCall K R → ZiaSession K → List K
  | .decrypt env header ciphertext, s => establishedBy P env s header ciphertext
  | _, _ => []

def trackedStep (reload : R → ZiaSession K → ZiaSession K) (c : SessionCall K R)
    (st : TrackedSession K) : Option (TrackedSession K) :=
  (c.apply P reload st.session).map fun t =>
    ⟨t, st.established ++ c.establishes P st.session⟩

/-- The receive chain of `s` exists and continues a chain in `chains`. -/
def OnEstablishedChain (chains : List K) (s : ZiaSession K) : Prop :=
  s.hasRecvChain = true ∧ ∃ ck ∈ chains, ∃ i, s.recvChainKey = some (chainKeyAt P ck i)

/-- Every receive key the call derives comes from an established chain. -/
def DerivesFromEstablished (c : SessionCall K R) (st : TrackedSession K) : Prop :=
  match c with
  | .decrypt env header ciphertext =>
      ∀ t ∈ recvDerivations P env st.session header ciphertext,
        OnEstablishedChain P (st.established ++ c.establishes P st.session) t
  | _ => True

/-! ## Along a chain -/

variable {P}

theorem OnEstablishedChain.mono {chains more : List K} {s : ZiaSession K}
    (h : OnEstablishedChain P chains s) : OnEstablishedChain P (chains ++ more) s := by
  obtain ⟨hflag, ck, hck, i, hi⟩ := h
  exact ⟨hflag, ck, List.mem_append_left _ hck, i, hi⟩

theorem OnEstablishedChain.skipTurn {chains : List K} {s : ZiaSession K} {ck : K}
    (h : OnEstablishedChain P chains s) (hck : s.recvChainKey = some ck) :
    OnEstablishedChain P chains (skipTurn s (nextChainKey P ck) (messageKey P ck)) := by
  obtain ⟨hflag, c, hc, i, hi⟩ := h
  obtain rfl := Option.some.inj (hck.symm.trans hi)
  exact ⟨hflag, c, hc, i + 1, by rw [← nextChainKey_chainKeyAt]; rfl⟩

variable (P)

theorem skipLoop_onEstablishedChain {chains : List K} (stop : UInt32) (fuel : Nat)
    {s t : ZiaSession K} (h : OnEstablishedChain P chains s)
    (hskip : skipLoop P stop fuel s = .ok () t) : OnEstablishedChain P chains t := by
  induction fuel generalizing s with
  | zero =>
    cases hskip
    exact h
  | succ fuel ih =>
    unfold skipLoop at hskip
    split at hskip
    · cases hck : s.recvChainKey with
      | none => simp [hck, kdfCk] at hskip
      | some ck =>
        simp only [hck, kdfCk, Option.map_some] at hskip
        exact ih (h.skipTurn hck) hskip
    · cases hskip
      exact h

theorem skipLoopDerivations_onEstablishedChain {chains : List K} (stop : UInt32) (fuel : Nat)
    {s : ZiaSession K} (h : OnEstablishedChain P chains s) :
    ∀ t ∈ skipLoopDerivations P stop fuel s, OnEstablishedChain P chains t := by
  induction fuel generalizing s with
  | zero => simp [skipLoopDerivations]
  | succ fuel ih =>
    unfold skipLoopDerivations
    split
    · cases hck : s.recvChainKey with
      | none => simpa [kdfCk] using h
      | some ck =>
        intro t ht
        rcases List.mem_cons.mp ht with rfl | ht
        · exact h
        · exact ih (h.skipTurn hck) t ht
    · simp

/-- A flag that is up means the chain is an established one. -/
def FlagHonest (chains : List K) (s : ZiaSession K) : Prop :=
  s.hasRecvChain = true → OnEstablishedChain P chains s

theorem skipRecvChainTo_onEstablishedChain {chains : List K} {s t : ZiaSession K} {stop : UInt32}
    (h : FlagHonest P chains s) (hskip : skipRecvChainTo P s stop = .ok () t) :
    FlagHonest P chains t := by
  unfold skipRecvChainTo at hskip
  split at hskip
  · cases hskip
    exact h
  rename_i hflag
  split at hskip
  · cases hskip
    exact h
  split at hskip
  · cases hskip
  · intro _
    exact skipLoop_onEstablishedChain P stop _ (h (by simpa using hflag)) hskip

theorem skipDerivations_onEstablishedChain {chains : List K} {s : ZiaSession K} (stop : UInt32)
    (h : FlagHonest P chains s) :
    ∀ t ∈ skipDerivations P s stop, OnEstablishedChain P chains t := by
  unfold skipDerivations
  split
  · simp
  rename_i hflag
  split
  · simp
  split
  · simp
  · exact skipLoopDerivations_onEstablishedChain P stop _ (h (by simpa using hflag))

/-! ## Call by call -/

/-- A DH step of the call records the chain it leaves the session on. -/
theorem openChain_flagHonest {chains : List K} {env : CallEnv K} {s t : ZiaSession K}
    {header ciphertext : Bytes} (hreach : reachesRecvChain s header ciphertext = true)
    (h : FlagHonest P chains s) (hopen : openChain P env s (decodeHeader header) = .ok () t) :
    FlagHonest P (chains ++ establishedBy P env s header ciphertext) t := by
  unfold openChain at hopen
  split at hopen
  · rename_i hnew
    obtain ⟨_, u, hskip, hstep⟩ := Outcome.andThen_eq_ok.mp hopen
    cases hstep
    intro _
    have hest : establishedBy P env s header ciphertext =
        [(kdfRk P u.rootKey
          ((P.x25519Scalarmult u.dhsPrivate (decodeHeader header).dhPublic).getD env.stack₁)).2] := by
      simp only [establishedBy, hreach, hnew, hskip, Bool.and_self, if_true]
    rw [hest]
    exact ⟨rfl, _, List.mem_append_right _ (List.mem_singleton.mpr rfl), 0, rfl⟩
  · cases hopen
    exact fun hflag => (h hflag).mono

/-- The invariant of a run: flags are honest about the chains recorded so far. -/
structure TrackedInv (st : TrackedSession K) : Prop where
  wellFormed : WellFormed st.session
  honest : FlagHonest P st.established st.session

theorem trackedInv_start (start : SessionStart K) : TrackedInv P ⟨start.session P, []⟩ := by
  refine ⟨wellFormed_start P start, ?_⟩
  intro hflag
  cases start <;> simp [SessionStart.session, initAsInitiator, initAsResponder] at hflag

/-- What a decryption leaves behind, in terms of the chains recorded with it. -/
theorem decrypt_flagHonest {chains : List K} {env : CallEnv K} {s t : ZiaSession K}
    {header ciphertext : Bytes} (h : FlagHonest P chains s)
    (ht : (ziaSessionDecrypt P env s header ciphertext).session? = some t) :
    FlagHonest P (chains ++ establishedBy P env s header ciphertext) t := by
  have hself : FlagHonest P (chains ++ establishedBy P env s header ciphertext) s :=
    fun hflag => (h hflag).mono
  have htaken : ∀ key u, takeSkippedKey s (decodeHeader header).dhPublic
      (decodeHeader header).n = some (key, u) →
      FlagHonest P (chains ++ establishedBy P env s header ciphertext) u := by
    intro key u htake
    obtain ⟨_, _, _, _, _, _, _, rfl⟩ := takeSkippedKey_some htake
    exact hself
  have hadvanced : reachesRecvChain s header ciphertext = true → ∀ u,
      advanceRecvChain P env s (decodeHeader header) = .ok () u →
      FlagHonest P (chains ++ establishedBy P env s header ciphertext) u := by
    intro hreach u hadv
    obtain ⟨_, v, hopen, hskip⟩ := Outcome.andThen_eq_ok.mp hadv
    exact skipRecvChainTo_onEstablishedChain P (openChain_flagHonest P hreach h hopen) hskip
  cases hd : ziaSessionDecrypt P env s header ciphertext with
  | fault =>
    rw [hd] at ht
    cases ht
  | ok pt u =>
    rw [hd] at ht
    obtain rfl := Option.some.inj ht
    rcases decrypt_ok_cases P hd with ⟨key, htake, _⟩ | ⟨hreach, v, ck, hadv, hck, _, rfl⟩
    · exact htaken key u htake
    · intro hflag
      obtain ⟨_, c, hc, i, hi⟩ := hadvanced hreach v hadv hflag
      obtain rfl := Option.some.inj (hck.symm.trans hi)
      exact ⟨hflag, c, hc, i + 1, by rw [← nextChainKey_chainKeyAt]⟩
  | error rc u =>
    rw [hd] at ht
    obtain rfl := Option.some.inj ht
    rcases decrypt_error_cases P hd with rfl | ⟨key, htake⟩ | ⟨hreach, hadv | hadv⟩
    · exact hself
    · exact htaken key u htake
    · rcases Outcome.andThen_eq_error.mp hadv with hopen | ⟨_, v, hopen, hskip⟩
      · unfold openChain at hopen
        split at hopen
        · rcases Outcome.andThen_eq_error.mp hopen with hskip | ⟨_, v, _, hstep⟩
          · obtain ⟨_, rfl⟩ := skipRecvChainTo_error P hskip
            exact hself
          · cases hstep
        · cases hopen
      · obtain ⟨_, rfl⟩ := skipRecvChainTo_error P hskip
        exact openChain_flagHonest P hreach h hopen
    · exact hadvanced hreach u hadv

/-- A call keeps the invariant, and so does a store followed by a restore. -/
theorem trackedInv_step (Q : Primitives Key) (c : SessionCall Key Vault)
    (st st' : TrackedSession Key) (h : TrackedInv Q st)
    (hstep : trackedStep Q reloadSession c st = some st') : TrackedInv Q st' := by
  obtain ⟨t, ht, rfl⟩ := Option.map_eq_some_iff.mp hstep
  refine ⟨h.wellFormed.apply Q wellFormed_reload c st.session t ht, ?_⟩
  cases c with
  | encrypt env plaintext =>
    simp only [SessionCall.establishes, List.append_nil]
    cases he : ziaSessionEncrypt Q env st.session plaintext with
    | ok m u =>
      simp only [SessionCall.apply, he] at ht
      obtain rfl := Option.some.inj ht
      obtain ⟨ck, _, _, _, _, rfl⟩ := encrypt_ok_cases Q he
      exact h.honest
    | error rc u =>
      simp only [SessionCall.apply, he] at ht
      obtain rfl := Option.some.inj ht
      rw [encrypt_error Q he]
      exact h.honest
    | fault =>
      simp only [SessionCall.apply, he] at ht
      cases ht
  | decrypt env header ciphertext => exact decrypt_flagHonest Q h.honest ht
  | reload r =>
    obtain rfl := Option.some.inj ht
    simp only [SessionCall.establishes, List.append_nil]
    rcases reloadSession_eq r h.wellFormed with heq | heq
    · rw [heq]
      exact h.honest
    · intro hflag
      rw [heq] at hflag ⊢
      obtain ⟨_, c, hc, i, hi⟩ := h.honest hflag
      exact ⟨hflag, c, hc, i, by rw [restored_recvChainKey h.wellFormed hflag, hi]⟩

/-- With such a header the call derives from the session as it is, whose receive
chain does not exist. -/
theorem mem_recvDerivations_of_enters (env : CallEnv K) {s : ZiaSession K}
    (header ciphertext : Bytes) (h : WellFormed s)
    (henter : (SessionCall.decrypt env header ciphertext : SessionCall K R).entersWithoutChain s =
      true) :
    s.hasRecvChain = false ∧ s ∈ recvDerivations P env s header ciphertext := by
  simp only [SessionCall.entersWithoutChain, Bool.and_eq_true, beq_iff_eq,
    decide_eq_true_eq] at henter
  obtain ⟨⟨hlen, hct⟩, hrep⟩ := henter
  have hparts := hrep
  simp only [repeatsPrekey, Bool.and_eq_true, Bool.not_eq_eq_eq_not, Bool.not_true,
    beq_iff_eq] at hparts
  obtain ⟨⟨hdhr, hflag⟩, heq⟩ := hparts
  have hreach : reachesRecvChain s header ciphertext = true := by
    refine reachesRecvChain_iff.mpr ⟨hlen, hct, ?_, ?_⟩
    · rw [takeSkippedKey_none, h.emptyCache hflag]
      simp
    · simp [isReplay, hflag]
  have hopens : opensNewChain s (decodeHeader header) = false := by
    simp [opensNewChain, hdhr, heq]
  have hopen : openChain P env s (decodeHeader header) = .ok () s := by
    simp [openChain, hopens]
  refine ⟨hflag, ?_⟩
  simp [recvDerivations, hreach, hopens, hopen, skipRecvChainTo_absent P _ hflag]

theorem recvDerivations_onEstablishedChain {chains : List K} {env : CallEnv K}
    {s : ZiaSession K} {header ciphertext : Bytes} (h : FlagHonest P chains s)
    (henter : (SessionCall.decrypt env header ciphertext : SessionCall K R).entersWithoutChain s =
      false) :
    ∀ t ∈ recvDerivations P env s header ciphertext,
      OnEstablishedChain P (chains ++ establishedBy P env s header ciphertext) t := by
  intro t ht
  unfold recvDerivations at ht
  split at ht
  swap
  · cases ht
  rename_i hreach
  obtain ⟨hlen, hct, _, _⟩ := reachesRecvChain_iff.mp hreach
  have hrep : repeatsPrekey s (decodeHeader header) = false := by
    simpa [SessionCall.entersWithoutChain, hlen, hct] using henter
  rcases List.mem_append.mp ht with hclose | hrest
  · split at hclose
    · exact (skipDerivations_onEstablishedChain P _ h t hclose).mono
    · cases hclose
  · cases hopen : openChain P env s (decodeHeader header) with
    | error rc u => simp [hopen] at hrest
    | fault => simp [hopen] at hrest
    | ok out u =>
      simp only [hopen] at hrest
      have hu := openChain_flagHonest P hreach h hopen
      rcases List.mem_append.mp hrest with hskip | hlast
      · exact skipDerivations_onEstablishedChain P _ hu t hskip
      · cases hskip : skipRecvChainTo P u (decodeHeader header).n with
        | error rc v => simp [hskip] at hlast
        | fault => simp [hskip] at hlast
        | ok out' v =>
          simp only [hskip, List.mem_singleton] at hlast
          subst hlast
          have hadv : advanceRecvChain P env s (decodeHeader header) = .ok () t := by
            rw [advanceRecvChain, hopen]
            exact hskip
          exact skipRecvChainTo_onEstablishedChain P hu hskip (hasRecvChain_of_advance P hrep hadv)

/-- The derivations of a call all lie on established chains, or one of them has
no receive chain at all. -/
theorem derivesFromEstablished_iff (c : SessionCall K R) {st : TrackedSession K}
    (h : TrackedInv P st) :
    DerivesFromEstablished P c st ↔ c.entersWithoutChain st.session = false := by
  obtain ⟨s, chains⟩ := st
  cases c with
  | encrypt env plaintext => simp [DerivesFromEstablished, SessionCall.entersWithoutChain]
  | reload r => simp [DerivesFromEstablished, SessionCall.entersWithoutChain]
  | decrypt env header ciphertext =>
    constructor
    · intro hder
      by_contra henter
      rw [Bool.not_eq_false] at henter
      obtain ⟨hflag, hmem⟩ := mem_recvDerivations_of_enters P env header ciphertext h.wellFormed henter
      exact Bool.noConfusion (hflag.symm.trans (hder s hmem).1)
    · intro henter t ht
      exact recvDerivations_onEstablishedChain P h.honest henter t ht

/-- A message opened with the receive chain is opened with the last derivation. -/
theorem opened_with_last_derivation {env : CallEnv K} {s t : ZiaSession K}
    {header ciphertext pt : Bytes} (hreach : reachesRecvChain s header ciphertext = true)
    (h : ziaSessionDecrypt P env s header ciphertext = .ok pt t) :
    ∃ u ck, (recvDerivations P env s header ciphertext).getLast? = some u ∧
      u.recvChainKey = some ck ∧
      P.aeadDecrypt (messageKey P ck) zeroNonce ciphertext (messageAd s header) = some pt := by
  rw [decrypt_of_reaches P env hreach] at h
  obtain ⟨_, u, hadv, hopened⟩ := Outcome.andThen_eq_ok.mp h
  obtain ⟨_, v, hopen, hskip⟩ := Outcome.andThen_eq_ok.mp hadv
  rcases openWithRecvChain_cases P env u ciphertext (messageAd s header) with ⟨_, heq⟩ | ⟨ck, hck, heq⟩
  · rw [heq] at hopened
    cases hopened
  · rw [heq] at hopened
    obtain ⟨hdec, _⟩ := openMessage_ok P hopened
    refine ⟨u, ck, ?_, hck, hdec⟩
    simp [recvDerivations, hreach, hopen, hskip]

/-! ## Runs -/

/-- Over any run, every receive key comes from a chain a DH step established
exactly when no decryption meets the stored `dhr_public` without a chain. -/
theorem receiveKeys_fromEstablishedChain_iff (Q : Primitives Key) (start : SessionStart Key)
    (calls : List (SessionCall Key Vault)) :
    Always (trackedStep Q reloadSession) (DerivesFromEstablished Q) calls
        ⟨start.session Q, []⟩ ↔
      Always (trackedStep Q reloadSession)
        (fun c st => c.entersWithoutChain st.session = false) calls ⟨start.session Q, []⟩ :=
  always_congr (TrackedInv Q) (trackedInv_step Q) (fun c _ h => derivesFromEstablished_iff Q c h)
    (trackedInv_start Q start)

/-! ## What the missing chain lets through -/

/-- A restored initiator that has received nothing accepts a message made of
public data only: the two identities, the signed prekey and a key of zeros. -/
theorem forged_accepted {Q : Primitives Key} (hQ : AeadCorrect Q) (env env' : CallEnv Key)
    (halloc : env'.alloc = true) (ad : FixedBytes 64) (sk : Key) (signedPrekey : PublicKey)
    {plaintext ciphertext : Bytes}
    (hseal : Q.aeadEncrypt (messageKey Q keyZero) zeroNonce plaintext
      (ad.bytes ++ encodeHeader ⟨0, 0, signedPrekey⟩) = some ciphertext) :
    ∃ t, ziaSessionDecrypt Q env' (restored keyZero (initAsInitiator Q env ad sk signedPrekey))
      (encodeHeader ⟨0, 0, signedPrekey⟩) ciphertext = .ok plaintext t := by
  obtain ⟨hopen, hlen⟩ := hQ _ _ _ _ _ hseal
  have hreach : reachesRecvChain (restored keyZero (initAsInitiator Q env ad sk signedPrekey))
      (encodeHeader ⟨0, 0, signedPrekey⟩) ciphertext = true := by
    refine reachesRecvChain_iff.mpr ⟨length_encodeHeader _, by omega, ?_, ?_⟩
    · simp [takeSkippedKey_none, restored, initAsInitiator]
    · simp [isReplay, restored, initAsInitiator]
  have hrep : repeatsPrekey (restored keyZero (initAsInitiator Q env ad sk signedPrekey))
      (decodeHeader (encodeHeader ⟨0, 0, signedPrekey⟩)) = true := by
    simp [repeatsPrekey, restored, initAsInitiator]
  rw [decrypt_of_reaches Q env' hreach, advanceRecvChain_of_repeatsPrekey Q env' hrep,
    Outcome.andThen_ok]
  have hkey : (restored keyZero (initAsInitiator Q env ad sk signedPrekey)).recvChainKey =
      some keyZero := by
    simp [restored, initAsInitiator]
  have had : messageAd (restored keyZero (initAsInitiator Q env ad sk signedPrekey))
      (encodeHeader ⟨0, 0, signedPrekey⟩) = ad.bytes ++ encodeHeader ⟨0, 0, signedPrekey⟩ := rfl
  simp only [openWithRecvChain, hkey, kdfCk, Option.map_some, had, openMessage, halloc, hopen]
  exact ⟨_, rfl⟩

/-- The run that restores this initiator and hands it the forged message. -/
theorem receiveKeys_notFromEstablishedChain :
    (∃ t, ziaSessionDecrypt sample (sampleEnv 4) (reloadSession sampleVault storedInitiator)
      forgedHeader forgedCiphertext = .ok [112] t) ∧
    ¬ Always (trackedStep sample reloadSession) (DerivesFromEstablished sample)
      [.reload sampleVault, .decrypt (sampleEnv 4) forgedHeader forgedCiphertext]
      ⟨(SessionStart.initiator (sampleEnv 2) sampleAd (sampleKey 3) (sampleKey 1)).session sample,
        []⟩ := by
  have hreload : reloadSession sampleVault storedInitiator = restored keyZero storedInitiator := by
    decide +kernel
  constructor
  · rw [hreload]
    exact forged_accepted sample_aeadCorrect (sampleEnv 2) (sampleEnv 4) rfl sampleAd
      (sampleKey 3) (sampleKey 1) rfl
  · intro h
    obtain ⟨_, hafter⟩ := h
    have hcall := (hafter ⟨reloadSession sampleVault storedInitiator, []⟩ rfl).1
    rw [hreload] at hcall
    have hwf : WellFormed (restored keyZero storedInitiator) :=
      (wellFormed_start sample (.initiator (sampleEnv 2) sampleAd (sampleKey 3)
        (sampleKey 1))).restored keyZero
    obtain ⟨hflag, hmem⟩ := mem_recvDerivations_of_enters (R := Vault) sample (sampleEnv 4)
      forgedHeader forgedCiphertext hwf (by decide +kernel)
    exact Bool.noConfusion (hflag.symm.trans (hcall _ hmem).1)

end ZiaCrypte.Engine
