import ZiaCrypte.Engine.DecryptSpec
import ZiaCrypte.Engine.Instances

/-!
# What a rejected message leaves behind

`zia_session_decrypt` works on the session in place and checks the AEAD last. A
rejection leaves the session alone when it comes before the first mutation, or
when there is nothing to mutate: the message of the current chain at exactly
`nr`.
-/
namespace ZiaCrypte.Engine

open ZiaCrypte.Lib

variable {K R : Type} (P : Primitives K)

/-- Nothing is taken, skipped or stepped before the call can be rejected. -/
def rejectsInPlace (s : ZiaSession K) (header ciphertext : Bytes) : Bool :=
  let h := decodeHeader header
  if reachesRecvChain s header ciphertext then
    if opensNewChain s h then gapRefused s h.pn
    else !s.hasRecvChain || gapRefused s h.n || gap s h.n == 0
  else
    header.length != kHeaderLen || decide (ciphertext.length < aeadABytes) ||
      (takeSkippedKey s h.dhPublic h.n).isNone

/-- A rejection leaves the session as it was. -/
def RejectionKeeps (env : CallEnv K) (s : ZiaSession K) (header ciphertext : Bytes) : Prop :=
  ∀ rc t, ziaSessionDecrypt P env s header ciphertext = .error rc t → t = s

/-! ## Sessions that did change -/

variable {P}

theorem takeSkippedKey_ne {s t : ZiaSession K} {dh : PublicKey} {n : UInt32} {key : K}
    (h : takeSkippedKey s dh n = some (key, t)) : t ≠ s := by
  obtain ⟨sk, before, after, hsplit, _, _, _, rfl⟩ := takeSkippedKey_some h
  intro heq
  have hlen := congrArg (fun u : ZiaSession K => u.skipped.length) heq
  simp only [hsplit, List.length_append, List.length_cons] at hlen
  omega

theorem skipBy_ne {s : ZiaSession K} {ck : K} {count : Nat} (hpos : 0 < count)
    (hsmall : count ≤ kMaxSkippedKeys) : skipBy P s ck count ≠ s := by
  intro heq
  have hnr := congrArg (fun u : ZiaSession K => u.nr.toNat) heq
  simp only [skipBy, UInt32.toNat_add, UInt32.toNat_ofNat'] at hnr
  have hlt := s.nr.toNat_lt
  simp only [kMaxSkippedKeys] at hsmall
  omega

/-- A session that stepped to the header's key is not the one that had to. -/
theorem ne_of_opensNewChain {s t : ZiaSession K} {h : RatchetHeader}
    (hopens : opensNewChain s h = true) (hdhr : t.hasDhr = true)
    (hpub : t.dhrPublic = h.dhPublic) : t ≠ s := by
  rintro rfl
  simp [opensNewChain, hdhr, hpub] at hopens

variable (P)

/-! ## Branch by branch -/

theorem rejectionKeeps_of_not_reaches {env : CallEnv K} {s : ZiaSession K}
    {header ciphertext : Bytes} (hreach : reachesRecvChain s header ciphertext = false) :
    RejectionKeeps P env s header ciphertext ↔
      rejectsInPlace s header ciphertext = true ∨ opensSelected P env s header ciphertext = true := by
  rcases decrypt_of_not_reaches P env hreach with ⟨rc, heq⟩ | ⟨key, t, htake, hlen, hct, heq⟩
  · have hin : rejectsInPlace s header ciphertext = true := by
      by_contra hno
      simp only [rejectsInPlace, hreach, Bool.false_eq_true, if_false, Bool.or_eq_true,
        bne_iff_ne, decide_eq_true_eq, not_or, Bool.not_eq_true,
        Option.isNone_eq_false_iff] at hno
      obtain ⟨⟨hlen, hct⟩, htake⟩ := hno
      obtain ⟨taken, htaken⟩ := Option.isSome_iff_exists.mp htake
      simp only [ziaSessionDecrypt, hlen, if_false, hct, htaken] at heq
      unfold openMessage at heq
      split at heq
      · cases heq
        exact takeSkippedKey_ne htaken rfl
      · split at heq <;> cases heq
        exact takeSkippedKey_ne htaken rfl
    refine ⟨fun _ => Or.inl hin, fun _ rc' t ht => ?_⟩
    rw [heq] at ht
    cases ht
    rfl
  · have hnot : rejectsInPlace s header ciphertext = false := by
      simp [rejectsInPlace, hreach, hlen, Nat.not_lt.mpr hct, htake]
    have hsel : opensSelected P env s header ciphertext =
        (env.alloc && (P.aeadDecrypt key zeroNonce ciphertext (messageAd s header)).isSome) := by
      simp [opensSelected, selectedKey, htake]
    rw [hnot, hsel]
    simp only [Bool.false_eq_true, false_or]
    constructor
    · intro hkeeps
      by_contra hno
      rw [Bool.not_eq_true] at hno
      obtain ⟨rc, herr⟩ := openMessage_isError P t t hno
      exact takeSkippedKey_ne htake (hkeeps rc t (heq.trans herr))
    · intro hopens rc u hu
      obtain ⟨pt, hok⟩ := openMessage_isOk P t t hopens
      rw [heq, hok] at hu
      cases hu

theorem rejectionKeeps_of_new {env : CallEnv K} {s : ZiaSession K} {header ciphertext : Bytes}
    (hwf : WellFormed s) (hreach : reachesRecvChain s header ciphertext = true)
    (hopens : opensNewChain s (decodeHeader header) = true) :
    RejectionKeeps P env s header ciphertext ↔
      rejectsInPlace s header ciphertext = true ∨ opensSelected P env s header ciphertext = true := by
  obtain ⟨_, _, htake, _⟩ := reachesRecvChain_iff.mp hreach
  have hin : rejectsInPlace s header ciphertext = gapRefused s (decodeHeader header).pn := by
    simp [rejectsInPlace, hreach, hopens]
  cases hgap : gapRefused s (decodeHeader header).pn with
  | true =>
    rw [hin, hgap]
    refine ⟨fun _ => Or.inl rfl, fun _ rc t ht => ?_⟩
    rw [decrypt_of_reaches P env hreach, advanceRecvChain_new_refused P env hopens hgap] at ht
    cases ht
    rfl
  | false =>
    rw [hin, hgap]
    simp only [Bool.false_eq_true, false_or]
    by_cases hnear : (decodeHeader header).n.toNat ≤ kMaxSkippedKeys
    · have hsel : opensSelected P env s header ciphertext =
          (env.alloc && (P.aeadDecrypt (messageKey P (chainKeyAt P
            (newRecvChain P env s (decodeHeader header).dhPublic)
            (decodeHeader header).n.toNat)) zeroNonce ciphertext
            (messageAd s header)).isSome) := by
        simp [opensSelected, selectedKey, htake, hopens, hnear]
      rw [hsel]
      constructor
      · intro hkeeps
        by_contra hno
        rw [Bool.not_eq_true] at hno
        obtain ⟨rc, herr⟩ := openMessage_isError P _ _ hno
        have hsame := hkeeps rc _ ((decrypt_newChain P env hwf hreach hopens hgap hnear).trans herr)
        exact ne_of_opensNewChain hopens rfl rfl hsame
      · intro hopen rc t ht
        obtain ⟨pt, hok⟩ := openMessage_isOk P _ _ hopen
        rw [decrypt_newChain P env hwf hreach hopens hgap hnear, hok] at ht
        cases ht
    · have hsel : opensSelected P env s header ciphertext = false := by
        simp [opensSelected, selectedKey, htake, hopens, hnear]
      rw [hsel]
      simp only [Bool.false_eq_true, iff_false]
      intro hkeeps
      have hfar := advanceRecvChain_new_far P env hwf hopens hgap (Nat.lt_of_not_le hnear)
      have hsame := hkeeps .skippedKeyLimit (stepped P env s (decodeHeader header))
        (by rw [decrypt_of_reaches P env hreach, hfar]; rfl)
      exact ne_of_opensNewChain hopens rfl rfl hsame

theorem rejectionKeeps_of_current {env : CallEnv K} {s : ZiaSession K} {header ciphertext : Bytes}
    (hwf : WellFormed s) (hreach : reachesRecvChain s header ciphertext = true)
    (hopens : opensNewChain s (decodeHeader header) = false) :
    RejectionKeeps P env s header ciphertext ↔
      rejectsInPlace s header ciphertext = true ∨ opensSelected P env s header ciphertext = true := by
  obtain ⟨_, _, htake, _⟩ := reachesRecvChain_iff.mp hreach
  have hin : rejectsInPlace s header ciphertext =
      (!s.hasRecvChain || gapRefused s (decodeHeader header).n ||
        gap s (decodeHeader header).n == 0) := by
    simp [rejectsInPlace, hreach, hopens]
  cases hflag : s.hasRecvChain with
  | false =>
    have hin' : rejectsInPlace s header ciphertext = true := by simp [hin, hflag]
    refine ⟨fun _ => Or.inl hin', fun _ rc t ht => ?_⟩
    rw [decrypt_of_reaches P env hreach, advanceRecvChain_current P env hopens,
      skipRecvChainTo_absent P _ hflag, Outcome.andThen_ok] at ht
    rcases openWithRecvChain_cases P env s ciphertext (messageAd s header) with
      ⟨_, heq⟩ | ⟨ck, _, heq⟩
    · rw [heq] at ht
      cases ht
    · rw [heq] at ht
      exact (openMessage_error P ht).1
  | true =>
    obtain ⟨ck, hck⟩ := hwf.recvKey hflag
    cases hgap : gapRefused s (decodeHeader header).n with
    | true =>
      have hin' : rejectsInPlace s header ciphertext = true := by simp [hin, hgap]
      refine ⟨fun _ => Or.inl hin', fun _ rc t ht => ?_⟩
      rw [decrypt_of_reaches P env hreach, advanceRecvChain_current P env hopens,
        skipRecvChainTo_of_refused hgap] at ht
      cases ht
      rfl
    | false =>
      have heq := decrypt_currentChain P env hwf hreach hopens hgap hflag hck
      have hsel : opensSelected P env s header ciphertext =
          (env.alloc && (P.aeadDecrypt (messageKey P (chainKeyAt P ck
            (gap s (decodeHeader header).n))) zeroNonce ciphertext
            (messageAd s header)).isSome) := by
        simp [opensSelected, selectedKey, htake, hopens, hck]
      have hin' : rejectsInPlace s header ciphertext = (gap s (decodeHeader header).n == 0) := by
        simp [hin, hflag, hgap]
      rw [hin', hsel, beq_iff_eq]
      constructor
      · intro hkeeps
        by_cases hzero : gap s (decodeHeader header).n = 0
        · exact Or.inl hzero
        · refine Or.inr ?_
          by_contra hno
          rw [Bool.not_eq_true] at hno
          obtain ⟨rc, herr⟩ := openMessage_isError P _ _ hno
          have hsmall : gap s (decodeHeader header).n ≤ kMaxSkippedKeys := by
            simpa [gapRefused, hflag] using hgap
          exact skipBy_ne (Nat.pos_of_ne_zero hzero) hsmall (hkeeps rc _ (heq.trans herr))
      · rintro (hzero | hopen) rc t ht
        · rw [heq] at ht
          rw [(openMessage_error P ht).1, hzero]
          exact skipBy_zero P hck
        · obtain ⟨pt, hok⟩ := openMessage_isOk P _ _ hopen
          rw [heq, hok] at ht
          cases ht

/-- A call keeps a well-formed session on rejection exactly when it can only be
rejected in place, or opens the message. -/
theorem rejectionKeeps_iff {env : CallEnv K} {s : ZiaSession K} {header ciphertext : Bytes}
    (hwf : WellFormed s) :
    RejectionKeeps P env s header ciphertext ↔
      rejectsInPlace s header ciphertext = true ∨ opensSelected P env s header ciphertext = true := by
  cases hreach : reachesRecvChain s header ciphertext with
  | false => exact rejectionKeeps_of_not_reaches P hreach
  | true =>
    cases hopens : opensNewChain s (decodeHeader header) with
    | true => exact rejectionKeeps_of_new P hwf hreach hopens
    | false => exact rejectionKeeps_of_current P hwf hreach hopens

/-! ## Runs of rejected messages -/

/-- One incoming message and what the call draws from outside. -/
structure Attempt (K : Type) where
  env : CallEnv K
  header : Bytes
  ciphertext : Bytes

def Attempt.step (a : Attempt K) (s : ZiaSession K) : Option (ZiaSession K) :=
  (ziaSessionDecrypt P a.env s a.header a.ciphertext).session?

def Attempt.rejected (a : Attempt K) (s : ZiaSession K) : Prop :=
  ∃ rc t, ziaSessionDecrypt P a.env s a.header a.ciphertext = .error rc t

/-- The message opens, on some draw of the call. -/
def Decryptable (s : ZiaSession K) (header ciphertext : Bytes) : Prop :=
  ∃ env pt t, ziaSessionDecrypt P env s header ciphertext = .ok pt t

variable {P}

/-- Rejections that each keep the session keep it together. -/
theorem eq_of_rejected {attempts : List (Attempt K)} {s u : ZiaSession K}
    (h : Always (Attempt.step P) (fun a v => a.rejected P v ∧
      RejectionKeeps P a.env v a.header a.ciphertext) attempts s)
    (hrun : run (Attempt.step P) attempts s = some u) : u = s := by
  induction attempts with
  | nil => exact (Option.some.inj hrun).symm
  | cons a attempts ih =>
    obtain ⟨⟨⟨rc, t, hrej⟩, hkeeps⟩, hrest⟩ := h
    obtain rfl := hkeeps rc t hrej
    have hstep : Attempt.step P a t = some t := by
      rw [Attempt.step, hrej]
      rfl
    rw [run_cons, hstep, Option.bind_some] at hrun
    exact ih (hrest t hstep) hrun

/-- A rejected message leaves a reachable session as it was exactly when the call
can only be rejected before its first mutation, or opens the message. Over any
number of rejected messages that meet this, whatever was decryptable stays so. -/
theorem rejectedMessage_keepsSession_iff (Q : Primitives Key) (start : SessionStart Key)
    (past : List (SessionCall Key Vault)) (s : ZiaSession Key)
    (hrun : run (fun c => c.apply Q reloadSession) past (start.session Q) = some s) :
    (∀ env header ciphertext, RejectionKeeps Q env s header ciphertext ↔
      rejectsInPlace s header ciphertext = true ∨
        opensSelected Q env s header ciphertext = true) ∧
    ∀ attempts u, run (Attempt.step Q) attempts s = some u →
      Always (Attempt.step Q) (fun a v => a.rejected Q v ∧
        (rejectsInPlace v a.header a.ciphertext = true ∨
          opensSelected Q a.env v a.header a.ciphertext = true)) attempts s →
      u = s ∧ ∀ header ciphertext, Decryptable Q s header ciphertext →
        Decryptable Q u header ciphertext := by
  have hwf : WellFormed s :=
    run_invariant (fun c u v hu hv => hu.apply Q wellFormed_reload c u v hv)
      (wellFormed_start Q start) hrun
  refine ⟨fun env header ciphertext => rejectionKeeps_iff Q hwf, fun attempts u hu hall => ?_⟩
  have hkeeps : Always (Attempt.step Q) (fun a v => a.rejected Q v ∧
      RejectionKeeps Q a.env v a.header a.ciphertext) attempts s := by
    refine (always_congr WellFormed ?_ ?_ hwf).mp hall
    · intro a v w hv hw
      obtain ⟨_, hmoves⟩ := decrypt_moves Q hw
      exact hv.moves hmoves
    · intro a v hv
      rw [rejectionKeeps_iff Q hv]
  obtain rfl := eq_of_rejected hkeeps hu
  exact ⟨rfl, fun _ _ h => h⟩

/-- A responder that has received nothing. -/
def freshResponder : ZiaSession Key :=
  initAsResponder sampleAd (sampleKey 3) (sampleKey 1) (sampleKey 1)

/-- A header too short for the format leaves it alone. -/
theorem freshResponder_keeps : RejectionKeeps sample (sampleEnv 4) freshResponder [] [] :=
  ((rejectedMessage_keepsSession_iff sample
    (.responder sampleAd (sampleKey 3) (sampleKey 1) (sampleKey 1)) [] freshResponder rfl).1
      (sampleEnv 4) [] []).mpr (Or.inl (by decide))

/-- The first message of the initiator, as `zia_session_encrypt` writes it. -/
def genuineFirst : EncryptedMessage where
  header := sendHeader storedInitiator
  ciphertext := [1, 2, 3] ++
    sampleTag (messageKey sample (chainKeyAt sample (storedInitiator.sendChainKey.getD keyZero) 0))
      [1, 2, 3] (messageAd storedInitiator (sendHeader storedInitiator))

/-- A header with a key of the attacker's. -/
def garbageHeader : Bytes := encodeHeader ⟨0, 0, sampleKey 9⟩

/-- The responder after the DH step with that key. -/
def afterGarbage : ZiaSession Key :=
  onNewChain sample (sampleEnv 5) freshResponder (decodeHeader garbageHeader)

theorem afterGarbage_not_decryptable :
    ¬ Decryptable sample afterGarbage genuineFirst.header genuineFirst.ciphertext := by
  rintro ⟨env, pt, t, hok⟩
  have hfresh : WellFormed freshResponder :=
    wellFormed_start sample (.responder sampleAd (sampleKey 3) (sampleKey 1) (sampleKey 1))
  have hwf : WellFormed afterGarbage := by
    refine hfresh.moves (advanceRecvChain_silent sample (sampleEnv 5) freshResponder
      (decodeHeader garbageHeader) afterGarbage ?_)
    rw [advanceRecvChain_new sample (sampleEnv 5) hfresh (by decide +kernel) (by decide +kernel)
      (by decide +kernel)]
    rfl
  rw [decrypt_newChain sample env hwf (by decide +kernel) (by decide +kernel) (by decide +kernel)
    (by decide +kernel)] at hok
  have hkey : sample.aeadDecrypt (messageKey sample (chainKeyAt sample
      (newRecvChain sample (sampleEnv 5) afterGarbage (decodeHeader genuineFirst.header).dhPublic)
      (decodeHeader genuineFirst.header).n.toNat)) zeroNonce genuineFirst.ciphertext
      (messageAd afterGarbage genuineFirst.header) = none := by decide +kernel
  have hopen := (openMessage_ok sample hok).1
  rw [show newRecvChain sample env afterGarbage (decodeHeader genuineFirst.header).dhPublic =
    newRecvChain sample (sampleEnv 5) afterGarbage (decodeHeader genuineFirst.header).dhPublic
    from rfl, hkey] at hopen
  cases hopen

/-- The garbage is rejected after the DH step, and the genuine message that would
have opened before it is lost. -/
theorem rejectedMessage_losesGenuine :
    (∃ t, ziaSessionEncrypt sample (sampleEnv 4) storedInitiator [1, 2, 3] =
      .ok genuineFirst t) ∧
    Decryptable sample freshResponder genuineFirst.header genuineFirst.ciphertext ∧
    ziaSessionDecrypt sample (sampleEnv 5) freshResponder garbageHeader
      (List.replicate aeadABytes 0) = .error .cryptoFailure afterGarbage ∧
    afterGarbage ≠ freshResponder ∧
    ¬ Decryptable sample afterGarbage genuineFirst.header genuineFirst.ciphertext := by
  refine ⟨⟨{ storedInitiator with
      sendChainKey := some (nextChainKey sample (storedInitiator.sendChainKey.getD keyZero))
      ns := 1 }, by decide +kernel⟩, ⟨sampleEnv 5, [1, 2, 3], { onNewChain sample (sampleEnv 5)
      freshResponder (decodeHeader genuineFirst.header) with
        recvChainKey := some (chainKeyAt sample (newRecvChain sample (sampleEnv 5)
          freshResponder (decodeHeader genuineFirst.header).dhPublic) 1)
        nr := 1 }, by decide +kernel⟩, by decide +kernel, by decide +kernel,
    afterGarbage_not_decryptable⟩

end ZiaCrypte.Engine
