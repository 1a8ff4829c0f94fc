import ZiaCrypte.Engine.Instances

/-!
# A restored session against the one that was stored

The blob keeps everything but the chain keys whose flag is down, which come back
as zeros. Every call commutes with that, except a decryption whose header repeats
the stored `dhr_public` while no receive chain exists: the stored session reads
through the null pointer of its empty key there, and the restored one goes on
with a key of zeros.
-/
namespace ZiaCrypte.Engine

open ZiaCrypte.Lib

variable {K R : Type} (P : Primitives K)

/-! ## What a caller sees -/

inductive CallResult where
  | encrypted (m : EncryptedMessage)
  | decrypted (plaintext : Bytes)
  | failed (rc : ZiaError)
  | faulted
  | reloaded
  deriving DecidableEq

def Outcome.result {α : Type} (f : α → CallResult) : Outcome K α → CallResult
  | .ok out _ => f out
  | .error rc _ => .failed rc
  | .fault => .faulted

def SessionCall.result : SessionCall K R → ZiaSession K → CallResult
  | .encrypt env plaintext, s => (ziaSessionEncrypt P env s plaintext).result .encrypted
  | .decrypt env header ciphertext, s =>
      (ziaSessionDecrypt P env s header ciphertext).result .decrypted
  | .reload _, _ => .reloaded

/-- Encryptions and decryptions only. -/
abbrev RatchetCall (K : Type) := SessionCall K Empty

def RatchetCall.step (c : RatchetCall K) (s : ZiaSession K) : Option (ZiaSession K) :=
  c.apply P (fun r _ => r.elim) s

/-- The results of a sequence of calls, up to the first that faults. -/
def observe : List (RatchetCall K) → ZiaSession K → List CallResult
  | [], _ => []
  | c :: cs, s =>
      c.result P s ::
        match RatchetCall.step P c s with
        | none => []
        | some t => observe cs t

/-! ## Calls commute with a restore -/

/-- The outcome with another session left behind. -/
def Outcome.mapSession {α : Type} (f : ZiaSession K → ZiaSession K) : Outcome K α → Outcome K α
  | .ok out s => .ok out (f s)
  | .error rc s => .error rc (f s)
  | .fault => .fault

@[simp] theorem Outcome.result_mapSession {α : Type} (g : α → CallResult)
    (f : ZiaSession K → ZiaSession K) (o : Outcome K α) :
    (o.mapSession f).result g = o.result g := by
  cases o <;> rfl

@[simp] theorem Outcome.session?_mapSession {α : Type} (f : ZiaSession K → ZiaSession K)
    (o : Outcome K α) : (o.mapSession f).session? = o.session?.map f := by
  cases o <;> rfl

theorem Outcome.andThen_mapSession {α β : Type} {f : ZiaSession K → ZiaSession K}
    {o : Outcome K α} {g : α → ZiaSession K → Outcome K β}
    (h : ∀ a t, o = .ok a t → g a (f t) = (g a t).mapSession f) :
    (o.mapSession f).andThen g = (o.andThen g).mapSession f := by
  cases o with
  | ok a t => exact h a t rfl
  | error rc t => rfl
  | fault => rfl

variable (zero : K)

theorem takeSkippedKey_restored (s : ZiaSession K) (dh : PublicKey) (n : UInt32) :
    takeSkippedKey (restored zero s) dh n =
      (takeSkippedKey s dh n).map fun taken => (taken.1, restored zero taken.2) := by
  unfold takeSkippedKey
  have hcache : (restored zero s).skipped = s.skipped := rfl
  rw [hcache]
  cases s.skipped.find? (·.isFor dh n) <;> rfl

variable {zero}

theorem skipRecvChainTo_restored {s : ZiaSession K} (h : WellFormed s) (stop : UInt32) :
    skipRecvChainTo P (restored zero s) stop =
      (skipRecvChainTo P s stop).mapSession (restored zero) := by
  rcases skipRecvChainTo_cases P stop h.recvKey with
    ⟨hflag, heq⟩ | ⟨hflag, hgap, heq⟩ | ⟨ck, hflag, hck, hgap, heq⟩
  · rw [heq, skipRecvChainTo_absent P (s := restored zero s) stop hflag]
    rfl
  · rw [heq, skipRecvChainTo_refused P (s := restored zero s) hflag hgap]
    rfl
  · have hck' : (restored zero s).recvChainKey = some ck :=
      (restored_recvChainKey h hflag).trans hck
    rw [heq, skipRecvChainTo_ahead P (s := restored zero s) hflag hck' hgap]
    simp only [Outcome.mapSession, skipBy, restored, gap, hflag, if_true, Option.getD_some]

theorem dhRatchetStep_restored (env : CallEnv K) (s : ZiaSession K) (theirs : PublicKey) :
    dhRatchetStep P env (restored zero s) theirs = restored zero (dhRatchetStep P env s theirs) := by
  simp [dhRatchetStep, restored]

theorem advanceRecvChain_restored {env : CallEnv K} {s : ZiaSession K} (h : WellFormed s)
    (hdr : RatchetHeader) :
    advanceRecvChain P env (restored zero s) hdr =
      (advanceRecvChain P env s hdr).mapSession (restored zero) := by
  have hopen : openChain P env (restored zero s) hdr =
      (openChain P env s hdr).mapSession (restored zero) := by
    have hsame : opensNewChain (restored zero s) hdr = opensNewChain s hdr := rfl
    rw [openChain, openChain, hsame]
    split
    · rw [skipRecvChainTo_restored P h]
      apply Outcome.andThen_mapSession
      intro _ t _
      rw [dhRatchetStep_restored]
      rfl
    · rfl
  rw [advanceRecvChain, advanceRecvChain, hopen]
  apply Outcome.andThen_mapSession
  intro _ t ht
  have hwf : WellFormed t := h.moves (openChain_silent P env s hdr t (by rw [ht]; rfl))
  exact skipRecvChainTo_restored P hwf hdr.n

theorem openMessage_restored (env : CallEnv K) (key : K) (ciphertext ad : Bytes)
    (s accepted : ZiaSession K) :
    openMessage P env key ciphertext ad (restored zero s) (restored zero accepted) =
      (openMessage P env key ciphertext ad s accepted).mapSession (restored zero) := by
  unfold openMessage
  split
  · rfl
  · split <;> rfl

theorem openWithRecvChain_restored {env : CallEnv K} {s : ZiaSession K} (h : WellFormed s)
    (hflag : s.hasRecvChain = true) (ciphertext ad : Bytes) :
    openWithRecvChain P env (restored zero s) ciphertext ad =
      (openWithRecvChain P env s ciphertext ad).mapSession (restored zero) := by
  obtain ⟨ck, hck⟩ := h.recvKey hflag
  have hck' : (restored zero s).recvChainKey = some ck :=
    (restored_recvChainKey h hflag).trans hck
  simp only [openWithRecvChain, hck, hck', kdfCk, Option.map_some]
  rw [← openMessage_restored]
  simp [restored, hflag]

/-- A decryption on a header that does not repeat `dhr_public` before any receive
chain exists sees no difference between a session and its restored copy. -/
theorem decrypt_restored {env : CallEnv K} {s : ZiaSession K} {header ciphertext : Bytes}
    (h : WellFormed s)
    (henter : (SessionCall.decrypt env header ciphertext : SessionCall K R).entersWithoutChain s =
      false) :
    ziaSessionDecrypt P env (restored zero s) header ciphertext =
      (ziaSessionDecrypt P env s header ciphertext).mapSession (restored zero) := by
  unfold ziaSessionDecrypt
  split
  · rfl
  rename_i hlen
  split
  · rfl
  rename_i hct
  have hrep : repeatsPrekey s (decodeHeader header) = false := by
    simpa [SessionCall.entersWithoutChain, not_not.mp hlen, Nat.not_lt.mp hct] using henter
  have had : messageAd (restored zero s) header = messageAd s header := rfl
  have hreplay : isReplay (restored zero s) (decodeHeader header) =
      isReplay s (decodeHeader header) := rfl
  simp only [takeSkippedKey_restored, had, hreplay]
  cases takeSkippedKey s (decodeHeader header).dhPublic (decodeHeader header).n with
  | some taken =>
    simp only [Option.map_some]
    exact openMessage_restored P env _ _ _ _ _
  | none =>
    simp only [Option.map_none]
    split
    · rfl
    · rw [advanceRecvChain_restored P h]
      apply Outcome.andThen_mapSession
      intro _ t ht
      have hwf : WellFormed t := h.moves (advanceRecvChain_silent P env s _ t (by rw [ht]; rfl))
      exact openWithRecvChain_restored P hwf (hasRecvChain_of_advance P hrep ht) _ _

theorem encrypt_restored (env : CallEnv K) {s : ZiaSession K} (h : WellFormed s)
    (plaintext : Bytes) :
    ziaSessionEncrypt P env (restored zero s) plaintext =
      (ziaSessionEncrypt P env s plaintext).mapSession (restored zero) := by
  have hsame : (restored zero s).hasSendChain = s.hasSendChain := rfl
  cases hflag : s.hasSendChain with
  | false => simp [ziaSessionEncrypt, hsame, hflag, Outcome.mapSession]
  | true =>
    obtain ⟨ck, hck⟩ := h.sendKey hflag
    have hck' : (restored zero s).sendChainKey = some ck :=
      (restored_sendChainKey h hflag).trans hck
    have hhdr : sendHeader (restored zero s) = sendHeader s := rfl
    have had : messageAd (restored zero s) (sendHeader s) = messageAd s (sendHeader s) := rfl
    simp only [ziaSessionEncrypt, hsame, hflag, hck, hck', kdfCk, Option.map_some, hhdr, had]
    cases env.alloc with
    | false => simp [Outcome.mapSession]
    | true =>
      cases P.aeadEncrypt (messageKey P ck) zeroNonce plaintext (messageAd s (sendHeader s)) with
      | none => simp [Outcome.mapSession]
      | some c => simp [Outcome.mapSession, restored, hflag]

/-- One call: the same result, and sessions that are again a restore apart. -/
theorem call_restored (zero : K) (c : RatchetCall K) {s : ZiaSession K} (h : WellFormed s)
    (henter : c.entersWithoutChain s = false) :
    c.result P (restored zero s) = c.result P s ∧
      RatchetCall.step P c (restored zero s) = (RatchetCall.step P c s).map (restored zero) := by
  cases c with
  | encrypt env plaintext =>
    simp only [SessionCall.result, RatchetCall.step, SessionCall.apply, encrypt_restored P env h,
      Outcome.result_mapSession, Outcome.session?_mapSession, and_self]
  | decrypt env header ciphertext =>
    simp only [SessionCall.result, RatchetCall.step, SessionCall.apply,
      decrypt_restored (R := Empty) P h henter, Outcome.result_mapSession,
      Outcome.session?_mapSession, and_self]
  | reload r => exact r.elim

/-! ## Sequences of calls -/

variable {P}

theorem WellFormed.ratchetStep {c : RatchetCall K} {s t : ZiaSession K} (h : WellFormed s)
    (hc : RatchetCall.step P c s = some t) : WellFormed t :=
  h.apply P (fun r _ _ => r.elim) c s t hc

variable (P)

/-- Calls that never meet the missing chain cannot tell the two sessions apart. -/
theorem observe_restored {later : List (RatchetCall K)} {s : ZiaSession K} (h : WellFormed s)
    (hcalm : Always (RatchetCall.step P) (fun c u => c.entersWithoutChain u = false) later s) :
    observe P later s = observe P later (restored zero s) := by
  induction later generalizing s with
  | nil => rfl
  | cons c later ih =>
    obtain ⟨henter, hrest⟩ := hcalm
    obtain ⟨hresult, hstep⟩ := call_restored P zero c h henter
    rw [observe, observe, hresult, hstep]
    cases hc : RatchetCall.step P c s with
    | none => rfl
    | some t =>
      simp only [Option.map_some]
      rw [ih (h.ratchetStep hc) (hrest t hc)]

theorem RatchetCall.step_moves {c : RatchetCall K} {s t : ZiaSession K}
    (hc : RatchetCall.step P c s = some t) : ∃ spent, Moves P s spent t := by
  cases c with
  | encrypt env plaintext => exact ⟨[], encrypt_silent P env s plaintext t hc⟩
  | decrypt env header ciphertext => exact decrypt_moves P hc
  | reload r => exact r.elim

/-- An absent chain whose buffer is empty, as both initialisers leave it. -/
def NeverRestored (s : ZiaSession K) : Prop := s.hasRecvChain = false → s.recvChainKey = none

variable {P}

theorem NeverRestored.move {s t : ZiaSession K} {key : Option K} (h : NeverRestored s)
    (hm : Move P s key t) : NeverRestored t := by
  cases hm with
  | take => exact h
  | skip ck hflag hck =>
    intro hflag'
    exact Bool.noConfusion (hflag.symm.trans hflag')
  | ratchet =>
    intro hflag
    cases hflag
  | consume ck hck =>
    intro hflag
    cases (h hflag).symm.trans hck
  | send => exact h

theorem NeverRestored.ratchetStep {c : RatchetCall K} {s t : ZiaSession K} (h : NeverRestored s)
    (hc : RatchetCall.step P c s = some t) : NeverRestored t := by
  obtain ⟨_, hm⟩ := RatchetCall.step_moves P hc
  exact Moves.invariant (fun _ _ _ hs hmove => hs.move hmove) h hm

variable (P)

/-- A call that meets the missing chain comes to `kdf_ck` with the key as it is. -/
theorem result_of_enters {c : RatchetCall K} {s : ZiaSession K} (h : WellFormed s)
    (henter : c.entersWithoutChain s = true) :
    s.hasRecvChain = false ∧ (c.result P s = .faulted ↔ s.recvChainKey = none) := by
  cases c with
  | encrypt => cases henter
  | reload r => exact r.elim
  | decrypt env header ciphertext =>
    simp only [SessionCall.entersWithoutChain, Bool.and_eq_true, beq_iff_eq,
      decide_eq_true_eq] at henter
    obtain ⟨⟨hlen, hct⟩, hrep⟩ := henter
    have hflag : s.hasRecvChain = false := by
      simp only [repeatsPrekey, Bool.and_eq_true, Bool.not_eq_eq_eq_not, Bool.not_true] at hrep
      exact hrep.1.2
    have hreach : reachesRecvChain s header ciphertext = true := by
      refine reachesRecvChain_iff.mpr ⟨hlen, hct, ?_, ?_⟩
      · rw [takeSkippedKey_none, h.emptyCache hflag]
        simp
      · simp [isReplay, hflag]
    refine ⟨hflag, ?_⟩
    rw [SessionCall.result, decrypt_of_reaches P env hreach,
      advanceRecvChain_of_repeatsPrekey P env hrep, Outcome.andThen_ok]
    rcases openWithRecvChain_cases P env s ciphertext (messageAd s header) with ⟨hck, heq⟩ | ⟨ck, hck, heq⟩
    · simp [heq, hck, Outcome.result]
    · rw [heq, hck]
      simp only [reduceCtorEq, iff_false]
      unfold openMessage
      split
      · simp [Outcome.result]
      · split <;> simp [Outcome.result]

/-- A session never restored does differ from its copy when a call meets the
missing chain: it faults and the copy does not. -/
theorem calm_of_observe_eq {later : List (RatchetCall K)} {s : ZiaSession K} (h : WellFormed s)
    (hnever : NeverRestored s) (heq : observe P later s = observe P later (restored zero s)) :
    Always (RatchetCall.step P) (fun c u => c.entersWithoutChain u = false) later s := by
  induction later generalizing s with
  | nil => exact trivial
  | cons c later ih =>
    rw [observe, observe] at heq
    obtain ⟨hhead, htail⟩ := List.cons.inj heq
    have henter : c.entersWithoutChain s = false := by
      by_contra hno
      rw [Bool.not_eq_false] at hno
      obtain ⟨hflag, hfault⟩ := result_of_enters P h hno
      have hno' : c.entersWithoutChain (restored zero s) = true := by
        cases c <;> exact hno
      have hother := (result_of_enters P (h.restored zero) hno').2
      rw [← hhead, hfault.mpr (hnever hflag)] at hother
      have hnone := hother.mp rfl
      cases hnone
    refine ⟨henter, fun t ht => ih (h.ratchetStep ht) (hnever.ratchetStep ht) ?_⟩
    obtain ⟨_, hstep⟩ := call_restored P zero c h henter
    rw [hstep, ht] at htail
    exact htail

/-- A session whose `dhr_public`, if any, comes with a receive chain. -/
def Settled (s : ZiaSession K) : Prop := s.hasDhr = true → s.hasRecvChain = true

variable {P}

theorem Settled.move {s t : ZiaSession K} {key : Option K} (h : Settled s) (hm : Move P s key t) :
    Settled t := by
  cases hm with
  | take => exact h
  | skip => exact h
  | ratchet => exact fun _ => rfl
  | consume => exact h
  | send => exact h

theorem Settled.not_enters {c : SessionCall K R} {s : ZiaSession K} (h : Settled s) :
    c.entersWithoutChain s = false := by
  cases c with
  | encrypt => rfl
  | reload => rfl
  | decrypt env header ciphertext =>
    have hrep : repeatsPrekey s (decodeHeader header) = false := by
      cases hdhr : s.hasDhr with
      | false => simp [repeatsPrekey, hdhr]
      | true => simp [repeatsPrekey, h hdhr]
    simp [SessionCall.entersWithoutChain, hrep]

variable (P)

theorem Settled.calm {s : ZiaSession K} (h : Settled s) (later : List (RatchetCall K)) :
    Always (RatchetCall.step P) (fun c u => c.entersWithoutChain u = false) later s := by
  induction later generalizing s with
  | nil => exact trivial
  | cons c later ih =>
    refine ⟨h.not_enters, fun t ht => ?_⟩
    obtain ⟨_, hm⟩ := RatchetCall.step_moves P ht
    exact ih (Moves.invariant (fun _ _ _ hs hmove => hs.move hmove) h hm)

/-- A key of zeros is what the copy has too: either the two are the same session,
or no send chain exists yet and so no `dhr_public` either. -/
theorem observe_restored_of_zero {s : ZiaSession K} (h : WellFormed s)
    (hzero : s.recvChainKey = some zero) (later : List (RatchetCall K)) :
    observe P later s = observe P later (restored zero s) := by
  cases hsend : s.hasSendChain with
  | true =>
    have hsame : restored zero s = s := by
      obtain ⟨ck, hck⟩ := h.sendKey hsend
      obtain ⟨ad, a, b, c, d, e, f, g, i, rk, j, nr, l, m⟩ := s
      simp only at hsend hck hzero
      subst hsend hck hzero
      simp [restored]
    rw [hsame]
  | false =>
    have hsettled : Settled s := by
      intro hdhr
      rw [← h.sendDhr, hsend] at hdhr
      cases hdhr
    exact observe_restored P h (hsettled.calm P later)

/-! ## Reachable sessions -/

/-- The call is accepted on the branch without a receive chain. -/
def SessionCall.acceptedWithoutChain (c : SessionCall K R) (s : ZiaSession K) : Bool :=
  c.entersWithoutChain s &&
    match c.result P s with
    | .decrypted _ => true
    | _ => false

/-- An absent chain whose buffer is empty, or already what a restore writes. -/
def EmptyOrZero (zero : K) (s : ZiaSession K) : Prop :=
  s.hasRecvChain = false → s.recvChainKey = none ∨ s.recvChainKey = some zero

variable {P}

theorem EmptyOrZero.silent {s t : ZiaSession K} {spent : List K} (h : EmptyOrZero zero s)
    (hm : Moves P s spent t) (hspent : spent = []) : EmptyOrZero zero t := by
  induction hm with
  | refl => exact h
  | tail _ hmove ih =>
    obtain ⟨rfl, hkey⟩ := List.append_eq_nil_iff.mp hspent
    have hu := ih rfl
    cases hmove with
    | take => cases hkey
    | skip ck hflag hck =>
      intro hflag'
      exact Bool.noConfusion (hflag.symm.trans hflag')
    | ratchet =>
      intro hflag
      cases hflag
    | consume => cases hkey
    | send => exact hu

variable (P)

/-- Only a message accepted without a chain moves the key of an absent chain. -/
theorem EmptyOrZero.apply {c : SessionCall Key Vault} {Q : Primitives Key} {s t : ZiaSession Key}
    (hwf : WellFormed s) (h : EmptyOrZero keyZero s) (hcalm : c.acceptedWithoutChain Q s = false)
    (hc : c.apply Q reloadSession s = some t) : EmptyOrZero keyZero t := by
  cases c with
  | encrypt env plaintext => exact h.silent (encrypt_silent Q env s plaintext t hc) rfl
  | reload r =>
    obtain rfl := Option.some.inj hc
    rcases reloadSession_eq r hwf with heq | heq <;> rw [heq]
    · exact h
    · intro hflag
      have hflag' : s.hasRecvChain = false := hflag
      exact Or.inr (by simp [restored, hflag'])
  | decrypt env header ciphertext =>
    have htaken : ∀ key u, takeSkippedKey s (decodeHeader header).dhPublic
        (decodeHeader header).n = some (key, u) → EmptyOrZero keyZero u := by
      intro key u htake
      obtain ⟨_, _, _, _, _, _, _, rfl⟩ := takeSkippedKey_some htake
      exact h
    have hmoved : ∀ u, (advanceRecvChain Q env s (decodeHeader header)).session? = some u →
        EmptyOrZero keyZero u :=
      fun u hu => h.silent (advanceRecvChain_silent Q env s _ u hu) rfl
    cases hd : ziaSessionDecrypt Q env s header ciphertext with
    | fault =>
      simp only [SessionCall.apply, hd] at hc
      cases hc
    | error rc u =>
      simp only [SessionCall.apply, hd] at hc
      obtain rfl := Option.some.inj hc
      rcases decrypt_error_cases Q hd with rfl | ⟨key, htake⟩ | ⟨_, hadv | hadv⟩
      · exact h
      · exact htaken key u htake
      · exact hmoved u (by rw [hadv]; rfl)
      · exact hmoved u (by rw [hadv]; rfl)
    | ok pt u =>
      simp only [SessionCall.apply, hd] at hc
      obtain rfl := Option.some.inj hc
      rcases decrypt_ok_cases Q hd with ⟨key, htake, _⟩ | ⟨hreach, v, ck, hadv, hck, _, rfl⟩
      · exact htaken key u htake
      · obtain ⟨hlen, hct, _, _⟩ := reachesRecvChain_iff.mp hreach
        have hrep : repeatsPrekey s (decodeHeader header) = false := by
          simpa [SessionCall.acceptedWithoutChain, SessionCall.result, hd, Outcome.result,
            SessionCall.entersWithoutChain, hlen, hct] using hcalm
        have hflag := hasRecvChain_of_advance Q hrep hadv
        intro hno
        exact Bool.noConfusion (hflag.symm.trans hno)

/-- A run keeps the session well formed, and keeps the key of an absent chain
empty or zero as long as nothing was accepted without a chain. -/
theorem reachable_invariants (Q : Primitives Key) (start : SessionStart Key)
    {past : List (SessionCall Key Vault)} {s : ZiaSession Key}
    (hrun : run (fun c => c.apply Q reloadSession) past (start.session Q) = some s) :
    WellFormed s ∧
      (Always (fun c => c.apply Q reloadSession)
        (fun c u => c.acceptedWithoutChain Q u = false) past (start.session Q) →
        EmptyOrZero keyZero s) := by
  have hstart := wellFormed_start Q start
  have hempty : EmptyOrZero keyZero (start.session Q) := by
    intro _
    cases start <;> exact Or.inl rfl
  refine ⟨run_invariant (fun c u v hu hv => hu.apply Q wellFormed_reload c u v hv) hstart hrun, ?_⟩
  intro hcalm
  have hboth : WellFormed s ∧ EmptyOrZero keyZero s :=
    run_invariant_of_always (fun u => WellFormed u ∧ EmptyOrZero keyZero u)
      (fun c u v hu hc hv => ⟨hu.1.apply Q wellFormed_reload c u v hv,
        EmptyOrZero.apply hu.1 hu.2 hc hv⟩) ⟨hstart, hempty⟩ hcalm hrun
  exact hboth.2

/-- A reachable session is stored and read back, no strict prefix or extension of
its serialization is accepted, and later calls see no difference between it and
its copy when none of them meets `dhr_public` again without a receive chain, or
when the key of that chain is already the zeros a restore writes. Unless a forged
message was accepted before the store, they see no difference only then. -/
theorem restoredSession_equivalent_iff (Q : Primitives Key) (start : SessionStart Key)
    (past : List (SessionCall Key Vault)) (s : ZiaSession Key)
    (hrun : run (fun c => c.apply Q reloadSession) past (start.session Q) = some s) :
    ∃ data t, serializeState s = some data ∧ deserializeState data = some t ∧
      (∀ cut rest, data = cut ++ rest → rest ≠ [] → deserializeState cut = none) ∧
      (∀ ext, ext ≠ [] → deserializeState (data ++ ext) = none) ∧
      ∀ later : List (RatchetCall Key),
        (s.recvChainKey = some keyZero ∨ Always (RatchetCall.step Q)
            (fun c u => c.entersWithoutChain u = false) later s →
          observe Q later s = observe Q later t) ∧
        (Always (fun c => c.apply Q reloadSession)
            (fun c u => c.acceptedWithoutChain Q u = false) past (start.session Q) →
          observe Q later s = observe Q later t →
          s.recvChainKey = some keyZero ∨ Always (RatchetCall.step Q)
            (fun c u => c.entersWithoutChain u = false) later s) := by
  obtain ⟨hwf, hcalm⟩ := reachable_invariants Q start hrun
  obtain ⟨data, hdata, hread⟩ := readState_reads hwf
  refine ⟨data, restored keyZero s, hdata, hread.parse_eq, ?_, ?_, fun later => ⟨?_, ?_⟩⟩
  · rintro cut rest rfl hrest
    exact hread.parse_prefix hrest
  · intro ext hext
    exact hread.parse_extension hext
  · rintro (hzero | hlater)
    · exact observe_restored_of_zero Q hwf hzero later
    · exact observe_restored Q hwf hlater
  · intro hpast heq
    by_cases hzero : s.recvChainKey = some keyZero
    · exact Or.inl hzero
    · have hnever : NeverRestored s := fun hflag =>
        (hcalm hpast hflag).resolve_right hzero
      exact Or.inr (calm_of_observe_eq Q hwf hnever heq)

/-- A stored initiator comes back and goes on sending the same messages. -/
theorem storedInitiator_roundTrip :
    ∃ data t, serializeState storedInitiator = some data ∧ deserializeState data = some t ∧
      observe sample [.encrypt (sampleEnv 5) [1]] storedInitiator =
        observe sample [.encrypt (sampleEnv 5) [1]] t := by
  obtain ⟨data, t, hdata, hback, _, _, hlater⟩ := restoredSession_equivalent_iff sample
    (.initiator (sampleEnv 2) sampleAd (sampleKey 3) (sampleKey 1)) [] storedInitiator rfl
  exact ⟨data, t, hdata, hback, (hlater _).1 (Or.inr ⟨rfl, fun _ _ => trivial⟩)⟩

/-- On a message that repeats the signed prekey the stored initiator faults, and
its copy decrypts. -/
theorem storedInitiator_not_equivalent :
    ∃ data t, serializeState storedInitiator = some data ∧ deserializeState data = some t ∧
      observe sample [.decrypt (sampleEnv 4) forgedHeader forgedCiphertext] storedInitiator =
        [.faulted] ∧
      observe sample [.decrypt (sampleEnv 4) forgedHeader forgedCiphertext] t =
        [.decrypted [112]] := by
  obtain ⟨data, hdata, hback⟩ := deserializeState_serializeState
    (wellFormed_start sample (.initiator (sampleEnv 2) sampleAd (sampleKey 3) (sampleKey 1)))
  exact ⟨data, restored keyZero storedInitiator, hdata, hback, by decide +kernel,
    by decide +kernel⟩

end ZiaCrypte.Engine
