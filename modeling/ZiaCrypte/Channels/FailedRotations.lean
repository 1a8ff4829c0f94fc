import ZiaCrypte.Channels.Readers

/-!
# Rotations that fail

A renewal changes the owner's key first, in its engine, then seals it, puts it on the server
and returns the link. Where it stops in between, the owner publishes under a key that nobody
has; where the program is stopped, under none.
-/
namespace ZiaCrypte.Channels

open ZiaCrypte.Lib ZiaCrypte.Engine ZiaCrypte.Engine.SenderKeys

variable {D K B : Type} (C : Contexte D K B)

/-! ## A usable channel -/

/-- The entry of a device that processed a distribution, and took the keys `pris` since. -/
def Abonne (distribution : Distribution K) (pris : List Nat) (st : ZiaSenderKey K) : Prop :=
  st.signingPublic = distribution.signingPublic ∧ ∃ n, n < UInt32.size ∧
    Follows C.primitives.toSenderKeyPrimitives distribution.chainKey n pris st

/-- The owner publishes these texts one after the other, and the devices with the distribution
read each of them within the limits of the engine. -/
def SeLisent (d : D) (id : Identifier) (distribution : Distribution K) :
    List Bytes → List (ZiaSenderKey K) → Prop
  | [], _ => True
  | clair :: textes, keys => ∃ st, trouver keys id [] = some st ∧
      let index := st.iteration.toNat
      (index + 1 < UInt32.size → ∃ bytes keys',
        ziaSenderKeyEncrypt C.primitives.toSenderKeyPrimitives true keys id clair =
            (.ok bytes, keys') ∧
          (∀ lecteur pris st', trouver lecteur id (C.ids.id d) = some st' →
            Abonne C distribution pris st' → index ∉ pris →
            index - st'.iteration.toNat ≤ kMaxSkip →
            st'.skipped.length + (index - st'.iteration.toNat) ≤ SenderKeys.kMaxSkippedKeys →
            (ziaSenderKeyDecrypt C.primitives.toSenderKeyPrimitives true lecteur id (C.ids.id d)
              bytes).1 = .ok clair) ∧
          SeLisent d id distribution textes keys')

/-- The owner can publish whatever it wants, for those that have the distribution; and the link
opens this distribution on the server, for those that come. -/
structure Utilisable (d : D) (id : Identifier) (secret : K) (distribution : Distribution K)
    (s : Monde D K B) : Prop where
  publie : (s.conv? d id).any (·.channelIsAdmin) = true
  ouvre : ∃ b ∈ (s.canal? id).bind (·.sealedKey),
    ziaChannelOpenKey C.primitives true secret b = .ok distribution
  lit : ∀ textes, SeLisent C d id distribution textes (s.moteurs.engine d)

/-- The owner encrypts with the key that the link opens on the server. -/
structure EnAccord (d : D) (id : Identifier) (secret : K) (distribution : Distribution K)
    (s : Monde D K B) : Prop where
  id_ne : id ≠ []
  publie : (s.conv? d id).any (·.channelIsAdmin) = true
  ouvre : ∃ b ∈ (s.canal? id).bind (·.sealedKey),
    ziaChannelOpenKey C.primitives true secret b = .ok distribution
  chiffre : ∃ st signing, trouver (s.moteurs.engine d) id [] = some st ∧
    st.signingPrivate = some signing ∧
    distribution.signingPublic = C.primitives.ed25519Base signing ∧
    st.chainKey = chainKeyAt C.primitives.toPrimitives distribution.chainKey st.iteration.toNat

variable {C} {s s' : Monde D K B} {d : D} {id : Identifier} {secret : K}
  {distribution : Distribution K}

/-- A device that processes the distribution has its entry. -/
theorem abonne_process (keys : List (ZiaSenderKey K)) (hid : id ≠ [])
    (hmagic : distribution.magic = kMagicDistribution) (hiteration : distribution.iteration = 0) :
    ∃ keys' st, ziaSenderKeyProcess keys id (C.ids.id d) (some distribution) = (.ok (), keys') ∧
      trouver keys' id (C.ids.id d) = some st ∧ Abonne C distribution [] st ∧
      st.iteration = 0 ∧ st.skipped = [] := by
  let st : ZiaSenderKey K := ⟨id, C.ids.id d, distribution.chainKey, distribution.iteration,
    distribution.signingPublic, none, []⟩
  have hfollows : Follows C.primitives.toSenderKeyPrimitives st.chainKey 0 [] st :=
    follows_start hiteration rfl
  refine ⟨installer keys st, st, ?_, trouver_installer keys st, ⟨rfl, 0, by decide, hfollows⟩,
    hiteration, rfl⟩
  simp [ziaSenderKeyProcess, hmagic, hid, C.ids.ne_nil, st]

/-! ## Agreement -/

/-- Encryption always succeeds, as that of libsodium does. -/
def AeadTotal (P : Primitives K) : Prop :=
  ∀ key nonce plaintext ad, (P.aeadEncrypt key nonce plaintext ad).isSome = true

/-- What the owner encrypts under the chain of a distribution opens at those who follow it. -/
theorem seLisent_of_chain (haead : AeadCorrect C.primitives.toPrimitives)
    (hsign : SignatureCorrect C.primitives.toSenderKeyPrimitives)
    (htotal : AeadTotal C.primitives.toPrimitives) {signing : K}
    (hpublic : distribution.signingPublic = C.primitives.ed25519Base signing)
    (textes : List Bytes) {keys : List (ZiaSenderKey K)} {st : ZiaSenderKey K}
    (hst : trouver keys id [] = some st) (hsigning : st.signingPrivate = some signing)
    (hchain : st.chainKey =
      chainKeyAt C.primitives.toPrimitives distribution.chainKey st.iteration.toNat) :
    SeLisent C d id distribution textes keys := by
  induction textes generalizing keys st with
  | nil => trivial
  | cons clair textes ih =>
    refine ⟨st, hst, fun hindex => ?_⟩
    obtain ⟨ciphertext, hseal⟩ := Option.isSome_iff_exists.mp
      (htotal (messageKey C.primitives.toPrimitives st.chainKey) zeroNonce clair id)
    obtain ⟨hgroupId, hsenderId⟩ := trouver_ids hst
    refine ⟨messageBytes C.primitives.toSenderKeyPrimitives signing st.iteration.toNat ciphertext,
      ecrire keys (avancer C.primitives.toSenderKeyPrimitives st), ?_, ?_, ?_⟩
    · rw [ziaSenderKeyEncrypt, hst]
      simp only [Bool.not_true, Bool.false_eq_true, if_false, hseal, messageBytes,
        UInt32.ofNat_toNat, hsigning]
    · intro lecteur pris st' hst' habonne hnot hjump hroom
      obtain ⟨hpublic', n, hn, hfollows⟩ := habonne
      rw [hfollows.iteration] at hjump hroom
      obtain ⟨n', st'', hkey, -, -, -⟩ := hfollows.clefDeMessage hindex hnot hn hjump hroom
      rw [hchain] at hseal
      obtain ⟨hopen, hlength⟩ := haead _ _ _ _ _ hseal
      rw [decrypt_messageBytes hsign hst' (hpublic'.trans hpublic) hlength hkey hopen]
    · have hnext : (avancer C.primitives.toSenderKeyPrimitives st).iteration.toNat =
          st.iteration.toNat + 1 := by
        show (st.iteration + 1).toNat = _
        rw [UInt32.toNat_add]
        exact Nat.mod_eq_of_lt hindex
      refine ih (trouver_ecrire ⟨hgroupId, hsenderId⟩ hst) hsigning ?_
      rw [hnext, ← nextChainKey_chainKeyAt, ← hchain]
      rfl

theorem EnAccord.utilisable (haead : AeadCorrect C.primitives.toPrimitives)
    (hsign : SignatureCorrect C.primitives.toSenderKeyPrimitives)
    (htotal : AeadTotal C.primitives.toPrimitives) (h : EnAccord C d id secret distribution s) :
    Utilisable C d id secret distribution s := by
  obtain ⟨st, signing, hst, hsigning, hpublic, hchain⟩ := h.chiffre
  exact ⟨h.publie, h.ouvre, fun textes =>
    seLisent_of_chain haead hsign htotal hpublic textes hst hsigning hchain⟩

/-- Where the owner encrypts with the key of the last link, the channel is in agreement. -/
theorem Accord.enAccord [DecidableEq K] (lois : Lois C) (h : Accord C s) {l : Lien K}
    (hconv : (s.conv? d l.id).any (·.channelIsAdmin) = true)
    (hcourante : s.courante l.id = s.derniere l.id) (hl : l ∈ s.liens)
    (hlast : s.generation l.secret = s.derniere l.id) :
    ∃ distribution, EnAccord C d l.id l.secret distribution s := by
  obtain ⟨b, hb, distribution, hopen, hrotation⟩ :=
    h.ouvre lois.hkdf lois.scelle hcourante hl rfl hlast
  obtain ⟨b₀, -, k, m, d₀, hcle, -⟩ := h.detentions.liens l hl
  rw [(generation_eq_some h.cles.secrets).mpr hcle.choose_spec.2.2] at hlast
  -- The owner is the device whose conversation says so.
  obtain ⟨owner, howner, hcurrent⟩ := Option.bind_eq_some_iff.mp (hcourante.trans hlast.symm)
  obtain ⟨c, hc, hadmin⟩ := Option.bind_eq_some_iff.mp howner
  obtain ⟨hmem, hcid⟩ := canal_of_canal? hc
  obtain rfl : owner = d :=
    h.registre.admin_eq ⟨c, hmem, hcid, hadmin⟩ (admin_of_conv h.registre hconv)
  obtain ⟨ρ, st, hρ, hst, hsends⟩ := h.cles.reads.members.own _ _ _ hcurrent
  rw [← hlast] at hrotation
  obtain ⟨hlt, hdist, -⟩ := List.findIdx?_eq_some_iff_getElem.mp hrotation
  have hget : s.moteurs.rotations[k] = ρ :=
    Option.some.inj ((List.getElem?_eq_getElem hlt).symm.trans hρ.1)
  rw [hget] at hdist
  obtain ⟨hgroup, hdrawn⟩ := h.cles.reads.members.drawn k ρ hρ.1
  obtain rfl := hdrawn distribution (of_decide_eq_true hdist)
  refine ⟨⟨kMagicDistribution, 0, ρ.chain, C.primitives.ed25519Base ρ.signing⟩, ?_, hconv,
    ⟨b, hb, ?_⟩, st, ρ.signing, hst, hsends.signing, rfl, hsends.chain⟩
  · rw [← hρ.2.2]
    exact hgroup
  · cases hresult : ziaChannelOpenKey C.primitives true l.secret b with
    | error rc =>
      rw [hresult] at hopen
      cases hopen
    | ok distribution' =>
      rw [hresult] at hopen
      rw [Option.some.inj hopen]

/-! ## Disagreement -/

/-- The own entry of the owner, if there is one, signs with another key. -/
def Etrangere (C : Contexte D K B) (d : D) (id : Identifier) (distribution : Distribution K)
    (s : Monde D K B) : Prop :=
  ∀ st, trouver (s.moteurs.engine d) id [] = some st → ∃ signing,
    st.signingPrivate = some signing ∧ st.iteration = 0 ∧
      distribution.signingPublic ≠ C.primitives.ed25519Base signing

/-- A post under another key is read by nobody. -/
theorem Etrangere.not_utilisable (hideal : SignatureIdeal C.primitives.toSenderKeyPrimitives)
    (h : Etrangere C d id distribution s) : ¬ Utilisable C d id secret distribution s := by
  intro husable
  obtain ⟨st, hst, hpost⟩ := husable.lit [[]]
  obtain ⟨signing, hsigning, hiteration, hother⟩ := h st hst
  have hzero : st.iteration.toNat = 0 := by
    rw [hiteration]
    rfl
  obtain ⟨bytes, keys', hok, hread, -⟩ := hpost (by rw [hzero]; decide)
  -- A device that has just processed the distribution.
  let st' : ZiaSenderKey K := ⟨id, C.ids.id d, distribution.chainKey, 0,
    distribution.signingPublic, none, []⟩
  have hst' : trouver [st'] id (C.ids.id d) = some st' := trouver_installer [] st'
  have hfollows : Follows C.primitives.toSenderKeyPrimitives st'.chainKey 0 [] st' :=
    follows_start rfl rfl
  have hread' := hread [st'] [] st' hst' ⟨rfl, 0, by decide, hfollows⟩
    List.not_mem_nil (by rw [hzero, Nat.zero_sub]; exact Nat.zero_le _)
    (by rw [hzero, Nat.zero_sub]; exact Nat.zero_le _)
  rcases encrypt_cases (P := C.primitives.toSenderKeyPrimitives) true (s.moteurs.engine d) id []
    with ⟨rc, herror⟩ | ⟨st₀, ciphertext, hst₀, -, hencrypt⟩
  · rw [herror] at hok
    cases hok
  · obtain rfl := Option.some.inj (hst.symm.trans hst₀)
    rw [hencrypt] at hok
    obtain ⟨hbytes, -⟩ := Prod.mk.inj hok
    obtain rfl := Except.ok.inj hbytes
    rw [hsigning] at hread'
    obtain ⟨rc, hrc⟩ := @decrypt_other _ _ hideal true _ _ _ _ _ hst' hother st.iteration.toNat
      ciphertext
    rw [messageBytes, UInt32.ofNat_toNat] at hrc
    rw [hrc] at hread'
    cases hread'

/-! ## Attempts -/

variable [DecidableEq D]

theorem etrangere_redemarrer : Etrangere C d id distribution (s.redemarrer d) := by
  intro st hst
  have hempty : (s.redemarrer d).moteurs.engine d = [] := by
    simp [Monde.redemarrer]
  rw [hempty] at hst
  cases hst

theorem etrangere_create (hid : id ≠ []) {env : SenderKeyEnv K}
    (hfresh : distribution.signingPublic ≠ C.primitives.ed25519Base env.signing) :
    Etrangere C d id distribution (s.senderKeyCreate C d id secret env) := by
  intro st hst
  have hkeys : (s.senderKeyCreate C d id secret env).moteurs.engine d =
      (ziaSenderKeyCreate C.primitives.toSenderKeyPrimitives env (s.moteurs.engine d) id).2 := by
    simp only [Monde.senderKeyCreate, Members.step, if_neg hid, Members.engine_setEngine, if_true]
  have hown := trouver_installer (s.moteurs.engine d)
    ⟨id, [], env.chain, 0, C.primitives.ed25519Base env.signing, some env.signing, []⟩
  rw [hkeys, ziaSenderKeyCreate, if_neg hid] at hst
  dsimp only at hst
  refine ⟨env.signing, ?_, ?_, hfresh⟩ <;>
    split at hst <;> rw [← Option.some.inj (hown.symm.trans hst)]

variable [DecidableEq K]

/-- The engines are left alone, unless the device restarts. -/
def Immobile (C : Contexte D K B) (d : D) (e : CanalEvent D K B) (s : Monde D K B) : Prop :=
  e = .crash ∨ ((canalSemantics C d).apply e s).moteurs = s.moteurs

theorem Etrangere.event (h : Etrangere C d id distribution s) {e : CanalEvent D K B}
    (he : Immobile C d e s) :
    Etrangere C d id distribution ((canalSemantics C d).apply e s) := by
  rcases he with rfl | hsame
  · exact etrangere_redemarrer
  · rw [Etrangere, hsame]
    exact h

/-- What follows the creation of a key leaves the engines alone. -/
theorem deposer_immobile (r : Except Unit (Distribution K)) (s : Monde D K B) :
    Safe (canalSemantics C d) (Immobile C d) (fun _ _ => True)
      (Async.orElse
        ((Async.done r : Task D K B (Distribution K)) >>= fun distribution => do
          let scelle ← Async.request (Request.channelSealKey secret distribution)
          Async.request (Request.putChannelKey d id scelle)
          Async.exec (.lier d id secret)
          saveConversations d
          Async.exec (.emettre id secret)
          pure (some (⟨id, secret⟩ : Lien K)))
        (fun _ => pure none) >>= fun _ => pure ()) s := by
  have hissue : ∀ (q : Request D K B) t, Immobile C d (.issue q) t := fun _ _ => .inr rfl
  have hact : ∀ (a : Stmt D K) t, Immobile C d (.act a) t := by
    intro a t
    refine .inr ?_
    cases a <;> rfl
  have hput : ∀ b t x s', Immobile C d (.settle t (.putChannelKey d id b) x) s' := by
    intro b t x s'
    refine .inr ?_
    cases x with
    | handled received =>
      show (s'.putChannelKey C d id b).moteurs = s'.moteurs
      unfold Monde.putChannelKey
      split <;> rfl
    | _ => rfl
  refine safe_bind_free ?_ fun _ _ => trivial
  rw [safe_orElse]
  refine @Safe.imp _ _ _ _ _ _ _ _ _ (fun _ _ => True) _ _ _ ?_ fun r t _ => by cases r <;> trivial
  refine safe_bind_free trivial fun dist t => ?_
  refine safe_bind_free (safe_request_free (hissue _ _) fun _ x _ => .inr ?_) fun b t => ?_
  · cases x <;> rfl
  refine safe_bind_free (safe_request_free (hissue _ _) (hput b)) fun _ t => ?_
  refine safe_exec_bind (hact _ _) (safe_bind_free ?_ fun _ t => ?_)
  · refine safe_get_bind (safe_request_free (hissue _ _) fun _ x _ => .inr ?_)
    cases x <;> rfl
  · exact safe_exec_bind (hact _ _) trivial

/-- A channel in agreement stays usable with the link that was valid if and only if the attempt
gets no further than a failure of the engine to create the key. -/
theorem renouvelerCleCanal_utilisable_iff (lois : Lois C)
    (htotal : AeadTotal C.primitives.toPrimitives)
    {ancien nouveau : K} (h : EnAccord C d id ancien distribution s)
    {answers : List (Outside K × Bool)}
    (hfresh : ∀ env lives rest, answers = (.cree env, lives) :: rest →
      distribution.signingPublic ≠ C.primitives.ed25519Base env.signing) :
    Utilisable C d id ancien distribution ((canalSemantics C d).alone
        (CanalTask.program (.renouvelerCleCanal d id nouveau)) answers s).2 ↔
      ∃ x rest, answers = (x, true) :: rest ∧ ∀ env, x ≠ .cree env := by
  have hprogram : (canalSemantics C d).alone
      (CanalTask.program (.renouvelerCleCanal d id nouveau)) answers s =
      (canalSemantics C d).alone (Async.await (.senderKeyCreate d id nouveau) fun r =>
        Async.orElse
        ((Async.done r : Task D K B (Distribution K)) >>= fun distribution => do
          let scelle ← Async.request (Request.channelSealKey nouveau distribution)
          Async.request (Request.putChannelKey d id scelle)
          Async.exec (.lier d id nouveau)
          saveConversations d
          Async.exec (.emettre id nouveau)
          pure (some (⟨id, nouveau⟩ : Lien K)))
        (fun _ => pure none) >>= fun _ => pure ()) answers s := by
    show (canalSemantics C d).alone ((if (s.conv? d id).any (·.channelIsAdmin) = true then _
      else _) >>= fun _ => pure ()) answers s = _
    rw [if_pos h.publie]
    rfl
  rw [hprogram]
  cases answers with
  | nil =>
    refine iff_of_false (etrangere_redemarrer.not_utilisable lois.ideal) ?_
    rintro ⟨x, rest, hanswers, -⟩
    cases hanswers
  | cons answer rest =>
    obtain ⟨x, lives⟩ := answer
    cases lives with
    | false =>
      refine iff_of_false (etrangere_redemarrer.not_utilisable lois.ideal) ?_
      rintro ⟨x', rest', hanswers, -⟩
      cases hanswers
    | true =>
      cases x with
      | cree env =>
        refine iff_of_false (Etrangere.not_utilisable lois.ideal ?_) ?_
        · exact Semantics.alone_keeps (fun _ _ _ _ => rfl) (fun e t he ht => ht.event he)
            (fun _ => .inl rfl) (deposer_immobile _ _)
            (etrangere_create h.id_ne (hfresh env true rest rfl)) rest
        · rintro ⟨x, rest', hanswers, hx⟩
          cases hanswers
          exact hx env rfl
      | _ =>
        refine iff_of_true ?_ ⟨_, rest, rfl, fun env => by simp⟩
        exact EnAccord.utilisable lois.aead lois.sign htotal ⟨h.id_ne, h.publie, h.ouvre, h.chiffre⟩

/-- The attempt as a schedule of a pool with no other body. -/
theorem renouvelerCleCanal_schedule (d : D) (id : Identifier) (secret : K)
    (answers : List (Outside K × Bool)) (s : Monde D K B) :
    ∃ choices p, run (Pool.step (canalSemantics C d) CanalTask.program CanalTask.allowed) choices
        ⟨s, [], []⟩ = some p ∧
      p.state = ((canalSemantics C d).alone
        (CanalTask.program (.renouvelerCleCanal d id secret)) answers s).2 :=
  Semantics.exists_run_alone _ (fun _ _ _ _ => rfl) _ _ rfl answers

/-! ## A refusal of the server -/

/-- The channel of the two devices, which the second one has joined. -/
def joinedState : Monde Bool Bytes SymbolicSealed :=
  ((canalRun sampleCanal true joined).map (·.state)).getD .initial

def joinedDistribution : Distribution Bytes :=
  ⟨kMagicDistribution, 0, [3], symbolicChannel.ed25519Base [4]⟩

theorem joinedState_enAccord : EnAccord sampleCanal true [7] [1] joinedDistribution joinedState where
  id_ne := by decide
  publie := by decide +kernel
  ouvre := ⟨(deriveWrapKey symbolicChannel [1], [], joinedDistribution), by decide +kernel,
    by decide +kernel⟩
  chiffre := ⟨⟨[7], [], [3], 0, symbolicChannel.ed25519Base [4], some [4], []⟩, [4],
    by decide +kernel, rfl, rfl, rfl⟩

/-- The server refuses the new key. -/
def refused : List (Outside Bytes × Bool) :=
  [(.cree ⟨[5], [6], true⟩, true), (.scelle true [], true), (.failed, true)]

/-- No link is returned, and nobody reads what the owner publishes next. -/
theorem refused_not_utilisable :
    ((canalSemantics sampleCanal true).alone
        (CanalTask.program (.renouvelerCleCanal true [7] [2])) refused joinedState).2.liens =
      [⟨[7], [1]⟩] ∧
    EnAccord sampleCanal true [7] [1] joinedDistribution joinedState ∧
    ¬ Utilisable sampleCanal true [7] [1] joinedDistribution ((canalSemantics sampleCanal true).alone
      (CanalTask.program (.renouvelerCleCanal true [7] [2])) refused joinedState).2 := by
  refine ⟨by decide +kernel, joinedState_enAccord, ?_⟩
  refine Etrangere.not_utilisable symbolicChannel_signatureIdeal fun st hst => ?_
  have hown : trouver (((canalSemantics sampleCanal true).alone
      (CanalTask.program (.renouvelerCleCanal true [7] [2])) refused joinedState).2.moteurs.engine
        true) [7] [] =
      some ⟨[7], [], [5], 0, symbolicChannel.ed25519Base [6], some [6], []⟩ := by
    decide +kernel
  obtain rfl := Option.some.inj (hst.symm.trans hown)
  exact ⟨[6], rfl, rfl, by decide⟩

theorem notCreated_utilisable :
    Utilisable sampleCanal true [7] [1] joinedDistribution ((canalSemantics sampleCanal true).alone
      (CanalTask.program (.renouvelerCleCanal true [7] [2])) [(.failed, true)] joinedState).2 :=
  (renouvelerCleCanal_utilisable_iff sampleCanal_lois (fun _ _ _ _ => rfl) joinedState_enAccord
    fun _ _ _ h => by cases h).mpr ⟨.failed, [], rfl, fun _ h => by cases h⟩

end ZiaCrypte.Channels
