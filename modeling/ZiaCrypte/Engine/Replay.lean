import ZiaCrypte.Engine.Symbolic
import ZiaCrypte.Engine.DecryptSpec
import ZiaCrypte.Engine.StoredEquivalence
import Mathlib.Data.List.Forall2

/-!
# A message is accepted at most once

Every receive key of a session carries a stamp: the depth of the root key its
chain came from, and its index on the chain. The session derives keys in
increasing order of stamps, so a key it derives is none of those it holds in its
cache or has spent. With an ideal AEAD a ciphertext opens under one key only.
-/
namespace ZiaCrypte.Engine

variable {K : Type} (P : Primitives K)

/-! ## Stamps -/

/-- `k` is message key `j` of a chain derived at root depth `n`. -/
def Stamped (sk : K) (n j : Nat) (k : K) : Prop :=
  ∃ rk dhOut, RootAt P sk n rk ∧ k = chainMessageKey P rk dhOut j

/-- `k` has a stamp below `(n, j)`. -/
def StampedBefore (sk : K) (n j : Nat) (k : K) : Prop :=
  ∃ n' j', Stamped P sk n' j' k ∧ (n' < n ∨ n' = n ∧ j' < j)

variable {P}

theorem Stamped.unique (h : HmacInjective P) {sk : K} (hsk : NotRatchetRoot P sk)
    {n j n' j' : Nat} {k : K} (hk : Stamped P sk n j k) (hk' : Stamped P sk n' j' k) :
    n = n' ∧ j = j' := by
  obtain ⟨rk, dh, hroot, rfl⟩ := hk
  obtain ⟨rk', dh', hroot', heq⟩ := hk'
  obtain ⟨rfl, rfl, rfl⟩ := chainMessageKey_inj h heq
  exact ⟨hroot.unique h hsk hroot', rfl⟩

theorem Stamped.not_before (h : HmacInjective P) {sk : K} (hsk : NotRatchetRoot P sk)
    {n j : Nat} {k : K} (hk : Stamped P sk n j k) : ¬ StampedBefore P sk n j k := by
  rintro ⟨n', j', hk', hlt⟩
  obtain ⟨rfl, rfl⟩ := hk.unique h hsk hk'
  omega

theorem StampedBefore.mono {sk : K} {n j n' j' : Nat} {k : K} (h : StampedBefore P sk n j k)
    (hle : n < n' ∨ n = n' ∧ j ≤ j') : StampedBefore P sk n' j' k := by
  obtain ⟨m, i, hk, hlt⟩ := h
  exact ⟨m, i, hk, by omega⟩

theorem Stamped.before_succ {sk : K} {n j : Nat} {k : K} (h : Stamped P sk n j k) :
    StampedBefore P sk n (j + 1) k :=
  ⟨n, j, h, Or.inr ⟨rfl, Nat.lt_succ_self j⟩⟩

/-! ## The invariant -/

/-- The keys a session can still spend, or has spent. -/
def heldKeys (s : ZiaSession K) (spent : List K) : List K := s.skipped.map (·.key) ++ spent

variable (P)

/-- The receive chain stands at stamp `(n, j)`, and every key held or spent is
below it. -/
def OnChain (sk : K) (s : ZiaSession K) (spent : List K) (depth : Nat) : Prop :=
  ∃ n j rk dhOut, n < depth ∧ RootAt P sk n rk ∧
    s.recvChainKey = some (chainKeyAt P (chainOf P rk dhOut) j) ∧
    ∀ k ∈ heldKeys s spent, StampedBefore P sk n j k

structure SpendInv (sk : K) (s : ZiaSession K) (spent : List K) : Prop where
  chain : ∃ depth, RootAt P sk depth s.rootKey ∧
    (s.hasRecvChain = true → OnChain P sk s spent depth)
  noChain : s.hasRecvChain = false → s.recvChainKey = none ∧ heldKeys s spent = []
  nodup : (heldKeys s spent).Nodup

variable {P}

theorem spendInv_start (start : SessionStart K) :
    SpendInv P
      (match start with
        | .initiator _ _ sk _ => sk
        | .responder _ sk _ _ => sk)
      (start.session P) [] := by
  cases start with
  | initiator env ad sk theirs =>
    refine ⟨⟨1, ?_, ?_⟩, fun _ => ⟨rfl, rfl⟩, List.nodup_nil⟩
    · exact .succ ((P.x25519Scalarmult env.fresh theirs).getD env.stack₁) .zero
    · intro hflag
      cases hflag
  | responder ad sk myPub myPriv =>
    refine ⟨⟨0, .zero, ?_⟩, fun _ => ⟨rfl, rfl⟩, List.nodup_nil⟩
    intro hflag
    cases hflag

/-- The keys held once the chain skipped one message. -/
theorem heldKeys_skipTurn_sublist (s : ZiaSession K) (spent : List K) (nextCk mk : K) :
    (heldKeys (skipTurn s nextCk mk) spent).Sublist (s.skipped.map (·.key) ++ mk :: spent) := by
  have hsub := (pushSkipped_suffix s.skipped ⟨s.dhrPublic, s.nr, mk⟩).sublist.map (·.key)
  rw [List.map_append] at hsub
  have happ := hsub.append_right spent
  simpa [heldKeys, skipTurn, storeSkippedKey] using happ

theorem OnChain.fresh (dhOut : K) (h : HmacInjective P) {sk : K} (hsk : NotRatchetRoot P sk)
    {n j : Nat} {rk : K} {keys : List K} (hroot : RootAt P sk n rk)
    (hbelow : ∀ k ∈ keys, StampedBefore P sk n j k) : chainMessageKey P rk dhOut j ∉ keys := by
  intro hmem
  exact Stamped.not_before h hsk ⟨rk, dhOut, hroot, rfl⟩ (hbelow _ hmem)

/-- A move keeps the invariant, with the key it spends added to the spent ones. -/
theorem SpendInv.move (h : HmacInjective P) {sk : K} (hsk : NotRatchetRoot P sk)
    {s t : ZiaSession K} {spent : List K} {key : Option K} (hs : SpendInv P sk s spent)
    (hm : Move P s key t) : SpendInv P sk t (spent ++ key.toList) := by
  obtain ⟨depth, hroot, hchain⟩ := hs.chain
  cases hm with
  | take entry before after hsplit =>
    -- The key only changes sides: cached before, spent after.
    have hperm : (heldKeys { s with skipped := before ++ after } (spent ++ [entry.key])).Perm
        (heldKeys s spent) := by
      simp only [heldKeys, hsplit, List.map_append, List.map_cons, List.append_assoc]
      refine List.Perm.append_left _ ?_
      rw [List.cons_append, ← List.append_assoc]
      exact List.perm_append_singleton entry.key _
    refine ⟨⟨depth, hroot, fun hflag => ?_⟩, fun hflag => ?_, hperm.nodup_iff.mpr hs.nodup⟩
    · obtain ⟨n, j, rk, dh, hn, hrk, hck, hbelow⟩ := hchain hflag
      exact ⟨n, j, rk, dh, hn, hrk, hck, fun k hk => hbelow k (hperm.mem_iff.mp hk)⟩
    · obtain ⟨hck, hnil⟩ := hs.noChain hflag
      rw [hnil] at hperm
      exact ⟨hck, List.perm_nil.mp hperm⟩
  | skip ck hflag hck =>
    obtain ⟨n, j, rk, dh, hn, hrk, hck', hbelow⟩ := hchain hflag
    obtain rfl := Option.some.inj (hck.symm.trans hck')
    have hfresh := OnChain.fresh dh h hsk hrk hbelow
    have hsub := heldKeys_skipTurn_sublist s spent
      (nextChainKey P (chainKeyAt P (chainOf P rk dh) j)) (chainMessageKey P rk dh j)
    have hsplit : (s.skipped.map (·.key) ++ chainMessageKey P rk dh j :: spent).Perm
        (chainMessageKey P rk dh j :: heldKeys s spent) := List.perm_middle
    simp only [Option.toList_none, List.append_nil]
    refine ⟨⟨depth, hroot, fun _ => ⟨n, j + 1, rk, dh, hn, hrk, ?_, ?_⟩⟩, fun hno => ?_, ?_⟩
    · rw [← nextChainKey_chainKeyAt]
      rfl
    · intro k hk
      rcases List.mem_cons.mp (hsplit.mem_iff.mp (hsub.subset hk)) with rfl | hold
      · exact Stamped.before_succ ⟨rk, dh, hrk, rfl⟩
      · exact (hbelow k hold).mono (Or.inr ⟨rfl, Nat.le_succ j⟩)
    · exact Bool.noConfusion (hflag.symm.trans hno)
    · exact (hsplit.nodup_iff.mpr (List.nodup_cons.mpr ⟨hfresh, hs.nodup⟩)).sublist hsub
  | ratchet env theirs =>
    simp only [Option.toList_none, List.append_nil]
    refine ⟨⟨depth + 2, .succ _ (.succ _ hroot), fun _ => ?_⟩, fun hno => ?_, hs.nodup⟩
    · refine ⟨depth, 0, s.rootKey, _, by omega, hroot, rfl, ?_⟩
      cases hflag : s.hasRecvChain with
      | true =>
        obtain ⟨n, j, rk, dh, hn, hrk, hck, hbelow⟩ := hchain hflag
        exact fun k hk => (hbelow k hk).mono (Or.inl hn)
      | false =>
        intro k hk
        rw [show heldKeys (dhRatchetStep P env s theirs) spent = heldKeys s spent from rfl,
          (hs.noChain hflag).2] at hk
        cases hk
    · cases hno
  | consume ck hck =>
    have hflag : s.hasRecvChain = true := by
      by_contra hno
      rw [Bool.not_eq_true] at hno
      cases hck.symm.trans (hs.noChain hno).1
    obtain ⟨n, j, rk, dh, hn, hrk, hck', hbelow⟩ := hchain hflag
    obtain rfl := Option.some.inj (hck.symm.trans hck')
    have hfresh := OnChain.fresh dh h hsk hrk hbelow
    have hperm : (s.skipped.map (·.key) ++ (spent ++ [chainMessageKey P rk dh j])).Perm
        (chainMessageKey P rk dh j :: heldKeys s spent) := by
      rw [← List.append_assoc]
      exact List.perm_append_singleton _ _
    refine ⟨⟨depth, hroot, fun _ => ⟨n, j + 1, rk, dh, hn, hrk, ?_, ?_⟩⟩, fun hno => ?_, ?_⟩
    · rw [← nextChainKey_chainKeyAt]
    · intro k hk
      rcases List.mem_cons.mp (hperm.mem_iff.mp hk) with rfl | hold
      · exact Stamped.before_succ ⟨rk, dh, hrk, rfl⟩
      · exact (hbelow k hold).mono (Or.inr ⟨rfl, Nat.le_succ j⟩)
    · exact Bool.noConfusion (hflag.symm.trans hno)
    · exact hperm.nodup_iff.mpr (List.nodup_cons.mpr ⟨hfresh, hs.nodup⟩)
  | send ck hflag hck =>
    simp only [Option.toList_none, List.append_nil]
    exact ⟨⟨depth, hroot, hchain⟩, hs.noChain, hs.nodup⟩

theorem SpendInv.moves (h : HmacInjective P) {sk : K} (hsk : NotRatchetRoot P sk)
    {s t : ZiaSession K} {spent more : List K} (hs : SpendInv P sk s spent)
    (hm : Moves P s more t) : SpendInv P sk t (spent ++ more) := by
  induction hm with
  | refl => simpa using hs
  | tail _ hmove ih =>
    rw [← List.append_assoc]
    exact ih.move h hsk hmove

/-! ## Runs -/

variable (P)

/-- The message a call accepts, if it does. -/
def acceptedBy (c : RatchetCall K) (s : ZiaSession K) : List EncryptedMessage :=
  match c with
  | .decrypt env header ciphertext =>
      match ziaSessionDecrypt P env s header ciphertext with
      | .ok _ _ => [⟨header, ciphertext⟩]
      | _ => []
  | _ => []

/-- The messages a run of calls accepts, in order. -/
def accepted : List (RatchetCall K) → ZiaSession K → List EncryptedMessage
  | [], _ => []
  | c :: cs, s =>
      acceptedBy P c s ++
        match RatchetCall.step P c s with
        | none => []
        | some t => accepted cs t

/-- `key` opens the message, whatever it is bound to. -/
def OpensUnder (m : EncryptedMessage) (key : K) : Prop :=
  ∃ ad pt, P.aeadDecrypt key zeroNonce m.ciphertext ad = some pt

variable {P}

/-- A call that accepts a message spends a key that opens it. -/
theorem call_spends {c : RatchetCall K} {s t : ZiaSession K}
    (ht : RatchetCall.step P c s = some t) :
    ∃ more keys, Moves P s more t ∧
      List.Forall₂ (OpensUnder P) (acceptedBy P c s) keys ∧ keys.Sublist more := by
  cases c with
  | reload r => exact r.elim
  | encrypt env plaintext => exact ⟨[], [], encrypt_silent P env s plaintext t ht, .nil, .slnil⟩
  | decrypt env header ciphertext =>
    cases hd : ziaSessionDecrypt P env s header ciphertext with
    | ok pt u =>
      simp only [RatchetCall.step, SessionCall.apply, hd] at ht
      obtain rfl := Option.some.inj ht
      obtain ⟨key, hmoves, hopen⟩ := decrypt_ok_moves P hd
      refine ⟨[key], [key], hmoves, ?_, List.Sublist.refl _⟩
      simp only [acceptedBy, hd]
      exact .cons ⟨_, pt, hopen⟩ .nil
    | error rc u =>
      simp only [RatchetCall.step, SessionCall.apply, hd] at ht
      obtain rfl := Option.some.inj ht
      obtain ⟨more, hmoves⟩ := decrypt_error_moves P hd
      refine ⟨more, [], hmoves, ?_, List.nil_sublist _⟩
      simp only [acceptedBy, hd]
      exact .nil
    | fault =>
      simp only [RatchetCall.step, SessionCall.apply, hd] at ht
      cases ht

theorem acceptedBy_of_fault {c : RatchetCall K} {s : ZiaSession K}
    (ht : RatchetCall.step P c s = none) : acceptedBy P c s = [] := by
  cases c with
  | reload r => exact r.elim
  | encrypt => rfl
  | decrypt env header ciphertext =>
    cases hd : ziaSessionDecrypt P env s header ciphertext with
    | fault => simp only [acceptedBy, hd]
    | ok => simp [RatchetCall.step, SessionCall.apply, hd, Outcome.session?] at ht
    | error => simp [RatchetCall.step, SessionCall.apply, hd, Outcome.session?] at ht

/-- The accepted messages of a run open under distinct keys, none of them spent
before. -/
theorem accepted_keys (h : HmacInjective P) {sk : K} (hsk : NotRatchetRoot P sk)
    (calls : List (RatchetCall K)) {s : ZiaSession K} {spent : List K}
    (hs : SpendInv P sk s spent) :
    ∃ keys, List.Forall₂ (OpensUnder P) (accepted P calls s) keys ∧ keys.Nodup ∧
      ∀ k ∈ keys, k ∉ spent := by
  induction calls generalizing s spent with
  | nil => exact ⟨[], .nil, List.nodup_nil, by simp⟩
  | cons c calls ih =>
    cases ht : RatchetCall.step P c s with
    | none =>
      refine ⟨[], ?_, List.nodup_nil, by simp⟩
      rw [accepted, ht, acceptedBy_of_fault ht]
      exact .nil
    | some t =>
      obtain ⟨more, keys, hmoves, hhead, hsub⟩ := call_spends ht
      have hinv := hs.moves h hsk hmoves
      obtain ⟨keys', htail, hnodup', hfresh'⟩ := ih hinv
      have hspent : (spent ++ more).Nodup := (List.nodup_append.mp hinv.nodup).2.1
      obtain ⟨_, hmore, hdisj⟩ := List.nodup_append.mp hspent
      refine ⟨keys ++ keys', ?_, ?_, ?_⟩
      · rw [accepted, ht]
        exact List.rel_append hhead htail
      · refine List.nodup_append.mpr ⟨hmore.sublist hsub, hnodup', ?_⟩
        rintro a ha b hb rfl
        exact hfresh' a hb (List.mem_append_right _ (hsub.subset ha))
      · intro k hk hold
        rcases List.mem_append.mp hk with hk | hk
        · exact hdisj k hold k (hsub.subset hk) rfl
        · exact hfresh' k hk (List.mem_append_left _ hold)

/-- Messages that open under distinct keys have distinct ciphertexts. -/
theorem nodup_ciphertexts (h : AeadIdeal P) {ms : List EncryptedMessage} {keys : List K}
    (hopen : List.Forall₂ (OpensUnder P) ms keys) (hkeys : keys.Nodup) :
    (ms.map (·.ciphertext)).Nodup := by
  induction hopen with
  | nil => exact List.nodup_nil
  | @cons m key ms keys hm hms ih =>
    obtain ⟨hnew, hrest⟩ := List.nodup_cons.mp hkeys
    refine List.nodup_cons.mpr ⟨fun hmem => ?_, ih hrest⟩
    obtain ⟨m', hm', hct⟩ := List.mem_map.mp hmem
    obtain ⟨i, hi, rfl⟩ := List.getElem_of_mem hm'
    have hi' : i < keys.length := hms.length_eq ▸ hi
    obtain ⟨ad, pt, hdec⟩ := hm
    obtain ⟨ad', pt', hdec'⟩ := hms.get hi hi'
    simp only [List.get_eq_getElem, hct] at hdec'
    exact hnew (h.key_unique hdec hdec' ▸ List.getElem_mem hi')

/-- Under injective KDFs and an ideal AEAD, a session of the handshake accepts no
ciphertext twice, whatever header it comes with and whatever is sent, forged,
replayed or evicted in between. -/
theorem message_acceptedAtMostOnce (X : X3dhPrimitives K) (hkdf : HmacInjective X.toPrimitives)
    (haead : AeadIdeal X.toPrimitives) (start : SessionStart K) (hstart : start.FromX3dh X)
    (calls : List (RatchetCall K)) :
    ((accepted X.toPrimitives calls (start.session X.toPrimitives)).map
      (·.ciphertext)).Nodup := by
  obtain ⟨dh1, dh2, dh3, dh4, ss, hsk⟩ := hstart
  have hroot := deriveSharedSecret_notRatchetRoot X hkdf dh1 dh2 dh3 dh4 ss
  rw [hsk] at hroot
  obtain ⟨keys, hopen, hnodup, _⟩ := accepted_keys hkdf hroot calls (spendInv_start start)
  exact nodup_ciphertexts haead hopen hnodup

/-! ## A message sent twice -/

/-- A responder of the symbolic instance. -/
def symbolicResponder : SessionStart Bytes :=
  .responder sampleAd (deriveSharedSecret symbolic [1] [2] [3] none none)
    (symbolic.x25519Base [7]) [7]

def symbolicEnv : CallEnv Bytes := ⟨[9], [], [], true⟩

/-- The first message of its peer, sealed under the key their DH output selects. -/
def symbolicFirst : EncryptedMessage :=
  let header := encodeHeader ⟨0, 0, symbolic.x25519Base [8]⟩
  let session := symbolicResponder.session symbolic.toPrimitives
  ⟨header, symbolicSeal
    (messageKey symbolic.toPrimitives
      (newRecvChain symbolic.toPrimitives symbolicEnv session (symbolic.x25519Base [8])))
    zeroNonce [1, 2, 3] (messageAd session header)⟩

theorem symbolicFirst_opens : ∃ t,
    ziaSessionDecrypt symbolic.toPrimitives symbolicEnv
      (symbolicResponder.session symbolic.toPrimitives) symbolicFirst.header
      symbolicFirst.ciphertext = .ok [1, 2, 3] t := by
  have hdecode : decodeHeader symbolicFirst.header = ⟨0, 0, symbolic.x25519Base [8]⟩ :=
    decodeHeader_encodeHeader _
  obtain ⟨hopen, hlen⟩ := symbolic_aeadCorrect
    (messageKey symbolic.toPrimitives (newRecvChain symbolic.toPrimitives symbolicEnv
      (symbolicResponder.session symbolic.toPrimitives) (symbolic.x25519Base [8])))
    zeroNonce [1, 2, 3]
    (messageAd (symbolicResponder.session symbolic.toPrimitives) symbolicFirst.header)
    symbolicFirst.ciphertext rfl
  have hreach : reachesRecvChain (symbolicResponder.session symbolic.toPrimitives)
      symbolicFirst.header symbolicFirst.ciphertext = true := by
    refine reachesRecvChain_iff.mpr ⟨length_encodeHeader _, hlen, ?_, rfl⟩
    rw [takeSkippedKey_none]
    intro sk hsk
    cases hsk
  rw [decrypt_newChain symbolic.toPrimitives symbolicEnv
    (wellFormed_start symbolic.toPrimitives symbolicResponder) hreach (by rw [hdecode]; rfl)
    (by rw [hdecode]; rfl) (by rw [hdecode]; decide), hdecode]
  simp only [UInt32.toNat_zero, chainKeyAt_zero]
  exact ⟨_, openMessage_opens symbolic.toPrimitives rfl hopen⟩

/-- Delivered twice, it is accepted the first time and only then. -/
theorem symbolicFirst_acceptedOnce :
    symbolicFirst ∈ accepted symbolic.toPrimitives
        [.decrypt symbolicEnv symbolicFirst.header symbolicFirst.ciphertext,
          .decrypt symbolicEnv symbolicFirst.header symbolicFirst.ciphertext]
        (symbolicResponder.session symbolic.toPrimitives) ∧
      ((accepted symbolic.toPrimitives
        [.decrypt symbolicEnv symbolicFirst.header symbolicFirst.ciphertext,
          .decrypt symbolicEnv symbolicFirst.header symbolicFirst.ciphertext]
        (symbolicResponder.session symbolic.toPrimitives)).map (·.ciphertext)).Nodup := by
  refine ⟨?_, message_acceptedAtMostOnce symbolic symbolic_hmacInjective symbolic_aeadIdeal
    symbolicResponder ⟨[1], [2], [3], none, none, rfl⟩ _⟩
  obtain ⟨t, ht⟩ := symbolicFirst_opens
  rw [accepted, acceptedBy, ht]
  exact List.mem_append_left _ (List.mem_singleton.mpr rfl)

end ZiaCrypte.Engine
