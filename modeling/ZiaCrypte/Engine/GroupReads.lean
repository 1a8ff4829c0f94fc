import ZiaCrypte.Engine.GroupDelivery
import ZiaCrypte.Lib.Slots

/-!
# Group messages that cannot be read

A member without the key of a message, or with another one of its sender, gets an error and
keeps its entries; so does one that has taken the message key before. The invariant of the
members holds along all of these, and not only along the deliveries that open.
-/
namespace ZiaCrypte.Engine.SenderKeys

open ZiaCrypte.Lib

variable {M K : Type} {P : SenderKeyPrimitives K}

/-- The ideal Ed25519: a signature verifies under the public half of its own key only. -/
def SignatureIdeal (P : SenderKeyPrimitives K) : Prop :=
  ∀ pk k m, P.ed25519Verify pk m (P.ed25519Sign (some k) m).bytes = true → pk = P.ed25519Base k

/-! ## Single decryptions -/

theorem decrypt_absent {alloc : Bool} {keys : List (ZiaSenderKey K)} {group sender : Identifier}
    (h : trouver keys group sender = none) (message : Bytes) :
    ∃ rc, ziaSenderKeyDecrypt P alloc keys group sender message = (.error rc, keys) := by
  unfold ziaSenderKeyDecrypt
  split
  · exact ⟨_, rfl⟩
  · split
    · exact ⟨_, rfl⟩
    · rw [h]
      exact ⟨_, rfl⟩

/-- A message that another key has signed. -/
theorem decrypt_other (hideal : SignatureIdeal P) {alloc : Bool} {keys : List (ZiaSenderKey K)}
    {group sender : Identifier} {st : ZiaSenderKey K} {signing : K}
    (hst : trouver keys group sender = some st)
    (hpublic : st.signingPublic ≠ P.ed25519Base signing) (index : Nat) (ciphertext : Bytes) :
    ∃ rc, ziaSenderKeyDecrypt P alloc keys group sender (messageBytes P signing index ciphertext) =
      (.error rc, keys) := by
  have hsig : ∀ buf, (P.ed25519Sign (some signing) buf).bytes.length = kSignatureLen :=
    fun buf => (P.ed25519Sign (some signing) buf).length_eq
  have hverify : P.ed25519Verify st.signingPublic
      (signedPart (messageBytes P signing index ciphertext))
      ((messageBytes P signing index ciphertext).drop
        ((messageBytes P signing index ciphertext).length - kSignatureLen)) = false := by
    rw [messageBytes, signature_append (hsig _), signedPart_append (hsig _)]
    exact Bool.eq_false_iff.mpr fun h => hpublic (hideal _ _ _ h)
  unfold ziaSenderKeyDecrypt
  split
  · exact ⟨_, rfl⟩
  · split
    · exact ⟨_, rfl⟩
    · rw [hst]
      dsimp only
      rw [hverify]
      exact ⟨_, rfl⟩

/-- A message key that was taken leaves the entry where it is on its chain. -/
theorem Follows.retake {ck : K} {n : Nat} {taken : List Nat} {st : ZiaSenderKey K}
    (h : Follows P ck n taken st) (hn : n < UInt32.size) {i : Nat} (hi : i ∈ taken) :
    (∃ rc, SenderKeys.clefDeMessage P st (.ofNat i) = .error rc) ∨
      ∃ mk st', SenderKeys.clefDeMessage P st (.ofNat i) = .ok (mk, st') ∧
        Follows P ck n taken st' ∧ SameSender st st' := by
  have hlt : i < n := h.taken i hi
  have hbehind : UInt32.ofNat i < st.iteration := by
    rw [UInt32.lt_iff_toNat_lt, ofNat_toNat (by omega), h.iteration]
    exact hlt
  cases hfind : st.skipped.find? (·.iteration == UInt32.ofNat i) with
  | none =>
    left
    exact ⟨_, by rw [SenderKeys.clefDeMessage, if_pos hbehind, reprendreClefSautee, hfind]⟩
  | some sk =>
    right
    have htake := h.take hn hlt
    refine ⟨_, _, clefDeMessage_behind hbehind hfind, ⟨htake.chain, htake.iteration, htake.below,
      fun j hj hnot => htake.kept j hj fun hmem => ?_, h.taken⟩, rfl, rfl, rfl, rfl⟩
    rcases List.mem_cons.mp hmem with rfl | hold
    · exact hnot hi
    · exact hnot hold

theorem clefDeMessage_sameSender {st st' : ZiaSenderKey K} {i : UInt32} {mk : K}
    (h : clefDeMessage P st i = .ok (mk, st')) : SameSender st st' := by
  rcases clefDeMessage_cases h with ⟨sk, before, after, -, -, -, rfl⟩ | ⟨d, -, -, rfl⟩
  · exact ⟨rfl, rfl, rfl, rfl⟩
  · exact (sameSender_skips d st).trans (sameSender_avancer _)

/-- No entry is made by a decryption. -/
theorem trouver_decrypt_none {alloc : Bool} {keys : List (ZiaSenderKey K)}
    {group sender : Identifier} {message : Bytes} {g s : Identifier}
    (h : trouver keys g s = none) :
    trouver (ziaSenderKeyDecrypt P alloc keys group sender message).2 g s = none := by
  rcases decrypt_cases (P := P) alloc keys group sender message with
    ⟨rc, hdecrypt⟩ | ⟨st, st', mk, r, hst, -, hkey, hdecrypt, -⟩
  · rw [hdecrypt]
    exact h
  · have hsame := clefDeMessage_sameSender hkey
    rw [hdecrypt]
    refine (trouver_ecrire_ne ?_).trans h
    rintro ⟨rfl, rfl⟩
    obtain ⟨rfl, rfl⟩ := trouver_ids hst
    rw [hsame.groupId, hsame.senderId, hst] at h
    cases h

/-! ## The members -/

/-- What a member that reads a message for the first time under its key has room for. -/
def Members.WithinLimits [DecidableEq M] (ids : SenderIds M) (r : M) (i : Nat)
    (x : Members M K) : Prop :=
  ∀ p ∈ x.messages[i]?, x.processed (r, p.group, p.sender) = some p.rotation →
    p.index ∉ x.taken (r, p.group, p.sender) →
      ∀ st ∈ trouver (x.engine r) p.group (ids.id p.sender),
        p.index - st.iteration.toNat ≤ kMaxSkip ∧
          st.skipped.length + (p.index - st.iteration.toNat) ≤ kMaxSkippedKeys

instance [DecidableEq M] (ids : SenderIds M) (r : M) (i : Nat) (x : Members M K) :
    Decidable (Members.WithinLimits ids r i x) := by
  unfold Members.WithinLimits
  infer_instance

/-- The members, whose keys are told apart by their public halves, and who hold no key that
they have not processed. -/
structure ReadsInv (P : SenderKeyPrimitives K) (ids : SenderIds M) (x : Members M K) : Prop where
  members : MembersInv P ids x
  absent : ∀ r g m, x.processed (r, g, m) = none → trouver (x.engine r) g (ids.id m) = none
  bases : (x.rotations.map fun ρ => P.ed25519Base ρ.signing).Nodup

variable {ids : SenderIds M} {x : Members M K}

theorem readsInv_start : ReadsInv P ids (Members.start : Members M K) where
  members := membersInv_start
  absent _ _ _ _ := rfl
  bases := List.nodup_nil

theorem ReadsInv.rotation_eq (h : ReadsInv P ids x) {j k : Nat} {ρ ρ' : Rotation M K}
    (hj : x.rotations[j]? = some ρ) (hk : x.rotations[k]? = some ρ')
    (hbase : P.ed25519Base ρ.signing = P.ed25519Base ρ'.signing) : j = k := by
  have hmap : ∀ (n : Nat) (ρ : Rotation M K), x.rotations[n]? = some ρ →
      (x.rotations.map fun ρ => P.ed25519Base ρ.signing)[n]? = some (P.ed25519Base ρ.signing) := by
    intro n ρ hn
    rw [List.getElem?_map, hn]
    rfl
  have hlt : j < (x.rotations.map fun ρ => P.ed25519Base ρ.signing).length := by
    rw [List.length_map]
    exact (List.getElem?_eq_some_iff.mp hj).1
  refine (List.getElem?_inj hlt h.bases).mp ?_
  rw [hmap j ρ hj, hmap k ρ' hk, hbase]

variable [DecidableEq M]

theorem setEngine_self (r : M) : x.setEngine r (x.engine r) = x := by
  rw [Members.setEngine, Function.update_eq_self]

omit [DecidableEq M] in
/-- A read under another key, or under none, is an error and changes nothing. -/
theorem ReadsInv.deliver_other (hideal : SignatureIdeal P) (h : ReadsInv P ids x) {r : M} {i : Nat}
    {p : GroupMessage M} (hp : x.messages[i]? = some p)
    (hother : x.processed (r, p.group, p.sender) ≠ some p.rotation) (alloc : Bool) :
    ∃ rc, ziaSenderKeyDecrypt P alloc (x.engine r) p.group (ids.id p.sender) p.bytes =
      (.error rc, x.engine r) := by
  cases hprocessed : x.processed (r, p.group, p.sender) with
  | none => exact decrypt_absent (h.absent _ _ _ hprocessed) p.bytes
  | some k =>
    obtain ⟨ρ, st, hρ, hst, hpublic, -⟩ := h.members.received _ _ _ _ hprocessed
    obtain ⟨ρ', hρ', -, ciphertext, -, hbytes⟩ := h.members.sent p (List.mem_of_getElem? hp)
    rw [hbytes]
    refine decrypt_other hideal hst ?_ p.index ciphertext
    rw [hpublic]
    intro hbase
    refine hother ?_
    rw [hprocessed, h.rotation_eq hρ.1 hρ'.1 hbase]

theorem deliver_error {r : M} {i : Nat} {p : GroupMessage M} (hp : x.messages[i]? = some p)
    {alloc : Bool} {rc : ZiaError} {keys : List (ZiaSenderKey K)}
    (h : ziaSenderKeyDecrypt P alloc (x.engine r) p.group (ids.id p.sender) p.bytes =
      (.error rc, keys)) :
    Members.step P ids (.deliver r i alloc) x = x.setEngine r keys := by
  simp only [Members.step, hp, h]

/-! ## What the events leave alone -/

section Rotations

variable (P ids)

theorem rotations_create (m : M) (group : Identifier) (env : SenderKeyEnv K) :
    (Members.step P ids (.create m group env) x).rotations =
      if group = [] then x.rotations
      else x.rotations ++ [⟨m, group, env.chain, env.signing,
        (ziaSenderKeyCreate P env (x.engine m) group).1.toOption⟩] := by
  rw [Members.step]
  dsimp only
  split <;> rfl

theorem rotations_encrypt (m : M) (group : Identifier) (alloc : Bool) (plaintext : Bytes) :
    (Members.step P ids (.encrypt m group alloc plaintext) x).rotations = x.rotations := by
  rw [Members.step]
  split <;> rfl

theorem rotations_deliver (r : M) (i : Nat) (alloc : Bool) :
    (Members.step P ids (.deliver r i alloc) x).rotations = x.rotations := by
  rw [Members.step]
  split
  · rfl
  · split <;> rfl

/-- What an encryption writes, on every outcome. -/
theorem encrypt_shape (m : M) (group : Identifier) (plaintext : Bytes) (x : Members M K) :
    ((∃ rc, (ziaSenderKeyEncrypt P true (x.engine m) group plaintext).1 = .error rc) ∧
        Members.step P ids (.encrypt m group true plaintext) x = x) ∨
      ∃ bytes keys, (ziaSenderKeyEncrypt P true (x.engine m) group plaintext).1 = .ok bytes ∧
        trouver (x.engine m) group [] ≠ none ∧
        Members.step P ids (.encrypt m group true plaintext) x =
          { x.setEngine m keys with
            messages := x.messages ++ [⟨m, group, (x.current (m, group)).getD 0,
              x.nextIndex m group, plaintext, bytes⟩] } := by
  rcases encrypt_cases (P := P) true (x.engine m) group plaintext with
    ⟨rc, herror⟩ | ⟨st, ciphertext, hst, -, hok⟩
  · refine .inl ⟨⟨rc, by rw [herror]⟩, ?_⟩
    simp only [Members.step, herror]
    exact setEngine_self m
  · refine .inr ⟨_, ecrire (x.engine m) (avancer P st), congrArg Prod.fst hok, by simp [hst], ?_⟩
    simp only [Members.step, hok]

/-- What a read writes, on every outcome. -/
theorem deliver_cases (r : M) (i : Nat) (alloc : Bool) (x : Members M K) :
    ∃ keys taken, Members.step P ids (.deliver r i alloc) x =
        { x.setEngine r keys with taken := taken } ∧
      (∀ g s, trouver (x.engine r) g s = none → trouver keys g s = none) ∧
      ∀ slot, ∀ n ∈ taken slot, n ∈ x.taken slot ∨ ∃ p plaintext, x.messages[i]? = some p ∧
        (ziaSenderKeyDecrypt P alloc (x.engine r) p.group (ids.id p.sender) p.bytes).1 =
          .ok plaintext ∧ slot = (r, p.group, p.sender) ∧ n = p.index := by
  cases hp : x.messages[i]? with
  | none =>
    refine ⟨x.engine r, x.taken, ?_, fun _ _ h => h, fun _ _ h => .inl h⟩
    simp only [Members.step, hp]
    exact (setEngine_self r).symm
  | some p =>
    have hnone := fun g s =>
      @trouver_decrypt_none _ P alloc (x.engine r) p.group (ids.id p.sender) p.bytes g s
    cases hdecrypt : ziaSenderKeyDecrypt P alloc (x.engine r) p.group (ids.id p.sender) p.bytes with
    | mk result keys =>
      rw [hdecrypt] at hnone
      cases result with
      | ok plaintext =>
        refine ⟨keys, Function.update x.taken (r, p.group, p.sender)
          (p.index :: x.taken (r, p.group, p.sender)), ?_, hnone, fun slot n hn => ?_⟩
        · simp only [Members.step, hp, hdecrypt]
        · by_cases hslot : slot = (r, p.group, p.sender)
          · rw [hslot, Function.update_self] at hn
            rcases List.mem_cons.mp hn with hnew | hold
            · exact .inr ⟨p, plaintext, rfl, by rw [hdecrypt], hslot, hnew⟩
            · rw [hslot]
              exact .inl hold
          · rw [Function.update_of_ne hslot] at hn
            exact .inl hn
      | error rc =>
        refine ⟨keys, x.taken, ?_, hnone, fun _ _ h => .inl h⟩
        simp only [Members.step, hp, hdecrypt]
        rfl

end Rotations

/-! ## Steps -/

/-- An own entry is never under the id of a member. -/
theorem trouver_create (m : M) (group : Identifier) (env : SenderKeyEnv K) (r : M)
    (g : Identifier) (m' : M) :
    trouver ((Members.step P ids (.create m group env) x).engine r) g (ids.id m') =
      trouver (x.engine r) g (ids.id m') := by
  have hframe : ∀ g s, ¬ (group = g ∧ ([] : Identifier) = s) →
      trouver (ziaSenderKeyCreate P env (x.engine m) group).2 g s = trouver (x.engine m) g s := by
    intro g s hne
    unfold ziaSenderKeyCreate
    split
    · rfl
    · dsimp only
      split <;> exact trouver_installer_ne hne
  have hkeep : trouver ((x.setEngine m (ziaSenderKeyCreate P env (x.engine m) group).2).engine r)
      g (ids.id m') = trouver (x.engine r) g (ids.id m') :=
    Members.trouver_setEngine hframe fun hsame => ids.ne_nil m' hsame.2.2.symm
  rw [Members.step]
  dsimp only
  split <;> exact hkeep

theorem ReadsInv.create (h : ReadsInv P ids x) {m : M} {group : Identifier} {env : SenderKeyEnv K}
    (hfresh : ∀ ρ ∈ x.rotations, P.ed25519Base ρ.signing ≠ P.ed25519Base env.signing) :
    ReadsInv P ids (Members.step P ids (.create m group env) x) := by
  refine ⟨h.members.create m group env, fun r g m' hnone => ?_, ?_⟩
  · rw [trouver_create]
    refine h.absent r g m' ?_
    rw [Members.step] at hnone
    dsimp only at hnone
    split at hnone <;> exact hnone
  · rw [Members.step]
    dsimp only
    split
    · exact h.bases
    · refine nodup_map_concat h.bases fun ρ hρ => ?_
      exact hfresh ρ hρ

theorem ReadsInv.process (h : ReadsInv P ids x) (r : M) (k : Nat) :
    ReadsInv P ids (Members.step P ids (.process r k) x) := by
  refine ⟨h.members.process r k, fun r' g m hnone => ?_, ?_⟩
  · cases hk : x.rotations[k]? with
    | none =>
      simp only [Members.step, hk] at hnone ⊢
      exact h.absent r' g m hnone
    | some ρ =>
      cases hd : ρ.distribution with
      | none =>
        simp only [Members.step, hk, hd] at hnone ⊢
        exact h.absent r' g m hnone
      | some d =>
        obtain ⟨hgroup, hdist⟩ := h.members.drawn k ρ hk
        obtain rfl := hdist d hd
        let st : ZiaSenderKey K := ⟨ρ.group, ids.id ρ.sender, ρ.chain, 0, P.ed25519Base ρ.signing,
          none, []⟩
        have hprocess : ziaSenderKeyProcess (x.engine r) ρ.group (ids.id ρ.sender)
            (some ⟨kMagicDistribution, 0, ρ.chain, P.ed25519Base ρ.signing⟩) =
            (.ok (), installer (x.engine r) st) := by
          simp [ziaSenderKeyProcess, hgroup, ids.ne_nil, st]
        simp only [Members.step, hk, hd, hprocess] at hnone ⊢
        by_cases hslot : (r', g, m) = (r, ρ.group, ρ.sender)
        · rw [hslot, Function.update_self] at hnone
          cases hnone
        · rw [Function.update_of_ne hslot] at hnone
          refine (Members.trouver_setEngine (fun g s hne => trouver_installer_ne hne) ?_).trans
            (h.absent r' g m hnone)
          rintro ⟨rfl, rfl, hid⟩
          exact hslot (by rw [ids.injective hid])
  · have hsame : (Members.step P ids (.process r k) x).rotations = x.rotations := by
      simp only [Members.step]
      split
      · rfl
      · split
        · rfl
        · split <;> rfl
    rw [hsame]
    exact h.bases

theorem ReadsInv.encrypt (h : ReadsInv P ids x) (m : M) (group : Identifier) (alloc : Bool)
    (plaintext : Bytes) (hfair : x.nextIndex m group + 1 < UInt32.size) :
    ReadsInv P ids (Members.step P ids (.encrypt m group alloc plaintext) x) := by
  have hmembers := h.members.encrypt m group alloc plaintext hfair
  rcases encrypt_cases (P := P) alloc (x.engine m) group plaintext with
    ⟨rc, herror⟩ | ⟨st, ciphertext, hst, -, hok⟩
  · have hsame : Members.step P ids (.encrypt m group alloc plaintext) x = x := by
      simp only [Members.step, herror]
      exact setEngine_self m
    rw [hsame]
    exact h
  · obtain ⟨hgroupId, hsenderId⟩ := trouver_ids hst
    refine ⟨hmembers, fun r g m' hnone => ?_, ?_⟩
    · simp only [Members.step, hok] at hnone ⊢
      have hframe : ∀ g s, ¬ (group = g ∧ ([] : Identifier) = s) →
          trouver (ecrire (x.engine m) (avancer P st)) g s = trouver (x.engine m) g s := by
        intro g s hne
        refine trouver_ecrire_ne ?_
        rwa [show (avancer P st).groupId = group from hgroupId,
          show (avancer P st).senderId = [] from hsenderId]
      refine (Members.trouver_setEngine hframe ?_).trans (h.absent r g m' hnone)
      exact fun hsame => ids.ne_nil m' hsame.2.2.symm
    · simp only [Members.step, hok]
      exact h.bases

/-- A read under a key that was taken before. -/
theorem MembersInv.redeliver (haead : AeadCorrect P.toPrimitives) (hsign : SignatureCorrect P)
    (h : MembersInv P ids x) {r : M} {i : Nat} {p : GroupMessage M}
    (hp : x.messages[i]? = some p)
    (hprocessed : x.processed (r, p.group, p.sender) = some p.rotation)
    (htaken : p.index ∈ x.taken (r, p.group, p.sender)) :
    MembersInv P ids (Members.step P ids (.deliver r i true) x) := by
  obtain ⟨ρ, hρ, -, ciphertext, hseal, hbytes⟩ := h.sent p (List.mem_of_getElem? hp)
  obtain ⟨ρ', st, hρ', hst, hpublic, n, hn, hfollows⟩ := h.received _ _ _ _ hprocessed
  obtain rfl := Option.some.inj (hρ'.1.symm.trans hρ.1)
  have hlength := (haead _ _ _ _ _ hseal).2
  have hdecrypt := @decrypt_messageBytes_eq _ _ hsign _ _ _ _ _ p.index _ hst hpublic hlength
  rw [← hbytes] at hdecrypt
  rcases hfollows.retake hn htaken with ⟨rc, hrc⟩ | ⟨mk, st', hkey, hfollows', hsame⟩
  · rw [hrc] at hdecrypt
    rw [deliver_error hp hdecrypt, setEngine_self]
    exact h
  · rw [hkey] at hdecrypt
    dsimp only at hdecrypt
    cases hopen : P.aeadDecrypt mk zeroNonce ciphertext p.group with
    | none =>
      rw [hopen] at hdecrypt
      rw [deliver_error hp hdecrypt]
      have hadvance := h.advance hprocessed hρ hst hpublic hsame hn hfollows'
      rwa [Function.update_eq_self] at hadvance
    | some plaintext =>
      rw [hopen] at hdecrypt
      simp only [Members.step, hp, hdecrypt]
      refine h.advance hprocessed hρ hst hpublic hsame hn ⟨hfollows'.chain, hfollows'.iteration,
        hfollows'.below, fun j hj hnot => ?_, fun j hj => ?_⟩
      · exact hfollows'.kept j hj fun hmem => hnot (List.mem_cons_of_mem _ hmem)
      · rcases List.mem_cons.mp hj with rfl | hold
        · exact hfollows'.taken _ htaken
        · exact hfollows'.taken j hold

/-- Any read keeps the invariant, when the ones that open have room. -/
theorem ReadsInv.deliver (haead : AeadCorrect P.toPrimitives) (hsign : SignatureCorrect P)
    (hideal : SignatureIdeal P) (h : ReadsInv P ids x) {r : M} {i : Nat}
    (hlimits : Members.WithinLimits ids r i x) :
    ReadsInv P ids (Members.step P ids (.deliver r i true) x) := by
  have hmembers : MembersInv P ids (Members.step P ids (.deliver r i true) x) := by
    cases hp : x.messages[i]? with
    | none => simpa only [Members.step, hp] using h.members
    | some p =>
      by_cases hprocessed : x.processed (r, p.group, p.sender) = some p.rotation
      · by_cases htaken : p.index ∈ x.taken (r, p.group, p.sender)
        · exact h.members.redeliver haead hsign hp hprocessed htaken
        · refine (h.members.deliver haead hsign fun p' hp' => ?_).1
          obtain rfl := Option.some.inj (hp.symm.trans hp')
          exact ⟨rfl, hprocessed, htaken, hlimits p hp hprocessed htaken⟩
      · obtain ⟨rc, hrc⟩ := h.deliver_other hideal hp hprocessed true
        rw [deliver_error hp hrc, setEngine_self]
        exact h.members
  obtain ⟨keys, taken, heq, hnone, -⟩ := deliver_cases P ids r i true x
  refine ⟨hmembers, ?_, ?_⟩
  · rw [heq]
    intro r' g m hprocessed
    have habsent := h.absent r' g m hprocessed
    show trouver ((x.setEngine r keys).engine r') g (ids.id m) = none
    rw [Members.engine_setEngine]
    split
    · rename_i hr
      rw [hr] at habsent
      exact hnone _ _ habsent
    · exact habsent
  · rw [heq]
    exact h.bases

/-- A first read under the key of the message, within the limits, opens it. -/
theorem ReadsInv.delivers (haead : AeadCorrect P.toPrimitives) (hsign : SignatureCorrect P)
    (h : ReadsInv P ids x) {r : M} {i : Nat} {p : GroupMessage M}
    (hp : x.messages[i]? = some p)
    (hprocessed : x.processed (r, p.group, p.sender) = some p.rotation)
    (htaken : p.index ∉ x.taken (r, p.group, p.sender))
    (hlimits : Members.WithinLimits ids r i x) :
    (ziaSenderKeyDecrypt P true (x.engine r) p.group (ids.id p.sender) p.bytes).1 =
      .ok p.plaintext := by
  refine (@MembersInv.deliver _ _ _ _ _ _ haead hsign h.members r i true fun p' hp' => ?_).2 p hp
  obtain rfl := Option.some.inj (hp.symm.trans hp')
  exact ⟨rfl, hprocessed, htaken, hlimits p hp hprocessed htaken⟩

end ZiaCrypte.Engine.SenderKeys
