import ZiaCrypte.Engine.GroupReplay
import ZiaCrypte.Engine.GroupReads

/-!
# Group messages that do not open

A message key is taken once the signature is verified, before the ciphertext is tried. A
signed message that does not open takes the key of the genuine one.
-/
namespace ZiaCrypte.Engine.SenderKeys

variable {K : Type} (P : SenderKeyPrimitives K)

/-- The message is long enough, and signed under the key of its sender's entry. -/
structure Authentic (keys : List (ZiaSenderKey K)) (group sender : Identifier) (message : Bytes)
    (st : ZiaSenderKey K) : Prop where
  long : kMagicLen + 4 + aeadABytes + kSignatureLen ≤ message.length
  magic : message.take kMagicLen = kMagicMessage
  found : trouver keys group sender = some st
  verified : P.ed25519Verify st.signingPublic (signedPart message)
    (message.drop (message.length - kSignatureLen)) = true

/-- A decryption that fails leaves every entry as it was. -/
def FailsCleanly (alloc : Bool) (keys : List (ZiaSenderKey K)) (group sender : Identifier)
    (message : Bytes) : Prop :=
  ∀ rc, (ziaSenderKeyDecrypt P alloc keys group sender message).1 = .error rc →
    (ziaSenderKeyDecrypt P alloc keys group sender message).2 = keys

/-- The message is signed and the key of its iteration is at hand, but the key does not
open it, or there is no memory for what it opens to. -/
def TakesKeyInVain (alloc : Bool) (keys : List (ZiaSenderKey K)) (group sender : Identifier)
    (message : Bytes) : Prop :=
  ∃ st mk st', Authentic P keys group sender message st ∧
    clefDeMessage P st (getU32 message kMagicLen) = .ok (mk, st') ∧
    (alloc = true → P.aeadDecrypt mk zeroNonce (sealedPart message) group = none)

variable {P} {alloc : Bool} {keys : List (ZiaSenderKey K)} {group sender : Identifier}
  {message : Bytes} {st st' : ZiaSenderKey K} {mk : K}

theorem iteration_skips (d : Nat) (st : ZiaSenderKey K) :
    ((sauterTour P)^[d] st).iteration = st.iteration + UInt32.ofNat d := by
  induction d with
  | zero => exact (UInt32.add_zero _).symm
  | succ d ih =>
    rw [Function.iterate_succ_apply']
    show ((sauterTour P)^[d] st).iteration + 1 = st.iteration + UInt32.ofNat (d + 1)
    rw [ih, UInt32.ofNat_add, UInt32.add_assoc]
    rfl

/-- Taking a key changes the entry: the cache gets shorter, or the chain moves on. -/
theorem clefDeMessage_ne {i : UInt32} (h : clefDeMessage P st i = .ok (mk, st')) : st' ≠ st := by
  rintro rfl
  unfold clefDeMessage at h
  split at h
  · unfold reprendreClefSautee at h
    split at h
    · cases h
    rename_i r hr
    split at hr
    · cases hr
    rename_i sk hfind
    obtain rfl := Option.some.inj hr
    have hcache := congrArg (fun r => r.2.skipped.length) (Except.ok.inj h)
    have hmem := List.mem_of_find?_eq_some hfind
    have hshorter := List.length_eraseP_of_mem hmem (List.find?_some hfind)
    have hsome := List.length_pos_of_mem hmem
    simp only at hcache
    omega
  · rename_i hle
    split at h
    · cases h
    rename_i hlimit
    have hle' := UInt32.not_lt.mp hle
    have hsub := UInt32.toNat_sub_of_le _ _ hle'
    have hnat := UInt32.le_iff_toNat_le.mp hle'
    have hentry := congrArg (fun r => r.2.iteration.toNat) (Except.ok.inj h)
    have hbound : (i - st'.iteration).toNat ≤ 2000 := Nat.le_of_not_lt hlimit
    simp only [avancer] at hentry
    rw [rattraper_eq (by omega), iteration_skips, UInt32.ofNat_toNat, UInt32.toNat_add,
      UInt32.toNat_add, hsub] at hentry
    have hlt := i.toNat_lt
    have hone : (1 : UInt32).toNat = 1 := rfl
    omega

/-! ## A decryption -/

/-- Past the signature, it is a matter of the key. -/
theorem Authentic.decrypt_eq (h : Authentic P keys group sender message st) (alloc : Bool) :
    ziaSenderKeyDecrypt P alloc keys group sender message =
      match clefDeMessage P st (getU32 message kMagicLen) with
      | .error rc => (.error rc, keys)
      | .ok (mk, st') =>
          if !alloc then (.error .outOfMemory, ecrire keys st')
          else
            match P.aeadDecrypt mk zeroNonce (sealedPart message) group with
            | none => (.error .cryptoFailure, ecrire keys st')
            | some plaintext => (.ok plaintext, ecrire keys st') := by
  rw [ziaSenderKeyDecrypt, if_neg (Nat.not_lt.mpr h.long), if_neg (not_not.mpr h.magic), h.found]
  dsimp only
  exact if_neg (by rw [h.verified]; decide)

/-- Before it, nothing is touched. -/
theorem decrypt_not_authentic (h : ∀ st, ¬ Authentic P keys group sender message st)
    (alloc : Bool) :
    ∃ rc, ziaSenderKeyDecrypt P alloc keys group sender message = (.error rc, keys) := by
  unfold ziaSenderKeyDecrypt
  split
  · exact ⟨_, rfl⟩
  rename_i hlong
  split
  · exact ⟨_, rfl⟩
  rename_i hmagic
  cases hst : trouver keys group sender with
  | none => exact ⟨_, rfl⟩
  | some st =>
    dsimp only
    split
    · exact ⟨_, rfl⟩
    · rename_i hverify
      exact absurd ⟨Nat.le_of_not_lt hlong, not_not.mp hmagic, hst, by simpa using hverify⟩ (h st)

/-- Writing an entry that changed changes the entries. -/
theorem ecrire_ne (hst : trouver keys group sender = some st) (hsame : SameSender st st')
    (hne : st' ≠ st) : ecrire keys st' ≠ keys := by
  intro heq
  have hids := trouver_ids hst
  have hfound : trouver (ecrire keys st') group sender = some st' :=
    trouver_ecrire ⟨hsame.groupId.trans hids.1, hsame.senderId.trans hids.2⟩ hst
  rw [heq, hst] at hfound
  exact hne (Option.some.inj hfound).symm

/-- A decryption that fails changes nothing, exactly unless it took a key in vain. -/
theorem failsCleanly_iff (alloc : Bool) (keys : List (ZiaSenderKey K))
    (group sender : Identifier) (message : Bytes) :
    FailsCleanly P alloc keys group sender message ↔
      ¬ TakesKeyInVain P alloc keys group sender message := by
  unfold FailsCleanly
  constructor
  · rintro h ⟨st, mk, st', hauth, hkey, hclosed⟩
    have hrun : ∃ rc, ziaSenderKeyDecrypt P alloc keys group sender message =
        (.error rc, ecrire keys st') := by
      rw [hauth.decrypt_eq, hkey]
      cases alloc with
      | false => exact ⟨_, rfl⟩
      | true =>
        dsimp only
        rw [hclosed rfl]
        exact ⟨_, rfl⟩
    obtain ⟨rc, hrc⟩ := hrun
    have hsame := h rc (by rw [hrc])
    rw [hrc] at hsame
    exact ecrire_ne hauth.found (clefDeMessage_sameSender hkey) (clefDeMessage_ne hkey) hsame
  · intro h rc hrc
    by_cases hauth : ∃ st, Authentic P keys group sender message st
    · obtain ⟨st, hauth⟩ := hauth
      rw [hauth.decrypt_eq] at hrc ⊢
      cases hkey : clefDeMessage P st (getU32 message kMagicLen) with
      | error rc => rfl
      | ok taken =>
        obtain ⟨mk, st'⟩ := taken
        rw [hkey] at hrc
        dsimp only at hrc
        have hopens : ¬ (alloc = true →
            P.aeadDecrypt mk zeroNonce (sealedPart message) group = none) :=
          fun hclosed => h ⟨st, mk, st', hauth, hkey, hclosed⟩
        cases alloc with
        | false => exact absurd (fun h => by cases h) hopens
        | true =>
          cases hopen : P.aeadDecrypt mk zeroNonce (sealedPart message) group with
          | none => exact absurd (fun _ => hopen) hopens
          | some plaintext =>
            rw [hopen] at hrc
            cases hrc
    · obtain ⟨rc', hrc'⟩ := decrypt_not_authentic (fun st hst => hauth ⟨st, hst⟩) alloc
      rw [hrc']

/-! ## Garbage that is signed -/

/-- An engine that has processed the key `[3]` of the sender `[1]`. -/
def receiverKeys : List (ZiaSenderKey Bytes) :=
  (ziaSenderKeyProcess [] [7] [1] (some (symbolicDistribution [3]))).2

/-- Signed under the key of the sender, with the iteration of its first message. -/
def signedGarbage : Bytes := messageBytes symbolicSender [4] 0 (List.replicate aeadABytes 0)

/-- The first message opens; once the garbage was refused, it is refused too. -/
theorem signedGarbage_takesKey :
    (ziaSenderKeyDecrypt symbolicSender true receiverKeys [7] [1] symbolicMessage).1.toOption =
      some [10] ∧
    ∃ keys, ziaSenderKeyDecrypt symbolicSender true receiverKeys [7] [1] signedGarbage =
        (.error .cryptoFailure, keys) ∧
      (ziaSenderKeyDecrypt symbolicSender true keys [7] [1] symbolicMessage).1.toOption = none ∧
      ¬ FailsCleanly symbolicSender true receiverKeys [7] [1] signedGarbage := by
  refine ⟨by decide +kernel, _, rfl, by decide +kernel, fun h => ?_⟩
  exact absurd (h .cryptoFailure rfl) (by decide +kernel)

end ZiaCrypte.Engine.SenderKeys
