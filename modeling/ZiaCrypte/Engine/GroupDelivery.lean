import ZiaCrypte.Engine.SenderChain
import ZiaCrypte.Engine.Symbolic
import ZiaCrypte.Lib.Run

/-!
# Groups of any size over an unreliable network

Members create and renew their keys, process each other's distributions and
encrypt to groups. A message can reach any member any time after it was sent, or
never. `processed` and `taken` keep which distribution a member follows for a
sender, and what it has decrypted since.
-/
namespace ZiaCrypte.Engine.SenderKeys

open ZiaCrypte.Lib

variable {M K : Type} (P : SenderKeyPrimitives K)

/-- The ids members register each other's keys under. -/
structure SenderIds (M : Type) where
  id : M → Identifier
  injective : Function.Injective id
  ne_nil : ∀ m, id m ≠ []

/-- A key a member drew for a group, and the distribution `create` returned. -/
structure Rotation (M K : Type) where
  sender : M
  group : Identifier
  chain : K
  signing : K
  distribution : Option (Distribution K)

/-- A message, the key it was encrypted with and its index under that key. -/
structure GroupMessage (M : Type) where
  sender : M
  group : Identifier
  rotation : Nat
  index : Nat
  plaintext : Bytes
  bytes : Bytes

structure Members (M K : Type) where
  engine : M → List (ZiaSenderKey K)
  rotations : List (Rotation M K)
  current : M × Identifier → Option Nat
  messages : List (GroupMessage M)
  processed : M × Identifier × M → Option Nat
  taken : M × Identifier × M → List Nat

inductive MemberEvent (M K : Type) where
  | create (sender : M) (group : Identifier) (env : SenderKeyEnv K)
  | process (receiver : M) (rotation : Nat)
  | encrypt (sender : M) (group : Identifier) (alloc : Bool) (plaintext : Bytes)
  | deliver (receiver : M) (message : Nat) (alloc : Bool)

namespace Members

/-- Nobody has a key yet. -/
def start : Members M K where
  engine _ := []
  rotations := []
  current _ := none
  messages := []
  processed _ := none
  taken _ := []

variable [DecidableEq M] (ids : SenderIds M)

def setEngine (x : Members M K) (m : M) (keys : List (ZiaSenderKey K)) : Members M K :=
  { x with engine := Function.update x.engine m keys }

/-- The index of the next message of a member to a group. -/
def nextIndex (x : Members M K) (m : M) (group : Identifier) : Nat :=
  ((trouver (x.engine m) group []).map (·.iteration.toNat)).getD 0

def step : MemberEvent M K → Members M K → Members M K
  | .create m group env, x =>
      let (r, keys) := ziaSenderKeyCreate P env (x.engine m) group
      if group = [] then x.setEngine m keys
      else { x.setEngine m keys with
        rotations := x.rotations ++ [⟨m, group, env.chain, env.signing, r.toOption⟩]
        current := Function.update x.current (m, group) (some x.rotations.length) }
  | .process r k, x =>
      match x.rotations[k]? with
      | none => x
      | some ρ =>
          match ρ.distribution with
          | none => x
          | some d =>
              match ziaSenderKeyProcess (x.engine r) ρ.group (ids.id ρ.sender) (some d) with
              | (.ok _, keys) => { x.setEngine r keys with
                  processed := Function.update x.processed (r, ρ.group, ρ.sender) (some k)
                  taken := Function.update x.taken (r, ρ.group, ρ.sender) [] }
              | (.error _, keys) => x.setEngine r keys
  | .encrypt m group alloc plaintext, x =>
      match ziaSenderKeyEncrypt P alloc (x.engine m) group plaintext with
      | (.ok bytes, keys) => { x.setEngine m keys with
          messages := x.messages ++ [{
            sender := m
            group := group
            rotation := (x.current (m, group)).getD 0
            index := x.nextIndex m group
            plaintext := plaintext
            bytes := bytes }] }
      | (.error _, keys) => x.setEngine m keys
  | .deliver r i alloc, x =>
      match x.messages[i]? with
      | none => x
      | some p =>
          match ziaSenderKeyDecrypt P alloc (x.engine r) p.group (ids.id p.sender) p.bytes with
          | (.ok _, keys) => { x.setEngine r keys with
              taken := Function.update x.taken (r, p.group, p.sender)
                (p.index :: x.taken (r, p.group, p.sender)) }
          | (.error _, keys) => x.setEngine r keys

/-- Fewer than 2^32 messages a key; a delivery comes while its receiver follows the
distribution of the message, for the first time, with memory and within the limits
of a jump and of the cache. -/
def Fair : MemberEvent M K → Members M K → Prop
  | .encrypt m group _ _, x => x.nextIndex m group + 1 < UInt32.size
  | .deliver r i alloc, x => ∀ p ∈ x.messages[i]?,
      alloc = true ∧ x.processed (r, p.group, p.sender) = some p.rotation ∧
        p.index ∉ x.taken (r, p.group, p.sender) ∧
        ∀ st ∈ trouver (x.engine r) p.group (ids.id p.sender),
          p.index - st.iteration.toNat ≤ kMaxSkip ∧
            st.skipped.length + (p.index - st.iteration.toNat) ≤ kMaxSkippedKeys
  | _, _ => True

instance (e : MemberEvent M K) (x : Members M K) : Decidable (Fair ids e x) := by
  cases e <;> unfold Fair <;> infer_instance

/-- A delivery returns `ZIA_OK` and the plaintext. -/
def Delivers : MemberEvent M K → Members M K → Prop
  | .deliver r i alloc, x => ∀ p ∈ x.messages[i]?,
      (ziaSenderKeyDecrypt P alloc (x.engine r) p.group (ids.id p.sender) p.bytes).1 =
        .ok p.plaintext
  | _, _ => True

end Members

/-- Ed25519 verifies what it signed. -/
def SignatureCorrect (P : SenderKeyPrimitives K) : Prop :=
  ∀ k m, P.ed25519Verify (P.ed25519Base k) m (P.ed25519Sign (some k) m).bytes = true

/-! ## Messages on the wire -/

/-- The bytes of a message under a signing key. -/
def messageBytes (signing : K) (index : Nat) (ciphertext : Bytes) : Bytes :=
  let buf := kMagicMessage ++ putU32 (.ofNat index) ++ ciphertext
  buf ++ (P.ed25519Sign (some signing) buf).bytes

variable {P}

theorem signedPart_append {buf signature : Bytes} (h : signature.length = kSignatureLen) :
    signedPart (buf ++ signature) = buf := by
  rw [signedPart, List.length_append, h, Nat.add_sub_cancel]
  exact List.take_left' rfl

theorem signature_append {buf signature : Bytes} (h : signature.length = kSignatureLen) :
    (buf ++ signature).drop ((buf ++ signature).length - kSignatureLen) = signature := by
  rw [List.length_append, h, Nat.add_sub_cancel]
  exact List.drop_left' rfl

/-- What a decryption of a signed message comes to. -/
theorem decrypt_messageBytes_eq (hsign : SignatureCorrect P) {keys : List (ZiaSenderKey K)}
    {group sender : Identifier} {st : ZiaSenderKey K} {signing : K} {index : Nat}
    {ciphertext : Bytes} (hst : trouver keys group sender = some st)
    (hpublic : st.signingPublic = P.ed25519Base signing)
    (hlength : aeadABytes ≤ ciphertext.length) :
    ziaSenderKeyDecrypt P true keys group sender (messageBytes P signing index ciphertext) =
      match clefDeMessage P st (.ofNat index) with
      | .error rc => (.error rc, keys)
      | .ok (mk, st') =>
          match P.aeadDecrypt mk zeroNonce ciphertext group with
          | none => (.error .cryptoFailure, ecrire keys st')
          | some plaintext => (.ok plaintext, ecrire keys st') := by
  have hsig : ∀ buf, (P.ed25519Sign (some signing) buf).bytes.length = kSignatureLen :=
    fun buf => (P.ed25519Sign (some signing) buf).length_eq
  have hlong : ¬ (messageBytes P signing index ciphertext).length <
      kMagicLen + 4 + aeadABytes + kSignatureLen := by
    simp only [messageBytes, List.length_append, hsig, length_putU32, kMagicMessage, kMagicLen,
      List.length_cons, List.length_nil]
    omega
  have hmagic : (messageBytes P signing index ciphertext).take kMagicLen = kMagicMessage := by
    simp only [messageBytes, List.append_assoc]
    exact List.take_left' rfl
  have hsigned : signedPart (messageBytes P signing index ciphertext) =
      kMagicMessage ++ putU32 (.ofNat index) ++ ciphertext := signedPart_append (hsig _)
  have hindex : getU32 (messageBytes P signing index ciphertext) kMagicLen = .ofNat index := by
    simp only [messageBytes, List.append_assoc]
    exact getU32_append _ _ _ _ rfl
  have hsealed : sealedPart (messageBytes P signing index ciphertext) = ciphertext := by
    rw [sealedPart, hsigned]
    exact List.drop_left' rfl
  have hverify : P.ed25519Verify st.signingPublic
      (signedPart (messageBytes P signing index ciphertext))
      ((messageBytes P signing index ciphertext).drop
        ((messageBytes P signing index ciphertext).length - kSignatureLen)) = true := by
    rw [hsigned, hpublic, messageBytes, signature_append (hsig _)]
    exact hsign _ _
  rw [ziaSenderKeyDecrypt, if_neg hlong, if_neg (not_not.mpr hmagic), hst]
  dsimp only
  rw [hverify, hindex, hsealed, Bool.not_true, if_neg Bool.false_ne_true]
  rfl

/-- A signed message opens with the key of its index. -/
theorem decrypt_messageBytes (hsign : SignatureCorrect P) {keys : List (ZiaSenderKey K)}
    {group sender : Identifier} {st st' : ZiaSenderKey K} {signing mk : K} {index : Nat}
    {ciphertext plaintext : Bytes} (hst : trouver keys group sender = some st)
    (hpublic : st.signingPublic = P.ed25519Base signing)
    (hlength : aeadABytes ≤ ciphertext.length)
    (hkey : clefDeMessage P st (.ofNat index) = .ok (mk, st'))
    (hopen : P.aeadDecrypt mk zeroNonce ciphertext group = some plaintext) :
    ziaSenderKeyDecrypt P true keys group sender (messageBytes P signing index ciphertext) =
      (.ok plaintext, ecrire keys st') := by
  rw [decrypt_messageBytes_eq hsign hst hpublic hlength, hkey]
  simp only [hopen]

/-! ## The invariant -/

/-- The entry is the sending side of a rotation. -/
structure Sends (P : SenderKeyPrimitives K) (ρ : Rotation M K) (st : ZiaSenderKey K) : Prop where
  signing : st.signingPrivate = some ρ.signing
  chain : st.chainKey = chainKeyAt P.toPrimitives ρ.chain st.iteration.toNat

/-- The entry is the receiving side of a rotation. -/
def Receives (P : SenderKeyPrimitives K) (ρ : Rotation M K) (taken : List Nat)
    (st : ZiaSenderKey K) : Prop :=
  st.signingPublic = P.ed25519Base ρ.signing ∧
    ∃ n, n < UInt32.size ∧ Follows P ρ.chain n taken st

/-- The message was encrypted under a key of the rotation. -/
def SealedUnder (P : SenderKeyPrimitives K) (ρ : Rotation M K) (p : GroupMessage M) : Prop :=
  p.index + 1 < UInt32.size ∧ ∃ ciphertext,
    P.aeadEncrypt (messageKey P.toPrimitives (chainKeyAt P.toPrimitives ρ.chain p.index))
      zeroNonce p.plaintext p.group = some ciphertext ∧
    p.bytes = messageBytes P ρ.signing p.index ciphertext

/-- Rotation `k` is this sender's for this group. -/
def Members.RotationOf (x : Members M K) (k : Nat) (m : M) (group : Identifier)
    (ρ : Rotation M K) : Prop :=
  x.rotations[k]? = some ρ ∧ ρ.sender = m ∧ ρ.group = group

structure MembersInv (P : SenderKeyPrimitives K) (ids : SenderIds M) (x : Members M K) :
    Prop where
  drawn : ∀ (k : Nat) (ρ : Rotation M K), x.rotations[k]? = some ρ → ρ.group ≠ [] ∧
    ∀ d, ρ.distribution = some d →
      d = ⟨kMagicDistribution, 0, ρ.chain, P.ed25519Base ρ.signing⟩
  own : ∀ m group k, x.current (m, group) = some k → ∃ ρ st, x.RotationOf k m group ρ ∧
    trouver (x.engine m) group [] = some st ∧ Sends P ρ st
  noOwn : ∀ m group, x.current (m, group) = none → trouver (x.engine m) group [] = none
  sent : ∀ p ∈ x.messages, ∃ ρ, x.RotationOf p.rotation p.sender p.group ρ ∧ SealedUnder P ρ p
  received : ∀ r group m k, x.processed (r, group, m) = some k → ∃ ρ st,
    x.RotationOf k m group ρ ∧ trouver (x.engine r) group (ids.id m) = some st ∧
      Receives P ρ (x.taken (r, group, m)) st

variable {ids : SenderIds M} {x : Members M K}

theorem membersInv_start : MembersInv P ids (Members.start : Members M K) where
  drawn k ρ h := by cases h
  own m group k h := by cases h
  noOwn m group _ := rfl
  sent p hp := by cases hp
  received r group m k h := by cases h

variable [DecidableEq M]

@[simp] theorem Members.engine_setEngine (m m' : M) (keys : List (ZiaSenderKey K)) :
    (x.setEngine m keys).engine m' = if m' = m then keys else x.engine m' := by
  simp [Members.setEngine, Function.update_apply]

/-- A write to one entry of one engine is not seen under other ids. -/
theorem Members.trouver_setEngine {m : M} {keys : List (ZiaSenderKey K)}
    {group sender : Identifier}
    (hframe : ∀ g s, ¬ (group = g ∧ sender = s) → trouver keys g s = trouver (x.engine m) g s)
    {m' : M} {g s : Identifier} (hne : ¬ (m' = m ∧ group = g ∧ sender = s)) :
    trouver ((x.setEngine m keys).engine m') g s = trouver (x.engine m') g s := by
  rw [Members.engine_setEngine]
  split
  · rename_i heq
    subst heq
    exact hframe g s fun hids => hne ⟨rfl, hids⟩
  · rfl

theorem MembersInv.create (h : MembersInv P ids x) (m : M) (group : Identifier)
    (env : SenderKeyEnv K) : MembersInv P ids (Members.step P ids (.create m group env) x) := by
  by_cases hgroup : group = []
  · have hsame : Members.step P ids (.create m group env) x = x.setEngine m (x.engine m) := by
      simp [Members.step, ziaSenderKeyCreate, hgroup]
    rw [hsame, Members.setEngine, Function.update_eq_self]
    exact h
  -- The new entry under our own id, and its rotation at the end.
  let st : ZiaSenderKey K := ⟨group, [], env.chain, 0, P.ed25519Base env.signing,
    some env.signing, []⟩
  let ρ : Rotation M K := ⟨m, group, env.chain, env.signing,
    (ziaSenderKeyCreate P env (x.engine m) group).1.toOption⟩
  have hstep : Members.step P ids (.create m group env) x =
      { x.setEngine m (installer (x.engine m) st) with
        rotations := x.rotations ++ [ρ]
        current := Function.update x.current (m, group) (some x.rotations.length) } := by
    have hkeys : (ziaSenderKeyCreate P env (x.engine m) group).2 = installer (x.engine m) st := by
      rw [ziaSenderKeyCreate, if_neg hgroup]
      dsimp only
      split <;> rfl
    simp only [Members.step, if_neg hgroup, hkeys, ρ]
  have hframe : ∀ g s, ¬ (group = g ∧ ([] : Identifier) = s) →
      trouver (installer (x.engine m) st) g s = trouver (x.engine m) g s :=
    fun g s hne => trouver_installer_ne hne
  have hold : ∀ k m' g ρ', x.RotationOf k m' g ρ' →
      (Members.step P ids (.create m group env) x).RotationOf k m' g ρ' := by
    rintro k m' g ρ' ⟨hk, hids⟩
    refine ⟨?_, hids⟩
    rw [hstep]
    exact List.getElem?_append_left (List.getElem?_eq_some_iff.mp hk).1 ▸ hk
  have hnew : (Members.step P ids (.create m group env) x).RotationOf x.rotations.length m
      group ρ := by
    refine ⟨?_, rfl, rfl⟩
    rw [hstep]
    exact List.getElem?_concat_length
  constructor
  · intro k ρ' hk
    rw [hstep] at hk
    rcases Nat.lt_trichotomy k x.rotations.length with hlt | rfl | hgt
    · exact h.drawn k ρ' ((List.getElem?_append_left hlt).symm.trans hk)
    · obtain rfl := Option.some.inj ((List.getElem?_concat_length).symm.trans hk)
      refine ⟨hgroup, fun d hd => ?_⟩
      simp only [ρ, ziaSenderKeyCreate, if_neg hgroup] at hd
      split at hd
      · cases hd
      · exact (Option.some.inj hd).symm
    · rw [List.getElem?_append_right (Nat.le_of_lt hgt)] at hk
      have hpos : k - x.rotations.length ≠ 0 := by omega
      simp [hpos] at hk
  · intro m' g k hk
    by_cases hslot : (m', g) = (m, group)
    · obtain ⟨rfl, rfl⟩ := Prod.mk.inj hslot
      rw [hstep] at hk
      simp only [Function.update_self] at hk
      obtain rfl := Option.some.inj hk
      refine ⟨ρ, st, hnew, ?_, ⟨rfl, rfl⟩⟩
      rw [hstep]
      change trouver ((x.setEngine m' _).engine m') g [] = some st
      rw [Members.engine_setEngine, if_pos rfl]
      exact trouver_installer _ st
    · rw [hstep] at hk
      simp only [Function.update_of_ne hslot] at hk
      obtain ⟨ρ', st', hρ, hst, hsends⟩ := h.own m' g k hk
      refine ⟨ρ', st', hold _ _ _ _ hρ, ?_, hsends⟩
      rw [hstep]
      refine (Members.trouver_setEngine hframe ?_).trans hst
      rintro ⟨rfl, rfl, _⟩
      exact hslot rfl
  · intro m' g hnone
    by_cases hslot : (m', g) = (m, group)
    · rw [hstep, hslot] at hnone
      simp only [Function.update_self] at hnone
      cases hnone
    · rw [hstep] at hnone ⊢
      simp only [Function.update_of_ne hslot] at hnone
      refine (Members.trouver_setEngine hframe ?_).trans (h.noOwn m' g hnone)
      rintro ⟨rfl, rfl, _⟩
      exact hslot rfl
  · intro p hp
    have hp' : p ∈ x.messages := by
      rw [hstep] at hp
      exact hp
    obtain ⟨ρ', hρ, hsealed⟩ := h.sent p hp'
    exact ⟨ρ', hold _ _ _ _ hρ, hsealed⟩
  · intro r g m' k hk
    have hk' : x.processed (r, g, m') = some k := by
      rw [hstep] at hk
      exact hk
    obtain ⟨ρ', st', hρ, hst, hreceives⟩ := h.received r g m' k hk'
    refine ⟨ρ', st', hold _ _ _ _ hρ, ?_, ?_⟩
    · rw [hstep]
      refine (Members.trouver_setEngine hframe ?_).trans hst
      rintro ⟨_, _, hid⟩
      exact ids.ne_nil m' hid.symm
    · rw [hstep]
      exact hreceives

theorem MembersInv.process (h : MembersInv P ids x) (r : M) (k : Nat) :
    MembersInv P ids (Members.step P ids (.process r k) x) := by
  cases hk : x.rotations[k]? with
  | none => simpa only [Members.step, hk] using h
  | some ρ =>
    cases hd : ρ.distribution with
    | none => simpa only [Members.step, hk, hd] using h
    | some d =>
      obtain ⟨hgroup, hdist⟩ := h.drawn k ρ hk
      obtain rfl := hdist d hd
      let st : ZiaSenderKey K := ⟨ρ.group, ids.id ρ.sender, ρ.chain, 0, P.ed25519Base ρ.signing,
        none, []⟩
      have hprocess : ziaSenderKeyProcess (x.engine r) ρ.group (ids.id ρ.sender)
          (some ⟨kMagicDistribution, 0, ρ.chain, P.ed25519Base ρ.signing⟩) =
          (.ok (), installer (x.engine r) st) := by
        simp [ziaSenderKeyProcess, hgroup, ids.ne_nil, st]
      have hstep : Members.step P ids (.process r k) x =
          { x.setEngine r (installer (x.engine r) st) with
            processed := Function.update x.processed (r, ρ.group, ρ.sender) (some k)
            taken := Function.update x.taken (r, ρ.group, ρ.sender) [] } := by
        simp only [Members.step, hk, hd, hprocess]
      have hframe : ∀ g s, ¬ (ρ.group = g ∧ ids.id ρ.sender = s) →
          trouver (installer (x.engine r) st) g s = trouver (x.engine r) g s :=
        fun g s hne => trouver_installer_ne hne
      have hown : ∀ m g, trouver ((x.setEngine r (installer (x.engine r) st)).engine m) g [] =
          trouver (x.engine m) g [] := by
        intro m g
        refine Members.trouver_setEngine hframe ?_
        rintro ⟨_, _, hid⟩
        exact ids.ne_nil ρ.sender hid
      rw [hstep]
      constructor
      · exact h.drawn
      · intro m g k' hk'
        obtain ⟨ρ', st', hρ, hst, hsends⟩ := h.own m g k' hk'
        exact ⟨ρ', st', hρ, (hown m g).trans hst, hsends⟩
      · exact fun m g hnone => (hown m g).trans (h.noOwn m g hnone)
      · exact h.sent
      · intro r' g m k' hk'
        by_cases hslot : (r', g, m) = (r, ρ.group, ρ.sender)
        · obtain ⟨rfl, hrest⟩ := Prod.mk.inj hslot
          obtain ⟨rfl, rfl⟩ := Prod.mk.inj hrest
          simp only [Function.update_self] at hk'
          obtain rfl := Option.some.inj hk'
          refine ⟨ρ, st, ⟨hk, rfl, rfl⟩, ?_, rfl, 0, by decide, ?_⟩
          · change trouver ((x.setEngine r' _).engine r') _ _ = some st
            rw [Members.engine_setEngine, if_pos rfl]
            exact trouver_installer _ st
          · simp only [Function.update_self]
            have hstart : Follows P st.chainKey 0 [] st := follows_start rfl rfl
            exact hstart
        · simp only [Function.update_of_ne hslot] at hk' ⊢
          obtain ⟨ρ', st', hρ, hst, hreceives⟩ := h.received r' g m k' hk'
          refine ⟨ρ', st', hρ, (Members.trouver_setEngine hframe ?_).trans hst, hreceives⟩
          rintro ⟨rfl, rfl, hid⟩
          exact hslot (by rw [ids.injective hid])

/-- A decryption fails and changes nothing, or takes a key from the entry under which the
message is verified; when it succeeds, that key opened the message. -/
theorem decrypt_cases (alloc : Bool) (keys : List (ZiaSenderKey K))
    (group sender : Identifier) (message : Bytes) :
    (∃ rc, ziaSenderKeyDecrypt P alloc keys group sender message = (.error rc, keys)) ∨
    ∃ st st' mk r, trouver keys group sender = some st ∧
      P.ed25519Verify st.signingPublic (signedPart message)
        (message.drop (message.length - kSignatureLen)) = true ∧
      clefDeMessage P st (getU32 message kMagicLen) = .ok (mk, st') ∧
      ziaSenderKeyDecrypt P alloc keys group sender message = (r, ecrire keys st') ∧
      (∀ plaintext, r = .ok plaintext →
        P.aeadDecrypt mk zeroNonce (sealedPart message) group = some plaintext) := by
  unfold ziaSenderKeyDecrypt
  split
  · exact .inl ⟨_, rfl⟩
  split
  · exact .inl ⟨_, rfl⟩
  cases hst : trouver keys group sender with
  | none => exact .inl ⟨_, rfl⟩
  | some st =>
    dsimp only
    split
    · exact .inl ⟨_, rfl⟩
    rename_i hverify
    rw [Bool.not_eq_true, Bool.not_eq_false'] at hverify
    cases hkey : clefDeMessage P st (getU32 message kMagicLen) with
    | error rc => exact .inl ⟨rc, rfl⟩
    | ok taken =>
      obtain ⟨mk, st'⟩ := taken
      right
      dsimp only
      split
      · exact ⟨st, st', mk, _, rfl, hverify, hkey, rfl, fun _ h => nomatch h⟩
      · cases hopen : P.aeadDecrypt mk zeroNonce (sealedPart message) group with
        | none => exact ⟨st, st', mk, _, rfl, hverify, hkey, rfl, fun _ h => nomatch h⟩
        | some plaintext =>
          exact ⟨st, st', mk, _, rfl, hverify, hkey, rfl, fun _ h => hopen.trans
            (congrArg some (Except.ok.inj h))⟩

/-- An encryption fails and changes nothing, or signs under the own entry and moves
its chain. -/
theorem encrypt_cases (alloc : Bool) (keys : List (ZiaSenderKey K)) (group : Identifier)
    (plaintext : Bytes) :
    (∃ rc, ziaSenderKeyEncrypt P alloc keys group plaintext = (.error rc, keys)) ∨
    ∃ st ciphertext, trouver keys group [] = some st ∧
      P.aeadEncrypt (messageKey P.toPrimitives st.chainKey) zeroNonce plaintext group =
        some ciphertext ∧
      ziaSenderKeyEncrypt P alloc keys group plaintext =
        (let buf := kMagicMessage ++ putU32 st.iteration ++ ciphertext
        (.ok (buf ++ (P.ed25519Sign st.signingPrivate buf).bytes), ecrire keys (avancer P st))) := by
  unfold ziaSenderKeyEncrypt
  cases hst : trouver keys group [] with
  | none => exact .inl ⟨_, rfl⟩
  | some st =>
    cases alloc with
    | false => exact .inl ⟨_, rfl⟩
    | true =>
      cases hct : P.aeadEncrypt (messageKey P.toPrimitives st.chainKey) zeroNonce plaintext
          group with
      | none =>
        left
        refine ⟨.cryptoFailure, ?_⟩
        simp only [hct]
        rfl
      | some ciphertext =>
        right
        refine ⟨st, ciphertext, rfl, hct, ?_⟩
        simp only [hct]
        rfl

theorem MembersInv.encrypt (h : MembersInv P ids x) (m : M) (group : Identifier) (alloc : Bool)
    (plaintext : Bytes) (hfair : x.nextIndex m group + 1 < UInt32.size) :
    MembersInv P ids (Members.step P ids (.encrypt m group alloc plaintext) x) := by
  rcases encrypt_cases (P := P) alloc (x.engine m) group plaintext with
    ⟨rc, herror⟩ | ⟨st, ciphertext, hst, hct, hok⟩
  · have hsame : Members.step P ids (.encrypt m group alloc plaintext) x =
        x.setEngine m (x.engine m) := by
      simp only [Members.step, herror]
    rw [hsame, Members.setEngine, Function.update_eq_self]
    exact h
  have hindex : x.nextIndex m group = st.iteration.toNat := by
    rw [Members.nextIndex, hst]
    rfl
  rw [hindex] at hfair
  -- The member has a key, so the entry sends under its current rotation.
  obtain ⟨k, hk⟩ : ∃ k, x.current (m, group) = some k := by
    cases hk : x.current (m, group) with
    | none => cases (h.noOwn m group hk).symm.trans hst
    | some k => exact ⟨k, rfl⟩
  obtain ⟨ρ, st', hρ, hst', hsends⟩ := h.own m group k hk
  obtain rfl := Option.some.inj (hst'.symm.trans hst)
  obtain ⟨hgroupId, hsenderId⟩ := trouver_ids hst
  have hids : (avancer P st').groupId = group ∧ (avancer P st').senderId = [] :=
    ⟨hgroupId, hsenderId⟩
  have hwritten : trouver (ecrire (x.engine m) (avancer P st')) group [] =
      some (avancer P st') := trouver_ecrire hids hst
  have hframe : ∀ g s, ¬ (group = g ∧ ([] : Identifier) = s) →
      trouver (ecrire (x.engine m) (avancer P st')) g s = trouver (x.engine m) g s := by
    intro g s hne
    refine trouver_ecrire_ne ?_
    rwa [hids.1, hids.2]
  have hnext : (avancer P st').iteration.toNat = st'.iteration.toNat + 1 := by
    change (st'.iteration + 1).toNat = _
    rw [UInt32.toNat_add]
    exact Nat.mod_eq_of_lt hfair
  simp only [Members.step, hok]
  constructor
  · exact h.drawn
  · intro m' g k' hk'
    by_cases hslot : m' = m ∧ group = g
    · obtain ⟨rfl, rfl⟩ := hslot
      obtain rfl := Option.some.inj (hk.symm.trans hk')
      refine ⟨ρ, avancer P st', hρ, ?_, hsends.signing, ?_⟩
      · rw [Members.engine_setEngine, if_pos rfl]
        exact hwritten
      · rw [hnext, ← nextChainKey_chainKeyAt, ← hsends.chain]
        rfl
    · obtain ⟨ρ', st'', hρ', hst'', hsends'⟩ := h.own m' g k' hk'
      refine ⟨ρ', st'', hρ', (Members.trouver_setEngine hframe ?_).trans hst'', hsends'⟩
      exact fun hsame => hslot ⟨hsame.1, hsame.2.1⟩
  · intro m' g hnone
    refine (Members.trouver_setEngine hframe ?_).trans (h.noOwn m' g hnone)
    rintro ⟨rfl, rfl, _⟩
    cases hk.symm.trans hnone
  · intro p hp
    rcases List.mem_append.mp hp with hold | hnew
    · exact h.sent p hold
    · obtain rfl := List.mem_singleton.mp hnew
      refine ⟨ρ, ?_, ?_, ciphertext, ?_, ?_⟩
      · simp only [hk, Option.getD_some]
        exact hρ
      · simp only [hindex]
        exact hfair
      · simp only [hindex]
        rw [← hsends.chain]
        exact hct
      · simp only [hindex, messageBytes, UInt32.ofNat_toNat]
        rw [hsends.signing]
  · intro r g m' k' hk'
    obtain ⟨ρ', st'', hρ', hst'', hreceives⟩ := h.received r g m' k' hk'
    refine ⟨ρ', st'', hρ', (Members.trouver_setEngine hframe ?_).trans hst'', hreceives⟩
    rintro ⟨_, _, hid⟩
    exact ids.ne_nil m' hid.symm

/-- The entry of a receiver moves along the chain that it follows. -/
theorem MembersInv.advance (h : MembersInv P ids x) {r m : M} {group : Identifier} {k n : Nat}
    {ρ : Rotation M K} {st st' : ZiaSenderKey K} {taken : List Nat}
    (hprocessed : x.processed (r, group, m) = some k) (hρ : x.RotationOf k m group ρ)
    (hst : trouver (x.engine r) group (ids.id m) = some st)
    (hpublic : st.signingPublic = P.ed25519Base ρ.signing) (hsame : SameSender st st')
    (hn : n < UInt32.size) (hfollows : Follows P ρ.chain n taken st') :
    MembersInv P ids { x.setEngine r (ecrire (x.engine r) st') with
      taken := Function.update x.taken (r, group, m) taken } := by
  obtain ⟨hgroupId, hsenderId⟩ := trouver_ids hst
  have hids : st'.groupId = group ∧ st'.senderId = ids.id m :=
    ⟨hsame.groupId.trans hgroupId, hsame.senderId.trans hsenderId⟩
  have hwritten : trouver (ecrire (x.engine r) st') group (ids.id m) = some st' :=
    trouver_ecrire hids hst
  have hframe : ∀ g s, ¬ (group = g ∧ ids.id m = s) →
      trouver (ecrire (x.engine r) st') g s = trouver (x.engine r) g s := by
    intro g s hne
    refine trouver_ecrire_ne ?_
    rwa [hids.1, hids.2]
  constructor
  · exact h.drawn
  · intro m' g k' hk
    obtain ⟨ρ₀, st₀, hρ₀, hst₀, hsends⟩ := h.own m' g k' hk
    refine ⟨ρ₀, st₀, hρ₀, (Members.trouver_setEngine hframe ?_).trans hst₀, hsends⟩
    rintro ⟨_, _, hid⟩
    exact ids.ne_nil m hid
  · intro m' g hnone
    refine (Members.trouver_setEngine hframe ?_).trans (h.noOwn m' g hnone)
    rintro ⟨_, _, hid⟩
    exact ids.ne_nil m hid
  · exact h.sent
  · intro r' g m' k' hk
    by_cases hslot : (r', g, m') = (r, group, m)
    · obtain ⟨rfl, hrest⟩ := Prod.mk.inj hslot
      obtain ⟨rfl, rfl⟩ := Prod.mk.inj hrest
      obtain rfl := Option.some.inj (hprocessed.symm.trans hk)
      refine ⟨ρ, st', hρ, ?_, hsame.signingPublic.trans hpublic, n, hn, ?_⟩
      · change trouver ((x.setEngine r' _).engine r') _ _ = some st'
        rw [Members.engine_setEngine, if_pos rfl]
        exact hwritten
      · simp only [Function.update_self]
        exact hfollows
    · obtain ⟨ρ₀, st₀, hρ₀, hst₀, hreceives⟩ := h.received r' g m' k' hk
      refine ⟨ρ₀, st₀, hρ₀, (Members.trouver_setEngine hframe ?_).trans hst₀, ?_⟩
      · rintro ⟨rfl, rfl, hid⟩
        exact hslot (by rw [ids.injective hid])
      · simp only [Function.update_of_ne hslot]
        exact hreceives

/-- A fair delivery opens its message, and the receiver goes on following. -/
theorem MembersInv.deliver (haead : AeadCorrect P.toPrimitives) (hsign : SignatureCorrect P)
    (h : MembersInv P ids x) {r : M} {i : Nat} {alloc : Bool}
    (hfair : Members.Fair ids (.deliver r i alloc) x) :
    MembersInv P ids (Members.step P ids (.deliver r i alloc) x) ∧
      Members.Delivers P ids (.deliver r i alloc) x := by
  cases hp : x.messages[i]? with
  | none =>
    refine ⟨by simpa only [Members.step, hp] using h, fun p hp' => ?_⟩
    cases hp.symm.trans hp'
  | some p =>
    obtain ⟨rfl, hprocessed, hnot, hlimits⟩ := hfair p hp
    obtain ⟨ρ, hρ, hindex, ciphertext, hseal, hbytes⟩ := h.sent p (List.mem_of_getElem? hp)
    obtain ⟨ρ', st, hρ', hst, hpublic, n, hn, hfollows⟩ := h.received _ _ _ _ hprocessed
    obtain rfl := Option.some.inj (hρ'.1.symm.trans hρ.1)
    obtain ⟨hjump, hroom⟩ := hlimits st hst
    rw [hfollows.iteration] at hjump hroom
    obtain ⟨n', st', hkey, hn', hfollows', hsame⟩ :=
      hfollows.clefDeMessage hindex hnot hn hjump hroom
    obtain ⟨hopen, hlength⟩ := haead _ _ _ _ _ hseal
    have hdecrypt := decrypt_messageBytes hsign hst hpublic hlength hkey hopen
    rw [← hbytes] at hdecrypt
    refine ⟨?_, fun p' hp' => ?_⟩
    · simp only [Members.step, hp, hdecrypt]
      exact h.advance hprocessed hρ hst hpublic hsame hn' hfollows'
    · obtain rfl := Option.some.inj (hp.symm.trans hp')
      rw [hdecrypt]

/-- Whatever is created, processed, encrypted and delivered, in any order and to any
number of members: every fair delivery returns the plaintext that was encrypted. -/
theorem groupMessages_delivered (haead : AeadCorrect P.toPrimitives) (hsign : SignatureCorrect P)
    (ids : SenderIds M) (events : List (MemberEvent M K))
    (hfair : Always (fun e x => some (Members.step P ids e x)) (Members.Fair ids) events
      Members.start) :
    Always (fun e x => some (Members.step P ids e x)) (Members.Delivers P ids) events
      Members.start := by
  have hboth : ∀ e x, MembersInv P ids x → Members.Fair ids e x →
      MembersInv P ids (Members.step P ids e x) ∧ Members.Delivers P ids e x := by
    intro e x hinv hfair
    cases e with
    | create m group env => exact ⟨hinv.create m group env, trivial⟩
    | process r k => exact ⟨hinv.process r k, trivial⟩
    | encrypt m group alloc plaintext => exact ⟨hinv.encrypt m group alloc plaintext hfair, trivial⟩
    | deliver r i alloc => exact hinv.deliver haead hsign hfair
  refine always_of_invariant (MembersInv P ids) ?_ (fun e x hinv hfair => (hboth e x hinv hfair).2)
    membersInv_start hfair
  intro e x y hinv hfair hy
  obtain rfl := Option.some.inj hy
  exact (hboth e x hinv hfair).1

/-! ## Two members of the symbolic instance -/

/-- A signature spells the low bytes of its key. -/
def symbolicSender : SenderKeyPrimitives Bytes where
  toX3dhPrimitives := { symbolic with
    ed25519Verify := fun p m s => s == p.bytes ++ (FixedBytes.copy 32 m 0).bytes }
  ed25519Base k := FixedBytes.copy 32 k 0
  ed25519Sign k m :=
    ⟨(FixedBytes.copy 32 (k.getD []) 0).bytes ++ (FixedBytes.copy 32 m 0).bytes, by simp⟩

theorem symbolicSender_signatureCorrect : SignatureCorrect symbolicSender :=
  fun _ _ => beq_self_eq_true _

def symbolicIds : SenderIds Bool where
  id b := [if b then 1 else 2]
  injective := by rintro (_ | _) (_ | _) h <;> first | rfl | cases h
  ne_nil := by decide

/-- The first member's key, and two messages that arrive in the other order. -/
def symbolicGroup : List (MemberEvent Bool Bytes) :=
  [.create true [7] ⟨[3], [4], true⟩, .process false 0, .encrypt true [7] true [10],
    .encrypt true [7] true [11], .deliver false 1 true, .deliver false 0 true]

theorem symbolicGroup_delivered :
    Always (fun e x => some (Members.step symbolicSender symbolicIds e x))
        (Members.Delivers symbolicSender symbolicIds) symbolicGroup Members.start ∧
      (run (fun e x => some (Members.step symbolicSender symbolicIds e x)) symbolicGroup
        Members.start).map (fun x => (x.messages.map (·.plaintext), x.taken (false, [7], true))) =
          some ([[10], [11]], [0, 1]) :=
  ⟨groupMessages_delivered symbolic_aeadCorrect symbolicSender_signatureCorrect _ _
    (by decide +kernel), by decide +kernel⟩

end ZiaCrypte.Engine.SenderKeys
