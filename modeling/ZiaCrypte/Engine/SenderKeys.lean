import ZiaCrypte.Engine.X3dh

/-!
# `sender_keys.cpp`: sender keys of groups

A sender keeps a hash chain and a signing key for each group and hands both out
once; members follow the chain and keep the keys they skip. The functions take
the `sender_keys` of an engine and give them back as the C++ leaves them on every
status. Group and sender ids are C strings; an empty sender id is our own key.
-/
namespace ZiaCrypte.Engine.SenderKeys

variable {K : Type}

abbrev Identifier := Bytes

/-- Ed25519 beside the primitives of the handshake, which verify already. -/
structure SenderKeyPrimitives (K : Type) extends X3dhPrimitives K where
  /-- The public half `crypto_sign_keypair` writes beside a private one. -/
  ed25519Base : K → PublicKey
  ed25519Sign : SecureBuffer K → Bytes → FixedBytes 64

structure ZiaSenderSkippedKey (K : Type) where
  iteration : UInt32
  key : K
  deriving DecidableEq

/-- The chain key is a plain key: `create` and `process` set it before anyone sees
the entry. -/
structure ZiaSenderKey (K : Type) where
  groupId : Identifier
  senderId : Identifier
  chainKey : K
  iteration : UInt32
  signingPublic : PublicKey
  signingPrivate : SecureBuffer K
  skipped : List (ZiaSenderSkippedKey K)
  deriving DecidableEq

/-- `ZIASKD01` -/
def kMagicDistribution : Bytes := [0x5a, 0x49, 0x41, 0x53, 0x4b, 0x44, 0x30, 0x31]

/-- `ZIASKM01` -/
def kMagicMessage : Bytes := [0x5a, 0x49, 0x41, 0x53, 0x4b, 0x4d, 0x30, 0x31]

def kMagicLen : Nat := 8

def kSignatureLen : Nat := 64

def kMaxSkip : Nat := 2000

def kMaxSkippedKeys : Nat := 2000

/-- The four fields of the `kDistributionLen` bytes of a distribution. -/
structure Distribution (K : Type) where
  magic : Bytes
  iteration : UInt32
  chainKey : K
  signingPublic : PublicKey
  deriving DecidableEq

def putU32 (v : UInt32) : Bytes :=
  [(v >>> 24).toUInt8, (v >>> 16).toUInt8, (v >>> 8).toUInt8, v.toUInt8]

def getU32 (data : Bytes) (offset : Nat) : UInt32 :=
  ((data.getD offset 0).toUInt32 <<< 24) ||| ((data.getD (offset + 1) 0).toUInt32 <<< 16) |||
    ((data.getD (offset + 2) 0).toUInt32 <<< 8) ||| (data.getD (offset + 3) 0).toUInt32

/-- What a call takes from outside: the bytes drawn for a new key, and whether
`malloc` succeeds. -/
structure SenderKeyEnv (K : Type) where
  chain : K
  signing : K
  alloc : Bool

/-! ## The entries -/

/-- The predicate of the `find_if` in `trouver`. -/
def ZiaSenderKey.isFor (st : ZiaSenderKey K) (group sender : Identifier) : Bool :=
  st.groupId == group && st.senderId == sender

def trouver (keys : List (ZiaSenderKey K)) (group sender : Identifier) :
    Option (ZiaSenderKey K) :=
  keys.find? (·.isFor group sender)

/-- The entry `trouver` points to becomes `st`. -/
def ecrire : List (ZiaSenderKey K) → ZiaSenderKey K → List (ZiaSenderKey K)
  | [], _ => []
  | k :: keys, st =>
      if k.isFor st.groupId st.senderId then st :: keys else k :: ecrire keys st

/-- The entry that `create` and `process` fill in, found or pushed back. -/
def installer (keys : List (ZiaSenderKey K)) (st : ZiaSenderKey K) : List (ZiaSenderKey K) :=
  match trouver keys st.groupId st.senderId with
  | some _ => ecrire keys st
  | none => keys ++ [st]

def rangerClefSautee (st : ZiaSenderKey K) (iteration : UInt32) (key : K) : ZiaSenderKey K :=
  { st with
    skipped := (if st.skipped.length ≥ kMaxSkippedKeys then st.skipped.drop 1 else st.skipped) ++
      [⟨iteration, key⟩] }

def reprendreClefSautee (st : ZiaSenderKey K) (iteration : UInt32) :
    Option (K × ZiaSenderKey K) :=
  match st.skipped.find? (·.iteration == iteration) with
  | none => none
  | some sk => some (sk.key, { st with skipped := st.skipped.eraseP (·.iteration == iteration) })

variable (P : SenderKeyPrimitives K)

/-- The chain moves past one message. -/
def avancer (st : ZiaSenderKey K) : ZiaSenderKey K :=
  { st with
    chainKey := nextChainKey P.toPrimitives st.chainKey
    iteration := st.iteration + 1 }

/-! ## The calls -/

def ziaSenderKeyCreate (env : SenderKeyEnv K) (keys : List (ZiaSenderKey K))
    (group : Identifier) : Except ZiaError (Distribution K) × List (ZiaSenderKey K) :=
  if group = [] then (.error .invalidArg, keys)
  else
    let st : ZiaSenderKey K :=
      { groupId := group
        senderId := []
        chainKey := env.chain
        iteration := 0
        signingPublic := P.ed25519Base env.signing
        signingPrivate := some env.signing
        skipped := [] }
    let keys' := installer keys st
    if !env.alloc then (.error .outOfMemory, keys')
    else (.ok ⟨kMagicDistribution, st.iteration, st.chainKey, st.signingPublic⟩, keys')

/-- `distribution` is `none` where its length is not `kDistributionLen`. -/
def ziaSenderKeyProcess (keys : List (ZiaSenderKey K)) (group sender : Identifier)
    (distribution : Option (Distribution K)) : Except ZiaError Unit × List (ZiaSenderKey K) :=
  match distribution with
  | none => (.error .invalidArg, keys)
  | some d =>
      if d.magic ≠ kMagicDistribution then (.error .invalidArg, keys)
      else if group = [] ∨ sender = [] then (.error .invalidArg, keys)
      else
        (.ok (), installer keys
          { groupId := group
            senderId := sender
            chainKey := d.chainKey
            iteration := d.iteration
            signingPublic := d.signingPublic
            signingPrivate := none
            skipped := [] })

def ziaSenderKeyEncrypt (alloc : Bool) (keys : List (ZiaSenderKey K)) (group : Identifier)
    (plaintext : Bytes) : Except ZiaError Bytes × List (ZiaSenderKey K) :=
  match trouver keys group [] with
  | none => (.error .sessionNotFound, keys)
  | some st =>
      if !alloc then (.error .outOfMemory, keys)
      else
        match P.aeadEncrypt (messageKey P.toPrimitives st.chainKey) zeroNonce plaintext group with
        | none => (.error .cryptoFailure, keys)
        | some ciphertext =>
            let buf := kMagicMessage ++ putU32 st.iteration ++ ciphertext
            (.ok (buf ++ (P.ed25519Sign st.signingPrivate buf).bytes),
              ecrire keys (avancer P st))

/-- The body of the `while` loop of `zia_sender_key_decrypt`. -/
def sauterTour (st : ZiaSenderKey K) : ZiaSenderKey K :=
  avancer P (rangerClefSautee st st.iteration (messageKey P.toPrimitives st.chainKey))

/-- `while (st->iteration < iteration)`, for at most `fuel` turns. -/
def rattraper (iteration : UInt32) : Nat → ZiaSenderKey K → ZiaSenderKey K
  | 0, st => st
  | fuel + 1, st =>
      if st.iteration < iteration then rattraper iteration fuel (sauterTour P st) else st

/-- The message key of an iteration, and the entry once it is taken. -/
def clefDeMessage (st : ZiaSenderKey K) (iteration : UInt32) :
    Except ZiaError (K × ZiaSenderKey K) :=
  if iteration < st.iteration then
    match reprendreClefSautee st iteration with
    | none => .error .replayDetected
    | some r => .ok r
  else if (iteration - st.iteration).toNat > kMaxSkip then .error .skippedKeyLimit
  else
    let st' := rattraper P iteration (iteration - st.iteration).toNat st
    .ok (messageKey P.toPrimitives st'.chainKey, avancer P st')

/-- The signed part of a message: everything before the signature. -/
def signedPart (message : Bytes) : Bytes := message.take (message.length - kSignatureLen)

/-- The ciphertext of a message, between its header and its signature. -/
def sealedPart (message : Bytes) : Bytes := (signedPart message).drop (kMagicLen + 4)

def ziaSenderKeyDecrypt (alloc : Bool) (keys : List (ZiaSenderKey K))
    (group sender : Identifier) (message : Bytes) :
    Except ZiaError Bytes × List (ZiaSenderKey K) :=
  if message.length < kMagicLen + 4 + aeadABytes + kSignatureLen then (.error .invalidArg, keys)
  else if message.take kMagicLen ≠ kMagicMessage then (.error .invalidArg, keys)
  else
    match trouver keys group sender with
    | none => (.error .sessionNotFound, keys)
    | some st =>
        if !P.ed25519Verify st.signingPublic (signedPart message)
            (message.drop (message.length - kSignatureLen)) then
          (.error .signatureInvalid, keys)
        else
          match clefDeMessage P st (getU32 message kMagicLen) with
          | .error rc => (.error rc, keys)
          | .ok (mk, st') =>
              if !alloc then (.error .outOfMemory, ecrire keys st')
              else
                match P.aeadDecrypt mk zeroNonce (sealedPart message) group with
                | none => (.error .cryptoFailure, ecrire keys st')
                | some plaintext => (.ok plaintext, ecrire keys st')

/-! ## The entries after a write -/

theorem isFor_iff {st : ZiaSenderKey K} {group sender : Identifier} :
    st.isFor group sender = true ↔ st.groupId = group ∧ st.senderId = sender := by
  rw [ZiaSenderKey.isFor, Bool.and_eq_true, beq_iff_eq, beq_iff_eq]

theorem trouver_ids {keys : List (ZiaSenderKey K)} {group sender : Identifier}
    {st : ZiaSenderKey K} (h : trouver keys group sender = some st) :
    st.groupId = group ∧ st.senderId = sender := by
  have hst : st.isFor group sender = true := by
    unfold trouver at h
    simpa using List.find?_some h
  exact isFor_iff.mp hst

/-- A write is seen under its own ids. -/
theorem trouver_ecrire {keys : List (ZiaSenderKey K)} {st st' : ZiaSenderKey K}
    {group sender : Identifier} (hids : st.groupId = group ∧ st.senderId = sender)
    (h : trouver keys group sender = some st') :
    trouver (ecrire keys st) group sender = some st := by
  obtain ⟨rfl, rfl⟩ := hids
  induction keys with
  | nil => cases h
  | cons k keys ih =>
    rw [trouver, List.find?_cons] at h
    rw [ecrire]
    cases hk : k.isFor st.groupId st.senderId with
    | true =>
      rw [if_pos rfl, trouver, List.find?_cons, isFor_iff.mpr ⟨rfl, rfl⟩]
    | false =>
      rw [hk] at h
      rw [if_neg Bool.false_ne_true, trouver, List.find?_cons, hk]
      exact ih h

theorem trouver_ecrire_ne {keys : List (ZiaSenderKey K)} {st : ZiaSenderKey K}
    {group sender : Identifier} (h : ¬ (st.groupId = group ∧ st.senderId = sender)) :
    trouver (ecrire keys st) group sender = trouver keys group sender := by
  have hst : st.isFor group sender = false := by
    rw [← Bool.not_eq_true, isFor_iff]
    exact h
  induction keys with
  | nil => rfl
  | cons k keys ih =>
    rw [ecrire]
    split
    · rename_i hk
      have hk' : k.isFor group sender = false := by
        rw [← Bool.not_eq_true, isFor_iff]
        rw [isFor_iff] at hk
        rwa [hk.1, hk.2]
      rw [trouver, List.find?_cons, hst, trouver, List.find?_cons, hk']
    · rw [trouver, List.find?_cons, trouver, List.find?_cons]
      cases k.isFor group sender
      · exact ih
      · rfl

theorem trouver_installer (keys : List (ZiaSenderKey K)) (st : ZiaSenderKey K) :
    trouver (installer keys st) st.groupId st.senderId = some st := by
  unfold installer
  split
  · rename_i st' h
    exact trouver_ecrire ⟨rfl, rfl⟩ h
  · rename_i h
    rw [trouver, List.find?_append, show List.find? _ keys = none from h, Option.none_or,
      List.find?_cons, isFor_iff.mpr ⟨rfl, rfl⟩]

theorem trouver_installer_ne {keys : List (ZiaSenderKey K)} {st : ZiaSenderKey K}
    {group sender : Identifier} (h : ¬ (st.groupId = group ∧ st.senderId = sender)) :
    trouver (installer keys st) group sender = trouver keys group sender := by
  unfold installer
  split
  · exact trouver_ecrire_ne h
  · have hst : st.isFor group sender = false := by
      rw [← Bool.not_eq_true, isFor_iff]
      exact h
    rw [trouver, List.find?_append, List.find?_cons, hst, List.find?_nil, Option.or_none]
    rfl

/-! ## Words in network order -/

@[simp] theorem length_putU32 (v : UInt32) : (putU32 v).length = 4 := rfl

theorem or_reverse (a b c d : UInt32) : a ||| b ||| c ||| d = d ||| c ||| b ||| a := by
  rw [UInt32.or_comm _ d, UInt32.or_comm _ c, UInt32.or_comm a b, UInt32.or_assoc,
    UInt32.or_assoc]

theorem getU32_append (pre : Bytes) (v : UInt32) (post : Bytes) (offset : Nat)
    (h : offset = pre.length) : getU32 (pre ++ (putU32 v ++ post)) offset = v := by
  subst h
  have hget : ∀ j, (pre ++ (putU32 v ++ post)).getD (pre.length + j) 0 =
      (putU32 v ++ post).getD j 0 := by
    intro j
    rw [List.getD_append_right _ _ _ _ (Nat.le_add_right _ _), Nat.add_sub_cancel_left]
  rw [getU32, hget 1, hget 2, hget 3, ← Nat.add_zero pre.length, hget 0]
  refine (or_reverse _ _ _ _).trans (ofBytes_writeU32Le v)

end ZiaCrypte.Engine.SenderKeys
