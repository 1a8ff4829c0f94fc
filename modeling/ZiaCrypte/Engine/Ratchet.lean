import ZiaCrypte.Engine.Primitives

/-!
# `ratchet.cpp`: the Double Ratchet

A call returns with a status and the session as it left it, or faults: the HMAC
of an empty `SecureBuffer` reads through a null pointer. The session comes back
on every status, since the C++ mutates it in place before it can fail.
-/
namespace ZiaCrypte.Engine

variable {K : Type}

structure ZiaSkippedKey (K : Type) where
  dhPublic : PublicKey
  n : UInt32
  key : K
  deriving DecidableEq

/-- `ZiaSession`. The private half and the root key are plain keys because both
initialisers and `deserialize_state` set them before anyone sees the session. -/
structure ZiaSession (K : Type) where
  ad : FixedBytes 64
  dhsPublic : PublicKey
  dhsPrivate : K
  hasDhr : Bool
  dhrPublic : PublicKey
  rootKey : K
  hasSendChain : Bool
  sendChainKey : SecureBuffer K
  hasRecvChain : Bool
  recvChainKey : SecureBuffer K
  ns : UInt32
  nr : UInt32
  pn : UInt32
  skipped : List (ZiaSkippedKey K)
  deriving DecidableEq

/-- `kMaxSkippedKeys` -/
def kMaxSkippedKeys : Nat := 1000

/-- `kHeaderLen`: pn, n, dh_public. -/
def kHeaderLen : Nat := 40

structure RatchetHeader where
  pn : UInt32
  n : UInt32
  dhPublic : PublicKey
  deriving DecidableEq

def encodeHeader (h : RatchetHeader) : Bytes :=
  writeU32Le h.pn ++ writeU32Le h.n ++ h.dhPublic.bytes

def decodeHeader (header : Bytes) : RatchetHeader where
  pn := readU32Le header 0
  n := readU32Le header 4
  dhPublic := FixedBytes.copy 32 header 8

/-- What one engine call takes from outside: the 32 random bytes of a new key
pair, the stack bytes a failed `x25519_scalarmult` leaves in its output buffer
(its result is not checked by the ratchet), and whether `malloc` succeeds. -/
structure CallEnv (K : Type) where
  fresh : K
  stack₁ : K
  stack₂ : K
  alloc : Bool
  deriving DecidableEq

/-- How an engine call ends. -/
inductive Outcome (K α : Type) where
  | ok (out : α) (session : ZiaSession K)
  | error (rc : ZiaError) (session : ZiaSession K)
  | fault
  deriving DecidableEq

namespace Outcome

variable {α β : Type}

/-- Continue after a step that returned `ZIA_OK`. -/
def andThen (o : Outcome K α) (f : α → ZiaSession K → Outcome K β) : Outcome K β :=
  match o with
  | .ok out s => f out s
  | .error rc s => .error rc s
  | .fault => .fault

/-- The session left behind by a call that returned. -/
def session? : Outcome K α → Option (ZiaSession K)
  | .ok _ s => some s
  | .error _ s => some s
  | .fault => none

@[simp] theorem andThen_ok (a : α) (s : ZiaSession K) (f : α → ZiaSession K → Outcome K β) :
    (Outcome.ok a s).andThen f = f a s := rfl

@[simp] theorem andThen_error (rc : ZiaError) (s : ZiaSession K)
    (f : α → ZiaSession K → Outcome K β) :
    (Outcome.error rc s : Outcome K α).andThen f = .error rc s := rfl

@[simp] theorem andThen_fault (f : α → ZiaSession K → Outcome K β) :
    (Outcome.fault : Outcome K α).andThen f = .fault := rfl

end Outcome

variable (P : Primitives K)

/-- KDF_RK: new root key and chain key out of a DH output. -/
def kdfRk (rk dhOut : K) : K × K :=
  let both := P.hkdfSha256 rk [dhOut] "ZiaCrypteRatchetStep" 2
  (both.getD 0 rk, both.getD 1 rk)

/-- The next chain key, `HMAC(ck, 0x02)`. -/
def nextChainKey (ck : K) : K := P.hmac ck [.byte 2]

/-- The message key, `HMAC(ck, 0x01)`. -/
def messageKey (ck : K) : K := P.hmac ck [.byte 1]

/-- KDF_CK: next chain key and message key; `none` when the buffer is empty. -/
def kdfCk (ck : SecureBuffer K) : Option (K × K) :=
  ck.map fun k => (nextChainKey P k, messageKey P k)

/-- `push_back` on the skipped keys, which evicts the oldest of a full cache. -/
def pushSkipped (cache : List (ZiaSkippedKey K)) (sk : ZiaSkippedKey K) :
    List (ZiaSkippedKey K) :=
  (if cache.length ≥ kMaxSkippedKeys then cache.drop 1 else cache) ++ [sk]

def storeSkippedKey (s : ZiaSession K) (dhPublic : PublicKey) (n : UInt32) (key : K) :
    ZiaSession K :=
  { s with skipped := pushSkipped s.skipped ⟨dhPublic, n, key⟩ }

/-- The predicate of the `find_if` in `take_skipped_key`. -/
def ZiaSkippedKey.isFor (sk : ZiaSkippedKey K) (dhPublic : PublicKey) (n : UInt32) : Bool :=
  sk.n == n && sk.dhPublic == dhPublic

def takeSkippedKey (s : ZiaSession K) (dhPublic : PublicKey) (n : UInt32) :
    Option (K × ZiaSession K) :=
  match s.skipped.find? (·.isFor dhPublic n) with
  | none => none
  | some sk => some (sk.key, { s with skipped := s.skipped.eraseP (·.isFor dhPublic n) })

/-- The body of the `while` loop of `skip_recv_chain_to`. -/
def skipTurn (s : ZiaSession K) (nextCk mk : K) : ZiaSession K :=
  { storeSkippedKey s s.dhrPublic s.nr mk with recvChainKey := some nextCk, nr := s.nr + 1 }

/-- `while (s.nr < until)`, for at most `fuel` turns. -/
def skipLoop (stop : UInt32) : Nat → ZiaSession K → Outcome K Unit
  | 0, s => .ok () s
  | fuel + 1, s =>
      if s.nr < stop then
        match kdfCk P s.recvChainKey with
        | none => .fault
        | some (nextCk, mk) => skipLoop stop fuel (skipTurn s nextCk mk)
      else .ok () s

def skipRecvChainTo (s : ZiaSession K) (stop : UInt32) : Outcome K Unit :=
  if !s.hasRecvChain then .ok () s
  else if stop ≤ s.nr then .ok () s
  else if (stop - s.nr).toNat > kMaxSkippedKeys then .error .skippedKeyLimit s
  else skipLoop P stop (stop - s.nr).toNat s

/-- The two KDF_RK applications of `dh_ratchet_step`: the receive chain from our
current pair, then the root key and the send chain from the fresh pair. -/
def dhRatchetStep (env : CallEnv K) (s : ZiaSession K) (theirs : PublicKey) : ZiaSession K :=
  let dhOut := (P.x25519Scalarmult s.dhsPrivate theirs).getD env.stack₁
  let (newRk, newCkr) := kdfRk P s.rootKey dhOut
  let dhOut2 := (P.x25519Scalarmult env.fresh theirs).getD env.stack₂
  let (newRk2, newCks) := kdfRk P newRk dhOut2
  { s with
    pn := s.ns
    ns := 0
    nr := 0
    dhrPublic := theirs
    hasDhr := true
    recvChainKey := some newCkr
    hasRecvChain := true
    dhsPublic := P.x25519Base env.fresh
    dhsPrivate := env.fresh
    rootKey := newRk2
    sendChainKey := some newCks
    hasSendChain := true }

/-- `init_as_initiator` on a new session bound to `ad`. -/
def initAsInitiator (env : CallEnv K) (ad : FixedBytes 64) (sk : K) (theirInitialDh : PublicKey) :
    ZiaSession K :=
  let dhOut := (P.x25519Scalarmult env.fresh theirInitialDh).getD env.stack₁
  let (newRk, newCks) := kdfRk P sk dhOut
  { ad := ad
    dhsPublic := P.x25519Base env.fresh
    dhsPrivate := env.fresh
    hasDhr := true
    dhrPublic := theirInitialDh
    rootKey := newRk
    hasSendChain := true
    sendChainKey := some newCks
    hasRecvChain := false
    recvChainKey := none
    ns := 0
    nr := 0
    pn := 0
    skipped := [] }

/-- `init_as_responder`: the initial pair is the signed prekey, and no chain
exists before the first message of the initiator. -/
def initAsResponder (ad : FixedBytes 64) (sk : K) (myInitialDh : PublicKey)
    (myInitialDhPrivate : K) : ZiaSession K where
  ad := ad
  dhsPublic := myInitialDh
  dhsPrivate := myInitialDhPrivate
  hasDhr := false
  dhrPublic := FixedBytes.zero 32
  rootKey := sk
  hasSendChain := false
  sendChainKey := none
  hasRecvChain := false
  recvChainKey := none
  ns := 0
  nr := 0
  pn := 0
  skipped := []

structure EncryptedMessage where
  header : Bytes
  ciphertext : Bytes
  deriving DecidableEq

/-- The header the next `zia_session_encrypt` writes. -/
def sendHeader (s : ZiaSession K) : Bytes := encodeHeader ⟨s.pn, s.ns, s.dhsPublic⟩

/-- The additional data of a message: both identities, then its header. -/
def messageAd (s : ZiaSession K) (header : Bytes) : Bytes := s.ad.bytes ++ header

def ziaSessionEncrypt (env : CallEnv K) (s : ZiaSession K) (plaintext : Bytes) :
    Outcome K EncryptedMessage :=
  if !s.hasSendChain then .error .sessionNotFound s
  else
    match kdfCk P s.sendChainKey with
    | none => .fault
    | some (nextCk, mk) =>
        if !env.alloc then .error .outOfMemory s
        else
          match P.aeadEncrypt mk zeroNonce plaintext (messageAd s (sendHeader s)) with
          | none => .error .cryptoFailure s
          | some ciphertext =>
              .ok ⟨sendHeader s, ciphertext⟩
                { s with sendChainKey := some nextCk, ns := s.ns + 1 }

/-- The allocation and the AEAD check both branches of `zia_session_decrypt` end
with; `accepted` is the session once the plaintext is handed out. -/
def openMessage (env : CallEnv K) (key : K) (ciphertext ad : Bytes)
    (s accepted : ZiaSession K) : Outcome K Bytes :=
  if !env.alloc then .error .outOfMemory s
  else
    match P.aeadDecrypt key zeroNonce ciphertext ad with
    | none => .error .cryptoFailure s
    | some plaintext => .ok plaintext accepted

/-- The replay test: a counter of the current chain that is already behind. -/
def isReplay (s : ZiaSession K) (h : RatchetHeader) : Bool :=
  s.hasRecvChain && s.dhrPublic == h.dhPublic && decide (h.n < s.nr)

/-- The test that decides whether a header opens a new receive chain. -/
def opensNewChain (s : ZiaSession K) (h : RatchetHeader) : Bool :=
  !s.hasDhr || s.dhrPublic != h.dhPublic

/-- A new remote key closes the current chain and steps the ratchet. -/
def openChain (env : CallEnv K) (s : ZiaSession K) (h : RatchetHeader) : Outcome K Unit :=
  if opensNewChain s h then
    (skipRecvChainTo P s h.pn).andThen fun _ s => .ok () (dhRatchetStep P env s h.dhPublic)
  else .ok () s

/-- Everything `zia_session_decrypt` does before it derives the message key. -/
def advanceRecvChain (env : CallEnv K) (s : ZiaSession K) (h : RatchetHeader) : Outcome K Unit :=
  (openChain P env s h).andThen fun _ s => skipRecvChainTo P s h.n

/-- The message key of the current receive chain, and the AEAD check under it. -/
def openWithRecvChain (env : CallEnv K) (s : ZiaSession K) (ciphertext ad : Bytes) :
    Outcome K Bytes :=
  match kdfCk P s.recvChainKey with
  | none => .fault
  | some (nextCk, mk) =>
      openMessage P env mk ciphertext ad s { s with recvChainKey := some nextCk, nr := s.nr + 1 }

def ziaSessionDecrypt (env : CallEnv K) (s : ZiaSession K) (header ciphertext : Bytes) :
    Outcome K Bytes :=
  if header.length ≠ kHeaderLen then .error .invalidArg s
  else if ciphertext.length < aeadABytes then .error .invalidArg s
  else
    let h := decodeHeader header
    match takeSkippedKey s h.dhPublic h.n with
    | some (key, s') => openMessage P env key ciphertext (messageAd s header) s' s'
    | none =>
        if isReplay s h then .error .replayDetected s
        else
          (advanceRecvChain P env s h).andThen fun _ s' =>
            openWithRecvChain P env s' ciphertext (messageAd s header)

end ZiaCrypte.Engine
