import ZiaCrypte.Lib.Filler
import ZiaCrypte.Engine.SessionStore
import ZiaCrypte.Engine.X3dh

/-!
# `identity_store.cpp`: the identity of an engine as bytes

`serialize_identity` writes the current format. `deserialize_identity` reads both
versions into an engine it fills field by field, so that a malformed buffer
leaves some of its fields behind.
-/
namespace ZiaCrypte.Storage

open ZiaCrypte.Lib ZiaCrypte.Engine

/-- `kFormatVersion` -/
def kFormatVersion : UInt8 := 2

abbrev Signature := FixedBytes 64

structure ZiaSignedPrekey where
  publicKey : PublicKey
  privateKey : Key
  signature : Signature
  deriving DecidableEq

structure ZiaPqPrekey where
  publicKey : FixedBytes 1184
  privateKey : FixedBytes 2400
  signature : Signature
  deriving DecidableEq

abbrev ZiaOneTimePrekey := Engine.ZiaOneTimePrekey Key

/-- `ZiaEngine`, with the identity, the prekeys and the hybrid switch. -/
structure ZiaEngine where
  hasIdentity : Bool
  identityPublic : PublicKey
  identityPrivate : SecureBuffer (FixedBytes 64)
  signedPrekey : Option ZiaSignedPrekey
  pqPrekey : Option ZiaPqPrekey
  oneTimePrekeys : List ZiaOneTimePrekey
  requirePq : Bool
  deriving DecidableEq

/-- `new ZiaEngine()` -/
def ZiaEngine.new : ZiaEngine where
  hasIdentity := false
  identityPublic := FixedBytes.zero 32
  identityPrivate := none
  signedPrekey := none
  pqPrekey := none
  oneTimePrekeys := []
  requirePq := false

/-! ## Writing -/

def signedPrekeyBytes (spk : ZiaSignedPrekey) : Bytes :=
  spk.publicKey.bytes ++ (spk.privateKey.bytes ++ spk.signature.bytes)

def pqPrekeyBytes (pq : ZiaPqPrekey) : Bytes :=
  pq.publicKey.bytes ++ (pq.privateKey.bytes ++ pq.signature.bytes)

def oneTimePrekeyBytes (otpk : ZiaOneTimePrekey) : Bytes :=
  otpk.publicKey.bytes ++ (otpk.privateKey.bytes ++ [boolByte otpk.consumed])

/-- A presence byte, then the value. -/
def optionalBytes {α : Type} (enc : α → Bytes) : Option α → Bytes
  | none => [boolByte false]
  | some x => boolByte true :: enc x

/-- The identity keys; `none` when the private one would be read through the null
pointer of an empty buffer. -/
def identityBytes (e : ZiaEngine) : Option Bytes :=
  if e.hasIdentity then
    e.identityPrivate.map fun priv => boolByte true :: (e.identityPublic.bytes ++ priv.bytes)
  else some (boolByte false :: e.identityPublic.bytes)

def oneTimePrekeysBytes (otpks : List ZiaOneTimePrekey) : Bytes :=
  writeU32Le (UInt32.ofNat otpks.length) ++ otpks.flatMap oneTimePrekeyBytes

def serializeIdentity (e : ZiaEngine) : Option Bytes := do
  let identity ← identityBytes e
  pure (kFormatVersion :: (identity ++ (optionalBytes signedPrekeyBytes e.signedPrekey ++
    (optionalBytes pqPrekeyBytes e.pqPrekey ++ oneTimePrekeysBytes e.oneTimePrekeys))))

/-- What version 1 wrote: the same layout, before there was a post-quantum prekey. -/
def serializeIdentityV1 (e : ZiaEngine) : Option Bytes := do
  let identity ← identityBytes e
  pure (1 :: (identity ++ (optionalBytes signedPrekeyBytes e.signedPrekey ++
    oneTimePrekeysBytes e.oneTimePrekeys)))

/-! ## Reading -/

def readByte : Cursor UInt8 UInt8 := .field 1 fun b => b.getD 0 0

def readSignedPrekey : Cursor UInt8 ZiaSignedPrekey := do
  let publicKey ← readFixed 32
  let privateKey ← readFixed 32
  let signature ← readFixed 64
  pure ⟨publicKey, privateKey, signature⟩

def readPqPrekey : Cursor UInt8 ZiaPqPrekey := do
  let publicKey ← readFixed 1184
  let privateKey ← readFixed 2400
  let signature ← readFixed 64
  pure ⟨publicKey, privateKey, signature⟩

def readOneTimePrekey : Cursor UInt8 ZiaOneTimePrekey := do
  let publicKey ← readFixed 32
  let privateKey ← readFixed 32
  let consumed ← readByte
  pure ⟨publicKey, privateKey, consumed != 0⟩

/-- What `sodium_malloc` hands out. -/
def sodiumMalloc (n : Nat) : FixedBytes n := ⟨List.replicate n 0xdb, List.length_replicate⟩

/-- `read_secret` on `identity_private`: the buffer is replaced before it is filled. -/
def fillIdentityPrivate (present : Bool) : Filler UInt8 ZiaEngine Unit :=
  if present then do
    .write fun e => { e with identityPrivate := some (sodiumMalloc 64) }
    let priv ← .read (readFixed 64)
    .write fun e => { e with identityPrivate := some priv }
  else pure ()

def fillIdentityKeys : Filler UInt8 ZiaEngine Unit := do
  let flag ← .read readByte
  .write fun e => { e with hasIdentity := flag != 0 }
  let identityPublic ← .read (readFixed 32)
  .write fun e => { e with identityPublic := identityPublic }
  fillIdentityPrivate (flag != 0)

def fillPresentSignedPrekey (present : Bool) : Filler UInt8 ZiaEngine Unit :=
  if present then do
    let spk ← .read readSignedPrekey
    .write fun e => { e with signedPrekey := some spk }
  else .write fun e => { e with signedPrekey := none }

def fillSignedPrekey : Filler UInt8 ZiaEngine Unit := do
  let flag ← .read readByte
  fillPresentSignedPrekey (flag != 0)

def fillPresentPqPrekey (present : Bool) : Filler UInt8 ZiaEngine Unit :=
  if present then do
    let pq ← .read readPqPrekey
    .write fun e => { e with pqPrekey := some pq }
  else pure ()

/-- The section version 2 added. -/
def fillPqPrekey (version : UInt8) : Filler UInt8 ZiaEngine Unit :=
  if 2 ≤ version then do
    let flag ← .read readByte
    fillPresentPqPrekey (flag != 0)
  else pure ()

/-- The body of the loop over the one-time prekeys. -/
def fillOneTimePrekey : Filler UInt8 ZiaEngine Unit := do
  let otpk ← .read readOneTimePrekey
  .write fun e => { e with oneTimePrekeys := e.oneTimePrekeys ++ [otpk] }

def fillOneTimePrekeys : Filler UInt8 ZiaEngine Unit := do
  let count ← .read readCount
  .write fun e => { e with oneTimePrekeys := [] }
  .repeated fillOneTimePrekey count.toNat

def knownVersion (version : UInt8) : Bool := 1 ≤ version && version ≤ kFormatVersion

def fillIdentity : Filler UInt8 ZiaEngine Unit := do
  let version ← .read readByte
  .check (knownVersion version)
  fillIdentityKeys
  fillSignedPrekey
  .write fun e => { e with pqPrekey := none }
  fillPqPrekey version
  fillOneTimePrekeys

/-- `deserialize_identity`: whether it accepts, and the engine as it leaves it. -/
def deserializeIdentity (data : Bytes) (e : ZiaEngine) : Bool × ZiaEngine :=
  fillIdentity.parse data e

/-! ## Each field reads back -/

theorem readByte_reads (b : UInt8) : readByte.Reads [b] b :=
  Cursor.reads_field (fun b : Bytes => b.getD 0 0) [b] rfl

theorem readSignedPrekey_reads (spk : ZiaSignedPrekey) :
    readSignedPrekey.Reads (signedPrekeyBytes spk) spk := by
  unfold readSignedPrekey signedPrekeyBytes
  apply (readFixed_reads spk.publicKey).bind
  apply (readFixed_reads spk.privateKey).bind
  rw [← List.append_nil spk.signature.bytes]
  exact (readFixed_reads spk.signature).bind (Cursor.reads_pure _)

theorem readPqPrekey_reads (pq : ZiaPqPrekey) : readPqPrekey.Reads (pqPrekeyBytes pq) pq := by
  unfold readPqPrekey pqPrekeyBytes
  apply (readFixed_reads pq.publicKey).bind
  apply (readFixed_reads pq.privateKey).bind
  rw [← List.append_nil pq.signature.bytes]
  exact (readFixed_reads pq.signature).bind (Cursor.reads_pure _)

theorem readOneTimePrekey_reads (otpk : ZiaOneTimePrekey) :
    readOneTimePrekey.Reads (oneTimePrekeyBytes otpk) otpk := by
  unfold readOneTimePrekey oneTimePrekeyBytes
  apply (readFixed_reads otpk.publicKey).bind
  apply (readFixed_reads otpk.privateKey).bind
  have hread := (readByte_reads (boolByte otpk.consumed)).bind (f := fun consumed =>
    (pure ⟨otpk.publicKey, otpk.privateKey, consumed != 0⟩ : Cursor UInt8 ZiaOneTimePrekey))
    (Cursor.reads_pure _)
  rwa [boolByte_ne_zero] at hread

theorem fillIdentityPrivate_reads (priv : FixedBytes 64) :
    (fillIdentityPrivate true).Reads priv.bytes ()
      fun e => { e with identityPrivate := some priv } := by
  have hread : Filler.Reads (do
      let priv ← .read (readFixed 64)
      .write fun e : ZiaEngine => { e with identityPrivate := some priv }) (priv.bytes ++ []) ()
      fun e => { e with identityPrivate := some priv } :=
    (Filler.reads_read (readFixed_reads priv)).bind (Filler.reads_write _) fun _ => rfl
  rw [List.append_nil] at hread
  exact (Filler.reads_write _).bind_nil hread fun _ => rfl

/-! ## Each section reads back -/

/-- The identity as `e` has it, on top of the private key the target already has. -/
def ZiaEngine.withIdentityOf (e t : ZiaEngine) : ZiaEngine :=
  { t with
    hasIdentity := e.hasIdentity
    identityPublic := e.identityPublic
    identityPrivate := if e.hasIdentity then e.identityPrivate else t.identityPrivate }

theorem fillIdentityKeys_reads {e : ZiaEngine} {bytes : Bytes} (h : identityBytes e = some bytes) :
    fillIdentityKeys.Reads bytes () e.withIdentityOf := by
  obtain ⟨priv, rfl, hpriv⟩ : ∃ priv,
      bytes = [boolByte e.hasIdentity] ++ (e.identityPublic.bytes ++ priv) ∧
      (fillIdentityPrivate e.hasIdentity).Reads priv () fun t =>
        { t with identityPrivate := if e.hasIdentity then e.identityPrivate
          else t.identityPrivate } := by
    unfold identityBytes at h
    cases hflag : e.hasIdentity with
    | true =>
      rw [hflag, if_pos rfl] at h
      obtain ⟨priv, hpriv, rfl⟩ := Option.map_eq_some_iff.mp h
      rw [hpriv]
      exact ⟨priv.bytes, rfl, fillIdentityPrivate_reads priv⟩
    | false =>
      rw [hflag, if_neg Bool.false_ne_true] at h
      obtain rfl := Option.some.inj h
      exact ⟨[], by rw [List.append_nil]; rfl, Filler.reads_pure ()⟩
  unfold fillIdentityKeys
  apply (Filler.reads_read (readByte_reads (boolByte e.hasIdentity))).bind (h := e.withIdentityOf)
  · rw [boolByte_ne_zero]
    apply (Filler.reads_write _).bind_nil (h := e.withIdentityOf)
    · apply (Filler.reads_read (readFixed_reads e.identityPublic)).bind
      · exact (Filler.reads_write _).bind_nil hpriv fun _ => rfl
      · exact fun _ => rfl
    · exact fun _ => rfl
  · exact fun _ => rfl

theorem fillSignedPrekey_reads (spk : Option ZiaSignedPrekey) :
    fillSignedPrekey.Reads (optionalBytes signedPrekeyBytes spk) ()
      fun e => { e with signedPrekey := spk } := by
  cases spk with
  | none => exact (Filler.reads_read (readByte_reads _)).bind (Filler.reads_write _) fun _ => rfl
  | some spk =>
    have hread : (fillPresentSignedPrekey true).Reads (signedPrekeyBytes spk ++ []) ()
        fun e => { e with signedPrekey := some spk } :=
      (Filler.reads_read (readSignedPrekey_reads spk)).bind (Filler.reads_write _) fun _ => rfl
    rw [List.append_nil] at hread
    exact (Filler.reads_read (readByte_reads _)).bind hread fun _ => rfl

theorem fillPqPrekey_reads (pq : Option ZiaPqPrekey) :
    (fillPqPrekey kFormatVersion).Reads (optionalBytes pqPrekeyBytes pq) ()
      fun e => { e with pqPrekey := pq.or e.pqPrekey } := by
  cases pq with
  | none => exact (Filler.reads_read (readByte_reads _)).bind (Filler.reads_pure _) fun _ => rfl
  | some pq =>
    have hread : (fillPresentPqPrekey true).Reads (pqPrekeyBytes pq ++ []) ()
        fun e => { e with pqPrekey := some pq } :=
      (Filler.reads_read (readPqPrekey_reads pq)).bind (Filler.reads_write _) fun _ => rfl
    rw [List.append_nil] at hread
    exact (Filler.reads_read (readByte_reads _)).bind hread fun _ => rfl

theorem fillOneTimePrekey_reads (otpk : ZiaOneTimePrekey) :
    fillOneTimePrekey.Reads (oneTimePrekeyBytes otpk) () fun e =>
      { e with oneTimePrekeys := e.oneTimePrekeys ++ [otpk] } := by
  have hread := (Filler.reads_read (T := ZiaEngine) (readOneTimePrekey_reads otpk)).bind
    (k := fun otpk => .write fun e => { e with oneTimePrekeys := e.oneTimePrekeys ++ [otpk] })
    (Filler.reads_write _) fun _ => rfl
  rwa [List.append_nil] at hread

theorem foldl_push (otpks : List ZiaOneTimePrekey) (e : ZiaEngine) :
    otpks.foldl (fun t x => { t with oneTimePrekeys := t.oneTimePrekeys ++ [x] }) e =
      { e with oneTimePrekeys := e.oneTimePrekeys ++ otpks } := by
  induction otpks generalizing e with
  | nil => simp
  | cons x otpks ih => simp [ih]

/-- As many prekeys as a 32-bit count can say. -/
theorem fillOneTimePrekeys_reads {otpks : List ZiaOneTimePrekey}
    (h : otpks.length < UInt32.size) :
    fillOneTimePrekeys.Reads (oneTimePrekeysBytes otpks) ()
      fun e => { e with oneTimePrekeys := otpks } := by
  have hcount : (UInt32.ofNat otpks.length).toNat = otpks.length := UInt32.toNat_ofNat_of_lt' h
  have hloop := Filler.Reads.repeated fillOneTimePrekey_reads otpks
  unfold fillOneTimePrekeys oneTimePrekeysBytes
  apply (Filler.reads_read (readCount_reads _)).bind
  · rw [hcount]
    exact (Filler.reads_write _).bind_nil hloop fun _ => rfl
  · intro e
    simp [foldl_push]

end ZiaCrypte.Storage
