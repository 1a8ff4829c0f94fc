import ZiaCrypte.Storage.Consumption
import ZiaCrypte.Server.PrekeyHandout

/-!
# `chat_service.dart`: the prekeys a client publishes

An engine on its device next to the tables of the server, and whatever of the
application generates a bundle, in any order. Registration uploads the signed
prekey of the bundle it generates, replenishment the one-time prekeys of its
bundles only.
-/
namespace ZiaCrypte.Storage

open ZiaCrypte.Lib ZiaCrypte.Engine ZiaCrypte.Server

/-- Where `_replenishPrekeys` stands. -/
structure Replenishing where
  /-- What it has generated so far. -/
  keys : List PublicKey
  /-- How many bundles it still generates. -/
  left : Nat
  /-- One of its keys is not in the identity file. -/
  unsaved : Bool

structure PrekeyClient where
  host : Host
  tables : PrekeyTables
  /-- The device of `SavedAccount`, once there is one. -/
  deviceId : Option Uuid
  replenishing : Option Replenishing
  /-- One of the uploaded keys is not in the identity file. -/
  unsaved : Bool

structure RegisterEnv where
  read : ReadUse
  save : WriteUse
  seed : Key
  bundle : BundleEnv
  deviceId : Uuid
  userId : Uuid
  signedPrekeyId : Uuid
  oneTimePrekeyId : Uuid
  now : Nat
  /-- The server gets the request. -/
  arrived : Bool

inductive ClientCall where
  /-- `loginAndConnect` and `reprendreSession`, on the folder of the account. -/
  | openGateway (use : ReadUse) (save : WriteUse) (seed : Key)
  /-- `registerAndConnect` and `addDeviceAndConnect`. -/
  | registerAndConnect (env : RegisterEnv)
  | generatePrekeyBundle (env : BundleEnv)
  /-- `_replenishPrekeys` up to its loop, one round of the loop, and the upload. -/
  | countPrekeys
  | replenishOne (env : BundleEnv)
  | uploadPrekeys (ids : Nat → Uuid) (now : Nat) (arrived : Bool)
  /-- A peer gets the bundle of the device. -/
  | serve (now : Nat)
  | accept (save : WriteUse) (handshake : ZiaHandshakeMaterial)

variable (S : SecretStream) (X : EnginePrimitives)

/-! ## Bundles -/

/-- Whether `zia_prekey_bundle_generate` succeeds and its last save too. -/
def bundleSaved (env : BundleEnv) (h : Host) : Bool :=
  h.engine.hasIdentity &&
    (ensurePrekeys S X env.rotate h).any fun r =>
      r.1.isNone && saveSucceeds S env.save
        { r.2.engine with
          oneTimePrekeys := r.2.engine.oneTimePrekeys ++ [newOneTimePrekey X env.oneTime] }
        r.2.device

def deviceRow (env : RegisterEnv) (bundle : ZiaPrekeyBundle) : DeviceKeys where
  id := env.deviceId
  userId := env.userId
  isActive := true
  identityPublicKey := bundle.identityKey.bytes
  createdAt := env.now

def signedRow (env : RegisterEnv) (bundle : ZiaPrekeyBundle) : SignedPrekey where
  id := env.signedPrekeyId
  deviceId := env.deviceId
  publicKey := bundle.signedPrekey.bytes
  signature := bundle.signedPrekeySignature
  isCurrent := true

def oneTimeRow (deviceId id : Uuid) (now : Nat) (key : PublicKey) : OneTimePrekey where
  id := id
  deviceId := deviceId
  publicKey := key.bytes
  consumedAt := none
  createdAt := now

namespace PrekeyClient

/-- `_openGateway`: `identityPublicKey` throws `ZiaNotInitializedException` when nothing
was loaded. -/
def openGateway (use : ReadUse) (save : WriteUse) (seed : Key) (d : Device) : Option Host :=
  let h := ziaEngineInit S use d
  match ziaIdentityGetPublicKey h with
  | .ok _ => some h
  | .error _ => (ziaIdentityGenerate S X save seed h).map (·.2)

/-- A folder with a name drawn at random: there is nothing in it. -/
def freshFolder (d : Device) : Device := { d with identityFile := none, vault := .empty }

/-- What a save writes is the whole engine. -/
def afterSave (σ : PrekeyClient) (ok : Bool) (h : Host) : PrekeyClient :=
  { σ with
    host := h
    replenishing := σ.replenishing.map fun r => { r with unsaved := r.unsaved && !ok }
    unsaved := σ.unsaved && !ok }

/-- The server's part of a registration. -/
def createDevice (env : RegisterEnv) (bundle : ZiaPrekeyBundle) (t : PrekeyTables) :
    Option PrekeyTables :=
  if env.arrived then
    t.createDevice (deviceRow env bundle) (signedRow env bundle)
      (bundle.oneTimePrekey.toList.map (oneTimeRow env.deviceId env.oneTimePrekeyId env.now))
  else none

def registerAndConnect (env : RegisterEnv) (σ : PrekeyClient) : Option PrekeyClient := do
  let h₀ ← openGateway S X env.read env.save env.seed (freshFolder σ.host.device)
  let r ← ziaPrekeyBundleGenerate S X env.bundle h₀
  match r with
  | (.error _, h) => pure { σ with host := h }
  | (.ok bundle, h) =>
      match createDevice env bundle σ.tables with
      | none => pure { σ with host := h }
      | some tables => pure {
          host := h
          tables := tables
          deviceId := some env.deviceId
          replenishing := none
          unsaved := !bundleSaved S X env.bundle h₀ }

/-- Below ten the pool is filled up to twenty. -/
def countPrekeys (σ : PrekeyClient) : Option PrekeyClient := do
  let id ← σ.deviceId
  let remaining := σ.tables.oneTimePrekeysRemaining id
  if 10 ≤ remaining then pure σ
  else pure { σ with replenishing := some ⟨[], 20 - remaining, false⟩ }

/-- A call that throws ends the replenishment. -/
def replenishOne (env : BundleEnv) (σ : PrekeyClient) : Option PrekeyClient := do
  let r ← σ.replenishing
  if r.left = 0 then none
  else
    let called ← ziaPrekeyBundleGenerate S X env σ.host
    match called with
    | (.error _, h) => pure { σ with host := h, replenishing := none }
    | (.ok bundle, h) =>
        let ok := bundleSaved S X env σ.host
        pure { σ.afterSave ok h with
          replenishing := some ⟨r.keys ++ bundle.oneTimePrekey.toList, r.left - 1, !ok⟩ }

/-- The last statement of `_replenishPrekeys`; it gives no signed prekey. -/
def uploadPrekeys (ids : Nat → Uuid) (now : Nat) (arrived : Bool) (σ : PrekeyClient) :
    Option PrekeyClient := do
  let id ← σ.deviceId
  let r ← σ.replenishing
  if r.left ≠ 0 then none
  else if arrived then
    pure { σ with
      replenishing := none
      unsaved := σ.unsaved || r.unsaved
      tables := σ.tables.uploadPrekeys
        ⟨id, none, r.keys.mapIdx fun i key => oneTimeRow id (ids i) now key⟩ }
  else pure { σ with replenishing := none }

/-- The one-time prekey a peer gets is marked. -/
def serve (now : Nat) (σ : PrekeyClient) : Option PrekeyClient := do
  let id ← σ.deviceId
  match σ.tables.nextOneTime id with
  | none => pure σ
  | some k => pure { σ with tables := σ.tables.consume k.id now }

def acceptHandshake (save : WriteUse) (handshake : ZiaHandshakeMaterial) (σ : PrekeyClient) :
    Option PrekeyClient := do
  let called ← ziaSessionAcceptHandshake S X save handshake σ.host
  match called with
  | (.error _, h) => pure { σ with host := h }
  | (.ok _, h) => pure (σ.afterSave (handshake.usedOneTimePrekey.isSome &&
      saveSucceeds S save (consumedEngine handshake σ.host.engine) σ.host.device) h)

/-- A client that has an account registers no other. -/
def step : ClientCall → PrekeyClient → Option PrekeyClient
  | .openGateway use save seed, σ =>
      (openGateway S X use save seed σ.host.device).map fun h =>
        { σ with host := h, replenishing := none }
  | .registerAndConnect env, σ => if σ.deviceId.isSome then none else σ.registerAndConnect S X env
  | .generatePrekeyBundle env, σ =>
      (ziaPrekeyBundleGenerate S X env σ.host).map fun r =>
        σ.afterSave (bundleSaved S X env σ.host) r.2
  | .countPrekeys, σ => σ.countPrekeys
  | .replenishOne env, σ => σ.replenishOne S X env
  | .uploadPrekeys ids now arrived, σ => σ.uploadPrekeys ids now arrived
  | .serve now, σ => σ.serve now
  | .accept save handshake, σ => σ.acceptHandshake S X save handshake

/-- The bundle the server would answer with, as a peer reads it. -/
def receivedBundle (b : HandedBundle) : ZiaPrekeyBundle where
  identityKey := FixedBytes.copy 32 b.identityKey 0
  signedPrekey := FixedBytes.copy 32 b.signedPrekey 0
  signedPrekeySignature := b.signedPrekeySignature
  oneTimePrekey := b.oneTimePrekey.map fun k => FixedBytes.copy 32 k.publicKey 0
  pqPrekey := none

def currentBundle (σ : PrekeyClient) : Option ZiaPrekeyBundle := do
  let id ← σ.deviceId
  let d ← σ.tables.devices.find? (·.id == id)
  let s ← σ.tables.currentSigned id
  pure (receivedBundle (handedBundle d s (σ.tables.nextOneTime id)))

/-- A one-time prekey that is not served yet: the server has it, or is about to. -/
def Unserved (σ : PrekeyClient) (key : PublicKey) : Prop :=
  (∃ id, σ.deviceId = some id ∧ ∃ k ∈ σ.tables.oneTimePrekeys,
    k.deviceId = id ∧ k.consumedAt = none ∧ k.publicKey = key.bytes) ∨
  ∃ r, σ.replenishing = some r ∧ key ∈ r.keys

end PrekeyClient

/-- Once there is a device: a start reads the identity file, which has every key
that was uploaded; bundles are generated on an engine that has both prekeys; no
handshake uses a one-time prekey before the server has served it. -/
def ClientCall.Safe : ClientCall → PrekeyClient → Prop
  | .openGateway use _ _, σ => σ.deviceId.isSome = true →
      σ.unsaved = false ∧ ReadsFile S use σ.host.device ∧
        σ.host.engine.oneTimePrekeys.length < UInt32.size
  | .generatePrekeyBundle _, σ | .replenishOne _, σ => σ.deviceId.isSome = true →
      σ.host.engine.signedPrekey.isSome = true ∧ σ.host.engine.pqPrekey.isSome = true
  | .accept _ handshake, σ => ∀ key, handshake.usedOneTimePrekey = some key → ¬ σ.Unserved key
  | _, _ => True

end ZiaCrypte.Storage
