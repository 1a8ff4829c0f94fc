import ZiaCrypte.Lib.LinkedMap
import ZiaCrypte.Lib.Actor
import ZiaCrypte.Inbox.Dart

/-!
# `crypto_isolate.dart`: the engine behind its isolate

`ZiaCryptoEngine._call` numbers a request and sends it to the one isolate that
holds the native engine. `_dispatch` carries requests out there one by one; it
keeps the native sessions, which the application knows by number only. The
native engine is a parameter: what it computes, and where it puts a session.

`SessionTable` is what the application is written against: each call carried out
at once, each number standing for a session of its own.
-/
namespace ZiaCrypte.App

open ZiaCrypte.Lib ZiaCrypte.Engine ZiaCrypte.Inbox

/-! ## `crypto_models.dart` -/

structure PrekeyBundle where
  identityKey : Bytes
  signedPrekey : Bytes
  signedPrekeySignature : Bytes
  oneTimePrekey : Option Bytes
  pqPrekey : Option Bytes
  pqPrekeySignature : Option Bytes
  deriving DecidableEq

structure HandshakeMaterial where
  initiatorIdentityKey : Bytes
  initiatorEphemeralKey : Bytes
  usedOneTimePrekey : Option Bytes
  pqCiphertext : Option Bytes
  deriving DecidableEq

/-! ## Requests and answers -/

/-- The requests `_dispatch` passes on to the engine as they are. -/
inductive EngineRequest where
  | generateIdentity
  | identityPublicKey
  | sign (msg : Bytes)
  | verify (pub msg sig : Bytes)
  | generatePrekeyBundle
  | rotatePrekeys
  | attachmentEncrypt (data : Bytes)
  | attachmentDecrypt (key ct : Bytes)
  | safetyNumber (lk : Bytes) (li : Text) (rk : Bytes) (ri : Text)
  | verifyFileSignature (pk : Bytes) (path : Text) (sig : Bytes)
  | backupExport (phrase : Text)
  | backupImport (phrase : Text) (data : Bytes)
  | sealedSeal (pk pt : Bytes)
  | senderKeyCreate (g : Text)
  | senderKeyProcess (g s : Text) (d : Bytes)
  | senderKeyEncrypt (g : Text) (pt : Bytes)
  | senderKeyDecrypt (g s : Text) (m : Bytes)
  | sealedOpen (s : Bytes)
  | channelSealKey (l d : Bytes)
  | channelOpenKey (l s : Bytes)
  | appLockSet (c : Text)
  | appLockVerify (c : Text)
  | appLockIsSet
  | appLockClear
  | vaultWrite (name : Text) (data : Bytes)
  | vaultRead (name : Text)
  deriving DecidableEq

inductive Request where
  | engine (request : EngineRequest)
  | sessionFromBundle (bundle : PrekeyBundle)
  | acceptHandshake (handshake : HandshakeMaterial)
  | encrypt (session : Nat) (pt : Bytes)
  | decrypt (session : Nat) (header ct : Bytes)
  | serializeSession (session : Nat)
  | deserializeSession (data : Bytes)
  | closeSession (session : Nat)
  | dispose
  deriving DecidableEq

inductive Answer where
  | null
  | bytes (b : Bytes)
  | bool (b : Bool)
  | text (s : Text)
  | bundle (bundle : PrekeyBundle)
  | sealedFile (key ciphertext : Bytes)
  | session (id : Nat)
  | initiated (sessionId : Nat) (handshake : HandshakeMaterial)
  | encrypted (header ciphertext : Bytes)
  deriving DecidableEq

/-- What a call throws: an exception of the engine, or the `!` of `sessions[id]!`. -/
inductive Failure (ε : Type) where
  | engine (e : ε)
  | noSession
  deriving DecidableEq

abbrev Outcome (ε : Type) := Except (Failure ε) Answer

/-! ## The native engine -/

abbrev Pointer := Nat

/-- The functions of `native_crypto_engine.dart`. `σ` is all the engine reads and writes
but its sessions, `V` the state of a session. -/
structure NativeCryptoEngine (ε σ V : Type) where
  call : EngineRequest → σ → Except ε Answer × σ
  sessionFromBundle : PrekeyBundle → σ → Except ε (V × HandshakeMaterial) × σ
  acceptHandshake : HandshakeMaterial → σ → Except ε V × σ
  deserializeSession : Bytes → σ → Except ε V × σ
  encrypt : V → Bytes → σ → (Except ε (Bytes × Bytes) × V) × σ
  decrypt : V → Bytes → Bytes → σ → (Except ε Bytes × V) × σ
  serializeSession : V → σ → Except ε Bytes × σ
  /-- Where a new session is put, among those that are there. -/
  malloc : List Pointer → σ → Pointer
  malloc_fresh : ∀ used s, malloc used s ∉ used

/-- The functions that are given the `ZiaEngine*`. -/
def EngineRequest.takesEngine : EngineRequest → Bool
  | .verify .. | .attachmentEncrypt _ | .attachmentDecrypt .. | .safetyNumber ..
  | .verifyFileSignature .. | .sealedSeal .. | .channelSealKey .. | .channelOpenKey .. => false
  | _ => true

/-- The functions whose status `_check` reads: a failure asks the engine for its last error. -/
def EngineRequest.checked : EngineRequest → Bool
  | .verify .. | .verifyFileSignature .. => false
  | _ => true

/-- The isolate's side. -/
structure Worker (σ V : Type) where
  engine : σ
  /-- The memory of the `ZiaEngine`, until `zia_engine_shutdown`. -/
  alive : Bool
  /-- The memory of the native sessions. -/
  heap : LinkedMap Pointer V
  sessions : LinkedMap Nat Pointer
  nextSessionId : Nat

/-- `ZiaCryptoEngine.spawn` -/
def spawn {σ V : Type} (s : σ) : Worker σ V where
  engine := s
  alive := true
  heap := .empty
  sessions := .empty
  nextSessionId := 0

section Dispatch

variable {ε σ V : Type} (E : NativeCryptoEngine ε σ V)

/-- A result whose failure is read off the engine; `none` when the engine is gone. -/
def check (r : Except ε Answer) (w : Worker σ V) : Option (Outcome ε × Worker σ V) :=
  match r with
  | .ok a => some (.ok a, w)
  | .error e => if w.alive then some (.error (.engine e), w) else none

/-- `engine.closeSession`; `none` for memory that has been given back. -/
def closeNative (p : Pointer) (heap : LinkedMap Pointer V) : Option (LinkedMap Pointer V) :=
  (heap.get? p).map fun _ => heap.erase p

def closeAll : List Pointer → LinkedMap Pointer V → Option (LinkedMap Pointer V)
  | [], heap => some heap
  | p :: ps, heap => (closeNative p heap).bind (closeAll ps)

/-- A new native session under the next number. -/
def Worker.openSession (v : V) (w : Worker σ V) : Worker σ V :=
  let p := E.malloc w.heap.keys w.engine
  { w with
    heap := w.heap.insert p v
    sessions := w.sessions.insert w.nextSessionId p
    nextSessionId := w.nextSessionId + 1 }

/-- `sessions[id]!`, then the memory behind it; `none` when it has been given back. -/
def Worker.withSession (id : Nat) (w : Worker σ V)
    (k : Pointer → V → Option (Outcome ε × Worker σ V)) : Option (Outcome ε × Worker σ V) :=
  match w.sessions.get? id with
  | none => some (.error .noSession, w)
  | some p => (w.heap.get? p).bind (k p)

/-- `_dispatch`; `none` when native memory is used that is no longer there. -/
def dispatch : Request → Worker σ V → Option (Outcome ε × Worker σ V)
  | .engine request, w =>
      if request.takesEngine && !w.alive then none
      else
        let r := E.call request w.engine
        if request.checked then check r.1 { w with engine := r.2 }
        else some (r.1.mapError .engine, { w with engine := r.2 })
  | .sessionFromBundle bundle, w =>
      if !w.alive then none
      else
        match E.sessionFromBundle bundle w.engine with
        | (.error e, s) => some (.error (.engine e), { w with engine := s })
        | (.ok (v, handshake), s) =>
            some (.ok (.initiated w.nextSessionId handshake),
              { w with engine := s }.openSession E v)
  | .acceptHandshake handshake, w =>
      if !w.alive then none
      else
        match E.acceptHandshake handshake w.engine with
        | (.error e, s) => some (.error (.engine e), { w with engine := s })
        | (.ok v, s) => some (.ok (.session w.nextSessionId), { w with engine := s }.openSession E v)
  | .encrypt session pt, w => w.withSession session fun p v =>
      let r := E.encrypt v pt w.engine
      check (r.1.1.map fun m => .encrypted m.1 m.2)
        { w with engine := r.2, heap := w.heap.insert p r.1.2 }
  | .decrypt session header ct, w => w.withSession session fun p v =>
      let r := E.decrypt v header ct w.engine
      check (r.1.1.map .bytes) { w with engine := r.2, heap := w.heap.insert p r.1.2 }
  | .serializeSession session, w => w.withSession session fun _ v =>
      let r := E.serializeSession v w.engine
      check (r.1.map .bytes) { w with engine := r.2 }
  | .deserializeSession data, w =>
      if !w.alive then none
      else
        match E.deserializeSession data w.engine with
        | (.error e, s) => some (.error (.engine e), { w with engine := s })
        | (.ok v, s) => some (.ok (.session w.nextSessionId), { w with engine := s }.openSession E v)
  | .closeSession session, w =>
      match w.sessions.get? session with
      | none => some (.ok .null, w)
      | some p => (closeNative p w.heap).map fun heap =>
          (.ok .null, { w with heap := heap, sessions := w.sessions.erase session })
  | .dispose, w =>
      if !w.alive then none
      else (closeAll (w.sessions.entries.map (·.2)) w.heap).map fun heap =>
        (.ok .null, { w with heap := heap, sessions := w.sessions.clear, alive := false })

/-- `dispose()` closes the port once its call has returned. -/
def hangsUp : Request → Outcome ε → Bool
  | .dispose, .ok _ => true
  | _, _ => false

end Dispatch

/-! ## What the application sees -/

/-- Sessions by number. -/
structure SessionTable (σ V : Type) where
  engine : σ
  disposed : Bool
  sessions : Nat → Option V
  nextSessionId : Nat

namespace SessionTable

variable {ε σ V : Type} (E : NativeCryptoEngine ε σ V)

def new (s : σ) : SessionTable σ V := ⟨s, false, fun _ => none, 0⟩

/-- The table with another session, or none, under a number. -/
def set (id : Nat) (v : Option V) (t : SessionTable σ V) : SessionTable σ V :=
  { t with sessions := fun i => if i = id then v else t.sessions i }

def add (v : V) (t : SessionTable σ V) : SessionTable σ V :=
  { t.set t.nextSessionId (some v) with nextSessionId := t.nextSessionId + 1 }

/-- A call carried out at once. -/
def call : Request → SessionTable σ V → Outcome ε × SessionTable σ V
  | .engine request, t =>
      let r := E.call request t.engine
      (r.1.mapError .engine, { t with engine := r.2 })
  | .sessionFromBundle bundle, t =>
      match E.sessionFromBundle bundle t.engine with
      | (.error e, s) => (.error (.engine e), { t with engine := s })
      | (.ok (v, handshake), s) =>
          (.ok (.initiated t.nextSessionId handshake), { t with engine := s }.add v)
  | .acceptHandshake handshake, t =>
      match E.acceptHandshake handshake t.engine with
      | (.error e, s) => (.error (.engine e), { t with engine := s })
      | (.ok v, s) => (.ok (.session t.nextSessionId), { t with engine := s }.add v)
  | .encrypt session pt, t =>
      match t.sessions session with
      | none => (.error .noSession, t)
      | some v =>
          let r := E.encrypt v pt t.engine
          ((r.1.1.map fun m => Answer.encrypted m.1 m.2).mapError .engine,
            { t with engine := r.2 }.set session (some r.1.2))
  | .decrypt session header ct, t =>
      match t.sessions session with
      | none => (.error .noSession, t)
      | some v =>
          let r := E.decrypt v header ct t.engine
          ((r.1.1.map Answer.bytes).mapError .engine,
            { t with engine := r.2 }.set session (some r.1.2))
  | .serializeSession session, t =>
      match t.sessions session with
      | none => (.error .noSession, t)
      | some v =>
          let r := E.serializeSession v t.engine
          ((r.1.map Answer.bytes).mapError .engine, { t with engine := r.2 })
  | .deserializeSession data, t =>
      match E.deserializeSession data t.engine with
      | (.error e, s) => (.error (.engine e), { t with engine := s })
      | (.ok v, s) => (.ok (.session t.nextSessionId), { t with engine := s }.add v)
  | .closeSession session, t => (.ok .null, t.set session none)
  | .dispose, t => (.ok .null, { t with sessions := fun _ => none, disposed := true })

end SessionTable

end ZiaCrypte.App
