import ZiaCrypte.Server.Routes
import ZiaCrypte.Lib.Slots
import Mathlib.Data.List.Nodup

/-!
# `POST /auth/refresh` and the revocation of a device, statement by statement

A refresh reads the session of its token, revokes it and creates the next one, in three
statements. The transaction of a revocation deactivates the device and revokes the
sessions it sees; what it writes is locked, and seen by others when it commits.
-/
namespace ZiaCrypte.Server

open ZiaCrypte.Lib

/-- A refresh token whose signature is good. -/
structure RefreshToken where
  sub : Uuid
  did : Uuid
  jti : Uuid
  exp : Nat
  deriving DecidableEq

structure AuthSession (Digest : Type) where
  id : Uuid
  userId : Uuid
  deviceId : Uuid
  refreshTokenHash : Digest
  expiresAt : Nat
  revokedAt : Option Nat
  deriving DecidableEq

/-- The statement a refresh is at. -/
inductive RefreshStage where
  | find
  | rotate (sessionId : Uuid)
  | issue
  | role (pair : RefreshToken)
  | answered (pair : RefreshToken) (role : String)
  | refused (e : HttpError)
  deriving DecidableEq

/-- The session of the token was revoked for the new one. -/
def RefreshStage.hasRotated : RefreshStage → Bool
  | .issue => true
  | .role _ => true
  | .answered _ _ => true
  | _ => false

/-- The new pair is in force. -/
def RefreshStage.hasPair : RefreshStage → Bool
  | .role _ => true
  | .answered _ _ => true
  | _ => false

structure RefreshRequest where
  token : RefreshToken
  stage : RefreshStage
  deriving DecidableEq

/-- The statement a revocation is at; the transaction ends with `committed`. -/
inductive RevokeStage where
  | found
  | deactivated
  | sessions (ids : List Uuid) (now : Nat)
  | committed
  deriving DecidableEq

structure DeviceRevocation where
  deviceId : Uuid
  stage : RevokeStage
  deriving DecidableEq

/-- The sessions an open transaction has revoked. -/
def DeviceRevocation.seen? (v : DeviceRevocation) : Option (List Uuid) :=
  match v.stage with
  | .sessions ids _ => some ids
  | _ => none

/-- The tables, and the requests in the order they began. -/
structure AuthTables (Digest : Type) where
  devices : List Device
  roles : List (Uuid × String)
  sessions : List (AuthSession Digest)
  requests : List RefreshRequest
  revocations : List DeviceRevocation

inductive AuthStatement where
  | addDevice (userId deviceId : Uuid)
  /-- The last statement of a registration or a login. -/
  | createSession (sub did id jti now : Nat)
  | refresh (token : RefreshToken) (now : Nat)
  | findSession (request now : Nat)
  | rotate (request now : Nat)
  | issue (request id jti now : Nat)
  | findRole (request : Nat)
  | findDevice (userId deviceId : Uuid)
  | deactivate (revocation : Nat)
  | revokeSessions (revocation now : Nat)
  | commit (revocation : Nat)

namespace AuthTables

variable {Digest : Type}

def start (roles : List (Uuid × String)) : AuthTables Digest := ⟨[], roles, [], [], []⟩

section

variable (hashToken : RefreshToken → Digest) (ttl : Nat)

def newSession (sub did id jti now : Nat) : AuthSession Digest where
  id := id
  userId := sub
  deviceId := did
  refreshTokenHash := hashToken ⟨sub, did, jti, now + ttl⟩
  expiresAt := now + ttl
  revokedAt := none

/-- The session a refresh token is good for. -/
def selectSession [DecidableEq Digest] (s : AuthTables Digest) (token : RefreshToken) (now : Nat) :
    Option (AuthSession Digest) :=
  s.sessions.find? fun x => x.userId == token.sub && x.deviceId == token.did &&
    x.refreshTokenHash == hashToken token && x.revokedAt == none && decide (now < x.expiresAt)

/-- A row a transaction has written and not yet committed. -/
def locked (s : AuthTables Digest) (sessionId : Uuid) : Bool :=
  s.revocations.any fun v => match v.stage with
    | .sessions ids _ => ids.contains sessionId
    | _ => false

def deviceLocked (s : AuthTables Digest) (deviceId : Uuid) : Bool :=
  s.revocations.any fun v => v.deviceId == deviceId && match v.stage with
    | .deactivated => true
    | .sessions _ _ => true
    | _ => false

def revoke (sessions : List (AuthSession Digest)) (ids : List Uuid) (now : Nat) :
    List (AuthSession Digest) :=
  sessions.map fun x => if x.id ∈ ids then { x with revokedAt := some now } else x

def setStage (s : AuthTables Digest) (i : Nat) (r : RefreshRequest) (stage : RefreshStage) :
    AuthTables Digest :=
  { s with requests := s.requests.set i { r with stage := stage } }

/-- What waits for a lock, or comes out of turn, is no step. -/
def step [DecidableEq Digest] : AuthStatement → AuthTables Digest → Option (AuthTables Digest)
  | .addDevice userId deviceId, s =>
      if (s.devices.find? (·.id == deviceId)).isSome then none
      else some { s with devices := s.devices ++ [⟨deviceId, userId, true⟩] }
  | .createSession sub did id jti now, s =>
      some { s with sessions := s.sessions ++ [newSession hashToken ttl sub did id jti now] }
  | .refresh token now, s => some { s with
      requests := s.requests ++ [⟨token, if token.exp ≤ now then
        .refused ⟨401, "refresh token invalide ou expiré"⟩ else .find⟩] }
  | .findSession i now, s => do
      let r ← s.requests[i]?
      if r.stage = .find then
        some (s.setStage i r (match s.selectSession hashToken r.token now with
          | none => .refused ⟨401, "session révoquée ou expirée"⟩
          | some x => .rotate x.id))
      else none
  | .rotate i now, s => do
      let r ← s.requests[i]?
      match r.stage with
      | .rotate sessionId =>
          if s.locked sessionId then none
          else some ({ s with sessions := revoke s.sessions [sessionId] now }.setStage i r .issue)
      | _ => none
  | .issue i id jti now, s => do
      let r ← s.requests[i]?
      if r.stage = .issue then
        some ({ s with sessions := s.sessions ++
          [newSession hashToken ttl r.token.sub r.token.did id jti now] }.setStage i r
            (.role ⟨r.token.sub, r.token.did, jti, now + ttl⟩))
      else none
  | .findRole i, s => do
      let r ← s.requests[i]?
      match r.stage with
      | .role pair => some (s.setStage i r (.answered pair ((s.roles.lookup r.token.sub).getD "user")))
      | _ => none
  | .findDevice userId deviceId, s =>
      match s.devices.find? (·.id == deviceId) with
      | none => some s
      | some device =>
          if device.userId ≠ userId ∨ device.isActive = false then some s
          else some { s with revocations := s.revocations ++ [⟨device.id, .found⟩] }
  | .deactivate i, s => do
      let v ← s.revocations[i]?
      if v.stage = .found ∧ s.deviceLocked v.deviceId = false then
        some { s with revocations := s.revocations.set i { v with stage := .deactivated } }
      else none
  | .revokeSessions i now, s => do
      let v ← s.revocations[i]?
      if v.stage = .deactivated then
        some { s with revocations := s.revocations.set i { v with
          stage := .sessions ((s.sessions.filter fun x =>
            x.deviceId == v.deviceId && x.revokedAt == none).map (·.id)) now } }
      else none
  | .commit i, s => do
      let v ← s.revocations[i]?
      match v.stage with
      | .sessions ids now => some { s with
          devices := s.devices.map fun d =>
            if d.id = v.deviceId then { d with isActive := false } else d
          sessions := revoke s.sessions ids now
          revocations := s.revocations.set i { v with stage := .committed } }
      | _ => none

/-! ## What is to hold, and when it does -/

/-- The tokens a pair was issued for, one entry for each pair. -/
def exchanged (s : AuthTables Digest) : List RefreshToken :=
  s.requests.flatMap fun r => if r.stage.hasPair then [r.token] else []

/-- When a request issues a pair, no other one has rotated its token, and the device of the
token was not revoked. -/
def InTime : AuthStatement → AuthTables Digest → Prop
  | .issue i _ _ _, s => ∀ r ∈ s.requests[i]?, r.stage = .issue →
      (∀ r' ∈ s.requests.eraseIdx i, r'.token = r.token → r'.stage.hasRotated = false) ∧
        ∀ d ∈ s.devices, d.id = r.token.did → d.isActive = true
  | _, _ => True

/-- A session that is rotated is still in force; a device is revoked with no refresh between
its rotation and its new session, and with no session the transaction has not seen; and a
login is on an active device. -/
def NoRace : AuthStatement → AuthTables Digest → Prop
  | .rotate i _, s => ∀ r ∈ s.requests[i]?, ∀ x ∈ s.sessions, r.stage = .rotate x.id →
      x.revokedAt = none
  | .commit i, s => ∀ v ∈ s.revocations[i]?, ∀ ids ∈ v.seen?,
      (∀ r ∈ s.requests, r.token.did = v.deviceId → r.stage ≠ .issue) ∧
        ∀ x ∈ s.sessions, x.deviceId = v.deviceId → x.revokedAt = none → x.id ∈ ids
  | .createSession _ did _ _ _, s => ∀ d ∈ s.devices, d.id = did → d.isActive = true
  | _, _ => True

/-- The keys that are drawn for a new session are new. -/
def FreshKeys : AuthStatement → AuthTables Digest → Prop
  | .createSession sub did id jti now, s => ∀ x ∈ s.sessions,
      x.id ≠ id ∧ x.refreshTokenHash ≠ hashToken ⟨sub, did, jti, now + ttl⟩
  | .issue i id jti now, s => ∀ r ∈ s.requests[i]?, ∀ x ∈ s.sessions,
      x.id ≠ id ∧ x.refreshTokenHash ≠ hashToken ⟨r.token.sub, r.token.did, jti, now + ttl⟩
  | _, _ => True

/-! ## What every statement keeps -/

/-- The tokens whose sessions were rotated, one entry for each time. -/
def rotatedTokens (s : AuthTables Digest) : List RefreshToken :=
  s.requests.flatMap fun r => if r.stage.hasRotated then [r.token] else []

structure Kept (s : AuthTables Digest) : Prop where
  ids : (s.sessions.map (·.id)).Nodup
  hashes : (s.sessions.map (·.refreshTokenHash)).Nodup
  /-- A device that was revoked has no session in force, and no refresh about to make one. -/
  inactive : ∀ d ∈ s.devices, d.isActive = false → ∀ x ∈ s.sessions, x.deviceId = d.id →
    x.revokedAt ≠ none
  idle : ∀ d ∈ s.devices, d.isActive = false → ∀ r ∈ s.requests, r.token.did = d.id →
    r.stage ≠ .issue
  chosen : ∀ r ∈ s.requests, ∀ id, r.stage = .rotate id → ∃ x ∈ s.sessions, x.id = id ∧
    x.refreshTokenHash = hashToken r.token ∧ x.deviceId = r.token.did
  rotated : ∀ r ∈ s.requests, r.stage.hasRotated = true → ∃ x ∈ s.sessions,
    x.refreshTokenHash = hashToken r.token ∧ x.revokedAt ≠ none
  once : s.rotatedTokens.Nodup

variable {hashToken} {ttl} {s t : AuthTables Digest} {now : Nat}

theorem kept_start (roles : List (Uuid × String)) :
    Kept hashToken (start roles : AuthTables Digest) where
  ids := List.nodup_nil
  hashes := List.nodup_nil
  inactive d hd := by cases hd
  idle d hd := by cases hd
  chosen r hr := by cases hr
  rotated r hr := by cases hr
  once := List.nodup_nil

/-- Only the date of a revocation is written. -/
theorem revoke_map {β : Type} (f : AuthSession Digest → β)
    (hf : ∀ x revokedAt, f { x with revokedAt := revokedAt } = f x)
    (sessions : List (AuthSession Digest)) (ids : List Uuid) (now : Nat) :
    (revoke sessions ids now).map f = sessions.map f := by
  unfold revoke
  rw [List.map_map]
  refine List.map_congr_left fun x _ => ?_
  dsimp only [Function.comp_apply]
  split
  · exact hf x (some now)
  · rfl

/-- What became of a row. -/
theorem mem_revoke {sessions : List (AuthSession Digest)} {x : AuthSession Digest}
    (hx : x ∈ sessions) (ids : List Uuid) (now : Nat) : ∃ x' ∈ revoke sessions ids now, x'.id = x.id ∧
      x'.refreshTokenHash = x.refreshTokenHash ∧ x'.deviceId = x.deviceId ∧
      (x.revokedAt ≠ none ∨ x.id ∈ ids → x'.revokedAt ≠ none) := by
  refine ⟨_, List.mem_map.mpr ⟨x, hx, rfl⟩, ?_⟩
  split
  · exact ⟨rfl, rfl, rfl, fun _ => by simp⟩
  · rename_i hid
    refine ⟨rfl, rfl, rfl, ?_⟩
    rintro (hrevoked | hmem)
    · exact hrevoked
    · exact absurd hmem hid

/-- Where a row comes from. -/
theorem of_mem_revoke {sessions : List (AuthSession Digest)} {x : AuthSession Digest}
    {ids : List Uuid} (hx : x ∈ revoke sessions ids now) : ∃ x' ∈ sessions, x'.id = x.id ∧
      x'.deviceId = x.deviceId ∧ (x'.revokedAt ≠ none ∨ x'.id ∈ ids → x.revokedAt ≠ none) := by
  obtain ⟨x', hx', rfl⟩ := List.mem_map.mp hx
  refine ⟨x', hx', ?_⟩
  split
  · exact ⟨rfl, rfl, fun _ => by simp⟩
  · rename_i hid
    refine ⟨rfl, rfl, ?_⟩
    rintro (hrevoked | hmem)
    · exact hrevoked
    · exact absurd hmem hid

/-- Two rows of one hash are one row. -/
theorem Kept.unique (h : Kept hashToken s) {x x' : AuthSession Digest} (hx : x ∈ s.sessions)
    (hx' : x' ∈ s.sessions) (hhash : x.refreshTokenHash = x'.refreshTokenHash) : x = x' :=
  List.inj_on_of_nodup_map h.hashes hx hx' hhash

theorem Kept.device (h : Kept hashToken s) (device : Device) (hactive : device.isActive = true) :
    Kept hashToken { s with devices := s.devices ++ [device] } := by
  have hold : ∀ d ∈ s.devices ++ [device], d.isActive = false → d ∈ s.devices := by
    intro d hd hinactive
    rcases mem_concat_cases hd with hd | hnew
    · exact hd
    · rw [hnew, hactive] at hinactive
      cases hinactive
  exact ⟨h.ids, h.hashes, fun d hd hinactive => h.inactive d (hold d hd hinactive) hinactive,
    fun d hd hinactive => h.idle d (hold d hd hinactive) hinactive, h.chosen, h.rotated, h.once⟩

/-- A new session of an active device. -/
theorem Kept.session (h : Kept hashToken s) (x : AuthSession Digest)
    (hfresh : ∀ x' ∈ s.sessions, x'.id ≠ x.id ∧ x'.refreshTokenHash ≠ x.refreshTokenHash)
    (hactive : ∀ d ∈ s.devices, d.id = x.deviceId → d.isActive = true) :
    Kept hashToken { s with sessions := s.sessions ++ [x] } := by
  refine ⟨?_, ?_, fun d hd hinactive x' hx' hdevice => ?_, h.idle, fun r hr id hstage => ?_,
    fun r hr hrotated => ?_, h.once⟩
  · exact nodup_map_concat h.ids fun x' hx' => (hfresh x' hx').1
  · exact nodup_map_concat h.hashes fun x' hx' => (hfresh x' hx').2
  · rcases mem_concat_cases hx' with hold | hnew
    · exact h.inactive d hd hinactive x' hold hdevice
    · obtain rfl := hnew
      rw [hactive d hd hdevice.symm] at hinactive
      cases hinactive
  · obtain ⟨x', hx', hrest⟩ := h.chosen r hr id hstage
    exact ⟨x', List.mem_append_left _ hx', hrest⟩
  · obtain ⟨x', hx', hrest⟩ := h.rotated r hr hrotated
    exact ⟨x', List.mem_append_left _ hx', hrest⟩

/-- Revoking more sessions does no harm. -/
theorem Kept.moreRevoked (h : Kept hashToken s) (ids : List Uuid) (now : Nat) :
    Kept hashToken { s with sessions := revoke s.sessions ids now } := by
  refine ⟨?_, ?_, fun d hd hinactive x hx hsame => ?_, h.idle, fun r hr id hstage => ?_,
    fun r hr hrotated => ?_, h.once⟩
  · rw [revoke_map _ fun _ _ => rfl]
    exact h.ids
  · rw [revoke_map _ fun _ _ => rfl]
    exact h.hashes
  · obtain ⟨y, hy, -, hydevice, hrevoked⟩ := of_mem_revoke hx
    exact hrevoked (.inl (h.inactive d hd hinactive y hy (hydevice.trans hsame)))
  · obtain ⟨y, hy, hyid, hyhash, hydevice⟩ := h.chosen r hr id hstage
    obtain ⟨y', hy', hid, hh, hd, -⟩ := mem_revoke hy ids now
    exact ⟨y', hy', hid.trans hyid, hh.trans hyhash, hd.trans hydevice⟩
  · obtain ⟨y, hy, hyhash, hyrevoked⟩ := h.rotated r hr hrotated
    obtain ⟨y', hy', -, hh, -, hrevoked⟩ := mem_revoke hy ids now
    exact ⟨y', hy', hh.trans hyhash, hrevoked (.inl hyrevoked)⟩

/-! ## Statements of a refresh -/

variable {r : RefreshRequest} {i : Nat} {stage : RefreshStage}

/-- A request has begun. -/
theorem Kept.request (h : Kept hashToken s) (r : RefreshRequest) (hissue : r.stage ≠ .issue)
    (hrotate : ∀ id, r.stage ≠ .rotate id) (hrotated : r.stage.hasRotated = false) :
    Kept hashToken { s with requests := s.requests ++ [r] } := by
  refine ⟨h.ids, h.hashes, h.inactive, fun d hd hinactive r' hr' hsame => ?_,
    fun r' hr' id hstage => ?_, fun r' hr' hstage => ?_, ?_⟩
  · rcases mem_concat_cases hr' with hold | hnew
    · exact h.idle d hd hinactive r' hold hsame
    · rw [hnew]
      exact hissue
  · rcases mem_concat_cases hr' with hold | hnew
    · exact h.chosen r' hold id hstage
    · rw [hnew] at hstage
      exact absurd hstage (hrotate id)
  · rcases mem_concat_cases hr' with hold | hnew
    · exact h.rotated r' hold hstage
    · rw [hnew, hrotated] at hstage
      cases hstage
  · have hsame : rotatedTokens { s with requests := s.requests ++ [r] } = s.rotatedTokens := by
      unfold rotatedTokens
      rw [List.flatMap_append]
      simp [hrotated]
    rw [hsame]
    exact h.once

theorem selectSession_mem [DecidableEq Digest] {token : RefreshToken} {x : AuthSession Digest}
    (h : s.selectSession hashToken token now = some x) :
    x ∈ s.sessions ∧ x.refreshTokenHash = hashToken token ∧ x.deviceId = token.did := by
  have hfound := List.find?_some h
  simp only [Bool.and_eq_true, beq_iff_eq] at hfound
  exact ⟨List.mem_of_find?_eq_some h, hfound.1.1.2, hfound.1.1.1.2⟩

/-- A request goes on without rotating anything. -/
theorem Kept.setStage (h : Kept hashToken s) (hr : s.requests[i]? = some r)
    (hissue : stage ≠ .issue) (hrotated : stage.hasRotated = r.stage.hasRotated)
    (hchosen : ∀ id, stage = .rotate id → ∃ x ∈ s.sessions, x.id = id ∧
      x.refreshTokenHash = hashToken r.token ∧ x.deviceId = r.token.did) :
    Kept hashToken (s.setStage i r stage) := by
  refine ⟨h.ids, h.hashes, h.inactive, fun d hd hinactive r' hr' hdevice => ?_,
    fun r' hr' id hstage => ?_, fun r' hr' hstage => ?_, ?_⟩
  · rcases mem_set_cases hr' with hold | rfl
    · exact h.idle d hd hinactive r' hold hdevice
    · exact hissue
  · rcases mem_set_cases hr' with hold | rfl
    · exact h.chosen r' hold id hstage
    · exact hchosen id hstage
  · rcases mem_set_cases hr' with hold | rfl
    · exact h.rotated r' hold hstage
    · exact h.rotated r (List.mem_of_getElem? hr) (hrotated.symm.trans hstage)
  · refine (flatMap_set_same hr ?_).nodup_iff.mpr h.once
    dsimp only
    rw [hrotated]

/-- A session in force is rotated, which no other request has done. -/
theorem Kept.rotate (h : Kept hashToken s) (hr : s.requests[i]? = some r) {id : Uuid}
    (hstage : r.stage = .rotate id) (hrace : NoRace (.rotate i now) s) :
    Kept hashToken ({ s with sessions := revoke s.sessions [id] now }.setStage i r .issue) := by
  obtain ⟨x, hx, rfl, hhash, hdevice⟩ := h.chosen r (List.mem_of_getElem? hr) id hstage
  have hforce : x.revokedAt = none := hrace r hr x hx hstage
  have hnotyet : r.token ∉ s.rotatedTokens := by
    intro hmem
    obtain ⟨r', hr', hin⟩ := List.mem_flatMap.mp hmem
    split at hin
    · rename_i hrotated
      obtain ⟨x', hx', hhash', hrevoked⟩ := h.rotated r' hr' hrotated
      rw [← List.mem_singleton.mp hin, ← hhash] at hhash'
      rw [h.unique hx' hx hhash'] at hrevoked
      exact hrevoked hforce
    · cases hin
  have h' := h.moreRevoked [x.id] now
  refine ⟨h'.ids, h'.hashes, h'.inactive, fun d hd hinactive r' hr' hsame => ?_,
    fun r' hr' id' hstage' => ?_, fun r' hr' hrotated => ?_, ?_⟩
  · rcases mem_set_cases hr' with hold | rfl
    · exact h.idle d hd hinactive r' hold hsame
    · exact absurd hforce (h.inactive d hd hinactive x hx (hdevice.trans hsame))
  · rcases mem_set_cases hr' with hold | rfl
    · exact h'.chosen r' hold id' hstage'
    · cases hstage'
  · rcases mem_set_cases hr' with hold | rfl
    · exact h'.rotated r' hold hrotated
    · obtain ⟨y', hy', -, hh, -, hrevoked⟩ := mem_revoke hx [x.id] now
      exact ⟨y', hy', hh.trans hhash, hrevoked (.inr List.mem_cons_self)⟩
  · have hself : (if RefreshStage.issue.hasRotated then [r.token] else []).Perm
        ([r.token] ++ if r.stage.hasRotated then [r.token] else []) := by
      simp [RefreshStage.hasRotated, hstage]
    have hperm := flatMap_set_perm (b := { r with stage := .issue })
      (f := fun r => if r.stage.hasRotated then [r.token] else []) hr hself
    exact hperm.nodup_iff.mpr (List.nodup_cons.mpr ⟨hnotyet, h.once⟩)

/-- The device of a request that has rotated its session was not revoked since. -/
theorem Kept.active (h : Kept hashToken s) (hr : s.requests[i]? = some r) (hstage : r.stage = .issue) :
    ∀ d ∈ s.devices, d.id = r.token.did → d.isActive = true := by
  intro d hd hid
  rw [← Bool.not_eq_false]
  intro hinactive
  exact h.idle d hd hinactive r (List.mem_of_getElem? hr) hid.symm hstage

theorem Kept.issue (h : Kept hashToken s) (hr : s.requests[i]? = some r) (hstage : r.stage = .issue)
    {id jti : Nat} (hfresh : FreshKeys hashToken ttl (.issue i id jti now) s) :
    Kept hashToken ({ s with sessions := s.sessions ++
      [newSession hashToken ttl r.token.sub r.token.did id jti now] }.setStage i r
        (.role ⟨r.token.sub, r.token.did, jti, now + ttl⟩)) := by
  have hsession := h.session (newSession hashToken ttl r.token.sub r.token.did id jti now)
    (hfresh r hr) (h.active hr hstage)
  refine hsession.setStage hr (by simp) ?_ (by simp)
  rw [hstage]
  rfl

/-! ## The revocation of a device -/

/-- The transaction has seen every session in force, and no refresh is under way. -/
theorem Kept.commit (h : Kept hashToken s) {v : DeviceRevocation} {ids : List Uuid}
    (revocations : List DeviceRevocation)
    (hidle : ∀ r ∈ s.requests, r.token.did = v.deviceId → r.stage ≠ .issue)
    (hseen : ∀ x ∈ s.sessions, x.deviceId = v.deviceId → x.revokedAt = none → x.id ∈ ids) :
    Kept hashToken { s with
      devices := s.devices.map fun d => if d.id = v.deviceId then { d with isActive := false } else d
      sessions := revoke s.sessions ids now
      revocations := revocations } := by
  have hdevices : ∀ d ∈ s.devices.map (fun d =>
      if d.id = v.deviceId then { d with isActive := false } else d), d.isActive = false →
      d.id = v.deviceId ∨ d ∈ s.devices := by
    intro d hd _
    obtain ⟨d', hd', rfl⟩ := List.mem_map.mp hd
    split
    · rename_i hid
      exact .inl hid
    · exact .inr hd'
  have h' := h.moreRevoked ids now
  refine ⟨h'.ids, h'.hashes, fun d hd hinactive x hx hsame => ?_,
    fun d hd hinactive r hr hsame => ?_, h'.chosen, h'.rotated, h.once⟩
  · rcases hdevices d hd hinactive with hid | hold
    · obtain ⟨y, hy, -, hydevice, hrevoked⟩ := of_mem_revoke hx
      by_cases hforce : y.revokedAt = none
      · exact hrevoked (.inr (hseen y hy (hydevice.trans (hsame.trans hid)) hforce))
      · exact hrevoked (.inl hforce)
    · exact h'.inactive d hold hinactive x hx hsame
  · rcases hdevices d hd hinactive with hid | hold
    · exact hidle r hr (hsame.trans hid)
    · exact h.idle d hold hinactive r hr hsame

/-- Only the locks of a transaction are different. -/
theorem Kept.revocations (h : Kept hashToken s) (revocations : List DeviceRevocation) :
    Kept hashToken { s with revocations := revocations } :=
  ⟨h.ids, h.hashes, h.inactive, h.idle, h.chosen, h.rotated, h.once⟩

/-! ## Every interleaving -/

theorem kept_step [DecidableEq Digest] (h : Kept hashToken s) {a : AuthStatement}
    (hfresh : FreshKeys hashToken ttl a s) (hrace : NoRace a s)
    (ht : step hashToken ttl a s = some t) : Kept hashToken t := by
  cases a with
  | addDevice userId deviceId =>
    simp only [step] at ht
    split at ht
    · cases ht
    · obtain rfl := Option.some.inj ht
      exact h.device _ rfl
  | createSession sub did id jti now =>
    obtain rfl := Option.some.inj ht
    exact h.session _ hfresh hrace
  | refresh token now =>
    obtain rfl := Option.some.inj ht
    refine h.request _ ?_ ?_ ?_
    · dsimp only
      split <;> simp
    · intro id
      dsimp only
      split <;> simp
    · dsimp only
      split <;> rfl
  | findSession i now =>
    obtain ⟨r, hr, ht⟩ := Option.bind_eq_some_iff.mp ht
    split at ht
    · rename_i hstage
      obtain rfl := Option.some.inj ht
      cases hselect : s.selectSession hashToken r.token now with
      | none => exact h.setStage hr (by simp) (by rw [hstage]; rfl) (by simp)
      | some x =>
        refine h.setStage hr (by simp) (by rw [hstage]; rfl) fun id hid => ?_
        obtain ⟨hx, hhash, hdevice⟩ := selectSession_mem hselect
        exact ⟨x, hx, RefreshStage.rotate.inj hid, hhash, hdevice⟩
    · cases ht
  | rotate i now =>
    obtain ⟨r, hr, ht⟩ := Option.bind_eq_some_iff.mp ht
    split at ht
    · rename_i id hstage
      split at ht
      · cases ht
      · obtain rfl := Option.some.inj ht
        exact h.rotate hr hstage hrace
    · cases ht
  | issue i id jti now =>
    obtain ⟨r, hr, ht⟩ := Option.bind_eq_some_iff.mp ht
    split at ht
    · rename_i hstage
      obtain rfl := Option.some.inj ht
      exact h.issue hr hstage hfresh
    · cases ht
  | findRole i =>
    obtain ⟨r, hr, ht⟩ := Option.bind_eq_some_iff.mp ht
    split at ht
    · rename_i pair hstage
      obtain rfl := Option.some.inj ht
      refine h.setStage hr (by simp) ?_ (by simp)
      rw [hstage]
      rfl
    · cases ht
  | findDevice userId deviceId =>
    simp only [step] at ht
    split at ht
    · obtain rfl := Option.some.inj ht
      exact h
    · split at ht
      · obtain rfl := Option.some.inj ht
        exact h
      · obtain rfl := Option.some.inj ht
        exact h.revocations _
  | deactivate i =>
    obtain ⟨v, hv, ht⟩ := Option.bind_eq_some_iff.mp ht
    split at ht
    · obtain rfl := Option.some.inj ht
      exact h.revocations _
    · cases ht
  | revokeSessions i now =>
    obtain ⟨v, hv, ht⟩ := Option.bind_eq_some_iff.mp ht
    split at ht
    · obtain rfl := Option.some.inj ht
      exact h.revocations _
    · cases ht
  | commit i =>
    obtain ⟨v, hv, ht⟩ := Option.bind_eq_some_iff.mp ht
    split at ht
    · rename_i ids now hstage
      obtain rfl := Option.some.inj ht
      have hids : ids ∈ v.seen? := by
        unfold DeviceRevocation.seen?
        rw [hstage]
        rfl
      obtain ⟨hidle, hseen⟩ := hrace v hv ids hids
      exact h.commit _ hidle hseen
    · cases ht

theorem exchanged_sublist (s : AuthTables Digest) : s.exchanged.Sublist s.rotatedTokens := by
  unfold exchanged rotatedTokens
  induction s.requests with
  | nil => exact List.Sublist.refl _
  | cons r rs ih =>
    rw [List.flatMap_cons, List.flatMap_cons]
    refine List.Sublist.append ?_ ih
    cases r.stage <;> simp [RefreshStage.hasPair, RefreshStage.hasRotated]

/-- No other request has rotated the token of one that has. -/
theorem Kept.others (h : Kept hashToken s) (hr : s.requests[i]? = some r)
    (hrotated : r.stage.hasRotated = true) :
    ∀ r' ∈ s.requests.eraseIdx i, r'.token = r.token → r'.stage.hasRotated = false := by
  intro r' hr' htoken
  rw [← Bool.not_eq_true]
  intro hrotated'
  have hperm := flatMap_eraseIdx_perm
    (fun r : RefreshRequest => if r.stage.hasRotated then [r.token] else []) hr
  have hnodup := hperm.nodup_iff.mp h.once
  rw [hrotated, if_pos rfl] at hnodup
  refine (List.nodup_cons.mp hnodup).1 (List.mem_flatMap.mpr ⟨r', hr', ?_⟩)
  rw [hrotated', if_pos rfl, htoken]
  exact List.mem_cons_self

instance decidableNoRace (a : AuthStatement) (s : AuthTables Digest) : Decidable (NoRace a s) :=
  match a with
  | .rotate i _ => inferInstanceAs (Decidable (∀ r ∈ s.requests[i]?, ∀ x ∈ s.sessions,
      r.stage = .rotate x.id → x.revokedAt = none))
  | .commit i => inferInstanceAs (Decidable (∀ v ∈ s.revocations[i]?, ∀ ids ∈ v.seen?,
      (∀ r ∈ s.requests, r.token.did = v.deviceId → r.stage ≠ .issue) ∧
        ∀ x ∈ s.sessions, x.deviceId = v.deviceId → x.revokedAt = none → x.id ∈ ids))
  | .createSession _ did _ _ _ =>
      inferInstanceAs (Decidable (∀ d ∈ s.devices, d.id = did → d.isActive = true))
  | .addDevice _ _ | .refresh _ _ | .findSession _ _ | .issue _ _ _ _ | .findRole _
  | .findDevice _ _ | .deactivate _ | .revokeSessions _ _ => isTrue trivial

instance decidableFreshKeys [DecidableEq Digest] (hashToken : RefreshToken → Digest) (ttl : Nat)
    (a : AuthStatement) (s : AuthTables Digest) : Decidable (FreshKeys hashToken ttl a s) :=
  match a with
  | .createSession sub did id jti now => inferInstanceAs (Decidable (∀ x ∈ s.sessions,
      x.id ≠ id ∧ x.refreshTokenHash ≠ hashToken ⟨sub, did, jti, now + ttl⟩))
  | .issue i id jti now => inferInstanceAs (Decidable (∀ r ∈ s.requests[i]?, ∀ x ∈ s.sessions,
      x.id ≠ id ∧ x.refreshTokenHash ≠ hashToken ⟨r.token.sub, r.token.did, jti, now + ttl⟩))
  | .addDevice _ _ | .refresh _ _ | .findSession _ _ | .rotate _ _ | .findRole _
  | .findDevice _ _ | .deactivate _ | .revokeSessions _ _ | .commit _ => isTrue trivial

end

/-- With new keys for new sessions: in every interleaving that keeps the condition a token
is exchanged for one pair at most, and for none once it was rotated by another request or
its device was revoked. -/
theorem refresh_onePair [DecidableEq Digest] (hashToken : RefreshToken → Digest) (ttl : Nat)
    (roles : List (Uuid × String)) (statements : List AuthStatement)
    (hfresh : Always (step hashToken ttl) (FreshKeys hashToken ttl) statements (start roles))
    (hrace : Always (step hashToken ttl) NoRace statements (start roles)) :
    Always (step hashToken ttl) (fun a s => InTime a s ∧
      Reaches (step hashToken ttl) (fun t => t.exchanged.Nodup) a s) statements (start roles) := by
  refine always_of_invariant (Kept hashToken) ?_ ?_ (kept_start roles) (hfresh.and hrace)
  · intro a s t hs ha ht
    exact kept_step hs ha.1 ha.2 ht
  · intro a s hs ha
    refine ⟨?_, fun t ht => (kept_step hs ha.1 ha.2 ht).once.sublist (exchanged_sublist t)⟩
    cases a with
    | issue i id jti now =>
      intro r hr hstage
      exact ⟨hs.others hr (by rw [hstage]; rfl), hs.active hr hstage⟩
    | _ => trivial

/-- A token is rotated, its device is revoked, and the new token is presented. -/
def rotateThenRevoke : List AuthStatement :=
  [.addDevice 100 10, .createSession 100 10 1 1 0, .refresh ⟨100, 10, 1, 50⟩ 5, .findSession 0 5,
    .rotate 0 5, .issue 0 2 2 5, .findRole 0, .findDevice 100 10, .deactivate 0,
    .revokeSessions 0 6, .commit 0, .refresh ⟨100, 10, 2, 55⟩ 7, .findSession 1 7]

theorem rotateThenRevoke_onePair :
    Always (step id 50) (fun a s => InTime a s ∧
      Reaches (step id 50) (fun t => t.exchanged.Nodup) a s) rotateThenRevoke (start []) ∧
    (run (step id 50) rotateThenRevoke (start [])).map (fun s => s.requests.map (·.stage)) =
      some [.answered ⟨100, 10, 2, 55⟩ "user", .refused ⟨401, "session révoquée ou expirée"⟩] :=
  ⟨refresh_onePair id 50 [] rotateThenRevoke (by decide) (by decide), by decide⟩

/-! ## One token, presented twice at once -/

/-- Two requests have read the session before the first of them revokes it. -/
def presentedTwice : List AuthStatement :=
  [.addDevice 100 10, .createSession 100 10 1 1 0, .refresh ⟨100, 10, 1, 50⟩ 5,
    .refresh ⟨100, 10, 1, 50⟩ 5, .findSession 0 5, .findSession 1 5, .rotate 0 5, .rotate 1 5,
    .issue 0 2 2 5, .issue 1 3 3 5]

/-- Both are answered with a pair. -/
theorem presentedTwice_twoPairs :
    Always (step id 50) (FreshKeys id 50) presentedTwice (start []) ∧
      ∃ s, run (step id 50) presentedTwice (start []) = some s ∧
        s.exchanged = [⟨100, 10, 1, 50⟩, ⟨100, 10, 1, 50⟩] ∧ ¬ s.exchanged.Nodup :=
  ⟨by decide, _, rfl, by decide, by decide⟩

end AuthTables

end ZiaCrypte.Server
