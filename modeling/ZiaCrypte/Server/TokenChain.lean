import ZiaCrypte.Server.RefreshTokens

/-!
# The chain of refresh tokens of one device

A device that presents one token at a time, and takes the next one from each
answer, has a session in force for the token it holds, whatever the other
devices of the server do meanwhile. `Chain` is where it stands: with no request
under way, or with one of them at some statement of `POST /auth/refresh`.
-/
namespace ZiaCrypte.Server

open ZiaCrypte.Lib

/-- The request has been answered, one way or the other. -/
def RefreshStage.final : RefreshStage → Bool
  | .answered _ _ => true
  | .refused _ => true
  | _ => false

/-- The request a statement advances. -/
def AuthStatement.advances : AuthStatement → Option Nat
  | .findSession i _ | .rotate i _ | .issue i _ _ _ | .findRole i => some i
  | _ => none

/-- A statement that neither begins nor advances a request. -/
def AuthStatement.isAside : AuthStatement → Bool
  | .refresh _ _ | .findSession _ _ | .rotate _ _ | .issue _ _ _ _ | .findRole _ => false
  | _ => true

namespace AuthTables

variable {Digest : Type} [DecidableEq Digest] {hashToken : RefreshToken → Digest} {ttl : Nat}
  {s t : AuthTables Digest} {did : Uuid} {token : RefreshToken}

/-! ## What a statement writes -/

/-- What a statement does to the sessions, the requests and the revocations. -/
inductive Effect (hashToken : RefreshToken → Digest) (ttl : Nat) :
    AuthStatement → AuthTables Digest → AuthTables Digest → Prop where
  | device {s t a} (aside : a.isAside = true)
      (sessions : t.sessions = s.sessions) (requests : t.requests = s.requests)
      (revocations : t.revocations = s.revocations) : Effect hashToken ttl a s t
  | login {s t sub did id jti now}
      (sessions : t.sessions = s.sessions ++ [newSession hashToken ttl sub did id jti now])
      (requests : t.requests = s.requests) (revocations : t.revocations = s.revocations) :
      Effect hashToken ttl (.createSession sub did id jti now) s t
  | begun {s t token now stage}
      (first : stage = if token.exp ≤ now then .refused ⟨401, "refresh token invalide ou expiré"⟩
        else .find)
      (sessions : t.sessions = s.sessions) (requests : t.requests = s.requests ++ [⟨token, stage⟩])
      (revocations : t.revocations = s.revocations) :
      Effect hashToken ttl (.refresh token now) s t
  | found {s t i now r} (at_ : s.requests[i]? = some r) (stage : r.stage = .find)
      (next : t = s.setStage i r (match s.selectSession hashToken r.token now with
        | none => .refused ⟨401, "session révoquée ou expirée"⟩
        | some x => .rotate x.id)) :
      Effect hashToken ttl (.findSession i now) s t
  | rotated {s t i now r id} (at_ : s.requests[i]? = some r) (stage : r.stage = .rotate id)
      (next : t = { s with sessions := revoke s.sessions [id] now }.setStage i r .issue) :
      Effect hashToken ttl (.rotate i now) s t
  | issued {s t i id jti now r} (at_ : s.requests[i]? = some r) (stage : r.stage = .issue)
      (next : t = { s with sessions := s.sessions ++
        [newSession hashToken ttl r.token.sub r.token.did id jti now] }.setStage i r
          (.role ⟨r.token.sub, r.token.did, jti, now + ttl⟩)) :
      Effect hashToken ttl (.issue i id jti now) s t
  | answered {s t i r pair role} (at_ : s.requests[i]? = some r) (stage : r.stage = .role pair)
      (next : t = s.setStage i r (.answered pair role)) : Effect hashToken ttl (.findRole i) s t
  | revocation {s t userId deviceId} (sessions : t.sessions = s.sessions)
      (requests : t.requests = s.requests)
      (revocations : t.revocations = s.revocations ++ [⟨deviceId, .found⟩]) :
      Effect hashToken ttl (.findDevice userId deviceId) s t
  | transaction {s t a i v stage} (aside : a.isAside = true)
      (at_ : s.revocations[i]? = some v)
      (sessions : t.sessions = s.sessions) (requests : t.requests = s.requests)
      (revocations : t.revocations = s.revocations.set i { v with stage := stage })
      (seen : ∀ ids now, stage = .sessions ids now → ∀ id ∈ ids, ∃ x ∈ s.sessions,
        x.id = id ∧ x.deviceId = v.deviceId) : Effect hashToken ttl a s t
  | committed {s t i v ids now} (at_ : s.revocations[i]? = some v)
      (stage : v.stage = .sessions ids now) (sessions : t.sessions = revoke s.sessions ids now)
      (requests : t.requests = s.requests)
      (revocations : t.revocations = s.revocations.set i { v with stage := .committed }) :
      Effect hashToken ttl (.commit i) s t

theorem effect_of_step {a : AuthStatement} (h : step hashToken ttl a s = some t) :
    Effect hashToken ttl a s t := by
  cases a with
  | addDevice userId deviceId =>
    simp only [step] at h
    split at h
    · cases h
    · obtain rfl := Option.some.inj h
      exact .device rfl rfl rfl rfl
  | createSession sub did id jti now =>
    obtain rfl := Option.some.inj h
    exact .login rfl rfl rfl
  | refresh token now =>
    obtain rfl := Option.some.inj h
    exact .begun rfl rfl rfl rfl
  | findSession i now =>
    obtain ⟨r, hr, h⟩ := Option.bind_eq_some_iff.mp h
    split at h
    · exact .found hr ‹_› (Option.some.inj h).symm
    · cases h
  | rotate i now =>
    obtain ⟨r, hr, h⟩ := Option.bind_eq_some_iff.mp h
    split at h
    · rename_i hstage
      split at h
      · cases h
      · exact .rotated hr hstage (Option.some.inj h).symm
    · cases h
  | issue i id jti now =>
    obtain ⟨r, hr, h⟩ := Option.bind_eq_some_iff.mp h
    split at h
    · exact .issued hr ‹_› (Option.some.inj h).symm
    · cases h
  | findRole i =>
    obtain ⟨r, hr, h⟩ := Option.bind_eq_some_iff.mp h
    split at h
    · rename_i hstage
      exact .answered hr hstage (Option.some.inj h).symm
    · cases h
  | findDevice userId deviceId =>
    simp only [step] at h
    split at h
    · obtain rfl := Option.some.inj h
      exact .device rfl rfl rfl rfl
    · rename_i device hfound
      have hid : device.id = deviceId := by simpa using List.find?_some hfound
      split at h
      · obtain rfl := Option.some.inj h
        exact .device rfl rfl rfl rfl
      · obtain rfl := Option.some.inj h
        exact .revocation rfl rfl (by rw [hid])
  | deactivate i =>
    obtain ⟨v, hv, h⟩ := Option.bind_eq_some_iff.mp h
    split at h
    · obtain rfl := Option.some.inj h
      refine .transaction rfl hv rfl rfl rfl fun ids now hstage => ?_
      cases hstage
    · cases h
  | revokeSessions i now =>
    obtain ⟨v, hv, h⟩ := Option.bind_eq_some_iff.mp h
    split at h
    · obtain rfl := Option.some.inj h
      refine .transaction rfl hv rfl rfl rfl fun ids now hstage id hid => ?_
      obtain ⟨rfl, -⟩ := RevokeStage.sessions.inj hstage
      obtain ⟨x, hx, rfl⟩ := List.mem_map.mp hid
      obtain ⟨hmem, hof⟩ := List.mem_filter.mp hx
      simp only [Bool.and_eq_true, beq_iff_eq] at hof
      exact ⟨x, hmem, rfl, hof.1⟩
    · cases h
  | commit i =>
    obtain ⟨v, hv, h⟩ := Option.bind_eq_some_iff.mp h
    split at h
    · rename_i ids now hstage
      obtain rfl := Option.some.inj h
      exact .committed hv hstage rfl rfl rfl
    · cases h

/-! ## The tables while the device is left alone -/

/-- Statements of the other devices; this one presents no token and is not revoked. -/
def Foreign (did : Uuid) : AuthStatement → Prop
  | .refresh token _ => token.did ≠ did
  | .findDevice _ deviceId => deviceId ≠ did
  | _ => True

instance (did : Uuid) (a : AuthStatement) : Decidable (Foreign did a) := by
  cases a <;> unfold Foreign <;> infer_instance

structure Orderly (hashToken : RefreshToken → Digest) (did : Uuid) (s : AuthTables Digest) :
    Prop where
  ids : (s.sessions.map (·.id)).Nodup
  hashes : (s.sessions.map (·.refreshTokenHash)).Nodup
  chosen : ∀ r ∈ s.requests, ∀ id, r.stage = .rotate id → ∃ x ∈ s.sessions, x.id = id ∧
    x.refreshTokenHash = hashToken r.token ∧ x.deviceId = r.token.did
  presented : ∀ r ∈ s.requests, r.token.did = did → ∃ x ∈ s.sessions,
    x.refreshTokenHash = hashToken r.token
  /-- A token that was exchanged has no session in force. -/
  spent : ∀ r ∈ s.requests, r.token.did = did → r.stage.hasRotated = true → ∀ x ∈ s.sessions,
    x.refreshTokenHash = hashToken r.token → x.revokedAt ≠ none
  elsewhere : ∀ v ∈ s.revocations, v.deviceId ≠ did ∧ ∀ ids now, v.stage = .sessions ids now →
    ∀ id ∈ ids, ∃ x ∈ s.sessions, x.id = id ∧ x.deviceId = v.deviceId

/-- A row that is there stays there, but for the date it was revoked. -/
theorem sessions_kept {a : AuthStatement} (h : Effect hashToken ttl a s t) {x : AuthSession Digest}
    (hx : x ∈ s.sessions) : ∃ x' ∈ t.sessions, x'.id = x.id ∧
      x'.refreshTokenHash = x.refreshTokenHash ∧ x'.deviceId = x.deviceId := by
  cases h with
  | device _ sessions | transaction _ _ sessions | revocation sessions | begun _ sessions =>
    exact ⟨x, sessions ▸ hx, rfl, rfl, rfl⟩
  | login sessions => exact ⟨x, sessions ▸ List.mem_append_left _ hx, rfl, rfl, rfl⟩
  | found _ _ next | answered _ _ next =>
    subst next
    exact ⟨x, hx, rfl, rfl, rfl⟩
  | rotated _ _ next =>
    subst next
    obtain ⟨x', hx', hid, hhash, hdevice, -⟩ := mem_revoke hx _ _
    exact ⟨x', hx', hid, hhash, hdevice⟩
  | issued _ _ next =>
    subst next
    exact ⟨x, List.mem_append_left _ hx, rfl, rfl, rfl⟩
  | committed _ _ sessions =>
    obtain ⟨x', hx', hid, hhash, hdevice, -⟩ := mem_revoke hx _ _
    exact ⟨x', sessions ▸ hx', hid, hhash, hdevice⟩

/-- A request of the tables afterwards, by the request it was. -/
theorem requests_cases {a : AuthStatement} (h : Effect hashToken ttl a s t) {q : RefreshRequest}
    {j : Nat} (hq : t.requests[j]? = some q) :
    (∃ q', s.requests[j]? = some q' ∧ q'.token = q.token) ∨
      ∃ now, a = .refresh q.token now ∧ j = s.requests.length := by
  have hmoved : ∀ {i r} {stage : RefreshStage}, s.requests[i]? = some r →
      (s.requests.set i { r with stage := stage })[j]? = some q →
      ∃ q', s.requests[j]? = some q' ∧ q'.token = q.token := by
    intro i r stage hr hq
    by_cases hij : i = j
    · subst i
      rw [List.getElem?_set_self (List.getElem?_eq_some_iff.mp hr).1] at hq
      obtain rfl := Option.some.inj hq
      exact ⟨r, hr, rfl⟩
    · rw [List.getElem?_set_ne hij] at hq
      exact ⟨q, hq, rfl⟩
  cases h with
  | device _ _ requests | login _ requests | revocation _ requests | transaction _ _ _ requests
  | committed _ _ _ requests =>
    exact .inl ⟨q, requests ▸ hq, rfl⟩
  | begun _ _ requests =>
    rw [requests] at hq
    rcases getElem?_concat_cases hq with hold | ⟨rfl, rfl⟩
    · exact .inl ⟨q, hold, rfl⟩
    · exact .inr ⟨_, rfl, rfl⟩
  | found at_ _ next | rotated at_ _ next | issued at_ _ next | answered at_ _ next =>
    subst next
    exact .inl (hmoved at_ hq)

/-- A row afterwards is an old one, revoked if that was, or its hash is new. -/
theorem rows_cases {a : AuthStatement} (he : Effect hashToken ttl a s t)
    (hfresh : FreshKeys hashToken ttl a s) {x : AuthSession Digest} (hx : x ∈ t.sessions) :
    (∃ y ∈ s.sessions, y.refreshTokenHash = x.refreshTokenHash ∧
      (y.revokedAt ≠ none → x.revokedAt ≠ none)) ∨
      ∀ y ∈ s.sessions, y.refreshTokenHash ≠ x.refreshTokenHash := by
  have hrevoke : ∀ {ids now}, x ∈ revoke s.sessions ids now → ∃ y ∈ s.sessions,
      y.refreshTokenHash = x.refreshTokenHash ∧ (y.revokedAt ≠ none → x.revokedAt ≠ none) := by
    intro ids now hmem
    obtain ⟨y, hy, rfl⟩ := List.mem_map.mp hmem
    refine ⟨y, hy, ?_⟩
    split
    · exact ⟨rfl, fun _ => by simp⟩
    · exact ⟨rfl, id⟩
  cases he with
  | device _ sessions | transaction _ _ sessions | revocation sessions | begun _ sessions =>
    exact .inl ⟨x, sessions ▸ hx, rfl, id⟩
  | login sessions =>
    rw [sessions] at hx
    rcases mem_concat_cases hx with hold | rfl
    · exact .inl ⟨x, hold, rfl, id⟩
    · exact .inr fun y hy => (hfresh y hy).2
  | found _ _ next | answered _ _ next =>
    subst next
    exact .inl ⟨x, hx, rfl, id⟩
  | rotated _ _ next =>
    subst next
    exact .inl (hrevoke hx)
  | issued at_ _ next =>
    subst next
    rcases mem_concat_cases hx with hold | rfl
    · exact .inl ⟨x, hold, rfl, id⟩
    · exact .inr fun y hy => (hfresh _ at_ y hy).2
  | committed _ _ sessions =>
    rw [sessions] at hx
    exact .inl (hrevoke hx)

theorem Orderly.step (h : Orderly hashToken did s) {a : AuthStatement}
    (hfresh : FreshKeys hashToken ttl a s)
    (hforeign : ∀ userId deviceId, a = .findDevice userId deviceId → deviceId ≠ did)
    (hpresented : ∀ token now, a = .refresh token now → token.did = did →
      ∃ x ∈ s.sessions, x.refreshTokenHash = hashToken token)
    (he : Effect hashToken ttl a s t) : Orderly hashToken did t := by
  have hrows := fun {x : AuthSession Digest} (hx : x ∈ s.sessions) => sessions_kept he hx
  refine ⟨?_, ?_, ?_, ?_, ?_, ?_⟩
  · cases he with
    | device _ sessions | transaction _ _ sessions | revocation sessions | begun _ sessions =>
      rw [sessions]
      exact h.ids
    | login sessions =>
      rw [sessions]
      exact nodup_map_concat h.ids fun x hx => (hfresh x hx).1
    | found _ _ next | answered _ _ next =>
      subst next
      exact h.ids
    | rotated _ _ next =>
      subst next
      exact (revoke_map (·.id) (fun _ _ => rfl) _ _ _).symm ▸ h.ids
    | issued at_ _ next =>
      subst next
      exact nodup_map_concat h.ids fun x hx => (hfresh _ at_ x hx).1
    | committed _ _ sessions =>
      rw [sessions, revoke_map _ fun _ _ => rfl]
      exact h.ids
  · cases he with
    | device _ sessions | transaction _ _ sessions | revocation sessions | begun _ sessions =>
      rw [sessions]
      exact h.hashes
    | login sessions =>
      rw [sessions]
      exact nodup_map_concat h.hashes fun x hx => (hfresh x hx).2
    | found _ _ next | answered _ _ next =>
      subst next
      exact h.hashes
    | rotated _ _ next =>
      subst next
      exact (revoke_map (·.refreshTokenHash) (fun _ _ => rfl) _ _ _).symm ▸ h.hashes
    | issued at_ _ next =>
      subst next
      exact nodup_map_concat h.hashes fun x hx => (hfresh _ at_ x hx).2
    | committed _ _ sessions =>
      rw [sessions, revoke_map _ fun _ _ => rfl]
      exact h.hashes
  · have hold : ∀ r ∈ s.requests, ∀ id, r.stage = .rotate id → ∃ x ∈ t.sessions, x.id = id ∧
        x.refreshTokenHash = hashToken r.token ∧ x.deviceId = r.token.did := by
      intro r hr id hstage
      obtain ⟨x, hx, hid, hhash, hdevice⟩ := h.chosen r hr id hstage
      obtain ⟨x', hx', hid', hhash', hdevice'⟩ := hrows hx
      exact ⟨x', hx', hid'.trans hid, hhash'.trans hhash, hdevice'.trans hdevice⟩
    intro r hr id hstage
    cases he with
    | device _ _ requests | login _ requests | revocation _ requests | transaction _ _ _ requests
    | committed _ _ _ requests => exact hold r (requests ▸ hr) id hstage
    | begun first _ requests =>
      rw [requests] at hr
      rcases mem_concat_cases hr with hin | rfl
      · exact hold r hin id hstage
      · rw [first] at hstage
        split at hstage <;> cases hstage
    | found at_ _ next =>
      subst next
      rcases mem_set_cases hr with hin | rfl
      · exact hold r hin id hstage
      · dsimp only at hstage
        split at hstage
        · cases hstage
        · rename_i x hselect
          obtain ⟨hx, hhash, hdevice⟩ := selectSession_mem hselect
          exact ⟨x, hx, RefreshStage.rotate.inj hstage, hhash, hdevice⟩
    | rotated at_ _ next | issued at_ _ next | answered at_ _ next =>
      subst next
      rcases mem_set_cases hr with hin | rfl
      · exact hold r hin id hstage
      · cases hstage
  · intro r hr hdid
    obtain ⟨j, hj⟩ := List.mem_iff_getElem?.mp hr
    have hhash : ∃ x ∈ s.sessions, x.refreshTokenHash = hashToken r.token := by
      rcases requests_cases he hj with ⟨r', hr', htoken⟩ | ⟨now, rfl, -⟩
      · rw [← htoken] at hdid ⊢
        exact h.presented r' (List.mem_of_getElem? hr') hdid
      · exact hpresented _ now rfl hdid
    obtain ⟨x, hx, hhash⟩ := hhash
    obtain ⟨x', hx', -, hhash', -⟩ := hrows hx
    exact ⟨x', hx', hhash'.trans hhash⟩
  · -- A row of a token that was presented is not new, and one that was revoked stays so.
    have hold : ∀ token : RefreshToken, token.did = did → (∃ r ∈ s.requests, r.token = token) →
        (∀ x ∈ s.sessions, x.refreshTokenHash = hashToken token → x.revokedAt ≠ none) →
        ∀ x ∈ t.sessions, x.refreshTokenHash = hashToken token → x.revokedAt ≠ none := by
      rintro token hdid ⟨r, hr, rfl⟩ hspent x hx hhash
      rcases rows_cases he hfresh hx with ⟨y, hy, hyhash, hrevoked⟩ | hnew
      · exact hrevoked (hspent y hy (hyhash.trans hhash))
      · obtain ⟨y, hy, hyhash⟩ := h.presented r hr hdid
        exact absurd (hyhash.trans hhash.symm) (hnew y hy)
    intro r hr hdid hrotated
    cases he with
    | device _ _ requests | login _ requests | revocation _ requests | transaction _ _ _ requests
    | committed _ _ _ requests =>
      rw [requests] at hr
      exact hold r.token hdid ⟨r, hr, rfl⟩ (h.spent r hr hdid hrotated)
    | begun first _ requests =>
      rw [requests] at hr
      rcases mem_concat_cases hr with hin | rfl
      · exact hold r.token hdid ⟨r, hin, rfl⟩ (h.spent r hin hdid hrotated)
      · rw [first] at hrotated
        split at hrotated <;> cases hrotated
    | found at_ _ next =>
      subst next
      rcases mem_set_cases hr with hin | rfl
      · exact h.spent r hin hdid hrotated
      · dsimp only at hrotated
        split at hrotated <;> cases hrotated
    | @rotated _ _ i now r' id at_ stage next =>
      subst next
      have hmem := List.mem_of_getElem? at_
      rcases mem_set_cases hr with hin | rfl
      · exact hold r.token hdid ⟨r, hin, rfl⟩ (h.spent r hin hdid hrotated)
      · intro x hx hhash
        obtain ⟨y, hy, rfl⟩ := List.mem_map.mp hx
        obtain ⟨z, hz, rfl, hzhash, -⟩ := h.chosen r' hmem id stage
        have hyhash : y.refreshTokenHash = hashToken r'.token := by
          rw [← hhash]
          split <;> rfl
        obtain rfl : y = z := List.inj_on_of_nodup_map h.hashes hy hz (hyhash.trans hzhash.symm)
        simp
    | @issued _ _ i id jti now r' at_ stage next =>
      have hmem := List.mem_of_getElem? at_
      have hreq : r ∈ s.requests ∨ r.token = r'.token := by
        subst next
        rcases mem_set_cases hr with hin | rfl
        · exact .inl hin
        · exact .inr rfl
      rcases hreq with hin | htoken
      · exact hold r.token hdid ⟨r, hin, rfl⟩ (h.spent r hin hdid hrotated)
      · rw [htoken] at hdid ⊢
        exact hold r'.token hdid ⟨r', hmem, rfl⟩ (h.spent r' hmem hdid (by rw [stage]; rfl))
    | @answered _ _ i r' pair role at_ stage next =>
      subst next
      rcases mem_set_cases hr with hin | rfl
      · exact h.spent r hin hdid hrotated
      · exact h.spent r' (List.mem_of_getElem? at_) hdid (by rw [stage]; rfl)
  · have hold : ∀ v ∈ s.revocations, v.deviceId ≠ did ∧ ∀ ids now, v.stage = .sessions ids now →
        ∀ id ∈ ids, ∃ x ∈ t.sessions, x.id = id ∧ x.deviceId = v.deviceId := by
      intro v hv
      refine ⟨(h.elsewhere v hv).1, fun ids now hstage id hid => ?_⟩
      obtain ⟨x, hx, hxid, hdevice⟩ := (h.elsewhere v hv).2 ids now hstage id hid
      obtain ⟨x', hx', hid', -, hdevice'⟩ := hrows hx
      exact ⟨x', hx', hid'.trans hxid, hdevice'.trans hdevice⟩
    intro v hv
    cases he with
    | device _ _ _ revocations | login _ _ revocations | begun _ _ _ revocations =>
      exact hold v (revocations ▸ hv)
    | found _ _ next | rotated _ _ next | issued _ _ next | answered _ _ next =>
      subst next
      exact hold v hv
    | revocation _ _ revocations =>
      rw [revocations] at hv
      rcases mem_concat_cases hv with hin | rfl
      · exact hold v hin
      · exact ⟨hforeign _ _ rfl, fun ids now hstage => nomatch hstage⟩
    | transaction _ at_ sessions _ revocations seen =>
      rw [revocations] at hv
      rcases mem_set_cases hv with hin | rfl
      · exact hold v hin
      · refine ⟨(h.elsewhere _ (List.mem_of_getElem? at_)).1, fun ids now hstage id hid => ?_⟩
        rw [sessions]
        exact seen ids now hstage id hid
    | committed at_ _ _ _ revocations =>
      rw [revocations] at hv
      rcases mem_set_cases hv with hin | rfl
      · exact hold v hin
      · exact ⟨(h.elsewhere _ (List.mem_of_getElem? at_)).1, fun ids now hstage => nomatch hstage⟩

/-! ## A session in force -/

/-- The session `id` is in force for the token. -/
def InForce (hashToken : RefreshToken → Digest) (s : AuthTables Digest) (token : RefreshToken)
    (id : Uuid) : Prop :=
  ∃ x ∈ s.sessions, x.id = id ∧ x.userId = token.sub ∧ x.deviceId = token.did ∧
    x.refreshTokenHash = hashToken token ∧ x.revokedAt = none ∧ x.expiresAt = token.exp

omit [DecidableEq Digest] in
theorem mem_revoke_of_not_mem {sessions : List (AuthSession Digest)} {x : AuthSession Digest}
    {ids : List Uuid} {now : Nat} (hx : x ∈ sessions) (hid : x.id ∉ ids) :
    x ∈ revoke sessions ids now :=
  List.mem_map.mpr ⟨x, hx, if_neg hid⟩

/-- Only the request that rotates it takes a session out of force. -/
theorem InForce.step {id : Uuid} (hforce : InForce hashToken s token id) (h : Orderly hashToken did s)
    (hdid : token.did = did) {a : AuthStatement} (he : Effect hashToken ttl a s t)
    (hother : ∀ i now r, a = .rotate i now → s.requests[i]? = some r → r.token.did ≠ did) :
    InForce hashToken t token id := by
  obtain ⟨x, hx, hid, huser, hdevice, hrest⟩ := hforce
  have hkept : ∀ ids : List Uuid, (∀ id' ∈ ids, ∃ y ∈ s.sessions, y.id = id' ∧ y.deviceId ≠ did) →
      x.id ∉ ids := by
    intro ids hids hmem
    obtain ⟨y, hy, hyid, hydevice⟩ := hids x.id hmem
    have hsame : y = x := List.inj_on_of_nodup_map h.ids hy hx hyid
    exact hydevice (by rw [hsame, hdevice, hdid])
  suffices hmem : x ∈ t.sessions from ⟨x, hmem, hid, huser, hdevice, hrest⟩
  cases he with
  | device _ sessions | transaction _ _ sessions | revocation sessions | begun _ sessions =>
    exact sessions ▸ hx
  | login sessions => exact sessions ▸ List.mem_append_left _ hx
  | found _ _ next | answered _ _ next =>
    subst next
    exact hx
  | @rotated _ _ i now r id' at_ stage next =>
    subst next
    refine mem_revoke_of_not_mem hx (hkept _ fun id'' hid'' => ?_)
    obtain rfl := List.mem_singleton.mp hid''
    obtain ⟨y, hy, hyid, -, hydevice⟩ := h.chosen r (List.mem_of_getElem? at_) _ stage
    exact ⟨y, hy, hyid, hydevice ▸ hother i now r rfl at_⟩
  | issued _ _ next =>
    subst next
    exact List.mem_append_left _ hx
  | @committed _ _ i v ids now at_ stage sessions =>
    refine sessions ▸ mem_revoke_of_not_mem hx (hkept _ fun id'' hid'' => ?_)
    obtain ⟨hne, hseen⟩ := h.elsewhere v (List.mem_of_getElem? at_)
    obtain ⟨y, hy, hyid, hydevice⟩ := hseen ids now stage id'' hid''
    exact ⟨y, hy, hyid, hydevice ▸ hne⟩

/-- A token with a session in force is not refused before it expires. -/
theorem InForce.selected {id : Uuid} (hforce : InForce hashToken s token id)
    (h : Orderly hashToken did s) {now : Nat} (hnow : now < token.exp) :
    ∃ x, s.selectSession hashToken token now = some x ∧ x.id = id := by
  obtain ⟨x, hx, hid, huser, hdevice, hhash, hrevoked, hexpires⟩ := hforce
  have hsome : (s.selectSession hashToken token now).isSome := by
    refine List.find?_isSome.mpr ⟨x, hx, ?_⟩
    simp [huser, hdevice, hhash, hrevoked, hexpires, hnow]
  obtain ⟨y, hy⟩ := Option.isSome_iff_exists.mp hsome
  obtain ⟨hmem, hyhash, -⟩ := selectSession_mem hy
  have hsame : y = x := List.inj_on_of_nodup_map h.hashes hmem hx (hyhash.trans hhash.symm)
  exact ⟨y, hy, hsame ▸ hid⟩

/-! ## The chain -/

/-- What the request under way leaves in force. -/
def Under (hashToken : RefreshToken → Digest) (s : AuthTables Digest) (q : RefreshRequest) : Prop :=
  match q.stage with
  | .find | .refused _ => ∃ id, InForce hashToken s q.token id
  | .rotate id => InForce hashToken s q.token id
  | .issue => True
  | .role pair | .answered pair _ => pair.did = q.token.did ∧
      (∃ id, InForce hashToken s pair id) ∧ ∀ q' ∈ s.requests, q'.token ≠ pair

/-- But for the one under way the requests of the device are over, and none of them was
answered for the token it holds. -/
def Others (did : Uuid) (s : AuthTables Digest) (token : RefreshToken) (o : Option Nat) : Prop :=
  ∀ j q, s.requests[j]? = some q → o ≠ some j → (q.token.did = did → q.stage.final) ∧
    (q.token = token → ∃ e, q.stage = .refused e)

/-- Where the device stands with the token it holds, and the request under way if there is one. -/
inductive Chain (hashToken : RefreshToken → Digest) (did : Uuid) (s : AuthTables Digest)
    (token : RefreshToken) : Option Nat → Prop where
  | idle (id : Uuid) (force : InForce hashToken s token id) (others : Others did s token none) :
      Chain hashToken did s token none
  | busy (i : Nat) (q : RefreshRequest) (at_ : s.requests[i]? = some q) (same : q.token = token)
      (others : Others did s token (some i)) (under : Under hashToken s q) :
      Chain hashToken did s token (some i)

/-- The token is presented. -/
theorem Chain.arrive (h : Chain hashToken did s token none) {now : Nat}
    (he : Effect hashToken ttl (.refresh token now) s t) :
    Chain hashToken did t token (some s.requests.length) := by
  obtain ⟨id, force, others⟩ := h
  cases he with
  | begun first sessions requests =>
    have hforce : InForce hashToken t token id := by
      unfold InForce
      rw [sessions]
      exact force
    refine .busy _ _ (by rw [requests]; exact List.getElem?_concat_length) rfl ?_ ?_
    · intro j q hq hne
      rw [requests] at hq
      rcases getElem?_concat_cases hq with hold | ⟨rfl, -⟩
      · exact others j q hold (by simp)
      · exact absurd rfl hne
    · by_cases hexp : token.exp ≤ now
      · rw [first, if_pos hexp]
        exact ⟨id, hforce⟩
      · rw [first, if_neg hexp]
        exact ⟨id, hforce⟩
  | device aside | transaction aside => cases aside

/-! ## What the other statements do to the chain -/

variable {o : Option Nat}

omit [DecidableEq Digest] in
theorem advances_of_isAside {a : AuthStatement} (h : a.isAside = true) : a.advances = none := by
  cases a <;> first | rfl | cases h

/-- A statement begins a request, advances one that is not over, or does neither. -/
theorem requests_effect {a : AuthStatement} (he : Effect hashToken ttl a s t) :
    (a.isAside = true ∧ t.requests = s.requests) ∨
    (∃ token now stage, a = .refresh token now ∧ t.requests = s.requests ++ [⟨token, stage⟩]) ∨
    ∃ i r stage, a.advances = some i ∧ s.requests[i]? = some r ∧ r.stage.final = false ∧
      t.requests = s.requests.set i { r with stage := stage } := by
  cases he with
  | device aside _ requests | transaction aside _ _ requests => exact .inl ⟨aside, requests⟩
  | login _ requests | revocation _ requests | committed _ _ _ requests =>
    exact .inl ⟨rfl, requests⟩
  | begun _ _ requests => exact .inr (.inl ⟨_, _, _, rfl, requests⟩)
  | found at_ stage next | rotated at_ stage next | issued at_ stage next
  | answered at_ stage next =>
    exact .inr (.inr ⟨_, _, _, rfl, at_, by rw [stage]; rfl, by rw [next]; rfl⟩)

theorem requests_length_le {a : AuthStatement} (he : Effect hashToken ttl a s t) :
    s.requests.length ≤ t.requests.length := by
  obtain ⟨-, hsame⟩ | ⟨_, _, _, -, hbegun⟩ | ⟨_, _, _, -, -, -, hset⟩ := requests_effect he
  · exact Nat.le_of_eq (congrArg List.length hsame.symm)
  · rw [hbegun, List.length_append]
    exact Nat.le_add_right _ _
  · simp [hset]

theorem Others.step (h : Others did s token o) (hdid : token.did = did) {a : AuthStatement}
    (hforeign : Foreign did a) (he : Effect hashToken ttl a s t) : Others did t token o := by
  obtain ⟨-, hsame⟩ | ⟨token', now, stage, rfl, hbegun⟩ | ⟨i, r, stage, -, hr, hstage, hset⟩ :=
    requests_effect he
  · unfold Others
    rw [hsame]
    exact h
  · intro j q hq hne
    rw [hbegun] at hq
    rcases getElem?_concat_cases hq with hold | ⟨-, rfl⟩
    · exact h j q hold hne
    · refine ⟨fun hmine => absurd hmine hforeign, fun hmine => absurd ?_ hforeign⟩
      rw [← hdid, ← hmine]
  · intro j q hq hne
    rw [hset] at hq
    by_cases hij : i = j
    · subst i
      rw [List.getElem?_set_self (List.getElem?_eq_some_iff.mp hr).1] at hq
      obtain rfl := Option.some.inj hq
      have hother : r.token.did ≠ did := by
        intro hmine
        have hfinal := (h j r hr hne).1 hmine
        rw [hstage] at hfinal
        cases hfinal
      refine ⟨fun hmine => absurd hmine hother, fun hmine => absurd ?_ hother⟩
      rw [← hdid, ← hmine]
    · rw [List.getElem?_set_ne hij] at hq
      exact h j q hq hne

/-- A request that rotates a session is not over: unless it is the one under way, it is of
another device. -/
theorem Others.rotates (h : Others did s token o) {i now : Nat} {r : RefreshRequest}
    (hne : o ≠ some i) (he : Effect hashToken ttl (.rotate i now) s t)
    (hr : s.requests[i]? = some r) : r.token.did ≠ did := by
  intro hmine
  have hfinal := (h i r hr hne).1 hmine
  cases he with
  | rotated at_ stage =>
    obtain rfl := Option.some.inj (hr.symm.trans at_)
    rw [stage] at hfinal
    cases hfinal
  | device aside | transaction aside => cases aside

/-- A statement that does not advance the request under way. -/
theorem Under.step {i : Nat} {q : RefreshRequest} (h : Under hashToken s q)
    (hs : Orderly hashToken did s) (hdid : q.token.did = did) (others : Others did s token (some i))
    {a : AuthStatement} (hforeign : Foreign did a) (he : Effect hashToken ttl a s t)
    (hnot : a.advances ≠ some i) : Under hashToken t q := by
  have hforce : ∀ {token' : RefreshToken} {id : Uuid}, token'.did = did →
      InForce hashToken s token' id → InForce hashToken t token' id := by
    intro token' id hmine hin
    refine hin.step hs hmine he fun j now r ha hr => ?_
    subst ha
    exact others.rotates (fun heq => hnot heq.symm) he hr
  have hpair : ∀ {pair : RefreshToken}, pair.did = did → (∀ q' ∈ s.requests, q'.token ≠ pair) →
      ∀ q' ∈ t.requests, q'.token ≠ pair := by
    intro pair hmine hnone q' hq'
    obtain ⟨j, hj⟩ := List.mem_iff_getElem?.mp hq'
    rcases requests_cases he hj with ⟨r, hr, htoken⟩ | ⟨now, rfl, -⟩
    · rw [← htoken]
      exact hnone r (List.mem_of_getElem? hr)
    · rintro rfl
      exact hforeign hmine
  unfold Under at h ⊢
  split at h
  · obtain ⟨id, hin⟩ := h
    exact ⟨id, hforce hdid hin⟩
  · obtain ⟨id, hin⟩ := h
    exact ⟨id, hforce hdid hin⟩
  · exact hforce hdid h
  · trivial
  · obtain ⟨hpdid, ⟨id, hin⟩, hnone⟩ := h
    exact ⟨hpdid, ⟨id, hforce (hpdid.trans hdid) hin⟩, hpair (hpdid.trans hdid) hnone⟩
  · obtain ⟨hpdid, ⟨id, hin⟩, hnone⟩ := h
    exact ⟨hpdid, ⟨id, hforce (hpdid.trans hdid) hin⟩, hpair (hpdid.trans hdid) hnone⟩

/-- The request under way goes on. -/
theorem Under.advance {i : Nat} {q : RefreshRequest} (h : Under hashToken s q)
    (hs : Orderly hashToken did s) (hdid : q.token.did = did) (hq : s.requests[i]? = some q)
    {a : AuthStatement} (hfresh : FreshKeys hashToken ttl a s) (he : Effect hashToken ttl a s t)
    (ha : a.advances = some i) :
    ∃ stage, t.requests[i]? = some { q with stage := stage } ∧
      Under hashToken t { q with stage := stage } := by
  have hlt := (List.getElem?_eq_some_iff.mp hq).1
  cases he with
  | device aside | transaction aside =>
    rw [advances_of_isAside aside] at ha
    cases ha
  | login | begun | revocation | committed => cases ha
  | found at_ stage next =>
    obtain rfl := Option.some.inj ha
    obtain rfl := Option.some.inj (hq.symm.trans at_)
    rw [Under, stage] at h
    obtain ⟨id, hin⟩ := h
    subst next
    refine ⟨_, List.getElem?_set_self hlt, ?_⟩
    split
    · exact ⟨id, hin⟩
    · rename_i x hselect
      obtain ⟨y, hy, hid, huser, hdevice, hhash, hrest⟩ := hin
      obtain ⟨hx, hxhash, -⟩ := selectSession_mem hselect
      have hsame : x = y := List.inj_on_of_nodup_map hs.hashes hx hy (hxhash.trans hhash.symm)
      exact ⟨y, hy, by rw [hsame], huser, hdevice, hhash, hrest⟩
  | rotated at_ stage next =>
    obtain rfl := Option.some.inj ha
    obtain rfl := Option.some.inj (hq.symm.trans at_)
    subst next
    exact ⟨_, List.getElem?_set_self hlt, trivial⟩
  | @issued _ _ i id jti now r at_ stage next =>
    obtain rfl := Option.some.inj ha
    obtain rfl := Option.some.inj (hq.symm.trans at_)
    subst next
    refine ⟨_, List.getElem?_set_self hlt, rfl, ⟨id, ?_⟩, fun q' hq' => ?_⟩
    · exact ⟨_, List.mem_append_right _ List.mem_cons_self, rfl, rfl, rfl, rfl, rfl, rfl⟩
    · -- A token that was presented has a session, and the keys of the new one are new.
      intro hpair
      have hold : ∃ r ∈ s.requests, r.token = q'.token := by
        rcases mem_set_cases hq' with hin | rfl
        · exact ⟨q', hin, rfl⟩
        · exact ⟨q, List.mem_of_getElem? hq, rfl⟩
      obtain ⟨r, hr, htoken⟩ := hold
      obtain ⟨x, hx, hhash⟩ := hs.presented r hr (by rw [htoken, hpair]; exact hdid)
      refine (hfresh q hq x hx).2 ?_
      rw [hhash, htoken, hpair]
  | answered at_ stage next =>
    obtain rfl := Option.some.inj ha
    obtain rfl := Option.some.inj (hq.symm.trans at_)
    rw [Under, stage] at h
    obtain ⟨hpdid, hin, hnone⟩ := h
    subst next
    refine ⟨_, List.getElem?_set_self hlt, hpdid, hin, fun q' hq' => ?_⟩
    rcases mem_set_cases hq' with hold | rfl
    · exact hnone q' hold
    · exact hnone q (List.mem_of_getElem? hq)

theorem Chain.step (h : Chain hashToken did s token o) (hs : Orderly hashToken did s)
    (hdid : token.did = did) {a : AuthStatement} (hforeign : Foreign did a)
    (hfresh : FreshKeys hashToken ttl a s) (he : Effect hashToken ttl a s t) :
    Chain hashToken did t token o := by
  cases h with
  | idle id force others =>
    refine .idle id (force.step hs hdid he fun j now r ha hr => ?_)
      (others.step hdid hforeign he)
    subst ha
    exact others.rotates (by simp) he hr
  | busy i q at_ same others under =>
    have hmine : q.token.did = did := by rw [same, hdid]
    by_cases ha : a.advances = some i
    · obtain ⟨stage, hat, hunder⟩ := under.advance hs hmine at_ hfresh he ha
      exact .busy i _ hat same (others.step hdid hforeign he) hunder
    · refine .busy i q ?_ same (others.step hdid hforeign he)
        (under.step hs hmine others hforeign he ha)
      obtain ⟨-, hsame⟩ | ⟨_, _, _, -, hbegun⟩ | ⟨j, r, stage, hadv, -, -, hset⟩ :=
        requests_effect he
      · rw [hsame]
        exact at_
      · rw [hbegun, List.getElem?_append_left (List.getElem?_eq_some_iff.mp at_).1]
        exact at_
      · rw [hset, List.getElem?_set_ne, at_]
        rintro rfl
        exact ha hadv

/-! ## The answer -/

omit [DecidableEq Digest] in
theorem Chain.answered {i : Nat} (h : Chain hashToken did s token (some i)) {q : RefreshRequest}
    {pair : RefreshToken} {role : String} (hq : s.requests[i]? = some q)
    (hstage : q.stage = .answered pair role) :
    pair.did = token.did ∧ Chain hashToken did s pair none := by
  cases h with
  | busy _ q' at_ same others under =>
    obtain rfl := Option.some.inj (hq.symm.trans at_)
    rw [Under, hstage] at under
    obtain ⟨hpdid, ⟨id, hin⟩, hnone⟩ := under
    refine ⟨by rw [hpdid, same], .idle id hin fun j r hr _ => ⟨fun hmine => ?_, fun hpair => ?_⟩⟩
    · by_cases hij : i = j
      · subst i
        obtain rfl := Option.some.inj (hq.symm.trans hr)
        rw [hstage]
        rfl
      · exact (others j r hr (by simpa using hij)).1 hmine
    · exact absurd hpair (hnone r (List.mem_of_getElem? hr))

omit [DecidableEq Digest] in
theorem Chain.refused {i : Nat} (h : Chain hashToken did s token (some i)) {q : RefreshRequest}
    {e : HttpError} (hq : s.requests[i]? = some q) (hstage : q.stage = .refused e) :
    Chain hashToken did s token none := by
  cases h with
  | busy _ q' at_ same others under =>
    obtain rfl := Option.some.inj (hq.symm.trans at_)
    rw [Under, hstage, same] at under
    obtain ⟨id, hin⟩ := under
    refine .idle id hin fun j r hr _ => ?_
    by_cases hij : i = j
    · subst i
      obtain rfl := Option.some.inj (hq.symm.trans hr)
      exact ⟨fun _ => by rw [hstage]; rfl, fun _ => ⟨e, hstage⟩⟩
    · exact others j r hr (by simpa using hij)

end AuthTables

end ZiaCrypte.Server
