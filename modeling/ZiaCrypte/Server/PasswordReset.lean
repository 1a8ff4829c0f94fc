import ZiaCrypte.Server.TwoFactor
import ZiaCrypte.Server.RefreshTokens
import Mathlib.Algebra.Ring.Nat

/-!
# `POST /auth/password-reset`, statement by statement

A request compares its token with the row it has read, hashes the new password, and writes it
in a transaction that does not look at the token again. What the transaction writes is locked,
and seen by others when it commits. `createHash('sha256')` and `argon2.hash` are parameters.
-/
namespace ZiaCrypte.Server

open ZiaCrypte.Lib

/-- The columns of the account that the routes look at. -/
structure ResetAccount (Digest : Type) where
  id : Uuid
  username : Chars
  deletedAt : Option Nat
  passwordHash : Option String
  resetTokenHash : Option Digest
  resetExpiresAt : Option Nat
  deriving DecidableEq

/-- What the transaction writes of the account. -/
def ResetAccount.reset {Digest : Type} (passwordHash : String) (user : ResetAccount Digest) :
    ResetAccount Digest :=
  { user with passwordHash := some passwordHash, resetTokenHash := none, resetExpiresAt := none }

structure ResetBody where
  username : Chars
  token : Chars
  newPassword : Chars
  deriving DecidableEq

/-- The statement a request is at. Its transaction has written the account from `sessions` on. -/
inductive ResetStage where
  | find
  | hash
  | update (passwordHash : String)
  | sessions (passwordHash : String)
  | commit (passwordHash : String) (revoked : List Uuid) (now : Nat)
  | answered
  | refused (e : HttpError)
  deriving DecidableEq

/-- The row of the account is locked by the transaction. -/
def ResetStage.holdsLock : ResetStage → Bool
  | .sessions _ => true
  | .commit _ _ _ => true
  | _ => false

/-- The transaction is next. -/
def ResetStage.isUpdate : ResetStage → Bool
  | .update _ => true
  | _ => false

/-- The token of the request was compared, and let through. -/
def ResetStage.checked : ResetStage → Bool
  | .find => false
  | .refused _ => false
  | _ => true

structure ResetRequest where
  body : ResetBody
  stage : ResetStage
  deriving DecidableEq

/-- One account with its sessions, the requests for it in the order they began, and the
digests of the tokens issued for it, one entry for each time. -/
structure PasswordReset (Digest : Type) where
  account : Option (ResetAccount Digest)
  sessions : List (AuthSession Digest)
  requests : List ResetRequest
  issued : List Digest

inductive ResetStatement where
  /-- `user.update` of `POST /admin/users/:id/password-reset`. -/
  | issue (jeton : Chars) (now : Nat)
  /-- `user.delete` of `DELETE /admin/users/:id`. -/
  | delete
  | reset (body : ResetBody)
  | find (request now : Nat)
  | hash (request : Nat) (passwordHash : String)
  | update (request : Nat)
  | revokeSessions (request now : Nat)
  | commit (request : Nat)

/-- `length` of a string, in UTF-16 code units. -/
def codeUnits (s : Chars) : Nat := (s.map fun c => if c.toNat < 0x10000 then 1 else 2).sum

def ResetBody.parses (body : ResetBody) : Bool :=
  1 ≤ codeUnits body.username && 20 ≤ codeUnits body.token &&
    12 ≤ codeUnits body.newPassword && codeUnits body.newPassword ≤ 200

def DUREE_JETON_MINUTES : Nat := 30

def jetonInvalide : HttpError := ⟨400, "jeton invalide ou expiré — demande-en un nouveau"⟩

namespace PasswordReset

variable {Digest : Type} [DecidableEq Digest] (sha256 : Chars → Digest)

def start (id : Uuid) (username : Chars) (passwordHash : Option String)
    (sessions : List (AuthSession Digest)) : PasswordReset Digest :=
  ⟨some ⟨id, username, none, passwordHash, none, none⟩, sessions, [], []⟩

/-- Does the row that was read let the token through? -/
def accepts (body : ResetBody) (now : Nat) (user : ResetAccount Digest) : Bool :=
  user.deletedAt == none && user.resetTokenHash == some (sha256 body.token) &&
    user.resetExpiresAt.any (now ≤ ·)

def locked (s : PasswordReset Digest) : Bool := s.requests.any (·.stage.holdsLock)

def setStage (s : PasswordReset Digest) (i : Nat) (r : ResetRequest) (stage : ResetStage) :
    PasswordReset Digest :=
  { s with requests := s.requests.set i { r with stage := stage } }

/-- What waits for the lock, or comes out of turn, is no step. -/
def step : ResetStatement → PasswordReset Digest → Option (PasswordReset Digest)
  | .issue jeton now, s =>
      match s.account with
      | none => none
      | some user =>
          if s.locked then none
          else some { s with
            account := some { user with
              resetTokenHash := some (sha256 jeton)
              resetExpiresAt := some (now + DUREE_JETON_MINUTES * 60 * 1000) }
            issued := sha256 jeton :: s.issued }
  | .delete, s => if s.locked then none else some { s with account := none, sessions := [] }
  | .reset body, s => some { s with
      requests := s.requests ++ [⟨body, if body.parses then .find else .refused invalidRequest⟩] }
  | .find i now, s => do
      let r ← s.requests[i]?
      if r.stage = .find then
        -- The account is looked up by its name.
        some (s.setStage i r (match s.account.filter (·.username = r.body.username) with
          | none => .refused jetonInvalide
          | some user => if accepts sha256 r.body now user then .hash else .refused jetonInvalide))
      else none
  | .hash i passwordHash, s => do
      let r ← s.requests[i]?
      if r.stage = .hash then some (s.setStage i r (.update passwordHash)) else none
  | .update i, s => do
      let r ← s.requests[i]?
      match r.stage with
      | .update passwordHash =>
          if s.locked then none
          else some (s.setStage i r (match s.account with
            | none => .refused ⟨500, "erreur interne"⟩
            | some _ => .sessions passwordHash))
      | _ => none
  | .revokeSessions i now, s => do
      let r ← s.requests[i]?
      match r.stage with
      | .sessions passwordHash => some (s.setStage i r (.commit passwordHash
          ((s.sessions.filter fun x => x.revokedAt == none).map (·.id)) now))
      | _ => none
  | .commit i, s => do
      let r ← s.requests[i]?
      match r.stage with
      | .commit passwordHash revoked now => some { s with
          account := s.account.map (·.reset passwordHash)
          sessions := AuthTables.revoke s.sessions revoked now
          requests := s.requests.set i { r with stage := .answered } }
      | _ => none

/-! ## What is to hold, and when it does -/

/-- How often a token has changed the password. -/
def changes (s : PasswordReset Digest) (d : Digest) : Nat :=
  s.requests.countP fun r => sha256 r.body.token == d && r.stage == .answered

/-- How often a token was issued. -/
def issues (s : PasswordReset Digest) (d : Digest) : Nat := s.issued.count d

/-- A transaction that writes the account finds the token of its request in the row still. -/
def TokenStill : ResetStatement → PasswordReset Digest → Prop
  | .update i, s => ∀ r ∈ s.requests[i]?, r.stage.isUpdate = true → ∀ user ∈ s.account,
      user.resetTokenHash = some (sha256 r.body.token)
  | _, _ => True

instance (a : ResetStatement) (s : PasswordReset Digest) : Decidable (TokenStill sha256 a s) := by
  unfold TokenStill
  split <;> infer_instance

/-! ## What a statement does -/

variable {sha256} {s t : PasswordReset Digest} {a : ResetStatement}

theorem step_cases (h : step sha256 a s = some t) :
    (∃ user d expires, s.account = some user ∧ s.locked = false ∧ t = { s with
      account := some { user with resetTokenHash := some d, resetExpiresAt := expires }
      issued := d :: s.issued }) ∨
    (s.locked = false ∧ t = { s with account := none, sessions := [] }) ∨
    (∃ r : ResetRequest, r.stage.checked = false ∧
      t = { s with requests := s.requests ++ [r] }) ∨
    (∃ i r stage, s.requests[i]? = some r ∧ t = s.setStage i r stage ∧
      r.stage ≠ .answered ∧ stage ≠ .answered ∧
      (stage.checked = true → r.stage.checked = true ∨
        ∃ user ∈ s.account, user.resetTokenHash = some (sha256 r.body.token)) ∧
      (stage.holdsLock = true → r.stage.holdsLock = true ∨ s.locked = false ∧
        a = .update i ∧ (∃ passwordHash, r.stage = .update passwordHash) ∧
          ∃ user, s.account = some user)) ∨
    (∃ i r passwordHash revoked now, s.requests[i]? = some r ∧
      r.stage = .commit passwordHash revoked now ∧ t = { s with
        account := s.account.map (·.reset passwordHash)
        sessions := AuthTables.revoke s.sessions revoked now
        requests := s.requests.set i { r with stage := .answered } }) := by
  cases a with
  | issue jeton now =>
    simp only [step] at h
    split at h
    · cases h
    · rename_i user huser
      split at h
      · cases h
      · rename_i hfree
        exact .inl ⟨user, _, _, huser, eq_false_of_ne_true hfree, (Option.some.inj h).symm⟩
  | delete =>
    simp only [step] at h
    split at h
    · cases h
    · rename_i hfree
      exact .inr (.inl ⟨eq_false_of_ne_true hfree, (Option.some.inj h).symm⟩)
  | reset body =>
    refine .inr (.inr (.inl ⟨_, ?_, (Option.some.inj h).symm⟩))
    dsimp only
    split <;> rfl
  | find i now =>
    obtain ⟨r, hr, h⟩ := Option.bind_eq_some_iff.mp h
    split at h
    · rename_i hstage
      refine .inr (.inr (.inr (.inl ⟨i, r, _, hr, (Option.some.inj h).symm, by simp [hstage], ?_⟩)))
      split
      · exact ⟨by simp, fun h => (by cases h), fun h => (by cases h)⟩
      · rename_i user huser
        obtain ⟨huser, -⟩ := Option.filter_eq_some_iff.mp huser
        split
        · rename_i haccepts
          simp only [accepts, Bool.and_eq_true, beq_iff_eq] at haccepts
          exact ⟨by simp, fun _ => .inr ⟨user, huser, haccepts.1.2⟩, fun h => (by cases h)⟩
        · exact ⟨by simp, fun h => (by cases h), fun h => (by cases h)⟩
    · cases h
  | hash i passwordHash =>
    obtain ⟨r, hr, h⟩ := Option.bind_eq_some_iff.mp h
    split at h
    · rename_i hstage
      exact .inr (.inr (.inr (.inl ⟨i, r, _, hr, (Option.some.inj h).symm, by simp [hstage],
        by simp, fun _ => .inl (by rw [hstage]; rfl), fun h => (by cases h)⟩)))
    · cases h
  | update i =>
    obtain ⟨r, hr, h⟩ := Option.bind_eq_some_iff.mp h
    split at h
    · rename_i passwordHash hstage
      split at h
      · cases h
      · rename_i hfree
        refine .inr (.inr (.inr (.inl ⟨i, r, _, hr, (Option.some.inj h).symm, by simp [hstage], ?_,
          fun _ => .inl (by rw [hstage]; rfl), ?_⟩)))
        · split <;> simp
        · split
          · exact fun h => (by cases h)
          · rename_i user huser
            exact fun _ => .inr ⟨eq_false_of_ne_true hfree, rfl, ⟨_, hstage⟩, user, huser⟩
    · cases h
  | revokeSessions i now =>
    obtain ⟨r, hr, h⟩ := Option.bind_eq_some_iff.mp h
    split at h
    · rename_i passwordHash hstage
      exact .inr (.inr (.inr (.inl ⟨i, r, _, hr, (Option.some.inj h).symm, by simp [hstage],
        by simp, fun _ => .inl (by rw [hstage]; rfl), fun _ => .inl (by rw [hstage]; rfl)⟩)))
    · cases h
  | commit i =>
    obtain ⟨r, hr, h⟩ := Option.bind_eq_some_iff.mp h
    split at h
    · rename_i passwordHash revoked now hstage
      exact .inr (.inr (.inr (.inr ⟨i, r, passwordHash, revoked, now, hr, hstage,
        (Option.some.inj h).symm⟩)))
    · cases h

/-! ## What every statement keeps -/

variable (sha256) in
structure Kept (s : PasswordReset Digest) : Prop where
  /-- A token in the row, or one that was let through, was issued. -/
  row : ∀ user ∈ s.account, ∀ d, user.resetTokenHash = some d → d ∈ s.issued
  checked : ∀ r ∈ s.requests, r.stage.checked = true → sha256 r.body.token ∈ s.issued
  /-- A token that was used is in the row only where it was issued again. -/
  used : ∀ r ∈ s.requests, r.stage = .answered → ∀ user ∈ s.account,
    user.resetTokenHash = some (sha256 r.body.token) → 2 ≤ s.issued.count (sha256 r.body.token)

theorem kept_start (id : Uuid) (username : Chars) (passwordHash : Option String)
    (sessions : List (AuthSession Digest)) :
    Kept sha256 (start id username passwordHash sessions) where
  row user huser d hd := by
    obtain rfl := Option.some.inj huser
    cases hd
  checked r hr := by cases hr
  used r hr := by cases hr

theorem kept_step (hs : Kept sha256 s) (h : step sha256 a s = some t) : Kept sha256 t := by
  rcases step_cases h with ⟨user, d, expires, huser, -, rfl⟩ | ⟨-, rfl⟩ | ⟨r, hr, rfl⟩ |
    ⟨i, r, stage, hr, rfl, -, hopen, hchecked, -⟩ | ⟨i, r, passwordHash, revoked, now, hr, hstage, rfl⟩
  · refine ⟨fun u hu d' hd' => ?_, fun r hr hchecked =>
      List.mem_cons_of_mem _ (hs.checked r hr hchecked), fun r hr hdone u hu hrow => ?_⟩
    · obtain rfl := Option.some.inj hu
      obtain rfl := Option.some.inj hd'
      exact List.mem_cons_self
    · obtain rfl := Option.some.inj hu
      obtain rfl := Option.some.inj hrow
      have hbefore := hs.checked r hr (by rw [hdone]; rfl)
      rw [List.count_cons_self]
      exact Nat.succ_le_succ (List.count_pos_iff.mpr hbefore)
  · exact ⟨fun u hu => (by cases hu), hs.checked, fun r hr hdone u hu => (by cases hu)⟩
  · refine ⟨hs.row, fun r' hr' hchecked => ?_, fun r' hr' hdone => ?_⟩
    · rcases mem_concat_cases hr' with hold | rfl
      · exact hs.checked r' hold hchecked
      · rw [hr] at hchecked
        cases hchecked
    · rcases mem_concat_cases hr' with hold | rfl
      · exact hs.used r' hold hdone
      · rw [hdone] at hr
        cases hr
  · have hmem := List.mem_of_getElem? hr
    refine ⟨hs.row, fun r' hr' hnow => ?_, fun r' hr' hdone => ?_⟩
    · rcases mem_set_cases hr' with hold | rfl
      · exact hs.checked r' hold hnow
      · rcases hchecked hnow with hwas | ⟨user, huser, hrow⟩
        · exact hs.checked r hmem hwas
        · exact hs.row user huser _ hrow
    · rcases mem_set_cases hr' with hold | rfl
      · exact hs.used r' hold hdone
      · exact absurd hdone hopen
  · have hmem := List.mem_of_getElem? hr
    have hcleared : ∀ user ∈ s.account.map (·.reset passwordHash), user.resetTokenHash = none := by
      intro user huser
      obtain ⟨u, -, rfl⟩ := Option.map_eq_some_iff.mp huser
      rfl
    refine ⟨fun u hu d hd => ?_, fun r' hr' hnow => ?_, fun r' hr' hdone u hu hrow => ?_⟩
    · rw [hcleared u hu] at hd
      cases hd
    · rcases mem_set_cases hr' with hold | rfl
      · exact hs.checked r' hold hnow
      · exact hs.checked r hmem (by rw [hstage]; rfl)
    · rw [hcleared u hu] at hrow
      cases hrow

/-! ## One change for one token -/

variable (sha256)

/-- One more change of the password is possible with a token that is in the row. -/
def inForce (s : PasswordReset Digest) (d : Digest) : Nat :=
  if ∃ user ∈ s.account, user.resetTokenHash = some d then 1 else 0

structure Once (s : PasswordReset Digest) : Prop where
  within : ∀ d, s.changes sha256 d + s.inForce d ≤ s.issued.count d
  /-- Who has the lock found the token of its request in the row, and is alone. -/
  held : ∀ r ∈ s.requests, r.stage.holdsLock = true →
    ∃ user ∈ s.account, user.resetTokenHash = some (sha256 r.body.token)
  alone : s.requests.countP (·.stage.holdsLock) ≤ 1

variable {sha256}

theorem once_start (id : Uuid) (username : Chars) (passwordHash : Option String)
    (sessions : List (AuthSession Digest)) :
    Once sha256 (start id username passwordHash sessions) where
  within d := by simp [start, changes, inForce]
  held r hr := by cases hr
  alone := Nat.zero_le 1

/-- The requests that have changed the password stay, and one that goes on without a commit
changes nothing. -/
theorem changes_setStage {i : Nat} {r : ResetRequest} {stage : ResetStage}
    (hr : s.requests[i]? = some r) (hstage : r.stage ≠ .answered) (hopen : stage ≠ .answered)
    (d : Digest) : (s.setStage i r stage).changes sha256 d = s.changes sha256 d := by
  obtain ⟨hlt, rfl⟩ := List.getElem?_eq_some_iff.mp hr
  unfold changes setStage
  dsimp only
  rw [List.countP_set hlt]
  simp [hstage, hopen]

theorem changes_commit {i : Nat} {r : ResetRequest} (hr : s.requests[i]? = some r)
    (hstage : r.stage ≠ .answered) (d : Digest) :
    (s.requests.set i { r with stage := .answered }).countP
        (fun r => sha256 r.body.token == d && r.stage == .answered) =
      s.changes sha256 d + if sha256 r.body.token = d then 1 else 0 := by
  obtain ⟨hlt, rfl⟩ := List.getElem?_eq_some_iff.mp hr
  unfold changes
  rw [List.countP_set hlt]
  simp [hstage]

omit [DecidableEq Digest] in
theorem locked_iff : s.locked = true ↔ 0 < s.requests.countP (·.stage.holdsLock) := by
  rw [locked, List.any_eq_true, List.countP_pos_iff]

theorem inForce_of_row {user : ResetAccount Digest} {d : Digest} (huser : s.account = some user)
    (hd : user.resetTokenHash = some d) (d' : Digest) :
    s.inForce d' = if d = d' then 1 else 0 := by
  unfold inForce
  refine if_congr ⟨?_, ?_⟩ rfl rfl
  · rintro ⟨u, hu, hrow⟩
    obtain rfl := Option.some.inj (huser.symm.trans hu)
    exact Option.some.inj (hd.symm.trans hrow)
  · rintro rfl
    exact ⟨user, huser, hd⟩

theorem inForce_eq_zero {d : Digest} (h : ∀ user ∈ s.account, user.resetTokenHash ≠ some d) :
    s.inForce d = 0 :=
  if_neg fun ⟨user, huser, hrow⟩ => h user huser hrow

omit [DecidableEq Digest] in
/-- No transaction holds the lock. -/
theorem not_holdsLock (hfree : s.locked = false) : ∀ r ∈ s.requests, r.stage.holdsLock = false := by
  intro r hr
  rw [locked, List.any_eq_false] at hfree
  exact eq_false_of_ne_true (hfree r hr)

theorem once_step (hs : Once sha256 s) (hstill : TokenStill sha256 a s)
    (h : step sha256 a s = some t) : Once sha256 t := by
  rcases step_cases h with ⟨user, d, expires, huser, hfree, rfl⟩ | ⟨hfree, rfl⟩ | ⟨r, hr, rfl⟩ |
    ⟨i, r, stage, hr, rfl, hstage, hopen, -, hlock⟩ |
    ⟨i, r, passwordHash, revoked, now, hr, hstage, rfl⟩
  · -- A new token takes the place of the one in the row.
    refine ⟨fun d' => ?_, fun r hr hholds => ?_, hs.alone⟩
    · have hbefore := hs.within d'
      rw [inForce_of_row rfl rfl d', List.count_cons]
      show s.changes sha256 d' + _ ≤ _
      by_cases hd : d = d'
      · simp only [hd, if_true, beq_self_eq_true]
        omega
      · simp only [hd, if_false, beq_iff_eq]
        omega
    · rw [not_holdsLock hfree r hr] at hholds
      cases hholds
  · refine ⟨fun d => ?_, fun r hr hholds => ?_, hs.alone⟩
    · have hbefore := hs.within d
      rw [inForce_eq_zero fun user huser => (by cases huser)]
      exact Nat.le_trans (Nat.le_add_right _ _) hbefore
    · rw [not_holdsLock hfree r hr] at hholds
      cases hholds
  · have hholds : r.stage.holdsLock = false := by
      cases hcase : r.stage <;> rw [hcase] at hr <;> first | rfl | cases hr
    have hanswered : (r.stage == .answered) = false := by
      rw [beq_eq_false_iff_ne]
      intro hanswered
      rw [hanswered] at hr
      cases hr
    refine ⟨fun d => ?_, fun r' hr' h' => ?_, ?_⟩
    · have hbefore := hs.within d
      have hsame : changes sha256 { s with requests := s.requests ++ [r] } d =
          s.changes sha256 d := by
        simp [changes, List.countP_append, hanswered]
      rw [hsame]
      exact hbefore
    · rcases mem_concat_cases hr' with hold | rfl
      · exact hs.held r' hold h'
      · rw [hholds] at h'
        cases h'
    · rw [List.countP_append, List.countP_singleton, hholds]
      exact hs.alone
  · have hmem := List.mem_of_getElem? hr
    obtain ⟨hlt, hget⟩ := List.getElem?_eq_some_iff.mp hr
    have hheld : stage.holdsLock = true →
        ∃ user ∈ s.account, user.resetTokenHash = some (sha256 r.body.token) := by
      intro hholds
      rcases hlock hholds with hwas | ⟨-, rfl, ⟨passwordHash, hupdate⟩, user, huser⟩
      · exact hs.held r hmem hwas
      · exact ⟨user, huser, hstill r hr (by rw [hupdate]; rfl) user huser⟩
    refine ⟨fun d => ?_, fun r' hr' hholds => ?_, ?_⟩
    · rw [changes_setStage hr hstage hopen]
      exact hs.within d
    · rcases mem_set_cases hr' with hold | rfl
      · exact hs.held r' hold hholds
      · exact hheld hholds
    · show (s.requests.set i _).countP _ ≤ 1
      rw [List.countP_set hlt, hget]
      have halone := hs.alone
      by_cases hholds : stage.holdsLock = true
      · rcases hlock hholds with hwas | ⟨hfree, -⟩
        · simp only [hwas, hholds, if_true]
          omega
        · have hnone : ¬ 0 < s.requests.countP (·.stage.holdsLock) := fun hpos => by
            rw [locked_iff.mpr hpos] at hfree
            cases hfree
          simp only [hholds, if_true]
          omega
      · rw [eq_false_of_ne_true hholds]
        simp only [Bool.false_eq_true, if_false]
        omega
  · have hmem := List.mem_of_getElem? hr
    obtain ⟨hlt, hget⟩ := List.getElem?_eq_some_iff.mp hr
    have hholds : r.stage.holdsLock = true := by rw [hstage]; rfl
    have hcount : (s.requests.set i { r with stage := .answered }).countP
        (·.stage.holdsLock) = 0 := by
      rw [List.countP_set hlt, hget]
      have halone := hs.alone
      have hnone : (ResetStage.answered).holdsLock = false := rfl
      simp only [hholds, hnone, if_true, Bool.false_eq_true, if_false]
      omega
    obtain ⟨user, huser, hrow⟩ := hs.held r hmem hholds
    refine ⟨fun d => ?_, fun r' hr' hholds' => ?_, ?_⟩
    · -- The token of the request leaves the row as it changes the password.
      have hbefore := hs.within d
      rw [inForce_of_row huser hrow] at hbefore
      have hafter : inForce { s with
          account := s.account.map (·.reset passwordHash)
          sessions := AuthTables.revoke s.sessions revoked now
          requests := s.requests.set i { r with stage := .answered } } d = 0 := by
        refine inForce_eq_zero fun u hu => ?_
        obtain ⟨v, -, rfl⟩ := Option.map_eq_some_iff.mp hu
        exact fun h => (by cases h)
      rw [hafter, changes]
      dsimp only
      rw [changes_commit hr (by rw [hstage]; exact fun h => (by cases h))]
      exact hbefore
    · have hpos : 0 < (s.requests.set i { r with stage := .answered }).countP
          (·.stage.holdsLock) := List.countP_pos_iff.mpr ⟨r', hr', hholds'⟩
      omega
    · rw [hcount]
      exact Nat.zero_le 1

/-! ## A token that was used -/

variable (sha256) in
/-- Of a token that was issued once and used, no later request changes the password. -/
structure Late (n : Nat) (d : Digest) (s : PasswordReset Digest) : Prop where
  kept : Kept sha256 s
  used : ∃ r ∈ s.requests, sha256 r.body.token = d ∧ r.stage = .answered
  from_le : n ≤ s.requests.length
  turnedAway : s.issued.count d ≤ 1 → ∀ i r, n ≤ i → s.requests[i]? = some r →
    sha256 r.body.token = d → r.stage.checked = false

/-- The row has not the token that was issued once and used. -/
theorem Late.row {n : Nat} {d : Digest} (hs : Late sha256 n d s) (honce : s.issued.count d ≤ 1)
    (user : ResetAccount Digest) (huser : user ∈ s.account) : user.resetTokenHash ≠ some d := by
  intro hrow
  obtain ⟨r, hr, rfl, hdone⟩ := hs.used
  have htwice := hs.kept.used r hr hdone user huser hrow
  omega

theorem late_step {n : Nat} {d : Digest} (hs : Late sha256 n d s)
    (h : step sha256 a s = some t) : Late sha256 n d t := by
  have hkept := kept_step hs.kept h
  obtain ⟨r₀, hr₀, hd₀, hdone₀⟩ := hs.used
  rcases step_cases h with ⟨user, d', expires, huser, -, rfl⟩ | ⟨-, rfl⟩ | ⟨r, hr, rfl⟩ |
    ⟨i, r, stage, hr, rfl, hstage, hopen, hchecked, -⟩ |
    ⟨i, r, passwordHash, revoked, now, hr, hstage, rfl⟩
  · refine ⟨hkept, hs.used, hs.from_le, fun honce => hs.turnedAway ?_⟩
    rw [List.count_cons] at honce
    omega
  · exact ⟨hkept, hs.used, hs.from_le, hs.turnedAway⟩
  · refine ⟨hkept, ⟨r₀, List.mem_append_left _ hr₀, hd₀, hdone₀⟩, ?_, fun honce j r' hj hr' hd => ?_⟩
    · have hlength := hs.from_le
      rw [List.length_append]
      omega
    · rcases getElem?_concat_cases hr' with hold | ⟨-, rfl⟩
      · exact hs.turnedAway honce j r' hj hold hd
      · exact hr
  · obtain ⟨hlt, hget⟩ := List.getElem?_eq_some_iff.mp hr
    refine ⟨hkept, ⟨r₀, ?_, hd₀, hdone₀⟩, ?_, fun honce j r' hj hr' hd => ?_⟩
    · rcases mem_set_of_mem (b := { r with stage := stage }) hr hr₀ with rfl | hstill
      · exact absurd hdone₀ hstage
      · exact hstill
    · show n ≤ (s.requests.set i _).length
      rw [List.length_set]
      exact hs.from_le
    · by_cases hij : i = j
      · subst hij
        obtain rfl : { r with stage := stage } = r' := by
          have hset := hr'
          rw [setStage, List.getElem?_set_self hlt] at hset
          exact Option.some.inj hset
        by_contra hnow
        rcases hchecked (eq_true_of_ne_false hnow) with hwas | ⟨user, huser, hrow⟩
        · rw [hs.turnedAway honce i r hj hr hd] at hwas
          cases hwas
        · rw [show sha256 r.body.token = d from hd] at hrow
          exact hs.row honce user huser hrow
      · rw [setStage, List.getElem?_set_ne hij] at hr'
        exact hs.turnedAway honce j r' hj hr' hd
  · obtain ⟨hlt, hget⟩ := List.getElem?_eq_some_iff.mp hr
    refine ⟨hkept, ⟨r₀, ?_, hd₀, hdone₀⟩, ?_, fun honce j r' hj hr' hd => ?_⟩
    · rcases mem_set_of_mem (b := { r with stage := .answered }) hr hr₀ with rfl | hstill
      · rw [hstage] at hdone₀
        cases hdone₀
      · exact hstill
    · show n ≤ (s.requests.set i _).length
      rw [List.length_set]
      exact hs.from_le
    · by_cases hij : i = j
      · subst hij
        obtain rfl : { r with stage := .answered } = r' := by
          rw [List.getElem?_set_self hlt] at hr'
          exact Option.some.inj hr'
        have hearly := hs.turnedAway honce i r hj hr hd
        rw [hstage] at hearly
        cases hearly
      · rw [List.getElem?_set_ne hij] at hr'
        exact hs.turnedAway honce j r' hj hr' hd

/-! ## Whole runs -/

/-- Where every transaction finds the token of its request in the row still, the password is
changed no more often with a token than it was issued. In any run, a request that presents a
token that was issued once, when another has completed with it, does not succeed. -/
theorem resetToken_once (sha256 : Chars → Digest) (id : Uuid) (username : Chars)
    (passwordHash : Option String) (sessions : List (AuthSession Digest))
    (statements : List ResetStatement) (s : PasswordReset Digest)
    (hrun : run (step sha256) statements (start id username passwordHash sessions) = some s) :
    (Always (step sha256) (TokenStill sha256) statements
        (start id username passwordHash sessions) →
      ∀ d, s.changes sha256 d ≤ s.issues d) ∧
    ∀ later t, run (step sha256) later s = some t → ∀ d, t.issues d ≤ 1 →
      (∃ r ∈ s.requests, sha256 r.body.token = d ∧ r.stage = .answered) →
        ∀ i r, s.requests.length ≤ i → t.requests[i]? = some r → sha256 r.body.token = d →
          r.stage ≠ .answered := by
  refine ⟨fun hstill d => ?_, fun later t hlater d honce hused i r hi hr hd hdone => ?_⟩
  · have hend : Once sha256 s := run_invariant_of_always (Once sha256)
      (fun a s t hs ha ht => once_step hs ha ht) (once_start id username passwordHash sessions)
      hstill hrun
    exact Nat.le_trans (Nat.le_add_right _ _) (hend.within d)
  · have hkept : Kept sha256 s := run_invariant (fun a s t hs ht => kept_step hs ht)
      (kept_start id username passwordHash sessions) hrun
    have hstart : Late sha256 s.requests.length d s := by
      refine ⟨hkept, hused, Nat.le_refl _, fun _ j r hj hr => ?_⟩
      rw [List.getElem?_eq_none hj] at hr
      cases hr
    have hend : Late sha256 s.requests.length d t :=
      run_invariant (fun a s t hs ht => late_step hs ht) hstart hlater
    have hearly := hend.turnedAway honce i r hi hr hd
    rw [hdone] at hearly
    cases hearly

def aliceReset (newPassword : String) : ResetBody :=
  ⟨"alice".toList, "jeton-de-vingt-caracteres".toList, newPassword.toList⟩

def issueToAlice : ResetStatement := .issue "jeton-de-vingt-caracteres".toList 0

/-- A token is used, and presented again when that is done. -/
def usedThenPresented : List ResetStatement × List ResetStatement :=
  ([issueToAlice, .reset (aliceReset "nouveau-mot-de-passe"), .find 0 1, .hash 0 "h1", .update 0,
    .revokeSessions 0 2, .commit 0], [.reset (aliceReset "encore-un-autre-mot"), .find 1 3])

theorem usedThenPresented_once : ∃ s t : PasswordReset Chars,
    run (step id) usedThenPresented.1 (start 1 "alice".toList none []) = some s ∧
    run (step id) usedThenPresented.2 s = some t ∧ s.changes id (aliceReset "").token = 1 ∧
    (∀ d, s.changes id d ≤ s.issues d) ∧
    ∀ r, t.requests[1]? = some r → r.body.token = (aliceReset "").token → r.stage ≠ .answered := by
  obtain ⟨s, hs⟩ : ∃ s : PasswordReset Chars,
      run (step id) usedThenPresented.1 (start 1 "alice".toList none []) = some s := ⟨_, rfl⟩
  obtain ⟨t, ht⟩ : ∃ t : PasswordReset Chars, run (step id) usedThenPresented.2 s = some t := by
    obtain rfl := Option.some.inj hs
    exact ⟨_, rfl⟩
  have hlength : s.requests.length = 1 := by
    obtain rfl := Option.some.inj hs
    rfl
  have honce := resetToken_once id 1 "alice".toList none [] usedThenPresented.1 s hs
  refine ⟨s, t, hs, ht, ?_, honce.1 (by decide), fun r hr hd => ?_⟩
  · obtain rfl := Option.some.inj hs
    decide
  · refine honce.2 _ t ht (aliceReset "").token ?_ ?_ 1 r (Nat.le_of_eq hlength) hr hd
    · obtain rfl := Option.some.inj hs
      obtain rfl := Option.some.inj ht
      decide
    · obtain rfl := Option.some.inj hs
      decide

/-- Two requests have had the token let through before the first of them uses it. -/
def twoResets : List ResetStatement :=
  [issueToAlice, .reset (aliceReset "celui-du-titulaire"), .reset (aliceReset "celui-d-un-autre"),
    .find 0 1, .find 1 1, .hash 0 "titulaire", .hash 1 "autre", .update 0, .revokeSessions 0 2,
    .commit 0, .update 1, .revokeSessions 1 3, .commit 1]

/-- The second of them changes the password that the first one has set. -/
theorem twoResets_bothChange :
    (run (step id) twoResets (start 1 "alice".toList none [])).map (fun s =>
      (s.changes id (aliceReset "").token, s.issues (aliceReset "").token,
        s.account.map (·.passwordHash))) = some (2, 1, some (some "autre")) := by
  decide

end PasswordReset

end ZiaCrypte.Server
