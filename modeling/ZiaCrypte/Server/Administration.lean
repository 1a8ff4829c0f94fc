import ZiaCrypte.Server.AccountDeletion
import ZiaCrypte.Server.PasswordReset

/-!
# Administration

The routes that delete an account, those of `admin.routes.ts` and
`reports.routes.ts` that write, and the script that gives the role of
administrator. A call is at the statement it awaits next; the calls, and the
statements of every other route, take their turns in any order.
-/
namespace ZiaCrypte.Server

open ZiaCrypte.Lib

def Row.user? : Row → Option Rows.User
  | .user r => some r
  | _ => none

def Row.device? : Row → Option Device
  | .device r => some r
  | _ => none

def Row.adminAction? : Row → Option Rows.AdminAction
  | .adminAction r => some r
  | _ => none

def Row.report? : Row → Option Rows.Report
  | .report r => some r
  | _ => none

section

variable (db : List Row)

def usersOf : List Rows.User := db.filterMap Row.user?

def devicesOf : List Device := db.filterMap Row.device?

def adminActionsOf : List Rows.AdminAction := db.filterMap Row.adminAction?

def reportsOf : List Rows.Report := db.filterMap Row.report?

def findUser (id : Uuid) : Option Rows.User := (usersOf db).find? (·.id == id)

def findUsername (username : Chars) : Option Rows.User :=
  (usersOf db).find? (·.username == username)

def findReport (id : Uuid) : Option Rows.Report := (reportsOf db).find? (·.id == id)

end

/-- The accounts, the journal and the reports. -/
def RowKey.kept : RowKey → Bool
  | .user _ => true
  | .adminAction _ => true
  | .report _ => true
  | _ => false

def MOTIFS : List Chars :=
  ["spam", "harcelement", "contenu_illegal", "arnaque", "autre"].map String.toList

/-- The body of `POST /reports`. -/
structure ReportBody where
  reportedUsername : Chars
  reason : Chars
  note : Option Chars
  content : Option Chars
  context : Option Chars

def ReportBody.parses (body : ReportBody) : Bool :=
  1 ≤ codeUnits body.reportedUsername && codeUnits body.reportedUsername ≤ 120 &&
    MOTIFS.contains body.reason && body.note.all (codeUnits · ≤ 2000) &&
    body.content.all (codeUnits · ≤ 20000) && body.context.all (codeUnits · ≤ 4000)

/-- What an administrator asks. -/
inductive AdminRequest where
  | deleteUser (id : Uuid) (reason : Option Chars)
  | passwordReset (id : Uuid) (reason : Option Chars)
  | resolve (id : Uuid) (status : ReportStatus) (resolution : Option Chars)

def AdminRequest.parses : AdminRequest → Bool
  | .deleteUser _ reason => reason.any fun r => 3 ≤ codeUnits r && codeUnits r ≤ 500
  | .passwordReset _ reason => reason.all (codeUnits · ≤ 500)
  | .resolve _ status resolution => status ≠ .open && resolution.all (codeUnits · ≤ 2000)

/-- What is asked, with `request.auth.userId` and the header `x-admin-totp`. -/
inductive Ask where
  | deleteMe (me : Uuid) (password : String)
  | report (me : Uuid) (body : ReportBody)
  | admin (me : Uuid) (code : Option Chars) (request : AdminRequest)
  /-- `promote-admin.mjs`, which no request runs. -/
  | promote (username : Chars) (retirer : Bool)

/-- An entry of the journal, but for its identifier. -/
structure Journal where
  actorUserId : Uuid
  action : String
  targetId : Option Uuid
  targetLabel : Option Chars
  reason : Option Chars
  deriving DecidableEq

def Journal.row (e : Journal) (id : Uuid) : Rows.AdminAction :=
  ⟨id, e.actorUserId, e.action, e.targetLabel, e.targetId, e.reason⟩

/-- The statement a call awaits next, with what it has read. -/
inductive AdminStage where
  | guard
  | find
  | target (moi : Option Rows.User)
  | create (report : Rows.Report)
  | setRole (user : Rows.User)
  | issue (user : Rows.User)
  | handle (report : Rows.Report)
  | journal (entry : Journal)
  | remove (id : Uuid)
  | answered (r : Except HttpError Nat)
  /-- The script, with its exit code. -/
  | exited (code : Nat)

structure AdminCall where
  ask : Ask
  stage : AdminStage

structure Administration where
  db : List Row
  calls : List AdminCall

inductive AdminStatement where
  /-- A statement of another route. -/
  | table (a : TableStatement)
  /-- A request whose access token is for the caller and this device. -/
  | request (did : Uuid) (ask : Ask)
  | script (username : Chars) (retirer : Bool)
  /-- The next statement of a call, at this time; a row it creates gets this identifier. -/
  | next (i now id : Nat)

/-- The report of a body, once the account it aims at is looked up. -/
def ReportBody.report (body : ReportBody) (me : Uuid) (moi vise : Option Rows.User) :
    Rows.Report where
  id := 0
  reporterUserId := some me
  reporterLabel := moi.map (·.username)
  reportedUserId := vise.map (·.id)
  reportedLabel := some (vise.elim body.reportedUsername (·.username))
  reason := body.reason
  note := body.note
  content := body.content
  context := body.context
  status := .open
  handledByUserId := none
  handledAt := none
  resolution := none

/-- A handler up to its first statement. -/
def AdminRequest.begin (me : Uuid) (request : AdminRequest) : AdminStage :=
  if !request.parses then .answered (.error invalidRequest)
  else
    match request with
    | .deleteUser id _ =>
        if id = me then .answered (.error ⟨400, "un administrateur ne se supprime pas lui-même"⟩)
        else .find
    | _ => .find

/-- A call before its first statement. -/
def Ask.begin : Ask → AdminStage
  | .admin _ _ _ => .guard
  | .report _ body => if body.parses then .find else .answered (.error invalidRequest)
  | _ => .find

def Ask.me? : Ask → Option Uuid
  | .deleteMe me _ => some me
  | .report me _ => some me
  | .admin me _ _ => some me
  | .promote _ _ => none

namespace Administration

variable (hmacSha1 : List UInt8 → List UInt8 → List UInt8) (argon2Verify : String → String → Bool)

def start : Administration := ⟨[], []⟩

def internalError : HttpError := ⟨500, "erreur interne"⟩

/-- What the other routes write: no role, no journal, no report, and they delete no account. -/
def elsewhere (db : List Row) : TableStatement → Bool
  | .insert (.user r) => r.role = .user
  | .insert (.adminAction _) => false
  | .insert (.report _) => false
  | .insert _ => true
  | .update (.user r) => (findUser db r.id).any (·.role = r.role)
  | .update (.adminAction _) => false
  | .update (.report _) => false
  | .update _ => true
  | .delete keys => keys.all (!·.kept)

def requireAdmin (now : Nat) (user : Option Rows.User) (code : Option Chars) :
    Except HttpError Unit :=
  match user with
  | none => .error ⟨404, "ressource introuvable"⟩
  | some user =>
      if user.deletedAt.isSome || user.role ≠ .admin then .error ⟨404, "ressource introuvable"⟩
      else if user.totpEnabledAt.isNone || user.totpSecret.getD [] = [] then
        .error ⟨403,
          "la vérification en deux étapes est obligatoire pour un compte d’administration"⟩
      else
        match code.map fun code => verifyTotp hmacSha1 (user.totpSecret.getD []) code now with
        | some (some true) => .ok ()
        | some none => .error internalError
        | _ => .error ⟨403, "code de vérification requis pour cette action"⟩

/-- `findUnique` of a handler, and the code up to its next statement. -/
def found (db : List Row) : Ask → AdminStage
  | .deleteMe me password =>
      match findUser db me with
      | none => .answered (.error ⟨404, "utilisateur introuvable"⟩)
      | some user =>
          let hash := user.passwordHash.getD ""
          if hash = "" then .answered (.error ⟨404, "utilisateur introuvable"⟩)
          else if !argon2Verify hash password then .answered (.error ⟨401, "mot de passe invalide"⟩)
          else .remove user.id
  | .report me _ => .target (findUser db me)
  | .admin me _ (.deleteUser id reason) =>
      match findUser db id with
      | none => .answered (.error ⟨404, "compte introuvable"⟩)
      | some user =>
          if user.role = .admin then
            .answered (.error ⟨403, "un compte d’administration ne se supprime pas par l’API"⟩)
          else .journal ⟨me, "account_deleted", some user.id, some user.username, reason⟩
  | .admin _ _ (.passwordReset id _) =>
      match findUser db id with
      | none => .answered (.error ⟨404, "compte introuvable"⟩)
      | some user =>
          if user.deletedAt.isSome then .answered (.error ⟨404, "compte introuvable"⟩)
          else .issue user
  | .admin _ _ (.resolve id _ _) =>
      match findReport db id with
      | none => .answered (.error ⟨404, "signalement introuvable"⟩)
      | some report => .handle report
  | .promote username retirer =>
      match findUsername db username with
      | none => .exited 1
      | some user =>
          if user.deletedAt.isSome then .exited 1
          else if !retirer && user.totpEnabledAt.isNone then .exited 1
          else .setRole user

def reportAction : ReportStatus → String
  | .open => "report_open"
  | .resolved => "report_resolved"
  | .dismissed => "report_dismissed"

/-- After the entry in the journal. -/
def journaled : Ask → AdminStage
  | .admin _ _ (.deleteUser id _) => .remove id
  | .promote _ _ => .exited 0
  | _ => .answered (.ok 200)

/-- The next statement of a call: what it writes, and where the call is once it is done. -/
def nextOf (db : List Row) (now id : Nat) (c : AdminCall) :
    Option (Option TableStatement × AdminStage) :=
  match c.stage, c.ask with
  | .guard, .admin me code request =>
      match requireAdmin hmacSha1 now (findUser db me) code with
      | .error e => some (none, .answered (.error e))
      | .ok () => some (none, AdminRequest.begin me request)
  | .find, ask => some (none, found argon2Verify db ask)
  | .target moi, .report me body =>
      some (none, .create (body.report me moi (findUsername db body.reportedUsername)))
  | .create report, .report _ _ =>
      some (some (.insert (.report { report with id := id })), .answered (.ok 201))
  | .setRole user, .promote _ retirer =>
      match findUser db user.id with
      | none => some (none, .exited 1)
      | some row => some (some (.update (.user { row with role := if retirer then .user else .admin })),
          .journal ⟨user.id, if retirer then "admin_revoked_via_cli" else "admin_granted_via_cli",
            some user.id, some user.username, some "exécuté depuis le serveur".toList⟩)
  | .issue user, .admin me _ (.passwordReset _ reason) =>
      match findUser db user.id with
      | none => some (none, .answered (.error internalError))
      | some _ => some (none, .journal ⟨me, "password_reset_issued", some user.id,
          some user.username, reason⟩)
  | .handle report, .admin me _ (.resolve _ status resolution) =>
      match findReport db report.id with
      | none => some (none, .answered (.error internalError))
      | some row => some (some (.update (.report { row with
            status := status
            handledByUserId := some me
            handledAt := some now
            resolution := resolution })),
          .journal ⟨me, reportAction status, report.reportedUserId, report.reportedLabel, resolution⟩)
  | .journal entry, ask => some (some (.insert (.adminAction (entry.row id))), journaled ask)
  | .remove userId, _ =>
      match findUser db userId with
      | none => some (none, .answered (.error internalError))
      | some _ => some (some (.delete [.user userId]), .answered (.ok 204))
  | _, _ => none

/-- The identifier of a row that is created is new. -/
def drawn (db : List Row) (id : Nat) : Bool :=
  !(db.map Row.key).contains (.adminAction id) && !(db.map Row.key).contains (.report id)

/-- What comes out of turn is no step. -/
def step : AdminStatement → Administration → Option Administration
  | .table a, s =>
      if elsewhere s.db a then (tableStep a s.db).map fun db => { s with db := db } else none
  | .request did ask, s => do
      let me ← Ask.me? ask
      let accepted := (devicesOf s.db).any fun d => d.id = did ∧ d.isActive ∧ d.userId = me
      let stage := if accepted then Ask.begin ask
        else .answered (.error ⟨401, "cet appareil a été révoqué"⟩)
      some { s with calls := s.calls ++ [⟨ask, stage⟩] }
  | .script username retirer, s =>
      some { s with calls := s.calls ++ [⟨.promote username retirer, .find⟩] }
  | .next i now id, s => do
      guard (drawn s.db id)
      let c ← s.calls[i]?
      let (write, stage) ← nextOf hmacSha1 argon2Verify s.db now id c
      let db ← write.elim (some s.db) fun a => tableStep a s.db
      some ⟨db, s.calls.set i { c with stage := stage }⟩

end Administration

end ZiaCrypte.Server
