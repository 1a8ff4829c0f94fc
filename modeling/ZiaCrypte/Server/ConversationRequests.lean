import ZiaCrypte.Server.Recipients
import Mathlib.Data.List.Dedup

/-!
# The requests on conversations, statement by statement

`POST /conversations` counts the accounts, searches for the conversation of the two and
creates one, in three statements that nothing holds together. Adding and removing a member
check before they write.
-/
namespace ZiaCrypte.Server

inductive ConversationCall where
  | postConversations (type : ConversationType) (participantIds : List Uuid)
  | postMember (id userId : Uuid)
  | deleteMember (id userId : Uuid)
  deriving DecidableEq

def ConversationCall.toCall : ConversationCall → Call
  | .postConversations type ids => .postConversations type ids
  | .postMember id userId => .postMember id userId
  | .deleteMember id userId => .deleteMember id userId

/-- The statement a request is at. -/
inductive ConversationStage where
  | count
  | search
  | create
  | findConversation
  | requireAdmin
  | findUser
  | upsert
  | check
  | update
  | answered (reply : Except HttpError Reply)
  deriving DecidableEq

def ConversationCall.first : ConversationCall → ConversationStage
  | .postConversations _ ids => if ids = [] then .answered (.error invalidRequest) else .count
  | .postMember _ _ => .findConversation
  | .deleteMember _ _ => .check

structure ConversationRequest where
  me : Uuid
  call : ConversationCall
  stage : ConversationStage
  deriving DecidableEq

def participantIds (me : Uuid) (ids : List Uuid) : List Uuid := (me :: ids).dedup

/-- The conversation and its members, in one statement. -/
def createConversation (env : RequestEnv) (me : Uuid) (type : ConversationType)
    (participantIds : List Uuid) (db : Database) : Database :=
  { db with
    conversations := db.conversations ++ [⟨env.fresh 0, type, some me⟩]
    participants := db.participants ++ participantIds.map fun u =>
      ⟨env.fresh 0, u, if u = me then .admin else .member, env.now, none⟩ }

def upsertMember (env : RequestEnv) (id userId : Uuid) (db : Database) : Database :=
  match db.findParticipant id userId with
  | none => { db with participants := db.participants ++ [⟨id, userId, .member, env.now, none⟩] }
  | some _ => db.updateParticipant id userId fun p => { p with leftAt := none, joinedAt := env.now }

section

variable (env : RequestEnv) (db : Database) (me : Uuid)

def postConversationsNext (type : ConversationType) (ids : List Uuid) :
    ConversationStage → Option (ConversationStage × Database)
  | .count =>
      if !(participantIds me ids).all (fun u => (db.findUser u).isSome) then
        some (.answered (.error ⟨400, "participant inconnu"⟩), db)
      else if type = .direct ∧ (participantIds me ids).length = 2 then some (.search, db)
      else some (.create, db)
  | .search => some (match directConversation db (participantIds me ids) with
      | some c => .answered (.ok ⟨200, .conversation c.id c.type⟩)
      | none => .create, db)
  | .create =>
      if (db.findConversation (env.fresh 0)).isSome then
        some (.answered (.error ⟨500, "erreur interne"⟩), db)
      else some (.answered (.ok ⟨201, .conversation (env.fresh 0) type⟩),
        createConversation env me type (participantIds me ids) db)
  | _ => none

def postMemberNext (id userId : Uuid) : ConversationStage → Option (ConversationStage × Database)
  | .findConversation => some (match db.findConversation id with
      | none => .answered (.error ⟨404, "conversation introuvable"⟩)
      | some c => if c.type ≠ .group then
          .answered (.error ⟨400, "une conversation directe a exactement deux membres"⟩)
        else .requireAdmin, db)
  | .requireAdmin => some (match Server.requireAdmin db id me with
      | .error e => .answered (.error e)
      | .ok _ => .findUser, db)
  | .findUser => some (match db.findUser userId with
      | none => .answered (.error ⟨404, "utilisateur introuvable"⟩)
      | some _ => .upsert, db)
  | .upsert => some (.answered (.ok ⟨201, .userId userId⟩), upsertMember env id userId db)
  | _ => none

def deleteMemberNext (id userId : Uuid) : ConversationStage → Option (ConversationStage × Database)
  | .check => some (match (if userId = me then requireMembership db id me
        else Server.requireAdmin db id me) with
      | .error e => .answered (.error e)
      | .ok _ => .update, db)
  | .update =>
      match db.findParticipant id userId with
      | none => some (.answered (.error ⟨500, "erreur interne"⟩), db)
      | some _ => some (.answered (.ok ⟨204, .empty⟩), db.updateParticipant id userId fun p =>
          { p with leftAt := some env.now })
  | _ => none

end

/-- The next statement of a request: where it is then, and the tables. -/
def ConversationRequest.next (env : RequestEnv) (r : ConversationRequest) (db : Database) :
    Option (ConversationStage × Database) :=
  match r.call with
  | .postConversations type ids => postConversationsNext env db r.me type ids r.stage
  | .postMember id userId => postMemberNext env db r.me id userId r.stage
  | .deleteMember id userId => deleteMemberNext env db r.me id userId r.stage

/-- The statements of a request one after the other, with nothing in between. -/
inductive Alone (env : RequestEnv) (me : Uuid) (call : ConversationCall) :
    ConversationStage → Database → Answer → Prop where
  | answered (reply : Except HttpError Reply) (db : Database) :
      Alone env me call (.answered reply) db (reply, db)
  | next {stage stage' : ConversationStage} {db db' : Database} {answer : Answer}
      (h : ConversationRequest.next env ⟨me, call, stage⟩ db = some (stage', db'))
      (rest : Alone env me call stage' db' answer) : Alone env me call stage db answer

theorem alone_postConversations (env : RequestEnv) (me : Auth) (type : ConversationType)
    (ids : List Uuid) (db : Database) (hnew : db.findConversation (env.fresh 0) = none) :
    Alone env me.userId (.postConversations type ids) (ConversationCall.postConversations type ids).first
      db (postConversations env me type ids db) := by
  by_cases hnone : ids = []
  · subst hnone
    exact .answered _ db
  have hcreate : Alone env me.userId (.postConversations type ids) .create db
      (.ok ⟨201, .conversation (env.fresh 0) type⟩,
        createConversation env me.userId type (participantIds me.userId ids) db) := by
    refine .next (if_neg ?_) (.answered _ _)
    simp [hnew]
  rw [ConversationCall.first, if_neg hnone]
  unfold postConversations
  dsimp only
  rw [if_neg hnone]
  by_cases hunknown : (!(participantIds me.userId ids).all fun u => (db.findUser u).isSome) = true
  · rw [participantIds] at hunknown
    rw [if_pos hunknown]
    exact .next (if_pos hunknown) (.answered _ db)
  · rw [participantIds] at hunknown
    rw [if_neg hunknown]
    by_cases hdirect : type = .direct ∧ (participantIds me.userId ids).length = 2
    · refine .next ((if_neg hunknown).trans (if_pos hdirect)) ?_
      rw [participantIds] at hdirect
      rw [if_pos hdirect]
      cases hfound : directConversation db (me.userId :: ids).dedup with
      | none =>
        have hsearch : ConversationRequest.next env ⟨me.userId, .postConversations type ids, .search⟩
            db = some (.create, db) := by
          show some (match directConversation db (participantIds me.userId ids) with
            | some c => _ | none => _, db) = _
          rw [participantIds, hfound]
        exact .next hsearch hcreate
      | some c =>
        refine .next ?_ (.answered _ db)
        show some (match directConversation db (participantIds me.userId ids) with
          | some c => _ | none => _, db) = _
        rw [participantIds, hfound]
    · refine .next ((if_neg hunknown).trans (if_neg hdirect)) ?_
      rw [participantIds] at hdirect
      rw [if_neg hdirect]
      exact hcreate

theorem alone_postMember (env : RequestEnv) (me : Auth) (id userId : Uuid) (db : Database) :
    Alone env me.userId (.postMember id userId) .findConversation db
      (postMember env me id userId db) := by
  unfold postMember
  cases hconversation : db.findConversation id with
  | none =>
    refine .next ?_ (.answered (.error ⟨404, "conversation introuvable"⟩) db)
    simp only [ConversationRequest.next, postMemberNext, hconversation]
  | some c =>
    dsimp only
    split
    · rename_i htype
      refine .next ?_ (.answered _ db)
      simp only [ConversationRequest.next, postMemberNext, hconversation, if_pos htype]
    · rename_i htype
      have hgroup : ConversationRequest.next env ⟨me.userId, .postMember id userId,
          .findConversation⟩ db = some (.requireAdmin, db) := by
        simp only [ConversationRequest.next, postMemberNext, hconversation, if_neg htype]
      refine .next hgroup ?_
      cases hadmin : requireAdmin db id me.userId with
      | error e =>
        refine .next ?_ (.answered _ db)
        simp only [ConversationRequest.next, postMemberNext, hadmin]
      | ok p =>
        have hallowed : ConversationRequest.next env ⟨me.userId, .postMember id userId,
            .requireAdmin⟩ db = some (.findUser, db) := by
          simp only [ConversationRequest.next, postMemberNext, hadmin]
        refine .next hallowed ?_
        cases huser : db.findUser userId with
        | none =>
          refine .next ?_ (.answered _ db)
          simp only [ConversationRequest.next, postMemberNext, huser]
        | some u =>
          have hknown : ConversationRequest.next env ⟨me.userId, .postMember id userId, .findUser⟩
              db = some (.upsert, db) := by
            simp only [ConversationRequest.next, postMemberNext, huser]
          exact .next hknown (.next rfl (.answered _ _))

theorem alone_deleteMember (env : RequestEnv) (me : Auth) (id userId : Uuid) (db : Database) :
    Alone env me.userId (.deleteMember id userId) .check db (deleteMember env me id userId db) := by
  unfold deleteMember
  generalize hchecked : (if userId = me.userId then requireMembership db id me.userId
    else requireAdmin db id me.userId) = checked
  cases checked with
  | error e =>
    refine .next ?_ (.answered _ db)
    simp only [ConversationRequest.next, deleteMemberNext, hchecked]
  | ok p =>
    have hallowed : ConversationRequest.next env ⟨me.userId, .deleteMember id userId, .check⟩ db =
        some (.update, db) := by
      simp only [ConversationRequest.next, deleteMemberNext, hchecked]
    refine .next hallowed ?_
    cases hrow : db.findParticipant id userId with
    | none =>
      refine .next ?_ (.answered _ db)
      simp only [ConversationRequest.next, deleteMemberNext, hrow]
    | some p =>
      refine .next ?_ (.answered _ _)
      simp only [ConversationRequest.next, deleteMemberNext, hrow]

/-- A request that nothing comes between is the route. -/
theorem alone_route (env : RequestEnv) (me : Auth) (call : ConversationCall) (db : Database)
    (hnew : db.findConversation (env.fresh 0) = none) :
    Alone env me.userId call call.first db (call.toCall.route env me db) := by
  cases call with
  | postConversations type ids => exact alone_postConversations env me type ids db hnew
  | postMember id userId => exact alone_postMember env me id userId db
  | deleteMember id userId => exact alone_deleteMember env me id userId db

end ZiaCrypte.Server
