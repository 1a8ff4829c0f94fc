import ZiaCrypte.Server.ConversationRequests
import ZiaCrypte.Lib.Slots

/-!
# The direct conversation of two people

Between the search of one request and its creation another request may create, and a
departure or a removal may be written.
-/
namespace ZiaCrypte.Server

open ZiaCrypte.Lib

/-- The tables, and the requests in the order they began. -/
structure Conversations where
  db : Database
  requests : List ConversationRequest

inductive ConversationStatement where
  | register (userId deviceId : Uuid)
  | begin (claims : Claims) (call : ConversationCall)
  | next (request : Nat) (env : RequestEnv)

namespace Conversations

def start : Conversations := ⟨Database.empty, []⟩

def step : ConversationStatement → Conversations → Option Conversations
  | .register userId deviceId, s => some { s with db := (Event.register userId deviceId).step s.db }
  | .begin claims call, s => some { s with requests := s.requests ++
      [match requireAuth s.db claims with
      | .error e => ⟨claims.sub, call, .answered (.error e)⟩
      | .ok me => ⟨me.userId, call, call.first⟩] }
  | .next i env, s => do
      let r ← s.requests[i]?
      let (stage, db) ← r.next env s.db
      some { db := db, requests := s.requests.set i { r with stage := stage } }

/-! ## What is to hold, and when it does -/

/-- A direct conversation of these people, and of nobody else. -/
def isDirect (db : Database) (ids : List Uuid) (c : Conversation) : Bool :=
  c.type == .direct && ids.all (fun u => (db.findParticipant c.id u).isSome) &&
    (db.participants.filter (·.conversationId == c.id)).length == 2

/-- Two people have one direct conversation at most. -/
def OneDirect (db : Database) : Prop :=
  ∀ u v, u ≠ v → (db.conversations.filter (isDirect db [u, v])).length ≤ 1

/-- The two people of a request for their direct conversation. -/
def pair? (r : ConversationRequest) : Option (List Uuid) :=
  match r.call with
  | .postConversations .direct ids =>
      if (participantIds r.me ids).length = 2 then some (participantIds r.me ids) else none
  | _ => none

/-- Who asks for a direct conversation gets one of which both are active members. -/
def ReturnsActive : ConversationStatement → Conversations → Prop
  | .next i env, s => ∀ r ∈ s.requests[i]?, ∀ pair ∈ pair? r, ∀ out ∈ r.next env s.db,
      ∀ code id type, out.1 = .answered (.ok ⟨code, .conversation id type⟩) →
        ∀ u ∈ pair, out.2.ActiveMember id u
  | _, _ => True

/-- Nobody has left the conversation that a search finds, and none was created for the two
since the search that found none. -/
def Undisturbed : ConversationStatement → Conversations → Prop
  | .next i env, s => ∀ r ∈ s.requests[i]?, ∀ pair ∈ pair? r,
      (r.stage = .search → ∀ c ∈ directConversation s.db pair, ∀ p ∈ s.db.participants,
        p.conversationId = c.id → p.leftAt = none) ∧
      (r.stage = .create → s.db.findConversation (env.fresh 0) = none →
        directConversation s.db pair = none)
  | _, _ => True

/-! ## The members of a conversation -/

/-- Everybody who is or was a member. -/
def members (db : Database) (id : Uuid) : List Uuid :=
  (db.participants.filter (·.conversationId == id)).map (·.userId)

variable {db db' : Database} {env : RequestEnv} {c : Conversation} {ids : List Uuid} {id u v : Uuid}

theorem mem_members : u ∈ members db id ↔
    ∃ p ∈ db.participants, p.conversationId = id ∧ p.userId = u := by
  simp [members, and_assoc]

theorem findParticipant_isSome : (db.findParticipant id u).isSome = true ↔ u ∈ members db id := by
  simp [Database.findParticipant, mem_members]

theorem isDirect_iff : isDirect db ids c = true ↔
    c.type = .direct ∧ (∀ u ∈ ids, u ∈ members db c.id) ∧ (members db c.id).length = 2 := by
  simp only [isDirect, Bool.and_eq_true, beq_iff_eq, List.all_eq_true, findParticipant_isSome,
    members, List.length_map, and_assoc]

/-- It depends on the members only. -/
theorem isDirect_congr (h : members db' c.id = members db c.id) (ids : List Uuid) :
    isDirect db' ids c = isDirect db ids c := by
  rw [Bool.eq_iff_iff, isDirect_iff, isDirect_iff, h]

theorem directConversation_none : directConversation db ids = none ↔
    ∀ c ∈ db.conversations, isDirect db ids c = false := by
  unfold directConversation
  rw [List.find?_eq_none]
  simp only [Bool.not_eq_true]
  rfl

theorem directConversation_some (h : directConversation db ids = some c) :
    c ∈ db.conversations ∧ isDirect db ids c = true :=
  ⟨List.mem_of_find?_eq_some h, List.find?_some (p := isDirect db ids) h⟩

/-- Of two entries there are no others. -/
theorem eq_or_eq_of_length {α : Type} {l : List α} {a b x : α} (h : l.length = 2) (ha : a ∈ l)
    (hb : b ∈ l) (hab : a ≠ b) (hx : x ∈ l) : x = a ∨ x = b := by
  obtain ⟨y, z, rfl⟩ := List.length_eq_two.mp h
  simp only [List.mem_cons, List.not_mem_nil, or_false] at ha hb hx
  rcases ha with rfl | rfl <;> rcases hb with rfl | rfl <;> rcases hx with rfl | rfl <;> simp_all

theorem findParticipant_mem {p : ConversationParticipant} (h : db.findParticipant id u = some p) :
    p ∈ db.participants ∧ p.conversationId = id ∧ p.userId = u := by
  have hfound := List.find?_some h
  simp only [Bool.and_eq_true, beq_iff_eq] at hfound
  exact ⟨List.mem_of_find?_eq_some h, hfound.1, hfound.2⟩

/-- Both are active members of their direct conversation when nobody has left it. -/
theorem active_iff (hdirect : isDirect db [u, v] c = true) (huv : u ≠ v) :
    (db.ActiveMember c.id u ∧ db.ActiveMember c.id v) ↔
      ∀ p ∈ db.participants, p.conversationId = c.id → p.leftAt = none := by
  obtain ⟨-, hmem, hlength⟩ := isDirect_iff.mp hdirect
  constructor
  · intro ⟨⟨pu, hpu, hactiveu⟩, ⟨pv, hpv, hactivev⟩⟩ p hp hid
    obtain ⟨hmemu, hidu, hu⟩ := findParticipant_mem hpu
    obtain ⟨hmemv, hidv, hv⟩ := findParticipant_mem hpv
    have hrows : (db.participants.filter (·.conversationId == c.id)).length = 2 := by
      rw [← hlength, members, List.length_map]
    have hin : ∀ q ∈ db.participants, q.conversationId = c.id →
        q ∈ db.participants.filter (·.conversationId == c.id) := by
      intro q hq hqid
      exact List.mem_filter.mpr ⟨hq, beq_iff_eq.mpr hqid⟩
    have hne : pu ≠ pv := by
      intro hsame
      rw [hsame, hv] at hu
      exact huv hu.symm
    rcases eq_or_eq_of_length hrows (hin pu hmemu hidu) (hin pv hmemv hidv) hne (hin p hp hid) with
      rfl | rfl
    · exact hactiveu
    · exact hactivev
  · intro hnobody
    have hactive : ∀ w ∈ [u, v], db.ActiveMember c.id w := by
      intro w hw
      obtain ⟨p, hp⟩ := Option.isSome_iff_exists.mp (findParticipant_isSome.mpr (hmem w hw))
      obtain ⟨hin, hid, -⟩ := findParticipant_mem hp
      exact ⟨p, hp, hnobody p hin hid⟩
    exact ⟨hactive u (by simp), hactive v (by simp)⟩

/-! ## What a statement does to the tables -/

/-- The conversations are the same, with the same members. -/
structure SameMembers (db db' : Database) : Prop where
  conversations : db'.conversations = db.conversations
  members : ∀ id, members db' id = members db id

theorem SameMembers.refl (db : Database) : SameMembers db db := ⟨rfl, fun _ => rfl⟩

theorem updateParticipant_same (f : ConversationParticipant → ConversationParticipant)
    (hf : ∀ p, (f p).conversationId = p.conversationId ∧ (f p).userId = p.userId) :
    SameMembers db (db.updateParticipant id u f) := by
  refine ⟨rfl, fun id' => ?_⟩
  unfold members Database.updateParticipant
  dsimp only
  generalize db.participants = rows
  induction rows with
  | nil => rfl
  | cons p rows ih =>
    have hconv : (if p.conversationId = id ∧ p.userId = u then f p else p).conversationId =
        p.conversationId := by
      split
      · exact (hf p).1
      · rfl
    have huser : (if p.conversationId = id ∧ p.userId = u then f p else p).userId = p.userId := by
      split
      · exact (hf p).2
      · rfl
    rw [List.map_cons, List.filter_cons, List.filter_cons, hconv]
    split
    · rw [List.map_cons, List.map_cons, huser, ih]
    · exact ih

/-- A conversation is new: its id is, and its members are. -/
theorem createConversation_members (me : Uuid) (type : ConversationType) (pids : List Uuid)
    (id : Uuid) :
    members (createConversation env me type pids db) id =
      members db id ++ if id = env.fresh 0 then pids else [] := by
  unfold members createConversation
  dsimp only
  rw [List.filter_append, List.map_append]
  congr 1
  split
  · rename_i hid
    rw [List.filter_eq_self.mpr ?_, List.map_map]
    · simp [Function.comp_def]
    · intro p hp
      obtain ⟨w, -, rfl⟩ := List.mem_map.mp hp
      simp [hid]
  · rename_i hid
    rw [List.filter_eq_nil_iff.mpr ?_, List.map_nil]
    intro p hp
    obtain ⟨w, -, rfl⟩ := List.mem_map.mp hp
    simpa using fun h : env.fresh 0 = id => hid h.symm

/-- A member is added to the one conversation, or was there before. -/
theorem upsertMember_cases (env : RequestEnv) (id u : Uuid) (db : Database) :
    (upsertMember env id u db).conversations = db.conversations ∧
      ∀ id', id' ≠ id → members (upsertMember env id u db) id' = members db id' := by
  unfold upsertMember
  split
  · refine ⟨rfl, fun id' hid => ?_⟩
    unfold members
    simp [List.filter_append, Ne.symm hid]
  · have hsame : SameMembers db (db.updateParticipant id u fun p =>
        { p with leftAt := none, joinedAt := env.now }) :=
      updateParticipant_same _ fun p => ⟨rfl, rfl⟩
    exact ⟨hsame.conversations, fun id' _ => hsame.members id'⟩

/-- What the next statement of a request does: it leaves the members alone, or creates a
conversation, or adds a member. -/
theorem next_cases {r : ConversationRequest} {out : ConversationStage × Database}
    (h : r.next env db = some out) :
    SameMembers db out.2 ∨
    (∃ type pids, r.call = .postConversations type pids ∧ r.stage = .create ∧
      db.findConversation (env.fresh 0) = none ∧
      out = (.answered (.ok ⟨201, .conversation (env.fresh 0) type⟩),
        createConversation env r.me type (participantIds r.me pids) db)) ∨
    ∃ id u, r.call = .postMember id u ∧ r.stage = .upsert ∧
      out = (.answered (.ok ⟨201, .userId u⟩), upsertMember env id u db) := by
  unfold ConversationRequest.next at h
  cases hcall : r.call with
  | postConversations type pids =>
    simp only [hcall] at h
    cases hstage : r.stage <;> simp only [hstage, postConversationsNext, reduceCtorEq] at h
    case count =>
      repeat' split at h
      all_goals
        obtain rfl := Option.some.inj h
        exact .inl (SameMembers.refl db)
    case search =>
      obtain rfl := Option.some.inj h
      exact .inl (SameMembers.refl db)
    case create =>
      split at h
      · obtain rfl := Option.some.inj h
        exact .inl (SameMembers.refl db)
      · rename_i hnew
        obtain rfl := Option.some.inj h
        exact .inr (.inl ⟨type, pids, rfl, rfl, Option.not_isSome_iff_eq_none.mp hnew, rfl⟩)
  | postMember id u =>
    simp only [hcall] at h
    cases hstage : r.stage <;> simp only [hstage, postMemberNext, reduceCtorEq] at h
    case upsert =>
      obtain rfl := Option.some.inj h
      exact .inr (.inr ⟨id, u, rfl, rfl, rfl⟩)
    all_goals
      obtain rfl := Option.some.inj h
      exact .inl (SameMembers.refl db)
  | deleteMember id u =>
    simp only [hcall] at h
    cases hstage : r.stage <;> simp only [hstage, deleteMemberNext, reduceCtorEq] at h
    case check =>
      obtain rfl := Option.some.inj h
      exact .inl (SameMembers.refl db)
    case update =>
      split at h
      · obtain rfl := Option.some.inj h
        exact .inl (SameMembers.refl db)
      · obtain rfl := Option.some.inj h
        exact .inl (updateParticipant_same _ fun p => ⟨rfl, rfl⟩)

/-! ## What every statement keeps -/

/-- Ids are primary keys, and members are of conversations that exist. -/
structure Coherent (db : Database) : Prop where
  ids : (db.conversations.map (·.id)).Nodup
  refs : ∀ id, members db id ≠ [] → ∃ c ∈ db.conversations, c.id = id

theorem Coherent.same (h : Coherent db) (hsame : SameMembers db db') : Coherent db' := by
  refine ⟨?_, fun id hid => ?_⟩
  · rw [hsame.conversations]
    exact h.ids
  · rw [hsame.members] at hid
    rw [hsame.conversations]
    exact h.refs id hid

theorem oneDirect_congr (hconv : db'.conversations = db.conversations)
    (hmem : ∀ c ∈ db.conversations, c.type = .direct → members db' c.id = members db c.id)
    (h : OneDirect db) : OneDirect db' := by
  intro u v huv
  have hfilter : db'.conversations.filter (isDirect db' [u, v]) =
      db.conversations.filter (isDirect db [u, v]) := by
    rw [hconv]
    apply List.filter_congr
    intro c hc
    by_cases htype : c.type = .direct
    · exact isDirect_congr (hmem c hc htype) [u, v]
    · have hno : ∀ db₀, isDirect db₀ [u, v] c = false := by
        intro db₀
        rw [← Bool.not_eq_true, isDirect_iff]
        exact fun hdirect => htype hdirect.1
      rw [hno, hno]
  rw [hfilter]
  exact h u v huv

theorem id_ne (hnew : db.findConversation id = none) (hc : c ∈ db.conversations) : c.id ≠ id := by
  intro hid
  exact List.find?_eq_none.mp hnew c hc (beq_iff_eq.mpr hid)

/-- A conversation whose id is not taken has no members yet. -/
theorem Coherent.members_new (h : Coherent db) (hnew : db.findConversation id = none) :
    members db id = [] := by
  by_contra hmem
  obtain ⟨c, hc, hid⟩ := h.refs id hmem
  exact id_ne hnew hc hid

theorem Coherent.createConversation (h : Coherent db)
    (hnew : db.findConversation (env.fresh 0) = none) (me : Uuid) (type : ConversationType) (pids : List Uuid) :
    Coherent (createConversation env me type pids db) := by
  refine ⟨?_, fun id hid => ?_⟩
  · let new : Conversation := ⟨env.fresh 0, type, some me⟩
    show ((db.conversations ++ [new]).map (·.id)).Nodup
    exact nodup_map_concat h.ids fun c hc => id_ne hnew hc
  · rw [createConversation_members] at hid
    by_cases hold : members db id = []
    · rw [hold, List.nil_append] at hid
      split at hid
      · rename_i hself
        exact ⟨_, List.mem_append_right _ (List.mem_singleton_self _), hself.symm⟩
      · exact absurd rfl hid
    · obtain ⟨c, hc, hcid⟩ := h.refs id hold
      exact ⟨c, List.mem_append_left _ hc, hcid⟩

/-- The members of a new conversation are all active. -/
theorem Coherent.active_new (h : Coherent db) (hnew : db.findConversation (env.fresh 0) = none)
    (me : Uuid) (type : ConversationType) {pids : List Uuid} (hu : u ∈ pids) :
    (Server.createConversation env me type pids db).ActiveMember (env.fresh 0) u := by
  have hmem : u ∈ members (Server.createConversation env me type pids db) (env.fresh 0) := by
    rw [createConversation_members, if_pos rfl]
    exact List.mem_append_right _ hu
  obtain ⟨p, hp⟩ := Option.isSome_iff_exists.mp (findParticipant_isSome.mpr hmem)
  obtain ⟨hin, hid, -⟩ := findParticipant_mem hp
  refine ⟨p, hp, ?_⟩
  rcases List.mem_append.mp hin with hold | hadded
  · have hself : p.userId ∈ members db (env.fresh 0) := mem_members.mpr ⟨p, hold, hid, rfl⟩
    rw [h.members_new hnew] at hself
    cases hself
  · obtain ⟨w, -, rfl⟩ := List.mem_map.mp hadded
    rfl

/-- The direct conversations of two people once one more is created. -/
theorem filter_createConversation (h : Coherent db) (hnew : db.findConversation (env.fresh 0) = none)
    (me : Uuid) (type : ConversationType) (pids : List Uuid) (u v : Uuid) :
    (createConversation env me type pids db).conversations.filter
        (isDirect (createConversation env me type pids db) [u, v]) =
      db.conversations.filter (isDirect db [u, v]) ++
        if type = .direct ∧ u ∈ pids ∧ v ∈ pids ∧ pids.length = 2 then
          [⟨env.fresh 0, type, some me⟩] else [] := by
  have hmembers := @createConversation_members db env me type pids
  let new : Conversation := ⟨env.fresh 0, type, some me⟩
  show (db.conversations ++ [new]).filter _ = _
  rw [List.filter_append]
  congr 1
  · apply List.filter_congr
    intro c hc
    refine isDirect_congr ?_ [u, v]
    rw [hmembers, if_neg (id_ne hnew hc), List.append_nil]
  · have hself : members (createConversation env me type pids db) (env.fresh 0) = pids := by
      rw [hmembers, if_pos rfl, h.members_new hnew, List.nil_append]
    have hiff : isDirect (createConversation env me type pids db) [u, v] new = true ↔
          type = .direct ∧ u ∈ pids ∧ v ∈ pids ∧ pids.length = 2 := by
      rw [isDirect_iff, hself]
      show type = .direct ∧ (∀ w ∈ [u, v], w ∈ pids) ∧ pids.length = 2 ↔ _
      simp [and_assoc]
    by_cases hdirect : type = .direct ∧ u ∈ pids ∧ v ∈ pids ∧ pids.length = 2
    · rw [if_pos hdirect, List.filter_singleton, hiff.mpr hdirect, cond_true]
    · rw [if_neg hdirect, List.filter_singleton, Bool.eq_false_iff.mpr (mt hiff.mp hdirect), cond_false]

/-- One more conversation leaves one for the two people exactly if they had none. -/
theorem oneDirect_createConversation (h : Coherent db) (hone : OneDirect db)
    (hnew : db.findConversation (env.fresh 0) = none) (me : Uuid) (type : ConversationType)
    {pids : List Uuid} (hnodup : pids.Nodup) :
    OneDirect (createConversation env me type pids db) ↔
      (type = .direct → pids.length = 2 → directConversation db pids = none) := by
  constructor
  · intro hone' htype hlength
    obtain ⟨a, b, rfl⟩ := List.length_eq_two.mp hlength
    have hab : a ≠ b := by simpa using hnodup
    cases hexisting : directConversation db [a, b] with
    | none => rfl
    | some c =>
      obtain ⟨hc, hdirect⟩ := directConversation_some hexisting
      have hpos : 0 < (db.conversations.filter (isDirect db [a, b])).length :=
        List.length_pos_of_mem (List.mem_filter.mpr ⟨hc, hdirect⟩)
      have hle := hone' a b hab
      rw [filter_createConversation h hnew, if_pos ⟨htype, by simp, by simp, hlength⟩,
        List.length_append, List.length_singleton] at hle
      omega
  · intro hnone u v huv
    rw [filter_createConversation h hnew, List.length_append]
    split
    · rename_i hdirect
      obtain ⟨htype, hu, hv, hlength⟩ := hdirect
      have hempty : db.conversations.filter (isDirect db [u, v]) = [] := by
        rw [List.filter_eq_nil_iff]
        intro c hc hdirect
        obtain ⟨hdirectType, hmem, hcount⟩ := isDirect_iff.mp hdirect
        have hno := directConversation_none.mp (hnone htype hlength) c hc
        refine absurd (isDirect_iff.mpr ⟨hdirectType, fun w hw => ?_, hcount⟩) (by rw [hno]; simp)
        rcases eq_or_eq_of_length hlength hu hv huv hw with rfl | rfl
        · exact hmem w (by simp)
        · exact hmem w (by simp)
      rw [hempty]
      exact Nat.le_refl 1
    · exact hone u v huv

/-- A member is added to a group only, which has looked at the type before. -/
def InGroup (r : ConversationRequest) : Bool :=
  r.stage == .requireAdmin || r.stage == .findUser || r.stage == .upsert

structure Kept (s : Conversations) : Prop where
  coherent : Coherent s.db
  one : OneDirect s.db
  groups : ∀ r ∈ s.requests, ∀ id u, r.call = .postMember id u → InGroup r = true →
    ∃ c ∈ s.db.conversations, c.id = id ∧ c.type = .group

theorem kept_start : Kept start where
  coherent := ⟨List.nodup_nil, fun id hid => absurd rfl hid⟩
  one u v _ := Nat.zero_le 1
  groups r hr := by cases hr

theorem upsertMember_coherent (h : Coherent db) (hc : c ∈ db.conversations) (hid : c.id = id) :
    Coherent (upsertMember env id u db) := by
  obtain ⟨hconv, hmem⟩ := upsertMember_cases env id u db
  refine ⟨?_, fun id' hid' => ?_⟩
  · rw [hconv]
    exact h.ids
  · rw [hconv]
    by_cases hsame : id' = id
    · exact ⟨c, hc, hid.trans hsame.symm⟩
    · rw [hmem id' hsame] at hid'
      exact h.refs id' hid'

theorem upsertMember_one (h : Coherent db) (hone : OneDirect db) (hc : c ∈ db.conversations)
    (hid : c.id = id) (htype : c.type = .group) : OneDirect (upsertMember env id u db) := by
  obtain ⟨hconv, hmem⟩ := upsertMember_cases env id u db
  refine oneDirect_congr hconv (fun c' hc' hdirect => hmem c'.id ?_) hone
  intro hsame
  rw [List.inj_on_of_nodup_map h.ids hc' hc (hsame.trans hid.symm), htype] at hdirect
  cases hdirect

/-! ## One statement -/

variable {s t : Conversations} {r : ConversationRequest} {i : Nat}

theorem step_next : step (.next i env) s = some t ↔ ∃ r out, s.requests[i]? = some r ∧
    r.next env s.db = some out ∧
      t = ⟨out.2, s.requests.set i { r with stage := out.1 }⟩ :=
  bind_bind_eq_some

theorem conversations_subset {out : ConversationStage × Database} (h : r.next env db = some out) :
    ∀ c ∈ db.conversations, c ∈ out.2.conversations := by
  intro c hc
  rcases next_cases h with hsame | ⟨type, pids, -, -, -, rfl⟩ | ⟨id, u, -, -, rfl⟩
  · rw [hsame.conversations]
    exact hc
  · exact List.mem_append_left _ hc
  · rw [(upsertMember_cases env id u db).1]
    exact hc

/-- A request that is to add a member has seen that the conversation is a group. -/
theorem next_inGroup {out : ConversationStage × Database} (h : r.next env db = some out)
    (hcall : r.call = .postMember id u)
    (hgroup : InGroup r = true → ∃ c ∈ db.conversations, c.id = id ∧ c.type = .group)
    (hout : InGroup { r with stage := out.1 } = true) :
    ∃ c ∈ db.conversations, c.id = id ∧ c.type = .group := by
  cases hstage : r.stage with
  | findConversation =>
    simp only [ConversationRequest.next, hcall, hstage, postMemberNext] at h
    obtain rfl := Option.some.inj h
    cases hfound : db.findConversation id with
    | none => simp [InGroup, hfound] at hout
    | some c =>
      by_cases htype : c.type = .group
      · have hid := List.find?_some hfound
        exact ⟨c, List.mem_of_find?_eq_some hfound, beq_iff_eq.mp hid, htype⟩
      · simp [InGroup, hfound, htype] at hout
  | requireAdmin => exact hgroup (by simp [InGroup, hstage])
  | findUser => exact hgroup (by simp [InGroup, hstage])
  | upsert => exact hgroup (by simp [InGroup, hstage])
  | _ => simp [ConversationRequest.next, hcall, hstage, postMemberNext] at h

theorem mem_pair {pair : List Uuid} : pair ∈ pair? r ↔ ∃ ids, r.call = .postConversations .direct ids ∧
    (participantIds r.me ids).length = 2 ∧ participantIds r.me ids = pair := by
  unfold pair?
  split
  · rename_i ids hcall
    simp [hcall]
  · rename_i hcall
    constructor
    · intro h
      cases h
    · intro ⟨ids, hdirect, _⟩
      exact absurd hdirect (hcall ids)

theorem participantIds_nodup (me : Uuid) (ids : List Uuid) : (participantIds me ids).Nodup :=
  List.nodup_dedup _

theorem next_search {type : ConversationType} {ids : List Uuid}
    (hcall : r.call = .postConversations type ids) (hstage : r.stage = .search) :
    ∃ out, r.next env db = some out := by
  rw [ConversationRequest.next, hcall, hstage]
  exact ⟨_, rfl⟩

theorem next_create {type : ConversationType} {ids : List Uuid}
    (hcall : r.call = .postConversations type ids) (hstage : r.stage = .create)
    (hnew : db.findConversation (env.fresh 0) = none) :
    r.next env db = some (.answered (.ok ⟨201, .conversation (env.fresh 0) type⟩),
      createConversation env r.me type (participantIds r.me ids) db) := by
  simp only [ConversationRequest.next, hcall, hstage, postConversationsNext, hnew, Option.isSome_none,
    Bool.false_eq_true, if_false]

/-- The tables keep to the rules, and two people have one direct conversation exactly when
none is created for them that had one. -/
theorem next_one (h : Kept s) (hr : s.requests[i]? = some r) {out : ConversationStage × Database}
    (hout : r.next env s.db = some out) : Coherent out.2 ∧ (OneDirect out.2 ↔
      ∀ pair ∈ pair? r, r.stage = .create → s.db.findConversation (env.fresh 0) = none →
        directConversation s.db pair = none) := by
  by_cases hcreate : (∃ type ids, r.call = .postConversations type ids) ∧ r.stage = .create ∧
      s.db.findConversation (env.fresh 0) = none
  · obtain ⟨⟨type, ids, hcall⟩, hstage, hnew⟩ := hcreate
    obtain rfl := Option.some.inj ((next_create hcall hstage hnew).symm.trans hout)
    refine ⟨h.coherent.createConversation hnew r.me type _, ?_⟩
    refine (oneDirect_createConversation h.coherent h.one hnew r.me type
      (participantIds_nodup r.me ids)).trans ?_
    constructor
    · intro hnone pair hpair _ _
      obtain ⟨ids', hcall', hlength, rfl⟩ := mem_pair.mp hpair
      obtain ⟨rfl, rfl⟩ := ConversationCall.postConversations.inj (hcall.symm.trans hcall')
      exact hnone rfl hlength
    · intro hnone htype hlength
      subst htype
      exact hnone _ (mem_pair.mpr ⟨ids, hcall, hlength, rfl⟩) hstage hnew
  · have hvacuous : ∀ pair ∈ pair? r, r.stage = .create →
        s.db.findConversation (env.fresh 0) = none → directConversation s.db pair = none := by
      intro pair hpair hstage hnew
      obtain ⟨ids, hcall, -⟩ := mem_pair.mp hpair
      exact absurd ⟨⟨_, ids, hcall⟩, hstage, hnew⟩ hcreate
    rw [iff_true_right hvacuous]
    rcases next_cases hout with hsame | ⟨type, ids, hcall, hstage, hnew, -⟩ | ⟨id, u, hcall, hstage, rfl⟩
    · exact ⟨h.coherent.same hsame,
        oneDirect_congr hsame.conversations (fun c _ _ => hsame.members c.id) h.one⟩
    · exact absurd ⟨⟨type, ids, hcall⟩, hstage, hnew⟩ hcreate
    · obtain ⟨c, hc, hid, htype⟩ := h.groups r (List.mem_of_getElem? hr) id u hcall
        (by simp [InGroup, hstage])
      exact ⟨upsertMember_coherent h.coherent hc hid, upsertMember_one h.coherent h.one hc hid htype⟩

/-- Who asks gets an active conversation, exactly when nobody has left the one that is
found. -/
theorem next_active (h : Kept s) {out : ConversationStage × Database}
    (hout : r.next env s.db = some out) {pair : List Uuid} (hpair : pair ∈ pair? r) :
    (∀ code id type, out.1 = .answered (.ok ⟨code, .conversation id type⟩) →
      ∀ u ∈ pair, out.2.ActiveMember id u) ↔
    (r.stage = .search → ∀ c ∈ directConversation s.db pair, ∀ p ∈ s.db.participants,
      p.conversationId = c.id → p.leftAt = none) := by
  obtain ⟨ids, hcall, hlength, rfl⟩ := mem_pair.mp hpair
  obtain ⟨a, b, hab⟩ := List.length_eq_two.mp hlength
  have hne : a ≠ b := by
    have hnodup := participantIds_nodup r.me ids
    rw [hab] at hnodup
    simpa using hnodup
  rw [ConversationRequest.next, hcall] at hout
  dsimp only at hout
  cases hstage : r.stage with
  | search =>
    rw [hstage] at hout
    obtain rfl := Option.some.inj hout
    cases hfound : directConversation s.db (participantIds r.me ids) with
    | none => simp
    | some c =>
      obtain ⟨-, hdirect⟩ := directConversation_some hfound
      rw [hab] at hdirect
      have hactive := active_iff hdirect hne
      rw [hab]
      constructor
      · intro hreturned _ c' hc'
        obtain rfl := Option.some.inj hc'
        have hboth := hreturned 200 c.id c.type rfl
        exact hactive.mp ⟨hboth a (by simp), hboth b (by simp)⟩
      · intro hnobody code id type hreply
        obtain ⟨hu, hv⟩ := hactive.mpr (hnobody rfl c rfl)
        simp only [ConversationStage.answered.injEq, Except.ok.injEq, Reply.mk.injEq,
          ReplyBody.conversation.injEq] at hreply
        obtain ⟨-, rfl, -⟩ := hreply
        simp [hu, hv]
  | create =>
    refine iff_of_true ?_ (by simp)
    intro code id type hreply u hu
    rw [hstage] at hout
    simp only [postConversationsNext] at hout
    split at hout
    · obtain rfl := Option.some.inj hout
      simp at hreply
    · rename_i hnew
      obtain rfl := Option.some.inj hout
      simp only [ConversationStage.answered.injEq, Except.ok.injEq, Reply.mk.injEq,
        ReplyBody.conversation.injEq] at hreply
      obtain ⟨-, rfl, -⟩ := hreply
      exact h.coherent.active_new (Option.not_isSome_iff_eq_none.mp hnew) r.me .direct hu
  | count =>
    refine iff_of_true ?_ (by simp)
    intro code id type hreply
    rw [hstage] at hout
    simp only [postConversationsNext] at hout
    repeat' split at hout
    all_goals
      obtain rfl := Option.some.inj hout
      simp at hreply
  | _ => simp [hstage, postConversationsNext] at hout

/-! ## Every interleaving -/

/-- A statement keeps to the rules exactly when nothing has disturbed it. -/
theorem undisturbed_iff (h : Kept s) (a : ConversationStatement) : Undisturbed a s ↔
    ReturnsActive a s ∧ Reaches step (fun t => OneDirect t.db) a s := by
  cases a with
  | register userId deviceId =>
    refine iff_of_true trivial ⟨trivial, fun t ht => ?_⟩
    obtain rfl := Option.some.inj ht
    have hone : OneDirect s.db := h.one
    exact oneDirect_congr rfl (fun _ _ _ => rfl) hone
  | begin claims call =>
    refine iff_of_true trivial ⟨trivial, fun t ht => ?_⟩
    obtain rfl := Option.some.inj ht
    exact h.one
  | next i env =>
    constructor
    · intro hund
      constructor
      · intro r hr pair hpair out hout
        exact (next_active h hout hpair).mpr (hund r hr pair hpair).1
      · intro t ht
        obtain ⟨r, out, hr, hout, rfl⟩ := step_next.mp ht
        exact (next_one h hr hout).2.mpr fun pair hpair => (hund r hr pair hpair).2
    · intro ⟨hactive, hone⟩ r hr pair hpair
      obtain ⟨ids, hcall, -, -⟩ := mem_pair.mp hpair
      constructor
      · intro hstage
        obtain ⟨out, hout⟩ := @next_search s.db env r _ _ hcall hstage
        exact (next_active h hout hpair).mp (hactive r hr pair hpair out hout) hstage
      · intro hstage hnew
        have hout := next_create hcall hstage hnew
        exact (next_one h hr hout).2.mp (hone _ (step_next.mpr ⟨r, _, hr, hout, rfl⟩)) pair hpair
          hstage hnew

theorem kept_step (h : Kept s) {a : ConversationStatement} (hund : Undisturbed a s)
    (ht : step a s = some t) : Kept t := by
  have hone := ((undisturbed_iff h a).mp hund).2 t ht
  cases a with
  | register userId deviceId =>
    obtain rfl := Option.some.inj ht
    exact ⟨h.coherent.same ⟨rfl, fun _ => rfl⟩, hone, h.groups⟩
  | begin claims call =>
    obtain rfl := Option.some.inj ht
    refine ⟨h.coherent, hone, fun r hr id u hcall hgroup => ?_⟩
    rcases mem_concat_cases hr with hold | hadded
    · exact h.groups r hold id u hcall hgroup
    · rw [hadded] at hcall hgroup
      cases hauth : requireAuth s.db claims with
      | error e => simp [hauth, InGroup] at hgroup
      | ok me =>
        simp only [hauth] at hcall hgroup
        rw [hcall] at hgroup
        simp [InGroup, ConversationCall.first] at hgroup
  | next i env =>
    obtain ⟨r, out, hr, hout, rfl⟩ := step_next.mp ht
    refine ⟨(next_one h hr hout).1, hone, fun r' hr' id u hcall hgroup => ?_⟩
    have hold : ∃ c ∈ s.db.conversations, c.id = id ∧ c.type = .group := by
      rcases mem_set_cases hr' with hmem | rfl
      · exact h.groups r' hmem id u hcall hgroup
      · exact next_inGroup hout hcall (h.groups r (List.mem_of_getElem? hr) id u hcall) hgroup
    obtain ⟨c, hc, hrest⟩ := hold
    exact ⟨c, conversations_subset hout c hc, hrest⟩

/-- Of any interleaving of creations, departures and removals: two people have one direct
conversation at most, and who asks for it is an active member of it, exactly in those where
nothing disturbs a search or a creation. -/
theorem directConversation_iff (statements : List ConversationStatement) :
    Always step Undisturbed statements start ↔
      Always step (fun a s => ReturnsActive a s ∧ Reaches step (fun t => OneDirect t.db) a s)
        statements start := by
  apply always_iff_of_invariant Kept
  · intro a s t hs hund ht
    exact kept_step hs hund ht
  · intro a s hs
    exact undisturbed_iff hs a
  · exact kept_start

/-! ## Two searches before a creation, and a departure -/

/-- Both ask for their direct conversation, and each search is before both creations. -/
def bothSearch : List ConversationStatement :=
  [.register 1 10, .register 2 20, .begin ⟨1, 10⟩ (.postConversations .direct [2]),
    .begin ⟨2, 20⟩ (.postConversations .direct [1]), .next 0 ⟨0, fun _ => 5⟩, .next 0 ⟨0, fun _ => 5⟩,
    .next 1 ⟨0, fun _ => 6⟩, .next 1 ⟨0, fun _ => 6⟩, .next 0 ⟨0, fun _ => 5⟩,
    .next 1 ⟨0, fun _ => 6⟩]

theorem bothSearch_twoDirect : ∃ s, run step bothSearch start = some s ∧
    s.db.conversations = [⟨5, .direct, some 1⟩, ⟨6, .direct, some 2⟩] ∧ ¬ OneDirect s.db := by
  refine ⟨_, rfl, by decide, ?_⟩
  intro hone
  exact absurd (hone 1 2 (by decide)) (by decide)

/-- User 2 leaves the direct conversation, and asks for it again. -/
def leavesAndReturns : List ConversationStatement :=
  [.register 1 10, .register 2 20, .begin ⟨1, 10⟩ (.postConversations .direct [2]),
    .next 0 ⟨0, fun _ => 5⟩, .next 0 ⟨0, fun _ => 5⟩, .next 0 ⟨0, fun _ => 5⟩,
    .begin ⟨2, 20⟩ (.deleteMember 5 2), .next 1 ⟨1, fun _ => 0⟩, .next 1 ⟨1, fun _ => 0⟩,
    .begin ⟨2, 20⟩ (.postConversations .direct [1]), .next 2 ⟨2, fun _ => 6⟩,
    .next 2 ⟨2, fun _ => 6⟩]

/-- The answer is the conversation 5, of which user 2 is no active member. -/
theorem leavesAndReturns_inactive : ∃ s, run step leavesAndReturns start = some s ∧
    s.requests.map (·.stage) = [.answered (.ok ⟨201, .conversation 5 .direct⟩),
      .answered (.ok ⟨204, .empty⟩), .answered (.ok ⟨200, .conversation 5 .direct⟩)] ∧
    ¬ s.db.ActiveMember 5 2 :=
  ⟨_, rfl, by decide, by decide⟩

end Conversations

end ZiaCrypte.Server
