import ZiaCrypte.Server.Recipients
import Mathlib.Data.List.Nodup

/-!
# What a sender can tell of a block

Two servers that differ in one block only are sent the same requests by the account that
is blocked in the one and not in the other. What is compared are the answers, the
identifiers drawn for them left aside.
-/
namespace ZiaCrypte.Server

open ZiaCrypte.Lib

/-- `GET /messages/status`: the messages of the device that were delivered. -/
def getStatus (me : Auth) (ids : List Uuid) (db : Database) : List Uuid :=
  let list := ids.take 500
  if list = [] then []
  else (db.messageBlobs.filter fun b => b.senderDeviceId == some me.deviceId &&
    list.contains b.clientMessageId && b.deliveredAt != none).map (·.clientMessageId)

inductive SenderCall where
  | postMessages (body : SendBody)
  | postMessagesGroup (body : GroupSendBody)
  | getStatus (ids : List Uuid)

inductive SenderReply where
  | route (reply : Except HttpError Reply)
  | delivered (ids : List Uuid)
  deriving DecidableEq

/-- A request, and the device whose token it carries. -/
structure SenderRequest where
  did : Uuid
  call : SenderCall

def SenderRequest.handle (sub : Uuid) (r : SenderRequest) (env : RequestEnv) (db : Database) :
    SenderReply × Database :=
  match requireAuth db ⟨sub, r.did⟩ with
  | .error e => (.route (.error e), db)
  | .ok me =>
      match r.call with
      | .postMessages body =>
          (.route (postMessages env me body db).1, (postMessages env me body db).2)
      | .postMessagesGroup body =>
          (.route (postMessagesGroup env me body db).1, (postMessagesGroup env me body db).2)
      | .getStatus ids => (.delivered (getStatus me ids db), db)

/-! ## Two servers -/

/-- An answer, without the identifier that was drawn for it. -/
def SenderReply.withoutId : SenderReply → SenderReply
  | .route (.ok ⟨code, .id _⟩) => .route (.ok ⟨code, .id 0⟩)
  | r => r

structure Worlds where
  unblocked : Database
  blocked : Database

/-- One request, and what each server takes from outside for it. -/
structure TwinRequest where
  request : SenderRequest
  env : RequestEnv
  env' : RequestEnv

namespace Worlds

variable (sender : Uuid)

def step (i : TwinRequest) (w : Worlds) : Option Worlds :=
  some ⟨(i.request.handle sender i.env w.unblocked).2, (i.request.handle sender i.env' w.blocked).2⟩

/-- The two answers are the same. -/
def SameReply (i : TwinRequest) (w : Worlds) : Prop :=
  (i.request.handle sender i.env w.unblocked).1.withoutId =
    (i.request.handle sender i.env' w.blocked).1.withoutId

instance (i : TwinRequest) (w : Worlds) : Decidable (SameReply sender i w) :=
  inferInstanceAs (Decidable (_ = _))

/-- The identifiers a request may draw are new to the table, and no two are the same. -/
def Draws (env : RequestEnv) (db : Database) : Prop :=
  ((List.range (db.devices.length + 1)).map env.fresh).Nodup ∧
    ∀ b ∈ db.messageBlobs, b.id ∉ (List.range (db.devices.length + 1)).map env.fresh

instance (env : RequestEnv) (db : Database) : Decidable (Draws env db) :=
  inferInstanceAs (Decidable (_ ∧ _))

def FreshIds (i : TwinRequest) (w : Worlds) : Prop := Draws i.env w.unblocked ∧ Draws i.env' w.blocked

instance (i : TwinRequest) (w : Worlds) : Decidable (FreshIds i w) :=
  inferInstanceAs (Decidable (_ ∧ _))

/-- The tables are the same but for the block of the sender by this account. -/
structure DifferInBlock (blocker : Uuid) (w : Worlds) : Prop where
  users : w.blocked.users = w.unblocked.users
  devices : w.blocked.devices = w.unblocked.devices
  conversations : w.blocked.conversations = w.unblocked.conversations
  participants : w.blocked.participants = w.unblocked.participants
  messageBlobs : w.blocked.messageBlobs = w.unblocked.messageBlobs
  blocks : ∀ b, b ≠ ⟨blocker, sender⟩ → (b ∈ w.blocked.blocks ↔ b ∈ w.unblocked.blocks)
  free : ⟨blocker, sender⟩ ∉ w.unblocked.blocks
  block : ⟨blocker, sender⟩ ∈ w.blocked.blocks

end Worlds

/-- A row of this device and client message identifier. -/
def hasKey (blobs : List MessageBlob) (recipientDeviceId clientMessageId : Uuid) : Bool :=
  blobs.any fun b => b.recipientDeviceId == recipientDeviceId && b.clientMessageId == clientMessageId

/-- The rows that were fetched. -/
def deliveredRows (blobs : List MessageBlob) : List MessageBlob := blobs.filter (·.deliveredAt != none)

/-- The row `POST /messages` would store is for a device of this account, and there already. -/
def repeatsRow (blocker : Uuid) (me : Auth) (body : SendBody) (db : Database) : Bool :=
  match requireMembership db body.conversationId me.userId, db.findDevice body.recipientDeviceId with
  | .ok _, some d => d.isActive && d.userId == blocker &&
      hasKey db.messageBlobs body.recipientDeviceId body.clientMessageId
  | _, _ => false

/-- The request sends a message again, to a device of the account that blocks in the one
server and not in the other. -/
def SenderRequest.repeats (sender blocker : Uuid) (r : SenderRequest) (db : Database) : Bool :=
  match requireAuth db ⟨sender, r.did⟩, r.call with
  | .ok me, .postMessages body => repeatsRow blocker me body db
  | _, _ => false

/-! ## The rows of the two tables -/

variable {blobs blobs' rows : List MessageBlob} {b : MessageBlob} {r c : Uuid}

theorem hasKey_iff : hasKey blobs r c = true ↔
    ∃ b ∈ blobs, b.recipientDeviceId = r ∧ b.clientMessageId = c := by
  unfold hasKey
  simp only [List.any_eq_true, Bool.and_eq_true, beq_iff_eq]

theorem hasKey_cons : hasKey (b :: blobs) r c = true ↔
    (b.recipientDeviceId = r ∧ b.clientMessageId = c) ∨ hasKey blobs r c = true := by
  simp only [hasKey_iff, List.exists_mem_cons_iff]

theorem hasKey_append : hasKey (blobs ++ rows) r c = true ↔
    hasKey blobs r c = true ∨ hasKey rows r c = true := by
  unfold hasKey
  rw [List.any_append, Bool.or_eq_true]

/-- With a new identifier, the key decides. -/
theorem createBlob_eq_none_iff (hid : ∀ b' ∈ blobs, b'.id ≠ b.id) :
    createBlob blobs b = none ↔ hasKey blobs b.recipientDeviceId b.clientMessageId = true := by
  have hany : blobs.any b.conflicts = true ↔
      hasKey blobs b.recipientDeviceId b.clientMessageId = true := by
    rw [hasKey_iff, List.any_eq_true]
    refine exists_congr fun b' => and_congr_right fun hb' => ?_
    unfold MessageBlob.conflicts
    simp only [Bool.or_eq_true, Bool.and_eq_true, beq_iff_eq]
    constructor
    · rintro (hsame | ⟨hrecipient, hclient⟩)
      · exact absurd hsame.symm (hid b' hb')
      · exact ⟨hrecipient.symm, hclient.symm⟩
    · rintro ⟨hrecipient, hclient⟩
      exact .inr ⟨hrecipient.symm, hclient.symm⟩
  rw [← hany]
  unfold createBlob
  split
  · simp [*]
  · simp [*]

theorem createBlob_eq_some (h : createBlob blobs b = some blobs') : blobs' = blobs ++ [b] := by
  unfold createBlob at h
  split at h
  · cases h
  · exact (Option.some.inj h).symm

/-- Every row whose identifier is new is there afterwards, as far as its key goes. -/
theorem hasKey_createManyBlobs (hnodup : (rows.map (·.id)).Nodup)
    (hid : ∀ b ∈ blobs, b.id ∉ rows.map (·.id)) :
    hasKey (createManyBlobs blobs rows) r c = true ↔
      hasKey blobs r c = true ∨ hasKey rows r c = true := by
  induction rows generalizing blobs with
  | nil => simp [createManyBlobs, hasKey]
  | cons b rows ih =>
    rw [List.map_cons, List.nodup_cons] at hnodup
    have hhead : ∀ b' ∈ blobs, b'.id ≠ b.id := fun b' hb' heq =>
      hid b' hb' (List.mem_map.mpr ⟨b, List.mem_cons_self, heq.symm⟩)
    have htail : ∀ b' ∈ blobs, b'.id ∉ rows.map (·.id) := fun b' hb' hmem =>
      hid b' hb' (List.mem_cons_of_mem _ hmem)
    unfold createManyBlobs
    rw [hasKey_cons]
    cases hcreate : createBlob blobs b with
    | none =>
      rw [Option.getD_none, ih hnodup.2 htail]
      have hthere := (createBlob_eq_none_iff hhead).mp hcreate
      constructor
      · rintro (hold | hnew)
        · exact .inl hold
        · exact .inr (.inr hnew)
      · rintro (hold | ⟨rfl, rfl⟩ | hnew)
        · exact .inl hold
        · exact .inl hthere
        · exact .inr hnew
    | some blobs' =>
      obtain rfl := createBlob_eq_some hcreate
      have hnew : ∀ b' ∈ blobs ++ [b], b'.id ∉ rows.map (·.id) := by
        intro b' hb'
        rcases List.mem_append.mp hb' with hold | hlast
        · exact htail b' hold
        · rw [List.mem_singleton.mp hlast]
          exact hnodup.1
      rw [Option.getD_some, ih hnodup.2 hnew, hasKey_append, hasKey_cons]
      simp only [hasKey, List.any_nil, Bool.false_eq_true, or_false]
      tauto

theorem deliveredRows_createBlob (hb : b.deliveredAt = none) (h : createBlob blobs b = some blobs') :
    deliveredRows blobs' = deliveredRows blobs := by
  obtain rfl := createBlob_eq_some h
  unfold deliveredRows
  rw [List.filter_append]
  simp [hb]

theorem deliveredRows_createManyBlobs (hrows : ∀ b ∈ rows, b.deliveredAt = none) :
    deliveredRows (createManyBlobs blobs rows) = deliveredRows blobs := by
  induction rows generalizing blobs with
  | nil => rfl
  | cons b rows ih =>
    unfold createManyBlobs
    rw [ih fun b' hb' => hrows b' (List.mem_cons_of_mem _ hb')]
    cases hcreate : createBlob blobs b with
    | none => rfl
    | some blobs' => exact deliveredRows_createBlob (hrows b List.mem_cons_self) hcreate

/-- The status of a message depends on the rows that were fetched. -/
theorem getStatus_congr {db db' : Database} (me : Auth) (ids : List Uuid)
    (h : deliveredRows db'.messageBlobs = deliveredRows db.messageBlobs) :
    getStatus me ids db' = getStatus me ids db := by
  have hfilter : ∀ blobs : List MessageBlob, blobs.filter (fun b =>
      b.senderDeviceId == some me.deviceId && (ids.take 500).contains b.clientMessageId &&
        b.deliveredAt != none) = (deliveredRows blobs).filter (fun b =>
      b.senderDeviceId == some me.deviceId && (ids.take 500).contains b.clientMessageId) := by
    intro blobs
    unfold deliveredRows
    rw [List.filter_filter]
  unfold getStatus
  dsimp only
  rw [hfilter, hfilter, h]

/-! ## What a message does to one server -/

/-- The row of a message. -/
def sentBlob (env : RequestEnv) (me : Auth) (body : SendBody) : MessageBlob where
  id := env.fresh 0
  conversationId := some body.conversationId
  channelId := none
  senderDeviceId := some me.deviceId
  recipientDeviceId := body.recipientDeviceId
  clientMessageId := body.clientMessageId
  ratchetHeader := body.header
  ciphertext := body.ciphertext
  createdAt := env.now
  deliveredAt := none
  expiresAt := env.now + retention

variable {db db' : Database} {env env' : RequestEnv} {me : Auth} {body : SendBody}
  {p : ConversationParticipant} {d : Device} {sender blocker : Uuid} {w : Worlds}

theorem requireMembership_congr (h : db'.participants = db.participants) (conversationId userId : Uuid) :
    requireMembership db' conversationId userId = requireMembership db conversationId userId := by
  unfold requireMembership Database.findParticipant
  rw [h]

theorem findDevice_congr (h : db'.devices = db.devices) (id : Uuid) :
    db'.findDevice id = db.findDevice id := by
  unfold Database.findDevice
  rw [h]

theorem postMessages_refused {e : HttpError}
    (hm : requireMembership db body.conversationId me.userId = .error e) :
    postMessages env me body db = (.error e, db) := by
  unfold postMessages
  rw [hm]

theorem postMessages_unknown (hm : requireMembership db body.conversationId me.userId = .ok p)
    (hd : ∀ d, db.findDevice body.recipientDeviceId = some d → d.isActive = false) :
    postMessages env me body db = (.error ⟨404, "appareil destinataire introuvable"⟩, db) := by
  unfold postMessages
  rw [hm]
  dsimp only
  cases hfound : db.findDevice body.recipientDeviceId with
  | none => rfl
  | some d =>
    dsimp only
    rw [hd d hfound]
    rfl

/-- Nothing is stored for who has blocked the sender. -/
theorem postMessages_blocked (hm : requireMembership db body.conversationId me.userId = .ok p)
    (hd : db.findDevice body.recipientDeviceId = some d) (hactive : d.isActive = true)
    (hblock : db.estBloque me.userId d.userId = true) :
    postMessages env me body db = (.ok ⟨201, .id (env.fresh 0)⟩, db) := by
  unfold postMessages
  rw [hm, hd]
  dsimp only
  rw [hactive, hblock]
  rfl

/-- A row that is there already is answered as such. -/
theorem postMessages_again (hm : requireMembership db body.conversationId me.userId = .ok p)
    (hd : db.findDevice body.recipientDeviceId = some d) (hactive : d.isActive = true)
    (hblock : db.estBloque me.userId d.userId = false)
    (hcreate : createBlob db.messageBlobs (sentBlob env me body) = none) :
    postMessages env me body db = (.ok ⟨200, .deduplicated⟩, db) := by
  unfold postMessages
  unfold sentBlob at hcreate
  rw [hm, hd]
  dsimp only
  rw [hactive, hblock, hcreate]
  rfl

theorem postMessages_stored (hm : requireMembership db body.conversationId me.userId = .ok p)
    (hd : db.findDevice body.recipientDeviceId = some d) (hactive : d.isActive = true)
    (hblock : db.estBloque me.userId d.userId = false)
    (hcreate : createBlob db.messageBlobs (sentBlob env me body) = some blobs) :
    postMessages env me body db =
      (.ok ⟨201, .id (env.fresh 0)⟩, { db with messageBlobs := blobs }) := by
  unfold postMessages
  unfold sentBlob at hcreate
  rw [hm, hd]
  dsimp only
  rw [hactive, hblock, hcreate]
  rfl

/-! ## The two servers stay twins -/

/-- What the two servers have in common throughout. -/
structure Twins (sender blocker : Uuid) (w : Worlds) : Prop where
  devices : w.blocked.devices = w.unblocked.devices
  participants : w.blocked.participants = w.unblocked.participants
  keys : (w.unblocked.devices.map (·.id)).Nodup
  others : ∀ u, u ≠ blocker → w.blocked.estBloque sender u = w.unblocked.estBloque sender u
  free : w.unblocked.estBloque sender blocker = false
  block : w.blocked.estBloque sender blocker = true
  /-- The rows for the devices of all other accounts. -/
  rows : ∀ r c, (∀ d ∈ w.unblocked.devices, d.id = r → d.userId ≠ blocker) →
    (hasKey w.blocked.messageBlobs r c = true ↔ hasKey w.unblocked.messageBlobs r c = true)
  delivered : deliveredRows w.blocked.messageBlobs = deliveredRows w.unblocked.messageBlobs

theorem estBloque_of_mem (h : (⟨blocker, sender⟩ : Block) ∈ db.blocks) :
    db.estBloque sender blocker = true := by
  unfold Database.estBloque
  rw [List.any_eq_true]
  exact ⟨_, h, by simp⟩

theorem mem_of_estBloque (h : db.estBloque sender blocker = true) :
    (⟨blocker, sender⟩ : Block) ∈ db.blocks := by
  unfold Database.estBloque at h
  obtain ⟨b, hb, hpair⟩ := List.any_eq_true.mp h
  rw [Bool.and_eq_true, beq_iff_eq, beq_iff_eq] at hpair
  obtain ⟨rfl, rfl⟩ := hpair
  exact hb

theorem Worlds.DifferInBlock.twins (h : w.DifferInBlock sender blocker)
    (hkeys : (w.unblocked.devices.map (·.id)).Nodup) : Twins sender blocker w where
  devices := h.devices
  participants := h.participants
  keys := hkeys
  others u hu := by
    rw [Bool.eq_iff_iff]
    have hne : (⟨u, sender⟩ : Block) ≠ ⟨blocker, sender⟩ := fun heq => hu (Block.mk.inj heq).1
    constructor
    · exact fun hb => estBloque_of_mem ((h.blocks _ hne).mp (mem_of_estBloque hb))
    · exact fun hb => estBloque_of_mem ((h.blocks _ hne).mpr (mem_of_estBloque hb))
  free := by
    rw [← Bool.not_eq_true]
    exact fun hb => h.free (mem_of_estBloque hb)
  block := estBloque_of_mem h.block
  rows r c _ := by rw [h.messageBlobs]
  delivered := by rw [h.messageBlobs]

/-- Only the stored messages may be different. -/
theorem Twins.store (h : Twins sender blocker w) {blobs blobs' : List MessageBlob}
    (hrows : ∀ r c, (∀ d ∈ w.unblocked.devices, d.id = r → d.userId ≠ blocker) →
      (hasKey blobs' r c = true ↔ hasKey blobs r c = true))
    (hdelivered : deliveredRows blobs' = deliveredRows blobs) :
    Twins sender blocker ⟨{ w.unblocked with messageBlobs := blobs },
      { w.blocked with messageBlobs := blobs' }⟩ :=
  ⟨h.devices, h.participants, h.keys, h.others, h.free, h.block, hrows, hdelivered⟩

/-- A device that is found is the only one with its identifier. -/
theorem Twins.owner (h : Twins sender blocker w) {id : Uuid} {d d' : Device}
    (hd : w.unblocked.findDevice id = some d) (hd' : d' ∈ w.unblocked.devices) (hid : d'.id = id) :
    d' = d := by
  have hfound : d.id = id := by simpa using List.find?_some hd
  exact List.inj_on_of_nodup_map h.keys hd' (List.mem_of_find?_eq_some hd) (hid.trans hfound.symm)

theorem Worlds.Draws.sentBlob (h : Draws env db) (me : Auth) (body : SendBody) :
    ∀ b ∈ db.messageBlobs, b.id ≠ (sentBlob env me body).id := by
  intro b hb heq
  exact h.2 b hb (List.mem_map.mpr ⟨0, List.mem_range.mpr (Nat.succ_pos _), heq.symm⟩)

theorem hasKey_sent {blobs blobs' : List MessageBlob}
    (hcreate : createBlob blobs (sentBlob env me body) = some blobs') :
    hasKey blobs' r c = true ↔ hasKey blobs r c = true ∨
      (body.recipientDeviceId = r ∧ body.clientMessageId = c) := by
  rw [createBlob_eq_some hcreate, hasKey_append, hasKey_cons]
  simp [hasKey, sentBlob]

/-- A message to the account that has blocked: the one server looks at its rows, the other
does not. -/
theorem Twins.messageBlocker (h : Twins sender blocker w) (hme : me.userId = sender)
    (hfresh : Worlds.Draws env w.unblocked)
    (hm : requireMembership w.unblocked body.conversationId me.userId = .ok p)
    (hd : w.unblocked.findDevice body.recipientDeviceId = some d) (hactive : d.isActive = true)
    (howner : d.userId = blocker) :
    ((SenderReply.route (postMessages env me body w.unblocked).1).withoutId =
        (SenderReply.route (postMessages env' me body w.blocked).1).withoutId ↔
      repeatsRow blocker me body w.unblocked = false) ∧
    Twins sender blocker ⟨(postMessages env me body w.unblocked).2,
      (postMessages env' me body w.blocked).2⟩ := by
  have hm' := (requireMembership_congr h.participants body.conversationId me.userId).trans hm
  have hd' := (findDevice_congr h.devices body.recipientDeviceId).trans hd
  have hblocked : postMessages env' me body w.blocked = (.ok ⟨201, .id (env'.fresh 0)⟩, w.blocked) :=
    postMessages_blocked hm' hd' hactive (by rw [hme, howner]; exact h.block)
  have hfree : w.unblocked.estBloque me.userId d.userId = false := by
    rw [hme, howner]
    exact h.free
  have hrepeats : repeatsRow blocker me body w.unblocked =
      hasKey w.unblocked.messageBlobs body.recipientDeviceId body.clientMessageId := by
    unfold repeatsRow
    rw [hm, hd]
    simp [hactive, howner]
  have hkey := createBlob_eq_none_iff (hfresh.sentBlob me body)
  rw [hblocked, hrepeats]
  cases hcreate : createBlob w.unblocked.messageBlobs (sentBlob env me body) with
  | none =>
    rw [postMessages_again hm hd hactive hfree hcreate]
    have hthere : hasKey w.unblocked.messageBlobs body.recipientDeviceId body.clientMessageId = true :=
      hkey.mp hcreate
    rw [hthere]
    exact ⟨by simp [SenderReply.withoutId], h⟩
  | some blobs =>
    rw [postMessages_stored hm hd hactive hfree hcreate]
    have hnew : hasKey w.unblocked.messageBlobs body.recipientDeviceId body.clientMessageId = false := by
      rw [← Bool.not_eq_true]
      intro hthere
      rw [hkey.mpr hthere] at hcreate
      cases hcreate
    rw [hnew]
    refine ⟨by simp [SenderReply.withoutId], h.store (fun r c hr => ?_) ?_⟩
    · rw [h.rows r c hr, hasKey_sent hcreate]
      constructor
      · exact .inl
      · rintro (hold | ⟨rfl, -⟩)
        · exact hold
        · have hid : d.id = body.recipientDeviceId := by simpa using List.find?_some hd
          exact absurd howner (hr d (List.mem_of_find?_eq_some hd) hid)
    · rw [h.delivered, deliveredRows_createBlob rfl hcreate]

/-- A message to another account does the same to the two servers. -/
theorem Twins.messageOther (h : Twins sender blocker w) (hme : me.userId = sender)
    (hfresh : Worlds.Draws env w.unblocked) (hfresh' : Worlds.Draws env' w.blocked)
    (hm : requireMembership w.unblocked body.conversationId me.userId = .ok p)
    (hd : w.unblocked.findDevice body.recipientDeviceId = some d) (hactive : d.isActive = true)
    (howner : d.userId ≠ blocker) :
    (SenderReply.route (postMessages env me body w.unblocked).1).withoutId =
        (SenderReply.route (postMessages env' me body w.blocked).1).withoutId ∧
      Twins sender blocker ⟨(postMessages env me body w.unblocked).2,
        (postMessages env' me body w.blocked).2⟩ := by
  have hm' := (requireMembership_congr h.participants body.conversationId me.userId).trans hm
  have hd' := (findDevice_congr h.devices body.recipientDeviceId).trans hd
  have hsame := h.others d.userId howner
  rw [← hme] at hsame
  have hrow : ∀ d' ∈ w.unblocked.devices, d'.id = body.recipientDeviceId → d'.userId ≠ blocker := by
    intro d' hmem hid
    rw [h.owner hd hmem hid]
    exact howner
  by_cases hblock : w.unblocked.estBloque me.userId d.userId = true
  · rw [postMessages_blocked hm hd hactive hblock,
      postMessages_blocked hm' hd' hactive (hsame.trans hblock)]
    exact ⟨rfl, h⟩
  · rw [Bool.not_eq_true] at hblock
    have hkey := createBlob_eq_none_iff (hfresh.sentBlob me body)
    have hkey' := createBlob_eq_none_iff (hfresh'.sentBlob me body)
    have hboth : createBlob w.blocked.messageBlobs (sentBlob env' me body) = none ↔
        createBlob w.unblocked.messageBlobs (sentBlob env me body) = none := by
      rw [hkey, hkey']
      exact h.rows _ _ hrow
    cases hcreate : createBlob w.unblocked.messageBlobs (sentBlob env me body) with
    | none =>
      rw [postMessages_again hm hd hactive hblock hcreate,
        postMessages_again hm' hd' hactive (hsame.trans hblock) (hboth.mpr hcreate)]
      exact ⟨rfl, h⟩
    | some blobs =>
      cases hcreate' : createBlob w.blocked.messageBlobs (sentBlob env' me body) with
      | none =>
        rw [hboth.mp hcreate'] at hcreate
        cases hcreate
      | some blobs' =>
        rw [postMessages_stored hm hd hactive hblock hcreate,
          postMessages_stored hm' hd' hactive (hsame.trans hblock) hcreate']
        refine ⟨rfl, h.store (fun r c hr => ?_) ?_⟩
        · rw [hasKey_sent hcreate, hasKey_sent hcreate', h.rows r c hr]
        · rw [deliveredRows_createBlob rfl hcreate, deliveredRows_createBlob rfl hcreate',
            h.delivered]

theorem Twins.message (h : Twins sender blocker w) (hme : me.userId = sender)
    (hfresh : Worlds.Draws env w.unblocked) (hfresh' : Worlds.Draws env' w.blocked)
    (body : SendBody) :
    ((SenderReply.route (postMessages env me body w.unblocked).1).withoutId =
        (SenderReply.route (postMessages env' me body w.blocked).1).withoutId ↔
      repeatsRow blocker me body w.unblocked = false) ∧
    Twins sender blocker ⟨(postMessages env me body w.unblocked).2,
      (postMessages env' me body w.blocked).2⟩ := by
  have hmembership := requireMembership_congr h.participants body.conversationId me.userId
  have hdevice := findDevice_congr h.devices body.recipientDeviceId
  cases hm : requireMembership w.unblocked body.conversationId me.userId with
  | error e =>
    rw [postMessages_refused hm, postMessages_refused (hmembership.trans hm)]
    have hrepeats : repeatsRow blocker me body w.unblocked = false := by
      unfold repeatsRow
      rw [hm]
    exact ⟨iff_of_true rfl hrepeats, h⟩
  | ok p =>
    by_cases hfound : ∃ d, w.unblocked.findDevice body.recipientDeviceId = some d ∧ d.isActive = true
    · obtain ⟨d, hd, hactive⟩ := hfound
      by_cases howner : d.userId = blocker
      · exact h.messageBlocker hme hfresh hm hd hactive howner
      · obtain ⟨hreply, htwins⟩ := h.messageOther hme hfresh hfresh' hm hd hactive howner
        have hrepeats : repeatsRow blocker me body w.unblocked = false := by
          unfold repeatsRow
          rw [hm, hd]
          simp [howner]
        exact ⟨iff_of_true hreply hrepeats, htwins⟩
    · have hinactive : ∀ d, w.unblocked.findDevice body.recipientDeviceId = some d →
          d.isActive = false := by
        intro d hd
        rw [← Bool.not_eq_true]
        exact fun hactive => hfound ⟨d, hd, hactive⟩
      rw [postMessages_unknown hm hinactive, postMessages_unknown (hmembership.trans hm)
        fun d hd => hinactive d (hdevice ▸ hd)]
      have hrepeats : repeatsRow blocker me body w.unblocked = false := by
        unfold repeatsRow
        rw [hm]
        cases hd : w.unblocked.findDevice body.recipientDeviceId with
        | none => rfl
        | some d => simp [hinactive d hd]
      exact ⟨iff_of_true rfl hrepeats, h⟩

/-! ## Group messages -/

variable {group : GroupSendBody} {cibles : List Device}

theorem hasKey_groupBlobs : hasKey (groupBlobs env me group cibles) r c = true ↔
    group.clientMessageId = c ∧ ∃ d ∈ cibles, d.id = r := by
  rw [hasKey_iff]
  unfold groupBlobs
  constructor
  · rintro ⟨b, hb, hrecipient, hclient⟩
    obtain ⟨⟨d, i⟩, hzip, rfl⟩ := List.mem_map.mp hb
    exact ⟨hclient, d, List.fst_mem_of_mem_zipIdx hzip, hrecipient⟩
  · rintro ⟨hclient, d, hd, hrecipient⟩
    obtain ⟨i, hi, rfl⟩ := List.mem_iff_getElem.mp hd
    exact ⟨_, List.mem_map.mpr ⟨(cibles[i], i), List.mem_zipIdx_iff_getElem?.mpr (by simp), rfl⟩,
      hrecipient, hclient⟩

theorem groupBlobs_ids : (groupBlobs env me group cibles).map (·.id) =
    (List.range cibles.length).map env.fresh := by
  unfold groupBlobs
  rw [List.range_eq_range', ← List.zipIdx_map_snd 0 cibles, List.map_map, List.map_map]
  refine List.map_congr_left ?_
  rintro ⟨d, i⟩ _
  rfl

theorem groupBlobs_undelivered : ∀ b ∈ groupBlobs env me group cibles, b.deliveredAt = none := by
  intro b hb
  obtain ⟨⟨d, i⟩, -, rfl⟩ := List.mem_map.mp hb
  rfl

/-- The rows of a group message have identifiers of their own. -/
theorem Worlds.Draws.groupBlobs (h : Draws env db) (me : Auth) (group : GroupSendBody)
    (hcibles : cibles.length ≤ db.devices.length) :
    ((groupBlobs env me group cibles).map (·.id)).Nodup ∧
      ∀ b ∈ db.messageBlobs, b.id ∉ (Server.groupBlobs env me group cibles).map (·.id) := by
  have hsub : ((List.range cibles.length).map env.fresh).Sublist
      ((List.range (db.devices.length + 1)).map env.fresh) := by
    refine List.Sublist.map env.fresh ?_
    exact List.range_sublist.mpr (by omega)
  rw [groupBlobs_ids]
  exact ⟨h.1.sublist hsub, fun b hb hmem => h.2 b hb (hsub.subset hmem)⟩

/-- The devices of a group message that the sender is not blocked from. -/
def groupTargets (me : Auth) (body : GroupSendBody) (db : Database) : List Device :=
  (db.devices.filter fun d => body.recipientDeviceIds.contains d.id && d.isActive).filter fun d =>
    !db.estBloque me.userId d.userId

theorem groupTargets_length (me : Auth) (body : GroupSendBody) (db : Database) :
    (groupTargets me body db).length ≤ db.devices.length :=
  Nat.le_trans (List.length_filter_le _ _) (List.length_filter_le _ _)

theorem mem_groupTargets {db : Database} : d ∈ groupTargets me group db ↔
    (d ∈ db.devices ∧ (group.recipientDeviceIds.contains d.id && d.isActive) = true) ∧
      db.estBloque me.userId d.userId = false := by
  unfold groupTargets
  rw [List.mem_filter, List.mem_filter, Bool.not_eq_true']

/-- A group message is answered the same whoever has blocked the sender, and stores the
same rows for the devices of all other accounts. -/
theorem Twins.groupMessage (h : Twins sender blocker w) (hme : me.userId = sender)
    (hfresh : Worlds.Draws env w.unblocked) (hfresh' : Worlds.Draws env' w.blocked)
    (body : GroupSendBody) :
    (postMessagesGroup env me body w.unblocked).1 = (postMessagesGroup env' me body w.blocked).1 ∧
      Twins sender blocker ⟨(postMessagesGroup env me body w.unblocked).2,
        (postMessagesGroup env' me body w.blocked).2⟩ := by
  have hmembership := requireMembership_congr h.participants body.conversationId me.userId
  unfold postMessagesGroup
  split
  · exact ⟨rfl, h⟩
  · rw [hmembership]
    cases hm : requireMembership w.unblocked body.conversationId me.userId with
    | error e => exact ⟨rfl, h⟩
    | ok p =>
      refine ⟨rfl, h.store (fun r c hr => ?_) ?_⟩
      · obtain ⟨hnodup, hid⟩ := hfresh.groupBlobs me body (groupTargets_length me body w.unblocked)
        obtain ⟨hnodup', hid'⟩ := hfresh'.groupBlobs me body (groupTargets_length me body w.blocked)
        have hrows := hasKey_createManyBlobs (r := r) (c := c) hnodup hid
        have hrows' := hasKey_createManyBlobs (r := r) (c := c) hnodup' hid'
        have htargets : (∃ d ∈ groupTargets me body w.blocked, d.id = r) ↔
            ∃ d ∈ groupTargets me body w.unblocked, d.id = r := by
          refine exists_congr fun d => and_congr_left fun hid => ?_
          rw [mem_groupTargets, mem_groupTargets, h.devices]
          refine and_congr_right fun hd => ?_
          rw [hme, h.others d.userId (hr d hd.1 hid)]
        rw [hasKey_groupBlobs] at hrows hrows'
        rw [htargets, h.rows r c hr] at hrows'
        exact hrows'.trans hrows.symm
      · rw [deliveredRows_createManyBlobs, deliveredRows_createManyBlobs, h.delivered]
        · exact groupBlobs_undelivered
        · exact groupBlobs_undelivered

theorem requireAuth_congr (h : db'.devices = db.devices) (claims : Claims) :
    requireAuth db' claims = requireAuth db claims := by
  unfold requireAuth
  rw [findDevice_congr h]

/-- One request to both: the answers are the same unless it repeats a message to the
account that has blocked. -/
theorem Twins.handle (h : Twins sender blocker w) (i : TwinRequest)
    (hfresh : Worlds.FreshIds i w) :
    (Worlds.SameReply sender i w ↔ i.request.repeats sender blocker w.unblocked = false) ∧
      ∀ w', Worlds.step sender i w = some w' → Twins sender blocker w' := by
  have hauth := requireAuth_congr h.devices ⟨sender, i.request.did⟩
  unfold Worlds.SameReply Worlds.step SenderRequest.handle SenderRequest.repeats
  rw [hauth]
  cases hauth' : requireAuth w.unblocked ⟨sender, i.request.did⟩ with
  | error e =>
    refine ⟨iff_of_true rfl rfl, fun w' hw' => ?_⟩
    obtain rfl := Option.some.inj hw'
    exact h
  | ok me =>
    have hme : me.userId = sender := by
      rw [(requireAuth_ok hauth').1]
    dsimp only
    cases hcall : i.request.call with
    | postMessages body =>
      obtain ⟨hreply, htwins⟩ := h.message hme hfresh.1 hfresh.2 body
      refine ⟨hreply, fun w' hw' => ?_⟩
      obtain rfl := Option.some.inj hw'
      exact htwins
    | postMessagesGroup body =>
      obtain ⟨hreply, htwins⟩ := h.groupMessage hme hfresh.1 hfresh.2 body
      refine ⟨iff_of_true ?_ rfl, fun w' hw' => ?_⟩
      · dsimp only
        rw [hreply]
      · obtain rfl := Option.some.inj hw'
        exact htwins
    | getStatus ids =>
      refine ⟨iff_of_true ?_ rfl, fun w' hw' => ?_⟩
      · dsimp only
        rw [getStatus_congr me ids h.delivered]
      · obtain rfl := Option.some.inj hw'
        exact h

/-- Two servers that differ in the block of the sender by an account answer the sender the
same, whatever it sends, exactly when it repeats no message to that account. The
identifiers of the devices are keys, and those that are drawn are new. -/
theorem block_indistinguishable (sender blocker : Uuid) (w : Worlds)
    (hdiffer : w.DifferInBlock sender blocker) (hkeys : (w.unblocked.devices.map (·.id)).Nodup)
    (inputs : List TwinRequest) (hfresh : Always (Worlds.step sender) Worlds.FreshIds inputs w) :
    Always (Worlds.step sender) (Worlds.SameReply sender) inputs w ↔
      Always (Worlds.step sender)
        (fun i w => i.request.repeats sender blocker w.unblocked = false) inputs w := by
  refine always_iff_of_always (Twins sender blocker) ?_ ?_ (hdiffer.twins hkeys) hfresh
  · intro i w w' hw hi _ hstep
    exact (hw.handle i hi).2 w' hstep
  · intro i w hw hi
    exact (hw.handle i hi).1

/-! ## Two messages, and one message twice -/

/-- Account 100 with device 10 shares a conversation with account 200 with device 20. -/
def twoMembers (blocks : List Block) : Database where
  users := [⟨100, none⟩, ⟨200, none⟩]
  devices := [⟨10, 100, true⟩, ⟨20, 200, true⟩]
  conversations := [⟨5, .direct, some 100⟩]
  participants := [⟨5, 100, .admin, 0, none⟩, ⟨5, 200, .member, 0, none⟩]
  blocks := blocks
  messageBlobs := []

/-- Account 200 has blocked account 100, or not. -/
def sampleWorlds : Worlds := ⟨twoMembers [], twoMembers [⟨200, 100⟩]⟩

def sampleTwin (draw : Nat) (call : SenderCall) : TwinRequest :=
  ⟨⟨10, call⟩, ⟨draw, fun i => 1000 * draw + i⟩, ⟨draw, fun i => 2000 * draw + i⟩⟩

theorem sampleWorlds_differ : sampleWorlds.DifferInBlock 100 200 where
  users := rfl
  devices := rfl
  conversations := rfl
  participants := rfl
  messageBlobs := rfl
  blocks b hb := by
    constructor
    · exact fun hmem => absurd (List.mem_singleton.mp hmem) hb
    · intro hmem
      cases hmem
  free := by decide
  block := by decide

def sampleInputs : List TwinRequest :=
  [sampleTwin 1 (.postMessages ⟨5, 20, 7, [], []⟩), sampleTwin 2 (.postMessages ⟨5, 20, 8, [], []⟩),
    sampleTwin 3 (.postMessagesGroup ⟨5, 8, [20], [], []⟩), sampleTwin 4 (.getStatus [7, 8])]

theorem sampleInputs_indistinguishable :
    Always (Worlds.step 100) (Worlds.SameReply 100) sampleInputs sampleWorlds :=
  (block_indistinguishable 100 200 sampleWorlds sampleWorlds_differ (by decide) sampleInputs
    (by decide)).mpr (by decide)

/-- The message is sent a second time, as after a lost connection. -/
def repeatedInputs : List TwinRequest :=
  [sampleTwin 1 (.postMessages ⟨5, 20, 7, [], []⟩), sampleTwin 2 (.postMessages ⟨5, 20, 7, [], []⟩)]

/-- The second answer tells of the block. -/
theorem repeatedInputs_distinguish :
    Always (Worlds.step 100) Worlds.FreshIds repeatedInputs sampleWorlds ∧
      sampleWorlds.DifferInBlock 100 200 ∧
      ¬ Always (Worlds.step 100) (Worlds.SameReply 100) repeatedInputs sampleWorlds :=
  ⟨by decide, sampleWorlds_differ, by decide⟩

end ZiaCrypte.Server
