import ZiaCrypte.Server.Routes

/-!
# Who a message of a conversation is stored for

The sender has to be an active member on a device that was not revoked. Of the
recipients, which the sender lists, only revoked devices and blocks are left out.
-/
namespace ZiaCrypte.Server

open ZiaCrypte.Lib

/-- An active member of a conversation. -/
def Database.ActiveMember (db : Database) (conversationId userId : Uuid) : Prop :=
  ∃ p ∈ db.findParticipant conversationId userId, p.leftAt = none

instance (db : Database) (conversationId userId : Uuid) :
    Decidable (db.ActiveMember conversationId userId) :=
  inferInstanceAs (Decidable (∃ p ∈ db.findParticipant conversationId userId, p.leftAt = none))

/-- The devices a send route is given. -/
def Call.recipients : Call → List Uuid
  | .postMessages body => [body.recipientDeviceId]
  | .postMessagesGroup body => body.recipientDeviceIds
  | _ => []

/-- A request may store this message in the conversation. -/
structure MayStore (r : Request) (db : Database) (conversationId : Uuid) (b : MessageBlob) :
    Prop where
  sender : ∃ device, db.findDevice r.claims.did = some device ∧ device.isActive = true ∧
    b.senderDeviceId = some r.claims.did ∧ db.ActiveMember conversationId device.userId ∧
    ∃ recipient ∈ db.devices, recipient.id = b.recipientDeviceId ∧ recipient.isActive = true ∧
      db.estBloque device.userId recipient.userId = false
  listed : b.recipientDeviceId ∈ r.call.recipients

/-- What an event stores in a conversation it may store. -/
def StoresPermitted : Event → Database → Prop
  | .request r, db => ∀ b c, b ∈ (r.handle db).2.messageBlobs → b ∉ db.messageBlobs →
      b.conversationId = some c → MayStore r db c b
  | .register userId deviceId, db =>
      ((Event.register userId deviceId).step db).messageBlobs = db.messageBlobs

variable {db : Database} {r : Request}

theorem requireAuth_ok {claims : Claims} {me : Auth} (h : requireAuth db claims = .ok me) :
    me = ⟨claims.sub, claims.did⟩ ∧ ∃ device, db.findDevice claims.did = some device ∧
      device.isActive = true ∧ device.userId = claims.sub := by
  unfold requireAuth at h
  split at h
  · cases h
  · rename_i device hdevice
    split at h
    · cases h
    · rename_i hok
      simp only [Bool.or_eq_true, Bool.not_eq_true', decide_eq_true_eq, not_or,
        Bool.not_eq_false, not_not] at hok
      exact ⟨(Except.ok.inj h).symm, device, hdevice, hok.1, hok.2⟩

theorem requireMembership_ok {conversationId userId : Uuid} {p : ConversationParticipant}
    (h : requireMembership db conversationId userId = .ok p) :
    db.ActiveMember conversationId userId := by
  unfold requireMembership at h
  split at h
  · cases h
  · rename_i participant hparticipant
    split at h
    · cases h
    · rename_i hleft
      exact ⟨participant, hparticipant, not_not.mp hleft⟩

/-- The routes on members, blocks and devices store no message. -/
theorem route_keepsBlobs (env : RequestEnv) (me : Auth) (call : Call)
    (hone : ∀ body, call ≠ .postMessages body) (hgroup : ∀ body, call ≠ .postMessagesGroup body) :
    (call.route env me db).2.messageBlobs = db.messageBlobs := by
  cases call with
  | postConversations type ids =>
    simp only [Call.route, postConversations]
    repeat' split
    all_goals rfl
  | postMember id userId =>
    simp only [Call.route, postMember]
    repeat' split
    all_goals rfl
  | deleteMember id userId =>
    simp only [Call.route, deleteMember]
    generalize (if userId = me.userId then requireMembership db id me.userId
      else requireAdmin db id me.userId) = checked
    cases checked with
    | error e => rfl
    | ok p =>
      dsimp only
      split <;> rfl
  | postBlock userId =>
    simp only [Call.route, postBlock]
    repeat' split
    all_goals rfl
  | deleteBlock userId => rfl
  | deleteDevice deviceId =>
    simp only [Call.route, deleteDevice]
    repeat' split
    all_goals rfl
  | postMessages body => exact absurd rfl (hone body)
  | postMessagesGroup body => exact absurd rfl (hgroup body)

/-- A member's own request: what is left to check is the recipient. -/
theorem mayStore_of_recipient {me : Auth} {c : Uuid} {b : MessageBlob} {recipient : Device}
    (hauth : requireAuth db r.claims = .ok me) (hmember : db.ActiveMember c me.userId)
    (hsender : b.senderDeviceId = some me.deviceId) (hmem : recipient ∈ db.devices)
    (hid : recipient.id = b.recipientDeviceId) (hactive : recipient.isActive = true)
    (hblock : db.estBloque me.userId recipient.userId = false)
    (hlisted : b.recipientDeviceId ∈ r.call.recipients) : MayStore r db c b := by
  obtain ⟨rfl, device, hdevice, hdeviceActive, huser⟩ := requireAuth_ok hauth
  refine ⟨⟨device, hdevice, hdeviceActive, hsender, ?_, recipient, hmem, hid, hactive, ?_⟩, hlisted⟩
  · rw [huser]
    exact hmember
  · rw [huser]
    exact hblock

theorem storesPermitted_one {me : Auth} {body : SendBody} (hcall : r.call = .postMessages body)
    (hauth : requireAuth db r.claims = .ok me) {b : MessageBlob} {c : Uuid}
    (hb : b ∈ (postMessages r.env me body db).2.messageBlobs) (hnew : b ∉ db.messageBlobs)
    (hc : b.conversationId = some c) : MayStore r db c b := by
  unfold postMessages at hb
  split at hb
  · exact absurd hb hnew
  rename_i p hmember
  split at hb
  · exact absurd hb hnew
  rename_i recipient hrecipient
  split at hb
  · exact absurd hb hnew
  rename_i hactive
  split at hb
  · exact absurd hb hnew
  rename_i hblock
  dsimp only at hb
  split at hb
  · exact absurd hb hnew
  rename_i blobs hcreate
  obtain rfl := (mem_createBlob hcreate hb).resolve_left hnew
  obtain rfl := Option.some.inj hc
  have hid : recipient.id = body.recipientDeviceId := by
    have hfound := List.find?_some hrecipient
    simpa using hfound
  refine mayStore_of_recipient hauth (requireMembership_ok hmember) rfl
    (List.mem_of_find?_eq_some hrecipient) hid (by simpa using hactive) (by simpa using hblock) ?_
  rw [hcall]
  exact List.mem_singleton.mpr rfl

theorem storesPermitted_group {me : Auth} {body : GroupSendBody}
    (hcall : r.call = .postMessagesGroup body) (hauth : requireAuth db r.claims = .ok me)
    {b : MessageBlob} {c : Uuid}
    (hb : b ∈ (postMessagesGroup r.env me body db).2.messageBlobs) (hnew : b ∉ db.messageBlobs)
    (hc : b.conversationId = some c) : MayStore r db c b := by
  unfold postMessagesGroup at hb
  split at hb
  · exact absurd hb hnew
  split at hb
  · exact absurd hb hnew
  rename_i p hmember
  have hrow := (mem_createManyBlobs hb).resolve_left hnew
  obtain ⟨⟨recipient, i⟩, hzip, rfl⟩ := List.mem_map.mp hrow
  obtain rfl := Option.some.inj hc
  have hcible := (List.mem_zipIdx hzip).2.2
  have hmem : recipient ∈ (db.devices.filter fun d =>
      body.recipientDeviceIds.contains d.id && d.isActive).filter fun d =>
        !db.estBloque me.userId d.userId := by
    rw [hcible]
    exact List.getElem_mem _
  obtain ⟨hdevice, hblock⟩ := List.mem_filter.mp hmem
  obtain ⟨hmem', hlisted⟩ := List.mem_filter.mp hdevice
  rw [Bool.and_eq_true] at hlisted
  refine mayStore_of_recipient hauth (requireMembership_ok hmember) rfl hmem' rfl hlisted.2
    (by simpa using hblock) ?_
  rw [hcall]
  exact List.contains_iff_mem.mp hlisted.1

theorem storesPermitted_step (e : Event) (db : Database) : StoresPermitted e db := by
  cases e with
  | register userId deviceId => rfl
  | request r =>
    intro b c hb hnew hc
    unfold Request.handle at hb
    split at hb
    · exact absurd hb hnew
    rename_i me hauth
    cases hcall : r.call with
    | postMessages body =>
      rw [hcall] at hb
      exact storesPermitted_one hcall hauth hb hnew hc
    | postMessagesGroup body =>
      rw [hcall] at hb
      exact storesPermitted_group hcall hauth hb hnew hc
    | _ =>
      refine absurd ?_ hnew
      rw [← route_keepsBlobs r.env me r.call (by rw [hcall]; exact fun _ h => nomatch h)
        (by rw [hcall]; exact fun _ h => nomatch h)]
      exact hb

/-- After any requests: what a request stores in a conversation comes from an active
member, and goes to devices that were not revoked and whose owners did not block it. -/
theorem storedMessages_permitted (events : List Event) :
    Always (fun e db => some (Event.step e db)) StoresPermitted events Database.empty :=
  always_of_forall storesPermitted_step events Database.empty

/-! ## A member who was removed -/

def sampleRequest (user device : Uuid) (call : Call) : Event :=
  .request ⟨⟨user, device⟩, ⟨0, fun i => 5 + i⟩, call⟩

/-- User 2 is taken out of the group 5. -/
def memberRemoved : List Event :=
  [.register 1 10, .register 2 20, sampleRequest 1 10 (.postConversations .group [2]),
    sampleRequest 1 10 (.deleteMember 5 2)]

/-- The message is stored for the device of user 2, who is no active member. -/
theorem removedMember_stored :
    ∃ db, run (fun e db => some (Event.step e db)) memberRemoved Database.empty = some db ∧
      (db.findDevice 20).map (·.userId) = some 2 ∧ ¬ db.ActiveMember 5 2 ∧
      ∃ b ∈ ((sampleRequest 1 10 (.postMessages ⟨5, 20, 7, [], []⟩)).step db).messageBlobs,
        b ∉ db.messageBlobs ∧ b.conversationId = some 5 ∧ b.recipientDeviceId = 20 :=
  ⟨_, rfl, by decide, by decide, by decide⟩

end ZiaCrypte.Server
