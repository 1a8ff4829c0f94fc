import ZiaCrypte.Server.Rows

/-!
# What `prisma.user.delete` removes

`DELETE /users/me` and `DELETE /admin/users/:id` delete one row of `users`, and
the foreign keys do the rest. `belongs` says table by table which rows go, and
`forget` which columns are set to null.
-/
namespace ZiaCrypte.Server

open ZiaCrypte.Lib

/-- An update writes no key and no foreign key. -/
inductive TableStatement where
  | insert (r : Row)
  | update (r : Row)
  | delete (keys : List RowKey)

/-- `none` where a key is taken or names no row. -/
def tableStep : TableStatement → List Row → Option (List Row)
  | .insert r, db => schema.insert r db
  | .update r, db =>
      if db.any fun x => x.key = r.key ∧ x.refs = r.refs then
        some (db.map fun x => if x.key = r.key then r else x)
      else none
  | .delete keys, db => some (schema.delete keys db)

section

variable (db : List Row) (userId : Uuid)

/-- A device of this account. -/
def ofUser (deviceId : Uuid) : Bool :=
  db.any fun
    | .device r => r.id == deviceId && r.userId == userId
    | _ => false

/-- A blob that a device of this account sent or is to receive. -/
def Rows.MessageBlob.ofUser (r : Rows.MessageBlob) : Bool :=
  r.senderDeviceId.any (Server.ofUser db userId) || Server.ofUser db userId r.recipientDeviceId

def belongs : Row → Bool
  | .user r => r.id == userId
  | .webauthnCredential r => r.userId == userId
  | .device r => r.userId == userId
  | .signedPrekey r => ofUser db userId r.deviceId
  | .oneTimePrekey r => ofUser db userId r.deviceId
  | .deviceSignature r => ofUser db userId r.signerDeviceId || ofUser db userId r.signedDeviceId
  | .conversation _ => false
  | .conversationParticipant r => r.userId == userId
  | .messageBlob r => r.ofUser db userId
  | .messageReceipt r =>
      db.any fun
        | .messageBlob blob => blob.id == r.messageBlobId && blob.ofUser db userId
        | _ => false
  | .channel _ => false
  | .channelSubscriber r => r.userId == userId || ofUser db userId r.deviceId
  | .attachmentRef r => r.ownerUserId == some userId
  | .pushToken r => ofUser db userId r.deviceId
  | .authSession r => r.userId == userId || ofUser db userId r.deviceId
  | .block r => r.blockerUserId == userId || r.blockedUserId == userId
  | .adminAction _ => false
  | .report _ => false
  | .auditLog _ => false

def forget : Row → Row
  | .conversation r =>
      .conversation { r with createdBy := r.createdBy.filter (· ≠ userId) }
  | .channel r => .channel { r with
      adminUserId := r.adminUserId.filter (· ≠ userId)
      adminDeviceId := r.adminDeviceId.filter fun id => !ofUser db userId id }
  | r => r

end

variable {db : List Row} {userId : Uuid}

theorem ofUser_iff {deviceId : Uuid} : ofUser db userId deviceId = true ↔
    ∃ r, Row.device r ∈ db ∧ r.id = deviceId ∧ r.userId = userId := by
  simp only [ofUser, List.any_eq_true]
  constructor
  · rintro ⟨row, hrow, hdevice⟩
    cases row <;> simp at hdevice
    exact ⟨_, hrow, hdevice⟩
  · rintro ⟨r, hr, rfl, rfl⟩
    exact ⟨_, hr, by simp⟩

/-- The row with this key, if there is one, belongs to the account. -/
def Owned (db : List Row) (userId : Uuid) (k : RowKey) : Prop :=
  k = .user userId ∨ ∃ r ∈ db, r.key = k ∧ belongs db userId r = true

theorem owned_user {id : Uuid} : Owned db userId (.user id) ↔ id = userId := by
  constructor
  · rintro (h | ⟨r, -, hkey, hbelongs⟩)
    · exact RowKey.user.inj h
    · cases r <;> simp [Row.key] at hkey
      rw [← hkey]
      simpa [belongs] using hbelongs
  · rintro rfl
    exact .inl rfl

theorem owned_device {id : Uuid} : Owned db userId (.device id) ↔ ofUser db userId id = true := by
  rw [ofUser_iff]
  constructor
  · rintro (h | ⟨r, hr, hkey, hbelongs⟩)
    · cases h
    · cases r <;> simp [Row.key] at hkey
      exact ⟨_, hr, hkey, by simpa [belongs] using hbelongs⟩
  · rintro ⟨r, hr, rfl, rfl⟩
    exact .inr ⟨_, hr, rfl, by simp [belongs]⟩

theorem owned_messageBlob {id : Uuid} : Owned db userId (.messageBlob id) ↔
    ∃ r, Row.messageBlob r ∈ db ∧ r.id = id ∧ r.ofUser db userId = true := by
  constructor
  · rintro (h | ⟨r, hr, hkey, hbelongs⟩)
    · cases h
    · cases r <;> simp [Row.key] at hkey
      exact ⟨_, hr, hkey, hbelongs⟩
  · rintro ⟨r, hr, rfl, h⟩
    exact .inr ⟨_, hr, rfl, h⟩

theorem not_owned_conversation {id : Uuid} : ¬Owned db userId (.conversation id) := by
  rintro (h | ⟨r, -, hkey, hbelongs⟩)
  · cases h
  · cases r <;> simp [Row.key] at hkey
    cases hbelongs

theorem not_owned_channel {id : Uuid} : ¬Owned db userId (.channel id) := by
  rintro (h | ⟨r, -, hkey, hbelongs⟩)
  · cases h
  · cases r <;> simp [Row.key] at hkey
    cases hbelongs

/-- A row that goes with a row of the account is one of the account's. -/
theorem belongs_of_refs {r : Row} {e : ForeignKey × RowKey} (he : e ∈ r.refs)
    (hcascade : e.1.onDelete = .cascade) (h : Owned db userId e.2) : belongs db userId r = true := by
  cases r with
  | messageBlob r =>
    simp only [Row.refs, List.mem_append, Row.mem_optional, List.mem_singleton] at he
    rcases he with ((⟨id, -, rfl⟩ | ⟨id, -, rfl⟩) | ⟨id, hid, rfl⟩) | rfl
    · exact absurd h not_owned_conversation
    · exact absurd h not_owned_channel
    · simp [belongs, Rows.MessageBlob.ofUser, hid, owned_device.mp h]
    · simp [belongs, Rows.MessageBlob.ofUser, owned_device.mp h]
  | messageReceipt r =>
    obtain rfl := List.mem_singleton.mp he
    obtain ⟨blob, hblob, hid, howned⟩ := owned_messageBlob.mp h
    exact List.any_eq_true.mpr ⟨_, hblob, by simp [hid, howned]⟩
  | _ =>
    simp only [Row.refs, List.mem_append, Row.mem_optional, List.mem_cons, List.not_mem_nil,
      or_false] at he <;>
    grind [belongs, ForeignKey.onDelete, owned_user, owned_device, not_owned_conversation,
      not_owned_channel]

theorem owned_of_depends {k : RowKey} (h : schema.Depends db [.user userId] k) :
    Owned db userId k := by
  induction h with
  | root h => exact .inl (List.mem_singleton.mp h)
  | @cascade r e hr he hcascade _ ih =>
    exact .inr ⟨r, hr, rfl, belongs_of_refs he hcascade ih⟩

theorem depends_user : schema.Depends db [.user userId] (.user userId) :=
  .root (List.mem_singleton.mpr rfl)

theorem depends_device {id : Uuid} (h : ofUser db userId id = true) :
    schema.Depends db [.user userId] (.device id) := by
  obtain ⟨r, hr, rfl, rfl⟩ := ofUser_iff.mp h
  exact .cascade (e := (.deviceUser, .user r.userId)) hr List.mem_cons_self rfl depends_user

theorem depends_messageBlob {r : Rows.MessageBlob} (hr : Row.messageBlob r ∈ db)
    (h : r.ofUser db userId = true) : schema.Depends db [.user userId] (.messageBlob r.id) := by
  rcases Bool.or_eq_true_iff.mp h with hsender | hrecipient
  · obtain ⟨id, hid, howned⟩ := (Option.any_eq_true _ _).mp hsender
    exact .cascade (e := (.blobSender, .device id)) hr (by simp [schema, Row.refs, hid]) rfl
      (depends_device howned)
  · exact .cascade (e := (.blobRecipient, .device r.recipientDeviceId)) hr
      (by simp [schema, Row.refs]) rfl (depends_device hrecipient)

theorem depends_of_user {r : Row} {c : ForeignKey} {id : Uuid} (hr : r ∈ db)
    (he : (c, .user id) ∈ r.refs) (hcascade : c.onDelete = .cascade) (h : (id == userId) = true) :
    schema.Depends db [.user userId] r.key :=
  .cascade hr he hcascade (beq_iff_eq.mp h ▸ depends_user)

theorem depends_of_device {r : Row} {c : ForeignKey} {id : Uuid} (hr : r ∈ db)
    (he : (c, .device id) ∈ r.refs) (hcascade : c.onDelete = .cascade)
    (h : ofUser db userId id = true) : schema.Depends db [.user userId] r.key :=
  .cascade hr he hcascade (depends_device h)

/-- A row of the account goes with it: at once, or with a device, or with a blob of one. -/
theorem depends_of_belongs {r : Row} (hr : r ∈ db) (h : belongs db userId r = true) :
    schema.Depends db [.user userId] r.key := by
  cases r with
  | user r =>
    obtain rfl := beq_iff_eq.mp h
    exact depends_user
  | webauthnCredential r => exact depends_of_user hr List.mem_cons_self rfl h
  | device r => exact depends_of_user hr List.mem_cons_self rfl h
  | signedPrekey r => exact depends_of_device hr List.mem_cons_self rfl h
  | oneTimePrekey r => exact depends_of_device hr List.mem_cons_self rfl h
  | deviceSignature r =>
    rcases Bool.or_eq_true_iff.mp h with h | h
    · exact depends_of_device hr List.mem_cons_self rfl h
    · exact depends_of_device hr (List.mem_cons_of_mem _ List.mem_cons_self) rfl h
  | conversation r => cases h
  | conversationParticipant r =>
    exact depends_of_user hr (List.mem_cons_of_mem _ List.mem_cons_self) rfl h
  | messageBlob r => exact depends_messageBlob hr h
  | messageReceipt r =>
    obtain ⟨row, hrow, hblob⟩ := List.any_eq_true.mp h
    cases row <;> simp at hblob
    rename_i blob
    obtain ⟨hid, howned⟩ := hblob
    exact .cascade (e := (.receiptMessageBlob, .messageBlob r.messageBlobId)) hr
      List.mem_cons_self rfl (hid ▸ depends_messageBlob hrow howned)
  | channel r => cases h
  | channelSubscriber r =>
    rcases Bool.or_eq_true_iff.mp h with h | h
    · exact depends_of_user hr (List.mem_cons_of_mem _ (List.mem_cons_of_mem _ List.mem_cons_self))
        rfl h
    · exact depends_of_device hr (List.mem_cons_of_mem _ List.mem_cons_self) rfl h
  | attachmentRef r =>
    have howner : r.ownerUserId = some userId := beq_iff_eq.mp h
    have he : (ForeignKey.attachmentOwner, RowKey.user userId) ∈ (Row.attachmentRef r).refs := by
      simp [Row.refs, howner]
    exact depends_of_user hr he rfl (beq_self_eq_true userId)
  | pushToken r => exact depends_of_device hr List.mem_cons_self rfl h
  | authSession r =>
    rcases Bool.or_eq_true_iff.mp h with h | h
    · exact depends_of_user hr List.mem_cons_self rfl h
    · exact depends_of_device hr (List.mem_cons_of_mem _ List.mem_cons_self) rfl h
  | block r =>
    rcases Bool.or_eq_true_iff.mp h with h | h
    · exact depends_of_user hr List.mem_cons_self rfl h
    · exact depends_of_user hr (List.mem_cons_of_mem _ List.mem_cons_self) rfl h
  | adminAction r => cases h
  | report r => cases h
  | auditLog r => cases h

theorem depends_iff_owned {k : RowKey} : schema.Depends db [.user userId] k ↔ Owned db userId k := by
  refine ⟨owned_of_depends, ?_⟩
  rintro (rfl | ⟨r, hr, rfl, h⟩)
  · exact depends_user
  · exact depends_of_belongs hr h

/-- Deleting an account takes the rows that belong to it. -/
theorem depends_iff {r : Row} (hdb : schema.Integral db) (hr : r ∈ db) :
    schema.Depends db [.user userId] r.key ↔ belongs db userId r = true := by
  refine ⟨fun h => ?_, depends_of_belongs hr⟩
  rcases owned_of_depends h with hkey | ⟨r', hr', hkey, hbelongs⟩
  · cases r <;> cases hkey
    simp [belongs]
  · obtain rfl := List.inj_on_of_nodup_map hdb.ids hr' hr hkey
    exact hbelongs

theorem user_mem_doomed {id : Uuid} :
    RowKey.user id ∈ schema.doomed [.user userId] db ↔ id = userId := by
  rw [Schema.mem_doomed, depends_iff_owned, owned_user]

theorem device_mem_doomed {id : Uuid} :
    RowKey.device id ∈ schema.doomed [.user userId] db ↔ ofUser db userId id = true := by
  rw [Schema.mem_doomed, depends_iff_owned, owned_device]

/-- The columns that are set to null are those that name the account or a device of it. -/
theorem unsetGone_eq_forget (r : Row) :
    schema.unsetGone (schema.doomed [.user userId] db) r = forget db userId r := by
  have huser : ∀ id, RowKey.user id ∈ schema.doomed [.user userId] db ↔ id = userId :=
    fun _ => user_mem_doomed
  have hdevice : ∀ id, RowKey.device id ∈ schema.doomed [.user userId] db ↔
      ofUser db userId id = true := fun _ => device_mem_doomed
  generalize schema.doomed [.user userId] db = gone at huser hdevice ⊢
  cases r with
  | conversation r =>
    obtain ⟨id, createdBy⟩ := r
    cases createdBy with
    | none => simp [Schema.unsetGone, schema, Row.refs, Row.optional, forget, Option.filter]
    | some creator =>
      by_cases h : creator = userId <;>
        simp [Schema.unsetGone, schema, Row.refs, Row.optional, Row.unset, ForeignKey.onDelete,
          forget, Option.filter, huser, h]
  | channel r =>
    obtain ⟨id, admin, device⟩ := r
    cases admin with
    | none =>
      cases device with
      | none => simp [Schema.unsetGone, schema, Row.refs, Row.optional, forget, Option.filter]
      | some d =>
        by_cases hd : ofUser db userId d = true <;>
          simp [Schema.unsetGone, schema, Row.refs, Row.optional, Row.unset, ForeignKey.onDelete,
            forget, Option.filter, hdevice, hd]
    | some a =>
      cases device with
      | none =>
        by_cases ha : a = userId <;>
          simp [Schema.unsetGone, schema, Row.refs, Row.optional, Row.unset, ForeignKey.onDelete,
            forget, Option.filter, huser, ha]
      | some d =>
        by_cases ha : a = userId <;> by_cases hd : ofUser db userId d = true <;>
          simp [Schema.unsetGone, schema, Row.refs, Row.optional, Row.unset, ForeignKey.onDelete,
            forget, Option.filter, huser, hdevice, ha, hd]
  | _ =>
    refine Schema.unsetGone_eq fun e he hnull => ?_
    obtain ⟨c, k⟩ := e
    rcases ForeignKey.onDelete_setNull.mp hnull with rfl | rfl | rfl <;>
      simp [schema, Row.refs] at he

/-- The rows of the account go, and the others stay as they are but for the columns
that named it. -/
theorem deleteUser_eq (hdb : schema.Integral db) : schema.delete [.user userId] db =
    (db.filter fun r => !belongs db userId r).map (forget db userId) := by
  have hfilter : (db.filter fun r => !(schema.doomed [.user userId] db).contains r.key) =
      db.filter fun r => !belongs db userId r := by
    refine List.filter_congr fun r hr => ?_
    rw [Bool.eq_iff_iff, Bool.not_eq_true', Bool.not_eq_true', ← Bool.not_eq_true,
      ← Bool.not_eq_true, List.contains_iff_mem, Schema.mem_doomed, depends_iff hdb hr]
  rw [Schema.delete]
  change (db.filter fun r => !(schema.doomed [.user userId] db).contains r.key).map _ = _
  rw [hfilter]
  exact List.map_congr_left fun r _ => unsetGone_eq_forget r

/-! ## After the deletion -/

/-- Keys with `@default(uuid())`. -/
def RowKey.generated : RowKey → Bool
  | .conversationParticipant _ _ => false
  | .messageReceipt _ _ => false
  | .channelSubscriber _ _ => false
  | .block _ _ => false
  | _ => true

instance (k : RowKey) : Decidable (Owned db userId k) := by unfold Owned; infer_instance

/-- A UUID that is drawn is not one of those that went. -/
def Drawn (db : List Row) (userId : Uuid) : TableStatement → List Row → Prop
  | .insert r, _ => r.key.generated = true → ¬Owned db userId r.key
  | _, _ => True

instance (a : TableStatement) (t : List Row) : Decidable (Drawn db userId a t) := by
  unfold Drawn
  split <;> infer_instance

theorem update_eq_some {r : Row} {s t : List Row} (h : tableStep (.update r) s = some t) :
    (∃ x ∈ s, x.key = r.key ∧ x.refs = r.refs) ∧
      t = s.map fun x => if x.key = r.key then r else x := by
  rw [tableStep, Option.ite_none_right_eq_some] at h
  exact ⟨by simpa using h.1, (Option.some.inj h.2).symm⟩

theorem key_of_update {r : Row} (x : Row) : (if x.key = r.key then r else x).key = x.key := by
  split
  · rename_i hkey
    exact hkey.symm
  · rfl

theorem keys_of_update (db : List Row) (r : Row) :
    (db.map fun x => if x.key = r.key then r else x).map Row.key = db.map Row.key := by
  rw [List.map_map]
  exact List.map_congr_left fun x _ => key_of_update x

theorem integral_step {a : TableStatement} {s t : List Row} (hs : schema.Integral s)
    (h : tableStep a s = some t) : schema.Integral t := by
  cases a with
  | insert r => exact hs.insert h
  | update r =>
    obtain ⟨⟨x, hx, hkey, hrefs⟩, rfl⟩ := update_eq_some h
    refine hs.update (fun y _ => key_of_update y) fun y hy => ?_
    -- the row with this key is the one whose references were compared
    split
    · rename_i hy'
      obtain rfl := List.inj_on_of_nodup_map hs.ids hx hy (hkey.trans hy'.symm)
      exact hrefs.symm
    · rfl
  | delete keys =>
    obtain rfl := Option.some.inj h
    exact hs.delete

/-- A foreign key names a table whose identifiers are drawn. -/
theorem generated_of_refs {r : Row} {e : ForeignKey × RowKey} (he : e ∈ r.refs) :
    e.2.generated = true := by
  cases r <;> simp only [Row.refs, List.mem_append, Row.mem_optional, List.mem_cons,
    List.not_mem_nil, or_false] at he <;> grind [RowKey.generated]

/-- The tables once the account is gone. -/
structure AccountGone (db : List Row) (userId : Uuid) (t : List Row) : Prop where
  integral : schema.Integral t
  keys : ∀ k ∈ t.map Row.key, k.generated = true → ¬Owned db userId k

theorem AccountGone.delete (hdb : schema.Integral db) :
    AccountGone db userId (schema.delete [.user userId] db) where
  integral := hdb.delete
  keys := by
    intro k hk _ howned
    exact (Schema.mem_ids_delete.mp hk).2 (depends_iff_owned.mpr howned)

theorem AccountGone.step {a : TableStatement} {s t : List Row} (hs : AccountGone db userId s)
    (hdrawn : Drawn db userId a s) (h : tableStep a s = some t) : AccountGone db userId t where
  integral := integral_step hs.integral h
  keys := by
    intro k hk hgenerated
    cases a with
    | insert r =>
      obtain ⟨-, rfl⟩ := Schema.insert_eq_some.mp h
      rcases List.mem_append.mp (List.map_append ▸ hk) with hold | hnew
      · exact hs.keys k hold hgenerated
      · obtain rfl : k = r.key := by simpa using hnew
        exact hdrawn hgenerated
    | update r =>
      obtain ⟨-, rfl⟩ := update_eq_some h
      exact hs.keys k (keys_of_update s r ▸ hk) hgenerated
    | delete keys =>
      obtain rfl := Option.some.inj h
      have hold := (Schema.mem_ids_delete (S := schema).mp hk).1
      exact hs.keys k hold hgenerated

/-- What is left names neither the account, nor a device of it, nor a blob of such a device. -/
theorem AccountGone.refs {t : List Row} (ht : AccountGone db userId t) {r : Row} (hr : r ∈ t)
    {e : ForeignKey × RowKey} (he : e ∈ r.refs) : ¬Owned db userId e.2 :=
  ht.keys e.2 (ht.integral.refs r hr e he) (generated_of_refs he)

/-- `DELETE` of an account, at the end of any run, removes the rows that belong to it and no
other, and sets to null the columns that named it. Whatever runs after, no row names the
account again, nor a device of it, nor a blob of such a device. -/
theorem accountDeletion_exact (userId : Uuid) (before after : List TableStatement)
    (db t : List Row) (hbefore : run tableStep before [] = some db)
    (hafter : run tableStep (.delete [.user userId] :: after) db = some t)
    (hdrawn : Always tableStep (Drawn db userId) after (schema.delete [.user userId] db)) :
    schema.delete [.user userId] db =
      (db.filter fun r => !belongs db userId r).map (forget db userId) ∧
    ∀ r ∈ t, (r.key.generated = true → ¬Owned db userId r.key) ∧
      ∀ e ∈ r.refs, ¬Owned db userId e.2 := by
  have hdb : schema.Integral db :=
    run_invariant (fun _ _ _ hs h => integral_step hs h) Schema.Integral.nil hbefore
  have ht : AccountGone db userId t := by
    refine run_invariant_of_always (AccountGone db userId) (fun _ _ _ hs hd h => hs.step hd h)
      (.delete hdb) hdrawn ?_
    exact hafter
  exact ⟨deleteUser_eq hdb, fun r hr => ⟨ht.keys r.key (List.mem_map_of_mem hr),
    fun e he => ht.refs hr he⟩⟩

/-- Two accounts that talk to one another, and the request that deletes the first. -/
def aliceAndBob : List TableStatement :=
  [.insert (.user ⟨1, "alice".toList, none, none, none, .user, none⟩),
   .insert (.user ⟨2, "bob".toList, none, none, none, .user, none⟩),
   .insert (.device ⟨11, 1, true⟩), .insert (.device ⟨12, 2, true⟩),
   .insert (.conversation ⟨20, some 1⟩),
   .insert (.conversationParticipant ⟨20, 1⟩), .insert (.conversationParticipant ⟨20, 2⟩),
   .insert (.messageBlob ⟨30, some 20, none, some 11, 12⟩),
   .insert (.messageBlob ⟨31, some 20, none, none, 12⟩),
   .insert (.messageReceipt ⟨30, .delivered⟩),
   .insert (.channel ⟨40, some 1, some 11⟩), .insert (.channelSubscriber ⟨40, 12, 2⟩),
   .insert (.attachmentRef ⟨50, some 20, none, 11⟩),
   .insert (.adminAction ⟨60, 9, "account_deleted", some "alice".toList, some 1, none⟩)]

/-- Of what named the first account there stay the conversation, without its creator, the
channel, without its administrator, the sealed blob, the object and the journal. -/
theorem aliceAndBob_exact : ∃ db t : List Row,
    run tableStep aliceAndBob [] = some db ∧
    run tableStep [.delete [.user 1], .insert (.device ⟨13, 2, true⟩)] db = some t ∧
    schema.delete [.user 1] db =
      [.user ⟨2, "bob".toList, none, none, none, .user, none⟩, .device ⟨12, 2, true⟩,
       .conversation ⟨20, none⟩, .conversationParticipant ⟨20, 2⟩,
       .messageBlob ⟨31, some 20, none, none, 12⟩, .channel ⟨40, none, none⟩,
       .channelSubscriber ⟨40, 12, 2⟩, .attachmentRef ⟨50, some 20, none, 11⟩,
       .adminAction ⟨60, 9, "account_deleted", some "alice".toList, some 1, none⟩] ∧
    ∀ r ∈ t, (r.key.generated = true → ¬Owned db 1 r.key) ∧ ∀ e ∈ r.refs, ¬Owned db 1 e.2 := by
  refine ⟨_, _, rfl, rfl, by decide, ?_⟩
  exact (accountDeletion_exact 1 aliceAndBob [.insert (.device ⟨13, 2, true⟩)] _ _ rfl rfl
    (by decide)).2

end ZiaCrypte.Server
