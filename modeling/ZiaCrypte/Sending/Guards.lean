import ZiaCrypte.Sending.Outbox

/-!
# What the sendings and the checks rely on

A message that is added without its mark of failure has a copy the server accepted; its
receipts are ids of accepted copies; a history that is written was that of its thread when
it was handed to the vault; and what a check reports was fetched by a device.
-/
namespace ZiaCrypte.Sending

open ZiaCrypte.Lib ZiaCrypte.Engine
open ZiaCrypte.Server (Uuid Auth Database MessageBlob SendBody GroupSendBody)
open ZiaCrypte.Inbox (Text ChatMessage AttachmentRef)

/-- The server accepted a copy of the message. -/
def Monde.Accepte (s : Monde) (envoi : Nat) : Prop := ∃ copie, (envoi, copie) ∈ s.copies

instance (s : Monde) (envoi : Nat) : Decidable (s.Accepte envoi) :=
  decidable_of_iff (envoi ∈ s.copies.map (·.1)) (by simp [Monde.Accepte])

/-- The rows a poll has read are still those of its device, if they are there. -/
def Tient (device : Uuid) (pending : List MessageBlob) (s : Monde) : Prop :=
  ∀ b ∈ pending, b.id < s.cle ∧ ∀ b' ∈ s.db.messageBlobs, b'.id = b.id →
    b'.recipientDeviceId = device ∧ b'.clientMessageId = b.clientMessageId ∧
      b'.senderDeviceId = b.senderDeviceId

variable (nom : Uuid → Text)

/-- What is reported was fetched. -/
def Rapporte (remis : List Text) (s : Monde) : Prop :=
  ∀ t ∈ remis, ∃ device copie, (device, copie) ∈ s.releves ∧ nom copie = t

/-- A message as a sending adds it. -/
structure Envoyee (l : Ligne) (s : Monde) : Prop where
  envoi : l.envoi ≠ none
  acceptee : ∀ n, l.envoi = some n → l.message.sendFailed = true ∨ s.Accepte n
  recepisses : ∀ n, l.envoi = some n → ∀ t ∈ l.message.pendingReceiptIds,
    ∃ copie, (n, copie) ∈ s.recepisses ∧ nom copie = t

def Stmt.Guard : Stmt → Monde → Prop
  | .retoucher _ (.ajouter l), s => Envoyee nom l s
  | .retoucher _ (.remettre remis), s => Rapporte nom remis s
  | .recepisse envoi copie, s => (envoi, copie) ∈ s.copies
  | _, _ => True

def OutboxGuard : OutboxEvent → Monde → Prop
  | .act a, s => a.Guard nom s
  | .issue (.vaultWrite conv lignes), s => lignes = s.messages conv
  | .settle _ (.vaultWrite _ lignes) _, s => lignes ∈ s.ecritures
  | .settle _ (.updateMany device pending) _, s => Tient device pending s
  | _, _ => True

/-- What is recorded stays recorded, until a crash. -/
structure Plus (s s' : Monde) : Prop where
  me : s'.me = s.me
  copies : s.copies ⊆ s'.copies
  recepisses : s.recepisses ⊆ s'.recepisses
  releves : s.releves ⊆ s'.releves
  ecritures : s.ecritures ⊆ s'.ecritures

theorem Plus.refl (s : Monde) : Plus s s := ⟨rfl, fun _ h => h, fun _ h => h, fun _ h => h, fun _ h => h⟩

/-! ## Lines -/

/-- A change of a message that is neither its sending, its mark of failure nor its
receipts. -/
structure MemeLigne (l l' : Ligne) : Prop where
  envoi : l'.envoi = l.envoi
  sendFailed : l'.message.sendFailed = l.message.sendFailed
  recepisses : l'.message.pendingReceiptIds = l.message.pendingReceiptIds

theorem MemeLigne.refl (l : Ligne) : MemeLigne l l := ⟨rfl, rfl, rfl⟩

theorem mem_modifierPremier {cible : Text} {f : ChatMessage → ChatMessage}
    (hf : ∀ l : Ligne, MemeLigne l { l with message := f l.message }) {ls : List Ligne}
    {l' : Ligne} (h : l' ∈ modifierPremier cible f ls) : ∃ l ∈ ls, MemeLigne l l' := by
  induction ls with
  | nil => cases h
  | cons l ls ih =>
    rw [modifierPremier] at h
    split at h
    · rcases List.mem_cons.mp h with rfl | htl
      · exact ⟨l, List.mem_cons_self, hf l⟩
      · exact ⟨l', List.mem_cons_of_mem _ htl, .refl l'⟩
    · rcases List.mem_cons.mp h with rfl | htl
      · exact ⟨l', List.mem_cons_self, .refl l'⟩
      · obtain ⟨l₀, hl₀, hmeme⟩ := ih htl
        exact ⟨l₀, List.mem_cons_of_mem _ hl₀, hmeme⟩

theorem mem_map_meme {f : Ligne → Ligne} (hf : ∀ l, MemeLigne l (f l)) {ls : List Ligne}
    {l' : Ligne} (h : l' ∈ ls.map f) : ∃ l ∈ ls, MemeLigne l l' := by
  obtain ⟨l, hl, rfl⟩ := List.mem_map.mp h
  exact ⟨l, hl, hf l⟩

/-- A line of a thread that was changed was there, was added by a sending, or comes from
none. -/
theorem mem_apply {r : Retouche} {ls : List Ligne} {l' : Ligne} (h : l' ∈ r.apply ls) :
    (∃ l ∈ ls, MemeLigne l l') ∨ r = .ajouter l' ∨
      l'.envoi = none ∧ l'.message.pendingReceiptIds = [] := by
  cases r with
  | ajouter l =>
    rcases List.mem_append.mp h with hold | hnew
    · exact .inl ⟨l', hold, .refl l'⟩
    · obtain rfl := List.mem_singleton.mp hnew
      exact .inr (.inl rfl)
  | recevoir m =>
    rcases List.mem_append.mp h with hold | hnew
    · exact .inl ⟨l', hold, .refl l'⟩
    · obtain rfl := List.mem_singleton.mp hnew
      exact .inr (.inr ⟨rfl, rfl⟩)
  | retirer l => exact .inl ⟨l', List.mem_of_mem_erase h, .refl l'⟩
  | integrer entrants =>
    rcases List.mem_append.mp ((List.mem_insertionSort _).mp h) with hold | hnew
    · exact .inl ⟨l', hold, .refl l'⟩
    · obtain ⟨m, -, rfl⟩ := List.mem_map.mp hnew
      exact .inr (.inr ⟨rfl, rfl⟩)
  | editer cible deMoi texte now =>
    refine .inl (mem_modifierPremier (fun l => ?_) h)
    split <;> exact ⟨rfl, rfl, rfl⟩
  | supprimer cible deMoi =>
    refine .inl (mem_modifierPremier (fun l => ?_) h)
    split <;> exact ⟨rfl, rfl, rfl⟩
  | reagir cible emoji qui pose =>
    refine .inl (mem_modifierPremier (fun l => ?_) h)
    unfold Inbox.reagir
    split <;> exact ⟨rfl, rfl, rfl⟩
  | lire ids =>
    refine .inl (mem_map_meme (fun l => ?_) h)
    split <;> exact ⟨rfl, rfl, rfl⟩
  | accuser =>
    refine .inl (mem_map_meme (fun l => ?_) h)
    split <;> exact ⟨rfl, rfl, rfl⟩
  | balayer now => exact .inl ⟨l', List.mem_of_mem_filter h, .refl l'⟩
  | remettre remis =>
    refine .inl (mem_map_meme (fun l => ?_) h)
    split <;> exact ⟨rfl, rfl, rfl⟩

/-! ## The rows of the server -/

/-- A row keeps everything but the date of its delivery. -/
structure MemeRang (b b' : MessageBlob) : Prop where
  id : b'.id = b.id
  recipient : b'.recipientDeviceId = b.recipientDeviceId
  copie : b'.clientMessageId = b.clientMessageId
  sender : b'.senderDeviceId = b.senderDeviceId

theorem MemeRang.refl (b : MessageBlob) : MemeRang b b := ⟨rfl, rfl, rfl, rfl⟩

/-- Every row was there, or is under a new key. -/
structure RangsSuivent (s s' : Monde) : Prop where
  cle : s.cle ≤ s'.cle
  rangs : ∀ b' ∈ s'.db.messageBlobs, (∃ b ∈ s.db.messageBlobs, MemeRang b b') ∨
    s.cle ≤ b'.id

/-- The keys of the rows are their own, and a row of ours that is marked was fetched. -/
structure Rangs (s : Monde) : Prop where
  cles : ∀ b ∈ s.db.messageBlobs, b.id < s.cle
  uniques : (s.db.messageBlobs.map (·.id)).Nodup
  releves : ∀ b ∈ s.db.messageBlobs, b.senderDeviceId = some s.me.deviceId →
    b.deliveredAt ≠ none → (b.recipientDeviceId, b.clientMessageId) ∈ s.releves

variable {nom : Uuid → Text} {s s' : Monde}

theorem RangsSuivent.of_eq (hrangs : s'.db.messageBlobs = s.db.messageBlobs)
    (hcle : s'.cle = s.cle) : RangsSuivent s s' := by
  refine ⟨Nat.le_of_eq hcle.symm, fun b' hb' => .inl ⟨b', ?_, .refl b'⟩⟩
  rw [← hrangs]
  exact hb'

theorem Rangs.of_eq (h : Rangs s) (hrangs : s'.db.messageBlobs = s.db.messageBlobs)
    (hcle : s'.cle = s.cle) (hplus : Plus s s') : Rangs s' := by
  constructor
  · rw [hrangs, hcle]
    exact h.cles
  · rw [hrangs]
    exact h.uniques
  · rw [hrangs, hplus.me]
    exact fun b hb hsender hdelivered => hplus.releves (h.releves b hb hsender hdelivered)

/-- Rows are added under new keys. -/
structure Creation (s s' : Monde) (rows : List MessageBlob) : Prop where
  blobs : s'.db.messageBlobs = Server.createManyBlobs s.db.messageBlobs rows
  nouveaux : ∀ b ∈ rows, s.cle ≤ b.id ∧ b.id < s'.cle ∧ b.deliveredAt = none
  cle : s.cle ≤ s'.cle

theorem Creation.rangsSuivent {rows : List MessageBlob} (h : Creation s s' rows) :
    RangsSuivent s s' := by
  refine ⟨h.cle, fun b' hb' => ?_⟩
  rw [h.blobs] at hb'
  rcases Server.mem_createManyBlobs hb' with hold | hnew
  · exact .inl ⟨b', hold, .refl b'⟩
  · exact .inr (h.nouveaux b' hnew).1

theorem Creation.rangs {rows : List MessageBlob} (hc : Creation s s' rows) (h : Rangs s)
    (hplus : Plus s s') : Rangs s' := by
  constructor
  · intro b hb
    rw [hc.blobs] at hb
    rcases Server.mem_createManyBlobs hb with hold | hnew
    · exact Nat.lt_of_lt_of_le (h.cles b hold) hc.cle
    · exact (hc.nouveaux b hnew).2.1
  · rw [hc.blobs]
    exact Server.nodup_createManyBlobs rows h.uniques
  · intro b hb hsender hdelivered
    rw [hc.blobs] at hb
    rcases Server.mem_createManyBlobs hb with hold | hnew
    · rw [hplus.me] at hsender
      exact hplus.releves (h.releves b hold hsender hdelivered)
    · exact absurd (hc.nouveaux b hnew).2.2 hdelivered

theorem creation_deposer (s : Monde) (rows : List MessageBlob) :
    ∃ rows', Creation s (s.deposer rows) rows' := by
  refine ⟨_, rfl, fun b hb => ?_, Nat.le_add_right _ _⟩
  obtain ⟨⟨row, i⟩, hrow, rfl⟩ := List.mem_map.mp hb
  have hi := (List.mem_zipIdx' hrow).1
  exact ⟨Nat.le_add_right _ _, Nat.add_lt_add_left hi _, rfl⟩

theorem eq_createManyBlobs {blobs blobs' : List MessageBlob} {b : MessageBlob}
    (h : Server.createBlob blobs b = some blobs') :
    blobs' = Server.createManyBlobs blobs [b] := by
  rw [Server.createManyBlobs, h]
  rfl

/-- A request that posts a message adds rows under the keys drawn for them. -/
theorem traiter_postMessages (s : Monde) (body : SendBody) (now : Nat) :
    ∃ rows, (s.traiter (.postMessages body) now).2.messageBlobs =
        Server.createManyBlobs s.db.messageBlobs rows ∧
      ∀ b ∈ rows, s.cle ≤ b.id ∧ b.id < s.cle + s.db.devices.length + 1 ∧
        b.deliveredAt = none := by
  have hnone : ∃ rows, s.db.messageBlobs = Server.createManyBlobs s.db.messageBlobs rows ∧
      ∀ b ∈ rows, s.cle ≤ b.id ∧ b.id < s.cle + s.db.devices.length + 1 ∧
        b.deliveredAt = none := ⟨[], rfl, fun b hb => absurd hb List.not_mem_nil⟩
  unfold Monde.traiter Server.Request.handle
  split
  · exact hnone
  · simp only [Server.Call.route, Server.postMessages]
    split
    · exact hnone
    · split
      · exact hnone
      · split
        · exact hnone
        · split
          · exact hnone
          · split
            · exact hnone
            · rename_i blobs hcreate
              refine ⟨_, eq_createManyBlobs hcreate, fun b hb => ?_⟩
              obtain rfl := List.mem_singleton.mp hb
              refine ⟨Nat.le_refl _, ?_, rfl⟩
              show s.cle + 0 < _
              omega

theorem traiter_postMessagesGroup (s : Monde) (body : GroupSendBody) (now : Nat) :
    ∃ rows, (s.traiter (.postMessagesGroup body) now).2.messageBlobs =
        Server.createManyBlobs s.db.messageBlobs rows ∧
      ∀ b ∈ rows, s.cle ≤ b.id ∧ b.id < s.cle + s.db.devices.length + 1 ∧
        b.deliveredAt = none := by
  have hnone : ∃ rows, s.db.messageBlobs = Server.createManyBlobs s.db.messageBlobs rows ∧
      ∀ b ∈ rows, s.cle ≤ b.id ∧ b.id < s.cle + s.db.devices.length + 1 ∧
        b.deliveredAt = none := ⟨[], rfl, fun b hb => absurd hb List.not_mem_nil⟩
  unfold Monde.traiter Server.Request.handle
  split
  · exact hnone
  · simp only [Server.Call.route, Server.postMessagesGroup]
    split
    · exact hnone
    · split
      · exact hnone
      · refine ⟨_, rfl, fun b hb => ?_⟩
        obtain ⟨⟨device, i⟩, hdevice, rfl⟩ := List.mem_map.mp hb
        have hi := (List.mem_zipIdx' hdevice).1
        have hle : i < s.db.devices.length := Nat.lt_of_lt_of_le hi
          (Nat.le_trans (List.length_filter_le _ _) (List.length_filter_le _ _))
        refine ⟨Nat.le_add_right _ _, ?_, rfl⟩
        show s.cle + i < _
        omega

theorem rangsSuivent_relever (device : Uuid) (pending : List MessageBlob) (now : Nat) :
    RangsSuivent s (s.relever device pending now) := by
  refine ⟨Nat.le_refl _, fun b' hb' => .inl ?_⟩
  obtain ⟨b, hb, rfl⟩ := List.mem_map.mp hb'
  refine ⟨b, hb, ?_⟩
  split
  · exact ⟨rfl, rfl, rfl, rfl⟩
  · exact .refl b

/-- A poll that marks the rows of its own device records them. -/
theorem Rangs.relever (h : Rangs s) {device : Uuid} {pending : List MessageBlob}
    (htient : Tient device pending s) (now : Nat) : Rangs (s.relever device pending now) := by
  constructor
  · intro b hb
    obtain ⟨b', hb', hid, -⟩ := Server.mem_markDelivered hb
    rw [hid]
    exact h.cles b' hb'
  · show ((Server.markDelivered _ now s.db.messageBlobs).map (·.id)).Nodup
    rw [Server.ids_markDelivered]
    exact h.uniques
  · intro b hb hsender hdelivered
    obtain ⟨b', hb', rfl⟩ := List.mem_map.mp hb
    split at hsender
    · rename_i hid
      rw [if_pos hid]
      obtain ⟨row, hrow, heq⟩ := List.mem_map.mp hid
      obtain ⟨hrecipient, hcopie, hsame⟩ := (htient row hrow).2 b' hb' heq.symm
      refine List.mem_append_left _ (List.mem_map.mpr ⟨row, ?_, ?_⟩)
      · refine List.mem_filter.mpr ⟨hrow, decide_eq_true ?_⟩
        rw [← hsame]
        exact hsender
      · show (device, row.clientMessageId) = (b'.recipientDeviceId, b'.clientMessageId)
        rw [hrecipient, hcopie]
    · rename_i hid
      rw [if_neg hid] at hdelivered ⊢
      exact List.mem_append_right _ (h.releves b' hb' hsender hdelivered)

/-! ## Events -/

/-- What an event does to the records and the rows. -/
structure Pas (s s' : Monde) : Prop where
  plus : Plus s s'
  suivent : RangsSuivent s s'
  rangs : Rangs s → Rangs s'

/-- What is recorded. -/
def Monde.registre (s : Monde) := (s.me, s.copies, s.recepisses, s.releves, s.ecritures)

theorem Plus.of_registre (h : s'.registre = s.registre) : Plus s s' := by
  simp only [Monde.registre, Prod.mk.injEq] at h
  obtain ⟨hme, hcopies, hrecepisses, hreleves, hecritures⟩ := h
  exact ⟨hme, by rw [hcopies]; simp, by rw [hrecepisses]; simp, by rw [hreleves]; simp,
    by rw [hecritures]; simp⟩

/-- An event that leaves the rows alone. -/
theorem Pas.of_plus (hplus : Plus s s') (hrangs : s'.db.messageBlobs = s.db.messageBlobs)
    (hcle : s'.cle = s.cle) : Pas s s' :=
  ⟨hplus, .of_eq hrangs hcle, fun h => h.of_eq hrangs hcle hplus⟩

theorem Pas.of_same (hregistre : s'.registre = s.registre)
    (hrangs : s'.db.messageBlobs = s.db.messageBlobs) (hcle : s'.cle = s.cle) : Pas s s' :=
  .of_plus (.of_registre hregistre) hrangs hcle

theorem Creation.pas {rows : List MessageBlob} (h : Creation s s' rows) (hplus : Plus s s') :
    Pas s s' :=
  ⟨hplus, h.rangsSuivent, fun hrangs => h.rangs hrangs hplus⟩

theorem pas_purger (ids : List Uuid) : Pas s (Stmt.apply (.purger ids) s) := by
  have hmem : ∀ b ∈ s.db.messageBlobs.filter (·.id ∉ ids), b ∈ s.db.messageBlobs := fun b hb =>
    List.mem_of_mem_filter hb
  refine ⟨.of_registre rfl, ⟨Nat.le_refl _, fun b hb => .inl ⟨b, hmem b hb, .refl b⟩⟩,
    fun h => ⟨fun b hb => h.cles b (hmem b hb), ?_, fun b hb => h.releves b (hmem b hb)⟩⟩
  exact h.uniques.sublist (List.filter_sublist.map _)

theorem pas_act (a : Stmt) (s : Monde) : Pas s (a.apply s) := by
  cases a with
  | tirer => exact .of_same rfl rfl rfl
  | retoucher conv r => exact .of_same rfl rfl rfl
  | charger c =>
    show Pas s (if _ then s else _)
    split
    · exact .of_same rfl rfl rfl
    · exact .of_same rfl rfl rfl
  | oublier conv => exact .of_same rfl rfl rfl
  | regler conv isGroup sessions ownDeviceIds ttl => exact .of_same rfl rfl rfl
  | setActive conv => exact .of_same rfl rfl rfl
  | setReplyingTo m => exact .of_same rfl rfl rfl
  | recepisse envoi copie =>
    exact .of_plus ⟨rfl, fun _ h => h, List.subset_cons_self _ _, fun _ h => h, fun _ h => h⟩
      rfl rfl
  | deposer rows =>
    obtain ⟨rows', h⟩ := creation_deposer s rows
    exact h.pas (.of_registre rfl)
  | purger ids => exact pas_purger ids
  | tables db => exact .of_same rfl rfl rfl

theorem pas_issue (q : Request) (s : Monde) : Pas s (q.issue s) := by
  cases q with
  | vaultWrite conv lignes =>
    exact .of_plus ⟨rfl, fun _ h => h, fun _ h => h, fun _ h => h, List.subset_cons_self _ _⟩
      rfl rfl
  | assurerCleGroupe conv => exact .of_same rfl rfl rfl
  | senderKeyEncrypt conv => exact .of_same rfl rfl rfl
  | sendGroupMessage envoi body => exact .of_same rfl rfl rfl
  | encrypt conv device => exact .of_same rfl rfl rfl
  | sendMessage envoi body => exact .of_same rfl rfl rfl
  | deliveredAmong ids => exact .of_same rfl rfl rfl
  | updateMany device pending => exact .of_same rfl rfl rfl

theorem pas_deposerEnvoi {envoi : Nat} {copie : Uuid} {call : Server.Call} {now : Nat}
    (h : ∃ rows, (s.traiter call now).2.messageBlobs =
        Server.createManyBlobs s.db.messageBlobs rows ∧
      ∀ b ∈ rows, s.cle ≤ b.id ∧ b.id < s.cle + s.db.devices.length + 1 ∧
        b.deliveredAt = none) : Pas s (s.deposerEnvoi envoi copie call now) := by
  obtain ⟨rows, hblobs, hrows⟩ := h
  have hplus : Plus s (s.deposerEnvoi envoi copie call now) := by
    refine ⟨rfl, ?_, fun _ h => h, fun _ h => h, fun _ h => h⟩
    unfold Monde.deposerEnvoi
    dsimp only
    split
    · exact List.subset_cons_self _ _
    · exact fun _ h => h
  have hcreation : Creation s (s.deposerEnvoi envoi copie call now) rows := by
    refine ⟨hblobs, hrows, ?_⟩
    show s.cle ≤ s.cle + s.db.devices.length + 1
    omega
  exact hcreation.pas hplus

theorem pas_settle {t : Nat} {q : Request} {x : Outside} (hguard : OutboxGuard nom (.settle t q x) s) :
    Pas s (q.settle x s) := by
  have hsame : Pas s s := .of_same rfl rfl rfl
  cases q with
  | sendGroupMessage envoi body =>
    cases x with
    | handled now received => exact pas_deposerEnvoi (traiter_postMessagesGroup s body now)
    | _ => exact hsame
  | sendMessage envoi body =>
    cases x with
    | handled now received => exact pas_deposerEnvoi (traiter_postMessages s body now)
    | _ => exact hsame
  | vaultWrite conv lignes =>
    cases x with
    | done => exact .of_same rfl rfl rfl
    | _ => exact hsame
  | updateMany device pending =>
    cases x with
    | handled now received =>
      refine ⟨⟨rfl, fun _ h => h, fun _ h => h, List.subset_append_right _ _, fun _ h => h⟩,
        rangsSuivent_relever device pending now, fun h => h.relever hguard now⟩
    | _ => exact hsame
  | _ => exact hsame

theorem pas_event {e : OutboxEvent} (halive : e ≠ .crash) (hguard : OutboxGuard nom e s) :
    Pas s ((outboxSemantics nom).apply e s) := by
  cases e with
  | act a => exact pas_act a s
  | issue q => exact pas_issue q s
  | settle t q x => exact pas_settle hguard
  | crash => exact absurd rfl halive

end ZiaCrypte.Sending
