import ZiaCrypte.Inbox.JsonCodec
import ZiaCrypte.Inbox.Backfill
import ZiaCrypte.Inbox.DisappearingMessages
import ZiaCrypte.Lib.Base64

/-!
# `ChatMessage` and `Conversation` in the vault

Most fields are written only where they differ from a default, and read back with it. A
message reads back with its times in milliseconds and without the mark of a failed sending;
a conversation does so too, but for a disappearing time below zero, which is left out.
-/
namespace ZiaCrypte.Inbox

open ZiaCrypte.Lib ZiaCrypte.Engine

/-! ## Map literals -/

/-- A map literal, of which a field may be left out. -/
def objet (champs : List (String × Option Json)) : List (Text × Json) :=
  champs.filterMap fun c => c.2.map (text c.1, ·)

/-- `if (b) key: true` -/
def siVrai (b : Bool) : Option Json := if b then some (.bool true) else none

/-- `if (l.isNotEmpty) key: l` -/
def siNonVide (l : List Text) : Option Json := if l = [] then none else some (.arr (l.map .str))

def millis (at' : Int) : Json := .num (some (millisecondsSinceEpoch at'))

/-! ## Messages -/

def ChatMessage.champs (m : ChatMessage) : List (String × Option Json) := [
  ("t", some (.str m.text)),
  ("m", some (.bool m.mine)),
  ("a", some (millis m.sentAt)),
  ("i", m.id.map .str),
  ("q", m.replyToId.map .str),
  ("qt", m.replyToText.map .str),
  ("qm", m.replyToMine.map .bool),
  ("f", m.attachment.map fun a => .obj a.toJson),
  ("r", siNonVide m.pendingReceiptIds),
  ("d", siVrai m.delivered),
  ("e", m.editedAt.map millis),
  ("x", siVrai m.deletedForEveryone),
  ("lu", siVrai m.readByPeer),
  ("la", siVrai m.readAckSent),
  ("sys", siVrai m.systeme),
  ("au", m.author.map .str),
  ("rx", if m.reactions.entries = [] then none
    else some (.obj (m.reactions.entries.map fun e => (e.1, .arr (e.2.map .str))))),
  ("exp", m.expiresAt.map millis)]

def ChatMessage.toJson (m : ChatMessage) : List (Text × Json) := objet m.champs

/-- `(j as List).cast<String>()`; an element of another type is refused here, not where it is
used. -/
def listeTextes (j : Json) : Option (List Text) := j.asList.bind (·.mapM Json.asString)

/-- `((j as List?) ?? const []).cast<String>()` -/
def listeTextes? (j : Json) : Option (List Text) :=
  j.asList?.bind fun l => (l.getD []).mapM Json.asString

/-- `toSet()` -/
def ensemble (l : List Text) : List Text := l.foldl addToSet []

/-- `j == null ? null : DateTime.fromMillisecondsSinceEpoch((j as num).toInt())` -/
def date? (j : Json) : Option (Option Int) :=
  if j.isNull then some none else (j.asInt.bind fromMilliseconds).map some

/-- `j as bool? ?? false` -/
def vrai? (j : Json) : Option Bool := j.asBool?.map (·.getD false)

/-- An emoji and its set. -/
def entreeReaction (e : Text × Json) : Option (Text × List Text) :=
  (listeTextes e.2).map fun l => (e.1, ensemble l)

/-- `(j as Map?)?.map(...) ?? {}` -/
def reactions? (j : Json) : Option (LinkedMap Text (List Text)) :=
  if j.isNull then some .empty
  else (j.asMap.bind (·.mapM entreeReaction)).map fun entries =>
    entries.foldl (fun r e => r.insert e.1 e.2) .empty

def attachment? (j : Json) : Option (Option AttachmentRef) :=
  if j.isNull then some none else (j.asMap.bind AttachmentRef.fromJson).map some

def ChatMessage.fromJson (json : List (Text × Json)) : Option ChatMessage := do
  let t ← (field json "t").asString
  let mine ← (field json "m").asBool
  let sentAt ← (field json "a").asInt.bind fromMilliseconds
  let attachment ← attachment? (field json "f")
  let pendingReceiptIds ← listeTextes? (field json "r")
  let delivered ← vrai? (field json "d")
  let id ← (field json "i").asString?
  let replyToId ← (field json "q").asString?
  let replyToText ← (field json "qt").asString?
  let replyToMine ← (field json "qm").asBool?
  let editedAt ← date? (field json "e")
  let deletedForEveryone ← vrai? (field json "x")
  let readByPeer ← vrai? (field json "lu")
  let readAckSent ← vrai? (field json "la")
  let systeme ← vrai? (field json "sys")
  let author ← (field json "au").asString?
  let reactions ← reactions? (field json "rx")
  let expiresAt ← date? (field json "exp")
  pure {
    text := t, mine, sentAt, id, replyToId, replyToText, replyToMine, attachment,
    pendingReceiptIds, delivered, editedAt, deletedForEveryone, readByPeer, readAckSent, systeme,
    expiresAt, author, sendFailed := false, reactions }

/-! ## Conversations -/

/-- What a conversation keeps beside its thread and its members. -/
structure Fiche where
  ownDeviceIds : List Text
  channelAdminDevice : Option Text
  channelIsAdmin : Bool
  channelLinkSecret : Option Bytes
  pinned : Bool
  deriving DecidableEq

/-- The defaults of the constructor. -/
def Fiche.new : Fiche where
  ownDeviceIds := []
  channelAdminDevice := none
  channelIsAdmin := false
  channelLinkSecret := none
  pinned := false

def Conversation.champs (c : Conversation) (f : Fiche) : List (String × Option Json) := [
  ("id", some (.str c.id)),
  ("peer", some (.str c.peerUsername)),
  ("peerId", c.peerUserId.map .str),
  ("group", siVrai c.isGroup),
  ("members", siNonVide c.memberUserIds),
  ("own", siNonVide f.ownDeviceIds),
  ("devices", some (.arr (c.targetDeviceIds.map .str))),
  ("at", some (millis c.lastActivity)),
  ("ttl", if 0 < c.ttlSecondes then some (.num (some c.ttlSecondes)) else none),
  ("channel", siVrai c.isChannel),
  ("chAdmin", f.channelAdminDevice.map .str),
  ("chOwner", siVrai f.channelIsAdmin),
  ("chSecret", f.channelLinkSecret.map fun b => .str (Base64.encode false b)),
  ("unread", if 0 < c.unread then some (.num (some c.unread)) else none),
  ("pinned", siVrai f.pinned)]

def Conversation.toJson (c : Conversation) (f : Fiche) : List (Text × Json) := objet (c.champs f)

/-- `j == null ? null : base64Decode(j as String)` -/
def octets? (j : Json) : Option (Option Bytes) :=
  if j.isNull then some none else (j.asString.bind Base64.decode).map some

/-- `(j as num?)?.toInt() ?? 0` -/
def entier? (j : Json) : Option Int := j.asInt?.map (·.getD 0)

def Conversation.fromJson (json : List (Text × Json)) : Option (Conversation × Fiche) := do
  let id ← (field json "id").asString
  let peerUsername ← (field json "peer").asString
  let peerUserId ← (field json "peerId").asString?
  let isGroup ← vrai? (field json "group")
  let memberUserIds ← listeTextes? (field json "members")
  let ownDeviceIds ← listeTextes? (field json "own")
  let targetDeviceIds ← listeTextes? (field json "devices")
  let lastActivity ← (field json "at").asInt.bind fromMilliseconds
  let ttlSecondes ← entier? (field json "ttl")
  let isChannel ← vrai? (field json "channel")
  let channelAdminDevice ← (field json "chAdmin").asString?
  let channelIsAdmin ← vrai? (field json "chOwner")
  let channelLinkSecret ← octets? (field json "chSecret")
  let unread ← entier? (field json "unread")
  let pinned ← vrai? (field json "pinned")
  pure (
    { Conversation.new id peerUsername lastActivity with
      peerUserId, isGroup, ttlSecondes, isChannel
      memberUserIds := ensemble memberUserIds
      targetDeviceIds := ensemble targetDeviceIds
      unread := unread.toNat },
    { ownDeviceIds := ensemble ownDeviceIds
      channelAdminDevice, channelIsAdmin, channelLinkSecret, pinned })

/-! ## Reading back -/

variable (double : Text → Option Int)

/-- `ChatMessage.fromJson(toJson(m))`, after a JSON encode and decode. -/
def ChatMessage.relecture (m : ChatMessage) : Option ChatMessage :=
  ((jsonDecode double (jsonEncode (.obj m.toJson))).bind Json.asMap).bind ChatMessage.fromJson

/-- `Conversation.fromJson(toJson(c))`, after a JSON encode and decode. -/
def Conversation.relecture (c : Conversation) (f : Fiche) : Option (Conversation × Fiche) :=
  ((jsonDecode double (jsonEncode (.obj (c.toJson f)))).bind Json.asMap).bind Conversation.fromJson

/-- What `_saveHistory` writes. -/
def historique (messages : List ChatMessage) : Text :=
  jsonEncode (.arr (messages.map fun m => .obj m.toJson))

/-- What `_readHistory` makes of it: nothing at all, where one message is refused. -/
def lireHistorique (t : Text) : List ChatMessage :=
  (((jsonDecode double t).bind Json.asList).bind
    (·.mapM fun j => j.asMap.bind ChatMessage.fromJson)).getD []

/-- Equal in every field, with the same reactions in the same order. -/
def ChatMessage.Egaux (m m' : ChatMessage) : Prop :=
  m.reactions.entries = m'.reactions.entries ∧ { m with reactions := m'.reactions } = m'

/-- A `DateTime` is in its range. -/
abbrev EstDate (t : Int) : Prop := dateTime t = some t

/-- Its times are dates, and its reactions a map of sets. -/
structure ChatMessage.Valide (m : ChatMessage) : Prop where
  sentAt : EstDate m.sentAt
  editedAt : ∀ t ∈ m.editedAt, EstDate t
  expiresAt : ∀ t ∈ m.expiresAt, EstDate t
  emojis : m.reactions.keys.Nodup
  comptes : ∀ e ∈ m.reactions.entries, e.2.Nodup

/-- Its time is a date, and its members and devices are sets. -/
structure Conversation.Valide (c : Conversation) (f : Fiche) : Prop where
  lastActivity : EstDate c.lastActivity
  members : c.memberUserIds.Nodup
  devices : c.targetDeviceIds.Nodup
  own : f.ownDeviceIds.Nodup

/-! ## Fields of a map literal -/

theorem find?_objet_of_not_mem {champs : List (String × Option Json)} {k : String}
    (h : text k ∉ champs.map fun c => text c.1) : (objet champs).find? (·.1 == text k) = none := by
  rw [List.find?_eq_none]
  intro e he heq
  obtain ⟨c, hc, hsome⟩ := List.mem_filterMap.mp he
  obtain ⟨j, -, rfl⟩ := Option.map_eq_some_iff.mp hsome
  exact h (List.mem_map.mpr ⟨c, hc, eq_of_beq heq⟩)

theorem field_objet {champs : List (String × Option Json)}
    (hkeys : (champs.map fun c => text c.1).Nodup) :
    ∀ c ∈ champs, field (objet champs) c.1 = c.2.getD .null := by
  induction champs with
  | nil =>
    intro c hc
    cases hc
  | cons c champs ih =>
    rw [List.map_cons, List.nodup_cons] at hkeys
    intro c' hc'
    rcases List.mem_cons.mp hc' with rfl | hmem
    · obtain ⟨k, v⟩ := c'
      cases v with
      | none =>
        show ((((objet champs).find? (·.1 == text k)).map (·.2)).getD .null) = .null
        rw [find?_objet_of_not_mem hkeys.1]
        rfl
      | some j =>
        show (((((text k, j) :: objet champs).find? (·.1 == text k)).map (·.2)).getD .null) = j
        rw [List.find?_cons_of_pos (by simp)]
        rfl
    · have hne : text c.1 ≠ text c'.1 := fun heq =>
        hkeys.1 (List.mem_map.mpr ⟨c', hmem, heq.symm⟩)
      have hskip : field (objet (c :: champs)) c'.1 = field (objet champs) c'.1 := by
        obtain ⟨k, v⟩ := c
        cases v with
        | none => rfl
        | some j =>
          show (((((text k, j) :: objet champs).find? (·.1 == text c'.1)).map (·.2)).getD .null) = _
          rw [List.find?_cons_of_neg (by simpa using hne)]
          rfl
      rw [hskip]
      exact ih hkeys.2 c' hmem

theorem regulier_objet {champs : List (String × Option Json)}
    (hkeys : (champs.map fun c => text c.1).Nodup)
    (hvalues : ∀ c ∈ champs, ∀ j ∈ c.2, Json.Regulier j) : (Json.obj (objet champs)).Regulier := by
  constructor
  · have hsub : ((objet champs).map (·.1)).Sublist (champs.map fun c => text c.1) := by
      clear hkeys hvalues
      induction champs with
      | nil => exact List.Sublist.refl _
      | cons c champs ih =>
        obtain ⟨k, v⟩ := c
        cases v with
        | none => exact ih.cons _
        | some j => exact ih.cons_cons _
    exact hkeys.sublist hsub
  · clear hkeys
    induction champs with
    | nil => exact trivial
    | cons c champs ih =>
      have htail := ih fun c hc => hvalues c (List.mem_cons_of_mem _ hc)
      obtain ⟨k, v⟩ := c
      cases v with
      | none => exact htail
      | some j => exact ⟨hvalues _ List.mem_cons_self j rfl, htail⟩

/-! ## Values there and back -/

theorem asString?_getD (o : Option Text) : ((o.map Json.str).getD .null).asString? = some o := by
  cases o <;> rfl

theorem asBool?_getD (o : Option Bool) : ((o.map Json.bool).getD .null).asBool? = some o := by
  cases o <;> rfl

theorem vrai?_siVrai (b : Bool) : vrai? ((siVrai b).getD .null) = some b := by
  cases b <;> rfl

theorem asInt_millis {t : Int} (h : EstDate t) :
    (millis t).asInt.bind fromMilliseconds = some (millisecondsSinceEpoch t * 1000) :=
  fromMilliseconds_sentAt h

theorem date?_millis {o : Option Int} (h : ∀ t ∈ o, EstDate t) :
    date? ((o.map millis).getD .null) = some (o.map fun t => millisecondsSinceEpoch t * 1000) := by
  cases o with
  | none => rfl
  | some t =>
    show ((millis t).asInt.bind fromMilliseconds).map some = _
    rw [asInt_millis (h t rfl)]
    rfl

theorem listeTextes_arr (l : List Text) : listeTextes (.arr (l.map .str)) = some l := by
  show (l.map Json.str).mapM Json.asString = some l
  rw [mapM_map_some (f := Json.asString) (g := Json.str) (h := id) fun t _ => rfl, List.map_id]

theorem listeTextes?_siNonVide (l : List Text) :
    listeTextes? ((siNonVide l).getD .null) = some l := by
  unfold siNonVide
  split
  · rename_i hl
    rw [hl]
    rfl
  · exact listeTextes_arr l

/-- A list without repetition is its own set. -/
theorem ensemble_of_nodup {l : List Text} (h : l.Nodup) : ensemble l = l := by
  have hfold : ∀ done l : List Text, (done ++ l).Nodup → l.foldl addToSet done = done ++ l := by
    intro done l
    induction l generalizing done with
    | nil => exact fun _ => (List.append_nil _).symm
    | cons t l ih =>
      intro hnodup
      have hnew : t ∉ done := fun hmem =>
        (List.nodup_append.mp hnodup).2.2 _ hmem _ List.mem_cons_self rfl
      rw [List.foldl_cons, addToSet, if_neg hnew, ih _ (by rwa [List.append_assoc]),
        List.append_assoc]
      rfl
  exact hfold [] l h

theorem attachment?_getD (o : Option AttachmentRef) :
    attachment? ((o.map fun a => Json.obj a.toJson).getD .null) = some o := by
  cases o with
  | none => rfl
  | some a =>
    show (AttachmentRef.fromJson a.toJson).map some = _
    rw [fromJson_toJson]
    rfl

theorem octets?_getD (o : Option Bytes) :
    octets? ((o.map fun b => Json.str (Base64.encode false b)).getD .null) = some o := by
  cases o with
  | none => rfl
  | some b =>
    show (Base64.decode (Base64.encode false b)).map some = _
    rw [Base64.decode_encode]
    rfl

/-- The reactions of a message, put one after the other into a new map. -/
def ChatMessage.reactionsLues (m : ChatMessage) : LinkedMap Text (List Text) :=
  m.reactions.entries.foldl (fun r e => r.insert e.1 e.2) .empty

theorem entreeReaction_arr (emoji : Text) {l : List Text} (h : l.Nodup) :
    entreeReaction (emoji, .arr (l.map .str)) = some (emoji, l) := by
  rw [entreeReaction, listeTextes_arr, Option.map_some, ensemble_of_nodup h]

theorem reactions?_getD {m : ChatMessage} (h : m.Valide) :
    reactions? ((if m.reactions.entries = [] then none else some (Json.obj
      (m.reactions.entries.map fun e => (e.1, .arr (e.2.map .str))))).getD .null) =
      some m.reactionsLues := by
  by_cases hempty : m.reactions.entries = []
  · rw [if_pos hempty, ChatMessage.reactionsLues, hempty]
    rfl
  · rw [if_neg hempty]
    show (((m.reactions.entries.map fun e : Text × List Text =>
      (e.1, Json.arr (e.2.map .str))).mapM entreeReaction).map fun entries =>
        entries.foldl (fun r e => r.insert e.1 e.2) LinkedMap.empty) = _
    rw [mapM_map_some (h := id) fun e he => entreeReaction_arr e.1 (h.comptes e he), List.map_id]
    rfl

/-! ## Messages there and back -/

/-- What a message reads back as. -/
def ChatMessage.relu (m : ChatMessage) : ChatMessage :=
  { m.saved with reactions := m.reactionsLues }

theorem relu_egaux {m : ChatMessage} (h : m.Valide) : m.relu.Egaux m.saved := by
  refine ⟨?_, rfl⟩
  have hkeys : ((LinkedMap.empty : LinkedMap Text (List Text)).keys ++
      m.reactions.entries.map (·.1)).Nodup := h.emojis
  refine (LinkedMap.entries_foldl_insert _ _ hkeys).trans ?_
  show m.reactions.entries.map (fun e => (e.1, e.2)) = m.reactions.entries
  exact List.map_id _

theorem nodup_champs (m : ChatMessage) : (m.champs.map fun c => text c.1).Nodup :=
  show (["t", "m", "a", "i", "q", "qt", "qm", "f", "r", "d", "e", "x", "lu", "la", "sys", "au",
    "rx", "exp"].map text).Nodup from by decide

theorem chatMessage_fromJson_toJson {m : ChatMessage} (h : m.Valide) :
    ChatMessage.fromJson m.toJson = some m.relu := by
  have hfield := field_objet (nodup_champs m)
  change ∀ c ∈ m.champs, field m.toJson c.1 = c.2.getD .null at hfield
  simp only [ChatMessage.champs, List.forall_mem_cons] at hfield
  obtain ⟨ht, hm, ha, hi, hq, hqt, hqm, hf, hr, hd, he, hx, hlu, hla, hsys, hau, hrx, hexp, -⟩ :=
    hfield
  unfold ChatMessage.fromJson
  rw [ht, hm, ha, hi, hq, hqt, hqm, hf, hr, hd, he, hx, hlu, hla, hsys, hau, hrx, hexp,
    attachment?_getD, listeTextes?_siNonVide, vrai?_siVrai, vrai?_siVrai, vrai?_siVrai,
    vrai?_siVrai, vrai?_siVrai, asString?_getD, asString?_getD, asString?_getD, asString?_getD,
    asBool?_getD, date?_millis h.editedAt, date?_millis h.expiresAt, reactions?_getD h]
  simp only [Option.getD_some, asInt_millis h.sentAt]
  rfl

theorem elementsReguliers_map {α : Type} {f : α → Json} {l : List α}
    (h : ∀ a ∈ l, (f a).Regulier) : ElementsReguliers (l.map f) := by
  induction l with
  | nil => trivial
  | cons a l ih => exact ⟨h a List.mem_cons_self, ih fun b hb => h b (List.mem_cons_of_mem _ hb)⟩

theorem champsReguliers_map {α : Type} {f : α → Text × Json} {l : List α}
    (h : ∀ a ∈ l, (f a).2.Regulier) : ChampsReguliers (l.map f) := by
  induction l with
  | nil => trivial
  | cons a l ih => exact ⟨h a List.mem_cons_self, ih fun b hb => h b (List.mem_cons_of_mem _ hb)⟩

theorem regulier_textes (l : List Text) : (Json.arr (l.map .str)).Regulier :=
  elementsReguliers_map fun _ _ => trivial

theorem regulier_siVrai (b : Bool) : ∀ j ∈ siVrai b, Json.Regulier j := by
  cases b
  · rintro j ⟨⟩
  · rintro j ⟨⟩
    trivial

theorem regulier_siNonVide (l : List Text) : ∀ j ∈ siNonVide l, Json.Regulier j := by
  unfold siNonVide
  split
  · rintro j ⟨⟩
  · rintro j ⟨⟩
    exact regulier_textes l

/-- A field that is written where its value is not null. -/
theorem regulier_map {α : Type} {f : α → Json} (h : ∀ a, (f a).Regulier) (o : Option α) :
    ∀ j ∈ o.map f, Json.Regulier j := by
  rintro j hj
  obtain ⟨a, -, rfl⟩ := Option.map_eq_some_iff.mp hj
  exact h a

theorem regulier_str (o : Option Text) : ∀ j ∈ o.map Json.str, Json.Regulier j :=
  regulier_map (f := Json.str) (fun _ => trivial) o

/-- A field that is always written. -/
theorem regulier_some {j' : Json} (h : j'.Regulier) : ∀ j ∈ some j', Json.Regulier j := by
  rintro j ⟨⟩
  exact h

/-- A number that is written where it differs from its default. -/
theorem regulier_ite (p : Prop) [Decidable p] (n : Int) :
    ∀ j ∈ (if p then some (Json.num (some n)) else none), Json.Regulier j := by
  split
  · exact regulier_some rfl
  · rintro j ⟨⟩

theorem regulier_attachment (a : AttachmentRef) : (Json.obj a.toJson).Regulier := by
  obtain ⟨id, keyBase64, fileName, size, voiceDurationMs⟩ := a
  cases voiceDurationMs with
  | none => exact ⟨show (["id", "k", "n", "s"].map text).Nodup from by decide,
      trivial, trivial, trivial, rfl, trivial⟩
  | some d => exact ⟨show (["id", "k", "n", "s", "vd"].map text).Nodup from by decide,
      trivial, trivial, trivial, rfl, rfl, trivial⟩

theorem regulier_reactions {m : ChatMessage} (h : m.Valide) :
    (Json.obj (m.reactions.entries.map fun e => (e.1, .arr (e.2.map .str)))).Regulier := by
  refine ⟨?_, champsReguliers_map fun e _ => regulier_textes e.2⟩
  rw [List.map_map]
  exact h.emojis

theorem regulier_toJson {m : ChatMessage} (h : m.Valide) : (Json.obj m.toJson).Regulier := by
  refine regulier_objet (nodup_champs m) ?_
  have hdate : ∀ o : Option Int, ∀ j ∈ o.map millis, j.Regulier := regulier_map fun _ => rfl
  simp only [ChatMessage.champs, List.forall_mem_cons]
  refine ⟨regulier_some trivial, regulier_some trivial, regulier_some rfl, regulier_str _,
    regulier_str _, regulier_str _,
    regulier_map (f := Json.bool) (fun _ => trivial) _, regulier_map regulier_attachment _,
    regulier_siNonVide _,
    regulier_siVrai _, hdate _, regulier_siVrai _, regulier_siVrai _, regulier_siVrai _,
    regulier_siVrai _, regulier_str _, ?_, hdate _, fun c hc => by cases hc⟩
  split
  · rintro j ⟨⟩
  · exact regulier_some (regulier_reactions h)

variable {double}

/-- A message reads back as it was, to the millisecond. -/
theorem chatMessage_relecture {m : ChatMessage} (h : m.Valide) :
    m.relecture double = some m.relu := by
  rw [ChatMessage.relecture, jsonDecode_jsonEncode (regulier_toJson h)]
  exact chatMessage_fromJson_toJson h

/-- A whole history reads back as `saveHistory` keeps it. -/
theorem lireHistorique_historique {messages : List ChatMessage} (h : ∀ m ∈ messages, m.Valide) :
    List.Forall₂ ChatMessage.Egaux (lireHistorique double (historique messages))
      (messages.map ChatMessage.saved) := by
  have hregulier : (Json.arr (messages.map fun m => Json.obj m.toJson)).Regulier :=
    elementsReguliers_map fun m hm => regulier_toJson (h m hm)
  have hread : lireHistorique double (historique messages) = messages.map ChatMessage.relu := by
    unfold lireHistorique historique
    rw [jsonDecode_jsonEncode hregulier]
    have hrecords : (messages.map fun m => Json.obj m.toJson).mapM (fun j : Json =>
        j.asMap.bind ChatMessage.fromJson) = some (messages.map ChatMessage.relu) :=
      mapM_map_some fun m hm => chatMessage_fromJson_toJson (h m hm)
    exact congrArg (·.getD []) hrecords
  rw [hread, List.forall₂_map_left_iff, List.forall₂_map_right_iff, List.forall₂_same]
  exact fun m hm => relu_egaux (h m hm)

/-! ## Conversations there and back -/

theorem nodup_champs_conversation (c : Conversation) (f : Fiche) :
    ((c.champs f).map fun c => text c.1).Nodup :=
  show (["id", "peer", "peerId", "group", "members", "own", "devices", "at", "ttl", "channel",
    "chAdmin", "chOwner", "chSecret", "unread", "pinned"].map text).Nodup from by decide

theorem regulier_conversation (c : Conversation) (f : Fiche) :
    (Json.obj (c.toJson f)).Regulier := by
  refine regulier_objet (nodup_champs_conversation c f) ?_
  simp only [Conversation.champs, List.forall_mem_cons]
  exact ⟨regulier_some trivial, regulier_some trivial, regulier_str _, regulier_siVrai _,
    regulier_siNonVide _, regulier_siNonVide _, regulier_some (regulier_textes _),
    regulier_some rfl, regulier_ite _ _, regulier_siVrai _, regulier_str _, regulier_siVrai _,
    regulier_map (f := fun b => Json.str (Base64.encode false b)) (fun _ => trivial) _,
    regulier_ite _ _, regulier_siVrai _, fun c hc => by cases hc⟩

theorem conversation_fromJson_toJson {c : Conversation} {f : Fiche} (h : c.Valide f) :
    Conversation.fromJson (c.toJson f) = some (c.relue, f) := by
  have hfield := field_objet (nodup_champs_conversation c f)
  change ∀ e ∈ c.champs f, field (c.toJson f) e.1 = e.2.getD .null at hfield
  simp only [Conversation.champs, List.forall_mem_cons] at hfield
  obtain ⟨hid, hpeer, hpeerId, hgroup, hmembers, hown, hdevices, hat, httl, hchannel, hadmin,
    howner, hsecret, hunread, hpinned, -⟩ := hfield
  have httl' : entier? (field (c.toJson f) "ttl") =
      some (if 0 < c.ttlSecondes then c.ttlSecondes else 0) := by
    rw [httl]
    split <;> rfl
  have hunread' : entier? (field (c.toJson f) "unread") = some (c.unread : Int) := by
    rw [hunread]
    split
    · rfl
    · rename_i hzero
      rw [Nat.eq_zero_of_not_pos hzero]
      rfl
  have hdevices' : listeTextes? (field (c.toJson f) "devices") = some c.targetDeviceIds := by
    rw [hdevices]
    exact listeTextes_arr _
  unfold Conversation.fromJson
  rw [hid, hpeer, hpeerId, hgroup, hmembers, hown, hdevices', hat, httl', hchannel, hadmin, howner,
    hsecret, hunread', hpinned, listeTextes?_siNonVide, listeTextes?_siNonVide, vrai?_siVrai,
    vrai?_siVrai, vrai?_siVrai, vrai?_siVrai, asString?_getD, asString?_getD, octets?_getD]
  simp only [Option.getD_some, asInt_millis h.lastActivity, Option.bind_eq_bind, Option.bind_some,
    ensemble_of_nodup h.members, ensemble_of_nodup h.devices, ensemble_of_nodup h.own,
    Int.toNat_natCast]
  rfl

/-- A conversation reads back as it was, with a time below zero taken for none. -/
theorem conversation_relecture {c : Conversation} {f : Fiche} (h : c.Valide f) :
    c.relecture double f = some (c.relue, f) := by
  rw [Conversation.relecture, jsonDecode_jsonEncode (regulier_conversation c f)]
  exact conversation_fromJson_toJson h

theorem relecture_eq_saved_iff {c : Conversation} {f : Fiche} (h : c.Valide f) :
    c.relecture double f = some (c.saved, f) ↔ 0 ≤ c.ttlSecondes := by
  rw [conversation_relecture h]
  constructor
  · intro heq
    have httl := congrArg Conversation.ttlSecondes (Prod.mk.inj (Option.some.inj heq)).1
    change (if 0 < c.ttlSecondes then c.ttlSecondes else 0) = c.ttlSecondes at httl
    split at httl <;> omega
  · intro hpos
    have httl : (if 0 < c.ttlSecondes then c.ttlSecondes else 0) = c.ttlSecondes := by
      split <;> omega
    rw [Conversation.relue, httl]
    rfl

end ZiaCrypte.Inbox
