import ZiaCrypte.Inbox.Isolation
import ZiaCrypte.Inbox.Scripted
import Mathlib.Data.List.ReduceOption

/-!
# History for a new device

`_backfillSibling` sends one batch for each conversation that has messages from before the
other device, and `_applySyncPayload` adds there the messages whose time is new. Whatever
the order of the batches and however often each comes, a thread gains each selected message
once, with no more than its text, its direction, its time and its attachment.
-/
namespace ZiaCrypte.Inbox

open ZiaCrypte.Lib

/-! ## The batches -/

def AttachmentRef.toJson (a : AttachmentRef) : List (Text × Json) :=
  [(text "id", .str a.id), (text "k", .str a.keyBase64), (text "n", .str a.fileName),
    (text "s", .num (some a.size))] ++
  a.voiceDurationMs.toList.map fun d => (text "vd", .num (some d))

/-- A message in a batch. -/
def syncJson (m : ChatMessage) : List (Text × Json) :=
  [(text "t", .str m.text), (text "m", .bool m.mine),
    (text "a", .num (some (millisecondsSinceEpoch m.sentAt)))] ++
  m.attachment.toList.map fun f => (text "f", .obj f.toJson)

/-- The messages from before the other device. -/
def anciens (before : Int) (c : Conversation) : List ChatMessage :=
  c.messages.filter (·.sentAt < before)

/-- The last 200 of them. -/
def recents (before : Int) (c : Conversation) : List ChatMessage :=
  (anciens before c).drop ((anciens before c).length - 200)

def syncData (before : Int) (c : Conversation) : List (Text × Json) :=
  [(text "conv", .str c.id), (text "peer", .str c.peerUsername),
    (text "peerId", c.peerUserId.elim .null .str), (text "group", .bool c.isGroup),
    (text "members", .arr (c.memberUserIds.map .str)),
    (text "msgs", .arr ((recents before c).map fun m => .obj (syncJson m)))]

/-- The text of the batch of a conversation. -/
def syncTexte (jsonEncode : Json → Text) (before : Int) (c : Conversation) : Text :=
  prefixeSync ++ jsonEncode (.obj (syncData before c))

/-- `_backfillSibling`: the texts that are sent. -/
def backfillSibling (jsonEncode : Json → Text) (before : Int)
    (conversations : List Conversation) : List Text :=
  conversations.filterMap fun c =>
    if anciens before c = [] then none else some (syncTexte jsonEncode before c)

variable {E : Type}

/-- The other device takes a batch in. -/
def integrer (P : Platform E) (d : Int × Text) (s : State E) : State E :=
  applySyncPayload P d.1 (d.2.drop prefixeSync.length) s

/-- The batches it receives, each at its time. -/
def integrerTous (P : Platform E) : List (Int × Text) → State E → State E
  | [], s => s
  | d :: ds, s => integrerTous P ds (integrer P d s)

/-! ## What should be the same -/

/-- The messages selected of a conversation. -/
def selection (before : Int) (conversations : List Conversation) (conv : Text) :
    List ChatMessage :=
  ((conversations.find? (·.id == conv)).map (recents before)).getD []

/-- A message as it is shown. -/
structure Vue where
  id : Option Text
  text : Text
  author : Option Text
  mine : Bool
  sentAt : Int
  attachment : Option AttachmentRef
  expiresAt : Option Int
  systeme : Bool
  deletedForEveryone : Bool
  deriving DecidableEq

def ChatMessage.vue (m : ChatMessage) : Vue where
  id := m.id
  text := m.text
  author := m.author
  mine := m.mine
  sentAt := m.sentAt
  attachment := m.attachment
  expiresAt := m.expiresAt
  systeme := m.systeme
  deletedForEveryone := m.deletedForEveryone

/-- Each thread is what it was and the selected messages, each once. -/
def Backfilled (before : Int) (conversations : List Conversation) (s s' : State E) : Prop :=
  ∀ conv, ((s'.messagesIn conv).map ChatMessage.vue).Perm
    ((s.messagesIn conv ++ selection before conversations conv).map ChatMessage.vue)

/-- A message that a batch holds whole. -/
structure Simple (m : ChatMessage) : Prop where
  id : m.id = none
  author : m.author = none
  permanent : m.expiresAt = none
  ecrit : m.systeme = false
  vivant : m.deletedForEveryone = false
  entier : millisecondsSinceEpoch m.sentAt * 1000 = m.sentAt

/-- The time of a message is not one of those of a thread. -/
def Nouveau (messages : List ChatMessage) (m : ChatMessage) : Prop :=
  millisecondsSinceEpoch m.sentAt ∉ messages.map fun m => millisecondsSinceEpoch m.sentAt

instance (messages : List ChatMessage) : DecidablePred (Nouveau messages) := fun _ =>
  inferInstanceAs (Decidable (_ ∉ _))

/-! ## One message of a batch -/

/-- What a message comes to. -/
def ChatMessage.recu (m : ChatMessage) : ChatMessage :=
  { ChatMessage.new m.text m.mine (millisecondsSinceEpoch m.sentAt * 1000) with
    attachment := m.attachment }

theorem fromJson_toJson (a : AttachmentRef) : AttachmentRef.fromJson a.toJson = some a := by
  obtain ⟨id, keyBase64, fileName, size, voiceDurationMs⟩ := a
  cases voiceDurationMs <;> rfl

/-- The milliseconds of a date are a date. -/
theorem fromMilliseconds_sentAt {t : Int} (h : dateTime t = some t) :
    fromMilliseconds (millisecondsSinceEpoch t) = some (millisecondsSinceEpoch t * 1000) := by
  have hrange : t.natAbs ≤ maxMicroseconds.natAbs := by
    unfold dateTime at h
    split at h
    · assumption
    · cases h
  rw [fromMilliseconds, dateTime, if_pos]
  unfold millisecondsSinceEpoch
  unfold maxMicroseconds at hrange ⊢
  omega

/-- The fields of a message in a batch. -/
theorem syncJson_fields (m : ChatMessage) :
    field (syncJson m) "t" = .str m.text ∧ field (syncJson m) "m" = .bool m.mine ∧
      field (syncJson m) "a" = .num (some (millisecondsSinceEpoch m.sentAt)) ∧
      field (syncJson m) "f" = m.attachment.elim .null fun f => .obj f.toJson := by
  unfold syncJson
  cases m.attachment with
  | none => exact ⟨rfl, rfl, rfl, rfl⟩
  | some f => exact ⟨rfl, rfl, rfl, rfl⟩

theorem syncMessage_syncJson {presents : List Int} {m : ChatMessage}
    (h : dateTime m.sentAt = some m.sentAt) :
    syncMessage presents (.obj (syncJson m)) =
      some (if millisecondsSinceEpoch m.sentAt ∈ presents then none else some m.recu) := by
  obtain ⟨ht, hm, ha, hf⟩ := syncJson_fields m
  unfold syncMessage
  simp only [Json.asMap, Option.bind_eq_bind, Option.bind_some, ha, Json.asInt]
  split
  · rfl
  · simp only [ht, hm, hf, Json.asString, Json.asBool, Option.bind_some,
      fromMilliseconds_sentAt h, Option.pure_def]
    unfold ChatMessage.recu
    cases m.attachment with
    | none => rfl
    | some f =>
      simp only [Option.elim_some, Json.isNull, Option.bind_some, fromJson_toJson,
        Bool.false_eq_true, if_false]

/-! ## One batch -/

/-- What is left of the elements that are there. -/
theorem reduceOption_map_ite {α β : Type} (p : α → Prop) [DecidablePred p] (f : α → β)
    (l : List α) : (l.map fun a => if p a then none else some (f a)).reduceOption =
      (l.filter fun a => ¬ p a).map f := by
  induction l with
  | nil => rfl
  | cons a l ih =>
    rw [List.map_cons]
    by_cases hp : p a
    · rw [if_pos hp, List.reduceOption_cons_of_none, ih, List.filter_cons_of_neg (by simpa using hp)]
    · rw [if_neg hp, List.reduceOption_cons_of_some, ih, List.filter_cons_of_pos (by simpa using hp)]
      rfl

/-- What a thread gains by the messages selected. -/
def manquants (recents messages : List ChatMessage) : List ChatMessage :=
  (recents.filter fun m => Nouveau messages m).map ChatMessage.recu

theorem syncEntrants_syncData {before : Int} {c : Conversation} {messages : List ChatMessage}
    (hdates : ∀ m ∈ c.messages, dateTime m.sentAt = some m.sentAt) :
    syncEntrants (syncData before c) messages = some (manquants (recents before c) messages) := by
  have hrecents : ∀ m ∈ recents before c, dateTime m.sentAt = some m.sentAt := fun m hm =>
    hdates m (List.mem_of_mem_filter (List.mem_of_mem_drop hm))
  have hmsgs : field (syncData before c) "msgs" =
      .arr ((recents before c).map fun m => .obj (syncJson m)) := rfl
  unfold syncEntrants
  rw [hmsgs]
  simp only [Json.asList, Option.bind_eq_bind, Option.bind_some]
  rw [mapM_map_some fun m hm => syncMessage_syncJson (hrecents m hm), Option.bind_some,
    reduceOption_map_ite]
  rfl

/-- A batch is of the right shape. -/
theorem batchReadable_syncData (before : Int) (c : Conversation) (s : State E) :
    batchReadable (syncData before c) c.id s = true := by
  have hpeer : field (syncData before c) "peer" = .str c.peerUsername := rfl
  have hpeerId : field (syncData before c) "peerId" = c.peerUserId.elim .null .str := rfl
  have hmembers : field (syncData before c) "members" = .arr (c.memberUserIds.map .str) := rfl
  have hid : (c.peerUserId.elim Json.null Json.str).asString?.isSome = true := by
    cases c.peerUserId <;> rfl
  unfold batchReadable
  rw [hpeer, hpeerId, hmembers, hid, Bool.or_true]
  simp [Json.asString?, Json.asString, Json.asList?, Json.asList]

variable {P : Platform E} {jsonEncode : Json → Text}

theorem batchEntrants_syncTexte {before : Int} {c : Conversation} {s : State E}
    (hdates : ∀ m ∈ c.messages, dateTime m.sentAt = some m.sentAt)
    (hjson : P.jsonDecode (jsonEncode (.obj (syncData before c))) =
      some (.obj (syncData before c))) :
    batchEntrants P (jsonEncode (.obj (syncData before c))) s =
      if manquants (recents before c) (s.messagesIn c.id) = [] then none
      else some (c.id, manquants (recents before c) (s.messagesIn c.id)) := by
  have hconv : field (syncData before c) "conv" = .str c.id := rfl
  unfold batchEntrants
  rw [hjson]
  simp only [Option.bind_eq_bind, Option.bind_some, Json.asMap, hconv, Json.asString]
  rw [if_pos (batchReadable_syncData before c s), syncEntrants_syncData hdates]
  cases manquants (recents before c) (s.messagesIn c.id) <;> rfl

/-- A batch adds to its thread the messages whose time is new there, and touches no other. -/
theorem integrer_messagesIn {before now : Int} {c : Conversation} {s : State E}
    (hdates : ∀ m ∈ c.messages, dateTime m.sentAt = some m.sentAt)
    (hjson : P.jsonDecode (jsonEncode (.obj (syncData before c))) =
      some (.obj (syncData before c))) :
    ((integrer P (now, syncTexte jsonEncode before c) s).messagesIn c.id).Perm
        (s.messagesIn c.id ++ manquants (recents before c) (s.messagesIn c.id)) ∧
      ∀ conv, conv ≠ c.id →
        (integrer P (now, syncTexte jsonEncode before c) s).messagesIn conv =
          s.messagesIn conv := by
  have hdrop : (syncTexte jsonEncode before c).drop prefixeSync.length =
      jsonEncode (.obj (syncData before c)) := List.drop_left
  have hbatch := batchEntrants_syncTexte (s := s) hdates hjson
  unfold integrer
  rw [hdrop]
  rcases applySyncPayload_cases P now (jsonEncode (.obj (syncData before c))) s with
    ⟨hnone, hsame⟩ | ⟨convId, entrants, hsome, -, hthreads, -⟩
  · rw [hbatch] at hnone
    split at hnone
    · rename_i hempty
      rw [hsame.messages, hempty, List.append_nil]
      exact ⟨.refl _, fun conv _ => hsame.messages conv⟩
    · cases hnone
  · rw [hbatch] at hsome
    split at hsome
    · cases hsome
    · obtain ⟨rfl, rfl⟩ := Prod.mk.inj (Option.some.inj hsome)
      constructor
      · rw [hthreads, if_pos rfl]
        exact List.perm_insertionSort _ _
      · intro conv hne
        rw [hthreads, if_neg hne]

/-! ## All batches -/

/-- The messages a thread lacks depend on the times it has. -/
theorem manquants_congr {recents messages messages' : List ChatMessage}
    (h : ∀ t, (t ∈ messages.map fun m => millisecondsSinceEpoch m.sentAt) ↔
      t ∈ messages'.map fun m => millisecondsSinceEpoch m.sentAt) :
    manquants recents messages = manquants recents messages' := by
  unfold manquants
  congr 1
  exact List.filter_congr fun m _ => decide_eq_decide.mpr (not_congr (h _))

theorem millisecondsSinceEpoch_recu (m : ChatMessage) :
    millisecondsSinceEpoch m.recu.sentAt = millisecondsSinceEpoch m.sentAt := by
  show millisecondsSinceEpoch m.sentAt * 1000 / 1000 = millisecondsSinceEpoch m.sentAt
  exact Int.mul_ediv_cancel _ (by decide)

/-- A second copy of a batch adds nothing. -/
theorem manquants_append (recents messages : List ChatMessage) :
    manquants recents (messages ++ manquants recents messages) = [] := by
  unfold manquants
  rw [List.map_eq_nil_iff, List.filter_eq_nil_iff]
  intro m hm hnouveau
  rw [decide_eq_true_iff] at hnouveau
  refine hnouveau ?_
  rw [List.map_append, List.mem_append]
  by_cases hin : Nouveau messages m
  · right
    refine List.mem_map.mpr ⟨m.recu, List.mem_map_of_mem ?_, millisecondsSinceEpoch_recu m⟩
    exact List.mem_filter.mpr ⟨hm, decide_eq_true hin⟩
  · left
    exact Classical.not_not.mp hin

/-- Whether a batch of a conversation is among those received. -/
def Arrive (jsonEncode : Json → Text) (before : Int) (conversations : List Conversation)
    (conv : Text) (deliveries : List (Int × Text)) : Prop :=
  ∃ d ∈ deliveries, ∃ c ∈ conversations, c.id = conv ∧ d.2 = syncTexte jsonEncode before c

/-- What the lemmas ask of the device that sends: its conversations have their own ids,
their dates are dates, and the other side reads the batches as they were written. -/
structure Sendable (P : Platform E) (jsonEncode : Json → Text) (before : Int)
    (conversations : List Conversation) : Prop where
  ids : (conversations.map (·.id)).Nodup
  dates : ∀ c ∈ conversations, ∀ m ∈ c.messages, dateTime m.sentAt = some m.sentAt
  json : ∀ c ∈ conversations, P.jsonDecode (jsonEncode (.obj (syncData before c))) =
    some (.obj (syncData before c))

theorem selection_of_mem {before : Int} {conversations : List Conversation}
    (hids : (conversations.map (·.id)).Nodup) {c : Conversation} (hc : c ∈ conversations) :
    selection before conversations c.id = recents before c := by
  have hfind : conversations.find? (·.id == c.id) = some c := by
    induction conversations with
    | nil => cases hc
    | cons c' cs ih =>
      obtain ⟨hhead, htail⟩ := List.nodup_cons.mp hids
      rcases List.mem_cons.mp hc with rfl | htl
      · exact List.find?_cons_of_pos (by simp)
      · have hmem : c.id ∈ cs.map (·.id) := List.mem_map_of_mem htl
        have hne : c'.id ≠ c.id := by
          intro h
          rw [← h] at hmem
          exact hhead hmem
        rw [List.find?_cons_of_neg (by simpa using hne)]
        exact ih htail htl
  rw [selection, hfind, Option.map_some, Option.getD_some]

/-- A batch names its conversation. -/
theorem syncTexte_inj {before : Int} {conversations : List Conversation}
    (h : Sendable P jsonEncode before conversations) {c c' : Conversation}
    (hc : c ∈ conversations) (hc' : c' ∈ conversations)
    (heq : syncTexte jsonEncode before c = syncTexte jsonEncode before c') : c.id = c'.id := by
  have hencode := List.append_cancel_left heq
  have hdata := h.json c hc
  rw [hencode, h.json c' hc'] at hdata
  have hfields := congrArg (fun d => field d "conv") (Json.obj.inj (Option.some.inj hdata))
  have hconv : Json.str c'.id = .str c.id := hfields
  exact (Json.str.inj hconv).symm

/-- After any number of batches a thread has gained what it lacked, if its batch came. -/
theorem integrerTous_messagesIn {before : Int} {conversations : List Conversation}
    (h : Sendable P jsonEncode before conversations) {deliveries : List (Int × Text)}
    (hsent : ∀ d ∈ deliveries, ∃ c ∈ conversations, d.2 = syncTexte jsonEncode before c)
    (s : State E) (conv : Text) :
    (Arrive jsonEncode before conversations conv deliveries →
      ((integrerTous P deliveries s).messagesIn conv).Perm
        (s.messagesIn conv ++
          manquants (selection before conversations conv) (s.messagesIn conv))) ∧
    (¬ Arrive jsonEncode before conversations conv deliveries →
      (integrerTous P deliveries s).messagesIn conv = s.messagesIn conv) := by
  induction deliveries generalizing s with
  | nil => exact ⟨fun ⟨d, hd, _⟩ => absurd hd List.not_mem_nil, fun _ => rfl⟩
  | cons d ds ih =>
    obtain ⟨c, hc, hd⟩ := hsent d List.mem_cons_self
    have hstep := @integrer_messagesIn _ P _ _ d.1 _ s (h.dates c hc) (h.json c hc)
    rw [← hd, ← selection_of_mem h.ids hc] at hstep
    obtain ⟨hthread, hothers⟩ := hstep
    obtain ⟨hcame, hnot⟩ := ih (fun d' hd' => hsent d' (List.mem_cons_of_mem _ hd'))
      (integrer P d s)
    have harrive : Arrive jsonEncode before conversations conv (d :: ds) ↔
        c.id = conv ∨ Arrive jsonEncode before conversations conv ds := by
      constructor
      · intro ⟨d', hd', c', hc', hid, htexte⟩
        rcases List.mem_cons.mp hd' with rfl | htl
        · exact .inl ((syncTexte_inj h hc hc' (hd.symm.trans htexte)).trans hid)
        · exact .inr ⟨d', htl, c', hc', hid, htexte⟩
      · rintro (hid | ⟨d', hd', hrest⟩)
        · exact ⟨d, List.mem_cons_self, c, hc, hid, hd⟩
        · exact ⟨d', List.mem_cons_of_mem _ hd', hrest⟩
    rw [harrive]
    by_cases hid : c.id = conv
    · subst hid
      refine ⟨fun _ => ?_, fun hno => absurd (.inl rfl) hno⟩
      -- The thread has them all now: the batches that follow add nothing to it.
      have hall : manquants (selection before conversations c.id)
          ((integrer P d s).messagesIn c.id) = [] := by
        rw [manquants_congr fun t => (hthread.map _).mem_iff]
        exact manquants_append _ _
      by_cases hagain : Arrive jsonEncode before conversations c.id ds
      · have hrest := hcame hagain
        rw [hall, List.append_nil] at hrest
        exact hrest.trans hthread
      · exact .trans (.of_eq (hnot hagain)) hthread
    · rw [hothers conv fun h => hid h.symm] at hcame hnot
      refine ⟨fun hor => hcame (hor.resolve_left hid), fun hno => ?_⟩
      exact hnot fun hlater => hno (.inr hlater)

/-! ## What comes back -/

theorem vue_recu_iff {m : ChatMessage} : m.recu.vue = m.vue ↔ Simple m := by
  constructor
  · intro h
    exact ⟨(congrArg Vue.id h).symm, (congrArg Vue.author h).symm,
      (congrArg Vue.expiresAt h).symm, (congrArg Vue.systeme h).symm,
      (congrArg Vue.deletedForEveryone h).symm, congrArg Vue.sentAt h⟩
  · intro ⟨hid, hauthor, hexp, hsys, hdel, hat⟩
    simp [ChatMessage.vue, ChatMessage.recu, ChatMessage.new, hid, hauthor, hexp, hsys, hdel, hat]

/-- Whatever comes out of a batch is simple. -/
theorem simple_of_vue_recu {m m' : ChatMessage} (h : m'.recu.vue = m.vue) : Simple m := by
  refine ⟨(congrArg Vue.id h).symm, (congrArg Vue.author h).symm,
    (congrArg Vue.expiresAt h).symm, (congrArg Vue.systeme h).symm,
    (congrArg Vue.deletedForEveryone h).symm, ?_⟩
  have hat : millisecondsSinceEpoch m'.sentAt * 1000 = m.sentAt := congrArg Vue.sentAt h
  rw [← hat]
  show millisecondsSinceEpoch m'.sentAt * 1000 / 1000 * 1000 = _
  rw [Int.mul_ediv_cancel _ (by decide)]

/-- A thread gains the selected messages as they are when they are simple and their times
are new to it, and not otherwise. -/
theorem manquants_perm_iff {recents messages : List ChatMessage} :
    ((messages ++ manquants recents messages).map ChatMessage.vue).Perm
        ((messages ++ recents).map ChatMessage.vue) ↔
      (∀ m ∈ recents, Simple m) ∧ ∀ m ∈ recents, Nouveau messages m := by
  rw [List.map_append, List.map_append, List.perm_append_left_iff]
  constructor
  · intro h
    have hlength := h.length_eq
    rw [List.length_map, List.length_map, manquants, List.length_map,
      List.length_filter_eq_length_iff] at hlength
    refine ⟨fun m hm => ?_, fun m hm => of_decide_eq_true (hlength m hm)⟩
    have hin := h.mem_iff.mpr (List.mem_map_of_mem hm)
    obtain ⟨received, hreceived, hvue⟩ := List.mem_map.mp hin
    obtain ⟨m', -, rfl⟩ := List.mem_map.mp hreceived
    exact simple_of_vue_recu hvue
  · intro ⟨hsimple, hnouveau⟩
    have hfilter : recents.filter (fun m => Nouveau messages m) = recents :=
      List.filter_eq_self.mpr fun m hm => decide_eq_true (hnouveau m hm)
    rw [manquants, hfilter, List.map_map]
    exact .of_eq (List.map_congr_left fun m hm => vue_recu_iff.mpr (hsimple m hm))

/-- The threads of the new device gain the selected messages, each once and as it was,
exactly when these are simple and at times that were not in its threads. -/
theorem backfill_restores_iff (P : Platform E) (jsonEncode : Json → Text) (before : Int)
    (conversations : List Conversation) (deliveries : List (Int × Text)) (s : State E)
    (hsendable : Sendable P jsonEncode before conversations)
    (hsent : ∀ d ∈ deliveries, d.2 ∈ backfillSibling jsonEncode before conversations)
    (hall : ∀ t ∈ backfillSibling jsonEncode before conversations, ∃ d ∈ deliveries, d.2 = t) :
    Backfilled before conversations s (integrerTous P deliveries s) ↔
      ∀ conv, (∀ m ∈ selection before conversations conv, Simple m) ∧
        ∀ m ∈ selection before conversations conv, Nouveau (s.messagesIn conv) m := by
  have htextes : ∀ d ∈ deliveries, ∃ c ∈ conversations, d.2 = syncTexte jsonEncode before c := by
    intro d hd
    obtain ⟨c, hc, hsome⟩ := List.mem_filterMap.mp (hsent d hd)
    split at hsome
    · cases hsome
    · exact ⟨c, hc, (Option.some.inj hsome).symm⟩
  have hnever : ∀ conv, ¬ Arrive jsonEncode before conversations conv deliveries →
      selection before conversations conv = [] := by
    intro conv hno
    unfold selection
    cases hfind : conversations.find? (·.id == conv) with
    | none => rfl
    | some c =>
      rw [Option.map_some, Option.getD_some]
      have hc := List.mem_of_find?_eq_some hfind
      have hid : c.id = conv := by simpa using List.find?_some hfind
      by_cases hvide : anciens before c = []
      · rw [recents, hvide]
        rfl
      · have hmem : syncTexte jsonEncode before c ∈
            backfillSibling jsonEncode before conversations :=
          List.mem_filterMap.mpr ⟨c, hc, if_neg hvide⟩
        obtain ⟨d, hd, htexte⟩ := hall _ hmem
        exact absurd ⟨d, hd, c, hc, hid, htexte⟩ hno
  refine forall_congr' fun conv => ?_
  have hthread : ((integrerTous P deliveries s).messagesIn conv).Perm
      (s.messagesIn conv ++
        manquants (selection before conversations conv) (s.messagesIn conv)) := by
    obtain ⟨hcame, hnot⟩ := integrerTous_messagesIn hsendable htextes s conv
    by_cases harrive : Arrive jsonEncode before conversations conv deliveries
    · exact hcame harrive
    · rw [hnot harrive, hnever conv harrive]
      exact .of_eq (List.append_nil _).symm
  rw [← manquants_perm_iff]
  exact (hthread.map _).congr_left _

/-! ## A message that was to disappear, and one that comes as it was -/

def bobThread (m : ChatMessage) : Conversation :=
  { Conversation.new (text "c1") (text "bob") 0 with messages := [m] }

/-- Written at the first second, to disappear at the second one. -/
def fleeting : ChatMessage :=
  { ChatMessage.new (text "secret") true 1000000 with
    id := some (text "m1")
    expiresAt := some 2000000 }

def plainMessage : ChatMessage := .new (text "bonjour") true 1000000

def fleetingJson : Text := text ("\x7b\"conv\":\"c1\",\"peer\":\"bob\",\"peerId\":null," ++
  "\"group\":false,\"members\":[],\"msgs\":[\x7b\"t\":\"secret\",\"m\":true,\"a\":1000\x7d]\x7d")

def plainJson : Text := text ("\x7b\"conv\":\"c1\",\"peer\":\"bob\",\"peerId\":null," ++
  "\"group\":false,\"members\":[],\"msgs\":[\x7b\"t\":\"bonjour\",\"m\":true,\"a\":1000\x7d]\x7d")

/-- The platform that decodes the batch of one conversation. -/
def batchPlatform (json : Text) (m : ChatMessage) : Platform Unit :=
  scripted ⟨[(json, .obj (syncData 5000000 (bobThread m)))], [], []⟩

/-- The new device gets it without its id, and for good. -/
theorem fleeting_staysForGood :
    backfillSibling (fun _ => fleetingJson) 5000000 [bobThread fleeting] =
        [prefixeSync ++ fleetingJson] ∧
      (integrerTous (batchPlatform fleetingJson fleeting) [(0, prefixeSync ++ fleetingJson)]
        (loggedIn (text "alice") (text "alice"))).messagesIn (text "c1") =
          [.new (text "secret") true 1000000] ∧
      ¬ Backfilled 5000000 [bobThread fleeting] (loggedIn (text "alice") (text "alice"))
        (integrerTous (batchPlatform fleetingJson fleeting) [(0, prefixeSync ++ fleetingJson)]
          (loggedIn (text "alice") (text "alice"))) := by
  have hthread : (integrerTous (batchPlatform fleetingJson fleeting)
      [(0, prefixeSync ++ fleetingJson)] (loggedIn (text "alice") (text "alice"))).messagesIn
        (text "c1") = [.new (text "secret") true 1000000] := by
    decide +kernel
  refine ⟨rfl, hthread, fun h => ?_⟩
  have hc := h (text "c1")
  rw [hthread] at hc
  revert hc
  decide +kernel

theorem plainMessage_backfilled :
    Backfilled 5000000 [bobThread plainMessage] (loggedIn (text "alice") (text "alice"))
      (integrerTous (batchPlatform plainJson plainMessage)
        [(0, prefixeSync ++ plainJson), (1, prefixeSync ++ plainJson)]
        (loggedIn (text "alice") (text "alice"))) := by
  have htexte : backfillSibling (fun _ => plainJson) 5000000 [bobThread plainMessage] =
      [prefixeSync ++ plainJson] := rfl
  have hselection : ∀ conv, ∀ m ∈ selection 5000000 [bobThread plainMessage] conv,
      m = plainMessage := by
    intro conv m hm
    unfold selection at hm
    cases hfind : [bobThread plainMessage].find? (·.id == conv) with
    | none =>
      rw [hfind] at hm
      cases hm
    | some c =>
      obtain rfl := List.mem_singleton.mp (List.mem_of_find?_eq_some hfind)
      rw [hfind, Option.map_some, Option.getD_some] at hm
      exact List.mem_singleton.mp hm
  refine (backfill_restores_iff (batchPlatform plainJson plainMessage) (fun _ => plainJson)
    5000000 [bobThread plainMessage] _ (loggedIn (text "alice") (text "alice")) ?_ ?_ ?_).mpr ?_
  · refine ⟨List.nodup_singleton _, fun c hc m hm => ?_, fun c hc => ?_⟩
    · obtain rfl := List.mem_singleton.mp hc
      obtain rfl := List.mem_singleton.mp hm
      rfl
    · obtain rfl := List.mem_singleton.mp hc
      show List.lookup plainJson [(plainJson, Json.obj (syncData 5000000 (bobThread plainMessage)))] =
        some (Json.obj (syncData 5000000 (bobThread plainMessage)))
      rw [List.lookup_cons, BEq.rfl]
  · intro d hd
    rw [htexte]
    rcases List.mem_cons.mp hd with rfl | hd
    · exact List.mem_singleton.mpr rfl
    · obtain rfl := List.mem_singleton.mp hd
      exact List.mem_singleton.mpr rfl
  · intro t ht
    rw [htexte] at ht
    obtain rfl := List.mem_singleton.mp ht
    exact ⟨_, List.mem_cons_self, rfl⟩
  · intro conv
    refine ⟨fun m hm => ?_, fun m hm => ?_⟩
    · rw [hselection conv m hm]
      exact ⟨rfl, rfl, rfl, rfl, rfl, rfl⟩
    · exact List.not_mem_nil

end ZiaCrypte.Inbox
