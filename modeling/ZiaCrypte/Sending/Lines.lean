import ZiaCrypte.Sending.Guards

/-!
# What holds of every message of the threads and of the saved histories

One property of the messages in memory, and one of those that are handed to the vault and
saved there, along the events of a run.
-/
namespace ZiaCrypte.Sending

open ZiaCrypte.Lib ZiaCrypte.Engine
open ZiaCrypte.Server (Uuid Auth Database)
open ZiaCrypte.Inbox (Text ChatMessage)

/-- `P` in memory, `Q` in the vault and on the way there. -/
structure Partout (P Q : Monde → Ligne → Prop) (s : Monde) : Prop where
  fils : ∀ c ∈ s.conversations, ∀ l ∈ c.messages, P s l
  ecritures : ∀ lignes ∈ s.ecritures, ∀ l ∈ lignes, Q s l
  hist : ∀ conv, ∀ l ∈ s.readHistory conv, Q s l

/-- Properties that only look at the sending of a message, its mark of failure and its
receipts, and that what is recorded later does not break. -/
structure Suivies (nom : Uuid → Text) (P Q : Monde → Ligne → Prop) : Prop where
  plus : ∀ {s s' l}, Plus s s' → P s l → P s' l
  plusVault : ∀ {s s' l}, Plus s s' → Q s l → Q s' l
  meme : ∀ {s l l'}, MemeLigne l l' → P s l → P s l'
  envoyee : ∀ {s l}, Envoyee nom l s → P s l
  autre : ∀ {s l}, l.envoi = none → l.message.pendingReceiptIds = [] → P s l
  saved : ∀ {s l}, Q s l → Q s l.saved
  relue : ∀ {s l}, Q s l → P s l

variable {nom : Uuid → Text} {P Q : Monde → Ligne → Prop} {s s' : Monde}

theorem mem_mapConv {f : Conversation → Conversation} {id : Uuid} {c' : Conversation}
    (h : c' ∈ (s.mapConv id f).conversations) :
    c' ∈ s.conversations ∨ ∃ c ∈ s.conversations, c' = f c := by
  obtain ⟨c, hc, rfl⟩ := List.mem_map.mp h
  split
  · exact .inr ⟨c, hc, rfl⟩
  · exact .inl hc

/-- What the thread of a conversation holds. -/
theorem mem_messages {conv : Uuid} {l : Ligne} (h : l ∈ s.messages conv) :
    ∃ c ∈ s.conversations, l ∈ c.messages := by
  unfold Monde.messages at h
  cases hconv : s.conv? conv with
  | none =>
    rw [hconv] at h
    cases h
  | some c =>
    rw [hconv] at h
    exact ⟨c, List.mem_of_find?_eq_some hconv, h⟩

theorem mem_insert_hist {conv conv' : Uuid} {lignes : List Ligne} {l : Ligne}
    (h : l ∈ ((s.hist.insert conv lignes).get? conv').getD []) :
    l ∈ lignes ∨ l ∈ s.readHistory conv' := by
  rw [LinkedMap.get?_insert] at h
  split at h
  · exact .inl h
  · exact .inr h

/-! ## Steps -/

/-- The vault and the writes are left alone. -/
theorem Partout.of_fils (hf : Suivies nom P Q) (h : Partout P Q s) (hplus : Plus s s')
    (hecritures : s'.ecritures = s.ecritures) (hhist : s'.hist = s.hist)
    (hfils : ∀ c ∈ s'.conversations, ∀ l ∈ c.messages, P s' l) : Partout P Q s' := by
  refine ⟨hfils, ?_, ?_⟩
  · rw [hecritures]
    exact fun lignes hlignes l hl => hf.plusVault hplus (h.ecritures lignes hlignes l hl)
  · intro conv l hl
    rw [Monde.readHistory, hhist] at hl
    exact hf.plusVault hplus (h.hist conv l hl)

theorem Partout.of_same (hf : Suivies nom P Q) (h : Partout P Q s) (hplus : Plus s s')
    (hecritures : s'.ecritures = s.ecritures) (hhist : s'.hist = s.hist)
    (hfils : s'.conversations = s.conversations) : Partout P Q s' := by
  refine h.of_fils hf hplus hecritures hhist ?_
  rw [hfils]
  exact fun c hc l hl => hf.plus hplus (h.fils c hc l hl)

theorem Partout.retoucher (hf : Suivies nom P Q) (h : Partout P Q s) {conv : Uuid}
    {r : Retouche} (hguard : (Stmt.retoucher conv r).Guard nom s) :
    Partout P Q ((Stmt.retoucher conv r).apply s) := by
  have hplus := (pas_act (.retoucher conv r) s).plus
  refine h.of_fils hf hplus rfl rfl fun c' hc' l' hl' => hf.plus hplus ?_
  rcases mem_mapConv hc' with hold | ⟨c, hc, rfl⟩
  · exact h.fils c' hold l' hl'
  · rcases mem_apply hl' with ⟨l, hl, hmeme⟩ | rfl | ⟨hnone, hempty⟩
    · exact hf.meme hmeme (h.fils c hc l hl)
    · exact hf.envoyee hguard
    · exact hf.autre hnone hempty

theorem Partout.act (hf : Suivies nom P Q) (h : Partout P Q s) {a : Stmt}
    (hguard : a.Guard nom s) : Partout P Q (a.apply s) := by
  have hplus := (pas_act a s).plus
  cases a with
  | retoucher conv r => exact h.retoucher hf hguard
  | charger c =>
    show Partout P Q (if _ then s else _)
    split
    · exact h
    · refine h.of_fils hf (.of_registre rfl) rfl rfl fun c' hc' l hl =>
        hf.plus (s := s) (.of_registre rfl) ?_
      rcases List.mem_append.mp hc' with hold | hnew
      · exact h.fils c' hold l hl
      · obtain rfl := List.mem_singleton.mp hnew
        exact hf.relue (h.hist c.id l hl)
  | oublier conv =>
    exact h.of_fils hf hplus rfl rfl fun c hc l hl =>
      hf.plus hplus (h.fils c (List.mem_of_mem_filter hc) l hl)
  | regler conv isGroup sessions ownDeviceIds ttl =>
    refine h.of_fils hf hplus rfl rfl fun c' hc' l hl => hf.plus hplus ?_
    rcases mem_mapConv hc' with hold | ⟨c, hc, rfl⟩
    · exact h.fils c' hold l hl
    · exact h.fils c hc l hl
  | tirer => exact h.of_same hf hplus rfl rfl rfl
  | setActive conv => exact h.of_same hf hplus rfl rfl rfl
  | setReplyingTo m => exact h.of_same hf hplus rfl rfl rfl
  | recepisse envoi copie => exact h.of_same hf hplus rfl rfl rfl
  | deposer rows => exact h.of_same hf hplus rfl rfl rfl
  | purger ids => exact h.of_same hf hplus rfl rfl rfl
  | tables db => exact h.of_same hf hplus rfl rfl rfl

/-- A history is handed to the vault: each of its messages is as saved ones are. -/
theorem Partout.issue (hf : Suivies nom P Q) (h : Partout P Q s) {q : Request}
    (hguard : OutboxGuard nom (.issue q) s)
    (hecrite : ∀ conv lignes, q = .vaultWrite conv lignes → ∀ l ∈ lignes, P s l → Q s l) :
    Partout P Q (q.issue s) := by
  have hplus := (pas_issue q s).plus
  cases q with
  | vaultWrite conv lignes =>
    refine ⟨fun c hc l hl => hf.plus hplus (h.fils c hc l hl), fun w hw l hl => ?_,
      fun conv' l hl => hf.plusVault hplus (h.hist conv' l hl)⟩
    rcases List.mem_cons.mp hw with rfl | hold
    · have hthread : w = s.messages conv := hguard
      obtain ⟨c, hc, hmem⟩ := mem_messages (hthread ▸ hl)
      exact hf.plusVault hplus (hecrite conv w rfl l hl (h.fils c hc l hmem))
    · exact hf.plusVault hplus (h.ecritures w hold l hl)
  | _ => exact h.of_same hf hplus rfl rfl rfl

theorem Partout.settle (hf : Suivies nom P Q) (h : Partout P Q s) {t : Nat} {q : Request}
    {x : Outside} (hguard : OutboxGuard nom (.settle t q x) s) : Partout P Q (q.settle x s) := by
  have hplus := (pas_settle hguard).plus
  cases q with
  | vaultWrite conv lignes =>
    cases x with
    | done =>
      refine ⟨fun c hc l hl => hf.plus hplus (h.fils c hc l hl),
        fun w hw l hl => hf.plusVault hplus (h.ecritures w hw l hl), fun conv' l hl => ?_⟩
      refine hf.plusVault hplus ?_
      rcases mem_insert_hist hl with hnew | hold
      · obtain ⟨l₀, hl₀, rfl⟩ := List.mem_map.mp hnew
        exact hf.saved (h.ecritures lignes hguard l₀ hl₀)
      · exact h.hist conv' l hold
    | _ => exact h
  | sendGroupMessage envoi body =>
    cases x with
    | handled now received => exact h.of_same hf hplus rfl rfl rfl
    | _ => exact h
  | sendMessage envoi body =>
    cases x with
    | handled now received => exact h.of_same hf hplus rfl rfl rfl
    | _ => exact h
  | updateMany device pending =>
    cases x with
    | handled now received => exact h.of_same hf hplus rfl rfl rfl
    | _ => exact h
  | _ => exact h

/-- A restart keeps the vault, and what is recorded but for the writes. -/
theorem Partout.redemarrer (h : Partout P Q s) (hvault : ∀ l, Q s l → Q s.redemarrer l) :
    Partout P Q s.redemarrer where
  fils _ hc := absurd hc List.not_mem_nil
  ecritures _ hw := absurd hw List.not_mem_nil
  hist conv l hl := hvault l (h.hist conv l hl)

theorem Partout.event (hf : Suivies nom P Q) (hcrash : ∀ s l, Q s l → Q s.redemarrer l)
    (h : Partout P Q s) {e : OutboxEvent} (hguard : OutboxGuard nom e s)
    (hecrite : ∀ conv lignes, e = .issue (.vaultWrite conv lignes) →
      ∀ l ∈ lignes, P s l → Q s l) : Partout P Q ((outboxSemantics nom).apply e s) := by
  cases e with
  | act a => exact h.act hf hguard
  | issue q => exact h.issue hf hguard fun conv lignes hq => hecrite conv lignes (by rw [hq])
  | settle t q x => exact h.settle hf hguard
  | crash => exact h.redemarrer (hcrash s)

theorem Partout.initial (me : Auth) (db : Database) : Partout P Q (.initial me db) where
  fils _ hc := absurd hc List.not_mem_nil
  ecritures _ hw := absurd hw List.not_mem_nil
  hist _ _ hl := absurd hl List.not_mem_nil

end ZiaCrypte.Sending
