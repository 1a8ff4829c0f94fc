import ZiaCrypte.Inbox.Controls

/-!
# What the steps of the inbox leave alone

Reads after writes of the state, the message a control is about, and which function
a control text reaches.
-/
namespace ZiaCrypte.Inbox

open ZiaCrypte.Lib ZiaCrypte.Engine

variable {E : Type} (s : State E)

/-! ## Reads after writes -/

@[simp] theorem conv?_putConv (id id' : Text) (c : Conversation) :
    (s.putConv id c).conv? id' = if id' = id then some c else s.conv? id' :=
  s.conversations.get?_insert id id' c

/-- A record that is put in the place of itself. -/
theorem putConv_eq_self_iff {s : State E} (id : Text) (c : Conversation) :
    s.putConv id c = s ↔ s.conversations.Holds id c := by
  rw [← LinkedMap.insert_eq_self_iff]
  constructor
  · exact congrArg State.conversations
  · intro h
    rw [State.putConv, h]

@[simp] theorem messagesIn_putConv (id id' : Text) (c : Conversation) :
    (s.putConv id c).messagesIn id' = if id' = id then c.messages else s.messagesIn id' := by
  rw [State.messagesIn, conv?_putConv]
  split <;> rfl

@[simp] theorem conv?_saveHistory (id id' : Text) :
    (s.saveHistory id).conv? id' = s.conv? id' := by
  unfold State.saveHistory
  split <;> rfl

@[simp] theorem messagesIn_saveHistory (id id' : Text) :
    (s.saveHistory id).messagesIn id' = s.messagesIn id' := by
  rw [State.messagesIn, conv?_saveHistory]
  rfl

theorem messagesIn_of_conv? {s : State E} {id : Text} {c : Conversation}
    (h : s.conv? id = some c) : s.messagesIn id = c.messages := by
  rw [State.messagesIn, h]
  rfl

/-! ## The first message with an id -/

/-- The message a control is about, and its place. -/
structure FirstWithId (cible : Text) (ms : List ChatMessage) (i : Nat) (m : ChatMessage) :
    Prop where
  get : ms[i]? = some m
  id : m.id = some cible
  first : ∀ j m', j < i → ms[j]? = some m' → m'.id ≠ some cible

theorem firstWithId_or (cible : Text) (ms : List ChatMessage) :
    (∃ i m, FirstWithId cible ms i m) ∨ ∀ m ∈ ms, m.id ≠ some cible := by
  induction ms with
  | nil => exact .inr fun m hm => absurd hm List.not_mem_nil
  | cons m ms ih =>
    by_cases hid : m.id = some cible
    · refine .inl ⟨0, m, { get := List.getElem?_cons_zero, id := hid, first := ?_ }⟩
      intro j m' hj
      exact absurd hj (Nat.not_lt_zero j)
    rcases ih with ⟨i, m', hget, hid', hfirst⟩ | hnone
    · refine .inl ⟨i + 1, m', { get := hget, id := hid', first := ?_ }⟩
      intro j m'' hj hm''
      cases j with
      | zero =>
        obtain rfl := Option.some.inj hm''
        exact hid
      | succ j => exact hfirst j m'' (Nat.lt_of_succ_lt_succ hj) hm''
    · refine .inr fun m' hm' => ?_
      rcases List.mem_cons.mp hm' with rfl | hmem
      · exact hid
      · exact hnone m' hmem

variable {cible : Text} {ms : List ChatMessage} {f : ChatMessage → Option ChatMessage}

/-- There is one first message with an id. -/
theorem FirstWithId.unique {i j : Nat} {m m' : ChatMessage} (h : FirstWithId cible ms i m)
    (h' : FirstWithId cible ms j m') : i = j ∧ m = m' := by
  have hij : i = j := by
    rcases Nat.lt_trichotomy i j with hlt | heq | hgt
    · exact absurd h.id (h'.first i m hlt h.get)
    · exact heq
    · exact absurd h'.id (h.first j m' hgt h'.get)
  subst hij
  exact ⟨rfl, Option.some.inj (h.get.symm.trans h'.get)⟩

theorem modifierPremier_of_first {i : Nat} {m : ChatMessage} (h : FirstWithId cible ms i m) :
    modifierPremier cible f ms = (f m).map (ms.set i ·) := by
  obtain ⟨hget, hid, hfirst⟩ := h
  induction ms generalizing i with
  | nil => cases hget
  | cons m' ms ih =>
    cases i with
    | zero =>
      obtain rfl := Option.some.inj hget
      rw [modifierPremier, if_pos hid]
      rfl
    | succ i =>
      have hne : m'.id ≠ some cible := hfirst 0 m' (Nat.succ_pos i) rfl
      rw [modifierPremier, if_neg hne,
        ih hget fun j m'' hj hm'' => hfirst (j + 1) m'' (Nat.succ_lt_succ hj) hm'']
      cases f m <;> rfl

theorem modifierPremier_of_none (h : ∀ m ∈ ms, m.id ≠ some cible) :
    modifierPremier cible f ms = none := by
  induction ms with
  | nil => rfl
  | cons m ms ih =>
    rw [modifierPremier, if_neg (h m List.mem_cons_self),
      ih fun m' hm' => h m' (List.mem_cons_of_mem _ hm')]
    rfl

theorem messagesIn_modifier (conv c : Text) (cible : Text)
    (f : ChatMessage → Option ChatMessage) :
    (s.modifier conv cible f).messagesIn c =
      if c = conv then (modifierPremier cible f (s.messagesIn conv)).getD (s.messagesIn conv)
      else s.messagesIn c := by
  by_cases hc : c = conv
  · subst hc
    rw [if_pos rfl]
    cases hconv : s.conv? c with
    | none =>
      have hmessages : s.messagesIn c = [] := by simp only [State.messagesIn, hconv]; rfl
      simp only [State.modifier, hconv, hmessages, modifierPremier, Option.getD_none]
    | some c' =>
      rw [messagesIn_of_conv? hconv]
      cases hmodified : modifierPremier cible f c'.messages with
      | none =>
        simp only [State.modifier, hconv, hmodified, Option.getD_none]
        exact messagesIn_of_conv? hconv
      | some messages =>
        simp only [State.modifier, hconv, hmodified, Option.getD_some, messagesIn_saveHistory,
          messagesIn_putConv, if_true]
  · rw [if_neg hc]
    unfold State.modifier
    split
    · rfl
    · split
      · rfl
      · rw [messagesIn_saveHistory, messagesIn_putConv, if_neg hc]

/-- The tables of the client are no part of a thread. -/
theorem modifier_tables (conv cible : Text) (f : ChatMessage → Option ChatMessage) :
    (s.modifier conv cible f).statuts = s.statuts ∧
      (s.modifier conv cible f).avatars = s.avatars ∧
      (s.modifier conv cible f).jetonsRemise = s.jetonsRemise := by
  unfold State.modifier
  split
  · exact ⟨rfl, rfl, rfl⟩
  · split
    · exact ⟨rfl, rfl, rfl⟩
    · unfold State.saveHistory
      split <;> exact ⟨rfl, rfl, rfl⟩

/-! ## Which control a text is -/

/-- Texts do not start with two prefixes of which neither starts with the other. -/
theorem startsWith_exclusive {t a b : Text} (h : startsWith t a = true)
    (hab : a.isPrefixOf b = false) (hba : b.isPrefixOf a = false) : startsWith t b = false := by
  rw [startsWith, List.isPrefixOf_iff_prefix] at h
  rw [← Bool.not_eq_true, startsWith, List.isPrefixOf_iff_prefix]
  intro hb
  rcases List.prefix_or_prefix_of_prefix h hb with hle | hle
  · rw [List.isPrefixOf_iff_prefix.mpr hle] at hab
    cases hab
  · rw [List.isPrefixOf_iff_prefix.mpr hle] at hba
    cases hba

theorem prefixesControle_exclusive : ∀ a ∈ prefixesControle, ∀ b ∈ prefixesControle,
    a ≠ b → a.isPrefixOf b = false := by decide

/-- A text is a control of one kind only. -/
theorem startsWith_only {t a : Text} (h : startsWith t a = true) (b : Text) (hne : a ≠ b)
    (ha : a ∈ prefixesControle) (hb : b ∈ prefixesControle) : startsWith t b = false :=
  startsWith_exclusive h (prefixesControle_exclusive a ha b hb hne)
    (prefixesControle_exclusive b hb a ha hne.symm)

theorem startsWith_others {t a : Text} (h : startsWith t a = true) {others : List Text}
    (hapart : ∀ b ∈ others, a.isPrefixOf b = false ∧ b.isPrefixOf a = false) :
    ∀ b ∈ others, startsWith t b = false :=
  fun b hb => startsWith_exclusive h (hapart b hb).1 (hapart b hb).2

variable (P : Platform E) (now : Int) (conv texte : Text) (deMoi : Bool) (device : Text)
  (reacteur : Option Text)

/-! One lemma for each control: a text is not taken for a control it is not. -/

theorem appliquerControle_reaction (h : startsWith texte prefixeReaction = true) :
    appliquerControle P now conv texte deMoi device reacteur s =
      (reaction P conv texte deMoi reacteur s).getD s := by
  rw [appliquerControle, if_pos h]

theorem appliquerControle_cleGroupe (h : startsWith texte prefixeCleGroupe = true) :
    appliquerControle P now conv texte deMoi device reacteur s =
      (cleGroupe P conv texte device s).getD s := by
  have hnot : ∀ b ∈ [prefixeReaction], startsWith texte b = false :=
    startsWith_others h (by decide)
  simp only [List.forall_mem_cons] at hnot
  simp only [appliquerControle, hnot, h, Bool.false_eq_true, if_false, if_true]

theorem appliquerControle_jeton (h : startsWith texte prefixeJeton = true) :
    appliquerControle P now conv texte deMoi device reacteur s =
      (jeton P texte s).getD s := by
  have hnot : ∀ b ∈ [prefixeReaction, prefixeCleGroupe], startsWith texte b = false :=
    startsWith_others h (by decide)
  simp only [List.forall_mem_cons] at hnot
  simp only [appliquerControle, hnot, h, Bool.false_eq_true, if_false, if_true]

theorem appliquerControle_ttl (h : startsWith texte prefixeTtl = true) :
    appliquerControle P now conv texte deMoi device reacteur s =
      (ttl P now conv texte deMoi s).getD s := by
  have hnot : ∀ b ∈ [prefixeReaction, prefixeCleGroupe, prefixeJeton], startsWith texte b = false :=
    startsWith_others h (by decide)
  simp only [List.forall_mem_cons] at hnot
  simp only [appliquerControle, hnot, h, Bool.false_eq_true, if_false, if_true]

theorem appliquerControle_statut (h : startsWith texte prefixeStatut = true) :
    appliquerControle P now conv texte deMoi device reacteur s =
      (statut P conv texte deMoi s).getD s := by
  have hnot : ∀ b ∈ [prefixeReaction, prefixeCleGroupe, prefixeJeton, prefixeTtl],
      startsWith texte b = false :=
    startsWith_others h (by decide)
  simp only [List.forall_mem_cons] at hnot
  simp only [appliquerControle, hnot, h, Bool.false_eq_true, if_false, if_true]

theorem appliquerControle_avatar (h : startsWith texte prefixeAvatar = true) :
    appliquerControle P now conv texte deMoi device reacteur s =
      (avatar P conv texte deMoi s).getD s := by
  have hnot : ∀ b ∈ [prefixeReaction, prefixeCleGroupe, prefixeJeton, prefixeTtl, prefixeStatut],
      startsWith texte b = false :=
    startsWith_others h (by decide)
  simp only [List.forall_mem_cons] at hnot
  simp only [appliquerControle, hnot, h, Bool.false_eq_true, if_false, if_true]

theorem appliquerControle_lu (h : startsWith texte prefixeLu = true) :
    appliquerControle P now conv texte deMoi device reacteur s =
      (lu P conv texte deMoi s).getD s := by
  have hnot : ∀ b ∈ [prefixeReaction, prefixeCleGroupe, prefixeJeton, prefixeTtl, prefixeStatut,
      prefixeAvatar], startsWith texte b = false :=
    startsWith_others h (by decide)
  simp only [List.forall_mem_cons] at hnot
  simp only [appliquerControle, hnot, h, Bool.false_eq_true, if_false, if_true]

theorem appliquerControle_editerOuSupprimer
    (h : startsWith texte prefixeEdit = true ∨ startsWith texte prefixeSuppr = true) :
    appliquerControle P now conv texte deMoi device reacteur s =
      (editerOuSupprimer P now conv texte deMoi s).getD s := by
  have hnot : ∀ b ∈ [prefixeReaction, prefixeCleGroupe, prefixeJeton, prefixeTtl, prefixeStatut,
      prefixeAvatar, prefixeLu], startsWith texte b = false := by
    rcases h with h | h
    · exact startsWith_others h (by decide)
    · exact startsWith_others h (by decide)
  simp only [List.forall_mem_cons] at hnot
  simp only [appliquerControle, hnot, Bool.false_eq_true, if_false]

/-! ## What an edit or a deletion reads -/

/-- The message of an edit or a deletion, and the new text. -/
def editionLue : Option (Text × Option (Option Text)) := do
  let json ← decodeCharge P texte
    (if startsWith texte prefixeEdit then prefixeEdit else prefixeSuppr)
  let cible ← (field json "id").asString?.join
  pure (cible, (field json "t").asString?)

theorem forall_eq_some_pair {α β : Type} {a : α} {b : β} {p : α → β → Prop} :
    (∀ x y, some (a, b) = some (x, y) → p x y) ↔ p a b := by
  constructor
  · exact fun h => h a b rfl
  · rintro h _ _ ⟨⟩
    exact h

theorem editionLue_eq_some_iff {cible : Text} {t : Option (Option Text)} :
    editionLue P texte = some (cible, t) ↔ ∃ json, decodeCharge P texte
        (if startsWith texte prefixeEdit then prefixeEdit else prefixeSuppr) = some json ∧
      (field json "id").asString? = some (some cible) ∧ (field json "t").asString? = t := by
  simp only [editionLue, Option.bind_eq_bind, Option.bind_eq_some_iff, Option.join_eq_some_iff,
    Option.pure_def, Option.some.injEq, Prod.mk.injEq]
  constructor
  · rintro ⟨json, hdecode, _, hid, rfl, ht⟩
    exact ⟨json, hdecode, hid, ht⟩
  · rintro ⟨json, hdecode, hid, ht⟩
    exact ⟨json, hdecode, cible, hid, rfl, ht⟩

theorem editerOuSupprimer_getD :
    (editerOuSupprimer P now conv texte deMoi s).getD s =
      match editionLue P texte with
      | some (cible, t) => s.modifier conv cible fun m =>
          if m.mine ≠ deMoi then none else editer now (startsWith texte prefixeEdit) t m
      | none => s := by
  unfold editerOuSupprimer editionLue
  dsimp only
  cases decodeCharge P texte
      (if startsWith texte prefixeEdit then prefixeEdit else prefixeSuppr) with
  | none => rfl
  | some json =>
    simp only [Option.bind_eq_bind, Option.bind_some]
    rcases (field json "id").asString? with _ | _ | cible <;> rfl

/-! ## What a control writes -/

theorem countP_modifierPremier {cible : Text} {f : ChatMessage → Option ChatMessage}
    (hf : ∀ m m', f m = some m' → m'.mine = m.mine) {ms ms' : List ChatMessage}
    (h : modifierPremier cible f ms = some ms') : ms'.countP (·.mine) = ms.countP (·.mine) := by
  induction ms generalizing ms' with
  | nil => cases h
  | cons m ms ih =>
    rw [modifierPremier] at h
    split at h
    · obtain ⟨m', hm', rfl⟩ := Option.map_eq_some_iff.mp h
      rw [List.countP_cons, List.countP_cons, hf m m' hm']
    · obtain ⟨ms'', hms'', rfl⟩ := Option.map_eq_some_iff.mp h
      rw [List.countP_cons, List.countP_cons, ih hms'']

/-- A control wrote nothing in a conversation, or the messages and the time to live of
its own, and no message of mine more. -/
def Writes (conv : Text) (s after : State E) : Prop :=
  (after.conversations = s.conversations ∧ after.coffre.hist = s.coffre.hist) ∨
    ∃ c messages ttl, s.conv? conv = some c ∧
      messages.countP (·.mine) ≤ c.messages.countP (·.mine) ∧
      after = (s.putConv conv { c with
        messages := messages
        ttlSecondes := ttl }).saveHistory conv

theorem Writes.refl (conv : Text) (s : State E) : Writes conv s s := .inl ⟨rfl, rfl⟩

variable {conv} {s after : State E}

theorem modifier_writes {cible : Text} {f : ChatMessage → Option ChatMessage} (hf : ∀ m m', f m = some m' → m'.mine = m.mine) :
    Writes conv s (s.modifier conv cible f) := by
  unfold State.modifier
  split
  · exact .refl conv s
  · rename_i c hc
    split
    · exact .refl conv s
    · rename_i messages hmodified
      exact .inr ⟨c, messages, c.ttlSecondes, hc, (countP_modifierPremier hf hmodified).le, rfl⟩

theorem reaction_writes (h : reaction P conv texte deMoi reacteur s = some after) : Writes conv s after := by
  simp only [reaction, Option.bind_eq_bind, Option.bind_eq_some_iff] at h
  obtain ⟨json, -, cible, -, emoji, -, pose, -, h⟩ := h
  split at h
  · cases h
    refine modifier_writes fun m m' hm' => ?_
    obtain rfl := Option.some.inj hm'
    unfold reagir
    split <;> rfl
  · cases h
    exact .refl conv s

theorem cleGroupe_writes (h : cleGroupe P conv texte device s = some after) : Writes conv s after := by
  simp only [cleGroupe, Option.bind_eq_bind, Option.bind_eq_some_iff] at h
  obtain ⟨json, -, k, -, h⟩ := h
  split at h <;> cases h
  · exact .inl ⟨rfl, rfl⟩
  · exact .refl conv s

theorem jeton_writes (h : jeton P texte s = some after) :
    Writes conv s after := by
  simp only [jeton, Option.bind_eq_bind, Option.bind_eq_some_iff] at h
  obtain ⟨json, -, appareil, -, jeton, -, h⟩ := h
  split at h <;> cases h
  · exact .inl ⟨rfl, rfl⟩
  · exact .refl conv s

theorem ttl_writes (h : ttl P now conv texte deMoi s = some after) : Writes conv s after := by
  simp only [ttl, Option.bind_eq_bind, Option.bind_eq_some_iff] at h
  obtain ⟨json, -, secondes, -, h⟩ := h
  split at h
  · cases h
    exact .refl conv s
  · rename_i c hc
    split at h
    · cases h
      exact .refl conv s
    · cases h
      refine .inr ⟨c, _, _, hc, ?_, rfl⟩
      rw [List.countP_append]
      exact Nat.le_refl _

theorem statut_writes (h : statut P conv texte deMoi s = some after) : Writes conv s after := by
  simp only [statut, Option.bind_eq_bind, Option.bind_eq_some_iff] at h
  obtain ⟨json, -, t, -, h⟩ := h
  split at h <;> cases h
  · exact .refl conv s
  · exact .inl ⟨rfl, rfl⟩

theorem avatar_writes (h : avatar P conv texte deMoi s = some after) : Writes conv s after := by
  simp only [avatar, Option.bind_eq_bind, Option.bind_eq_some_iff] at h
  obtain ⟨json, -, ref, -, h⟩ := h
  split at h <;> cases h
  · exact .refl conv s
  · exact .inl ⟨rfl, rfl⟩

theorem countP_marquerLus (ids : List Text) (ms : List ChatMessage) :
    (marquerLus ids ms).countP (·.mine) = ms.countP (·.mine) := by
  rw [marquerLus, List.countP_map]
  congr 1
  funext m
  dsimp only [Function.comp]
  split <;> rfl

theorem lu_writes (h : lu P conv texte deMoi s = some after) : Writes conv s after := by
  unfold lu at h
  split at h
  · cases h
    exact .refl conv s
  · simp only [Option.bind_eq_bind, Option.bind_eq_some_iff] at h
    obtain ⟨json, -, ids?, -, ids, -, h⟩ := h
    split at h
    · cases h
      exact .refl conv s
    · rename_i c hc
      split at h
      · cases h
        exact .refl conv s
      · cases h
        exact .inr ⟨c, _, c.ttlSecondes, hc, (countP_marquerLus ids c.messages).le, rfl⟩

theorem editerOuSupprimer_writes (h : editerOuSupprimer P now conv texte deMoi s = some after) : Writes conv s after := by
  simp only [editerOuSupprimer, Option.bind_eq_bind, Option.bind_eq_some_iff] at h
  obtain ⟨json, -, cible, -, h⟩ := h
  split at h
  · cases h
    exact .refl conv s
  · cases h
    refine modifier_writes fun m m' hm' => ?_
    split at hm'
    · cases hm'
    · unfold editer at hm'
      split at hm'
      · obtain ⟨t, -, rfl⟩ := Option.map_eq_some_iff.mp hm'
        rfl
      · obtain rfl := Option.some.inj hm'
        rfl

/-- Whatever control it is, and of either side. -/
theorem appliquerControle_writes :
    Writes conv s (appliquerControle P now conv texte deMoi device reacteur s) := by
  have hgetD : ∀ done : Option (State E), (∀ after, done = some after → Writes conv s after) →
      Writes conv s (done.getD s) := fun done h => by
    cases done with
    | none => exact .refl conv s
    | some after => exact h after rfl
  unfold appliquerControle
  refine hgetD _ fun after h => ?_
  split at h
  · exact reaction_writes P texte deMoi reacteur h
  split at h
  · exact cleGroupe_writes P texte device h
  split at h
  · exact jeton_writes P texte h
  split at h
  · exact ttl_writes P now texte deMoi h
  split at h
  · exact statut_writes P texte deMoi h
  split at h
  · exact avatar_writes P texte deMoi h
  split at h
  · exact lu_writes P texte deMoi h
  · exact editerOuSupprimer_writes P now texte deMoi h

end ZiaCrypte.Inbox
