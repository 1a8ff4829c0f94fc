import ZiaCrypte.Inbox.ControlAuthors
import ZiaCrypte.Inbox.ControlFrame
import ZiaCrypte.Inbox.PeerNames

/-!
# The same message over the two transports

Inside an envelope a message has no username: its sender is never taken for me, and
a new conversation, or a message of the thread, has nobody's name.
-/
namespace ZiaCrypte.Inbox

open ZiaCrypte.Lib ZiaCrypte.Engine

variable {E : Type} (P : Platform E) (now : Int) (conv texte : Text)

/-! ## Which side a control is from -/

def ttlLu : Option Int := do
  let json ← decodeCharge P texte prefixeTtl
  let secondes ← (field json "s").asInt?
  pure (secondes.getD 0)

def luLu : Option (List Text) := do
  let json ← decodeCharge P texte prefixeLu
  let ids ← (field json "ids").asList?
  (ids.getD []).mapM Json.asString

/-- The status of an account, if there is one. -/
def noterStatut (compte : Option Text) (t : Text) (s : State E) : State E :=
  match compte with
  | none => s
  | some p => { s with statuts :=
      if t = [] then s.statuts.erase p else s.statuts.insert p t }.saveStatuts

def noterAvatar (compte : Option Text) (ref : AttachmentRef) (s : State E) : State E :=
  match compte with
  | none => s
  | some p => { s with avatars := s.avatars.insert p ref }.saveAvatars

/-- The status of an account is `t` already. -/
def StatutDeja (t : Text) (s : State E) (p : Text) : Prop :=
  if t = [] then s.statuts.containsKey p = false else s.statuts.Holds p t

/-- A note for one account and a note for another: they are one account, or both have it
already, and the table is saved where one of them is unknown. -/
def MemesNotes (deja : Text → Prop) (saved : Prop) (a b : Option Text) : Prop :=
  a = b ∨ (∀ p, a = some p ∨ b = some p → deja p) ∧ (a = none ∨ b = none → saved)

/-- A control says the same of me and of my peer: a time to live that is there already, a
status or an avatar that both have already, a receipt for what is marked, an edit or a
deletion of a message that is so already. -/
structure SideBlind (s : State E) : Prop where
  ttl : startsWith texte prefixeTtl = true → ∀ secondes c, ttlLu P texte = some secondes →
    s.conv? conv = some c → secondes = c.ttlSecondes
  statut : startsWith texte prefixeStatut = true → ∀ t, statutLu P texte = some t →
    MemesNotes (StatutDeja t s) (s.coffre.statuts = s.statuts) s.userId
      ((s.conv? conv).bind (·.peerUserId))
  avatar : startsWith texte prefixeAvatar = true → ∀ ref, avatarLu P texte = some ref →
    MemesNotes (s.avatars.Holds · ref) (s.coffre.avatars = s.avatars) s.userId
      ((s.conv? conv).bind (·.peerUserId))
  lu : startsWith texte prefixeLu = true → ∀ ids c, luLu P texte = some ids →
    s.conv? conv = some c → marquerLus ids c.messages = c.messages
  edition : startsWith texte prefixeEdit = true ∨ startsWith texte prefixeSuppr = true →
    ∀ cible t, editionLue P texte = some (cible, t) → ∀ c i m, s.conv? conv = some c →
      FirstWithId cible c.messages i m → (startsWith texte prefixeEdit = true → t.isSome) →
      ¬ Alters now (startsWith texte prefixeEdit) t m ∧ s.conversations.Holds conv c ∧
        s.coffre.hist.Holds conv (c.messages.map ChatMessage.saved)

variable {P now conv texte} {s : State E}

theorem ttl_getD (deMoi : Bool) :
    (ttl P now conv texte deMoi s).getD s =
      match ttlLu P texte, s.conv? conv with
      | some secondes, some c =>
          if secondes = c.ttlSecondes then s
          else (s.putConv conv { c with
            ttlSecondes := secondes
            messages := c.messages ++ [annonceTtl c.peerUsername secondes deMoi now] }).saveHistory
              conv
      | _, _ => s := by
  unfold ttl ttlLu
  cases decodeCharge P texte prefixeTtl with
  | none => rfl
  | some json =>
    simp only [Option.bind_eq_bind, Option.bind_some]
    cases (field json "s").asInt? with
    | none => rfl
    | some secondes =>
      simp only [Option.bind_some, Option.pure_def]
      cases s.conv? conv with
      | none => rfl
      | some c =>
        dsimp only
        split <;> rfl

theorem lu_getD :
    (lu P conv texte false s).getD s =
      match luLu P texte, s.conv? conv with
      | some ids, some c =>
          if marquerLus ids c.messages = c.messages then s
          else (s.putConv conv { c with messages := marquerLus ids c.messages }).saveHistory conv
      | _, _ => s := by
  unfold lu luLu
  rw [if_neg Bool.false_ne_true]
  cases decodeCharge P texte prefixeLu with
  | none => rfl
  | some json =>
    simp only [Option.bind_eq_bind, Option.bind_some]
    cases (field json "ids").asList? with
    | none => rfl
    | some ids =>
      simp only [Option.bind_some]
      cases (ids.getD []).mapM Json.asString with
      | none => rfl
      | some ids =>
        simp only [Option.bind_some]
        cases s.conv? conv with
        | none => rfl
        | some c =>
          dsimp only
          split <;> rfl

/-- Two records of a conversation cannot stand for each other. -/
theorem saveHistory_putConv_ne {c c' : Conversation} (h : c.messages ≠ c'.messages) :
    (s.putConv conv c).saveHistory conv ≠ (s.putConv conv c').saveHistory conv := by
  intro heq
  have hmessages := congrArg (fun s => s.messagesIn conv) heq
  simp only [messagesIn_saveHistory, messagesIn_putConv, if_true] at hmessages
  exact h hmessages

theorem annonceTtl_ne (peerUsername : Text) (secondes : Int) :
    annonceTtl peerUsername secondes true now ≠ annonceTtl peerUsername secondes false now := by
  intro heq
  have htext := congrArg ChatMessage.text heq
  have hqui : text "Tu as" = peerUsername ++ text " a" := by
    simp only [annonceTtl, ChatMessage.new, if_true, Bool.false_eq_true, if_false] at htext
    split at htext
    · exact List.append_cancel_right htext
    · exact List.append_cancel_right (List.append_cancel_right (List.append_cancel_right htext))
  have hlast := congrArg List.getLast? hqui
  have hs : (text "Tu as").getLast? = some 115 := by decide
  have ha : (text " a").getLast? = some 97 := by decide
  rw [List.getLast?_append, hs, ha, Option.some_or] at hlast
  exact absurd (Option.some.inj hlast) (by decide)

theorem ttl_same_iff :
    (ttl P now conv texte true s).getD s = (ttl P now conv texte false s).getD s ↔
      ∀ secondes c, ttlLu P texte = some secondes → s.conv? conv = some c →
        secondes = c.ttlSecondes := by
  rw [ttl_getD, ttl_getD]
  cases ttlLu P texte with
  | none => exact iff_of_true rfl nofun
  | some secondes =>
    cases s.conv? conv with
    | none => exact iff_of_true rfl nofun
    | some c =>
      dsimp only
      by_cases hsame : secondes = c.ttlSecondes
      · rw [if_pos hsame, if_pos hsame]
        refine iff_of_true rfl ?_
        rintro _ _ ⟨⟩ ⟨⟩
        exact hsame
      · rw [if_neg hsame, if_neg hsame]
        refine iff_of_false (saveHistory_putConv_ne ?_) fun h => hsame (h secondes c rfl rfl)
        intro heq
        have hnotice := List.append_cancel_left heq
        exact annonceTtl_ne c.peerUsername secondes (List.cons.inj hnotice).1

theorem memesNotes_iff {w : Option Text → State E} {deja : Text → Prop} {saved : Prop}
    {a b : Option Text} (hnone : ∀ p, w (some p) = w none ↔ deja p ∧ saved)
    (hpair : ∀ p q, p ≠ q → (w (some p) = w (some q) ↔ deja p ∧ deja q)) :
    w a = w b ↔ MemesNotes deja saved a b := by
  unfold MemesNotes
  cases a with
  | none =>
    cases b with
    | none => simp
    | some q =>
      rw [eq_comm (a := w none), hnone q]
      simp
  | some p =>
    cases b with
    | none => simp [hnone]
    | some q =>
      by_cases hpq : p = q
      · simp [hpq]
      · simp [hpair p q hpq, hpq, or_imp, forall_and]

theorem noterStatut_none_iff (t p : Text) :
    noterStatut (some p) t s = s ↔ StatutDeja t s p ∧ s.coffre.statuts = s.statuts := by
  have htable : (if t = [] then s.statuts.erase p else s.statuts.insert p t) = s.statuts ↔
      StatutDeja t s p := by
    unfold StatutDeja
    split
    · exact LinkedMap.erase_eq_self_iff _ _
    · exact LinkedMap.insert_eq_self_iff _ _ _
  rw [← htable]
  constructor
  · intro h
    have hstatuts := congrArg State.statuts h
    exact ⟨hstatuts, (congrArg (·.coffre.statuts) h).symm.trans hstatuts⟩
  · rintro ⟨hstatuts, hsaved⟩
    have hcoffre : { s.coffre with statuts := s.statuts } = s.coffre := by rw [← hsaved]
    rw [noterStatut, hstatuts, State.saveStatuts, hcoffre]

theorem noterStatut_some_iff (t : Text) {p q : Text} (h : p ≠ q) :
    noterStatut (some p) t s = noterStatut (some q) t s ↔ StatutDeja t s p ∧ StatutDeja t s q := by
  have htable : (if t = [] then s.statuts.erase p else s.statuts.insert p t) =
      (if t = [] then s.statuts.erase q else s.statuts.insert q t) ↔
      StatutDeja t s p ∧ StatutDeja t s q := by
    unfold StatutDeja
    split
    · exact LinkedMap.erase_eq_erase_iff h
    · exact LinkedMap.insert_eq_insert_iff h
  rw [← htable]
  constructor
  · exact congrArg State.statuts
  · intro hstatuts
    rw [noterStatut, noterStatut, hstatuts]

theorem noterAvatar_none_iff (ref : AttachmentRef) (p : Text) :
    noterAvatar (some p) ref s = s ↔ s.avatars.Holds p ref ∧ s.coffre.avatars = s.avatars := by
  rw [← LinkedMap.insert_eq_self_iff]
  constructor
  · intro h
    have havatars := congrArg State.avatars h
    exact ⟨havatars, (congrArg (·.coffre.avatars) h).symm.trans havatars⟩
  · rintro ⟨havatars, hsaved⟩
    have hcoffre : { s.coffre with avatars := s.avatars } = s.coffre := by rw [← hsaved]
    rw [noterAvatar, havatars, State.saveAvatars, hcoffre]

theorem noterAvatar_some_iff (ref : AttachmentRef) {p q : Text} (h : p ≠ q) :
    noterAvatar (some p) ref s = noterAvatar (some q) ref s ↔
      s.avatars.Holds p ref ∧ s.avatars.Holds q ref := by
  rw [← LinkedMap.insert_eq_insert_iff h]
  constructor
  · exact congrArg State.avatars
  · intro havatars
    rw [noterAvatar, noterAvatar, havatars]

theorem statut_noter (deMoi : Bool) :
    (statut P conv texte deMoi s).getD s =
      match statutLu P texte with
      | some t => noterStatut (proprietaire conv deMoi s) t s
      | none => s := by
  rw [statut_getD]
  cases statutLu P texte with
  | none => rfl
  | some t => cases proprietaire conv deMoi s <;> rfl

theorem statut_same_iff :
    (statut P conv texte true s).getD s = (statut P conv texte false s).getD s ↔
      ∀ t, statutLu P texte = some t → MemesNotes (StatutDeja t s)
        (s.coffre.statuts = s.statuts) s.userId ((s.conv? conv).bind (·.peerUserId)) := by
  rw [statut_noter, statut_noter]
  cases statutLu P texte with
  | none =>
    refine iff_of_true rfl ?_
    rintro _ ⟨⟩
  | some t =>
    have hnotes := memesNotes_iff (w := fun a => noterStatut a t s) (a := s.userId)
      (b := (s.conv? conv).bind (·.peerUserId)) (fun p => noterStatut_none_iff t p)
      (fun p q h => noterStatut_some_iff t h)
    constructor
    · rintro h _ ⟨⟩
      exact hnotes.mp h
    · exact fun h => hnotes.mpr (h t rfl)

theorem avatar_noter (deMoi : Bool) :
    (avatar P conv texte deMoi s).getD s =
      match avatarLu P texte with
      | some ref => noterAvatar (proprietaire conv deMoi s) ref s
      | none => s := by
  rw [avatar_getD]
  cases avatarLu P texte with
  | none => rfl
  | some ref => cases proprietaire conv deMoi s <;> rfl

theorem avatar_same_iff :
    (avatar P conv texte true s).getD s = (avatar P conv texte false s).getD s ↔
      ∀ ref, avatarLu P texte = some ref → MemesNotes (s.avatars.Holds · ref)
        (s.coffre.avatars = s.avatars) s.userId ((s.conv? conv).bind (·.peerUserId)) := by
  rw [avatar_noter, avatar_noter]
  cases avatarLu P texte with
  | none =>
    refine iff_of_true rfl ?_
    rintro _ ⟨⟩
  | some ref =>
    have hnotes := memesNotes_iff (w := fun a => noterAvatar a ref s) (a := s.userId)
      (b := (s.conv? conv).bind (·.peerUserId)) (fun p => noterAvatar_none_iff ref p)
      (fun p q h => noterAvatar_some_iff ref h)
    constructor
    · rintro h _ ⟨⟩
      exact hnotes.mp h
    · exact fun h => hnotes.mpr (h ref rfl)

theorem lu_same_iff :
    (lu P conv texte true s).getD s = (lu P conv texte false s).getD s ↔
      ∀ ids c, luLu P texte = some ids → s.conv? conv = some c →
        marquerLus ids c.messages = c.messages := by
  have htrue : (lu P conv texte true s).getD s = s := by
    rw [lu, if_pos rfl, Option.getD_some]
  rw [htrue, lu_getD]
  cases luLu P texte with
  | none => exact iff_of_true rfl nofun
  | some ids =>
    cases hc : s.conv? conv with
    | none => exact iff_of_true rfl nofun
    | some c =>
      dsimp only
      split
      · rename_i hsame
        refine iff_of_true rfl ?_
        rintro _ _ ⟨⟩ ⟨⟩
        exact hsame
      · rename_i hsame
        refine iff_of_false (fun heq => ?_) fun h => hsame (h ids c rfl rfl)
        have hmessages := congrArg (fun s => s.messagesIn conv) heq
        simp only [messagesIn_saveHistory, messagesIn_putConv, if_true,
          messagesIn_of_conv? hc] at hmessages
        exact hsame hmessages.symm

/-- Only what becomes of the first message with the id counts. -/
theorem modifier_congr {cible : Text} {f g : ChatMessage → Option ChatMessage}
    (h : ∀ i m, FirstWithId cible (s.messagesIn conv) i m → f m = g m) :
    s.modifier conv cible f = s.modifier conv cible g := by
  unfold State.modifier
  cases hc : s.conv? conv with
  | none => rfl
  | some c =>
    rw [messagesIn_of_conv? hc] at h
    have hsame : modifierPremier cible f c.messages = modifierPremier cible g c.messages := by
      rcases firstWithId_or cible c.messages with ⟨i, m, hfirst⟩ | hnone
      · rw [modifierPremier_of_first hfirst, modifierPremier_of_first hfirst, h i m hfirst]
      · rw [modifierPremier_of_none hnone, modifierPremier_of_none hnone]
    dsimp only
    rw [hsame]

theorem modifier_none (cible : Text) : (s.modifier conv cible fun _ => none) = s := by
  unfold State.modifier
  cases s.conv? conv with
  | none => rfl
  | some c =>
    have hnone : modifierPremier cible (fun _ => none) c.messages = none := by
      rcases firstWithId_or cible c.messages with ⟨i, m, hfirst⟩ | hno
      · rw [modifierPremier_of_first hfirst, Option.map_none]
      · exact modifierPremier_of_none hno
    dsimp only
    rw [hnone]

theorem saveHistory_putConv (conv : Text) (c : Conversation) :
    (s.putConv conv c).saveHistory conv = { s with
      conversations := s.conversations.insert conv c
      coffre := { s.coffre with
        hist := s.coffre.hist.insert conv (c.messages.map ChatMessage.saved) } } := by
  rw [State.saveHistory, conv?_putConv, if_pos rfl]
  rfl

/-- What an edit or a deletion has to find to change nothing. -/
theorem modifier_editer_eq_self_iff (now : Int) (conv cible : Text) (estEdit : Bool)
    (t : Option (Option Text)) :
    s.modifier conv cible (editer now estEdit t) = s ↔
      ∀ c i m, s.conv? conv = some c → FirstWithId cible c.messages i m →
        (estEdit = true → t.isSome) →
        ¬ Alters now estEdit t m ∧ s.conversations.Holds conv c ∧
          s.coffre.hist.Holds conv (c.messages.map ChatMessage.saved) := by
  unfold State.modifier
  cases hc : s.conv? conv with
  | none =>
    refine iff_of_true rfl ?_
    rintro _ _ _ ⟨⟩
  | some c =>
    dsimp only
    rcases firstWithId_or cible c.messages with ⟨i, m, hfirst⟩ | hnone
    · rw [modifierPremier_of_first hfirst]
      have hone : (∀ c' i m, some c = some c' → FirstWithId cible c'.messages i m →
            (estEdit = true → t.isSome) → ¬ Alters now estEdit t m ∧
              s.conversations.Holds conv c' ∧
              s.coffre.hist.Holds conv (c'.messages.map ChatMessage.saved)) ↔
          ((estEdit = true → t.isSome) → ¬ Alters now estEdit t m ∧ s.conversations.Holds conv c ∧
            s.coffre.hist.Holds conv (c.messages.map ChatMessage.saved)) := by
        constructor
        · exact fun h => h c i m rfl hfirst
        · rintro h _ j m' ⟨⟩ hfirst'
          obtain ⟨rfl, rfl⟩ := hfirst.unique hfirst'
          exact h
      rw [hone, alters_iff]
      cases hedit : editer now estEdit t m with
      | none =>
        have hnone : estEdit = true ∧ t = none := by
          cases estEdit with
          | true => exact ⟨rfl, Option.map_eq_none_iff.mp hedit⟩
          | false => cases hedit
        refine iff_of_true rfl fun h => ?_
        rw [hnone.2] at h
        cases h hnone.1
      | some m' =>
        have hgiven : estEdit = true → t.isSome := by
          rintro rfl
          obtain ⟨t', rfl, -⟩ := Option.map_eq_some_iff.mp hedit
          rfl
        rw [Option.map_some]
        dsimp only
        have hsame : (¬ ∃ m'', some m' = some m'' ∧ m'' ≠ m) ↔ m' = m := by simp
        rw [hsame]
        constructor
        · intro h _
          rw [saveHistory_putConv] at h
          have hholds := (LinkedMap.insert_eq_self_iff _ _ _).mp (congrArg State.conversations h)
          have hself := Option.some.inj (hc.symm.trans hholds.get?)
          have hset : c.messages = c.messages.set i m' := congrArg Conversation.messages hself
          have hm : m' = m := by
            have hget := hfirst.get
            rw [hset, List.getElem?_set_self (List.getElem?_eq_some_iff.mp hfirst.get).1] at hget
            exact Option.some.inj hget
          have hhist := (LinkedMap.insert_eq_self_iff _ _ _).mp (congrArg (·.coffre.hist) h)
          rw [← hset] at hhist
          rw [← hself] at hholds
          exact ⟨hm, hholds, hhist⟩
        · intro h
          obtain ⟨rfl, hholds, hhist⟩ := h hgiven
          have hset : c.messages.set i m' = c.messages := by
            refine List.ext_getElem? fun j => ?_
            by_cases hij : i = j
            · subst hij
              rw [List.getElem?_set_self (List.getElem?_eq_some_iff.mp hfirst.get).1, hfirst.get]
            · rw [List.getElem?_set_ne hij]
          rw [hset, (putConv_eq_self_iff conv c).mpr hholds, State.saveHistory, hc]
          dsimp only
          rw [(LinkedMap.insert_eq_self_iff _ _ _).mpr hhist]
    · rw [modifierPremier_of_none hnone]
      refine iff_of_true rfl ?_
      rintro c' i m ⟨⟩ hfirst
      exact absurd hfirst.id (hnone m (List.mem_of_getElem? hfirst.get))

theorem edition_same_iff :
    (editerOuSupprimer P now conv texte true s).getD s =
        (editerOuSupprimer P now conv texte false s).getD s ↔
      ∀ cible t, editionLue P texte = some (cible, t) → ∀ c i m, s.conv? conv = some c →
        FirstWithId cible c.messages i m → (startsWith texte prefixeEdit = true → t.isSome) →
        ¬ Alters now (startsWith texte prefixeEdit) t m ∧ s.conversations.Holds conv c ∧
          s.coffre.hist.Holds conv (c.messages.map ChatMessage.saved) := by
  simp only [← modifier_editer_eq_self_iff]
  rw [editerOuSupprimer_getD, editerOuSupprimer_getD]
  cases editionLue P texte with
  | none => exact iff_of_true rfl nofun
  | some lue =>
    obtain ⟨cible, t⟩ := lue
    rw [forall_eq_some_pair]
    dsimp only
    -- The side the message is on changes it, the other leaves it.
    have hside : ∀ deMoi, (∀ i m, FirstWithId cible (s.messagesIn conv) i m → m.mine = deMoi) →
        (s.modifier conv cible fun m => if m.mine ≠ deMoi then none
            else editer now (startsWith texte prefixeEdit) t m) =
          s.modifier conv cible (editer now (startsWith texte prefixeEdit) t) :=
      fun deMoi h => modifier_congr fun i m hfirst => if_neg (not_not_intro (h i m hfirst))
    have hother : ∀ deMoi, (∀ i m, FirstWithId cible (s.messagesIn conv) i m → m.mine ≠ deMoi) →
        (s.modifier conv cible fun m => if m.mine ≠ deMoi then none
            else editer now (startsWith texte prefixeEdit) t m) = s :=
      fun deMoi h => (modifier_congr fun i m hfirst => if_pos (h i m hfirst)).trans
        (modifier_none cible)
    rcases firstWithId_or cible (s.messagesIn conv) with ⟨i, m, hfirst⟩ | hnone
    · have hmine : ∀ j m', FirstWithId cible (s.messagesIn conv) j m' → m'.mine = m.mine := by
        intro j m' hfirst'
        rw [(hfirst'.unique hfirst).2]
      cases hm : m.mine with
      | true =>
        rw [hside true fun j m' h => (hmine j m' h).trans hm,
          hother false fun j m' h => by simp [hmine j m' h, hm]]
      | false =>
        rw [hother true fun j m' h => by simp [hmine j m' h, hm],
          hside false fun j m' h => (hmine j m' h).trans hm]
        exact eq_comm
    · have hno : ∀ i m, ¬ FirstWithId cible (s.messagesIn conv) i m := fun i m hfirst =>
        hnone m (List.mem_of_getElem? hfirst.get) hfirst.id
      rw [hother true fun i m h => absurd h (hno i m), hother false fun i m h => absurd h (hno i m),
        ← hside true fun i m h => absurd h (hno i m), hother true fun i m h => absurd h (hno i m)]

theorem reaction_side {compte : Text} (hcompte : s.userId = some compte) :
    reaction P conv texte true (some compte) s = reaction P conv texte false (some compte) s := by
  unfold reaction
  rw [if_pos rfl, if_neg Bool.false_ne_true, hcompte]

/-- A control of mine that is read as my peer's comes to the same exactly if it is blind
to the side. -/
theorem appliquerControle_same_iff (device : Text) {compte : Text}
    (hcompte : s.userId = some compte) (hcontrole : estControle texte = true) :
    appliquerControle P now conv texte true device (some compte) s =
        appliquerControle P now conv texte false device (some compte) s ↔
      SideBlind P now conv texte s := by
  obtain ⟨p, hp, hstart⟩ := List.any_eq_true.mp hcontrole
  have hvoid : ∀ b ∈ prefixesControle, p ≠ b → ∀ {Q : Prop}, startsWith texte b = true → Q :=
    fun b hb hne Q h => absurd (h.symm.trans (startsWith_only hstart b hne hp hb))
      Bool.noConfusion
  have hvoids : prefixeEdit ≠ p → prefixeSuppr ≠ p → ∀ {Q : Prop},
      startsWith texte prefixeEdit = true ∨ startsWith texte prefixeSuppr = true → Q :=
    fun hedit hsuppr Q h => h.elim (hvoid _ (by decide) hedit.symm)
      (hvoid _ (by decide) hsuppr.symm)
  have hblind : p ∈ [prefixeReaction, prefixeCleGroupe, prefixeJeton] →
      SideBlind P now conv texte s := fun hmem => by
    simp only [List.mem_cons, List.not_mem_nil, or_false] at hmem
    rcases hmem with rfl | rfl | rfl <;>
      exact ⟨hvoid _ (by decide) (by decide), hvoid _ (by decide) (by decide),
        hvoid _ (by decide) (by decide), hvoid _ (by decide) (by decide),
        hvoids (by decide) (by decide)⟩
  have hedition : startsWith texte prefixeEdit = true ∨ startsWith texte prefixeSuppr = true →
      (p = prefixeEdit ∨ p = prefixeSuppr) →
      (appliquerControle P now conv texte true device (some compte) s =
          appliquerControle P now conv texte false device (some compte) s ↔
        SideBlind P now conv texte s) := fun h hp => by
    rw [appliquerControle_editerOuSupprimer s P now conv texte true device _ h,
      appliquerControle_editerOuSupprimer s P now conv texte false device _ h, edition_same_iff]
    rcases hp with rfl | rfl <;>
      exact ⟨fun hsame => ⟨hvoid _ (by decide) (by decide), hvoid _ (by decide) (by decide),
        hvoid _ (by decide) (by decide), hvoid _ (by decide) (by decide), fun _ => hsame⟩,
        fun hblind => hblind.edition h⟩
  simp only [prefixesControle, List.mem_cons, List.not_mem_nil, or_false] at hp
  rcases hp with rfl | rfl | rfl | rfl | rfl | rfl | rfl | rfl | rfl
  · exact hedition (.inl hstart) (.inl rfl)
  · exact hedition (.inr hstart) (.inr rfl)
  · rw [appliquerControle_lu s P now conv texte true device _ hstart,
      appliquerControle_lu s P now conv texte false device _ hstart, lu_same_iff]
    exact ⟨fun h => ⟨hvoid _ (by decide) (by decide), hvoid _ (by decide) (by decide),
      hvoid _ (by decide) (by decide), fun _ => h, hvoids (by decide) (by decide)⟩,
      fun h => h.lu hstart⟩
  · rw [appliquerControle_avatar s P now conv texte true device _ hstart,
      appliquerControle_avatar s P now conv texte false device _ hstart, avatar_same_iff]
    exact ⟨fun h => ⟨hvoid _ (by decide) (by decide), hvoid _ (by decide) (by decide),
      fun _ => h, hvoid _ (by decide) (by decide), hvoids (by decide) (by decide)⟩,
      fun h => h.avatar hstart⟩
  · rw [appliquerControle_ttl s P now conv texte true device _ hstart,
      appliquerControle_ttl s P now conv texte false device _ hstart, ttl_same_iff]
    exact ⟨fun h => ⟨fun _ => h, hvoid _ (by decide) (by decide), hvoid _ (by decide) (by decide),
      hvoid _ (by decide) (by decide), hvoids (by decide) (by decide)⟩, fun h => h.ttl hstart⟩
  · rw [appliquerControle_jeton s P now conv texte true device _ hstart,
      appliquerControle_jeton s P now conv texte false device _ hstart]
    exact iff_of_true rfl (hblind (by decide))
  · rw [appliquerControle_cleGroupe s P now conv texte true device _ hstart,
      appliquerControle_cleGroupe s P now conv texte false device _ hstart]
    exact iff_of_true rfl (hblind (by decide))
  · rw [appliquerControle_statut s P now conv texte true device _ hstart,
      appliquerControle_statut s P now conv texte false device _ hstart, statut_same_iff]
    exact ⟨fun h => ⟨hvoid _ (by decide) (by decide), fun _ => h, hvoid _ (by decide) (by decide),
      hvoid _ (by decide) (by decide), hvoids (by decide) (by decide)⟩, fun h => h.statut hstart⟩
  · rw [appliquerControle_reaction s P now conv texte true device _ hstart,
      appliquerControle_reaction s P now conv texte false device _ hstart, reaction_side hcompte]
    exact iff_of_true rfl (hblind (by decide))

/-! ## The two transports -/

/-- A message as its sender hands it over, the bytes in base64. -/
structure Envoi where
  senderDeviceId : Text
  senderUserId : Text
  senderUsername : Text
  conversationId : Text
  header : Text
  ciphertext : Text

/-- `POST /messages`: the server says who the sender is. -/
def Envoi.authentifie (e : Envoi) (timestampMs : Json) : Incoming where
  sealed := .bool false
  channelId := .null
  conversationId := .str e.conversationId
  senderDeviceId := .str e.senderDeviceId
  senderUsername := .str e.senderUsername
  senderUserId := .str e.senderUserId
  header := .str e.header
  ciphertext := .str e.ciphertext
  timestampMs := timestampMs

/-- `POST /messages/sealed`: the server says nothing. -/
def scelle (enveloppe : Text) (timestampMs : Json) : Incoming where
  sealed := .bool true
  channelId := .null
  conversationId := .null
  senderDeviceId := .null
  senderUsername := .null
  senderUserId := .null
  header := .str []
  ciphertext := .str enveloppe
  timestampMs := timestampMs

/-- An envelope of a message: it opens, leaves the engine as it was, and says what
`_sendToDevice` put in. -/
def Scelle (P : Platform E) (e : Envoi) (enveloppe : Text) (s : State E) : Prop :=
  ∃ bytes clair raw fields, P.base64Decode enveloppe = some bytes ∧
    P.sealedOpen bytes s.outside = (some clair, s.outside) ∧ P.utf8Decode clair = some raw ∧
    P.jsonDecode raw = some (.obj fields) ∧ field fields "sd" = .str e.senderDeviceId ∧
    field fields "su" = .str e.senderUserId ∧ field fields "cv" = .str e.conversationId ∧
    field fields "h" = .str e.header ∧ field fields "c" = .str e.ciphertext

/-- What is in the envelope. -/
def Envoi.deballe (e : Envoi) (timestampMs : Json) : Incoming :=
  { e.authentifie timestampMs with
    sealed := .bool true
    senderUsername := .null }

/-- The state a message is opened in, where a conversation it makes known is given the
name. -/
def arrivee (P : Platform E) (now : Int) (e : Envoi) (name : Text) (s : State E) : State E :=
  restoreSessions P e.conversationId <| s.putConv e.conversationId <|
    match s.conv? e.conversationId with
    | some existing => { existing with peerUserId :=
        if existing.peerUserId.isSome then existing.peerUserId else some e.senderUserId }
    | none => { Conversation.new e.conversationId name now with
        peerUserId := some e.senderUserId
        targetDeviceIds := [e.senderDeviceId]
        messages := s.readHistory e.conversationId }

variable {e : Envoi} {enveloppe : Text} {ts ts' : Json}

theorem receive_scelle (h : Scelle P e enveloppe s) :
    receive P now (scelle enveloppe ts) s = receiveOpen P now (e.deballe ts) s := by
  obtain ⟨bytes, clair, raw, fields, hbase64, hopen, hutf8, hjson, hsd, hsu, hcv, hh, hc⟩ := h
  have henv : ouvrirScelle P (scelle enveloppe ts) s = (s, some (e.deballe ts)) := by
    simp only [ouvrirScelle, scelle, Json.asString, Option.bind_some, hbase64, hopen, hutf8, hjson,
      Json.asMap, hsd, hsu, hcv, hh, hc]
    rfl
  have hsealed : (scelle enveloppe ts).sealed.isTrue = true := rfl
  rw [receive, if_pos hsealed, henv]

theorem receive_authentifie :
    receive P now (e.authentifie ts) s = receiveOpen P now (e.authentifie ts) s := rfl

theorem resolveConversation_authentifie :
    resolveConversation P now (e.authentifie ts) s =
      some (e.conversationId, arrivee P now e e.senderUsername s) := by
  unfold resolveConversation arrivee
  simp only [Envoi.authentifie, Json.asString, Json.asString?, Option.map_some,
    Option.bind_eq_bind, Option.bind_some]
  cases s.conv? e.conversationId with
  | none => rfl
  | some existing =>
    dsimp only
    split <;> rfl

theorem resolveConversation_deballe :
    resolveConversation P now (e.deballe ts) s =
      some (e.conversationId, arrivee P now e (text "inconnu") s) := by
  unfold resolveConversation arrivee
  simp only [Envoi.deballe, Envoi.authentifie, Json.asString, Json.asString?, Option.map_some,
    Option.bind_eq_bind, Option.bind_some]
  cases s.conv? e.conversationId with
  | none => rfl
  | some existing =>
    dsimp only
    split <;> rfl

/-- A conversation that is known has its name. -/
theorem arrivee_known (h : (s.conv? e.conversationId).isSome) (name name' : Text) :
    arrivee P now e name s = arrivee P now e name' s := by
  obtain ⟨c, hc⟩ := Option.isSome_iff_exists.mp h
  rw [arrivee, arrivee, hc]

theorem arrivee_nomme (h : s.conv? e.conversationId = none) (name name' : Text) :
    (arrivee P now e name s).nomme e.conversationId name' = arrivee P now e name' s := by
  rw [arrivee, arrivee, ← restoreSessions_nomme, nomme_putConv, h]
  rfl

/-! ## The name of the conversation afterwards -/

def peerName (conv : Text) (s : State E) : Option Text :=
  (s.conv? conv).map (·.peerUsername)

/-- The name a batch gives a conversation. -/
def batchName (P : Platform E) (json conv : Text) : Option Text := do
  let data ← (P.jsonDecode json).bind Json.asMap
  let convId ← (field data "conv").asString
  let peer ← (field data "peer").asString?.join
  if convId = conv then some peer else none

theorem peerName_putConv (id : Text) (c : Conversation) :
    peerName conv (s.putConv id c) = if conv = id then some c.peerUsername else peerName conv s := by
  rw [peerName, conv?_putConv]
  split <;> rfl

theorem peerName_saveHistory (id : Text) : peerName conv (s.saveHistory id) = peerName conv s := by
  rw [peerName, conv?_saveHistory, peerName]

theorem peerName_saveConversations : peerName conv s.saveConversations = peerName conv s := rfl

theorem peerName_nomme (name : Text) (h : (s.conv? conv).isSome) :
    peerName conv (s.nomme conv name) = some name := by
  obtain ⟨c, hc⟩ := Option.isSome_iff_exists.mp h
  rw [peerName, conv?_nomme, hc]
  rfl

theorem peerName_appliquerControle (deMoi : Bool) (device : Text) (reacteur : Option Text) :
    peerName conv (appliquerControle P now conv texte deMoi device reacteur s) =
      peerName conv s := by
  have hwrites : Writes conv s (appliquerControle P now conv texte deMoi device reacteur s) :=
    appliquerControle_writes P now texte deMoi device reacteur
  rcases hwrites with ⟨hsame, -⟩ | ⟨c, messages, ttl, hc, -, heq⟩
  · rw [peerName, State.conv?, hsame]
    rfl
  · rw [heq, peerName_saveHistory, peerName_putConv, if_pos rfl, peerName, hc]
    rfl

theorem peerName_applySyncPayload (json : Text) {c : Conversation} (hc : s.conv? conv = some c) :
    peerName conv (applySyncPayload P now json s) =
      some ((batchName P json conv).getD c.peerUsername) := by
  have hbefore : peerName conv s = some c.peerUsername := by
    rw [peerName, hc]
    rfl
  unfold applySyncPayload batchName
  cases (P.jsonDecode json).bind Json.asMap with
  | none => exact hbefore
  | some data =>
    simp only [Option.bind_eq_bind, Option.bind_some]
    cases (field data "conv").asString with
    | none => exact hbefore
    | some convId =>
      simp only [Option.bind_some]
      cases (field data "peer").asString? with
      | none => exact hbefore
      | some peer =>
        -- Every record the batch puts back has the name it gives.
        have hname : ∀ c' : Conversation, ∀ s' : State E,
            c'.peerUsername = peer.getD ((s.conv? convId).getD
              (.new convId (peer.getD (text "inconnu")) now)).peerUsername →
            (convId ≠ conv → peerName conv s' = peerName conv s) →
            peerName conv (s'.putConv convId c') =
              some (((some peer).join.bind fun peer =>
                if convId = conv then some peer else none).getD c.peerUsername) := by
          intro c' s' hc' hs'
          rw [peerName_putConv]
          by_cases hconv : convId = conv
          · subst hconv
            rw [if_pos rfl, hc', hc]
            cases peer <;> simp
          · rw [if_neg (Ne.symm hconv), hs' hconv, hbefore]
            cases peer <;> simp [hconv]
        have hother : ∀ (c' : Conversation) (s' : State E), convId ≠ conv →
            peerName conv s' = peerName conv s →
            peerName conv (s'.putConv convId c') = peerName conv s := by
          intro c' s' hconv hs'
          rw [peerName_putConv, if_neg (Ne.symm hconv), hs']
        dsimp only
        split
        · exact hname _ _ rfl fun _ => rfl
        · split
          · exact hname _ _ rfl fun h => hother _ _ h rfl
          · split
            · exact hname _ _ rfl fun h => hother _ _ h (hother _ _ h rfl)
            · split
              · exact hname _ _ rfl fun h => hother _ _ h (hother _ _ h rfl)
              · exact hname _ _ rfl fun h => hother _ _ h (hother _ _ h rfl)
              · rw [peerName_saveConversations, peerName_saveHistory]
                exact hname _ _ rfl fun h => hother _ _ h (hother _ _ h (hother _ _ h rfl))

/-- A batch that names a conversation does not ask what its name was. -/
theorem applySyncPayload_nomme (json name : Text) (h : (batchName P json conv).isSome) :
    applySyncPayload P now json (s.nomme conv name) = applySyncPayload P now json s := by
  obtain ⟨peer, h⟩ := Option.isSome_iff_exists.mp h
  simp only [batchName, Option.bind_eq_bind, Option.bind_eq_some_iff, Option.join_eq_some_iff] at h
  obtain ⟨data, ⟨j, hj, hmap⟩, convId, hconvId, peer', hpeer, h⟩ := h
  have hdata : (P.jsonDecode json).bind Json.asMap = some data := by
    rw [hj]
    exact hmap
  split at h
  · rename_i hconv
    subst hconv
    simp only [applySyncPayload, hdata, hconvId, hpeer]
    cases hc : s.conv? convId with
    | none =>
      have hsame : s.nomme convId name = s := by
        rw [State.nomme, nommes, show s.conversations.get? convId = none from hc]
      rw [hsame]
      simp only [hc]
    | some c =>
      rw [conv?_nomme, hc]
      simp only [Option.map_some, Option.getD_some, Conversation.nomme, putConv_nomme]
      rfl
  · cases h

/-! ## Reading what was opened -/

/-- The conversation has its name without the message. -/
def NameKnown (e : Envoi) (s : State E) : Prop :=
  (s.conv? e.conversationId).isSome ∨ e.senderUsername = text "inconnu"

/-- Contents that say the same whoever is named as their sender: a control of another
account, or one that is blind to the side; a batch; the name of a group; and a message
that cannot be dated. Where the conversation is new they have to name it. -/
def ContentsSame (P : Platform E) (now : Int) (e : Envoi) (known : Prop) (plain : Bytes)
    (s : State E) : Prop :=
  if estControle (decodePayload P plain).text then
    known ∧ (some e.senderUsername = s.username →
      SideBlind P now e.conversationId (decodePayload P plain).text s)
  else if estSync (decodePayload P plain).text then
    known ∨ (batchName P ((decodePayload P plain).text.drop prefixeSync.length)
      e.conversationId).isSome
  else if estAnnonceInterne (decodePayload P plain).text then True
  else known ∧ ∀ c, s.conv? e.conversationId = some c → echeance now c.ttlSecondes = none

/-- A message of the thread has an author, or is mine, over one transport only. -/
theorem addReceived_ne {payload : Payload} {mine : Bool} {author : Text} {c c' : Conversation}
    {s' : State E} {d : Option Int} (hc : s.conv? conv = some c) (hc' : s'.conv? conv = some c')
    (hmessages : c'.messages = c.messages) (httl : c'.ttlSecondes = c.ttlSecondes)
    (hdate : echeance now c.ttlSecondes = some d) :
    addReceived now conv payload false none s' ≠
      addReceived now conv payload mine (some author) s := by
  intro heq
  have hdate' : echeance now c'.ttlSecondes = some d := by rw [httl, hdate]
  have hthreads := congrArg (fun r => r.1.messagesIn conv) heq
  simp only [addReceived, receivedMessage, hc, hc', hdate, hdate', Option.bind_eq_bind,
    Option.bind_some, Option.pure_def, messagesIn_putConv, if_true, hmessages] at hthreads
  have hlast := (List.cons.inj (List.append_cancel_left hthreads)).1
  have hmine : false = mine := congrArg ChatMessage.mine hlast
  have hauthor := congrArg ChatMessage.author hlast
  subst hmine
  simp only [Bool.false_eq_true, if_false] at hauthor
  cases hauthor

theorem addReceived_undated {payload : Payload} {mine : Bool} {author : Option Text}
    {c : Conversation} (hc : s.conv? conv = some c) (hdate : echeance now c.ttlSecondes = none) :
    addReceived now conv payload mine author s = (s, .thrown) := by
  simp only [addReceived, receivedMessage, hc, hdate, Option.bind_eq_bind, Option.bind_none]

/-- In a conversation that has its name. -/
theorem dispatch_same_iff (sender : Text) (plain : Bytes) (hlogged : s.username ≠ none)
    (hsibling : some e.senderUsername = s.username → s.userId = some e.senderUserId)
    (hconv : (s.conv? e.conversationId).isSome) :
    dispatch P now e.conversationId sender plain (e.deballe ts) s =
        dispatch P now e.conversationId sender plain (e.authentifie ts') s ↔
      ContentsSame P now e True plain s := by
  obtain ⟨c, hc⟩ := Option.isSome_iff_exists.mp hconv
  have hsealed : decide (none = s.username) = false := decide_eq_false (Ne.symm hlogged)
  simp only [dispatch, Envoi.deballe, Envoi.authentifie, Json.asString?, Json.asString,
    Option.map_some, hsealed, ContentsSame, true_and, true_or]
  split
  · rename_i hcontrole
    rw [Prod.mk.injEq, and_iff_left rfl]
    by_cases hmine : some e.senderUsername = s.username
    · rw [decide_eq_true hmine, eq_comm, appliquerControle_same_iff sender (hsibling hmine) hcontrole]
      exact ⟨fun h _ => h, fun h => h hmine⟩
    · rw [decide_eq_false hmine]
      exact iff_of_true rfl fun h => absurd h hmine
  · split
    · exact iff_of_true rfl trivial
    · split
      · rw [hc]
        exact iff_of_true rfl trivial
      · cases hdate : echeance now c.ttlSecondes with
        | none =>
          rw [addReceived_undated hc hdate, addReceived_undated hc hdate]
          refine iff_of_true rfl fun c' hc' => ?_
          obtain rfl := Option.some.inj (hc.symm.trans hc')
          exact hdate
        | some d =>
          refine iff_of_false (addReceived_ne hc hc rfl rfl hdate) fun h => ?_
          rw [h c hc] at hdate
          cases hdate

/-- In a conversation that was made known under the two names. -/
theorem dispatch_nomme_same_iff (sender : Text) (plain : Bytes) {name : Text}
    {c : Conversation} (hlogged : s.username ≠ none) (hc : s.conv? e.conversationId = some c) (hname : c.peerUsername ≠ name) :
    dispatch P now e.conversationId sender plain (e.deballe ts) (s.nomme e.conversationId name) =
        dispatch P now e.conversationId sender plain (e.authentifie ts') s ↔
      ContentsSame P now e False plain s := by
  have hc' : (s.nomme e.conversationId name).conv? e.conversationId = some (c.nomme name) := by
    rw [conv?_nomme, hc]
    rfl
  have hbefore : peerName e.conversationId s = some c.peerUsername := by
    rw [peerName, hc]
    rfl
  have hafter : peerName e.conversationId (s.nomme e.conversationId name) = some name := by
    rw [peerName, hc']
    rfl
  have hdiffer : ∀ {after after' : State E} {r r' : Received},
      peerName e.conversationId after' = some name →
      peerName e.conversationId after = some c.peerUsername → (after', r') ≠ (after, r) := by
    intro after after' r r' hafter' hbefore' heq
    rw [(Prod.mk.inj heq).1, hbefore'] at hafter'
    exact hname (Option.some.inj hafter')
  simp only [dispatch, Envoi.deballe, Envoi.authentifie, Json.asString?, Json.asString,
    Option.map_some, ContentsSame, false_and, false_or]
  split
  · refine iff_of_false (hdiffer ?_ ?_) id
    · rw [peerName_appliquerControle, hafter]
    · rw [peerName_appliquerControle, hbefore]
  · split
    · cases hbatch : batchName P ((decodePayload P plain).text.drop prefixeSync.length)
          e.conversationId with
      | none =>
        refine iff_of_false (hdiffer ?_ ?_) Bool.false_ne_true
        · rw [peerName_applySyncPayload _ hc', hbatch]
          rfl
        · rw [peerName_applySyncPayload _ hc, hbatch]
          rfl
      | some peer =>
        rw [applySyncPayload_nomme _ name (by rw [hbatch]; rfl)]
        exact iff_of_true rfl rfl
    · split
      · rw [hc', hc]
        dsimp only
        rw [putConv_nomme]
        exact iff_of_true rfl trivial
      · refine iff_of_false ?_ id
        cases hdate : echeance now c.ttlSecondes with
        | none =>
          rw [addReceived_undated hc hdate, addReceived_undated hc' hdate]
          exact hdiffer hafter hbefore
        | some d =>
          have hsealed : decide (none = (s.nomme e.conversationId name).username) = false :=
            decide_eq_false (Ne.symm hlogged)
          rw [hsealed]
          exact addReceived_ne hc hc' rfl rfl hdate

/-! ## Any message -/

theorem Opening.state_map (f : State E → State E) (o : Opening E) :
    (o.map f).state = f o.state := by
  cases o <;> rfl

theorem arrivee_readIn (P : Platform E) (now : Int) (e : Envoi) (s : State E) :
    ReadIn e.conversationId s (arrivee P now e e.senderUsername s) :=
  resolveConversation_readIn P now (m := e.authentifie .null) resolveConversation_authentifie

/-- What a new conversation is called when its message has been opened. -/
theorem peerName_opened (P : Platform E) (now : Int) (h : s.conv? e.conversationId = none) (m : Incoming) :
    peerName e.conversationId (openMessage P e.conversationId m
      (arrivee P now e e.senderUsername s)).state = some e.senderUsername := by
  have hread := (arrivee_readIn P now e s).keeps
    (openMessage_keeps P e.conversationId m _)
  obtain ⟨c, hc, -⟩ := hread.messages
  have hnomme := openMessage_nomme P e.conversationId e.senderUsername
    (arrivee P now e e.senderUsername s) m
  rw [arrivee_nomme h] at hnomme
  have hstate := congrArg Opening.state hnomme
  rw [Opening.state_map] at hstate
  rw [hstate]
  exact peerName_nomme _ (by rw [hc]; rfl)

theorem opens_authentifie_iff {sender : Text} {plain : Bytes} {s' : State E} :
    Opens P now (e.authentifie ts') s (e.authentifie ts') e.conversationId sender plain s' ↔
      openMessage P e.conversationId (e.authentifie ts')
        (arrivee P now e e.senderUsername s) = .clair s' sender plain := by
  constructor
  · rintro ⟨-, s₀, s₁, henv, hresolve, hopen⟩
    obtain ⟨rfl, -⟩ := Prod.mk.inj henv
    rw [resolveConversation_authentifie] at hresolve
    obtain ⟨-, rfl⟩ := Prod.mk.inj (Option.some.inj hresolve)
    exact hopen
  · exact fun hopen => ⟨rfl, s, _, rfl, resolveConversation_authentifie, hopen⟩

theorem receive_authentifie_opened :
    receive P now (e.authentifie ts') s =
      match openMessage P e.conversationId (e.authentifie ts')
        (arrivee P now e e.senderUsername s) with
      | .skipped s => (s, .skipped)
      | .thrown s => (s, .thrown)
      | .clair s sender plain =>
          dispatch P now e.conversationId sender plain (e.authentifie ts') s := by
  rw [receive_authentifie]
  unfold receiveOpen
  rw [resolveConversation_authentifie]
  rfl

theorem receive_scelle_opened (hscelle : Scelle P e enveloppe s) :
    receive P now (scelle enveloppe ts) s =
      match openMessage P e.conversationId (e.authentifie ts')
        (arrivee P now e (text "inconnu") s) with
      | .skipped s => (s, .skipped)
      | .thrown s => (s, .thrown)
      | .clair s sender plain =>
          dispatch P now e.conversationId sender plain (e.deballe ts) s := by
  rw [receive_scelle hscelle]
  unfold receiveOpen
  rw [resolveConversation_deballe]
  rfl

/-- What was opened is the only thing there is to look at. -/
theorem same_of_clair {sender : Text} {plain : Bytes} {s' : State E}
    (hopen : openMessage P e.conversationId (e.authentifie ts')
      (arrivee P now e e.senderUsername s) = .clair s' sender plain) :
    ((∀ sender plain s', Opens P now (e.authentifie ts') s (e.authentifie ts') e.conversationId
          sender plain s' → ContentsSame P now e (NameKnown e s) plain s') ∧
        ((∀ sender plain s', ¬ Opens P now (e.authentifie ts') s (e.authentifie ts')
          e.conversationId sender plain s') → NameKnown e s)) ↔
      ContentsSame P now e (NameKnown e s) plain s' := by
  simp only [opens_authentifie_iff, hopen]
  constructor
  · exact fun h => h.1 sender plain s' rfl
  · refine fun h => ⟨?_, fun hnone => absurd rfl (hnone sender plain s')⟩
    rintro _ _ _ ⟨⟩
    exact h

theorem same_of_closed
    (hnot : ∀ sender plain s', openMessage P e.conversationId (e.authentifie ts')
      (arrivee P now e e.senderUsername s) ≠ .clair s' sender plain) :
    ((∀ sender plain s', Opens P now (e.authentifie ts') s (e.authentifie ts') e.conversationId
          sender plain s' → ContentsSame P now e (NameKnown e s) plain s') ∧
        ((∀ sender plain s', ¬ Opens P now (e.authentifie ts') s (e.authentifie ts')
          e.conversationId sender plain s') → NameKnown e s)) ↔
      NameKnown e s := by
  simp only [opens_authentifie_iff]
  exact ⟨fun h => h.2 hnot, fun h => ⟨fun sender plain s' hopen => absurd hopen (hnot _ _ _),
    fun _ => h⟩⟩

/-- A message leaves the client the same over both transports exactly if its contents
say the same without the name of the sender, or, where it does not open, the
conversation had its name. -/
theorem sealed_same_iff (hlogged : s.username ≠ none)
    (hsibling : some e.senderUsername = s.username → s.userId = some e.senderUserId)
    (hscelle : Scelle P e enveloppe s) :
    receive P now (scelle enveloppe ts) s = receive P now (e.authentifie ts') s ↔
      (∀ sender plain s', Opens P now (e.authentifie ts') s (e.authentifie ts') e.conversationId
          sender plain s' → ContentsSame P now e (NameKnown e s) plain s') ∧
        ((∀ sender plain s', ¬ Opens P now (e.authentifie ts') s (e.authentifie ts')
          e.conversationId sender plain s') → NameKnown e s) := by
  rw [receive_scelle_opened hscelle, receive_authentifie_opened]
  by_cases hknown : NameKnown e s
  · have harrivee : arrivee P now e (text "inconnu") s = arrivee P now e e.senderUsername s := by
      rcases hknown with hconv | hname
      · exact arrivee_known hconv _ _
      · rw [hname]
    rw [harrivee]
    cases hopen : openMessage P e.conversationId (e.authentifie ts')
        (arrivee P now e e.senderUsername s) with
    | skipped s' => exact iff_of_true rfl ((same_of_closed (by rw [hopen]; rintro _ _ _ ⟨⟩)).mpr hknown)
    | thrown s' => exact iff_of_true rfl ((same_of_closed (by rw [hopen]; rintro _ _ _ ⟨⟩)).mpr hknown)
    | clair s' sender plain =>
      have hread := (opens_authentifie_iff.mpr hopen).readIn
      obtain ⟨c, hc, -⟩ := hread.messages
      rw [same_of_clair hopen, eq_true hknown]
      refine dispatch_same_iff sender plain (by rwa [hread.username]) ?_ (by rw [hc]; rfl)
      rw [hread.username, hread.userId]
      exact hsibling
  · have hnew : s.conv? e.conversationId = none := by
      rw [← Option.not_isSome_iff_eq_none]
      exact fun h => hknown (.inl h)
    have hother : e.senderUsername ≠ text "inconnu" := fun h => hknown (.inr h)
    have hname := peerName_opened P now hnew (e.authentifie ts')
    have hdiffer : ∀ (s' : State E) (r : Received),
        peerName e.conversationId s' = some e.senderUsername →
        (s'.nomme e.conversationId (text "inconnu"), r) ≠ (s', r) := by
      intro s' r hname heq
      obtain ⟨c, hc, -⟩ := Option.map_eq_some_iff.mp hname
      have hinconnu := peerName_nomme (s := s') (text "inconnu") (by rw [hc]; rfl)
      rw [(Prod.mk.inj heq).1, hname] at hinconnu
      exact hother (Option.some.inj hinconnu)
    rw [← arrivee_nomme hnew e.senderUsername, openMessage_nomme]
    cases hopen : openMessage P e.conversationId (e.authentifie ts')
        (arrivee P now e e.senderUsername s) with
    | skipped s' =>
      rw [hopen] at hname
      exact iff_of_false (hdiffer s' .skipped hname) fun h =>
        hknown ((same_of_closed (by rw [hopen]; rintro _ _ _ ⟨⟩)).mp h)
    | thrown s' =>
      rw [hopen] at hname
      exact iff_of_false (hdiffer s' .thrown hname) fun h =>
        hknown ((same_of_closed (by rw [hopen]; rintro _ _ _ ⟨⟩)).mp h)
    | clair s' sender plain =>
      rw [hopen] at hname
      obtain ⟨c, hc, hcname⟩ := Option.map_eq_some_iff.mp hname
      have hread := (opens_authentifie_iff.mpr hopen).readIn
      rw [same_of_clair hopen, eq_false hknown]
      exact dispatch_nomme_same_iff sender plain (by rwa [hread.username]) hc
        (by rw [hcname]; exact hother)

/-! ## A status, from my other device and from Bob -/

/-- A status in the conversation with Bob. -/
def statutDe (device userId username : Text) : Envoi where
  senderDeviceId := device
  senderUserId := userId
  senderUsername := username
  conversationId := text "bob"
  header := text "AAE="
  ciphertext := text "AQ=="

def enveloppeDeMoi : String :=
  "\x7b\"sd\":\"moi-2\",\"su\":\"me\",\"cv\":\"bob\",\"h\":\"AAE=\",\"c\":\"AQ==\"\x7d"

def enveloppeDeBob : String :=
  "\x7b\"sd\":\"bob-1\",\"su\":\"u-bob\",\"cv\":\"bob\",\"h\":\"AAE=\",\"c\":\"AQ==\"\x7d"

def scelleScript : Script where
  json := [
    (text enveloppeDeMoi,
      .obj [(text "sd", .str (text "moi-2")), (text "su", .str (text "me")),
        (text "cv", .str (text "bob")), (text "h", .str (text "AAE=")),
        (text "c", .str (text "AQ=="))]),
    (text enveloppeDeBob,
      .obj [(text "sd", .str (text "bob-1")), (text "su", .str (text "u-bob")),
        (text "cv", .str (text "bob")), (text "h", .str (text "AAE=")),
        (text "c", .str (text "AQ=="))])] ++ occupeScript.json
  base64 := [(text "AAE=", [0, 1]), (text "AQ==", [1]), (text "Ag==", [2]), (text "Aw==", [3])]
  opened := [([1], occupePayload), ([2], ascii enveloppeDeMoi),
    ([3], ascii enveloppeDeBob)]

/-- The conversation with Bob, where his device and my other one have sessions. -/
def talkWithSessions : State Unit :=
  (loggedIn (text "me") (text "moi")).putConv (text "bob")
    { Conversation.new (text "bob") (text "bob") 0 with
      peerUserId := some (text "u-bob")
      sessions := (LinkedMap.empty.insert (text "moi-2") 0).insert (text "bob-1") 1 }

/-- My status, sealed by my other device, is stored as Bob's. -/
theorem siblingsStatus_differs :
    Scelle (scripted scelleScript) (statutDe (text "moi-2") (text "me") (text "moi"))
        (text "Ag==") talkWithSessions ∧
      receive (scripted scelleScript) 1 (scelle (text "Ag==") .null) talkWithSessions ≠
        receive (scripted scelleScript) 1
          ((statutDe (text "moi-2") (text "me") (text "moi")).authentifie .null)
          talkWithSessions := by
  refine ⟨⟨_, _, _, _, rfl, rfl, rfl, rfl, rfl, rfl, rfl, rfl, rfl⟩, fun heq => ?_⟩
  have hbob := congrArg (fun r => r.1.statuts.get? (text "u-bob")) heq
  revert hbob
  decide +kernel

/-- Bob's is his over both transports. -/
theorem bobsStatus_same :
    receive (scripted scelleScript) 1 (scelle (text "Aw==") .null) talkWithSessions =
      receive (scripted scelleScript) 1
        ((statutDe (text "bob-1") (text "u-bob") (text "bob")).authentifie .null)
        talkWithSessions := by
  refine (sealed_same_iff (by decide) (fun h => absurd h (by decide))
    ⟨_, _, _, _, rfl, rfl, rfl, rfl, rfl, rfl, rfl, rfl, rfl⟩).mpr
    ⟨fun sender plain s' hopen => ?_, fun _ => .inl rfl⟩
  have hread := hopen.readIn
  obtain ⟨-, s₀, s₁, henv, hresolve, hplain⟩ := hopen
  obtain ⟨rfl, -⟩ := Prod.mk.inj henv
  rw [resolveConversation_authentifie] at hresolve
  obtain ⟨-, rfl⟩ := Prod.mk.inj (Option.some.inj hresolve)
  obtain rfl : occupePayload = plain := by
    have hopened : openMessage (scripted scelleScript) (text "bob")
        ((statutDe (text "bob-1") (text "u-bob") (text "bob")).authentifie .null)
        (arrivee (scripted scelleScript) 1 (statutDe (text "bob-1") (text "u-bob") (text "bob"))
          (text "bob") talkWithSessions) =
        .clair (arrivee (scripted scelleScript) 1
          (statutDe (text "bob-1") (text "u-bob") (text "bob")) (text "bob") talkWithSessions)
          (text "bob-1") occupePayload := rfl
    exact (Opening.clair.inj (hopened.symm.trans hplain)).2.2
  rw [ContentsSame, if_pos (by decide +kernel), hread.username]
  exact ⟨.inl rfl, fun h => absurd h (by decide)⟩

end ZiaCrypte.Inbox
