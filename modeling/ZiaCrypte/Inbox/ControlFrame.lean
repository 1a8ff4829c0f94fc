import ZiaCrypte.Inbox.Openings
import ZiaCrypte.Inbox.Scripted

/-!
# Whose entries a reaction, a token, a status or an avatar changes

An entry is stored under the account of the conversation's peer, the account the
message names, or the device its contents name. It is the sender's where that name
is.
-/
namespace ZiaCrypte.Inbox

open ZiaCrypte.Lib ZiaCrypte.Engine

variable {E : Type} (P : Platform E) (now : Int) (conv texte : Text) (deMoi : Bool)
  (reacteur : Option Text) (u e : Text)

/-! ## What a control says

`none` where it comes to nothing. -/

/-- The message, the emoji, and whether it is put. -/
def reactionLue : Option (Text × Text × Bool) := do
  let json ← decodeCharge P texte prefixeReaction
  let cible ← (field json "id").asString?.join
  let emoji ← (field json "e").asString?.join
  let pose ← (field json "on").asBool?
  pure (cible, emoji, pose.getD true)

/-- The device and its token. -/
def jetonLu : Option (Text × Text) := do
  let json ← decodeCharge P texte prefixeJeton
  let appareil ← (field json "d").asString?.join
  let jeton ← (field json "t").asString?.join
  pure (appareil, jeton)

/-- The status, as long as one may be. -/
def statutLu : Option Text := do
  let json ← decodeCharge P texte prefixeStatut
  let t ← (field json "t").asString?
  pure ((trim (t.getD [])).take statutMax)

def avatarLu : Option AttachmentRef :=
  (decodeCharge P texte prefixeAvatar).bind AttachmentRef.fromJson

/-! ## The frame -/

def reactors (m : ChatMessage) (emoji : Text) : List Text := (m.reactions.get? emoji).getD []

/-- A message is as it was but for the reactions of one account. -/
structure SameBut (u : Text) (m m' : ChatMessage) : Prop where
  rest : { m' with reactions := .empty } = { m with reactions := .empty }
  reactors : ∀ emoji v, v ≠ u → (v ∈ reactors m' emoji ↔ v ∈ reactors m emoji)

/-- A thread is as it was but for the reactions of one account to the message that is
named. -/
structure OnlyReactionsOf (before after : List ChatMessage) : Prop where
  length : after.length = before.length
  sameBut : ∀ (i : Nat) m m', before[i]? = some m → after[i]? = some m' → SameBut u m m'
  named : ∀ (i : Nat) m, before[i]? = some m → after[i]? ≠ some m →
    ∃ r, reactionLue P texte = some r ∧ m.id = some r.1

/-- Nothing was written but entries of the account `u`, of its device `e`, and its
reactions to the message that is named. -/
structure ChangesOnlyOf (before : List ChatMessage) (s after : State E) : Prop where
  statuts : ∀ v, v ≠ u → after.statuts.get? v = s.statuts.get? v
  avatars : ∀ v, v ≠ u → after.avatars.get? v = s.avatars.get? v
  jetons : ∀ d, d ≠ e → after.jetonsRemise.get? d = s.jetonsRemise.get? d
  others : ∀ c, c ≠ conv → after.messagesIn c = s.messagesIn c
  messages : OnlyReactionsOf P texte u before (after.messagesIn conv)

/-! ## Where the keys are the sender's -/

/-- The account a reaction is counted for. -/
def reacteurDe (s : State E) : Option Text := if deMoi then s.userId else reacteur

/-- A reaction that is put or taken back is counted for `u`. -/
def ReactionOwn (s : State E) : Prop :=
  ∀ cible emoji pose qui i m, reactionLue P texte = some (cible, emoji, pose) →
    reacteurDe deMoi reacteur s = some qui → FirstWithId cible (s.messagesIn conv) i m →
    (qui ∈ reactors m emoji ↔ pose = false) → qui = u

/-- A token that is new is for the device `e`. -/
def JetonOwn (s : State E) : Prop :=
  ∀ appareil jeton, jetonLu P texte = some (appareil, jeton) →
    s.jetonsRemise.get? appareil ≠ some jeton → appareil = e

/-- A status that is new is for the account `u`. -/
def StatutOwn (s : State E) : Prop :=
  ∀ t p, statutLu P texte = some t → proprietaire conv deMoi s = some p →
    s.statuts.get? p ≠ (if t = [] then none else some t) → p = u

/-- An avatar that is new is for the account `u`. -/
def AvatarOwn (s : State E) : Prop :=
  ∀ ref p, avatarLu P texte = some ref → proprietaire conv deMoi s = some p →
    s.avatars.get? p ≠ some ref → p = u

/-- The keys a control writes under are its sender's. -/
structure KeysOwn (s : State E) : Prop where
  reaction : startsWith texte prefixeReaction = true → ReactionOwn P conv texte deMoi reacteur u s
  jeton : startsWith texte prefixeJeton = true → JetonOwn P texte e s
  statut : startsWith texte prefixeStatut = true → StatutOwn P conv texte deMoi u s
  avatar : startsWith texte prefixeAvatar = true → AvatarOwn P conv texte deMoi u s

/-! ## The frame, entry by entry -/

variable {P texte u}

theorem SameBut.refl (m : ChatMessage) : SameBut u m m := ⟨rfl, fun _ _ _ => Iff.rfl⟩

theorem OnlyReactionsOf.refl (ms : List ChatMessage) : OnlyReactionsOf P texte u ms ms where
  length := rfl
  sameBut i m m' hm hm' := by
    obtain rfl := Option.some.inj (hm.symm.trans hm')
    exact .refl m
  named i m hm hne := absurd hm hne

theorem ChangesOnlyOf.refl (s : State E) :
    ChangesOnlyOf P conv texte u e (s.messagesIn conv) s s where
  statuts _ _ := rfl
  avatars _ _ := rfl
  jetons _ _ := rfl
  others _ _ := rfl
  messages := .refl _

theorem mem_reactors_reagir (emoji emoji' qui v : Text) (pose : Bool) (m : ChatMessage) :
    v ∈ reactors (reagir emoji qui pose m) emoji' ↔
      if emoji' = emoji ∧ v = qui then pose = true else v ∈ reactors m emoji' := by
  unfold reagir reactors
  by_cases hemoji : emoji' = emoji
  · subst hemoji
    cases pose with
    | true =>
      dsimp only
      rw [if_pos rfl, LinkedMap.get?_insert_self, Option.getD_some, addToSet]
      split <;> by_cases hv : v = qui <;> simp_all
    | false =>
      dsimp only
      rw [if_neg Bool.false_ne_true]
      split
      · rename_i hempty
        rw [LinkedMap.get?_erase, if_pos rfl, Option.getD_none]
        have hnot : ∀ w ∈ (m.reactions.get? emoji').getD [], w = qui := by
          simpa [List.filter_eq_nil_iff] using hempty
        by_cases hv : v = qui
        · simp [hv]
        · simpa [hv] using fun hmem => hv (hnot v hmem)
      · rw [LinkedMap.get?_insert_self, Option.getD_some]
        by_cases hv : v = qui <;> simp [hv]
  · cases pose with
    | true =>
      dsimp only
      rw [if_pos rfl, LinkedMap.get?_insert_ne _ _ hemoji]
      simp [hemoji]
    | false =>
      dsimp only
      rw [if_neg Bool.false_ne_true]
      split
      · rw [LinkedMap.get?_erase, if_neg hemoji]
        simp [hemoji]
      · rw [LinkedMap.get?_insert_ne _ _ hemoji]
        simp [hemoji]

/-- A reaction is the reaction of one account. -/
theorem sameBut_reagir_iff (emoji qui : Text) (pose : Bool) (m : ChatMessage) :
    SameBut u m (reagir emoji qui pose m) ↔
      ((qui ∈ reactors m emoji ↔ pose = false) → qui = u) := by
  constructor
  · intro hsame hchange
    by_contra hne
    have hmem := hsame.reactors emoji qui hne
    rw [mem_reactors_reagir, if_pos ⟨rfl, rfl⟩] at hmem
    cases pose <;> simp_all
  · intro hown
    refine ⟨?_, fun emoji' v hv => ?_⟩
    · unfold reagir
      split <;> rfl
    · rw [mem_reactors_reagir]
      split
      · rename_i hboth
        obtain ⟨rfl, rfl⟩ := hboth
        by_contra hchange
        exact hv (hown (by cases pose <;> simp_all))
      · rfl

/-- The reaction to one message of a thread. -/
theorem onlyReactionsOf_set_iff {ms : List ChatMessage} {i : Nat} {m m' : ChatMessage}
    {r : Text × Text × Bool} (hget : ms[i]? = some m) (hid : m.id = some r.1)
    (hread : reactionLue P texte = some r) :
    OnlyReactionsOf P texte u ms (ms.set i m') ↔ SameBut u m m' := by
  have hlt : i < ms.length := (List.getElem?_eq_some_iff.mp hget).1
  constructor
  · intro h
    exact h.sameBut i m m' hget (List.getElem?_set_self hlt)
  · intro hsame
    refine ⟨List.length_set, fun j n n' hn hn' => ?_, fun j n hn hne => ?_⟩
    · by_cases hij : i = j
      · subst hij
        rw [List.getElem?_set_self hlt] at hn'
        obtain rfl := Option.some.inj hn'
        obtain rfl := Option.some.inj (hget.symm.trans hn)
        exact hsame
      · rw [List.getElem?_set_ne hij] at hn'
        obtain rfl := Option.some.inj (hn.symm.trans hn')
        exact .refl n
    · by_cases hij : i = j
      · subst hij
        obtain rfl := Option.some.inj (hget.symm.trans hn)
        exact ⟨r, hread, hid⟩
      · rw [List.getElem?_set_ne hij] at hne
        exact absurd hn hne

/-! ## One lemma for each control -/

variable {e : Text}

/-- One table was written, at one key. -/
theorem changesOnlyOf_jetons_iff (s : State E) (jetons : LinkedMap Text Text) :
    ChangesOnlyOf P conv texte u e (s.messagesIn conv) s
      { s with jetonsRemise := jetons }.saveJetons ↔
      ∀ d, d ≠ e → jetons.get? d = s.jetonsRemise.get? d :=
  ⟨fun h => h.jetons, fun h => { ChangesOnlyOf.refl conv e s with jetons := h }⟩

theorem changesOnlyOf_statuts_iff (s : State E) (statuts : LinkedMap Text Text) :
    ChangesOnlyOf P conv texte u e (s.messagesIn conv) s
      { s with statuts := statuts }.saveStatuts ↔
      ∀ v, v ≠ u → statuts.get? v = s.statuts.get? v :=
  ⟨fun h => h.statuts, fun h => { ChangesOnlyOf.refl conv e s with statuts := h }⟩

theorem changesOnlyOf_avatars_iff (s : State E) (avatars : LinkedMap Text AttachmentRef) :
    ChangesOnlyOf P conv texte u e (s.messagesIn conv) s
      { s with avatars := avatars }.saveAvatars ↔
      ∀ v, v ≠ u → avatars.get? v = s.avatars.get? v :=
  ⟨fun h => h.avatars, fun h => { ChangesOnlyOf.refl conv e s with avatars := h }⟩

theorem reaction_getD (s : State E) :
    (reaction P conv texte deMoi reacteur s).getD s =
      match reactionLue P texte, reacteurDe deMoi reacteur s with
      | some (cible, emoji, pose), some qui =>
          s.modifier conv cible fun m => some (reagir emoji qui pose m)
      | _, _ => s := by
  unfold reaction reactionLue reacteurDe
  cases decodeCharge P texte prefixeReaction with
  | none => rfl
  | some json =>
    simp only [Option.bind_eq_bind, Option.bind_some]
    rcases (field json "id").asString? with _ | _ | cible <;>
      rcases (field json "e").asString? with _ | _ | emoji <;>
      rcases (field json "on").asBool? with _ | pose <;>
      rcases (if deMoi then s.userId else reacteur) with _ | qui <;> rfl

theorem jeton_getD (s : State E) :
    (jeton P texte s).getD s = match jetonLu P texte with
      | some (appareil, jeton) =>
          { s with jetonsRemise := s.jetonsRemise.insert appareil jeton }.saveJetons
      | none => s := by
  unfold jeton jetonLu
  cases decodeCharge P texte prefixeJeton with
  | none => rfl
  | some json =>
    simp only [Option.bind_eq_bind, Option.bind_some]
    rcases (field json "d").asString? with _ | _ | appareil <;>
      rcases (field json "t").asString? with _ | _ | jeton <;> rfl

theorem statut_getD (s : State E) :
    (statut P conv texte deMoi s).getD s =
      match statutLu P texte, proprietaire conv deMoi s with
      | some t, some p => { s with statuts :=
          if t = [] then s.statuts.erase p else s.statuts.insert p t }.saveStatuts
      | _, _ => s := by
  unfold statut statutLu
  cases decodeCharge P texte prefixeStatut with
  | none => rfl
  | some json =>
    simp only [Option.bind_eq_bind, Option.bind_some]
    rcases (field json "t").asString? with _ | t <;>
      rcases proprietaire conv deMoi s with _ | p <;> rfl

theorem avatar_getD (s : State E) :
    (avatar P conv texte deMoi s).getD s =
      match avatarLu P texte, proprietaire conv deMoi s with
      | some ref, some p => { s with avatars := s.avatars.insert p ref }.saveAvatars
      | _, _ => s := by
  unfold avatar avatarLu
  cases decodeCharge P texte prefixeAvatar with
  | none => rfl
  | some json =>
    simp only [Option.bind_eq_bind, Option.bind_some]
    rcases AttachmentRef.fromJson json with _ | ref <;>
      rcases proprietaire conv deMoi s with _ | p <;> rfl

theorem reaction_changesOnlyOf_iff (s : State E) :
    ChangesOnlyOf P conv texte u e (s.messagesIn conv) s
      ((reaction P conv texte deMoi reacteur s).getD s) ↔
      ReactionOwn P conv texte deMoi reacteur u s := by
  rw [reaction_getD, ReactionOwn]
  cases hread : reactionLue P texte with
  | none =>
    refine iff_of_true (.refl conv e s) ?_
    rintro _ _ _ _ _ _ ⟨⟩
  | some r =>
    obtain ⟨cible, emoji, pose⟩ := r
    cases hqui : reacteurDe deMoi reacteur s with
    | none =>
      refine iff_of_true (.refl conv e s) ?_
      rintro _ _ _ _ _ _ _ ⟨⟩
    | some qui =>
      obtain ⟨hstatuts, havatars, hjetons⟩ :=
        modifier_tables s conv cible fun m => some (reagir emoji qui pose m)
      have hframe : ChangesOnlyOf P conv texte u e (s.messagesIn conv) s
            (s.modifier conv cible fun m => some (reagir emoji qui pose m)) ↔
          OnlyReactionsOf P texte u (s.messagesIn conv)
            ((s.modifier conv cible fun m => some (reagir emoji qui pose m)).messagesIn conv) := by
        refine ⟨fun h => h.messages, fun h => ?_⟩
        exact {
          statuts := fun v _ => by rw [hstatuts]
          avatars := fun v _ => by rw [havatars]
          jetons := fun d _ => by rw [hjetons]
          others := fun c hc => by rw [messagesIn_modifier, if_neg hc]
          messages := h }
      rw [hframe, messagesIn_modifier, if_pos rfl]
      rcases firstWithId_or cible (s.messagesIn conv) with ⟨i, m, hfirst⟩ | hnone
      · rw [modifierPremier_of_first hfirst, Option.map_some, Option.getD_some,
          onlyReactionsOf_set_iff hfirst.get hfirst.id hread, sameBut_reagir_iff]
        constructor
        · rintro hown cible' emoji' pose' qui' j m' ⟨⟩ ⟨⟩ hfirst'
          obtain ⟨rfl, rfl⟩ := hfirst.unique hfirst'
          exact hown
        · exact fun hown => hown cible emoji pose qui i m rfl rfl hfirst
      · rw [modifierPremier_of_none hnone, Option.getD_none]
        refine iff_of_true (.refl _) ?_
        rintro cible' emoji' pose' qui' j m' ⟨⟩ ⟨⟩ hfirst'
        exact absurd hfirst'.id (hnone m' (List.mem_of_getElem? hfirst'.get))

theorem jeton_changesOnlyOf_iff (s : State E) :
    ChangesOnlyOf P conv texte u e (s.messagesIn conv) s ((jeton P texte s).getD s) ↔
      JetonOwn P texte e s := by
  rw [jeton_getD, JetonOwn]
  cases jetonLu P texte with
  | none =>
    refine iff_of_true (.refl conv e s) ?_
    rintro _ _ ⟨⟩
  | some lu =>
    obtain ⟨appareil, jeton⟩ := lu
    rw [changesOnlyOf_jetons_iff, LinkedMap.get?_insert_others_iff]
    constructor
    · rintro hown appareil' jeton' ⟨⟩
      exact hown
    · exact fun hown => hown appareil jeton rfl

theorem statut_changesOnlyOf_iff (s : State E) :
    ChangesOnlyOf P conv texte u e (s.messagesIn conv) s ((statut P conv texte deMoi s).getD s) ↔
      StatutOwn P conv texte deMoi u s := by
  rw [statut_getD, StatutOwn]
  cases statutLu P texte with
  | none =>
    refine iff_of_true (.refl conv e s) ?_
    rintro _ _ ⟨⟩
  | some t =>
    cases proprietaire conv deMoi s with
    | none =>
      refine iff_of_true (.refl conv e s) ?_
      rintro _ _ _ ⟨⟩
    | some p =>
      have hone : (∀ t' p', some t = some t' → some p = some p' →
            s.statuts.get? p' ≠ (if t' = [] then none else some t') → p' = u) ↔
          (s.statuts.get? p ≠ (if t = [] then none else some t) → p = u) := by
        constructor
        · exact fun hown => hown t p rfl rfl
        · rintro hown t' p' ⟨⟩ ⟨⟩
          exact hown
      dsimp only
      rw [changesOnlyOf_statuts_iff, hone]
      split
      · exact LinkedMap.get?_erase_others_iff s.statuts p u
      · exact LinkedMap.get?_insert_others_iff s.statuts p u t

theorem avatar_changesOnlyOf_iff (s : State E) :
    ChangesOnlyOf P conv texte u e (s.messagesIn conv) s ((avatar P conv texte deMoi s).getD s) ↔
      AvatarOwn P conv texte deMoi u s := by
  rw [avatar_getD, AvatarOwn]
  cases avatarLu P texte with
  | none =>
    refine iff_of_true (.refl conv e s) ?_
    rintro _ _ ⟨⟩
  | some ref =>
    cases proprietaire conv deMoi s with
    | none =>
      refine iff_of_true (.refl conv e s) ?_
      rintro _ _ _ ⟨⟩
    | some p =>
      dsimp only
      rw [changesOnlyOf_avatars_iff, LinkedMap.get?_insert_others_iff]
      constructor
      · rintro hown ref' p' ⟨⟩ ⟨⟩
        exact hown
      · exact fun hown => hown ref p rfl rfl

/-! ## Any of the four -/

/-- The controls that write entries. -/
def prefixesEntrees : List Text := [prefixeReaction, prefixeJeton, prefixeStatut, prefixeAvatar]

theorem prefixesEntrees_controle : ∀ p ∈ prefixesEntrees, p ∈ prefixesControle := by decide

variable (now : Int) (device : Text)

theorem appliquerControle_changesOnlyOf_iff (s : State E)
    (hkind : ∃ p ∈ prefixesEntrees, startsWith texte p = true) :
    ChangesOnlyOf P conv texte u e (s.messagesIn conv) s
      (appliquerControle P now conv texte deMoi device reacteur s) ↔
      KeysOwn P conv texte deMoi reacteur u e s := by
  obtain ⟨p, hp, hstart⟩ := hkind
  have hvoid : ∀ b ∈ prefixesControle, p ≠ b → ∀ {Q : Prop}, startsWith texte b = true → Q :=
    fun b hb hne Q h => absurd (h.symm.trans
      (startsWith_only hstart b hne (prefixesEntrees_controle p hp) hb)) Bool.noConfusion
  simp only [prefixesEntrees, List.mem_cons, List.not_mem_nil, or_false] at hp
  rcases hp with rfl | rfl | rfl | rfl
  · rw [appliquerControle_reaction s P now conv texte deMoi device reacteur hstart,
      reaction_changesOnlyOf_iff]
    exact ⟨fun h => ⟨fun _ => h, hvoid _ (by decide) (by decide), hvoid _ (by decide) (by decide),
      hvoid _ (by decide) (by decide)⟩, fun h => h.reaction hstart⟩
  · rw [appliquerControle_jeton s P now conv texte deMoi device reacteur hstart,
      jeton_changesOnlyOf_iff]
    exact ⟨fun h => ⟨hvoid _ (by decide) (by decide), fun _ => h, hvoid _ (by decide) (by decide),
      hvoid _ (by decide) (by decide)⟩, fun h => h.jeton hstart⟩
  · rw [appliquerControle_statut s P now conv texte deMoi device reacteur hstart,
      statut_changesOnlyOf_iff]
    exact ⟨fun h => ⟨hvoid _ (by decide) (by decide), hvoid _ (by decide) (by decide), fun _ => h,
      hvoid _ (by decide) (by decide)⟩, fun h => h.statut hstart⟩
  · rw [appliquerControle_avatar s P now conv texte deMoi device reacteur hstart,
      avatar_changesOnlyOf_iff]
    exact ⟨fun h => ⟨hvoid _ (by decide) (by decide), hvoid _ (by decide) (by decide),
      hvoid _ (by decide) (by decide), fun _ => h⟩, fun h => h.avatar hstart⟩

/-- The frame may start where the message was received. -/
theorem ReadIn.changesOnlyOf_iff {s s' after : State E} (h : ReadIn conv s s') :
    ChangesOnlyOf P conv texte u e (s.thread conv) s after ↔
      ChangesOnlyOf P conv texte u e (s'.messagesIn conv) s' after := by
  obtain ⟨c, hc, hmessages⟩ := h.messages
  have hothers : ∀ c, c ≠ conv → s'.messagesIn c = s.messagesIn c := fun c hc => by
    rw [State.messagesIn, h.others c hc, State.messagesIn]
  rw [messagesIn_of_conv? hc, hmessages]
  constructor
  · intro hchanges
    exact {
      statuts := by rw [h.statuts]; exact hchanges.statuts
      avatars := by rw [h.avatars]; exact hchanges.avatars
      jetons := by rw [h.jetons]; exact hchanges.jetons
      others := fun c hc => (hchanges.others c hc).trans (hothers c hc).symm
      messages := hchanges.messages }
  · intro hchanges
    exact {
      statuts := by rw [← h.statuts]; exact hchanges.statuts
      avatars := by rw [← h.avatars]; exact hchanges.avatars
      jetons := by rw [← h.jetons]; exact hchanges.jetons
      others := fun c hc => (hchanges.others c hc).trans (hothers c hc)
      messages := hchanges.messages }

/-- A reaction, a token, a status or an avatar that is received from the device `e` of
the account `u` writes entries of that account and device alone exactly if the keys it
writes under are theirs. -/
theorem control_changesOnlyOf {m m' : Incoming} {s s' : State E} {sender : Text} {plain : Bytes}
    (u e : Text) (hopen : Opens P now m s m' conv sender plain s')
    (hkind : ∃ p ∈ prefixesEntrees, startsWith (decodePayload P plain).text p = true) :
    ChangesOnlyOf P conv (decodePayload P plain).text u e (s.thread conv) s
        (receive P now m s).1 ↔
      ∀ senderUsername senderUserId, m'.senderUsername.asString? = some senderUsername →
        m'.senderUserId.asString? = some senderUserId →
        KeysOwn P conv (decodePayload P plain).text (decide (senderUsername = s.username))
          senderUserId u e s' := by
  have hread := hopen.readIn
  have hcontrole : estControle (decodePayload P plain).text = true := by
    obtain ⟨p, hp, hstart⟩ := hkind
    exact List.any_eq_true.mpr ⟨p, prefixesEntrees_controle p hp, hstart⟩
  rw [hopen.receive_eq, hread.changesOnlyOf_iff, dispatch]
  cases m'.senderUsername.asString? with
  | none =>
    refine iff_of_true (.refl conv e s') ?_
    rintro _ _ ⟨⟩
  | some senderUsername =>
    dsimp only
    rw [if_pos hcontrole]
    cases m'.senderUserId.asString? with
    | none =>
      refine iff_of_true (.refl conv e s') ?_
      rintro _ _ _ ⟨⟩
    | some senderUserId =>
      dsimp only
      rw [appliquerControle_changesOnlyOf_iff _ _ _ _ _ _ hkind, hread.username]
      constructor
      · rintro hown _ _ ⟨⟩ ⟨⟩
        exact hown
      · exact fun hown => hown senderUsername senderUserId rfl rfl

/-! ## The status of a third member -/

def occupePayload : Bytes :=
  ascii "\x7b\"t\":\"__zia_status__:\x7b\\\"t\\\":\\\"occupe\\\"\x7d\"\x7d"

def occupeScript : Script where
  json := [
    (text "\x7b\"t\":\"__zia_status__:\x7b\\\"t\\\":\\\"occupe\\\"\x7d\"\x7d",
      .obj [(text "t", .str (text "__zia_status__:\x7b\"t\":\"occupe\"\x7d"))]),
    (text "\x7b\"t\":\"occupe\"\x7d", .obj [(text "t", .str (text "occupe"))])]
  base64 := [(text "Ag==", [2]), (text "AQ==", [1])]
  opened := [([1], occupePayload)]

/-- A status in the group `g`, sealed with the sender key of a device. -/
def occupe (device userId username : Text) : Incoming where
  sealed := .bool false
  channelId := .null
  conversationId := .str (text "g")
  senderDeviceId := .str device
  senderUsername := .str username
  senderUserId := .str userId
  header := .str (text "Ag==")
  ciphertext := .str (text "AQ==")
  timestampMs := .num (some 0)

/-- The group of me, Bob and Carol; Bob wrote first. -/
def groupOfBob : State Unit :=
  (loggedIn (text "me") (text "moi")).putConv (text "g")
    { Conversation.new (text "g") (text "groupe") 0 with
      isGroup := true
      peerUserId := some (text "u-bob") }

/-- Carol's status is stored as Bob's. -/
theorem carolsStatus_storedAsBobs :
    ¬ ChangesOnlyOf (scripted occupeScript) (text "g")
        (decodePayload (scripted occupeScript) occupePayload).text
        (text "u-carol") (text "carol-1") (groupOfBob.thread (text "g")) groupOfBob
        (receive (scripted occupeScript) 1
          (occupe (text "carol-1") (text "u-carol") (text "carol")) groupOfBob).1 := by
  intro h
  have hbob := h.statuts (text "u-bob") (by decide)
  revert hbob
  decide +kernel

/-- Bob's is his own. -/
theorem bobsStatus_isHis :
    ChangesOnlyOf (scripted occupeScript) (text "g")
        (decodePayload (scripted occupeScript) occupePayload).text
        (text "u-bob") (text "bob-1") (groupOfBob.thread (text "g")) groupOfBob
        (receive (scripted occupeScript) 1
          (occupe (text "bob-1") (text "u-bob") (text "bob")) groupOfBob).1 := by
  have hopen : Opens (scripted occupeScript) 1 (occupe (text "bob-1") (text "u-bob") (text "bob"))
      groupOfBob (occupe (text "bob-1") (text "u-bob") (text "bob")) (text "g") (text "bob-1")
      occupePayload (restoreSessions (scripted occupeScript) (text "g") groupOfBob) :=
    ⟨rfl, _, _, rfl, rfl, rfl⟩
  refine (control_changesOnlyOf (text "g") 1 (text "u-bob") (text "bob-1") hopen
    ⟨prefixeStatut, by decide, by decide +kernel⟩).mpr ?_
  rintro _ _ ⟨⟩ ⟨⟩
  have hnot : ∀ p ∈ [prefixeReaction, prefixeJeton, prefixeAvatar],
      startsWith (decodePayload (scripted occupeScript) occupePayload).text p = false := by
    decide +kernel
  refine ⟨fun h => ?_, fun h => ?_, fun _ _ p _ hp _ => ?_, fun h => ?_⟩
  · exact absurd (h.symm.trans (hnot prefixeReaction (by decide))) Bool.noConfusion
  · exact absurd (h.symm.trans (hnot prefixeJeton (by decide))) Bool.noConfusion
  · exact (Option.some.inj hp).symm
  · exact absurd (h.symm.trans (hnot prefixeAvatar (by decide))) Bool.noConfusion

end ZiaCrypte.Inbox
