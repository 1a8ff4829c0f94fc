import ZiaCrypte.Inbox.Frames
import ZiaCrypte.Inbox.Scripted

/-!
# Whose messages an edit or a deletion changes

A message does not say who wrote it, and `_appliquerControle` compares the sides: a
control that was received changes any message that was received. The authors are a
ghost function on the places of the thread.
-/
namespace ZiaCrypte.Inbox

open ZiaCrypte.Lib ZiaCrypte.Engine

variable {E : Type} (P : Platform E) (now : Int) (texte : Text) (deMoi : Bool)

/-- A thread in which the messages of every account but one stand as they were. -/
def LeavesOthers (authors : Nat → Text) (u : Text) (before after : List ChatMessage) : Prop :=
  after.length = before.length ∧ ∀ i, authors i ≠ u → after[i]? = before[i]?

/-- An edit or a deletion would not leave a message as it is. -/
def Alters (estEdit : Bool) (t : Option (Option Text)) (m : ChatMessage) : Prop :=
  if estEdit then ∃ t', t = some t' ∧ (m.text ≠ t'.getD m.text ∨ m.editedAt ≠ some now)
  else m.text ≠ [] ∨ m.deletedForEveryone = false

/-- The message a control is about was written by the account `u`, or is on the other
side, or would stay as it is. -/
def TargetsOwn (authors : Nat → Text) (u : Text) (ms : List ChatMessage) : Prop :=
  ∀ json cible i m,
    decodeCharge P texte
      (if startsWith texte prefixeEdit then prefixeEdit else prefixeSuppr) = some json →
    (field json "id").asString? = some (some cible) → FirstWithId cible ms i m →
    m.mine = deMoi → Alters now (startsWith texte prefixeEdit) (field json "t").asString? m →
    authors i = u

theorem alters_iff (estEdit : Bool) (t : Option (Option Text)) (m : ChatMessage) :
    Alters now estEdit t m ↔ ∃ m', editer now estEdit t m = some m' ∧ m' ≠ m := by
  obtain ⟨text, mine, sentAt, id, replyToId, replyToText, replyToMine, attachment, pending,
    delivered, editedAt, deleted, readByPeer, readAckSent, systeme, expiresAt, author, failed,
    reactions⟩ := m
  cases estEdit with
  | true =>
    cases t with
    | none => simp [Alters, editer]
    | some t => simp [Alters, editer, imp_iff_not_or, eq_comm]
  | false => cases deleted <;> simp [Alters, editer, eq_comm]

theorem leavesOthers_refl (authors : Nat → Text) (u : Text) (ms : List ChatMessage) :
    LeavesOthers authors u ms ms := ⟨rfl, fun _ _ => rfl⟩

/-- One message was put in the place of another. -/
theorem leavesOthers_set (authors : Nat → Text) (u : Text) {ms : List ChatMessage} {i : Nat}
    {m m' : ChatMessage} (hget : ms[i]? = some m) :
    LeavesOthers authors u ms (ms.set i m') ↔ (m' ≠ m → authors i = u) := by
  have hlt : i < ms.length := (List.getElem?_eq_some_iff.mp hget).1
  constructor
  · intro ⟨_, hothers⟩ hne
    by_contra hauthor
    have heq := hothers i hauthor
    rw [List.getElem?_set_self hlt, hget] at heq
    exact hne (Option.some.inj heq)
  · intro hown
    refine ⟨List.length_set, fun j hj => ?_⟩
    by_cases hij : i = j
    · subst hij
      have hsame : m' = m := by_contra fun hne => hj (hown hne)
      rw [List.getElem?_set_self hlt, hget, hsame]
    · rw [List.getElem?_set_ne hij]

variable (conv : Text) (s : State E)

theorem targetsOwn_iff (authors : Nat → Text) (u : Text) (ms : List ChatMessage) :
    TargetsOwn P now texte deMoi authors u ms ↔
      ∀ cible t, editionLue P texte = some (cible, t) → ∀ i m, FirstWithId cible ms i m →
        m.mine = deMoi → Alters now (startsWith texte prefixeEdit) t m → authors i = u := by
  constructor
  · intro h cible t hlue i m
    obtain ⟨json, hdecode, hid, rfl⟩ := (editionLue_eq_some_iff P texte).mp hlue
    exact h json cible i m hdecode hid
  · intro h json cible i m hdecode hid
    exact h cible _ ((editionLue_eq_some_iff P texte).mpr ⟨json, hdecode, hid, rfl⟩) i m

/-- Edits and deletions write to no other conversation. -/
theorem messagesIn_editerOuSupprimer_ne {c : Text} (hc : c ≠ conv) :
    ((editerOuSupprimer P now conv texte deMoi s).getD s).messagesIn c = s.messagesIn c := by
  rw [editerOuSupprimer_getD]
  split
  · rw [messagesIn_modifier, if_neg hc]
  · rfl

/-- What an edit or a deletion makes of the thread of its conversation. -/
theorem leavesOthers_editerOuSupprimer (authors : Nat → Text) (u : Text) :
    LeavesOthers authors u (s.messagesIn conv)
      (((editerOuSupprimer P now conv texte deMoi s).getD s).messagesIn conv) ↔
      TargetsOwn P now texte deMoi authors u (s.messagesIn conv) := by
  rw [editerOuSupprimer_getD, targetsOwn_iff]
  cases editionLue P texte with
  | none =>
    refine iff_of_true (leavesOthers_refl authors u _) ?_
    rintro _ _ ⟨⟩
  | some lue =>
    obtain ⟨cible, t⟩ := lue
    rw [forall_eq_some_pair]
    dsimp only
    rw [messagesIn_modifier, if_pos rfl]
    rcases firstWithId_or cible (s.messagesIn conv) with ⟨i, m, hfirst⟩ | hnone
    · rw [modifierPremier_of_first hfirst]
      have hone : (∀ i m, FirstWithId cible (s.messagesIn conv) i m → m.mine = deMoi →
            Alters now (startsWith texte prefixeEdit) t m → authors i = u) ↔
          (m.mine = deMoi → Alters now (startsWith texte prefixeEdit) t m → authors i = u) := by
        refine ⟨fun h => h i m hfirst, fun h j m' hfirst' => ?_⟩
        obtain ⟨rfl, rfl⟩ := hfirst.unique hfirst'
        exact h
      rw [hone]
      by_cases hside : m.mine = deMoi
      · rw [if_neg (not_not_intro hside)]
        cases hedit : editer now (startsWith texte prefixeEdit) t m with
        | none => simp [alters_iff, hedit, leavesOthers_refl]
        | some m' => simp [alters_iff, hedit, hside, leavesOthers_set authors u hfirst.get]
      · simp [hside, leavesOthers_refl]
    · rw [modifierPremier_of_none hnone]
      refine iff_of_true (leavesOthers_refl authors u _) ?_
      intro i m hfirst
      exact absurd hfirst.id (hnone m (List.mem_of_getElem? hfirst.get))

/-- With two accounts and true flags a control only reaches the messages of its side,
which are its author's. -/
theorem targetsOwn_of_direct (authors : Nat → Text) (me peer : Text) (ms : List ChatMessage)
    (hauthors : ∀ i m, ms[i]? = some m → authors i = if m.mine then me else peer) :
    TargetsOwn P now texte deMoi authors (if deMoi then me else peer) ms := by
  intro json cible i m hdecode hid hfirst hside halters
  rw [hauthors i m hfirst.get, hside]

variable (device : Text) (reacteur : Option Text)

/-- An edit or a deletion leaves the messages of every account but its author's, and
every other conversation, exactly if the message it names is its author's. -/
theorem editOrDelete_leavesOthers (authors : Nat → Text) (u : Text)
    (h : startsWith texte prefixeEdit = true ∨ startsWith texte prefixeSuppr = true) :
    (LeavesOthers authors u (s.messagesIn conv)
        ((appliquerControle P now conv texte deMoi device reacteur s).messagesIn conv) ∧
      ∀ c, c ≠ conv →
        (appliquerControle P now conv texte deMoi device reacteur s).messagesIn c =
          s.messagesIn c) ↔
      TargetsOwn P now texte deMoi authors u (s.messagesIn conv) := by
  rw [appliquerControle_editerOuSupprimer s P now conv texte deMoi device reacteur h,
    leavesOthers_editerOuSupprimer]
  constructor
  · exact fun hboth => hboth.1
  · exact fun hown =>
      ⟨hown, fun c hc => messagesIn_editerOuSupprimer_ne P now texte deMoi conv s hc⟩

/-! ## A group of three -/

/-- An edit of the message `i1`, as it is sent. -/
def editOfI1 : Text := text "__zia_edit__:\x7b\"id\":\"i1\",\"t\":\"non\"\x7d"

def editScript : Script where
  json := [(text "\x7b\"id\":\"i1\",\"t\":\"non\"\x7d",
    .obj [(text "id", .str (text "i1")), (text "t", .str (text "non"))])]
  base64 := []
  opened := []

/-- The group of me, Bob and Carol, with one message of Bob's. -/
def groupThread : State Unit :=
  (loggedIn (text "me") (text "moi")).putConv (text "g")
    { Conversation.new (text "g") (text "groupe") 0 with
      isGroup := true
      messages := [{ ChatMessage.new (text "oui") false 0 with
        id := some (text "i1")
        author := some (text "bob") }] }

/-- Carol's edit changes Bob's message. -/
theorem carolsEdit_changesBobs :
    ¬ (LeavesOthers (fun _ => text "bob") (text "carol") (groupThread.messagesIn (text "g"))
        ((appliquerControle (scripted editScript) 1 (text "g") editOfI1 false (text "carol-1")
          (some (text "carol")) groupThread).messagesIn (text "g")) ∧
      ∀ c, c ≠ text "g" →
        (appliquerControle (scripted editScript) 1 (text "g") editOfI1 false (text "carol-1")
          (some (text "carol")) groupThread).messagesIn c = groupThread.messagesIn c) := by
  intro ⟨⟨_, hothers⟩, _⟩
  have hbob := hothers 0 (by decide)
  revert hbob
  decide +kernel

/-- Bob may edit it. -/
theorem bobsEdit_leavesOthers :
    LeavesOthers (fun _ => text "bob") (text "bob") (groupThread.messagesIn (text "g"))
        ((appliquerControle (scripted editScript) 1 (text "g") editOfI1 false (text "bob-1")
          (some (text "bob")) groupThread).messagesIn (text "g")) ∧
      ∀ c, c ≠ text "g" →
        (appliquerControle (scripted editScript) 1 (text "g") editOfI1 false (text "bob-1")
          (some (text "bob")) groupThread).messagesIn c = groupThread.messagesIn c :=
  (editOrDelete_leavesOthers (scripted editScript) 1 editOfI1 false (text "g") groupThread
    (text "bob-1") (some (text "bob")) (fun _ => text "bob") (text "bob")
    (.inl (by decide +kernel))).mpr fun _ _ _ _ _ _ _ _ _ => rfl

end ZiaCrypte.Inbox
