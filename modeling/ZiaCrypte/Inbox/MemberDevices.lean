import ZiaCrypte.Inbox.SharedThread
import ZiaCrypte.Inbox.WireFormat
import ZiaCrypte.Inbox.Operations
import ZiaCrypte.Inbox.ControlFrame

/-!
# The devices of the members

What a device sends for an act and what it does to its own thread, and what another device
does when that arrives, are the same change of the same message, each seen from its account.
-/
namespace ZiaCrypte.Inbox

open ZiaCrypte.Lib ZiaCrypte.Engine

variable {E : Type} {double : Text → Option Int} {P : Platform E}

/-! ## What is sent -/

/-- The contents that an act travels in. -/
def Acte.contenu : Acte → Contenu
  | .message id texte attachment replyTo => ⟨texte, attachment, some id, replyTo⟩
  | .edition cible texte => ⟨prefixeEdit ++
      jsonEncode (.obj [(text "id", .str cible), (text "t", .str texte)]), none, none, none⟩
  | .suppression cible =>
      ⟨prefixeSuppr ++ jsonEncode (.obj [(text "id", .str cible)]), none, none, none⟩
  | .reaction cible emoji pose => ⟨prefixeReaction ++ jsonEncode (.obj
      [(text "id", .str cible), (text "e", .str emoji), (text "on", .bool pose)]),
        none, none, none⟩

namespace State

/-- What `editMessage` sends, unless it returns at once. -/
def edition? (s : State E) (conv : Text) (i : Nat) (nouveauTexte : Text) : Option Acte :=
  (s.messagesIn conv)[i]?.bind fun m => m.id.bind fun id =>
    if m.mine = false ∨ trim nouveauTexte = [] ∨ trim nouveauTexte = m.text then none
    else some (.edition id (trim nouveauTexte))

/-- What `deleteForEveryone` sends. -/
def suppression? (s : State E) (conv : Text) (i : Nat) : Option Acte :=
  (s.messagesIn conv)[i]?.bind fun m => m.id.bind fun id =>
    if m.mine = false then none else some (.suppression id)

/-- What `reagir` sends. -/
def reaction? (s : State E) (conv : Text) (i : Nat) (emoji : Text) : Option Acte :=
  s.userId.bind fun moi =>
    if (s.active.bind s.conv?).any (·.isChannel) then none
    else (s.messagesIn conv)[i]?.bind fun m => m.id.map fun id =>
      .reaction id emoji (!((m.reactions.get? emoji).getD []).contains moi)

end State

/-- A text that is shown where it is decrypted. -/
def ordinaire (texte : Text) : Bool :=
  !estControle texte && !estSync texte && !estAnnonceInterne texte

/-! ## What is shown -/

/-- What a device shows of a message. -/
def ChatMessage.corps (m : ChatMessage) : Corps where
  texte := m.text
  supprime := m.deletedForEveryone
  attachment := m.attachment
  replyToId := m.replyToId
  replyToText := m.replyToText
  reactions := fun emoji u => u ∈ reactors m emoji

/-- The side a message stands on, and its contents, under its id. -/
def etiquette (m : ChatMessage) : Option (Text × Bool × Corps) :=
  m.id.map fun id => (id, m.mine, m.corps)

def etiquettes (ms : List ChatMessage) : List (Text × Bool × Corps) := ms.filterMap etiquette

@[simp] theorem etiquettes_append (ms ms' : List ChatMessage) :
    etiquettes (ms ++ ms') = etiquettes ms ++ etiquettes ms' := List.filterMap_append

/-- The thread of an account shows what was taken in, each message once. -/
structure Montre (moi : Text) (ms : List ChatMessage) (f : Fil) : Prop where
  ids : ((etiquettes ms).map (·.1)).Nodup
  montre : ∀ id, (etiquettes ms).lookup id =
    (f id).map fun v => (decide (v.auteur = moi), v.corps)

/-- The message of an id. -/
def premier (ms : List ChatMessage) (id : Text) : Option ChatMessage :=
  ms.find? fun m => decide (m.id = some id)

theorem lookup_etiquettes (ms : List ChatMessage) (id : Text) :
    (etiquettes ms).lookup id = (premier ms id).map fun m => (m.mine, m.corps) := by
  induction ms with
  | nil => rfl
  | cons m ms ih =>
    cases hid : m.id with
    | none =>
      have hnone : etiquette m = none := by rw [etiquette, hid]; rfl
      rw [etiquettes, List.filterMap_cons_none hnone, premier,
        List.find?_cons_of_neg (by simp [hid])]
      exact ih
    | some id' =>
      have hsome : etiquette m = some (id', m.mine, m.corps) := by rw [etiquette, hid]; rfl
      rw [etiquettes, List.filterMap_cons_some hsome, premier, List.lookup_cons]
      by_cases heq : id = id'
      · subst heq
        rw [List.find?_cons_of_pos (by simp [hid]), beq_self_eq_true]
        rfl
      · rw [List.find?_cons_of_neg (by simpa [hid] using fun h => heq h.symm),
          beq_eq_false_iff_ne.mpr heq]
        exact ih

/-! ## One message is changed -/

/-- What an act makes of a message on a device, `deMoi` where it is of its account. -/
def Acte.surMessage (now : Int) (deMoi : Bool) (qui : Text) :
    Acte → ChatMessage → Option ChatMessage
  | .message _ _ _ _, _ => none
  | .edition _ t, m => if m.mine ≠ deMoi then none else editer now true (some (some t)) m
  | .suppression _, m => if m.mine ≠ deMoi then none else editer now false (some none) m
  | .reaction _ emoji pose, m => some (reagir emoji qui pose m)

theorem corps_reagir (emoji qui : Text) (pose : Bool) (m : ChatMessage) :
    (reagir emoji qui pose m).corps = { m.corps with reactions := fun e u =>
      if e = emoji ∧ u = qui then pose = true else u ∈ reactors m e } := by
  have hrest : ∃ reactions, reagir emoji qui pose m = { m with reactions := reactions } := by
    unfold reagir
    split <;> exact ⟨_, rfl⟩
  have hreactions : ∀ e u, (u ∈ reactors (reagir emoji qui pose m) e) =
      if e = emoji ∧ u = qui then pose = true else u ∈ reactors m e := fun e u => by
    rw [mem_reactors_reagir]
  obtain ⟨reactions, heq⟩ := hrest
  have hfun := funext fun e => funext fun u => hreactions e u
  rw [heq] at hfun ⊢
  exact Corps.ext rfl rfl rfl rfl rfl hfun

/-- The message keeps its id and its side. -/
theorem surMessage_getD (now : Int) (deMoi : Bool) (qui : Text) {acte : Acte}
    (hacte : acte.estMessage = false) (m : ChatMessage) :
    ((acte.surMessage now deMoi qui m).getD m).id = m.id ∧
      ((acte.surMessage now deMoi qui m).getD m).mine = m.mine ∧
      ((acte.surMessage now deMoi qui m).getD m).corps =
        if acte.estRetouche = true ∧ m.mine ≠ deMoi then m.corps else m.corps.apres qui acte := by
  cases acte with
  | message => cases hacte
  | edition cible t =>
    by_cases hmine : m.mine ≠ deMoi
    · rw [Acte.surMessage, if_pos hmine, if_pos ⟨rfl, hmine⟩]
      exact ⟨rfl, rfl, rfl⟩
    · rw [Acte.surMessage, if_neg hmine, if_neg fun h => hmine h.2]
      exact ⟨rfl, rfl, rfl⟩
  | suppression cible =>
    by_cases hmine : m.mine ≠ deMoi
    · rw [Acte.surMessage, if_pos hmine, if_pos ⟨rfl, hmine⟩]
      exact ⟨rfl, rfl, rfl⟩
    · rw [Acte.surMessage, if_neg hmine, if_neg fun h => hmine h.2]
      exact ⟨rfl, rfl, rfl⟩
  | reaction cible emoji pose =>
    rw [if_neg fun h => by cases h.1]
    refine ⟨?_, ?_, corps_reagir emoji qui pose m⟩ <;>
      simp only [Acte.surMessage, Option.getD_some, reagir] <;> split <;> rfl

variable {cible : Text} {g : ChatMessage → Option ChatMessage} {ms : List ChatMessage}

theorem premier_modifierPremier (hg : ∀ m, ((g m).getD m).id = m.id) (id : Text) :
    premier ((modifierPremier cible g ms).getD ms) id =
      if id = cible then (premier ms id).map fun m => (g m).getD m else premier ms id := by
  induction ms with
  | nil => split <;> rfl
  | cons m ms ih =>
    by_cases hm : m.id = some cible
    · have hhead : (modifierPremier cible g (m :: ms)).getD (m :: ms) = (g m).getD m :: ms := by
        rw [modifierPremier, if_pos hm]
        cases g m <;> rfl
      rw [hhead]
      by_cases hid : id = cible
      · subst hid
        rw [if_pos rfl, premier, premier, List.find?_cons_of_pos (by simp [hg, hm]),
          List.find?_cons_of_pos (by simp [hm])]
        rfl
      · have hne : m.id ≠ some id := fun h => hid (Option.some.inj (h.symm.trans hm))
        rw [if_neg hid, premier, premier, List.find?_cons_of_neg (by simp [hg, hne]),
          List.find?_cons_of_neg (by simp [hne])]
    · have htail : (modifierPremier cible g (m :: ms)).getD (m :: ms) =
          m :: (modifierPremier cible g ms).getD ms := by
        rw [modifierPremier, if_neg hm]
        cases modifierPremier cible g ms <;> rfl
      rw [htail]
      by_cases hid : m.id = some id
      · have hne : id ≠ cible := by
          rintro rfl
          exact hm hid
        rw [if_neg hne, premier, premier, List.find?_cons_of_pos (by simp [hid]),
          List.find?_cons_of_pos (by simp [hid])]
      · simp only [premier] at ih ⊢
        rw [List.find?_cons_of_neg (by simp [hid]), List.find?_cons_of_neg (by simp [hid])]
        exact ih

theorem ids_modifierPremier (hg : ∀ m, ((g m).getD m).id = m.id) :
    ((modifierPremier cible g ms).getD ms).filterMap (·.id) = ms.filterMap (·.id) := by
  induction ms with
  | nil => rfl
  | cons m ms ih =>
    by_cases hm : m.id = some cible
    · have hhead : (modifierPremier cible g (m :: ms)).getD (m :: ms) = (g m).getD m :: ms := by
        rw [modifierPremier, if_pos hm]
        cases g m <;> rfl
      rw [hhead, List.filterMap_cons, List.filterMap_cons, hg]
    · have htail : (modifierPremier cible g (m :: ms)).getD (m :: ms) =
          m :: (modifierPremier cible g ms).getD ms := by
        rw [modifierPremier, if_neg hm]
        cases modifierPremier cible g ms <;> rfl
      rw [htail, List.filterMap_cons, List.filterMap_cons, ih]

theorem etiquettes_ids (ms : List ChatMessage) :
    (etiquettes ms).map (·.1) = ms.filterMap (·.id) := by
  rw [etiquettes, List.map_filterMap]
  congr 1
  funext m
  rw [etiquette]
  cases m.id <;> rfl

/-! ## What the thread shows, act by act -/

variable {moi : Text} {f : Fil} {d : Fait}

/-- A message is composed. -/
theorem Montre.message (h : Montre moi ms f) {id texte : Text}
    {attachment : Option AttachmentRef} {replyTo : Option ChatMessage}
    (hacte : d.acte = .message id texte attachment replyTo) (hid : f id = none) {m : ChatMessage}
    (hm : m.id = some id) (hmine : m.mine = decide (d.auteur.userId = moi))
    (hcorps : m.corps = .nouveau texte attachment replyTo) :
    Montre moi (ms ++ [m]) (f.recoit d) := by
  have hetiquette : etiquettes [m] = [(id, m.mine, m.corps)] := by
    rw [etiquettes, List.filterMap_cons_some (by rw [etiquette, hm]; rfl)]
    rfl
  have habsent : (etiquettes ms).lookup id = none := by rw [h.montre, hid]; rfl
  have hsujet : d.acte.sujet = id := by rw [hacte]; rfl
  have hsur : d.sur (f id) = some ⟨d.auteur.userId, .nouveau texte attachment replyTo⟩ := by
    rw [Fait.sur, hacte]
  refine ⟨?_, fun id' => ?_⟩
  · rw [etiquettes_append, hetiquette, List.map_append, List.map_cons, List.map_nil,
      List.nodup_append]
    refine ⟨h.ids, List.nodup_singleton id, fun a ha b hb hab => ?_⟩
    obtain rfl := List.mem_singleton.mp hb
    subst hab
    obtain ⟨e, he, rfl⟩ := List.mem_map.mp ha
    have hne := List.lookup_eq_none_iff.mp habsent e he
    rw [bne_self_eq_false] at hne
    cases hne
  · rw [etiquettes_append, hetiquette, List.lookup_append, Fil.recoit, hsujet]
    by_cases heq : id' = id
    · subst heq
      rw [habsent, if_pos rfl, hsur, List.lookup_cons, beq_self_eq_true, hmine, hcorps]
      rfl
    · rw [if_neg heq, List.lookup_cons, beq_eq_false_iff_ne.mpr heq, h.montre]
      cases f id' <;> rfl

/-- A message that is there is changed, as its author's device does it and as every other
does. -/
theorem Montre.modifie (h : Montre moi ms f) (hacte : d.acte.estMessage = false) (now : Int)
    (hauteur : ∀ v, f d.acte.sujet = some v → d.acte.estRetouche = true →
      v.auteur = d.auteur.userId) :
    Montre moi ((modifierPremier d.acte.sujet
      (d.acte.surMessage now (decide (d.auteur.userId = moi)) d.auteur.userId) ms).getD ms)
      (f.recoit d) := by
  have hspec := surMessage_getD now (decide (d.auteur.userId = moi)) d.auteur.userId hacte
  refine ⟨?_, fun id => ?_⟩
  · rw [etiquettes_ids, ids_modifierPremier fun m => (hspec m).1, ← etiquettes_ids]
    exact h.ids
  · rw [lookup_etiquettes, premier_modifierPremier fun m => (hspec m).1, Fil.recoit]
    have hold := (lookup_etiquettes ms id).symm.trans (h.montre id)
    by_cases hid : id = d.acte.sujet
    · rw [if_pos hid, if_pos hid, Fait.sur_of_not_message hacte]
      cases hm : premier ms id with
      | none =>
        rw [hm] at hold
        rw [Option.map_eq_none_iff.mp hold.symm]
        rfl
      | some m =>
        rw [hm] at hold
        obtain ⟨v, hv, heq⟩ := Option.map_eq_some_iff.mp hold.symm
        obtain ⟨hmine, hcorps⟩ := Prod.mk.inj heq
        have hrefuse : ¬ (d.acte.estRetouche = true ∧ v.auteur ≠ d.auteur.userId) := fun hr =>
          hr.2 (hauteur v (hid ▸ hv) hr.1)
        have hrefuse' : ¬ (d.acte.estRetouche = true ∧
            m.mine ≠ decide (d.auteur.userId = moi)) := fun hr => by
          rw [← hmine, hauteur v (hid ▸ hv) hr.1] at hr
          exact hr.2 rfl
        rw [hv, Option.map_some, Option.map_some, Option.map_some, Option.map_some,
          MessagePartage.apres_of hrefuse, (hspec m).2.1, (hspec m).2.2, if_neg hrefuse', ← hmine,
          ← hcorps]
    · rw [if_neg hid, if_neg hid]
      exact hold

/-- What says nothing of a message that has an id. -/
theorem Montre.paisible (h : Montre moi ms f) {ms' : List ChatMessage}
    (heq : etiquettes ms' = etiquettes ms) : Montre moi ms' f :=
  ⟨heq ▸ h.ids, heq ▸ h.montre⟩

/-! ## What a device does -/

/-- The account is what it was, and the thread is `ms`. -/
structure Devient (conv : Text) (s s' : State E) (ms : List ChatMessage) : Prop where
  userId : s'.userId = s.userId
  username : s'.username = s.username
  messages : s'.messagesIn conv = ms

/-- What taking in an act makes of a thread. -/
inductive Change (moi : Text) (ms : List ChatMessage) (d : Fait) : List ChatMessage → Prop where
  | message {id texte : Text} {attachment : Option AttachmentRef} {replyTo : Option ChatMessage}
      {m : ChatMessage} (acte : d.acte = .message id texte attachment replyTo)
      (id_eq : m.id = some id) (mine : m.mine = decide (d.auteur.userId = moi))
      (corps : m.corps = .nouveau texte attachment replyTo) : Change moi ms d (ms ++ [m])
  | modifie (acte : d.acte.estMessage = false) (now : Int) :
      Change moi ms d ((modifierPremier d.acte.sujet
        (d.acte.surMessage now (decide (d.auteur.userId = moi)) d.auteur.userId) ms).getD ms)

/-- A thread shows one act more. -/
theorem Montre.change (h : Montre moi ms f) {ms' : List ChatMessage} (hchange : Change moi ms d ms')
    (hnouveau : d.acte.estMessage = true → f d.acte.sujet = none)
    (hauteur : ∀ v, f d.acte.sujet = some v → d.acte.estRetouche = true →
      v.auteur = d.auteur.userId) : Montre moi ms' (f.recoit d) := by
  cases hchange with
  | message hacte hid hmine hcorps =>
    rw [hacte] at hnouveau
    exact h.message hacte (hnouveau rfl) hid hmine hcorps
  | modifie hacte now => exact h.modifie hacte now hauteur

variable {conv : Text} {s : State E}

theorem modifier_devient (cible : Text) (g : ChatMessage → Option ChatMessage) :
    Devient conv s (s.modifier conv cible g)
      ((modifierPremier cible g (s.messagesIn conv)).getD (s.messagesIn conv)) := by
  have hmessages := messagesIn_modifier s conv conv cible g
  rw [if_pos rfl] at hmessages
  refine ⟨?_, ?_, hmessages⟩
  · unfold State.modifier
    split
    · rfl
    · split
      · rfl
      · unfold State.saveHistory
        split <;> rfl
  · unfold State.modifier
    split
    · rfl
    · split
      · rfl
      · unfold State.saveHistory
        split <;> rfl

theorem firstWithId_of_nodup (hids : ((etiquettes ms).map (·.1)).Nodup) {i : Nat}
    {m : ChatMessage} (hget : ms[i]? = some m) (hid : m.id = some cible) :
    FirstWithId cible ms i m := by
  refine ⟨hget, hid, fun j m' hj hm' hid' => ?_⟩
  rw [etiquettes_ids] at hids
  obtain ⟨hi, rfl⟩ := List.getElem?_eq_some_iff.mp hget
  obtain ⟨hj', rfl⟩ := List.getElem?_eq_some_iff.mp hm'
  have hpair := (List.pairwise_filterMap.mp hids)
  have hne := List.pairwise_iff_getElem.mp hpair j i hj' hi hj cible hid' cible hid
  exact hne rfl

theorem premier_of_first {i : Nat} {m : ChatMessage} (h : FirstWithId cible ms i m) :
    premier ms cible = some m := by
  rw [premier, List.find?_eq_some_iff_getElem]
  obtain ⟨hi, hget⟩ := List.getElem?_eq_some_iff.mp h.get
  refine ⟨by simp [h.id], i, hi, hget, fun j hj => ?_⟩
  have hlt : j < ms.length := Nat.lt_trans hj hi
  simpa using h.first j ms[j] hj (List.getElem?_eq_getElem hlt)

/-- The message the user points at is the one of its id. -/
theorem surMessage_eq_modifier (hactive : s.active = some conv) {i : Nat} {m : ChatMessage}
    (hfirst : FirstWithId cible (s.messagesIn conv) i m) {g' : ChatMessage → Option ChatMessage}
    (hg : g' m = g m) : s.surMessage conv i g' = s.modifier conv cible g := by
  cases hc : s.conv? conv with
  | none =>
    have hnone : s.messagesIn conv = [] := by rw [State.messagesIn, hc]; rfl
    rw [hnone] at hfirst
    cases hfirst.get
  | some c =>
    rw [messagesIn_of_conv? hc] at hfirst
    simp only [State.surMessage, State.modifier, hactive, hc, hfirst.get, Option.bind_some,
      modifierPremier_of_first hfirst, hg]
    cases g m <;> rfl

/-! ## The user of the device -/

section Local

variable (hactive : s.active = some conv)
  (hids : ((etiquettes (s.messagesIn conv)).map (·.1)).Nodup) {i : Nat} {acte : Acte}
include hactive hids

/-- The message that is pointed at, where `editMessage` sends something. -/
theorem editMessage_eq (now : Int) (qui : Text) {nouveauTexte : Text}
    (h : s.edition? conv i nouveauTexte = some acte) :
    s.editMessage now conv i nouveauTexte =
        s.modifier conv acte.sujet (acte.surMessage now true qui) ∧
      acte.estMessage = false ∧
        ∃ corps, (etiquettes (s.messagesIn conv)).lookup acte.sujet = some (true, corps) := by
  obtain ⟨m, hget, h⟩ := Option.bind_eq_some_iff.mp h
  obtain ⟨id, hid, h⟩ := Option.bind_eq_some_iff.mp h
  split at h
  · cases h
  · rename_i hgo
    obtain rfl := Option.some.inj h
    have hmine : m.mine = true := by
      by_contra hother
      exact hgo (.inl (Bool.not_eq_true _ ▸ hother))
    have hfirst := firstWithId_of_nodup hids hget hid
    refine ⟨surMessage_eq_modifier hactive hfirst ?_, rfl, m.corps, ?_⟩
    · dsimp only
      rw [if_neg (by simp only [hid, reduceCtorEq, false_or]; exact hgo), Acte.surMessage,
        if_neg (by rw [hmine]; exact fun hne => hne rfl)]
      rfl
    · change (etiquettes (s.messagesIn conv)).lookup id = _
      rw [lookup_etiquettes, premier_of_first hfirst, Option.map_some, hmine]

theorem deleteForEveryone_eq (now : Int) (qui : Text)
    (h : s.suppression? conv i = some acte) :
    s.deleteForEveryone conv i = s.modifier conv acte.sujet (acte.surMessage now true qui) ∧
      acte.estMessage = false ∧
        ∃ corps, (etiquettes (s.messagesIn conv)).lookup acte.sujet = some (true, corps) := by
  obtain ⟨m, hget, h⟩ := Option.bind_eq_some_iff.mp h
  obtain ⟨id, hid, h⟩ := Option.bind_eq_some_iff.mp h
  split at h
  · cases h
  · rename_i hgo
    obtain rfl := Option.some.inj h
    have hmine : m.mine = true := by simpa using hgo
    have hfirst := firstWithId_of_nodup hids hget hid
    refine ⟨surMessage_eq_modifier hactive hfirst ?_, rfl, m.corps, ?_⟩
    · rw [if_neg (by simp [hid, hmine]), Acte.surMessage,
        if_neg (by rw [hmine]; exact fun hne => hne rfl)]
      rfl
    · change (etiquettes (s.messagesIn conv)).lookup id = _
      rw [lookup_etiquettes, premier_of_first hfirst, Option.map_some, hmine]

theorem reagir_eq (now : Int) {qui emoji : Text} (huser : s.userId = some qui)
    (h : s.reaction? conv i emoji = some acte) :
    s.reagir conv i emoji = s.modifier conv acte.sujet (acte.surMessage now true qui) ∧
      acte.estMessage = false ∧ acte.estRetouche = false := by
  rw [State.reaction?, huser, Option.bind_some] at h
  split at h
  · cases h
  · rename_i hchannel
    obtain ⟨m, hget, h⟩ := Option.bind_eq_some_iff.mp h
    obtain ⟨id, hid, rfl⟩ := Option.map_eq_some_iff.mp h
    refine ⟨?_, rfl, rfl⟩
    have hfirst := firstWithId_of_nodup hids hget hid
    simp only [State.reagir, huser]
    rw [if_neg hchannel]
    refine surMessage_eq_modifier hactive hfirst ?_
    rw [if_neg (by rw [hid]; exact Option.some_ne_none id)]
    rfl

end Local

/-- A message the user composes is added to the thread, sent or not. -/
theorem sendPayload_devient {now : Int} {texte : Text} (attachment : Option AttachmentRef)
    (citation : Option ChatMessage) (envoi : IssueEnvoi) {c : Conversation}
    (hactive : s.activeConversationId = some conv) (hc : s.conv? conv = some c)
    (hready : c.ready = true) (hannonce : estAnnonceInterne texte = false)
    (hdate : (echeance now c.ttlSecondes).isSome) :
    ∃ m : ChatMessage, m.id = some envoi.messageId ∧ m.mine = true ∧
      m.corps = .nouveau texte attachment citation ∧
      Devient conv s (sendPayload P now texte attachment citation envoi s)
        (s.messagesIn conv ++ [m]) := by
  obtain ⟨expiresAt, hdate⟩ := Option.isSome_iff_exists.mp hdate
  obtain ⟨m, hm, hid, hmine, hcorps⟩ : ∃ m : ChatMessage,
      sentMessage now c texte attachment citation envoi = some m ∧ m.id = some envoi.messageId ∧
        m.mine = true ∧ m.corps = .nouveau texte attachment citation := by
    rw [sentMessage, hdate]
    refine ⟨_, rfl, rfl, rfl, Corps.ext rfl rfl rfl rfl rfl ?_⟩
    funext emoji u
    exact eq_false List.not_mem_nil
  refine ⟨m, hid, hmine, hcorps, ?_⟩
  have hmessages : ∀ s' : State E, (∀ id, s'.conv? id = (s.putConv conv { c with
        messages := c.messages ++ [m], lastActivity := now }).conv? id) →
      s'.messagesIn conv = s.messagesIn conv ++ [m] := fun s' hs' => by
    rw [messagesIn_of_conv? hc, State.messagesIn, hs', conv?_putConv, if_pos rfl]
    rfl
  simp only [sendPayload, hactive, hc, hready, Bool.not_true, Bool.false_eq_true, if_false,
    inscrire, hannonce, hm]
  split
  · exact ⟨rfl, rfl, hmessages _ fun _ => rfl⟩
  · obtain ⟨hconv, -⟩ := saved_frame (P := P) conv
      (s.putConv conv { c with messages := c.messages ++ [m], lastActivity := now })
    obtain ⟨outside, error, sess, hframe⟩ := saveEach_frame (P := P) conv
      (((((s.putConv conv { c with messages := c.messages ++ [m], lastActivity := now
        }).saveHistory conv).conv? conv).map (·.sessions.entries)).getD [])
      ((s.putConv conv { c with messages := c.messages ++ [m], lastActivity := now
        }).saveHistory conv)
    have hsaved : ∀ t : State E, (t.saveHistory conv).userId = t.userId ∧
        (t.saveHistory conv).username = t.username := fun t => by
      unfold State.saveHistory
      split <;> exact ⟨rfl, rfl⟩
    refine ⟨?_, ?_, hmessages _ hconv⟩
    · rw [saveSessions, hframe]
      exact (hsaved _).1
    · rw [saveSessions, hframe]
      exact (hsaved _).2

/-! ## Another device -/

/-- Who a message says it is from: the server names the account of an authenticated one, and
nobody for a sealed one. -/
structure VientDe (m : Incoming) (auteur moi : Membre) : Prop where
  userId : m.senderUserId.asString? = some (some auteur.userId)
  username : m.senderUsername.asString? = some (some auteur.username) ∨
    m.senderUsername.asString? = some none ∧ auteur.userId ≠ moi.userId

instance (m : Incoming) (auteur moi : Membre) : Decidable (VientDe m auteur moi) :=
  decidable_of_iff (m.senderUserId.asString? = some (some auteur.userId) ∧
    (m.senderUsername.asString? = some (some auteur.username) ∨
      m.senderUsername.asString? = some none ∧ auteur.userId ≠ moi.userId))
    ⟨fun h => ⟨h.1, h.2⟩, fun h => ⟨h.userId, h.username⟩⟩

/-- The side a message stands on is its author's. -/
theorem VientDe.deMoi {m : Incoming} {auteur compte : Membre} (h : VientDe m auteur compte)
    (hnoms : auteur.username = compte.username ↔ auteur.userId = compte.userId) :
    ∃ senderUsername, m.senderUsername.asString? = some senderUsername ∧
      decide (senderUsername = some compte.username) =
        decide (auteur.userId = compte.userId) := by
  rcases h.username with hname | ⟨hname, hother⟩
  · refine ⟨_, hname, ?_⟩
    rw [decide_eq_decide, Option.some_inj]
    exact hnoms
  · refine ⟨_, hname, ?_⟩
    rw [decide_eq_decide]
    exact iff_of_false (fun hnone => by cases hnone) hother

theorem startsWith_append (t prefixe : Text) : startsWith (prefixe ++ t) prefixe = true := by
  rw [startsWith, List.isPrefixOf_iff_prefix]
  exact List.prefix_append prefixe t

theorem estControle_of {t prefixe : Text} (h : startsWith t prefixe = true)
    (hmem : prefixe ∈ prefixesControle) : estControle t = true :=
  List.any_eq_true.mpr ⟨prefixe, hmem, h⟩

variable {now : Int} {device : Text} {m : Incoming} {senderUsername : Option Text}

/-- A control is applied, whoever sent it. -/
theorem dispatch_controle (h : DecodeursDart double P) {qui : Text} {contenu : Contenu}
    (hname : m.senderUsername.asString? = some senderUsername)
    (hqui : m.senderUserId.asString? = some (some qui))
    (hcontrole : estControle contenu.texte = true) :
    dispatch P now conv device (contenu.encode encodeursDart) m s =
      (appliquerControle P now conv contenu.texte (decide (senderUsername = s.username)) device
        (some qui) s, .skipped) := by
  have htext : (decodePayload P (contenu.encode encodeursDart)).text = contenu.texte := by
    rw [h.decodePayload]
    rfl
  simp only [dispatch, hname, hqui, htext, hcontrole, if_true]

/-- An act that is no message is applied to the message it is about. -/
theorem dispatch_acte (h : DecodeursDart double P) {auteur compte : Membre} {acte : Acte}
    (hacte : acte.estMessage = false) (hvient : VientDe m auteur compte)
    (hnoms : auteur.username = compte.username ↔ auteur.userId = compte.userId)
    (huserId : s.userId = some compte.userId) (husername : s.username = some compte.username) :
    dispatch P now conv device (acte.contenu.encode encodeursDart) m s =
      (s.modifier conv acte.sujet
        (acte.surMessage now (decide (auteur.userId = compte.userId)) auteur.userId),
        .skipped) := by
  obtain ⟨senderUsername, hname, hside⟩ := hvient.deMoi hnoms
  cases acte with
  | message => cases hacte
  | edition cible t =>
    have hstart := startsWith_append
      (jsonEncode (.obj [(text "id", .str cible), (text "t", .str t)])) prefixeEdit
    have hregulier : (Json.obj [(text "id", .str cible), (text "t", .str t)]).Regulier :=
      ⟨show (["id", "t"].map text).Nodup from by decide, trivial, trivial, trivial⟩
    have hlue : editionLue P (prefixeEdit ++
        jsonEncode (.obj [(text "id", .str cible), (text "t", .str t)])) =
          some (cible, some (some t)) := by
      rw [editionLue_eq_some_iff, if_pos hstart]
      exact ⟨_, h.decodeCharge prefixeEdit hregulier, rfl, rfl⟩
    rw [dispatch_controle h hname hvient.userId (estControle_of hstart (by decide)),
      Acte.contenu, appliquerControle_editerOuSupprimer _ _ _ _ _ _ _ _ (.inl hstart),
      editerOuSupprimer_getD, hlue]
    simp only [hstart, husername, hside]
    rfl
  | suppression cible =>
    have hstart := startsWith_append (jsonEncode (.obj [(text "id", .str cible)])) prefixeSuppr
    have hnot : startsWith (prefixeSuppr ++ jsonEncode (.obj [(text "id", .str cible)]))
        prefixeEdit = false :=
      startsWith_only hstart prefixeEdit (by decide) (by decide) (by decide)
    have hregulier : (Json.obj [(text "id", .str cible)]).Regulier :=
      ⟨show (["id"].map text).Nodup from by decide, trivial, trivial⟩
    have hlue : editionLue P (prefixeSuppr ++ jsonEncode (.obj [(text "id", .str cible)])) =
        some (cible, some none) := by
      rw [editionLue_eq_some_iff, if_neg (by rw [hnot]; exact Bool.false_ne_true)]
      exact ⟨_, h.decodeCharge prefixeSuppr hregulier, rfl, rfl⟩
    rw [dispatch_controle h hname hvient.userId (estControle_of hstart (by decide)),
      Acte.contenu, appliquerControle_editerOuSupprimer _ _ _ _ _ _ _ _ (.inr hstart),
      editerOuSupprimer_getD, hlue]
    simp only [hnot, husername, hside]
    rfl
  | reaction cible emoji pose =>
    have hstart := startsWith_append (jsonEncode (.obj
      [(text "id", .str cible), (text "e", .str emoji), (text "on", .bool pose)])) prefixeReaction
    have hregulier : (Json.obj
        [(text "id", .str cible), (text "e", .str emoji), (text "on", .bool pose)]).Regulier :=
      ⟨show (["id", "e", "on"].map text).Nodup from by decide, trivial, trivial, trivial, trivial⟩
    have hlue : reactionLue P (prefixeReaction ++ jsonEncode (.obj
        [(text "id", .str cible), (text "e", .str emoji), (text "on", .bool pose)])) =
          some (cible, emoji, pose) := by
      rw [reactionLue, h.decodeCharge prefixeReaction hregulier]
      rfl
    have hqui : reacteurDe (decide (auteur.userId = compte.userId)) (some auteur.userId) s =
        some auteur.userId := by
      rw [reacteurDe]
      split
      · rename_i hmine
        rw [huserId, of_decide_eq_true hmine]
      · rfl
    rw [dispatch_controle h hname hvient.userId (estControle_of hstart (by decide)),
      Acte.contenu, appliquerControle_reaction _ _ _ _ _ _ _ _ hstart, reaction_getD, husername,
      hside, hlue, hqui]
    rfl

/-- The contents of a message, as they are read. -/
def payloadRecu (id texte : Text) (attachment : Option AttachmentRef)
    (replyTo : Option ChatMessage) : Payload :=
  ⟨texte, attachment, some id, replyTo.bind (·.id),
    replyTo.map fun m => Sending.extrait m.text, replyTo.map (·.mine)⟩

/-- An ordinary text is a message of the thread. -/
theorem dispatch_ordinaire (h : DecodeursDart double P) {auteur compte : Membre}
    {id texte : Text} {attachment : Option AttachmentRef} {replyTo : Option ChatMessage}
    (hname : m.senderUsername.asString? = some senderUsername)
    (hside : decide (senderUsername = some compte.username) =
      decide (auteur.userId = compte.userId))
    (husername : s.username = some compte.username) (htexte : ordinaire texte = true) :
    dispatch P now conv device
        ((Acte.message id texte attachment replyTo).contenu.encode encodeursDart) m s =
      addReceived now conv (payloadRecu id texte attachment replyTo)
        (decide (auteur.userId = compte.userId)) senderUsername s := by
  simp only [ordinaire, Bool.and_eq_true, Bool.not_eq_true'] at htexte
  obtain ⟨⟨hcontrole, hsync⟩, hannonce⟩ := htexte
  have hrelu : decodePayload P ((Acte.message id texte attachment replyTo).contenu.encode
      encodeursDart) = payloadRecu id texte attachment replyTo := by
    rw [h.decodePayload]
    rfl
  have htext : (payloadRecu id texte attachment replyTo).text = texte := rfl
  simp only [dispatch, hname, hrelu, htext, hcontrole, hsync, hannonce, Bool.false_eq_true,
    if_false, husername, hside]

/-- What is added is the message, where the date is in range. -/
theorem addReceived_message (id texte : Text) (attachment : Option AttachmentRef)
    (replyTo : Option ChatMessage) (fromMyself : Bool) (senderUsername : Option Text)
    {c : Conversation} (hc : s.conv? conv = some c) (hdate : (echeance now c.ttlSecondes).isSome) :
    ∃ (s' : State E) (message : ChatMessage), addReceived now conv
        (payloadRecu id texte attachment replyTo) fromMyself senderUsername s =
          (s', .touched conv) ∧
      message.id = some id ∧ message.mine = fromMyself ∧
      message.corps = .nouveau texte attachment replyTo ∧
      Devient conv s s' (s.messagesIn conv ++ [message]) := by
  obtain ⟨expiresAt, hdate⟩ := Option.isSome_iff_exists.mp hdate
  obtain ⟨message, hmessage, hid, hmine, hcorps⟩ : ∃ message : ChatMessage,
      receivedMessage now c (payloadRecu id texte attachment replyTo) fromMyself senderUsername =
        some message ∧ message.id = some id ∧ message.mine = fromMyself ∧
      message.corps = .nouveau texte attachment replyTo := by
    rw [receivedMessage, hdate]
    refine ⟨_, rfl, rfl, rfl, Corps.ext rfl rfl rfl rfl rfl ?_⟩
    funext emoji u
    exact eq_false List.not_mem_nil
  simp only [addReceived, hc, hmessage]
  refine ⟨_, message, rfl, hid, hmine, hcorps, rfl, rfl, ?_⟩
  rw [messagesIn_putConv, if_pos rfl, messagesIn_of_conv? hc]

/-- A message is added to the thread, unless the device throws. -/
theorem dispatch_message (h : DecodeursDart double P) {auteur compte : Membre}
    {id texte : Text} {attachment : Option AttachmentRef} {replyTo : Option ChatMessage}
    (hvient : VientDe m auteur compte)
    (hnoms : auteur.username = compte.username ↔ auteur.userId = compte.userId)
    (husername : s.username = some compte.username) (htexte : ordinaire texte = true)
    {s' : State E} {recu : Received} (hrecu : recu ≠ .thrown)
    (hdispatch : dispatch P now conv device
      ((Acte.message id texte attachment replyTo).contenu.encode encodeursDart) m s = (s', recu)) :
    ∃ message : ChatMessage, message.id = some id ∧
      message.mine = decide (auteur.userId = compte.userId) ∧
      message.corps = .nouveau texte attachment replyTo ∧
      Devient conv s s' (s.messagesIn conv ++ [message]) := by
  obtain ⟨senderUsername, hname, hside⟩ := hvient.deMoi hnoms
  rw [dispatch_ordinaire h hname hside husername htexte] at hdispatch
  obtain ⟨c, hc, hdate⟩ : ∃ c, s.conv? conv = some c ∧ (echeance now c.ttlSecondes).isSome := by
    cases hc : s.conv? conv with
    | none =>
      simp only [addReceived, hc] at hdispatch
      exact absurd (Prod.mk.inj hdispatch).2.symm hrecu
    | some c =>
      refine ⟨c, rfl, Option.isSome_iff_ne_none.mpr fun hdate => hrecu ?_⟩
      simp only [addReceived, hc, receivedMessage, hdate, Option.bind_eq_bind,
        Option.bind_none] at hdispatch
      exact (Prod.mk.inj hdispatch).2.symm
  obtain ⟨s'', message, heq, hid, hmine, hcorps, hdevient⟩ := addReceived_message id texte
    attachment replyTo (decide (auteur.userId = compte.userId)) senderUsername hc hdate
  obtain ⟨rfl, -⟩ := Prod.mk.inj (heq.symm.trans hdispatch)
  exact ⟨message, hid, hmine, hcorps, hdevient⟩

end ZiaCrypte.Inbox
