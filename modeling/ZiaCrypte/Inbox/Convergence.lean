import ZiaCrypte.Inbox.MemberDevices
import ZiaCrypte.Lib.Run
import Mathlib.Data.List.Perm.Subperm

/-!
# The devices of a conversation

Every device changes its own thread at once and the others when the contents arrive, each in
an order of its own. Two devices that have taken in the same show the same, if they took in
what one account says of a message, and the message before it, the same way round.
-/
namespace ZiaCrypte.Inbox

open ZiaCrypte.Lib ZiaCrypte.Engine

variable {E : Type} {double : Text → Option Int} {P : Platform E} {conv : Text}

/-! ## What says nothing of a message -/

/-- Whatever was changed, the account is what it was, and so is what the thread shows. -/
structure Paisible (conv : Text) (s s' : State E) : Prop where
  userId : s'.userId = s.userId
  username : s'.username = s.username
  etiquettes : etiquettes (s'.messagesIn conv) = etiquettes (s.messagesIn conv)

namespace Paisible

variable {s s' s'' : State E}

theorem refl (s : State E) : Paisible conv s s := ⟨rfl, rfl, rfl⟩

theorem trans (h : Paisible conv s s') (h' : Paisible conv s' s'') : Paisible conv s s'' :=
  ⟨h'.userId.trans h.userId, h'.username.trans h.username, h'.etiquettes.trans h.etiquettes⟩

/-- What is kept beside the conversations. -/
theorem of_conversations (huserId : s'.userId = s.userId) (husername : s'.username = s.username)
    (h : s'.conversations = s.conversations) : Paisible conv s s' := by
  refine ⟨huserId, husername, ?_⟩
  rw [State.messagesIn, State.messagesIn, State.conv?, State.conv?, h]

theorem putConv {id : Text} {c : Conversation}
    (h : Inbox.etiquettes c.messages = Inbox.etiquettes (s.messagesIn id)) :
    Paisible conv s (s.putConv id c) := by
  refine ⟨rfl, rfl, ?_⟩
  rw [messagesIn_putConv]
  split
  · rename_i hid
    rw [hid, h]
  · rfl

theorem saveHistory (s : State E) (id : Text) : Paisible conv s (s.saveHistory id) := by
  unfold State.saveHistory
  split <;> exact of_conversations rfl rfl rfl

end Paisible

variable {s : State E}

theorem etiquettes_map {f : ChatMessage → ChatMessage} (h : ∀ m, etiquette (f m) = etiquette m)
    (ms : List ChatMessage) : etiquettes (ms.map f) = etiquettes ms := by
  rw [etiquettes, List.filterMap_map]
  exact congrArg (List.filterMap · ms) (funext h)

/-- A thread that is changed but for what it shows, and saved. -/
theorem changed_paisible {id : Text} {c c' : Conversation} (hc : s.conv? id = some c)
    (h : etiquettes c'.messages = etiquettes c.messages) :
    Paisible conv s ((s.putConv id c').saveHistory id) :=
  (Paisible.putConv (by rw [h, messagesIn_of_conv? hc])).trans (Paisible.saveHistory _ id)

/-- The controls that name no message to change. -/
def prefixesAutres : List Text :=
  [prefixeCleGroupe, prefixeJeton, prefixeTtl, prefixeStatut, prefixeAvatar, prefixeLu]

theorem appliquerControle_paisible {now : Int} {texte device : Text} {deMoi : Bool}
    {qui : Option Text} (h : prefixesAutres.any (startsWith texte) = true) :
    Paisible conv s (appliquerControle P now conv texte deMoi device qui s) := by
  obtain ⟨prefixe, hmem, hstart⟩ := List.any_eq_true.mp h
  simp only [prefixesAutres, List.mem_cons, List.not_mem_nil, or_false] at hmem
  rcases hmem with rfl | rfl | rfl | rfl | rfl | rfl
  · rw [appliquerControle_cleGroupe _ _ _ _ _ _ _ _ hstart]
    unfold cleGroupe
    cases decodeCharge P texte prefixeCleGroupe with
    | none => exact .refl s
    | some json =>
      cases hk : (field json "k").asString? with
      | none => simpa [hk] using Paisible.refl s
      | some k =>
        simp only [Option.bind_eq_bind, Option.bind_some, hk]
        split
        · exact .of_conversations rfl rfl rfl
        · exact .refl s
  · rw [appliquerControle_jeton _ _ _ _ _ _ _ _ hstart, jeton_getD]
    split
    · exact .of_conversations rfl rfl rfl
    · exact .refl s
  · rw [appliquerControle_ttl _ _ _ _ _ _ _ _ hstart]
    unfold ttl
    cases decodeCharge P texte prefixeTtl with
    | none => exact .refl s
    | some json =>
      cases hs : (field json "s").asInt? with
      | none => simpa [hs] using Paisible.refl s
      | some secondes =>
        simp only [Option.bind_eq_bind, Option.bind_some, hs]
        split
        · exact .refl s
        · rename_i c hc
          split
          · exact .refl s
          · refine changed_paisible hc ?_
            dsimp only
            rw [etiquettes_append]
            exact List.append_nil _
  · rw [appliquerControle_statut _ _ _ _ _ _ _ _ hstart, statut_getD]
    split
    · exact .of_conversations rfl rfl rfl
    · exact .refl s
  · rw [appliquerControle_avatar _ _ _ _ _ _ _ _ hstart, avatar_getD]
    split
    · exact .of_conversations rfl rfl rfl
    · exact .refl s
  · rw [appliquerControle_lu _ _ _ _ _ _ _ _ hstart]
    have hmarques : ∀ ids ms, etiquettes (marquerLus ids ms) = etiquettes ms := fun ids ms =>
      etiquettes_map (fun m => by split <;> rfl) ms
    cases hlu : lu P conv texte deMoi s with
    | none => exact .refl s
    | some s' =>
      unfold lu at hlu
      split at hlu
      · obtain rfl := Option.some.inj hlu
        exact .refl _
      · simp only [Option.bind_eq_bind, Option.bind_eq_some_iff] at hlu
        obtain ⟨json, -, ids?, -, ids, -, hlu⟩ := hlu
        split at hlu
        · obtain rfl := Option.some.inj hlu
          exact .refl _
        · rename_i c hc
          split at hlu
          · obtain rfl := Option.some.inj hlu
            exact .refl _
          · obtain rfl := Option.some.inj hlu
            exact changed_paisible hc (hmarques ids c.messages)

theorem marquerLu_paisible (id : Text) : Paisible conv s (marquerLu P id s) := by
  unfold marquerLu
  split
  · exact .refl s
  · split
    · exact .refl s
    · rename_i c hc
      dsimp only
      split
      · exact .refl s
      · have hput : Paisible conv s (s.putConv id { c with messages := c.messages.map fun m =>
            if (!m.mine && m.id.isSome && !m.readAckSent) = true then { m with readAckSent := true }
            else m }) :=
          .putConv (by
            rw [messagesIn_of_conv? hc]
            exact etiquettes_map (fun m => by split <;> rfl) c.messages)
        exact hput.trans (.of_conversations rfl rfl rfl)

theorem openConversation_paisible (id : Text) : Paisible conv s (s.openConversation id) := by
  unfold State.openConversation
  split
  · exact .refl s
  · rename_i c hc
    have hactive : Paisible conv s { s with activeConversationId := some id, error := false } :=
      .of_conversations rfl rfl rfl
    dsimp only
    split
    · exact hactive
    · exact hactive.trans (.putConv (by rw [← messagesIn_of_conv? hc]; rfl))

theorem foldl_paisible {g : State E → Text → State E} (h : ∀ s id, Paisible conv s (g s id))
    (ids : List Text) (s : State E) : Paisible conv s (ids.foldl g s) := by
  induction ids generalizing s with
  | nil => exact .refl s
  | cons id ids ih => exact (h s id).trans (ih (g s id))

/-- A walk over the threads that changes nothing of what they show. -/
theorem parcourir_paisible {f : List ChatMessage → List ChatMessage}
    (h : ∀ ms, etiquettes (f ms) = etiquettes ms) : Paisible conv s (s.parcourir f) := by
  unfold State.parcourir
  refine foldl_paisible (fun s id => ?_) _ s
  split
  · exact .refl s
  · rename_i c hc
    split
    · exact .refl s
    · exact changed_paisible hc (h c.messages)

theorem checkDeliveries_paisible (remis : List Text) : Paisible conv s (s.checkDeliveries remis) :=
  parcourir_paisible fun ms => etiquettes_map (fun m => by split <;> rfl) ms

/-! ## The devices -/

variable {ι : Type} [DecidableEq ι]

/-- The clients of the devices, what each has taken in, its own acts among it, and all that was
ever made known. -/
structure Reseau (ι E : Type) where
  postes : ι → State E
  recus : ι → List Fait
  faits : List Fait

/-- What a device does next. -/
inductive Mouvement (ι : Type) where
  | send (i : ι) (now : Int) (texte : Text) (attachment : Option AttachmentRef)
    (citation : Option ChatMessage) (envoi : IssueEnvoi)
  | editMessage (i : ι) (now : Int) (k : Nat) (nouveauTexte : Text)
  | deleteForEveryone (i : ι) (k : Nat)
  | reagir (i : ι) (k : Nat) (emoji : Text)
  /-- The contents of an act come out of their envelope. -/
  | recevoir (i : ι) (now : Int) (n : Nat) (device : Text) (m : Incoming)
  /-- So does another control. -/
  | controle (i : ι) (now : Int) (texte device : Text) (m : Incoming)
  | openConversation (i : ι) (id : Text)
  | closeConversation (i : ι)
  | marquerLu (i : ι) (id : Text)
  | checkDeliveries (i : ι) (remis : List Text)

namespace Reseau

variable (compte : ι → Membre)

def thread (conv : Text) (r : Reseau ι E) (i : ι) : List ChatMessage := (r.postes i).messagesIn conv

def touche (r : Reseau ι E) (i : ι) (s : State E) : Reseau ι E :=
  { r with postes := Function.update r.postes i s }

/-- A device has taken in one act more. -/
def prend (r : Reseau ι E) (i : ι) (s : State E) (d : Fait) : Reseau ι E :=
  { r.touche i s with recus := Function.update r.recus i (r.recus i ++ [d]) }

/-- It was its own. -/
def pose (r : Reseau ι E) (i : ι) (s : State E) (acte : Acte) : Reseau ι E :=
  { r.prend i s ⟨r.faits.length, compte i, acte⟩ with
    faits := r.faits ++ [⟨r.faits.length, compte i, acte⟩] }

/-- The user of a device acts on a message of the conversation on the screen. -/
def agit (conv : Text) (r : Reseau ι E) (i : ι) (s : State E) (acte : Option Acte) :
    Option (Reseau ι E) :=
  if (r.postes i).active = some conv then acte.map (r.pose compte i s) else none

/-- No message has this id: the ids of messages are drawn. -/
def libre (r : Reseau ι E) (id : Text) : Bool :=
  r.faits.all fun d => !d.acte.estMessage || decide (d.acte.sujet ≠ id)

/-- A user composes ordinary texts, and a device opens the contents of an act once. -/
def step (P : Platform E) (conv : Text) : Mouvement ι → Reseau ι E → Option (Reseau ι E)
  | .send i now texte attachment citation envoi, r =>
      match (r.postes i).activeConversationId, (r.postes i).conv? conv with
      | some active, some c =>
          if active = conv ∧ c.ready = true ∧ ordinaire texte = true ∧
              (echeance now c.ttlSecondes).isSome ∧ r.libre envoi.messageId = true then
            some (r.pose compte i (sendPayload P now texte attachment citation envoi (r.postes i))
              (.message envoi.messageId texte attachment citation))
          else none
      | _, _ => none
  | .editMessage i now k nouveauTexte, r =>
      r.agit compte conv i ((r.postes i).editMessage now conv k nouveauTexte)
        ((r.postes i).edition? conv k nouveauTexte)
  | .deleteForEveryone i k, r =>
      r.agit compte conv i ((r.postes i).deleteForEveryone conv k)
        ((r.postes i).suppression? conv k)
  | .reagir i k emoji, r =>
      r.agit compte conv i ((r.postes i).reagir conv k emoji) ((r.postes i).reaction? conv k emoji)
  | .recevoir i now n device m, r =>
      match r.faits[n]? with
      | none => none
      | some d =>
          if n ∉ (r.recus i).map (·.numero) ∧ VientDe m d.auteur (compte i) then
            match dispatch P now conv device (d.acte.contenu.encode encodeursDart) m
                (r.postes i) with
            | (_, .thrown) => none
            | (s, _) => some (r.prend i s d)
          else none
  | .controle i now texte device m, r =>
      if prefixesAutres.any (startsWith texte) then
        some (r.touche i (dispatch P now conv device
          (Contenu.encode encodeursDart ⟨texte, none, none, none⟩) m (r.postes i)).1)
      else none
  | .openConversation i id, r => some (r.touche i ((r.postes i).openConversation id))
  | .closeConversation i, r => some (r.touche i (r.postes i).closeConversation)
  | .marquerLu i id, r => some (r.touche i (Inbox.marquerLu P id (r.postes i)))
  | .checkDeliveries i remis, r => some (r.touche i ((r.postes i).checkDeliveries remis))

/-- Every device is logged in, and its thread holds nothing but notices. -/
structure Debut (compte : ι → Membre) (conv : Text) (postes : ι → State E) : Prop where
  userId : ∀ i, (postes i).userId = some (compte i).userId
  username : ∀ i, (postes i).username = some (compte i).username
  vide : ∀ i, etiquettes ((postes i).messagesIn conv) = []

def debut (postes : ι → State E) : Reseau ι E := ⟨postes, fun _ => [], []⟩

/-- Two accounts have two names. -/
def NomsDistincts (compte : ι → Membre) : Prop :=
  ∀ i j, (compte i).username = (compte j).username ↔ (compte i).userId = (compte j).userId

/-! ## What holds throughout -/

/-- Every thread shows what its device took in, and what a message became is its author's. -/
structure Sain (conv : Text) (compte : ι → Membre) (r : Reseau ι E) : Prop where
  userId : ∀ i, (r.postes i).userId = some (compte i).userId
  username : ∀ i, (r.postes i).username = some (compte i).username
  montre : ∀ i, Montre (compte i).userId (r.thread conv i) (Fil.de (r.recus i))
  recus : ∀ i, r.recus i ⊆ r.faits
  distincts : ∀ i, ((r.recus i).map (·.numero)).Nodup
  numeros : ∀ (n : Nat) (d : Fait), r.faits[n]? = some d → d.numero = n
  auteurs : ∀ d ∈ r.faits, ∃ i, d.auteur = compte i
  ordinaires : ∀ d ∈ r.faits, ∀ id texte attachment replyTo,
    d.acte = .message id texte attachment replyTo → ordinaire texte = true
  messages : ∀ d ∈ r.faits, ∀ d' ∈ r.faits, d.acte.estMessage = true →
    d'.acte.estMessage = true → d.acte.sujet = d'.acte.sujet → d = d'
  retouches : ∀ d ∈ r.faits, d.acte.estRetouche = true → ∃ d' ∈ r.faits,
    d'.acte.estMessage = true ∧ d'.acte.sujet = d.acte.sujet ∧
      d'.auteur.userId = d.auteur.userId

/-- What a step comes to. -/
inductive Coup (P : Platform E) (conv : Text) (compte : ι → Membre) (r : Reseau ι E) :
    Reseau ι E → Prop where
  | pose {i : ι} {s : State E} {acte : Acte} {ms : List ChatMessage}
      (devient : Devient conv (r.postes i) s ms)
      (change : Change (compte i).userId (r.thread conv i) ⟨r.faits.length, compte i, acte⟩ ms)
      (libre : acte.estMessage = true → r.libre acte.sujet = true)
      (ordinaire : ∀ id texte attachment replyTo, acte = .message id texte attachment replyTo →
        ordinaire texte = true)
      (retouche : acte.estRetouche = true →
        ∃ corps, (etiquettes (r.thread conv i)).lookup acte.sujet = some (true, corps)) :
      Coup P conv compte r (r.pose compte i s acte)
  | prend {i : ι} {s : State E} {d : Fait} {ms : List ChatMessage} (mem : d ∈ r.faits)
      (neuf : d.numero ∉ (r.recus i).map (·.numero)) (devient : Devient conv (r.postes i) s ms)
      (change : Change (compte i).userId (r.thread conv i) d ms) :
      Coup P conv compte r (r.prend i s d)
  | touche {i : ι} {s : State E} (paisible : Paisible conv (r.postes i) s) :
      Coup P conv compte r (r.touche i s)

variable {compte} {r r' : Reseau ι E}

omit [DecidableEq ι] in
theorem Sain.ids (h : r.Sain conv compte) (i : ι) :
    ((etiquettes ((r.postes i).messagesIn conv)).map (·.1)).Nodup := (h.montre i).ids

/-- The user acts on a message. -/
theorem coup_of_agit {i : ι} {s : State E} {acte? : Option Acte}
    (h : r.agit compte conv i s acte? = some r')
    (hacte : ∀ acte, (r.postes i).active = some conv → acte? = some acte →
      acte.estMessage = false ∧ (∃ now, s = (r.postes i).modifier conv acte.sujet
          (acte.surMessage now true (compte i).userId)) ∧
        (acte.estRetouche = true → ∃ corps,
          (etiquettes (r.thread conv i)).lookup acte.sujet = some (true, corps))) :
    Coup P conv compte r r' := by
  unfold agit at h
  split at h
  · rename_i hactive
    obtain ⟨acte, hsome, rfl⟩ := Option.map_eq_some_iff.mp h
    obtain ⟨hmessage, ⟨now, rfl⟩, hretouche⟩ := hacte acte hactive hsome
    have hmine : decide ((compte i).userId = (compte i).userId) = true := decide_eq_true rfl
    have hchange : Change (compte i).userId (r.thread conv i) ⟨r.faits.length, compte i, acte⟩ _ :=
      .modifie hmessage now
    rw [hmine] at hchange
    refine .pose (modifier_devient _ _) hchange ?_ ?_ hretouche
    · intro hm
      rw [hmessage] at hm
      cases hm
    · rintro id texte attachment replyTo rfl
      cases hmessage
  · cases h

/-- The contents of an act are opened. -/
theorem coup_of_recevoir (hdart : DecodeursDart double P) (hnoms : NomsDistincts compte)
    (hsain : r.Sain conv compte) {i : ι} {now : Int} {n : Nat} {device : Text} {m : Incoming}
    (h : step compte P conv (.recevoir i now n device m) r = some r') :
    Coup P conv compte r r' := by
  simp only [step] at h
  split at h
  · cases h
  · rename_i d hd
    have hmem : d ∈ r.faits := List.mem_of_getElem? hd
    split at h
    · rename_i hguard
      obtain ⟨hneuf, hvient⟩ := hguard
      rw [← hsain.numeros n d hd] at hneuf
      obtain ⟨j, hj⟩ := hsain.auteurs d hmem
      have hside : d.auteur.username = (compte i).username ↔
          d.auteur.userId = (compte i).userId := by
        rw [hj]
        exact hnoms j i
      split at h
      · cases h
      · rename_i s recu hrecu hdispatch
        obtain rfl := Option.some.inj h
        cases hmessage : d.acte.estMessage with
        | false =>
          rw [dispatch_acte hdart hmessage hvient hside (hsain.userId i) (hsain.username i)]
            at hdispatch
          obtain ⟨rfl, -⟩ := Prod.mk.inj hdispatch
          exact .prend hmem hneuf (modifier_devient _ _) (.modifie hmessage now)
        | true =>
          cases hacte : d.acte with
          | message id texte attachment replyTo =>
            rw [hacte] at hdispatch
            obtain ⟨message, hid, hmine, hcorps, hdevient⟩ := dispatch_message hdart hvient hside
              (hsain.username i) (hsain.ordinaires d hmem _ _ _ _ hacte)
              hrecu hdispatch
            exact .prend hmem hneuf hdevient (.message hacte hid hmine hcorps)
          | _ =>
            rw [hacte] at hmessage
            cases hmessage
    · cases h

theorem coup_of_step (hdart : DecodeursDart double P) (hnoms : NomsDistincts compte)
    (hsain : r.Sain conv compte) {mouvement : Mouvement ι}
    (h : step compte P conv mouvement r = some r') : Coup P conv compte r r' := by
  cases mouvement with
  | send i now texte attachment citation envoi =>
    simp only [step] at h
    split at h
    · rename_i active c hactive hc
      split at h
      · rename_i hguard
        obtain ⟨rfl, hready, hordinaire, hdate, hlibre⟩ := hguard
        obtain rfl := Option.some.inj h
        have hannonce : estAnnonceInterne texte = false := by
          simp only [ordinaire, Bool.and_eq_true, Bool.not_eq_true'] at hordinaire
          exact hordinaire.2
        obtain ⟨m, hid, hmine, hcorps, hdevient⟩ := sendPayload_devient (P := P) attachment
          citation envoi hactive hc hready hannonce hdate
        refine .pose hdevient (.message rfl hid ?_ hcorps) (fun _ => hlibre) ?_ fun hr => by cases hr
        · rw [hmine, decide_eq_true rfl]
        · rintro id' texte' attachment' replyTo' heq
          obtain ⟨rfl, rfl, rfl, rfl⟩ := Acte.message.inj heq
          exact hordinaire
      · cases h
    · cases h
  | editMessage i now k nouveauTexte =>
    refine coup_of_agit h fun acte hactive hacte => ?_
    obtain ⟨heq, hmessage, hmine⟩ :=
      editMessage_eq hactive (hsain.ids i) now (compte i).userId hacte
    exact ⟨hmessage, ⟨now, heq⟩, fun _ => hmine⟩
  | deleteForEveryone i k =>
    refine coup_of_agit h fun acte hactive hacte => ?_
    obtain ⟨heq, hmessage, hmine⟩ :=
      deleteForEveryone_eq hactive (hsain.ids i) 0 (compte i).userId hacte
    exact ⟨hmessage, ⟨0, heq⟩, fun _ => hmine⟩
  | reagir i k emoji =>
    refine coup_of_agit h fun acte hactive hacte => ?_
    obtain ⟨heq, hmessage, hretouche⟩ :=
      reagir_eq hactive (hsain.ids i) 0 (hsain.userId i) hacte
    refine ⟨hmessage, ⟨0, heq⟩, fun hr => ?_⟩
    rw [hretouche] at hr
    cases hr
  | recevoir i now n device m => exact coup_of_recevoir hdart hnoms hsain h
  | controle i now texte device m =>
    simp only [step] at h
    split at h
    · rename_i hautre
      obtain rfl := Option.some.inj h
      have htext : (decodePayload P (Contenu.encode encodeursDart
          ⟨texte, none, none, none⟩)).text = texte := by
        rw [hdart.decodePayload]
        rfl
      obtain ⟨prefixe, hmem, hstart⟩ := List.any_eq_true.mp hautre
      have hcontrole : estControle texte = true := by
        refine estControle_of hstart ?_
        have hsub : ∀ p ∈ prefixesAutres, p ∈ prefixesControle := by
          simp only [prefixesAutres, prefixesControle, List.forall_mem_cons]
          simp
        exact hsub prefixe hmem
      refine .touche ?_
      unfold dispatch
      split
      · exact .refl _
      · dsimp only
        rw [htext, if_pos hcontrole]
        split
        · exact .refl _
        · exact appliquerControle_paisible hautre
    · cases h
  | openConversation i id =>
    obtain rfl := Option.some.inj h
    exact .touche (openConversation_paisible id)
  | closeConversation i =>
    obtain rfl := Option.some.inj h
    exact .touche (.of_conversations rfl rfl rfl)
  | marquerLu i id =>
    obtain rfl := Option.some.inj h
    exact .touche (marquerLu_paisible id)
  | checkDeliveries i remis =>
    obtain rfl := Option.some.inj h
    exact .touche (checkDeliveries_paisible remis)

/-! ## The invariant -/

omit [DecidableEq ι] in
theorem libre_iff {id : Text} : r.libre id = true ↔
    ∀ d ∈ r.faits, d.acte.estMessage = true → d.acte.sujet ≠ id := by
  rw [libre, List.all_eq_true]
  refine forall₂_congr fun d _ => ?_
  cases d.acte.estMessage <;> simp

/-- A device that shows its own thread after one more act. -/
theorem Sain.prend {i : ι} {s : State E} {d : Fait} {ms : List ChatMessage}
    (h : r.Sain conv compte) (hdevient : Devient conv (r.postes i) s ms)
    (hmontre : Montre (compte i).userId ms ((Fil.de (r.recus i)).recoit d))
    (hmem : d ∈ r.faits) (hneuf : d.numero ∉ (r.recus i).map (·.numero)) :
    (r.prend i s d).Sain conv compte := by
  have hpostes : ∀ (Q : ι → State E → Prop), Q i s → (∀ j, Q j (r.postes j)) →
      ∀ j, Q j (Function.update r.postes i s j) := fun Q hs hr j => by
    rw [Function.update_apply]
    split
    · rename_i hj
      exact hj ▸ hs
    · exact hr j
  refine { h with
    userId := hpostes (fun j s => s.userId = some (compte j).userId)
      (hdevient.userId.trans (h.userId i)) h.userId
    username := hpostes (fun j s => s.username = some (compte j).username)
      (hdevient.username.trans (h.username i)) h.username
    montre := fun j => ?_
    recus := fun j => ?_
    distincts := fun j => ?_ }
  · by_cases hj : j = i
    · subst hj
      simp only [Reseau.prend, touche, thread, Function.update_self, Fil.de_append,
        hdevient.messages]
      exact hmontre
    · simp only [Reseau.prend, touche, thread, Function.update_of_ne hj]
      exact h.montre j
  · by_cases hj : j = i
    · subst hj
      simp only [Reseau.prend, touche, Function.update_self]
      exact List.append_subset.mpr ⟨h.recus j, List.cons_subset.mpr ⟨hmem, List.nil_subset _⟩⟩
    · simp only [Reseau.prend, touche, Function.update_of_ne hj]
      exact h.recus j
  · by_cases hj : j = i
    · subst hj
      simp only [Reseau.prend, Function.update_self, List.map_append, List.map_cons, List.map_nil]
      refine List.nodup_append.mpr ⟨h.distincts j, List.nodup_singleton _, ?_⟩
      rintro a ha b hb rfl
      obtain rfl := List.mem_singleton.mp hb
      exact hneuf ha
    · simp only [Reseau.prend, Function.update_of_ne hj]
      exact h.distincts j

omit [DecidableEq ι] in
/-- One act more is known. -/
theorem Sain.connu {i : ι} {acte : Acte} (h : r.Sain conv compte)
    (hlibre : acte.estMessage = true → r.libre acte.sujet = true)
    (hordinaire : ∀ id texte attachment replyTo, acte = .message id texte attachment replyTo →
      ordinaire texte = true)
    (hretouche : acte.estRetouche = true → ∃ d ∈ r.faits, d.acte.estMessage = true ∧
      d.acte.sujet = acte.sujet ∧ d.auteur.userId = (compte i).userId) :
    ({ r with faits := r.faits ++ [⟨r.faits.length, compte i, acte⟩] } :
      Reseau ι E).Sain conv compte where
  userId := h.userId
  username := h.username
  montre := h.montre
  recus j d hd := List.mem_append_left _ (h.recus j hd)
  distincts := h.distincts
  numeros n d hd := by
    rcases Nat.lt_trichotomy n r.faits.length with hlt | rfl | hgt
    · rw [List.getElem?_append_left hlt] at hd
      exact h.numeros n d hd
    · rw [List.getElem?_concat_length] at hd
      obtain rfl := Option.some.inj hd
      rfl
    · rw [List.getElem?_eq_none (by rw [List.length_append, List.length_singleton]; omega)] at hd
      cases hd
  auteurs d hd := by
    rcases List.mem_append.mp hd with hd | hd
    · exact h.auteurs d hd
    · obtain rfl := List.mem_singleton.mp hd
      exact ⟨i, rfl⟩
  ordinaires d hd := by
    rcases List.mem_append.mp hd with hd | hd
    · exact h.ordinaires d hd
    · obtain rfl := List.mem_singleton.mp hd
      exact hordinaire
  messages d hd d' hd' hmessage hmessage' hsujet := by
    rcases List.mem_append.mp hd with hd | hd <;> rcases List.mem_append.mp hd' with hd' | hd'
    · exact h.messages d hd d' hd' hmessage hmessage' hsujet
    · obtain rfl := List.mem_singleton.mp hd'
      exact absurd hsujet (libre_iff.mp (hlibre hmessage') d hd hmessage)
    · obtain rfl := List.mem_singleton.mp hd
      exact absurd hsujet.symm (libre_iff.mp (hlibre hmessage) d' hd' hmessage')
    · obtain rfl := List.mem_singleton.mp hd
      obtain rfl := List.mem_singleton.mp hd'
      rfl
  retouches d hd hr := by
    rcases List.mem_append.mp hd with hd | hd
    · obtain ⟨d', hd', hrest⟩ := h.retouches d hd hr
      exact ⟨d', List.mem_append_left _ hd', hrest⟩
    · obtain rfl := List.mem_singleton.mp hd
      obtain ⟨d', hd', hrest⟩ := hretouche hr
      exact ⟨d', List.mem_append_left _ hd', hrest⟩

theorem sain_coup (hsain : r.Sain conv compte) (h : Coup P conv compte r r') :
    r'.Sain conv compte := by
  cases h with
  | pose hdevient hchange hlibre hordinaire hretouche =>
    rename_i i s acte ms
    -- The message that is edited or deleted is this account's.
    have hmienne : ∀ v, Fil.de (r.recus i) acte.sujet = some v → acte.estRetouche = true →
        v.auteur = (compte i).userId := fun v hv hr => by
      obtain ⟨corps, hlookup⟩ := hretouche hr
      rw [(hsain.montre i).montre, hv] at hlookup
      exact of_decide_eq_true (Prod.mk.inj (Option.some.inj hlookup)).1
    have hnouveau : acte.estMessage = true → Fil.de (r.recus i) acte.sujet = none := fun hm => by
      rw [Option.eq_none_iff_forall_ne_some]
      intro v hv
      obtain ⟨d, hd, hmessage, hsujet, -⟩ := compose_de hv
      exact libre_iff.mp (hlibre hm) d (hsain.recus i hd) hmessage hsujet
    have hconnu := hsain.connu (i := i) hlibre hordinaire fun hr => by
      obtain ⟨corps, hlookup⟩ := hretouche hr
      rw [(hsain.montre i).montre] at hlookup
      obtain ⟨v, hv, -⟩ := Option.map_eq_some_iff.mp hlookup
      obtain ⟨d, hd, hmessage, hsujet, hauteur⟩ := compose_de hv
      exact ⟨d, hsain.recus i hd, hmessage, hsujet, hauteur.trans (hmienne v hv hr)⟩
    have hmontre := (hsain.montre i).change hchange hnouveau hmienne
    refine hconnu.prend hdevient hmontre (List.mem_append_right _ List.mem_cons_self) ?_
    intro hmem
    obtain ⟨d, hd, hnumero⟩ := List.mem_map.mp hmem
    obtain ⟨n, hn⟩ := List.mem_iff_getElem?.mp (hsain.recus i hd)
    have hlt : n < r.faits.length := (List.getElem?_eq_some_iff.mp hn).1
    have heq : n = r.faits.length := (hsain.numeros n d hn).symm.trans hnumero
    omega
  | prend hmem hneuf hdevient hchange =>
    rename_i i s d ms
    have hnouveau : d.acte.estMessage = true → Fil.de (r.recus i) d.acte.sujet = none :=
      fun hm => by
        rw [Option.eq_none_iff_forall_ne_some]
        intro v hv
        obtain ⟨d', hd', hmessage, hsujet, -⟩ := compose_de hv
        obtain rfl := hsain.messages d' (hsain.recus i hd') d hmem hmessage hm hsujet
        exact hneuf (List.mem_map_of_mem hd')
    have hsien : ∀ v, Fil.de (r.recus i) d.acte.sujet = some v → d.acte.estRetouche = true →
        v.auteur = d.auteur.userId := fun v hv hr => by
      obtain ⟨d₁, hd₁, hmessage₁, hsujet₁, hauteur₁⟩ := hsain.retouches d hmem hr
      obtain ⟨d₂, hd₂, hmessage₂, hsujet₂, hauteur₂⟩ := compose_de hv
      obtain rfl := hsain.messages d₁ hd₁ d₂ (hsain.recus i hd₂) hmessage₁ hmessage₂
        (hsujet₁.trans hsujet₂.symm)
      exact hauteur₂.symm.trans hauteur₁
    exact hsain.prend hdevient ((hsain.montre i).change hchange hnouveau hsien) hmem hneuf
  | touche hpaisible =>
    rename_i i s
    refine { hsain with
      userId := fun j => ?_
      username := fun j => ?_
      montre := fun j => ?_ }
    · by_cases hj : j = i
      · subst hj
        simp only [Reseau.touche, Function.update_self]
        exact hpaisible.userId.trans (hsain.userId j)
      · simp only [Reseau.touche, Function.update_of_ne hj]
        exact hsain.userId j
    · by_cases hj : j = i
      · subst hj
        simp only [Reseau.touche, Function.update_self]
        exact hpaisible.username.trans (hsain.username j)
      · simp only [Reseau.touche, Function.update_of_ne hj]
        exact hsain.username j
    · by_cases hj : j = i
      · subst hj
        simp only [Reseau.touche, thread, Function.update_self]
        exact (hsain.montre j).paisible hpaisible.etiquettes
      · simp only [Reseau.touche, thread, Function.update_of_ne hj]
        exact hsain.montre j

omit [DecidableEq ι] in
theorem sain_debut {postes : ι → State E} (h : Debut compte conv postes) :
    (debut postes).Sain conv compte where
  userId := h.userId
  username := h.username
  montre i := by
    refine ⟨?_, fun id => ?_⟩
    · rw [show etiquettes ((debut postes).thread conv i) = [] from h.vide i]
      exact List.nodup_nil
    · rw [show etiquettes ((debut postes).thread conv i) = [] from h.vide i]
      rfl
  recus i := List.nil_subset _
  distincts i := List.nodup_nil
  numeros n d hd := by cases hd
  auteurs d hd := absurd hd List.not_mem_nil
  ordinaires d hd := absurd hd List.not_mem_nil
  messages d hd := absurd hd List.not_mem_nil
  retouches d hd := absurd hd List.not_mem_nil

/-! ## All runs -/

variable {postes : ι → State E} {mouvements : List (Mouvement ι)}

theorem sain_of_run (hdart : DecodeursDart double P) (hnoms : NomsDistincts compte)
    (hdebut : Debut compte conv postes)
    (h : run (step compte P conv) mouvements (debut postes) = some r) : r.Sain conv compte :=
  run_invariant (fun _ _ _ hsain hstep => sain_coup hsain (coup_of_step hdart hnoms hsain hstep))
    (sain_debut hdebut) h

omit [DecidableEq ι] in
/-- Two orders that agree upon what depends on one another show the same. -/
theorem Sain.converge (h : r.Sain conv compte) {i j : ι}
    (hordre : SameOrder Lies (r.recus i) (r.recus j)) (id : Text) :
    (premier (r.thread conv i) id).map ChatMessage.corps =
      (premier (r.thread conv j) id).map ChatMessage.corps := by
  have hfil : Fil.de (r.recus i) = Fil.de (r.recus j) :=
    commutes_recoit.foldl_eq (.of_map _ (h.distincts i)) hordre Fil.vide
  have hcorps : ∀ k, (premier (r.thread conv k) id).map ChatMessage.corps =
      (Fil.de (r.recus k) id).map (·.corps) := fun k => by
    have hmontre := congrArg (Option.map Prod.snd) ((h.montre k).montre id)
    rw [lookup_etiquettes, Option.map_map, Option.map_map] at hmontre
    exact hmontre
  rw [hcorps, hcorps, hfil]

/-- What a device shows rests on what the members did: its author composed the message and
gave it its text, deleted it if it is deleted, and whoever reacts to it did so. -/
theorem thread_authentic (hdart : DecodeursDart double P) (hnoms : NomsDistincts compte)
    (hdebut : Debut compte conv postes)
    (h : run (step compte P conv) mouvements (debut postes) = some r) (i : ι) :
    (∀ m ∈ r.thread conv i, ∀ id, m.id = some id → ∃ v, m.mine = decide (v.auteur =
        (compte i).userId) ∧ m.corps = v.corps ∧ Fonde r.faits id v) ∧
      ∀ d ∈ r.recus i, d.acte.estMessage = true → ∃ m ∈ r.thread conv i,
        m.id = some d.acte.sujet := by
  have hsain := sain_of_run hdart hnoms hdebut h
  have hmontre := hsain.montre i
  refine ⟨fun m hm id hid => ?_, fun d hd hmessage => ?_⟩
  · obtain ⟨k, hk⟩ := List.mem_iff_getElem?.mp hm
    have hfirst := firstWithId_of_nodup hmontre.ids hk hid
    have hlookup := hmontre.montre id
    rw [lookup_etiquettes, premier_of_first hfirst, Option.map_some] at hlookup
    obtain ⟨v, hv, heq⟩ := Option.map_eq_some_iff.mp hlookup.symm
    obtain ⟨hmine, hcorps⟩ := Prod.mk.inj heq
    exact ⟨v, hmine.symm, hcorps.symm, (fonde_de hv).mono (hsain.recus i)⟩
  · obtain ⟨v, hv⟩ := Option.isSome_iff_exists.mp (isSome_de hd hmessage)
    have hlookup := hmontre.montre d.acte.sujet
    rw [lookup_etiquettes, hv] at hlookup
    obtain ⟨m, hm, -⟩ := Option.map_eq_some_iff.mp hlookup
    rw [premier] at hm
    have hid := List.find?_some hm
    exact ⟨m, List.mem_of_find?_eq_some hm, of_decide_eq_true hid⟩

end Reseau

/-! ## Two devices -/

/-- The codecs, and no engine. -/
def plateformeDart : Platform Unit :=
  { scripted ⟨[], [], []⟩ with
    utf8DecodeMalformed := fun b => (utf8Decode b).getD []
    jsonDecode := jsonDecode fun _ => none }

theorem plateformeDart_decodeurs : DecodeursDart (fun _ => none) plateformeDart where
  jsonDecode := rfl
  utf8Decode b t h := by
    change (utf8Decode b).getD [] = t
    rw [h]
    rfl

/-- Alice's device and Bob's. -/
def aliceEtBob (alice : Bool) : Membre :=
  if alice then ⟨text "u-alice", text "alice"⟩ else ⟨text "u-bob", text "bob"⟩

/-- Their conversation is on the screen of both. -/
def ouvert (alice : Bool) : State Unit :=
  { (loggedIn (aliceEtBob alice).userId (aliceEtBob alice).username).putConv (text "c")
      { Conversation.new (text "c") (text "c") 0 with
        sessions := LinkedMap.empty.insert (text "d") 7 } with
    activeConversationId := some (text "c") }

def envoyePar (alice : Bool) : Incoming where
  sealed := .null
  channelId := .null
  conversationId := .str (text "c")
  senderDeviceId := .str (text "d")
  senderUsername := .str (aliceEtBob alice).username
  senderUserId := .str (aliceEtBob alice).userId
  header := .null
  ciphertext := .null
  timestampMs := .null

/-- Bob reacts to a message that Alice edits meanwhile. -/
def croises : List (Mouvement Bool) :=
  [.send true 0 (text "bonjour") none none ⟨text "m-1", 1, []⟩,
    .recevoir false 0 0 (text "d") (envoyePar true),
    .reagir false 0 (text "+"),
    .editMessage true 0 0 (text "bonsoir"),
    .recevoir false 0 2 (text "d") (envoyePar true),
    .recevoir true 0 1 (text "d") (envoyePar false)]

def croisement : Option (Reseau Bool Unit) :=
  run (Reseau.step aliceEtBob plateformeDart (text "c")) croises (.debut ouvert)

/-- What they did, in the order it was done. -/
def bonjour : Fait := ⟨0, aliceEtBob true, .message (text "m-1") (text "bonjour") none none⟩
def approuve : Fait := ⟨1, aliceEtBob false, .reaction (text "m-1") (text "+") true⟩
def bonsoir : Fait := ⟨2, aliceEtBob true, .edition (text "m-1") (text "bonsoir")⟩

theorem croisement_recus : croisement.map (fun r => (r.recus true, r.recus false)) =
    some ([bonjour, bonsoir, approuve], [bonjour, approuve, bonsoir]) := by decide +kernel

theorem ouvert_debut : Reseau.Debut aliceEtBob (text "c") ouvert where
  userId alice := by cases alice <;> rfl
  username alice := by cases alice <;> rfl
  vide alice := by cases alice <;> rfl

theorem aliceEtBob_noms : Reseau.NomsDistincts aliceEtBob := by
  unfold Reseau.NomsDistincts
  decide

theorem croisement_authentic : ∃ r, croisement = some r ∧
    (∀ m ∈ r.thread (text "c") false, ∀ id, m.id = some id → ∃ v, m.mine = decide (v.auteur =
        (aliceEtBob false).userId) ∧ m.corps = v.corps ∧ Fonde r.faits id v) ∧
      ∀ d ∈ r.recus false, d.acte.estMessage = true → ∃ m ∈ r.thread (text "c") false,
        m.id = some d.acte.sujet := by
  obtain ⟨r, hr, -⟩ := Option.map_eq_some_iff.mp croisement_recus
  exact ⟨r, hr, Reseau.thread_authentic plateformeDart_decodeurs aliceEtBob_noms ouvert_debut hr
    false⟩

end ZiaCrypte.Inbox
