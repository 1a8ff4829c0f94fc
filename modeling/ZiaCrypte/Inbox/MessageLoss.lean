import ZiaCrypte.Inbox.PollSteps
import ZiaCrypte.Inbox.Readings
import ZiaCrypte.Server.Delivery

/-!
# From `GET /messages` to the vault

The server marks a message delivered when it reads it, before the answer is on its
way, and the client saves at the end of its poll. Answers get lost, and the client
stops at any point.
-/
namespace ZiaCrypte.Inbox

open ZiaCrypte.Lib ZiaCrypte.Engine
open ZiaCrypte.Server (MessageBlob Mailbox Poll PollStage Uuid)

variable {E : Type}

/-! ## The answer -/

/-- How the answer writes ids and bytes, and the accounts `sender` joins. -/
structure Annuaire where
  uuid : Uuid → Text
  b64 : Bytes → Text
  username : Uuid → Text
  userId : Uuid → Uuid

/-- A field that may be `null`. -/
def nullable {α : Type} (f : α → Text) : Option α → Json
  | none => .null
  | some a => .str (f a)

/-- A row in the answer of `GET /messages`. -/
def enJson (A : Annuaire) (m : MessageBlob) : Incoming where
  sealed := .bool m.senderDeviceId.isNone
  channelId := nullable A.uuid m.channelId
  conversationId := nullable A.uuid m.conversationId
  senderDeviceId := nullable A.uuid m.senderDeviceId
  senderUsername := nullable A.username m.senderDeviceId
  senderUserId := nullable (A.uuid ∘ A.userId) m.senderDeviceId
  header := .str (A.b64 m.ratchetHeader)
  ciphertext := .str (A.b64 m.ciphertext)
  timestampMs := .num (some m.createdAt)

/-- `purgeExpired`: what was delivered some time ago, and what has expired. -/
def purgeBlobs (retention maintenant : Nat) (blobs : List MessageBlob) : List MessageBlob :=
  (blobs.filter fun b => !b.deliveredAt.any (· < maintenant - retention)).filter fun b =>
    !decide (b.expiresAt < maintenant)

/-! ## What is saved of a message -/

/-- What a message that was read changed: a thread, or the record of a conversation. -/
inductive Reste where
  | fil (conv : Text)
  | fiche (conv : Text)
  deriving DecidableEq

def Reste.conv : Reste → Text
  | .fil conv => conv
  | .fiche conv => conv

/-- The vault has the thread, or the name of the conversation, as they are. -/
def Reste.garde (s : State E) : Reste → Bool
  | .fil conv =>
      decide (s.coffre.hist.get? conv = some ((s.messagesIn conv).map ChatMessage.saved))
  | .fiche conv => (s.conv? conv).any fun c => s.coffre.convs.any fun c' =>
      c'.id == c.id && c'.peerUsername == c.peerUsername && c'.isGroup == c.isGroup

/-- What a message that touched a conversation changed of it. -/
def reste (s s' : State E) (conv : Text) : Reste :=
  if s'.messagesIn conv = s.thread conv then .fiche conv else .fil conv

/-- A message that was read and is not saved yet, and its poll. -/
structure Attendu where
  releve : Nat
  id : Uuid
  reste : Reste
  deriving DecidableEq

/-! ## The system -/

/-- The server and the client. `closes` are the polls whose answer has arrived or never
will. What was accepted, what the client is done with and what it has still to save are
kept beside. -/
structure Remise (E : Type) where
  boite : Mailbox
  poste : Poste E MessageBlob
  closes : List Nat
  acceptes : List MessageBlob
  traites : List Uuid
  attente : List Attendu
  maintenant : Nat

inductive Evenement where
  | depot (rows : List MessageBlob)
  | requete
  | marque (poll now : Nat)
  | reponse (poll : Nat)
  | perte (poll : Nat)
  | arrivee (poll : Nat)
  | tour (releve : Nat) (now : Int)
  | ecrire (releve : Nat)
  | arret
  | purge (maintenant : Nat)

namespace Remise

def debut (client : State E) : Remise E where
  boite := .start
  poste := ⟨client, []⟩
  closes := []
  acceptes := []
  traites := []
  attente := []
  maintenant := 0

/-- A message that opens nothing, or is a control, is dealt with. -/
def noter (releve : Nat) (id : Uuid) (avant : State E) : Received → Remise E → Remise E
  | .skipped, s => { s with traites := s.traites ++ [id] }
  | .touched conv, s => { s with
      attente := s.attente ++ [⟨releve, id, reste avant s.poste.client conv⟩] }
  | .thrown, s => s

/-- So is one that is in the vault. -/
def solder (s : Remise E) : Remise E := { s with
  traites := s.traites ++ (s.attente.filter (·.reste.garde s.poste.client)).map (·.id)
  attente := s.attente.filter fun a => !a.reste.garde s.poste.client }

variable (P : Platform E) (relance : E → E) (A : Annuaire) (device : Uuid) (retention : Nat)

def step : Evenement → Remise E → Option (Remise E)
  | .depot rows, s =>
      -- The ids are drawn at random, and none comes twice.
      if rows.any fun b => s.acceptes.any (·.id == b.id) then none
      else (Mailbox.step (.createMany rows) s.boite).map fun boite => { s with
        boite := boite
        acceptes := s.acceptes ++ boite.blobs.filter (· ∉ s.boite.blobs) }
  | .requete, s =>
      (Mailbox.step (.findMany device) s.boite).map fun boite => { s with boite := boite }
  | .marque i now, s =>
      (Mailbox.step (.updateMany i now) s.boite).map fun boite => { s with boite := boite }
  | .reponse i, s =>
      (Mailbox.step (.respond i) s.boite).map fun boite => { s with boite := boite }
  | .perte i, s =>
      if i < s.boite.polls.length ∧ i ∉ s.closes then some { s with closes := i :: s.closes }
      else none
  | .arrivee i, s =>
      match s.boite.polls[i]? with
      | none => none
      | some p =>
          if p.stage = .answered ∧ i ∉ s.closes then
            (Poste.step P relance (enJson A) (.arrivee p.pending) s.poste).map fun poste => { s with
              poste := poste
              closes := i :: s.closes }
          else none
  | .tour i now, s =>
      match s.poste.releves[i]? with
      | some (.boucle (m :: _) _) =>
          (Poste.step P relance (enJson A) (.tour i now) s.poste).map fun poste =>
            (noter i m.id s.poste.client (receive P now (enJson A m) s.poste.client).2
              { s with poste := poste }).solder
      | _ => none
  | .ecrire i, s =>
      (Poste.step P relance (enJson A) (.ecrire i) s.poste).map fun poste =>
        { s with poste := poste }.solder
  | .arret, s =>
      -- The requests of the process die with it.
      (Poste.step P relance (enJson A) .arret s.poste).map fun poste => { s with
        poste := poste
        closes := List.range s.boite.polls.length
        attente := [] }
  | .purge t, s => some { s with
      boite := { s.boite with blobs := purgeBlobs retention t s.boite.blobs }
      maintenant := max s.maintenant t }

/-! ## What becomes of a message -/

/-- A poll that is under way has the message: the server has marked it, and its answer may
still come; or it has come, and the client is not through with it. -/
inductive EnCours (s : Remise E) (id : Uuid) : Prop where
  | reponse (i : Nat) (p : Poll) (hp : s.boite.polls[i]? = some p) (hopen : i ∉ s.closes)
      (hmarked : p.stage ≠ .selected) (hid : id ∈ p.ids)
  | boucle (i : Nat) (reste : List MessageBlob) (touched : List Text)
      (hi : s.poste.releves[i]? = some (.boucle reste touched)) (hid : id ∈ reste.map (·.id))
  | attente (a : Attendu) (ha : a ∈ s.attente) (hid : a.id = id) (etape : Etape MessageBlob)
      (hi : s.poste.releves[a.releve]? = some etape) (hopen : etape ≠ .fini)

/-- The assumptions on one event. No answer that carries a message the client has not
dealt with is lost, or given to a process that is gone; the process does not stop while a
poll of its has such a message; and every message can be received. -/
def SansPerte : Evenement → Remise E → Prop
  | .marque i _, s => i ∈ s.closes → ∀ p, s.boite.polls[i]? = some p → ∀ id ∈ p.ids, id ∈ s.traites
  | .perte i, s => ∀ p, s.boite.polls[i]? = some p → p.stage ≠ .selected →
      ∀ id ∈ p.ids, id ∈ s.traites
  | .tour i now, s => ∀ m reste touched, s.poste.releves[i]? = some (.boucle (m :: reste) touched) →
      Receivable P now (enJson A m) s.poste.client
  | .arret, s => ∀ id, s.EnCours id → id ∈ s.traites
  | _, _ => True

/-- The message is still in the table as it was stored. -/
def Attend (s : Remise E) (b : MessageBlob) : Prop := b ∈ s.boite.blobs ∧ b.deliveredAt = none

/-- The poll will still save what the message changed. -/
def couvre : Etape MessageBlob → Reste → Prop
  | .boucle _ touched, r => r.conv ∈ touched
  | .ecritures es, .fil conv => .historique conv ∈ es
  | .ecritures es, .fiche _ => .conversations ∈ es

theorem couvre_ecrituresDe {touched : List Text} {r : Reste} (h : r.conv ∈ touched) :
    couvre (.ecritures (ecrituresDe touched)) r := by
  cases touched with
  | nil => cases h
  | cons conv touched =>
    cases r with
    | fil conv' =>
      refine List.mem_append_left _ (List.mem_flatMap.mpr ⟨conv', h, ?_⟩)
      exact List.mem_cons_self
    | fiche conv' => exact List.mem_append_right _ (List.mem_singleton.mpr rfl)

structure Inv (s : Remise E) : Prop where
  ids : (s.boite.blobs.map (·.id)).Nodup
  neufs : ∀ b ∈ s.acceptes, b.deliveredAt = none
  conserve : ∀ b ∈ s.acceptes, s.maintenant ≤ b.expiresAt →
    s.Attend b ∨ b.id ∈ s.traites ∨ s.EnCours b.id
  attendus : ∀ a ∈ s.attente, (s.poste.client.conv? a.reste.conv).isSome ∧
    ∃ etape, s.poste.releves[a.releve]? = some etape ∧ couvre etape a.reste

variable {P relance A device retention} {s t : Remise E}

theorem inv_debut (client : State E) : Inv (debut client) where
  ids := List.nodup_nil
  neufs := by simp [debut]
  conserve := by simp [debut]
  attendus := by simp [debut]

/-! ## The server -/

/-- The client does not notice what the server does: only polls past their update matter. -/
theorem EnCours.serveur {id : Uuid} (h : s.EnCours id) (hposte : t.poste = s.poste)
    (hcloses : t.closes = s.closes) (hattente : t.attente = s.attente)
    (hpolls : ∀ (i : Nat) (p : Poll), s.boite.polls[i]? = some p → p.stage ≠ .selected →
      id ∈ p.ids → ∃ p' : Poll, t.boite.polls[i]? = some p' ∧ p'.stage ≠ .selected ∧
        id ∈ p'.ids) : t.EnCours id := by
  cases h with
  | reponse i p hp hopen hmarked hid =>
    obtain ⟨p', hp', hmarked', hid'⟩ := hpolls i p hp hmarked hid
    exact .reponse i p' hp' (hcloses ▸ hopen) hmarked' hid'
  | boucle i reste touched hi hid => exact .boucle i reste touched (hposte ▸ hi) hid
  | attente a ha hid etape hi hopen =>
    exact .attente a (hattente ▸ ha) hid etape (hposte ▸ hi) hopen

/-- The polls are as they were. -/
theorem EnCours.sameServeur {id : Uuid} (h : s.EnCours id) (hposte : t.poste = s.poste)
    (hcloses : t.closes = s.closes) (hattente : t.attente = s.attente)
    (hpolls : t.boite.polls = s.boite.polls) : t.EnCours id :=
  h.serveur hposte hcloses hattente fun _ p hp hmarked hid => ⟨p, hpolls ▸ hp, hmarked, hid⟩

theorem Inv.depot (h : Inv s) {rows : List MessageBlob}
    (ht : step P relance A device retention (.depot rows) s = some t) : Inv t := by
  simp only [step] at ht
  split at ht
  · cases ht
  simp only [Mailbox.step, Option.map_some] at ht
  obtain rfl := Option.some.inj ht
  have hsub := Server.subset_createManyBlobs s.boite.blobs
    (rows.map fun b => { b with deliveredAt := none })
  refine ⟨Server.nodup_createManyBlobs _ h.ids, fun b hb => ?_, fun b hb hlive => ?_, h.attendus⟩
  · rcases List.mem_append.mp hb with hold | hnew
    · exact h.neufs b hold
    · obtain ⟨hmem, hnot⟩ := List.mem_filter.mp hnew
      have hrow := (Server.mem_createManyBlobs hmem).resolve_left (by simpa using hnot)
      obtain ⟨b', -, rfl⟩ := List.mem_map.mp hrow
      rfl
  · rcases List.mem_append.mp hb with hold | hnew
    · rcases h.conserve b hold hlive with ⟨hmem, hpending⟩ | hrest
      · exact .inl ⟨hsub hmem, hpending⟩
      · exact .inr (hrest.imp_right fun hen => hen.sameServeur rfl rfl rfl rfl)
    · obtain ⟨hmem, hnot⟩ := List.mem_filter.mp hnew
      have hrow := (Server.mem_createManyBlobs hmem).resolve_left (by simpa using hnot)
      obtain ⟨b', -, rfl⟩ := List.mem_map.mp hrow
      exact .inl ⟨hmem, rfl⟩

theorem Inv.requete (h : Inv s)
    (ht : step P relance A device retention .requete s = some t) : Inv t := by
  simp only [step, Mailbox.step, Option.map_some] at ht
  obtain rfl := Option.some.inj ht
  refine ⟨h.ids, h.neufs, fun b hb hlive => ?_, h.attendus⟩
  refine (h.conserve b hb hlive).imp_right (Or.imp_right fun hen => ?_)
  refine hen.serveur rfl rfl rfl fun i p hp hmarked hid => ⟨p, ?_, hmarked, hid⟩
  rw [List.getElem?_append_left (List.getElem?_eq_some_iff.mp hp).1]
  exact hp

/-- A poll moves on, and keeps the rows it read. -/
theorem EnCours.avance {id : Uuid} (h : s.EnCours id) {i : Nat} {p : Poll}
    (hp : s.boite.polls[i]? = some p) (p' : Poll) (hids : p'.ids = p.ids)
    (hmarked : p'.stage ≠ .selected) (blobs : List MessageBlob) :
    ({ s with boite := ⟨blobs, s.boite.polls.set i p'⟩ } : Remise E).EnCours id := by
  refine h.serveur rfl rfl rfl fun j q hq hstage hid => ?_
  have hlt := (List.getElem?_eq_some_iff.mp hp).1
  by_cases hij : i = j
  · subst hij
    obtain rfl := Option.some.inj (hp.symm.trans hq)
    exact ⟨p', List.getElem?_set_self hlt, hmarked, hids ▸ hid⟩
  · exact ⟨q, by rw [List.getElem?_set_ne hij, hq], hstage, hid⟩

theorem Inv.marque (h : Inv s) {i now : Nat} (hC : SansPerte P A (.marque i now) s)
    (ht : step P relance A device retention (.marque i now) s = some t) : Inv t := by
  simp only [step, Mailbox.step] at ht
  cases hp : s.boite.polls[i]? with
  | none => simp [hp] at ht
  | some p =>
    simp only [hp] at ht
    split at ht
    · simp only [Option.map_some] at ht
      obtain rfl := Option.some.inj ht
      refine ⟨?_, h.neufs, fun b hb hlive => ?_, h.attendus⟩
      · show ((Server.markDelivered p.ids now s.boite.blobs).map (·.id)).Nodup
        rw [Server.ids_markDelivered]
        exact h.ids
      · rcases h.conserve b hb hlive with ⟨hmem, hpending⟩ | hdone | hen
        · by_cases hid : b.id ∈ p.ids
          · right
            by_cases hclosed : i ∈ s.closes
            · exact .inl (hC hclosed p hp b.id hid)
            · have hlt := (List.getElem?_eq_some_iff.mp hp).1
              exact .inr (.reponse i { p with stage := .marked } (List.getElem?_set_self hlt)
                hclosed (fun h => by cases h) hid)
          · exact .inl ⟨(Server.mem_markDelivered_iff hpending).mpr ⟨hmem, hid⟩, hpending⟩
        · exact .inr (.inl hdone)
        · exact .inr (.inr (hen.avance hp { p with stage := .marked } rfl (fun h => by cases h) _))
    · cases ht

theorem Inv.reponse (h : Inv s) {i : Nat}
    (ht : step P relance A device retention (.reponse i) s = some t) : Inv t := by
  simp only [step, Mailbox.step] at ht
  cases hp : s.boite.polls[i]? with
  | none => simp [hp] at ht
  | some p =>
    simp only [hp] at ht
    split at ht
    · simp only [Option.map_some] at ht
      obtain rfl := Option.some.inj ht
      refine ⟨h.ids, h.neufs, fun b hb hlive => ?_, h.attendus⟩
      exact (h.conserve b hb hlive).imp_right
        (Or.imp_right fun hen =>
          hen.avance hp { p with stage := .answered } rfl (fun h => by cases h) _)
    · cases ht

theorem Inv.purge (h : Inv s) {maintenant : Nat}
    (ht : step P relance A device retention (.purge maintenant) s = some t) : Inv t := by
  obtain rfl := Option.some.inj ht
  refine ⟨?_, h.neufs, fun b hb hlive => ?_, h.attendus⟩
  · exact h.ids.sublist ((List.filter_sublist.trans List.filter_sublist).map _)
  · have hlive' : maintenant ≤ b.expiresAt := Nat.le_trans (Nat.le_max_right _ _) hlive
    rcases h.conserve b hb (Nat.le_trans (Nat.le_max_left _ _) hlive) with
      ⟨hmem, hpending⟩ | hrest
    · refine .inl ⟨List.mem_filter.mpr ⟨List.mem_filter.mpr ⟨hmem, ?_⟩, ?_⟩, hpending⟩
      · rw [hpending]
        rfl
      · simpa using hlive'
    · exact .inr (hrest.imp_right fun hen => hen.sameServeur rfl rfl rfl rfl)

/-! ## Answers -/

theorem Inv.perte (h : Inv s) {i : Nat} (hC : SansPerte P A (.perte i) s)
    (ht : step P relance A device retention (.perte i) s = some t) : Inv t := by
  simp only [step] at ht
  split at ht
  · obtain rfl := Option.some.inj ht
    refine ⟨h.ids, h.neufs, fun b hb hlive => ?_, h.attendus⟩
    rcases h.conserve b hb hlive with hwait | hdone | hen
    · exact .inl hwait
    · exact .inr (.inl hdone)
    · right
      cases hen with
      | reponse j p hp hopen hmarked hid =>
        by_cases hij : j = i
        · subst hij
          exact .inl (hC p hp hmarked b.id hid)
        · exact .inr (.reponse j p hp (by simp [hij, hopen]) hmarked hid)
      | boucle j reste touched hj hid => exact .inr (.boucle j reste touched hj hid)
      | attente a ha hid etape hj hopen => exact .inr (.attente a ha hid etape hj hopen)
  · cases ht

theorem Inv.arrivee (h : Inv s) {i : Nat}
    (ht : step P relance A device retention (.arrivee i) s = some t) : Inv t := by
  simp only [step] at ht
  cases hp : s.boite.polls[i]? with
  | none => simp [hp] at ht
  | some p =>
    simp only [hp, Poste.step, Option.map_some] at ht
    split at ht
    · obtain rfl := Option.some.inj ht
      have hkeep : ∀ {j : Nat} {etape : Etape MessageBlob}, s.poste.releves[j]? = some etape →
          (s.poste.releves ++ [.boucle p.pending []])[j]? = some etape := by
        intro j etape hj
        rw [List.getElem?_append_left (List.getElem?_eq_some_iff.mp hj).1]
        exact hj
      refine ⟨h.ids, h.neufs, fun b hb hlive => ?_, fun a ha => ?_⟩
      · refine (h.conserve b hb hlive).imp_right (Or.imp_right fun hen => ?_)
        cases hen with
        | reponse j q hq hopen hmarked hid =>
          by_cases hij : j = i
          · subst hij
            obtain rfl := Option.some.inj (hp.symm.trans hq)
            exact .boucle s.poste.releves.length p.pending [] List.getElem?_concat_length hid
          · exact .reponse j q hq (by simp [hij, hopen]) hmarked hid
        | boucle j reste touched hj hid => exact .boucle j reste touched (hkeep hj) hid
        | attente a ha hid etape hj hopen => exact .attente a ha hid etape (hkeep hj) hopen
      · obtain ⟨hknown, etape, hj, hcover⟩ := h.attendus a ha
        exact ⟨hknown, etape, hkeep hj, hcover⟩
    · cases ht

theorem Inv.arret (h : Inv s) (hC : SansPerte P A .arret s)
    (ht : step P relance A device retention .arret s = some t) : Inv t := by
  simp only [step, Poste.step, Option.map_some] at ht
  obtain rfl := Option.some.inj ht
  refine ⟨h.ids, h.neufs, fun b hb hlive => ?_, fun a ha => absurd ha List.not_mem_nil⟩
  rcases h.conserve b hb hlive with hwait | hdone | hen
  · exact .inl hwait
  · exact .inr (.inl hdone)
  · exact .inr (.inl (hC b.id hen))

/-! ## The client -/

/-- What is in the vault is struck off; the rest is still to be saved by its poll. -/
theorem inv_solder (hids : (s.boite.blobs.map (·.id)).Nodup)
    (hneufs : ∀ b ∈ s.acceptes, b.deliveredAt = none)
    (hconserve : ∀ b ∈ s.acceptes, s.maintenant ≤ b.expiresAt →
      s.Attend b ∨ b.id ∈ s.traites ∨ s.EnCours b.id ∨ ∃ a ∈ s.attente, a.id = b.id)
    (hattendus : ∀ a ∈ s.attente, a.reste.garde s.poste.client = false →
      (s.poste.client.conv? a.reste.conv).isSome ∧
        ∃ etape, s.poste.releves[a.releve]? = some etape ∧ couvre etape a.reste) :
    Inv s.solder := by
  have hnotFini : ∀ etape r, couvre etape r → etape ≠ .fini := by
    rintro etape r hcover rfl
    cases r <;> cases hcover
  have hsort : ∀ a ∈ s.attente, a.id ∈ s.solder.traites ∨ s.solder.EnCours a.id := by
    intro a ha
    cases hgarde : a.reste.garde s.poste.client with
    | true =>
      exact .inl (List.mem_append_right _
        (List.mem_map_of_mem (List.mem_filter.mpr ⟨ha, hgarde⟩)))
    | false =>
      obtain ⟨-, etape, hi, hcover⟩ := hattendus a ha hgarde
      exact .inr (.attente a (List.mem_filter.mpr ⟨ha, by rw [hgarde]; rfl⟩) rfl etape hi
        (hnotFini etape _ hcover))
  refine ⟨hids, hneufs, fun b hb hlive => ?_, fun a ha => ?_⟩
  · rcases hconserve b hb hlive with hwait | hdone | hen | ⟨a, ha, hid⟩
    · exact .inl hwait
    · exact .inr (.inl (List.mem_append_left _ hdone))
    · right
      cases hen with
      | reponse i p hp hopen hmarked hid => exact .inr (.reponse i p hp hopen hmarked hid)
      | boucle i reste touched hi hid => exact .inr (.boucle i reste touched hi hid)
      | attente a ha hid etape hi hopen => exact hid ▸ hsort a ha
    · exact .inr (hid ▸ hsort a ha)
  · obtain ⟨ha, hgarde⟩ := List.mem_filter.mp ha
    exact hattendus a ha (by simpa using hgarde)

theorem mem_addToSet_of_mem {set : List Text} {t u : Text} (h : t ∈ set) : t ∈ addToSet set u := by
  unfold addToSet
  split
  · exact h
  · exact List.mem_append_left _ h

theorem mem_addToSet_self (set : List Text) (t : Text) : t ∈ addToSet set t := by
  unfold addToSet
  split
  · assumption
  · exact List.mem_append_right _ (List.mem_singleton.mpr rfl)

theorem Inv.tour (h : Inv s) {i : Nat} {now : Int} (hC : SansPerte P A (.tour i now) s)
    (ht : step P relance A device retention (.tour i now) s = some t) : Inv t := by
  simp only [step] at ht
  split at ht
  · rename_i m suite touched hi
    have hthrow := (hC m suite touched hi).not_thrown
    have hknown := receive_known P now (s := s.poste.client) (m := enJson A m)
    have hlt := (List.getElem?_eq_some_iff.mp hi).1
    simp only [Poste.step, hi, Option.map_some] at ht
    obtain rfl := Option.some.inj ht
    rcases hr : receive P now (enJson A m) s.poste.client with ⟨client, r⟩
    rw [hr] at hthrow hknown
    have hclient : afficher r client = client := if_neg hthrow
    dsimp only
    rw [hclient]
    -- Who waited waits on, or it was the message itself.
    have hnext : ∀ (touched' : List Text) (u : Remise E), u.boite = s.boite →
        u.closes = s.closes → u.poste.releves = s.poste.releves.set i (.boucle suite touched') →
        (∀ a ∈ s.attente, a ∈ u.attente) → ∀ id, s.EnCours id →
          id = m.id ∨ u.EnCours id ∨ ∃ a ∈ u.attente, a.id = id := by
      intro touched' u hboite hcloses hreleves hattente id hen
      cases hen with
      | reponse j p hp hopen hmarked hid =>
        exact .inr (.inl (.reponse j p (hboite ▸ hp) (hcloses ▸ hopen) hmarked hid))
      | boucle j suite₀ touched₀ hj hid =>
        by_cases hij : i = j
        · subst hij
          obtain ⟨rfl, rfl⟩ := Etape.boucle.inj (Option.some.inj (hi.symm.trans hj))
          rcases List.mem_cons.mp hid with rfl | hid
          · exact .inl rfl
          · refine .inr (.inl (.boucle i suite touched' ?_ hid))
            rw [hreleves, List.getElem?_set_self hlt]
        · refine .inr (.inl (.boucle j suite₀ touched₀ ?_ hid))
          rw [hreleves, List.getElem?_set_ne hij, hj]
      | attente a ha hid etape hj hopen => exact .inr (.inr ⟨a, hattente a ha, hid⟩)
    have hcover : ∀ touched', (∀ conv ∈ touched, conv ∈ touched') → ∀ a ∈ s.attente,
        (client.conv? a.reste.conv).isSome ∧ ∃ etape,
          (s.poste.releves.set i (.boucle suite touched'))[a.releve]? = some etape ∧
            couvre etape a.reste := by
      intro touched' hsub a ha
      obtain ⟨hold, etape, hj, hcover⟩ := h.attendus a ha
      refine ⟨hknown _ (.inl hold), ?_⟩
      by_cases hij : i = a.releve
      · subst hij
        obtain rfl := Option.some.inj (hi.symm.trans hj)
        exact ⟨_, List.getElem?_set_self hlt, hsub _ hcover⟩
      · exact ⟨etape, by rw [List.getElem?_set_ne hij, hj], hcover⟩
    cases r with
    | thrown => exact absurd rfl hthrow
    | skipped =>
      refine inv_solder h.ids h.neufs (fun b hb hlive => ?_) fun a ha _ => ?_
      · rcases h.conserve b hb hlive with hwait | hdone | hen
        · exact .inl hwait
        · exact .inr (.inl (List.mem_append_left _ hdone))
        · right
          rcases hnext touched (noter i m.id s.poste.client .skipped { s with
            poste := ⟨client, s.poste.releves.set i (.boucle suite touched)⟩ }) rfl rfl rfl
            (fun _ ha => ha) b.id hen with hid | hrest
          · exact .inl (List.mem_append_right _ (List.mem_singleton.mpr hid))
          · exact .inr hrest
      · exact hcover touched (fun _ => id) a ha
    | touched conv =>
      refine inv_solder h.ids h.neufs (fun b hb hlive => ?_) fun a ha _ => ?_
      · rcases h.conserve b hb hlive with hwait | hdone | hen
        · exact .inl hwait
        · exact .inr (.inl hdone)
        · right
          right
          rcases hnext (addToSet touched conv) (noter i m.id s.poste.client (.touched conv) { s with
            poste := ⟨client, s.poste.releves.set i (.boucle suite (addToSet touched conv))⟩ })
            rfl rfl rfl (fun a ha => List.mem_append_left _ ha) b.id hen with hid | hrest
          · exact .inr ⟨_, List.mem_append_right _ (List.mem_singleton.mpr rfl), hid.symm⟩
          · exact hrest
      · rcases List.mem_append.mp ha with hold | hnew
        · exact hcover (addToSet touched conv) (fun _ => mem_addToSet_of_mem) a hold
        · obtain rfl := List.mem_singleton.mp hnew
          have hconv : (reste s.poste.client client conv).conv = conv := by
            unfold reste
            split <;> rfl
          refine ⟨?_, .boucle suite (addToSet touched conv), List.getElem?_set_self hlt, ?_⟩
          · exact hknown _ (.inr (by rw [hconv]))
          · show (reste s.poste.client client conv).conv ∈ addToSet touched conv
            rw [hconv]
            exact mem_addToSet_self touched conv
  · cases ht

/-- A write that a message waits for saves what it changed. -/
theorem garde_historique {c : State E} {conv : Text} (h : (c.conv? conv).isSome) :
    (Reste.fil conv).garde (c.saveHistory conv) = true := by
  obtain ⟨conversation, hc⟩ := Option.isSome_iff_exists.mp h
  rw [Reste.garde, decide_eq_true_iff, messagesIn_saveHistory, messagesIn_of_conv? hc]
  unfold State.saveHistory
  rw [hc]
  exact LinkedMap.get?_insert_self _ _ _

theorem garde_conversations {c : State E} {conv : Text} (h : (c.conv? conv).isSome) :
    (Reste.fiche conv).garde c.saveConversations = true := by
  obtain ⟨conversation, hc⟩ := Option.isSome_iff_exists.mp h
  have hmem : conversation.saved ∈ c.saveConversations.coffre.convs :=
    List.mem_map.mpr ⟨_, LinkedMap.mem_entries_of_get? hc, rfl⟩
  rw [Reste.garde, show c.saveConversations.conv? conv = some conversation from hc, Option.any_some,
    List.any_eq_true]
  exact ⟨conversation.saved, hmem, by simp [Conversation.saved]⟩

theorem Inv.ecrire (h : Inv s) {i : Nat}
    (ht : step P relance A device retention (.ecrire i) s = some t) : Inv t := by
  have hconserve : ∀ (poste : Poste E MessageBlob), (∀ (j : Nat) (suite : List MessageBlob) touched,
      s.poste.releves[j]? = some (.boucle suite touched) → suite ≠ [] →
        poste.releves[j]? = some (.boucle suite touched)) →
      ∀ b ∈ s.acceptes, s.maintenant ≤ b.expiresAt →
        ({ s with poste := poste } : Remise E).Attend b ∨ b.id ∈ s.traites ∨
          ({ s with poste := poste } : Remise E).EnCours b.id ∨ ∃ a ∈ s.attente, a.id = b.id := by
    intro poste hloops b hb hlive
    rcases h.conserve b hb hlive with hwait | hdone | hen
    · exact .inl hwait
    · exact .inr (.inl hdone)
    · right
      right
      cases hen with
      | reponse j p hp hopen hmarked hid => exact .inl (.reponse j p hp hopen hmarked hid)
      | boucle j suite touched hj hid =>
        refine .inl (.boucle j suite touched (hloops j suite touched hj ?_) hid)
        rintro rfl
        cases hid
      | attente a ha hid etape hj hopen => exact .inr ⟨a, ha, hid⟩
  simp only [step, Poste.step] at ht
  split at ht
  · -- The loop is through, and the writes begin.
    rename_i touched hi
    have hlt := (List.getElem?_eq_some_iff.mp hi).1
    obtain rfl := Option.some.inj ht
    refine inv_solder h.ids h.neufs (hconserve _ fun j suite touched' hj hne => ?_) fun a ha _ => ?_
    · by_cases hij : i = j
      · subst hij
        obtain ⟨rfl, -⟩ := Etape.boucle.inj (Option.some.inj (hi.symm.trans hj))
        exact absurd rfl hne
      · exact (List.getElem?_set_ne hij).trans hj
    · obtain ⟨hold, etape, hj, hcover⟩ := h.attendus a ha
      refine ⟨hold, ?_⟩
      by_cases hij : i = a.releve
      · subst hij
        obtain rfl := Option.some.inj (hi.symm.trans hj)
        exact ⟨_, List.getElem?_set_self hlt, couvre_ecrituresDe hcover⟩
      · exact ⟨etape, (List.getElem?_set_ne hij).trans hj, hcover⟩
  · rename_i e es hi
    have hlt := (List.getElem?_eq_some_iff.mp hi).1
    obtain rfl := Option.some.inj ht
    refine inv_solder h.ids h.neufs (hconserve _ fun j suite touched' hj _ => ?_)
      fun a ha hgarde => ?_
    · by_cases hij : i = j
      · subst hij
        cases hi.symm.trans hj
      · exact (List.getElem?_set_ne hij).trans hj
    · obtain ⟨hold, etape, hj, hcover⟩ := h.attendus a ha
      refine ⟨e.faire_known P hold, ?_⟩
      by_cases hij : i = a.releve
      · subst hij
        obtain rfl := Option.some.inj (hi.symm.trans hj)
        refine ⟨_, List.getElem?_set_self hlt, ?_⟩
        -- The write that is done is not the one the message waits for.
        obtain ⟨releve, id, r⟩ := a
        cases r with
        | fil conv =>
          rcases List.mem_cons.mp hcover with rfl | hlater
          · cases (garde_historique hold).symm.trans hgarde
          · exact hlater
        | fiche conv =>
          rcases List.mem_cons.mp hcover with rfl | hlater
          · cases (garde_conversations hold).symm.trans hgarde
          · exact hlater
      · exact ⟨etape, (List.getElem?_set_ne hij).trans hj, hcover⟩
  · cases ht

theorem Inv.step (h : Inv s) {e : Evenement} (hC : SansPerte P A e s)
    (ht : Remise.step P relance A device retention e s = some t) : Inv t := by
  cases e with
  | depot rows => exact h.depot ht
  | requete => exact h.requete ht
  | marque i now => exact h.marque hC ht
  | reponse i => exact h.reponse ht
  | perte i => exact h.perte hC ht
  | arrivee i => exact h.arrivee ht
  | tour i now => exact h.tour hC ht
  | ecrire i => exact h.ecrire ht
  | arret => exact h.arret hC ht
  | purge maintenant => exact h.purge ht

/-! ## Runs -/

/-- Whatever the order of requests, answers, messages, writes, stops and purges: where
nothing is lost on the way, every message that was accepted and has not expired is
returned by a later poll or dealt with, once no poll that is under way has it. -/
theorem remise_conserve (events : List Evenement) (client : State E)
    (hsans : Always (Remise.step P relance A device retention) (SansPerte P A) events
      (debut client))
    (hrun : run (Remise.step P relance A device retention) events (debut client) = some s)
    (b : MessageBlob) (hb : b ∈ s.acceptes) (hlive : s.maintenant ≤ b.expiresAt)
    (hidle : ¬ s.EnCours b.id) : Server.ReturnedLater s.boite b ∨ b.id ∈ s.traites := by
  have h : Inv s := run_invariant_of_always Inv (fun _ _ _ h hC ht => h.step hC ht)
    (inv_debut client) hsans hrun
  rcases h.conserve b hb hlive with hwait | hdone | hen
  · exact .inl ((Server.returnedLater_iff h.ids).mpr hwait)
  · exact .inr hdone
  · exact absurd hen hidle

/-! ## Bob's greeting, and an answer that is lost -/

/-- Every answer has arrived or is lost, no loop has a message left, and nothing is to be
saved. -/
def Calme (s : Remise E) : Prop :=
  (∀ i < s.boite.polls.length, i ∈ s.closes) ∧ (∀ etape ∈ s.poste.releves, etape.messages = []) ∧
    s.attente = []

instance : Decidable s.Calme :=
  inferInstanceAs (Decidable (_ ∧ _))

theorem Calme.not_enCours (h : s.Calme) (id : Uuid) : ¬ s.EnCours id := by
  obtain ⟨hclosed, hloops, hsaved⟩ := h
  intro hen
  cases hen with
  | reponse i p hp hopen hmarked hid => exact hopen (hclosed i (List.getElem?_eq_some_iff.mp hp).1)
  | boucle i reste touched hi hid =>
    have hnone : reste = [] := hloops _ (List.mem_of_getElem? hi)
    rw [hnone] at hid
    cases hid
  | attente a ha hid etape hi hopen =>
    rw [hsaved] at ha
    cases ha

/-- Bob's greeting as the server stores it, for our device `20`. -/
def bonjourStocke : MessageBlob where
  id := 1
  conversationId := some 5
  channelId := none
  senderDeviceId := some 30
  recipientDeviceId := 20
  clientMessageId := 2
  ratchetHeader := [2]
  ciphertext := [1]
  createdAt := 0
  deliveredAt := none
  expiresAt := 100

def annuaireDeBob : Annuaire where
  uuid id := if id = 5 then text "bob" else if id = 30 then text "bob-1" else text "u-bob"
  b64 bytes := if bytes = [2] then text "Ag==" else text "AQ=="
  username _ := text "bob"
  userId id := id + 1

/-- The greeting is stored, and our poll has read it and marked it. -/
def releveDeBob : List Evenement := [.depot [bonjourStocke], .requete, .marque 0 1, .reponse 0]

/-- The greeting arrives, opens, and its thread is saved. -/
def lectureDeBob : List Evenement :=
  releveDeBob ++ [.arrivee 0, .tour 0 1, .ecrire 0, .ecrire 0]

theorem bonjour_receivable :
    Receivable (scripted bonjourScript) 1 (enJson annuaireDeBob bonjourStocke) talkOfBob := by
  intro m' hm'
  obtain rfl := Option.some.inj hm'
  refine ⟨⟨rfl, rfl, rfl, rfl, [2], rfl, .inl rfl⟩, ?_⟩
  rintro conv sender plain s' ⟨-, s₀, s₁, henv, hresolve, hopen⟩
  obtain ⟨rfl, -⟩ := Prod.mk.inj henv
  obtain ⟨rfl, rfl⟩ := Prod.mk.inj (Option.some.inj hresolve)
  obtain ⟨rfl, rfl, rfl⟩ := Opening.clair.inj hopen
  exact ⟨rfl, by decide +kernel, fun _ _ _ => ⟨_, rfl, rfl⟩⟩

theorem bonjour_conserve : ∃ s,
    run (step (scripted bonjourScript) id annuaireDeBob 20 7) lectureDeBob (debut talkOfBob) =
      some s ∧ (Server.ReturnedLater s.boite bonjourStocke ∨ bonjourStocke.id ∈ s.traites) := by
  have hend : (run (step (scripted bonjourScript) id annuaireDeBob 20 7) lectureDeBob
      (debut talkOfBob)).any (fun s => decide (bonjourStocke ∈ s.acceptes ∧
        s.maintenant ≤ bonjourStocke.expiresAt ∧ s.Calme)) = true := by decide +kernel
  obtain ⟨s, hrun, hs⟩ := (Option.any_eq_true _ _).mp hend
  obtain ⟨hstored, hlive, hcalme⟩ := of_decide_eq_true hs
  have hsans : Always (step (scripted bonjourScript) id annuaireDeBob 20 7)
      (SansPerte (scripted bonjourScript) annuaireDeBob) lectureDeBob (debut talkOfBob) := by
    refine .cons trivial rfl (.cons trivial rfl (.cons nofun rfl (.cons trivial rfl
      (.cons trivial rfl (.cons ?_ rfl (.cons trivial rfl (.cons trivial rfl trivial)))))))
    intro m suite touched hi
    obtain ⟨hm, -⟩ := Etape.boucle.inj (Option.some.inj hi)
    obtain ⟨rfl, -⟩ := List.cons.inj hm
    exact bonjour_receivable
  exact ⟨s, hrun, remise_conserve lectureDeBob talkOfBob hsans hrun bonjourStocke hstored hlive
    (hcalme.not_enCours _)⟩

/-- After a run no poll has the greeting and none will return it, and the client is not
done with it. -/
def Perdu (events : List Evenement) : Prop :=
  ∃ s, run (step (scripted bonjourScript) id annuaireDeBob 20 7) events (debut talkOfBob) = some s ∧
    bonjourStocke ∈ s.acceptes ∧ s.maintenant ≤ bonjourStocke.expiresAt ∧
    ¬ s.EnCours bonjourStocke.id ∧ ¬ Server.ReturnedLater s.boite bonjourStocke ∧
    bonjourStocke.id ∉ s.traites

theorem perdu_of_check {events : List Evenement}
    (h : (run (step (scripted bonjourScript) id annuaireDeBob 20 7) events (debut talkOfBob)).any
      (fun s => decide (bonjourStocke ∈ s.acceptes ∧ s.maintenant ≤ bonjourStocke.expiresAt ∧
        s.Calme ∧ (s.boite.blobs.map (·.id)).Nodup ∧ bonjourStocke ∉ s.boite.blobs ∧
        bonjourStocke.id ∉ s.traites)) = true) : Perdu events := by
  obtain ⟨s, hrun, hs⟩ := (Option.any_eq_true _ _).mp h
  obtain ⟨hstored, hlive, hcalme, hids, hgone, hnot⟩ := of_decide_eq_true hs
  refine ⟨s, hrun, hstored, hlive, hcalme.not_enCours _, fun hlater => ?_, hnot⟩
  exact hgone ((Server.returnedLater_iff hids).mp hlater).1

/-- The answer is lost; or it arrives, and the client stops. -/
theorem bonjour_perdu :
    Perdu (releveDeBob ++ [.perte 0]) ∧ Perdu (releveDeBob ++ [.arrivee 0, .arret]) :=
  ⟨perdu_of_check (by decide +kernel), perdu_of_check (by decide +kernel)⟩

end Remise

end ZiaCrypte.Inbox
