import ZiaCrypte.Lib.Slots
import ZiaCrypte.Realtime.GatewayIndexes
import ZiaCrypte.Realtime.Observation
import ZiaCrypte.Server.Routes

/-!
# Subscriptions, blocks and departures, statement by statement

A subscription is authorised by several questions to the database and put in place after
the last answer; `POST /blocks` writes its row, reads the devices of the two accounts and
cuts the subscriptions that are in force. Every await lets the others go on.
-/
namespace ZiaCrypte.Server

namespace Database

/-- Blocking an account twice is blocking it once. -/
def upsertBlock (db : Database) (me userId : Uuid) : Database :=
  if db.estBloque userId me then db else { db with blocks := db.blocks ++ [⟨me, userId⟩] }

def deleteBlocks (db : Database) (me userId : Uuid) : Database :=
  { db with blocks := db.blocks.filter fun b =>
      !(b.blockerUserId == me && b.blockedUserId == userId) }

end Database

/-- A block is between these two accounts, in one direction or the other. -/
def Block.Separe (b : Block) (u v : Uuid) : Prop :=
  (b.blockerUserId = u ∧ b.blockedUserId = v) ∨ (b.blockerUserId = v ∧ b.blockedUserId = u)

instance (b : Block) (u v : Uuid) : Decidable (b.Separe u v) :=
  inferInstanceAs (Decidable ((b.blockerUserId = u ∧ b.blockedUserId = v) ∨
    (b.blockerUserId = v ∧ b.blockedUserId = u)))

end ZiaCrypte.Server

namespace ZiaCrypte.Realtime

open ZiaCrypte.Lib ZiaCrypte.Server

/-- A subscription whose authorisation is being checked. -/
structure Demande where
  abonnement : AbonnementEnCours
  etape : Verification
  deriving DecidableEq

/-- What `POST /blocks` does next, the account having been found. -/
inductive BlocageEtape where
  | upsert
  | appareils
  | coupure (a b : List Uuid)
  deriving DecidableEq

structure BlocageEnCours where
  me : Uuid
  userId : Uuid
  etape : BlocageEtape
  deriving DecidableEq

/-- A departure that was allowed and is not yet written. -/
structure DepartEnCours where
  conversationId : Uuid
  userId : Uuid
  now : Nat
  deriving DecidableEq

/-- The gateway, the tables, the requests under way, and the blocks that last and whose
`POST /blocks` is done. -/
structure Presences where
  runtime : Runtime
  db : Database
  demandes : List Demande
  blocages : List BlocageEnCours
  departs : List DepartEnCours
  poses : List Block

inductive PresenceInput where
  /-- An event of the gateway that asks the database nothing about presence. -/
  | realtime (i : Input)
  | subscribe (socket : Socket) (devices : Devices)
  | demande (i : Nat)
  | postBlock (me userId : Uuid)
  | blocage (i : Nat)
  | deleteBlock (me userId : Uuid)
  | deleteMember (me : Auth) (conversationId userId : Uuid) (now : Nat)
  | depart (i : Nat)

/-- The events that are not steps of a request. -/
def Input.estLibre : Input → Bool
  | .message _ (.presenceSubscribe _) => false
  | .autorise _ _ => false
  | .revoquerPresence _ _ _ _ => false
  | .deconnecterAppareil _ => false
  | _ => true

/-- `appareilsDeDeuxComptes`, for one of them. -/
def appareilsDe (db : Database) (userId : Uuid) : List Uuid :=
  (db.devices.filter (·.userId == userId)).map (·.id)

namespace Presences

def start (db : Database) : Presences where
  runtime := .start
  db := db
  demandes := []
  blocages := []
  departs := []
  poses := db.blocks

def gateway (s : Presences) : Gateway := s.runtime.gateway

def setGateway (s : Presences) (g : Gateway) : Presences :=
  { s with runtime := { s.runtime with gateway := g } }

def subscribe (s : Presences) (titulaire : Titulaire) (socket : Socket) (devices : Devices) :
    Presences :=
  let demandes := devices.firsts MAX_ABONNEMENTS
  { s with demandes := s.demandes ++ [⟨⟨socket, titulaire.userId, demandes⟩, .debut demandes⟩] }

/-- The next question of a subscription, or its end. -/
def avancer (s : Presences) (i : Nat) (v : Demande) : Presences :=
  match v.etape with
  | .faite autorises =>
      { s.setGateway (s.gateway.abonnerPresence v.abonnement.socket autorises) with
        demandes := s.demandes.eraseIdx i }
  | etape =>
      { s with demandes := s.demandes.set i { v with
          etape := etape.suite s.db v.abonnement.observateur v.abonnement.demandes } }

/-- An account is not blocked by itself, and one that is gone is answered 404. -/
def postBlock (s : Presences) (me userId : Uuid) : Presences :=
  match s.db.findUser userId with
  | none => s
  | some cible =>
      if userId = me ∨ cible.deletedAt ≠ none then s
      else { s with blocages := s.blocages ++ [⟨me, userId, .upsert⟩] }

def bloquer (s : Presences) (i : Nat) (r : BlocageEnCours) : Presences :=
  match r.etape with
  | .upsert =>
      { s with
        db := s.db.upsertBlock r.me r.userId
        blocages := s.blocages.set i { r with etape := .appareils } }
  | .appareils =>
      { s with blocages := s.blocages.set i { r with
          etape := .coupure (appareilsDe s.db r.me) (appareilsDe s.db r.userId) } }
  | .coupure a b =>
      { s.setGateway (s.gateway.revoquerPresence r.me r.userId a b) with
        blocages := s.blocages.eraseIdx i
        poses := if ⟨r.me, r.userId⟩ ∈ s.db.blocks then ⟨r.me, r.userId⟩ :: s.poses else s.poses }

def deleteBlock (s : Presences) (me userId : Uuid) : Presences :=
  { s with
    db := s.db.deleteBlocks me userId
    poses := s.poses.filter fun b => !(b.blockerUserId == me && b.blockedUserId == userId) }

/-- Who leaves has to be a member, who removes somebody else an administrator. -/
def deleteMember (s : Presences) (me : Auth) (conversationId userId : Uuid) (now : Nat) :
    Presences :=
  match (if userId = me.userId then requireMembership s.db conversationId me.userId
    else requireAdmin s.db conversationId me.userId) with
  | .error _ => s
  | .ok _ => { s with departs := s.departs ++ [⟨conversationId, userId, now⟩] }

def partir (s : Presences) (r : DepartEnCours) : Database :=
  s.db.updateParticipant r.conversationId r.userId fun p => { p with leftAt := some r.now }

def step : PresenceInput → Presences → Option Presences
  | .realtime i, s =>
      if i.estLibre then (Runtime.step i s.runtime).map fun r => { s with runtime := r } else none
  | .subscribe socket devices, s => do
      let c ← s.gateway.connexions socket
      if c.readyState = .closed then none
      else
        match s.gateway.titulaires.get? socket with
        | none => some s
        | some titulaire => some (s.subscribe titulaire socket devices)
  | .demande i, s => s.demandes[i]?.map fun v => s.avancer i v
  | .postBlock me userId, s => some (s.postBlock me userId)
  | .blocage i, s => s.blocages[i]?.map fun r => s.bloquer i r
  | .deleteBlock me userId, s => some (s.deleteBlock me userId)
  | .deleteMember me conversationId userId now, s =>
      some (s.deleteMember me conversationId userId now)
  | .depart i, s => s.departs[i]?.map fun r =>
      { s with db := s.partir r, departs := s.departs.eraseIdx i }

/-! ## What must hold of the subscriptions -/

/-- A subscription in force, of a socket of one account to a device of another. -/
structure Croisement (g : Gateway) (devices : List Device) (w : Socket) (t : Titulaire)
    (c : Device) : Prop where
  titulaire : g.titulaire? w = some t
  abonne : g.abonnements.Holds w c.id
  appareil : c ∈ devices
  autre : c.userId ≠ t.userId

/-- No subscription crosses a block that lasts and whose request is done; and with no
request under way every subscription would be granted again. -/
structure Conforme (s : Presences) : Prop where
  bloques : ∀ b ∈ s.poses, ∀ w t c, Croisement s.gateway s.db.devices w t c → ¬ b.Separe t.userId c.userId
  accordes : s.demandes = [] → s.blocages = [] → s.departs = [] →
    ∀ w t c, Croisement s.gateway s.db.devices w t c → c.id ∈ autoriserObservation s.db t.userId [c.id]

/-- The accounts still share a conversation, and no block that is done separates them. -/
def Accordable (s : Presences) (observateur d : Uuid) : Prop :=
  ∀ c ∈ s.db.devices, c.id = d → c.userId ≠ observateur →
    s.db.partagent observateur c.userId = true ∧ ∀ b ∈ s.poses, ¬ b.Separe observateur c.userId

instance decidableAccordable (s : Presences) (observateur d : Uuid) :
    Decidable (s.Accordable observateur d) :=
  inferInstanceAs (Decidable (∀ c ∈ s.db.devices, c.id = d → c.userId ≠ observateur →
    s.db.partagent observateur c.userId = true ∧ ∀ b ∈ s.poses, ¬ b.Separe observateur c.userId))

/-- What is granted is still so when the subscription is put in place, and a departure
leaves every subscription in force another conversation. -/
def SansCourse : PresenceInput → Presences → Prop
  | .demande i, s => ∀ v ∈ s.demandes[i]?,
      s.gateway.titulaires.containsKey v.abonnement.socket = true →
        ∀ d ∈ v.etape.autorises, s.Accordable v.abonnement.observateur d
  | .depart i, s => ∀ r ∈ s.departs[i]?, ∀ x ∈ s.gateway.titulaires.entries,
      ∀ d ∈ (s.gateway.abonnements.get? x.1).getD [], ∀ c ∈ s.db.devices, c.id = d →
        c.userId ≠ x.2.userId → (s.partir r).partagent x.2.userId c.userId = true
  | _, _ => True

instance decidableSansCourse (i : PresenceInput) (s : Presences) : Decidable (SansCourse i s) :=
  match i with
  | .demande i => inferInstanceAs (Decidable (∀ v ∈ s.demandes[i]?,
      s.gateway.titulaires.containsKey v.abonnement.socket = true →
        ∀ d ∈ v.etape.autorises, s.Accordable v.abonnement.observateur d))
  | .depart i => inferInstanceAs (Decidable (∀ r ∈ s.departs[i]?,
      ∀ x ∈ s.gateway.titulaires.entries, ∀ d ∈ (s.gateway.abonnements.get? x.1).getD [],
        ∀ c ∈ s.db.devices, c.id = d → c.userId ≠ x.2.userId →
          (s.partir r).partagent x.2.userId c.userId = true))
  | .realtime _ | .subscribe _ _ | .postBlock _ _ | .blocage _ | .deleteBlock _ _
  | .deleteMember _ _ _ _ => isTrue trivial

/-- The devices a subscription is about are active. -/
def Actifs (db : Database) : Verification → Prop
  | .appareils => True
  | .miennes cibles => ∀ c ∈ cibles, c ∈ db.devices ∧ c.isActive = true
  | .communs cibles _ => ∀ c ∈ cibles, c ∈ db.devices ∧ c.isActive = true
  | .blocages cibles _ => ∀ c ∈ cibles, c ∈ db.devices ∧ c.isActive = true
  | .faite autorises => ∀ d ∈ autorises, ∃ c ∈ db.devices, c.id = d ∧ c.isActive = true

/-- What every step keeps, in a run without the races. -/
structure Tenue (s : Presences) : Prop where
  indexes : s.gateway.Indexes
  actifs : ∀ w d, s.gateway.abonnements.Holds w d → ∃ c ∈ s.db.devices, c.id = d ∧ c.isActive = true
  demandes : ∀ v ∈ s.demandes, Actifs s.db v.etape ∧
    (s.gateway.titulaire? v.abonnement.socket).map (·.userId) = some v.abonnement.observateur
  partages : ∀ w t c, Croisement s.gateway s.db.devices w t c → s.db.partagent t.userId c.userId = true
  bloques : ∀ b ∈ s.poses, ∀ w t c, Croisement s.gateway s.db.devices w t c → ¬ b.Separe t.userId c.userId
  /-- A block that is written is done, or its request goes on. -/
  ecrits : ∀ b ∈ s.db.blocks, b ∈ s.poses ∨
    ∃ r ∈ s.blocages, r.etape ≠ .upsert ∧ b = ⟨r.me, r.userId⟩
  coupures : ∀ r ∈ s.blocages, ∀ a b, r.etape = .coupure a b →
    a = appareilsDe s.db r.me ∧ b = appareilsDe s.db r.userId
  distincts : ∀ r ∈ s.blocages, r.userId ≠ r.me

open Gateway

variable {s t : Presences}

theorem Tenue.conforme (h : s.Tenue) : s.Conforme := by
  refine ⟨h.bloques, ?_⟩
  intro _ hblocages _ w t c hc
  have hpartage := h.partages w t c hc
  obtain ⟨c', hc', hid, hactive⟩ := h.actifs w c.id hc.abonne
  refine mem_autoriserObservation.mpr ⟨c', hc', hid, by simp, hactive, ?_⟩
  by_cases hown : c'.userId = t.userId
  · exact .inl hown
  · have hcroise : Croisement s.gateway s.db.devices w t c' := ⟨hc.titulaire, hid ▸ hc.abonne, hc', hown⟩
    refine .inr ⟨h.partages w t c' hcroise, ?_⟩
    rw [← Bool.not_eq_true]
    intro hblocage
    have hrow : ∃ b ∈ s.db.blocks, b.Separe t.userId c'.userId := by
      unfold Database.enBlocage at hblocage
      rw [Bool.or_eq_true, estBloque_iff, estBloque_iff] at hblocage
      rcases hblocage with ⟨b, hb, hblocker, hblocked⟩ | ⟨b, hb, hblocker, hblocked⟩
      · exact ⟨b, hb, .inr ⟨hblocker, hblocked⟩⟩
      · exact ⟨b, hb, .inl ⟨hblocker, hblocked⟩⟩
    obtain ⟨b, hb, hsepare⟩ := hrow
    rcases h.ecrits b hb with hpose | ⟨r, hr, -⟩
    · exact h.bloques b hpose w t c' hcroise hsepare
    · rw [hblocages] at hr
      cases hr

theorem tenue_start (db : Database) : (start db).Tenue where
  indexes := indexes_empty
  actifs w d hd := absurd hd Index.not_holds_empty
  demandes v hv := by cases hv
  partages w t c hc := absurd hc.abonne Index.not_holds_empty
  bloques b _ w t c hc := absurd hc.abonne Index.not_holds_empty
  ecrits b hb := .inl hb
  coupures r hr := by cases hr
  distincts r hr := by cases hr

/-! ## Steps of the gateway -/

/-- No subscription is new, and no socket has a new holder. -/
theorem Tenue.runtime (h : s.Tenue) {r : Runtime} (hg : r.gateway.Indexes)
    (habonnements : ∀ w d, r.gateway.abonnements.Holds w d → s.gateway.abonnements.Holds w d ∧
      r.gateway.titulaire? w = s.gateway.titulaire? w)
    (htitulaires : ∀ w t, s.gateway.titulaire? w = some t → r.gateway.titulaire? w = some t) :
    Tenue { s with runtime := r } := by
  have hcroise : ∀ w t c, Croisement r.gateway s.db.devices w t c →
      Croisement s.gateway s.db.devices w t c := by
    intro w t c hc
    obtain ⟨hheld, hsame⟩ := habonnements w c.id hc.abonne
    exact ⟨hsame ▸ hc.titulaire, hheld, hc.appareil, hc.autre⟩
  refine ⟨hg, fun w d hd => h.actifs w d (habonnements w d hd).1, fun v hv => ⟨(h.demandes v hv).1, ?_⟩,
    fun w t c hc => h.partages w t c (hcroise w t c hc),
    fun b hb w t c hc => h.bloques b hb w t c (hcroise w t c hc), h.ecrits, h.coupures, h.distincts⟩
  obtain ⟨t, ht, hobservateur⟩ := Option.map_eq_some_iff.mp (h.demandes v hv).2
  dsimp only [gateway]
  rw [htitulaires _ t ht]
  exact congrArg some hobservateur

theorem Tenue.reste (h : s.Tenue) {r : Runtime} (hg : r.gateway.Indexes)
    (hr : Reste s.gateway r.gateway) : Tenue { s with runtime := r } :=
  h.runtime hg (fun w d hd => ⟨hr.abonnements w d hd, hr.titulaire w⟩)
    fun w _ ht => (hr.titulaire w).trans ht

theorem Tenue.connexion (h : s.Tenue) {w : Socket} (hfresh : s.gateway.connexions w = none)
    {claims : Option Titulaire} {r : Runtime} (hr : r.gateway = s.gateway.connexion w claims) :
    Tenue { s with runtime := r } := by
  have hg := h.indexes.connexion hfresh claims
  rw [← hr] at hg
  cases claims with
  | none =>
    have hsame : r.gateway = s.gateway := hr
    exact h.runtime hg (fun _ _ hd => ⟨hsame ▸ hd, by rw [hsame]⟩) fun _ _ ht => by rw [hsame]; exact ht
  | some titulaire =>
    have hothers : ∀ w', w' ≠ w → r.gateway.titulaire? w' = s.gateway.titulaire? w' := by
      intro w' hw
      rw [hr, connexion_titulaire, if_neg hw]
    refine h.runtime hg (fun w' d hd => ?_) fun w' t ht => ?_
    · rw [hr, (connexion_some s.gateway w titulaire).sameMaps.abonnements] at hd
      refine ⟨hd, hothers w' ?_⟩
      rintro rfl
      exact h.indexes.fresh_abonnements hfresh hd
    · rw [hothers w']
      · exact ht
      · rintro rfl
        unfold titulaire? at ht
        rw [hfresh] at ht
        cases ht

theorem Tenue.realtime (h : s.Tenue) {i : Input} (ht : step (.realtime i) s = some t) :
    t.Tenue := by
  simp only [step] at ht
  split at ht
  · rename_i hlibre
    obtain ⟨r, hr, rfl⟩ := Option.map_eq_some_iff.mp ht
    have hm := Runtime.step_move hr
    rcases reste_move hm with ⟨w, claims, rfl, hfresh, hg⟩ | ⟨n, w, autorises, rfl, -⟩ | hreste
    · exact h.connexion hfresh hg
    · cases hlibre
    · exact h.reste (h.indexes.move hm) hreste
  · cases ht

/-! ## Steps of a subscription -/

theorem actifs_suite {db : Database} {v : Verification} (h : Actifs db v) (observateur : Uuid)
    (demandes : List Uuid) : Actifs db (v.suite db observateur demandes) := by
  have hcibles : ∀ c ∈ ciblesActives db demandes, c ∈ db.devices ∧ c.isActive = true := fun c hc =>
    ⟨(mem_ciblesActives.mp hc).1, (mem_ciblesActives.mp hc).2.2⟩
  have haccordes : ∀ cibles users, (∀ c ∈ cibles, c ∈ db.devices ∧ c.isActive = true) →
      Actifs db (.faite (appareilsAccordes observateur cibles users)) := by
    intro cibles users hactives d hd
    obtain ⟨c, hc, hid, -⟩ := mem_appareilsAccordes.mp hd
    exact ⟨c, (hactives c hc).1, hid, (hactives c hc).2⟩
  cases v with
  | appareils =>
    simp only [Verification.suite]
    split
    · exact fun d hd => by cases hd
    · split
      · exact haccordes _ _ hcibles
      · exact hcibles
  | miennes cibles =>
    simp only [Verification.suite]
    split
    · exact h
    · exact h
  | communs cibles conversations => exact h
  | blocages cibles users => exact haccordes cibles _ h
  | faite autorises => exact h

theorem Tenue.subscribe (h : s.Tenue) {w : Socket} {titulaire : Titulaire}
    (ht : s.gateway.titulaires.get? w = some titulaire) (devices : Devices) :
    (s.subscribe titulaire w devices).Tenue := by
  refine ⟨h.indexes, h.actifs, fun v hv => ?_, h.partages,
    h.bloques, h.ecrits, h.coupures, h.distincts⟩
  rcases mem_concat_cases hv with hold | hnew
  · exact h.demandes v hold
  · obtain rfl := hnew
    constructor
    · dsimp only
      unfold Verification.debut
      split
      · exact fun d hd => by cases hd
      · trivial
    · exact congrArg (Option.map (·.userId)) (h.indexes.poignee w titulaire ht)

/-- One more question is answered. -/
theorem Tenue.question (h : s.Tenue) {i : Nat} {v : Demande} (hv : s.demandes[i]? = some v) :
    Tenue { s with demandes := s.demandes.set i { v with
      etape := v.etape.suite s.db v.abonnement.observateur v.abonnement.demandes } } := by
  refine ⟨h.indexes, h.actifs, fun v' hv' => ?_, h.partages,
    h.bloques, h.ecrits, h.coupures, h.distincts⟩
  rcases mem_set_cases hv' with hold | rfl
  · exact h.demandes v' hold
  · have hmem := h.demandes v (List.mem_of_getElem? hv)
    exact ⟨actifs_suite hmem.1 _ _, hmem.2⟩

/-- What is granted is put in place while it is still so. -/
theorem Tenue.abonner (h : s.Tenue) {i : Nat} {v : Demande} (hv : s.demandes[i]? = some v)
    {autorises : List Uuid} (hetape : v.etape = .faite autorises)
    (hC : SansCourse (.demande i) s) :
    Tenue { s.setGateway (s.gateway.abonnerPresence v.abonnement.socket autorises) with
      demandes := s.demandes.eraseIdx i } := by
  have hdemandes : ∀ v' ∈ s.demandes.eraseIdx i, v' ∈ s.demandes := fun v' => List.mem_of_mem_eraseIdx
  by_cases hcontains : s.gateway.titulaires.containsKey v.abonnement.socket = true
  · have hr := reabonne_abonnerPresence h.indexes.souscriptions hcontains autorises
    have hmem := h.demandes v (List.mem_of_getElem? hv)
    have haccord : ∀ d ∈ autorises, s.Accordable v.abonnement.observateur d := by
      have hall := hC v hv hcontains
      rw [hetape] at hall
      exact hall
    have htitulaire : ∀ w, (s.gateway.abonnerPresence v.abonnement.socket autorises).titulaire? w =
        s.gateway.titulaire? w := by
      intro w
      unfold titulaire?
      rw [hr.connexions]
    have hcroise : ∀ w t c, Croisement (s.gateway.abonnerPresence v.abonnement.socket autorises)
        s.db.devices w t c → Croisement s.gateway s.db.devices w t c ∨ (t.userId = v.abonnement.observateur ∧ c.id ∈ autorises) := by
      intro w t c hc
      have hw : s.gateway.titulaire? w = some t := (htitulaire w).symm.trans hc.titulaire
      have hheld := (hr.abonnements w c.id).mp hc.abonne
      by_cases hww : w = v.abonnement.socket
      · rw [if_pos hww] at hheld
        have huser := hmem.2
        rw [← hww, hw] at huser
        exact .inr ⟨Option.some.inj huser, hheld⟩
      · rw [if_neg hww] at hheld
        exact .inl ⟨hw, hheld, hc.appareil, hc.autre⟩
    refine ⟨h.indexes.abonnerPresence _ autorises, fun w d hd => ?_, fun v' hv' => ?_,
      fun w t c hc => ?_, fun b hb w t c hc => ?_, h.ecrits, h.coupures, h.distincts⟩
    · have hheld := (hr.abonnements w d).mp hd
      by_cases hww : w = v.abonnement.socket
      · rw [if_pos hww] at hheld
        have hactifs := hmem.1
        rw [hetape] at hactifs
        exact hactifs d hheld
      · rw [if_neg hww] at hheld
        exact h.actifs w d hheld
    · have hold := h.demandes v' (hdemandes v' hv')
      exact ⟨hold.1, (congrArg (Option.map (·.userId)) (htitulaire _)).trans hold.2⟩
    · rcases hcroise w t c hc with hold | ⟨huser, hd⟩
      · exact h.partages w t c hold
      · rw [huser]
        exact (haccord c.id hd c hc.appareil rfl (huser ▸ hc.autre)).1
    · rcases hcroise w t c hc with hold | ⟨huser, hd⟩
      · exact h.bloques b hb w t c hold
      · rw [huser]
        exact (haccord c.id hd c hc.appareil rfl (huser ▸ hc.autre)).2 b hb
  · rw [abonnerPresence_of_not hcontains]
    exact ⟨h.indexes, h.actifs, fun v' hv' => h.demandes v' (hdemandes v' hv'),
      h.partages,
      h.bloques, h.ecrits, h.coupures,
      h.distincts⟩

theorem Tenue.avancer (h : s.Tenue) {i : Nat} {v : Demande} (hv : s.demandes[i]? = some v)
    (hC : SansCourse (.demande i) s) : (s.avancer i v).Tenue := by
  cases hetape : v.etape with
  | faite autorises =>
    unfold Presences.avancer
    rw [hetape]
    exact h.abonner hv hetape hC
  | _ =>
    have hquestion := h.question hv
    unfold Presences.avancer
    rw [hetape] at hquestion ⊢
    exact hquestion

/-! ## Steps of a block -/

theorem Tenue.postBlock (h : s.Tenue) (me userId : Uuid) : (s.postBlock me userId).Tenue := by
  unfold Presences.postBlock
  split
  · exact h
  · split
    · exact h
    · rename_i hvalid
      refine ⟨h.indexes, h.actifs, h.demandes, h.partages,
        h.bloques, fun b hb => ?_,
        fun r hr => ?_, fun r hr => ?_⟩
      · rcases h.ecrits b hb with hpose | ⟨r, hr, hrest⟩
        · exact .inl hpose
        · exact .inr ⟨r, List.mem_append_left _ hr, hrest⟩
      · rcases mem_concat_cases hr with hold | hnew
        · exact h.coupures r hold
        · obtain rfl := hnew
          intro a b hetape
          cases hetape
      · rcases mem_concat_cases hr with hold | hnew
        · exact h.distincts r hold
        · obtain rfl := hnew
          exact fun hsame => hvalid (.inl hsame)

/-- A request goes one statement on, and the tables with it. -/
theorem Tenue.etape (h : s.Tenue) {i : Nat} {r : BlocageEnCours} (hr : s.blocages[i]? = some r)
    (db : Database) (etape : BlocageEtape) (hdevices : db.devices = s.db.devices)
    (hparticipants : db.participants = s.db.participants) (hetape : etape ≠ .upsert)
    (hblocks : ∀ b ∈ db.blocks, b ∈ s.db.blocks ∨ b = ⟨r.me, r.userId⟩)
    (hcoupure : ∀ a b, etape = .coupure a b →
      a = appareilsDe s.db r.me ∧ b = appareilsDe s.db r.userId) :
    Tenue { s with db := db, blocages := s.blocages.set i { r with etape := etape } } := by
  have hself : { r with etape := etape } ∈ s.blocages.set i { r with etape := etape } := set_self_mem hr
  have happareils : ∀ u, appareilsDe db u = appareilsDe s.db u := by
    intro u
    unfold appareilsDe
    rw [hdevices]
  have hcroise : ∀ w t c, Croisement s.gateway db.devices w t c →
      Croisement s.gateway s.db.devices w t c :=
    fun w t c hc => ⟨hc.1, hc.2, hdevices ▸ hc.3, hc.4⟩
  refine ⟨h.indexes, fun w d hd => ?_, fun v hv => ?_, fun w t c hc => ?_,
    fun b hb w t c hc => h.bloques b hb w t c (hcroise w t c hc), fun b hb => ?_, fun r' hr' => ?_,
    fun r' hr' => ?_⟩
  · dsimp only
    rw [hdevices]
    exact h.actifs w d hd
  · have hold := h.demandes v hv
    refine ⟨?_, hold.2⟩
    have hactifs := hold.1
    unfold Actifs at hactifs ⊢
    dsimp only
    rw [hdevices]
    exact hactifs
  · have hpartage := h.partages w t c (hcroise w t c hc)
    unfold Database.partagent at hpartage ⊢
    dsimp only
    rw [hparticipants]
    exact hpartage
  · rcases hblocks b hb with hold | rfl
    · rcases h.ecrits b hold with hpose | ⟨r', hr', hetape', rfl⟩
      · exact .inl hpose
      · rcases mem_set_of_mem hr hr' with rfl | hmem
        · exact .inr ⟨_, hself, hetape, rfl⟩
        · exact .inr ⟨r', hmem, hetape', rfl⟩
    · exact .inr ⟨_, hself, hetape, rfl⟩
  · intro a b hr''
    dsimp only
    rw [happareils, happareils]
    rcases mem_set_cases hr' with hold | rfl
    · exact h.coupures r' hold a b hr''
    · exact hcoupure a b hr''
  · rcases mem_set_cases hr' with hold | rfl
    · exact h.distincts r' hold
    · exact h.distincts r (List.mem_of_getElem? hr)

theorem mem_appareilsDe {db : Database} {c : Device} (hc : c ∈ db.devices) :
    c.id ∈ appareilsDe db c.userId :=
  List.mem_map.mpr ⟨c, List.mem_filter.mpr ⟨hc, by simp⟩, rfl⟩

/-- What a cut leaves crosses none of the two accounts. -/
theorem Tenue.separe (h : s.Tenue) {me userId : Uuid} (hne : userId ≠ me) {w : Socket}
    {t : Titulaire} {c : Device}
    (hc : Croisement (s.gateway.revoquerPresence me userId (appareilsDe s.db me)
      (appareilsDe s.db userId)) s.db.devices w t c) :
    ¬ (⟨me, userId⟩ : Block).Separe t.userId c.userId := by
  have hs := revoquerPresence_restreint s.gateway me userId (appareilsDe s.db me)
    (appareilsDe s.db userId)
  have hsubscribed := h.indexes.abonnes w c.id (hs.abonnements w c.id hc.abonne)
  obtain ⟨t', ht'⟩ := Option.isSome_iff_exists.mp hsubscribed
  have hsame : t' = t := by
    have htitulaire := hc.titulaire
    unfold titulaire? at htitulaire
    rw [hs.connexions, h.indexes.poignee w t' ht'] at htitulaire
    exact Option.some.inj htitulaire
  obtain ⟨hA, hB⟩ := revoquerPresence_coupe h.indexes ht' hc.abonne
  rw [hsame] at hA hB
  rintro (⟨hme, huser⟩ | ⟨hme, huser⟩)
  · refine hA hme.symm ?_
    dsimp only at huser
    rw [huser]
    exact mem_appareilsDe hc.appareil
  · dsimp only at hme huser
    refine hB (fun hsame => hne (huser.trans hsame)) huser.symm ?_
    rw [hme]
    exact mem_appareilsDe hc.appareil

/-- The subscriptions are cut, and the block is done. -/
theorem Tenue.coupure (h : s.Tenue) {i : Nat} {r : BlocageEnCours} (hr : s.blocages[i]? = some r)
    {a b : List Uuid} (hetape : r.etape = .coupure a b) :
    Tenue { s.setGateway (s.gateway.revoquerPresence r.me r.userId a b) with
      blocages := s.blocages.eraseIdx i
      poses := if ⟨r.me, r.userId⟩ ∈ s.db.blocks then ⟨r.me, r.userId⟩ :: s.poses else s.poses } := by
  have hmem := List.mem_of_getElem? hr
  have hs := revoquerPresence_restreint s.gateway r.me r.userId a b
  have hblocages : ∀ r' ∈ s.blocages.eraseIdx i, r' ∈ s.blocages := fun r' => List.mem_of_mem_eraseIdx
  have htitulaire : ∀ w, (s.gateway.revoquerPresence r.me r.userId a b).titulaire? w =
      s.gateway.titulaire? w := hs.reste.titulaire
  have hcroise : ∀ w t c, Croisement (s.gateway.revoquerPresence r.me r.userId a b) s.db.devices w t c →
      Croisement s.gateway s.db.devices w t c := fun w t c hc =>
    ⟨(htitulaire w).symm.trans hc.titulaire, hs.abonnements w c.id hc.abonne, hc.appareil, hc.autre⟩
  refine ⟨h.indexes.revoquerPresence r.me r.userId a b,
    fun w d hd => h.actifs w d (hs.abonnements w d hd), fun v hv => ?_,
    fun w t c hc => h.partages w t c (hcroise w t c hc), fun p hp w t c hc => ?_, fun p hp => ?_,
    fun r' hr' => h.coupures r' (hblocages r' hr'), fun r' hr' => h.distincts r' (hblocages r' hr')⟩
  · have hold := h.demandes v hv
    exact ⟨hold.1, (congrArg (Option.map (·.userId)) (htitulaire _)).trans hold.2⟩
  · have hcases : p = ⟨r.me, r.userId⟩ ∨ p ∈ s.poses := by
      dsimp only at hp
      split at hp
      · exact List.mem_cons.mp hp
      · exact .inr hp
    rcases hcases with rfl | hold
    · obtain ⟨rfl, rfl⟩ := h.coupures r hmem a b hetape
      exact h.separe (h.distincts r hmem) hc
    · exact h.bloques p hold w t c (hcroise w t c hc)
  · rcases h.ecrits p hp with hpose | ⟨r', hr', hetape', rfl⟩
    · refine .inl ?_
      dsimp only
      split
      · exact List.mem_cons_of_mem _ hpose
      · exact hpose
    · rcases mem_eraseIdx_of_mem hr hr' with rfl | hrest
      · refine .inl ?_
        dsimp only
        have hrow : (⟨r'.me, r'.userId⟩ : Block) ∈ s.db.blocks := hp
        rw [if_pos hrow]
        exact List.mem_cons_self
      · exact .inr ⟨r', hrest, hetape', rfl⟩

theorem Tenue.bloquer (h : s.Tenue) {i : Nat} {r : BlocageEnCours}
    (hr : s.blocages[i]? = some r) : (s.bloquer i r).Tenue := by
  cases hetape : r.etape with
  | upsert =>
    have hdevices : (s.db.upsertBlock r.me r.userId).devices = s.db.devices := by
      unfold Database.upsertBlock
      split <;> rfl
    have hparticipants : (s.db.upsertBlock r.me r.userId).participants = s.db.participants := by
      unfold Database.upsertBlock
      split <;> rfl
    have hblocks : ∀ b ∈ (s.db.upsertBlock r.me r.userId).blocks,
        b ∈ s.db.blocks ∨ b = ⟨r.me, r.userId⟩ := by
      intro b hb
      unfold Database.upsertBlock at hb
      split at hb
      · exact .inl hb
      · rcases mem_concat_cases hb with hold | hnew
        · exact .inl hold
        · exact .inr hnew
    have hnext := h.etape hr _ .appareils hdevices hparticipants (by simp) hblocks (by simp)
    unfold Presences.bloquer
    rw [hetape]
    exact hnext
  | appareils =>
    have hnext := h.etape hr s.db
      (.coupure (appareilsDe s.db r.me) (appareilsDe s.db r.userId)) rfl rfl (by simp)
      (fun b hb => .inl hb) fun a b hab => by
        injection hab with ha hb
        exact ⟨ha.symm, hb.symm⟩
    unfold Presences.bloquer
    rw [hetape]
    exact hnext
  | coupure a b =>
    have hnext := h.coupure hr hetape
    unfold Presences.bloquer
    rw [hetape]
    exact hnext

theorem Tenue.deleteBlock (h : s.Tenue) (me userId : Uuid) : (s.deleteBlock me userId).Tenue := by
  refine ⟨h.indexes, h.actifs, h.demandes, h.partages,
    fun b hb => h.bloques b (List.mem_filter.mp hb).1, fun b hb => ?_, h.coupures, h.distincts⟩
  obtain ⟨hrow, hother⟩ := List.mem_filter.mp hb
  rcases h.ecrits b hrow with hpose | hrequest
  · exact .inl (List.mem_filter.mpr ⟨hpose, hother⟩)
  · exact .inr hrequest

/-! ## Departures -/

theorem Tenue.deleteMember (h : s.Tenue) (me : Auth) (conversationId userId : Uuid) (now : Nat) :
    (s.deleteMember me conversationId userId now).Tenue := by
  unfold Presences.deleteMember
  split
  · exact h
  · exact ⟨h.indexes, h.actifs, h.demandes, h.partages, h.bloques, h.ecrits, h.coupures, h.distincts⟩

/-- Every subscription in force has another conversation to rest on. -/
theorem Tenue.partir (h : s.Tenue) {i : Nat} {r : DepartEnCours} (hr : s.departs[i]? = some r)
    (hC : SansCourse (.depart i) s) :
    Tenue { s with db := s.partir r, departs := s.departs.eraseIdx i } := by
  refine ⟨h.indexes, h.actifs, h.demandes, fun w t c hc => ?_, h.bloques, h.ecrits, h.coupures,
    h.distincts⟩
  obtain ⟨t', ht'⟩ := Option.isSome_iff_exists.mp (h.indexes.abonnes w c.id hc.abonne)
  have hsame : t' = t :=
    Option.some.inj ((h.indexes.poignee w t' ht').symm.trans hc.titulaire)
  rw [← hsame]
  refine hC r hr (w, t') (LinkedMap.mem_entries_of_get? ht') c.id ?_ c hc.appareil rfl ?_
  · exact Index.holds_iff_getD.mp hc.abonne
  · rw [hsame]
    exact hc.autre

/-! ## Every interleaving -/

theorem tenue_step (h : s.Tenue) {i : PresenceInput} (hC : SansCourse i s)
    (ht : step i s = some t) : t.Tenue := by
  cases i with
  | realtime i => exact h.realtime ht
  | subscribe socket devices =>
    obtain ⟨c, hc, ht⟩ := Option.bind_eq_some_iff.mp ht
    split at ht
    · cases ht
    · split at ht
      · obtain rfl := Option.some.inj ht
        exact h
      · rename_i titulaire htitulaire
        obtain rfl := Option.some.inj ht
        exact h.subscribe htitulaire devices
  | demande i =>
    obtain ⟨v, hv, rfl⟩ := Option.map_eq_some_iff.mp ht
    exact h.avancer hv hC
  | postBlock me userId =>
    obtain rfl := Option.some.inj ht
    exact h.postBlock me userId
  | blocage i =>
    obtain ⟨r, hr, rfl⟩ := Option.map_eq_some_iff.mp ht
    exact h.bloquer hr
  | deleteBlock me userId =>
    obtain rfl := Option.some.inj ht
    exact h.deleteBlock me userId
  | deleteMember me conversationId userId now =>
    obtain rfl := Option.some.inj ht
    exact h.deleteMember me conversationId userId now
  | depart i =>
    obtain ⟨r, hr, rfl⟩ := Option.map_eq_some_iff.mp ht
    exact h.partir hr hC

/-- In every interleaving without the races the subscriptions respect the blocks that are
done, and at rest they are all still authorised. -/
theorem presences_conformes (db : Database) (inputs : List PresenceInput)
    (hC : Always step SansCourse inputs (start db)) :
    Always step (Reaches step Conforme) inputs (start db) := by
  refine always_of_invariant Tenue ?_ ?_ (tenue_start db) hC
  · intro i s t hs hi ht
    exact tenue_step hs hi ht
  · intro i s hs hi t ht
    exact (tenue_step hs hi ht).conforme

/-- Two accounts with a device each and a conversation. -/
def deuxComptes : Database where
  users := [⟨100, none⟩, ⟨200, none⟩]
  devices := [⟨10, 100, true⟩, ⟨20, 200, true⟩]
  conversations := [⟨5, .group, some 100⟩]
  participants := [⟨5, 100, .admin, 0, none⟩, ⟨5, 200, .member, 0, none⟩]
  blocks := []
  messageBlobs := []

/-- Account 100 watches the device of account 200, which blocks it. -/
def blocageApres : List PresenceInput :=
  [.realtime (.connexion 1 (some ⟨10, 100⟩)), .realtime (.connexion 2 (some ⟨20, 200⟩)),
    .subscribe 1 (some [some 20]), .demande 0, .demande 0, .demande 0, .demande 0, .demande 0,
    .postBlock 200 100, .blocage 0, .blocage 0, .blocage 0]

theorem blocageApres_conforme :
    Always step (Reaches step Conforme) blocageApres (start deuxComptes) ∧
      (run step (blocageApres.take 8) (start deuxComptes)).map (fun s =>
        s.gateway.abonnements.get? 1) = some (some [20]) :=
  ⟨presences_conformes deuxComptes blocageApres (by decide), by decide⟩

/-! ## A block between the last answer and the subscription -/

/-- The block is written and cuts what is in force, while a subscription has its answers. -/
def blocagePendant : List PresenceInput :=
  [.realtime (.connexion 1 (some ⟨10, 100⟩)), .realtime (.connexion 2 (some ⟨20, 200⟩)),
    .subscribe 1 (some [some 20]), .demande 0, .demande 0, .demande 0, .demande 0,
    .postBlock 200 100, .blocage 0, .blocage 0, .blocage 0, .demande 0]

/-- The subscription crosses the block from then on. -/
theorem blocagePendant_croise :
    ∃ s, run step blocagePendant (start deuxComptes) = some s ∧ s.poses = [⟨200, 100⟩] ∧
      s.gateway.abonnements.Holds 1 20 ∧ ¬ s.Conforme := by
  refine ⟨_, rfl, by decide, by decide, fun h => ?_⟩
  exact h.bloques ⟨200, 100⟩ (by decide) 1 ⟨10, 100⟩ ⟨20, 200, true⟩
    ⟨by decide, by decide, by decide, by decide⟩ (by decide)

end Presences

end ZiaCrypte.Realtime
