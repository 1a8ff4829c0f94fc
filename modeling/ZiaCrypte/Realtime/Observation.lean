import ZiaCrypte.Realtime.Gateway
import Mathlib.Data.List.Dedup
import Mathlib.Logic.Function.Iterate

/-!
# `presence.ts`: which devices an account may watch

`autoriserObservation` asks the database up to four questions, one after the other. What
it has so far is a value between two of them, since other requests write in between.
-/
namespace ZiaCrypte.Server

namespace Database

/-- Two accounts are active members of one conversation. -/
def partagent (db : Database) (u v : Uuid) : Bool :=
  db.participants.any fun p => p.userId == u && p.leftAt == none &&
    db.participants.any fun q => q.conversationId == p.conversationId && q.userId == v &&
      q.leftAt == none

/-- One of two accounts has blocked the other. -/
def enBlocage (db : Database) (u v : Uuid) : Bool := db.estBloque u v || db.estBloque v u

end Database

end ZiaCrypte.Server

namespace ZiaCrypte.Realtime

open ZiaCrypte.Server

/-! ## The questions -/

def ciblesActives (db : Database) (deviceIds : List Uuid) : List Device :=
  db.devices.filter fun d => deviceIds.contains d.id && d.isActive

/-- The owners of the devices, without the observer. -/
def autresComptes (observateur : Uuid) (cibles : List Device) : List Uuid :=
  ((cibles.map (·.userId)).dedup).filter (· ≠ observateur)

def conversationsDe (db : Database) (observateur : Uuid) : List Uuid :=
  (db.participants.filter fun p => p.userId == observateur && p.leftAt == none).map
    (·.conversationId)

def membresCommuns (db : Database) (miennes autres : List Uuid) : List Uuid :=
  ((db.participants.filter fun p => miennes.contains p.conversationId &&
    autres.contains p.userId && p.leftAt == none).map (·.userId)).dedup

def blocagesAvec (db : Database) (observateur : Uuid) (autres : List Uuid) : List Block :=
  db.blocks.filter fun b =>
    (b.blockerUserId == observateur && autres.contains b.blockedUserId) ||
      (b.blockedUserId == observateur && autres.contains b.blockerUserId)

def appareilsAccordes (observateur : Uuid) (cibles : List Device) (autorisesUsers : List Uuid) :
    List Uuid :=
  ((cibles.filter fun c => c.userId == observateur || autorisesUsers.contains c.userId).map
    (·.id)).dedup

/-- What `autoriserObservation` waits for next, and what it has. -/
inductive Verification where
  | appareils
  | miennes (cibles : List Device)
  | communs (cibles : List Device) (conversations : List Uuid)
  | blocages (cibles : List Device) (autorisesUsers : List Uuid)
  | faite (autorises : List Uuid)
  deriving DecidableEq

namespace Verification

def debut (deviceIds : List Uuid) : Verification := if deviceIds = [] then .faite [] else .appareils

/-- One question, and what follows it up to the next. -/
def suite (db : Database) (observateur : Uuid) (deviceIds : List Uuid) :
    Verification → Verification
  | .appareils =>
      let cibles := ciblesActives db deviceIds
      if cibles = [] then .faite []
      else if autresComptes observateur cibles = [] then
        .faite (appareilsAccordes observateur cibles [])
      else .miennes cibles
  | .miennes cibles =>
      let conversations := conversationsDe db observateur
      if conversations = [] then .blocages cibles [] else .communs cibles conversations
  | .communs cibles conversations =>
      .blocages cibles (membresCommuns db conversations (autresComptes observateur cibles))
  | .blocages cibles autorisesUsers =>
      let bloques := (blocagesAvec db observateur (autresComptes observateur cibles)).map fun b =>
        if b.blockerUserId = observateur then b.blockedUserId else b.blockerUserId
      .faite (appareilsAccordes observateur cibles (autorisesUsers.filter (· ∉ bloques)))
  | .faite autorises => .faite autorises

def autorises : Verification → List Uuid
  | .faite autorises => autorises
  | _ => []

end Verification

/-- The questions asked at one moment. -/
def autoriserObservation (db : Database) (observateur : Uuid) (deviceIds : List Uuid) : List Uuid :=
  ((Verification.suite db observateur deviceIds)^[4] (.debut deviceIds)).autorises

/-! ## What the answer is -/

variable {db : Database} {u v d observateur : Uuid} {cibles : List Device} {deviceIds : List Uuid}

theorem partagent_iff : db.partagent u v = true ↔ ∃ p ∈ db.participants, ∃ q ∈ db.participants,
    q.conversationId = p.conversationId ∧ (p.userId = u ∧ p.leftAt = none) ∧
      q.userId = v ∧ q.leftAt = none := by
  unfold Database.partagent
  simp only [List.any_eq_true, Bool.and_eq_true, beq_iff_eq]
  constructor
  · rintro ⟨p, hp, hpu, q, hq, ⟨hconv, hqv⟩, hleft⟩
    exact ⟨p, hp, q, hq, hconv, hpu, hqv, hleft⟩
  · rintro ⟨p, hp, q, hq, hconv, hpu, hqv, hleft⟩
    exact ⟨p, hp, hpu, q, hq, ⟨hconv, hqv⟩, hleft⟩

theorem estBloque_iff : db.estBloque u v = true ↔
    ∃ b ∈ db.blocks, b.blockerUserId = v ∧ b.blockedUserId = u := by
  unfold Database.estBloque
  simp only [List.any_eq_true, Bool.and_eq_true, beq_iff_eq]

theorem mem_ciblesActives {c : Device} :
    c ∈ ciblesActives db deviceIds ↔ c ∈ db.devices ∧ c.id ∈ deviceIds ∧ c.isActive = true := by
  unfold ciblesActives
  simp [List.mem_filter]

theorem mem_autresComptes :
    u ∈ autresComptes observateur cibles ↔ (∃ c ∈ cibles, c.userId = u) ∧ u ≠ observateur := by
  unfold autresComptes
  simp [List.mem_filter]

theorem mem_appareilsAccordes {users : List Uuid} :
    d ∈ appareilsAccordes observateur cibles users ↔
      ∃ c ∈ cibles, c.id = d ∧ (c.userId = observateur ∨ c.userId ∈ users) := by
  unfold appareilsAccordes
  simp only [List.mem_dedup, List.mem_map, List.mem_filter, Bool.or_eq_true, beq_iff_eq,
    List.contains_iff_mem]
  constructor
  · rintro ⟨c, ⟨hc, huser⟩, hid⟩
    exact ⟨c, hc, hid, huser⟩
  · rintro ⟨c, hc, hid, huser⟩
    exact ⟨c, ⟨hc, huser⟩, hid⟩

/-- Who shares a conversation, among the owners of the devices. -/
theorem mem_membresCommuns (hu : u ∈ autresComptes observateur cibles) :
    u ∈ membresCommuns db (conversationsDe db observateur) (autresComptes observateur cibles) ↔
      db.partagent observateur u = true := by
  rw [partagent_iff]
  unfold membresCommuns conversationsDe
  simp only [List.mem_dedup, List.mem_map, List.mem_filter, Bool.and_eq_true, beq_iff_eq,
    List.contains_iff_mem]
  constructor
  · rintro ⟨q, ⟨hq, ⟨⟨p, ⟨hp, hpu⟩, hconv⟩, -⟩, hleft⟩, rfl⟩
    exact ⟨p, hp, q, hq, hconv.symm, hpu, rfl, hleft⟩
  · rintro ⟨p, hp, q, hq, hconv, hpu, rfl, hleft⟩
    exact ⟨q, ⟨hq, ⟨⟨p, ⟨hp, hpu⟩, hconv.symm⟩, hu⟩, hleft⟩, rfl⟩

/-- Who a block separates from the observer, among the owners of the devices. -/
theorem mem_bloques (hu : u ∈ autresComptes observateur cibles) :
    u ∈ (blocagesAvec db observateur (autresComptes observateur cibles)).map (fun b =>
      if b.blockerUserId = observateur then b.blockedUserId else b.blockerUserId) ↔
      db.enBlocage observateur u = true := by
  have hne : u ≠ observateur := (mem_autresComptes.mp hu).2
  unfold Database.enBlocage blocagesAvec
  rw [Bool.or_eq_true, estBloque_iff, estBloque_iff]
  simp only [List.mem_map, List.mem_filter, Bool.or_eq_true, Bool.and_eq_true, beq_iff_eq,
    List.contains_iff_mem]
  constructor
  · rintro ⟨b, ⟨hb, hside⟩, hother⟩
    by_cases hblocker : b.blockerUserId = observateur
    · rw [if_pos hblocker] at hother
      exact .inr ⟨b, hb, hblocker, hother⟩
    · rw [if_neg hblocker] at hother
      rcases hside with hside | hside
      · exact absurd hside.1 hblocker
      · exact .inl ⟨b, hb, hother, hside.1⟩
  · rintro (⟨b, hb, hblocker, hblocked⟩ | ⟨b, hb, hblocker, hblocked⟩)
    · exact ⟨b, ⟨hb, .inr ⟨hblocked, by rw [hblocker]; exact hu⟩⟩, by
        rw [if_neg (by rw [hblocker]; exact hne), hblocker]⟩
    · exact ⟨b, ⟨hb, .inl ⟨hblocker, by rw [hblocked]; exact hu⟩⟩, by
        rw [if_pos hblocker, hblocked]⟩

/-- Only active devices of the request are granted. -/
theorem mem_accordes_blocages {users : List Uuid} (hcibles : cibles = ciblesActives db deviceIds)
    (husers : ∀ u ∈ autresComptes observateur cibles,
      u ∈ users ↔ db.partagent observateur u = true) :
    d ∈ (Verification.suite db observateur deviceIds (.blocages cibles users)).autorises ↔
      ∃ c ∈ db.devices, c.id = d ∧ d ∈ deviceIds ∧ c.isActive = true ∧
        (c.userId = observateur ∨ db.partagent observateur c.userId = true ∧
          db.enBlocage observateur c.userId = false) := by
  simp only [Verification.suite, Verification.autorises]
  rw [mem_appareilsAccordes]
  have howner : ∀ c ∈ cibles, c.userId ≠ observateur →
      c.userId ∈ autresComptes observateur cibles := fun c hc hne =>
    mem_autresComptes.mpr ⟨⟨c, hc, rfl⟩, hne⟩
  constructor
  · rintro ⟨c, hc, rfl, huser⟩
    have hactive := mem_ciblesActives.mp (hcibles ▸ hc)
    refine ⟨c, hactive.1, rfl, hactive.2.1, hactive.2.2, ?_⟩
    by_cases hown : c.userId = observateur
    · exact .inl hown
    · have hmem := howner c hc hown
      have hfilter := List.mem_filter.mp (huser.resolve_left hown)
      refine .inr ⟨(husers _ hmem).mp hfilter.1, ?_⟩
      rw [← Bool.not_eq_true, ← mem_bloques hmem]
      simpa using hfilter.2
  · rintro ⟨c, hc, rfl, hid, hactive, huser⟩
    have hmem : c ∈ cibles := hcibles ▸ mem_ciblesActives.mpr ⟨hc, hid, hactive⟩
    refine ⟨c, hmem, rfl, ?_⟩
    by_cases hown : c.userId = observateur
    · exact .inl hown
    · have hother := howner c hmem hown
      obtain ⟨hshare, hblock⟩ := huser.resolve_left hown
      refine .inr (List.mem_filter.mpr ⟨(husers _ hother).mpr hshare, ?_⟩)
      rw [← Bool.not_eq_true, ← mem_bloques hother] at hblock
      simpa using hblock

/-- Granted is an active device of the request that is the observer's own, or whose owner
shares a conversation with the observer and is separated from it by no block. -/
theorem mem_autoriserObservation :
    d ∈ autoriserObservation db observateur deviceIds ↔
      ∃ c ∈ db.devices, c.id = d ∧ d ∈ deviceIds ∧ c.isActive = true ∧
        (c.userId = observateur ∨ db.partagent observateur c.userId = true ∧
          db.enBlocage observateur c.userId = false) := by
  unfold autoriserObservation Verification.debut
  simp only [Function.iterate_succ_apply, Function.iterate_zero_apply]
  by_cases hempty : deviceIds = []
  · rw [if_pos hempty]
    simp [Verification.suite, Verification.autorises, hempty]
  · rw [if_neg hempty]
    simp only [Verification.suite]
    by_cases hcibles : ciblesActives db deviceIds = []
    · rw [if_pos hcibles]
      simp only [Verification.autorises, List.not_mem_nil, false_iff]
      rintro ⟨c, hc, rfl, hid, hactive, -⟩
      have hmem := mem_ciblesActives.mpr ⟨hc, hid, hactive⟩
      rw [hcibles] at hmem
      cases hmem
    · rw [if_neg hcibles]
      by_cases hautres : autresComptes observateur (ciblesActives db deviceIds) = []
      · rw [if_pos hautres]
        have hnobody : ∀ u ∈ autresComptes observateur (ciblesActives db deviceIds),
            u ∈ ([] : List Uuid) ↔ db.partagent observateur u = true := by
          rw [hautres]
          intro u hu
          cases hu
        rw [← mem_accordes_blocages rfl hnobody]
        simp [Verification.suite, Verification.autorises]
      · rw [if_neg hautres]
        dsimp only
        by_cases hmiennes : conversationsDe db observateur = []
        · rw [if_pos hmiennes]
          refine mem_accordes_blocages rfl fun u hu => ?_
          rw [← mem_membresCommuns hu, hmiennes]
          simp [membresCommuns]
        · rw [if_neg hmiennes]
          exact mem_accordes_blocages rfl fun u hu => mem_membresCommuns hu

end ZiaCrypte.Realtime
