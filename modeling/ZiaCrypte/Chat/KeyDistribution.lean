import ZiaCrypte.Chat.Sends

/-!
# The distribution of a sender key, one await at a time

`_assurerCleGroupe` of one group, run by any number of sends at once while sessions are opened
beside it. A call waits for the engine, then for one device after the other; what it decided at
its start and what it will write at its end are its own, the recorded devices and the key of
the engine are everyone's.
-/
namespace ZiaCrypte.Chat

open ZiaCrypte.Lib

/-- Where a call stands. -/
inductive Etape where
  /-- The engine has not served its `senderKeyCreate`. -/
  | creation
  | cree (distribution : Option SenderKey)
  /-- `_sendToDevice` of `device`; `parti` once a request with the distribution has left. -/
  | envoi (distribution : SenderKey) (device : DeviceId) (parti : Bool) (reste ok : List DeviceId)

/-- A call of `_assurerCleGroupe` that has not returned. -/
structure Assurance where
  cibles : List DeviceId
  etape : Etape

/-- `servis` is `_cleGroupeDistribuee[conv.id]`, `cle` our key of the group in the engine.
`envois` has the distributions that left the device, newest first. -/
structure Groupe where
  sessions : List DeviceId
  servis : Option (List DeviceId)
  cle : Option SenderKey
  nextSenderKey : SenderKey
  appels : Nat → Option Assurance
  envois : List (DeviceId × SenderKey)

/-- What `senderKeyCreate` comes to. Out of memory for its output, the engine has replaced the
key all the same. -/
inductive Creation where
  | reussie
  | perdue
  | refusee

inductive GroupeEvent where
  | ouvrir (device : DeviceId)
  | assurer (i : Nat)
  | creer (i : Nat) (issue : Creation)
  | reprendre (i : Nat)
  | emettre (i : Nat)
  | finEnvoi (i : Nat) (reussi : Bool)

namespace Groupe

def debut : Groupe := ⟨[], none, none, 0, fun _ => none, []⟩

def poser (g : Groupe) (i : Nat) (a : Option Assurance) : Groupe :=
  { g with appels := Function.update g.appels i a }

theorem appels_poser (g : Groupe) (i : Nat) (a : Option Assurance) (j : Nat) :
    (g.poser i a).appels j = if j = i then a else g.appels j := Function.update_apply ..

/-- The last distribution that left for the device. -/
def dernier (g : Groupe) (device : DeviceId) : Option SenderKey := g.envois.lookup device

/-! ## The statements, with what the call returns where it does -/

/-- `conv.sessions[device] = …` -/
def ouvrir (device : DeviceId) (g : Groupe) : Groupe :=
  if device ∈ g.sessions then g else { g with sessions := g.sessions ++ [device] }

/-- Up to the first `await`. -/
def assurer (i : Nat) (g : Groupe) : Groupe × Option Bool :=
  if (g.appels i).isSome then (g, none)
  else if g.sessions = [] then (g, some false)
  else if compositionInchangee g.servis g.sessions then (g, some true)
  else (g.poser i (some ⟨g.sessions, .creation⟩), none)

def nouvelleCle (g : Groupe) : Groupe :=
  { g with cle := some g.nextSenderKey, nextSenderKey := g.nextSenderKey + 1 }

/-- The engine serves the request. -/
def creer (i : Nat) (issue : Creation) (g : Groupe) : Groupe :=
  match g.appels i with
  | some ⟨cibles, .creation⟩ =>
      match issue with
      | .reussie => g.nouvelleCle.poser i (some ⟨cibles, .cree (some g.nextSenderKey)⟩)
      | .perdue => g.nouvelleCle.poser i (some ⟨cibles, .cree none⟩)
      | .refusee => g.poser i (some ⟨cibles, .cree none⟩)
  | _ => g

/-- The loop, and what comes after it. -/
def distribuer (i : Nat) (cibles : List DeviceId) (distribution : SenderKey)
    (reste ok : List DeviceId) (g : Groupe) : Groupe × Option Bool :=
  match reste with
  | device :: reste =>
      (g.poser i (some ⟨cibles, .envoi distribution device false reste ok⟩), none)
  | [] =>
      if ok.length ≠ cibles.length then ({ g.poser i none with servis := none }, some false)
      else ({ g.poser i none with servis := some ok }, some true)

/-- The answer of the engine is taken up. -/
def reprendre (i : Nat) (g : Groupe) : Groupe × Option Bool :=
  match g.appels i with
  | some ⟨_, .cree none⟩ => (g.poser i none, some false)
  | some ⟨cibles, .cree (some distribution)⟩ => distribuer i cibles distribution cibles [] g
  | _ => (g, none)

/-- A sealed deposit or an authenticated message leaves. -/
def emettre (i : Nat) (g : Groupe) : Groupe :=
  match g.appels i with
  | some ⟨cibles, .envoi distribution device _ reste ok⟩ =>
      { g.poser i (some ⟨cibles, .envoi distribution device true reste ok⟩) with
        envois := (device, distribution) :: g.envois }
  | _ => g

/-- `_sendToDevice` returns, which takes a request, or throws. -/
def finEnvoi (i : Nat) (reussi : Bool) (g : Groupe) : Groupe × Option Bool :=
  match g.appels i with
  | some ⟨cibles, .envoi distribution device parti reste ok⟩ =>
      if reussi && !parti then (g, none)
      else distribuer i cibles distribution reste (if reussi then ok ++ [device] else ok) g
  | _ => (g, none)

def segment : GroupeEvent → Groupe → Groupe × Option Bool
  | .ouvrir device, g => (g.ouvrir device, none)
  | .assurer i, g => g.assurer i
  | .creer i issue, g => (g.creer i issue, none)
  | .reprendre i, g => g.reprendre i
  | .emettre i, g => (g.emettre i, none)
  | .finEnvoi i reussi, g => g.finEnvoi i reussi

def step (e : GroupeEvent) (g : Groupe) : Option Groupe := some (segment e g).1

/-- The engine's key of the group left for the device, and none since. -/
def Servi (g : Groupe) (device : DeviceId) : Prop := g.cle ≠ none ∧ g.dernier device = g.cle

/-- Where a call returns true, every device with a session has the current key. -/
def Assure (e : GroupeEvent) (g : Groupe) : Prop :=
  (segment e g).2 = some true →
    ∀ device ∈ (segment e g).1.sessions, (segment e g).1.Servi device

instance decidableServi (g : Groupe) (device : DeviceId) : Decidable (g.Servi device) :=
  inferInstanceAs (Decidable (g.cle ≠ none ∧ g.dernier device = g.cle))

instance decidableAssure (e : GroupeEvent) (g : Groupe) : Decidable (Assure e g) :=
  inferInstanceAs (Decidable ((segment e g).2 = some true →
    ∀ device ∈ (segment e g).1.sessions, (segment e g).1.Servi device))

/-- No call starts, and no session with a further device is opened, while one is distributing. -/
def UnSeul : GroupeEvent → Groupe → Prop
  | .ouvrir device, g => device ∈ g.sessions ∨ ∀ i, g.appels i = none
  | .assurer _, g => ∀ i, g.appels i = none
  | _, _ => True

/-! ## The invariant -/

/-- What a call in progress has done so far, which nothing else touches. -/
def Tenue (g : Groupe) (cibles : List DeviceId) : Etape → Prop
  | .creation => True
  | .cree none => True
  | .cree (some distribution) => g.cle = some distribution
  | .envoi distribution device parti reste ok =>
      g.cle = some distribution ∧ List.Sublist (ok ++ device :: reste) cibles ∧
        (parti = true → g.dernier device = some distribution) ∧
        ∀ d ∈ ok, g.dernier d = some distribution

/-- The recorded devices have the current key, if they can be all there are. -/
def Enregistre (g : Groupe) : Prop :=
  ∀ servis, g.servis = some servis → servis.Nodup ∧ servis ⊆ g.sessions ∧
    (g.sessions ⊆ servis → (∀ i, g.appels i = none) ∧ ∀ device ∈ servis, g.Servi device)

structure Regle (g : Groupe) : Prop where
  nodup : g.sessions.Nodup
  enregistre : g.Enregistre
  seul : ∀ i j a b, g.appels i = some a → g.appels j = some b → i = j
  enCours : ∀ i a, g.appels i = some a → a.cibles = g.sessions ∧ g.Tenue a.cibles a.etape

theorem regle_debut : debut.Regle where
  nodup := List.nodup_nil
  enregistre := fun servis h => by cases h
  seul := fun i j a b h => by cases h
  enCours := fun i a h => by cases h

/-- Two lists without repetition that have the same devices. -/
theorem compositionInchangee_of_subset {servis cibles : List DeviceId} (hservis : servis.Nodup)
    (hcibles : cibles.Nodup) (hsub : servis ⊆ cibles) (hsup : cibles ⊆ servis) :
    compositionInchangee (some servis) cibles = true := by
  have hlength : servis.length = cibles.length :=
    ((List.perm_ext_iff_of_nodup hservis hcibles).mpr fun d =>
      ⟨fun hd => hsub hd, fun hd => hsup hd⟩).length_eq
  simp only [compositionInchangee, Bool.and_eq_true, beq_iff_eq, List.all_eq_true,
    List.contains_iff_mem]
  exact ⟨hlength, fun d hd => hsup hd⟩

theorem subset_of_compositionInchangee {servis : Option (List DeviceId)} {cibles : List DeviceId}
    (h : compositionInchangee servis cibles = true) :
    ∃ devices, servis = some devices ∧ cibles ⊆ devices := by
  cases servis with
  | none => cases h
  | some devices =>
    simp only [compositionInchangee, Bool.and_eq_true, List.all_eq_true,
      List.contains_iff_mem] at h
    exact ⟨devices, rfl, fun d hd => h.2 d hd⟩

variable {g g' : Groupe} {i : Nat} {a : Assurance}

/-- While a call is in progress, the recorded devices are not all there are. -/
theorem Regle.perime (h : g.Regle) (hi : g.appels i = some a) {servis : List DeviceId}
    (hservis : g.servis = some servis) : ¬ g.sessions ⊆ servis := by
  intro hsub
  have hnone := ((h.enregistre servis hservis).2.2 hsub).1 i
  rw [hi] at hnone
  cases hnone

/-- A call goes on or ends without a record. -/
theorem Regle.avance (h : g.Regle) (hi : g.appels i = some a) {b : Option Assurance}
    (hsessions : g'.sessions = g.sessions) (hservis : g'.servis = g.servis)
    (happels : g'.appels = Function.update g.appels i b)
    (hb : ∀ c, b = some c → c.cibles = g'.sessions ∧ g'.Tenue c.cibles c.etape) : g'.Regle := by
  have hseul : ∀ j c, g'.appels j = some c → j = i ∧ b = some c := by
    intro j c hj
    rw [happels] at hj
    by_cases hji : j = i
    · rw [hji, Function.update_self] at hj
      exact ⟨hji, hj⟩
    · rw [Function.update_of_ne hji] at hj
      exact absurd (h.seul j i c a hj hi) hji
  constructor
  · rw [hsessions]
    exact h.nodup
  · intro servis hs
    rw [hservis] at hs
    obtain ⟨hnodup, hsub, -⟩ := h.enregistre servis hs
    rw [hsessions]
    exact ⟨hnodup, hsub, fun hsup => absurd hsup (h.perime hi hs)⟩
  · intro j k c d hj hk
    rw [(hseul j c hj).1, (hseul k d hk).1]
  · intro j c hj
    exact hb c (hseul j c hj).2

theorem Regle.ouvrir (h : g.Regle) {device : DeviceId}
    (hc : device ∈ g.sessions ∨ ∀ i, g.appels i = none) : (g.ouvrir device).Regle := by
  rw [Groupe.ouvrir]
  split
  · exact h
  rename_i hnew
  have hnone : ∀ i, g.appels i = none := hc.resolve_left hnew
  constructor
  · exact List.nodup_append.mpr ⟨h.nodup, List.nodup_singleton device, by
      intro x hx y hy heq
      rw [List.mem_singleton.mp hy] at heq
      exact hnew (heq ▸ hx)⟩
  · intro servis hs
    obtain ⟨hnodup, hsub, hall⟩ := h.enregistre servis hs
    refine ⟨hnodup, fun d hd => List.mem_append_left _ (hsub hd), fun hsup => ?_⟩
    exact hall fun d hd => hsup (List.mem_append_left _ hd)
  · exact h.seul
  · intro i a hi
    have hi' : g.appels i = some a := hi
    rw [hnone i] at hi'
    cases hi'

theorem Regle.assurer (h : g.Regle) (hnone : ∀ i, g.appels i = none) :
    (g.assurer i).1.Regle ∧ ((g.assurer i).2 = some true →
      ∀ device ∈ (g.assurer i).1.sessions, (g.assurer i).1.Servi device) := by
  rw [Groupe.assurer, if_neg (by rw [hnone i]; decide)]
  split
  · exact ⟨h, fun heq => by cases heq⟩
  split
  · rename_i hsame
    obtain ⟨servis, hservis, hsup⟩ := subset_of_compositionInchangee hsame
    have hall := (h.enregistre servis hservis).2.2 hsup
    exact ⟨h, fun _ device hd => hall.2 device (hsup hd)⟩
  · rename_i hchange
    have hperime : ∀ servis, g.servis = some servis → ¬ g.sessions ⊆ servis := by
      intro servis hservis hsup
      obtain ⟨hnodup, hsub, -⟩ := h.enregistre servis hservis
      rw [hservis] at hchange
      exact hchange (compositionInchangee_of_subset hnodup h.nodup hsub hsup)
    have hseul : ∀ j c, (g.poser i (some ⟨g.sessions, .creation⟩)).appels j = some c →
        j = i ∧ c = ⟨g.sessions, .creation⟩ := by
      intro j c hj
      rw [appels_poser, hnone j] at hj
      split at hj
      · rename_i hji
        exact ⟨hji, (Option.some.inj hj).symm⟩
      · cases hj
    refine ⟨⟨h.nodup, fun servis hs => ?_, fun j k c d hj hk => ?_, fun j c hj => ?_⟩,
      fun heq => by cases heq⟩
    · obtain ⟨hnodup, hsub, -⟩ := h.enregistre servis hs
      exact ⟨hnodup, hsub, fun hsup => absurd hsup (hperime servis hs)⟩
    · rw [(hseul j c hj).1, (hseul k d hk).1]
    · rw [(hseul j c hj).2]
      exact ⟨rfl, trivial⟩

theorem Regle.creer (h : g.Regle) (issue : Creation) : (g.creer i issue).Regle := by
  rw [Groupe.creer]
  split
  · rename_i cibles hi
    have hcibles := (h.enCours i _ hi).1
    cases issue with
    | reussie =>
      exact h.avance hi rfl rfl rfl fun c hc => by
        obtain rfl := Option.some.inj hc
        exact ⟨hcibles, rfl⟩
    | perdue =>
      exact h.avance hi rfl rfl rfl fun c hc => by
        obtain rfl := Option.some.inj hc
        exact ⟨hcibles, trivial⟩
    | refusee =>
      exact h.avance hi rfl rfl rfl fun c hc => by
        obtain rfl := Option.some.inj hc
        exact ⟨hcibles, trivial⟩
  · exact h

/-- The loop ends with a record of devices that all have the key, and these are all there
are. -/
theorem Regle.distribuer (h : g.Regle) (hi : g.appels i = some a) {distribution : SenderKey}
    {reste ok : List DeviceId} (hcle : g.cle = some distribution)
    (hsub : List.Sublist (ok ++ reste) a.cibles)
    (hok : ∀ d ∈ ok, g.dernier d = some distribution) :
    (distribuer i a.cibles distribution reste ok g).1.Regle ∧
      ((distribuer i a.cibles distribution reste ok g).2 = some true →
        ∀ device ∈ (distribuer i a.cibles distribution reste ok g).1.sessions,
          (distribuer i a.cibles distribution reste ok g).1.Servi device) := by
  have hcibles := (h.enCours i a hi).1
  cases reste with
  | cons device reste =>
    refine ⟨h.avance hi rfl rfl rfl fun c hc => ?_, fun heq => by cases heq⟩
    obtain rfl := Option.some.inj hc
    exact ⟨hcibles, hcle, hsub, fun heq => (by cases heq), hok⟩
  | nil =>
    have hfin : ∀ j, (g.poser i none).appels j = none := by
      intro j
      rw [appels_poser]
      split
      · rfl
      · rename_i hji
        cases hj : g.appels j with
        | none => rfl
        | some b => exact absurd (h.seul j i b a hj hi) hji
    rw [Groupe.distribuer]
    split
    · refine ⟨⟨h.nodup, fun servis hs => (by cases hs), fun j k c d hj => ?_, fun j c hj => ?_⟩,
        fun heq => by cases heq⟩
      · cases (hfin j).symm.trans hj
      · cases (hfin j).symm.trans hj
    · rename_i hlength
      rw [List.append_nil] at hsub
      have hegal : ok = g.sessions :=
        (hsub.eq_of_length (not_not.mp hlength)).trans hcibles
      have hservi : ∀ device ∈ ok, g.Servi device := by
        intro device hd
        exact ⟨by rw [hcle]; simp, (hok device hd).trans hcle.symm⟩
      refine ⟨⟨h.nodup, fun servis hs => ?_, fun j k c d hj => ?_, fun j c hj => ?_⟩,
        fun _ device hd => ?_⟩
      · obtain rfl := Option.some.inj hs
        refine ⟨hegal ▸ h.nodup, ?_, fun _ => ⟨hfin, hservi⟩⟩
        rw [hegal]
        exact List.Subset.refl _
      · cases (hfin j).symm.trans hj
      · cases (hfin j).symm.trans hj
      · have hd' : device ∈ g.sessions := hd
        exact hservi device (hegal ▸ hd')

theorem Regle.reprendre (h : g.Regle) :
    (g.reprendre i).1.Regle ∧ ((g.reprendre i).2 = some true →
      ∀ device ∈ (g.reprendre i).1.sessions, (g.reprendre i).1.Servi device) := by
  unfold Groupe.reprendre
  split
  · rename_i cibles hi
    exact ⟨h.avance hi rfl rfl rfl fun c hc => (by cases hc), fun heq => by cases heq⟩
  · rename_i cibles distribution hi
    exact h.distribuer hi (h.enCours i _ hi).2 (List.Sublist.refl _) fun d hd => by cases hd
  · exact ⟨h, fun heq => by cases heq⟩

theorem Regle.emettre (h : g.Regle) : (g.emettre i).Regle := by
  unfold Groupe.emettre
  split
  · rename_i cibles distribution device parti reste ok hi
    obtain ⟨hcibles, hcle, hsub, -, hok⟩ := h.enCours i _ hi
    refine h.avance hi rfl rfl rfl fun c hc => ?_
    obtain rfl := Option.some.inj hc
    refine ⟨hcibles, hcle, hsub, fun _ => ?_, fun d hd => ?_⟩
    · simp [dernier]
    · by_cases heq : d = device
      · simp [dernier, heq]
      · have hold := hok d hd
        simpa [dernier, List.lookup_cons, beq_false_of_ne heq] using hold
  · exact h

theorem Regle.finEnvoi (h : g.Regle) (reussi : Bool) :
    (g.finEnvoi i reussi).1.Regle ∧ ((g.finEnvoi i reussi).2 = some true →
      ∀ device ∈ (g.finEnvoi i reussi).1.sessions, (g.finEnvoi i reussi).1.Servi device) := by
  unfold Groupe.finEnvoi
  split
  · rename_i cibles distribution device parti reste ok hi
    obtain ⟨-, hcle, hsub, hparti, hok⟩ := h.enCours i _ hi
    split
    · exact ⟨h, fun heq => by cases heq⟩
    rename_i hfin
    cases reussi with
    | false =>
      refine h.distribuer hi hcle ?_ hok
      exact ((List.sublist_cons_self device reste).append_left ok).trans hsub
    | true =>
      have hdevice : g.dernier device = some distribution := hparti (by simpa using hfin)
      refine h.distribuer hi hcle ?_ ?_
      · rw [if_pos rfl, List.append_assoc]
        exact hsub
      · intro d hd
        rw [if_pos rfl] at hd
        cases List.mem_append.mp hd with
        | inl hold => exact hok d hold
        | inr hlast => exact List.mem_singleton.mp hlast ▸ hdevice
  · exact ⟨h, fun heq => by cases heq⟩

/-- What a step does under the condition. -/
theorem Regle.segment (h : g.Regle) {e : GroupeEvent} (hc : UnSeul e g) :
    (segment e g).1.Regle ∧ Assure e g := by
  cases e with
  | ouvrir device => exact ⟨h.ouvrir hc, fun heq => by cases heq⟩
  | assurer i => exact h.assurer hc
  | creer i issue => exact ⟨h.creer issue, fun heq => by cases heq⟩
  | reprendre i => exact h.reprendre
  | emettre i => exact ⟨h.emettre, fun heq => by cases heq⟩
  | finEnvoi i reussi => exact h.finEnvoi reussi

/-- In the runs where calls of a group and openings of its sessions do not overlap, true means
that every device has the current key, and that it is the last one sent to it. -/
theorem cleGroupe_assuree (events : List GroupeEvent) (h : Always step UnSeul events debut) :
    Always step Assure events debut := by
  refine always_of_invariant Regle ?_ (fun e g hg hc => (hg.segment hc).2) regle_debut h
  intro e g g' hg hc hstep
  obtain rfl := Option.some.inj hstep
  exact (hg.segment hc).1

/-- Two sends to one device, one after the other: the second finds the key in place. -/
theorem cleGroupe_enPlace : Always step Assure [.ouvrir 1, .assurer 0, .creer 0 .reussie,
    .reprendre 0, .emettre 0, .finEnvoi 0 true, .assurer 1] debut :=
  cleGroupe_assuree _ (.cons (.inr fun _ => rfl) rfl (.cons (fun _ => rfl) rfl
    (.cons trivial rfl (.cons trivial rfl (.cons trivial rfl (.cons trivial rfl
      (.cons (fun i => by cases i <;> rfl) rfl trivial)))))))

/-- Two sends at once: the first comes back true with the second one's key in the engine. And a
session opened beside the distribution. -/
theorem cleGroupe_croisee :
    ¬ Always step Assure [.ouvrir 1, .ouvrir 2, .assurer 0, .assurer 1, .creer 0 .reussie,
      .creer 1 .reussie, .reprendre 0, .reprendre 1, .emettre 0, .finEnvoi 0 true, .emettre 0,
      .finEnvoi 0 true] debut ∧
    ¬ Always step Assure [.ouvrir 1, .assurer 0, .creer 0 .reussie, .reprendre 0, .ouvrir 2,
      .emettre 0, .finEnvoi 0 true] debut := by
  decide +kernel

end Groupe

end ZiaCrypte.Chat
