import ZiaCrypte.Inbox.PollOnce
import ZiaCrypte.Inbox.Frames
import ZiaCrypte.Lib.Run
import ZiaCrypte.Lib.Slots

/-!
# `_pollOnce`, one message and one write at a time

Neither the timer nor the socket waits for the poll before, so polls overlap. The
process may stop between any two steps; what is in the vault is read back at the
next start.
-/
namespace ZiaCrypte.Inbox

open ZiaCrypte.Lib ZiaCrypte.Engine

variable {E M : Type}

/-- What is done once the loop is through. -/
inductive Ecriture where
  | historique (conv : Text)
  | sessions (conv : Text)
  | lu (conv : Text)
  | conversations
  deriving DecidableEq

/-- For each conversation that was touched, and for all of them at the end. -/
def ecrituresDe : List Text → List Ecriture
  | [] => []
  | touched =>
      touched.flatMap (fun conv => [.historique conv, .sessions conv, .lu conv]) ++ [.conversations]

def Ecriture.faire (P : Platform E) : Ecriture → State E → State E
  | .historique conv, s => s.saveHistory conv
  | .sessions conv, s => saveSessions P conv s
  | .lu conv, s => if s.activeConversationId = some conv then marquerLu P conv s else s
  | .conversations, s => s.saveConversations

/-- Where a poll is. -/
inductive Etape (M : Type) where
  | boucle (reste : List M) (touched : List Text)
  | ecritures (reste : List Ecriture)

/-- The messages its loop has still to take. -/
def Etape.messages : Etape M → List M
  | .boucle reste _ => reste
  | .ecritures _ => []

/-- A poll that is over. -/
abbrev Etape.fini : Etape M := .ecritures []

/-- The client, and its polls in the order their answers arrived. -/
structure Poste (E M : Type) where
  client : State E
  releves : List (Etape M)

inductive Pas (M : Type) where
  | arrivee (incoming : List M)
  | tour (releve : Nat) (now : Int)
  | ecrire (releve : Nat)
  | arret

/-- `_loadConversations`, for a conversation of the list. -/
def charger (s : State E) (convs : LinkedMap Text Conversation) (c : Conversation) :
    LinkedMap Text Conversation :=
  convs.insert c.id { c with messages := s.readHistory c.id }

/-- The next start: `_adoptSession` reads the vault, and `relance` the identity file. -/
def redemarrer (relance : E → E) (s : State E) : State E where
  userId := s.userId
  username := s.username
  conversations := s.coffre.convs.foldl (charger s) .empty
  activeConversationId := none
  statuts := s.coffre.statuts
  avatars := s.coffre.avatars
  jetonsRemise := s.coffre.jetons
  known := s.coffre.contactIdentities
  identityAlerts := .empty
  accusesLectureActifs := false
  error := false
  coffre := s.coffre
  outside := relance s.outside

variable (P : Platform E) (relance : E → E) (lire : M → Incoming)

/-- What a message of the loop leaves of its poll. -/
def Etape.apres (reste : List M) (touched : List Text) : Received → Etape M
  | .skipped => .boucle reste touched
  | .touched conv => .boucle reste (addToSet touched conv)
  | .thrown => .fini

/-- What is caught at the very end of `_pollOnce` is shown. -/
def afficher (r : Received) (s : State E) : State E :=
  if r = .thrown then { s with error := true } else s

def Poste.step : Pas M → Poste E M → Option (Poste E M)
  | .arrivee incoming, s => some { s with releves := s.releves ++ [.boucle incoming []] }
  | .tour i now, s =>
      match s.releves[i]? with
      | some (.boucle (m :: reste) touched) =>
          let r := receive P now (lire m) s.client
          some {
            client := afficher r.2 r.1
            releves := s.releves.set i (.apres reste touched r.2) }
      | _ => none
  | .ecrire i, s =>
      match s.releves[i]? with
      | some (.boucle [] touched) =>
          some { s with releves := s.releves.set i (.ecritures (ecrituresDe touched)) }
      | some (.ecritures (e :: reste)) => some {
          client := e.faire P s.client
          releves := s.releves.set i (.ecritures reste) }
      | _ => none
  | .arret, s => some ⟨redemarrer relance s.client, []⟩

/-! ## Writes -/

theorem saveEach_conversations (conv : Text) (entries : List (Text × Nat)) (s : State E) :
    (saveEach P conv entries s).conversations = s.conversations := by
  induction entries generalizing s with
  | nil => rfl
  | cons entry entries ih =>
    rw [saveEach, ih]
    dsimp only
    split <;> rfl

/-- A write takes no conversation away. -/
theorem Ecriture.faire_known (e : Ecriture) {s : State E} {id : Text} (h : (s.conv? id).isSome) :
    ((e.faire P s).conv? id).isSome := by
  cases e with
  | historique conv =>
    show ((s.saveHistory conv).conv? id).isSome
    rwa [conv?_saveHistory]
  | sessions conv =>
    show ((saveSessions P conv s).conv? id).isSome
    rwa [State.conv?, saveSessions, saveEach_conversations]
  | lu conv =>
    show ((if s.activeConversationId = some conv then marquerLu P conv s else s).conv? id).isSome
    split
    · unfold marquerLu
      split
      · exact h
      split
      · exact h
      dsimp only
      split
      · exact h
      · rename_i c hc _
        show ((s.putConv conv _).conv? id).isSome
        rw [conv?_putConv]
        split
        · rfl
        · exact h
    · exact h
  | conversations => exact h

/-! ## A poll that is not disturbed -/

variable {P relance lire}

/-- The writes of a poll are those of the end of `pollOnce`. -/
theorem foldl_ecrituresDe (touched : List Text) (hne : touched ≠ []) (s : State E) :
    (ecrituresDe touched).foldl (fun s e => e.faire P s) s =
      (touched.foldl (saveTouched P) s).saveConversations := by
  have hconvs : ∀ convs : List Text, ∀ s : State E,
      (convs.flatMap fun conv => [Ecriture.historique conv, .sessions conv, .lu conv]).foldl
        (fun s e => e.faire P s) s = convs.foldl (saveTouched P) s := by
    intro convs
    induction convs with
    | nil => exact fun _ => rfl
    | cons conv convs ih =>
      intro s
      rw [List.flatMap_cons, List.foldl_append, ih]
      rfl
  cases touched with
  | nil => exact absurd rfl hne
  | cons conv touched =>
    rw [ecrituresDe, List.foldl_append, hconvs]
    · rfl
    · exact hne

/-- The writes that are left are done one after the other. -/
theorem run_ecrire (reste : List Ecriture) (s : State E) (releves : List (Etape M)) :
    run (Poste.step P relance lire) (reste.map fun _ => .ecrire releves.length)
        ⟨s, releves ++ [.ecritures reste]⟩ =
      some ⟨reste.foldl (fun s e => e.faire P s) s, releves ++ [.fini]⟩ := by
  induction reste generalizing s with
  | nil => rfl
  | cons e reste ih =>
    have hstep : Poste.step P relance lire (.ecrire releves.length)
        ⟨s, releves ++ [.ecritures (e :: reste)]⟩ =
        some ⟨e.faire P s, releves ++ [.ecritures reste]⟩ := by
      simp [Poste.step]
    rw [List.map_cons, run_cons, hstep, Option.bind_some, ih]
    rfl

/-- The messages that are left are taken one after the other. -/
theorem run_tours (now : Int) (incoming : List M) (touched : List Text) (s : State E)
    (releves : List (Etape M)) :
    ∃ pas, run (Poste.step P relance lire) pas ⟨s, releves ++ [.boucle incoming touched]⟩ =
      match receiveAll P now (incoming.map lire) touched s with
      | (s, none) => some ⟨{ s with error := true }, releves ++ [.fini]⟩
      | (s, some touched) => some ⟨s, releves ++ [.boucle [] touched]⟩ := by
  induction incoming generalizing touched s with
  | nil => exact ⟨[], rfl⟩
  | cons m incoming ih =>
    have hstep : Poste.step P relance lire (.tour releves.length now)
        ⟨s, releves ++ [.boucle (m :: incoming) touched]⟩ =
        some ⟨afficher (receive P now (lire m) s).2 (receive P now (lire m) s).1,
          releves ++ [.apres incoming touched (receive P now (lire m) s).2]⟩ := by
      simp [Poste.step]
    rw [List.map_cons, receiveAll]
    rcases hr : receive P now (lire m) s with ⟨t, r⟩
    rw [hr] at hstep
    cases r with
    | skipped =>
      obtain ⟨pas, hpas⟩ := ih touched t
      exact ⟨.tour releves.length now :: pas, by rw [run_cons, hstep]; exact hpas⟩
    | touched conv =>
      obtain ⟨pas, hpas⟩ := ih (addToSet touched conv) t
      exact ⟨.tour releves.length now :: pas, by rw [run_cons, hstep]; exact hpas⟩
    | thrown => exact ⟨[.tour releves.length now], by rw [run_cons, hstep]; rfl⟩

/-- A poll that nothing comes between is `pollOnce`. -/
theorem run_pollOnce (now : Int) (incoming : List M) (s : State E) (releves : List (Etape M)) :
    ∃ pas, run (Poste.step P relance lire) (.arrivee incoming :: pas) ⟨s, releves⟩ =
      some ⟨pollOnce P now (incoming.map lire) s, releves ++ [.fini]⟩ := by
  obtain ⟨tours, htours⟩ := @run_tours _ _ P relance lire now incoming [] s releves
  have harrive : ∀ pas, run (Poste.step P relance lire) (.arrivee incoming :: pas) ⟨s, releves⟩ =
      run (Poste.step P relance lire) pas ⟨s, releves ++ [.boucle incoming []]⟩ := fun _ => rfl
  have hend : ∀ touched t, Poste.step P relance lire (.ecrire releves.length)
      ⟨t, releves ++ [.boucle [] touched]⟩ =
      some ⟨t, releves ++ [.ecritures (ecrituresDe touched)]⟩ := by
    intro touched t
    simp [Poste.step]
  rw [pollOnce]
  rcases hall : receiveAll P now (incoming.map lire) [] s with ⟨t, _ | touched⟩
  · rw [hall] at htours
    exact ⟨tours, (harrive tours).trans htours⟩
  · rw [hall] at htours
    refine ⟨tours ++ .ecrire releves.length :: (ecrituresDe touched).map fun _ =>
      .ecrire releves.length, ?_⟩
    rw [harrive, run_append, htours, Option.bind_some, run_cons, hend, Option.bind_some, run_ecrire]
    cases touched with
    | nil => rfl
    | cons conv touched => rw [foldl_ecrituresDe _ (List.cons_ne_nil _ _)]

end ZiaCrypte.Inbox
