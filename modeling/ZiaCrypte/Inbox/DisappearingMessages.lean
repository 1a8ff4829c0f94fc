import ZiaCrypte.Inbox.Frames
import ZiaCrypte.Engine.Delivery

/-!
# The disappearing time of a conversation

Each party applies its own change at once and the other's when its control arrives, whatever
its own is by then, and neither saves the conversation for it. What a party will have once
everything on its way is delivered is the last value on its way, or the one it has.
-/
namespace ZiaCrypte.Inbox

open ZiaCrypte.Lib
open ZiaCrypte.Engine (Party)

/-! ## One party -/

/-- A client, of which one conversation is looked at: in memory, in the list `convs` of the
vault, and its saved history. -/
structure Partie where
  conv : Option Conversation
  convs : Option Conversation
  hist : List ChatMessage

/-- `toJson`, which leaves a time out that is not positive, and `fromJson`. -/
def Conversation.relue (c : Conversation) : Conversation :=
  { c.saved with ttlSecondes := if 0 < c.ttlSecondes then c.ttlSecondes else 0 }

namespace Partie

/-- A new conversation disappears never. -/
def ttl (p : Partie) : Int := (p.conv.map (·.ttlSecondes)).getD 0

/-- What the next start reads. -/
def garde (p : Partie) : Int := (p.convs.map fun c => c.relue.ttlSecondes).getD 0

/-- The time is set, announced in the thread, and the history is saved. -/
def changer (now secondes : Int) (parMoi : Bool) (p : Partie) : Partie :=
  match p.conv with
  | none => p
  | some c =>
      if secondes = c.ttlSecondes then p
      else
        let messages := c.messages ++ [annonceTtl c.peerUsername secondes parMoi now]
        { p with
          conv := some { c with ttlSecondes := secondes, messages := messages }
          hist := messages.map ChatMessage.saved }

/-- `_resolveConversation` -/
def resoudre (id peerUsername : Text) (now : Int) (p : Partie) : Partie :=
  match p.conv with
  | some _ => p
  | none => { p with conv := some { Conversation.new id peerUsername now with
      messages := p.hist } }

/-- `_saveConversations` -/
def sauver (p : Partie) : Partie := { p with convs := p.conv.map Conversation.saved }

/-- `_loadConversations` -/
def redemarrer (p : Partie) : Partie :=
  { p with conv := p.convs.map fun c => { c.relue with messages := p.hist } }

end Partie

/-! ## Two parties -/

/-- `aDiffuser` holds the changes whose control a party has still to send, `enVol` the controls
on their way to it. -/
structure Duo where
  partie : Party → Partie
  aDiffuser : Party → List Int
  enVol : Party → List Int

inductive DuoEvent where
  /-- `definirTtl`, up to the sending. -/
  | definir (p : Party) (now secondes : Int)
  | diffuser (p : Party)
  | livrer (p : Party) (now : Int)
  /-- Whatever else ends with `_saveConversations`. -/
  | sauver (p : Party)
  | redemarrer (p : Party)

namespace Duo

def setPartie (d : Duo) (p : Party) (x : Partie) : Duo :=
  { d with partie := Function.update d.partie p x }

variable (id : Text) (pseudo : Party → Text)

def step : DuoEvent → Duo → Option Duo
  | .definir p now secondes, d =>
      if (d.partie p).conv.isNone || secondes = (d.partie p).ttl then some d
      else some { d.setPartie p ((d.partie p).changer now secondes true) with
        aDiffuser := Function.update d.aDiffuser p (d.aDiffuser p ++ [secondes]) }
  | .diffuser p, d =>
      match d.aDiffuser p with
      | [] => some d
      | secondes :: reste => some { d with
          aDiffuser := Function.update d.aDiffuser p reste
          enVol := Function.update d.enVol p.other (d.enVol p.other ++ [secondes]) }
  | .livrer p now, d =>
      match d.enVol p with
      | [] => some d
      | secondes :: reste => some { d.setPartie p
          (((d.partie p).resoudre id (pseudo p.other) now).changer now secondes false) with
          enVol := Function.update d.enVol p reste }
  | .sauver p, d => some (d.setPartie p (d.partie p).sauver)
  | .redemarrer p, d => some { d.setPartie p (d.partie p).redemarrer with
      aDiffuser := Function.update d.aDiffuser p [] }

/-- One party has opened the conversation, which saves it; the other has not heard of it. -/
def debut (now : Int) : Duo where
  partie
    | .alice => ⟨some (Conversation.new id (pseudo .bob) now),
        some (Conversation.new id (pseudo .bob) now).saved, []⟩
    | .bob => ⟨none, none, []⟩
  aDiffuser _ := []
  enVol _ := []

/-- Every control was sent and delivered. -/
def Calme (d : Duo) : Prop := ∀ p, d.aDiffuser p = [] ∧ d.enVol p = []

end Duo

/-- Controls are sent and delivered, and conversations saved; nothing is changed. -/
def DuoEvent.Achemine : DuoEvent → Prop
  | .diffuser _ => True
  | .livrer _ _ => True
  | .sauver _ => True
  | _ => False

namespace Duo

variable (id : Text) (pseudo : Party → Text)

/-- Once every control has been delivered and no further change is made, both parties have
the same time. -/
def Accord (d : Duo) : Prop := ∀ events d', (∀ e ∈ events, DuoEvent.Achemine e) →
  run (step id pseudo) events d = some d' → Calme d' →
    (d'.partie .alice).ttl = (d'.partie .bob).ttl

/-- What is promised of an event: the parties agree in the end, and one that restarts with
nothing on its way finds the time it had. -/
def Tient (e : DuoEvent) (d : Duo) : Prop :=
  Reaches (step id pseudo) (Accord id pseudo) e d ∧
    ∀ p d', e = .redemarrer p → d.Calme → step id pseudo e d = some d' →
      (d'.partie p).ttl = (d.partie p).ttl

/-! ## The condition -/

/-- The changes the party has not got yet. -/
def enRoute (d : Duo) (p : Party) : List Int := d.enVol p ++ d.aDiffuser p.other

/-- What the party will have. -/
def aTerme (d : Duo) (p : Party) : Int := (d.enRoute p).getLast?.getD (d.partie p).ttl

/-- A change meets no other one on its way, if not to the same value. A party that restarts
finds in the vault, or has on its way, what the other will have. -/
def SansCroisement : DuoEvent → Duo → Prop
  | .definir p _ secondes, d => (d.partie p).conv = none ∨ secondes = (d.partie p).ttl ∨
      (d.enRoute p).getLast?.getD secondes = secondes
  | .redemarrer p, d => (d.enRoute p).getLast?.getD (d.partie p).garde =
      (d.enVol p.other).getLast?.getD (d.partie p.other).ttl
  | _, _ => True

instance decidableSansCroisement : ∀ e d, Decidable (SansCroisement e d)
  | .definir p _ secondes, d => inferInstanceAs (Decidable ((d.partie p).conv = none ∨
      secondes = (d.partie p).ttl ∨ (d.enRoute p).getLast?.getD secondes = secondes))
  | .redemarrer p, d => inferInstanceAs (Decidable
      ((d.enRoute p).getLast?.getD (d.partie p).garde =
        (d.enVol p.other).getLast?.getD (d.partie p.other).ttl))
  | .diffuser _, _ => isTrue trivial
  | .livrer _ _, _ => isTrue trivial
  | .sauver _, _ => isTrue trivial

end Duo

/-! ## What a party has -/

namespace Partie

theorem ttl_changer {p : Partie} (now secondes : Int) (parMoi : Bool) (h : p.conv.isSome) :
    (p.changer now secondes parMoi).ttl = secondes := by
  obtain ⟨c, hc⟩ := Option.isSome_iff_exists.mp h
  unfold changer
  rw [hc]
  dsimp only
  split
  · rename_i heq
    rw [ttl, hc]
    exact heq.symm
  · rfl

theorem isSome_resoudre (id peerUsername : Text) (now : Int) (p : Partie) :
    (p.resoudre id peerUsername now).conv.isSome := by
  unfold resoudre
  split
  · rename_i c hc
    rw [hc]
    rfl
  · rfl

theorem ttl_redemarrer (p : Partie) : p.redemarrer.ttl = p.garde := by
  rw [ttl, garde, redemarrer]
  cases p.convs <;> rfl

end Partie

/-! ## The party in the client's state -/

section State

variable {E : Type} {s s' : State E}

def State.partie (s : State E) (conv : Text) : Partie where
  conv := s.conv? conv
  convs := s.coffre.convs.find? (·.id = conv)
  hist := s.readHistory conv

/-- Both `definirTtl` and the control that arrives change the conversation and save its
history. -/
theorem partie_saveHistory {conv : Text} {c : Conversation} (hc : s.conv? conv = some c)
    {now secondes : Int} {parMoi : Bool} (h : ¬ secondes = c.ttlSecondes) :
    ((s.putConv conv { c with
        ttlSecondes := secondes
        messages := c.messages ++ [annonceTtl c.peerUsername secondes parMoi now] }).saveHistory
          conv).partie conv = (s.partie conv).changer now secondes parMoi := by
  have hconv : (s.partie conv).conv = some c := hc
  rw [Partie.changer, hconv]
  dsimp only
  rw [if_neg h]
  rw [State.saveHistory, conv?_putConv, if_pos rfl]
  simp [State.partie, State.readHistory, State.putConv, State.conv?, LinkedMap.get?_insert_self]

/-- `definirTtl`, up to the sending. -/
def State.definirTtl (now secondes : Int) (conv : Text) (s : State E) : State E :=
  match s.conv? conv with
  | none => s
  | some c =>
      if secondes = c.ttlSecondes then s
      else (s.putConv conv { c with
        ttlSecondes := secondes
        messages := c.messages ++ [annonceTtl c.peerUsername secondes true now] }).saveHistory conv

theorem partie_definirTtl (now secondes : Int) (conv : Text) (s : State E) :
    (s.definirTtl now secondes conv).partie conv =
      (s.partie conv).changer now secondes true := by
  unfold State.definirTtl
  split
  · rename_i hc
    have hconv : (s.partie conv).conv = none := hc
    rw [Partie.changer, hconv]
  · rename_i c hc
    have hconv : (s.partie conv).conv = some c := hc
    split
    · rename_i heq
      rw [Partie.changer, hconv]
      dsimp only
      rw [if_pos heq]
    · rename_i hne
      exact partie_saveHistory hc hne

theorem partie_ttl (P : Platform E) {now : Int} {conv texte : Text} {deMoi : Bool}
    {json : List (Text × Json)} {valeur : Option Int}
    (hjson : decodeCharge P texte prefixeTtl = some json)
    (hvaleur : (field json "s").asInt? = some valeur) (h : ttl P now conv texte deMoi s = some s') :
    s'.partie conv = (s.partie conv).changer now (valeur.getD 0) deMoi := by
  simp only [ttl, hjson, hvaleur, Option.bind_eq_bind, Option.bind_some] at h
  split at h
  · rename_i hc
    obtain rfl := Option.some.inj h
    have hconv : (s.partie conv).conv = none := hc
    rw [Partie.changer, hconv]
  · rename_i c hc
    have hconv : (s.partie conv).conv = some c := hc
    split at h
    · rename_i heq
      obtain rfl := Option.some.inj h
      rw [Partie.changer, hconv]
      dsimp only
      rw [if_pos heq]
    · rename_i hne
      obtain rfl := Option.some.inj h
      exact partie_saveHistory hc hne

/-- Every conversation is under its own id. -/
theorem partie_saveConversations (conv : Text)
    (hid : ∀ e ∈ s.conversations.entries, e.2.id = e.1) :
    s.saveConversations.partie conv = (s.partie conv).sauver := by
  have hconvs := s.conversations.find?_map_entries conv Conversation.saved (·.id) hid
  exact congrArg (fun x => Partie.mk (s.conv? conv) x (s.readHistory conv)) hconvs

end State

namespace Duo

variable {id : Text} {pseudo : Party → Text} {d d' : Duo}

theorem other_ne (p : Party) : p.other ≠ p := by cases p <;> decide

theorem other_other (p : Party) : p.other.other = p := by cases p <;> rfl

/-- Sending, delivering and saving change nothing of what a party will have. -/
theorem aTerme_achemine {e : DuoEvent} (he : e.Achemine) (h : step id pseudo e d = some d')
    (q : Party) : d'.aTerme q = d.aTerme q := by
  cases e with
  | definir p now secondes => exact he.elim
  | redemarrer p => exact he.elim
  | sauver p =>
    obtain rfl := Option.some.inj h
    cases p <;> cases q <;> rfl
  | diffuser p =>
    rw [step] at h
    cases hp : d.aDiffuser p with
    | nil =>
      rw [hp] at h
      obtain rfl := Option.some.inj h
      rfl
    | cons secondes reste =>
      rw [hp] at h
      obtain rfl := Option.some.inj h
      cases p <;> cases q <;> simp [aTerme, enRoute, Party.other, hp]
  | livrer p now =>
    rw [step] at h
    cases hp : d.enVol p with
    | nil =>
      rw [hp] at h
      obtain rfl := Option.some.inj h
      rfl
    | cons secondes reste =>
      rw [hp] at h
      obtain rfl := Option.some.inj h
      have httl := Partie.ttl_changer now secondes false
        (Partie.isSome_resoudre id (pseudo p.other) now (d.partie p))
      cases p <;> cases q <;>
        simp_all [aTerme, enRoute, setPartie, Party.other, List.getLast?_cons]

theorem Calme.aTerme_eq (h : d.Calme) (q : Party) : d.aTerme q = (d.partie q).ttl := by
  rw [aTerme, enRoute, (h q).2, (h q.other).1]
  rfl

/-! ### Everything on its way can be delivered -/

/-- A control counts twice until it is sent. -/
def reste (d : Duo) : Nat := 2 * (d.aDiffuser .alice).length + (d.enVol .alice).length +
  (2 * (d.aDiffuser .bob).length + (d.enVol .bob).length)

variable (id pseudo) in
theorem exists_achemine (h : ¬ d.Calme) :
    ∃ e d', DuoEvent.Achemine e ∧ step id pseudo e d = some d' ∧ d'.reste < d.reste := by
  obtain ⟨p, hp⟩ := Classical.not_forall.mp h
  by_cases hdiffuser : d.aDiffuser p = []
  · cases hvol : d.enVol p with
    | nil => exact absurd ⟨hdiffuser, hvol⟩ hp
    | cons secondes suite =>
      refine ⟨.livrer p 0, _, trivial, by rw [step, hvol], ?_⟩
      cases p <;> simp [reste, setPartie, hvol]
  · cases hliste : d.aDiffuser p with
    | nil => exact absurd hliste hdiffuser
    | cons secondes suite =>
      refine ⟨.diffuser p, _, trivial, by rw [step, hliste], ?_⟩
      cases p <;> simp [reste, Party.other, hliste] <;> omega

variable (id pseudo) in
theorem exists_calme (d : Duo) :
    ∃ events d', (∀ e ∈ events, DuoEvent.Achemine e) ∧
      run (step id pseudo) events d = some d' ∧ Calme d' := by
  induction hn : d.reste using Nat.strong_induction_on generalizing d with
  | h n ih =>
    by_cases hcalme : d.Calme
    · exact ⟨[], d, by simp, rfl, hcalme⟩
    · obtain ⟨e, u, he, hu, hlt⟩ := exists_achemine id pseudo hcalme
      obtain ⟨events, d', hall, hrun, hd'⟩ := ih u.reste (by omega) u rfl
      refine ⟨e :: events, d', ?_, ?_, hd'⟩
      · intro x hx
        cases List.mem_cons.mp hx with
        | inl heq => exact heq ▸ he
        | inr hmem => exact hall x hmem
      · rw [run_cons, hu]
        exact hrun

/-- What a party will have does not depend on the order of the deliveries. -/
theorem aTerme_run {events : List DuoEvent} (he : ∀ e ∈ events, DuoEvent.Achemine e)
    (h : run (step id pseudo) events d = some d') (q : Party) : d'.aTerme q = d.aTerme q := by
  induction events generalizing d with
  | nil =>
    obtain rfl := Option.some.inj h
    rfl
  | cons e events ih =>
    rw [run_cons, Option.bind_eq_some_iff] at h
    obtain ⟨u, hu, hrest⟩ := h
    have htail := ih (fun x hx => he x (List.mem_cons_of_mem _ hx)) hrest
    exact htail.trans (aTerme_achemine (he e List.mem_cons_self) hu q)

theorem accord_iff : Accord id pseudo d ↔ d.aTerme .alice = d.aTerme .bob := by
  constructor
  · intro h
    obtain ⟨events, d', hall, hrun, hcalme⟩ := exists_calme id pseudo d
    have hfin := h events d' hall hrun hcalme
    rw [← hcalme.aTerme_eq, ← hcalme.aTerme_eq, aTerme_run hall hrun, aTerme_run hall hrun] at hfin
    exact hfin
  · intro h events d' hall hrun hcalme
    rw [← hcalme.aTerme_eq, ← hcalme.aTerme_eq, aTerme_run hall hrun, aTerme_run hall hrun]
    exact h

/-! ### What a change and a restart do to it -/

theorem aTerme_definir {p : Party} {now secondes : Int}
    (h : step id pseudo (.definir p now secondes) d = some d')
    (hc : ¬ (d.partie p).conv = none) (hs : ¬ secondes = (d.partie p).ttl) :
    d'.aTerme p = (d.enRoute p).getLast?.getD secondes ∧ d'.aTerme p.other = secondes := by
  have hsome : (d.partie p).conv.isSome := Option.isSome_iff_ne_none.mpr hc
  rw [step, if_neg (by simp [hc, hs])] at h
  obtain rfl := Option.some.inj h
  have httl := Partie.ttl_changer now secondes true hsome
  cases p <;> simp_all [aTerme, enRoute, setPartie, Party.other]

theorem aTerme_redemarrer {p : Party} (h : step id pseudo (.redemarrer p) d = some d') :
    d'.aTerme p = (d.enRoute p).getLast?.getD (d.partie p).garde ∧
      d'.aTerme p.other = (d.enVol p.other).getLast?.getD (d.partie p.other).ttl := by
  obtain rfl := Option.some.inj h
  have httl := Partie.ttl_redemarrer (d.partie p)
  cases p <;> simp_all [aTerme, enRoute, setPartie, Party.other]

/-- A change without effect leaves everything as it is. -/
theorem definir_sans_effet {p : Party} {now secondes : Int}
    (h : step id pseudo (.definir p now secondes) d = some d')
    (hc : (d.partie p).conv = none ∨ secondes = (d.partie p).ttl) : d' = d := by
  rw [step, if_pos (by cases hc with | inl hn => simp [hn] | inr hs => simp [hs])] at h
  exact (Option.some.inj h).symm

/-! ## Agreement along a run -/

/-- A step from agreement reaches agreement exactly when it meets no change on its way. -/
theorem reaches_accord_iff {e : DuoEvent} (hd : d.aTerme .alice = d.aTerme .bob) :
    Reaches (step id pseudo) (Accord id pseudo) e d ↔ SansCroisement e d := by
  have hpair : ∀ {u : Duo} (p : Party), u.aTerme .alice = u.aTerme .bob ↔
      u.aTerme p = u.aTerme p.other := by
    intro u p
    cases p with
    | alice => exact Iff.rfl
    | bob => exact eq_comm
  cases e with
  | definir p now secondes =>
    by_cases hc : (d.partie p).conv = none ∨ secondes = (d.partie p).ttl
    · constructor
      · intro _
        exact hc.elim .inl fun hs => .inr (.inl hs)
      · intro _ d' h
        rw [accord_iff, definir_sans_effet h hc]
        exact hd
    · have hcroise : ∀ {d'}, step id pseudo (.definir p now secondes) d = some d' →
          (Accord id pseudo d' ↔ (d.enRoute p).getLast?.getD secondes = secondes) := by
        intro d' h
        obtain ⟨hp, hother⟩ := aTerme_definir h (fun hn => hc (.inl hn)) fun hs => hc (.inr hs)
        rw [accord_iff, hpair p, hp, hother]
      obtain ⟨d', h⟩ : ∃ d', step id pseudo (.definir p now secondes) d = some d' := by
        rw [step]
        split
        · exact ⟨_, rfl⟩
        · exact ⟨_, rfl⟩
      constructor
      · intro hq
        exact .inr (.inr ((hcroise h).mp (hq d' h)))
      · intro hs u hu
        have hlast : (d.enRoute p).getLast?.getD secondes = secondes := by
          obtain hn | hs | hl := hs
          · exact absurd (.inl hn) hc
          · exact absurd (.inr hs) hc
          · exact hl
        exact (hcroise hu).mpr hlast
  | redemarrer p =>
    have hred : ∀ {d'}, step id pseudo (.redemarrer p) d = some d' →
        (Accord id pseudo d' ↔ SansCroisement (.redemarrer p) d) := by
      intro d' h
      obtain ⟨hp, hother⟩ := aTerme_redemarrer h
      rw [accord_iff, hpair p, hp, hother]
      rfl
    exact ⟨fun hq => (hred rfl).mp (hq _ rfl), fun hs d' h => (hred h).mpr hs⟩
  | diffuser p =>
    refine ⟨fun _ => trivial, fun _ d' h => ?_⟩
    have he : DuoEvent.Achemine (.diffuser p) := trivial
    rw [accord_iff, aTerme_achemine he h, aTerme_achemine he h]
    exact hd
  | livrer p now =>
    refine ⟨fun _ => trivial, fun _ d' h => ?_⟩
    have he : DuoEvent.Achemine (.livrer p now) := trivial
    rw [accord_iff, aTerme_achemine he h, aTerme_achemine he h]
    exact hd
  | sauver p =>
    refine ⟨fun _ => trivial, fun _ d' h => ?_⟩
    have he : DuoEvent.Achemine (.sauver p) := trivial
    rw [accord_iff, aTerme_achemine he h, aTerme_achemine he h]
    exact hd

/-- A restart that leads to accord gives a party that awaited nothing its time back. -/
theorem ttl_redemarrer_calme {p : Party} (hd : d.aTerme .alice = d.aTerme .bob)
    (hs : SansCroisement (.redemarrer p) d) (hcalme : d.Calme)
    (h : step id pseudo (.redemarrer p) d = some d') :
    (d'.partie p).ttl = (d.partie p).ttl := by
  obtain rfl := Option.some.inj h
  have hgarde : (d.partie p).garde = (d.partie p.other).ttl := by
    have hq : (d.enRoute p).getLast?.getD (d.partie p).garde =
      (d.enVol p.other).getLast?.getD (d.partie p.other).ttl := hs
    rw [enRoute, (hcalme p).2, (hcalme p.other).1, (hcalme p.other).2] at hq
    exact hq
  have hmeme : (d.partie p.other).ttl = (d.partie p).ttl := by
    rw [hcalme.aTerme_eq, hcalme.aTerme_eq] at hd
    cases p with
    | alice => exact hd.symm
    | bob => exact hd
  have httl := Partie.ttl_redemarrer (d.partie p)
  rw [← hmeme, ← hgarde, ← httl]
  cases p <;> rfl

theorem tient_iff {e : DuoEvent} (hd : d.aTerme .alice = d.aTerme .bob) :
    Tient id pseudo e d ↔ SansCroisement e d := by
  constructor
  · intro h
    exact (reaches_accord_iff hd).mp h.1
  · intro hs
    refine ⟨(reaches_accord_iff hd).mpr hs, ?_⟩
    rintro p d' rfl hcalme h
    exact ttl_redemarrer_calme hd hs hcalme h

theorem always_tient_iff {events : List DuoEvent} (hd : d.aTerme .alice = d.aTerme .bob) :
    Always (step id pseudo) (Tient id pseudo) events d ↔
      Always (step id pseudo) SansCroisement events d := by
  refine always_iff_of_invariant (fun d : Duo => d.aTerme .alice = d.aTerme .bob) ?_ ?_ hd
  · intro e d d' _ hq h
    exact accord_iff.mp (hq.1 d' h)
  · intro e d hd
    exact tient_iff hd

/-- The parties agree all along, and keep the time across restarts, exactly as long as no
change crosses another and no party restarts without having saved the time. -/
theorem dureePartagee_iff (id : Text) (pseudo : Party → Text) (now : Int)
    (events : List DuoEvent) :
    Always (step id pseudo) (Tient id pseudo) events (debut id pseudo now) ↔
      Always (step id pseudo) SansCroisement events (debut id pseudo now) :=
  always_tient_iff rfl

/-- Two changes that cross, and a restart after everything was delivered. -/
theorem dureePartagee_rompue : ∃ (id : Text) (pseudo : Party → Text),
    ¬ Always (step id pseudo) (Tient id pseudo)
      [.definir .alice 0 3600, .diffuser .alice, .livrer .bob 0, .definir .alice 0 86400,
        .definir .bob 0 0, .diffuser .alice, .diffuser .bob, .livrer .alice 0, .livrer .bob 0]
      (debut id pseudo 0) ∧
    ¬ Always (step id pseudo) (Tient id pseudo)
      [.definir .alice 0 3600, .diffuser .alice, .livrer .bob 0, .redemarrer .bob]
      (debut id pseudo 0) := by
  refine ⟨text "c", fun _ => text "bob", ?_, ?_⟩
  · rw [always_tient_iff rfl]
    decide +kernel
  · rw [always_tient_iff rfl]
    decide +kernel

end Duo

end ZiaCrypte.Inbox
