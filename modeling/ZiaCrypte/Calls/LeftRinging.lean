import ZiaCrypte.Calls.CallService
import ZiaCrypte.Realtime.SignalOrder

/-!
# A call that was hung up and still rings

The signals of a caller's socket, through the gateway, to the callee's client, which takes
them up one after the other in bodies that other bodies may interrupt. An invitation can be
overtaken by its hangup twice: while the gateway asks whether it is blocked, and while the
client opens it. What is overtaken rings once nobody will take it back.
-/
namespace ZiaCrypte.Calls

open ZiaCrypte.Lib
open ZiaCrypte.Realtime (Relais Relaye Envoi Message Input Socket)
open ZiaCrypte.Server (Uuid)

/-! ## Only an invitation makes a client ring -/

/-- No invitation to the call is made to ring. -/
def Stmt.Muet (x : CallId) : Stmt → Prop
  | .sonner _ f _ => f.callId ≠ x
  | _ => True

/-- The call rings in. -/
def Service.Sonne (x : CallId) (s : Service) : Prop :=
  s.appel.callEtat = .entrant ∧ s.appel.callId = some x

instance (x : CallId) (s : Service) : Decidable (s.Sonne x) :=
  inferInstanceAs (Decidable (s.appel.callEtat = .entrant ∧ s.appel.callId = some x))

theorem not_sonne_apply {x : CallId} {a : Stmt} {s : Service} (ha : a.Muet x)
    (hs : ¬ s.Sonne x) : ¬ (a.apply s).Sonne x := by
  cases a with
  | sortir conv id =>
    intro h
    rw [Stmt.apply, Service.sortir] at h
    dsimp only at h
    split at h
    · cases h.1
    · cases h.1
  | sonner conv f data => exact fun h => ha (Option.some.inj h.2)
  | connecter device id => exact fun h => by cases h.1
  | decrocher f => exact fun h => by cases h.1
  | terminerAppel => exact fun h => by cases h.1
  | raccroche f => exact fun h => by cases h.1
  | candidat f data =>
    rw [Stmt.apply, Service.candidat]
    split
    · exact hs
    · exact hs
  | iceLocal id data =>
    rw [Stmt.apply, Service.iceLocal]
    split
    · exact hs
    · exact hs
  | _ => exact hs

theorem not_sonne_settle {x : CallId} (q : Request) {s : Service} (hs : ¬ s.Sonne x) :
    ¬ (q.settle s).Sonne x := by
  cases q <;> exact hs

/-! ### The bodies -/

section Bodies

variable {x : CallId}

theorem envoyerChacun_muet (id : CallId) (kind : Kind) (data : Data) (devices : List DeviceId) :
    (envoyerChacun id kind data devices).Only (Stmt.Muet x) := by
  induction devices with
  | nil => exact Async.only_pure ()
  | cons d ds ih => exact (Async.only_request _).bind fun _ => ih

theorem preparerOffre_muet (conv : ConvId) (id : CallId) :
    (preparerOffre conv id).Only (Stmt.Muet x) := by
  refine Async.only_get fun s => ?_
  split
  · refine (Async.only_request _).attempt.bind fun r => ?_
    cases r with
    | ok data => exact (Async.only_exec trivial).bind fun _ => Async.only_pure data
    | error e => exact Async.only_pure _
  · exact Async.only_pure _

theorem appeler_muet (conv : ConvId) (id : CallId) : (appeler conv id).Only (Stmt.Muet x) := by
  refine Async.only_get fun s => ?_
  dsimp only
  split
  · exact Async.only_pure ()
  · refine (Async.only_request _).attempt.bind fun r => ?_
    split
    · refine (Async.only_exec trivial).bind fun _ => Async.only_get fun s' => ?_
      refine (Async.only_exec trivial).bind fun _ => ?_
      split
      · exact Async.only_pure ()
      · exact (preparerOffre_muet conv id).bind fun data => envoyerChacun_muet id .invite data _
    · exact Async.only_pure ()

theorem rejouerCandidats_muet (length : Nat) (attente : List Data) :
    (rejouerCandidats length attente).Only (Stmt.Muet x) := by
  induction attente with
  | nil => exact Async.only_pure ()
  | cons c cs ih =>
    refine (Async.only_request _).attempt.bind fun _ => Async.only_get fun s => ?_
    split
    · trivial
    · exact ih

theorem repondreOffre_muet (conv : ConvId) (id : CallId) :
    (repondreOffre conv id).Only (Stmt.Muet x) := by
  refine Async.only_get fun s => ?_
  split
  · exact Async.only_pure _
  · split
    · refine (Async.only_request _).attempt.bind fun r => ?_
      cases r with
      | error e => exact Async.only_pure _
      | ok data =>
        refine (Async.only_exec trivial).bind fun _ => Async.only_get fun s' => ?_
        refine Async.Only.bind (Async.Only.attempt ?_) fun _ => Async.only_pure data
        refine (rejouerCandidats_muet _ _).bind fun _ => ?_
        exact (Async.only_exec trivial).bind fun _ => Async.only_exec trivial
    · exact Async.only_pure _

theorem accepter_muet (conv : ConvId) (device : DeviceId) (id : CallId) :
    (accepter conv device id).Only (Stmt.Muet x) := by
  have hrest : (do
      Async.exec (.connecter device id)
      let data ← repondreOffre conv id
      Async.request (Request.envoyerSignalAppel ⟨device, id, .answer, data⟩) : Task Unit).Only
        (Stmt.Muet x) :=
    (Async.only_exec trivial).bind fun _ => (repondreOffre_muet conv id).bind fun _ =>
      Async.only_request _
  refine Async.only_get fun s => ?_
  split
  · refine (Async.only_request _).attempt.bind fun r => ?_
    cases r with
    | ok creds => exact (Async.only_exec trivial).bind fun _ => hrest
    | error e => exact hrest
  · exact hrest

theorem accepterAppel_muet : accepterAppel.Only (Stmt.Muet x) := by
  refine Async.only_get fun s => ?_
  split
  · split
    · exact Async.only_pure ()
    · split
      · exact Async.only_pure ()
      · exact accepter_muet _ _ _
  · exact Async.only_pure ()

theorem raccrocherChacun_muet (id : CallId) (kind : Kind) (devices : List DeviceId) :
    (raccrocherChacun id kind devices).Only (Stmt.Muet x) := by
  induction devices with
  | nil => exact Async.only_pure ()
  | cons d ds ih =>
    refine Async.only_get fun s => ?_
    dsimp only
    split
    · exact (Async.only_request _).bind fun _ => ih
    · exact ih

theorem raccrocher_muet : raccrocher.Only (Stmt.Muet x) := by
  refine Async.only_get fun s => ?_
  dsimp only
  split
  · exact Async.only_exec trivial
  · exact (raccrocherChacun_muet _ _ _).bind fun _ => Async.only_exec trivial

theorem conclure_muet (f : Frame) (data : Data) : (conclure f data).Only (Stmt.Muet x) := by
  have hrest : (do
      let s ← Async.get
      Async.exec (.emettre (s.appel.iceLocalEnAttente.map fun c => ⟨f.sender, f.callId, .ice, c⟩))
      Async.exec (.viderIceLocal f)
      Async.exec (.emettre ((s.appel.callCibles.filter (· ≠ f.sender)).map fun d =>
        ⟨d, f.callId, .hangup, .vide⟩))
      if s.appel.callSession.isSome then Async.exec (.armerTimeoutMedia (some f)) : Task Unit).Only
        (Stmt.Muet x) := by
    intro s
    refine ⟨trivial, trivial, trivial, ?_⟩
    split
    · exact Async.only_exec trivial
    · trivial
  rw [conclure]
  split
  · exact (Async.only_request _).attempt.bind fun _ => hrest
  · exact hrest

theorem expirer_muet : expirer.Only (Stmt.Muet x) := by
  refine (Async.only_exec trivial).bind fun _ => Async.only_get fun s => ?_
  split
  · exact Async.only_pure ()
  · split
    · dsimp only
      split
      · exact ⟨trivial, trivial, trivial⟩
      · exact ⟨trivial, trivial⟩
    · exact ⟨trivial, trivial⟩

/-- A signal that is no invitation to the call does not make it ring. -/
theorem recevoirSignalAppel_muet {f : Frame} (hf : f.kind = .invite → f.callId ≠ x) :
    (recevoirSignalAppel f).Only (Stmt.Muet x) := by
  refine Async.only_get fun s => ?_
  split
  · split
    · exact Async.only_exec trivial
    · exact Async.only_pure ()
  · split
    · exact Async.only_pure ()
    · refine (Async.only_request _).attempt.bind fun r => ?_
      cases r with
      | error e => exact Async.only_pure ()
      | ok data =>
        refine Async.only_get fun s' => ?_
        split
        · rename_i hkind
          split
          · exact Async.only_request _
          · exact Async.only_exec (hf hkind)
        · split
          · exact (Async.only_exec trivial).bind fun _ => conclure_muet f data
          · exact Async.only_pure ()
        · split
          · exact Async.only_pure ()
          · split
            · exact Async.only_pure ()
            · refine (Async.only_exec trivial).bind fun _ => ?_
              split
              · exact (Async.only_request _).attempt.bind fun _ => Async.only_pure ()
              · exact Async.only_pure ()
        · exact Async.only_pure ()

theorem program_muet {task : CallTask}
    (htask : ∀ f, task = .recevoirSignalAppel f → f.kind = .invite → f.callId ≠ x) :
    task.program.Only (Stmt.Muet x) := by
  cases task with
  | appeler conv id => exact appeler_muet conv id
  | accepterAppel => exact accepterAppel_muet
  | raccrocher => exact raccrocher_muet
  | recevoirSignalAppel f => exact recevoirSignalAppel_muet (htask f rfl)
  | expirer => exact expirer_muet
  | mediaConnecte connecte => exact Async.only_exec trivial
  | iceLocal id data => exact Async.only_exec trivial
  | reinitialiser => exact Async.only_exec trivial
  | majConversations conversations => exact Async.only_exec trivial

end Bodies

/-! ## The gateway and a client behind it -/

/-- How the client names the devices and the calls of the gateway, and which payloads open with
the session of the device they come from. -/
structure Lecture where
  appareil : Uuid → DeviceId
  appel : String → CallId
  ouvre : Uuid → Realtime.Payload → Bool

def Kind.lire (kind : String) : Option Kind :=
  if kind = "invite" then some .invite
  else if kind = "offer" then some .offer
  else if kind = "answer" then some .answer
  else if kind = "ice" then some .ice
  else if kind = "hangup" then some .hangup
  else if kind = "decline" then some .decline
  else none

def Lecture.trame (L : Lecture) : Envoi → Option Frame
  | .callSignal expediteur callId kind payload => (Kind.lire kind).map fun kind =>
      ⟨L.appareil expediteur, kind, L.appel callId, L.ouvre expediteur payload⟩
  | _ => none

/-- The gateway, and the client of one device. `lus` counts the signals it has taken up,
`traitements` has the thread of each. -/
structure Ligne where
  relais : Relais
  pool : CallPool
  lus : Nat
  traitements : List (Nat × Frame)

/-- What reached the device, in the order it did. -/
def arrives (d : Uuid) (r : Relais) : List Relaye := (r.relayes.filter (·.cible = d)).reverse

inductive LigneEvent where
  | passerelle (i : Input)
  /-- The socket of the client delivers the next signal. -/
  | recevoir
  | appareil (c : CallChoice)

/-- Signals only come by the socket. -/
def parSocket : CallChoice → Bool
  | .start (.recevoirSignalAppel _) => true
  | _ => false

/-- A crash takes the threads with it. -/
def garder : CallChoice → List (Nat × Frame) → List (Nat × Frame)
  | .crash, _ => []
  | _, traitements => traitements

def poolStep : CallChoice → CallPool → Option CallPool :=
  Pool.step callSemantics CallTask.program CallTask.allowed

namespace Ligne

variable (L : Lecture) (d : Uuid)

def start (conversations : List Conversation) (activerMediaAppel : Bool) : Ligne :=
  ⟨.start, ⟨.initial conversations activerMediaAppel, [], []⟩, 0, []⟩

def step : LigneEvent → Ligne → Option Ligne
  | .passerelle i, s => (s.relais.step i).map fun r => { s with relais := r }
  | .recevoir, s => do
      let r ← (arrives d s.relais)[s.lus]?
      match L.trame r.charge with
      | none => some { s with lus := s.lus + 1 }
      | some f =>
          (poolStep (.start (.recevoirSignalAppel f)) s.pool).map fun p =>
            { s with
              pool := p
              lus := s.lus + 1
              traitements := (s.pool.threads.length, f) :: s.traitements }
  | .appareil c, s =>
      if parSocket c then none
      else (poolStep c s.pool).map fun p =>
        { s with pool := p, traitements := garder c s.traitements }

/-- No signal is relayed past an invitation that waits, and the client takes up no hangup while
it is opening an invitation to the same call. -/
def Ordonnee : LigneEvent → Ligne → Prop
  | .passerelle i, s => Relais.SansAttente i s.relais
  | .recevoir, s => ∀ r ∈ (arrives d s.relais)[s.lus]?, ∀ f ∈ L.trame r.charge,
      f.kind = .hangup → ∀ t ∈ s.traitements, t.2.kind = .invite → t.2.callId = f.callId →
        (s.pool.threads[t.1]?).all (·.estFini) = true
  | .appareil _, _ => True

instance decidableOrdonnee : ∀ e s, Decidable (Ordonnee L d e s)
  | .passerelle i, s => Relais.decidableSansAttente i s.relais
  | .recevoir, s => inferInstanceAs (Decidable (∀ r ∈ (arrives d s.relais)[s.lus]?,
      ∀ f ∈ L.trame r.charge, f.kind = .hangup → ∀ t ∈ s.traitements, t.2.kind = .invite →
        t.2.callId = f.callId → (s.pool.threads[t.1]?).all (·.estFini) = true))
  | .appareil _, _ => isTrue trivial

end Ligne

/-- The message carries a signal of this kind for the call to the device. -/
def Lecture.Signale (L : Lecture) (d : Uuid) (x : CallId) (kind : String) : Message → Prop
  | .callSignal (some k) (some callId) _ cibles =>
      k = kind ∧ L.appel callId = x ∧ d ∈ cibles.firsts 10
  | _ => False

/-! ## What a step of the client keeps -/

/-- Nothing of what runs makes the call ring, and it does not ring. -/
structure Silence (x : CallId) (p : CallPool) : Prop where
  threads : ∀ th ∈ p.threads, th.Only (Stmt.Muet x)
  libre : ¬ p.state.Sonne x

theorem launch_muet {x : CallId} {body : Task Unit} (h : body.Only (Stmt.Muet x)) {s : Service}
    (hs : ¬ s.Sonne x) : ¬ (callSemantics.launch body s).2.1.Sonne x ∧
      (callSemantics.launch body s).2.2.Only (Stmt.Muet x) :=
  callSemantics.launch_only (fun s => ¬ s.Sonne x)
    (fun _ _ ha hs => not_sonne_apply ha hs) (fun _ _ hs => hs) h hs

/-- The same of a body whatever the state. -/
theorem launch_only {x : CallId} {body : Task Unit} (h : body.Only (Stmt.Muet x)) (s : Service) :
    (callSemantics.launch body s).2.2.Only (Stmt.Muet x) :=
  (callSemantics.launch_only (fun _ => True) (fun _ _ _ _ => trivial)
    (fun _ _ _ => trivial) h trivial).2

theorem Silence.step {x : CallId} {c : CallChoice} {p p' : CallPool} (h : Silence x p)
    (hc : ∀ f, c = .start (.recevoirSignalAppel f) → f.kind = .invite → f.callId ≠ x)
    (hp : poolStep c p = some p') : Silence x p' := by
  cases c with
  | start task =>
    rw [poolStep, Pool.step] at hp
    split at hp
    · obtain rfl := Option.some.inj hp
      have hmuet := program_muet (x := x) fun f hf => hc f (congrArg Choice.start hf)
      obtain ⟨hlibre, hth⟩ := launch_muet hmuet h.libre
      refine ⟨fun th hmem => ?_, hlibre⟩
      cases List.mem_append.mp hmem with
      | inl hold => exact h.threads th hold
      | inr hnew => exact List.mem_singleton.mp hnew ▸ hth
    · cases hp
  | settle i y =>
    rw [poolStep, Pool.step] at hp
    split at hp
    · rename_i t q k hget
      split at hp
      · obtain rfl := Option.some.inj hp
        have hk : (Thread.blocked t q k).Only (Stmt.Muet x) :=
          h.threads _ (List.mem_of_getElem? hget)
        refine ⟨fun th hmem => ?_, not_sonne_settle q h.libre⟩
        cases List.mem_or_eq_of_mem_set hmem with
        | inl hold => exact h.threads th hold
        | inr hnew => exact hnew ▸ hk _
      · cases hp
    · cases hp
  | resume i =>
    rw [poolStep, Pool.step] at hp
    split at hp
    · rename_i body hget
      obtain rfl := Option.some.inj hp
      have hbody : (Thread.resumable body).Only (Stmt.Muet x) :=
        h.threads _ (List.mem_of_getElem? hget)
      obtain ⟨hlibre, hth⟩ := launch_muet hbody h.libre
      refine ⟨fun th hmem => ?_, hlibre⟩
      cases List.mem_or_eq_of_mem_set hmem with
      | inl hold => exact h.threads th hold
      | inr hnew => exact hnew ▸ hth
    · cases hp
  | crash =>
    obtain rfl := Option.some.inj hp
    exact ⟨fun th hmem => (by cases hmem), fun hs => by cases hs.1⟩

theorem launch_raccroche {f : Frame} (hkind : f.kind = .hangup) (s : Service) :
    callSemantics.launch (recevoirSignalAppel f) s =
      if s.appel.callId = some f.callId then ([.act (.raccroche f)], s.terminerAppel, .finished)
      else ([], s, .finished) := by
  change callSemantics.launch (if f.kind = .hangup ∨ f.kind = .decline then
    (if s.appel.callId = some f.callId then Async.exec (.raccroche f) else pure ()) else _) s = _
  rw [if_pos (.inl hkind)]
  split <;> rfl

/-- A hangup is handled at one go, and the call no longer rings. -/
theorem silence_raccroche {f : Frame} {p p' : CallPool}
    (hth : ∀ th ∈ p.threads, th.Only (Stmt.Muet f.callId)) (hkind : f.kind = .hangup)
    (hp : poolStep (.start (.recevoirSignalAppel f)) p = some p') : Silence f.callId p' := by
  have hprogram : CallTask.program (.recevoirSignalAppel f) = recevoirSignalAppel f := rfl
  have hallowed : CallTask.allowed (.recevoirSignalAppel f) p.state = true := rfl
  rw [poolStep, Pool.step, if_pos hallowed, hprogram, launch_raccroche hkind] at hp
  have hfinie : ∀ th ∈ p.threads ++ [Thread.finished], th.Only (Stmt.Muet f.callId) := by
    intro th hmem
    cases List.mem_append.mp hmem with
    | inl hold => exact hth th hold
    | inr hnew =>
      obtain rfl := List.mem_singleton.mp hnew
      trivial
  by_cases hid : p.state.appel.callId = some f.callId
  · rw [if_pos hid] at hp
    obtain rfl := Option.some.inj hp
    exact ⟨hfinie, fun hs => by cases hs.1⟩
  · rw [if_neg hid] at hp
    obtain rfl := Option.some.inj hp
    exact ⟨hfinie, fun hs => hid hs.2⟩

/-! ## Along a run -/

namespace Ligne

variable {L : Lecture} {d : Uuid} {x : CallId} {s t : Ligne} {e : LigneEvent}

/-- A thread that may make the call ring is that of an invitation to it. -/
def Appels (x : CallId) (s : Ligne) : Prop :=
  ∀ n th, s.pool.threads[n]? = some th →
    th.Only (Stmt.Muet x) ∨ ∃ f, (n, f) ∈ s.traitements ∧ f.kind = .invite ∧ f.callId = x

theorem appels_poolStep {c : CallChoice} {p' : CallPool} {traitements : List (Nat × Frame)}
    (h : s.Appels x) (hp : poolStep c s.pool = some p')
    (hstart : ∀ task, c = .start task →
      task.program.Only (Stmt.Muet x) ∨
        ∃ f, (s.pool.threads.length, f) ∈ traitements ∧ f.kind = .invite ∧ f.callId = x)
    (hgarde : c ≠ .crash → s.traitements ⊆ traitements) :
    ∀ n th, p'.threads[n]? = some th →
      th.Only (Stmt.Muet x) ∨ ∃ f, (n, f) ∈ traitements ∧ f.kind = .invite ∧ f.callId = x := by
  have hold : c ≠ .crash → ∀ n th, s.pool.threads[n]? = some th →
      th.Only (Stmt.Muet x) ∨ ∃ f, (n, f) ∈ traitements ∧ f.kind = .invite ∧ f.callId = x := by
    intro hc n th hth
    cases h n th hth with
    | inl hmuet => exact .inl hmuet
    | inr hf =>
      obtain ⟨f, hmem, hf⟩ := hf
      exact .inr ⟨f, hgarde hc hmem, hf⟩
  -- A thread that goes on in its place.
  have hset : c ≠ .crash → ∀ {i : Nat} {th th' : Thread Service Stmt Request Reply Unit},
      s.pool.threads[i]? = some th → (th.Only (Stmt.Muet x) → th'.Only (Stmt.Muet x)) →
      ∀ n th'', (s.pool.threads.set i th')[n]? = some th'' →
        th''.Only (Stmt.Muet x) ∨
          ∃ f, (n, f) ∈ traitements ∧ f.kind = .invite ∧ f.callId = x := by
    intro hc i th th' hget hsuite n th'' hn
    by_cases hi : i = n
    · subst hi
      rw [List.getElem?_set_self (List.getElem?_eq_some_iff.mp hget).1] at hn
      obtain rfl := Option.some.inj hn
      cases hold hc i th hget with
      | inl hmuet => exact .inl (hsuite hmuet)
      | inr hf => exact .inr hf
    · rw [List.getElem?_set_ne hi] at hn
      exact hold hc n th'' hn
  cases c with
  | start task =>
    rw [poolStep, Pool.step] at hp
    split at hp
    · obtain rfl := Option.some.inj hp
      intro n th hth
      dsimp only at hth
      rw [List.getElem?_append] at hth
      split at hth
      · exact hold (fun hc => by cases hc) n th hth
      · have hn : n = s.pool.threads.length := by
          have hlt := (List.getElem?_eq_some_iff.mp hth).1
          simp at hlt
          omega
        subst hn
        rw [Nat.sub_self] at hth
        obtain rfl := Option.some.inj hth
        cases hstart task rfl with
        | inl hmuet => exact .inl (launch_only hmuet _)
        | inr hf => exact .inr hf
    · cases hp
  | settle i y =>
    rw [poolStep, Pool.step] at hp
    split at hp
    · rename_i t q k hget
      split at hp
      · obtain rfl := Option.some.inj hp
        exact hset (fun hc => by cases hc) hget fun hmuet => hmuet _
      · cases hp
    · cases hp
  | resume i =>
    rw [poolStep, Pool.step] at hp
    split at hp
    · rename_i body hget
      obtain rfl := Option.some.inj hp
      exact hset (fun hc => by cases hc) hget fun hmuet => launch_only hmuet _
    · cases hp
  | crash =>
    obtain rfl := Option.some.inj hp
    intro n th hth
    cases hth

theorem recevoir_cases (h : step L d .recevoir s = some t) :
    ∃ r, (arrives d s.relais)[s.lus]? = some r ∧
      ((L.trame r.charge = none ∧ t = { s with lus := s.lus + 1 }) ∨
        ∃ f p, L.trame r.charge = some f ∧
          poolStep (.start (.recevoirSignalAppel f)) s.pool = some p ∧
          t = { s with
            pool := p
            lus := s.lus + 1
            traitements := (s.pool.threads.length, f) :: s.traitements }) := by
  obtain ⟨r, hr, h⟩ := Option.bind_eq_some_iff.mp h
  refine ⟨r, hr, ?_⟩
  cases hf : L.trame r.charge with
  | none =>
    rw [hf] at h
    exact .inl ⟨rfl, (Option.some.inj h).symm⟩
  | some f =>
    rw [hf] at h
    obtain ⟨p, hp, rfl⟩ := Option.map_eq_some_iff.mp h
    exact .inr ⟨f, p, rfl, hp, rfl⟩

theorem appareil_cases {c : CallChoice} (h : step L d (.appareil c) s = some t) :
    parSocket c = false ∧ ∃ p, poolStep c s.pool = some p ∧
      t = { s with pool := p, traitements := garder c s.traitements } := by
  rw [step] at h
  split at h
  · cases h
  · rename_i hc
    obtain ⟨p, hp, rfl⟩ := Option.map_eq_some_iff.mp h
    exact ⟨by simpa using hc, p, hp, rfl⟩

theorem Appels.step (h : s.Appels x) (ht : step L d e s = some t) : t.Appels x := by
  cases e with
  | passerelle i =>
    obtain ⟨r, -, rfl⟩ := Option.map_eq_some_iff.mp ht
    exact h
  | recevoir =>
    obtain ⟨r, -, ⟨-, rfl⟩ | ⟨f, p, -, hp, rfl⟩⟩ := recevoir_cases ht
    · exact h
    · refine appels_poolStep h hp (fun task htask => ?_) fun _ => List.subset_cons_self _ _
      obtain rfl := (Choice.start.inj htask).symm
      by_cases hf : f.kind = .invite ∧ f.callId = x
      · exact .inr ⟨f, List.mem_cons_self, hf⟩
      · exact .inl (recevoirSignalAppel_muet fun hkind hid => hf ⟨hkind, hid⟩)
  | appareil c =>
    obtain ⟨hc, p, hp, rfl⟩ := appareil_cases ht
    refine appels_poolStep h hp (fun task htask => .inl (program_muet fun f hf => ?_)) ?_
    · rw [htask, hf] at hc
      cases hc
    · intro hcrash
      cases c with
      | crash => exact absurd rfl hcrash
      | _ => exact List.Subset.refl _

end Ligne

/-! ### What waits at the gateway and what comes out of it -/

section Relais

variable {L : Lecture} {d : Uuid} {x : CallId} {r r' : Relais} {i : Input}

theorem lire_invite {kind : String} (h : Kind.lire kind = some .invite) : kind = "invite" := by
  unfold Kind.lire at h
  split at h
  · assumption
  · repeat' split at h
    all_goals cases h

theorem enAttente_relais (h : r.step i = some r') {a' : Realtime.Attente}
    (ha' : a' ∈ r'.enAttente) (hx : L.appel a'.invitation.callId = x)
    (hd : d ∈ a'.invitation.cibles) :
    (∃ a ∈ r.enAttente, a.origine = a'.origine ∧ L.appel a.invitation.callId = x ∧
      d ∈ a.invitation.cibles) ∨
      ∃ m, i = .message a'.origine m ∧ L.Signale d x "invite" m := by
  obtain ⟨a, ha, horigine, hcall, hsub⟩ | ⟨m, e, hi, he, hkind, hcall, hcibles⟩ :=
    Relais.enAttente_step h ha'
  · exact .inl ⟨a, ha, horigine, by rw [hcall]; exact hx, hsub hd⟩
  · obtain ⟨cibles, rfl, heq⟩ := Relais.signalDe_eq he
    refine .inr ⟨_, hi, hkind, ?_, ?_⟩
    · rw [← hcall]
      exact hx
    · rw [← heq, ← hcibles]
      exact hd

theorem arrives_relais (d : Uuid) (h : r.step i = some r') :
    ∃ news, arrives d r' = arrives d r ++ news ∧ ∀ n ∈ news,
      (∃ socket m e, i = .message socket m ∧ r.gateway.signalDe socket m = some e ∧
        e.kind ≠ "invite" ∧ n.charge = e.charge) ∨
      ∃ k bloque, i = .verifie k bloque ∧ ∃ a ∈ r.enAttente, d ∈ a.invitation.cibles ∧
        n.charge = a.invitation.charge := by
  obtain ⟨news, hnews, hall⟩ := Relais.relayes_step h
  refine ⟨(news.filter (·.cible = d)).reverse, ?_, fun n hn => ?_⟩
  · rw [arrives, hnews, List.filter_append, List.reverse_append, arrives]
  · obtain ⟨hmem, hcible⟩ := List.mem_filter.mp (List.mem_reverse.mp hn)
    have hd : n.cible = d := by simpa using hcible
    obtain hm | ⟨k, bloque, hi, a, ha, hcharge, hcibles⟩ := hall n hmem
    · exact .inl hm
    · exact .inr ⟨k, bloque, hi, a, ha, hd ▸ hcibles, hcharge⟩

/-- What comes out and makes the call ring has waited. -/
theorem invite_relais {n : Relaye} {f : Frame}
    (hall : (∃ socket m e, i = .message socket m ∧ r.gateway.signalDe socket m = some e ∧
        e.kind ≠ "invite" ∧ n.charge = e.charge) ∨
      ∃ k bloque, i = .verifie k bloque ∧ ∃ a ∈ r.enAttente, d ∈ a.invitation.cibles ∧
        n.charge = a.invitation.charge)
    (hf : L.trame n.charge = some f) (hkind : f.kind = .invite) (hid : f.callId = x) :
    ∃ a ∈ r.enAttente, L.appel a.invitation.callId = x ∧ d ∈ a.invitation.cibles := by
  obtain ⟨socket, m, e, -, -, hne, hcharge⟩ | ⟨k, bloque, -, a, ha, hd, hcharge⟩ := hall
  · rw [hcharge, Realtime.Signal.charge, Lecture.trame] at hf
    obtain ⟨kind, hlire, rfl⟩ := Option.map_eq_some_iff.mp hf
    have hkind' : kind = .invite := hkind
    subst hkind'
    exact absurd (lire_invite hlire) hne
  · rw [hcharge, Realtime.InvitationEnCours.charge, Lecture.trame] at hf
    obtain ⟨kind, -, rfl⟩ := Option.map_eq_some_iff.mp hf
    exact ⟨a, ha, hid, hd⟩

end Relais

namespace Ligne

variable {L : Lecture} {d : Uuid} {x : CallId} {w : Socket} {s t : Ligne} {e : LigneEvent}

/-- Before the hangup: the invitations to the call that wait are of its socket. -/
structure Avant (L : Lecture) (d : Uuid) (w : Socket) (x : CallId) (s : Ligne) : Prop where
  attente : ∀ a ∈ s.relais.enAttente, L.appel a.invitation.callId = x →
    d ∈ a.invitation.cibles → a.origine = w
  appels : s.Appels x
  lus : s.lus ≤ (arrives d s.relais).length

theorem Avant.step (h : Avant L d w x s)
    (he : ∀ v m, e = .passerelle (.message v m) → L.Signale d x "invite" m → v = w)
    (ht : step L d e s = some t) : Avant L d w x t := by
  refine ⟨?_, h.appels.step ht, ?_⟩
  · cases e with
    | passerelle i =>
      obtain ⟨r, hr, rfl⟩ := Option.map_eq_some_iff.mp ht
      intro a' ha' hx hd
      obtain ⟨a, ha, horigine, hax, had⟩ | ⟨m, rfl, hm⟩ := enAttente_relais hr ha' hx hd
      · exact horigine ▸ h.attente a ha hax had
      · exact he _ m rfl hm
    | recevoir =>
      obtain ⟨r, -, ⟨-, rfl⟩ | ⟨f, p, -, -, rfl⟩⟩ := recevoir_cases ht
      · exact h.attente
      · exact h.attente
    | appareil c =>
      obtain ⟨-, p, -, rfl⟩ := appareil_cases ht
      exact h.attente
  · cases e with
    | passerelle i =>
      obtain ⟨r, hr, rfl⟩ := Option.map_eq_some_iff.mp ht
      obtain ⟨news, hnews, -⟩ := arrives_relais d hr
      have hlus := h.lus
      dsimp only
      rw [hnews, List.length_append]
      omega
    | recevoir =>
      obtain ⟨r, hr, hcas⟩ := recevoir_cases ht
      have hlt := (List.getElem?_eq_some_iff.mp hr).1
      obtain ⟨-, rfl⟩ | ⟨f, p, -, -, rfl⟩ := hcas
      · exact hlt
      · exact hlt
    | appareil c =>
      obtain ⟨-, p, -, rfl⟩ := appareil_cases ht
      exact h.lus

/-- From the hangup on, which is the signal `h` of the device: no invitation to the call comes
after it, and once it was taken up the call does not ring. -/
structure Clos (L : Lecture) (d : Uuid) (x : CallId) (h : Nat) (s : Ligne) : Prop where
  attente : ∀ a ∈ s.relais.enAttente, L.appel a.invitation.callId = x →
    d ∉ a.invitation.cibles
  appels : s.Appels x
  raccroche : ∃ r f, (arrives d s.relais)[h]? = some r ∧ L.trame r.charge = some f ∧
    f.kind = .hangup ∧ f.callId = x
  suite : ∀ j r f, h < j → (arrives d s.relais)[j]? = some r → L.trame r.charge = some f →
    f.kind = .invite → f.callId ≠ x
  apres : h < s.lus → Silence x s.pool

theorem Clos.passerelle {h : Nat} (hs : Clos L d x h s) {i : Input} {r : Relais}
    (he : ∀ v m, i = .message v m → ¬ L.Signale d x "invite" m)
    (hr : s.relais.step i = some r) : Clos L d x h { s with relais := r } := by
  obtain ⟨news, hnews, hall⟩ := arrives_relais d hr
  refine ⟨fun a' ha' hx hd => ?_, hs.appels, ?_, fun j n f hj hn hf hkind hid => ?_, hs.apres⟩
  · obtain ⟨a, ha, -, hax, had⟩ | ⟨m, rfl, hm⟩ := enAttente_relais hr ha' hx hd
    · exact hs.attente a ha hax had
    · exact he _ m rfl hm
  · obtain ⟨n, f, hn, hf⟩ := hs.raccroche
    refine ⟨n, f, ?_, hf⟩
    dsimp only
    rw [hnews, List.getElem?_append_left (List.getElem?_eq_some_iff.mp hn).1]
    exact hn
  · dsimp only at hn
    rw [hnews, List.getElem?_append] at hn
    split at hn
    · exact hs.suite j n f hj hn hf hkind hid
    · obtain ⟨a, ha, hax, had⟩ :=
        invite_relais (hall n (List.mem_of_getElem? hn)) hf hkind hid
      exact hs.attente a ha hax had

theorem Clos.recevoir {h : Nat} (hs : Clos L d x h s) (hc : Ordonnee L d .recevoir s)
    (ht : Ligne.step L d .recevoir s = some t) : Clos L d x h t := by
  have happels := hs.appels.step ht
  obtain ⟨r, hr, hcas⟩ := recevoir_cases ht
  obtain ⟨hnone, rfl⟩ | ⟨f, p, hf, hp, rfl⟩ := hcas
  · refine ⟨hs.attente, happels, hs.raccroche, hs.suite, fun hlt => hs.apres ?_⟩
    -- The hangup is one the client can read.
    obtain ⟨r', f, hr', hf, -⟩ := hs.raccroche
    by_contra hge
    have hh : h = s.lus := by
      have hlt' : h < s.lus + 1 := hlt
      omega
    rw [hh, hr] at hr'
    obtain rfl := Option.some.inj hr'
    rw [hnone] at hf
    cases hf
  · refine ⟨hs.attente, happels, hs.raccroche, hs.suite, fun hlt => ?_⟩
    by_cases hh : h = s.lus
    · obtain ⟨r', f', hr', hf', hkind, rfl⟩ := hs.raccroche
      rw [hh, hr] at hr'
      obtain rfl := Option.some.inj hr'
      rw [hf] at hf'
      obtain rfl := Option.some.inj hf'
      refine silence_raccroche (fun th hmem => ?_) hkind hp
      obtain ⟨n, hn⟩ := List.getElem?_of_mem hmem
      cases hs.appels n th hn with
      | inl hmuet => exact hmuet
      | inr hinvite =>
        obtain ⟨g, hg, hgkind, hgid⟩ := hinvite
        have hfini := hc r hr f hf hkind (n, g) hg hgkind hgid
        rw [hn] at hfini
        exact Thread.only_of_estFini hfini
    · have hlt' : h < s.lus + 1 := hlt
      have hsilence := hs.apres (by omega)
      refine hsilence.step (fun g hg hkind => ?_) hp
      obtain rfl := CallTask.recevoirSignalAppel.inj (Choice.start.inj hg)
      exact hs.suite s.lus r f (by omega) hr hf hkind

theorem Clos.step {h : Nat} (hs : Clos L d x h s) (hc : Ordonnee L d e s)
    (he : ∀ v m, e = .passerelle (.message v m) → ¬ L.Signale d x "invite" m)
    (ht : step L d e s = some t) : Clos L d x h t := by
  cases e with
  | passerelle i =>
    obtain ⟨r, hr, rfl⟩ := Option.map_eq_some_iff.mp ht
    exact hs.passerelle (fun v m hi => he v m (congrArg LigneEvent.passerelle hi)) hr
  | recevoir => exact hs.recevoir hc ht
  | appareil c =>
    have happels := hs.appels.step ht
    obtain ⟨hsocket, p, hp, rfl⟩ := appareil_cases ht
    refine ⟨hs.attente, happels, hs.raccroche, hs.suite, fun hlt => ?_⟩
    refine (hs.apres hlt).step (fun f hf => ?_) hp
    rw [hf] at hsocket
    cases hsocket

/-- In the run the last invitation or hangup of the call to the device is a hangup, of the
socket of all the invitations; it was relayed, and the client has taken up all that had reached
the device by then. -/
def Raccroche (L : Lecture) (d : Uuid) (x : CallId) (s₀ : Ligne) (events : List LigneEvent)
    (s : Ligne) : Prop :=
  ∃ es₁ w m es₂ s₁ s₂, events = es₁ ++ .passerelle (.message w m) :: es₂ ∧
    run (Ligne.step L d) es₁ s₀ = some s₁ ∧
    Ligne.step L d (.passerelle (.message w m)) s₁ = some s₂ ∧
    L.Signale d x "hangup" m ∧
    (∀ v m', .passerelle (.message v m') ∈ es₁ → L.Signale d x "invite" m' → v = w) ∧
    (∀ v m', .passerelle (.message v m') ∈ es₂ → ¬ L.Signale d x "invite" m') ∧
    (arrives d s₁.relais).length < (arrives d s₂.relais).length ∧
    (arrives d s₂.relais).length ≤ s.lus

/-- The hangup is relayed while no invitation to the call waits. -/
theorem Avant.clos {m : Message} {s' : Ligne} (h : Avant L d w x s)
    (hc : Ordonnee L d (.passerelle (.message w m)) s) (hm : L.Signale d x "hangup" m)
    (ht : Ligne.step L d (.passerelle (.message w m)) s = some s')
    (hrelaye : (arrives d s.relais).length < (arrives d s'.relais).length) :
    Clos L d x (arrives d s.relais).length s' := by
  have happels := h.appels.step ht
  obtain ⟨r, hr, rfl⟩ := Option.map_eq_some_iff.mp ht
  obtain ⟨news, hnews, hall⟩ := arrives_relais d hr
  dsimp only at hrelaye
  have hlong : 0 < news.length := by
    rw [hnews, List.length_append] at hrelaye
    omega
  obtain ⟨k, callId, payload, cibles, rfl⟩ : ∃ k callId payload cibles,
      m = .callSignal k callId payload cibles := by
    cases m with
    | callSignal k callId payload cibles => exact ⟨k, callId, payload, cibles, rfl⟩
    | _ => exact hm.elim
  -- All that comes out is the hangup.
  have hsignal : ∀ e ∈ s.relais.gateway.signalDe w (.callSignal k callId payload cibles),
      e.kind = "hangup" ∧ L.appel e.callId = x ∧ d ∈ e.cibles := by
    intro e he
    obtain ⟨cibles', heq, hcibles⟩ := Relais.signalDe_eq he
    rw [heq] at hm
    exact ⟨hm.1, hm.2.1, hcibles ▸ hm.2.2⟩
  have hmessage : ∀ n ∈ news, ∃ e ∈ s.relais.gateway.signalDe w
      (.callSignal k callId payload cibles), n.charge = e.charge := by
    intro n hn
    obtain ⟨v, m', e, hi, he, -, hcharge⟩ | ⟨k', bloque, hi, -⟩ := hall n hn
    · obtain ⟨rfl, rfl⟩ := Input.message.inj hi
      exact ⟨e, he, hcharge⟩
    · cases hi
  have hhangup : ∀ n ∈ news, ∃ f, L.trame n.charge = some f ∧ f.kind = .hangup ∧ f.callId = x := by
    intro n hn
    obtain ⟨e, he, hcharge⟩ := hmessage n hn
    obtain ⟨hkind, hid, -⟩ := hsignal e he
    rw [hcharge, Realtime.Signal.charge, Lecture.trame, hkind]
    exact ⟨_, rfl, rfl, hid⟩
  obtain ⟨n₀, hn₀⟩ : ∃ n, n ∈ news := List.exists_mem_of_length_pos hlong
  obtain ⟨e₀, he₀, -⟩ := hmessage n₀ hn₀
  obtain ⟨hkind₀, -, hd₀⟩ := hsignal e₀ he₀
  refine ⟨fun a' ha' hx hd => ?_, happels, ?_, fun j n f hj hn hf hkind => ?_, fun hlt => ?_⟩
  · obtain ⟨a, ha, -, hax, had⟩ | ⟨m', hi, hinvite⟩ := enAttente_relais hr ha' hx hd
    · exact hc e₀ he₀ (by rw [hkind₀]; decide) a ha (h.attente a ha hax had) d hd₀ had
    · obtain ⟨-, rfl⟩ := Input.message.inj hi
      obtain ⟨cibles', heq, -⟩ := Relais.signalDe_eq he₀
      rw [heq] at hinvite
      exact absurd (hinvite.1.symm.trans hkind₀) (by decide)
  · obtain ⟨n, hn⟩ : ∃ n, news[0]? = some n := ⟨news[0], List.getElem?_eq_getElem hlong⟩
    obtain ⟨f, hf⟩ := hhangup n (List.mem_of_getElem? hn)
    refine ⟨n, f, ?_, hf⟩
    dsimp only
    rw [hnews, List.getElem?_append_right (Nat.le_refl _), Nat.sub_self]
    exact hn
  · dsimp only at hn
    rw [hnews, List.getElem?_append_right (Nat.le_of_lt hj)] at hn
    obtain ⟨g, hg, hgkind, -⟩ := hhangup n (List.mem_of_getElem? hn)
    rw [hf] at hg
    obtain rfl := Option.some.inj hg
    rw [hgkind] at hkind
    cases hkind
  · exact absurd hlt (Nat.not_lt.mpr h.lus)

theorem avant_start (L : Lecture) (d : Uuid) (w : Socket) (x : CallId)
    (conversations : List Conversation) (activerMediaAppel : Bool) :
    Avant L d w x (start conversations activerMediaAppel) where
  attente _ h := by cases h
  appels n th h := by cases h
  lus := Nat.le_refl 0

/-- In the runs where no signal is relayed past an invitation of its socket that waits, and the
client takes up no hangup while it is opening an invitation to the same call, the signals of a
socket reach the device in the order of their messages, and a call that was hung up does not
ring. -/
theorem appels_raccroches (L : Lecture) (d : Uuid) (conversations : List Conversation)
    (activerMediaAppel : Bool) {events : List LigneEvent} {s : Ligne}
    (hC : Always (Ligne.step L d) (Ordonnee L d) events (start conversations activerMediaAppel))
    (hrun : run (Ligne.step L d) events (start conversations activerMediaAppel) = some s) :
    s.relais.Ordonnes ∧
      ∀ x, Raccroche L d x (start conversations activerMediaAppel) events s →
        ¬ s.pool.state.Sonne x := by
  constructor
  · have hrang : s.relais.Rang := by
      refine run_invariant_of_always (fun s : Ligne => s.relais.Rang) ?_ Relais.rang_start hC hrun
      intro e s t hs hc ht
      cases e with
      | passerelle i =>
        obtain ⟨r, hr, rfl⟩ := Option.map_eq_some_iff.mp ht
        exact hs.step hc hr
      | recevoir =>
        obtain ⟨r, -, ⟨-, rfl⟩ | ⟨f, p, -, -, rfl⟩⟩ := recevoir_cases ht
        · exact hs
        · exact hs
      | appareil c =>
        obtain ⟨-, p, -, rfl⟩ := appareil_cases ht
        exact hs
    exact hrang.ordonnes
  · intro x hx
    obtain ⟨es₁, w, m, es₂, s₁, s₂, rfl, h₁, hstep, hm, havant, hapres, hrelaye, hlus⟩ := hx
    obtain ⟨hC₁, hC₂⟩ := Always.append_iff.mp hC
    obtain ⟨hc, hC₃⟩ := hC₂ s₁ h₁
    rw [run_append, h₁, Option.bind_some, run_cons, hstep, Option.bind_some] at hrun
    have hinvites₁ : ∀ e ∈ es₁, ∀ v m', e = .passerelle (.message v m') →
        L.Signale d x "invite" m' → v = w := fun e he v m' heq => havant v m' (heq ▸ he)
    have hinvites₂ : ∀ e ∈ es₂, ∀ v m', e = .passerelle (.message v m') →
        ¬ L.Signale d x "invite" m' := fun e he v m' heq => hapres v m' (heq ▸ he)
    have hs₁ : Avant L d w x s₁ :=
      run_invariant_of_always (Avant L d w x) (fun e s t hs hc ht => hs.step hc ht)
        (avant_start L d w x conversations activerMediaAppel) (always_of_mem hinvites₁ _) h₁
    have hs₂ := hs₁.clos hc hm hstep hrelaye
    have hs : Clos L d x (arrives d s₁.relais).length s :=
      run_invariant_of_always (Clos L d x (arrives d s₁.relais).length)
        (fun e s t hs hc ht => hs.step hc.1 hc.2 ht) hs₂
        ((hC₃ s₂ hstep).and (always_of_mem hinvites₂ _)) hrun
    exact (hs.apres (by omega)).libre

/-! ## Two calls -/

/-- A client that has a session with device 10, and the gateway with sockets 1 of that device and
2 of the client's own. -/
def lectureSimple : Lecture := ⟨fun u => u, String.length, fun _ _ => true⟩

def repondeur : List Conversation := [⟨0, "alice", false, false, [10], []⟩]

def branches : List LigneEvent :=
  [.passerelle (.connexion 1 (some ⟨10, 100⟩)), .passerelle (.connexion 2 (some ⟨20, 200⟩))]

def invite : LigneEvent :=
  .passerelle (.message 1 (.callSignal (some "invite") (some "a") (some []) (some [some 20])))

def raccroche : LigneEvent :=
  .passerelle (.message 1 (.callSignal (some "hangup") (some "a") (some []) (some [some 20])))

/-- The client opens the invitation that its thread `i` handles. -/
def ouvre (i : Nat) : List LigneEvent :=
  [.appareil (.settle i (.data .vide)), .appareil (.resume i)]

/-- The call rings before it is hung up. -/
def appelOrdinaire : List LigneEvent :=
  branches ++ [invite, .passerelle (.verifie 0 false), .recevoir] ++ ouvre 0

def appelRaccroche : List LigneEvent := appelOrdinaire ++ raccroche :: [.recevoir]

/-- The hangup is relayed before the invitation has been checked. -/
def appelDepasse : List LigneEvent :=
  (branches ++ [invite]) ++ raccroche ::
    ([.passerelle (.verifie 0 false), .recevoir, .recevoir] ++ ouvre 1)

/-- The hangup is taken up before the invitation has been opened. -/
def appelRattrape : List LigneEvent :=
  (branches ++ [invite, .passerelle (.verifie 0 false), .recevoir]) ++ raccroche ::
    (.recevoir :: ouvre 0)

/-- A test of the state that a run ends in. -/
theorem exists_of_any (events : List LigneEvent) (s₀ : Ligne) (p : Ligne → Bool)
    (h : (run (step lectureSimple 20) events s₀).any p = true) :
    ∃ s, run (step lectureSimple 20) events s₀ = some s ∧ p s = true :=
  (Option.any_eq_true _ _).mp h

theorem raccroche_simple {es₁ es₂ : List LigneEvent} {s : Ligne} {n : Nat}
    (havant : ∀ v m, LigneEvent.passerelle (.message v m) ∈ es₁ → v = 1 ∨
      ¬ lectureSimple.Signale 20 1 "invite" m)
    (hapres : ∀ v m, LigneEvent.passerelle (.message v m) ∉ es₂)
    (h₁ : (run (step lectureSimple 20) es₁ (start repondeur false)).any
      (fun s => decide ((arrives 20 s.relais).length = n)) = true)
    (h₂ : (run (step lectureSimple 20) (es₁ ++ [raccroche]) (start repondeur false)).any
      (fun s => decide ((arrives 20 s.relais).length = n + 1)) = true) (hlus : n < s.lus) :
    Raccroche lectureSimple 20 1 (start repondeur false) (es₁ ++ raccroche :: es₂) s := by
  have hsignale : lectureSimple.Signale 20 1 "hangup"
      (.callSignal (some "hangup") (some "a") (some []) (some [some 20])) :=
    ⟨rfl, rfl, by decide⟩
  obtain ⟨s₁, hs₁, hl₁⟩ := exists_of_any _ _ _ h₁
  obtain ⟨s₂, hs₂, hl₂⟩ := exists_of_any _ _ _ h₂
  have hl₁' := of_decide_eq_true hl₁
  have hl₂' := of_decide_eq_true hl₂
  rw [run_append, hs₁, Option.bind_some, run_cons, Option.bind_eq_some_iff] at hs₂
  obtain ⟨t, ht, hs₂⟩ := hs₂
  obtain rfl := Option.some.inj hs₂
  exact ⟨es₁, 1, _, es₂, s₁, t, rfl, hs₁, ht, hsignale,
    fun v m hmem hinvite => (havant v m hmem).resolve_right fun h => h hinvite,
    fun v m hmem => absurd hmem (hapres v m), by omega, by omega⟩

theorem appelOrdinaire_raccroche :
    ∃ s, run (step lectureSimple 20) appelRaccroche (start repondeur false) = some s ∧
      s.relais.Ordonnes ∧ ¬ s.pool.state.Sonne 1 := by
  obtain ⟨s, hs, hlus⟩ := exists_of_any appelRaccroche (start repondeur false)
    (fun s => decide (1 < s.lus)) (by decide +kernel)
  have hC : Always (step lectureSimple 20) (Ordonnee lectureSimple 20) appelRaccroche
      (start repondeur false) := by decide +kernel
  have hraccroche : Raccroche lectureSimple 20 1 (start repondeur false) appelRaccroche s := by
    refine raccroche_simple (fun v m h => .inl ?_) (fun v m h => ?_) (by decide +kernel)
      (by decide +kernel) (of_decide_eq_true hlus)
    · simp [appelOrdinaire, branches, invite, ouvre] at h
      exact h.1
    · simp at h
  obtain ⟨hordonnes, hsilence⟩ := appels_raccroches lectureSimple 20 repondeur false hC hs
  exact ⟨s, hs, hordonnes, hsilence 1 hraccroche⟩

/-- All that reached the client is taken up, and no body runs any more. -/
def Traite (s : Ligne) : Prop :=
  s.lus = (arrives 20 s.relais).length ∧ s.pool.threads.all (·.estFini) = true

instance (s : Ligne) : Decidable s.Traite :=
  inferInstanceAs (Decidable (s.lus = (arrives 20 s.relais).length ∧
    s.pool.threads.all (·.estFini) = true))

/-- A call rings for good when the gateway relays its hangup before its invitation, and also
when they reach the client in order and the hangup finds the invitation unopened. -/
theorem appels_rompus :
    (∃ s, run (step lectureSimple 20) appelDepasse (start repondeur false) = some s ∧
      Raccroche lectureSimple 20 1 (start repondeur false) appelDepasse s ∧ s.Traite ∧
        ¬ s.relais.Ordonnes ∧ s.pool.state.Sonne 1) ∧
    ∃ s, run (step lectureSimple 20) appelRattrape (start repondeur false) = some s ∧
      Raccroche lectureSimple 20 1 (start repondeur false) appelRattrape s ∧ s.Traite ∧
        s.relais.Ordonnes ∧ s.pool.state.Sonne 1 := by
  constructor
  · obtain ⟨s, hs, h⟩ := exists_of_any appelDepasse (start repondeur false)
      (fun s => decide ((0 < s.lus ∧ s.Traite) ∧ ¬ s.relais.Ordonnes ∧ s.pool.state.Sonne 1))
      (by decide +kernel)
    obtain ⟨⟨hlus, htraite⟩, h⟩ := of_decide_eq_true h
    refine ⟨s, hs, raccroche_simple (fun v m hmem => .inl ?_) (fun v m hmem => ?_)
      (by decide +kernel) (by decide +kernel) hlus, htraite, h⟩
    · simp [branches, invite] at hmem
      exact hmem.1
    · simp [ouvre] at hmem
  · obtain ⟨s, hs, h⟩ := exists_of_any appelRattrape (start repondeur false)
      (fun s => decide ((1 < s.lus ∧ s.Traite) ∧ s.relais.Ordonnes ∧ s.pool.state.Sonne 1))
      (by decide +kernel)
    obtain ⟨⟨hlus, htraite⟩, h⟩ := of_decide_eq_true h
    refine ⟨s, hs, raccroche_simple (fun v m hmem => .inl ?_) (fun v m hmem => ?_)
      (by decide +kernel) (by decide +kernel) hlus, htraite, h⟩
    · simp [branches, invite] at hmem
      exact hmem.1
    · simp [ouvre] at hmem

end Ligne

end ZiaCrypte.Calls
