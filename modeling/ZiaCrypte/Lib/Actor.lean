import ZiaCrypte.Lib.Run
import Mathlib.Data.List.Basic

/-!
# One worker behind two queues

A caller numbers its calls, keeps an open promise for each, and sends them to a
worker through a first-in first-out queue. The worker takes them one at a time
and answers through a second such queue. After the answer to a call that
`hangsUp`, the caller closes its end and the worker may be stopped.

`Object` is what the caller is meant to see: a value that carries out each call
at the moment it is made. When the worker simulates it, the promises are kept in
the order of the calls, with the answers of the object, whatever the queues do.
-/
namespace ZiaCrypte.Lib

/-- The calls of the caller are `O`, the answers `R`, and `W` is the state of the worker. -/
structure Actor (O R W : Type) where
  nextId : Nat
  pending : List (O × Nat)
  commands : List (O × Nat)
  worker : W
  running : Bool
  responses : List (R × Nat)
  listening : Bool
  /-- The promises kept so far, in that order. -/
  completed : List (R × Nat)

inductive MailEvent (O : Type) where
  | call (o : O)
  | serve
  | deliver
  | stop

namespace Actor

variable {O R W T : Type}

/-- A worker that is up, with nothing asked yet. -/
def start (w : W) : Actor O R W where
  nextId := 0
  pending := []
  commands := []
  worker := w
  running := true
  responses := []
  listening := true
  completed := []

def call (o : O) (m : Actor O R W) : Actor O R W :=
  { m with
    nextId := m.nextId + 1
    pending := m.pending ++ [(o, m.nextId)]
    commands := m.commands ++ [(o, m.nextId)] }

/-- The worker takes the oldest command; `none` when that brings the process down. -/
def serve (work : O → W → Option (R × W)) (m : Actor O R W) : Option (Actor O R W) :=
  match m.running, m.commands with
  | true, (o, id) :: rest => do
      let r ← work o m.worker
      pure { m with commands := rest, worker := r.2, responses := m.responses ++ [(r.1, id)] }
  | _, _ => some m

/-- The oldest answer reaches the caller, who may have closed its end. -/
def deliver (hangsUp : O → R → Bool) (m : Actor O R W) : Actor O R W :=
  match m.listening, m.responses with
  | true, (r, id) :: rest =>
      match m.pending.find? (·.2 == id) with
      | none => { m with responses := rest }
      | some (o, _) =>
          { m with
            responses := rest
            pending := m.pending.filter (·.2 != id)
            completed := m.completed ++ [(r, id)]
            listening := !hangsUp o r }
  | _, _ => m

/-- A caller that has closed its end has also asked for the worker to be stopped. -/
def stop (m : Actor O R W) : Actor O R W :=
  if m.listening then m else { m with running := false }

def step (work : O → W → Option (R × W)) (hangsUp : O → R → Bool) :
    MailEvent O → Actor O R W → Option (Actor O R W)
  | .call o, m => some (m.call o)
  | .serve, m => m.serve work
  | .deliver, m => some (m.deliver hangsUp)
  | .stop, m => some m.stop

end Actor

/-- The calls among the events, in order. -/
def callsOf {O : Type} : List (MailEvent O) → List O
  | [] => []
  | .call o :: es => o :: callsOf es
  | .serve :: es => callsOf es
  | .deliver :: es => callsOf es
  | .stop :: es => callsOf es

theorem callsOf_append {O : Type} (es fs : List (MailEvent O)) :
    callsOf (es ++ fs) = callsOf es ++ callsOf fs := by
  induction es with
  | nil => rfl
  | cons e es ih => cases e <;> simp [callsOf, ih]

/-! ## The object behind the queues -/

section Object

variable {O R T : Type} (object : O → T → R × T) (hangsUp : O → R → Bool)

/-- The answers of the object to a list of calls. -/
def answers : List O → T → List R
  | [], _ => []
  | o :: os, t => (object o t).1 :: answers os (object o t).2

/-- The object after a list of calls. -/
def after : List O → T → T
  | [], t => t
  | o :: os, t => after os (object o t).2

/-- No call of the list hangs up. -/
def quiet : List O → T → Bool
  | [], _ => true
  | o :: os, t => !hangsUp o (object o t).1 && quiet os (object o t).2

/-- The answers up to that of the first call that hangs up, which is the last. -/
def answered : List O → T → List R
  | [], _ => []
  | o :: os, t =>
      let r := object o t
      r.1 :: if hangsUp o r.1 then [] else answered os r.2

variable {object hangsUp}

@[simp] theorem answers_nil (t : T) : answers object [] t = [] := rfl
@[simp] theorem after_nil (t : T) : after object [] t = t := rfl

theorem answers_append (os ps : List O) (t : T) :
    answers object (os ++ ps) t = answers object os t ++ answers object ps (after object os t) := by
  induction os generalizing t with
  | nil => rfl
  | cons o os ih => simp only [List.cons_append, answers, after, ih]

theorem after_append (os ps : List O) (t : T) :
    after object (os ++ ps) t = after object ps (after object os t) := by
  induction os generalizing t with
  | nil => rfl
  | cons o os ih => simp only [List.cons_append, after, ih]

@[simp] theorem length_answers (os : List O) (t : T) : (answers object os t).length = os.length := by
  induction os generalizing t with
  | nil => rfl
  | cons o os ih => simp only [answers, List.length_cons, ih]

theorem quiet_append (os ps : List O) (t : T) : quiet object hangsUp (os ++ ps) t =
    (quiet object hangsUp os t && quiet object hangsUp ps (after object os t)) := by
  induction os generalizing t with
  | nil => rfl
  | cons o os ih => simp only [List.cons_append, quiet, after, ih, Bool.and_assoc]

theorem answered_append {os : List O} {t : T} (h : quiet object hangsUp os t = true)
    (ps : List O) : answered object hangsUp (os ++ ps) t =
      answers object os t ++ answered object hangsUp ps (after object os t) := by
  induction os generalizing t with
  | nil => rfl
  | cons o os ih =>
    simp only [quiet, Bool.and_eq_true, Bool.not_eq_true'] at h
    simp only [List.cons_append, answered, answers, after, h.1, Bool.false_eq_true, if_false,
      ih h.2]

end Object

/-! ## A worker that simulates the object -/

section Refinement

variable {O R W T : Type} (work : O → W → Option (R × W)) (object : O → T → R × T)
  (hangsUp : O → R → Bool) (Sim : W → T → Prop)

/-- A call the worker survives gives the answer of the object, and leaves the two alike. -/
def Simulates : Prop := ∀ o w t r w', Sim w t → work o w = some (r, w') →
  (object o t).1 = r ∧ Sim w' (object o t).2

/-- The worker has served the calls of `served`, and those of `queued` lie before it. -/
structure Serving (t : T) (served queued : List O) (m : Actor O R W) : Prop where
  nextId : m.nextId = served.length + queued.length
  commands : m.commands = queued.zipIdx served.length
  worker : Sim m.worker (after object served t)

/-- The promises of `done` are kept, and the answers to `replied` are on their way. -/
structure Listening (t : T) (done replied queued : List O) (m : Actor O R W) : Prop where
  listening : m.listening = true
  running : m.running = true
  pending : m.pending = (replied ++ queued).zipIdx done.length
  responses : m.responses = (answers object replied (after object done t)).zipIdx done.length
  completed : m.completed = (answers object done t).zipIdx
  quiet : quiet object hangsUp done t = true

/-- The call `last` has hung up, and the promises kept end with its own. -/
structure HungUp (t : T) (done : List O) (last : O) (m : Actor O R W) : Prop where
  closed : m.listening = false
  completed : m.completed = (answers object (done ++ [last]) t).zipIdx
  quiet : quiet object hangsUp done t = true
  hangsUp : hangsUp last (object last (after object done t)).1 = true

/-- Where an actor stands after the calls of `calls`. -/
inductive Tracks (t : T) (calls : List O) (m : Actor O R W) : Prop where
  | listening (done replied queued : List O) (split : calls = done ++ replied ++ queued)
      (serving : Serving object Sim t (done ++ replied) queued m)
      (state : Listening object hangsUp t done replied queued m)
  | hungUp (served queued done rest : List O) (last : O) (split : calls = served ++ queued)
      (serving : Serving object Sim t served queued m) (hung : calls = done ++ last :: rest)
      (state : HungUp object hangsUp t done last m)

variable {work object hangsUp Sim} {t : T} {calls served queued : List O} {m n : Actor O R W}

theorem tracks_start {w : W} (h : Sim w t) :
    Tracks object hangsUp Sim t [] (Actor.start w) :=
  .listening [] [] [] rfl ⟨rfl, rfl, h⟩
    ⟨rfl, rfl, rfl, rfl, rfl, rfl⟩

/-- One more command is queued, whether or not anyone will take it. -/
theorem Serving.call (h : Serving object Sim t served queued m) (o : O) :
    Serving object Sim t served (queued ++ [o]) (m.call o) where
  nextId := by simp [Actor.call, h.nextId, Nat.add_assoc]
  commands := by simp [Actor.call, h.commands, h.nextId, List.zipIdx_append]
  worker := h.worker

theorem Tracks.call (h : Tracks object hangsUp Sim t calls m) (o : O) :
    Tracks object hangsUp Sim t (calls ++ [o]) (m.call o) := by
  cases h with
  | listening done replied queued split serving state =>
    refine .listening done replied (queued ++ [o]) (by simp [split]) (serving.call o) ?_
    refine ⟨state.listening, state.running, ?_, state.responses, state.completed, state.quiet⟩
    have hid : m.nextId = (replied ++ queued).length + done.length := by
      rw [serving.nextId, List.length_append, List.length_append]
      omega
    simp [Actor.call, state.pending, hid, ← List.append_assoc, List.zipIdx_append,
      Nat.add_comm]
  | hungUp served queued done rest last split serving hung state =>
    refine .hungUp served (queued ++ [o]) done (rest ++ [o]) last
      (by rw [split, List.append_assoc]) (serving.call o)
      (by rw [hung, List.append_assoc, List.cons_append])
      ⟨state.closed, state.completed, state.quiet, state.hangsUp⟩

/-- What taking the oldest command does, when there is one and the worker is up. -/
theorem serve_cases (h : Serving object Sim t served queued m) (hserve : m.serve work = some n) :
    n = m ∨ ∃ o rest r w, queued = o :: rest ∧ work o m.worker = some (r, w) ∧
      n = { m with
        commands := rest.zipIdx (served.length + 1)
        worker := w
        responses := m.responses ++ [(r, served.length)] } := by
  have hcommands := h.commands
  unfold Actor.serve at hserve
  split at hserve
  · rename_i o id rest _ hm
    rw [hm] at hcommands
    cases queued with
    | nil => cases hcommands
    | cons o' rest' =>
      rw [List.zipIdx_cons] at hcommands
      obtain ⟨⟨rfl, rfl⟩, rfl⟩ := by simpa using hcommands
      simp only [Option.bind_eq_bind, Option.bind_eq_some_iff] at hserve
      obtain ⟨⟨r, w⟩, hwork, hn⟩ := hserve
      exact .inr ⟨o, rest', r, w, rfl, hwork, (Option.some.inj hn).symm⟩
  · exact .inl (Option.some.inj hserve).symm

theorem Serving.serve (hsim : Simulates work object Sim) {o : O} {rest : List O} {r : R} {w : W}
    (h : Serving object Sim t served (o :: rest) m) (hwork : work o m.worker = some (r, w))
    (hcommands : n.commands = rest.zipIdx (served.length + 1)) (hworker : n.worker = w)
    (hid : n.nextId = m.nextId) : Serving object Sim t (served ++ [o]) rest n := by
  obtain ⟨-, hsim⟩ := hsim o m.worker _ r w h.worker hwork
  constructor
  · rw [hid, h.nextId]
    simp only [List.length_append, List.length_cons, List.length_nil]
    omega
  · simpa using hcommands
  · rw [after_append, hworker]
    exact hsim

/-- The same at a caller who listens: the answer is on its way. -/
theorem Listening.serve (hsim : Simulates work object Sim) {done replied rest : List O} {o : O}
    {r : R} {w : W} (serving : Serving object Sim t (done ++ replied) (o :: rest) m)
    (state : Listening object hangsUp t done replied (o :: rest) m)
    (hwork : work o m.worker = some (r, w)) :
    Listening object hangsUp t done (replied ++ [o]) rest { m with
      commands := rest.zipIdx ((done ++ replied).length + 1)
      worker := w
      responses := m.responses ++ [(r, (done ++ replied).length)] } := by
  have hanswer := (hsim o m.worker _ r w serving.worker hwork).1
  rw [after_append] at hanswer
  refine ⟨state.listening, state.running, ?_, ?_, state.completed, state.quiet⟩
  · simpa using state.pending
  · simp [state.responses, answers_append, answers, hanswer, List.zipIdx_append]

theorem Tracks.serve (hsim : Simulates work object Sim) (h : Tracks object hangsUp Sim t calls m)
    (hserve : m.serve work = some n) : Tracks object hangsUp Sim t calls n := by
  cases h with
  | listening done replied queued split serving state =>
    obtain rfl | ⟨o, rest, r, w, rfl, hwork, rfl⟩ := serve_cases serving hserve
    · exact .listening done replied queued split serving state
    · refine .listening done (replied ++ [o]) rest (by simp [split]) ?_
        (Listening.serve hsim serving state hwork)
      rw [← List.append_assoc]
      exact serving.serve hsim hwork rfl rfl rfl
  | hungUp served queued done rest last split serving hung state =>
    obtain rfl | ⟨o, left, r, w, rfl, hwork, rfl⟩ := serve_cases serving hserve
    · exact .hungUp served queued done rest last split serving hung state
    · exact .hungUp (served ++ [o]) left done rest last (by rw [split, List.append_assoc]; rfl)
        (serving.serve hsim hwork rfl rfl rfl) hung
        ⟨state.closed, state.completed, state.quiet, state.hangsUp⟩

/-- Only the entry of the number looked for is taken out. -/
theorem filter_zipIdx_succ (l : List O) (i : Nat) :
    (l.zipIdx (i + 1)).filter (·.2 != i) = l.zipIdx (i + 1) := by
  refine List.filter_eq_self.mpr fun e he => ?_
  have hle := List.le_snd_of_mem_zipIdx he
  simp only [bne_iff_ne]
  omega

/-- What the answer to the oldest call does at the caller. -/
theorem deliver_cons {done rest queued : List O} {o : O}
    (h : Listening object hangsUp t done (o :: rest) queued m) :
    let r := (object o (after object done t)).1
    m.deliver hangsUp = { m with
      responses := (answers object rest (after object (done ++ [o]) t)).zipIdx (done.length + 1)
      pending := (rest ++ queued).zipIdx (done.length + 1)
      completed := (answers object (done ++ [o]) t).zipIdx
      listening := !hangsUp o r } := by
  have hpending : m.pending = (o, done.length) :: (rest ++ queued).zipIdx (done.length + 1) := by
    rw [h.pending, List.cons_append, List.zipIdx_cons]
  have hresponses := h.responses
  rw [answers, List.zipIdx_cons] at hresponses
  have hcompleted : (answers object (done ++ [o]) t).zipIdx =
      m.completed ++ [((object o (after object done t)).1, done.length)] := by
    rw [answers_append, List.zipIdx_append, h.completed, length_answers, Nat.zero_add]
    rfl
  have hkept : ((o, done.length) :: (rest ++ queued).zipIdx (done.length + 1)).filter
      (·.2 != done.length) = (rest ++ queued).zipIdx (done.length + 1) := by
    rw [List.filter_cons_of_neg (by simp), filter_zipIdx_succ]
  unfold Actor.deliver
  rw [h.listening, hresponses, hpending]
  simp only [List.find?_cons, beq_self_eq_true, hkept, hcompleted, after_append]
  rfl

/-- The answer keeps one promise, and may be the last the caller looks at. -/
theorem deliver_cases {done rest queued : List O} {o : O}
    (serving : Serving object Sim t (done ++ o :: rest) queued m)
    (state : Listening object hangsUp t done (o :: rest) queued m) :
    Serving object Sim t (done ++ [o] ++ rest) queued (m.deliver hangsUp) ∧
      (Listening object hangsUp t (done ++ [o]) rest queued (m.deliver hangsUp) ∨
        HungUp object hangsUp t done o (m.deliver hangsUp)) := by
  have hserving : Serving object Sim t (done ++ [o] ++ rest) queued m := by
    simpa using serving
  rw [deliver_cons state]
  refine ⟨⟨hserving.nextId, hserving.commands, hserving.worker⟩, ?_⟩
  cases hhang : hangsUp o (object o (after object done t)).1 with
  | false =>
    refine .inl ⟨rfl, state.running, by simp, by simp, rfl, ?_⟩
    simp [quiet_append, state.quiet, quiet, hhang]
  | true => exact .inr ⟨rfl, rfl, state.quiet, hhang⟩

theorem Tracks.deliver (h : Tracks object hangsUp Sim t calls m) :
    Tracks object hangsUp Sim t calls (m.deliver hangsUp) := by
  cases h with
  | listening done replied queued split serving state =>
    cases replied with
    | nil =>
      have hm : m.deliver hangsUp = m := by
        unfold Actor.deliver
        rw [state.listening, state.responses]
        rfl
      rw [hm]
      exact .listening done [] queued split serving state
    | cons o rest =>
      obtain ⟨hserving, hopen | hhung⟩ := deliver_cases serving state
      · exact .listening (done ++ [o]) rest queued (by simp [split]) hserving hopen
      · exact .hungUp _ queued done (rest ++ queued) o (by simpa using split) hserving
          (by simp [split]) hhung
  | hungUp served queued done rest last split serving hung state =>
    have hm : m.deliver hangsUp = m := by
      unfold Actor.deliver
      rw [state.closed]
    rw [hm]
    exact .hungUp served queued done rest last split serving hung state

theorem Tracks.stop (h : Tracks object hangsUp Sim t calls m) :
    Tracks object hangsUp Sim t calls m.stop := by
  cases h with
  | listening done replied queued split serving state =>
    rw [Actor.stop, if_pos state.listening]
    exact .listening done replied queued split serving state
  | hungUp served queued done rest last split serving hung state =>
    have hm : m.stop = { m with running := false } := by
      rw [Actor.stop, state.closed]
      rfl
    rw [hm]
    exact .hungUp served queued done rest last split
      ⟨serving.nextId, serving.commands, serving.worker⟩ hung
      ⟨state.closed, state.completed, state.quiet, state.hangsUp⟩

theorem Tracks.step (hsim : Simulates work object Sim) {e : MailEvent O}
    (h : Tracks object hangsUp Sim t calls m) (hstep : Actor.step work hangsUp e m = some n) :
    Tracks object hangsUp Sim t (calls ++ callsOf [e]) n := by
  cases e with
  | call o =>
    obtain rfl := Option.some.inj hstep
    exact h.call o
  | serve =>
    rw [callsOf, callsOf, List.append_nil]
    exact h.serve hsim hstep
  | deliver =>
    obtain rfl := Option.some.inj hstep
    rw [callsOf, callsOf, List.append_nil]
    exact h.deliver
  | stop =>
    obtain rfl := Option.some.inj hstep
    rw [callsOf, callsOf, List.append_nil]
    exact h.stop

/-- A run of the two queues is tracked by the calls made in it. -/
theorem Tracks.run (hsim : Simulates work object Sim) {es : List (MailEvent O)}
    (h : Tracks object hangsUp Sim t calls m)
    (hrun : Lib.run (Actor.step work hangsUp) es m = some n) :
    Tracks object hangsUp Sim t (calls ++ callsOf es) n := by
  induction es generalizing calls m with
  | nil =>
    obtain rfl := Option.some.inj hrun
    rwa [callsOf, List.append_nil]
  | cons e es ih =>
    rw [run_cons, Option.bind_eq_some_iff] at hrun
    obtain ⟨u, hu, hrest⟩ := hrun
    have hcalls : callsOf (e :: es) = callsOf [e] ++ callsOf es := callsOf_append [e] es
    rw [hcalls, ← List.append_assoc]
    exact ih (h.step hsim hu) hrest

/-! ## What the caller sees -/

theorem answered_hungUp {done rest : List O} {last : O}
    (hquiet : quiet object hangsUp done t = true)
    (hhang : hangsUp last (object last (after object done t)).1 = true) :
    answered object hangsUp (done ++ last :: rest) t = answers object (done ++ [last]) t := by
  rw [answered_append hquiet, answers_append]
  simp [answered, answers, hhang]

/-- The promises kept are those of the first calls, each kept once with the answer of the
object; a caller that has closed its end has seen all there is to see. -/
theorem Tracks.completed (h : Tracks object hangsUp Sim t calls m) :
    m.completed <+: (answered object hangsUp calls t).zipIdx ∧
      (m.listening = false → m.completed = (answered object hangsUp calls t).zipIdx) := by
  cases h with
  | listening done replied queued split serving state =>
    refine ⟨?_, fun hclosed => absurd (state.listening.symm.trans hclosed) (by decide)⟩
    rw [split, List.append_assoc, answered_append state.quiet, List.zipIdx_append,
      state.completed]
    exact List.prefix_append _ _
  | hungUp served queued done rest last split serving hung state =>
    have hall := state.completed
    rw [← answered_hungUp state.quiet state.hangsUp, ← hung] at hall
    exact ⟨hall ▸ List.prefix_rfl, fun _ => hall⟩

/-! ## That the answers come -/

/-- While nothing has hung up the worker survives every call. -/
structure Survives (work : O → W → Option (R × W)) (object : O → T → R × T)
    (hangsUp : O → R → Bool) (Sim : W → T → Prop) (good : T → Prop) : Prop where
  work : ∀ o w t, Sim w t → good t → (work o w).isSome
  keeps : ∀ o t, good t → hangsUp o (object o t).1 = false → good (object o t).2

variable {good : T → Prop}

theorem good_after (hgood : Survives work object hangsUp Sim good) {os : List O}
    (ht : good t) (hquiet : quiet object hangsUp os t = true) : good (after object os t) := by
  induction os generalizing t with
  | nil => exact ht
  | cons o os ih =>
    simp only [quiet, Bool.and_eq_true, Bool.not_eq_true'] at hquiet
    exact ih (hgood.keeps o t ht hquiet.1) hquiet.2

theorem serve_isSome (hgood : Survives work object hangsUp Sim good) (ht : good t)
    (h : Serving object Sim t served queued m)
    (hquiet : queued ≠ [] → quiet object hangsUp served t = true) : (m.serve work).isSome := by
  unfold Actor.serve
  split
  · rename_i o id rest _ hm
    have hne : queued ≠ [] := by
      rintro rfl
      rw [h.commands] at hm
      cases hm
    have hsome := hgood.work o m.worker _ h.worker (good_after hgood ht (hquiet hne))
    obtain ⟨r, hr⟩ := Option.isSome_iff_exists.mp hsome
    rw [hr]
    rfl
  · rfl

/-- When no call is made after one that hangs up, the run never fails. -/
theorem run_isSome (hsim : Simulates work object Sim)
    (hgood : Survives work object hangsUp Sim good) (ht : good t)
    (h : Tracks object hangsUp Sim t calls m) {es : List (MailEvent O)}
    (hlast : quiet object hangsUp (calls ++ callsOf es).dropLast t = true) :
    (Lib.run (Actor.step work hangsUp) es m).isSome := by
  induction es generalizing calls m with
  | nil => rfl
  | cons e es ih =>
    have hcalls : callsOf (e :: es) = callsOf [e] ++ callsOf es := callsOf_append [e] es
    rw [hcalls, ← List.append_assoc] at hlast
    have hstep : (Actor.step work hangsUp e m).isSome := by
      cases e with
      | serve =>
        rw [callsOf, callsOf, List.append_nil] at hlast
        have hsome : ∀ served queued : List O, calls = served ++ queued →
            Serving object Sim t served queued m → (m.serve work).isSome := by
          intro served queued hsplit hserving
          refine serve_isSome hgood ht hserving fun hne => ?_
          have hlist : (calls ++ callsOf es).dropLast =
              served ++ (queued ++ callsOf es).dropLast := by
            rw [hsplit, List.append_assoc, List.dropLast_append_of_ne_nil]
            exact fun hnil => hne (List.append_eq_nil_iff.mp hnil).1
          rw [hlist, quiet_append, Bool.and_eq_true] at hlast
          exact hlast.1
        cases h with
        | listening done replied queued split serving state => exact hsome _ _ split serving
        | hungUp served queued done rest last split serving hung state => exact hsome _ _ split serving
      | _ => rfl
    obtain ⟨n, hn⟩ := Option.isSome_iff_exists.mp hstep
    rw [run_cons, hn]
    exact ih (h.step hsim hn) hlast

/-- The events at the worker and at the caller that need no new call. -/
def MailEvent.isQueue : MailEvent O → Bool
  | .serve | .deliver => true
  | _ => false

/-- The promises of `calls` can be kept by moving the queues alone. -/
def Completes (work : O → W → Option (R × W)) (object : O → T → R × T) (hangsUp : O → R → Bool)
    (t : T) (calls : List O) (m : Actor O R W) : Prop :=
  ∃ es n, es.all MailEvent.isQueue = true ∧ Lib.run (Actor.step work hangsUp) es m = some n ∧
    n.completed = (answered object hangsUp calls t).zipIdx

theorem Completes.of_step {e : MailEvent O} (he : e.isQueue = true)
    (hstep : Actor.step work hangsUp e m = some n)
    (h : Completes work object hangsUp t calls n) : Completes work object hangsUp t calls m := by
  obtain ⟨es, n', hes, hrun, hall⟩ := h
  refine ⟨e :: es, n', by simp [he, hes], ?_, hall⟩
  rw [run_cons, hstep]
  exact hrun

/-- Once the queues move, every promise that can be kept is kept. -/
theorem Tracks.completes (hsim : Simulates work object Sim)
    (hgood : Survives work object hangsUp Sim good) (ht : good t)
    (h : Tracks object hangsUp Sim t calls m) : Completes work object hangsUp t calls m := by
  cases h with
  | hungUp served queued done rest last split serving hung state =>
    have hall := (Tracks.hungUp served queued done rest last split serving hung state).completed.2 state.closed
    exact ⟨[], m, rfl, rfl, hall⟩
  | listening done replied queued split serving state =>
    -- What is left is each answer on its way, and each command with its answer to come.
    generalize hsize : 2 * queued.length + replied.length = size
    induction size using Nat.strongRecOn generalizing m done replied queued with
    | ind size ih =>
      cases replied with
      | cons o rest =>
        refine .of_step (e := .deliver) rfl rfl ?_
        obtain ⟨hserving, hopen | hhung⟩ := deliver_cases serving state
        · have hnext : calls = (done ++ [o]) ++ rest ++ queued := by simp [split]
          refine ih _ ?_ _ _ _ hnext hserving hopen rfl
          rw [← hsize, List.length_cons]
          omega
        · have htracks : Tracks object hangsUp Sim t calls (m.deliver hangsUp) :=
            .hungUp _ queued done (rest ++ queued) o (by simpa using split) hserving
              (by simp [split]) hhung
          exact ⟨[], _, rfl, rfl, htracks.completed.2 hhung.closed⟩
      | nil =>
        cases queued with
        | nil =>
          have hdone : calls = done := by simpa using split
          refine ⟨[], m, rfl, rfl, ?_⟩
          have hall := answered_append state.quiet []
          rw [List.append_nil] at hall
          rw [state.completed, hdone, hall, answered, List.append_nil]
        | cons o rest =>
          have hgood' := good_after hgood ht state.quiet
          rw [List.append_nil] at serving
          obtain ⟨⟨r, w⟩, hwork⟩ :=
            Option.isSome_iff_exists.mp (hgood.work o m.worker _ serving.worker hgood')
          have hstep : Actor.step work hangsUp .serve m = some { m with
              commands := rest.zipIdx (done.length + 1)
              worker := w
              responses := m.responses ++ [(r, done.length)] } := by
            have hcommands := serving.commands
            rw [List.zipIdx_cons] at hcommands
            simp only [Actor.step, Actor.serve, state.running, hcommands, hwork]
            rfl
          refine .of_step (e := .serve) rfl hstep ?_
          have hopen := Listening.serve hsim (by simpa using serving) state hwork
          simp only [List.append_nil] at hopen
          have hnext : calls = done ++ [o] ++ rest := by simpa using split
          refine ih _ ?_ _ _ _ hnext (serving.serve hsim hwork rfl rfl rfl) hopen rfl
          simp only [List.length_cons, List.length_nil] at hsize ⊢
          omega

end Refinement

end ZiaCrypte.Lib
