import ZiaCrypte.Lib.Run
import Mathlib.Logic.Relation

/-!
# Asynchronous programs on one thread

The body of an `async` function runs at one go up to its next `await`, then
other bodies run. `Async` is such a body as a tree: reads of the shared state,
statements on it, and requests to the outside with a continuation for each
answer. A pool of bodies is run by a schedule, which may also kill it.

The second half is a logic for it. `Safe` says that every statement and every
request of a body meets a guard at the state it finds, whatever guarded steps
the other bodies take at its awaits. A pool of safe bodies emits guarded events
only.
-/
namespace ZiaCrypte.Lib

/-- Code over a state `S`: statements `A`, requests `Q` answered in `R`, exceptions `E`. -/
inductive Async (S A Q : Type) (R : Q → Type) (E α : Type) : Type where
  | done (r : Except E α)
  | read (k : S → Async S A Q R E α)
  | act (a : A) (k : Async S A Q R E α)
  | await (q : Q) (k : Except E (R q) → Async S A Q R E α)

namespace Async

variable {S A Q : Type} {R : Q → Type} {E α β : Type}

def bind : Async S A Q R E α → (α → Async S A Q R E β) → Async S A Q R E β
  | .done (.ok a), f => f a
  | .done (.error e), _ => .done (.error e)
  | .read k, f => .read fun s => (k s).bind f
  | .act a k, f => .act a (k.bind f)
  | .await q k, f => .await q fun r => (k r).bind f

instance : Monad (Async S A Q R E) where
  pure a := .done (.ok a)
  bind := bind

def raise (e : E) : Async S A Q R E α := .done (.error e)

/-- The result of a body as a value, exceptions included. -/
def attempt : Async S A Q R E α → Async S A Q R E (Except E α)
  | .done r => .done (.ok r)
  | .read k => .read fun s => (k s).attempt
  | .act a k => .act a k.attempt
  | .await q k => .await q fun r => (k r).attempt

/-- `try { x } catch (e) { h(e) }` -/
def orElse (x : Async S A Q R E α) (h : E → Async S A Q R E α) : Async S A Q R E α :=
  x.attempt >>= fun
    | .ok a => pure a
    | .error e => h e

def get : Async S A Q R E S := .read fun s => .done (.ok s)

def exec (a : A) : Async S A Q R E Unit := .act a (.done (.ok ()))

def request (q : Q) : Async S A Q R E (R q) := .await q .done

end Async

/-! ## Schedules -/

/-- What happens to the shared state. A request is issued at its `await` and
settled later, with an input `X` from outside. -/
inductive Event (A Q X : Type) where
  | act (a : A)
  | issue (q : Q)
  | settle (ticket : Nat) (q : Q) (x : X)
  | crash

/-- How events change the state, and how requests are answered. -/
structure Semantics (S A Q : Type) (R : Q → Type) (E X : Type) where
  act : A → S → S
  issue : Q → S → S
  /-- The number the next request gets. -/
  ticket : S → Nat
  /-- Whether the outside can carry this request out now. -/
  ready : Nat → Q → X → S → Bool
  settle : Nat → Q → X → S → S
  answer : (q : Q) → X → S → Except E (R q)
  crash : S → S

variable {S A Q : Type} {R : Q → Type} {E X α β : Type}

def Semantics.apply (M : Semantics S A Q R E X) : Event A Q X → S → S
  | .act a => M.act a
  | .issue q => M.issue q
  | .settle t q x => M.settle t q x
  | .crash => M.crash

/-- The step function of a sequence of events. -/
def Semantics.step (M : Semantics S A Q R E X) (e : Event A Q X) (s : S) : Option S :=
  some (M.apply e s)

/-! ## Checking a sequence of events -/

/-- Whether `bad` happens at some event, found by running them. -/
def Semantics.scan (M : Semantics S A Q R E X) (bad : Event A Q X → S → Bool) :
    List (Event A Q X) → S → Bool
  | [], _ => false
  | e :: es, s => bad e s || M.scan bad es (M.apply e s)

theorem Semantics.scan_of_always (M : Semantics S A Q R E X) {bad : Event A Q X → S → Bool}
    {Good : Event A Q X → S → Prop} (hbad : ∀ e s, Good e s → bad e s = false)
    {es : List (Event A Q X)} {s : S} (h : Always M.step Good es s) : M.scan bad es s = false := by
  induction es generalizing s with
  | nil => rfl
  | cons e es ih =>
    rw [Semantics.scan, hbad e s h.1, ih (h.2 _ rfl)]
    rfl

theorem Semantics.always_of_scan (M : Semantics S A Q R E X) {bad : Event A Q X → S → Bool}
    {Good : Event A Q X → S → Prop} (hgood : ∀ e s, bad e s = false → Good e s)
    {es : List (Event A Q X)} {s : S} (h : M.scan bad es s = false) : Always M.step Good es s := by
  induction es generalizing s with
  | nil => trivial
  | cons e es ih =>
    obtain ⟨hhead, htail⟩ := Bool.or_eq_false_iff.mp h
    refine ⟨hgood e s hhead, fun t ht => ?_⟩
    obtain rfl := Option.some.inj ht
    exact ih htail

/-- A body at rest. -/
inductive Thread (S A Q : Type) (R : Q → Type) (E : Type) where
  | blocked (ticket : Nat) (q : Q) (k : Except E (R q) → Async S A Q R E Unit)
  | resumable (body : Async S A Q R E Unit)
  | finished

structure Pool (S A Q : Type) (R : Q → Type) (E X : Type) where
  state : S
  threads : List (Thread S A Q R E)
  trace : List (Event A Q X)

/-- The events of a body up to its next `await`, and the state and thread they leave. -/
def Semantics.launch (M : Semantics S A Q R E X) :
    Async S A Q R E Unit → S → List (Event A Q X) × S × Thread S A Q R E
  | .done _, s => ([], s, .finished)
  | .read k, s => M.launch (k s) s
  | .act a k, s =>
      let (es, s', th) := M.launch k (M.act a s)
      (.act a :: es, s', th)
  | .await q k, s => ([.issue q], M.issue q s, .blocked (M.ticket s) q k)

inductive Choice (T X : Type) where
  | start (task : T)
  | settle (thread : Nat) (x : X)
  | resume (thread : Nat)
  | crash

variable {T : Type}

/-- One choice of the scheduler: `program` is what a task runs, `allowed` when it may start. -/
def Pool.step (M : Semantics S A Q R E X) (program : T → Async S A Q R E Unit)
    (allowed : T → S → Bool) : Choice T X → Pool S A Q R E X → Option (Pool S A Q R E X)
  | .start task, p =>
      if allowed task p.state then
        let (es, s, th) := M.launch (program task) p.state
        some ⟨s, p.threads ++ [th], p.trace ++ es⟩
      else none
  | .settle i x, p =>
      match p.threads[i]? with
      | some (.blocked t q k) =>
          if M.ready t q x p.state then
            some ⟨M.settle t q x p.state, p.threads.set i (.resumable (k (M.answer q x p.state))),
              p.trace ++ [.settle t q x]⟩
          else none
      | _ => none
  | .resume i, p =>
      match p.threads[i]? with
      | some (.resumable body) =>
          let (es, s, th) := M.launch body p.state
          some ⟨s, p.threads.set i th, p.trace ++ es⟩
      | _ => none
  | .crash, p => some ⟨M.crash p.state, [], p.trace ++ [.crash]⟩

/-! ## Safe bodies -/

section Logic

variable (M : Semantics S A Q R E X) (Guard : Event A Q X → S → Prop)

/-- A guarded step of some other body, or of the outside on its behalf. -/
inductive Rely : S → S → Prop where
  | event (e : Event A Q X) (s : S) (halive : e ≠ .crash) (hguard : Guard e s) :
      Rely s (M.apply e s)

abbrev Reach : S → S → Prop := Relation.ReflTransGen (Rely M Guard)

/-- The request with ticket `t` is out, and what its answer leads to is `Φ`. -/
def Waiting (t : Nat) (q : Q) (Φ : Except E (R q) → S → Prop) (s : S) : Prop :=
  ∀ s₁, Reach M Guard s s₁ → ∀ x, M.ready t q x s₁ = true →
    Guard (.settle t q x) s₁ ∧
      ∀ s₂, Reach M Guard (M.settle t q x s₁) s₂ → Φ (M.answer q x s₁) s₂

/-- Every event of the body is guarded, and `post` holds where it ends. -/
def Safe (post : Except E α → S → Prop) : Async S A Q R E α → S → Prop
  | .done r, s => post r s
  | .read k, s => Safe post (k s) s
  | .act a k, s => Guard (.act a) s ∧ Safe post k (M.act a s)
  | .await q k, s =>
      Guard (.issue q) s ∧
        Waiting M Guard (M.ticket s) q (fun r s' => Safe post (k r) s') (M.issue q s)

end Logic

variable {M : Semantics S A Q R E X} {Guard : Event A Q X → S → Prop}

theorem Reach.act {a : A} {s : S} (h : Guard (.act a) s) : Reach M Guard s (M.act a s) :=
  .single (.event (.act a) s (by rintro ⟨⟩) h)

theorem Reach.issue {q : Q} {s : S} (h : Guard (.issue q) s) : Reach M Guard s (M.issue q s) :=
  .single (.event (.issue q) s (by rintro ⟨⟩) h)

theorem Reach.settle {t : Nat} {q : Q} {x : X} {s : S} (h : Guard (.settle t q x) s) :
    Reach M Guard s (M.settle t q x s) :=
  .single (.event (.settle t q x) s (by rintro ⟨⟩) h)

/-- What every guarded event keeps, other than a crash, survives any wait. -/
theorem Reach.stable {P : S → Prop}
    (hstep : ∀ e s, e ≠ .crash → Guard e s → P s → P (M.apply e s))
    {s t : S} (h : Reach M Guard s t) (hs : P s) : P t := by
  induction h with
  | refl => exact hs
  | tail _ hrely ih =>
    cases hrely with
    | event e _ halive hguard => exact hstep e _ halive hguard ih

/-! ## Rules -/

@[simp] theorem safe_pure {post : Except E α → S → Prop} {a : α} {s : S} :
    Safe M Guard post (pure a : Async S A Q R E α) s ↔ post (.ok a) s := Iff.rfl

@[simp] theorem safe_raise {post : Except E α → S → Prop} {e : E} {s : S} :
    Safe M Guard post (Async.raise e : Async S A Q R E α) s ↔ post (.error e) s := Iff.rfl

@[simp] theorem safe_get {post : Except E S → S → Prop} {s : S} :
    Safe M Guard post (Async.get : Async S A Q R E S) s ↔ post (.ok s) s := Iff.rfl

@[simp] theorem safe_exec {post : Except E Unit → S → Prop} {a : A} {s : S} :
    Safe M Guard post (Async.exec a : Async S A Q R E Unit) s ↔
      Guard (.act a) s ∧ post (.ok ()) (M.act a s) := Iff.rfl

/-- The continuation of a body: `f` on a result, nothing after an exception. -/
def Continues (Post : α → S → Prop) (post : E → S → Prop) (r : Except E α) (s : S) : Prop :=
  match r with
  | .ok a => Post a s
  | .error e => post e s

@[simp] theorem continues_ok {Post : α → S → Prop} {post : E → S → Prop} {a : α} {s : S} :
    Continues Post post (.ok a) s ↔ Post a s := Iff.rfl

@[simp] theorem continues_error {Post : α → S → Prop} {post : E → S → Prop} {e : E} {s : S} :
    Continues Post post (.error e) s ↔ post e s := Iff.rfl

@[simp] theorem safe_bind {post : Except E β → S → Prop} (x : Async S A Q R E α)
    (f : α → Async S A Q R E β) {s : S} :
    Safe M Guard post (x >>= f) s ↔
      Safe M Guard (Continues (fun a s' => Safe M Guard post (f a) s')
        (fun e s' => post (.error e) s')) x s := by
  change Safe M Guard post (x.bind f) s ↔ _
  induction x generalizing s with
  | done r => cases r <;> exact Iff.rfl
  | read k ih => exact ih s
  | act a k ih => exact and_congr_right fun _ => ih
  | await q k ih =>
    refine and_congr_right fun _ => ?_
    refine forall₂_congr fun s₁ _ => forall₂_congr fun x _ => and_congr_right fun _ => ?_
    exact forall₂_congr fun s₂ _ => ih _

@[simp] theorem safe_attempt {post : Except E (Except E α) → S → Prop}
    (x : Async S A Q R E α) {s : S} :
    Safe M Guard post x.attempt s ↔ Safe M Guard (fun r s' => post (.ok r) s') x s := by
  induction x generalizing s with
  | done r => exact Iff.rfl
  | read k ih => exact ih s
  | act a k ih => exact and_congr_right fun _ => ih
  | await q k ih =>
    refine and_congr_right fun _ => ?_
    refine forall₂_congr fun s₁ _ => forall₂_congr fun x _ => and_congr_right fun _ => ?_
    exact forall₂_congr fun s₂ _ => ih _

@[simp] theorem safe_orElse {post : Except E α → S → Prop} (x : Async S A Q R E α)
    (h : E → Async S A Q R E α) {s : S} :
    Safe M Guard post (x.orElse h) s ↔
      Safe M Guard (Continues (fun a s' => post (.ok a) s')
        (fun e s' => Safe M Guard post (h e) s')) x s := by
  rw [Async.orElse, safe_bind, safe_attempt]
  refine iff_of_eq (congrArg (fun p => Safe M Guard p x s) ?_)
  funext r s'
  cases r <;> rfl

/-- A body ends in a state reached by guarded events. -/
theorem Safe.reach {post : Except E α → S → Prop} {x : Async S A Q R E α} {s : S}
    (h : Safe M Guard post x s) :
    Safe M Guard (fun r s' => Reach M Guard s s' ∧ post r s') x s := by
  suffices hgen : ∀ s₀, Reach M Guard s₀ s →
      Safe M Guard (fun r s' => Reach M Guard s₀ s' ∧ post r s') x s from hgen s .refl
  intro s₀ hr
  induction x generalizing s with
  | done r => exact ⟨hr, h⟩
  | read k ih => exact ih s h hr
  | act a k ih => exact ⟨h.1, ih h.2 (hr.trans (Reach.act h.1))⟩
  | await q k ih =>
    refine ⟨h.1, fun s₁ hs₁ x hx => ?_⟩
    obtain ⟨hsettle, hk⟩ := h.2 s₁ hs₁ x hx
    refine ⟨hsettle, fun s₂ hs₂ => ih _ (hk s₂ hs₂) ?_⟩
    exact hr.trans ((Reach.issue h.1).trans (hs₁.trans ((Reach.settle hsettle).trans hs₂)))

theorem Safe.imp {post post' : Except E α → S → Prop} {x : Async S A Q R E α} {s : S}
    (h : Safe M Guard post x s) (himp : ∀ r s', post r s' → post' r s') :
    Safe M Guard post' x s := by
  induction x generalizing s with
  | done r => exact himp r s h
  | read k ih => exact ih s h
  | act a k ih => exact ⟨h.1, ih h.2⟩
  | await q k ih =>
    refine ⟨h.1, fun s₁ hs₁ x hx => ?_⟩
    obtain ⟨hsettle, hk⟩ := h.2 s₁ hs₁ x hx
    exact ⟨hsettle, fun s₂ hs₂ => ih _ (hk s₂ hs₂)⟩

/-- Consequence, knowing that the end is reached by guarded events. -/
theorem Safe.mono {post post' : Except E α → S → Prop} {x : Async S A Q R E α} {s : S}
    (h : Safe M Guard post x s)
    (himp : ∀ r s', Reach M Guard s s' → post r s' → post' r s') : Safe M Guard post' x s :=
  h.reach.imp fun r s' hr => himp r s' hr.1 hr.2

/-! ## What the others keep

A relation that every guarded event keeps is known between any two states of a body.
-/

/-- `Rel` is a preorder that holds across every guarded event, crashes apart. -/
structure Keeps (M : Semantics S A Q R E X) (Guard : Event A Q X → S → Prop)
    (Rel : S → S → Prop) : Prop where
  refl : ∀ s, Rel s s
  trans : ∀ s t u, Rel s t → Rel t u → Rel s u
  event : ∀ e s, e ≠ .crash → Guard e s → Rel s (M.apply e s)

section Keeping

variable {Rel : S → S → Prop}

theorem Keeps.reach (hk : Keeps M Guard Rel) {s t : S} (h : Reach M Guard s t) : Rel s t :=
  Reach.stable (P := fun u => Rel s u)
    (fun e u halive hguard hrel => hk.trans _ _ _ hrel (hk.event e u halive hguard)) h (hk.refl s)

theorem Keeps.bind (hk : Keeps M Guard Rel) {Q' : Except E α → S → Prop}
    {post : Except E β → S → Prop} {x : Async S A Q R E α} {f : α → Async S A Q R E β} {s : S}
    (hx : Safe M Guard Q' x s)
    (hf : ∀ a t, Rel s t → Q' (.ok a) t → Safe M Guard post (f a) t)
    (herror : ∀ e t, Rel s t → Q' (.error e) t → post (.error e) t) :
    Safe M Guard post (x >>= f) s := by
  rw [safe_bind]
  refine hx.mono fun r t hreach hr => ?_
  cases r with
  | ok a => exact hf a t (hk.reach hreach) hr
  | error e => exact herror e t (hk.reach hreach) hr

/-- A request: what is known at its settlement, and where its answer comes. -/
theorem Keeps.request (hk : Keeps M Guard Rel) {q : Q} {post : Except E (R q) → S → Prop} {s : S}
    (hissue : Guard (.issue q) s)
    (hsettle : ∀ t, Rel s t → ∀ x, M.ready (M.ticket s) q x t = true →
      Guard (.settle (M.ticket s) q x) t ∧
        ∀ u, Rel s u → Rel (M.settle (M.ticket s) q x t) u → post (M.answer q x t) u) :
    Safe M Guard post (Async.request q : Async S A Q R E (R q)) s := by
  refine ⟨hissue, fun t ht x hx => ?_⟩
  have hst : Rel s t := hk.trans _ _ _ (hk.event _ s (by simp) hissue) (hk.reach ht)
  obtain ⟨hguard, hpost⟩ := hsettle t hst x hx
  refine ⟨hguard, fun u hu => ?_⟩
  have hlater := hk.reach hu
  exact hpost u (hk.trans _ _ _ hst (hk.trans _ _ _ (hk.event _ t (by simp) hguard) hlater)) hlater

end Keeping

/-- A read and a statement take no time. -/
theorem safe_get_bind {post : Except E α → S → Prop} {f : S → Async S A Q R E α} {s : S}
    (h : Safe M Guard post (f s) s) : Safe M Guard post (Async.get >>= f) s := h

theorem safe_exec_bind {post : Except E α → S → Prop} {a : A} {f : Unit → Async S A Q R E α}
    {s : S} (ha : Guard (.act a) s) (h : Safe M Guard post (f ()) (M.act a s)) :
    Safe M Guard post (Async.exec a >>= f) s := ⟨ha, h⟩

/-- Two bodies, of whose ends nothing is asked. -/
theorem safe_bind_free {x : Async S A Q R E α} {f : α → Async S A Q R E β} {s : S}
    (hx : Safe M Guard (fun _ _ => True) x s)
    (hf : ∀ a t, Safe M Guard (fun _ _ => True) (f a) t) :
    Safe M Guard (fun _ _ => True) (x >>= f) s := by
  rw [safe_bind]
  refine hx.imp fun r t _ => ?_
  cases r with
  | ok a => exact hf a t
  | error e => trivial

/-- A request that is guarded at any state. -/
theorem safe_request_free {q : Q} {s : S} (hissue : Guard (.issue q) s)
    (hsettle : ∀ t x s', Guard (.settle t q x) s') :
    Safe M Guard (fun _ _ => True) (Async.request q : Async S A Q R E (R q)) s :=
  ⟨hissue, fun s₁ _ x _ => ⟨hsettle _ x s₁, fun _ _ => trivial⟩⟩

/-! ## Safe pools -/

variable (M Guard) in
/-- Nothing is asked of where a thread ends. -/
def Thread.IsSafe : Thread S A Q R E → S → Prop
  | .blocked t q k, s => Waiting M Guard t q (fun r s' => Safe M Guard (fun _ _ => True) (k r) s') s
  | .resumable body, s => ∀ s', Reach M Guard s s' → Safe M Guard (fun _ _ => True) body s'
  | .finished, _ => True

theorem Thread.IsSafe.reach {th : Thread S A Q R E} {s s' : S} (h : th.IsSafe M Guard s)
    (hr : Reach M Guard s s') : th.IsSafe M Guard s' := by
  cases th with
  | blocked t q k => exact fun s₁ hs₁ => h s₁ (hr.trans hs₁)
  | resumable body => exact fun s₁ hs₁ => h s₁ (hr.trans hs₁)
  | finished => trivial

/-- Launching a safe body emits guarded events and leaves a safe thread. -/
theorem launch_safe {body : Async S A Q R E Unit} {s s' : S} {es : List (Event A Q X)}
    {th : Thread S A Q R E} (h : Safe M Guard (fun _ _ => True) body s)
    (hl : M.launch body s = (es, s', th)) :
    run M.step es s = some s' ∧ Always M.step Guard es s ∧ Reach M Guard s s' ∧
      th.IsSafe M Guard s' := by
  induction body generalizing s es with
  | done r =>
    cases hl
    exact ⟨rfl, trivial, .refl, trivial⟩
  | read k ih => exact ih s h hl
  | act a k ih =>
    rw [Semantics.launch] at hl
    obtain ⟨rfl, hrest⟩ := Prod.mk.inj hl
    obtain ⟨rfl, rfl⟩ := Prod.mk.inj hrest
    obtain ⟨hrun, halways, hreach, hth⟩ := ih h.2 rfl
    refine ⟨hrun, ⟨h.1, fun t ht => ?_⟩, (Reach.act h.1).trans hreach, hth⟩
    obtain rfl := Option.some.inj ht
    exact halways
  | await q k ih =>
    cases hl
    exact ⟨rfl, ⟨h.1, fun t ht => trivial⟩, .issue h.1, h.2⟩

/-- The events emitted so far lead from `s₀` to the present, all guarded, and
every thread is safe. -/
structure Pool.IsSafe (M : Semantics S A Q R E X) (Guard : Event A Q X → S → Prop) (s₀ : S)
    (p : Pool S A Q R E X) : Prop where
  replay : run M.step p.trace s₀ = some p.state
  guarded : Always M.step Guard p.trace s₀
  threads : ∀ th ∈ p.threads, th.IsSafe M Guard p.state

theorem Pool.IsSafe.extend {s₀ : S} {p : Pool S A Q R E X} (h : p.IsSafe M Guard s₀)
    (es : List (Event A Q X)) {s' : S} (hrun : run M.step es p.state = some s')
    (hguard : Always M.step Guard es p.state) :
    run M.step (p.trace ++ es) s₀ = some s' ∧ Always M.step Guard (p.trace ++ es) s₀ := by
  refine ⟨?_, Always.append_iff.mpr ⟨h.guarded, fun t ht => ?_⟩⟩
  · rw [run_append, h.replay]
    exact hrun
  · obtain rfl := Option.some.inj (h.replay.symm.trans ht)
    exact hguard

variable {program : T → Async S A Q R E Unit} {allowed : T → S → Bool}

theorem Pool.IsSafe.step {Inv : S → Prop} {s₀ : S}
    (hprogram : ∀ t s, Inv s → allowed t s = true → Safe M Guard (fun _ _ => True) (program t) s)
    (hcrash : ∀ s, Guard .crash s) {p p' : Pool S A Q R E X} {c : Choice T X}
    (h : p.IsSafe M Guard s₀) (hinv : Inv p.state)
    (hstep : Pool.step M program allowed c p = some p') : p'.IsSafe M Guard s₀ := by
  cases c with
  | start task =>
    rw [Pool.step] at hstep
    split at hstep
    · rename_i hallowed
      obtain rfl := Option.some.inj hstep
      obtain ⟨hrun, hguard, hreach, hth⟩ :=
        launch_safe (hprogram task p.state hinv hallowed) rfl
      obtain ⟨hreplay, hguarded⟩ := h.extend _ hrun hguard
      refine ⟨hreplay, hguarded, fun th hmem => ?_⟩
      rcases List.mem_append.mp hmem with hold | hnew
      · exact (h.threads th hold).reach hreach
      · obtain rfl := List.mem_singleton.mp hnew
        exact hth
    · cases hstep
  | settle i x =>
    rw [Pool.step] at hstep
    split at hstep
    · rename_i t q k hget
      split at hstep
      · rename_i hready
        obtain rfl := Option.some.inj hstep
        have hblocked := h.threads _ (List.mem_of_getElem? hget)
        obtain ⟨hsettle, hk⟩ := hblocked p.state .refl x hready
        obtain ⟨hreplay, hguarded⟩ := h.extend [.settle t q x] rfl
          ⟨hsettle, fun _ _ => trivial⟩
        refine ⟨hreplay, hguarded, fun th hmem => ?_⟩
        rcases List.mem_or_eq_of_mem_set hmem with hold | rfl
        · exact (h.threads th hold).reach (.settle hsettle)
        · exact hk
      · cases hstep
    · cases hstep
  | resume i =>
    rw [Pool.step] at hstep
    split at hstep
    · rename_i body hget
      obtain rfl := Option.some.inj hstep
      have hbody := h.threads _ (List.mem_of_getElem? hget) p.state .refl
      obtain ⟨hrun, hguard, hreach, hth⟩ := launch_safe hbody rfl
      obtain ⟨hreplay, hguarded⟩ := h.extend _ hrun hguard
      refine ⟨hreplay, hguarded, fun th hmem => ?_⟩
      rcases List.mem_or_eq_of_mem_set hmem with hold | rfl
      · exact (h.threads th hold).reach hreach
      · exact hth
    · cases hstep
  | crash =>
    obtain rfl := Option.some.inj hstep
    obtain ⟨hreplay, hguarded⟩ := h.extend [.crash] rfl
      ⟨hcrash p.state, fun _ _ => trivial⟩
    exact ⟨hreplay, hguarded, fun th hmem => absurd hmem List.not_mem_nil⟩

/-- A pool whose tasks are safe only ever emits guarded events, in any schedule. -/
theorem Pool.run_isSafe (Inv : S → Prop)
    (hinv : ∀ e s, Inv s → Guard e s → Inv (M.apply e s))
    (hprogram : ∀ t s, Inv s → allowed t s = true → Safe M Guard (fun _ _ => True) (program t) s)
    (hcrash : ∀ s, Guard .crash s) {s₀ : S} (hs₀ : Inv s₀) {choices : List (Choice T X)}
    {p : Pool S A Q R E X}
    (hrun : run (Pool.step M program allowed) choices ⟨s₀, [], []⟩ = some p) :
    p.IsSafe M Guard s₀ := by
  have hstate : ∀ q : Pool S A Q R E X, q.IsSafe M Guard s₀ → Inv q.state := fun q hq =>
    run_invariant_of_always Inv (fun e s t hs hg ht => Option.some.inj ht ▸ hinv e s hs hg)
      hs₀ hq.guarded hq.replay
  refine run_invariant (fun c q q' hq hstep => ?_)
    (⟨rfl, trivial, fun th hmem => absurd hmem List.not_mem_nil⟩ : Pool.IsSafe M Guard s₀ ⟨s₀, [], []⟩)
    hrun
  exact hq.step hprogram hcrash (hstate q hq) hstep

/-! ## The statements of a body -/

namespace Async

/-- Every statement of the body has the property, whatever it reads and is answered. -/
def Only (p : A → Prop) : Async S A Q R E α → Prop
  | .done _ => True
  | .read k => ∀ s, (k s).Only p
  | .act a k => p a ∧ k.Only p
  | .await _ k => ∀ r, (k r).Only p

variable {p : A → Prop}

theorem only_pure (a : α) : (pure a : Async S A Q R E α).Only p := trivial

theorem only_exec {a : A} (ha : p a) : (exec a : Async S A Q R E Unit).Only p := ⟨ha, trivial⟩

theorem only_request (q : Q) : (request q : Async S A Q R E (R q)).Only p := fun _ => trivial

theorem Only.bind {x : Async S A Q R E α} {f : α → Async S A Q R E β} (hx : x.Only p)
    (hf : ∀ a, (f a).Only p) : (x >>= f).Only p := by
  change (x.bind f).Only p
  induction x with
  | done r =>
    cases r with
    | ok a => exact hf a
    | error e => trivial
  | read k ih => exact fun s => ih s (hx s)
  | act a k ih => exact ⟨hx.1, ih hx.2⟩
  | await q k ih => exact fun r => ih r (hx r)

theorem only_get {f : S → Async S A Q R E α} (hf : ∀ s, (f s).Only p) :
    (get >>= f : Async S A Q R E α).Only p := fun s => hf s

theorem Only.attempt {x : Async S A Q R E α} (hx : x.Only p) : x.attempt.Only p := by
  induction x with
  | done r => trivial
  | read k ih => exact fun s => ih s (hx s)
  | act a k ih => exact ⟨hx.1, ih hx.2⟩
  | await q k ih => exact fun r => ih r (hx r)

end Async

namespace Thread

/-- What the thread has still to do. -/
def Only (p : A → Prop) : Thread S A Q R E → Prop
  | .blocked _ _ k => ∀ r, (k r).Only p
  | .resumable body => body.Only p
  | .finished => True

def estFini : Thread S A Q R E → Bool
  | .finished => true
  | _ => false

theorem only_of_estFini {p : A → Prop} {th : Thread S A Q R E} (h : th.estFini = true) :
    th.Only p := by
  cases th with
  | blocked t q k => cases h
  | resumable body => cases h
  | finished => trivial

end Thread

/-- A stretch of the body keeps what its statements and the requests keep, and leaves a thread
with statements of the same kind. -/
theorem Semantics.launch_only (M : Semantics S A Q R E X) {p : A → Prop} (Inv : S → Prop)
    (hact : ∀ a s, p a → Inv s → Inv (M.act a s)) (hissue : ∀ q s, Inv s → Inv (M.issue q s))
    {body : Async S A Q R E Unit} {s : S} (h : body.Only p) (hs : Inv s) :
    Inv (M.launch body s).2.1 ∧ (M.launch body s).2.2.Only p := by
  induction body generalizing s with
  | done r => exact ⟨hs, trivial⟩
  | read k ih => exact ih s (h s) hs
  | act a k ih => exact ih h.2 (hact a s h.1 hs)
  | await q k ih => exact ⟨hissue q s hs, h⟩

/-! ## A body that runs alone

What its requests come to is given as a list: the input of the outside, and whether the program
lives to see the answer. Where the list runs out, the program is stopped before the request is
carried out.
-/

def Semantics.alone (M : Semantics S A Q R E X) :
    Async S A Q R E α → List (X × Bool) → S → Option (Except E α) × S
  | .done r, _, s => (some r, s)
  | .read k, xs, s => M.alone (k s) xs s
  | .act a k, xs, s => M.alone k xs (M.act a s)
  | .await q _, [], s => (none, M.crash (M.issue q s))
  | .await q k, (x, lives) :: xs, s =>
      let settled := M.settle (M.ticket s) q x (M.issue q s)
      if lives then M.alone (k (M.answer q x (M.issue q s))) xs settled
      else (none, M.crash settled)

/-- What guarded events keep, the state a body leaves has. -/
theorem Semantics.alone_keeps {P : S → Prop} (hready : ∀ t q x s, M.ready t q x s = true)
    (hevent : ∀ e s, Guard e s → P s → P (M.apply e s)) (hcrash : ∀ s, Guard .crash s)
    {post : Except E α → S → Prop} {body : Async S A Q R E α} {s : S}
    (hsafe : Safe M Guard post body s) (hs : P s) (xs : List (X × Bool)) :
    P (M.alone body xs s).2 := by
  induction body generalizing s xs with
  | done r => exact hs
  | read k ih => exact ih s hsafe hs xs
  | act a k ih => exact ih hsafe.2 (hevent (.act a) s hsafe.1 hs) xs
  | await q k ih =>
    have hissued : P (M.issue q s) := hevent (.issue q) s hsafe.1 hs
    cases xs with
    | nil => exact hevent .crash _ (hcrash _) hissued
    | cons x xs =>
      obtain ⟨x, lives⟩ := x
      obtain ⟨hguard, hk⟩ := hsafe.2 _ .refl x (hready _ _ _ _)
      have hsettled := hevent (.settle (M.ticket s) q x) _ hguard hissued
      rw [Semantics.alone]
      split
      · exact ih _ (hk _ .refl) hsettled xs
      · exact hevent .crash _ (hcrash _) hsettled

/-- Running alone is a schedule of a pool. -/
theorem Semantics.exists_run_alone (M : Semantics S A Q R E X)
    (hready : ∀ t q x s, M.ready t q x s = true) (program : T → Async S A Q R E Unit)
    (allowed : T → S → Bool) {task : T} {s : S} (hallowed : allowed task s = true)
    (xs : List (X × Bool)) :
    ∃ choices p, run (Pool.step M program allowed) choices ⟨s, [], []⟩ = some p ∧
      p.state = (M.alone (program task) xs s).2 := by
  suffices hlaunched : ∀ (body : Async S A Q R E Unit) (s s' : S) (es tr : List (Event A Q X))
      (th : Thread S A Q R E), M.launch body s = (es, s', th) → ∀ xs, ∃ choices p,
        run (Pool.step M program allowed) choices ⟨s', [th], tr⟩ = some p ∧
          p.state = (M.alone body xs s).2 by
    obtain ⟨choices, p, hrun, hp⟩ := hlaunched (program task) s _ _ _ _ rfl xs
    refine ⟨.start task :: choices, p, ?_, hp⟩
    rw [run_cons, Pool.step, if_pos hallowed]
    exact hrun
  intro body
  induction body with
  | done r =>
    intro s s' es tr th hl xs
    cases hl
    exact ⟨[], _, rfl, rfl⟩
  | read k ih => exact fun s s' es tr th hl xs => ih s s s' es tr th hl xs
  | act a k ih =>
    intro s s' es tr th hl xs
    rw [Semantics.launch] at hl
    obtain ⟨-, hrest⟩ := Prod.mk.inj hl
    exact ih (M.act a s) s' _ tr th (Prod.ext rfl hrest) xs
  | await q k ih =>
    intro s s' es tr th hl xs
    cases hl
    cases xs with
    | nil => exact ⟨[.crash], _, rfl, rfl⟩
    | cons x xs =>
      obtain ⟨x, lives⟩ := x
      have hsettle : Pool.step M program allowed (.settle 0 x)
          ⟨M.issue q s, [.blocked (M.ticket s) q k], tr⟩ =
          some ⟨M.settle (M.ticket s) q x (M.issue q s),
            [.resumable (k (M.answer q x (M.issue q s)))], tr ++ [.settle (M.ticket s) q x]⟩ := by
        simp only [Pool.step, List.getElem?_cons_zero, hready, if_true, List.set_cons_zero]
      cases lives with
      | false =>
        refine ⟨[.settle 0 x, .crash], ⟨M.crash (M.settle (M.ticket s) q x (M.issue q s)), [],
          tr ++ [.settle (M.ticket s) q x] ++ [.crash]⟩, ?_, rfl⟩
        rw [run_cons, hsettle]
        rfl
      | true =>
        obtain ⟨choices, p, hrun, hp⟩ := ih _ _ _ _ _ _ rfl xs
        refine ⟨.settle 0 x :: .resume 0 :: choices, p, ?_, hp⟩
        rw [run_cons, hsettle, Option.bind_some, run_cons]
        exact hrun

end ZiaCrypte.Lib
