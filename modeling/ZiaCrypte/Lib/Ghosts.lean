import ZiaCrypte.Lib.Async
import Mathlib.Data.List.Forall2

/-!
# A ghost beside each body

A protocol says what a body may do where its ghost stands, and where the ghost stands then.
A body that follows the protocol does so whatever the others do at its awaits; each thread
of a pool has a ghost of its own.
-/
namespace ZiaCrypte.Lib

variable {S A Q : Type} {R : Q → Type} {E X G α β : Type}

/-- What a body may do at a ghost, and the ghost behind it. -/
structure Protocol (S A Q : Type) (R : Q → Type) (E G : Type) where
  /-- What is known of the state a body finds, after each of its awaits. -/
  known : S → Prop
  act : A → S → G → Prop
  afterAct : A → S → G → G
  ask : Q → G → Prop
  afterAsk : (q : Q) → Except E (R q) → G → G

section Logic

variable (M : Semantics S A Q R E X) (T : Protocol S A Q R E G)

/-- The body keeps to the protocol, and `post` holds where it ends. -/
def Follows (post : Except E α → S → G → Prop) : Async S A Q R E α → S → G → Prop
  | .done r, s, g => post r s g
  | .read k, s, g => Follows post (k s) s g
  | .act a k, s, g => T.act a s g ∧ Follows post k (M.act a s) (T.afterAct a s g)
  | .await q k, _, g =>
      T.ask q g ∧ ∀ r s', T.known s' → Follows post (k r) s' (T.afterAsk q r g)

/-- What is asked of a thread at rest. -/
def Thread.Follows : Thread S A Q R E → G → Prop
  | .blocked _ q k, g =>
      T.ask q g ∧ ∀ r s, T.known s → Lib.Follows M T (fun _ _ _ => True) (k r) s (T.afterAsk q r g)
  | .resumable body, g => ∀ s, T.known s → Lib.Follows M T (fun _ _ _ => True) body s g
  | .finished, _ => True

end Logic

/-- `f` on a result, `post` on an exception. -/
def Onward (Post : α → S → G → Prop) (post : E → S → G → Prop) :
    Except E α → S → G → Prop
  | .ok a, s, g => Post a s g
  | .error e, s, g => post e s g

variable {M : Semantics S A Q R E X} {T : Protocol S A Q R E G}

/-! ## Rules -/

theorem follows_bind {post : Except E β → S → G → Prop} (x : Async S A Q R E α)
    (f : α → Async S A Q R E β) {s : S} {g : G} :
    Follows M T post (x >>= f) s g ↔
      Follows M T (Onward (fun a s' g' => Follows M T post (f a) s' g')
        (fun e s' g' => post (.error e) s' g')) x s g := by
  change Follows M T post (x.bind f) s g ↔ _
  induction x generalizing s g with
  | done r => cases r <;> exact Iff.rfl
  | read k ih => exact ih s
  | act a k ih => exact and_congr_right fun _ => ih
  | await q k ih =>
    refine and_congr_right fun _ => ?_
    exact forall₂_congr fun r s' => imp_congr_right fun _ => ih r

theorem follows_attempt {post : Except E (Except E α) → S → G → Prop} (x : Async S A Q R E α)
    {s : S} {g : G} :
    Follows M T post x.attempt s g ↔
      Follows M T (fun r s' g' => post (.ok r) s' g') x s g := by
  induction x generalizing s g with
  | done r => exact Iff.rfl
  | read k ih => exact ih s
  | act a k ih => exact and_congr_right fun _ => ih
  | await q k ih =>
    refine and_congr_right fun _ => ?_
    exact forall₂_congr fun r s' => imp_congr_right fun _ => ih r

/-- Consequence, knowing what every permitted statement keeps of the state. -/
theorem Follows.mono {post post' : Except E α → S → G → Prop} {x : Async S A Q R E α}
    {s : S} {g : G} (hkeep : ∀ a s g, T.act a s g → T.known s → T.known (M.act a s))
    (himp : ∀ r s' g', T.known s' → post r s' g' → post' r s' g') (hs : T.known s)
    (h : Follows M T post x s g) : Follows M T post' x s g := by
  induction x generalizing s g with
  | done r => exact himp r s g hs h
  | read k ih => exact ih s hs h
  | act a k ih => exact ⟨h.1, ih (hkeep a s g h.1 hs) h.2⟩
  | await q k ih => exact ⟨h.1, fun r s' hs' => ih r hs' (h.2 r s' hs')⟩

/-- A body that is caught. -/
theorem follows_orElse {post : Except E α → S → G → Prop} (x : Async S A Q R E α)
    (h : E → Async S A Q R E α) {s : S} {g : G} :
    Follows M T post (x.orElse h) s g ↔
      Follows M T (Onward (fun a s' g' => post (.ok a) s' g')
        (fun e s' g' => Follows M T post (h e) s' g')) x s g := by
  rw [Async.orElse, follows_bind, follows_attempt]
  refine iff_of_eq (congrArg (fun p => Follows M T p x s g) ?_)
  funext r s' g'
  cases r <;> rfl

/-! ## Stretches and pools -/

/-- A stretch of a body keeps what its permitted statements and the requests keep, and leaves
a thread that follows the protocol. -/
theorem Semantics.launch_follows (J : S → G → Prop)
    (hact : ∀ a s g, T.act a s g → J s g → J (M.act a s) (T.afterAct a s g))
    (hissue : ∀ q s g, J s g → J (M.issue q s) g) {body : Async S A Q R E Unit} {s : S} {g : G}
    (h : Follows M T (fun _ _ _ => True) body s g) (hJ : J s g) :
    ∃ g', J (M.launch body s).2.1 g' ∧ (M.launch body s).2.2.Follows M T g' := by
  induction body generalizing s g with
  | done r => exact ⟨g, hJ, trivial⟩
  | read k ih => exact ih s h hJ
  | act a k ih => exact ih h.2 (hact a s g h.1 hJ)
  | await q k ih => exact ⟨g, hissue q s g hJ, h⟩

/-- A stretch ends at an await or with the body. -/
theorem Semantics.launch_rests (M : Semantics S A Q R E X) (body : Async S A Q R E Unit) (s : S) :
    (M.launch body s).2.2 = .finished ∨ ∃ t q k, (M.launch body s).2.2 = .blocked t q k := by
  induction body generalizing s with
  | done r => exact .inl rfl
  | read k ih => exact ih s s
  | act a k ih => exact ih (M.act a s)
  | await q k ih => exact .inr ⟨_, q, k, rfl⟩

/-- The partner of one place of a list, which may be changed with it. -/
theorem exists_partner {R' : α → β → Prop} {as : List α} {bs : List β}
    (h : List.Forall₂ R' as bs) {i : Nat} {a : α} (ha : as[i]? = some a) :
    ∃ bs₁ b bs₂, bs = bs₁ ++ b :: bs₂ ∧ R' a b ∧
      ∀ a' b', R' a' b' → List.Forall₂ R' (as.set i a') (bs₁ ++ b' :: bs₂) := by
  induction h generalizing i with
  | nil => cases ha
  | @cons a₀ b₀ as bs hhead htail ih =>
    cases i with
    | zero =>
      obtain rfl := Option.some.inj ha
      exact ⟨[], b₀, bs, rfl, hhead, fun a' b' h' => .cons h' htail⟩
    | succ i =>
      obtain ⟨bs₁, b, bs₂, rfl, hb, hset⟩ := ih ha
      exact ⟨b₀ :: bs₁, b, bs₂, rfl, hb, fun a' b' h' => .cons hhead (hset a' b' h')⟩

end ZiaCrypte.Lib
