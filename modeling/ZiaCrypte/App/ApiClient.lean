import ZiaCrypte.Lib.Run
import ZiaCrypte.Lib.Slots

/-!
# `api_client.dart`: the renewal of the tokens

A request that is refused with a 401 has the tokens renewed and is sent once
more. Requests that are refused together share one renewal. An event is what
the one thread of the client does at one go: a request sent, an answer taken,
a continuation resumed after its `await`.
-/
namespace ZiaCrypte.App

open ZiaCrypte.Lib

/-- What comes back for a request; `network` when nothing does. -/
inductive HttpAnswer where
  | ok
  | status (code : Nat)
  | network
  deriving DecidableEq

/-- Where a request is: `waiting n` at the `await _renouveler()` of `_surErreur`, on the
renewal `n`. -/
inductive Phase where
  | sent
  | waiting (renewal : Nat)
  | closed (answer : HttpAnswer)
  deriving DecidableEq

/-- A request of `_dio`. `sends` has the header `Authorization` of each time it was sent,
with the number of renewals that had succeeded by then. -/
structure AppRequest (A : Type) where
  /-- `req.path.contains('/auth/refresh')` -/
  isRefresh : Bool
  /-- `req.extra['zia_retried']` -/
  retried : Bool
  phase : Phase
  sends : List (Option A × Nat)
  deriving DecidableEq

inductive RenewalState where
  | inFlight
  | succeeded
  | failed
  deriving DecidableEq

/-- A call of `_faireRenouvellement`, and the token it posts. -/
structure Renewal (R : Type) where
  presented : Option R
  state : RenewalState
  deriving DecidableEq

structure ApiClient (A R : Type) where
  accessToken : Option A
  refreshToken : Option R
  /-- `_renouvellementEnCours` -/
  enCours : Option Nat
  renewals : List (Renewal R)
  requests : List (AppRequest A)
  deriving DecidableEq

inductive ClientEvent (A R : Type) where
  | send (isRefresh : Bool)
  | answer (request : Nat) (a : HttpAnswer)
  | resume (request : Nat)
  | reprendreSession
  /-- A renewal ends with the tokens of the server, or throws. -/
  | settle (renewal : Nat) (tokens : Option (A × Option R))

namespace ApiClient

variable {A R : Type}

/-- How many renewals have succeeded. -/
def renewed (c : ApiClient A R) : Nat := c.renewals.countP (·.state = .succeeded)

/-- `_renouveler`: the renewal to wait for, which is started unless one is in flight. -/
def renouveler (c : ApiClient A R) : Nat × ApiClient A R :=
  match c.enCours with
  | some n => (n, c)
  | none => (c.renewals.length,
      { c with
        enCours := some c.renewals.length
        renewals := c.renewals ++ [⟨c.refreshToken, .inFlight⟩] })

def setRequest (c : ApiClient A R) (i : Nat) (q : AppRequest A) : ApiClient A R :=
  { c with requests := c.requests.set i q }

/-- `_surErreur`, up to its `await`. -/
def surErreur (i : Nat) (q : AppRequest A) (a : HttpAnswer) (c : ApiClient A R) : ApiClient A R :=
  if a ≠ .status 401 ∨ c.refreshToken.isNone ∨ q.retried ∨ q.isRefresh then
    c.setRequest i { q with phase := .closed a }
  else
    let r := c.renouveler
    r.2.setRequest i { q with phase := .waiting r.1 }

/-- `_surErreur` after its `await`: the 401 is passed on, or the request is sent again. -/
def resumed (i : Nat) (q : AppRequest A) (state : RenewalState) (c : ApiClient A R) :
    Option (ApiClient A R) :=
  match state with
  | .inFlight => none
  | .failed => some (c.setRequest i { q with phase := .closed (.status 401) })
  | .succeeded => some (c.setRequest i { q with
      retried := true
      phase := .sent
      sends := q.sends ++ [(c.accessToken, c.renewed)] })

/-- The end of `_faireRenouvellement`, and what `whenComplete` does. -/
def settle (n : Nat) (r : Renewal R) (tokens : Option (A × Option R)) (c : ApiClient A R) :
    ApiClient A R :=
  match tokens with
  | some (access, refresh) =>
      { c with
        accessToken := some access
        refreshToken := refresh
        enCours := none
        renewals := c.renewals.set n { r with state := .succeeded } }
  | none =>
      { c with
        enCours := none
        renewals := c.renewals.set n { r with state := .failed } }

/-- What comes out of turn is no step; without a token a renewal throws. -/
def step : ClientEvent A R → ApiClient A R → Option (ApiClient A R)
  | .send isRefresh, c => some { c with
      requests := c.requests ++ [⟨isRefresh, false, .sent, [(c.accessToken, c.renewed)]⟩] }
  | .answer i a, c => do
      let q ← c.requests[i]?
      if q.phase = .sent then
        if a = .ok then some (c.setRequest i { q with phase := .closed .ok })
        else some (c.surErreur i q a)
      else none
  | .resume i, c => do
      let q ← c.requests[i]?
      match q.phase with
      | .waiting n => do
          let r ← c.renewals[n]?
          c.resumed i q r.state
      | _ => none
  | .reprendreSession, c => some c.renouveler.2
  | .settle n tokens, c => do
      let r ← c.renewals[n]?
      if r.state = .inFlight ∧ (r.presented.isSome ∨ tokens.isNone) then
        some (c.settle n r tokens)
      else none

def new (accessToken : Option A) (refreshToken : Option R) : ApiClient A R :=
  ⟨accessToken, refreshToken, none, [], []⟩

/-! ## What every event keeps -/

/-- A request that was sent is sent again only once a renewal has succeeded since. -/
def Replays (q : AppRequest A) : Prop :=
  match q.sends with
  | [_] => q.retried = false
  | [(_, before), (_, now)] => q.retried = true ∧ before < now
  | _ => False

/-- The renewals in flight are the one that is remembered, and whoever waits waits for a
renewal that is known. -/
structure Kept (c : ApiClient A R) : Prop where
  single : ∀ n r, c.renewals[n]? = some r → (r.state = .inFlight ↔ c.enCours = some n)
  known : ∀ n, c.enCours = some n → n < c.renewals.length
  replays : ∀ q ∈ c.requests, Replays q
  sends : ∀ q ∈ c.requests, ∀ h ∈ q.sends, h.2 ≤ c.renewed
  /-- A renewal that is waited for and has succeeded did so after the request was sent. -/
  waiting : ∀ q ∈ c.requests, ∀ n, q.phase = .waiting n → q.retried = false ∧
    ∃ r, c.renewals[n]? = some r ∧ (r.state = .succeeded → ∀ h ∈ q.sends, h.2 < c.renewed)

theorem kept_new (accessToken : Option A) (refreshToken : Option R) :
    Kept (new accessToken refreshToken) := by
  constructor <;> simp [new]

variable {c d : ApiClient A R}

/-- Whatever is not in flight is not remembered, so the next renewal may start. -/
theorem Kept.renouveler (h : Kept c) : Kept c.renouveler.2 ∧
    c.renouveler.2.renewed = c.renewed ∧ c.renouveler.2.requests = c.requests ∧
    ∃ r, c.renouveler.2.renewals[c.renouveler.1]? = some r ∧ r.state = .inFlight := by
  unfold ApiClient.renouveler
  split
  · rename_i n hn
    have hlt := h.known n hn
    obtain ⟨r, hr⟩ : ∃ r, c.renewals[n]? = some r := ⟨_, List.getElem?_eq_getElem hlt⟩
    exact ⟨h, rfl, rfl, r, hr, (h.single n r hr).mpr hn⟩
  · rename_i hnone
    have hrenewed : ({ c with
        enCours := some c.renewals.length
        renewals := c.renewals ++ [⟨c.refreshToken, .inFlight⟩] } : ApiClient A R).renewed =
          c.renewed := by
      simp [ApiClient.renewed]
    refine ⟨?_, hrenewed, rfl, _, List.getElem?_concat_length, rfl⟩
    constructor
    · intro n r hr
      rcases getElem?_concat_cases hr with hold | ⟨rfl, rfl⟩
      · have hlt := (List.getElem?_eq_some_iff.mp hold).1
        have hiff := h.single n r hold
        rw [hnone] at hiff
        constructor
        · exact fun hstate => absurd (hiff.mp hstate) (by simp)
        · intro heq
          exact absurd (Option.some.inj heq) (Nat.ne_of_gt hlt)
      · exact ⟨fun _ => rfl, fun _ => rfl⟩
    · intro n hn
      obtain rfl := Option.some.inj hn
      simp
    · exact h.replays
    · intro q hq header hheader
      rw [hrenewed]
      exact h.sends q hq header hheader
    · intro q hq n hwait
      obtain ⟨hretried, r, hr, hsince⟩ := h.waiting q hq n hwait
      refine ⟨hretried, r, ?_, ?_⟩
      · exact (List.getElem?_append_left (List.getElem?_eq_some_iff.mp hr).1).trans hr
      · rw [hrenewed]
        exact hsince

/-- A request put in the place of another that keeps what is kept of each. -/
theorem Kept.setRequest (h : Kept c) {i : Nat} {q' : AppRequest A} (hreplays : Replays q')
    (hsends : ∀ header ∈ q'.sends, header.2 ≤ c.renewed)
    (hwaiting : ∀ n, q'.phase = .waiting n → q'.retried = false ∧
      ∃ r, c.renewals[n]? = some r ∧ (r.state = .succeeded → ∀ h ∈ q'.sends, h.2 < c.renewed)) :
    Kept (c.setRequest i q') where
  single := h.single
  known := h.known
  replays := by
    intro x hx
    rcases mem_set_cases hx with hold | rfl
    · exact h.replays x hold
    · exact hreplays
  sends := by
    intro x hx
    rcases mem_set_cases hx with hold | rfl
    · exact h.sends x hold
    · exact hsends
  waiting := by
    intro x hx
    rcases mem_set_cases hx with hold | rfl
    · exact h.waiting x hold
    · exact hwaiting

theorem Kept.close (h : Kept c) {i : Nat} {q : AppRequest A} (hq : c.requests[i]? = some q)
    (a : HttpAnswer) : Kept (c.setRequest i { q with phase := .closed a }) := by
  have hmem := List.mem_of_getElem? hq
  refine h.setRequest (h.replays q hmem) (h.sends q hmem) ?_
  intro n hn
  cases hn

theorem Kept.surErreur (h : Kept c) {i : Nat} {q : AppRequest A}
    (hq : c.requests[i]? = some q) (a : HttpAnswer) : Kept (surErreur i q a c) := by
  unfold ApiClient.surErreur
  split
  · exact h.close hq a
  · rename_i hgo
    obtain ⟨hkept, hrenewed, -, r, hr, hstate⟩ := h.renouveler
    have hmem := List.mem_of_getElem? hq
    refine hkept.setRequest (h.replays q hmem) ?_ ?_
    · rw [hrenewed]
      exact h.sends q hmem
    · intro n hn
      obtain rfl : c.renouveler.1 = n := by simpa using hn
      refine ⟨?_, r, hr, fun hdone => absurd (hstate.symm.trans hdone) (by decide)⟩
      simp only [not_or, Bool.not_eq_true] at hgo
      exact hgo.2.2.1

theorem Kept.resumed (h : Kept c) {i n : Nat} {q : AppRequest A} {r : Renewal R}
    (hq : c.requests[i]? = some q) (hphase : q.phase = .waiting n) (hr : c.renewals[n]? = some r)
    (hd : resumed i q r.state c = some d) : Kept d := by
  have hmem := List.mem_of_getElem? hq
  unfold ApiClient.resumed at hd
  split at hd
  · cases hd
  · obtain rfl := Option.some.inj hd
    exact h.close hq _
  · rename_i hstate
    obtain rfl := Option.some.inj hd
    obtain ⟨hretried, r', hr', hsince⟩ := h.waiting q hmem n hphase
    obtain rfl := Option.some.inj (hr.symm.trans hr')
    have hbefore := hsince hstate
    have hreplays := h.replays q hmem
    refine h.setRequest ?_ ?_ ?_
    · unfold Replays at hreplays ⊢
      split at hreplays
      · rename_i header hsends
        rw [hsends] at hbefore ⊢
        exact ⟨rfl, hbefore header List.mem_cons_self⟩
      · rw [hretried] at hreplays
        cases hreplays.1
      · exact hreplays.elim
    · intro header hheader
      rcases mem_concat_cases hheader with hold | rfl
      · exact h.sends q hmem header hold
      · exact Nat.le_refl _
    · intro n' hn'
      cases hn'

/-- Only a renewal that succeeds changes how many have. -/
theorem renewed_settle {n : Nat} {r : Renewal R} (hr : c.renewals[n]? = some r)
    (hstate : r.state = .inFlight) (tokens : Option (A × Option R)) :
    (settle n r tokens c).renewed = c.renewed + if tokens.isSome then 1 else 0 := by
  obtain ⟨hlt, hget⟩ := List.getElem?_eq_some_iff.mp hr
  cases tokens with
  | none => simp [settle, ApiClient.renewed, List.countP_set hlt, hget, hstate]
  | some tokens => simp [settle, ApiClient.renewed, List.countP_set hlt, hget, hstate]

theorem settle_fields (n : Nat) (r : Renewal R) (tokens : Option (A × Option R))
    (c : ApiClient A R) : (settle n r tokens c).enCours = none ∧
      (settle n r tokens c).requests = c.requests ∧
      (settle n r tokens c).renewals =
        c.renewals.set n { r with state := if tokens.isSome then .succeeded else .failed } := by
  cases tokens <;> exact ⟨rfl, rfl, rfl⟩

theorem Kept.settle (h : Kept c) {n : Nat} {r : Renewal R} (hr : c.renewals[n]? = some r)
    (hstate : r.state = .inFlight) (tokens : Option (A × Option R)) :
    Kept (settle n r tokens c) := by
  have hcurrent : c.enCours = some n := (h.single n r hr).mp hstate
  have hrenewed := renewed_settle hr hstate tokens
  have hlt := (List.getElem?_eq_some_iff.mp hr).1
  obtain ⟨hnone, hrequests, hrenewals⟩ := settle_fields n r tokens c
  constructor
  · intro m x hx
    rw [hnone]
    rw [hrenewals] at hx
    by_cases hm : n = m
    · subst m
      rw [List.getElem?_set_self hlt] at hx
      obtain rfl := Option.some.inj hx
      cases tokens <;> simp
    · rw [List.getElem?_set_ne hm] at hx
      have hiff := h.single m x hx
      rw [hcurrent] at hiff
      exact ⟨fun hin => absurd (Option.some.inj (hiff.mp hin)) hm, fun hin => nomatch hin⟩
  · intro m hm
    rw [hnone] at hm
    cases hm
  · rw [hrequests]
    exact h.replays
  · rw [hrequests, hrenewed]
    exact fun q hq header hheader => Nat.le_add_right_of_le (h.sends q hq header hheader)
  · rw [hrequests, hrenewed, hrenewals]
    intro q hq m hm
    obtain ⟨hretried, x, hx, hsince⟩ := h.waiting q hq m hm
    refine ⟨hretried, ?_⟩
    by_cases hnm : n = m
    · subst m
      refine ⟨_, List.getElem?_set_self hlt, fun hdone header hheader => ?_⟩
      have hle := h.sends q hq header hheader
      cases tokens with
      | none => cases hdone
      | some tokens => exact Nat.lt_succ_of_le hle
    · refine ⟨x, by rw [List.getElem?_set_ne hnm]; exact hx, fun hdone header hheader => ?_⟩
      exact Nat.lt_add_right _ (hsince hdone header hheader)

theorem kept_step {e : ClientEvent A R} (h : Kept c) (hd : step e c = some d) : Kept d := by
  cases e with
  | send isRefresh =>
    obtain rfl := Option.some.inj hd
    refine ⟨h.single, h.known, ?_, ?_, ?_⟩
    · intro q hq
      rcases mem_concat_cases hq with hold | rfl
      · exact h.replays q hold
      · exact rfl
    · intro q hq
      rcases mem_concat_cases hq with hold | rfl
      · exact h.sends q hold
      · intro header hheader
        rw [List.mem_singleton.mp hheader]
        exact Nat.le_refl _
    · intro q hq
      rcases mem_concat_cases hq with hold | rfl
      · exact h.waiting q hold
      · exact fun n hn => nomatch hn
  | answer i a =>
    simp only [step, Option.bind_eq_bind, Option.bind_eq_some_iff] at hd
    obtain ⟨q, hq, hd⟩ := hd
    split at hd
    · split at hd
      · obtain rfl := Option.some.inj hd
        exact h.close hq _
      · obtain rfl := Option.some.inj hd
        exact h.surErreur hq a
    · cases hd
  | resume i =>
    simp only [step, Option.bind_eq_bind, Option.bind_eq_some_iff] at hd
    obtain ⟨q, hq, hd⟩ := hd
    split at hd
    · rename_i n hphase
      obtain ⟨r, hr, hd⟩ := Option.bind_eq_some_iff.mp hd
      exact h.resumed hq hphase hr hd
    · cases hd
  | reprendreSession =>
    obtain rfl := Option.some.inj hd
    exact h.renouveler.1
  | settle n tokens =>
    simp only [step, Option.bind_eq_bind, Option.bind_eq_some_iff] at hd
    obtain ⟨r, hr, hd⟩ := hd
    split at hd
    · rename_i hgo
      obtain rfl := Option.some.inj hd
      exact h.settle hr hgo.1 tokens
    · cases hd

/-- However the answers come in: one renewal is in flight at a time; a request is sent twice
at most, and again only with a renewal that succeeded since; and who waits for a renewal
waits for the one in flight, or goes on at its next turn. -/
theorem renewals_shared {accessToken : Option A} {refreshToken : Option R}
    {events : List (ClientEvent A R)}
    (h : run step events (new accessToken refreshToken) = some c) :
    (∀ (n n' : Nat) (r r' : Renewal R), c.renewals[n]? = some r → c.renewals[n']? = some r' →
      r.state = .inFlight → r'.state = .inFlight → n = n') ∧
    (∀ q ∈ c.requests, Replays q) ∧
    ∀ (i n : Nat) (q : AppRequest A), c.requests[i]? = some q → q.phase = .waiting n →
      c.enCours = some n ∨ ∃ d, step (.resume i) c = some d ∧ ∃ q', d.requests[i]? = some q' ∧
        (q'.phase = .closed (.status 401) ∨
          q'.phase = .sent ∧ q'.sends = q.sends ++ [(c.accessToken, c.renewed)]) := by
  have hkept : Kept c := run_invariant (fun _ _ _ hs ht => kept_step hs ht) (kept_new _ _) h
  refine ⟨?_, hkept.replays, ?_⟩
  · intro n n' r r' hr hr' hin hin'
    have heq := ((hkept.single n r hr).mp hin).symm.trans ((hkept.single n' r' hr').mp hin')
    exact Option.some.inj heq
  · intro i n q hq hphase
    obtain ⟨-, r, hr, -⟩ := hkept.waiting q (List.mem_of_getElem? hq) n hphase
    have hlt := (List.getElem?_eq_some_iff.mp hq).1
    have hstep : step (.resume i) c = resumed i q r.state c := by
      simp only [step, hq, Option.bind_eq_bind, Option.bind_some, hphase, hr]
    cases hstate : r.state with
    | inFlight => exact .inl ((hkept.single n r hr).mp hstate)
    | failed =>
      rw [hstate] at hstep
      exact .inr ⟨_, hstep, _, List.getElem?_set_self hlt, .inl rfl⟩
    | succeeded =>
      rw [hstate] at hstep
      exact .inr ⟨_, hstep, _, List.getElem?_set_self hlt, .inr ⟨rfl, rfl⟩⟩

/-- Two requests refused together, one renewal, both sent again. -/
def refusedTogether : List (ClientEvent Nat Nat) :=
  [.send false, .send false, .answer 0 (.status 401), .answer 1 (.status 401),
    .settle 0 (some (2, some 20)), .resume 1, .resume 0, .answer 0 .ok]

theorem refusedTogether_shared :
    ∃ c, run step refusedTogether (new (some 1) (some 10)) = some c ∧
      c.renewals = [⟨some 10, .succeeded⟩] ∧
      c.requests.map (·.sends) = [[(some 1, 0), (some 2, 1)], [(some 1, 0), (some 2, 1)]] ∧
      ∀ q ∈ c.requests, Replays q := by
  have h : run step refusedTogether (new (some 1) (some 10)) = some
      ⟨some 2, some 20, none, [⟨some 10, .succeeded⟩],
        [⟨false, true, .closed .ok, [(some 1, 0), (some 2, 1)]⟩,
          ⟨false, true, .sent, [(some 1, 0), (some 2, 1)]⟩]⟩ := by decide
  exact ⟨_, h, rfl, rfl, (renewals_shared h).2.1⟩

end ApiClient

end ZiaCrypte.App
