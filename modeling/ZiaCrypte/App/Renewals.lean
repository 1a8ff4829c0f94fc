import ZiaCrypte.App.ApiClient
import ZiaCrypte.Server.TokenChain

/-!
# A client and the server that rotates its refresh token

`_faireRenouvellement` posts the token the client holds; `POST /auth/refresh`
takes it out of force and answers with the next. The client is one device; the
server carries out the statements of all of them, in any order. A post that gets
through is answered, and one that does not never reaches the server.
-/
namespace ZiaCrypte.App

open ZiaCrypte.Lib ZiaCrypte.Server ZiaCrypte.Server.AuthTables

/-- `posted` has the request of the server behind each renewal that reached it. -/
structure Connected (A Digest : Type) where
  client : ApiClient A RefreshToken
  tables : AuthTables Digest
  posted : List (Nat × Nat)

inductive ConnectedEvent (A : Type) where
  | app (e : ClientEvent A RefreshToken)
  | post (renewal now : Nat)
  | reply (renewal : Nat)
  /-- The connection fails. -/
  | fail (renewal : Nat)
  | server (a : AuthStatement)

namespace Connected

variable {A Digest : Type} [DecidableEq Digest]

section

variable (hashToken : RefreshToken → Digest) (ttl : Nat) (mint : RefreshToken → A)

def onClient (e : ClientEvent A RefreshToken) (w : Connected A Digest) :
    Option (Connected A Digest) :=
  (ApiClient.step e w.client).map fun client => { w with client := client }

def onServer (a : AuthStatement) (w : Connected A Digest) : Option (Connected A Digest) :=
  (AuthTables.step hashToken ttl a w.tables).map fun tables => { w with tables := tables }

/-- `mint` is the access token that goes with a refresh token. -/
def step : ConnectedEvent A → Connected A Digest → Option (Connected A Digest)
  | .app (.settle _ _), _ => none
  | .app e, w => w.onClient e
  | .post n now, w => do
      let r ← w.client.renewals[n]?
      let token ← r.presented
      if (w.posted.lookup n).isSome then none
      else
        let t ← w.onServer hashToken ttl (.refresh token now)
        pure { t with posted := (n, w.tables.requests.length) :: w.posted }
  | .reply n, w => do
      let i ← w.posted.lookup n
      let q ← w.tables.requests[i]?
      match q.stage with
      | .answered pair _ => w.onClient (.settle n (some (mint pair, some pair)))
      | .refused _ => w.onClient (.settle n none)
      | _ => none
  | .fail n, w => w.onClient (.settle n none)
  | .server a, w => w.onServer hashToken ttl a

/-- A client that has just logged in, on a server with these devices. -/
def login (devices : List Device) (roles : List (Uuid × String)) (sub did id jti now : Nat) :
    Connected A Digest where
  client := .new (some (mint ⟨sub, did, jti, now + ttl⟩)) (some ⟨sub, did, jti, now + ttl⟩)
  tables := ⟨devices, roles, [newSession hashToken ttl sub did id jti now], [], []⟩
  posted := []

/-- A post reaches the server while its renewal is in flight, or fails and never does; the
keys of new sessions are new; nobody else presents the tokens of the device, or revokes it. -/
def Calm (did : Uuid) : ConnectedEvent A → Connected A Digest → Prop
  | .post n _, w => ∀ r ∈ w.client.renewals[n]?, r.state = .inFlight
  | .fail n, w => w.posted.lookup n = none
  | .server a, w => Foreign did a ∧ FreshKeys hashToken ttl a w.tables
  | _, _ => True

instance decidableCalm (did : Uuid) (e : ConnectedEvent A) (w : Connected A Digest) :
    Decidable (Calm hashToken ttl did e w) :=
  match e with
  | .post n _ => inferInstanceAs (Decidable (∀ r ∈ w.client.renewals[n]?, r.state = .inFlight))
  | .fail n => inferInstanceAs (Decidable (w.posted.lookup n = none))
  | .server a => inferInstanceAs (Decidable (Foreign did a ∧ FreshKeys hashToken ttl a w.tables))
  | .app _ | .reply _ => isTrue trivial

/-- When the server looks a token of the device up, it finds its session unless the token
has expired. -/
def Accepted (did : Uuid) : ConnectedEvent A → Connected A Digest → Prop
  | .server (.findSession i now), w => ∀ q ∈ w.tables.requests[i]?, q.token.did = did →
      q.stage = .find → now < q.token.exp → (w.tables.selectSession hashToken q.token now).isSome
  | _, _ => True

end

/-! ## The invariant -/

variable {hashToken : RefreshToken → Digest} {ttl : Nat} {mint : RefreshToken → A} {did : Uuid}
  {w v : Connected A Digest}

/-- The request of the server behind the renewal in flight, once it has got there. -/
def under (w : Connected A Digest) : Option Nat := w.client.enCours.bind fun n => w.posted.lookup n

structure Linked (hashToken : RefreshToken → Digest) (did : Uuid) (w : Connected A Digest) :
    Prop where
  client : ApiClient.Kept w.client
  tables : Orderly hashToken did w.tables
  posted : ∀ n i, w.posted.lookup n = some i →
    n < w.client.renewals.length ∧ i < w.tables.requests.length
  holds : ∃ token, w.client.refreshToken = some token ∧ token.did = did ∧
    Chain hashToken did w.tables token w.under ∧
    ∀ n r, w.client.enCours = some n → w.client.renewals[n]? = some r → r.presented = some token

omit [DecidableEq Digest] in
theorem linked_login (devices : List Device) (roles : List (Uuid × String))
    (sub did id jti now : Nat) :
    Linked hashToken did (login hashToken ttl mint devices roles sub did id jti now) where
  client := ApiClient.kept_new _ _
  tables := by
    refine ⟨List.nodup_singleton _, List.nodup_singleton _, ?_, ?_, ?_, ?_⟩ <;>
      simp [login]
  posted n i hn := by cases hn
  holds := by
    refine ⟨_, rfl, rfl, .idle id ?_ ?_, ?_⟩
    · exact ⟨_, List.mem_cons_self, rfl, rfl, rfl, rfl, rfl, rfl⟩
    · intro j q hq
      simp [login] at hq
    · intro n r hn
      cases hn

/-- What the application does leaves the tokens alone, and starts a renewal at most when none
is in flight. -/
theorem app_cases {c d : ApiClient A RefreshToken} {e : ClientEvent A RefreshToken}
    (he : ∀ n tokens, e ≠ .settle n tokens) (h : ApiClient.step e c = some d) :
    d.refreshToken = c.refreshToken ∧
      (d.enCours = c.enCours ∧ d.renewals = c.renewals ∨
        c.enCours = none ∧ d.enCours = some c.renewals.length ∧
          d.renewals = c.renewals ++ [⟨c.refreshToken, .inFlight⟩]) := by
  have hrenew : c.renouveler.2.refreshToken = c.refreshToken ∧
      (c.renouveler.2.enCours = c.enCours ∧ c.renouveler.2.renewals = c.renewals ∨
        c.enCours = none ∧ c.renouveler.2.enCours = some c.renewals.length ∧
          c.renouveler.2.renewals = c.renewals ++ [⟨c.refreshToken, .inFlight⟩]) := by
    unfold ApiClient.renouveler
    split
    · exact ⟨rfl, .inl ⟨rfl, rfl⟩⟩
    · exact ⟨rfl, .inr ⟨‹_›, rfl, rfl⟩⟩
  cases e with
  | send isRefresh =>
    obtain rfl := Option.some.inj h
    exact ⟨rfl, .inl ⟨rfl, rfl⟩⟩
  | answer i a =>
    simp only [ApiClient.step, Option.bind_eq_bind, Option.bind_eq_some_iff] at h
    obtain ⟨q, -, h⟩ := h
    split at h
    · split at h
      · obtain rfl := Option.some.inj h
        exact ⟨rfl, .inl ⟨rfl, rfl⟩⟩
      · obtain rfl := Option.some.inj h
        unfold ApiClient.surErreur
        split
        · exact ⟨rfl, .inl ⟨rfl, rfl⟩⟩
        · exact hrenew
    · cases h
  | resume i =>
    simp only [ApiClient.step, Option.bind_eq_bind, Option.bind_eq_some_iff] at h
    obtain ⟨q, -, h⟩ := h
    split at h
    · obtain ⟨r, -, h⟩ := Option.bind_eq_some_iff.mp h
      unfold ApiClient.resumed at h
      split at h
      · cases h
      · obtain rfl := Option.some.inj h
        exact ⟨rfl, .inl ⟨rfl, rfl⟩⟩
      · obtain rfl := Option.some.inj h
        exact ⟨rfl, .inl ⟨rfl, rfl⟩⟩
    · cases h
  | reprendreSession =>
    obtain rfl := Option.some.inj h
    exact hrenew
  | settle n tokens => exact absurd rfl (he n tokens)

omit [DecidableEq Digest] in
theorem Linked.app (h : Linked hashToken did w) {e : ClientEvent A RefreshToken}
    (he : ∀ n tokens, e ≠ .settle n tokens) (hv : w.onClient e = some v) :
    Linked hashToken did v := by
  obtain ⟨c, hc, rfl⟩ := Option.map_eq_some_iff.mp hv
  obtain ⟨htoken, hcases⟩ := app_cases he hc
  obtain ⟨token, hholds, hdid, hchain, hpresented⟩ := h.holds
  have hkept := ApiClient.kept_step h.client hc
  obtain ⟨hcurrent, hrenewals⟩ | ⟨hnone, hcurrent, hrenewals⟩ := hcases
  · refine ⟨hkept, h.tables, ?_, token, htoken.trans hholds, hdid, ?_, ?_⟩
    · rw [hrenewals]
      exact h.posted
    · have hunder : under { w with client := c } = w.under := by
        unfold under
        rw [hcurrent]
      rw [hunder]
      exact hchain
    · rw [hcurrent, hrenewals]
      exact hpresented
  · have hfresh : w.posted.lookup w.client.renewals.length = none := by
      refine Option.eq_none_iff_forall_not_mem.mpr fun i hi => ?_
      exact Nat.lt_irrefl _ (h.posted _ i hi).1
    refine ⟨hkept, h.tables, ?_, token, htoken.trans hholds, hdid, ?_, ?_⟩
    · intro n i hn
      rw [hrenewals, List.length_append]
      exact ⟨Nat.lt_add_right _ (h.posted n i hn).1, (h.posted n i hn).2⟩
    · have hunder : under { w with client := c } = w.under := by
        unfold under
        rw [hcurrent, hnone]
        exact hfresh
      rw [hunder]
      exact hchain
    · intro n r hn hr
      rw [hcurrent] at hn
      obtain rfl := Option.some.inj hn
      rw [hrenewals, List.getElem?_concat_length] at hr
      obtain rfl := Option.some.inj hr
      exact hholds

omit [DecidableEq Digest] in
/-- What is under way is what was posted of the renewal in flight. -/
theorem Linked.under_eq (h : Linked hashToken did w) {n : Nat} {r : Renewal RefreshToken}
    (hr : w.client.renewals[n]? = some r) (hstate : r.state = .inFlight) :
    w.under = w.posted.lookup n := by
  unfold under
  rw [(h.client.single n r hr).mp hstate]
  rfl

/-- One more renewal has reached the server. -/
theorem posted_concat {posted : List (Nat × Nat)} {renewals requests requests' n : Nat}
    (h : ∀ m i, posted.lookup m = some i → m < renewals ∧ i < requests) (hn : n < renewals)
    (hlt : requests < requests') :
    ∀ m i, ((n, requests) :: posted).lookup m = some i → m < renewals ∧ i < requests' := by
  intro m i hm
  by_cases hmn : m = n
  · subst m
    simp only [List.lookup_cons_self, Option.some.injEq] at hm
    exact ⟨hn, hm ▸ hlt⟩
  · rw [List.lookup_cons, beq_false_of_ne hmn] at hm
    exact ⟨(h m i hm).1, Nat.lt_trans (h m i hm).2 hlt⟩

theorem Linked.post (h : Linked hashToken did w) {n now : Nat}
    (hcalm : Calm hashToken ttl did (.post n now) w)
    (hv : step hashToken ttl mint (.post n now) w = some v) : Linked hashToken did v := by
  simp only [step, Option.bind_eq_bind, Option.bind_eq_some_iff] at hv
  obtain ⟨r, hr, token, htoken, hv⟩ := hv
  split at hv
  · cases hv
  · rename_i hnew
    obtain ⟨u, hu, hv⟩ := Option.bind_eq_some_iff.mp hv
    obtain ⟨t, ht, rfl⟩ := Option.map_eq_some_iff.mp hu
    obtain rfl := Option.some.inj hv
    have hstate : r.state = .inFlight := hcalm r hr
    have hcurrent := (h.client.single n r hr).mp hstate
    obtain ⟨token', hholds, hdid, hchain, hpresented⟩ := h.holds
    obtain rfl : token' = token :=
      Option.some.inj ((hpresented n r hcurrent hr).symm.trans htoken)
    have hidle : w.under = none := by
      rw [h.under_eq hr hstate]
      exact Option.not_isSome_iff_eq_none.mp (by simpa using hnew)
    rw [hidle] at hchain
    have heffect := effect_of_step ht
    have hrow : ∃ x ∈ w.tables.sessions, x.refreshTokenHash = hashToken token' := by
      obtain ⟨id, ⟨x, hx, -, -, -, hhash, -⟩, -⟩ := hchain
      exact ⟨x, hx, hhash⟩
    refine ⟨h.client, ?_, ?_, token', hholds, hdid, ?_, hpresented⟩
    · have hpresent : ∀ token now', AuthStatement.refresh token' now = .refresh token now' →
          token.did = did → ∃ x ∈ w.tables.sessions, x.refreshTokenHash = hashToken token := by
        rintro token now' heq -
        obtain ⟨rfl, -⟩ := AuthStatement.refresh.inj heq
        exact hrow
      exact h.tables.step (a := .refresh token' now) trivial (fun _ _ heq => nomatch heq) hpresent
        heffect
    · refine posted_concat h.posted (h.client.known n hcurrent) ?_
      rw [← Option.some.inj ht]
      simp
    · have hunder : under { w with
          tables := t
          posted := (n, w.tables.requests.length) :: w.posted } =
            some w.tables.requests.length := by
        simp [under, hcurrent]
      rw [hunder]
      exact hchain.arrive heffect

omit [DecidableEq Digest] in
/-- A renewal that ends: the client is left with a token, and nothing is under way. -/
theorem Linked.settle (h : Linked hashToken did w) {n : Nat}
    {tokens : Option (A × Option RefreshToken)} (hv : w.onClient (.settle n tokens) = some v) :
    w.under = w.posted.lookup n ∧
      v.client.refreshToken = (match tokens with
        | some (_, refresh) => refresh
        | none => w.client.refreshToken) ∧
      ∀ token, v.client.refreshToken = some token → token.did = did →
        Chain hashToken did w.tables token none → Linked hashToken did v := by
  obtain ⟨c, hc, rfl⟩ := Option.map_eq_some_iff.mp hv
  have hkept := ApiClient.kept_step h.client hc
  simp only [ApiClient.step, Option.bind_eq_bind, Option.bind_eq_some_iff] at hc
  obtain ⟨r, hr, hc⟩ := hc
  split at hc
  · rename_i hgo
    obtain rfl := Option.some.inj hc
    obtain ⟨hnone, -, hrenewals⟩ := ApiClient.settle_fields n r tokens w.client
    refine ⟨h.under_eq hr hgo.1, by cases tokens <;> rfl, fun token htoken hdid hchain => ?_⟩
    refine ⟨hkept, h.tables, fun m i hm => ?_, token, htoken, hdid, ?_, fun m x hm => ?_⟩
    · rw [hrenewals, List.length_set]
      exact h.posted m i hm
    · rw [under, hnone]
      exact hchain
    · rw [hnone] at hm
      cases hm
  · cases hc

theorem Linked.reply (h : Linked hashToken did w) {n : Nat}
    (hv : step hashToken ttl mint (.reply n) w = some v) : Linked hashToken did v := by
  simp only [step, Option.bind_eq_bind, Option.bind_eq_some_iff] at hv
  obtain ⟨i, hi, q, hq, hv⟩ := hv
  obtain ⟨token, hholds, hdid, hchain, -⟩ := h.holds
  split at hv
  · rename_i pair role hstage
    obtain ⟨hunder, hrefresh, hlinked⟩ := h.settle hv
    rw [hunder, hi] at hchain
    obtain ⟨hpdid, hchain⟩ := hchain.answered hq hstage
    exact hlinked pair hrefresh (hpdid.trans hdid) hchain
  · rename_i e hstage
    obtain ⟨hunder, hrefresh, hlinked⟩ := h.settle hv
    rw [hunder, hi] at hchain
    exact hlinked token (hrefresh.trans hholds) hdid (hchain.refused hq hstage)
  · cases hv

theorem linked_step (h : Linked hashToken did w) {e : ConnectedEvent A}
    (hcalm : Calm hashToken ttl did e w) (hv : step hashToken ttl mint e w = some v) :
    Linked hashToken did v := by
  cases e with
  | app e =>
    cases e with
    | settle n tokens => cases hv
    | send isRefresh => exact h.app (by simp) hv
    | answer i a => exact h.app (by simp) hv
    | resume i => exact h.app (by simp) hv
    | reprendreSession => exact h.app (by simp) hv
  | post n now => exact h.post hcalm hv
  | reply n => exact h.reply hv
  | fail n =>
    obtain ⟨token, hholds, hdid, hchain, -⟩ := h.holds
    obtain ⟨hunder, hrefresh, hlinked⟩ := h.settle hv
    rw [hunder, hcalm] at hchain
    exact hlinked token (hrefresh.trans hholds) hdid hchain
  | server a =>
    obtain ⟨t, ht, rfl⟩ := Option.map_eq_some_iff.mp hv
    obtain ⟨hforeign, hfresh⟩ := hcalm
    obtain ⟨token, hholds, hdid, hchain, hpresented⟩ := h.holds
    have heffect := effect_of_step ht
    refine ⟨h.client, ?_, fun n i hn => ?_, token, hholds, hdid, ?_, hpresented⟩
    · refine h.tables.step hfresh ?_ ?_ heffect
      · rintro userId deviceId rfl
        exact hforeign
      · rintro token' now rfl hmine
        exact absurd hmine hforeign
    · exact ⟨(h.posted n i hn).1,
        Nat.lt_of_lt_of_le (h.posted n i hn).2 (requests_length_le heffect)⟩
    · exact hchain.step h.tables hdid hforeign hfresh heffect

theorem Linked.accepted (h : Linked hashToken did w) (e : ConnectedEvent A) :
    Accepted hashToken did e w := by
  cases e with
  | server a =>
    cases a with
    | findSession i now =>
      intro q hq hmine hstage hnow
      obtain ⟨token, -, hdid, hchain, -⟩ := h.holds
      have hopen : q.stage.final ≠ true := by
        rw [hstage]
        decide
      cases hunder : w.under with
      | none =>
        rw [hunder] at hchain
        obtain ⟨-, -, others⟩ := hchain
        exact absurd ((others i q hq (by simp)).1 hmine) hopen
      | some j =>
        rw [hunder] at hchain
        cases hchain with
        | busy _ q' at_ same others under =>
          by_cases hij : j = i
          · subst j
            obtain rfl := Option.some.inj (hq.symm.trans at_)
            rw [Under, hstage] at under
            obtain ⟨id, hin⟩ := under
            obtain ⟨x, hx, -⟩ := hin.selected h.tables hnow
            rw [hx]
            rfl
          · exact absurd ((others i q hq (by simpa using hij)).1 hmine) hopen
    | _ => trivial
  | _ => trivial

/-- A client whose posts are answered never loses its session by its own doing: the server
refuses no token it presents before it expires, and while no renewal is in flight the token
it holds has a session in force. -/
theorem session_survives (hashToken : RefreshToken → Digest) (ttl : Nat)
    (mint : RefreshToken → A) (devices : List Device) (roles : List (Uuid × String))
    (sub did id jti now : Nat) (events : List (ConnectedEvent A))
    (hcalm : Always (step hashToken ttl mint) (Calm hashToken ttl did) events
      (login hashToken ttl mint devices roles sub did id jti now)) :
    Always (step hashToken ttl mint) (Accepted hashToken did) events
        (login hashToken ttl mint devices roles sub did id jti now) ∧
      ∀ w, run (step hashToken ttl mint) events
          (login hashToken ttl mint devices roles sub did id jti now) = some w →
        ∃ token, w.client.refreshToken = some token ∧ token.did = did ∧
          (w.client.enCours = none → ∃ id, InForce hashToken w.tables token id) := by
  have hlogin : Linked hashToken did (login hashToken ttl mint devices roles sub did id jti now) :=
    linked_login devices roles sub did id jti now
  refine ⟨?_, fun w hw => ?_⟩
  · exact always_of_invariant (Linked hashToken did)
      (fun _ _ _ hs hc ht => linked_step hs hc ht) (fun e _ hs _ => hs.accepted e) hlogin hcalm
  · have hlinked : Linked hashToken did w := run_invariant_of_always (Linked hashToken did)
      (fun _ _ _ hs hc ht => linked_step hs hc ht) hlogin hcalm hw
    obtain ⟨token, hholds, hdid, hchain, -⟩ := hlinked.holds
    refine ⟨token, hholds, hdid, fun hnone => ?_⟩
    rw [under, hnone] at hchain
    obtain ⟨id, force, -⟩ := hchain
    exact ⟨id, force⟩

/-- Two requests are refused together while another device renews its own tokens. -/
def twoDevices : List (ConnectedEvent Nat) :=
  [.server (.createSession 200 20 2 2 0), .app (.send false), .app (.send false),
    .app (.answer 0 (.status 401)), .post 0 6, .server (.refresh ⟨200, 20, 2, 50⟩ 6),
    .app (.answer 1 (.status 401)), .server (.findSession 0 6), .server (.findSession 1 6),
    .server (.rotate 1 6), .server (.rotate 0 6), .server (.issue 0 3 3 6),
    .server (.issue 1 4 4 6), .server (.findRole 0), .reply 0, .app (.resume 0), .app (.resume 1)]

theorem twoDevices_survives :
    ∃ w, run (step id 50 RefreshToken.jti) twoDevices (login id 50 RefreshToken.jti [] [] 100 10 1 1 0)
        = some w ∧ w.client.refreshToken = some ⟨100, 10, 3, 56⟩ ∧
      Always (step id 50 RefreshToken.jti) (Accepted id 10) twoDevices
        (login id 50 RefreshToken.jti [] [] 100 10 1 1 0) :=
  ⟨_, rfl, by decide,
    (session_survives id 50 RefreshToken.jti [] [] 100 10 1 1 0 twoDevices (by decide)).1⟩

/-! ## An answer that is lost -/

/-- The session of the token the client holds is not in force any more, and neither is the
next one on its way to it. -/
structure Stranded (hashToken : RefreshToken → Digest) (token : RefreshToken)
    (w : Connected A Digest) : Prop where
  client : ApiClient.Kept w.client
  holds : w.client.refreshToken = some token
  known : ∃ x ∈ w.tables.sessions, x.refreshTokenHash = hashToken token
  revoked : ∀ x ∈ w.tables.sessions, x.refreshTokenHash = hashToken token → x.revokedAt ≠ none
  posted : ∀ n i, w.posted.lookup n = some i →
    n < w.client.renewals.length ∧ i < w.tables.requests.length
  presented : ∀ (n : Nat) (r : Renewal RefreshToken), w.client.renewals[n]? = some r → r.state = .inFlight →
    r.presented = some token
  waiting : ∀ (n i : Nat) (r : Renewal RefreshToken), w.client.renewals[n]? = some r → r.state = .inFlight →
    w.posted.lookup n = some i → ∃ q, w.tables.requests[i]? = some q ∧ q.token = token ∧
      (q.stage = .find ∨ ∃ e, q.stage = .refused e)

variable {token : RefreshToken}

/-- A request for a token without a session stays where it is, or is refused. -/
theorem refused_step {s t : AuthTables Digest} {a : AuthStatement}
    (he : Effect hashToken ttl a s t)
    (hrevoked : ∀ x ∈ s.sessions, x.refreshTokenHash = hashToken token → x.revokedAt ≠ none)
    {i : Nat} {q : RefreshRequest} (hq : s.requests[i]? = some q) (htoken : q.token = token)
    (hstage : q.stage = .find ∨ ∃ e, q.stage = .refused e) :
    ∃ q', t.requests[i]? = some q' ∧ q'.token = token ∧
      (q'.stage = .find ∨ ∃ e, q'.stage = .refused e) := by
  have hlt := (List.getElem?_eq_some_iff.mp hq).1
  have hsame : t.requests[i]? = some q → ∃ q', t.requests[i]? = some q' ∧ q'.token = token ∧
      (q'.stage = .find ∨ ∃ e, q'.stage = .refused e) := fun h => ⟨q, h, htoken, hstage⟩
  have hother : ∀ {j r} {stage : RefreshStage}, s.requests[j]? = some r → r.stage = stage →
      stage ≠ .find → stage.final = false → j ≠ i := by
    rintro j r stage hr rfl hfind hopen rfl
    obtain rfl := Option.some.inj (hr.symm.trans hq)
    rcases hstage with hf | ⟨e, hf⟩
    · exact hfind hf
    · rw [hf] at hopen
      cases hopen
  cases he with
  | device _ _ requests | login _ requests | revocation _ requests | transaction _ _ _ requests
  | committed _ _ _ requests => exact hsame (requests ▸ hq)
  | begun _ _ requests =>
    refine hsame ?_
    rw [requests, List.getElem?_append_left hlt]
    exact hq
  | @found _ _ j now r at_ stage next =>
    subst next
    by_cases hij : j = i
    · subst j
      obtain rfl := Option.some.inj (hq.symm.trans at_)
      have hnone : s.selectSession hashToken q.token now = none := by
        refine Option.eq_none_iff_forall_not_mem.mpr fun x hx => ?_
        have hforce := List.find?_some hx
        obtain ⟨hmem, hhash, -⟩ := selectSession_mem hx
        simp only [Bool.and_eq_true, beq_iff_eq] at hforce
        exact hrevoked x hmem (htoken ▸ hhash) hforce.1.2
      rw [hnone]
      exact ⟨_, List.getElem?_set_self hlt, htoken, .inr ⟨_, rfl⟩⟩
    · exact hsame ((List.getElem?_set_ne hij).trans hq)
  | rotated at_ stage next =>
    subst next
    exact hsame ((List.getElem?_set_ne (hother at_ stage (by simp) rfl)).trans hq)
  | issued at_ stage next =>
    subst next
    exact hsame ((List.getElem?_set_ne (hother at_ stage (by simp) rfl)).trans hq)
  | answered at_ stage next =>
    subst next
    exact hsame ((List.getElem?_set_ne (hother at_ stage (by simp) rfl)).trans hq)

/-- The keys of new sessions are new. -/
def Fresh (hashToken : RefreshToken → Digest) (ttl : Nat) : ConnectedEvent A → Connected A Digest → Prop
  | .server a, w => FreshKeys hashToken ttl a w.tables
  | _, _ => True

instance decidableFresh (hashToken : RefreshToken → Digest) (ttl : Nat) (e : ConnectedEvent A)
    (w : Connected A Digest) : Decidable (Fresh hashToken ttl e w) :=
  match e with
  | .server a => inferInstanceAs (Decidable (FreshKeys hashToken ttl a w.tables))
  | .app _ | .post _ _ | .reply _ | .fail _ => isTrue trivial

omit [DecidableEq Digest] in
theorem Stranded.app (h : Stranded hashToken token w) {e : ClientEvent A RefreshToken}
    (he : ∀ n tokens, e ≠ .settle n tokens) (hv : w.onClient e = some v) :
    Stranded hashToken token v ∧ v.client.renewed = w.client.renewed := by
  obtain ⟨c, hc, rfl⟩ := Option.map_eq_some_iff.mp hv
  obtain ⟨htoken, hcases⟩ := app_cases he hc
  have hkept := ApiClient.kept_step h.client hc
  obtain ⟨-, hrenewals⟩ | ⟨-, -, hrenewals⟩ := hcases
  · refine ⟨⟨hkept, htoken.trans h.holds, h.known, h.revoked, ?_, ?_, ?_⟩, ?_⟩
    · rw [hrenewals]
      exact h.posted
    · rw [hrenewals]
      exact h.presented
    · rw [hrenewals]
      exact h.waiting
    · rw [ApiClient.renewed, hrenewals]
      rfl
  · refine ⟨⟨hkept, htoken.trans h.holds, h.known, h.revoked, ?_, ?_, ?_⟩, ?_⟩
    · intro n i hn
      rw [hrenewals, List.length_append]
      exact ⟨Nat.lt_add_right _ (h.posted n i hn).1, (h.posted n i hn).2⟩
    · intro n r hr hstate
      rw [hrenewals] at hr
      rcases getElem?_concat_cases hr with hold | ⟨-, rfl⟩
      · exact h.presented n r hold hstate
      · exact h.holds
    · intro n i r hr hstate hn
      have hlt := (h.posted n i hn).1
      rw [hrenewals, List.getElem?_append_left hlt] at hr
      exact h.waiting n i r hr hstate hn
    · rw [ApiClient.renewed, hrenewals, List.countP_append]
      rfl

omit [DecidableEq Digest] in
/-- A renewal that fails leaves the client where it is. -/
theorem Stranded.fail (h : Stranded hashToken token w) {n : Nat}
    (hv : w.onClient (.settle n none) = some v) :
    Stranded hashToken token v ∧ v.client.renewed = w.client.renewed := by
  obtain ⟨c, hc, rfl⟩ := Option.map_eq_some_iff.mp hv
  have hkept := ApiClient.kept_step h.client hc
  simp only [ApiClient.step, Option.bind_eq_bind, Option.bind_eq_some_iff] at hc
  obtain ⟨r, hr, hc⟩ := hc
  split at hc
  · rename_i hgo
    obtain rfl := Option.some.inj hc
    have hlt := (List.getElem?_eq_some_iff.mp hr).1
    have hold : ∀ {m : Nat} {x : Renewal RefreshToken},
        (w.client.renewals.set n { r with state := .failed })[m]? = some x →
        x.state = .inFlight → w.client.renewals[m]? = some x := by
      intro m x hx hstate
      by_cases hnm : n = m
      · subst m
        rw [List.getElem?_set_self hlt] at hx
        obtain rfl := Option.some.inj hx
        cases hstate
      · rw [List.getElem?_set_ne hnm] at hx
        exact hx
    refine ⟨⟨hkept, h.holds, h.known, h.revoked, fun m i hm => ?_, ?_, ?_⟩, ?_⟩
    · exact ⟨by simpa [ApiClient.settle] using (h.posted m i hm).1, (h.posted m i hm).2⟩
    · exact fun m x hx hstate => h.presented m x (hold hx hstate) hstate
    · exact fun m i x hx hstate => h.waiting m i x (hold hx hstate) hstate
    · exact ApiClient.renewed_settle hr hgo.1 none
  · cases hc

theorem stranded_step (h : Stranded hashToken token w) {e : ConnectedEvent A}
    (hfresh : Fresh hashToken ttl e w) (hv : step hashToken ttl mint e w = some v) :
    Stranded hashToken token v ∧ v.client.renewed = w.client.renewed := by
  cases e with
  | app e =>
    cases e with
    | settle n tokens => cases hv
    | send isRefresh => exact h.app (by simp) hv
    | answer i a => exact h.app (by simp) hv
    | resume i => exact h.app (by simp) hv
    | reprendreSession => exact h.app (by simp) hv
  | post n now =>
    simp only [step, Option.bind_eq_bind, Option.bind_eq_some_iff] at hv
    obtain ⟨r, hr, token', htoken, hv⟩ := hv
    split at hv
    · cases hv
    · obtain ⟨u, hu, hv⟩ := Option.bind_eq_some_iff.mp hv
      obtain ⟨t, ht, rfl⟩ := Option.map_eq_some_iff.mp hu
      obtain rfl := Option.some.inj hv
      obtain rfl := Option.some.inj ht
      have hlt := (List.getElem?_eq_some_iff.mp hr).1
      refine ⟨⟨h.client, h.holds, h.known, h.revoked, fun m i hm => ?_, h.presented,
        fun m i x hx hstate hm => ?_⟩, rfl⟩
      · exact posted_concat h.posted hlt (by simp) m i hm
      · by_cases hmn : m = n
        · subst m
          simp only [List.lookup_cons_self, Option.some.injEq] at hm
          subst hm
          obtain rfl := Option.some.inj (hr.symm.trans hx)
          refine ⟨_, List.getElem?_concat_length, ?_, ?_⟩
          · exact Option.some.inj (htoken.symm.trans (h.presented n r hr hstate))
          · dsimp only
            split
            · exact .inr ⟨_, rfl⟩
            · exact .inl rfl
        · rw [List.lookup_cons, beq_false_of_ne hmn] at hm
          obtain ⟨q, hq, hrest⟩ := h.waiting m i x hx hstate hm
          refine ⟨q, ?_, hrest⟩
          exact (List.getElem?_append_left (List.getElem?_eq_some_iff.mp hq).1).trans hq
  | reply n =>
    simp only [step, Option.bind_eq_bind, Option.bind_eq_some_iff] at hv
    obtain ⟨i, hi, q, hq, hv⟩ := hv
    split at hv
    · -- An answer would need a renewal in flight, and what that one waits for is refused.
      rename_i pair role hstage
      obtain ⟨c, hc, -⟩ := Option.map_eq_some_iff.mp hv
      simp only [ApiClient.step, Option.bind_eq_bind, Option.bind_eq_some_iff] at hc
      obtain ⟨r, hr, hc⟩ := hc
      split at hc
      · rename_i hgo
        obtain ⟨q', hq', -, hwait⟩ := h.waiting n i r hr hgo.1 hi
        obtain rfl := Option.some.inj (hq.symm.trans hq')
        rcases hwait with hfind | ⟨e, hrefused⟩
        · rw [hstage] at hfind
          cases hfind
        · rw [hstage] at hrefused
          cases hrefused
      · cases hc
    · exact h.fail hv
    · cases hv
  | fail n => exact h.fail hv
  | server a =>
    obtain ⟨t, ht, rfl⟩ := Option.map_eq_some_iff.mp hv
    have heffect := effect_of_step ht
    obtain ⟨x, hx, hhash⟩ := h.known
    refine ⟨⟨h.client, h.holds, ?_, ?_, ?_, h.presented, ?_⟩, rfl⟩
    · obtain ⟨x', hx', -, hhash', -⟩ := sessions_kept heffect hx
      exact ⟨x', hx', hhash'.trans hhash⟩
    · intro y hy hyhash
      rcases rows_cases heffect hfresh hy with ⟨z, hz, hzhash, hrevoked⟩ | hnew
      · exact hrevoked (h.revoked z hz (hzhash.trans hyhash))
      · exact absurd (hhash.trans hyhash.symm) (hnew x hx)
    · intro n i hn
      exact ⟨(h.posted n i hn).1,
        Nat.lt_of_lt_of_le (h.posted n i hn).2 (requests_length_le heffect)⟩
    · intro n i r hr hstate hn
      obtain ⟨q, hq, htoken, hwait⟩ := h.waiting n i r hr hstate hn
      exact refused_step heffect h.revoked hq htoken hwait

omit [DecidableEq Digest] in
/-- The client gives up a renewal whose token the server has exchanged. -/
theorem Linked.stranded (h : Linked hashToken did w) {n i : Nat} {q : RefreshRequest}
    (hi : w.posted.lookup n = some i) (hq : w.tables.requests[i]? = some q)
    (hrotated : q.stage.hasRotated = true) (hv : w.onClient (.settle n none) = some v) :
    Stranded hashToken q.token v ∧ v.client.refreshToken = w.client.refreshToken := by
  obtain ⟨token, hholds, hdid, hchain, -⟩ := h.holds
  obtain ⟨hunder, hrefresh, -⟩ := h.settle hv
  rw [hunder, hi] at hchain
  cases hchain with
  | busy _ q' at_ same others under =>
    obtain rfl := Option.some.inj (hq.symm.trans at_)
    have hmem := List.mem_of_getElem? hq
    have hmine : q.token.did = did := by rw [same, hdid]
    obtain ⟨c, hc, rfl⟩ := Option.map_eq_some_iff.mp hv
    have hkept := ApiClient.kept_step h.client hc
    simp only [ApiClient.step, Option.bind_eq_bind, Option.bind_eq_some_iff] at hc
    obtain ⟨r, hr, hc⟩ := hc
    split at hc
    · obtain rfl := Option.some.inj hc
      obtain ⟨hnone, -, -⟩ := ApiClient.settle_fields n r none w.client
      have hidle : ∀ (m : Nat) (x : Renewal RefreshToken),
          (ApiClient.settle n r none w.client).renewals[m]? = some x → x.state ≠ .inFlight := by
        intro m x hx hstate
        have hcurrent := (hkept.single m x hx).mp hstate
        rw [hnone] at hcurrent
        cases hcurrent
      refine ⟨⟨hkept, ?_, h.tables.presented q hmem hmine, h.tables.spent q hmem hmine hrotated,
        fun m j hm => ?_, fun m x hx hstate => absurd hstate (hidle m x hx),
        fun m j x hx hstate => absurd hstate (hidle m x hx)⟩, hrefresh⟩
      · rw [same]
        exact hrefresh.trans hholds
      · simpa [ApiClient.settle] using h.posted m j hm
    · cases hc

/-- When the answer to a renewal is lost after the server has exchanged its token, no later
renewal succeeds: the client goes on presenting a token whose session is revoked. -/
theorem lost_answer_final (hashToken : RefreshToken → Digest) (ttl : Nat)
    (mint : RefreshToken → A) (devices : List Device) (roles : List (Uuid × String))
    (sub did id jti now : Nat) (events later : List (ConnectedEvent A))
    {u v w : Connected A Digest} {n i : Nat} {q : RefreshRequest}
    (hcalm : Always (step hashToken ttl mint) (Calm hashToken ttl did) events
      (login hashToken ttl mint devices roles sub did id jti now))
    (hw : run (step hashToken ttl mint) events
      (login hashToken ttl mint devices roles sub did id jti now) = some w)
    (hi : w.posted.lookup n = some i) (hq : w.tables.requests[i]? = some q)
    (hrotated : q.stage.hasRotated = true) (hv : step hashToken ttl mint (.fail n) w = some v)
    (hfresh : Always (step hashToken ttl mint) (Fresh hashToken ttl) later v)
    (hu : run (step hashToken ttl mint) later v = some u) :
    u.client.refreshToken = some q.token ∧ u.client.renewed = v.client.renewed ∧
      ∀ x ∈ u.tables.sessions, x.refreshTokenHash = hashToken q.token → x.revokedAt ≠ none := by
  have hlinked : Linked hashToken did w := run_invariant_of_always (Linked hashToken did)
    (fun _ _ _ hs hc ht => linked_step hs hc ht)
    (linked_login devices roles sub did id jti now) hcalm hw
  have hstranded := (hlinked.stranded hi hq hrotated hv).1
  have hend : Stranded hashToken q.token u ∧ u.client.renewed = v.client.renewed := by
    refine run_invariant_of_always
      (fun x => Stranded hashToken q.token x ∧ x.client.renewed = v.client.renewed) ?_
      ⟨hstranded, rfl⟩ hfresh hu
    rintro e x y ⟨hx, hsame⟩ hf hy
    obtain ⟨hy, hsame'⟩ := stranded_step hx hf hy
    exact ⟨hy, hsame'.trans hsame⟩
  exact ⟨hend.1.holds, hend.2, hend.1.revoked⟩

/-- The answer is lost on the way, and the next renewal is refused. -/
theorem lostOnTheWay_final :
    ∃ u : Connected Nat RefreshToken, u.client.refreshToken = some ⟨100, 10, 1, 50⟩ ∧
      u.client.renewed = 0 ∧ u.tables.requests.map (·.stage) =
        [.issue, .refused ⟨401, "session révoquée ou expirée"⟩] ∧
      ∀ x ∈ u.tables.sessions, x.refreshTokenHash = ⟨100, 10, 1, 50⟩ → x.revokedAt ≠ none := by
  have h := lost_answer_final id 50 RefreshToken.jti [] [] 100 10 1 1 0
    [.app .reprendreSession, .post 0 6, .server (.findSession 0 6), .server (.rotate 0 6)]
    [.app .reprendreSession, .post 1 9, .server (.findSession 1 9), .reply 1]
    (by decide) rfl (n := 0) rfl rfl rfl rfl (by decide) rfl
  exact ⟨_, h.1, h.2.1, by decide, h.2.2⟩

end Connected

end ZiaCrypte.App
