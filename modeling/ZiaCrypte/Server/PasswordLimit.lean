import ZiaCrypte.Server.TwoFactor

/-!
# `passwordRateLimit`, and the two routes that check a password

The key of a counter has the address in it as well as the name, and each route counts for
itself. The requests are those of one time window.
-/
namespace ZiaCrypte.Server.PasswordLimit

open ZiaCrypte.Lib

inductive PasswordRoute where
  | login
  | addDevice
  deriving DecidableEq

/-- A body, by the fields that are strings. -/
structure Body where
  username : Option Chars
  password : Option String
  totp : Option Chars
  /-- The other fields are as the schema of the route has them. -/
  others : Bool
  deriving DecidableEq

structure Request where
  route : PasswordRoute
  ip : Chars
  body : Body
  now : Nat
  deriving DecidableEq

/-- The requests of the window, and the accounts whose hash was checked, the latest first. -/
structure State where
  past : List Request
  checked : List Account

def start : State := ⟨[], []⟩

def INVALID_HASH : String :=
  "$argon2id$v=19$m=65536,t=3,p=4$AAAAAAAAAAAAAAAAAAAAAA" ++
    "$AAAAAAAAAAAAAAAAAAAAAAAAAAAAAAAAAAAAAAAAAAA"

/-- `loginSchema.parse` and `addDeviceSchema.parse` -/
def parse (body : Body) : Option (Chars × String) :=
  if body.others then do some (← body.username, ← body.password) else none

section

variable (toLowerCase : Chars → Chars) (allows : List Chars → Chars → Bool)
  (hmacSha1 : List UInt8 → List UInt8 → List UInt8) (argon2Verify : String → String → Bool)
  (users : List Account)

/-- The name that goes into a key. -/
def target (r : Request) : Chars := (r.body.username.map toLowerCase).getD []

def keyGenerator (r : Request) : Chars :=
  ['p', 'w', 'd', ':'] ++ r.ip ++ [':'] ++ target toLowerCase r

/-- The keys the store of a route has seen. -/
def store (route : PasswordRoute) (s : State) : List Chars :=
  (s.past.filter (·.route = route)).map (keyGenerator toLowerCase)

def assertSecondFactor (user : Account) (code : Option Chars) (now : Nat) :
    Except HttpError Unit :=
  match user.totpEnabledAt, user.totpSecret with
  | some _, some secret =>
      if secret = [] then .ok ()
      else if code.getD [] = [] then .error ⟨428, "TOTP_REQUIRED"⟩
      else match verifyTotp hmacSha1 secret (code.getD []) now with
        | none => .error ⟨500, "erreur interne"⟩
        | some false => .error ⟨401, "code de vérification invalide"⟩
        | some true => .ok ()
  | _, _ => .ok ()

/-- A request up to its password and its second factor: the account it is let into, or the
error. -/
def handle (r : Request) (s : State) : Except HttpError Account × State :=
  let counted := { s with past := r :: s.past }
  if !allows (store toLowerCase r.route s) (keyGenerator toLowerCase r) then
    (.error ⟨429, "trop de tentatives, réessaie dans quelques minutes"⟩, counted)
  else
    match parse r.body with
    | none => (.error invalidRequest, counted)
    | some (username, password) =>
        match users.find? (·.username = username) with
        | none =>
            -- The hash that is checked is nobody's.
            (.error ⟨401, "identifiants invalides"⟩, counted)
        | some user =>
            let checked := { counted with checked := user :: s.checked }
            if !argon2Verify (user.passwordHash.getD INVALID_HASH) password then
              (.error ⟨401, "identifiants invalides"⟩, checked)
            else match assertSecondFactor hmacSha1 user r.body.totp r.now with
              | .error e => (.error e, checked)
              | .ok () => (.ok user, checked)

def step (r : Request) (s : State) : Option State :=
  some (handle toLowerCase allows hmacSha1 argon2Verify users r s).2

end

/-- The plugin counts the requests of a key in the window, those it refuses too, and lets the
first `max` of them through. -/
def Counts (allows : List Chars → Chars → Bool) (max : Nat) : Prop :=
  ∀ seen key, allows seen key = decide (seen.count key < max)

section

variable (toLowerCase : Chars → Chars)

/-- How often the counter of a request has counted. -/
def own (r : Request) (s : State) : Nat :=
  (store toLowerCase r.route s).count (keyGenerator toLowerCase r)

/-- The requests that name an account, over both routes and from all addresses. -/
def total (u : Account) (s : State) : Nat :=
  s.past.countP fun r => target toLowerCase r = toLowerCase u.username

/-- A request for the account is let through by its own counter only where one for the name
alone would let it through. -/
def Alike (max : Nat) (u : Account) (r : Request) (s : State) : Prop :=
  target toLowerCase r = toLowerCase u.username → own toLowerCase r s < max →
    total toLowerCase u s < max

instance (max : Nat) (u : Account) (r : Request) (s : State) :
    Decidable (Alike toLowerCase max u r s) := inferInstanceAs (Decidable (_ → _ → _))

/-- Whoever names the account spells it as it is, in a body that is well formed, and a key tells
the name in it. -/
structure Plain (users : List Account) (u : Account) (requests : List Request) : Prop where
  stored : users.find? (·.username = u.username) = some u
  wellFormed : ∀ r ∈ requests, target toLowerCase r = toLowerCase u.username →
    ∃ password, parse r.body = some (u.username, password)
  keys : ∀ q ∈ requests, ∀ r ∈ requests, keyGenerator toLowerCase q = keyGenerator toLowerCase r →
    target toLowerCase q = target toLowerCase r

end

/-! ## One request -/

variable {toLowerCase : Chars → Chars} {allows : List Chars → Chars → Bool}
  {hmacSha1 : List UInt8 → List UInt8 → List UInt8} {argon2Verify : String → String → Bool}
  {users : List Account} {max : Nat} {u : Account} {r : Request} {s t : State}

variable (toLowerCase allows users) in
/-- The account whose hash a request has checked. -/
def reached (r : Request) (s : State) : Option Account :=
  if allows (store toLowerCase r.route s) (keyGenerator toLowerCase r) then
    (parse r.body).bind fun b => users.find? (·.username = b.1)
  else none

theorem step_eq (r : Request) (s : State) :
    step toLowerCase allows hmacSha1 argon2Verify users r s =
      some ⟨r :: s.past, (reached toLowerCase allows users r s).toList ++ s.checked⟩ := by
  unfold step handle reached
  cases allows (store toLowerCase r.route s) (keyGenerator toLowerCase r) with
  | false => rfl
  | true =>
    cases hparse : parse r.body with
    | none => rfl
    | some b =>
      obtain ⟨username, password⟩ := b
      simp only [Bool.not_true, Bool.false_eq_true, if_true, if_false, Option.bind_some]
      cases hfind : users.find? (·.username = username) with
      | none => rfl
      | some user =>
        dsimp only
        split
        · rfl
        · cases assertSecondFactor hmacSha1 user r.body.totp r.now <;> rfl

theorem reached_target (h : reached toLowerCase allows users r s = some u) :
    target toLowerCase r = toLowerCase u.username ∧
      allows (store toLowerCase r.route s) (keyGenerator toLowerCase r) = true := by
  unfold reached at h
  split at h
  · rename_i hallowed
    obtain ⟨⟨username, password⟩, hparse, hfind⟩ := Option.bind_eq_some_iff.mp h
    have hname : u.username = username := by simpa using List.find?_some hfind
    unfold parse at hparse
    split at hparse
    · obtain ⟨name, hbody, hrest⟩ := Option.bind_eq_some_iff.mp hparse
      obtain ⟨secret, -, hpair⟩ := Option.bind_eq_some_iff.mp hrest
      obtain ⟨rfl, -⟩ := Prod.mk.inj (Option.some.inj hpair)
      refine ⟨?_, hallowed⟩
      rw [target, hbody, hname]
      rfl
    · cases hparse
  · cases h

theorem total_cons (u : Account) (r : Request) (s : State) (checked : List Account) :
    total toLowerCase u ⟨r :: s.past, checked⟩ = total toLowerCase u s +
      if target toLowerCase r = toLowerCase u.username then 1 else 0 := by
  unfold total
  rw [List.countP_cons]
  congr 1
  exact if_congr decide_eq_true_iff rfl rfl

/-! ## The bound -/

/-- The checks of an account are at most the requests that named it, and at most `max`. -/
theorem bounded_step (hcounts : Counts allows max) (hAlike : Alike toLowerCase max u r s)
    (hs : s.checked.count u ≤ max ∧ s.checked.count u ≤ total toLowerCase u s)
    (h : step toLowerCase allows hmacSha1 argon2Verify users r s = some t) :
    t.checked.count u ≤ max ∧ t.checked.count u ≤ total toLowerCase u t := by
  rw [step_eq] at h
  obtain rfl := Option.some.inj h
  rw [total_cons]
  dsimp only
  rw [List.count_append]
  have hsame : ∀ l : List Account, l.count u = 0 →
      l.count u + s.checked.count u ≤ max ∧ l.count u + s.checked.count u ≤
        total toLowerCase u s + if target toLowerCase r = toLowerCase u.username then 1 else 0 := by
    intro l hl
    rw [hl, Nat.zero_add]
    exact ⟨hs.1, Nat.le_trans hs.2 (Nat.le_add_right _ _)⟩
  cases hreached : reached toLowerCase allows users r s with
  | none => exact hsame _ rfl
  | some v =>
    by_cases hv : v = u
    · subst hv
      obtain ⟨htarget, hallowed⟩ := reached_target hreached
      rw [hcounts, decide_eq_true_iff] at hallowed
      have hfew := hAlike htarget hallowed
      rw [if_pos htarget, Option.toList_some, List.count_singleton_self]
      omega
    · exact hsame _ (List.count_eq_zero.mpr fun hmem => hv (List.mem_singleton.mp hmem).symm)

theorem bounded_run (hcounts : Counts allows max) {requests : List Request}
    (h : Always (step toLowerCase allows hmacSha1 argon2Verify users) (Alike toLowerCase max u)
      requests start)
    (hrun : run (step toLowerCase allows hmacSha1 argon2Verify users) requests start = some s) :
    s.checked.count u ≤ max :=
  (run_invariant_of_always (fun s => s.checked.count u ≤ max ∧
      s.checked.count u ≤ total toLowerCase u s)
    (fun _ _ _ hs hAlike hstep => bounded_step hcounts hAlike hs hstep)
    ⟨Nat.zero_le _, Nat.zero_le _⟩ h hrun).1

/-! ## Where every request for the account is checked -/

theorem checked_mono {requests : List Request}
    (h : run (step toLowerCase allows hmacSha1 argon2Verify users) requests s = some t) :
    s.checked.count u ≤ t.checked.count u := by
  have hmono : ∀ r s₁ t₁, s.checked.count u ≤ s₁.checked.count u →
      step toLowerCase allows hmacSha1 argon2Verify users r s₁ = some t₁ →
        s.checked.count u ≤ t₁.checked.count u := by
    intro r s₁ t₁ hs hstep
    rw [step_eq] at hstep
    obtain rfl := Option.some.inj hstep
    rw [List.count_append]
    exact Nat.le_trans hs (Nat.le_add_left _ _)
  exact run_invariant hmono (Nat.le_refl _) h

theorem Plain.reached {requests : List Request} (h : Plain toLowerCase users u requests)
    (hcounts : Counts allows max) (hr : r ∈ requests)
    (htarget : target toLowerCase r = toLowerCase u.username)
    (hown : own toLowerCase r s < max) : reached toLowerCase allows users r s = some u := by
  obtain ⟨password, hparse⟩ := h.wellFormed r hr htarget
  have hallowed : allows (store toLowerCase r.route s) (keyGenerator toLowerCase r) = true := by
    rw [hcounts]
    exact decide_eq_true hown
  unfold PasswordLimit.reached
  rw [if_pos hallowed, hparse]
  exact h.stored

/-- The counter of a request counts requests for the same name only. -/
theorem Plain.own_le {requests : List Request} (h : Plain toLowerCase users u requests)
    (hr : r ∈ requests) (hpast : ∀ q ∈ s.past, q ∈ requests)
    (htarget : target toLowerCase r = toLowerCase u.username) :
    own toLowerCase r s ≤ total toLowerCase u s := by
  unfold own total store
  rw [List.count, List.countP_map]
  refine Nat.le_trans (List.countP_mono_left fun q hq hkey => ?_)
    (List.filter_sublist.countP_le)
  have hsame := h.keys q (hpast q (List.mem_filter.mp hq).1) r hr (by simpa using hkey)
  exact decide_eq_true (hsame.trans htarget)

/-- As many checks as requests, or `max` of them. -/
theorem Plain.many_step {requests : List Request} (h : Plain toLowerCase users u requests)
    (hcounts : Counts allows max) (hr : r ∈ requests) (hpast : ∀ q ∈ s.past, q ∈ requests)
    (hs : min max (total toLowerCase u s) ≤ s.checked.count u)
    (hstep : step toLowerCase allows hmacSha1 argon2Verify users r s = some t) :
    min max (total toLowerCase u t) ≤ t.checked.count u := by
  rw [step_eq] at hstep
  obtain rfl := Option.some.inj hstep
  rw [total_cons]
  dsimp only
  rw [List.count_append]
  by_cases htarget : target toLowerCase r = toLowerCase u.username
  · rw [if_pos htarget]
    by_cases hown : own toLowerCase r s < max
    · rw [h.reached hcounts hr htarget hown, Option.toList_some, List.count_singleton_self]
      omega
    · have hle := h.own_le hr hpast htarget
      omega
  · rw [if_neg htarget]
    omega

theorem Plain.always_alike {all : List Request} (h : Plain toLowerCase users u all)
    (hcounts : Counts allows max) {requests : List Request} (hall : ∀ r ∈ requests, r ∈ all)
    (hpast : ∀ q ∈ s.past, q ∈ all) (hs : min max (total toLowerCase u s) ≤ s.checked.count u)
    (hrun : run (step toLowerCase allows hmacSha1 argon2Verify users) requests s = some t)
    (ht : t.checked.count u ≤ max) :
    Always (step toLowerCase allows hmacSha1 argon2Verify users) (Alike toLowerCase max u)
      requests s := by
  induction requests generalizing s with
  | nil => trivial
  | cons r requests ih =>
    rw [run_cons, Option.bind_eq_some_iff] at hrun
    obtain ⟨s₁, hstep, hrest⟩ := hrun
    have hr := hall r List.mem_cons_self
    refine ⟨fun htarget hown => ?_, fun s₂ hs₂ => ?_⟩
    · refine Nat.lt_of_not_le fun hfull => ?_
      -- The account has had its checks, and this request is one more.
      have hone : s₁.checked.count u = s.checked.count u + 1 := by
        rw [step_eq, h.reached hcounts hr htarget hown] at hstep
        obtain rfl := Option.some.inj hstep
        exact List.count_cons_self
      have hmore := checked_mono (u := u) hrest
      omega
    · obtain rfl := Option.some.inj (hstep.symm.trans hs₂)
      refine ih (fun q hq => hall q (List.mem_cons_of_mem r hq)) ?_
        (h.many_step hcounts hr hpast hs hstep) hrest
      rw [step_eq] at hstep
      obtain rfl := Option.some.inj hstep
      intro q hq
      rcases List.mem_cons.mp hq with rfl | hq
      · exact hr
      · exact hpast q hq

/-- No account has its password checked more than `max` times as long as every request is let
through alike by its own counter and by one for the name alone; and where each request for the
account spells it as it is, only then. -/
theorem verifications_bounded (toLowerCase : Chars → Chars) (allows : List Chars → Chars → Bool)
    (hmacSha1 : List UInt8 → List UInt8 → List UInt8) (argon2Verify : String → String → Bool)
    (users : List Account) (max : Nat) (hcounts : Counts allows max) (u : Account)
    (requests : List Request) (s : State)
    (hrun : run (step toLowerCase allows hmacSha1 argon2Verify users) requests start = some s) :
    (Always (step toLowerCase allows hmacSha1 argon2Verify users) (Alike toLowerCase max u)
      requests start → s.checked.count u ≤ max) ∧
    (Plain toLowerCase users u requests → s.checked.count u ≤ max →
      Always (step toLowerCase allows hmacSha1 argon2Verify users) (Alike toLowerCase max u)
        requests start) :=
  ⟨fun h => bounded_run hcounts h hrun, fun hplain hle =>
    hplain.always_alike hcounts (fun _ hr => hr) (fun _ hq => nomatch hq)
      (Nat.le_trans (Nat.min_le_right _ _) (Nat.zero_le _)) hrun hle⟩

/-! ## One address, and two -/

def lowered (name : Chars) : Chars := name.map Char.toLower

/-- The plugin, with the default of `RATE_LIMIT_PASSWORD_MAX`. -/
def tenAtMost (seen : List Chars) (key : Chars) : Bool := decide (seen.count key < 10)

def noHmac (_ _ : List UInt8) : List UInt8 := List.replicate 20 0

def alice : Account := ⟨['a', 'l', 'i', 'c', 'e'], none, none, some "hash"⟩

def guess (ip name : Chars) : Request := ⟨.login, ip, ⟨some name, some "mauvais", none, true⟩, 0⟩

/-- The twelve attempts of one address come to ten checks. -/
theorem oneAddress_bounded :
    ∃ s, run (step lowered tenAtMost noHmac (fun _ _ => false) [alice])
        (List.replicate 12 (guess ['1'] alice.username)) start = some s ∧
      s.checked.count alice ≤ 10 := by
  obtain ⟨s, hrun⟩ : ∃ s, run (step lowered tenAtMost noHmac (fun _ _ => false) [alice])
      (List.replicate 12 (guess ['1'] alice.username)) start = some s := ⟨_, rfl⟩
  exact ⟨s, hrun, (verifications_bounded lowered tenAtMost noHmac (fun _ _ => false) [alice] 10
    (fun _ _ => rfl) alice _ s hrun).1 (by decide)⟩

/-- Ten attempts from one address, and one from another. -/
def elevenGuesses : List Request :=
  List.replicate 10 (guess ['1'] alice.username) ++ [guess ['2'] alice.username]

theorem elevenGuesses_checked :
    ∃ s, run (step lowered tenAtMost noHmac (fun _ _ => false) [alice]) elevenGuesses start =
      some s ∧ ¬ s.checked.count alice ≤ 10 := by
  refine ⟨_, rfl, ?_⟩
  decide

end ZiaCrypte.Server.PasswordLimit
