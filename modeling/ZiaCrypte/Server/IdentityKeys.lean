import ZiaCrypte.Server.PasswordLimit
import ZiaCrypte.Server.Prekeys

/-!
# Registrations and new devices, statement by statement

`createDevice` looks for the identity key before it inserts it. What a transaction inserts is
seen by others when it commits. `Buffer.from(b64, 'base64')`, `argon2.verify` and
`createHmac('sha1')` are parameters.
-/
namespace ZiaCrypte.Server.Registrations

open ZiaCrypte.Engine ZiaCrypte.Lib

structure User extends Account where
  id : Uuid
  deriving DecidableEq

/-- The keys are in base64. -/
structure DeviceRegistration where
  identityPublicKey : Chars
  signedPrekey : Chars
  signedPrekeySignature : Chars
  oneTimePrekeys : List Chars
  deriving DecidableEq

/-- A request that its schema and its limit have let through. -/
inductive Call where
  | register (username : Chars) (password : String) (device : DeviceRegistration)
  | addDevice (username : Chars) (password : String) (totp : Option Chars)
      (device : DeviceRegistration)
  | postDevices (claims : Claims) (reg : DeviceRegistration)

def Call.device : Call → DeviceRegistration
  | .register _ _ device => device
  | .addDevice _ _ _ device => device
  | .postDevices _ reg => reg

structure DecodedKeys where
  identityKey : Bytes
  spk : Bytes
  spkSig : Bytes
  deriving DecidableEq

/-- The statement a request is at. A transaction carries the rows it has inserted, and how many
devices its lookup has seen. -/
inductive Stage where
  | lookup
  | createUser
  | findClash (user : Option User) (userId : Uuid)
  | createDevice (user : Option User) (userId : Uuid) (keys : DecodedKeys) (seen : Nat)
  | createSignedPrekey (user : Option User) (device : DeviceKeys) (keys : DecodedKeys) (seen : Nat)
  | createOneTimePrekeys (user : Option User) (device : DeviceKeys) (signed : SignedPrekey)
      (seen : Nat)
  | commit (user : Option User) (device : DeviceKeys) (signed : SignedPrekey)
      (prekeys : List OneTimePrekey) (seen : Nat)
  | answered (userId deviceId : Uuid)
  | refused (e : HttpError)
  deriving DecidableEq

/-- The account a transaction has inserted. -/
def Stage.newUser : Stage → Option User
  | .findClash user _ => user
  | .createDevice user _ _ _ => user
  | .createSignedPrekey user _ _ _ => user
  | .createOneTimePrekeys user _ _ _ => user
  | .commit user _ _ _ _ => user
  | _ => none

/-- The identity key a transaction has looked up, and what the lookup has seen. -/
def Stage.lookedUp : Stage → Option (Bytes × Nat)
  | .createDevice _ _ keys seen => some (keys.identityKey, seen)
  | .createSignedPrekey _ device _ seen => some (device.identityPublicKey, seen)
  | .createOneTimePrekeys _ device _ seen => some (device.identityPublicKey, seen)
  | .commit _ device _ _ seen => some (device.identityPublicKey, seen)
  | _ => none

/-- The same, of a transaction that is about to commit. -/
def Stage.committing : Stage → Option (Bytes × Nat)
  | .commit _ device _ _ seen => some (device.identityPublicKey, seen)
  | _ => none

structure Request where
  call : Call
  stage : Stage

/-- The tables, and the requests in the order they began. -/
structure State where
  users : List User
  keys : PrekeyTables
  requests : List Request

/-- A statement of one request, with the ids it draws and its clock. -/
inductive Action where
  | lookup (env : RequestEnv)
  | createUser (env : RequestEnv) (passwordHash : String)
  | findClash
  | createDevice (env : RequestEnv)
  | createSignedPrekey (env : RequestEnv)
  | createOneTimePrekeys (env : RequestEnv)
  | commit

inductive Statement where
  | request (call : Call)
  | execute (request : Nat) (action : Action)

def start : State := ⟨[], ⟨[], [], []⟩, []⟩

def PUBLIC_KEY_LEN : Nat := 32

def SIGNATURE_LEN : Nat := 64

section

variable (bufferFrom : Chars → Bytes) (hmacSha1 : List UInt8 → List UInt8 → List UInt8)
  (argon2Verify : String → String → Bool)

def decodeKey (b64 : Chars) (expectedLen : Nat) (field : String) : Except HttpError Bytes :=
  let buf := bufferFrom b64
  if buf.length ≠ expectedLen then
    .error ⟨400, field ++ " : longueur invalide (attendu " ++ toString expectedLen ++ " octets)"⟩
  else .ok buf

def decodeKeys (reg : DeviceRegistration) : Except HttpError DecodedKeys := do
  let identityKey ← decodeKey bufferFrom reg.identityPublicKey PUBLIC_KEY_LEN "identityPublicKey"
  let spk ← decodeKey bufferFrom reg.signedPrekey PUBLIC_KEY_LEN "signedPrekey"
  let spkSig ← decodeKey bufferFrom reg.signedPrekeySignature SIGNATURE_LEN "signedPrekeySignature"
  pure { identityKey, spk, spkSig }

/-- The rows of `createMany`. -/
def oneTimeRows (env : RequestEnv) (deviceId : Uuid) (otpks : List Chars) :
    Except HttpError (List OneTimePrekey) := do
  let publicKeys ← otpks.mapM fun otpk => decodeKey bufferFrom otpk PUBLIC_KEY_LEN "oneTimePrekey"
  pure (publicKeys.mapIdx fun n publicKey => ⟨env.fresh n, deviceId, publicKey, none, env.now⟩)

/-- What comes before the transaction. -/
def lookup (env : RequestEnv) (s : State) : Call → Stage
  | .register username _ _ =>
      if s.users.any (·.username = username) then
        .refused ⟨409, "nom d’utilisateur déjà pris"⟩
      else .createUser
  | .addDevice username password totp _ =>
      match s.users.find? (·.username = username) with
      | none => .refused ⟨401, "identifiants invalides"⟩
      | some user =>
          if !argon2Verify (user.passwordHash.getD PasswordLimit.INVALID_HASH) password then
            .refused ⟨401, "identifiants invalides"⟩
          else match PasswordLimit.assertSecondFactor hmacSha1 user.toAccount totp env.now with
            | .error e => .refused e
            | .ok () => .findClash none user.id
  | .postDevices claims _ =>
      match s.keys.devices.find? (·.id = claims.did) with
      | none => .refused ⟨401, "cet appareil a été révoqué"⟩
      | some device =>
          if !device.isActive || device.userId ≠ claims.sub then
            .refused ⟨401, "cet appareil a été révoqué"⟩
          else .findClash none claims.sub

/-- `tx.user.create`; `none` while another transaction has the name. -/
def createUser (env : RequestEnv) (passwordHash : String) (s : State) : Call → Option Stage
  | .register username _ _ =>
      if s.users.any (·.username = username) then some (.refused ⟨500, "erreur interne"⟩)
      else if s.requests.any fun r => r.stage.newUser.any (·.username = username) then none
      else some (.findClash (some ⟨⟨username, none, none, some passwordHash⟩, env.fresh 0⟩)
        (env.fresh 0))
  | _ => none

def findClash (s : State) (reg : DeviceRegistration) (user : Option User) (userId : Uuid) : Stage :=
  match decodeKeys bufferFrom reg with
  | .error e => .refused e
  | .ok keys =>
      if s.keys.devices.any (·.identityPublicKey = keys.identityKey) then
        .refused ⟨409, "cette clé d’identité est déjà utilisée par un autre appareil"⟩
      else .createDevice user userId keys s.keys.devices.length

def createOneTimePrekeys (env : RequestEnv) (reg : DeviceRegistration) (user : Option User)
    (device : DeviceKeys) (signed : SignedPrekey) (seen : Nat) : Stage :=
  match oneTimeRows bufferFrom env device.id reg.oneTimePrekeys with
  | .error e => .refused e
  | .ok prekeys => .commit user device signed prekeys seen

/-- Where a request is after a statement of its own that is not the commit. -/
def next (s : State) (call : Call) : Action → Stage → Option Stage
  | .lookup env, .lookup => some (lookup hmacSha1 argon2Verify env s call)
  | .createUser env passwordHash, .createUser => createUser env passwordHash s call
  | .findClash, .findClash user userId => some (findClash bufferFrom s call.device user userId)
  | .createDevice env, .createDevice user userId keys seen =>
      some (.createSignedPrekey user ⟨⟨env.fresh 0, userId, true⟩, keys.identityKey, env.now⟩
        keys seen)
  | .createSignedPrekey env, .createSignedPrekey user device keys seen =>
      some (.createOneTimePrekeys user device
        ⟨env.fresh 0, device.id, keys.spk, keys.spkSig, true⟩ seen)
  | .createOneTimePrekeys env, .createOneTimePrekeys user device signed seen =>
      some (createOneTimePrekeys bufferFrom env call.device user device signed seen)
  | _, _ => none

/-- The tables with the rows of a transaction. -/
def insert (s : State) (user : Option User) (device : DeviceKeys) (signed : SignedPrekey)
    (prekeys : List OneTimePrekey) : State :=
  { s with
    users := s.users ++ user.toList
    keys :=
      { devices := s.keys.devices ++ [device]
        signedPrekeys := s.keys.signedPrekeys ++ [signed]
        oneTimePrekeys := s.keys.oneTimePrekeys ++ prekeys } }

def setStage (s : State) (i : Nat) (r : Request) (stage : Stage) : State :=
  { s with requests := s.requests.set i { r with stage := stage } }

def commit (s : State) (i : Nat) (r : Request) : Option State :=
  match r.stage with
  | .commit user device signed prekeys _ =>
      some (setStage (insert s user device signed prekeys) i r
        (.answered device.userId device.id))
  | _ => none

/-- What waits, or comes out of turn, is no step. -/
def step : Statement → State → Option State
  | .request call, s => some { s with requests := s.requests ++ [⟨call, .lookup⟩] }
  | .execute i .commit, s => s.requests[i]?.bind fun r => commit s i r
  | .execute i action, s => s.requests[i]?.bind fun r =>
      (next bufferFrom hmacSha1 argon2Verify s r.call action r.stage).map (setStage s i r)

end

/-! ## What is to hold, and when it does -/

/-- No two device rows have one identity key. -/
def Unique (s : State) : Prop := (s.keys.devices.map (·.identityPublicKey)).Nodup

/-- No device with the identity key that a transaction commits was committed since its lookup. -/
def NoneSince : Statement → State → Prop
  | .execute i .commit, s => ∀ r ∈ s.requests[i]?, ∀ p ∈ r.stage.committing,
      ∀ d ∈ s.keys.devices.drop p.2, d.identityPublicKey ≠ p.1
  | _, _ => True

/-- A lookup that let its transaction go on has seen no device with the key. -/
def LookedUp (s : State) : Prop :=
  ∀ r ∈ s.requests, ∀ key seen, r.stage.lookedUp = some (key, seen) →
    seen ≤ s.keys.devices.length ∧ ∀ d ∈ s.keys.devices.take seen, d.identityPublicKey ≠ key

/-! ## One statement -/

variable {bufferFrom : Chars → Bytes} {hmacSha1 : List UInt8 → List UInt8 → List UInt8}
  {argon2Verify : String → String → Bool} {s t : State} {a : Statement}

/-- What is looked up stays, and a lookup that finds nothing has seen all the devices. -/
theorem next_lookedUp {call : Call} {action : Action} {stage stage' : Stage} {key : Bytes}
    {seen : Nat} (h : next bufferFrom hmacSha1 argon2Verify s call action stage = some stage')
    (hp : stage'.lookedUp = some (key, seen)) :
    stage.lookedUp = some (key, seen) ∨
      seen = s.keys.devices.length ∧ ∀ d ∈ s.keys.devices, d.identityPublicKey ≠ key := by
  unfold next at h
  split at h
  · obtain rfl := Option.some.inj h
    unfold lookup at hp
    repeat' split at hp
    all_goals cases hp
  · unfold createUser at h
    split at h
    · split at h
      · obtain rfl := Option.some.inj h
        cases hp
      · split at h
        · cases h
        · obtain rfl := Option.some.inj h
          cases hp
    · cases h
  · obtain rfl := Option.some.inj h
    unfold findClash at hp
    split at hp
    · cases hp
    · split at hp
      · cases hp
      · rename_i hclash
        obtain ⟨rfl, rfl⟩ := Prod.mk.inj (Option.some.inj hp)
        refine .inr ⟨rfl, fun d hd hkey => hclash ?_⟩
        rw [List.any_eq_true]
        exact ⟨d, hd, decide_eq_true hkey⟩
  · obtain rfl := Option.some.inj h
    exact .inl hp
  · obtain rfl := Option.some.inj h
    exact .inl hp
  · obtain rfl := Option.some.inj h
    unfold createOneTimePrekeys at hp
    split at hp
    · cases hp
    · exact .inl hp
  · cases h

/-- A statement other than a commit leaves the tables, and a commit inserts the rows of its
transaction. -/
theorem step_cases (h : step bufferFrom hmacSha1 argon2Verify a s = some t) :
    (t.keys = s.keys ∧ (∀ i, a ≠ .execute i .commit) ∧
      ∀ r ∈ t.requests, r ∈ s.requests ∨ ∀ key seen, r.stage.lookedUp = some (key, seen) →
        (∃ r' ∈ s.requests, r'.stage.lookedUp = some (key, seen)) ∨
          seen = s.keys.devices.length ∧ ∀ d ∈ s.keys.devices, d.identityPublicKey ≠ key) ∨
    ∃ i r user device signed prekeys seen, a = .execute i .commit ∧ s.requests[i]? = some r ∧
      r.stage = .commit user device signed prekeys seen ∧
      t = setStage (insert s user device signed prekeys) i r
        (.answered device.userId device.id) := by
  unfold step at h
  split at h
  · rename_i call
    obtain rfl := Option.some.inj h
    refine .inl ⟨rfl, fun i => nofun, fun r hr => ?_⟩
    rcases mem_concat_cases hr with hold | rfl
    · exact .inl hold
    · exact .inr fun key seen h => (by cases h)
  · rename_i i
    obtain ⟨r, hr, h⟩ := Option.bind_eq_some_iff.mp h
    unfold commit at h
    split at h
    · rename_i user device signed prekeys seen hstage
      exact .inr ⟨i, r, user, device, signed, prekeys, seen, rfl, hr, hstage,
        (Option.some.inj h).symm⟩
    · cases h
  · rename_i i action hcommit
    obtain ⟨r, hr, h⟩ := Option.bind_eq_some_iff.mp h
    obtain ⟨stage, hnext, rfl⟩ := Option.map_eq_some_iff.mp h
    refine .inl ⟨rfl, fun j heq => ?_, fun r' hr' => ?_⟩
    · cases heq
      exact hcommit rfl
    · rcases mem_set_cases hr' with hold | rfl
      · exact .inl hold
      · refine .inr fun key seen hp => ?_
        rcases next_lookedUp hnext hp with hwas | hnow
        · exact .inl ⟨r, List.mem_of_getElem? hr, hwas⟩
        · exact .inr hnow

theorem lookedUp_start : LookedUp start := fun r hr => (by cases hr)

theorem unique_start : Unique start := List.nodup_nil

/-- Devices are added behind those that a lookup has seen. -/
theorem lookedUp_step (hs : LookedUp s)
    (h : step bufferFrom hmacSha1 argon2Verify a s = some t) : LookedUp t := by
  rcases step_cases h with ⟨hkeys, -, hrequests⟩ |
    ⟨i, r, user, device, signed, prekeys, seen, -, hr, hstage, rfl⟩
  · intro r hr key seen hp
    rw [hkeys]
    rcases hrequests r hr with hold | hnew
    · exact hs r hold key seen hp
    · rcases hnew key seen hp with ⟨r', hr', hp'⟩ | ⟨rfl, hnone⟩
      · exact hs r' hr' key seen hp'
      · rw [List.take_length]
        exact ⟨Nat.le_refl _, hnone⟩
  · intro r' hr' key seen' hp
    rcases mem_set_cases hr' with hold | rfl
    · obtain ⟨hle, hnone⟩ := hs r' hold key seen' hp
      refine ⟨?_, fun d hd => hnone d ?_⟩
      · show seen' ≤ (s.keys.devices ++ [device]).length
        rw [List.length_append]
        exact Nat.le_trans hle (Nat.le_add_right _ _)
      · have htake : (s.keys.devices ++ [device]).take seen' = s.keys.devices.take seen' :=
          List.take_append_of_le_length hle
        exact htake ▸ hd
    · cases hp

/-- The rows stay without repetition exactly where the device that is committed has a key of
its own. -/
theorem unique_insert {user : Option User} {device : DeviceKeys} {signed : SignedPrekey}
    {prekeys : List OneTimePrekey} (hs : Unique s) :
    Unique (insert s user device signed prekeys) ↔
      ∀ d ∈ s.keys.devices, d.identityPublicKey ≠ device.identityPublicKey := by
  constructor
  · intro hunique d hd hkey
    unfold Unique insert at hunique
    rw [List.map_append, List.nodup_append] at hunique
    exact hunique.2.2 _ (List.mem_map_of_mem hd) _ List.mem_cons_self hkey
  · intro hnew
    exact nodup_map_concat hs hnew

/-- Of one statement: the rows stay without repetition where its condition is met. -/
theorem reaches_unique_iff (hlooked : LookedUp s) (hs : Unique s) :
    Reaches (step bufferFrom hmacSha1 argon2Verify) Unique a s ↔ NoneSince a s := by
  constructor
  · intro hreaches
    unfold NoneSince
    split
    · rename_i i
      intro r hr p hp d hd
      cases hstage : r.stage with
      | commit user device signed prekeys seen =>
        have hstep : step bufferFrom hmacSha1 argon2Verify (.execute i .commit) s =
            some (setStage (insert s user device signed prekeys) i r
              (.answered device.userId device.id)) := by
          show s.requests[i]?.bind (fun r => commit s i r) = _
          rw [Option.mem_def.mp hr, Option.bind_some, commit, hstage]
        have hunique := hreaches _ hstep
        have hinsert : Unique (insert s user device signed prekeys) := hunique
        rw [hstage] at hp
        obtain rfl := Option.some.inj hp
        exact (unique_insert hs).mp hinsert d (List.mem_of_mem_drop hd)
      | _ =>
        rw [hstage] at hp
        cases hp
    · trivial
  · intro hnone t ht
    rcases step_cases ht with ⟨hkeys, -, -⟩ |
      ⟨i, r, user, device, signed, prekeys, seen, rfl, hr, hstage, rfl⟩
    · unfold Unique
      rw [hkeys]
      exact hs
    · have hinsert : Unique (insert s user device signed prekeys) ↔ _ := unique_insert hs
      refine hinsert.mpr fun d hd => ?_
      have hp : r.stage.lookedUp = some (device.identityPublicKey, seen) := by rw [hstage]; rfl
      rw [← List.take_append_drop seen s.keys.devices] at hd
      rcases List.mem_append.mp hd with hbefore | hsince
      · exact (hlooked r (List.mem_of_getElem? hr) _ _ hp).2 d hbefore
      · exact hnone r hr _ (by rw [hstage]; rfl) d hsince

/-! ## Whole runs -/

/-- Along every interleaving, no two devices have one identity key exactly where every device
that is committed has a key of which none was committed since its lookup. -/
theorem identityKeys_unique_iff (bufferFrom : Chars → Bytes)
    (hmacSha1 : List UInt8 → List UInt8 → List UInt8) (argon2Verify : String → String → Bool)
    (statements : List Statement) :
    Always (step bufferFrom hmacSha1 argon2Verify)
        (Reaches (step bufferFrom hmacSha1 argon2Verify) Unique) statements start ↔
      Always (step bufferFrom hmacSha1 argon2Verify) NoneSince statements start :=
  always_iff_of_invariant (fun s => LookedUp s ∧ Unique s)
    (fun _ _ t hs hunique ht => ⟨lookedUp_step hs.1 ht, hunique t ht⟩)
    (fun _ _ hs => reaches_unique_iff hs.1 hs.2) ⟨lookedUp_start, unique_start⟩

/-- Where no transaction commits while another is past the lookup of the same key, every
device that is committed has a key of its own. -/
def Apart : Statement → State → Prop
  | .execute i .commit, s => ∀ r ∈ s.requests[i]?, ∀ p ∈ r.stage.committing,
      ∀ r' ∈ s.requests.eraseIdx i, ∀ p' ∈ r'.stage.lookedUp, p'.1 ≠ p.1
  | _, _ => True

/-- The key of a device that is committed was looked up in all the devices there are. -/
def Current (s : State) : Prop :=
  ∀ r ∈ s.requests, ∀ p ∈ r.stage.lookedUp, ∀ d ∈ s.keys.devices, d.identityPublicKey ≠ p.1

theorem current_step (hs : Current s) (hapart : Apart a s)
    (h : step bufferFrom hmacSha1 argon2Verify a s = some t) : Current t := by
  rcases step_cases h with ⟨hkeys, -, hrequests⟩ |
    ⟨i, r, user, device, signed, prekeys, seen, rfl, hr, hstage, rfl⟩
  · intro r hr p hp
    rw [hkeys]
    rcases hrequests r hr with hold | hnew
    · exact hs r hold p hp
    · rcases hnew p.1 p.2 hp with ⟨r', hr', hp'⟩ | ⟨-, hnone⟩
      · exact hs r' hr' _ hp'
      · exact hnone
  · intro r' hr' p hp d hd
    have hset : r' ∈ s.requests.set i { r with stage := .answered device.userId device.id } := hr'
    obtain ⟨j, hj⟩ := List.mem_iff_getElem?.mp hset
    have hij : i ≠ j := by
      rintro rfl
      have hlt := (List.getElem?_eq_some_iff.mp hr).1
      rw [List.getElem?_set_self hlt] at hj
      obtain rfl := Option.some.inj hj
      cases hp
    rw [List.getElem?_set_ne hij] at hj
    have hother : r' ∈ s.requests.eraseIdx i :=
      List.mem_eraseIdx_iff_getElem?.mpr ⟨j, hij.symm, hj⟩
    rcases mem_concat_cases hd with hold | rfl
    · exact hs r' (List.mem_of_mem_eraseIdx hother) p hp d hold
    · exact (hapart r hr (d.identityPublicKey, seen) (by rw [hstage]; rfl) r' hother p hp).symm

/-- Transactions that do not overlap keep the identity keys apart. -/
theorem identityKeys_unique_of_apart {statements : List Statement}
    (hapart : Always (step bufferFrom hmacSha1 argon2Verify) Apart statements start) :
    Always (step bufferFrom hmacSha1 argon2Verify) NoneSince statements start := by
  refine always_of_invariant Current (fun a s t hs ha ht => current_step hs ha ht) ?_
    (fun r hr => (by cases hr)) hapart
  intro a s hs _
  unfold NoneSince
  split
  · rename_i i
    intro r hr p hp d hd
    refine hs r (List.mem_of_getElem? hr) p ?_ d (List.mem_of_mem_drop hd)
    cases hstage : r.stage with
    | commit user device signed prekeys seen =>
      rw [hstage] at hp
      exact hp
    | _ =>
      rw [hstage] at hp
      cases hp
  · trivial

/-! ## One key, twice at once -/

def sharedKey : DeviceRegistration :=
  ⟨List.replicate 32 'k', List.replicate 32 's', List.replicate 64 'g', []⟩

def firstDraw (id : Uuid) : RequestEnv := ⟨0, fun _ => id⟩

/-- The two lookups come before the two commits. -/
def twoRegistrations : List Statement :=
  [.request (.register ['a', 'l', 'i', 'c', 'e'] "password123" sharedKey),
    .request (.register ['b', 'o', 'b', '2'] "password456" sharedKey),
    .execute 0 (.lookup (firstDraw 0)), .execute 1 (.lookup (firstDraw 0)),
    .execute 0 (.createUser (firstDraw 1) "h1"), .execute 1 (.createUser (firstDraw 2) "h2"),
    .execute 0 .findClash, .execute 1 .findClash,
    .execute 0 (.createDevice (firstDraw 3)), .execute 1 (.createDevice (firstDraw 4)),
    .execute 0 (.createSignedPrekey (firstDraw 5)), .execute 1 (.createSignedPrekey (firstDraw 6)),
    .execute 0 (.createOneTimePrekeys (firstDraw 7)),
    .execute 1 (.createOneTimePrekeys (firstDraw 7)), .execute 0 .commit, .execute 1 .commit]

/-- Two devices of two accounts have one identity key. -/
theorem twoRegistrations_oneKey :
    (run (step (fun b64 => b64.map (·.toNat.toUInt8)) (fun _ _ => []) fun _ _ => false)
        twoRegistrations start).map (fun s =>
      (s.keys.devices.map (·.userId), decide (s.keys.devices.map (·.identityPublicKey)).Nodup)) =
      some ([1, 2], false) := by
  decide

end ZiaCrypte.Server.Registrations
