import ZiaCrypte.Server.Routes
import ZiaCrypte.Lib.Slots
import Mathlib.Algebra.Group.Int.Defs
import Mathlib.Algebra.Group.Nat.Defs

/-!
# `/auth/2fa`: the second factor of an account, statement by statement

Each of the three routes reads the account, decides, and writes it in a second statement
that looks at nothing. `createHmac('sha1')` and `argon2.verify` are parameters.
-/
namespace ZiaCrypte.Server

open ZiaCrypte.Lib

/-! ## `totp.ts` -/

/-- The characters of a string; a secret is ASCII throughout. -/
abbrev Chars := List Char

def B32_ALPHABET : Chars :=
  ['A', 'B', 'C', 'D', 'E', 'F', 'G', 'H', 'I', 'J', 'K', 'L', 'M', 'N', 'O', 'P', 'Q', 'R', 'S',
    'T', 'U', 'V', 'W', 'X', 'Y', 'Z', '2', '3', '4', '5', '6', '7']

/-- The inner loop of `base32Encode`, and the bits it leaves. -/
def base32Emit (value : UInt32) : Nat → Chars × Nat
  | bits + 5 =>
      let (out, left) := base32Emit value bits
      (B32_ALPHABET.getD ((value >>> bits.toUInt32) &&& 31).toNat 'A' :: out, left)
  | bits => ([], bits)

def base32EncodeFrom (value : UInt32) (bits : Nat) : List UInt8 → Chars
  | [] => if bits > 0 then
      [B32_ALPHABET.getD ((value <<< (5 - bits).toUInt32) &&& 31).toNat 'A'] else []
  | byte :: rest =>
      let value := (value <<< 8) ||| byte.toUInt32
      let (out, left) := base32Emit value (bits + 8)
      out ++ base32EncodeFrom value left rest

def base32Encode (data : List UInt8) : Chars := base32EncodeFrom 0 0 data

/-- `\s` -/
def isSpace (c : Char) : Bool :=
  [0x9, 0xa, 0xb, 0xc, 0xd, 0x20, 0xa0, 0x1680, 0x2028, 0x2029, 0x202f, 0x205f, 0x3000,
    0xfeff].contains c.toNat || (0x2000 ≤ c.toNat && c.toNat ≤ 0x200a)

def base32DecodeFrom (value : UInt32) (bits : Nat) : Chars → Option (List UInt8)
  | [] => some []
  | ch :: rest => do
      let idx ← B32_ALPHABET.idxOf? ch
      let value := (value <<< 5) ||| idx.toUInt32
      if bits + 5 ≥ 8 then
        let out ← base32DecodeFrom value (bits + 5 - 8) rest
        some (((value >>> (bits + 5 - 8).toUInt32) &&& 0xff).toUInt8 :: out)
      else base32DecodeFrom value (bits + 5) rest

/-- `none` where it throws. -/
def base32Decode (input : Chars) : Option (List UInt8) :=
  let upper := input.map Char.toUpper
  base32DecodeFrom 0 0 (((upper.reverse.dropWhile (· == '=')).reverse).filter (!isSpace ·))

def uint32BE (n : Nat) : List UInt8 :=
  [(n >>> 24).toUInt8, (n >>> 16).toUInt8, (n >>> 8).toUInt8, n.toUInt8]

/-- The counter on 64 bits; `writeUInt32BE` throws for what does not fit. -/
def counterBytes (counter : Int) : Option (List UInt8) :=
  let high := counter / 2 ^ 32
  if 0 ≤ high ∧ high < 2 ^ 32 then
    some (uint32BE high.toNat ++ uint32BE (counter % 2 ^ 32).toNat)
  else none

section

variable (hmacSha1 : List UInt8 → List UInt8 → List UInt8)

def hotp (secret : List UInt8) (counter : Int) : Option Chars := do
  let buf ← counterBytes counter
  let digest := hmacSha1 secret buf
  let offset := ((digest.getLast?.getD 0) &&& 0x0f).toNat
  let code := ((digest.getD offset 0).toNat &&& 0x7f) <<< 24 |||
    (digest.getD (offset + 1) 0).toNat <<< 16 ||| (digest.getD (offset + 2) 0).toNat <<< 8 |||
      (digest.getD (offset + 3) 0).toNat
  some ((Nat.toDigits 10 (code % 10 ^ 6)).leftpad 6 '0')

def PERIOD_SECONDS : Nat := 30

/-- The steps of the window, until one of them gives the code. -/
def anyHotp (secret : List UInt8) (cleaned : Chars) : List Int → Option Bool
  | [] => some false
  | counter :: rest => do
      let expected ← hotp hmacSha1 secret counter
      if expected = cleaned then some true else anyHotp secret cleaned rest

/-- `none` where it throws; the clock is in milliseconds. -/
def verifyTotp (secretBase32 code : Chars) (now : Nat) : Option Bool :=
  let cleaned := code.filter (!isSpace ·)
  if cleaned.length = 6 ∧ cleaned.all Char.isDigit then do
    let secret ← base32Decode secretBase32
    let step : Int := now / 1000 / PERIOD_SECONDS
    anyHotp hmacSha1 secret cleaned [step - 1, step, step + 1]
  else some false

end

/-- The characters `encodeURIComponent` leaves as they are. -/
def isUnreserved (c : Char) : Bool := c.isAlphanum || "-_.!~*'()".toList.contains c

def hexDigits (byte : UInt8) : Chars :=
  [Nat.digitChar (byte.toNat / 16), Nat.digitChar (byte.toNat % 16)].map Char.toUpper

def encodeURIComponent (s : Chars) : Chars :=
  s.flatMap fun c => if isUnreserved c then [c] else
    (String.utf8EncodeChar c).flatMap fun byte => '%' :: hexDigits byte

/-- The parameters need no encoding: a secret has letters and digits only. -/
def otpauthUri (secretBase32 account : Chars) : Chars :=
  let label := encodeURIComponent ("ZiaCrypte:".toList ++ account)
  "otpauth://totp/".toList ++ label ++ "?secret=".toList ++ secretBase32 ++
    "&issuer=ZiaCrypte&algorithm=SHA1&digits=6&period=30".toList

/-! ## The routes -/

/-- The columns of the account that the routes look at. -/
structure Account where
  username : Chars
  totpSecret : Option Chars
  totpEnabledAt : Option Nat
  passwordHash : Option String
  deriving DecidableEq

/-- A request; a setup comes with what `randomBytes` draws for it. -/
inductive TotpCall where
  | setup (random : List UInt8)
  | enable (code : Chars)
  | disable (password : String) (code : Chars)

/-- What a request writes once it has read the account. -/
inductive TotpUpdate where
  | setup (secret : Chars)
  | enable (code : Chars) (checkedAt : Nat)
  | disable
  deriving DecidableEq

inductive TotpReply where
  | secret (secret otpauthUri : Chars)
  | enabled (enabled : Bool)
  deriving DecidableEq

inductive TotpStage where
  | pending (update : TotpUpdate)
  | answered (reply : Except HttpError TotpReply)
  deriving DecidableEq

/-- A request, and the row it has read. -/
structure TotpRequest where
  read : Account
  stage : TotpStage
  deriving DecidableEq

/-- The account, the requests in the order they began, and the code of the request that
activated the second factor last, with the time it was checked at. -/
structure TwoFactor where
  account : Account
  requests : List TotpRequest
  confirmed : Option (Chars × Nat)

inductive TotpStatement where
  | find (call : TotpCall) (now : Nat)
  | update (request now : Nat)

namespace TwoFactor

def start (username : Chars) (passwordHash : Option String) : TwoFactor :=
  ⟨⟨username, none, none, passwordHash⟩, [], none⟩

/-- What is written, and answered then. -/
def apply (now : Nat) (account : Account) : TotpUpdate → Account × TotpReply
  | .setup secret => ({ account with totpSecret := some secret, totpEnabledAt := none },
      .secret secret (otpauthUri secret account.username))
  | .enable _ _ => ({ account with totpEnabledAt := some now }, .enabled true)
  | .disable => ({ account with totpSecret := none, totpEnabledAt := none }, .enabled false)

def confirmedBy (confirmed : Option (Chars × Nat)) : TotpUpdate → Option (Chars × Nat)
  | .enable code checkedAt => some (code, checkedAt)
  | _ => confirmed

def answer (s : TwoFactor) (i now : Nat) (r : TotpRequest) (update : TotpUpdate) : TwoFactor where
  account := (apply now s.account update).1
  requests := s.requests.set i { r with stage := .answered (.ok (apply now s.account update).2) }
  confirmed := confirmedBy s.confirmed update

section

variable (hmacSha1 : List UInt8 → List UInt8 → List UInt8) (argon2Verify : String → String → Bool)

/-- What a route makes of the account it has read. -/
def check (now : Nat) (account : Account) : TotpCall → Except HttpError TotpUpdate
  | .setup random =>
      if account.totpEnabledAt.isSome then .error ⟨409, "le second facteur est déjà actif"⟩
      else .ok (.setup (base32Encode random))
  | .enable code =>
      let secret := account.totpSecret.getD []
      if secret = [] then .error ⟨400, "commence par /auth/2fa/setup"⟩
      else if account.totpEnabledAt.isSome then .error ⟨409, "déjà actif"⟩
      else
        match verifyTotp hmacSha1 secret code now with
        | none => .error ⟨500, "erreur interne"⟩
        | some false => .error ⟨401, "code invalide — vérifie l’heure de ton téléphone"⟩
        | some true => .ok (.enable code now)
  | .disable password code =>
      let hash := account.passwordHash.getD ""
      let secret := account.totpSecret.getD []
      if hash = "" then .error ⟨404, "utilisateur introuvable"⟩
      else if account.totpEnabledAt = none ∨ secret = [] then
        .error ⟨400, "le second facteur n’est pas actif"⟩
      else if !argon2Verify hash password then .error ⟨401, "mot de passe invalide"⟩
      else
        match verifyTotp hmacSha1 secret code now with
        | none => .error ⟨500, "erreur interne"⟩
        | some false => .error ⟨401, "code invalide"⟩
        | some true => .ok .disable

def ask (now : Nat) (account : Account) (call : TotpCall) : TotpRequest where
  read := account
  stage := match check hmacSha1 argon2Verify now account call with
    | .error e => .answered (.error e)
    | .ok update => .pending update

def step : TotpStatement → TwoFactor → Option TwoFactor
  | .find call now, s =>
      some { s with requests := s.requests ++ [ask hmacSha1 argon2Verify now s.account call] }
  | .update i now, s => do
      let r ← s.requests[i]?
      match r.stage with
      | .answered _ => none
      | .pending update => some (s.answer i now r update)

/-! ## What is to hold, and when it does -/

/-- The code is one for the secret that is stored. -/
def ValidFor (account : Account) (code : Chars) (now : Nat) : Prop :=
  ∃ secret ∈ account.totpSecret, verifyTotp hmacSha1 secret code now = some true

/-- What a request is to have checked, of an account. -/
def Checks (account : Account) : TotpUpdate → Prop
  | .setup secret => account.totpEnabledAt = none ∨ account.totpSecret = some secret
  | .enable code checkedAt => ValidFor hmacSha1 account code checkedAt
  | .disable => True

/-- When a request writes, what it has checked is still so: the code is one for the secret
that is stored, and the second factor is not active, or is to keep its secret. -/
def StillSo : TotpStatement → TwoFactor → Prop
  | .update i _, s => ∀ r ∈ s.requests[i]?, ∀ update, r.stage = .pending update →
      Checks hmacSha1 s.account update
  | _, _ => True

/-- Nothing has written the account since the request that writes has read it. -/
def Alone : TotpStatement → TwoFactor → Prop
  | .update i _, s => ∀ r ∈ s.requests[i]?, r.read = s.account
  | _, _ => True

/-! ## What every statement keeps -/

variable {hmacSha1} {argon2Verify} {s t : TwoFactor} {r : TotpRequest} {i now : Nat}

/-- Only a request that has decided writes. -/
theorem step_update : step hmacSha1 argon2Verify (.update i now) s = some t ↔
    ∃ r update, s.requests[i]? = some r ∧ r.stage = .pending update ∧ s.answer i now r update = t := by
  constructor
  · intro ht
    obtain ⟨r, hr, ht⟩ := Option.bind_eq_some_iff.mp ht
    split at ht
    · cases ht
    · rename_i update hstage
      exact ⟨r, update, hr, hstage, Option.some.inj ht⟩
  · intro ⟨r, update, hr, hstage, ht⟩
    show (s.requests[i]?).bind _ = some t
    rw [hr, Option.bind_some, hstage, ← ht]

theorem check_checks {account : Account} {call : TotpCall} {update : TotpUpdate}
    (h : check hmacSha1 argon2Verify now account call = .ok update) :
    Checks hmacSha1 account update := by
  cases call with
  | setup random =>
    simp only [check] at h
    split at h
    · cases h
    · rename_i hactive
      obtain rfl := Except.ok.inj h
      exact .inl (Option.not_isSome_iff_eq_none.mp hactive)
  | enable code =>
    simp only [check] at h
    split at h
    · cases h
    · rename_i hsecret
      split at h
      · cases h
      · split at h
        · cases h
        · cases h
        · rename_i hvalid
          obtain rfl := Except.ok.inj h
          cases hstored : account.totpSecret with
          | none =>
            rw [hstored] at hsecret
            exact absurd rfl hsecret
          | some secret =>
            rw [hstored] at hvalid
            exact ⟨secret, hstored, hvalid⟩
  | disable password code =>
    simp only [check] at h
    repeat' split at h
    all_goals cases h
    trivial

/-- What a request that is to write has decided is what its check made of the row. -/
theorem ask_checks {account : Account} {call : TotpCall} {update : TotpUpdate}
    (h : (ask hmacSha1 argon2Verify now account call).stage = .pending update) :
    Checks hmacSha1 account update := by
  simp only [ask] at h
  split at h
  · cases h
  · rename_i update' hcheck
    obtain rfl := TotpStage.pending.inj h
    exact check_checks hcheck

variable (hmacSha1) in
def Checked (s : TwoFactor) : Prop :=
  ∀ r ∈ s.requests, ∀ update, r.stage = .pending update → Checks hmacSha1 r.read update

theorem checked_step {a : TotpStatement} (h : Checked hmacSha1 s)
    (ht : step hmacSha1 argon2Verify a s = some t) : Checked hmacSha1 t := by
  intro r hr update hstage
  cases a with
  | find call now =>
    obtain rfl := Option.some.inj ht
    rcases mem_concat_cases hr with hold | hnew
    · exact h r hold update hstage
    · obtain rfl := hnew
      exact ask_checks hstage
  | update i now =>
    obtain ⟨r', update', hr', hstage', rfl⟩ := step_update.mp ht
    rcases mem_set_cases hr with hold | rfl
    · exact h r hold update hstage
    · cases hstage

end

/-- It is so where the requests come one after the other. -/
theorem alone_stillSo (hmacSha1 : List UInt8 → List UInt8 → List UInt8)
    (argon2Verify : String → String → Bool) (username : Chars) (passwordHash : Option String)
    {statements : List TotpStatement}
    (h : Always (step hmacSha1 argon2Verify) Alone statements (start username passwordHash)) :
    Always (step hmacSha1 argon2Verify) (StillSo hmacSha1) statements
      (start username passwordHash) := by
  refine always_of_invariant (Checked hmacSha1) (fun a s t hs _ ht => checked_step hs ht) ?_ ?_ h
  · intro a s hs ha
    cases a with
    | find call now => trivial
    | update i now =>
      intro r hr update hstage
      rw [← ha r hr]
      exact hs r (List.mem_of_getElem? hr) update hstage
  · intro r hr
    cases hr

/-! ## Two setups, and the code of the first -/

/-- The bytes of `12345678901234567890`. -/
def firstKey : List UInt8 :=
  [49, 50, 51, 52, 53, 54, 55, 56, 57, 48, 49, 50, 51, 52, 53, 54, 55, 56, 57, 48]

/-- HMAC-SHA1 for the two keys and the counters 0, 1 and 2. -/
def sampleHmac (key message : List UInt8) : List UInt8 :=
  let counter := message.getLast?.getD 0
  if key = firstKey then
    if counter = 0 then [204, 147, 207, 24, 80, 141, 148, 147, 76, 100, 182, 93, 139, 167, 102,
      127, 183, 205, 228, 176]
    else if counter = 1 then [117, 164, 138, 25, 212, 203, 225, 0, 100, 78, 138, 193, 57, 126,
      234, 116, 122, 45, 51, 171]
    else [11, 172, 183, 250, 8, 47, 239, 48, 120, 34, 17, 147, 139, 193, 197, 231, 4, 22, 255, 68]
  else
    if counter = 0 then [20, 102, 116, 54, 72, 128, 106, 25, 49, 117, 66, 142, 231, 233, 151, 101,
      204, 112, 221, 21]
    else if counter = 1 then [109, 35, 129, 88, 8, 56, 123, 9, 209, 167, 102, 144, 172, 1, 84, 39,
      48, 168, 197, 86]
    else [100, 233, 94, 112, 157, 50, 160, 59, 23, 92, 210, 219, 245, 228, 187, 163, 26, 156, 64,
      229]

end TwoFactor

end ZiaCrypte.Server
