import ZiaCrypte.Inbox.Dart
import ZiaCrypte.Engine.Primitives
import Mathlib.Algebra.Group.Nat.Defs

/-!
# `update_service.dart`: the check for a release, and the file that is handed back

The version and the platform come from the release's metadata, which nothing signs. The
signature is on the SHA-512 of the file. SHA-512, Ed25519 and base64 are parameters.
-/
namespace ZiaCrypte.Update

open ZiaCrypte.Engine
open ZiaCrypte.Inbox (Text Json text field trim wrap64)

inductive Platform where
  | linux
  | windows
  | macos
  | android
  | other
  deriving DecidableEq

namespace Platform

def assetName : Platform → Option Text
  | .linux => some (text "ziacrypte-linux-x64.tar.gz")
  | .windows => some (text "ziacrypte-windows-x64-app.zip")
  | .macos => some (text "ziacrypte-macos-x64-app.zip")
  | .android => some (text "ziacrypte-android.apk")
  | .other => none

def pathSeparator : Platform → Text
  | .windows => [0x5c]
  | _ => [0x2f]

end Platform

/-! ## Versions -/

/-- `v.replaceAll(RegExp(r'^v'), '')` -/
def stripV : Text → Text
  | 0x76 :: rest => rest
  | t => t

def digit? (c : UInt16) : Option Nat :=
  if 0x30 ≤ c ∧ c ≤ 0x39 then some (c.toNat - 0x30) else none

def hexDigit? (c : UInt16) : Option Nat :=
  if 0x30 ≤ c ∧ c ≤ 0x39 then some (c.toNat - 0x30)
  else if 0x61 ≤ c ||| 0x20 ∧ c ||| 0x20 ≤ 0x66 then some ((c ||| 0x20).toNat - 0x61 + 10)
  else none

/-- The value of a sequence of digits that is not empty. -/
def digitsValue (base : Nat) (digit? : UInt16 → Option Nat) (digits : Text) : Option Nat :=
  if digits = [] then none
  else digits.foldlM (fun n c => (digit? c).map (n * base + ·)) 0

def parseDecimal (digits : Text) : Option Int := do
  let n ← digitsValue 10 digit? digits
  if n < 2 ^ 63 then some n else none

/-- A hexadecimal number may take all 64 bits. -/
def parseHex (digits : Text) : Option Int := do
  let n ← digitsValue 16 hexDigit? digits
  if n < 2 ^ 64 then some (wrap64 n) else none

/-- `int.tryParse`, of a part that has no sign: `split` has taken it off. -/
def intTryParse (part : Text) : Option Int :=
  match trim part with
  | 0x30 :: x :: rest => if x ||| 0x20 = 0x78 then parseHex rest else parseDecimal (0x30 :: x :: rest)
  | t => parseDecimal t

/-- `.`, `-` and `+` separate the parts. -/
def parse (v : Text) : List Int :=
  ((stripV v).splitOnP fun c => c == 0x2e || c == 0x2d || c == 0x2b).map fun p =>
    (intTryParse p).getD 0

/-- The first of so many components that differ decides. -/
def newer : Nat → List Int → List Int → Bool
  | 0, _, _ => false
  | n + 1, a, b =>
      if a.headD 0 ≠ b.headD 0 then decide (a.headD 0 > b.headD 0) else newer n a.tail b.tail

def isNewer (candidate current : Text) : Bool := newer 3 (parse candidate) (parse current)

/-! ## `check` -/

structure UpdateInfo where
  version : Text
  downloadUrl : Text
  signatureUrl : Option Text
  notes : Text
  assetName : Text
  deriving DecidableEq

/-- One turn of the loop over the assets, with the two URLs found so far. -/
def pickAsset (asset : Text) (urls : Option Text × Option Text) (a : Json) :
    Option (Option Text × Option Text) := do
  let fields ← a.asMap
  let name ← (field fields "name").asString?
  let url ← if name = some asset then (field fields "browser_download_url").asString?
    else some urls.1
  let sigUrl ← if name = some (asset ++ text ".sig") then
    (field fields "browser_download_url").asString? else some urls.2
  some (url, sigUrl)

/-- What is made of the response, which is absent where the request throws. All that throws
gives no update. -/
def check (platform : Platform) (version : Text) (response : Option Json) : Option UpdateInfo := do
  let asset ← platform.assetName
  let json ← response
  let data ← json.asMap
  let tag ← (field data "tag_name").asString?
  if isNewer (tag.getD []) version then
    let assets ← (field data "assets").asList?
    let (url, sigUrl) ← (assets.getD []).foldlM (pickAsset asset) (none, none)
    let downloadUrl ← url
    let body ← (field data "body").asString?
    some {
      version := stripV (tag.getD [])
      downloadUrl := downloadUrl
      signatureUrl := sigUrl
      notes := body.getD []
      assetName := asset }
  else none

/-! ## Signatures -/

/-- SHA-512 and Ed25519, with what libsodium says of them. -/
structure Signatures (SecretKey : Type) where
  sha512 : Bytes → Bytes
  publicKey : SecretKey → Bytes
  /-- `crypto_sign_detached` -/
  signDetached : Bytes → SecretKey → Bytes
  /-- `crypto_sign_verify_detached` of a signature, what it signs and a public key -/
  verifyDetached : Bytes → Bytes → Bytes → Bool
  base64Decode : Text → Option Bytes
  length_sign : ∀ digest sk, (signDetached digest sk).length = 64
  verify_sign : ∀ digest sk, verifyDetached (signDetached digest sk) digest (publicKey sk) = true

section

variable {SecretKey : Type} (c : Signatures SecretKey)

/-- A file that cannot be opened or read is absent. -/
def ziaVerifyFileSignature (publicKey : Bytes) (file : Option Bytes) (signature : Bytes) :
    Except ZiaError Unit :=
  match file with
  | none => .error .storageIo
  | some bytes =>
      if c.verifyDetached signature (c.sha512 bytes) publicKey then .ok ()
      else .error .signatureInvalid

/-- The `.sig` of each file that can be read, and the exit code. -/
def signer (sk : SecretKey) (fichiers : List (Option Bytes)) : List (Option Bytes) × Nat :=
  (fichiers.map fun f => f.map fun bytes => c.signDetached (c.sha512 bytes) sk,
    if fichiers.any (·.isNone) then 1 else 0)

/-- What the signer signs verifies. -/
theorem signer_verifies (sk : SecretKey) {fichiers : List (Option Bytes)} {i : Nat} {bytes : Bytes}
    (hi : fichiers[i]? = some (some bytes)) : ∃ signature,
      (signer c sk fichiers).1[i]? = some (some signature) ∧ signature.length = 64 ∧
        ziaVerifyFileSignature c (c.publicKey sk) (some bytes) signature = .ok () := by
  refine ⟨c.signDetached (c.sha512 bytes) sk, ?_, c.length_sign _ _, if_pos (c.verify_sign _ _)⟩
  show (fichiers.map _)[i]? = _
  rw [List.getElem?_map, hi]
  rfl

/-! ## `downloadAndVerify` -/

/-- A build of the application, which embeds the public half of the release key or no key. -/
structure UpdateConfig (sk : SecretKey) where
  platform : Platform
  version : Text
  publicKeyBase64 : Text
  releaseKey : ∀ pk, c.base64Decode publicKeyBase64 = some pk → pk = c.publicKey sk

/-- What is served: the metadata, the file under a URL, and the bytes of a response, if it has
any. What is absent throws. -/
structure Served where
  release : Option Json
  download : Text → Option Bytes
  get : Text → Option (Option Bytes)

inductive UpdateFailure where
  | refused (message : String)
  | thrown
  deriving DecidableEq

/-- The path that is returned, and the file that is there then. -/
structure Downloaded where
  outcome : Except UpdateFailure Text
  file : Option Bytes

variable {c} {sk : SecretKey} (config : UpdateConfig c sk)

/-- The last part, with the file that was downloaded; removing a file that is refused may
fail. -/
def verifyDownloaded (deleted : Bool) (target : Text) (file signature : Bytes) : Downloaded :=
  if signature.length ≠ 64 then ⟨.error (.refused "Signature de taille inattendue."), some file⟩
  else
    match c.base64Decode config.publicKeyBase64 with
    | none => ⟨.error .thrown, some file⟩
    | some pk =>
        match ziaVerifyFileSignature c pk (some file) signature with
        | .ok _ => ⟨.ok target, some file⟩
        | .error _ => ⟨.error (.refused ("La signature du fichier téléchargé est invalide. Mise " ++
            "à jour ABANDONNÉE — le fichier a été supprimé.")), if deleted then none else some file⟩

def downloadAndVerify (served : Served) (dir : Option Text) (deleted : Bool) (info : UpdateInfo) :
    Downloaded :=
  if config.publicKeyBase64 = [] then
    ⟨.error (.refused ("Aucune clé de signature n’est intégrée à cette version : " ++
      "la mise à jour automatique est désactivée.")), none⟩
  else
    match info.signatureUrl, dir with
    | none, _ => ⟨.error (.refused ("Cette release ne publie pas de signature. Mise à jour " ++
        "refusée : on n’installe pas du code non authentifié.")), none⟩
    | some _, none => ⟨.error .thrown, none⟩
    | some sigUrl, some dir =>
        let target := dir ++ config.platform.pathSeparator ++ info.assetName
        match served.download info.downloadUrl with
        | none => ⟨.error .thrown, none⟩
        | some file =>
            match served.get sigUrl with
            | none => ⟨.error .thrown, some file⟩
            | some data => verifyDownloaded config deleted target file (data.getD [])

/-- `check`, and what it finds handed to `downloadAndVerify`. -/
def checkAndDownload (served : Served) (dir : Option Text) (deleted : Bool) : Option Downloaded :=
  (check config.platform config.version served.release).map
    (downloadAndVerify config served dir deleted)

end

end ZiaCrypte.Update
