import ZiaCrypte.Update.UpdateService

/-!
# Which signed file an attacker can have installed

An attacker who serves the metadata and the files, without the release key, has the files
that were signed, with any of their versions, and for any platform. Each of these can be
handed back.
-/
namespace ZiaCrypte.Update

open ZiaCrypte.Engine
open ZiaCrypte.Inbox (Text Json text field)

structure Artifact where
  platform : Platform
  version : Text
  bytes : Bytes
  deriving DecidableEq

section

variable {SecretKey : Type}

/-- The artifacts that were ever signed; no two files have the same SHA-512. -/
structure Releases (c : Signatures SecretKey) where
  artifacts : List Artifact
  collisionFree : ∀ a ∈ artifacts, ∀ b ∈ artifacts, c.sha512 a.bytes = c.sha512 b.bytes →
    a.bytes = b.bytes

/-- An attacker serves whatever it likes, and has no signature for a digest that was not signed,
nor another file with the digest of an artifact. -/
structure Attacker (c : Signatures SecretKey) (sk : SecretKey) (signed : Releases c) extends
    Served where
  unforged : ∀ url url' file signature, download url = some file →
    get url' = some (some signature) →
    c.verifyDetached signature (c.sha512 file) (c.publicKey sk) = true →
      ∃ a ∈ signed.artifacts, c.sha512 a.bytes = c.sha512 file
  collisionFree : ∀ url file, download url = some file → ∀ a ∈ signed.artifacts,
    c.sha512 a.bytes = c.sha512 file → a.bytes = file

variable {c : Signatures SecretKey} {sk : SecretKey} (config : UpdateConfig c sk)
  (signed : Releases c)

/-- The file of a signed artifact of the running platform, of a newer version. -/
def Installable (file : Bytes) : Prop :=
  ∃ a ∈ signed.artifacts, a.bytes = file ∧ a.platform = config.platform ∧
    isNewer a.version config.version = true

/-- Nothing that is served makes for an update: no key is embedded, or no artifact is for the
platform, or no version is newer. -/
def NoUpdates : Prop :=
  config.publicKeyBase64 = [] ∨ c.base64Decode config.publicKeyBase64 = none ∨
    config.platform.assetName = none ∨ ∀ tag, isNewer tag config.version = false

/-! ## What is handed back -/

variable {config} {signed}

theorem check_some {platform : Platform} {version : Text} {response : Option Json}
    {info : UpdateInfo} (h : check platform version response = some info) :
    platform.assetName = some info.assetName ∧ ∃ tag, isNewer tag version = true := by
  obtain ⟨asset, hasset, h⟩ := Option.bind_eq_some_iff.mp h
  obtain ⟨json, -, h⟩ := Option.bind_eq_some_iff.mp h
  obtain ⟨data, -, h⟩ := Option.bind_eq_some_iff.mp h
  obtain ⟨tag, -, h⟩ := Option.bind_eq_some_iff.mp h
  split at h
  · rename_i hnewer
    obtain ⟨assets, -, h⟩ := Option.bind_eq_some_iff.mp h
    obtain ⟨urls, -, h⟩ := Option.bind_eq_some_iff.mp h
    obtain ⟨url, -, h⟩ := Option.bind_eq_some_iff.mp h
    obtain ⟨body, -, h⟩ := Option.bind_eq_some_iff.mp h
    obtain rfl := Option.some.inj h
    exact ⟨hasset, _, hnewer⟩
  · cases h

/-- A file whose signature verifies under the embedded key is handed back. -/
theorem verifyDownloaded_eq {deleted : Bool} {target : Text} {file signature pk : Bytes}
    (hlength : signature.length = 64) (hkey : c.base64Decode config.publicKeyBase64 = some pk)
    (hverify : c.verifyDetached signature (c.sha512 file) pk = true) :
    verifyDownloaded config deleted target file signature = ⟨.ok target, some file⟩ := by
  unfold verifyDownloaded ziaVerifyFileSignature
  rw [if_neg (not_not.mpr hlength), hkey]
  dsimp only
  rw [if_pos hverify]

/-- And no other is. -/
theorem verifyDownloaded_ok {deleted : Bool} {target path : Text} {file signature : Bytes}
    (h : (verifyDownloaded config deleted target file signature).outcome = .ok path) :
    signature.length = 64 ∧ ∃ pk, c.base64Decode config.publicKeyBase64 = some pk ∧
      c.verifyDetached signature (c.sha512 file) pk = true := by
  unfold verifyDownloaded ziaVerifyFileSignature at h
  split at h
  · cases h
  rename_i hlength
  split at h
  · cases h
  rename_i pk hkey
  by_cases hverify : c.verifyDetached signature (c.sha512 file) pk = true
  · exact ⟨not_not.mp hlength, pk, hkey, hverify⟩
  · dsimp only at h
    rw [if_neg hverify] at h
    cases h

theorem downloadAndVerify_ok {served : Served} {dir : Option Text} {deleted : Bool}
    {info : UpdateInfo} {path : Text} {file : Bytes}
    (h : (downloadAndVerify config served dir deleted info).outcome = .ok path)
    (hfile : (downloadAndVerify config served dir deleted info).file = some file) :
    config.publicKeyBase64 ≠ [] ∧ ∃ url url' signature pk, served.download url = some file ∧
      served.get url' = some (some signature) ∧
        c.base64Decode config.publicKeyBase64 = some pk ∧
          c.verifyDetached signature (c.sha512 file) pk = true := by
  unfold downloadAndVerify at h hfile
  split at h
  · cases h
  rename_i hkey
  rw [if_neg hkey] at hfile
  refine ⟨hkey, ?_⟩
  split at h
  · cases h
  · cases h
  rename_i sigUrl dir hsig
  rw [hsig] at hfile
  dsimp only at h hfile
  split at h
  · cases h
  rename_i bytes hdownload
  rw [hdownload] at hfile
  dsimp only at hfile
  split at h
  · cases h
  rename_i data hget
  rw [hget] at hfile
  dsimp only at hfile
  obtain ⟨hlength, pk, hpk, hverify⟩ := verifyDownloaded_ok h
  rw [verifyDownloaded_eq hlength hpk hverify] at hfile
  obtain rfl := Option.some.inj hfile
  cases data with
  | none => cases hlength
  | some signature => exact ⟨_, sigUrl, signature, pk, hdownload, hget, hpk, hverify⟩

/-! ## A signed artifact under another tag -/

/-- An asset as the release lists it, with its name as URL. -/
def assetFields (name : Text) : List (Text × Json) :=
  [(text "name", .str name), (text "browser_download_url", .str name)]

/-- The metadata of a release with one artifact and its signature. -/
def metadata (asset tag : Text) : List (Text × Json) :=
  [(text "tag_name", .str tag),
    (text "assets", .arr [.obj (assetFields asset), .obj (assetFields (asset ++ text ".sig"))])]

theorem assetFields_name (name : Text) :
    (field (assetFields name) "name").asString? = some (some name) := rfl

theorem assetFields_url (name : Text) :
    (field (assetFields name) "browser_download_url").asString? = some (some name) := rfl

theorem pickAsset_assetFields (asset name : Text) (urls : Option Text × Option Text) :
    pickAsset asset urls (.obj (assetFields name)) =
      some (if name = asset then some name else urls.1,
        if name = asset ++ text ".sig" then some name else urls.2) := by
  unfold pickAsset
  simp only [Json.asMap, Option.bind_eq_bind, Option.bind_some, assetFields_name, assetFields_url,
    Option.some.injEq]
  by_cases hname : name = asset
  · rw [if_pos hname, if_pos hname]
    split <;> rfl
  · rw [if_neg hname, if_neg hname]
    split <;> rfl

theorem sig_ne (asset : Text) : asset ++ text ".sig" ≠ asset := by
  intro h
  have hlength := congrArg List.length h
  rw [List.length_append] at hlength
  have hsig : (text ".sig").length = 4 := by decide
  omega

/-- The metadata offers the artifact under any tag. -/
theorem check_metadata {platform : Platform} {version asset tag : Text}
    (hasset : platform.assetName = some asset) (hnewer : isNewer tag version = true) :
    check platform version (some (.obj (metadata asset tag))) =
      some ⟨stripV tag, asset, some (asset ++ text ".sig"), [], asset⟩ := by
  have htag : (field (metadata asset tag) "tag_name").asString? = some (some tag) := rfl
  have hassets : (field (metadata asset tag) "assets").asList? =
      some (some [.obj (assetFields asset), .obj (assetFields (asset ++ text ".sig"))]) := rfl
  have hbody : (field (metadata asset tag) "body").asString? = some none := rfl
  unfold check
  simp only [hasset, Option.bind_eq_bind, Option.bind_some, Json.asMap, htag, hassets, hbody,
    Option.getD_some, Option.getD_none, hnewer, if_true, List.foldlM_cons, List.foldlM_nil,
    pickAsset_assetFields, if_neg (sig_ne asset), if_neg (sig_ne asset).symm, Option.pure_def]

/-- An attacker who serves a signed artifact under a tag. -/
def replay (c : Signatures SecretKey) (sk : SecretKey) (signed : Releases c) {a : Artifact}
    (ha : a ∈ signed.artifacts) (asset tag : Text) : Attacker c sk signed where
  release := some (.obj (metadata asset tag))
  download _ := some a.bytes
  get _ := some (some (c.signDetached (c.sha512 a.bytes) sk))
  unforged _ _ file _ hdownload _ _ := ⟨a, ha, congrArg c.sha512 (Option.some.inj hdownload)⟩
  collisionFree _ file hdownload b hb hdigest := by
    obtain rfl := Option.some.inj hdownload
    exact signed.collisionFree b hb a ha hdigest

/-- The artifact is handed back. -/
theorem replay_installs {a : Artifact} (ha : a ∈ signed.artifacts) {asset tag dir : Text}
    {deleted : Bool} (hkey : config.publicKeyBase64 ≠ [])
    (hpk : c.base64Decode config.publicKeyBase64 = some (c.publicKey sk))
    (hasset : config.platform.assetName = some asset) (hnewer : isNewer tag config.version = true) :
    checkAndDownload config (replay c sk signed ha asset tag).toServed (some dir) deleted =
      some ⟨.ok (dir ++ config.platform.pathSeparator ++ asset), some a.bytes⟩ := by
  unfold checkAndDownload
  show (check config.platform config.version (some (.obj (metadata asset tag)))).map _ = _
  rw [check_metadata hasset hnewer, Option.map_some]
  congr 1
  unfold downloadAndVerify
  rw [if_neg hkey]
  exact verifyDownloaded_eq (c.length_sign _ sk) hpk (c.verify_sign _ sk)

/-- Whatever is served, the file handed back is installable: so it is exactly where nothing
makes for an update, or no artifact was signed for another platform or of a version that is
not newer, but for the bytes of one that is installable. -/
theorem handedBack_installable_iff (config : UpdateConfig c sk) (signed : Releases c) :
    (∀ (attacker : Attacker c sk signed) (dir : Option Text) (deleted : Bool) (d : Downloaded),
      checkAndDownload config attacker.toServed dir deleted = some d →
        ∀ path file, d.outcome = .ok path → d.file = some file → Installable config signed file) ↔
    (NoUpdates config ∨ ∀ a ∈ signed.artifacts, Installable config signed a.bytes) := by
  constructor
  · intro hall
    by_cases hnone : NoUpdates config
    · exact .inl hnone
    · right
      intro a ha
      simp only [NoUpdates, not_or, not_forall] at hnone
      obtain ⟨hkey, hdecode, hasset, tag, hnewer⟩ := hnone
      obtain ⟨pk, hpk⟩ := Option.ne_none_iff_exists'.mp hdecode
      obtain rfl := config.releaseKey pk hpk
      obtain ⟨asset, hname⟩ := Option.ne_none_iff_exists'.mp hasset
      have hinstalls := @replay_installs _ c sk config signed a ha asset tag [] true hkey hpk hname
        (Bool.not_eq_false _ ▸ hnewer)
      exact hall (replay c sk signed ha asset tag) (some []) true _ hinstalls _ _ rfl rfl
  · intro hcond attacker dir deleted d hd path file hok hfile
    obtain ⟨info, hcheck, rfl⟩ := Option.map_eq_some_iff.mp hd
    obtain ⟨hkey, url, url', signature, pk, hdownload, hget, hpk, hverify⟩ :=
      downloadAndVerify_ok hok hfile
    obtain ⟨hasset, tag, hnewer⟩ := check_some hcheck
    rcases hcond with hnone | hsigned
    · rcases hnone with hempty | hdecode | hname | hold
      · exact absurd hempty hkey
      · rw [hdecode] at hpk
        cases hpk
      · rw [hname] at hasset
        cases hasset
      · rw [hold tag] at hnewer
        cases hnewer
    · obtain rfl := config.releaseKey pk hpk
      obtain ⟨a, ha, hdigest⟩ := attacker.unforged url url' file signature hdownload hget hverify
      rw [← attacker.collisionFree url file hdownload a ha hdigest]
      exact hsigned a ha

end

/-! ## An older version -/

/-- 32 bytes, each of them 7, in base64. -/
def sampleKey : Text := text "BwcHBwcHBwcHBwcHBwcHBwcHBwcHBwcHBwcHBwcHBwc="

/-- Signatures of a single key, which repeat what they sign. -/
def sampleSignatures : Signatures Unit where
  sha512 bytes := bytes
  publicKey _ := List.replicate 32 7
  signDetached digest _ := (digest ++ List.replicate 64 0).take 64
  verifyDetached signature digest pk :=
    decide (signature = (digest ++ List.replicate 64 0).take 64 ∧ pk = List.replicate 32 7)
  base64Decode key := if key = sampleKey then some (List.replicate 32 7) else none
  length_sign digest _ := by simp
  verify_sign digest _ := decide_eq_true ⟨rfl, rfl⟩

/-- A build for Linux, of version 0.9.0. -/
def sampleConfig : UpdateConfig sampleSignatures () where
  platform := .linux
  version := text "0.9.0"
  publicKeyBase64 := sampleKey
  releaseKey _ hpk := (Option.some.inj hpk).symm

/-- The artifact that was signed for version 0.1.0. -/
def oldRelease : Artifact := ⟨.linux, text "0.1.0", [1]⟩

def oldReleases : Releases sampleSignatures where
  artifacts := [oldRelease]
  collisionFree _ _ _ _ hdigest := hdigest

/-- It is handed back as version 99.0.0. -/
theorem oldRelease_installed :
    (check .linux (text "0.9.0") (replay sampleSignatures () oldReleases (List.mem_singleton_self _)
      (text "ziacrypte-linux-x64.tar.gz") (text "v99.0.0")).release).map (·.version) =
        some (text "99.0.0") ∧
    ∃ attacker : Attacker sampleSignatures () oldReleases, ∃ path,
      checkAndDownload sampleConfig attacker.toServed (some (text "/tmp")) true =
        some ⟨.ok path, some [1]⟩ ∧ ¬ Installable sampleConfig oldReleases [1] := by
  refine ⟨by decide, replay sampleSignatures () oldReleases (List.mem_singleton_self oldRelease)
    (text "ziacrypte-linux-x64.tar.gz") (text "v99.0.0"), _,
    replay_installs _ (by decide) rfl rfl (by decide), ?_⟩
  intro ⟨a, ha, _, _, hnewer⟩
  obtain rfl := List.mem_singleton.mp ha
  exact absurd hnewer (by decide)

end ZiaCrypte.Update
