import ZiaCrypte.Channels.SafeChannels
import Mathlib.Data.List.Nodup

/-!
# The keys that devices hold

The keys of a run are told apart by their secrets and by their signing keys, and those of a
channel follow each other. A device holds a key that one of its links has opened; while it
keeps to the condition below, the key of any link it has opened, or a later one. The server
holds the key of the last link, or a later one.
-/
namespace ZiaCrypte.Channels

open ZiaCrypte.Lib ZiaCrypte.Engine ZiaCrypte.Engine.SenderKeys

variable {D K B : Type}

/-! ## Keys and their secrets -/

/-- The keys of a run. -/
structure Cles (C : Contexte D K B) (s : Monde D K B) : Prop where
  reads : ReadsInv C.primitives.toSenderKeyPrimitives C.ids s.moteurs
  secrets : s.secrets.Nodup
  courantes : ∀ m id k, s.moteurs.current (m, id) = some k →
    ∀ j ρ, s.moteurs.RotationOf j m id ρ → j ≤ k

variable {C : Contexte D K B} {s s' : Monde D K B}

theorem Cles.initial : Cles C (.initial : Monde D K B) where
  reads := readsInv_start
  secrets := List.nodup_nil
  courantes _ _ _ h := by cases h

theorem Cles.of_moteurs (h : Cles C s)
    (hreads : ReadsInv C.primitives.toSenderKeyPrimitives C.ids s'.moteurs)
    (hrotations : s'.moteurs.rotations = s.moteurs.rotations)
    (hcurrent : s'.moteurs.current = s.moteurs.current) (hsecrets : s'.secrets = s.secrets) :
    Cles C s' := by
  refine ⟨hreads, ?_, fun m id k hk j ρ hj => ?_⟩
  · rw [hsecrets]
    exact h.secrets
  · rw [hcurrent] at hk
    refine h.courantes m id k hk j ρ ⟨?_, hj.2⟩
    rw [← hrotations]
    exact hj.1

theorem Cles.of_same (h : Cles C s) (hmoteurs : s'.moteurs = s.moteurs)
    (hsecrets : s'.secrets = s.secrets) : Cles C s' := by
  refine h.of_moteurs ?_ (congrArg _ hmoteurs) (congrArg _ hmoteurs) hsecrets
  rw [hmoteurs]
  exact h.reads

/-- A key is told by its secret. -/
theorem CleDe.eq_of_secret (hnodup : s.secrets.Nodup) {k k' : Nat} {m m' : D}
    {id id' : Identifier} {secret : K} {d d' : Distribution K} (h : CleDe s k m id secret d)
    (h' : CleDe s k' m' id' secret d') : k = k' := by
  obtain ⟨-, -, -, hk⟩ := h
  obtain ⟨-, -, -, hk'⟩ := h'
  exact (List.getElem?_inj (List.getElem?_eq_some_iff.mp hk).1 hnodup).mp (hk.trans hk'.symm)

/-- A key is told by its distribution. -/
theorem Cles.eq_of_distribution (hcles : Cles C s) {k k' : Nat} {m m' : D} {id id' : Identifier}
    {secret secret' : K} {d : Distribution K} (h : CleDe s k m id secret d)
    (h' : CleDe s k' m' id' secret' d) : k = k' := by
  obtain ⟨ρ, hρ, hd, -⟩ := h
  obtain ⟨ρ', hρ', hd', -⟩ := h'
  have hdraw := (hcles.reads.members.drawn k ρ hρ.1).2 d hd
  have hdraw' := (hcles.reads.members.drawn k' ρ' hρ'.1).2 d hd'
  refine hcles.reads.rotation_eq hρ.1 hρ'.1 ?_
  exact congrArg Distribution.signingPublic (hdraw.symm.trans hdraw')

/-- A key has one sender, one channel, one secret and one distribution. -/
theorem CleDe.ids_eq {k : Nat} {m m' : D} {id id' : Identifier} {secret secret' : K}
    {d d' : Distribution K} (h : CleDe s k m id secret d) (h' : CleDe s k m' id' secret' d') :
    m = m' ∧ id = id' ∧ secret = secret' ∧ d = d' := by
  obtain ⟨ρ, ⟨hk, hm, hid⟩, hd, hsecret⟩ := h
  obtain ⟨ρ', ⟨hk', hm', hid'⟩, hd', hsecret'⟩ := h'
  obtain rfl := Option.some.inj (hk.symm.trans hk')
  exact ⟨hm.symm.trans hm', hid.symm.trans hid', Option.some.inj (hsecret.symm.trans hsecret'),
    Option.some.inj (hd.symm.trans hd')⟩

/-- The key that a device encrypts with is not older than another one of its own. -/
theorem Cles.le_courante (hcles : Cles C s) {m : D} {id : Identifier} {j k : Nat} {secret : K}
    {d : Distribution K} (hk : s.moteurs.current (m, id) = some k)
    (hj : CleDe s j m id secret d) : j ≤ k :=
  hcles.courantes m id k hk j _ hj.choose_spec.1

/-! ## The last link -/

section

variable [DecidableEq K]

theorem generation_eq_some (hnodup : s.secrets.Nodup) {secret : K} {k : Nat} :
    s.generation secret = some k ↔ s.secrets[k]? = some secret := by
  rw [Monde.generation, List.idxOf?_eq_some_iff, List.getElem?_eq_some_iff]
  refine ⟨fun ⟨hlt, hk, _⟩ => ⟨hlt, hk⟩, fun ⟨hlt, hk⟩ => ⟨hlt, hk, fun j hj hsame => ?_⟩⟩
  have hjk := (List.Nodup.getElem_inj_iff hnodup).mp (hsame.trans hk.symm)
  omega

theorem derniere_eq_some (hnodup : s.secrets.Nodup) {id : Identifier} {k : Nat} :
    s.derniere id = some k ↔
      (∃ l ∈ s.liens, l.id = id ∧ s.secrets[k]? = some l.secret) ∧
        ∀ l ∈ s.liens, l.id = id → ∀ j, s.secrets[j]? = some l.secret → j ≤ k := by
  rw [Monde.derniere, List.max?_eq_some_iff]
  have hmem : ∀ j, j ∈ (s.liens.filter (·.id = id)).filterMap (fun l => s.generation l.secret) ↔
      ∃ l ∈ s.liens, l.id = id ∧ s.secrets[j]? = some l.secret := by
    intro j
    simp only [List.mem_filterMap, List.mem_filter, decide_eq_true_eq, and_assoc]
    refine exists_congr fun l => and_congr_right fun _ => and_congr_right fun _ => ?_
    exact generation_eq_some hnodup
  rw [hmem]
  refine and_congr_right fun _ => ⟨fun h l hl hid j hj => ?_, fun h j hj => ?_⟩
  · exact h j ((hmem j).mpr ⟨l, hl, hid, hj⟩)
  · obtain ⟨l, hl, hid, hlj⟩ := (hmem j).mp hj
    exact h l hl hid j hlj

/-- A link that is the last one later is the last one now. -/
theorem derniere_of_suite (hs : Suite s s') (hnodup : s'.secrets.Nodup) {l : Lien K}
    (hl : l ∈ s.liens) {k : Nat} (hk : s.secrets[k]? = some l.secret)
    (h : s'.derniere l.id = some k) : s.derniere l.id = some k := by
  have hold : s.secrets.Nodup := hs.secrets.sublist.nodup hnodup
  refine (derniere_eq_some hold).mpr ⟨⟨l, hl, rfl, hk⟩, fun l' hl' hid j hj => ?_⟩
  exact ((derniere_eq_some hnodup).mp h).2 l' (hs.liens hl') hid j
    (getElem?_of_prefixed hs.secrets hj)

/-- The engine of a device processes the key of the link. -/
theorem Cles.rotationDe_eq (hcles : Cles C s) {j : Nat} {m : D} {id : Identifier} {secret : K}
    {d : Distribution K} (h : CleDe s j m id secret d) : s.rotationDe d = some j := by
  obtain ⟨ρ, hρ, hd, hsecret⟩ := h
  obtain ⟨hlt, hget⟩ := List.getElem?_eq_some_iff.mp hρ.1
  refine List.findIdx?_eq_some_iff_getElem.mpr ⟨hlt, by simp [hget, hd], fun n hn hnd => ?_⟩
  have hn' := Nat.lt_trans hn hlt
  have hdist : (s.moteurs.rotations.get ⟨n, hn'⟩).distribution = some d := by simpa using hnd
  have hdraw := (hcles.reads.members.drawn n _ (List.getElem?_eq_getElem hn')).2 d hdist
  have hdraw' := (hcles.reads.members.drawn j ρ hρ.1).2 d hd
  have heq := hcles.reads.rotation_eq (List.getElem?_eq_getElem hn') hρ.1
    (congrArg Distribution.signingPublic (hdraw.symm.trans hdraw'))
  omega

/-! ## Devices and links -/

/-- A device that opened a link. While it is the last one, the device has its key. -/
def Ouvrant (s : Monde D K B) (r : D) (l : Lien K) : Prop :=
  l ∈ s.liens ∧ ∃ k m d, CleDe s k m l.id l.secret d ∧
    (s.derniere l.id = some k → r = m ∨ s.moteurs.processed (r, l.id, m) = some k)

/-- A device has a key that one of its links has opened. -/
def Tenue (s : Monde D K B) (r : D) (id : Identifier) (m : D) (j : Nat) : Prop :=
  ∃ secret d, CleDe s j m id secret d ∧ ⟨id, secret⟩ ∈ s.liens ∧ (r, ⟨id, secret⟩) ∈ s.tenus

/-- A device has processed this distribution, and has its key or a later one. -/
def Traitee (s : Monde D K B) (r : D) (d : Distribution K) : Prop :=
  ∃ k m id secret, CleDe s k m id secret d ∧
    ∃ j, s.moteurs.processed (r, id, m) = some j ∧ k ≤ j

structure Detentions (C : Contexte D K B) (s : Monde D K B) : Prop where
  liens : ∀ l ∈ s.liens, ∃ b, Deposee C s l.id l.secret b
  tenues : ∀ r id m j, s.moteurs.processed (r, id, m) = some j → Tenue s r id m j
  traites : ∀ r d, (r, d) ∈ s.traites → Traitee s r d
  ouverts : ∀ r l, (r, l) ∈ s.ouverts → Ouvrant s r l

theorem Detentions.initial : Detentions C (.initial : Monde D K B) where
  liens _ h := absurd h List.not_mem_nil
  tenues _ _ _ _ h := by cases h
  traites _ _ h := absurd h List.not_mem_nil
  ouverts _ _ h := absurd h List.not_mem_nil

/-- No key that a device has is later than the last link. -/
theorem Detentions.le_derniere (h : Detentions C s) (hcles : Cles C s) {r m : D}
    {id : Identifier} {j k : Nat} (hj : s.moteurs.processed (r, id, m) = some j)
    (hk : s.derniere id = some k) : j ≤ k := by
  obtain ⟨secret, d, hcle, hlien, -⟩ := h.tenues r id m j hj
  exact ((derniere_eq_some hcles.secrets).mp hk).2 _ hlien rfl j hcle.choose_spec.2.2

/-- What there is stays, what is new is sound, and keys are replaced by later ones. -/
theorem Detentions.suite (h : Detentions C s) (hsuite : Suite s s') (hcles : Cles C s')
    (hliens : ∀ l ∈ s'.liens, l ∈ s.liens ∨ ∃ b, Deposee C s' l.id l.secret b)
    (htenues : ∀ r id m j, s'.moteurs.processed (r, id, m) = some j →
      s.moteurs.processed (r, id, m) = some j ∨ Tenue s' r id m j)
    (hplus : ∀ r id m k, s.moteurs.processed (r, id, m) = some k →
      ∃ j, s'.moteurs.processed (r, id, m) = some j ∧ k ≤ j)
    (htraites : ∀ r d, (r, d) ∈ s'.traites → (r, d) ∈ s.traites ∨ Traitee s' r d)
    (houverts : ∀ r l, (r, l) ∈ s'.ouverts → (r, l) ∈ s.ouverts ∨ Ouvrant s' r l) :
    Detentions C s' := by
  have hlinks : ∀ l ∈ s'.liens, ∃ b, Deposee C s' l.id l.secret b := by
    intro l hl
    rcases hliens l hl with hold | hnew
    · obtain ⟨b, hb⟩ := h.liens l hold
      exact ⟨b, hb.suite hsuite⟩
    · exact hnew
  have hkeys : ∀ r id m j, s'.moteurs.processed (r, id, m) = some j → Tenue s' r id m j := by
    intro r id m j hj
    rcases htenues r id m j hj with hold | hnew
    · obtain ⟨secret, d, hcle, hlien, htenu⟩ := h.tenues r id m j hold
      exact ⟨secret, d, hcle.suite hsuite, hsuite.liens hlien, hsuite.tenus htenu⟩
    · exact hnew
  refine ⟨hlinks, hkeys, fun r d hd => ?_, fun r l hl => ?_⟩
  · rcases htraites r d hd with hold | hnew
    · obtain ⟨k, m, id, secret, hcle, j, hj, hle⟩ := h.traites r d hold
      obtain ⟨j', hj', hle'⟩ := hplus r id m j hj
      exact ⟨k, m, id, secret, hcle.suite hsuite, j', hj', Nat.le_trans hle hle'⟩
    · exact hnew
  · rcases houverts r l hl with hold | hnew
    · obtain ⟨hlien, k, m, d, hcle, hlast⟩ := h.ouverts r l hold
      refine ⟨hsuite.liens hlien, k, m, d, hcle.suite hsuite, fun hk => ?_⟩
      have hbefore := derniere_of_suite hsuite hcles.secrets hlien hcle.choose_spec.2.2 hk
      rcases hlast hbefore with howner | hprocessed
      · exact .inl howner
      · -- A later key would be that of a later link.
        obtain ⟨j, hj, hle⟩ := hplus r l.id m k hprocessed
        obtain ⟨secret, d', hcle', hlien', -⟩ := hkeys r l.id m j hj
        have hge := ((derniere_eq_some hcles.secrets).mp hk).2 _ hlien' rfl j
          hcle'.choose_spec.2.2
        right
        rw [hj, Nat.le_antisymm hge hle]
    · exact hnew

/-- The keys that devices have are the same, and so are the links they opened. -/
theorem Detentions.of_same (h : Detentions C s) (hsuite : Suite s s') (hcles : Cles C s')
    (hliens : s'.liens = s.liens) (hprocessed : s'.moteurs.processed = s.moteurs.processed)
    (htraites : s'.traites = s.traites) (houverts : s'.ouverts = s.ouverts) :
    Detentions C s' := by
  refine h.suite hsuite hcles (fun l hl => .inl ?_) (fun r id m j hj => .inl ?_)
    (fun r id m k hk => ⟨k, ?_, Nat.le_refl k⟩) (fun r d hd => .inl ?_) (fun r l hl => .inl ?_)
  · rwa [← hliens]
  · rwa [← hprocessed]
  · rwa [hprocessed]
  · rwa [← htraites]
  · rwa [← houverts]

/-- The last link that the owner or a device with its key opens. -/
theorem Detentions.ouvrir (h : Detentions C s) (hcles : Cles C s) (hregistre : Registre C s)
    {r : D} {l : Lien K} (hlien : l ∈ s.liens)
    (hfidele : (s.conv? r l.id).any (·.channelIsAdmin) = true ∨
      s.generation l.secret ≠ s.derniere l.id ∨ s.detenue r l.id = s.generation l.secret) :
    Ouvrant s r l := by
  obtain ⟨b, -, k, m, d, hcle, -⟩ := h.liens l hlien
  have hgeneration := (generation_eq_some hcles.secrets).mpr hcle.choose_spec.2.2
  have hadmin := hcle.admin hregistre
  refine ⟨hlien, k, m, d, hcle, fun hk => ?_⟩
  rcases hfidele with howner | hnot | hheld
  · exact .inl (hregistre.admin_eq (admin_of_conv hregistre howner) hadmin)
  · exact absurd (hgeneration.trans hk.symm) hnot
  · right
    rw [hgeneration] at hheld
    obtain ⟨m', hm', hprocessed⟩ := Option.bind_eq_some_iff.mp hheld
    obtain ⟨c, hc, hcm'⟩ := Option.bind_eq_some_iff.mp hm'
    obtain ⟨hmem, hid⟩ := canal_of_canal? hc
    rwa [hregistre.admin_eq hadmin ⟨c, hmem, hid, hcm'⟩]

/-- A device that joins has processed what its link opened. -/
theorem Detentions.rejoindre (h : Detentions C s) (hcles : Cles C s) {r : D} {l : Lien K}
    (hguard : l ∈ s.liens ∧ ∃ k m d, CleDe s k m l.id l.secret d ∧ (r, d) ∈ s.traites) :
    Ouvrant s r l := by
  obtain ⟨hlien, k, m, d, hcle, htraite⟩ := hguard
  refine ⟨hlien, k, m, d, hcle, fun hk => .inr ?_⟩
  obtain ⟨k', m', id', secret', hcle', j, hj, hle⟩ := h.traites r d htraite
  obtain rfl := hcles.eq_of_distribution hcle hcle'
  obtain ⟨rfl, hid, -, -⟩ := hcle.ids_eq hcle'
  rw [← hid] at hj
  rw [hj, Nat.le_antisymm (h.le_derniere hcles hj hk) hle]

end

/-! ## Conditions on a run -/

variable [DecidableEq D]

instance (lu : D × Nat × Nat) (s : Monde D K B) : Decidable (lu ∈ s.lus) := inferInstance

/-- The posts that a device was to read under a key have come to it. -/
def Monde.ToutLu (s : Monde D K B) (r : D) (k : Nat) : Prop :=
  ∀ pq ∈ s.moteurs.messages.zip s.publications, pq.1.rotation = k → r ∈ pq.2.lecteurs →
    (r, k, pq.1.index) ∈ s.lus

instance (s : Monde D K B) (r : D) (k : Nat) : Decidable (s.ToutLu r k) := by
  unfold Monde.ToutLu
  infer_instance

variable [DecidableEq K] (C : Contexte D K B)

/-- What is drawn for a key was not drawn before. -/
def Tirage : CanalEvent D K B → Monde D K B → Prop
  | .settle _ (.senderKeyCreate _ _ secret) (.cree env), s =>
      secret ∉ s.secrets ∧ ∀ ρ ∈ s.moteurs.rotations,
        C.primitives.ed25519Base ρ.signing ≠ C.primitives.ed25519Base env.signing
  | _, _ => True

instance (e : CanalEvent D K B) (s : Monde D K B) : Decidable (Tirage C e s) := by
  unfold Tirage
  split <;> infer_instance

/-- No subscriber opens the last link of a channel it is in without having its key. While a
key is new and its link is not returned, nothing is published and no key is fetched, and no
older key is put after it. A key replaces an older one whose posts have come. A post comes
within the limits of the engine, and no device restarts. -/
def Fidele : CanalEvent D K B → Monde D K B → Prop
  | .act (.ouvrir r lien), s =>
      (s.conv? r lien.id).any (·.channelIsAdmin) = true ∨
        s.generation lien.secret ≠ s.derniere lien.id ∨
          s.detenue r lien.id = s.generation lien.secret
  | .settle _ (.putChannelKey d id b) (.handled _), s =>
      ∃ k ∈ s.moteurs.current (d, id), ∃ secret ∈ s.secrets[k]?,
        (ziaChannelOpenKey C.primitives true secret b).isOk = true
  | .settle _ (.channelKey id) (.handled _), s => s.courante id = s.derniere id
  | .settle _ (.senderKeyProcess r id m distribution) .done, s =>
      ∀ k ∈ s.moteurs.processed (r, id, m), ∀ j ∈ s.rotationDe distribution,
        k ≤ j ∧ (k = j ∨ s.ToutLu r k)
  | .settle _ (.senderKeyEncrypt d id _) .done, s =>
      s.moteurs.current (d, id) = s.derniere id ∧ s.moteurs.nextIndex d id + 1 < UInt32.size
  | .settle _ (.senderKeyDecrypt r i) .done, s => Members.WithinLimits C.ids r i s.moteurs
  | .crash, _ => False
  | _, _ => True

instance (e : CanalEvent D K B) (s : Monde D K B) : Decidable (Fidele C e s) := by
  unfold Fidele
  split <;> infer_instance

/-! ## What a settlement touches -/

/-- The keys, the links and the posts are left alone. -/
structure Intact (s s' : Monde D K B) : Prop where
  moteurs : s'.moteurs = s.moteurs
  secrets : s'.secrets = s.secrets
  traites : s'.traites = s.traites
  liens : s'.liens = s.liens
  ouverts : s'.ouverts = s.ouverts
  publications : s'.publications = s.publications
  lus : s'.lus = s.lus

variable {C}

/-- The calls of the engine that go through are the others. -/
theorem settle_cases (q : Request D K B) (x : Outside K) (s : Monde D K B) :
    Intact s (q.settle C x s) ∨
      (∃ d id secret env, q = .senderKeyCreate d id secret ∧ x = .cree env) ∨
      (∃ r id m d, q = .senderKeyProcess r id m d ∧ x = .done) ∨
      (∃ d id clair, q = .senderKeyEncrypt d id clair ∧ x = .done) ∨
      ∃ r i, q = .senderKeyDecrypt r i ∧ x = .done := by
  have hsame : Intact s s := ⟨rfl, rfl, rfl, rfl, rfl, rfl, rfl⟩
  cases q with
  | senderKeyCreate d id secret =>
    cases x with
    | cree env => exact .inr (.inl ⟨d, id, secret, env, rfl, rfl⟩)
    | _ => exact .inl hsame
  | senderKeyProcess r id m d =>
    cases x with
    | done => exact .inr (.inr (.inl ⟨r, id, m, d, rfl, rfl⟩))
    | _ => exact .inl hsame
  | senderKeyEncrypt d id clair =>
    cases x with
    | done => exact .inr (.inr (.inr (.inl ⟨d, id, clair, rfl, rfl⟩)))
    | _ => exact .inl hsame
  | senderKeyDecrypt r i =>
    cases x with
    | done => exact .inr (.inr (.inr (.inr ⟨r, i, rfl, rfl⟩)))
    | _ => exact .inl hsame
  | putChannelKey d id b =>
    left
    cases x with
    | handled received =>
      show Intact s (if _ then _ else s)
      split
      · exact ⟨rfl, rfl, rfl, rfl, rfl, rfl, rfl⟩
      · exact hsame
    | _ => exact hsame
  | postChannel d id message =>
    left
    cases x with
    | handled received =>
      show Intact s (if _ then _ else s)
      split
      · exact ⟨rfl, rfl, rfl, rfl, rfl, rfl, rfl⟩
      · exact hsame
    | _ => exact hsame
  | _ =>
    left
    cases x <;> first | exact hsame | exact ⟨rfl, rfl, rfl, rfl, rfl, rfl, rfl⟩

/-! ## The keys of a run -/

theorem senderKeyProcess_moteurs (hcles : Cles C s) {r : D} {j : Nat} {m : D} {id : Identifier}
    {secret : K} {d : Distribution K} (h : CleDe s j m id secret d) :
    (s.senderKeyProcess C r id m d).moteurs =
        Members.step C.primitives.toSenderKeyPrimitives C.ids (.process r j) s.moteurs ∧
      (s.senderKeyProcess C r id m d).moteurs.processed =
        Function.update s.moteurs.processed (r, id, m) (some j) ∧
      (s.senderKeyProcess C r id m d).moteurs.taken =
        Function.update s.moteurs.taken (r, id, m) [] := by
  have hrotation := hcles.rotationDe_eq h
  obtain ⟨ρ, ⟨hρ, rfl, rfl⟩, hd, -⟩ := h
  obtain ⟨hgroup, hdraw⟩ := hcles.reads.members.drawn j ρ hρ
  have hok : (ziaSenderKeyProcess (s.moteurs.engine r) ρ.group (C.ids.id ρ.sender) (some d)).1 =
      .ok () := by
    rw [hdraw d hd]
    simp [ziaSenderKeyProcess, hgroup, C.ids.ne_nil]
  refine ⟨?_, ?_, rfl⟩
  · simp only [Members.step, hρ, hd, Monde.senderKeyProcess, hrotation]
    split
    · rename_i keys heq
      rw [heq]
    · rename_i rc keys heq
      rw [heq] at hok
      cases hok
  · simp only [Monde.senderKeyProcess, hrotation]

omit [DecidableEq K] in
theorem Cles.create (h : Cles C s) {d : D} {id : Identifier} {secret : K} {env : SenderKeyEnv K}
    (hdraw : secret ∉ s.secrets ∧ ∀ ρ ∈ s.moteurs.rotations,
      C.primitives.ed25519Base ρ.signing ≠ C.primitives.ed25519Base env.signing) :
    Cles C (s.senderKeyCreate C d id secret env) := by
  refine ⟨h.reads.create hdraw.2, ?_, fun m id' k hk j ρ hj => ?_⟩
  · show (if id = [] then s.secrets else s.secrets ++ [secret]).Nodup
    split
    · exact h.secrets
    · refine List.nodup_append.mpr ⟨h.secrets, List.nodup_singleton _, fun a ha b hb hab => ?_⟩
      rw [hab, List.mem_singleton.mp hb] at ha
      exact hdraw.1 ha
  · obtain ⟨hj, hm, hid⟩ := hj
    have hrotations : (s.senderKeyCreate C d id secret env).moteurs.rotations = _ :=
      rotations_create C.primitives.toSenderKeyPrimitives C.ids (x := s.moteurs) d id env
    have hcurrent : (s.senderKeyCreate C d id secret env).moteurs.current =
        if id = [] then s.moteurs.current
        else Function.update s.moteurs.current (d, id) (some s.moteurs.rotations.length) := by
      simp only [Monde.senderKeyCreate, Members.step]
      split <;> rfl
    rw [hrotations] at hj
    rw [hcurrent] at hk
    by_cases hnil : id = []
    · rw [if_pos hnil] at hj hk
      exact h.courantes m id' k hk j ρ ⟨hj, hm, hid⟩
    · rw [if_neg hnil] at hj hk
      by_cases hsame : (m, id') = (d, id)
      · rw [hsame, Function.update_self] at hk
        have hlt := (List.getElem?_eq_some_iff.mp hj).1
        rw [List.length_append, List.length_singleton] at hlt
        obtain rfl := Option.some.inj hk
        omega
      · rw [Function.update_of_ne hsame] at hk
        refine h.courantes m id' k hk j ρ ⟨?_, hm, hid⟩
        rcases getElem?_concat_cases hj with hold | ⟨-, rfl⟩
        · exact hold
        · exact absurd (Prod.ext hm.symm hid.symm) hsame

theorem Cles.event {victime : D} (haead : AeadCorrect C.primitives.toPrimitives)
    (hsign : SignatureCorrect C.primitives.toSenderKeyPrimitives)
    (hideal : SignatureIdeal C.primitives.toSenderKeyPrimitives) (h : Cles C s)
    {e : CanalEvent D K B} (hguard : CanalGuard C e s) (htirage : Tirage C e s)
    (hfidele : Fidele C e s) : Cles C ((canalSemantics C victime).apply e s) := by
  cases e with
  | act a => cases a <;> exact h.of_same rfl rfl
  | issue q => exact h.of_same rfl rfl
  | crash => exact hfidele.elim
  | settle t q x =>
    show Cles C (q.settle C x s)
    rcases settle_cases (C := C) q x s with hsame | ⟨d, id, secret, env, rfl, rfl⟩ |
      ⟨r, id, m, d, rfl, rfl⟩ | ⟨d, id, clair, rfl, rfl⟩ | ⟨r, i, rfl, rfl⟩
    · exact h.of_same hsame.moteurs hsame.secrets
    · exact h.create htirage
    · obtain ⟨j, secret, hcle, -, -⟩ := hguard
      have hmoteurs := (senderKeyProcess_moteurs h (r := r) hcle).1
      refine h.of_moteurs ?_ rfl rfl rfl
      show ReadsInv _ C.ids (s.senderKeyProcess C r id m d).moteurs
      rw [hmoteurs]
      exact h.reads.process r j
    · have hreads := h.reads.encrypt d id true clair hfidele.2
      rcases encrypt_shape C.primitives.toSenderKeyPrimitives C.ids d id clair
        s.moteurs with
        ⟨-, hstep⟩ | ⟨bytes, keys, -, -, hstep⟩
      · exact h.of_same hstep rfl
      · have hrotations := congrArg Members.rotations hstep
        have hcurrent := congrArg Members.current hstep
        exact h.of_moteurs hreads hrotations hcurrent rfl
    · have hreads := h.reads.deliver haead hsign hideal hfidele
      obtain ⟨keys, taken, hstep, -⟩ := deliver_cases C.primitives.toSenderKeyPrimitives C.ids r i
        true s.moteurs
      have hrotations := congrArg Members.rotations hstep
      have hcurrent := congrArg Members.current hstep
      exact h.of_moteurs hreads hrotations hcurrent rfl

/-! ## Links and keys along a run -/

theorem Detentions.act {victime : D} (h : Detentions C s) (hcles : Cles C s)
    (hregistre : Registre C s) {a : Stmt D K} (hguard : a.Guard C s)
    (hfidele : Fidele C (.act a) s)
    (hcles' : Cles C ((canalSemantics C victime).apply (.act a) s)) :
    Detentions C ((canalSemantics C victime).apply (.act a) s) := by
  have hsuite : Suite s ((canalSemantics C victime).apply (.act a) s) := (pas_act hguard).suite
  cases a with
  | emettre id secret =>
    refine h.suite hsuite hcles' (fun l hl => ?_) (fun _ _ _ _ hj => .inl hj)
      (fun _ _ _ k hk => ⟨k, hk, Nat.le_refl k⟩) (fun _ _ hd => .inl hd) (fun _ _ hl => .inl hl)
    rcases List.mem_cons.mp hl with rfl | hold
    · obtain ⟨b, hb⟩ := hguard
      exact .inr ⟨b, hb.suite hsuite⟩
    · exact .inl hold
  | ouvrir r lien =>
    refine h.suite hsuite hcles' (fun _ hl => .inl hl) (fun _ _ _ _ hj => .inl hj)
      (fun _ _ _ k hk => ⟨k, hk, Nat.le_refl k⟩) (fun _ _ hd => .inl hd) (fun r' l hl => ?_)
    rcases List.mem_cons.mp hl with heq | hold
    · obtain ⟨rfl, rfl⟩ := Prod.mk.inj heq
      exact .inr (h.ouvrir hcles hregistre hguard hfidele)
    · exact .inl hold
  | rejoindre r lien adminDevice =>
    refine h.suite hsuite hcles' (fun _ hl => .inl hl) (fun _ _ _ _ hj => .inl hj)
      (fun _ _ _ k hk => ⟨k, hk, Nat.le_refl k⟩) (fun _ _ hd => .inl hd) (fun r' l hl => ?_)
    rcases List.mem_cons.mp hl with heq | hold
    · obtain ⟨rfl, rfl⟩ := Prod.mk.inj heq
      exact .inr (h.rejoindre hcles hguard)
    · exact .inl hold
  | _ => exact h.of_same hsuite hcles' rfl rfl rfl rfl

theorem Detentions.process {r m : D} {id : Identifier} {d : Distribution K}
    (h : Detentions C s) (hcles : Cles C s) (hguard : Ouverte s r id m d)
    (hfidele : ∀ k ∈ s.moteurs.processed (r, id, m), ∀ j ∈ s.rotationDe d,
      k ≤ j ∧ (k = j ∨ s.ToutLu r k))
    (hsuite : Suite s (s.senderKeyProcess C r id m d))
    (hcles' : Cles C (s.senderKeyProcess C r id m d)) :
    Detentions C (s.senderKeyProcess C r id m d) := by
  obtain ⟨j, secret, hcle, hlien, htenu⟩ := hguard
  have hprocessed := (senderKeyProcess_moteurs hcles (r := r) hcle).2.1
  refine h.suite hsuite hcles' (fun _ hl => .inl hl) (fun r' id' m' k hk => ?_)
    (fun r' id' m' k hk => ?_) (fun r' d' hd => ?_) (fun _ _ hl => .inl hl)
  · rw [hprocessed] at hk
    by_cases hslot : (r', id', m') = (r, id, m)
    · rw [hslot, Function.update_self] at hk
      obtain ⟨rfl, rfl, rfl⟩ := hslot
      obtain rfl := Option.some.inj hk
      exact .inr ⟨secret, d, hcle.suite hsuite, hlien, htenu⟩
    · rw [Function.update_of_ne hslot] at hk
      exact .inl hk
  · rw [hprocessed]
    by_cases hslot : (r', id', m') = (r, id, m)
    · rw [hslot] at hk ⊢
      refine ⟨j, Function.update_self .., ?_⟩
      exact (hfidele k hk j (hcles.rotationDe_eq hcle)).1
    · exact ⟨k, (Function.update_of_ne hslot ..).trans hk, Nat.le_refl k⟩
  · rcases List.mem_cons.mp hd with heq | hold
    · obtain ⟨rfl, rfl⟩ := Prod.mk.inj heq
      refine .inr ⟨j, m, id, secret, hcle.suite hsuite, j, ?_, Nat.le_refl j⟩
      rw [hprocessed, Function.update_self]
    · exact .inl hold

theorem Detentions.event {victime : D} (h : Detentions C s) (hcles : Cles C s)
    (hregistre : Registre C s) {e : CanalEvent D K B} (hguard : CanalGuard C e s)
    (hfidele : Fidele C e s) (hcles' : Cles C ((canalSemantics C victime).apply e s)) :
    Detentions C ((canalSemantics C victime).apply e s) := by
  cases e with
  | act a => exact h.act hcles hregistre hguard hfidele hcles'
  | issue q => exact h.of_same (pas_event (by simp) hguard).suite hcles' rfl rfl rfl rfl
  | crash => exact hfidele.elim
  | settle t q x =>
    have hsuite : Suite s (q.settle C x s) := (pas_settle hguard).suite
    show Detentions C (q.settle C x s)
    rcases settle_cases (C := C) q x s with hsame | ⟨d, id, secret, env, rfl, rfl⟩ |
      ⟨r, id, m, d, rfl, rfl⟩ | ⟨d, id, clair, rfl, rfl⟩ | ⟨r, i, rfl, rfl⟩
    · exact h.of_same hsuite hcles' hsame.liens (congrArg Members.processed hsame.moteurs)
        hsame.traites hsame.ouverts
    · refine h.of_same hsuite hcles' rfl ?_ rfl rfl
      show (Members.step _ C.ids (.create d id env) s.moteurs).processed = _
      rw [Members.step]
      dsimp only
      split <;> rfl
    · exact h.process hcles hguard hfidele hsuite hcles'
    · refine h.of_same hsuite hcles' rfl ?_ rfl rfl
      rcases encrypt_shape C.primitives.toSenderKeyPrimitives C.ids d id clair s.moteurs with
        ⟨-, hstep⟩ | ⟨bytes, keys, -, -, hstep⟩
      · exact congrArg Members.processed hstep
      · have hprocessed := congrArg Members.processed hstep
        exact hprocessed
    · refine h.of_same hsuite hcles' rfl ?_ rfl rfl
      obtain ⟨keys, taken, hstep, -⟩ := deliver_cases C.primitives.toSenderKeyPrimitives C.ids r i
        true s.moteurs
      have hprocessed := congrArg Members.processed hstep
      exact hprocessed

end ZiaCrypte.Channels
