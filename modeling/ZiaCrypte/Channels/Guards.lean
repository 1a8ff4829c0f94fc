import ZiaCrypte.Channels.ChannelService

/-!
# What the bodies of the channels rely on

Keys are created and posts encrypted by the device that created the channel; what is put on
the server is a key of the channel sealed under its secret; a link is returned for such a
key; and a device processes what a link it was given has opened.
-/
namespace ZiaCrypte.Channels

open ZiaCrypte.Lib ZiaCrypte.Engine ZiaCrypte.Engine.SenderKeys

variable {D K B : Type} (C : Contexte D K B)

/-- The device created the channel. -/
def Admin (s : Monde D K B) (d : D) (id : Identifier) : Prop :=
  ∃ c ∈ s.canaux, c.id = id ∧ c.adminDeviceId = some d

/-- The key `k` of a channel: its secret and its distribution. -/
def CleDe (s : Monde D K B) (k : Nat) (m : D) (id : Identifier) (secret : K)
    (d : Distribution K) : Prop :=
  ∃ ρ, s.moteurs.RotationOf k m id ρ ∧ ρ.distribution = some d ∧ s.secrets[k]? = some secret

/-- The bytes are some key of the channel, sealed under its secret. -/
def Scellee (s : Monde D K B) (m : D) (id : Identifier) (b : B) : Prop :=
  ∃ k secret d, CleDe s k m id secret d ∧ SealedWith C.primitives secret d b

/-- A device may process a distribution: one of its links has opened it. -/
def Ouverte (s : Monde D K B) (r : D) (id : Identifier) (m : D) (d : Distribution K) : Prop :=
  ∃ k secret, CleDe s k m id secret d ∧ ⟨id, secret⟩ ∈ s.liens ∧ (r, ⟨id, secret⟩) ∈ s.tenus

/-- The server took these bytes, a key of the channel sealed under this secret. -/
def Deposee (s : Monde D K B) (id : Identifier) (secret : K) (b : B) : Prop :=
  (id, b) ∈ s.deposes ∧ ∃ k m d, CleDe s k m id secret d ∧ SealedWith C.primitives secret d b

def Stmt.Guard : Stmt D K → Monde D K B → Prop
  | .creer d id _, s => Admin s d id
  | .emettre id secret, s => ∃ b, Deposee C s id secret b
  | .ouvrir _ lien, s => lien ∈ s.liens
  | .rejoindre r lien _, s => lien ∈ s.liens ∧
      ∃ k m d, CleDe s k m lien.id lien.secret d ∧ (r, d) ∈ s.traites
  | _, _ => True

def CanalGuard : CanalEvent D K B → Monde D K B → Prop
  | .act a, s => a.Guard C s
  | .settle _ (.senderKeyCreate d id _) _, s => Admin s d id
  | .settle _ (.putChannelKey d id b) _, s => Scellee C s d id b
  | .settle _ (.saveConversations d convs) _, s =>
      ∀ c ∈ convs, c.channelIsAdmin = true → Admin s d c.id
  | .settle _ (.senderKeyProcess r id m d) _, s => Ouverte s r id m d
  | .settle _ (.senderKeyEncrypt d id _) _, s => Admin s d id
  | _, _ => True

/-! ## The invariant -/

/-- The channels have their own ids, whoever administers one has created it, and the keys are
those of the channels. -/
structure Registre (s : Monde D K B) : Prop where
  canaux : ∀ n c, s.canaux[n]? = some c → c.id = C.canalIds.id n
  convs : ∀ d, ∀ c ∈ s.convs d, c.channelIsAdmin = true → Admin s d c.id
  saved : ∀ d, ∀ c ∈ s.saved d, c.channelIsAdmin = true → Admin s d c.id
  rotations : ∀ k m id ρ, s.moteurs.RotationOf k m id ρ → Admin s m id
  secrets : s.secrets.length = s.moteurs.rotations.length
  scelles : ∀ c ∈ s.canaux, ∀ b ∈ c.sealedKey, ∃ m, Scellee C s m c.id b

/-- What happened is not forgotten. -/
structure Souvenirs (s s' : Monde D K B) : Prop where
  deposes : s.deposes ⊆ s'.deposes
  liens : s.liens ⊆ s'.liens
  tenus : s.tenus ⊆ s'.tenus
  traites : s.traites ⊆ s'.traites

/-- What is there stays there. -/
structure Suite (s s' : Monde D K B) : Prop extends Souvenirs s s' where
  admin : ∀ d id, Admin s d id → Admin s' d id
  rotations : s.moteurs.rotations <+: s'.moteurs.rotations
  secrets : s.secrets <+: s'.secrets

variable {C} {s s' : Monde D K B}

theorem Souvenirs.of_eq (hdeposes : s'.deposes = s.deposes) (hliens : s'.liens = s.liens)
    (htenus : s'.tenus = s.tenus) (htraites : s'.traites = s.traites) : Souvenirs s s' :=
  ⟨hdeposes ▸ List.Subset.refl _, hliens ▸ List.Subset.refl _, htenus ▸ List.Subset.refl _,
    htraites ▸ List.Subset.refl _⟩

theorem Suite.refl (s : Monde D K B) : Suite s s :=
  ⟨.of_eq rfl rfl rfl rfl, fun _ _ h => h, List.prefix_rfl, List.prefix_rfl⟩

theorem Suite.trans {s'' : Monde D K B} (h : Suite s s') (h' : Suite s' s'') : Suite s s'' :=
  ⟨⟨List.Subset.trans h.deposes h'.deposes, List.Subset.trans h.liens h'.liens,
    List.Subset.trans h.tenus h'.tenus, List.Subset.trans h.traites h'.traites⟩,
    fun d id ha => h'.admin d id (h.admin d id ha), h.rotations.trans h'.rotations,
    h.secrets.trans h'.secrets⟩

theorem getElem?_of_prefixed {α : Type} {l l' : List α} (h : l <+: l') {n : Nat} {a : α}
    (hn : l[n]? = some a) : l'[n]? = some a := by
  obtain ⟨hlt, rfl⟩ := List.getElem?_eq_some_iff.mp hn
  exact List.prefix_iff_getElem?.mp h n hlt

theorem CleDe.suite {k : Nat} {m : D} {id : Identifier} {secret : K} {d : Distribution K}
    (h : CleDe s k m id secret d) (hs : Suite s s') : CleDe s' k m id secret d := by
  obtain ⟨ρ, ⟨hk, hids⟩, hd, hsecret⟩ := h
  exact ⟨ρ, ⟨getElem?_of_prefixed hs.rotations hk, hids⟩, hd,
    getElem?_of_prefixed hs.secrets hsecret⟩

theorem Scellee.suite {m : D} {id : Identifier} {b : B} (h : Scellee C s m id b)
    (hs : Suite s s') : Scellee C s' m id b := by
  obtain ⟨k, secret, d, hcle, hb⟩ := h
  exact ⟨k, secret, d, hcle.suite hs, hb⟩

theorem Deposee.suite {id : Identifier} {secret : K} {b : B} (h : Deposee C s id secret b)
    (hs : Suite s s') : Deposee C s' id secret b := by
  obtain ⟨hb, k, m, d, hcle, hsealed⟩ := h
  exact ⟨hs.deposes hb, k, m, d, hcle.suite hs, hsealed⟩

theorem Ouverte.suite {r m : D} {id : Identifier} {d : Distribution K} (h : Ouverte s r id m d)
    (hs : Suite s s') : Ouverte s' r id m d := by
  obtain ⟨k, secret, hcle, hlien, htenu⟩ := h
  exact ⟨k, secret, hcle.suite hs, hs.liens hlien, hs.tenus htenu⟩

theorem Registre.initial : Registre C (.initial : Monde D K B) where
  canaux n c h := by cases h
  convs _ _ hc := absurd hc List.not_mem_nil
  saved _ _ hc := absurd hc List.not_mem_nil
  rotations _ _ _ _ h := by cases h.1
  secrets := rfl
  scelles _ hc := absurd hc List.not_mem_nil

/-! ## Events -/

/-- An event keeps what is there, and the invariant. -/
structure Pas (C : Contexte D K B) (s s' : Monde D K B) : Prop where
  suite : Suite s s'
  registre : Registre C s → Registre C s'

theorem Pas.refl (s : Monde D K B) : Pas C s s := ⟨.refl s, fun h => h⟩

theorem Pas.trans {s'' : Monde D K B} (h : Pas C s s') (h' : Pas C s' s'') : Pas C s s'' :=
  ⟨h.suite.trans h'.suite, fun hr => h'.registre (h.registre hr)⟩

/-- The keys and the channels are left alone. -/
theorem Pas.of_same (hcanaux : s'.canaux = s.canaux)
    (hrotations : s'.moteurs.rotations = s.moteurs.rotations) (hsecrets : s'.secrets = s.secrets)
    (hsouvenirs : Souvenirs s s')
    (hconvs : Registre C s → (∀ d, ∀ c ∈ s'.convs d, c.channelIsAdmin = true → Admin s' d c.id) ∧
      ∀ d, ∀ c ∈ s'.saved d, c.channelIsAdmin = true → Admin s' d c.id) : Pas C s s' := by
  have hsuite : Suite s s' := by
    refine ⟨hsouvenirs, fun d id h => ?_, ?_, ?_⟩
    · rw [Admin, hcanaux]
      exact h
    · exact hrotations.symm ▸ List.prefix_rfl
    · exact hsecrets.symm ▸ List.prefix_rfl
  refine ⟨hsuite, fun h => ⟨?_, (hconvs h).1, (hconvs h).2, fun k m id ρ hρ => ?_, ?_, ?_⟩⟩
  · rw [hcanaux]
    exact h.canaux
  · refine hsuite.admin m id (h.rotations k m id ρ ⟨?_, hρ.2⟩)
    rw [← hrotations]
    exact hρ.1
  · rw [hsecrets, hrotations]
    exact h.secrets
  · rw [hcanaux]
    intro c hc b hb
    obtain ⟨m, hm⟩ := h.scelles c hc b hb
    exact ⟨m, hm.suite hsuite⟩

/-- Neither are the conversations. -/
theorem Pas.of_memes (hcanaux : s'.canaux = s.canaux)
    (hrotations : s'.moteurs.rotations = s.moteurs.rotations) (hsecrets : s'.secrets = s.secrets)
    (hsouvenirs : Souvenirs s s') (hconvs : s'.convs = s.convs) (hsaved : s'.saved = s.saved) :
    Pas C s s' := by
  refine .of_same hcanaux hrotations hsecrets hsouvenirs fun h => ⟨?_, ?_⟩
  · rw [hconvs]
    intro d c hc hadmin
    rw [Admin, hcanaux]
    exact h.convs d c hc hadmin
  · rw [hsaved]
    intro d c hc hadmin
    rw [Admin, hcanaux]
    exact h.saved d c hc hadmin

/-- The row of a channel keeps its id and its admin; what it holds is sealed. -/
theorem pas_mapCanal {id : Identifier} {f : Canal D B → Canal D B}
    (hid : ∀ c, (f c).id = c.id) (hadmin : ∀ c, (f c).adminDeviceId = c.adminDeviceId)
    (hsealed : Registre C s → ∀ c ∈ s.canaux, c.id = id → ∀ b ∈ (f c).sealedKey,
      ∃ m, Scellee C s m c.id b) : Pas C s (s.mapCanal id f) := by
  have hsuite : Suite s (s.mapCanal id f) := by
    refine ⟨.of_eq rfl rfl rfl rfl, fun d id' ⟨c, hc, hcid, hcadmin⟩ => ?_, List.prefix_rfl,
      List.prefix_rfl⟩
    refine ⟨_, List.mem_map_of_mem hc, ?_⟩
    split
    · exact ⟨(hid c).trans hcid, (hadmin c).trans hcadmin⟩
    · exact ⟨hcid, hcadmin⟩
  refine ⟨hsuite, fun h => ⟨fun n c hn => ?_, fun d c hc ha => hsuite.admin _ _ (h.convs d c hc ha),
    fun d c hc ha => hsuite.admin _ _ (h.saved d c hc ha),
    fun k m id' ρ hρ => hsuite.admin _ _ (h.rotations k m id' ρ hρ), h.secrets,
    fun c hc b hb => ?_⟩⟩
  · simp only [Monde.mapCanal, List.getElem?_map, Option.map_eq_some_iff] at hn
    obtain ⟨c₀, hn₀, rfl⟩ := hn
    rw [← h.canaux n c₀ hn₀]
    split
    · exact hid c₀
    · rfl
  · obtain ⟨c₀, hc₀, rfl⟩ := List.mem_map.mp hc
    split at hb
    · rename_i hcid
      obtain ⟨m, hm⟩ := hsealed h c₀ hc₀ hcid b hb
      rw [if_pos hcid, hid]
      exact ⟨m, hm.suite hsuite⟩
    · rename_i hcid
      obtain ⟨m, hm⟩ := h.scelles c₀ hc₀ b hb
      rw [if_neg hcid]
      exact ⟨m, hm.suite hsuite⟩

theorem pas_createChannel (d : D) : Pas C s (s.createChannel C d) := by
  have hsuite : Suite s (s.createChannel C d) :=
    ⟨.of_eq rfl rfl rfl rfl, fun _ _ ⟨c, hc, h⟩ => ⟨c, List.mem_append_left _ hc, h⟩,
      List.prefix_rfl, List.prefix_rfl⟩
  refine ⟨hsuite, fun h => ⟨fun n c hn => ?_, fun d c hc ha => hsuite.admin _ _ (h.convs d c hc ha),
    fun d c hc ha => hsuite.admin _ _ (h.saved d c hc ha),
    fun k m id' ρ hρ => hsuite.admin _ _ (h.rotations k m id' ρ hρ), h.secrets,
    fun c hc b hb => ?_⟩⟩
  · rcases Nat.lt_trichotomy n s.canaux.length with hlt | rfl | hgt
    · exact h.canaux n c ((List.getElem?_append_left hlt).symm.trans hn)
    · obtain rfl := Option.some.inj ((List.getElem?_concat_length).symm.trans hn)
      rfl
    · have hlen := (List.getElem?_eq_some_iff.mp hn).1
      simp only [Monde.createChannel, List.length_append, List.length_singleton] at hlen
      omega
  · rcases List.mem_append.mp hc with hold | hnew
    · obtain ⟨m, hm⟩ := h.scelles c hold b hb
      exact ⟨m, hm.suite hsuite⟩
    · obtain rfl := List.mem_singleton.mp hnew
      cases hb

variable [DecidableEq D]

/-- One device has other conversations. -/
theorem pas_setConvs {d : D} {convs : List (Conversation D K)}
    (h : Registre C s → ∀ c ∈ convs, c.channelIsAdmin = true → Admin s d c.id) :
    Pas C s (s.setConvs d convs) := by
  refine .of_same rfl rfl rfl (.of_eq rfl rfl rfl rfl) fun hr =>
    ⟨fun d' c hc => ?_, hr.saved⟩
  by_cases hd : d' = d
  · rw [hd] at hc ⊢
    simp only [Monde.setConvs, Function.update_self] at hc
    exact h hr c hc
  · simp only [Monde.setConvs, Function.update_of_ne hd] at hc
    exact hr.convs d' c hc

theorem pas_putConv {d : D} {c : Conversation D K}
    (h : c.channelIsAdmin = true → Admin s d c.id) : Pas C s (s.putConv d c) := by
  refine pas_setConvs fun hr c' hc' => ?_
  rcases List.mem_append.mp hc' with hold | hnew
  · exact hr.convs d c' (List.mem_filter.mp hold).1
  · obtain rfl := List.mem_singleton.mp hnew
    exact h

theorem Registre.redemarrer {victime : D} (h : Registre C s) :
    Registre C (s.redemarrer victime) where
  canaux := h.canaux
  convs d c hc := by
    by_cases hd : d = victime
    · rw [hd] at hc ⊢
      simp only [Monde.redemarrer, Function.update_self] at hc
      exact h.saved victime c hc
    · simp only [Monde.redemarrer, Function.update_of_ne hd] at hc
      exact h.convs d c hc
  saved := h.saved
  rotations := h.rotations
  secrets := h.secrets
  scelles := h.scelles

theorem pas_act {a : Stmt D K} (hguard : a.Guard C s) : Pas C s (a.apply s) := by
  cases a with
  | tenir d lien =>
    exact .of_memes rfl rfl rfl
      ⟨fun _ h => h, fun _ h => h, List.subset_cons_self _ _, fun _ h => h⟩ rfl rfl
  | creer d id secret => exact pas_putConv fun _ => hguard
  | lier d id secret =>
    refine pas_setConvs fun hr c hc hadmin => ?_
    obtain ⟨c₀, hc₀, rfl⟩ := List.mem_map.mp hc
    split at hadmin <;> split <;> exact hr.convs d c₀ hc₀ hadmin
  | emettre id secret =>
    exact .of_memes rfl rfl rfl
      ⟨fun _ h => h, List.subset_cons_self _ _, fun _ h => h, fun _ h => h⟩ rfl rfl
  | ouvrir d lien =>
    exact .of_memes rfl rfl rfl (.of_eq rfl rfl rfl rfl) rfl rfl
  | rejoindre d lien adminDevice =>
    have hput : Pas C s (s.putConv d ⟨lien.id, adminDevice, false, none⟩) :=
      pas_putConv fun h => by cases h
    refine hput.trans ?_
    exact .of_memes rfl rfl rfl (.of_eq rfl rfl rfl rfl) rfl rfl
  | oublier d id => exact pas_setConvs fun hr c hc => hr.convs d c (List.mem_filter.mp hc).1

theorem pas_senderKeyCreate {d : D} {id : Identifier} (hadmin : Admin s d id) (secret : K)
    (env : SenderKeyEnv K) : Pas C s (s.senderKeyCreate C d id secret env) := by
  have hrotations := rotations_create C.primitives.toSenderKeyPrimitives C.ids (x := s.moteurs)
    d id env
  by_cases hid : id = []
  · rw [if_pos hid] at hrotations
    refine .of_memes rfl hrotations ?_ (.of_eq rfl rfl rfl rfl) rfl rfl
    exact if_pos hid
  · rw [if_neg hid] at hrotations
    have hsecrets : (s.senderKeyCreate C d id secret env).secrets = s.secrets ++ [secret] :=
      if_neg hid
    have hmoteurs : (s.senderKeyCreate C d id secret env).moteurs.rotations = _ := hrotations
    have hsuite : Suite s (s.senderKeyCreate C d id secret env) := by
      refine ⟨.of_eq rfl rfl rfl rfl, fun _ _ h => h, ?_, ?_⟩
      · rw [hmoteurs]
        exact List.prefix_append _ _
      · rw [hsecrets]
        exact List.prefix_append _ _
    refine ⟨hsuite, fun h => ⟨h.canaux, h.convs, h.saved, fun k m id' ρ hρ => ?_, ?_,
      fun c hc b hb => ?_⟩⟩
    · obtain ⟨hk, hm, hgroup⟩ := hρ
      rw [hmoteurs] at hk
      rcases List.mem_append.mp (List.mem_of_getElem? hk) with hold | hnew
      · obtain ⟨n, hn⟩ := List.getElem?_of_mem hold
        exact h.rotations n m id' ρ ⟨hn, hm, hgroup⟩
      · obtain rfl := List.mem_singleton.mp hnew
        rw [← hm, ← hgroup]
        exact hadmin
    · rw [hsecrets, hmoteurs, List.length_append, List.length_append, h.secrets]
      rfl
    · obtain ⟨m, hm⟩ := h.scelles c hc b hb
      exact ⟨m, hm.suite hsuite⟩

variable [DecidableEq K]

theorem pas_settle {t : Nat} {q : Request D K B} {x : Outside K}
    (hguard : CanalGuard C (.settle t q x) s) : Pas C s (q.settle C x s) := by
  have hrefl : Pas C s s := .refl s
  cases q with
  | createChannel d =>
    cases x with
    | handled received => exact pas_createChannel d
    | _ => exact hrefl
  | senderKeyCreate d id secret =>
    cases x with
    | cree env => exact pas_senderKeyCreate hguard secret env
    | _ => exact hrefl
  | putChannelKey d id b =>
    cases x with
    | handled received =>
      show Pas C s (if _ then _ else s)
      split
      · have hmap : Pas C s (s.mapCanal id fun c => { c with sealedKey := some b }) := by
          refine pas_mapCanal (fun _ => rfl) (fun _ => rfl) fun _ c _ hid b' hb' => ?_
          obtain rfl := Option.some.inj hb'
          rw [hid]
          exact ⟨d, hguard⟩
        refine hmap.trans ?_
        exact .of_memes rfl rfl rfl
          ⟨List.subset_cons_self _ _, fun _ h => h, fun _ h => h, fun _ h => h⟩ rfl rfl
      · exact hrefl
    | _ => exact hrefl
  | saveConversations d convs =>
    cases x with
    | done =>
      refine .of_same rfl rfl rfl (.of_eq rfl rfl rfl rfl) fun hr =>
        ⟨hr.convs, fun d' c hc hadmin => ?_⟩
      by_cases hd : d' = d
      · rw [hd] at hc ⊢
        simp only [Request.settle, Function.update_self] at hc
        exact hguard c hc hadmin
      · simp only [Request.settle, Function.update_of_ne hd] at hc
        exact hr.saved d' c hc hadmin
    | _ => exact hrefl
  | senderKeyProcess r id m d =>
    cases x with
    | done =>
      exact .of_memes rfl rfl rfl
        ⟨fun _ h => h, fun _ h => h, fun _ h => h, List.subset_cons_self _ _⟩ rfl rfl
    | _ => exact hrefl
  | subscribeChannel d id =>
    cases x with
    | handled received =>
      exact pas_mapCanal (fun _ => rfl) (fun _ => rfl) fun h c hc _ b hb => h.scelles c hc b hb
    | _ => exact hrefl
  | unsubscribeChannel d id =>
    cases x with
    | handled received =>
      exact pas_mapCanal (fun _ => rfl) (fun _ => rfl) fun h c hc _ b hb => h.scelles c hc b hb
    | _ => exact hrefl
  | senderKeyEncrypt d id clair =>
    cases x with
    | done =>
      have hrotations := rotations_encrypt C.primitives.toSenderKeyPrimitives C.ids (x := s.moteurs)
        d id true clair
      exact .of_memes rfl hrotations rfl (.of_eq rfl rfl rfl rfl) rfl rfl
    | _ => exact hrefl
  | postChannel d id message =>
    cases x with
    | handled received =>
      show Pas C s (if _ then _ else s)
      split
      · exact .of_memes rfl rfl rfl (.of_eq rfl rfl rfl rfl) rfl rfl
      · exact hrefl
    | _ => exact hrefl
  | senderKeyDecrypt d message =>
    cases x with
    | done =>
      have hrotations := rotations_deliver C.primitives.toSenderKeyPrimitives C.ids (x := s.moteurs)
        d message true
      exact .of_memes rfl hrotations rfl (.of_eq rfl rfl rfl rfl) rfl rfl
    | _ => exact hrefl
  | _ => exact hrefl

theorem pas_event {victime : D} {e : CanalEvent D K B} (halive : e ≠ .crash)
    (hguard : CanalGuard C e s) : Pas C s ((canalSemantics C victime).apply e s) := by
  cases e with
  | act a => exact pas_act hguard
  | issue q => exact .of_memes rfl rfl rfl (.of_eq rfl rfl rfl rfl) rfl rfl
  | settle t q x => exact pas_settle hguard
  | crash => exact absurd rfl halive

theorem keeps_pas (victime : D) :
    Keeps (canalSemantics C victime) (CanalGuard C) (Pas C) where
  refl := .refl
  trans _ _ _ h h' := h.trans h'
  event _ _ halive hguard := pas_event halive hguard

theorem Registre.event {victime : D} (h : Registre C s) {e : CanalEvent D K B}
    (hguard : CanalGuard C e s) : Registre C ((canalSemantics C victime).apply e s) := by
  by_cases halive : e = .crash
  · rw [halive]
    exact h.redemarrer
  · exact (pas_event halive hguard).registre h

end ZiaCrypte.Channels
