import ZiaCrypte.Channels.ServerKeys

/-!
# Who reads a channel

A post is for the devices that had opened the last link when it was published, and for none
that only ever had earlier ones. Both hold along the runs that keep to the condition; a
subscriber that opens the link of a rotation while it is in the channel still has the old key.
-/
namespace ZiaCrypte.Channels

open ZiaCrypte.Lib ZiaCrypte.Engine ZiaCrypte.Engine.SenderKeys

variable {D K B : Type} {C : Contexte D K B} {s s' : Monde D K B}

/-! ## Posts -/

/-- A post is under the key of the last link, which the devices it is for have until they have
read it. -/
structure Posts (s : Monde D K B) : Prop where
  length : s.publications.length = s.moteurs.messages.length
  liens : ∀ (i : Nat) (p : GroupMessage D) (q : Publication D),
    s.moteurs.messages[i]? = some p → s.publications[i]? = some q →
    ∀ k, q.lien = some k → k = p.rotation
  lecteurs : ∀ (i : Nat) (p : GroupMessage D) (q : Publication D),
    s.moteurs.messages[i]? = some p → s.publications[i]? = some q →
    ∀ r ∈ q.lecteurs, (r, p.rotation, p.index) ∉ s.lus →
      s.moteurs.processed (r, p.group, p.sender) = some p.rotation
  pris : ∀ r id m j i, s.moteurs.processed (r, id, m) = some j →
    i ∈ s.moteurs.taken (r, id, m) → (r, j, i) ∈ s.lus

theorem Posts.initial : Posts (.initial : Monde D K B) where
  length := rfl
  liens _ _ _ h := by cases h
  lecteurs _ _ _ h := by cases h
  pris _ _ _ _ _ h := by cases h

/-- No post is published, and no device takes a key. -/
theorem Posts.of_same (h : Posts s) (hmessages : s'.moteurs.messages = s.moteurs.messages)
    (hpublications : s'.publications = s.publications)
    (hprocessed : s'.moteurs.processed = s.moteurs.processed)
    (htaken : s'.moteurs.taken = s.moteurs.taken) (hlus : s'.lus = s.lus) : Posts s' := by
  refine ⟨?_, fun i p q hp hq => ?_, fun i p q hp hq r hr hnot => ?_, fun r id m j i hj hi => ?_⟩
  · rw [hpublications, hmessages]
    exact h.length
  · rw [hmessages] at hp
    rw [hpublications] at hq
    exact h.liens i p q hp hq
  · rw [hmessages] at hp
    rw [hpublications] at hq
    rw [hlus] at hnot
    rw [hprocessed]
    exact h.lecteurs i p q hp hq r hr hnot
  · rw [hprocessed] at hj
    rw [htaken] at hi
    rw [hlus]
    exact h.pris r id m j i hj hi

variable [DecidableEq D] [DecidableEq K]

/-- The posts under the key that is replaced have come. -/
theorem Posts.process {r m : D} {id : Identifier} {d : Distribution K} (h : Posts s)
    (hcles : Cles C s) (hguard : Ouverte s r id m d)
    (hfidele : ∀ k ∈ s.moteurs.processed (r, id, m), ∀ j ∈ s.rotationDe d,
      k ≤ j ∧ (k = j ∨ s.ToutLu r k)) : Posts (s.senderKeyProcess C r id m d) := by
  obtain ⟨j, secret, hcle, -, -⟩ := hguard
  obtain ⟨-, hprocessed, htaken⟩ := senderKeyProcess_moteurs hcles (r := r) hcle
  refine ⟨h.length, h.liens, fun i p q hp hq r' hr' hnot => ?_, fun r' id' m' k i hk hi => ?_⟩
  · have hbefore := h.lecteurs i p q hp hq r' hr' hnot
    rw [hprocessed]
    by_cases hslot : (r', p.group, p.sender) = (r, id, m)
    · rw [hslot] at hbefore ⊢
      obtain ⟨rfl, -, -⟩ := hslot
      rw [Function.update_self]
      rcases (hfidele _ hbefore j (hcles.rotationDe_eq hcle)).2 with heq | hlu
      · rw [heq]
      · have hzip : (p, q) ∈ s.moteurs.messages.zip s.publications :=
          List.mem_of_getElem? (List.getElem?_zip_eq_some.mpr ⟨hp, hq⟩)
        exact absurd (hlu (p, q) hzip rfl hr') hnot
    · rw [Function.update_of_ne hslot]
      exact hbefore
  · rw [hprocessed] at hk
    rw [htaken] at hi
    by_cases hslot : (r', id', m') = (r, id, m)
    · rw [hslot, Function.update_self] at hi
      cases hi
    · rw [Function.update_of_ne hslot] at hk hi
      exact h.pris r' id' m' k i hk hi

/-- The devices that opened the last link have the key of the owner. -/
theorem lecteurs_processed (hcles : Cles C s) (hregistre : Registre C s) (h : Detentions C s)
    {d : D} {id : Identifier} (hadmin : Admin s d id) {k : Nat} (hk : s.derniere id = some k)
    {r : D} (hr : r ∈ (s.lecteurs id).filter (· ≠ d)) :
    s.moteurs.processed (r, id, d) = some k := by
  obtain ⟨hlecteur, hne⟩ := List.mem_filter.mp hr
  obtain ⟨⟨r', l⟩, ho, rfl⟩ := List.mem_map.mp hlecteur
  obtain ⟨hmem, hlast⟩ := List.mem_filter.mp ho
  obtain ⟨-, rfl, hgeneration⟩ := of_decide_eq_true hlast
  obtain ⟨-, k', m, dist, hcle, hprocessed⟩ := h.ouverts r' l hmem
  rw [hk, generation_eq_some hcles.secrets] at hgeneration
  have hlt := (List.getElem?_eq_some_iff.mp hgeneration).1
  have hkey : k = k' := (List.getElem?_inj hlt hcles.secrets).mp
    (hgeneration.trans hcle.choose_spec.2.2.symm)
  have hsender : m = d := hregistre.admin_eq (hcle.admin hregistre) hadmin
  rw [← hkey, hsender] at hprocessed
  exact (hprocessed hk).resolve_left (of_decide_eq_true hne)

theorem Posts.encrypt {d : D} {id : Identifier} {clair : Bytes} (h : Posts s) (hcles : Cles C s)
    (hregistre : Registre C s) (hdetentions : Detentions C s) (hadmin : Admin s d id)
    (hfidele : s.moteurs.current (d, id) = s.derniere id) :
    Posts (s.senderKeyEncrypt C d id clair) := by
  rcases encrypt_shape C.primitives.toSenderKeyPrimitives C.ids d id clair s.moteurs with
    ⟨⟨rc, herror⟩, hstep⟩ | ⟨bytes, keys, hok, hentry, hstep⟩
  · have hpublications : (s.senderKeyEncrypt C d id clair).publications = s.publications := by
      simp only [Monde.senderKeyEncrypt, herror]
    exact h.of_same (congrArg Members.messages hstep) hpublications
      (congrArg Members.processed hstep) (congrArg Members.taken hstep) rfl
  · -- An own entry is that of the owner's key.
    obtain ⟨k, hk⟩ : ∃ k, s.moteurs.current (d, id) = some k := by
      cases hcurrent : s.moteurs.current (d, id) with
      | none => exact absurd (hcles.reads.members.noOwn d id hcurrent) hentry
      | some k => exact ⟨k, rfl⟩
    have hlast : s.derniere id = some k := hfidele.symm.trans hk
    have hpublications : (s.senderKeyEncrypt C d id clair).publications =
        s.publications ++ [⟨some k, (s.lecteurs id).filter (· ≠ d)⟩] := by
      simp only [Monde.senderKeyEncrypt, hok, hlast]
    have hmessages : (s.senderKeyEncrypt C d id clair).moteurs.messages =
        s.moteurs.messages ++ [⟨d, id, k, s.moteurs.nextIndex d id, clair, bytes⟩] := by
      have hmessages := congrArg Members.messages hstep
      rw [hk] at hmessages
      exact hmessages
    have hprocessed : (s.senderKeyEncrypt C d id clair).moteurs.processed =
        s.moteurs.processed := by
      have hprocessed := congrArg Members.processed hstep
      exact hprocessed
    have htaken : (s.senderKeyEncrypt C d id clair).moteurs.taken = s.moteurs.taken := by
      have htaken := congrArg Members.taken hstep
      exact htaken
    -- The new message and the new publication are at the same place.
    have hplace : ∀ {i : Nat} {p : GroupMessage D} {q : Publication D},
        (s.senderKeyEncrypt C d id clair).moteurs.messages[i]? = some p →
        (s.senderKeyEncrypt C d id clair).publications[i]? = some q →
        (s.moteurs.messages[i]? = some p ∧ s.publications[i]? = some q) ∨
          (p = ⟨d, id, k, s.moteurs.nextIndex d id, clair, bytes⟩ ∧
            q = ⟨some k, (s.lecteurs id).filter (· ≠ d)⟩) := by
      intro i p q hp hq
      rw [hmessages] at hp
      rw [hpublications] at hq
      have hlength := h.length
      rcases getElem?_concat_cases hp with hp | ⟨hi, rfl⟩ <;>
        rcases getElem?_concat_cases hq with hq | ⟨hi', rfl⟩
      · exact .inl ⟨hp, hq⟩
      · have hlt := (List.getElem?_eq_some_iff.mp hp).1
        omega
      · have hlt := (List.getElem?_eq_some_iff.mp hq).1
        omega
      · exact .inr ⟨rfl, rfl⟩
    refine ⟨?_, fun i p q hp hq => ?_, fun i p q hp hq r hr hnot => ?_, ?_⟩
    · rw [hpublications, hmessages, List.length_append, List.length_append, h.length]
      rfl
    · rcases hplace hp hq with ⟨hp, hq⟩ | ⟨rfl, rfl⟩
      · exact h.liens i p q hp hq
      · exact fun k' hk' => (Option.some.inj hk').symm
    · rw [hprocessed]
      rcases hplace hp hq with ⟨hp, hq⟩ | ⟨rfl, rfl⟩
      · exact h.lecteurs i p q hp hq r hr hnot
      · exact lecteurs_processed hcles hregistre hdetentions hadmin hlast hr
    · rw [hprocessed, htaken]
      exact h.pris

omit [DecidableEq K] in
/-- A post that was read is remembered, whatever came of it. -/
theorem Posts.decrypt {r : D} {i : Nat}
    (hideal : SignatureIdeal C.primitives.toSenderKeyPrimitives) (h : Posts s)
    (hcles : Cles C s) : Posts (s.senderKeyDecrypt C r i) := by
  obtain ⟨keys, taken, hstep, -, htaken⟩ := deliver_cases C.primitives.toSenderKeyPrimitives
    C.ids r i true s.moteurs
  have hmessages : (s.senderKeyDecrypt C r i).moteurs.messages = s.moteurs.messages := by
    have hmessages := congrArg Members.messages hstep
    exact hmessages
  have hprocessed : (s.senderKeyDecrypt C r i).moteurs.processed = s.moteurs.processed := by
    have hprocessed := congrArg Members.processed hstep
    exact hprocessed
  have htaken' : (s.senderKeyDecrypt C r i).moteurs.taken = taken := by
    have htaken' := congrArg Members.taken hstep
    exact htaken'
  have hlus : s.lus ⊆ (s.senderKeyDecrypt C r i).lus := by
    unfold Monde.senderKeyDecrypt
    dsimp only
    split
    · exact List.subset_cons_self _ _
    · exact fun _ h => h
  refine ⟨?_, ?_, fun n p q hp hq r' hr' hnot => ?_, fun r' id m j n hj hn => ?_⟩
  · rw [hmessages]
    exact h.length
  · rw [hmessages]
    exact h.liens
  · rw [hmessages] at hp
    rw [hprocessed]
    exact h.lecteurs n p q hp hq r' hr' fun hmem => hnot (hlus hmem)
  · rw [hprocessed] at hj
    rw [htaken'] at hn
    rcases htaken _ n hn with hold | ⟨p, plaintext, hp, hok, hslot, rfl⟩
    · exact hlus (h.pris r' id m j n hj hold)
    · -- What opened was under the key that the device has.
      obtain ⟨rfl, rfl, rfl⟩ := hslot
      have hkey : s.moteurs.processed (r, p.group, p.sender) = some p.rotation := by
        by_contra hother
        obtain ⟨rc, hrc⟩ := hcles.reads.deliver_other hideal hp hother true
        rw [hrc] at hok
        cases hok
      obtain rfl := Option.some.inj (hj.symm.trans hkey)
      unfold Monde.senderKeyDecrypt
      rw [hp]
      exact List.mem_cons_self

theorem Posts.event {victime : D} (hideal : SignatureIdeal C.primitives.toSenderKeyPrimitives)
    (h : Posts s) (hcles : Cles C s) (hregistre : Registre C s) (hdetentions : Detentions C s)
    {e : CanalEvent D K B} (hguard : CanalGuard C e s) (hfidele : Fidele C e s) :
    Posts ((canalSemantics C victime).apply e s) := by
  cases e with
  | act a => cases a <;> exact h.of_same rfl rfl rfl rfl rfl
  | issue q => exact h.of_same rfl rfl rfl rfl rfl
  | crash => exact hfidele.elim
  | settle t q x =>
    show Posts (q.settle C x s)
    rcases settle_cases (C := C) q x s with hsame | ⟨d, id, secret, env, rfl, rfl⟩ |
      ⟨r, id, m, d, rfl, rfl⟩ | ⟨d, id, clair, rfl, rfl⟩ | ⟨r, i, rfl, rfl⟩
    · exact h.of_same (congrArg Members.messages hsame.moteurs) hsame.publications
        (congrArg Members.processed hsame.moteurs) (congrArg Members.taken hsame.moteurs) hsame.lus
    · refine h.of_same ?_ rfl ?_ ?_ rfl
      all_goals
        simp only [Request.settle, Monde.senderKeyCreate, Members.step]
        split <;> rfl
    · exact h.process hcles hguard hfidele
    · exact h.encrypt hcles hregistre hdetentions hguard hfidele.1
    · exact h.decrypt hideal hcles

/-! ## Runs -/

section

variable (C)

/-- The links of a channel that a device ever opened are those of earlier keys. -/
def Monde.Anterieurs (s : Monde D K B) (r : D) (id : Identifier) (k : Nat) : Prop :=
  ∀ t ∈ s.tenus, t.1 = r → t.2.id = id → ∀ j ∈ s.generation t.2.secret, j < k

instance (s : Monde D K B) (r : D) (id : Identifier) (k : Nat) :
    Decidable (s.Anterieurs r id k) := by
  unfold Monde.Anterieurs
  infer_instance

/-- The last link opens the key it was made for. A post opens, the first time it comes, at any
device that had opened the last link when it was published, and never at one that had only
earlier links. -/
def Lisible : CanalEvent D K B → Monde D K B → Prop
  | .settle _ (.channelKey id) (.handled _), s =>
      ∀ l ∈ s.liens, l.id = id → s.generation l.secret = s.derniere id →
        ∃ b ∈ (s.canal? id).bind (·.sealedKey),
          ∃ d ∈ (ziaChannelOpenKey C.primitives true l.secret b).toOption,
            s.rotationDe d = s.derniere id
  | .settle _ (.senderKeyDecrypt r i) .done, s =>
      ∀ p ∈ s.moteurs.messages[i]?, ∃ q ∈ s.publications[i]?,
        let clair := (ziaSenderKeyDecrypt C.primitives.toSenderKeyPrimitives true
          (s.moteurs.engine r) p.group (C.ids.id p.sender) p.bytes).1
        (r ∈ q.lecteurs → (r, p.rotation, p.index) ∉ s.lus → clair.toOption = some p.plaintext) ∧
          ∀ k ∈ q.lien, s.Anterieurs r p.group k → clair.toOption = none
  | _, _ => True

instance : ∀ (e : CanalEvent D K B) (s : Monde D K B), Decidable (Lisible C e s)
  | .settle _ (.channelKey id) (.handled _), s => by unfold Lisible; infer_instance
  | .settle _ (.senderKeyDecrypt r i) .done, s => by unfold Lisible; infer_instance
  | .settle _ (.channelKey _) .failed, _ | .settle _ (.channelKey _) .done, _
  | .settle _ (.channelKey _) (.cree _), _ | .settle _ (.channelKey _) (.scelle _ _), _
  | .settle _ (.senderKeyDecrypt _ _) .failed, _ | .settle _ (.senderKeyDecrypt _ _) (.cree _), _
  | .settle _ (.senderKeyDecrypt _ _) (.scelle _ _), _
  | .settle _ (.senderKeyDecrypt _ _) (.handled _), _ | .settle _ (.createChannel _) _, _
  | .settle _ (.senderKeyCreate _ _ _) _, _ | .settle _ (.channelSealKey _ _) _, _
  | .settle _ (.putChannelKey _ _ _) _, _ | .settle _ (.saveConversations _ _) _, _
  | .settle _ (.channelOpenKey _ _) _, _ | .settle _ (.channelInfo _) _, _
  | .settle _ (.senderKeyProcess _ _ _ _) _, _ | .settle _ (.subscribeChannel _ _) _, _
  | .settle _ (.unsubscribeChannel _ _) _, _ | .settle _ (.senderKeyEncrypt _ _ _) _, _
  | .settle _ (.postChannel _ _ _) _, _ | .act _, _ | .issue _, _ | .crash, _ => isTrue trivial

end

/-- What is known along the runs that keep to the condition. -/
structure Accord (C : Contexte D K B) (s : Monde D K B) : Prop where
  registre : Registre C s
  cles : Cles C s
  detentions : Detentions C s
  depots : Depots C s
  posts : Posts s

omit [DecidableEq D] in
/-- The last link opens the key on the server, while the owner has no later one. -/
theorem Accord.ouvre (hkdf : HmacInjective C.primitives.toPrimitives)
    (hseal : SealIdeal C.primitives) (h : Accord C s) {id : Identifier}
    (hfidele : s.courante id = s.derniere id) {l : Lien K} (hl : l ∈ s.liens) (hid : l.id = id)
    (hlast : s.generation l.secret = s.derniere id) :
    ∃ b ∈ (s.canal? id).bind (·.sealedKey),
      ∃ d ∈ (ziaChannelOpenKey C.primitives true l.secret b).toOption,
        s.rotationDe d = s.derniere id := by
  obtain ⟨b, hb, k, m, d, hcle, hsealed⟩ := h.detentions.liens l hl
  obtain ⟨k₀, m₀, secret₀, d₀, hcle₀, hsealed₀, b', hb', k', m', secret', d', hcle', hsealed',
    hle⟩ := h.depots.deposes l.id b hb
  -- The bytes that were put for the link are of its key.
  obtain ⟨hsecret, rfl⟩ := hsealed.of_open hkdf hseal (hsealed₀.open hseal)
  rw [hsecret] at hcle₀
  obtain rfl := hcle.eq_of_secret h.cles.secrets hcle₀
  -- The server's key is between that key and the owner's, which is the same.
  rw [(generation_eq_some h.cles.secrets).mpr hcle.choose_spec.2.2] at hlast
  have hcourante : s.courante id = some k := hfidele.trans hlast.symm
  obtain ⟨owner, howner, hcurrent⟩ := Option.bind_eq_some_iff.mp hcourante
  obtain ⟨c, hc, hadmin⟩ := Option.bind_eq_some_iff.mp howner
  obtain ⟨hmem, hcid⟩ := canal_of_canal? hc
  rw [hid] at hcle' hb'
  have hsender : m' = owner :=
    h.registre.admin_eq (hcle'.admin h.registre) ⟨c, hmem, hcid, hadmin⟩
  rw [hsender] at hcle'
  obtain rfl := Nat.le_antisymm hle (h.cles.le_courante hcurrent hcle')
  obtain ⟨-, -, hsame, -⟩ := hcle.ids_eq hcle'
  refine ⟨b', hb', d', ?_, ?_⟩
  · rw [hsame, hsealed'.open hseal]
    rfl
  · rw [h.cles.rotationDe_eq hcle', hlast]

/-- A post, at a device that it is for, and at one that has earlier links only. -/
theorem Accord.lit (haead : AeadCorrect C.primitives.toPrimitives)
    (hsign : SignatureCorrect C.primitives.toSenderKeyPrimitives)
    (hideal : SignatureIdeal C.primitives.toSenderKeyPrimitives) (h : Accord C s) {r : D} {i : Nat}
    (hlimits : Members.WithinLimits C.ids r i s.moteurs) {p : GroupMessage D}
    (hp : s.moteurs.messages[i]? = some p) :
    ∃ q ∈ s.publications[i]?,
      let clair := (ziaSenderKeyDecrypt C.primitives.toSenderKeyPrimitives true
        (s.moteurs.engine r) p.group (C.ids.id p.sender) p.bytes).1
      (r ∈ q.lecteurs → (r, p.rotation, p.index) ∉ s.lus → clair.toOption = some p.plaintext) ∧
        ∀ k ∈ q.lien, s.Anterieurs r p.group k → clair.toOption = none := by
  have hlt : i < s.publications.length := by
    rw [h.posts.length]
    exact (List.getElem?_eq_some_iff.mp hp).1
  have hq := List.getElem?_eq_getElem hlt
  refine ⟨_, hq, fun hr hnot => ?_, fun k hk hearlier => ?_⟩
  · have hkey := h.posts.lecteurs i p _ hp hq r hr hnot
    have htaken : p.index ∉ s.moteurs.taken (r, p.group, p.sender) := fun hmem =>
      hnot (h.posts.pris _ _ _ _ _ hkey hmem)
    rw [h.cles.reads.delivers haead hsign hp hkey htaken hlimits]
    rfl
  · have hother : s.moteurs.processed (r, p.group, p.sender) ≠ some p.rotation := by
      intro hkey
      obtain ⟨secret, d, hcle, -, htenu⟩ := h.detentions.tenues _ _ _ _ hkey
      have hgeneration := (generation_eq_some h.cles.secrets).mpr hcle.choose_spec.2.2
      have hlt := hearlier _ htenu rfl rfl _ hgeneration
      have heq := h.posts.liens i p _ hp hq k hk
      omega
    obtain ⟨rc, hrc⟩ := h.cles.reads.deliver_other hideal hp hother true
    rw [hrc]
    rfl

omit [DecidableEq D] in
theorem Accord.initial : Accord C (.initial : Monde D K B) :=
  ⟨.initial, .initial, .initial, .initial, .initial⟩

/-- The laws of the primitives. -/
structure Lois (C : Contexte D K B) : Prop where
  aead : AeadCorrect C.primitives.toPrimitives
  sign : SignatureCorrect C.primitives.toSenderKeyPrimitives
  ideal : SignatureIdeal C.primitives.toSenderKeyPrimitives
  hkdf : HmacInjective C.primitives.toPrimitives
  scelle : SealIdeal C.primitives

theorem Accord.event {victime : D} (lois : Lois C) (h : Accord C s) {e : CanalEvent D K B}
    (hguard : CanalGuard C e s) (htirage : Tirage C e s) (hfidele : Fidele C e s) :
    Accord C ((canalSemantics C victime).apply e s) := by
  have hcles' : Cles C ((canalSemantics C victime).apply e s) :=
    h.cles.event lois.aead lois.sign lois.ideal hguard htirage hfidele
  exact ⟨h.registre.event hguard, hcles',
    h.detentions.event h.cles h.registre hguard hfidele hcles',
    h.depots.event lois.hkdf lois.scelle h.cles h.registre hguard hfidele,
    h.posts.event lois.ideal h.cles h.registre h.detentions hguard hfidele⟩

theorem Accord.lisible (lois : Lois C) (h : Accord C s) {e : CanalEvent D K B}
    (hfidele : Fidele C e s) : Lisible C e s := by
  unfold Lisible
  split
  · exact fun l hl hid hlast => h.ouvre lois.hkdf lois.scelle hfidele hl hid hlast
  · exact fun p hp => h.lit lois.aead lois.sign lois.ideal hfidele hp
  · trivial

/-- In a run that keeps to the condition, the last link always opens the key it was made for,
the devices that opened it read every post until the next one, and those that only had earlier
links read none. -/
theorem canalRun_lisible (lois : Lois C) {victime : D}
    {choices : List (Choice (CanalTask D K) (Outside K))} {p : CanalPool D K B}
    (hrun : canalRun C victime choices = some p)
    (htirage : Always (canalSemantics C victime).step (Tirage C) p.trace .initial)
    (hfidele : Always (canalSemantics C victime).step (Fidele C) p.trace .initial) :
    Always (canalSemantics C victime).step (Lisible C) p.trace .initial := by
  have hguarded := (canalRun_isSafe lois.hkdf lois.scelle hrun).guarded
  refine always_of_invariant (Accord C) (fun e s t hs he ht => ?_)
    (fun e s hs he => hs.lisible lois he.2) .initial ((hguarded.and htirage).and hfidele)
  obtain ⟨⟨hguard, hdraw⟩, hkeeps⟩ := he
  obtain rfl := Option.some.inj ht
  exact hs.event lois hguard hdraw hkeeps

theorem canalRun_accord (lois : Lois C) {victime : D}
    {choices : List (Choice (CanalTask D K) (Outside K))} {p : CanalPool D K B}
    (hrun : canalRun C victime choices = some p)
    (htirage : Always (canalSemantics C victime).step (Tirage C) p.trace .initial)
    (hfidele : Always (canalSemantics C victime).step (Fidele C) p.trace .initial) :
    Accord C p.state := by
  have hsafe := canalRun_isSafe lois.hkdf lois.scelle hrun
  refine run_invariant_of_always (Accord C) (fun e s t hs he ht => ?_) .initial
    ((hsafe.guarded.and htirage).and hfidele) hsafe.replay
  obtain ⟨⟨hguard, hdraw⟩, hkeeps⟩ := he
  obtain rfl := Option.some.inj ht
  exact hs.event lois hguard hdraw hkeeps

/-! ## Two devices -/

def sampleCanal : Contexte Bool Bytes SymbolicSealed where
  primitives := symbolicChannel
  ids := symbolicIds
  canalIds :=
    { id := fun n => List.replicate (n + 1) 7
      injective := fun m n h => by simpa using congrArg List.length h
      ne_nil := fun n => by simp }
  compte d := if d then 1 else 2

theorem sampleCanal_lois : Lois sampleCanal where
  aead := symbolic_aeadCorrect
  sign := symbolicSender_signatureCorrect
  ideal := symbolicChannel_signatureIdeal
  hkdf := symbolic_hmacInjective
  scelle := symbolicChannel_sealIdeal

abbrev SampleChoices := List (Choice (CanalTask Bool Bytes) (Outside Bytes))

/-- What a body waits for comes, and it goes on, as often as there are answers. -/
def reponses (thread : Nat) (answers : List (Outside Bytes)) : SampleChoices :=
  answers.flatMap fun x => [.settle thread x, .resume thread]

/-- One device creates a channel, which the other one joins. -/
def joined : SampleChoices :=
  .start (.creerCanal true [1]) ::
      reponses 0 [.handled true, .cree ⟨[3], [4], true⟩, .scelle true [], .handled true, .done] ++
    .start (.rejoindreCanalParLien false ⟨[7], [1]⟩) ::
      reponses 1 [.handled true, .done, .handled true, .done, .handled true, .done]

/-- The key is renewed. -/
def renewed : SampleChoices :=
  joined ++ .start (.renouvelerCleCanal true [7] [2]) ::
    reponses 2 [.cree ⟨[5], [6], true⟩, .scelle true [], .handled true, .done]

/-- The subscriber opens the new link, and a post comes. -/
def reopened : SampleChoices :=
  renewed ++ .start (.rejoindreCanalParLien false ⟨[7], [2]⟩) ::
    .start (.publierDansCanal true [7] [10]) :: reponses 4 [.done, .handled true] ++
    [.start (.recevoirCanal false 0), .settle 5 .done]

/-- The subscriber was in the channel, and cannot read the post. -/
theorem reopened_illisible : ∃ p, canalRun sampleCanal false reopened = some p ∧
    Always (canalSemantics sampleCanal false).step (Tirage sampleCanal) p.trace .initial ∧
    p.state.publications.map (·.lecteurs) = [[false]] ∧
    p.state.moteurs.taken (false, [7], true) = [] ∧
    ¬ Always (canalSemantics sampleCanal false).step (Lisible sampleCanal) p.trace .initial :=
  ⟨(canalRun sampleCanal false reopened).get (by decide +kernel), (Option.some_get _).symm,
    by decide +kernel, by decide +kernel, by decide +kernel, by decide +kernel⟩

/-- The subscriber leaves the channel and joins it with the new link. -/
def rejoined : SampleChoices :=
  renewed ++ .start (.quitterCanal false [7]) :: reponses 3 [.handled true, .done] ++
    .start (.rejoindreCanalParLien false ⟨[7], [2]⟩) ::
      reponses 4 [.handled true, .done, .handled true, .done, .handled true, .done] ++
    .start (.publierDansCanal true [7] [10]) :: reponses 5 [.done, .handled true] ++
    [.start (.recevoirCanal false 0), .settle 6 .done]

theorem rejoined_lisible : ∃ p, canalRun sampleCanal false rejoined = some p ∧
    p.state.moteurs.taken (false, [7], true) = [0] ∧
    Always (canalSemantics sampleCanal false).step (Lisible sampleCanal) p.trace .initial := by
  have hchecked : (canalRun sampleCanal false rejoined).any (fun p => decide
      (Always (canalSemantics sampleCanal false).step (Tirage sampleCanal) p.trace .initial ∧
        Always (canalSemantics sampleCanal false).step (Fidele sampleCanal) p.trace .initial ∧
        p.state.moteurs.taken (false, [7], true) = [0])) = true := by
    decide +kernel
  obtain ⟨p, hrun, hp⟩ := (Option.any_eq_true _ _).mp hchecked
  obtain ⟨htirage, hfidele, htaken⟩ := of_decide_eq_true hp
  exact ⟨p, hrun, htaken, canalRun_lisible sampleCanal_lois hrun htirage hfidele⟩

end ZiaCrypte.Channels
