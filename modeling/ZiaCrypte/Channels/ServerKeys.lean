import ZiaCrypte.Channels.HeldKeys

/-!
# The key of a channel on the server

Whatever is put replaces what was there. While the owner puts no key but its own last one, the
server has the key of each link that was returned, or a later one.
-/
namespace ZiaCrypte.Channels

open ZiaCrypte.Lib ZiaCrypte.Engine ZiaCrypte.Engine.SenderKeys

variable {D K B : Type} {C : Contexte D K B} {s s' : Monde D K B}

/-- The server has the key that was put, or a later one. -/
structure Depots (C : Contexte D K B) (s : Monde D K B) : Prop where
  deposes : ∀ id b, (id, b) ∈ s.deposes → ∃ k m secret d, CleDe s k m id secret d ∧
    SealedWith C.primitives secret d b ∧ ∃ b' ∈ (s.canal? id).bind (·.sealedKey),
      ∃ k' m' secret' d', CleDe s k' m' id secret' d' ∧
        SealedWith C.primitives secret' d' b' ∧ k ≤ k'

theorem Depots.initial : Depots C (.initial : Monde D K B) where
  deposes _ _ h := absurd h List.not_mem_nil

theorem Depots.suite (h : Depots C s) (hsuite : Suite s s') (hdeposes : s'.deposes = s.deposes)
    (hcanal : ∀ id, ∀ b ∈ (s.canal? id).bind (·.sealedKey),
      b ∈ (s'.canal? id).bind (·.sealedKey)) : Depots C s' := by
  refine ⟨fun id b hb => ?_⟩
  rw [hdeposes] at hb
  obtain ⟨k, m, secret, d, hcle, hsealed, b', hb', k', m', secret', d', hcle', hsealed', hle⟩ :=
    h.deposes id b hb
  exact ⟨k, m, secret, d, hcle.suite hsuite, hsealed, b', hcanal id b' hb', k', m', secret', d',
    hcle'.suite hsuite, hsealed', hle⟩

theorem canal?_mapCanal {id : Identifier} {f : Canal D B → Canal D B} (hid : ∀ c, (f c).id = c.id)
    (id' : Identifier) :
    (s.mapCanal id f).canal? id' = (s.canal? id').map fun c => if c.id = id then f c else c := by
  rw [Monde.mapCanal, Monde.canal?, Monde.canal?, List.find?_map]
  congr 2
  funext c
  simp only [Function.comp_apply]
  split
  · rw [hid]
  · rfl

/-- The keys on the server stay when rows change otherwise. -/
theorem sealedKey_mapCanal {id : Identifier} {f : Canal D B → Canal D B}
    (hid : ∀ c, (f c).id = c.id) (hsealed : ∀ c, (f c).sealedKey = c.sealedKey)
    (id' : Identifier) :
    ((s.mapCanal id f).canal? id').bind (·.sealedKey) = (s.canal? id').bind (·.sealedKey) := by
  rw [canal?_mapCanal hid]
  cases s.canal? id' with
  | none => rfl
  | some c =>
    show Canal.sealedKey (if c.id = id then f c else c) = c.sealedKey
    split
    · exact hsealed c
    · rfl

/-- The key of the owner replaces those before it. -/
theorem Depots.put {d : D} {id : Identifier} {b : B}
    (hkdf : HmacInjective C.primitives.toPrimitives) (hseal : SealIdeal C.primitives)
    (h : Depots C s) (hcles : Cles C s) (hregistre : Registre C s) (hguard : Scellee C s d id b)
    (hfidele : ∃ k ∈ s.moteurs.current (d, id), ∃ secret ∈ s.secrets[k]?,
      (ziaChannelOpenKey C.primitives true secret b).isOk = true)
    (hadmin : s.administre C d id = true)
    (hsuite : Suite s (s.putChannelKey C d id b)) : Depots C (s.putChannelKey C d id b) := by
  obtain ⟨k, secret, dist, hcle, hsealed⟩ := hguard
  -- What is put is sealed under the secret of the owner's key.
  have hcourante : s.moteurs.current (d, id) = some k := by
    obtain ⟨k', hk', secret', hsecret', hok⟩ := hfidele
    cases hopen : ziaChannelOpenKey C.primitives true secret' b with
    | error rc =>
      rw [hopen] at hok
      cases hok
    | ok dist' =>
      obtain ⟨rfl, -⟩ := hsealed.of_open hkdf hseal hopen
      have hlt := (List.getElem?_eq_some_iff.mp hcle.choose_spec.2.2).1
      rw [(List.getElem?_inj hlt hcles.secrets).mp (hcle.choose_spec.2.2.trans hsecret'.symm)]
      exact hk'
  have hcanal : ∀ id', ((s.putChannelKey C d id b).canal? id').bind (·.sealedKey) =
      if id' = id then some b else (s.canal? id').bind (·.sealedKey) := by
    intro id'
    obtain ⟨c, hc, -⟩ := (Option.any_eq_true _ _).mp hadmin
    rw [Monde.putChannelKey, if_pos hadmin]
    have hmap := @canal?_mapCanal _ _ _ s id (fun c => { c with sealedKey := some b })
      (fun _ => rfl) id'
    show ((s.mapCanal id fun c => { c with sealedKey := some b }).canal? id').bind _ = _
    rw [hmap]
    by_cases hid : id' = id
    · rw [if_pos hid, hid, hc, Option.map_some, Option.bind_some, if_pos (canal_of_canal? hc).2]
    · rw [if_neg hid]
      cases hc' : s.canal? id' with
      | none => rfl
      | some c' =>
        rw [Option.map_some, Option.bind_some, if_neg, Option.bind_some]
        rw [(canal_of_canal? hc').2]
        exact hid
  have hput := hcle.suite hsuite
  refine ⟨fun id' b' hb' => ?_⟩
  rw [Monde.putChannelKey, if_pos hadmin] at hb'
  rcases List.mem_cons.mp hb' with heq | hold
  · obtain ⟨rfl, rfl⟩ := Prod.mk.inj heq
    refine ⟨k, d, secret, dist, hput, hsealed, b', ?_, k, d, secret, dist, hput, hsealed,
      Nat.le_refl k⟩
    rw [hcanal, if_pos rfl]
    rfl
  · obtain ⟨k₀, m₀, secret₀, d₀, hcle₀, hsealed₀, b₁, hb₁, hlater⟩ := h.deposes id' b' hold
    refine ⟨k₀, m₀, secret₀, d₀, hcle₀.suite hsuite, hsealed₀, ?_⟩
    rw [hcanal]
    by_cases hid : id' = id
    · rw [if_pos hid]
      rw [hid] at hcle₀ ⊢
      have hsender := hregistre.admin_eq (hcle₀.admin hregistre) (hcle.admin hregistre)
      rw [hsender] at hcle₀
      exact ⟨b, rfl, k, d, secret, dist, hput, hsealed, hcles.le_courante hcourante hcle₀⟩
    · rw [if_neg hid]
      obtain ⟨k₁, m₁, secret₁, d₁, hcle₁, hsealed₁, hle⟩ := hlater
      exact ⟨b₁, hb₁, k₁, m₁, secret₁, d₁, hcle₁.suite hsuite, hsealed₁, hle⟩

variable [DecidableEq D] [DecidableEq K]

theorem Depots.event {victime : D} (hkdf : HmacInjective C.primitives.toPrimitives)
    (hseal : SealIdeal C.primitives) (h : Depots C s) (hcles : Cles C s) (hregistre : Registre C s)
    {e : CanalEvent D K B} (hguard : CanalGuard C e s) (hfidele : Fidele C e s) :
    Depots C ((canalSemantics C victime).apply e s) := by
  cases e with
  | act a =>
    refine h.suite (pas_act hguard).suite ?_ fun id b hb => ?_
    · cases a <;> rfl
    · cases a <;> exact hb
  | issue q => exact h.suite (pas_event (by simp) hguard).suite rfl fun _ _ hb => hb
  | crash => exact hfidele.elim
  | settle t q x =>
    have hsuite : Suite s (q.settle C x s) := (pas_settle hguard).suite
    show Depots C (q.settle C x s)
    cases q with
    | createChannel d =>
      cases x with
      | handled received =>
        refine h.suite hsuite rfl fun id b hb => ?_
        obtain ⟨c, hc, hsealed⟩ := Option.bind_eq_some_iff.mp hb
        have hfind : (s.createChannel C d).canal? id = some c := by
          rw [Monde.createChannel, Monde.canal?, List.find?_append]
          rw [show s.canaux.find? _ = some c from hc]
          rfl
        exact Option.bind_eq_some_iff.mpr ⟨c, hfind, hsealed⟩
      | _ => exact h
    | putChannelKey d id b =>
      cases x with
      | handled received =>
        by_cases hadmin : s.administre C d id = true
        · exact h.put hkdf hseal hcles hregistre hguard hfidele hadmin hsuite
        · show Depots C (s.putChannelKey C d id b)
          rwa [Monde.putChannelKey, if_neg hadmin]
      | _ => exact h
    | subscribeChannel d id =>
      cases x with
      | handled received =>
        refine h.suite hsuite rfl fun id' b hb => ?_
        have hsame := @sealedKey_mapCanal _ _ _ s id (fun c => { c with
          subscribers := if d ∈ c.subscribers then c.subscribers else c.subscribers ++ [d] })
          (fun _ => rfl) (fun _ => rfl) id'
        exact hsame ▸ hb
      | _ => exact h
    | unsubscribeChannel d id =>
      cases x with
      | handled received =>
        refine h.suite hsuite rfl fun id' b hb => ?_
        have hsame := @sealedKey_mapCanal _ _ _ s id (fun c => { c with
          subscribers := c.subscribers.filter (· ≠ d) }) (fun _ => rfl) (fun _ => rfl) id'
        exact hsame ▸ hb
      | _ => exact h
    | postChannel d id message =>
      cases x with
      | handled received =>
        have hcanaux : (s.postChannel C d id message).canaux = s.canaux := by
          unfold Monde.postChannel
          split <;> rfl
        have hdeposes : (s.postChannel C d id message).deposes = s.deposes := by
          unfold Monde.postChannel
          split <;> rfl
        refine h.suite hsuite hdeposes fun id' b hb => ?_
        show b ∈ ((s.postChannel C d id message).canaux.find? (·.id == id')).bind (·.sealedKey)
        rw [hcanaux]
        exact hb
      | _ => exact h
    | _ =>
      cases x <;> first | exact h | exact h.suite hsuite rfl fun _ _ hb => hb

end ZiaCrypte.Channels
