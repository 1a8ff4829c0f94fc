import ZiaCrypte.Engine.GroupDelivery
import ZiaCrypte.Engine.KeySchedule

/-!
# Group messages that are replayed

A receiving engine processes any distributions and decrypts any messages. A
message key that was taken cannot be derived from any entry again, as long as no
distribution brings it back; and a message opens under one key only.
-/
namespace ZiaCrypte.Engine.SenderKeys

open ZiaCrypte.Lib

variable {K : Type} (P : SenderKeyPrimitives K)

/-- A receiving engine, and the messages it accepted, newest first: the group and
the part that is signed. -/
structure Receiver (K : Type) where
  keys : List (ZiaSenderKey K)
  accepted : List (Identifier × Bytes)

inductive ReceiverCall (K : Type) where
  | process (group sender : Identifier) (distribution : Option (Distribution K))
  | decrypt (alloc : Bool) (group sender : Identifier) (message : Bytes)

namespace Receiver

/-- No sender key outlives its engine. -/
def start : Receiver K := ⟨[], []⟩

def step : ReceiverCall K → Receiver K → Receiver K
  | .process group sender distribution, w =>
      { w with keys := (ziaSenderKeyProcess w.keys group sender distribution).2 }
  | .decrypt alloc group sender message, w =>
      match ziaSenderKeyDecrypt P alloc w.keys group sender message with
      | (.ok _, keys) => ⟨keys, (group, signedPart message) :: w.accepted⟩
      | (.error _, keys) => { w with keys := keys }

end Receiver

/-- The key of the message `j` places down a chain. -/
def messageKeyAt (ck : K) (j : Nat) : K :=
  messageKey P.toPrimitives (chainKeyAt P.toPrimitives ck j)

/-- The message keys an entry holds or can still derive. -/
def Derives (st : ZiaSenderKey K) (mk : K) : Prop :=
  mk ∈ st.skipped.map (·.key) ∨ ∃ j, mk = messageKeyAt P st.chainKey j

/-- The key opens the message. -/
def Opens (mk : K) (m : Identifier × Bytes) : Prop :=
  ∃ plaintext, P.aeadDecrypt mk zeroNonce (m.2.drop (kMagicLen + 4)) m.1 = some plaintext

/-- A distribution derives no key that opens a message accepted before in its group,
and none that another sender's entry of the group derives. -/
def FreshDistribution : ReceiverCall K → Receiver K → Prop
  | .process group sender (some d), w =>
      d.magic = kMagicDistribution → ∀ j,
        (∀ m ∈ w.accepted, m.1 = group → ¬ Opens P (messageKeyAt P d.chainKey j) m) ∧
        ∀ other st, other ≠ sender → trouver w.keys group other = some st →
          ¬ Derives P st (messageKeyAt P d.chainKey j)
  | _, _ => True

/-- A chain never comes back to a key it left. -/
def HmacAcyclic (P : Primitives K) : Prop := ∀ ck k, chainKeyAt P ck (k + 1) ≠ ck

/-! ## The keys of a chain -/

variable {P}

theorem chainKeyAt_inj (h : HmacInjective P.toPrimitives) {ck ck' : K} {n : Nat}
    (heq : chainKeyAt P.toPrimitives ck n = chainKeyAt P.toPrimitives ck' n) : ck = ck' := by
  induction n with
  | zero => exact heq
  | succ n ih =>
    rw [← nextChainKey_chainKeyAt, ← nextChainKey_chainKeyAt] at heq
    exact ih (h _ _ _ _ heq).1

/-- No message key comes twice on a chain. -/
theorem messageKeyAt_ne (h : HmacInjective P.toPrimitives) (hacyclic : HmacAcyclic P.toPrimitives)
    (ck : K) {i j : Nat} (hlt : i < j) : messageKeyAt P ck i ≠ messageKeyAt P ck j := by
  intro heq
  have hchains := (h _ _ _ _ heq).1
  obtain ⟨d, rfl⟩ := Nat.exists_eq_add_of_lt hlt
  rw [show i + d + 1 = d + 1 + i by omega, ← chainKeyAt_add] at hchains
  exact hacyclic ck d (chainKeyAt_inj h hchains).symm

theorem messageKeyAt_next (ck : K) (j : Nat) :
    messageKeyAt P (nextChainKey P.toPrimitives ck) j = messageKeyAt P ck (j + 1) := rfl

/-! ## One entry -/

variable (P) in
/-- No message key can be taken from the entry twice. -/
structure Clean (st : ZiaSenderKey K) : Prop where
  nodup : (st.skipped.map (·.key)).Nodup
  behind : ∀ mk ∈ st.skipped.map (·.key), ∀ j, mk ≠ messageKeyAt P st.chainKey j

variable {st st' : ZiaSenderKey K} {mk mk' : K}

theorem clean_of_empty (h : st.skipped = []) : Clean P st where
  nodup := by rw [h]; exact List.nodup_nil
  behind mk hmk := by rw [h] at hmk; cases hmk

theorem derives_of_empty (h : st.skipped = []) (hmk : Derives P st mk) :
    ∃ j, mk = messageKeyAt P st.chainKey j := by
  rcases hmk with hold | hnew
  · rw [h] at hold
    cases hold
  · exact hnew

/-- The chain moves on: what it can derive behind its first key is what it could. -/
theorem Clean.avancer (hkdf : HmacInjective P.toPrimitives)
    (hacyclic : HmacAcyclic P.toPrimitives) (h : Clean P st) :
    Clean P (avancer P st) ∧ ∀ mk', Derives P (avancer P st) mk' →
      Derives P st mk' ∧ mk' ≠ messageKeyAt P st.chainKey 0 := by
  have hnext : ∀ j, messageKeyAt P (SenderKeys.avancer P st).chainKey j =
      messageKeyAt P st.chainKey (j + 1) := messageKeyAt_next st.chainKey
  refine ⟨⟨h.nodup, fun mk hmk j => ?_⟩, ?_⟩
  · rw [hnext]
    exact h.behind mk hmk (j + 1)
  · rintro mk' (hold | ⟨j, rfl⟩)
    · exact ⟨.inl hold, h.behind mk' hold 0⟩
    · rw [hnext]
      exact ⟨.inr ⟨j + 1, rfl⟩, (messageKeyAt_ne hkdf hacyclic _ (Nat.succ_pos j)).symm⟩

/-- The keys after one is set aside, the oldest perhaps pushed out. -/
theorem keys_sauterTour (st : ZiaSenderKey K) :
    ∃ kept, kept.Sublist (st.skipped.map (·.key)) ∧
      (sauterTour P st).skipped.map (·.key) = kept ++ [messageKeyAt P st.chainKey 0] := by
  have hskipped : (sauterTour P st).skipped =
      (if st.skipped.length ≥ kMaxSkippedKeys then st.skipped.drop 1 else st.skipped) ++
        [⟨st.iteration, messageKey P.toPrimitives st.chainKey⟩] := rfl
  refine ⟨(if st.skipped.length ≥ kMaxSkippedKeys then st.skipped.drop 1 else st.skipped).map
    (·.key), ?_, ?_⟩
  · refine List.Sublist.map _ ?_
    split
    · exact List.drop_sublist 1 _
    · exact List.Sublist.refl _
  · rw [hskipped, List.map_append, List.map_singleton]
    rfl

theorem Clean.sauterTour (hkdf : HmacInjective P.toPrimitives)
    (hacyclic : HmacAcyclic P.toPrimitives) (h : Clean P st) :
    Clean P (sauterTour P st) ∧
      ∀ mk', Derives P (sauterTour P st) mk' → Derives P st mk' := by
  obtain ⟨kept, hkept, hkeys⟩ := keys_sauterTour (P := P) st
  have hnext : ∀ j, messageKeyAt P (SenderKeys.sauterTour P st).chainKey j =
      messageKeyAt P st.chainKey (j + 1) := messageKeyAt_next st.chainKey
  refine ⟨⟨?_, ?_⟩, ?_⟩
  · rw [hkeys]
    refine List.nodup_append.mpr ⟨h.nodup.sublist hkept, List.nodup_cons.mpr ⟨List.not_mem_nil, List.nodup_nil⟩, ?_⟩
    intro a ha b hb
    rw [List.mem_singleton.mp hb]
    exact h.behind a (hkept.subset ha) 0
  · intro mk hmk j
    rw [hkeys] at hmk
    rw [hnext]
    rcases List.mem_append.mp hmk with hold | hnew
    · exact h.behind mk (hkept.subset hold) (j + 1)
    · rw [List.mem_singleton.mp hnew]
      exact messageKeyAt_ne hkdf hacyclic _ (Nat.succ_pos j)
  · rintro mk' (hold | ⟨j, rfl⟩)
    · rw [hkeys] at hold
      rcases List.mem_append.mp hold with hold | hnew
      · exact .inl (hkept.subset hold)
      · exact .inr ⟨0, List.mem_singleton.mp hnew⟩
    · exact .inr ⟨j + 1, hnext j⟩

theorem Clean.skips (hkdf : HmacInjective P.toPrimitives)
    (hacyclic : HmacAcyclic P.toPrimitives) (h : Clean P st) (d : Nat) :
    Clean P ((SenderKeys.sauterTour P)^[d] st) ∧
      ∀ mk', Derives P ((SenderKeys.sauterTour P)^[d] st) mk' → Derives P st mk' := by
  induction d with
  | zero => exact ⟨h, fun _ hmk => hmk⟩
  | succ d ih =>
    obtain ⟨hclean, hkeys⟩ := ih
    obtain ⟨hclean', hkeys'⟩ := hclean.sauterTour hkdf hacyclic
    rw [Function.iterate_succ_apply']
    exact ⟨hclean', fun mk' hmk => hkeys mk' (hkeys' mk' hmk)⟩

/-- A key that is taken is one the entry derives, and it derives it no more. -/
theorem Clean.clefDeMessage (hkdf : HmacInjective P.toPrimitives)
    (hacyclic : HmacAcyclic P.toPrimitives) (h : Clean P st) {i : UInt32}
    (hkey : clefDeMessage P st i = .ok (mk, st')) :
    Derives P st mk ∧ SameSender st st' ∧ Clean P st' ∧
      ∀ mk', Derives P st' mk' → Derives P st mk' ∧ mk' ≠ mk := by
  rcases clefDeMessage_cases hkey with
    ⟨sk, before, after, hsplit, _, rfl, rfl⟩ | ⟨d, _, rfl, rfl⟩
  · have hmem : sk.key ∈ st.skipped.map (·.key) := by
      rw [hsplit, List.map_append, List.map_cons]
      exact List.mem_append_right _ List.mem_cons_self
    have hperm : (st.skipped.map (·.key)).Perm (sk.key :: (before ++ after).map (·.key)) := by
      rw [hsplit, List.map_append, List.map_cons, List.map_append]
      exact List.perm_middle
    obtain ⟨hnew, hnodup⟩ := List.nodup_cons.mp (hperm.nodup_iff.mp h.nodup)
    have hsub : ∀ a ∈ (before ++ after).map (·.key), a ∈ st.skipped.map (·.key) :=
      fun a ha => hperm.mem_iff.mpr (List.mem_cons_of_mem _ ha)
    refine ⟨.inl hmem, ⟨rfl, rfl, rfl, rfl⟩, ⟨hnodup, fun a ha j => h.behind a (hsub a ha) j⟩, ?_⟩
    rintro mk' (hold | ⟨j, rfl⟩)
    · refine ⟨.inl (hsub mk' hold), ?_⟩
      rintro rfl
      exact hnew hold
    · exact ⟨.inr ⟨j, rfl⟩, (h.behind sk.key hmem j).symm⟩
  · obtain ⟨hclean, hkeys⟩ := h.skips hkdf hacyclic d
    obtain ⟨hclean', hkeys'⟩ := hclean.avancer hkdf hacyclic
    refine ⟨hkeys _ (.inr ⟨0, rfl⟩), (sameSender_skips d st).trans (sameSender_avancer _),
      hclean', fun mk' hmk => ?_⟩
    obtain ⟨hold, hne⟩ := hkeys' mk' hmk
    exact ⟨hkeys mk' hold, hne⟩

/-! ## The whole engine -/

/-- What was accepted is opened by no key an entry of its group still derives. -/
structure ReplayInv (P : SenderKeyPrimitives K) (w : Receiver K) : Prop where
  clean : ∀ group sender st, trouver w.keys group sender = some st → Clean P st
  apart : ∀ group sender sender' st st' mk, sender ≠ sender' →
    trouver w.keys group sender = some st → trouver w.keys group sender' = some st' →
    Derives P st mk → ¬ Derives P st' mk
  closed : ∀ group sender st mk, trouver w.keys group sender = some st → Derives P st mk →
    ∀ m ∈ w.accepted, m.1 = group → ¬ Opens P mk m
  opened : ∀ m ∈ w.accepted, ∃ mk, Opens P mk m
  nodup : (w.accepted.map (·.2)).Nodup

theorem replayInv_start : ReplayInv P (Receiver.start : Receiver K) where
  clean group sender st h := by cases h
  apart group sender sender' st st' mk _ h := by cases h
  closed group sender st mk h := by cases h
  opened m h := by cases h
  nodup := List.nodup_nil

/-- A distribution is refused, or a new entry replaces the sender's. -/
theorem process_cases (keys : List (ZiaSenderKey K)) (group sender : Identifier)
    (distribution : Option (Distribution K)) :
    (ziaSenderKeyProcess keys group sender distribution).2 = keys ∨
    ∃ d st, distribution = some d ∧ d.magic = kMagicDistribution ∧
      (ziaSenderKeyProcess keys group sender distribution).2 = installer keys st ∧
      st.groupId = group ∧ st.senderId = sender ∧ st.chainKey = d.chainKey ∧
      st.skipped = [] := by
  cases distribution with
  | none => exact .inl rfl
  | some d =>
    unfold ziaSenderKeyProcess
    by_cases hmagic : d.magic = kMagicDistribution
    · by_cases hids : group = [] ∨ sender = []
      · exact .inl (by simp [hids])
      · refine .inr ⟨d, ⟨group, sender, d.chainKey, d.iteration, d.signingPublic, none, []⟩,
          rfl, hmagic, ?_, rfl, rfl, rfl, rfl⟩
        simp [hmagic, hids]
    · exact .inl (by simp [hmagic])

variable {w : Receiver K}

theorem ReplayInv.process (h : ReplayInv P w) {group sender : Identifier}
    {distribution : Option (Distribution K)}
    (hfresh : FreshDistribution P (.process group sender distribution) w) :
    ReplayInv P (Receiver.step P (.process group sender distribution) w) := by
  rcases process_cases w.keys group sender distribution with
    hsame | ⟨d, st, rfl, hmagic, hkeys, rfl, rfl, hchain, hskipped⟩
  · simp only [Receiver.step, hsame]
    exact h
  have hfresh' := hfresh hmagic
  rw [← hchain] at hfresh'
  have hderives : ∀ mk, Derives P st mk → ∃ j, mk = messageKeyAt P st.chainKey j :=
    fun mk => derives_of_empty hskipped
  have hself := trouver_installer w.keys st
  have hother : ∀ {g s}, ¬ (st.groupId = g ∧ st.senderId = s) →
      trouver (installer w.keys st) g s = trouver w.keys g s := trouver_installer_ne
  simp only [Receiver.step, hkeys]
  constructor
  · intro g s st₁ hst
    by_cases hids : st.groupId = g ∧ st.senderId = s
    · obtain ⟨rfl, rfl⟩ := hids
      obtain rfl := Option.some.inj (hself.symm.trans hst)
      exact clean_of_empty hskipped
    · exact h.clean g s st₁ ((hother hids).symm.trans hst)
  · intro g s s' st₁ st₂ mk hne h₁ h₂ hmk hmk'
    by_cases hids : st.groupId = g ∧ st.senderId = s
    · obtain ⟨rfl, rfl⟩ := hids
      obtain rfl := Option.some.inj (hself.symm.trans h₁)
      obtain ⟨j, rfl⟩ := hderives mk hmk
      exact (hfresh' j).2 s' st₂ (Ne.symm hne)
        ((hother fun hids => hne hids.2).symm.trans h₂) hmk'
    by_cases hids' : st.groupId = g ∧ st.senderId = s'
    · obtain ⟨rfl, rfl⟩ := hids'
      obtain rfl := Option.some.inj (hself.symm.trans h₂)
      obtain ⟨j, rfl⟩ := hderives mk hmk'
      exact (hfresh' j).2 s st₁ hne ((hother hids).symm.trans h₁) hmk
    · exact h.apart g s s' st₁ st₂ mk hne ((hother hids).symm.trans h₁)
        ((hother hids').symm.trans h₂) hmk hmk'
  · intro g s st₁ mk hst hmk m hm hgroup
    by_cases hids : st.groupId = g ∧ st.senderId = s
    · obtain ⟨rfl, rfl⟩ := hids
      obtain rfl := Option.some.inj (hself.symm.trans hst)
      obtain ⟨j, rfl⟩ := hderives mk hmk
      exact (hfresh' j).1 m hm hgroup
    · exact h.closed g s st₁ mk ((hother hids).symm.trans hst) hmk m hm hgroup
  · exact h.opened
  · exact h.nodup

/-- The entries after a key was taken derive no more than before, and not that key. -/
theorem ReplayInv.take (hkdf : HmacInjective P.toPrimitives)
    (hacyclic : HmacAcyclic P.toPrimitives) (h : ReplayInv P w) {group sender : Identifier}
    (hst : trouver w.keys group sender = some st) {i : UInt32}
    (hkey : clefDeMessage P st i = .ok (mk, st')) :
    ReplayInv P { w with keys := ecrire w.keys st' } ∧
      ∀ s st₁, trouver (ecrire w.keys st') group s = some st₁ → ¬ Derives P st₁ mk := by
  obtain ⟨hmk, hsame, hclean, hless⟩ :=
    (h.clean group sender st hst).clefDeMessage hkdf hacyclic hkey
  obtain ⟨hgroup, hsender⟩ := trouver_ids hst
  have hids : st'.groupId = group ∧ st'.senderId = sender :=
    ⟨hsame.groupId.trans hgroup, hsame.senderId.trans hsender⟩
  have hself : trouver (ecrire w.keys st') group sender = some st' := trouver_ecrire hids hst
  -- Every entry derives only what the one under its ids did.
  have hbefore : ∀ g s st₁, trouver (ecrire w.keys st') g s = some st₁ → Clean P st₁ ∧
      ∃ st₀, trouver w.keys g s = some st₀ ∧ ∀ mk', Derives P st₁ mk' → Derives P st₀ mk' := by
    intro g s st₁ hst₁
    by_cases hslot : group = g ∧ sender = s
    · obtain ⟨rfl, rfl⟩ := hslot
      obtain rfl := Option.some.inj (hself.symm.trans hst₁)
      exact ⟨hclean, st, hst, fun mk' hmk' => (hless mk' hmk').1⟩
    · rw [trouver_ecrire_ne (by rwa [hids.1, hids.2])] at hst₁
      exact ⟨h.clean g s st₁ hst₁, st₁, hst₁, fun _ hmk' => hmk'⟩
  refine ⟨⟨fun g s st₁ hst₁ => (hbefore g s st₁ hst₁).1, ?_, ?_, h.opened, h.nodup⟩, ?_⟩
  · intro g s s' st₁ st₂ mk' hne h₁ h₂ hd₁ hd₂
    obtain ⟨_, st₁', h₁', hsub₁⟩ := hbefore g s st₁ h₁
    obtain ⟨_, st₂', h₂', hsub₂⟩ := hbefore g s' st₂ h₂
    exact h.apart g s s' st₁' st₂' mk' hne h₁' h₂' (hsub₁ mk' hd₁) (hsub₂ mk' hd₂)
  · intro g s st₁ mk' hst₁ hd
    obtain ⟨_, st₀, hst₀, hsub⟩ := hbefore g s st₁ hst₁
    exact h.closed g s st₀ mk' hst₀ (hsub mk' hd)
  · intro s st₁ hst₁ hd
    by_cases hs : s = sender
    · subst hs
      obtain rfl := Option.some.inj (hself.symm.trans hst₁)
      exact (hless mk hd).2 rfl
    · obtain ⟨_, st₀, hst₀, hsub⟩ := hbefore group s st₁ hst₁
      exact h.apart group s sender st₀ st mk hs hst₀ hst (hsub mk hd) hmk

theorem Opens.unique (haead : AeadIdeal P.toPrimitives) {g g' : Identifier} {b : Bytes}
    (h : Opens P mk (g, b)) (h' : Opens P mk' (g', b)) : mk = mk' ∧ g = g' := by
  obtain ⟨pt, hopen⟩ := h
  obtain ⟨pt', hopen'⟩ := h'
  exact haead.binds _ _ _ _ _ _ _ _ (haead.sealed _ _ _ _ _ hopen)
    (haead.sealed _ _ _ _ _ hopen')

theorem ReplayInv.decrypt (hkdf : HmacInjective P.toPrimitives)
    (hacyclic : HmacAcyclic P.toPrimitives) (haead : AeadIdeal P.toPrimitives)
    (h : ReplayInv P w) (alloc : Bool) (group sender : Identifier) (message : Bytes) :
    ReplayInv P (Receiver.step P (.decrypt alloc group sender message) w) := by
  rcases decrypt_cases (P := P) alloc w.keys group sender message with
    ⟨rc, hdecrypt⟩ | ⟨st, st', mk, r, hst, -, hkey, hdecrypt, hopens⟩
  · simp only [Receiver.step, hdecrypt]
    exact h
  obtain ⟨htaken, hgone⟩ := h.take hkdf hacyclic hst hkey
  have hmk := ((h.clean group sender st hst).clefDeMessage hkdf hacyclic hkey).1
  cases r with
  | error rc =>
    simp only [Receiver.step, hdecrypt]
    exact htaken
  | ok plaintext =>
    have hopen : Opens P mk (group, signedPart message) := ⟨plaintext, hopens plaintext rfl⟩
    -- The key opened nothing before, so the message is new.
    have hnew : signedPart message ∉ w.accepted.map (·.2) := by
      intro hmem
      obtain ⟨⟨g, b⟩, hm, rfl⟩ := List.mem_map.mp hmem
      obtain ⟨mk', hopen'⟩ := h.opened _ hm
      obtain ⟨rfl, rfl⟩ := hopen.unique haead hopen'
      exact h.closed group sender st mk hst hmk _ hm rfl hopen'
    simp only [Receiver.step, hdecrypt]
    constructor
    · exact htaken.clean
    · exact htaken.apart
    · intro g s st₁ mk' hst₁ hd m hm hgroup hopen'
      rcases List.mem_cons.mp hm with rfl | hold
      · obtain ⟨rfl, _⟩ := hopen'.unique haead hopen
        obtain rfl : group = g := hgroup
        exact hgone s st₁ hst₁ hd
      · exact htaken.closed g s st₁ mk' hst₁ hd m hold hgroup hopen'
    · intro m hm
      rcases List.mem_cons.mp hm with rfl | hold
      · exact ⟨mk, hopen⟩
      · exact htaken.opened m hold
    · exact List.nodup_cons.mpr ⟨hnew, htaken.nodup⟩

theorem ReplayInv.step (hkdf : HmacInjective P.toPrimitives)
    (hacyclic : HmacAcyclic P.toPrimitives) (haead : AeadIdeal P.toPrimitives)
    (h : ReplayInv P w) {call : ReceiverCall K} (hfresh : FreshDistribution P call w) :
    ReplayInv P (Receiver.step P call w) := by
  cases call with
  | process group sender distribution => exact h.process hfresh
  | decrypt alloc group sender message =>
    exact h.decrypt hkdf hacyclic haead alloc group sender message

/-- What was accepted stays so. -/
theorem Receiver.accepted_step (call : ReceiverCall K) (w : Receiver K) :
    ∀ m ∈ w.accepted, m ∈ (Receiver.step P call w).accepted := by
  intro m hm
  cases call with
  | process group sender distribution => exact hm
  | decrypt alloc group sender message =>
    rw [Receiver.step]
    split
    · exact List.mem_cons_of_mem _ hm
    · exact hm

/-- Whatever is processed and decrypted, in any order: as long as no distribution
brings back keys that opened messages, no message is accepted twice. -/
theorem groupMessage_acceptedAtMostOnce (hkdf : HmacInjective P.toPrimitives)
    (hacyclic : HmacAcyclic P.toPrimitives) (haead : AeadIdeal P.toPrimitives)
    (calls : List (ReceiverCall K)) (w : Receiver K)
    (hfresh : Always (fun c w => some (Receiver.step P c w)) (FreshDistribution P) calls
      Receiver.start)
    (hrun : run (fun c w => some (Receiver.step P c w)) calls Receiver.start = some w) :
    (w.accepted.map (·.2)).Nodup := by
  have hstep : ∀ c w t, ReplayInv P w → FreshDistribution P c w →
      some (Receiver.step P c w) = some t → ReplayInv P t := by
    intro c w t hinv hc ht
    obtain rfl := Option.some.inj ht
    exact hinv.step hkdf hacyclic haead hc
  exact (run_invariant_of_always (ReplayInv P) hstep replayInv_start hfresh hrun).nodup

/-! ## A distribution that comes twice -/

theorem length_quote (bs : Bytes) : (quote bs).length = 2 * bs.length + 1 := by
  induction bs with
  | nil => rfl
  | cons b bs ih =>
    simp only [quote, List.length_cons, ih]
    omega

theorem length_symbolicChain (ck : Bytes) (k : Nat) :
    ck.length + k ≤ (chainKeyAt symbolicSender.toPrimitives ck k).length := by
  induction k with
  | zero => exact Nat.le_refl _
  | succ k ih =>
    rw [← nextChainKey_chainKeyAt]
    have hnext : ∀ c, (quote c).length ≤ (nextChainKey symbolicSender.toPrimitives c).length :=
      fun c => by
        change _ ≤ (quote c ++ _).length
        rw [List.length_append]
        exact Nat.le_add_right _ _
    have hquote := hnext (chainKeyAt symbolicSender.toPrimitives ck k)
    rw [length_quote] at hquote
    omega

theorem symbolicSender_hmacAcyclic : HmacAcyclic symbolicSender.toPrimitives := by
  intro ck k heq
  have hlength := length_symbolicChain ck (k + 1)
  rw [heq] at hlength
  omega

def symbolicDistribution (chain : Bytes) : Distribution Bytes :=
  ⟨kMagicDistribution, 0, chain, symbolicSender.ed25519Base [4]⟩

/-- The first message under the key `[3]`. -/
def symbolicMessage : Bytes :=
  messageBytes symbolicSender [4] 0
    (symbolicSeal (messageKeyAt symbolicSender [3] 0) zeroNonce [10] [7])

/-- The control message with the key is delivered again, and then the message. -/
def symbolicReplay : List (ReceiverCall Bytes) :=
  [.process [7] [1] (some (symbolicDistribution [3])), .decrypt true [7] [1] symbolicMessage,
    .process [7] [1] (some (symbolicDistribution [3])), .decrypt true [7] [1] symbolicMessage]

theorem repeatedDistribution_acceptsAgain :
    ∃ w, run (fun c w => some (Receiver.step symbolicSender c w)) symbolicReplay
        Receiver.start = some w ∧
      w.accepted.map (·.2) = [signedPart symbolicMessage, signedPart symbolicMessage] ∧
      ¬ (w.accepted.map (·.2)).Nodup :=
  ⟨_, rfl, by decide +kernel, by decide +kernel⟩

theorem symbolicMessage_opens :
    Opens symbolicSender (messageKeyAt symbolicSender [3] 0) ([7], signedPart symbolicMessage) :=
  ⟨[10], by decide +kernel⟩

/-- Another chain has no key of the first message. -/
theorem symbolicRenewal_fresh (j : Nat) :
    ¬ Opens symbolicSender (messageKeyAt symbolicSender [5] j)
      ([7], signedPart symbolicMessage) := by
  intro hopen
  have hkeys := (hopen.unique symbolic_aeadIdeal symbolicMessage_opens).1
  have hchain : chainKeyAt symbolicSender.toPrimitives [5] j = [3] :=
    (symbolic_hmacInjective _ _ _ _ hkeys).1
  cases j with
  | zero => exact absurd hchain (by decide)
  | succ j =>
    have hlength := length_symbolicChain [5] (j + 1)
    rw [hchain] at hlength
    change 1 + (j + 1) ≤ 1 at hlength
    omega

/-- The sender renewed its key between the two deliveries. -/
def symbolicRenewal : List (ReceiverCall Bytes) :=
  [.process [7] [1] (some (symbolicDistribution [3])), .decrypt true [7] [1] symbolicMessage,
    .process [7] [1] (some (symbolicDistribution [5])), .decrypt true [7] [1] symbolicMessage]

theorem renewedKey_acceptsOnce :
    ∃ w, run (fun c w => some (Receiver.step symbolicSender c w)) symbolicRenewal
        Receiver.start = some w ∧
      w.accepted.map (·.2) = [signedPart symbolicMessage] ∧ (w.accepted.map (·.2)).Nodup := by
  refine ⟨_, rfl, by decide +kernel, groupMessage_acceptedAtMostOnce symbolic_hmacInjective
    symbolicSender_hmacAcyclic symbolic_aeadIdeal symbolicRenewal _ ?_ rfl⟩
  refine ⟨?_, fun t ht => ⟨trivial, fun u hu => ⟨?_, fun _ _ => ⟨trivial, fun _ _ => trivial⟩⟩⟩⟩
  · exact fun _ j => ⟨fun m hm => (nomatch hm), fun other st _ h => (nomatch h)⟩
  refine fun _ j => ⟨?_, ?_⟩
  · have haccepted : u.accepted = [([7], signedPart symbolicMessage)] := by
      obtain rfl := Option.some.inj ht
      obtain rfl := Option.some.inj hu
      decide +kernel
    intro m hm _
    rw [haccepted] at hm
    rw [List.mem_singleton.mp hm]
    exact symbolicRenewal_fresh j
  · have hsenders : u.keys.map (·.senderId) = [[1]] := by
      obtain rfl := Option.some.inj ht
      obtain rfl := Option.some.inj hu
      decide +kernel
    intro other st hne hst
    have hmem : st.senderId ∈ u.keys.map (·.senderId) :=
      List.mem_map_of_mem (List.mem_of_find?_eq_some hst)
    rw [hsenders, (trouver_ids hst).2] at hmem
    exact absurd (List.mem_singleton.mp hmem) hne

end ZiaCrypte.Engine.SenderKeys
