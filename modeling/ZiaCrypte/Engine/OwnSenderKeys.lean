import ZiaCrypte.Engine.GroupFailures
import Mathlib.Data.List.Nodup

/-!
# The sending entries of an engine

Own and foreign chains are in one list, and an empty sender id is our own. `decrypt` takes
that id like any other. A signature of ours is under an iteration that its chain has left,
so its replay moves nothing.
-/
namespace ZiaCrypte.Engine.SenderKeys

open ZiaCrypte.Lib

variable {K : Type} (P : SenderKeyPrimitives K)

/-- What `create` drew for a group. -/
structure Draw (K : Type) where
  group : Identifier
  chain : K
  signingPublic : PublicKey

/-- An engine; what it drew, what it signed and under which key, and the plaintexts it sealed
and under which message key. -/
structure Sender (K : Type) where
  keys : List (ZiaSenderKey K)
  drawn : List (Draw K)
  signed : List (PublicKey × Bytes)
  sealed : List (K × Bytes)

inductive SenderCall (K : Type) where
  | create (group : Identifier) (env : SenderKeyEnv K)
  | process (group sender : Identifier) (distribution : Option (Distribution K))
  | encrypt (alloc : Bool) (group : Identifier) (plaintext : Bytes)
  | decrypt (alloc : Bool) (group sender : Identifier) (message : Bytes)

namespace Sender

def start : Sender K := ⟨[], [], [], []⟩

/-- Our entry of a group. -/
def own (w : Sender K) (group : Identifier) : Option (ZiaSenderKey K) := trouver w.keys group []

def step : SenderCall K → Sender K → Sender K
  | .create group env, w => { w with
      keys := (ziaSenderKeyCreate P env w.keys group).2
      drawn := if group = [] then w.drawn
        else ⟨group, env.chain, P.ed25519Base env.signing⟩ :: w.drawn }
  | .process group sender distribution, w =>
      { w with keys := (ziaSenderKeyProcess w.keys group sender distribution).2 }
  | .encrypt alloc group plaintext, w =>
      match ziaSenderKeyEncrypt P alloc w.keys group plaintext with
      | (.ok message, keys) => { w with
          keys := keys
          signed := (w.own group).toList.map (fun st => (st.signingPublic, signedPart message)) ++
            w.signed
          sealed := (w.own group).toList.map
            (fun st => (messageKey P.toPrimitives st.chainKey, plaintext)) ++ w.sealed }
      | (.error _, keys) => { w with keys := keys }
  | .decrypt alloc group sender message, w =>
      { w with keys := (ziaSenderKeyDecrypt P alloc w.keys group sender message).2 }

/-- The assumptions on one call. A new key is not one that was drawn before, and its chain
meets no earlier one; fewer than 2^32 messages a key; what verifies under a key of ours was
signed with it. -/
def Sound : SenderCall K → Sender K → Prop
  | .create _ env, w => ∀ d ∈ w.drawn, d.signingPublic ≠ P.ed25519Base env.signing ∧
      ∀ i j, chainKeyAt P.toPrimitives d.chain i ≠ chainKeyAt P.toPrimitives env.chain j
  | .encrypt _ group _, w => ∀ st ∈ w.own group, st.iteration.toNat + 1 < UInt32.size
  | .decrypt _ _ _ message, w => ∀ group, ∀ st ∈ w.own group,
      P.ed25519Verify st.signingPublic (signedPart message)
        (message.drop (message.length - kSignatureLen)) = true →
      (st.signingPublic, signedPart message) ∈ w.signed
  | .process _ _ _, _ => True

/-- The call is one that may change our entry of the group. -/
def Moves (group : Identifier) : SenderCall K → Prop
  | .create g _ => g = group
  | .encrypt _ g _ => g = group
  | _ => False

/-- The entries of the groups that the call may not change are as they were. -/
def Kept (c : SenderCall K) (w : Sender K) : Prop :=
  ∀ group, ¬ Moves group c → (step P c w).own group = w.own group

/-! ## The invariant -/

/-- Every entry of ours is on a chain that was drawn for its group, and what was signed or
sealed under its keys is behind it. -/
structure Inv (w : Sender K) : Prop where
  publics : (w.drawn.map (·.signingPublic)).Nodup
  chains : w.drawn.Pairwise fun d d' => ∀ i j,
    chainKeyAt P.toPrimitives d.chain i ≠ chainKeyAt P.toPrimitives d'.chain j
  own : ∀ group, ∀ st ∈ w.own group, st.skipped = [] ∧ ∃ d ∈ w.drawn, d.group = group ∧
    d.signingPublic = st.signingPublic ∧
    st.chainKey = chainKeyAt P.toPrimitives d.chain st.iteration.toNat
  issued : ∀ p ∈ w.signed, ∃ d ∈ w.drawn, d.signingPublic = p.1
  signed : ∀ group, ∀ st ∈ w.own group, ∀ buf, (st.signingPublic, buf) ∈ w.signed →
    (getU32 buf kMagicLen).toNat < st.iteration.toNat
  sealed : ∀ p ∈ w.sealed, ∃ d ∈ w.drawn, ∃ i, p.1 = messageKeyAt P d.chain i ∧
    ∀ group, ∀ st ∈ w.own group, st.signingPublic = d.signingPublic → i < st.iteration.toNat
  once : (w.sealed.map (·.1)).Nodup

variable {P} {w : Sender K}

theorem inv_start : Inv P (start : Sender K) where
  publics := List.nodup_nil
  chains := List.Pairwise.nil
  own group st h := by cases h
  issued p h := by cases h
  signed group st h := by cases h
  sealed p h := by cases h
  once := List.nodup_nil

/-- One draw has one chain. -/
theorem Inv.draw_unique (h : Inv P w) {d d' : Draw K} (hd : d ∈ w.drawn) (hd' : d' ∈ w.drawn)
    (hsame : d.signingPublic = d'.signingPublic) : d = d' :=
  List.inj_on_of_nodup_map h.publics hd hd' hsame

/-- Two draws that share a chain key are one. -/
theorem Inv.draw_of_chain (h : Inv P w) {d d' : Draw K} (hd : d ∈ w.drawn) (hd' : d' ∈ w.drawn)
    {i j : Nat}
    (hsame : chainKeyAt P.toPrimitives d.chain i = chainKeyAt P.toPrimitives d'.chain j) :
    d = d' := by
  by_contra hne
  rcases List.pairwise_iff_getElem.mp h.chains with hpair
  obtain ⟨n, hn, rfl⟩ := List.mem_iff_getElem.mp hd
  obtain ⟨m, hm, rfl⟩ := List.mem_iff_getElem.mp hd'
  rcases Nat.lt_trichotomy n m with hlt | rfl | hgt
  · exact hpair n m hn hm hlt i j hsame
  · exact hne rfl
  · exact hpair m n hm hn hgt j i hsame.symm

/-- The keys are written elsewhere, or not at all. -/
theorem Inv.of_same (h : Inv P w) {keys : List (ZiaSenderKey K)}
    (hown : ∀ group, ({ w with keys := keys } : Sender K).own group = w.own group) :
    Inv P { w with keys := keys } where
  publics := h.publics
  chains := h.chains
  own group st hst := h.own group st (hown group ▸ hst)
  issued := h.issued
  signed group st hst := h.signed group st (hown group ▸ hst)
  sealed p hp := by
    obtain ⟨d, hd, i, hkey, hbehind⟩ := h.sealed p hp
    exact ⟨d, hd, i, hkey, fun group st hst => hbehind group st (hown group ▸ hst)⟩
  once := h.once

/-! ## Calls that leave our entries alone -/

theorem own_process (w : Sender K) (group sender : Identifier)
    (distribution : Option (Distribution K)) (g : Identifier) :
    (step P (.process group sender distribution) w).own g = w.own g := by
  show trouver (ziaSenderKeyProcess w.keys group sender distribution).2 g [] = trouver w.keys g []
  unfold ziaSenderKeyProcess
  cases distribution with
  | none => rfl
  | some d =>
    dsimp only
    split
    · rfl
    split
    · rfl
    · rename_i hids
      exact trouver_installer_ne fun h => hids (.inr h.2)

/-- The index of a message is in the part that is signed. -/
theorem getU32_signedPart {message : Bytes}
    (hlong : kMagicLen + 4 + aeadABytes + kSignatureLen ≤ message.length) :
    getU32 (signedPart message) kMagicLen = getU32 message kMagicLen := by
  have hget : ∀ j < 4, (signedPart message).getD (kMagicLen + j) 0 =
      message.getD (kMagicLen + j) 0 := by
    intro j hj
    have hlt : kMagicLen + j < message.length - kSignatureLen := by omega
    rw [signedPart, List.getD_eq_getElem?_getD, List.getD_eq_getElem?_getD,
      List.getElem?_take_of_lt hlt]
  simp only [getU32]
  rw [hget 1 (by decide), hget 2 (by decide), hget 3 (by decide), ← Nat.add_zero kMagicLen,
    hget 0 (by decide)]

/-- A message of ours that comes back is behind our chain, and no key of it was kept. -/
theorem own_decrypt (h : Inv P w) {alloc : Bool} {group sender : Identifier} {message : Bytes}
    (hsound : Sound P (.decrypt alloc group sender message) w) (g : Identifier) :
    (step P (.decrypt alloc group sender message) w).own g = w.own g := by
  show trouver (ziaSenderKeyDecrypt P alloc w.keys group sender message).2 g [] =
    trouver w.keys g []
  by_cases hauth : ∃ st, Authentic P w.keys group sender message st
  · obtain ⟨st, hauth⟩ := hauth
    have hids := trouver_ids hauth.found
    rw [hauth.decrypt_eq]
    cases hkey : clefDeMessage P st (getU32 message kMagicLen) with
    | error rc => rfl
    | ok taken =>
      obtain ⟨mk, st'⟩ := taken
      have hsame := clefDeMessage_sameSender hkey
      by_cases hsender : sender = []
      · subst hsender
        have hsigned := hsound group st hauth.found hauth.verified
        have hbehind := h.signed group st hauth.found _ hsigned
        rw [getU32_signedPart hauth.long] at hbehind
        rw [clefDeMessage, if_pos (UInt32.lt_iff_toNat_lt.mpr hbehind), reprendreClefSautee,
          (h.own group st hauth.found).1] at hkey
        cases hkey
      · have hframe : trouver (ecrire w.keys st') g [] = trouver w.keys g [] :=
          trouver_ecrire_ne fun hown =>
            hsender (hids.2.symm.trans (hsame.senderId.symm.trans hown.2))
        cases alloc with
        | false => exact hframe
        | true =>
          simp only [Bool.not_true, Bool.false_eq_true, if_false]
          split <;> exact hframe
  · obtain ⟨rc, hrc⟩ := decrypt_not_authentic (fun st hst => hauth ⟨st, hst⟩) alloc
    rw [hrc]

/-! ## Calls on our entries -/

theorem own_create (env : SenderKeyEnv K) {group : Identifier} (hgroup : group ≠ [])
    (w : Sender K) (g : Identifier) :
    (step P (.create group env) w).own g = if g = group then
      some ⟨group, [], env.chain, 0, P.ed25519Base env.signing, some env.signing, []⟩
    else w.own g := by
  have hkeys : (ziaSenderKeyCreate P env w.keys group).2 = installer w.keys
      ⟨group, [], env.chain, 0, P.ed25519Base env.signing, some env.signing, []⟩ := by
    rw [ziaSenderKeyCreate, if_neg hgroup]
    dsimp only
    split <;> rfl
  show trouver (ziaSenderKeyCreate P env w.keys group).2 g [] = _
  rw [hkeys]
  split
  · rename_i heq
    subst heq
    exact trouver_installer w.keys _
  · rename_i hne
    exact trouver_installer_ne fun hids => hne hids.1.symm

theorem create_nil (env : SenderKeyEnv K) (w : Sender K) : step P (.create [] env) w = w := by
  simp [step, ziaSenderKeyCreate]

/-- A new key starts a chain that nothing was signed or sealed on. -/
theorem Inv.create (h : Inv P w) {group : Identifier} {env : SenderKeyEnv K}
    (hsound : Sound P (.create group env) w) : Inv P (step P (.create group env) w) := by
  by_cases hgroup : group = []
  · subst hgroup
    rwa [create_nil]
  have hdrawn : (step P (.create group env) w).drawn =
      ⟨group, env.chain, P.ed25519Base env.signing⟩ :: w.drawn := if_neg hgroup
  have hown := own_create (P := P) env hgroup w
  constructor
  · rw [hdrawn, List.map_cons, List.nodup_cons]
    refine ⟨fun hmem => ?_, h.publics⟩
    obtain ⟨d, hd, heq⟩ := List.mem_map.mp hmem
    exact (hsound d hd).1 heq
  · rw [hdrawn, List.pairwise_cons]
    exact ⟨fun d hd i j heq => (hsound d hd).2 j i heq.symm, h.chains⟩
  · intro g st hst
    rw [hown] at hst
    rw [hdrawn]
    split at hst
    · rename_i heq
      subst heq
      obtain rfl := Option.some.inj hst
      exact ⟨rfl, _, List.mem_cons_self, rfl, rfl, rfl⟩
    · obtain ⟨hskipped, d, hd, hrest⟩ := h.own g st hst
      exact ⟨hskipped, d, List.mem_cons_of_mem _ hd, hrest⟩
  · intro p hp
    obtain ⟨d, hd, heq⟩ := h.issued p hp
    rw [hdrawn]
    exact ⟨d, List.mem_cons_of_mem _ hd, heq⟩
  · intro g st hst buf hbuf
    rw [hown] at hst
    split at hst
    · obtain rfl := Option.some.inj hst
      obtain ⟨d, hd, heq⟩ := h.issued _ hbuf
      exact absurd heq (hsound d hd).1
    · exact h.signed g st hst buf hbuf
  · intro p hp
    obtain ⟨d, hd, i, hkey, hbehind⟩ := h.sealed p hp
    rw [hdrawn]
    refine ⟨d, List.mem_cons_of_mem _ hd, i, hkey, fun g st hst hpublic => ?_⟩
    rw [hown] at hst
    split at hst
    · obtain rfl := Option.some.inj hst
      exact absurd hpublic.symm (hsound d hd).1
    · exact hbehind g st hst hpublic
  · exact h.once

/-- An encryption that succeeds moves our entry of its group on by one. -/
theorem own_encrypt {group : Identifier} {st : ZiaSenderKey K} (hst : w.own group = some st)
    (g : Identifier) :
    trouver (ecrire w.keys (avancer P st)) g [] =
      if g = group then some (avancer P st) else w.own g := by
  obtain ⟨hgroup, hsender⟩ := trouver_ids hst
  split
  · rename_i heq
    subst heq
    exact trouver_ecrire ⟨hgroup, hsender⟩ hst
  · rename_i hne
    refine trouver_ecrire_ne fun hids => hne ?_
    exact hids.1.symm.trans hgroup

/-- The message that is signed has the index of the chain. -/
theorem signed_encrypt (st : ZiaSenderKey K) (ciphertext : Bytes) :
    let buf := kMagicMessage ++ putU32 st.iteration ++ ciphertext
    signedPart (buf ++ (P.ed25519Sign st.signingPrivate buf).bytes) = buf ∧
      getU32 buf kMagicLen = st.iteration := by
  refine ⟨signedPart_append (FixedBytes.length_eq _), ?_⟩
  rw [List.append_assoc]
  exact getU32_append _ _ _ _ rfl

theorem Inv.encrypt (hkdf : HmacInjective P.toPrimitives) (hacyclic : HmacAcyclic P.toPrimitives)
    (h : Inv P w) {alloc : Bool} {group : Identifier} {plaintext : Bytes}
    (hsound : Sound P (.encrypt alloc group plaintext) w) :
    Inv P (step P (.encrypt alloc group plaintext) w) ∧
      ∀ g, g ≠ group → (step P (.encrypt alloc group plaintext) w).own g = w.own g := by
  rcases encrypt_cases (P := P) alloc w.keys group plaintext with
    ⟨rc, hfails⟩ | ⟨st, ciphertext, hst, -, hok⟩
  · have hstep : step P (.encrypt alloc group plaintext) w = w := by
      simp only [step, hfails]
    rw [hstep]
    exact ⟨h, fun _ _ => rfl⟩
  have hown := own_encrypt (P := P) hst
  have hlimit := hsound st hst
  obtain ⟨hskipped, d, hd, hgroup, hpublic, hchain⟩ := h.own group st hst
  obtain ⟨hpart, hindex⟩ := signed_encrypt (P := P) st ciphertext
  have hnext : (avancer P st).iteration.toNat = st.iteration.toNat + 1 := by
    show (st.iteration + 1).toNat = st.iteration.toNat + 1
    rw [UInt32.toNat_add]
    exact Nat.mod_eq_of_lt hlimit
  have hmk : messageKey P.toPrimitives st.chainKey = messageKeyAt P d.chain st.iteration.toNat := by
    rw [hchain]
    rfl
  have hentry : w.own group = some st := hst
  simp only [step, hok, hentry, Option.toList_some, List.map_cons, List.map_nil, hpart]
  -- No other group signs with this key.
  have hother : ∀ g, ∀ st' ∈ w.own g, st'.signingPublic = d.signingPublic → g = group := by
    intro g st' hst' heq
    obtain ⟨-, d', hd', hgroup', hpublic', -⟩ := h.own g st' hst'
    obtain rfl := h.draw_unique hd' hd (hpublic'.trans heq)
    exact hgroup'.symm.trans hgroup
  refine ⟨⟨h.publics, h.chains, fun g st' hst' => ?_, fun p hp => ?_, fun g st' hst' buf hbuf => ?_,
    fun p hp => ?_, ?_⟩, fun g hne => (hown g).trans (if_neg hne)⟩
  · rw [Sender.own, hown] at hst'
    split at hst'
    · rename_i heq
      subst heq
      obtain rfl := Option.some.inj hst'
      refine ⟨hskipped, d, hd, hgroup, hpublic, ?_⟩
      rw [hnext, ← nextChainKey_chainKeyAt, ← hchain]
      rfl
    · exact h.own g st' hst'
  · rcases List.mem_append.mp hp with hnew | hold
    · obtain rfl := List.mem_singleton.mp hnew
      exact ⟨d, hd, hpublic⟩
    · exact h.issued p hold
  · rw [Sender.own, hown] at hst'
    split at hst'
    · obtain rfl := Option.some.inj hst'
      rw [hnext]
      rcases List.mem_append.mp hbuf with hnew | hold
      · obtain ⟨-, rfl⟩ := Prod.mk.inj (List.mem_singleton.mp hnew)
        rw [hindex]
        exact Nat.lt_succ_self _
      · exact Nat.lt_succ_of_lt (h.signed group st hst buf hold)
    · rename_i hne
      rcases List.mem_append.mp hbuf with hnew | hold
      · obtain ⟨hsame, -⟩ := Prod.mk.inj (List.mem_singleton.mp hnew)
        exact absurd (hother g st' hst' (hsame.trans hpublic.symm)) hne
      · exact h.signed g st' hst' buf hold
  · rcases List.mem_append.mp hp with hnew | hold
    · obtain rfl := List.mem_singleton.mp hnew
      refine ⟨d, hd, st.iteration.toNat, hmk, fun g st' hst' heq => ?_⟩
      rw [Sender.own, hown] at hst'
      split at hst'
      · obtain rfl := Option.some.inj hst'
        rw [hnext]
        exact Nat.lt_succ_self _
      · rename_i hne
        exact absurd (hother g st' hst' heq) hne
    · obtain ⟨d', hd', i, hkey, hbehind⟩ := h.sealed p hold
      refine ⟨d', hd', i, hkey, fun g st' hst' heq => ?_⟩
      rw [Sender.own, hown] at hst'
      split at hst'
      · obtain rfl := Option.some.inj hst'
        rw [hnext]
        exact Nat.lt_succ_of_lt (hbehind group st hst heq)
      · exact hbehind g st' hst' heq
  · rw [List.map_append, List.map_singleton, List.singleton_append, List.nodup_cons]
    refine ⟨fun hmem => ?_, h.once⟩
    -- A key that was sealed with is on the same chain, behind this one.
    obtain ⟨p, hp, heq⟩ := List.mem_map.mp hmem
    obtain ⟨d', hd', i, hkey, hbehind⟩ := h.sealed p hp
    have hkeys : messageKeyAt P d'.chain i = messageKeyAt P d.chain st.iteration.toNat :=
      hkey.symm.trans (heq.trans hmk)
    obtain rfl := h.draw_of_chain hd' hd (hkdf _ _ _ _ hkeys).1
    exact messageKeyAt_ne hkdf hacyclic _ (hbehind group st hst hpublic.symm) hkeys

/-! ## Runs -/

theorem Inv.step (hkdf : HmacInjective P.toPrimitives) (hacyclic : HmacAcyclic P.toPrimitives)
    {c : SenderCall K} (h : Inv P w) (hsound : Sound P c w) : Inv P (step P c w) := by
  cases c with
  | create group env => exact h.create hsound
  | process group sender distribution =>
    exact h.of_same fun g => own_process (P := P) w group sender distribution g
  | encrypt alloc group plaintext => exact (h.encrypt hkdf hacyclic hsound).1
  | decrypt alloc group sender message => exact h.of_same (own_decrypt h hsound)

theorem Inv.kept (hkdf : HmacInjective P.toPrimitives) (hacyclic : HmacAcyclic P.toPrimitives)
    {c : SenderCall K} (h : Inv P w) (hsound : Sound P c w) : Kept P c w := by
  intro g hmoves
  cases c with
  | create group env =>
    by_cases hgroup : group = []
    · subst hgroup
      rw [create_nil]
    · rw [own_create env hgroup, if_neg fun heq => hmoves heq.symm]
  | process group sender distribution => exact own_process (P := P) w group sender distribution g
  | encrypt alloc group plaintext =>
    exact (h.encrypt hkdf hacyclic hsound).2 g fun heq => hmoves heq.symm
  | decrypt alloc group sender message => exact own_decrypt h hsound g

/-- Whatever is created, processed, encrypted and decrypted: our entry of a group is changed
by `create` and `encrypt` for the group only, and no message key seals twice. -/
theorem ownEntries_kept (hkdf : HmacInjective P.toPrimitives)
    (hacyclic : HmacAcyclic P.toPrimitives) (calls : List (SenderCall K))
    (hsound : Always (fun c w => some (step P c w)) (Sound P) calls start) :
    Always (fun c w => some (step P c w)) (Kept P) calls start ∧
      ∀ w, run (fun c w => some (step P c w)) calls start = some w →
        (w.sealed.map (·.1)).Nodup := by
  have hstep : ∀ (c : SenderCall K) (w t : Sender K), Inv P w → Sound P c w →
      some (step P c w) = some t → Inv P t := by
    intro c w t h hc ht
    obtain rfl := Option.some.inj ht
    exact h.step hkdf hacyclic hc
  refine ⟨always_of_invariant (Inv P) hstep (fun c w h hc => h.kept hkdf hacyclic hc) inv_start
    hsound, fun w hrun => ?_⟩
  exact (run_invariant_of_always (Inv P) hstep inv_start hsound hrun).once

/-! ## A message that comes back -/

/-- `Sound` for an engine that draws once, over all its entries. -/
def SoundOnce : SenderCall K → Sender K → Prop
  | .create _ _, w => w.drawn = []
  | .encrypt _ _ _, w => ∀ st ∈ w.keys, st.iteration.toNat + 1 < UInt32.size
  | .decrypt _ _ _ message, w => ∀ st ∈ w.keys, (st.signingPublic, signedPart message) ∈ w.signed
  | .process _ _ _, _ => True

instance decidableSoundOnce [DecidableEq K] : ∀ (c : SenderCall K) w, Decidable (SoundOnce c w)
  | .create _ _, w => decidable_of_iff (w.drawn.isEmpty = true) List.isEmpty_iff
  | .encrypt _ _ _, w => inferInstanceAs (Decidable (∀ st ∈ w.keys, st.iteration.toNat + 1 < UInt32.size))
  | .decrypt _ _ _ message, w =>
      inferInstanceAs (Decidable (∀ st ∈ w.keys, (st.signingPublic, signedPart message) ∈ w.signed))
  | .process _ _ _, _ => isTrue trivial

theorem SoundOnce.sound {c : SenderCall K} (h : SoundOnce c w) : Sound P c w := by
  cases c with
  | create group env =>
    intro d hd
    rw [show w.drawn = [] from h] at hd
    cases hd
  | encrypt alloc group plaintext =>
    exact fun st hst => h st (List.mem_of_find?_eq_some hst)
  | decrypt alloc group sender message =>
    exact fun g st hst _ => h st (List.mem_of_find?_eq_some hst)
  | process group sender distribution => trivial

/-- Our first message is handed to the engine as one of ours, between two encryptions. -/
def echo : List (SenderCall Bytes) :=
  [.create [7] ⟨[3], [4], true⟩, .encrypt true [7] [10], .decrypt true [7] [] symbolicMessage,
    .process [7] [] (some (symbolicDistribution [5])), .encrypt true [7] [11]]

theorem echo_kept :
    Always (fun c w => some (step symbolicSender c w)) (Kept symbolicSender) echo start ∧
      (run (fun c w => some (step symbolicSender c w)) echo start).any (fun w =>
        w.signed.any (fun p => p.2 == signedPart symbolicMessage) &&
          decide (w.sealed.map (·.2) = [[11], [10]] ∧ (w.sealed.map (·.1)).Nodup)) = true := by
  have hsound : Always (fun c w => some (step symbolicSender c w)) SoundOnce echo start := by
    decide +kernel
  exact ⟨(ownEntries_kept symbolic_hmacInjective symbolicSender_hmacAcyclic echo
    (always_of_invariant (fun _ => True) (fun _ _ _ _ _ _ => trivial) (fun _ _ _ h => h.sound)
      trivial hsound)).1, by decide +kernel⟩

end Sender

end ZiaCrypte.Engine.SenderKeys
