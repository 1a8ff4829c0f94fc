import ZiaCrypte.Engine.Replay

/-!
# A message key is sealed with at most once

The send side of the argument about accepted messages: the send chain stands at a
stamp above those of all keys it has sealed with, and every move of the session
only raises it.
-/
namespace ZiaCrypte.Engine

variable {K : Type} (P : Primitives K)

/-- The send chain stands above every key that was sealed with. -/
structure SealInv (s : ZiaSession K) (keys : List K) : Prop where
  chain : ∃ sk depth, NotRatchetRoot P sk ∧ RootAt P sk depth s.rootKey ∧
    (s.hasSendChain = true → ∃ n j rk dhOut, n < depth ∧ RootAt P sk n rk ∧
      s.sendChainKey = some (chainKeyAt P (chainOf P rk dhOut) j) ∧
      ∀ k ∈ keys, StampedBefore P sk n j k)
  noChain : s.hasSendChain = false → keys = []

theorem sealInv_start {X : X3dhPrimitives K} (h : HmacInjective X.toPrimitives)
    {start : SessionStart K} (hstart : start.FromX3dh X) :
    SealInv X.toPrimitives (start.session X.toPrimitives) [] := by
  obtain ⟨dh1, dh2, dh3, dh4, ss, hsk⟩ := hstart
  have hroot := deriveSharedSecret_notRatchetRoot X h dh1 dh2 dh3 dh4 ss
  rw [hsk] at hroot
  cases start with
  | initiator env ad sk theirs =>
    refine ⟨⟨sk, 1, hroot, .succ _ .zero, fun _ => ?_⟩, fun _ => rfl⟩
    exact ⟨0, 0, sk, _, Nat.one_pos, .zero, rfl, fun k hk => absurd hk List.not_mem_nil⟩
  | responder ad sk myPub myPriv =>
    exact ⟨⟨sk, 0, hroot, .zero, nofun⟩, fun _ => rfl⟩

variable {P}

theorem SealInv.move {s t : ZiaSession K} {keys : List K} {key : Option K}
    (h : SealInv P s keys) (hm : Move P s key t) : SealInv P t keys := by
  cases hm with
  | take sk before after hsplit => exact ⟨h.chain, h.noChain⟩
  | skip ck hflag hck => exact ⟨h.chain, h.noChain⟩
  | consume ck hck => exact ⟨h.chain, h.noChain⟩
  | ratchet env theirs =>
    obtain ⟨sk, depth, hsk, hroot, hchain⟩ := h.chain
    refine ⟨⟨sk, depth + 2, hsk, .succ _ (.succ _ hroot), fun _ => ?_⟩, nofun⟩
    refine ⟨depth + 1, 0, _, _, Nat.lt_succ_self _, .succ _ hroot, rfl, fun k hk => ?_⟩
    cases hflag : s.hasSendChain with
    | true =>
      obtain ⟨n, j, rk, dhOut, hn, _, _, hbelow⟩ := hchain hflag
      exact (hbelow k hk).mono (Or.inl (Nat.lt_succ_of_lt hn))
    | false =>
      rw [h.noChain hflag] at hk
      cases hk
  | send ck hflag hck =>
    obtain ⟨sk, depth, hsk, hroot, hchain⟩ := h.chain
    refine ⟨⟨sk, depth, hsk, hroot, fun _ => ?_⟩, h.noChain⟩
    obtain ⟨n, j, rk, dhOut, hn, hrk, hck', hbelow⟩ := hchain hflag
    obtain rfl := Option.some.inj (hck.symm.trans hck')
    refine ⟨n, j + 1, rk, dhOut, hn, hrk, by rw [← nextChainKey_chainKeyAt], fun k hk => ?_⟩
    exact (hbelow k hk).mono (Or.inr ⟨rfl, Nat.le_succ j⟩)

theorem SealInv.moves {s t : ZiaSession K} {keys spent : List K} (h : SealInv P s keys)
    (hm : Moves P s spent t) : SealInv P t keys :=
  Moves.invariant (fun _ _ _ (hs : SealInv P _ keys) hmove => hs.move hmove) h hm

/-- A store and a restore keep the send chain. -/
theorem SealInv.restored {s : ZiaSession K} {keys : List K} (zero : K) (h : SealInv P s keys) :
    SealInv P (restored zero s) keys := by
  refine ⟨?_, h.noChain⟩
  obtain ⟨sk, depth, hsk, hroot, hchain⟩ := h.chain
  refine ⟨sk, depth, hsk, hroot, fun hflag => ?_⟩
  obtain ⟨n, j, rk, dhOut, hn, hrk, hck, hbelow⟩ := hchain hflag
  refine ⟨n, j, rk, dhOut, hn, hrk, ?_, hbelow⟩
  have hflag' : s.hasSendChain = true := hflag
  simp only [Engine.restored, hflag', if_true, hck, Option.getD_some]

/-- An encryption seals with a key that was not sealed with before. -/
theorem SealInv.seal (hkdf : HmacInjective P) {env : CallEnv K} {s t : ZiaSession K}
    {keys : List K} {plaintext : Bytes} {m : EncryptedMessage} (h : SealInv P s keys)
    (henc : ziaSessionEncrypt P env s plaintext = .ok m t) :
    ∃ ck, s.sendChainKey = some ck ∧ messageKey P ck ∉ keys ∧
      SealInv P t (messageKey P ck :: keys) := by
  obtain ⟨ck, hflag, hck, _, _, rfl⟩ := encrypt_ok_cases P henc
  obtain ⟨sk, depth, hsk, hroot, hchain⟩ := h.chain
  obtain ⟨n, j, rk, dhOut, hn, hrk, hck', hbelow⟩ := hchain hflag
  obtain rfl := Option.some.inj (hck.symm.trans hck')
  refine ⟨_, hck, OnChain.fresh dhOut hkdf hsk hrk hbelow, ⟨sk, depth, hsk, hroot, fun _ => ?_⟩,
    fun hno => Bool.noConfusion (hflag.symm.trans hno)⟩
  refine ⟨n, j + 1, rk, dhOut, hn, hrk, by rw [← nextChainKey_chainKeyAt], fun k hk => ?_⟩
  rcases List.mem_cons.mp hk with rfl | hold
  · exact Stamped.before_succ ⟨rk, dhOut, hrk, rfl⟩
  · exact (hbelow k hold).mono (Or.inr ⟨rfl, Nat.le_succ j⟩)

end ZiaCrypte.Engine
