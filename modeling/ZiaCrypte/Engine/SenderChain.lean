import ZiaCrypte.Engine.SenderKeys
import ZiaCrypte.Engine.RatchetSpec

/-!
# The chain of a sender key

What one derivation does to an entry, and where an entry stands on the chain of
its distribution: it has derived the keys below its iteration, and keeps those
that were not asked for.
-/
namespace ZiaCrypte.Engine.SenderKeys

variable {K : Type} {P : SenderKeyPrimitives K}

/-! ## What a derivation does -/

/-- The fields of an entry that only `create` and `process` write. -/
structure SameSender (st st' : ZiaSenderKey K) : Prop where
  groupId : st'.groupId = st.groupId
  senderId : st'.senderId = st.senderId
  signingPublic : st'.signingPublic = st.signingPublic
  signingPrivate : st'.signingPrivate = st.signingPrivate

theorem SameSender.refl (st : ZiaSenderKey K) : SameSender st st := ⟨rfl, rfl, rfl, rfl⟩

theorem SameSender.trans {st st' st'' : ZiaSenderKey K} (h : SameSender st st')
    (h' : SameSender st' st'') : SameSender st st'' :=
  ⟨h'.groupId.trans h.groupId, h'.senderId.trans h.senderId,
    h'.signingPublic.trans h.signingPublic, h'.signingPrivate.trans h.signingPrivate⟩

theorem sameSender_avancer (st : ZiaSenderKey K) : SameSender st (avancer P st) :=
  ⟨rfl, rfl, rfl, rfl⟩

theorem sameSender_skips (d : Nat) (st : ZiaSenderKey K) :
    SameSender st ((sauterTour P)^[d] st) := by
  induction d with
  | zero => exact .refl st
  | succ d ih =>
    rw [Function.iterate_succ_apply']
    exact ih.trans ⟨rfl, rfl, rfl, rfl⟩

/-- The loop takes one turn for each iteration it is behind. -/
theorem rattraper_eq {iteration : UInt32} {d : Nat} {st : ZiaSenderKey K}
    (h : st.iteration.toNat + d = iteration.toNat) :
    rattraper P iteration d st = (sauterTour P)^[d] st := by
  induction d generalizing st with
  | zero => rfl
  | succ d ih =>
    have hlt : st.iteration < iteration := by
      rw [UInt32.lt_iff_toNat_lt]
      omega
    rw [rattraper, if_pos hlt, Function.iterate_succ_apply]
    refine ih ?_
    change (st.iteration + 1).toNat + d = iteration.toNat
    rw [u32_succ_toNat hlt]
    omega

/-- A message key comes out of the cache, or off the chain behind the skipped ones. -/
theorem clefDeMessage_cases {st st' : ZiaSenderKey K} {i : UInt32} {mk : K}
    (h : clefDeMessage P st i = .ok (mk, st')) :
    (∃ sk before after, st.skipped = before ++ sk :: after ∧ sk.iteration = i ∧ mk = sk.key ∧
      st' = { st with skipped := before ++ after }) ∨
    ∃ d, i.toNat = st.iteration.toNat + d ∧
      mk = messageKey P.toPrimitives ((sauterTour P)^[d] st).chainKey ∧
      st' = avancer P ((sauterTour P)^[d] st) := by
  unfold clefDeMessage at h
  split at h
  · left
    unfold reprendreClefSautee at h
    split at h
    · cases h
    · rename_i r hr
      split at hr
      · cases hr
      rename_i sk hfind
      obtain rfl := Option.some.inj hr
      obtain ⟨rfl, rfl⟩ := Prod.mk.inj (Except.ok.inj h)
      obtain ⟨hsk, before, after, hsplit, hbefore⟩ := List.find?_eq_some_iff_append.mp hfind
      refine ⟨sk, before, after, hsplit, beq_iff_eq.mp hsk, rfl, ?_⟩
      rw [hsplit, List.eraseP_append_right _ (by simpa using hbefore),
        List.eraseP_cons_of_pos (p := fun x => ZiaSenderSkippedKey.iteration x == i) hsk]
  · rename_i hle
    split at h
    · cases h
    · right
      obtain ⟨rfl, rfl⟩ := Prod.mk.inj (Except.ok.inj h)
      have hle' := UInt32.not_lt.mp hle
      have hsub := UInt32.toNat_sub_of_le _ _ hle'
      have hnat := UInt32.le_iff_toNat_le.mp hle'
      refine ⟨(i - st.iteration).toNat, by omega, ?_, ?_⟩
      · rw [rattraper_eq (by omega)]
      · rw [rattraper_eq (by omega)]

/-- The key of an iteration that is not behind, within the limit. -/
theorem clefDeMessage_ahead {st : ZiaSenderKey K} {i : UInt32} {d : Nat}
    (hi : i.toNat = st.iteration.toNat + d) (hd : d ≤ kMaxSkip) :
    clefDeMessage P st i = .ok (messageKey P.toPrimitives ((sauterTour P)^[d] st).chainKey,
      avancer P ((sauterTour P)^[d] st)) := by
  have hle : st.iteration ≤ i := UInt32.le_iff_toNat_le.mpr (by omega)
  have hsub : (i - st.iteration).toNat = d := by
    rw [UInt32.toNat_sub_of_le _ _ hle]
    omega
  rw [clefDeMessage, if_neg (UInt32.not_lt.mpr hle), hsub, if_neg (Nat.not_lt.mpr hd),
    rattraper_eq hi.symm]

/-- The key of an iteration that is behind and was kept. -/
theorem clefDeMessage_behind {st : ZiaSenderKey K} {i : UInt32} {sk : ZiaSenderSkippedKey K}
    (hi : i < st.iteration) (hsk : st.skipped.find? (·.iteration == i) = some sk) :
    clefDeMessage P st i =
      .ok (sk.key, { st with skipped := st.skipped.eraseP (·.iteration == i) }) := by
  rw [clefDeMessage, if_pos hi, reprendreClefSautee, hsk]

/-! ## Where an entry stands -/

variable (P) in
/-- The entry has derived the first `n` keys of the chain of `ck` and handed out
those of `taken`. -/
structure Follows (ck : K) (n : Nat) (taken : List Nat) (st : ZiaSenderKey K) : Prop where
  chain : st.chainKey = chainKeyAt P.toPrimitives ck n
  iteration : st.iteration.toNat = n
  below : ∀ sk ∈ st.skipped, sk.iteration.toNat < n
  kept : ∀ i < n, i ∉ taken → ∃ sk,
    st.skipped.find? (·.iteration == UInt32.ofNat i) = some sk ∧
      sk.key = messageKey P.toPrimitives (chainKeyAt P.toPrimitives ck i)
  taken : ∀ i ∈ taken, i < n

theorem ofNat_toNat {i : Nat} (h : i < UInt32.size) : (UInt32.ofNat i).toNat = i :=
  UInt32.toNat_ofNat_of_lt' h

theorem iteration_ne {i j : Nat} (hi : i < UInt32.size) (hj : j < UInt32.size) (hne : i ≠ j) :
    UInt32.ofNat i ≠ UInt32.ofNat j := by
  intro heq
  refine hne ?_
  rw [← ofNat_toNat hi, heq, ofNat_toNat hj]

/-- A new entry stands at the start of its chain. -/
theorem follows_start {st : ZiaSenderKey K} (hiteration : st.iteration = 0)
    (hskipped : st.skipped = []) : Follows P st.chainKey 0 [] st where
  chain := rfl
  iteration := by rw [hiteration]; rfl
  below sk hsk := by rw [hskipped] at hsk; cases hsk
  kept i hi := absurd hi (Nat.not_lt_zero i)
  taken i hi := by cases hi

section Follows

variable {ck : K} {n : Nat} {taken : List Nat} {st : ZiaSenderKey K}

theorem Follows.next (h : Follows P ck n taken st) (hn : n + 1 < UInt32.size) :
    (avancer P st).chainKey = chainKeyAt P.toPrimitives ck (n + 1) ∧
      (avancer P st).iteration.toNat = n + 1 := by
  refine ⟨?_, ?_⟩
  · change nextChainKey P.toPrimitives st.chainKey = _
    rw [h.chain, nextChainKey_chainKeyAt]
  · change (st.iteration + 1).toNat = n + 1
    rw [UInt32.toNat_add, h.iteration]
    exact Nat.mod_eq_of_lt hn

/-- The key at the end of the chain is taken. -/
theorem Follows.consume (h : Follows P ck n taken st) (hn : n + 1 < UInt32.size) :
    Follows P ck (n + 1) (n :: taken) (avancer P st) where
  chain := (h.next hn).1
  iteration := (h.next hn).2
  below sk hsk := Nat.lt_succ_of_lt (h.below sk hsk)
  kept i hi hnot := by
    obtain ⟨hne, hold⟩ := not_or.mp (List.mem_cons.not.mp hnot)
    exact h.kept i (by omega) hold
  taken i hi := by
    rcases List.mem_cons.mp hi with rfl | hold
    · exact Nat.lt_succ_self i
    · exact Nat.lt_succ_of_lt (h.taken i hold)

/-- The key at the end of the chain is set aside, in a cache with room for it. -/
theorem Follows.skip (h : Follows P ck n taken st) (hn : n + 1 < UInt32.size)
    (hroom : st.skipped.length < kMaxSkippedKeys) :
    Follows P ck (n + 1) taken (sauterTour P st) ∧
      (sauterTour P st).skipped.length = st.skipped.length + 1 := by
  have hskipped : (sauterTour P st).skipped =
      st.skipped ++ [⟨st.iteration, messageKey P.toPrimitives st.chainKey⟩] := by
    simp only [sauterTour, avancer, rangerClefSautee]
    rw [if_neg (Nat.not_le.mpr hroom)]
  have hlast : st.iteration = UInt32.ofNat n := by
    rw [← h.iteration, UInt32.ofNat_toNat]
  constructor
  · constructor
    · exact (h.next hn).1
    · exact (h.next hn).2
    · intro sk hsk
      rw [hskipped] at hsk
      rcases List.mem_append.mp hsk with hold | hnew
      · exact Nat.lt_succ_of_lt (h.below sk hold)
      · rw [List.mem_singleton.mp hnew, h.iteration]
        exact Nat.lt_succ_self n
    · intro i hi hnot
      rw [hskipped, List.find?_append]
      rcases Nat.lt_succ_iff_lt_or_eq.mp hi with hlt | rfl
      · obtain ⟨sk, hfind, hkey⟩ := h.kept i hlt hnot
        exact ⟨sk, by rw [hfind, Option.some_or], hkey⟩
      · -- No key with this iteration was set aside before.
        have hnone : st.skipped.find? (·.iteration == UInt32.ofNat i) = none := by
          rw [List.find?_eq_none]
          intro sk hsk heq
          have hlt := h.below sk hsk
          rw [beq_iff_eq.mp heq, ofNat_toNat (by omega)] at hlt
          exact Nat.lt_irrefl i hlt
        refine ⟨⟨st.iteration, messageKey P.toPrimitives st.chainKey⟩, ?_, ?_⟩
        · rw [hnone, Option.none_or, List.find?_cons, hlast, beq_self_eq_true]
        · rw [h.chain]
    · exact fun i hi => Nat.lt_succ_of_lt (h.taken i hi)
  · rw [hskipped, List.length_append, List.length_singleton]

theorem Follows.skips (h : Follows P ck n taken st) {d : Nat} (hn : n + d < UInt32.size)
    (hroom : st.skipped.length + d ≤ kMaxSkippedKeys) :
    Follows P ck (n + d) taken ((sauterTour P)^[d] st) := by
  induction d generalizing n st with
  | zero => exact h
  | succ d ih =>
    obtain ⟨hnext, hlength⟩ := h.skip (by omega) (by omega)
    rw [Function.iterate_succ_apply, ← Nat.add_assoc, Nat.add_right_comm]
    exact ih hnext (by omega) (by omega)

/-- Taking a key out of the cache leaves the others where they are. -/
theorem find?_eraseP_of_ne {cache : List (ZiaSenderSkippedKey K)} {i j : UInt32} (hne : i ≠ j) :
    (cache.eraseP (·.iteration == i)).find? (·.iteration == j) =
      cache.find? (·.iteration == j) := by
  induction cache with
  | nil => rfl
  | cons sk cache ih =>
    rw [List.eraseP_cons]
    cases hi : sk.iteration == i with
    | true =>
      have hj : (sk.iteration == j) = false := by
        rw [beq_iff_eq.mp hi]
        exact beq_eq_false_iff_ne.mpr hne
      rw [cond_true, List.find?_cons, hj]
    | false =>
      rw [cond_false, List.find?_cons, List.find?_cons, ih]

theorem Follows.take (h : Follows P ck n taken st) (hn : n < UInt32.size) {i : Nat} (hi : i < n) :
    Follows P ck n (i :: taken)
      { st with skipped := st.skipped.eraseP (·.iteration == UInt32.ofNat i) } where
  chain := h.chain
  iteration := h.iteration
  below sk hsk := h.below sk (List.mem_of_mem_eraseP hsk)
  kept j hj hnot := by
    obtain ⟨hne, hold⟩ := not_or.mp (List.mem_cons.not.mp hnot)
    rw [find?_eraseP_of_ne (iteration_ne (by omega) (by omega) (Ne.symm hne))]
    exact h.kept j hj hold
  taken j hj := by
    rcases List.mem_cons.mp hj with rfl | hold
    · exact hi
    · exact h.taken j hold

/-- Within the limits every key of the chain that was not taken is derived. -/
theorem Follows.clefDeMessage (h : Follows P ck n taken st) {i : Nat} (hi : i + 1 < UInt32.size)
    (hnot : i ∉ taken) (hn : n < UInt32.size) (hjump : i - n ≤ kMaxSkip)
    (hroom : st.skipped.length + (i - n) ≤ kMaxSkippedKeys) :
    ∃ n' st', clefDeMessage P st (UInt32.ofNat i) =
        .ok (messageKey P.toPrimitives (chainKeyAt P.toPrimitives ck i), st') ∧
      n' < UInt32.size ∧ Follows P ck n' (i :: taken) st' ∧ SameSender st st' := by
  have hnat : (UInt32.ofNat i).toNat = i := ofNat_toNat (by omega)
  by_cases hlt : i < n
  · obtain ⟨sk, hfind, hkey⟩ := h.kept i hlt hnot
    refine ⟨n, _, ?_, hn, h.take hn hlt, ⟨rfl, rfl, rfl, rfl⟩⟩
    rw [← hkey]
    refine clefDeMessage_behind ?_ hfind
    rw [UInt32.lt_iff_toNat_lt, hnat, h.iteration]
    exact hlt
  · obtain ⟨d, rfl⟩ := Nat.exists_eq_add_of_le (Nat.le_of_not_lt hlt)
    rw [Nat.add_sub_cancel_left] at hjump hroom
    have hskips := h.skips (by omega) hroom
    refine ⟨n + d + 1, _, ?_, hi, hskips.consume hi,
      (sameSender_skips d st).trans (sameSender_avancer _)⟩
    rw [clefDeMessage_ahead (by rw [hnat, h.iteration]) hjump, hskips.chain]

end Follows

end ZiaCrypte.Engine.SenderKeys
