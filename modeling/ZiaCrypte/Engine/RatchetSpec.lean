import ZiaCrypte.Engine.Ratchet
import Mathlib.Logic.Function.Iterate

/-!
# What each ratchet call does

One lemma per function of `ratchet.cpp`, guards included. Later modules use
these and do not unfold the functions again.
-/
namespace ZiaCrypte.Engine

variable {K : Type} (P : Primitives K)

/-! ## Headers -/

@[simp] theorem decodeHeader_encodeHeader (h : RatchetHeader) :
    decodeHeader (encodeHeader h) = h := by
  have hpn : readU32Le (encodeHeader h) 0 = h.pn := by
    rw [encodeHeader, List.append_assoc]
    exact readU32Le_append [] h.pn _ 0 rfl
  have hn : readU32Le (encodeHeader h) 4 = h.n := by
    rw [encodeHeader, List.append_assoc]
    exact readU32Le_append (writeU32Le h.pn) h.n _ 4 rfl
  have hdh : FixedBytes.copy 32 (encodeHeader h) 8 = h.dhPublic := by
    have hcopy := FixedBytes.copy_append (writeU32Le h.pn ++ writeU32Le h.n) h.dhPublic [] 8 rfl
    rwa [List.append_nil] at hcopy
  rw [decodeHeader, hpn, hn, hdh]

@[simp] theorem length_encodeHeader (h : RatchetHeader) :
    (encodeHeader h).length = kHeaderLen := by
  simp [encodeHeader, kHeaderLen]

/-! ## Chains -/

/-- The chain key after `i` advances from `ck`. -/
def chainKeyAt (ck : K) (i : Nat) : K := (nextChainKey P)^[i] ck

@[simp] theorem chainKeyAt_zero (ck : K) : chainKeyAt P ck 0 = ck := rfl

theorem chainKeyAt_succ (ck : K) (i : Nat) :
    chainKeyAt P ck (i + 1) = chainKeyAt P (nextChainKey P ck) i := rfl

theorem nextChainKey_chainKeyAt (ck : K) (i : Nat) :
    nextChainKey P (chainKeyAt P ck i) = chainKeyAt P ck (i + 1) :=
  (Function.iterate_succ_apply' (nextChainKey P) i ck).symm

theorem chainKeyAt_add (ck : K) (i j : Nat) :
    chainKeyAt P (chainKeyAt P ck i) j = chainKeyAt P ck (i + j) := by
  rw [chainKeyAt, chainKeyAt, chainKeyAt, ← Function.iterate_add_apply, Nat.add_comm]

/-- The keys a chain leaves aside when it skips `count` messages from index `nr`. -/
def skippedRun (dh : PublicKey) (nr : UInt32) (ck : K) (count : Nat) : List (ZiaSkippedKey K) :=
  (List.range count).map fun i =>
    ⟨dh, nr + UInt32.ofNat i, messageKey P (chainKeyAt P ck i)⟩

theorem skippedRun_succ (dh : PublicKey) (nr : UInt32) (ck : K) (count : Nat) :
    skippedRun P dh nr ck (count + 1) =
      ⟨dh, nr, messageKey P ck⟩ :: skippedRun P dh (nr + 1) (nextChainKey P ck) count := by
  simp only [skippedRun, List.range_succ_eq_map, List.map_cons, List.map_map]
  congr 1
  · simp
  · apply List.map_congr_left
    intro i _
    have hidx : nr + UInt32.ofNat (i + 1) = nr + 1 + UInt32.ofNat i := by
      rw [Nat.add_comm, UInt32.ofNat_add, UInt32.add_assoc]
      rfl
    simp only [Function.comp_apply, hidx, Nat.succ_eq_add_one, chainKeyAt_succ]

@[simp] theorem length_skippedRun (dh : PublicKey) (nr : UInt32) (ck : K) (count : Nat) :
    (skippedRun P dh nr ck count).length = count := by
  simp [skippedRun]

/-! ## The skipped-key cache -/

/-- Several keys stored one after another. -/
def pushAll (cache : List (ZiaSkippedKey K)) (sks : List (ZiaSkippedKey K)) :
    List (ZiaSkippedKey K) :=
  sks.foldl pushSkipped cache

theorem pushSkipped_suffix (cache : List (ZiaSkippedKey K)) (sk : ZiaSkippedKey K) :
    pushSkipped cache sk <:+ cache ++ [sk] := by
  unfold pushSkipped
  split
  · exact ⟨cache.take 1, by rw [← List.append_assoc, List.take_append_drop]⟩
  · exact List.suffix_refl _

/-- Below the limit nothing is evicted. -/
theorem pushAll_eq_append {cache sks : List (ZiaSkippedKey K)}
    (h : cache.length + sks.length ≤ kMaxSkippedKeys) : pushAll cache sks = cache ++ sks := by
  induction sks generalizing cache with
  | nil => simp [pushAll]
  | cons sk sks ih =>
    simp only [List.length_cons] at h
    have hpush : pushSkipped cache sk = cache ++ [sk] := by
      rw [pushSkipped, if_neg (by omega)]
    have hcons : pushAll cache (sk :: sks) = pushAll (pushSkipped cache sk) sks := rfl
    rw [hcons, hpush, ih (by simp; omega)]
    simp

theorem takeSkippedKey_none {s : ZiaSession K} {dh : PublicKey} {n : UInt32} :
    takeSkippedKey s dh n = none ↔ ∀ sk ∈ s.skipped, sk.isFor dh n = false := by
  unfold takeSkippedKey
  cases hf : s.skipped.find? (·.isFor dh n) with
  | none => simpa using List.find?_eq_none.mp hf
  | some sk =>
    have hmem := List.mem_of_find?_eq_some hf
    have hfor := List.find?_some hf
    constructor
    · intro h
      cases h
    · intro h
      rw [h sk hmem] at hfor
      cases hfor

/-- Taking a key removes exactly the first entry stored for it. -/
theorem takeSkippedKey_some {s s' : ZiaSession K} {dh : PublicKey} {n : UInt32} {key : K}
    (h : takeSkippedKey s dh n = some (key, s')) :
    ∃ sk before after, s.skipped = before ++ sk :: after ∧ sk.isFor dh n = true ∧
      (∀ x ∈ before, x.isFor dh n = false) ∧ key = sk.key ∧
      s' = { s with skipped := before ++ after } := by
  unfold takeSkippedKey at h
  cases hf : s.skipped.find? (·.isFor dh n) with
  | none => simp [hf] at h
  | some sk =>
    simp only [hf, Option.some.injEq, Prod.mk.injEq] at h
    obtain ⟨rfl, rfl⟩ := h
    obtain ⟨hfor, before, after, hsplit, hbefore⟩ := List.find?_eq_some_iff_append.mp hf
    have hbefore' : ∀ x ∈ before, x.isFor dh n = false := by
      intro x hx
      simpa using hbefore x hx
    refine ⟨sk, before, after, hsplit, hfor, hbefore', rfl, ?_⟩
    have herase : s.skipped.eraseP (·.isFor dh n) = before ++ after := by
      rw [hsplit, List.eraseP_append_right _ (by simpa using hbefore'),
        List.eraseP_cons_of_pos (p := fun x => ZiaSkippedKey.isFor x dh n) hfor]
    rw [herase]

/-! ## Skipping -/

/-- The session after its receive chain skipped `count` messages from `ck`. -/
def skipBy (s : ZiaSession K) (ck : K) (count : Nat) : ZiaSession K :=
  { s with
    recvChainKey := some (chainKeyAt P ck count)
    nr := s.nr + UInt32.ofNat count
    skipped := pushAll s.skipped (skippedRun P s.dhrPublic s.nr ck count) }

theorem skipBy_zero {s : ZiaSession K} {ck : K} (h : s.recvChainKey = some ck) :
    skipBy P s ck 0 = s := by
  obtain ⟨ad, a, b, c, d, e, f, g, i, rk, j, nr, l, m⟩ := s
  cases h
  simp [skipBy, skippedRun, pushAll]

theorem u32_succ_toNat {a b : UInt32} (h : a < b) : (a + 1).toNat = a.toNat + 1 := by
  have hlt := UInt32.lt_iff_toNat_lt.mp h
  have hb := b.toNat_lt
  rw [UInt32.toNat_add]
  exact Nat.mod_eq_of_lt (by simp; omega)

/-- The loop stores one key per turn; `count` turns fit below `stop`. -/
theorem skipLoop_eq (stop : UInt32) (count : Nat) {s : ZiaSession K} {ck : K}
    (hck : s.recvChainKey = some ck) (hfit : s.nr.toNat + count ≤ stop.toNat) :
    skipLoop P stop count s = .ok () (skipBy P s ck count) := by
  induction count generalizing s ck with
  | zero => rw [skipLoop, skipBy_zero P hck]
  | succ count ih =>
    have hlt : s.nr < stop := UInt32.lt_iff_toNat_lt.mpr (by omega)
    rw [skipLoop, if_pos hlt, hck]
    simp only [kdfCk, Option.map_some]
    have hfit' : (s.nr + 1).toNat + count ≤ stop.toNat := by
      rw [u32_succ_toNat hlt]
      omega
    rw [@ih _ (nextChainKey P ck) rfl hfit']
    congr 1
    simp only [skipBy, skipTurn, storeSkippedKey, chainKeyAt_succ, skippedRun_succ, pushAll, List.foldl_cons]
    congr 1
    rw [Nat.add_comm count 1, UInt32.ofNat_add, UInt32.add_assoc]
    rfl

theorem u32_sub_toNat {a b : UInt32} (h : ¬ b ≤ a) : (b - a).toNat = b.toNat - a.toNat := by
  apply UInt32.toNat_sub_of_le
  exact UInt32.le_of_lt (UInt32.not_le.mp h)

/-- How many messages a call skips to reach `stop`. -/
def gap (s : ZiaSession K) (stop : UInt32) : Nat := stop.toNat - s.nr.toNat

theorem skipRecvChainTo_absent {s : ZiaSession K} (stop : UInt32) (h : s.hasRecvChain = false) :
    skipRecvChainTo P s stop = .ok () s := by
  simp [skipRecvChainTo, h]

theorem skipRecvChainTo_behind {s : ZiaSession K} {stop : UInt32} (h : stop ≤ s.nr) :
    skipRecvChainTo P s stop = .ok () s := by
  simp [skipRecvChainTo, h]

theorem skipRecvChainTo_refused {s : ZiaSession K} {stop : UInt32} (h : s.hasRecvChain = true)
    (hgap : gap s stop > kMaxSkippedKeys) :
    skipRecvChainTo P s stop = .error .skippedKeyLimit s := by
  have hnle : ¬ stop ≤ s.nr := by
    intro hle
    have := UInt32.le_iff_toNat_le.mp hle
    simp [gap, Nat.sub_eq_zero_of_le this] at hgap
  rw [skipRecvChainTo, if_neg (by simp [h]), if_neg hnle, if_pos]
  rwa [u32_sub_toNat hnle]

/-- Within the limit an existing chain moves to `stop` and its keys go to the cache. -/
theorem skipRecvChainTo_ahead {s : ZiaSession K} {stop : UInt32} {ck : K}
    (h : s.hasRecvChain = true) (hck : s.recvChainKey = some ck)
    (hgap : gap s stop ≤ kMaxSkippedKeys) :
    skipRecvChainTo P s stop = .ok () (skipBy P s ck (gap s stop)) := by
  by_cases hle : stop ≤ s.nr
  · have hzero : gap s stop = 0 := Nat.sub_eq_zero_of_le (UInt32.le_iff_toNat_le.mp hle)
    rw [skipRecvChainTo_behind P hle, hzero, skipBy_zero P hck]
  · have hlt := UInt32.lt_iff_toNat_lt.mp (UInt32.not_le.mp hle)
    rw [skipRecvChainTo, if_neg (by simp [h]), if_neg hle, u32_sub_toNat hle,
      if_neg (by simpa [gap] using hgap)]
    exact skipLoop_eq P stop _ hck (by omega)

theorem skipLoop_ne_error (stop : UInt32) (fuel : Nat) (s t : ZiaSession K) (rc : ZiaError) :
    skipLoop P stop fuel s ≠ .error rc t := by
  induction fuel generalizing s with
  | zero =>
    intro h
    cases h
  | succ fuel ih =>
    unfold skipLoop
    split
    · split
      · intro h
        cases h
      · exact ih _
    · intro h
      cases h

/-- `skip_recv_chain_to` only refuses a gap above the limit, before any change. -/
theorem skipRecvChainTo_error {s t : ZiaSession K} {stop : UInt32} {rc : ZiaError}
    (h : skipRecvChainTo P s stop = .error rc t) : rc = .skippedKeyLimit ∧ t = s := by
  unfold skipRecvChainTo at h
  split at h
  · cases h
  split at h
  · cases h
  split at h
  · cases h
    exact ⟨rfl, rfl⟩
  · exact absurd h (skipLoop_ne_error P _ _ _ _ _)

/-- All a call of `skip_recv_chain_to` can do to a session whose flag is honest. -/
theorem skipRecvChainTo_cases {s : ZiaSession K} (stop : UInt32)
    (hflag : s.hasRecvChain = true → ∃ ck, s.recvChainKey = some ck) :
    (s.hasRecvChain = false ∧ skipRecvChainTo P s stop = .ok () s) ∨
    (s.hasRecvChain = true ∧ gap s stop > kMaxSkippedKeys ∧
      skipRecvChainTo P s stop = .error .skippedKeyLimit s) ∨
    (∃ ck, s.hasRecvChain = true ∧ s.recvChainKey = some ck ∧ gap s stop ≤ kMaxSkippedKeys ∧
      skipRecvChainTo P s stop = .ok () (skipBy P s ck (gap s stop))) := by
  cases h : s.hasRecvChain with
  | false => exact Or.inl ⟨rfl, skipRecvChainTo_absent P stop h⟩
  | true =>
    obtain ⟨ck, hck⟩ := hflag h
    by_cases hgap : gap s stop > kMaxSkippedKeys
    · exact Or.inr (Or.inl ⟨rfl, hgap, skipRecvChainTo_refused P h hgap⟩)
    · have hgap' := Nat.le_of_not_gt hgap
      exact Or.inr (Or.inr ⟨ck, rfl, hck, hgap', skipRecvChainTo_ahead P h hck hgap'⟩)

end ZiaCrypte.Engine
