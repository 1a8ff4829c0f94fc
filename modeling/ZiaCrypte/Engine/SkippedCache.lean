import ZiaCrypte.Engine.ReceiveChain
import ZiaCrypte.Engine.DecryptSpec
import Mathlib.Data.List.Nodup

/-!
# The cache of skipped keys

A header names any key it likes, one of an earlier chain too, and the DH step is made before
the message is opened. So a session comes back to the label of an earlier chain with another
root, and what the cache still has of that chain is under the same label.
-/
namespace ZiaCrypte.Engine

open ZiaCrypte.Lib

variable {K : Type} (P : Primitives K)

/-- A session, and the first chain key of the last DH step made with each remote key. -/
structure ChainedSession (K : Type) where
  session : ZiaSession K
  chain : PublicKey → Option K

namespace ChainedSession

def chainAfter : SessionCall K Empty → ChainedSession K → PublicKey → Option K
  | .decrypt env header ciphertext, x =>
      match establishedBy P env x.session header ciphertext with
      | ck :: _ => Function.update x.chain (decodeHeader header).dhPublic (some ck)
      | [] => x.chain
  | _, x => x.chain

/-- One call of `encrypt` or `decrypt`; nothing reloads the session. -/
def step (c : SessionCall K Empty) (x : ChainedSession K) : Option (ChainedSession K) :=
  (c.apply P (fun r _ => r.elim) x.session).map fun t => ⟨t, chainAfter P c x⟩

/-- A session that has made no DH step yet. -/
def start (s : SessionStart K) : ChainedSession K := ⟨s.session P, fun _ => none⟩

end ChainedSession

/-- The entries of one chain are behind the counter of the chain. -/
def Behind (cache : List (ZiaSkippedKey K)) (dh : PublicKey) (nr : UInt32) : Prop :=
  ∀ sk ∈ cache, sk.dhPublic = dh → sk.n < nr

/-- No pair of a key and a counter twice, and every key one of the chain established with
its label: the one at its counter, which the code counts in 32 bits. -/
structure Held (chain : PublicKey → Option K) (cache : List (ZiaSkippedKey K)) : Prop where
  distinct : (cache.map fun sk => (sk.dhPublic, sk.n)).Nodup
  keyed : ∀ sk ∈ cache, ∃ ck, chain sk.dhPublic = some ck ∧ ∃ i, UInt32.ofNat i = sk.n ∧
    sk.key = messageKey P (chainKeyAt P ck i)

structure CacheOk (x : ChainedSession K) : Prop where
  bounded : x.session.skipped.length ≤ kMaxSkippedKeys
  held : Held P x.chain x.session.skipped
  behind : x.session.hasRecvChain = true →
    Behind x.session.skipped x.session.dhrPublic x.session.nr

/-! ## The condition -/

/-- How far a header that opens a chain makes the new chain skip. -/
def openingSkips (h : RatchetHeader) : Nat :=
  if h.n.toNat ≤ kMaxSkippedKeys then h.n.toNat else 0

/-- What a header that opens a chain makes the session store. -/
def storedOnOpening (s : ZiaSession K) (h : RatchetHeader) : Nat :=
  (if s.hasRecvChain then gap s h.pn else 0) + openingSkips h

/-- What is left of the cache once `count` keys were stored. -/
def survivors (s : ZiaSession K) (count : Nat) : List (ZiaSkippedKey K) :=
  s.skipped.drop (s.skipped.length + count - kMaxSkippedKeys)

/-- The header opens a chain under a label that the cache still has entries of. -/
def reenters (s : ZiaSession K) (h : RatchetHeader) : Bool :=
  opensNewChain s h && !gapRefused s h.pn &&
    (survivors s (storedOnOpening s h)).any (·.dhPublic == h.dhPublic)

/-- The message is the last of the 2^32 of its chain, and the cache has entries of it. -/
def wraps (env : CallEnv K) (s : ZiaSession K) (header ciphertext : Bytes) : Bool :=
  let h := decodeHeader header
  !opensNewChain s h && !gapRefused s h.n && decide (h.n.toNat + 1 = UInt32.size) &&
    opensSelected P env s header ciphertext &&
    (s.nr != h.n || s.skipped.any (·.dhPublic == h.dhPublic))

def SessionCall.breaksCache : SessionCall K Empty → ZiaSession K → Bool
  | .decrypt env header ciphertext, s =>
      reachesRecvChain s header ciphertext &&
        (reenters s (decodeHeader header) || wraps P env s header ciphertext)
  | _, _ => false

variable {P}

/-! ## The cache as a list -/

/-- A full cache loses its oldest entries, one for each key stored. -/
theorem pushAll_eq_drop (sks : List (ZiaSkippedKey K)) {cache : List (ZiaSkippedKey K)}
    (h : cache.length ≤ kMaxSkippedKeys) :
    pushAll cache sks = (cache ++ sks).drop (cache.length + sks.length - kMaxSkippedKeys) := by
  induction sks generalizing cache with
  | nil =>
    rw [List.length_nil, Nat.add_zero, Nat.sub_eq_zero_of_le h, List.drop_zero, List.append_nil]
    rfl
  | cons sk sks ih =>
    have hcons : pushAll cache (sk :: sks) = pushAll (pushSkipped cache sk) sks := rfl
    rw [hcons, ih (length_pushSkipped_le h)]
    have happend : cache ++ sk :: sks = (cache ++ [sk]) ++ sks := by simp
    rw [happend, List.length_cons]
    by_cases hfull : cache.length ≥ kMaxSkippedKeys
    · have hone : 1 ≤ cache.length := Nat.le_trans (by decide) hfull
      have hpush : pushSkipped cache sk = (cache ++ [sk]).drop 1 := by
        rw [pushSkipped, if_pos hfull, List.drop_append_of_le_length hone]
      have hlen : (pushSkipped cache sk).length = cache.length := by
        rw [hpush, List.length_drop, List.length_append, List.length_singleton,
          Nat.add_sub_cancel]
      have hcount : 1 + (cache.length + sks.length - kMaxSkippedKeys) =
          cache.length + (sks.length + 1) - kMaxSkippedKeys := by omega
      rw [hlen, hpush, ← List.drop_append_of_le_length (by simp), List.drop_drop, hcount]
    · have hcount : cache.length + 1 + sks.length = cache.length + (sks.length + 1) := by omega
      rw [pushSkipped, if_neg hfull, List.length_append, List.length_singleton, hcount]

theorem pushAll_append (cache a b : List (ZiaSkippedKey K)) :
    pushAll (pushAll cache a) b = pushAll cache (a ++ b) := (List.foldl_append ..).symm

theorem mem_skippedRun {dh : PublicKey} {nr : UInt32} {ck : K} {count : Nat}
    {sk : ZiaSkippedKey K} :
    sk ∈ skippedRun P dh nr ck count ↔ ∃ i < count,
      (⟨dh, nr + UInt32.ofNat i, messageKey P (chainKeyAt P ck i)⟩ : ZiaSkippedKey K) = sk := by
  simp only [skippedRun, List.mem_map, List.mem_range]

theorem add_ofNat_toNat {nr : UInt32} {i : Nat} (h : nr.toNat + i < UInt32.size) :
    (nr + UInt32.ofNat i).toNat = nr.toNat + i := by
  rw [UInt32.toNat_add, UInt32.toNat_ofNat_of_lt' (by omega)]
  exact Nat.mod_eq_of_lt h

theorem succ_toNat {nr : UInt32} (h : nr.toNat + 1 < UInt32.size) :
    (nr + 1).toNat = nr.toNat + 1 := add_ofNat_toNat (i := 1) h

theorem Held.sublist {chain : PublicKey → Option K} {cache cache' : List (ZiaSkippedKey K)}
    (h : Held P chain cache) (hsub : cache'.Sublist cache) : Held P chain cache' where
  distinct := h.distinct.sublist (hsub.map _)
  keyed sk hsk := h.keyed sk (hsub.subset hsk)

theorem Behind.sublist {cache cache' : List (ZiaSkippedKey K)} {dh : PublicKey} {nr : UInt32}
    (h : Behind cache dh nr) (hsub : cache'.Sublist cache) : Behind cache' dh nr :=
  fun sk hsk => h sk (hsub.subset hsk)

/-- A new chain under a label that the cache has nothing of. -/
theorem Held.update {chain : PublicKey → Option K} {cache : List (ZiaSkippedKey K)}
    (h : Held P chain cache) {dh : PublicKey} (ck : K)
    (hnone : ∀ sk ∈ cache, sk.dhPublic ≠ dh) :
    Held P (Function.update chain dh (some ck)) cache where
  distinct := h.distinct
  keyed sk hsk := by
    rw [Function.update_of_ne (hnone sk hsk)]
    exact h.keyed sk hsk

/-- A chain at index `i` skips messages: its entries are new ones. -/
theorem Held.skips {chain : PublicKey → Option K} {cache : List (ZiaSkippedKey K)}
    (h : Held P chain cache) {dh : PublicKey} {nr : UInt32} {ck : K} {i count : Nat}
    (hbehind : Behind cache dh nr) (hchain : chain dh = some ck) (hnr : UInt32.ofNat i = nr)
    (hfit : nr.toNat + count < UInt32.size) :
    Held P chain (cache ++ skippedRun P dh nr (chainKeyAt P ck i) count) where
  distinct := by
    have hindex : ∀ j < count, (nr + UInt32.ofNat j).toNat = nr.toNat + j :=
      fun j hj => add_ofNat_toNat (by omega)
    rw [List.map_append, List.nodup_append]
    refine ⟨h.distinct, ?_, ?_⟩
    · rw [skippedRun, List.map_map]
      refine List.nodup_range.map_on fun j hj k hk heq => ?_
      have hjk := congrArg UInt32.toNat (Prod.mk.inj heq).2
      rw [hindex j (List.mem_range.mp hj), hindex k (List.mem_range.mp hk)] at hjk
      omega
    · intro a ha b hb heq
      obtain ⟨sk, hsk, rfl⟩ := List.mem_map.mp ha
      obtain ⟨new, hnew, rfl⟩ := List.mem_map.mp hb
      obtain ⟨j, hj, rfl⟩ := mem_skippedRun.mp hnew
      obtain ⟨hlabel, hn⟩ := Prod.mk.inj heq
      have hlt := UInt32.lt_iff_toNat_lt.mp (hbehind sk hsk hlabel)
      rw [hn, hindex j hj] at hlt
      omega
  keyed sk hsk := by
    rcases List.mem_append.mp hsk with hold | hnew
    · exact h.keyed sk hold
    · obtain ⟨j, hj, rfl⟩ := mem_skippedRun.mp hnew
      refine ⟨ck, hchain, i + j, ?_, ?_⟩
      · rw [UInt32.ofNat_add, hnr]
      · rw [chainKeyAt_add]

theorem Behind.skips {cache : List (ZiaSkippedKey K)} {dh : PublicKey} {nr : UInt32} {ck : K}
    {count : Nat} (h : Behind cache dh nr) (hfit : nr.toNat + count < UInt32.size) :
    Behind (cache ++ skippedRun P dh nr ck count) dh (nr + UInt32.ofNat count) := by
  intro sk hsk hlabel
  rw [UInt32.lt_iff_toNat_lt, add_ofNat_toNat hfit]
  rcases List.mem_append.mp hsk with hold | hnew
  · have hlt := UInt32.lt_iff_toNat_lt.mp (h sk hold hlabel)
    omega
  · obtain ⟨j, hj, rfl⟩ := mem_skippedRun.mp hnew
    show (nr + UInt32.ofNat j).toNat < nr.toNat + count
    rw [add_ofNat_toNat (by omega)]
    omega

/-! ## What a decryption leaves -/

variable (P)

/-- The keys that closing the current chain stores. -/
def closingRun (s : ZiaSession K) (stop : UInt32) : List (ZiaSkippedKey K) :=
  match s.recvChainKey with
  | some ck => if s.hasRecvChain then skippedRun P s.dhrPublic s.nr ck (gap s stop) else []
  | none => []

theorem skipped_skippedTo (s : ZiaSession K) (stop : UInt32) :
    (skippedTo P s stop).skipped = pushAll s.skipped (closingRun P s stop) := by
  unfold skippedTo closingRun
  cases s.recvChainKey with
  | none => rfl
  | some ck =>
    dsimp only
    split <;> rfl

theorem length_closingRun {s : ZiaSession K} (h : WellFormed s) (stop : UInt32) :
    (closingRun P s stop).length = if s.hasRecvChain then gap s stop else 0 := by
  unfold closingRun
  split
  · split
    · exact length_skippedRun P ..
    · rfl
  · rename_i hnone
    split
    · rename_i hflag
      obtain ⟨ck, hck⟩ := h.recvKey hflag
      rw [hnone] at hck
      cases hck
    · rfl

theorem openingSkips_le (h : RatchetHeader) : openingSkips h ≤ kMaxSkippedKeys := by
  unfold openingSkips
  split
  · assumption
  · exact Nat.zero_le _

/-- The session a new chain is opened on, once it has skipped `count` messages. -/
def opened (env : CallEnv K) (s : ZiaSession K) (h : RatchetHeader) (count : Nat) :
    ZiaSession K := skipBy P (stepped P env s h) (newRecvChain P env s h.dhPublic) count

/-- The current chain key is used up. -/
def consumed (s : ZiaSession K) : ZiaSession K :=
  { s with recvChainKey := s.recvChainKey.map (nextChainKey P), nr := s.nr + 1 }

theorem openMessage_session? (env : CallEnv K) (key : K) (ciphertext ad : Bytes)
    (s accepted : ZiaSession K) :
    (openMessage P env key ciphertext ad s accepted).session? =
      some (if (env.alloc && (P.aeadDecrypt key zeroNonce ciphertext ad).isSome) = true
        then accepted else s) := by
  split
  · rename_i hok
    obtain ⟨pt, hpt⟩ := openMessage_isOk P s accepted hok
    rw [hpt]
    rfl
  · rename_i hno
    rw [Bool.not_eq_true] at hno
    obtain ⟨rc, hrc⟩ := openMessage_isError P s accepted hno
    rw [hrc]
    rfl

theorem decrypt_opening (env : CallEnv K) {s : ZiaSession K} {header ciphertext : Bytes}
    (hwf : WellFormed s) (hreach : reachesRecvChain s header ciphertext = true)
    (hopens : opensNewChain s (decodeHeader header) = true)
    (hgap : gapRefused s (decodeHeader header).pn = false) :
    ∃ t, (ziaSessionDecrypt P env s header ciphertext).session? = some t ∧
      (t = opened P env s (decodeHeader header) (openingSkips (decodeHeader header)) ∨
        (decodeHeader header).n.toNat ≤ kMaxSkippedKeys ∧
        t = consumed P
          (opened P env s (decodeHeader header) (openingSkips (decodeHeader header)))) := by
  by_cases hnear : (decodeHeader header).n.toNat ≤ kMaxSkippedKeys
  · rw [decrypt_newChain P env hwf hreach hopens hgap hnear, openMessage_session?, openingSkips,
      if_pos hnear]
    refine ⟨_, rfl, ?_⟩
    split
    · refine Or.inr ⟨hnear, ?_⟩
      rw [← nextChainKey_chainKeyAt]
      rfl
    · exact Or.inl rfl
  · rw [decrypt_of_reaches P env hreach,
      advanceRecvChain_new_far P env hwf hopens hgap (Nat.lt_of_not_le hnear), openingSkips,
      if_neg hnear, opened, skipBy_zero P (stepped_recvChainKey P env s _)]
    exact ⟨_, rfl, Or.inl rfl⟩

theorem decrypt_opening_refused (env : CallEnv K) {s : ZiaSession K} {header ciphertext : Bytes}
    (hreach : reachesRecvChain s header ciphertext = true)
    (hopens : opensNewChain s (decodeHeader header) = true)
    (hgap : gapRefused s (decodeHeader header).pn = true) :
    (ziaSessionDecrypt P env s header ciphertext).session? = some s := by
  rw [decrypt_of_reaches P env hreach, advanceRecvChain_new_refused P env hopens hgap]
  rfl

theorem decrypt_current (env : CallEnv K) {s : ZiaSession K} {header ciphertext : Bytes}
    {ck : K} (hwf : WellFormed s) (hreach : reachesRecvChain s header ciphertext = true)
    (hopens : opensNewChain s (decodeHeader header) = false)
    (hgap : gapRefused s (decodeHeader header).n = false) (hflag : s.hasRecvChain = true)
    (hck : s.recvChainKey = some ck) :
    (ziaSessionDecrypt P env s header ciphertext).session? =
      some (if opensSelected P env s header ciphertext = true
        then consumed P (skipBy P s ck (gap s (decodeHeader header).n))
        else skipBy P s ck (gap s (decodeHeader header).n)) := by
  obtain ⟨-, -, htake, -⟩ := reachesRecvChain_iff.mp hreach
  have hsel : opensSelected P env s header ciphertext = (env.alloc &&
      (P.aeadDecrypt (messageKey P (chainKeyAt P ck (gap s (decodeHeader header).n))) zeroNonce
        ciphertext (messageAd s header)).isSome) := by
    simp [opensSelected, selectedKey, htake, hopens, hck]
  rw [decrypt_currentChain P env hwf hreach hopens hgap hflag hck, openMessage_session?, hsel,
    ← nextChainKey_chainKeyAt]
  rfl

theorem decrypt_current_refused (env : CallEnv K) {s : ZiaSession K} {header ciphertext : Bytes}
    (hreach : reachesRecvChain s header ciphertext = true)
    (hopens : opensNewChain s (decodeHeader header) = false)
    (hgap : gapRefused s (decodeHeader header).n = true) :
    (ziaSessionDecrypt P env s header ciphertext).session? = some s := by
  rw [decrypt_of_reaches P env hreach, advanceRecvChain_current P env hopens,
    skipRecvChainTo_of_refused hgap]
  rfl

/-- Without a receive chain the message key is read from an empty buffer. -/
theorem decrypt_current_fault (env : CallEnv K) {s : ZiaSession K} {header ciphertext : Bytes}
    (hreach : reachesRecvChain s header ciphertext = true)
    (hopens : opensNewChain s (decodeHeader header) = false) (hflag : s.hasRecvChain = false)
    (hck : s.recvChainKey = none) :
    (ziaSessionDecrypt P env s header ciphertext).session? = none := by
  rw [decrypt_of_reaches P env hreach, advanceRecvChain_current P env hopens,
    skipRecvChainTo_absent P _ hflag, Outcome.andThen_ok, openWithRecvChain, hck]
  rfl

theorem establishedBy_opening (env : CallEnv K) {s : ZiaSession K} {header ciphertext : Bytes}
    (hwf : WellFormed s) (hreach : reachesRecvChain s header ciphertext = true)
    (hopens : opensNewChain s (decodeHeader header) = true)
    (hgap : gapRefused s (decodeHeader header).pn = false) :
    establishedBy P env s header ciphertext =
      [newRecvChain P env s (decodeHeader header).dhPublic] := by
  rw [← newRecvChain_skippedTo P env s (decodeHeader header).pn]
  simp only [establishedBy, hreach, hopens, Bool.and_self, if_true,
    skipRecvChainTo_of_not_refused hwf hgap, newRecvChain]

theorem establishedBy_none (env : CallEnv K) {s : ZiaSession K} {header ciphertext : Bytes}
    (h : reachesRecvChain s header ciphertext = false ∨
      opensNewChain s (decodeHeader header) = false ∨
      gapRefused s (decodeHeader header).pn = true) :
    establishedBy P env s header ciphertext = [] := by
  unfold establishedBy
  rcases h with hreach | hopens | hgap
  · rw [if_neg (by simp [hreach])]
  · rw [if_neg (by simp [hopens])]
  · dsimp only
    rw [skipRecvChainTo_of_refused hgap]
    split <;> rfl

/-! ## The invariant -/

/-- The cache is in order, and the receive chain is at its counter. -/
structure ChainInv (x : ChainedSession K) : Prop where
  wellFormed : WellFormed x.session
  held : Held P x.chain x.session.skipped
  behind : x.session.hasRecvChain = true →
    Behind x.session.skipped x.session.dhrPublic x.session.nr
  absent : x.session.hasRecvChain = false → x.session.recvChainKey = none
  current : x.session.hasRecvChain = true → ∃ ck i, x.chain x.session.dhrPublic = some ck ∧
    UInt32.ofNat i = x.session.nr ∧ x.session.recvChainKey = some (chainKeyAt P ck i)

variable {P} {s : ZiaSession K} {chain : PublicKey → Option K}

theorem ChainInv.cacheOk {x : ChainedSession K} (h : ChainInv P x) : CacheOk P x :=
  ⟨h.wellFormed.bounded, h.held, h.behind⟩

theorem chainInv_start (start : SessionStart K) : ChainInv P (ChainedSession.start P start) := by
  have hempty : (start.session P).skipped = [] ∧ (start.session P).hasRecvChain = false ∧
      (start.session P).recvChainKey = none := by
    cases start <;> exact ⟨rfl, rfl, rfl⟩
  obtain ⟨hskipped, hflag, hck⟩ := hempty
  refine ⟨wellFormed_start P start, ?_, ?_, fun _ => hck, ?_⟩
  · show Held P _ (start.session P).skipped
    rw [hskipped]
    exact ⟨List.nodup_nil, fun sk hsk => by cases hsk⟩
  · intro h
    cases h.symm.trans hflag
  · intro h
    cases h.symm.trans hflag

/-- Entries leave the cache, and the send side moves as it likes. -/
theorem ChainInv.of_sublist {t : ZiaSession K} (h : ChainInv P ⟨s, chain⟩) (hwf : WellFormed t)
    (hsub : t.skipped.Sublist s.skipped) (hflag : t.hasRecvChain = s.hasRecvChain)
    (hdhr : t.dhrPublic = s.dhrPublic) (hck : t.recvChainKey = s.recvChainKey)
    (hnr : t.nr = s.nr) : ChainInv P ⟨t, chain⟩ where
  wellFormed := hwf
  held := h.held.sublist hsub
  behind hf := by
    show Behind t.skipped t.dhrPublic t.nr
    rw [hdhr, hnr]
    exact (h.behind (hflag.symm.trans hf)).sublist hsub
  absent hf := hck.trans (h.absent (hflag.symm.trans hf))
  current hf := by
    show ∃ ck i, chain t.dhrPublic = some ck ∧ UInt32.ofNat i = t.nr ∧
      t.recvChainKey = some (chainKeyAt P ck i)
    rw [hdhr, hnr, hck]
    exact h.current (hflag.symm.trans hf)

/-- Closing the current chain. -/
theorem ChainInv.held_closing (h : ChainInv P ⟨s, chain⟩) (stop : UInt32) :
    Held P chain (s.skipped ++ closingRun P s stop) := by
  cases hflag : s.hasRecvChain with
  | false =>
    have hnone : closingRun P s stop = [] := by
      rw [closingRun, show s.recvChainKey = none from h.absent hflag]
    rw [hnone, List.append_nil]
    exact h.held
  | true =>
    obtain ⟨ck, i, hchain, hi, hck⟩ := h.current hflag
    have hrun : closingRun P s stop =
        skippedRun P s.dhrPublic s.nr (chainKeyAt P ck i) (gap s stop) := by
      rw [closingRun, show s.recvChainKey = _ from hck]
      exact if_pos hflag
    rw [hrun]
    refine h.held.skips (h.behind hflag) hchain hi ?_
    have hstop := stop.toNat_lt
    have hnr := s.nr.toNat_lt
    show s.nr.toNat + (stop.toNat - s.nr.toNat) < UInt32.size
    simp only [UInt32.size] at *
    omega

/-- What closing the current chain stores is not under the label of the new one. -/
theorem ne_of_mem_closingRun (hwf : WellFormed s) {h : RatchetHeader}
    (hopens : opensNewChain s h = true) {sk : ZiaSkippedKey K}
    (hsk : sk ∈ closingRun P s h.pn) : sk.dhPublic ≠ h.dhPublic := by
  unfold closingRun at hsk
  split at hsk
  · split at hsk
    · rename_i hflag
      obtain ⟨i, -, rfl⟩ := mem_skippedRun.mp hsk
      have hdhr := hwf.recvDhr hflag
      simpa [opensNewChain, hdhr] using hopens
    · cases hsk
  · cases hsk

/-- The whole cache once a new chain has skipped. -/
theorem opened_skipped (env : CallEnv K) (hwf : WellFormed s) (h : RatchetHeader) {count : Nat}
    (hcount : count ≤ kMaxSkippedKeys) :
    (opened P env s h count).skipped =
      (s.skipped ++ closingRun P s h.pn).drop (s.skipped.length +
        ((if s.hasRecvChain then gap s h.pn else 0) + count) - kMaxSkippedKeys) ++
      skippedRun P h.dhPublic 0 (newRecvChain P env s h.dhPublic) count := by
  have hall : (opened P env s h count).skipped = pushAll (skippedTo P s h.pn).skipped
      (skippedRun P h.dhPublic 0 (newRecvChain P env s h.dhPublic) count) := rfl
  have hbound := hwf.bounded
  have hlen := length_closingRun P hwf h.pn
  rw [hall, skipped_skippedTo, pushAll_append, pushAll_eq_drop _ hbound, List.length_append,
    length_skippedRun, hlen, ← List.append_assoc, List.drop_append_of_le_length]
  rw [List.length_append, hlen]
  omega

/-- A chain is opened under a label that nothing of the cache is left under. -/
theorem ChainInv.opened (h : ChainInv P ⟨s, chain⟩) (env : CallEnv K) {header : RatchetHeader}
    (hopens : opensNewChain s header = true)
    (hwf : WellFormed (opened P env s header (openingSkips header)))
    (hnone : ∀ sk ∈ survivors s (storedOnOpening s header), sk.dhPublic ≠ header.dhPublic) :
    ChainInv P ⟨Engine.opened P env s header (openingSkips header),
      Function.update chain header.dhPublic (some (newRecvChain P env s header.dhPublic))⟩ := by
  have hcount := openingSkips_le header
  have hskipped := opened_skipped (P := P) (s := s) env h.wellFormed header hcount
  have hsub := List.drop_sublist (s.skipped.length + storedOnOpening s header - kMaxSkippedKeys)
    (s.skipped ++ closingRun P s header.pn)
  have hkept : ∀ sk ∈ (s.skipped ++ closingRun P s header.pn).drop
      (s.skipped.length + storedOnOpening s header - kMaxSkippedKeys),
      sk.dhPublic ≠ header.dhPublic := by
    intro sk hsk
    rw [List.drop_append] at hsk
    rcases List.mem_append.mp hsk with hold | hclosing
    · exact hnone sk hold
    · exact ne_of_mem_closingRun h.wellFormed hopens (List.mem_of_mem_drop hclosing)
  have hbehind : Behind ((s.skipped ++ closingRun P s header.pn).drop
      (s.skipped.length + storedOnOpening s header - kMaxSkippedKeys)) header.dhPublic 0 :=
    fun sk hsk hlabel => absurd hlabel (hkept sk hsk)
  have hfit : (0 : UInt32).toNat + openingSkips header < UInt32.size := by
    simp only [kMaxSkippedKeys] at hcount
    simp only [UInt32.toNat_zero, UInt32.size]
    omega
  have hheld := ((h.held_closing header.pn).sublist hsub).update
    (newRecvChain P env s header.dhPublic) hkept
  constructor
  · exact hwf
  · show Held P _ (Engine.opened P env s header (openingSkips header)).skipped
    rw [hskipped]
    exact hheld.skips (i := 0) hbehind (Function.update_self ..) rfl hfit
  · intro _
    show Behind (Engine.opened P env s header (openingSkips header)).skipped _ _
    rw [hskipped]
    exact hbehind.skips hfit
  · intro hflag
    cases hflag
  · intro _
    exact ⟨_, openingSkips header, Function.update_self .., (UInt32.zero_add _).symm, rfl⟩

/-- The current chain skips within 32 bits. -/
theorem ChainInv.skipBy (h : ChainInv P ⟨s, chain⟩) {ck : K} (hflag : s.hasRecvChain = true)
    (hck : s.recvChainKey = some ck) {count : Nat} (hwf : WellFormed (skipBy P s ck count))
    (hfit : s.nr.toNat + count < UInt32.size) :
    ChainInv P ⟨Engine.skipBy P s ck count, chain⟩ := by
  obtain ⟨first, i, hchain, hi, hat⟩ := h.current hflag
  obtain rfl := Option.some.inj (hck.symm.trans hat)
  have hskipped : (Engine.skipBy P s (chainKeyAt P first i) count).skipped =
      (s.skipped ++ skippedRun P s.dhrPublic s.nr (chainKeyAt P first i) count).drop
        (s.skipped.length + count - kMaxSkippedKeys) := by
    have hall := pushAll_eq_drop (skippedRun P s.dhrPublic s.nr (chainKeyAt P first i) count)
      h.wellFormed.bounded
    rwa [length_skippedRun] at hall
  have hsub := List.drop_sublist (s.skipped.length + count - kMaxSkippedKeys)
    (s.skipped ++ skippedRun P s.dhrPublic s.nr (chainKeyAt P first i) count)
  constructor
  · exact hwf
  · show Held P chain (Engine.skipBy P s (chainKeyAt P first i) count).skipped
    rw [hskipped]
    exact (h.held.skips (h.behind hflag) hchain hi hfit).sublist hsub
  · intro _
    show Behind (Engine.skipBy P s (chainKeyAt P first i) count).skipped _ _
    rw [hskipped]
    exact ((h.behind hflag).skips hfit).sublist hsub
  · intro hno
    cases hflag.symm.trans hno
  · intro _
    refine ⟨first, i + count, hchain, ?_, ?_⟩
    · show UInt32.ofNat (i + count) = s.nr + UInt32.ofNat count
      rw [UInt32.ofNat_add, hi]
    · show some (chainKeyAt P (chainKeyAt P first i) count) = _
      rw [chainKeyAt_add]

theorem WellFormed.consumed (h : WellFormed s) : WellFormed (consumed P s) := by
  refine ⟨h.sendKey, fun hflag => ?_, h.sendDhr, h.recvDhr, h.emptyCache, h.bounded⟩
  obtain ⟨ck, hck⟩ := h.recvKey hflag
  exact ⟨nextChainKey P ck, by rw [Engine.consumed, hck, Option.map_some]⟩

theorem WellFormed.opened (hwf : WellFormed s) (env : CallEnv K) {h : RatchetHeader}
    (hopens : opensNewChain s h = true) (hgap : gapRefused s h.pn = false) :
    WellFormed (opened P env s h (openingSkips h)) := by
  refine hwf.moves (advanceRecvChain_silent P env s h _ ?_)
  unfold openingSkips
  split
  · rename_i hnear
    rw [advanceRecvChain_new P env hwf hopens hgap hnear]
    rfl
  · rename_i hfar
    rw [advanceRecvChain_new_far P env hwf hopens hgap (Nat.lt_of_not_le hfar), Engine.opened,
      skipBy_zero P (stepped_recvChainKey P env s h)]
    rfl

theorem WellFormed.skipBy (hwf : WellFormed s) {stop : UInt32} {ck : K}
    (hflag : s.hasRecvChain = true) (hck : s.recvChainKey = some ck)
    (hgap : gapRefused s stop = false) : WellFormed (skipBy P s ck (gap s stop)) := by
  have hskip := hwf.skippedTo (P := P) stop hgap
  rw [Engine.skippedTo, hck] at hskip
  dsimp only at hskip
  rwa [if_pos hflag] at hskip

/-- The message at the counter is opened: the counter goes on, or back to 0 when the cache
has nothing of the chain. -/
theorem ChainInv.consumed (h : ChainInv P ⟨s, chain⟩) (hflag : s.hasRecvChain = true)
    (hnr : s.nr.toNat + 1 < UInt32.size ∨ ∀ sk ∈ s.skipped, sk.dhPublic ≠ s.dhrPublic) :
    ChainInv P ⟨Engine.consumed P s, chain⟩ := by
  obtain ⟨ck, i, hchain, hi, hck⟩ := h.current hflag
  refine ⟨h.wellFormed.consumed, h.held, fun _ sk hsk hlabel => ?_, fun hno => ?_, fun _ => ?_⟩
  · rcases hnr with hfit | hnone
    · have hlt := UInt32.lt_iff_toNat_lt.mp (h.behind hflag sk hsk hlabel)
      show sk.n < s.nr + 1
      rw [UInt32.lt_iff_toNat_lt, succ_toNat hfit]
      exact Nat.lt_succ_of_lt hlt
    · exact absurd hlabel (hnone sk hsk)
  · cases hflag.symm.trans hno
  · refine ⟨ck, i + 1, hchain, ?_, ?_⟩
    · show UInt32.ofNat (i + 1) = s.nr + 1
      rw [UInt32.ofNat_add, hi]
      rfl
    · show s.recvChainKey.map (nextChainKey P) = _
      rw [show s.recvChainKey = _ from hck, Option.map_some, nextChainKey_chainKeyAt]

/-! ## One call -/

/-- The chains stay as they are, and entries at most leave the cache. -/
theorem decrypt_not_reaches (h : ChainInv P ⟨s, chain⟩) (env : CallEnv K)
    {header ciphertext : Bytes} (hreach : reachesRecvChain s header ciphertext = false) :
    ∃ t, (ziaSessionDecrypt P env s header ciphertext).session? = some t ∧
      ChainInv P ⟨t, chain⟩ := by
  rcases decrypt_of_not_reaches P env hreach with ⟨rc, heq⟩ | ⟨key, t, htake, -, -, heq⟩
  · rw [heq]
    exact ⟨s, rfl, h⟩
  · rw [heq, openMessage_session?, ite_self]
    obtain ⟨sk, before, after, hsplit, -, -, -, rfl⟩ := takeSkippedKey_some htake
    refine ⟨_, rfl, h.of_sublist (h.wellFormed.move (P := P) (.take sk before after hsplit)) ?_
      rfl rfl rfl rfl⟩
    rw [hsplit]
    exact List.Sublist.append_left (List.sublist_cons_self ..) before

theorem u32_gap_fits (s : ZiaSession K) (stop : UInt32) :
    s.nr.toNat + gap s stop < UInt32.size := by
  have hstop := stop.toNat_lt
  have hnr := s.nr.toNat_lt
  simp only [gap, UInt32.size] at *
  omega

/-- The counter of the current chain once it has skipped to one that is not behind. -/
theorem skipBy_nr {stop : UInt32} (h : s.nr.toNat ≤ stop.toNat) (ck : K) :
    (skipBy P s ck (gap s stop)).nr = stop := by
  apply UInt32.toNat_inj.mp
  show (s.nr + UInt32.ofNat (gap s stop)).toNat = stop.toNat
  rw [add_ofNat_toNat (u32_gap_fits s stop), gap]
  omega

/-- A header of the current chain that is no replay is not behind. -/
theorem not_behind {header ciphertext : Bytes}
    (hreach : reachesRecvChain s header ciphertext = true)
    (hopens : opensNewChain s (decodeHeader header) = false) (hflag : s.hasRecvChain = true) :
    s.dhrPublic = (decodeHeader header).dhPublic ∧
      s.nr.toNat ≤ (decodeHeader header).n.toNat := by
  obtain ⟨-, -, -, hreplay⟩ := reachesRecvChain_iff.mp hreach
  have hlabel : s.dhrPublic = (decodeHeader header).dhPublic := by
    simp only [opensNewChain, Bool.or_eq_false_iff] at hopens
    simpa using hopens.2
  rw [isReplay, hflag, hlabel, BEq.rfl, Bool.true_and, Bool.true_and, decide_eq_false_iff_not,
    UInt32.lt_iff_toNat_lt] at hreplay
  exact ⟨hlabel, Nat.le_of_not_lt hreplay⟩

theorem opened_nr (env : CallEnv K) (h : RatchetHeader) :
    (opened P env s h (openingSkips h)).nr.toNat = openingSkips h := by
  have hle := openingSkips_le h
  show (0 + UInt32.ofNat (openingSkips h)).toNat = _
  rw [UInt32.zero_add, UInt32.toNat_ofNat_of_lt']
  simp only [kMaxSkippedKeys] at hle
  simp only [UInt32.size]
  omega

/-- The current chain went on to the counter that wraps, and nothing of it is cached. -/
theorem not_wraps {env : CallEnv K} {header ciphertext : Bytes}
    (hopens : opensNewChain s (decodeHeader header) = false)
    (hgap : gapRefused s (decodeHeader header).n = false)
    (hsel : opensSelected P env s header ciphertext = true) :
    wraps P env s header ciphertext = false ↔
      ((decodeHeader header).n.toNat + 1 = UInt32.size → s.nr = (decodeHeader header).n ∧
        ∀ sk ∈ s.skipped, sk.dhPublic ≠ (decodeHeader header).dhPublic) := by
  simp [wraps, hopens, hgap, hsel]

/-- A decryption that does not break the cache keeps the invariant. -/
theorem ChainInv.decrypt (h : ChainInv P ⟨s, chain⟩) {env : CallEnv K}
    {header ciphertext : Bytes} {t : ZiaSession K}
    (ht : (ziaSessionDecrypt P env s header ciphertext).session? = some t)
    (hok : (SessionCall.decrypt env header ciphertext).breaksCache P s = false) :
    ChainInv P ⟨t, ChainedSession.chainAfter P (.decrypt env header ciphertext) ⟨s, chain⟩⟩ := by
  have hsame : establishedBy P env s header ciphertext = [] →
      ChainedSession.chainAfter P (.decrypt env header ciphertext) ⟨s, chain⟩ = chain := by
    intro hnone
    rw [ChainedSession.chainAfter, hnone]
  cases hreach : reachesRecvChain s header ciphertext with
  | false =>
    rw [hsame (establishedBy_none P env (.inl hreach))]
    obtain ⟨u, hu, hinv⟩ := decrypt_not_reaches h env hreach
    obtain rfl := Option.some.inj (ht.symm.trans hu)
    exact hinv
  | true =>
    simp only [SessionCall.breaksCache, hreach, Bool.true_and, Bool.or_eq_false_iff] at hok
    cases hopens : opensNewChain s (decodeHeader header) with
    | true =>
      cases hgap : gapRefused s (decodeHeader header).pn with
      | true =>
        rw [hsame (establishedBy_none P env (.inr (.inr hgap)))]
        rw [decrypt_opening_refused P env hreach hopens hgap] at ht
        obtain rfl := Option.some.inj ht
        exact h
      | false =>
        have hafter : ChainedSession.chainAfter P (.decrypt env header ciphertext) ⟨s, chain⟩ =
            Function.update chain (decodeHeader header).dhPublic
              (some (newRecvChain P env s (decodeHeader header).dhPublic)) := by
          rw [ChainedSession.chainAfter, establishedBy_opening P env h.wellFormed hreach hopens hgap]
        have hnone : ∀ sk ∈ survivors s (storedOnOpening s (decodeHeader header)),
            sk.dhPublic ≠ (decodeHeader header).dhPublic := by
          simpa [reenters, hopens, hgap] using hok.1
        have hopened := h.opened env hopens (h.wellFormed.opened env hopens hgap) hnone
        rw [hafter]
        obtain ⟨u, hu, hcases⟩ := decrypt_opening P env h.wellFormed hreach hopens hgap
        obtain rfl := Option.some.inj (ht.symm.trans hu)
        rcases hcases with rfl | ⟨hnear, rfl⟩
        · exact hopened
        · refine hopened.consumed rfl (.inl ?_)
          have hle := openingSkips_le (decodeHeader header)
          rw [opened_nr]
          simp only [kMaxSkippedKeys] at hle
          simp only [UInt32.size]
          omega
    | false =>
      rw [hsame (establishedBy_none P env (.inr (.inl hopens)))]
      cases hflag : s.hasRecvChain with
      | false =>
        rw [decrypt_current_fault P env hreach hopens hflag (h.absent hflag)] at ht
        cases ht
      | true =>
        cases hgap : gapRefused s (decodeHeader header).n with
        | true =>
          rw [decrypt_current_refused P env hreach hopens hgap] at ht
          obtain rfl := Option.some.inj ht
          exact h
        | false =>
          obtain ⟨ck, hck⟩ := h.wellFormed.recvKey hflag
          have hskipped := h.skipBy hflag hck (h.wellFormed.skipBy (P := P) hflag hck hgap)
            (u32_gap_fits s (decodeHeader header).n)
          rw [decrypt_current P env h.wellFormed hreach hopens hgap hflag hck] at ht
          obtain rfl := Option.some.inj ht
          split
          · rename_i hsel
            obtain ⟨hlabel, hle⟩ := not_behind hreach hopens hflag
            have hnr := skipBy_nr (P := P) hle ck
            have hlt := (decodeHeader header).n.toNat_lt
            refine hskipped.consumed hflag ?_
            rw [hnr]
            by_cases hlast : (decodeHeader header).n.toNat + 1 = UInt32.size
            · obtain ⟨heq, hnone⟩ := (not_wraps hopens hgap hsel).mp hok.2 hlast
              have hzero : gap s (decodeHeader header).n = 0 := by
                rw [gap, heq, Nat.sub_self]
              rw [hzero, skipBy_zero P hck, hlabel]
              exact .inr hnone
            · simp only [UInt32.size] at hlast ⊢
              exact .inl (by omega)
          · exact hskipped

/-! ## A call that breaks the cache -/

/-- An entry of the earlier chain is ahead of the counter, or has the place of a new one. -/
theorem reenters_broken (h : ChainInv P ⟨s, chain⟩) (env : CallEnv K) {header ciphertext : Bytes}
    (hreach : reachesRecvChain s header ciphertext = true)
    (hre : reenters s (decodeHeader header) = true) :
    ∃ t, (ziaSessionDecrypt P env s header ciphertext).session? = some t ∧
      ∀ chain', ¬ CacheOk P ⟨t, chain'⟩ := by
  simp only [reenters, Bool.and_eq_true, Bool.not_eq_true', List.any_eq_true, beq_iff_eq] at hre
  obtain ⟨⟨hopens, hgap⟩, sk, hsk, hlabel⟩ := hre
  obtain ⟨-, -, htake, -⟩ := reachesRecvChain_iff.mp hreach
  have hne : sk.n ≠ (decodeHeader header).n := by
    have hfor := takeSkippedKey_none.mp htake sk (List.mem_of_mem_drop hsk)
    intro heq
    simp [ZiaSkippedKey.isFor, heq, hlabel] at hfor
  have hskipped := opened_skipped (P := P) env h.wellFormed (decodeHeader header)
    (openingSkips_le (decodeHeader header))
  have hkept : sk ∈ (s.skipped ++ closingRun P s (decodeHeader header).pn).drop
      (s.skipped.length + storedOnOpening s (decodeHeader header) - kMaxSkippedKeys) := by
    rw [List.drop_append]
    exact List.mem_append_left _ hsk
  -- Behind the counter, its place is one that the new chain has filled.
  have htwice : sk.n.toNat < openingSkips (decodeHeader header) → ∀ chain',
      ¬ Held P chain'
        (opened P env s (decodeHeader header) (openingSkips (decodeHeader header))).skipped := by
    intro hlt chain' hheld
    have hdistinct := hheld.distinct
    rw [hskipped, List.map_append] at hdistinct
    refine (List.nodup_append.mp hdistinct).2.2 _ (List.mem_map_of_mem hkept) _
      (List.mem_map_of_mem (mem_skippedRun.mpr ⟨sk.n.toNat, hlt, rfl⟩)) ?_
    simp [hlabel]
  have hmem : sk ∈
      (opened P env s (decodeHeader header) (openingSkips (decodeHeader header))).skipped := by
    rw [hskipped]
    exact List.mem_append_left _ hkept
  obtain ⟨t, ht, hcases⟩ := decrypt_opening P env h.wellFormed hreach hopens hgap
  refine ⟨t, ht, fun chain' hok => ?_⟩
  rcases hcases with rfl | ⟨hnear, rfl⟩
  · have hlt := UInt32.lt_iff_toNat_lt.mp (hok.behind rfl sk hmem hlabel)
    rw [opened_nr] at hlt
    exact htwice hlt chain' hok.held
  · have hlt : sk.n < (opened P env s (decodeHeader header)
        (openingSkips (decodeHeader header))).nr + 1 := hok.behind rfl sk hmem hlabel
    have hle := openingSkips_le (decodeHeader header)
    have hat : openingSkips (decodeHeader header) = (decodeHeader header).n.toNat := if_pos hnear
    have hnr := opened_nr (P := P) (s := s) env (decodeHeader header)
    have hfit : (opened P env s (decodeHeader header)
        (openingSkips (decodeHeader header))).nr.toNat + 1 < UInt32.size := by
      simp only [kMaxSkippedKeys] at hle
      simp only [hnr, UInt32.size]
      omega
    rw [UInt32.lt_iff_toNat_lt, succ_toNat hfit, hnr] at hlt
    have hplace : sk.n.toNat ≠ (decodeHeader header).n.toNat :=
      fun heq => hne (UInt32.toNat_inj.mp heq)
    exact htwice (by omega) chain' hok.held

/-- What a skip stores last stays in the cache. -/
theorem exists_mem_skipBy (hwf : WellFormed s) (ck : K) {count : Nat}
    (hpos : 0 < count) (hcount : count ≤ kMaxSkippedKeys) :
    ∃ sk ∈ (skipBy P s ck count).skipped, sk.dhPublic = s.dhrPublic := by
  have hskipped : (skipBy P s ck count).skipped = _ :=
    pushAll_eq_drop (skippedRun P s.dhrPublic s.nr ck count) hwf.bounded
  have hbound := hwf.bounded
  rw [length_skippedRun, List.drop_append_of_le_length (by omega)] at hskipped
  refine ⟨⟨s.dhrPublic, s.nr + UInt32.ofNat 0, messageKey P (chainKeyAt P ck 0)⟩, ?_, rfl⟩
  rw [hskipped]
  exact List.mem_append_right _ (mem_skippedRun.mpr ⟨0, hpos, rfl⟩)

/-- The counter is 0 again, and nothing is behind it. -/
theorem wraps_broken (h : ChainInv P ⟨s, chain⟩) (env : CallEnv K) {header ciphertext : Bytes}
    (hreach : reachesRecvChain s header ciphertext = true)
    (hwraps : wraps P env s header ciphertext = true) :
    ∃ t, (ziaSessionDecrypt P env s header ciphertext).session? = some t ∧
      ∀ chain', ¬ CacheOk P ⟨t, chain'⟩ := by
  simp only [wraps, Bool.and_eq_true, Bool.not_eq_true', decide_eq_true_eq, Bool.or_eq_true,
    bne_iff_ne, List.any_eq_true, beq_iff_eq] at hwraps
  obtain ⟨⟨⟨⟨hopens, hgap⟩, hlast⟩, hsel⟩, hentry⟩ := hwraps
  cases hflag : s.hasRecvChain with
  | false =>
    have hno : opensSelected P env s header ciphertext = false := by
      obtain ⟨-, -, htake, -⟩ := reachesRecvChain_iff.mp hreach
      simp [opensSelected, selectedKey, htake, hopens, show s.recvChainKey = none from h.absent hflag]
    cases hsel.symm.trans hno
  | true =>
    obtain ⟨ck, hck⟩ := h.wellFormed.recvKey hflag
    obtain ⟨hlabel, hle⟩ := not_behind hreach hopens hflag
    have hlimit : gap s (decodeHeader header).n ≤ kMaxSkippedKeys := by
      simpa [gapRefused, hflag] using hgap
    have hfound : ∃ sk ∈ (skipBy P s ck (gap s (decodeHeader header).n)).skipped,
        sk.dhPublic = s.dhrPublic := by
      by_cases hzero : gap s (decodeHeader header).n = 0
      · rw [hzero, skipBy_zero P hck]
        have heq : s.nr = (decodeHeader header).n := by
          rw [gap] at hzero
          exact UInt32.toNat_inj.mp (by omega)
        obtain ⟨sk, hsk, hfor⟩ := hentry.resolve_left fun hne => hne heq
        exact ⟨sk, hsk, hfor.trans hlabel.symm⟩
      · exact exists_mem_skipBy h.wellFormed ck (Nat.pos_of_ne_zero hzero) hlimit
    obtain ⟨sk, hsk, hfor⟩ := hfound
    have hrun := decrypt_current P env h.wellFormed hreach hopens hgap hflag hck
    rw [if_pos hsel] at hrun
    refine ⟨_, hrun, fun chain' hok => ?_⟩
    have hlt : sk.n < (skipBy P s ck (gap s (decodeHeader header).n)).nr + 1 :=
      hok.behind hflag sk hsk hfor
    rw [skipBy_nr hle, UInt32.lt_iff_toNat_lt, UInt32.toNat_add] at hlt
    simp only [UInt32.size] at hlast
    simp only [UInt32.toNat_one, hlast] at hlt
    omega

/-! ## Runs -/

/-- A call leaves the cache in order exactly when it does not break it. -/
theorem step_cacheOk_iff (c : SessionCall K Empty) {x : ChainedSession K} (h : ChainInv P x) :
    (Reaches (ChainedSession.step P) (CacheOk P) c x ↔ c.breaksCache P x.session = false) ∧
      (c.breaksCache P x.session = false →
        ∀ t, ChainedSession.step P c x = some t → ChainInv P t) := by
  obtain ⟨s, chain⟩ := x
  have hkeeps : c.breaksCache P s = false →
      ∀ t, ChainedSession.step P c ⟨s, chain⟩ = some t → ChainInv P t := by
    intro hok t ht
    obtain ⟨u, hu, rfl⟩ := Option.map_eq_some_iff.mp ht
    cases c with
    | reload r => exact r.elim
    | decrypt env header ciphertext => exact h.decrypt hu hok
    | encrypt env plaintext =>
      cases henc : ziaSessionEncrypt P env s plaintext with
      | fault =>
        rw [SessionCall.apply, henc] at hu
        cases hu
      | error rc v =>
        rw [SessionCall.apply, henc] at hu
        obtain rfl := Option.some.inj hu
        rw [encrypt_error P henc]
        exact h
      | ok m v =>
        rw [SessionCall.apply, henc] at hu
        obtain rfl := Option.some.inj hu
        obtain ⟨ck, hflag, hck, -, -, rfl⟩ := encrypt_ok_cases P henc
        exact h.of_sublist (h.wellFormed.move (P := P) (.send ck hflag hck))
          (List.Sublist.refl _) rfl rfl rfl rfl
  refine ⟨⟨fun hreaches => ?_, fun hok t ht => (hkeeps hok t ht).cacheOk⟩, hkeeps⟩
  by_contra hbreaks
  rw [Bool.not_eq_false] at hbreaks
  cases c with
  | reload r => exact r.elim
  | encrypt env plaintext => cases hbreaks
  | decrypt env header ciphertext =>
    simp only [SessionCall.breaksCache, Bool.and_eq_true, Bool.or_eq_true] at hbreaks
    obtain ⟨hreach, hbreaks⟩ := hbreaks
    have hbroken : ∃ t, (ziaSessionDecrypt P env s header ciphertext).session? = some t ∧
        ∀ chain', ¬ CacheOk P ⟨t, chain'⟩ := by
      rcases hbreaks with hre | hwraps
      · exact reenters_broken h env hreach hre
      · exact wraps_broken h env hreach hwraps
    obtain ⟨t, ht, hnot⟩ := hbroken
    exact hnot _ (hreaches _ (Option.map_eq_some_iff.mpr ⟨t, ht, rfl⟩))

/-- Over any run, the cache is in order after every call exactly when no header comes back to
a label that the cache still has, and no counter wraps before its entries are gone. -/
theorem skippedCache_ok_iff (start : SessionStart K) (calls : List (SessionCall K Empty)) :
    (CacheOk P (ChainedSession.start P start) ∧
      Always (ChainedSession.step P) (Reaches (ChainedSession.step P) (CacheOk P)) calls
        (ChainedSession.start P start)) ↔
      Always (ChainedSession.step P) (fun c x => c.breaksCache P x.session = false) calls
        (ChainedSession.start P start) := by
  have hinv := chainInv_start (P := P) start
  have hruns : Always (ChainedSession.step P) (Reaches (ChainedSession.step P) (CacheOk P)) calls
        (ChainedSession.start P start) ↔
      Always (ChainedSession.step P) (fun c x => c.breaksCache P x.session = false) calls
        (ChainedSession.start P start) :=
    always_iff_of_invariant (ChainInv P)
      (fun c x t h hq ht => (step_cacheOk_iff c h).2 ((step_cacheOk_iff c h).1.mp hq) t ht)
      (fun c x h => (step_cacheOk_iff c h).1) hinv
  exact ⟨fun h => hruns.mp h.2, fun h => ⟨hinv.cacheOk, hruns.mpr h⟩⟩

/-! ## A label that comes back -/

/-- Garbage under a header. -/
def garbage (pn n : UInt32) (dh : PublicKey) : SessionCall Key Empty :=
  .decrypt (sampleEnv 4) (encodeHeader ⟨pn, n, dh⟩) (List.replicate aeadABytes 0)

/-- Three messages that do not open, the last under the key of the first. -/
def comesBack : List (SessionCall Key Empty) :=
  [garbage 0 2 (sampleKey 8), garbage 2 0 (sampleKey 9), garbage 0 2 (sampleKey 8)]

theorem comesBack_broken :
    ∃ x, run (ChainedSession.step sample) comesBack (ChainedSession.start sample
        (.responder sampleAd (sampleKey 3) (sampleKey 1) (sampleKey 1))) = some x ∧
      x.session.skipped.map (fun sk => (sk.dhPublic, sk.n)) =
        [(sampleKey 8, 0), (sampleKey 8, 1), (sampleKey 8, 0), (sampleKey 8, 1)] ∧
      ¬ CacheOk sample x := by
  have hrun : (run (ChainedSession.step sample) comesBack (ChainedSession.start sample
      (.responder sampleAd (sampleKey 3) (sampleKey 1) (sampleKey 1)))).any (fun x =>
        decide (x.session.skipped.map (fun sk => (sk.dhPublic, sk.n)) =
          [(sampleKey 8, 0), (sampleKey 8, 1), (sampleKey 8, 0), (sampleKey 8, 1)])) = true := by
    decide +kernel
  obtain ⟨x, hx, hpairs⟩ := (Option.any_eq_true _ _).mp hrun
  have hpairs := of_decide_eq_true hpairs
  refine ⟨x, hx, hpairs, fun hok => ?_⟩
  have hdistinct := hok.held.distinct
  rw [hpairs] at hdistinct
  exact absurd hdistinct (by decide)

end ZiaCrypte.Engine
