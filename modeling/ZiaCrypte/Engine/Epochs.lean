import ZiaCrypte.Engine.KeySchedule
import ZiaCrypte.Engine.DecryptSpec

/-!
# Epochs of a conversation

Two sessions of one handshake draw their ratchet key pairs in turn: the signed
prekey is level 0, the initiator's first pair level 1, the responder's next pair
level 2, and so on. The root key and the send chain of a level come from the pairs
up to it. This describes one session by the level of its own pair.
-/
namespace ZiaCrypte.Engine

variable {K : Type} (P : Primitives K)

/-- X25519 between generated key pairs: both sides get one secret, and no pair is
of low order. -/
def DhAgreement : Prop :=
  ∀ a b, ∃ k, P.x25519Scalarmult a (P.x25519Base b) = some k ∧
    P.x25519Scalarmult b (P.x25519Base a) = some k

def sharedDh (a b : K) : K := (P.x25519Scalarmult a (P.x25519Base b)).getD a

variable {P}

theorem scalarmult_sharedDh (h : DhAgreement P) (a b : K) :
    P.x25519Scalarmult a (P.x25519Base b) = some (sharedDh P a b) := by
  obtain ⟨k, hk, _⟩ := h a b
  rw [sharedDh, hk, Option.getD_some]

theorem sharedDh_comm (h : DhAgreement P) (a b : K) : sharedDh P a b = sharedDh P b a := by
  obtain ⟨k, hk, hk'⟩ := h a b
  rw [sharedDh, sharedDh, hk, hk', Option.getD_some, Option.getD_some]

/-- The private key of each level, and how many messages its chain has sent. -/
structure Epochs (K : Type) where
  key : Nat → K
  count : Nat → Nat

namespace Epochs

variable (P)

def root (E : Epochs K) (sk : K) : Nat → K
  | 0 => sk
  | l + 1 => nextRoot P (E.root sk l) (sharedDh P (E.key (l + 1)) (E.key l))

/-- The chain the owner of level `l` sends on. -/
def chain (E : Epochs K) (sk : K) (l : Nat) : K :=
  chainOf P (E.root P sk (l - 1)) (sharedDh P (E.key l) (E.key (l - 1)))

def messageKeyAt (E : Epochs K) (sk : K) (l j : Nat) : K :=
  messageKey P (chainKeyAt P (E.chain P sk l) j)

/-- The header of message `j` of level `l`. -/
def header (E : Epochs K) (l j : Nat) : RatchetHeader :=
  ⟨UInt32.ofNat (E.count (l - 2)), UInt32.ofNat j, P.x25519Base (E.key l)⟩

def skippedKey (E : Epochs K) (sk : K) (l j : Nat) : ZiaSkippedKey K :=
  ⟨P.x25519Base (E.key l), UInt32.ofNat j, E.messageKeyAt P sk l j⟩

variable {P}

theorem root_congr {E F : Epochs K} (sk : K) {l : Nat} (h : ∀ i ≤ l, E.key i = F.key i) :
    E.root P sk l = F.root P sk l := by
  induction l with
  | zero => rfl
  | succ l ih =>
    rw [root, root, ih fun i hi => h i (Nat.le_succ_of_le hi), h (l + 1) (Nat.le_refl _),
      h l (Nat.le_succ l)]

theorem chain_congr {E F : Epochs K} (sk : K) {l : Nat} (h : ∀ i ≤ l, E.key i = F.key i) :
    E.chain P sk l = F.chain P sk l := by
  rw [chain, chain, root_congr sk fun i hi => h i (Nat.le_trans hi (Nat.sub_le l 1)),
    h l (Nat.le_refl l), h (l - 1) (Nat.sub_le l 1)]

theorem skippedKey_congr {E F : Epochs K} (sk : K) {l : Nat} (h : ∀ i ≤ l, E.key i = F.key i)
    (j : Nat) : E.skippedKey P sk l j = F.skippedKey P sk l j := by
  rw [skippedKey, skippedKey, messageKeyAt, messageKeyAt, chain_congr sk h, h l (Nat.le_refl l)]

variable (P)

/-- What holds of the levels drawn so far, the last of which is `top`. -/
structure Drawn (E : Epochs K) (top : Nat) : Prop where
  distinct : ∀ i j, i ≤ top → j ≤ top → P.x25519Base (E.key i) = P.x25519Base (E.key j) → i = j
  count_zero : E.count 0 = 0
  count_future : ∀ i, top < i → E.count i = 0
  count_lt : ∀ i, E.count i < UInt32.size

end Epochs

/-- Message `j` of level `l'` is behind a receiver at level `l` whose current
chain stands at `pos`. -/
def Passed (E : Epochs K) (l pos l' j : Nat) : Prop :=
  l' + 1 = l ∧ j < pos ∨ l' + 1 < l ∧ j < E.count l'

variable (P)

/-- The session of a party whose own pair is that of level `l`. -/
structure AtLevel (E : Epochs K) (sk : K) (ad : FixedBytes 64) (l pos : Nat) (s : ZiaSession K) :
    Prop where
  wellFormed : WellFormed s
  ad : s.ad = ad
  dhsPrivate : s.dhsPrivate = E.key l
  dhsPublic : s.dhsPublic = P.x25519Base (E.key l)
  rootKey : s.rootKey = E.root P sk l
  hasDhr : s.hasDhr = decide (0 < l)
  dhrPublic : 0 < l → s.dhrPublic = P.x25519Base (E.key (l - 1))
  sendKey : 0 < l → s.sendChainKey = some (chainKeyAt P (E.chain P sk l) (E.count l))
  hasRecvChain : s.hasRecvChain = decide (1 < l)
  recvKey : 1 < l → s.recvChainKey = some (chainKeyAt P (E.chain P sk (l - 1)) pos)
  ns : s.ns = UInt32.ofNat (E.count l)
  nr : s.nr = UInt32.ofNat pos
  pn : s.pn = UInt32.ofNat (E.count (l - 2))
  nr_le : pos ≤ E.count (l - 1)

/-- The cache of a receiver: every entry is the key of a message passed over, and
every message passed over that may still come has its entry. -/
structure CacheInv (E : Epochs K) (sk : K) (l pos : Nat) (cache : List (ZiaSkippedKey K))
    (owed : Nat → Nat → Prop) : Prop where
  sound : ∀ e ∈ cache, ∃ l' j, e = E.skippedKey P sk l' j ∧ Passed E l pos l' j
  holds : ∀ l' j, owed l' j → Passed E l pos l' j → E.skippedKey P sk l' j ∈ cache

/-- The other messages that may still come. -/
def without (owed : Nat → Nat → Prop) (l j : Nat) : Nat → Nat → Prop :=
  fun l' j' => owed l' j' ∧ (l' ≠ l ∨ j' ≠ j)

/-! ## Looking a message up in the cache -/

variable {P}

theorem ofNat_inj_of_lt {i j : Nat} (hi : i < UInt32.size) (hj : j < UInt32.size)
    (h : UInt32.ofNat i = UInt32.ofNat j) : i = j := by
  have hnat := congrArg UInt32.toNat h
  rwa [UInt32.toNat_ofNat_of_lt' hi, UInt32.toNat_ofNat_of_lt' hj] at hnat

section Receiver

variable {E : Epochs K} {sk : K} {ad : FixedBytes 64} {l pos top : Nat} {s : ZiaSession K}
  {owed : Nat → Nat → Prop}

theorem Passed.level_lt {l' j : Nat} (h : Passed E l pos l' j) : l' < l := by
  rcases h with ⟨h, _⟩ | ⟨h, _⟩ <;> omega

theorem Passed.index_lt (hd : E.Drawn P top) (hs : AtLevel P E sk ad l pos s) {l' j : Nat}
    (h : Passed E l pos l' j) : j < UInt32.size := by
  have hcount := hd.count_lt l'
  rcases h with ⟨rfl, hj⟩ | ⟨_, hj⟩
  · have hle := hs.nr_le
    rw [Nat.add_sub_cancel] at hle
    omega
  · omega

/-- Entries of the cache answer to exactly their own level and index. -/
theorem skippedKey_isFor (hd : E.Drawn P top) {l₁ j₁ l₂ j₂ : Nat} (h₁ : l₁ ≤ top) (h₂ : l₂ ≤ top)
    (hj₁ : j₁ < UInt32.size) (hj₂ : j₂ < UInt32.size) :
    (E.skippedKey P sk l₁ j₁).isFor (P.x25519Base (E.key l₂)) (UInt32.ofNat j₂) = true ↔
      l₁ = l₂ ∧ j₁ = j₂ := by
  simp only [ZiaSkippedKey.isFor, Epochs.skippedKey, Bool.and_eq_true, beq_iff_eq]
  constructor
  · rintro ⟨hj, hk⟩
    exact ⟨hd.distinct _ _ h₁ h₂ hk, ofNat_inj_of_lt hj₁ hj₂ hj⟩
  · rintro ⟨rfl, rfl⟩
    exact ⟨rfl, rfl⟩

/-- A message that was not passed over is not in the cache. -/
theorem takeSkippedKey_of_not_passed (hd : E.Drawn P top) (hs : AtLevel P E sk ad l pos s)
    (hl : l ≤ top) (hc : CacheInv P E sk l pos s.skipped owed) {l' j : Nat} (hl' : l' ≤ top)
    (hj : j < UInt32.size) (hnot : ¬ Passed E l pos l' j) :
    takeSkippedKey s (P.x25519Base (E.key l')) (UInt32.ofNat j) = none := by
  rw [takeSkippedKey_none]
  intro e he
  obtain ⟨l₁, j₁, rfl, hpassed⟩ := hc.sound e he
  by_contra hfor
  rw [Bool.not_eq_false] at hfor
  have hlevel := hpassed.level_lt
  obtain ⟨rfl, rfl⟩ := (skippedKey_isFor hd (by omega) hl' (hpassed.index_lt hd hs) hj).mp hfor
  exact hnot hpassed

/-- A message passed over that may still come is found, and taking its key leaves
the others. -/
theorem takeSkippedKey_of_passed (hd : E.Drawn P top) (hs : AtLevel P E sk ad l pos s)
    (hl : l ≤ top) (hc : CacheInv P E sk l pos s.skipped owed) {l' j : Nat} (hl' : l' ≤ top)
    (howed : owed l' j) (hpassed : Passed E l pos l' j) :
    ∃ cache, takeSkippedKey s (P.x25519Base (E.key l')) (UInt32.ofNat j) =
        some (E.messageKeyAt P sk l' j, { s with skipped := cache }) ∧
      CacheInv P E sk l pos cache (without owed l' j) := by
  have hj := hpassed.index_lt hd hs
  have hself : (E.skippedKey P sk l' j).isFor (P.x25519Base (E.key l')) (UInt32.ofNat j) = true :=
    (skippedKey_isFor hd hl' hl' hj hj).mpr ⟨rfl, rfl⟩
  cases htake : takeSkippedKey s (P.x25519Base (E.key l')) (UInt32.ofNat j) with
  | none =>
    have hno := takeSkippedKey_none.mp htake _ (hc.holds l' j howed hpassed)
    rw [hself] at hno
    cases hno
  | some taken =>
    obtain ⟨e, before, after, hsplit, hfor, _, hkey, hrest⟩ := takeSkippedKey_some htake
    obtain ⟨l₁, j₁, rfl, hpassed₁⟩ := hc.sound e (by rw [hsplit]; simp)
    have hlevel := hpassed₁.level_lt
    obtain ⟨rfl, rfl⟩ :=
      (skippedKey_isFor hd (by omega) hl' (hpassed₁.index_lt hd hs) hj).mp hfor
    refine ⟨before ++ after, ?_, ?_, ?_⟩
    · rw [← hrest]
      exact congrArg some (Prod.ext hkey rfl)
    · intro e he
      refine hc.sound e ?_
      rw [hsplit]
      rcases List.mem_append.mp he with he | he <;> simp [he]
    · rintro l₂ j₂ ⟨howed₂, hne⟩ hpassed₂
      have hmem := hc.holds l₂ j₂ howed₂ hpassed₂
      rw [hsplit] at hmem
      rcases List.mem_append.mp hmem with he | he
      · exact List.mem_append_left _ he
      · rcases List.mem_cons.mp he with heq | he
        · have hfor₂ := hfor
          rw [← heq] at hfor₂
          have hlevel₂ := hpassed₂.level_lt
          obtain ⟨rfl, rfl⟩ :=
            (skippedKey_isFor hd (by omega) hl' (hpassed₂.index_lt hd hs) hj).mp hfor₂
          exact absurd rfl (hne.resolve_left (fun h => h rfl))
        · exact List.mem_append_right _ he

/-! ## Receiving -/

/-- What the header makes the receiver store. -/
def storedBy (s : ZiaSession K) (h : RatchetHeader) : Nat :=
  match takeSkippedKey s h.dhPublic h.n with
  | some _ => 0
  | none =>
      if opensNewChain s h then (if s.hasRecvChain then gap s h.pn else 0) + h.n.toNat
      else if s.hasRecvChain then gap s h.n else 0

theorem WellFormed.of_decrypt_ok {env : CallEnv K} {t : ZiaSession K} {header ciphertext pt : Bytes}
    (hs : WellFormed s) (h : ziaSessionDecrypt P env s header ciphertext = .ok pt t) :
    WellFormed t := by
  obtain ⟨_, hmoves, _⟩ := decrypt_ok_moves P h
  exact hs.moves hmoves

theorem AtLevel.messageAd_eq (hs : AtLevel P E sk ad l pos s) (header : Bytes) :
    messageAd s header = ad.bytes ++ header := by
  rw [messageAd, hs.ad]

theorem AtLevel.pos_lt (hd : E.Drawn P top) (hs : AtLevel P E sk ad l pos s) : pos < UInt32.size :=
  Nat.lt_of_le_of_lt hs.nr_le (hd.count_lt _)

theorem AtLevel.gap_eq (hd : E.Drawn P top) (hs : AtLevel P E sk ad l pos s) {j : Nat}
    (hj : j < UInt32.size) : gap s (UInt32.ofNat j) = j - pos := by
  rw [gap, hs.nr, UInt32.toNat_ofNat_of_lt' hj, UInt32.toNat_ofNat_of_lt' (hs.pos_lt hd)]

/-- What a chain leaves aside from `pos` on are the keys of the next messages. -/
theorem skippedRun_eq (E : Epochs K) (sk : K) (l pos count : Nat) :
    skippedRun P (P.x25519Base (E.key l)) (UInt32.ofNat pos)
        (chainKeyAt P (E.chain P sk l) pos) count =
      (List.range count).map fun i => E.skippedKey P sk l (pos + i) := by
  apply List.map_congr_left
  intro i _
  rw [Epochs.skippedKey, Epochs.messageKeyAt, chainKeyAt_add, UInt32.ofNat_add]

theorem mem_skippedRange {l pos count l' j : Nat} (hl : l' = l) (hlo : pos ≤ j)
    (hhi : j < pos + count) :
    E.skippedKey P sk l' j ∈ (List.range count).map fun i => E.skippedKey P sk l (pos + i) := by
  subst hl
  refine List.mem_map.mpr ⟨j - pos, List.mem_range.mpr (by omega), ?_⟩
  rw [Nat.add_sub_cancel' hlo]

/-- A message passed over opens with its cached key. -/
theorem receive_cached (hP : AeadCorrect P) (hd : E.Drawn P top) (hs : AtLevel P E sk ad l pos s)
    (hl : l ≤ top) (hc : CacheInv P E sk l pos s.skipped owed) {env : CallEnv K}
    (halloc : env.alloc = true) {l' j : Nat} (hl' : l' ≤ top) (howed : owed l' j)
    (hpassed : Passed E l pos l' j) {pt ct : Bytes}
    (hseal : P.aeadEncrypt (E.messageKeyAt P sk l' j) zeroNonce pt
      (ad.bytes ++ encodeHeader (E.header P l' j)) = some ct) :
    ∃ t, ziaSessionDecrypt P env s (encodeHeader (E.header P l' j)) ct = .ok pt t ∧
      AtLevel P E sk ad l pos t ∧ CacheInv P E sk l pos t.skipped (without owed l' j) := by
  obtain ⟨hopen, hct⟩ := hP _ _ _ _ _ hseal
  obtain ⟨cache, htake, hcache⟩ := takeSkippedKey_of_passed hd hs hl hc hl' howed hpassed
  rw [← hs.messageAd_eq] at hopen
  have hok := decrypt_cached P env ct (length_encodeHeader (E.header P l' j)) hct
    (by rw [decodeHeader_encodeHeader]; exact htake)
  rw [openMessage_opens P halloc hopen] at hok
  exact ⟨_, hok, { hs with wellFormed := hs.wellFormed.of_decrypt_ok hok }, hcache⟩

/-- A message of the current chain gets to the receive chain without a DH step. -/
theorem reaches_current (hd : E.Drawn P top) (hs : AtLevel P E sk ad l pos s) (hl : l ≤ top)
    (hc : CacheInv P E sk l pos s.skipped owed) {l' j : Nat} (hlevel : l' + 1 = l) (hl' : 0 < l')
    (hpos : pos ≤ j) (hj : j < UInt32.size) {ct : Bytes} (hct : aeadABytes ≤ ct.length) :
    reachesRecvChain s (encodeHeader (E.header P l' j)) ct = true ∧
      opensNewChain s (E.header P l' j) = false ∧ storedBy s (E.header P l' j) = j - pos := by
  subst hlevel
  have hflag : s.hasRecvChain = true := by rw [hs.hasRecvChain]; simp; omega
  have hdhr : s.dhrPublic = P.x25519Base (E.key l') := hs.dhrPublic (by omega)
  have hnot : ¬ Passed E (l' + 1) pos l' j := by
    rintro (⟨_, hlt⟩ | ⟨hlt, _⟩) <;> omega
  have htake := takeSkippedKey_of_not_passed hd hs hl hc (by omega) hj hnot
  have hreplay : isReplay s (E.header P l' j) = false := by
    have hge : ¬ UInt32.ofNat j < s.nr := by
      rw [UInt32.lt_iff_toNat_lt, hs.nr, UInt32.toNat_ofNat_of_lt' hj,
        UInt32.toNat_ofNat_of_lt' (hs.pos_lt hd)]
      omega
    simp [isReplay, Epochs.header, hge]
  have hopens : opensNewChain s (E.header P l' j) = false := by
    simp [opensNewChain, hs.hasDhr, Epochs.header, hdhr]
  refine ⟨reachesRecvChain_iff.mpr ⟨length_encodeHeader _, hct, ?_, ?_⟩, hopens, ?_⟩
  · rw [decodeHeader_encodeHeader]
    exact htake
  · rw [decodeHeader_encodeHeader]
    exact hreplay
  · have htake' : takeSkippedKey s (E.header P l' j).dhPublic (E.header P l' j).n = none := htake
    simp only [storedBy, htake', hopens, hflag, if_true, Bool.false_eq_true, if_false]
    exact hs.gap_eq hd hj

/-- A message of the current chain opens, and what it jumps over goes to the cache. -/
theorem receive_current (hP : AeadCorrect P) (hd : E.Drawn P top)
    (hs : AtLevel P E sk ad l pos s) (hl : l ≤ top)
    (hc : CacheInv P E sk l pos s.skipped owed) {env : CallEnv K} (halloc : env.alloc = true)
    {l' j : Nat} (hlevel : l' + 1 = l) (hl' : 0 < l') (hpos : pos ≤ j) (hj : j < E.count l')
    (hcap : s.skipped.length + storedBy s (E.header P l' j) ≤ kMaxSkippedKeys) {pt ct : Bytes}
    (hseal : P.aeadEncrypt (E.messageKeyAt P sk l' j) zeroNonce pt
      (ad.bytes ++ encodeHeader (E.header P l' j)) = some ct) :
    ∃ t, ziaSessionDecrypt P env s (encodeHeader (E.header P l' j)) ct = .ok pt t ∧
      AtLevel P E sk ad l (j + 1) t ∧
      CacheInv P E sk l (j + 1) t.skipped (without owed l' j) := by
  have hj32 := Nat.lt_trans hj (hd.count_lt l')
  obtain ⟨hopen, hct⟩ := hP _ _ _ _ _ hseal
  obtain ⟨hreach, hopens, hstored⟩ := reaches_current hd hs hl hc hlevel hl' hpos hj32 hct
  rw [hstored] at hcap
  subst hlevel
  have hflag : s.hasRecvChain = true := by rw [hs.hasRecvChain]; simp; omega
  have hdhr : s.dhrPublic = P.x25519Base (E.key l') := hs.dhrPublic (by omega)
  have hck : s.recvChainKey = some (chainKeyAt P (E.chain P sk l') pos) := hs.recvKey (by omega)
  have hgapeq : gap s (UInt32.ofNat j) = j - pos := hs.gap_eq hd hj32
  have hrefused : gapRefused s (E.header P l' j).n = false := by
    have hle : gap s (E.header P l' j).n ≤ kMaxSkippedKeys := by
      rw [show (E.header P l' j).n = UInt32.ofNat j from rfl, hgapeq]
      omega
    simp [gapRefused, hle]
  have heq := decrypt_currentChain P env hs.wellFormed hreach
    (by rw [decodeHeader_encodeHeader]; exact hopens)
    (by rw [decodeHeader_encodeHeader]; exact hrefused) hflag hck
  rw [decodeHeader_encodeHeader, show (E.header P l' j).n = UInt32.ofNat j from rfl, hgapeq,
    chainKeyAt_add, Nat.add_sub_cancel' hpos, hs.messageAd_eq] at heq
  have hok := heq.trans (openMessage_opens P halloc hopen)
  -- The keys jumped over, behind those already cached.
  have hcacheEq : (skipBy P s (chainKeyAt P (E.chain P sk l') pos) (j - pos)).skipped =
      s.skipped ++ (List.range (j - pos)).map fun i => E.skippedKey P sk l' (pos + i) := by
    simp only [skipBy, hdhr, hs.nr, skippedRun_eq]
    exact pushAll_eq_append (by simpa using hcap)
  refine ⟨_, hok, ?_, ?_⟩
  · refine { hs with
      wellFormed := hs.wellFormed.of_decrypt_ok hok
      recvKey := fun _ => ?_
      nr := ?_
      nr_le := by rw [Nat.add_sub_cancel]; exact hj }
    · rw [Nat.add_sub_cancel, chainKeyAt_add, show pos + (j - pos + 1) = j + 1 by omega]
    · rw [hs.nr, ← UInt32.ofNat_add, Nat.add_sub_cancel' hpos, UInt32.ofNat_add]
      rfl
  · constructor
    · intro e he
      simp only [hcacheEq] at he
      rcases List.mem_append.mp he with he | he
      · obtain ⟨l₁, j₁, rfl, hpassed⟩ := hc.sound e he
        refine ⟨l₁, j₁, rfl, ?_⟩
        rcases hpassed with ⟨h₁, h₂⟩ | hrest
        · exact Or.inl ⟨h₁, by omega⟩
        · exact Or.inr hrest
      · obtain ⟨i, hi, rfl⟩ := List.mem_map.mp he
        have hi' := List.mem_range.mp hi
        exact ⟨l', pos + i, rfl, Or.inl ⟨rfl, by omega⟩⟩
    · rintro l₁ j₁ ⟨howed₁, hne⟩ hpassed₁
      simp only [hcacheEq]
      rcases hpassed₁ with ⟨h₁, h₂⟩ | hrest
      · by_cases hold : j₁ < pos
        · exact List.mem_append_left _ (hc.holds l₁ j₁ howed₁ (Or.inl ⟨h₁, hold⟩))
        · exact List.mem_append_right _ (mem_skippedRange (by omega) (by omega) (by omega))
      · exact List.mem_append_left _ (hc.holds l₁ j₁ howed₁ (Or.inr hrest))

/-- Closing a chain caches the rest of its messages. -/
theorem skippedTo_skipped (hd : E.Drawn P top) (hs : AtLevel P E sk ad l pos s)
    (hcap : s.skipped.length + (E.count (l - 1) - pos) ≤ kMaxSkippedKeys) :
    (skippedTo P s (UInt32.ofNat (E.count (l - 1)))).skipped =
      s.skipped ++ (List.range (E.count (l - 1) - pos)).map
        fun i => E.skippedKey P sk (l - 1) (pos + i) := by
  by_cases hl : 1 < l
  · have hflag : s.hasRecvChain = true := by rw [hs.hasRecvChain]; simpa using hl
    simp only [skippedTo, hs.recvKey hl, hflag, if_true, hs.gap_eq hd (hd.count_lt _), skipBy,
      hs.dhrPublic (Nat.zero_lt_of_lt hl), hs.nr, skippedRun_eq]
    exact pushAll_eq_append (by simpa using hcap)
  · have hflag : s.hasRecvChain = false := by rw [hs.hasRecvChain]; simpa using hl
    rw [show l - 1 = 0 by omega, hd.count_zero, Nat.zero_sub]
    unfold skippedTo
    split <;> simp [hflag]

/-- The levels once a new pair is drawn. -/
def Epochs.extend (E : Epochs K) (l : Nat) (k : K) : Epochs K :=
  { E with key := Function.update E.key l k }

theorem Epochs.extend_key_of_lt (E : Epochs K) {l i : Nat} (k : K) (h : i < l) :
    (E.extend l k).key i = E.key i := by
  simp [Epochs.extend, Nat.ne_of_lt h]

theorem newRecvChain_eq (hdh : DhAgreement P) (hs : AtLevel P E sk ad l pos s) (env : CallEnv K) :
    newRecvChain P env s (P.x25519Base (E.key (l + 1))) = E.chain P sk (l + 1) := by
  rw [newRecvChain, hs.rootKey, hs.dhsPrivate, scalarmult_sharedDh hdh, Option.getD_some,
    sharedDh_comm hdh]
  rfl

/-- The session after a DH step to the next level, whatever its receive chain. -/
theorem stepped_atLevel (hdh : DhAgreement P) (hs : AtLevel P E sk ad l pos s) (env : CallEnv K)
    (h : RatchetHeader) (hdhp : h.dhPublic = P.x25519Base (E.key (l + 1))) :
    (stepped P env s h).rootKey = (E.extend (l + 2) env.fresh).root P sk (l + 2) ∧
      (stepped P env s h).sendChainKey =
        some ((E.extend (l + 2) env.fresh).chain P sk (l + 2)) := by
  obtain ⟨ck, nr, cache, hframe⟩ := skippedTo_frame P s h.pn
  have hroot : (E.extend (l + 2) env.fresh).root P sk (l + 1) =
      nextRoot P s.rootKey (sharedDh P (E.key l) (E.key (l + 1))) := by
    rw [Epochs.root_congr (F := E) sk fun i hi => E.extend_key_of_lt _ (by omega), Epochs.root,
      hs.rootKey, sharedDh_comm hdh]
  have hkey : (E.extend (l + 2) env.fresh).key (l + 2) = env.fresh := by simp [Epochs.extend]
  have hkey' : (E.extend (l + 2) env.fresh).key (l + 1) = E.key (l + 1) :=
    E.extend_key_of_lt _ (by omega)
  constructor
  · rw [Epochs.root, hroot, hkey, hkey']
    simp only [stepped, hframe, dhRatchetStep, hdhp, hs.dhsPrivate, scalarmult_sharedDh hdh,
      Option.getD_some]
    rfl
  · rw [Epochs.chain, show l + 2 - 1 = l + 1 from rfl, hroot, hkey, hkey']
    simp only [stepped, hframe, dhRatchetStep, hdhp, hs.dhsPrivate, scalarmult_sharedDh hdh,
      Option.getD_some]
    rfl

/-- A message of the next level gets to the receive chain through a DH step. -/
theorem reaches_new (hd : E.Drawn P (l + 1)) (hs : AtLevel P E sk ad l pos s)
    (hc : CacheInv P E sk l pos s.skipped owed) {j : Nat} (hj : j < UInt32.size) {ct : Bytes}
    (hct : aeadABytes ≤ ct.length) :
    reachesRecvChain s (encodeHeader (E.header P (l + 1) j)) ct = true ∧
      opensNewChain s (E.header P (l + 1) j) = true ∧
      storedBy s (E.header P (l + 1) j) = (E.count (l - 1) - pos) + j := by
  have hne : 0 < l → s.dhrPublic ≠ P.x25519Base (E.key (l + 1)) := by
    intro hl heq
    rw [hs.dhrPublic hl] at heq
    have := hd.distinct _ _ (by omega) (Nat.le_refl _) heq
    omega
  have hnot : ¬ Passed E l pos (l + 1) j := by
    rintro (⟨h, _⟩ | ⟨h, _⟩) <;> omega
  have htake := takeSkippedKey_of_not_passed hd hs (Nat.le_succ l) hc (Nat.le_refl _) hj hnot
  have hreplay : isReplay s (E.header P (l + 1) j) = false := by
    by_cases hl : 1 < l
    · simp [isReplay, Epochs.header, hne (by omega)]
    · simp [isReplay, hs.hasRecvChain, hl]
  have hopens : opensNewChain s (E.header P (l + 1) j) = true := by
    by_cases hl : 0 < l
    · simp [opensNewChain, Epochs.header, hne hl]
    · simp [opensNewChain, hs.hasDhr, hl]
  refine ⟨reachesRecvChain_iff.mpr ⟨length_encodeHeader _, hct, ?_, ?_⟩, hopens, ?_⟩
  · rw [decodeHeader_encodeHeader]
    exact htake
  · rw [decodeHeader_encodeHeader]
    exact hreplay
  · have htake' : takeSkippedKey s (E.header P (l + 1) j).dhPublic (E.header P (l + 1) j).n = none :=
      htake
    have hgap : gap s (E.header P (l + 1) j).pn = E.count (l - 1) - pos :=
      hs.gap_eq hd (hd.count_lt _)
    have hn : (E.header P (l + 1) j).n.toNat = j := UInt32.toNat_ofNat_of_lt' hj
    simp only [storedBy, htake', hopens, if_true, hgap, hn]
    by_cases hl : 1 < l
    · simp [hs.hasRecvChain, hl]
    · rw [show l - 1 = 0 by omega, hd.count_zero]
      simp

/-- The first message seen of the next level steps the ratchet, closes the old
chain and opens on the new one. -/
theorem receive_new (hP : AeadCorrect P) (hdh : DhAgreement P) (hd : E.Drawn P (l + 1))
    (hs : AtLevel P E sk ad l pos s) (hc : CacheInv P E sk l pos s.skipped owed)
    (hparity : ∀ l' j, owed l' j → l' % 2 ≠ l % 2) {env : CallEnv K} (halloc : env.alloc = true)
    {j : Nat} (hj : j < E.count (l + 1))
    (hcap : s.skipped.length + storedBy s (E.header P (l + 1) j) ≤ kMaxSkippedKeys)
    {pt ct : Bytes}
    (hseal : P.aeadEncrypt (E.messageKeyAt P sk (l + 1) j) zeroNonce pt
      (ad.bytes ++ encodeHeader (E.header P (l + 1) j)) = some ct) :
    ∃ t, ziaSessionDecrypt P env s (encodeHeader (E.header P (l + 1) j)) ct = .ok pt t ∧
      AtLevel P (E.extend (l + 2) env.fresh) sk ad (l + 2) (j + 1) t ∧
      CacheInv P (E.extend (l + 2) env.fresh) sk (l + 2) (j + 1) t.skipped
        (without owed (l + 1) j) := by
  have hj32 := Nat.lt_trans hj (hd.count_lt _)
  obtain ⟨hopen, hct⟩ := hP _ _ _ _ _ hseal
  obtain ⟨hreach, hopens, hstored⟩ := reaches_new hd hs hc hj32 hct
  rw [hstored] at hcap
  have hpn : (E.header P (l + 1) j).pn = UInt32.ofNat (E.count (l - 1)) := rfl
  have hn : (E.header P (l + 1) j).n.toNat = j := UInt32.toNat_ofNat_of_lt' hj32
  have hrefused : gapRefused s (E.header P (l + 1) j).pn = false := by
    have hle : gap s (UInt32.ofNat (E.count (l - 1))) ≤ kMaxSkippedKeys := by
      rw [hs.gap_eq hd (hd.count_lt _)]
      omega
    simp [gapRefused, hpn, hle]
  have hchain : newRecvChain P env s (E.header P (l + 1) j).dhPublic = E.chain P sk (l + 1) :=
    newRecvChain_eq hdh hs env
  have heq := decrypt_newChain P env hs.wellFormed hreach
    (by rw [decodeHeader_encodeHeader]; exact hopens)
    (by rw [decodeHeader_encodeHeader]; exact hrefused)
    (by rw [decodeHeader_encodeHeader, hn]; omega)
  rw [decodeHeader_encodeHeader, hn, hchain, hs.messageAd_eq] at heq
  have hok := heq.trans (openMessage_opens P halloc hopen)
  obtain ⟨hroot, hsend⟩ := stepped_atLevel hdh hs env (E.header P (l + 1) j) rfl
  obtain ⟨ck, nr, cache, hframe⟩ := skippedTo_frame P s (E.header P (l + 1) j).pn
  have hold : ∀ i, i < l + 2 → (E.extend (l + 2) env.fresh).key i = E.key i :=
    fun i hi => E.extend_key_of_lt _ hi
  -- The cache: what was there, the rest of the old chain, the start of the new one.
  have hcacheEq : (onNewChain P env s (E.header P (l + 1) j)).skipped =
      (s.skipped ++ (List.range (E.count (l - 1) - pos)).map
        fun i => E.skippedKey P sk (l - 1) (pos + i)) ++
      (List.range j).map fun i => E.skippedKey P sk (l + 1) (0 + i) := by
    have hclosed := skippedTo_skipped hd hs (by omega)
    simp only [onNewChain, skipBy, hn, hchain]
    rw [show (stepped P env s (E.header P (l + 1) j)).skipped =
      (skippedTo P s (UInt32.ofNat (E.count (l - 1)))).skipped from rfl, hclosed]
    have hrun := skippedRun_eq (P := P) E sk (l + 1) 0 j
    rw [chainKeyAt_zero] at hrun
    rw [show (stepped P env s (E.header P (l + 1) j)).dhrPublic = P.x25519Base (E.key (l + 1))
      from rfl, show (stepped P env s (E.header P (l + 1) j)).nr = UInt32.ofNat 0 from rfl, hrun]
    refine pushAll_eq_append ?_
    simp only [List.length_append, List.length_map, List.length_range]
    omega
  have hkeep : ∀ i j', i < l + 2 → (E.extend (l + 2) env.fresh).skippedKey P sk i j' =
      E.skippedKey P sk i j' :=
    fun i j' hi => Epochs.skippedKey_congr sk (fun m hm => hold m (by omega)) j'
  refine ⟨_, hok, ?_, ?_⟩
  · constructor
    case wellFormed => exact hs.wellFormed.of_decrypt_ok hok
    case ad => simpa [onNewChain, skipBy, stepped, hframe, dhRatchetStep] using hs.ad
    case dhsPrivate => simp [onNewChain, skipBy, stepped, dhRatchetStep, Epochs.extend]
    case dhsPublic => simp [onNewChain, skipBy, stepped, dhRatchetStep, Epochs.extend]
    case rootKey => exact hroot
    case hasDhr => simp [onNewChain, skipBy, stepped, dhRatchetStep]
    case dhrPublic =>
      intro _
      rw [show l + 2 - 1 = l + 1 from rfl, hold (l + 1) (by omega)]
      rfl
    case sendKey =>
      intro _
      rw [show (E.extend (l + 2) env.fresh).count (l + 2) = 0 from
        hd.count_future _ (by omega), chainKeyAt_zero]
      exact hsend
    case hasRecvChain => simp [onNewChain, skipBy, stepped, dhRatchetStep]
    case recvKey =>
      intro _
      rw [show l + 2 - 1 = l + 1 from rfl,
        Epochs.chain_congr (F := E) sk fun i hi => hold i (by omega)]
    case ns =>
      rw [show (E.extend (l + 2) env.fresh).count (l + 2) = 0 from hd.count_future _ (by omega)]
      rfl
    case nr =>
      simp only [onNewChain, skipBy, hn, UInt32.ofNat_add]
      rw [show (stepped P env s (E.header P (l + 1) j)).nr = 0 from rfl, UInt32.zero_add]
      rfl
    case pn =>
      simp only [onNewChain, skipBy, stepped, hframe, dhRatchetStep]
      exact hs.ns
    case nr_le => exact hj
  · constructor
    · intro e he
      simp only [hcacheEq, List.mem_append] at he
      rcases he with (he | he) | he
      · obtain ⟨l₁, j₁, rfl, hpassed⟩ := hc.sound e he
        have hlevel := hpassed.level_lt
        refine ⟨l₁, j₁, (hkeep l₁ j₁ (by omega)).symm, Or.inr ⟨by omega, ?_⟩⟩
        rcases hpassed with ⟨rfl, hlt⟩ | ⟨_, hlt⟩
        · exact Nat.lt_of_lt_of_le hlt hs.nr_le
        · exact hlt
      · obtain ⟨i, hi, rfl⟩ := List.mem_map.mp he
        have hi' := List.mem_range.mp hi
        refine ⟨l - 1, pos + i, (hkeep _ _ (by omega)).symm, Or.inr ⟨by omega, ?_⟩⟩
        change pos + i < E.count (l - 1)
        omega
      · obtain ⟨i, hi, rfl⟩ := List.mem_map.mp he
        have hi' := List.mem_range.mp hi
        exact ⟨l + 1, 0 + i, (hkeep _ _ (by omega)).symm, Or.inl ⟨rfl, by omega⟩⟩
    · rintro l₁ j₁ ⟨howed, hother⟩ hpassed
      have hlevel := hpassed.level_lt
      rw [hkeep l₁ j₁ hlevel]
      simp only [hcacheEq, List.mem_append]
      rcases hpassed with ⟨h₁, h₂⟩ | ⟨h₁, h₂⟩
      · refine Or.inr (mem_skippedRange (by omega) (Nat.zero_le _) ?_)
        have : j₁ ≠ j := hother.resolve_left (fun h => h (by omega))
        omega
      · have hpar := hparity l₁ j₁ howed
        by_cases hlast : l₁ + 1 = l
        · by_cases hbefore : j₁ < pos
          · exact Or.inl (Or.inl (hc.holds l₁ j₁ howed (Or.inl ⟨hlast, hbefore⟩)))
          · refine Or.inl (Or.inr (mem_skippedRange (by omega) (by omega) ?_))
            have h₂' : j₁ < E.count (l - 1) := by
              rw [show l - 1 = l₁ by omega]
              exact h₂
            omega
        · have hfar : l₁ + 1 < l := by
            rcases Nat.lt_trichotomy (l₁ + 1) l with h | h | h
            · exact h
            · exact absurd h hlast
            · have : l₁ = l := by omega
              exact absurd (congrArg (· % 2) this) hpar
          exact Or.inl (Or.inl (hc.holds l₁ j₁ howed (Or.inr ⟨hfar, h₂⟩)))

/-! ## Levels that move on -/

theorem CacheInv.mono {owed' : Nat → Nat → Prop} {cache : List (ZiaSkippedKey K)}
    (hc : CacheInv P E sk l pos cache owed) (h : ∀ l' j, owed' l' j → owed l' j) :
    CacheInv P E sk l pos cache owed' :=
  ⟨hc.sound, fun l' j howed hpassed => hc.holds l' j (h l' j howed) hpassed⟩

/-- The levels once the owner of level `l` sent one more message. -/
def Epochs.bump (E : Epochs K) (l : Nat) : Epochs K :=
  { E with count := Function.update E.count l (E.count l + 1) }

theorem Epochs.bump_count_of_ne (E : Epochs K) {l i : Nat} (h : i ≠ l) :
    (E.bump l).count i = E.count i := by
  simp [Epochs.bump, h]

theorem Epochs.bump_count_self (E : Epochs K) (l : Nat) :
    (E.bump l).count l = E.count l + 1 := by
  simp [Epochs.bump]

theorem Epochs.le_bump_count (E : Epochs K) (l i : Nat) : E.count i ≤ (E.bump l).count i := by
  by_cases h : i = l
  · rw [h, E.bump_count_self]
    exact Nat.le_succ _
  · exact Nat.le_of_eq (E.bump_count_of_ne h).symm

theorem Epochs.bump_root (E : Epochs K) (l i : Nat) :
    (E.bump l).root P sk i = E.root P sk i :=
  Epochs.root_congr (E := E.bump l) (F := E) sk fun _ _ => rfl

theorem Epochs.bump_chain (E : Epochs K) (l i : Nat) :
    (E.bump l).chain P sk i = E.chain P sk i :=
  Epochs.chain_congr (E := E.bump l) (F := E) sk fun _ _ => rfl

theorem Epochs.bump_skippedKey (E : Epochs K) (l i j : Nat) :
    (E.bump l).skippedKey P sk i j = E.skippedKey P sk i j :=
  Epochs.skippedKey_congr (E := E.bump l) (F := E) sk (fun _ _ => rfl) j

theorem Epochs.Drawn.extend (hd : E.Drawn P top) {k : K}
    (hk : ∀ i, i ≤ top → P.x25519Base (E.key i) ≠ P.x25519Base k) :
    (E.extend (top + 1) k).Drawn P (top + 1) := by
  have hkey : (E.extend (top + 1) k).key (top + 1) = k := by simp [Epochs.extend]
  refine ⟨fun i j hi hj heq => ?_, hd.count_zero, fun i hi => hd.count_future i (by omega),
    hd.count_lt⟩
  rcases Nat.lt_or_eq_of_le hi with hi' | rfl <;> rcases Nat.lt_or_eq_of_le hj with hj' | rfl
  · rw [E.extend_key_of_lt k hi', E.extend_key_of_lt k hj'] at heq
    exact hd.distinct i j (by omega) (by omega) heq
  · rw [E.extend_key_of_lt k hi', hkey] at heq
    exact absurd heq (hk i (by omega))
  · rw [hkey, E.extend_key_of_lt k hj'] at heq
    exact absurd heq.symm (hk j (by omega))
  · rfl

theorem Epochs.Drawn.bump (hd : E.Drawn P top) (h0 : 0 < l) (hl : l ≤ top)
    (hlt : E.count l + 1 < UInt32.size) : (E.bump l).Drawn P top := by
  refine ⟨hd.distinct, ?_, fun i hi => ?_, fun i => ?_⟩
  · rw [E.bump_count_of_ne (by omega)]
    exact hd.count_zero
  · rw [E.bump_count_of_ne (by omega)]
    exact hd.count_future i hi
  · by_cases hi : i = l
    · rw [hi, E.bump_count_self]
      exact hlt
    · rw [E.bump_count_of_ne hi]
      exact hd.count_lt i

/-- A pair drawn for a later level changes nothing for a session below it. -/
theorem AtLevel.extend (hs : AtLevel P E sk ad l pos s) {l' : Nat} (k : K) (hl : l < l') :
    AtLevel P (E.extend l' k) sk ad l pos s := by
  have hold : ∀ i, i ≤ l → (E.extend l' k).key i = E.key i :=
    fun i hi => E.extend_key_of_lt k (by omega)
  have hchain : ∀ i, i ≤ l → (E.extend l' k).chain P sk i = E.chain P sk i :=
    fun i hi => Epochs.chain_congr sk fun m hm => hold m (by omega)
  refine { hs with
    dhsPrivate := by rw [hold l (Nat.le_refl l)]; exact hs.dhsPrivate
    dhsPublic := by rw [hold l (Nat.le_refl l)]; exact hs.dhsPublic
    rootKey := by rw [Epochs.root_congr (F := E) sk hold]; exact hs.rootKey
    dhrPublic := fun h => by rw [hold (l - 1) (Nat.sub_le l 1)]; exact hs.dhrPublic h
    sendKey := fun h => by rw [hchain l (Nat.le_refl l)]; exact hs.sendKey h
    recvKey := fun h => by rw [hchain (l - 1) (Nat.sub_le l 1)]; exact hs.recvKey h }

theorem CacheInv.extend {cache : List (ZiaSkippedKey K)} (hc : CacheInv P E sk l pos cache owed)
    {l' : Nat} (k : K) (hl : l < l') : CacheInv P (E.extend l' k) sk l pos cache owed := by
  have hkeep : ∀ i j, i < l → (E.extend l' k).skippedKey P sk i j = E.skippedKey P sk i j :=
    fun i j hi => Epochs.skippedKey_congr sk (fun m hm => E.extend_key_of_lt k (by omega)) j
  constructor
  · intro e he
    obtain ⟨i, j, rfl, hpassed⟩ := hc.sound e he
    have hlevel : i < l := Passed.level_lt hpassed
    exact ⟨i, j, (hkeep i j hlevel).symm, hpassed⟩
  · intro i j howed hpassed
    have hlevel : i < l := Passed.level_lt hpassed
    rw [hkeep i j hlevel]
    exact hc.holds i j howed hpassed

/-- A session does not depend on the counts of the other party's last level. -/
theorem AtLevel.bump (hs : AtLevel P E sk ad l pos s) {l' : Nat} (hl' : 0 < l') (hne : l' ≠ l)
    (hle : l ≤ l' + 1) : AtLevel P (E.bump l') sk ad l pos s := by
  refine { hs with
    rootKey := by rw [E.bump_root]; exact hs.rootKey
    sendKey := fun h => by
      rw [E.bump_chain, E.bump_count_of_ne hne.symm]
      exact hs.sendKey h
    recvKey := fun h => by rw [E.bump_chain]; exact hs.recvKey h
    ns := by rw [E.bump_count_of_ne hne.symm]; exact hs.ns
    pn := by rw [E.bump_count_of_ne (by omega)]; exact hs.pn
    nr_le := Nat.le_trans hs.nr_le (E.le_bump_count l' (l - 1)) }

theorem passed_bump {l' i j : Nat} (hle : l ≤ l' + 1) :
    Passed (E.bump l') l pos i j ↔ Passed E l pos i j := by
  constructor <;> rintro (h | ⟨h₁, h₂⟩)
  · exact Or.inl h
  · exact Or.inr ⟨h₁, by rwa [E.bump_count_of_ne (by omega)] at h₂⟩
  · exact Or.inl h
  · exact Or.inr ⟨h₁, by rwa [E.bump_count_of_ne (by omega)]⟩

theorem CacheInv.bump {cache : List (ZiaSkippedKey K)} (hc : CacheInv P E sk l pos cache owed)
    {l' : Nat} (hle : l ≤ l' + 1) : CacheInv P (E.bump l') sk l pos cache owed := by
  constructor
  · intro e he
    obtain ⟨i, j, rfl, hpassed⟩ := hc.sound e he
    exact ⟨i, j, (E.bump_skippedKey l' i j).symm, (passed_bump hle).mpr hpassed⟩
  · intro i j howed hpassed
    rw [E.bump_skippedKey]
    exact hc.holds i j howed ((passed_bump hle).mp hpassed)

/-- An encryption that succeeds sends the next message of the sender's level. -/
theorem send_atLevel (hs : AtLevel P E sk ad l pos s) {env : CallEnv K} {pt : Bytes}
    {m : EncryptedMessage} {t : ZiaSession K} (h : ziaSessionEncrypt P env s pt = .ok m t) :
    0 < l ∧ m.header = encodeHeader (E.header P l (E.count l)) ∧
      P.aeadEncrypt (E.messageKeyAt P sk l (E.count l)) zeroNonce pt
        (ad.bytes ++ m.header) = some m.ciphertext ∧
      AtLevel P (E.bump l) sk ad l pos t ∧ t.skipped = s.skipped := by
  have hwf : WellFormed t := hs.wellFormed.moves
    (encrypt_silent P env s pt t (by rw [h]; rfl))
  obtain ⟨ck, hflag, hck, hheader, hseal, rfl⟩ := encrypt_ok_cases P h
  have hl : 0 < l := by
    rw [hs.wellFormed.sendDhr, hs.hasDhr] at hflag
    simpa using hflag
  have hckEq := Option.some.inj (hck.symm.trans (hs.sendKey hl))
  have hheader' : m.header = encodeHeader (E.header P l (E.count l)) := by
    rw [hheader, sendHeader, Epochs.header, hs.pn, hs.ns, hs.dhsPublic]
  rw [← hheader, hs.messageAd_eq, hckEq] at hseal
  refine ⟨hl, hheader', hseal, ?_, rfl⟩
  refine { hs with
    wellFormed := hwf
    rootKey := by rw [E.bump_root]; exact hs.rootKey
    sendKey := fun _ => ?_
    recvKey := fun h => by rw [E.bump_chain]; exact hs.recvKey h
    ns := ?_
    pn := by rw [E.bump_count_of_ne (by omega)]; exact hs.pn
    nr_le := Nat.le_trans hs.nr_le (E.le_bump_count l (l - 1)) }
  · rw [hckEq, nextChainKey_chainKeyAt, E.bump_chain, E.bump_count_self]
  · rw [E.bump_count_self, UInt32.ofNat_add, hs.ns]
    rfl

end Receiver

end ZiaCrypte.Engine
