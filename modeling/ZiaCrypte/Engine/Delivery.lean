import ZiaCrypte.Engine.Epochs
import ZiaCrypte.Engine.Symbolic

/-!
# Two parties over an unreliable network

Both sessions of one handshake send in any interleaving. The network holds the
packets in flight and delivers each at most once, in any order, or loses it. The
invariant places each session at its level and each packet at its position, and
the two levels are neighbours.
-/
namespace ZiaCrypte.Engine

open ZiaCrypte.Lib

variable {K : Type} (P : Primitives K)

inductive Party where
  | alice
  | bob
  deriving DecidableEq

def Party.other : Party → Party
  | .alice => .bob
  | .bob => .alice

/-- The initiator owns the odd levels. -/
def Party.parity : Party → Nat
  | .alice => 1
  | .bob => 0

/-- A packet, with the plaintext its sender gave to `zia_session_encrypt`. -/
structure Packet where
  sender : Party
  header : Bytes
  ciphertext : Bytes
  plaintext : Bytes

structure Exchange (K : Type) where
  session : Party → ZiaSession K
  flight : List Packet
  /-- The public halves of the ratchet pairs drawn so far. -/
  drawn : List PublicKey

inductive ExchangeEvent (K : Type) where
  | send (who : Party) (env : CallEnv K) (plaintext : Bytes)
  | deliver (i : Nat) (env : CallEnv K)
  | lose (i : Nat)

namespace Exchange

/-- Both sides of one handshake: the signed prekey and the initiator's first pair. -/
def start (env : CallEnv K) (ad : FixedBytes 64) (sk signedPrekey : K) : Exchange K where
  session
    | .alice => initAsInitiator P env ad sk (P.x25519Base signedPrekey)
    | .bob => initAsResponder ad sk (P.x25519Base signedPrekey) signedPrekey
  flight := []
  drawn := [P.x25519Base signedPrekey, P.x25519Base env.fresh]

def setSession (x : Exchange K) (who : Party) (s : ZiaSession K) : Exchange K :=
  { x with session := Function.update x.session who s }

/-- The delivery makes its receiver draw a new pair. -/
def drawsPair (s : ZiaSession K) (p : Packet) : Bool :=
  reachesRecvChain s p.header p.ciphertext && opensNewChain s (decodeHeader p.header)

def step : ExchangeEvent K → Exchange K → Option (Exchange K)
  | .send who env plaintext, x =>
      match ziaSessionEncrypt P env (x.session who) plaintext with
      | .ok m t => some { x.setSession who t with
          flight := x.flight ++ [⟨who, m.header, m.ciphertext, plaintext⟩] }
      | .error _ t => some (x.setSession who t)
      | .fault => none
  | .deliver i env, x =>
      match x.flight[i]? with
      | none => some x
      | some p =>
          let s := x.session p.sender.other
          (ziaSessionDecrypt P env s p.header p.ciphertext).session?.map fun t =>
            { x.setSession p.sender.other t with
              flight := x.flight.eraseIdx i
              drawn := if drawsPair s p then x.drawn ++ [P.x25519Base env.fresh] else x.drawn }
  | .lose i, x => some { x with flight := x.flight.eraseIdx i }

/-- The assumptions on one event: fewer than 2^32 messages on a chain; at a
delivery, memory, a pair not drawn before, and a cache that never has to hold
more than `kMaxSkippedKeys` keys. -/
def Fair : ExchangeEvent K → Exchange K → Prop
  | .send who _ _, x => (x.session who).ns.toNat + 1 < UInt32.size
  | .deliver i env, x => ∀ p, x.flight[i]? = some p →
      let s := x.session p.sender.other
      env.alloc = true ∧
        (drawsPair s p = true → P.x25519Base env.fresh ∉ x.drawn) ∧
        s.skipped.length + storedBy s (decodeHeader p.header) ≤ kMaxSkippedKeys
  | .lose _, _ => True

/-- A delivery returns `ZIA_OK` and the plaintext that was sent. -/
def Delivers : ExchangeEvent K → Exchange K → Prop
  | .deliver i env, x => ∀ p, x.flight[i]? = some p →
      ∃ t, ziaSessionDecrypt P env (x.session p.sender.other) p.header p.ciphertext =
        .ok p.plaintext t
  | _, _ => True

end Exchange

/-! ## The invariant -/

/-- The packet is message `j` of level `l`. -/
structure AtPosition (E : Epochs K) (sk : K) (ad : FixedBytes 64) (level : Party → Nat)
    (p : Packet) (l j : Nat) : Prop where
  pos : 0 < l
  le : l ≤ level p.sender
  parity : l % 2 = p.sender.parity
  sent : j < E.count l
  header : p.header = encodeHeader (E.header P l j)
  sealed : P.aeadEncrypt (E.messageKeyAt P sk l j) zeroNonce p.plaintext
    (ad.bytes ++ p.header) = some p.ciphertext

/-- The messages in flight to `who`. -/
def Owed (E : Epochs K) (sk : K) (ad : FixedBytes 64) (level : Party → Nat)
    (flight : List Packet) (who : Party) (l j : Nat) : Prop :=
  ∃ p ∈ flight, p.sender = who.other ∧ AtPosition P E sk ad level p l j

def topLevel (level : Party → Nat) : Nat := max (level .alice) (level .bob)

structure ExchangeInv (E : Epochs K) (sk : K) (ad : FixedBytes 64) (level pos : Party → Nat)
    (x : Exchange K) : Prop where
  parity : ∀ who, level who % 2 = who.parity
  near : ∀ who, level who ≤ level who.other + 1
  levels : E.Drawn P (topLevel level)
  drawn : ∀ i, i ≤ topLevel level → P.x25519Base (E.key i) ∈ x.drawn
  sessions : ∀ who, AtLevel P E sk ad (level who) (pos who) (x.session who)
  caches : ∀ who, CacheInv P E sk (level who) (pos who) (x.session who).skipped
    (Owed P E sk ad level x.flight who)
  flight : ∀ p ∈ x.flight, ∃ l j, AtPosition P E sk ad level p l j
  headers : (x.flight.map (·.header)).Nodup

variable {P}

@[simp] theorem Party.other_other (who : Party) : who.other.other = who := by
  cases who <;> rfl

theorem Party.other_ne (who : Party) : who.other ≠ who := by
  cases who <;> decide

theorem Party.eq_or_eq_other (who w : Party) : w = who ∨ w = who.other := by
  cases who <;> cases w <;> decide

theorem Party.parity_other (who : Party) : who.other.parity + who.parity = 1 := by
  cases who <;> rfl

theorem level_le_top (level : Party → Nat) (who : Party) : level who ≤ topLevel level := by
  cases who
  · exact Nat.le_max_left _ _
  · exact Nat.le_max_right _ _

theorem topLevel_eq (level : Party → Nat) (who : Party) :
    topLevel level = max (level who) (level who.other) := by
  cases who
  · rfl
  · exact Nat.max_comm _ _

section Invariant

variable {E : Epochs K} {sk : K} {ad : FixedBytes 64} {level pos : Party → Nat} {x : Exchange K}

/-- The levels of a new handshake. -/
def startEpochs (signedPrekey fresh : K) : Epochs K where
  key i := if i = 0 then signedPrekey else fresh
  count _ := 0

theorem exchangeInv_start (hdh : DhAgreement P) (env : CallEnv K) (ad : FixedBytes 64)
    (sk signedPrekey : K) (hne : P.x25519Base env.fresh ≠ P.x25519Base signedPrekey) :
    ExchangeInv P (startEpochs signedPrekey env.fresh) sk ad Party.parity (fun _ => 0)
      (Exchange.start P env ad sk signedPrekey) := by
  have htop : topLevel Party.parity = 1 := rfl
  have hinit := scalarmult_sharedDh hdh env.fresh signedPrekey
  constructor
  case parity => intro who; cases who <;> rfl
  case near => intro who; cases who <;> decide
  case levels =>
    rw [htop]
    refine ⟨fun i j hi hj heq => ?_, rfl, fun _ _ => rfl, fun _ => Nat.zero_lt_succ _⟩
    simp only [startEpochs] at heq
    rcases Nat.le_one_iff_eq_zero_or_eq_one.mp hi with rfl | rfl <;>
      rcases Nat.le_one_iff_eq_zero_or_eq_one.mp hj with rfl | rfl
    · rfl
    · exact absurd heq.symm hne
    · exact absurd heq hne
    · rfl
  case drawn =>
    intro i hi
    rw [htop] at hi
    rcases Nat.le_one_iff_eq_zero_or_eq_one.mp hi with rfl | rfl <;>
      simp [startEpochs, Exchange.start]
  case sessions =>
    intro who
    cases who with
    | alice =>
      have hwf := wellFormed_start P (.initiator env ad sk (P.x25519Base signedPrekey))
      constructor <;>
        simp [Exchange.start, initAsInitiator, startEpochs, Party.parity, hinit, Epochs.root,
          Epochs.chain, nextRoot, chainOf]
      simpa [SessionStart.session, initAsInitiator, hinit] using hwf
    | bob =>
      have hwf := wellFormed_start P (.responder ad sk (P.x25519Base signedPrekey) signedPrekey)
      constructor <;>
        simp [Exchange.start, initAsResponder, startEpochs, Party.parity, Epochs.root]
      exact hwf
  case caches =>
    intro who
    have hnil : ((Exchange.start P env ad sk signedPrekey).session who).skipped = [] := by
      cases who <;> rfl
    refine ⟨by simp [hnil], ?_⟩
    rintro l j ⟨p, hp, _⟩
    cases hp
  case flight =>
    intro p hp
    cases hp
  case headers => exact List.nodup_nil

/-! ## Packets that leave the network -/

theorem Owed.mono {flight flight' : List Packet} {who : Party} {l j : Nat}
    (hsub : ∀ p ∈ flight', p ∈ flight) (h : Owed P E sk ad level flight' who l j) :
    Owed P E sk ad level flight who l j := by
  obtain ⟨p, hp, hrest⟩ := h
  exact ⟨p, hsub p hp, hrest⟩

/-- Once a packet is taken out, its message is not in flight any more. -/
theorem owed_eraseIdx {i : Nat} {p : Packet} {who : Party} {l j : Nat}
    (hi : x.flight[i]? = some p) (hnodup : (x.flight.map (·.header)).Nodup)
    (hp : AtPosition P E sk ad level p l j) :
    ∀ l' j', Owed P E sk ad level (x.flight.eraseIdx i) who l' j' →
      without (Owed P E sk ad level x.flight who) l j l' j' := by
  rintro l' j' ⟨q, hq, hsender, hpos⟩
  refine ⟨⟨q, List.mem_of_mem_eraseIdx hq, hsender, hpos⟩, ?_⟩
  by_contra hsame
  simp only [not_or, not_not] at hsame
  obtain ⟨rfl, rfl⟩ := hsame
  obtain ⟨k, hki, hk⟩ := List.mem_eraseIdx_iff_getElem?.mp hq
  have hheaders : (x.flight.map (·.header))[k]? = (x.flight.map (·.header))[i]? := by
    rw [List.getElem?_map, List.getElem?_map, hk, hi, Option.map_some, Option.map_some,
      hpos.header, hp.header]
  have hlt : k < (x.flight.map (·.header)).length := by
    rw [List.length_map]
    exact (List.getElem?_eq_some_iff.mp hk).1
  exact hki ((List.getElem?_inj hlt hnodup).mp hheaders)

/-- Taking a packet out keeps everything that is said about the others. -/
theorem ExchangeInv.erase (h : ExchangeInv P E sk ad level pos x) (i : Nat) :
    ExchangeInv P E sk ad level pos { x with flight := x.flight.eraseIdx i } := by
  refine { h with
    caches := fun who => (h.caches who).mono fun l j => Owed.mono fun p hp => List.mem_of_mem_eraseIdx hp
    flight := fun p hp => h.flight p (List.mem_of_mem_eraseIdx hp)
    headers := ?_ }
  exact h.headers.sublist ((List.eraseIdx_sublist _ i).map _)

/-- The receiver's session and cache move on within its level. -/
theorem ExchangeInv.receive (h : ExchangeInv P E sk ad level pos x) {i n : Nat} {p : Packet}
    {t : ZiaSession K} {l j : Nat} (drawn : List PublicKey) (hdrawn : ∀ k ∈ x.drawn, k ∈ drawn)
    (hi : x.flight[i]? = some p) (hp : AtPosition P E sk ad level p l j)
    (hs : AtLevel P E sk ad (level p.sender.other) n t)
    (hc : CacheInv P E sk (level p.sender.other) n t.skipped
      (without (Owed P E sk ad level x.flight p.sender.other) l j)) :
    ExchangeInv P E sk ad level (Function.update pos p.sender.other n)
      { x.setSession p.sender.other t with flight := x.flight.eraseIdx i, drawn := drawn } := by
  refine { h.erase i with
    drawn := fun k hk => hdrawn _ (h.drawn k hk)
    sessions := fun who => ?_
    caches := fun who => ?_ }
  · rcases Party.eq_or_eq_other p.sender.other who with rfl | rfl
    · simpa [Exchange.setSession] using hs
    · simpa [Exchange.setSession, Party.other_ne p.sender |>.symm] using h.sessions p.sender
  · rcases Party.eq_or_eq_other p.sender.other who with rfl | rfl
    · simpa [Exchange.setSession] using hc.mono (owed_eraseIdx hi h.headers hp)
    · simpa [Exchange.setSession, Party.other_ne p.sender |>.symm] using
        (h.erase i).caches p.sender

/-! ## A new level -/

theorem atPosition_extend_iff {who : Party} {k : K} {p : Packet} {l j : Nat}
    (hparity : level who % 2 = who.parity) (hother : level who.other = level who + 1)
    (hcount : E.count (level who + 2) = 0) :
    AtPosition P (E.extend (level who + 2) k) sk ad (Function.update level who (level who + 2))
        p l j ↔ AtPosition P E sk ad level p l j := by
  have hle : ∀ q : Party, level q ≤ level who + 1 := by
    intro q
    rcases Party.eq_or_eq_other who q with rfl | rfl <;> omega
  have hsame : l ≤ level who + 1 →
      (E.extend (level who + 2) k).header P l j = E.header P l j ∧
      (E.extend (level who + 2) k).messageKeyAt P sk l j = E.messageKeyAt P sk l j := by
    intro hl
    have hold : ∀ i, i ≤ l → (E.extend (level who + 2) k).key i = E.key i :=
      fun i hi => E.extend_key_of_lt k (by omega)
    refine ⟨?_, ?_⟩
    · rw [Epochs.header, Epochs.header, hold l (Nat.le_refl l)]
      rfl
    · rw [Epochs.messageKeyAt, Epochs.messageKeyAt, Epochs.chain_congr sk hold]
  constructor
  · intro h
    have hl : l ≤ level p.sender := by
      have hle' := h.le
      rcases Party.eq_or_eq_other who p.sender with heq | heq
      · -- Nothing was sent on the level just drawn, and the one below is not the receiver's.
        rw [heq, Function.update_self] at hle'
        have hne : l ≠ level who + 2 := by
          rintro rfl
          have hsent := h.sent
          rw [show (E.extend (level who + 2) k).count (level who + 2) = 0 from hcount] at hsent
          exact Nat.not_lt_zero _ hsent
        have hpar := h.parity
        rw [heq, ← hparity] at hpar
        rw [heq]
        omega
      · rwa [heq, Function.update_of_ne (Party.other_ne who), ← heq] at hle'
    obtain ⟨hheader, hkey⟩ := hsame (Nat.le_trans hl (hle _))
    exact ⟨h.pos, hl, h.parity, h.sent, hheader ▸ h.header, hkey ▸ h.sealed⟩
  · intro h
    obtain ⟨hheader, hkey⟩ := hsame (Nat.le_trans h.le (hle _))
    refine ⟨h.pos, ?_, h.parity, h.sent, hheader ▸ h.header, hkey ▸ h.sealed⟩
    have hle' := h.le
    rcases Party.eq_or_eq_other who p.sender with heq | heq
    · rw [heq, Function.update_self]
      rw [heq] at hle'
      omega
    · rwa [heq, Function.update_of_ne (Party.other_ne who), ← heq]

/-- The receiver draws the next level and moves to it. -/
theorem ExchangeInv.ratchet (h : ExchangeInv P E sk ad level pos x) {i n : Nat} {p : Packet}
    {t : ZiaSession K} {l j : Nat} (k : K) (hi : x.flight[i]? = some p)
    (hp : AtPosition P E sk ad level p l j)
    (hother : level p.sender = level p.sender.other + 1) (hk : P.x25519Base k ∉ x.drawn)
    (hs : AtLevel P (E.extend (level p.sender.other + 2) k) sk ad (level p.sender.other + 2) n t)
    (hc : CacheInv P (E.extend (level p.sender.other + 2) k) sk (level p.sender.other + 2) n
      t.skipped (without (Owed P E sk ad level x.flight p.sender.other) l j)) :
    ExchangeInv P (E.extend (level p.sender.other + 2) k) sk ad
      (Function.update level p.sender.other (level p.sender.other + 2))
      (Function.update pos p.sender.other n)
      { x.setSession p.sender.other t with
        flight := x.flight.eraseIdx i, drawn := x.drawn ++ [P.x25519Base k] } := by
  generalize hw : p.sender.other = who at *
  have hsender : p.sender = who.other := by rw [← hw, Party.other_other]
  rw [hsender] at hother
  have htop : topLevel level = level who + 1 := by
    rw [topLevel_eq level who, hother]
    omega
  have htop' : topLevel (Function.update level who (level who + 2)) = level who + 1 + 1 := by
    rw [topLevel_eq _ who, Function.update_self, Function.update_of_ne (Party.other_ne who), hother]
    omega
  have hlevels := h.levels
  rw [htop] at hlevels
  have hiff : ∀ q l' j', AtPosition P (E.extend (level who + 2) k) sk ad
      (Function.update level who (level who + 2)) q l' j' ↔ AtPosition P E sk ad level q l' j' :=
    fun q l' j' => atPosition_extend_iff (h.parity who) hother (hlevels.count_future _ (by omega))
  have howed : ∀ flight w l' j', Owed P (E.extend (level who + 2) k) sk ad
      (Function.update level who (level who + 2)) flight w l' j' →
      Owed P E sk ad level flight w l' j' := by
    rintro flight w l' j' ⟨q, hq, hqs, hqp⟩
    exact ⟨q, hq, hqs, (hiff q l' j').mp hqp⟩
  have herase := h.erase i
  constructor
  case parity =>
    intro w
    rcases Party.eq_or_eq_other who w with rfl | rfl
    · rw [Function.update_self, Nat.add_mod_right]
      exact h.parity w
    · rw [Function.update_of_ne (Party.other_ne who)]
      exact h.parity _
  case near =>
    intro w
    rcases Party.eq_or_eq_other who w with rfl | rfl
    · rw [Function.update_self, Function.update_of_ne (Party.other_ne w)]
      omega
    · rw [Party.other_other, Function.update_self, Function.update_of_ne (Party.other_ne who)]
      omega
  case levels =>
    rw [htop']
    refine hlevels.extend fun m hm heq => hk ?_
    rw [← heq]
    exact h.drawn m (htop ▸ hm)
  case drawn =>
    intro m hm
    rw [htop'] at hm
    rcases Nat.lt_or_eq_of_le hm with hlt | rfl
    · rw [E.extend_key_of_lt k hlt]
      exact List.mem_append_left _ (h.drawn m (by omega))
    · exact List.mem_append_right _ (by simp [Epochs.extend])
  case sessions =>
    intro w
    rcases Party.eq_or_eq_other who w with rfl | rfl
    · simpa [Exchange.setSession] using hs
    · simpa [Exchange.setSession, Party.other_ne who] using
        (h.sessions who.other).extend k (by omega)
  case caches =>
    intro w
    rcases Party.eq_or_eq_other who w with rfl | rfl
    · simpa [Exchange.setSession] using
        hc.mono fun l' j' ho => owed_eraseIdx hi h.headers hp l' j' (howed _ _ l' j' ho)
    · simpa [Exchange.setSession, Party.other_ne who] using
        ((herase.caches who.other).extend k (by omega)).mono (howed _ _)
  case flight =>
    intro q hq
    obtain ⟨l', j', hqp⟩ := herase.flight q hq
    exact ⟨l', j', (hiff q l' j').mpr hqp⟩
  case headers => exact herase.headers

/-! ## A message sent -/

theorem header_bump {l₀ l : Nat} (j : Nat) (h0 : 0 < l₀) (hle : l ≤ l₀ + 1) :
    (E.bump l₀).header P l j = E.header P l j := by
  rw [Epochs.header, Epochs.header, E.bump_count_of_ne (by omega)]
  rfl

theorem messageKeyAt_bump (l₀ l j : Nat) :
    (E.bump l₀).messageKeyAt P sk l j = E.messageKeyAt P sk l j := by
  rw [Epochs.messageKeyAt, Epochs.messageKeyAt, E.bump_chain]

theorem AtPosition.bump {l₀ : Nat} {p : Packet} {l j : Nat} (h0 : 0 < l₀)
    (hle : level p.sender ≤ l₀ + 1) (h : AtPosition P E sk ad level p l j) :
    AtPosition P (E.bump l₀) sk ad level p l j := by
  have hl := Nat.le_trans h.le hle
  exact ⟨h.pos, h.le, h.parity, Nat.lt_of_lt_of_le h.sent (E.le_bump_count l₀ l),
    (header_bump j h0 hl).symm ▸ h.header, (messageKeyAt_bump l₀ l j).symm ▸ h.sealed⟩

theorem AtPosition.of_bump {l₀ : Nat} {p : Packet} {l j : Nat} (h0 : 0 < l₀)
    (hle : level p.sender ≤ l₀ + 1) (h : AtPosition P (E.bump l₀) sk ad level p l j)
    (hj : j < E.count l) : AtPosition P E sk ad level p l j := by
  have hl := Nat.le_trans h.le hle
  exact ⟨h.pos, h.le, h.parity, hj, header_bump (E := E) j h0 hl ▸ h.header,
    messageKeyAt_bump (E := E) l₀ l j ▸ h.sealed⟩

/-- A header determines the position of its message. -/
theorem header_inj {top l l' j j' : Nat} (hd : E.Drawn P top) (hl : l ≤ top) (hl' : l' ≤ top)
    (hj : j < UInt32.size) (hj' : j' < UInt32.size)
    (heq : encodeHeader (E.header P l j) = encodeHeader (E.header P l' j')) : l = l' ∧ j = j' := by
  have hdec := congrArg decodeHeader heq
  rw [decodeHeader_encodeHeader, decodeHeader_encodeHeader] at hdec
  simp only [Epochs.header, RatchetHeader.mk.injEq] at hdec
  exact ⟨hd.distinct l l' hl hl' hdec.2.2, ofNat_inj_of_lt hj hj' hdec.2.1⟩

/-- The sender's chain moves on by one, and its packet joins the flight. -/
theorem ExchangeInv.send (h : ExchangeInv P E sk ad level pos x) {who : Party} {env : CallEnv K}
    {plaintext : Bytes} {m : EncryptedMessage} {t : ZiaSession K}
    (hsend : ziaSessionEncrypt P env (x.session who) plaintext = .ok m t)
    (hfair : (x.session who).ns.toNat + 1 < UInt32.size) :
    ExchangeInv P (E.bump (level who)) sk ad level pos
      { x.setSession who t with
        flight := x.flight ++ [⟨who, m.header, m.ciphertext, plaintext⟩] } := by
  obtain ⟨hl, hheader, hseal, hs, hskipped⟩ := send_atLevel (h.sessions who) hsend
  have hns : (x.session who).ns.toNat = E.count (level who) := by
    rw [(h.sessions who).ns, UInt32.toNat_ofNat_of_lt' (h.levels.count_lt _)]
  rw [hns] at hfair
  have hlevel : ∀ w, level w ≤ level who + 1 := by
    intro w
    rcases Party.eq_or_eq_other who w with rfl | rfl
    · exact Nat.le_succ _
    · simpa using h.near who.other
  have hne : level who ≠ level who.other := by
    intro heq
    have hpar := h.parity who
    have hpar' := h.parity who.other
    have hsum := Party.parity_other who
    omega
  have hnew : AtPosition P (E.bump (level who)) sk ad level
      ⟨who, m.header, m.ciphertext, plaintext⟩ (level who) (E.count (level who)) := by
    refine ⟨hl, Nat.le_refl _, h.parity who, ?_, ?_, ?_⟩
    · rw [E.bump_count_self]
      exact Nat.lt_succ_self _
    · rw [header_bump _ hl (Nat.le_succ _)]
      exact hheader
    · rw [messageKeyAt_bump]
      exact hseal
  -- An old packet never has the header of the new one.
  have hfresh : ∀ l j, l ≤ topLevel level → j < E.count l →
      encodeHeader (E.header P l j) ≠ m.header := by
    intro l j hle hj heq
    rw [hheader] at heq
    obtain ⟨rfl, rfl⟩ := header_inj h.levels hle (level_le_top level who)
      (Nat.lt_trans hj (h.levels.count_lt l)) (h.levels.count_lt _) heq
    exact Nat.lt_irrefl _ hj
  have howed : ∀ w l j, Owed P (E.bump (level who)) sk ad level
      (x.flight ++ [⟨who, m.header, m.ciphertext, plaintext⟩]) w l j → j < E.count l →
      Owed P E sk ad level x.flight w l j := by
    rintro w l j ⟨q, hq, hqs, hqp⟩ hj
    have hq' := hqp.of_bump hl (hlevel q.sender) hj
    rcases List.mem_append.mp hq with hold | hlast
    · exact ⟨q, hold, hqs, hq'⟩
    · obtain rfl := List.mem_singleton.mp hlast
      exact absurd hq'.header.symm
        (hfresh l j (Nat.le_trans hq'.le (level_le_top level _)) hj)
  have hcache : ∀ w, CacheInv P (E.bump (level who)) sk (level w) (pos w)
      (x.session w).skipped (Owed P (E.bump (level who)) sk ad level
        (x.flight ++ [⟨who, m.header, m.ciphertext, plaintext⟩]) w) := by
    intro w
    have hbump := (h.caches w).bump (hlevel w)
    refine ⟨hbump.sound, fun l j ho hpassed => hbump.holds l j (howed w l j ho ?_) hpassed⟩
    rcases (passed_bump (hlevel w)).mp hpassed with ⟨hlast, hlt⟩ | ⟨_, hlt⟩
    · have hle := (h.sessions w).nr_le
      rw [← hlast, Nat.add_sub_cancel] at hle
      omega
    · exact hlt
  constructor
  case parity => exact h.parity
  case near => exact h.near
  case levels => exact h.levels.bump hl (level_le_top level who) hfair
  case drawn => exact h.drawn
  case sessions =>
    intro w
    rcases Party.eq_or_eq_other who w with rfl | rfl
    · simpa [Exchange.setSession] using hs
    · simpa [Exchange.setSession, Party.other_ne who] using
        (h.sessions who.other).bump hl hne (hlevel _)
  case caches =>
    intro w
    rcases Party.eq_or_eq_other who w with rfl | rfl
    · simpa [Exchange.setSession, hskipped] using hcache w
    · simpa [Exchange.setSession, Party.other_ne who] using hcache who.other
  case flight =>
    intro q hq
    rcases List.mem_append.mp hq with hold | hlast
    · obtain ⟨l, j, hqp⟩ := h.flight q hold
      exact ⟨l, j, hqp.bump hl (hlevel q.sender)⟩
    · obtain rfl := List.mem_singleton.mp hlast
      exact ⟨_, _, hnew⟩
  case headers =>
    rw [List.map_append, List.nodup_append]
    refine ⟨h.headers, by simp, ?_⟩
    intro a ha b hb
    obtain rfl := List.mem_singleton.mp hb
    obtain ⟨q, hq, rfl⟩ := List.mem_map.mp ha
    obtain ⟨l, j, hqp⟩ := h.flight q hq
    have hle := Nat.le_trans hqp.le (level_le_top level _)
    rw [hqp.header]
    exact hfresh l j hle hqp.sent

/-! ## Runs -/

variable (P) in
/-- The invariant at some levels. -/
def ExchangeOk (sk : K) (ad : FixedBytes 64) (x : Exchange K) : Prop :=
  ∃ E level pos, ExchangeInv P E sk ad level pos x

/-- A fair delivery opens the packet and keeps the invariant. -/
theorem deliver_ok (hP : AeadCorrect P) (hdh : DhAgreement P)
    (h : ExchangeInv P E sk ad level pos x) {i : Nat} {env : CallEnv K} {p : Packet}
    (hi : x.flight[i]? = some p) (hfair : Exchange.Fair P (.deliver i env) x) :
    ∃ t, ziaSessionDecrypt P env (x.session p.sender.other) p.header p.ciphertext =
        .ok p.plaintext t ∧
      ExchangeOk P sk ad { x.setSession p.sender.other t with
        flight := x.flight.eraseIdx i
        drawn := if Exchange.drawsPair (x.session p.sender.other) p
          then x.drawn ++ [P.x25519Base env.fresh] else x.drawn } := by
  obtain ⟨halloc, hpair, hcap⟩ := hfair p hi
  obtain ⟨l, j, hp⟩ := h.flight p (List.mem_of_getElem? hi)
  have hs := h.sessions p.sender.other
  have hc := h.caches p.sender.other
  have howed : Owed P E sk ad level x.flight p.sender.other l j :=
    ⟨p, List.mem_of_getElem? hi, (Party.other_other _).symm, hp⟩
  have hnear := h.near p.sender
  have hlower := h.near p.sender.other
  rw [Party.other_other] at hlower
  have hparity := hp.parity
  have hparity' := h.parity p.sender.other
  have hsum := Party.parity_other p.sender
  have hltop := Nat.le_trans hp.le (level_le_top level _)
  have hle := hp.le
  have hseal := hp.sealed
  rw [hp.header] at hcap hseal ⊢
  rw [decodeHeader_encodeHeader] at hcap
  have hdrawn : ∀ k ∈ x.drawn, k ∈ (if Exchange.drawsPair (x.session p.sender.other) p
      then x.drawn ++ [P.x25519Base env.fresh] else x.drawn) := by
    intro k hk
    split
    · exact List.mem_append_left _ hk
    · exact hk
  -- Behind the receiver, on its current chain, or on the next level.
  by_cases hpassed : Passed E (level p.sender.other) (pos p.sender.other) l j
  · obtain ⟨t, hok, hs', hc'⟩ := receive_cached hP h.levels hs (level_le_top level _) hc halloc
      hltop howed hpassed hseal
    exact ⟨t, hok, E, level, _, h.receive _ hdrawn hi hp hs' hc'⟩
  · have hsent := hp.sent
    by_cases hcur : l + 1 = level p.sender.other
    · have hpos : pos p.sender.other ≤ j := by
        by_contra hno
        exact hpassed (Or.inl ⟨hcur, by omega⟩)
      obtain ⟨t, hok, hs', hc'⟩ := receive_current hP h.levels hs (level_le_top level _) hc halloc
        hcur hp.pos hpos hsent hcap hseal
      exact ⟨t, hok, E, level, _, h.receive _ hdrawn hi hp hs' hc'⟩
    · have hfar : ¬ l + 1 < level p.sender.other := fun hlt => hpassed (Or.inr ⟨hlt, hsent⟩)
      obtain rfl : l = level p.sender.other + 1 := by omega
      have hother : level p.sender = level p.sender.other + 1 := by omega
      have htop : topLevel level = level p.sender.other + 1 := by
        rw [topLevel_eq level p.sender.other, Party.other_other]
        omega
      have hlevels := h.levels
      rw [htop] at hlevels
      have howedParity : ∀ l' j', Owed P E sk ad level x.flight p.sender.other l' j' →
          l' % 2 ≠ level p.sender.other % 2 := by
        rintro l' j' ⟨q, _, hqs, hqp⟩
        have hqpar := hqp.parity
        rw [hqs, Party.other_other] at hqpar
        omega
      obtain ⟨t, hok, hs', hc'⟩ := receive_new hP hdh hlevels hs hc howedParity halloc hsent hcap
        hseal
      have hdraws : Exchange.drawsPair (x.session p.sender.other) p = true := by
        obtain ⟨hreach, hopens, _⟩ := reaches_new hlevels hs hc
          (Nat.lt_trans hsent (hlevels.count_lt _)) (hP _ _ _ _ _ hseal).2
        rw [Exchange.drawsPair, hp.header, hreach, decodeHeader_encodeHeader, hopens]
        rfl
      rw [if_pos hdraws]
      exact ⟨t, hok, _, _, _, h.ratchet env.fresh hi hp hother (hpair hdraws) hs' hc'⟩

theorem exchangeOk_step (hP : AeadCorrect P) (hdh : DhAgreement P) (e : ExchangeEvent K)
    (x y : Exchange K) (h : ExchangeOk P sk ad x) (hfair : Exchange.Fair P e x)
    (hstep : Exchange.step P e x = some y) : ExchangeOk P sk ad y := by
  obtain ⟨E, level, pos, hinv⟩ := h
  cases e with
  | lose i =>
    obtain rfl := Option.some.inj hstep
    exact ⟨E, level, pos, hinv.erase i⟩
  | send who env plaintext =>
    cases hsend : ziaSessionEncrypt P env (x.session who) plaintext with
    | fault => simp [Exchange.step, hsend] at hstep
    | ok m t =>
      simp only [Exchange.step, hsend] at hstep
      obtain rfl := Option.some.inj hstep
      exact ⟨_, level, pos, hinv.send hsend hfair⟩
    | error rc t =>
      simp only [Exchange.step, hsend] at hstep
      obtain rfl := Option.some.inj hstep
      rw [encrypt_error P hsend, Exchange.setSession, Function.update_eq_self]
      exact ⟨E, level, pos, hinv⟩
  | deliver i env =>
    cases hi : x.flight[i]? with
    | none =>
      simp only [Exchange.step, hi] at hstep
      obtain rfl := Option.some.inj hstep
      exact ⟨E, level, pos, hinv⟩
    | some p =>
      obtain ⟨t, hok, hnext⟩ := deliver_ok hP hdh hinv hi hfair
      simp only [Exchange.step, hi, hok, Outcome.session?, Option.map_some] at hstep
      obtain rfl := Option.some.inj hstep
      exact hnext

end Invariant

/-- Over any interleaving of sends, deliveries and losses that meets the
assumptions, every delivered packet decrypts to the plaintext it was made from. -/
theorem delivered_decrypts (hP : AeadCorrect P) (hdh : DhAgreement P) (env : CallEnv K)
    (ad : FixedBytes 64) (sk signedPrekey : K)
    (hne : P.x25519Base env.fresh ≠ P.x25519Base signedPrekey) (events : List (ExchangeEvent K))
    (hfair : Always (Exchange.step P) (Exchange.Fair P) events
      (Exchange.start P env ad sk signedPrekey)) :
    Always (Exchange.step P) (Exchange.Delivers P) events
      (Exchange.start P env ad sk signedPrekey) := by
  refine always_of_invariant (ExchangeOk P sk ad) (exchangeOk_step hP hdh) ?_
    ⟨_, _, _, exchangeInv_start hdh env ad sk signedPrekey hne⟩ hfair
  rintro e x ⟨E, level, pos, hinv⟩ hf
  cases e with
  | send => exact trivial
  | lose => exact trivial
  | deliver i env' =>
    intro p hi
    obtain ⟨t, hok, _⟩ := deliver_ok hP hdh hinv hi hf
    exact ⟨t, hok⟩

/-! ## One message across -/

theorem symbolic_dhAgreement : DhAgreement symbolic.toPrimitives := by
  intro a b
  refine ⟨_, rfl, ?_⟩
  have hcomm : List.zipWith (· + ·) (FixedBytes.copy 32 b 0).bytes (FixedBytes.copy 32 a 0).bytes =
      List.zipWith (· + ·) (FixedBytes.copy 32 a 0).bytes (FixedBytes.copy 32 b 0).bytes :=
    List.zipWith_comm_of_comm fun x y => UInt8.add_comm x y
  exact congrArg some hcomm

/-- A handshake of the symbolic instance, and its first message delivered. -/
def symbolicExchange : Exchange Bytes :=
  Exchange.start symbolic.toPrimitives ⟨[1], [], [], true⟩ (FixedBytes.zero 64) [2] [3]

def symbolicSend : ExchangeEvent Bytes := .send .alice ⟨[], [], [], true⟩ [1, 2, 3]

def symbolicDeliver : ExchangeEvent Bytes := .deliver 0 ⟨[4], [], [], true⟩

/-- After the first message is sent it is in flight, and its delivery is fair. -/
theorem symbolicDeliver_fair {x : Exchange Bytes}
    (hx : Exchange.step symbolic.toPrimitives symbolicSend symbolicExchange = some x) :
    x.flight.length = 1 ∧ Exchange.Fair symbolic.toPrimitives symbolicDeliver x := by
  obtain ⟨m, t, hsend⟩ : ∃ m t, ziaSessionEncrypt symbolic.toPrimitives ⟨[], [], [], true⟩
      (symbolicExchange.session .alice) [1, 2, 3] = .ok m t := ⟨_, _, rfl⟩
  simp only [Exchange.step, symbolicSend, hsend, Option.some.injEq] at hx
  subst hx
  obtain ⟨_, _, _, hheader, _⟩ := encrypt_ok_cases _ hsend
  refine ⟨rfl, ?_⟩
  intro p hp
  obtain rfl := Option.some.inj hp
  have hdec : decodeHeader m.header = ⟨0, 0, symbolic.x25519Base [1]⟩ := by
    rw [hheader]
    exact decodeHeader_encodeHeader _
  refine ⟨rfl, fun _ => ?_, ?_⟩
  · change symbolic.x25519Base [4] ∉ [symbolic.x25519Base [3], symbolic.x25519Base [1]]
    decide
  · simp only [hdec]
    exact Nat.zero_le _

theorem symbolic_delivers :
    Always (Exchange.step symbolic.toPrimitives) (Exchange.Delivers symbolic.toPrimitives)
      [symbolicSend, symbolicDeliver] symbolicExchange ∧
    ∃ x, run (Exchange.step symbolic.toPrimitives) [symbolicSend] symbolicExchange = some x ∧
      x.flight.length = 1 := by
  obtain ⟨x, hx⟩ : ∃ x, Exchange.step symbolic.toPrimitives symbolicSend symbolicExchange =
      some x := ⟨_, rfl⟩
  refine ⟨delivered_decrypts symbolic_aeadCorrect symbolic_dhAgreement _ _ _ _ (by decide) _
    ⟨(by decide : (0 : UInt32).toNat + 1 < UInt32.size),
      fun y hy => ⟨(symbolicDeliver_fair hy).2, fun _ _ => trivial⟩⟩,
    x, ?_, (symbolicDeliver_fair hx).1⟩
  rw [run_cons, hx]
  rfl

end ZiaCrypte.Engine
