import ZiaCrypte.Chat.RunChecks
import ZiaCrypte.Engine.SendKeys
import ZiaCrypte.Engine.Symbolic

/-!
# Message keys over restarts

A restart continues the ratchet the vault has. Where the process dies with every
session it sealed on stored as it is, and no session is restored beside itself, a
restore finds the chain as far as it was used, and no message key is used twice.
-/
namespace ZiaCrypte.Chat

open ZiaCrypte.Engine ZiaCrypte.Lib

variable {K : Type}

/-- The keys sealed with on the ratchet of one handshake. -/
def keysOn (s : Client K) (origin : Origin) : List K :=
  (s.record.seals.filter fun e => e.origin = origin).map (·.key)

/-- Some native session continues this ratchet. -/
def InMemory (s : Client K) (origin : Origin) : Prop :=
  ∃ session, s.originOf session = some origin

/-- Two messages on one ratchet are never sealed under one key. -/
def KeysUsedOnce (s : Client K) : Prop :=
  s.record.seals.Pairwise fun e e' => e.origin = e'.origin → e.key ≠ e'.key

/-- When the process dies, what is stored of the sessions in memory is up to date;
and no session is restored while one of its handshake is in memory. -/
def SavedBeforeRestore (e : ChatEvent K) (s : Client K) : Prop :=
  match e with
  | .crash => ∀ k blob, s.coffre.sess.get? k = some blob → InMemory s blob.origin →
      blob.sealedBefore = s.sealedOn blob.origin
  | .settle _ (.importSession blob) _ => ¬ InMemory s blob.origin
  | _ => True

/-! ## The invariant -/

structure KeyInv (P : Primitives K) (s : Client K) : Prop where
  memory : ∀ session e, s.sessions.get? session = some e → SealInv P e.state (keysOn s e.origin)
  unique : ∀ session session' origin, s.originOf session = some origin →
    s.originOf session' = some origin → session = session'
  exported : ∀ blob ∈ s.record.exports, blob.sealedBefore ≤ s.sealedOn blob.origin ∧
    (blob.sealedBefore = s.sealedOn blob.origin → SealInv P blob.state (keysOn s blob.origin))
  stored : ∀ k blob, s.coffre.sess.get? k = some blob →
    blob.sealedBefore = s.sealedOn blob.origin ∨ InMemory s blob.origin
  read : ∀ conv device origin n, Entry.read conv device origin n ∈ s.journal →
    n = s.sealedOn origin ∨ InMemory s origin
  numbered : ∀ origin, InMemory s origin ∨ (∃ blob ∈ s.record.exports, blob.origin = origin) ∨
    (∃ e ∈ s.record.seals, e.origin = origin) → origin.number < s.nextOrigin
  distinct : KeysUsedOnce s

theorem length_keysOn (s : Client K) (origin : Origin) :
    (keysOn s origin).length = s.sealedOn origin := by
  rw [keysOn, List.length_map, Client.sealedOn]

theorem InMemory.grows {s t : Client K} {origin : Origin} (h : InMemory s origin)
    (hgrows : Grows s t) : InMemory t origin := by
  obtain ⟨session, horigin⟩ := h
  exact ⟨session, hgrows.sessions _ _ horigin⟩

/-- What the invariant reads, apart from the vault and the journal, is the same. -/
structure SameKeys (s t : Client K) : Prop where
  sessions : t.sessions = s.sessions
  seals : t.record.seals = s.record.seals
  exports : t.record.exports = s.record.exports
  nextOrigin : t.nextOrigin = s.nextOrigin

theorem SameKeys.keysOn {s t : Client K} (h : SameKeys s t) (origin : Origin) :
    keysOn t origin = keysOn s origin := by
  rw [Chat.keysOn, h.seals, Chat.keysOn]

theorem SameKeys.sealedOn {s t : Client K} (h : SameKeys s t) (origin : Origin) :
    t.sealedOn origin = s.sealedOn origin := by
  rw [Client.sealedOn, h.seals, Client.sealedOn]

theorem SameKeys.inMemory {s t : Client K} (h : SameKeys s t) (origin : Origin) :
    InMemory t origin ↔ InMemory s origin := by
  simp only [InMemory, Client.originOf, h.sessions]

variable {P : Platform K}

/-- An event that writes neither sessions nor the record keeps the invariant, if the
vault and the journal gain nothing stale. -/
theorem KeyInv.same {Q : Primitives K} {s t : Client K} (h : KeyInv Q s) (hsame : SameKeys s t)
    (hstored : ∀ k blob, t.coffre.sess.get? k = some blob →
      blob.sealedBefore = s.sealedOn blob.origin ∨ InMemory s blob.origin)
    (hread : ∀ conv device origin n, Entry.read conv device origin n ∈ t.journal →
      n = s.sealedOn origin ∨ InMemory s origin) : KeyInv Q t where
  memory session e he := by
    rw [hsame.keysOn]
    exact h.memory session e (hsame.sessions ▸ he)
  unique session session' origin ho ho' := by
    simp only [Client.originOf, hsame.sessions] at ho ho'
    exact h.unique session session' origin ho ho'
  exported blob hblob := by
    rw [hsame.sealedOn, hsame.keysOn]
    exact h.exported blob (hsame.exports ▸ hblob)
  stored k blob hblob := by
    rw [hsame.sealedOn, hsame.inMemory]
    exact hstored k blob hblob
  read conv device origin n hmem := by
    rw [hsame.sealedOn, hsame.inMemory]
    exact hread conv device origin n hmem
  numbered origin horigin := by
    rw [hsame.inMemory, hsame.exports, hsame.seals] at horigin
    rw [hsame.nextOrigin]
    exact h.numbered origin horigin
  distinct := by
    rw [KeysUsedOnce, hsame.seals]
    exact h.distinct

/-- A native session under a new number, of a ratchet that none in memory continues. -/
theorem KeyInv.newSession {Q : Primitives K} {s t : Client K} {e : EngineSession K}
    (h : KeyInv Q s) (hs : Coherent s) (hnew : ¬ InMemory s e.origin)
    (hseal : SealInv Q e.state (keysOn s e.origin)) (hnumber : e.origin.number < t.nextOrigin)
    (hnext : s.nextOrigin ≤ t.nextOrigin)
    (hsessions : t.sessions = s.sessions.insert s.nextSession e)
    (hrecord : t.record = s.record) (hcoffre : t.coffre = s.coffre)
    (hjournal : t.journal = s.journal) : KeyInv Q t := by
  have hkeys : ∀ origin, keysOn t origin = keysOn s origin := fun origin => by
    rw [keysOn, hrecord, keysOn]
  have hsealed : ∀ origin, t.sealedOn origin = s.sealedOn origin := fun origin => by
    rw [Client.sealedOn, hrecord, Client.sealedOn]
  have horigin : ∀ session origin, t.originOf session = some origin →
      s.originOf session = some origin ∨ session = s.nextSession ∧ origin = e.origin := by
    intro session origin ho
    rw [Client.originOf, hsessions, LinkedMap.get?_insert] at ho
    split at ho
    · rename_i hsession
      exact .inr ⟨hsession, (Option.some.inj ho).symm⟩
    · exact .inl ho
  have hgrow : ∀ origin, InMemory s origin → InMemory t origin := by
    rintro origin ⟨session, ho⟩
    obtain ⟨e', he', _⟩ := Option.map_eq_some_iff.mp ho
    refine ⟨session, ?_⟩
    rw [Client.originOf, hsessions,
      LinkedMap.get?_insert_ne _ _ (Nat.ne_of_lt (hs.fresh session e' he'))]
    exact ho
  constructor
  · intro session e' he'
    rw [hkeys]
    rw [hsessions, LinkedMap.get?_insert] at he'
    split at he'
    · obtain rfl := Option.some.inj he'
      exact hseal
    · exact h.memory session e' he'
  · intro session session' origin ho ho'
    rcases horigin session origin ho with hold | ⟨rfl, rfl⟩
    · rcases horigin session' origin ho' with hold' | ⟨rfl, rfl⟩
      · exact h.unique session session' origin hold hold'
      · exact absurd ⟨session, hold⟩ hnew
    · rcases horigin session' e.origin ho' with hold' | ⟨rfl, _⟩
      · exact absurd ⟨session', hold'⟩ hnew
      · rfl
  · intro blob hblob
    rw [hsealed, hkeys]
    exact h.exported blob (hrecord ▸ hblob)
  · intro k blob hblob
    rw [hsealed]
    exact (h.stored k blob (hcoffre ▸ hblob)).imp_right (hgrow _)
  · intro conv device origin n hmem
    rw [hsealed]
    exact (h.read conv device origin n (hjournal ▸ hmem)).imp_right (hgrow _)
  · intro origin hor
    rw [hrecord] at hor
    rcases hor with ⟨session, ho⟩ | hold
    · rcases horigin session origin ho with hold | ⟨_, rfl⟩
      · exact Nat.lt_of_lt_of_le (h.numbered origin (.inl ⟨session, hold⟩)) hnext
      · exact hnumber
    · exact Nat.lt_of_lt_of_le (h.numbered origin (.inr hold)) hnext
  · rw [KeysUsedOnce, hrecord]
    exact h.distinct

/-- Nothing was sealed on the ratchet of a handshake that is still to come. -/
theorem KeyInv.fresh_origin {Q : Primitives K} {s : Client K} (h : KeyInv Q s) {origin : Origin}
    (hnumber : origin.number = s.nextOrigin) : ¬ InMemory s origin ∧ keysOn s origin = [] := by
  have hnot : ¬ origin.number < s.nextOrigin := by
    rw [hnumber]
    exact Nat.lt_irrefl _
  refine ⟨fun hmem => hnot (h.numbered origin (.inl hmem)), ?_⟩
  rw [keysOn, List.map_eq_nil_iff, List.filter_eq_nil_iff]
  intro e he heq
  exact hnot (h.numbered origin (.inr (.inr ⟨e, he, of_decide_eq_true heq⟩)))

/-! ## Calls on a session -/

theorem keysOn_recordSeal {s : Client K} {e : EngineSession K} {key : K} {plaintext : Bytes}
    {message : EncryptedMessage} (hkey : sendingKey P e.state = some key) (origin : Origin) :
    keysOn (s.recordSeal P e plaintext message) origin =
      if e.origin = origin then key :: keysOn s origin else keysOn s origin := by
  simp only [keysOn, Client.recordSeal, hkey, List.filter_cons]
  split <;> simp_all

/-- The session moved, and what it sealed with is as before. -/
theorem KeyInv.putSession {Q : Primitives K} {s : Client K} (h : KeyInv Q s) {session : SessionId}
    {e : EngineSession K} (he : s.sessions.get? session = some e) {state : ZiaSession K}
    (hseal : SealInv Q state (keysOn s e.origin)) : KeyInv Q (s.putSession session e state) where
  memory session' e' he' := by
    rw [Client.putSession, LinkedMap.get?_insert] at he'
    split at he'
    · obtain rfl := Option.some.inj he'
      exact hseal
    · exact h.memory session' e' he'
  unique session' session'' origin ho ho' := by
    rw [Client.originOf_putSession he] at ho ho'
    exact h.unique session' session'' origin ho ho'
  exported := h.exported
  stored k blob hblob := by
    refine (h.stored k blob hblob).imp_right ?_
    rintro ⟨session', ho⟩
    exact ⟨session', (Client.originOf_putSession he state session').trans ho⟩
  read conv device origin n hmem := by
    refine (h.read conv device origin n hmem).imp_right ?_
    rintro ⟨session', ho⟩
    exact ⟨session', (Client.originOf_putSession he state session').trans ho⟩
  numbered origin hor := by
    refine h.numbered origin (hor.imp_left ?_)
    rintro ⟨session', ho⟩
    exact ⟨session', (Client.originOf_putSession he state session').symm.trans ho⟩
  distinct := h.distinct

/-- A seal under a key the ratchet has not used. -/
theorem KeyInv.sealed {s : Client K} (h : KeyInv P.toPrimitives s) {session : SessionId}
    {e : EngineSession K} (he : s.sessions.get? session = some e) {key : K}
    (hkey : sendingKey P e.state = some key) (hfresh : key ∉ keysOn s e.origin)
    {plaintext : Bytes} {message : EncryptedMessage} {state : ZiaSession K}
    (hseal : SealInv P.toPrimitives state (key :: keysOn s e.origin)) :
    KeyInv P.toPrimitives ((s.recordSeal P e plaintext message).putSession session e state) := by
  have hmem : InMemory s e.origin := ⟨session, by rw [Client.originOf, he]; rfl⟩
  have hkeys : ∀ origin, keysOn (s.recordSeal P e plaintext message) origin =
      if e.origin = origin then key :: keysOn s origin else keysOn s origin :=
    keysOn_recordSeal hkey
  have hsealed : ∀ origin, origin ≠ e.origin →
      (s.recordSeal P e plaintext message).sealedOn origin = s.sealedOn origin := by
    intro origin hne
    rw [← length_keysOn, hkeys, if_neg hne.symm, length_keysOn]
  have hrest : (s.recordSeal P e plaintext message).sessions = s.sessions ∧
      (s.recordSeal P e plaintext message).nextOrigin = s.nextOrigin ∧
      (s.recordSeal P e plaintext message).coffre = s.coffre ∧
      (s.recordSeal P e plaintext message).journal = s.journal ∧
      (s.recordSeal P e plaintext message).record.exports = s.record.exports ∧
      (s.recordSeal P e plaintext message).record.seals =
        ⟨e.origin, key, plaintext, message⟩ :: s.record.seals := by
    have heq : s.recordSeal P e plaintext message = { s with record := { s.record with
        seals := ⟨e.origin, key, plaintext, message⟩ :: s.record.seals } } := by
      rw [Client.recordSeal, hkey]
    rw [heq]
    exact ⟨rfl, rfl, rfl, rfl, rfl, rfl⟩
  obtain ⟨hsessions, hnext, hcoffre, hjournal, hexports, hseals⟩ := hrest
  have horigin : ∀ session' , ((s.recordSeal P e plaintext message).putSession session e
      state).originOf session' = s.originOf session' := by
    intro session'
    rw [Client.originOf_putSession (hsessions ▸ he), Client.originOf, hsessions, Client.originOf]
  have hin : ∀ origin, InMemory ((s.recordSeal P e plaintext message).putSession session e state)
      origin ↔ InMemory s origin := by
    intro origin
    simp only [InMemory, horigin]
  have hcurrent : ∀ origin n, n = s.sealedOn origin ∨ InMemory s origin →
      n = (s.recordSeal P e plaintext message).sealedOn origin ∨ InMemory s origin := by
    intro origin n hor
    by_cases hsame : origin = e.origin
    · exact .inr (hsame ▸ hmem)
    · rw [hsealed origin hsame]
      exact hor
  constructor
  · intro session' e' he'
    change SealInv P.toPrimitives e'.state (keysOn (s.recordSeal P e plaintext message) e'.origin)
    rw [Client.putSession, LinkedMap.get?_insert] at he'
    split at he'
    · obtain rfl := Option.some.inj he'
      rw [hkeys, if_pos rfl]
      exact hseal
    · rename_i hne
      rw [hsessions] at he'
      rw [hkeys, if_neg]
      · exact h.memory session' e' he'
      · intro hsame
        exact hne (h.unique session' session e.origin
          (by rw [Client.originOf, he', hsame]; rfl) (by rw [Client.originOf, he]; rfl))
  · intro session' session'' origin ho ho'
    rw [horigin] at ho ho'
    exact h.unique session' session'' origin ho ho'
  · intro blob hblob
    change blob ∈ (s.recordSeal P e plaintext message).record.exports at hblob
    rw [hexports] at hblob
    obtain ⟨hle, hseal'⟩ := h.exported blob hblob
    change blob.sealedBefore ≤ (s.recordSeal P e plaintext message).sealedOn blob.origin ∧
      (blob.sealedBefore = (s.recordSeal P e plaintext message).sealedOn blob.origin →
        SealInv P.toPrimitives blob.state (keysOn (s.recordSeal P e plaintext message) blob.origin))
    by_cases hsame : e.origin = blob.origin
    · -- One more was sealed since the export.
      have hmore : (s.recordSeal P e plaintext message).sealedOn blob.origin =
          s.sealedOn blob.origin + 1 := by
        rw [← length_keysOn, hkeys, if_pos hsame, List.length_cons, length_keysOn]
      rw [hmore]
      exact ⟨Nat.le_succ_of_le hle, fun heq => absurd hle (by omega)⟩
    · rw [hkeys, if_neg hsame, hsealed _ (Ne.symm hsame)]
      exact ⟨hle, hseal'⟩
  · intro k blob hblob
    change (s.recordSeal P e plaintext message).coffre.sess.get? k = some blob at hblob
    rw [hcoffre] at hblob
    rw [hin]
    exact hcurrent _ _ (h.stored k blob hblob)
  · intro conv device origin n hread
    change Entry.read conv device origin n ∈ (s.recordSeal P e plaintext message).journal at hread
    rw [hjournal] at hread
    rw [hin]
    exact hcurrent _ _ (h.read conv device origin n hread)
  · intro origin hor
    change origin.number < (s.recordSeal P e plaintext message).nextOrigin
    rw [hnext]
    rw [hin] at hor
    rcases hor with hold | ⟨blob, hblob, rfl⟩ | ⟨entry, hentry, rfl⟩
    · exact h.numbered origin (.inl hold)
    · exact h.numbered _ (.inr (.inl ⟨blob, hexports ▸ hblob, rfl⟩))
    · change entry ∈ (s.recordSeal P e plaintext message).record.seals at hentry
      rw [hseals] at hentry
      rcases List.mem_cons.mp hentry with rfl | hold
      · exact h.numbered e.origin (.inl hmem)
      · exact h.numbered _ (.inr (.inr ⟨entry, hold, rfl⟩))
  · change (s.recordSeal P e plaintext message).record.seals.Pairwise _
    rw [hseals]
    refine List.pairwise_cons.mpr ⟨fun entry hentry hsame hsamekey => hfresh ?_, h.distinct⟩
    exact List.mem_map.mpr ⟨entry, List.mem_filter.mpr
      ⟨hentry, decide_eq_true hsame.symm⟩, hsamekey.symm⟩

theorem sendingKey_eq_some {state : ZiaSession K} {ck : K} (h : state.sendChainKey = some ck) :
    sendingKey P state = some (messageKey P.toPrimitives ck) := by
  rw [sendingKey, h]
  rfl

/-- An export is up to date when it is made. -/
theorem KeyInv.exports {Q : Primitives K} {s : Client K} (h : KeyInv Q s) {session : SessionId}
    {e : EngineSession K} (he : s.sessions.get? session = some e) :
    KeyInv Q { s with record := { s.record with exports := s.exported e :: s.record.exports } } where
  memory := h.memory
  unique := h.unique
  exported blob hblob := by
    rcases List.mem_cons.mp hblob with rfl | hold
    · exact ⟨Nat.le_refl _, fun _ => h.memory session e he⟩
    · exact h.exported blob hold
  stored := h.stored
  read := h.read
  numbered origin hor := by
    rcases hor with hmem | ⟨blob, hblob, rfl⟩ | hseal
    · exact h.numbered origin (.inl hmem)
    · rcases List.mem_cons.mp hblob with rfl | hold
      · exact h.numbered _ (.inl ⟨session, by rw [Client.originOf, he]; rfl⟩)
      · exact h.numbered _ (.inr (.inl ⟨blob, hold, rfl⟩))
    · exact h.numbered origin (.inr (.inr hseal))
  distinct := h.distinct

/-- A session is restored where its ratchet stands. -/
theorem KeyInv.restoresCurrent {Q : Primitives K} {s : Client K} (h : KeyInv Q s)
    {blob : StoredSession K} (hread : ReadBack s blob) (hnew : ¬ InMemory s blob.origin) :
    blob.sealedBefore = s.sealedOn blob.origin := by
  obtain ⟨_, conv, device, hmem⟩ := hread
  exact (h.read conv device blob.origin blob.sealedBefore hmem).resolve_right hnew

theorem KeyInv.carried (hkdf : HmacInjective P.toPrimitives) {s t : Client K} {q : Request K}
    (h : KeyInv P.toPrimitives s) (hs : Coherent s) (hcarried : Carried P s q t)
    (hguard : ∀ ticket x, Guard (.settle ticket q x) s)
    (hcond : ∀ ticket x, SavedBeforeRestore (.settle ticket q x) s) : KeyInv P.toPrimitives t := by
  have hframe : ∀ {u : Client K}, SameKeys s u → u.coffre.sess = s.coffre.sess →
      u.journal = s.journal → KeyInv P.toPrimitives u := by
    intro u hsame hsess hjournal
    refine h.same hsame (fun k blob hblob => h.stored k blob (hsess ▸ hblob)) ?_
    exact fun conv device origin n hmem => h.read conv device origin n (hjournal ▸ hmem)
  cases hcarried with
  | nothing => exact h
  | sealed he ho =>
    obtain ⟨ck, hck, hfresh, hseal⟩ := (h.memory _ _ he).seal hkdf ho
    exact h.sealed he (sendingKey_eq_some hck) hfresh hseal
  | notSealed he ho =>
    obtain rfl := encrypt_error _ ho
    exact h.putSession he (h.memory _ _ he)
  | decrypted he ho =>
    obtain ⟨spent, hmoves⟩ := decrypt_moves _ ho
    exact h.putSession he ((h.memory _ _ he).moves hmoves)
  | exported he => exact h.exports he
  | imported blob =>
    have hnew : ¬ InMemory s blob.origin := hcond 0 .done
    have hread : ReadBack s blob := hguard 0 .done
    obtain ⟨_, hseal⟩ := h.exported blob hread.1
    refine h.newSession hs (e := ⟨restored P.zero blob.state, blob.origin⟩) hnew
      ((hseal (h.restoresCurrent hread hnew)).restored P.zero) ?_ (Nat.le_refl _) rfl rfl rfl rfl
    exact h.numbered _ (.inr (.inl ⟨blob, hread.1, rfl⟩))
  | @initiated bundle env state handshake ho =>
    obtain ⟨start, hstart, rfl⟩ := ziaSessionFromBundle_start _ ho
    have hfresh : (Origin.initiated s.nextOrigin handshake).number = s.nextOrigin := rfl
    obtain ⟨hnew, hkeys⟩ := h.fresh_origin hfresh
    refine h.newSession hs (e := ⟨_, .initiated s.nextOrigin handshake⟩) hnew ?_
      (Nat.lt_succ_self _) (Nat.le_succ _) rfl rfl rfl rfl
    rw [hkeys]
    exact sealInv_start hkdf hstart
  | @accepted handshake state engine ho =>
    obtain ⟨start, hstart, rfl⟩ := ziaSessionAcceptHandshake_start _ ho
    have hfresh : (Origin.accepted s.nextOrigin handshake).number = s.nextOrigin := rfl
    obtain ⟨hnew, hkeys⟩ := h.fresh_origin hfresh
    refine h.newSession hs (e := ⟨_, .accepted s.nextOrigin handshake⟩) hnew ?_
      (Nat.lt_succ_self _) (Nat.le_succ _) rfl rfl rfl rfl
    rw [hkeys]
    exact sealInv_start hkdf hstart
  | @read conv device blob hblob =>
    refine h.same ⟨rfl, rfl, rfl, rfl⟩ h.stored fun conv' device' origin n hmem => ?_
    rcases List.mem_cons.mp hmem with heq | hold
    · obtain ⟨rfl, rfl, rfl, rfl⟩ := Entry.read.inj heq
      exact h.stored _ _ hblob
    · exact h.read conv' device' origin n hold
  | written conv device blob =>
    refine h.same ⟨rfl, rfl, rfl, rfl⟩ (fun k blob' hblob => ?_) h.read
    rw [LinkedMap.get?_insert] at hblob
    split at hblob
    · obtain rfl := Option.some.inj hblob
      obtain ⟨_, session, horigin, _⟩ : Exported s blob conv device := hguard 0 .done
      exact .inr ⟨session, horigin⟩
    · exact h.stored k blob' hblob
  | stored q coffre hsess => exact hframe ⟨rfl, rfl, rfl, rfl⟩ hsess rfl
  | senderKey conv => exact hframe ⟨rfl, rfl, rfl, rfl⟩ rfl rfl
  | taken q m => exact hframe ⟨rfl, rfl, rfl, rfl⟩ rfl rfl

/-! ## Runs -/

theorem sameKeys_stmt (a : Stmt) (s : Client K) :
    SameKeys s (a.apply s) ∧ (a.apply s).coffre = s.coffre := by
  cases a with
  | install conv device session source =>
    have hrecord := s.record_install conv device session source
    have hrest : (s.install conv device session source).sessions = s.sessions ∧
        (s.install conv device session source).nextOrigin = s.nextOrigin ∧
        (s.install conv device session source).coffre = s.coffre := by
      unfold Client.install
      cases s.pinnedKey device <;> cases source <;> exact ⟨rfl, rfl, rfl⟩
    obtain ⟨hsessions, hnext, hcoffre⟩ := hrest
    exact ⟨⟨hsessions, by rw [Stmt.apply, hrecord], by rw [Stmt.apply, hrecord], hnext⟩, hcoffre⟩
  | _ => exact ⟨⟨rfl, rfl, rfl, rfl⟩, rfl⟩

theorem KeyInv.crash {Q : Primitives K} {s : Client K} (h : KeyInv Q s)
    (hcond : SavedBeforeRestore .crash s) : KeyInv Q s.crash where
  memory session e he := by cases he
  unique session session' origin ho := by cases ho
  exported := h.exported
  stored k blob hblob := by
    left
    rcases h.stored k blob hblob with hcurrent | hmem
    · exact hcurrent
    · exact hcond k blob hblob hmem
  read conv device origin n hmem := by cases hmem
  numbered origin hor := by
    rcases hor with ⟨session, ho⟩ | hold
    · cases ho
    · exact h.numbered origin (.inr hold)
  distinct := h.distinct

theorem KeyInv.step (hkdf : HmacInjective P.toPrimitives) {e : ChatEvent K} {s : Client K}
    (h : KeyInv P.toPrimitives s) (hs : Coherent s) (hguard : Guard e s)
    (hcond : SavedBeforeRestore e s) : KeyInv P.toPrimitives ((chatSemantics P).apply e s) := by
  cases e with
  | act a =>
    obtain ⟨hsame, hcoffre⟩ := sameKeys_stmt a s
    refine h.same hsame (fun k blob hblob => h.stored k blob (hcoffre ▸ hblob)) ?_
    intro conv device origin n hmem
    rcases read_apply P (e := .act a) nofun hmem with hold | ⟨blob, hblob, rfl, rfl⟩
    · exact h.read conv device origin n hold
    · exact h.stored _ _ hblob
  | issue q =>
    have hsame : SameKeys s (q.issue s) := by cases q <;> exact ⟨rfl, rfl, rfl, rfl⟩
    refine h.same hsame (fun k blob hblob => h.stored k blob ?_) fun conv device origin n hmem => ?_
    · cases q <;> exact hblob
    · exact h.read conv device origin n (by cases q <;> exact hmem)
  | settle t q x =>
    have hcarried := carryOut_carried P q x s
    have hkept := h.carried hkdf hs hcarried
      (fun _ _ => by cases q <;> exact hguard) (fun _ _ => by cases q <;> exact hcond)
    exact hkept.same ⟨rfl, rfl, rfl, rfl⟩ hkept.stored hkept.read
  | crash => exact h.crash hcond

/-- A device whose private keys are all the byte `b`. -/
def symbolicEngine (b : UInt8) : ZiaEngine Bytes where
  identityPublic := sampleKey b
  identityPrivate := [b]
  signedPrekey := some ⟨sampleKey b, [b], []⟩
  pqPrekey := none
  oneTimePrekeys := []
  requirePq := false

end ZiaCrypte.Chat
