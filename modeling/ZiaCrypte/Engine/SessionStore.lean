import ZiaCrypte.Lib.Cursor
import ZiaCrypte.Engine.SessionRun

/-!
# `session.cpp`: storing and restoring a session

`serialize_state` and `deserialize_state` over real 32-byte keys, and the two
calls that wrap them in a secretstream under the device's master key.
-/
namespace ZiaCrypte.Engine

open ZiaCrypte.Lib

/-- A 32-byte secret as the bytes it is. -/
abbrev Key := FixedBytes 32

def keyZero : Key := FixedBytes.zero 32

/-! ## Writing -/

def boolByte (b : Bool) : UInt8 := if b then 1 else 0

/-- `append_bool_and_key32`; `none` when a present key would be read through the
null pointer of an empty buffer. -/
def appendBoolAndKey32 (present : Bool) (key : SecureBuffer Key) : Option Bytes :=
  if present then key.map fun k => boolByte present :: k.bytes
  else some (boolByte present :: keyZero.bytes)

def skippedKeyBytes (sk : ZiaSkippedKey Key) : Bytes :=
  sk.dhPublic.bytes ++ (writeU32Le sk.n ++ sk.key.bytes)

def serializeState (s : ZiaSession Key) : Option Bytes := do
  let sendKey ← appendBoolAndKey32 s.hasSendChain s.sendChainKey
  let recvKey ← appendBoolAndKey32 s.hasRecvChain s.recvChainKey
  pure (s.ad.bytes ++ (s.dhsPublic.bytes ++ (s.dhsPrivate.bytes ++
    ((boolByte s.hasDhr :: s.dhrPublic.bytes) ++ (s.rootKey.bytes ++ (sendKey ++ (recvKey ++
      ((writeU32Le s.ns ++ (writeU32Le s.nr ++ writeU32Le s.pn)) ++
        (writeU32Le (UInt32.ofNat s.skipped.length) ++
          s.skipped.flatMap skippedKeyBytes)))))))))

/-! ## Reading -/

def readFixed (n : Nat) : Cursor UInt8 (FixedBytes n) :=
  .field n fun b => FixedBytes.copy n b 0

/-- `need(1 + 32)`, a flag byte, then 32 bytes. -/
def readFlagAndKey : Cursor UInt8 (Bool × FixedBytes 32) :=
  .field 33 fun b => (b.getD 0 0 != 0, FixedBytes.copy 32 b 1)

/-- `need(12)`, then ns, nr and pn. -/
def readCounters : Cursor UInt8 (UInt32 × UInt32 × UInt32) :=
  .field 12 fun b => (readU32Le b 0, readU32Le b 4, readU32Le b 8)

def readCount : Cursor UInt8 UInt32 := .field 4 fun b => readU32Le b 0

def readSkippedKey : Cursor UInt8 (ZiaSkippedKey Key) :=
  .field 68 fun b => ⟨FixedBytes.copy 32 b 0, readU32Le b 32, FixedBytes.copy 32 b 36⟩

def readState : Cursor UInt8 (ZiaSession Key) := do
  let ad ← readFixed 64
  let dhsPublic ← readFixed 32
  let dhsPrivate ← readFixed 32
  let dhr ← readFlagAndKey
  let rootKey ← readFixed 32
  let send ← readFlagAndKey
  let recv ← readFlagAndKey
  let counters ← readCounters
  let skippedCount ← readCount
  let skipped ← Cursor.repeated readSkippedKey skippedCount.toNat
  pure
    { ad := ad
      dhsPublic := dhsPublic
      dhsPrivate := dhsPrivate
      hasDhr := dhr.1
      dhrPublic := dhr.2
      rootKey := rootKey
      hasSendChain := send.1
      sendChainKey := some send.2
      hasRecvChain := recv.1
      recvChainKey := some recv.2
      ns := counters.1
      nr := counters.2.1
      pn := counters.2.2
      skipped := skipped }

/-- `deserialize_state`, which ends with `return offset == len`. -/
def deserializeState (data : Bytes) : Option (ZiaSession Key) := readState.parse data

/-! ## The two exported calls -/

/-- What the calls take from the platform: the result of `ensure_master_key`,
the secretstream, the 24 bytes `init_push` draws, and whether `malloc` succeeds. -/
structure StoreEnv where
  masterKey : Option Key
  streamHeader : Option (FixedBytes 24)
  push : Key → Bytes → Bytes → Option Bytes
  pull : Key → Bytes → Bytes → Option Bytes
  alloc : Bool

/-- HEADERBYTES and ABYTES of `crypto_secretstream_xchacha20poly1305`. -/
def streamHeaderBytes : Nat := 24
def streamABytes : Nat := 17

/-- `zia_session_serialize`; `none` when `serialize_state` faults. -/
def ziaSessionSerialize (env : StoreEnv) (s : ZiaSession Key) : Option (Except ZiaError Bytes) :=
  match env.masterKey with
  | none => some (.error .storageIo)
  | some masterKey => do
      let plaintext ← serializeState s
      match env.streamHeader with
      | none => pure (.error .cryptoFailure)
      | some header =>
          if !env.alloc then pure (.error .outOfMemory)
          else
            match env.push masterKey header.bytes plaintext with
            | none => pure (.error .cryptoFailure)
            | some ciphertext => pure (.ok (header.bytes ++ ciphertext))

def ziaSessionDeserialize (env : StoreEnv) (data : Bytes) : Except ZiaError (ZiaSession Key) :=
  if data.length < streamHeaderBytes + streamABytes then .error .invalidArg
  else
    match env.masterKey with
    | none => .error .storageIo
    | some masterKey =>
        match env.pull masterKey (data.take streamHeaderBytes) (data.drop streamHeaderBytes) with
        | none => .error .cryptoFailure
        | some plaintext =>
            match deserializeState plaintext with
            | none => .error .cryptoFailure
            | some s => .ok s

/-! ## Round trip -/

theorem readFixed_reads {n : Nat} (b : FixedBytes n) : (readFixed n).Reads b.bytes b := by
  have hread := Cursor.reads_field (fun b => FixedBytes.copy n b 0) b.bytes b.length_bytes
  rwa [FixedBytes.copy_bytes] at hread

theorem boolByte_ne_zero (b : Bool) : (boolByte b != 0) = b := by
  cases b <;> decide

theorem readFlagAndKey_reads (flag : Bool) (key : FixedBytes 32) :
    readFlagAndKey.Reads (boolByte flag :: key.bytes) (flag, key) := by
  have hread := Cursor.reads_field
    (fun b : Bytes => (b.getD 0 0 != 0, FixedBytes.copy 32 b 1))
    (boolByte flag :: key.bytes) (n := 33) (by simp)
  have hcopy := FixedBytes.copy_append [boolByte flag] key [] 1 rfl
  rw [List.append_nil, List.singleton_append] at hcopy
  rwa [hcopy, List.getD_cons_zero, boolByte_ne_zero] at hread

theorem readCounters_reads (ns nr pn : UInt32) :
    readCounters.Reads (writeU32Le ns ++ (writeU32Le nr ++ writeU32Le pn)) (ns, nr, pn) := by
  have hread := Cursor.reads_field
    (fun b : Bytes => (readU32Le b 0, readU32Le b 4, readU32Le b 8))
    (writeU32Le ns ++ (writeU32Le nr ++ writeU32Le pn)) (n := 12) (by simp)
  have hns := readU32Le_append [] ns (writeU32Le nr ++ writeU32Le pn) 0 rfl
  have hnr := readU32Le_append (writeU32Le ns) nr (writeU32Le pn) 4 rfl
  have hpn := readU32Le_append (writeU32Le ns ++ writeU32Le nr) pn [] 8 rfl
  rw [List.nil_append] at hns
  rw [List.append_nil, List.append_assoc] at hpn
  rwa [hns, hnr, hpn] at hread

theorem readCount_reads (count : UInt32) : readCount.Reads (writeU32Le count) count := by
  have hread := Cursor.reads_field (fun b : Bytes => readU32Le b 0) _ (length_writeU32Le count)
  have hcount := readU32Le_append [] count [] 0 rfl
  rw [List.nil_append, List.append_nil] at hcount
  rwa [hcount] at hread

theorem readSkippedKey_reads (sk : ZiaSkippedKey Key) :
    readSkippedKey.Reads (skippedKeyBytes sk) sk := by
  have hread := Cursor.reads_field
    (fun b : Bytes => (⟨FixedBytes.copy 32 b 0, readU32Le b 32, FixedBytes.copy 32 b 36⟩ :
      ZiaSkippedKey Key)) (skippedKeyBytes sk) (n := 68) (by simp [skippedKeyBytes])
  have hdh := FixedBytes.copy_append [] sk.dhPublic (writeU32Le sk.n ++ sk.key.bytes) 0 rfl
  have hn := readU32Le_append sk.dhPublic.bytes sk.n sk.key.bytes 32 (by simp)
  have hkey := FixedBytes.copy_append (sk.dhPublic.bytes ++ writeU32Le sk.n) sk.key [] 36 (by simp)
  rw [List.nil_append] at hdh
  rw [List.append_nil, List.append_assoc] at hkey
  rw [skippedKeyBytes, hdh, hn, hkey] at hread
  exact hread

/-- A session whose flags are honest is written without a fault, each optional
key as its flag and the key `restored` gives it. -/
theorem appendBoolAndKey32_eq {present : Bool} {key : SecureBuffer Key}
    (h : present = true → ∃ k, key = some k) :
    appendBoolAndKey32 present key =
      some (boolByte present :: (if present then key.getD keyZero else keyZero).bytes) := by
  cases present with
  | false => rfl
  | true =>
    obtain ⟨k, rfl⟩ := h rfl
    rfl

/-- `deserialize_state` reads what `serialize_state` wrote, up to absent keys. -/
theorem readState_reads {s : ZiaSession Key} (h : WellFormed s) :
    ∃ data, serializeState s = some data ∧ readState.Reads data (restored keyZero s) := by
  have hcount : (UInt32.ofNat s.skipped.length).toNat = s.skipped.length := by
    rw [UInt32.toNat_ofNat_of_lt']
    exact Nat.lt_of_le_of_lt h.bounded (by decide)
  have hskipped := Cursor.Reads.repeated readSkippedKey_reads s.skipped
  rw [serializeState, appendBoolAndKey32_eq h.sendKey, appendBoolAndKey32_eq h.recvKey]
  refine ⟨_, rfl, ?_⟩
  unfold readState
  apply (readFixed_reads s.ad).bind
  apply (readFixed_reads s.dhsPublic).bind
  apply (readFixed_reads s.dhsPrivate).bind
  apply (readFlagAndKey_reads s.hasDhr s.dhrPublic).bind
  apply (readFixed_reads s.rootKey).bind
  apply (readFlagAndKey_reads s.hasSendChain _).bind
  apply (readFlagAndKey_reads s.hasRecvChain _).bind
  apply (readCounters_reads s.ns s.nr s.pn).bind
  apply (readCount_reads _).bind
  rw [hcount, ← List.append_nil (s.skipped.flatMap skippedKeyBytes)]
  exact hskipped.bind (Cursor.reads_pure _)

theorem deserializeState_serializeState {s : ZiaSession Key} (h : WellFormed s) :
    ∃ data, serializeState s = some data ∧ deserializeState data = some (restored keyZero s) := by
  obtain ⟨data, hdata, hread⟩ := readState_reads h
  exact ⟨data, hdata, hread.parse_eq⟩

/-- The secretstream gives back what was pushed, and adds its 17 bytes. -/
def StreamCorrect (env : StoreEnv) : Prop :=
  ∀ key header plaintext ciphertext, env.push key header plaintext = some ciphertext →
    env.pull key header ciphertext = some plaintext ∧
      ciphertext.length = plaintext.length + streamABytes

/-- A session stored with success comes back `restored` under the same master key. -/
theorem ziaSessionDeserialize_serialize {env : StoreEnv} {s : ZiaSession Key} {blob : Bytes}
    (henv : StreamCorrect env) (h : WellFormed s)
    (hblob : ziaSessionSerialize env s = some (.ok blob)) :
    ziaSessionDeserialize env blob = .ok (restored keyZero s) := by
  obtain ⟨data, hdata, hback⟩ := deserializeState_serializeState h
  unfold ziaSessionSerialize at hblob
  cases hmaster : env.masterKey with
  | none => simp [hmaster] at hblob
  | some masterKey =>
    simp only [hmaster, hdata, Option.bind_eq_bind, Option.bind_some] at hblob
    split at hblob
    · cases hblob
    rename_i header hheader
    split at hblob
    · cases hblob
    split at hblob
    · cases hblob
    rename_i ciphertext hpush
    cases hblob
    obtain ⟨hpull, hlen⟩ := henv _ _ _ _ hpush
    have htake : (header.bytes ++ ciphertext).take streamHeaderBytes = header.bytes := by
      simp [streamHeaderBytes]
    have hdrop : (header.bytes ++ ciphertext).drop streamHeaderBytes = ciphertext := by
      simp [streamHeaderBytes]
    rw [ziaSessionDeserialize, if_neg, hmaster]
    · simp only [htake, hdrop, hpull, hback]
    · rw [List.length_append, header.length_bytes, hlen]
      simp only [streamHeaderBytes]
      omega

/-- A platform whose secretstream is correct. -/
abbrev Vault := { env : StoreEnv // StreamCorrect env }

/-- A client that stores its session and goes on with what it can restore; it
keeps the session it has when either call fails. -/
def reloadSession (vault : Vault) (s : ZiaSession Key) : ZiaSession Key :=
  match ziaSessionSerialize vault.val s with
  | some (.ok blob) =>
      match ziaSessionDeserialize vault.val blob with
      | .ok t => t
      | .error _ => s
  | _ => s

theorem reloadSession_eq {s : ZiaSession Key} (vault : Vault) (h : WellFormed s) :
    reloadSession vault s = s ∨ reloadSession vault s = restored keyZero s := by
  unfold reloadSession
  split
  · rename_i blob hblob
    rw [ziaSessionDeserialize_serialize vault.property h hblob]
    exact Or.inr rfl
  · exact Or.inl rfl

theorem wellFormed_reload (vault : Vault) (s : ZiaSession Key) (h : WellFormed s) :
    WellFormed (reloadSession vault s) := by
  rcases reloadSession_eq vault h with heq | heq <;> rw [heq]
  · exact h
  · exact h.restored keyZero

end ZiaCrypte.Engine
