import ZiaCrypte.Storage.Backup
import ZiaCrypte.Storage.Persistence

/-!
# What an import reads off a backup

A sealed backup opens to what was encrypted, wherever its key can be derived. The
loop that acts on each record while it parses is a parse followed by the actions
on the records parsed, up to the first that fails.
-/
namespace ZiaCrypte.Storage

open ZiaCrypte.Lib ZiaCrypte.Engine

/-! ## Fields -/

theorem readBytes_reads (bytes : Bytes) : (readBytes bytes.length).Reads bytes bytes :=
  Cursor.reads_field id bytes rfl

theorem ofWords_writeU64Le (v : UInt64) :
    v.toUInt32.toUInt64 ||| ((v >>> 32).toUInt32.toUInt64 <<< 32) = v := by
  apply UInt64.eq_of_toBitVec_eq
  apply BitVec.eq_of_getLsbD_eq
  intro i hi
  have hmod : ((32 : UInt64).toBitVec % (64 : BitVec 64)).toNat = 32 := by decide
  simp only [UInt64.toBitVec_or, UInt64.toBitVec_shiftLeft, UInt32.toBitVec_toUInt64,
    UInt64.toBitVec_toUInt32, UInt64.toBitVec_shiftRight, BitVec.getLsbD_or,
    BitVec.shiftLeft_eq', BitVec.ushiftRight_eq', BitVec.getLsbD_shiftLeft,
    BitVec.getLsbD_setWidth, BitVec.getLsbD_ushiftRight]
  rw [show ((32 : UInt64).toBitVec % 64).toNat = 32 from hmod]
  by_cases h : i < 32
  · simp only [h, hi, decide_true, Bool.true_and, Bool.not_true, Bool.and_false, Bool.false_and,
      Bool.or_false]
  · have hhigh : i - 32 < 32 := by omega
    have hwide : i - 32 < 64 := by omega
    rw [show 32 + (i - 32) = i by omega]
    simp only [h, hi, hhigh, hwide, decide_true, decide_false, Bool.true_and, Bool.false_and,
      Bool.not_false, Bool.and_true, Bool.false_or]

theorem readU64_reads (v : UInt64) : readU64.Reads (writeU64Le v) v := by
  have hread := (readCount_reads v.toUInt32).bind (f := fun low => do
    let high ← readCount
    pure (low.toUInt64 ||| (high.toUInt64 <<< 32)))
    ((readCount_reads (v >>> 32).toUInt32).bind (Cursor.reads_pure _))
  rw [List.append_nil, ofWords_writeU64Le] at hread
  exact hread

theorem readBackupHeader_reads (b : BackupHeader) : readBackupHeader.Reads (headerBytes b) b := by
  unfold readBackupHeader headerBytes
  apply (readBytes_reads kMagic).bind
  rw [← List.nil_append (b.salt.bytes ++ _)]
  apply (Cursor.reads_check (beq_self_eq_true kMagic)).bind
  apply (readFixed_reads b.salt).bind
  apply (readU64_reads b.ops).bind
  apply (readU64_reads b.mem).bind
  rw [← List.append_nil b.header.bytes]
  exact (readFixed_reads b.header).bind (Cursor.reads_pure _)

/-- A record whose lengths fit their 32-bit fields. -/
def BackupRecord.Fits (r : BackupRecord) : Prop :=
  r.name.length < UInt32.size ∧ r.data.length < UInt32.size

theorem readRecord_reads {r : BackupRecord} (h : r.Fits) : readRecord.Reads (recordBytes r) r := by
  have hname : (UInt32.ofNat r.name.length).toNat = r.name.length := UInt32.toNat_ofNat_of_lt' h.1
  have hdata : (UInt32.ofNat r.data.length).toNat = r.data.length := UInt32.toNat_ofNat_of_lt' h.2
  unfold readRecord recordBytes
  apply (readByte_reads r.kind).bind
  apply (readCount_reads _).bind
  rw [hname]
  apply (readBytes_reads r.name).bind
  apply (readCount_reads _).bind
  have hread := (readBytes_reads r.data).bind (f := fun data =>
    (pure ⟨r.kind, r.name, data⟩ : Cursor UInt8 BackupRecord)) (Cursor.reads_pure _)
  rw [hdata]
  rwa [List.append_nil] at hread

/-- A record whose data is too long announces, and is read with, the first bytes of it. -/
theorem readRecord_long {r : BackupRecord} (hname : r.name.length < UInt32.size) (before after : Bytes) :
    ∃ off, readRecord.read (before ++ (recordBytes r ++ after)) before.length =
      some ({ r with data := r.data.take (r.data.length % UInt32.size) }, off) := by
  have hlt : r.data.length % UInt32.size < UInt32.size := Nat.mod_lt _ (by decide)
  generalize hn : r.data.length % UInt32.size = n at hlt
  have hkept : (r.data.take n).length = n := by
    rw [List.length_take]
    have := Nat.mod_le r.data.length UInt32.size
    omega
  have hcount : UInt32.ofNat r.data.length = UInt32.ofNat n := by
    rw [← hn]
    exact UInt32.ofNat_mod_size.symm
  have hread := readRecord_reads (r := { r with data := r.data.take n })
    ⟨hname, by rw [hkept]; exact hlt⟩ before (r.data.drop n ++ after)
  simp only [recordBytes, hkept, ← hcount, List.append_assoc] at hread
  rw [← List.append_assoc (r.data.take n), List.take_append_drop] at hread
  simp only [recordBytes, List.append_assoc]
  exact ⟨_, hread⟩

theorem readBytes_some {n : Nat} {data bytes : Bytes} {off off' : Nat}
    (h : (readBytes n).read data off = some (bytes, off')) :
    bytes.length = n ∧ off' = off + n ∧ off + n ≤ data.length := by
  unfold readBytes Cursor.field at h
  dsimp only at h
  split at h
  · rename_i hfit
    obtain ⟨rfl, rfl⟩ := Prod.mk.inj (Option.some.inj h)
    refine ⟨?_, rfl, hfit⟩
    rw [id, List.length_take, List.length_drop]
    omega
  · cases h

/-- Every length read fits its field. -/
theorem readRecord_fits {data : Bytes} {off off' : Nat} {r : BackupRecord}
    (h : readRecord.read data off = some (r, off')) : r.Fits := by
  obtain ⟨⟨kind, off₁⟩, _, h⟩ := Option.bind_eq_some_iff.mp h
  obtain ⟨⟨nameLen, off₂⟩, _, h⟩ := Option.bind_eq_some_iff.mp h
  obtain ⟨⟨name, off₃⟩, hname, h⟩ := Option.bind_eq_some_iff.mp h
  obtain ⟨⟨dataLen, off₄⟩, _, h⟩ := Option.bind_eq_some_iff.mp h
  obtain ⟨⟨payload, off₅⟩, hdata, h⟩ := Option.bind_eq_some_iff.mp h
  obtain ⟨rfl, _⟩ := Prod.mk.inj (Option.some.inj h)
  constructor
  · rw [(readBytes_some hname).1]
    exact nameLen.toNat_lt
  · rw [(readBytes_some hdata).1]
    exact dataLen.toNat_lt

theorem readRecord_end (data : Bytes) : readRecord.read data data.length = none := by
  have hbyte : readByte.read data data.length = none := by
    unfold readByte Cursor.field
    dsimp only
    rw [if_neg (by omega)]
  show (readByte.read data data.length).bind _ = none
  rw [hbyte]
  rfl

/-! ## The envelope -/

variable {S : SecretStream} {pwhash : Bytes → FixedBytes 16 → UInt64 → UInt64 → Key}

/-- What an export sealed is opened by every import that can derive a key. -/
theorem openBackup_sealBackup (hS : S.Sound) {env : ExportEnv} {imp : ImportEnv}
    {passphrase plain blob : Bytes} (h : sealBackup S pwhash env passphrase plain = .ok blob)
    (hderived : imp.derived = true) : openBackup S pwhash imp passphrase blob = .ok plain := by
  unfold sealBackup at h
  split at h
  · cases h
  split at h
  · cases h
  rename_i header hheader
  split at h
  · cases h
  rename_i cipher hpush
  split at h
  · cases h
  obtain rfl := Except.ok.inj h
  have hread := (readBackupHeader_reads ⟨env.salt, kOpsLimit, kMemLimit, header⟩).read_zero cipher
  have hlen : ¬ (headerBytes ⟨env.salt, kOpsLimit, kMemLimit, header⟩ ++ cipher).length -
      (headerBytes ⟨env.salt, kOpsLimit, kMemLimit, header⟩).length < streamABytes := by
    rw [List.length_append, hS.length _ _ _ _ hpush]
    omega
  have hbounded : BackupHeader.bounded ⟨env.salt, kOpsLimit, kMemLimit, header⟩ = true := by
    show (kOpsLimit != 0 && kOpsLimit ≤ 16 && 8192 ≤ kMemLimit && kMemLimit ≤ 1024 * 1024 * 1024) = true
    decide
  unfold openBackup
  rw [hread]
  dsimp only
  rw [hbounded, hderived, if_neg hlen, List.drop_left, hS.pull _ _ _ _ hpush]
  rfl

/-! ## The loop -/

/-- The records parsed, and whether the loop got through its count. -/
def parseRecords (plain : Bytes) : Nat → Nat → List BackupRecord × Bool
  | 0, _ => ([], true)
  | left + 1, off =>
      match readRecord.read plain off with
      | none => ([], false)
      | some (r, off) =>
          let rest := parseRecords plain left off
          (r :: rest.1, rest.2)

/-- The actions on the records, up to the first that fails. -/
def applyRecords (S : SecretStream) (env : ImportEnv) :
    List BackupRecord → Nat → Bool → Host → Imported
  | [], _, vue, h => ⟨true, vue, h⟩
  | r :: rs, i, vue, h =>
      let done := importRecord S (env.write i) r vue h
      if done.ok then applyRecords S env rs (i + 1) done.identiteVue done.host else done

/-- What the loop came to, when the parse ended well or not. -/
def Imported.within (done : Imported) (complete : Bool) : Imported :=
  { done with ok := done.ok && complete }

theorem parseRecords_none {plain : Bytes} {off : Nat} (left : Nat)
    (h : readRecord.read plain off = none) : parseRecords plain (left + 1) off = ([], false) := by
  unfold parseRecords
  rw [h]

theorem parseRecords_some {plain : Bytes} {off off' : Nat} {r : BackupRecord} (left : Nat)
    (h : readRecord.read plain off = some (r, off')) :
    parseRecords plain (left + 1) off =
      (r :: (parseRecords plain left off').1, (parseRecords plain left off').2) := by
  conv_lhs => unfold parseRecords
  rw [h]

theorem importRecords_eq (env : ImportEnv) (plain : Bytes) (left i off : Nat) (vue : Bool)
    (h : Host) :
    importRecords S env plain left i off vue h =
      (applyRecords S env (parseRecords plain left off).1 i vue h).within
        (parseRecords plain left off).2 := by
  induction left generalizing i off vue h with
  | zero => rfl
  | succ left ih =>
    cases hread : readRecord.read plain off with
    | none =>
      rw [parseRecords_none left hread]
      unfold importRecords
      rw [hread]
      rfl
    | some next =>
      obtain ⟨r, off'⟩ := next
      rw [parseRecords_some left hread]
      unfold importRecords applyRecords
      rw [hread]
      dsimp only
      split
      · rw [ih]
      · rename_i hok
        rw [Bool.not_eq_true] at hok
        rw [Imported.within, hok, Bool.false_and, ← hok]

theorem parseRecords_fits (plain : Bytes) (left off : Nat) :
    ∀ r ∈ (parseRecords plain left off).1, r.Fits := by
  induction left generalizing off with
  | zero =>
    intro r hr
    cases hr
  | succ left ih =>
    intro r hr
    cases hread : readRecord.read plain off with
    | none =>
      rw [parseRecords_none left hread] at hr
      cases hr
    | some next =>
      obtain ⟨r', off'⟩ := next
      rw [parseRecords_some left hread] at hr
      rcases List.mem_cons.mp hr with rfl | hr
      · exact readRecord_fits hread
      · exact ih off' r hr

/-- A list of records that fit, read with any count. -/
theorem parseRecords_encoded {rs : List BackupRecord} (hfits : ∀ r ∈ rs, r.Fits)
    (before : Bytes) (left : Nat) :
    parseRecords (before ++ rs.flatMap recordBytes) left before.length =
      (rs.take left, decide (left ≤ rs.length)) := by
  induction rs generalizing before left with
  | nil =>
    cases left with
    | zero => rfl
    | succ left =>
      rw [List.flatMap_nil, List.append_nil, parseRecords_none left (readRecord_end before)]
      simp
  | cons r rs ih =>
    cases left with
    | zero => simp [parseRecords]
    | succ left =>
      have hread := readRecord_reads (hfits r List.mem_cons_self) before (rs.flatMap recordBytes)
      have hrest := ih (fun r hr => hfits r (List.mem_cons_of_mem _ hr)) (before ++ recordBytes r) left
      rw [List.append_assoc, List.length_append] at hrest
      rw [List.flatMap_cons, parseRecords_some left hread, hrest, List.take_succ_cons,
        List.length_cons]
      simp

/-- The records of an opened backup, and whether they are all there. -/
def parsedRecords (plain : Bytes) : List BackupRecord × Bool :=
  match readCount.read plain 0 with
  | none => ([], false)
  | some (count, off) => parseRecords plain count.toNat off

theorem parsedRecords_fits (plain : Bytes) : ∀ r ∈ (parsedRecords plain).1, r.Fits := by
  intro r hr
  unfold parsedRecords at hr
  split at hr
  · cases hr
  · exact parseRecords_fits _ _ _ r hr

theorem importPlain_eq (env : ImportEnv) (plain : Bytes) (h : Host) :
    importPlain S env plain h =
      (applyRecords S env (parsedRecords plain).1 0 false h).within (parsedRecords plain).2 := by
  unfold importPlain parsedRecords
  cases readCount.read plain 0 with
  | none => rfl
  | some next => exact importRecords_eq env plain _ 0 _ false h

theorem parsedRecords_count (announced : Nat) (rs : List BackupRecord) :
    parsedRecords (backupPlain announced rs) =
      parseRecords (backupPlain announced rs) (announced % UInt32.size) 4 := by
  have hcount := (readCount_reads (UInt32.ofNat announced)).read_zero (rs.flatMap recordBytes)
  unfold parsedRecords backupPlain
  rw [hcount]
  dsimp only
  rw [length_writeU32Le, UInt32.toNat_ofNat']

/-- As many records as announced, if there are that many. -/
theorem parsedRecords_backupPlain {rs : List BackupRecord} (hfits : ∀ r ∈ rs, r.Fits)
    (announced : Nat) :
    parsedRecords (backupPlain announced rs) =
      (rs.take (announced % UInt32.size), decide (announced % UInt32.size ≤ rs.length)) := by
  rw [parsedRecords_count]
  exact parseRecords_encoded hfits (writeU32Le (UInt32.ofNat announced)) _

theorem parsedRecords_whole {rs : List BackupRecord} (hfits : ∀ r ∈ rs, r.Fits) {announced : Nat}
    (h : announced % UInt32.size = rs.length) :
    parsedRecords (backupPlain announced rs) = (rs, true) := by
  rw [parsedRecords_backupPlain hfits, h, List.take_length, decide_eq_true (Nat.le_refl _)]

/-- The first record, when one is announced, with the part of its data its length says. -/
theorem parsedRecords_head {announced : Nat} (hannounced : announced % UInt32.size ≠ 0)
    {r : BackupRecord} (hname : r.name.length < UInt32.size) (rs : List BackupRecord) :
    ∃ rest, (parsedRecords (backupPlain announced (r :: rs))).1 =
      { r with data := r.data.take (r.data.length % UInt32.size) } :: rest := by
  obtain ⟨off, hread⟩ := readRecord_long hname (writeU32Le (UInt32.ofNat announced))
    (rs.flatMap recordBytes)
  obtain ⟨left, hleft⟩ := Nat.exists_eq_succ_of_ne_zero hannounced
  rw [length_writeU32Le] at hread
  rw [parsedRecords_count, hleft, Nat.succ_eq_add_one]
  unfold backupPlain
  rw [List.flatMap_cons, parseRecords_some left hread]
  exact ⟨_, rfl⟩

end ZiaCrypte.Storage
