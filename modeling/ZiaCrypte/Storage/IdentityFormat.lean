import ZiaCrypte.Storage.IdentityStore

/-!
# The identity format: round trip, both versions, nothing else

What `serialize_identity` writes is read back field for field into any engine.
An accepted buffer stops being accepted when a byte is cut off its end or added
to it. The count of one-time prekeys is a 32-bit word, and an engine with more of
them is written as a buffer that is refused.
-/
namespace ZiaCrypte.Storage

open ZiaCrypte.Lib ZiaCrypte.Engine

/-- `t` with everything the format carries taken from `e`. -/
def ZiaEngine.restoredInto (e t : ZiaEngine) : ZiaEngine :=
  { e.withIdentityOf t with
    signedPrekey := e.signedPrekey
    pqPrekey := e.pqPrekey
    oneTimePrekeys := e.oneTimePrekeys }

/-- `e` as version 1 knew it. -/
def ZiaEngine.withoutPq (e : ZiaEngine) : ZiaEngine := { e with pqPrekey := none }

/-- The part of both versions that stands after the version byte. -/
theorem fillIdentity_reads {v : UInt8} (hversion : knownVersion v = true)
    {e : ZiaEngine} {identity pqSection : Bytes} {pq : Option ZiaPqPrekey}
    (hidentity : identityBytes e = some identity)
    (hpq : (fillPqPrekey v).Reads pqSection () fun t =>
      { t with pqPrekey := pq.or t.pqPrekey })
    (hlen : e.oneTimePrekeys.length < UInt32.size) :
    fillIdentity.Reads ([v] ++ (identity ++ (optionalBytes signedPrekeyBytes e.signedPrekey ++
      (pqSection ++ oneTimePrekeysBytes e.oneTimePrekeys)))) ()
      (({ e with pqPrekey := pq } : ZiaEngine).restoredInto) := by
  have htail : Filler.Reads (do fillPqPrekey v; fillOneTimePrekeys)
      (pqSection ++ oneTimePrekeysBytes e.oneTimePrekeys) () fun t =>
        { t with pqPrekey := pq.or t.pqPrekey, oneTimePrekeys := e.oneTimePrekeys } :=
    hpq.bind (fillOneTimePrekeys_reads hlen) fun _ => rfl
  unfold fillIdentity
  apply (Filler.reads_read (readByte_reads v)).bind
  · apply (Filler.reads_check hversion).bind_nil
    · apply (fillIdentityKeys_reads hidentity).bind
      · apply (fillSignedPrekey_reads e.signedPrekey).bind
        · apply (Filler.reads_write _).bind_nil
            (h := fun t => { t with pqPrekey := pq, oneTimePrekeys := e.oneTimePrekeys })
          · exact htail
          · exact fun t => by rw [Option.or_none]
        · exact fun _ => rfl
      · exact fun _ => rfl
    · exact fun _ => rfl
  · exact fun _ => rfl

/-- `e` with the one-time prekeys its 32-bit count announces. -/
def ZiaEngine.announced (e : ZiaEngine) : ZiaEngine :=
  { e with oneTimePrekeys := e.oneTimePrekeys.take (e.oneTimePrekeys.length % UInt32.size) }

theorem ZiaEngine.announced_eq {e : ZiaEngine} (h : e.oneTimePrekeys.length < UInt32.size) :
    e.announced = e := by
  rw [announced, Nat.mod_eq_of_lt h, List.take_length]

/-- What `serialize_identity` wrote is read back up to the prekeys it announces,
and accepted when these are all. -/
theorem deserializeIdentity_serialized {e : ZiaEngine} {data : Bytes}
    (h : serializeIdentity e = some data) (t : ZiaEngine) :
    deserializeIdentity data t =
      (decide (e.oneTimePrekeys.length < UInt32.size), e.announced.restoredInto t) := by
  obtain ⟨identity, hidentity, hdata⟩ := Option.bind_eq_some_iff.mp h
  obtain rfl := Option.some.inj hdata
  by_cases hlen : e.oneTimePrekeys.length < UInt32.size
  · rw [e.announced_eq hlen, decide_eq_true hlen]
    exact (fillIdentity_reads (by decide) hidentity (fillPqPrekey_reads e.pqPrekey) hlen).parse_eq t
  · rw [decide_eq_false hlen]
    have hlt : e.oneTimePrekeys.length % UInt32.size < UInt32.size := Nat.mod_lt _ (by decide)
    unfold ZiaEngine.announced
    generalize hn : e.oneTimePrekeys.length % UInt32.size = n at hlt
    have hkept : (e.oneTimePrekeys.take n).length = n := by
      rw [List.length_take]
      omega
    have hrest : (e.oneTimePrekeys.drop n).flatMap oneTimePrekeyBytes ≠ [] := by
      cases hdrop : e.oneTimePrekeys.drop n with
      | nil =>
        have hall := congrArg List.length hdrop
        rw [List.length_drop, List.length_nil] at hall
        omega
      | cons otpk otpks =>
        intro hnil
        have hbytes := congrArg List.length hnil
        simp [oneTimePrekeyBytes] at hbytes
    have hcount : UInt32.ofNat e.oneTimePrekeys.length = UInt32.ofNat n := by
      rw [← hn]
      exact UInt32.ofNat_mod_size.symm
    have hrefused := (fillIdentity_reads (v := 2) (by decide)
      (e := { e with oneTimePrekeys := e.oneTimePrekeys.take n }) hidentity
      (fillPqPrekey_reads e.pqPrekey) (by rw [hkept]; exact hlt)).parse_append hrest t
    simp only [oneTimePrekeysBytes, hkept, List.append_assoc, ← List.flatMap_append,
      List.take_append_drop, ← hcount] at hrefused
    exact hrefused

/-- With fewer than 2^32 one-time prekeys it is all there, whatever the engine it is
read into held before. -/
theorem deserializeIdentity_serializeIdentity {e : ZiaEngine} {data : Bytes}
    (h : serializeIdentity e = some data) (hlen : e.oneTimePrekeys.length < UInt32.size)
    (t : ZiaEngine) : deserializeIdentity data t = (true, e.restoredInto t) := by
  rw [deserializeIdentity_serialized h, e.announced_eq hlen, decide_eq_true hlen]

theorem deserializeIdentity_serializeIdentityV1 {e : ZiaEngine} {data : Bytes}
    (h : serializeIdentityV1 e = some data) (hlen : e.oneTimePrekeys.length < UInt32.size)
    (t : ZiaEngine) : deserializeIdentity data t = (true, e.withoutPq.restoredInto t) := by
  obtain ⟨identity, hidentity, hdata⟩ := Option.bind_eq_some_iff.mp h
  obtain rfl := Option.some.inj hdata
  have hnone : (fillPqPrekey 1).Reads [] () fun t =>
      { t with pqPrekey := (none : Option ZiaPqPrekey).or t.pqPrekey } := Filler.reads_pure ()
  exact (fillIdentity_reads (by decide) hidentity hnone hlen).parse_eq t

/-! ## What is refused -/

theorem deserializeIdentity_unknownVersion {version : UInt8} (h : knownVersion version = false)
    (rest : Bytes) (t : ZiaEngine) : (deserializeIdentity (version :: rest) t).1 = false := by
  apply Filler.parse_none
  apply Filler.bind_read_none (Cursor.Reads.read_zero (Filler.reads_read (readByte_reads version)) rest)
  rw [h]
  rfl

theorem knownVersion_iff (version : UInt8) :
    knownVersion version = true ↔ version = 1 ∨ version = 2 := by
  simp only [knownVersion, kFormatVersion, Bool.and_eq_true, decide_eq_true_eq, UInt8.le_iff_toNat_le,
    ← UInt8.toNat_inj]
  have h1 : (1 : UInt8).toNat = 1 := rfl
  have h2 : (2 : UInt8).toNat = 2 := rfl
  omega

/-! ## What is accepted -/

/-- The flag is the one given, and the private half is there when it is set. -/
def ZiaEngine.Keyed (flag : Bool) (e : ZiaEngine) : Prop :=
  e.hasIdentity = flag ∧ (flag = true → e.identityPrivate.isSome)

theorem fillIdentityPrivate_keyed (flag : Bool) :
    Filler.Triple (fun t : ZiaEngine => t.hasIdentity = flag) (fillIdentityPrivate flag)
      fun _ => ZiaEngine.Keyed flag := by
  cases flag with
  | true =>
    refine Filler.Triple.bind (R := fun _ t => t.hasIdentity = true)
      (Filler.triple_write fun t ht => ht) fun _ => ?_
    exact (Filler.triple_read _).bind fun priv => Filler.triple_write fun t ht => ⟨ht, fun _ => rfl⟩
  | false =>
    refine Filler.Triple.weaken (P := fun t : ZiaEngine => t.hasIdentity = false) (Filler.triple_pure ()) ?_
    exact fun _ t ht => ⟨ht, fun h => absurd h Bool.false_ne_true⟩

theorem fillSignedPrekey_keyed (flag : Bool) :
    Filler.Triple (ZiaEngine.Keyed flag) fillSignedPrekey fun _ => ZiaEngine.Keyed flag := by
  refine Filler.Triple.bind (Filler.triple_read _) fun present => ?_
  unfold fillPresentSignedPrekey
  split
  · exact (Filler.triple_read _).bind fun spk => Filler.triple_write fun t ht => ht
  · exact Filler.triple_write fun t ht => ht

theorem fillPqPrekey_keyed (flag : Bool) (version : UInt8) :
    Filler.Triple (ZiaEngine.Keyed flag) (fillPqPrekey version) fun _ => ZiaEngine.Keyed flag := by
  unfold fillPqPrekey
  split
  · refine Filler.Triple.bind (Filler.triple_read _) fun present => ?_
    unfold fillPresentPqPrekey
    split
    · exact (Filler.triple_read _).bind fun pq => Filler.triple_write fun t ht => ht
    · exact Filler.triple_pure ()
  · exact Filler.triple_pure ()

/-- The loop counts what it pushes, up to a 32-bit count. -/
theorem fillOneTimePrekeys_keyed (flag : Bool) :
    Filler.Triple (ZiaEngine.Keyed flag) fillOneTimePrekeys fun _ t =>
      t.Keyed flag ∧ t.oneTimePrekeys.length < UInt32.size := by
  refine Filler.Triple.bind (Filler.triple_read _) fun count => ?_
  refine Filler.Triple.bind (R := fun _ t => t.Keyed flag ∧ t.oneTimePrekeys.length = 0)
    (Filler.triple_write fun t ht => ⟨ht, rfl⟩) fun _ => ?_
  have hround : ∀ n, Filler.Triple
      (fun t : ZiaEngine => t.Keyed flag ∧ t.oneTimePrekeys.length = n) fillOneTimePrekey
      fun _ t => t.Keyed flag ∧ t.oneTimePrekeys.length = n + 1 := by
    intro n
    exact (Filler.triple_read _).bind fun otpk => Filler.triple_write fun t ht =>
      ⟨ht.1, by simp [ht.2]⟩
  intro data off x f off' hread t ht
  obtain ⟨hkeyed, hlen⟩ := Filler.Triple.repeated hround count.toNat 0 data off x f off' hread t ht
  exact ⟨hkeyed, by rw [hlen, Nat.zero_add]; exact count.toNat_lt⟩

theorem readByte_read {data : Bytes} {off off' : Nat} {b : UInt8}
    (h : readByte.read data off = some (b, off')) : b = data.getD off 0 ∧ off' = off + 1 := by
  unfold readByte Cursor.field at h
  dsimp only at h
  split at h
  · rename_i hfit
    obtain ⟨rfl, rfl⟩ := Prod.mk.inj (Option.some.inj h)
    refine ⟨?_, rfl⟩
    rw [List.getD_eq_getElem?_getD, List.getD_eq_getElem?_getD, List.getElem?_take_of_lt (by decide),
      List.getElem?_drop, Nat.add_zero]
  · cases h

/-- The identity section once its flag is read. -/
theorem fillIdentityKeys_keyed (flag : Bool) :
    Filler.Triple (fun _ : ZiaEngine => True)
      (do
        .write fun e => { e with hasIdentity := flag }
        let identityPublic ← .read (readFixed 32)
        .write fun e => { e with identityPublic := identityPublic }
        fillIdentityPrivate flag)
      fun _ => ZiaEngine.Keyed flag := by
  refine Filler.Triple.bind (R := fun _ t => t.hasIdentity = flag)
    (Filler.triple_write fun t _ => rfl) fun _ => ?_
  refine Filler.Triple.bind (Filler.triple_read _) fun identityPublic => ?_
  refine Filler.Triple.bind (R := fun _ t => t.hasIdentity = flag)
    (Filler.triple_write fun t ht => ht) fun _ => ?_
  exact fillIdentityPrivate_keyed flag

/-- The sections after it. -/
theorem fillSections_keyed (version : UInt8) (flag : Bool) :
    Filler.Triple (ZiaEngine.Keyed flag)
      (do
        fillSignedPrekey
        .write fun e => { e with pqPrekey := none }
        fillPqPrekey version
        fillOneTimePrekeys)
      fun _ t => t.Keyed flag ∧ t.oneTimePrekeys.length < UInt32.size := by
  refine Filler.Triple.bind (fillSignedPrekey_keyed flag) fun _ => ?_
  refine Filler.Triple.bind (R := fun _ => ZiaEngine.Keyed flag)
    (Filler.triple_write fun t ht => ht) fun _ => ?_
  exact (fillPqPrekey_keyed flag version).bind fun _ => fillOneTimePrekeys_keyed flag

/-- The second byte of an accepted buffer says whether there is an identity; its
private half is then there, and the one-time prekeys are fewer than 2^32. -/
theorem deserializeIdentity_accepted {data : Bytes} {t : ZiaEngine}
    (hacc : (deserializeIdentity data t).1 = true) :
    (deserializeIdentity data t).2.Keyed (data.getD 1 0 != 0) ∧
      (deserializeIdentity data t).2.oneTimePrekeys.length < UInt32.size := by
  obtain ⟨f, hf⟩ := Filler.parse_accepts_iff.mp hacc
  rw [deserializeIdentity, Filler.parse_accepted hf]
  obtain ⟨version, _, g, _, hversion, hrest, rfl⟩ :=
    Filler.bind_read_some (Cursor.parse_eq_some.mp hf)
  obtain ⟨_, rfl⟩ := readByte_read (Filler.read_some hversion).1
  obtain ⟨_, _, _, _, hcheck, hrest, rfl⟩ := Filler.bind_read_some hrest
  obtain ⟨_, rfl⟩ := Filler.check_some hcheck
  obtain ⟨_, _, _, _, hkeys, htail, rfl⟩ := Filler.bind_read_some hrest
  obtain ⟨flag, _, _, _, hflag, hkeys, rfl⟩ := Filler.bind_read_some hkeys
  obtain ⟨rfl, rfl⟩ := readByte_read (Filler.read_some hflag).1
  have hkeyed := fillIdentityKeys_keyed _ _ _ _ _ _ hkeys
  exact fillSections_keyed version _ _ _ _ _ _ htail _ (hkeyed _ trivial)

/-! ## The format -/

/-- The private half is there whenever the flag says so. -/
def ZiaEngine.KeyPresent (e : ZiaEngine) : Prop := e.hasIdentity = true → e.identityPrivate.isSome

theorem serializeIdentity_isSome {e : ZiaEngine} (h : e.KeyPresent) :
    ∃ data, serializeIdentity e = some data := by
  have hidentity : ∃ bytes, identityBytes e = some bytes := by
    unfold identityBytes
    split
    · rename_i hflag
      obtain ⟨priv, hpriv⟩ := Option.isSome_iff_exists.mp (h hflag)
      exact ⟨_, by rw [hpriv, Option.map_some]⟩
    · exact ⟨_, rfl⟩
  obtain ⟨bytes, hbytes⟩ := hidentity
  exact ⟨_, by rw [serializeIdentity, hbytes]; rfl⟩

theorem serializeIdentity_keyPresent {e : ZiaEngine} {data : Bytes}
    (h : serializeIdentity e = some data) : e.KeyPresent := by
  obtain ⟨identity, hidentity, _⟩ := Option.bind_eq_some_iff.mp h
  intro hflag
  rw [identityBytes, if_pos hflag] at hidentity
  obtain ⟨priv, hpriv, _⟩ := Option.map_eq_some_iff.mp hidentity
  rw [hpriv]
  rfl

theorem ZiaEngine.KeyPresent.restoredInto {e : ZiaEngine} (h : e.KeyPresent) (t : ZiaEngine) :
    (e.restoredInto t).KeyPresent := by
  intro hflag
  have hsame : (e.restoredInto t).identityPrivate = e.identityPrivate := if_pos hflag
  rw [hsame]
  exact h hflag

/-- An engine with fewer than 2^32 one-time prekeys comes back from its bytes, into
any engine; a version 1 buffer comes back without a post-quantum prekey; of an
accepted buffer no strict prefix and no strict extension is accepted, and no other
version is. -/
theorem identityFormat_exact :
    (∀ e : ZiaEngine, e.KeyPresent → e.oneTimePrekeys.length < UInt32.size →
      ∃ data, serializeIdentity e = some data ∧
        ∀ t, deserializeIdentity data t = (true, e.restoredInto t)) ∧
    (∀ e data t, serializeIdentityV1 e = some data → e.oneTimePrekeys.length < UInt32.size →
      deserializeIdentity data t = (true, e.withoutPq.restoredInto t)) ∧
    (∀ data t, (deserializeIdentity data t).1 = true →
      (∀ ext t', ext ≠ [] → (deserializeIdentity (data ++ ext) t').1 = false) ∧
      ∀ cut rest t', data = cut ++ rest → rest ≠ [] → (deserializeIdentity cut t').1 = false) ∧
    ∀ version rest t, version ≠ 1 → version ≠ 2 →
      (deserializeIdentity (version :: rest) t).1 = false := by
  refine ⟨?_, ?_, ?_, ?_⟩
  · intro e hkey hlen
    obtain ⟨data, hdata⟩ := serializeIdentity_isSome hkey
    exact ⟨data, hdata, deserializeIdentity_serializeIdentity hdata hlen⟩
  · intro e data t hdata hlen
    exact deserializeIdentity_serializeIdentityV1 hdata hlen t
  · intro data t hacc
    refine ⟨fun ext t' hext => Filler.parse_append hacc hext t', ?_⟩
    rintro cut rest t' rfl hrest
    exact Filler.parse_take hacc hrest t'
  · intro version rest t h1 h2
    apply deserializeIdentity_unknownVersion
    rw [Bool.eq_false_iff]
    intro hknown
    rcases (knownVersion_iff version).mp hknown with h | h
    · exact h1 h
    · exact h2 h

/-- An engine with one prekey more than the count can say. -/
def crowdedEngine : ZiaEngine :=
  { ZiaEngine.new with
    oneTimePrekeys := List.replicate UInt32.size ⟨FixedBytes.zero 32, keyZero, false⟩ }

theorem crowdedEngine_refused : ∃ data, serializeIdentity crowdedEngine = some data ∧
    ∀ t, (deserializeIdentity data t).1 = false := by
  obtain ⟨data, hdata⟩ := serializeIdentity_isSome (e := crowdedEngine) (by
    intro h
    cases h)
  refine ⟨data, hdata, fun t => ?_⟩
  have hlen : crowdedEngine.oneTimePrekeys.length = UInt32.size := List.length_replicate
  rw [deserializeIdentity_serialized hdata, hlen]
  exact decide_eq_false (Nat.lt_irrefl UInt32.size)

end ZiaCrypte.Storage
