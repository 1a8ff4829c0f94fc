import ZiaCrypte.Engine.Symbolic

/-!
# `envelope.dart`: the header of a message

    first message : [1][IK 32][EK 32][hasOtpk 1][OTPK 32][ratchet header]
    later ones    : [0][ratchet header]
    group         : [2]
-/
namespace ZiaCrypte.Chat.Envelope

open ZiaCrypte.Engine

def packGroupHeader : Bytes := [2]

def estGroupe (packed : Bytes) : Bool := packed.head? == some 2

/-- The post-quantum ciphertext has no place in the header. -/
def packHeader (ratchetHeader : Bytes) : Option ZiaHandshakeMaterial → Bytes
  | none => 0 :: ratchetHeader
  | some h =>
      1 :: (h.initiatorIdentityKey.bytes ++ (h.initiatorEphemeralKey.bytes ++
        ((if h.usedOneTimePrekey.isSome then 1 else 0) ::
          ((h.usedOneTimePrekey.getD (FixedBytes.zero 32)).bytes ++ ratchetHeader))))

structure Unpacked where
  handshake : Option ZiaHandshakeMaterial
  ratchetHeader : Bytes

def readHandshake (packed : Bytes) : Unpacked where
  handshake := some
    { initiatorIdentityKey := FixedBytes.copy 32 packed 1
      initiatorEphemeralKey := FixedBytes.copy 32 packed 33
      usedOneTimePrekey :=
        if packed.getD 65 0 = 1 then some (FixedBytes.copy 32 packed 66) else none
      pqCiphertext := none }
  ratchetHeader := packed.drop 98

/-- `none` is the `FormatException` of an empty or truncated header. -/
def unpackHeader (packed : Bytes) : Option Unpacked :=
  match packed with
  | [] => none
  | tag :: rest =>
      if tag = 0 then some ⟨none, rest⟩
      else if packed.length < 98 then none
      else some (readHandshake packed)

theorem unpackHeader_packHeader_none (ratchetHeader : Bytes) :
    unpackHeader (packHeader ratchetHeader none) = some ⟨none, ratchetHeader⟩ := rfl

/-- A header with its fields after the tag. -/
def withFields (tag : UInt8) (ik ek : PublicKey) (flag : UInt8) (last : FixedBytes 32)
    (ratchetHeader : Bytes) : Bytes :=
  tag :: (ik.bytes ++ (ek.bytes ++ (flag :: (last.bytes ++ ratchetHeader))))

theorem packHeader_some (ratchetHeader : Bytes) (h : ZiaHandshakeMaterial) :
    packHeader ratchetHeader (some h) =
      withFields 1 h.initiatorIdentityKey h.initiatorEphemeralKey
        (if h.usedOneTimePrekey.isSome then 1 else 0)
        (h.usedOneTimePrekey.getD (FixedBytes.zero 32)) ratchetHeader := rfl

section Fields

variable (tag : UInt8) (ik ek : PublicKey) (flag : UInt8) (last : FixedBytes 32)
  (ratchetHeader : Bytes)

theorem length_withFields :
    (withFields tag ik ek flag last ratchetHeader).length = 98 + ratchetHeader.length := by
  simp [withFields]
  omega

theorem getD_flag_withFields :
    (withFields tag ik ek flag last ratchetHeader).getD 65 0 = flag := by
  rw [show withFields tag ik ek flag last ratchetHeader =
    (tag :: (ik.bytes ++ ek.bytes)) ++ (flag :: (last.bytes ++ ratchetHeader)) by
      simp [withFields], List.getD_append_right _ _ _ _ (by simp)]
  simp

theorem copy_last_withFields :
    FixedBytes.copy 32 (withFields tag ik ek flag last ratchetHeader) 66 = last := by
  rw [show withFields tag ik ek flag last ratchetHeader =
    (tag :: (ik.bytes ++ (ek.bytes ++ [flag]))) ++ (last.bytes ++ ratchetHeader) by
      simp [withFields]]
  exact FixedBytes.copy_append _ last _ 66 (by simp)

theorem readHandshake_withFields :
    readHandshake (withFields tag ik ek flag last ratchetHeader) =
      ⟨some ⟨ik, ek, if flag = 1 then some last else none, none⟩, ratchetHeader⟩ := by
  have hik : FixedBytes.copy 32 (withFields tag ik ek flag last ratchetHeader) 1 = ik :=
    FixedBytes.copy_append [tag] ik _ 1 rfl
  have hek : FixedBytes.copy 32 (withFields tag ik ek flag last ratchetHeader) 33 = ek := by
    rw [show withFields tag ik ek flag last ratchetHeader =
      (tag :: ik.bytes) ++ (ek.bytes ++ (flag :: (last.bytes ++ ratchetHeader))) by
        simp [withFields]]
    exact FixedBytes.copy_append _ ek _ 33 (by simp)
  have hdrop : (withFields tag ik ek flag last ratchetHeader).drop 98 = ratchetHeader := by
    rw [show withFields tag ik ek flag last ratchetHeader =
      (tag :: (ik.bytes ++ (ek.bytes ++ (flag :: last.bytes)))) ++ ratchetHeader by
        simp [withFields]]
    exact List.drop_left' (by simp)
  rw [readHandshake, hik, hek, hdrop, copy_last_withFields, getD_flag_withFields]

end Fields

/-- A header of 98 bytes or more has the fields. -/
theorem exists_withFields {tag : UInt8} {rest : Bytes} (hlen : 98 ≤ (tag :: rest).length) :
    ∃ ik ek flag last ratchetHeader,
      tag :: rest = withFields tag ik ek flag last ratchetHeader := by
  rw [List.length_cons] at hlen
  have htake : ∀ b : Bytes, 32 ≤ b.length → (b.take 32).length = 32 := by
    intro b hb
    rw [List.length_take]
    omega
  obtain ⟨flag, tail, htail⟩ : ∃ flag tail, rest.drop 64 = flag :: tail := by
    refine List.exists_cons_of_length_pos ?_
    rw [List.length_drop]
    omega
  have htaillen : 32 ≤ tail.length := by
    have hcount := congrArg List.length htail
    rw [List.length_drop, List.length_cons] at hcount
    omega
  refine ⟨⟨rest.take 32, htake _ (by omega)⟩,
    ⟨(rest.drop 32).take 32, htake _ (by rw [List.length_drop]; omega)⟩, flag,
    ⟨tail.take 32, htake _ htaillen⟩, tail.drop 32, ?_⟩
  rw [withFields, List.take_append_drop, ← htail, show 64 = 32 + 32 from rfl, ← List.drop_drop,
    List.take_append_drop, List.take_append_drop]

theorem unpackHeader_of_handshake {packed : Bytes} (hhead : packed.head? = some 1)
    (hlen : 98 ≤ packed.length) : unpackHeader packed = some (readHandshake packed) := by
  cases packed with
  | nil => cases hhead
  | cons tag rest =>
    obtain rfl := Option.some.inj hhead
    rw [unpackHeader, if_neg (by decide), if_neg (Nat.not_lt.mpr hlen)]

/-- A packed header reads back, less the post-quantum ciphertext. -/
theorem unpackHeader_packHeader_some (ratchetHeader : Bytes) (h : ZiaHandshakeMaterial) :
    unpackHeader (packHeader ratchetHeader (some h)) =
      some ⟨some { h with pqCiphertext := none }, ratchetHeader⟩ := by
  have hlen : 98 ≤ (packHeader ratchetHeader (some h)).length := by
    rw [packHeader_some, length_withFields]
    exact Nat.le_add_right 98 _
  rw [unpackHeader_of_handshake rfl hlen, packHeader_some, readHandshake_withFields]
  obtain ⟨ik, ek, otpk, pq⟩ := h
  cases otpk <;> rfl

/-! ## What is read back, and what is written again -/

/-- The header and the handshake come back as they were. -/
def Exact (ratchetHeader : Bytes) (handshake : Option ZiaHandshakeMaterial) : Prop :=
  unpackHeader (packHeader ratchetHeader handshake) = some ⟨handshake, ratchetHeader⟩

/-- What is read from the bytes is written as these bytes. -/
def Reencoded (packed : Bytes) : Prop :=
  ∀ u, unpackHeader packed = some u → packHeader u.ratchetHeader u.handshake = packed

/-- A header that is neither a later one nor too short has the tag 1, and the flag 1, or 0
before a blank prekey. -/
def DefinedFormat (packed : Bytes) : Prop :=
  packed.head? ≠ some 0 → 98 ≤ packed.length → packed.head? = some 1 ∧
    (packed.getD 65 0 = 1 ∨
      packed.getD 65 0 = 0 ∧ FixedBytes.copy 32 packed 66 = FixedBytes.zero 32)

theorem exact_iff (ratchetHeader : Bytes) (handshake : Option ZiaHandshakeMaterial) :
    Exact ratchetHeader handshake ↔ ∀ h ∈ handshake, h.pqCiphertext = none := by
  unfold Exact
  cases handshake with
  | none =>
    rw [unpackHeader_packHeader_none]
    simp
  | some h =>
    rw [unpackHeader_packHeader_some]
    obtain ⟨ik, ek, otpk, pq⟩ := h
    simp [eq_comm]

theorem packHeader_fields_iff (tag : UInt8) (ik ek : PublicKey) (flag : UInt8)
    (last : FixedBytes 32) (ratchetHeader : Bytes) :
    packHeader ratchetHeader (some ⟨ik, ek, if flag = 1 then some last else none, none⟩) =
        withFields tag ik ek flag last ratchetHeader ↔
      tag = 1 ∧ (flag = 1 ∨ flag = 0 ∧ last = FixedBytes.zero 32) := by
  rw [packHeader_some]
  by_cases hflag : flag = 1
  · subst hflag
    simp [withFields, eq_comm]
  · have hlast : last.bytes = (FixedBytes.zero 32).bytes ↔ last = FixedBytes.zero 32 :=
      ⟨FixedBytes.ext_bytes, congrArg FixedBytes.bytes⟩
    simp [withFields, hflag, hlast, eq_comm]

theorem reencoded_iff (packed : Bytes) : Reencoded packed ↔ DefinedFormat packed := by
  unfold Reencoded DefinedFormat
  cases packed with
  | nil => simp [unpackHeader]
  | cons tag rest =>
    by_cases htag : tag = 0
    · subst htag
      simp [unpackHeader, packHeader]
    · by_cases hlen : 98 ≤ (tag :: rest).length
      · obtain ⟨ik, ek, flag, last, ratchetHeader, hfields⟩ := exists_withFields hlen
        have hread : unpackHeader (tag :: rest) =
            some ⟨some ⟨ik, ek, if flag = 1 then some last else none, none⟩, ratchetHeader⟩ := by
          rw [unpackHeader, if_neg htag, if_neg (Nat.not_lt.mpr hlen), hfields,
            readHandshake_withFields]
        have hhead : (withFields tag ik ek flag last ratchetHeader).head? = some tag := rfl
        have hzero : (withFields tag ik ek flag last ratchetHeader).head? ≠ some 0 := by
          rw [hhead]
          exact fun h => htag (Option.some.inj h)
        rw [hread, hfields, getD_flag_withFields, copy_last_withFields, ← hfields]
        simp only [Option.some.injEq, forall_eq']
        rw [hfields, packHeader_fields_iff]
        constructor
        · exact fun h _ _ => ⟨hhead.trans (congrArg some h.1), h.2⟩
        · intro h
          obtain ⟨hone, hrest⟩ := h hzero (hfields ▸ hlen)
          exact ⟨Option.some.inj (hhead.symm.trans hone), hrest⟩
      · have hnone : unpackHeader (tag :: rest) = none := by
          rw [unpackHeader, if_neg htag, if_pos (Nat.lt_of_not_le hlen)]
        rw [hnone]
        exact ⟨fun _ _ hlong => absurd hlong hlen, fun _ u hu => by cases hu⟩

/-- A header and a handshake come back as they were exactly where there is no post-quantum
ciphertext; and bytes are written as they were read exactly where their tag and their flag
are those of the format. -/
theorem envelope_iff (ratchetHeader : Bytes) (handshake : Option ZiaHandshakeMaterial)
    (packed : Bytes) :
    (Exact ratchetHeader handshake ↔ ∀ h ∈ handshake, h.pqCiphertext = none) ∧
      (Reencoded packed ↔ DefinedFormat packed) :=
  ⟨exact_iff ratchetHeader handshake, reencoded_iff packed⟩

/-- A peer that has migrated. -/
def hybridBundle : ZiaPrekeyBundle where
  identityKey := FixedBytes.zero 32
  signedPrekey := FixedBytes.zero 32
  signedPrekeySignature := []
  oneTimePrekey := none
  pqPrekey := some ([], [])

def hybridEngine : ZiaEngine Bytes where
  identityPublic := FixedBytes.zero 32
  identityPrivate := []
  signedPrekey := none
  pqPrekey := none
  oneTimePrekeys := []
  requirePq := false

/-- The tag 3, and no keys. -/
def strangeTag : Bytes := 3 :: List.replicate 97 0

/-- The handshake of a hybrid session loses its ciphertext, and the tag 3 is taken for 1. -/
theorem hybrid_lost :
    (∃ s h, ziaSessionFromBundle symbolic ⟨[1], [2], ⟨[3], [], [], true⟩⟩ hybridEngine
        hybridBundle = .ok (s, h) ∧
      ¬ Exact (encodeHeader ⟨0, 0, FixedBytes.zero 32⟩) (some h)) ∧
    (unpackHeader strangeTag).isSome ∧ ¬ Reencoded strangeTag := by
  refine ⟨⟨_, _, rfl, fun h => ?_⟩, rfl, fun h => ?_⟩
  · cases (exact_iff _ _).mp h _ rfl
  · obtain ⟨htag, -⟩ := (reencoded_iff _).mp h (by decide) (by decide)
    exact absurd htag (by decide)

end ZiaCrypte.Chat.Envelope
