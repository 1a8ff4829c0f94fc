import ZiaCrypte.Inbox.Utf8
import ZiaCrypte.Lib.Base64

/-!
# `_lienCanal` and `_analyserLien`

The id, the secret and the name stand behind each other, and the parser looks for the first
`#` and the first `.` after it.
-/
namespace ZiaCrypte.Channels

open ZiaCrypte.Engine ZiaCrypte.Inbox ZiaCrypte.Lib

def schemeCanal : Text := text "ziacrypte://canal/"

def lienCanal (id : Text) (secret : Bytes) (nom : Text) : Text :=
  schemeCanal ++ id ++ 0x23 :: (Base64.encode true secret ++ 0x2E :: Base64.encode true (utf8 nom))

/-- What stands before and behind the first such sign, unless the text begins with it. -/
def couper (t : Text) (signe : UInt16) : Option (Text × Text) :=
  match t.idxOf? signe with
  | none => none
  | some 0 => none
  | some i => some (t.take i, t.drop (i + 1))

def analyserLien (lien : Text) : Option (Text × Bytes × Text) := do
  if !schemeCanal.isPrefixOf lien then none
  else
    let reste := lien.drop schemeCanal.length
    let (id, frag) ← couper reste 0x23
    let (avant, apres) ← couper frag 0x2E
    let secret ← Base64.decode avant
    let nom ← (Base64.decode apres).bind utf8Decode
    if secret.length ≠ 32 then none else some (id, secret, nom)

/-! ## The first sign -/

theorem idxOf?_append {signe : UInt16} {avant : Text} (h : signe ∉ avant) (apres : Text) :
    (avant ++ signe :: apres).idxOf? signe = some avant.length := by
  induction avant with
  | nil => simp [List.idxOf?_cons]
  | cons c avant ih =>
    have hc : ¬ (c == signe) = true := fun hc => h (beq_iff_eq.mp hc ▸ List.mem_cons_self)
    have hrest : signe ∉ avant := fun hmem => h (List.mem_cons_of_mem c hmem)
    rw [List.cons_append, List.idxOf?_cons, if_neg hc, ih hrest]
    rfl

theorem couper_append {signe : UInt16} {avant : Text} (h : signe ∉ avant) (hne : avant ≠ [])
    (apres : Text) : couper (avant ++ signe :: apres) signe = some (avant, apres) := by
  have hlength : avant.length ≠ 0 := fun h0 => hne (List.length_eq_zero_iff.mp h0)
  obtain ⟨n, hn⟩ := Nat.exists_eq_add_one_of_ne_zero hlength
  unfold couper
  rw [idxOf?_append h, hn]
  change some (_, _) = _
  rw [← hn, List.take_left, List.drop_length_add_append]
  rfl

/-- A sign at the start separates nothing. -/
theorem couper_cons (signe : UInt16) (apres : Text) : couper (signe :: apres) signe = none := by
  unfold couper
  simp [List.idxOf?_cons]

/-! ## Links -/

/-- The parser reads from the link of a channel its id and its secret, and the name as far as
UTF-8 keeps it. -/
theorem analyserLien_lienCanal {id : Text} {secret : Bytes} (hid : id ≠ []) (hdiese : 0x23 ∉ id)
    (hsecret : secret.length = 32) (nom : Text) :
    analyserLien (lienCanal id secret nom) =
      (utf8Decode (utf8 nom)).map fun nom => (id, secret, nom) := by
  have hentete : schemeCanal.isPrefixOf (lienCanal id secret nom) = true := by
    unfold lienCanal
    rw [List.append_assoc]
    exact List.isPrefixOf_iff_prefix.mpr (List.prefix_append _ _)
  have hreste : (lienCanal id secret nom).drop schemeCanal.length =
      id ++ 0x23 :: (Base64.encode true secret ++ 0x2E :: Base64.encode true (utf8 nom)) := by
    unfold lienCanal
    rw [List.append_assoc, List.drop_left]
  have hne : secret ≠ [] := by
    rintro rfl
    cases hsecret
  have hpoint : (0x2E : UInt16) ∉ Base64.encode true secret :=
    Base64.not_mem_encode true (by decide) (by decide) secret
  unfold analyserLien
  simp only [hentete, hreste, couper_append hdiese hid, Bool.not_true, Bool.false_eq_true,
    if_false, Option.bind_eq_bind, Option.bind_some,
    couper_append hpoint (Base64.encode_ne_nil true hne), Base64.decode_encode, hsecret,
    ne_eq, not_true_eq_false]
  cases utf8Decode (utf8 nom) <;> rfl

/-- A link without an id is refused. -/
theorem analyserLien_sans_id (secret : Bytes) (nom : Text) :
    analyserLien (lienCanal [] secret nom) = none := by
  have hreste : (lienCanal [] secret nom).drop schemeCanal.length =
      0x23 :: (Base64.encode true secret ++ 0x2E :: Base64.encode true (utf8 nom)) := by
    unfold lienCanal
    rw [List.append_nil, List.drop_left]
  unfold analyserLien
  split
  · rfl
  · simp only [hreste, couper_cons, Option.bind_eq_bind, Option.bind_none]

/-- The secret of a link that is accepted has its length. -/
theorem analyserLien_secret {lien id nom : Text} {secret : Bytes}
    (h : analyserLien lien = some (id, secret, nom)) : secret.length = 32 := by
  unfold analyserLien at h
  split at h
  · cases h
  · obtain ⟨⟨id', frag⟩, -, h⟩ := Option.bind_eq_some_iff.mp h
    obtain ⟨⟨avant, apres⟩, -, h⟩ := Option.bind_eq_some_iff.mp h
    obtain ⟨secret', -, h⟩ := Option.bind_eq_some_iff.mp h
    obtain ⟨nom', -, h⟩ := Option.bind_eq_some_iff.mp h
    split at h
    · cases h
    · rename_i hlength
      obtain ⟨-, hrest⟩ := Prod.mk.inj (Option.some.inj h)
      obtain ⟨rfl, -⟩ := Prod.mk.inj hrest
      exact Decidable.not_not.mp hlength

/-- A link leads back to what it was made of if and only if it has an id and its name is
well formed and without a mark at its start; and a secret is taken from a link with its
length, or not at all. -/
theorem lienCanal_aller_retour :
    (∀ (id : Text) (secret : Bytes) (nom : Text), 0x23 ∉ id → secret.length = 32 →
      (analyserLien (lienCanal id secret nom) = some (id, secret, nom) ↔
        id ≠ [] ∧ isWellFormed nom = true ∧ nom.head? ≠ some BOM)) ∧
    ∀ lien, ∀ x ∈ analyserLien lien, x.2.1.length = 32 := by
  refine ⟨fun id secret nom hdiese hsecret => ?_, fun lien x hx => ?_⟩
  · by_cases hid : id = []
    · subst hid
      rw [analyserLien_sans_id]
      exact ⟨fun h => (by cases h), fun h => absurd rfl h.1⟩
    · rw [analyserLien_lienCanal hid hdiese hsecret, and_iff_right hid, ← utf8Decode_utf8_iff]
      constructor
      · intro h
        obtain ⟨nom', hnom', heq⟩ := Option.map_eq_some_iff.mp h
        obtain ⟨-, heq⟩ := Prod.mk.inj heq
        obtain ⟨-, rfl⟩ := Prod.mk.inj heq
        exact hnom'
      · intro h
        rw [h]
        rfl
  · exact analyserLien_secret hx

theorem lienCanal_actualites :
    analyserLien (lienCanal (text "c1") (List.replicate 32 7) (text "Actus #1.")) =
      some (text "c1", List.replicate 32 7, text "Actus #1.") :=
  (lienCanal_aller_retour.1 (text "c1") (List.replicate 32 7) (text "Actus #1.") (by decide)
    rfl).mpr ⟨by decide, by decide, by decide⟩

/-- A byte order mark at the start of a name does not come back. -/
theorem lienCanal_marque :
    (0x23 : UInt16) ∉ text "c1" ∧ (List.replicate 32 (7 : UInt8)).length = 32 ∧
      analyserLien (lienCanal (text "c1") (List.replicate 32 7) (BOM :: text "Actus")) ≠
        some (text "c1", List.replicate 32 7, BOM :: text "Actus") := by
  have hread : utf8Decode (utf8 (BOM :: text "Actus")) = some (text "Actus") := by
    decide
  refine ⟨by decide, rfl, ?_⟩
  rw [analyserLien_lienCanal (by decide) (by decide) rfl, hread]
  exact fun h => absurd (congrArg (Option.map fun x => x.2.2) h) (by decide)

end ZiaCrypte.Channels
