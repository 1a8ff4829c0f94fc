import ZiaCrypte.Inbox.Payloads
import ZiaCrypte.Inbox.SavedRecords

/-!
# Contents between two devices

`jsonEncode` and `utf8.encode` on the one side, `utf8.decode` and `jsonDecode` on the other.
The encoder escapes half a surrogate pair, so what it writes is well formed whatever the
text, and the padding is white space behind an object.
-/
namespace ZiaCrypte.Inbox

open ZiaCrypte.Lib ZiaCrypte.Engine

/-- `jsonEncode` and `utf8.encode` -/
def encodeursDart : Encodeurs := ⟨jsonEncode, utf8⟩

/-- The decoders of a device, on what is well formed. -/
structure DecodeursDart {E : Type} (double : Text → Option Int) (P : Platform E) : Prop where
  jsonDecode : P.jsonDecode = Inbox.jsonDecode double
  utf8Decode : ∀ b t, utf8Decode b = some t → P.utf8DecodeMalformed b = t

/-! ## Code units that stand alone -/

/-- None is half of a pair. -/
def SansPaire (t : Text) : Prop := ∀ c ∈ t, isSurrogate c = false

theorem SansPaire.bienForme {t : Text} (h : SansPaire t) : isWellFormed t = true := by
  induction t with
  | nil => rfl
  | cons c t ih =>
    exact isWellFormed_cons (h c List.mem_cons_self) (ih fun d hd => h d (List.mem_cons_of_mem c hd))

theorem isSurrogate_of_lt {c : UInt16} (h : c.toNat < 0xD800) : isSurrogate c = false := by
  rw [← Bool.not_eq_true, isSurrogate_iff]
  omega

theorem isSurrogate_hexDigit {n : Nat} (h : n < 16) : isSurrogate (hexDigit n) = false := by
  have hall : ∀ n < 16, isSurrogate (hexDigit n) = false := by decide
  exact hall n h

theorem sansPaire_echappementU (c : UInt16) : SansPaire (echappementU c) := by
  have hc : c.toNat < 65536 := c.toNat_lt
  have h1 : c.toNat / 4096 < 16 := by omega
  have h2 : c.toNat / 256 % 16 < 16 := Nat.mod_lt _ (by decide)
  have h3 : c.toNat / 16 % 16 < 16 := Nat.mod_lt _ (by decide)
  have h4 : c.toNat % 16 < 16 := Nat.mod_lt _ (by decide)
  simp only [SansPaire, echappementU, List.forall_mem_cons]
  exact ⟨rfl, rfl, isSurrogate_hexDigit h1, isSurrogate_hexDigit h2, isSurrogate_hexDigit h3,
    isSurrogate_hexDigit h4, fun d hd => by cases hd⟩

theorem isSurrogate_eq (c : UInt16) : isSurrogate c = (estTete c || estQueue c) := by
  rw [Bool.eq_iff_iff, isSurrogate_iff]
  simp only [estTete, estQueue, Bool.or_eq_true, Bool.and_eq_true, decide_eq_true_iff,
    UInt16.le_iff_toNat_le, UInt16.lt_iff_toNat_lt]
  constructor
  · intro h
    by_cases hlow : c.toNat < 0xDC00
    · exact .inl ⟨h.1, hlow⟩
    · exact .inr ⟨Nat.le_of_not_lt hlow, h.2⟩
  · rintro (⟨hlow, hhigh⟩ | ⟨hlow, hhigh⟩)
    · exact ⟨hlow, Nat.lt_trans hhigh (by decide)⟩
    · exact ⟨Nat.le_trans (by decide) hlow, hhigh⟩

/-! ## Strings -/

/-- A code unit that is no half of a pair with its neighbours is written as such units. -/
theorem sansPaire_unite {avant apres : Option UInt16} {c : UInt16}
    (htete : estTete c = true → apres.any estQueue = false)
    (hqueue : estQueue c = true → avant.any estTete = false) : SansPaire (unite avant c apres) := by
  unfold unite
  have hsmall : ¬ antislash < c → isSurrogate c = false := fun h => by
    refine isSurrogate_of_lt ?_
    rw [UInt16.lt_iff_toNat_lt] at h
    have hanti : antislash.toNat = 92 := rfl
    omega
  by_cases hlarge : antislash < c
  · rw [if_pos hlarge]
    split
    · exact sansPaire_echappementU c
    · rename_i hraw
      intro d hd
      obtain rfl := List.mem_singleton.mp hd
      rw [isSurrogate_eq]
      cases ht : estTete d with
      | true => exact absurd (by rw [ht, htete ht]; rfl) hraw
      | false =>
        cases hq : estQueue d with
        | true => exact absurd (by rw [ht, hq, hqueue hq]; rfl) hraw
        | false => rfl
  · rw [if_neg hlarge]
    have hlettre : ∀ d : UInt16, d.toNat < 0xD800 → SansPaire [antislash, d] := fun d hd => by
      simp only [SansPaire, List.forall_mem_cons]
      exact ⟨rfl, isSurrogate_of_lt hd, fun e he => by cases he⟩
    split
    · split_ifs
      · exact hlettre _ (by decide)
      · exact hlettre _ (by decide)
      · exact hlettre _ (by decide)
      · exact hlettre _ (by decide)
      · exact hlettre _ (by decide)
      · exact sansPaire_echappementU c
    · split
      · simp only [SansPaire, List.forall_mem_cons]
        exact ⟨rfl, hsmall hlarge, fun e he => by cases he⟩
      · intro d hd
        obtain rfl := List.mem_singleton.mp hd
        exact hsmall hlarge

/-- Both halves of a pair are written as they are. -/
theorem unite_paire {avant suite : Option UInt16} {c d : UInt16} (hc : estTete c = true)
    (hd : estQueue d = true) : unite avant c (some d) ++ unite (some c) d suite = [c, d] := by
  have hbounds : 0xD800 ≤ c.toNat ∧ c.toNat < 0xDC00 := by
    simpa [estTete, UInt16.le_iff_toNat_le, UInt16.lt_iff_toNat_lt] using hc
  have hbounds' : 0xDC00 ≤ d.toNat ∧ d.toNat < 0xE000 := by
    simpa [estQueue, UInt16.le_iff_toNat_le, UInt16.lt_iff_toNat_lt] using hd
  have hanti : antislash.toNat = 92 := rfl
  have hclarge : antislash < c := UInt16.lt_iff_toNat_lt.mpr (by omega)
  have hdlarge : antislash < d := UInt16.lt_iff_toNat_lt.mpr (by omega)
  have hcq : estQueue c = false := by
    rw [← Bool.not_eq_true]
    intro h
    have hq : 0xDC00 ≤ c.toNat ∧ c.toNat < 0xE000 := by
      simpa [estQueue, UInt16.le_iff_toNat_le, UInt16.lt_iff_toNat_lt] using h
    omega
  have hdt : estTete d = false := by
    rw [← Bool.not_eq_true]
    intro h
    have ht : 0xD800 ≤ d.toNat ∧ d.toNat < 0xDC00 := by
      simpa [estTete, UInt16.le_iff_toNat_le, UInt16.lt_iff_toNat_lt] using h
    omega
  rw [unite, if_pos hclarge, if_neg (by simp [hd, hcq]), unite, if_pos hdlarge,
    if_neg (by simp [hdt, hc])]
  rfl

theorem isPair_iff {c d : UInt16} : IsPair c d ↔ estTete c = true ∧ estQueue d = true := by
  simp only [IsPair, estTete, estQueue, Bool.and_eq_true, decide_eq_true_iff, and_assoc]

theorem estQueue_not_tete {c : UInt16} (h : estQueue c = true) : estTete c = false := by
  simp only [estQueue, Bool.and_eq_true, decide_eq_true_iff, UInt16.le_iff_toNat_le] at h
  simp only [estTete, Bool.and_eq_false_iff, decide_eq_false_iff_not, UInt16.lt_iff_toNat_lt]
  exact .inr (Nat.not_lt.mpr h.1)

/-- Behind a first half the second one is not begun with. -/
theorem bienForme_contenu : ∀ (avant : Option UInt16) (s : Text),
    (∀ c ∈ s.head?, estQueue c = true → avant.any estTete = false) →
    isWellFormed (contenu avant s) = true
  | _, [], _ => rfl
  | avant, [c], h => by
      have hunit : SansPaire (unite avant c none) := sansPaire_unite (fun _ => rfl) (h c rfl)
      rw [contenu, contenu, List.append_nil]
      exact hunit.bienForme
  | avant, c :: d :: rest, h => by
      by_cases hpair : estTete c = true ∧ estQueue d = true
      · have htail : isWellFormed (contenu (some d) rest) = true :=
          bienForme_contenu (some d) rest fun _ _ _ => estQueue_not_tete hpair.2
        rw [contenu, contenu, ← List.append_assoc, List.head?_cons, unite_paire hpair.1 hpair.2,
          List.cons_append, List.cons_append, List.nil_append, isWellFormed,
          if_pos (isPair_iff.mpr hpair)]
        exact htail
      · have hunit : SansPaire (unite avant c (some d)) :=
          sansPaire_unite (fun hc => by
            rw [Option.any_some, ← Bool.not_eq_true]
            exact fun hd => hpair ⟨hc, hd⟩) (h c rfl)
        have htail : isWellFormed (contenu (some c) (d :: rest)) = true :=
          bienForme_contenu (some c) (d :: rest) fun e he hq => by
            obtain rfl := Option.some.inj he
            rw [Option.any_some, ← Bool.not_eq_true]
            exact fun hc => hpair ⟨hc, hq⟩
        rw [contenu]
        exact isWellFormed_append hunit.bienForme htail

theorem bienForme_chaine (s : Text) : isWellFormed (chaine s) = true := by
  have hmiddle : isWellFormed (contenu none s) = true := bienForme_contenu none s fun _ _ _ => rfl
  exact isWellFormed_cons rfl (isWellFormed_append hmiddle (by decide))

/-! ## Values -/

theorem sansPaire_decimal (n : Int) : SansPaire (decimal n) := by
  intro c hc
  rcases List.mem_append.mp hc with hsign | hdigit
  · split at hsign
    · obtain rfl := List.mem_singleton.mp hsign
      rfl
    · cases hsign
  · have hdigit : estChiffre c = true := estChiffre_toDigits hdigit
    simp only [estChiffre, Bool.and_eq_true, decide_eq_true_iff, UInt16.le_iff_toNat_le] at hdigit
    exact isSurrogate_of_lt (Nat.lt_of_le_of_lt hdigit.2 (by decide))

theorem bienForme_virgule (b : Bool) :
    isWellFormed (if b = true then [] else [virgule]) = true := by
  cases b <;> rfl

mutual

theorem bienForme_jsonEncode : ∀ j : Json, isWellFormed (jsonEncode j) = true
  | .null => by decide
  | .bool b => by cases b <;> decide
  | .num none => rfl
  | .num (some n) => (sansPaire_decimal n).bienForme
  | .str s => bienForme_chaine s
  | .arr elements => by
      rw [jsonEncode, List.cons_append]
      exact isWellFormed_cons rfl
        (isWellFormed_append (bienForme_encodeElements elements) (by decide))
  | .obj fields => by
      rw [jsonEncode, List.cons_append]
      exact isWellFormed_cons rfl (isWellFormed_append (bienForme_encodeFields fields) (by decide))

theorem bienForme_encodeElements : ∀ js : List Json, isWellFormed (encodeElements js) = true
  | [] => rfl
  | j :: js => by
      rw [encodeElements]
      exact isWellFormed_append
        (isWellFormed_append (bienForme_jsonEncode j) (bienForme_virgule js.isEmpty))
        (bienForme_encodeElements js)

theorem bienForme_encodeFields :
    ∀ fields : List (Text × Json), isWellFormed (encodeFields fields) = true
  | [] => rfl
  | (k, j) :: fields => by
      rw [encodeFields]
      refine isWellFormed_append ?_ (bienForme_encodeFields fields)
      refine isWellFormed_append ?_ (bienForme_virgule fields.isEmpty)
      exact isWellFormed_append (bienForme_chaine k)
        (isWellFormed_cons rfl (bienForme_jsonEncode j))

end

/-! ## Objects there and back -/

variable {E : Type} {double : Text → Option Int} {P : Platform E}

/-- White space behind an object is ignored. -/
theorem jsonDecode_objet {fields : List (Text × Json)} (h : (Json.obj fields).Regulier) (n : Nat) :
    jsonDecode double (jsonEncode (.obj fields) ++ List.replicate n 0x20) =
      some (.obj fields) := by
  have hblancs : blancs (List.replicate n 0x20) = [] := by
    induction n with
    | zero => rfl
    | succ n ih => exact ih
  have htext : jsonEncode (.obj fields) ++ List.replicate n 0x20 =
      accolade :: (encodeFields fields ++ accoladeFermante :: List.replicate n 0x20) := by
    simp [jsonEncode]
  have hread : lireValeur double (2 * (jsonEncode (.obj fields) ++ List.replicate n 0x20).length + 1)
      (jsonEncode (.obj fields) ++ List.replicate n 0x20) =
        some (.obj fields, List.replicate n 0x20) := by
    rw [htext, lireValeur, blancs_cons (by decide)]
    dsimp only
    rw [if_neg (by decide), if_neg (by decide), if_pos rfl]
    by_cases hne : fields = []
    · subst hne
      rfl
    · obtain ⟨ds, hds⟩ := encodeFields_cons hne
      have hchamps := @lireChamps_encodeFields double fields (List.replicate n 0x20)
        (2 * (accolade :: (encodeFields fields ++
          accoladeFermante :: List.replicate n 0x20)).length) hne h.1 h.2 (by
          rw [List.length_cons]
          omega)
      rw [if_neg, hchamps]
      · rfl
      · rw [hds, List.cons_append, blancs_cons (by decide)]
        exact fun hbrace => absurd (Option.some.inj hbrace) (by decide)
  rw [jsonDecode, hread]
  exact if_pos hblancs

/-- The contents of a message are written and read by the same rules, whatever they say. -/
theorem DecodeursDart.fidele (h : DecodeursDart double P) {fields : List (Text × Json)}
    (hj : (Json.obj fields).Regulier) : JsonFidele encodeursDart P (.obj fields) where
  utf8Encode := rfl
  utf8Decode := h.utf8Decode
  bienForme := bienForme_jsonEncode _
  accolade := rfl
  jsonDecode n := by
    rw [h.jsonDecode]
    exact jsonDecode_objet hj n

theorem regulier_payloadJson (c : Contenu) : c.json.Regulier := by
  obtain ⟨texte, attachment, messageId, replyTo⟩ := c
  have hquoted : ∀ id : Option Text, (id.elim Json.null Json.str).Regulier := fun id => by
    cases id <;> trivial
  have hfields : (payloadJson texte attachment messageId replyTo).map (·.1) =
      [text "t"] ++ (attachment.toList.map fun _ => text "f") ++
        (messageId.toList.map fun _ => text "i") ++
          replyTo.toList.flatMap fun _ => [text "q", text "qt", text "qm"] := by
    cases attachment <;> cases messageId <;> cases replyTo <;> rfl
  have hattachment : (attachment.toList.map fun _ => text "f").Sublist [text "f"] := by
    cases attachment <;> simp
  have hid : (messageId.toList.map fun _ => text "i").Sublist [text "i"] := by
    cases messageId <;> simp
  have hreply : (replyTo.toList.flatMap fun _ => [text "q", text "qt", text "qm"]).Sublist
      [text "q", text "qt", text "qm"] := by
    cases replyTo <;> simp
  have hkeys : ([text "t"] ++ [text "f"] ++ [text "i"] ++ [text "q", text "qt", text "qm"]).Nodup :=
    show (["t", "f", "i", "q", "qt", "qm"].map text).Nodup from by decide
  refine ⟨?_, ?_⟩
  · rw [hfields]
    exact ((((List.Sublist.refl [text "t"]).append hattachment).append hid).append hreply).nodup hkeys
  · cases attachment with
    | none =>
      cases messageId <;> cases replyTo <;>
        simp [payloadJson, ChampsReguliers, Json.Regulier, hquoted]
    | some a =>
      have ha : (Json.obj a.toJson).Regulier := regulier_attachment a
      cases messageId <;> cases replyTo <;>
        simp [payloadJson, ChampsReguliers, Json.Regulier, hquoted] <;> exact ha

/-- What a device writes is read by another as it was written. -/
theorem DecodeursDart.decodePayload (h : DecodeursDart double P) (c : Contenu) :
    decodePayload P (c.encode encodeursDart) = c.relu :=
  decodePayload_encode (h.fidele (regulier_payloadJson c))

/-- A control is read behind its prefix. -/
theorem DecodeursDart.decodeCharge (h : DecodeursDart double P) (entete : Text)
    {fields : List (Text × Json)} (hj : (Json.obj fields).Regulier) :
    decodeCharge P (entete ++ jsonEncode (.obj fields)) entete = some fields := by
  rw [Inbox.decodeCharge, List.drop_left, h.jsonDecode, jsonDecode_jsonEncode hj]
  rfl

end ZiaCrypte.Inbox
