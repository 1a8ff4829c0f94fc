import ZiaCrypte.Inbox.OrdinaryTexts
import ZiaCrypte.Inbox.Scripted
import ZiaCrypte.Inbox.Utf8

/-!
# `_encodePayload` and `_decodePayload`

The padding is never taken off: it is white space behind the object, in bytes that stand for
themselves in UTF-8.
-/
namespace ZiaCrypte.Inbox

open ZiaCrypte.Lib ZiaCrypte.Engine

variable {E : Type}

/-- What `_encodePayload` is given. -/
structure Contenu where
  texte : Text
  attachment : Option AttachmentRef
  messageId : Option Text
  replyTo : Option ChatMessage

namespace Contenu

def json (c : Contenu) : Json :=
  .obj (payloadJson c.texte c.attachment c.messageId c.replyTo)

/-- The JSON, before the padding. -/
def charge (C : Encodeurs) (c : Contenu) : Bytes := C.utf8Encode (C.jsonEncode c.json)

def encode (C : Encodeurs) (c : Contenu) : Bytes :=
  encodePayload C c.texte c.attachment c.messageId c.replyTo

/-- What is to come back. -/
def relu (c : Contenu) : Payload where
  text := c.texte
  attachment := c.attachment
  id := c.messageId
  replyToId := c.replyTo.bind (·.id)
  replyToText := c.replyTo.map fun m => Sending.extrait m.text
  replyToMine := c.replyTo.map (·.mine)

end Contenu

/-- What the codecs do with one object: half a surrogate pair is escaped, the object begins
with a brace, and the white space behind it is ignored. -/
structure JsonFidele (C : Encodeurs) (P : Platform E) (j : Json) : Prop where
  utf8Encode : C.utf8Encode = utf8
  utf8Decode : ∀ b t, utf8Decode b = some t → P.utf8DecodeMalformed b = t
  bienForme : isWellFormed (C.jsonEncode j) = true
  accolade : (C.jsonEncode j).head? = some 0x7B
  jsonDecode : ∀ n, P.jsonDecode (C.jsonEncode j ++ List.replicate n 0x20) = some j

/-! ## Sizes -/

theorem taillePaliee_spec {n : Nat} (hn : 0 < n) :
    palierBourrage ∣ taillePaliee n ∧ 0 < taillePaliee n ∧ n ≤ taillePaliee n ∧
      taillePaliee n < n + palierBourrage := by
  unfold taillePaliee palierBourrage
  rw [if_neg hn.ne']
  refine ⟨Nat.dvd_mul_left _ _, ?_, ?_, ?_⟩ <;> omega

theorem taillePaliee_palier {n k : Nat} (hlow : palierBourrage * k < n)
    (hhigh : n ≤ palierBourrage * (k + 1)) : taillePaliee n = palierBourrage * (k + 1) := by
  unfold taillePaliee palierBourrage at *
  rw [if_neg (Nat.ne_zero_of_lt hlow)]
  omega

theorem length_bourrer (charge : Bytes) : (bourrer charge).length = taillePaliee charge.length := by
  have hle : charge.length ≤ taillePaliee charge.length := by
    rcases Nat.eq_zero_or_pos charge.length with hn | hn
    · rw [hn]
      exact Nat.zero_le _
    · exact (taillePaliee_spec hn).2.2.1
  unfold bourrer
  rw [List.length_append, List.length_replicate]
  omega

theorem length_encode (C : Encodeurs) (c : Contenu) :
    (c.encode C).length = taillePaliee (c.charge C).length :=
  length_bourrer (c.charge C)

/-! ## White space -/

theorem isWellFormed_spaces (n : Nat) : isWellFormed (List.replicate n 0x20) = true := by
  induction n with
  | zero => rfl
  | succ n ih => exact isWellFormed_cons (by decide) ih

theorem utf8_spaces (n : Nat) : utf8 (List.replicate n 0x20) = List.replicate n 0x20 := by
  induction n with
  | zero => rfl
  | succ n ih =>
    have hspace : isWellFormed [0x20] = true := by decide
    have happend := utf8_append hspace (List.replicate n 0x20)
    rw [ih] at happend
    exact happend

/-- The padded bytes are the text with as many spaces behind it. -/
theorem utf8Decode_bourrer {t : Text} (ht : isWellFormed t = true) {c : UInt16}
    (hhead : t.head? = some c) (hc : c ≠ BOM) :
    utf8Decode (bourrer (utf8 t)) =
      some (t ++ List.replicate (taillePaliee (utf8 t).length - (utf8 t).length) 0x20) := by
  have hbytes : bourrer (utf8 t) =
      utf8 (t ++ List.replicate (taillePaliee (utf8 t).length - (utf8 t).length) 0x20) := by
    rw [utf8_append ht, utf8_spaces]
    rfl
  rw [hbytes, utf8Decode_utf8_iff]
  refine ⟨isWellFormed_append ht (isWellFormed_spaces _), ?_⟩
  rw [List.head?_append, hhead]
  exact fun h => hc (Option.some.inj h)

/-! ## Fields -/

theorem field_f (c : Contenu) :
    field (payloadJson c.texte c.attachment c.messageId c.replyTo) "f" =
      c.attachment.elim .null fun a => .obj a.toJson := by
  obtain ⟨texte, attachment, messageId, replyTo⟩ := c
  cases attachment <;> cases messageId <;> cases replyTo <;> rfl

theorem field_i (c : Contenu) :
    field (payloadJson c.texte c.attachment c.messageId c.replyTo) "i" =
      c.messageId.elim .null .str := by
  obtain ⟨texte, attachment, messageId, replyTo⟩ := c
  cases attachment <;> cases messageId <;> cases replyTo <;> rfl

/-- A quoted message may have no id. -/
theorem field_q (c : Contenu) :
    field (payloadJson c.texte c.attachment c.messageId c.replyTo) "q" =
      (c.replyTo.bind (·.id)).elim .null .str := by
  obtain ⟨texte, attachment, messageId, replyTo⟩ := c
  cases attachment <;> cases messageId <;> cases replyTo <;> rfl

theorem field_qt (c : Contenu) :
    field (payloadJson c.texte c.attachment c.messageId c.replyTo) "qt" =
      c.replyTo.elim .null fun m => .str (Sending.extrait m.text) := by
  obtain ⟨texte, attachment, messageId, replyTo⟩ := c
  cases attachment <;> cases messageId <;> cases replyTo <;> rfl

theorem field_qm (c : Contenu) :
    field (payloadJson c.texte c.attachment c.messageId c.replyTo) "qm" =
      c.replyTo.elim .null fun m => .bool m.mine := by
  obtain ⟨texte, attachment, messageId, replyTo⟩ := c
  cases attachment <;> cases messageId <;> cases replyTo <;> rfl

theorem asString?_elim (t : Option Text) : (t.elim Json.null Json.str).asString? = some t := by
  cases t <;> rfl

/-- Every field is read as it was written. -/
theorem readPayload_payloadJson (c : Contenu) :
    readPayload (payloadJson c.texte c.attachment c.messageId c.replyTo) = some c.relu := by
  unfold readPayload
  rw [field_f, field_i, field_q, field_qt, field_qm, asString?_elim, asString?_elim]
  obtain ⟨texte, attachment, messageId, replyTo⟩ := c
  cases attachment with
  | none => cases replyTo <;> rfl
  | some a =>
    simp only [Option.elim_some, Json.isNull, Json.asMap, Option.bind_eq_bind, Option.bind_some,
      fromJson_toJson, Bool.false_eq_true, if_false]
    cases replyTo <;> rfl

/-! ## There and back -/

theorem decodePayload_encode {C : Encodeurs} {P : Platform E} {c : Contenu}
    (h : JsonFidele C P c.json) : decodePayload P (c.encode C) = c.relu := by
  have hbytes : c.encode C = bourrer (utf8 (C.jsonEncode c.json)) := by
    rw [← h.utf8Encode]
    rfl
  have hraw := h.utf8Decode _ _ (utf8Decode_bourrer h.bienForme h.accolade (by decide))
  unfold decodePayload
  rw [hbytes]
  dsimp only
  rw [hraw, h.jsonDecode]
  change Option.getD (if containsKey (payloadJson c.texte c.attachment c.messageId c.replyTo) "t" then
    readPayload (payloadJson c.texte c.attachment c.messageId c.replyTo) else none) _ = _
  rw [readPayload_payloadJson]
  rfl

theorem charge_pos {C : Encodeurs} {P : Platform E} {c : Contenu}
    (h : JsonFidele C P c.json) : 0 < (c.charge C).length := by
  obtain ⟨rest, hrest⟩ := List.head?_eq_some_iff.mp h.accolade
  have hbrace : isWellFormed [0x7B] = true := by decide
  have happend := utf8_append hbrace rest
  unfold Contenu.charge
  rw [h.utf8Encode, hrest, show (0x7B : UInt16) :: rest = [0x7B] ++ rest from rfl, happend,
    List.length_append]
  exact Nat.lt_of_lt_of_le (show 0 < (utf8 [0x7B]).length by decide) (Nat.le_add_right _ _)

/-- A message is read as it was written, its size says only how many steps of padding its JSON
fills, and it is the same for all that fill as many. -/
theorem payload_aller_retour (C : Encodeurs) (P : Platform E) :
    (∀ c : Contenu, JsonFidele C P c.json →
      decodePayload P (c.encode C) = c.relu ∧
        palierBourrage ∣ (c.encode C).length ∧ 0 < (c.encode C).length ∧
          (c.charge C).length ≤ (c.encode C).length ∧
            (c.encode C).length < (c.charge C).length + palierBourrage) ∧
    ∀ (c c' : Contenu) (k : Nat),
      palierBourrage * k < (c.charge C).length → (c.charge C).length ≤ palierBourrage * (k + 1) →
      palierBourrage * k < (c'.charge C).length → (c'.charge C).length ≤ palierBourrage * (k + 1) →
        (c.encode C).length = (c'.encode C).length := by
  refine ⟨fun c h => ⟨decodePayload_encode h, ?_⟩, fun c c' k hlow hhigh hlow' hhigh' => ?_⟩
  · rw [length_encode]
    exact taillePaliee_spec (charge_pos h)
  · rw [length_encode, length_encode, taillePaliee_palier hlow hhigh,
      taillePaliee_palier hlow' hhigh']

/-! ## A text -/

def encodeursUtf8 : Encodeurs := { encodeursSimples with utf8Encode := utf8 }

def contenuSimple : Contenu := ⟨text "bonjour", none, some (text "m-1"), none⟩

def sansBlancs (t : Text) : Text := (t.reverse.dropWhile (· == 0x20)).reverse

theorem sansBlancs_spaces (t : Text) (n : Nat) :
    sansBlancs (t ++ List.replicate n 0x20) = sansBlancs t := by
  unfold sansBlancs
  rw [List.reverse_append, List.reverse_replicate]
  congr 1
  induction n with
  | zero => rfl
  | succ n ih => exact ih

/-- The decoders, on this text with any white space behind it. -/
def platformSimple : Platform Unit :=
  { scripted ⟨[], [], []⟩ with
    utf8DecodeMalformed := fun b => (utf8Decode b).getD []
    jsonDecode := fun t =>
      if sansBlancs t = encodeursUtf8.jsonEncode contenuSimple.json then some contenuSimple.json
      else none }

theorem contenuSimple_fidele : JsonFidele encodeursUtf8 platformSimple contenuSimple.json where
  utf8Encode := rfl
  utf8Decode b t h := by
    change (utf8Decode b).getD [] = t
    rw [h]
    rfl
  bienForme := by decide
  accolade := by decide
  jsonDecode n := by
    have hback : sansBlancs (encodeursUtf8.jsonEncode contenuSimple.json) =
        encodeursUtf8.jsonEncode contenuSimple.json := by decide
    rw [← sansBlancs_spaces _ n] at hback
    unfold platformSimple
    dsimp only
    rw [if_pos hback]

theorem contenuSimple_relu :
    decodePayload platformSimple (contenuSimple.encode encodeursUtf8) = contenuSimple.relu ∧
      (contenuSimple.encode encodeursUtf8).length = palierBourrage :=
  ⟨((payload_aller_retour encodeursUtf8 platformSimple).1 contenuSimple contenuSimple_fidele).1,
    (length_encode _ _).trans (taillePaliee_palier (k := 0) (by decide) (by decide))⟩

end ZiaCrypte.Inbox
