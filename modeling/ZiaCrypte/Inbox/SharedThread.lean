import ZiaCrypte.Lib.Interleaving
import ZiaCrypte.Inbox.SavedRecords
import ZiaCrypte.Sending.Outbox
import Mathlib.Data.List.Induction

/-!
# A thread as its members are to see it

What the members of a conversation make known to one another, and the thread it comes to,
seen from nowhere in particular. Order matters between what one account says of one message,
and between a message and what is said of it.
-/
namespace ZiaCrypte.Inbox

open ZiaCrypte.Lib ZiaCrypte.Engine

/-- An account. -/
structure Membre where
  userId : Text
  username : Text
  deriving DecidableEq

/-- What a member makes known. -/
inductive Acte where
  | message (id texte : Text) (attachment : Option AttachmentRef) (replyTo : Option ChatMessage)
  | edition (cible texte : Text)
  | suppression (cible : Text)
  | reaction (cible emoji : Text) (pose : Bool)
  deriving DecidableEq

namespace Acte

/-- The message it is about. -/
def sujet : Acte → Text
  | message id _ _ _ => id
  | edition cible _ => cible
  | suppression cible => cible
  | reaction cible _ _ => cible

def estMessage : Acte → Bool
  | message _ _ _ _ => true
  | _ => false

/-- It is for the author of the message alone. -/
def estRetouche : Acte → Bool
  | edition _ _ => true
  | suppression _ => true
  | _ => false

/-- The text it gives the message. -/
def texte? : Acte → Option Text
  | message _ texte _ _ => some texte
  | edition _ texte => some texte
  | suppression _ => some []
  | reaction _ _ _ => none

end Acte

/-- An act and its author, told apart from every other by its number. -/
structure Fait where
  numero : Nat
  auteur : Membre
  acte : Acte
  deriving DecidableEq

/-- What a message says, and who reacted. -/
@[ext] structure Corps where
  texte : Text
  supprime : Bool
  attachment : Option AttachmentRef
  replyToId : Option Text
  replyToText : Option Text
  reactions : Text → Text → Prop

namespace Corps

def nouveau (texte : Text) (attachment : Option AttachmentRef) (replyTo : Option ChatMessage) :
    Corps where
  texte := texte
  supprime := false
  attachment := attachment
  replyToId := replyTo.bind (·.id)
  replyToText := replyTo.map fun m => Sending.extrait m.text
  reactions := fun _ _ => False

/-- What an act of an account makes of it. -/
def apres (c : Corps) (qui : Text) : Acte → Corps
  | .message _ _ _ _ => c
  | .edition _ t => { c with texte := t }
  | .suppression _ => { c with texte := [], supprime := true }
  | .reaction _ emoji pose => { c with reactions := fun e u =>
      if e = emoji ∧ u = qui then pose = true else c.reactions e u }

/-- Two accounts react in either order, and one may change the text meanwhile. -/
theorem apres_comm (c : Corps) {a b : Text} (hab : a ≠ b) {x y : Acte}
    (hxy : ¬ (x.estRetouche = true ∧ y.estRetouche = true)) :
    (c.apres a x).apres b y = (c.apres b y).apres a x := by
  cases x with
  | message => rfl
  | edition => cases y <;> first | rfl | exact absurd ⟨rfl, rfl⟩ hxy
  | suppression => cases y <;> first | rfl | exact absurd ⟨rfl, rfl⟩ hxy
  | reaction _ emoji pose =>
    cases y with
    | reaction _ emoji' pose' =>
      have hreactions : ∀ e u, (if e = emoji' ∧ u = b then pose' = true else
            if e = emoji ∧ u = a then pose = true else c.reactions e u) =
          if e = emoji ∧ u = a then pose = true else
            if e = emoji' ∧ u = b then pose' = true else c.reactions e u := by
        intro e u
        by_cases hb : e = emoji' ∧ u = b
        · have ha : ¬ (e = emoji ∧ u = a) := fun ha => hab (ha.2.symm.trans hb.2)
          rw [if_pos hb, if_neg ha, if_pos hb]
        · rw [if_neg hb, if_neg hb]
      exact Corps.ext rfl rfl rfl rfl rfl (funext fun e => funext fun u => hreactions e u)
    | _ => rfl

end Corps

/-- A message of the thread. -/
structure MessagePartage where
  auteur : Text
  corps : Corps

namespace MessagePartage

/-- Its author alone edits and deletes it. -/
def apres (v : MessagePartage) (qui : Text) (acte : Acte) : MessagePartage :=
  if acte.estRetouche = true ∧ v.auteur ≠ qui then v else { v with corps := v.corps.apres qui acte }

@[simp] theorem auteur_apres (v : MessagePartage) (qui : Text) (acte : Acte) :
    (v.apres qui acte).auteur = v.auteur := by
  rw [apres]
  split <;> rfl

theorem apres_of {v : MessagePartage} {qui : Text} {acte : Acte}
    (h : ¬ (acte.estRetouche = true ∧ v.auteur ≠ qui)) :
    v.apres qui acte = ⟨v.auteur, v.corps.apres qui acte⟩ := if_neg h

theorem apres_comm (v : MessagePartage) {a b : Text} (hab : a ≠ b) (x y : Acte) :
    (v.apres a x).apres b y = (v.apres b y).apres a x := by
  by_cases hx : x.estRetouche = true ∧ v.auteur ≠ a
  · have hx' : x.estRetouche = true ∧ (v.apres b y).auteur ≠ a := by rwa [auteur_apres]
    rw [show v.apres a x = v from if_pos hx, show (v.apres b y).apres a x = _ from if_pos hx']
  by_cases hy : y.estRetouche = true ∧ v.auteur ≠ b
  · have hy' : y.estRetouche = true ∧ (v.apres a x).auteur ≠ b := by rwa [auteur_apres]
    rw [show v.apres b y = v from if_pos hy, show (v.apres a x).apres b y = _ from if_pos hy']
  -- Neither is refused, so they are not both its author's.
  have hxy : ¬ (x.estRetouche = true ∧ y.estRetouche = true) := by
    rintro ⟨hex, hey⟩
    have ha : v.auteur = a := by
      by_contra hne
      exact hx ⟨hex, hne⟩
    have hb : v.auteur = b := by
      by_contra hne
      exact hy ⟨hey, hne⟩
    exact hab (ha.symm.trans hb)
  have hx' : ¬ (x.estRetouche = true ∧ (v.apres b y).auteur ≠ a) := by rwa [auteur_apres]
  have hy' : ¬ (y.estRetouche = true ∧ (v.apres a x).auteur ≠ b) := by rwa [auteur_apres]
  rw [apres_of hx', apres_of hy', apres_of hx, apres_of hy]
  exact congrArg (MessagePartage.mk v.auteur) (v.corps.apres_comm hab hxy)

end MessagePartage

/-! ## The thread -/

/-- The messages, by their ids. -/
abbrev Fil := Text → Option MessagePartage

/-- What an act makes of the message it is about. -/
def Fait.sur (d : Fait) (v : Option MessagePartage) : Option MessagePartage :=
  match d.acte with
  | .message _ texte attachment replyTo =>
      some ⟨d.auteur.userId, .nouveau texte attachment replyTo⟩
  | acte => v.map (·.apres d.auteur.userId acte)

theorem Fait.sur_of_not_message {d : Fait} (h : d.acte.estMessage = false)
    (v : Option MessagePartage) : d.sur v = v.map (·.apres d.auteur.userId d.acte) := by
  obtain ⟨numero, auteur, acte⟩ := d
  cases acte with
  | message => cases h
  | _ => rfl

namespace Fil

def vide : Fil := fun _ => none

def recoit (f : Fil) (d : Fait) : Fil :=
  fun id => if id = d.acte.sujet then d.sur (f id) else f id

/-- The thread of what was taken in, in that order. -/
def de (faits : List Fait) : Fil := faits.foldl recoit vide

@[simp] theorem de_nil : de [] = vide := rfl

@[simp] theorem de_append (faits : List Fait) (d : Fait) :
    de (faits ++ [d]) = (de faits).recoit d := by
  rw [de, List.foldl_append]
  rfl

end Fil

/-- They are about one message, and by one account, or one of them is the message itself. -/
def Lies (d d' : Fait) : Prop :=
  d.acte.sujet = d'.acte.sujet ∧
    (d.auteur.userId = d'.auteur.userId ∨ d.acte.estMessage = true ∨ d'.acte.estMessage = true)

instance (d d' : Fait) : Decidable (Lies d d') := inferInstanceAs (Decidable (_ ∧ _))

/-- All else may be taken in either order. -/
theorem commutes_recoit : Commutes Lies Fil.recoit where
  symm d d' h := ⟨h.1.symm, h.2.elim (fun he => .inl he.symm) fun he => .inr he.symm⟩
  comm f d d' h := by
    funext id
    simp only [Fil.recoit]
    by_cases hd : id = d.acte.sujet
    · by_cases hd' : id = d'.acte.sujet
      · have hnot : ¬ (d.auteur.userId = d'.auteur.userId ∨ d.acte.estMessage = true ∨
            d'.acte.estMessage = true) := fun hor => h ⟨hd.symm.trans hd', hor⟩
        simp only [not_or, Bool.not_eq_true] at hnot
        obtain ⟨hauteurs, hmessage, hmessage'⟩ := hnot
        have hcomm : ∀ v : Option MessagePartage, d'.sur (d.sur v) = d.sur (d'.sur v) := by
          intro v
          simp only [Fait.sur_of_not_message hmessage, Fait.sur_of_not_message hmessage',
            Option.map_map, Function.comp_def]
          exact congrArg (v.map ·) (funext fun w => w.apres_comm hauteurs d.acte d'.acte)
        rw [if_pos hd, if_pos hd', hcomm, if_pos hd', if_pos hd]
      · rw [if_neg hd', if_pos hd, if_pos hd, if_neg hd']
    · rw [if_neg hd, if_neg hd]

/-! ## What the thread rests on -/

/-- A message of the thread was composed by its author, says what its author gave it, is
deleted by its author, and shows the reactions that were put. -/
structure Fonde (faits : List Fait) (id : Text) (v : MessagePartage) : Prop where
  compose : ∃ d ∈ faits, d.auteur.userId = v.auteur ∧ d.acte.estMessage = true ∧ d.acte.sujet = id
  texte : ∃ d ∈ faits, d.auteur.userId = v.auteur ∧ d.acte.sujet = id ∧
    d.acte.texte? = some v.corps.texte
  supprime : v.corps.supprime = true → ∃ d ∈ faits, d.auteur.userId = v.auteur ∧
    d.acte = .suppression id
  reactions : ∀ emoji u, v.corps.reactions emoji u → ∃ d ∈ faits, d.auteur.userId = u ∧
    d.acte = .reaction id emoji true

theorem Fonde.mono {faits faits' : List Fait} {id : Text} {v : MessagePartage}
    (h : Fonde faits id v) (hsub : faits ⊆ faits') : Fonde faits' id v := by
  obtain ⟨⟨d₁, h₁, hd₁⟩, ⟨d₂, h₂, hd₂⟩, hsupprime, hreactions⟩ := h
  refine ⟨⟨d₁, hsub h₁, hd₁⟩, ⟨d₂, hsub h₂, hd₂⟩, fun hs => ?_, fun emoji u hr => ?_⟩
  · obtain ⟨d, hd, hrest⟩ := hsupprime hs
    exact ⟨d, hsub hd, hrest⟩
  · obtain ⟨d, hd, hrest⟩ := hreactions emoji u hr
    exact ⟨d, hsub hd, hrest⟩

/-- One more act about a message. -/
theorem Fonde.apres {faits : List Fait} {d : Fait} {v : MessagePartage}
    (h : Fonde faits d.acte.sujet v) :
    Fonde (faits ++ [d]) d.acte.sujet (v.apres d.auteur.userId d.acte) := by
  have hold := h.mono (List.subset_append_left faits [d])
  have hmem : d ∈ faits ++ [d] := List.mem_append_right faits List.mem_cons_self
  by_cases hrefuse : d.acte.estRetouche = true ∧ v.auteur ≠ d.auteur.userId
  · rw [show v.apres d.auteur.userId d.acte = v from if_pos hrefuse]
    exact hold
  rw [MessagePartage.apres_of hrefuse]
  obtain ⟨numero, auteur, acte⟩ := d
  have hauteur : acte.estRetouche = true → auteur.userId = v.auteur := fun hr => by
    by_contra hne
    exact hrefuse ⟨hr, fun he => hne he.symm⟩
  cases acte with
  | message => exact hold
  | edition cible t =>
    exact { hold with texte := ⟨_, hmem, hauteur rfl, rfl, rfl⟩ }
  | suppression cible =>
    exact { hold with
      texte := ⟨_, hmem, hauteur rfl, rfl, rfl⟩
      supprime := fun _ => ⟨_, hmem, hauteur rfl, rfl⟩ }
  | reaction cible emoji pose =>
    refine { hold with reactions := fun e u hr => ?_ }
    change if e = emoji ∧ u = auteur.userId then pose = true else v.corps.reactions e u at hr
    split at hr
    · rename_i hboth
      obtain ⟨rfl, rfl⟩ := hboth
      subst hr
      exact ⟨_, hmem, rfl, rfl⟩
    · exact hold.reactions e u hr

theorem fonde_de {faits : List Fait} {id : Text} {v : MessagePartage}
    (h : Fil.de faits id = some v) : Fonde faits id v := by
  induction faits using List.reverseRecOn generalizing v with
  | nil => cases h
  | append_singleton faits d ih =>
    rw [Fil.de_append, Fil.recoit] at h
    split at h
    · rename_i hid
      subst hid
      cases hmessage : d.acte.estMessage with
      | false =>
        rw [Fait.sur_of_not_message hmessage] at h
        obtain ⟨w, hw, rfl⟩ := Option.map_eq_some_iff.mp h
        exact (ih hw).apres
      | true =>
        obtain ⟨numero, auteur, acte⟩ := d
        cases acte with
        | message id texte attachment replyTo =>
          obtain rfl := Option.some.inj h
          have hmem : (⟨numero, auteur, .message id texte attachment replyTo⟩ : Fait) ∈
              faits ++ [⟨numero, auteur, .message id texte attachment replyTo⟩] :=
            List.mem_append_right faits List.mem_cons_self
          exact {
            compose := ⟨_, hmem, rfl, rfl, rfl⟩
            texte := ⟨_, hmem, rfl, rfl, rfl⟩
            supprime := fun hs => by cases hs
            reactions := fun _ _ hr => False.elim hr }
        | _ => cases hmessage
    · exact (ih h).mono (List.subset_append_left faits [d])

/-- What a thread has under an id was composed, by its author. -/
theorem compose_de {faits : List Fait} {id : Text} {v : MessagePartage}
    (h : Fil.de faits id = some v) : ∃ d ∈ faits, d.acte.estMessage = true ∧
      d.acte.sujet = id ∧ d.auteur.userId = v.auteur := by
  obtain ⟨d, hd, hauteur, hmessage, hsujet⟩ := (fonde_de h).compose
  exact ⟨d, hd, hmessage, hsujet, hauteur⟩

/-- A message that was taken in stays. -/
theorem isSome_de {faits : List Fait} {d : Fait} (hd : d ∈ faits)
    (hmessage : d.acte.estMessage = true) : (Fil.de faits d.acte.sujet).isSome := by
  induction faits using List.reverseRecOn with
  | nil => cases hd
  | append_singleton faits e ih =>
    rw [Fil.de_append, Fil.recoit]
    rcases List.mem_append.mp hd with hd | hd
    · have hold := ih hd
      split
      · obtain ⟨v, hv⟩ := Option.isSome_iff_exists.mp hold
        rw [hv]
        unfold Fait.sur
        split <;> rfl
      · exact hold
    · obtain rfl := List.mem_singleton.mp hd
      rw [if_pos rfl, Fait.sur]
      cases hacte : d.acte with
      | message => rfl
      | _ =>
        rw [hacte] at hmessage
        cases hmessage

end ZiaCrypte.Inbox
