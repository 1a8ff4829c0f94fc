import ZiaCrypte.Inbox.EngineViews
import ZiaCrypte.Inbox.Utf8
import ZiaCrypte.Engine.GroupReads

/-!
# Where the key of a group message comes from

`senderKeyProcess` is reached by the contents of a message and by the opening of a channel
link. The engine files a key under the C strings of a conversation and of a device, and
knows nothing of the way it came; here the client notes what it reads.
-/
namespace ZiaCrypte.Inbox

open ZiaCrypte.Lib ZiaCrypte.Engine ZiaCrypte.Engine.SenderKeys

/-! ## C strings -/

/-- `toNativeUtf8`, as the engine reads it: up to the first zero. -/
def cString (t : Text) : Identifier := (utf8 t).takeWhile (· ≠ 0)

/-! ## The engine -/

/-- The engine: its sender keys, and the rest of it. -/
structure Moteur (K R : Type) where
  senderKeys : List (ZiaSenderKey K)
  reste : R

section Engine

variable {K R : Type} (S : SenderKeyPrimitives K) (chainKey : Bytes → K)

/-- The distribution that the bytes are, if they have its length. -/
def lireDistribution (b : Bytes) : Option (Distribution K) :=
  if b.length ≠ 76 then none
  else some ⟨b.take 8, getU32 b 8, chainKey ((b.drop 12).take 32), FixedBytes.copy 32 b 44⟩

/-- A call that leaves the sender keys alone. -/
def Moteur.passer {α : Type} (f : R → α × R) (e : Moteur K R) : α × Moteur K R :=
  ((f e.reste).1, { e with reste := (f e.reste).2 })

/-- The calls of the sender keys are those of `sender_keys.cpp`; the others are of `Q`. `alloc`
says whether `malloc` succeeds. -/
def plateforme (alloc : R → Bool) (Q : Platform R) : Platform (Moteur K R) where
  jsonDecode := Q.jsonDecode
  utf8Decode := Q.utf8Decode
  utf8DecodeMalformed := Q.utf8DecodeMalformed
  base64Decode := Q.base64Decode
  sealedOpen envelope := Moteur.passer (Q.sealedOpen envelope)
  acceptSession handshake := Moteur.passer (Q.acceptSession handshake)
  importSession blob := Moteur.passer (Q.importSession blob)
  exportSession id := Moteur.passer (Q.exportSession id)
  decrypt id header ciphertext := Moteur.passer (Q.decrypt id header ciphertext)
  senderKeyDecrypt group sender message e :=
    let r := ziaSenderKeyDecrypt S (alloc e.reste) e.senderKeys (cString group) (cString sender)
      message
    (r.1.toOption, { e with senderKeys := r.2 })
  senderKeyProcess group sender distribution e :=
    { e with senderKeys := (ziaSenderKeyProcess e.senderKeys (cString group) (cString sender)
        (lireDistribution chainKey distribution)).2 }
  diffuserLu c ids := Moteur.passer (Q.diffuserLu c ids)

/-- The key under which the messages of a sender are verified. -/
def signature (keys : List (ZiaSenderKey K)) (group sender : Identifier) : Option PublicKey :=
  (trouver keys group sender).map (·.signingPublic)

/-- An entry is written in the place of one with the same key. -/
theorem signature_ecrire {keys : List (ZiaSenderKey K)} {st st' : ZiaSenderKey K}
    {group sender : Identifier} (hst : trouver keys group sender = some st)
    (hsame : SameSender st st') (g d : Identifier) :
    signature (ecrire keys st') g d = signature keys g d := by
  obtain ⟨hgroup, hsender⟩ := trouver_ids hst
  have hids : st'.groupId = group ∧ st'.senderId = sender :=
    ⟨hsame.groupId.trans hgroup, hsame.senderId.trans hsender⟩
  rw [signature, signature]
  by_cases h : g = group ∧ d = sender
  · obtain ⟨rfl, rfl⟩ := h
    rw [trouver_ecrire hids hst, hst, Option.map_some, Option.map_some, hsame.signingPublic]
  · rw [trouver_ecrire_ne]
    rintro ⟨rfl, rfl⟩
    exact h hids

/-- Decrypting moves a chain, and changes no key that signs. -/
theorem signature_decrypt (alloc : Bool) (keys : List (ZiaSenderKey K)) (group sender : Identifier)
    (message : Bytes) (g d : Identifier) :
    signature (ziaSenderKeyDecrypt S alloc keys group sender message).2 g d =
      signature keys g d := by
  rcases decrypt_cases (P := S) alloc keys group sender message with
    ⟨rc, hdecrypt⟩ | ⟨st, st', mk, r, hst, -, hkey, hdecrypt, -⟩
  · rw [hdecrypt]
  · rw [hdecrypt]
    exact signature_ecrire hst (clefDeMessage_sameSender hkey) g d

/-- The message has a signature of the owner of the key. -/
def Verifie (pk : PublicKey) (message : Bytes) : Prop :=
  S.ed25519Verify pk (signedPart message) (message.drop (message.length - kSignatureLen)) = true

/-- What is decrypted was verified under the key of its sender. -/
theorem decrypt_verifie {alloc : Bool} {keys : List (ZiaSenderKey K)} {group sender : Identifier}
    {message plain : Bytes}
    (h : (ziaSenderKeyDecrypt S alloc keys group sender message).1 = .ok plain) :
    ∃ pk, signature keys group sender = some pk ∧ Verifie S pk message := by
  rcases decrypt_cases (P := S) alloc keys group sender message with
    ⟨rc, hdecrypt⟩ | ⟨st, st', mk, r, hst, hverify, hkey, hdecrypt, -⟩
  · rw [hdecrypt] at h
    cases h
  · exact ⟨st.signingPublic, by rw [signature, hst, Option.map_some], hverify⟩

/-- A key is put under the ids of its entry, and under no others. -/
theorem signature_installer_ne {keys : List (ZiaSenderKey K)} {st : ZiaSenderKey K}
    {g d : Identifier} (h : ¬ (st.groupId = g ∧ st.senderId = d)) :
    signature (installer keys st) g d = signature keys g d := by
  rw [signature, trouver_installer_ne h, signature]

variable {S chainKey} in
/-- What a distribution is filed under, and its key. -/
theorem signature_process {keys : List (ZiaSenderKey K)} {group sender g d : Identifier}
    {octets : Bytes} {pk : PublicKey}
    (h : signature (ziaSenderKeyProcess keys group sender
      (lireDistribution chainKey octets)).2 g d = some pk) :
    signature keys g d = some pk ∨ group = g ∧ sender = d ∧
      ∃ distribution, lireDistribution chainKey octets = some distribution ∧
        distribution.signingPublic = pk := by
  unfold ziaSenderKeyProcess at h
  split at h
  · exact .inl h
  rename_i distribution hlire
  split at h
  · exact .inl h
  split at h
  · exact .inl h
  by_cases hids : group = g ∧ sender = d
  · obtain ⟨rfl, rfl⟩ := hids
    dsimp only at h
    have hput : signature (installer keys ⟨group, sender, distribution.chainKey,
        distribution.iteration, distribution.signingPublic, none, []⟩) group sender =
        some distribution.signingPublic := by
      rw [signature, trouver_installer, Option.map_some]
    rw [hput] at h
    exact .inr ⟨rfl, rfl, distribution, hlire, Option.some.inj h⟩
  · dsimp only at h
    rw [signature_installer_ne hids] at h
    exact .inl h

/-- The signing keys are changed by `senderKeyProcess` only. -/
theorem plateforme_preserves (alloc : R → Bool) (Q : Platform R) :
    Preserves (plateforme S chainKey alloc Q) fun e => signature e.senderKeys where
  sealedOpen _ _ := rfl
  acceptSession _ _ := rfl
  importSession _ _ := rfl
  exportSession _ _ := rfl
  decrypt _ _ _ _ := rfl
  senderKeyDecrypt _ _ _ _ := by
    funext g d
    exact signature_decrypt S _ _ _ _ _ g d
  diffuserLu _ _ _ := rfl

end Engine

/-! ## The client -/

inductive EtapeAdhesion where
  /-- The server has not answered with the sealed key and the admin's device. -/
  | clef
  /-- It has not answered to the subscription. -/
  | abonnement
  | finie
  deriving DecidableEq

/-- A `rejoindreCanalParLien`: what the link says, and how far it is. -/
structure Adhesion where
  id : Text
  secret : Bytes
  nom : Text
  etape : EtapeAdhesion
  deriving DecidableEq

/-- The client, the channel links it opens, and what it has read, the latest first. -/
structure Lecteur (K R M : Type) where
  poste : Poste (Moteur K R) M
  adhesions : List Adhesion
  journal : List Lecture

inductive Geste (K R M : Type) where
  | releve (pas : Pas M)
  /-- The user opens a link. -/
  | lien (id : Text) (secret : Bytes) (nom : Text)
  /-- The server's answers to `channelKey` and `channelInfo`. -/
  | clef (i : Nat) (scelle : Option Bytes) (adminDevice : Option Text)
  | abonnement (i : Nat) (now : Int) (ok : Bool)
  /-- `senderKeyCreate` and `senderKeyEncrypt`, for our own key. -/
  | creer (conv : Text) (env : SenderKeyEnv K)
  | chiffrer (conv : Text) (alloc : Bool) (plaintext : Bytes)
  /-- All else that the client does. -/
  | autre (f : State (Moteur K R) → State (Moteur K R))

section Client

variable {K R M : Type} (S : SenderKeyPrimitives K) (chainKey : Bytes → K) (alloc : R → Bool)
  (Q : Platform R) (channelOpenKey : Bytes → Bytes → Option Bytes) (relance : R → R)
  (lire : M → Incoming)

namespace Lecteur

/-- The engine's sender keys are not stored. -/
def start (client : State (Moteur K R)) : Lecteur K R M where
  poste := ⟨{ client with outside := { client.outside with senderKeys := [] } }, []⟩
  adhesions := []
  journal := []

/-- What the step reads. -/
def lecture : Geste K R M → Lecteur K R M → Option Lecture
  | .releve (.tour i now), s =>
      match s.poste.releves[i]? with
      | some (.boucle (m :: _) _) =>
          Inbox.lecture (plateforme S chainKey alloc Q) now (lire m) s.poste.client
      | _ => none
  | _, _ => none

def putKeys (s : Lecteur K R M) (keys : List (ZiaSenderKey K)) : Lecteur K R M :=
  { s with poste := { s.poste with client := { s.poste.client with
      outside := { s.poste.client.outside with senderKeys := keys } } } }

/-- The key of the admin is filed under the device that the server names. -/
def enregistrer (s : Lecteur K R M) (i : Nat) (a : Adhesion) (adminDevice : Text)
    (distribution : Bytes) : Lecteur K R M :=
  let r := ziaSenderKeyProcess s.poste.client.outside.senderKeys (cString a.id)
    (cString adminDevice) (lireDistribution chainKey distribution)
  { s.putKeys r.2 with adhesions := s.adhesions.set i { a with etape :=
      match r.1 with
      | .ok _ => .abonnement
      | .error _ => .finie } }

/-- The channel takes the place of what has its id. -/
def abonner (s : Lecteur K R M) (i : Nat) (a : Adhesion) (now : Int) : Lecteur K R M :=
  { s with
    poste := { s.poste with client :=
      { s.poste.client.putConv a.id { Conversation.new a.id a.nom now with
          isChannel := true
          messages := s.poste.client.readHistory a.id } with
        activeConversationId := some a.id }.saveConversations }
    adhesions := s.adhesions.set i { a with etape := .finie } }

def step (g : Geste K R M) (s : Lecteur K R M) : Option (Lecteur K R M) :=
  match g with
  | .releve pas =>
      (Poste.step (plateforme S chainKey alloc Q) (fun e => ⟨[], relance e.reste⟩) lire pas
        s.poste).map fun poste =>
          { s with
            poste := poste
            journal := (lecture S chainKey alloc Q lire g s).toList ++ s.journal }
  | .lien id secret nom =>
      if (s.poste.client.conv? id).any (·.isChannel) then
        some { s with poste := { s.poste with
          client := { s.poste.client with activeConversationId := some id } } }
      else some { s with adhesions := s.adhesions ++ [⟨id, secret, nom, .clef⟩] }
  | .clef i scelle adminDevice =>
      match s.adhesions[i]? with
      | some ⟨id, secret, nom, .clef⟩ =>
          match scelle.bind (channelOpenKey secret), adminDevice with
          | some distribution, some adminDevice =>
              some (s.enregistrer chainKey i ⟨id, secret, nom, .clef⟩ adminDevice distribution)
          | _, _ => some { s with adhesions := s.adhesions.set i ⟨id, secret, nom, .finie⟩ }
      | _ => none
  | .abonnement i now ok =>
      match s.adhesions[i]? with
      | some ⟨id, secret, nom, .abonnement⟩ =>
          if ok then some (s.abonner i ⟨id, secret, nom, .abonnement⟩ now)
          else some { s with adhesions := s.adhesions.set i ⟨id, secret, nom, .finie⟩ }
      | _ => none
  | .creer conv env =>
      some (s.putKeys (ziaSenderKeyCreate S env s.poste.client.outside.senderKeys
        (cString conv)).2)
  | .chiffrer conv alloc plaintext =>
      some (s.putKeys (ziaSenderKeyEncrypt S alloc s.poste.client.outside.senderKeys
        (cString conv) plaintext).2)
  | .autre f =>
      some ({ s with poste := { s.poste with client := f s.poste.client } }.putKeys
        s.poste.client.outside.senderKeys)

variable (G D : Text)

/-- The key under which group messages of `D` in `G` are verified. -/
def clefDe (s : Lecteur K R M) : Option PublicKey :=
  signature s.poste.client.outside.senderKeys (cString G) (cString D)

/-- What was read is a distribution of the key, opened with the session of `D` in `G`. -/
def Distribue (pk : PublicKey) (l : Lecture) : Prop :=
  l.groupe = none ∧ l.conv = G ∧ l.device = D ∧
    ∃ octets, distributionLue (plateforme S chainKey alloc Q) l.plain = some octets ∧
      ∃ distribution, lireDistribution chainKey octets = some distribution ∧
        distribution.signingPublic = pk

/-- The message was signed with the key. -/
def Signe (pk : PublicKey) (message : Bytes) : Prop :=
  ∃ k, S.ed25519Base k = pk ∧ message.drop (message.length - kSignatureLen) =
    (S.ed25519Sign (some k) (signedPart message)).bytes

/-- A group message that is taken for one of `D` in `G` was signed with a key that `D`
distributed by its session in `G`, and no other step files a key there. -/
def Attribuee (g : Geste K R M) (s : Lecteur K R M) : Prop :=
  (∀ l, lecture S chainKey alloc Q lire g s = some l → l.conv = G → l.device = D →
    ∀ message, l.groupe = some message → ∃ pk, (∃ l' ∈ s.journal,
      Distribue S chainKey alloc Q G D pk l') ∧ Signe S pk message) ∧
  ∀ t pk, step S chainKey alloc Q channelOpenKey relance lire g s = some t →
    clefDe G D t = some pk → clefDe G D s = some pk ∨
      ∃ l, lecture S chainKey alloc Q lire g s = some l ∧ Distribue S chainKey alloc Q G D pk l

/-- What is read under the C strings of `G` and `D` and distributes a key was opened with the
session of `D` in `G`, and no key of a link is opened under these C strings. -/
def ParSession (g : Geste K R M) (s : Lecteur K R M) : Prop :=
  match g with
  | .clef i scelle adminDevice => ∀ a ∈ s.adhesions[i]?,
      (scelle.bind (channelOpenKey a.secret)).isSome → ∀ device ∈ adminDevice,
        ¬ (cString a.id = cString G ∧ cString device = cString D)
  | g => ∀ l ∈ lecture S chainKey alloc Q lire g s,
      ((distributionLue (plateforme S chainKey alloc Q) l.plain).bind
        (lireDistribution chainKey)).isSome →
        cString l.conv = cString G → cString l.device = cString D →
          l.groupe = none ∧ l.conv = G ∧ l.device = D

/-- The key that is filed under `G` and `D` was distributed. -/
def Tenue (s : Lecteur K R M) : Prop :=
  ∀ pk, clefDe G D s = some pk → ∃ l ∈ s.journal, Distribue S chainKey alloc Q G D pk l

variable {S chainKey alloc Q channelOpenKey relance lire G D} {g : Geste K R M}
  {s t : Lecteur K R M} {pk : PublicKey}

theorem clefDe_putKeys (s : Lecteur K R M) (keys : List (ZiaSenderKey K)) :
    clefDe G D (s.putKeys keys) = signature keys (cString G) (cString D) := rfl

/-- Our own key is under no device. -/
theorem clefDe_creer (hD : cString D ≠ []) (conv : Text) (env : SenderKeyEnv K) :
    clefDe G D (s.putKeys (ziaSenderKeyCreate S env s.poste.client.outside.senderKeys
      (cString conv)).2) = clefDe G D s := by
  rw [clefDe_putKeys, clefDe, ziaSenderKeyCreate]
  split
  · rfl
  · dsimp only
    split
    · exact signature_installer_ne fun h => hD h.2.symm
    · exact signature_installer_ne fun h => hD h.2.symm

theorem clefDe_chiffrer (conv : Text) (alloc : Bool) (plaintext : Bytes) :
    clefDe G D (s.putKeys (ziaSenderKeyEncrypt S alloc s.poste.client.outside.senderKeys
      (cString conv) plaintext).2) = clefDe G D s := by
  rw [clefDe_putKeys, clefDe, ziaSenderKeyEncrypt]
  split
  · rfl
  rename_i st hst
  split
  · rfl
  split
  · rfl
  · exact signature_ecrire hst (sameSender_avancer st) _ _

/-- A link files its key under the ids it has and is given. -/
theorem clefDe_enregistrer {i : Nat} {a : Adhesion} {adminDevice : Text} {distribution : Bytes}
    (hne : ¬ (cString a.id = cString G ∧ cString adminDevice = cString D)) :
    clefDe G D (s.enregistrer chainKey i a adminDevice distribution) = clefDe G D s := by
  change signature (ziaSenderKeyProcess _ _ _ _).2 _ _ = _
  unfold ziaSenderKeyProcess
  split
  · rfl
  split
  · rfl
  split
  · rfl
  · exact signature_installer_ne hne

/-- What reading a message files. -/
theorem clefDe_tour {i : Nat} {now : Int} {m : M} {reste : List M} {touched : List Text}
    (hreleve : s.poste.releves[i]? = some (.boucle (m :: reste) touched))
    (hpk : signature (receive (plateforme S chainKey alloc Q) now (lire m)
      s.poste.client).1.outside.senderKeys (cString G) (cString D) = some pk) :
    clefDe G D s = some pk ∨ ∃ l octets,
      lecture S chainKey alloc Q lire (.releve (.tour i now)) s = some l ∧
        distributionLue (plateforme S chainKey alloc Q) l.plain = some octets ∧
          cString l.conv = cString G ∧ cString l.device = cString D ∧
            ∃ distribution, lireDistribution chainKey octets = some distribution ∧
              distribution.signingPublic = pk := by
  have hlecture : lecture S chainKey alloc Q lire (.releve (.tour i now)) s =
      Inbox.lecture (plateforme S chainKey alloc Q) now (lire m) s.poste.client := by
    rw [lecture, hreleve]
  obtain hsame | ⟨l, octets, e, hl, hlue, he, heq⟩ :=
    @receive_view _ _ _ _ now (lire m) s.poste.client (plateforme_preserves S chainKey alloc Q)
  · have hkey := congrFun (congrFun hsame (cString G)) (cString D)
    rw [hkey] at hpk
    exact .inl hpk
  · rw [heq] at hpk
    obtain hold | ⟨hconv, hdevice, hdistribution⟩ := signature_process hpk
    · have hkey := congrFun (congrFun he (cString G)) (cString D)
      rw [hkey] at hold
      exact .inl hold
    · exact .inr ⟨l, octets, hlecture.trans hl, hlue, hconv, hdevice, hdistribution⟩

/-- A key that a step files under `G` and `D` is one that `D` distributes. -/
theorem clefDe_step (hD : cString D ≠ []) (hC : ParSession S chainKey alloc Q channelOpenKey lire G D g s)
    (ht : step S chainKey alloc Q channelOpenKey relance lire g s = some t)
    (hpk : clefDe G D t = some pk) : clefDe G D s = some pk ∨
      ∃ l, lecture S chainKey alloc Q lire g s = some l ∧
        Distribue S chainKey alloc Q G D pk l := by
  cases g with
  | releve pas =>
    obtain ⟨poste, hposte, rfl⟩ := Option.map_eq_some_iff.mp ht
    cases pas with
    | arrivee incoming =>
      obtain rfl := Option.some.inj hposte
      exact .inl hpk
    | tour i now =>
      rw [Poste.step] at hposte
      split at hposte
      · rename_i m reste touched hreleve
        obtain rfl := Option.some.inj hposte
        have hpk' : signature (receive (plateforme S chainKey alloc Q) now (lire m)
            s.poste.client).1.outside.senderKeys (cString G) (cString D) = some pk := by
          rw [← hpk, clefDe]
          dsimp only
          rw [afficher]
          split <;> rfl
        obtain hold | ⟨l, octets, hl, hlue, hconv, hdevice, distribution, hlire, hpk⟩ :=
          clefDe_tour hreleve hpk'
        · exact .inl hold
        · have hsome : ((distributionLue (plateforme S chainKey alloc Q) l.plain).bind
              (lireDistribution chainKey)).isSome = true := by
            rw [hlue, Option.bind_some, hlire]
            rfl
          obtain ⟨hgroupe, hG, hD'⟩ := hC l hl hsome hconv hdevice
          exact .inr ⟨l, hl, hgroupe, hG, hD', octets, hlue, distribution, hlire, hpk⟩
      · cases hposte
    | ecrire i =>
      rw [Poste.step] at hposte
      split at hposte
      · obtain rfl := Option.some.inj hposte
        exact .inl hpk
      · rename_i e reste hreleve
        obtain rfl := Option.some.inj hposte
        have hsame := Ecriture.faire_view (plateforme_preserves S chainKey alloc Q) e s.poste.client
        have hkey := congrFun (congrFun hsame (cString G)) (cString D)
        exact .inl (hkey.symm.trans hpk)
      · cases hposte
    | arret =>
      obtain rfl := Option.some.inj hposte
      cases hpk
  | lien id secret nom =>
    rw [step] at ht
    split at ht
    · obtain rfl := Option.some.inj ht
      exact .inl hpk
    · obtain rfl := Option.some.inj ht
      exact .inl hpk
  | clef i scelle adminDevice =>
    rw [step] at ht
    split at ht
    · rename_i id secret nom hadhesion
      split at ht
      · rename_i distribution device hopen
        obtain rfl := Option.some.inj ht
        rw [clefDe_enregistrer (hC _ hadhesion (by rw [hopen]; rfl) device rfl)] at hpk
        exact .inl hpk
      · obtain rfl := Option.some.inj ht
        exact .inl hpk
    · cases ht
  | abonnement i now ok =>
    rw [step] at ht
    split at ht
    · split at ht
      · obtain rfl := Option.some.inj ht
        exact .inl hpk
      · obtain rfl := Option.some.inj ht
        exact .inl hpk
    · cases ht
  | creer conv env =>
    obtain rfl := Option.some.inj ht
    rw [clefDe_creer hD] at hpk
    exact .inl hpk
  | chiffrer conv alloc plaintext =>
    obtain rfl := Option.some.inj ht
    rw [clefDe_chiffrer] at hpk
    exact .inl hpk
  | autre f =>
    obtain rfl := Option.some.inj ht
    exact .inl hpk

/-- The client notes what it reads. -/
theorem journal_step (ht : step S chainKey alloc Q channelOpenKey relance lire g s = some t) :
    t.journal = (lecture S chainKey alloc Q lire g s).toList ++ s.journal := by
  cases g with
  | releve pas =>
    obtain ⟨poste, -, rfl⟩ := Option.map_eq_some_iff.mp ht
    rfl
  | clef i scelle adminDevice =>
    rw [step] at ht
    split at ht
    · split at ht
      · obtain rfl := Option.some.inj ht
        rfl
      · obtain rfl := Option.some.inj ht
        rfl
    · cases ht
  | abonnement i now ok =>
    rw [step] at ht
    split at ht
    · split at ht
      · obtain rfl := Option.some.inj ht
        rfl
      · obtain rfl := Option.some.inj ht
        rfl
    · cases ht
  | lien id secret nom =>
    rw [step] at ht
    split at ht
    · obtain rfl := Option.some.inj ht
      rfl
    · obtain rfl := Option.some.inj ht
      rfl
  | creer conv env =>
    obtain rfl := Option.some.inj ht
    rfl
  | chiffrer conv alloc plaintext =>
    obtain rfl := Option.some.inj ht
    rfl
  | autre f =>
    obtain rfl := Option.some.inj ht
    rfl

theorem Tenue.step (hD : cString D ≠ []) (hs : Tenue S chainKey alloc Q G D s)
    (hC : ParSession S chainKey alloc Q channelOpenKey lire G D g s)
    (ht : Lecteur.step S chainKey alloc Q channelOpenKey relance lire g s = some t) :
    Tenue S chainKey alloc Q G D t := by
  intro pk hpk
  rw [journal_step ht]
  obtain hold | ⟨l, hl, hdistribue⟩ := clefDe_step hD hC ht hpk
  · obtain ⟨l, hmem, hdistribue⟩ := hs pk hold
    exact ⟨l, List.mem_append_right _ hmem, hdistribue⟩
  · exact ⟨l, List.mem_append_left _ (by rw [hl]; exact List.mem_singleton_self l), hdistribue⟩

/-- A group message was verified under the key that is filed. -/
theorem Tenue.attribuee (hsign : ∀ pk message sig, S.ed25519Verify pk message sig = true →
      ∃ k, S.ed25519Base k = pk ∧ sig = (S.ed25519Sign (some k) message).bytes)
    (hD : cString D ≠ []) (hs : Tenue S chainKey alloc Q G D s)
    (hC : ParSession S chainKey alloc Q channelOpenKey lire G D g s) :
    Attribuee S chainKey alloc Q channelOpenKey relance lire G D g s := by
  refine ⟨fun l hl hG hD' message hgroupe => ?_, fun t pk ht hpk => clefDe_step hD hC ht hpk⟩
  obtain ⟨i, now, m, reste, touched, rfl, hreleve⟩ : ∃ i now m reste touched,
      g = .releve (.tour i now) ∧ s.poste.releves[i]? = some (.boucle (m :: reste) touched) := by
    unfold lecture at hl
    split at hl
    · split at hl
      · rename_i hreleve
        exact ⟨_, _, _, _, _, rfl, hreleve⟩
      · cases hl
    · cases hl
  rw [lecture, hreleve] at hl
  obtain ⟨e, he, hplain⟩ :=
    lecture_groupe (plateforme_preserves S chainKey alloc Q) hl hgroupe
  have hok : ∃ plain, (ziaSenderKeyDecrypt S (alloc e.reste) e.senderKeys (cString l.conv)
      (cString l.device) message).1 = .ok plain := by
    change Except.toOption (ziaSenderKeyDecrypt S (alloc e.reste) e.senderKeys (cString l.conv)
      (cString l.device) message).1 = some l.plain at hplain
    cases hr : (ziaSenderKeyDecrypt S (alloc e.reste) e.senderKeys (cString l.conv)
      (cString l.device) message).1 with
    | ok plain => exact ⟨plain, rfl⟩
    | error rc =>
      rw [hr] at hplain
      cases hplain
  obtain ⟨plain, hok⟩ := hok
  obtain ⟨pk, hpk, hverifie⟩ := decrypt_verifie S hok
  have hkey := congrFun (congrFun he (cString l.conv)) (cString l.device)
  rw [hkey, hG, hD'] at hpk
  exact ⟨pk, hs pk hpk, hsign pk _ _ hverifie⟩

/-- In the runs where no link is opened under the C strings of `G` and `D`, and every
distribution that is read under them was opened with the session of `D` in `G`, the group
messages taken for ones of `D` in `G` were signed with keys that `D` distributed by its session
in `G`, and nobody else files a key there. Signatures cannot be forged. -/
theorem clefs_attribuees (S : SenderKeyPrimitives K)
    (hsign : ∀ pk message sig, S.ed25519Verify pk message sig = true →
      ∃ k, S.ed25519Base k = pk ∧ sig = (S.ed25519Sign (some k) message).bytes)
    (chainKey : Bytes → K) (alloc : R → Bool) (Q : Platform R)
    (channelOpenKey : Bytes → Bytes → Option Bytes) (relance : R → R) (lire : M → Incoming)
    (G D : Text) (hD : cString D ≠ []) (client : State (Moteur K R)) {gestes : List (Geste K R M)}
    (hC : Always (step S chainKey alloc Q channelOpenKey relance lire)
      (ParSession S chainKey alloc Q channelOpenKey lire G D) gestes (start client)) :
    Always (step S chainKey alloc Q channelOpenKey relance lire)
      (Attribuee S chainKey alloc Q channelOpenKey relance lire G D) gestes (start client) := by
  have hstart : Tenue S chainKey alloc Q G D (start client : Lecteur K R M) := by
    intro pk hpk
    cases hpk
  exact always_of_invariant (Tenue S chainKey alloc Q G D)
    (fun g s t hs hc ht => hs.step hD hc ht) (fun g s hs hc => hs.attribuee hsign hD hc) hstart hC

instance decidableParSession (g : Geste K R M) (s : Lecteur K R M) :
    Decidable (ParSession S chainKey alloc Q channelOpenKey lire G D g s) :=
  match g with
  | .clef i scelle adminDevice => inferInstanceAs (Decidable (∀ a ∈ s.adhesions[i]?,
      (scelle.bind (channelOpenKey a.secret)).isSome → ∀ device ∈ adminDevice,
        ¬ (cString a.id = cString G ∧ cString device = cString D)))
  | .releve pas => inferInstanceAs (Decidable (∀ l ∈
      lecture S chainKey alloc Q lire (.releve pas) s,
        ((distributionLue (plateforme S chainKey alloc Q) l.plain).bind
          (lireDistribution chainKey)).isSome →
          cString l.conv = cString G → cString l.device = cString D →
            l.groupe = none ∧ l.conv = G ∧ l.device = D))
  | .lien _ _ _ => isTrue fun _ h => by cases h
  | .abonnement _ _ _ => isTrue fun _ h => by cases h
  | .creer _ _ => isTrue fun _ h => by cases h
  | .chiffrer _ _ _ => isTrue fun _ h => by cases h
  | .autre _ => isTrue fun _ h => by cases h

end Lecteur

end Client

/-! ## Bob's key, and another -/

namespace Lecteur

/-- The key that signs with `signing`. -/
def clefSimple (signing : UInt8) : Distribution Bytes :=
  ⟨kMagicDistribution, 0, List.replicate 32 3, FixedBytes.copy 32 [signing] 0⟩

def octetsDe (d : Distribution Bytes) : Bytes :=
  d.magic ++ (putU32 d.iteration ++ (d.chainKey ++ d.signingPublic.bytes))

/-- What the holder of the key seals for Bob's group. -/
def chiffreSimple (signing : UInt8) (plain : Bytes) : Bytes :=
  let d := clefSimple signing
  ((ziaSenderKeyEncrypt symbolicSender true
    [⟨cString (text "bob"), [], d.chainKey, 0, d.signingPublic, some [signing], []⟩]
    (cString (text "bob")) plain).1.toOption).getD []

/-- Distributions of key 4 and of key 5, the first also for a session, and a text under each. -/
def clefsScript : Script where
  json := [(text "4", .obj [(text "k", .str (text "k4"))]),
    (text "5", .obj [(text "k", .str (text "k5"))])]
  base64 := [(text "AA==", [0]), (text "Ag==", [2]),
    (text "k4", octetsDe (clefSimple 4)), (text "k5", octetsDe (clefSimple 5)),
    (text "s4", [9]), (text "g5", chiffreSimple 4 (ascii "__zia_skey__:5")),
    (text "t4", chiffreSimple 4 bonjourPayload), (text "t5", chiffreSimple 5 bonjourPayload)]
  opened := [([9], ascii "__zia_skey__:4")]

/-- Bob's device, and one that a zero sets apart. -/
def bobUn : Text := text "bob-1"

def bobZero : Text := bobUn ++ [0]

example : cString bobZero = cString bobUn := by decide

/-- A group with a session with each. -/
def groupeDeBob : State (Moteur Bytes Unit) :=
  let s := (loggedIn (text "me") (text "moi")).putConv (text "bob")
    { Conversation.new (text "bob") (text "bob") 0 with
      peerUserId := some (text "u-bob")
      isGroup := true
      sessions := (LinkedMap.empty.insert bobUn 0).insert bobZero 1 }
  { s with outside := ⟨[], ()⟩ }

abbrev pasSimple : Geste Bytes Unit Incoming → Lecteur Bytes Unit Incoming →
    Option (Lecteur Bytes Unit Incoming) :=
  step symbolicSender id (fun _ => true) (scripted clefsScript)
    (fun _ _ => some (octetsDe (clefSimple 5))) id id

/-- The message is polled and read. -/
def lue (i : Nat) (header ciphertext : Text) (device : Text) : List (Geste Bytes Unit Incoming) :=
  [.releve (.arrivee [{ fromBob ciphertext with
    header := .str header
    senderDeviceId := .str device }]), .releve (.tour i 0)]

theorem symbolicSender_infalsifiable (pk : PublicKey) (message sig : Bytes)
    (h : symbolicSender.ed25519Verify pk message sig = true) :
    ∃ k, symbolicSender.ed25519Base k = pk ∧
      sig = (symbolicSender.ed25519Sign (some k) message).bytes := by
  have hsig : sig = pk.bytes ++ (FixedBytes.copy 32 message 0).bytes := eq_of_beq h
  refine ⟨pk.bytes, FixedBytes.copy_bytes pk, ?_⟩
  change sig = (FixedBytes.copy 32 pk.bytes 0).bytes ++ (FixedBytes.copy 32 message 0).bytes
  rw [FixedBytes.copy_bytes, hsig]

/-- Bob's key comes by his session, and his text is read. -/
theorem clefDeBob_attribuee :
    Always pasSimple (Attribuee symbolicSender id (fun _ => true) (scripted clefsScript)
        (fun _ _ => some (octetsDe (clefSimple 5))) id id (text "bob") bobUn)
      (lue 0 (text "AA==") (text "s4") bobUn ++ lue 1 (text "Ag==") (text "t4") bobUn)
      (start groupeDeBob) ∧
    (run pasSimple
      (lue 0 (text "AA==") (text "s4") bobUn ++ lue 1 (text "Ag==") (text "t4") bobUn)
        (start groupeDeBob)).map (fun s => s.journal.map (·.plain)) =
      some [bonjourPayload, ascii "__zia_skey__:4"] :=
  ⟨clefs_attribuees symbolicSender symbolicSender_infalsifiable id _ _ _ id id (text "bob") bobUn
    (by decide) groupeDeBob (by decide +kernel), by decide +kernel⟩

/-- A group message taken for one of Bob's verifies under a key that his session brought. -/
def Annoncee (g : Geste Bytes Unit Incoming) (s : Lecteur Bytes Unit Incoming) : Prop :=
  ∀ l ∈ lecture symbolicSender id (fun _ => true) (scripted clefsScript) id g s,
    l.conv = text "bob" → l.device = bobUn → ∀ message ∈ l.groupe, ∃ l' ∈ s.journal,
      (l'.groupe = none ∧ l'.conv = text "bob" ∧ l'.device = bobUn) ∧
        ((distributionLue (plateforme symbolicSender id (fun _ => true) (scripted clefsScript))
          l'.plain).bind (lireDistribution id)).any fun d =>
            symbolicSender.ed25519Verify d.signingPublic (signedPart message)
              (message.drop (message.length - kSignatureLen))

instance (g : Geste Bytes Unit Incoming) (s : Lecteur Bytes Unit Incoming) :
    Decidable (Annoncee g s) :=
  inferInstanceAs (Decidable (∀ l ∈ lecture symbolicSender id (fun _ => true)
    (scripted clefsScript) id g s, l.conv = text "bob" → l.device = bobUn →
      ∀ message ∈ l.groupe, ∃ l' ∈ s.journal,
        (l'.groupe = none ∧ l'.conv = text "bob" ∧ l'.device = bobUn) ∧
          ((distributionLue (plateforme symbolicSender id (fun _ => true) (scripted clefsScript))
            l'.plain).bind (lireDistribution id)).any fun d =>
              symbolicSender.ed25519Verify d.signingPublic (signedPart message)
                (message.drop (message.length - kSignatureLen))))

theorem annoncee_of_attribuee {gestes : List (Geste Bytes Unit Incoming)}
    {s : Lecteur Bytes Unit Incoming}
    (h : Always pasSimple (Attribuee symbolicSender id (fun _ => true) (scripted clefsScript)
      (fun _ _ => some (octetsDe (clefSimple 5))) id id (text "bob") bobUn) gestes s) :
    Always pasSimple Annoncee gestes s := by
  refine always_of_invariant (fun _ => True) (fun _ _ _ _ _ _ => trivial) ?_ trivial h
  intro g s _ hattribuee l hl hG hD message hgroupe
  obtain ⟨pk, ⟨l', hmem, hnone, hG', hD', octets, hlue, d, hlire, rfl⟩, k, hk, hsig⟩ :=
    hattribuee.1 l hl hG hD message hgroupe
  refine ⟨l', hmem, ⟨hnone, hG', hD'⟩, ?_⟩
  rw [hlue, Option.bind_some, hlire, Option.any_some, hsig, ← hk]
  exact symbolicSender_signatureCorrect _ _

/-- The text of a stranger is taken for Bob's: after a link to the group's id for which the
server names Bob's device, after a distribution in a group message, and after one of a device
whose id is Bob's before a zero. -/
theorem clefs_usurpees :
    (¬ Always pasSimple (Attribuee symbolicSender id (fun _ => true) (scripted clefsScript)
        (fun _ _ => some (octetsDe (clefSimple 5))) id id (text "bob") bobUn)
      ([.lien (text "bob") [] (text "canal"), .clef 0 (some []) (some bobUn)] ++
        lue 0 (text "Ag==") (text "t5") bobUn) (start groupeDeBob)) ∧
    (¬ Always pasSimple (Attribuee symbolicSender id (fun _ => true) (scripted clefsScript)
        (fun _ _ => some (octetsDe (clefSimple 5))) id id (text "bob") bobUn)
      (lue 0 (text "AA==") (text "s4") bobUn ++ (lue 1 (text "Ag==") (text "g5") bobUn ++
        lue 2 (text "Ag==") (text "t5") bobUn)) (start groupeDeBob)) ∧
    ¬ Always pasSimple (Attribuee symbolicSender id (fun _ => true) (scripted clefsScript)
        (fun _ _ => some (octetsDe (clefSimple 5))) id id (text "bob") bobUn)
      (lue 0 (text "AA==") (text "s4") bobZero ++ lue 1 (text "Ag==") (text "t4") bobUn)
      (start groupeDeBob) := by
  refine ⟨fun h => ?_, fun h => ?_, fun h => ?_⟩
  · exact absurd (annoncee_of_attribuee h) (by decide +kernel)
  · exact absurd (annoncee_of_attribuee h) (by decide +kernel)
  · exact absurd (annoncee_of_attribuee h) (by decide +kernel)

end Lecteur

end ZiaCrypte.Inbox
