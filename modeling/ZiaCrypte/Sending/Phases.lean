import ZiaCrypte.Lib.Ghosts
import ZiaCrypte.Sending.Copies

/-!
# Where a sending stands

A body that sends posts for one sending only, the grouped request before those of the devices
and each of these once; the message it adds is marked as failed when none of them was answered.
-/
namespace ZiaCrypte.Sending

open ZiaCrypte.Lib ZiaCrypte.Engine
open ZiaCrypte.Server (Uuid Auth Database)
open ZiaCrypte.Inbox (Text ChatMessage AttachmentRef)

inductive Phase where
  /-- It posts nothing any more, and has no message to add. -/
  | dehors
  /-- `renvoyer`, before it takes the failed message out of its thread. -/
  | reprise (l : Ligne) (uuid : Nat)
  /-- It draws its number next. -/
  | compose (uuid : Nat)
  /-- `faits` are the devices it has posted to one by one, `recu` says whether one of these
  requests was answered. -/
  | envoi (envoi : Nat) (faits : List Uuid) (recu : Bool)
  /-- The grouped request was answered. -/
  | livre (envoi : Nat)

namespace Phase

/-- The sending of the phase. -/
def numero : Phase → Option Nat
  | .compose uuid => some uuid
  | .envoi n _ _ => some n
  | .livre n => some n
  | _ => none

/-- Whether a body may wait in the phase. -/
def auRepos : Phase → Bool
  | .reprise _ _ => false
  | .compose _ => false
  | _ => true

/-- The message of the sending is added. -/
def Ajoute (l : Ligne) : Phase → Prop
  | .envoi n _ recu => l.envoi = some n ∧ (l.message.sendFailed = true → recu = false)
  | .livre n => l.envoi = some n ∧ l.message.sendFailed = false
  | _ => False

/-- The failed message is taken out. -/
def Retire (l : Ligne) (a : Stmt) (s : Monde) : Prop :=
  ∃ c ∈ s.conversations, a = .retoucher c.id (.retirer l) ∧ l.message.sendFailed = true ∧
    l ∈ c.messages

/-- What a body may do that could wait. -/
def Permet (g : Phase) : Stmt → Prop
  | .retoucher _ (.ajouter l) => g.Ajoute l
  | .charger c => c.sessions.Nodup
  | .regler _ _ sessions _ _ => sessions.Nodup
  | _ => True

def Agit (a : Stmt) (s : Monde) : Phase → Prop
  | .reprise l _ => Retire l a s
  | .compose _ => a = .tirer ∨ ∃ conv, a = .setActive conv
  | g => g.Permet a

def apres (a : Stmt) (s : Monde) : Phase → Phase
  | .reprise _ uuid => .compose uuid
  | .compose uuid =>
      match a with
      | .tirer => .envoi s.uuid [] false
      | _ => .compose uuid
  | g =>
      match a with
      | .retoucher _ (.ajouter _) => .dehors
      | _ => g

def Demande (q : Request) : Phase → Prop
  | .reprise _ _ => False
  | .compose _ => False
  | .envoi n faits recu =>
      match q with
      | .sendGroupMessage n' _ => n' = n ∧ faits = [] ∧ recu = false
      | .sendMessage n' body => n' = n ∧ body.recipientDeviceId ∉ faits
      | _ => True
  | _ => q.call = none

def reponse (q : Request) (r : Except Unit (Reply q)) : Phase → Phase
  | .envoi n faits recu =>
      match q with
      | .sendGroupMessage _ body =>
          if r.isOk && !body.recipientDeviceIds.isEmpty then .livre n else .envoi n faits recu
      | .sendMessage _ body => .envoi n (body.recipientDeviceId :: faits) (recu || r.isOk)
      | _ => .envoi n faits recu
  | g => g

end Phase

/-- The sessions of a conversation are the keys of a map. -/
def Cles (s : Monde) : Prop := ∀ c ∈ s.conversations, c.sessions.Nodup

def sendProtocol : Protocol Monde Stmt Request Reply Unit Phase where
  known := Cles
  act := Phase.Agit
  afterAct := Phase.apres
  ask := Phase.Demande
  afterAsk := Phase.reponse

/-- The body keeps to the phases of a sending. -/
abbrev SendFollows (nom : Uuid → Text) {α : Type} (post : Except Unit α → Monde → Phase → Prop)
    (x : Task α) (s : Monde) (g : Phase) : Prop :=
  Follows (outboxSemantics nom) sendProtocol post x s g

variable {nom : Uuid → Text} {s s' : Monde} {g : Phase}

/-! ## Sessions -/

theorem Cles.mapConv (h : Cles s) {id : Uuid} {f : Conversation → Conversation}
    (hf : ∀ c ∈ s.conversations, (f c).sessions.Nodup) : Cles (s.mapConv id f) := by
  intro c' hc'
  obtain ⟨c, hc, rfl⟩ := List.mem_map.mp hc'
  split
  · exact hf c hc
  · exact h c hc

theorem agit_iff {a : Stmt} (hg : g.auRepos = true) : g.Agit a s ↔ g.Permet a := by
  cases g with
  | reprise l uuid => cases hg
  | compose uuid => cases hg
  | _ => exact Iff.rfl

/-- Only the addition of its message moves a body that could wait. -/
theorem apres_eq {a : Stmt} (hg : g.auRepos = true)
    (ha : ∀ conv l, a ≠ .retoucher conv (.ajouter l)) : g.apres a s = g := by
  cases g with
  | reprise l uuid => cases hg
  | compose uuid => cases hg
  | _ =>
    cases a with
    | retoucher conv r =>
      cases r with
      | ajouter l => exact absurd rfl (ha conv l)
      | _ => rfl
    | _ => rfl

theorem Cles.permet (h : Cles s) {a : Stmt} (ha : g.Permet a) : Cles (a.apply s) := by
  cases a with
  | retoucher conv r => exact h.mapConv fun c hc => h c hc
  | charger c =>
    show Cles (if _ then s else _)
    split
    · exact h
    · intro c' hc'
      rcases List.mem_append.mp hc' with hold | hnew
      · exact h c' hold
      · rw [List.mem_singleton.mp hnew]
        exact ha
  | oublier conv => exact fun c hc => h c (List.mem_of_mem_filter hc)
  | regler conv isGroup sessions ownDeviceIds ttl => exact h.mapConv fun c hc => ha
  | tirer => exact h
  | setActive conv => exact h
  | setReplyingTo m => exact h
  | recepisse envoi copie => exact h
  | deposer rows => exact h
  | purger ids => exact h
  | tables db => exact h

/-- A statement that is permitted keeps the maps of sessions. -/
theorem Cles.act (h : Cles s) {a : Stmt} (ha : g.Agit a s) : Cles (a.apply s) := by
  cases g with
  | reprise l uuid =>
    obtain ⟨c, -, rfl, -⟩ := ha
    exact h.permet (g := .dehors) trivial
  | compose uuid =>
    rcases ha with rfl | ⟨conv, rfl⟩
    · exact h
    · exact h
  | dehors => exact h.permet (g := .dehors) ha
  | envoi n faits recu => exact h.permet (g := .envoi n faits recu) ha
  | livre n => exact h.permet (g := .livre n) ha

theorem Cles.sessions (h : Cles s) (conv : Uuid) : (s.sessions conv).Nodup := by
  unfold Monde.sessions
  cases hconv : s.conv? conv with
  | none => exact List.nodup_nil
  | some c => exact h c (List.mem_of_find?_eq_some hconv)

/-! ## Rules -/

theorem sendFollows_bind {α β : Type} {Q : Except Unit α → Monde → Phase → Prop}
    {post : Except Unit β → Monde → Phase → Prop} {x : Task α} {f : α → Task β} (hs : Cles s)
    (hx : SendFollows nom Q x s g)
    (hf : ∀ a s' g', Cles s' → Q (.ok a) s' g' → SendFollows nom post (f a) s' g')
    (herror : ∀ s' g', Q (.error ()) s' g' → post (.error ()) s' g') :
    SendFollows nom post (x >>= f) s g := by
  refine (follows_bind x f).mpr (hx.mono (fun a s g ha hs => hs.act ha) ?_ hs)
  intro r s' g' hs' hr
  cases r with
  | ok a => exact hf a s' g' hs' hr
  | error e => exact herror s' g' hr

/-- A body that is caught. -/
theorem sendFollows_orElse {α : Type} {Q post : Except Unit α → Monde → Phase → Prop}
    {x : Task α} {h : Unit → Task α} (hs : Cles s) (hx : SendFollows nom Q x s g)
    (hok : ∀ a s' g', Q (.ok a) s' g' → post (.ok a) s' g')
    (herror : ∀ s' g', Cles s' → Q (.error ()) s' g' → SendFollows nom post (h ()) s' g') :
    SendFollows nom post (x.orElse h) s g := by
  refine (follows_orElse x h).mpr (hx.mono (fun a s g ha hs => hs.act ha) ?_ hs)
  intro r s' g' hs' hr
  cases r with
  | ok a => exact hok a s' g' hr
  | error e => exact herror s' g' hs' hr

theorem sendFollows_get {α : Type} {post : Except Unit α → Monde → Phase → Prop}
    {f : Monde → Task α} (h : SendFollows nom post (f s) s g) :
    SendFollows nom post (Async.get >>= f) s g := h

theorem sendFollows_exec {α : Type} {post : Except Unit α → Monde → Phase → Prop} {a : Stmt}
    {f : Unit → Task α} (ha : g.Agit a s)
    (h : SendFollows nom post (f ()) (a.apply s) (g.apres a s)) :
    SendFollows nom post (Async.exec a >>= f) s g := ⟨ha, h⟩

/-- The answer to a request that is not one of those of a sending. -/
theorem reponse_eq {q : Request} (hq : q.call = none) (r : Except Unit (Reply q)) :
    g.reponse q r = g := by
  cases g with
  | envoi n faits recu =>
    cases q with
    | sendGroupMessage envoi body => cases hq
    | sendMessage envoi body => cases hq
    | _ => rfl
  | _ => rfl

theorem sendFollows_request {q : Request} (hq : q.call = none) (hg : g.auRepos = true) :
    SendFollows nom (fun _ s' g' => Cles s' ∧ g' = g) (Async.request q : Task (Reply q)) s g := by
  refine ⟨?_, fun r s' hs' => ⟨hs', reponse_eq hq r⟩⟩
  cases g with
  | reprise l uuid => cases hg
  | compose uuid => cases hg
  | envoi n faits recu =>
    cases q with
    | sendGroupMessage envoi body => cases hq
    | sendMessage envoi body => cases hq
    | _ => exact trivial
  | dehors => exact hq
  | livre n => exact hq

theorem saveHistory_follows (conv : Uuid) (hg : g.auRepos = true) :
    SendFollows nom (fun _ _ _ => True) (saveHistory conv) s g := by
  refine sendFollows_get ?_
  have hrequest : SendFollows nom (fun _ s' g' => Cles s' ∧ g' = g)
      (Async.request (.vaultWrite conv (s.messages conv))) s g := sendFollows_request rfl hg
  exact ⟨hrequest.1, fun _ _ _ => trivial⟩

/-- The number of the sending. -/
theorem sendFollows_numero {α : Type} {post : Except Unit α → Monde → Phase → Prop}
    {f : Uuid → Task α}
    (h : SendFollows nom post (f s.uuid) (Stmt.tirer.apply s) (.envoi s.uuid [] false)) :
    SendFollows nom post (uuidV4 >>= f) s (.compose s.uuid) := ⟨.inl rfl, h⟩

/-- A number for a copy. -/
theorem sendFollows_copie {α : Type} {post : Except Unit α → Monde → Phase → Prop}
    {f : Uuid → Task α} {n : Nat} {faits : List Uuid} {recu : Bool} (hs : Cles s)
    (h : ∀ copie s', Cles s' → SendFollows nom post (f copie) s' (.envoi n faits recu)) :
    SendFollows nom post (uuidV4 >>= f) s (.envoi n faits recu) :=
  ⟨trivial, h s.uuid _ hs⟩

/-! ## The paths of a sending -/

/-- How many devices a path has reached. -/
def atteints : Except Unit (Nat × List Uuid) → Nat
  | .ok r => r.1
  | .error _ => 0

/-- The grouped path has reached `k` devices. -/
def CompteGroupe (n k : Nat) (g : Phase) : Prop :=
  g = .envoi n [] false ∧ k = 0 ∨ g = .livre n ∧ 0 < k

/-- The requests to `devices` have reached `k` of them. -/
def Compte (n : Nat) (faits devices : List Uuid) (recu : Bool) (k : Nat) (g : Phase) : Prop :=
  ∃ faits' recu', g = .envoi n faits' recu' ∧ faits' ⊆ devices ++ faits ∧
    (recu' = true → recu = true ∨ 0 < k)

theorem compte_rien (n : Nat) (faits devices : List Uuid) (recu : Bool) (k : Nat) :
    Compte n faits devices recu k (.envoi n faits recu) :=
  ⟨faits, recu, rfl, List.subset_append_right _ _, fun h => .inl h⟩

/-- One device, and then the others. -/
theorem Compte.et {n k k' : Nat} {faits devices faits₁ : List Uuid} {device : Uuid}
    {recu recu₁ : Bool} (hfaits : faits₁ ⊆ [device] ++ faits)
    (hrecu : recu₁ = true → recu = true ∨ 0 < k) (h : Compte n faits₁ devices recu₁ k' g) :
    Compte n faits (device :: devices) recu (k + k') g := by
  obtain ⟨faits₂, recu₂, rfl, hfaits₂, hrecu₂⟩ := h
  refine ⟨faits₂, recu₂, rfl, fun d hd => ?_, fun htrue => ?_⟩
  · rcases List.mem_append.mp (hfaits₂ hd) with hrest | hfirst
    · exact List.mem_append_left _ (List.mem_cons_of_mem _ hrest)
    · rcases List.mem_append.mp (hfaits hfirst) with hone | hold
      · rw [List.mem_singleton.mp hone]
        exact List.mem_append_left _ List.mem_cons_self
      · exact List.mem_append_right _ hold
  · rcases hrecu₂ htrue with hone | hrest
    · exact (hrecu hone).imp_right fun hpos => by omega
    · exact .inr (by omega)

/-- Behind the answer to the grouped request. -/
theorem compteGroupe_reponse {n : Nat} {body : Server.GroupSendBody} (copie : Uuid) :
    SendFollows nom (fun r _ g => CompteGroupe n (atteints r) g)
      (do
        Async.exec (.recepisse n copie)
        pure (body.recipientDeviceIds.length, [copie]))
      s ((Phase.envoi n [] false).reponse (.sendGroupMessage n body) (.ok ())) := by
  cases hids : body.recipientDeviceIds with
  | nil =>
    have hphase : (Phase.envoi n [] false).reponse (.sendGroupMessage n body) (.ok ()) =
        .envoi n [] false := by
      simp [Phase.reponse, hids]
    rw [hphase]
    exact ⟨trivial, .inl ⟨rfl, rfl⟩⟩
  | cons device devices =>
    have hphase : (Phase.envoi n [] false).reponse (.sendGroupMessage n body) (.ok ()) =
        .livre n := by
      simp [Phase.reponse, hids, Except.isOk, Except.toBool]
    rw [hphase]
    exact ⟨trivial, .inr ⟨rfl, Nat.succ_pos _⟩⟩

theorem envoyerGroupe_follows (conv : Uuid) (n : Nat) (hs : Cles s) :
    SendFollows nom (fun r _ g => CompteGroupe n (atteints r) g) (envoyerGroupe conv n) s
      (.envoi n [] false) := by
  refine sendFollows_get ?_
  split
  · refine sendFollows_bind hs (sendFollows_request rfl rfl) ?_ ?_
    · rintro distribuee s₁ g₁ hs₁ ⟨-, rfl⟩
      split
      · refine sendFollows_get (sendFollows_orElse
          (Q := fun r _ g => CompteGroupe n (atteints r) g) hs₁ ?_ (fun a s' g' h => h) ?_)
        · refine sendFollows_bind hs₁ (sendFollows_request rfl rfl) ?_ ?_
          · rintro chiffre s₂ g₂ hs₂ ⟨-, rfl⟩
            refine sendFollows_copie hs₂ fun copie s₃ hs₃ => ⟨⟨rfl, rfl, rfl⟩, fun r s₄ hs₄ => ?_⟩
            cases r with
            | error e => exact .inl ⟨rfl, rfl⟩
            | ok u => exact compteGroupe_reponse copie
          · rintro s' g' ⟨-, rfl⟩
            exact .inl ⟨rfl, rfl⟩
        · rintro s' g' - (⟨rfl, -⟩ | ⟨-, hpos⟩)
          · exact .inl ⟨rfl, rfl⟩
          · exact absurd hpos (Nat.lt_irrefl 0)
      · exact .inl ⟨rfl, rfl⟩
    · rintro s' g' ⟨-, rfl⟩
      exact .inl ⟨rfl, rfl⟩
  · exact .inl ⟨rfl, rfl⟩

/-- One request to one device, whose errors are caught. -/
theorem envoyerA_follows (conv : Uuid) (n : Nat) {device : Uuid} {faits : List Uuid} {recu : Bool}
    (hnew : device ∉ faits) (hs : Cles s) :
    SendFollows nom (fun r _ g => r.isOk = true ∧ Compte n faits [device] recu (atteints r) g)
      (envoyerA conv n device) s (.envoi n faits recu) := by
  refine sendFollows_get ?_
  split
  · refine sendFollows_orElse (Q := fun r _ g => Compte n faits [device] recu (atteints r) g) hs
      ?_ (fun a s' g' h => ⟨rfl, h⟩) fun s' g' _ h => ⟨rfl, h⟩
    refine sendFollows_bind hs (sendFollows_request rfl rfl) ?_ ?_
    · rintro enc s₁ g₁ hs₁ ⟨-, rfl⟩
      refine sendFollows_copie hs₁ fun copie s₂ hs₂ => ⟨⟨rfl, hnew⟩, fun r s₃ hs₃ => ?_⟩
      cases r with
      | error e =>
        refine ⟨device :: faits, recu, ?_, List.Subset.refl _, .inl⟩
        show Phase.envoi n (device :: faits) (recu || false) = _
        rw [Bool.or_false]
      | ok u =>
        have hdone : ∀ k, 0 < k → Compte n faits [device] recu k
            (.envoi n (device :: faits) (recu || true)) := fun k hk =>
          ⟨device :: faits, _, rfl, List.Subset.refl _, fun _ => .inr hk⟩
        refine sendFollows_get ?_
        split
        · exact hdone 1 Nat.one_pos
        · exact ⟨trivial, hdone 1 Nat.one_pos⟩
    · rintro s' g' ⟨-, rfl⟩
      exact compte_rien n faits [device] recu _
  · exact ⟨rfl, compte_rien n faits [device] recu _⟩

/-- The loop posts to each device of its list once. -/
theorem envoyerChacun_follows (conv : Uuid) (n : Nat) {devices faits : List Uuid} {recu : Bool}
    (hnodup : devices.Nodup) (hnew : ∀ d ∈ devices, d ∉ faits) (hs : Cles s) :
    SendFollows nom (fun r _ g => r.isOk = true ∧ Compte n faits devices recu (atteints r) g)
      (envoyerChacun conv n devices) s (.envoi n faits recu) := by
  induction devices generalizing s faits recu with
  | nil => exact ⟨rfl, compte_rien n faits [] recu _⟩
  | cons device devices ih =>
    obtain ⟨hdevice, hnodup⟩ := List.nodup_cons.mp hnodup
    refine sendFollows_bind hs (envoyerA_follows conv n (hnew device List.mem_cons_self) hs) ?_
      fun s' g' ⟨h, _⟩ => by cases h
    rintro un s₁ g₁ hs₁ ⟨-, faits₁, recu₁, rfl, hfaits, hrecu⟩
    have hleft : ∀ d ∈ devices, d ∉ faits₁ := by
      intro d hd hmem
      rcases List.mem_append.mp (hfaits hmem) with hone | hold
      · rw [List.mem_singleton.mp hone] at hd
        exact hdevice hd
      · exact hnew d (List.mem_cons_of_mem _ hd) hold
    refine sendFollows_bind hs₁ (ih hnodup hleft hs₁) ?_ fun s' g' ⟨h, _⟩ => by cases h
    rintro reste s₂ g₂ - ⟨-, hreste⟩
    exact ⟨rfl, hreste.et hfaits hrecu⟩

/-- Where the paths of a sending have reached no device, no request of its own was answered. -/
def Resume (n k : Nat) (g : Phase) : Prop :=
  (∃ faits recu, g = .envoi n faits recu ∧ (recu = true → 0 < k)) ∨ g = .livre n ∧ 0 < k

theorem diffuser_follows (conv : Uuid) (n : Nat) (hs : Cles s) :
    SendFollows nom (fun r _ g => ∀ a, r = .ok a → Resume n a.1 g) (diffuser conv n) s
      (.envoi n [] false) := by
  refine sendFollows_bind hs (envoyerGroupe_follows conv n hs) ?_ fun s' g' _ a ha => by cases ha
  rintro groupe s₁ g₁ hs₁ (⟨rfl, hzero⟩ | ⟨rfl, hpos⟩)
  · have hnot : ¬ 0 < groupe.1 := Nat.not_lt.mpr (Nat.le_of_eq hzero)
    rw [if_neg hnot]
    refine sendFollows_get (sendFollows_bind hs₁ (envoyerChacun_follows conv n (hs₁.sessions conv)
      (fun d _ => List.not_mem_nil) hs₁) ?_ fun s' g' ⟨h, _⟩ => by cases h)
    rintro chacun s₂ g₂ - ⟨-, faits, recu, rfl, -, hrecu⟩ a ha
    cases ha
    exact .inl ⟨faits, recu, rfl, fun htrue => (hrecu htrue).resolve_left Bool.false_ne_true⟩
  · have hsome : 0 < groupe.1 := hpos
    rw [if_pos hsome]
    intro a ha
    cases ha
    exact .inr ⟨rfl, hpos⟩

theorem Resume.auRepos {n k : Nat} (h : Resume n k g) : g.auRepos = true := by
  rcases h with ⟨faits, recu, rfl, -⟩ | ⟨rfl, -⟩
  · rfl
  · rfl

/-- The message that is added is marked as its phase says. -/
theorem Resume.ajoute {n k : Nat} (h : Resume n k g) {l : Ligne} (henvoi : l.envoi = some n)
    (hfailed : l.message.sendFailed = decide (k = 0)) : g.Ajoute l := by
  rcases h with ⟨faits, recu, rfl, hrecu⟩ | ⟨rfl, hpos⟩
  · refine ⟨henvoi, fun htrue => ?_⟩
    rw [hfailed, decide_eq_true_iff] at htrue
    cases recu with
    | false => rfl
    | true => exact absurd (hrecu rfl) (by omega)
  · refine ⟨henvoi, ?_⟩
    rw [hfailed]
    exact decide_eq_false (by omega)

theorem apres_ajouter {conv : Uuid} {l : Ligne} (hg : g.auRepos = true) :
    g.apres (.retoucher conv (.ajouter l)) s = .dehors := by
  cases g with
  | reprise l uuid => cases hg
  | compose uuid => cases hg
  | _ => rfl

theorem inscrire_follows (conv : Uuid) (texte : Text) (attachment : Option AttachmentRef)
    (citation : Option ChatMessage) (now : Int) {n : Nat} {r : Nat × List Uuid}
    (h : Resume n r.1 g) :
    SendFollows nom (fun _ _ _ => True) (inscrire nom conv texte attachment citation now n r) s
      g := by
  unfold inscrire
  split
  · exact ⟨(agit_iff h.auRepos).mpr trivial, trivial⟩
  · refine sendFollows_get (sendFollows_exec ((agit_iff h.auRepos).mpr (h.ajoute rfl rfl)) ?_)
    rw [apres_ajouter h.auRepos]
    refine sendFollows_exec trivial ?_
    split
    · trivial
    · exact saveHistory_follows conv rfl

theorem sendPayload_follows (texte : Text) (attachment : Option AttachmentRef) (now : Int)
    (hs : Cles s) :
    SendFollows nom (fun _ _ _ => True) (sendPayload nom texte attachment now) s
      (.compose s.uuid) := by
  refine sendFollows_get ?_
  split
  · trivial
  · rename_i conv _
    split
    · refine sendFollows_orElse (Q := fun _ _ _ => True) hs ?_ (fun _ _ _ _ => trivial)
        fun _ _ _ _ => trivial
      have htire : Cles (Stmt.tirer.apply s) := hs
      refine sendFollows_numero (sendFollows_bind htire (diffuser_follows conv s.uuid htire) ?_
        fun _ _ _ => trivial)
      intro r s₁ g₁ hs₁ hr
      exact inscrire_follows conv texte attachment s.replyingTo now (hr r rfl)
    · trivial

theorem renvoyer_follows (l : Ligne) (now : Int) (hs : Cles s) :
    SendFollows nom (fun _ _ _ => True) (renvoyer nom l now) s (.reprise l s.uuid) := by
  unfold renvoyer
  split
  · trivial
  · rename_i hfailed
    refine sendFollows_get ?_
    split
    · trivial
    · rename_i c hfind
      have hmem : l ∈ c.messages := by simpa using List.find?_some hfind
      refine sendFollows_exec ⟨c, List.mem_of_find?_eq_some hfind, rfl, by simpa using hfailed,
        hmem⟩ (sendFollows_exec (.inr ⟨_, rfl⟩) ?_)
      exact sendPayload_follows _ _ _ (hs.mapConv fun c hc => hs c hc)

theorem remettreChacun_follows (remis : List Text) (convs : List Uuid) (hs : Cles s) :
    SendFollows nom (fun _ _ _ => True) (remettreChacun remis convs) s .dehors := by
  induction convs generalizing s with
  | nil => trivial
  | cons conv convs ih =>
    refine sendFollows_get (sendFollows_exec trivial ?_)
    have hlater : Cles (Stmt.apply (.retoucher conv (.remettre remis)) s) :=
      hs.act (g := .dehors) trivial
    dsimp only
    split
    · refine sendFollows_bind (Q := fun _ _ g => g = .dehors) hlater ?_ ?_ fun _ _ _ => trivial
      · exact sendFollows_get ⟨rfl, fun _ _ _ => rfl⟩
      · rintro _ s₁ g₁ hs₁ rfl
        exact ih hs₁
    · exact ih hlater

theorem checkDeliveries_follows :
    SendFollows nom (fun _ _ _ => True) checkDeliveries s .dehors := by
  refine sendFollows_get ?_
  split
  · trivial
  · refine ⟨rfl, fun r s₁ hs₁ => ?_⟩
    cases r with
    | error e => trivial
    | ok remis =>
      show SendFollows nom _ (if remis = [] then _ else _) s₁ .dehors
      split
      · trivial
      · exact sendFollows_get (remettreChacun_follows remis _ hs₁)

theorem getMessages_follows (claims : Server.Claims) :
    SendFollows nom (fun _ _ _ => True) (getMessages claims) s .dehors := by
  refine sendFollows_get ?_
  split
  · trivial
  · dsimp only
    split
    · trivial
    · exact ⟨rfl, fun _ _ _ => trivial⟩

/-! ## Tasks -/

/-- Where a task starts. -/
def OutboxTask.phase (uuid : Nat) : OutboxTask → Phase
  | .sendPayload _ _ _ => .compose uuid
  | .renvoyer l _ => .reprise l uuid
  | _ => .dehors

/-- A change that no sending makes. -/
theorem agit_retoucher {conv : Uuid} {r : Retouche} (h : r.libre = true) :
    Phase.dehors.Agit (.retoucher conv r) s := by
  cases r with
  | ajouter l => cases h
  | _ => trivial

theorem agit_autre {a : Stmt} (hlibre : a.libre = true) (hcles : (OutboxTask.autre a).cles = true) :
    Phase.dehors.Agit a s := by
  cases a with
  | retoucher conv r => exact agit_retoucher hlibre
  | charger c =>
    show c.sessions.Nodup
    exact of_decide_eq_true hcles
  | regler conv isGroup sessions ownDeviceIds ttl =>
    show sessions.Nodup
    exact of_decide_eq_true hcles
  | _ => trivial

theorem program_follows (task : OutboxTask) (hs : Cles s) (hpermis : task.permis s = true) :
    SendFollows nom (fun _ _ _ => True) (task.program nom) s (task.phase s.uuid) := by
  obtain ⟨hallowed, hcles⟩ := Bool.and_eq_true_iff.mp hpermis
  cases task with
  | sendPayload texte attachment now => exact sendPayload_follows texte attachment now hs
  | renvoyer l now => exact renvoyer_follows l now hs
  | retoucher conv r => exact ⟨agit_retoucher (s := s) hallowed, trivial⟩
  | retoucherEtSauver conv r =>
    refine sendFollows_exec (agit_retoucher hallowed) (saveHistory_follows conv ?_)
    cases r <;> rfl
  | saveHistory conv => exact saveHistory_follows conv rfl
  | checkDeliveries => exact checkDeliveries_follows
  | getMessages claims => exact getMessages_follows claims
  | autre a => exact ⟨agit_autre (s := s) hallowed hcles, trivial⟩

end ZiaCrypte.Sending
