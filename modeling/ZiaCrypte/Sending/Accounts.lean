import ZiaCrypte.Sending.Phases
import ZiaCrypte.Sending.Lines
import Mathlib.Algebra.Order.BigOperators.Group.List
import Mathlib.Algebra.Order.Group.Multiset

/-!
# One account for each composed message

A composed message is in the hands of the body that sends it, or behind the failed message of
its last sending, or is dealt with: never two of these, and nothing is posted for it again in
the last case. While a message may be posted to a device, the copies that are there for that
device are believed lost.
-/
namespace ZiaCrypte.Sending

open ZiaCrypte.Lib ZiaCrypte.Engine
open ZiaCrypte.Server (Uuid Auth Database MessageBlob)
open ZiaCrypte.Inbox (Text ChatMessage)

/-! ## Failed messages -/

/-- The sendings of the failed messages of a thread. -/
def echecs (lignes : List Ligne) : Multiset (Option Nat) :=
  ↑((lignes.filter (·.message.sendFailed)).map (·.envoi))

theorem echecs_append (ls ls' : List Ligne) : echecs (ls ++ ls') = echecs ls + echecs ls' := by
  rw [echecs, List.filter_append, List.map_append, ← Multiset.coe_add]
  rfl

theorem echecs_perm {ls ls' : List Ligne} (h : ls.Perm ls') : echecs ls = echecs ls' :=
  Multiset.coe_eq_coe.mpr ((h.filter _).map _)

theorem echecs_le_of_sublist {ls ls' : List Ligne} (h : ls.Sublist ls') :
    echecs ls ≤ echecs ls' :=
  Multiset.coe_le.mpr ((h.filter _).map _).subperm

theorem echecs_eq_zero {ls : List Ligne} (h : ∀ l ∈ ls, l.message.sendFailed = false) :
    echecs ls = 0 := by
  have hnil : ls.filter (·.message.sendFailed) = [] :=
    List.filter_eq_nil_iff.mpr fun l hl => by simp [h l hl]
  rw [echecs, hnil]
  rfl

theorem echecs_cons (l : Ligne) (ls : List Ligne) :
    echecs (l :: ls) = (if l.message.sendFailed then {l.envoi} else 0) + echecs ls := by
  unfold echecs
  rw [List.filter_cons]
  split
  · rfl
  · rw [zero_add]

/-- A change of each message that is neither of its sending nor of its mark of failure. -/
theorem echecs_map {f : Ligne → Ligne} (hf : ∀ l, MemeLigne l (f l)) (ls : List Ligne) :
    echecs (ls.map f) = echecs ls := by
  induction ls with
  | nil => rfl
  | cons l ls ih => rw [List.map_cons, echecs_cons, echecs_cons, ih, (hf l).envoi, (hf l).sendFailed]

theorem echecs_modifierPremier {cible : Text} {f : ChatMessage → ChatMessage}
    (hf : ∀ l : Ligne, MemeLigne l { l with message := f l.message }) (ls : List Ligne) :
    echecs (modifierPremier cible f ls) = echecs ls := by
  induction ls with
  | nil => rfl
  | cons l ls ih =>
    rw [modifierPremier]
    split
    · have hl := hf l
      rw [echecs_cons, echecs_cons, hl.sendFailed]
    · rw [echecs_cons, echecs_cons, ih]

/-- No change but the addition of a message makes another failed one. -/
theorem echecs_apply {r : Retouche} (hr : ∀ l, r ≠ .ajouter l) (ls : List Ligne) :
    echecs (r.apply ls) ≤ echecs ls := by
  cases r with
  | ajouter l => exact absurd rfl (hr l)
  | recevoir m =>
    show echecs (ls ++ [.autre m]) ≤ _
    have hautre : echecs [.autre m] = 0 := echecs_eq_zero fun l hl => by
      rw [List.mem_singleton.mp hl]
      rfl
    rw [echecs_append, hautre, add_zero]
  | retirer l => exact echecs_le_of_sublist List.erase_sublist
  | integrer entrants =>
    show echecs (List.insertionSort _ (ls ++ entrants.map .autre)) ≤ _
    have hautres : echecs (entrants.map .autre) = 0 := echecs_eq_zero fun l hl => by
      obtain ⟨m, -, rfl⟩ := List.mem_map.mp hl
      rfl
    rw [echecs_perm (List.perm_insertionSort _ _), echecs_append, hautres, add_zero]
  | editer cible deMoi texte now =>
    refine le_of_eq (echecs_modifierPremier (fun l => ?_) ls)
    split <;> exact ⟨rfl, rfl, rfl⟩
  | supprimer cible deMoi =>
    refine le_of_eq (echecs_modifierPremier (fun l => ?_) ls)
    split <;> exact ⟨rfl, rfl, rfl⟩
  | reagir cible emoji qui pose =>
    refine le_of_eq (echecs_modifierPremier (fun l => ?_) ls)
    unfold Inbox.reagir
    split <;> exact ⟨rfl, rfl, rfl⟩
  | lire ids =>
    refine le_of_eq (echecs_map (fun l => ?_) ls)
    split <;> exact ⟨rfl, rfl, rfl⟩
  | accuser =>
    refine le_of_eq (echecs_map (fun l => ?_) ls)
    split <;> exact ⟨rfl, rfl, rfl⟩
  | balayer now => exact echecs_le_of_sublist List.filter_sublist
  | remettre remis =>
    refine le_of_eq (echecs_map (fun l => ?_) ls)
    split <;> exact ⟨rfl, rfl, rfl⟩

theorem echecs_erase {l : Ligne} {ls : List Ligne} (hl : l ∈ ls)
    (hfailed : l.message.sendFailed = true) : {l.envoi} + echecs (ls.erase l) = echecs ls := by
  rw [echecs_perm (List.perm_cons_erase hl), echecs_cons, if_pos hfailed]

/-- The sendings of all the failed messages in memory. -/
def Monde.echecs (s : Monde) : Multiset (Option Nat) :=
  (s.conversations.map fun c => Sending.echecs c.messages).sum

variable {s s' : Monde}

theorem Monde.echecs_mapConv (s : Monde) (id : Uuid) (f : Conversation → Conversation) :
    (s.mapConv id f).echecs = (s.conversations.map fun c =>
      Sending.echecs (if c.id = id then f c else c).messages).sum := by
  rw [Monde.echecs, Monde.mapConv, List.map_map]
  rfl

theorem Monde.echecs_mapConv_le {id : Uuid} {f : Conversation → Conversation}
    (hf : ∀ c, Sending.echecs (f c).messages ≤ Sending.echecs c.messages) :
    (s.mapConv id f).echecs ≤ s.echecs := by
  rw [Monde.echecs_mapConv]
  refine List.sum_le_sum fun c _ => ?_
  split
  · exact hf c
  · exact le_rfl

/-- One conversation has a failed message more. -/
theorem sum_map_le_add {C : Type} {id : C → Uuid} {f g : C → Multiset (Option Nat)}
    {x : Multiset (Option Nat)} {i : Uuid} {cs : List C} (hnodup : (cs.map id).Nodup)
    (hone : ∀ c, id c = i → f c ≤ x + g c) (hother : ∀ c, id c ≠ i → f c ≤ g c) :
    (cs.map f).sum ≤ x + (cs.map g).sum := by
  induction cs with
  | nil => exact Multiset.zero_le _
  | cons c cs ih =>
    obtain ⟨hnew, hnodup⟩ := List.nodup_cons.mp hnodup
    rw [List.map_cons, List.map_cons, List.sum_cons, List.sum_cons]
    by_cases hc : id c = i
    · have hrest : (cs.map f).sum ≤ (cs.map g).sum := by
        refine List.sum_le_sum fun c' hc' => hother c' fun heq => hnew ?_
        rw [hc, ← heq]
        exact List.mem_map_of_mem hc'
      rw [← add_assoc]
      exact add_le_add (hone c hc) hrest
    · rw [add_left_comm]
      exact add_le_add (hother c hc) (ih hnodup)

/-- One conversation has a failed message less. -/
theorem add_sum_map_le {C : Type} {f g : C → Multiset (Option Nat)} {x : Multiset (Option Nat)}
    {cs : List C} (hle : ∀ c, f c ≤ g c) {c : C} (hc : c ∈ cs) (hone : x + f c ≤ g c) :
    x + (cs.map f).sum ≤ (cs.map g).sum := by
  induction cs with
  | nil => cases hc
  | cons c' cs ih =>
    rw [List.map_cons, List.map_cons, List.sum_cons, List.sum_cons]
    rcases List.mem_cons.mp hc with rfl | htail
    · rw [← add_assoc]
      exact add_le_add hone (List.sum_le_sum fun c _ => hle c)
    · rw [add_left_comm]
      exact add_le_add (hle c') (ih htail)

theorem Monde.le_echecs_ajouter {conv : Uuid} {l : Ligne}
    (hids : (s.conversations.map (·.id)).Nodup) :
    (Stmt.apply (.retoucher conv (.ajouter l)) s).echecs ≤
      (if l.message.sendFailed then {l.envoi} else 0) + s.echecs := by
  have hadd : ∀ ls, Sending.echecs (ls ++ [l]) =
      (if l.message.sendFailed then {l.envoi} else 0) + Sending.echecs ls := by
    intro ls
    rw [echecs_append, echecs_cons, show Sending.echecs [] = 0 from rfl, add_zero, add_comm]
  refine (le_of_eq (Monde.echecs_mapConv s conv _)).trans (sum_map_le_add (i := conv) hids ?_ ?_)
  · intro c hc
    rw [if_pos hc]
    exact le_of_eq (hadd c.messages)
  · intro c hc
    rw [if_neg hc]

theorem Monde.echecs_retirer_le {c : Conversation} {l : Ligne} (hc : c ∈ s.conversations)
    (hl : l ∈ c.messages) (hfailed : l.message.sendFailed = true) :
    {l.envoi} + (Stmt.apply (.retoucher c.id (.retirer l)) s).echecs ≤ s.echecs := by
  rw [show (Stmt.apply (.retoucher c.id (.retirer l)) s).echecs = _ from
    Monde.echecs_mapConv s c.id _]
  refine add_sum_map_le (fun c' => ?_) hc ?_
  · split
    · exact echecs_le_of_sublist List.erase_sublist
    · exact le_rfl
  · rw [if_pos rfl]
    exact le_of_eq (echecs_erase hl hfailed)

/-! ## Accounts -/

/-- Every copy of a composed message is believed lost. -/
def Perdus (depots : List Depot) (compose : Nat) : Prop :=
  ∀ d ∈ depots, d.compose = compose → d.perdu = true

namespace Phase

/-- The account of a phase. -/
def compte (g : Phase) : Multiset (Option Nat) := g.numero.elim 0 fun n => {some n}

/-- What a phase knows of the copies of its message. -/
def Sait (origine : Nat → Nat) (depots : List Depot) (uuid : Nat) : Phase → Prop
  | .dehors => True
  | .reprise l n => n = uuid ∧ ∀ n', l.envoi = some n' → n' < uuid → origine uuid = origine n'
  | .compose n => n = uuid ∧ Perdus depots (origine uuid)
  | .envoi n faits recu => n < uuid ∧ (recu = false → Perdus depots (origine n)) ∧
      ∀ d ∈ depots, d.compose = origine n → d.rang.recipientDeviceId ∉ faits → d.perdu = true
  | .livre n => n < uuid

end Phase

/-- The accounts that are open: of the body at work, of the others, of the failed messages. -/
def comptes (s : Monde) (g : Phase) (gs : List Phase) : Multiset (Option Nat) :=
  g.compte + (gs.map Phase.compte).sum + s.echecs

/-- Of the body that is at work, in phase `g`, and of the others, at rest. -/
structure Suivi (origine : Nat → Nat) (borne : Nat) (depots : List Depot) (s : Monde)
    (g : Phase) (gs : List Phase) : Prop where
  ids : (s.conversations.map (·.id)).Nodup
  cles : Cles s
  hist : ∀ conv, ∀ l ∈ s.readHistory conv, l.message.sendFailed = false
  echecs : ∀ x ∈ s.echecs, ∃ n, x = some n ∧ n < s.uuid ∧ Perdus depots (origine n)
  phase : g.Sait origine depots s.uuid
  autres : ∀ g' ∈ gs, g'.auRepos = true ∧ g'.Sait origine depots s.uuid
  distincts : ((comptes s g gs).map (Option.map origine)).Nodup
  bornes : ∀ n, some n ∈ comptes s g gs → origine n < borne
  anciens : ∀ d ∈ depots, d.compose < borne
  uniques : (depots.map fun d => (d.compose, d.rang.recipientDeviceId)).Nodup

variable {origine : Nat → Nat} {borne : Nat} {depots : List Depot} {g g' : Phase}
  {gs : List Phase}

theorem Phase.Sait.mono {uuid uuid' : Nat} (h : g.Sait origine depots uuid)
    (hg : g.auRepos = true) (hle : uuid ≤ uuid') : g.Sait origine depots uuid' := by
  cases g with
  | dehors => trivial
  | reprise l n => cases hg
  | compose n => cases hg
  | envoi n faits recu => exact ⟨Nat.lt_of_lt_of_le h.1 hle, h.2⟩
  | livre n => exact Nat.lt_of_lt_of_le h hle

/-- No account is opened, and what the phases know stays. -/
theorem Suivi.mono (h : Suivi origine borne depots s g gs)
    (hids : (s'.conversations.map (·.id)).Nodup) (hcles : Cles s')
    (hhist : ∀ conv, ∀ l ∈ s'.readHistory conv, l.message.sendFailed = false)
    (huuid : s.uuid ≤ s'.uuid) (hphase : g'.Sait origine depots s'.uuid)
    (hechecs : ∀ x ∈ s'.echecs, ∃ n, x = some n ∧ n < s'.uuid ∧ Perdus depots (origine n))
    (hcomptes : g'.compte + s'.echecs ≤ g.compte + s.echecs) :
    Suivi origine borne depots s' g' gs := by
  have hle : comptes s' g' gs ≤ comptes s g gs := by
    unfold comptes
    rw [add_right_comm, add_right_comm g.compte]
    exact add_le_add hcomptes le_rfl
  exact
    { ids := hids
      cles := hcles
      hist := hhist
      echecs := hechecs
      phase := hphase
      autres := fun g₁ hg₁ => ⟨(h.autres g₁ hg₁).1,
        (h.autres g₁ hg₁).2.mono (h.autres g₁ hg₁).1 huuid⟩
      distincts := Multiset.nodup_of_le (Multiset.map_le_map hle) h.distincts
      bornes := fun n hn => h.bornes n (Multiset.mem_of_le hle hn)
      anciens := h.anciens
      uniques := h.uniques }

/-- A body at rest does nothing to the accounts. -/
theorem Suivi.of_le (h : Suivi origine borne depots s g gs) (hg : g.auRepos = true)
    (hids : (s'.conversations.map (·.id)).Nodup) (hcles : Cles s')
    (hhist : ∀ conv, ∀ l ∈ s'.readHistory conv, l.message.sendFailed = false)
    (huuid : s.uuid ≤ s'.uuid) (hechecs : s'.echecs ≤ s.echecs) :
    Suivi origine borne depots s' g gs := by
  refine h.mono hids hcles hhist huuid (h.phase.mono hg huuid) (fun x hx => ?_)
    (add_le_add le_rfl hechecs)
  obtain ⟨n, rfl, hn, hperdus⟩ := h.echecs x (Multiset.mem_of_le hechecs hx)
  exact ⟨n, rfl, Nat.lt_of_lt_of_le hn huuid, hperdus⟩

/-- The conversations and the histories are left alone. -/
theorem Suivi.of_same (h : Suivi origine borne depots s g gs) (hg : g.auRepos = true)
    (hconv : s'.conversations = s.conversations) (hhist : s'.hist = s.hist)
    (huuid : s.uuid ≤ s'.uuid) : Suivi origine borne depots s' g gs := by
  refine h.of_le hg ?_ ?_ ?_ huuid (le_of_eq ?_)
  · rw [hconv]
    exact h.ids
  · unfold Cles
    rw [hconv]
    exact h.cles
  · unfold Monde.readHistory
    rw [hhist]
    exact h.hist
  · rw [Monde.echecs, hconv]
    rfl

/-! ## Statements -/

theorem ids_mapConv {id : Uuid} {f : Conversation → Conversation} (hf : ∀ c, (f c).id = c.id)
    (h : (s.conversations.map (·.id)).Nodup) :
    ((s.mapConv id f).conversations.map (·.id)).Nodup := by
  have hmap : (s.mapConv id f).conversations.map (·.id) = s.conversations.map (·.id) := by
    rw [Monde.mapConv, List.map_map]
    refine List.map_congr_left fun c _ => ?_
    show (if c.id = id then f c else c).id = c.id
    split
    · exact hf c
    · rfl
  rw [hmap]
  exact h

/-- A change of a thread that adds no message. -/
theorem Suivi.retoucher (h : Suivi origine borne depots s g gs) (hg : g.auRepos = true)
    {conv : Uuid} {r : Retouche} (hr : ∀ l, r ≠ .ajouter l) :
    Suivi origine borne depots (Stmt.apply (.retoucher conv r) s) g gs :=
  h.of_le hg (ids_mapConv (fun _ => rfl) h.ids) (h.cles.mapConv fun c hc => h.cles c hc) h.hist
    (Nat.le_refl _) (Monde.echecs_mapConv_le fun c => echecs_apply hr c.messages)

/-- The account of a sending goes to its message where that has failed, and is closed
otherwise. -/
theorem Suivi.ajouter (h : Suivi origine borne depots s g gs) {conv : Uuid} {l : Ligne}
    (ha : g.Ajoute l) :
    Suivi origine borne depots (Stmt.apply (.retoucher conv (.ajouter l)) s) .dehors gs := by
  have hle : (Stmt.apply (.retoucher conv (.ajouter l)) s).echecs ≤ _ :=
    Monde.le_echecs_ajouter h.ids
  have hcompte : (if l.message.sendFailed then {l.envoi} else 0) ≤ g.compte := by
    cases g with
    | envoi n faits recu =>
      obtain ⟨henvoi, -⟩ := ha
      split
      · rw [henvoi]
        exact le_rfl
      · exact Multiset.zero_le _
    | livre n =>
      rw [ha.2]
      exact Multiset.zero_le _
    | _ => exact ha.elim
  refine h.mono (ids_mapConv (fun _ => rfl) h.ids) (h.cles.mapConv fun c hc => h.cles c hc) h.hist
    (Nat.le_refl _) trivial (fun x hx => ?_) ?_
  · rcases Multiset.mem_add.mp (Multiset.mem_of_le hle hx) with hnew | hold
    · cases g with
      | envoi n faits recu =>
        obtain ⟨henvoi, hfailed⟩ := ha
        split at hnew
        · rename_i hmark
          rw [Multiset.mem_singleton.mp hnew, henvoi]
          exact ⟨n, rfl, h.phase.1, h.phase.2.1 (hfailed hmark)⟩
        · exact absurd hnew (Multiset.notMem_zero x)
      | livre n =>
        rw [ha.2] at hnew
        exact absurd hnew (Multiset.notMem_zero x)
      | _ => exact ha.elim
    · exact h.echecs x hold
  · rw [show Phase.dehors.compte = 0 from rfl, zero_add]
    exact hle.trans (add_le_add hcompte le_rfl)

/-- A failed message is taken out: its account goes on under the next number. -/
theorem Suivi.retirer {l : Ligne} {n : Nat} {c : Conversation}
    (h : Suivi origine borne depots s (.reprise l n) gs) (hc : c ∈ s.conversations)
    (hfailed : l.message.sendFailed = true) (hl : l ∈ c.messages) :
    Suivi origine borne depots (Stmt.apply (.retoucher c.id (.retirer l)) s) (.compose n) gs := by
  obtain ⟨rfl, hmeme⟩ := h.phase
  have hle := Monde.echecs_retirer_le hc hl hfailed
  have hmem : l.envoi ∈ s.echecs :=
    Multiset.mem_of_le ((Multiset.le_add_right _ _).trans hle) (Multiset.mem_singleton_self _)
  obtain ⟨n, henvoi, hn, hperdus⟩ := h.echecs _ hmem
  have horigine : origine s.uuid = origine n := hmeme n henvoi hn
  have hkept : (Stmt.apply (.retoucher c.id (.retirer l)) s).echecs ≤ s.echecs :=
    (Multiset.le_add_left _ _).trans hle
  have hsum : {l.envoi} + (gs.map Phase.compte).sum +
      (Stmt.apply (.retoucher c.id (.retirer l)) s).echecs ≤ comptes s (.reprise l s.uuid) gs := by
    rw [comptes, show (Phase.reprise l s.uuid).compte = 0 from rfl, zero_add, add_right_comm,
      add_comm _ s.echecs]
    exact add_le_add hle le_rfl
  refine
    { ids := ids_mapConv (fun _ => rfl) h.ids
      cles := h.cles.mapConv fun c hc => h.cles c hc
      hist := h.hist
      echecs := fun x hx => h.echecs x (Multiset.mem_of_le hkept hx)
      phase := ⟨rfl, horigine ▸ hperdus⟩
      autres := h.autres
      distincts := ?_
      bornes := fun n' hn' => ?_
      anciens := h.anciens
      uniques := h.uniques }
  · -- The new number stands for the composed message of the old one.
    refine Multiset.nodup_of_le ?_ h.distincts
    refine le_trans (le_of_eq ?_) (Multiset.map_le_map hsum)
    rw [comptes, show (Phase.compose s.uuid).compte = {some s.uuid} from rfl, Multiset.map_add,
      Multiset.map_add, Multiset.map_add, Multiset.map_add, Multiset.map_singleton,
      Multiset.map_singleton, henvoi, Option.map_some, Option.map_some, horigine]
  · rcases Multiset.mem_add.mp hn' with hfront | hrest
    · rcases Multiset.mem_add.mp hfront with hmoi | hothers
      · obtain rfl := Option.some.inj (Multiset.mem_singleton.mp hmoi)
        show origine s.uuid < borne
        rw [horigine]
        exact h.bornes n (Multiset.mem_add.mpr (.inr (henvoi ▸ hmem)))
      · exact h.bornes n' (Multiset.mem_add.mpr (.inl (Multiset.mem_add.mpr (.inr hothers))))
    · exact h.bornes n' (Multiset.mem_add.mpr (.inr (Multiset.mem_of_le hkept hrest)))

/-- A conversation comes back with its saved messages, none of which is marked. -/
theorem Suivi.charger (h : Suivi origine borne depots s g gs) (hg : g.auRepos = true)
    {c : Conversation} (hc : c.sessions.Nodup) :
    Suivi origine borne depots (Stmt.apply (.charger c) s) g gs := by
  show Suivi _ _ _ (if _ then s else _) g gs
  split
  · exact h
  · rename_i hnone
    refine h.of_le hg ?_ ?_ h.hist (Nat.le_refl _) (le_of_eq ?_)
    · rw [List.map_append]
      refine List.nodup_append.mpr ⟨h.ids, List.nodup_singleton _, fun a ha b hb => ?_⟩
      rw [List.mem_singleton.mp hb]
      rintro rfl
      obtain ⟨c', hc', heq⟩ := List.mem_map.mp ha
      refine hnone (List.find?_isSome.mpr ⟨c', hc', ?_⟩)
      exact beq_iff_eq.mpr heq
    · intro c' hc'
      rcases List.mem_append.mp hc' with hold | hnew
      · exact h.cles c' hold
      · rw [List.mem_singleton.mp hnew]
        exact hc
    · rw [Monde.echecs, List.map_append, List.sum_append]
      have hzero : Sending.echecs (s.readHistory c.id) = 0 := echecs_eq_zero (h.hist c.id)
      show s.echecs + (Sending.echecs (s.readHistory c.id) + 0) = s.echecs
      rw [hzero, zero_add, add_zero]

theorem Suivi.oublier (h : Suivi origine borne depots s g gs) (hg : g.auRepos = true)
    (conv : Uuid) : Suivi origine borne depots (Stmt.apply (.oublier conv) s) g gs := by
  refine h.of_le hg (h.ids.sublist (List.filter_sublist.map _))
    (fun c hc => h.cles c (List.mem_of_mem_filter hc)) h.hist (Nat.le_refl _) ?_
  exact List.Sublist.sum_le_sum (List.filter_sublist.map _) fun x _ => Multiset.zero_le x

/-- A statement of a body that could wait. -/
theorem Suivi.permet (h : Suivi origine borne depots s g gs) (hg : g.auRepos = true) {a : Stmt}
    (ha : g.Permet a) : Suivi origine borne depots (a.apply s) (g.apres a s) gs := by
  cases a with
  | retoucher conv r =>
    by_cases hr : ∃ l, r = .ajouter l
    · obtain ⟨l, rfl⟩ := hr
      rw [apres_ajouter hg]
      exact h.ajouter ha
    · have hnot : ∀ l, r ≠ .ajouter l := fun l heq => hr ⟨l, heq⟩
      rw [apres_eq hg fun conv' l heq => hnot l (Stmt.retoucher.inj heq).2]
      exact h.retoucher hg hnot
  | charger c =>
    rw [apres_eq hg (by simp)]
    exact h.charger hg ha
  | oublier conv =>
    rw [apres_eq hg (by simp)]
    exact h.oublier hg conv
  | regler conv isGroup sessions ownDeviceIds ttl =>
    rw [apres_eq hg (by simp)]
    exact h.of_le hg (ids_mapConv (fun _ => rfl) h.ids) (h.cles.permet (g := g) ha) h.hist
      (Nat.le_refl _) (Monde.echecs_mapConv_le fun c => le_rfl)
  | tirer =>
    rw [apres_eq hg (by simp)]
    exact h.of_same hg rfl rfl (Nat.le_succ _)
  | setActive conv =>
    rw [apres_eq hg (by simp)]
    exact h.of_same hg rfl rfl (Nat.le_refl _)
  | setReplyingTo m =>
    rw [apres_eq hg (by simp)]
    exact h.of_same hg rfl rfl (Nat.le_refl _)
  | recepisse envoi copie =>
    rw [apres_eq hg (by simp)]
    exact h.of_same hg rfl rfl (Nat.le_refl _)
  | deposer rows =>
    rw [apres_eq hg (by simp)]
    exact h.of_same hg rfl rfl (Nat.le_succ _)
  | purger ids =>
    rw [apres_eq hg (by simp)]
    exact h.of_same hg rfl rfl (Nat.le_refl _)
  | tables db =>
    rw [apres_eq hg (by simp)]
    exact h.of_same hg rfl rfl (Nat.le_refl _)

/-- Every statement that is permitted keeps the accounts. -/
theorem Suivi.act (h : Suivi origine borne depots s g gs) {a : Stmt} (ha : g.Agit a s) :
    Suivi origine borne depots (a.apply s) (g.apres a s) gs := by
  cases g with
  | reprise l n =>
    obtain ⟨c, hc, rfl, hfailed, hl⟩ := ha
    exact h.retirer hc hfailed hl
  | compose n =>
    obtain ⟨rfl, hperdus⟩ := h.phase
    rcases ha with rfl | ⟨conv, rfl⟩
    · refine h.mono h.ids h.cles h.hist (Nat.le_succ _) ⟨Nat.lt_succ_self _, fun _ => hperdus,
        fun d hd hcompose _ => hperdus d hd hcompose⟩ (fun x hx => ?_) le_rfl
      obtain ⟨n, rfl, hn, hlost⟩ := h.echecs x hx
      exact ⟨n, rfl, Nat.lt_succ_of_lt hn, hlost⟩
    · exact h.mono h.ids h.cles h.hist (Nat.le_refl _) ⟨rfl, hperdus⟩ h.echecs le_rfl
  | dehors => exact h.permet rfl ha
  | envoi n faits recu => exact h.permet rfl ha
  | livre n => exact h.permet rfl ha

end ZiaCrypte.Sending
