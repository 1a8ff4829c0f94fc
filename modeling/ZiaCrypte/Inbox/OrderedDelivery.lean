import ZiaCrypte.Inbox.EndToEnd

/-!
# A network that keeps its order

Where every act is sealed, nothing is lost, and the messages of a device arrive in the order
they left in, the two devices show the same as soon as nothing is on its way. Nobody says
anything of a message that has not arrived, so a message arrives before what is said of it.
-/
namespace ZiaCrypte.Inbox.Duplex

open ZiaCrypte.Lib ZiaCrypte.Engine ZiaCrypte.Chat

variable {K : Type}

section Reseau

variable (p : Primitives K) (conv : Text) (compte : Party → Membre)

/-- The message delivered is the first of its sender's. -/
def InOrder : Trafic K → Duplex K → Prop
  | .agir m env _, x => ∀ acte, m.acte? conv x.reseau.postes = some acte → ∃ chiffre t,
      ziaSessionEncrypt p env (x.session m.qui) (acte.contenu.encode encodeursDart) =
        .ok chiffre t
  | .deliver i _ _, x => ∀ pli, x.plis[i]? = some pli →
      ∀ pli' ∈ x.plis.take i, pli'.paquet.sender ≠ pli.paquet.sender
  | .lose _, _ => False
  | _, _ => True

/-- The act is of this account. -/
def par (who : Party) (d : Fait) : Bool := decide (d.auteur.userId = (compte who).userId)

/-- The messages of a device that are on their way, and what they say. -/
def enRoute (x : Duplex K) (who : Party) : List Fait :=
  (x.plis.filter fun pli => decide (pli.paquet.sender = who)).map (·.fait)

/-- What a device did has arrived, up to what is on its way, and what is said of a message was
taken in behind it. -/
structure Ordonne (x : Duplex K) : Prop where
  file : ∀ who : Party, (x.reseau.recus who).filter (par compte who) =
    (x.reseau.recus who.other).filter (par compte who) ++ x.enRoute who
  causes : ∀ who, ∀ d ∈ x.reseau.recus who, d.acte.estMessage = false → ∃ d',
    d'.acte.estMessage = true ∧ d'.acte.sujet = d.acte.sujet ∧
      [d', d].Sublist (x.reseau.recus who)

end Reseau

variable {p : Primitives K} {double : Text → Option Int} {Q : Platform (Cliquet K)}
  {compte : Party → Membre} {appareil : Party → Text} {conv : Text} {sk : K} {ad : FixedBytes 64}
  {x x' : Duplex K}

/-- A message that is acted upon is there. -/
theorem cause_of_acte? {r : Reseau Party (Cliquet K)} (h : r.Sain conv compte)
    {m : Mouvement Party} {acte : Acte} (hacte : m.acte? conv r.postes = some acte)
    (hmessage : acte.estMessage = false) : ∃ d ∈ r.recus m.qui, d.acte.estMessage = true ∧
      d.acte.sujet = acte.sujet := by
  have hthere : ∀ i, ∀ message ∈ r.thread conv i, message.id = some acte.sujet →
      ∃ d ∈ r.recus i, d.acte.estMessage = true ∧ d.acte.sujet = acte.sujet := by
    intro i message hm hid
    obtain ⟨k, hk⟩ := List.mem_iff_getElem?.mp hm
    have hfirst := firstWithId_of_nodup (h.montre i).ids hk hid
    have hlookup := (h.montre i).montre acte.sujet
    rw [lookup_etiquettes, premier_of_first hfirst, Option.map_some] at hlookup
    obtain ⟨v, hv, -⟩ := Option.map_eq_some_iff.mp hlookup.symm
    obtain ⟨d, hd, hdm, hds, -⟩ := compose_de hv
    exact ⟨d, hd, hdm, hds⟩
  cases m with
  | send =>
    obtain rfl := Option.some.inj hacte
    cases hmessage
  | editMessage i now k nouveauTexte =>
    obtain ⟨message, hget, hacte⟩ := Option.bind_eq_some_iff.mp hacte
    obtain ⟨id, hid, hacte⟩ := Option.bind_eq_some_iff.mp hacte
    split at hacte
    · cases hacte
    · obtain rfl := Option.some.inj hacte
      exact hthere i message (List.mem_of_getElem? hget) hid
  | deleteForEveryone i k =>
    obtain ⟨message, hget, hacte⟩ := Option.bind_eq_some_iff.mp hacte
    obtain ⟨id, hid, hacte⟩ := Option.bind_eq_some_iff.mp hacte
    split at hacte
    · cases hacte
    · obtain rfl := Option.some.inj hacte
      exact hthere i message (List.mem_of_getElem? hget) hid
  | reagir i k emoji =>
    obtain ⟨qui, -, hacte⟩ := Option.bind_eq_some_iff.mp hacte
    split at hacte
    · cases hacte
    · obtain ⟨message, hget, hacte⟩ := Option.bind_eq_some_iff.mp hacte
      obtain ⟨id, hid, rfl⟩ := Option.map_eq_some_iff.mp hacte
      exact hthere i message (List.mem_of_getElem? hget) hid
  | _ => cases hacte

/-! ## The acts of either side -/

/-- The accounts of the two are not the same. -/
theorem par_other (hdeux : (compte .alice).userId ≠ (compte .bob).userId) (who : Party) :
    (compte who).userId ≠ (compte who.other).userId := by
  cases who
  · exact hdeux
  · exact hdeux.symm

theorem par_of_auteur {d : Fait} {who : Party} (h : d.auteur = compte who) :
    par compte who d = true := decide_eq_true (by rw [h])

theorem par_other_of_auteur (hdeux : (compte .alice).userId ≠ (compte .bob).userId) {d : Fait}
    {who : Party} (h : d.auteur = compte who) : par compte who.other d = false :=
  decide_eq_false (by rw [h]; exact par_other hdeux who)

section Filter

variable {α : Type} {l : List α} {i : Nat} {a : α} {q : α → Bool}

theorem split_at (hi : l[i]? = some a) : l = l.take i ++ a :: l.drop (i + 1) := by
  obtain ⟨hlt, rfl⟩ := List.getElem?_eq_some_iff.mp hi
  rw [← List.drop_eq_getElem_cons hlt, List.take_append_drop]

/-- The first of a kind is taken out. -/
theorem filter_eraseIdx_first (hi : l[i]? = some a) (ha : q a = true)
    (hfirst : ∀ b ∈ l.take i, q b = false) : l.filter q = a :: (l.eraseIdx i).filter q := by
  have hnone : (l.take i).filter q = [] := List.filter_eq_nil_iff.mpr fun b hb => by
    rw [hfirst b hb]
    exact Bool.false_ne_true
  have hsplit := congrArg (List.filter q) (split_at hi)
  rw [List.filter_append, hnone, List.nil_append, List.filter_cons_of_pos ha] at hsplit
  rw [hsplit, List.eraseIdx_eq_take_drop_succ, List.filter_append, hnone, List.nil_append]

/-- One of another kind is. -/
theorem filter_eraseIdx_other (hi : l[i]? = some a) (ha : q a = false) :
    (l.eraseIdx i).filter q = l.filter q := by
  have hsplit := congrArg (List.filter q) (split_at hi)
  rw [List.filter_append, List.filter_cons_of_neg (by rw [ha]; exact Bool.false_ne_true)] at hsplit
  rw [hsplit, List.eraseIdx_eq_take_drop_succ, List.filter_append]

end Filter

/-! ## One event -/

/-- An act is done, and is on its way. -/
theorem Ordonne.agir (hdeux : (compte .alice).userId ≠ (compte .bob).userId)
    (h : x.Ordonne compte) (hsain : x.reseau.Sain conv compte) {m : Mouvement Party} {d : Fait}
    {t : ZiaSession K} {r : Reseau Party (Cliquet K)} {pli : Pli} (hfait : pli.fait = d)
    (hsender : pli.paquet.sender = m.qui) (hauteur : d.auteur = compte m.qui)
    (hacte : m.acte? conv x.reseau.postes = some d.acte)
    (hagi : Agi compte appareil conv x m.qui t d r) :
    Ordonne compte { x with reseau := r, plis := x.plis ++ [pli] } := by
  have hroute : ∀ who, enRoute { x with reseau := r, plis := x.plis ++ [pli] } who =
      x.enRoute who ++ if who = m.qui then [d] else [] := by
    intro who
    rw [enRoute, enRoute, List.filter_append, List.map_append]
    by_cases hw : who = m.qui
    · have hmien : [pli].filter (fun pli => decide (pli.paquet.sender = who)) = [pli] :=
        List.filter_cons_of_pos (decide_eq_true (hsender.trans hw.symm))
      rw [if_pos hw, hmien, ← hfait]
      rfl
    · rw [if_neg hw, List.filter_cons_of_neg (by
        rw [hsender, decide_eq_true_eq]
        exact fun heq => hw heq.symm)]
      rfl
  constructor
  case file =>
    intro who
    rw [hroute]
    simp only [hagi.recus]
    rcases Party.eq_or_eq_other m.qui who with rfl | rfl
    · rw [Function.update_self, Function.update_of_ne (Party.other_ne _), if_pos rfl,
        List.filter_append, List.filter_cons_of_pos (par_of_auteur hauteur), h.file,
        List.append_assoc]
      rfl
    · have hmien : par compte m.qui.other d = false := par_other_of_auteur hdeux hauteur
      rw [Party.other_other, Function.update_self, Function.update_of_ne (Party.other_ne _),
        if_neg (Party.other_ne _), List.append_nil, List.filter_append,
        List.filter_cons_of_neg (by rw [hmien]; exact Bool.false_ne_true), h.file,
        Party.other_other]
      simp
  case causes =>
    intro who d' hd' hmessage
    simp only [hagi.recus] at hd' ⊢
    by_cases hw : who = m.qui
    · subst hw
      rw [Function.update_self] at hd' ⊢
      rcases List.mem_append.mp hd' with hold | hlast
      · obtain ⟨e, he, hsujet, hsub⟩ := h.causes m.qui d' hold hmessage
        exact ⟨e, he, hsujet, hsub.trans (List.sublist_append_left _ _)⟩
      · obtain rfl := List.mem_singleton.mp hlast
        obtain ⟨e, he, hem, hsujet⟩ := cause_of_acte? hsain hacte hmessage
        exact ⟨e, hem, hsujet, (List.singleton_sublist.mpr he).append (List.Sublist.refl [d'])⟩
    · rw [Function.update_of_ne hw] at hd' ⊢
      exact h.causes who d' hd' hmessage

/-- Nothing else is on its way from the device before what arrives. -/
theorem Ordonne.suivant (h : x.Ordonne compte) {i : Nat} {pli : Pli} (hi : x.plis[i]? = some pli)
    (hfirst : ∀ pli' ∈ x.plis.take i, pli'.paquet.sender ≠ pli.paquet.sender) :
    (x.reseau.recus pli.paquet.sender).filter (par compte pli.paquet.sender) =
      (x.reseau.recus pli.paquet.sender.other).filter (par compte pli.paquet.sender) ++
        pli.fait :: enRoute { x with plis := x.plis.eraseIdx i } pli.paquet.sender := by
  have hroute : x.enRoute pli.paquet.sender =
      pli.fait :: enRoute { x with plis := x.plis.eraseIdx i } pli.paquet.sender := by
    rw [enRoute, filter_eraseIdx_first hi (decide_eq_true rfl) fun pli' hp =>
      decide_eq_false (hfirst pli' hp)]
    rfl
  rw [h.file, hroute]

/-- A message that arrives is known to its receiver before what is said of it. -/
theorem Ordonne.cause (h : x.Ordonne compte) (hsain : x.reseau.Sain conv compte) {i : Nat}
    {pli : Pli} (hi : x.plis[i]? = some pli)
    (hfirst : ∀ pli' ∈ x.plis.take i, pli'.paquet.sender ≠ pli.paquet.sender)
    (hauteur : pli.fait.auteur = compte pli.paquet.sender)
    (hmessage : pli.fait.acte.estMessage = false) :
    ∃ d ∈ x.reseau.recus pli.paquet.sender.other, d.acte.estMessage = true ∧
      d.acte.sujet = pli.fait.acte.sujet := by
  have hsuivant := h.suivant hi hfirst
  have hmien := par_of_auteur hauteur
  have hdone : pli.fait ∈ x.reseau.recus pli.paquet.sender := by
    have hmem : pli.fait ∈ (x.reseau.recus pli.paquet.sender).filter
        (par compte pli.paquet.sender) := by
      rw [hsuivant]
      exact List.mem_append_right _ List.mem_cons_self
    exact (List.mem_filter.mp hmem).1
  obtain ⟨d, hd, hsujet, hsub⟩ := h.causes _ _ hdone hmessage
  refine ⟨d, ?_, hd, hsujet⟩
  have hmem : d ∈ x.reseau.recus pli.paquet.sender := hsub.subset List.mem_cons_self
  obtain ⟨j, hj⟩ := hsain.auteurs d (hsain.recus _ hmem)
  rcases Party.eq_or_eq_other pli.paquet.sender j with rfl | rfl
  · -- The sender's own message left before.
    have hpair := hsub.filter (par compte pli.paquet.sender)
    rw [List.filter_cons_of_pos (par_of_auteur hj), List.filter_cons_of_pos hmien,
      List.filter_nil, hsuivant] at hpair
    have hnodup : ((x.reseau.recus pli.paquet.sender).filter
        (par compte pli.paquet.sender)).Nodup :=
      (List.Nodup.of_map _ (hsain.distincts pli.paquet.sender)).filter _
    rw [hsuivant] at hnodup
    have hbefore : d ∈ (x.reseau.recus pli.paquet.sender.other).filter
        (par compte pli.paquet.sender) := by
      rcases List.mem_append.mp (hpair.subset List.mem_cons_self) with hold | hlate
      · exact hold
      · rcases List.mem_cons.mp hlate with rfl | hlate
        · rw [hmessage] at hd
          cases hd
        · refine absurd ?_ (not_both_orders hnodup hpair)
          exact ((List.singleton_sublist.mpr hlate).cons_cons pli.fait).trans
            (List.sublist_append_right _ _)
    exact (List.mem_filter.mp hbefore).1
  · -- The receiver's own message is there since it was done.
    have hfiltered : d ∈ (x.reseau.recus pli.paquet.sender.other).filter
        (par compte pli.paquet.sender.other) := by
      rw [h.file, Party.other_other]
      exact List.mem_append_left _ (List.mem_filter.mpr ⟨hmem, par_of_auteur hj⟩)
    exact (List.mem_filter.mp hfiltered).1

/-- The first message of a device arrives. -/
theorem Ordonne.deliver (hdeux : (compte .alice).userId ≠ (compte .bob).userId)
    (h : x.Ordonne compte) (hsain : x.reseau.Sain conv compte) {i : Nat} {pli : Pli}
    (hi : x.plis[i]? = some pli)
    (hfirst : ∀ pli' ∈ x.plis.take i, pli'.paquet.sender ≠ pli.paquet.sender)
    (hauteur : pli.fait.auteur = compte pli.paquet.sender)
    (hplis : x'.plis = x.plis.eraseIdx i)
    (hrecus : x'.reseau.recus = Function.update x.reseau.recus pli.paquet.sender.other
      (x.reseau.recus pli.paquet.sender.other ++ [pli.fait])) : x'.Ordonne compte := by
  have hroute : ∀ who, x'.enRoute who = enRoute { x with plis := x.plis.eraseIdx i } who :=
    fun who => by rw [enRoute, enRoute, hplis]
  constructor
  case file =>
    intro who
    rw [hroute, hrecus]
    rcases Party.eq_or_eq_other pli.paquet.sender who with rfl | rfl
    · rw [Function.update_self, Function.update_of_ne (Party.other_ne _).symm, List.filter_append,
        List.filter_cons_of_pos (par_of_auteur hauteur), List.filter_nil, h.suivant hi hfirst,
        List.append_assoc]
      rfl
    · have hautre : par compte pli.paquet.sender.other pli.fait = false :=
        par_other_of_auteur hdeux hauteur
      rw [Function.update_self, Party.other_other,
        Function.update_of_ne (Party.other_ne _).symm, List.filter_append,
        List.filter_cons_of_neg (by rw [hautre]; exact Bool.false_ne_true), List.filter_nil,
        List.append_nil, h.file, Party.other_other, enRoute, enRoute]
      rw [filter_eraseIdx_other hi (decide_eq_false (Party.other_ne _).symm)]
  case causes =>
    intro who d hd hmessage
    rw [hrecus] at hd ⊢
    by_cases hw : who = pli.paquet.sender.other
    · subst hw
      rw [Function.update_self] at hd ⊢
      rcases List.mem_append.mp hd with hold | hlast
      · obtain ⟨e, he, hsujet, hsub⟩ := h.causes _ d hold hmessage
        exact ⟨e, he, hsujet, hsub.trans (List.sublist_append_left _ _)⟩
      · obtain rfl := List.mem_singleton.mp hlast
        obtain ⟨e, he, hem, hsujet⟩ := h.cause hsain hi hfirst hauteur hmessage
        exact ⟨e, hem, hsujet, (List.singleton_sublist.mpr he).append (List.Sublist.refl _)⟩
    · rw [Function.update_of_ne hw] at hd ⊢
      exact h.causes who d hd hmessage

theorem ordonne_step (hQ : CliquetReel p double Q) (hP : AeadCorrect p) (hdh : DhAgreement p)
    (hnoms : Reseau.NomsDistincts compte) (hdeux : (compte .alice).userId ≠ (compte .bob).userId)
    (e : Trafic K) (x x' : Duplex K) (hsain : x.Sain p compte appareil conv sk ad)
    (h : x.Ordonne compte) (hfair : Fair p conv e x) (hordre : InOrder p conv e x)
    (hstep : step p Q compte appareil conv e x = some x') : x'.Ordonne compte := by
  cases e with
  | agir m env handshake =>
    obtain ⟨acte, hacte, hstep⟩ := Option.bind_eq_some_iff.mp hstep
    obtain ⟨chiffre, t, hencrypt⟩ := hordre acte hacte
    simp only [hencrypt] at hstep
    obtain ⟨r, hr, rfl⟩ := Option.map_eq_some_iff.mp hstep
    exact h.agir hdeux hsain.reseau rfl rfl rfl hacte (hsain.agi hQ hnoms hacte hr)
  | openConversation who id =>
    simp only [step] at hstep
    obtain ⟨r, hr, rfl⟩ := Option.map_eq_some_iff.mp hstep
    obtain rfl := Option.some.inj hr
    exact ⟨h.file, h.causes⟩
  | closeConversation who =>
    simp only [step] at hstep
    obtain ⟨r, hr, rfl⟩ := Option.map_eq_some_iff.mp hstep
    obtain rfl := Option.some.inj hr
    exact ⟨h.file, h.causes⟩
  | deliver i now env =>
    cases hi : x.plis[i]? with
    | none =>
      simp only [step, hi] at hstep
      obtain rfl := Option.some.inj hstep
      exact h
    | some pli =>
      obtain ⟨-, -, hplis, hrecus⟩ := hsain.deliver hQ hP hdh hnoms hi hfair hstep
      exact h.deliver hdeux hsain.reseau hi (hordre pli hi)
        (hsain.auteurs pli (List.mem_of_getElem? hi)) hplis hrecus
  | lose i => exact absurd hordre not_false

/-! ## All runs -/

/-- Nothing is on its way any more. -/
theorem Ordonne.sameOrder (hdeux : (compte .alice).userId ≠ (compte .bob).userId)
    (h : x.Ordonne compte) (hsain : x.reseau.Sain conv compte) (hplis : x.plis = []) :
    SameOrder Lies (x.reseau.recus .alice) (x.reseau.recus .bob) := by
  have hroute : ∀ who, x.enRoute who = [] := fun who => by rw [enRoute, hplis]; rfl
  have hfile : ∀ who : Party, (x.reseau.recus who).filter (par compte who) =
      (x.reseau.recus who.other).filter (par compte who) := fun who => by
    rw [h.file, hroute, List.append_nil]
  -- What is not Alice's is Bob's.
  have hbob : ∀ who, (x.reseau.recus who).filter (fun d => !par compte .alice d) =
      (x.reseau.recus who).filter (par compte .bob) := fun who => by
    refine List.filter_congr fun d hd => ?_
    obtain ⟨j, hj⟩ := hsain.auteurs d (hsain.recus who hd)
    cases j with
    | alice =>
      have hautre : par compte .bob d = false := par_other_of_auteur hdeux hj
      rw [par_of_auteur hj, hautre]
      rfl
    | bob =>
      have hautre : par compte .alice d = false := par_other_of_auteur hdeux hj
      rw [par_of_auteur hj, hautre]
      rfl
  have hunique : ∀ who, ∀ d ∈ x.reseau.recus who, ∀ d' ∈ x.reseau.faits,
      d.acte.estMessage = true → d'.acte.estMessage = true → d'.acte.sujet = d.acte.sujet →
        d' = d := fun who d hd d' hd' hm hm' hsujet =>
    hsain.messages d' hd' d (hsain.recus who hd) hm' hm hsujet
  have hnodup : ∀ who, (x.reseau.recus who).Nodup := fun who =>
    List.Nodup.of_map _ (hsain.distincts who)
  -- A message stands before what is said of it.
  have hbefore : ∀ who, ∀ a ∈ x.reseau.recus who, ∀ b ∈ x.reseau.recus who,
      a.acte.estMessage = true → b.acte.estMessage = false → a.acte.sujet = b.acte.sujet →
        [a, b].Sublist (x.reseau.recus who) := fun who a ha b hb hm hm' hsujet => by
    obtain ⟨e, he, hes, hsub⟩ := h.causes who b hb hm'
    obtain rfl := hunique who a ha e (hsain.recus who (hsub.subset List.mem_cons_self)) hm he
      (hes.trans hsujet.symm)
    exact hsub
  refine .of_sides (par compte .alice) (hfile .alice) ?_ ?_
  · rw [hbob, hbob]
    exact (hfile .bob).symm
  · rintro a b ⟨ha, ha'⟩ ⟨hb, hb'⟩ ⟨hsujet, hlies⟩ hside
    cases hm : a.acte.estMessage with
    | true =>
      cases hm' : b.acte.estMessage with
      | true =>
        obtain rfl := hunique .alice a ha b (hsain.recus .alice hb) hm hm' hsujet.symm
        exact absurd rfl hside
      | false =>
        exact iff_of_true (hbefore .alice a ha b hb hm hm' hsujet)
          (hbefore .bob a ha' b hb' hm hm' hsujet)
    | false =>
      cases hm' : b.acte.estMessage with
      | true =>
        exact iff_of_false
          (not_both_orders (hnodup .alice) (hbefore .alice b hb a ha hm' hm hsujet.symm))
          (not_both_orders (hnodup .bob) (hbefore .bob b hb' a ha' hm' hm hsujet.symm))
      | false =>
        rw [hm, hm'] at hlies
        rcases hlies with heq | hno | hno
        · exact absurd (by rw [par, par, heq]) hside
        · cases hno
        · cases hno

/-- Once nothing is on its way, the two devices show the same messages: the same texts,
deletions, quotes, attachments and reactions. -/
theorem in_order_converge (hQ : CliquetReel p double Q) (hP : AeadCorrect p) (hdh : DhAgreement p)
    (hnoms : Reseau.NomsDistincts compte) (hdeux : (compte .alice).userId ≠ (compte .bob).userId)
    {env : CallEnv K} {signedPrekey : K}
    (hne : p.x25519Base env.fresh ≠ p.x25519Base signedPrekey)
    {postes : Party → State (Cliquet K)} (hdebut : Reseau.Debut compte conv postes)
    (hrelies : ∀ who : Party, Relie conv (appareil who.other) (postes who))
    {trafics : List (Trafic K)}
    (hfair : Always (step p Q compte appareil conv) (Fair p conv) trafics
      (debut p env ad sk signedPrekey postes))
    (hordre : Always (step p Q compte appareil conv) (InOrder p conv) trafics
      (debut p env ad sk signedPrekey postes))
    (h : run (step p Q compte appareil conv) trafics (debut p env ad sk signedPrekey postes) =
      some x) (hplis : x.plis = []) (id : Text) :
    (premier (x.reseau.thread conv .alice) id).map ChatMessage.corps =
      (premier (x.reseau.thread conv .bob) id).map ChatMessage.corps := by
  have hvide : (debut p env ad sk signedPrekey postes).Ordonne compte :=
    ⟨fun _ => rfl, fun _ d hd => absurd hd List.not_mem_nil⟩
  obtain ⟨hsain, hordonne⟩ := run_invariant_of_always
    (fun x => x.Sain p compte appareil conv sk ad ∧ x.Ordonne compte)
    (fun e x y hx hC hstep => ⟨sain_step hQ hP hdh hnoms e x y hx.1 hC.1 hstep,
      ordonne_step hQ hP hdh hnoms hdeux e x y hx.1 hx.2 hC.1 hC.2 hstep⟩)
    ⟨sain_debut hdh hne hdebut hrelies, hvide⟩ (hfair.and hordre) h
  exact hsain.reseau.converge (hordonne.sameOrder hdeux hsain.reseau hplis) id

/-! ## Two acts that cross -/

instance decidableOk {α : Type} (o : Outcome K α) : Decidable (∃ a t, o = .ok a t) :=
  match o with
  | .ok a t => isTrue ⟨a, t, rfl⟩
  | .error _ _ => isFalse (by rintro ⟨_, _, ⟨⟩⟩)
  | .fault => isFalse (by rintro ⟨_, _, ⟨⟩⟩)

instance decidableInOrder (e : Trafic K) (x : Duplex K) : Decidable (InOrder p conv e x) :=
  match e with
  | .agir m env _ => inferInstanceAs (Decidable (∀ acte ∈ m.acte? conv x.reseau.postes,
      ∃ chiffre t, ziaSessionEncrypt p env (x.session m.qui)
        (acte.contenu.encode encodeursDart) = .ok chiffre t))
  | .deliver i _ _ => inferInstanceAs (Decidable (∀ pli ∈ x.plis[i]?,
      ∀ pli' ∈ x.plis.take i, pli'.paquet.sender ≠ pli.paquet.sender))
  | .openConversation _ _ => isTrue trivial
  | .closeConversation _ => isTrue trivial
  | .lose _ => isFalse not_false

/-- Bob reacts to a message that Alice edits meanwhile, and the edit arrives first. -/
def croise : List (Trafic Key) :=
  [.agir (.send .alice 0 (text "hi") none none ⟨text "m-1", 1, []⟩) (sampleEnv 0) none,
    .deliver 0 0 (sampleEnv 4),
    .agir (.reagir .bob 0 (text "+")) (sampleEnv 0) none,
    .agir (.editMessage .alice 0 0 (text "ho")) (sampleEnv 0) none,
    .deliver 1 0 (sampleEnv 6), .deliver 0 0 (sampleEnv 8)]

theorem croise_fair : Always stepEntreEux (Fair sample (text "c")) croise aliceAvecBob := by
  decide +kernel

theorem croise_inOrder : Always stepEntreEux (InOrder sample (text "c")) croise aliceAvecBob := by
  decide +kernel

theorem croise_recus : (run stepEntreEux croise aliceAvecBob).map (fun x =>
    ((x.reseau.recus .alice).map (·.numero), (x.reseau.recus .bob).map (·.numero),
      x.plis.length)) = some ([0, 2, 1], [0, 1, 2], 0) := by decide +kernel

theorem croise_converge : ∃ x, run stepEntreEux croise aliceAvecBob = some x ∧
    (x.reseau.recus .alice).map (·.numero) = [0, 2, 1] ∧
      (x.reseau.recus .bob).map (·.numero) = [0, 1, 2] ∧
        ∀ id, (premier (x.reseau.thread (text "c") .alice) id).map ChatMessage.corps =
          (premier (x.reseau.thread (text "c") .bob) id).map ChatMessage.corps := by
  obtain ⟨x, hx, hrecus⟩ := Option.map_eq_some_iff.mp croise_recus
  obtain ⟨halice, hrest⟩ := Prod.mk.inj hrecus
  obtain ⟨hbob, hplis⟩ := Prod.mk.inj hrest
  exact ⟨x, hx, halice, hbob, in_order_converge plateformeCliquet_reel sample_aeadCorrect
    sample_dhAgreement compteDe_noms (by decide) (by decide) posteDe_debut posteDe_relie
    croise_fair croise_inOrder hx (List.length_eq_zero_iff.mp hplis)⟩

end ZiaCrypte.Inbox.Duplex
