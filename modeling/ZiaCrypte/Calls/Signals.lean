import ZiaCrypte.Calls.CallService

/-!
# What the received signals do

Whatever the interleaving, each assignment made for a signal finds what the code has just
tested: a signal is opened by its session before it acts, a call rings only where there is
none, an answer is taken only for the call that rings, a candidate only from the device of
the call. The ends of a call test the id of the call alone.
-/
namespace ZiaCrypte.Calls

open ZiaCrypte.Lib

def Stmt.Guard : Stmt → Service → Prop
  | .sonner _ f _, s => f.authentique = true ∧ s.appel.callEtat = .aucun
  | .decrocher f, s =>
      f.authentique = true ∧ s.appel.callId = some f.callId ∧ s.appel.callEtat = .sortant
  | .raccroche f, s => s.appel.callId = some f.callId
  | .candidat f _, s =>
      f.authentique = true ∧ s.appel.callId = some f.callId ∧
        (s.appel.callPairDevice.any (· ≠ f.sender)) = false
  | _, _ => True

/-- The guards of the events: only the assignments have one. -/
def CallGuard : CallEvent → Service → Prop
  | .act a, s => a.Guard s
  | _, _ => True

/-- A body all of whose assignments meet their guards. -/
abbrev CallSafe {α : Type} (post : Except Unit α → Service → Prop) (x : Task α) (s : Service) :
    Prop :=
  Safe callSemantics CallGuard post x s

/-- A request may be answered in any way, at any later state. -/
theorem callSafe_request {q : Request} {post : Except Unit (Reply q) → Service → Prop}
    {s : Service} (h : ∀ x s', post (q.answer x) s') :
    CallSafe post (Async.request q : Task (Reply q)) s :=
  ⟨trivial, fun _ _ x _ => ⟨trivial, fun s₂ _ => h x s₂⟩⟩

/-- A body whose end asks nothing may be followed by one that is safe everywhere. -/
theorem callSafe_bind {α β : Type} {post : Except Unit β → Service → Prop} {x : Task α}
    {f : α → Task β} {s : Service} (hx : CallSafe (fun _ _ => True) x s)
    (herror : ∀ s', post (.error ()) s') (hf : ∀ a s', CallSafe post (f a) s') :
    CallSafe post (x >>= f) s := by
  rw [CallSafe, safe_bind]
  refine hx.imp fun r s' _ => ?_
  cases r with
  | ok a => exact hf a s'
  | error e => exact herror s'

/-- A read and an assignment are made at once. -/
theorem callSafe_get {α : Type} {post : Except Unit α → Service → Prop} {f : Service → Task α}
    {s : Service} (h : CallSafe post (f s) s) : CallSafe post (Async.get >>= f) s := h

theorem callSafe_exec {α : Type} {post : Except Unit α → Service → Prop} {a : Stmt}
    {f : Unit → Task α} {s : Service} (ha : a.Guard s)
    (h : CallSafe post (f ()) (a.apply s)) : CallSafe post (Async.exec a >>= f) s := ⟨ha, h⟩

theorem callSafe_attempt {α : Type} {x : Task α} {s : Service}
    (hx : CallSafe (fun _ _ => True) x s) : CallSafe (fun _ _ => True) x.attempt s := by
  rw [CallSafe, safe_attempt]
  exact hx

/-- A payload that opens is authentic. -/
theorem answer_decrypt {f : Frame} {x : Outside} {data : Data}
    (h : (Request.decrypt f).answer x = .ok data) : f.authentique = true := by
  cases x with
  | data d =>
    by_cases ha : f.authentique = true
    · exact ha
    · simp [Request.answer, ha] at h
  | failed => cases h
  | done => cases h
  | creds _ => cases h

/-! ## The bodies without guarded assignments -/

theorem envoyerChacun_safe (id : CallId) (kind : Kind) (data : Data) (devices : List DeviceId)
    (s : Service) : CallSafe (fun _ _ => True) (envoyerChacun id kind data devices) s := by
  induction devices generalizing s with
  | nil => trivial
  | cons d ds ih =>
    exact callSafe_bind (callSafe_request fun _ _ => trivial) (fun _ => trivial) fun _ s' => ih s'

theorem preparerOffre_safe (conv : ConvId) (id : CallId) (s : Service) :
    CallSafe (fun _ _ => True) (preparerOffre conv id) s := by
  refine callSafe_get ?_
  split
  · refine callSafe_bind (callSafe_attempt (callSafe_request fun _ _ => trivial))
      (fun _ => trivial) fun r s₁ => ?_
    cases r with
    | ok data => exact callSafe_exec trivial trivial
    | error e => trivial
  · trivial

theorem appeler_safe (conv : ConvId) (id : CallId) (s : Service) :
    CallSafe (fun _ _ => True) (appeler conv id) s := by
  refine callSafe_get ?_
  dsimp only
  split
  · trivial
  · refine callSafe_bind (callSafe_attempt (callSafe_request fun _ _ => trivial))
      (fun _ => trivial) fun r s₁ => ?_
    split
    · refine callSafe_exec trivial (callSafe_get (callSafe_exec trivial ?_))
      split
      · trivial
      · exact callSafe_bind (preparerOffre_safe conv id _) (fun _ => trivial) fun data s₂ =>
          envoyerChacun_safe id .invite data _ s₂
    · trivial

theorem rejouerCandidats_safe (length : Nat) (attente : List Data) (s : Service) :
    CallSafe (fun _ _ => True) (rejouerCandidats length attente) s := by
  induction attente generalizing s with
  | nil => trivial
  | cons c cs ih =>
    refine callSafe_bind (callSafe_attempt (callSafe_request fun _ _ => trivial))
      (fun _ => trivial) fun _ s₁ => callSafe_get ?_
    split
    · trivial
    · exact ih s₁

theorem repondreOffre_safe (conv : ConvId) (id : CallId) (s : Service) :
    CallSafe (fun _ _ => True) (repondreOffre conv id) s := by
  refine callSafe_get ?_
  split
  · trivial
  · split
    · refine callSafe_bind (callSafe_attempt (callSafe_request fun _ _ => trivial))
        (fun _ => trivial) fun r s₁ => ?_
      cases r with
      | error e => trivial
      | ok data =>
        refine callSafe_exec trivial (callSafe_get ?_)
        refine callSafe_bind (callSafe_attempt ?_) (fun _ => trivial) fun _ _ => trivial
        refine callSafe_bind (rejouerCandidats_safe _ _ _) (fun _ => trivial) fun _ s₂ => ?_
        exact callSafe_exec trivial ⟨trivial, trivial⟩
    · trivial

theorem accepter_safe (conv : ConvId) (device : DeviceId) (id : CallId) (s : Service) :
    CallSafe (fun _ _ => True) (accepter conv device id) s := by
  -- What follows the wait for the relays, whether there is one or not.
  have hrest : ∀ s', CallSafe (fun _ _ => True) (do
      Async.exec (.connecter device id)
      let data ← repondreOffre conv id
      Async.request (Request.envoyerSignalAppel ⟨device, id, .answer, data⟩) : Task Unit) s' := by
    intro s'
    refine callSafe_exec trivial ?_
    exact callSafe_bind (repondreOffre_safe conv id _) (fun _ => trivial) fun _ _ =>
      callSafe_request fun _ _ => trivial
  refine callSafe_get ?_
  split
  · refine callSafe_bind (callSafe_attempt (callSafe_request fun _ _ => trivial))
      (fun _ => trivial) fun r s₁ => ?_
    cases r with
    | ok creds => exact callSafe_exec trivial (hrest _)
    | error e => exact hrest s₁
  · exact hrest s

theorem accepterAppel_safe (s : Service) : CallSafe (fun _ _ => True) accepterAppel s := by
  refine callSafe_get ?_
  split
  · split
    · trivial
    · split
      · trivial
      · exact accepter_safe _ _ _ s
  · trivial

theorem raccrocherChacun_safe (id : CallId) (kind : Kind) (devices : List DeviceId)
    (s : Service) : CallSafe (fun _ _ => True) (raccrocherChacun id kind devices) s := by
  induction devices generalizing s with
  | nil => trivial
  | cons d ds ih =>
    refine callSafe_get ?_
    dsimp only
    split
    · exact callSafe_bind (callSafe_request fun _ _ => trivial) (fun _ => trivial)
        fun _ s' => ih s'
    · exact ih s

theorem raccrocher_safe (s : Service) : CallSafe (fun _ _ => True) raccrocher s := by
  refine callSafe_get ?_
  dsimp only
  split
  · exact ⟨trivial, trivial⟩
  · exact callSafe_bind (raccrocherChacun_safe _ _ _ s) (fun _ => trivial)
      fun _ _ => ⟨trivial, trivial⟩

theorem conclure_safe (f : Frame) (data : Data) (s : Service) :
    CallSafe (fun _ _ => True) (conclure f data) s := by
  have hrest : ∀ s', CallSafe (fun _ _ => True) (do
      let s ← Async.get
      Async.exec (.emettre (s.appel.iceLocalEnAttente.map fun c => ⟨f.sender, f.callId, .ice, c⟩))
      Async.exec (.viderIceLocal f)
      Async.exec (.emettre ((s.appel.callCibles.filter (· ≠ f.sender)).map fun d =>
        ⟨d, f.callId, .hangup, .vide⟩))
      if s.appel.callSession.isSome then Async.exec (.armerTimeoutMedia (some f)) : Task Unit)
        s' := by
    intro s'
    refine ⟨trivial, trivial, trivial, ?_⟩
    split
    · exact ⟨trivial, trivial⟩
    · trivial
  rw [conclure]
  split
  · exact callSafe_bind (callSafe_attempt (callSafe_request fun _ _ => trivial))
      (fun _ => trivial) fun _ s₁ => hrest s₁
  · exact hrest s

theorem expirer_safe (s : Service) : CallSafe (fun _ _ => True) expirer s := by
  refine callSafe_exec trivial (callSafe_get ?_)
  split
  · trivial
  · split
    · dsimp only
      split
      · exact ⟨trivial, trivial, trivial⟩
      · exact ⟨trivial, trivial⟩
    · exact ⟨trivial, trivial⟩

/-! ## The signals -/

theorem traiter_safe (conv : ConvId) {f : Frame} (data : Data) (ha : f.authentique = true)
    (s : Service) : CallSafe (fun _ _ => True) (traiter conv f data) s := by
  -- Nothing runs between the test and the assignment: both see `s`.
  refine callSafe_get ?_
  split
  · split
    · exact callSafe_request fun _ _ => trivial
    · rename_i hlibre
      have haucun : s.appel.callEtat = .aucun := by simpa [Service.enAppel] using hlibre
      exact ⟨⟨ha, haucun⟩, trivial⟩
  · split
    · rename_i hsonne
      exact ⟨⟨ha, hsonne⟩, conclure_safe f data _⟩
    · trivial
  · split
    · trivial
    · rename_i hautre
      split
      · trivial
      · rename_i hpair
        have hid : s.appel.callId = some f.callId :=
          Classical.byContradiction fun hne => hautre (.inl hne)
        refine callSafe_exec ⟨ha, hid, by simpa using hpair⟩ ?_
        split
        · exact callSafe_bind (callSafe_attempt (callSafe_request fun _ _ => trivial))
            (fun _ => trivial) fun _ _ => trivial
        · trivial
  · trivial

theorem recevoirSignalAppel_safe (f : Frame) (s : Service) :
    CallSafe (fun _ _ => True) (recevoirSignalAppel f) s := by
  refine callSafe_get ?_
  split
  · split
    · rename_i hid
      exact ⟨hid, trivial⟩
    · trivial
  · split
    · trivial
    · rename_i conv _
      rw [CallSafe, safe_bind, safe_attempt]
      refine callSafe_request fun x s' => ?_
      rw [continues_ok]
      cases hdata : (Request.decrypt f).answer x with
      | error e => trivial
      | ok data => exact traiter_safe conv data (answer_decrypt hdata) s'

/-! ## Runs -/

theorem program_safe (task : CallTask) (s : Service) :
    CallSafe (fun _ _ => True) task.program s := by
  cases task with
  | appeler conv id => exact appeler_safe conv id s
  | accepterAppel => exact accepterAppel_safe s
  | raccrocher => exact raccrocher_safe s
  | recevoirSignalAppel f => exact recevoirSignalAppel_safe f s
  | expirer => exact expirer_safe s
  | mediaConnecte connecte => exact ⟨trivial, trivial⟩
  | iceLocal id data => exact ⟨trivial, trivial⟩
  | reinitialiser => exact ⟨trivial, trivial⟩
  | majConversations conversations => exact ⟨trivial, trivial⟩

/-- In every run each assignment meets its guard. -/
theorem callRun_isSafe {conversations : List Conversation} {activerMediaAppel : Bool}
    {choices : List CallChoice} {p : CallPool}
    (hrun : callRun conversations activerMediaAppel choices = some p) :
    p.IsSafe callSemantics CallGuard (.initial conversations activerMediaAppel) :=
  Pool.run_isSafe (fun _ => True) (fun _ _ _ _ => trivial) (fun t s _ _ => program_safe t s)
    (fun _ => trivial) trivial hrun

end ZiaCrypte.Calls
