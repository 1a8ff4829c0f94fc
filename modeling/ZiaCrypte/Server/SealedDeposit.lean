import ZiaCrypte.Server.Routes

/-!
# `POST /messages/sealed`

The deposit of a sealed envelope, and what `_sendToDevice` makes of its answer. Each of
the two statements of the route may throw, before or after it was carried out, and the
tables may change between them.
-/
namespace ZiaCrypte.Server

open ZiaCrypte.Engine

/-- What becomes of a statement; a `lost` one is carried out and throws. -/
inductive StatementOutcome where
  | done
  | failed
  | lost
  deriving DecidableEq

inductive CreateError where
  | uniqueViolation
  | foreignKeyViolation
  | other
  deriving DecidableEq

/-- `prisma.messageBlob.create`: the unique indexes are looked at first. -/
def createMessageBlob (outcome : StatementOutcome) (blob : MessageBlob) (db : Database) :
    Except CreateError Unit × Database :=
  if outcome = .failed then (.error .other, db)
  else
    match createBlob db.messageBlobs blob with
    | none => (.error .uniqueViolation, db)
    | some blobs =>
        if (db.findDevice blob.recipientDeviceId).isNone then (.error .foreignKeyViolation, db)
        else (if outcome = .lost then .error .other else .ok (), { db with messageBlobs := blobs })

structure SealedBody where
  /-- In UTF-16 units. -/
  deliveryToken : List UInt16
  recipientDeviceId : Uuid
  clientMessageId : Uuid
  sealed : Bytes

/-- The devices, and the column of the tokens they published. -/
structure SealedTables (Digest : Type) where
  db : Database
  deliveryTokenHash : Uuid → Option Digest

def Sealed.MAX_SIZE : Nat := 64 * 1024

variable {Digest : Type} [DecidableEq Digest] (hacher : List UInt16 → Digest)

/-- The token is the one an active device published. -/
def SealedTables.permits (t : SealedTables Digest) (body : SealedBody) : Bool :=
  match t.db.findDevice body.recipientDeviceId with
  | none => false
  | some device =>
      device.isActive && t.deliveryTokenHash device.id == some (hacher body.deliveryToken)

def sealedBlob (env : RequestEnv) (body : SealedBody) : MessageBlob where
  id := env.fresh 0
  conversationId := none
  channelId := none
  senderDeviceId := none
  recipientDeviceId := body.recipientDeviceId
  clientMessageId := body.clientMessageId
  ratchetHeader := []
  ciphertext := body.sealed
  createdAt := env.now
  deliveredAt := none
  expiresAt := env.now + retention

/-- What is decided before the envelope is stored. -/
def sealedRefusal (find : StatementOutcome) (body : SealedBody) (t : SealedTables Digest) :
    Option HttpError :=
  if body.deliveryToken.length < 20 ∨ body.deliveryToken.length > 200 then some invalidRequest
  else if body.sealed.length = 0 ∨ body.sealed.length > Sealed.MAX_SIZE then
    some ⟨413, "enveloppe hors bornes"⟩
  else if find ≠ .done then some ⟨500, "erreur interne"⟩
  else if !t.permits hacher body then some ⟨404, "destinataire introuvable"⟩
  else none

/-- `t` is what the first statement reads, `db` what the second one finds. -/
def postSealed (env : RequestEnv) (find create : StatementOutcome) (body : SealedBody)
    (t : SealedTables Digest) (db : Database) : Answer :=
  match sealedRefusal hacher find body t with
  | some e => (.error e, db)
  | none =>
      match createMessageBlob create (sealedBlob env body) db with
      | (.ok _, db) => (.ok ⟨201, .id (env.fresh 0)⟩, db)
      -- The `catch` takes every error for a duplicate.
      | (.error _, db) => (.ok ⟨201, .id (env.fresh 1)⟩, db)

/-- `_sendToDevice`, from the sealed deposit on: when that throws, the message goes the
authenticated way. -/
def sendToDevice (claims : Claims) (env env' : RequestEnv) (find create : StatementOutcome)
    (body : SealedBody) (authenticated : SendBody) (t : SealedTables Digest) (db : Database) :
    Option Answer × Database :=
  match postSealed hacher env find create body t db with
  | (.ok _, db) => (none, db)
  | (.error _, db) =>
      let answer := Request.handle ⟨claims, env', .postMessages authenticated⟩ db
      (some answer, answer.2)

/-! ## What the answer is to say -/

variable (env : RequestEnv) (find create : StatementOutcome) (body : SealedBody)
  (t : SealedTables Digest) (db : Database)

/-- A deposit for this device with this id of the client. -/
def Deposited (body : SealedBody) (db : Database) : Prop :=
  ∃ b ∈ db.messageBlobs, b.recipientDeviceId = body.recipientDeviceId ∧
    b.clientMessageId = body.clientMessageId

/-- The route gets to the deposit, and it fails for another reason than a duplicate. -/
def FailsOtherwise : Prop :=
  sealedRefusal hacher find body t = none ∧
    ∃ e, e ≠ .uniqueViolation ∧ createMessageBlob create (sealedBlob env body) db = (.error e, db)

/-- Who is told that the envelope was accepted has it stored, now or before; who is not
is told, and the message goes the other way. -/
structure DepositReported : Prop where
  accepted : ∀ reply, (postSealed hacher env find create body t db).1 = .ok reply →
    sealedBlob env body ∈ (postSealed hacher env find create body t db).2.messageBlobs ∨
      Deposited body db
  reported : FailsOtherwise hacher env find create body t db →
    ∃ e, (postSealed hacher env find create body t db).1 = .error e
  fallsBack : ∀ claims env' authenticated, FailsOtherwise hacher env find create body t db →
    (sendToDevice hacher claims env env' find create body authenticated t db).1 =
      some (Request.handle ⟨claims, env', .postMessages authenticated⟩ db)

/-- The deposit is carried out, on a device that is still there or has it already. -/
def DepositRuns : Prop :=
  create ≠ .failed ∧
    (Deposited body db ∨ (db.findDevice body.recipientDeviceId).isSome = true)

variable {hacher env find create body t db}

/-! ## The deposit -/

theorem createBlob_sealed (hnew : ∀ b ∈ db.messageBlobs, b.id ≠ env.fresh 0) :
    createBlob db.messageBlobs (sealedBlob env body) = none ↔ Deposited body db := by
  unfold createBlob
  constructor
  · intro h
    split at h
    · rename_i hany
      obtain ⟨b, hb, hconflict⟩ := List.any_eq_true.mp hany
      simp only [MessageBlob.conflicts, sealedBlob, Bool.or_eq_true, Bool.and_eq_true,
        beq_iff_eq] at hconflict
      rcases hconflict with hid | ⟨hdevice, hclient⟩
      · exact absurd hid.symm (hnew b hb)
      · exact ⟨b, hb, hdevice.symm, hclient.symm⟩
    · cases h
  · intro ⟨b, hb, hdevice, hclient⟩
    rw [if_pos]
    refine List.any_eq_true.mpr ⟨b, hb, ?_⟩
    simp [MessageBlob.conflicts, sealedBlob, hdevice, hclient]

/-- A deposit that runs stores the envelope, or finds it there. -/
theorem createMessageBlob_runs (hnew : ∀ b ∈ db.messageBlobs, b.id ≠ env.fresh 0)
    (h : DepositRuns create body db) :
    (createMessageBlob create (sealedBlob env body) db = (.error .uniqueViolation, db) ∧
      Deposited body db) ∨
    sealedBlob env body ∈ (createMessageBlob create (sealedBlob env body) db).2.messageBlobs ∧
      ¬ Deposited body db := by
  obtain ⟨hexecuted, hthere⟩ := h
  unfold createMessageBlob
  rw [if_neg hexecuted]
  cases hcreate : createBlob db.messageBlobs (sealedBlob env body) with
  | none => exact .inl ⟨rfl, (createBlob_sealed hnew).mp hcreate⟩
  | some blobs =>
    have hfresh : ¬ Deposited body db := by
      intro hdeposited
      rw [(createBlob_sealed hnew).mpr hdeposited] at hcreate
      cases hcreate
    have hdevice : (db.findDevice (sealedBlob env body).recipientDeviceId).isNone = false := by
      have hsome := hthere.resolve_left hfresh
      rw [Option.isNone_eq_false_iff]
      exact hsome
    right
    dsimp only
    rw [hdevice]
    refine ⟨?_, hfresh⟩
    unfold createBlob at hcreate
    split at hcreate
    · cases hcreate
    · obtain rfl := Option.some.inj hcreate
      simp

/-- Otherwise it changes nothing, and the error is not that of a duplicate. -/
theorem createMessageBlob_fails (hnew : ∀ b ∈ db.messageBlobs, b.id ≠ env.fresh 0)
    (h : ¬ DepositRuns create body db) :
    ∃ e, e ≠ .uniqueViolation ∧
      createMessageBlob create (sealedBlob env body) db = (.error e, db) := by
  unfold createMessageBlob
  by_cases hfailed : create = .failed
  · rw [if_pos hfailed]
    exact ⟨.other, nofun, rfl⟩
  · rw [if_neg hfailed]
    obtain ⟨hfresh, hgone⟩ := not_or.mp fun hthere => h ⟨hfailed, hthere⟩
    cases hcreate : createBlob db.messageBlobs (sealedBlob env body) with
    | none => exact absurd ((createBlob_sealed hnew).mp hcreate) hfresh
    | some blobs =>
      have hnone : (db.findDevice (sealedBlob env body).recipientDeviceId).isNone = true := by
        rw [Option.isNone_iff_eq_none, ← Option.not_isSome_iff_eq_none]
        exact hgone
      refine ⟨.foreignKeyViolation, nofun, ?_⟩
      dsimp only
      rw [if_pos hnone]

/-- Whatever the outcome, the route answers alike once the token is good. -/
theorem postSealed_accepts (hpermitted : sealedRefusal hacher find body t = none) :
    (∃ reply, (postSealed hacher env find create body t db).1 = .ok reply) ∧
      (postSealed hacher env find create body t db).2 =
        (createMessageBlob create (sealedBlob env body) db).2 := by
  unfold postSealed
  rw [hpermitted]
  rcases createMessageBlob create (sealedBlob env body) db with ⟨_ | _, db'⟩
  · exact ⟨⟨_, rfl⟩, rfl⟩
  · exact ⟨⟨_, rfl⟩, rfl⟩

/-- For every request and every outcome of the two statements: the answer says what became
of the deposit exactly when the route refuses the request or the deposit runs. -/
theorem sealedDeposit_reported_iff (hacher : List UInt16 → Digest) (env : RequestEnv)
    (find create : StatementOutcome) (body : SealedBody) (t : SealedTables Digest)
    (db : Database) (hnew : ∀ b ∈ db.messageBlobs, b.id ≠ env.fresh 0) :
    DepositReported hacher env find create body t db ↔
      (sealedRefusal hacher find body t = none → DepositRuns create body db) := by
  constructor
  · intro h hpermitted
    refine Classical.byContradiction fun hruns => ?_
    obtain ⟨e, he⟩ := h.reported ⟨hpermitted, createMessageBlob_fails hnew hruns⟩
    obtain ⟨reply, hreply⟩ : ∃ reply, (postSealed hacher env find create body t db).1 = .ok reply :=
      (postSealed_accepts hpermitted).1
    rw [hreply] at he
    cases he
  · intro h
    have hnever : ¬ FailsOtherwise hacher env find create body t db := by
      intro ⟨hpermitted, e, he, hcreate⟩
      rcases createMessageBlob_runs hnew (h hpermitted) with ⟨hdup, -⟩ | ⟨hstored, -⟩
      · rw [hdup] at hcreate
        exact he (Except.error.inj (Prod.mk.inj hcreate).1).symm
      · rw [hcreate] at hstored
        exact hnew _ hstored rfl
    refine ⟨fun reply hreply => ?_, fun hfails => absurd hfails hnever,
      fun _ _ _ hfails => absurd hfails hnever⟩
    cases hrefused : sealedRefusal hacher find body t with
    | some e =>
      unfold postSealed at hreply
      rw [hrefused] at hreply
      cases hreply
    | none =>
      rw [(postSealed_accepts hrefused).2]
      rcases createMessageBlob_runs hnew (h hrefused) with ⟨-, hbefore⟩ | ⟨hstored, -⟩
      · exact .inr hbefore
      · exact .inl hstored

/-! ## A deposit that fails, and one that runs -/

def sampleDevices : Database :=
  { Database.empty with
    users := [⟨1, none⟩, ⟨2, none⟩]
    devices := [⟨10, 1, true⟩, ⟨20, 2, true⟩] }

/-- The device published the token that is presented. -/
def sealedTables : SealedTables (List UInt16) := ⟨sampleDevices, fun _ => some (.replicate 20 65)⟩

def sampleEnvelope : SealedBody := ⟨.replicate 20 65, 20, 7, [3]⟩

def sampleSealedEnv : RequestEnv := ⟨100, fun i => 1000 + i⟩

/-- The database is gone for a moment: the envelope is lost and the answer is 201. -/
theorem failedDeposit_accepted :
    (postSealed id sampleSealedEnv .done .failed sampleEnvelope sealedTables sampleDevices).1 =
        .ok ⟨201, .id 1001⟩ ∧
      (postSealed id sampleSealedEnv .done .failed sampleEnvelope sealedTables
        sampleDevices).2.messageBlobs = [] ∧
      ¬ DepositReported id sampleSealedEnv .done .failed sampleEnvelope sealedTables
        sampleDevices := by
  refine ⟨rfl, rfl, fun h => ?_⟩
  obtain ⟨e, he⟩ := h.reported ⟨by decide, .other, nofun, rfl⟩
  cases he

theorem sampleDeposit_reported :
    DepositReported id sampleSealedEnv .done .done sampleEnvelope sealedTables sampleDevices :=
  (sealedDeposit_reported_iff id sampleSealedEnv .done .done sampleEnvelope sealedTables
    sampleDevices (by simp [sampleDevices, Database.empty])).mpr
      fun _ => ⟨nofun, .inr (by decide)⟩

end ZiaCrypte.Server
