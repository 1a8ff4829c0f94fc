import ZiaCrypte.Server.AdminSteps

/-!
# Who removes accounts

A call that writes has passed the guard, and one that removes an account has
written it down before. Each call holds what its stage says, at every state of
every run; what a call once got is traced back to the turn that gave it.
-/
namespace ZiaCrypte.Server

open ZiaCrypte.Lib

/-- Past the guard. -/
def AdminStage.past : AdminStage → Bool
  | .find => true
  | .issue _ => true
  | .handle _ => true
  | .journal _ => true
  | .remove _ => true
  | .answered (.ok _) => true
  | _ => false

namespace Administration

variable {hmacSha1 : List UInt8 → List UInt8 → List UInt8} {argon2Verify : String → String → Bool}
variable {s t : Administration} {a : AdminStatement}

/-! ## How a call got where it is -/

/-- A call that now has a property it did not have on arrival got it at one of its turns. -/
theorem call_gains {P : AdminCall → Prop} {trace : List AdminStatement} {i : Nat} {c : AdminCall}
    (h : run (step hmacSha1 argon2Verify) trace start = some t) (hc : t.calls[i]? = some c)
    (hP : P c) (harrives : ∀ ask stage,
      (stage = Ask.begin ask ∨ ∃ e, stage = .answered (.error e)) → ¬P ⟨ask, stage⟩) :
    ∃ pre now id post s c write stage, trace = pre ++ .next i now id :: post ∧
      run (step hmacSha1 argon2Verify) pre start = some s ∧ s.calls[i]? = some c ∧ ¬P c ∧
      Turn hmacSha1 argon2Verify s.db now id c write stage ∧ P ⟨c.ask, stage⟩ := by
  obtain ⟨pre, a, post, u, v, rfl, hpre, hstep, -, hu, c', hc', hP'⟩ :=
    run_gains (P := fun s : Administration => ∃ c, s.calls[i]? = some c ∧ P c) h
      (by rintro ⟨c, hc, -⟩; cases hc) ⟨c, hc, hP⟩
  -- a call that arrives does not have the property yet
  have hlast : ∀ ask stage, (stage = Ask.begin ask ∨ ∃ e, stage = .answered (.error e)) →
      (u.calls ++ [⟨ask, stage⟩])[i]? ≠ some c' := by
    intro ask stage hstage hi
    rw [List.getElem?_append] at hi
    split at hi
    · exact hu ⟨c', hi, hP'⟩
    · obtain rfl : ⟨ask, stage⟩ = c' := by
        have hmem := List.mem_of_getElem? hi
        exact (List.mem_singleton.mp hmem).symm
      exact harrives ask stage hstage hP'
  cases moves_of_step hstep with
  | table => exact absurd ⟨c', hc', hP'⟩ hu
  | @arrived did ask stage hstage => exact absurd hc' (hlast ask stage hstage)
  | script username retirer => exact absurd hc' (hlast _ _ (.inl rfl))
  | @next j now id c write stage db _ hcall _ hturn =>
    rw [List.getElem?_set] at hc'
    split at hc'
    · rename_i hij
      subst hij
      split at hc'
      · obtain rfl := Option.some.inj hc'
        exact ⟨pre, now, id, post, u, c, write, stage, rfl, hpre, hcall,
          fun hPc => hu ⟨c, hcall, hPc⟩, hturn, hP'⟩
      · cases hc'
    · exact absurd ⟨c', hc', hP'⟩ hu

section

variable (hmacSha1 : List UInt8 → List UInt8 → List UInt8) (argon2Verify : String → String → Bool)

/-- At a turn of the call `i` the caller was an administrator, and the request carried a code
that his generator gave at that time. -/
def Admitted (trace : List AdminStatement) (i : Nat) (me : Uuid) (code : Option Chars) : Prop :=
  ∃ pre now id post s user secret digits, trace = pre ++ .next i now id :: post ∧
    run (step hmacSha1 argon2Verify) pre start = some s ∧ findUser s.db me = some user ∧
    user.role = .admin ∧ user.deletedAt = none ∧ user.totpEnabledAt ≠ none ∧
    user.totpSecret = some secret ∧ code = some digits ∧
    verifyTotp hmacSha1 secret digits now = some true

/-- At a turn of the call `i` the password was that of the account. -/
def PasswordShown (trace : List AdminStatement) (i : Nat) (me : Uuid) (password : String) : Prop :=
  ∃ pre now id post s user hash, trace = pre ++ .next i now id :: post ∧
    run (step hmacSha1 argon2Verify) pre start = some s ∧ findUser s.db me = some user ∧
    user.passwordHash = some hash ∧ argon2Verify hash password = true

end

theorem requireAdmin_ok {now : Nat} {row : Option Rows.User} {code : Option Chars}
    (h : requireAdmin hmacSha1 now row code = .ok ()) : ∃ user secret digits, row = some user ∧
      user.role = .admin ∧ user.deletedAt = none ∧ user.totpEnabledAt ≠ none ∧
      user.totpSecret = some secret ∧ code = some digits ∧
      verifyTotp hmacSha1 secret digits now = some true := by
  unfold requireAdmin at h
  split at h
  · cases h
  · rename_i user
    split at h
    · cases h
    · rename_i hrole
      split at h
      · cases h
      · rename_i htotp
        split at h
        · rename_i hcode
          obtain ⟨digits, rfl, hvalid⟩ := Option.map_eq_some_iff.mp hcode
          simp only [Bool.or_eq_true, Option.isSome_iff_ne_none, decide_eq_true_eq, not_or,
            Decidable.not_not] at hrole
          simp only [Bool.or_eq_true, Option.isNone_iff_eq_none, decide_eq_true_eq, not_or] at htotp
          obtain ⟨secret, hsecret⟩ : ∃ secret, user.totpSecret = some secret := by
            cases hs : user.totpSecret with
            | none => exact absurd (by rw [hs]; rfl) htotp.2
            | some secret => exact ⟨secret, rfl⟩
          rw [hsecret] at hvalid
          exact ⟨user, secret, digits, rfl, hrole.2, hrole.1, htotp.1, hsecret, rfl, hvalid⟩
        · cases h
        · cases h

theorem admitted_of_past {trace : List AdminStatement} {i : Nat} {c : AdminCall} {me : Uuid}
    {code : Option Chars} {request : AdminRequest}
    (h : run (step hmacSha1 argon2Verify) trace start = some t) (hc : t.calls[i]? = some c)
    (hask : c.ask = .admin me code request) (hpast : c.stage.past = true) :
    Admitted hmacSha1 argon2Verify trace i me code := by
  obtain ⟨pre, now, id, post, s, c', write, stage, htrace, hpre, -, hnot, hturn, hask', hpast'⟩ :=
    call_gains (P := fun c => c.ask = .admin me code request ∧ c.stage.past = true) h hc
      ⟨hask, hpast⟩ (by
        rintro ask stage hstage ⟨rfl, hpast⟩
        rcases hstage with rfl | ⟨e, rfl⟩
        · cases hpast
        · cases hpast)
  cases hturn with
  | admitted hadmin =>
    obtain ⟨rfl, rfl, rfl⟩ : _ = me ∧ _ = code ∧ _ = request := by simpa using hask'
    obtain ⟨user, secret, digits, huser, hrest⟩ := requireAdmin_ok hadmin
    exact ⟨pre, now, id, post, s, user, secret, digits, htrace, hpre, huser, hrest⟩
  | refused => cases hpast'
  | exited => cases hpast'
  | found => exact absurd ⟨hask', rfl⟩ hnot
  | aimed => cases hask'
  | reported => cases hask'
  | promoted => cases hask'
  | issued => exact absurd ⟨hask', rfl⟩ hnot
  | handled => exact absurd ⟨hask', rfl⟩ hnot
  | journaled => exact absurd ⟨hask', rfl⟩ hnot
  | removed => exact absurd ⟨hask', rfl⟩ hnot

theorem passwordShown {trace : List AdminStatement} {i : Nat} {c : AdminCall} {me : Uuid}
    {password : String} (h : run (step hmacSha1 argon2Verify) trace start = some t)
    (hc : t.calls[i]? = some c) (hask : c.ask = .deleteMe me password)
    (hdone : c.stage = .answered (.ok 204)) :
    PasswordShown hmacSha1 argon2Verify trace i me password := by
  obtain ⟨pre, now, id, post, s, c', write, stage, htrace, hpre, -, hnot, hturn, hask', hdone'⟩ :=
    call_gains (P := fun c => c.ask = .deleteMe me password ∧
        ((∃ u, c.stage = .remove u) ∨ c.stage = .answered (.ok 204))) h hc
      ⟨hask, .inr hdone⟩ (by
        rintro ask stage hstage ⟨rfl, hdone⟩
        rcases hstage with rfl | ⟨e, rfl⟩ <;> simp [Ask.begin] at hdone)
  cases hturn with
  | found ask =>
    obtain rfl : ask = .deleteMe me password := hask'
    simp only [found] at hdone'
    split at hdone'
    · simp at hdone'
    · rename_i user huser
      split at hdone'
      · simp at hdone'
      · rename_i hhash
        split at hdone'
        · simp at hdone'
        · rename_i hvalid
          obtain ⟨hash, hhash'⟩ : ∃ hash, user.passwordHash = some hash := by
            cases hh : user.passwordHash with
            | none => exact absurd (by rw [hh]; rfl) hhash
            | some hash => exact ⟨hash, rfl⟩
          rw [hhash'] at hvalid
          exact ⟨pre, now, id, post, s, user, hash, htrace, hpre, huser, hhash',
            by simpa using hvalid⟩
  | removed => exact absurd ⟨hask', .inl ⟨_, rfl⟩⟩ hnot
  | journaled ask entry =>
    obtain rfl : ask = .deleteMe me password := hask'
    simp [journaled] at hdone'
  | admitted => cases hask'
  | aimed => cases hask'
  | reported => cases hask'
  | promoted => cases hask'
  | issued => cases hask'
  | handled => cases hask'
  | _ => simp at hdone'

/-! ## Removals -/

/-- The entry that a removal leaves. -/
def RemovalEntry (me userId : Uuid) (reason : Option Chars) (e : Rows.AdminAction) : Prop :=
  e.actorUserId = me ∧ e.action = "account_deleted" ∧ e.targetId = some userId ∧ e.reason = reason

/-- The entry of the script, which writes it for the account itself. -/
def ScriptEntry (e : Rows.AdminAction) : Prop :=
  (e.action = "admin_granted_via_cli" ∨ e.action = "admin_revoked_via_cli") ∧
    e.targetId = some e.actorUserId

/-- Who may remove this account by this call: its holder, or an administrator who has
written it down. -/
def Removes (db : List Row) (userId : Uuid) (ask : Ask) : Prop :=
  (∃ password, ask = .deleteMe userId password) ∨
  ∃ me code reason, ask = .admin me code (.deleteUser userId reason) ∧
    ∃ e ∈ adminActionsOf db, RemovalEntry me userId reason e

/-- What a call holds at each of its stages. -/
structure Sound (db : List Row) (c : AdminCall) : Prop where
  asked : ∀ me code userId reason, c.ask = .admin me code (.deleteUser userId reason) →
    c.stage.past = true →
    userId ≠ me ∧ (AdminRequest.deleteUser userId reason).parses = true
  author : ∀ entry, c.stage = .journal entry →
    (∃ me code request, c.ask = .admin me code request ∧ entry.actorUserId = me) ∨
    ∃ username retirer, c.ask = .promote username retirer ∧
      ∀ id, ScriptEntry (entry.row id)
  entry : ∀ me code userId reason entry, c.ask = .admin me code (.deleteUser userId reason) →
    c.stage = .journal entry → ∀ id, RemovalEntry me userId reason (entry.row id)
  removes : ∀ userId, c.stage = .remove userId → Removes db userId c.ask

theorem Removes.mono {db db' : List Row} {userId : Uuid} {ask : Ask}
    (hdb : adminActionsOf db <+: adminActionsOf db') (h : Removes db userId ask) :
    Removes db' userId ask := by
  rcases h with hme | ⟨me, code, reason, hask, e, he, hentry⟩
  · exact .inl hme
  · exact .inr ⟨me, code, reason, hask, e, hdb.subset he, hentry⟩

theorem Sound.mono {db db' : List Row} {c : AdminCall}
    (hdb : adminActionsOf db <+: adminActionsOf db') (h : Sound db c) : Sound db' c where
  asked := h.asked
  author := h.author
  entry := h.entry
  removes userId hstage := (h.removes userId hstage).mono hdb

theorem Sound.arrives (db : List Row) {ask : Ask} {stage : AdminStage}
    (hstage : stage = ask.begin ∨ ∃ e, stage = .answered (.error e)) : Sound db ⟨ask, stage⟩ := by
  rcases hstage with rfl | ⟨e, rfl⟩
  · cases ask with
    | report me body => constructor <;> grind [Ask.begin]
    | _ => constructor <;> simp [Ask.begin, AdminStage.past]
  · constructor <;> simp [AdminStage.past]

theorem begin_cases (me : Uuid) (request : AdminRequest) :
    (∃ e, request.begin me = .answered (.error e)) ∨
    request.begin me = .find ∧ request.parses = true ∧
      ∀ userId reason, request = .deleteUser userId reason → userId ≠ me := by
  cases hparses : request.parses with
  | false => exact .inl ⟨invalidRequest, by simp [AdminRequest.begin, hparses]⟩
  | true =>
    cases request with
    | deleteUser userId reason =>
      by_cases hself : userId = me
      · exact .inl ⟨_, by rw [AdminRequest.begin, hparses]; exact if_pos hself⟩
      · refine .inr ⟨by simp [AdminRequest.begin, hparses, hself], rfl, ?_⟩
        rintro _ _ ⟨⟩
        exact hself
    | _ => exact .inr ⟨by simp [AdminRequest.begin, hparses], rfl, by simp⟩

theorem found_journal {db : List Row} {ask : Ask} {entry : Journal}
    (h : found argon2Verify db ask = .journal entry) : ∃ me code userId reason,
      ask = .admin me code (.deleteUser userId reason) ∧ entry.actorUserId = me ∧
      ∀ id, RemovalEntry me userId reason (entry.row id) := by
  unfold found at h
  split at h
  · grind
  · cases h
  · rename_i me code userId reason
    split at h
    · cases h
    · rename_i user huser
      split at h
      · cases h
      · cases h
        exact ⟨me, code, userId, reason, rfl, rfl,
          fun id => ⟨rfl, rfl, congrArg some (findUser_some huser).2, rfl⟩⟩
  · grind
  · grind
  · grind

theorem found_remove {db : List Row} {ask : Ask} {userId : Uuid}
    (h : found argon2Verify db ask = .remove userId) : ∃ password, ask = .deleteMe userId password := by
  unfold found at h
  split at h
  · rename_i me password
    split at h
    · cases h
    · rename_i user huser
      dsimp only at h
      split at h
      · cases h
      · split at h
        · cases h
        · cases h
          exact ⟨password, by rw [(findUser_some huser).2]⟩
  · cases h
  · grind
  · grind
  · grind
  · grind

theorem journaled_ne_journal (ask : Ask) (entry : Journal) : journaled ask ≠ .journal entry := by
  unfold journaled
  split <;> simp

theorem journaled_remove {ask : Ask} {userId : Uuid} (h : journaled ask = .remove userId) :
    ∃ me code reason, ask = .admin me code (.deleteUser userId reason) := by
  unfold journaled at h
  split at h
  · cases h
    exact ⟨_, _, _, rfl⟩
  · cases h
  · cases h

/-- A turn keeps what a call holds: the entry is there before the removal. -/
theorem Sound.turn {db db' : List Row} {now id : Nat} {c : AdminCall}
    {write : Option TableStatement} {stage : AdminStage} (h : Sound db c)
    (hturn : Turn hmacSha1 argon2Verify db now id c write stage)
    (hdb : write.elim (some db) (tableStep · db) = some db') : Sound db' ⟨c.ask, stage⟩ := by
  cases hturn with
  | admitted hadmin =>
    rcases begin_cases _ _ with ⟨e, hstage⟩ | ⟨hstage, hparses, hself⟩
    · rw [hstage]
      constructor <;> simp [AdminStage.past]
    · rw [hstage]
      constructor
      · rintro me' code' userId reason hask -
        cases hask
        exact ⟨hself userId reason rfl, hparses⟩
      · simp
      · simp
      · simp
  | found ask =>
    constructor
    · exact fun me code userId reason hask _ => h.asked me code userId reason hask rfl
    · intro entry hentry
      obtain ⟨me, code, userId, reason, hask, hactor, -⟩ := found_journal hentry
      exact .inl ⟨me, code, _, hask, hactor⟩
    · intro me code userId reason entry hask hentry
      obtain ⟨me', code', userId', reason', hask', -, hremoval⟩ := found_journal hentry
      obtain ⟨rfl, -, rfl, rfl⟩ : me' = me ∧ code' = code ∧ userId' = userId ∧ reason' = reason := by
        simpa using hask'.symm.trans hask
      exact hremoval
    · exact fun userId hstage => .inl (found_remove hstage)
  | @promoted username retirer user row hrow =>
    constructor
    · grind
    · intro entry hentry
      cases hentry
      refine .inr ⟨_, retirer, rfl, fun id => ⟨?_, rfl⟩⟩
      cases retirer with
      | true => exact .inr rfl
      | false => exact .inl rfl
    · grind
    · grind
  | issued hrow => constructor <;> grind
  | handled hrow => constructor <;> grind
  | journaled ask entry =>
    have hnew : adminActionsOf db' = adminActionsOf db ++ [entry.row id] :=
      Table.filterMap_insert rfl hdb
    constructor
    · exact fun me code userId reason hask _ => h.asked me code userId reason hask rfl
    · exact fun _ hstage => absurd hstage (journaled_ne_journal ask _)
    · exact fun _ _ _ _ _ _ hstage => absurd hstage (journaled_ne_journal ask _)
    · intro userId hstage
      obtain ⟨me, code, reason, rfl⟩ := journaled_remove hstage
      exact .inr ⟨me, code, reason, rfl, entry.row id, by simp [hnew],
        h.entry me code userId reason entry rfl rfl id⟩
  | removed hrow =>
    constructor
    · exact fun me code userId reason hask _ => h.asked me code userId reason hask rfl
    · simp
    · simp
    · simp
  | _ => constructor <;> simp [AdminStage.past]

/-- What holds of every state a run reaches. -/
structure Kept (s : Administration) : Prop where
  integral : schema.Integral s.db
  calls : ∀ c ∈ s.calls, Sound s.db c

theorem kept_start : Kept start := ⟨Schema.Integral.nil, fun _ h => nomatch h⟩

theorem kept_step (hs : Kept s) (h : step hmacSha1 argon2Verify a s = some t) : Kept t := by
  have hmoves := moves_of_step h
  refine ⟨integral_moves hs.integral hmoves, ?_⟩
  have hgrows := adminActionsOf_grows hmoves
  cases hmoves with
  | table => exact fun c hc => (hs.calls c hc).mono hgrows
  | arrived hstage =>
    intro c hc
    rcases List.mem_append.mp hc with hold | hnew
    · exact hs.calls c hold
    · obtain rfl := List.mem_singleton.mp hnew
      exact Sound.arrives s.db hstage
  | script username retirer =>
    intro c hc
    rcases List.mem_append.mp hc with hold | hnew
    · exact hs.calls c hold
    · obtain rfl := List.mem_singleton.mp hnew
      exact Sound.arrives s.db (.inl rfl)
  | @next i now id c write stage db _ hcall _ hturn hdb =>
    intro c' hc'
    rcases List.mem_or_eq_of_mem_set hc' with hold | rfl
    · exact (hs.calls c' hold).mono hgrows
    · exact (hs.calls c (List.mem_of_getElem? hcall)).turn hturn hdb

/-- Only the deletion of the account takes its key. -/
theorem user_stays {w : TableStatement} {db db' : List Row} {userId : Uuid}
    (hw : ∀ keys, w = .delete keys → RowKey.user userId ∉ keys)
    (h : tableStep w db = some db') (hu : RowKey.user userId ∈ db.map Row.key) :
    RowKey.user userId ∈ db'.map Row.key := by
  cases w with
  | insert r =>
    obtain ⟨-, rfl⟩ := Schema.insert_eq_some.mp h
    rw [List.map_append]
    exact List.mem_append_left _ hu
  | update r =>
    obtain ⟨-, rfl⟩ := update_eq_some h
    rw [keys_of_update]
    exact hu
  | delete keys =>
    obtain rfl := Option.some.inj h
    obtain ⟨row, hrow, hkey⟩ := List.mem_map.mp hu
    cases row <;> cases hkey
    rename_i user
    have hstays := usersOf_table.not_depends (s := db) (r := .user user) rfl (hw keys rfl)
    exact Schema.mem_ids_delete.mpr ⟨hu, hstays⟩

theorem user_stays_turn {db db' : List Row} {now id : Nat} {c : AdminCall}
    {write : Option TableStatement} {stage : AdminStage} {userId : Uuid}
    (hturn : Turn hmacSha1 argon2Verify db now id c write stage)
    (hdb : write.elim (some db) (tableStep · db) = some db') (hother : c.stage ≠ .remove userId)
    (hu : RowKey.user userId ∈ db.map Row.key) : RowKey.user userId ∈ db'.map Row.key := by
  have hwrite : ∀ w, write = some w → (∀ keys, w = .delete keys → RowKey.user userId ∉ keys) →
      RowKey.user userId ∈ db'.map Row.key := by
    rintro w rfl hw
    exact user_stays hw hdb hu
  cases hturn with
  | removed hrow =>
    refine hwrite _ rfl ?_
    rintro _ ⟨⟩ hmem
    exact hother (by rw [RowKey.user.inj (List.mem_singleton.mp hmem)])
  | reported => exact hwrite _ rfl (by simp)
  | promoted => exact hwrite _ rfl (by simp)
  | handled => exact hwrite _ rfl (by simp)
  | journaled => exact hwrite _ rfl (by simp)
  | _ =>
    obtain rfl := Option.some.inj hdb
    exact hu

/-- The account is there, or a call has removed it that may. -/
def Accounted (userId : Uuid) (s : Administration) : Prop :=
  RowKey.user userId ∈ s.db.map Row.key ∨
  ∃ (i : Nat) (c : AdminCall), s.calls[i]? = some c ∧ c.stage = .answered (.ok 204) ∧
    Removes s.db userId c.ask

theorem elsewhere_users {w : TableStatement} {db : List Row} (h : elsewhere db w = true)
    (userId : Uuid) : ∀ keys, w = .delete keys → RowKey.user userId ∉ keys := by
  rintro keys rfl hmem
  have hkept := List.all_eq_true.mp h _ hmem
  cases hkept

theorem accounted_step {userId : Uuid} (hs : Kept s) (hu : Accounted userId s)
    (h : step hmacSha1 argon2Verify a s = some t) : Accounted userId t := by
  have hmoves := moves_of_step h
  have hgrows := adminActionsOf_grows hmoves
  rcases hu with hthere | ⟨i, c, hc, hdone, hremoves⟩
  · cases hmoves with
    | table hw hdb => exact .inl (user_stays (elsewhere_users hw userId) hdb hthere)
    | arrived => exact .inl hthere
    | script => exact .inl hthere
    | @next i now id c write stage db _ hcall _ hturn hdb =>
      by_cases hstage : c.stage = .remove userId
      · have hsound := hs.calls c (List.mem_of_getElem? hcall)
        have hi : i < s.calls.length := (List.getElem?_eq_some_iff.mp hcall).1
        cases hturn with
        | removed =>
          exact .inr ⟨i, _, List.getElem?_set_self hi, rfl, (hsound.removes userId hstage).mono hgrows⟩
        | refused =>
          obtain rfl := Option.some.inj hdb
          exact .inl hthere
        | exited =>
          obtain rfl := Option.some.inj hdb
          exact .inl hthere
        | _ => cases hstage
      · exact .inl (user_stays_turn hturn hdb hstage hthere)
  · refine .inr ⟨i, c, ?_, hdone, hremoves.mono hgrows⟩
    have hi : i < s.calls.length := (List.getElem?_eq_some_iff.mp hc).1
    cases hmoves with
    | table => exact hc
    | arrived =>
      exact (List.getElem?_append_left hi).trans hc
    | script => exact (List.getElem?_append_left hi).trans hc
    | @next j now id c' write stage db _ hcall hopen =>
      have hij : j ≠ i := by
        rintro rfl
        obtain rfl := Option.some.inj (hcall.symm.trans hc)
        exact hopen _ hdone
      exact (List.getElem?_set_ne hij).trans hc

/-! ## The role of administrator -/

theorem user_of_tableStep {w : TableStatement} {db db' : List Row} {r : Rows.User}
    (h : tableStep w db = some db') (hr : Row.user r ∈ db') :
    Row.user r ∈ db ∨ w = .insert (.user r) ∨ w = .update (.user r) := by
  cases w with
  | insert row =>
    obtain ⟨-, rfl⟩ := Schema.insert_eq_some.mp h
    rcases List.mem_append.mp hr with hold | hnew
    · exact .inl hold
    · exact .inr (.inl (by rw [List.mem_singleton.mp hnew]))
  | update row =>
    obtain ⟨-, rfl⟩ := update_eq_some h
    obtain ⟨x, hx, hxr⟩ := List.mem_map.mp hr
    split at hxr
    · exact .inr (.inr (by rw [hxr]))
    · exact .inl (hxr ▸ hx)
  | delete keys =>
    obtain rfl := Option.some.inj h
    obtain ⟨x, hx, -, hxr⟩ := Schema.mem_delete.mp hr
    have hread : (schema.unsetGone (schema.doomed keys db) x).user? = x.user? :=
      Schema.unsetGone_invariant usersOf_table.unset x
    rw [hxr] at hread
    cases x <;> cases hread
    exact .inl hx

/-- The script has given the account the role: the journal says so, or is about to. -/
def Granted (s : Administration) (userId : Uuid) : Prop :=
  (∃ e ∈ adminActionsOf s.db, e.action = "admin_granted_via_cli" ∧ e.targetId = some userId) ∨
  ∃ c ∈ s.calls, ∃ entry username, c.ask = .promote username false ∧ c.stage = .journal entry ∧
    entry.action = "admin_granted_via_cli" ∧ entry.targetId = some userId

theorem Granted.step {userId : Uuid} (hs : Granted s userId)
    (h : Moves hmacSha1 argon2Verify s a t) : Granted t userId := by
  have hgrows := adminActionsOf_grows h
  rcases hs with ⟨e, he, hentry⟩ | ⟨c, hc, entry, username, hask, hstage, hentry⟩
  · exact .inl ⟨e, hgrows.subset he, hentry⟩
  · cases h with
    | table => exact .inr ⟨c, hc, entry, username, hask, hstage, hentry⟩
    | arrived =>
      exact .inr ⟨c, List.mem_append_left _ hc, entry, username, hask, hstage, hentry⟩
    | script => exact .inr ⟨c, List.mem_append_left _ hc, entry, username, hask, hstage, hentry⟩
    | @next i now id c' write stage db _ hcall _ hturn hdb =>
      by_cases hsame : c' = c
      · -- the call takes its turn, and writes its entry
        subst hsame
        cases hturn with
        | journaled ask entry' =>
          obtain rfl := AdminStage.journal.inj hstage
          have hnew : adminActionsOf db = adminActionsOf s.db ++ [entry'.row id] :=
            Table.filterMap_insert rfl hdb
          exact .inl ⟨entry'.row id, by simp [hnew], hentry⟩
        | refused _ _ h => exact absurd hstage (h entry)
        | exited _ h => exact absurd hstage (h entry)
        | _ => cases hstage
      · obtain ⟨j, hj⟩ := List.mem_iff_getElem?.mp hc
        have hij : i ≠ j := by
          rintro rfl
          exact hsame (Option.some.inj (hcall.symm.trans hj))
        exact .inr ⟨c, List.mem_of_getElem? ((List.getElem?_set_ne hij).trans hj), entry, username,
          hask, hstage, hentry⟩

/-- Every administrator has been given the role by the script. -/
def RolesGranted (s : Administration) : Prop :=
  ∀ r, Row.user r ∈ s.db → r.role = .admin → Granted s r.id

theorem rolesGranted_step (hs : RolesGranted s) (h : step hmacSha1 argon2Verify a s = some t) :
    RolesGranted t := by
  intro r hr hrole
  have hmoves := moves_of_step h
  have hrow : ∀ u, Row.user u ∈ s.db → u.role = .admin → Granted t u.id :=
    fun u hu hadmin => (hs u hu hadmin).step hmoves
  have hold : Row.user r ∈ s.db → Granted t r.id := fun hthere => hrow r hthere hrole
  cases hmoves with
  | table hw hdb =>
    rcases user_of_tableStep hdb hr with hthere | rfl | rfl
    · exact hold hthere
    · -- another route creates accounts without the role
      simp [elsewhere, hrole] at hw
    · -- another route writes the role that was there
      obtain ⟨row, hfound, hsame⟩ := (Option.any_eq_true _ _).mp hw
      obtain ⟨hthere, hid⟩ := findUser_some hfound
      exact hid ▸ hrow row hthere ((of_decide_eq_true hsame).trans hrole)
  | arrived => exact hold hr
  | script => exact hold hr
  | @next i now id c write stage db _ hcall _ hturn hdb =>
    have hother : ∀ w, write = some w → w ≠ .insert (.user r) → w ≠ .update (.user r) →
        Row.user r ∈ s.db := by
      rintro w rfl hinsert hupdate
      rcases user_of_tableStep hdb hr with hthere | hw | hw
      · exact hthere
      · exact absurd hw hinsert
      · exact absurd hw hupdate
    cases hturn with
    | @promoted username retirer user row hfound =>
      have hid := (findUser_some hfound).2
      have hwrite : tableStep (.update (.user { row with
          role := if retirer then .user else .admin })) s.db = some db := hdb
      rcases user_of_tableStep hwrite hr with hthere | hw | hw
      · exact hold hthere
      · cases hw
      · -- the script has just written this role, and its entry comes next
        obtain rfl := Row.user.inj (TableStatement.update.inj hw)
        cases retirer with
        | true => cases hrole
        | false =>
          have hi : i < s.calls.length := (List.getElem?_eq_some_iff.mp hcall).1
          exact .inr ⟨_, List.mem_of_getElem? (List.getElem?_set_self hi), _, username, rfl, rfl,
            rfl, congrArg some hid.symm⟩
    | reported => exact hold (hother _ rfl (by simp) (by simp))
    | handled => exact hold (hother _ rfl (by simp) (by simp))
    | journaled => exact hold (hother _ rfl (by simp) (by simp))
    | removed => exact hold (hother _ rfl (by simp) (by simp))
    | _ =>
      obtain rfl := Option.some.inj hdb
      exact hold hr

/-- An account that was there and is gone was deleted by its holder, who gave its password, or
by an administrator, who gave a code of his generator, was not the account's holder, and had
written the removal and its reason in the journal, where it still is. -/
theorem accountRemoval_accounted (hmacSha1 : List UInt8 → List UInt8 → List UInt8)
    (argon2Verify : String → String → Bool) (before after : List AdminStatement)
    (s t : Administration) (userId : Uuid)
    (hbefore : run (step hmacSha1 argon2Verify) before start = some s)
    (hafter : run (step hmacSha1 argon2Verify) after s = some t)
    (hthere : RowKey.user userId ∈ s.db.map Row.key) (hgone : RowKey.user userId ∉ t.db.map Row.key) :
    ∃ (i : Nat) (c : AdminCall), t.calls[i]? = some c ∧ c.stage = .answered (.ok 204) ∧
      ((∃ password, c.ask = .deleteMe userId password ∧
          PasswordShown hmacSha1 argon2Verify (before ++ after) i userId password) ∨
        ∃ me code reason, c.ask = .admin me code (.deleteUser userId (some reason)) ∧
          Admitted hmacSha1 argon2Verify (before ++ after) i me code ∧ userId ≠ me ∧
          3 ≤ codeUnits reason ∧ codeUnits reason ≤ 500 ∧
          ∃ e ∈ adminActionsOf t.db, RemovalEntry me userId (some reason) e) := by
  have hrun : run (step hmacSha1 argon2Verify) (before ++ after) start = some t := by
    rw [run_append, hbefore, Option.bind_some, hafter]
  have hkept : Kept s := run_invariant (fun _ _ _ hs h => kept_step hs h) kept_start hbefore
  have hstep : ∀ a s t, Kept s ∧ Accounted userId s → step hmacSha1 argon2Verify a s = some t →
      Kept t ∧ Accounted userId t :=
    fun _ _ _ hs h => ⟨kept_step hs.1 h, accounted_step hs.1 hs.2 h⟩
  obtain ⟨hkept, hthere | ⟨i, c, hc, hdone, hremoves⟩⟩ :=
    run_invariant hstep ⟨hkept, .inl hthere⟩ hafter
  · exact absurd hthere hgone
  refine ⟨i, c, hc, hdone, ?_⟩
  rcases hremoves with ⟨password, hask⟩ | ⟨me, code, reason, hask, e, he, hentry⟩
  · exact .inl ⟨password, hask, passwordShown hrun hc hask hdone⟩
  · have hpast : c.stage.past = true := by rw [hdone]; rfl
    obtain ⟨hself, hparses⟩ := (hkept.calls c (List.mem_of_getElem? hc)).asked me code userId reason
      hask hpast
    obtain ⟨text, rfl, htext⟩ := (Option.any_eq_true _ _).mp hparses
    simp only [Bool.and_eq_true, decide_eq_true_eq] at htext
    exact .inr ⟨me, code, text, hask, admitted_of_past hrun hc hask hpast, hself, htext.1, htext.2,
      e, he, hentry⟩

/-- Alice is given the role, and deletes the account of Bob. -/
def aliceRemovesBob : List AdminStatement × List AdminStatement :=
  ([.table (.insert (.user ⟨1, ['a'], none, some (base32Encode TwoFactor.firstKey), some 0, .user,
      none⟩)),
    .table (.insert (.device ⟨11, 1, true⟩)),
    .table (.insert (.user ⟨2, ['b'], none, none, none, .user, none⟩)),
    .script ['a'] false, .next 0 0 100, .next 0 0 100, .next 0 0 100],
   [.request 11 (.admin 1 (some ['2', '8', '7', '0', '8', '2'])
      (.deleteUser 2 (some ['s', 'p', 'a', 'm']))),
    .next 1 59000 101, .next 1 59000 101, .next 1 59000 101, .next 1 59000 102])

theorem aliceRemovesBob_accounted : ∃ s t : Administration,
    run (step TwoFactor.sampleHmac fun _ _ => true) aliceRemovesBob.1 start = some s ∧
    run (step TwoFactor.sampleHmac fun _ _ => true) aliceRemovesBob.2 s = some t ∧
    RowKey.user 2 ∈ s.db.map Row.key ∧ RowKey.user 2 ∉ t.db.map Row.key ∧
    ∃ (i : Nat) (c : AdminCall), t.calls[i]? = some c ∧ c.stage = .answered (.ok 204) ∧
      ((∃ password, c.ask = .deleteMe 2 password ∧ PasswordShown TwoFactor.sampleHmac
          (fun _ _ => true) (aliceRemovesBob.1 ++ aliceRemovesBob.2) i 2 password) ∨
        ∃ me code reason, c.ask = .admin me code (.deleteUser 2 (some reason)) ∧
          Admitted TwoFactor.sampleHmac (fun _ _ => true)
            (aliceRemovesBob.1 ++ aliceRemovesBob.2) i me code ∧ 2 ≠ me ∧
          3 ≤ codeUnits reason ∧ codeUnits reason ≤ 500 ∧
          ∃ e ∈ adminActionsOf t.db, RemovalEntry me 2 (some reason) e) := by
  have hbefore : (run (step TwoFactor.sampleHmac fun _ _ => true) aliceRemovesBob.1 start).map
      (fun s => decide (RowKey.user 2 ∈ s.db.map Row.key)) = some true := by decide +kernel
  have hafter : (run (step TwoFactor.sampleHmac fun _ _ => true)
      (aliceRemovesBob.1 ++ aliceRemovesBob.2) start).map
      (fun t => decide (RowKey.user 2 ∈ t.db.map Row.key)) = some false := by decide +kernel
  obtain ⟨s, hs, hthere⟩ := Option.map_eq_some_iff.mp hbefore
  obtain ⟨t, ht, hgone⟩ := Option.map_eq_some_iff.mp hafter
  rw [run_append, hs, Option.bind_some] at ht
  exact ⟨s, t, hs, ht, of_decide_eq_true hthere, of_decide_eq_false hgone,
    accountRemoval_accounted TwoFactor.sampleHmac (fun _ _ => true) _ _ s t 2 hs ht
      (of_decide_eq_true hthere) (of_decide_eq_false hgone)⟩

theorem Admitted.append {pre : List AdminStatement} {i : Nat} {me : Uuid} {code : Option Chars}
    (h : Admitted hmacSha1 argon2Verify pre i me code) (more : List AdminStatement) :
    Admitted hmacSha1 argon2Verify (pre ++ more) i me code := by
  obtain ⟨before, now, id, post, s, user, secret, digits, rfl, h⟩ := h
  exact ⟨before, now, id, post ++ more, s, user, secret, digits, by simp, h⟩

/-- An entry of the journal is the script's, or an administrator's whose call was let in. -/
theorem journal_authored {trace : List AdminStatement} {e : Rows.AdminAction}
    (h : run (step hmacSha1 argon2Verify) trace start = some t) (he : e ∈ adminActionsOf t.db) :
    ScriptEntry e ∨ ∃ i code, Admitted hmacSha1 argon2Verify trace i e.actorUserId code := by
  obtain ⟨pre, a, post, u, v, rfl, hpre, hstep, -, hbefore, hafter⟩ :=
    run_gains (P := fun s : Administration => e ∈ adminActionsOf s.db) h List.not_mem_nil he
  have hkept : Kept u := run_invariant (fun _ _ _ hs h => kept_step hs h) kept_start hpre
  cases moves_of_step hstep with
  | table hw hdb =>
    have hsame : adminActionsOf _ = adminActionsOf u.db :=
      adminActionsOf_table.filterMap_eq (elsewhere_journal hw) hdb
    exact absurd (hsame ▸ hafter) hbefore
  | arrived => exact absurd hafter hbefore
  | script => exact absurd hafter hbefore
  | @next i now id c write stage db _ hcall _ hturn hdb =>
    rcases adminActionsOf_turn hturn hdb with ⟨entry, hstage, hnew⟩ | hsame
    · obtain rfl : e = entry.row id := by
        rcases List.mem_append.mp (hnew ▸ hafter) with hold | hadded
        · exact absurd hold hbefore
        · exact List.mem_singleton.mp hadded
      rcases (hkept.calls c (List.mem_of_getElem? hcall)).author entry hstage with
        ⟨me, code, request, hask, rfl⟩ | ⟨username, retirer, -, hentry⟩
      · have hpast : c.stage.past = true := by rw [hstage]; rfl
        exact .inr ⟨i, code, (admitted_of_past hpre hcall hask hpast).append _⟩
      · exact .inl (hentry id)
    · exact absurd (hsame ▸ hafter) hbefore

/-- Whatever runs, the journal only grows and what was reported stays as it was reported. Each
entry of the journal is the script's, or an administrator's who gave a code of his generator;
and no one is an administrator but by the script. -/
theorem journal_kept (hmacSha1 : List UInt8 → List UInt8 → List UInt8)
    (argon2Verify : String → String → Bool) (before after : List AdminStatement)
    (s t : Administration) (hbefore : run (step hmacSha1 argon2Verify) before start = some s)
    (hafter : run (step hmacSha1 argon2Verify) after s = some t) :
    adminActionsOf s.db <+: adminActionsOf t.db ∧
    (reportsOf s.db).map evidence <+: (reportsOf t.db).map evidence ∧
    (∀ e ∈ adminActionsOf t.db, ScriptEntry e ∨ ∃ i code,
      Admitted hmacSha1 argon2Verify (before ++ after) i e.actorUserId code) ∧
    ∀ r, Row.user r ∈ t.db → r.role = .admin → Granted t r.id := by
  have hrun : run (step hmacSha1 argon2Verify) (before ++ after) start = some t := by
    rw [run_append, hbefore, Option.bind_some, hafter]
  have hkept : Kept s := run_invariant (fun _ _ _ hs h => kept_step hs h) kept_start hbefore
  have hstep : ∀ a u v, (Kept u ∧ adminActionsOf s.db <+: adminActionsOf u.db ∧
      (reportsOf s.db).map evidence <+: (reportsOf u.db).map evidence) →
      step hmacSha1 argon2Verify a u = some v →
      Kept v ∧ adminActionsOf s.db <+: adminActionsOf v.db ∧
        (reportsOf s.db).map evidence <+: (reportsOf v.db).map evidence := by
    rintro a u v ⟨hu, hjournal, hreports⟩ h
    exact ⟨kept_step hu h, hjournal.trans (adminActionsOf_grows (moves_of_step h)),
      hreports.trans (reportsOf_grows hu.integral (moves_of_step h))⟩
  obtain ⟨-, hjournal, hreports⟩ :=
    run_invariant hstep ⟨hkept, List.prefix_rfl, List.prefix_rfl⟩ hafter
  have hroles : RolesGranted t :=
    run_invariant (fun _ _ _ hs h => rolesGranted_step hs h) (fun _ h => absurd h List.not_mem_nil) hrun
  exact ⟨hjournal, hreports, fun e he => journal_authored hrun he, hroles⟩

theorem aliceRemovesBob_kept : ∃ s t : Administration,
    run (step TwoFactor.sampleHmac fun _ _ => true) aliceRemovesBob.1 start = some s ∧
    run (step TwoFactor.sampleHmac fun _ _ => true) aliceRemovesBob.2 s = some t ∧
    (adminActionsOf t.db).length = 2 ∧
    adminActionsOf s.db <+: adminActionsOf t.db ∧
    (reportsOf s.db).map evidence <+: (reportsOf t.db).map evidence ∧
    (∀ e ∈ adminActionsOf t.db, ScriptEntry e ∨ ∃ i code, Admitted TwoFactor.sampleHmac
      (fun _ _ => true) (aliceRemovesBob.1 ++ aliceRemovesBob.2) i e.actorUserId code) ∧
    ∀ r, Row.user r ∈ t.db → r.role = .admin → Granted t r.id := by
  have hbefore : (run (step TwoFactor.sampleHmac fun _ _ => true) aliceRemovesBob.1 start).isSome =
      true := by decide +kernel
  have hafter : (run (step TwoFactor.sampleHmac fun _ _ => true)
      (aliceRemovesBob.1 ++ aliceRemovesBob.2) start).map
      (fun t => (adminActionsOf t.db).length) = some 2 := by decide +kernel
  obtain ⟨s, hs⟩ := Option.isSome_iff_exists.mp hbefore
  obtain ⟨t, ht, hlength⟩ := Option.map_eq_some_iff.mp hafter
  rw [run_append, hs, Option.bind_some] at ht
  exact ⟨s, t, hs, ht, hlength,
    journal_kept TwoFactor.sampleHmac (fun _ _ => true) _ _ s t hs ht⟩

end Administration

end ZiaCrypte.Server
