import ZiaCrypte.Server.Administration
import Mathlib.Data.Option.Basic

/-!
# What a step of the administration does

`Turn` is the turn of a call and `Moves` a step, each with what it writes. The
accounts, the journal and the reports are tables that no cascade reaches, so
that the journal only grows and a report stays as it was made.
-/
namespace ZiaCrypte.Server

open ZiaCrypte.Lib

/-! ## Tables that name no row -/

/-- A table without foreign keys, as `f` reads it. -/
structure Table {β : Type} (f : Row → Option β) (k : β → RowKey) : Prop where
  key : ∀ r b, f r = some b → r.key = k b
  unique : ∀ r r' b, f r = some b → r'.key = r.key → (f r').isSome
  refs : ∀ r b, f r = some b → r.refs = []
  unset : ∀ c r, f (Row.unset c r) = f r

theorem usersOf_table : Table Row.user? (fun r => .user r.id) where
  key r b h := by cases r <;> cases h; rfl
  unique r r' b h hkey := by cases r <;> cases h; cases r' <;> first | rfl | cases hkey
  refs r b h := by cases r <;> cases h; rfl
  unset c r := by cases c <;> cases r <;> rfl

theorem adminActionsOf_table : Table Row.adminAction? (fun r => .adminAction r.id) where
  key r b h := by cases r <;> cases h; rfl
  unique r r' b h hkey := by cases r <;> cases h; cases r' <;> first | rfl | cases hkey
  refs r b h := by cases r <;> cases h; rfl
  unset c r := by cases c <;> cases r <;> rfl

theorem reportsOf_table : Table Row.report? (fun r => .report r.id) where
  key r b h := by cases r <;> cases h; rfl
  unique r r' b h hkey := by cases r <;> cases h; cases r' <;> first | rfl | cases hkey
  refs r b h := by cases r <;> cases h; rfl
  unset c r := by cases c <;> cases r <;> rfl

/-- The statement is about other tables. -/
def TableStatement.spares {β : Type} (f : Row → Option β) (k : β → RowKey) : TableStatement → Prop
  | .insert r => f r = none
  | .update r => f r = none
  | .delete keys => ∀ b, k b ∉ keys

namespace Table

variable {β : Type} {f : Row → Option β} {k : β → RowKey} {a : TableStatement} {s t : List Row}

/-- No cascade reaches such a table. -/
theorem not_depends (hf : Table f k) {keys : List RowKey} {r : Row} {b : β} (hr : f r = some b)
    (hkeys : k b ∉ keys) : ¬schema.Depends s keys r.key := by
  intro h
  generalize hkey : r.key = key at h
  cases h with
  | root h => exact hkeys (hf.key r b hr ▸ hkey ▸ h)
  | @cascade r' e _ he =>
    obtain ⟨b', hb'⟩ := Option.isSome_iff_exists.mp (hf.unique r r' b hr hkey.symm)
    have hnone : e ∈ r'.refs := he
    rw [hf.refs r' b' hb'] at hnone
    cases hnone

theorem filterMap_eq (hf : Table f k) (ha : a.spares f k) (h : tableStep a s = some t) :
    t.filterMap f = s.filterMap f := by
  cases a with
  | insert r =>
    obtain ⟨-, rfl⟩ := Schema.insert_eq_some.mp h
    have hr : f r = none := ha
    simp [List.filterMap_append, hr]
  | update r =>
    obtain ⟨-, rfl⟩ := update_eq_some h
    rw [List.filterMap_map]
    refine List.filterMap_congr fun x _ => ?_
    simp only [Function.comp_apply]
    split
    · rename_i hkey
      cases hx : f x with
      | none => exact ha
      | some b =>
        have hsome := hf.unique x r b hx hkey.symm
        rw [show f r = none from ha] at hsome
        cases hsome
    · rfl
  | delete keys =>
    obtain rfl := Option.some.inj h
    exact Schema.filterMap_delete hf.unset fun r _ b hr => hf.not_depends hr (ha b)

theorem filterMap_insert {r : Row} {b : β} (hr : f r = some b)
    (h : tableStep (.insert r) s = some t) : t.filterMap f = s.filterMap f ++ [b] := by
  obtain ⟨-, rfl⟩ := Schema.insert_eq_some.mp h
  simp [List.filterMap_append, hr]

end Table

namespace Administration

/-! ## What a step does -/

section

variable (hmacSha1 : List UInt8 → List UInt8 → List UInt8) (argon2Verify : String → String → Bool)

/-- The turn of a call: the statement, and where the call is after it. -/
inductive Turn (db : List Row) (now id : Nat) :
    AdminCall → Option TableStatement → AdminStage → Prop where
  | refused (c : AdminCall) (e : HttpError) (h : ∀ entry, c.stage ≠ .journal entry) :
      Turn db now id c none (.answered (.error e))
  | exited (c : AdminCall) (h : ∀ entry, c.stage ≠ .journal entry) : Turn db now id c none (.exited 1)
  | admitted {me : Uuid} {code : Option Chars} {request : AdminRequest}
      (h : requireAdmin hmacSha1 now (findUser db me) code = .ok ()) :
      Turn db now id ⟨.admin me code request, .guard⟩ none (request.begin me)
  | found (ask : Ask) :
      Turn db now id ⟨ask, .find⟩ none (found argon2Verify db ask)
  | aimed (me : Uuid) (body : ReportBody) (moi : Option Rows.User) :
      Turn db now id ⟨.report me body, .target moi⟩ none
        (.create (body.report me moi (findUsername db body.reportedUsername)))
  | reported (me : Uuid) (body : ReportBody) (report : Rows.Report) :
      Turn db now id ⟨.report me body, .create report⟩
        (some (.insert (.report { report with id := id }))) (.answered (.ok 201))
  | promoted {username : Chars} {retirer : Bool} {user row : Rows.User}
      (h : findUser db user.id = some row) :
      Turn db now id ⟨.promote username retirer, .setRole user⟩
        (some (.update (.user { row with role := if retirer then .user else .admin })))
        (.journal ⟨user.id, if retirer then "admin_revoked_via_cli" else "admin_granted_via_cli",
          some user.id, some user.username, some "exécuté depuis le serveur".toList⟩)
  | issued {me target : Uuid} {code reason : Option Chars} {user row : Rows.User}
      (h : findUser db user.id = some row) :
      Turn db now id ⟨.admin me code (.passwordReset target reason), .issue user⟩
        none (.journal ⟨me, "password_reset_issued", some user.id, some user.username, reason⟩)
  | handled {me target : Uuid} {code resolution : Option Chars} {status : ReportStatus}
      {report row : Rows.Report} (h : findReport db report.id = some row) :
      Turn db now id
        ⟨.admin me code (.resolve target status resolution), .handle report⟩
        (some (.update (.report { row with
          status := status
          handledByUserId := some me
          handledAt := some now
          resolution := resolution })))
        (.journal ⟨me, reportAction status, report.reportedUserId, report.reportedLabel, resolution⟩)
  | journaled (ask : Ask) (entry : Journal) :
      Turn db now id ⟨ask, .journal entry⟩
        (some (.insert (.adminAction (entry.row id)))) (journaled ask)
  | removed {ask : Ask} {userId : Uuid} {user : Rows.User} (h : findUser db userId = some user) :
      Turn db now id ⟨ask, .remove userId⟩
        (some (.delete [.user userId])) (.answered (.ok 204))

/-- What a step does to the tables and to the calls. -/
inductive Moves (s : Administration) : AdminStatement → Administration → Prop where
  | table {w : TableStatement} {db : List Row} (h : elsewhere s.db w = true)
      (hw : tableStep w s.db = some db) : Moves s (.table w) ⟨db, s.calls⟩
  | arrived {did : Uuid} {ask : Ask} {stage : AdminStage}
      (h : stage = ask.begin ∨ ∃ e, stage = .answered (.error e)) :
      Moves s (.request did ask) ⟨s.db, s.calls ++ [⟨ask, stage⟩]⟩
  | script (username : Chars) (retirer : Bool) :
      Moves s (.script username retirer) ⟨s.db, s.calls ++ [⟨.promote username retirer, .find⟩]⟩
  | next {i now id : Nat} {c : AdminCall} {write : Option TableStatement} {stage : AdminStage}
      {db : List Row} (hid : drawn s.db id = true) (hc : s.calls[i]? = some c)
      (hopen : ∀ r, c.stage ≠ .answered r)
      (hturn : Turn hmacSha1 argon2Verify s.db now id c write stage)
      (hdb : write.elim (some s.db) (tableStep · s.db) = some db) :
      Moves s (.next i now id) ⟨db, s.calls.set i { c with stage := stage }⟩

end

variable {hmacSha1 : List UInt8 → List UInt8 → List UInt8} {argon2Verify : String → String → Bool}
variable {s t : Administration} {a : AdminStatement}

theorem turn_of_nextOf {db : List Row} {now id : Nat} {c : AdminCall}
    {write : Option TableStatement} {stage : AdminStage}
    (h : nextOf hmacSha1 argon2Verify db now id c = some (write, stage)) :
    Turn hmacSha1 argon2Verify db now id c write stage := by
  obtain ⟨ask, now_⟩ := c
  unfold nextOf at h
  split at h
  · rename_i me code request hstage hask
    cases hstage
    cases hask
    split at h
    · cases h
      exact .refused _ _ (by simp)
    · rename_i hadmin
      cases h
      exact .admitted hadmin
  · rename_i hstage
    cases hstage
    cases h
    exact .found _
  · rename_i hstage hask
    cases hstage
    cases hask
    cases h
    exact .aimed _ _ _
  · rename_i hstage hask
    cases hstage
    cases hask
    cases h
    exact .reported _ _ _
  · rename_i hstage hask
    cases hstage
    cases hask
    split at h
    · cases h
      exact .exited _ (by simp)
    · rename_i hrow
      cases h
      exact .promoted hrow
  · rename_i hstage hask
    cases hstage
    cases hask
    split at h
    · cases h
      exact .refused _ _ (by simp)
    · rename_i hrow
      cases h
      exact .issued hrow
  · rename_i hstage hask
    cases hstage
    cases hask
    split at h
    · cases h
      exact .refused _ _ (by simp)
    · rename_i hrow
      cases h
      exact .handled hrow
  · rename_i hstage
    cases hstage
    cases h
    exact .journaled _ _
  · rename_i hstage
    cases hstage
    split at h
    · cases h
      exact .refused _ _ (by simp)
    · rename_i hrow
      cases h
      exact .removed hrow
  · cases h

/-- A call that has answered takes no turn. -/
theorem not_answered {db : List Row} {now id : Nat} {c : AdminCall}
    {turn : Option TableStatement × AdminStage}
    (h : nextOf hmacSha1 argon2Verify db now id c = some turn) (r : Except HttpError Nat) :
    c.stage ≠ .answered r := by
  obtain ⟨ask, stage⟩ := c
  rintro rfl
  cases ask <;> cases h

theorem moves_of_step (h : step hmacSha1 argon2Verify a s = some t) :
    Moves hmacSha1 argon2Verify s a t := by
  cases a with
  | table w =>
    simp only [step, Option.ite_none_right_eq_some, Option.map_eq_some_iff] at h
    obtain ⟨hw, db, hdb, rfl⟩ := h
    exact .table hw hdb
  | request did ask =>
    simp only [step, Option.bind_eq_bind, Option.bind_eq_some_iff, Option.some.injEq] at h
    obtain ⟨me, -, rfl⟩ := h
    refine .arrived ?_
    split
    · exact .inl rfl
    · exact .inr ⟨_, rfl⟩
  | script username retirer =>
    obtain rfl := Option.some.inj h
    exact .script username retirer
  | next i now id =>
    simp only [step, Option.bind_eq_bind, Option.bind_eq_some_iff, Option.some.injEq] at h
    obtain ⟨_, hid, c, hc, ⟨write, stage⟩, hturn, db, hdb, rfl⟩ := h
    have hdrawn : drawn s.db id = true := by
      by_contra hused
      rw [guard, if_neg hused] at hid
      cases hid
    exact .next hdrawn hc (not_answered hturn) (turn_of_nextOf hturn) hdb

/-! ## The journal and the reports -/

theorem elsewhere_journal {w : TableStatement} {db : List Row} (h : elsewhere db w = true) :
    w.spares Row.adminAction? fun r => .adminAction r.id := by
  cases w with
  | insert r => cases r <;> first | rfl | cases h
  | update r => cases r <;> first | rfl | cases h
  | delete keys =>
    intro b hb
    have hkept := List.all_eq_true.mp h _ hb
    cases hkept

theorem elsewhere_reports {w : TableStatement} {db : List Row} (h : elsewhere db w = true) :
    w.spares Row.report? fun r => .report r.id := by
  cases w with
  | insert r => cases r <;> first | rfl | cases h
  | update r => cases r <;> first | rfl | cases h
  | delete keys =>
    intro b hb
    have hkept := List.all_eq_true.mp h _ hb
    cases hkept

/-- What a turn adds to the journal. -/
theorem adminActionsOf_turn {db db' : List Row} {now id : Nat} {c : AdminCall}
    {write : Option TableStatement} {stage : AdminStage}
    (hturn : Turn hmacSha1 argon2Verify db now id c write stage)
    (hdb : write.elim (some db) (tableStep · db) = some db') :
    (∃ entry, c.stage = .journal entry ∧ adminActionsOf db' = adminActionsOf db ++ [entry.row id]) ∨
    adminActionsOf db' = adminActionsOf db := by
  have hother : ∀ w, write = some w → w.spares Row.adminAction? (fun r => .adminAction r.id) →
      adminActionsOf db' = adminActionsOf db := by
    rintro w rfl hw
    exact adminActionsOf_table.filterMap_eq hw hdb
  cases hturn with
  | journaled ask entry =>
    exact .inl ⟨entry, rfl, Table.filterMap_insert rfl hdb⟩
  | reported => exact .inr (hother _ rfl rfl)
  | promoted => exact .inr (hother _ rfl rfl)
  | handled => exact .inr (hother _ rfl rfl)
  | removed => exact .inr (hother _ rfl (by simp [TableStatement.spares]))
  | _ =>
    obtain rfl := Option.some.inj hdb
    exact .inr rfl

theorem prefix_of_eq {β : Type} {l l' : List β} (h : l = l') : l <+: l' := h ▸ List.prefix_rfl

theorem adminActionsOf_grows (h : Moves hmacSha1 argon2Verify s a t) :
    adminActionsOf s.db <+: adminActionsOf t.db := by
  cases h with
  | table h hw =>
    have hsame : adminActionsOf _ = adminActionsOf s.db :=
      adminActionsOf_table.filterMap_eq (elsewhere_journal h) hw
    exact prefix_of_eq hsame.symm
  | arrived => exact List.prefix_rfl
  | script => exact List.prefix_rfl
  | next _ _ _ hturn hdb =>
    rcases adminActionsOf_turn hturn hdb with ⟨entry, -, hsame⟩ | hsame
    · rw [hsame]
      exact List.prefix_append _ _
    · exact prefix_of_eq hsame.symm

/-- A report as it was made. -/
def evidence (r : Rows.Report) : Rows.Report :=
  { r with status := .open, handledByUserId := none, handledAt := none, resolution := none }

theorem mem_reportsOf {db : List Row} {r : Rows.Report} : r ∈ reportsOf db ↔ Row.report r ∈ db := by
  simp only [reportsOf, List.mem_filterMap]
  constructor
  · rintro ⟨row, hrow, hr⟩
    cases row <;> cases hr
    exact hrow
  · intro hr
    exact ⟨_, hr, rfl⟩

theorem mem_usersOf {db : List Row} {r : Rows.User} : r ∈ usersOf db ↔ Row.user r ∈ db := by
  simp only [usersOf, List.mem_filterMap]
  constructor
  · rintro ⟨row, hrow, hr⟩
    cases row <;> cases hr
    exact hrow
  · intro hr
    exact ⟨_, hr, rfl⟩

theorem findUser_some {db : List Row} {id : Uuid} {r : Rows.User} (h : findUser db id = some r) :
    Row.user r ∈ db ∧ r.id = id :=
  ⟨mem_usersOf.mp (List.mem_of_find?_eq_some h), by simpa using List.find?_some h⟩

theorem findReport_some {db : List Row} {id : Uuid} {r : Rows.Report}
    (h : findReport db id = some r) : Row.report r ∈ db ∧ r.id = id :=
  ⟨mem_reportsOf.mp (List.mem_of_find?_eq_some h), by simpa using List.find?_some h⟩

/-- Closing a report changes nothing of what was reported. -/
theorem evidence_update {db db' : List Row} {r row : Rows.Report} (hdb : schema.Integral db)
    (hrow : Row.report row ∈ db) (hr : evidence r = evidence row)
    (h : tableStep (.update (.report r)) db = some db') :
    (reportsOf db').map evidence = (reportsOf db).map evidence := by
  have hid : (evidence r).id = (evidence row).id := congrArg Rows.Report.id hr
  obtain ⟨-, rfl⟩ := update_eq_some h
  have hread : ∀ x ∈ db,
      (if x.key = Row.key (.report r) then Row.report r else x).report?.map evidence =
        x.report?.map evidence := by
    intro x hx
    split
    · rename_i hkey
      have hxrow : x = .report row :=
        List.inj_on_of_nodup_map hdb.ids hx hrow (hkey.trans (congrArg RowKey.report hid))
      rw [hxrow]
      exact congrArg some hr
    · rfl
  rw [reportsOf, reportsOf, List.map_filterMap, List.map_filterMap, List.filterMap_map]
  exact List.filterMap_congr hread

theorem reportsOf_turn {db db' : List Row} {now id : Nat} {c : AdminCall}
    {write : Option TableStatement} {stage : AdminStage} (hs : schema.Integral db)
    (hturn : Turn hmacSha1 argon2Verify db now id c write stage)
    (hdb : write.elim (some db) (tableStep · db) = some db') :
    (reportsOf db).map evidence <+: (reportsOf db').map evidence := by
  have hother : ∀ w, write = some w → w.spares Row.report? (fun r => .report r.id) →
      reportsOf db' = reportsOf db := by
    rintro w rfl hw
    exact reportsOf_table.filterMap_eq hw hdb
  cases hturn with
  | reported me body report =>
    have hnew : reportsOf db' = reportsOf db ++ [_] := Table.filterMap_insert rfl hdb
    rw [hnew, List.map_append]
    exact List.prefix_append _ _
  | handled hrow =>
    exact prefix_of_eq (evidence_update hs (findReport_some hrow).1 (by rfl) hdb).symm
  | journaled =>
    exact prefix_of_eq (congrArg _ (hother _ rfl rfl).symm)
  | promoted =>
    exact prefix_of_eq (congrArg _ (hother _ rfl rfl).symm)
  | removed =>
    exact prefix_of_eq (congrArg _ (hother _ rfl (by simp [TableStatement.spares])).symm)
  | _ =>
    obtain rfl := Option.some.inj hdb
    exact List.prefix_rfl

theorem reportsOf_grows (hs : schema.Integral s.db) (h : Moves hmacSha1 argon2Verify s a t) :
    (reportsOf s.db).map evidence <+: (reportsOf t.db).map evidence := by
  cases h with
  | @table w db h hw =>
    have hsame : reportsOf db = reportsOf s.db :=
      reportsOf_table.filterMap_eq (elsewhere_reports h) hw
    exact prefix_of_eq (congrArg _ hsame.symm)
  | arrived => exact List.prefix_rfl
  | script => exact List.prefix_rfl
  | next _ _ _ hturn hdb => exact reportsOf_turn hs hturn hdb

theorem integral_moves (hs : schema.Integral s.db) (h : Moves hmacSha1 argon2Verify s a t) :
    schema.Integral t.db := by
  cases h with
  | table h hw => exact integral_step hs hw
  | arrived => exact hs
  | script => exact hs
  | @next _ _ _ _ write _ _ _ _ _ _ hdb =>
    cases write with
    | none =>
      obtain rfl := Option.some.inj hdb
      exact hs
    | some w => exact integral_step hs hdb

end Administration

end ZiaCrypte.Server
