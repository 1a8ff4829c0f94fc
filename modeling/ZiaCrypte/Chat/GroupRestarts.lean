import ZiaCrypte.Engine.GroupDelivery

/-!
# Group keys across restarts

The clients of the members. An engine's sender keys, and the record of whom a key
was handed to, last one launch; the channels a client joined are in its vault. A
send is suspended between the handing over of the key to one device and the next.
-/
namespace ZiaCrypte.Chat.GroupKeys

open ZiaCrypte.Lib ZiaCrypte.Engine.SenderKeys
open ZiaCrypte.Engine hiding kMaxSkippedKeys

variable {M K : Type} [DecidableEq M]

/-- How far `sendMessage` has got: in `_assurerCleGroupe`, behind it, or over. -/
inductive Stage (M : Type) where
  | distributing (rotation : Nat) (rest ok : List M)
  | ready
  | done
  deriving DecidableEq

/-- A call of `sendMessage` for a group. -/
structure GroupSend (M : Type) where
  sender : M
  group : Identifier
  cibles : List M
  plaintext : Bytes
  stage : Stage M

structure Clients (M K : Type) where
  members : Members M K
  channels : M → List Identifier
  cleGroupeDistribuee : M × Identifier → Option (List M)
  sends : List (GroupSend M)
  handed : List (Nat × M)
  following : M × Identifier × M → Option Nat

inductive ClientEvent (M K : Type) where
  | senderKeyCreate (sender : M) (channel : Identifier) (env : SenderKeyEnv K)
  | publierDansCanal (sender : M) (channel : Identifier) (alloc : Bool) (plaintext : Bytes)
  | rejoindreCanalParLien (receiver : M) (rotation : Nat)
  | quitterCanal (receiver : M) (channel : Identifier)
  | appliquerControle (receiver : M) (rotation : Nat)
  | sendMessage (sender : M) (group : Identifier) (cibles : List M) (env : SenderKeyEnv K)
      (plaintext : Bytes)
  | sendToDevice (send : Nat) (acknowledged : Bool)
  | finDistribution (send : Nat)
  | sendGroupMessage (send : Nat) (cibles : List M) (alloc : Bool)
  | deliver (receiver : M) (message : Nat) (alloc : Bool)
  | restart (client : M)

/-- What an engine held is gone. -/
def forget (x : Members M K) (m : M) : Members M K :=
  { x with
    engine := Function.update x.engine m []
    current := fun slot => if slot.1 = m then none else x.current slot
    processed := fun slot => if slot.1 = m then none else x.processed slot }

def compositionInchangee (servis : Option (List M)) (cibles : List M) : Bool :=
  match servis with
  | some servis => servis.length == cibles.length && cibles.all (servis.contains ·)
  | none => false

namespace Clients

variable (P : SenderKeyPrimitives K) (ids : SenderIds M) (isChannel : Identifier → Bool)

def start : Clients M K where
  members := .start
  channels _ := []
  cleGroupeDistribuee _ := none
  sends := []
  handed := []
  following _ := none

/-- An event of the engines; `following` keeps what was processed in any launch. -/
def engineStep (e : MemberEvent M K) (x : Clients M K) : Clients M K :=
  let members := Members.step P ids e x.members
  { x with
    members := members
    following := fun slot => (members.processed slot).or (x.following slot) }

def setStage (x : Clients M K) (i : Nat) (t : GroupSend M) (stage : Stage M) : Clients M K :=
  { x with sends := x.sends.set i { t with stage := stage } }

def step : ClientEvent M K → Clients M K → Clients M K
  | .senderKeyCreate m channel env, x =>
      if isChannel channel then x.engineStep P ids (.create m channel env) else x
  | .publierDansCanal m channel alloc plaintext, x =>
      if isChannel channel then x.engineStep P ids (.encrypt m channel alloc plaintext) else x
  | .rejoindreCanalParLien r k, x =>
      match x.members.rotations[k]? with
      | none => x
      | some ρ =>
          -- A channel that is already there is opened, and its key not fetched again.
          if ρ.group ∈ x.channels r ∨ !isChannel ρ.group then x
          else { x.engineStep P ids (.process r k) with
            channels := Function.update x.channels r (ρ.group :: x.channels r) }
  | .quitterCanal r channel, x =>
      { x with channels := Function.update x.channels r ((x.channels r).filter (· ≠ channel)) }
  | .appliquerControle r k, x => x.engineStep P ids (.process r k)
  | .sendMessage m group cibles env plaintext, x =>
      if isChannel group ∨ cibles = [] then x
      else if compositionInchangee (x.cleGroupeDistribuee (m, group)) cibles then
        { x with sends := x.sends ++ [⟨m, group, cibles, plaintext, .ready⟩] }
      else
        let y := x.engineStep P ids (.create m group env)
        match (ziaSenderKeyCreate P env (x.members.engine m) group).1 with
        | .error _ => y
        | .ok _ => { y with sends := y.sends ++
            [⟨m, group, cibles, plaintext, .distributing x.members.rotations.length cibles []⟩] }
  | .sendToDevice i acknowledged, x =>
      match x.sends[i]? with
      | some t =>
          match t.stage with
          | .distributing k (device :: rest) ok =>
              if acknowledged then
                { x.setStage i t (.distributing k rest (ok ++ [device])) with
                  handed := (k, device) :: x.handed }
              else x.setStage i t (.distributing k rest ok)
          | _ => x
      | none => x
  | .finDistribution i, x =>
      match x.sends[i]? with
      | some t =>
          match t.stage with
          | .distributing _ [] ok =>
              if ok.length ≠ t.cibles.length then
                { x.setStage i t .done with
                  cleGroupeDistribuee :=
                    Function.update x.cleGroupeDistribuee (t.sender, t.group) none }
              else { x.setStage i t .ready with
                cleGroupeDistribuee :=
                  Function.update x.cleGroupeDistribuee (t.sender, t.group) (some ok) }
          | _ => x
      | none => x
  | .sendGroupMessage i _ alloc, x =>
      match x.sends[i]? with
      | some t =>
          match t.stage with
          | .ready =>
              (x.setStage i t .done).engineStep P ids (.encrypt t.sender t.group alloc t.plaintext)
          | _ => x
      | none => x
  | .deliver r i alloc, x => x.engineStep P ids (.deliver r i alloc)
  | .restart m, x =>
      { x with
        members := forget x.members m
        cleGroupeDistribuee := fun slot =>
          if slot.1 = m then none else x.cleGroupeDistribuee slot
        sends := x.sends.map fun t => if t.sender = m then { t with stage := .done } else t }

/-- A key may be used up to 2^32 - 1 times; a delivery is of a message under the
distribution its receiver follows, for the first time, within the limits. -/
def Fair : ClientEvent M K → Clients M K → Prop
  | .publierDansCanal m channel _ _, x => x.members.nextIndex m channel + 1 < UInt32.size
  | .sendGroupMessage i _ _, x => ∀ t ∈ x.sends[i]?,
      x.members.nextIndex t.sender t.group + 1 < UInt32.size
  | .deliver r i alloc, x => ∀ p ∈ x.members.messages[i]?,
      alloc = true ∧ x.following (r, p.group, p.sender) = some p.rotation ∧
        p.index ∉ x.members.taken (r, p.group, p.sender) ∧
        ∀ st ∈ trouver (x.members.engine r) p.group (ids.id p.sender),
          p.index - st.iteration.toNat ≤ kMaxSkip ∧
            st.skipped.length + (p.index - st.iteration.toNat) ≤ kMaxSkippedKeys
  | _, _ => True

/-- A message reaches its receiver in the launch that processed its distribution. Two
sends to one group do not overlap, a new key for them is not out of memory, and no
device joins the conversation while it is handed out. -/
def SameLaunch : ClientEvent M K → Clients M K → Prop
  | .deliver r i _, x => ∀ p ∈ x.members.messages[i]?,
      x.members.processed (r, p.group, p.sender) = x.following (r, p.group, p.sender)
  | .sendMessage m group _ env _, x => env.alloc = true ∧
      ∀ t ∈ x.sends, t.sender = m → t.group = group → t.stage = .done
  | .sendGroupMessage i cibles _, x => ∀ t ∈ x.sends[i]?, cibles ⊆ t.cibles
  | _, _ => True

/-- The key a member sends to a group under was handed to these devices. -/
def Served (x : Clients M K) (m : M) (group : Identifier) (devices : List M) : Prop :=
  ∃ k, x.members.current (m, group) = some k ∧ ∀ device ∈ devices, (k, device) ∈ x.handed

/-- A delivery returns the plaintext, and what is sent to a group can be read by every
device it is sent to. -/
def Readable : ClientEvent M K → Clients M K → Prop
  | .deliver r i alloc, x => Members.Delivers P ids (.deliver r i alloc) x.members
  | .sendGroupMessage i cibles _, x => ∀ t ∈ x.sends[i]?, t.stage = .ready →
      x.Served t.sender t.group cibles
  | _, _ => True

end Clients

/-! ## The invariant -/

variable {P : SenderKeyPrimitives K} {ids : SenderIds M} {isChannel : Identifier → Bool}
  {x : Clients M K}

/-- What a send under way has handed out, and what it may rely on. -/
def SendInv (x : Clients M K) (t : GroupSend M) : Prop :=
  match t.stage with
  | .distributing k rest ok => x.members.current (t.sender, t.group) = some k ∧
      (∃ tried, t.cibles = tried ++ rest ∧ ok.Sublist tried) ∧ ∀ d ∈ ok, (k, d) ∈ x.handed
  | .ready => x.Served t.sender t.group t.cibles
  | .done => True

/-- A key is being handed to the devices of a group. -/
def Distributing (x : Clients M K) (m : M) (group : Identifier) : Prop :=
  ∃ t ∈ x.sends, t.sender = m ∧ t.group = group ∧ ∃ k rest ok, t.stage = .distributing k rest ok

structure ClientsInv (P : SenderKeyPrimitives K) (ids : SenderIds M)
    (isChannel : Identifier → Bool) (x : Clients M K) : Prop where
  members : MembersInv P ids x.members
  following : ∀ slot k, x.members.processed slot = some k → x.following slot = some k
  sends : ∀ t ∈ x.sends, isChannel t.group = false ∧ SendInv x t
  served : ∀ m group devices, x.cleGroupeDistribuee (m, group) = some devices →
    isChannel group = false ∧ (¬ Distributing x m group → x.Served m group devices)

omit [DecidableEq M] in
theorem clientsInv_start : ClientsInv P ids isChannel (Clients.start : Clients M K) where
  members := membersInv_start
  following slot k h := by cases h
  sends t h := by cases h
  served m group devices h := by cases h

omit [DecidableEq M] in
/-- Only the sender's own rotations and the acknowledgements decide it. -/
theorem Clients.Served.mono {y : Clients M K} {m : M} {group : Identifier} {devices devices' : List M}
    (h : x.Served m group devices)
    (hcurrent : y.members.current (m, group) = x.members.current (m, group))
    (hhanded : x.handed ⊆ y.handed) (hdevices : devices' ⊆ devices) :
    y.Served m group devices' := by
  obtain ⟨k, hk, hall⟩ := h
  exact ⟨k, hcurrent.trans hk, fun d hd => hhanded (hall d (hdevices hd))⟩

omit [DecidableEq M] in
theorem SendInv.mono {y : Clients M K} {t : GroupSend M} (h : SendInv x t)
    (hcurrent : y.members.current (t.sender, t.group) = x.members.current (t.sender, t.group))
    (hhanded : x.handed ⊆ y.handed) : SendInv y t := by
  unfold SendInv at h ⊢
  split at h
  · obtain ⟨hk, htried, hok⟩ := h
    exact ⟨hcurrent.trans hk, htried, fun d hd => hhanded (hok d hd)⟩
  · exact h.mono hcurrent hhanded (List.Subset.refl _)
  · trivial

theorem MembersInv.forget {w : Members M K} (h : MembersInv P ids w) (m : M) :
    MembersInv P ids (forget w m) where
  drawn := h.drawn
  own m' group k hk := by
    unfold GroupKeys.forget at hk
    dsimp only at hk
    split at hk
    · cases hk
    · rename_i hne
      obtain ⟨ρ, st, hρ, hst, hsends⟩ := h.own m' group k hk
      refine ⟨ρ, st, hρ, ?_, hsends⟩
      change trouver (Function.update w.engine m [] m') group [] = some st
      rwa [Function.update_of_ne hne]
  noOwn m' group hnone := by
    change trouver (Function.update w.engine m [] m') group [] = none
    by_cases hm : m' = m
    · subst hm
      rw [Function.update_self]
      rfl
    · rw [Function.update_of_ne hm]
      refine h.noOwn m' group ?_
      unfold GroupKeys.forget at hnone
      dsimp only at hnone
      rwa [if_neg hm] at hnone
  sent := h.sent
  received r group m' k hk := by
    unfold GroupKeys.forget at hk
    dsimp only at hk
    split at hk
    · cases hk
    · rename_i hne
      obtain ⟨ρ, st, hρ, hst, hreceives⟩ := h.received r group m' k hk
      refine ⟨ρ, st, hρ, ?_, hreceives⟩
      change trouver (Function.update w.engine m [] r) group (ids.id m') = some st
      rwa [Function.update_of_ne hne]

/-! ## The engines -/

section Engines

variable (w : Members M K)

@[simp] theorem current_process (r : M) (k : Nat) :
    (Members.step P ids (.process r k) w).current = w.current := by
  simp only [Members.step]
  split
  · rfl
  split
  · rfl
  split <;> rfl

@[simp] theorem current_encrypt (m : M) (group : Identifier) (alloc : Bool) (plaintext : Bytes) :
    (Members.step P ids (.encrypt m group alloc plaintext) w).current = w.current := by
  simp only [Members.step]
  split <;> rfl

@[simp] theorem current_deliver (r : M) (i : Nat) (alloc : Bool) :
    (Members.step P ids (.deliver r i alloc) w).current = w.current := by
  simp only [Members.step]
  split
  · rfl
  split <;> rfl

theorem current_create (m : M) {group : Identifier} (env : SenderKeyEnv K) (hgroup : group ≠ []) :
    (Members.step P ids (.create m group env) w).current =
      Function.update w.current (m, group) (some w.rotations.length) := by
  simp only [Members.step, if_neg hgroup]

theorem current_create_of_nil (m : M) (env : SenderKeyEnv K) :
    (Members.step P ids (.create m [] env) w).current = w.current := rfl

end Engines

/-- An engine event that leaves the groups' own keys alone. -/
theorem ClientsInv.engineStep (h : ClientsInv P ids isChannel x) {e : MemberEvent M K}
    (hmembers : MembersInv P ids (Members.step P ids e x.members))
    (hcurrent : ∀ m group, isChannel group = false →
      (Members.step P ids e x.members).current (m, group) = x.members.current (m, group)) :
    ClientsInv P ids isChannel (x.engineStep P ids e) where
  members := hmembers
  following slot k hk := by
    have hk' : (Members.step P ids e x.members).processed slot = some k := hk
    change ((Members.step P ids e x.members).processed slot).or (x.following slot) = some k
    rw [hk', Option.some_or]
  sends t ht := by
    obtain ⟨hgroup, hsend⟩ := h.sends t ht
    exact ⟨hgroup, hsend.mono (hcurrent _ _ hgroup) (List.Subset.refl _)⟩
  served m group devices hdevices := by
    obtain ⟨hgroup, hserved⟩ := h.served m group devices hdevices
    exact ⟨hgroup, fun hnot => (hserved hnot).mono (hcurrent m group hgroup)
      (List.Subset.refl _) (List.Subset.refl _)⟩

theorem ClientsInv.createChannel (h : ClientsInv P ids isChannel x) (m : M) {channel : Identifier}
    (env : SenderKeyEnv K) (hchannel : isChannel channel = true) :
    ClientsInv P ids isChannel (x.engineStep P ids (.create m channel env)) := by
  refine h.engineStep (h.members.create m channel env) fun m' group hgroup => ?_
  by_cases hnil : channel = []
  · rw [hnil, current_create_of_nil]
  · rw [current_create _ _ _ hnil, Function.update_of_ne]
    rintro heq
    rw [(Prod.mk.inj heq).2, hchannel] at hgroup
    cases hgroup

theorem ClientsInv.process (h : ClientsInv P ids isChannel x) (r : M) (k : Nat) :
    ClientsInv P ids isChannel (x.engineStep P ids (.process r k)) :=
  h.engineStep (h.members.process r k) fun m group _ => by rw [current_process]

omit [DecidableEq M] in
theorem ClientsInv.channels (h : ClientsInv P ids isChannel x) (channels : M → List Identifier) :
    ClientsInv P ids isChannel { x with channels := channels } :=
  ⟨h.members, h.following, h.sends, h.served⟩

/-! ## Sends -/

omit [DecidableEq M] in
/-- The other sends are where they were. -/
theorem mem_setStage {i : Nat} {t t' : GroupSend M} {stage : Stage M}
    (ht : x.sends[i]? = some t) (ht' : t' ∈ x.sends) :
    t' = t ∨ t' ∈ (x.setStage i t stage).sends := by
  obtain ⟨j, hj⟩ := List.mem_iff_getElem?.mp ht'
  by_cases hij : i = j
  · subst hij
    exact .inl (Option.some.inj (hj.symm.trans ht))
  · refine .inr (List.mem_iff_getElem?.mpr ⟨j, ?_⟩)
    rw [Clients.setStage, List.getElem?_set_ne hij]
    exact hj

omit [DecidableEq M] in
theorem of_mem_setStage {i : Nat} {t t' : GroupSend M} {stage : Stage M}
    (ht' : t' ∈ (x.setStage i t stage).sends) :
    t' = { t with stage := stage } ∨ t' ∈ x.sends :=
  (List.mem_or_eq_of_mem_set ht').symm

omit [DecidableEq M] in
/-- A stage is replaced by one of the same send: what was handed out elsewhere is not
in question. -/
theorem not_distributing_setStage {i : Nat} {t : GroupSend M} {stage : Stage M} {m : M}
    {group : Identifier} (ht : x.sends[i]? = some t)
    (hsame : (∃ k rest ok, t.stage = .distributing k rest ok) →
      t.sender = m → t.group = group → ∃ k rest ok, stage = .distributing k rest ok)
    (hnot : ¬ Distributing (x.setStage i t stage) m group) : ¬ Distributing x m group := by
  rintro ⟨t', ht', hm, hgroup, hstage⟩
  rcases (mem_setStage ht ht' : t' = t ∨ t' ∈ (x.setStage i t stage).sends) with rfl | hmem
  · refine hnot ⟨{ t' with stage := stage }, ?_, hm, hgroup, hsame hstage hm hgroup⟩
    obtain ⟨hlt, _⟩ := List.getElem?_eq_some_iff.mp ht
    exact List.mem_set hlt _
  · exact hnot ⟨t', hmem, hm, hgroup, hstage⟩

theorem subset_of_compositionInchangee {servis : Option (List M)} {cibles : List M}
    (h : compositionInchangee servis cibles = true) : ∃ devices, servis = some devices ∧
      cibles ⊆ devices := by
  cases servis with
  | none => cases h
  | some devices =>
    simp only [compositionInchangee, Bool.and_eq_true, List.all_eq_true,
      List.contains_iff_mem] at h
    exact ⟨devices, rfl, h.2⟩

theorem ClientsInv.sendMessage (h : ClientsInv P ids isChannel x) (m : M) (group : Identifier)
    (cibles : List M) (env : SenderKeyEnv K) (plaintext : Bytes)
    (hlaunch : Clients.SameLaunch (.sendMessage m group cibles env plaintext) x) :
    ClientsInv P ids isChannel
      (Clients.step P ids isChannel (.sendMessage m group cibles env plaintext) x) := by
  obtain ⟨halloc, hover⟩ := hlaunch
  simp only [Clients.step]
  split
  · exact h
  rename_i hkind
  obtain ⟨hgroup, _⟩ := not_or.mp hkind
  rw [Bool.not_eq_true] at hgroup
  have hidle : ¬ Distributing x m group := by
    rintro ⟨t, ht, hm, hg, k, rest, ok, hstage⟩
    cases (hover t ht hm hg).symm.trans hstage
  split
  · -- The key in place was handed to the same devices.
    rename_i hsame
    obtain ⟨devices, hdevices, hsub⟩ := subset_of_compositionInchangee hsame
    have hserved := (h.served m group devices hdevices).2 hidle
    refine ⟨h.members, h.following, fun t ht => ?_, fun m' g devices' hd => ?_⟩
    · rcases List.mem_append.mp ht with hold | hnew
      · exact h.sends t hold
      · obtain rfl := List.mem_singleton.mp hnew
        exact ⟨hgroup, hserved.mono rfl (List.Subset.refl _) hsub⟩
    · refine ⟨(h.served m' g devices' hd).1, fun hnot => (h.served m' g devices' hd).2 ?_⟩
      rintro ⟨t, ht, hrest⟩
      exact hnot ⟨t, List.mem_append_left _ ht, hrest⟩
  · by_cases hnil : group = []
    · have herror : (ziaSenderKeyCreate P env (x.members.engine m) group).1 =
          .error .invalidArg := by
        rw [ziaSenderKeyCreate, if_pos hnil]
      simp only [herror]
      refine h.engineStep (h.members.create m group env) fun m' g _ => ?_
      rw [hnil, current_create_of_nil]
    -- A new key, which is handed out from now on.
    have hok : ∃ d, (ziaSenderKeyCreate P env (x.members.engine m) group).1 = .ok d := by
      simp [ziaSenderKeyCreate, hnil, halloc]
    obtain ⟨d, hok⟩ := hok
    have hcurrent : (Members.step P ids (.create m group env) x.members).current =
        Function.update x.members.current (m, group) (some x.members.rotations.length) :=
      current_create x.members m env hnil
    have hother : ∀ m' g, ¬ (m' = m ∧ g = group) →
        (Members.step P ids (.create m group env) x.members).current (m', g) =
          x.members.current (m', g) := by
      intro m' g hne
      rw [hcurrent, Function.update_of_ne]
      exact fun heq => hne (Prod.mk.inj heq)
    simp only [hok]
    refine ⟨h.members.create m group env, fun slot k hk => ?_, fun t ht => ?_,
      fun m' g devices hd => ?_⟩
    · have hk' : (Members.step P ids (.create m group env) x.members).processed slot = some k := hk
      change ((Members.step P ids (.create m group env) x.members).processed slot).or
        (x.following slot) = some k
      rw [hk', Option.some_or]
    · rcases List.mem_append.mp ht with hold | hnew
      · obtain ⟨hkind, hsend⟩ := h.sends t hold
        refine ⟨hkind, ?_⟩
        by_cases hslot : t.sender = m ∧ t.group = group
        · simp only [SendInv, hover t hold hslot.1 hslot.2]
        · exact hsend.mono (hother _ _ hslot) (List.Subset.refl _)
      · obtain rfl := List.mem_singleton.mp hnew
        refine ⟨hgroup, ?_, ⟨[], rfl, List.Sublist.refl _⟩, fun d hd => absurd hd List.not_mem_nil⟩
        change (Members.step P ids (.create m group env) x.members).current (m, group) = _
        rw [hcurrent, Function.update_self]
    · obtain ⟨hkind, hserved⟩ := h.served m' g devices hd
      refine ⟨hkind, fun hnot => ?_⟩
      by_cases hslot : m' = m ∧ g = group
      · refine absurd ⟨_, List.mem_append_right _ (List.mem_singleton.mpr rfl), hslot.1.symm,
          hslot.2.symm, _, _, _, rfl⟩ hnot
      · refine (hserved ?_).mono (hother m' g hslot) (List.Subset.refl _) (List.Subset.refl _)
        rintro ⟨t, ht, hrest⟩
        exact hnot ⟨t, List.mem_append_left _ ht, hrest⟩

omit [DecidableEq M] in
/-- A send goes on to its next stage, with more handed out. -/
theorem ClientsInv.setStage (h : ClientsInv P ids isChannel x) {i : Nat} {t : GroupSend M}
    {stage : Stage M} (ht : x.sends[i]? = some t) {y : Clients M K}
    (hy : y.sends = (x.setStage i t stage).sends) (hmembers : y.members = x.members)
    (hfollowing : y.following = x.following) (hhanded : x.handed ⊆ y.handed)
    (hsend : SendInv y { t with stage := stage })
    (hserved : ∀ m group devices, y.cleGroupeDistribuee (m, group) = some devices →
      isChannel group = false ∧ (¬ Distributing y m group → y.Served m group devices)) :
    ClientsInv P ids isChannel y where
  members := by rw [hmembers]; exact h.members
  following slot k hk := by
    rw [hmembers] at hk
    rw [hfollowing]
    exact h.following slot k hk
  sends t' ht' := by
    rw [hy] at ht'
    rcases of_mem_setStage ht' with rfl | hold
    · exact ⟨(h.sends t (List.mem_of_getElem? ht)).1, hsend⟩
    · obtain ⟨hkind, hinv⟩ := h.sends t' hold
      exact ⟨hkind, hinv.mono (by rw [hmembers]) hhanded⟩
  served := hserved

theorem ClientsInv.sendToDevice (h : ClientsInv P ids isChannel x) (i : Nat)
    (acknowledged : Bool) :
    ClientsInv P ids isChannel
      (Clients.step P ids isChannel (.sendToDevice i acknowledged) x) := by
  simp only [Clients.step]
  split
  case h_2 => exact h
  rename_i t ht
  split
  case h_2 => exact h
  rename_i k device rest ok hstage
  have hsend := (h.sends t (List.mem_of_getElem? ht)).2
  simp only [SendInv, hstage] at hsend
  obtain ⟨hk, ⟨tried, htried, hsub⟩, hok⟩ := hsend
  have htried' : t.cibles = tried ++ [device] ++ rest := by
    rw [htried, List.append_assoc]
    rfl
  have hserved : ∀ stage, (∃ k rest ok, stage = Stage.distributing k rest ok) →
      ∀ (y : Clients M K), y.sends = (x.setStage i t stage).sends → y.members = x.members →
      y.cleGroupeDistribuee = x.cleGroupeDistribuee → x.handed ⊆ y.handed →
      ∀ m group devices, y.cleGroupeDistribuee (m, group) = some devices →
      isChannel group = false ∧ (¬ Distributing y m group → y.Served m group devices) := by
    intro stage hdist y hsends hmembers hcle hhanded m group devices hd
    rw [hcle] at hd
    obtain ⟨hkind, hserved⟩ := h.served m group devices hd
    refine ⟨hkind, fun hnot => (hserved ?_).mono (by rw [hmembers]) hhanded
      (List.Subset.refl _)⟩
    unfold Distributing at hnot
    rw [hsends] at hnot
    exact not_distributing_setStage ht (fun _ _ _ => hdist) hnot
  split
  · refine h.setStage ht rfl rfl rfl (List.subset_cons_self _ _) ?_
      (hserved _ ⟨_, _, _, rfl⟩ _ rfl rfl rfl (List.subset_cons_self _ _))
    refine ⟨hk, ⟨tried ++ [device], htried', hsub.append_right [device]⟩, fun d hd => ?_⟩
    rcases List.mem_append.mp hd with hold | hnew
    · exact List.mem_cons_of_mem _ (hok d hold)
    · rw [List.mem_singleton.mp hnew]
      exact List.mem_cons_self
  · refine h.setStage ht rfl rfl rfl (List.Subset.refl _) ?_
      (hserved _ ⟨_, _, _, rfl⟩ _ rfl rfl rfl (List.Subset.refl _))
    exact ⟨hk, ⟨tried ++ [device], htried', hsub.trans (List.sublist_append_left _ _)⟩, hok⟩

theorem ClientsInv.finDistribution (h : ClientsInv P ids isChannel x) (i : Nat) :
    ClientsInv P ids isChannel (Clients.step P ids isChannel (.finDistribution i) x) := by
  simp only [Clients.step]
  split
  case h_2 => exact h
  rename_i t ht
  split
  case h_2 => exact h
  rename_i k ok hstage
  obtain ⟨hgroup, hsend⟩ := h.sends t (List.mem_of_getElem? ht)
  simp only [SendInv, hstage] at hsend
  obtain ⟨hk, ⟨tried, htried, hsub⟩, hok⟩ := hsend
  rw [List.append_nil] at htried
  have hother : ∀ (stage : Stage M) (y : Clients M K), y.sends = (x.setStage i t stage).sends →
      y.members = x.members → y.handed = x.handed → ∀ m group devices,
      ¬ (m = t.sender ∧ group = t.group) → x.cleGroupeDistribuee (m, group) = some devices →
      isChannel group = false ∧ (¬ Distributing y m group → y.Served m group devices) := by
    intro stage y hsends hmembers hhanded m group devices hne hd
    obtain ⟨hkind, hserved⟩ := h.served m group devices hd
    refine ⟨hkind, fun hnot => (hserved ?_).mono (by rw [hmembers])
      (by rw [hhanded]; exact List.Subset.refl _) (List.Subset.refl _)⟩
    unfold Distributing at hnot
    rw [hsends] at hnot
    exact not_distributing_setStage ht
      (fun _ hm hg => absurd ⟨hm.symm, hg.symm⟩ hne) hnot
  split
  · refine h.setStage (y := { x.setStage i t .done with
      cleGroupeDistribuee := Function.update x.cleGroupeDistribuee (t.sender, t.group) none })
      ht rfl rfl rfl (List.Subset.refl _) trivial ?_
    intro m group devices hd
    by_cases hslot : m = t.sender ∧ group = t.group
    · obtain ⟨rfl, rfl⟩ := hslot
      dsimp only at hd
      rw [Function.update_self] at hd
      cases hd
    · dsimp only at hd
      rw [Function.update_of_ne (fun heq => hslot (Prod.mk.inj heq))] at hd
      exact hother .done _ rfl rfl rfl m group devices hslot hd
  · rename_i hall
    obtain rfl : ok = t.cibles := by
      rw [htried]
      exact hsub.eq_of_length (by rw [← htried]; exact not_not.mp hall)
    have hserved : ∀ (y : Clients M K), y.members = x.members → y.handed = x.handed →
        y.Served t.sender t.group t.cibles :=
      fun y hm hh => ⟨k, by rw [hm]; exact hk, by rw [hh]; exact hok⟩
    refine h.setStage (y := { x.setStage i t .ready with
      cleGroupeDistribuee := Function.update x.cleGroupeDistribuee (t.sender, t.group)
        (some t.cibles) }) ht rfl rfl rfl (List.Subset.refl _) (hserved _ rfl rfl) ?_
    intro m group devices hd
    by_cases hslot : m = t.sender ∧ group = t.group
    · obtain ⟨rfl, rfl⟩ := hslot
      dsimp only at hd
      rw [Function.update_self] at hd
      obtain rfl := Option.some.inj hd
      exact ⟨hgroup, fun _ => hserved _ rfl rfl⟩
    · dsimp only at hd
      rw [Function.update_of_ne (fun heq => hslot (Prod.mk.inj heq))] at hd
      exact hother .ready _ rfl rfl rfl m group devices hslot hd

theorem ClientsInv.sendGroupMessage (h : ClientsInv P ids isChannel x) (i : Nat)
    (cibles : List M) (alloc : Bool) (hfair : Clients.Fair ids (.sendGroupMessage i cibles alloc) x) :
    ClientsInv P ids isChannel
      (Clients.step P ids isChannel (.sendGroupMessage i cibles alloc) x) := by
  simp only [Clients.step]
  split
  case h_2 => exact h
  rename_i t ht
  split
  case h_2 => exact h
  rename_i hstage
  have hdone : ClientsInv P ids isChannel (x.setStage i t .done) := by
    refine h.setStage ht rfl rfl rfl (List.Subset.refl _) trivial ?_
    intro m group devices hd
    obtain ⟨hkind, hserved⟩ := h.served m group devices hd
    refine ⟨hkind, fun hnot => hserved (not_distributing_setStage ht ?_ hnot)⟩
    rintro ⟨k, rest, ok, hdist⟩
    cases hstage.symm.trans hdist
  refine hdone.engineStep (h.members.encrypt _ _ alloc _ (hfair t ht)) fun m group _ => ?_
  rw [current_encrypt]

theorem ClientsInv.restart (h : ClientsInv P ids isChannel x) (m : M) :
    ClientsInv P ids isChannel (Clients.step P ids isChannel (.restart m) x) where
  members := MembersInv.forget h.members m
  following slot k hk := by
    have hk' : (if slot.1 = m then none else x.members.processed slot) = some k := hk
    split at hk'
    · cases hk'
    · exact h.following slot k hk'
  sends t ht := by
    obtain ⟨t', ht', rfl⟩ := List.mem_map.mp ht
    obtain ⟨hkind, hsend⟩ := h.sends t' ht'
    split
    · exact ⟨hkind, trivial⟩
    · rename_i hne
      exact ⟨hkind, hsend.mono (if_neg hne) (List.Subset.refl _)⟩
  served m' group devices hd := by
    have hd' : (if m' = m then none else x.cleGroupeDistribuee (m', group)) = some devices := hd
    split at hd'
    · cases hd'
    rename_i hne
    obtain ⟨hkind, hserved⟩ := h.served m' group devices hd'
    refine ⟨hkind, fun hnot => (hserved ?_).mono (if_neg hne) (List.Subset.refl _)
      (List.Subset.refl _)⟩
    rintro ⟨t, ht, rfl, hrest⟩
    exact hnot ⟨t, List.mem_map.mpr ⟨t, ht, if_neg hne⟩, rfl, hrest⟩

/-- One event, when its condition is met: the invariant is kept and the event is
readable. -/
theorem ClientsInv.step (haead : AeadCorrect P.toPrimitives) (hsign : SignatureCorrect P)
    (h : ClientsInv P ids isChannel x) {e : ClientEvent M K} (hfair : Clients.Fair ids e x)
    (hlaunch : Clients.SameLaunch e x) :
    ClientsInv P ids isChannel (Clients.step P ids isChannel e x) ∧
      Clients.Readable P ids e x := by
  cases e with
  | senderKeyCreate m channel env =>
    refine ⟨?_, trivial⟩
    simp only [Clients.step]
    split
    · rename_i hchannel
      exact h.createChannel m env hchannel
    · exact h
  | publierDansCanal m channel alloc plaintext =>
    refine ⟨?_, trivial⟩
    simp only [Clients.step]
    split
    · refine h.engineStep (h.members.encrypt m channel alloc plaintext hfair) fun m' group _ => ?_
      rw [current_encrypt]
    · exact h
  | rejoindreCanalParLien r k =>
    refine ⟨?_, trivial⟩
    simp only [Clients.step]
    split
    · exact h
    split
    · exact h
    · exact (h.process r k).channels _
  | quitterCanal r channel => exact ⟨h.channels _, trivial⟩
  | appliquerControle r k => exact ⟨h.process r k, trivial⟩
  | sendMessage m group cibles env plaintext =>
    exact ⟨h.sendMessage m group cibles env plaintext hlaunch, trivial⟩
  | sendToDevice i acknowledged => exact ⟨h.sendToDevice i acknowledged, trivial⟩
  | finDistribution i => exact ⟨h.finDistribution i, trivial⟩
  | sendGroupMessage i cibles alloc =>
    refine ⟨h.sendGroupMessage i cibles alloc hfair, fun t ht hready => ?_⟩
    have hsend := (h.sends t (List.mem_of_getElem? ht)).2
    simp only [SendInv, hready] at hsend
    exact hsend.mono rfl (List.Subset.refl _) (hlaunch t ht)
  | deliver r i alloc =>
    have hfair' : Members.Fair ids (.deliver r i alloc) x.members := by
      intro p hp
      obtain ⟨halloc, hfollowing, hrest⟩ := hfair p hp
      exact ⟨halloc, (hlaunch p hp).trans hfollowing, hrest⟩
    obtain ⟨hmembers, hdelivers⟩ := h.members.deliver haead hsign hfair'
    refine ⟨h.engineStep hmembers fun m group _ => ?_, hdelivers⟩
    rw [current_deliver]
  | restart m => exact ⟨h.restart m, trivial⟩

/-- Over any run of clients that stop and start again: a message that reaches its
receiver in the launch that processed its distribution is decrypted, and what is sent
to a group goes to devices its key was handed to. -/
theorem groupMessages_readable (haead : AeadCorrect P.toPrimitives) (hsign : SignatureCorrect P)
    (ids : SenderIds M) (isChannel : Identifier → Bool) (events : List (ClientEvent M K))
    (hfair : Always (fun e x => some (Clients.step P ids isChannel e x)) (Clients.Fair ids) events
      Clients.start)
    (hlaunch : Always (fun e x => some (Clients.step P ids isChannel e x)) Clients.SameLaunch
      events Clients.start) :
    Always (fun e x => some (Clients.step P ids isChannel e x)) (Clients.Readable P ids) events
      Clients.start := by
  refine always_of_invariant (ClientsInv P ids isChannel) ?_
    (fun e x hinv hC => (hinv.step haead hsign hC.1 hC.2).2) clientsInv_start (hfair.and hlaunch)
  intro e x y hinv hC hy
  obtain rfl := Option.some.inj hy
  exact (hinv.step haead hsign hC.1 hC.2).1

/-! ## Two clients -/

instance (e : ClientEvent M K) (x : Clients M K) : Decidable (Clients.Fair ids e x) := by
  cases e <;> unfold Clients.Fair <;> infer_instance

instance (e : ClientEvent M K) (x : Clients M K) : Decidable (Clients.SameLaunch e x) := by
  cases e <;> unfold Clients.SameLaunch <;> infer_instance

/-- The conversation `[8]` is a channel. -/
def sampleStep (e : ClientEvent Bool Bytes) (x : Clients Bool Bytes) :
    Option (Clients Bool Bytes) :=
  some (Clients.step symbolicSender symbolicIds (· == [8]) e x)

/-- A subscriber joins, restarts, opens the link again and gets the next post. -/
def rejoinedChannel : List (ClientEvent Bool Bytes) :=
  [.senderKeyCreate true [8] ⟨[3], [4], true⟩, .rejoindreCanalParLien false 0,
    .publierDansCanal true [8] true [10], .restart false, .rejoindreCanalParLien false 0]

theorem rejoinedChannel_unreadable :
    Always sampleStep (Clients.Fair symbolicIds) (rejoinedChannel ++ [.deliver false 0 true])
        Clients.start ∧
      ¬ Always sampleStep (Clients.Readable symbolicSender symbolicIds)
        (rejoinedChannel ++ [.deliver false 0 true]) Clients.start := by
  refine ⟨by decide +kernel, fun h => ?_⟩
  have hlast := (Always.append_iff.mp h).2 _ rfl
  let x := ((run sampleStep rejoinedChannel Clients.start).get rfl).members
  have hdelivers : ∀ p ∈ x.messages[0]?,
      (ziaSenderKeyDecrypt symbolicSender true (x.engine false) p.group (symbolicIds.id p.sender)
        p.bytes).1 = .ok p.plaintext := hlast.1
  have hrefused : (x.messages[0]?).map (fun p =>
      (ziaSenderKeyDecrypt symbolicSender true (x.engine false) p.group (symbolicIds.id p.sender)
        p.bytes).1.toOption) = some none := by
    decide +kernel
  obtain ⟨p, hp, herror⟩ := Option.map_eq_some_iff.mp hrefused
  rw [hdelivers p hp] at herror
  cases herror

/-- The sender restarts between handing out its key and writing to the group. -/
def restartedSender : List (ClientEvent Bool Bytes) :=
  [.sendMessage true [7] [false] ⟨[3], [4], true⟩ [10], .sendToDevice 0 true, .finDistribution 0,
    .appliquerControle false 0, .restart true,
    .sendMessage true [7] [false] ⟨[5], [6], true⟩ [11], .sendToDevice 1 true, .finDistribution 1,
    .sendGroupMessage 1 [false] true, .appliquerControle false 1, .deliver false 0 true]

theorem restartedSender_readable :
    Always sampleStep (Clients.Readable symbolicSender symbolicIds) restartedSender
        Clients.start ∧
      (run sampleStep restartedSender Clients.start).map (fun x =>
        (x.members.messages.map (fun p => (p.rotation, p.plaintext)), x.handed,
          x.members.taken (false, [7], true))) =
        some ([(1, [11])], [(1, false), (0, false)], [0]) :=
  ⟨groupMessages_readable symbolic_aeadCorrect symbolicSender_signatureCorrect symbolicIds _ _
    (by decide +kernel) (by decide +kernel), by decide +kernel⟩

end ZiaCrypte.Chat.GroupKeys
