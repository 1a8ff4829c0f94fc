import ZiaCrypte.Lib.Paths
import ZiaCrypte.Lib.Run
import ZiaCrypte.Storage.BackupRoundTrip

/-!
# `secure_blob.cpp` with its temporary files

A write goes through its steps and may end at each of them, or the process may. The bytes
that still wait in the stream when it is asked are written as it is closed, and nobody asks
again.
-/
namespace ZiaCrypte.Storage.SecureBlob

open ZiaCrypte.Lib ZiaCrypte.Engine ZiaCrypte.Storage

/-- The name of the file a write goes through. -/
def tmpFile (name : Bytes) : Bytes := vaultFile name ++ [46, 116, 109, 112]

/-- What the stream meets: whether it opens, how many bytes are in the file when it is asked,
what it says then, and how many more there are when it is closed. -/
structure StreamUse where
  opened : Bool
  early : Nat
  good : Bool
  late : Nat
  deriving DecidableEq

/-- Where the process stops: behind a step, or so many bytes into the file. -/
inductive Stop where
  | key
  | directory
  | file (bytes : Nat)
  | closed
  | renamed
  deriving DecidableEq

structure BlobUse where
  keyStore : KeyStoreUse
  /-- `create_directories` succeeds. -/
  directory : Bool
  header : Option (FixedBytes 24)
  stream : StreamUse
  renamed : Bool
  stop : Option Stop

/-- How a write ends: it answers, or the process stops before the file is in place or behind. -/
inductive WriteEnd where
  | failed
  | stopped
  | stoppedInPlace
  | done
  deriving DecidableEq

def WriteEnd.completed : WriteEnd → Bool
  | .failed | .stopped => false
  | .stoppedInPlace | .done => true

def putFile (d : Device) (file content : Bytes) : Device :=
  { d with vault := d.vault.insert file content }

/-- The temporary file, from its opening to the rename. -/
def writeThrough (use : BlobUse) (name raw : Bytes) (d : Device) : WriteEnd × Device :=
  if !use.stream.opened then (.failed, d)
  else
    match use.stop with
    | some (.file bytes) => (.stopped, putFile d (tmpFile name) (raw.take bytes))
    | stop =>
        -- The block closes the stream, whatever it answered.
        let content := raw.take (use.stream.early + use.stream.late)
        let d := putFile d (tmpFile name) content
        if !use.stream.good then (.failed, d)
        else if stop = some .closed then (.stopped, d)
        else if !use.renamed then (.failed, d)
        else
          let d := putFile { d with vault := d.vault.erase (tmpFile name) } (vaultFile name) content
          (if stop = some .renamed then .stoppedInPlace else .done, d)

section

variable (S : SecretStream)

def secureWrite (use : BlobUse) (name data : Bytes) (d : Device) : WriteEnd × Device :=
  if !d.hasPath || !validName name then (.failed, d)
  else
    match masterKey use.keyStore d with
    | (none, d) => (.failed, d)
    | (some key, d) =>
        if use.stop = some .key then (.stopped, d)
        else if !use.directory then (.failed, d)
        else if use.stop = some .directory then (.stopped, d)
        else
          match use.header.bind fun header => sealFile S key header data with
          | none => (.failed, d)
          | some raw => writeThrough use name raw d

/-- `secure_erase`: `removed` where the file system has no error; a file may be missing. -/
def secureErase (removed : Bool) (name : Bytes) (d : Device) : Bool × Device :=
  if !d.hasPath || !validName name then (false, d)
  else if removed then (true, { d with vault := d.vault.erase (vaultFile name) })
  else (false, d)

inductive Call where
  | write (use : BlobUse) (name data : Bytes)
  | read (use : ReadUse) (name : Bytes)
  | erase (removed : Bool) (name : Bytes)

def step : Call → Device → Option Device
  | .write use name data, d => some (secureWrite S use name data d).2
  | .read use name, d => some (secureRead S use name d).2
  | .erase removed name, d => some (secureErase removed name d).2

/-! ## What was stored -/

inductive Event where
  | wrote (name data : Bytes)
  | erased (name : Bytes)

/-- What a call adds to the history. -/
def events : Call → Device → List Event
  | .write use name data, d =>
      if (secureWrite S use name data d).1.completed then [.wrote name data] else []
  | .read _ _, _ => []
  | .erase removed name, d => if (secureErase removed name d).1 then [.erased name] else []

def history : List Call → Device → List Event
  | [], _ => []
  | c :: cs, d => events S c d ++ ((step S c d).map (history cs)).getD []

end

def Event.about (name : Bytes) : Event → Option (Option Bytes)
  | .wrote n data => if n = name then some (some data) else none
  | .erased n => if n = name then some none else none

/-- The last write of a name that was not erased behind it. -/
def stored (name : Bytes) (past : List Event) : Option Bytes :=
  (past.reverse.findSome? (Event.about name)).getD none

/-! ## Conditions -/

def Call.name : Call → Bytes
  | .write _ name _ | .read _ name | .erase _ name => name

/-- The master key is found whenever there is one, so none replaces it. -/
def KeyKept : Call → Device → Prop
  | .write use _ _, d => d.masterKey ≠ none → use.keyStore.found = true
  | .read use _, d => d.masterKey ≠ none → use.keyStore.found = true
  | .erase _ _, _ => True

/-- A file that is renamed has all of its bytes: closing the stream loses none of those that
were waiting when it said that it was good. -/
def Flushed : Call → Device → Prop
  | .write use _ data, _ =>
      use.stream.good = true → use.renamed = true → use.stop = none ∨ use.stop = some .renamed →
        minFileBytes + data.length ≤ use.stream.early + use.stream.late
  | _, _ => True

/-! ## Names -/

theorem tmpFile_ne (name name' : Bytes) : tmpFile name ≠ vaultFile name' := by
  intro h
  have htmp : (tmpFile name).getLast? = some 112 := by
    rw [tmpFile, List.getLast?_append]
    rfl
  have hvault : (vaultFile name').getLast? = some 97 := by
    rw [vaultFile, List.getLast?_append]
    rfl
  rw [h, hvault] at htmp
  cases htmp

def isSeparator (c : UInt8) : Bool := c == 47 || c == 92

/-- A part of a path. -/
def hop (part : Bytes) : Hop Bytes :=
  if part = [] ∨ part = [46] then .stay else if part = [46, 46] then .up else .down part

/-- The file stands in the folder it is named in: its name is one part, which goes down. -/
def Inside (file : Bytes) : Prop := (file.splitOnP isSeparator).map hop = [.down file]

theorem inside_of_dots {name rest : Bytes} (hname : validName name = true)
    (hrest : rest.any isSeparator = false) (hlen : 2 < rest.length) :
    Inside (name ++ rest) := by
  have hseparator : ∀ c ∈ name ++ rest, isSeparator c = false := by
    intro c hc
    rcases List.mem_append.mp hc with hc | hc
    · unfold validName at hname
      rw [Bool.and_eq_true, List.all_eq_true] at hname
      by_contra hsep
      rw [Bool.not_eq_false, isSeparator, Bool.or_eq_true, beq_iff_eq, beq_iff_eq] at hsep
      have hc := hname.2 c hc
      rcases hsep with rfl | rfl <;> exact absurd hc (by decide)
    · exact Bool.eq_false_iff.mpr (List.any_eq_false.mp hrest c hc)
  have hlong : ∀ short : Bytes, short.length ≤ 2 → name ++ rest ≠ short := by
    rintro short hshort rfl
    rw [List.length_append] at hshort
    omega
  have hdown : hop (name ++ rest) = .down (name ++ rest) := by
    unfold hop
    rw [if_neg (not_or.mpr ⟨hlong [] (by decide), hlong [46] (by decide)⟩),
      if_neg (hlong [46, 46] (by decide))]
  unfold Inside
  rw [List.splitOnP_eq_singleton hseparator, List.map_singleton, hdown]

theorem inside_files {name : Bytes} (h : validName name = true) :
    Inside (vaultFile name) ∧ Inside (tmpFile name) := by
  refine ⟨inside_of_dots h (by decide) (by decide), ?_⟩
  unfold tmpFile vaultFile
  rw [List.append_assoc]
  exact inside_of_dots h (by decide) (by decide)

/-! ## What a call does -/

variable {S : SecretStream} {d : Device}

theorem masterKey_some {use : KeyStoreUse} {key : Key} {d' : Device}
    (h : masterKey use d = (some key, d')) : d' = { d with masterKey := some key } := by
  unfold masterKey at h
  split at h
  · obtain ⟨hkey, rfl⟩ := Prod.mk.inj h
    split at hkey
    · rw [← hkey]
    · cases hkey
  · split at h
    · obtain ⟨hkey, rfl⟩ := Prod.mk.inj h
      rw [← hkey]
    · cases (Prod.mk.inj h).1

theorem masterKey_kept {use : KeyStoreUse} (h : d.masterKey ≠ none → use.found = true) {key : Key}
    (hkey : d.masterKey = some key) : (masterKey use d).2 = d := by
  have hfound := h (by rw [hkey]; exact Option.some_ne_none key)
  unfold masterKey
  rw [hfound, hkey]
  rfl

/-- A device of the same folder: only the master key and one file may be others. -/
structure Beside (file : Bytes) (d d' : Device) : Prop where
  hasPath : d'.hasPath = d.hasPath
  files : ∀ f, f ≠ file → d'.vault.get? f = d.vault.get? f

theorem beside_masterKey (file : Bytes) (use : KeyStoreUse) (d : Device) :
    Beside file d (masterKey use d).2 := by
  obtain ⟨stored, hframe⟩ := masterKey_frame use d
  rw [hframe]
  exact ⟨rfl, fun f _ => rfl⟩

theorem Beside.trans {file : Bytes} {d d' d'' : Device} (h : Beside file d d')
    (h' : Beside file d' d'') : Beside file d d'' where
  hasPath := h'.hasPath.trans h.hasPath
  files f hf := (h'.files f hf).trans (h.files f hf)

theorem beside_putFile (file content : Bytes) (d : Device) :
    Beside file d (putFile d file content) where
  hasPath := rfl
  files _ hf := LinkedMap.get?_insert_ne _ _ hf

theorem beside_erase (file : Bytes) (d : Device) :
    Beside file d { d with vault := d.vault.erase file } where
  hasPath := rfl
  files f hf := (LinkedMap.get?_erase d.vault file f).trans (if_neg hf)

/-- A write through the temporary file leaves the others, or puts its own in place. -/
theorem writeThrough_cases {use : BlobUse} (hkey : use.stop ≠ some .key)
    (hdirectory : use.stop ≠ some .directory) (name raw : Bytes) (d : Device) :
    (writeThrough use name raw d).2.masterKey = d.masterKey ∧
    (((writeThrough use name raw d).1.completed = false ∧
        Beside (tmpFile name) d (writeThrough use name raw d).2) ∨
      (writeThrough use name raw d).1.completed = true ∧
        (use.stream.good = true ∧ use.renamed = true ∧
          (use.stop = none ∨ use.stop = some .renamed)) ∧
        ∃ d', Beside (tmpFile name) d d' ∧ (writeThrough use name raw d).2 =
          putFile d' (vaultFile name) (raw.take (use.stream.early + use.stream.late))) := by
  have hself : Beside (tmpFile name) d d := ⟨rfl, fun _ _ => rfl⟩
  unfold writeThrough
  split
  · exact ⟨rfl, .inl ⟨rfl, hself⟩⟩
  split
  · exact ⟨rfl, .inl ⟨rfl, beside_putFile _ _ _⟩⟩
  rename_i stop hfile
  dsimp only
  split
  · exact ⟨rfl, .inl ⟨rfl, beside_putFile _ _ _⟩⟩
  rename_i hgood
  split
  · exact ⟨rfl, .inl ⟨rfl, beside_putFile _ _ _⟩⟩
  rename_i hclosed
  split
  · exact ⟨rfl, .inl ⟨rfl, beside_putFile _ _ _⟩⟩
  rename_i hrenamed
  rw [Bool.not_eq_true, Bool.not_eq_false'] at hgood hrenamed
  have hstop : use.stop = none ∨ use.stop = some .renamed := by
    cases hcase : use.stop with
    | none => exact .inl rfl
    | some at' =>
      cases at' with
      | key => exact absurd hcase hkey
      | directory => exact absurd hcase hdirectory
      | file bytes => exact absurd hcase (hfile bytes)
      | closed => exact absurd hcase hclosed
      | renamed => exact .inr rfl
  refine ⟨rfl, .inr ⟨?_, ⟨hgood, hrenamed, hstop⟩, _,
    (beside_putFile (tmpFile name) _ d).trans (beside_erase _ _), rfl⟩⟩
  split <;> rfl

/-- A write leaves all other files, or completes with every step on the way to its own. -/
theorem secureWrite_cases (S : SecretStream) (use : BlobUse) (name data : Bytes) (d : Device) :
    (secureWrite S use name data d).1.completed = false ∧
      Beside (tmpFile name) d (secureWrite S use name data d).2 ∨
    (secureWrite S use name data d).1.completed = true ∧ d.hasPath = true ∧
      validName name = true ∧ (use.stream.good = true ∧ use.renamed = true ∧
        (use.stop = none ∨ use.stop = some .renamed)) ∧
      ∃ key header raw d', sealFile S key header data = some raw ∧ d'.masterKey = some key ∧
        Beside (tmpFile name) d d' ∧ (secureWrite S use name data d).2 =
          putFile d' (vaultFile name) (raw.take (use.stream.early + use.stream.late)) := by
  have hbeside := beside_masterKey (tmpFile name) use.keyStore d
  unfold secureWrite
  split
  · exact .inl ⟨rfl, ⟨rfl, fun _ _ => rfl⟩⟩
  rename_i hguard
  rw [Bool.not_eq_true, Bool.or_eq_false_iff, Bool.not_eq_false', Bool.not_eq_false'] at hguard
  cases hmaster : masterKey use.keyStore d with
  | mk found d₁ =>
    rw [hmaster] at hbeside
    cases found with
    | none => exact .inl ⟨rfl, hbeside⟩
    | some key =>
      dsimp only
      split
      · exact .inl ⟨rfl, hbeside⟩
      rename_i hkey
      split
      · exact .inl ⟨rfl, hbeside⟩
      split
      · exact .inl ⟨rfl, hbeside⟩
      rename_i hdirectory
      split
      · exact .inl ⟨rfl, hbeside⟩
      rename_i raw hraw
      obtain ⟨header, -, hseal⟩ := Option.bind_eq_some_iff.mp hraw
      obtain ⟨hsame, ⟨hend, hleft⟩ | ⟨hend, hsteps, d', hleft, hput⟩⟩ :=
        writeThrough_cases hkey hdirectory name raw d₁
      · exact .inl ⟨hend, hbeside.trans hleft⟩
      · have hstored : d'.masterKey = some key := by
          rw [hput] at hsame
          exact hsame.trans (by rw [masterKey_some hmaster])
        exact .inr ⟨hend, hguard.1, hguard.2, hsteps, key, header, raw, d', hseal, hstored,
          hbeside.trans hleft, hput⟩

/-- A key that is found stays. -/
theorem secureWrite_key (S : SecretStream) {use : BlobUse} {key : Key}
    (h : d.masterKey ≠ none → use.keyStore.found = true) (hkey : d.masterKey = some key)
    (name data : Bytes) : (secureWrite S use name data d).2.masterKey = some key := by
  have hkept := masterKey_kept h hkey
  unfold secureWrite
  split
  · exact hkey
  cases hmaster : masterKey use.keyStore d with
  | mk found d₁ =>
    rw [hmaster] at hkept
    obtain rfl : d₁ = d := hkept
    cases found with
    | none => exact hkey
    | some key =>
      dsimp only
      split
      · exact hkey
      rename_i hstopKey
      split
      · exact hkey
      split
      · exact hkey
      rename_i hstopDirectory
      split
      · exact hkey
      · exact (writeThrough_cases hstopKey hstopDirectory name _ _).1.trans hkey

theorem secureRead_frame (S : SecretStream) (use : ReadUse) (name : Bytes) (d : Device) :
    ∃ stored, (secureRead S use name d).2 = { d with masterKey := stored } := by
  unfold secureRead
  split
  · exact ⟨d.masterKey, rfl⟩
  · obtain ⟨stored, hframe, -⟩ := sealedRead_cases
      (rfl : sealedRead S use (d.vault.get? (vaultFile name)) d = (_, _))
    exact ⟨stored, hframe⟩

theorem secureRead_kept (S : SecretStream) {use : ReadUse} {key : Key}
    (h : d.masterKey ≠ none → use.keyStore.found = true) (hkey : d.masterKey = some key)
    (name : Bytes) : (secureRead S use name d).2 = d := by
  have hkept := masterKey_kept h hkey
  unfold secureRead sealedRead
  split
  · rfl
  split
  · rfl
  split
  · rfl
  split
  · rfl
  cases hmaster : masterKey use.keyStore d with
  | mk found d₁ =>
    rw [hmaster] at hkept
    obtain rfl : d₁ = d := hkept
    cases found <;> rfl

/-! ## One step -/

variable {c : Call} {d' : Device} {past : List Event}

/-- A call feels the file of its own name only. -/
theorem step_frame (h : step S c d = some d') :
    d'.hasPath = d.hasPath ∧
      ∀ name, name ≠ c.name → d'.vault.get? (vaultFile name) = d.vault.get? (vaultFile name) := by
  cases c with
  | write use name data =>
    obtain rfl := Option.some.inj h
    rcases secureWrite_cases S use name data d with
      ⟨-, hleft⟩ | ⟨-, -, -, -, key, header, raw, d₁, -, -, hleft, hput⟩
    · exact ⟨hleft.hasPath, fun name' _ => hleft.files _ (tmpFile_ne name name').symm⟩
    · rw [hput]
      refine ⟨hleft.hasPath, fun name' hne => ?_⟩
      have hfile : vaultFile name' ≠ vaultFile name := fun heq => hne (vaultFile_inj heq)
      exact ((beside_putFile _ _ d₁).files _ hfile).trans
        (hleft.files _ (tmpFile_ne name name').symm)
  | read use name =>
    obtain rfl := Option.some.inj h
    obtain ⟨kept, hframe⟩ := secureRead_frame S use name d
    rw [hframe]
    exact ⟨rfl, fun _ _ => rfl⟩
  | erase removed name =>
    obtain rfl := Option.some.inj h
    unfold secureErase
    split
    · exact ⟨rfl, fun _ _ => rfl⟩
    split
    · refine ⟨rfl, fun name' hne => ?_⟩
      exact (LinkedMap.get?_erase _ _ _).trans (if_neg fun heq => hne (vaultFile_inj heq))
    · exact ⟨rfl, fun _ _ => rfl⟩

theorem step_key (hkept : KeyKept c d) (h : step S c d = some d') {key : Key}
    (hkey : d.masterKey = some key) : d'.masterKey = some key := by
  cases c with
  | write use name data =>
    obtain rfl := Option.some.inj h
    exact secureWrite_key S hkept hkey name data
  | read use name =>
    obtain rfl := Option.some.inj h
    rw [secureRead_kept S hkept hkey]
    exact hkey
  | erase removed name =>
    obtain rfl := Option.some.inj h
    unfold secureErase
    split
    · exact hkey
    split
    · exact hkey
    · exact hkey

theorem stored_append (name : Bytes) (past new : List Event) :
    stored name (past ++ new) =
      ((new.reverse.findSome? (Event.about name)).or
        (past.reverse.findSome? (Event.about name))).getD none := by
  unfold stored
  rw [List.reverse_append, List.findSome?_append]

theorem stored_concat (name : Bytes) (past : List Event) (e : Event) :
    stored name (past ++ [e]) = (e.about name).getD (stored name past) := by
  rw [stored_append]
  unfold stored
  rw [List.reverse_singleton, List.findSome?_cons]
  cases e.about name <;> rfl

/-- What a call does to the history of its name. -/
theorem stored_events (S : SecretStream) (name : Bytes) (past : List Event) (c : Call)
    (d : Device) : stored name (past ++ events S c d) =
      match c with
      | .write use n data =>
          if n = name ∧ (secureWrite S use n data d).1.completed = true then some data
          else stored name past
      | .read _ _ => stored name past
      | .erase removed n =>
          if n = name ∧ (secureErase removed n d).1 = true then none else stored name past := by
  cases c with
  | write use n data =>
    dsimp only [events]
    split
    · rename_i hend
      rw [stored_concat, Event.about]
      by_cases hn : n = name
      · rw [if_pos hn, if_pos ⟨hn, hend⟩]
        rfl
      · rw [if_neg hn, if_neg fun h => hn h.1]
        rfl
    · rename_i hend
      rw [List.append_nil, if_neg fun h => hend h.2]
  | read use n => rw [events, List.append_nil]
  | erase removed n =>
    dsimp only [events]
    split
    · rename_i hend
      rw [stored_concat, Event.about]
      by_cases hn : n = name
      · rw [if_pos hn, if_pos ⟨hn, hend⟩]
        rfl
      · rw [if_neg hn, if_neg fun h => hn h.1]
        rfl
    · rename_i hend
      rw [List.append_nil, if_neg fun h => hend h.2]

theorem stored_events_ne {name : Bytes} (hname : name ≠ c.name) :
    stored name (past ++ events S c d) = stored name past := by
  rw [stored_events]
  cases c with
  | write use n data => exact if_neg fun h => hname h.1.symm
  | read use n => rfl
  | erase removed n => exact if_neg fun h => hname h.1.symm

/-! ## The vault and its history -/

/-- The file of a name opens to a content, or there is none. -/
def HoldsAt (S : SecretStream) (d : Device) (name : Bytes) : Option Bytes → Prop
  | some data => d.hasPath = true ∧ validName name = true ∧ d.Stores S name data
  | none => d.vault.get? (vaultFile name) = none

/-- The files of the vault are what its history says. -/
def Faithful (S : SecretStream) (d : Device) (past : List Event) : Prop :=
  ∀ name, HoldsAt S d name (stored name past)

theorem faithful_empty (h : d.vault = .empty) : Faithful S d [] := by
  intro name
  change d.vault.get? (vaultFile name) = none
  rw [h]
  exact LinkedMap.get?_empty _

/-- Where the file of a name is the same, so is what it holds. -/
theorem holdsAt_of_same {name : Bytes} {content : Option Bytes} (h : HoldsAt S d name content)
    (hpath : d'.hasPath = d.hasPath)
    (hkey : ∀ key, d.masterKey = some key → d'.masterKey = some key)
    (hfile : d'.vault.get? (vaultFile name) = d.vault.get? (vaultFile name)) :
    HoldsAt S d' name content := by
  cases content with
  | none => exact hfile.trans h
  | some data =>
    obtain ⟨hwhere, hvalid, key, raw, hmaster, hraw, hlength, hopen⟩ := h
    exact ⟨hpath.trans hwhere, hvalid, key, raw, hkey key hmaster, hfile.trans hraw, hlength, hopen⟩

theorem length_sealFile (hS : S.Sound) {key : Key} {header : FixedBytes 24} {plain raw : Bytes}
    (h : sealFile S key header plain = some raw) : raw.length = minFileBytes + plain.length := by
  obtain ⟨sealed, hpush, rfl⟩ := sealFile_eq_some h
  rw [List.length_append, header.length_bytes, hS.length _ _ _ _ hpush]
  simp only [minFileBytes, streamHeaderBytes]
  omega

/-- A write that completes, with all of its bytes, is in the file of its name. -/
theorem holdsAt_write (hS : S.Sound) {use : BlobUse} {name data : Bytes}
    (hend : (secureWrite S use name data d).1.completed = true)
    (hflushed : Flushed (.write use name data) d) :
    HoldsAt S (secureWrite S use name data d).2 name (some data) := by
  rcases secureWrite_cases S use name data d with
    ⟨hfailed, -⟩ | ⟨-, hwhere, hvalid, ⟨hgood, hrenamed, hstop⟩, key, header, raw, d₁, hseal,
      hmaster, hleft, hput⟩
  · rw [hend] at hfailed
    cases hfailed
  · have hlength := length_sealFile hS hseal
    have hwhole : raw.take (use.stream.early + use.stream.late) = raw := by
      refine List.take_of_length_le ?_
      rw [hlength]
      exact hflushed hgood hrenamed hstop
    rw [hput, hwhole]
    exact ⟨hleft.hasPath.trans hwhere, hvalid, key, raw, hmaster,
      LinkedMap.get?_insert_self _ _ _, by omega, openFile_sealFile hS hseal⟩

theorem secureErase_cases (removed : Bool) (name : Bytes) (d : Device) :
    secureErase removed name d = (false, d) ∨
      secureErase removed name d = (true, { d with vault := d.vault.erase (vaultFile name) }) := by
  unfold secureErase
  split
  · exact .inl rfl
  split
  · exact .inr rfl
  · exact .inl rfl

theorem faithful_step (hS : S.Sound) (hf : Faithful S d past) (hkept : KeyKept c d)
    (hflushed : Flushed c d) (h : step S c d = some d') :
    Faithful S d' (past ++ events S c d) := by
  have hkey : ∀ key, d.masterKey = some key → d'.masterKey = some key := fun _ => step_key hkept h
  obtain ⟨hpath, hfiles⟩ := step_frame h
  intro name
  by_cases hname : name = c.name
  · cases c with
    | write use n data =>
      obtain rfl : name = n := hname
      obtain rfl := Option.some.inj h
      rw [stored_events]
      dsimp only
      cases hend : (secureWrite S use name data d).1.completed with
      | true =>
        rw [if_pos ⟨rfl, rfl⟩]
        exact holdsAt_write hS hend hflushed
      | false =>
        rw [if_neg fun hdone => Bool.false_ne_true hdone.2]
        refine holdsAt_of_same (hf name) hpath hkey ?_
        rcases secureWrite_cases S use name data d with ⟨-, hleft⟩ | ⟨hdone, -⟩
        · exact hleft.files _ (tmpFile_ne name name).symm
        · rw [hend] at hdone
          cases hdone
    | read use n =>
      obtain ⟨kept, hframe⟩ := secureRead_frame S use n d
      obtain rfl := Option.some.inj h
      rw [stored_events]
      refine holdsAt_of_same (hf name) hpath hkey ?_
      rw [hframe]
    | erase removed n =>
      obtain rfl : name = n := hname
      obtain rfl := Option.some.inj h
      rw [stored_events]
      dsimp only
      rcases secureErase_cases removed name d with herase | herase
      · rw [herase, if_neg fun hdone => Bool.false_ne_true hdone.2]
        exact hf name
      · rw [herase, if_pos ⟨rfl, rfl⟩]
        exact (LinkedMap.get?_erase _ _ _).trans (if_pos rfl)
  · rw [stored_events_ne hname]
    exact holdsAt_of_same (hf name) hpath hkey (hfiles name hname)

theorem faithful_run (hS : S.Sound) {calls : List Call} (hf : Faithful S d past)
    (hkept : Always (step S) KeyKept calls d) (hflushed : Always (step S) Flushed calls d)
    (h : run (step S) calls d = some d') : Faithful S d' (past ++ history S calls d) := by
  induction calls generalizing d past with
  | nil =>
    obtain rfl := Option.some.inj h
    rw [history, List.append_nil]
    exact hf
  | cons c calls ih =>
    rw [run_cons, Option.bind_eq_some_iff] at h
    obtain ⟨d₁, hstep, hrun⟩ := h
    have hfaithful := ih (faithful_step hS hf hkept.1 hflushed.1 hstep) (hkept.2 d₁ hstep)
      (hflushed.2 d₁ hstep) hrun
    have hhistory : history S (c :: calls) d = events S c d ++ history S calls d₁ := by
      rw [history, hstep]
      rfl
    rwa [List.append_assoc, ← hhistory] at hfaithful

/-- A name is read as a content, or not at all. -/
def ReadsAs (S : SecretStream) (d : Device) (name : Bytes) : Option Bytes → Prop
  | some data => d.Reads S name data
  | none => ∀ use, (secureRead S use name d).1 = none

theorem HoldsAt.reads {name : Bytes} {content : Option Bytes} (h : HoldsAt S d name content) :
    ReadsAs S d name content := by
  cases content with
  | some data =>
    obtain ⟨hwhere, hvalid, hstores⟩ := h
    exact hstores.reads hwhere hvalid
  | none =>
    intro use
    have hnone : d.vault.get? (vaultFile name) = none := h
    unfold secureRead sealedRead
    rw [hnone]
    split <;> rfl

theorem mem_vaultNames (d : Device) (name : Bytes) :
    name ∈ vaultNames d ↔ name ≠ [] ∧ d.vault.containsKey (vaultFile name) = true := by
  have hstem : name ≠ [] → ziaStem (vaultFile name) = some name := by
    intro hname
    have htake : (vaultFile name).take ((vaultFile name).length - ziaExtension.length) = name := by
      unfold vaultFile
      rw [List.length_append, Nat.add_sub_cancel, List.take_left]
    unfold ziaStem
    dsimp only
    rw [htake, if_pos ⟨hname, rfl⟩]
  unfold vaultNames
  rw [List.mem_insertionSort, List.mem_filterMap]
  constructor
  · rintro ⟨file, hfile, hname⟩
    have hne : name ≠ [] := by
      unfold ziaStem at hname
      dsimp only at hname
      split at hname
      · rename_i hstem
        rw [← Option.some.inj hname]
        exact hstem.1
      · cases hname
    rw [ziaStem_eq_some hname, List.mem_dedup, LinkedMap.mem_keys_iff] at hfile
    exact ⟨hne, hfile⟩
  · rintro ⟨hne, hfile⟩
    exact ⟨vaultFile name, List.mem_dedup.mpr (LinkedMap.mem_keys_iff.mpr hfile), hstem hne⟩

/-- The listing has the names that hold something. -/
theorem mem_vaultNames_iff (hf : Faithful S d past) (name : Bytes) :
    name ∈ vaultNames d ↔ (stored name past).isSome = true := by
  have hholds := hf name
  rw [mem_vaultNames]
  cases hstored : stored name past with
  | some data =>
    rw [hstored] at hholds
    obtain ⟨-, hvalid, key, raw, -, hraw, -⟩ := hholds
    have hne : name ≠ [] := by
      rintro rfl
      cases hvalid
    exact ⟨fun _ => rfl, fun _ => ⟨hne, by rw [LinkedMap.containsKey, hraw]; rfl⟩⟩
  | none =>
    rw [hstored] at hholds
    have hnone : d.vault.get? (vaultFile name) = none := hholds
    rw [LinkedMap.containsKey, hnone]
    constructor
    · rintro ⟨-, hthere⟩
      cases hthere
    · intro hsome
      cases hsome

/-- Whatever else is called, a name is read as before. -/
theorem read_of_other (hf : Faithful S d past) (hkept : KeyKept c d) (h : step S c d = some d')
    {name : Bytes} (hname : name ≠ c.name) {use : ReadUse} (huse : use.Answers) :
    (secureRead S use name d').1 = (secureRead S use name d).1 := by
  obtain ⟨hpath, hfiles⟩ := step_frame h
  have hbefore := hf name
  have hafter := holdsAt_of_same hbefore hpath (fun _ => step_key hkept h) (hfiles name hname)
  cases hstored : stored name past with
  | some data =>
    rw [hstored] at hbefore hafter
    exact (hafter.reads use huse).trans (hbefore.reads use huse).symm
  | none =>
    rw [hstored] at hbefore hafter
    exact (hafter.reads use).trans (hbefore.reads use).symm

/-- As long as closing a stream loses nothing, every name is read as its last write left it, the
listing has the names that were stored, and no call is felt under another name. -/
theorem vault_faithful (hS : S.Sound) {start : Device} {calls : List Call}
    (hempty : start.vault = .empty) (hkept : Always (step S) KeyKept calls start)
    (hflushed : Always (step S) Flushed calls start) (h : run (step S) calls start = some d) :
    (∀ name, ReadsAs S d name (stored name (history S calls start))) ∧
    ((vaultEntries true d).Nodup ∧ ∀ name, name ∈ vaultEntries true d ↔
      (stored name (history S calls start)).isSome = true) ∧
    (∀ c d', KeyKept c d → step S c d = some d' → ∀ name, name ≠ c.name →
      ∀ use : ReadUse, use.Answers → (secureRead S use name d').1 = (secureRead S use name d).1) ∧
    ∀ name, validName name = true → Inside (vaultFile name) ∧ Inside (tmpFile name) := by
  have hf : Faithful S d (history S calls start) := faithful_run hS (faithful_empty hempty) hkept
    hflushed h
  exact ⟨fun name => (hf name).reads, ⟨vaultNames_nodup d, mem_vaultNames_iff hf⟩,
    fun _ _ hcall hstep _ hname _ huse => read_of_other hf hcall hstep hname huse,
    fun _ hvalid => inside_files hvalid⟩

/-! ## The write of the other modules -/

/-- What the write without its temporary file is told of these steps. -/
def BlobUse.coarse (use : BlobUse) : WriteUse :=
  ⟨use.keyStore, use.directory, use.header, use.stream.opened && use.stream.good && use.renamed⟩

/-- Two devices with the same key and the same files of names. -/
def SameVault (d d' : Device) : Prop :=
  d'.masterKey = d.masterKey ∧
    ∀ name, d'.vault.get? (vaultFile name) = d.vault.get? (vaultFile name)

theorem sameVault_tmp (name content : Bytes) (d : Device) :
    SameVault d (putFile d (tmpFile name) content) :=
  ⟨rfl, fun name' => (beside_putFile _ content d).files _ (tmpFile_ne name name').symm⟩

/-- Through the temporary file, with all of its bytes. -/
theorem writeThrough_coarse {use : BlobUse} (name : Bytes) {raw : Bytes} (d : Device)
    (hstop : use.stop = none)
    (hwhole : raw.length ≤ use.stream.early + use.stream.late) :
    (writeThrough use name raw d).1.completed = use.coarse.written ∧
      SameVault (if use.coarse.written then putFile d (vaultFile name) raw else d)
        (writeThrough use name raw d).2 := by
  have hwritten : use.coarse.written =
      (use.stream.opened && use.stream.good && use.renamed) := rfl
  unfold writeThrough
  rw [hwritten, hstop, List.take_of_length_le hwhole]
  cases use.stream.opened with
  | false => exact ⟨rfl, rfl, fun _ => rfl⟩
  | true =>
    cases use.stream.good with
    | false => exact ⟨rfl, sameVault_tmp name raw d⟩
    | true =>
      cases use.renamed with
      | false => exact ⟨rfl, sameVault_tmp name raw d⟩
      | true =>
        refine ⟨rfl, rfl, fun name' => ?_⟩
        have hbeside := (beside_putFile (tmpFile name) raw d).trans (beside_erase _ _)
        have hfile := hbeside.files _ (tmpFile_ne name name').symm
        exact (LinkedMap.get?_insert _ _ _ _).trans
          ((if_congr Iff.rfl rfl hfile).trans (LinkedMap.get?_insert _ _ _ _).symm)

/-- A write that is not stopped and loses nothing is the one without its temporary file. -/
theorem secureWrite_coarse (hS : S.Sound) {use : BlobUse} {name data : Bytes} (d : Device)
    (hstop : use.stop = none)
    (hflushed : minFileBytes + data.length ≤ use.stream.early + use.stream.late) :
    (secureWrite S use name data d).1.completed = (Storage.secureWrite S use.coarse name data d).1 ∧
      SameVault (Storage.secureWrite S use.coarse name data d).2
        (secureWrite S use name data d).2 := by
  unfold secureWrite Storage.secureWrite writeKey
  split
  · exact ⟨rfl, rfl, fun _ => rfl⟩
  have hkeyStore : use.coarse.keyStore = use.keyStore := rfl
  rw [hkeyStore]
  cases hmaster : masterKey use.keyStore d with
  | mk found d₁ =>
    cases found with
    | none => exact ⟨rfl, rfl, fun _ => rfl⟩
    | some key =>
      have hnot : ∀ stop : Stop, use.stop ≠ some stop := fun stop => by rw [hstop]; nofun
      have hdirectory : use.coarse.directory = use.directory := rfl
      dsimp only
      rw [if_neg (hnot .key), if_neg (hnot .directory), hdirectory]
      cases use.directory with
      | false => exact ⟨rfl, rfl, fun _ => rfl⟩
      | true =>
        have hheader : use.coarse.header = use.header := rfl
        unfold writtenFile
        rw [hheader]
        cases use.header with
        | none => exact ⟨rfl, rfl, fun _ => rfl⟩
        | some header =>
          simp only [Option.bind_some, if_true]
          cases hseal : sealFile S key header data with
          | none => exact ⟨rfl, rfl, fun _ => rfl⟩
          | some raw =>
            obtain ⟨hend, hsame⟩ := writeThrough_coarse name d₁ hstop
              ((length_sealFile hS hseal).le.trans hflushed)
            revert hend hsame
            cases use.coarse.written with
            | false => exact fun hend hsame => ⟨hend, hsame⟩
            | true => exact fun hend hsame => ⟨hend, hsame⟩

/-! ## A full disk -/

/-- A disk on which the file of one byte is written as the stream is closed. -/
def wholeFile : StreamUse := ⟨true, 0, true, 42⟩

/-- The same disk, full by then. -/
def lostFile : StreamUse := ⟨true, 0, true, 0⟩

def blobUse (stream : StreamUse) (stop : Option Stop) : BlobUse :=
  ⟨⟨true, true, true, keyZero⟩, true, some (FixedBytes.zero 24), stream, true, stop⟩

def emptyVault : Device := ⟨true, some keyZero, none, .empty⟩

def lostWrite : List Call :=
  [.write (blobUse wholeFile none) [97] [1], .write (blobUse lostFile none) [97] [2]]

/-- The second write succeeds, and then neither content can be read. -/
theorem lostWrite_unreadable :
    ∃ d, run (step namedStream) lostWrite emptyVault = some d ∧
      Always (step namedStream) KeyKept lostWrite emptyVault ∧
      stored [97] (history namedStream lostWrite emptyVault) = some [2] ∧
      ¬ ReadsAs namedStream d [97] (stored [97] (history namedStream lostWrite emptyVault)) := by
  refine ⟨_, rfl, ⟨fun _ => rfl, fun _ _ => ⟨fun _ => rfl, fun _ _ => trivial⟩⟩, by decide, ?_⟩
  have hstored : stored [97] (history namedStream lostWrite emptyVault) = some [2] := by decide
  rw [hstored]
  intro hreads
  have hread := hreads workingRead ⟨rfl, rfl, rfl⟩
  revert hread
  decide

/-- A write, one that stops in its file, one of another name that stops in place, and an erasure. -/
def stoppedWrites : List Call :=
  [.write (blobUse wholeFile none) [97] [1], .write (blobUse wholeFile (some (.file 30))) [97] [2],
    .write (blobUse wholeFile (some .renamed)) [98] [3], .write (blobUse wholeFile none) [99] [4],
    .erase true [99]]

theorem stoppedWrites_read :
    ∃ d, run (step namedStream) stoppedWrites emptyVault = some d ∧
      d.Reads namedStream [97] [1] ∧ d.Reads namedStream [98] [3] ∧
        [99] ∉ vaultEntries true d := by
  have hkept : Always (step namedStream) KeyKept stoppedWrites emptyVault :=
    ⟨fun _ => rfl, fun _ _ => ⟨fun _ => rfl, fun _ _ => ⟨fun _ => rfl, fun _ _ =>
      ⟨fun _ => rfl, fun _ _ => ⟨trivial, fun _ _ => trivial⟩⟩⟩⟩⟩
  have hone : ∀ (stop : Option Stop) (name : Bytes) (b : UInt8) (d : Device),
      Flushed (.write (blobUse wholeFile stop) name [b]) d := fun _ _ _ _ _ _ _ => Nat.le_refl 42
  have hflushed : Always (step namedStream) Flushed stoppedWrites emptyVault :=
    ⟨hone _ _ _ _, fun _ _ => ⟨hone _ _ _ _, fun _ _ => ⟨hone _ _ _ _, fun _ _ =>
      ⟨hone _ _ _ _, fun _ _ => ⟨trivial, fun _ _ => trivial⟩⟩⟩⟩⟩
  have hfirst : stored [97] (history namedStream stoppedWrites emptyVault) = some [1] := by decide
  have hsecond : stored [98] (history namedStream stoppedWrites emptyVault) = some [3] := by decide
  have herased : stored [99] (history namedStream stoppedWrites emptyVault) = none := by decide
  obtain ⟨d, hrun⟩ : ∃ d, run (step namedStream) stoppedWrites emptyVault = some d := ⟨_, rfl⟩
  obtain ⟨hreads, ⟨-, hlisted⟩, -⟩ :=
    vault_faithful namedStream_sound rfl hkept hflushed hrun
  have hone := hreads [97]
  have htwo := hreads [98]
  rw [hfirst] at hone
  rw [hsecond] at htwo
  refine ⟨d, hrun, hone, htwo, ?_⟩
  rw [hlisted, herased]
  exact Bool.false_ne_true

end ZiaCrypte.Storage.SecureBlob
