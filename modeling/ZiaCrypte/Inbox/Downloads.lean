import ZiaCrypte.Inbox.History
import ZiaCrypte.Lib.Paths

/-!
# `downloadAttachment` and `materializeForPlayback`

The name of the file is what the sender wrote. It is put behind the directory and a
separator, and what comes out is a path like any other.
-/
namespace ZiaCrypte.Inbox

open ZiaCrypte.Lib ZiaCrypte.Engine

inductive Plateforme where
  | posix
  | windows
  deriving DecidableEq

namespace Plateforme

/-- `Platform.pathSeparator` -/
def pathSeparator : Plateforme → UInt16
  | posix => 0x2f
  | windows => 0x5c

def estSeparateur : Plateforme → UInt16 → Bool
  | posix, c => c == 0x2f
  | windows, c => c == 0x2f || c == 0x5c

def parties (p : Plateforme) (chemin : Text) : List Text :=
  chemin.splitOnP p.estSeparateur

/-- Windows shortens a path before it follows it. -/
def reduire : Plateforme → List (Hop Text) → List (Hop Text)
  | posix, hops => hops.filter Hop.isMove
  | windows, hops => Hop.shorten hops

end Plateforme

def hop (partie : Text) : Hop Text :=
  if partie = [] ∨ partie = text "." then .stay
  else if partie = text ".." then .up
  else .down partie

abbrev Dossier := Nat

/-- The directories and the files, with what was opened for writing, the latest first. -/
structure Volume where
  /-- Where a path that begins with this part starts. -/
  premier : Text → Option Dossier
  dossiers : Directories Dossier Text
  /-- The file a symbolic link stands for. -/
  liens : Dossier → Text → Option (Dossier × Text)
  fichiers : Dossier → Text → Option Bytes
  /-- The next directory that is created. -/
  suivant : Dossier
  ecritures : List (Dossier × Text)

namespace Volume

/-- The directory a path leads to. -/
def suivre (p : Plateforme) (v : Volume) (parties : List Text) : Option Dossier :=
  match parties with
  | [] => v.premier (text ".")
  | partie :: reste =>
      (v.premier partie).bind fun d => v.dossiers.walk d (p.reduire (reste.map hop))

def dossier (p : Plateforme) (v : Volume) (chemin : Text) : Option Dossier :=
  v.suivre p (p.parties chemin)

/-- The file that is opened under a name; a directory is not. -/
def ouvrir (v : Volume) (d : Dossier) (nom : Text) : Option (Dossier × Text) :=
  let cible := (v.liens d nom).getD (d, nom)
  if (v.dossiers.child cible.1 cible.2).isSome then none else some cible

def ecrire (v : Volume) (cible : Dossier × Text) (bytes : Bytes) : Volume :=
  { v with
    fichiers := fun d nom => if (d, nom) = cible then some bytes else v.fichiers d nom
    ecritures := cible :: v.ecritures }

/-- `File(chemin).writeAsBytes`, which throws where there is no such file to open. -/
def writeAsBytes (p : Plateforme) (v : Volume) (chemin : Text) (bytes : Bytes) :
    Option Volume :=
  match hop ((p.parties chemin).getLastD []) with
  | .down nom => do
      let d ← v.suivre p (p.parties chemin).dropLast
      let cible ← v.ouvrir d nom
      some (v.ecrire cible bytes)
  | _ => none

def ajouter (v : Volume) (d : Dossier) (nom : Text) : Volume :=
  { v with
    dossiers := { v.dossiers with
      parent := fun e => if e = v.suivant then d else v.dossiers.parent e
      child := fun e n => if e = d ∧ n = nom then some v.suivant else v.dossiers.child e n }
    suivant := v.suivant + 1 }

def estPris (v : Volume) (d : Dossier) (nom : Text) : Bool :=
  (v.dossiers.child d nom).isSome || (v.fichiers d nom).isSome || (v.liens d nom).isSome

/-- Creates what is missing; a file in the way ends it. -/
def creer (v : Volume) (d : Dossier) : List (Hop Text) → Volume × Bool
  | [] => (v, true)
  | h :: hops =>
      match v.dossiers.enter d h, h with
      | some e, _ => v.creer e hops
      | none, .down nom =>
          if v.estPris d nom then (v, false) else (v.ajouter d nom).creer v.suivant hops
      | none, _ => (v, false)

/-- `if (!await dir.exists()) await dir.create(recursive: true)` -/
def preparer (p : Plateforme) (v : Volume) (targetDir : Text) : Volume × Bool :=
  if (v.dossier p targetDir).isSome then (v, true)
  else
    match v.premier ((p.parties targetDir).headD []) with
    | none => (v, false)
    | some d => v.creer d (p.reduire ((p.parties targetDir).tail.map hop))

/-- `Directory.systemTemp.createTemp('zia_voice')`: a name that is not taken. -/
def createTemp (p : Plateforme) (v : Volume) (temp suffixe : Text) :
    Option (Volume × Text) := do
  let nom := text "zia_voice" ++ suffixe
  let d ← v.dossier p temp
  if v.estPris d nom then none
  else some (v.ajouter d nom, temp ++ p.pathSeparator :: nom)

end Volume

/-- The attachment is `clair`, unless the session is closed, or the download or the
decryption fails. -/
def downloadAttachment (p : Plateforme) (v : Volume) (clair : Option Bytes)
    (ref : AttachmentRef) (targetDir : Text) : Volume × Option Text :=
  match clair with
  | none => (v, none)
  | some plain =>
      let (v, pret) := v.preparer p targetDir
      if !pret then (v, none)
      else
        let target := targetDir ++ p.pathSeparator :: ref.fileName
        match v.writeAsBytes p target plain with
        | none => (v, none)
        | some v => (v, some target)

/-- Without a path it has thrown. -/
def materializeForPlayback (p : Plateforme) (v : Volume) (clair : Option Bytes)
    (ref : AttachmentRef) (temp suffixe : Text) : Volume × Option Text :=
  match clair with
  | none => (v, none)
  | some plain =>
      match v.createTemp p temp suffixe with
      | none => (v, none)
      | some (v, dir) =>
          let out := dir ++ p.pathSeparator :: ref.fileName
          match v.writeAsBytes p out plain with
          | none => (v, none)
          | some v => (v, some out)

namespace Volume

/-- What was opened is directly in the directory, and the files elsewhere are as they were. -/
structure Dedans (p : Plateforme) (dir : Text) (v v' : Volume) : Prop where
  ecritures : ∃ es, v'.ecritures = es ++ v.ecritures ∧ ∀ e ∈ es, v'.dossier p dir = some e.1
  fichiers : ∀ d nom, v'.dossier p dir ≠ some d → v'.fichiers d nom = v.fichiers d nom

/-- The parts of the name before its last separator lead from the directory back to it, or
nowhere; and its last part is no link to a file elsewhere, or no name of a file. -/
def Revient (p : Plateforme) (v : Volume) (dir nom : Text) : Prop :=
  ∀ fichier, hop ((p.parties nom).getLastD []) = .down fichier →
    ∀ d, v.suivre p (p.parties dir ++ (p.parties nom).dropLast) = some d →
      ∀ cible, v.ouvrir d fichier = some cible → v.dossier p dir = some cible.1

/-! ## The path that is opened -/

variable {p : Plateforme} {v v' : Volume} {dir nom : Text} {bytes : Bytes}

theorem parties_ne_nil (p : Plateforme) (chemin : Text) : p.parties chemin ≠ [] :=
  List.splitOnP_ne_nil p.estSeparateur chemin

/-- The separator that is put between the directory and the name is one of the path. -/
theorem parties_join (p : Plateforme) (dir nom : Text) :
    p.parties (dir ++ p.pathSeparator :: nom) = p.parties dir ++ p.parties nom := by
  refine List.splitOnP_append_cons dir nom ?_
  cases p <;> rfl

/-- What is opened for a name put behind a directory. -/
theorem writeAsBytes_join :
    v.writeAsBytes p (dir ++ p.pathSeparator :: nom) bytes = some v' ↔
      ∃ fichier d cible, hop ((p.parties nom).getLastD []) = .down fichier ∧
        v.suivre p (p.parties dir ++ (p.parties nom).dropLast) = some d ∧
          v.ouvrir d fichier = some cible ∧ v' = v.ecrire cible bytes := by
  have hne := parties_ne_nil p nom
  have hlast : (p.parties dir ++ p.parties nom).getLastD [] = (p.parties nom).getLastD [] := by
    rw [List.getLastD_eq_getLast?, List.getLastD_eq_getLast?, List.getLast?_append_of_ne_nil _ hne]
  unfold writeAsBytes
  rw [parties_join, hlast, List.dropLast_append_of_ne_nil hne]
  constructor
  · intro h
    split at h
    · rename_i fichier hfichier
      obtain ⟨d, hd, h⟩ := Option.bind_eq_some_iff.mp h
      obtain ⟨cible, hcible, h⟩ := Option.bind_eq_some_iff.mp h
      exact ⟨fichier, d, cible, hfichier, hd, hcible, (Option.some.inj h).symm⟩
    · cases h
  · rintro ⟨fichier, d, cible, hfichier, hd, hcible, rfl⟩
    rw [hfichier]
    exact Option.bind_eq_some_iff.mpr ⟨d, hd, Option.bind_eq_some_iff.mpr ⟨cible, hcible, rfl⟩⟩

/-- Nothing was opened, and no file changed. -/
structure Intact (v v' : Volume) : Prop where
  ecritures : v'.ecritures = v.ecritures
  fichiers : v'.fichiers = v.fichiers

theorem Intact.dedans (h : Intact v v') (p : Plateforme) (dir : Text) : Dedans p dir v v' where
  ecritures := ⟨[], h.ecritures, fun e he => absurd he List.not_mem_nil⟩
  fichiers d nom _ := by rw [h.fichiers]

theorem creer_intact (v : Volume) (d : Dossier) (hops : List (Hop Text)) :
    Intact v (v.creer d hops).1 := by
  induction hops generalizing v d with
  | nil => exact ⟨rfl, rfl⟩
  | cons h hops ih =>
    unfold creer
    split
    · exact ih v _
    · rename_i nom _
      split
      · exact ⟨rfl, rfl⟩
      · exact ⟨(ih (v.ajouter d nom) v.suivant).ecritures, (ih (v.ajouter d nom) v.suivant).fichiers⟩
    · exact ⟨rfl, rfl⟩

theorem preparer_intact (p : Plateforme) (v : Volume) (targetDir : Text) :
    Intact v (v.preparer p targetDir).1 := by
  unfold preparer
  split
  · exact ⟨rfl, rfl⟩
  · split
    · exact ⟨rfl, rfl⟩
    · exact creer_intact v _ _

theorem createTemp_intact {temp suffixe chemin : Text}
    (h : v.createTemp p temp suffixe = some (v', chemin)) : Intact v v' := by
  obtain ⟨d, -, h⟩ := Option.bind_eq_some_iff.mp h
  split at h
  · cases h
  · obtain ⟨rfl, -⟩ := Prod.mk.inj (Option.some.inj h)
    exact ⟨rfl, rfl⟩

theorem dossier_ecrire (p : Plateforme) (v : Volume) (cible : Dossier × Text) (bytes : Bytes)
    (dir : Text) : (v.ecrire cible bytes).dossier p dir = v.dossier p dir := by
  unfold dossier suivre
  cases p.parties dir <;> rfl

/-- A write that comes after steps that left the files alone. -/
theorem dedans_write_iff {v₀ : Volume} (hv : Intact v₀ v) :
    Dedans p dir v₀ ((v.writeAsBytes p (dir ++ p.pathSeparator :: nom) bytes).getD v) ↔
      Revient p v dir nom := by
  constructor
  · intro h fichier hfichier d hd cible hcible
    have hwrite : v.writeAsBytes p (dir ++ p.pathSeparator :: nom) bytes =
        some (v.ecrire cible bytes) :=
      writeAsBytes_join.mpr ⟨fichier, d, cible, hfichier, hd, hcible, rfl⟩
    rw [hwrite, Option.getD_some] at h
    obtain ⟨es, hes, hdir⟩ := h.ecritures
    rw [← hv.ecritures] at hes
    have hes' : [cible] ++ v.ecritures = es ++ v.ecritures := hes
    rw [← List.append_cancel_right hes'] at hdir
    rw [← dossier_ecrire p v cible bytes dir]
    exact hdir cible (List.mem_singleton_self cible)
  · intro h
    cases hwrite : v.writeAsBytes p (dir ++ p.pathSeparator :: nom) bytes with
    | none => exact hv.dedans p dir
    | some v' =>
      obtain ⟨fichier, d, cible, hfichier, hd, hcible, rfl⟩ := writeAsBytes_join.mp hwrite
      have hdir := h fichier hfichier d hd cible hcible
      refine ⟨⟨[cible], congrArg (cible :: ·) hv.ecritures, fun e he => ?_⟩, fun e nom' he => ?_⟩
      · rw [List.mem_singleton.mp he, Option.getD_some, dossier_ecrire]
        exact hdir
      · rw [Option.getD_some, dossier_ecrire] at he
        have hne : (e, nom') ≠ cible := by
          rintro rfl
          exact he hdir
        rw [← hv.fichiers]
        exact if_neg hne

end Volume

open Volume

section

variable {p : Plateforme} {v v' : Volume}

theorem downloadAttachment_some (p : Plateforme) (v : Volume) (plain : Bytes)
    (ref : AttachmentRef) (targetDir : Text) :
    (downloadAttachment p v (some plain) ref targetDir).1 =
      if (v.preparer p targetDir).2 then
        ((v.preparer p targetDir).1.writeAsBytes p (targetDir ++ p.pathSeparator :: ref.fileName)
          plain).getD (v.preparer p targetDir).1
      else (v.preparer p targetDir).1 := by
  unfold downloadAttachment
  dsimp only
  cases (v.preparer p targetDir).2 with
  | false => rfl
  | true =>
    rw [if_neg (by decide), if_pos rfl]
    cases (v.preparer p targetDir).1.writeAsBytes p
      (targetDir ++ p.pathSeparator :: ref.fileName) plain <;> rfl

theorem materializeForPlayback_some {temp suffixe dir : Text} {plain : Bytes}
    {ref : AttachmentRef} (h : v.createTemp p temp suffixe = some (v', dir)) :
    (materializeForPlayback p v (some plain) ref temp suffixe).1 =
      (v'.writeAsBytes p (dir ++ p.pathSeparator :: ref.fileName) plain).getD v' := by
  unfold materializeForPlayback
  rw [h]
  dsimp only
  cases v'.writeAsBytes p (dir ++ p.pathSeparator :: ref.fileName) plain <;> rfl

theorem reduire_append {hops hops' : List (Hop Text)} (h : p.reduire hops' = []) :
    p.reduire (hops ++ hops') = p.reduire hops := by
  cases p with
  | posix =>
    have hnone : hops'.filter Hop.isMove = [] := h
    exact (List.filter_append hops hops').trans (by rw [hnone, List.append_nil]; rfl)
  | windows => exact Hop.shorten_append h

end

/-- What the two functions write lies directly in the directory if and only if the name of
the file leads there. -/
theorem telechargement_dedans_iff (p : Plateforme) (v : Volume) (clair : Option Bytes)
    (ref : AttachmentRef) :
    (∀ targetDir, Dedans p targetDir v (downloadAttachment p v clair ref targetDir).1 ↔
      (clair.isSome → (v.preparer p targetDir).2 = true →
        Revient p (v.preparer p targetDir).1 targetDir ref.fileName)) ∧
    (∀ temp suffixe v' dir, v.createTemp p temp suffixe = some (v', dir) →
      (Dedans p dir v (materializeForPlayback p v clair ref temp suffixe).1 ↔
        (clair.isSome → Revient p v' dir ref.fileName))) := by
  cases clair with
  | none =>
    have hv : Intact v v := ⟨rfl, rfl⟩
    refine ⟨fun targetDir => ?_, fun temp suffixe v' dir _ => ?_⟩
    · exact ⟨fun _ hsome => (by cases hsome), fun _ => hv.dedans p targetDir⟩
    · exact ⟨fun _ hsome => (by cases hsome), fun _ => hv.dedans p dir⟩
  | some plain =>
    refine ⟨fun targetDir => ?_, fun temp suffixe v' dir htemp => ?_⟩
    · have hv := preparer_intact p v targetDir
      rw [downloadAttachment_some]
      cases hpret : (v.preparer p targetDir).2 with
      | false => exact ⟨fun _ _ hpret => (by cases hpret), fun _ => hv.dedans p targetDir⟩
      | true =>
        refine (dedans_write_iff hv).trans ⟨fun h _ _ => h, fun h => h rfl rfl⟩
    · rw [materializeForPlayback_some htemp]
      exact (dedans_write_iff (createTemp_intact htemp)).trans ⟨fun h _ => h, fun h => h rfl⟩

/-! ## Names without a way out -/

/-- A name that leads nowhere else before its last separator, such as one without separators,
in a directory without links. -/
theorem revient_of_reduire {p : Plateforme} {v : Volume} {dir nom : Text}
    (hnom : p.reduire ((p.parties nom).dropLast.map hop) = [])
    (hliens : ∀ d fichier, v.dossier p dir = some d → v.liens d fichier = none) :
    Revient p v dir nom := by
  have hsuivre : v.suivre p (p.parties dir ++ (p.parties nom).dropLast) = v.dossier p dir := by
    unfold dossier suivre
    cases hdir : p.parties dir with
    | nil => exact absurd hdir (parties_ne_nil p dir)
    | cons partie reste =>
      dsimp only [List.cons_append]
      rw [List.map_append, reduire_append hnom]
  intro fichier _ d hd cible hcible
  rw [hsuivre] at hd
  unfold ouvrir at hcible
  rw [hliens d fichier hd, Option.getD_none] at hcible
  dsimp only at hcible
  split at hcible
  · cases hcible
  · rw [hd, ← Option.some.inj hcible]

theorem reduire_of_sans_separateur {p : Plateforme} {nom : Text}
    (hnom : nom.any p.estSeparateur = false) :
    p.reduire ((p.parties nom).dropLast.map hop) = [] := by
  have hparties : p.parties nom = [nom] := List.splitOnP_eq_singleton fun c hc =>
    Bool.eq_false_iff.mpr (List.any_eq_false.mp hnom c hc)
  rw [hparties]
  cases p <;> rfl

/-- `/docs` and `/docs/recus`, with a file in each. -/
def sampleVolume : Volume where
  premier partie := if partie = [] then some 0 else none
  dossiers :=
    { parent := fun d => d - 1
      child := fun d nom =>
        if d = 0 ∧ nom = text "docs" then some 1
        else if d = 1 ∧ nom = text "recus" then some 2
        else none }
  liens _ _ := none
  fichiers d nom :=
    if d = 1 ∧ nom = text "cle.txt" then some [1]
    else if d = 2 ∧ nom = text "note.txt" then some [2]
    else none
  suivant := 3
  ecritures := []

def sampleRef (nom : Text) : AttachmentRef where
  id := text "a1"
  keyBase64 := text "k"
  fileName := nom
  size := 1
  voiceDurationMs := none

theorem sampleVolume_dedans :
    Dedans .posix (text "/docs/recus") sampleVolume (downloadAttachment .posix sampleVolume
      (some [9]) (sampleRef (text "photo.png")) (text "/docs/recus")).1 := by
  refine ((telechargement_dedans_iff .posix sampleVolume (some [9])
    (sampleRef (text "photo.png"))).1 (text "/docs/recus")).mpr fun _ _ => ?_
  exact revient_of_reduire (reduire_of_sans_separateur (by decide)) fun _ _ _ => rfl

/-- The name `../cle.txt` takes the place of a file beside the directory. -/
theorem sampleVolume_dehors :
    ¬ Dedans .posix (text "/docs/recus") sampleVolume (downloadAttachment .posix sampleVolume
      (some [9]) (sampleRef (text "../cle.txt")) (text "/docs/recus")).1 := by
  intro h
  exact absurd (h.fichiers 1 (text "cle.txt") (by decide)) (by decide)

end ZiaCrypte.Inbox
