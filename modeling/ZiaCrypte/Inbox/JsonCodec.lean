import ZiaCrypte.Inbox.Utf8
import Mathlib.Data.List.Nodup

/-!
# `jsonEncode` and `jsonDecode`

The encoder writes no white space, and escapes the quote, the backslash, what is below the
space and half a surrogate pair. The decoder takes white space between any two tokens, and
of the fields of one key the last. An integer is not bounded here.
-/
namespace ZiaCrypte.Inbox

/-! ## Characters -/

def guillemet : UInt16 := 0x22
def antislash : UInt16 := 0x5C
def crochet : UInt16 := 0x5B
def crochetFermant : UInt16 := 0x5D
def accolade : UInt16 := 0x7B
def accoladeFermante : UInt16 := 0x7D
def virgule : UInt16 := 0x2C
def deuxPoints : UInt16 := 0x3A
def moins : UInt16 := 0x2D

def hexDigit (n : Nat) : UInt16 := if n < 10 then UInt16.ofNat (48 + n) else UInt16.ofNat (87 + n)

def hexValue (c : UInt16) : Option Nat :=
  if 48 ≤ c ∧ c ≤ 57 then some (c.toNat - 48)
  else if 97 ≤ c ∧ c ≤ 102 then some (c.toNat - 87)
  else if 65 ≤ c ∧ c ≤ 70 then some (c.toNat - 55)
  else none

/-- The letters behind a backslash, and what they stand for. -/
def echappements : List (UInt16 × UInt16) :=
  [(0x22, 0x22), (0x5C, 0x5C), (0x2F, 0x2F), (0x62, 8), (0x66, 12), (0x6E, 10), (0x72, 13),
    (0x74, 9)]

/-! ## Encoding a string -/

def estTete (c : UInt16) : Bool := 0xD800 ≤ c && c < 0xDC00

def estQueue (c : UInt16) : Bool := 0xDC00 ≤ c && c < 0xE000

/-- `\u` and four digits. -/
def echappementU (c : UInt16) : Text :=
  [antislash, 0x75, hexDigit (c.toNat / 4096), hexDigit (c.toNat / 256 % 16),
    hexDigit (c.toNat / 16 % 16), hexDigit (c.toNat % 16)]

/-- A code unit, between the one before it and the one behind it. -/
def unite (avant : Option UInt16) (c : UInt16) (apres : Option UInt16) : Text :=
  if antislash < c then
    if (estTete c && !apres.any estQueue) || (estQueue c && !avant.any estTete) then echappementU c
    else [c]
  else if c < 32 then
    if c = 8 then [antislash, 0x62]
    else if c = 9 then [antislash, 0x74]
    else if c = 10 then [antislash, 0x6E]
    else if c = 12 then [antislash, 0x66]
    else if c = 13 then [antislash, 0x72]
    else echappementU c
  else if c = guillemet ∨ c = antislash then [antislash, c]
  else [c]

/-- `writeStringContent` -/
def contenu (avant : Option UInt16) : Text → Text
  | [] => []
  | c :: cs => unite avant c cs.head? ++ contenu (some c) cs

def chaine (s : Text) : Text := guillemet :: contenu none s ++ [guillemet]

/-! ## Encoding a value -/

/-- The code of an ASCII character. -/
def code (c : Char) : UInt16 := UInt16.ofNat c.toNat

def decimal (n : Int) : Text :=
  (if n < 0 then [moins] else []) ++ (Nat.toDigits 10 n.natAbs).map code

mutual

/-- What is no finite number is refused with an exception, and is nothing here. -/
def jsonEncode : Json → Text
  | .null => text "null"
  | .bool b => if b then text "true" else text "false"
  | .num n => n.elim [] decimal
  | .str s => chaine s
  | .arr elements => crochet :: encodeElements elements ++ [crochetFermant]
  | .obj fields => accolade :: encodeFields fields ++ [accoladeFermante]

def encodeElements : List Json → Text
  | [] => []
  | j :: js => jsonEncode j ++ (if js.isEmpty then [] else [virgule]) ++ encodeElements js

def encodeFields : List (Text × Json) → Text
  | [] => []
  | (k, j) :: fields => chaine k ++ deuxPoints :: jsonEncode j ++
      (if fields.isEmpty then [] else [virgule]) ++ encodeFields fields

end

/-! ## Decoding a string -/

/-- The four digits behind `\u`. -/
def lireHexa (a b c d : UInt16) : Option UInt16 := do
  let a ← hexValue a
  let b ← hexValue b
  let c ← hexValue c
  let d ← hexValue d
  pure (UInt16.ofNat (((a * 16 + b) * 16 + c) * 16 + d))

/-- The rest of a string, and what is behind it. -/
def lireContenu : Text → Option (Text × Text)
  | [] => none
  | c :: rest =>
      if c = guillemet then some ([], rest)
      else if c < 32 then none
      else if c = antislash then
        match rest with
        | [] => none
        | e :: rest =>
            if e = 0x75 then
              match rest with
              | h₁ :: h₂ :: h₃ :: h₄ :: rest => do
                  let c ← lireHexa h₁ h₂ h₃ h₄
                  let (s, rest) ← lireContenu rest
                  pure (c :: s, rest)
              | _ => none
            else do
              let c ← echappements.lookup e
              let (s, rest) ← lireContenu rest
              pure (c :: s, rest)
      else do
        let (s, rest) ← lireContenu rest
        pure (c :: s, rest)

/-! ## Decoding a number -/

def estChiffre (c : UInt16) : Bool := 48 ≤ c && c ≤ 57

def valeur (chiffres : Text) : Nat :=
  Nat.ofDigitChars 10 (chiffres.map fun c => Char.ofNat c.toNat) 0

/-- A part of a number that begins with `marques` and has a digit, if it is there: the part
and what is behind it. -/
def lirePart (marques : List UInt16) (signes : List UInt16) (t : Text) : Option (Text × Text) :=
  match t with
  | [] => some ([], [])
  | c :: rest =>
      if c ∈ marques then
        let signe := rest.takeWhile (· ∈ signes) |>.take 1
        let corps := rest.drop signe.length
        let chiffres := corps.takeWhile estChiffre
        if chiffres = [] then none
        else some (c :: signe ++ chiffres, corps.drop chiffres.length)
      else some ([], t)

/-- `double` is the `toInt()` of a number that is written with a fraction or an exponent, and
none where that is not finite. -/
def lireNombre (double : Text → Option Int) (t : Text) : Option (Option Int × Text) := do
  let signe := t.takeWhile (· = moins) |>.take 1
  let corps := t.drop signe.length
  let chiffres := corps.takeWhile estChiffre
  if chiffres = [] ∨ (chiffres.head? = some 48 ∧ chiffres ≠ [48]) then none
  else
    let (fraction, rest) ← lirePart [0x2E] [] (corps.drop chiffres.length)
    let (exposant, rest) ← lirePart [0x65, 0x45] [moins, 0x2B] rest
    if fraction = [] ∧ exposant = [] then
      pure (some (if signe = [] then valeur chiffres else -valeur chiffres), rest)
    else pure (double (signe ++ chiffres ++ fraction ++ exposant), rest)

/-! ## Decoding a value -/

/-- White space is passed over. -/
def blancs (t : Text) : Text := t.dropWhile fun c => c = 0x20 ∨ c = 9 ∨ c = 10 ∨ c = 13

/-- A field before the others of an object: its place stays, and another of its key takes the
value. -/
def ajouterChamp (k : Text) (j : Json) (fields : List (Text × Json)) : List (Text × Json) :=
  (k, (fields.lookup k).getD j) :: fields.filter (·.1 ≠ k)

variable (double : Text → Option Int)

mutual

/-- A value, and what is behind it; `fuel` bounds the values and the elements it reads one
inside the other. -/
def lireValeur : Nat → Text → Option (Json × Text)
  | 0, _ => none
  | fuel + 1, t =>
      match blancs t with
      | [] => none
      | c :: rest =>
          if c = guillemet then (lireContenu rest).map fun (s, rest) => (.str s, rest)
          else if c = crochet then
            if (blancs rest).head? = some crochetFermant then some (.arr [], (blancs rest).tail)
            else (lireElements fuel rest).map fun (js, rest) => (.arr js, rest)
          else if c = accolade then
            if (blancs rest).head? = some accoladeFermante then some (.obj [], (blancs rest).tail)
            else (lireChamps fuel rest).map fun (fields, rest) => (.obj fields, rest)
          else if startsWith (c :: rest) (text "null") then some (.null, (c :: rest).drop 4)
          else if startsWith (c :: rest) (text "true") then some (.bool true, (c :: rest).drop 4)
          else if startsWith (c :: rest) (text "false") then some (.bool false, (c :: rest).drop 5)
          else (lireNombre double (c :: rest)).map fun (n, rest) => (.num n, rest)

/-- One element or more, to the bracket. -/
def lireElements : Nat → Text → Option (List Json × Text)
  | 0, _ => none
  | fuel + 1, t => do
      let (j, rest) ← lireValeur fuel t
      match blancs rest with
      | [] => none
      | c :: rest =>
          if c = crochetFermant then some ([j], rest)
          else if c = virgule then do
            let (js, rest) ← lireElements fuel rest
            pure (j :: js, rest)
          else none

/-- One field or more, to the brace. -/
def lireChamps : Nat → Text → Option (List (Text × Json) × Text)
  | 0, _ => none
  | fuel + 1, t =>
      match blancs t with
      | [] => none
      | c :: rest =>
          if c ≠ guillemet then none
          else do
            let (k, rest) ← lireContenu rest
            match blancs rest with
            | [] => none
            | c :: rest =>
                if c ≠ deuxPoints then none
                else do
                  let (j, rest) ← lireValeur fuel rest
                  match blancs rest with
                  | [] => none
                  | c :: rest =>
                      if c = accoladeFermante then some ([(k, j)], rest)
                      else if c = virgule then do
                        let (fields, rest) ← lireChamps fuel rest
                        pure (ajouterChamp k j fields, rest)
                      else none

end

/-- Every element takes one code unit at least, so the fuel is never what stops it
(`lireValeur_fuel`). -/
def jsonDecode (t : Text) : Option Json := do
  let (j, rest) ← lireValeur double (2 * t.length + 1) t
  if blancs rest = [] then pure j else none

/-! ## The fuel -/

variable {double}

theorem length_blancs (t : Text) : (blancs t).length ≤ t.length :=
  (List.dropWhile_suffix _).length_le

/-- A character that is read and put in front of what is read behind it. -/
theorem length_suite {α β : Type} {o : Option (α × Text)} {f : α → β} {n m : Nat} (hnm : n ≤ m)
    (h : ∀ r ∈ o, r.2.length < n) :
    ∀ r ∈ (do
      let (a, rest) ← o
      pure (f a, rest) : Option (β × Text)), r.2.length < m := by
  intro r hr
  obtain ⟨r', hr', hpure⟩ := Option.bind_eq_some_iff.mp hr
  obtain rfl := Option.some.inj hpure
  exact Nat.lt_of_lt_of_le (h r' hr') hnm

/-- A string takes the quote at least. -/
theorem lireContenu_length (t : Text) : ∀ r ∈ lireContenu t, r.2.length < t.length := by
  fun_induction lireContenu t with
  | case1 => 
    rintro r ⟨⟩
  | case2 rest =>
    rintro r ⟨⟩
    exact Nat.lt_succ_self _
  | case3 c rest hquote hlow =>
    rintro r ⟨⟩
  | case4 =>
    rintro r ⟨⟩
  | case5 h₁ h₂ h₃ h₄ rest _ _ ih =>
    intro r hr
    obtain ⟨c, -, hr⟩ := Option.bind_eq_some_iff.mp hr
    exact length_suite (f := (c :: ·)) (by simp only [List.length_cons]; omega) ih r hr
  | case6 =>
    rintro r ⟨⟩
  | case7 e rest he _ _ ih =>
    intro r hr
    obtain ⟨c, -, hr⟩ := Option.bind_eq_some_iff.mp hr
    exact length_suite (f := (c :: ·)) (by simp only [List.length_cons]; omega) ih r hr
  | case8 c rest hquote hlow hslash ih =>
    exact length_suite (f := (c :: ·)) (Nat.le_succ _) ih

theorem lirePart_length (marques signes : List UInt16) (t : Text) :
    ∀ r ∈ lirePart marques signes t, r.2.length ≤ t.length := by
  unfold lirePart
  split
  · rintro r ⟨⟩
    exact Nat.le_refl _
  · split
    · dsimp only
      split
      · rintro r ⟨⟩
      · rintro r ⟨⟩
        rw [List.length_drop, List.length_drop, List.length_cons]
        omega
    · rintro r ⟨⟩
      exact Nat.le_refl _

/-- A number takes a digit at least. -/
theorem lireNombre_length (t : Text) : ∀ r ∈ lireNombre double t, r.2.length < t.length := by
  intro r hr
  unfold lireNombre at hr
  dsimp only at hr
  split at hr
  · cases hr
  · rename_i hdigits
    obtain ⟨fraction, hfraction, hr⟩ := Option.bind_eq_some_iff.mp hr
    obtain ⟨exposant, hexposant, hr⟩ := Option.bind_eq_some_iff.mp hr
    have hf := lirePart_length _ _ _ _ hfraction
    have he := lirePart_length _ _ _ _ hexposant
    have hrest : r.2 = exposant.2 := by
      split at hr <;> obtain rfl := Option.some.inj hr <;> rfl
    generalize hcorps : t.drop _ = corps at *
    have hle : corps.length ≤ t.length := by
      rw [← hcorps, List.length_drop]
      exact Nat.sub_le _ _
    have hpos : 0 < (corps.takeWhile estChiffre).length :=
      List.length_pos_of_ne_nil fun h => hdigits (.inl h)
    have hmax : (corps.takeWhile estChiffre).length ≤ corps.length :=
      (List.takeWhile_prefix _).length_le
    rw [List.length_drop] at hf
    rw [hrest]
    omega

mutual

theorem lireValeur_length (fuel : Nat) (t : Text) :
    ∀ r ∈ lireValeur double fuel t, r.2.length < t.length := by
  cases fuel with
  | zero => rintro r ⟨⟩
  | succ fuel =>
    intro r hr
    have hblancs := length_blancs t
    rw [lireValeur] at hr
    split at hr
    · cases hr
    · rename_i c rest heq
      rw [heq, List.length_cons] at hblancs
      have hvide := length_blancs rest
      have hdrop : ∀ n, 0 < n → ((c :: rest).drop n).length < t.length := by
        intro n hn
        rw [List.length_drop, List.length_cons]
        omega
      have htail : (blancs rest).tail.length < t.length := by
        rw [List.length_tail]
        omega
      split_ifs at hr
      · obtain ⟨r', hr', rfl⟩ := Option.map_eq_some_iff.mp hr
        have hlt := lireContenu_length rest r' hr'
        show r'.2.length < t.length
        omega
      · obtain rfl := Option.some.inj hr
        exact htail
      · obtain ⟨r', hr', rfl⟩ := Option.map_eq_some_iff.mp hr
        have hlt := lireElements_length fuel rest r' hr'
        show r'.2.length < t.length
        omega
      · obtain rfl := Option.some.inj hr
        exact htail
      · obtain ⟨r', hr', rfl⟩ := Option.map_eq_some_iff.mp hr
        have hlt := lireChamps_length fuel rest r' hr'
        show r'.2.length < t.length
        omega
      · obtain rfl := Option.some.inj hr
        exact hdrop 4 (by decide)
      · obtain rfl := Option.some.inj hr
        exact hdrop 4 (by decide)
      · obtain rfl := Option.some.inj hr
        exact hdrop 5 (by decide)
      · obtain ⟨r', hr', rfl⟩ := Option.map_eq_some_iff.mp hr
        have hlt := lireNombre_length (c :: rest) r' hr'
        rw [List.length_cons] at hlt
        show r'.2.length < t.length
        omega

theorem lireElements_length (fuel : Nat) (t : Text) :
    ∀ r ∈ lireElements double fuel t, r.2.length < t.length := by
  cases fuel with
  | zero => rintro r ⟨⟩
  | succ fuel =>
    intro r hr
    rw [lireElements] at hr
    obtain ⟨⟨j, suite⟩, hj, hr⟩ := Option.bind_eq_some_iff.mp hr
    have hsuite := lireValeur_length fuel t _ hj
    have hblancs := length_blancs suite
    dsimp only at hr hsuite
    split at hr
    · cases hr
    · rename_i c rest heq
      rw [heq, List.length_cons] at hblancs
      split_ifs at hr
      · obtain rfl := Option.some.inj hr
        show rest.length < t.length
        omega
      · exact length_suite (f := (j :: ·)) (by omega) (lireElements_length fuel rest) r hr

theorem lireChamps_length (fuel : Nat) (t : Text) :
    ∀ r ∈ lireChamps double fuel t, r.2.length < t.length := by
  cases fuel with
  | zero => rintro r ⟨⟩
  | succ fuel =>
    intro r hr
    have hblancs := length_blancs t
    rw [lireChamps] at hr
    split at hr
    · cases hr
    rename_i c rest heq
    rw [heq, List.length_cons] at hblancs
    split at hr
    · cases hr
    obtain ⟨⟨k, suite⟩, hk, hr⟩ := Option.bind_eq_some_iff.mp hr
    have hsuite := lireContenu_length rest _ hk
    have hblancs' := length_blancs suite
    dsimp only at hr hsuite
    split at hr
    · cases hr
    rename_i c' rest' heq'
    rw [heq', List.length_cons] at hblancs'
    split at hr
    · cases hr
    obtain ⟨⟨j, suite'⟩, hj, hr⟩ := Option.bind_eq_some_iff.mp hr
    have hsuite' := lireValeur_length fuel rest' _ hj
    have hblancs'' := length_blancs suite'
    dsimp only at hr hsuite'
    split at hr
    · cases hr
    rename_i c'' rest'' heq''
    rw [heq'', List.length_cons] at hblancs''
    split_ifs at hr
    · obtain rfl := Option.some.inj hr
      show rest''.length < t.length
      omega
    · exact length_suite (f := ajouterChamp k j) (by omega) (lireChamps_length fuel rest'') r hr

end

mutual

/-- Past twice the length of the text, more fuel reads the same. -/
theorem lireValeur_succ (fuel : Nat) (t : Text) (h : 2 * t.length ≤ fuel) :
    lireValeur double (fuel + 1) t = lireValeur double fuel t := by
  have hblancs := length_blancs t
  cases fuel with
  | zero =>
    obtain rfl := List.eq_nil_of_length_eq_zero (by omega : t.length = 0)
    rfl
  | succ fuel =>
    rw [lireValeur, lireValeur]
    split
    · rfl
    · rename_i c rest heq
      rw [heq, List.length_cons] at hblancs
      rw [lireElements_succ fuel rest (by omega), lireChamps_succ fuel rest (by omega)]

theorem lireElements_succ (fuel : Nat) (t : Text) (h : 2 * t.length + 1 ≤ fuel) :
    lireElements double (fuel + 1) t = lireElements double fuel t := by
  cases fuel with
  | zero => cases h
  | succ fuel =>
    rw [lireElements, lireElements, lireValeur_succ fuel t (by omega)]
    cases hj : lireValeur double fuel t with
    | none => rfl
    | some r =>
      have hsuite := lireValeur_length fuel t r hj
      have hblancs := length_blancs r.2
      simp only [Option.bind_eq_bind, Option.bind_some]
      split
      · rfl
      · rename_i c rest heq
        rw [heq, List.length_cons] at hblancs
        rw [lireElements_succ fuel rest (by omega)]

theorem lireChamps_succ (fuel : Nat) (t : Text) (h : 2 * t.length + 1 ≤ fuel) :
    lireChamps double (fuel + 1) t = lireChamps double fuel t := by
  have hblancs := length_blancs t
  cases fuel with
  | zero => cases h
  | succ fuel =>
    rw [lireChamps, lireChamps]
    split
    · rfl
    rename_i c rest heq
    rw [heq, List.length_cons] at hblancs
    split
    · rfl
    cases hk : lireContenu rest with
    | none => rfl
    | some r =>
      have hsuite := lireContenu_length rest r hk
      have hblancs' := length_blancs r.2
      simp only [Option.bind_eq_bind, Option.bind_some]
      split
      · rfl
      rename_i c' rest' heq'
      rw [heq', List.length_cons] at hblancs'
      rw [lireValeur_succ fuel rest' (by omega)]
      split
      · rfl
      cases hj : lireValeur double fuel rest' with
      | none => rfl
      | some r' =>
        have hsuite' := lireValeur_length fuel rest' r' hj
        have hblancs'' := length_blancs r'.2
        simp only [Option.bind_some]
        split
        · rfl
        rename_i c'' rest'' heq''
        rw [heq'', List.length_cons] at hblancs''
        rw [lireChamps_succ fuel rest'' (by omega)]

end

/-- The fuel that a text is decoded with is never what stops it: more of it reads the same. -/
theorem lireValeur_fuel (t : Text) {fuel : Nat} (h : 2 * t.length + 1 ≤ fuel) :
    lireValeur double fuel t = lireValeur double (2 * t.length + 1) t := by
  induction h with
  | refl => rfl
  | step hle ih =>
    rw [lireValeur_succ _ t (Nat.le_of_succ_le hle), ih]

/-! ## Strings there and back -/

theorem hexValue_hexDigit {n : Nat} (h : n < 16) : hexValue (hexDigit n) = some n := by
  revert n
  decide

theorem lireHexa_hexDigit (c : UInt16) :
    lireHexa (hexDigit (c.toNat / 4096)) (hexDigit (c.toNat / 256 % 16))
      (hexDigit (c.toNat / 16 % 16)) (hexDigit (c.toNat % 16)) = some c := by
  have hc := c.toNat_lt
  have hsum : ((c.toNat / 4096 * 16 + c.toNat / 256 % 16) * 16 + c.toNat / 16 % 16) * 16 +
      c.toNat % 16 = c.toNat := by omega
  unfold lireHexa
  rw [hexValue_hexDigit (by omega), hexValue_hexDigit (by omega), hexValue_hexDigit (by omega),
    hexValue_hexDigit (by omega)]
  show some (UInt16.ofNat _) = some c
  rw [hsum, UInt16.ofNat_toNat]

/-- A code unit in front of what is read. -/
def devant (c : UInt16) (r : Text × Text) : Text × Text := (c :: r.1, r.2)

theorem lireContenu_echappementU (c : UInt16) (t : Text) :
    lireContenu (echappementU c ++ t) = (lireContenu t).map (devant c) := by
  unfold echappementU
  rw [List.cons_append, lireContenu.eq_def]
  dsimp only
  rw [if_neg (by decide), if_neg (by decide), if_pos rfl]
  show (do
    let c ← lireHexa _ _ _ _
    let (s, rest) ← lireContenu t
    pure (c :: s, rest)) = _
  rw [lireHexa_hexDigit]
  cases lireContenu t <;> rfl

/-- A letter behind a backslash. -/
theorem lireContenu_echappement {e c : UInt16} (he : e ≠ 0x75)
    (hlookup : echappements.lookup e = some c) (t : Text) :
    lireContenu (antislash :: e :: t) = (lireContenu t).map (devant c) := by
  rw [lireContenu.eq_def]
  dsimp only
  rw [if_neg (by decide), if_neg (by decide), if_pos rfl, if_neg he, hlookup]
  cases lireContenu t <;> rfl

/-- A code unit that stands for itself. -/
theorem lireContenu_simple {c : UInt16} (hquote : c ≠ guillemet) (hlow : ¬ c < 32)
    (hslash : c ≠ antislash) (t : Text) :
    lireContenu (c :: t) = (lireContenu t).map (devant c) := by
  rw [lireContenu.eq_def]
  dsimp only
  rw [if_neg hquote, if_neg hlow, if_neg hslash]
  cases lireContenu t <;> rfl

/-- Whatever stands around a code unit, it is read as it was. -/
theorem lireContenu_unite (avant : Option UInt16) (c : UInt16) (apres : Option UInt16) (t : Text) :
    lireContenu (unite avant c apres ++ t) = (lireContenu t).map (devant c) := by
  unfold unite
  split
  · rename_i hhigh
    split
    · exact lireContenu_echappementU c t
    · refine lireContenu_simple ?_ ?_ ?_ t
      · rintro rfl
        exact absurd hhigh (by decide)
      · rw [UInt16.lt_iff_toNat_lt] at hhigh ⊢
        have hslash : antislash.toNat = 92 := rfl
        have hspace : (32 : UInt16).toNat = 32 := rfl
        omega
      · rintro rfl
        exact absurd hhigh (by decide)
  · split
    · split_ifs with h8 h9 h10 h12 h13
      · rw [h8]
        exact lireContenu_echappement (by decide) rfl t
      · rw [h9]
        exact lireContenu_echappement (by decide) rfl t
      · rw [h10]
        exact lireContenu_echappement (by decide) rfl t
      · rw [h12]
        exact lireContenu_echappement (by decide) rfl t
      · rw [h13]
        exact lireContenu_echappement (by decide) rfl t
      · exact lireContenu_echappementU c t
    · rename_i hlow
      split
      · rename_i hescape
        rcases hescape with rfl | rfl
        · exact lireContenu_echappement (by decide) rfl t
        · exact lireContenu_echappement (by decide) rfl t
      · rename_i hplain
        exact lireContenu_simple (fun h => hplain (.inl h)) hlow (fun h => hplain (.inr h)) t

theorem lireContenu_contenu (avant : Option UInt16) (s rest : Text) :
    lireContenu (contenu avant s ++ guillemet :: rest) = some (s, rest) := by
  induction s generalizing avant with
  | nil =>
    show lireContenu (guillemet :: rest) = _
    rw [lireContenu.eq_def]
    exact if_pos rfl
  | cons c s ih =>
    rw [contenu, List.append_assoc, lireContenu_unite, ih]
    rfl

/-! ## Numbers there and back -/

/-- What follows a value in a text that was encoded. -/
def Terminee (rest : Text) : Prop :=
  ∀ c ∈ rest.head?, c = virgule ∨ c = crochetFermant ∨ c = accoladeFermante

theorem digit_code {c : Char} (h : c.isDigit = true) :
    estChiffre (code c) = true ∧ Char.ofNat (code c).toNat = c := by
  have hlow : 48 ≤ c.toNat ∧ c.toNat ≤ 57 := Char.isDigit_iff_toNat.mp h
  have hsize : c.toNat < 2 ^ 16 := by omega
  have hcode : (code c).toNat = c.toNat := UInt16.toNat_ofNat_of_lt' hsize
  refine ⟨?_, ?_⟩
  · unfold estChiffre
    rw [Bool.and_eq_true, decide_eq_true_iff, decide_eq_true_iff, UInt16.le_iff_toNat_le,
      UInt16.le_iff_toNat_le, hcode]
    exact hlow
  · rw [hcode, Char.ofNat_toNat]

theorem isDigit_toDigits {n : Nat} {c : Char} (h : c ∈ Nat.toDigits 10 n) : c.isDigit = true :=
  Nat.isDigit_of_mem_toDigits (by decide) (by decide) h

theorem estChiffre_toDigits {n : Nat} {c : UInt16} (h : c ∈ (Nat.toDigits 10 n).map code) :
    estChiffre c = true := by
  obtain ⟨d, hd, rfl⟩ := List.mem_map.mp h
  exact (digit_code (isDigit_toDigits hd)).1

theorem valeur_toDigits (n : Nat) : valeur ((Nat.toDigits 10 n).map code) = n := by
  have hback : ((Nat.toDigits 10 n).map code).map (fun c => Char.ofNat c.toNat) =
      Nat.toDigits 10 n := by
    rw [List.map_map]
    exact (List.map_congr_left fun c hc => (digit_code (isDigit_toDigits hc)).2).trans
      (List.map_id _)
  unfold valeur
  rw [hback]
  exact Nat.ofDigitChars_ten_toDigits

/-- No number but zero begins with a zero. -/
theorem head?_toDigits {n : Nat} (hn : 0 < n) : (Nat.toDigits 10 n).head? ≠ some '0' := by
  induction n using Nat.strongRecOn with
  | ind n ih =>
    by_cases hlt : n < 10
    · rw [Nat.toDigits_of_lt_base hlt]
      have hdigits : ∀ n < 10, 0 < n → [n.digitChar].head? ≠ some '0' := by decide
      exact hdigits n hlt hn
    · have hpos : 0 < n / 10 := by omega
      rw [Nat.toDigits_of_base_le (by decide) (by omega), List.head?_append_of_ne_nil _
        Nat.toDigits_ne_nil]
      exact ih (n / 10) (by omega) hpos

theorem takeWhile_append {α : Type} {p : α → Bool} {l l' : List α} (hl : ∀ a ∈ l, p a = true)
    (hl' : ∀ a ∈ l'.head?, p a = false) : (l ++ l').takeWhile p = l := by
  rw [List.takeWhile_append_of_pos hl]
  cases l' with
  | nil => rw [List.takeWhile_nil, List.append_nil]
  | cons a l' =>
    rw [List.takeWhile_cons_of_neg (by rw [hl' a rfl]; exact Bool.false_ne_true), List.append_nil]

/-- Nothing of a number is behind it. -/
theorem Terminee.lirePart {rest : Text} (h : Terminee rest) {marques : List UInt16}
    (signes : List UInt16) (hmarques : virgule ∉ marques ∧ crochetFermant ∉ marques ∧
      accoladeFermante ∉ marques) : lirePart marques signes rest = some ([], rest) := by
  cases rest with
  | nil => rfl
  | cons c rest =>
    have hc : c ∉ marques := by
      rcases h c rfl with rfl | rfl | rfl
      · exact hmarques.1
      · exact hmarques.2.1
      · exact hmarques.2.2
    exact if_neg hc

theorem Terminee.estChiffre {rest : Text} (h : Terminee rest) :
    ∀ c ∈ rest.head?, estChiffre c = false := by
  intro c hc
  rcases h c hc with rfl | rfl | rfl <;> rfl

/-- The digits of a number behind its sign. -/
theorem lireNombre_chiffres {signe : Text} {n : Nat} {rest : Text}
    (hsigne : ((signe ++ ((Nat.toDigits 10 n).map code ++ rest)).takeWhile (· = moins)).take 1 =
      signe) (hrest : Terminee rest) :
    lireNombre double (signe ++ ((Nat.toDigits 10 n).map code ++ rest)) =
      some (some (if signe = [] then (n : Int) else -n), rest) := by
  have hdigits : ((Nat.toDigits 10 n).map code ++ rest).takeWhile estChiffre =
      (Nat.toDigits 10 n).map code :=
    takeWhile_append (fun c => estChiffre_toDigits) hrest.estChiffre
  have hne : (Nat.toDigits 10 n).map code ≠ [] := by
    rw [Ne, List.map_eq_nil_iff]
    exact Nat.toDigits_ne_nil
  have hzero : ¬ (((Nat.toDigits 10 n).map code).head? = some 48 ∧
      (Nat.toDigits 10 n).map code ≠ [48]) := by
    rintro ⟨hhead, hmore⟩
    rcases Nat.eq_zero_or_pos n with rfl | hn
    · exact hmore rfl
    · rw [List.head?_map, Option.map_eq_some_iff] at hhead
      obtain ⟨c, hc, hcode⟩ := hhead
      have hback := (digit_code (isDigit_toDigits (List.mem_of_head? hc))).2
      rw [hcode] at hback
      exact head?_toDigits hn (hc.trans (congrArg some hback.symm))
  have hfraction : lirePart [0x2E] [] rest = some ([], rest) := hrest.lirePart _ (by decide)
  have hexposant : lirePart [0x65, 0x45] [moins, 0x2B] rest = some ([], rest) :=
    hrest.lirePart _ (by decide)
  unfold lireNombre
  dsimp only
  rw [hsigne, List.drop_left, hdigits, if_neg (not_or.mpr ⟨hne, hzero⟩), List.drop_left, hfraction]
  simp only [Option.bind_eq_bind, Option.bind_some, hexposant, and_self, if_true, valeur_toDigits,
    Option.pure_def]

theorem lireNombre_decimal (n : Int) {rest : Text}
    (hrest : Terminee rest) : lireNombre double (decimal n ++ rest) = some (some n, rest) := by
  unfold decimal
  rw [List.append_assoc]
  by_cases hn : n < 0
  · rw [if_pos hn, lireNombre_chiffres (by rfl) hrest, if_neg (List.cons_ne_nil _ _)]
    congr
    omega
  · have hsigne : ((([] : Text) ++ ((Nat.toDigits 10 n.natAbs).map code ++ rest)).takeWhile
        (· = moins)).take 1 = [] := by
      obtain ⟨c, cs, hcs⟩ :=
        List.exists_cons_of_ne_nil (Nat.toDigits_ne_nil (b := 10) (n := n.natAbs))
      have hc : code c ≠ moins := by
        intro heq
        have hdigit := (digit_code (isDigit_toDigits (n := n.natAbs) (hcs ▸ List.mem_cons_self))).1
        rw [heq] at hdigit
        exact absurd hdigit (by decide)
      rw [hcs, List.nil_append, List.map_cons, List.cons_append,
        List.takeWhile_cons_of_neg (by simpa using hc)]
      rfl
    rw [if_neg hn, lireNombre_chiffres hsigne hrest, if_pos rfl]
    congr
    omega

/-! ## Values there and back -/

mutual

/-- Its numbers are finite, and a key of an object stands there once. -/
def Json.Regulier : Json → Prop
  | .null => True
  | .bool _ => True
  | .num n => n.isSome = true
  | .str _ => True
  | .arr elements => ElementsReguliers elements
  | .obj fields => (fields.map (·.1)).Nodup ∧ ChampsReguliers fields

def ElementsReguliers : List Json → Prop
  | [] => True
  | j :: js => j.Regulier ∧ ElementsReguliers js

def ChampsReguliers : List (Text × Json) → Prop
  | [] => True
  | (_, j) :: fields => j.Regulier ∧ ChampsReguliers fields

end

/-- A character that no value ends before and that is no white space. -/
def Commence (c : UInt16) : Prop :=
  c ≠ 0x20 ∧ c ≠ 9 ∧ c ≠ 10 ∧ c ≠ 13 ∧ c ≠ crochetFermant ∧ c ≠ accoladeFermante

instance : DecidablePred Commence := fun _ => inferInstanceAs (Decidable (_ ∧ _))

theorem blancs_cons {c : UInt16} (hc : Commence c) (t : Text) : blancs (c :: t) = c :: t :=
  List.dropWhile_cons_of_neg (by simpa using ⟨hc.1, hc.2.1, hc.2.2.1, hc.2.2.2.1⟩)

theorem chaine_append (s t : Text) :
    chaine s ++ t = guillemet :: (contenu none s ++ guillemet :: t) := by
  simp [chaine]

theorem lireValeur_chaine (fuel : Nat) (s rest : Text) :
    lireValeur double (fuel + 1) (chaine s ++ rest) = some (.str s, rest) := by
  rw [lireValeur, chaine_append, blancs_cons (by decide)]
  dsimp only
  rw [if_pos rfl, lireContenu_contenu]
  rfl

theorem lireValeur_constante (fuel : Nat) (rest : Text) :
    lireValeur double (fuel + 1) (text "null" ++ rest) = some (.null, rest) ∧
      lireValeur double (fuel + 1) (text "true" ++ rest) = some (.bool true, rest) ∧
      lireValeur double (fuel + 1) (text "false" ++ rest) = some (.bool false, rest) :=
  ⟨rfl, rfl, rfl⟩

/-- The first character of a number. -/
theorem decimal_cons (n : Int) :
    ∃ c cs, decimal n = c :: cs ∧ (c = moins ∨ estChiffre c = true) := by
  unfold decimal
  by_cases hn : n < 0
  · rw [if_pos hn]
    exact ⟨moins, _, rfl, .inl rfl⟩
  · obtain ⟨c, cs, hcs⟩ :=
      List.exists_cons_of_ne_nil (Nat.toDigits_ne_nil (b := 10) (n := n.natAbs))
    rw [if_neg hn, hcs]
    exact ⟨code c, cs.map code, rfl,
      .inr (digit_code (isDigit_toDigits (n := n.natAbs) (hcs ▸ List.mem_cons_self))).1⟩

theorem commence_nombre {c : UInt16} (h : c = moins ∨ estChiffre c = true) :
    Commence c ∧ c ≠ guillemet ∧ c ≠ crochet ∧ c ≠ accolade ∧ c ≠ 0x6E ∧ c ≠ 0x74 ∧ c ≠ 0x66 := by
  have hrange : 45 ≤ c.toNat ∧ c.toNat ≤ 57 := by
    rcases h with rfl | h
    · decide
    · unfold estChiffre at h
      rw [Bool.and_eq_true, decide_eq_true_iff, decide_eq_true_iff, UInt16.le_iff_toNat_le,
        UInt16.le_iff_toNat_le] at h
      have hlow : (48 : UInt16).toNat = 48 := rfl
      have hhigh : (57 : UInt16).toNat = 57 := rfl
      omega
  have hne : ∀ d : UInt16, (d.toNat < 45 ∨ 57 < d.toNat) → c ≠ d := by
    rintro d hd rfl
    omega
  exact ⟨⟨hne _ (by decide), hne _ (by decide), hne _ (by decide), hne _ (by decide),
    hne _ (by decide), hne _ (by decide)⟩, hne _ (by decide), hne _ (by decide), hne _ (by decide),
    hne _ (by decide), hne _ (by decide), hne _ (by decide)⟩

theorem lireValeur_decimal (fuel : Nat) (n : Int) {rest : Text} (hrest : Terminee rest) :
    lireValeur double (fuel + 1) (decimal n ++ rest) = some (.num (some n), rest) := by
  have hnombre : lireNombre double (decimal n ++ rest) = some (some n, rest) :=
    lireNombre_decimal n hrest
  obtain ⟨c, cs, hcs, hc⟩ := decimal_cons n
  obtain ⟨hcommence, hquote, hbracket, hbrace, hn, ht, hf⟩ := commence_nombre hc
  have hword : ∀ (d : UInt16) (ds : Text), c ≠ d →
      startsWith (c :: (cs ++ rest)) (d :: ds) = false := by
    intro d ds hne
    exact Bool.and_eq_false_iff.mpr (.inl (beq_false_of_ne hne.symm))
  have hnull := hword 0x6E (text "ull") hn
  have htrue := hword 0x74 (text "rue") ht
  have hfalse := hword 0x66 (text "alse") hf
  rw [hcs, List.cons_append] at hnombre ⊢
  rw [lireValeur, blancs_cons hcommence]
  dsimp only
  rw [if_neg hquote, if_neg hbracket, if_neg hbrace]
  change (if startsWith _ (0x6E :: text "ull") then _ else
    if startsWith _ (0x74 :: text "rue") then _ else
    if startsWith _ (0x66 :: text "alse") then _ else _) = _
  rw [hnull, htrue, hfalse, hnombre]
  rfl

theorem jsonEncode_cons {j : Json} (h : j.Regulier) :
    ∃ c cs, jsonEncode j = c :: cs ∧ Commence c := by
  cases j with
  | null => exact ⟨0x6E, _, rfl, by decide⟩
  | bool b =>
    cases b
    · exact ⟨0x66, _, rfl, by decide⟩
    · exact ⟨0x74, _, rfl, by decide⟩
  | num n =>
    cases n with
    | none => cases h
    | some n =>
      obtain ⟨c, cs, hcs, hc⟩ := decimal_cons n
      exact ⟨c, cs, hcs, (commence_nombre hc).1⟩
  | str s => exact ⟨guillemet, _, rfl, by decide⟩
  | arr elements => exact ⟨crochet, _, rfl, by decide⟩
  | obj fields => exact ⟨accolade, _, rfl, by decide⟩

theorem encodeElements_cons {js : List Json} (hne : js ≠ []) (h : ElementsReguliers js) :
    ∃ c cs, encodeElements js = c :: cs ∧ Commence c := by
  cases js with
  | nil => exact absurd rfl hne
  | cons j js =>
    obtain ⟨c, cs, hcs, hc⟩ := jsonEncode_cons h.1
    exact ⟨c, _, by rw [encodeElements, hcs]; rfl, hc⟩

theorem encodeFields_cons {fields : List (Text × Json)} (hne : fields ≠ []) :
    ∃ cs, encodeFields fields = guillemet :: cs := by
  cases fields with
  | nil => exact absurd rfl hne
  | cons field fields => exact ⟨_, rfl⟩

theorem terminee_cons {c : UInt16} (h : c = virgule ∨ c = crochetFermant ∨ c = accoladeFermante)
    (rest : Text) : Terminee (c :: rest) := by
  intro d hd
  obtain rfl := Option.some.inj hd
  exact h

/-- An element that is read, and what is behind it. -/
theorem lireElements_last {fuel : Nat} {j : Json} {t rest : Text}
    (h : lireValeur double fuel t = some (j, crochetFermant :: rest)) :
    lireElements double (fuel + 1) t = some ([j], rest) := by
  rw [lireElements, h]
  rfl

theorem lireElements_more {fuel : Nat} {j : Json} {js : List Json} {t suite rest : Text}
    (h : lireValeur double fuel t = some (j, virgule :: suite))
    (hsuite : lireElements double fuel suite = some (js, rest)) :
    lireElements double (fuel + 1) t = some (j :: js, rest) := by
  rw [lireElements, h]
  show (do
    let (js, rest) ← lireElements double fuel suite
    pure (j :: js, rest)) = _
  rw [hsuite]
  rfl

/-- A key and its colon are read, whatever comes after. -/
theorem lireChamps_cle (fuel : Nat) (k t : Text) :
    lireChamps double (fuel + 1) (chaine k ++ deuxPoints :: t) = (do
      let (j, rest) ← lireValeur double fuel t
      match blancs rest with
      | [] => none
      | c :: rest =>
          if c = accoladeFermante then some ([(k, j)], rest)
          else if c = virgule then do
            let (fields, rest) ← lireChamps double fuel rest
            pure (ajouterChamp k j fields, rest)
          else none) := by
  rw [lireChamps, chaine_append, blancs_cons (by decide)]
  dsimp only
  rw [if_neg (by decide), lireContenu_contenu]
  rfl

theorem lireChamps_last {fuel : Nat} {k t rest : Text} {j : Json}
    (h : lireValeur double fuel t = some (j, accoladeFermante :: rest)) :
    lireChamps double (fuel + 1) (chaine k ++ deuxPoints :: t) = some ([(k, j)], rest) := by
  rw [lireChamps_cle, h]
  rfl

theorem lireChamps_more {fuel : Nat} {k t suite rest : Text} {j : Json}
    {fields : List (Text × Json)} (h : lireValeur double fuel t = some (j, virgule :: suite))
    (hsuite : lireChamps double fuel suite = some (fields, rest)) :
    lireChamps double (fuel + 1) (chaine k ++ deuxPoints :: t) =
      some (ajouterChamp k j fields, rest) := by
  rw [lireChamps_cle, h]
  show (do
    let (fields, rest) ← lireChamps double fuel suite
    pure (ajouterChamp k j fields, rest)) = _
  rw [hsuite]
  rfl

/-- A key that is new stands before the others. -/
theorem ajouterChamp_of_not_mem {k : Text} {j : Json} {fields : List (Text × Json)}
    (h : k ∉ fields.map (·.1)) : ajouterChamp k j fields = (k, j) :: fields := by
  have hlookup : fields.lookup k = none := by
    rw [List.lookup_eq_none_iff]
    rintro ⟨k', j'⟩ hmem
    exact bne_iff_ne.mpr fun heq => h (List.mem_map.mpr ⟨_, hmem, heq.symm⟩)
  have hfilter : fields.filter (·.1 ≠ k) = fields := by
    rw [List.filter_eq_self]
    intro e he
    simpa using fun heq => h (List.mem_map.mpr ⟨e, he, heq⟩)
  rw [ajouterChamp, hlookup, hfilter]
  rfl

mutual

/-- What was encoded is read, up to what is behind it. -/
theorem lireValeur_jsonEncode (j : Json) (rest : Text) (fuel : Nat) (hj : j.Regulier)
    (hrest : Terminee rest) (hfuel : 2 * (jsonEncode j ++ rest).length ≤ fuel) :
    lireValeur double fuel (jsonEncode j ++ rest) = some (j, rest) := by
  obtain ⟨c, cs, hcs, hc⟩ := jsonEncode_cons hj
  obtain ⟨fuel, rfl⟩ : ∃ n, fuel = n + 1 := by
    rw [hcs, List.cons_append, List.length_cons] at hfuel
    exact ⟨fuel - 1, by omega⟩
  cases j with
  | null => exact (lireValeur_constante fuel rest).1
  | bool b =>
    cases b
    · exact (lireValeur_constante fuel rest).2.2
    · exact (lireValeur_constante fuel rest).2.1
  | num n =>
    cases n with
    | none => cases hj
    | some n => exact lireValeur_decimal fuel n hrest
  | str s => exact lireValeur_chaine fuel s rest
  | arr elements =>
    have htext : jsonEncode (.arr elements) ++ rest =
        crochet :: (encodeElements elements ++ crochetFermant :: rest) := by
      simp [jsonEncode]
    rw [htext] at hfuel ⊢
    rw [lireValeur, blancs_cons (by decide)]
    dsimp only
    rw [if_neg (by decide), if_pos rfl]
    by_cases hne : elements = []
    · subst hne
      rfl
    · obtain ⟨d, ds, hds, hd⟩ := encodeElements_cons hne hj
      have hread := lireElements_encodeElements elements rest fuel hne hj (by
        rw [List.length_cons] at hfuel
        omega)
      rw [if_neg, hread]
      · rfl
      · rw [hds, List.cons_append, blancs_cons hd]
        exact fun h => hd.2.2.2.2.1 (Option.some.inj h)
  | obj fields =>
    have htext : jsonEncode (.obj fields) ++ rest =
        accolade :: (encodeFields fields ++ accoladeFermante :: rest) := by
      simp [jsonEncode]
    rw [htext] at hfuel ⊢
    rw [lireValeur, blancs_cons (by decide)]
    dsimp only
    rw [if_neg (by decide), if_neg (by decide), if_pos rfl]
    by_cases hne : fields = []
    · subst hne
      rfl
    · obtain ⟨ds, hds⟩ := encodeFields_cons hne
      have hread := lireChamps_encodeFields fields rest fuel hne hj.1 hj.2 (by
        rw [List.length_cons] at hfuel
        omega)
      rw [if_neg, hread]
      · rfl
      · rw [hds, List.cons_append, blancs_cons (by decide)]
        exact fun h => absurd (Option.some.inj h) (by decide)

theorem lireElements_encodeElements (js : List Json) (rest : Text) (fuel : Nat) (hne : js ≠ [])
    (hjs : ElementsReguliers js)
    (hfuel : 2 * (encodeElements js ++ crochetFermant :: rest).length + 1 ≤ fuel) :
    lireElements double fuel (encodeElements js ++ crochetFermant :: rest) = some (js, rest) := by
  obtain ⟨fuel, rfl⟩ : ∃ n, fuel = n + 1 := ⟨fuel - 1, by omega⟩
  cases js with
  | nil => exact absurd rfl hne
  | cons j js =>
    by_cases hlast : js = []
    · subst hlast
      have htext : encodeElements [j] ++ crochetFermant :: rest =
          jsonEncode j ++ crochetFermant :: rest := by
        simp [encodeElements]
      rw [htext] at hfuel ⊢
      exact lireElements_last (lireValeur_jsonEncode j _ fuel hjs.1
        (terminee_cons (.inr (.inl rfl)) _) (by omega))
    · have htext : encodeElements (j :: js) ++ crochetFermant :: rest =
          jsonEncode j ++ virgule :: (encodeElements js ++ crochetFermant :: rest) := by
        simp [encodeElements, hlast]
      rw [htext] at hfuel ⊢
      exact lireElements_more (lireValeur_jsonEncode j _ fuel hjs.1
        (terminee_cons (.inl rfl) _) (by omega))
        (lireElements_encodeElements js rest fuel hlast hjs.2 (by
          rw [List.length_append, List.length_cons] at hfuel
          omega))

theorem lireChamps_encodeFields (fields : List (Text × Json)) (rest : Text) (fuel : Nat)
    (hne : fields ≠ []) (hkeys : (fields.map (·.1)).Nodup) (hfields : ChampsReguliers fields)
    (hfuel : 2 * (encodeFields fields ++ accoladeFermante :: rest).length + 1 ≤ fuel) :
    lireChamps double fuel (encodeFields fields ++ accoladeFermante :: rest) =
      some (fields, rest) := by
  obtain ⟨fuel, rfl⟩ : ∃ n, fuel = n + 1 := ⟨fuel - 1, by omega⟩
  cases fields with
  | nil => exact absurd rfl hne
  | cons field fields =>
    obtain ⟨k, j⟩ := field
    rw [List.map_cons, List.nodup_cons] at hkeys
    by_cases hlast : fields = []
    · subst hlast
      have htext : encodeFields [(k, j)] ++ accoladeFermante :: rest =
          chaine k ++ deuxPoints :: (jsonEncode j ++ accoladeFermante :: rest) := by
        simp [encodeFields]
      rw [htext] at hfuel ⊢
      exact lireChamps_last (lireValeur_jsonEncode j _ fuel hfields.1
        (terminee_cons (.inr (.inr rfl)) _) (by
          rw [List.length_append, List.length_cons] at hfuel
          omega))
    · have htext : encodeFields ((k, j) :: fields) ++ accoladeFermante :: rest =
          chaine k ++ deuxPoints :: (jsonEncode j ++
            virgule :: (encodeFields fields ++ accoladeFermante :: rest)) := by
        simp [encodeFields, hlast]
      rw [htext] at hfuel ⊢
      rw [List.length_append, List.length_cons] at hfuel
      rw [lireChamps_more (lireValeur_jsonEncode j _ fuel hfields.1
        (terminee_cons (.inl rfl) _) (by omega))
        (lireChamps_encodeFields fields rest fuel hlast hkeys.2 hfields.2 (by
          rw [List.length_append, List.length_cons] at hfuel
          omega)), ajouterChamp_of_not_mem hkeys.1]

end

/-- What is encoded is decoded as it was. -/
theorem jsonDecode_jsonEncode {j : Json} (hj : j.Regulier) :
    jsonDecode double (jsonEncode j) = some j := by
  have hread : lireValeur double (2 * (jsonEncode j).length + 1) (jsonEncode j ++ []) =
      some (j, []) :=
    lireValeur_jsonEncode j [] _ hj (fun c hc => by cases hc) (by rw [List.append_nil]; omega)
  rw [List.append_nil] at hread
  rw [jsonDecode, hread]
  rfl

end ZiaCrypte.Inbox
