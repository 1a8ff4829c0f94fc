import Mathlib.Logic.Basic

/-!
# Runs of a step function

A system is a function `step` that takes an input and a state to the next state,
or to `none` when the system stops for good. `run` folds it over a list of
inputs. `Always step Q` is a property of a run: `Q` holds at every input the run
gets to, of the state it finds there.
-/
namespace ZiaCrypte.Lib

variable {I S : Type} (step : I → S → Option S)

def run : List I → S → Option S
  | [], s => some s
  | i :: is, s => (step i s).bind (run is)

/-- `Q` holds of every input, and the state it meets, for as long as the run lasts. -/
def Always (Q : I → S → Prop) : List I → S → Prop
  | [], _ => True
  | i :: is, s => Q i s ∧ ∀ t, step i s = some t → Always Q is t

@[simp] theorem run_nil (s : S) : run step [] s = some s := rfl

theorem run_cons (i : I) (is : List I) (s : S) :
    run step (i :: is) s = (step i s).bind (run step is) := rfl

theorem run_append (is js : List I) (s : S) :
    run step (is ++ js) s = (run step is s).bind (run step js) := by
  induction is generalizing s with
  | nil => rfl
  | cons i is ih =>
    rw [List.cons_append, run_cons, run_cons, Option.bind_assoc]
    congr 1
    funext t
    exact ih t

/-- A property of single inputs that can be decided can be decided along a run. -/
instance decidableAlways (Q : I → S → Prop) [∀ i s, Decidable (Q i s)] :
    ∀ is s, Decidable (Always step Q is s)
  | [], _ => isTrue trivial
  | i :: is, s =>
      match h : step i s with
      | none => decidable_of_iff (Q i s)
          ⟨fun hq => ⟨hq, fun _ ht => nomatch h.symm.trans ht⟩, And.left⟩
      | some t =>
          have := decidableAlways Q is t
          decidable_of_iff (Q i s ∧ Always step Q is t)
            ⟨fun hq => ⟨hq.1, fun _ ht => Option.some.inj (h.symm.trans ht) ▸ hq.2⟩,
              fun hq => ⟨hq.1, hq.2 t h⟩⟩

variable {step}

/-- A state property every step keeps holds at the end of every run. -/
theorem run_invariant {Inv : S → Prop} (hstep : ∀ i s t, Inv s → step i s = some t → Inv t)
    {is : List I} {s t : S} (hs : Inv s) (h : run step is s = some t) : Inv t := by
  induction is generalizing s with
  | nil =>
    obtain rfl := Option.some.inj h
    exact hs
  | cons i is ih =>
    rw [run_cons, Option.bind_eq_some_iff] at h
    obtain ⟨u, hu, hrest⟩ := h
    exact ih (hstep i s u hs hu) hrest

/-- What holds at the end of a run and not at its start was brought about by one of its steps. -/
theorem run_gains {P : S → Prop} {is : List I} {s t : S} (h : run step is s = some t)
    (hs : ¬P s) (ht : P t) : ∃ pre i post u v, is = pre ++ i :: post ∧
      run step pre s = some u ∧ step i u = some v ∧ run step post v = some t ∧ ¬P u ∧ P v := by
  induction is generalizing s with
  | nil =>
    obtain rfl := Option.some.inj h
    exact absurd ht hs
  | cons i is ih =>
    rw [run_cons, Option.bind_eq_some_iff] at h
    obtain ⟨u, hu, hrest⟩ := h
    by_cases hP : P u
    · exact ⟨[], i, is, s, u, rfl, rfl, hu, hrest, hs, hP⟩
    · obtain ⟨pre, j, post, v, w, rfl, hpre, hj, hpost, hv, hw⟩ := ih hrest hP
      exact ⟨i :: pre, j, post, v, w, rfl, by rw [run_cons, hu, Option.bind_some, hpre],
        hj, hpost, hv, hw⟩

/-- The same when the steps keep the property only at inputs that meet `C`. -/
theorem run_invariant_of_always (Inv : S → Prop) {C : I → S → Prop}
    (hstep : ∀ i s t, Inv s → C i s → step i s = some t → Inv t)
    {is : List I} {s t : S} (hs : Inv s) (hC : Always step C is s)
    (h : run step is s = some t) : Inv t := by
  induction is generalizing s with
  | nil =>
    obtain rfl := Option.some.inj h
    exact hs
  | cons i is ih =>
    rw [run_cons, Option.bind_eq_some_iff] at h
    obtain ⟨u, hu, hrest⟩ := h
    exact ih (hstep i s u hs hC.1 hu) (hC.2 u hu) hrest

theorem Always.cons {Q : I → S → Prop} {i : I} {is : List I} {s t : S} (hq : Q i s)
    (ht : step i s = some t) (hrest : Always step Q is t) : Always step Q (i :: is) s :=
  ⟨hq, fun _ hu => Option.some.inj (ht.symm.trans hu) ▸ hrest⟩

theorem Always.append_iff {Q : I → S → Prop} {is js : List I} {s : S} :
    Always step Q (is ++ js) s ↔
      Always step Q is s ∧ ∀ t, run step is s = some t → Always step Q js t := by
  induction is generalizing s with
  | nil => simp [Always]
  | cons i is ih =>
    simp only [List.cons_append, Always, ih, run_cons, Option.bind_eq_some_iff]
    constructor
    · rintro ⟨hq, hrest⟩
      refine ⟨⟨hq, fun t ht => (hrest t ht).1⟩, ?_⟩
      rintro t ⟨u, hu, hrun⟩
      exact (hrest u hu).2 t hrun
    · rintro ⟨⟨hq, hhead⟩, htail⟩
      exact ⟨hq, fun u hu => ⟨hhead u hu, fun t ht => htail t ⟨u, hu, ht⟩⟩⟩

/-- What holds of every input in every state holds along every run. -/
theorem always_of_forall {Q : I → S → Prop} (h : ∀ i s, Q i s) (is : List I) (s : S) :
    Always step Q is s := by
  induction is generalizing s with
  | nil => trivial
  | cons i is ih => exact ⟨h i s, fun t _ => ih t⟩

/-- What is known of each input of the list holds along the run. -/
theorem always_of_mem {P : I → Prop} {is : List I} (h : ∀ i ∈ is, P i) (s : S) :
    Always step (fun i _ => P i) is s := by
  induction is generalizing s with
  | nil => trivial
  | cons i is ih =>
    exact ⟨h i List.mem_cons_self, fun t _ => ih (fun j hj => h j (List.mem_cons_of_mem i hj)) t⟩

/-- Two conditions of a run at once. -/
theorem Always.and {Q R : I → S → Prop} {is : List I} {s : S} (hq : Always step Q is s)
    (hr : Always step R is s) : Always step (fun i s => Q i s ∧ R i s) is s := by
  induction is generalizing s with
  | nil => trivial
  | cons i is ih => exact ⟨⟨hq.1, hr.1⟩, fun t ht => ih (hq.2 t ht) (hr.2 t ht)⟩

/-- What the invariant and the condition give at one input holds all along the run. -/
theorem always_of_invariant (Inv : S → Prop) {C Q : I → S → Prop}
    (hstep : ∀ i s t, Inv s → C i s → step i s = some t → Inv t)
    (hQ : ∀ i s, Inv s → C i s → Q i s) {is : List I} {s : S} (hs : Inv s)
    (hC : Always step C is s) : Always step Q is s := by
  induction is generalizing s with
  | nil => exact trivial
  | cons i is ih =>
    exact ⟨hQ i s hs hC.1, fun t ht => ih (hstep i s t hs hC.1 ht) (hC.2 t ht)⟩

variable (step) in
/-- Where the step leads, if it leads anywhere, has the property. -/
def Reaches (P : S → Prop) (i : I) (s : S) : Prop := ∀ t, step i s = some t → P t

instance decidableReaches (P : S → Prop) [DecidablePred P] (i : I) (s : S) :
    Decidable (Reaches step P i s) :=
  match h : step i s with
  | none => isTrue fun _ ht => nomatch h.symm.trans ht
  | some t =>
      decidable_of_iff (P t) ⟨fun hP _ ht => Option.some.inj (h.symm.trans ht) ▸ hP, fun hP => hP t h⟩

/-- In the runs that keep a condition, two input properties hold of the same runs when they
agree on the states of an invariant that steps with the one property keep. -/
theorem always_iff_of_always (Inv : S → Prop) {C Q R : I → S → Prop}
    (hstep : ∀ i s t, Inv s → C i s → Q i s → step i s = some t → Inv t)
    (hQR : ∀ i s, Inv s → C i s → (Q i s ↔ R i s)) {is : List I} {s : S} (hs : Inv s)
    (hC : Always step C is s) : Always step Q is s ↔ Always step R is s := by
  induction is generalizing s with
  | nil => exact Iff.rfl
  | cons i is ih =>
    have hhead := hQR i s hs hC.1
    constructor
    · intro ⟨hq, hrest⟩
      exact ⟨hhead.mp hq,
        fun t ht => (ih (hstep i s t hs hC.1 hq ht) (hC.2 t ht)).mp (hrest t ht)⟩
    · intro ⟨hr, hrest⟩
      have hq := hhead.mpr hr
      exact ⟨hq, fun t ht => (ih (hstep i s t hs hC.1 hq ht) (hC.2 t ht)).mpr (hrest t ht)⟩

/-- Two input properties hold of the same runs when they agree on the states of an
invariant that steps with the one property keep. -/
theorem always_iff_of_invariant (Inv : S → Prop) {Q R : I → S → Prop}
    (hstep : ∀ i s t, Inv s → Q i s → step i s = some t → Inv t)
    (hQR : ∀ i s, Inv s → (Q i s ↔ R i s)) {is : List I} {s : S} (hs : Inv s) :
    Always step Q is s ↔ Always step R is s :=
  always_iff_of_always Inv (C := fun _ _ => True) (fun i s t hs _ => hstep i s t hs)
    (fun i s hs _ => hQR i s hs) hs (always_of_forall (fun _ _ => trivial) is s)

/-- Under an invariant of the steps, two input properties that agree on the
states satisfying it hold of the same runs. -/
theorem always_congr (Inv : S → Prop) {Q R : I → S → Prop}
    (hstep : ∀ i s t, Inv s → step i s = some t → Inv t)
    (hQR : ∀ i s, Inv s → (Q i s ↔ R i s)) {is : List I} {s : S} (hs : Inv s) :
    Always step Q is s ↔ Always step R is s :=
  always_iff_of_invariant Inv (fun i s t hs _ ht => hstep i s t hs ht) hQR hs

end ZiaCrypte.Lib
