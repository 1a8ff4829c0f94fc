import ZiaCrypte.Lib.Run

/-!
# Runs that do not feel their bad inputs

Which inputs are good depends on the state they are met in. The sifted batch has
those that are good once the bad ones before them are left out.
-/
namespace ZiaCrypte.Lib

variable {I S : Type} (step : I → S → Option S) (good : I → S → Bool)

/-- The good inputs of a batch, up to one at which the system stops. -/
def sift : List I → S → List I
  | [], _ => []
  | i :: is, s =>
      if good i s then i :: ((step i s).map (sift is)).getD [] else sift is s

/-- The system goes on after an input, and a bad one leaves the state as it is. -/
def Unfelt (i : I) (s : S) : Prop := ∃ t, step i s = some t ∧ (good i s = false → t = s)

/-- So far a batch came to what its good inputs come to. -/
def AsIfSifted (is : List I) (s : S) : Prop :=
  ∃ t, run step is s = some t ∧ run step (sift step good is s) s = some t

variable {step good}

theorem sift_cons_good {i : I} {s t : S} (is : List I) (hgood : good i s = true)
    (hstep : step i s = some t) : sift step good (i :: is) s = i :: sift step good is t := by
  rw [sift, if_pos hgood, hstep, Option.map_some, Option.getD_some]

theorem sift_cons_bad {i : I} {s : S} (is : List I) (hgood : good i s = false) :
    sift step good (i :: is) s = sift step good is s := by
  rw [sift, hgood, if_neg Bool.false_ne_true]

/-- One more input that is not felt, if it is bad, in front of a batch. -/
theorem asIfSifted_cons_iff {i : I} {s t : S} (is : List I) (hstep : step i s = some t)
    (hbad : good i s = false → t = s) :
    AsIfSifted step good (i :: is) s ↔ AsIfSifted step good is t := by
  unfold AsIfSifted
  rw [run_cons, hstep, Option.bind_some]
  cases hgood : good i s with
  | true => rw [sift_cons_good is hgood hstep, run_cons, hstep, Option.bind_some]
  | false =>
    obtain rfl := hbad hgood
    rw [sift_cons_bad is hgood]

/-- An input on its own. -/
theorem asIfSifted_singleton_iff (i : I) (s : S) :
    AsIfSifted step good [i] s ↔ Unfelt step good i s := by
  constructor
  · rintro ⟨t, hrun, hsifted⟩
    rw [run_cons, Option.bind_eq_some_iff] at hrun
    obtain ⟨t', hstep, ht'⟩ := hrun
    obtain rfl := Option.some.inj ht'
    refine ⟨t', hstep, fun hgood => ?_⟩
    rw [sift_cons_bad [] hgood] at hsifted
    exact (Option.some.inj hsifted).symm
  · rintro ⟨t, hstep, hbad⟩
    rw [asIfSifted_cons_iff [] hstep hbad]
    exact ⟨t, rfl, rfl⟩

/-- At every point of a batch its bad inputs might have been absent, exactly if none of
its inputs stops the system and the bad ones have no effect. -/
theorem asIfSifted_take_iff (is : List I) (s : S) :
    (∀ n, AsIfSifted step good (is.take n) s) ↔ Always step (Unfelt step good) is s := by
  induction is generalizing s with
  | nil => exact iff_of_true (fun n => by rw [List.take_nil]; exact ⟨s, rfl, rfl⟩) trivial
  | cons i is ih =>
    constructor
    · intro h
      obtain ⟨t, hstep, hbad⟩ := (asIfSifted_singleton_iff i s).mp (h 1)
      refine ⟨⟨t, hstep, hbad⟩, fun t' ht' => ?_⟩
      obtain rfl := Option.some.inj (hstep.symm.trans ht')
      rw [← ih]
      exact fun n => (asIfSifted_cons_iff _ hstep hbad).mp (h (n + 1))
    · rintro ⟨⟨t, hstep, hbad⟩, hrest⟩ n
      cases n with
      | zero => exact ⟨s, rfl, rfl⟩
      | succ n =>
        rw [List.take_succ_cons, asIfSifted_cons_iff _ hstep hbad]
        exact (ih t).mpr (hrest t hstep) n

end ZiaCrypte.Lib
