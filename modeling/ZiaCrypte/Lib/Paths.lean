import Mathlib.Data.List.Basic

/-!
# Paths between directories

A part of a path stays where it is, goes up or goes down. A system follows the parts one by
one, or shortens the path first: what goes up takes away the name before it.
-/
namespace ZiaCrypte.Lib

inductive Hop (ν : Type) where
  | stay
  | up
  | down (name : ν)
  deriving DecidableEq

structure Directories (δ ν : Type) where
  parent : δ → δ
  child : δ → ν → Option δ

namespace Directories

variable {δ ν : Type} (t : Directories δ ν)

def enter (d : δ) : Hop ν → Option δ
  | .stay => some d
  | .up => some (t.parent d)
  | .down name => t.child d name

def walk (d : δ) : List (Hop ν) → Option δ
  | [] => some d
  | hop :: hops => (t.enter d hop).bind fun e => walk e hops

end Directories

namespace Hop

variable {ν : Type}

def isMove : Hop ν → Bool
  | .stay => false
  | _ => true

/-- One more part on the shortened path, the last part first. -/
def cancel : List (Hop ν) → Hop ν → List (Hop ν)
  | stack, .stay => stack
  | .down _ :: rest, .up => rest
  | stack, .up => .up :: stack
  | stack, .down name => .down name :: stack

/-- The path without its detours; what goes up from the start stays. -/
def shorten (hops : List (Hop ν)) : List (Hop ν) := (hops.foldl cancel []).reverse

theorem up_mem_cancel {stack : List (Hop ν)} (h : .up ∈ stack) (hop : Hop ν) :
    .up ∈ cancel stack hop := by
  cases hop with
  | stay => exact h
  | down name => exact List.mem_cons_of_mem _ h
  | up =>
    cases stack with
    | nil => cases h
    | cons top rest =>
      cases top with
      | down name => exact (List.mem_cons.mp h).resolve_left (by simp)
      | _ => exact List.mem_cons_self

theorem up_mem_foldl_cancel {stack : List (Hop ν)} (h : .up ∈ stack) (hops : List (Hop ν)) :
    .up ∈ hops.foldl cancel stack := by
  induction hops generalizing stack with
  | nil => exact h
  | cons hop hops ih => exact ih (up_mem_cancel h hop)

/-- What never goes up from where it starts does the same on top of any path. -/
theorem foldl_cancel_append {stack : List (Hop ν)} (below : List (Hop ν)) {hops : List (Hop ν)}
    (h : .up ∉ hops.foldl cancel stack) :
    hops.foldl cancel (stack ++ below) = hops.foldl cancel stack ++ below := by
  induction hops generalizing stack with
  | nil => rfl
  | cons hop hops ih =>
    have hstep : cancel (stack ++ below) hop = cancel stack hop ++ below := by
      cases hop with
      | stay => rfl
      | down name => rfl
      | up =>
        cases stack with
        | nil => exact absurd (up_mem_foldl_cancel List.mem_cons_self hops) h
        | cons top rest => cases top <;> rfl
    rw [List.foldl_cons, hstep, ih h]
    rfl

/-- A path that leads back to its start may be left out. -/
theorem shorten_append {hops hops' : List (Hop ν)} (h : shorten hops' = []) :
    shorten (hops ++ hops') = shorten hops := by
  have hnil : hops'.foldl cancel [] = [] := List.reverse_eq_nil_iff.mp h
  have hup : .up ∉ hops'.foldl cancel ([] : List (Hop ν)) := by
    rw [hnil]
    exact List.not_mem_nil
  have hback := foldl_cancel_append (hops.foldl cancel []) hup
  unfold shorten
  rw [List.foldl_append]
  rw [List.nil_append, hnil, List.nil_append] at hback
  rw [hback]

end Hop

end ZiaCrypte.Lib
