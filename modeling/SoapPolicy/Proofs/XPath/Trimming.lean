import Mathlib.Data.List.TakeWhile
import SoapPolicy.Text.Blank

/-!
# Trimmed texts

Trimming leaves a text alone that has no blank character at its ends (`Tight`).  Such texts stay so when
they are put one after the other, so it is enough to look at the pieces an expression is made of.
-/

namespace SoapPolicy.Text

variable {cs ds : List Char} {c : Char}

/-- A text without a blank character at its ends. -/
structure Tight (cs : List Char) : Prop where
  /-- It does not start with one. -/
  first : ∀ c ∈ cs.head?, isBlank c = false
  /-- It does not end with one. -/
  last : ∀ c ∈ cs.getLast?, isBlank c = false

namespace Tight

theorem trim_eq (tight : Tight cs) : trim cs = cs := trim_eq_self tight.first tight.last

theorem of_forall (plain : ∀ c ∈ cs, isBlank c = false) : Tight cs :=
  ⟨fun c hc => plain c (List.mem_of_head? hc), fun c hc => plain c (List.mem_of_getLast? hc)⟩

theorem append (front : Tight cs) (back : Tight ds) : Tight (cs ++ ds) := by
  constructor
  · intro c hc
    rw [List.head?_append, Option.mem_def, Option.or_eq_some_iff] at hc
    rcases hc with hc | ⟨-, hc⟩
    · exact front.first c hc
    · exact back.first c hc
  · intro c hc
    rw [List.getLast?_append, Option.mem_def, Option.or_eq_some_iff] at hc
    rcases hc with hc | ⟨-, hc⟩
    · exact back.last c hc
    · exact front.last c hc

theorem flatMap {α : Type} {text : α → List Char} {as : List α} (tight : ∀ a ∈ as, Tight (text a)) :
    Tight (as.flatMap text) := by
  induction as with
  | nil => exact .of_forall nofun
  | cons a as ih =>
    obtain ⟨first, others⟩ := List.forall_mem_cons.1 tight
    exact first.append (ih others)

end Tight

/-- Trimming takes all blank characters off the ends. -/
theorem tight_trim (cs : List Char) : Tight (trim cs) := by
  have first (cs : List Char) : ∀ c ∈ (cs.dropWhile isBlank).head?, isBlank c = false := by
    intro c hc
    have stays := List.head?_dropWhile_not isBlank cs
    rwa [hc] at stays
  constructor
  · intro c hc
    have kept := List.dropWhile_suffix (l := (cs.dropWhile isBlank).reverse) isBlank
    have kept := List.reverse_prefix.2 kept
    rw [List.reverse_reverse] at kept
    obtain ⟨rest, split⟩ := kept
    rw [trim, Option.mem_def] at hc
    refine first cs c ?_
    rw [← split, List.head?_append, hc]
    rfl
  · intro c hc
    rw [trim, List.getLast?_reverse] at hc
    exact first _ c hc

theorem dropWhile_concat {p : Char → Bool} (stays : p c = false) (cs : List Char) :
    (cs ++ [c]).dropWhile p = cs.dropWhile p ++ [c] := by
  rw [List.dropWhile_append]
  split
  next dropped => simp [List.isEmpty_iff.1 dropped, stays]
  next => rfl

/-- Nothing is trimmed at an end that is not blank. -/
theorem trim_concat (stays : isBlank c = false) (cs : List Char) :
    trim (cs ++ [c]) = cs.dropWhile isBlank ++ [c] := by
  rw [trim, dropWhile_concat stays, List.reverse_concat, List.dropWhile_cons_of_neg (by simp [stays]),
    List.reverse_cons, List.reverse_reverse]

end SoapPolicy.Text
