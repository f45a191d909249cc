/-!
# Named types

Much of a security policy is said in words of a fixed list: the types of a token, the roles it
plays, the kinds of an event.  A *named type* is a finite type whose values are written by such
words.  `all` lists the values in a fixed order, none is missing, and no two share a name.  So a
name stands for at most one value, and every value is read back off its name (`ofName?_name`).
-/

namespace SoapPolicy

/-- A finite type whose values are written by name. -/
class Named (α : Type) where
  /-- Every value, in the order of the type. -/
  all : List α
  /-- The name a value is written by. -/
  name : α → String
  /-- No value is missing. -/
  mem_all : ∀ a, a ∈ all
  /-- No two values share a name. -/
  nodup_names : (all.map name).Nodup

namespace Named

variable {α : Type} [Named α]

/-- The value a name stands for. -/
def ofName? (s : String) : Option α :=
  (all : List α).find? fun a => name a == s

/-- The place of a value in the order of its type. -/
def position [BEq α] (a : α) : Nat :=
  (all : List α).idxOf a

/-- Two values of one name are one value. -/
theorem name_injective {a b : α} (h : name a = name b) : a = b := by
  have key : ∀ l : List α, (l.map name).Nodup → a ∈ l → b ∈ l → a = b := by
    intro l
    induction l with
    | nil => intro _ ha; cases ha
    | cons c l ih =>
      intro hn ha hb
      rw [List.map_cons, List.nodup_cons] at hn
      cases ha with
      | head =>
        cases hb with
        | head => rfl
        | tail _ hb => exact absurd (h ▸ List.mem_map_of_mem hb) hn.1
      | tail _ ha =>
        cases hb with
        | head => exact absurd (h ▸ List.mem_map_of_mem ha) hn.1
        | tail _ hb => exact ih hn.2 ha hb
  exact key all nodup_names (mem_all a) (mem_all b)

/-- Every value is read back off its name. -/
theorem ofName?_name (a : α) : ofName? (name a) = some a := by
  unfold ofName?
  cases h : (all : List α).find? fun b => name b == name a with
  | none =>
    have hne := List.find?_eq_none.1 h a (mem_all a)
    simp at hne
  | some b => exact congrArg some (name_injective (by simpa using List.find?_some h))

/-- A name is read as a value exactly when it is the name of that value. -/
theorem ofName?_eq_some_iff {s : String} {a : α} : ofName? s = some a ↔ name a = s := by
  constructor
  · intro h
    simpa using List.find?_some h
  · rintro rfl
    exact ofName?_name a

end Named

end SoapPolicy
