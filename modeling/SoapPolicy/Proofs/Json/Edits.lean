import Mathlib.Data.List.Forall2
import Mathlib.Logic.Relation
import SoapPolicy.Json.Codec

/-!
# Edits of a document

A document may be edited in ways that leave its meaning alone.  At any depth, a field may be left out
that holds what stands for it if it is missing, and a field may be added that the structure does not
have.  Which fields a structure has, and what stands for those that may be missing, is its *shape*
(`Shape`).  An object whose one key names an alternative is no structure, and neither is a table of
namespace prefixes, so nothing is added to them.

`Edit` is one edit, and `Edits` is any number of them.  What edits keep of a document is stated for each
shape: the items of a list are edited one by one (`edits_list`), an alternative keeps its name
(`edits_variant`), and each field of a structure either is there with an edited value or is left out,
and then its value was edited to the one that stands for it (`edits_struct`).
-/

namespace SoapPolicy.Json

/-! ## Shapes -/

mutual

/-- What may be edited in the written form of a type. -/
inductive Shape where
  /-- Nothing. -/
  | plain
  /-- Items of one shape. -/
  | list (item : Shape)
  /-- Fields, by name. -/
  | struct (slots : List (String × Slot))
  /-- The content of an alternative, by its name. -/
  | variants (contents : List (String × Shape))

/-- What may be edited in a field of a structure. -/
inductive Slot where
  /-- The field has to be there. -/
  | required (shape : Shape)
  /-- The field may be left out, and then a value stands for it. -/
  | defaulted (shape : Shape) (default : Json)

end

/-- The shape of the value of a field. -/
def Slot.shape : Slot → Shape
  | required shape => shape
  | defaulted shape _ => shape

/-! ## Edits -/

/-- One edit of a document of some shape. -/
inductive Edit : Shape → Json → Json → Prop where
  /-- Leave out a field that holds its default. -/
  | leaveOut {slots : List (String × Slot)} {key : String} {shape : Shape} {default : Json}
      {before after : Fields} :
    slots.lookup key = some (.defaulted shape default) → key ∉ (before ++ after).map Prod.fst →
    Edit (.struct slots) (.obj (before ++ (key, default) :: after)) (.obj (before ++ after))
  /-- Add a field of an unknown name. -/
  | add {slots : List (String × Slot)} {key : String} {value : Json} {before after : Fields} :
    slots.lookup key = none →
    Edit (.struct slots) (.obj (before ++ after)) (.obj (before ++ (key, value) :: after))
  /-- Edit the value of a field. -/
  | inField {slots : List (String × Slot)} {key : String} {slot : Slot} {j j' : Json}
      {before after : Fields} :
    slots.lookup key = some slot → Edit slot.shape j j' →
    Edit (.struct slots) (.obj (before ++ (key, j) :: after)) (.obj (before ++ (key, j') :: after))
  /-- Edit an item of a list. -/
  | inItem {item : Shape} {j j' : Json} {before after : List Json} :
    Edit item j j' →
    Edit (.list item) (.arr (before ++ j :: after)) (.arr (before ++ j' :: after))
  /-- Edit the content of an alternative. -/
  | inVariant {contents : List (String × Shape)} {tag : String} {shape : Shape} {j j' : Json} :
    contents.lookup tag = some shape → Edit shape j j' →
    Edit (.variants contents) (.obj [(tag, j)]) (.obj [(tag, j')])

/-- Any number of edits, one after the other. -/
abbrev Edits (shape : Shape) : Json → Json → Prop :=
  Relation.ReflTransGen (Edit shape)

variable {j j' : Json}

/-- The value of a field may be edited any number of times. -/
theorem edits_inField {slots : List (String × Slot)} {key : String} {slot : Slot}
    (before after : Fields) (found : slots.lookup key = some slot) (h : Edits slot.shape j j') :
    Edits (.struct slots) (.obj (before ++ (key, j) :: after))
      (.obj (before ++ (key, j') :: after)) := by
  induction h with
  | refl => exact .refl
  | tail _ edit ih => exact ih.tail (.inField found edit)

/-- The content of an alternative may be edited any number of times. -/
theorem edits_inVariant {contents : List (String × Shape)} {tag : String} {shape : Shape}
    (found : contents.lookup tag = some shape) (h : Edits shape j j') :
    Edits (.variants contents) (.obj [(tag, j)]) (.obj [(tag, j')]) := by
  induction h with
  | refl => exact .refl
  | tail _ edit ih => exact ih.tail (.inVariant found edit)

theorem edits_plain (h : Edits .plain j j') : j' = j := by
  rcases h.cases_head with rfl | ⟨_, edit, -⟩
  · rfl
  · cases edit

theorem edits_null {shape : Shape} (h : Edits shape .null j) : j = .null := by
  rcases h.cases_head with rfl | ⟨_, edit, -⟩
  · rfl
  · cases edit

/-- The name of an alternative stays, and its content is edited. -/
theorem edits_variant {contents : List (String × Shape)} {tag : String} {shape : Shape}
    (h : Edits (.variants contents) (.obj [(tag, j)]) j') (found : contents.lookup tag = some shape) :
    ∃ content, j' = .obj [(tag, content)] ∧ Edits shape j content := by
  induction h with
  | refl => exact ⟨j, rfl, .refl⟩
  | tail _ edit ih =>
    obtain ⟨content, rfl, edits⟩ := ih
    cases edit with
    | inVariant found' inner =>
      cases found.symm.trans found'
      exact ⟨_, rfl, edits.tail inner⟩

/-! ## Lists -/

theorem forall₂_replace {α β : Type} {R : α → β → Prop} {as : List α} {before after : List β}
    {b b' : β} (h : List.Forall₂ R as (before ++ b :: after)) (replaced : ∀ a, R a b → R a b') :
    List.Forall₂ R as (before ++ b' :: after) := by
  induction before generalizing as with
  | nil =>
    cases h with
    | cons head tail => exact .cons (replaced _ head) tail
  | cons first before ih =>
    cases h with
    | cons head tail => exact .cons head (ih tail)

/-- The items of a list are edited one by one. -/
theorem edits_list {item : Shape} {items : List Json} (h : Edits (.list item) (.arr items) j) :
    ∃ items', j = .arr items' ∧ List.Forall₂ (Edits item) items items' := by
  induction h with
  | refl => exact ⟨items, rfl, List.forall₂_same.2 fun _ _ => .refl⟩
  | tail _ edit ih =>
    obtain ⟨items', rfl, edits⟩ := ih
    cases edit with
    | inItem inner => exact ⟨_, rfl, forall₂_replace edits fun _ edits => edits.tail inner⟩

/-! ## Structures -/

/-- What a field that held a value may hold after edits. -/
inductive Slot.Keeps (slot : Slot) (j : Json) : Option Json → Prop where
  | edited {j' : Json} : Edits slot.shape j j' → Keeps slot j (some j')
  | leftOut {shape : Shape} {default : Json} :
    slot = .defaulted shape default → Edits shape j default → Keeps slot j none

/-- All fields of a structure hold what they may hold after edits. -/
def Keeps (slots : List (String × Slot)) (fields fields' : Fields) : Prop :=
  ∀ key slot j, slots.lookup key = some slot → fields.lookup key = some j →
    slot.Keeps j (fields'.lookup key)

section
variable {slots : List (String × Slot)} {fields fields' before after : Fields} {key other : String}

theorem lookup_middle_self (before after : Fields) (key : String) (value : Json) :
    (before ++ (key, value) :: after).lookup key = (before.lookup key).or (some value) := by
  rw [List.lookup_append, List.lookup_cons_self]

theorem lookup_middle_of_ne (different : other ≠ key) (value : Json) :
    (before ++ (key, value) :: after).lookup other = (before ++ after).lookup other := by
  rw [List.lookup_append, List.lookup_append, List.lookup_cons, beq_false_of_ne different]

theorem lookup_eq_none_of_not_mem (absent : key ∉ fields.map Prod.fst) : fields.lookup key = none := by
  refine List.lookup_eq_none_iff.2 fun field hfield => bne_iff_ne.2 ?_
  rintro rfl
  exact absent (List.mem_map_of_mem hfield)

theorem keeps_refl (slots : List (String × Slot)) (fields : Fields) : Keeps slots fields fields := by
  intro key slot j _ held
  rw [held]
  exact .edited .refl

/-- One more edit of a structure. -/
theorem Keeps.edit (h : Keeps slots fields fields') (edit : Edit (.struct slots) (.obj fields') j) :
    ∃ fields'', j = .obj fields'' ∧ Keeps slots fields fields'' := by
  cases edit with
  | @leaveOut _ key shape default before after known absent =>
    refine ⟨_, rfl, fun other slot held found holds => ?_⟩
    have old := h other slot held found holds
    by_cases same : other = key
    · subst same
      cases known.symm.trans found
      rw [List.map_append, List.mem_append, not_or] at absent
      rw [lookup_middle_self, lookup_eq_none_of_not_mem absent.1] at old
      rw [List.lookup_append, lookup_eq_none_of_not_mem absent.1, lookup_eq_none_of_not_mem absent.2]
      cases old with
      | edited edits => exact .leftOut rfl edits
    · rwa [lookup_middle_of_ne same] at old
  | @add _ key value before after unknown =>
    refine ⟨_, rfl, fun other slot held found holds => ?_⟩
    have different : other ≠ key := by
      rintro rfl
      cases unknown.symm.trans found
    rw [lookup_middle_of_ne different]
    exact h other slot held found holds
  | @inField _ key slot value value' before after known inner =>
    refine ⟨_, rfl, fun other slot' held found holds => ?_⟩
    have old := h other slot' held found holds
    by_cases same : other = key
    · subst same
      cases known.symm.trans found
      rw [lookup_middle_self] at old ⊢
      -- a field of the same name further up front hides the one that is edited
      cases hidden : before.lookup other with
      | some first => rwa [hidden] at old
      | none =>
        rw [hidden] at old
        cases old with
        | edited edits => exact .edited (edits.tail inner)
    · rw [lookup_middle_of_ne same] at old ⊢
      exact old

/-- Every field of a structure is there with an edited value, or it is left out after its value was
edited to the one that stands for it. -/
theorem edits_struct (h : Edits (.struct slots) (.obj fields) j) :
    ∃ fields', j = .obj fields' ∧ Keeps slots fields fields' := by
  induction h with
  | refl => exact ⟨fields, rfl, keeps_refl slots fields⟩
  | tail _ edit ih =>
    obtain ⟨fields', rfl, keeps⟩ := ih
    exact keeps.edit edit

end

end SoapPolicy.Json
