import SoapPolicy.Proofs.Json.Edits

/-!
# Reading back

A codec *reads back* what it wrote if the written form, after any edits that its shape allows, still
stands for the same value (`ReadsBack`).  Types are put together from others that do so: a structure
is read field by field (`Keeps.required`, `Keeps.defaulted`), an alternative by its content, a list by
its items.  A missing optional value is written as `null`, so the type of the value must not be
written that way itself (`Solid`).
-/

namespace SoapPolicy.Json

/-- A codec that reads back what it wrote, after any edits that leave the meaning alone. -/
class ReadsBack (α : Type) [Codec α] where
  /-- What may be edited. -/
  shape : Shape
  reads : ∀ (a : α) (j : Json), Edits shape (toJson a) j → ofJson? j = some a

export ReadsBack (shape reads)

/-- A type of which no value is written as `null`. -/
class Solid (α : Type) [Codec α] : Prop where
  ofJson?_null : (ofJson? .null : Option α) = none

theorem ofJson?_toJson {α : Type} [Codec α] [ReadsBack α] (a : α) : ofJson? (toJson a) = some a :=
  reads a _ .refl

/-! ## Basic types -/

/-- A codec whose written form is not edited reads back if it reads what it wrote. -/
@[reducible] def ReadsBack.ofPlain {α : Type} [Codec α]
    (back : ∀ a : α, ofJson? (toJson a) = some a) : ReadsBack α where
  shape := .plain
  reads a _ h := edits_plain h ▸ back a

instance : ReadsBack Bool := .ofPlain fun _ => rfl

instance : ReadsBack String := .ofPlain fun _ => rfl

instance : ReadsBack UInt8 := .ofPlain fun n => by
  show (if 0 ≤ (n.toNat : Int) && n.toNat < UInt8.size then some (UInt8.ofNat n.toNat)
    else none) = _
  simp [n.toNat_lt_size]

instance : ReadsBack UInt64 := .ofPlain fun n => by
  show (if 0 ≤ (n.toNat : Int) && n.toNat < UInt64.size then some (UInt64.ofNat n.toNat)
    else none) = _
  simp [n.toNat_lt_size]

instance {α : Type} [Named α] : ReadsBack α := .ofPlain Named.ofName?_name

instance : Solid String := ⟨rfl⟩

instance : Solid UInt64 := ⟨rfl⟩

instance {α : Type} [Named α] : Solid α := ⟨rfl⟩

instance {α : Type} [Codec α] : Solid (List α) := ⟨rfl⟩

instance {α : Type} [Codec α] [ReadsBack α] [Solid α] : ReadsBack (Option α) where
  shape := shape α
  reads a j h := by
    cases a with
    | none =>
      obtain rfl := edits_null h
      rfl
    | some a =>
      have back : ofJson? j = some a := reads a j h
      cases j with
      | null =>
        rw [Solid.ofJson?_null] at back
        cases back
      | _ => exact congrArg (Option.map some) back

theorem mapM_of_forall₂ {α : Type} [Codec α] {as : List α} {items : List Json}
    (h : List.Forall₂ (fun a j => ofJson? j = some a) as items) : items.mapM ofJson? = some as := by
  induction h with
  | nil => rfl
  | cons head _ ih =>
    rw [List.mapM_cons, head, ih]
    rfl

instance {α : Type} [Codec α] [ReadsBack α] : ReadsBack (List α) where
  shape := .list (shape α)
  reads as j h := by
    obtain ⟨items, rfl, edits⟩ := edits_list h
    exact mapM_of_forall₂ ((List.forall₂_map_left_iff.1 edits).imp fun a j edits => reads a j edits)

/-! ## Structures and alternatives -/

/-- A field of a type, which has to be there. -/
def need (α : Type) [Codec α] [ReadsBack α] : Slot := .required (shape α)

/-- A field that a value stands for if it is left out. -/
def orElse {α : Type} [Codec α] [ReadsBack α] (default : α) : Slot :=
  .defaulted (shape α) (toJson default)

/-- A reading goes on with what was read. -/
theorem read_bind {α β : Type} {x : Option α} {f : α → Option β} {a : α} {b : β}
    (first : x = some a) (rest : f a = some b) : (x >>= f) = some b := by
  rw [first]
  exact rest

section
variable {α β : Type} [Codec α] [ReadsBack α] {slots : List (String × Slot)} {fields fields' : Fields}
  {key : String} {a default : α} {b : β} {f : α → Option β}

/-- A field that has to be there is read back. -/
theorem Keeps.required_eq (h : Keeps slots fields fields') (slot : slots.lookup key = some (need α))
    (held : fields.lookup key = some (toJson a)) : fields'.required key = some a := by
  have kept := h key _ _ slot held
  rw [Fields.required]
  cases found : fields'.lookup key with
  | none =>
    rw [found] at kept
    nomatch kept
  | some j =>
    rw [found] at kept
    cases kept with
    | edited edits => exact reads a j edits

/-- A field that may be left out is read back. -/
theorem Keeps.defaulted_eq (h : Keeps slots fields fields')
    (slot : slots.lookup key = some (orElse default)) (held : fields.lookup key = some (toJson a)) :
    fields'.defaulted key default = some a := by
  have kept := h key _ _ slot held
  rw [Fields.defaulted]
  cases found : fields'.lookup key with
  | none =>
    rw [found] at kept
    cases kept with
    | leftOut same edits =>
      -- what stands for the field is a written form of two values, which are one then
      cases same
      exact (ofJson?_toJson default).symm.trans (reads a _ edits)
  | some j =>
    rw [found] at kept
    cases kept with
    | edited edits => exact reads a j edits

theorem Keeps.required (h : Keeps slots fields fields') (slot : slots.lookup key = some (need α))
    (held : fields.lookup key = some (toJson a)) (rest : f a = some b) :
    (fields'.required key >>= f) = some b :=
  read_bind (h.required_eq slot held) rest

theorem Keeps.defaulted (h : Keeps slots fields fields')
    (slot : slots.lookup key = some (orElse default)) (held : fields.lookup key = some (toJson a))
    (rest : f a = some b) : (fields'.defaulted key default >>= f) = some b :=
  read_bind (h.defaulted_eq slot held) rest

end

end SoapPolicy.Json
