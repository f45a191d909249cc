import Mathlib.Order.Defs.Unbundled
import SoapPolicy.ElementPath

/-!
# When two paths are the same

Names are compared exactly, or with the SOAP version left out.  Either way a name stands for its
`versionless` form, and two names agree exactly if these forms are equal (`QName.agrees_iff`).  So a
path fits a pattern exactly if it has the same names, or begins with them, once the SOAP version is
left out (`ElementPath.fits_iff`, `ElementPath.fits_descend_iff`).

So paths inherit what is true of equality and of prefixes.  To be the same is an equivalence, to be
above is a preorder, and two paths above each other are the same (`ElementPath.fits_orders_paths`).
-/

namespace SoapPolicy

/-- A name without its SOAP version, if the version does not count. -/
def QName.versionless (anySoap : Bool) (q : QName) : QName :=
  if anySoap && Namespace.isSoap q.uri then { q with uri := Namespace.soap11 } else q

theorem QName.agrees_iff {anySoap : Bool} {a b : QName} :
    a.agrees anySoap b = true ↔ a.versionless anySoap = b.versionless anySoap := by
  have soap11 : Namespace.isSoap Namespace.soap11 = true := by simp [Namespace.isSoap]
  have apart {u v : String} (hu : Namespace.isSoap u = true) (hv : Namespace.isSoap v = false) :
      u ≠ v := by
    rintro rfl
    simp [hu] at hv
  obtain ⟨u, l⟩ := a
  obtain ⟨v, m⟩ := b
  cases anySoap with
  | false => simp [agrees, versionless]
  | true =>
    cases hu : Namespace.isSoap u with
    | true =>
      cases hv : Namespace.isSoap v with
      | true => simp [agrees, versionless, hu, hv]
      | false => simp [agrees, versionless, hu, hv, apart hu hv, apart soap11 hv]
    | false =>
      cases hv : Namespace.isSoap v with
      | true => simp [agrees, versionless, hu, hv, (apart hv hu).symm, (apart soap11 hu).symm]
      | false => simp [agrees, versionless, hu, hv]

namespace ElementPath

/-- The names of a path without their SOAP version, if the version does not count. -/
def versionless (anySoap : Bool) (path : ElementPath) : ElementPath :=
  path.map (QName.versionless anySoap)

theorem fits_iff {anySoap : Bool} {pattern path : ElementPath} :
    fits anySoap false pattern path = true ↔
      pattern.versionless anySoap = path.versionless anySoap := by
  induction pattern generalizing path with
  | nil => cases path <;> simp [versionless]
  | cons a pattern ih =>
    cases path with
    | nil => simp [versionless]
    | cons b path =>
      rw [fits_cons_cons, Bool.and_eq_true, QName.agrees_iff, ih]
      simp [versionless]

/-- With `descend` it is enough that a path begins like the pattern. -/
theorem fits_descend_iff {anySoap : Bool} {pattern path : ElementPath} :
    fits anySoap true pattern path = true ↔
      pattern.versionless anySoap <+: path.versionless anySoap := by
  induction pattern generalizing path with
  | nil => simp [versionless]
  | cons a pattern ih =>
    cases path with
    | nil => simp [versionless]
    | cons b path =>
      rw [fits_cons_cons, Bool.and_eq_true, QName.agrees_iff, ih]
      exact List.cons_prefix_cons.symm

theorem same_iff {a b : ElementPath} :
    same a b = true ↔ a.versionless true = b.versionless true :=
  fits_iff

/-- Two paths that lead to the element of a third lead to one element. -/
theorem same_congr {a b path : ElementPath} (ha : same path a = true) (hb : same path b = true)
    (other : ElementPath) : same other a = same other b := by
  rw [same_iff] at ha hb
  rw [Bool.eq_iff_iff, same_iff, same_iff, ← ha, ← hb]

/-! ## Paths above one another -/

/-- To have the same names is an equivalence. -/
theorem fits_equivalence (anySoap : Bool) :
    Equivalence fun p q => fits anySoap false p q = true where
  refl _ := fits_iff.2 rfl
  symm h := fits_iff.2 (fits_iff.1 h).symm
  trans h h' := fits_iff.2 ((fits_iff.1 h).trans (fits_iff.1 h'))

/-- To begin with the names of another path is a preorder. -/
theorem fits_preorder (anySoap : Bool) :
    IsPreorder ElementPath fun p q => fits anySoap true p q = true where
  refl _ := fits_descend_iff.2 (List.prefix_refl _)
  trans _ _ _ h h' := fits_descend_iff.2 ((fits_descend_iff.1 h).trans (fits_descend_iff.1 h'))

/-- A pattern fits what begins with a path of its own names. -/
theorem fits_descend_iff_exists {anySoap : Bool} {pattern path : ElementPath} :
    fits anySoap true pattern path = true ↔
      ∃ front, front <+: path ∧ fits anySoap false pattern front = true := by
  rw [fits_descend_iff]
  simp only [fits_iff]
  exact List.prefix_map_iff

/-- Paths that begin with the names of each other have the same names. -/
theorem fits_descend_both_iff {anySoap : Bool} {p q : ElementPath} :
    fits anySoap true p q = true ∧ fits anySoap true q p = true ↔
      fits anySoap false p q = true := by
  rw [fits_descend_iff, fits_descend_iff, fits_iff]
  constructor
  · rintro ⟨h, h'⟩
    exact h.eq_of_length_le h'.length_le
  · intro same
    rw [same]
    exact ⟨List.prefix_refl _, List.prefix_refl _⟩

/-- Whether or not SOAP versions count, paths of the same names are equivalent.  To fit with all that is
below is to fit a prefix.  This is a preorder, and its equivalence is the first one. -/
theorem fits_orders_paths (anySoap : Bool) :
    (Equivalence fun p q => fits anySoap false p q = true) ∧
      (∀ p q, fits anySoap true p q = true ↔
        ∃ front, front <+: q ∧ fits anySoap false p front = true) ∧
      (IsPreorder ElementPath fun p q => fits anySoap true p q = true) ∧
      ∀ p q, fits anySoap true p q = true ∧ fits anySoap true q p = true ↔
        fits anySoap false p q = true := by
  refine ⟨fits_equivalence anySoap, fun p q => ?_, fits_preorder anySoap, fun p q => ?_⟩
  · exact fits_descend_iff_exists
  · exact fits_descend_both_iff

end ElementPath

end SoapPolicy
