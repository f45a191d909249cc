import Mathlib.Data.List.Nodup
import SoapPolicy.Proofs.ElementPath
import SoapPolicy.Proofs.TokenProtection

/-!
# The check finds every assignment

The check whether a signature signs every `Signed` supporting token goes through the tokens once,
and each takes the first element that fits it.  It finds places for all tokens whenever there are any
(`signsAll_iff`).  The reason is that elements which fit one token either all fit another or none of
them does (`isBy_congr`).  So if a token takes the element that was meant for another one, the other
one is content with the element that the first leaves behind (`Places.pass_on`).

It follows that the order of the signed elements does not count (`SignsSupporting.perm`), although
the check reads them in order.
-/

namespace SoapPolicy

variable {r : Registry} {tokens : List TokenId} {signed : List SignedElement} {signer : TokenId}

/-- Of the tokens that an element fits, each other element fits all or none. -/
theorem isBy_congr {e e' : SignedElement} {p q : ElementPath} (hp : e.isBy r signer p = true)
    (hq : e.isBy r signer q = true) (h : e'.isBy r signer p = true) :
    e'.isBy r signer q = true := by
  rw [signedElement_isBy_iff] at hp hq h ⊢
  refine ⟨h.1, ?_⟩
  rw [← ElementPath.same_congr hp.2 hq.2]
  exact h.2

namespace Places

variable {id : TokenId} {token : SecurityToken} {ids : List TokenId} {place : TokenId → Nat}
  {numbered : List (SignedElement × Nat)}

theorem tail (h : Places r signer (id :: ids) numbered place) :
    Places r signer ids numbered place where
  found id' token' hs := h.found id' token' ⟨.tail _ hs.1, hs.2⟩
  apart id₁ t₁ id₂ t₂ hs₁ hs₂ := h.apart id₁ t₁ id₂ t₂ ⟨.tail _ hs₁.1, hs₁.2⟩ ⟨.tail _ hs₂.1, hs₂.2⟩

/-- A token takes an element that fits it.  If the element was meant for another token, that one is
content with the element that was meant for the first. -/
theorem pass_on {before after : List (SignedElement × Nat)} {element : SignedElement} {n : Nat}
    (h : Places r signer (id :: ids) (before ++ (element, n) :: after) place)
    (hid : r.get? id = some token) (isSigned : token.isSigned = true) (new : id ∉ ids)
    (fits : element.isBy r signer token.place = true)
    (numbers : ((before ++ (element, n) :: after).map Prod.snd).Nodup) :
    Places r signer ids (before ++ after)
      (fun id' => if place id' = n then place id else place id') := by
  have own : IsSupporting r (id :: ids) id token := ⟨.head _, hid, isSigned⟩
  have older {id' : TokenId} {token' : SecurityToken} (hs : IsSupporting r ids id' token') :
      IsSupporting r (id :: ids) id' token' := ⟨.tail _ hs.1, hs.2⟩
  have differs {id' : TokenId} {token' : SecurityToken} (hs : IsSupporting r ids id' token') :
      place id' ≠ place id := by
    intro heq
    cases h.apart _ _ _ _ (older hs) own heq
    exact new hs.1
  have remains {e : SignedElement} {m : Nat} (he : (e, m) ∈ before ++ (element, n) :: after)
      (hm : m ≠ n) : (e, m) ∈ before ++ after := by
    rcases List.mem_cons.1 (List.perm_middle.mem_iff.1 he) with heq | he
    · cases heq
      exact absurd rfl hm
    · exact he
  have numbered_once {e : SignedElement} (he : (e, n) ∈ before ++ (element, n) :: after) :
      e = element := by
    have own_number : (element, n) ∈ before ++ (element, n) :: after := by simp
    exact (Prod.mk.inj (List.inj_on_of_nodup_map numbers he own_number rfl)).1
  constructor
  · intro id' token' hs
    obtain ⟨e', he', fits'⟩ := h.found id' token' (older hs)
    by_cases taken : place id' = n
    · -- the element taken away fits both tokens, and so does the one that is left behind
      rw [taken] at he'
      cases numbered_once he'
      obtain ⟨e, he, fits_own⟩ := h.found id token own
      have left : place id ≠ n := fun heq => differs hs (taken.trans heq.symm)
      refine ⟨e, ?_, isBy_congr fits fits' fits_own⟩
      rw [if_pos taken]
      exact remains he left
    · refine ⟨e', ?_, fits'⟩
      rw [if_neg taken]
      exact remains he' taken
  · intro id₁ t₁ id₂ t₂ hs₁ hs₂ heq
    by_cases h₁ : place id₁ = n
    · by_cases h₂ : place id₂ = n
      · exact h.apart _ _ _ _ (older hs₁) (older hs₂) (h₁.trans h₂.symm)
      · rw [if_pos h₁, if_neg h₂] at heq
        exact absurd heq.symm (differs hs₂)
    · by_cases h₂ : place id₂ = n
      · rw [if_neg h₁, if_pos h₂] at heq
        exact absurd heq (differs hs₁)
      · rw [if_neg h₁, if_neg h₂] at heq
        exact h.apart _ _ _ _ (older hs₁) (older hs₂) heq

end Places

/-- Every handle of a list names a token. -/
def AllKnown (r : Registry) (ids : List TokenId) : Prop :=
  ∀ id ∈ ids, ∃ token, r.get? id = some token

namespace HeaderRecord

/-- If there are places for all tokens, the check finds some. -/
theorem signsAll_of_places {ids : List TokenId} (known : AllKnown r ids) :
    ∀ {numbered : List (SignedElement × Nat)} {place : TokenId → Nat}, ids.Nodup →
      (numbered.map Prod.snd).Nodup → Places r signer ids numbered place →
      signsAll r signer ids (numbered.map Prod.fst) = .ok true := by
  induction ids with
  | nil => exact fun _ _ _ => rfl
  | cons id ids ih =>
    intro numbered place distinct numbers h
    obtain ⟨new, hids⟩ := List.nodup_cons.1 distinct
    obtain ⟨⟨token, hid⟩, known⟩ := List.forall_mem_cons.1 known
    rw [signsAll, Registry.get_eq_ok_iff.2 hid]
    simp only [bind, Except.bind, pure, Except.pure]
    cases isSigned : token.isSigned with
    | false => simpa using ih known hids numbers h.tail
    | true =>
      obtain ⟨e, he, fits⟩ := h.found id token ⟨.head _, hid, isSigned⟩
      have some_fits :
          (numbered.map Prod.fst).any (SignedElement.isBy r signer token.place) = true :=
        List.any_eq_true.2 ⟨e, List.mem_map_of_mem he, fits⟩
      obtain ⟨⟨element, n⟩, before, after, -, first, rfl, erased⟩ :=
        List.exists_of_eraseP (p := SignedElement.isBy r signer token.place ∘ Prod.fst) he fits
      have fewer : ((before ++ after).map Prod.snd).Nodup := by
        have moved := (List.perm_middle.map Prod.snd).nodup_iff.1 numbers
        exact (List.nodup_cons.1 moved).2
      simp only [if_true, some_fits, List.eraseP_map, erased]
      -- the element taken need not be the one at the place of the token
      exact ih known hids fewer (h.pass_on hid isSigned new first numbers)

/-- With known tokens the check gives an answer. -/
theorem exists_signsAll (signer : TokenId) {ids : List TokenId} (known : AllKnown r ids) :
    ∀ elements : List SignedElement, ∃ all, signsAll r signer ids elements = .ok all := by
  induction ids with
  | nil => exact fun _ => ⟨true, rfl⟩
  | cons id ids ih =>
    intro elements
    obtain ⟨⟨token, hid⟩, known⟩ := List.forall_mem_cons.1 known
    rw [signsAll, Registry.get_eq_ok_iff.2 hid]
    simp only [bind, Except.bind, pure, Except.pure]
    split
    · split
      · exact ih known _
      · exact ⟨false, rfl⟩
    · exact ih known _

/-- The check says whether every token that has to be signed has an element of its own. -/
theorem signsAll_iff (known : AllKnown r tokens) (distinct : tokens.Nodup) :
    signsAll r signer tokens signed = .ok true ↔ SignsSupporting r tokens signed signer := by
  refine ⟨signsSupporting_of_signsAll distinct, fun ⟨place, found, apart⟩ => ?_⟩
  have numbers : (signed.zipIdx.map Prod.snd).Nodup := by
    rw [List.zipIdx_map_snd]
    exact List.nodup_range'
  have places : Places r signer tokens signed.zipIdx place := by
    refine ⟨fun id token hs => ?_, apart⟩
    obtain ⟨element, at_place, fits⟩ := found id token hs
    exact ⟨element, List.mk_mem_zipIdx_iff_getElem?.2 at_place, signedElement_isBy_iff.2 fits⟩
  have all := signsAll_of_places known distinct numbers places
  rwa [List.zipIdx_map_fst] at all

end HeaderRecord

/-! ## The order of the signed elements -/

/-- A permutation moves the items of a list to places of their own. -/
theorem exists_places_of_perm {α : Type} {xs ys : List α} (h : xs.Perm ys) :
    ∃ f : Nat → Nat, Function.Injective f ∧ ∀ i, ys[f i]? = xs[i]? := by
  induction h with
  | nil => exact ⟨id, Function.injective_id, fun _ => rfl⟩
  | cons x _ ih =>
    obtain ⟨f, hf, moved⟩ := ih
    refine ⟨fun | 0 => 0 | i + 1 => f i + 1, ?_, ?_⟩
    · rintro (_ | i) (_ | j) heq
      · rfl
      · cases heq
      · cases heq
      · rw [hf (Nat.succ.inj heq)]
    · rintro (_ | i)
      · rfl
      · simpa using moved i
  | swap x y l =>
    refine ⟨fun | 0 => 1 | 1 => 0 | i + 2 => i + 2, ?_, ?_⟩
    · rintro (_ | _ | i) (_ | _ | j) heq <;> simp_all
    · rintro (_ | _ | i) <;> rfl
  | trans _ _ ih₁ ih₂ =>
    obtain ⟨f, hf, moved_f⟩ := ih₁
    obtain ⟨g, hg, moved_g⟩ := ih₂
    exact ⟨g ∘ f, hg.comp hf, fun i => (moved_g (f i)).trans (moved_f i)⟩

theorem SignsSupporting.perm {signed' : List SignedElement}
    (h : SignsSupporting r tokens signed signer) (moved : signed.Perm signed') :
    SignsSupporting r tokens signed' signer := by
  obtain ⟨place, found, apart⟩ := h
  obtain ⟨f, hf, same⟩ := exists_places_of_perm moved
  refine ⟨f ∘ place, fun id token hs => ?_, fun id₁ t₁ id₂ t₂ hs₁ hs₂ heq => ?_⟩
  · obtain ⟨element, at_place, fits⟩ := found id token hs
    exact ⟨element, (same _).trans at_place, fits⟩
  · exact apart id₁ t₁ id₂ t₂ hs₁ hs₂ (hf heq)

theorem SignedBy.perm {signed' : List SignedElement} {path : ElementPath}
    (h : SignedBy r signed signer path) (moved : signed.Perm signed') :
    SignedBy r signed' signer path := by
  obtain ⟨element, hmem, fits⟩ := h
  exact ⟨element, moved.mem_iff.1 hmem, fits⟩

/-- Neither the order of the tokens nor that of the signed elements counts. -/
theorem HeaderProtected.perm {tokens' : List TokenId} {signed' : List SignedElement}
    (h : HeaderProtected r tokens signed) (same : ∀ id, id ∈ tokens' ↔ id ∈ tokens)
    (moved : signed.Perm signed') : HeaderProtected r tokens' signed' := by
  refine HeaderProtected.congr (fun id hid => ?_) same
  obtain ⟨root, token, hroot, htoken, demands⟩ := h id hid
  refine ⟨root, token, hroot, htoken, fun included signing => ?_, fun endorsing => ?_,
    fun main => ?_⟩
  · exact (demands.signs_itself included signing).perm moved
  · exact (demands.endorses endorsing).perm moved
  · exact (demands.signs_supporting main).perm moved

end SoapPolicy
