import Mathlib.Data.Finset.Card
import Mathlib.Tactic

/-!
# Counting normal forms

Texts of two kinds are put into one set: bare texts, which stand for their normal forms, and listed
texts, which stand for themselves. The size of the set is the number of normal forms exactly when no
normal form is there twice.
-/

namespace NormalForms

variable {α : Type*} [DecidableEq α] {normal : α → α} {bare listed : Finset α}

/-- Texts under their normal forms, beside texts that are listed as they stand: no two have the same
normal form. -/
structure Distinct (normal : α → α) (bare listed : Finset α) : Prop where
  injective : ∀ t ∈ bare, ∀ t' ∈ bare, normal t = normal t' → t = t'
  listed : ∀ t ∈ bare, normal t ∈ listed → normal t = t

/-- Counting texts counts normal forms exactly when the texts are distinct. -/
theorem card_union_eq_iff (hself : ∀ t ∈ bare, t ∈ listed → normal t = t) :
    (bare ∪ listed).card = (bare.image normal ∪ listed).card ↔ Distinct normal bare listed := by
  set form : α → α := fun t => if t ∈ bare then normal t else t with hform
  have himage : (bare ∪ listed).image form = bare.image normal ∪ listed := by
    ext k
    simp only [Finset.mem_image, Finset.mem_union, hform]
    constructor
    · rintro ⟨t, ht, rfl⟩
      split_ifs with hbare
      · exact .inl ⟨t, hbare, rfl⟩
      · exact .inr (ht.resolve_left hbare)
    · rintro (⟨t, ht, rfl⟩ | hk)
      · exact ⟨t, .inl ht, if_pos ht⟩
      · refine ⟨k, .inr hk, ?_⟩
        split_ifs with hbare
        · exact hself k hbare hk
        · rfl
  rw [← himage, @eq_comm ℕ, Finset.card_image_iff]
  constructor
  · intro hinj
    refine ⟨fun t ht t' ht' heq => ?_, fun t ht hlisted => ?_⟩
    · refine hinj (by simp [ht]) (by simp [ht']) ?_
      simp only [hform, if_pos ht, if_pos ht', heq]
    · refine (hinj (by simp [hlisted]) (by simp [ht]) ?_)
      simp only [hform, if_pos ht]
      split_ifs with hbare
      · exact hself _ hbare hlisted
      · rfl
  · intro hdistinct t ht t' ht' heq
    simp only [Finset.coe_union, Set.mem_union, Finset.mem_coe] at ht ht'
    simp only [hform] at heq
    split_ifs at heq with hbare hbare' hbare'
    · exact hdistinct.injective t hbare t' hbare' heq
    · have hlisted := ht'.resolve_left hbare'
      rw [← heq, hdistinct.listed t hbare (heq ▸ hlisted)]
    · have hlisted := ht.resolve_left hbare
      rw [heq, hdistinct.listed t' hbare' (heq ▸ hlisted)]
    · exact heq

/-- Among distinct texts, those with a property and the listed ones are counted by their normal
forms when the bare texts that count without it are not listed. -/
theorem card_filter_eq_iff (hself : ∀ t ∈ bare, t ∈ listed → normal t = t)
    (h : Distinct normal bare listed) (p : α → Prop) [DecidablePred p] :
    ((bare ∪ listed).filter fun t => t ∈ bare → p t).card =
        ((bare.filter p).image normal ∪ listed).card ↔
      ∀ t ∈ bare, normal t ∈ listed → p t := by
  have hdistinct : Distinct normal (bare.filter p) listed :=
    ⟨fun t ht t' ht' => h.injective t (Finset.mem_filter.mp ht).1 t' (Finset.mem_filter.mp ht').1,
      fun t ht => h.listed t (Finset.mem_filter.mp ht).1⟩
  rw [← (card_union_eq_iff fun t ht => hself t (Finset.mem_filter.mp ht).1).mpr hdistinct]
  have hsub : (bare ∪ listed).filter (fun t => t ∈ bare → p t) ⊆ bare.filter p ∪ listed := by
    intro t ht
    simp only [Finset.mem_filter, Finset.mem_union] at ht ⊢
    tauto
  constructor
  · intro hcard t ht hlisted
    have heq := Finset.eq_of_subset_of_card_le hsub hcard.ge
    have hform := h.listed t ht hlisted
    rw [hform] at hlisted
    have hmem : t ∈ (bare ∪ listed).filter (fun t => t ∈ bare → p t) := by
      rw [heq]
      simp [hlisted]
    exact (Finset.mem_filter.mp hmem).2 ht
  · intro hp
    congr 1
    refine Finset.Subset.antisymm hsub fun t ht => ?_
    simp only [Finset.mem_filter, Finset.mem_union] at ht ⊢
    refine ⟨ht.imp_left And.left, fun hbare => ?_⟩
    rcases ht with ht | ht
    · exact ht.2
    · exact hp t hbare (by rwa [hself t hbare ht])

end NormalForms
