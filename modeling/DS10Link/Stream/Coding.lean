import Mathlib.Data.List.Basic
import Mathlib.Data.List.DropRight

/-!
# Texts in two alphabets

A coding `f` writes each letter of a text as a word in another alphabet. Where it shows some letters
through, so that each of them is one letter again and nothing else brings such a letter in, the text
may be cut at these letters before it is written or after.

## Main definitions

* `ShowsThrough f p q text`: the letters that `p` marks are those that `q` marks in the coding

## Main results

* `ShowsThrough.dropWhile`, `ShowsThrough.rdropWhile`: cutting off the ends
* `ShowsThrough.splitOnP`: cutting in between
* `ShowsThrough.forall_iff`, `ShowsThrough.forall_not_iff`: a text of marked letters only, and one
  without any
-/

namespace Coding

variable {α β : Type*} {f : α → List β} {p : α → Bool} {q : β → Bool} {text part : List α}

/-- A marked letter of the text is written as one marked letter; any other as a word of others. -/
def ShowsThrough (f : α → List β) (p : α → Bool) (q : β → Bool) (text : List α) : Prop :=
  ∀ x ∈ text, (p x = true ∧ ∃ y, f x = [y] ∧ q y = true) ∨
    (p x = false ∧ f x ≠ [] ∧ ∀ y ∈ f x, q y = false)

/-- A word without marked letters goes to the front of the first piece. -/
theorem splitOnP_append {word : List β} (h : ∀ y ∈ word, q y = false) (rest : List β) :
    (word ++ rest).splitOnP q = (rest.splitOnP q).modifyHead (word ++ ·) := by
  induction word with
  | nil =>
    rw [List.nil_append]
    cases rest.splitOnP q <;> rfl
  | cons y word ih =>
    have hy : q y = false := h y List.mem_cons_self
    rw [List.cons_append, List.splitOnP_cons_eq_if_modifyHead,
      if_neg (by rw [hy]; exact Bool.false_ne_true),
      ih fun z hz => h z (List.mem_cons_of_mem y hz)]
    cases rest.splitOnP q <;> rfl

namespace ShowsThrough

theorem of_subset (h : ShowsThrough f p q text) (hpart : part ⊆ text) : ShowsThrough f p q part :=
  fun x hx => h x (hpart hx)

theorem head {x : α} (h : ShowsThrough f p q (x :: text)) :
    (p x = true ∧ ∃ y, f x = [y] ∧ q y = true) ∨
      (p x = false ∧ f x ≠ [] ∧ ∀ y ∈ f x, q y = false) :=
  h x List.mem_cons_self

theorem tail {x : α} (h : ShowsThrough f p q (x :: text)) : ShowsThrough f p q text :=
  h.of_subset (List.subset_cons_self x text)

/-- The coding read from its end. -/
theorem reverse (h : ShowsThrough f p q text) :
    ShowsThrough (List.reverse ∘ f) p q text.reverse := by
  intro x hx
  rcases h x (List.mem_reverse.mp hx) with ⟨hp, y, hy, hq⟩ | ⟨hp, hne, hq⟩
  · exact .inl ⟨hp, y, by rw [Function.comp_apply, hy, List.reverse_singleton], hq⟩
  · refine .inr ⟨hp, ?_, ?_⟩
    · rwa [Function.comp_apply, ne_eq, List.reverse_eq_nil_iff]
    · intro y hy
      exact hq y (List.mem_reverse.mp hy)

theorem dropWhile (h : ShowsThrough f p q text) :
    (text.flatMap f).dropWhile q = (text.dropWhile p).flatMap f := by
  induction text with
  | nil => rfl
  | cons x text ih =>
    rw [List.flatMap_cons]
    rcases h.head with ⟨hp, y, hy, hq⟩ | ⟨hp, hne, hq⟩
    · rw [hy, List.singleton_append, List.dropWhile_cons_of_pos hq, List.dropWhile_cons_of_pos hp,
        ih h.tail]
    · obtain ⟨y, ys, hy⟩ := List.exists_cons_of_ne_nil hne
      have hfirst : q y = false := hq y (by rw [hy]; exact List.mem_cons_self)
      rw [List.dropWhile_cons_of_neg (by rw [hp]; exact Bool.false_ne_true), List.flatMap_cons, hy,
        List.cons_append, List.dropWhile_cons_of_neg (by rw [hfirst]; exact Bool.false_ne_true)]

theorem rdropWhile (h : ShowsThrough f p q text) :
    (text.flatMap f).rdropWhile q = (text.rdropWhile p).flatMap f := by
  rw [List.rdropWhile, List.rdropWhile, List.reverse_flatMap, h.reverse.dropWhile,
    List.flatMap_reverse]

theorem splitOnP (h : ShowsThrough f p q text) :
    (text.flatMap f).splitOnP q = (text.splitOnP p).map (List.flatMap f) := by
  induction text with
  | nil => simp
  | cons x text ih =>
    rw [List.flatMap_cons, List.splitOnP_cons_eq_if_modifyHead]
    rcases h.head with ⟨hp, y, hy, hq⟩ | ⟨hp, hne, hq⟩
    · rw [hy, List.singleton_append, List.splitOnP_cons_eq_if_modifyHead, if_pos hq, if_pos hp,
        ih h.tail]
      rfl
    · rw [if_neg (by rw [hp]; exact Bool.false_ne_true), splitOnP_append hq, ih h.tail]
      cases text.splitOnP p <;> rfl

/-- The coding has a marked letter where the text has one. -/
theorem forall_iff (h : ShowsThrough f p q text) :
    (∀ y ∈ text.flatMap f, q y = true) ↔ ∀ x ∈ text, p x = true := by
  constructor
  · intro hall x hx
    rcases h x hx with ⟨hp, -⟩ | ⟨-, hne, hq⟩
    · exact hp
    · obtain ⟨y, hy⟩ := List.exists_mem_of_ne_nil _ hne
      have htrue := hall y (List.mem_flatMap.mpr ⟨x, hx, hy⟩)
      rw [hq y hy] at htrue
      cases htrue
  · intro hall y hy
    obtain ⟨x, hx, hyx⟩ := List.mem_flatMap.mp hy
    rcases h x hx with ⟨-, z, hz, hq⟩ | ⟨hp, -⟩
    · rw [hz, List.mem_singleton] at hyx
      rwa [hyx]
    · rw [hall x hx] at hp
      cases hp

/-- The coding has no marked letter where the text has none. -/
theorem forall_not_iff (h : ShowsThrough f p q text) :
    (∀ y ∈ text.flatMap f, q y = false) ↔ ∀ x ∈ text, p x = false := by
  constructor
  · intro hall x hx
    rcases h x hx with ⟨-, y, hy, hq⟩ | ⟨hp, -⟩
    · have hmem : y ∈ f x := by
        rw [hy]
        exact List.mem_singleton_self y
      have hfalse := hall y (List.mem_flatMap.mpr ⟨x, hx, hmem⟩)
      rw [hq] at hfalse
      cases hfalse
    · exact hp
  · intro hall y hy
    obtain ⟨x, hx, hyx⟩ := List.mem_flatMap.mp hy
    rcases h x hx with ⟨hp, -⟩ | ⟨-, -, hq⟩
    · rw [hall x hx] at hp
      cases hp
    · exact hq y hyx

end ShowsThrough

/-- A piece of a text has only letters of it. -/
theorem subset_of_mem_splitOnP (h : part ∈ text.splitOnP p) : part ⊆ text := by
  induction text generalizing part with
  | nil =>
    rw [List.splitOnP_nil, List.mem_singleton] at h
    rw [h]
    exact List.Subset.refl []
  | cons x text ih =>
    rw [List.splitOnP_cons_eq_if_modifyHead] at h
    split_ifs at h
    · rcases List.mem_cons.mp h with rfl | h
      · exact List.nil_subset _
      · exact List.subset_cons_of_subset x (ih h)
    · obtain ⟨first, rest, hsplit⟩ :=
        List.exists_cons_of_ne_nil (List.splitOnP_ne_nil p text)
      rw [hsplit, List.modifyHead_cons] at h
      rcases List.mem_cons.mp h with rfl | h
      · exact List.cons_subset_cons x (ih (by rw [hsplit]; exact List.mem_cons_self))
      · exact List.subset_cons_of_subset x (ih (by rw [hsplit]; exact List.mem_cons_of_mem _ h))

end Coding
