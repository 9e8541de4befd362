import CatalogOperator.Text.Blank
import Mathlib.Data.List.DropRight

/-!
# `CatalogOperator.Proofs.Text.Trimming`: what trimming leaves of a text

Trimming goes through a text once from either end. What it leaves has no white space at its ends,
and it is the only such text from which the whole is made by putting white space around it.

* `Blank`: white space only. `Trimmed`: no white space at either end. `Padded`: white space around.
* `padded_trim`, `trimmed_trim`: what is left. `trim_eq_iff`: nothing else is.
-/

set_option autoImplicit false

namespace CatalogOperator.Proofs.Text

open CatalogOperator.Text (isBlank trimStart trimEnd trim)

/-- A text of white space only, which may be empty. -/
def Blank (cs : List Char) : Prop :=
  ∀ c ∈ cs, isBlank c = true

-- The instance is named: the characters are finitely many, and a search may find that one first.
instance (cs : List Char) : Decidable (Blank cs) :=
  List.decidableBAll (fun c => isBlank c = true) cs

/-- A text without white space at its ends. -/
structure Trimmed (cs : List Char) : Prop where
  head : ∀ c ∈ cs.head?, isBlank c = false
  last : ∀ c ∈ cs.getLast?, isBlank c = false

instance (cs : List Char) : Decidable (Trimmed cs) :=
  have : Decidable (∀ c ∈ cs.head?, isBlank c = false) := Option.decidableForallMem _
  have : Decidable (∀ c ∈ cs.getLast?, isBlank c = false) := Option.decidableForallMem _
  decidable_of_iff ((∀ c ∈ cs.head?, isBlank c = false) ∧ ∀ c ∈ cs.getLast?, isBlank c = false)
    ⟨fun h => ⟨h.1, h.2⟩, fun h => ⟨h.head, h.last⟩⟩

/-- The texts that have white space around a given one, or none. -/
inductive Padded (cs : List Char) : List Char → Prop
  | intro {before after : List Char} : Blank before → Blank after →
      Padded cs (before ++ (cs ++ after))

variable {before cs after text : List Char}

/-- Every text is padded with nothing. -/
theorem Padded.refl (cs : List Char) : Padded cs cs := by
  have hpadded : Padded cs ([] ++ (cs ++ [])) := .intro (by decide) (by decide)
  rwa [List.nil_append, List.append_nil] at hpadded

/-- Padding takes nothing away. -/
theorem Padded.subset (h : Padded cs text) : cs ⊆ text := by
  obtain ⟨_, _⟩ := h
  exact List.subset_append_of_subset_right _ (List.subset_append_left _ _)

/-- A character that is not blank does not occur among blanks. -/
theorem not_mem_of_blank {c : Char} (h : Blank cs) (hc : isBlank c = false) : c ∉ cs := by
  intro hmem
  rw [h c hmem] at hc
  cases hc

/-- Padding brings in nothing but white space. -/
theorem Padded.not_mem {c : Char} (h : Padded cs text) (hc : isBlank c = false) (hcs : c ∉ cs) :
    c ∉ text := by
  obtain ⟨hb, ha⟩ := h
  have htail := List.not_mem_append hcs (not_mem_of_blank ha hc)
  exact List.not_mem_append (not_mem_of_blank hb hc) htail

/-! ### A text between white space -/

/-- Blanks before a text are dropped at its start. -/
theorem trimStart_append (hb : Blank before) (cs : List Char) :
    trimStart (before ++ cs) = trimStart cs :=
  List.dropWhile_append_of_pos hb

/-- Blanks after a text are dropped at its end. -/
theorem trimEnd_append (cs : List Char) (ha : Blank after) :
    trimEnd (cs ++ after) = trimEnd cs := by
  have hrev : ∀ c ∈ after.reverse, isBlank c = true := fun c hc => ha c (List.mem_reverse.mp hc)
  unfold trimEnd
  rw [List.reverse_append, List.dropWhile_append_of_pos hrev]

/-- A text that ends with no blank keeps its end. -/
theorem trimEnd_eq_self (h : Trimmed cs) : trimEnd cs = cs := by
  refine List.rdropWhile_eq_self_iff.mpr fun hne => ?_
  rw [h.last _ (List.getLast?_eq_some_getLast hne)]
  exact Bool.false_ne_true

/-- Of blanks nothing is left. -/
theorem trim_of_blank (h : Blank cs) : trim cs = [] := by
  have hstart : trimStart cs = [] := List.dropWhile_eq_nil_iff.mpr h
  rw [trim, hstart]
  rfl

/-- A trimmed text is what is left of it with padding. -/
theorem trim_of_padded (h : Trimmed cs) (hp : Padded cs text) : trim text = cs := by
  obtain ⟨hb, ha⟩ := hp
  rw [trim, trimStart_append hb]
  cases cs with
  | nil => exact trim_of_blank ha
  | cons c cs =>
    -- The first character is no white space, so nothing more goes in front.
    have hc : ¬ isBlank c = true := by simp [h.head c rfl]
    have hstart : ∀ after, trimStart (c :: cs ++ after) = c :: cs ++ after :=
      fun _ => List.dropWhile_cons_of_neg hc
    rw [hstart, trimEnd_append _ ha, trimEnd_eq_self h]

/-! ### What is left -/

/-- A text is what trimming leaves of it, with white space around. -/
theorem padded_trim (text : List Char) : Padded (trim text) text := by
  have hb : Blank (text.takeWhile isBlank) := fun _ => List.mem_takeWhile_imp
  have ha : Blank ((trimStart text).rtakeWhile isBlank) := fun _ => List.mem_rtakeWhile_imp
  have hpadded : Padded (trim text) _ := .intro hb ha
  have hend : trim text ++ (trimStart text).rtakeWhile isBlank = trimStart text :=
    List.rdropWhile_append_rtakeWhile
  have hstart : text.takeWhile isBlank ++ trimStart text = text :=
    List.takeWhile_append_dropWhile
  rwa [hend, hstart] at hpadded

/-- What is left has a blank at neither end. -/
theorem trimmed_trim (cs : List Char) : Trimmed (trim cs) where
  head c hc := by
    -- What is left after the end was taken off begins as it did before.
    have hpre : trim cs <+: trimStart cs := List.rdropWhile_prefix isBlank _
    obtain ⟨rest, hrest⟩ := hpre
    have hhead : (trimStart cs).head? = some c := by
      rw [← hrest, List.head?_append, hc]
      rfl
    have hnot := List.head?_dropWhile_not isBlank cs
    rw [show (cs.dropWhile isBlank).head? = some c from hhead] at hnot
    exact hnot
  last c hc := by
    have hne : trim cs ≠ [] := by
      intro heq
      rw [heq] at hc
      cases hc
    have hlast : (trim cs).getLast hne = c :=
      Option.some.inj ((List.getLast?_eq_some_getLast hne).symm.trans hc)
    rw [← hlast]
    exact Bool.eq_false_iff.mpr (List.rdropWhile_last_not isBlank (trimStart cs) hne)

/-- What trimming leaves is the one trimmed text that the whole is padded from. -/
theorem trim_eq_iff : trim text = cs ↔ Trimmed cs ∧ Padded cs text := by
  constructor
  · rintro rfl
    exact ⟨trimmed_trim text, padded_trim text⟩
  · rintro ⟨h, hp⟩
    exact trim_of_padded h hp

end CatalogOperator.Proofs.Text
