import Mathlib.Data.List.TakeWhile
import TxWorkload.Text.Blank

/-!
# Blank — what trimming and splitting leave of a text

A trimmed text is the one piece of a text that has blanks on both sides and neither begins nor ends
with one. The pieces between separators give back the text when they are joined, and they are the
pieces that were joined if none of them has a separator in it.
-/

namespace TxWorkload
namespace Text

/-! ## Trimming -/

/-- Whether a text neither begins nor ends with a blank. -/
structure Bare (cs : List Char) : Prop where
  head : ∀ c ∈ cs.head?, isBlank c = false
  last : ∀ c ∈ cs.getLast?, isBlank c = false

instance (cs : List Char) : Decidable (Bare cs) :=
  decidable_of_iff (cs.head?.all (!isBlank ·) = true ∧ cs.getLast?.all (!isBlank ·) = true)
    ⟨fun h => ⟨by simpa [Option.all_eq_true] using h.1, by simpa [Option.all_eq_true] using h.2⟩,
      fun h => ⟨by simpa [Option.all_eq_true] using h.head,
        by simpa [Option.all_eq_true] using h.last⟩⟩

/-- Whether a text is a bare core with blanks on both sides. -/
def Trims (cs core : List Char) : Prop :=
  ∃ front back, cs = front ++ core ++ back ∧ (∀ c ∈ front, isBlank c = true) ∧
    (∀ c ∈ back, isBlank c = true) ∧ Bare core

variable {cs core front : List Char}

/-- The blanks at the front are dropped, and nothing else. -/
theorem dropWhile_front (hfront : ∀ c ∈ front, isBlank c = true)
    (hhead : ∀ c ∈ cs.head?, isBlank c = false) :
    (front ++ cs).dropWhile isBlank = cs := by
  rw [List.dropWhile_append_of_pos hfront]
  cases cs with
  | nil => rfl
  | cons c cs => rw [List.dropWhile_cons_of_neg (by simp [hhead c rfl])]

theorem exists_front (cs : List Char) :
    ∃ front, cs = front ++ cs.dropWhile isBlank ∧ ∀ c ∈ front, isBlank c = true :=
  ⟨cs.takeWhile isBlank, List.takeWhile_append_dropWhile.symm, fun _ => List.mem_takeWhile_imp⟩

theorem head_dropWhile (cs : List Char) :
    ∀ c ∈ (cs.dropWhile isBlank).head?, isBlank c = false := by
  intro c hc
  have hnot := List.head?_dropWhile_not isBlank cs
  rw [hc] at hnot
  exact hnot

theorem trims_trimList (cs : List Char) : Trims cs (trimList cs) := by
  rcases exists_front cs with ⟨front, hcs, hfront⟩
  rcases exists_front (cs.dropWhile isBlank).reverse with ⟨back, hrest, hback⟩
  have hrest : cs.dropWhile isBlank = trimList cs ++ back.reverse := by
    rw [trimList, ← List.reverse_append, ← hrest, List.reverse_reverse]
  refine ⟨front, back.reverse, ?_, hfront, fun c hc => hback c (List.mem_reverse.1 hc), ?_, ?_⟩
  · rw [List.append_assoc, ← hrest]
    exact hcs
  · -- What is left begins where the rest begins, unless nothing is left.
    intro c hc
    apply head_dropWhile cs
    rw [hrest, List.head?_append, hc]
    rfl
  · intro c hc
    rw [trimList, List.getLast?_reverse] at hc
    exact head_dropWhile _ c hc

/-- Trimming leaves the core of a text. -/
theorem trimList_eq_iff : trimList cs = core ↔ Trims cs core := by
  constructor
  · rintro rfl
    exact trims_trimList cs
  · rintro ⟨front, back, rfl, hfront, hback, hbare⟩
    have hback' : ∀ c ∈ back.reverse, isBlank c = true :=
      fun c hc => hback c (List.mem_reverse.1 hc)
    rw [trimList, List.append_assoc]
    cases core with
    | nil =>
        -- Nothing stops the blanks at the front here: those at the back are dropped with them.
        have hnil : (front ++ ([] ++ back)).dropWhile isBlank = [] := by
          rw [List.dropWhile_eq_nil_iff]
          simpa [or_imp, forall_and] using ⟨hfront, hback⟩
        rw [hnil]
        rfl
    | cons c core =>
        have hhead : ∀ d ∈ (c :: core ++ back).head?, isBlank d = false := hbare.head
        have hlast : ∀ d ∈ (c :: core).reverse.head?, isBlank d = false := by
          intro d hd
          rw [List.head?_reverse] at hd
          exact hbare.last d hd
        rw [dropWhile_front hfront hhead, List.reverse_append, dropWhile_front hback' hlast,
          List.reverse_reverse]

/-- Nothing is left of a text exactly if all of it is blank. -/
theorem trimList_eq_nil_iff : trimList cs = [] ↔ ∀ c ∈ cs, isBlank c = true := by
  rw [trimList_eq_iff]
  constructor
  · rintro ⟨front, back, rfl, hfront, hback, -⟩
    simpa [or_imp, forall_and] using ⟨hfront, hback⟩
  · intro h
    exact ⟨cs, [], by simp, h, nofun, nofun, nofun⟩

theorem Trims.subset (h : Trims cs core) : core ⊆ cs := by
  rcases h with ⟨front, back, rfl, -⟩
  intro c hc
  simp [hc]

theorem Trims.bare (h : Trims cs core) : Bare core := by
  rcases h with ⟨front, back, -, -, -, hbare⟩
  exact hbare

/-! ## Splitting -/

variable {sep : Char}

theorem splitList_cons_self (cs : List Char) :
    splitList sep (sep :: cs) = [] :: splitList sep cs :=
  if_pos rfl

/-- A character that is no separator belongs to the first piece. -/
theorem exists_splitList_cons {c : Char} (hc : c ≠ sep) (cs : List Char) :
    ∃ piece rest, splitList sep cs = piece :: rest ∧
      splitList sep (c :: cs) = (c :: piece) :: rest := by
  have hne : splitList sep cs ≠ [] := by
    fun_cases splitList sep cs <;> simp
  rcases List.exists_cons_of_ne_nil hne with ⟨piece, rest, hpieces⟩
  refine ⟨piece, rest, hpieces, ?_⟩
  rw [splitList, if_neg hc, hpieces]

theorem splitList_eq_splitOn (sep : Char) (cs : List Char) :
    splitList sep cs = cs.splitOn sep := by
  rw [List.splitOn_eq_splitOnP]
  induction cs with
  | nil => rfl
  | cons c cs ih =>
      rw [List.splitOnP_cons_eq_if_modifyHead, ← ih]
      by_cases hc : c = sep
      · simp [hc, splitList_cons_self]
      · rcases exists_splitList_cons hc cs with ⟨piece, rest, hpieces, hcons⟩
        simp [hc, hpieces, hcons]

/-- The pieces hold the characters of a text, less the separators. -/
theorem exists_piece_iff {c : Char} :
    (∃ piece ∈ splitList sep cs, c ∈ piece) ↔ c ∈ cs ∧ c ≠ sep := by
  induction cs with
  | nil => simp [splitList]
  | cons d cs ih =>
      -- A separator begins an empty piece; any other character goes to the piece behind it.
      by_cases hd : d = sep
      · subst hd
        rw [splitList_cons_self]
        simp only [List.mem_cons, exists_eq_or_imp, List.not_mem_nil, false_or, ih]
        constructor
        · exact fun h => ⟨.inr h.1, h.2⟩
        · exact fun h => ⟨h.1.resolve_left h.2, h.2⟩
      · rcases exists_splitList_cons hd cs with ⟨piece, rest, hpieces, hcons⟩
        rw [hpieces] at ih
        rw [hcons]
        simp only [List.mem_cons, exists_eq_or_imp, or_assoc] at ih ⊢
        rw [ih]
        constructor
        · rintro (rfl | h)
          · exact ⟨.inl rfl, hd⟩
          · exact ⟨.inr h.1, h.2⟩
        · exact fun h => h.1.imp_right fun hmem => ⟨hmem, h.2⟩

/-- No piece has a separator in it. -/
theorem not_mem_of_mem_splitList {piece : List Char} (h : piece ∈ splitList sep cs) :
    sep ∉ piece :=
  fun hsep => (exists_piece_iff.1 ⟨piece, h, hsep⟩).2 rfl

theorem intercalate_splitList (sep : Char) (cs : List Char) :
    [sep].intercalate (splitList sep cs) = cs := by
  rw [splitList_eq_splitOn, List.intercalate_splitOn]

/-- Pieces that were joined are got back if none of them has a separator in it. -/
theorem splitList_intercalate {pieces : List (List Char)} (hne : pieces ≠ [])
    (hpieces : ∀ piece ∈ pieces, sep ∉ piece) :
    splitList sep ([sep].intercalate pieces) = pieces := by
  rw [splitList_eq_splitOn, List.splitOn_intercalate sep hpieces hne]

end Text
end TxWorkload
