import Mathlib.Data.List.Forall2
import TxWorkload.Text.Ascii

/-!
# Ascii — ASCII characters and their case

Facts about ASCII characters are settled by looking at all of them. Only letters among them have
another case, and that of a letter in lower case is its upper case.
-/

namespace TxWorkload
namespace Text

variable {c d : Char}

/-- What is true of the first 128 characters is true of every ASCII character. -/
theorem forall_ascii {P : Char → Prop} (h : ∀ n < 128, P (Char.ofNat n)) (hc : c.toNat < 128) :
    P c := by
  have hp := h c.toNat hc
  rwa [Char.ofNat_toNat] at hp

/-- No other character has an ASCII character as its lower case. -/
theorem toNat_of_toLower (h : c.toLower.toNat < 128) : c.toNat < 128 := by
  unfold Char.toLower at h
  split at h
  · rename_i hupper
    exact Nat.lt_of_le_of_lt hupper.2 (by decide)
  · exact h

/-- A character is a given ASCII character in lower case, or else its upper case, if and only if
that is its lower case. -/
theorem toLower_eq_iff (hascii : d.toNat < 128) (hlower : d.toLower = d) :
    c.toLower = d ↔ c = d ∨ c = d.toUpper := by
  -- Either way both characters are ASCII, so the step between the cases is checked for all of them.
  have hback : d.toLower = d → d.toUpper.toLower = d :=
    forall_ascii (P := fun d => d.toLower = d → d.toUpper.toLower = d) (by decide +kernel) hascii
  constructor
  · intro h
    have hc : c.toNat < 128 := toNat_of_toLower (by rwa [h])
    have hcase : c = c.toLower ∨ c = c.toLower.toUpper :=
      forall_ascii (P := fun c => c = c.toLower ∨ c = c.toLower.toUpper) (by decide +kernel) hc
    rwa [h] at hcase
  · rintro (rfl | rfl)
    · exact hlower
    · exact hback hlower

theorem map_toLower_eq_iff {cs ds : List Char}
    (h : ∀ d ∈ ds, d.toNat < 128 ∧ d.toLower = d) :
    cs.map Char.toLower = ds ↔ List.Forall₂ (fun c d => c = d ∨ c = d.toUpper) cs ds := by
  induction cs generalizing ds with
  | nil => simp [eq_comm]
  | cons c cs ih =>
      cases ds with
      | nil => simp
      | cons d ds =>
          rcases h d List.mem_cons_self with ⟨hascii, hlower⟩
          rw [List.map_cons, List.cons.injEq, List.forall₂_cons,
            toLower_eq_iff hascii hlower, ih fun d hd => h d (List.mem_cons_of_mem _ hd)]

/-- A text differs from a word in lower case by the case of ASCII letters at most if and only if
each of its letters is the letter of the word, or its upper case. -/
theorem sameIgnoringCase_iff {s word : String}
    (h : ∀ d ∈ word.toList, d.toNat < 128 ∧ d.toLower = d) :
    sameIgnoringCase s word = true ↔
      List.Forall₂ (fun c d => c = d ∨ c = d.toUpper) s.toList word.toList := by
  have hword : word.toList.map Char.toLower = word.toList := by
    rw [List.map_congr_left fun d hd => (h d hd).2, List.map_id']
  rw [sameIgnoringCase, hword, beq_iff_eq, map_toLower_eq_iff h]

end Text
end TxWorkload
