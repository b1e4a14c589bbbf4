import ApiBindings.Text.Blank
import Mathlib.Data.List.DropRight

/-!
# Trimmed texts

Trimming takes the characters of a class away from both ends of a text, up to the first and the last
character of another class. What is left is determined by that (`trimmed_iff`).
-/

namespace ApiBindings.Text

/-- What a text leaves without the characters of a class at its ends. -/
structure Trimmed (p : Char → Bool) (cs kept : List Char) : Prop where
  within : ∃ before after, cs = before ++ kept ++ after ∧ (∀ c ∈ before, p c) ∧ ∀ c ∈ after, p c
  head : ∀ c ∈ kept.head?, p c = false
  last : ∀ c ∈ kept.getLast?, p c = false

section Trimming

variable {p : Char → Bool} {c : Char} {cs kept : List Char}

theorem dropTrailing_eq_rdropWhile (p : Char → Bool) (cs : List Char) :
    dropTrailing p cs = cs.rdropWhile p := rfl

theorem isInfix_trimBy (p : Char → Bool) (cs : List Char) : trimBy p cs <:+: cs :=
  (List.rdropWhile_prefix p (cs.dropWhile p)).isInfix.trans (List.dropWhile_suffix p).isInfix

theorem head_trimBy (h : c ∈ (trimBy p cs).head?) : p c = false := by
  obtain ⟨after, hafter⟩ : trimBy p cs <+: cs.dropWhile p := List.rdropWhile_prefix p _
  have hhead : (cs.dropWhile p).head? = some c := by
    rw [← hafter, List.head?_append, Option.mem_def.1 h]
    rfl
  have hkept := List.head?_dropWhile_not p cs
  rwa [hhead] at hkept

theorem last_trimBy (h : c ∈ (trimBy p cs).getLast?) : p c = false := by
  obtain ⟨hne, rfl⟩ := List.mem_getLast?_eq_getLast h
  exact Bool.eq_false_iff.2 (List.rdropWhile_last_not p _ hne)

theorem exists_dropTrailing (p : Char → Bool) (cs : List Char) :
    ∃ after, cs = dropTrailing p cs ++ after ∧ ∀ c ∈ after, p c := by
  refine ⟨(cs.reverse.takeWhile p).reverse, ?_, ?_⟩
  · rw [dropTrailing, ← List.reverse_append, List.takeWhile_append_dropWhile, List.reverse_reverse]
  · intro c hc
    exact List.mem_takeWhile_imp (List.mem_reverse.1 hc)

theorem dropTrailing_append {after : List Char} (hafter : ∀ c ∈ after, p c)
    (hlast : ∀ c ∈ kept.getLast?, p c = false) : dropTrailing p (kept ++ after) = kept := by
  have hhead : kept.reverse.dropWhile p = kept.reverse := by
    cases hr : kept.reverse with
    | nil => rfl
    | cons c rest =>
      have hc : kept.getLast? = some c := by rw [← List.head?_reverse, hr]; rfl
      rw [List.dropWhile_cons, if_neg (by simp [hlast c hc])]
  rw [dropTrailing, List.reverse_append, List.dropWhile_append_of_pos, hhead, List.reverse_reverse]
  exact fun c hc => hafter c (List.mem_reverse.1 hc)

/-- There is one way to trim a text. -/
theorem trimmed_iff : Trimmed p cs kept ↔ kept = trimBy p cs := by
  constructor
  · rintro ⟨⟨before, after, rfl, hbefore, hafter⟩, hhead, hlast⟩
    rw [trimBy, List.append_assoc, List.dropWhile_append_of_pos hbefore]
    cases kept with
    | nil =>
      have hnone : ([] ++ after).dropWhile p = [] := List.dropWhile_eq_nil_iff.2 hafter
      rw [hnone]
      rfl
    | cons c kept =>
      have hc : p c = false := hhead c rfl
      rw [List.cons_append, List.dropWhile_cons, if_neg (by simp [hc]), ← List.cons_append]
      exact (dropTrailing_append hafter hlast).symm
  · rintro rfl
    obtain ⟨after, hsplit, hafter⟩ := exists_dropTrailing p (cs.dropWhile p)
    refine ⟨⟨cs.takeWhile p, after, ?_, ?_, hafter⟩, fun c => head_trimBy, fun c => last_trimBy⟩
    · rw [List.append_assoc, trimBy, ← hsplit, List.takeWhile_append_dropWhile]
    · exact fun c hc => List.mem_takeWhile_imp hc

end Trimming

end ApiBindings.Text
