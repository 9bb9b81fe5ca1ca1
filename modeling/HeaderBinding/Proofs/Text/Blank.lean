import HeaderBinding.Text.Blank
import Mathlib.Data.List.DropRight

/-!
# What trimming keeps

Trimming takes nothing but blanks away, and nothing at all from a text that has something else at
both of its ends.
-/

namespace HeaderBinding
namespace Text

section

variable {s gap first second : List Char} {c : Char}

theorem trimEnd_eq_rdropWhile (s : List Char) : trimEnd s = s.rdropWhile isBlank :=
  rfl

theorem trim_sublist (s : List Char) : (trim s).Sublist s :=
  (List.rdropWhile_prefix isBlank _).sublist.trans (List.dropWhile_sublist isBlank)

theorem trim_trim (s : List Char) : trim (trim s) = trim s := by
  have shorter : trim s <+: trimStart s := List.rdropWhile_prefix isBlank _
  have front : trimStart (trim s) = trim s := by
    rw [trimStart, List.dropWhile_eq_self_iff]
    intro nonempty
    have unblank := List.dropWhile_get_zero_not isBlank s
      (Nat.lt_of_lt_of_le nonempty shorter.length_le)
    rwa [shorter.getElem]
  rw [trim, front, trim, trimEnd_eq_rdropWhile, trimEnd_eq_rdropWhile, List.rdropWhile_idempotent]

theorem trim_cons (blank : isBlank c = true) (s : List Char) : trim (c :: s) = trim s := by
  rw [trim, trimStart, List.dropWhile_cons_of_pos blank]
  rfl

theorem trim_concat (blank : isBlank c = true) (s : List Char) : trim (s ++ [c]) = trim s := by
  rw [trim, trim, trimStart, List.dropWhile_append]
  split
  · rename_i empty
    rw [trimStart, List.isEmpty_iff.mp empty, List.dropWhile_cons_of_pos blank]
    rfl
  · rw [trimEnd, List.reverse_append, List.reverse_singleton, List.singleton_append,
      List.dropWhile_cons_of_pos blank]
    rfl

theorem trimmed_eq_self_iff {text : String} :
    trimmed text = text ↔ trim text.toList = text.toList := by
  rw [trimmed, ← String.toList_inj, String.toList_ofList]

theorem mem_trimStart_iff (solid : isBlank c = false) : c ∈ trimStart s ↔ c ∈ s := by
  refine ⟨fun kept => (List.dropWhile_sublist isBlank).subset kept, fun listed => ?_⟩
  rw [← List.takeWhile_append_dropWhile (p := isBlank) (l := s), List.mem_append] at listed
  refine listed.resolve_left fun dropped => ?_
  rw [List.mem_takeWhile_imp dropped] at solid
  cases solid

/-- Trimming loses no character that is not blank. -/
theorem mem_trim_iff (solid : isBlank c = false) : c ∈ trim s ↔ c ∈ s := by
  have back : c ∈ trimEnd (trimStart s) ↔ c ∈ (trimStart s).reverse := by
    rw [trimEnd, List.mem_reverse]
    exact mem_trimStart_iff solid
  rw [trim, back, List.mem_reverse, mem_trimStart_iff solid]

/-- Blanks behind a text are dropped up to the text. -/
theorem trimEnd_append (blank : ∀ c ∈ gap, isBlank c = true)
    (last : ∀ c ∈ s.getLast?, isBlank c = false) : trimEnd (s ++ gap) = s := by
  have back : (gap.reverse ++ s.reverse).dropWhile isBlank = s.reverse.dropWhile isBlank :=
    List.dropWhile_append_of_pos fun c listed => blank c (List.mem_reverse.mp listed)
  rw [trimEnd, List.reverse_append, back]
  cases back_eq : s.reverse with
  | nil => rw [List.dropWhile_nil, List.reverse_nil, List.reverse_eq_nil_iff.mp back_eq]
  | cons c rest =>
      have solid : isBlank c = false := by
        apply last
        rw [← List.head?_reverse, back_eq]
        rfl
      rw [List.dropWhile_cons_of_neg (by simp [solid]), ← back_eq, List.reverse_reverse]

theorem trimEnd_eq_self (last : ∀ c ∈ s.getLast?, isBlank c = false) : trimEnd s = s := by
  have nothing : ∀ c ∈ ([] : List Char), isBlank c = true := by simp
  simpa using trimEnd_append nothing last

/-- What is dropped at the end of a text are blanks. -/
theorem exists_eq_trimEnd_append (s : List Char) :
    ∃ gap, s = trimEnd s ++ gap ∧ (∀ c ∈ gap, isBlank c = true) ∧
      ∀ c ∈ (trimEnd s).getLast?, isBlank c = false := by
  refine ⟨s.rtakeWhile isBlank, List.rdropWhile_append_rtakeWhile.symm,
    fun c => List.mem_rtakeWhile_imp, fun c final => ?_⟩
  rw [trimEnd_eq_rdropWhile] at final
  obtain ⟨kept_ne, rfl⟩ := List.mem_getLast?_eq_getLast final
  simpa using List.rdropWhile_last_not isBlank s kept_ne

end

/-- Blanks between two parts of a text. -/
structure Gap where
  blanks : List Char
  isBlank_of_mem : ∀ c ∈ blanks, isBlank c = true

/-- Nothing between two parts of a text. -/
def Gap.empty : Gap :=
  ⟨[], by simp⟩

/-- The text is not empty and has no blanks at its ends. -/
structure IsTight (s : List Char) : Prop where
  ne_nil : s ≠ []
  head : ∀ c ∈ s.head?, isBlank c = false
  last : ∀ c ∈ s.getLast?, isBlank c = false

namespace IsTight

variable {s gap first second : List Char}

/-- Whatever stands between them, two texts make one that has no blanks at its ends. -/
theorem append (first_tight : IsTight first) (gap : List Char) (second_tight : IsTight second) :
    IsTight (first ++ gap ++ second) where
  ne_nil := by simp [first_tight.ne_nil]
  head := by
    rw [List.append_assoc, List.head?_append_of_ne_nil _ first_tight.ne_nil]
    exact first_tight.head
  last := by
    rw [List.getLast?_append_of_ne_nil _ second_tight.ne_nil]
    exact second_tight.last

theorem of_not_isBlank (ne_nil : s ≠ []) (unspaced : ∀ c ∈ s, isBlank c = false) : IsTight s where
  ne_nil := ne_nil
  head c first := unspaced c (List.mem_of_mem_head? first)
  last c final := unspaced c (List.mem_of_getLast? final)

theorem trimStart_eq (tight : IsTight s) : trimStart s = s := by
  obtain ⟨c, rest, rfl⟩ := List.exists_cons_of_ne_nil tight.ne_nil
  have unblank := tight.head c rfl
  rw [trimStart, List.dropWhile_cons_of_neg (by rw [unblank]; exact Bool.false_ne_true)]

theorem reverse (tight : IsTight s) : IsTight s.reverse where
  ne_nil := by simpa using tight.ne_nil
  head := by simpa using tight.last
  last := by simpa using tight.head

theorem trim_eq (tight : IsTight s) : trim s = s := by
  rw [trim, tight.trimStart_eq, trimEnd_eq_self tight.last]

theorem of_trim_eq (ne_nil : s ≠ []) (trimmed : trim s = s) : IsTight s := by
  have front : trimStart s = s := by
    refine (List.dropWhile_sublist isBlank).eq_of_length_le ?_
    conv_lhs => rw [← trimmed]
    exact length_trimEnd_le _
  have back : trimEnd s = s := by rwa [trim, front] at trimmed
  refine ⟨ne_nil, fun c first => ?_, ?_⟩
  · obtain ⟨rest, rfl⟩ := List.head?_eq_some_iff.mp first
    have stays := List.dropWhile_eq_self_iff.mp front (Nat.zero_lt_succ _)
    simpa using stays
  · obtain ⟨-, -, -, last⟩ := exists_eq_trimEnd_append s
    rwa [back] at last

/-- Blanks beyond the end of a text are dropped up to the text. -/
theorem trimStart_gap (tight : IsTight s) (blank : ∀ c ∈ gap, isBlank c = true) :
    trimStart (gap.reverse ++ s.reverse) = s.reverse := by
  rw [trimStart, List.dropWhile_append_of_pos fun c listed => blank c (List.mem_reverse.mp listed)]
  exact tight.reverse.trimStart_eq

end IsTight

end Text
end HeaderBinding
