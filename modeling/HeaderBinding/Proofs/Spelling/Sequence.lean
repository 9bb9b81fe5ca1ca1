import HeaderBinding.Spelling.Sequence
import HeaderBinding.Proofs.Text.Blank
import HeaderBinding.Proofs.Text.Bracket
import Mathlib.Data.List.Basic

/-!
# The grammar of sequence instances

An instance of a template is its name and a text in angle brackets, the last of which matches the
first. The text is an instance of a template itself, or a list of arguments, or one argument.
`specified_ofSpelling_iff` says when the argument read off a spelling is the one of this grammar:
brackets are not matched by the reader, and a comma in parentheses parts arguments for it.
-/

namespace HeaderBinding
namespace SequenceArgument

open Text

/-! ## The grammar -/

/-- What stands between the ends of a text is in a pair of parentheses: one of them before it and
its match behind it. -/
def IsEnclosed (before after : List Char) : Prop :=
  ∃ outside inside later beyond, before = outside ++ '(' :: inside ∧ after = later ++ ')' :: beyond ∧
    Balanced '(' ')' (inside ++ later)

/-- A comma is in no parentheses and so parts the text into arguments. -/
def HasTopLevelComma (inner : List Char) : Prop :=
  ∃ before after, inner = before ++ ',' :: after ∧ ¬IsEnclosed before after

/-- A spelling without the blanks at its ends and without `::` in front. -/
def unrooted (spelling : String) : List Char :=
  let s := trim spelling.toList
  (dropFront? [':', ':'] s).getD s

/-- How to read a spelling as the name of a listed template with a text in angle brackets behind it,
blanks being allowed between them. The blanks are no part of the name, and neither is a bracket. -/
structure Frame (templates : List String) (spelling : String) where
  name : List Char
  gap : Gap
  inner : List Char
  name_mem : String.ofList name ∈ templates
  last_name : ∀ c ∈ name.getLast?, isBlank c = false
  notMem_name : '<' ∉ name
  unrooted_eq : unrooted spelling = name ++ gap.blanks ++ '<' :: (inner ++ ['>'])

variable {templates : List String} {spelling : String}

/-- The last bracket matches the first one, for those between them match one another. -/
def Frame.IsClosed (frame : Frame templates spelling) : Prop :=
  Balanced '<' '>' frame.inner

/-- What the argument of a spelling is by the grammar, if the spelling is an instance at all. -/
inductive Specified (templates : List String) (spelling : String) :
    Option SequenceArgument → Prop
  | none (unmatched : ∀ frame : Frame templates spelling, ¬frame.IsClosed) :
      Specified templates spelling none
  | nested (frame : Frame templates spelling) (closed : frame.IsClosed)
      (template : '<' ∈ frame.inner) : Specified templates spelling (some nested)
  | multiple (frame : Frame templates spelling) (closed : frame.IsClosed)
      (plain : '<' ∉ frame.inner) (several : HasTopLevelComma frame.inner) :
      Specified templates spelling (some multiple)
  | single (frame : Frame templates spelling) (closed : frame.IsClosed)
      (plain : '<' ∉ frame.inner) (alone : ¬HasTopLevelComma frame.inner) :
      Specified templates spelling (some (single (String.ofList (trim frame.inner))))

/-! ## What the reader finds -/

theorem Frame.cut?_eq (frame : Frame templates spelling) :
    cut? '<' (unrooted spelling) = some (frame.name ++ frame.gap.blanks, frame.inner ++ ['>']) := by
  rw [cut?_eq_some, List.mem_append, not_or]
  refine ⟨⟨frame.notMem_name, fun listed => ?_⟩, frame.unrooted_eq⟩
  exact absurd (frame.gap.isBlank_of_mem _ listed) (by decide)

theorem Frame.inner_eq (first second : Frame templates spelling) : first.inner = second.inner := by
  have same := first.cut?_eq.symm.trans second.cut?_eq
  simp only [Option.some.injEq, Prod.mk.injEq, List.append_cancel_right_eq] at same
  exact same.2

theorem ofSpelling?_eq_some_of_frame (frame : Frame templates spelling) :
    ofSpelling? templates spelling = some (ofInner (trim frame.inner)) := by
  have cut := frame.cut?_eq
  have closing : dropBack? ['>'] (frame.inner ++ ['>']) = some frame.inner :=
    dropBack?_eq_some.mpr rfl
  rw [unrooted] at cut
  rw [ofSpelling?]
  simp only [cut]
  rw [trimEnd_append frame.gap.isBlank_of_mem frame.last_name,
    if_pos (List.contains_iff_mem.mpr frame.name_mem), closing, Option.map_some]

theorem nonempty_frame {argument : SequenceArgument}
    (found : ofSpelling? templates spelling = some argument) :
    Nonempty (Frame templates spelling) := by
  rw [ofSpelling?] at found
  cases cut : cut? '<' (unrooted spelling) with
  | none =>
      rw [unrooted] at cut
      simp [cut] at found
  | some parts =>
      obtain ⟨head, tail⟩ := parts
      obtain ⟨absent, whole⟩ := cut?_eq_some.mp cut
      rw [unrooted] at cut
      simp only [cut, Option.ite_none_right_eq_some, Option.map_eq_some_iff] at found
      obtain ⟨listed, inner, split, -⟩ := found
      obtain ⟨gap, head_eq, blank, last⟩ := exists_eq_trimEnd_append head
      rw [dropBack?_eq_some] at split
      refine ⟨⟨trimEnd head, ⟨gap, blank⟩, inner, List.contains_iff_mem.mp listed, last, ?_, ?_⟩⟩
      · exact fun kept => absent ((List.rdropWhile_prefix isBlank head).subset kept)
      · rw [whole, ← head_eq, split]

theorem ofInner_trim (inner : List Char) :
    ofInner (trim inner) =
      if '<' ∈ inner ∨ '>' ∈ inner then nested
      else if ',' ∈ inner then multiple
      else single (String.ofList (trim inner)) := by
  have opening : '<' ∈ trim inner ↔ '<' ∈ inner := mem_trim_iff (by decide)
  have closing : '>' ∈ trim inner ↔ '>' ∈ inner := mem_trim_iff (by decide)
  have comma : ',' ∈ trim inner ↔ ',' ∈ inner := mem_trim_iff (by decide)
  simp only [ofInner, Bool.or_eq_true, List.contains_iff_mem, opening, closing, comma]

/-- What has to be true of a frame for the reader to give the answer of the grammar. -/
theorem specified_ofInner_iff (frame : Frame templates spelling) :
    Specified templates spelling (some (ofInner (trim frame.inner))) ↔
      frame.IsClosed ∧ ('<' ∉ frame.inner → ',' ∈ frame.inner → HasTopLevelComma frame.inner) := by
  constructor
  · intro specified
    generalize answer : ofInner (trim frame.inner) = argument at specified
    cases specified with
    | nested other closed template =>
        rw [Frame.IsClosed, other.inner_eq frame] at closed
        rw [other.inner_eq frame] at template
        exact ⟨closed, fun plain => absurd template plain⟩
    | multiple other closed plain several =>
        rw [Frame.IsClosed, other.inner_eq frame] at closed
        rw [other.inner_eq frame] at several
        exact ⟨closed, fun _ _ => several⟩
    | single other closed plain alone =>
        rw [Frame.IsClosed, other.inner_eq frame] at closed
        refine ⟨closed, fun _ comma => ?_⟩
        rw [ofInner_trim, if_pos comma] at answer
        split at answer <;> cases answer
  · rintro ⟨closed, commas⟩
    rw [ofInner_trim]
    by_cases template : '<' ∈ frame.inner
    · rw [if_pos (.inl template)]
      exact .nested frame closed template
    · have unclosed : '>' ∉ frame.inner := by
        rwa [← closed.mem_opening_iff (by decide)]
      rw [if_neg (not_or.mpr ⟨template, unclosed⟩)]
      by_cases comma : ',' ∈ frame.inner
      · rw [if_pos comma]
        exact .multiple frame closed template (commas template comma)
      · rw [if_neg comma]
        refine .single frame closed template ?_
        rintro ⟨before, after, split, -⟩
        rw [split] at comma
        simp at comma

/-- The argument that is read off a spelling is the one of the grammar if and only if, should the
spelling have the frame of an instance, the brackets in it match and its commas, should it have any
and no template, are not all in parentheses. -/
theorem specified_ofSpelling_iff (templates : List String) (spelling : String) :
    Specified templates spelling (ofSpelling? templates spelling) ↔
      ∀ frame : Frame templates spelling, frame.IsClosed ∧
        ('<' ∉ frame.inner → ',' ∈ frame.inner → HasTopLevelComma frame.inner) := by
  cases found : ofSpelling? templates spelling with
  | none =>
      have unframed : IsEmpty (Frame templates spelling) := by
        refine ⟨fun frame => ?_⟩
        rw [ofSpelling?_eq_some_of_frame frame] at found
        cases found
      exact iff_of_true (.none fun frame => (unframed.false frame).elim)
        fun frame => (unframed.false frame).elim
  | some argument =>
      obtain ⟨frame⟩ := nonempty_frame found
      have only (other : Frame templates spelling) : other.inner = frame.inner :=
        other.inner_eq frame
      rw [← found, ofSpelling?_eq_some_of_frame frame, specified_ofInner_iff frame]
      constructor
      · rintro faithful other
        rw [Frame.IsClosed, other.inner_eq frame]
        exact faithful
      · exact fun faithful => faithful frame

/-- A vector of pointers to functions with two parameters. -/
def callbackFrame : Frame ["std::vector"] "std::vector<void (*)(int, double)>" where
  name := "std::vector".toList
  gap := .empty
  inner := "void (*)(int, double)".toList
  name_mem := by decide
  last_name := by
    rintro c ⟨⟩
    decide
  notMem_name := by decide
  unrooted_eq := by decide

theorem not_hasTopLevelComma_callback : ¬HasTopLevelComma callbackFrame.inner := by
  rintro ⟨before, after, split, free⟩
  have parted : "void (*)(int".toList ++ ',' :: " double)".toList = before ++ ',' :: after := split
  rw [List.append_cons_inj_of_notMem (by decide) (by decide)] at parted
  obtain ⟨rfl, -, rfl⟩ := parted
  exact free ⟨"void (*)".toList, "int".toList, " double".toList, [], rfl, rfl,
    .of_notMem (by decide) (by decide)⟩

/-- A member of an instance, which is a template itself. -/
def memberFrame : Frame ["std::vector"] "std::vector<int>::rebind<double>" where
  name := "std::vector".toList
  gap := .empty
  inner := "int>::rebind<double".toList
  name_mem := by decide
  last_name := by
    rintro c ⟨⟩
    decide
  notMem_name := by decide
  unrooted_eq := by decide

theorem not_isClosed_memberFrame : ¬memberFrame.IsClosed := by
  intro closed
  have split : memberFrame.inner = "int".toList ++ '>' :: "::rebind<double".toList := rfl
  exact absurd (closed.mem_before (by decide) split) (by decide)

theorem not_specified_callback_and_member :
    (¬Specified ["std::vector"] "std::vector<void (*)(int, double)>"
        (ofSpelling? ["std::vector"] "std::vector<void (*)(int, double)>")) ∧
      ¬Specified ["std::vector"] "std::vector<int>::rebind<double>"
        (ofSpelling? ["std::vector"] "std::vector<int>::rebind<double>") := by
  constructor
  · rw [ofSpelling?_eq_some_of_frame callbackFrame, specified_ofInner_iff callbackFrame]
    rintro ⟨-, commas⟩
    exact not_hasTopLevelComma_callback (commas (by decide) (by decide))
  · rw [ofSpelling?_eq_some_of_frame memberFrame, specified_ofInner_iff memberFrame]
    rintro ⟨closed, -⟩
    exact not_isClosed_memberFrame closed

end SequenceArgument
end HeaderBinding
