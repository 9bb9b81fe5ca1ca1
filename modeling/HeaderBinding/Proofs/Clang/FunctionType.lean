import HeaderBinding.Clang.FunctionType
import HeaderBinding.Proofs.Text.Blank
import HeaderBinding.Proofs.Text.Bracket
import HeaderBinding.Proofs.Text.Pair
import HeaderBinding.Proofs.Text.Word

/-!
# Function types as they are written

A function type is written as its result, its parameters in parentheses and its qualifiers, or with
`auto` in front and the result behind an arrow at the end. Main statement: `ofSpelling?_written`,
what is read off such a spelling is what it was written from, and a spelling cannot be read if and
only if it has no parenthesis outside of angle brackets or does not close the first one.
-/

namespace HeaderBinding
namespace Clang
namespace FunctionType

open Text

section

variable {depth : Nat} {c : Char} {s before inside params tail rest : List Char}

/-! ## The first parenthesis outside of angle brackets -/

/-- How many angle brackets are open behind a character. One that closes none counts for nothing. -/
def angleStep (depth : Nat) (c : Char) : Nat :=
  if c = '<' then depth + 1 else if c = '>' then depth - 1 else depth

/-- How many angle brackets are open behind a text, if `depth` of them are before it. -/
def angleDepth (depth : Nat) (s : List Char) : Nat :=
  s.foldl angleStep depth

/-- Every opening parenthesis is in angle brackets. -/
def IsSheltered (depth : Nat) (s : List Char) : Prop :=
  ∀ before after, s = before ++ '(' :: after → 0 < angleDepth depth before

/-- The text is parted by the first opening parenthesis in it that is in no angle brackets. -/
structure IsOpened (depth : Nat) (s before inside : List Char) : Prop where
  split : s = before ++ '(' :: inside
  outside : angleDepth depth before = 0
  sheltered : IsSheltered depth before

theorem isSheltered_nil (depth : Nat) : IsSheltered depth [] := by
  intro before after split
  simp at split

theorem isSheltered_cons : IsSheltered depth (c :: rest) ↔
    (c = '(' → 0 < depth) ∧ IsSheltered (angleStep depth c) rest := by
  constructor
  · intro sheltered
    refine ⟨?_, fun before after split => sheltered (c :: before) after (split ▸ rfl)⟩
    rintro rfl
    exact sheltered [] rest rfl
  · rintro ⟨first, later⟩ before after split
    cases before with
    | nil => exact first (List.cons.inj split).1
    | cons d before =>
        obtain ⟨rfl, rest_eq⟩ := List.cons.inj split
        exact later before after rest_eq

theorem isOpened_cons (opens : ¬(c = '(' ∧ depth = 0)) :
    IsOpened depth (c :: rest) before inside ↔
      ∃ later, before = c :: later ∧ IsOpened (angleStep depth c) rest later inside := by
  constructor
  · rintro ⟨split, outside, sheltered⟩
    cases before with
    | nil => exact absurd ⟨(List.cons.inj split).1, outside⟩ opens
    | cons d later =>
        obtain ⟨rfl, rest_eq⟩ := List.cons.inj split
        exact ⟨later, rfl, rest_eq, outside, (isSheltered_cons.mp sheltered).2⟩
  · rintro ⟨later, rfl, rfl, outside, sheltered⟩
    refine ⟨rfl, outside, isSheltered_cons.mpr ⟨?_, sheltered⟩⟩
    rintro rfl
    exact Nat.pos_of_ne_zero fun zero => opens ⟨rfl, zero⟩

theorem cutOpen?_cons : cutOpen? depth (c :: rest) =
    if c = '(' ∧ depth = 0 then some ([], rest)
    else (cutOpen? (angleStep depth c) rest).map fun (before, inside) => (c :: before, inside) :=
  rfl

theorem cutOpen?_eq_some_iff :
    cutOpen? depth s = some (before, inside) ↔ IsOpened depth s before inside := by
  induction s generalizing depth before with
  | nil =>
      refine iff_of_false (by simp [cutOpen?]) fun opened => ?_
      have split := opened.split
      simp at split
  | cons c rest induction =>
      rw [cutOpen?_cons]
      by_cases opens : c = '(' ∧ depth = 0
      · obtain ⟨rfl, rfl⟩ := opens
        rw [if_pos ⟨rfl, rfl⟩, Option.some.injEq, Prod.mk.injEq]
        constructor
        · rintro ⟨rfl, rfl⟩
          exact ⟨rfl, rfl, isSheltered_nil 0⟩
        · rintro ⟨split, -, sheltered⟩
          cases before with
          | nil => exact ⟨rfl, (List.cons.inj split).2⟩
          | cons d later =>
              have first := (isSheltered_cons.mp sheltered).1 (List.cons.inj split).1.symm
              exact absurd first (Nat.lt_irrefl 0)
      · rw [if_neg opens, isOpened_cons opens, Option.map_eq_some_iff]
        constructor
        · rintro ⟨⟨later, _⟩, found, cut⟩
          obtain ⟨rfl, rfl⟩ := Prod.mk.inj cut
          exact ⟨later, rfl, induction.mp found⟩
        · rintro ⟨later, rfl, opened⟩
          exact ⟨(later, inside), induction.mpr opened, rfl⟩

theorem cutOpen?_eq_none_iff : cutOpen? depth s = none ↔ IsSheltered depth s := by
  induction s generalizing depth with
  | nil => exact iff_of_true rfl (isSheltered_nil depth)
  | cons c rest induction =>
      rw [cutOpen?_cons, isSheltered_cons, ← induction]
      by_cases opens : c = '(' ∧ depth = 0
      · simp [opens]
      · rw [if_neg opens, Option.map_eq_none_iff]
        refine ⟨fun later => ⟨?_, later⟩, And.right⟩
        rintro rfl
        exact Nat.pos_of_ne_zero fun zero => opens ⟨rfl, zero⟩

/-! ## Its match -/

theorem afterClose?_cons (depth : Nat) (c : Char) (rest : List Char) :
    afterClose? depth (c :: rest) =
      if c = '(' then afterClose? (depth + 1) rest
      else if c = ')' then if depth = 0 then some rest else afterClose? (depth - 1) rest
      else afterClose? depth rest := by
  cases depth <;> rfl

theorem afterClose?_append (balanced : Balanced '(' ')' params) (depth : Nat) :
    afterClose? depth (params ++ rest) = afterClose? depth rest := by
  induction balanced generalizing depth rest with
  | nil => rfl
  | other not_opening not_closing _ induction =>
      rw [List.cons_append, afterClose?_cons, if_neg not_opening, if_neg not_closing, induction]
  | pair _ _ inner_induction induction =>
      rw [List.append_assoc, List.cons_append, afterClose?_cons, if_pos rfl, inner_induction,
        List.cons_append, afterClose?_cons, if_neg (by decide), if_pos rfl,
        if_neg (Nat.succ_ne_zero depth), Nat.add_sub_cancel, induction]

/-- One text behind the other, each closed by a parenthesis. -/
def closedTexts (texts : List (List Char)) (tail : List Char) : List Char :=
  texts.foldr (fun text later => text ++ ')' :: later) tail

/-- As many parentheses are closed as were open, and what stands between them is balanced. -/
theorem exists_closedTexts (found : afterClose? depth s = some tail) :
    ∃ text texts, texts.length = depth ∧ (∀ other ∈ text :: texts, Balanced '(' ')' other) ∧
      s = closedTexts (text :: texts) tail := by
  induction s generalizing depth with
  | nil => cases found
  | cons c rest induction =>
      rw [afterClose?_cons] at found
      by_cases opening : c = '('
      · rw [if_pos opening] at found
        obtain ⟨inner, texts, length, balanced, rfl⟩ := induction found
        obtain ⟨text, texts, rfl⟩ := List.exists_cons_of_length_eq_add_one length
        simp only [List.forall_mem_cons] at balanced
        refine ⟨'(' :: inner ++ ')' :: text, texts, by simpa using length, ?_, ?_⟩
        · exact List.forall_mem_cons.mpr ⟨.pair balanced.1 balanced.2.1, balanced.2.2⟩
        · simp [closedTexts, opening]
      · rw [if_neg opening] at found
        by_cases closing : c = ')'
        · rw [if_pos closing] at found
          subst closing
          cases depth with
          | zero =>
              obtain rfl := Option.some.inj found
              exact ⟨[], [], rfl, by simpa using .nil, rfl⟩
          | succ depth =>
              obtain ⟨text, texts, length, balanced, rfl⟩ := induction found
              exact ⟨[], text :: texts, by simpa using length,
                List.forall_mem_cons.mpr ⟨.nil, balanced⟩, rfl⟩
        · rw [if_neg closing] at found
          obtain ⟨text, texts, length, balanced, rfl⟩ := induction found
          rw [List.forall_mem_cons] at balanced
          exact ⟨c :: text, texts, length,
            List.forall_mem_cons.mpr ⟨.other opening closing balanced.1, balanced.2⟩, rfl⟩

/-- The text closes the parenthesis before it, and `tail` is left. -/
def Closes (inside tail : List Char) : Prop :=
  ∃ params, Balanced '(' ')' params ∧ inside = params ++ ')' :: tail

theorem afterClose?_eq_some_iff : afterClose? 0 inside = some tail ↔ Closes inside tail := by
  constructor
  · intro found
    obtain ⟨params, texts, length, balanced, rfl⟩ := exists_closedTexts found
    obtain rfl := List.length_eq_zero_iff.mp length
    exact ⟨params, balanced params List.mem_cons_self, rfl⟩
  · rintro ⟨params, balanced, rfl⟩
    rw [afterClose?_append balanced, afterClose?_cons, if_neg (by decide), if_pos rfl, if_pos rfl]

/-- How the search for the match ends that counts the open parentheses without a sign. -/
inductive Ending where
  | closed (tail : List Char)
  | unclosed
  /-- One is to be taken off a count of none. -/
  | underflow

/-- Count from the opening parenthesis on, up to the one at which none is open any more. -/
def countFrom (count : Nat) : List Char → Ending
  | [] => .unclosed
  | c :: rest =>
      if c = '(' then countFrom (count + 1) rest
      else if c = ')' then
        if count = 0 then .underflow
        else if count - 1 = 0 then .closed rest
        else countFrom (count - 1) rest
      else countFrom count rest

/-- What a search finds, as the end of one that counts. -/
def Ending.ofTail? : Option (List Char) → Ending
  | none => .unclosed
  | some tail => .closed tail

/-- As long as the search goes on a parenthesis is open, so one can be taken off the count. -/
theorem countFrom_succ (depth : Nat) (s : List Char) :
    countFrom (depth + 1) s = .ofTail? (afterClose? depth s) := by
  induction s generalizing depth with
  | nil => rfl
  | cons c rest induction =>
      rw [afterClose?_cons, apply_ite Ending.ofTail?, apply_ite Ending.ofTail?,
        apply_ite Ending.ofTail?, countFrom, if_neg (Nat.succ_ne_zero depth), Nat.add_sub_cancel,
        induction, induction]
      cases depth with
      | zero => rfl
      | succ depth =>
          rw [induction, Nat.add_sub_cancel, if_neg (Nat.succ_ne_zero depth),
            if_neg (Nat.succ_ne_zero depth)]

end

/-! ## Function types by their parts -/

/-- The result of a function type. -/
inductive Result where
  /-- In front, with all opening parentheses in angle brackets, each of which is closed. -/
  | leading (text : String) (trimmed : Text.trimmed text = text)
      (sheltered : IsSheltered 0 text.toList) (closed : angleDepth 0 text.toList = 0)
  /-- Behind an arrow at the end. -/
  | trailing (text : String) (trimmed : Text.trimmed text = text) (filled : text ≠ "")

/-- The result itself. -/
def Result.text : Result → String
  | leading text .. | trailing text .. => text

/-- What stands before the parameters. -/
def Result.front : Result → String
  | leading text .. => text
  | trailing .. => "auto"

/-- What stands behind the qualifiers. -/
def Result.back : Result → String
  | leading .. => ""
  | trailing text .. => " -> " ++ text

/-- The parts of a function type. -/
structure Written where
  result : Result
  params : String
  qualifiers : String
  balanced : Balanced '(' ')' params.toList
  unarrowed : ¬"->".toList <:+: qualifiers.toList

/-- The function type as written. -/
def Written.spelling (written : Written) : String :=
  written.result.front ++ " (" ++ written.params ++ ")" ++ written.qualifiers ++ written.result.back

/-- What is read off a function type as written: its result, and whether `const` is a word among its
qualifiers. -/
structure Written.Gives (written : Written) (read : FunctionType) : Prop where
  result : read.result = written.result.text
  isConst_iff : read.isConst = true ↔ IsWord "const".toList written.qualifiers.toList

theorem isSheltered_concat {depth : Nat} {c : Char} {s : List Char} (ne : c ≠ '(') :
    IsSheltered depth (s ++ [c]) ↔ IsSheltered depth s := by
  induction s generalizing depth with
  | nil => simp [isSheltered_cons, isSheltered_nil, ne]
  | cons d rest induction => rw [List.cons_append, isSheltered_cons, isSheltered_cons, induction]

/-- What stands before the parameters has no open parenthesis and leaves no angle bracket open. -/
theorem isOpened_spelling (written : Written) :
    IsOpened 0 written.spelling.toList (written.result.front.toList ++ [' '])
      (written.params.toList ++ ')' ::
        (written.qualifiers.toList ++ written.result.back.toList)) where
  split := by simp [Written.spelling]
  outside := by
    rw [angleDepth, List.foldl_append]
    cases written.result with
    | leading text trimmed sheltered closed =>
        rw [angleDepth] at closed
        rw [Result.front, closed]
        rfl
    | trailing text =>
        have auto : List.foldl angleStep (List.foldl angleStep 0 "auto".toList) [' '] = 0 := by
          decide
        exact auto
  sheltered := by
    rw [isSheltered_concat (by decide)]
    cases written.result with
    | leading text trimmed sheltered => exact sheltered
    | trailing text =>
        rintro before after split
        have absent : '(' ∉ "auto".toList := by decide
        rw [Result.front] at split
        simp [split] at absent

section

variable {s before inside tail qualifiers result : List Char}

theorem ofChars?_eq_none_iff :
    ofChars? s = none ↔ IsSheltered 0 s ∨
      ∃ before inside, IsOpened 0 s before inside ∧ ∀ tail, ¬Closes inside tail := by
  cases cut : cutOpen? 0 s with
  | none => exact iff_of_true (by rw [ofChars?, cut]) (.inl (cutOpen?_eq_none_iff.mp cut))
  | some parts =>
      obtain ⟨before, inside⟩ := parts
      rw [ofChars?, cut]
      dsimp only
      cases found : afterClose? 0 inside with
      | none =>
          refine iff_of_true rfl (.inr ⟨before, inside, cutOpen?_eq_some_iff.mp cut, ?_⟩)
          intro tail closes
          rw [afterClose?_eq_some_iff.mpr closes] at found
          cases found
      | some tail =>
          refine iff_of_false (Option.some_ne_none _) ?_
          rintro (sheltered | ⟨other, rest, opened, unclosed⟩)
          · rw [cutOpen?_eq_none_iff.mpr sheltered] at cut
            cases cut
          · rw [cutOpen?_eq_some_iff.mpr opened] at cut
            obtain ⟨-, rfl⟩ := Prod.mk.inj (Option.some.inj cut)
            exact unclosed tail (afterClose?_eq_some_iff.mp found)

theorem ofChars?_of_unarrowed (opened : IsOpened 0 s before inside) (closes : Closes inside tail)
    (unarrowed : cutPair? '-' '>' tail = none) :
    ofChars? s = some ⟨String.ofList (trim before), (words tail).contains "const".toList⟩ := by
  rw [ofChars?, cutOpen?_eq_some_iff.mpr opened]
  dsimp only
  rw [afterClose?_eq_some_iff.mpr closes]
  simp [unarrowed]

theorem ofChars?_of_arrow (opened : IsOpened 0 s before inside) (closes : Closes inside tail)
    (arrow : cutPair? '-' '>' tail = some (qualifiers, result)) (auto : trim before = "auto".toList)
    (filled : trim result ≠ []) :
    ofChars? s =
      some ⟨String.ofList (trim result), (words qualifiers).contains "const".toList⟩ := by
  rw [ofChars?, cutOpen?_eq_some_iff.mpr opened]
  dsimp only
  rw [afterClose?_eq_some_iff.mpr closes]
  simp [arrow, auto, filled]

end

theorem exists_ofSpelling?_written (written : Written) :
    ∃ read, ofSpelling? written.spelling = some read ∧ written.Gives read := by
  have opened := isOpened_spelling written
  have closes : Closes
      (written.params.toList ++ ')' :: (written.qualifiers.toList ++ written.result.back.toList))
      (written.qualifiers.toList ++ written.result.back.toList) :=
    ⟨_, written.balanced, rfl⟩
  have absent : hasPair '-' '>' written.qualifiers.toList = false := by
    rw [← Bool.not_eq_true, hasPair_eq_true_iff]
    exact written.unarrowed
  cases result_eq : written.result with
  | leading text trimmed sheltered closed =>
      rw [result_eq] at opened closes
      rw [Result.back, String.toList_empty, List.append_nil] at opened closes
      have kept : trim (text.toList ++ [' ']) = text.toList := by
        rw [trim_concat (by decide), trimmed_eq_self_iff.mp trimmed]
      refine ⟨_, ofChars?_of_unarrowed opened closes (cutPair?_eq_none absent), ?_, ?_⟩
      · rw [result_eq]
        simp [Result.front, Result.text, kept]
      · rw [List.contains_iff_mem, mem_words_iff]
  | trailing text trimmed filled =>
      rw [result_eq] at opened closes
      have kept : trim (' ' :: text.toList) = text.toList := by
        rw [trim_cons (by decide), trimmed_eq_self_iff.mp trimmed]
      have arrow : cutPair? '-' '>' (written.qualifiers.toList ++ (" -> " ++ text).toList) =
          some (written.qualifiers.toList ++ [' '], ' ' :: text.toList) := by
        have first : hasPair '-' '>' (written.qualifiers.toList ++ [' '] ++ ['-']) = false := by
          rwa [hasPair_concat_of_ne (by decide), hasPair_concat_of_ne (by decide)]
        simpa using cutPair?_append first (' ' :: text.toList)
      have auto : trim ("auto".toList ++ [' ']) = "auto".toList := by decide
      refine ⟨_, ofChars?_of_arrow opened closes arrow auto ?_, ?_, ?_⟩
      · simpa [kept] using filled
      · rw [result_eq]
        simp [Result.text, kept]
      · rw [List.contains_iff_mem, words_concat_blank (by decide), mem_words_iff]

/-- What is read off a function type is what it was written from. A text is no function type if and
only if it has no parenthesis outside of angle brackets or does not close the first one, and the
search for the match of a parenthesis never takes one off a count of none. -/
theorem ofSpelling?_written :
    (∀ written : Written, ∃ read,
        ofSpelling? written.spelling = some read ∧ written.Gives read) ∧
      (∀ spelling : String, ofSpelling? spelling = none ↔
        IsSheltered 0 spelling.toList ∨
          ∃ before inside, IsOpened 0 spelling.toList before inside ∧
            ∀ tail, ¬Closes inside tail) ∧
      ∀ inside, countFrom 0 ('(' :: inside) = .ofTail? (afterClose? 0 inside) ∧
        countFrom 0 ('(' :: inside) ≠ .underflow := by
  refine ⟨exists_ofSpelling?_written, fun spelling => ofChars?_eq_none_iff, fun inside => ?_⟩
  have counted : countFrom 0 ('(' :: inside) = .ofTail? (afterClose? 0 inside) := by
    rw [countFrom, if_pos rfl, countFrom_succ]
  refine ⟨counted, fun underflow => ?_⟩
  rw [counted] at underflow
  cases found : afterClose? 0 inside <;> rw [found] at underflow <;> cases underflow

/-- A constant function that takes a callback and gives several back. -/
def callbacks : Written where
  result := .leading "std::vector<std::function<void (int)>>" (by decide +kernel)
    (cutOpen?_eq_none_iff.mp (by decide)) (by decide)
  params := "void (*)(int)"
  qualifiers := " const noexcept"
  balanced := by
    have closed : afterClose? 0 ("void (*)(int)".toList ++ [')']) = some [] := by decide
    obtain ⟨params, balanced, split⟩ := afterClose?_eq_some_iff.mp closed
    rwa [List.append_cancel_right split]
  unarrowed arrow := absurd (hasPair_eq_true_iff.mpr arrow) (by decide)

theorem ofSpelling?_callbacks :
    callbacks.spelling = "std::vector<std::function<void (int)>> (void (*)(int)) const noexcept" ∧
      ofSpelling? callbacks.spelling = some ⟨"std::vector<std::function<void (int)>>", true⟩ := by
  refine ⟨by decide, ?_⟩
  obtain ⟨⟨result, isConst⟩, found, gives⟩ := ofSpelling?_written.1 callbacks
  have const : isConst = true := gives.isConst_iff.mpr (mem_words_iff.mp (by decide))
  have result_eq : result = "std::vector<std::function<void (int)>>" := gives.result
  rw [found, const, result_eq]

end FunctionType
end Clang
end HeaderBinding
