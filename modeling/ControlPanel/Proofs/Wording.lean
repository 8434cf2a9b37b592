import ControlPanel.Command.Interpreter
import Mathlib.Data.List.Chain
import Mathlib.Data.List.DropRight

/-!
# Words, segments and trimming

The words of a line, put together again with single spaces, hold no other blanks than those. What
is cut out of such a text and trimmed begins and ends with no blank, and trimming it again does
nothing.
-/
namespace ControlPanel

namespace Text

structure IsPiece {α : Type} (p : α → Bool) (piece whole : List α) : Prop where
  part : piece <:+: whole
  unseparated : ∀ a ∈ piece, p a = false

theorem IsPiece.of_cons {α : Type} {p : α → Bool} {a : α} {piece whole : List α}
    (h : IsPiece p piece whole) : IsPiece p piece (a :: whole) :=
  ⟨List.infix_cons h.part, h.unseparated⟩

/-- The first piece is at the beginning of the whole, so that it can be made longer. -/
theorem splitOnP_pieces {α : Type} (p : α → Bool) (whole : List α) :
    ∃ first rest, whole.splitOnP p = first :: rest ∧ first <+: whole ∧
      (∀ a ∈ first, p a = false) ∧ ∀ piece ∈ rest, IsPiece p piece whole := by
  induction whole with
  | nil => exact ⟨[], [], rfl, List.prefix_rfl, nofun, nofun⟩
  | cons a whole ih =>
    obtain ⟨first, rest, split, front, unseparated, pieces⟩ := ih
    rw [List.splitOnP_cons_eq_if_modifyHead, split]
    have later : ∀ piece ∈ rest, IsPiece p piece (a :: whole) :=
      fun piece mem => (pieces piece mem).of_cons
    by_cases separator : p a
    · rw [if_pos separator]
      refine ⟨[], first :: rest, rfl, List.nil_prefix, nofun, ?_⟩
      exact List.forall_mem_cons.mpr
        ⟨⟨front.isInfix.trans (List.suffix_cons a whole).isInfix, unseparated⟩, later⟩
    · rw [if_neg separator]
      refine ⟨a :: first, rest, rfl, List.cons_prefix_cons.mpr ⟨rfl, front⟩, ?_, later⟩
      exact List.forall_mem_cons.mpr ⟨Bool.not_eq_true _ ▸ separator, unseparated⟩

theorem isPiece_of_mem_splitOnP {α : Type} {p : α → Bool} {piece whole : List α}
    (mem : piece ∈ whole.splitOnP p) : IsPiece p piece whole := by
  obtain ⟨first, rest, split, front, unseparated, pieces⟩ := splitOnP_pieces p whole
  rw [split] at mem
  rcases List.mem_cons.mp mem with rfl | later
  · exact ⟨front.isInfix, unseparated⟩
  · exact pieces piece later

structure IsWord (cs : List Char) : Prop where
  nonempty : cs ≠ []
  solid : ∀ c ∈ cs, isBlank c = false

theorem isWord_iff {cs : List Char} :
    IsWord cs ↔ (!cs.isEmpty && cs.all fun c => !isBlank c) = true := by
  constructor
  · rintro ⟨nonempty, solid⟩
    simpa [nonempty] using solid
  · intro h
    simp only [Bool.and_eq_true, Bool.not_eq_true', List.isEmpty_eq_false_iff,
      List.all_eq_true] at h
    exact ⟨h.1, h.2⟩

instance (cs : List Char) : Decidable (IsWord cs) := decidable_of_iff' _ isWord_iff

theorem isWord_of_mem_words {s word : String} (mem : word ∈ words s) : IsWord word.toList := by
  obtain ⟨cs, kept, rfl⟩ := List.mem_map.mp mem
  obtain ⟨piece, nonempty⟩ := List.mem_filter.mp kept
  rw [String.toList_ofList]
  exact ⟨by simpa using nonempty, (isPiece_of_mem_splitOnP piece).unseparated⟩

structure IsSpaced (cs : List Char) : Prop where
  spaces : ∀ c ∈ cs, isBlank c → c = ' '
  single : cs.IsChain fun a b => isBlank a → isBlank b = false

theorem IsSpaced.part {cs part : List Char} (h : IsSpaced cs) (infixes : part <:+: cs) :
    IsSpaced part :=
  ⟨fun c mem => h.spaces c (infixes.subset mem), h.single.infix infixes⟩

theorem IsWord.isSpaced {cs : List Char} (h : IsWord cs) : IsSpaced cs where
  spaces c mem blank := by
    rw [h.solid c mem] at blank
    cases blank
  single := by
    apply List.Pairwise.isChain
    exact List.pairwise_of_forall_mem_list fun _ _ b mem _ => h.solid b mem

/-- A word and a space can be put in front of what begins with no blank. -/
theorem IsSpaced.after_word {word rest : List Char} (h : IsSpaced rest) (front : IsWord word)
    (start : ∀ c ∈ rest.head?, isBlank c = false) : IsSpaced (word ++ ' ' :: rest) where
  spaces := by
    rw [List.forall_mem_append, List.forall_mem_cons]
    exact ⟨front.isSpaced.spaces, fun _ => rfl, h.spaces⟩
  single := by
    refine front.isSpaced.single.append (h.single.cons fun c head _ => start c head) ?_
    intro a last b _ blank
    rw [front.solid a (List.mem_of_getLast? last)] at blank
    cases blank

theorem head_intercalate {word : List Char} (nonempty : word ≠ []) (words : List (List Char)) :
    ([' '].intercalate (word :: words)).head? = word.head? := by
  cases words with
  | nil => rw [List.intercalate_singleton]
  | cons next words =>
    rw [List.intercalate_cons_cons, List.append_assoc, List.head?_append_of_ne_nil _ nonempty]

/-- Words with single spaces between them. -/
theorem isSpaced_intercalate {words : List (List Char)} (h : ∀ word ∈ words, IsWord word) :
    IsSpaced ([' '].intercalate words) := by
  induction words with
  | nil => exact ⟨nofun, .nil⟩
  | cons word words ih =>
    obtain ⟨front, others⟩ := List.forall_mem_cons.mp h
    cases words with
    | nil =>
      rw [List.intercalate_singleton]
      exact front.isSpaced
    | cons next words =>
      have next_word : IsWord next := others next List.mem_cons_self
      rw [List.intercalate_cons_cons, List.append_assoc]
      refine (ih others).after_word front fun c head => ?_
      rw [head_intercalate next_word.nonempty] at head
      exact next_word.solid c (List.mem_of_head? head)

structure IsTrimmed {α : Type} (p : α → Bool) (items : List α) : Prop where
  first : ∀ a ∈ items.head?, p a = false
  last : ∀ a ∈ items.getLast?, p a = false

section

variable {α : Type} (p : α → Bool) (items : List α)

theorem trimOf_eq : trimOf p items = (items.dropWhile p).rdropWhile p := rfl

theorem trimOf_infix : trimOf p items <:+: items := by
  rw [trimOf_eq]
  exact (List.rdropWhile_prefix p _).isInfix.trans (List.dropWhile_suffix p).isInfix

theorem isTrimmed_trimOf : IsTrimmed p (trimOf p items) where
  first a head := by
    obtain ⟨rest, trimmed⟩ := List.head?_eq_some_iff.mp head
    obtain ⟨suffix, whole⟩ := List.rdropWhile_prefix p (items.dropWhile p)
    have stopped := List.head?_dropWhile_not p items
    rw [← trimOf_eq, trimmed] at whole
    rwa [← whole] at stopped
  last a last := by
    obtain ⟨init, trimmed⟩ := List.getLast?_eq_some_iff.mp last
    have nonempty : trimOf p items ≠ [] := by simp [trimmed]
    have stopped := List.rdropWhile_last_not p (items.dropWhile p) nonempty
    simpa [← trimOf_eq, trimmed] using stopped

variable {p items}

theorem IsTrimmed.trimOf_eq_self (h : IsTrimmed p items) : trimOf p items = items := by
  cases items with
  | nil => rfl
  | cons a items =>
    have front : (a :: items).dropWhile p = a :: items := by
      rw [List.dropWhile_cons, h.first a rfl]
      rfl
    rw [trimOf_eq, front, List.rdropWhile_eq_self_iff]
    intro nonempty
    rw [h.last _ (List.getLast?_eq_some_getLast nonempty)]
    decide

end

theorem trim_eq_self {s : String} (h : IsTrimmed isBlank s.toList) : trim s = s := by
  rw [trim, h.trimOf_eq_self, String.ofList_toList]

theorem isTrimmed_trim (s : String) : IsTrimmed isBlank (trim s).toList := by
  rw [trim, String.toList_ofList]
  exact isTrimmed_trimOf isBlank s.toList

/-- A text without bars, without blanks at its ends, and with no blanks but single spaces. -/
structure IsTidy (s : String) : Prop where
  unbarred : '|' ∉ s.toList
  trimmed : IsTrimmed isBlank s.toList
  spaced : IsSpaced s.toList

theorem wordsOf_append {word : List Char} (front : IsWord word) (rest : List Char) :
    wordsOf (word ++ ' ' :: rest) = word :: wordsOf rest := by
  rw [wordsOf, List.splitOnP_append_cons_of_forall_mem front.solid ' ' rfl, wordsOf]
  simp [front.nonempty]

theorem wordsOf_word {word : List Char} (own : IsWord word) : wordsOf word = [word] := by
  rw [wordsOf, List.splitOnP_eq_singleton own.solid]
  simp [own.nonempty]

theorem wordsOf_intercalate {parts : List (List Char)} (h : ∀ part ∈ parts, IsWord part) :
    wordsOf ([' '].intercalate parts) = parts := by
  induction parts with
  | nil => rfl
  | cons part parts ih =>
    obtain ⟨front, others⟩ := List.forall_mem_cons.mp h
    cases parts with
    | nil =>
      rw [List.intercalate_singleton]
      exact wordsOf_word front
    | cons next parts =>
      rw [List.intercalate_cons_cons, List.append_assoc]
      exact (wordsOf_append front _).trans (congrArg (part :: ·) (ih others))

theorem IsWord.cons {c : Char} {word : List Char} (solid : isBlank c = false) (rest : IsWord word) :
    IsWord (c :: word) :=
  ⟨List.cons_ne_nil c word, List.forall_mem_cons.mpr ⟨solid, rest.solid⟩⟩

theorem isWord_singleton {c : Char} (solid : isBlank c = false) : IsWord [c] :=
  ⟨List.cons_ne_nil c [], List.forall_mem_singleton.mpr solid⟩

theorem IsSpaced.tail {c : Char} {cs : List Char} (h : IsSpaced (c :: cs)) : IsSpaced cs :=
  h.part (List.suffix_cons c cs).isInfix

theorem IsTrimmed.tail {α : Type} {p : α → Bool} {a b : α} {items : List α}
    (h : IsTrimmed p (a :: b :: items)) (start : p b = false) : IsTrimmed p (b :: items) where
  first x head := by
    cases head
    exact start
  last x last := by
    apply h.last
    rwa [List.getLast?_cons_cons]

/-- What begins and ends with no blank, and has no blanks but single spaces, is made of words. -/
theorem exists_words : ∀ {cs : List Char}, IsSpaced cs → IsTrimmed isBlank cs →
    ∃ parts, (∀ part ∈ parts, IsWord part) ∧ [' '].intercalate parts = cs
  | [], _, _ => ⟨[], nofun, rfl⟩
  | [c], _, trimmed => by
    refine ⟨[[c]], ?_, rfl⟩
    rw [List.forall_mem_singleton]
    exact isWord_singleton (trimmed.first c rfl)
  | c :: d :: cs, spaced, trimmed => by
    have solid : isBlank c = false := trimmed.first c rfl
    have pairs := List.isChain_cons_cons.mp spaced.single
    cases blank : isBlank d with
    | false =>
      -- The first word goes on.
      obtain ⟨parts, words, joined⟩ := exists_words spaced.tail (trimmed.tail blank)
      cases parts with
      | nil => cases joined
      | cons part parts =>
        obtain ⟨front, others⟩ := List.forall_mem_cons.mp words
        refine ⟨(c :: part) :: parts, List.forall_mem_cons.mpr ⟨front.cons solid, others⟩, ?_⟩
        rw [← joined]
        cases parts <;> rfl
    | true =>
      -- The first word ends, and another begins behind the space.
      have space : d = ' ' := spaced.spaces d (by simp) blank
      cases cs with
      | nil =>
        have solid_last : isBlank d = false := trimmed.last d rfl
        rw [blank] at solid_last
        cases solid_last
      | cons e cs =>
        have start : isBlank e = false := (List.isChain_cons_cons.mp pairs.2).1 blank
        have within : IsTrimmed isBlank (e :: cs) :=
          ⟨fun a head => by cases head; exact start, fun a last => trimmed.last a last⟩
        obtain ⟨parts, words, joined⟩ := exists_words spaced.tail.tail within
        cases parts with
        | nil => cases joined
        | cons part parts =>
          refine ⟨[c] :: part :: parts, ?_, ?_⟩
          · exact List.forall_mem_cons.mpr ⟨isWord_singleton solid, words⟩
          · rw [List.intercalate_cons_cons, joined, space]
            rfl

/-- A tidy text is made of its words with single spaces between them. -/
theorem IsTidy.words_joined {s : String} (tidy : IsTidy s) : " ".intercalate (words s) = s := by
  obtain ⟨parts, are_words, joined⟩ := exists_words tidy.spaced tidy.trimmed
  have own : words s = parts.map String.ofList := by
    rw [words, ← joined, wordsOf_intercalate are_words]
  apply String.toList_injective
  rw [own, ← joined]
  simp

/-- A word and a space in front of a text give one more word. -/
theorem words_append {word : String} (front : IsWord word.toList) (s : String) :
    words (word ++ " " ++ s) = word :: words s := by
  have chars : (word ++ " " ++ s).toList = word.toList ++ ' ' :: s.toList := by simp
  rw [words, chars, wordsOf_append front, List.map_cons, String.ofList_toList, words]

end Text

namespace Interpreter

/-- What stands between bars in the arguments of a line is tidy once it is trimmed. -/
theorem isTidy_of_mem_segments {args : List String} {segment : String}
    (words : ∀ arg ∈ args, Text.IsWord arg.toList)
    (mem : segment ∈ segments (" ".intercalate args)) : Text.IsTidy segment := by
  obtain ⟨cs, piece, rfl⟩ := List.mem_map.mp mem
  have spaced : Text.IsSpaced (" ".intercalate args).toList := by
    have joined : (" ".intercalate args).toList = [' '].intercalate (args.map String.toList) := by
      simp
    rw [joined]
    exact Text.isSpaced_intercalate (List.forall_mem_map.mpr words)
  rw [List.splitOn_eq_splitOnP] at piece
  obtain ⟨part, unbarred⟩ := Text.isPiece_of_mem_splitOnP piece
  have within : Text.trimOf Text.isBlank cs <:+: cs := Text.trimOf_infix _ cs
  have chars : (Text.trim (String.ofList cs)).toList = Text.trimOf Text.isBlank cs := by
    simp [Text.trim]
  refine ⟨fun bar => ?_, Text.isTrimmed_trim _, ?_⟩
  · rw [chars] at bar
    simpa using unbarred '|' (within.subset bar)
  · rw [chars]
    exact spaced.part (within.trans part)

end Interpreter

end ControlPanel
