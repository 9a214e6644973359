import Lsl.Proofs.Signature.Parameters
import Lsl.Proofs.Text.Words
import Lsl.Signature.Reading

/-!
Signatures are read back from their texts. What a signature writes between its name, its parentheses
and its commas are words, so each part of the text ends where the reader looks for its end, and a
signature that could be put together is put together again from the parts.
-/

set_option autoImplicit false

namespace Lsl

open Text (isBlank)

def IsWord (word : List Char) : Prop :=
  word ≠ [] ∧ ∀ char ∈ word, Lexeme.isNameChar char = true

theorem word_of_identifier {name : String} (named : isIdentifier name = true) :
    IsWord name.toList := by
  unfold isIdentifier at named
  split at named
  · rename_i first rest spelled
    rw [Bool.and_eq_true, List.all_eq_true] at named
    rw [spelled]
    refine ⟨List.cons_ne_nil _ _, List.forall_mem_cons.mpr ⟨?_, named.2⟩⟩
    have starts := named.1
    simp only [Lexeme.isNameStart, Lexeme.isNameChar, Char.isAlphanum, Bool.or_eq_true]
      at starts ⊢
    exact starts.imp .inl id
  · cases named

namespace IsWord

variable {word : List Char} (isWord : IsWord word)

include isWord

theorem not_mem {char : Char} (other : Lexeme.isNameChar char = false) : char ∉ word :=
  fun member => by simp [isWord.2 char member] at other

theorem not_blank : ∀ char ∈ word, isBlank char = false :=
  fun char member => Text.name_char_not_blank (isWord.2 char member)

/-- No white space is dropped in front of a word. -/
theorem drop_blanks (rest : List Char) : (word ++ rest).dropWhile isBlank = word ++ rest := by
  obtain ⟨first, others, rfl⟩ := List.exists_cons_of_ne_nil isWord.1
  rw [List.cons_append, List.dropWhile_cons_of_neg]
  simp [isWord.not_blank first List.mem_cons_self]

end IsWord

namespace Parameter

/-- A parameter that some signature may have. -/
structure Proper (parameter : Parameter) : Prop where
  named : isIdentifier parameter.name = true
  valued : parameter.type = .void → parameter.variadic = true

def typeWord (parameter : Parameter) : String :=
  if parameter.variadic ∧ parameter.type = .void then "any" else parameter.type.keyword

/-- What is written between the type and the name. -/
def mark (parameter : Parameter) : List Char :=
  if parameter.variadic then ['.', '.', '.', ' '] else [' ']

theorem text_eq (parameter : Parameter) : parameter.text.toList =
    parameter.typeWord.toList ++ (parameter.mark ++ parameter.name.toList) := by
  unfold text typeWord mark
  cases parameter.variadic <;> simp

theorem keyword_alpha (type : ValueType) :
    type.keyword.toList ≠ [] ∧ ∀ char ∈ type.keyword.toList, char.isAlpha = true := by
  rw [← List.all_eq_true]
  cases type <;> decide

theorem type_word_alpha (parameter : Parameter) : parameter.typeWord.toList ≠ [] ∧
    ∀ char ∈ parameter.typeWord.toList, char.isAlpha = true := by
  unfold typeWord
  split
  · rw [← List.all_eq_true]
    decide
  · exact keyword_alpha parameter.type

end Parameter

namespace Signature

open Parameter (Proper)

theorem alpha_not_blank {char : Char} (alpha : char.isAlpha = true) : isBlank char = false :=
  Text.name_char_not_blank (by simp [Lexeme.isNameChar, Char.isAlphanum, alpha])

theorem last_word {word : List Char} (isWord : IsWord word) :
    lastWord? word = some (String.ofList word) := by
  have whole : ∀ char ∈ word, notBlank char = true := by
    simpa [notBlank] using isWord.not_blank
  obtain ⟨taken, dropped⟩ := @Text.take_word word [] notBlank whole (by simp)
  rw [List.append_nil] at taken dropped
  simp [lastWord?, taken, dropped, isWord.1]

theorem variadic_name {word : List Char} (isWord : IsWord word) :
    variadicName? ('.' :: '.' :: '.' :: ' ' :: word) = some (String.ofList word) := by
  have dropped := isWord.drop_blanks []
  rw [List.append_nil] at dropped
  rw [variadicName?, if_pos (by decide), dropped, last_word isWord]

theorem not_variadic_name {word : List Char} (isWord : IsWord word) :
    variadicName? word = none := by
  unfold variadicName?
  split
  · exact absurd List.mem_cons_self (isWord.not_mem (by decide))
  · rfl

theorem parameter_parts {parameter : Parameter} (proper : parameter.Proper) {gap : List Char}
    (blank : ∀ char ∈ gap, isBlank char = true) :
    parameterParts? (String.ofList (gap ++ parameter.text.toList)) =
      some (parameter.typeWord, parameter.variadic, parameter.name) := by
  have name := word_of_identifier proper.named
  obtain ⟨nonempty, alpha⟩ := parameter.type_word_alpha
  have trimmed : Text.trimLeft (gap ++ parameter.text.toList) =
      parameter.typeWord.toList ++ (parameter.mark ++ parameter.name.toList) := by
    obtain ⟨first, others, spelled⟩ := List.exists_cons_of_ne_nil nonempty
    have solid := alpha_not_blank (alpha first (by simp [spelled]))
    rw [Text.trimLeft, List.dropWhile_append_of_pos blank, parameter.text_eq, spelled,
      List.cons_append, List.dropWhile_cons_of_neg (by simp [solid])]
  have stops : ∀ char ∈ (parameter.mark ++ parameter.name.toList).head?, char.isAlpha = false := by
    unfold Parameter.mark
    cases parameter.variadic <;> simp
  obtain ⟨taken, dropped⟩ := Text.take_word alpha stops
  have filled : parameter.typeWord.toList.isEmpty = false := by simpa using nonempty
  simp only [parameterParts?, String.toList_ofList, trimmed, taken, dropped, filled,
    String.ofList_toList, Bool.false_eq_true, if_false]
  cases variadic : parameter.variadic with
  | true =>
      have marked : parameter.mark ++ parameter.name.toList =
          '.' :: '.' :: '.' :: ' ' :: parameter.name.toList := by simp [Parameter.mark, variadic]
      rw [marked, List.dropWhile_cons_of_neg (by decide), variadic_name name]
      simp
  | false =>
      have marked : parameter.mark ++ parameter.name.toList = ' ' :: parameter.name.toList := by
        simp [Parameter.mark, variadic]
      have spaced := name.drop_blanks []
      rw [List.append_nil] at spaced
      rw [marked, List.dropWhile_cons_of_pos (by decide), spaced, not_variadic_name name,
        last_word name]
      simp
      decide

/-- A parameter is read back from its text, also behind white space. -/
theorem parameter_of_text {parameter : Parameter} (proper : parameter.Proper) {gap : List Char}
    (blank : ∀ char ∈ gap, isBlank char = true) (index : Nat) :
    parameterOfText (String.ofList (gap ++ parameter.text.toList)) index =
      .ok { parameter with index } := by
  rw [parameterOfText, parameter_parts proper blank]
  obtain ⟨name, type, variadic, _⟩ := parameter
  cases type with
  | void =>
      obtain rfl : variadic = true := proper.valued rfl
      rfl
  | _ => cases variadic <;> rfl

theorem parameter_text_free {parameter : Parameter} (proper : parameter.Proper) {char : Char}
    (other : Lexeme.isNameChar char = false) (apart : char ∉ ['.', ' ']) :
    char ∉ parameter.text.toList := by
  have name := (word_of_identifier proper.named).not_mem other
  have word : char ∉ parameter.typeWord.toList := by
    intro member
    have alpha := parameter.type_word_alpha.2 char member
    simp [Lexeme.isNameChar, Char.isAlphanum, alpha] at other
  have mark : char ∉ parameter.mark := by
    unfold Parameter.mark
    simp only [List.mem_cons, List.not_mem_nil, or_false, not_or] at apart
    cases parameter.variadic <;> simp [apart]
  simp [parameter.text_eq, word, mark, name]

theorem split_at_ne_nil (isSeparator : Char → Bool) (chars : List Char) :
    Text.splitAt isSeparator chars ≠ [] := by
  cases chars with
  | nil => exact List.cons_ne_nil _ _
  | cons char rest =>
      rw [Text.splitAt]
      split
      · exact List.cons_ne_nil _ _
      · split <;> exact List.cons_ne_nil _ _

theorem split_at_part {isSeparator : Char → Bool} {part : List Char}
    (unbroken : ∀ char ∈ part, isSeparator char = false) :
    Text.splitAt isSeparator part = [part] := by
  induction part with
  | nil => rfl
  | cons char part induction =>
      rw [List.forall_mem_cons] at unbroken
      simp [Text.splitAt, induction unbroken.2, unbroken.1]

theorem split_at_separator {isSeparator : Char → Bool} {part : List Char} {separator : Char}
    (unbroken : ∀ char ∈ part, isSeparator char = false)
    (separates : isSeparator separator = true) (rest : List Char) :
    Text.splitAt isSeparator (part ++ separator :: rest) =
      part :: Text.splitAt isSeparator rest := by
  induction part with
  | nil =>
      obtain ⟨first, others, parts⟩ :=
        List.exists_cons_of_ne_nil (split_at_ne_nil isSeparator rest)
      simp [Text.splitAt, parts, separates]
  | cons char part induction =>
      rw [List.forall_mem_cons] at unbroken
      simp [Text.splitAt, induction unbroken.2, unbroken.1]

theorem list_text_cons_cons (first second : Parameter) (rest : List Parameter) :
    (Parameter.listText (first :: second :: rest)).toList =
      first.text.toList ++ ',' :: ' ' :: (Parameter.listText (second :: rest)).toList := by
  simp [Parameter.listText, String.intercalate_cons_cons]

/-- A list of parameters is read back, also behind white space. -/
theorem parameters_of_parts {parameters : List Parameter} (filled : parameters ≠ [])
    (proper : ∀ parameter ∈ parameters, parameter.Proper) (gap : List Char)
    (blank : ∀ char ∈ gap, isBlank char = true) (comma : ',' ∉ gap) (start : Nat) :
    (((Text.splitAt (· == ',') (gap ++ (Parameter.listText parameters).toList)).map
      String.ofList).zipIdx start).mapM (fun (part, index) => parameterOfText part index) =
        .ok (Parameter.numberedFrom start parameters) := by
  induction parameters generalizing gap start with
  | nil => exact absurd rfl filled
  | cons first rest induction =>
      obtain ⟨here, others⟩ := List.forall_mem_cons.mp proper
      have unbroken : ∀ char ∈ gap ++ first.text.toList, (char == ',') = false := by
        rintro char member
        rw [beq_eq_false_iff_ne]
        rintro rfl
        rcases List.mem_append.mp member with inside | inside
        · exact comma inside
        · exact parameter_text_free here (by decide) (by decide) inside
      cases rest with
      | nil =>
          have single : Parameter.listText [first] = first.text := by
            simp [Parameter.listText]
          rw [single, split_at_part unbroken, List.map_singleton, List.zipIdx_cons, List.mapM_cons]
          dsimp only
          rw [parameter_of_text here blank]
          rfl
      | cons second rest =>
          rw [list_text_cons_cons, ← List.append_assoc, split_at_separator unbroken rfl]
          have more := induction (List.cons_ne_nil _ _) others [' '] (by simp; decide) (by decide)
            (start + 1)
          rw [List.map_cons, List.zipIdx_cons, List.mapM_cons]
          dsimp only
          rw [parameter_of_text here blank]
          rw [List.singleton_append] at more
          rw [more]
          rfl

theorem list_text_not_blank (first : Parameter) (rest : List Parameter) :
    Text.isBlankText (Parameter.listText (first :: rest)) = false := by
  have leads : first.text.toList <+: (Parameter.listText (first :: rest)).toList := by
    cases rest with
    | nil => simp [Parameter.listText]
    | cons second rest => exact ⟨_, (list_text_cons_cons first second rest).symm⟩
  obtain ⟨nonempty, alpha⟩ := first.type_word_alpha
  obtain ⟨letter, others, spelled⟩ := List.exists_cons_of_ne_nil nonempty
  have inside : letter ∈ first.text.toList := by simp [first.text_eq, spelled]
  rw [Text.isBlankText, List.all_eq_false]
  exact ⟨letter, leads.subset inside, by simp [alpha_not_blank (alpha letter (by simp [spelled]))]⟩

theorem parameters_of_text {parameters : List Parameter}
    (proper : ∀ parameter ∈ parameters, parameter.Proper) :
    parametersOfText (Parameter.listText parameters) = .ok (Parameter.numbered parameters) := by
  cases parameters with
  | nil => rfl
  | cons first rest =>
      have parts := parameters_of_parts (List.cons_ne_nil first rest) proper [] (by simp)
        (by simp) 0
      rw [List.nil_append] at parts
      rw [parametersOfText, list_text_not_blank, Text.splitCommas, parts]
      rfl

theorem list_text_free {parameters : List Parameter}
    (proper : ∀ parameter ∈ parameters, parameter.Proper) :
    '\n' ∉ (Parameter.listText parameters).toList := by
  induction parameters with
  | nil => simp [Parameter.listText]
  | cons first rest induction =>
      obtain ⟨here, others⟩ := List.forall_mem_cons.mp proper
      have own : '\n' ∉ first.text.toList := parameter_text_free here (by decide) (by decide)
      cases rest with
      | nil => simpa [Parameter.listText] using own
      | cons second rest =>
          rw [list_text_cons_cons]
          simpa [own] using induction others

/-- What may stand behind a signature. -/
def endings : List String := ["", ";"]

theorem before_closing (inner : List Char) {ending : String} (ends : ending ∈ endings) :
    beforeClosing? (inner ++ ')' :: ending.toList) = some inner := by
  simp only [endings, List.mem_cons, List.not_mem_nil, or_false] at ends
  rcases ends with rfl | rfl <;> simp [beforeClosing?, isBlank]

def called (name : String) (parameters : List Parameter) (ending : String) : List Char :=
  name.toList ++ '(' :: ((Parameter.listText parameters).toList ++ ')' :: ending.toList)

section

variable {name ending : String} {parameters : List Parameter} (named : isIdentifier name = true)
  (proper : ∀ parameter ∈ parameters, parameter.Proper) (ends : ending ∈ endings)

include named proper ends

theorem head_of_called :
    head? (called name parameters ending) = some (name, Parameter.listText parameters) := by
  have word := word_of_identifier named
  have inside : ∀ char ∈ name.toList, isHeadChar char = true := by
    intro char member
    have open_ : char ≠ '(' := ne_of_mem_of_not_mem member (word.not_mem (by decide))
    simp [isHeadChar, notBlank, word.not_blank char member, open_]
  obtain ⟨taken, dropped⟩ := @Text.take_word _
    ('(' :: ((Parameter.listText parameters).toList ++ ')' :: ending.toList)) _ inside
    (by simp; decide)
  obtain ⟨first, others, spelled⟩ := List.exists_cons_of_ne_nil word.1
  have single : (Parameter.listText parameters).toList.contains '\n' = false := by
    simpa using list_text_free proper
  unfold head? called
  dsimp only
  rw [taken, dropped, List.dropWhile_cons_of_neg (by decide), spelled]
  simp only [before_closing _ ends, single]
  rw [← spelled]
  simp

omit proper ends in
/-- No white space stands in front of a name, and none behind it. -/
theorem called_trimmed : Text.trimLeft (called name parameters ending) =
    called name parameters ending :=
  (word_of_identifier named).drop_blanks _

omit proper ends in
theorem called_untyped : typeWord? (called name parameters ending) = none := by
  have behind : (called name parameters ending).dropWhile Char.isAlpha =
      name.toList.dropWhile Char.isAlpha ++
        '(' :: ((Parameter.listText parameters).toList ++ ')' :: ending.toList) := by
    have stop : Char.isAlpha '(' = false := by decide
    rw [called, List.dropWhile_append, List.dropWhile_cons_of_neg (by simp [stop])]
    split
    · rename_i none
      rw [List.isEmpty_iff.mp none, List.nil_append]
    · rfl
  unfold typeWord?
  dsimp only
  rw [behind]
  split
  · rename_i blank rest _ found
    have solid : isBlank blank = false := by
      cases left : name.toList.dropWhile Char.isAlpha with
      | nil =>
          rw [left] at found
          obtain ⟨rfl, _⟩ := List.cons.inj found
          decide
      | cons next others =>
          rw [left] at found
          obtain ⟨rfl, _⟩ := List.cons.inj found
          have member : next ∈ name.toList :=
            (List.dropWhile_suffix _).subset (left ▸ List.mem_cons_self)
          exact (word_of_identifier named).not_blank next member
    simp [solid]
  · rfl

omit proper ends in
theorem called_typed (type : ValueType) :
    let chars := type.keyword.toList ++ ' ' :: called name parameters ending
    Text.trimLeft chars = chars ∧
      typeWord? chars = some (type.keyword, called name parameters ending) := by
  have letters := Parameter.keyword_alpha type
  obtain ⟨taken, dropped⟩ :=
    @Text.take_word _ (' ' :: called name parameters ending) _ letters.2 (by simp)
  obtain ⟨first, others, spelled⟩ := List.exists_cons_of_ne_nil letters.1
  have solid := alpha_not_blank (letters.2 first (by simp [spelled]))
  constructor
  · rw [spelled, Text.trimLeft, List.cons_append, List.dropWhile_cons_of_neg (by simp [solid])]
  · unfold typeWord?
    dsimp only
    rw [taken, dropped, spelled]
    have trimmed : (called name parameters ending).dropWhile isBlank =
      called name parameters ending := called_trimmed named
    simp only [trimmed]
    rw [if_pos (by decide), ← spelled, String.ofList_toList]

end

end Signature

theorem keyword_read {type : ValueType} (valued : type ≠ .void) :
    ValueType.ofKeyword? type.keyword = some type := by
  cases type <;> first | rfl | exact absurd rfl valued

theorem fold_all {Made Item Fault : Type} {add : Made → Item → Except Fault Made}
    {holds : Item → Prop}
    (step : ∀ {before after item}, add before item = .ok after → holds item)
    {items : List Item} {start result : Made} (built : items.foldlM add start = .ok result) :
    ∀ item ∈ items, holds item := by
  induction items generalizing start with
  | nil => simp
  | cons item items induction =>
      rw [List.foldlM_cons] at built
      obtain ⟨next, added, built⟩ := bind_eq_ok.mp built
      exact List.forall_mem_cons.mpr ⟨step added, induction built⟩

theorem Parameter.proper_numbered {parameters : List Parameter}
    (proper : ∀ parameter ∈ parameters, parameter.Proper) :
    ∀ parameter ∈ numbered parameters, parameter.Proper :=
  forall_numbered_from (fun _ _ fine => ⟨fine.named, fine.valued⟩) proper

namespace EventSignature

open Signature

theorem of_parameters_proper {name : String} {parameters : List Parameter}
    {signature : EventSignature} (built : ofParameters name parameters = .ok signature) :
    isIdentifier name = true ∧ ∀ parameter ∈ parameters, parameter.Proper := by
  unfold ofParameters ofName at built
  obtain ⟨_, given, folded⟩ := bind_eq_ok.mp built
  obtain ⟨_, checked, _⟩ := bind_eq_ok.mp given
  refine ⟨identifier_of_checked checked, fold_all (fun added => ?_) folded⟩
  obtain ⟨admits, -⟩ := add_parameter_iff.mp added
  exact ⟨admits.named, fun nothing => absurd nothing admits.valued⟩

/-- An event that could be put together is read back from its text. -/
theorem of_text_written {name ending : String} {parameters : List Parameter}
    {signature : EventSignature} (built : ofParameters name parameters = .ok signature)
    (ends : ending ∈ endings) : ofText (signature.text ++ ending) = .ok signature := by
  obtain ⟨named, proper⟩ := of_parameters_proper built
  obtain rfl := of_parameters_ok built
  have placed := Parameter.proper_numbered proper
  have written : (text ⟨name, Parameter.numbered parameters⟩ ++ ending).toList =
      called name (Parameter.numbered parameters) ending := by
    simp [text, called]
  rw [ofText, written, called_trimmed named, head_of_called named placed ends]
  dsimp only
  rw [parameters_of_text placed]
  change ofParameters name _ = _
  rw [of_parameters_numbered, of_parameters_numbered]
  exact built

end EventSignature

namespace FunctionSignature

open Signature

theorem of_parameters_proper {returns : ValueType} {name : String} {parameters : List Parameter}
    {signature : FunctionSignature} (built : ofParameters returns name parameters = .ok signature) :
    isIdentifier name = true ∧ ∀ parameter ∈ parameters, parameter.Proper := by
  unfold ofParameters ofName at built
  obtain ⟨_, given, folded⟩ := bind_eq_ok.mp built
  obtain ⟨_, checked, _⟩ := bind_eq_ok.mp given
  refine ⟨identifier_of_checked checked, fold_all (fun added => ?_) folded⟩
  obtain ⟨admits, -⟩ := add_parameter_iff.mp added
  exact ⟨admits.named, admits.valued⟩

/-- A function that could be put together is read back from its text. -/
theorem of_text_written {returns : ValueType} {name ending : String} {parameters : List Parameter}
    {signature : FunctionSignature} (built : ofParameters returns name parameters = .ok signature)
    (ends : ending ∈ endings) : ofText (signature.text ++ ending) = .ok signature := by
  obtain ⟨named, proper⟩ := of_parameters_proper built
  obtain ⟨_, rfl⟩ := of_parameters_ok built
  have placed := Parameter.proper_numbered proper
  have head := head_of_called named placed ends
  have again : ofParameters returns name (Parameter.numbered (Parameter.numbered parameters)) =
      .ok ⟨name, returns, Parameter.numbered parameters⟩ := by
    rw [of_parameters_numbered, of_parameters_numbered]
    exact built
  by_cases nothing : returns = .void
  · subst nothing
    have written : (text ⟨name, .void, Parameter.numbered parameters⟩ ++ ending).toList =
        called name (Parameter.numbered parameters) ending := by
      simp [text, called]
    rw [ofText, functionParts?, written, called_trimmed named, called_untyped named, head]
    dsimp only [Option.map_some, returnTypeOfText]
    rw [parameters_of_text placed]
    exact again
  · have written : (text ⟨name, returns, Parameter.numbered parameters⟩ ++ ending).toList =
        returns.keyword.toList ++ ' ' :: called name (Parameter.numbered parameters) ending := by
      simp [text, called, nothing]
    obtain ⟨trimmed, typed⟩ := called_typed named returns
    rw [ofText, functionParts?, written, trimmed, typed]
    dsimp only
    rw [head]
    dsimp only [Option.map_some, returnTypeOfText]
    rw [keyword_read nothing, parameters_of_text placed]
    exact again

end FunctionSignature

/-- A signature is read back as it was put together, with a semicolon behind its text or without
one. It has the name and return type that it was given, and at each place the parameter that was
added there, with the place as its index. -/
theorem signature_text_read_back :
    (∀ {returns name parameters signature ending},
      FunctionSignature.ofParameters returns name parameters = .ok signature → ending ∈ ["", ";"] →
        FunctionSignature.ofText (signature.text ++ ending) = .ok signature ∧
          signature = ⟨name, returns,
            parameters.mapIdx fun place parameter => { parameter with index := place }⟩) ∧
    (∀ {name parameters signature ending},
      EventSignature.ofParameters name parameters = .ok signature → ending ∈ ["", ";"] →
        EventSignature.ofText (signature.text ++ ending) = .ok signature ∧
          signature = ⟨name,
            parameters.mapIdx fun place parameter => { parameter with index := place }⟩) := by
  have places (parameters : List Parameter) : Parameter.numbered parameters =
      parameters.mapIdx fun place parameter => { parameter with index := place } := by
    rw [List.mapIdx_eq_zipIdx_map]
    rfl
  refine ⟨fun {_ _ parameters _ _} built ends => ⟨?_, ?_⟩,
    fun {_ parameters _ _} built ends => ⟨?_, ?_⟩⟩
  · exact FunctionSignature.of_text_written built ends
  · exact places parameters ▸ (FunctionSignature.of_parameters_ok built).2
  · exact EventSignature.of_text_written built ends
  · exact places parameters ▸ EventSignature.of_parameters_ok built

/-- A signature with a parameter named like a type and one that takes any arguments. -/
theorem any_arguments_read_back :
    let parameters : List Parameter := [⟨"integer", .string, false, 7⟩, ⟨"rest", .void, true, 0⟩]
    let signature : FunctionSignature :=
      ⟨"osList", .list, [⟨"integer", .string, false, 0⟩, ⟨"rest", .void, true, 1⟩]⟩
    FunctionSignature.ofParameters .list "osList" parameters = .ok signature ∧
      signature.text = "list osList(string integer, any... rest)" ∧
      FunctionSignature.ofText (signature.text ++ ";") = .ok signature := by
  intro parameters signature
  have built : FunctionSignature.ofParameters .list "osList" parameters = .ok signature := by
    decide
  exact ⟨built, by decide, (signature_text_read_back.1 built (by decide)).1⟩

end Lsl
