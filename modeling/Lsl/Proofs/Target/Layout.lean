import Lsl.Compilation
import Lsl.Proofs.Target.Terms

/-!
Code at two depths and with two ways to globals. The two texts are one and the same but for the tabs
that their lines begin with and for the words by which they reach globals.
-/

set_option autoImplicit false

namespace Lsl

/-- Nothing but tabs stands between the start of the line and what comes behind the character. -/
def leadsBehind (leads : Bool) (char : Char) : Bool := char == '\n' || (leads && char == '\t')

/-- A text without the tabs that its lines begin with. The flag says that it goes on where such tabs
can stand. -/
def untabbed : Bool → List Char → List Char
  | _, [] => []
  | leads, char :: rest =>
    if leads && char == '\t' then untabbed true rest else char :: untabbed (char == '\n') rest

/-- Two texts with the same characters, but for the tabs that lines begin with and for pairs of
words: where the one has the first word of a pair, the other has the second. The pairs are those of
the whole text, in order. -/
inductive Alike : Bool → List (String × String) → List Char → List Char → Prop
  | done {leads : Bool} : Alike leads [] [] []
  | char {leads : Bool} {pairs : List (String × String)} {first second : List Char} (char : Char)
    (rest : Alike (leadsBehind leads char) pairs first second) :
    Alike leads pairs (char :: first) (char :: second)
  | tabs {pairs : List (String × String)} {first second : List Char} (count other : Nat)
    (rest : Alike true pairs first second) :
    Alike true pairs (List.replicate count '\t' ++ first) (List.replicate other '\t' ++ second)
  | words {leads : Bool} {pairs : List (String × String)} {first second : List Char}
    (word other : String) (rest : Alike false pairs first second) :
    Alike leads ((word, other) :: pairs) (word.toList ++ first) (other.toList ++ second)

theorem untabbed_tabs (count : Nat) (rest : List Char) :
    untabbed true (List.replicate count '\t' ++ rest) = untabbed true rest := by
  induction count with
  | zero => rfl
  | succ count induction => exact induction

/-- Alike texts without words that differ are the same text without the tabs. -/
theorem Alike.untabbed_eq {leads : Bool} {first second : List Char}
    (alike : Alike leads [] first second) : untabbed leads first = untabbed leads second := by
  generalize none : ([] : List (String × String)) = pairs at alike
  induction alike with
  | done => rfl
  | @char leads pairs first second char rest induction =>
      have same := induction none
      unfold leadsBehind at same
      unfold untabbed
      split
      · rename_i tab
        obtain ⟨rfl, rfl⟩ : leads = true ∧ char = '\t' := by simpa using tab
        exact same
      · rename_i other
        simp only [Bool.not_eq_true] at other
        rw [other, Bool.or_false] at same
        rw [same]
  | tabs count other rest induction =>
      rw [untabbed_tabs, untabbed_tabs]
      exact induction none
  | words word other rest induction => cases none

namespace Fragment

def leadsBehindText (leads : Bool) (text : String) : Bool := text.toList.foldl leadsBehind leads

/-- Fragments of which the texts are alike. The flags say whether tabs can lead a line, in front of
the fragments and behind them. -/
inductive Twins : Bool → Bool → List (String × String) → List Fragment → List Fragment → Prop
  | done {leads : Bool} : Twins leads leads [] [] []
  | text {leads stop : Bool} {pairs : List (String × String)} {first second : List Fragment}
    (text : String) (rest : Twins (leadsBehindText leads text) stop pairs first second) :
    Twins leads stop pairs (.text text :: first) (.text text :: second)
  | fault {leads stop : Bool} {pairs : List (String × String)} {first second : List Fragment}
    (reason : String) (rest : Twins leads stop pairs first second) :
    Twins leads stop pairs (.fault reason :: first) (.fault reason :: second)
  | indent {stop : Bool} {pairs : List (String × String)} {first second : List Fragment}
    (depth other : Nat) (rest : Twins true stop pairs first second) :
    Twins true stop pairs (indent depth :: first) (indent other :: second)
  | words {leads stop : Bool} {pairs : List (String × String)} {first second : List Fragment}
    (word other : String) (rest : Twins false stop pairs first second) :
    Twins leads stop ((word, other) :: pairs) (.text word :: first) (.text other :: second)

/-- The characters that are written before the first fault. -/
def emitted (fragments : List Fragment) : List Char :=
  (written fragments).flatMap String.toList

namespace Twins

variable {leads middle stop : Bool} {pairs more : List (String × String)}
  {first second third fourth : List Fragment}

theorem append (front : Twins leads middle pairs first second)
    (back : Twins middle stop more third fourth) :
    Twins leads stop (pairs ++ more) (first ++ third) (second ++ fourth) := by
  induction front with
  | done => exact back
  | text text rest induction => exact .text text (induction back)
  | fault reason rest induction => exact .fault reason (induction back)
  | indent depth other rest induction => exact .indent depth other (induction back)
  | words word other rest induction => exact .words word other (induction back)

end Twins

end Fragment

theorem Alike.text {leads : Bool} {pairs : List (String × String)} {first second : List Char}
    (text : List Char) (rest : Alike (text.foldl leadsBehind leads) pairs first second) :
    Alike leads pairs (text ++ first) (text ++ second) := by
  induction text generalizing leads with
  | nil => exact rest
  | cons char text induction => exact .char char (induction rest)

namespace Fragment

theorem Twins.emitted_alike {leads stop : Bool} {pairs : List (String × String)}
    {first second : List Fragment} (twins : Twins leads stop pairs first second) :
    ∃ front, front <+: pairs ∧ (failure? first = none → front = pairs) ∧
      Alike leads front (emitted first) (emitted second) := by
  induction twins with
  | done => exact ⟨[], List.prefix_rfl, fun _ => rfl, .done⟩
  | text text rest induction =>
      obtain ⟨front, reached, whole, alike⟩ := induction
      exact ⟨front, reached, whole, .text text.toList alike⟩
  | fault reason rest induction =>
      refine ⟨[], List.nil_prefix, ?_, .done⟩
      intro free
      cases free
  | indent depth other rest induction =>
      obtain ⟨front, reached, whole, alike⟩ := induction
      refine ⟨front, reached, whole, ?_⟩
      have tabs := Alike.tabs depth other alike
      simpa [emitted, written, Fragment.indent] using tabs
  | words word other rest induction =>
      obtain ⟨front, reached, whole, alike⟩ := induction
      refine ⟨(word, other) :: front, List.cons_prefix_cons.mpr ⟨rfl, reached⟩, ?_,
        .words word other alike⟩
      exact fun free => congrArg _ (whole free)

end Fragment

/-- The name of the global that a term stands for. -/
def Code.global? : Code → Option String
  | .global name => some name
  | _ => none

/-- The globals among terms, each with the words by which it is reached in two ways. -/
def GlobalAccess.pairs (access other : GlobalAccess) (terms : List Code) :
    List (String × String) :=
  (terms.filterMap Code.global?).map fun name => (access.path name, other.path name)

def Fragment.Inline (pairs : List (String × String)) (first second : List Fragment) : Prop :=
  ∀ leads, ∃ stop, Twins leads stop pairs first second

namespace Fragment

open GlobalAccess (pairs)

theorem leads_behind_line (leads : Bool) (content : String) :
    leadsBehindText leads (content ++ "\n") = true := by
  rw [leadsBehindText, String.toList_append, List.foldl_append]
  rfl

namespace Inline

variable {front back : List (String × String)} {first second third fourth : List Fragment}

theorem nil : Inline [] [] [] := fun leads => ⟨leads, .done⟩

theorem append (start : Inline front first second) (rest : Inline back third fourth) :
    Inline (front ++ back) (first ++ third) (second ++ fourth) := by
  intro leads
  obtain ⟨middle, start⟩ := start leads
  obtain ⟨stop, rest⟩ := rest middle
  exact ⟨stop, start.append rest⟩

theorem text (text : String) (rest : Inline front first second) :
    Inline front (.text text :: first) (.text text :: second) := by
  intro leads
  obtain ⟨stop, rest⟩ := rest (leadsBehindText leads text)
  exact ⟨stop, .text text rest⟩

theorem plain (content : String) : Inline [] [.text content] [.text content] := text content nil

theorem behind (start : Inline front first second) (text : String) :
    Inline front (first ++ [.text text]) (second ++ [.text text]) := by
  have whole := start.append (plain text)
  rwa [List.append_nil] at whole

theorem line (start : Inline front first second) (depth other : Nat) (content : String) :
    Twins true true front (indent depth :: first ++ [.text (content ++ "\n")])
      (indent other :: second ++ [.text (content ++ "\n")]) := by
  obtain ⟨stop, start⟩ := start true
  have ending : Twins stop true [] [.text (content ++ "\n")] [.text (content ++ "\n")] := by
    refine .text _ ?_
    rw [leads_behind_line]
    exact .done
  have whole := start.append ending
  rw [List.append_nil] at whole
  exact .indent depth other whole

end Inline

theorem twin_line (depth other : Nat) (content : String) :
    Twins true true [] (line depth content) (line other content) :=
  Inline.nil.line depth other content

theorem twin_braces {pairs : List (String × String)} {first second : List Fragment}
    (depth other : Nat) (inner : Twins true true pairs first second) :
    Twins true true pairs (braced depth first) (braced other second) := by
  have whole := ((twin_line depth other "\x7b").append inner).append (twin_line depth other "\x7d")
  rwa [List.nil_append, List.append_nil] at whole

end Fragment

section

open Fragment (Inline Twins)
open GlobalAccess (pairs)

variable (access other : GlobalAccess)

theorem GlobalAccess.pairs_append (first second : List Code) :
    pairs access other (first ++ second) =
      pairs access other first ++ pairs access other second := by
  rw [pairs, List.filterMap_append, List.map_append]
  rfl

mutual

theorem Code.inline (code : Code) : Inline (pairs access other code.terms)
    (code.fragments access) (code.fragments other) := by
  match code with
  | .plain text => exact .plain text
  | .fault reason => exact fun leads => ⟨leads, .fault reason .done⟩
  | .global name => exact fun leads => ⟨false, .words _ _ .done⟩
  | .create type separator arguments =>
      exact ((Code.joined_inline separator arguments).text _).behind _
  | .invoke callee arguments => exact ((Code.joined_inline "," arguments).text _).behind _
  | .operate operation right left | .logical symbol right left =>
      change Inline (pairs access other (right.terms ++ left.terms)) _ _
      rw [GlobalAccess.pairs_append]
      exact (((right.inline.text _).behind _).append left.inline).behind _
  | .assign target value =>
      change Inline (pairs access other (target.terms ++ value.terms)) _ _
      rw [GlobalAccess.pairs_append]
      exact (target.inline.behind _).append value.inline
  | .roundedProduct target factor =>
      change Inline (pairs access other (target.terms ++ factor.terms)) _ _
      rw [GlobalAccess.pairs_append]
      exact (((target.inline.text _).behind _).append factor.inline).behind _
  | .before symbol operand => exact operand.inline.text _
  | .behind operand symbol => exact operand.inline.behind _
  | .convert type operand => exact (operand.inline.text _).behind _
  | .grouped inner => exact (inner.inline.text _).behind _
  | .component target name => exact target.inline.behind _

theorem Code.joined_inline (separator : String) (codes : List Code) :
    Inline (pairs access other (Code.listTerms codes)) (Code.joined access separator codes)
      (Code.joined other separator codes) := by
  match codes with
  | [] => exact .nil
  | code :: rest =>
      have between : Inline [] (if rest.isEmpty then [] else [.text separator])
          (if rest.isEmpty then [] else [.text separator]) := by
        split
        · exact .nil
        · exact .plain separator
      have whole := (code.inline.append between).append (Code.joined_inline separator rest)
      rw [List.append_nil] at whole
      rw [Code.listTerms, GlobalAccess.pairs_append]
      exact whole

end

theorem Code.option_inline (code : Option Code) : Inline (pairs access other (optionTerms code))
    (optionFragments access code) (optionFragments other code) := by
  cases code with
  | none => exact .nil
  | some code => exact code.inline access other

mutual

/-- Statements are written alike for two ways to globals, but for their depth. -/
theorem CodeStmt.twins (depth inner : Nat) (stmt : CodeStmt) :
    Twins true true (pairs access other stmt.terms) (stmt.fragments access depth)
      (stmt.fragments other inner) := by
  match stmt with
  | .declare type name value =>
      exact ((value.inline access other).text _).line depth inner ";"
  | .perform value => exact (value.inline access other).line depth inner ";"
  | .giveBack none => exact Fragment.twin_line depth inner "return;"
  | .giveBack (some value) =>
      exact ((value.inline access other).text _).line depth inner ";"
  | .jump label => exact Fragment.twin_line depth inner _
  | .label name empty => exact Fragment.twin_line depth inner _
  | .changeState state => exact Fragment.twin_line depth inner _
  | .checkpoint call => exact Fragment.twin_line depth inner _
  | .block body =>
      exact Fragment.twin_braces depth inner (CodeStmt.list_twins (depth + 1) (inner + 1) body)
  | .branch condition body rest =>
      have head := ((condition.inline access other).text "if(").line depth inner ")"
      have scope := Fragment.twin_braces depth inner
        (CodeStmt.list_twins (depth + 1) (inner + 1) body)
      rw [CodeStmt.terms, GlobalAccess.pairs_append, GlobalAccess.pairs_append]
      exact (head.append scope).append (rest.twins depth inner)
  | .whileLoop condition body =>
      have head := ((condition.inline access other).text "while(").line depth inner ")"
      have scope := Fragment.twin_braces depth inner
        (CodeStmt.list_twins (depth + 1) (inner + 1) body)
      rw [CodeStmt.terms, GlobalAccess.pairs_append]
      exact head.append scope
  | .doLoop body condition =>
      have scope := Fragment.twin_braces depth inner
        (CodeStmt.list_twins (depth + 1) (inner + 1) body)
      have tail := ((condition.inline access other).text "while(").line depth inner ");"
      have whole := ((Fragment.twin_line depth inner "do").append scope).append tail
      rw [CodeStmt.terms, GlobalAccess.pairs_append]
      rw [List.nil_append, ← List.append_assoc, ← List.append_assoc] at whole
      exact whole
  | .forLoop init condition afterthought body =>
      have first := ((Code.joined_inline access other "," init).text "for(").behind ";"
      have second := (first.append (Code.option_inline access other condition)).behind ";"
      have head := (second.append (Code.joined_inline access other "," afterthought)).line
        depth inner ")"
      have scope := Fragment.twin_braces depth inner
        (CodeStmt.list_twins (depth + 1) (inner + 1) body)
      rw [CodeStmt.terms, GlobalAccess.pairs_append, GlobalAccess.pairs_append,
        GlobalAccess.pairs_append]
      exact head.append scope
  | .fault reason => exact .fault reason .done

theorem CodeStmt.list_twins (depth inner : Nat) (codes : List CodeStmt) :
    Twins true true (pairs access other (CodeStmt.listTerms codes))
      (CodeStmt.listFragments access depth codes) (CodeStmt.listFragments other inner codes) := by
  match codes with
  | [] => exact .done
  | stmt :: rest =>
      rw [CodeStmt.listTerms, GlobalAccess.pairs_append]
      exact (stmt.twins depth inner).append (CodeStmt.list_twins depth inner rest)

theorem CodeAlternatives.twins (depth inner : Nat) (rest : CodeAlternatives) :
    Twins true true (pairs access other rest.terms) (rest.fragments access depth)
      (rest.fragments other inner) := by
  match rest with
  | .done => exact .done
  | .elseIf condition body rest =>
      have head := ((condition.inline access other).text "else if(").line depth inner ")"
      have scope := Fragment.twin_braces depth inner
        (CodeStmt.list_twins (depth + 1) (inner + 1) body)
      rw [CodeAlternatives.terms, GlobalAccess.pairs_append, GlobalAccess.pairs_append]
      exact (head.append scope).append (rest.twins depth inner)
  | .otherwise body =>
      exact (Fragment.twin_line depth inner "else").append
        (Fragment.twin_braces depth inner (CodeStmt.list_twins (depth + 1) (inner + 1) body))

end

end

end Lsl
