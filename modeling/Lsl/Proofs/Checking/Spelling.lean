import Lsl.Checking.Validator

/-!
Sources by their characters. A text is kept in bytes, and to get its characters back out of them takes
long where a fact about one source is found by evaluation. If the characters are known, reading and
checking can start from them.
-/

set_option autoImplicit false

namespace Lsl

/-- The tokens of the source with these characters. -/
def tokensOf (chars : List Char) : List Token :=
  (scanFrom .origin 0 chars).filterMap Scanned.token? ++
    [.closing (Position.origin.advanceOver chars)]

/-- The errors in the text of the source with these characters, in the order of their places. -/
def syntaxErrorsOf (chars : List Char) : List SyntaxError :=
  ((scanFrom .origin 0 chars).filterMap Scanned.fault? ++ (parse (tokensOf chars)).2).mergeSort
    fun first second => first.span.start.offset ≤ second.span.start.offset

def checkRead (library : Library) (script : Script) (errors : List SyntaxError) : Checked Script :=
  if errors.isEmpty then validate library script
  else
    let reports := errors.map Diagnostic.ofSyntaxError
    ⟨script.concluded reports, reports⟩

def checkCharacters (library : Library) (chars : List Char) : Checked Script :=
  checkRead library (parse (tokensOf chars)).1 (syntaxErrorsOf chars)

section

variable {source : String} {chars : List Char} (spelled : source = String.ofList chars)

include spelled

theorem tokenize_spelled : tokenize source = tokensOf chars := by
  rw [spelled, tokenize, scan, String.toList_ofList, tokensOf]

theorem syntax_errors_spelled : syntaxErrors source = syntaxErrorsOf chars := by
  rw [syntaxErrors, tokenize_spelled spelled, lexicalErrors, scan, spelled, String.toList_ofList,
    syntaxErrorsOf]

theorem check_source_spelled (library : Library) :
    checkSource library source = checkCharacters library chars := by
  have stages : checkSource library source =
      checkRead library (parse (tokenize source)).1 (syntaxErrors source) := rfl
  rw [stages, tokenize_spelled spelled, syntax_errors_spelled spelled, checkCharacters]

end

end Lsl
