import Lsl.Target.Program
import Mathlib.Data.List.Infix

/-!
The terms that generated code is made of. The text of a term stands in one piece in the text of the
code around it.
-/

set_option autoImplicit false

namespace Lsl

theorem infix_left {α : Type} {inner front : List α} (back : List α) (inside : inner <:+: front) :
    inner <:+: front ++ back :=
  inside.trans (List.prefix_append front back).isInfix

theorem infix_right {α : Type} {inner back : List α} (front : List α) (inside : inner <:+: back) :
    inner <:+: front ++ back :=
  inside.trans (List.suffix_append front back).isInfix

def Callee.isUtility : Callee → Bool
  | utility _ => true
  | _ => false

namespace Code

/-- The code directly in a code, in the order of the text. -/
def parts : Code → List Code
  | plain _ => []
  | fault _ => []
  | global _ => []
  | create _ _ arguments => arguments
  | invoke _ arguments => arguments
  | operate _ right left => [right, left]
  | logical _ right left => [right, left]
  | assign target value => [target, value]
  | roundedProduct target factor => [target, factor]
  | before _ operand => [operand]
  | behind operand _ => [operand]
  | convert _ operand => [operand]
  | grouped inner => [inner]
  | component target _ => [target]

theorem parts_induction {motive : Code → Prop}
    (step : ∀ code : Code, (∀ part ∈ code.parts, motive part) → motive code) (code : Code) :
    motive code := by
  refine @Code.rec motive (fun codes => ∀ part ∈ codes, motive part)
    ?plain ?fault ?global ?create ?invoke ?operate ?logical ?assign ?roundedProduct ?before
    ?behind ?convert ?grouped ?component ?nil ?cons code
  case nil => simp
  case cons =>
    intro head rest own others
    simpa using ⟨own, others⟩
  case plain | fault | global => exact fun text => step _ (by simp [parts])
  case create => exact fun type separator arguments parts => step _ parts
  case invoke => exact fun callee arguments parts => step _ parts
  case operate | logical =>
    exact fun _ right left first second => step _ (by simpa [parts] using ⟨first, second⟩)
  case assign | roundedProduct =>
    exact fun target value first second => step _ (by simpa [parts] using ⟨first, second⟩)
  case before | convert => exact fun _ operand inner => step _ (by simpa [parts] using inner)
  case behind | component => exact fun operand _ inner => step _ (by simpa [parts] using inner)
  case grouped => exact fun operand inner => step _ (by simpa [parts] using inner)

mutual

/-- The code and all code in it, in the order of the text. -/
def terms : Code → List Code
  | plain text => [plain text]
  | fault reason => [fault reason]
  | global name => [global name]
  | create type separator arguments => create type separator arguments :: listTerms arguments
  | invoke callee arguments => invoke callee arguments :: listTerms arguments
  | operate operation right left => operate operation right left :: (right.terms ++ left.terms)
  | logical symbol right left => logical symbol right left :: (right.terms ++ left.terms)
  | assign target value => assign target value :: (target.terms ++ value.terms)
  | roundedProduct target factor => roundedProduct target factor :: (target.terms ++ factor.terms)
  | before symbol operand => before symbol operand :: operand.terms
  | behind operand symbol => behind operand symbol :: operand.terms
  | convert type operand => convert type operand :: operand.terms
  | grouped inner => grouped inner :: inner.terms
  | component target name => component target name :: target.terms

def listTerms : List Code → List Code
  | [] => []
  | code :: rest => code.terms ++ listTerms rest

end

theorem list_terms_eq (codes : List Code) : listTerms codes = codes.flatMap terms := by
  induction codes with
  | nil => rfl
  | cons code rest induction => rw [listTerms, induction, List.flatMap_cons]

theorem terms_eq (code : Code) : code.terms = code :: code.parts.flatMap terms := by
  cases code <;> simp [terms, parts, list_terms_eq]

/-- Evaluating the code itself changes something, whatever its parts do. -/
def isEffect : Code → Bool
  | invoke callee _ => !callee.isUtility
  | assign _ _ => true
  | before symbol _ => symbol == "++" || symbol == "--"
  | behind _ _ => true
  | _ => false

/-- Code that combines two operands. -/
def isOperation : Code → Bool
  | operate _ _ _ => true
  | logical _ _ _ => true
  | _ => false

section

variable (access : GlobalAccess)

theorem joined_within (separator : String) {code : Code} {codes : List Code}
    (member : code ∈ codes) : code.fragments access <:+: joined access separator codes := by
  induction codes with
  | nil => simp at member
  | cons first rest induction =>
      rw [joined]
      rcases List.mem_cons.mp member with rfl | member
      · exact infix_left _ (infix_left _ List.infix_rfl)
      · exact infix_right _ (induction member)

/-- A part is written in one piece. -/
theorem part_within {part code : Code} (member : part ∈ code.parts) :
    part.fragments access <:+: code.fragments access := by
  have first : ∀ (opening : Fragment) (inner rest : List Fragment),
      inner <:+: opening :: (inner ++ rest) := fun opening inner rest => ⟨[opening], rest, rfl⟩
  have second : ∀ (opening between : Fragment) (other inner rest : List Fragment),
      inner <:+: opening :: (other ++ between :: (inner ++ rest)) :=
    fun opening between other inner rest => ⟨opening :: (other ++ [between]), rest, by simp⟩
  cases code with
  | plain text | fault text | global text => simp [parts] at member
  | create type separator arguments =>
      rw [fragments, List.cons_append]
      exact (joined_within access separator member).trans (first _ _ _)
  | invoke callee arguments =>
      rw [fragments, List.cons_append]
      exact (joined_within access "," member).trans (first _ _ _)
  | operate operation right left | logical symbol right left =>
      simp only [parts, List.mem_cons, List.not_mem_nil, or_false] at member
      simp only [fragments, List.cons_append, List.append_assoc, List.nil_append]
      rcases member with rfl | rfl
      · exact first _ _ _
      · exact second _ _ _ _ _
  | roundedProduct target factor =>
      simp only [parts, List.mem_cons, List.not_mem_nil, or_false] at member
      simp only [fragments, List.cons_append, List.append_assoc, List.nil_append]
      rcases member with rfl | rfl
      · exact first _ _ _
      · exact second _ _ _ _ _
  | assign target value =>
      simp only [parts, List.mem_cons, List.not_mem_nil, or_false] at member
      rw [fragments]
      rcases member with rfl | rfl
      · exact infix_left _ (infix_left _ List.infix_rfl)
      · exact infix_right _ List.infix_rfl
  | convert type inner | grouped inner =>
      obtain rfl := List.mem_singleton.mp member
      rw [fragments, List.cons_append]
      exact first _ _ _
  | before symbol operand =>
      obtain rfl := List.mem_singleton.mp member
      exact (List.suffix_cons _ _).isInfix
  | behind inner text | component inner text =>
      obtain rfl := List.mem_singleton.mp member
      exact (List.prefix_append _ _).isInfix

theorem term_within {term code : Code} (member : term ∈ code.terms) :
    term.fragments access <:+: code.fragments access := by
  induction code using parts_induction with
  | step code induction =>
      rw [terms_eq, List.mem_cons, List.mem_flatMap] at member
      rcases member with rfl | ⟨part, partMember, member⟩
      · exact List.infix_rfl
      · exact (induction part partMember member).trans (part_within access partMember)

theorem list_term_within (separator : String) {term : Code} {codes : List Code}
    (member : term ∈ listTerms codes) :
    term.fragments access <:+: joined access separator codes := by
  rw [list_terms_eq, List.mem_flatMap] at member
  obtain ⟨code, inside, member⟩ := member
  exact (term_within access member).trans (joined_within access separator inside)

end

end Code

def Code.optionTerms : Option Code → List Code
  | some code => code.terms
  | none => []

mutual

/-- The terms of a statement, in the order of the text. -/
def CodeStmt.terms : CodeStmt → List Code
  | .declare _ _ value => value.terms
  | .perform value => value.terms
  | .giveBack value => Code.optionTerms value
  | .jump _ => []
  | .label _ _ => []
  | .changeState _ => []
  | .checkpoint _ => []
  | .block body => CodeStmt.listTerms body
  | .branch condition body rest => condition.terms ++ CodeStmt.listTerms body ++ rest.terms
  | .whileLoop condition body => condition.terms ++ CodeStmt.listTerms body
  | .doLoop body condition => CodeStmt.listTerms body ++ condition.terms
  | .forLoop init condition afterthought body =>
    Code.listTerms init ++ Code.optionTerms condition ++ Code.listTerms afterthought ++
      CodeStmt.listTerms body
  | .fault _ => []

def CodeStmt.listTerms : List CodeStmt → List Code
  | [] => []
  | stmt :: rest => stmt.terms ++ CodeStmt.listTerms rest

def CodeAlternatives.terms : CodeAlternatives → List Code
  | .done => []
  | .elseIf condition body rest => condition.terms ++ CodeStmt.listTerms body ++ rest.terms
  | .otherwise body => CodeStmt.listTerms body

end

theorem CodeStmt.list_terms_append (first second : List CodeStmt) :
    CodeStmt.listTerms (first ++ second) =
      CodeStmt.listTerms first ++ CodeStmt.listTerms second := by
  induction first with
  | nil => rfl
  | cons code first induction => simp [CodeStmt.listTerms, induction]

theorem Fragment.braced_within (depth : Nat) (inner : List Fragment) :
    inner <:+: Fragment.braced depth inner :=
  List.infix_append _ _ _

theorem Code.option_term_within (access : GlobalAccess) {term : Code} {code : Option Code}
    (member : term ∈ Code.optionTerms code) :
    term.fragments access <:+: Code.optionFragments access code := by
  cases code with
  | none => simp [Code.optionTerms] at member
  | some code => exact Code.term_within access member

mutual

theorem CodeStmt.term_within (access : GlobalAccess) (depth : Nat) {term : Code} (stmt : CodeStmt)
    (member : term ∈ stmt.terms) : term.fragments access <:+: stmt.fragments access depth := by
  match stmt with
  | .declare type name value =>
      exact infix_left _ (infix_right [_, _] (Code.term_within access member))
  | .perform value => exact infix_left _ (infix_right [_] (Code.term_within access member))
  | .giveBack none => simp [CodeStmt.terms, Code.optionTerms] at member
  | .giveBack (some value) =>
      exact infix_left _ (infix_right [_, _] (Code.term_within access member))
  | .jump _ | .label _ _ | .changeState _ | .checkpoint _ | .fault _ =>
      simp [CodeStmt.terms] at member
  | .block body =>
      exact (CodeStmt.list_term_within access (depth + 1) body member).trans
        (Fragment.braced_within depth _)
  | .branch condition body rest =>
      simp only [CodeStmt.terms, List.mem_append] at member
      rw [CodeStmt.fragments]
      rcases member with (member | member) | member
      · exact infix_left _ (infix_left _ (infix_left _
          (infix_right [_, _] (Code.term_within access member))))
      · exact infix_left _ (infix_right _
          ((CodeStmt.list_term_within access (depth + 1) body member).trans
            (Fragment.braced_within depth _)))
      · exact infix_right _ (CodeAlternatives.term_within access depth rest member)
  | .whileLoop condition body =>
      rw [CodeStmt.terms, List.mem_append] at member
      rw [CodeStmt.fragments]
      rcases member with member | member
      · exact infix_left _ (infix_left _ (infix_right [_, _] (Code.term_within access member)))
      · exact infix_right _ ((CodeStmt.list_term_within access (depth + 1) body member).trans
          (Fragment.braced_within depth _))
  | .doLoop body condition =>
      rw [CodeStmt.terms, List.mem_append] at member
      rw [CodeStmt.fragments]
      rcases member with member | member
      · exact infix_left _ (infix_left _ (infix_right _
          ((CodeStmt.list_term_within access (depth + 1) body member).trans
            (Fragment.braced_within depth _))))
      · exact infix_left _ (infix_right _ (infix_right [_, _] (Code.term_within access member)))
  | .forLoop init condition afterthought body =>
      simp only [CodeStmt.terms, List.mem_append] at member
      rw [CodeStmt.fragments]
      rcases member with ((member | member) | member) | member
      · exact infix_left _ (infix_left _ (infix_left _ (infix_left _ (infix_left _ (infix_left _
          (infix_right [_, _] (Code.list_term_within access "," member)))))))
      · exact infix_left _ (infix_left _ (infix_left _ (infix_left _
          (infix_right _ (Code.option_term_within access member)))))
      · exact infix_left _ (infix_left _ (infix_right _
          (Code.list_term_within access "," member)))
      · exact infix_right _ ((CodeStmt.list_term_within access (depth + 1) body member).trans
          (Fragment.braced_within depth _))

/-- A term of the code of statements is written in one piece. -/
theorem CodeStmt.list_term_within (access : GlobalAccess) (depth : Nat) {term : Code}
    (codes : List CodeStmt) (member : term ∈ CodeStmt.listTerms codes) :
    term.fragments access <:+: CodeStmt.listFragments access depth codes := by
  match codes with
  | [] => simp [CodeStmt.listTerms] at member
  | stmt :: rest =>
      rw [CodeStmt.listTerms, List.mem_append] at member
      rcases member with member | member
      · exact infix_left _ (CodeStmt.term_within access depth stmt member)
      · exact infix_right _ (CodeStmt.list_term_within access depth rest member)

theorem CodeAlternatives.term_within (access : GlobalAccess) (depth : Nat) {term : Code}
    (rest : CodeAlternatives) (member : term ∈ rest.terms) :
    term.fragments access <:+: rest.fragments access depth := by
  match rest with
  | .done => simp [CodeAlternatives.terms] at member
  | .elseIf condition body rest =>
      simp only [CodeAlternatives.terms, List.mem_append] at member
      rw [CodeAlternatives.fragments]
      rcases member with (member | member) | member
      · exact infix_left _ (infix_left _ (infix_left _
          (infix_right [_, _] (Code.term_within access member))))
      · exact infix_left _ (infix_right _
          ((CodeStmt.list_term_within access (depth + 1) body member).trans
            (Fragment.braced_within depth _)))
      · exact infix_right _ (CodeAlternatives.term_within access depth rest member)
  | .otherwise body =>
      exact infix_right _ ((CodeStmt.list_term_within access (depth + 1) body member).trans
        (Fragment.braced_within depth _))

end

theorem separated_within {separator item : List Fragment} {items : List (List Fragment)}
    (member : item ∈ items) : item <:+: separated separator items := by
  induction items with
  | nil => simp at member
  | cons first rest induction =>
      rw [separated]
      rcases List.mem_cons.mp member with rfl | member
      · exact infix_left _ (infix_left _ List.infix_rfl)
      · exact infix_right _ (induction member)

theorem flat_map_within {α : Type} {value : α} {list : List α} (write : α → List Fragment)
    (member : value ∈ list) : write value <:+: list.flatMap write :=
  List.infix_of_mem_flatten (List.mem_map_of_mem member)

namespace Program

variable {program : Program} (settings : Settings) {method : Method}

theorem function_within (member : method ∈ program.functions) :
    method.fragments settings.access settings.depth <:+: program.functionFragments settings := by
  have some : program.functions.isEmpty = false := by
    simpa using List.ne_nil_of_mem member
  rw [functionFragments, some]
  exact infix_right _ ((infix_left _ List.infix_rfl).trans
    (flat_map_within (fun method => method.fragments settings.access settings.depth ++
      [Fragment.gap 2]) member))

theorem handler_within {handlers : List Method} (member : method ∈ handlers) :
    method.fragments settings.access settings.depth <:+: handlerFragments settings handlers :=
  separated_within (List.mem_map_of_mem member)

theorem state_within
    (member : method ∈ program.states.flatten ++ program.defaultState.getD []) :
    method.fragments settings.access settings.depth <:+: program.stateFragments settings := by
  rw [stateFragments]
  rcases List.mem_append.mp member with member | member
  · obtain ⟨handlers, inside, member⟩ := List.mem_flatten.mp member
    have some : program.states.isEmpty = false := by
      simpa using List.ne_nil_of_mem inside
    rw [some]
    exact infix_left _ (infix_right _ ((infix_left _ (handler_within settings member)).trans
      (flat_map_within (fun handlers => handlerFragments settings handlers ++ [Fragment.gap 2])
        inside)))
  · cases initial : program.defaultState with
    | none => simp [initial] at member
    | some handlers =>
        rw [initial] at member
        exact infix_right _ (infix_right _ (handler_within settings member))

/-- A method is written in the text of its program. -/
theorem method_within (member : method ∈ program.methods) (date : String) :
    method.fragments settings.access settings.depth <:+: program.fragments settings date := by
  rw [methods, List.append_assoc] at member
  rw [fragments]
  rcases List.mem_append.mp member with member | member
  · exact infix_left _ (infix_left _ (infix_left _
      (infix_right _ (function_within settings member))))
  · exact infix_left _ (infix_left _ (infix_right _ (state_within settings member)))

theorem body_within (member : method ∈ program.methods) (date : String) :
    CodeStmt.listFragments settings.access (settings.depth + 1) method.body <:+:
      program.fragments settings date := by
  have inner : CodeStmt.listFragments settings.access (settings.depth + 1) method.body <:+:
      method.fragments settings.access settings.depth :=
    infix_right _ (Fragment.braced_within _ _)
  exact inner.trans (method_within settings member date)

end Program

end Lsl
