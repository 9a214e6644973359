import Lsl.Syntax.Script
import Mathlib.Data.List.Forall2

/-!
Scripts written back as the tokens they are read from. A tree keeps of a token no more than it
needs, so it is written as words: each says of one token what the tree knows about it.
-/

set_option autoImplicit false

namespace Lsl

/-- What a tree knows of a token: its kind, and of a name, a literal or a type what it stands for.
The name of a state may be a name or the word `default`. -/
inductive Word where
  | mark (kind : TokenKind)
  | named (kind : TokenKind) (text : String)
  | type (value : ValueType)
  | state (name : String)
deriving DecidableEq, Inhabited, Repr

namespace Word

/-- The token says what the word does. -/
def Fits : Word → Token → Prop
  | mark kind, token => token.kind = kind
  | named kind text, token => token.kind = kind ∧ token.text = text
  | type value, token => token.kind = .type ∧ ValueType.ofKeyword? token.text = some value
  | state name, token =>
    (token.kind = .defaultWord ∨ token.kind = .identifier) ∧ token.text = name

instance : DecidableRel Fits := fun word _ =>
  match word with
  | mark _ => inferInstanceAs (Decidable (_ = _))
  | named _ _ => inferInstanceAs (Decidable (_ ∧ _))
  | type _ => inferInstanceAs (Decidable (_ ∧ _))
  | state _ => inferInstanceAs (Decidable (_ ∧ _))

end Word

def Spells (words : List Word) (tokens : List Token) : Prop := List.Forall₂ Word.Fits words tokens

namespace Spells

variable {word : Word} {token : Token} {words more : List Word} {tokens others : List Token}

@[simp] theorem nil_iff : Spells [] tokens ↔ tokens = [] := List.forall₂_nil_left_iff

@[simp] theorem cons_cons_iff :
    Spells (word :: words) (token :: tokens) ↔ word.Fits token ∧ Spells words tokens :=
  List.forall₂_cons

theorem single (fits : word.Fits token) : Spells [word] [token] :=
  List.Forall₂.cons fits List.Forall₂.nil

theorem append (front : Spells words tokens) (back : Spells more others) :
    Spells (words ++ more) (tokens ++ others) :=
  List.rel_append front back

theorem cons_iff :
    Spells (word :: words) tokens ↔
      ∃ first rest, tokens = first :: rest ∧ word.Fits first ∧ Spells words rest := by
  unfold Spells
  rw [List.forall₂_cons_left_iff]
  constructor
  · rintro ⟨first, rest, fits, spelled, rfl⟩
    exact ⟨first, rest, rfl, fits, spelled⟩
  · rintro ⟨first, rest, rfl, fits, spelled⟩
    exact ⟨first, rest, fits, spelled, rfl⟩

theorem append_iff :
    Spells (words ++ more) tokens ↔
      ∃ front back, tokens = front ++ back ∧ Spells words front ∧ Spells more back := by
  induction words generalizing tokens with
  | nil => simp
  | cons word words induction =>
      rw [List.cons_append, cons_iff]
      constructor
      · rintro ⟨first, rest, rfl, fits, spelled⟩
        obtain ⟨front, back, rfl, inFront, behind⟩ := induction.mp spelled
        exact ⟨first :: front, back, rfl, .cons fits inFront, behind⟩
      · rintro ⟨front, back, rfl, inFront, behind⟩
        obtain ⟨first, rest, rfl, fits, spelled⟩ := cons_iff.mp inFront
        exact ⟨first, rest ++ back, rfl, fits, induction.mpr ⟨rest, back, rfl, spelled, behind⟩⟩

theorem length (spelled : Spells words tokens) : words.length = tokens.length :=
  List.Forall₂.length_eq spelled

end Spells

def Opens (words : List Word) (tokens rest : List Token) : Prop :=
  ∃ read, tokens = read ++ rest ∧ Spells words read

namespace Opens

variable {word : Word} {words more : List Word} {tokens middle rest : List Token}

theorem nil : Opens [] tokens tokens := ⟨[], rfl, List.Forall₂.nil⟩

theorem nil_iff : Opens [] tokens rest ↔ tokens = rest := by
  simp [Opens]

theorem cons_iff :
    Opens (word :: words) tokens rest ↔
      ∃ first others, tokens = first :: others ∧ word.Fits first ∧ Opens words others rest := by
  constructor
  · rintro ⟨read, rfl, spelled⟩
    obtain ⟨first, others, rfl, fits, tail⟩ := Spells.cons_iff.mp spelled
    exact ⟨first, others ++ rest, rfl, fits, others, rfl, tail⟩
  · rintro ⟨first, others, rfl, fits, read, rfl, tail⟩
    exact ⟨first :: read, rfl, List.Forall₂.cons fits tail⟩

theorem append (front : Opens words tokens middle) (back : Opens more middle rest) :
    Opens (words ++ more) tokens rest := by
  obtain ⟨read, rfl, spelled⟩ := front
  obtain ⟨others, rfl, written⟩ := back
  exact ⟨read ++ others, by rw [List.append_assoc], spelled.append written⟩

theorem append_iff :
    Opens (words ++ more) tokens rest ↔
      ∃ middle, Opens words tokens middle ∧ Opens more middle rest := by
  constructor
  · rintro ⟨read, rfl, spelled⟩
    obtain ⟨front, back, rfl, inFront, behind⟩ := Spells.append_iff.mp spelled
    exact ⟨back ++ rest, ⟨front, by rw [List.append_assoc], inFront⟩, back, rfl, behind⟩
  · rintro ⟨middle, front, back⟩
    exact front.append back

theorem to_end_iff : Opens words tokens [] ↔ Spells words tokens := by
  simp [Opens]

end Opens

/-- The token an operator is written as. -/
def BinaryOperator.kind : BinaryOperator → TokenKind
  | add => .plus
  | addAssign => .plusAssign
  | subtract => .dash
  | subtractAssign => .minusAssign
  | multiply => .star
  | multiplyAssign => .starAssign
  | divide => .slash
  | divideAssign => .slashAssign
  | modulus => .percent
  | modulusAssign => .percentAssign
  | assign => .assign
  | bitXor => .bitXor
  | bitAnd => .bitAnd
  | bitOr => .bitOr
  | logicalOr => .or
  | logicalAnd => .and
  | less => .less
  | lessEqual => .lessEqual
  | greater => .greater
  | greaterEqual => .greaterEqual
  | shiftLeft => .shiftLeft
  | shiftRight => .shiftRight
  | equal => .equal
  | notEqual => .notEqual

def PrefixOperator.kind : PrefixOperator → TokenKind
  | negate => .dash
  | not => .not
  | bitNot => .tilde
  | increment => .plusPlus
  | decrement => .minusMinus

def PostfixOperator.kind : PostfixOperator → TokenKind
  | increment => .plusPlus
  | decrement => .minusMinus

@[simp] theorem binary_operator_kind (operator : BinaryOperator) :
    operator.kind.binaryOperator? = some operator := by
  cases operator <;> rfl

@[simp] theorem prefix_operator_kind (operator : PrefixOperator) :
    operator.kind.prefixOperator? = some operator := by
  cases operator <;> rfl

theorem kind_of_binary_operator {kind : TokenKind} {operator : BinaryOperator}
    (found : kind.binaryOperator? = some operator) : kind = operator.kind := by
  cases kind <;> simp_all [TokenKind.binaryOperator?] <;> subst found <;> rfl

theorem kind_of_prefix_operator {kind : TokenKind} {operator : PrefixOperator}
    (found : kind.prefixOperator? = some operator) : kind = operator.kind := by
  cases kind <;> simp_all [TokenKind.prefixOperator?] <;> subst found <;> rfl

namespace Expr

mutual

/-- The words of an expression. Parentheses are written exactly where the tree has them. -/
def words : Expr → List Word
  | integer _ raw => [.named .integer raw]
  | hex _ raw => [.named .hex raw]
  | float _ raw => [.named .float raw]
  | string _ raw => [.named .string raw]
  | vector _ x y z =>
    .mark .less :: x.words ++ .mark .comma :: y.words ++ .mark .comma :: z.words ++
      [.mark .greater]
  | rotation _ x y z s =>
    .mark .less :: x.words ++ .mark .comma :: y.words ++ .mark .comma :: z.words ++
      .mark .comma :: s.words ++ [.mark .greater]
  | list _ _ elements => .mark .openBracket :: listWords elements ++ [.mark .closeBracket]
  | reference _ name _ => [.named .identifier name]
  | call _ name _ arguments _ =>
    .named .identifier name :: .mark .openParen :: listWords arguments ++ [.mark .closeParen]
  | binary _ operator left right => left.words ++ .mark operator.kind :: right.words
  | prefixed _ operator operand => .mark operator.kind :: operand.words
  | postfixed _ operator operand => operand.words ++ [.mark operator.kind]
  | cast _ target operand =>
    .mark .openParen :: .type target :: .mark .closeParen :: operand.words
  | grouped _ inner => .mark .openParen :: inner.words ++ [.mark .closeParen]
  | component _ part target => target.words ++ [.mark .dot, .named .identifier part.name]

/-- Expressions with commas between them. -/
def listWords : List Expr → List Word
  | [] => []
  | expr :: rest =>
    expr.words ++ (if rest.isEmpty then [] else [.mark .comma]) ++ listWords rest

end

/-- An expression that may be left out. -/
def optionWords : Option Expr → List Word
  | some expr => expr.words
  | none => []

/-- An expression between parentheses that are no part of it. -/
def conditionWords (condition : Expr) : List Word :=
  .mark .openParen :: condition.words ++ [.mark .closeParen]

end Expr

def ExprList.optionWords : Option ExprList → List Word
  | some list => Expr.listWords list.members
  | none => []

/-- The words of a scope: those of its statements, in braces unless it is a single statement. -/
def ScopeInfo.enclose (scope : ScopeInfo) (words : List Word) : List Word :=
  if scope.single then words else .mark .openCurly :: words ++ [.mark .closeCurly]

def Variable.words (decl : Variable) : List Word :=
  [.type decl.type, .named .identifier decl.name] ++
    (match decl.initializer with
      | some value => .mark .assign :: value.words
      | none => []) ++
    [.mark .semicolon]

mutual

def Stmt.words : Stmt → List Word
  | .block scope body => scope.enclose (Stmt.listWords body)
  | .declare _ decl => decl.words
  | .perform _ value => value.words ++ [.mark .semicolon]
  | .giveBack _ value => .mark .returnWord :: Expr.optionWords value ++ [.mark .semicolon]
  | .jump _ label _ => [.mark .jumpWord, .named .identifier label, .mark .semicolon]
  | .label _ name => [.mark .atSign, .named .identifier name, .mark .semicolon]
  | .changeState _ state _ => [.mark .stateWord, .state state, .mark .semicolon]
  | .branch _ _ condition scope body rest =>
    .mark .ifWord :: condition.conditionWords ++ scope.enclose (Stmt.listWords body) ++
      rest.words
  | .whileLoop _ condition scope body =>
    .mark .whileWord :: condition.conditionWords ++ scope.enclose (Stmt.listWords body)
  | .doLoop _ scope body condition =>
    .mark .doWord :: scope.enclose (Stmt.listWords body) ++
      .mark .whileWord :: condition.conditionWords ++ [.mark .semicolon]
  | .forLoop _ init condition afterthought scope body =>
    .mark .forWord :: .mark .openParen :: ExprList.optionWords init ++
      .mark .semicolon :: Expr.optionWords condition ++
      .mark .semicolon :: ExprList.optionWords afterthought ++
      .mark .closeParen :: scope.enclose (Stmt.listWords body)
  | .empty _ => [.mark .semicolon]
  | .broken _ => []

def Stmt.listWords : List Stmt → List Word
  | [] => []
  | stmt :: rest => stmt.words ++ Stmt.listWords rest

/-- The `else` branches that follow the first branch of an `if`. -/
def Alternatives.words : Alternatives → List Word
  | .done => []
  | .elseIf _ condition scope body rest =>
    .mark .elseWord :: .mark .ifWord :: condition.conditionWords ++
      scope.enclose (Stmt.listWords body) ++ rest.words
  | .otherwise _ scope body => .mark .elseWord :: scope.enclose (Stmt.listWords body)

end

def ParameterDecl.words (decl : ParameterDecl) : List Word :=
  [.type decl.type, .named .identifier decl.name]

/-- Parameters with commas between them. -/
def ParameterDecl.listWords : List ParameterDecl → List Word
  | [] => []
  | decl :: rest =>
    decl.words ++ (if rest.isEmpty then [] else [.mark .comma]) ++ ParameterDecl.listWords rest

def ParameterList.words (list : ParameterList) : List Word :=
  .mark .openParen :: ParameterDecl.listWords list.members ++ [.mark .closeParen]

def GlobalDecl.words (global : GlobalDecl) : List Word := global.decl.words

/-- A function that returns nothing is written without a type. -/
def FunctionDecl.words (decl : FunctionDecl) : List Word :=
  (if decl.returns = .void then [] else [.type decl.returns]) ++
    .named .identifier decl.name :: decl.parameters.words ++
    decl.scope.enclose (Stmt.listWords decl.body)

def HandlerDecl.words (decl : HandlerDecl) : List Word :=
  .named .identifier decl.name :: decl.parameters.words ++
    decl.scope.enclose (Stmt.listWords decl.body)

def StateMember.words : StateMember → List Word
  | .handler decl => decl.words
  | .broken _ => []

def StateDecl.words (state : StateDecl) : List Word :=
  (if state.isDefault then [.mark .defaultWord]
    else [.mark .stateWord, .named .identifier state.name]) ++
    .mark .openCurly :: state.members.flatMap StateMember.words ++ [.mark .closeCurly]

end Lsl
