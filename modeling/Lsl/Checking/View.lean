import Lsl.Diagnostic
import Lsl.Library
import Lsl.Syntax.Expr
import Lsl.Syntax.Script

/-!
What a check is given and what it gives. Local variables and parameters hide globals, and globals hide
the constants of the library. A result comes with the diagnostics reported on the way, in the order
of reporting; what a check reports depends on what it is given alone and never on what was reported
before.
-/

set_option autoImplicit false

namespace Lsl

/-- A variable that can be named. -/
structure Visible where
  name : String
  type : ValueType
  binding : Binding
deriving DecidableEq, Inhabited, Repr

/-- What a call has to know about a function of the script. -/
structure FunctionHeader where
  name : String
  returns : ValueType
  parameters : List ValueType
  start : Nat
deriving DecidableEq, Inhabited, Repr

def FunctionDecl.header (decl : FunctionDecl) : FunctionHeader where
  name := decl.name
  returns := decl.returns
  parameters := decl.parameters.members.map (·.type)
  start := decl.start

/-- The forthcoming names are those of globals that an initializer may come too early for. -/
structure View where
  library : Library
  functions : List FunctionHeader := []
  globals : List Visible := []
  locals : List Visible := []
  forthcoming : List String := []
deriving Inhabited

namespace View

def function? (view : View) (name : String) : Option FunctionHeader :=
  view.functions.find? (·.name == name)

/-- The variable of a name that the script declares. -/
def declared? (view : View) (name : String) : Option Visible :=
  match view.locals.find? (·.name == name) with
  | some found => some found
  | none => view.globals.find? (·.name == name)

def constant? (view : View) (name : String) : Option Visible :=
  (view.library.constant? name).map fun constant => ⟨name, constant.signature.type, .constant⟩

/-- What a name stands for, or why it stands for nothing. -/
def resolve (view : View) (name : String) : Except Problem Visible :=
  match view.declared? name with
  | some found => .ok found
  | none =>
    if view.forthcoming.contains name then .error (.variableUsedEarly name)
    else
      match view.constant? name with
      | some found => .ok found
      | none => .error (.undeclaredVariable name)

def declareLocal (view : View) (found : Visible) : View :=
  { view with locals := found :: view.locals }

end View

structure Checked (α : Type) where
  value : α
  reports : List Diagnostic := []

namespace Checked

def bind {α β : Type} (first : Checked α) (next : α → Checked β) : Checked β :=
  let second := next first.value
  ⟨second.value, first.reports ++ second.reports⟩

instance : Monad Checked where
  pure value := ⟨value, []⟩
  bind := bind

section

variable {α β : Type}

@[simp] theorem value_pure (value : α) : (pure value : Checked α).value = value := rfl

@[simp] theorem reports_pure (value : α) : (pure value : Checked α).reports = [] := rfl

@[simp] theorem value_bind (first : Checked α) (next : α → Checked β) :
    (first >>= next).value = (next first.value).value := rfl

@[simp] theorem reports_bind (first : Checked α) (next : α → Checked β) :
    (first >>= next).reports = first.reports ++ (next first.value).reports := rfl

end

end Checked

def report (span : Span) (problem : Problem) : Checked Unit := ⟨(), [⟨problem, span⟩]⟩

namespace Expr

/-- Reports a problem at an expression, which is faulty from then on. -/
def blame (expr : Expr) (problem : Problem) : Checked Expr :=
  ⟨expr.blamed, [⟨problem, expr.span⟩]⟩

/-- Blames an expression whose type is known and does not do. -/
def demand (expr : Expr) (admits : ValueType → Bool) (problem : ValueType → Problem) :
    Checked Expr :=
  match expr.type? with
  | some type => if admits type then pure expr else expr.blame (problem type)
  | none => pure expr

end Expr

end Lsl
