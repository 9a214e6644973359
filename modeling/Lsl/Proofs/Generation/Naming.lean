import Lsl.Proofs.Generation.Jumps
import Lsl.Proofs.Generation.Progress
import Lsl.Proofs.Syntax.Variables
import Mathlib.Data.List.Perm.Subperm

/-!
The names of local variables in generated code. A local is written with the number of its scope in
front of its name. So no two locals of a program are written alike, none is written like anything
else that the program names, and what refers to a local or a parameter is written as that.
-/

set_option autoImplicit false

namespace Lsl

theorem underscore_free (number : Nat) : ∀ char ∈ (toString number).toList, char ≠ '_' := by
  rintro char member rfl
  rw [Nat.toString_eq_repr, Nat.toList_repr] at member
  have digit := Nat.isDigit_of_mem_toDigits (by decide) (by decide) member
  simp [Char.isDigit] at digit

/-- The number ends at the first underscore, so that it and the name can be read back. -/
theorem local_name_inj {scope other : Nat} {name another : String}
    (same : localName scope name = localName other another) : scope = other ∧ name = another := by
  have chars := congrArg String.toList same
  simp only [localName, String.toList_append, List.append_assoc, List.append_cancel_left_eq]
    at chars
  have numbers := congrArg (List.takeWhile (· != '_')) chars
  have numeric : ∀ (number : Nat) (rest : List Char),
      ((toString number).toList ++ ("_".toList ++ rest)).takeWhile (· != '_') =
        (toString number).toList := by
    intro number rest
    rw [List.takeWhile_append_of_pos fun char member => by
      simpa using underscore_free number char member]
    simp
  rw [numeric, numeric] at numbers
  have digits := congrArg (Nat.ofDigitChars 10 · 0) numbers
  simp only [Nat.toString_eq_repr, Nat.toList_repr,
    Nat.ofDigitChars_toDigits (by decide : 1 < 10) (by decide)] at digits
  subst digits
  exact ⟨rfl, String.toList_injective (by simpa using chars)⟩

def LocalDecl.written (place : LocalDecl) : String := localName place.scope place.decl.name

theorem LocalDecl.key_of_written {first second : LocalDecl}
    (same : first.written = second.written) : first.key = second.key := by
  obtain ⟨scope, name⟩ := local_name_inj same
  exact Prod.ext scope name

mutual

/-- The names of the variables that a statement declares, in the order of the text. -/
def CodeStmt.declared : CodeStmt → List String
  | .declare _ name _ => [name]
  | .block body => CodeStmt.listDeclared body
  | .branch _ body rest => CodeStmt.listDeclared body ++ rest.declared
  | .whileLoop _ body => CodeStmt.listDeclared body
  | .doLoop body _ => CodeStmt.listDeclared body
  | .forLoop _ _ _ body => CodeStmt.listDeclared body
  | _ => []

def CodeStmt.listDeclared : List CodeStmt → List String
  | [] => []
  | stmt :: rest => stmt.declared ++ CodeStmt.listDeclared rest

def CodeAlternatives.declared : CodeAlternatives → List String
  | .done => []
  | .elseIf _ body rest => CodeStmt.listDeclared body ++ rest.declared
  | .otherwise body => CodeStmt.listDeclared body

end

/-- The name of the variable that a statement itself declares. -/
def CodeStmt.declare? : CodeStmt → Option String
  | .declare _ name _ => some name
  | _ => none

theorem CodeAlternatives.declared_eq (rest : CodeAlternatives) :
    rest.declared = rest.bodies.flatMap CodeStmt.listDeclared := by
  cases rest with
  | done => rfl
  | elseIf _ body rest => rw [declared, rest.declared_eq, bodies, List.flatMap_cons]
  | otherwise body => simp [declared, bodies]

namespace CodeStmt

theorem declared_eq (stmt : CodeStmt) :
    stmt.declared = stmt.declare?.toList ++ stmt.bodies.flatMap listDeclared := by
  cases stmt <;> simp [declared, declare?, bodies, CodeAlternatives.declared_eq]

theorem list_declared_eq (body : List CodeStmt) : listDeclared body = body.flatMap declared := by
  induction body with
  | nil => rfl
  | cons stmt rest induction => rw [listDeclared, induction, List.flatMap_cons]

theorem list_declared_append (first second : List CodeStmt) :
    listDeclared (first ++ second) = listDeclared first ++ listDeclared second := by
  simp [list_declared_eq]

def Undeclaring (stmt : CodeStmt) : Prop := stmt.declare? = none

end CodeStmt

section Undeclaring

variable (manner : Manner) (inHandler : Bool)

theorem checkpoint_undeclaring : ∀ code ∈ checkpointCode manner, code.Undeclaring := by
  unfold checkpointCode
  split
  · simp [CodeStmt.Undeclaring, CodeStmt.declare?]
  · simp

theorem Stmt.undeclaring_code {stmt : Stmt} (scope : Nat) (isLast : Bool)
    (other : stmt.local? scope = none) :
    ∀ code ∈ stmt.code manner inHandler scope isLast, code.Undeclaring := by
  intro code member
  cases stmt with
  | declare info decl => cases other
  | label info name =>
      rw [Stmt.code, labelCode] at member
      split at member
      · simp at member
      · split at member
        · simp at member
        · rcases List.mem_cons.mp member with rfl | member
          · rfl
          · exact checkpoint_undeclaring manner code member
  | giveBack info value =>
      rw [Stmt.code] at member
      split at member
      · simp at member
      · unfold returnCode at member
        split at member
        · obtain rfl := List.mem_singleton.mp member
          rfl
        · split at member
          · rcases List.mem_pair.mp member with rfl | rfl <;> rfl
          · obtain rfl := List.mem_singleton.mp member
            rfl
  | empty info => simp [Stmt.code] at member
  | broken span =>
      obtain rfl := List.mem_singleton.mp member
      rfl
  | _ =>
      rw [Stmt.code] at member
      split at member
      · simp at member
      · obtain rfl := List.mem_singleton.mp member
        rfl

theorem Stmt.declared_code {stmt : Stmt} (scope : Nat) (isLast : Bool)
    (other : stmt.local? scope = none) :
    (CodeStmt.listDeclared (stmt.code manner inHandler scope isLast)).Subperm
      (stmt.parts.flatMap fun part => CodeStmt.listDeclared (part.code manner inHandler)) := by
  have quiet := stmt.undeclaring_code manner inHandler scope isLast other
  have becomes := stmt.becomes manner inHandler scope isLast
  generalize stmt.code manner inHandler scope isLast = codes at quiet becomes
  -- Without declarations and scopes of its own, code declares nothing.
  have none : (∀ code ∈ codes, code.bodies = []) → CodeStmt.listDeclared codes = [] := by
    intro closed
    rw [CodeStmt.list_declared_eq, List.flatMap_eq_nil_iff]
    intro code member
    have own : code.declare? = .none := quiet code member
    simp [CodeStmt.declared_eq, closed code member, own]
  cases becomes with
  | plain plain =>
      rw [none fun code member => (plain code member).bodies]
      exact List.nil_subperm
  | jump jumps =>
      rw [none (by simp [CodeStmt.bodies])]
      exact List.nil_subperm
  | label labels =>
      rw [none (List.forall_mem_cons.mpr
        ⟨rfl, fun code member => (checkpoint_plain manner code member).bodies⟩)]
      exact List.nil_subperm
  | @holder code label jump bodies =>
      have own : code.declare? = .none := quiet code List.mem_cons_self
      rw [CodeStmt.list_declared_eq, List.flatMap_singleton, CodeStmt.declared_eq, own, bodies,
        List.flatMap_map, Option.toList_none, List.nil_append]

end Undeclaring

section Declaring

variable (manner : Manner)

/-- The code that declares a local: at the top of its scope if a jump skips it, and else in its own
place. -/
def LocalDecl.code (place : LocalDecl) : List CodeStmt :=
  hoistedCode manner place.scope (.declare place.info place.decl) ++
    if isSkipped manner (.declare place.info place.decl) then []
    else declarationCode manner place.scope place.info place.decl

def LocalDecl.declared (place : LocalDecl) : List String :=
  CodeStmt.listDeclared (place.code manner)

/-- A local is declared by its own name and no more than once: it moves to the top of its scope only
if it is left out of its place. -/
theorem LocalDecl.declared_sublist (place : LocalDecl) :
    (place.declared manner).Sublist [place.written] := by
  have once (code : CodeStmt) (own : code.declared = [place.written]) :
      (CodeStmt.listDeclared [code]).Sublist [place.written] := by
    simp [CodeStmt.listDeclared, own]
  rw [declared, code, hoistedCode]
  by_cases skipped : isSkipped manner (.declare place.info place.decl)
  · rw [if_pos skipped, List.append_nil]
    split
    · exact once _ rfl
    · exact List.nil_sublist _
  · have live : (Stmt.declare place.info place.decl).reach = .live := by
      simpa [isSkipped] using skipped
    have still : place.info.reach ≠ .jumpedOver := ne_of_eq_of_ne live (by decide)
    rw [if_neg skipped, if_neg (fun moves => still moves.1), List.nil_append, declarationCode]
    split
    · exact List.nil_sublist _
    · exact once _ rfl

variable (inHandler : Bool)

theorem Stmt.declared_subperm (stmt : Stmt) (scope : Nat) (isLast : Bool) :
    (CodeStmt.listDeclared (hoistedCode manner scope stmt ++
      stmt.code manner inHandler scope isLast)).Subperm
        ((stmt.local? scope).toList.flatMap (LocalDecl.declared manner) ++
          stmt.parts.flatMap fun part => CodeStmt.listDeclared (part.code manner inHandler)) := by
  cases own : stmt.local? scope with
  | none =>
      have still : hoistedCode manner scope stmt = [] := by
        cases stmt with
        | declare info decl => cases own
        | _ => rfl
      rw [still, List.nil_append]
      exact stmt.declared_code manner inHandler scope isLast own
  | some place =>
      cases stmt with
      | declare info decl =>
          obtain rfl := Option.some.inj own
          have none : (declare info decl).parts = [] := rfl
          rw [Stmt.code, Option.toList_some, List.flatMap_singleton, none, List.flatMap_nil,
            List.append_nil]
          exact .refl _
      | _ => cases own

theorem subperm_flat_map {α β : Type} {list : List α} {first second : α → List β}
    (each : ∀ value ∈ list, (first value).Subperm (second value)) :
    (list.flatMap first).Subperm (list.flatMap second) := by
  induction list with
  | nil => exact .refl _
  | cons value rest induction =>
      rw [List.flatMap_cons, List.flatMap_cons]
      exact (each value List.mem_cons_self).append
        (induction fun found member => each found (List.mem_cons_of_mem _ member))

/-- The code of a scope declares what its statements move to the top, and what they declare in their
places. -/
theorem CodeScope.declared_code (scope : CodeScope) :
    CodeStmt.listDeclared (scope.code manner inHandler) =
      CodeStmt.listDeclared (scope.body.flatMap (hoistedCode manner scope.info.id)) ++
        CodeStmt.listDeclared (Stmt.codes manner inHandler scope.info.id scope.body) := by
  have checkpoint : CodeStmt.listDeclared
      (if scope.info.role.isCheckpoint then checkpointCode manner else []) = [] := by
    split
    · unfold checkpointCode
      split <;> rfl
    · rfl
  rw [CodeScope.code, bodyCode, scopeStart, CodeStmt.list_declared_append,
    CodeStmt.list_declared_append, checkpoint, List.append_nil]

/-- The code of a scope declares only locals of the scope and of the scopes inside, none of them
twice. -/
theorem CodeScope.declared_subperm (scope : CodeScope) :
    (CodeStmt.listDeclared (scope.code manner inHandler)).Subperm
      (scope.locals.flatMap (LocalDecl.declared manner)) := by
  obtain ⟨info, body⟩ := scope
  induction body using Stmt.list_induction generalizing info with
  | nil =>
      rw [declared_code]
      exact List.nil_subperm
  | cons stmt rest inner outer =>
      have parts : (stmt.parts.flatMap fun part =>
          CodeStmt.listDeclared (part.code manner inHandler)).Subperm
            ((stmt.parts.flatMap locals).flatMap (LocalDecl.declared manner)) := by
        rw [List.flatMap_assoc]
        exact subperm_flat_map fun part member => inner part member part.info
      have own := (stmt.declared_subperm manner inHandler info.id rest.isEmpty).trans
        ((List.Subperm.refl _).append parts)
      have whole := own.append (outer info)
      have order := (locals_cons info stmt rest).flatMap_right (LocalDecl.declared manner)
      rw [List.flatMap_append, List.flatMap_append] at order
      refine .trans (List.Perm.subperm ?_) (whole.trans order.symm.subperm)
      rw [declared_code, declared_code, List.flatMap_cons, Stmt.codes]
      simp only [CodeStmt.list_declared_append, List.append_assoc]
      exact .append_left _ (List.perm_append_comm_assoc _ _ _)

end Declaring

/-- The names that a program gives to what is no local variable: to its globals, with either marker,
and to its functions, parameters, labels and operations. -/
def Program.otherNames (program : Program) : List String :=
  program.globals.flatMap (fun global => ["GV_" ++ global.name, "V_" ++ global.name]) ++
    program.functions.map (·.name) ++
    program.methods.flatMap (fun method =>
      method.parameters.map (·.2) ++
        (CodeStmt.listLabels method.body).map ("LSLLabel_" ++ ·)) ++
    program.operations.map (·.name)

theorem marked_ne_local {marker : String} (long : 2 ≤ marker.toList.length)
    (other : marker.toList.take 2 ≠ ['L', 'V']) (rest : String) (scope : Nat) (name : String) :
    marker ++ rest ≠ localName scope name := by
  intro same
  have chars := congrArg (·.toList.take 2) same
  simp only [localName, String.toList_append, List.append_assoc,
    List.take_append_of_le_length long] at chars
  exact other chars

theorem parameter_ne_local (name : String) (scope : Nat) (other : String) :
    parameterName name ≠ localName scope other :=
  marked_ne_local (by decide) (by decide) name scope other

theorem parameter_name_inj {first second : String}
    (same : parameterName first = parameterName second) : first = second := by
  have chars := congrArg String.toList same
  simp only [parameterName, String.toList_append, List.append_cancel_left_eq] at chars
  exact String.toList_injective chars

theorem ParameterList.code_names (manner : Manner) (list : ParameterList) :
    (list.code manner).map (·.2) = list.members.map fun decl => parameterName decl.name := by
  rw [ParameterList.code, List.map_map]
  rfl

theorem Script.local_name_free (library : Library) (settings : Settings) (script : Script)
    (scope : Nat) (name : String) :
    localName scope name ∉ (script.program library settings).otherNames := by
  intro member
  simp only [Program.otherNames, List.mem_append, List.mem_flatMap, List.mem_map] at member
  rcases member with ((⟨global, _, named⟩ | ⟨method, among, named⟩) | ⟨method, among, named⟩) |
    ⟨operation, _, named⟩
  case inl.inl.inl =>
    rcases List.mem_pair.mp named with named | named
    · exact marked_ne_local (by decide) (by decide) global.name scope name named.symm
    · exact marked_ne_local (by decide) (by decide) global.name scope name named.symm
  case inl.inl.inr =>
    obtain ⟨decl, _, rfl⟩ := List.mem_map.mp among
    exact marked_ne_local (by decide) (by decide) decl.name scope name named
  case inl.inr =>
    rcases named with parameter | ⟨label, _, named⟩
    · have written : ∃ list : ParameterList, ∃ manner, method.parameters = list.code manner := by
        rcases Script.mem_methods among with ⟨decl, _, rfl⟩ | ⟨state, _, decl, _, rfl⟩
        · exact ⟨decl.parameters, _, rfl⟩
        · exact ⟨decl.parameters, _, rfl⟩
      obtain ⟨list, manner, same⟩ := written
      obtain ⟨decl, _, named⟩ : ∃ decl ∈ list.members, parameterName decl.name =
          localName scope name := by
        simpa [same, ParameterList.code] using parameter
      exact parameter_ne_local decl.name scope name named
    · exact marked_ne_local (by decide) (by decide) label scope name named
  case inr =>
    rw [Operation.name, String.append_assoc, String.append_assoc] at named
    exact marked_ne_local (by decide) (by decide) _ scope name named

end Lsl
