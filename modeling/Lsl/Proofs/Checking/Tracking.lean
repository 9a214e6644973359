import Lsl.Proofs.Syntax.Relocation

/-!
Checking expressions whose places have new numbers. It finds the same problems in the same order,
and gives the expressions with what they are bound to at the new places.
-/

set_option autoImplicit false

namespace Lsl

/-- The problems that are reported, wherever they stand. -/
def Checked.problems {α : Type} (checked : Checked α) : List Problem :=
  checked.reports.map (·.problem)

/-- The second check gives what the first one gives, moved, and finds the same problems, the latter
as far as the new places are apart where the old ones are. -/
structure Checked.Tracks {α β : Type} (apart : Prop) (move : α → β) (first : Checked α)
    (second : Checked β) : Prop where
  value : second.value = move first.value
  problems : apart → second.problems = first.problems

namespace Checked.Tracks

variable {α β γ δ : Type} {apart : Prop} {move : α → β} {onward : γ → δ}

theorem pure {value : α} {moved : β} (same : moved = move value) :
    Tracks apart move (Pure.pure value) (Pure.pure moved) :=
  ⟨same, fun _ => rfl⟩

theorem bind {first : Checked α} {second : Checked β} {next : α → Checked γ}
    {other : β → Checked δ} (begun : Tracks apart move first second)
    (rest : ∀ value, Tracks apart onward (next value) (other (move value))) :
    Tracks apart onward (first >>= next) (second >>= other) := by
  have ended := rest first.value
  rw [← begun.value] at ended
  refine ⟨ended.value, fun distinct => ?_⟩
  have front := begun.problems distinct
  have back := ended.problems distinct
  simp only [Checked.problems] at front back
  simp only [Checked.problems, reports_bind, List.map_append, front, back]

theorem report {span other : Span} {problem : Problem} :
    Tracks apart (fun _ : Unit => ()) (Lsl.report span problem) (Lsl.report other problem) :=
  ⟨rfl, fun _ => rfl⟩

theorem option {check : α → Checked α} {other : β → Checked β} {given : α → β}
    (tracks : ∀ value, Tracks apart move (check value) (other (given value)))
    (value : Option α) :
    Tracks apart (Option.map move) (checkOption check value)
      (checkOption other (value.map given)) := by
  cases value with
  | none => exact .pure rfl
  | some value => exact (tracks value).bind fun _ => .pure rfl

end Checked.Tracks

section

variable (relocation : Relocation)

def FunctionHeader.relocate (header : FunctionHeader) : FunctionHeader :=
  { header with start := relocation.outer header.start }

def Visible.relocate (found : Visible) : Visible :=
  { found with binding := relocation.binding found.binding }

def View.relocate (view : View) : View :=
  { view with
    functions := view.functions.map (FunctionHeader.relocate relocation)
    globals := view.globals.map (Visible.relocate relocation)
    locals := view.locals.map (Visible.relocate relocation) }

end

namespace View

variable (relocation : Relocation) (view : View) (name : String)

theorem function_relocate :
    (view.relocate relocation).function? name =
      (view.function? name).map (FunctionHeader.relocate relocation) :=
  List.find?_map ..

theorem declared_relocate :
    (view.relocate relocation).declared? name =
      (view.declared? name).map (Visible.relocate relocation) := by
  have found (list : List Visible) :
      (list.map (Visible.relocate relocation)).find? (·.name == name) =
        (list.find? (·.name == name)).map (Visible.relocate relocation) := List.find?_map ..
  simp only [declared?, relocate, found]
  cases view.locals.find? (·.name == name) <;> rfl

theorem library_relocate : (view.relocate relocation).library = view.library := rfl

theorem constant_relocate : (view.relocate relocation).constant? name = view.constant? name := rfl

theorem resolve_relocate :
    (view.relocate relocation).resolve name =
      (view.resolve name).map (Visible.relocate relocation) := by
  unfold resolve
  rw [declared_relocate]
  cases view.declared? name with
  | some found => rfl
  | none =>
      simp only [Option.map_none, constant_relocate]
      change (if view.forthcoming.contains name then _ else _) = _
      split
      · rfl
      · cases known : view.constant? name with
        | none => rfl
        | some found =>
            obtain ⟨constant, _, rfl⟩ := Option.map_eq_some_iff.mp known
            rfl

end View

namespace Checked.Tracks

variable {apart : Prop} {relocation : Relocation}

theorem blame {linking : Linking} {expr other : Expr} {problem : Problem}
    (same : other = expr.recast linking) :
    Tracks apart (Expr.recast linking) (expr.blame problem) (other.blame problem) := by
  rw [same]
  exact ⟨expr.blamed_recast linking, fun _ => rfl⟩

/-- An expression that is blamed unless it is fine. -/
theorem fine {linking : Linking} {known : Bool} {expr other : Expr} {problem : Problem}
    (same : other = expr.recast linking) :
    Tracks apart (Expr.recast linking)
      (if known then Pure.pure expr else expr.blame problem)
      (if known then Pure.pure other else other.blame problem) := by
  cases known with
  | true => exact .pure same
  | false => exact blame same

theorem demand {linking : Linking} (expr : Expr) (admits : ValueType → Bool)
    (problem : ValueType → Problem) :
    Tracks apart (Expr.recast linking) (expr.demand admits problem)
      ((expr.recast linking).demand admits problem) := by
  unfold Expr.demand
  rw [Expr.type_recast]
  split
  · split
    · exact .pure rfl
    · exact blame rfl
  · exact .pure rfl

theorem reference (view : View) (info : ExprInfo) (name : String) :
    Tracks apart (Expr.recast relocation.linking) (checkReference view info name)
      (checkReference (view.relocate relocation) info.recast name) := by
  unfold checkReference
  rw [View.resolve_relocate]
  cases view.resolve name with
  | error problem => exact blame rfl
  | ok found => exact .pure rfl

theorem target (expr : Expr) :
    Tracks apart (Prod.map (Expr.recast relocation.linking) id) (checkTarget expr)
      (checkTarget (expr.recast relocation.linking)) := by
  match expr with
  | .reference info name binding =>
      cases binding with
      | constant =>
          have blamed : Tracks apart (Expr.recast relocation.linking)
              ((Expr.reference info name .constant).blame (.constantAssigned name))
              ((Expr.reference info.recast name .constant).blame (.constantAssigned name)) :=
            blame rfl
          exact blamed.bind fun _ => .pure rfl
      | _ => exact .pure rfl
  | .component info part inner =>
      exact (target inner).bind fun _ => .pure rfl
  | .integer _ _ | .hex _ _ | .float _ _ | .string _ _ | .vector _ _ _ _ | .rotation _ _ _ _ _
  | .list _ _ _ | .call _ _ _ _ _ | .binary _ _ _ _ | .prefixed _ _ _ | .postfixed _ _ _
  | .cast _ _ _ | .grouped _ _ => exact .pure rfl

theorem fit (function : String) (place : Nat) (arguments : List Expr) (types : List ValueType) :
    Tracks apart (List.map (Expr.recast relocation.linking))
      (fitArguments function place arguments types)
      (fitArguments function place (arguments.map (Expr.recast relocation.linking)) types) := by
  induction arguments generalizing place types with
  | nil => cases types <;> exact .pure rfl
  | cons argument arguments induction =>
      cases types with
      | nil => exact .pure rfl
      | cons expected types =>
          refine (demand argument _ _).bind fun argument => ?_
          exact (induction (place + 1) types).bind fun _ => .pure rfl

theorem arguments (info : ExprInfo) (name : String) (inner : Span) (arguments : List Expr)
    (target : CallTarget) (parameters : List ValueType) :
    Tracks apart (Expr.recast relocation.linking)
      (checkArguments info name inner arguments target parameters)
      (checkArguments info.recast name default (arguments.map (Expr.recast relocation.linking))
        (relocation.call target) parameters) := by
  unfold checkArguments
  rw [List.length_map]
  split
  · exact blame (by rw [Expr.recast, Expr.list_recast_eq]; rfl)
  · exact (fit name 1 arguments parameters).bind fun _ =>
      .pure (by rw [Expr.recast, Expr.list_recast_eq]; rfl)

theorem unresolved (view : View) (info : ExprInfo) (name : String) (inner : Span)
    (passed : List Expr) (types : List ValueType) :
    Tracks apart (Expr.recast relocation.linking)
      (checkUnresolvedCall view info name inner passed types)
      (checkUnresolvedCall (view.relocate relocation) info.recast name default
        (passed.map (Expr.recast relocation.linking)) types) := by
  have refused : Tracks apart (Expr.recast relocation.linking)
      ((Expr.call info name inner passed .unresolved).blame (.noOverload name types))
      ((Expr.call info.recast name default (passed.map (Expr.recast relocation.linking))
        .unresolved).blame (.noOverload name types)) :=
    blame (by rw [Expr.recast, Expr.list_recast_eq]; rfl)
  unfold checkUnresolvedCall
  rw [View.library_relocate]
  split
  · rename_i only _
    cases only.signature.isVariadic with
    | true => exact refused
    | false =>
        exact arguments { info with type := some only.signature.returns } name inner passed
          .unresolved _
  · exact refused

theorem library_call (view : View) (info : ExprInfo) (name : String) (inner : Span)
    (passed : List Expr) (types : List ValueType) :
    Tracks apart (Expr.recast relocation.linking)
      (checkLibraryCall view info name inner passed types)
      (checkLibraryCall (view.relocate relocation) info.recast name default
        (passed.map (Expr.recast relocation.linking)) types) := by
  unfold checkLibraryCall
  rw [View.library_relocate]
  split
  · exact unresolved view info name inner passed types
  · rename_i overload _
    have made : Tracks apart (Expr.recast relocation.linking)
        (Pure.pure (.call { info with type := some overload.signature.returns } name inner passed
          (.library overload.signature)))
        (Pure.pure (.call { info.recast with type := some overload.signature.returns } name
          default (passed.map (Expr.recast relocation.linking)) (.library overload.signature))) :=
      .pure (by rw [Expr.recast, Expr.list_recast_eq]; rfl)
    cases overload.metadata.isDeprecated with
    | true => exact report.bind fun _ => made
    | false => exact made

theorem known_types (exprs : List Expr) :
    knownTypes? (exprs.map (Expr.recast relocation.linking)) = knownTypes? exprs := by
  induction exprs with
  | nil => rfl
  | cons expr rest induction =>
      simp only [List.map_cons, knownTypes?, Expr.type_recast, induction]

theorem call (view : View) (info : ExprInfo) (name : String) (inner : Span)
    (passed : List Expr) :
    Tracks apart (Expr.recast relocation.linking) (checkCall view info name inner passed)
      (checkCall (view.relocate relocation) info.recast name default
        (passed.map (Expr.recast relocation.linking))) := by
  have remade : Expr.call info.recast name default (passed.map (Expr.recast relocation.linking))
      .unresolved = (Expr.call info name inner passed .unresolved).recast relocation.linking := by
    rw [Expr.recast, Expr.list_recast_eq]
    rfl
  unfold checkCall
  rw [View.function_relocate]
  cases view.function? name with
  | some header =>
      exact arguments { info with type := some header.returns } name inner passed
        (.script header.start) header.parameters
  | none =>
      simp only [Option.map_none, known_types]
      change Tracks apart _ (if !view.library.hasFunction name then _ else _)
        (if !view.library.hasFunction name then _ else _)
      split
      · exact blame remade
      · split
        · exact .pure remade
        · exact library_call view info name inner passed _

theorem operation (info : ExprInfo) (operator : BinaryOperator) (left right : Expr) :
    Tracks apart (Expr.recast relocation.linking) (typeOperation info operator left right)
      (typeOperation info.recast operator (left.recast relocation.linking)
        (right.recast relocation.linking)) := by
  unfold typeOperation
  simp only [Expr.type_recast]
  cases left.type? with
  | none => exact .pure rfl
  | some leftType =>
      cases right.type? with
      | none => exact .pure rfl
      | some rightType => exact fine rfl

theorem binary (info : ExprInfo) (operator : BinaryOperator) (left right : Expr) :
    Tracks apart (Expr.recast relocation.linking) (checkBinary info operator left right)
      (checkBinary info.recast operator (left.recast relocation.linking)
        (right.recast relocation.linking)) := by
  unfold checkBinary
  rw [Expr.type_recast]
  split
  · refine (target left).bind fun reached => ?_
    obtain ⟨left, writable⟩ := reached
    cases writable with
    | true => exact operation info operator left right
    | false => exact .pure rfl
  · exact operation info operator left right

theorem prefixed_type (info : ExprInfo) (operator : PrefixOperator) (operand : Expr)
    (type : ValueType) :
    Tracks apart (Expr.recast relocation.linking) (typePrefixed info operator operand type)
      (typePrefixed info.recast operator (operand.recast relocation.linking) type) :=
  fine rfl

theorem prefixed (info : ExprInfo) (operator : PrefixOperator) (operand : Expr) :
    Tracks apart (Expr.recast relocation.linking) (checkPrefixed info operator operand)
      (checkPrefixed info.recast operator (operand.recast relocation.linking)) := by
  unfold checkPrefixed
  rw [Expr.type_recast]
  split
  · exact .pure rfl
  · split
    · refine (target operand).bind fun reached => ?_
      obtain ⟨operand, writable⟩ := reached
      cases writable with
      | true => exact prefixed_type info operator operand _
      | false =>
          simp only [Prod.map, Expr.has_errors_recast]
          exact fine rfl
    · exact prefixed_type info operator operand _

theorem postfixed (info : ExprInfo) (operator : PostfixOperator) (operand : Expr) :
    Tracks apart (Expr.recast relocation.linking) (checkPostfixed info operator operand)
      (checkPostfixed info.recast operator (operand.recast relocation.linking)) := by
  unfold checkPostfixed
  refine (target operand).bind fun reached => ?_
  obtain ⟨operand, writable⟩ := reached
  simp only [Prod.map, Expr.type_recast]
  cases writable with
  | false => exact .pure rfl
  | true =>
      cases operand.type? with
      | none => exact .pure rfl
      | some type => exact fine rfl

theorem cast (info : ExprInfo) (type : ValueType) (operand : Expr) :
    Tracks apart (Expr.recast relocation.linking) (checkCast info type operand)
      (checkCast info.recast type (operand.recast relocation.linking)) := by
  unfold checkCast
  rw [Expr.type_recast]
  split
  · exact .pure rfl
  · exact fine rfl

theorem component (info : ExprInfo) (part : Component) (operand : Expr) :
    Tracks apart (Expr.recast relocation.linking) (checkComponent info part operand)
      (checkComponent info.recast part (operand.recast relocation.linking)) := by
  unfold checkComponent
  rw [Expr.type_recast]
  split
  · exact .pure rfl
  · split
    · exact .pure rfl
    · exact blame rfl

mutual

theorem expr (view : View) (expr : Expr) :
    Tracks apart (Expr.recast relocation.linking) (checkExpr view expr)
      (checkExpr (view.relocate relocation) (expr.recast .none)) := by
  have float (expr : Expr) : Tracks apart (Expr.recast relocation.linking) (demandFloat expr)
      (demandFloat (expr.recast relocation.linking)) := demand expr _ _
  match expr with
  | .integer info raw => exact .pure rfl
  | .hex info raw => exact .pure rfl
  | .float info raw => exact .pure rfl
  | .string info raw => exact .pure rfl
  | .vector info x y z =>
      refine ((Tracks.expr view x).bind float).bind fun x => ?_
      refine ((Tracks.expr view y).bind float).bind fun y => ?_
      exact ((Tracks.expr view z).bind float).bind fun z => .pure rfl
  | .rotation info x y z s =>
      refine ((Tracks.expr view x).bind float).bind fun x => ?_
      refine ((Tracks.expr view y).bind float).bind fun y => ?_
      refine ((Tracks.expr view z).bind float).bind fun z => ?_
      exact ((Tracks.expr view s).bind float).bind fun s => .pure rfl
  | .list info inner elements =>
      refine (exprs view (fun element => demand element _ _) elements).bind fun elements => ?_
      exact .pure (by rw [Expr.recast, Expr.list_recast_eq]; rfl)
  | .reference info name binding => exact reference view info name
  | .call info name inner passed target =>
      have kept (expr : Expr) : Tracks apart (Expr.recast relocation.linking)
          (Pure.pure expr : Checked Expr) (Pure.pure (expr.recast relocation.linking)) := .pure rfl
      exact (exprs view kept passed).bind fun passed => call view info name inner passed
  | .binary info operator left right =>
      refine (Tracks.expr view left).bind fun left => ?_
      exact (Tracks.expr view right).bind fun right => binary info operator left right
  | .prefixed info operator operand =>
      exact (Tracks.expr view operand).bind fun operand => prefixed info operator operand
  | .postfixed info operator operand =>
      exact (Tracks.expr view operand).bind fun operand => postfixed info operator operand
  | .cast info type operand =>
      exact (Tracks.expr view operand).bind fun operand => cast info type operand
  | .grouped info inner =>
      refine (Tracks.expr view inner).bind fun inner => .pure ?_
      rw [Expr.type_recast]
      rfl
  | .component info part operand =>
      exact (Tracks.expr view operand).bind fun operand => component info part operand

theorem exprs (view : View) {check : Expr → Checked Expr}
    (tracks : ∀ expr, Tracks apart (Expr.recast relocation.linking) (check expr)
      (check (expr.recast relocation.linking))) (exprs : List Expr) :
    Tracks apart (List.map (Expr.recast relocation.linking)) (checkExprs view check exprs)
      (checkExprs (view.relocate relocation) check (Expr.listRecast .none exprs)) := by
  match exprs with
  | [] => exact .pure rfl
  | expr :: rest =>
      refine ((Tracks.expr view expr).bind tracks).bind fun expr => ?_
      exact (Tracks.exprs view tracks rest).bind fun rest => .pure rfl

end

theorem condition (view : View) (condition : Expr) :
    Tracks apart (Expr.recast relocation.linking) (checkCondition view condition)
      (checkCondition (view.relocate relocation) (condition.recast .none)) :=
  (expr view condition).bind fun condition => demand condition _ _

theorem initializer (view : View) (type : ValueType) (initializer : Expr) :
    Tracks apart (Expr.recast relocation.linking) (checkInitializer view type initializer)
      (checkInitializer (view.relocate relocation) type (initializer.recast .none)) :=
  (expr view initializer).bind fun initializer => demand initializer _ _

end Checked.Tracks

end Lsl
