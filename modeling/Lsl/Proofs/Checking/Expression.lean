import Lsl.Checking.Expression
import Lsl.Proofs.Syntax.Mentions
import Mathlib.Data.List.Forall2

/-!
The names in a checked expression. Checking binds a name to a declaration in view and to nothing
else; everything it does besides leaves the bindings as they are, and so the uses.
-/

set_option autoImplicit false

namespace Lsl

/-- Checking leaves a mention where it is, bound to something on offer or to nothing. -/
structure Mention.Binds (offered : Referent → Prop) (before after : Mention) : Prop where
  place : after.place = before.place
  known : ∀ referent ∈ after.referent, offered referent

/-- Checking binds mentions one by one. -/
abbrev Mention.AllBind (offered : Referent → Prop) (before after : List Mention) : Prop :=
  List.Forall₂ (Binds offered) before after

namespace Mention.AllBind

variable {offered : Referent → Prop} {before after : List Mention}

theorem append {first second : List Mention} (front : AllBind offered before after)
    (back : AllBind offered first second) : AllBind offered (before ++ first) (after ++ second) :=
  List.rel_append front back

/-- What is bound to nothing may stay as it is. -/
theorem of_unbound (unbound : ∀ mention ∈ before, mention.referent = none) :
    AllBind offered before before := by
  refine List.forall₂_same.mpr fun mention member => ⟨rfl, ?_⟩
  simp [unbound mention member]

theorem places (binds : AllBind offered before after) :
    after.map (·.place) = before.map (·.place) := by
  induction binds with
  | nil => rfl
  | cons first _ induction => rw [List.map_cons, List.map_cons, induction, first.place]

theorem known (binds : AllBind offered before after) :
    ∀ mention ∈ after, ∀ referent ∈ mention.referent, offered referent := by
  induction binds with
  | nil => simp
  | cons first _ induction => exact List.forall_mem_cons.mpr ⟨first.known, induction⟩

end Mention.AllBind

/-- Whatever is in view is on offer. -/
structure View.Offers (view : View) (offered : Referent → Prop) : Prop where
  locals : ∀ found ∈ view.locals, ∀ referent ∈ found.binding.referent?, offered referent
  globals : ∀ found ∈ view.globals, ∀ referent ∈ found.binding.referent?, offered referent
  functions : ∀ header ∈ view.functions, offered ⟨.function, header.start⟩

theorem View.Offers.resolve {view : View} {offered : Referent → Prop} (offers : view.Offers offered)
    {name : String} {found : Visible} (resolved : view.resolve name = .ok found) :
    ∀ referent ∈ found.binding.referent?, offered referent := by
  unfold View.resolve at resolved
  split at resolved
  · rename_i variable_ declared
    cases resolved
    unfold View.declared? at declared
    split at declared
    · rename_i known located
      cases declared
      exact offers.locals found (List.mem_of_find?_eq_some located)
    · exact offers.globals found (List.mem_of_find?_eq_some declared)
  · split at resolved
    · cases resolved
    · split at resolved
      · rename_i constant named
        cases resolved
        simp only [View.constant?, Option.map_eq_some_iff] at named
        obtain ⟨entry, _, rfl⟩ := named
        simp [Binding.referent?]
      · cases resolved

namespace Expr

@[simp] theorem mentions_blame (expr : Expr) (problem : Problem) :
    (expr.blame problem).value.mentions = expr.mentions :=
  mentions_with_info rfl

@[simp] theorem mentions_ite_blame (fine : Prop) [Decidable fine] (expr : Expr)
    (problem : Problem) :
    (if fine then pure expr else expr.blame problem : Checked Expr).value.mentions =
      expr.mentions := by
  split <;> simp

@[simp] theorem mentions_demand (expr : Expr) (admits : ValueType → Bool)
    (problem : ValueType → Problem) :
    (expr.demand admits problem).value.mentions = expr.mentions := by
  unfold demand
  split <;> simp

end Expr

@[simp] theorem mentions_check_target (expr : Expr) :
    (checkTarget expr).value.1.mentions = expr.mentions := by
  match expr with
  | .reference info name binding => cases binding <;> simp [checkTarget]
  | .component info part target =>
      have inner := mentions_check_target target
      simpa [checkTarget] using inner
  | .integer _ _ | .hex _ _ | .float _ _ | .string _ _ | .vector _ _ _ _ | .rotation _ _ _ _ _
  | .list _ _ _ | .call _ _ _ _ _ | .binary _ _ _ _ | .prefixed _ _ _ | .postfixed _ _ _
  | .cast _ _ _ | .grouped _ _ => rfl

@[simp] theorem mentions_fit_arguments (function : String) (place : Nat) (arguments : List Expr)
    (types : List ValueType) :
    (fitArguments function place arguments types).value.flatMap Expr.mentions =
      arguments.flatMap Expr.mentions := by
  induction arguments generalizing place types with
  | nil => cases types <;> rfl
  | cons argument arguments induction =>
      cases types with
      | nil => rfl
      | cons expected types => simp [fitArguments, induction]

section

variable (view : View) (info : ExprInfo) (name : String) (inner : Span) (arguments : List Expr)

theorem mentions_check_arguments (target : CallTarget) (parameters : List ValueType) :
    (checkArguments info name inner arguments target parameters).value.mentions =
      ⟨info.span.start.offset, target.referent?⟩ :: arguments.flatMap Expr.mentions := by
  unfold checkArguments
  split <;> simp

theorem mentions_check_library_call (types : List ValueType) :
    (checkLibraryCall view info name inner arguments types).value.mentions =
      ⟨info.span.start.offset, none⟩ :: arguments.flatMap Expr.mentions := by
  unfold checkLibraryCall
  split
  · unfold checkUnresolvedCall
    split
    · split
      · simp [CallTarget.referent?]
      · exact mentions_check_arguments _ name inner arguments _ _
    · simp [CallTarget.referent?]
  · split <;> exact Expr.mentions_call _ _ _ _ _

/-- A call is bound to a function in view or to nothing. -/
theorem mentions_check_call {offered : Referent → Prop} (offers : view.Offers offered) :
    ∃ bound : Option Referent, (∀ referent ∈ bound, offered referent) ∧
      (checkCall view info name inner arguments).value.mentions =
        ⟨info.span.start.offset, bound⟩ :: arguments.flatMap Expr.mentions := by
  unfold checkCall
  split
  · rename_i header found
    refine ⟨some ⟨.function, header.start⟩, ?_, mentions_check_arguments _ name inner arguments _ _⟩
    rintro referent ⟨⟩
    exact offers.functions header (List.mem_of_find?_eq_some found)
  · refine ⟨none, by simp, ?_⟩
    split
    · simp [CallTarget.referent?]
    · split
      · exact Expr.mentions_call _ _ _ _ _
      · exact mentions_check_library_call view info name inner arguments _

end

@[simp] theorem mentions_check_binary (info : ExprInfo) (operator : BinaryOperator)
    (left right : Expr) :
    (checkBinary info operator left right).value.mentions = left.mentions ++ right.mentions := by
  have typed : ∀ left : Expr, (typeOperation info operator left right).value.mentions =
      left.mentions ++ right.mentions := by
    intro left
    unfold typeOperation
    split <;> simp
  unfold checkBinary
  split
  · simp only [Checked.value_bind]
    split
    · rw [typed, mentions_check_target]
    · simp
  · exact typed left

theorem mentions_type_prefixed (info : ExprInfo) (operator : PrefixOperator) (operand : Expr)
    (type : ValueType) :
    (typePrefixed info operator operand type).value.mentions = operand.mentions := by
  simp [typePrefixed]

@[simp] theorem mentions_check_prefixed (info : ExprInfo) (operator : PrefixOperator)
    (operand : Expr) : (checkPrefixed info operator operand).value.mentions = operand.mentions := by
  unfold checkPrefixed
  split
  · simp
  · split
    · simp only [Checked.value_bind]
      split
      · rw [mentions_type_prefixed, mentions_check_target]
      · split <;> simp
    · exact mentions_type_prefixed info operator operand _

@[simp] theorem mentions_check_postfixed (info : ExprInfo) (operator : PostfixOperator)
    (operand : Expr) : (checkPostfixed info operator operand).value.mentions = operand.mentions := by
  unfold checkPostfixed
  simp only [Checked.value_bind]
  split
  · split <;> simp
  · simp

@[simp] theorem mentions_check_cast (info : ExprInfo) (target : ValueType) (operand : Expr) :
    (checkCast info target operand).value.mentions = operand.mentions := by
  unfold checkCast
  split <;> simp

@[simp] theorem mentions_check_component (info : ExprInfo) (part : Component) (target : Expr) :
    (checkComponent info part target).value.mentions = target.mentions := by
  unfold checkComponent
  split
  · simp
  · split <;> simp

section

variable {view : View} {offered : Referent → Prop} (offers : view.Offers offered)

include offers

theorem check_reference_binds (info : ExprInfo) (name : String) (binding : Binding) :
    Mention.AllBind offered (Expr.reference info name binding).mentions
      (checkReference view info name).value.mentions := by
  unfold checkReference
  split
  · rename_i found resolved
    exact .cons ⟨rfl, offers.resolve resolved⟩ .nil
  · exact .cons ⟨rfl, by simp [Binding.referent?]⟩ .nil

omit offers in
theorem check_exprs_bind {demand : Expr → Checked Expr}
    (keeps : ∀ expr, (demand expr).value.mentions = expr.mentions) {exprs : List Expr}
    (each : ∀ expr ∈ exprs,
      Mention.AllBind offered expr.mentions (checkExpr view expr).value.mentions) :
    Mention.AllBind offered (exprs.flatMap Expr.mentions)
      ((checkExprs view demand exprs).value.flatMap Expr.mentions) := by
  induction exprs with
  | nil => exact .nil
  | cons expr rest induction =>
      have first := each expr List.mem_cons_self
      have others := induction fun expr member => each expr (List.mem_cons_of_mem _ member)
      simpa [checkExprs, keeps] using first.append others

/-- Whatever a checked expression mentions is bound to something in view, or to nothing. -/
theorem check_expr_binds (expr : Expr) :
    Mention.AllBind offered expr.mentions (checkExpr view expr).value.mentions := by
  induction expr using Expr.parts_induction with
  | step expr parts =>
      cases expr with
      | integer info raw | hex info raw | float info raw | string info raw => exact .nil
      | vector info x y z =>
          have first := parts x (by simp [Expr.parts])
          have second := parts y (by simp [Expr.parts])
          have third := parts z (by simp [Expr.parts])
          simpa [checkExpr, demandFloat] using (first.append second).append third
      | rotation info x y z s =>
          have first := parts x (by simp [Expr.parts])
          have second := parts y (by simp [Expr.parts])
          have third := parts z (by simp [Expr.parts])
          have fourth := parts s (by simp [Expr.parts])
          simpa [checkExpr, demandFloat] using ((first.append second).append third).append fourth
      | list info inner elements =>
          simp only [checkExpr, Checked.value_bind, Checked.value_pure, Expr.mentions_list]
          exact check_exprs_bind (fun expr => expr.mentions_demand _ _) parts
      | reference info name binding => exact check_reference_binds offers info name binding
      | call info name inner arguments target =>
          obtain ⟨bound, known, same⟩ := mentions_check_call view info name inner
            (checkExprs view pure arguments).value offers
          simp only [checkExpr, Checked.value_bind, same, Expr.mentions_call]
          exact .cons ⟨rfl, known⟩ (check_exprs_bind (fun _ => rfl) parts)
      | binary info operator left right =>
          have first := parts left (by simp [Expr.parts])
          have second := parts right (by simp [Expr.parts])
          simpa [checkExpr] using first.append second
      | prefixed info operator operand | postfixed info operator operand
      | cast info target operand | component info part operand =>
          simpa [checkExpr] using parts operand (by simp [Expr.parts])
      | grouped info operand => simpa [checkExpr] using parts operand (by simp [Expr.parts])

end

/-- The local variables in view are among those that start at the given places. -/
structure View.Sees (view : View) (visible : List Nat) : Prop where
  locals : ∀ found ∈ view.locals, ∀ start ∈ found.binding.local?, start ∈ visible
  globals : ∀ found ∈ view.globals, found.binding.local? = none

/-- A declaration that is one of these, if it is one of a local variable. -/
def Referent.IsSeen (visible : List Nat) (referent : Referent) : Prop :=
  referent.kind = .inScope → referent.start ∈ visible

theorem View.Sees.offers {view : View} {visible : List Nat} (sees : view.Sees visible) :
    view.Offers (Referent.IsSeen visible) := by
  have bound {binding : Binding} (seen : ∀ start ∈ binding.local?, start ∈ visible) :
      ∀ referent ∈ binding.referent?, referent.IsSeen visible := by
    cases binding <;> simp_all [Binding.referent?, Binding.local?, Referent.IsSeen]
  refine ⟨fun found member => bound (sees.locals found member), fun found member => bound ?_, ?_⟩
  · simp [sees.globals found member]
  · intro header _ same
    cases same

/-- A node that is marked or given a type is used as before. -/
theorem Expr.uses_with_info {expr : Expr} {info : ExprInfo} (same : info.span = expr.span) :
    (expr.withInfo info).uses = expr.uses := by
  cases expr <;> simp_all [withInfo, Expr.span, Expr.info, uses]

@[simp] theorem Expr.uses_blame (expr : Expr) (problem : Problem) :
    (expr.blame problem).value.uses = expr.uses :=
  uses_with_info rfl

@[simp] theorem Expr.uses_ite_blame (fine : Prop) [Decidable fine] (expr : Expr)
    (problem : Problem) :
    (if fine then pure expr else expr.blame problem : Checked Expr).value.uses = expr.uses := by
  split <;> simp

@[simp] theorem Expr.uses_demand (expr : Expr) (admits : ValueType → Bool)
    (problem : ValueType → Problem) : (expr.demand admits problem).value.uses = expr.uses := by
  unfold demand
  split <;> simp

@[simp] theorem uses_check_target (expr : Expr) :
    (checkTarget expr).value.1.uses = expr.uses := by
  match expr with
  | .reference info name binding => cases binding <;> simp [checkTarget]
  | .component info part target =>
      have inner := uses_check_target target
      simpa [checkTarget, Expr.uses] using inner
  | .integer _ _ | .hex _ _ | .float _ _ | .string _ _ | .vector _ _ _ _ | .rotation _ _ _ _ _
  | .list _ _ _ | .call _ _ _ _ _ | .binary _ _ _ _ | .prefixed _ _ _ | .postfixed _ _ _
  | .cast _ _ _ | .grouped _ _ => rfl

@[simp] theorem uses_fit_arguments (function : String) (place : Nat) (arguments : List Expr)
    (types : List ValueType) :
    Expr.listUses (fitArguments function place arguments types).value =
      Expr.listUses arguments := by
  induction arguments generalizing place types with
  | nil => cases types <;> rfl
  | cons argument arguments induction =>
      cases types with
      | nil => rfl
      | cons expected types => simp [fitArguments, Expr.listUses, induction]

section

variable (view : View) (info : ExprInfo) (name : String) (inner : Span) (arguments : List Expr)

theorem uses_check_arguments (target : CallTarget) (parameters : List ValueType) :
    (checkArguments info name inner arguments target parameters).value.uses =
      Expr.listUses arguments ++ Use.ofBound info.span target.declaration? := by
  unfold checkArguments
  split <;> simp [Expr.uses]

theorem uses_check_library_call (types : List ValueType) :
    (checkLibraryCall view info name inner arguments types).value.uses =
      Expr.listUses arguments := by
  have unbound (target : CallTarget) (free : target.declaration? = none) (info : ExprInfo) :
      (Expr.call info name inner arguments target).uses = Expr.listUses arguments := by
    simp [Expr.uses, free, Use.ofBound]
  unfold checkLibraryCall
  split
  · unfold checkUnresolvedCall
    split
    · split
      · rw [Expr.uses_blame, unbound .unresolved rfl]
      · simp [uses_check_arguments, CallTarget.declaration?, Use.ofBound]
    · rw [Expr.uses_blame, unbound .unresolved rfl]
  · split <;> exact unbound _ rfl _

/-- A call uses the function of the script that it is bound to, if there is one. -/
theorem uses_check_call :
    (checkCall view info name inner arguments).value.uses = Expr.listUses arguments ++
      Use.ofBound info.span ((view.function? name).map (·.start)) := by
  unfold checkCall
  split
  · rename_i header found
    rw [uses_check_arguments, found]
    rfl
  · rename_i absent
    rw [absent, Option.map_none, Use.ofBound, List.append_nil]
    have unbound : (Expr.call info name inner arguments .unresolved).uses =
        Expr.listUses arguments := List.append_nil _
    split
    · rw [Expr.uses_blame, unbound]
    · split
      · exact unbound
      · exact uses_check_library_call view info name inner arguments _

end

@[simp] theorem uses_check_binary (info : ExprInfo) (operator : BinaryOperator)
    (left right : Expr) :
    (checkBinary info operator left right).value.uses = left.uses ++ right.uses := by
  have typed : ∀ left : Expr, (typeOperation info operator left right).value.uses =
      left.uses ++ right.uses := by
    intro left
    unfold typeOperation
    split
    · exact Expr.uses_ite_blame ..
    · rfl
  unfold checkBinary
  split
  · simp only [Checked.value_bind]
    split
    · rw [typed, uses_check_target]
    · simp [Expr.uses]
  · exact typed left

theorem uses_type_prefixed (info : ExprInfo) (operator : PrefixOperator) (operand : Expr)
    (type : ValueType) : (typePrefixed info operator operand type).value.uses = operand.uses :=
  Expr.uses_ite_blame ..

@[simp] theorem uses_check_prefixed (info : ExprInfo) (operator : PrefixOperator)
    (operand : Expr) : (checkPrefixed info operator operand).value.uses = operand.uses := by
  unfold checkPrefixed
  split
  · rfl
  · split
    · simp only [Checked.value_bind]
      split
      · rw [uses_type_prefixed, uses_check_target]
      · split <;> simp [Expr.uses]
    · exact uses_type_prefixed info operator operand _

@[simp] theorem uses_check_postfixed (info : ExprInfo) (operator : PostfixOperator)
    (operand : Expr) : (checkPostfixed info operator operand).value.uses = operand.uses := by
  unfold checkPostfixed
  simp only [Checked.value_bind]
  split
  · split <;> simp [Expr.uses]
  · simp [Expr.uses]

@[simp] theorem uses_check_cast (info : ExprInfo) (target : ValueType) (operand : Expr) :
    (checkCast info target operand).value.uses = operand.uses := by
  unfold checkCast
  split
  · rfl
  · exact Expr.uses_ite_blame ..

@[simp] theorem uses_check_component (info : ExprInfo) (part : Component) (target : Expr) :
    (checkComponent info part target).value.uses = target.uses := by
  unfold checkComponent
  split
  · rfl
  · split <;> simp [Expr.uses]

theorem uses_pure (expr : Expr) : (pure expr : Checked Expr).value.uses = expr.uses := rfl

end Lsl
