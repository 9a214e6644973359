import Lsl.Proofs.Checking.Labels
import Lsl.Proofs.Checking.Spelling
import Lsl.Proofs.Flow.Hoisting
import Lsl.Proofs.Generation.Closure
import Mathlib.Data.List.Flatten

/-!
Jumps of generated code. The label that a jump goes to is written once in its method, directly in a
scope around the jump.
-/

set_option autoImplicit false

namespace Lsl

def CodeAlternatives.bodies : CodeAlternatives → List (List CodeStmt)
  | .done => []
  | .elseIf _ body rest => body :: rest.bodies
  | .otherwise body => [body]

namespace CodeStmt

/-- The scopes a statement opens. -/
def bodies : CodeStmt → List (List CodeStmt)
  | block body => [body]
  | branch _ body rest => body :: rest.bodies
  | whileLoop _ body => [body]
  | doLoop body _ => [body]
  | forLoop _ _ _ body => [body]
  | _ => []

/-- The name in front of the colon. -/
def label? : CodeStmt → Option String
  | label name _ => some name
  | _ => none

def jump? : CodeStmt → Option String
  | jump name => some name
  | _ => none

end CodeStmt

mutual

/-- The names of the labels in a statement, in the order of the text. -/
def CodeStmt.labels : CodeStmt → List String
  | .label name _ => [name]
  | .block body => CodeStmt.listLabels body
  | .branch _ body rest => CodeStmt.listLabels body ++ rest.labels
  | .whileLoop _ body => CodeStmt.listLabels body
  | .doLoop body _ => CodeStmt.listLabels body
  | .forLoop _ _ _ body => CodeStmt.listLabels body
  | _ => []

def CodeStmt.listLabels : List CodeStmt → List String
  | [] => []
  | stmt :: rest => stmt.labels ++ CodeStmt.listLabels rest

def CodeAlternatives.labels : CodeAlternatives → List String
  | .done => []
  | .elseIf _ body rest => CodeStmt.listLabels body ++ rest.labels
  | .otherwise body => CodeStmt.listLabels body

end

theorem CodeAlternatives.labels_eq (rest : CodeAlternatives) :
    rest.labels = rest.bodies.flatMap CodeStmt.listLabels := by
  cases rest with
  | done => rfl
  | elseIf _ body rest => rw [labels, rest.labels_eq, bodies, List.flatMap_cons]
  | otherwise body => simp [labels, bodies]

namespace CodeStmt

theorem labels_eq (stmt : CodeStmt) :
    stmt.labels = stmt.label?.toList ++ stmt.bodies.flatMap listLabels := by
  cases stmt <;> simp [labels, label?, bodies, CodeAlternatives.labels_eq]

theorem list_labels_append (first second : List CodeStmt) :
    listLabels (first ++ second) = listLabels first ++ listLabels second := by
  induction first with
  | nil => rfl
  | cons stmt rest induction => simp [listLabels, induction]

/-- The statement stands in a scope, directly or in a scope inside. The scopes around it are given
from the innermost to the outermost. -/
inductive Stands (stmt : CodeStmt) : List CodeStmt → List (List CodeStmt) → Prop where
  | here {body : List CodeStmt} (member : stmt ∈ body) : Stands stmt body [body]
  | inside {body part : List CodeStmt} {holder : CodeStmt} {scopes : List (List CodeStmt)}
      (member : holder ∈ body) (opened : part ∈ holder.bodies) (inner : Stands stmt part scopes) :
      Stands stmt body (scopes ++ [body])

theorem Stands.label_mem {stmt : CodeStmt} {body : List CodeStmt} {scopes : List (List CodeStmt)}
    (stands : stmt.Stands body scopes) {name : String} {empty : Bool}
    (around : ∃ scope ∈ scopes, .label name empty ∈ scope) : name ∈ listLabels body := by
  have direct {codes : List CodeStmt} (member : .label name empty ∈ codes) :
      name ∈ listLabels codes := by
    obtain ⟨front, back, rfl⟩ := List.append_of_mem member
    simp [list_labels_append, listLabels, labels]
  induction stands with
  | here =>
      obtain ⟨scope, around, member⟩ := around
      obtain rfl := List.mem_singleton.mp around
      exact direct member
  | @inside codes part holder scopes holds opened _ induction =>
      obtain ⟨scope, around, member⟩ := around
      rcases List.mem_append.mp around with around | around
      · have within := List.mem_flatMap.mpr ⟨part, opened, induction ⟨scope, around, member⟩⟩
        obtain ⟨front, back, rfl⟩ := List.append_of_mem holds
        simp only [list_labels_append, listLabels, labels_eq, List.mem_append]
        exact .inr (.inl (.inr within))
      · obtain rfl := List.mem_singleton.mp around
        exact direct member

end CodeStmt

/-- A statement that neither is a label, nor jumps, nor opens a scope. -/
structure CodeStmt.Plain (stmt : CodeStmt) : Prop where
  label : stmt.label? = none
  jump : stmt.jump? = none
  bodies : stmt.bodies = []

theorem CodeStmt.labels_of_plain {codes : List CodeStmt} (plain : ∀ stmt ∈ codes, stmt.Plain) :
    listLabels codes = [] := by
  induction codes with
  | nil => rfl
  | cons stmt rest induction =>
      obtain ⟨label, _, bodies⟩ := plain stmt List.mem_cons_self
      have others := induction fun found member => plain found (List.mem_cons_of_mem _ member)
      simp [listLabels, labels_eq, label, bodies, others]

section Plain

variable (manner : Manner)

theorem checkpoint_plain : ∀ stmt ∈ checkpointCode manner, stmt.Plain := by
  unfold checkpointCode
  split
  · intro stmt member
    obtain rfl := List.mem_singleton.mp member
    exact ⟨rfl, rfl, rfl⟩
  · simp

theorem declaration_plain (scope : Nat) (info : StmtInfo) (decl : Variable) :
    ∀ stmt ∈ declarationCode manner scope info decl, stmt.Plain := by
  unfold declarationCode
  split
  · simp
  · intro stmt member
    obtain rfl := List.mem_singleton.mp member
    exact ⟨rfl, rfl, rfl⟩

theorem return_plain (inHandler : Bool) (value : Option Expr) :
    ∀ stmt ∈ returnCode manner inHandler value, stmt.Plain := by
  intro stmt member
  unfold returnCode at member
  split at member
  · obtain rfl := List.mem_singleton.mp member
    exact ⟨rfl, rfl, rfl⟩
  · dsimp only at member
    split at member
    · rcases List.mem_pair.mp member with rfl | rfl <;> exact ⟨rfl, rfl, rfl⟩
    · obtain rfl := List.mem_singleton.mp member
      exact ⟨rfl, rfl, rfl⟩

theorem scope_start_plain (scope : ScopeInfo) (body : List Stmt) :
    ∀ stmt ∈ scopeStart manner scope body, stmt.Plain := by
  intro stmt member
  rcases List.mem_append.mp member with member | member
  · obtain ⟨source, _, hoisted⟩ := List.mem_flatMap.mp member
    unfold hoistedCode at hoisted
    split at hoisted
    · split at hoisted
      · obtain rfl := List.mem_singleton.mp hoisted
        exact ⟨rfl, rfl, rfl⟩
      · simp at hoisted
    · simp at hoisted
  · split at member
    · exact checkpoint_plain manner stmt member
    · simp at member

end Plain

section

variable (manner : Manner) (inHandler : Bool)

def CodeScope.code (scope : CodeScope) : List CodeStmt :=
  bodyCode manner inHandler scope.info scope.body

theorem Alternatives.bodies_code (rest : Alternatives) :
    (rest.code manner inHandler).bodies = rest.parts.map (CodeScope.code manner inHandler) := by
  cases rest with
  | done => rfl
  | elseIf _ _ _ body rest =>
      rw [Alternatives.code, CodeAlternatives.bodies, rest.bodies_code]
      rfl
  | otherwise _ _ body => rfl

namespace Stmt

inductive Becomes (scope : Nat) (stmt : Stmt) : List CodeStmt → Prop where
  | plain {codes : List CodeStmt} (plain : ∀ code ∈ codes, code.Plain) : Becomes scope stmt codes
  | jump {name : String} {target : Option JumpTarget} (jumps : stmt.jump? = some (name, target)) :
      Becomes scope stmt [.jump name]
  | label {place : LabelPlace} {empty : Bool} (labels : stmt.labelPlace? scope = some place) :
      Becomes scope stmt (.label place.name empty :: checkpointCode manner)
  | holder {code : CodeStmt} (label : code.label? = none) (jump : code.jump? = none)
      (bodies : code.bodies = stmt.parts.map (CodeScope.code manner inHandler)) :
      Becomes scope stmt [code]

theorem becomes (scope : Nat) (isLast : Bool) (stmt : Stmt) :
    stmt.Becomes manner inHandler scope (stmt.code manner inHandler scope isLast) := by
  cases stmt with
  | declare info decl =>
      rw [code]
      split
      · exact .plain (by simp)
      · exact .plain (declaration_plain manner scope info decl)
  | perform info value =>
      rw [code]
      split
      · exact .plain (by simp)
      · exact .holder rfl rfl rfl
  | giveBack info value =>
      rw [code]
      split
      · exact .plain (by simp)
      · exact .plain (return_plain manner inHandler value)
  | jump info name target =>
      rw [code]
      split
      · exact .plain (by simp)
      · exact .jump rfl
  | label info name =>
      rw [code, labelCode]
      split
      · exact .plain (by simp)
      · split
        · exact .plain (by simp)
        · have place : (Stmt.label info name).labelPlace? scope = some ⟨name, info.span, scope⟩ := rfl
          exact .label place
  | branch info first condition inner body rest =>
      rw [code]
      split
      · exact .plain (by simp)
      · refine .holder rfl rfl ?_
        rw [CodeStmt.bodies, rest.bodies_code]
        rfl
  | empty info => exact .plain (by simp [code])
  | broken span => exact .holder rfl rfl rfl
  | _ =>
      rw [code]
      split
      · exact .plain (by simp)
      · exact .holder rfl rfl rfl

theorem label_written {scope : Nat} (isLast : Bool) {stmt : Stmt} {place : LabelPlace}
    (labels : stmt.labelPlace? scope = some place)
    (used : Use.isUsed manner.uses place.start = true) :
    ∃ empty, .label place.name empty ∈ stmt.code manner inHandler scope isLast := by
  cases stmt with
  | label info name =>
      obtain rfl := Option.some.inj labels
      have target : Use.isUsed manner.uses info.span.start.offset = true := used
      refine ⟨isLast && !manner.settings.checksTermination, ?_⟩
      simp [code, isSkipped, labelCode, target]
  | _ => cases labels

theorem mem_codes {code : CodeStmt} {scope : Nat} {body : List Stmt}
    (member : code ∈ codes manner inHandler scope body) :
    ∃ stmt ∈ body, ∃ isLast, code ∈ stmt.code manner inHandler scope isLast := by
  induction body with
  | nil => simp [codes] at member
  | cons stmt rest induction =>
      rw [codes] at member
      rcases List.mem_append.mp member with own | later
      · exact ⟨stmt, List.mem_cons_self, _, own⟩
      · obtain ⟨found, inside, written⟩ := induction later
        exact ⟨found, List.mem_cons_of_mem _ inside, written⟩

theorem codes_of_mem (scope : Nat) {body : List Stmt} {stmt : Stmt} (member : stmt ∈ body) :
    ∃ isLast, stmt.code manner inHandler scope isLast ⊆ codes manner inHandler scope body := by
  induction body with
  | nil => simp at member
  | cons head rest induction =>
      rw [codes]
      rcases List.mem_cons.mp member with rfl | member
      · exact ⟨_, List.subset_append_left _ _⟩
      · obtain ⟨isLast, written⟩ := induction member
        exact ⟨isLast, List.Subset.trans written (List.subset_append_right _ _)⟩

theorem labels_codes (scope : Nat) (body : List Stmt) :
    (CodeStmt.listLabels (codes manner inHandler scope body)).Sublist
      ((listLabels scope body).map (·.name)) := by
  induction body using Stmt.list_induction generalizing scope with
  | nil => exact List.nil_sublist _
  | cons stmt rest inner outer =>
      rw [codes, CodeStmt.list_labels_append, listLabels, List.map_append]
      refine List.Sublist.append ?_ (outer scope)
      rw [labels_eq]
      have becomes := stmt.becomes manner inHandler scope rest.isEmpty
      generalize stmt.code manner inHandler scope rest.isEmpty = codes at becomes ⊢
      cases becomes with
      | plain plain =>
          rw [CodeStmt.labels_of_plain plain]
          exact List.nil_sublist _
      | jump jumps => exact List.nil_sublist _
      | label labels =>
          rw [labels, CodeStmt.listLabels,
            CodeStmt.labels_of_plain (checkpoint_plain manner), CodeStmt.labels]
          exact List.singleton_sublist.mpr (by simp)
      | holder label jump bodies =>
          have parts : (stmt.parts.flatMap fun part =>
              CodeStmt.listLabels (part.code manner inHandler)).Sublist
              (stmt.parts.flatMap fun part =>
                (listLabels part.info.id part.body).map (·.name)) := by
            refine List.Sublist.flatMap_right _ fun part member => ?_
            rw [CodeScope.code, bodyCode, CodeStmt.list_labels_append,
              CodeStmt.labels_of_plain (scope_start_plain manner _ _)]
            exact inner part member part.info.id
          simp only [CodeStmt.listLabels, CodeStmt.labels_eq, label, bodies, List.flatMap_map,
            Option.toList_none, List.nil_append, List.append_nil, List.map_append,
            List.map_flatMap]
          exact parts.trans (List.sublist_append_right _ _)

end Stmt

namespace CodeScope

variable {manner} {scope : CodeScope}

theorem labels_code :
    (CodeStmt.listLabels (scope.code manner inHandler)).Sublist
      ((Stmt.listLabels scope.info.id scope.body).map (·.name)) := by
  rw [code, bodyCode, CodeStmt.list_labels_append,
    CodeStmt.labels_of_plain (scope_start_plain manner _ _)]
  exact Stmt.labels_codes manner inHandler _ _

theorem jump_of_code {name : String} (member : .jump name ∈ scope.code manner inHandler) :
    ∃ stmt ∈ scope.body, ∃ target, stmt.jump? = some (name, target) := by
  rcases List.mem_append.mp member with member | member
  · cases (scope_start_plain manner _ _ _ member).jump
  · obtain ⟨stmt, inside, isLast, written⟩ := Stmt.mem_codes manner inHandler member
    refine ⟨stmt, inside, ?_⟩
    generalize formed : stmt.code manner inHandler scope.info.id isLast = codes at written
    have becomes := stmt.becomes manner inHandler scope.info.id isLast
    rw [formed] at becomes
    cases becomes with
    | plain plain => cases (plain _ written).jump
    | jump jumps =>
        cases List.mem_singleton.mp written
        exact ⟨_, jumps⟩
    | label labels =>
        rcases List.mem_cons.mp written with same | written
        · cases same
        · cases (checkpoint_plain manner _ written).jump
    | holder label jump bodies =>
        cases List.mem_singleton.mp written
        cases jump

theorem part_of_code {holder : CodeStmt} (member : holder ∈ scope.code manner inHandler)
    {opened : List CodeStmt} (opens : opened ∈ holder.bodies) :
    ∃ stmt ∈ scope.body, ∃ part ∈ stmt.parts, opened = part.code manner inHandler := by
  have closed (plain : holder.Plain) : False := by
    rw [plain.bodies] at opens
    simp at opens
  rcases List.mem_append.mp member with member | member
  · exact (closed (scope_start_plain manner _ _ _ member)).elim
  · obtain ⟨stmt, inside, isLast, written⟩ := Stmt.mem_codes manner inHandler member
    refine ⟨stmt, inside, ?_⟩
    generalize formed : stmt.code manner inHandler scope.info.id isLast = codes at written
    have becomes := stmt.becomes manner inHandler scope.info.id isLast
    rw [formed] at becomes
    cases becomes with
    | plain plain => exact (closed (plain _ written)).elim
    | jump jumps =>
        cases List.mem_singleton.mp written
        simp [CodeStmt.bodies] at opens
    | label labels =>
        rcases List.mem_cons.mp written with rfl | written
        · simp [CodeStmt.bodies] at opens
        · exact (closed (checkpoint_plain manner _ written)).elim
    | holder label jump bodies =>
        obtain rfl := List.mem_singleton.mp written
        rw [bodies] at opens
        obtain ⟨part, partMember, rfl⟩ := List.mem_map.mp opens
        exact ⟨part, partMember, rfl⟩

theorem label_of_start {start : Nat} (labels : start ∈ Stmt.labelStarts scope.body)
    (used : Use.isUsed manner.uses start = true) :
    ∃ stmt ∈ scope.body, ∃ place, stmt.labelPlace? scope.info.id = some place ∧
      place.start = start ∧ ∃ empty, .label place.name empty ∈ scope.code manner inHandler := by
  obtain ⟨stmt, member, found⟩ := Stmt.mem_label_starts.mp labels
  obtain ⟨place, known, rfl⟩ : ∃ place, stmt.labelPlace? scope.info.id = some place ∧
      place.start = start := by
    cases stmt with
    | label info name => exact ⟨_, rfl, Option.some.inj found⟩
    | _ => cases found
  obtain ⟨isLast, subset⟩ := Stmt.codes_of_mem manner inHandler scope.info.id member
  obtain ⟨empty, written⟩ := Stmt.label_written manner inHandler isLast known used
  exact ⟨stmt, member, place, known, rfl, empty, List.mem_append_right _ (subset written)⟩

end CodeScope

end

theorem Bound.part {around : List Nat} {body : List Stmt} (bound : Bound around body) {stmt : Stmt}
    (member : stmt ∈ body) {part : CodeScope} (inside : part ∈ stmt.parts) :
    Bound (Stmt.labelStarts part.body ++ around) part.body := by
  induction bound with
  | nil around => simp at member
  | cons _ parts _ _ induction =>
      rcases List.mem_cons.mp member with rfl | member
      · exact parts part inside
      · exact induction member

/-- A label of the name stands directly in one of the scopes. -/
def CodeStmt.Labelled (scopes : List (List CodeStmt)) (name : String) : Prop :=
  ∃ scope ∈ scopes, ∃ empty, .label name empty ∈ scope

/-- The jumps of a body go to labels that are used, with the names they give. -/
structure CodeScope.Aimed (manner : Manner) (root : CodeScope) : Prop where
  distinct : Stmt.Distinct root.body
  jumps : ∀ stmt ∈ Stmt.listStatements root.body, ∀ name target,
    stmt.jump? = some (name, target) → ∃ label ∈ Stmt.listLabels root.info.id root.body,
      label.name = name ∧ target = some ⟨label.start, true⟩ ∧
        Use.isUsed manner.uses label.start = true

section

variable {manner : Manner} (inHandler : Bool) {root : CodeScope} (aimed : root.Aimed manner)

include aimed

theorem CodeScope.Aimed.written {scope : CodeScope}
    (within : ∀ stmt ∈ Stmt.listStatements scope.body, stmt ∈ Stmt.listStatements root.body)
    {label : LabelPlace} (known : label ∈ Stmt.listLabels root.info.id root.body)
    (direct : label.start ∈ Stmt.labelStarts scope.body)
    (used : Use.isUsed manner.uses label.start = true) :
    ∃ empty, .label label.name empty ∈ scope.code manner inHandler := by
  obtain ⟨stmt, member, place, is, starts, empty, found⟩ :=
    CodeScope.label_of_start inHandler direct used
  obtain ⟨other, otherMember, holder, same⟩ := Stmt.label_statement known
  have equal : stmt = other := by
    refine Stmt.eq_of_start aimed.distinct (within stmt (Stmt.subset_list_statements member))
      otherMember ?_
    rw [Stmt.start_of_label_place is, Stmt.start_of_label_place same, starts]
  subst equal
  refine ⟨empty, ?_⟩
  cases stmt with
  | label info name =>
      obtain rfl := Option.some.inj is
      obtain rfl := Option.some.inj same
      exact found
  | _ => cases is

variable {inHandler}

/-- A jump in the code of a scope finds its label directly in a scope around it, if it does so for
the labels that jumps of the scope may go to. -/
theorem CodeStmt.Stands.lands {name : String} {codes : List CodeStmt}
    {scopes : List (List CodeStmt)} (stands : (CodeStmt.jump name).Stands codes scopes)
    {scope : CodeScope} (code : codes = scope.code manner inHandler)
    (within : ∀ stmt ∈ Stmt.listStatements scope.body, stmt ∈ Stmt.listStatements root.body)
    {around : List Nat} (bound : Bound around scope.body) {outer : List (List CodeStmt)}
    (reach : ∀ label ∈ Stmt.listLabels root.info.id root.body, label.start ∈ around →
      Use.isUsed manner.uses label.start = true → Labelled (codes :: outer) label.name) :
    Labelled (scopes ++ outer) name := by
  induction stands generalizing scope around outer with
  | here member =>
      subst code
      obtain ⟨stmt, inside, target, is⟩ := CodeScope.jump_of_code inHandler member
      obtain ⟨label, known, rfl, rfl, used⟩ :=
        aimed.jumps stmt (within stmt (Stmt.subset_list_statements inside)) _ _ is
      have goes : stmt.target? = some ⟨label.start, true⟩ := by
        cases stmt with
        | jump info name found => exact congrArg Prod.snd (Option.some.inj is)
        | _ => cases is
      exact reach label known (bound.direct inside goes).2 used
  | @inside codes opened holder scopes member opens _ induction =>
      subst code
      obtain ⟨stmt, inside, part, own, rfl⟩ := CodeScope.part_of_code inHandler member opens
      have contained : ∀ found ∈ Stmt.listStatements part.body,
          found ∈ Stmt.listStatements root.body := fun found member => within found
        (Stmt.mem_statements_of_part (Stmt.subset_list_statements inside) own member)
      rw [List.append_assoc]
      refine induction rfl contained (bound.part inside own) ?_
      intro label known near used
      rcases List.mem_append.mp near with direct | further
      · obtain ⟨empty, found⟩ := aimed.written inHandler contained known direct used
        exact ⟨_, List.mem_cons_self, empty, found⟩
      · obtain ⟨place, among, found⟩ := reach label known further used
        exact ⟨place, List.mem_cons_of_mem _ among, found⟩

theorem CodeScope.Aimed.lands (bound : Bound (Stmt.labelStarts root.body) root.body) {name : String}
    {scopes : List (List CodeStmt)}
    (stands : (CodeStmt.jump name).Stands (root.code manner inHandler) scopes) :
    CodeStmt.Labelled scopes name := by
  have reach : ∀ label ∈ Stmt.listLabels root.info.id root.body,
      label.start ∈ Stmt.labelStarts root.body → Use.isUsed manner.uses label.start = true →
        CodeStmt.Labelled [root.code manner inHandler] label.name := by
    intro label known direct used
    obtain ⟨empty, found⟩ := aimed.written inHandler (fun _ member => member) known direct used
    exact ⟨_, List.mem_cons_self, empty, found⟩
  simpa using stands.lands aimed rfl (fun _ member => member) bound reach

end

/-- The body of a method whose jumps land: no two of its labels have one name, and the label that a
jump goes to is there once, directly in the scope of the jump or in one around it. -/
structure Method.Lands (method : Method) : Prop where
  distinct : (CodeStmt.listLabels method.body).Nodup
  lands : ∀ name scopes, (CodeStmt.jump name).Stands method.body scopes →
    CodeStmt.Labelled scopes name ∧ (CodeStmt.listLabels method.body).count name = 1

theorem body_lands {library : Library} {source : String} (accepted : Accepted library source)
    (settings : Settings) {body : CodeScope}
    (inside : body ∈ (checkSource library source).value.bodies) (inHandler : Bool)
    {method : Method}
    (code : method.body =
      body.code ⟨library, settings, (checkSource library source).value.uses⟩ inHandler) :
    method.Lands := by
  obtain ⟨owner, parameters, passed⟩ := accepted.body_passed inside
  have resolved := accepted.resolved inside
  have aimed : body.Aimed ⟨library, settings, (checkSource library source).value.uses⟩ := by
    refine ⟨resolved.distinct, ?_⟩
    intro stmt member name target jumps
    obtain ⟨label, known, named, rfl⟩ := passed.jump_named member jumps
    refine ⟨label, known, named, rfl, ?_⟩
    cases stmt with
    | jump info name found =>
        obtain ⟨-, rfl⟩ := Prod.mk.inj (Option.some.inj jumps)
        have used := accepted.recorded ▸
          Script.uses_of_body inside (Stmt.uses_subset member (List.mem_singleton_self _))
        exact List.any_eq_true.mpr ⟨_, used, by simp⟩
    | _ => cases jumps
  have distinct : (CodeStmt.listLabels method.body).Nodup := by
    rw [code]
    exact passed.labels_distinct.sublist (CodeScope.labels_code inHandler)
  refine ⟨distinct, ?_⟩
  intro name scopes stands
  have landed := aimed.lands resolved.bound (code ▸ stands)
  refine ⟨landed, List.count_eq_one_of_mem distinct ?_⟩
  obtain ⟨scope, among, empty, found⟩ := landed
  exact stands.label_mem ⟨scope, among, found⟩

end Lsl
