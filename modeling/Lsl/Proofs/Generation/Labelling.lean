import Lsl.Proofs.Generation.Standing

/-!
Labels of generated code. A label belongs to the statement behind it, so that one has to be there
before its scope ends. It is if termination is checked, if the label is the last statement of its
scope, or if one of the statements behind it is written.
-/

set_option autoImplicit false

namespace Lsl

namespace CodeStmt

/-- A statement that a label may stand in front of. A label is one only if it brings an empty
statement along. -/
def isStatement : CodeStmt → Bool
  | label _ empty => empty
  | fault _ => false
  | _ => true

def HasStatement (codes : List CodeStmt) : Prop := ∃ code ∈ codes, code.isStatement = true

theorem has_statement_append {first second : List CodeStmt} :
    HasStatement (first ++ second) ↔ HasStatement first ∨ HasStatement second := by
  simp [HasStatement, or_and_right, exists_or]

theorem has_statement_single {code : CodeStmt} :
    HasStatement [code] ↔ code.isStatement = true := by
  simp [HasStatement]

@[simp] theorem no_statement : ¬ HasStatement [] := by simp [HasStatement]

end CodeStmt

/-- Text that ends a statement: its line is closed by a semicolon or by a brace. -/
def Fragment.IsClosing : Fragment → Prop
  | .text content => ∃ mark ∈ [';', '\x7d'], [mark, '\n'] <:+ content.toList
  | .fault _ => False

namespace Fragment

theorem indent_open (depth : Nat) : ¬ (indent depth).IsClosing := by
  rintro ⟨mark, _, ends⟩
  have broken : '\n' ∈ List.replicate depth '\t' := by
    simpa using ends.mem (List.mem_cons_of_mem mark List.mem_cons_self)
  simp at broken

theorem colon_open (content : String) : ¬ (Fragment.text (content ++ ":" ++ "\n")).IsClosing := by
  rintro ⟨mark, among, ends⟩
  have colon : [':', '\n'] <:+ (content ++ ":" ++ "\n").toList := ⟨content.toList, by simp⟩
  have same := (List.suffix_of_suffix_length_le ends colon (Nat.le_refl _)).eq_of_length rfl
  obtain rfl := List.head_eq_of_cons_eq same
  simp at among

theorem line_closing (depth : Nat) {content : String} {mark : Char} (among : mark ∈ [';', '\x7d'])
    (ends : [mark] <:+ content.toList) : ∃ fragment ∈ line depth content, fragment.IsClosing := by
  refine ⟨_, List.mem_cons_of_mem _ List.mem_cons_self, mark, among, ?_⟩
  obtain ⟨start, split⟩ := ends
  exact ⟨start, by simp [← split]⟩

theorem brace_closing (depth : Nat) : ∃ fragment ∈ line depth "\x7d", fragment.IsClosing :=
  line_closing depth (List.mem_cons_of_mem _ List.mem_cons_self) ⟨[], rfl⟩

theorem semicolon_closing (depth : Nat) (content : String) :
    ∃ fragment ∈ line depth (content ++ ";"), fragment.IsClosing :=
  line_closing depth List.mem_cons_self ⟨content.toList, by simp⟩

end Fragment

namespace CodeStmt

theorem closing_iff (access : GlobalAccess) (depth : Nat) (code : CodeStmt) :
    (∃ fragment ∈ code.fragments access depth, fragment.IsClosing) ↔ code.isStatement = true := by
  have semicolon : Fragment.IsClosing (.text ";\n") := ⟨';', List.mem_cons_self, [], rfl⟩
  cases code with
  | label name empty =>
      cases empty with
      | true => exact iff_of_true (Fragment.line_closing depth List.mem_cons_self
          ⟨("LSLLabel_" ++ name ++ ": ").toList, by simp⟩) rfl
      | false =>
          refine iff_of_false ?_ (by simp [isStatement])
          rintro ⟨fragment, member, closes⟩
          rw [fragments, if_neg Bool.false_ne_true, String.append_empty] at member
          rcases List.mem_pair.mp member with rfl | rfl
          · exact Fragment.indent_open depth closes
          · exact Fragment.colon_open _ closes
  | fault reason => simp [fragments, Fragment.IsClosing, isStatement]
  | giveBack value =>
      cases value with
      | none => exact iff_of_true (Fragment.semicolon_closing depth "return") rfl
      | some value =>
          exact iff_of_true ⟨_, List.mem_append_right _ List.mem_cons_self, semicolon⟩ rfl
  | declare | perform =>
      exact iff_of_true ⟨_, List.mem_append_right _ List.mem_cons_self, semicolon⟩ rfl
  | jump name => exact iff_of_true (Fragment.semicolon_closing depth _) rfl
  | checkpoint call => exact iff_of_true (Fragment.semicolon_closing depth _) rfl
  | changeState state =>
      exact iff_of_true (Fragment.line_closing depth List.mem_cons_self
        ⟨("this.state(\"" ++ state ++ "\")").toList, by simp⟩) rfl
  | block | branch | whileLoop | doLoop | forLoop =>
      obtain ⟨fragment, member, closes⟩ := Fragment.brace_closing depth
      refine iff_of_true ⟨fragment, ?_, closes⟩ rfl
      simp [fragments, Fragment.braced, member]

theorem list_closing_iff (access : GlobalAccess) (depth : Nat) (codes : List CodeStmt) :
    (∃ fragment ∈ listFragments access depth codes, fragment.IsClosing) ↔ HasStatement codes := by
  induction codes with
  | nil => simp [listFragments, HasStatement]
  | cons code rest induction =>
      have own := closing_iff access depth code
      simp only [listFragments, List.mem_append, or_and_right, exists_or, own, induction,
        HasStatement, List.exists_mem_cons_iff]

end CodeStmt

namespace Stmt

/-- A statement of a scope, the last one there or not, for which a statement is written. A label
brings an empty statement along if it is the last. -/
def isAnchor (manner : Manner) (isLast : Bool) : Stmt → Bool
  | declare info decl => info.reach == .live && !isPrunable manner info.span.start.offset decl
  | perform info value => info.reach == .live && value.hasEffects
  | label info _ => isLast && Use.isUsed manner.uses info.span.start.offset
  | empty _ => false
  | broken _ => false
  | stmt => stmt.reach == .live

/-- A statement is written for one of the statements up to the end of a scope. -/
def isAnchored (manner : Manner) : List Stmt → Bool
  | [] => false
  | stmt :: rest => stmt.isAnchor manner rest.isEmpty || isAnchored manner rest

section

variable {manner : Manner} (inHandler : Bool)

theorem kept_iff (stmt : Stmt) {codes : List CodeStmt}
    (skipped : isSkipped manner stmt = (stmt.reach != .live)) :
    CodeStmt.HasStatement (if isSkipped manner stmt then [] else codes) ↔
      (stmt.reach == .live) = true ∧ CodeStmt.HasStatement codes := by
  rw [skipped]
  by_cases live : stmt.reach = .live <;> simp [live]

theorem anchor_iff (unchecked : manner.settings.checksTermination = false) (scope : Nat)
    (isLast : Bool) (stmt : Stmt) :
    CodeStmt.HasStatement (stmt.code manner inHandler scope isLast) ↔
      stmt.isAnchor manner isLast = true := by
  have plain {stmt : Stmt} {code : CodeStmt} (is : code.isStatement = true)
      (skipped : isSkipped manner stmt = (stmt.reach != .live)) :
      CodeStmt.HasStatement (if isSkipped manner stmt then [] else [code]) ↔
        (stmt.reach == .live) = true := by
    rw [kept_iff stmt skipped, CodeStmt.has_statement_single, and_iff_left is]
  cases stmt with
  | declare info decl =>
      rw [code, kept_iff (.declare info decl) (Bool.and_true _), isAnchor, Bool.and_eq_true,
        declarationCode]
      refine and_congr_right' ?_
      cases isPrunable manner info.span.start.offset decl <;>
        simp [CodeStmt.HasStatement, CodeStmt.isStatement]
  | perform info value =>
      have dead : (isSkipped manner (.perform info value) || !value.hasEffects) =
          !(info.reach == .live && value.hasEffects) := by
        simp [isSkipped, reach, Bool.not_and, bne]
      rw [code, dead, isAnchor]
      cases (info.reach == .live && value.hasEffects) <;>
        simp [CodeStmt.HasStatement, CodeStmt.isStatement]
  | giveBack info value =>
      rw [code, kept_iff (.giveBack info value) (Bool.and_true _)]
      refine and_iff_left ?_
      cases value <;> cases inHandler <;>
        simp [returnCode, CodeStmt.HasStatement, CodeStmt.isStatement]
  | label info name =>
      by_cases used : Use.isUsed manner.uses info.span.start.offset = true <;>
        simp [code, isSkipped, labelCode, checkpointCode, used, unchecked, isAnchor,
          CodeStmt.HasStatement, CodeStmt.isStatement]
  | empty info => simp [code, isAnchor]
  | broken span => simp [code, isAnchor, CodeStmt.HasStatement, CodeStmt.isStatement]
  | _ =>
      rw [code]
      exact plain rfl (Bool.and_true _)

theorem anchored_iff (unchecked : manner.settings.checksTermination = false) (scope : Nat)
    (body : List Stmt) :
    CodeStmt.HasStatement (codes manner inHandler scope body) ↔ isAnchored manner body = true := by
  induction body with
  | nil => simp [codes, isAnchored]
  | cons stmt rest induction =>
      rw [codes, CodeStmt.has_statement_append, anchor_iff inHandler unchecked, induction,
        isAnchored, Bool.or_eq_true]

theorem label_of_code {scope : Nat} {isLast : Bool} {stmt : Stmt} {name : String} {empty : Bool}
    {front back : List CodeStmt}
    (formed : stmt.code manner inHandler scope isLast = front ++ .label name empty :: back) :
    ∃ info, stmt = .label info name ∧ Use.isUsed manner.uses info.span.start.offset = true ∧
      front = [] := by
  have member : .label name empty ∈ stmt.code manner inHandler scope isLast := by
    rw [formed]
    exact List.mem_append_right _ List.mem_cons_self
  have becomes := stmt.becomes manner inHandler scope isLast
  rw [formed] at becomes member
  generalize split : front ++ .label name empty :: back = codes at becomes member
  cases becomes with
  | plain plain => cases (plain _ member).label
  | jump jumps => cases List.mem_singleton.mp member
  | holder label jump bodies =>
      obtain rfl := List.mem_singleton.mp member
      cases label
  | label labels =>
      cases front with
      | cons first front =>
          have plain := checkpoint_plain manner (.label name empty)
            (by simp [← (List.cons.inj split).2])
          cases plain.label
      | nil =>
          obtain ⟨same, -⟩ := CodeStmt.label.inj (List.cons.inj split).1
          cases stmt with
          | label info found =>
              obtain rfl := Option.some.inj labels
              refine ⟨info, by rw [same], ?_, rfl⟩
              by_contra unused
              rw [Bool.not_eq_true] at unused
              simp [code, labelCode, unused] at formed
          | _ => cases labels

/-- A label in the code of statements is written for one of them, and what is behind it is the code
of what is behind that. -/
theorem label_of_codes {scope : Nat} {body : List Stmt} {name : String} {empty : Bool}
    {front back : List CodeStmt}
    (split : codes manner inHandler scope body = front ++ .label name empty :: back) :
    ∃ ahead info behind, body = ahead ++ .label info name :: behind ∧
      Use.isUsed manner.uses info.span.start.offset = true ∧
      .label name empty :: back = codes manner inHandler scope (.label info name :: behind) := by
  induction body generalizing front with
  | nil => simp [codes] at split
  | cons stmt rest induction =>
      have later {front : List CodeStmt}
          (split : codes manner inHandler scope rest = front ++ .label name empty :: back) :
          ∃ ahead info behind, stmt :: rest = ahead ++ .label info name :: behind ∧
            Use.isUsed manner.uses info.span.start.offset = true ∧
            .label name empty :: back =
              codes manner inHandler scope (.label info name :: behind) := by
        obtain ⟨ahead, info, behind, rfl, used, same⟩ := induction split
        exact ⟨stmt :: ahead, info, behind, rfl, used, same⟩
      rw [codes, List.append_eq_append_iff] at split
      rcases split with ⟨front, rfl, split⟩ | ⟨own, formed, split⟩
      · exact later split
      · cases own with
        | nil => exact @later [] split.symm
        | cons first own =>
            obtain ⟨rfl, rfl⟩ := List.cons.inj split
            obtain ⟨info, rfl, used, rfl⟩ := label_of_code inHandler formed
            refine ⟨[], info, rest, rfl, used, ?_⟩
            rw [codes, formed]
            rfl

end

end Stmt

namespace CodeScope

variable {manner : Manner} {inHandler : Bool}

/-- A label directly in the code of a scope is written for one of its statements, and what is behind
it up to the end of the scope is the code of what is behind that. -/
theorem label_of_scope {scope : CodeScope} {name : String} {empty : Bool}
    {front back : List CodeStmt}
    (split : scope.code manner inHandler = front ++ .label name empty :: back) :
    ∃ info behind, Behind (.label info name) behind scope.body ∧
      Use.isUsed manner.uses info.span.start.offset = true ∧
      .label name empty :: back =
        Stmt.codes manner inHandler scope.info.id (.label info name :: behind) := by
  have written : ∃ front, Stmt.codes manner inHandler scope.info.id scope.body =
      front ++ .label name empty :: back := by
    rw [code, bodyCode, List.append_eq_append_iff] at split
    rcases split with ⟨front, rfl, split⟩ | ⟨own, formed, split⟩
    · exact ⟨front, split⟩
    · cases own with
      | nil => exact ⟨[], split.symm⟩
      | cons first own =>
          obtain ⟨rfl, rfl⟩ := List.cons.inj split
          have plain := scope_start_plain manner scope.info scope.body (.label name empty)
            (by simp [formed])
          cases plain.label
  obtain ⟨front, written⟩ := written
  obtain ⟨ahead, info, behind, body, used, same⟩ := Stmt.label_of_codes inHandler written
  exact ⟨info, behind, body ▸ Behind.of_append ahead, used, same⟩

end CodeScope

/-- What a label in the code of a body needs. It is written for a label of the body that is jumped
to, and has a statement to label if termination is checked or one of the statements from it to the
end of its scope brings one. -/
theorem body_labels {manner : Manner} {inHandler : Bool} {body : CodeScope} {name : String}
    {empty : Bool} {front back : List CodeStmt} {outer : List (List CodeStmt)}
    (stands : (CodeStmt.label name empty).Stands (body.code manner inHandler)
      ((front ++ .label name empty :: back) :: outer)) :
    ∃ info behind, Behind (.label info name) behind body.body ∧
      Use.isUsed manner.uses info.span.start.offset = true ∧
      (CodeStmt.HasStatement (.label name empty :: back) ↔
        manner.settings.checksTermination = true ∨
          Stmt.isAnchored manner (.label info name :: behind) = true) := by
  obtain ⟨scope, among, code⟩ := CodeScope.scope_of_stands stands rfl rfl
  obtain ⟨info, behind, follows, used, same⟩ := CodeScope.label_of_scope code.symm
  refine ⟨info, behind, ?_, used, ?_⟩
  · rcases List.mem_cons.mp among with rfl | among
    · exact follows
    · exact follows.of_scope among
  · rw [same]
    cases checks : manner.settings.checksTermination with
    | false => simpa using Stmt.anchored_iff inHandler checks scope.info.id _
    | true =>
        refine iff_of_true ⟨.checkpoint manner.settings.terminationCall, ?_, rfl⟩ (.inl rfl)
        simp [Stmt.codes, Stmt.code, isSkipped, labelCode, checkpointCode, used, checks]

/-- When a label that is written has a statement to label. The text of its scope stands in braces in
the text of the program. From the label to the end of that scope a statement is written, and the
text of one closed, if and only if termination is checked or a statement of the source from the
label on brings one: the label itself if it is the last of its scope, another label that is jumped
to if that is the last, a declaration that is needed, an expression with an effect, or any other
statement that is not dead. -/
theorem label_labels_iff (library : Library) (settings : Settings) (script : Script)
    (date : String) :
    let manner : Manner := ⟨library, settings, script.uses⟩
    let program := script.program library settings
    ∀ method ∈ program.methods, ∃ body ∈ script.writtenBodies, ∀ name empty front back outer,
      (CodeStmt.label name empty).Stands method.body
        ((front ++ .label name empty :: back) :: outer) →
      ∃ info behind, Behind (.label info name) behind body.body ∧
        Use.isUsed script.uses info.span.start.offset = true ∧
        (CodeStmt.HasStatement (.label name empty :: back) ↔
          settings.checksTermination = true ∨
            Stmt.isAnchored manner (.label info name :: behind) = true) ∧
        ∃ depth,
          Fragment.braced depth (CodeStmt.listFragments settings.access (depth + 1)
            (front ++ .label name empty :: back)) <:+: program.fragments settings date ∧
          ((∃ fragment ∈ CodeStmt.listFragments settings.access (depth + 1)
              (.label name empty :: back), fragment.IsClosing) ↔
            CodeStmt.HasStatement (.label name empty :: back)) := by
  intro manner program method member
  obtain ⟨body, inside, inHandler, code⟩ := Script.body_of_method member
  refine ⟨body, inside, ?_⟩
  intro name empty front back outer stands
  obtain ⟨info, behind, follows, used, labels⟩ := body_labels (code ▸ stands)
  obtain ⟨depth, within⟩ := Program.scope_within settings member stands date rfl
  exact ⟨info, behind, follows, used, labels, depth, within, CodeStmt.list_closing_iff _ _ _⟩

/-- Nothing is written for the empty statement behind this label, so that the brace follows it. -/
theorem bare_label_written :
    let source := "default \x7b state_entry() \x7b jump end; @end; ; \x7d \x7d"
    let program := (checkSource .minimal source).value.program .minimal {}
    Accepted .minimal source ∧ ∃ method ∈ program.methods, ∃ front,
      (CodeStmt.label "end" false).Stands method.body [front ++ [.label "end" false]] ∧
        ¬ CodeStmt.HasStatement [.label "end" false] := by
  intro source program
  have spelled : source = String.ofList _ := rfl
  have facts : Accepted .minimal source ∧ ∃ method ∈ program.methods,
      method.body.map (fun code => (code.label?, code.isStatement)) =
        [(none, true), (some "end", false)] := by
    simp only [Accepted, program, check_source_spelled spelled]
    decide +kernel
  obtain ⟨accepted, method, member, form⟩ := facts
  obtain ⟨first, rest, body, -, form⟩ := List.map_eq_cons_iff.mp form
  obtain ⟨last, rest, rfl, is, form⟩ := List.map_eq_cons_iff.mp form
  obtain rfl := List.map_eq_nil_iff.mp form
  have bare : last = .label "end" false := by
    cases last with
    | label name empty => simpa [CodeStmt.label?, CodeStmt.isStatement] using is
    | _ => simp [CodeStmt.label?] at is
  subst bare
  refine ⟨accepted, method, member, [first], ?_,
    by simp [CodeStmt.HasStatement, CodeStmt.isStatement]⟩
  rw [body]
  exact .here (List.mem_cons_of_mem _ List.mem_cons_self)

end Lsl
