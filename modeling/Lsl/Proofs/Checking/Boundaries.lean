import Lsl.Proofs.Checking.Placing
import Lsl.Proofs.Parsing.Enclosing
import Lsl.Proofs.Token.Tiling

/-!
The ends of the tokens and lexical errors of a source are the places of all its nodes and of all
diagnostics about it.
-/

set_option autoImplicit false

namespace Lsl

/-- The spans from one of the places to one that is not in front of it. -/
def genuineSpans (places : List Position) : List Span :=
  (places.flatMap fun start => places.map (Span.mk start)).filter fun span =>
    span.start.offset ≤ span.stop.offset

theorem mem_genuine_spans {places : List Position} {span : Span} :
    span ∈ genuineSpans places ↔ span.Genuine places := by
  simp only [genuineSpans, List.mem_filter, List.mem_flatMap, List.mem_map, decide_eq_true_eq]
  constructor
  · rintro ⟨⟨start, known, stop, reached, rfl⟩, forward⟩
    exact ⟨known, reached, forward⟩
  · intro genuine
    exact ⟨⟨span.start, genuine.start, span.stop, genuine.stop, rfl⟩, genuine.forward⟩

section

variable {places : List Position}

theorem Node.Throughout.known {node : Node} (throughout : node.Throughout (Spanning places)) :
    node.span ∈ genuineSpans places :=
  mem_genuine_spans.mpr throughout.self.genuine

theorem Expr.lies_of_spanning {expr : Expr}
    (throughout : (Node.expr expr).Throughout (Node.Spanning places)) :
    expr.Lies (genuineSpans places) := by
  induction expr using parts_induction with
  | step expr induction =>
      refine Lies.iff_parts.mpr ⟨throughout.known, fun part member => ?_⟩
      refine induction part member ?_
      cases expr with
      | list info inner elements | call info name inner elements target =>
          exact (throughout.child List.mem_cons_self).child (List.mem_map_of_mem member)
      | _ => exact throughout.child (List.mem_map_of_mem member)

theorem Alternatives.spanning {holds : Node → Prop} {rest : Alternatives}
    (throughout : ∀ branch ∈ rest.branches, branch.Throughout holds) :
    (∀ expr ∈ rest.conditions, (Node.expr expr).Throughout holds) ∧
      ∀ part ∈ rest.parts, (Node.scope part.info part.body).Throughout holds := by
  match rest with
  | .done => simp [conditions, parts]
  | .elseIf span condition scope body rest =>
      have here := throughout _ List.mem_cons_self
      have others := Alternatives.spanning fun branch member =>
        throughout branch (List.mem_cons_of_mem _ member)
      exact ⟨List.forall_mem_cons.mpr ⟨here.child List.mem_cons_self, others.1⟩,
        List.forall_mem_cons.mpr ⟨here.child (List.mem_cons_of_mem _ List.mem_cons_self),
          others.2⟩⟩
  | .otherwise span scope body =>
      have here := throughout _ List.mem_cons_self
      exact ⟨by simp [conditions], by simpa [parts] using here.child List.mem_cons_self⟩

namespace Stmt

theorem spanning {holds : Node → Prop} {stmt : Stmt} (throughout : stmt.node.Throughout holds) :
    (∀ expr ∈ stmt.exprs, (Node.expr expr).Throughout holds) ∧
      ∀ part ∈ stmt.parts, (Node.scope part.info part.body).Throughout holds := by
  have inside {child : Node} (member : child ∈ stmt.node.children) : child.Throughout holds :=
    throughout.child member
  cases stmt with
  | block info body =>
      refine ⟨by simp [exprs], fun part member => ?_⟩
      obtain rfl := List.mem_singleton.mp member
      exact throughout
  | declare info decl | giveBack info value =>
      exact ⟨fun expr member => inside (List.mem_map_of_mem member), by simp [parts]⟩
  | perform info value => exact ⟨by simpa [exprs] using inside List.mem_cons_self, by simp [parts]⟩
  | branch info first condition scope body rest =>
      have own := inside List.mem_cons_self
      obtain ⟨conditions, parts⟩ := Alternatives.spanning fun branch member =>
        inside (List.mem_cons_of_mem _ member)
      exact ⟨List.forall_mem_cons.mpr ⟨own.child List.mem_cons_self, conditions⟩,
        List.forall_mem_cons.mpr ⟨own.child (List.mem_cons_of_mem _ List.mem_cons_self), parts⟩⟩
  | whileLoop info condition scope body =>
      exact ⟨by simpa [exprs] using inside List.mem_cons_self,
        by simpa [parts] using inside (List.mem_cons_of_mem _ List.mem_cons_self)⟩
  | doLoop info scope body condition =>
      exact ⟨by simpa [exprs] using inside (List.mem_cons_of_mem _ List.mem_cons_self),
        by simpa [parts] using inside List.mem_cons_self⟩
  | forLoop info init condition afterthought scope body =>
      have list {role : ListRole} {list : Option ExprList}
          (among : ∀ child ∈ list.toList.map (Node.exprList role), child.Throughout holds) :
          ∀ expr ∈ listExprs list, (Node.expr expr).Throughout holds := by
        intro expr member
        cases list with
        | none => cases member
        | some list => exact (among _ List.mem_cons_self).child (List.mem_map_of_mem member)
      have all : ∀ child ∈ init.toList.map (Node.exprList .loopInit) ++
          condition.toList.map Node.expr ++
            afterthought.toList.map (Node.exprList .loopAfterthought) ++ [.scope scope body],
              child.Throughout holds := fun _ => inside
      simp only [List.forall_mem_append] at all
      obtain ⟨⟨⟨front, middle⟩, back⟩, last⟩ := all
      simp only [exprs, List.forall_mem_append]
      exact ⟨⟨⟨list front, List.forall_mem_map.mp middle⟩, list back⟩,
        by simpa [parts] using last⟩
  | _ => exact ⟨by simp [exprs], by simp [parts]⟩

theorem all_stand_of_spanning {body : List Stmt}
    (throughout : ∀ stmt ∈ body, stmt.node.Throughout (Node.Spanning places)) :
    AllStand (genuineSpans places) body := by
  induction body using Stmt.list_induction with
  | nil => simp [AllStand, listStatements]
  | cons stmt rest inner outer =>
      have here := throughout stmt List.mem_cons_self
      obtain ⟨exprs, parts⟩ := spanning here
      have span : stmt.node.span = stmt.span := by cases stmt <;> rfl
      refine all_stand_cons.mpr ⟨⟨span ▸ here.known, ?_⟩, ?_, ?_⟩
      · exact fun expr member => Expr.lies_of_spanning (exprs expr member)
      · exact fun part member => inner part member fun stmt inside =>
          (parts part member).child (List.mem_map_of_mem inside)
      · exact outer fun stmt member => throughout stmt (List.mem_cons_of_mem _ member)

end Stmt

theorem Routine.stands_of_spanning {node : Node} {parameters : ParameterList}
    {scope : ScopeInfo} {body : List Stmt}
    (throughout : node.Throughout (Node.Spanning places))
    (children : node.children = [.parameters parameters, .scope scope body]) :
    Routine.Stands (genuineSpans places) node.span parameters body := by
  have list : (Node.parameters parameters).Throughout (Node.Spanning places) :=
    throughout.child (by simp [children])
  have inner : (Node.scope scope body).Throughout (Node.Spanning places) :=
    throughout.child (by simp [children])
  refine ⟨throughout.known, ?_, ?_⟩
  · exact fun decl member => (list.child (List.mem_map_of_mem member)).known
  · exact Stmt.all_stand_of_spanning fun stmt member => inner.child (List.mem_map_of_mem member)

theorem StateDecl.stands_of_spanning {decl : StateDecl}
    (throughout : (Node.state decl).Throughout (Node.Spanning places)) :
    decl.Stands (genuineSpans places) := by
  refine ⟨throughout.known, ?_⟩
  intro handler inside
  obtain ⟨member, among, found⟩ := List.mem_filterMap.mp inside
  have child : member.node.Throughout (Node.Spanning places) :=
    throughout.child (List.mem_map_of_mem among)
  cases member with
  | broken span => cases found
  | handler own =>
      cases found
      exact Routine.stands_of_spanning child rfl

theorem Script.stands_of_spanning {script : Script}
    (throughout : (Node.script script).Throughout (Node.Spanning places)) :
    script.Stands (genuineSpans places) := by
  have all : ∀ child ∈ script.children, child.Throughout (Node.Spanning places) :=
    fun _ member => throughout.child member
  simp only [children, List.forall_mem_append, List.forall_mem_map] at all
  obtain ⟨⟨⟨⟨globals, functions⟩, first⟩, states⟩, _⟩ := all
  have genuine := throughout.self.genuine
  refine ⟨?_, ?_, ?_, ?_⟩
  · intro decl member
    have here := globals decl member
    refine ⟨here.known, fun expr given => Expr.lies_of_spanning (here.child ?_)⟩
    exact List.mem_map_of_mem (Option.mem_toList.mpr given)
  · exact fun decl member => Routine.stands_of_spanning (functions decl member) rfl
  · intro decl member
    rcases List.mem_append.mp member with member | member
    · exact StateDecl.stands_of_spanning (first decl member)
    · exact StateDecl.stands_of_spanning (states decl member)
  · exact mem_genuine_spans.mpr ⟨genuine.stop, genuine.stop, Nat.le_refl _⟩

end

/-- The ends of the tokens and lexical errors of a source. -/
def boundaries (source : String) : List Position :=
  ((tokenize source).map (·.span) ++ (lexicalErrors source).map (·.span)).flatMap
    fun span => [span.start, span.stop]

section

variable (source : String)

/-- The tokens and lexical errors are the pieces of the scan, and the closing token. -/
theorem mem_boundaries {place : Position} :
    place ∈ boundaries source ↔
      (∃ piece ∈ scan source, place = piece.span.start ∨ place = piece.span.stop) ∨
        place = Position.origin.advanceOver source.toList := by
  have spans (span : Span) : span ∈ (tokenize source).map (·.span) ++
      (lexicalErrors source).map (·.span) ↔
        (∃ piece ∈ scan source, span = piece.span) ∨
          span = .point (Position.origin.advanceOver source.toList) := by
    simp only [tokenize, lexicalErrors, List.map_append, List.mem_append, List.mem_map,
      List.mem_filterMap, List.map_cons, List.map_nil, List.mem_singleton]
    constructor
    · rintro ((⟨token, ⟨piece, member, found⟩, rfl⟩ | rfl) | ⟨error, ⟨piece, member, found⟩, rfl⟩)
      · cases piece <;> cases found
        exact .inl ⟨_, member, rfl⟩
      · exact .inr rfl
      · cases piece <;> cases found
        exact .inl ⟨_, member, rfl⟩
    · rintro (⟨piece, member, rfl⟩ | rfl)
      · cases piece with
        | token own => exact .inl (.inl ⟨own, ⟨_, member, rfl⟩, rfl⟩)
        | fault error => exact .inr ⟨error, ⟨_, member, rfl⟩, rfl⟩
      · exact .inl (.inr rfl)
  simp only [boundaries, List.mem_flatMap, spans, List.mem_cons, List.not_mem_nil, or_false]
  constructor
  · rintro ⟨span, ⟨piece, member, rfl⟩ | rfl, ends⟩
    · exact .inl ⟨piece, member, ends⟩
    · exact .inr (ends.elim id id)
  · rintro (⟨piece, member, ends⟩ | rfl)
    · exact ⟨piece.span, .inl ⟨piece, member, rfl⟩, ends⟩
    · exact ⟨_, .inr rfl, .inl rfl⟩

theorem piece_genuine {piece : Scanned} (member : piece ∈ scan source) :
    piece.span.Genuine (boundaries source) := by
  obtain ⟨before, text, after, whole, nonempty, start, stop, _⟩ :=
    (scan_from_tiles source.toList .origin).covered piece member
  exact ⟨(mem_boundaries source).mpr (.inl ⟨piece, member, .inl rfl⟩),
    (mem_boundaries source).mpr (.inl ⟨piece, member, .inr rfl⟩),
    Nat.le_of_lt (start.offset_lt stop nonempty)⟩

theorem boundary_behind {place : Position} (member : place ∈ boundaries source) :
    ∃ front, front <+: source.toList ∧ place.Behind front := by
  rcases (mem_boundaries source).mp member with ⟨piece, inside, ends⟩ | rfl
  · obtain ⟨before, text, after, whole, nonempty, start, stop, _⟩ :=
      (scan_from_tiles source.toList .origin).covered piece inside
    rw [List.nil_append, List.append_assoc] at whole
    rcases ends with rfl | rfl
    · exact ⟨before, ⟨_, whole.symm⟩, start⟩
    · exact ⟨before ++ text, ⟨after, by rw [whole, List.append_assoc]⟩, stop⟩
  · exact ⟨source.toList, List.prefix_refl _, Position.Behind.origin.advance_over source.toList⟩

theorem boundary_within {place : Position} (member : place ∈ boundaries source) :
    place.offset ≤ (Position.origin.advanceOver source.toList).offset := by
  obtain ⟨front, ⟨back, whole⟩, behind⟩ := boundary_behind source member
  have finish : (Position.origin.advanceOver source.toList).Behind (front ++ back) := by
    rw [whole]
    exact Position.Behind.origin.advance_over source.toList
  exact behind.offset_le finish

theorem token_genuine {token : Token} (member : token ∈ tokenize source) :
    token.span.Genuine (boundaries source) := by
  rcases List.mem_append.mp member with scanned | closing
  · obtain ⟨piece, inside, found⟩ := List.mem_filterMap.mp scanned
    cases piece with
    | token own =>
        cases found
        exact piece_genuine source inside
    | fault error => cases found
  · obtain rfl := List.mem_singleton.mp closing
    have finish := (mem_boundaries source).mpr (.inr rfl)
    exact ⟨finish, finish, Nat.le_refl _⟩

theorem source_marked : (Cursor.ofTokens (tokenize source)).Marked (boundaries source) := by
  have rising : (tokenize source).Pairwise fun first second =>
      first.span.stop.offset ≤ second.span.start.offset := by
    refine List.pairwise_append.mpr ⟨?_, List.pairwise_singleton _ _, ?_⟩
    · refine List.pairwise_filterMap.mpr ?_
      refine (scan_from_tiles source.toList .origin).ordered.imp ?_
      intro first second before token found later next
      cases first with
      | fault error => cases found
      | token own =>
          cases second with
          | fault error => cases next
          | token other =>
              cases found
              cases next
              exact before
    · intro token member closing last
      rw [List.mem_singleton.mp last]
      exact boundary_within source (token_genuine source (List.mem_append_left _ member)).stop
  have closed : ∃ token ∈ tokenize source, token.kind = .endOfFile :=
    ⟨_, List.mem_append_right _ (List.mem_singleton_self _), rfl⟩
  obtain ⟨last, shown⟩ := Cursor.of_tokens_prefix closed
  refine ⟨fun token member => token_genuine source (shown.subset member), ?_, last, ?_, ?_⟩
  · exact rising.sublist shown.sublist
  · intro place member
    cases member
  · intro error member
    cases member

/-- Errors in the text of a source stand at its tokens and lexical errors. -/
theorem syntax_errors_genuine {error : SyntaxError} (member : error ∈ syntaxErrors source) :
    error.span.Genuine (boundaries source) := by
  have either : error ∈ lexicalErrors source ++ (parse (tokenize source)).2 :=
    (List.mergeSort_perm _ _).mem_iff.mp member
  rcases List.mem_append.mp either with lexical | grammar
  · obtain ⟨piece, among, found⟩ := List.mem_filterMap.mp lexical
    cases piece with
    | token own => cases found
    | fault own =>
        cases found
        exact piece_genuine source among
  · exact (parse_spanning (source_marked source)).2 error grammar

theorem reports_genuine (library : Library) {report : Diagnostic}
    (member : report ∈ (checkSource library source).reports) :
    report.span.Genuine (boundaries source) := by
  have stand := Script.stands_of_spanning (parse_spanning (source_marked source)).1
  by_cases clean : syntaxErrors source = []
  · have merges : ∀ first ∈ genuineSpans (boundaries source),
        ∀ second ∈ genuineSpans (boundaries source),
          first.merge second ∈ genuineSpans (boundaries source) := by
      intro first left second right
      rw [mem_genuine_spans] at left right ⊢
      exact left.merge right
    have lands : (checkDeclarations library (parse (tokenize source)).1).Lands
        (genuineSpans (boundaries source)) fun _ => True :=
      Checked.Lands.declarations merges stand
    rw [check_source_eq clean] at member
    exact mem_genuine_spans.mp (lands.reports report member)
  · rw [check_source_faulty library clean] at member
    obtain ⟨error, inside, rfl⟩ := List.mem_map.mp member
    exact syntax_errors_genuine source inside

/-- Every node of a source that was read, and every diagnostic of the source, spans the text from
one end of a token or lexical error to another one. A node spans its children, and except in the
whole script these stand one behind the other. If 32 bits are enough to count the source, these are
the positions that nodes and diagnostics keep. -/
theorem spans_genuine_and_nested (library : Library) (small : source.utf8ByteSize + 1 < UInt32.size) :
    (∀ place ∈ boundaries source, place.stored.position = place ∧
      place.stored.offset.toNat ≤ source.utf8ByteSize ∧
        ∃ front, front <+: source.toList ∧ place.stored.position.Behind front) ∧
    (∀ occurrence ∈ (parse (tokenize source)).1.outline,
      occurrence.node.Spanning (boundaries source)) ∧
    ∀ report ∈ (checkSource library source).reports,
      report.span.Genuine (boundaries source) := by
  have spanning := (parse_spanning (source_marked source)).1
  refine ⟨?_, ?_, fun report member => reports_genuine source library member⟩
  · intro place member
    have finish := (Position.Behind.origin.advance_over source.toList).offset
    have size : source.utf8ByteSize = (Position.origin.advanceOver source.toList).offset := by
      simpa using finish.symm
    obtain ⟨front, leads, behind⟩ := boundary_behind source member
    have bytes : Text.byteSize source.toList = source.utf8ByteSize := by
      rw [Text.byte_size_eq, String.ofList_toList]
    have kept : place.stored.position = place := behind.stored_position leads (bytes ▸ small)
    have within : place.stored.position.offset ≤ source.utf8ByteSize := by
      rw [kept, size]
      exact boundary_within source member
    exact ⟨kept, within, front, leads, kept.symm ▸ behind⟩
  · exact spanning.outline [] fun _ => rfl

/-- A script whose state is not closed. -/
theorem open_script_spans_genuine : "default \x7b".utf8ByteSize + 1 < UInt32.size ∧
    ∀ occurrence ∈ (parse (tokenize "default \x7b")).1.outline,
      occurrence.node.Spanning (boundaries "default \x7b") := by
  have small : "default \x7b".utf8ByteSize + 1 < UInt32.size := by decide
  exact ⟨small, (spans_genuine_and_nested "default \x7b" {} small).2.1⟩

end

end Lsl
