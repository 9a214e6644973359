import Lsl.Proofs.Parsing.Nesting
import Lsl.Proofs.Parsing.Turns

/-!
Declarations span what is inside of them, and the script all of its declarations. Turn by turn the
script is extended by what stands between the cursors of the turn.
-/

set_option autoImplicit false

namespace Lsl

open Lsl.Cursor (Holds Onward)

section

variable {places : List Position} {cursor after : Cursor}

theorem ParameterDecl.Runs.nests {members : List ParameterDecl}
    (runs : ParameterDecl.Runs members cursor after) :
    cursor.Covers places after (members.map .parameter) := by
  have single {place : Cursor} {decl : ParameterDecl} (word : place.kind = .type)
      (name : place.step.kind = .identifier)
      (span : decl.span = place.step.step.spanFrom place.start) :
      place.Covers places place.step.step [.parameter decl] := by
    have advances : place.Advances place.step.step :=
      ⟨word ▸ by decide, .token (name ▸ by decide) (.here _)⟩
    exact (Holds.bare advances).around span
  induction runs with
  | last word _ name => exact single word name rfl
  | more word _ name _ _ rest => exact (single word name rfl).loose.append .step rest

theorem ParameterList.Runs.nests {parameters : ParameterList}
    (runs : parameters.Runs cursor after) : cursor.Covers places after [.parameters parameters] := by
  cases runs with
  | nothing opens closes =>
      have advances : cursor.Advances cursor.step.step :=
        ⟨opens ▸ by decide, .token (closes ▸ by decide) (.here _)⟩
      exact (Holds.bare advances).around rfl
  | listed _ inner _ => exact ((inner.nests.later .step).longer .step).around rfl

theorem Cursor.Bodied.nests {role : ScopeRole} {name : String} {parameters : ParameterList}
    {info : ScopeInfo} {body : List Stmt}
    (bodied : Cursor.Bodied role name parameters info body cursor after) :
    cursor.Covers places after [.parameters parameters, .scope info body] := by
  cases bodied with
  | intro _ list inner => exact (list.nests.loose.append .refl inner.nests).later .step

theorem FunctionDecl.Runs.nests {decl : FunctionDecl} (runs : decl.Runs cursor after) :
    cursor.Covers places after [.function decl] := by
  cases runs with
  | typed _ _ inner => exact (inner.nests.later .step).around rfl
  | untyped inner => exact Holds.around inner.nests rfl

theorem StateMember.Runs.nests {member : StateMember} (runs : member.Runs cursor after) :
    cursor.Covers places after [member.node] := by
  cases runs with
  | handler inner =>
      cases inner with
      | intro inner => exact Holds.around inner.nests rfl
  | broken inside goes fails =>
      obtain ⟨reached, raises⟩ := Clause.Runs.carried (.onward places) fails
      refine .broken .handler
        (Cursor.abandoned_carried (.onward places) reached (raises _ rfl)) fun closed => ?_
      exact Cursor.abandoned_shorter fails.reaches closed goes
        (fun _ rest same => Parser.handler_skip_pos rest (same ▸ inside)) _

theorem StateMember.ListRuns.nests {members : List StateMember}
    (runs : StateMember.ListRuns members cursor after) :
    cursor.Spans places after (members.map StateMember.node) := by
  induction runs with
  | ended => exact .none
  | followed inner _ rest => exact inner.nests.loose.append .refl rest

theorem StateDecl.Runs.nests {decl : StateDecl} (runs : decl.Runs cursor after) :
    cursor.Covers places after [.state decl] := by
  cases runs with
  | @intro _ _ members _ opened last head _ inner closes =>
      have inside : opened.step.Spans places last (members.map StateMember.node) := inner.nests
      have whole := inside.later (head.passes.passes.onward.trans .step)
      exact (whole.closed closes (by decide)).around rfl

end

/-- What a script has more than another is a node that was read between two cursors. -/
def Script.Gains (places : List Position) (script : Script) (cursor : Cursor) (extended : Script)
    (after : Cursor) : Prop :=
  ∃ node, extended.children.Perm (node :: script.children) ∧ cursor.Covers places after [node]

theorem Script.gained {script extended : Script} {node : Node} (front back : List Node)
    (before : script.children = front ++ back) (after : extended.children = front ++ node :: back) :
    extended.children.Perm (node :: script.children) := by
  rw [before, after]
  exact List.perm_middle

/-- One of the nodes ends in front of the other. -/
def Node.Apart (first second : Node) : Prop :=
  first.span.stop.offset ≤ second.span.start.offset ∨
    second.span.stop.offset ≤ first.span.start.offset

theorem Node.Apart.symm {first second : Node} (apart : first.Apart second) : second.Apart first :=
  Or.symm apart

section

variable {places : List Position} {script grown : Script} {cursor after : Cursor}

theorem Script.gains_state {decl : StateDecl} (inner : cursor.Covers places after [.state decl]) :
    script.Gains places cursor { script with states := script.states ++ [decl] } after := by
  refine ⟨.state decl, ?_, inner⟩
  exact Script.gained (script.globals.map .global ++ script.functions.map .function ++
    script.defaultState.toList.map .state ++ script.states.map .state)
    (script.broken.map BrokenPart.node) (by simp [Script.children]) (by simp [Script.children])

theorem Script.Turns.gains (turns : script.Turns grown cursor after)
    (closed : cursor.close.kind = .endOfFile) : script.Gains places cursor grown after := by
  have onward := turns.carried (.onward places)
  have shorter := turns.shorter closed
  cases turns with
  | extended added =>
      cases added with
      | @function decl _ _ _ _ inner =>
          refine ⟨.function decl, ?_, inner.nests⟩
          exact Script.gained (script.globals.map .global ++ script.functions.map .function)
            (script.defaultState.toList.map .state ++ script.states.map .state ++
              script.broken.map BrokenPart.node) (by simp [Script.children])
            (by simp [Script.children])
      | @global span decl _ _ _ inner =>
          refine ⟨.global { span, decl }, ?_, inner.nests _ rfl rfl⟩
          exact Script.gained (script.globals.map .global) (script.functions.map .function ++
            script.defaultState.toList.map .state ++ script.states.map .state ++
              script.broken.map BrokenPart.node) (by simp [Script.children])
            (by simp [Script.children])
      | @default decl _ _ vacant _ inner =>
          refine ⟨.state decl, ?_, inner.nests⟩
          exact Script.gained (script.globals.map .global ++ script.functions.map .function)
            (script.states.map .state ++ script.broken.map BrokenPart.node)
            (by simp [Script.children, vacant]) (by simp [Script.children])
      | early _ _ inner =>
          exact Script.gains_state (inner.nests.later (Cursor.early_carried (.onward places)))
      | state _ inner => exact Script.gains_state inner.nests
  | @broken error _ failed _ _ =>
      let after := failed.abandoned (Parser.topLevelSkip 0 false) error
      let part : BrokenPart := ⟨after.brokenSpan cursor.start,
        if script.defaultState.isSome then .state else .globalDeclaration⟩
      have added : { script with broken := script.broken ++ [part] }.children =
          script.children ++ [part.node] := by simp [Script.children]
      refine ⟨part.node, ?_, .broken _ onward fun _ => shorter⟩
      exact added ▸ List.perm_append_singleton _ _

end

/-- What is in a script stands on all that was passed in its turns, each declaration on what was
passed in a turn of its own. -/
theorem Parser.Turn.nests {places : List Position} {start cursor : Cursor} {script : Script}
    (marked : start.Marked places) (turn : Turn start script cursor) :
    cursor.Marked places ∧ start.Further cursor ∧
      (∀ child ∈ script.children,
        Fills places start.start.offset cursor.stop.offset [child]) ∧
      script.children.Pairwise Node.Apart := by
  apply turn.invariant marked.closed
  · exact ⟨marked, .refl start, by simp [Script.children], by simp [Script.children]⟩
  · intro script grown cursor after closed before turns
    obtain ⟨remarked, further, filled, apart⟩ := before
    obtain ⟨node, gained, own⟩ := turns.gains closed
    obtain ⟨noted, more⟩ := turns.carried (.onward places) remarked
    have fills := own.fills remarked
    refine ⟨noted, further.trans more, ?_, ?_⟩
    · intro child member
      rcases List.mem_cons.mp (gained.mem_iff.mp member) with rfl | known
      · exact fills.widen further.start (Nat.le_refl _)
      · exact (filled child known).widen (Nat.le_refl _) more.stop
    · refine (gained.pairwise_iff fun apart => apart.symm).mpr
        (List.pairwise_cons.mpr ⟨?_, apart⟩)
      intro child known
      have before := (filled child known).alone.2.1
      have behind := fills.alone.1
      have moved := remarked.stop_le_start
      exact .inr (by omega)

/-- What is read of marked tokens spans what is inside of it, from the whole script down. -/
theorem parse_spanning {places : List Position} {tokens : List Token}
    (marked : (Cursor.ofTokens tokens).Marked places) :
    (Node.script (parse tokens).1).Throughout (Node.Spanning places) ∧
      ∀ error ∈ (parse tokens).2, error.span.Genuine places := by
  obtain ⟨script, last, turn, _, parsed⟩ := parse_last tokens
  obtain ⟨remarked, further, filled, _⟩ := turn.nests marked
  have forward : (Cursor.ofTokens tokens).start.offset ≤ last.stop.offset := further.stop
  rw [parsed]
  refine ⟨.intro ⟨remarked.spanned marked.start_mem forward, ?_, by simp [Node.isScript]⟩ ?_,
    remarked.errors⟩
  · intro child member
    have bounds := (filled child member).alone
    exact ⟨bounds.1, bounds.2.1⟩
  · intro child member
    exact (filled child member).spanning child (List.mem_singleton_self _)

theorem parse_apart {places : List Position} {tokens : List Token}
    (marked : (Cursor.ofTokens tokens).Marked places) :
    (parse tokens).1.children.Pairwise Node.Apart := by
  obtain ⟨script, last, turn, _, parsed⟩ := parse_last tokens
  rw [parsed]
  exact (turn.nests marked).2.2.2

end Lsl
