import Lsl.Proofs.Parsing.Turns
import Lsl.Proofs.Syntax.Bodies

/-!
The numbers of code scopes. A reader takes up numbers in the order in which scopes open, and a number
that was taken is not given again, also where the scope it was taken for could not be read. So no two
scopes of a script have one number, whatever its tokens are and wherever they stand. Each number costs
a token, so that the numbers do not run out before the tokens do.
-/

set_option autoImplicit false

namespace Lsl

/-- Numbers in order between two bounds. -/
structure Rising (low high : Nat) (values : List Nat) : Prop where
  ordered : values.Pairwise (· < ·)
  within : ∀ value ∈ values, low ≤ value ∧ value < high

namespace Rising

variable {low middle high : Nat} {first second : List Nat}

theorem nil : Rising low high [] := ⟨.nil, by simp⟩

theorem widen {lower upper : Nat} (rising : Rising low high first) (below : lower ≤ low)
    (above : high ≤ upper) : Rising lower upper first := by
  refine ⟨rising.ordered, ?_⟩
  intro value member
  have bounds := rising.within value member
  omega

theorem append (front : Rising low middle first) (back : Rising middle high second)
    (below : low ≤ middle) (above : middle ≤ high) : Rising low high (first ++ second) := by
  refine ⟨List.pairwise_append.mpr ⟨front.ordered, back.ordered, ?_⟩, ?_⟩
  · intro left leftMember right rightMember
    have leftBounds := front.within left leftMember
    have rightBounds := back.within right rightMember
    omega
  · intro value member
    rcases List.mem_append.mp member with member | member
    · have bounds := front.within value member
      omega
    · have bounds := back.within value member
      omega

theorem cons {value : Nat} (rest : Rising (value + 1) high first) (below : value < high) :
    Rising value high (value :: first) := by
  refine ⟨List.pairwise_cons.mpr ⟨?_, rest.ordered⟩, ?_⟩
  · intro other member
    have bounds := rest.within other member
    omega
  · intro other member
    rcases List.mem_cons.mp member with rfl | member
    · omega
    · have bounds := rest.within other member
      omega

theorem length_le (rising : Rising low high first) (bounds : low ≤ high) :
    low + first.length ≤ high := by
  induction first generalizing low with
  | nil => exact bounds
  | cons value rest induction =>
      have own := rising.within value List.mem_cons_self
      have behind := List.pairwise_cons.mp rising.ordered
      have others : Rising (value + 1) high rest :=
        ⟨behind.2, fun other member =>
          ⟨behind.1 other member, (rising.within other (List.mem_cons_of_mem _ member)).2⟩⟩
      have fewer := induction others own.2
      rw [List.length_cons]
      omega

end Rising

/-- Numbers in any order, each of them once, between two bounds. -/
structure Spread (low high : Nat) (values : List Nat) : Prop where
  distinct : values.Nodup
  within : ∀ value ∈ values, low ≤ value ∧ value < high

namespace Spread

variable {low middle high : Nat} {first second : List Nat}

theorem nil : Spread low high [] := ⟨.nil, by simp⟩

theorem single {value : Nat} (above : low ≤ value) (below : value < high) :
    Spread low high [value] :=
  ⟨List.nodup_singleton _, by simpa using ⟨above, below⟩⟩

theorem append (front : Spread low middle first) (back : Spread middle high second)
    (below : low ≤ middle) (above : middle ≤ high) : Spread low high (first ++ second) := by
  refine ⟨List.nodup_append.mpr ⟨front.distinct, back.distinct, ?_⟩, ?_⟩
  · intro left leftMember right rightMember
    have leftBounds := front.within left leftMember
    have rightBounds := back.within right rightMember
    omega
  · intro value member
    rcases List.mem_append.mp member with member | member
    · have bounds := front.within value member
      omega
    · have bounds := back.within value member
      omega

theorem perm (spread : Spread low high first) (same : first.Perm second) :
    Spread low high second :=
  ⟨same.nodup spread.distinct, fun value member => spread.within value (same.mem_iff.mpr member)⟩

end Spread

theorem Rising.spread {low high : Nat} {values : List Nat} (rising : Rising low high values) :
    Spread low high values :=
  ⟨rising.ordered.imp Nat.ne_of_lt, rising.within⟩

/-- The numbers of a scope and of those in it. -/
def CodeScope.ids (scope : CodeScope) : List Nat := scope.info.id :: Stmt.listIds scope.body

def StateDecl.scopeIds (decl : StateDecl) : List Nat := decl.bodies.flatMap CodeScope.ids

/-- The numbers of the code scopes of a script. -/
def Script.scopeIds (script : Script) : List Nat := script.bodies.flatMap CodeScope.ids

theorem Stmt.list_ids_single (stmt : Stmt) :
    Stmt.listIds [stmt] = stmt.parts.flatMap CodeScope.ids := by
  rw [Stmt.list_ids_cons]
  exact List.append_nil _

theorem Cursor.next_scope_step (cursor : Cursor) : cursor.step.nextScope = cursor.nextScope := by
  cases ahead : cursor.ahead <;> simp [step, ahead]

theorem Cursor.Carries.numbers :
    Carries fun cursor after => cursor.nextScope ≤ after.nextScope where
  refl _ := Nat.le_refl _
  trans := Nat.le_trans
  step cursor := Nat.le_of_eq cursor.next_scope_step.symm
  numbered _ := Nat.le_succ _
  reported below _ := below

/-- The numbers of the scopes that are read. -/
def Clause.ids : Clause → List Nat
  | statement stmt | turn stmt => Stmt.listIds [stmt]
  | scope _ info inside | body _ info inside => CodeScope.ids ⟨info, inside⟩
  | statements inside => Stmt.listIds inside
  | alternatives rest => rest.parts.flatMap CodeScope.ids
  | begun | failure _ => []

namespace Clause.Runs

variable {clause : Clause} {cursor after : Cursor}

theorem next_le (runs : clause.Runs cursor after) : cursor.nextScope ≤ after.nextScope :=
  (runs.carried .numbers).1

/-- The scopes are numbered in the order in which they open. -/
theorem numbers (runs : clause.Runs cursor after) :
    Rising cursor.nextScope after.nextScope clause.ids := by
  have step (place : Cursor) : place.nextScope ≤ place.step.nextScope :=
    Cursor.Carries.numbers.step place
  have phrase {phrase : Phrase} {place last : Cursor} (inner : phrase.Runs place last) :
      place.nextScope ≤ last.nextScope := inner.passes.carried .numbers
  -- A scope takes its number in front of those inside it.
  have opened {info : ScopeInfo} {inside : List Stmt} {place last : Cursor}
      (number : info.id = place.nextScope) (below : place.numbered.nextScope ≤ last.nextScope)
      (rising : Rising place.numbered.nextScope last.nextScope (Stmt.listIds inside)) :
      Rising place.nextScope last.nextScope (CodeScope.ids ⟨info, inside⟩) := by
    rw [CodeScope.ids, number]
    exact rising.cons below
  have statement {stmt : Stmt} {low high : Nat}
      (rising : Rising low high (stmt.parts.flatMap CodeScope.ids)) :
      Rising low high (Stmt.listIds [stmt]) := by
    rw [Stmt.list_ids_single]
    exact rising
  induction runs with
  | plain inner =>
      refine statement ?_
      rw [inner.alone.1]
      exact .nil
  | block _ inner => exact statement (by simpa [Stmt.parts, ids] using inner)
  | branch _ test inner others body rest =>
      have front := Nat.le_trans (step _) (phrase test)
      have whole := body.append rest inner.next_le others.next_le
      exact statement (by simpa [Stmt.parts, ids] using whole.widen front (Nat.le_refl _))
  | whileLoop _ test _ body =>
      have whole := body.widen (Nat.le_trans (step _) (phrase test)) (Nat.le_refl _)
      exact statement (by simpa [Stmt.parts, ids] using whole)
  | doLoop _ _ _ test _ body =>
      have back := Nat.le_trans (step _) (Nat.le_trans (phrase test) (step _))
      exact statement (by simpa [Stmt.parts, ids] using body.widen (step _) back)
  | forLoop _ clauses _ body =>
      have whole := body.widen (Nat.le_trans (step _) (phrase clauses)) (Nat.le_refl _)
      exact statement (by simpa [Stmt.parts, ids] using whole)
  | scope _ inner _ body => exact (opened rfl inner.next_le body).widen (step _) (step _)
  | followed _ _ inner others first rest =>
      have whole := first.append rest inner.next_le others.next_le
      rw [ids, ids, Stmt.list_ids_single] at whole
      rw [ids, Stmt.list_ids_cons]
      exact whole
  | read _ inner | braced _ inner => exact inner
  | single _ inner body => exact opened rfl inner.next_le body
  | elseIf _ _ test inner others body rest =>
      have front := Nat.le_trans (step _) (Nat.le_trans (step _) (phrase test))
      have whole := body.append rest inner.next_le others.next_le
      simpa [Alternatives.parts, ids] using whole.widen front (Nat.le_refl _)
  | otherwise _ _ body =>
      simpa [Alternatives.parts, ids] using body.widen (step _) (Nat.le_refl _)
  | _ => exact .nil

end Clause.Runs

/-- Between the cursors each number costs a token, and so many tokens are left over. -/
def Cursor.Spends (cursor after : Cursor) (spare : Nat) : Prop :=
  cursor.close.kind = .endOfFile → after.close = cursor.close ∧
    after.nextScope + after.ahead.length + spare ≤ cursor.nextScope + cursor.ahead.length

namespace Cursor.Spends

variable {cursor middle failed after : Cursor} {spare more : Nat}

theorem refl (cursor : Cursor) : cursor.Spends cursor 0 := fun _ => ⟨rfl, Nat.le_refl _⟩

theorem trans (front : cursor.Spends middle spare) (back : middle.Spends after more) :
    cursor.Spends after (spare + more) := by
  intro closed
  obtain ⟨same, first⟩ := front closed
  obtain ⟨again, second⟩ := back (same ▸ closed)
  exact ⟨again.trans same, by omega⟩

theorem fewer (spends : cursor.Spends after spare) (less : more ≤ spare) :
    cursor.Spends after more := by
  intro closed
  obtain ⟨same, spent⟩ := spends closed
  exact ⟨same, by omega⟩

theorem token {kind : TokenKind} (found : cursor.kind = kind) (goes : kind ≠ .endOfFile) :
    cursor.Spends cursor.step 1 := by
  intro closed
  have shorter := length_step_lt closed (found ▸ goes)
  have same := cursor.next_scope_step
  exact ⟨cursor.reaches_step.close, by omega⟩

theorem passes (passed : cursor.Passes after) : cursor.Spends after 0 := by
  induction passed with
  | here => exact refl _
  | token plain _ rest => exact ((token rfl plain.2.2).trans rest).fewer (Nat.zero_le _)

theorem advances (further : cursor.Advances after) : cursor.Spends after 1 :=
  (token rfl further.1.2.2).trans (passes further.2)

theorem numbered (spends : cursor.Spends after (spare + 1)) : cursor.Spends after.numbered spare := by
  intro closed
  obtain ⟨same, spent⟩ := spends closed
  refine ⟨same, ?_⟩
  simp only [Cursor.numbered]
  omega

/-- A number is taken for what follows, which pays for it. -/
theorem behind_numbered (spends : cursor.numbered.Spends after (spare + 1)) :
    cursor.Spends after spare := by
  intro closed
  obtain ⟨same, spent⟩ := spends closed
  refine ⟨same, ?_⟩
  simp only [Cursor.numbered] at spent
  omega

theorem reported (cursor : Cursor) (error : SyntaxError) : cursor.Spends (cursor.reported error) 0 :=
  fun _ => ⟨rfl, Nat.le_refl _⟩

theorem skip (cursor : Cursor) (count : Nat) : cursor.Spends (cursor.skip count) 0 := by
  induction count generalizing cursor with
  | zero => exact refl cursor
  | succ count induction =>
      have stepped : cursor.Spends cursor.step 0 := by
        intro _
        have reaches := cursor.reaches_step
        have shorter := reaches.ahead.length_le
        have same := cursor.next_scope_step
        exact ⟨reaches.close, by omega⟩
      exact stepped.trans (induction cursor.step)

theorem abandoned {skipped : List Token → Nat} {error : SyntaxError}
    (spends : cursor.Spends failed spare) : cursor.Spends (failed.abandoned skipped error) 0 :=
  ((spends.trans (reported failed error)).trans (skip _ _)).fewer (Nat.zero_le _)

theorem faults {error : SyntaxError} (faults : cursor.Faults error failed) :
    cursor.Spends failed 0 := by
  cases faults with
  | missed passed => exact passes passed
  | unnamed passed plain => exact passes (passed.step plain)
  | refused passed runs => exact (passes passed).trans (passes runs.passes)

end Cursor.Spends

/-- A statement and a scope have a token to spare. -/
def Clause.spare : Clause → Nat
  | statement _ | scope _ _ _ => 1
  | _ => 0

theorem Clause.Runs.spends {clause : Clause} {cursor after : Cursor}
    (runs : clause.Runs cursor after) : cursor.Spends after clause.spare := by
  have word {place : Cursor} {kind : TokenKind} (found : place.kind = kind)
      (goes : kind ≠ .endOfFile) : place.Spends place.step 1 := .token found goes
  have phrase {phrase : Phrase} {place last : Cursor} (inner : phrase.Runs place last) :
      place.Spends last 0 := .passes inner.passes
  induction runs with
  | plain inner => exact .advances inner.moves
  | block _ inner => exact inner
  | branch begun test _ _ inner others =>
      exact (word begun (by decide)).trans ((phrase test).trans (inner.trans others))
  | whileLoop begun test _ inner =>
      exact (word begun (by decide)).trans ((phrase test).trans inner)
  | doLoop begun _ again test ends inner =>
      have back := (word again (by decide)).trans ((phrase test).trans (word ends (by decide)))
      exact ((word begun (by decide)).trans (inner.trans back)).fewer (Nat.le_add_right 1 _)
  | forLoop begun clauses _ inner =>
      exact (word begun (by decide)).trans ((phrase clauses).trans inner)
  | scope opens _ closes inner =>
      exact (word opens (by decide)).numbered.trans (inner.trans (word closes (by decide)))
  | ended | done | here => exact .refl _
  | followed _ _ _ _ inner others => exact inner.trans others
  | read _ inner => exact inner.fewer (Nat.zero_le _)
  | broken _ _ _ inner => exact inner.abandoned
  | braced _ inner => exact inner.fewer (Nat.zero_le _)
  | single _ _ inner => exact inner.behind_numbered
  | elseIf begun again test _ _ inner others =>
      have front := (word begun (by decide)).trans (word again (by decide))
      exact (front.trans ((phrase test).trans (inner.trans others))).fewer (Nat.zero_le _)
  | otherwise begun _ inner =>
      exact ((word begun (by decide)).trans inner).fewer (Nat.zero_le _)
  | passed front _ rest => exact (Cursor.Spends.passes front).trans rest
  | numbered front _ rest => exact (Cursor.Spends.advances front).numbered.trans rest
  | part _ _ inner rest => exact inner.trans rest
  | fault _ faults front => exact front.trans (.faults faults)
  | unclosed _ opens _ _ front inner =>
      exact front.trans ((word opens (by decide)).numbered.trans inner)

/-- A script has the numbers of another, and these. -/
def Script.Numbers (script grown : Script) (ids : List Nat) : Prop :=
  (script.scopeIds ++ ids).Perm grown.scopeIds

namespace Script

variable (script : Script)

theorem numbers_function (decl : FunctionDecl) :
    script.Numbers { script with functions := script.functions ++ [decl] } decl.ownScope.ids := by
  rw [Numbers, List.perm_iff_count]
  intro id
  simp only [scopeIds, bodies, List.map_append, List.map_cons, List.map_nil, List.flatMap_append,
    List.flatMap_cons, List.flatMap_nil, List.count_append, List.count_nil]
  omega

theorem numbers_state (decl : StateDecl) :
    script.Numbers { script with states := script.states ++ [decl] } decl.scopeIds := by
  rw [Numbers, List.perm_iff_count]
  intro id
  simp only [scopeIds, StateDecl.scopeIds, bodies, List.flatMap_append, List.flatMap_cons,
    List.flatMap_nil, List.count_append, List.count_nil]
  omega

theorem numbers_default (vacant : script.defaultState = none) (decl : StateDecl) :
    script.Numbers { script with defaultState := some decl } decl.scopeIds := by
  rw [Numbers, List.perm_iff_count]
  intro id
  simp only [scopeIds, StateDecl.scopeIds, bodies, vacant, Option.toList_none, Option.toList_some,
    List.flatMap_append, List.flatMap_cons, List.flatMap_nil, List.count_append, List.count_nil]
  omega

end Script

section

variable {cursor after : Cursor}

theorem Cursor.Bodied.numbers {role : ScopeRole} {name : String} {parameters : ParameterList}
    {info : ScopeInfo} {body : List Stmt}
    (bodied : Cursor.Bodied role name parameters info body cursor after) :
    Rising cursor.nextScope after.nextScope (CodeScope.ids ⟨info, body⟩) := by
  cases bodied with
  | intro _ list inner =>
      have front := Nat.le_trans (Cursor.Carries.numbers.step cursor) (list.passes.carried .numbers)
      exact inner.numbers.widen front (Nat.le_refl _)

theorem FunctionDecl.Runs.numbers {decl : FunctionDecl} (runs : decl.Runs cursor after) :
    Rising cursor.nextScope after.nextScope decl.ownScope.ids := by
  cases runs with
  | typed _ _ inner =>
      exact inner.numbers.widen (Cursor.Carries.numbers.step cursor) (Nat.le_refl _)
  | untyped inner => exact inner.numbers

theorem StateMember.ListRuns.numbers {members : List StateMember}
    (runs : StateMember.ListRuns members cursor after) :
    Rising cursor.nextScope after.nextScope
      ((members.filterMap StateMember.body?).flatMap CodeScope.ids) := by
  induction runs with
  | ended => exact .nil
  | followed inner others rest =>
      have first := inner.carried .numbers
      cases inner with
      | handler inner =>
          cases inner with
          | intro inner => exact inner.numbers.append rest first (others.carried .numbers)
      | broken => exact rest.widen first (Nat.le_refl _)

theorem StateDecl.Runs.numbers {decl : StateDecl} (runs : decl.Runs cursor after) :
    Rising cursor.nextScope after.nextScope decl.scopeIds := by
  cases runs with
  | intro head _ inner _ =>
      have step (place : Cursor) : place.nextScope ≤ place.step.nextScope :=
        Cursor.Carries.numbers.step place
      have front := Nat.le_trans (head.passes.passes.carried .numbers) (step _)
      exact inner.numbers.widen front (step _)

/-- A turn takes numbers for the scopes that it adds. -/
theorem Script.Turns.numbers {script grown : Script} (turns : script.Turns grown cursor after) :
    ∃ ids, Rising cursor.nextScope after.nextScope ids ∧ script.Numbers grown ids := by
  have none {other : Script} (same : other.bodies = script.bodies) : script.Numbers other [] := by
    rw [Numbers, scopeIds, scopeIds, same, List.append_nil]
  cases turns with
  | extended added =>
      cases added with
      | function _ _ inner => exact ⟨_, inner.numbers, script.numbers_function _⟩
      | global => exact ⟨[], .nil, none rfl⟩
      | default vacant _ inner => exact ⟨_, inner.numbers, script.numbers_default vacant _⟩
      | early _ _ inner => exact ⟨_, inner.numbers, script.numbers_state _⟩
      | state _ inner => exact ⟨_, inner.numbers, script.numbers_state _⟩
  | broken => exact ⟨[], .nil, none rfl⟩

theorem Cursor.Bodied.spends {role : ScopeRole} {name : String} {parameters : ParameterList}
    {info : ScopeInfo} {body : List Stmt}
    (bodied : Cursor.Bodied role name parameters info body cursor after) : cursor.Spends after 0 := by
  cases bodied with
  | intro name list inner =>
      have front := (Cursor.Spends.token name (by decide)).trans (.passes list.passes)
      exact (front.trans inner.spends).fewer (Nat.zero_le _)

theorem FunctionDecl.Runs.spends {decl : FunctionDecl} (runs : decl.Runs cursor after) :
    cursor.Spends after 0 := by
  cases runs with
  | typed word _ inner =>
      exact ((Cursor.Spends.token word (by decide)).trans inner.spends).fewer (Nat.zero_le _)
  | untyped inner => exact inner.spends

theorem StateMember.ListRuns.spends {members : List StateMember}
    (runs : StateMember.ListRuns members cursor after) : cursor.Spends after 0 := by
  induction runs with
  | ended => exact .refl _
  | followed inner _ rest =>
      cases inner with
      | handler inner =>
          cases inner with
          | intro inner => exact inner.spends.trans rest
      | broken _ _ fails => exact (Clause.Runs.spends fails).abandoned.trans rest

theorem StateDecl.Runs.spends {decl : StateDecl} (runs : decl.Runs cursor after) :
    cursor.Spends after 0 := by
  cases runs with
  | intro head opens inner closes =>
      have front := (Cursor.Spends.passes head.passes.passes).trans (.token opens (by decide))
      exact (front.trans (inner.spends.trans (.token closes (by decide)))).fewer (Nat.zero_le _)

theorem Cursor.Breaks.spends {error : SyntaxError} (breaks : cursor.Breaks error after) :
    cursor.Spends after 0 := by
  cases breaks with
  | inside fails => exact Clause.Runs.spends fails
  | unclosed passed opens inner _ =>
      have front := (Cursor.Spends.passes passed).trans (.token opens (by decide))
      exact (front.trans inner.spends).fewer (Nat.zero_le _)

theorem Script.Turns.spends {script grown : Script} (turns : script.Turns grown cursor after) :
    cursor.Spends after 0 := by
  cases turns with
  | extended added =>
      cases added with
      | function _ _ inner => exact inner.spends
      | global _ inner => exact .passes inner.passes
      | default _ _ inner => exact inner.spends
      | early _ _ inner => exact (Cursor.Spends.reported cursor _).trans inner.spends
      | state _ inner => exact inner.spends
  | broken _ undone =>
      cases undone with
      | plain breaks => exact breaks.spends.abandoned
      | early _ _ breaks => exact ((Cursor.Spends.reported cursor _).trans breaks.spends).abandoned

/-- After any turn the scopes of a script have numbers of their own, and as many tokens are spent. -/
theorem Parser.Turn.numbered {start : Cursor} {script : Script}
    (closed : start.close.kind = .endOfFile) (turn : Turn start script cursor) :
    start.nextScope ≤ cursor.nextScope ∧ start.Spends cursor 0 ∧
      Spread start.nextScope cursor.nextScope script.scopeIds := by
  apply turn.invariant closed
  · exact ⟨Nat.le_refl _, .refl start, .nil⟩
  · intro script grown cursor after _ before turns
    obtain ⟨below, spends, spread⟩ := before
    obtain ⟨ids, rising, numbers⟩ := turns.numbers
    have further := turns.carried .numbers
    refine ⟨Nat.le_trans below further, spends.trans turns.spends, ?_⟩
    exact (spread.append rising.spread below further).perm numbers

end

/-- The code scopes of a script have numbers of their own, from the first that is given out, and no
more of them than the script has tokens. -/
theorem parse_numbered (tokens : List Token) :
    Spread 1024 (1024 + tokens.length) (parse tokens).1.scopeIds := by
  obtain ⟨script, last, turn, _, parsed⟩ := parse_last tokens
  have closed := (Cursor.closed_of_tokens tokens).close
  obtain ⟨_, spends, spread⟩ := turn.numbered closed
  have spent := (spends closed).2
  have shorter : (Cursor.ofTokens tokens).ahead.length ≤ tokens.length :=
    (List.takeWhile_prefix _).length_le
  rw [parsed]
  refine ⟨spread.distinct, fun id member => ?_⟩
  have bounds := spread.within id member
  have first : (Cursor.ofTokens tokens).nextScope = 1024 := rfl
  omega

end Lsl
