import Lsl.Syntax.Uses

/-!
Which statements of a body can be reached, and whether a body always returns.

Behind a statement that leaves its scope everything is dead until a label that some jump goes to.
While the label of a forward jump is still to come, dead code counts as jumped over: its
declarations may be needed behind the label.
-/

set_option autoImplicit false

namespace Lsl

mutual

def Stmt.marked (reach : Reachability) : Stmt → Stmt
  | .block scope body => .block { scope with reach } (Stmt.listMarked reach body)
  | .declare info decl => .declare { info with reach } decl
  | .perform info value => .perform { info with reach } value
  | .giveBack info value => .giveBack { info with reach } value
  | .jump info label target => .jump { info with reach } label target
  | .label info name => .label { info with reach } name
  | .changeState info state target => .changeState { info with reach } state target
  | .branch info first condition scope body rest =>
    .branch { info with reach } first condition { scope with reach } (Stmt.listMarked reach body)
      (rest.marked reach)
  | .whileLoop info condition scope body =>
    .whileLoop { info with reach } condition { scope with reach } (Stmt.listMarked reach body)
  | .doLoop info scope body condition =>
    .doLoop { info with reach } { scope with reach } (Stmt.listMarked reach body) condition
  | .forLoop info init condition afterthought scope body =>
    .forLoop { info with reach } init condition afterthought { scope with reach }
      (Stmt.listMarked reach body)
  | .empty info => .empty { info with reach }
  | .broken span => .broken span

def Stmt.listMarked (reach : Reachability) : List Stmt → List Stmt
  | [] => []
  | stmt :: rest => stmt.marked reach :: Stmt.listMarked reach rest

def Alternatives.marked (reach : Reachability) : Alternatives → Alternatives
  | .done => .done
  | .elseIf span condition scope body rest =>
    .elseIf span condition { scope with reach } (Stmt.listMarked reach body) (rest.marked reach)
  | .otherwise span scope body =>
    .otherwise span { scope with reach } (Stmt.listMarked reach body)

end

/-- How far the statements of a scope have been followed: whether the last of them was left, the
labels of forward jumps that are still to come, and the dead code since then. -/
structure Flow where
  dead : Bool := false
  pending : List Nat := []
  region : Option Span := none
deriving DecidableEq, Inhabited, Repr

namespace Flow

/-- A label that was jumped over is no longer to come once it is met. -/
def meet (flow : Flow) (start : Nat) : Flow :=
  { flow with pending := flow.pending.filter (· ≠ start) }

def reach (flow : Flow) : Reachability :=
  if flow.pending.isEmpty then .dead else .jumpedOver

def extend (flow : Flow) (span : Span) : Flow :=
  match flow.region with
  | some region => { flow with region := some (region.merge span) }
  | none => { flow with region := some span }

/-- The flow behind a live statement. Only a jump to a label further down, in a scope around the
jump, leaves code to be jumped over. -/
def leave (flow : Flow) : Stmt → Flow
  | .giveBack _ _ => { flow with dead := true }
  | .changeState _ _ _ => { flow with dead := true }
  | .jump info _ (some target) =>
    if target.label > info.span.start.offset ∧ target.inReach then
      { flow with dead := true, pending := target.label :: flow.pending }
    else { flow with dead := true }
  | .jump _ _ none => { flow with dead := true }
  | _ => flow

end Flow

def Stmt.isTarget (targets : List Nat) : Stmt → Bool
  | .label info _ => targets.contains info.span.start.offset
  | _ => false

mutual

/-- Marks the dead statements inside a live one, and gives their regions. -/
def Stmt.settle (targets : List Nat) : Stmt → Stmt × List Span
  | .block scope body =>
    let (body, regions) := Stmt.listSettle targets {} body
    (.block scope body, regions)
  | .branch info first condition scope body rest =>
    let (body, regions) := Stmt.listSettle targets {} body
    let (rest, more) := rest.settle targets
    (.branch info first condition scope body rest, regions ++ more)
  | .whileLoop info condition scope body =>
    let (body, regions) := Stmt.listSettle targets {} body
    (.whileLoop info condition scope body, regions)
  | .doLoop info scope body condition =>
    let (body, regions) := Stmt.listSettle targets {} body
    (.doLoop info scope body condition, regions)
  | .forLoop info init condition afterthought scope body =>
    let (body, regions) := Stmt.listSettle targets {} body
    (.forLoop info init condition afterthought scope body, regions)
  | stmt => (stmt, [])

/-- Marks the dead statements of a scope, and gives the regions of dead code. -/
def Stmt.listSettle (targets : List Nat) (flow : Flow) : List Stmt → List Stmt × List Span
  | [] => ([], flow.region.toList)
  | stmt :: rest =>
    let flow := flow.meet stmt.start
    if flow.dead then
      if stmt.isTarget targets then
        let (rest, regions) := Stmt.listSettle targets { pending := flow.pending } rest
        (stmt :: rest, flow.region.toList ++ regions)
      else
        let (rest, regions) := Stmt.listSettle targets (flow.extend stmt.span) rest
        (stmt.marked flow.reach :: rest, regions)
    else
      let (settled, inner) := stmt.settle targets
      let (rest, regions) := Stmt.listSettle targets (flow.leave stmt) rest
      (settled :: rest, inner ++ regions)

def Alternatives.settle (targets : List Nat) : Alternatives → Alternatives × List Span
  | .done => (.done, [])
  | .elseIf span condition scope body rest =>
    let (body, regions) := Stmt.listSettle targets {} body
    let (rest, more) := rest.settle targets
    (.elseIf span condition scope body rest, regions ++ more)
  | .otherwise span scope body =>
    let (body, regions) := Stmt.listSettle targets {} body
    (.otherwise span scope body, regions)

end

/-- The body of a function or handler with its dead statements marked, and the regions they
form. -/
def settleBody (body : List Stmt) : List Stmt × List Span :=
  Stmt.listSettle ((Stmt.listUses body).map (·.declaration)) {} body

mutual

/-- Every way through a live statement ends in a return. -/
def Stmt.returns : Stmt → Bool
  | .giveBack info _ => info.reach == .live
  | .block scope body => scope.reach == .live && Stmt.anyReturns body
  | .branch info _ _ _ body rest =>
    info.reach == .live && Stmt.anyReturns body && rest.returns
  | _ => false

/-- Some statement returns, so that no way leads past it. -/
def Stmt.anyReturns : List Stmt → Bool
  | [] => false
  | stmt :: rest => stmt.returns || Stmt.anyReturns rest

def Alternatives.returns : Alternatives → Bool
  | .done => false
  | .elseIf _ _ _ body rest => Stmt.anyReturns body && rest.returns
  | .otherwise _ _ body => Stmt.anyReturns body

end

end Lsl
