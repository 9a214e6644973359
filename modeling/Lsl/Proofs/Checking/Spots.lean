import Lsl.Proofs.Checking.CheckedBody

/-!
Spots in a body, each with the scopes around it and what is declared there so far. While a body is
checked without an error, the locals in view at a spot are those declared in front of it in the
scopes around it, and no two of them have one name.
-/

set_option autoImplicit false

namespace Lsl

/-- What is seen of a variable that a statement of a scope declares. -/
def Stmt.visible? (scope : Nat) : Stmt → Option Visible
  | .declare info decl => some ⟨decl.name, decl.type, .inScope info.span.start.offset scope⟩
  | _ => none

/-- A scope around a spot, by its number, with its statements in front of the spot. -/
structure Level where
  id : Nat
  front : List Stmt

namespace Level

/-- What is seen of the variables declared in a level, the latest first. -/
def visible (level : Level) : List Visible :=
  (level.front.filterMap (Stmt.visible? level.id)).reverse

def marked (reach : Reachability) (level : Level) : Level :=
  ⟨level.id, Stmt.listMarked reach level.front⟩

theorem visible_cons (id : Nat) (stmt : Stmt) (front : List Stmt) :
    visible ⟨id, stmt :: front⟩ = visible ⟨id, front⟩ ++ (stmt.visible? id).toList := by
  simp only [visible, List.filterMap_cons]
  cases stmt.visible? id <;> simp

end Level

/-- A spot in a body with the levels around it, from the innermost to the outermost, and the
statements behind it in the innermost. -/
inductive Spot : Nat → List Stmt → List Level → List Stmt → Prop where
  | here (id : Nat) (front back : List Stmt) : Spot id (front ++ back) [⟨id, front⟩] back
  | inside {id : Nat} {front : List Stmt} {stmt : Stmt} {rest : List Stmt} {part : CodeScope}
      {levels : List Level} {back : List Stmt} (member : part ∈ stmt.parts)
      (inner : Spot part.info.id part.body levels back) :
      Spot id (front ++ stmt :: rest) (levels ++ [⟨id, front⟩]) back

namespace Spot

theorem of_statement (id : Nat) {body : List Stmt} {stmt : Stmt}
    (inside : stmt ∈ Stmt.listStatements body) :
    ∃ levels back, Spot id body levels (stmt :: back) := by
  suffices general : ∀ front, ∃ levels back, Spot id (front ++ body) levels (stmt :: back) by
    exact general []
  intro front
  induction body using Stmt.list_induction generalizing id front with
  | nil => simp [Stmt.listStatements] at inside
  | cons head rest inner outer =>
      rcases Stmt.mem_list_statements_cons.mp inside with rfl | ⟨part, member, inside⟩ | inside
      · exact ⟨_, rest, .here id front (stmt :: rest)⟩
      · obtain ⟨levels, back, spot⟩ := inner part member part.info.id inside []
        exact ⟨_, back, .inside member spot⟩
      · have later := outer id inside (front ++ [head])
        rwa [List.append_assoc] at later

end Spot

namespace Stmt

theorem visible_marked (reach : Reachability) (scope : Nat) (stmt : Stmt) :
    (stmt.marked reach).visible? scope = stmt.visible? scope := by
  cases stmt <;> rfl

end Stmt

@[simp] theorem Level.visible_marked (reach : Reachability) (level : Level) :
    (level.marked reach).visible = level.visible := by
  simp only [visible, marked, Stmt.list_marked_eq, List.filterMap_map]
  exact congrArg List.reverse
    (List.filterMap_congr fun stmt _ => stmt.visible_marked reach level.id)

namespace Spot

variable {id : Nat} {body back : List Stmt} {levels : List Level}

theorem marked (reach : Reachability) (spot : Spot id body levels back) :
    Spot id (Stmt.listMarked reach body) (levels.map (Level.marked reach))
      (Stmt.listMarked reach back) := by
  induction spot with
  | here id front back =>
      have whole := Spot.here id (Stmt.listMarked reach front) (Stmt.listMarked reach back)
      simpa [Stmt.list_marked_eq, Level.marked] using whole
  | @inside id front stmt rest part levels back member inner induction =>
      have own : part.marked reach ∈ (stmt.marked reach).parts := by
        rw [Stmt.parts_marked]
        exact List.mem_map_of_mem member
      have whole : Spot id
          (Stmt.listMarked reach front ++ stmt.marked reach :: Stmt.listMarked reach rest)
          (levels.map (Level.marked reach) ++ [⟨id, Stmt.listMarked reach front⟩])
          (Stmt.listMarked reach back) := .inside own induction
      simpa [Stmt.list_marked_eq, Level.marked] using whole

theorem of_marked {reach : Reachability} {found : List Level} {behind : List Stmt}
    (spot : Spot id (Stmt.listMarked reach body) found behind) :
    ∃ levels back, Spot id body levels back ∧ found = levels.map (Level.marked reach) ∧
      behind = Stmt.listMarked reach back := by
  generalize whole : Stmt.listMarked reach body = marked at spot
  induction spot generalizing body with
  | here id front back =>
      rw [Stmt.list_marked_eq] at whole
      obtain ⟨first, second, rfl, rfl, rfl⟩ := List.map_eq_append_iff.mp whole
      exact ⟨_, _, .here id first second, by simp [Level.marked, Stmt.list_marked_eq],
        (Stmt.list_marked_eq _ _).symm⟩
  | @inside id front stmt rest part levels back member inner induction =>
      rw [Stmt.list_marked_eq] at whole
      obtain ⟨first, second, rfl, rfl, tail⟩ := List.map_eq_append_iff.mp whole
      obtain ⟨head, others, rfl, rfl, rfl⟩ := List.map_eq_cons_iff.mp tail
      rw [Stmt.parts_marked] at member
      obtain ⟨source, own, rfl⟩ := List.mem_map.mp member
      obtain ⟨inside, behind, spot, rfl, rfl⟩ := induction rfl
      exact ⟨_, _, .inside own spot, by simp [Level.marked, Stmt.list_marked_eq], rfl⟩

end Spot

@[simp] theorem Frame.owner_behind (frame : Frame) (stmt : Stmt) :
    (frame.behind stmt).owner = frame.owner := by
  unfold behind
  split
  · split <;> rfl
  · rfl

/-- What is met while a body is checked without an error. -/
structure Frame.Visits (frame : Frame) (body : List Stmt) : Prop where
  silent : (checkStmts frame body).Silent
  sound : Stmt.AllSound body
  labels : frame.Labels body
  distinct : (frame.view.locals.map (·.name)).Nodup

/-- A declaration that is checked without an error is in view from there on, under a name that no
other local has. -/
theorem check_declaration_visits {frame : Frame} {info : StmtInfo} {decl : Variable}
    (silent : (checkDeclaration frame info decl).Silent) :
    (checkDeclaration frame info decl).value = .declare info { decl with
        initializer :=
          (checkOption (checkInitializer frame.view decl.type) decl.initializer).value } ∧
      decl.name ∉ frame.view.locals.map (·.name) := by
  unfold checkDeclaration at silent ⊢
  simp only [Checked.silent_bind, Checked.value_bind] at silent ⊢
  have free := silent.2
  split at free
  · rename_i problem refused
    have error : problem.severity = .error := by
      unfold declarationProblem? at refused
      grind [Problem.severity]
    simp [error] at free
  · rename_i none
    refine ⟨rfl, ?_⟩
    unfold declarationProblem? at none
    simp only [List.mem_map, not_exists, not_and]
    intro found member same
    have repeated : frame.view.locals.any (·.name == decl.name) = true :=
      List.any_eq_true.mpr ⟨found, member, by simp [same]⟩
    simp only [repeated, if_true] at none
    split at none <;> cases none

namespace Frame.Visits

variable {frame : Frame} {stmt : Stmt} {rest : List Stmt} (visits : frame.Visits (stmt :: rest))

include visits

theorem head : (checkStmt frame stmt).Silent := by
  have silent := visits.silent
  simp only [checkStmts, Checked.silent_bind] at silent
  exact silent.1

theorem view_behind :
    (frame.behind (checkStmt frame stmt).value).view =
        { frame.view with
          locals := ((checkStmt frame stmt).value.visible? (frame.scopes.headD 0)).toList ++
            frame.view.locals } ∧
      ((frame.behind (checkStmt frame stmt).value).view.locals.map (·.name)).Nodup := by
  have keeps := (Stmt.keeps_check frame stmt).declaration
  have silent := visits.head
  have whole := (Stmt.has_errors_iff.mp visits.sound.head.clean).1
  have plain (none : stmt.declaration? = none) :
      (frame.behind (checkStmt frame stmt).value).view = frame.view ∧
        (checkStmt frame stmt).value.visible? (frame.scopes.headD 0) = .none := by
    rw [none] at keeps
    cases form : (checkStmt frame stmt).value with
    | declare info decl => simp [form, Stmt.declaration?] at keeps
    | _ => exact ⟨rfl, rfl⟩
  cases stmt with
  | declare info decl =>
      obtain ⟨form, fresh⟩ := check_declaration_visits silent
      have clean : info.faulty = false := whole
      rw [checkStmt, form]
      simp only [Frame.behind, clean, Bool.false_eq_true, if_false, View.declareLocal,
        Stmt.visible?, Option.toList_some, List.singleton_append, List.map_cons]
      exact ⟨trivial, List.nodup_cons.mpr ⟨fresh, visits.distinct⟩⟩
  | _ =>
      obtain ⟨view, none⟩ := plain rfl
      rw [view, none]
      exact ⟨rfl, visits.distinct⟩

theorem tail : (frame.behind (checkStmt frame stmt).value).Visits rest := by
  have silent := visits.silent
  simp only [checkStmts, Checked.silent_bind] at silent
  exact ⟨silent.2.1, visits.sound.tail, visits.labels.tail, visits.view_behind.2⟩

theorem part {part : CodeScope} (member : part ∈ stmt.parts) :
    (frame.enter part.info).Visits part.body :=
  ⟨Stmt.silent_parts visits.head part member, visits.sound.head.part member,
    visits.labels.part member, visits.distinct⟩

end Frame.Visits

theorem Frame.Visits.split {frame : Frame} {body front back : List Stmt} (visits : frame.Visits body)
    (split : (checkStmts frame body).value = front ++ back) :
    ∃ near rest, near.Visits rest ∧ back = (checkStmts near rest).value ∧
      near.view = { frame.view with
        locals := Level.visible ⟨frame.scopes.headD 0, front⟩ ++ frame.view.locals } ∧
      near.scopes = frame.scopes ∧ near.owner = frame.owner := by
  induction front generalizing frame body with
  | nil => exact ⟨frame, body, visits, split.symm, rfl, rfl, rfl⟩
  | cons stmt front induction =>
      cases body with
      | nil => cases split
      | cons source body =>
          obtain ⟨rfl, others⟩ := List.cons.inj split
          obtain ⟨near, rest, later, behind, view, scopes, owner⟩ := induction visits.tail others
          refine ⟨near, rest, later, behind, ?_, ?_, ?_⟩
          · rw [view, visits.view_behind.1, Frame.scopes_behind, Level.visible_cons,
              List.append_assoc]
          · rw [scopes, Frame.scopes_behind]
          · rw [owner, Frame.owner_behind]

theorem Frame.Visits.spot {id : Nat} {checked back : List Stmt} {levels : List Level}
    (spot : Spot id checked levels back) {frame : Frame} {body : List Stmt}
    (visits : frame.Visits body) (value : checked = (checkStmts frame body).value)
    (numbered : frame.scopes.headD 0 = id) :
    ∃ near rest, near.Visits rest ∧ back = (checkStmts near rest).value ∧
      near.view = { frame.view with
        locals := levels.flatMap Level.visible ++ frame.view.locals } ∧
      near.owner = frame.owner := by
  induction spot generalizing frame body with
  | here id front back =>
      obtain ⟨near, rest, later, behind, view, _, owner⟩ := visits.split value.symm
      refine ⟨near, rest, later, behind, ?_, owner⟩
      rw [view, numbered, List.flatMap_singleton]
  | @inside id front stmt rest part levels back member inner induction =>
      obtain ⟨near, others, later, behind, view, _, owner⟩ := visits.split value.symm
      cases others with
      | nil => cases behind
      | cons source others =>
          obtain ⟨rfl, _⟩ := List.cons.inj behind
          rw [Stmt.parts_check] at member
          obtain ⟨scope, own, rfl⟩ := List.mem_map.mp member
          obtain ⟨deep, left, further, same, seen, owned⟩ :=
            induction (later.part own) rfl rfl
          refine ⟨deep, left, further, same, ?_, owned.trans owner⟩
          rw [seen]
          simp only [Frame.enter, view, numbered, List.flatMap_append, List.flatMap_singleton,
            List.append_assoc]

theorem declare_parameters_distinct {library : Library} {declared : List Visible}
    {members : List ParameterDecl}
    (silent : (declareParameters library declared members).Silent)
    (distinct : (declared.map (·.name)).Nodup) :
    ((declared ++ members.map ParameterDecl.visible).map (·.name)).Nodup := by
  induction members generalizing declared with
  | nil => simpa using distinct
  | cons decl members induction =>
      simp only [declareParameters, Checked.silent_bind] at silent
      have free := report_at_silent (by grind [Problem.severity]) silent.1
      simp only [free, reportAt, Checked.value_pure, Bool.false_eq_true, if_false] at silent
      have fresh : decl.name ∉ declared.map (·.name) := by
        intro member
        obtain ⟨found, inside, same⟩ := List.mem_map.mp member
        have repeated : declared.any (·.name == decl.name) = true :=
          List.any_eq_true.mpr ⟨found, inside, by simp [same]⟩
        rw [if_pos repeated] at free
        split at free <;> cases free
      have extended : ((declared ++ [decl.visible]).map (·.name)).Nodup := by
        rw [List.map_append]
        exact nodup_extended distinct fresh
      simpa [ParameterDecl.visible] using induction silent.2.1 extended

/-- What is known of a spot in a checked body. The statements behind it are those that were checked
in view of what is declared around it, apart from marks. -/
structure Stmt.Seen (view : View) (owner : Owner) (parameters : ParameterList) (levels : List Level)
    (near : Frame) (rest back : List Stmt) : Prop where
  visits : near.Visits rest
  behind : listMarked .live back = listMarked .live (checkStmts near rest).value
  view : near.view = { view with
    locals := levels.flatMap Level.visible ++ parameters.members.map ParameterDecl.visible }
  owner : near.owner = owner

theorem CodeScope.Passed.seen {outlook : Outlook} {owner : Owner} {parameters : ParameterList}
    {code : CodeScope} (passed : code.Passed outlook owner parameters) {levels : List Level}
    {back : List Stmt} (spot : Spot code.info.id code.body levels back) :
    ∃ near rest, Stmt.Seen outlook.view owner parameters levels near rest back := by
  obtain ⟨_, _, sound, silent⟩ := passed
  simp only [checkBody, Checked.silent_bind] at silent
  obtain ⟨labelled, declared, ⟨checked, _⟩, _⟩ := silent
  have labels := declare_labels_silent labelled (by simp)
  have names := declare_parameters_silent declared
  have distinct := declare_parameters_distinct declared (by simp)
  simp only [List.nil_append] at labels names distinct
  simp only [checkBody, Checked.value_bind, Checked.value_pure, value_close_scope] at spot
  simp only [labels, names] at checked spot
  -- Settling changes marks alone, so the spot is one of the body as it was checked.
  have marked := spot.marked .live
  rw [settleBody, Stmt.list_marked_settle] at marked
  obtain ⟨found, behind, place, same, equal⟩ := marked.of_marked
  obtain ⟨near, rest, visits, rfl, view, owned⟩ := Frame.Visits.spot place
    ⟨checked, sound, fun label member => find_label labels.2 member, distinct⟩ rfl rfl
  refine ⟨near, rest, visits, equal, ?_, owned⟩
  have visible : levels.flatMap Level.visible = found.flatMap Level.visible := by
    have joined := congrArg (List.flatMap Level.visible) same
    simpa [List.flatMap_map] using joined
  rw [view, visible]

theorem Stmt.Seen.head {view : View} {owner : Owner} {parameters : ParameterList}
    {levels : List Level} {near : Frame} {rest back : List Stmt} {stmt : Stmt}
    (seen : Seen view owner parameters levels near rest (stmt :: back)) :
    ∃ source, (checkStmt near source).Silent ∧ source.Sound ∧
      (∀ label ∈ source.labels (near.scopes.headD 0), near.label? label.name = some label) ∧
      stmt.marked .live = (checkStmt near source).value.marked .live := by
  cases rest with
  | nil => cases seen.behind
  | cons source rest =>
      refine ⟨source, seen.visits.head, seen.visits.sound.head, ?_, (List.cons.inj seen.behind).1⟩
      exact fun label member => seen.visits.labels label (List.mem_append_left _ member)

end Lsl
