import Lsl.Proofs.Checking.Acceptance

/-!
Where the names of a checked script come from. Whatever the library is like, nothing is at fault in a
script that is checked without an error; a call of one of its functions goes by the name of a function
of the script, and a global goes by the name of one that is in view: of one in front, where another
global is given its first value.
-/

set_option autoImplicit false

namespace Lsl

/-- A name that stands for a global stands for one in view, and a call for a function. -/
def Expr.IsRooted (view : View) : Expr → Prop
  | .reference _ name (.global start) =>
    ∃ found ∈ view.globals, found.name = name ∧ found.binding = .global start
  | .call _ name _ _ target => target.IsDrawn view name
  | _ => True

/-- A node that nothing is wrong with, known by what is seen in all of a body. -/
structure Expr.Traced (view : View) (node : Expr) : Prop where
  firm : node.Firm
  rooted : node.IsRooted view

theorem Expr.Traced.widen {base view : View} {node : Expr} (traced : node.Traced base)
    (library : view.library = base.library) (functions : view.functions = base.functions)
    (globals : base.globals ⊆ view.globals) : node.Traced view := by
  refine ⟨traced.firm, ?_⟩
  have rooted := traced.rooted
  cases node with
  | reference info name binding =>
      cases binding with
      | global start =>
          obtain ⟨found, member, known⟩ := rooted
          exact ⟨found, globals member, known⟩
      | _ => trivial
  | call info name inner arguments target =>
      cases target <;> simpa [IsRooted, CallTarget.IsDrawn, library, functions] using rooted
  | _ => trivial

/-- What is seen in a body, with more variables of the body in view. -/
structure View.Extends (base view : View) : Prop where
  library : view.library = base.library
  functions : view.functions = base.functions
  globals : view.globals = base.globals
  locals : ∀ found ∈ view.locals, ∀ start, found.binding ≠ .global start

namespace View.Extends

variable {base view : View} (extends_ : base.Extends view)

include extends_

theorem rooted {node : Expr} (drawn : node.IsDrawn view) : node.IsRooted base := by
  obtain ⟨library, functions, globals, locals⟩ := extends_
  cases node with
  | reference info name binding =>
      cases binding with
      | global start =>
          rcases drawn with ⟨found, member, named, bound⟩ | ⟨constant, _⟩
          · rcases List.mem_append.mp member with member | member
            · exact absurd bound (locals found member start)
            · exact ⟨found, globals ▸ member, named, bound⟩
          · cases constant
      | _ => trivial
  | call info name inner arguments target =>
      cases target <;> simp_all [Expr.IsDrawn, Expr.IsRooted, CallTarget.IsDrawn]
  | _ => trivial

theorem yields : view.Yields (·.Traced base) := by
  intro expr sound silent node inside
  obtain ⟨firm, drawn⟩ := Expr.firm_check sound silent node inside
  exact ⟨firm, extends_.rooted drawn⟩

theorem behind {frame : Frame} {stmt : Stmt} (same : frame.view = view) :
    base.Extends (frame.behind stmt).view := by
  subst same
  unfold Frame.behind
  split
  · split
    · exact extends_
    · refine ⟨extends_.library, extends_.functions, extends_.globals, ?_⟩
      intro found member
      rcases List.mem_cons.mp member with rfl | member
      · exact fun start bound => nomatch bound
      · exact extends_.locals found member
  · exact extends_

end View.Extends

theorem View.Extends.passes (base : View) :
    Passes (·.Traced base) fun frame _ => base.Extends frame.view where
  yields := fun seen => seen.yields
  part := fun seen _ _ => seen
  tail := fun seen => seen.behind rfl

theorem Script.grants_traced (library : Library) (script : Script) :
    script.Grants library (fun seen node => node.Traced (script.dawn library seen))
      fun _ _ node => node.Traced (script.outlook library).view where
  yields := fun _ _ => View.Extends.yields ⟨rfl, rfl, rfl, by simp [Script.dawn]⟩
  admits := by
    intro owner parameters scope body sound silent
    refine check_body_holds (View.Extends.passes _) ?_ sound silent
    intro labels
    refine ⟨rfl, rfl, rfl, ?_⟩
    intro found member start bound
    obtain ⟨decl, _, rfl⟩ := List.mem_map.mp member
    cases bound
  before := fun _ _ traced => traced.firm.whole
  inside := fun _ _ _ traced => traced.firm.whole

theorem nodup_extended {α : Type} {names : List α} {name : α} (distinct : names.Nodup)
    (fresh : name ∉ names) : (names ++ [name]).Nodup := by
  rw [← List.concat_eq_append]
  exact distinct.concat fresh

theorem declare_functions_distinct {library : Library} {declared : List FunctionHeader}
    {list : List FunctionDecl} (silent : (declareFunctions library declared list).Silent)
    (distinct : (declared.map (·.name)).Nodup) :
    ((declared ++ list.map FunctionDecl.header).map (·.name)).Nodup := by
  induction list generalizing declared with
  | nil => simpa using distinct
  | cons decl list induction =>
      simp only [declareFunctions, Checked.silent_bind] at silent
      have free := report_at_silent (by grind [Problem.severity]) silent.1
      simp only [free, reportAt, Checked.value_pure, Bool.false_eq_true, if_false] at silent
      have fresh : decl.name ∉ declared.map (·.name) := by
        intro member
        obtain ⟨header, inside, same⟩ := List.mem_map.mp member
        have repeated : declared.any (·.name == decl.name) = true :=
          List.any_eq_true.mpr ⟨header, inside, by simp [same]⟩
        rw [if_pos repeated] at free
        split at free <;> cases free
      have extended : ((declared ++ [decl.header]).map (·.name)).Nodup := by
        rw [List.map_append]
        exact nodup_extended distinct fresh
      simpa using induction silent.2.1 extended

theorem check_globals_distinct {view : View} {list : List GlobalDecl}
    (silent : (checkGlobals view list).Silent) (distinct : (view.globals.map (·.name)).Nodup) :
    ((view.globals ++ list.map GlobalDecl.visible).map (·.name)).Nodup := by
  induction list generalizing view with
  | nil => simpa using distinct
  | cons global list induction =>
      simp only [checkGlobals, Checked.silent_bind] at silent
      obtain ⟨_, reported, others, _⟩ := silent
      have free := report_at_silent (by grind [Problem.severity]) reported
      simp only [free, reportAt, Checked.value_pure, Bool.false_eq_true, if_false] at others
      have fresh : global.decl.name ∉ view.globals.map (·.name) := by
        intro member
        obtain ⟨found, inside, same⟩ := List.mem_map.mp member
        have repeated : view.globals.any (·.name == global.decl.name) = true :=
          List.any_eq_true.mpr ⟨found, inside, by simp [same]⟩
        rw [if_pos repeated] at free
        split at free <;> cases free
      have extended : ((view.globals ++ [global.visible]).map (·.name)).Nodup := by
        rw [List.map_append]
        exact nodup_extended distinct fresh
      simpa [GlobalDecl.visible] using induction others extended

/-- What is known of the declarations and the nodes of a script that is checked without an error. -/
structure Script.Traced (library : Library) (script : Script) : Prop where
  holds : script.Holds (fun seen node => node.Traced (script.dawn library seen))
    fun _ _ node => node.Traced (script.outlook library).view
  recorded : script.uses = script.boundUses
  functions : (script.functions.map (·.name)).Nodup
  globals : (script.globals.map (·.decl.name)).Nodup

namespace Script.Traced

variable {library : Library} {script : Script} (traced : script.Traced library)

include traced

theorem in_body {body : CodeScope} (member : body ∈ script.bodies) :
    ∀ stmt ∈ Stmt.listStatements body.body, ∀ expr ∈ stmt.exprs, ∀ node ∈ expr.nodes,
      node.Traced (script.outlook library).view := by
  intro stmt inside
  rcases List.mem_append.mp member with member | member
  · obtain ⟨decl, known, rfl⟩ := List.mem_map.mp member
    exact ((traced.holds.functions decl known).body stmt inside).exprs
  · obtain ⟨state, known, own⟩ := List.mem_flatMap.mp member
    obtain ⟨part, among, found⟩ := List.mem_filterMap.mp own
    cases part with
    | handler decl =>
        cases found
        have handler : decl ∈ state.handlers := List.mem_filterMap.mpr ⟨_, among, rfl⟩
        exact (((traced.holds.states state known).handlers decl handler).body stmt inside).exprs
    | broken span => cases found

theorem is_used {node : Expr} (member : node ∈ script.nodes) {use : Use} (bound : use ∈ node.uses) :
    Use.isUsed script.uses use.declaration = true :=
  traced.recorded ▸ script.is_used member bound

/-- The nodes of a script are known by what is seen in all of a body, those of globals too. -/
theorem node {node : Expr} (member : node ∈ script.nodes) :
    node.Traced (script.outlook library).view := by
  obtain ⟨expr, inside, own⟩ := List.mem_flatMap.mp member
  rcases List.mem_append.mp inside with inside | inside
  · obtain ⟨global, known, given⟩ := List.mem_flatMap.mp inside
    obtain ⟨front, back, split⟩ := List.append_of_mem known
    have early := (traced.holds.globals front global back split).value expr
      (Option.mem_toList.mp given) node own
    refine early.widen rfl rfl ?_
    simp only [dawn, outlook, split, List.map_append]
    exact List.subset_append_left _ _
  · obtain ⟨body, known, expr⟩ := List.mem_flatMap.mp inside
    obtain ⟨stmt, within, among⟩ := List.mem_flatMap.mp expr
    exact traced.in_body known stmt within _ among node own

end Script.Traced

theorem check_declarations_traced {library : Library} {script : Script} (sound : script.Sound)
    (silent : (checkDeclarations library script).Silent) :
    (checkDeclarations library script).value.Traced library := by
  obtain ⟨holds, globals, functions⟩ :=
    check_declarations_holds (script.grants_traced library) sound silent
  simp only [checkDeclarations, Checked.silent_bind] at silent
  obtain ⟨declared, _, _, checked, _⟩ := silent
  have distinct := declare_functions_distinct declared (by simp)
  have single := check_globals_distinct checked (by simp)
  rw [List.nil_append, ← functions, List.map_map] at distinct
  rw [List.nil_append, ← globals, List.map_map] at single
  have names := congrArg (List.map Visible.name) globals
  rw [List.map_map, List.map_map] at names
  -- What can be seen in the script is what could be seen before it was checked.
  have dawn (seen : List Visible) :
      (checkDeclarations library script).value.dawn library seen = script.dawn library seen := by
    rw [Script.dawn, Script.dawn, functions]
    exact congrArg (fun forthcoming => View.mk _ _ seen [] forthcoming) names
  have view : ((checkDeclarations library script).value.outlook library).view =
      (script.outlook library).view := by
    simp only [Script.outlook, functions, globals]
  refine ⟨?_, rfl, distinct, single⟩
  simp only [dawn, view]
  exact holds

theorem Accepted.traced {library : Library} {source : String} (accepted : Accepted library source) :
    (checkSource library source).value.Traced library := by
  rw [accepted.checked]
  exact check_declarations_traced (parse_sound accepted.parsed) accepted.silent

end Lsl
