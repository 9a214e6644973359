import Lsl.Proofs.Arena.Statements
import Lsl.Proofs.Parsing.Turns

/-!
Scripts are planted as they are read. Declarations are planted one after the other, and the nodes of
each are held until the end of the script is reached. That is always so: where a declaration cannot
be read a broken part takes its place.
-/

set_option autoImplicit false

namespace Lsl

open Lsl.Parser (Grants Recording)

namespace Planter

namespace Mirrors

theorem parameter :
    Mirrors (fun decl => [.parameter decl]) [] Planter.parameter Parser.parameter := by
  apply read_grow
  apply Grants.bind .peek
  intro _
  apply Grants.bind .type
  intro _
  apply Grants.bind .expect
  intro _
  exact Grants.bind .span_from fun _ => Grants.pure ⟨rfl, rfl⟩

theorem parameters_within (fuel : Nat) :
    Mirrors (List.map Node.parameter) [] (Planter.parametersWithin fuel)
      (Parser.parametersWithin fuel) := by
  induction fuel with
  | zero => exact mismatched
  | succ fuel before =>
      rw [Planter.parametersWithin, Parser.parametersWithin]
      apply bind parameter
      intro first own
      apply read_bind .accept
      intro comma
      split
      · apply past before
        intro rest others
        exact pure (by simp [own, others])
      · exact pure own

theorem parameter_list :
    Mirrors (fun list => [.parameters list]) [] Planter.parameterList Parser.parameterList := by
  unfold Planter.parameterList Parser.parameterList
  apply read_bind .expect
  intro _
  apply read_bind .peek
  intro cursor
  split
  case' isTrue => apply bind (pure rfl : Mirrors (List.map Node.parameter) [] _ _)
  case' isFalse => apply bind (parameters_within _)
  all_goals
    intro members inside
    apply read_bind .expect_or
    intro _
    exact read_bind .span_from fun _ => grow rfl inside

theorem function_decl :
    Mirrors (fun decl => [.function decl]) [] Planter.functionDecl Parser.functionDecl := by
  unfold Planter.functionDecl Parser.functionDecl
  apply read_bind .peek
  intro cursor
  split
  case' isTrue => apply read_bind .type
  case' isFalse => apply read_bind .pure
  all_goals
    intro returns
    apply read_bind .expect
    intro name
    apply bind parameter_list
    intro parameters first
    apply past (scope .function)
    intro inner second
    apply read_bind .span_from
    intro _
    exact grow rfl (by simp [first, second, Node.children, scopeNode])

theorem handler_decl :
    Mirrors (fun member => [member.node]) [] Planter.handlerDecl
      (.handler <$> Parser.handlerDecl) := by
  unfold Planter.handlerDecl Parser.handlerDecl
  simp only [map_bind, map_pure]
  apply read_bind .peek
  intro cursor
  apply read_bind .expect
  intro name
  apply bind parameter_list
  intro parameters first
  apply past (scope .handler)
  intro inner second
  apply read_bind .span_from
  intro _
  exact grow rfl (by simp [first, second, StateMember.node, Node.children, scopeNode])

theorem broken_handler (start : Position) :
    Mirrors (fun member => [member.node]) []
      (Planter.recovering Planter.handlerDecl (Planter.breakHandler start))
      (Parser.recovering (.handler <$> Parser.handlerDecl) (Parser.breakHandler start)) :=
  recovering handler_decl fun error cursor => ⟨_, _, rfl, cursor.reported_skip error _, rfl⟩

theorem state_members_within (fuel : Nat) :
    Mirrors (List.map StateMember.node) [] (Planter.stateMembersWithin fuel)
      (Parser.stateMembersWithin fuel) := by
  induction fuel with
  | zero => exact mismatched
  | succ fuel before =>
      rw [Planter.stateMembersWithin, Parser.stateMembersWithin]
      apply read_bind .peek
      intro cursor
      split
      · exact pure rfl
      · apply bind (broken_handler _)
        intro first own
        apply past before
        intro rest others
        exact pure (by simp [own, others])

theorem state_decl :
    Mirrors (fun decl => [.state decl]) [] Planter.stateDecl Parser.stateDecl := by
  unfold Planter.stateDecl Parser.stateDecl
  apply read_bind .peek
  intro cursor
  apply read_bind .state_head
  rintro ⟨name, isDefault⟩
  apply read_bind .expect
  intro _
  apply read_bind .peek
  intro inner
  apply bind (state_members_within _)
  intro members inside
  apply read_bind .expect
  intro _
  exact read_bind .span_from fun _ => grow rfl inside

theorem global_decl :
    Mirrors (fun decl => [.global decl]) [] Planter.globalDecl Parser.globalDecl := by
  unfold Planter.globalDecl Parser.globalDecl
  apply bind variable_declaration
  intro decl inside
  exact grow rfl inside

end Mirrors

/-- The nodes of each part are those of the same part of the script. -/
structure Sapling.Fits (sapling : Sapling) : Prop where
  globals : sapling.globals.map Root.node = sapling.script.globals.map .global
  functions : sapling.functions.map Root.node = sapling.script.functions.map .function
  defaultState : sapling.defaultState.map Root.node = sapling.script.defaultState.toList.map .state
  states : sapling.states.map Root.node = sapling.script.states.map .state
  broken : sapling.broken.map Root.node = sapling.script.broken.map BrokenPart.node
  clean : sapling.script.faulty = false

namespace Sapling

variable {sapling : Sapling}

theorem Fits.children (fits : sapling.Fits) :
    sapling.roots.map Root.node = sapling.script.children := by
  simp only [roots, List.map_append, Script.children, fits.globals, fits.functions,
    fits.defaultState, fits.states, fits.broken]

/-- Some nodes were added behind those of one part. -/
structure Adds (sapling : Sapling) (roots : List Root) (extended : Sapling) : Prop where
  fits : extended.Fits
  roots : (sapling.roots ++ roots).Perm extended.roots

theorem perm_inside (front back added : List Root) :
    (front ++ back ++ added).Perm (front ++ added ++ back) := by
  simpa using List.perm_append_comm.append_left front

theorem adds_global (fits : sapling.Fits) {decl : Planted GlobalDecl}
    (own : decl.roots.map Root.node = [.global decl.value]) :
    sapling.Adds decl.roots (sapling.addGlobal decl) where
  fits := { fits with globals := by simp [addGlobal, fits.globals, own] }
  roots := by
    simpa [Sapling.roots, addGlobal] using perm_inside sapling.globals
      (sapling.functions ++ sapling.defaultState ++ sapling.states ++ sapling.broken) decl.roots

theorem adds_function (fits : sapling.Fits) {decl : Planted FunctionDecl}
    (own : decl.roots.map Root.node = [.function decl.value]) :
    sapling.Adds decl.roots (sapling.addFunction decl) where
  fits := { fits with functions := by simp [addFunction, fits.functions, own] }
  roots := by
    simpa [Sapling.roots, addFunction] using perm_inside (sapling.globals ++ sapling.functions)
      (sapling.defaultState ++ sapling.states ++ sapling.broken) decl.roots

theorem adds_default (fits : sapling.Fits) (none : sapling.script.defaultState = none)
    {decl : Planted StateDecl} (own : decl.roots.map Root.node = [.state decl.value]) :
    sapling.Adds decl.roots (sapling.addDefault decl) where
  fits := { fits with defaultState := by simp [addDefault, own] }
  roots := by
    have empty : sapling.defaultState = [] := by simpa [none] using fits.defaultState
    simpa [Sapling.roots, addDefault, empty] using
      perm_inside (sapling.globals ++ sapling.functions) (sapling.states ++ sapling.broken)
        decl.roots

theorem adds_state (fits : sapling.Fits) {decl : Planted StateDecl}
    (own : decl.roots.map Root.node = [.state decl.value]) :
    sapling.Adds decl.roots (sapling.addState decl) where
  fits := { fits with states := by simp [addState, fits.states, own] }
  roots := by
    simpa [Sapling.roots, addState] using
      perm_inside (sapling.globals ++ sapling.functions ++ sapling.defaultState ++ sapling.states)
        sapling.broken decl.roots

theorem adds_broken (fits : sapling.Fits) {part : Planted BrokenPart}
    (own : part.roots.map Root.node = [part.value.node]) :
    sapling.Adds part.roots (sapling.addBroken part) where
  fits := { fits with broken := by simp [addBroken, fits.broken, own] }
  roots := by simp [Sapling.roots, addBroken]

/-- The planter adds to what was planted as the reader adds to the script. If it fails, what was
planted before stays. -/
def Extends (sapling : Sapling) (planter : Planter Sapling) (reader : Parser Script) : Prop :=
  ∀ site, site.Keeps sapling.roots →
    match planter site with
    | .ok extended later =>
      reader site.cursor = .ok extended.script later.cursor ∧ extended.Fits ∧
        later.Keeps extended.roots
    | .error error later =>
      reader site.cursor = .error error later.cursor ∧ later.Spills sapling.roots

namespace Extends

variable {α : Type}

theorem mismatched {expecting : String} :
    sapling.Extends (read (Parser.mismatched expecting)) (Parser.mismatched expecting) :=
  fun _ keeps => ⟨rfl, keeps.toSpills⟩

theorem read_bind {reader : Parser α} {next : α → Planter Sapling} {follow : α → Parser Script}
    (recording : Recording reader) (rest : ∀ value, sapling.Extends (next value) (follow value)) :
    sapling.Extends (read reader >>= next) (reader >>= follow) := by
  intro site keeps
  simp only [Bind.bind, EStateM.bind, read]
  cases result : reader site.cursor with
  | error error after => exact ⟨rfl, keeps.toSpills.cursor after⟩
  | ok value after =>
      have records := ((recording site.cursor).ok result).1
      exact rest value { site with cursor := after } (keeps.records records)

/-- A declaration is planted and added to the others. -/
theorem add {node : α → Node} {planter : Planter (Planted α)} {reader : Parser α}
    {extend : Planted α → Sapling} (build : α → Script)
    (first : Mirrors (fun value => [node value]) [] planter reader)
    (same : ∀ found, (extend found).script = build found.value)
    (adds : ∀ found, found.roots.map Root.node = [node found.value] →
      sapling.Adds found.roots (extend found)) :
    sapling.Extends (do return extend (← planter)) (do return build (← reader)) := by
  intro site keeps
  have begun := first site sapling.roots keeps
  simp only [Bind.bind, EStateM.bind]
  cases result : planter site with
  | error error later =>
      rw [result] at begun
      rw [begun.1]
      exact ⟨rfl, begun.2⟩
  | ok found later =>
      rw [result] at begun
      obtain ⟨read, own, kept⟩ := begun
      have added := adds found own
      rw [read]
      exact ⟨congrArg (EStateM.Result.ok · later.cursor) (same found).symm, added.fits,
        kept.perm (List.perm_append_comm.trans added.roots)⟩

theorem declaration (fits : sapling.Fits) :
    sapling.Extends (Planter.declaration sapling) (Parser.declaration sapling.script) := by
  unfold Planter.declaration Parser.declaration
  apply read_bind .peek
  intro cursor
  have states : sapling.Extends (do return sapling.addState (← Planter.stateDecl)) (do
      return { sapling.script with
        states := sapling.script.states ++ [← Parser.stateDecl] }) :=
    add _ Mirrors.state_decl (fun _ => rfl) fun _ => adds_state fits
  have functions : sapling.Extends (do return sapling.addFunction (← Planter.functionDecl)) (do
      return { sapling.script with
        functions := sapling.script.functions ++ [← Parser.functionDecl] }) :=
    add _ Mirrors.function_decl (fun _ => rfl) fun _ => adds_function fits
  generalize begun : sapling.script.defaultState.isSome = late
  generalize cursor.kind = kind
  split
  · exact states
  · try simp only
    exact mismatched
  · apply read_bind .report
    intro _
    exact states
  · have none : sapling.script.defaultState = none := by simpa using begun
    exact add _ Mirrors.state_decl (fun _ => rfl) fun _ => adds_default fits none
  · split
    · exact functions
    · exact add _ Mirrors.global_decl (fun _ => rfl) fun _ => adds_global fits
  · split
    · exact functions
    · exact mismatched
  · try simp only
    exact mismatched

end Extends

variable {site : Site}

/-- What is planted at a site is what the reader gives there, and nothing else is left over. -/
def Continues (site : Site) (planter : Planter Sapling) (reader : Parser Script) : Prop :=
  ∃ extended later, planter site = .ok extended later ∧
    reader site.cursor = .ok extended.script later.cursor ∧ extended.Fits ∧
      later.Keeps extended.roots

/-- A turn succeeds, as it does when reading: a broken part is planted for a declaration that cannot
be read. -/
theorem turn (fits : sapling.Fits) (keeps : site.Keeps sapling.roots) (place : Position) :
    Continues site
      (Planter.recovering (Planter.declaration sapling) (Planter.breakDeclaration sapling place))
      (Parser.recovering (Parser.declaration sapling.script)
        (Parser.breakDeclaration sapling.script place)) := by
  have begun := Extends.declaration fits site keeps
  unfold Continues Planter.recovering Parser.recovering
  cases result : Planter.declaration sapling site with
  | ok extended later =>
      rw [result] at begun
      rw [begun.1]
      exact ⟨extended, later, rfl, rfl, begun.2⟩
  | error error later =>
      rw [result] at begun
      obtain ⟨failed, spills⟩ := begun
      rw [failed]
      let reported : Cursor := { later.cursor with errors := later.cursor.errors ++ [error] }
      let after := reported.skip (Parser.topLevelSkip 0 false reported.ahead)
      let context : BrokenContext :=
        if sapling.script.defaultState.isSome then .state else .globalDeclaration
      let part : BrokenPart := ⟨after.brokenSpan place, context⟩
      have kept := (spills.cursor after).keeps (later.cursor.reported_skip error _)
      have broken : (BrokenPart.node part).isBroken = true := rfl
      obtain ⟨_, own, grown⟩ := Mirrors.grow_error broken { later with cursor := after } _ kept
      have added : sapling.Adds _ (sapling.addBroken ⟨part, _⟩) := adds_broken fits own
      exact ⟨_, _, rfl, rfl, added.fits,
        grown.perm (List.perm_append_comm.trans added.roots)⟩

theorem declarations_end (fuel : Nat) (ended : site.cursor.kind = .endOfFile) :
    Planter.declarationsWithin (fuel + 1) sapling site = .ok sapling site := by
  rw [Planter.declarationsWithin]
  change (if site.cursor.kind = .endOfFile then Pure.pure sapling else _ : Planter Sapling) site = _
  rw [if_pos ended]
  rfl

theorem declarations_step (fuel : Nat) (open_ : site.cursor.kind ≠ .endOfFile)
    {extended : Sapling} {later : Site}
    (planted : Planter.recovering (Planter.declaration sapling)
      (Planter.breakDeclaration sapling site.cursor.start) site = .ok extended later) :
    Planter.declarationsWithin (fuel + 1) sapling site =
      Planter.declarationsWithin fuel extended later := by
  rw [Planter.declarationsWithin]
  change (if site.cursor.kind = .endOfFile then Pure.pure sapling else _ : Planter Sapling) site = _
  rw [if_neg open_]
  exact bind_of_ok planted

/-- Turn by turn, planting goes on as reading does. -/
theorem declarations (fuel : Nat) (fits : sapling.Fits) (keeps : site.Keeps sapling.roots) :
    Continues site (Planter.declarationsWithin fuel sapling)
      (Parser.declarationsWithin fuel sapling.script) := by
  induction fuel generalizing sapling site with
  | zero => exact ⟨sapling, site, rfl, rfl, fits, keeps⟩
  | succ fuel induction =>
      by_cases ended : site.cursor.kind = .endOfFile
      · exact ⟨sapling, site, declarations_end fuel ended,
          Parser.declarations_end fuel sapling.script ended, fits, keeps⟩
      · obtain ⟨extended, later, planted, read, fits, kept⟩ := turn fits keeps site.cursor.start
        obtain ⟨found, last, finished, done, rest⟩ := induction fits kept
        rw [Continues, declarations_step fuel ended planted,
          Parser.declarations_step fuel ended read]
        exact ⟨found, last, finished, done, rest⟩

end Sapling

/-- A script is planted as it is read. Its node is the only one without a parent, if nothing had to
be reported. -/
theorem script_planted (tokens : List Token) :
    ∃ root site,
      Planter.script { cursor := .ofTokens tokens } = .ok ⟨(parse tokens).1, [root]⟩ site ∧
        root.node = .script (parse tokens).1 ∧ site.cursor.errors = (parse tokens).2 ∧
        site.Keeps [root] := by
  let start : Site := { cursor := .ofTokens tokens }
  let seed : Sapling := { script := { span := .point start.cursor.start } }
  have fits : seed.Fits := ⟨rfl, rfl, rfl, rfl, rfl, rfl⟩
  have keeps : start.Keeps seed.roots := Site.keeps_start tokens
  obtain ⟨found, last, planted, read, fits, kept⟩ :=
    Sapling.declarations start.cursor.budget fits keeps
  let script : Script :=
    { found.script with span := last.cursor.spanFrom start.cursor.start }
  have children : found.roots.map Root.node = (Node.script script).children := fits.children
  have fresh : (Node.script script).isFresh = true := Node.fresh_iff.mpr ⟨rfl, fits.clean⟩
  rw [← List.append_nil found.roots] at kept
  obtain ⟨_, _, grown⟩ := Mirrors.grow fresh children last [] kept
  have parsed : Parser.script start.cursor = .ok script last.cursor := by
    unfold Parser.script
    change (Parser.declarationsWithin _ _ >>= _) start.cursor = _
    rw [Parser.bind_of_ok read]
    rfl
  have same : parse tokens = (script, last.cursor.errors) := by
    rw [parse, parsed]
  refine ⟨⟨last.arena.size, .script script⟩, _, ?_, ?_, ?_, grown⟩
  · unfold Planter.script
    change (Planter.declarationsWithin _ _ >>= _) start = _
    rw [bind_of_ok planted, same]
    rfl
  · rw [same]
  · rw [same]

end Planter

end Lsl
