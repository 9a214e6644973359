import Lsl.Proofs.Parsing.Reporting

/-!
An error-free script is read from exactly the tokens it is written with: nothing is lost, nothing
is made up, and only the declarations in front of the states are sorted into two lists.
-/

set_option autoImplicit false

namespace Lsl

/-- A declaration in front of the states. -/
inductive Declaration where
  | global (decl : GlobalDecl)
  | function (decl : FunctionDecl)

namespace Declaration

def words : Declaration → List Word
  | global decl => decl.words
  | function decl => decl.words

def start : Declaration → Nat
  | global decl => decl.start
  | function decl => decl.start

def global? : Declaration → Option GlobalDecl
  | global decl => some decl
  | function _ => none

def function? : Declaration → Option FunctionDecl
  | global _ => none
  | function decl => some decl

end Declaration

/-- The words of the declarations in the order given, and then those of the states. -/
def Script.words (script : Script) (order : List Declaration) : List Word :=
  order.flatMap Declaration.words ++
    (script.defaultState.toList ++ script.states).flatMap StateDecl.words

section

variable {cursor after : Cursor}

theorem ParameterDecl.Runs.takes {members : List ParameterDecl}
    (runs : ParameterDecl.Runs members cursor after) :
    cursor.Takes after (ParameterDecl.listWords members) := by
  induction runs with
  | last word named name =>
      exact (Cursor.Takes.type word named).append (.name name)
  | @more _ rest _ _ word named name comma others induction =>
      have some : rest ≠ [] := by cases others <;> simp
      have front := (Cursor.Takes.type word named).append (.name name)
      simpa [listWords, ParameterDecl.words, some] using
        (front.append (.mark comma (by decide))).append induction

theorem ParameterList.Runs.takes {parameters : ParameterList}
    (runs : parameters.Runs cursor after) : cursor.Takes after parameters.words := by
  cases runs with
  | nothing opens closes =>
      exact (Cursor.Takes.mark opens (by decide)).append (.mark closes (by decide))
  | listed opens inner closes =>
      exact ((Cursor.Takes.mark opens (by decide)).append inner.takes).append
        (.mark closes (by decide))

theorem Cursor.Bodied.takes {role : ScopeRole} {name : String} {parameters : ParameterList}
    {info : ScopeInfo} {body : List Stmt}
    (bodied : Cursor.Bodied role name parameters info body cursor after)
    (clean : Stmt.listHasErrors body = false) :
    cursor.Takes after (.named .identifier name :: parameters.words ++
      info.enclose (Stmt.listWords body)) := by
  cases bodied with
  | intro found list inner =>
      exact ((Cursor.Takes.name found).append list.takes).append (inner.takes clean)

theorem FunctionDecl.Runs.takes {decl : FunctionDecl} (runs : decl.Runs cursor after)
    (clean : decl.hasErrors = false) : cursor.Takes after decl.words := by
  simp only [FunctionDecl.hasErrors, Bool.or_eq_false_iff] at clean
  cases runs with
  | @typed returns _ _ _ _ _ _ word named inner =>
      have some : returns ≠ .void := fun same => ValueType.of_keyword_ne_void (same ▸ named)
      simpa [FunctionDecl.words, some] using
        (Cursor.Takes.type word named).append (inner.takes clean.2)
  | untyped inner => simpa [FunctionDecl.words] using inner.takes clean.2

theorem FunctionDecl.Runs.starts {decl : FunctionDecl} (runs : decl.Runs cursor after) :
    decl.start = cursor.start.offset := by
  cases runs <;> rfl

theorem StateMember.Runs.takes {member : StateMember} (runs : member.Runs cursor after)
    (clean : member.hasErrors = false) : cursor.Takes after member.words := by
  cases runs with
  | handler inner =>
      simp only [StateMember.hasErrors, HandlerDecl.hasErrors, Bool.or_eq_false_iff] at clean
      cases inner with
      | intro inner => exact inner.takes clean.2
  | broken => cases clean

theorem StateMember.ListRuns.takes {members : List StateMember}
    (runs : StateMember.ListRuns members cursor after)
    (clean : members.any StateMember.hasErrors = false) :
    cursor.Takes after (members.flatMap StateMember.words) := by
  induction runs with
  | ended => exact .none _
  | followed inner _ rest =>
      rw [List.any_cons, Bool.or_eq_false_iff] at clean
      exact (inner.takes clean.1).append (rest clean.2)

theorem StateDecl.Heads.takes {name : String} {isDefault : Bool}
    (heads : StateDecl.Heads name isDefault cursor after) :
    cursor.Takes after (if isDefault then [.mark .defaultWord]
      else [.mark .stateWord, .named .identifier name]) := by
  cases heads with
  | default word => exact .mark word (by decide)
  | named word name => exact (Cursor.Takes.mark word (by decide)).append (.name name)

theorem StateDecl.Runs.takes {decl : StateDecl} (runs : decl.Runs cursor after)
    (clean : decl.hasErrors = false) : cursor.Takes after decl.words := by
  simp only [StateDecl.hasErrors, Bool.or_eq_false_iff] at clean
  cases runs with
  | intro head opens inner closes =>
      have front := head.takes.append (.mark opens (by decide))
      simpa [StateDecl.words] using
        (front.append (inner.takes clean.2)).append (.mark closes (by decide))

end

/-- What has been read of a script: the words are those of its parts, and the declarations start
where they stand among the tokens. -/
structure Script.Told (script : Script) (start : Cursor) (order : List Declaration)
    (cursor : Cursor) : Prop where
  globals : order.filterMap Declaration.global? = script.globals
  functions : order.filterMap Declaration.function? = script.functions
  takes : start.Takes cursor (script.words order)
  stateless : script.defaultState = none → script.states = []
  starts : ∃ read, start.ahead = read ++ cursor.ahead ∧
    (order.map Declaration.start).Sublist (read.map (·.span.start.offset))

namespace Script.Told

variable {script : Script} {start cursor after : Cursor} {order : List Declaration}
  (told : script.Told start order cursor)

include told

theorem starts_append (added : List Declaration) (reaches : cursor.Reaches after)
    (placed : added = [] ∨ after.ahead.length < cursor.ahead.length ∧
      added.map Declaration.start = [cursor.start.offset]) :
    ∃ read, start.ahead = read ++ after.ahead ∧
      ((order ++ added).map Declaration.start).Sublist (read.map (·.span.start.offset)) := by
  obtain ⟨read, split, sublist⟩ := told.starts
  obtain ⟨taken, ahead⟩ := reaches.ahead
  refine ⟨read ++ taken, by rw [split, ← ahead, List.append_assoc], ?_⟩
  rw [List.map_append, List.map_append]
  refine sublist.append ?_
  rcases placed with rfl | ⟨shorter, same⟩
  · simp
  · cases taken with
    | nil => simp [← ahead] at shorter
    | cons token others =>
        have first : cursor.start.offset = token.span.start.offset := by
          simp [Cursor.start, Cursor.current, ← ahead]
        rw [same, first, List.map_cons]
        exact List.cons_sublist_cons.mpr (List.nil_sublist _)

theorem add_declaration {grown : Script} {added : Declaration} (vacant : script.defaultState = none)
    (open_ : grown.defaultState = none) (states : grown.states = script.states)
    (globals : grown.globals = script.globals ++ added.global?.toList)
    (functions : grown.functions = script.functions ++ added.function?.toList)
    (takes : cursor.Takes after added.words) (reaches : cursor.Reaches after)
    (shorter : after.ahead.length < cursor.ahead.length)
    (starts : added.start = cursor.start.offset) :
    grown.Told start (order ++ [added]) after where
  globals := by cases added <;> simp [globals, told.globals, Declaration.global?]
  functions := by cases added <;> simp [functions, told.functions, Declaration.function?]
  takes := by
    have words : grown.words (order ++ [added]) = script.words order ++ added.words := by
      simp [Script.words, vacant, open_, states, told.stateless vacant]
    exact words ▸ told.takes.append takes
  stateless := fun _ => states.trans (told.stateless vacant)
  starts := told.starts_append [added] reaches (.inr ⟨shorter, by simp [starts]⟩)

theorem add_state {grown : Script} {decl : StateDecl} (globals : grown.globals = script.globals)
    (functions : grown.functions = script.functions)
    (states : grown.defaultState.toList ++ grown.states =
      script.defaultState.toList ++ script.states ++ [decl])
    (filled : grown.defaultState.isSome = true) (takes : cursor.Takes after decl.words)
    (reaches : cursor.Reaches after) : grown.Told start order after where
  globals := told.globals.trans globals.symm
  functions := told.functions.trans functions.symm
  takes := by
    have words : grown.words order = script.words order ++ decl.words := by
      simp [Script.words, states]
    exact words ▸ told.takes.append takes
  stateless := fun vacant => by simp [vacant] at filled
  starts := by simpa using told.starts_append [] reaches (.inl rfl)

theorem turns {grown : Script} (turns : script.Turns grown cursor after)
    (closed : cursor.close.kind = .endOfFile) (silent : after.errors = cursor.errors) :
    ∃ longer, grown.Told start longer after := by
  have shorter := turns.shorter closed
  have reaches := turns.carried .reaches
  cases turns with
  | extended added =>
      cases added with
      | @function decl _ _ vacant _ inner =>
          have takes : cursor.Takes after (Declaration.function decl).words :=
            inner.takes (inner.reports.shown.mp silent)
          exact ⟨_, told.add_declaration vacant vacant rfl (List.append_nil _).symm rfl takes reaches
            shorter inner.starts⟩
      | @global span decl _ _ vacant inner =>
          have takes : cursor.Takes after (Declaration.global { span, decl }).words := inner.takes
          have starts : span.start.offset = cursor.start.offset := by cases inner <;> rfl
          exact ⟨_, told.add_declaration vacant vacant rfl rfl (List.append_nil _).symm takes reaches
            shorter starts⟩
      | default vacant _ inner =>
          have takes := inner.takes (inner.reports.shown.mp silent)
          have states := told.stateless vacant
          exact ⟨_, told.add_state rfl rfl (by simp [vacant, states]) rfl takes reaches⟩
      | early vacant word inner =>
          exact absurd silent (Script.Turns.loud (.extended (.early vacant word inner)) vacant word)
      | state taken inner =>
          have takes := inner.takes (inner.reports.shown.mp silent)
          exact ⟨_, told.add_state rfl rfl (by simp) taken takes reaches⟩
  | broken _ undone =>
      exact absurd silent (Cursor.errors_abandoned_ne (undone.carried .reaches).1 _ _)

end Script.Told

/-- What is read in turns that report nothing is written with the tokens left behind. -/
theorem Parser.Turn.told {script : Script} {start cursor : Cursor}
    (closed : start.close.kind = .endOfFile) (turn : Turn start script cursor)
    (silent : cursor.errors = start.errors) : ∃ order, script.Told start order cursor := by
  induction turn with
  | first =>
      exact ⟨[], rfl, rfl, .none start, fun _ => rfl, [], rfl, List.Sublist.slnil⟩
  | next before open_ read induction =>
      have turns := before.turns closed open_ read
      have quiet := (before.continues closed).1.silent (turns.carried .reaches) silent
      obtain ⟨order, told⟩ := induction quiet.1
      exact told.turns turns (before.closed closed) quiet.2

/-- An error-free parse loses, invents and reorders nothing: with the globals and functions put back
in one order, the words of the script are the tokens in front of the closing one. Where the tokens
start one behind the other, that order is the order of the places. -/
theorem parse_spells (tokens : List Token) (silent : (parse tokens).2 = []) :
    ∃ order : List Declaration,
      order.filterMap Declaration.global? = (parse tokens).1.globals ∧
      order.filterMap Declaration.function? = (parse tokens).1.functions ∧
      Spells ((parse tokens).1.words order) (tokens.takeWhile (·.kind != .endOfFile)) ∧
      ((tokens.map (·.span.start.offset)).Pairwise (· < ·) →
        (order.map Declaration.start).Pairwise (· < ·)) := by
  obtain ⟨script, last, turn, ends, parsed⟩ := parse_last tokens
  have closed := Cursor.closed_of_tokens tokens
  have quiet : last.errors = [] := by rw [← silent, parsed]
  obtain ⟨order, told⟩ := turn.told closed.close quiet
  have opens := (told.takes closed.close).1
  have none_left := ((closed.after (turn.continues closed.close).1).kind_eq_iff).mp ends
  rw [none_left] at opens
  obtain ⟨taken, ahead, spells⟩ := opens
  have whole : taken = tokens.takeWhile (·.kind != .endOfFile) := by
    rw [← List.append_nil taken, ← ahead]
    rfl
  rw [parsed]
  refine ⟨order, told.globals, told.functions, whole ▸ spells, ?_⟩
  · intro ordered
    obtain ⟨read, split, sublist⟩ := told.starts
    rw [none_left, List.append_nil] at split
    have prefix_ : read <+: tokens := split ▸ List.takeWhile_prefix _
    exact ordered.sublist (sublist.trans (prefix_.sublist.map _))

/-- A function between two globals, with bodies in braces and without. -/
theorem parse_spells_between_globals :
    let tokens := tokenize ("integer a; f() \x7b if (a) a = 1; else \x7b a++; \x7d \x7d " ++
      "quaternion b = <0.0, 1.0, 0.0, 1.0>; default \x7b state_entry() \x7b f(); \x7d \x7d")
    (parse tokens).2 = [] ∧
      ∃ order : List Declaration,
        order.filterMap Declaration.global? = (parse tokens).1.globals ∧
        order.filterMap Declaration.function? = (parse tokens).1.functions ∧
        Spells ((parse tokens).1.words order) (tokens.takeWhile (·.kind != .endOfFile)) ∧
        ((tokens.map (·.span.start.offset)).Pairwise (· < ·) →
          (order.map Declaration.start).Pairwise (· < ·)) := by
  intro tokens
  have silent : (parse tokens).2 = [] := by
    simp only [tokens]
    rw [tokenize_spelled String.ofList_append.symm]
    decide +kernel
  exact ⟨silent, parse_spells tokens silent⟩

end Lsl
