import Lsl.Proofs.Parsing.Script
import Lsl.Proofs.Syntax.Mentions

/-!
What readers find. No two declarations of a script start at one place, nor do two places where
something is mentioned, and nothing that was just read is bound. This holds of whatever was read,
broken parts included: a reader finds its declarations and mentions in the text that it takes.
-/

set_option autoImplicit false

namespace Lsl

/-- Between the cursors these declarations and mentions were read, each at a place of its own. None
of the mentions is bound. -/
structure Cursor.Finds (cursor after : Cursor) (referents : List Referent)
    (mentions : List Mention) : Prop where
  leads : cursor.Ordered → cursor.Leads after
  declared : cursor.Ordered →
    Spread cursor.start.offset after.start.offset (referents.map (·.start))
  mentioned : cursor.Ordered →
    Spread cursor.start.offset after.start.offset (mentions.map (·.place))
  unbound : ∀ mention ∈ mentions, mention.referent = none

namespace Cursor.Finds

variable {cursor middle after : Cursor} {referents others : List Referent}
  {mentions more : List Mention}

theorem none (leads : cursor.Ordered → cursor.Leads after) : cursor.Finds after [] [] :=
  ⟨leads, fun _ => .nil, fun _ => .nil, by simp⟩

theorem step : cursor.Finds cursor.step [] [] := .none leads_step

theorem numbered : cursor.Finds cursor.numbered [] [] := .none (Carries.leads.numbered cursor)

theorem declares (kind : ReferentKind) (advances : cursor.Advances after) :
    cursor.Finds after [⟨kind, cursor.start.offset⟩] [] :=
  ⟨advances.passes.leads,
    fun ordered => .single (Nat.le_refl _) (ordered.start_lt_of_advances advances),
    fun _ => .nil, by simp⟩

theorem names (advances : cursor.Advances after) :
    cursor.Finds after [] [⟨cursor.start.offset, .none⟩] :=
  ⟨advances.passes.leads, fun _ => .nil,
    fun ordered => .single (Nat.le_refl _) (ordered.start_lt_of_advances advances), by simp⟩

theorem append (front : cursor.Finds middle referents mentions)
    (back : middle.Finds after others more) :
    cursor.Finds after (referents ++ others) (mentions ++ more) where
  leads ordered := by
    have leads := front.leads ordered
    exact leads.trans (back.leads (ordered.after leads))
  declared ordered := by
    have leads := front.leads ordered
    have inside := ordered.after leads
    rw [List.map_append]
    exact (front.declared ordered).append (back.declared inside) leads.start
      (back.leads inside).start
  mentioned ordered := by
    have leads := front.leads ordered
    have inside := ordered.after leads
    rw [List.map_append]
    exact (front.mentioned ordered).append (back.mentioned inside) leads.start
      (back.leads inside).start
  unbound := by
    intro mention member
    exact (List.mem_append.mp member).elim (front.unbound mention) (back.unbound mention)

theorem perm (finds : cursor.Finds after referents mentions) (same : referents.Perm others)
    (equal : mentions.Perm more) : cursor.Finds after others more where
  leads := finds.leads
  declared ordered := (finds.declared ordered).perm (same.map _)
  mentioned ordered := (finds.mentioned ordered).perm (equal.map _)
  unbound := fun mention member => finds.unbound mention (equal.mem_iff.mpr member)

theorem later (finds : middle.Finds after referents mentions) (front : cursor.Finds middle [] []) :
    cursor.Finds after referents mentions :=
  front.append finds

theorem longer (finds : cursor.Finds middle referents mentions) (back : middle.Finds after [] []) :
    cursor.Finds after referents mentions := by
  simpa using finds.append back

end Cursor.Finds

/-- What a phrase declares. A variable is declared in a script or in a scope. -/
def Phrase.referents (kind : ReferentKind) : Phrase → List Referent
  | declaration span _ => [⟨kind, span.start.offset⟩]
  | statement stmt => stmt.referent?.toList
  | _ => []

def Phrase.mentions : Phrase → List Mention
  | statement stmt => stmt.mentions
  | phrase => phrase.exprs.flatMap Expr.mentions

theorem Token.mentions_of_literal {token : Token} {expr : Expr}
    (known : token.literal? = some expr) : expr.mentions = [] := by
  unfold Token.literal? at known
  split at known
  case h_5 => cases known
  all_goals
    cases known
    rfl

theorem Phrase.Runs.finds {phrase : Phrase} {cursor after : Cursor}
    (runs : phrase.Runs cursor after) (kind : ReferentKind) :
    cursor.Finds after (phrase.referents kind) phrase.mentions := by
  have word {place last : Cursor} {kind : TokenKind} (found : place.kind = kind)
      (plain : kind.Plain) (passed : place.step.Passes last) : place.Advances last :=
    ⟨found ▸ plain, passed⟩
  have past {place last : Cursor} {kind : TokenKind} (found : place.kind = kind)
      (plain : kind.Plain) (passed : place.step.Passes last) : place.Passes last :=
    .token (found ▸ plain) passed
  induction runs generalizing kind with
  | expression _ _ chain => exact chain kind
  | first _ operand => exact operand kind
  | step _ _ _ _ left =>
      simpa [referents, mentions, exprs] using (left kind).longer .step
  | component _ _ _ _ _ left =>
      simpa [referents, mentions, exprs] using (left kind).longer (.append .step .step)
  | binary _ _ _ _ _ left right =>
      simpa [referents, mentions, exprs] using (left kind).append ((right kind).later .step)
  | literal known =>
      simpa [referents, mentions, exprs, Token.mentions_of_literal known] using .step
  | reference found =>
      exact .names (word found (by decide) (.here _))
  | call found opens _ _ inner =>
      have named := Cursor.Finds.names (word found (by decide) (past opens (by decide) (.here _)))
      simpa [referents, mentions, exprs, CallTarget.referent?, Cursor.start, Cursor.spanFrom] using
        (named.append (inner kind)).longer .step
  | cast _ _ _ _ _ inner =>
      simpa [referents, mentions, exprs] using
        (inner kind).later (.append .step (.append .step .step))
  | grouped _ _ _ inner | elements _ _ _ inner | condition _ _ _ inner =>
      simpa [referents, mentions, exprs] using ((inner kind).later .step).longer .step
  | vector _ _ _ _ _ _ _ one two three =>
      have front := ((one kind).later .step).append ((two kind).later .step)
      simpa [referents, mentions, exprs] using
        (front.append ((three kind).later .step)).longer .step
  | rotation _ _ _ _ _ _ _ _ _ one two three four =>
      have front := ((one kind).later .step).append ((two kind).later .step)
      have back := ((three kind).later .step).append ((four kind).later .step)
      simpa [referents, mentions, exprs] using (front.append back).longer .step
  | prefixed _ _ inner => simpa [referents, mentions, exprs] using (inner kind).later .step
  | nothing | noList | noValue => exact .none fun _ => .refl _
  | listed _ _ inner | someList _ _ inner => exact inner kind
  | last _ inner | someValue _ _ inner => exact inner kind
  | more _ _ _ inner rest =>
      simpa [referents, mentions, exprs] using ((inner kind).longer .step).append (rest kind)
  | loopClauses _ _ _ _ _ _ _ one two three =>
      have front := ((one kind).later .step).append ((two kind).later .step)
      simpa [referents, mentions, exprs] using
        (front.append ((three kind).later .step)).longer .step
  | unset found _ name ends =>
      have named := past name (by decide) (past ends (by decide) (.here _))
      exact .declares kind (word found (by decide) named)
  | set found _ name sets _ _ inner =>
      have named := past name (by decide) (past sets (by decide) (.here _))
      have declared := Cursor.Finds.declares kind (word found (by decide) named)
      simpa [referents, mentions, exprs, Cursor.spanFrom] using
        (declared.append (inner kind)).longer .step
  | declare _ inner => exact inner .inScope
  | giveBack _ _ _ inner => exact ((inner kind).later .step).longer .step
  | jump found name ends =>
      exact .names (word found (by decide) (past name (by decide) (past ends (by decide) (.here _))))
  | changeState found name ends =>
      have ended := past ends (by decide) (.here _)
      rcases name with name | name <;>
        exact .names (word found (by decide) (past name (by decide) ended))
  | label found name ends =>
      exact .declares _
        (word found (by decide) (past name (by decide) (past ends (by decide) (.here _))))
  | empty => exact .step
  | perform _ _ inner =>
      simpa [referents, mentions, exprs, Stmt.referent?, Stmt.mentions, Stmt.mention?, Stmt.exprs]
        using (inner kind).longer .step

/-- What a statement declares and mentions stands at it, in its expressions and in its scopes. -/
theorem Stmt.finds_of_parts {cursor after : Cursor} {stmt : Stmt}
    (finds : cursor.Finds after
      (stmt.referent?.toList ++ stmt.parts.flatMap fun part => Stmt.listReferents part.body)
      (stmt.mentions ++ stmt.parts.flatMap fun part => Stmt.listMentions part.body)) :
    cursor.Finds after (Stmt.listReferents [stmt]) (Stmt.listMentions [stmt]) := by
  rw [Stmt.list_referents_cons, Stmt.list_mentions_cons]
  simpa [Stmt.listReferents, Stmt.listMentions, Stmt.listStatements] using finds

/-- What is declared by what is read. -/
def Clause.referents : Clause → List Referent
  | statement stmt | turn stmt => Stmt.listReferents [stmt]
  | scope _ _ inside | statements inside | body _ _ inside => Stmt.listReferents inside
  | alternatives rest => rest.parts.flatMap fun part => Stmt.listReferents part.body
  | begun | failure _ => []

def Clause.mentions : Clause → List Mention
  | statement stmt | turn stmt => Stmt.listMentions [stmt]
  | scope _ _ inside | statements inside | body _ _ inside => Stmt.listMentions inside
  | alternatives rest =>
    rest.conditions.flatMap Expr.mentions ++
      rest.parts.flatMap fun part => Stmt.listMentions part.body
  | begun | failure _ => []

theorem Clause.Runs.finds {clause : Clause} {cursor after : Cursor} (runs : clause.Runs cursor after) :
    cursor.Finds after clause.referents clause.mentions := by
  have phrase {phrase : Phrase} {place last : Cursor} (inner : phrase.Runs place last) :
      place.Finds last (phrase.referents .inScope) phrase.mentions :=
    inner.finds .inScope
  have number {place last : Cursor} {referents : List Referent} {mentions : List Mention}
      (inner : place.numbered.Finds last referents mentions) : place.Finds last referents mentions :=
    inner.later .numbered
  induction runs with
  | plain inner =>
      apply Stmt.finds_of_parts
      simpa [Phrase.referents, Phrase.mentions, inner.alone.1] using phrase inner
  | block _ inner =>
      apply Stmt.finds_of_parts
      simpa [Stmt.referent?, Stmt.mentions, Stmt.mention?, Stmt.exprs, Stmt.parts, referents,
        mentions] using inner
  | branch _ test _ _ inner others =>
      apply Stmt.finds_of_parts
      refine ((((phrase test).later .step).append inner).append others).perm ?_ ?_
      · simp [Stmt.referent?, Stmt.parts, Clause.referents, Phrase.referents]
      · rw [List.perm_iff_count]
        intro mention
        simp only [Phrase.mentions, Phrase.exprs, Clause.mentions, Stmt.mentions, Stmt.mention?,
          Stmt.exprs, Stmt.parts, Option.toList_none, List.flatMap_cons, List.flatMap_nil,
          List.nil_append, List.append_nil, List.count_append]
        omega
  | whileLoop _ test _ inner =>
      apply Stmt.finds_of_parts
      simpa [Stmt.referent?, Stmt.mentions, Stmt.mention?, Stmt.exprs, Stmt.parts,
        referents, mentions, Phrase.referents, Phrase.mentions, Phrase.exprs] using
        ((phrase test).later .step).append inner
  | doLoop _ _ _ test _ inner =>
      apply Stmt.finds_of_parts
      have tested := ((phrase test).later .step).longer .step
      refine ((inner.later .step).append tested).perm ?_ ?_
      · simp [Stmt.referent?, Stmt.parts, Clause.referents, Phrase.referents]
      · simpa [Stmt.mentions, Stmt.mention?, Stmt.exprs, Stmt.parts, Clause.mentions,
          Phrase.mentions, Phrase.exprs] using List.perm_append_comm
  | forLoop _ clauses _ inner =>
      apply Stmt.finds_of_parts
      simpa [Stmt.referent?, Stmt.mentions, Stmt.mention?, Stmt.exprs, Stmt.parts,
        referents, mentions, Phrase.referents, Phrase.mentions, Phrase.exprs] using
        ((phrase clauses).later .step).append inner
  | scope _ _ _ inner => exact ((number inner).later .step).longer .step
  | ended | done | here => exact .none fun _ => .refl _
  | followed _ _ _ _ inner others =>
      have whole := inner.append others
      simp only [referents, mentions] at whole ⊢
      rw [Stmt.list_referents_cons, Stmt.list_mentions_cons] at whole ⊢
      simpa [Stmt.listReferents, Stmt.listMentions, Stmt.listStatements] using whole
  | read _ inner | braced _ inner => exact inner
  | broken inside goes inner =>
      exact Stmt.finds_of_parts (.none (Clause.Runs.broken inside goes inner).leads)
  | single _ _ inner => exact number inner
  | elseIf _ _ test _ _ inner others =>
      have tested := (phrase test).later (.append .step .step)
      refine ((tested.append inner).append others).perm (.of_eq ?_) ?_
      · simp [Alternatives.parts, referents, Phrase.referents]
      · rw [List.perm_iff_count]
        intro mention
        simp only [Phrase.mentions, Phrase.exprs, mentions, Alternatives.conditions,
          Alternatives.parts, List.flatMap_cons, List.flatMap_nil, List.append_nil,
          List.count_append]
        omega
  | otherwise _ _ inner =>
      simpa [referents, mentions, Alternatives.conditions, Alternatives.parts] using
        inner.later .step
  | passed front rest => exact .none (Clause.Runs.passed front rest).leads
  | numbered front rest => exact .none (Clause.Runs.numbered front rest).leads
  | part inner rest => exact .none (Clause.Runs.part inner rest).leads
  | fault front faults => exact .none (Clause.Runs.fault front faults).leads
  | unclosed front opens inner ends =>
      exact .none (Clause.Runs.unclosed front opens inner ends).leads

/-- The script has more declarations than another by these, and mentions these on top. -/
structure Script.Grows (script grown : Script) (referents : List Referent)
    (mentions : List Mention) : Prop where
  referents : (script.referents ++ referents).Perm grown.referents
  mentions : (script.mentions ++ mentions).Perm grown.mentions

theorem Cursor.Finds.grown {cursor after : Cursor} {script grown : Script}
    {referents : List Referent} {mentions : List Mention}
    (finds : cursor.Finds after (script.referents ++ referents) (script.mentions ++ mentions))
    (grows : script.Grows grown referents mentions) :
    cursor.Finds after grown.referents grown.mentions :=
  finds.perm grows.referents grows.mentions

namespace Script

variable (script : Script)

theorem grows_global (decl : GlobalDecl) :
    script.Grows { script with globals := script.globals ++ [decl] } [decl.referent]
      decl.mentions := by
  constructor <;>
  · rw [List.perm_iff_count]
    intro item
    simp only [Script.referents, headers, Script.mentions, routines, allStates, List.map_append,
      List.map_cons, List.map_nil, List.flatMap_append, List.flatMap_cons, List.flatMap_nil,
      List.count_append, List.count_nil]
    omega

theorem grows_function (decl : FunctionDecl) :
    script.Grows { script with functions := script.functions ++ [decl] }
      (decl.referent :: decl.routine.referents) decl.routine.mentions := by
  constructor <;>
  · rw [List.perm_iff_count]
    intro item
    simp only [Script.referents, headers, Script.mentions, routines, allStates, List.map_append,
      List.map_cons, List.map_nil, List.flatMap_append, List.flatMap_cons, List.flatMap_nil,
      List.count_append, List.count_cons, List.count_nil]
    omega

theorem grows_state (decl : StateDecl) :
    script.Grows { script with states := script.states ++ [decl] }
      (decl.referent :: decl.routines.flatMap Routine.referents)
      (decl.routines.flatMap Routine.mentions) := by
  constructor <;>
  · rw [List.perm_iff_count]
    intro item
    simp only [Script.referents, headers, Script.mentions, routines, allStates, List.map_append,
      List.map_cons, List.map_nil, List.flatMap_append, List.flatMap_cons, List.flatMap_nil,
      List.count_append, List.count_cons, List.count_nil]
    omega

theorem grows_default (vacant : script.defaultState = none) (decl : StateDecl) :
    script.Grows { script with defaultState := some decl }
      (decl.referent :: decl.routines.flatMap Routine.referents)
      (decl.routines.flatMap Routine.mentions) := by
  constructor <;>
  · rw [List.perm_iff_count]
    intro item
    simp only [Script.referents, headers, Script.mentions, routines, allStates, vacant,
      Option.toList_none, Option.toList_some, List.map_append, List.map_cons, List.map_nil,
      List.flatMap_append, List.flatMap_cons, List.flatMap_nil, List.count_append,
      List.count_cons, List.count_nil]
    omega

end Script

section

variable {cursor after : Cursor}

theorem ParameterDecl.Runs.finds {members : List ParameterDecl}
    (runs : ParameterDecl.Runs members cursor after) :
    cursor.Finds after (members.map ParameterDecl.referent) [] := by
  have declared {place : Cursor} (word : place.kind = .type)
      (name : place.step.kind = .identifier) :
      place.Finds place.step.step [⟨.parameter, place.start.offset⟩] [] :=
    .declares _ ⟨word ▸ by decide, .token (name ▸ by decide) (.here _)⟩
  induction runs with
  | last word _ name => exact declared word name
  | more word _ name _ _ rest => exact ((declared word name).longer .step).append rest

theorem ParameterList.Runs.finds {parameters : ParameterList}
    (runs : parameters.Runs cursor after) :
    cursor.Finds after (parameters.members.map ParameterDecl.referent) [] := by
  cases runs with
  | nothing => exact .append .step .step
  | listed _ inner _ => exact (inner.finds.later .step).longer .step

/-- Behind its name, a body is found with its parameters. -/
theorem Cursor.Bodied.finds {role : ScopeRole} {name : String} {parameters : ParameterList}
    {info : ScopeInfo} {body : List Stmt}
    (bodied : Cursor.Bodied role name parameters info body cursor after) :
    cursor.kind = .identifier ∧ cursor.step.Finds after
      (parameters.members.map ParameterDecl.referent ++ Stmt.listReferents body)
      (Stmt.listMentions body) := by
  cases bodied with
  | intro name list inner => exact ⟨name, list.finds.append inner.finds⟩

theorem FunctionDecl.Runs.finds {decl : FunctionDecl} (runs : decl.Runs cursor after) :
    cursor.Finds after (decl.referent :: decl.routine.referents) decl.routine.mentions := by
  cases runs with
  | typed word _ inner =>
      obtain ⟨name, finds⟩ := inner.finds
      have declared := Cursor.Finds.declares .function
        ⟨word ▸ by decide, .token (name ▸ by decide) (.here cursor.step.step)⟩
      exact declared.append finds
  | untyped inner =>
      obtain ⟨name, finds⟩ := inner.finds
      have declared := Cursor.Finds.declares .function ⟨name ▸ by decide, .here cursor.step⟩
      exact declared.append finds

theorem HandlerDecl.Runs.finds {decl : HandlerDecl} (runs : decl.Runs cursor after) :
    cursor.Finds after decl.routine.referents decl.routine.mentions := by
  cases runs with
  | intro inner => exact inner.finds.2.later .step

theorem StateMember.Runs.finds {member : StateMember} (runs : member.Runs cursor after) :
    cursor.Finds after (member.handler?.toList.flatMap (·.routine.referents))
      (member.handler?.toList.flatMap (·.routine.mentions)) := by
  cases runs with
  | handler inner => simpa [StateMember.handler?] using inner.finds
  | broken inside goes fails =>
      exact .none (StateMember.Runs.carried .leads (.broken inside goes fails))

theorem StateMember.ListRuns.finds {members : List StateMember}
    (runs : StateMember.ListRuns members cursor after) :
    cursor.Finds after ((members.filterMap StateMember.handler?).flatMap (·.routine.referents))
      ((members.filterMap StateMember.handler?).flatMap (·.routine.mentions)) := by
  induction runs with
  | ended => exact .none fun _ => .refl _
  | @followed member _ _ _ _ inner _ rest =>
      have whole := inner.finds.append rest
      rw [List.filterMap_cons]
      cases handler : member.handler? with
      | none => simpa [handler] using whole
      | some decl => simpa [handler] using whole

theorem StateDecl.Runs.finds {decl : StateDecl} (runs : decl.Runs cursor after) :
    cursor.Finds after (decl.referent :: decl.routines.flatMap Routine.referents)
      (decl.routines.flatMap Routine.mentions) := by
  cases runs with
  | intro head _ inner _ =>
      have declared := (Cursor.Finds.declares .state head.passes).longer .step
      simpa [StateDecl.referent, StateDecl.start, StateDecl.routines, StateDecl.handlers,
        Cursor.spanFrom, List.flatMap_map] using (declared.append inner.finds).longer .step

variable {script grown : Script}

/-- A turn brings its own, wherever it is put in the script. -/
theorem Script.Turns.finds {start : Cursor} (turns : script.Turns grown cursor after)
    (before : start.Finds cursor script.referents script.mentions) :
    start.Finds after grown.referents grown.mentions := by
  cases turns with
  | extended added =>
      cases added with
      | function _ _ inner =>
          exact (before.append inner.finds).grown (script.grows_function _)
      | @global span decl _ _ _ inner =>
          have finds := inner.finds .global
          exact (before.append finds).grown (script.grows_global { span, decl })
      | default vacant _ inner =>
          exact (before.append inner.finds).grown (script.grows_default vacant _)
      | early _ _ inner =>
          have noted := before.longer (.none (Cursor.early_carried .leads))
          exact (noted.append inner.finds).grown (script.grows_state _)
      | state _ inner => exact (before.append inner.finds).grown (script.grows_state _)
  | broken goes undone =>
      exact before.longer (.none (Script.Turns.carried .leads (.broken goes undone)))

end

/-- The declarations of a source start at different places. So do its mentions, none of which is
bound when the source is read. -/
theorem parse_finds (source : String) :
    ((parse (tokenize source)).1.referents.map (·.start)).Nodup ∧
    ((parse (tokenize source)).1.mentions.map (·.place)).Nodup ∧
    ∀ mention ∈ (parse (tokenize source)).1.mentions, mention.referent = none := by
  have ordered := ordered_of_source source
  have first : Cursor.Finds (.ofTokens (tokenize source)) (.ofTokens (tokenize source)) [] [] :=
    .none fun _ => .refl _
  obtain ⟨script, last, turn, _, parsed⟩ := parse_last (tokenize source)
  have finds : Cursor.Finds (.ofTokens (tokenize source)) last script.referents script.mentions :=
    turn.invariant ordered.closed first fun _ before turns => turns.finds before
  rw [parsed]
  exact ⟨(finds.declared ordered).distinct, (finds.mentioned ordered).distinct, finds.unbound⟩

end Lsl
