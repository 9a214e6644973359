import Lsl.Proofs.Flow.Marking
import Lsl.Proofs.Parsing.Numbering
import Lsl.Proofs.Parsing.Reading

/-!
What statements are like when they have just been read between two cursors: they start one behind
the other, and unless an error was reported on the way nothing in them is broken or marked. A broken
statement takes its place among the others: the text skipped for it is never empty.
-/

set_option autoImplicit false

namespace Lsl

/-- The scopes of a statement as they are read. The first bound is that of the starts. -/
structure Laid (low : Nat) (scopes : List CodeScope) (cursor after : Cursor) : Prop where
  starts : Rising low after.start.offset
    (scopes.flatMap fun scope => Stmt.listStarts scope.body)
  fresh : after.errors = cursor.errors →
    ∀ scope ∈ scopes, scope.info.reach = .live ∧ Stmt.Fresh scope.body

/-- Statements as they are read. -/
structure LaidOut (body : List Stmt) (cursor after : Cursor) : Prop where
  starts : Rising cursor.start.offset after.start.offset (Stmt.listStarts body)
  fresh : after.errors = cursor.errors → Stmt.Fresh body

section

variable {low : Nat} {cursor middle after : Cursor} {front back : List CodeScope}

theorem Laid.none (cursor after : Cursor) : Laid low [] cursor after :=
  ⟨.nil, by simp⟩

theorem Laid.widen {lower : Nat} {before last : Cursor} (laid : Laid low front cursor after)
    (below : lower ≤ low) (earlier : before.Leads cursor) (between : cursor.Leads after)
    (later : after.Leads last) : Laid lower front before last where
  starts := laid.starts.widen below later.start
  fresh := by
    intro silent
    have rest := (earlier.silent (between.trans later) silent).2
    exact laid.fresh (between.silent later rest).1

theorem Laid.append (first : Laid low front cursor middle)
    (second : Laid middle.start.offset back middle after) (leads : cursor.Leads middle)
    (more : middle.Leads after) (below : low ≤ middle.start.offset) :
    Laid low (front ++ back) cursor after where
  starts := by
    rw [List.flatMap_append]
    exact first.starts.append second.starts below more.start
  fresh := by
    intro silent scope member
    have parts := leads.silent more silent
    rcases List.mem_append.mp member with member | member
    · exact first.fresh parts.1 scope member
    · exact second.fresh parts.2 scope member

/-- A statement is laid out if it starts in front of its own scopes. -/
theorem LaidOut.single {stmt : Stmt} (starts : stmt.start = cursor.start.offset)
    (whole : stmt.isBroken = false) (live : stmt.reach = .live)
    (further : cursor.start.offset < after.start.offset)
    (parts : Laid (cursor.start.offset + 1) stmt.parts cursor after) :
    LaidOut [stmt] cursor after where
  starts := by
    have inner := parts.starts
    rw [Stmt.list_starts_cons, starts]
    simpa [Stmt.listStarts, Stmt.listStatements] using inner.cons further
  fresh := by
    intro silent
    have inner := parts.fresh silent
    refine Stmt.fresh_cons.mpr ⟨⟨whole, ?_⟩, fun part member => (inner part member).2, ?_⟩
    · intro mark member
      rcases List.mem_cons.mp member with rfl | member
      · exact live
      · obtain ⟨part, partMember, rfl⟩ := List.mem_map.mp member
        exact (inner part partMember).1
    · simp [Stmt.Fresh, Stmt.listStatements]

theorem LaidOut.none (cursor after : Cursor) : LaidOut [] cursor after :=
  ⟨.nil, by simp [Stmt.Fresh, Stmt.listStatements]⟩

theorem LaidOut.cons {stmt : Stmt} {rest : List Stmt} (first : LaidOut [stmt] cursor middle)
    (others : LaidOut rest middle after) (leads : cursor.Leads middle)
    (more : middle.Leads after) : LaidOut (stmt :: rest) cursor after where
  starts := by
    have joined := first.starts.append others.starts leads.start more.start
    rw [Stmt.list_starts_cons] at joined ⊢
    simpa [Stmt.listStarts, Stmt.listStatements] using joined
  fresh := by
    intro silent
    have parts := leads.silent more silent
    have head := Stmt.fresh_cons.mp (first.fresh parts.1)
    exact Stmt.fresh_cons.mpr ⟨head.1, head.2.1, others.fresh parts.2⟩

theorem LaidOut.scope {body : List Stmt} {info : ScopeInfo} (laid : LaidOut body middle after)
    (live : info.reach = .live) (leads : cursor.Leads middle) (more : middle.Leads after) :
    Laid middle.start.offset [⟨info, body⟩] cursor after where
  starts := by simpa using laid.starts
  fresh := by
    intro silent scope member
    obtain rfl := List.mem_singleton.mp member
    exact ⟨live, laid.fresh (leads.silent more silent).2⟩

end

theorem Span.merge_start {first second : Span}
    (ordered : first.start.offset ≤ second.start.offset) :
    (first.merge second).start = first.start := by
  unfold Span.merge
  rw [if_neg (by omega)]

/-- Where the phrase starts, if it has a span. -/
def Phrase.start? : Phrase → Option Position
  | expression _ expr | chain _ expr | operand expr => some expr.span.start
  | declaration span _ => some span.start
  | statement stmt => some stmt.span.start
  | _ => none

theorem Token.literal_start {token : Token} {expr : Expr} (known : token.literal? = some expr) :
    expr.span.start = token.span.start := by
  unfold Token.literal? at known
  split at known
  case h_5 => cases known
  all_goals
    cases known
    rfl

theorem Phrase.Runs.starts {phrase : Phrase} {cursor after : Cursor}
    (runs : phrase.Runs cursor after) (ordered : cursor.Ordered) {start : Position}
    (found : phrase.start? = some start) : start = cursor.start := by
  -- What goes on behind a left side starts where that does.
  have merged {left right : Span} {place : Cursor} (same : left.start = place.start)
      (further : place.start.offset ≤ right.start.offset) :
      (left.merge right).start = place.start := by
    rw [Span.merge_start (by rw [same]; exact further), same]
  induction runs generalizing start with
  | literal known =>
      cases found
      exact Token.literal_start known
  | expression _ _ chain => exact chain ordered found
  | first _ operand => exact operand ordered found
  | step _ chain _ _ left =>
      cases found
      exact merged (left ordered rfl) (chain.passes.leads ordered).start
  | component chain _ _ _ _ left =>
      cases found
      have leads := chain.passes.leads ordered
      exact merged (left ordered rfl) (leads.trans (Cursor.leads_step (ordered.after leads))).start
  | binary chain _ _ _ _ left right =>
      cases found
      have leads := chain.passes.leads ordered
      have further := leads.trans (Cursor.leads_step (ordered.after leads))
      have same := right (ordered.after further) rfl
      exact merged (left ordered rfl) (by rw [same]; exact further.start)
  | prefixed _ _ inner =>
      cases found
      have leads := Cursor.leads_step ordered
      have same := inner (ordered.after leads) rfl
      exact merged rfl (by rw [same]; exact leads.start)
  | declare _ inner => exact inner ordered found
  | perform _ _ inner =>
      cases found
      exact inner ordered rfl
  | reference | call | cast | grouped | elements | vector | rotation | unset | set | giveBack
    | jump | label | changeState | empty =>
      cases found
      rfl
  | _ => cases found

/-- What is laid out by what is read. -/
def Clause.Lays (clause : Clause) (cursor after : Cursor) : Prop :=
  match clause with
  | statement stmt | turn stmt => LaidOut [stmt] cursor after
  | scope _ info inside =>
    info.span.start = cursor.start ∧ info.reach = .live ∧
      Laid (cursor.start.offset + 1) [⟨info, inside⟩] cursor after
  | statements inside => LaidOut inside cursor after
  | body _ info inside => Laid cursor.start.offset [⟨info, inside⟩] cursor after
  | alternatives rest => Laid cursor.start.offset rest.parts cursor after
  | begun | failure _ => True

theorem LaidOut.broken {cursor after : Cursor} {span : Span}
    (starts : span.start.offset = cursor.start.offset)
    (further : cursor.start.offset < after.start.offset)
    (loud : after.errors ≠ cursor.errors) : LaidOut [.broken span] cursor after where
  starts := by
    have alone : Stmt.listStarts [.broken span] = [cursor.start.offset] := by
      rw [← starts]
      rfl
    rw [alone]
    exact Rising.nil.cons further
  fresh silent := absurd silent loud

theorem Cursor.broken_span_start (cursor : Cursor) (start : Position) :
    (cursor.brokenSpan start).start = start := by
  unfold brokenSpan
  split <;> rfl

theorem Clause.Runs.lays {clause : Clause} {cursor after : Cursor} (runs : clause.Runs cursor after)
    (ordered : cursor.Ordered) : clause.Lays cursor after := by
  induction runs with
  | plain inner =>
      obtain ⟨parts, _, live⟩ := inner.alone
      have starts := congrArg Position.offset (inner.starts ordered rfl)
      refine .single starts (by cases inner <;> rfl) live (ordered.start_lt_of_advances inner.moves) ?_
      rw [parts]
      exact .none _ _
  | block inner scope =>
      obtain ⟨starts, live, laid⟩ := scope ordered
      cases inner with
      | scope opens inner _ =>
          have taken := Cursor.Carries.leads.numbered _ (ordered.after (Cursor.leads_step ordered))
          have numbered := (ordered.after (Cursor.leads_step ordered)).after taken
          have leads := inner.leads numbered
          have last := Cursor.leads_step (numbered.after leads)
          have further := ordered.further opens (by decide) (taken.trans (leads.trans last))
          exact .single (congrArg Position.offset starts) rfl live further laid
  | branch word test inner others body rest =>
      have step := Cursor.leads_step ordered
      have tested := test.passes.leads (ordered.after step)
      have begun := step.trans tested
      have inside := inner.leads (ordered.after begun)
      have behind := others.leads (ordered.after (begun.trans inside))
      have here := ordered.further word (by decide) tested
      have whole := inside.trans behind
      have further := ordered.further word (by decide) (tested.trans whole)
      have laid := (body (ordered.after begun)).append
        (rest (ordered.after (begun.trans inside))) inside behind inside.start
      exact .single rfl rfl rfl further (laid.widen here begun whole (.refl _))
  | whileLoop word test inner body =>
      have step := Cursor.leads_step ordered
      have tested := test.passes.leads (ordered.after step)
      have begun := step.trans tested
      have inside := inner.leads (ordered.after begun)
      have here := ordered.further word (by decide) tested
      have further := ordered.further word (by decide) (tested.trans inside)
      exact .single rfl rfl rfl further
        ((body (ordered.after begun)).widen here begun inside (.refl _))
  | doLoop word inner again test ends body =>
      have step := Cursor.leads_step ordered
      have inside := inner.leads (ordered.after step)
      have behind := ordered.after (step.trans inside)
      have next := Cursor.leads_step behind
      have tested := next.trans (test.passes.leads (behind.after next))
      have ended := tested.trans (Cursor.leads_step (behind.after tested))
      have here := ordered.further word (by decide) (.refl _)
      have further := ordered.further word (by decide) (inside.trans ended)
      exact .single rfl rfl rfl further ((body (ordered.after step)).widen here step inside ended)
  | forLoop word clauses inner body =>
      have step := Cursor.leads_step ordered
      have headed := clauses.passes.leads (ordered.after step)
      have begun := step.trans headed
      have inside := inner.leads (ordered.after begun)
      have here := ordered.further word (by decide) headed
      have further := ordered.further word (by decide) (headed.trans inside)
      exact .single rfl rfl rfl further
        ((body (ordered.after begun)).widen here begun inside (.refl _))
  | scope opens inner _ body =>
      have step := Cursor.leads_step ordered
      have taken := Cursor.Carries.leads.numbered _ (ordered.after step)
      have numbered := (ordered.after step).after taken
      have inside := inner.leads numbered
      have last := Cursor.leads_step (numbered.after inside)
      have here := ordered.further opens (by decide) (.refl _)
      refine ⟨rfl, rfl, Laid.widen ?_ here step (taken.trans inside) last⟩
      exact (body numbered).scope rfl taken inside
  | ended => exact .none _ _
  | followed _ _ inner others first rest =>
      have leads := inner.leads ordered
      have inside := ordered.after leads
      exact (first ordered).cons (rest inside) leads (others.leads inside)
  | read _ inner => exact inner ordered
  | @broken error _ _ inside goes inner =>
      have shorter := Cursor.abandoned_shorter inner.reaches ordered.closed goes
        (fun _ rest same => Parser.statement_skip_pos rest (same ▸ inside)) error
      have further := ordered.start_lt
        (inner.reaches.trans (Cursor.reaches_abandoned _ _ _)) shorter
      exact .broken (congrArg Position.offset (Cursor.broken_span_start _ _)) further
        (Cursor.errors_abandoned_ne inner.reaches _ _)
  | braced inner scope =>
      obtain ⟨_, _, laid⟩ := scope ordered
      exact laid.widen (Nat.le_succ _) (.refl _) (inner.leads ordered) (.refl _)
  | single _ inner statement =>
      have taken := Cursor.Carries.leads.numbered _ ordered
      have numbered := ordered.after taken
      exact (statement numbered).scope rfl taken (inner.leads numbered)
  | done => exact .none _ _
  | elseIf word again test inner others body rest =>
      have step := Cursor.leads_step ordered
      have next := Cursor.leads_step (ordered.after step)
      have further := step.trans next
      have begun := further.trans (test.passes.leads (ordered.after further))
      have inside := inner.leads (ordered.after begun)
      have behind := others.leads (ordered.after (begun.trans inside))
      have laid := (body (ordered.after begun)).append
        (rest (ordered.after (begun.trans inside))) inside behind inside.start
      exact laid.widen begun.start begun (inside.trans behind) (.refl _)
  | otherwise word inner body =>
      have step := Cursor.leads_step ordered
      have inside := ordered.after step
      exact (body inside).widen step.start step (inner.leads inside) (.refl _)
  | _ => trivial

end Lsl
