import Lsl.Proofs.Parsing.Layout
import Lsl.Proofs.Parsing.Turns
import Lsl.Proofs.Syntax.Bodies
import Lsl.Proofs.Token.Tiling
import Mathlib.Data.List.TakeWhile

/-!
The bodies of a script as it is read. The tokens of a source start one behind the other, so the
statements of every body do, and a source without errors has no statement that is broken or marked.
-/

set_option autoImplicit false

namespace Lsl

theorem Position.offset_lt_advance (place : Position) (char : Char) :
    place.offset < (place.advance char).offset := by
  have positive := char.utf8Size_pos
  unfold advance
  split <;> simp only <;> omega

theorem Position.offset_le_advance_over (place : Position) (chars : List Char) :
    place.offset ≤ (place.advanceOver chars).offset := by
  induction chars generalizing place with
  | nil => exact Nat.le_refl _
  | cons char rest induction =>
      have first := place.offset_lt_advance char
      have others := induction (place.advance char)
      rw [advance_over_cons]
      omega

/-- Only a token can come from the front of a text, and it starts there. -/
theorem Lexeme.token_starts (lexeme : Lexeme) (text : List Char) (place : Position) :
    ((lexeme.scanned text place).filterMap Scanned.token?).map (·.span.start.offset) = [] ∨
      ((lexeme.scanned text place).filterMap Scanned.token?).map (·.span.start.offset) =
        [place.offset] := by
  unfold scanned
  split
  · exact .inl rfl
  · exact .inr rfl
  · exact .inl rfl

theorem scan_from_rising (place : Position) (pending : Nat) (chars : List Char) :
    Rising place.offset (place.advanceOver chars).offset
      (((scanFrom place pending chars).filterMap Scanned.token?).map (·.span.start.offset)) := by
  induction chars generalizing place pending with
  | nil =>
      rw [scanFrom]
      exact .nil
  | cons char rest induction =>
      have further := place.offset_lt_advance char
      have bound := (place.advance char).offset_le_advance_over rest
      rw [Position.advance_over_cons]
      cases pending with
      | succ pending =>
          rw [scanFrom]
          exact (induction _ _).widen (Nat.le_of_lt further) (Nat.le_refl _)
      | zero =>
          have others := (induction (place.advance char)
            ((Lexeme.front char rest).length - 1)).widen further (Nat.le_refl _)
          rw [scanFrom, List.filterMap_append, List.map_append]
          rcases (Lexeme.front char rest).token_starts _ place with none | one
          · rw [none, List.nil_append]
            exact others.widen (Nat.le_succ _) (Nat.le_refl _)
          · rw [one, List.singleton_append]
            exact others.cons (by omega)

theorem tokenize_rising (source : String) :
    ((tokenize source).map (·.span.start.offset)).Pairwise (· < ·) := by
  have scanned := scan_from_rising .origin 0 source.toList
  rw [tokenize, List.map_append, List.pairwise_append]
  refine ⟨scanned.ordered, List.pairwise_singleton _ _, ?_⟩
  intro start member closing last
  have bounds := scanned.within start member
  have same : closing = (Position.origin.advanceOver source.toList).offset := by
    simpa [Token.closing, Span.point] using last
  omega

/-- A source has no more tokens than bytes, except for the closing one. -/
theorem tokenize_length_le (source : String) :
    (tokenize source).length ≤ source.utf8ByteSize + 1 := by
  have rising := scan_from_rising .origin 0 source.toList
  have fewer := rising.length_le (Position.origin.offset_le_advance_over source.toList)
  have size := (Position.Behind.origin.advance_over source.toList).offset
  rw [List.nil_append, String.ofList_toList] at size
  rw [size, List.length_map, Position.origin, Nat.zero_add] at fewer
  rw [tokenize, List.length_append]
  exact Nat.succ_le_succ fewer

/-- What a cursor sees of tokens, when one of them closes the script. -/
theorem Cursor.of_tokens_prefix {tokens : List Token}
    (closed : ∃ token ∈ tokens, token.kind = .endOfFile) :
    (ofTokens tokens).close.kind = .endOfFile ∧
      (ofTokens tokens).ahead ++ [(ofTokens tokens).close] <+: tokens := by
  induction tokens with
  | nil => simp at closed
  | cons token rest induction =>
      by_cases kind : token.kind = .endOfFile
      · simp [ofTokens, kind]
      · have later : ∃ token ∈ rest, token.kind = .endOfFile := by
          obtain ⟨found, member, last⟩ := closed
          rcases List.mem_cons.mp member with rfl | member
          · exact absurd last kind
          · exact ⟨found, member, last⟩
        obtain ⟨last, shown⟩ := induction later
        obtain ⟨found, located⟩ : ∃ found, rest.find? (·.kind == .endOfFile) = some found := by
          rw [← Option.isSome_iff_exists, List.find?_isSome]
          simpa using later
        simp only [ofTokens, located, Option.getD_some] at last shown
        have unlike : (token.kind == .endOfFile) = false := by simpa using kind
        simp only [ofTokens, List.takeWhile_cons, List.find?_cons, located, unlike]
        simpa [kind] using ⟨last, shown⟩

theorem ordered_of_source (source : String) : (Cursor.ofTokens (tokenize source)).Ordered := by
  have closed : ∃ token ∈ tokenize source, token.kind = .endOfFile :=
    ⟨_, List.mem_append_right _ (List.mem_singleton_self _), rfl⟩
  obtain ⟨last, shown⟩ := Cursor.of_tokens_prefix closed
  refine ⟨?_, last⟩
  exact (tokenize_rising source).sublist (shown.sublist.map _)

/-- The statements start one behind the other, and so are the scopes numbered. -/
structure CodeScope.InOrder (scope : CodeScope) : Prop where
  starts : (Stmt.listStarts scope.body).Pairwise (· < ·)
  ids : (scope.info.id :: Stmt.listIds scope.body).Pairwise (· < ·)

/-- A body that was read on the way to a cursor. -/
structure CodeScope.ReadAt (scope : CodeScope) (cursor : Cursor) : Prop where
  order : scope.InOrder
  fresh : cursor.errors = [] → scope.info.reach = .live ∧ Stmt.Fresh scope.body

theorem CodeScope.ReadAt.later {scope : CodeScope} {cursor after : Cursor}
    (read : scope.ReadAt cursor) (leads : cursor.Leads after) : scope.ReadAt after where
  order := read.order
  fresh := by
    intro silent
    have begun := leads.errors
    rw [silent, List.prefix_nil] at begun
    exact read.fresh begun

theorem Clause.Runs.read_at {role : ScopeRole} {body : CodeScope} {cursor after : Cursor}
    (runs : (Clause.scope role body.info body.body).Runs cursor after) (ordered : cursor.Ordered) :
    body.ReadAt after := by
  obtain ⟨_, _, laid⟩ := runs.lays ordered
  have leads := runs.leads ordered
  refine ⟨⟨?_, runs.numbers.ordered⟩, ?_⟩
  · simpa using laid.starts.ordered
  · intro silent
    have begun := leads.errors
    rw [silent, List.prefix_nil] at begun
    exact laid.fresh (silent.trans begun.symm) body (List.mem_singleton_self _)

/-- The body was read somewhere between the cursors. -/
def Cursor.Contains (cursor after : Cursor) (body : CodeScope) : Prop :=
  ∃ role place last, (Clause.scope role body.info body.body).Runs place last ∧
    ∀ {relation}, Cursor.Carries relation → relation cursor place ∧ relation last after

namespace Cursor.Contains

variable {cursor middle after : Cursor} {body : CodeScope}

theorem later (contains : middle.Contains after body)
    (front : ∀ {relation}, Cursor.Carries relation → relation cursor middle) :
    cursor.Contains after body := by
  obtain ⟨role, place, last, runs, around⟩ := contains
  refine ⟨role, place, last, runs, fun carries => ?_⟩
  exact ⟨carries.trans (front carries) (around carries).1, (around carries).2⟩

theorem longer (contains : cursor.Contains middle body)
    (back : ∀ {relation}, Cursor.Carries relation → relation middle after) :
    cursor.Contains after body := by
  obtain ⟨role, place, last, runs, around⟩ := contains
  refine ⟨role, place, last, runs, fun carries => ?_⟩
  exact ⟨(around carries).1, carries.trans (around carries).2 (back carries)⟩

end Cursor.Contains

section

variable {cursor after : Cursor}

theorem Cursor.Bodied.contains {role : ScopeRole} {name : String} {parameters : ParameterList}
    {info : ScopeInfo} {body : List Stmt}
    (bodied : Cursor.Bodied role name parameters info body cursor after) :
    cursor.Contains after ⟨info, body⟩ := by
  cases bodied with
  | intro _ list inner =>
      refine ⟨role, _, after, inner, fun carries => ⟨?_, carries.refl after⟩⟩
      exact carries.trans (carries.step cursor) (list.passes.carried carries)

theorem FunctionDecl.Runs.contains {decl : FunctionDecl} (runs : decl.Runs cursor after) :
    cursor.Contains after decl.ownScope := by
  cases runs with
  | typed _ _ inner => exact inner.contains.later fun carries => carries.step cursor
  | untyped inner => exact inner.contains

theorem StateMember.Runs.contains {member : StateMember} (runs : member.Runs cursor after)
    {body : CodeScope} (own : member.body? = some body) : cursor.Contains after body := by
  cases runs with
  | handler inner =>
      cases own
      cases inner with
      | intro inner => exact inner.contains
  | broken => cases own

theorem StateMember.ListRuns.contains {members : List StateMember}
    (runs : StateMember.ListRuns members cursor after) {body : CodeScope}
    (own : body ∈ members.filterMap StateMember.body?) : cursor.Contains after body := by
  induction runs with
  | ended => cases own
  | followed inner others rest =>
      obtain ⟨member, inside, found⟩ := List.mem_filterMap.mp own
      rcases List.mem_cons.mp inside with rfl | inside
      · exact (inner.contains found).longer fun carries => others.carried carries
      · exact (rest (List.mem_filterMap.mpr ⟨member, inside, found⟩)).later
          fun carries => inner.carried carries

theorem StateDecl.Runs.contains {decl : StateDecl} (runs : decl.Runs cursor after)
    {body : CodeScope} (own : body ∈ decl.bodies) : cursor.Contains after body := by
  cases runs with
  | intro head _ inner _ =>
      have inside := (inner.contains own).longer fun carries => carries.step _
      exact inside.later fun carries =>
        carries.trans (head.passes.passes.carried carries) (carries.step _)

variable {script grown : Script}

theorem Script.Turns.contains (turns : script.Turns grown cursor after) {body : CodeScope}
    (inside : body ∈ grown.bodies) : body ∈ script.bodies ∨ cursor.Contains after body := by
  have state {decl : StateDecl} (contains : ∀ body ∈ decl.bodies, cursor.Contains after body)
      (among : body ∈ { script with states := script.states ++ [decl] }.bodies) :
      body ∈ script.bodies ∨ cursor.Contains after body := by
    simp only [Script.bodies, ← List.append_assoc, List.flatMap_append, List.mem_append] at among
    rcases among with among | among
    · exact .inl (by simpa [Script.bodies, or_assoc] using among)
    · exact .inr (contains body (by simpa using among))
  cases turns with
  | extended added =>
      cases added with
      | function _ _ inner =>
          simp only [Script.bodies, List.map_append, List.mem_append] at inside
          rcases inside with (inside | inside) | inside
          · exact .inl (List.mem_append_left _ inside)
          · obtain rfl := List.mem_singleton.mp inside
            exact .inr inner.contains
          · exact .inl (List.mem_append_right _ inside)
      | global => exact .inl inside
      | default vacant _ inner =>
          simp only [Script.bodies, Option.toList_some, List.flatMap_append,
            List.mem_append] at inside
          rcases inside with inside | inside | inside
          · exact .inl (List.mem_append_left _ inside)
          · exact .inr (inner.contains (by simpa using inside))
          · simp only [Script.bodies, List.flatMap_append, List.mem_append]
            exact .inl (.inr (.inr inside))
      | early _ _ inner =>
          refine state (fun body own => ?_) inside
          exact (inner.contains own).later fun carries => Cursor.early_carried carries
      | state _ inner => exact state (fun body own => inner.contains own) inside
  | broken => exact .inl inside

theorem Parser.Turn.contains {start : Cursor} (closed : start.close.kind = .endOfFile)
    (turn : Parser.Turn start script cursor) :
    ∀ body ∈ script.bodies, start.Contains cursor body := by
  have whole : (∀ {relation}, Cursor.Carries relation → relation start cursor) ∧
      ∀ body ∈ script.bodies, start.Contains cursor body := by
    apply turn.invariant closed
    · exact ⟨fun carries => carries.refl start, fun body inside => nomatch inside⟩
    · intro script grown cursor after _ before turns
      obtain ⟨front, before⟩ := before
      refine ⟨fun carries => carries.trans (front carries) (turns.carried carries), ?_⟩
      intro body inside
      rcases turns.contains inside with earlier | contains
      · exact (before body earlier).longer fun carries => turns.carried carries
      · exact contains.later front
  exact whole.2

end

theorem parse_read {source : String} {body : CodeScope}
    (inside : body ∈ (parse (tokenize source)).1.bodies) :
    ∃ last, body.ReadAt last ∧ (parse (tokenize source)).2 = last.errors := by
  obtain ⟨script, last, turn, _, parsed⟩ := parse_last (tokenize source)
  rw [parsed] at inside ⊢
  have ordered := ordered_of_source source
  obtain ⟨role, place, stop, runs, around⟩ := turn.contains ordered.closed body inside
  have front := (around .leads).1 ordered
  have placed := ordered.after front
  have back := (around .leads).2 (placed.after (runs.leads placed))
  exact ⟨last, (runs.read_at placed).later back, rfl⟩

theorem parse_bodies {source : String} {body : CodeScope}
    (inside : body ∈ (parse (tokenize source)).1.bodies) :
    body.InOrder ∧ ((parse (tokenize source)).2 = [] → Stmt.Fresh body.body) := by
  obtain ⟨last, read, errors⟩ := parse_read inside
  exact ⟨read.order, fun silent => (read.fresh (errors.symm.trans silent)).2⟩

/-- Nor is the scope of a body marked when it is read. -/
theorem parse_bodies_live {source : String} {body : CodeScope}
    (inside : body ∈ (parse (tokenize source)).1.bodies)
    (silent : (parse (tokenize source)).2 = []) : body.info.reach = .live := by
  obtain ⟨last, read, errors⟩ := parse_read inside
  exact (read.fresh (errors.symm.trans silent)).1

end Lsl
