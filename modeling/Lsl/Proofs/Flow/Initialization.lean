import Lsl.Proofs.Checking.Spelling
import Lsl.Proofs.Flow.Hoisting

/-!
Declarations and the paths to what refers to them. The statements behind a declaration in its scope
are entered through the declaration, or by a jump from in front of it to a label that stands
directly among them. So every path to a use passes the declaration, unless such a jump skips it.
-/

set_option autoImplicit false

namespace Lsl

namespace Stmt

theorem mem_label_starts_cons {head : Stmt} {rest : List Stmt} {label : Nat}
    (member : label ∈ labelStarts (head :: rest)) :
    label = head.start ∨ label ∈ labelStarts rest := by
  obtain ⟨stmt, inside, found⟩ := mem_label_starts.mp member
  rcases List.mem_cons.mp inside with rfl | inside
  · exact .inl (start_of_label_start found).symm
  · exact .inr (mem_label_starts.mpr ⟨stmt, inside, found⟩)

end Stmt

namespace Behind

variable {stmt : Stmt} {back body : List Stmt}

theorem starts_subset (stands : Behind stmt back body) {start : Nat}
    (inside : start ∈ Stmt.listStarts back) : start ∈ Stmt.listStarts body := by
  obtain ⟨found, member, rfl⟩ := List.mem_map.mp inside
  exact List.mem_map_of_mem (stands.subset member)

theorem entry (stands : Behind stmt back body) (distinct : Stmt.Distinct body) (next : Point) :
    ∃ first ∉ Stmt.listStarts back, Stmt.entry next body = .before first := by
  cases stands with
  | here => exact ⟨stmt.start, distinct.head_not_rest, rfl⟩
  | @rest head rest later =>
      exact ⟨head.start, fun inside => distinct.head_not_rest (later.starts_subset inside), rfl⟩
  | @part head rest part member inner =>
      refine ⟨head.start, ?_, rfl⟩
      exact fun inside => distinct.head_not_part member (inner.starts_subset inside)

theorem label (stands : Behind stmt back body) (distinct : Stmt.Distinct body) {label : Nat}
    (direct : label ∈ Stmt.labelStarts body) (inside : label ∈ Stmt.listStarts back) :
    label ∈ Stmt.labelStarts back := by
  induction stands with
  | here =>
      rcases Stmt.mem_label_starts_cons direct with rfl | direct
      · exact absurd inside distinct.head_not_rest
      · exact direct
  | rest later induction =>
      rcases Stmt.mem_label_starts_cons direct with rfl | direct
      · exact absurd (later.starts_subset inside) distinct.head_not_rest
      · exact induction distinct.rest direct
  | part member inner _ =>
      have deep := inner.starts_subset inside
      rcases Stmt.mem_label_starts_cons direct with rfl | direct
      · exact absurd deep (distinct.head_not_part member)
      · exact absurd (Stmt.label_starts_subset direct) (distinct.part_not_rest member deep)

/-- Without a jump control comes behind a declaration through the declaration alone. -/
theorem flow_into (stands : Behind stmt back body) (distinct : Stmt.Distinct body)
    (leaf : stmt.parts = []) {next behind : Point}
    (away : ∀ start ∈ Stmt.listStarts back, next ≠ .before start) {past : Bool} {source : Stmt}
    (placed : (source, behind) ∈ Stmt.listPlaced next body) (falls : source.target? = none)
    {start : Nat} (inside : start ∈ Stmt.listStarts back)
    (way : .before start ∈ source.ways past behind) :
    source = stmt ∨ source ∈ Stmt.listStatements back := by
  induction stands generalizing next with
  | here =>
      rcases Stmt.mem_list_placed_cons.mp placed with ⟨rfl, _⟩ | ⟨part, member, _⟩ | placed
      · exact .inl rfl
      · simp [leaf] at member
      · exact .inr (Stmt.mem_statements_of_placed placed)
  | @rest head rest later induction =>
      by_cases own : (source, behind) ∈ Stmt.listPlaced next rest
      · exact induction distinct.rest away own
      · -- From the statement in front control goes to the first of the others at most.
        exfalso
        have single : (source, behind) ∈ Stmt.listPlaced (Stmt.entry next rest) [head] := by
          have either := List.mem_append.mp placed
          simpa [Stmt.listPlaced, Stmt.entry] using either.resolve_right own
        obtain ⟨first, outside, enters⟩ := later.entry distinct.rest next
        have deep := later.starts_subset inside
        rcases Stmt.flow_stays single falls way with same | ⟨other, found, same⟩
        · rw [enters] at same
          exact outside (Point.before.inj same ▸ inside)
        · exact distinct.single_not_rest found (Point.before.inj same ▸ deep)
  | @part head rest scope member inner induction =>
      have deep := inner.starts_subset inside
      -- Neither what is behind the statement nor its own start is in one of its scopes.
      have awayBehind : ∀ start ∈ Stmt.listStarts back, Stmt.entry next rest ≠ .before start := by
        intro start found same
        rcases Stmt.entry_cases next rest with equal | ⟨first, firstInside, equal⟩
        · exact away start found (equal.symm.trans same)
        · have shared := Point.before.inj (equal.symm.trans same)
          exact distinct.part_not_rest member (inner.starts_subset found) (shared ▸ firstInside)
      have awayAfter : ∀ start ∈ Stmt.listStarts back,
          head.after (Stmt.entry next rest) ≠ .before start := by
        intro start found same
        rcases head.after_cases (Stmt.entry next rest) with equal | equal
        · exact awayBehind start found (equal.symm.trans same)
        · have shared := Point.before.inj (equal.symm.trans same)
          exact distinct.head_not_part member (shared ▸ inner.starts_subset found)
      rcases Stmt.mem_list_placed_cons.mp placed with ⟨rfl, rfl⟩ | ⟨part, partMember, placed⟩ | placed
      · exfalso
        rcases Stmt.ways_cases way with ⟨label, goes, _⟩ | ⟨_, same | ⟨part, partMember, same⟩⟩
        · simp [falls] at goes
        · exact awayBehind start inside same.symm
        · rcases Stmt.entry_cases (source.after (Stmt.entry next rest)) part.body with
            equal | ⟨first, found, equal⟩
          · exact awayAfter start inside (equal.symm.trans same.symm)
          · obtain rfl := Point.before.inj (same.trans equal)
            obtain rfl := distinct.part_unique partMember member found deep
            obtain ⟨other, outside, enters⟩ := inner.entry (distinct.part member) _
            exact outside (Point.before.inj (same.trans enters) ▸ inside)
      · rcases Stmt.flow_stays placed falls way with same | ⟨other, found, same⟩
        · exact absurd same.symm (awayAfter start inside)
        · obtain rfl := Point.before.inj same
          obtain rfl := distinct.part_unique partMember member found deep
          exact induction (distinct.part member) awayAfter placed
      · exfalso
        rcases Stmt.flow_stays placed falls way with same | ⟨other, found, same⟩
        · exact away start inside same.symm
        · exact distinct.part_not_rest member deep (Point.before.inj same ▸ found)

end Behind

/-- A label from around the statements that starts among them stands directly among them. -/
def Stmt.Apart (around : List Nat) (body : List Stmt) : Prop :=
  ∀ label ∈ around, label ∈ listStarts body → label ∈ labelStarts body

namespace Stmt.Apart

variable {around : List Nat} {head : Stmt} {others : List Stmt}
  (apart : Apart around (head :: others)) (distinct : Distinct (head :: others))

include apart distinct

theorem rest : Apart around others := by
  intro label known found
  have whole : label ∈ listStarts (head :: others) := mem_list_starts_cons.mpr (.inr (.inr found))
  rcases mem_label_starts_cons (apart label known whole) with rfl | direct
  · exact absurd found distinct.head_not_rest
  · exact direct

theorem not_part {part : CodeScope} (member : part ∈ head.parts) {label : Nat}
    (known : label ∈ around) : label ∉ listStarts part.body := by
  intro found
  have whole : label ∈ listStarts (head :: others) :=
    mem_list_starts_cons.mpr (.inr (.inl ⟨part, member, found⟩))
  rcases mem_label_starts_cons (apart label known whole) with rfl | direct
  · exact distinct.head_not_part member found
  · exact distinct.part_not_rest member found (label_starts_subset direct)

theorem part {part : CodeScope} (member : part ∈ head.parts) :
    Apart (labelStarts part.body ++ around) part.body := by
  intro label known found
  rcases List.mem_append.mp known with direct | known
  · exact direct
  · exact absurd found (apart.not_part distinct member known)

end Stmt.Apart

theorem Bound.behind {around : List Nat} {body : List Stmt} (bound : Bound around body)
    (order : (Stmt.listStarts body).Pairwise (· < ·)) (apart : Stmt.Apart around body)
    {declaration : Stmt} {back : List Stmt} (stands : Behind declaration back body) {start : Nat}
    (declares : declaration.declaration? = some start) {jump : Stmt}
    (inside : jump ∈ Stmt.listStatements body) {target : JumpTarget}
    (goes : jump.target? = some target) (into : target.label ∈ Stmt.listStarts back) :
    jump ∈ Stmt.listStatements back ∨
      (jump.start < start ∧ target.label ∈ Stmt.labelStarts back) := by
  induction stands generalizing around with
  | here =>
      rcases Stmt.mem_list_statements_cons.mp inside with rfl | ⟨part, member, _⟩ | inside
      · simp [Stmt.target_of_declaration declares] at goes
      · simp [Stmt.parts_of_declaration declares] at member
      · exact .inl inside
  | @rest head rest later induction =>
      obtain _ | ⟨own, parts, others⟩ := bound
      have distinct : Stmt.Distinct (head :: rest) := order.imp Nat.ne_of_lt
      have deep := later.starts_subset into
      by_cases late : jump ∈ Stmt.listStatements rest
      · exact induction others (Stmt.order_rest order) (apart.rest distinct) late
      · -- A jump in the statement in front can only go to a label around it.
        have place : start ∈ Stmt.listStarts rest := by
          rw [← Stmt.start_of_declaration declares]
          exact List.mem_map_of_mem later.mem
        have early : jump ∈ Stmt.listStatements [head] := by
          rcases Stmt.mem_list_statements_cons.mp inside with same | part | found
          · exact Stmt.mem_list_statements_cons.mpr (.inl same)
          · exact Stmt.mem_list_statements_cons.mpr (.inr (.inl part))
          · exact absurd found late
        have alone : Bound around [head] := .cons own parts (.nil around)
        have before := Stmt.lt_of_order order (List.mem_map_of_mem early) place
        rcases (alone.target early goes).2 with known | found
        · exact .inr ⟨before, later.label distinct.rest (apart.rest distinct _ known deep) into⟩
        · exact absurd deep (distinct.single_not_rest found)
  | @part head rest scope member inner induction =>
      obtain _ | ⟨own, parts, others⟩ := bound
      have distinct : Stmt.Distinct (head :: rest) := order.imp Nat.ne_of_lt
      have deep := inner.starts_subset into
      have outside : ∀ label ∈ around, label ∉ Stmt.listStarts scope.body := fun label known =>
        apart.not_part distinct member known
      rcases Stmt.mem_list_statements_cons.mp inside with rfl | ⟨part, partMember, inside⟩ | inside
      · exact absurd deep (outside _ (own target goes).2)
      · have near : target.label ∈ Stmt.listStarts part.body := by
          rcases ((parts part partMember).target inside goes).2 with known | found
          · rcases List.mem_append.mp known with direct | known
            · exact Stmt.label_starts_subset direct
            · exact absurd deep (outside _ known)
          · exact found
        obtain rfl := distinct.part_unique partMember member near deep
        have single : part ∈ Stmt.listScopes (head :: rest) :=
          Stmt.mem_list_scopes_cons.mpr (.inl ⟨part, member, .inl rfl⟩)
        exact induction (parts part member) (Stmt.order_scope order single)
          (apart.part distinct member) inside
      · rcases (others.target inside goes).2 with known | found
        · exact absurd deep (outside _ known)
        · exact absurd found (distinct.part_not_rest member deep)

namespace Stmt

section

variable {past : Bool} {body : List Stmt} {source middle next target : Point}

theorem Path.append {front back : List Point} (first : Path past body source middle front)
    (step : Steps past body middle next) (second : Path past body next target back) :
    Path past body source target (front ++ back) := by
  induction first with
  | stay point => exact .step step second
  | step begin _ induction => exact .step begin (induction step)

theorem Path.crossing {points : List Point} (path : Path past body source target points)
    {region : Point → Prop} (outside : ¬ region source) (inside : region target) :
    ∃ first second front back, points = front ++ back ∧ ¬ region first ∧ region second ∧
      Path past body source first front ∧ Steps past body first second ∧
      Path past body second target back := by
  induction path with
  | stay point => exact absurd inside outside
  | @step source middle target points begin rest induction =>
      by_cases within : region middle
      · exact ⟨source, middle, [source], points, rfl, outside, within, .stay source, begin, rest⟩
      · obtain ⟨first, second, front, back, same, leaves, enters, before, step, after⟩ :=
          induction within inside
        exact ⟨first, second, source :: front, back, by rw [same]; rfl, leaves, enters,
          .step begin before, step, after⟩

theorem Path.mem_target {points : List Point} (path : Path past body source target points) :
    target ∈ points := by
  induction path with
  | stay point => exact List.mem_singleton_self _
  | step _ _ induction => exact List.mem_cons_of_mem _ induction

end

end Stmt

def Point.Among (starts : List Nat) (point : Point) : Prop :=
  ∃ start ∈ starts, point = .before start

namespace Stmt

/-- Some path leads from one point to another and does not pass a third. -/
def Avoids (past : Bool) (body : List Stmt) (avoided source target : Point) : Prop :=
  ∃ points, Path past body source target points ∧ avoided ∉ points

end Stmt

/-- Every path to a statement that refers to a local variable passes the declaration of the
variable, exactly if no jump from in front of the declaration to a label behind it in its scope is
on a path that passes the declaration neither before the jump nor after it. -/
theorem declaration_passed_iff {library : Library} {source : String}
    (accepted : Accepted library source) {body scope : CodeScope}
    (inside : body ∈ (checkSource library source).value.bodies) (within : scope ∈ body.scopes)
    {front back : List Stmt} {info : StmtInfo} {decl : Variable}
    (split : scope.body = front ++ .declare info decl :: back) {user : Stmt}
    (member : user ∈ Stmt.listStatements body.body)
    (refers : info.span.start.offset ∈ user.locals) (past : Bool) :
    let place := Point.before info.span.start.offset
    (∀ points, Stmt.Path past body.body (Stmt.entry .finish body.body) (.before user.start) points →
        place ∈ points) ↔
      ∀ jump ∈ Stmt.listStatements body.body, ∀ target, jump.target? = some target →
        jump.start < info.span.start.offset → target.label ∈ Stmt.labelStarts back →
        Stmt.Avoids past body.body place (Stmt.entry .finish body.body) (.before jump.start) →
          ¬ Stmt.Avoids past body.body place (.before target.label) (.before user.start) := by
  intro place
  have resolved := accepted.resolved inside
  have stands := CodeScope.behind_of_split within split
  have later := resolved.named.behind resolved.distinct stands rfl (by simp) member refers
  constructor
  · rintro passed jump jumpInside target goes _ _ ⟨first, before, firstAvoids⟩
      ⟨second, after, secondAvoids⟩
    have whole := before.append (Stmt.steps_of_jump jumpInside goes) after
    rcases List.mem_append.mp (passed _ whole) with found | found
    · exact firstAvoids found
    · exact secondAvoids found
  · intro none points path
    by_contra avoids
    obtain ⟨first, outside, enters⟩ := stands.entry resolved.distinct .finish
    have begun : ¬ (Stmt.entry .finish body.body).Among (Stmt.listStarts back) := by
      rintro ⟨start, found, same⟩
      exact outside (Point.before.inj (enters.symm.trans same) ▸ found)
    obtain ⟨first, second, before, after, rfl, leaves, ⟨start, found, rfl⟩, front, step, onward⟩ :=
      path.crossing begun (⟨user.start, List.mem_map_of_mem later, rfl⟩ : Point.Among _ _)
    rw [List.mem_append, not_or] at avoids
    rcases Stmt.steps_cases step with flows | ⟨jump, jumpInside, target, goes, rfl, same⟩
    · obtain ⟨stmt, behind, placed, falls, rfl, way⟩ := flows
      rcases stands.flow_into resolved.distinct rfl (by simp) placed falls found way with rfl | back
      · exact avoids.1 front.mem_target
      · exact leaves ⟨stmt.start, List.mem_map_of_mem back, rfl⟩
    · obtain rfl := Point.before.inj same
      rcases resolved.bound.behind resolved.order (fun label known _ => known) stands rfl jumpInside
        goes found with back | ⟨early, direct⟩
      · exact leaves ⟨jump.start, List.mem_map_of_mem back, rfl⟩
      · exact none jump jumpInside target goes early direct ⟨before, front, avoids.1⟩
          ⟨after, onward, avoids.2⟩

/-- Without jumps a declaration is passed on every path to where its variable is used. -/
theorem declaration_passed :
    let source := "default \x7b state_entry() \x7b integer x = 1; if (x) \x7b x = 2; \x7d \x7d \x7d"
    Accepted .minimal source ∧
      ∃ body ∈ (checkSource .minimal source).value.bodies,
        ∃ user ∈ Stmt.listStatements body.body, user.start = 50 ∧ 26 ∈ user.locals ∧
          ∀ points, Stmt.Path true body.body (Stmt.entry .finish body.body) (.before user.start)
            points → .before 26 ∈ points := by
  intro source
  have spelled : source = String.ofList _ := rfl
  have accepted : Accepted .minimal source := by
    simp only [Accepted, check_source_spelled spelled]
    decide +kernel
  have found : ∃ body ∈ (checkSource .minimal source).value.bodies, ∃ stmt ∈ body.body,
      stmt.declaration? = some 26 ∧ ∃ user ∈ Stmt.listStatements body.body,
        user.start = 50 ∧ 26 ∈ user.locals ∧
        ∀ jump ∈ Stmt.listStatements body.body, jump.target? = none := by
    simp only [check_source_spelled spelled]
    decide +kernel
  obtain ⟨body, inside, stmt, placed, declares, user, member, starts, refers, jumps⟩ := found
  refine ⟨accepted, body, inside, user, member, starts, refers, ?_⟩
  obtain ⟨front, back, split⟩ := List.append_of_mem placed
  cases stmt with
  | declare info decl =>
      have start : info.span.start.offset = 26 := Option.some.inj declares
      rw [← start] at refers ⊢
      apply (declaration_passed_iff accepted inside List.mem_cons_self split member refers true).mpr
      intro jump jumpInside target goes
      simp [jumps jump jumpInside] at goes
  | _ => simp [Stmt.declaration?] at declares

/-- A live declaration that a jump out of a branch skips on the way to a live use. -/
theorem declaration_skipped :
    let source := "default \x7b state_entry() \x7b integer i = 1; if (i) \x7b jump end; \x7d " ++
      "integer x = 1; @end; i = x; \x7d \x7d"
    Accepted .minimal source ∧
      ∃ body ∈ (checkSource .minimal source).value.bodies,
        (∃ stmt ∈ Stmt.listStatements body.body, stmt.declaration? = some 62 ∧
          stmt.reach = .live) ∧
        ∃ user ∈ Stmt.listStatements body.body, user.reach = .live ∧ 62 ∈ user.locals ∧
          ∃ points, Stmt.Path false body.body (Stmt.entry .finish body.body) (.before user.start)
            points ∧ .before 62 ∉ points := by
  intro source
  have spelled : source = String.ofList _ := String.ofList_append.symm
  have accepted : Accepted .minimal source := by
    simp only [Accepted, check_source_spelled spelled]
    decide +kernel
  have path : ∃ body ∈ (checkSource .minimal source).value.bodies,
      (∃ stmt ∈ Stmt.listStatements body.body, stmt.declaration? = some 62 ∧
        stmt.reach = .live) ∧
      ∃ user ∈ Stmt.listStatements body.body, user.reach = .live ∧ 62 ∈ user.locals ∧
        user.start = 83 ∧ Stmt.entry .finish body.body = .before 26 ∧
        Stmt.Steps false body.body (.before 26) (.before 41) ∧
        Stmt.Steps false body.body (.before 41) (.before 50) ∧
        Stmt.Steps false body.body (.before 50) (.before 77) ∧
        Stmt.Steps false body.body (.before 77) (.before 83) := by
    simp only [check_source_spelled spelled]
    decide +kernel
  obtain ⟨body, inside, declared, user, member, alive, refers, starts, entry, first, second, third,
    fourth⟩ := path
  refine ⟨accepted, body, inside, declared, user, member, alive, refers,
    [.before 26, .before 41, .before 50, .before 77, .before 83], ?_, by decide⟩
  rw [entry, starts]
  exact .step first (.step second (.step third (.step fourth (.stay _))))

end Lsl
