import Lsl.Proofs.Syntax.Relocation
import Mathlib.Order.Monotone.Basic

/-!
Bodies that say the same, put in the same places. Numbers that are given out in the order of two
lists bring the two lists together; so two bodies that are the same apart from where they stand
become one body when their places have new numbers.
-/

set_option autoImplicit false

namespace Lsl

section Numbers

def numberIn (keys : List Nat) (key : Nat) : Nat :=
  if key ∈ keys then keys.idxOf key else keys.length + key

theorem number_in_injective (keys : List Nat) : Function.Injective (numberIn keys) := by
  intro first second same
  unfold numberIn at same
  split at same
  · rename_i left
    have bound := List.idxOf_lt_length_of_mem left
    split at same
    · exact (List.idxOf_inj left).mp same
    · omega
  · split at same
    · rename_i right
      have bound := List.idxOf_lt_length_of_mem right
      omega
    · omega

theorem map_number_in {keys : List Nat} (distinct : keys.Nodup) :
    keys.map (numberIn keys) = List.range keys.length := by
  apply List.ext_getElem
  · simp
  · intro index left right
    simp only [List.getElem_map, List.getElem_range, numberIn, List.getElem_mem, ↓reduceIte,
      distinct.idxOf_getElem]

theorem map_number_in_eq {keys others : List Nat} (distinct : keys.Nodup)
    (apart : others.Nodup) (same : keys.length = others.length) :
    keys.map (numberIn keys) = others.map (numberIn others) := by
  rw [map_number_in distinct, map_number_in apart, same]

/-- The last of the other numbers whose key has been reached. -/
def reachedIn : List Nat → List Nat → Nat → Nat
  | key :: keys, other :: others, place =>
    if key ≤ place then max other (reachedIn keys others place) else 0
  | _, _, _ => 0

/-- Places that are moved so far that the keys come to stand where the others do. -/
def alignedTo (keys others : List Nat) (place : Nat) : Nat :=
  place + reachedIn keys others place

theorem reached_mono (keys others : List Nat) : Monotone (reachedIn keys others) := by
  induction keys generalizing others with
  | nil => exact fun _ _ _ => le_rfl
  | cons key keys induction =>
      cases others with
      | nil => exact fun _ _ _ => le_rfl
      | cons other others =>
          intro first second before
          have later := induction others before
          simp only [reachedIn]
          split
          · rw [if_pos (by omega)]
            omega
          · exact Nat.zero_le _

theorem aligned_strict (keys others : List Nat) : StrictMono (alignedTo keys others) := by
  intro first second before
  have later := reached_mono keys others before.le
  unfold alignedTo
  omega

theorem reached_eq {keys others : List Nat} (rising : keys.Pairwise (· < ·))
    (climbing : others.Pairwise (· < ·)) {index : Nat} (left : index < keys.length)
    (right : index < others.length) : reachedIn keys others keys[index] = others[index] := by
  induction keys generalizing others index with
  | nil => exact absurd left (Nat.not_lt_zero _)
  | cons key keys induction =>
      cases others with
      | nil => exact absurd right (Nat.not_lt_zero _)
      | cons other others =>
          rw [List.pairwise_cons] at rising climbing
          cases index with
          | zero =>
              have none : reachedIn keys others key = 0 := by
                cases keys with
                | nil => rfl
                | cons next keys =>
                    have above := rising.1 next List.mem_cons_self
                    cases others with
                    | nil => rfl
                    | cons => rw [reachedIn, if_neg (by omega)]
              simp [reachedIn, none]
          | succ index =>
              simp only [List.length_cons, Nat.add_lt_add_iff_right] at left right
              have above := rising.1 keys[index] (List.getElem_mem left)
              have higher := climbing.1 others[index] (List.getElem_mem right)
              have inside := induction rising.2 climbing.2 left right
              simp only [List.getElem_cons_succ, reachedIn, if_pos above.le, inside]
              omega

/-- Two rising lists come together if both of them are moved. -/
theorem map_aligned {keys others : List Nat} (rising : keys.Pairwise (· < ·))
    (climbing : others.Pairwise (· < ·)) (same : keys.length = others.length) :
    keys.map (alignedTo keys others) = others.map (alignedTo others keys) := by
  refine List.ext_getElem (by simpa using same) fun index left right => ?_
  simp only [List.length_map] at left right
  simp only [List.getElem_map, alignedTo, reached_eq rising climbing left right,
    reached_eq climbing rising right left]
  omega

end Numbers

/-- Leaves of a tree what it says, all in one place. -/
def Recast.bare : Recast := Relocation.nowhere.unbound

section Bodies

/-- The new number of the place where a statement starts. -/
def Relocation.put (relocation : Relocation) (stmt : Stmt) : Nat :=
  match stmt.referent? with
  | some referent => relocation.inner referent.start
  | none => relocation.plain stmt.start

/-- A scope of a statement as it is after a change: its number and its statements. -/
def CodeScope.recast (cast : Recast) (part : CodeScope) : Nat × List Stmt :=
  (cast.scope part.info.id, Stmt.listRecast cast part.body)

def StmtInfo.placed (place : Nat) (info : StmtInfo) : StmtInfo :=
  { info with span := .point ⟨place, 0, 0⟩ }

def Alternatives.filled (parts : List (Nat × List Stmt)) : Alternatives → Alternatives
  | .done => .done
  | .elseIf span condition scope _ rest =>
    .elseIf span condition { scope with id := (parts.headD default).1 } (parts.headD default).2
      (rest.filled parts.tail)
  | .otherwise span scope _ =>
    .otherwise span { scope with id := (parts.headD default).1 } (parts.headD default).2

def Stmt.filled (place : Nat) (parts : List (Nat × List Stmt)) : Stmt → Stmt
  | .block scope _ =>
    .block { scope with id := (parts.headD default).1, span := .point ⟨place, 0, 0⟩ }
      (parts.headD default).2
  | .declare info decl => .declare (info.placed place) decl
  | .perform info value => .perform (info.placed place) value
  | .giveBack info value => .giveBack (info.placed place) value
  | .jump info name target => .jump (info.placed place) name target
  | .label info name => .label (info.placed place) name
  | .changeState info name target => .changeState (info.placed place) name target
  | .branch info first condition scope _ rest =>
    .branch (info.placed place) first condition { scope with id := (parts.headD default).1 }
      (parts.headD default).2 (rest.filled parts.tail)
  | .whileLoop info condition scope _ =>
    .whileLoop (info.placed place) condition { scope with id := (parts.headD default).1 }
      (parts.headD default).2
  | .doLoop info scope _ condition =>
    .doLoop (info.placed place) { scope with id := (parts.headD default).1 }
      (parts.headD default).2 condition
  | .forLoop info init condition afterthought scope _ =>
    .forLoop (info.placed place) init condition afterthought
      { scope with id := (parts.headD default).1 } (parts.headD default).2
  | .empty info => .empty (info.placed place)
  | .broken _ => .broken (.point ⟨place, 0, 0⟩)

theorem Alternatives.filled_recast (relocation : Relocation) (rest : Alternatives) :
    (rest.recast .bare).filled (rest.parts.map (CodeScope.recast relocation.unbound)) =
      rest.recast relocation.unbound := by
  cases rest with
  | done => rfl
  | elseIf span condition scope body rest =>
      exact congrArg (Alternatives.elseIf _ _ _ _) (rest.filled_recast relocation)
  | otherwise span scope body => rfl

theorem Stmt.filled_recast (relocation : Relocation) (stmt : Stmt) :
    (stmt.recast .bare).filled (relocation.put stmt)
        (stmt.parts.map (CodeScope.recast relocation.unbound)) =
      stmt.recast relocation.unbound := by
  cases stmt with
  | branch info first condition scope body rest =>
      exact congrArg (Stmt.branch _ _ _ _ _) (rest.filled_recast relocation)
  | _ => rfl

theorem Alternatives.parts_recast (cast : Recast) (rest : Alternatives) :
    (rest.recast cast).parts.map (fun part => (part.info.id, part.body)) =
      rest.parts.map (CodeScope.recast cast) := by
  cases rest with
  | done => rfl
  | elseIf span condition scope body rest =>
      exact congrArg (List.cons _) (rest.parts_recast cast)
  | otherwise span scope body => rfl

theorem Stmt.parts_recast (cast : Recast) (stmt : Stmt) :
    (stmt.recast cast).parts.map (fun part => (part.info.id, part.body)) =
      stmt.parts.map (CodeScope.recast cast) := by
  cases stmt with
  | branch info first condition scope body rest =>
      exact congrArg (List.cons _) (rest.parts_recast cast)
  | _ => rfl

theorem Stmt.list_statements_recast (cast : Recast) (body : List Stmt) :
    listStatements (listRecast cast body) = (listStatements body).map (recast cast) := by
  induction body using Stmt.list_induction with
  | nil => rfl
  | cons stmt rest inner outer =>
      have parts : ((stmt.recast cast).parts.flatMap fun part => listStatements part.body) =
          (stmt.parts.flatMap fun part => listStatements part.body).map (recast cast) := by
        have same := congrArg (List.flatMap fun part => listStatements part.2)
          (stmt.parts_recast cast)
        rw [List.flatMap_map, List.flatMap_map] at same
        rw [List.map_flatMap]
        exact same.trans (List.flatMap_congr inner)
      rw [listRecast, listStatements, listStatements, statements_eq, statements_eq, parts, outer,
        List.map_append, List.map_cons]

theorem Stmt.list_ids_recast (cast : Recast) (body : List Stmt) :
    listIds (listRecast cast body) = (listIds body).map cast.scope := by
  induction body using Stmt.list_induction with
  | nil => rfl
  | cons stmt rest inner outer =>
      have parts : ((stmt.recast cast).parts.flatMap fun part =>
            part.info.id :: listIds part.body) =
          (stmt.parts.flatMap fun part => part.info.id :: listIds part.body).map cast.scope := by
        have same := congrArg (List.flatMap fun part => part.1 :: listIds part.2)
          (stmt.parts_recast cast)
        rw [List.flatMap_map, List.flatMap_map] at same
        rw [List.map_flatMap]
        refine same.trans (List.flatMap_congr fun part member => ?_)
        exact congrArg (List.cons _) (inner part member)
      rw [listRecast, list_ids_cons, list_ids_cons, parts, outer, List.map_append]

/-- Bodies that say the same and come to stand in the same places, each where it is put. -/
structure Stmt.Meet (first second : Relocation) (body other : List Stmt) : Prop where
  bare : listRecast .bare body = listRecast .bare other
  places : (listStatements body).map first.put = (listStatements other).map second.put
  ids : (listIds body).map first.scope = (listIds other).map second.scope

variable {first second : Relocation}

theorem Stmt.length_of_bare {body other : List Stmt}
    (bare : listRecast .bare body = listRecast .bare other) :
    (listStatements body).length = (listStatements other).length ∧
      (listIds body).length = (listIds other).length := by
  constructor
  · have same := congrArg (fun body => (listStatements body).length) bare
    simpa only [list_statements_recast, List.length_map] using same
  · have same := congrArg (fun body => (listIds body).length) bare
    simpa only [list_ids_recast, List.length_map] using same

theorem CodeScope.list_meet {parts others : List CodeScope}
    (inner : ∀ part ∈ parts, ∀ other, Stmt.Meet first second part.body other →
      Stmt.listRecast first.unbound part.body = Stmt.listRecast second.unbound other)
    (bare : parts.map (CodeScope.recast .bare) = others.map (CodeScope.recast .bare))
    (places : (parts.flatMap fun part => Stmt.listStatements part.body).map first.put =
      (others.flatMap fun part => Stmt.listStatements part.body).map second.put)
    (ids : (parts.flatMap fun part => part.info.id :: Stmt.listIds part.body).map first.scope =
      (others.flatMap fun part => part.info.id :: Stmt.listIds part.body).map second.scope) :
    parts.map (CodeScope.recast first.unbound) =
      others.map (CodeScope.recast second.unbound) := by
  induction parts generalizing others with
  | nil => rw [List.map_eq_nil_iff.mp bare.symm, List.map_nil, List.map_nil]
  | cons part parts induction =>
      cases others with
      | nil => simp at bare
      | cons other others =>
          simp only [List.map_cons, List.flatMap_cons, List.cons.injEq, List.map_append,
            List.cons_append] at bare places ids
          obtain ⟨same, apart⟩ := bare
          have own := congrArg Prod.snd same
          obtain ⟨tall, wide⟩ := Stmt.length_of_bare own
          obtain ⟨here, further⟩ := List.append_inj places (by simpa using tall)
          obtain ⟨numbers, more⟩ := List.append_inj ids.2 (by simpa using wide)
          have met := inner part List.mem_cons_self other.body ⟨own, here, numbers⟩
          have later := induction (fun part member => inner part (List.mem_cons_of_mem _ member))
            apart further more
          rw [List.map_cons, List.map_cons, later]
          exact congrArg (· :: _) (Prod.ext ids.1 met)

/-- Bodies that meet are one body once both are put in their new places. -/
theorem Stmt.Meet.recast_eq {body other : List Stmt} (meet : Stmt.Meet first second body other) :
    Stmt.listRecast first.unbound body = Stmt.listRecast second.unbound other := by
  induction body using Stmt.list_induction generalizing other with
  | nil =>
      cases other with
      | nil => rfl
      | cons next others => exact absurd meet.bare.symm (List.cons_ne_nil _ _)
  | cons stmt rest inner outer =>
      cases other with
      | nil => exact absurd meet.bare (List.cons_ne_nil _ _)
      | cons next others =>
          obtain ⟨bare, places, ids⟩ := meet
          obtain ⟨own, behind⟩ := List.cons.inj bare
          have parts : stmt.parts.map (CodeScope.recast .bare) =
              next.parts.map (CodeScope.recast .bare) := by
            rw [← Stmt.parts_recast, ← Stmt.parts_recast, own]
          obtain ⟨tall, wide⟩ := Stmt.length_of_bare behind
          simp only [Stmt.listStatements, Stmt.statements_eq, Stmt.list_ids_cons, List.map_append,
            List.map_cons, List.cons_append, List.cons.injEq] at places ids
          obtain ⟨put, places⟩ := places
          obtain ⟨inside, further⟩ := List.append_inj' places (by simpa using tall)
          obtain ⟨numbers, more⟩ := List.append_inj' ids (by simpa using wide)
          have scopes := CodeScope.list_meet inner parts inside numbers
          rw [Stmt.listRecast, Stmt.listRecast, outer ⟨behind, further, more⟩,
            ← Stmt.filled_recast, ← Stmt.filled_recast, own, put, scopes]

end Bodies

section Routines

theorem map_constant {α β : Type} (value : β) {list others : List α}
    (same : list.length = others.length) :
    list.map (fun _ => value) = others.map fun _ => value := by
  rw [List.map_const', List.map_const', same]

theorem map_rebuilt {α β γ δ : Type} (build : β → γ → δ) (said : α → β) (placed : α → γ)
    (list : List α) :
    list.map (fun value => build (said value) (placed value)) =
      List.zipWith build (list.map said) (list.map placed) := by
  rw [List.zipWith_map, List.zipWith_self]

theorem map_of_filter_map {α β : Type} {found met : α → Option β} {list others : List α}
    (same : list.map (fun value => (found value).isSome) =
      others.map fun value => (met value).isSome)
    (listed : list.filterMap found = others.filterMap met) : list.map found = others.map met := by
  induction list generalizing others with
  | nil => rw [List.map_eq_nil_iff.mp same.symm, List.map_nil, List.map_nil]
  | cons value list induction =>
      cases others with
      | nil => simp at same
      | cons other others =>
          simp only [List.map_cons, List.cons.injEq] at same ⊢
          obtain ⟨here, there⟩ := same
          cases left : found value <;> cases right : met other <;> simp [left, right] at here
          · rw [List.filterMap_cons_none left, List.filterMap_cons_none right] at listed
            exact ⟨rfl, induction there listed⟩
          · rw [List.filterMap_cons_some left, List.filterMap_cons_some right] at listed
            obtain ⟨own, others⟩ := List.cons.inj listed
            exact ⟨congrArg some own, induction there others⟩

theorem Stmt.referents_of_bare {body other : List Stmt}
    (bare : listRecast .bare body = listRecast .bare other) :
    (listStatements body).map (fun stmt => stmt.referent?.isSome) =
      (listStatements other).map fun stmt => stmt.referent?.isSome := by
  have kept (stmt : Stmt) :
      (stmt.recast .bare).referent?.isSome = stmt.referent?.isSome := by
    cases stmt <;> rfl
  have same := congrArg (fun body =>
    (listStatements body).map fun stmt => stmt.referent?.isSome) bare
  simpa only [list_statements_recast, List.map_map, Function.comp_def, kept] using same

namespace Routine

def scopeIds (routine : Routine) : List Nat :=
  routine.scope.info.id :: Stmt.listIds routine.scope.body

/-- The places where parameters, variables and labels start, behind those of what is around. -/
def startsIn (around : List Nat) (routine : Routine) : List Nat :=
  around ++ routine.referents.map (·.start)

def numbering (around : List Nat) (routine : Routine) : Relocation where
  inner := numberIn (routine.startsIn around)
  outer := numberIn (routine.startsIn around)
  plain _ := 0
  scope := numberIn routine.scopeIds

/-- Moves the statements of a function or handler towards those of another one. -/
def alignment (routine other : Routine) : Relocation where
  inner := alignedTo (Stmt.listStarts routine.scope.body) (Stmt.listStarts other.scope.body)
  outer _ := 0
  plain := alignedTo (Stmt.listStarts routine.scope.body) (Stmt.listStarts other.scope.body)
  scope := numberIn routine.scopeIds

variable {first second : Relocation} {routine other : Routine}

theorem relocate_eq (bare : routine.relocate .nowhere = other.relocate .nowhere)
    (parameters : (routine.parameters.members.map ParameterDecl.start).map first.outer =
      (other.parameters.members.map ParameterDecl.start).map second.outer)
    (places : (Stmt.listStatements routine.scope.body).map first.put =
      (Stmt.listStatements other.scope.body).map second.put)
    (ids : routine.scopeIds.map first.scope = other.scopeIds.map second.scope) :
    routine.relocate first = other.relocate second := by
  obtain ⟨list, scope⟩ := Routine.mk.inj bare
  obtain ⟨info, body⟩ := CodeScope.mk.inj scope
  obtain ⟨_, members⟩ := ParameterList.mk.inj list
  obtain ⟨id, inner⟩ := List.cons.inj ids
  have met : Stmt.Meet first second routine.scope.body other.scope.body := ⟨body, places, inner⟩
  have declared : routine.parameters.members.map (ParameterDecl.relocate first) =
      other.parameters.members.map (ParameterDecl.relocate second) := by
    have build (relocation : Relocation) (list : List ParameterDecl) :=
      map_rebuilt (fun (decl : ParameterDecl) place =>
          ({ decl with span := .point ⟨place, 0, 0⟩ } : ParameterDecl))
        (ParameterDecl.relocate .nowhere) (fun decl => relocation.outer decl.start) list
    simp only [List.map_map] at parameters
    have rebuilt := (build first routine.parameters.members).trans
      ((congrArg₂ _ members parameters).trans (build second other.parameters.members).symm)
    exact rebuilt
  have opened : routine.scope.info.recast first.unbound =
      other.scope.info.recast second.unbound :=
    congrArg₂ (fun info id => ({ info with id } : ScopeInfo)) info id
  exact congrArg₂ Routine.mk (congrArg (ParameterList.mk default) declared)
    (congrArg₂ CodeScope.mk opened met.recast_eq)

theorem map_starts_in (place : Nat → Nat) (around : List Nat) (routine : Routine) :
    (routine.startsIn around).map place = around.map place ++
      ((routine.parameters.members.map ParameterDecl.start).map place ++
        (Stmt.listStatements routine.scope.body).filterMap fun stmt =>
          stmt.referent?.map fun referent => place referent.start) := by
  simp only [startsIn, Routine.referents, Stmt.listReferents, List.map_append, List.map_map,
    List.map_filterMap, Option.map_map]
  rfl

section Meeting

variable (bare : routine.relocate .nowhere = other.relocate .nowhere)

include bare

theorem lengths_of_bare :
    routine.parameters.members.length = other.parameters.members.length ∧
      (Stmt.listReferents routine.scope.body).length =
        (Stmt.listReferents other.scope.body).length ∧
      (Stmt.listStarts routine.scope.body).length = (Stmt.listStarts other.scope.body).length ∧
      routine.scopeIds.length = other.scopeIds.length := by
  obtain ⟨list, scope⟩ := Routine.mk.inj bare
  obtain ⟨_, body⟩ := CodeScope.mk.inj scope
  obtain ⟨_, members⟩ := ParameterList.mk.inj list
  obtain ⟨statements, ids⟩ := Stmt.length_of_bare body
  have referents := congrArg (List.countP id) (Stmt.referents_of_bare body)
  refine ⟨?_, ?_, ?_, ?_⟩
  · simpa using congrArg List.length members
  · simpa [Stmt.listReferents, List.length_filterMap_eq_countP, List.countP_map,
      Function.comp_def] using referents
  · simpa [Stmt.listStarts] using statements
  · simpa [scopeIds] using ids

theorem scope_ids_meet (ids : routine.scopeIds.Nodup) (idsOther : other.scopeIds.Nodup) :
    routine.scopeIds.map (numberIn routine.scopeIds) =
      other.scopeIds.map (numberIn other.scopeIds) := by
  obtain ⟨_, _, _, size⟩ := lengths_of_bare bare
  exact map_number_in_eq ids idsOther size

/-- Functions or handlers that say the same are one once whatever they declare is numbered. -/
theorem numbering_meet {around beyond : List Nat} (size : around.length = beyond.length)
    (distinct : (routine.startsIn around).Nodup) (apart : (other.startsIn beyond).Nodup)
    (ids : routine.scopeIds.Nodup) (idsOther : other.scopeIds.Nodup) :
    around.map (routine.numbering around).outer = beyond.map (other.numbering beyond).outer ∧
      routine.relocate (routine.numbering around) = other.relocate (other.numbering beyond) := by
  obtain ⟨members, referents, _, _⟩ := lengths_of_bare bare
  have whole := map_number_in_eq distinct apart (by
    simp [startsIn, Routine.referents, size, members, referents])
  rw [map_starts_in, map_starts_in] at whole
  obtain ⟨front, back⟩ := List.append_inj whole (by simpa using size)
  obtain ⟨parameters, listed⟩ := List.append_inj back (by simpa using members)
  refine ⟨front, relocate_eq bare parameters ?_ (scope_ids_meet bare ids idsOther)⟩
  have same := Stmt.referents_of_bare (CodeScope.mk.inj (Routine.mk.inj bare).2).2
  have found := congrArg (List.map (Option.getD · 0))
    (map_of_filter_map (by simpa only [Option.isSome_map] using same) listed)
  have put (around : List Nat) (routine : Routine) (stmt : Stmt) :
      (routine.numbering around).put stmt = (stmt.referent?.map fun referent =>
        numberIn (routine.startsIn around) referent.start).getD 0 := by
    unfold Relocation.put
    cases stmt.referent? <;> rfl
  simpa only [List.map_map, Function.comp_def, ← put] using found

/-- Functions or handlers that say the same are one once their statements are moved together. -/
theorem alignment_meet (starts : (Stmt.listStarts routine.scope.body).Pairwise (· < ·))
    (startsOther : (Stmt.listStarts other.scope.body).Pairwise (· < ·))
    (ids : routine.scopeIds.Nodup) (idsOther : other.scopeIds.Nodup) :
    routine.relocate (routine.alignment other) = other.relocate (other.alignment routine) := by
  obtain ⟨members, _, size, _⟩ := lengths_of_bare bare
  refine relocate_eq bare ?_ ?_ (scope_ids_meet bare ids idsOther)
  · exact map_constant 0 (by simpa using members)
  · have put (routine other : Routine) (stmt : Stmt) : (routine.alignment other).put stmt =
        (routine.alignment other).inner stmt.start := by
      cases stmt <;> rfl
    have listed (routine other : Routine) :
        (Stmt.listStatements routine.scope.body).map (routine.alignment other).put =
          (Stmt.listStarts routine.scope.body).map (routine.alignment other).inner := by
      rw [Stmt.listStarts, List.map_map]
      exact List.map_congr_left fun stmt _ => put routine other stmt
    rw [listed, listed]
    exact map_aligned starts startsOther size

end Meeting

end Routine

end Routines

end Lsl
