import Lsl.Proofs.Checking.CheckedBody
import Lsl.Proofs.Generation.Closure

/-!
The members of a generated class. A field, a function and the method of an operation are told apart
by how their names begin, but a handler goes by a name that begins with that of its state, which the
script chooses. So the members of an accepted source have names of their own exactly if the name of
no handler can also be read as that of another member.
-/

set_option autoImplicit false

namespace Lsl

open Fragment (line gap)

def handlerName (state event : String) : String := state ++ "_event_" ++ event

/-- The name of a handler read with a tag in front that an underscore ends: the state is the tag, or
goes on behind it. -/
def ReadsAs (state event tag name : String) : Prop :=
  (state = tag ∧ name = "event_" ++ event) ∨
    ∃ rest, state = tag ++ "_" ++ rest ∧ name = rest ++ "_event_" ++ event

/-- What stands at the level of the class: a name, and what is written around it on its line. -/
structure Member where
  opening : String
  name : String
  closing : String

def Member.written (depth : Nat) (member : Member) : List Fragment :=
  line depth (member.opening ++ member.name ++ member.closing)

def GlobalField.member (global : GlobalField) : Member :=
  ⟨"public " ++ global.type ++ " ", "GV_" ++ global.name, ";"⟩

def Method.member (method : Method) : Member where
  opening := "public " ++ method.returns ++ " "
  name := method.name
  closing := "(" ++
    ", ".intercalate (method.parameters.map fun (type, name) => type ++ " " ++ name) ++ ")"

def Operation.member (keysAreStrings : Bool) (operation : Operation) : Member where
  opening := "private " ++ operation.returns.targetName keysAreStrings ++ " "
  name := operation.name
  closing := "(" ++ operation.right.targetName true ++ " right, " ++
    operation.left.targetName true ++ " left)"

/-- The members of the class. Globals are among them unless an object of their own holds them. -/
def Program.members (program : Program) (settings : Settings) : List Member :=
  (if settings.wrapsInClass then program.globals.map GlobalField.member else []) ++
    program.methods.map Method.member ++
      program.operations.map (Operation.member settings.keysAreStrings)

theorem Program.members_written (program : Program) (settings : Settings) (date : String) :
    ∀ member ∈ program.members settings,
      member.written settings.depth <:+: program.fragments settings date := by
  intro member inside
  rcases List.mem_append.mp inside with inside | inside
  · rcases List.mem_append.mp inside with inside | inside
    · split at inside
      · rename_i wraps
        obtain ⟨global, known, rfl⟩ := List.mem_map.mp inside
        have within := (program.written settings date).declarations
        unfold Settings.declarations at within
        rw [if_pos wraps] at within
        have found := (flat_map_within _ known).trans within
        simpa only [Member.written, GlobalField.member, GlobalField.declaration,
          String.append_assoc] using found
      · cases inside
    · obtain ⟨method, known, rfl⟩ := List.mem_map.mp inside
      have within := method_within settings known date
      refine List.IsInfix.trans ?_ within
      have heading : method.member.written settings.depth = line settings.depth method.heading := by
        simp [Member.written, Method.member, Method.heading, String.append_assoc]
      rw [heading]
      exact infix_left _ List.infix_rfl
  · obtain ⟨operation, known, rfl⟩ := List.mem_map.mp inside
    have within := (program.written settings date).operations
    refine List.IsInfix.trans ?_
      ((separated_within (List.mem_map_of_mem known)).trans within)
    have heading : (operation.member settings.keysAreStrings).written settings.depth =
        line settings.depth ("private " ++ operation.returns.targetName settings.keysAreStrings ++
          " " ++ operation.name ++ "(" ++ operation.right.targetName true ++ " right, " ++
          operation.left.targetName true ++ " left)") := by
      simp [Member.written, Operation.member, String.append_assoc]
    rw [heading]
    exact infix_left _ List.infix_rfl

section

variable {state event tag name : String}

theorem handler_name_chars : (handlerName state event).toList =
    state.toList ++ '_' :: ("event_".toList ++ event.toList) := by
  simp only [handlerName, String.toList_append, List.append_assoc]
  rfl

theorem tagged_chars : (tag ++ "_" ++ name).toList = tag.toList ++ '_' :: name.toList := by
  simp only [String.toList_append, List.append_assoc]
  rfl

theorem ReadsAs.length_le (reads : ReadsAs state event tag name) : tag.length ≤ state.length := by
  rcases reads with ⟨rfl, _⟩ | ⟨rest, rfl, _⟩
  · exact le_rfl
  · rw [String.length_append, String.length_append]
    omega

theorem reads_as_iff (short : tag.length ≤ state.length) :
    handlerName state event = tag ++ "_" ++ name ↔ ReadsAs state event tag name := by
  constructor
  · intro same
    have chars := congrArg String.toList same
    rw [handler_name_chars, tagged_chars] at chars
    obtain ⟨behind, longer⟩ : tag.toList <+: state.toList :=
      List.prefix_of_prefix_length_le ⟨_, chars.symm⟩ (List.prefix_append _ _)
        (by simpa only [String.length_toList] using short)
    rw [← longer, List.append_assoc, List.append_cancel_left_eq] at chars
    cases behind with
    | nil =>
        refine .inl ⟨String.toList_inj.mp ?_, String.toList_inj.mp ?_⟩
        · rw [← longer, List.append_nil]
        · rw [String.toList_append]
          exact (List.cons.inj chars).2.symm
    | cons char rest =>
        obtain ⟨rfl, others⟩ := List.cons.inj chars
        refine .inr ⟨String.ofList rest, String.toList_inj.mp ?_, String.toList_inj.mp ?_⟩
        · rw [tagged_chars, String.toList_ofList, longer]
        · change _ = (handlerName (String.ofList rest) event).toList
          rw [handler_name_chars, String.toList_ofList]
          exact others.symm
  · intro reads
    refine String.toList_inj.mp ?_
    rw [handler_name_chars, tagged_chars]
    rcases reads with ⟨rfl, rfl⟩ | ⟨rest, rfl, rfl⟩
    · rw [String.toList_append]
    · change _ = tag.toList ++ '_' :: (handlerName rest event).toList
      rw [tagged_chars, handler_name_chars, List.append_assoc, List.cons_append]

theorem reads_of_letters (first second : Char) (letters : first ≠ '_' ∧ second ≠ '_') :
    handlerName state event = String.ofList [first, second] ++ "_" ++ name ↔
      ReadsAs state event (String.ofList [first, second]) name := by
  constructor
  · intro same
    refine (reads_as_iff ?_).mp same
    have chars := congrArg String.toList same
    simp only [handler_name_chars, tagged_chars, String.toList_ofList] at chars
    rw [← String.length_toList, ← String.length_toList, String.toList_ofList]
    match spelled : state.toList with
    | [] =>
        rw [spelled] at chars
        exact absurd (List.cons.inj chars).1.symm letters.1
    | [_] =>
        rw [spelled] at chars
        exact absurd (List.cons.inj (List.cons.inj chars).2).1.symm letters.2
    | _ :: _ :: rest => exact Nat.le_add_left 2 rest.length
  · exact fun reads => (reads_as_iff reads.length_le).mpr reads

/-- Where the name of one handler reads as that of another, one of the states goes on where the
other ends. -/
theorem reads_behind {other event' : String}
    (same : handlerName state event = handlerName other event')
    (shorter : other.length < state.length) : ReadsAs state event (other ++ "_event") event' := by
  have tagged : handlerName other event' = (other ++ "_event") ++ "_" ++ event' := by
    refine String.toList_inj.mp ?_
    rw [handler_name_chars, tagged_chars, String.toList_append, List.append_assoc]
    rfl
  refine (reads_as_iff ?_).mp (same.trans tagged)
  have chars := congrArg String.toList same
  rw [handler_name_chars, handler_name_chars] at chars
  obtain ⟨behind, longer⟩ : other.toList <+: state.toList :=
    List.prefix_of_prefix_length_le ⟨_, chars.symm⟩ (List.prefix_append _ _)
      (by simpa only [String.length_toList] using shorter.le)
  rw [← longer, List.append_assoc, List.append_cancel_left_eq] at chars
  have length := congrArg List.length longer
  rw [List.length_append, String.length_toList, String.length_toList] at length
  rw [String.length_append]
  by_contra less
  change ¬ other.length + 6 ≤ state.length at less
  -- No underscore stands between the first and the last of the word that joins the names.
  have inside : ∀ index < 6, 0 < index → "_event_".toList[index]? ≠ some '_' := by decide
  refine inside behind.length (by omega) (by omega) ?_
  have place := congrArg (·[behind.length]?) chars
  have joined : '_' :: ("event_".toList ++ event'.toList) = "_event_".toList ++ event'.toList := rfl
  have room : behind.length < "_event_".toList.length := by
    change behind.length < 7
    omega
  simp only [joined, List.getElem?_append_left room, List.getElem?_append_right le_rfl,
    Nat.sub_self, List.getElem?_cons_zero] at place
  exact place.symm

end

theorem Operation.name_not_handler (operation : Operation) (state event : String) :
    operation.name ≠ handlerName state event := by
  intro same
  have digits : operation.left.digits.count '_' = 0 ∧ operation.operator.digits.count '_' = 0 ∧
      operation.right.digits.count '_' = 0 := by
    have types : ∀ type : ValueType, type.digits.count '_' = 0 := by
      intro type
      cases type <;> decide
    refine ⟨types _, ?_, types _⟩
    cases operation.operator <;> decide
  have count := congrArg (fun name => name.toList.count '_') same
  simp only [handler_name_chars, name, String.toList_append, List.count_append,
    List.count_cons_self] at count
  change 1 + operation.left.digits.count '_' + operation.operator.digits.count '_' +
    operation.right.digits.count '_' = state.toList.count '_' + (1 + event.toList.count '_' + 1)
    at count
  omega

theorem Operation.name_not_tagged (operation : Operation) {first : Char} (letter : first ≠ '_')
    (rest : List Char) : operation.name.toList ≠ first :: rest := by
  intro same
  simp only [name, String.toList_append, List.append_assoc] at same
  exact letter (List.cons.inj same).1.symm

namespace Script

variable (library : Library) (settings : Settings) (script : Script)

def liveGlobals : List GlobalDecl := script.globals.filter (Use.isUsed script.uses ·.start)

def liveFunctions : List FunctionDecl := script.functions.filter (Use.isUsed script.uses ·.start)

/-- The name of no handler can also be read as that of a field, a function or another handler. -/
structure Unmistakable : Prop where
  fields : settings.wrapsInClass = true → ∀ handler ∈ script.handled,
    ∀ global ∈ script.liveGlobals, ¬ ReadsAs handler.1 handler.2 "GV" global.decl.name
  functions : ∀ handler ∈ script.handled, ∀ decl ∈ script.liveFunctions,
    ¬ ReadsAs handler.1 handler.2 "FN" decl.name
  handlers : ∀ handler ∈ script.handled, ∀ other ∈ script.handled,
    ¬ ReadsAs handler.1 handler.2 (other.1 ++ "_event") other.2

theorem state_code_names (manner : Manner) (state : StateDecl) :
    (state.code manner).map (·.name) = state.events.map (handlerName state.name) := by
  rw [StateDecl.code, StateDecl.events, StateDecl.handlers, List.map_filterMap, List.map_map,
    List.map_filterMap]
  refine List.filterMap_congr fun member _ => ?_
  cases member <;> rfl

theorem states_code_names (manner : Manner) (states : List StateDecl) :
    (states.flatMap (StateDecl.code manner)).map (·.name) =
      (states.flatMap fun state => state.events.map (state.name, ·)).map fun handler =>
        handlerName handler.1 handler.2 := by
  simp only [List.map_flatMap, state_code_names, List.map_map]
  rfl

theorem method_names_perm : ((script.program library settings).methods.map (·.name)).Perm
    (script.liveFunctions.map ("FN_" ++ ·.name) ++
      script.handled.map fun handler => handlerName handler.1 handler.2) := by
  let manner : Manner := ⟨library, settings, script.uses⟩
  have functions : (script.program library settings).functions.map (·.name) =
      script.liveFunctions.map ("FN_" ++ ·.name) := by
    simp only [program, List.map_map]
    rfl
  have initial : (script.program library settings).defaultState.getD [] =
      script.defaultState.toList.flatMap (StateDecl.code manner) := by
    cases given : script.defaultState <;> simp [program, given, manner]
  have others : (script.program library settings).states.flatten =
      script.states.flatMap (StateDecl.code manner) := List.flatMap_def.symm
  rw [Program.methods, initial, others, List.append_assoc, List.map_append, functions, handled,
    allStates, ← states_code_names manner, List.flatMap_append]
  exact (List.perm_append_comm.map _).append_left _

theorem member_names_perm :
    (((script.program library settings).members settings).map (·.name)).Perm
      ((if settings.wrapsInClass then script.liveGlobals.map ("GV_" ++ ·.decl.name) else []) ++
        (script.liveFunctions.map ("FN_" ++ ·.name) ++
          (script.handled.map (fun handler => handlerName handler.1 handler.2) ++
            (script.program library settings).operations.map (·.name)))) := by
  have fields : (if settings.wrapsInClass then
        (script.program library settings).globals.map GlobalField.member else []).map (·.name) =
      if settings.wrapsInClass then script.liveGlobals.map ("GV_" ++ ·.decl.name) else [] := by
    split
    · simp only [program, List.map_map]
      rfl
    · rfl
  rw [Program.members, List.map_append, List.map_append, fields, List.map_map, List.map_map,
    List.append_assoc]
  refine .append_left _ ?_
  rw [← List.append_assoc]
  exact (script.method_names_perm library settings).append_right _

end Script

/-- Handlers that are known by their states and events go by names of their own exactly if no name
of one reads as that of another. -/
theorem handler_names_nodup_iff {handled : List (String × String)} (distinct : handled.Nodup) :
    (handled.map fun handler => handlerName handler.1 handler.2).Nodup ↔
      ∀ handler ∈ handled, ∀ other ∈ handled,
        ¬ ReadsAs handler.1 handler.2 (other.1 ++ "_event") other.2 := by
  have tagged (other : String × String) :
      other.1 ++ "_event" ++ "_" ++ other.2 = handlerName other.1 other.2 := by
    simp only [handlerName, String.append_assoc]
    rfl
  constructor
  · intro names handler member other inside reads
    have longer : (other.1 ++ "_event").length ≤ handler.1.length := reads.length_le
    have same := ((reads_as_iff longer).mpr reads).trans (tagged other)
    obtain rfl := List.inj_on_of_nodup_map names member inside same
    rw [String.length_append] at longer
    change handler.1.length + 6 ≤ handler.1.length at longer
    omega
  · intro apart
    refine distinct.map_on fun first member second inside same => ?_
    rcases lt_trichotomy first.1.length second.1.length with less | equal | greater
    · exact absurd (reads_behind same.symm less) (apart second inside first member)
    · have chars := congrArg String.toList same
      rw [handler_name_chars, handler_name_chars] at chars
      obtain ⟨states, rest⟩ :=
        List.append_inj chars (by simpa only [String.length_toList] using equal)
      have events := List.append_cancel_left (List.cons.inj rest).2
      exact Prod.ext (String.toList_inj.mp states) (String.toList_inj.mp events)
    · exact absurd (reads_behind same greater) (apart first member second inside)

/-- Names that begin with two letters and an underscore are those of no operation, and those of
handlers only where a handler's name reads so. -/
theorem tagged_apart_iff {α : Type} (first second : Char)
    (letters : first ≠ '_' ∧ second ≠ '_') (list : List α) (name : α → String)
    (handled : List (String × String)) (operations : List Operation) :
    (∀ tagged ∈ list.map (String.ofList [first, second] ++ "_" ++ name ·),
      ∀ other ∈ handled.map (fun handler => handlerName handler.1 handler.2) ++
        operations.map Operation.name, tagged ≠ other) ↔
      ∀ handler ∈ handled, ∀ value ∈ list,
        ¬ ReadsAs handler.1 handler.2 (String.ofList [first, second]) (name value) := by
  constructor
  · intro apart handler member value inside reads
    exact apart _ (List.mem_map_of_mem inside) _
      (List.mem_append_left _ (List.mem_map_of_mem member))
      ((reads_of_letters first second letters).mpr reads).symm
  · intro unread tagged inside other member
    obtain ⟨value, known, rfl⟩ := List.mem_map.mp inside
    rcases List.mem_append.mp member with member | member
    · obtain ⟨handler, handles, rfl⟩ := List.mem_map.mp member
      exact fun same => unread handler handles value known
        ((reads_of_letters first second letters).mp same.symm)
    · obtain ⟨operation, _, rfl⟩ := List.mem_map.mp member
      intro same
      refine operation.name_not_tagged letters.1 (second :: '_' :: (name value).toList) ?_
      rw [← same, tagged_chars, String.toList_ofList]
      rfl

end Lsl
