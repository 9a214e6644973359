import Lsl.Proofs.Arena.Planting
import Lsl.Proofs.Parsing.Clauses

/-!
Reading into an arena follows reading. A planter takes the tokens that its reader takes, gives what
the reader gives, and fails where the reader fails. The nodes it hands on are those of what it gives,
and as long as nothing had to be reported, no other node is left without a parent.
-/

set_option autoImplicit false

namespace Lsl

/-- A report is still there when some tokens are skipped. -/
theorem Cursor.reported_skip (cursor : Cursor) (error : SyntaxError) (count : Nat) :
    (skip count { cursor with errors := cursor.errors ++ [error] }).errors ≠ [] :=
  (reaches_skip _ count).errors.ne_nil (by simp)

namespace Parser

/-- The reader only adds reports, and where it gives something that has the property. -/
def Grants {α : Type} (reader : Parser α) (property : α → Prop) : Prop :=
  ∀ cursor, Derives (fun _ _ => True) reader cursor fun value after =>
    cursor.errors <+: after.errors ∧ property value

/-- The reader only adds reports. -/
abbrev Recording {α : Type} (reader : Parser α) : Prop := Grants reader fun _ => True

namespace Grants

variable {α β : Type} {property : β → Prop}

theorem pure {value : β} (holds : property value) : Grants (Pure.pure value) property :=
  fun _ => ⟨List.prefix_refl _, holds⟩

theorem bind {reader : Parser α} {next : α → Parser β} (first : Recording reader)
    (second : ∀ value, Grants (next value) property) : Grants (reader >>= next) property := by
  intro cursor
  apply Derives.bind (first cursor)
  intro value after records
  apply (second value after).weaken
  exact fun result last more => ⟨records.1.trans more.1, more.2⟩

theorem fail {error : SyntaxError} : Grants (throw error) property := fun _ => trivial

theorem mismatched {expecting : String} : Grants (Parser.mismatched expecting) property :=
  fun _ => trivial

end Grants

namespace Recording

theorem pure {α : Type} {value : α} : Recording (Pure.pure value) := Grants.pure trivial

theorem peek : Recording Parser.peek := fun _ => ⟨List.prefix_refl _, trivial⟩

theorem span_from {start : Position} : Recording (Parser.spanFrom start) :=
  fun _ => ⟨List.prefix_refl _, trivial⟩

theorem next : Recording Parser.next := fun cursor => ⟨cursor.reaches_step.errors, trivial⟩

theorem report {error : SyntaxError} : Recording (Parser.report error) :=
  fun _ => ⟨List.prefix_append _ _, trivial⟩

theorem fresh_scope : Recording Parser.freshScope := fun _ => ⟨List.prefix_refl _, trivial⟩

theorem expect_or {kind : TokenKind} {expecting : String} :
    Recording (Parser.expectOr kind expecting) := by
  apply Grants.bind peek
  intro cursor
  split
  · exact next
  · exact Grants.mismatched

theorem expect {kind : TokenKind} : Recording (Parser.expect kind) := expect_or

theorem accept {kind : TokenKind} : Recording (Parser.accept kind) := by
  apply Grants.bind peek
  intro cursor
  split
  · exact Grants.bind next fun _ => pure
  · exact pure

theorem type : Recording Parser.type := by
  apply Grants.bind expect
  intro token
  split
  · exact pure
  · exact Grants.fail

theorem component_name : Recording Parser.componentName := by
  apply Grants.bind expect
  intro token
  split
  · exact pure
  · exact Grants.fail

theorem state_name : Recording Parser.stateName := by
  apply Grants.bind peek
  intro cursor
  split
  · exact Grants.bind next fun _ => pure
  · exact Grants.mismatched

theorem state_head : Recording Parser.stateHead := by
  apply Grants.bind accept
  intro found
  split
  · exact pure
  · exact Grants.bind expect fun _ => Grants.bind expect fun _ => pure

end Recording

end Parser

/-- The nodes that are held are in the arena, and nothing lists them so far. -/
structure Site.Spills (site : Site) (held : List Root) : Prop where
  sound : site.arena.Sound
  distinct : (held.map Root.id).Nodup
  shown : ∀ root ∈ held, site.arena.Loose root.id ∧ site.arena.node? root.id = some root.node

/-- While nothing was reported, only the nodes that are held have no parent. -/
structure Site.Keeps (site : Site) (held : List Root) : Prop extends site.Spills held where
  whole : site.cursor.errors = [] → ∀ id, site.arena.Loose id → id ∈ held.map Root.id

namespace Site

variable {site : Site} {held inside : List Root}

theorem Spills.sublist {others : List Root} (spills : site.Spills held)
    (fewer : others.Sublist held) : site.Spills others where
  sound := spills.sound
  distinct := spills.distinct.sublist (fewer.map _)
  shown root member := spills.shown root (fewer.subset member)

theorem Spills.cursor (spills : site.Spills held) (after : Cursor) :
    Spills { site with cursor := after } held :=
  ⟨spills.sound, spills.distinct, spills.shown⟩

theorem Keeps.perm {others : List Root} (keeps : site.Keeps held) (same : held.Perm others) :
    site.Keeps others where
  sound := keeps.sound
  distinct := (same.map Root.id).nodup keeps.distinct
  shown root member := keeps.shown root (same.mem_iff.mpr member)
  whole silent id loose := (same.map Root.id).mem_iff.mp (keeps.whole silent id loose)

theorem Keeps.records {after : Cursor} (keeps : site.Keeps held)
    (records : site.cursor.errors <+: after.errors) :
    Keeps { site with cursor := after } held where
  toSpills := keeps.toSpills.cursor after
  whole silent := keeps.whole (List.prefix_nil.mp (silent ▸ records))

/-- With a report, nodes may be left without a parent. -/
theorem Spills.keeps (spills : site.Spills held) (reported : site.cursor.errors ≠ []) :
    site.Keeps held where
  toSpills := spills
  whole silent := absurd silent reported

theorem keeps_start (tokens : List Token) : Keeps { cursor := .ofTokens tokens } [] where
  sound := Arena.sound_empty
  distinct := List.nodup_nil
  shown _ member := absurd member List.not_mem_nil
  whole _ id loose := by
    obtain ⟨cell, found, _⟩ := loose
    cases found

theorem Keeps.grown {grown : Arena} {node : Node} (keeps : site.Keeps (inside ++ held))
    (grows : site.arena.Grows grown node (inside.map Root.id))
    (nodes : inside.map Root.node = node.children) (clean : node.isMarked = false) :
    Keeps { site with arena := grown } (⟨site.arena.size, node⟩ :: held) := by
  have distinct := keeps.distinct
  rw [List.map_append, List.nodup_append'] at distinct
  obtain ⟨insideDistinct, heldDistinct, disjoint⟩ := distinct
  have insideShown := fun root member => keeps.shown root (List.mem_append_left held member)
  have heldShown := fun root member => keeps.shown root (List.mem_append_right inside member)
  have early : ∀ root ∈ held, root.id < site.arena.size :=
    fun root member => (heldShown root member).1.lt_size
  refine ⟨⟨?_, ?_, ?_⟩, ?_⟩
  · refine grows.sound keeps.sound insideDistinct ?_ ?_ clean
    · exact List.forall_mem_map.mpr fun root member => (insideShown root member).1
    · rw [← nodes, List.map_map, List.map_map]
      exact List.map_congr_left fun root member => (insideShown root member).2
  · refine List.nodup_cons.mpr ⟨?_, heldDistinct⟩
    intro member
    obtain ⟨root, inner, same⟩ := List.mem_map.mp member
    exact Nat.ne_of_lt (early root inner) same
  · intro root member
    rcases List.mem_cons.mp member with rfl | member
    · exact ⟨grows.loose_last, by simp [Arena.node?, grows.cell_last]⟩
    · obtain ⟨loose, known⟩ := heldShown root member
      have apart : root.id ∉ inside.map Root.id :=
        fun taken => disjoint taken (List.mem_map_of_mem member)
      exact ⟨grows.loose loose apart, (grows.node_of_lt (early root member)).trans known⟩
  · intro silent id loose
    rw [List.map_cons, List.mem_cons]
    rcases grows.of_loose loose with last | ⟨before, apart⟩
    · exact .inl last
    · have known := keeps.whole silent id before
      rw [List.map_append, List.mem_append] at known
      exact .inr (known.resolve_left apart)

end Site

namespace Planter

theorem bind_of_ok {α β : Type} {planter : Planter α} {next : α → Planter β} {site later : Site}
    {value : α} (planted : planter site = .ok value later) :
    (planter >>= next) site = next value later := by
  simp only [Bind.bind, EStateM.bind, planted]

/-- Where some nodes are taken and others held, the planter goes the way of the reader. It hands on
the nodes of what it gives, in their order and in the place of those it took. -/
def Mirrors {α : Type} (nodes : α → List Node) (taken : List Root)
    (planter : Planter (Planted α)) (reader : Parser α) : Prop :=
  ∀ site held, site.Keeps (taken ++ held) →
    match planter site with
    | .ok found later =>
      reader site.cursor = .ok found.value later.cursor ∧
        found.roots.map Root.node = nodes found.value ∧ later.Keeps (found.roots ++ held)
    | .error error later =>
      reader site.cursor = .error error later.cursor ∧ later.Spills held

namespace Mirrors

variable {α β : Type} {nodes : α → List Node} {inner : β → List Node} {taken : List Root}

theorem pure {value : α} {roots : List Root} (same : roots.map Root.node = nodes value) :
    Mirrors nodes roots (Pure.pure ⟨value, roots⟩) (Pure.pure value) :=
  fun _ _ keeps => ⟨rfl, same, keeps⟩

theorem fail {reader : Parser α} {planter : Planter (Planted α)}
    (fails : ∀ site, ∃ error, planter site = .error error site ∧
      reader site.cursor = .error error site.cursor) : Mirrors nodes taken planter reader := by
  intro site held keeps
  obtain ⟨error, planted, read⟩ := fails site
  rw [planted]
  exact ⟨read, keeps.toSpills.sublist (List.sublist_append_right taken held)⟩

theorem mismatched {expecting : String} :
    Mirrors nodes taken (read (Parser.mismatched expecting)) (Parser.mismatched expecting) :=
  fail fun site => ⟨site.cursor.mismatch expecting, rfl, rfl⟩

/-- Tokens are read without a change to what was added. -/
theorem read_bind {reader : Parser β} {next : β → Planter (Planted α)} {follow : β → Parser α}
    (recording : Parser.Recording reader)
    (rest : ∀ value, Mirrors nodes taken (next value) (follow value)) :
    Mirrors nodes taken (read reader >>= next) (reader >>= follow) := by
  intro site held keeps
  simp only [Bind.bind, EStateM.bind, read]
  cases result : reader site.cursor with
  | error error after =>
      exact ⟨rfl, (keeps.toSpills.sublist (List.sublist_append_right taken held)).cursor after⟩
  | ok value after =>
      have records := ((recording site.cursor).ok result).1
      exact rest value { site with cursor := after } held (keeps.records records)

theorem bind {planter : Planter (Planted β)} {reader : Parser β}
    {next : Planted β → Planter (Planted α)} {follow : β → Parser α}
    (first : Mirrors inner taken planter reader)
    (second : ∀ found, found.roots.map Root.node = inner found.value →
      Mirrors nodes found.roots (next found) (follow found.value)) :
    Mirrors nodes taken (planter >>= next) (reader >>= follow) := by
  intro site held keeps
  have begun := first site held keeps
  simp only [Bind.bind, EStateM.bind]
  cases result : planter site with
  | error error later =>
      rw [result] at begun
      rw [begun.1]
      exact ⟨rfl, begun.2⟩
  | ok found later =>
      rw [result] at begun
      obtain ⟨read, same, kept⟩ := begun
      rw [read]
      exact second found same later held kept

/-- What was taken so far is left alone by a planter that takes nothing. -/
theorem past {planter : Planter (Planted β)} {reader : Parser β}
    {next : Planted β → Planter (Planted α)} {follow : β → Parser α}
    (first : Mirrors inner [] planter reader)
    (second : ∀ found, found.roots.map Root.node = inner found.value →
      Mirrors nodes (taken ++ found.roots) (next found) (follow found.value)) :
    Mirrors nodes taken (planter >>= next) (reader >>= follow) := by
  intro site held keeps
  have begun := first site (taken ++ held) keeps
  simp only [Bind.bind, EStateM.bind]
  cases result : planter site with
  | error error later =>
      rw [result] at begun
      rw [begun.1]
      exact ⟨rfl, begun.2.sublist (List.sublist_append_right taken held)⟩
  | ok found later =>
      rw [result] at begun
      obtain ⟨read, same, kept⟩ := begun
      rw [read]
      refine second found same later held (kept.perm ?_)
      rw [← List.append_assoc]
      exact List.perm_append_comm.append_right held

theorem grow {node : α → Node} {value : α} (fresh : (node value).isFresh = true)
    (children : taken.map Root.node = (node value).children) :
    Mirrors (fun value => [node value]) taken (grow node value taken) (Pure.pure value) := by
  intro site held keeps
  obtain ⟨whole, clean⟩ := Node.fresh_iff.mp fresh
  have before : ∀ child ∈ taken.map Root.id, child < site.arena.size := by
    intro child member
    obtain ⟨root, inside, rfl⟩ := List.mem_map.mp member
    exact (keeps.shown root (List.mem_append_left held inside)).1.lt_size
  exact ⟨rfl, rfl, keeps.grown (Arena.grows_add _ whole before) children clean⟩

/-- Adds the node of what was read so far, and goes on. -/
theorem grow_bind {node : β → Node} {value : β} {next : Planted β → Planter (Planted α)}
    {follow : Parser α} (fresh : (node value).isFresh = true)
    (children : taken.map Root.node = (node value).children)
    (rest : ∀ id, Mirrors nodes [⟨id, node value⟩] (next ⟨value, [⟨id, node value⟩]⟩) follow) :
    Mirrors nodes taken (Planter.grow node value taken >>= next) follow := by
  intro site held keeps
  obtain ⟨_, _, grown⟩ := grow fresh children site held keeps
  exact rest site.arena.size _ held grown

theorem read_grow {node : α → Node} {reader : Parser α}
    (grants : Parser.Grants reader fun value =>
      (node value).isFresh = true ∧ taken.map Root.node = (node value).children) :
    Mirrors (fun value => [node value]) taken
      (read reader >>= fun value => Planter.grow node value taken) reader := by
  intro site held keeps
  simp only [Bind.bind, EStateM.bind, read]
  cases result : reader site.cursor with
  | error error after =>
      exact ⟨rfl, (keeps.toSpills.sublist (List.sublist_append_right taken held)).cursor after⟩
  | ok value after =>
      obtain ⟨records, fresh, children⟩ := (grants site.cursor).ok result
      exact grow fresh children { site with cursor := after } held (keeps.records records)

theorem grow_error {node : α → Node} {value : α} (broken : (node value).isBroken = true) :
    Mirrors (fun value => [node value]) [] (growError node value) (Pure.pure value) := by
  intro site held keeps
  have grows := Arena.grows_add_error site.arena broken
  have children : [].map Root.node = (node value).children := (Node.children_broken broken).symm
  exact ⟨rfl, rfl, keeps.grown grows children (Node.marked_of_broken broken)⟩

/-- A failure is left behind by reporting it and adding a node for what could not be read. -/
theorem recovering {node : α → Node} {planter : Planter (Planted α)} {reader : Parser α}
    {answer : SyntaxError → Parser α}
    (first : Mirrors (fun value => [node value]) [] planter reader)
    (breaks : ∀ error cursor, ∃ value after, answer error cursor = .ok value after ∧
      after.errors ≠ [] ∧ (node value).isBroken = true) :
    Mirrors (fun value => [node value]) []
      (recovering planter fun error => read (answer error) >>= growError node)
      (Parser.recovering reader answer) := by
  intro site held keeps
  have begun := first site held keeps
  unfold Planter.recovering Parser.recovering
  cases result : planter site with
  | ok found later =>
      rw [result] at begun
      rw [begun.1]
      exact ⟨rfl, begun.2⟩
  | error error later =>
      rw [result] at begun
      obtain ⟨failed, spills⟩ := begun
      obtain ⟨value, after, answered, reported, broken⟩ := breaks error later.cursor
      have kept := (spills.cursor after).keeps reported
      have added := grow_error broken { later with cursor := after } held kept
      simp only [failed, Bind.bind, EStateM.bind, read, answered]
      exact added

end Mirrors

end Planter

end Lsl
