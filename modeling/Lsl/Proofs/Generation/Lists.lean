import Lsl.Proofs.Generation.Numbers
import Lsl.Proofs.Library.Formation
import Lsl.Proofs.Parsing.Grammar
import Lsl.Proofs.Syntax.Parts

/-!
Constants that are lists and are written out. The value of such a constant is read as a list, and
each of its elements is built by a constructor of its type. A number among the arguments keeps its
digits and all of its minuses, whereas the literals of a script are minus one where they do not fit;
so the arguments are the numbers of a script exactly if every number fits and has at most one minus.
-/

set_option autoImplicit false

namespace Lsl

/-! ### The literals of what is read -/

def Expr.Legible : Expr → Prop
  | integer _ raw => ∃ value, Numeral 10 raw.toList value
  | hex _ raw => ∃ value, HexText raw.toList value
  | float _ raw => ∃ value, FloatText raw.toList value
  | _ => True

theorem Expr.words_of_list {expr : Expr} {exprs : List Expr} (member : expr ∈ exprs) :
    ∀ word ∈ expr.words, word ∈ listWords exprs := by
  induction exprs with
  | nil => cases member
  | cons first rest induction =>
      intro word inside
      rw [listWords]
      rcases List.mem_cons.mp member with rfl | later
      · simp [inside]
      · simp [induction later word inside]

theorem Expr.words_of_part {part expr : Expr} (member : part ∈ expr.parts) :
    ∀ word ∈ part.words, word ∈ expr.words := by
  intro word inside
  cases expr with
  | list info inner elements =>
      have within : word ∈ listWords elements := words_of_list member word inside
      simp [words, within]
  | call info name inner arguments target =>
      have within : word ∈ listWords arguments := words_of_list member word inside
      simp [words, within]
  | _ =>
      simp only [parts, List.mem_cons, List.not_mem_nil, or_false] at member
      try rcases member with rfl | rfl | rfl | rfl
      all_goals simp [words, inside]

theorem Expr.words_of_node {node expr : Expr} (inside : node ∈ expr.nodes) :
    ∀ word ∈ node.words, word ∈ expr.words := by
  induction expr using parts_induction with
  | step expr induction =>
      rcases mem_nodes.mp inside with rfl | ⟨part, among, inside⟩
      · exact fun _ => id
      · exact fun word own => words_of_part among word (induction part among inside word own)

theorem Spells.token {words : List Word} {tokens : List Token} (spelled : Spells words tokens)
    {word : Word} (member : word ∈ words) : ∃ token ∈ tokens, word.Fits token := by
  induction spelled with
  | nil => cases member
  | cons fits _ induction =>
      rcases List.mem_cons.mp member with rfl | later
      · exact ⟨_, List.mem_cons_self, fits⟩
      · obtain ⟨token, inside, fits⟩ := induction later
        exact ⟨token, List.mem_cons_of_mem _ inside, fits⟩

theorem legible_of_parse_expression {source : String} {found node : Expr}
    (read : parseExpression (tokenize source) = .ok found) (inside : node ∈ found.nodes) :
    node.Legible := by
  have spelled := (spells_of_parse_expression read).2
  have told {kind : TokenKind} {raw : String} (own : node.words = [.named kind raw]) :
      kind.Numbers raw.toList := by
    have member := Expr.words_of_node inside (.named kind raw) (by simp [own])
    obtain ⟨token, among, rfl, rfl⟩ := spelled.token member
    exact tokenize_numbers ((List.takeWhile_sublist _).subset among)
  cases node with
  | integer | hex | float => exact told rfl
  | _ => trivial

/-! ### Numbers with minuses in front of them -/

namespace Expr

/-- How many minuses stand in front. -/
def minuses : Expr → Nat
  | prefixed _ .negate operand => operand.minuses + 1
  | _ => 0

/-- What stands behind the minuses. -/
def unsigned : Expr → Expr
  | prefixed _ .negate operand => operand.unsigned
  | expr => expr

def whole? : Expr → Option (LiteralKind × String)
  | integer _ raw => some (.integer, raw)
  | hex _ raw => some (.hex, raw)
  | _ => none

def literalType? : Expr → Option ValueType
  | integer _ _ => some .integer
  | hex _ _ => some .integer
  | float _ _ => some .float
  | _ => none

/-- An integer literal, if it is one, fits. -/
def fits : Expr → Bool
  | integer _ raw => Literal.integerFit raw = .fits
  | hex _ raw => Literal.hexFit raw = .fits
  | _ => true

/-- The number that a literal writes. -/
inductive Writes : Expr → ℚ → Prop
  | whole {expr : Expr} {kind : LiteralKind} {raw : String} {value : Nat}
    (literal : expr.whole? = some (kind, raw)) (writes : kind.Writes raw.toList value) :
    Writes expr value
  | float {info : ExprInfo} {raw : String} {value : ℚ} (text : FloatText raw.toList value) :
    Writes (.float info raw) value

/-- The number that a script has for a literal with minuses in front of it. An integer that does not
fit is minus one, with a minus directly in front of it or without. -/
inductive Means : Expr → ℚ → Prop
  | whole {expr : Expr} {kind : LiteralKind} {raw : String} {value : Nat}
    (literal : expr.whole? = some (kind, raw)) (writes : kind.Writes raw.toList value) :
    Means expr (kind.held value)
  | float {info : ExprInfo} {raw : String} {value : ℚ} (text : FloatText raw.toList value) :
    Means (.float info raw) value
  | opposite {outer : ExprInfo} {expr : Expr} {kind : LiteralKind} {raw : String} {value : Nat}
    (literal : expr.whole? = some (kind, raw)) (writes : kind.Writes raw.toList value) :
    Means (.prefixed outer .negate expr) (kind.opposite value)
  | minus {outer : ExprInfo} {expr : Expr} {value : ℚ} (other : expr.whole? = none)
    (inside : Means expr value) : Means (.prefixed outer .negate expr) (-value)

/-- The argument has all of the minuses, and behind them the number of the literal. -/
def WrittenAs (part : Expr) (argument : String) : Prop :=
  ∃ literal value, argument.toList = List.replicate part.minuses '-' ++ literal ∧
    part.unsigned.Writes value ∧ Target.Number literal value

/-- The argument is a number with one minus at most, and a script has the same number. -/
def AgreesWith (part : Expr) (argument : String) : Prop :=
  ∃ value, part.Means value ∧ Target.SignedNumber argument.toList value

variable {expr part : Expr} {kind : LiteralKind} {raw : String} {value other : ℚ}

theorem fits_iff {digits : Nat} (literal : expr.whole? = some (kind, raw))
    (writes : kind.Writes raw.toList digits) : expr.fits = true ↔ digits ≤ kind.limit := by
  generalize same : raw.toList = chars at writes
  cases expr with
  | integer info text =>
      cases literal
      cases writes with
      | integer numeral =>
          subst same
          simp [fits, Literal.integer_fits_iff numeral, LiteralKind.limit]
  | hex info text =>
      cases literal
      cases writes with
      | hex text =>
          subst same
          simp [fits, Literal.hex_fits_iff text, LiteralKind.limit]
  | _ => cases literal

theorem Means.unique (means : expr.Means value) (also : expr.Means other) : value = other := by
  induction means generalizing other with
  | whole literal writes =>
      cases also with
      | whole same more =>
          cases literal.symm.trans same
          rw [writes.unique more]
      | float | opposite | minus => cases literal
  | float text =>
      cases also with
      | whole same => cases same
      | float same => exact Literal.float_text_unique text same
  | opposite literal writes =>
      cases also with
      | whole same => cases same
      | opposite same more =>
          cases literal.symm.trans same
          rw [writes.unique more]
      | minus none => cases literal.symm.trans none
  | minus none _ induction =>
      cases also with
      | whole same => cases same
      | opposite same => cases none.symm.trans same
      | minus _ inside => rw [induction inside]

theorem Means.iff (means : expr.Means value) : expr.Means other ↔ other = value :=
  ⟨fun also => also.unique means, fun same => same ▸ means⟩

theorem whole_literal (literal : expr.whole? = some (kind, raw)) :
    ∃ info, expr = kind.literal info raw := by
  cases expr <;> cases literal <;> exact ⟨_, rfl⟩

def InRange : Expr → Prop
  | float _ raw => Literal.floatFit raw = .fits
  | _ => True

theorem Means.code_denotes (means : expr.Means value)
    (flat : ∀ node ∈ expr.nodes, node.type.isSpatial = false)
    (ranged : ∀ node ∈ expr.nodes, node.InRange) (manner : Manner) {place : Place}
    (bare : place ≠ .negated ∨ expr.whole? = none) : (expr.code manner place).Denotes value := by
  induction means generalizing place with
  | whole literal writes =>
      obtain ⟨info, rfl⟩ := whole_literal literal
      have bare := bare.resolve_right (by simp [literal])
      exact writes.kept.alone info manner bare
  | @float info raw value text =>
      have fits := ranged _ (mem_nodes_self _)
      rw [text.kept.code fits]
      exact literal_code_denotes place .float (.plain (.float text.kept.number))
  | @opposite outer expr kind raw value literal writes =>
      obtain ⟨info, rfl⟩ := whole_literal literal
      have own : kind.literal info raw ∈ (prefixed outer .negate (kind.literal info raw)).parts :=
        List.mem_cons_self
      have inside := mem_nodes_of_part own (mem_nodes_self _)
      exact writes.kept.negated outer manner place (flat _ inside)
  | @minus outer expr value other _ induction =>
      have inside {node : Expr} (own : node ∈ expr.nodes) :
          node ∈ (prefixed outer .negate expr).nodes := mem_nodes_of_part List.mem_cons_self own
      have denotes : (expr.code manner .negated).Denotes value :=
        induction (fun node own => flat node (inside own))
          (fun node own => ranged node (inside own)) (.inr other)
      rw [Expr.code, if_pos rfl]
      exact negated_denotes place (flat expr (inside expr.mem_nodes_self)) denotes

theorem Writes.means_iff (writes : expr.Writes value) : expr.Means value ↔ expr.fits = true := by
  cases writes with
  | @whole _ kind raw digits literal writes =>
      rw [(Means.whole literal writes).iff, fits_iff literal writes, eq_comm,
        LiteralKind.held_eq_iff]
  | float text => exact iff_of_true (.float text) rfl

theorem Writes.minus_means_iff (outer : ExprInfo) (writes : expr.Writes value) :
    (prefixed outer .negate expr).Means (-value) ↔ expr.fits = true := by
  cases writes with
  | @whole _ kind raw digits literal writes =>
      rw [(Means.opposite literal writes).iff, fits_iff literal writes, eq_comm,
        LiteralKind.opposite_eq_iff]
  | float text => exact iff_of_true (.minus rfl (.float text)) rfl

theorem minuses_cases (part : Expr) : part.minuses = 0 ∧ part.unsigned = part ∨
    ∃ outer operand, part = prefixed outer .negate operand := by
  unfold minuses unsigned
  split
  · exact .inr ⟨_, _, rfl⟩
  · exact .inl ⟨rfl, rfl⟩

theorem WrittenAs.agrees_iff {argument : String} (written : part.WrittenAs argument) :
    part.AgreesWith argument ↔ part.minuses ≤ 1 ∧ part.unsigned.fits = true := by
  obtain ⟨literal, value, text, writes, number⟩ := written
  have agrees {own : ℚ} (known : Target.SignedNumber argument.toList own) :
      part.AgreesWith argument ↔ part.Means own :=
    ⟨fun ⟨_, means, same⟩ => known.unique same ▸ means, fun means => ⟨own, means, known⟩⟩
  rcases part.minuses_cases with ⟨none, own⟩ | ⟨outer, operand, rfl⟩
  · rw [own] at writes ⊢
    have plain := Target.SignedNumber.plain number
    rw [none, List.replicate_zero, List.nil_append] at text
    rw [← text] at plain
    rw [agrees plain, writes.means_iff]
    simp [none]
  rcases operand.minuses_cases with ⟨none, own⟩ | ⟨inner, operand, rfl⟩
  · have single : (prefixed outer .negate operand).minuses = 1 := by rw [minuses, none]
    rw [unsigned, own] at writes ⊢
    have negative := Target.SignedNumber.negative number
    rw [single] at text
    rw [← List.singleton_append, ← List.replicate_one, ← text] at negative
    rw [agrees negative, writes.minus_means_iff]
    simp [single]
  · refine iff_of_false ?_ ?_
    · rintro ⟨_, -, number⟩
      rw [text, minuses, minuses, List.replicate_succ, List.replicate_succ] at number
      exact Target.SignedNumber.single _ number
    · simp [minuses]

end Expr

/-! ### What numbers are written as -/

theorem map_eq_ok {ε α β : Type} {first : Except ε α} {change : α → β} {value : β} :
    first.map change = .ok value ↔ ∃ found, first = .ok found ∧ change found = value := by
  cases first <;> simp [Except.map]

theorem map_m_eq_ok {ε α β : Type} {step : α → Except ε β} {list : List α} {found : List β}
    (mapped : list.mapM step = .ok found) :
    List.Forall₂ (fun member value => step member = .ok value) list found := by
  induction list generalizing found with
  | nil =>
      cases mapped
      exact .nil
  | cons first rest induction =>
      rw [List.mapM_cons] at mapped
      obtain ⟨value, own, mapped⟩ := bind_eq_ok.mp mapped
      obtain ⟨others, later, mapped⟩ := bind_eq_ok.mp mapped
      cases mapped
      exact .cons own (induction later)

theorem number_text_written {part : Expr} {text : String} (legible : part.unsigned.Legible)
    (written : numberText part = .ok text) : part.WrittenAs text := by
  fun_induction numberText part generalizing text with
  | case1 info raw =>
      obtain ⟨value, numeral⟩ := legible
      obtain rfl := Except.ok.inj written
      exact ⟨_, _, rfl, .whole rfl (.integer numeral), .decimal numeral⟩
  | case2 info raw =>
      obtain ⟨value, hex⟩ := legible
      obtain rfl := Except.ok.inj written
      exact ⟨_, _, rfl, .whole rfl (.hex hex), .hex hex⟩
  | case3 info raw =>
      obtain ⟨value, float⟩ := legible
      obtain rfl := Except.ok.inj written
      have number := Literal.format_float_number float
      exact ⟨(Literal.formatFloat raw).toList, value, by simp [Expr.minuses], .float float,
        .float number⟩
  | case4 info operand induction =>
      obtain ⟨inner, found, rfl⟩ := map_eq_ok.mp written
      obtain ⟨literal, value, own, writes, number⟩ := induction legible found
      refine ⟨literal, value, ?_, writes, number⟩
      rw [String.toList_append, own, Expr.minuses, List.replicate_succ]
      rfl
  | case5 => simp at written

theorem number_text_point {part : Expr} {text : String} (legible : part.unsigned.Legible)
    (written : numberText part = .ok text) :
    '.' ∈ text.toList ↔ part.unsigned.whole? = none := by
  fun_induction numberText part generalizing text with
  | case1 info raw =>
      obtain ⟨value, numeral⟩ := legible
      obtain rfl := Except.ok.inj written
      exact iff_of_false (fun point => Literal.digit_not_point (numeral.digits _ point) rfl) nofun
  | case2 info raw =>
      obtain ⟨value, hex⟩ := legible
      obtain rfl := Except.ok.inj written
      exact iff_of_false hex.not_point nofun
  | case3 info raw =>
      obtain ⟨value, float⟩ := legible
      obtain rfl := Except.ok.inj written
      exact iff_of_true (Literal.format_float_number float).point rfl
  | case4 info operand induction =>
      obtain ⟨inner, found, rfl⟩ := map_eq_ok.mp written
      rw [Expr.unsigned, ← induction legible found]
      simp
  | case5 => simp at written

/-! ### Elements and their constructors -/

/-- A call of a constructor. -/
structure Construction where
  type : String
  arguments : List String

def Construction.text (built : Construction) : String :=
  "new " ++ built.type ++ "(" ++ ", ".intercalate built.arguments ++ ")"

namespace Expr

def elementType? : Expr → Option ValueType
  | string _ _ => some .string
  | cast _ .key (string _ _) => some .key
  | vector _ _ _ _ => some .vector
  | rotation _ _ _ _ _ => some .rotation
  | expr => expr.unsigned.literalType?

/-- The text an element is made of, if it is made of one. -/
def texts : Expr → List String
  | string _ raw => [raw]
  | cast _ .key (string _ raw) => [raw]
  | _ => []

def numbers : Expr → List Expr
  | string _ _ => []
  | cast _ _ _ => []
  | vector _ x y z => [x, y, z]
  | rotation _ x y z s => [x, y, z, s]
  | expr => [expr]

/-- The constructor is that of the element's type. Its arguments are the element's text and what its
numbers are related to. -/
structure BuiltBy (keysAreStrings : Bool) (number : Expr → String → Prop) (element : Expr)
    (built : Construction) : Prop where
  type : ∃ type, element.elementType? = some type ∧ built.type = type.targetName keysAreStrings
  arguments : ∃ numbers, List.Forall₂ number element.numbers numbers ∧
    built.arguments = element.texts.map quotedLiteral ++ numbers

variable {keysAreStrings : Bool} {element : Expr} {built : Construction}

theorem agree_iff {parts : List Expr} {arguments : List String}
    (written : List.Forall₂ WrittenAs parts arguments) :
    List.Forall₂ AgreesWith parts arguments ↔
      ∀ part ∈ parts, part.minuses ≤ 1 ∧ part.unsigned.fits = true := by
  induction written with
  | nil => simp
  | cons number _ induction =>
      rw [List.forall₂_cons, number.agrees_iff, induction, List.forall_mem_cons]

/-- The numbers of an element are those of a script exactly if each of them fits and has no second
minus. -/
theorem BuiltBy.agrees_iff (written : element.BuiltBy keysAreStrings WrittenAs built) :
    element.BuiltBy keysAreStrings AgreesWith built ↔
      ∀ part ∈ element.numbers, part.minuses ≤ 1 ∧ part.unsigned.fits = true := by
  obtain ⟨arguments, own, all⟩ := written.arguments
  rw [← agree_iff own]
  constructor
  · intro agreed
    obtain ⟨others, agrees, same⟩ := agreed.arguments
    rwa [List.append_cancel_left (all.symm.trans same)]
  · exact fun agrees => ⟨written.type, arguments, agrees, all⟩

theorem unsigned_mem_nodes (expr : Expr) : expr.unsigned ∈ expr.nodes := by
  fun_induction unsigned expr with
  | case1 info operand induction => exact mem_nodes_of_part List.mem_cons_self induction
  | case2 expr => exact expr.mem_nodes_self

theorem Writes.literal_type {expr : Expr} {value : ℚ} (writes : expr.Writes value) :
    expr.literalType? = some (if expr.whole? = none then .float else .integer) := by
  cases writes with
  | whole literal => cases expr <;> first | rfl | cases literal
  | float => rfl

end Expr

theorem construction_text (type : ValueType) (arguments : List String) :
    construction type (", ".intercalate arguments) =
      (Construction.mk (type.targetName false) arguments).text := rfl

theorem numbers_text_written {parts : List Expr} {text : String}
    (legible : ∀ part ∈ parts, part.unsigned.Legible) (written : numbersText parts = .ok text) :
    ∃ arguments, List.Forall₂ Expr.WrittenAs parts arguments ∧
      text = ", ".intercalate arguments := by
  obtain ⟨arguments, mapped, written⟩ := bind_eq_ok.mp written
  cases written
  have pairs := (List.forall₂_and_left _ _).mpr ⟨legible, map_m_eq_ok mapped⟩
  exact ⟨arguments, pairs.imp fun _ _ own => number_text_written own.1 own.2, rfl⟩

theorem number_construction_built {keysAreStrings : Bool} {element : Expr} {text : String}
    (legible : element.unsigned.Legible) (single : element.numbers = [element])
    (bare : element.texts = []) (type : element.elementType? = element.unsigned.literalType?)
    (written : numberConstruction element = .ok text) :
    ∃ built, text = built.text ∧ element.BuiltBy keysAreStrings Expr.WrittenAs built := by
  obtain ⟨argument, found, written⟩ := bind_eq_ok.mp written
  cases written
  have own := number_text_written legible found
  have point := number_text_point legible found
  refine ⟨_, construction_text _ [argument], ?_, [argument], ?_, by simp [bare]⟩
  · obtain ⟨_, _, -, writes, -⟩ := own
    refine ⟨_, type.trans writes.literal_type, ?_⟩
    simp only [List.contains_iff_mem, point]
    split <;> rfl
  · rw [single]
    exact .cons own .nil

theorem element_text_built {keysAreStrings : Bool} {element : Expr} {text : String}
    (legible : ∀ node ∈ element.nodes, node.Legible)
    (written : elementText keysAreStrings element = .ok text) :
    ∃ built, text = built.text ∧ element.BuiltBy keysAreStrings Expr.WrittenAs built := by
  have own := legible _ element.unsigned_mem_nodes
  have part {part : Expr} (among : part ∈ element.parts) : part.unsigned.Legible :=
    legible _ (Expr.mem_nodes_of_part among part.unsigned_mem_nodes)
  unfold elementText at written
  split at written
  · cases written
    exact ⟨_, construction_text .string [_], ⟨_, rfl, rfl⟩, [], .nil, rfl⟩
  · split at written
    · cases written
      exact ⟨⟨_, [_]⟩, rfl, ⟨_, rfl, rfl⟩, [], .nil, rfl⟩
    · simp at written
  · exact number_construction_built own rfl rfl rfl written
  · exact number_construction_built own rfl rfl rfl written
  · exact number_construction_built own rfl rfl rfl written
  · obtain ⟨argument, found, written⟩ := bind_eq_ok.mp written
    cases written
    exact ⟨_, construction_text .float [argument], ⟨_, rfl, rfl⟩, [argument],
      .cons (number_text_written own found) .nil, rfl⟩
  · obtain ⟨argument, found, written⟩ := bind_eq_ok.mp written
    cases written
    obtain ⟨arguments, numbers, rfl⟩ := numbers_text_written (fun _ => part) found
    exact ⟨_, construction_text .vector arguments, ⟨_, rfl, rfl⟩, arguments, numbers, rfl⟩
  · obtain ⟨argument, found, written⟩ := bind_eq_ok.mp written
    cases written
    obtain ⟨arguments, numbers, rfl⟩ := numbers_text_written (fun _ => part) found
    exact ⟨_, construction_text .rotation arguments, ⟨_, rfl, rfl⟩, arguments, numbers, rfl⟩
  · simp at written

theorem element_texts_built {keysAreStrings : Bool} {elements : List Expr} {texts : List String}
    (legible : ∀ element ∈ elements, ∀ node ∈ element.nodes, node.Legible)
    (written : List.Forall₂ (fun element text => elementText keysAreStrings element = .ok text)
      elements texts) :
    ∃ built : List Construction, texts = built.map Construction.text ∧
      List.Forall₂ (Expr.BuiltBy keysAreStrings Expr.WrittenAs) elements built := by
  induction written with
  | nil => exact ⟨[], rfl, .nil⟩
  | cons own _ induction =>
      obtain ⟨first, rest⟩ := List.forall_mem_cons.mp legible
      obtain ⟨built, rfl, one⟩ := element_text_built first own
      obtain ⟨others, rfl, all⟩ := induction rest
      exact ⟨built :: others, rfl, .cons one all⟩

theorem list_text_built {keysAreStrings : Bool} {literal text : String}
    (written : listText keysAreStrings literal = .ok text) :
    ∃ info inner elements built, lexicalErrors literal = [] ∧
      parseExpression (tokenize literal) = .ok (.list info inner elements) ∧
      text = (Construction.mk (ValueType.list.targetName false)
        (built.map Construction.text)).text ∧
      List.Forall₂ (Expr.BuiltBy keysAreStrings Expr.WrittenAs) elements built := by
  obtain ⟨elements, found, written⟩ := bind_eq_ok.mp written
  obtain ⟨texts, mapped, written⟩ := bind_eq_ok.mp written
  cases written
  unfold constantElements at found
  split at found
  · simp at found
  rename_i clean
  split at found
  · simp at found
  · rename_i info inner others read
    cases found
    have legible {element : Expr} (member : element ∈ elements) :
        ∀ node ∈ element.nodes, node.Legible := fun node inside =>
      legible_of_parse_expression read (Expr.mem_nodes_of_part member inside)
    obtain ⟨built, rfl, all⟩ := element_texts_built (fun _ => legible) (map_m_eq_ok mapped)
    exact ⟨info, inner, elements, built, clean, read, rfl, all⟩
  · simp at found

theorem list_agrees_iff {keysAreStrings : Bool} {elements : List Expr} {built : List Construction}
    (written : List.Forall₂ (Expr.BuiltBy keysAreStrings Expr.WrittenAs) elements built) :
    List.Forall₂ (Expr.BuiltBy keysAreStrings Expr.AgreesWith) elements built ↔
      ∀ element ∈ elements, ∀ part ∈ element.numbers,
        part.minuses ≤ 1 ∧ part.unsigned.fits = true := by
  induction written with
  | nil => simp
  | cons own _ induction =>
      rw [List.forall₂_cons, own.agrees_iff, induction, List.forall_mem_cons]

/-- Keys in a list that is written out are built as strings. -/
def Settings.stringsInLists (settings : Settings) : Bool :=
  settings.keysAreStrings || settings.expandedElementsAreStrings

def LibraryConstant.writtenList (value : String) : LibraryConstant where
  signature := ⟨"LIST", .list, value⟩
  metadata := { properties := [("Expand", "true")] }

def listElements (text : String) : List Expr :=
  match parseExpression (tokenize text) with
  | .ok (.list _ _ elements) => elements
  | _ => []

theorem list_elements_read {text : String} {info : ExprInfo} {inner : Span}
    {elements : List Expr}
    (read : parseExpression (tokenize text) = .ok (.list info inner elements)) :
    listElements text = elements := by
  rw [listElements, read]

/-- A constant that is a list and is written out has a constructor for each element of its value, in
their order and of their types. The numbers keep all of their digits and minuses, so they are those
of a script exactly if each of them fits and has no second minus. -/
theorem expanded_list_agrees_iff {settings : Settings} {constant : LibraryConstant} {text : String}
    (list : constant.signature.type = .list) (expanded : constant.metadata.isExpanded = true)
    (written : constantCode settings constant = .plain text) :
    ∃ info inner elements built, lexicalErrors constant.literal = [] ∧
      parseExpression (tokenize constant.literal) = .ok (.list info inner elements) ∧
      text = (Construction.mk (ValueType.list.targetName false)
        (built.map Construction.text)).text ∧
      List.Forall₂ (Expr.BuiltBy settings.stringsInLists Expr.WrittenAs) elements built ∧
      (List.Forall₂ (Expr.BuiltBy settings.stringsInLists Expr.AgreesWith) elements built ↔
        ∀ element ∈ elements, ∀ part ∈ element.numbers,
          part.minuses ≤ 1 ∧ part.unsigned.fits = true) := by
  rw [constantCode, if_pos expanded, expandedText, list] at written
  dsimp only at written
  split at written
  · rename_i own
    cases written
    obtain ⟨info, inner, elements, built, clean, read, same, all⟩ := list_text_built own
    exact ⟨info, inner, elements, built, clean, read, same, all, list_agrees_iff all⟩
  · cases written

theorem fitting_list_agrees :
    ∃ text info inner elements built,
      constantCode {} (.writtenList "-1, <0, -.5, 0xFF>") = .plain text ∧
      parseExpression (tokenize "[-1, <0, -.5, 0xFF>]") = .ok (.list info inner elements) ∧
      text = (Construction.mk (ValueType.list.targetName false)
        (built.map Construction.text)).text ∧
      List.Forall₂ (Expr.BuiltBy false Expr.AgreesWith) elements built := by
  have written : constantCode {} (.writtenList "-1, <0, -.5, 0xFF>") = .plain
      "new LSL_Types.list(new LSL_Types.LSLInteger(-1), new LSL_Types.Vector3(0, -0.5, 0xFF))" := by
    rfl
  obtain ⟨info, inner, elements, built, -, read, same, -, agrees⟩ :=
    expanded_list_agrees_iff rfl rfl written
  have read : parseExpression (tokenize "[-1, <0, -.5, 0xFF>]") =
    .ok (.list info inner elements) := read
  refine ⟨_, info, inner, elements, built, written, read, same, agrees.mpr ?_⟩
  have checked : (listElements "[-1, <0, -.5, 0xFF>]").all (fun element =>
      element.numbers.all fun part => decide (part.minuses ≤ 1) && part.unsigned.fits) = true := by
    rfl
  rw [list_elements_read read] at checked
  simpa using checked

/-- A number that does not fit is written as it stands. -/
theorem wide_element_written :
    ∃ text, constantCode {} (.writtenList "99999999999") = .plain text ∧
      ∀ info inner elements built,
        parseExpression (tokenize "[99999999999]") = .ok (.list info inner elements) →
        text = (Construction.mk (ValueType.list.targetName false)
          (built.map Construction.text)).text →
        ¬ List.Forall₂ (Expr.BuiltBy false Expr.AgreesWith) elements built := by
  refine ⟨"new LSL_Types.list(new LSL_Types.LSLInteger(99999999999))", by rfl, ?_⟩
  intro info inner elements built read same agrees
  have element : ∃ info, elements = [.integer info "99999999999"] := by
    rw [← list_elements_read read]
    exact ⟨_, rfl⟩
  obtain ⟨own, rfl⟩ := element
  obtain ⟨call, _, agreed, none, rfl⟩ := List.forall₂_cons_left_iff.mp agrees
  cases none
  obtain ⟨⟨type, typed, name⟩, _, number, arguments⟩ := agreed
  cases typed
  obtain ⟨argument, _, agreed, none, rfl⟩ := List.forall₂_cons_left_iff.mp number
  cases none
  have text : argument = "99999999999" := by
    have digits : "99999999999".toList ++ [')', ')'] = argument.toList ++ [')', ')'] := by
      simpa [Construction.text, name, arguments, ValueType.targetName, Expr.texts]
        using congrArg String.toList same
    exact String.toList_inj.mp (List.append_cancel_right digits).symm
  subst text
  have numeral : Numeral 10 "99999999999".toList 99999999999 :=
    natural_eq_some_iff.mp (by decide)
  have written : (Expr.integer own "99999999999").WrittenAs "99999999999" :=
    number_text_written ⟨_, numeral⟩ rfl
  have fits : Literal.integerFit "99999999999" = .fits :=
    of_decide_eq_true (written.agrees_iff.mp agreed).2
  exact absurd fits (by decide)

end Lsl
