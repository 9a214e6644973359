import Lsl.Proofs.Json.Text
import Lsl.Proofs.Signature.Parameters
import Lsl.Settings.Format
import Mathlib.Data.List.Nodup
import Mathlib.Data.Option.Basic

/-!
Settings that are written as a document are read back from it, one by one, whatever the format, as
long as it does what is documented of it. Settings whose names can stand in code are accepted again
when they are read.
-/

set_option autoImplicit false

namespace Lsl

theorem Access.of_name (access : Access) : ofName? access.name = some access := by
  cases access <;> rfl

namespace SettingForm

theorem decode_encode (form : SettingForm) (value : form.Value) :
    form.decode? (form.encode value) = some value := by
  cases form with
  | flag | text => rfl
  | optionalText => cases value <;> rfl
  | texts =>
      change (value.map fun value => Json.string (some value)).mapM textOf? = some value
      induction value with
      | nil => rfl
      | cons text texts induction => simp [textOf?, induction]
  | access => exact Access.of_name value

theorem encode_plain (form : SettingForm) (value : form.Value) (depth : Nat) :
    Json.Plain (depth + 1) (form.encode value) := by
  cases form with
  | flag => exact .bool value
  | text => exact .string value
  | optionalText =>
      cases value with
      | none => exact .null
      | some text => exact .string text
  | texts =>
      refine .array fun item member => ?_
      obtain ⟨text, -, rfl⟩ := List.mem_map.mp member
      exact .string text
  | access => exact .string _

end SettingForm

namespace SettingKey

theorem mem_all (key : SettingKey) : key ∈ all := by cases key <;> decide

theorem names_distinct : (all.map name).Nodup := by decide

/-- The members have the value of a setting, or they leave it out and it is the default one. -/
def GivenBy (key : SettingKey) (members : List (Option String × Json)) (settings : Settings) :
    Prop :=
  (∃ value, (some key.name, value) ∈ members ∧ key.form.decode? value = some (key.value settings)) ∨
    some key.name ∉ members.map Prod.fst ∧ key.value settings = key.value {}

end SettingKey

/-- What is documented of the format. Settings are the object of all fields under their names, and
they are made of any object that gives their fields or leaves them out, other members aside. What is
written for a value is a document of it, and a document is read as its value, up to a certain depth
of nesting. -/
structure SettingsFormat.Documented (format : SettingsFormat) : Prop where
  serializes : ∀ settings : Settings, format.serialize settings = .object settings.members
  deserializes : ∀ {members : List (Option String × Json)} {settings : Settings},
    (∀ member ∈ members, member.1.isSome) → (members.map Prod.fst).Nodup →
      (∀ key : SettingKey, key.GivenBy members settings) →
        format.deserialize? (.object members) = some settings
  writes : ∀ {value : Json}, Json.Plain 127 value →
    ∃ document, format.write? value = some document ∧ Json.IsDocument 127 value document
  reads : ∀ {value : Json} {document : String}, Json.IsDocument 127 value document →
    format.read? document = some value

namespace Settings

theorem members_named (settings : Settings) : ∀ member ∈ settings.members, member.1.isSome := by
  intro member among
  obtain ⟨key, -, rfl⟩ := List.mem_map.mp among
  rfl

theorem members_distinct (settings : Settings) : (settings.members.map Prod.fst).Nodup := by
  have names : settings.members.map Prod.fst = (SettingKey.all.map SettingKey.name).map some := by
    rw [members, List.map_map, List.map_map]
    rfl
  rw [names]
  exact SettingKey.names_distinct.map fun _ _ => Option.some.inj

theorem members_give (settings : Settings) (key : SettingKey) :
    key.GivenBy settings.members settings :=
  .inl ⟨_, List.mem_map_of_mem (f := fun key : SettingKey =>
    (some key.name, key.form.encode (key.value settings))) key.mem_all,
    key.form.decode_encode _⟩

theorem members_plain (settings : Settings) (depth : Nat) :
    Json.Plain (depth + 2) (.object settings.members) := by
  refine .object settings.members_named fun member among => ?_
  obtain ⟨key, -, rfl⟩ := List.mem_map.mp among
  exact key.form.encode_plain _ depth

/-- Settings that are accepted are written as a document, and read from it they are accepted again
and nothing of them has changed. -/
theorem settings_survive_document {format : SettingsFormat} (documented : format.Documented)
    {settings : Settings} (valid : settings.validate = .ok ()) :
    ∃ document, settings.document format = .ok document ∧
      ofDocument format document = .ok settings := by
  obtain ⟨document, written, holds⟩ := documented.writes (settings.members_plain 125)
  have stored : Settings.document format settings = .ok document := by
    rw [Settings.document, documented.serializes, written]
  have read : Settings.read format document = .ok settings := by
    have made := documented.deserializes settings.members_named settings.members_distinct
      settings.members_give
    rw [Settings.read, documented.reads holds, Option.bind_eq_bind, Option.bind_some, made]
  refine ⟨document, stored, ?_⟩
  rw [ofDocument, read]
  simp [bind, Except.bind, valid, pure, Except.pure]

/-! ### The format of runs -/

theorem taken_given {members : List (Option String × Json)} {settings : Settings}
    (distinct : (members.map Prod.fst).Nodup) {key : SettingKey}
    (given : key.GivenBy members settings) : taken? members key = some (key.value settings) := by
  rcases given with ⟨value, member, decoded⟩ | ⟨absent, usual⟩
  · rw [taken?, lookup_of_mem distinct member]
    exact decoded
  · have missing : members.lookup (some key.name) = none := by
      refine List.lookup_eq_none_iff.mpr fun pair member => ?_
      have apart : some key.name ≠ pair.1 := fun same =>
        absent (same ▸ List.mem_map_of_mem member)
      simpa using apart
    rw [taken?, missing, usual]

theorem keys_read {members : List (Option String × Json)}
    (named : ∀ member ∈ members, member.1.isSome) :
    ∃ keys : List String, members.mapM Prod.fst = some keys ∧
      members.map Prod.fst = keys.map some := by
  induction members with
  | nil => exact ⟨[], rfl, rfl⟩
  | cons member members induction =>
      obtain ⟨key, found⟩ := Option.isSome_iff_exists.mp (named member List.mem_cons_self)
      obtain ⟨keys, read, same⟩ :=
        induction fun other inside => named other (List.mem_cons_of_mem _ inside)
      exact ⟨key :: keys, by simp [found, read], by simp [found, same]⟩

theorem of_members_given {members : List (Option String × Json)} {settings : Settings}
    (named : ∀ member ∈ members, member.1.isSome) (distinct : (members.map Prod.fst).Nodup)
    (given : ∀ key : SettingKey, key.GivenBy members settings) :
    ofMembers? members = some settings := by
  obtain ⟨keys, read, same⟩ := keys_read named
  have once : keys.Nodup := by
    rw [same] at distinct
    exact List.Nodup.of_map some distinct
  have taken := fun key => taken_given distinct (given key)
  have known := once.filter (SettingKey.all.map SettingKey.name).contains
  have checked : guard (f := Option)
      (keys.filter (SettingKey.all.map SettingKey.name).contains).Nodup = some () := if_pos known
  rw [ofMembers?]
  change (members.mapM Prod.fst).bind _ = _
  simp only [read, Option.bind_some, checked, taken, Option.bind_eq_bind, Option.pure_def]
  rfl

/-- The format of runs does what is documented. -/
theorem format_documented : format.Documented where
  serializes _ := rfl
  deserializes named distinct given := of_members_given named distinct given
  writes plain := ⟨_, rfl, plain.written⟩
  reads isDocument := isDocument.read

/-- A header with quotes and control characters survives. -/
theorem quoted_header_survives :
    let settings : Settings :=
      { header := "/* \"\\\t\x01 é\n */"
        className? := some "Script"
        constructorAccess := .nobody
        imports := ["System", "OpenSim.Region"] }
    format.Documented ∧ settings.validate = .ok () ∧
      ∃ document, settings.document format = .ok document ∧
        ofDocument format document = .ok settings :=
  ⟨format_documented, rfl, settings_survive_document format_documented rfl⟩

end Settings

end Lsl
