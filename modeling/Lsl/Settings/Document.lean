import Lsl.Json
import Lsl.Settings

/-!
Settings as JSON documents. How values are made of settings and settings of values, and how values
are written and read as text, is left to the format that is used. The settings that a document gives
are refused if a name among them cannot stand in code.
-/

set_option autoImplicit false

namespace Lsl

/-- What a setting can be. -/
inductive SettingForm where
  | flag
  | text
  | optionalText
  | texts
  | access
deriving DecidableEq, Inhabited, Repr

namespace SettingForm

abbrev Value : SettingForm → Type
  | flag => Bool
  | text => String
  | optionalText => Option String
  | texts => List String
  | access => Access

def encode : (form : SettingForm) → form.Value → Json
  | flag, value => .bool value
  | text, value => .string (some value)
  | optionalText, none => .null
  | optionalText, some value => .string (some value)
  | texts, values => .array (values.map fun value => .string (some value))
  | access, value => .string (some value.name)

def textOf? : Json → Option String
  | .string value => value
  | _ => none

def decode? : (form : SettingForm) → Json → Option form.Value
  | flag, .bool value => some value
  | text, value => textOf? value
  | optionalText, .null => some none
  | optionalText, value => (textOf? value).map some
  | texts, .array items => items.mapM textOf?
  | access, .object [(key, .null)] => key >>= Access.ofName?
  | access, value => textOf? value >>= Access.ofName?
  | _, _ => none

end SettingForm

/-- The settings of a document, in their order. -/
inductive SettingKey where
  | wrapsInClass
  | keysAreStrings
  | checksTermination
  | terminationCall
  | header
  | className
  | classNamespace
  | classAccess
  | constructorSignature
  | constructorAccess
  | bases
  | imports
  | expandedKeysAreStrings
  | expandedElementsAreStrings
deriving DecidableEq, Inhabited, Repr

namespace SettingKey

def all : List SettingKey :=
  [wrapsInClass, keysAreStrings, checksTermination, terminationCall, header, className,
    classNamespace, classAccess, constructorSignature, constructorAccess, bases, imports,
    expandedKeysAreStrings, expandedElementsAreStrings]

def name : SettingKey → String
  | wrapsInClass => "generate_class"
  | keysAreStrings => "keys_are_strings"
  | checksTermination => "insert_coop_termination_calls"
  | terminationCall => "coop_termination_function_call"
  | header => "script_header"
  | className => "generated_class_name"
  | classNamespace => "generated_class_namespace"
  | classAccess => "generated_class_accessibility"
  | constructorSignature => "generated_constructor_signature"
  | constructorAccess => "generated_constructor_accessibility"
  | bases => "generated_inheritance_list"
  | imports => "generated_namespace_imports"
  | expandedKeysAreStrings => "key_constants_that_expand_are_strings"
  | expandedElementsAreStrings => "key_elements_in_list_constants_that_expand_are_strings"

def form : SettingKey → SettingForm
  | wrapsInClass | keysAreStrings | checksTermination | expandedKeysAreStrings
  | expandedElementsAreStrings => .flag
  | header => .text
  | terminationCall | className | classNamespace | constructorSignature => .optionalText
  | classAccess | constructorAccess => .access
  | bases | imports => .texts

def value (settings : Settings) : (key : SettingKey) → key.form.Value
  | wrapsInClass => settings.wrapsInClass
  | keysAreStrings => settings.keysAreStrings
  | checksTermination => settings.checksTermination
  | terminationCall => settings.terminationCall?
  | header => settings.header
  | className => settings.className?
  | classNamespace => settings.enclosingNamespace?
  | classAccess => settings.classAccess
  | constructorSignature => settings.constructorSignature?
  | constructorAccess => settings.constructorAccess
  | bases => settings.bases
  | imports => settings.imports
  | expandedKeysAreStrings => settings.expandedKeysAreStrings
  | expandedElementsAreStrings => settings.expandedElementsAreStrings

end SettingKey

/-- How settings are made values and values text, and the ways back. -/
structure SettingsFormat where
  serialize : Settings → Json
  deserialize? : Json → Option Settings
  write? : Json → Option String
  read? : String → Option Json

namespace Settings

def members (settings : Settings) : List (Option String × Json) :=
  SettingKey.all.map fun key => (some key.name, key.form.encode (key.value settings))

/-- The settings of a document, which may still hold names that cannot stand in code. -/
def read (format : SettingsFormat) (document : String) : Except Failure Settings :=
  match format.read? document >>= format.deserialize? with
  | some settings => .ok settings
  | none => .error .json

/-- The settings of a document, with every name checked. -/
def ofDocument (format : SettingsFormat) (document : String) : Except Failure Settings := do
  let settings ← read format document
  settings.validate
  return settings

def document (format : SettingsFormat) (settings : Settings) : Except Failure String :=
  match format.write? (format.serialize settings) with
  | some document => .ok document
  | none => .error .json

end Settings

end Lsl
