import Lsl.Json.Text
import Lsl.Settings.Document

/-!
The format of settings that runs are made with. A value gives some of the settings by name, or all up
to a point by position; a setting it does not give keeps its default value.
-/

set_option autoImplicit false

namespace Lsl.Settings

def taken? (members : List (Option String × Json)) (key : SettingKey) : Option key.form.Value :=
  match members.lookup (some key.name) with
  | some value => key.form.decode? value
  | none => some (key.value {})

/-- Settings by name. None is given twice, and names of nothing are passed over. -/
def ofMembers? (members : List (Option String × Json)) : Option Settings := do
  let keys ← members.mapM (·.1)
  guard (keys.filter (SettingKey.all.map SettingKey.name).contains).Nodup
  return {
    wrapsInClass := ← taken? members .wrapsInClass
    keysAreStrings := ← taken? members .keysAreStrings
    checksTermination := ← taken? members .checksTermination
    terminationCall? := ← taken? members .terminationCall
    header := ← taken? members .header
    className? := ← taken? members .className
    enclosingNamespace? := ← taken? members .classNamespace
    classAccess := ← taken? members .classAccess
    constructorSignature? := ← taken? members .constructorSignature
    constructorAccess := ← taken? members .constructorAccess
    bases := ← taken? members .bases
    imports := ← taken? members .imports
    expandedKeysAreStrings := ← taken? members .expandedKeysAreStrings
    expandedElementsAreStrings := ← taken? members .expandedElementsAreStrings }

/-- Settings by position. There are no more values than settings. -/
def ofItems? (items : List Json) : Option Settings :=
  if items.length ≤ SettingKey.all.length then
    ofMembers? ((SettingKey.all.map fun key => some key.name).zip items)
  else none

def ofJson? : Json → Option Settings
  | .array items => ofItems? items
  | .object members => ofMembers? members
  | _ => none

def format : SettingsFormat where
  serialize settings := .object settings.members
  deserialize? := ofJson?
  write? value := some value.write
  read? := Json.read?

end Lsl.Settings
