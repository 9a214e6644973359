import Lsl.Library.Entry

/-!
The entries every script has unless another library is given. They belong to the subset `lsl`.
-/

set_option autoImplicit false

namespace Lsl.Bundled

open Entry (function event constant)

def mathematics : List Entry := [
    function .float "llSin" [("theta", .float)]
      |>.documented "Returns the sine of theta, in radians.",
    function .float "llCos" [("theta", .float)]
      |>.documented "Returns the cosine of theta, in radians.",
    function .float "llTan" [("theta", .float)],
    function .float "llAtan2" [("y", .float), ("x", .float)],
    function .float "llSqrt" [("val", .float)] |>.documented "Returns the square root of val.",
    function .float "llPow" [("base", .float), ("exponent", .float)],
    function .integer "llAbs" [("val", .integer)]
      |>.documented "Returns the absolute value of val.",
    function .float "llFabs" [("val", .float)],
    function .float "llFrand" [("mag", .float)]
      |>.documented "Returns a pseudo random number in the range [0, mag).",
    function .integer "llFloor" [("val", .float)],
    function .integer "llCeil" [("val", .float)],
    function .integer "llRound" [("val", .float)],
    function .float "llVecMag" [("v", .vector)],
    function .vector "llVecNorm" [("v", .vector)],
    function .float "llVecDist" [("v1", .vector), ("v2", .vector)],
    function .vector "llRot2Euler" [("quat", .rotation)],
    function .rotation "llEuler2Rot" [("v", .vector)],
    function .rotation "llAxisAngle2Rot" [("axis", .vector), ("angle", .float)]
  ]

def chat : List Entry := [
    function .void "llSay" [("channel", .integer), ("msg", .string)]
      |>.documented "Says msg on channel.",
    function .void "llShout" [("channel", .integer), ("msg", .string)],
    function .void "llWhisper" [("channel", .integer), ("msg", .string)],
    function .void "llOwnerSay" [("msg", .string)] |>.documented "Says msg to the owner only.",
    function .void "llRegionSay" [("channel", .integer), ("msg", .string)],
    function .integer "llListen" [("channel", .integer), ("name", .string), ("id", .key),
      ("msg", .string)],
    function .void "llListenRemove" [("number", .integer)]
  ]

def timing : List Entry := [
    function .void "llSetTimerEvent" [("sec", .float)]
      |>.documented "Raises a timer event every sec seconds. Zero stops the timer.",
    function .void "llSleep" [("sec", .float)],
    function .float "llGetTime" [],
    function .void "llResetTime" [],
    function .float "llGetAndResetTime" [],
    function .integer "llGetUnixTime" [],
    function .string "llGetTimestamp" []
  ]

def objects : List Entry := [
    function .key "llGetOwner" [] |>.documented "Returns the key of the object owner.",
    function .key "llGetKey" [],
    function .string "llGetObjectName" [],
    function .void "llSetObjectName" [("name", .string)],
    function .string "llKey2Name" [("id", .key)],
    function .key "llDetectedKey" [("number", .integer)],
    function .string "llDetectedName" [("number", .integer)],
    function .vector "llDetectedPos" [("number", .integer)],
    function .integer "llDetectedType" [("number", .integer)],
    function .vector "llGetPos" [],
    function .void "llSetPos" [("pos", .vector)],
    function .rotation "llGetRot" [],
    function .void "llSetRot" [("rot", .rotation)],
    function .void "llSetText" [("text", .string), ("color", .vector), ("alpha", .float)],
    function .void "llSetColor" [("color", .vector), ("face", .integer)],
    function .void "llSetAlpha" [("alpha", .float), ("face", .integer)]
  ]

def texts : List Entry := [
    function .integer "llStringLength" [("str", .string)]
      |>.documented "Returns the number of characters in str.",
    function .string "llGetSubString" [("src", .string), ("start", .integer), ("end", .integer)],
    function .string "llDeleteSubString" [("src", .string), ("start", .integer), ("end", .integer)],
    function .string "llInsertString" [("dst", .string), ("position", .integer), ("src", .string)],
    function .integer "llSubStringIndex" [("source", .string), ("pattern", .string)],
    function .string "llToUpper" [("src", .string)],
    function .string "llToLower" [("src", .string)],
    function .string "llStringTrim" [("src", .string), ("trim_type", .integer)]
  ]

def lists : List Entry := [
    function .string "llDumpList2String" [("src", .list), ("separator", .string)],
    function .list "llParseString2List" [("src", .string), ("separators", .list),
      ("spacers", .list)],
    function .list "llCSV2List" [("src", .string)],
    function .string "llList2CSV" [("src", .list)],
    function .integer "llGetListLength" [("src", .list)]
      |>.documented "Returns the number of elements in src.",
    function .integer "llList2Integer" [("src", .list), ("index", .integer)],
    function .float "llList2Float" [("src", .list), ("index", .integer)],
    function .string "llList2String" [("src", .list), ("index", .integer)],
    function .key "llList2Key" [("src", .list), ("index", .integer)],
    function .vector "llList2Vector" [("src", .list), ("index", .integer)],
    function .rotation "llList2Rot" [("src", .list), ("index", .integer)],
    function .list "llList2List" [("src", .list), ("start", .integer), ("end", .integer)],
    function .integer "llGetListEntryType" [("src", .list), ("index", .integer)],
    function .list "llListSort" [("src", .list), ("stride", .integer), ("ascending", .integer)],
    function .list "llDeleteSubList" [("src", .list), ("start", .integer), ("end", .integer)],
    function .list "llListInsertList" [("dest", .list), ("src", .list), ("start", .integer)],
    function .list "llListReplaceList" [("dest", .list), ("src", .list), ("start", .integer),
      ("end", .integer)],
    function .integer "llListFindList" [("src", .list), ("test", .list)]
  ]

def digests : List Entry := [
    function .string "llMD5String" [("src", .string), ("nonce", .integer)],
    function .string "llSHA1String" [("src", .string)],
    function .string "llIntegerToBase64" [("number", .integer)],
    function .integer "llBase64ToInteger" [("str", .string)],
    function .string "llStringToBase64" [("str", .string)],
    function .string "llBase64ToString" [("str", .string)]
  ]

def communication : List Entry := [
    function .void "llMessageLinked" [("linknum", .integer), ("num", .integer),
      ("str", .string), ("id", .key)],
    function .integer "llGetLinkNumber" [],
    function .void "llSetLinkPrimitiveParams" [("linknumber", .integer), ("rules", .list)],
    function .void "llSetPrimitiveParams" [("rules", .list)] |>.flagged "Deprecated",
    function .list "llGetPrimitiveParams" [("params", .list)],
    function .key "llHTTPRequest" [("url", .string), ("parameters", .list), ("body", .string)],
    function .key "llRequestAgentData" [("id", .key), ("data", .integer)],
    function .key "llGetNotecardLine" [("name", .string), ("line", .integer)],
    function .integer "llGetInventoryNumber" [("type", .integer)],
    function .string "llGetInventoryName" [("type", .integer), ("number", .integer)],
    function .void "llRequestPermissions" [("agent", .key), ("perm", .integer)],
    function .integer "llGetPermissions" [],
    function .void "llDialog" [("avatar", .key), ("message", .string), ("buttons", .list),
      ("chat_channel", .integer)],
    function .void "llInstantMessage" [("user", .key), ("message", .string)]
  ]

def scripts : List Entry := [
    function .void "llResetScript" [],
    function .void "llDie" [],
    function .integer "llGetFreeMemory" [],
    function .string "llGetScriptName" [],
    function .void "llSetScriptState" [("name", .string), ("run", .integer)],
    function .key "llGenerateKey" []
  ]

def physics : List Entry := [
    function .void "llTriggerSound" [("sound", .string), ("volume", .float)],
    function .void "llPlaySound" [("sound", .string), ("volume", .float)],
    function .void "llStopSound" [],
    function .void "llApplyImpulse" [("force", .vector), ("local", .integer)],
    function .void "llSetStatus" [("status", .integer), ("value", .integer)],
    function .integer "llGetStatus" [("status", .integer)],
    function .void "llSensor" [("name", .string), ("id", .key), ("type", .integer),
      ("range", .float), ("arc", .float)],
    function .void "llSensorRepeat" [("name", .string), ("id", .key), ("type", .integer),
      ("range", .float), ("arc", .float), ("rate", .float)],
    function .void "llSensorRemove" [],
    function .void "llSound" [("sound", .string), ("volume", .float), ("queue", .integer),
      ("loop", .integer)]
      |>.documented "Superseded by llPlaySound."
      |>.flagged "Deprecated"
  ]

def events : List Entry := [
    event "state_entry" [] |>.documented "Raised when a state is entered.",
    event "state_exit" [],
    event "on_rez" [("start_param", .integer)],
    event "attach" [("id", .key)],
    event "changed" [("change", .integer)],
    event "timer" [] |>.documented "Raised at the interval set by llSetTimerEvent.",
    event "touch_start" [("num_detected", .integer)],
    event "touch" [("num_detected", .integer)],
    event "touch_end" [("num_detected", .integer)],
    event "collision_start" [("num_detected", .integer)],
    event "collision" [("num_detected", .integer)],
    event "collision_end" [("num_detected", .integer)],
    event "listen" [("channel", .integer), ("name", .string), ("id", .key), ("message", .string)],
    event "sensor" [("num_detected", .integer)],
    event "no_sensor" [],
    event "link_message" [("sender_num", .integer), ("num", .integer), ("str", .string),
      ("id", .key)],
    event "dataserver" [("queryid", .key), ("data", .string)],
    event "http_response" [("request_id", .key), ("status", .integer), ("metadata", .list),
      ("body", .string)],
    event "http_request" [("id", .key), ("method", .string), ("body", .string)],
    event "run_time_permissions" [("perm", .integer)],
    event "money" [("id", .key), ("amount", .integer)],
    event "email" [("time", .string), ("address", .string), ("subj", .string),
      ("message", .string), ("num_left", .integer)],
    event "at_target" [("tnum", .integer), ("targetpos", .vector), ("ourpos", .vector)],
    event "not_at_target" [],
    event "at_rot_target" [("tnum", .integer), ("targetrot", .rotation), ("ourrot", .rotation)],
    event "not_at_rot_target" [],
    event "object_rez" [("id", .key)],
    event "control" [("id", .key), ("level", .integer), ("edge", .integer)],
    event "land_collision_start" [("pos", .vector)],
    event "land_collision" [("pos", .vector)],
    event "land_collision_end" [("pos", .vector)],
    event "moving_start" [],
    event "moving_end" [],
    event "remote_data" [("event_type", .integer), ("channel", .key), ("message_id", .key),
      ("sender", .string), ("idata", .integer), ("sdata", .string)],
    event "path_update" [("type", .integer), ("reserved", .list)],
    event "transaction_result" [("id", .key), ("success", .integer), ("data", .string)]
  ]

def values : List Entry := [
    constant .integer "TRUE" "1",
    constant .integer "FALSE" "0",
    constant .float "PI" "3.14159265",
    constant .float "TWO_PI" "6.28318530",
    constant .float "PI_BY_TWO" "1.57079633",
    constant .float "DEG_TO_RAD" "0.01745329238",
    constant .float "RAD_TO_DEG" "57.29578",
    constant .float "SQRT2" "1.41421356",
    constant .vector "ZERO_VECTOR" "0.0, 0.0, 0.0" |>.flagged "Expand",
    constant .rotation "ZERO_ROTATION" "0.0, 0.0, 0.0, 1.0" |>.flagged "Expand",
    constant .key "NULL_KEY" "00000000-0000-0000-0000-000000000000" |>.flagged "Expand",
    constant .string "EOF" "\\n\\n\\n" |>.flagged "Expand",
    constant .string "TEXTURE_BLANK" "5748decc-f629-461c-9a36-a35a221fe21f"
  ]

def channels : List Entry := [
    constant .integer "PUBLIC_CHANNEL" "0",
    constant .integer "DEBUG_CHANNEL" "2147483647",
    constant .integer "ALL_SIDES" "-1",
    constant .integer "LINK_ROOT" "1",
    constant .integer "LINK_SET" "-1",
    constant .integer "LINK_ALL_OTHERS" "-2",
    constant .integer "LINK_ALL_CHILDREN" "-3",
    constant .integer "LINK_THIS" "-4"
  ]

def markers : List Entry := [
    constant .integer "AGENT" "1",
    constant .integer "ACTIVE" "2",
    constant .integer "PASSIVE" "4",
    constant .integer "SCRIPTED" "8",
    constant .integer "CHANGED_INVENTORY" "1",
    constant .integer "CHANGED_COLOR" "2",
    constant .integer "CHANGED_SHAPE" "4",
    constant .integer "CHANGED_OWNER" "128",
    constant .integer "CHANGED_REGION" "256",
    constant .integer "PERMISSION_DEBIT" "2",
    constant .integer "PERMISSION_TAKE_CONTROLS" "4",
    constant .integer "PERMISSION_TRIGGER_ANIMATION" "16",
    constant .integer "PERMISSION_ATTACH" "32",
    constant .integer "INVENTORY_ALL" "-1",
    constant .integer "INVENTORY_TEXTURE" "0",
    constant .integer "INVENTORY_SOUND" "1",
    constant .integer "INVENTORY_OBJECT" "6",
    constant .integer "INVENTORY_SCRIPT" "10",
    constant .integer "INVENTORY_NOTECARD" "7"
  ]

def settings : List Entry := [
    constant .integer "TYPE_INTEGER" "1",
    constant .integer "TYPE_FLOAT" "2",
    constant .integer "TYPE_STRING" "3",
    constant .integer "TYPE_KEY" "4",
    constant .integer "TYPE_VECTOR" "5",
    constant .integer "TYPE_ROTATION" "6",
    constant .integer "TYPE_INVALID" "0",
    constant .integer "STATUS_PHYSICS" "1",
    constant .integer "STATUS_PHANTOM" "16",
    constant .integer "PRIM_COLOR" "18",
    constant .integer "PRIM_TEXT" "26",
    constant .integer "PRIM_SIZE" "7",
    constant .integer "PRIM_POSITION" "6",
    constant .integer "STRING_TRIM_HEAD" "1",
    constant .integer "STRING_TRIM_TAIL" "2",
    constant .integer "STRING_TRIM" "3",
    constant .integer "HTTP_METHOD" "0",
    constant .integer "HTTP_MIMETYPE" "1",
    constant .integer "DATA_ONLINE" "1",
    constant .integer "DATA_NAME" "2"
  ]

def entries : List Entry :=
  mathematics ++ chat ++ timing ++ objects ++ texts ++ lists ++ digests ++
    communication ++ scripts ++ physics ++ events ++ values ++ channels ++ markers ++ settings

end Lsl.Bundled

namespace Lsl.Library

/-- The bundled library with these active subsets. -/
def bundled (subsets : List String) : Except Failure Library := do
  Bundled.entries.foldlM addEntry (← ofSubsets subsets)

end Lsl.Library
