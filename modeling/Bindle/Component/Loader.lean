import Bindle.Component.Basic
import Bindle.Json.Reader
import Bindle.Rule
import Bindle.Script.Program

/-!
# The loaders that come along

* `banner`      puts a comment line in front;
* `footer`      puts a comment line behind;
* `json`        makes a module that exports a JSON document, which stays as written;
* `strip-bom`   takes a byte order mark off the front.
-/

namespace Bindle

namespace Loader

/-! ## options -/

/-- the text of a comment when no other is given -/
def defaultText : String := "kiln"

def textOfItem : Json → Except Json.Problem String
  | .string s => .ok s
  | v => .error (.wrongType v.shownKind "a string")

/-- fields in turn; the last text counts -/
def textOfFields (found : String) : List (String × Json) → Except Json.Problem String
  | [] => .ok found
  | (name, v) :: rest => do
    if name ≠ "text" then throw (.unknownField name ["text"])
    textOfFields (← textOfItem v) rest

/-- null, or an object whose only field is `text`, or an array of what would stand in it -/
def commentText : Json → Except Json.Problem String
  | .null => .ok defaultText
  | .object fields => textOfFields defaultText fields
  | .array [] => .ok defaultText
  | .array (v :: rest) => do
    let text ← textOfItem v
    if rest ≠ [] then throw (.wrongLength (rest.length + 1) "fewer elements in array")
    return text
  | v => .error (.wrongType v.shownKind "struct TextOptions")

/-! ## transforms -/

def withBanner (text source : String) : String := "// " ++ text ++ "\n" ++ source

def withFooter (text source : String) : String := source ++ "\n// " ++ text

/-- a text without byte order marks at its start, and then without white space at its ends -/
def trimmed (cs : List Char) : List Char :=
  let start := (cs.dropWhile (· = Script.byteOrderMark)).dropWhile Text.isSpace
  (start.reverse.dropWhile Text.isSpace).reverse

/-- the document is checked, not decoded -/
def exported (source : String) : Except String String :=
  let document := trimmed source.toList
  match Json.skim document with
  | .ok () => .ok ("module.exports = " ++ String.ofList document ++ ";")
  | .error e => .error ("invalid JSON: " ++ e.text)

def withoutMark (source : String) : String :=
  match source.toList with
  | c :: cs => if c = Script.byteOrderMark then String.ofList cs else source
  | [] => source

/-! ## factories -/

def metadata (name description : String) : Metadata := ⟨name, version, .loader, some description⟩

/-- a loader whose only option is the text of a comment -/
def commenting (name description : String) (change : String → String → String) :
    Factory Transform where
  metadata := metadata name description
  validate := fun _ => .ok ()
  create := fun options =>
    match commentText options with
    | .ok text => .ok ⟨name, fun source => .ok (change text source)⟩
    | .error problem => .error problem.text

def banner : Factory Transform := commenting "banner" "Prepend a comment line" withBanner

def footer : Factory Transform := commenting "footer" "Append a comment line" withFooter

def json : Factory Transform := .plain (metadata "json" "Export a JSON document") ⟨"json", exported⟩

def stripMark : Factory Transform :=
  .plain (metadata "strip-bom" "Remove a leading byte order mark")
    ⟨"strip-bom", fun source => .ok (withoutMark source)⟩

def builtins : Registry Transform := Registry.ofList [banner, footer, json, stripMark]

end Loader

end Bindle
