import PulseOps.Json.Text
import PulseOps.Texts.Characters

/-!
# Notification templates

`notification-templates/template.renderer.js`: placeholders, and what takes their place. Texts are
lists of characters. Variables are an object of a parsed text; its prototype is that of all
objects, with the properties that the language gives it and the texts that V8 prints for them.
How numbers are printed is a parameter.
-/

set_option autoImplicit false

namespace PulseOps.Templates

open ScriptText (blank)

abbrev Text := List Char

variable {ν : Type}

/-! ### Texts of values -/

section

variable (numberText : ν → Text)

mutual

/-- `String(value)`. It throws for an object with a `toString` of its own, as none is a function. -/
def stringOf : Json ν → Option Text
  | .null => some "null".toList
  | .bool true => some "true".toList
  | .bool false => some "false".toList
  | .num n => some (numberText n)
  | .str s => some s.toList
  | .arr items => (itemTexts items).map [','].intercalate
  | .obj members =>
    if (members.lookup "toString").isSome then none else some "[object Object]".toList

/-- The texts that `join` puts together. -/
def itemTexts : List (Json ν) → Option (List Text)
  | [] => some []
  | .null :: items => (itemTexts items).map ([] :: ·)
  | v :: items => do
    let text ← stringOf v
    let texts ← itemTexts items
    return text :: texts

end

end

/-- The functions of `Object.prototype` that have the name of their property. -/
def inheritedFunctions : List Text :=
  ["__defineGetter__".toList, "__defineSetter__".toList, "__lookupGetter__".toList,
    "__lookupSetter__".toList, "hasOwnProperty".toList, "isPrototypeOf".toList,
    "propertyIsEnumerable".toList, "toLocaleString".toList, "toString".toList, "valueOf".toList]

/-- A native function as text. -/
def nativeText (name : Text) : Text :=
  "function ".toList ++ name ++ "() ".toList ++ '{' :: " [native code] ".toList ++ ['}']

/-- The text of the property of that name that every object inherits, if there is one. -/
def inherited (name : Text) : Option Text :=
  if name = "constructor".toList then some (nativeText "Object".toList)
  else if name = "__proto__".toList then some "[object Object]".toList
  else if name ∈ inheritedFunctions then some (nativeText name)
  else none

/-! ### Placeholders -/

def nameStart (c : Char) : Bool := c.isAlpha || c = '_'

def namePart (c : Char) : Bool := c.isAlphanum || c = '_'

/-- The name of the placeholder that a text begins with, and what follows it. -/
def placeholderAt : Text → Option (Text × Text)
  | '{' :: '{' :: text =>
    let inner := text.dropWhile blank
    let name := inner.takeWhile namePart
    match (inner.dropWhile namePart).dropWhile blank with
    | '}' :: '}' :: rest => if name.head?.any nameStart then some (name, rest) else none
    | _ => none
  | _ => none

/-- A text in pieces: the placeholders that are found from the left, and other characters. -/
inductive Piece where
  | char (c : Char)
  | placeholder (name : Text)
  deriving DecidableEq

/-- The pieces of a text; it is counted down from its length. -/
def pieces : ℕ → Text → List Piece
  | 0, _ => []
  | _, [] => []
  | n + 1, c :: text =>
    match placeholderAt (c :: text) with
    | some (name, rest) => .placeholder name :: pieces n rest
    | none => .char c :: pieces n text

def Piece.name? : Piece → Option Text
  | .char _ => none
  | .placeholder name => some name

/-- The names of a text, as often as they are found. -/
def names (text : Text) : List Text := (pieces text.length text).filterMap Piece.name?

/-- `placeholders`: names in the order of a set. -/
def placeholders (text : Text) : List Text := (names text).eraseDups

/-! ### Rendering -/

section

variable (numberText : ν → Text) (vars : List (String × Json ν))

/-- What takes the place of a placeholder; `none` if `String` throws. -/
def replacement (name : Text) : Option Text :=
  match vars.lookup (String.ofList name) with
  | some .null => some []
  | some value => stringOf numberText value
  | none => some ((inherited name).getD [])

/-- Whether `variables[name]` is nullish. -/
def isMissing (name : Text) : Bool :=
  match vars.lookup (String.ofList name) with
  | some .null => true
  | some _ => false
  | none => (inherited name).isNone

def Piece.rendered : Piece → Option Text
  | .char c => some [c]
  | .placeholder name => replacement numberText vars name

structure Rendered where
  output : Text
  missing : List Text
  deriving DecidableEq

/-- `render`, which throws when a `String` does. -/
def render (text : Text) : Option Rendered := do
  let parts ← (pieces text.length text).mapM (Piece.rendered numberText vars)
  return ⟨parts.flatten, ((names text).filter (isMissing vars)).eraseDups⟩

/-- The subject and the body of a template. -/
structure Template where
  subject : Option Text
  body : Text

structure RenderedTemplate where
  subject : Option Text
  body : Text
  missingVariables : List Text

/-- `renderTemplate`. -/
def renderTemplate (template : Template) : Option RenderedTemplate := do
  let subject ← match template.subject with
    | none => some none
    | some text => (render numberText vars text).map some
  let body ← render numberText vars template.body
  return ⟨subject.map (·.output), body.output,
    ((subject.map (·.missing)).getD [] ++ body.missing).eraseDups⟩

end

end PulseOps.Templates
