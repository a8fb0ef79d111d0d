import SceneScript.Typing
import SceneScript.Token.Lexer

/-!
# Hover — what an editor shows about the word under the cursor

The word is found in the text alone; the result of checking supplies names and types. A word
after a dot is a field. Any other is, in this order, a built-in function, a callback, a type, a
global, a function, a signal, or the variable of that name declared last before the cursor.
-/

namespace SceneScript

/-- A word and the offset at which it begins. -/
structure WordAt where
  word  : Text
  start : Nat
deriving DecidableEq, Repr

/-- The word that a cursor touches, if it is a name. -/
def wordAt? (source : Text) (offset : Int) : Option WordAt :=
  if offset < 0 ∨ (source.length : Int) < offset then none
  else
    let before := (source.units.take offset.toNat).reverse.takeWhile isNamePart
    let after := (source.units.drop offset.toNat).takeWhile isNamePart
    let word := before.reverse ++ after
    if word.head?.any isNameStart then some ⟨⟨word⟩, offset.toNat - before.length⟩ else none

/-- A piece of code in a description. -/
def codeBlock (code : String) : String := "```glint\n" ++ code ++ "\n```"

/-- The parts of a description. -/
def description (parts : List String) : String := "\n\n".intercalate parts

/-- Text marked as code. -/
def inlineCode (s : String) : String := "`" ++ s ++ "`"

/-- The types whose fields can follow a dot, in the order in which they are shown. -/
def fieldOwners : List Ty := [.node, .inputEvent, .vector2, .color, .rect2, .transform2D]

/-- The description of a field: its type on the first owner, and all owners. -/
def fieldHover (field : Text) : Option String :=
  let owners := fieldOwners.filter fun t => (t.fieldNamed? field).isSome
  match owners with
  | []         => none
  | first :: _ =>
      (first.fieldNamed? field).map fun type =>
        description
          [codeBlock s!"{field}: {type}",
           "**On:** " ++ ", ".intercalate (owners.map fun t => inlineCode t.word)]

/-- The description of a type. -/
def typeHover (t : Ty) : String :=
  let head := codeBlock s!"type {t}"
  if t.fields.isEmpty then head
  else
    let kind := if t.isStruct then "Fields" else "Host fields"
    let listed := ", ".intercalate (t.fields.map fun e => inlineCode s!"{e.1.word}: {e.2}")
    description [head, s!"**{kind}:** {listed}"]

/-- `let` or `let mut`. -/
def letWord (mutable : Bool) : String := if mutable then "let mut" else "let"

/-- What is said about an exported property. -/
def propertyText (p : Property) : String :=
  let exported := "**Exported** · default " ++ inlineCode p.defaultValue.format.toString
  if p.hint = .none then exported
  else exported ++ " · hint " ++ inlineCode s!"{p.hint.kind.word}({p.hint.text})"

/-- A global as a declaration without its value. -/
def GlobalInfo.text (g : GlobalInfo) : String :=
  s!"{letWord g.decl.mutable} {g.name}: {g.type}"

/-- The description of a global. -/
def globalHover (g : GlobalInfo) (property : Option Property) : String :=
  description (codeBlock g.text :: property.toList.map propertyText)

/-- The description of a function. -/
def functionHover (f : FunctionInfo) : String :=
  let returns := if f.signature.returns = .void then "" else s!" -> {f.signature.returns}"
  codeBlock s!"fn {f.name}({TypedName.listText f.signature.params}){returns}"

/-- A signal as its declaration. -/
def Signal.text (s : Signal) : String := s!"signal {s.name}({TypedName.listText s.params})"

/-- The last declared of two variables, the first of two at one place. -/
def laterVariable (best : Option Variable) (v : Variable) : Option Variable :=
  match best with
  | none   => some v
  | some b => if b.id.span.start.offset < v.id.span.start.offset then some v else some b

/-- The local variable or parameter of a name that is declared last before a cursor. -/
def nearestLocal? (declared : List Variable) (name : Text) (offset : Int) : Option Variable :=
  (declared.filter fun v =>
    v.kind ≠ .global ∧ v.id.name = name ∧ (v.id.span.start.offset : Int) ≤ offset).foldl
    laterVariable none

/-- The description of a local variable or a parameter. -/
def localHover (v : Variable) : String :=
  let head := if v.kind = .param then "(parameter)" else letWord v.mutable
  codeBlock s!"{head} {v.id.name}: {v.type}"

/-- The description of a name that the script declares. -/
def declaredHover (c : Checked) (word : Text) (offset : Int) : Option String :=
  match c.globals.find? fun g => g.name == word with
  | some g => some (globalHover g (c.properties.find? fun p => p.name == word))
  | none   =>
    match c.functions.find? fun f => f.name == word with
    | some f => some (functionHover f)
    | none   =>
      match c.signals.find? fun s => s.name == word with
      | some s => some (codeBlock s.text)
      | none   =>
          (nearestLocal? (c.symbols.map SymbolInfo.declared) word offset).map localHover

/-- The description of a built-in function. -/
def builtinHover (b : Builtin) : String := description [codeBlock b.signatureText, b.doc]

/-- The description of a callback. -/
def lifecycleHover (k : Lifecycle) : String :=
  description [codeBlock k.signatureText, k.doc, "**Lifecycle:** " ++ inlineCode k.word]

/-- Whether the word that begins at an offset follows a dot. -/
def followsDot (source : Text) (start : Nat) : Bool :=
  match start with
  | 0     => false
  | i + 1 => source.units[i]? == some (unitOf '.')

/-- The description of a word of a script, as seen from a cursor. -/
def wordHover (source : Text) (w : WordAt) (offset : Int) (checked : Option Checked) :
    Option String :=
  if followsDot source w.start then fieldHover w.word
  else
    match Builtin.ofText? w.word, Lifecycle.ofFunction? w.word, Ty.ofText? w.word with
    | some b, _, _ => some (builtinHover b)
    | _, some k, _ => some (lifecycleHover k)
    | _, _, some t =>
        if t = .unknown then checked.bind fun c => declaredHover c w.word offset
        else some (typeHover t)
    | _, _, _ => checked.bind fun c => declaredHover c w.word offset

/-- The description of the word under a cursor. -/
def hover (source : Text) (offset : Int) (checked : Option Checked) : Option String :=
  (wordAt? source offset).bind fun w => wordHover source w offset checked

end SceneScript
