import SceneScript.Editor.Hover
import SceneScript.Text.Blank

/-!
# Completion — what an editor proposes at the cursor

The text before the cursor decides: after a dot fields are proposed, in an export mark hints,
in the name of an emission signals, and everywhere else keywords, types, functions and the
names that the script declares. The context is read backwards from the cursor.
-/

namespace SceneScript

/-- What is proposed. -/
inductive CompletionKind where
  | keyword | variable | function | type | property | event
deriving DecidableEq, Repr

/-- The word for a kind of proposal. -/
def CompletionKind.word : CompletionKind → String
  | .keyword  => "keyword"
  | .variable => "variable"
  | .function => "function"
  | .type     => "type"
  | .property => "property"
  | .event    => "event"

/-- A proposal. -/
structure CompletionItem where
  label         : String
  kind          : CompletionKind
  detail        : Option String := none
  documentation : Option String := none
  insertText    : Option String := none
  sortText      : Option String := none
deriving DecidableEq, Repr

/-- Where a cursor stands. -/
inductive CompletionContext where
  | member (receiver : Text)
  | exportHint
  | signalName
  | general
deriving DecidableEq, Repr

namespace CompletionContext

/-- What remains of reversed units before a word, which is given forwards. -/
def before? (word : String) (reversed : List UInt16) : Option (List UInt16) :=
  let us := (Text.ofString word).units.reverse
  if us.isPrefixOf reversed then some (reversed.drop us.length) else none

/-- What remains of reversed units before a mark and the blanks around it. -/
def beforeMark? (mark : String) (reversed : List UInt16) : Option (List UInt16) :=
  (before? mark (reversed.dropWhile isBlank)).map (·.dropWhile isBlank)

/-- Whether a cursor stands at the first word inside `@export(`. -/
def inExport (reversed : List UInt16) : Bool :=
  ((beforeMark? "(" (reversed.dropWhile isNameStart)).bind (before? "@export")).isSome

/-- Whether a cursor stands inside the first string of `emit_signal("`. -/
def inEmission (reversed : List UInt16) : Bool :=
  match ((before? "\"" (reversed.dropWhile isNamePart)).bind (beforeMark? "(")).bind
      (before? "emit_signal") with
  | some rest => !(rest.head?.any isNamePart)
  | none      => false

/-- The name before a dot that a cursor stands behind. -/
def receiver? (reversed : List UInt16) : Option Text := do
  let rest ← beforeMark? "." (reversed.dropWhile isNameStart)
  let name := (rest.takeWhile isNamePart).reverse.dropWhile isDigitUnit
  if name.isEmpty then none else some ⟨name⟩

/-- The context at the end of a text. -/
def ofText (left : Text) : CompletionContext :=
  let reversed := left.units.reverse
  if inExport reversed then .exportHint
  else if inEmission reversed then .signalName
  else
    match receiver? reversed with
    | some name => .member name
    | none      => .general

end CompletionContext

/-- Keywords. -/
def keywordItems : List CompletionItem :=
  Keyword.all.map fun k =>
    { label := k.word, kind := .keyword, sortText := some s!"3_{k.word}" }

/-- Types that a script may write. -/
def typeItems : List CompletionItem :=
  Ty.writable.map fun t => { label := t.word, kind := .type, sortText := some s!"2_{t.word}" }

/-- Built-in functions. -/
def builtinItems : List CompletionItem :=
  Builtin.all.map fun b =>
    { label := b.word, kind := .function, detail := some b.signatureText,
      documentation := some b.doc, sortText := some s!"1_{b.word}" }

/-- Callbacks, to be inserted with an empty body. -/
def lifecycleItems : List CompletionItem :=
  Lifecycle.all.map fun k =>
    { label := k.functionName, kind := .function, detail := some k.signatureText,
      documentation := some k.doc,
      insertText := some (k.signatureText ++ " \x7b\n    \n\x7d"),
      sortText := some s!"4_{k.functionName}" }

/-- Globals of a script. -/
def globalItem (g : GlobalInfo) : CompletionItem :=
  { label := g.name.toString, kind := .variable, detail := some g.text,
    sortText := some s!"0_{g.name}" }

/-- Functions of a script. -/
def functionItem (f : FunctionInfo) : CompletionItem :=
  let params := TypedName.listText f.signature.params
  { label := f.name.toString, kind := .function,
    detail := some s!"fn {f.name}({params}) -> {f.signature.returns}",
    sortText := some s!"0_{f.name}" }

/-- The names that a script declares; callbacks are proposed anyway. -/
def declaredItems (c : Checked) : List CompletionItem :=
  c.globals.map globalItem ++
    (c.functions.filter fun f => f.lifecycle?.isNone).map functionItem

/-- The fields of a type. -/
def fieldItems (owner : Ty) : List CompletionItem :=
  owner.fields.map fun e =>
    { label := e.1.word, kind := .property, detail := some s!"{owner}.{e.1.word}: {e.2}" }

/-- Proposals, the first of each label. -/
def distinctItems (items : List CompletionItem) : List CompletionItem :=
  distinctBy CompletionItem.label [] items

/-- The fields that may follow a receiver; only `self` is known to be a node. -/
def memberItems (receiver : Text) : List CompletionItem :=
  if receiver = "self" then fieldItems .node
  else distinctItems (fieldOwners.flatMap fieldItems)

/-- The hints of an export, with places to fill in. -/
def hintItems : List CompletionItem :=
  [{ label := "range", kind := .function, detail := some "range(min, max[, step])",
     insertText := some "range($\x7b1:0\x7d, $\x7b2:100\x7d)" },
   { label := "enum", kind := .function, detail := some "enum(\"a\", \"b\", ...)",
     insertText := some "enum(\"$\x7b1:a\x7d\", \"$\x7b2:b\x7d\")" },
   { label := "file", kind := .function, detail := some "file(\"*.ext\")",
     insertText := some "file(\"$\x7b1:*.png\x7d\")" }]

/-- The signals of a script. -/
def signalItems (c : Checked) : List CompletionItem :=
  c.signals.map fun s => { label := s.name.toString, kind := .event, detail := some s.text }

/-- The proposals at an offset, at most a given number; a negative offset counts from the
    end. -/
def completions (source : Text) (offset : Int) (checked : Option Checked) (limit : Int) :
    List CompletionItem :=
  let declared {α : Type} (f : Checked → List α) : List α := (checked.map f).getD []
  let items :=
    match CompletionContext.ofText ⟨takeUpTo offset source.units⟩ with
    | .member receiver => memberItems receiver
    | .exportHint      => hintItems
    | .signalName      => declared signalItems
    | .general         =>
        distinctItems (keywordItems ++ typeItems ++ builtinItems ++ lifecycleItems ++
          declared declaredItems)
  items.take limit.toNat

end SceneScript
