import SceneScript.Typing.Expr

/-!
# Exports — when a global becomes a property

An exported global has to be mutable, of an exportable type and initialized with a constant,
and its hint has to suit its type. `checkExport` reports every rule that is broken and gives
the property only when none is.
-/

namespace SceneScript

/-- The step of a range that gives none: one for integers, a thousandth for floats. -/
def defaultStep (type : Ty) : Binary64 :=
  if type = .i32 then .ofInt 1 else .ofRatio false 1 1000

/-- The numbers that constant arguments of a range are, up to the first that is none. -/
def rangeNumbers (type : Ty) : List Expr → Check (Option (List Binary64))
  | []          => return some []
  | arg :: rest =>
      match (constantAs? arg type).bind Value.number? with
      | some x => do return (← rangeNumbers type rest).map (x :: ·)
      | none   => do
          Check.report arg.span (.rangeArgument type)
          return none

/-- The hint of `range(min, max, step)`. -/
def rangeHint (h : HintCall) (type : Ty) : Check (Option Hint) := do
  if !type.isNumeric then
    Check.report h.span (.rangeHintType type)
    return none
  if h.args.length < 2 ∨ 3 < h.args.length then
    Check.report h.span (.rangeArity h.args.length)
    return none
  match ← rangeNumbers type h.args with
  | some (min :: max :: more) =>
      let step := more.head?.getD (defaultStep type)
      if max.lt min then
        Check.report h.span (.rangeReversed min max)
        return none
      if step.le .zero then
        Check.report ((h.args[2]?.map Expr.span).getD h.span) .rangeStep
        return none
      return some (.range min max step)
  | _ => return none

/-- The text of a string literal that can be listed: not empty and without a comma. -/
def listable? : Expr → Option Text
  | .string _ t => if t.isEmpty || t.contains ',' then none else some t
  | _           => none

/-- The texts of listable arguments, up to the first that is not. -/
def listedTexts (hint : Text) : List Expr → Check (Option (List Text))
  | []          => return some []
  | arg :: rest =>
      match listable? arg with
      | some t => do return (← listedTexts hint rest).map (t :: ·)
      | none   => do
          Check.report arg.span (.hintValue hint)
          return none

/-- The texts that a hint lists, at least one. -/
def hintTexts (h : HintCall) : Check (Option (List Text)) := do
  if h.args.isEmpty then
    Check.report h.span (.hintWithoutValues h.name.name)
    return none
  listedTexts h.name.name h.args

/-- The hint of an export, `none` after reporting why it does not suit the type. -/
def checkHint (h : HintCall) (type : Ty) : Check (Option Hint) := do
  if h.name.name = "range" then rangeHint h type
  else if h.name.name = "enum" then
    if type = .i32 ∨ type = .string then return (← hintTexts h).map Hint.options
    Check.report h.span (.optionsHintType type)
    return none
  else if h.name.name = "file" then
    if type = .string then return (← hintTexts h).map fun ts => .file (Text.join "," ts)
    Check.report h.span (.fileHintType type)
    return none
  else
    Check.report h.name.span (.unknownHint h.name.name)
    return none

/-- Whether a default value is a member of a list of options: one of the texts, or an index
    into them. -/
def isOption (values : List Text) : Value → Bool
  | .string t => values.contains t
  | .int n    => decide (0 ≤ n.toInt) && decide (n.toInt < values.length)
  | _         => false

/-- The property that an exported global is, `none` after reporting why it is none. -/
def checkExport (mark : ExportMark) (g : GlobalDecl) (type : Ty) : Check (Option Property) := do
  Check.reportIf (!g.mutable) g.name.span (.exportImmutable g.name.name)
  if type = .unknown then return none
  if !type.isExportable then
    Check.report g.name.span (.exportType type)
    return none
  let default := constantAs? g.init type
  Check.reportIf default.isNone g.init.span (.exportNotConstant g.name.name)
  let hint ← match mark.hint with
    | some h => checkHint h type
    | none   => pure (some .none)
  match hint, default with
  | some (.options values), some v =>
      if isOption values v then
        return if g.mutable then some ⟨g.name.name, type, .options values, v⟩ else none
      Check.report g.init.span (.defaultNotListed g.name.name type values)
      return none
  | some hint, some v => return if g.mutable then some ⟨g.name.name, type, hint, v⟩ else none
  | _, _ => return none

end SceneScript
