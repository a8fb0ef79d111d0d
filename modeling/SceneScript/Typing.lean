import SceneScript.Typing.Body
import SceneScript.Typing.Export

/-!
# Typing — checking a whole script

`checkProgram` works in three passes: the signatures of signals and functions, so that calls
may refer to later declarations; the globals in order, each of which sees only the earlier
ones; and the bodies of the functions. Its result holds the tables that running and editing a
script need, and the list of findings, of which the diagnostics are a view.

Of several functions with one name the first counts, and none that has the name of a built-in
function; the bodies of the others are checked all the same.
-/

namespace SceneScript

/-- A function that can be called, with the types of its variables. -/
structure FunctionInfo where
  signature : Signature
  decl      : FunctionDecl Ty

namespace FunctionInfo

/-- The name of a function. -/
def name (f : FunctionInfo) : Text := f.signature.name

/-- The callback that calls a function. -/
def lifecycle? (f : FunctionInfo) : Option Lifecycle := Lifecycle.ofFunction? f.name

end FunctionInfo

/-- A global that exists, with its type and the property that it is. -/
structure GlobalInfo where
  decl     : GlobalDecl
  type     : Ty
  property : Option Property

namespace GlobalInfo

/-- The name of a global. -/
def name (g : GlobalInfo) : Text := g.decl.name.name

/-- The variable of a global. -/
def declared (g : GlobalInfo) : Variable := ⟨g.decl.name, .global, g.type, g.decl.mutable⟩

end GlobalInfo

/-- What checking a script gives. -/
structure Checked where
  functions : List FunctionInfo
  globals   : List GlobalInfo
  signals   : List Signal
  findings  : List Finding

namespace Checked

/-- What is wrong with the script, in the order in which it was found. -/
def diagnostics (c : Checked) : List Diagnostic := findingDiagnostics c.findings

/-- The variables with their uses. -/
def symbols (c : Checked) : List SymbolInfo := findingSymbols c.findings

/-- The types of all bindings. -/
def bindings (c : Checked) : List Binding := findingBindings c.findings

/-- The exported properties in declaration order. -/
def properties (c : Checked) : List Property := c.globals.filterMap GlobalInfo.property

/-- The callbacks that the script handles, with the names of their functions. -/
def lifecycle (c : Checked) : List (Lifecycle × Text) :=
  c.functions.filterMap fun f => f.lifecycle?.map fun k => (k, f.name)

end Checked

/-! ## Signatures -/

/-- The parameters of a signal; a repeated name is reported and kept. -/
def signalParams (signal : Text) : List Text → List Param → Check (List TypedName)
  | _, []         => return []
  | seen, p :: ps => do
      Check.reportIf (decide (p.name.name ∈ seen)) p.name.span
        (.duplicateSignalParam p.name.name signal)
      let type ← resolveType p.declared false
      let rest ← signalParams signal (p.name.name :: seen) ps
      return ⟨p.name.name, type⟩ :: rest

/-- The declared signals, the first of each name. -/
def collectSignals : List Text → List SignalDecl → Check (List Signal)
  | _, []         => return []
  | seen, d :: ds => do
      if d.name.name ∈ seen then
        Check.report d.name.span (.duplicateSignal d.name.name)
        collectSignals seen ds
      else
        let params ← signalParams d.name.name [] d.params
        let rest ← collectSignals (d.name.name :: seen) ds
        return ⟨d.name.name, params⟩ :: rest

/-- The types of parameters. -/
def paramTypes : List Param → Check (List TypedName)
  | []      => return []
  | p :: ps => do
      let type ← resolveType p.declared false
      let rest ← paramTypes ps
      return ⟨p.name.name, type⟩ :: rest

/-- The signature of a function, its types reported. -/
def signatureOf (f : FunctionDecl Unit) : Check Signature := do
  let params ← paramTypes f.params
  let returns ← match f.returns with
    | some ref => resolveType ref true
    | none     => pure .void
  return ⟨f.name.name, params, returns⟩

/-- The signature of a function, without reporting. -/
def plainSignature (f : FunctionDecl Unit) : Signature :=
  ⟨f.name.name, f.params.map fun p => ⟨p.name.name, writtenType p.declared⟩,
   (f.returns.map writtenType).getD .void⟩

/-- Whether a signature is the one that a callback needs; unknown types fit. -/
def fitsLifecycle (signature : Signature) (k : Lifecycle) : Bool :=
  signature.params.length == k.params.length &&
    ((signature.params.zip k.params).all fun e => e.1.type == .unknown || e.1.type == e.2.type) &&
    (signature.returns == .void || signature.returns == .unknown)

/-- Each function with its signature, `none` for one that cannot be called because its name is
    taken. -/
def collectFunctions : List Text → List (FunctionDecl Unit) →
    Check (List (FunctionDecl Unit × Option Signature))
  | _, []         => return []
  | seen, f :: fs => do
      if (Builtin.ofText? f.name.name).isSome then
        Check.report f.name.span (.builtinRedefined f.name.name)
        return (f, none) :: (← collectFunctions seen fs)
      if f.name.name ∈ seen then
        Check.report f.name.span (.duplicateFunction f.name.name)
        return (f, none) :: (← collectFunctions seen fs)
      let signature ← signatureOf f
      match Lifecycle.ofFunction? f.name.name with
      | some k =>
          Check.reportIf (!fitsLifecycle signature k) f.name.span (.lifecycleSignature k)
      | none => pure ()
      return (f, some signature) :: (← collectFunctions (f.name.name :: seen) fs)

/-! ## Globals and bodies -/

/-- Checks the globals in order, given those before them. -/
def checkGlobals (functions : List Signature) (signals : List Signal) :
    List GlobalInfo → List GlobalDecl → Check (List GlobalInfo)
  | before, []      => return before
  | before, g :: gs => do
      let scope : Scope := [before.map GlobalInfo.declared]
      let type ← bindingType ⟨functions, signals, true, scope⟩ g.declared g.init g.name.name
      Check.note (.bound ⟨.globalDeclaration, g.name.name, g.span, type⟩)
      if (scope.find? g.name.name).isSome then
        Check.report g.name.span (.duplicateGlobal g.name.name)
        checkGlobals functions signals before gs
      else
        Check.note (.declared ⟨g.name, .global, type, g.mutable⟩)
        let property ← match g.exported with
          | some mark => checkExport mark g type
          | none      => pure none
        checkGlobals functions signals (before ++ [⟨g, type, property⟩]) gs

/-- Checks the bodies of all functions and keeps those that can be called. -/
def checkBodies (s : Surroundings) :
    List (FunctionDecl Unit × Option Signature) → Check (List FunctionInfo)
  | []                     => return []
  | (f, signature) :: rest => do
      let decl ← checkBody s (signature.getD (plainSignature f)) f
      let infos ← checkBodies s rest
      match signature with
      | some sig => return ⟨sig, decl⟩ :: infos
      | none     => return infos

/-- Checks a script. -/
def checkProgram (p : Program Unit) : Checked :=
  let run : Check (List FunctionInfo × List GlobalInfo × List Signal) := do
    let signals ← collectSignals [] p.signals
    let collected ← collectFunctions [] p.functions
    let signatures := collected.filterMap Prod.snd
    let globals ← checkGlobals signatures signals [] p.globals
    let functions ← checkBodies
      ⟨signatures, signals, false, [globals.map GlobalInfo.declared]⟩ collected
    return (functions, globals, signals)
  ⟨run.value.1, run.value.2.1, run.value.2.2, run.findings⟩

end SceneScript
