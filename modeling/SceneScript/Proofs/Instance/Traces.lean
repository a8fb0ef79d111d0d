import SceneScript.Proofs.Eval.Chains
import SceneScript.Proofs.Instance.Typed
import SceneScript.Scene

/-!
# The traces of faults

A call from outside opens the first function, at the depth zero. So the depth of each moment of its
run is the number of functions that are active, the limit of the depth is one of this number, and it
is reached where a call is too deep.

* **`Instance.TracedTo`** — what the trace of a fault tells of the run.
* **`Instance.invoke_traced`** — every fault of the evaluator has such a trace.
-/

namespace SceneScript

variable {σ : Type}

namespace Machine

variable {m : Machine σ} {x : Moment σ} {name : Text}

/-- The functions that are active when a fault arises are active at some moment. -/
theorem Arises.active {cause : FaultCause} {span : Option Span} {names : List Text}
    (h : m.Arises x cause span names) : ∃ y, m.Active x names y := by
  cases h with
  | inside hy _ _ => exact ⟨_, hy⟩
  | behind hy hz _ _ _ => exact ⟨_, hy.inside hz⟩

/-- A fault of a call whose body began has the function at the end of its trace. -/
theorem getLast?_trace {z : Moment σ} (hz : m.Begins x z) (hopens : x.task.opens = [name])
    {f : Fault} (hf : m.halt? x = some (.fault f)) (hhost : ¬f.IsHosts) :
    f.trace.getLast? = some name := by
  cases source hf hhost with
  | own _ _ hquiet =>
      have hdepth := hz.depth
      rw [hopens] at hdepth
      exact absurd (hdepth.symm.trans (hquiet z hz).1) (Nat.succ_ne_self _)
  | inner _ _ _ hf => rw [hf, Fault.under, hopens, List.getLast?_concat]
  | ended _ _ _ htrace _ => rw [htrace, hopens, List.getLast?_singleton]

end Machine

namespace Instance

variable {host : Host σ} {fuel : Nat} {i : Instance} {name : Text} {args : List Value} {state : σ}
  {x : Moment σ}

/-- What the code of a call from outside stops with is the result of the call. -/
theorem halt?_entry {h : Halt} (hentry : i.entry fuel name args state = some x)
    (hresult : (i.invoke host fuel name args state).2.result = .error h) :
    (machine host i.script i.attachment).halt? x = some h := by
  obtain ⟨bound, hreceive, rfl⟩ := entry_eq_some_iff.mp hentry
  rw [invoke_eq, hreceive] at hresult
  rw [Machine.halt?]
  dsimp only at hresult
  cases hrun : (machine host i.script i.attachment).call 0 fuel name bound none
      ⟨i.globals, state⟩ with
  | ok v w =>
      rw [hrun] at hresult
      cases hresult
  | error h' w =>
      rw [hrun] at hresult
      cases hresult
      rfl

/-- The body of the function begins, if there is fuel and one function may be active. -/
theorem begins_entry (hentry : i.entry (fuel + 1) name args state = some x)
    (hroom : ¬i.attachment.maxDepth ≤ (0 : Nat)) :
    ∃ z, (machine host i.script i.attachment).Begins x z := by
  obtain ⟨f, bound, hf, -, rfl⟩ := entry_cases hentry
  exact ⟨_, .body hf hroom⟩

/-- The trace of a fault tells of the run that begins at the moment, in which no more than `limit`
    functions may be active. It lists those that are active when the fault arises, the innermost
    first and the one of the call last, and each is called in the next one. Where the calls are too
    deep, as many are active as may be. -/
structure TracedTo (m : Machine σ) (x : Moment σ) (name : Text) (limit : Nat) (f : Fault) :
    Prop where
  active   : ∀ names, m.Arises x f.cause f.span names ↔ names = f.trace
  length   : f.trace.length ≤ limit
  calls    : f.trace.IsChain m.CalledBy
  last     : 1 ≤ limit → f.trace.getLast? = some name
  overflow : f.kind = .stackOverflow → f.trace.length = limit

/-- Where no more functions can be active than the limit, a fault that the run stops with is traced
    to its beginning. -/
theorem tracedTo_of_halt {m : Machine σ} {limit : Nat} {f : Fault}
    (hopens : x.task.opens = [name]) (hstart : x.depth = 0) (hmax : m.maxDepth = limit)
    (hroom : ∀ names y, m.Active x names y → names.length ≤ limit)
    (hbody : 1 ≤ limit → ∃ z, m.Begins x z)
    (hhalt : m.halt? x = some (.fault f)) (hhost : ¬f.IsHosts) : TracedTo m x name limit f := by
  have harises := (Machine.halts_iff_arises hhost).mp hhalt
  obtain ⟨y, hy⟩ := harises.active
  refine ⟨fun names => ⟨fun hother => ?_, fun h => h ▸ harises⟩, hroom _ y hy, ?_, fun hpos => ?_,
    fun hkind => ?_⟩
  · have hsame := (Machine.halts_iff_arises (f := ⟨f.cause, f.span, names⟩) hhost).mpr hother
    exact congrArg Fault.trace (Halt.fault.inj (Option.some.inj (hsame.symm.trans hhalt)))
  · rcases hy.chain hopens with ⟨hnil, -⟩ | ⟨hchain, -⟩
    · rw [hnil]
      exact .nil
    · exact hchain
  · obtain ⟨z, hz⟩ := hbody hpos
    exact Machine.getLast?_trace hz hopens hhalt hhost
  · have hdeep := (Machine.Active.arises x.fuel .start rfl hhalt hhost).2 hkind
    rw [List.append_nil, hstart, Nat.zero_add, hmax] at hdeep
    have hle := hroom _ y hy
    omega

/-- Whatever the script, the host and the limit of the depth of calls: where a call from outside is
    not turned away, no more functions are ever active than the limit, and the trace of a fault of
    the evaluator tells which of them were when it arose. -/
theorem invoke_traced (host : Host σ) (fuel : Nat) (i : Instance) (limit : Nat)
    (hlimit : i.attachment.maxDepth = limit) (name : Text) (args : List Value) (state : σ)
    (x : Moment σ) (hentry : i.entry fuel name args state = some x) :
    let m := machine host i.script i.attachment
    (∀ names y, m.Active x names y → y.depth = names.length ∧ names.length ≤ limit) ∧
    ∀ f, (i.invoke host fuel name args state).2.result = .error (.fault f) → ¬f.IsHosts →
      TracedTo m x name limit f := by
  intro m
  obtain ⟨bound, -, hx⟩ := entry_eq_some_iff.mp hentry
  have hopens : x.task.opens = [name] := by rw [hx]; rfl
  have hstart : x.depth = 0 := by rw [hx]
  have hmax : m.maxDepth = limit := hlimit
  have hroom : ∀ names y, m.Active x names y → y.depth = names.length ∧ names.length ≤ limit := by
    intro names y hy
    have hdepth := hy.depth
    rw [hstart, Nat.zero_add] at hdepth
    refine ⟨hdepth, ?_⟩
    by_cases hne : names = []
    · rw [hne]
      exact Nat.zero_le _
    · have hle := hy.depth_le hne
      omega
  refine ⟨hroom, fun f hf hhost => ?_⟩
  have hhalt := halt?_entry hentry hf
  refine tracedTo_of_halt hopens hstart hmax (fun names y hy => (hroom names y hy).2) ?_ hhalt hhost
  intro hpos
  cases fuel with
  | zero =>
      rw [hx] at hhalt
      cases hhalt
  | succ fuel => exact begins_entry hentry (by omega)

/-- Three functions, two of which call one another without an end. -/
def endless : Script :=
  ⟨none, checkProgram (parseSource
    "fn start(n: i32) \x7b ping(n); \x7d
     fn ping(n: i32) \x7b pong(n); \x7d
     fn pong(n: i32) \x7b ping(n); \x7d").program⟩

/-- Three functions may be active, and the fourth call is too deep. -/
theorem invoke_traced_endless :
    let i : Instance := ⟨endless, ⟨Scene.root, 3, .silent⟩, []⟩
    let scene := Scene.ofRoot "root"
    ∃ x f, i.attachment.maxDepth = (3 : Nat) ∧ i.entry 40 "start" [.int 1] scene = some x ∧
      (i.invoke Scene.host 40 "start" [.int 1] scene).2.result = .error (.fault f) ∧ ¬f.IsHosts ∧
      f.kind = .stackOverflow ∧ f.trace = (["pong", "ping", "start"] : List Text) ∧
      TracedTo (machine Scene.host i.script i.attachment) x "start" 3 f := by
  intro i scene
  let f : Fault := ⟨.tooDeep 3 "ping", some ⟨⟨87, 2, 23⟩, ⟨94, 2, 30⟩⟩, ["pong", "ping", "start"]⟩
  obtain ⟨hreceive, hresult⟩ : receive i.script "start" [.int 1] = .ok [.int 1] ∧
      (i.invoke Scene.host 40 "start" [.int 1] scene).2.result = .error (.fault f) := by
    decide +kernel
  have hentry : i.entry 40 "start" [.int 1] scene = some _ :=
    entry_eq_some_iff.mpr ⟨_, hreceive, rfl⟩
  have hhost : ¬f.IsHosts := by
    rintro ⟨message, h⟩
    cases h
  obtain ⟨-, htraced⟩ := invoke_traced Scene.host 40 i 3 rfl "start" [.int 1] scene _ hentry
  exact ⟨_, f, rfl, hentry, hresult, hhost, rfl, rfl, htraced f hresult hhost⟩

end Instance

end SceneScript
