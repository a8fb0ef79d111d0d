import SceneScript.Proofs.Session.Safety
import SceneScript.Proofs.Typing.Hints

/-!
# The hints of scripts that compile

An inspector shows the text of a hint and reads it back. For the properties of a script that
compiles it gets the same hint, unless a bound of a range of floats is infinite or a zero with a
sign: both are constants that may be written, and neither has a text of its own.

* **`AcceptedScript.hint_reads_back`** — which hints come back.
-/

namespace SceneScript

namespace AcceptedScript

/-- The hint of a property of a script that compiles is read back from its text, exactly when the
    numbers of its range are finite and none of them is a zero with a sign. Hints without numbers
    and ranges of integers are always read back. -/
theorem hint_reads_back (script : AcceptedScript) (p : Property)
    (hp : p ∈ script.1.checked.properties) :
    (Hint.parse? p.hint.kind p.hint.text = some p.hint ↔
      ∀ x ∈ p.hint.numbers, x.isFinite = true ∧ x ≠ .finite true 0) ∧
    (p.type = .i32 ∨ p.hint.numbers = [] →
      Hint.parse? p.hint.kind p.hint.text = some p.hint) := by
  obtain ⟨g, -, -, mark, hexports⟩ := script.2.property_exports hp
  refine ⟨hexports.reads_back, ?_⟩
  rintro (htype | hnone)
  · exact hexports.reads_back_int htype
  · exact hexports.reads_back.mpr fun x hx => absurd (hnone ▸ hx) List.not_mem_nil

/-- A script with a range, a list of options and a list of filters. -/
def inspected : AcceptedScript :=
  (ofText?
    ("@export(range(-0.5, 2)) let mut scale: f32 = 1.0;" ++
      "@export(enum(\"Easy\", \"Hard\")) let mut mode: String = \"Easy\";" ++
      "@export(file(\"*.png\", \"*.jpg\")) let mut image: String = \"\";")).get (by decide +kernel)

theorem hint_reads_back_inspected :
    inspected.1.checked.properties.map (fun p => p.hint.text) =
      ["-0.5,2,0.001", "Easy,Hard", "*.png,*.jpg"] ∧
    ∀ p ∈ inspected.1.checked.properties,
      Hint.parse? p.hint.kind p.hint.text = some p.hint := by
  obtain ⟨htexts, hnumbers⟩ : inspected.1.checked.properties.map (fun p => p.hint.text) =
      ["-0.5,2,0.001", "Easy,Hard", "*.png,*.jpg"] ∧
      ∀ p ∈ inspected.1.checked.properties, ∀ x ∈ p.hint.numbers,
        x.isFinite = true ∧ x ≠ .finite true 0 := by decide +kernel
  exact ⟨htexts, fun p hp => (hint_reads_back inspected p hp).1.mpr (hnumbers p hp)⟩

/-- A script with a range up to a number beyond single precision, and one from a zero with a
    sign. -/
def unbounded : AcceptedScript :=
  (ofText?
    ("@export(range(0, 10000000000000000000000000000000000000000.0)) let mut x: f32 = 1.0;" ++
      "@export(range(-0.0, 1)) let mut y: f32 = 1.0;")).get (by decide +kernel)

theorem hint_reads_back_unbounded :
    unbounded.1.checked.properties.map Property.hint =
      [.range .zero (.infinite false) (.ofRatio false 1 1000),
        .range (.finite true 0) (.ofInt 1) (.ofRatio false 1 1000)] ∧
    unbounded.1.checked.properties.map (fun p => p.hint.text) =
      ["0,Infinity,0.001", "0,1,0.001"] ∧
    unbounded.1.checked.properties.map (fun p => Hint.parse? p.hint.kind p.hint.text) =
      [none, some (.range .zero (.ofInt 1) (.ofRatio false 1 1000))] :=
  by decide +kernel

end AcceptedScript

end SceneScript
