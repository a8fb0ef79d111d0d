import SceneScript.Config.Project
import SceneScript.Proofs.Diagnostic.Suggestions
import SceneScript.Proofs.Json.Merging
import SceneScript.Proofs.Text.Shown
import SceneScript.Proofs.Text.Trimming

/-!
# Settings one by one

Every setting has a kind, which says what its value may be, and a place in the settings file. What a
project gets for a setting depends on what its file says in that place and on nothing else: the
meaning of what is written there, or the default where nothing is written that has a meaning.

* **`Setting`**, **`Setting.Kind`** — the settings; `Setting.path`, `Config.get`.
* **`Setting.Kind.Means`** — what a written value means; **`Setting.Kind.Normal`** — what a setting
  can be.
* **`Config.resolve_get`** — a setting from its place.
* **`Config.resolve_stable`** — the main statement.
-/

namespace SceneScript

/-! ## Kinds of settings -/

/-- What sort of value a setting has. -/
inductive Setting.Kind where
  | name | level | flag | count | duration | extensions | patterns
deriving DecidableEq, Repr

namespace Setting.Kind

/-- The values of a kind. -/
abbrev Value : Kind → Type
  | .name       => Text
  | .level      => LogLevel
  | .flag       => Bool
  | .count      => Nat
  | .duration   => Binary64
  | .extensions => List Text
  | .patterns   => List Text

/-- The value that is read. -/
def read : (k : Kind) → Json → Option k.Value
  | .name,       j => Config.readName j
  | .level,      j => Config.readLevel j
  | .flag,       j => j.bool?
  | .count,      j => Config.readCount j
  | .duration,   j => Config.readDuration j
  | .extensions, j => (Config.readTexts j).map fun ts =>
      Config.cleanTexts (ts.map Config.normalExtension)
  | .patterns,   j => (Config.readTexts j).map Config.cleanTexts

/-- How a value is written. -/
def write : (k : Kind) → k.Value → Json
  | .name,       t  => .string t
  | .level,      l  => .str l.word
  | .flag,       b  => .bool b
  | .count,      n  => .int n
  | .duration,   x  => .number x
  | .extensions, ts => .array (ts.map .string)
  | .patterns,   ts => .array (ts.map .string)

/-- What a written value means, if anything: a name that is not blank, the word of a level, a truth
    value, a positive integer, a positive finite number, or an array, whose texts count. -/
def Means : (k : Kind) → Json → k.Value → Prop
  | .name,       j, t  => ∃ u : Text, j = .string u ∧ t = u.trim ∧ t.isEmpty = false
  | .level,      j, l  => j = .str l.word
  | .flag,       j, b  => j = .bool b
  | .count,      j, n  => j = .number (.finite false (n * stepsPerOne)) ∧ 0 < n
  | .duration,   j, x  => j = .number x ∧ x.isFinite = true ∧ Binary64.zero.lt x = true
  | .extensions, j, ts => ∃ items, j = .array items ∧
      ts = Config.cleanTexts ((items.filterMap Json.text?).map Config.normalExtension)
  | .patterns,   j, ts => ∃ items, j = .array items ∧
      ts = Config.cleanTexts (items.filterMap Json.text?)

/-- Texts without blanks at their ends, none of them empty and none twice. -/
structure Listed (ts : List Text) : Prop where
  nodup   : ts.Nodup
  trimmed : ∀ t ∈ ts, t.Trimmed
  filled  : ∀ t ∈ ts, t.isEmpty = false

/-- What a setting can be. -/
def Normal : (k : Kind) → k.Value → Prop
  | .name,       t  => t.Trimmed ∧ t.isEmpty = false
  | .level,      _  => True
  | .flag,       _  => True
  | .count,      n  => 0 < n ∧ binary64.Holds (n * stepsPerOne)
  | .duration,   x  => x.isFinite = true ∧ Binary64.zero.lt x = true
  | .extensions, ts => Listed ts ∧ ∀ t ∈ ts, t.startsWith "." = true
  | .patterns,   ts => Listed ts

end Setting.Kind

/-! ## Reading a value -/

namespace Config

variable {j : Json}

theorem readName_eq_some_iff {t : Text} :
    readName j = some t ↔ ∃ u : Text, j = .string u ∧ t = u.trim ∧ t.isEmpty = false := by
  constructor
  · intro h
    obtain ⟨u, hu, h⟩ := Option.bind_eq_some_iff.mp h
    split at h
    · cases h
    · next hfilled =>
        cases h
        cases j <;> cases hu
        exact ⟨u, rfl, rfl, by simpa using hfilled⟩
  · rintro ⟨u, rfl, rfl, hfilled⟩
    simp [readName, Json.text?, hfilled]

/-- The words of levels are shown as they are. -/
theorem eq_of_toString_word {t : Text} {l : LogLevel} (h : l.word = t.toString) :
    t = Text.ofString l.word := by
  have hplain : (decodeUnits (Text.ofString l.word).units).all (·.toNat < 0xD800) = true := by
    cases l <;> decide
  refine Text.eq_of_toString ?_ fun c hc => by simpa using List.all_eq_true.mp hplain c hc
  rw [← h]
  cases l <;> decide

theorem readLevel_eq_some_iff {l : LogLevel} : readLevel j = some l ↔ j = .str l.word := by
  constructor
  · intro h
    obtain ⟨t, ht, h⟩ := Option.bind_eq_some_iff.mp h
    have hword : l.word = t.toString := by simpa using List.find?_some h
    cases j <;> cases ht
    exact congrArg Json.string (eq_of_toString_word hword)
  · rintro rfl
    cases l <;> decide

theorem truncate_finite (s : Bool) (n : Nat) :
    (Binary64.finite s n).truncate = Binary64.signed s (n / stepsPerOne) := rfl

theorem isInteger_finite {s : Bool} {n : Nat} :
    (Binary64.finite s n).isInteger = true ↔ stepsPerOne ∣ n := by
  rw [Binary64.isInteger, beq_iff_eq, Nat.dvd_iff_mod_eq_zero]

/-- Only a number without a sign has a positive integer part. -/
theorem signed_pos {s : Bool} {q : Nat} (h : 0 < Binary64.signed s q) : s = false ∧ 0 < q := by
  cases s with
  | true =>
      have hneg : 0 < -(q : Int) := h
      omega
  | false =>
      have hpos : 0 < (q : Int) := h
      exact ⟨rfl, by omega⟩

/-- A positive integer is a number without a fraction. -/
theorem readCount_eq_some_iff {n : Nat} :
    readCount j = some n ↔ j = .number (.finite false (n * stepsPerOne)) ∧ 0 < n := by
  constructor
  · intro h
    obtain ⟨x, hx, h⟩ := Option.bind_eq_some_iff.mp h
    split at h
    · next hcount =>
        obtain ⟨hint, hpos⟩ := hcount
        cases h
        cases j <;> cases hx
        cases x with
        | finite s m =>
            rw [truncate_finite] at hpos ⊢
            obtain ⟨rfl, hq⟩ := signed_pos hpos
            have hwhole : (Binary64.signed false (m / stepsPerOne)).toNat = m / stepsPerOne :=
              Int.toNat_natCast _
            rw [hwhole, Nat.div_mul_cancel (isInteger_finite.mp hint)]
            exact ⟨rfl, hq⟩
        | nan => cases hint
        | infinite s => cases hint
    · cases h
  · rintro ⟨rfl, hpos⟩
    have htrunc : (Binary64.finite false (n * stepsPerOne)).truncate = (n : Int) := by
      rw [truncate_finite, Nat.mul_div_cancel n stepsPerOne_pos]
      rfl
    have hint : (Binary64.finite false (n * stepsPerOne)).isInteger = true :=
      isInteger_finite.mpr (Nat.dvd_mul_left _ _)
    rw [readCount, Json.number?, Option.bind_some, htrunc, hint,
      if_pos ⟨rfl, Int.natCast_pos.mpr hpos⟩, Int.toNat_natCast]

theorem readDuration_eq_some_iff {x : Binary64} :
    readDuration j = some x ↔ j = .number x ∧ x.isFinite = true ∧ Binary64.zero.lt x = true := by
  constructor
  · intro h
    obtain ⟨y, hy, h⟩ := Option.bind_eq_some_iff.mp h
    split at h
    · next hpos =>
        cases h
        cases j <;> cases hy
        exact ⟨rfl, hpos⟩
    · cases h
  · rintro ⟨rfl, hpos⟩
    exact if_pos hpos

theorem readTexts_eq_some_iff {ts : List Text} :
    readTexts j = some ts ↔ ∃ items, j = .array items ∧ ts = items.filterMap Json.text? := by
  cases j <;> simp [readTexts, Json.items?, eq_comm]

/-! ## Lists of texts -/

theorem distinctBy_id_of_nodup {α : Type} [DecidableEq α] (items : List α) :
    ∀ seen : List α, items.Nodup → (∀ x ∈ items, x ∉ seen) → distinctBy id seen items = items := by
  induction items with
  | nil => exact fun _ _ _ => rfl
  | cons x rest ih =>
      intro seen hnodup hfresh
      obtain ⟨hx, hrest⟩ := List.nodup_cons.mp hnodup
      obtain ⟨hnew, hmore⟩ := List.forall_mem_cons.mp hfresh
      rw [distinctBy, id_eq, if_neg hnew, ih (x :: seen) hrest fun y hy => ?_]
      rw [List.mem_cons, not_or]
      exact ⟨fun h => hx (h ▸ hy), hmore y hy⟩

theorem mem_cleanTexts {ts : List Text} {t : Text} :
    t ∈ cleanTexts ts ↔ (∃ u ∈ ts, u.trim = t) ∧ t.isEmpty = false := by
  rw [cleanTexts, mem_distinctBy_id, List.mem_filter, List.mem_map]
  simp

theorem listed_cleanTexts (ts : List Text) : Setting.Kind.Listed (cleanTexts ts) where
  nodup := nodup_distinctBy_id _ _
  trimmed t ht := by
    obtain ⟨⟨u, -, rfl⟩, -⟩ := mem_cleanTexts.mp ht
    exact u.trimmed_trim
  filled t ht := (mem_cleanTexts.mp ht).2

/-- Texts that are in order are left alone. -/
theorem cleanTexts_of_listed {ts : List Text} (h : Setting.Kind.Listed ts) : cleanTexts ts = ts := by
  have htrim : ts.map Text.trim = ts := (List.map_congr_left h.trimmed).trans (List.map_id ts)
  have hfilled : ts.filter (fun t => !t.isEmpty) = ts :=
    List.filter_eq_self.mpr fun t ht => by rw [h.filled t ht, Bool.not_false]
  rw [cleanTexts, htrim, hfilled]
  exact distinctBy_id_of_nodup ts [] h.nodup fun _ _ => List.not_mem_nil

theorem normalExtension_trimmed (t : Text) : (normalExtension t).Trimmed := by
  rw [normalExtension]
  split
  · rfl
  · split
    · exact t.trimmed_trim
    · have hdot : (Text.ofString ".").Trimmed := rfl
      exact Text.trimmed_append hdot t.trimmed_trim

theorem normalExtension_startsWith (t : Text) : (normalExtension t).startsWith "." = true := by
  rw [normalExtension]
  split
  · rfl
  · split
    · next h => exact h
    · exact List.isPrefixOf_iff_prefix.mpr (List.prefix_append _ _)

/-- An extension that is in order is left alone. -/
theorem normalExtension_eq_self {t : Text} (ht : t.Trimmed) (hfilled : t.isEmpty = false)
    (hdot : t.startsWith "." = true) : normalExtension t = t := by
  rw [normalExtension, ht, hfilled, if_neg Bool.false_ne_true, if_pos hdot]

end Config

namespace Setting.Kind

variable {k : Kind} {j : Json}

/-- What is read is what is meant. -/
theorem read_eq_some_iff {v : k.Value} : k.read j = some v ↔ k.Means j v := by
  cases k with
  | name => exact Config.readName_eq_some_iff
  | level => exact Config.readLevel_eq_some_iff
  | flag => cases j <;> simp [read, Means, Json.bool?]
  | count => exact Config.readCount_eq_some_iff
  | duration => exact Config.readDuration_eq_some_iff
  | extensions | patterns =>
      simp only [read, Means, Option.map_eq_some_iff, Config.readTexts_eq_some_iff]
      exact ⟨fun ⟨_, ⟨items, hj, rfl⟩, h⟩ => ⟨items, hj, h.symm⟩,
        fun ⟨items, hj, h⟩ => ⟨_, ⟨items, hj, rfl⟩, h.symm⟩⟩

/-- What a proper value means is in order. -/
theorem Means.normal (hj : j.Proper) : ∀ {k : Kind} {v : k.Value}, k.Means j v → k.Normal v
  | .name, _, ⟨u, _, rfl, hfilled⟩ => ⟨u.trimmed_trim, hfilled⟩
  | .level, _, _ => trivial
  | .flag, _, _ => trivial
  | .count, _, ⟨hnumber, hpos⟩ => by
      subst hnumber
      cases hj with
      | number _ hholds => exact ⟨hpos, hholds _ _ rfl⟩
  | .duration, _, ⟨_, hpos⟩ => hpos
  | .patterns, _, ⟨_, _, rfl⟩ => Config.listed_cleanTexts _
  | .extensions, _, ⟨_, _, rfl⟩ => by
      refine ⟨Config.listed_cleanTexts _, fun t ht => ?_⟩
      obtain ⟨⟨u, hu, rfl⟩, -⟩ := Config.mem_cleanTexts.mp ht
      obtain ⟨e, -, rfl⟩ := List.mem_map.mp hu
      rw [Config.normalExtension_trimmed e]
      exact Config.normalExtension_startsWith e

theorem texts_of_strings (ts : List Text) : (ts.map Json.string).filterMap Json.text? = ts := by
  rw [List.filterMap_map]
  exact List.filterMap_some

/-- What is in order and written means what it is. -/
theorem means_write : ∀ {k : Kind} {v : k.Value}, k.Normal v → k.Means (k.write v) v
  | .name, t, ⟨htrim, hfilled⟩ => ⟨t, rfl, htrim.symm, hfilled⟩
  | .level, _, _ => rfl
  | .flag, _, _ => rfl
  | .count, n, ⟨hpos, hholds⟩ => by
      refine ⟨congrArg Json.number ?_, hpos⟩
      exact Format.round_of_holds false hholds
  | .duration, _, hpos => ⟨rfl, hpos⟩
  | .patterns, ts, hlisted => by
      refine ⟨_, rfl, ?_⟩
      rw [texts_of_strings, Config.cleanTexts_of_listed hlisted]
  | .extensions, ts, ⟨hlisted, hdot⟩ => by
      refine ⟨_, rfl, ?_⟩
      have hkeep : ts.map Config.normalExtension = ts := by
        refine (List.map_congr_left fun t ht => ?_).trans (List.map_id ts)
        exact Config.normalExtension_eq_self (hlisted.trimmed t ht) (hlisted.filled t ht) (hdot t ht)
      rw [texts_of_strings, hkeep, Config.cleanTexts_of_listed hlisted]

end Setting.Kind

/-! ## Settings -/

/-- The settings of a project. -/
inductive Setting where
  | name | logLevel
  | diagnostics | maxProblems
  | lint | unusedVariables | unreachableCode | needlessMut
  | maxCallDepth | frames | delta
  | extensions | exclude
deriving DecidableEq, Repr

namespace Setting

/-- The kind of a setting. -/
def kind : Setting → Kind
  | .name => .name
  | .logLevel => .level
  | .diagnostics | .lint | .unusedVariables | .unreachableCode | .needlessMut => .flag
  | .maxProblems | .maxCallDepth | .frames => .count
  | .delta => .duration
  | .extensions => .extensions
  | .exclude => .patterns

/-- The keys that lead to a setting. -/
def path : Setting → List String
  | .name            => ["name"]
  | .logLevel        => ["logLevel"]
  | .diagnostics     => ["diagnostics", "enabled"]
  | .maxProblems     => ["diagnostics", "maxProblems"]
  | .lint            => ["lint", "enabled"]
  | .unusedVariables => ["lint", "unusedVariables"]
  | .unreachableCode => ["lint", "unreachableCode"]
  | .needlessMut     => ["lint", "needlessMut"]
  | .maxCallDepth    => ["runtime", "maxCallDepth"]
  | .frames          => ["runtime", "frames"]
  | .delta           => ["runtime", "delta"]
  | .extensions      => ["files", "extensions"]
  | .exclude         => ["files", "exclude"]

end Setting

namespace Config

/-- The value of a setting. -/
def get (c : Config) : (s : Setting) → s.kind.Value
  | .name            => c.name
  | .logLevel        => c.logLevel
  | .diagnostics     => c.diagnostics.enabled
  | .maxProblems     => c.diagnostics.maxProblems
  | .lint            => c.lint.enabled
  | .unusedVariables => c.lint.rules.unusedVariables
  | .unreachableCode => c.lint.rules.unreachableCode
  | .needlessMut     => c.lint.rules.needlessMut
  | .maxCallDepth    => c.running.maxCallDepth
  | .frames          => c.running.frames
  | .delta           => c.running.delta
  | .extensions      => c.files.extensions
  | .exclude         => c.files.exclude

/-- Settings that agree one by one are the same. -/
theorem ext_get {c d : Config} (h : ∀ s, c.get s = d.get s) : c = d := by
  obtain ⟨name, level, ⟨enabled, problems⟩, ⟨lint, ⟨unused, unreachable, needless⟩⟩,
    ⟨depth, frames, delta⟩, ⟨extensions, exclude⟩⟩ := c
  cases (h .name : name = d.name)
  cases (h .logLevel : level = d.logLevel)
  cases (h .diagnostics : enabled = d.diagnostics.enabled)
  cases (h .maxProblems : problems = d.diagnostics.maxProblems)
  cases (h .lint : lint = d.lint.enabled)
  cases (h .unusedVariables : unused = d.lint.rules.unusedVariables)
  cases (h .unreachableCode : unreachable = d.lint.rules.unreachableCode)
  cases (h .needlessMut : needless = d.lint.rules.needlessMut)
  cases (h .maxCallDepth : depth = d.running.maxCallDepth)
  cases (h .frames : frames = d.running.frames)
  cases (h .delta : delta = d.running.delta)
  cases (h .extensions : extensions = d.files.extensions)
  cases (h .exclude : exclude = d.files.exclude)
  rfl

theorem listed_default :
    Setting.Kind.Listed ({} : Config).files.extensions ∧
      Setting.Kind.Listed ({} : Config).files.exclude :=
  ⟨⟨by decide, by decide, by decide⟩, ⟨by decide, by decide, by decide⟩⟩

/-- A 32-bit integer is a number of the format. -/
theorem holds_count {n : Nat} (k : Int32) (h : k.toInt.natAbs = n) :
    binary64.Holds (n * stepsPerOne) := by
  have hround := Binary64.ofInt32_eq k
  rw [Binary64.ofInt32, Binary64.ofInt] at hround
  rw [← h]
  exact (Format.round_holds (by decide) hround).2

/-- The defaults are in order. -/
theorem normal_default (s : Setting) : s.kind.Normal (({} : Config).get s) := by
  cases s with
  | name => exact ⟨rfl, rfl⟩
  | maxProblems => exact ⟨Nat.succ_pos 199, holds_count 200 rfl⟩
  | maxCallDepth => exact ⟨Nat.succ_pos 255, holds_count 256 rfl⟩
  | frames => exact ⟨Nat.succ_pos 0, holds_count 1 rfl⟩
  | delta =>
      have hdelta : ({} : Config).running.delta.isFinite = true ∧
          Binary64.zero.lt ({} : Config).running.delta = true := by decide +kernel
      exact hdelta
  | extensions =>
      have hdot : ∀ t ∈ ({} : Config).files.extensions, t.startsWith "." = true := by decide
      exact ⟨listed_default.1, hdot⟩
  | exclude => exact listed_default.2
  | _ => trivial

/-- A written setting stands in its place. -/
theorem at?_json (c : Config) (s : Setting) : c.json.at? s.path = some (s.kind.write (c.get s)) := by
  cases s <;>
    simp +decide [Json.at?, Setting.path, json, members, Json.get?, Json.lookup, Json.obj,
      Setting.kind, Setting.Kind.write, get]

theorem at?_singleton (raw : Json) (key : String) : raw.at? [key] = raw.get? key := by
  simp only [Json.at?, Option.bind_fun_some]

theorem get?_group (raw : Json) (part key : String) :
    (group raw part).get? key = raw.at? [part, key] := by
  rw [group, Json.at?]
  simp only [at?_singleton]
  cases raw.get? part with
  | none => rfl
  | some j => cases j <;> rfl

/-- What is done with a setting can be done while it is read, if the default stays as it is. -/
theorem setting_map {α : Type} {f : α → α} {default : α} (g : Json) (key : String)
    (read : Json → Option α) (hdefault : f default = default) :
    f (setting g key read default) =
      ((g.get? key).bind fun j => (read j).map f).getD default := by
  rw [setting]
  cases g.get? key with
  | none => exact hdefault
  | some j =>
      simp only [Option.bind_some]
      cases read j with
      | none => exact hdefault
      | some a => rfl

/-- A setting is what is read in its place, or the default. -/
theorem resolve_get (raw : Json) (s : Setting) :
    (resolve raw).get s = ((raw.at? s.path).bind s.kind.read).getD (({} : Config).get s) := by
  cases s with
  | name | logLevel =>
      rw [Setting.path, at?_singleton]
      rfl
  | extensions =>
      have hdefault : cleanTexts (({} : Config).files.extensions.map normalExtension) =
          ({} : Config).files.extensions := by decide
      rw [Setting.path, ← get?_group]
      exact setting_map (f := fun ts => cleanTexts (ts.map normalExtension)) _ _ readTexts hdefault
  | exclude =>
      rw [Setting.path, ← get?_group]
      exact setting_map _ _ readTexts (cleanTexts_of_listed listed_default.2)
  | _ =>
      rw [Setting.path, ← get?_group]
      rfl

/-! ## Whole files -/

variable {raw : Json} {s : Setting}

/-- A setting whose value means something is what it means. -/
theorem resolve_of_means {j : Json} {v : s.kind.Value} (hj : raw.at? s.path = some j)
    (hv : s.kind.Means j v) : (resolve raw).get s = v := by
  rw [resolve_get, hj, Option.bind_some, Setting.Kind.read_eq_some_iff.mpr hv, Option.getD_some]

/-- A setting whose value means nothing has the default. -/
theorem resolve_of_meaningless (h : ∀ j v, raw.at? s.path = some j → ¬ s.kind.Means j v) :
    (resolve raw).get s = ({} : Config).get s := by
  have hnone : (raw.at? s.path).bind s.kind.read = none := by
    refine Option.eq_none_iff_forall_not_mem.mpr fun v hv => ?_
    obtain ⟨j, hj, hread⟩ := Option.bind_eq_some_iff.mp hv
    exact h j v hj (Setting.Kind.read_eq_some_iff.mp hread)
  rw [resolve_get, hnone, Option.getD_none]

/-- A setting depends on its own place. -/
theorem resolve_congr {other : Json} (h : other.at? s.path = raw.at? s.path) :
    (resolve other).get s = (resolve raw).get s := by
  rw [resolve_get, resolve_get, h]

/-- A part of a proper value is proper. -/
theorem proper_at? : ∀ {path : List String} {j part : Json}, j.Proper → j.at? path = some part →
    part.Proper
  | [], _, _, hj, h => by
      cases h
      exact hj
  | key :: path, j, part, hj, h => by
      obtain ⟨v, hv, hpath⟩ := Option.bind_eq_some_iff.mp h
      cases hj with
      | object _ _ hvalues => exact proper_at? (hvalues _ (Json.mem_of_lookup hv)) hpath
      | _ => cases hv

/-- Whatever is written in a settings file, every setting is in order. -/
theorem normal_resolve (hraw : raw.Proper) (s : Setting) : s.kind.Normal ((resolve raw).get s) := by
  by_cases h : ∃ j v, raw.at? s.path = some j ∧ s.kind.Means j v
  · obtain ⟨j, v, hj, hv⟩ := h
    rw [resolve_of_means hj hv]
    exact hv.normal (proper_at? hraw hj)
  · rw [resolve_of_meaningless fun j v hj hv => h ⟨j, v, hj, hv⟩]
    exact normal_default s

/-- Settings that are in order are what is read from them. -/
theorem resolve_json {c : Config} (h : ∀ s : Setting, s.kind.Normal (c.get s)) :
    resolve c.json = c :=
  ext_get fun s => resolve_of_means (at?_json c s) (Setting.Kind.means_write (h s))

/-- What a setting is written as holds no members. -/
theorem isObject_write (k : Setting.Kind) (v : k.Value) : (k.write v).isObject = false := by
  cases k <;> rfl

/-- Merging over the defaults first makes no difference. -/
theorem resolve_merge {ms : List (Text × Json)} (h : (Json.object ms).Proper) :
    resolve (.object (Json.merge ({} : Config).members ms)) = resolve (.object ms) := by
  refine ext_get fun s => ?_
  rcases Json.at?_merge (isObject_write _ _) s.path _ ms h (at?_json {} s) with hsame | ⟨hnone, hleaf⟩
  · exact resolve_congr hsame
  · rw [resolve_of_means hleaf (Setting.Kind.means_write (normal_default s)),
      resolve_of_meaningless fun j _ hj => by rw [hnone] at hj; cases hj]

/-- Reading settings is total and stable. Each setting of the result is in order; it is what the
    value in its place means, or its default when there is none that means anything, and nothing
    elsewhere in the file matters. Reading the result again changes nothing, and it makes no
    difference when the file is merged over the defaults before. -/
theorem resolve_stable {ms : List (Text × Json)} (h : (Json.object ms).Proper) :
    (∀ s : Setting, s.kind.Normal ((resolve (.object ms)).get s)) ∧
    (∀ (s : Setting) (j : Json) (v : s.kind.Value), (Json.object ms).at? s.path = some j →
      s.kind.Means j v → (resolve (.object ms)).get s = v) ∧
    (∀ s : Setting, (∀ j v, (Json.object ms).at? s.path = some j → ¬ s.kind.Means j v) →
      (resolve (.object ms)).get s = ({} : Config).get s) ∧
    (∀ (s : Setting) (other : Json), other.at? s.path = (Json.object ms).at? s.path →
      (resolve other).get s = (resolve (.object ms)).get s) ∧
    resolve (resolve (.object ms)).json = resolve (.object ms) ∧
    resolve (.object (Json.merge ({} : Config).members ms)) = resolve (.object ms) :=
  ⟨normal_resolve h, fun _ _ _ => resolve_of_means, fun _ => resolve_of_meaningless,
    fun _ _ => resolve_congr, resolve_json (normal_resolve h), resolve_merge h⟩

/-- Settings in which one value is out of range and a section is no object. -/
def mixedSettings : List (Text × Json) :=
  [("name", .str " Demo "), ("lint", .bool false), ("runtime", .obj [("frames", .int (-1))]),
   ("files", .obj [("extensions", .array [.str "gl", .str ".glint", .str " gl ", .null])])]

theorem proper_mixedSettings : (Json.object mixedSettings).Proper := by
  have hframes : (Json.obj [("frames", .int (-1))]).Proper := by
    refine .object _ (by decide) (List.forall_mem_singleton.mpr (.number _ fun _ _ h => ?_))
    exact (Format.round_holds (by decide) h).2
  have hextensions :
      (Json.obj [("extensions", .array [.str "gl", .str ".glint", .str " gl ", .null])]).Proper := by
    refine .object _ (by decide) (List.forall_mem_singleton.mpr (.array _ fun j hj => ?_))
    simp only [List.mem_cons, List.not_mem_nil, or_false] at hj
    rcases hj with rfl | rfl | rfl | rfl
    · exact .string _
    · exact .string _
    · exact .string _
    · exact .null
  refine .object _ (by decide) fun m hm => ?_
  simp only [mixedSettings, List.mem_cons, List.not_mem_nil, or_false] at hm
  rcases hm with rfl | rfl | rfl | rfl
  · exact .string _
  · exact .bool _
  · exact hframes
  · exact hextensions

/-- What is in order is kept beside what is not, and repeated extensions are listed once. -/
theorem resolve_stable_mixed :
    (Json.object mixedSettings).Proper ∧
    (resolve (.object mixedSettings)).name = "Demo" ∧
    (resolve (.object mixedSettings)).lint.enabled = true ∧
    (resolve (.object mixedSettings)).running.frames = 1 ∧
    (resolve (.object mixedSettings)).files.extensions = [".gl", ".glint"] ∧
    resolve (resolve (.object mixedSettings)).json = resolve (.object mixedSettings) ∧
    resolve (.object (Json.merge ({} : Config).members mixedSettings)) =
      resolve (.object mixedSettings) := by
  obtain ⟨-, hmeans, hdefault, -, hagain, hmerge⟩ := resolve_stable proper_mixedSettings
  have hframes : Config.readCount (.int (-1)) = none := by decide +kernel
  refine ⟨proper_mixedSettings, ?_, ?_, ?_, ?_, hagain, hmerge⟩
  · exact hmeans .name (.str " Demo ") _ rfl ⟨_, rfl, rfl, rfl⟩
  · exact hdefault .lint fun j v hj => by cases hj
  · refine hdefault .frames fun j v hj hv => ?_
    cases hj
    rw [← Setting.Kind.read_eq_some_iff] at hv
    cases hframes.symm.trans hv
  · exact hmeans .extensions _ _ rfl ⟨_, rfl, rfl⟩

end Config

/-- The settings of a project are what its settings file says, and the defaults only stand in. -/
theorem Project.config_ofContent {text : Text} {members : List (Text × Json)}
    (h : Json.parse? text = some (.object members)) (root : Option String) (path : String) :
    (ofContent root path (.ok text)).config = .resolve (.object members) := by
  have hread : readConfigMembers (.ok text) = .ok members := by
    simp only [readConfigMembers, h]
  rw [ofContent, hread]
  exact Config.resolve_merge (Json.proper_parse h)

end SceneScript
