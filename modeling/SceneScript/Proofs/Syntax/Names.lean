import SceneScript.Proofs.Diagnostic.Suggestions
import SceneScript.Proofs.Syntax.Parsed
import SceneScript.Proofs.Token.LineEnds

/-!
# The names in a script

What a script calls its functions and signals are identifiers of its text, so they are made of the
characters of names. This holds with errors in the script as well as without.

* **`tokenize_identifier`** — an identifier is made of the characters of names.
* **`Cursor.Offers`** — there is an identifier ahead with the given text.
* **`parseSource_isName`** — the names of all functions and signals.
-/

namespace SceneScript

/-! ## Identifiers -/

/-- A step that reads an identifier reads characters of names only. -/
theorem scan_identifier {u : UInt16} {rest : List UInt16}
    (h : (scan u rest).piece = .token .identifier) :
    ∀ v ∈ u :: rest.take (scan u rest).extra, isNamePart v = true := by
  obtain ⟨hstart, hstep⟩ := scan_identifier_step h
  rw [hstep, nameStep_text hstart]
  exact List.all_eq_true.mp List.all_takeWhile

theorem tokenize_identifier {source : Text} {t : Token} (ht : t ∈ (tokenize source false).tokens)
    (hk : t.kind = .identifier) : t.lexeme.IsName :=
  lexFrom_token (P := fun kind lexeme => kind = .identifier → ∀ u ∈ lexeme, isNamePart u = true)
    (fun _ _ _ hpiece hkind => scan_identifier (hkind ▸ hpiece)) source.units .origin t ht hk

/-! ## Declarations -/

/-- There is an identifier ahead with this text. -/
def Cursor.Offers (c : Cursor) (name : Text) : Prop :=
  ∃ t ∈ c.tokens, t.kind = .identifier ∧ t.lexeme = name

theorem Cursor.Offers.of_suffix {c d : Cursor} {name : Text} (h : d.Offers name)
    (hle : d.tokens <:+ c.tokens) : c.Offers name := by
  obtain ⟨t, ht, hname⟩ := h
  exact ⟨t, hle.subset ht, hname⟩

/-- What the rest of a script calls a declaration by: functions are called and signals emitted. -/
def Declaration.handle? {β : Type} : Declaration β → Option Text
  | .global _   => none
  | .function f => some f.name.name
  | .signal s   => some s.name.name

namespace Reader

variable {α β : Type} {c : Cursor}

theorem ends_always {x : Reader α} {Q : α → Cursor → Prop} (h : ∀ a d, Q a d) :
    Ends x c Q fun _ _ => True := by
  rw [Ends]
  split
  · exact h _ _
  · trivial

/-- What is read behind a name has no influence on it. -/
theorem ends_named {expected : Expected} {f : Ident → Reader α} {Q : α → Prop}
    (h : ∀ t ∈ c.tokens, t.kind = .identifier → ∀ d, Ends (f ⟨t.lexeme, t.span⟩) d
      (fun a _ => Q a) fun _ _ => True) :
    Ends (expectName expected >>= f) c (fun a _ => Q a) fun _ _ => True :=
  ends_bind.mpr (ends_expectName
    (fun t _ ht hk => h t (ht ▸ List.mem_cons_self) hk _) fun _ => trivial)

theorem ends_functionDecl_named (fuel : Nat) (c : Cursor) :
    Ends (functionDecl fuel) c (fun f _ => c.Offers f.name.name) fun _ _ => True := by
  rw [functionDecl, ends_bind, ends_start, ends_bind, ends_advance]
  refine ends_named fun t ht hk d => ?_
  have hname : c.Offers t.lexeme := ⟨t, c.extends_advance.tokens.subset ht, hk, rfl⟩
  refine ends_bind.mpr (ends_always fun _ _ => ?_)
  split
  · trivial
  · refine ends_bind.mpr (ends_always fun _ _ => ends_bind.mpr (ends_always fun _ _ => ?_))
    refine ends_bind.mpr (ends_always fun _ _ => ?_)
    split
    · trivial
    · exact ends_bind.mpr (ends_always fun _ _ => hname)

theorem ends_signalDecl_named (fuel : Nat) (c : Cursor) :
    Ends (signalDecl fuel) c (fun s _ => c.Offers s.name.name) fun _ _ => True := by
  rw [signalDecl, ends_bind, ends_start, ends_bind, ends_advance]
  refine ends_named fun t ht hk d => ?_
  have hname : c.Offers t.lexeme := ⟨t, c.extends_advance.tokens.subset ht, hk, rfl⟩
  refine ends_bind.mpr (ends_always fun _ _ => ends_bind.mpr (ends_always fun _ _ => ?_))
  exact ends_bind.mpr (ends_always fun _ _ => hname)

/-- The names of the declarations are offered to the reader. -/
def Names (c : Cursor) (body : List (Declaration Unit)) : Prop :=
  ∀ d ∈ body, ∀ name, d.handle? = some name → c.Offers name

theorem ends_declaration_named (fuel : Nat) (c : Cursor) :
    Ends (declaration fuel) c (fun found _ => Names c found.toList) fun _ _ => True := by
  have global : ∀ {x : Reader GlobalDecl} {d : Cursor},
      Ends (some <$> Declaration.global <$> x) d (fun found _ => Names c found.toList)
        fun _ _ => True := by
    intro x d
    refine ends_map.mpr (ends_map.mpr (ends_always fun g _ => ?_))
    intro d hd name hname
    rw [List.mem_singleton.mp hd] at hname
    cases hname
  rw [declaration, ends_bind, ends_peek]
  split
  · refine ends_bind.mpr (ends_always fun a _ => ends_bind.mpr (ends_always fun _ _ => ?_))
    split
    · exact global
    · trivial
  · exact global
  · refine ends_map.mpr (ends_map.mpr (Ends.mono (ends_functionDecl_named fuel c)
      (fun f _ hf => ?_) fun _ _ h => h))
    intro d hd name hname
    rw [List.mem_singleton.mp hd] at hname
    cases hname
    exact hf
  · refine ends_map.mpr (ends_map.mpr (Ends.mono (ends_signalDecl_named fuel c)
      (fun s _ hs => ?_) fun _ _ h => h))
    intro d hd name hname
    rw [List.mem_singleton.mp hd] at hname
    cases hname
    exact hs
  · exact fun d hd => absurd hd List.not_mem_nil
  · trivial

theorem ends_declarations_named (fuel : Nat) : ∀ c,
    Ends (declarations fuel) c (fun body _ => Names c body) fun _ _ => True := by
  induction fuel with
  | zero => exact fun _ => trivial
  | succ fuel ih =>
      intro c
      rw [declarations, ends_bind, ends_get]
      split
      · exact fun d hd => absurd hd List.not_mem_nil
      · have hnamed : Ends (recover .declaration (declaration fuel)) c
            (fun found _ => Names c found.join.toList) fun _ _ => True :=
          ends_recover.mpr (Ends.mono (ends_declaration_named fuel c) (fun _ _ hd => hd)
            fun _ _ _ => ⟨fun _ d hd => absurd hd List.not_mem_nil, fun _ => trivial⟩)
        have hround : Ends (recover .declaration (declaration fuel)) c
            (fun found d => c.Extends d ∧ Names c found.join.toList) fun _ _ => True :=
          Ends.mono (Ends.and (reads_recover (reads_declaration .spelled fuel c)) hnamed)
            (fun _ _ hd => ⟨hd.1.1, hd.2⟩) fun _ _ _ => trivial
        refine ends_bind.mpr (Ends.mono hround (fun found d hd => ?_) fun _ _ h => h)
        refine ends_bind.mpr (Ends.mono (ih d) (fun more _ hmore => ?_) fun _ _ h => h)
        refine List.forall_mem_append.mpr ⟨hd.2, fun x hx name hname => ?_⟩
        exact (hmore x hx name hname).of_suffix hd.1.tokens

end Reader

/-- Whatever else is wrong with a script, its functions and signals have names. -/
theorem parseSource_isName (source : Text) :
    ∀ d ∈ (parseSource source).program.body, ∀ name, d.handle? = some name → name.IsName := by
  rw [parseSource]
  split
  · obtain ⟨body, c, hrun, -⟩ := declarations_ok (tokenize source false).tokens
      (tokenize source false).finish
    have hnames := (ends_of_ok hrun).mp (Reader.ends_declarations_named _ _)
    simp only [parseTokens, hrun]
    intro d hd name hname
    obtain ⟨t, ht, hk, rfl⟩ := hnames d hd name hname
    exact tokenize_identifier ht hk
  · exact fun d hd => absurd hd List.not_mem_nil

end SceneScript
