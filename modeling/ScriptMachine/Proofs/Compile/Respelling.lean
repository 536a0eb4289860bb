import ScriptMachine.Proofs.Compile.Alongside

/-!
# Respelling — code for a script and for the script with dots

Whatever the generator makes of a piece of a script stands for what it makes of the same piece with dots.
The functions of the generator are mutually recursive along its measure, and so are these proofs.
-/

namespace ScriptMachine

/-- Whether a node has no name that generated code keeps an operand under. -/
def Node.SparesOperands : Node → Prop
  | .expr (.ident name) => ¬ Compile.IsOperand name
  | .expr (.function name _ _) => name ≠ some "parked"
  | _ => True

namespace Compile

variable {w w' : Ledger} {Γ Γ' : List Lodge} {span : Span}

/-! ### Targets -/

/-- Targets that can be read and written in step, between the hidden scopes `Γ₀` before the first use and
`Γ₁` after it. Code for brackets may have to keep a key before. -/
structure Reaches (w : Ledger) (Γ : List Lodge) (t t' : Target × Code) (Γ₀ Γ₁ : List Lodge) (extra : Code) : Prop where
  first : ∀ span, Paired w Γ₀ (t.1.load span) (extra ++ t'.1.load span) Γ₁
  load : ∀ span, Paired w Γ₁ (t.1.load span) (t'.1.load span) Γ₁
  save : ∀ span, Paired w Γ₁ (t.1.save span) (t'.1.save span) Γ₁
  around : ∀ {w'}, w.Grows w' → ∀ span {uses uses'}, Paired w' Γ₀ uses (extra ++ uses') Γ₁ →
    Paired w' Γ (t.1.around span t.2 uses) (t'.1.around span t'.2 uses') Γ

/-- Targets in step, as results. -/
inductive Targets (Γ : List Lodge) (w : Ledger) : Option (Target × Code) → Option (Target × Code) → Prop where
  | none : Targets Γ w none none
  | some {t t' Γ₀ Γ₁ extra} : Reaches w Γ t t' Γ₀ Γ₁ extra → Targets Γ w (some t) (some t')

/-- A name is a target by itself. -/
theorem reaches_plain {name : String} (h : ¬ IsOperand name) : Reaches w Γ (.plain name, []) (.plain name, []) Γ Γ [] where
  first _ := .step _ _ (.inr h)
  load _ := .step _ _ (.inr h)
  save _ := .step _ _ (.inr h)
  around _ _ _ _ huses := huses

/-- Operands that are kept in a hidden scope. -/
theorem reaches_hidden (place place' : Target) (extra : Code) {keep keep' : Code} {nook : List Keep} {l₀ l₁ : Lodge}
    (htidy : Tidy nook) (hkeep : Paired w (⟨nook, [], []⟩ :: Γ) keep keep' (l₀ :: Γ))
    (hfirst : ∀ span, Paired w (l₀ :: Γ) (place.load span) (extra ++ place'.load span) (l₁ :: Γ))
    (hload : ∀ span, Paired w (l₁ :: Γ) (place.load span) (place'.load span) (l₁ :: Γ))
    (hsave : ∀ span, Paired w (l₁ :: Γ) (place.save span) (place'.save span) (l₁ :: Γ))
    (hplace : ∀ name, place ≠ .plain name) (hplace' : ∀ name, place' ≠ .plain name) :
    Reaches w Γ (place, keep) (place', keep' ++ extra) (l₀ :: Γ) (l₁ :: Γ) extra := by
  have haround : ∀ {t : Target} (span : Span) (keep uses : Code), (∀ name, t ≠ .plain name) →
      t.around span keep uses = inScope span (keep ++ uses) := fun {t} _ _ _ ht => by
    cases t with
    | plain name => exact absurd rfl (ht name)
    | property | element => rfl
  refine ⟨hfirst, hload, hsave, fun {w'} hw span uses uses' huses => ?_⟩
  rw [haround span _ _ hplace, haround span _ _ hplace', List.append_assoc]
  exact ((Paired.one (.enter htidy)).append ((hkeep.mono hw).append huses)).append (.one .leave)

theorem Reaches.mono {t t' : Target × Code} {Γ₀ Γ₁ : List Lodge} {extra : Code} (h : Reaches w Γ t t' Γ₀ Γ₁ extra)
    (hw : w.Grows w') : Reaches w' Γ t t' Γ₀ Γ₁ extra :=
  ⟨fun s => (h.first s).mono hw, fun s => (h.load s).mono hw, fun s => (h.save s).mono hw,
    fun hw' s => h.around (hw.trans hw') s⟩

/-- An operand is declared and stored. -/
theorem paired_keepAs (span : Span) {nook declared keyed : List Keep} {k : Keep} (hk : k ∈ nook) :
    Paired w (⟨nook, declared, keyed⟩ :: Γ) (keepAs span k.dotted) (keepAs span k.bracketed)
      (⟨nook, k :: declared, keyed⟩ :: Γ) :=
  (Paired.one (.declare hk)).append (.one (.keep hk List.mem_cons_self))

/-- A kept operand is read. -/
theorem paired_kept {l : Lodge} {k : Keep} (hk : k ∈ l.nook) (hd : k ∈ l.declared) :
    Paired w (l :: Γ) (emit span [.fetch k.dotted]) (emit span [.fetch k.bracketed]) (l :: Γ) :=
  .one (.kept hk hd)

/-- A target by name whose operand is kept. -/
theorem reaches_property {object object' : Code} {objectSpan : Span} {x y property : String}
    (hx : IsOperand x) (hy : IsOperand y)
    (hobject : Paired w (⟨[⟨x, y, none⟩], [], []⟩ :: Γ) object object' (⟨[⟨x, y, none⟩], [], []⟩ :: Γ)) :
    Reaches w Γ (.property x objectSpan property, object ++ keepAs span x)
      (.property y objectSpan property, object' ++ keepAs span y)
      (⟨[⟨x, y, none⟩], [⟨x, y, none⟩], []⟩ :: Γ) (⟨[⟨x, y, none⟩], [⟨x, y, none⟩], []⟩ :: Γ) [] := by
  have htidy : Tidy [⟨x, y, none⟩] := by
    refine ⟨?_, ?_, ?_, ?_⟩
    · simpa using hx
    · simpa [Keep.names] using hy
    · simp
    · simp
  have hmem : (⟨x, y, none⟩ : Keep) ∈ [(⟨x, y, none⟩ : Keep)] := List.mem_cons_self
  have hkeep := hobject.append (paired_keepAs span hmem)
  have hload : ∀ place : Span, Paired w (⟨[⟨x, y, none⟩], [⟨x, y, none⟩], []⟩ :: Γ)
      ((Target.property x objectSpan property).load place) ((Target.property y objectSpan property).load place)
      (⟨[⟨x, y, none⟩], [⟨x, y, none⟩], []⟩ :: Γ) := fun place =>
    (paired_kept (k := ⟨x, y, none⟩) hmem hmem).append (.step _ _ trivial)
  have hsave : ∀ place : Span, Paired w (⟨[⟨x, y, none⟩], [⟨x, y, none⟩], []⟩ :: Γ)
      ((Target.property x objectSpan property).save place) ((Target.property y objectSpan property).save place)
      (⟨[⟨x, y, none⟩], [⟨x, y, none⟩], []⟩ :: Γ) := fun place =>
    (paired_kept (k := ⟨x, y, none⟩) hmem hmem).append (.step _ _ trivial)
  simpa using reaches_hidden (.property x objectSpan property) (.property y objectSpan property) [] htidy hkeep hload hload hsave
    nofun nofun

/-- A target by key whose operands are kept. -/
theorem reaches_element {object object' key key' : Code} {objectSpan keySpan : Span} {k₁ k₂ : Keep}
    (htidy : Tidy [k₁, k₂])
    (hobject : Paired w (⟨[k₁, k₂], [], []⟩ :: Γ) object object' (⟨[k₁, k₂], [], []⟩ :: Γ))
    (hkey : Paired w (⟨[k₁, k₂], [k₁], []⟩ :: Γ) key key' (⟨[k₁, k₂], [k₁], []⟩ :: Γ)) :
    Reaches w Γ (.element k₁.dotted objectSpan k₂.dotted keySpan,
        object ++ keepAs span k₁.dotted ++ key ++ keepAs span k₂.dotted)
      (.element k₁.bracketed objectSpan k₂.bracketed keySpan,
        object' ++ keepAs span k₁.bracketed ++ key' ++ keepAs span k₂.bracketed)
      (⟨[k₁, k₂], [k₂, k₁], []⟩ :: Γ) (⟨[k₁, k₂], [k₂, k₁], []⟩ :: Γ) [] := by
  have hmem₁ : k₁ ∈ [k₁, k₂] := List.mem_cons_self
  have hmem₂ : k₂ ∈ [k₁, k₂] := List.mem_cons_of_mem _ List.mem_cons_self
  have hkeep := ((hobject.append (paired_keepAs span hmem₁)).append hkey).append
    (paired_keepAs span hmem₂)
  have hoperands : ∀ place place' : Span, Paired w (⟨[k₁, k₂], [k₂, k₁], []⟩ :: Γ)
      (emit place [.fetch k₁.dotted] ++ emit place' [.fetch k₂.dotted])
      (emit place [.fetch k₁.bracketed] ++ emit place' [.fetch k₂.bracketed]) (⟨[k₁, k₂], [k₂, k₁], []⟩ :: Γ) :=
    fun place place' => (paired_kept hmem₁ (List.mem_cons_of_mem _ List.mem_cons_self)).append
      (paired_kept hmem₂ List.mem_cons_self)
  have huse : ∀ (place : Span) (op : Opcode), Neutral w (⟨[k₁, k₂], [k₂, k₁], []⟩ :: Γ) op →
      Paired w (⟨[k₁, k₂], [k₂, k₁], []⟩ :: Γ)
        (emit (place.refine objectSpan) [.fetch k₁.dotted] ++ emit (place.refine keySpan) [.fetch k₂.dotted]
          ++ emit place [op])
        (emit (place.refine objectSpan) [.fetch k₁.bracketed] ++ emit (place.refine keySpan) [.fetch k₂.bracketed]
          ++ emit place [op]) (⟨[k₁, k₂], [k₂, k₁], []⟩ :: Γ) := fun place op hop =>
    (hoperands _ _).append (.same _ _ (by simpa using hop))
  have hload := fun place => huse place (.fetchProperty indexer) trivial
  simpa using reaches_hidden (.element k₁.dotted objectSpan k₂.dotted keySpan)
    (.element k₁.bracketed objectSpan k₂.bracketed keySpan) [] htidy hkeep hload hload
    (fun place => huse place (.storeProperty indexer) trivial) nofun nofun

/-- A target by name, beside one by a key that is kept as well. -/
theorem reaches_key {object object' : Code} {objectSpan keySpan place : Span} {k : Keep} {slot property : String} {n : Nat}
    (htidy : Tidy [k]) (hk : k.key = some (slot, property)) (hn : w.bracketed.constants[n]? = some (.string property))
    (hobject : Paired w (⟨[k], [], []⟩ :: Γ) object object' (⟨[k], [], []⟩ :: Γ)) :
    Reaches w Γ (.property k.dotted objectSpan property, object ++ keepAs span k.dotted)
      (.element k.bracketed objectSpan slot keySpan,
        object' ++ keepAs span k.bracketed ++ [⟨.const n, place, false⟩] ++ keepAs span slot)
      (⟨[k], [k], []⟩ :: Γ) (⟨[k], [k], [k]⟩ :: Γ) ([⟨.const n, place, false⟩] ++ keepAs span slot) := by
  have hmem : k ∈ [k] := List.mem_cons_self
  have hkeep := hobject.append (paired_keepAs span hmem)
  simpa using reaches_hidden (.property k.dotted objectSpan property) (.element k.bracketed objectSpan slot keySpan)
    ([⟨.const n, place, false⟩] ++ keepAs span slot) htidy hkeep
    (fun _ => (Paired.one (.keepKey hmem hmem hk hn)).append (.one (.keptProperty hmem List.mem_cons_self hk)))
    (fun _ => (paired_kept hmem hmem).append (.one (.keptProperty hmem List.mem_cons_self hk)))
    (fun _ => (paired_kept hmem hmem).append (.one (.setKeptProperty hmem List.mem_cons_self hk))) nofun nofun

/-! ### Expressions -/

theorem alongside_badTarget (message : String) :
    Alongside w (Codes Γ Γ) (do report span message; constant span .undefined)
      (do report span message; constant span .undefined) :=
  (alongside_report message).bind fun _ _ _ _ _ => alongside_constant Γ .undefined

/-- Hidden names of two operands do not clash. -/
theorem tidy_pair {n₁ n₂ n₁' n₂' : Nat} (h : n₁ < n₂) (h' : n₁' < n₂') :
    Tidy [⟨operandName n₁, operandName n₁', none⟩, ⟨operandName n₂, operandName n₂', none⟩] := by
  have hne : operandName n₁ ≠ operandName n₂ := fun he => Nat.ne_of_lt h (operandName_inj he)
  have hne' : operandName n₁' ≠ operandName n₂' := fun he => Nat.ne_of_lt h' (operandName_inj he)
  refine ⟨?_, ?_, ?_, ?_⟩
  · simp [IsOperand]
  · simp [IsOperand, Keep.names]
  · simp
  · simp [Keep.names, hne, hne', hne.symm, hne'.symm]

/-- Hidden names of an operand and of a key do not clash. -/
theorem tidy_key {n n' slot : Nat} {property : String} (h : n' < slot) (hp : property ≠ indexer) :
    Tidy [⟨operandName n, operandName n', some (operandName slot, property)⟩] := by
  have hne : operandName slot ≠ operandName n' := fun he => Nat.ne_of_gt h (operandName_inj he)
  refine ⟨?_, ?_, ?_, ?_⟩
  · simp [IsOperand]
  · simp [IsOperand, Keep.names]
  · simp [hne, hp]
  · simp

/-- Code with an access by a key that is a constant, once there is code for what is accessed. -/
theorem alongside_keyed {x y : Gen Code} {own : Span} {name : String} {f : Code → Code} {g : Code → Code → Code}
    (hx : Alongside w (Codes Γ Γ) x y)
    (hf : ∀ {w' c c' n place}, Paired w' Γ c c' Γ → w'.bracketed.constants[n]? = some (.string name) →
      Paired w' Γ (f c) (g c' [⟨.const n, place, false⟩]) Γ) :
    Alongside w (Codes Γ Γ) (do return f (← x))
      (do let c ← y
          let code ← expr span (.node own (.string name))
          return g c code) :=
  hx.bind fun _ _ _ _ hc => (ahead_key own name).bind fun _ _ hw' ⟨_, _, hcode, hn⟩ =>
    alongside_pure (hcode ▸ hf (hc.mono hw') hn)

/-- Two operands that are kept for an access by a key that is computed. -/
theorem alongside_elementTarget {object key : Expr} (hname : key.name? = none)
    (hobject : ∀ w Γ, Alongside w (Codes Γ Γ) (expr span object.dotted) (expr span object))
    (hkey : ∀ w Γ, Alongside w (Codes Γ Γ) (expr span key.dotted) (expr span key)) :
    Alongside w (Targets Γ) (target span (ExprKind.index object key).dotted) (target span (.index object key)) := by
  simp only [ExprKind.dotted, hname, target, Expr.span_dotted]
  refine alongside_newParked.bind fun w₁ x y _ hnames => ?_
  obtain ⟨hx, hy, hlt, hlt'⟩ := hnames
  -- the scope is opened before the second name is made, so the name is read off the draft that comes next
  let k₁ : Keep := ⟨x, y, none⟩
  let k₂ : Keep := ⟨operandName (expr span object.dotted w₁.dotted).2.parked,
    operandName (expr span object w₁.bracketed).2.parked, none⟩
  refine (hobject w₁ (⟨[k₁, k₂], [], []⟩ :: Γ)).bindAt
    fun w₂ hdotted hbracketed hw₂ hc => alongside_newParked.bind fun w₃ x' y' hw₃ hnames' => ?_
  obtain ⟨hx', hy', -, -⟩ := hnames'
  refine (hkey w₃ (⟨[k₁, k₂], [k₁], []⟩ :: Γ)).bind fun w₄ _ _ hw₄ hc' => alongside_pure ?_
  have htidy : Tidy [k₁, k₂] := by
    simp only [k₁, k₂, hx, hy, ← hdotted, ← hbracketed]
    exact tidy_pair (Nat.lt_of_lt_of_le hlt hw₂.parked.1) (Nat.lt_of_lt_of_le hlt' hw₂.parked.2)
  have hk₂ : k₂.dotted = x' ∧ k₂.bracketed = y' := by
    simp only [k₂, ← hdotted, ← hbracketed, hx', hy', and_self]
  rw [← hk₂.1, ← hk₂.2]
  exact .some (reaches_element htidy (hc.mono (hw₃.trans hw₄)) hc')

/-- An operand that is kept for an access by name, and a key as well for the access by the key. -/
theorem alongside_keyTarget {object : Expr} {own : Span} {name : String} (hname : name ≠ indexer)
    (hobject : ∀ w Γ, Alongside w (Codes Γ Γ) (expr span object.dotted) (expr span object)) :
    Alongside w (Targets Γ) (target span (.member object.dotted name))
      (target span (.index object (.node own (.string name)))) := by
  simp only [target, Expr.span_dotted]
  refine alongside_newParked.bind fun w₁ x y _ ⟨hx, hy, _, hlt'⟩ => ?_
  let k : Keep := ⟨x, y, some (operandName (expr span object w₁.bracketed).2.parked, name)⟩
  refine (hobject w₁ (⟨[k], [], []⟩ :: Γ)).bindAt
    fun w₂ _ hbracketed hw₂ hc => ahead_newParked.bind fun w₃ slot hw₃ hslot => ?_
  refine (ahead_key own name).bind fun w₄ code hw₄ ⟨n, place, hcode, hn⟩ => alongside_pure ?_
  subst hcode
  have htidy : Tidy [k] := by
    simp only [k, hx, hy, ← hbracketed]
    exact tidy_key (Nat.lt_of_lt_of_le hlt' hw₂.parked.2) hname
  have hk : k.key = some (slot, name) := by simp only [k, ← hbracketed, hslot]
  exact .some (reaches_key htidy hk hn (hc.mono (hw₃.trans hw₄)))

/-! ### Surroundings -/

/-- The labels of the loops around a statement stand outside of hidden scopes. -/
def Known (w : Ledger) (contexts : List Context) : Prop :=
  ∀ continueTo breakTo, .loop continueTo breakTo ∈ contexts →
    w.labels[continueTo]? = some [] ∧ w.labels[breakTo]? = some []

namespace Known

variable {c : Context} {contexts : List Context}

theorem mono (h : Known w contexts) (hw : w.Grows w') : Known w' contexts := fun a b hmem =>
  (h a b hmem).imp hw.labels hw.labels

theorem tail (h : Known w (c :: contexts)) : Known w contexts := fun a b hmem =>
  h a b (List.mem_cons_of_mem _ hmem)

theorem loop {continueTo breakTo : Nat} (h : Known w contexts) (hc : w.labels[continueTo]? = some [])
    (hb : w.labels[breakTo]? = some []) : Known w (.loop continueTo breakTo :: contexts) := fun a b hmem => by
  rcases List.mem_cons.1 hmem with he | hmem
  · cases he
    exact ⟨hc, hb⟩
  · exact h a b hmem

theorem region {final : Option (List Stmt)} (h : Known w contexts) : Known w (.region final :: contexts) :=
  fun a b hmem => h a b ((List.mem_cons.1 hmem).resolve_left nofun)

theorem pendingThrow (h : Known w contexts) : Known w (.pendingThrow :: contexts) :=
  fun a b hmem => h a b ((List.mem_cons.1 hmem).resolve_left nofun)

end Known

/-- The innermost loop is one of those around a statement. -/
theorem loop_mem_of_innermostLoop? {contexts : List Context} {n continueTo breakTo : Nat}
    (h : innermostLoop? contexts = some (n, continueTo, breakTo)) : .loop continueTo breakTo ∈ contexts := by
  induction contexts generalizing n with
  | nil => cases h
  | cons c rest ih =>
    cases c with
    | loop => cases h; exact List.mem_cons_self
    | region | pendingThrow =>
      obtain ⟨⟨n', labels⟩, hrest, he⟩ := Option.map_eq_some_iff.1 h
      cases he
      exact List.mem_cons_of_mem _ (ih hrest)

/-! ### The generator -/

mutual

theorem alongside_expr (outer : Span) : ∀ e w Γ, Every (·.SparesOperands) e.nodes →
    Alongside w (Codes Γ Γ) (expr outer e.dotted) (expr outer e)
  | .node own k, w, Γ, h => by
    rw [Expr.nodes] at h
    rw [Expr.dotted, expr, expr]
    exact alongside_kind (outer.refine own) k w Γ h
termination_by e => 2 * sizeOf e

theorem alongside_kind (span : Span) : ∀ k w Γ, Every (·.SparesOperands) (.expr k :: k.parts) →
    Alongside w (Codes Γ Γ) (exprKind span k.dotted) (exprKind span k)
  | .undefined, _, Γ, _ | .null, _, Γ, _ | .bool _, _, Γ, _ | .number _, _, Γ, _ | .string _, _, Γ, _ => by
    simp only [ExprKind.dotted, exprKind]
    exact alongside_constant Γ _
  | .regex source, w, Γ, _ => by
    simp only [ExprKind.dotted, exprKind]
    cases Pattern.compile source with
    | ok pattern => exact alongside_constant Γ (.regex pattern)
    | error refusal => exact alongside_badTarget _
  | .array items, w, Γ, h => by
    simp only [ExprKind.dotted, exprKind, length_exprsDotted]
    exact (alongside_exprs span items w Γ h.tail).bind fun _ _ _ _ hc =>
      alongside_pure (hc.append (.step span _ trivial))
  | .record fields, w, Γ, h => by
    simp only [ExprKind.dotted, exprKind, fst_fieldsDotted]
    exact (alongside_fields span fields w Γ h.tail).bind fun _ _ _ _ hc =>
      alongside_pure (hc.append (.step span _ trivial))
  | .ident name, w, Γ, h => by
    simp only [ExprKind.dotted, exprKind]
    have hname : ¬ IsOperand name := h.head
    exact alongside_pure (.step span _ (.inr hname))
  | .this, w, Γ, _ => by
    have hthis : ¬ IsOperand thisName := not_isOperand_of_not_reserved (by decide)
    simp only [ExprKind.dotted, exprKind]
    exact alongside_pure (.step span _ (.inr hthis))
  | .member object property, w, Γ, h => by
    simp only [ExprKind.dotted, exprKind]
    exact (alongside_expr span object w Γ h.tail).bind fun _ _ _ _ hc =>
      alongside_pure (hc.append (.step span _ trivial))
  | .index object key, w, Γ, h => by
    have hobject := alongside_expr span object w Γ h.tail.left
    cases hkey : key.name? with
    | none =>
      simp only [ExprKind.dotted, hkey, exprKind]
      exact hobject.bind fun w₁ _ _ _ hc => (alongside_expr span key w₁ Γ h.tail.right).bind fun _ _ _ hw₂ hc₂ =>
        alongside_pure (((hc.mono hw₂).append hc₂).append (.step span _ trivial))
    | some name =>
      obtain ⟨own, rfl, hname⟩ := Expr.name?_eq_some hkey
      simp only [ExprKind.dotted, hkey, exprKind]
      exact alongside_keyed hobject fun hc hn => by simpa [emit] using hc.append (.one (.property hname hn))
  | .not operand, w, Γ, h => by
    simp only [ExprKind.dotted, exprKind]
    refine .onLabel Γ fun w₁ l _ hlabel => .onLabel Γ fun w₂ l' hw₂ hlabel' =>
      (alongside_expr span operand w₂ Γ h.tail).bind
      fun w₃ _ _ hw₃ hc => (alongside_constant Γ _).bind fun w₄ _ _ hw₄ hy => (alongside_constant Γ _).bind
      fun w₅ _ _ hw₅ hn => alongside_pure ?_
    have hlabels : w₅.labels[l]? = some Γ ∧ w₅.labels[l']? = some Γ :=
      ⟨hw₅.labels (hw₄.labels (hw₃.labels (hw₂.labels hlabel))), hw₅.labels (hw₄.labels (hw₃.labels hlabel'))⟩
    exact Paired.branches _ hlabels.1 hlabels.1 hlabels.2 (hc.mono (hw₄.trans hw₅)) (hy.mono hw₅) hn
  | .negate operand, w, Γ, h => by
    simp only [ExprKind.dotted, exprKind]
    exact (alongside_constant Γ _).bind fun w₁ _ _ _ hz => (alongside_expr span operand w₁ Γ h.tail).bind
      fun _ _ _ hw₂ hc => alongside_pure (((hz.mono hw₂).append hc).append (.step span _ trivial))
  | .update op giveNew (.node own k), w, Γ, h => by
    simp only [ExprKind.dotted, Expr.dotted, exprKind]
    refine (alongside_target span k w Γ h.tail).bind fun w₁ t t' _ ht => ?_
    cases ht with
    | none => exact alongside_badTarget _
    | @some t t' Γ₀ Γ₁ extra ht =>
      refine (alongside_constant Γ₁ .one).bind fun w₂ one one' hw₂ hone => alongside_pure ?_
      have ht₂ := ht.mono hw₂
      have hchange : Paired w₂ Γ₁ (one ++ emit span [.binary (updateOp op)] ++ t.1.save span)
          (one' ++ emit span [.binary (updateOp op)] ++ t'.1.save span) Γ₁ :=
        (hone.append (.step span (.binary (updateOp op)) trivial)).append (ht₂.save span)
      refine ht₂.around (.refl w₂) span ?_
      have hfirst := ht₂.first (span.refine own)
      have hload := ht₂.load (span.refine own)
      cases giveNew with
      | true => simpa using (hfirst.append hchange).append hload
      | false => simpa using (hfirst.append hload).append hchange
  | .binary op left right, w, Γ, h => by
    simp only [ExprKind.dotted, exprKind]
    exact (alongside_expr span left w Γ h.tail.left).bind fun w₁ _ _ _ hl =>
      (alongside_expr span right w₁ Γ h.tail.right).bind fun _ _ _ hw₂ hr =>
        alongside_pure (((hl.mono hw₂).append hr).append (.step span _ trivial))
  | .logical op left right, w, Γ, h => by
    simp only [ExprKind.dotted, exprKind]
    refine .onLabel Γ fun w₁ l _ hlabel => .onLabel Γ fun w₂ l' hw₂ hlabel' =>
      (alongside_expr span left w₂ Γ h.tail.left).bind
      fun w₃ _ _ hw₃ hc => (alongside_expr span right w₃ Γ h.tail.right).bind fun w₄ _ _ hw₄ hc' => ?_
    have hlabels : ∀ {w₅ : Ledger}, w₄.Grows w₅ → w₅.labels[l]? = some Γ ∧ w₅.labels[l']? = some Γ := fun hw₅ =>
      ⟨hw₅.labels (hw₄.labels (hw₃.labels (hw₂.labels hlabel))), hw₅.labels (hw₄.labels (hw₃.labels hlabel'))⟩
    cases op with
    | and | or =>
      refine (alongside_constant Γ _).bind fun w₅ _ _ hw₅ ho => alongside_pure ?_
      exact Paired.branches _ (hlabels hw₅).1 (hlabels hw₅).1 (hlabels hw₅).2 (hc.mono (hw₄.trans hw₅)) (hc'.mono hw₅) ho
  | .assign (some op) (.node own k) value, w, Γ, h => by
    simp only [ExprKind.dotted, Expr.dotted, exprKind]
    refine (alongside_target span k w Γ h.tail.left).bind fun w₁ t t' _ ht => ?_
    cases ht with
    | none => exact alongside_badTarget _
    | @some t t' Γ₀ Γ₁ extra ht =>
      refine (alongside_expr span value w₁ Γ₁ h.tail.right).bind fun w₂ _ _ hw₂ hv => alongside_pure ?_
      have ht₂ := ht.mono hw₂
      refine ht₂.around (.refl w₂) span ?_
      have huses := (((ht₂.first (span.refine own)).append hv).append
        (.steps span (.binary op) .dup trivial trivial)).append (ht₂.save span)
      simpa using huses
  | .assign none (.node own k) value, w, Γ, h => by
    simp only [ExprKind.dotted, Expr.dotted, exprKind, ExprKind.isAssignable_dotted]
    split
    · exact (alongside_expr span value w Γ h.tail.right).bind fun w₁ _ _ _ hv =>
        (alongside_save span k w₁ Γ h.tail.left).bind fun _ _ _ hw₂ hs =>
          alongside_pure (((hv.mono hw₂).append (.step span .dup trivial)).append hs)
    · exact alongside_badTarget _
  | .conditional test yes no, w, Γ, h => by
    simp only [ExprKind.dotted, exprKind]
    refine .onLabel Γ fun w₁ l _ hlabel => .onLabel Γ fun w₂ l' hw₂ hlabel' =>
      (alongside_expr span test w₂ Γ h.tail.left.left).bind
      fun w₃ _ _ hw₃ ht => (alongside_expr span yes w₃ Γ h.tail.left.right).bind fun w₄ _ _ hw₄ hy =>
      (alongside_expr span no w₄ Γ h.tail.right).bind fun w₅ _ _ hw₅ hn => alongside_pure ?_
    have hlabels : w₅.labels[l]? = some Γ ∧ w₅.labels[l']? = some Γ :=
      ⟨hw₅.labels (hw₄.labels (hw₃.labels (hw₂.labels hlabel))), hw₅.labels (hw₄.labels (hw₃.labels hlabel'))⟩
    exact Paired.branches _ hlabels.1 hlabels.1 hlabels.2 (ht.mono (hw₄.trans hw₅)) (hy.mono hw₅) hn
  | .call callee args, w, Γ, h => by
    simp only [ExprKind.dotted, exprKind, length_exprsDotted]
    exact (alongside_exprs span args w Γ h.tail.right).bind fun w₁ _ _ _ ha =>
      (alongside_callee span args.length callee w₁ Γ h.tail.left).bind fun _ _ _ hw₂ hc =>
        alongside_pure ((ha.mono hw₂).append hc)
  | .new className args, w, Γ, h => by
    simp only [ExprKind.dotted, exprKind, length_exprsDotted]
    exact (alongside_exprs span args w Γ h.tail).bind fun _ _ _ _ ha =>
      alongside_pure (ha.append (.step span _ trivial))
  | .function name params body, w, Γ, h => by
    have hname : name ≠ some "parked" := h.head
    simp only [ExprKind.dotted, exprKind]
    exact alongside_newLambda.onSame fun w₁ number _ =>
      (alongside_function span (lambdaName name number) params .function body w₁ h.tail).bind fun _ _ _ _ _ =>
        alongside_pure (.step span _ (.inr (not_isOperand_lambdaName hname number)))
termination_by k => 2 * sizeOf k

theorem alongside_exprs (span : Span) : ∀ es w Γ, Every (·.SparesOperands) (exprsNodes es) →
    Alongside w (Codes Γ Γ) (exprs span (exprsDotted es)) (exprs span es)
  | [], _, _, _ => by
    simp only [exprsDotted, exprs]
    exact alongside_pure .nil
  | e :: rest, w, Γ, h => by
    simp only [exprsDotted, exprs]
    exact (alongside_expr span e w Γ h.left).bind fun w₁ _ _ _ hc =>
      (alongside_exprs span rest w₁ Γ h.right).bind fun _ _ _ hw₂ hr => alongside_pure ((hc.mono hw₂).append hr)
termination_by es => 2 * sizeOf es

theorem alongside_fields (span : Span) : ∀ fields w Γ, Every (·.SparesOperands) (fieldsNodes fields) →
    Alongside w (Codes Γ Γ) (fieldValues span (fieldsDotted fields)) (fieldValues span fields)
  | [], _, _, _ => by
    simp only [fieldsDotted, fieldValues]
    exact alongside_pure .nil
  | (_, e) :: rest, w, Γ, h => by
    simp only [fieldsDotted, fieldValues]
    exact (alongside_expr span e w Γ h.left).bind fun w₁ _ _ _ hc =>
      (alongside_fields span rest w₁ Γ h.right).bind fun _ _ _ hw₂ hr => alongside_pure ((hc.mono hw₂).append hr)
termination_by fields => 2 * sizeOf fields

theorem alongside_exprThen (span : Span) (after : List Opcode) : ∀ e w, Every (·.SparesOperands) (exprOptionNodes e) →
    (∀ w', w.Grows w' → ∀ op ∈ after, Neutral w' [] op) →
    Alongside w (Codes [] []) (exprThen span after (exprOptionDotted e)) (exprThen span after e)
  | none, _, _, _ => by
    simp only [exprOptionDotted, exprThen]
    exact alongside_pure .nil
  | some e, w, h, hafter => by
    simp only [exprOptionDotted, exprThen]
    exact (alongside_expr span e w [] h).bind fun w₁ _ _ hw₁ hc =>
      alongside_pure (hc.append (.same span after (hafter w₁ hw₁)))
termination_by e => 2 * sizeOf e

theorem alongside_target (span : Span) : ∀ k w Γ, Every (·.SparesOperands) (.expr k :: k.parts) →
    Alongside w (Targets Γ) (target span k.dotted) (target span k)
  | .ident name, w, Γ, h => by
    have hname : ¬ IsOperand name := h.head
    simp only [ExprKind.dotted, target]
    exact alongside_pure (.some (reaches_plain hname))
  | .member object property, w, Γ, h => by
    simp only [ExprKind.dotted, target, Expr.span_dotted]
    refine alongside_newParked.bind fun w₁ x y _ ⟨hx, hy, _, _⟩ => ?_
    exact (alongside_expr span object w₁ (⟨[⟨x, y, none⟩], [], []⟩ :: Γ) h.tail).bind fun _ _ _ _ hc =>
      alongside_pure (.some (reaches_property ⟨_, hx⟩ ⟨_, hy⟩ hc))
  | .index object key, w, Γ, h => by
    cases hkey : key.name? with
    | none =>
      exact alongside_elementTarget hkey (fun w Γ => alongside_expr span object w Γ h.tail.left)
        fun w Γ => alongside_expr span key w Γ h.tail.right
    | some name =>
      obtain ⟨own, rfl, hname⟩ := Expr.name?_eq_some hkey
      simp only [ExprKind.dotted, hkey]
      exact alongside_keyTarget hname fun w Γ => alongside_expr span object w Γ h.tail.left
  | .undefined, _, _, _ | .null, _, _, _ | .bool _, _, _, _ | .number _, _, _, _ | .string _, _, _, _
  | .regex _, _, _, _ | .array _, _, _, _ | .record _, _, _, _ | .this, _, _, _ | .not _, _, _, _
  | .negate _, _, _, _ | .update _ _ _, _, _, _ | .binary _ _ _, _, _, _ | .logical _ _ _, _, _, _
  | .assign _ _ _, _, _, _ | .conditional _ _ _, _, _, _ | .call _ _, _, _, _ | .new _ _, _, _, _
  | .function _ _ _, _, _, _ => by
    simp only [ExprKind.dotted, target]
    exact alongside_pure .none
termination_by k => 2 * sizeOf k

theorem alongside_save (span : Span) : ∀ k w Γ, Every (·.SparesOperands) (.expr k :: k.parts) →
    Alongside w (Codes Γ Γ) (storeTo span k.dotted) (storeTo span k)
  | .ident name, w, Γ, h => by
    have hname : ¬ IsOperand name := h.head
    simp only [ExprKind.dotted, storeTo]
    exact alongside_pure (.step span _ (.inr hname))
  | .member object property, w, Γ, h => by
    simp only [ExprKind.dotted, storeTo]
    exact (alongside_expr span object w Γ h.tail).bind fun _ _ _ _ hc =>
      alongside_pure (hc.append (.step span _ trivial))
  | .index object key, w, Γ, h => by
    have hobject := alongside_expr span object w Γ h.tail.left
    cases hkey : key.name? with
    | none =>
      simp only [ExprKind.dotted, hkey, storeTo]
      exact hobject.bind fun w₁ _ _ _ hc => (alongside_expr span key w₁ Γ h.tail.right).bind fun _ _ _ hw₂ hc₂ =>
        alongside_pure (((hc.mono hw₂).append hc₂).append (.step span _ trivial))
    | some name =>
      obtain ⟨own, rfl, hname⟩ := Expr.name?_eq_some hkey
      simp only [ExprKind.dotted, hkey, storeTo]
      exact alongside_keyed hobject fun hc hn => by simpa [emit] using hc.append (.one (.setProperty hname hn))
  | .undefined, _, _, _ | .null, _, _, _ | .bool _, _, _, _ | .number _, _, _, _ | .string _, _, _, _
  | .regex _, _, _, _ | .array _, _, _, _ | .record _, _, _, _ | .this, _, _, _ | .not _, _, _, _
  | .negate _, _, _, _ | .update _ _ _, _, _, _ | .binary _ _ _, _, _, _ | .logical _ _ _, _, _, _
  | .assign _ _ _, _, _, _ | .conditional _ _ _, _, _, _ | .call _ _, _, _, _ | .new _ _, _, _, _
  | .function _ _ _, _, _, _ => by
    simp only [ExprKind.dotted, storeTo]
    exact alongside_pure .nil
termination_by k => 2 * sizeOf k

theorem alongside_callee (span : Span) (argc : Nat) : ∀ e w Γ, Every (·.SparesOperands) e.nodes →
    Alongside w (Codes Γ Γ) (calleeCode span argc e.dotted) (calleeCode span argc e)
  | .node own k, w, Γ, h => by
    rw [Expr.nodes] at h
    rw [Expr.dotted]
    have hother := alongside_kind (span.refine own) k w Γ h
    cases k with
    | member object property =>
      simp only [ExprKind.dotted, calleeCode]
      exact (alongside_expr span object w Γ h.tail).bind fun _ _ _ _ hc =>
        alongside_pure (hc.append (.same _ _ (by simp [Neutral])))
    | index object key =>
      have hobject := alongside_expr span object w Γ h.tail.left
      cases hkey : key.name? with
      | none =>
        simp only [ExprKind.dotted, hkey, calleeCode]
        exact hobject.bind fun w₁ _ _ _ hc => (alongside_expr span key w₁ Γ h.tail.right).bind fun _ _ _ hw₂ hc₂ =>
          alongside_pure ((((hc.mono hw₂).append (.step span .dup trivial)).append hc₂).append
            (.steps span (.fetchProperty indexer) (.call argc true) trivial trivial))
      | some name =>
        obtain ⟨place, rfl, hname⟩ := Expr.name?_eq_some hkey
        simp only [ExprKind.dotted, hkey, calleeCode]
        refine alongside_keyed hobject fun {w' _ _ n at'} hc hn => ?_
        have haccess : Paired w' Γ (emit span [.fetchProperty name])
            ([⟨.const n, at', false⟩] ++ emit span [.fetchProperty indexer]) Γ := .one (.property hname hn)
        have hcode := ((hc.append (.step span .dup trivial)).append haccess).append (.step span (.call argc true) trivial)
        simpa [emit] using hcode
    | _ =>
      simp only [ExprKind.dotted, calleeCode] at hother ⊢
      exact hother.bind fun _ _ _ _ hc => alongside_pure (hc.append (.step span _ trivial))
termination_by e => 2 * sizeOf e

theorem alongside_function (span : Span) (name : String) (params : List String) (kind : BodyKind) (ss : List Stmt)
    (w : Ledger) (h : Every (·.SparesOperands) (stmtsNodes ss)) :
    Alongside w Same (function span name params kind (stmtsDotted ss)) (function span name params kind ss) := by
  rw [function, function]
  refine (alongside_openBody name params).onSame fun w₁ index _ =>
    (alongside_stmts { body := kind } ss w₁ nofun (h.append .nil)).bind fun w₂ _ _ _ hc =>
    (alongside_finish kind hc).bind fun w₃ _ _ _ ⟨hf, hret⟩ =>
    (alongside_closeBody index hf hret).bind fun _ _ _ _ _ => alongside_pure rfl
termination_by 2 * sizeOf ss + 1
decreasing_by simp [Surroundings.weight, weight]

theorem alongside_methods (span : Span) (className : String) : ∀ ms w, Every (·.SparesOperands) (methodsNodes ms) →
    Alongside w Same (methods span className (methodsDotted ms)) (methods span className ms)
  | [], _, _ => by
    simp only [methodsDotted, methods]
    exact alongside_pure rfl
  | .node name params body :: rest, w, h => by
    simp only [methodsDotted, methods]
    exact (alongside_function span _ params (methodKind name) body w h.left).onSame fun w₁ index _ =>
      (alongside_methods span className rest w₁ h.right).onSame fun _ _ _ => alongside_pure rfl
termination_by ms => 2 * sizeOf ms

theorem alongside_stmt (around : Surroundings) : ∀ s w, Known w around.contexts →
    Every (·.SparesOperands) (s.nodes ++ contextNodes around.contexts) →
    Alongside w (Codes [] []) (stmt around.dotted s.dotted) (stmt around s)
  | .node span k, w, hl, h => by
    rw [Stmt.nodes] at h
    rw [Stmt.dotted, stmt, stmt]
    exact (alongside_stmtKind around span k w hl h).bind fun _ _ _ _ hc => alongside_pure hc.mark
termination_by s => 2 * sizeOf s + around.weight

theorem alongside_stmtOption (around : Surroundings) : ∀ s w, Known w around.contexts →
    Every (·.SparesOperands) (stmtOptionNodes s ++ contextNodes around.contexts) →
    Alongside w (Codes [] []) (stmtOption around.dotted (stmtOptionDotted s)) (stmtOption around s)
  | none, _, _, _ => by
    simp only [stmtOptionDotted, stmtOption]
    exact alongside_pure .nil
  | some s, w, hl, h => by
    simp only [stmtOptionDotted, stmtOption]
    exact alongside_stmt around s w hl h
termination_by s => 2 * sizeOf s + around.weight

theorem alongside_stmts (around : Surroundings) : ∀ ss w, Known w around.contexts →
    Every (·.SparesOperands) (stmtsNodes ss ++ contextNodes around.contexts) →
    Alongside w (Codes [] []) (stmts around.dotted (stmtsDotted ss)) (stmts around ss)
  | [], _, _, _ => by
    simp only [stmtsDotted, stmts]
    exact alongside_pure .nil
  | s :: rest, w, hl, h => by
    simp only [stmtsDotted, stmts]
    exact (alongside_stmt around s w hl (h.left.left.append h.right)).bind fun w₁ _ _ hw₁ hc =>
      (alongside_stmts around rest w₁ (hl.mono hw₁) (h.left.right.append h.right)).bind fun _ _ _ hw₂ hr =>
        alongside_pure ((hc.mono hw₂).append hr)
termination_by ss => 2 * sizeOf ss + around.weight

theorem alongside_stmtKind (around : Surroundings) (span : Span) : ∀ k w, Known w around.contexts →
    Every (·.SparesOperands) ((.stmt k :: k.parts) ++ contextNodes around.contexts) →
    Alongside w (Codes [] []) (stmtKind around.dotted span k.dotted) (stmtKind around span k)
  | .expr e, w, _, h => by
    simp only [StmtKind.dotted, stmtKind]
    exact (alongside_expr span e w [] h.left.tail).bind fun _ _ _ _ hc =>
      alongside_pure (hc.append (.step span _ trivial))
  | .var name init, w, _, h => by
    simp only [StmtKind.dotted, stmtKind]
    exact (alongside_exprThen span [.store name] init w h.left.tail (by simp [Neutral])).bind fun _ _ _ _ hc =>
      alongside_pure (.append (.step span _ rfl) hc)
  | .block ss, w, hl, h => by
    simp only [StmtKind.dotted, stmtKind]
    exact (alongside_stmts around ss w hl (h.left.tail.append h.right)).bind fun _ _ _ _ hc =>
      alongside_pure hc.inScope
  | .cond test yes no, w, hl, h => by
    have hparts := h.left.tail
    simp only [StmtKind.dotted, stmtKind]
    refine .onLabel [] fun w₁ l hw₁ hlabel => .onLabel [] fun w₂ l' hw₂ hlabel' =>
      (alongside_expr span test w₂ [] hparts.left.left).bind fun w₃ _ _ hw₃ ht =>
      (alongside_stmt around yes w₃ (hl.mono (hw₁.trans (hw₂.trans hw₃))) (hparts.left.right.append h.right)).bind
      fun w₄ _ _ hw₄ hy => (alongside_stmtOption around no w₄ (hl.mono (hw₁.trans (hw₂.trans (hw₃.trans hw₄))))
        (hparts.right.append h.right)).bind fun w₅ _ _ hw₅ hn => alongside_pure ?_
    have hlabels : w₅.labels[l]? = some [] ∧ w₅.labels[l']? = some [] :=
      ⟨hw₅.labels (hw₄.labels (hw₃.labels (hw₂.labels hlabel))), hw₅.labels (hw₄.labels (hw₃.labels hlabel'))⟩
    exact Paired.branches _ hlabels.1 hlabels.1 hlabels.2 (ht.mono (hw₄.trans hw₅)) (hy.mono hw₅) hn
  | .while test body, w, hl, h => by
    have hparts := h.left.tail
    simp only [StmtKind.dotted, stmtKind]
    refine .onLabel [] fun w₁ l hw₁ hlabel => .onLabel [] fun w₂ l' hw₂ hlabel' =>
      (alongside_expr span test w₂ [] hparts.left).bind fun w₃ _ _ hw₃ ht =>
      (alongside_stmt (around.inside (.loop l l')) body w₃ (.loop (hl.mono (hw₁.trans (hw₂.trans hw₃)))
        (hw₃.labels (hw₂.labels hlabel)) (hw₃.labels hlabel')) (hparts.right.append h.right)).bind
      fun w₄ _ _ hw₄ hb => alongside_pure ?_
    have hlabels : w₄.labels[l]? = some [] ∧ w₄.labels[l']? = some [] :=
      ⟨hw₄.labels (hw₃.labels (hw₂.labels hlabel)), hw₄.labels (hw₃.labels hlabel')⟩
    exact ((((Paired.steps span .loopStart (.label l) rfl hlabels.1).append (ht.mono hw₄)).append
      (.step span (.jumpFalse l') hlabels.2)).append hb).append
      (.same span [.jump l, .label l', .loopEnd] (by simp [Neutral, hlabels]))
  | .for init test update body, w, hl, h => by
    have hparts := h.left.tail
    simp only [StmtKind.dotted, stmtKind]
    refine .onLabel [] fun w₁ l hw₁ hlabel => .onLabel [] fun w₂ next hw₂ hnext =>
      .onLabel [] fun w₃ l' hw₃ hlabel' => ?_
    have hw₃' := hw₁.trans (hw₂.trans hw₃)
    refine (alongside_stmtOption around init w₃ (hl.mono hw₃') (hparts.left.left.left.append h.right)).bind
      fun w₄ _ _ hw₄ hi => ?_
    refine (alongside_exprThen span [.jumpFalse l'] test w₄ hparts.left.left.right
      (fun w' hw' => by simp [Neutral, hw'.labels (hw₄.labels hlabel')])).bind fun w₅ _ _ hw₅ ht => ?_
    have hw₅' := hw₄.trans hw₅
    refine (alongside_stmt (around.inside (.loop next l')) body w₅ (.loop (hl.mono (hw₃'.trans hw₅'))
        (hw₅'.labels (hw₃.labels hnext)) (hw₅'.labels hlabel')) (hparts.right.append h.right)).bind
      fun w₆ _ _ hw₆ hb => ?_
    refine (alongside_exprThen span [.pop] update w₆ hparts.left.right (by simp [Neutral])).bind
      fun w₇ _ _ hw₇ hu => alongside_pure ?_
    have hw₇' := hw₅'.trans (hw₆.trans hw₇)
    have hlabels : w₇.labels[l]? = some [] ∧ w₇.labels[next]? = some [] ∧ w₇.labels[l']? = some [] :=
      ⟨hw₇'.labels (hw₃.labels (hw₂.labels hlabel)), hw₇'.labels (hw₃.labels hnext), hw₇'.labels hlabel'⟩
    have hi' := hi.mono (hw₅.trans (hw₆.trans hw₇))
    exact ((((((hi'.append (.steps span .loopStart (.label l) rfl hlabels.1)).append
      (ht.mono (hw₆.trans hw₇))).append (hb.mono hw₇)).append (.step span (.label next) hlabels.2.1)).append
      hu).append (.same span [.jump l, .label l', .loopEnd] (by simp [Neutral, hlabels]))).inScope
  | .break, w, hl, h => by
    simp only [StmtKind.dotted, stmtKind, Surroundings.dotted, innermostLoop?_dotted]
    cases hloop : innermostLoop? around.contexts with
    | none => exact (alongside_report _).bind fun _ _ _ _ _ => alongside_pure .nil
    | some found =>
      obtain ⟨n, continueTo, breakTo⟩ := found
      refine (alongside_leave around.body span n around.contexts w hl h.right).bind fun w₁ _ _ hw₁ hc =>
        alongside_pure (hc.append (.same span [.loopExit breakTo] ?_))
      simp [Neutral, hw₁.labels (hl _ _ (loop_mem_of_innermostLoop? hloop)).2]
  | .continue, w, hl, h => by
    simp only [StmtKind.dotted, stmtKind, Surroundings.dotted, innermostLoop?_dotted]
    cases hloop : innermostLoop? around.contexts with
    | none => exact (alongside_report _).bind fun _ _ _ _ _ => alongside_pure .nil
    | some found =>
      obtain ⟨n, continueTo, breakTo⟩ := found
      refine (alongside_leave around.body span n around.contexts w hl h.right).bind fun w₁ _ _ hw₁ hc =>
        alongside_pure (hc.append (.same span [.loopExit continueTo] ?_))
      simp [Neutral, hw₁.labels (hl _ _ (loop_mem_of_innermostLoop? hloop)).1]
  | .ret value, w, hl, h => by
    simp only [StmtKind.dotted, stmtKind, Surroundings.dotted, List.isEmpty_map, List.length_map]
    split
    · exact (alongside_report _).bind fun _ _ _ _ _ => alongside_pure .nil
    · refine (alongside_returned around.body span value w h.left.tail).bind fun w₁ _ _ hw₁ hv => ?_
      split
      · exact alongside_pure (hv.append (.step span _ rfl))
      · refine (alongside_leave around.body span around.contexts.length around.contexts w₁ (hl.mono hw₁) h.right).bind
          fun w₂ _ _ hw₂ hc => alongside_pure ?_
        exact (((hv.mono hw₂).append (.steps span (.declare returnSlot) (.store returnSlot) rfl (.inl rfl))).append
          hc).append (.steps span (.fetch returnSlot) .ret (.inl rfl) rfl)
  | .throw value, w, _, h => by
    simp only [StmtKind.dotted, stmtKind]
    exact (alongside_expr span value w [] h.left.tail).bind fun _ _ _ _ hc =>
      alongside_pure (hc.append (.step span _ trivial))
  | .try body handler final, w, hl, h => by
    have hparts := h.left.tail
    have hfinal := hparts.right.append h.right
    have hsome : ∀ l : Nat, ((finalDotted final).map fun _ => l) = final.map fun _ => l := fun l => by
      cases final <;> rfl
    simp only [StmtKind.dotted, stmtKind, hsome]
    refine .onLabel [] fun w₁ caught hw₁ hcaught => .onLabel [] fun w₂ rethrow hw₂ hrethrow =>
      .onLabel [] fun w₃ done hw₃ hdone => ?_
    have hw₃' := hw₁.trans (hw₂.trans hw₃)
    refine (alongside_stmts (around.inside (.region final)) body w₃ (hl.mono hw₃').region
      (hparts.left.left.append hfinal)).bind fun w₄ _ _ hw₄ hb => ?_
    refine (alongside_handler (around.inside (.region final)) span handler w₄ (hl.mono (hw₃'.trans hw₄)).region
      (hparts.left.right.append hfinal)).bind fun w₅ _ _ hw₅ hh => ?_
    have hw₅' := hw₄.trans hw₅
    refine (alongside_final (around.inside .pendingThrow) span final w₅ (hl.mono (hw₃'.trans hw₅')).pendingThrow
      hfinal).bind fun w₆ _ _ hw₆ hf => ?_
    refine (alongside_final around span final w₆ (hl.mono (hw₃'.trans (hw₅'.trans hw₆))) hfinal).bind
      fun w₇ _ _ hw₇ he => alongside_pure ?_
    have hw₇' := hw₅'.trans (hw₆.trans hw₇)
    have hlabels : w₇.labels[caught]? = some [] ∧ w₇.labels[rethrow]? = some [] ∧ w₇.labels[done]? = some [] :=
      ⟨hw₇'.labels (hw₃.labels (hw₂.labels hcaught)), hw₇'.labels (hw₃.labels hrethrow), hw₇'.labels hdone⟩
    have hstart : Neutral w₇ [] (.tryStart caught (final.map fun _ => rethrow) false) :=
      ⟨rfl, hlabels.1, fun l hl => by
        obtain ⟨_, _, rfl⟩ := Option.map_eq_some_iff.1 hl
        exact hlabels.2.1⟩
    have hbody := hb.mono (hw₅.trans (hw₆.trans hw₇))
    have hopened := (Paired.same span [_] (by simpa using hstart)).append (@Paired.inScope _ _ _ span hbody)
    have hcaught := ((hopened.append (.same span [.tryEnd, .jump done, .label caught, .tryStart rethrow none true]
      (by simp [Neutral, hlabels]))).append (hh.mono (hw₆.trans hw₇))).append
      (.same span [.tryEnd, .jump done, .label rethrow] (by simp [Neutral, hlabels]))
    exact ((hcaught.append (hf.mono hw₇)).append (.steps span .throw (.label done) trivial hlabels.2.2)).append he
  | .function name params ss, w, _, h => by
    simp only [StmtKind.dotted, stmtKind]
    exact (alongside_function span name params .function ss w h.left.tail).bind fun _ _ _ _ _ => alongside_pure .nil
  | .class name ms, w, _, h => by
    simp only [StmtKind.dotted, stmtKind]
    refine (alongside_classDeclared name).onSame fun w₁ declared _ => ?_
    split
    · exact (alongside_report _).bind fun _ _ _ _ _ => alongside_pure .nil
    · exact (alongside_methods span name ms w₁ h.left.tail).onSame fun w₂ indices _ =>
        (alongside_declareClass name indices).bind fun _ _ _ _ _ => alongside_pure .nil
  | .debugger, _, _, _ => by
    simp only [StmtKind.dotted, stmtKind]
    exact alongside_pure (.step span _ rfl)
  | .empty, _, _, _ => by
    simp only [StmtKind.dotted, stmtKind]
    exact alongside_pure .nil
termination_by k => 2 * sizeOf k + around.weight
decreasing_by
  all_goals
    simp only [Surroundings.weight, Surroundings.inside, weight, Context.weight,
      StmtKind.expr.sizeOf_spec, StmtKind.var.sizeOf_spec, StmtKind.block.sizeOf_spec,
      StmtKind.cond.sizeOf_spec, StmtKind.while.sizeOf_spec, StmtKind.for.sizeOf_spec,
      StmtKind.break.sizeOf_spec, StmtKind.continue.sizeOf_spec, StmtKind.ret.sizeOf_spec,
      StmtKind.throw.sizeOf_spec, StmtKind.try.sizeOf_spec, StmtKind.function.sizeOf_spec,
      StmtKind.class.sizeOf_spec]
    omega

theorem alongside_returned (kind : BodyKind) (span : Span) : ∀ value w,
    Every (·.SparesOperands) (exprOptionNodes value) →
    Alongside w (Codes [] []) (returned kind span (exprOptionDotted value)) (returned kind span value)
  | none, _, _ => by
    simp only [exprOptionDotted, returned]
    exact alongside_default kind
  | some e, w, h => by
    simp only [exprOptionDotted, returned]
    exact alongside_expr span e w [] h
termination_by value => 2 * sizeOf value

theorem alongside_handler (around : Surroundings) (span : Span) : ∀ handler w, Known w around.contexts →
    Every (·.SparesOperands) (handlerNodes handler ++ contextNodes around.contexts) →
    Alongside w (Codes [] []) (handlerCode around.dotted span (handlerDotted handler)) (handlerCode around span handler)
  | none, _, _, _ => by
    simp only [handlerDotted, handlerCode]
    exact alongside_pure (.step span _ trivial)
  | some (.clause (some param) ss), w, hl, h => by
    simp only [handlerDotted, handlerCode]
    exact (alongside_stmts around ss w hl h).bind fun _ _ _ _ hc => alongside_pure
      (Paired.inScope (.append (.steps span (.declare param) (.store param) rfl (.inl rfl)) hc))
  | some (.clause none ss), w, hl, h => by
    simp only [handlerDotted, handlerCode]
    exact (alongside_stmts around ss w hl h).bind fun _ _ _ _ hc => alongside_pure
      (.append (.step span _ trivial) hc.inScope)
termination_by handler => 2 * sizeOf handler + around.weight

theorem alongside_final (around : Surroundings) (span : Span) : ∀ final w, Known w around.contexts →
    Every (·.SparesOperands) (finalNodes final ++ contextNodes around.contexts) →
    Alongside w (Codes [] []) (finalCode around.dotted span (finalDotted final)) (finalCode around span final)
  | none, _, _, _ => by
    simp only [finalDotted, finalCode]
    exact alongside_pure .nil
  | some ss, w, hl, h => by
    simp only [finalDotted, finalCode]
    exact (alongside_stmts around ss w hl h).bind fun _ _ _ _ hc => alongside_pure hc.inScope
termination_by final => 2 * sizeOf final + around.weight

theorem alongside_leave (kind : BodyKind) (span : Span) : ∀ n contexts w, Known w contexts →
    Every (·.SparesOperands) (contextNodes contexts) →
    Alongside w (Codes [] []) (leave kind span n (contexts.map Context.dotted)) (leave kind span n contexts)
  | 0, contexts, _, _, _ => by
    simp only [leave]
    exact alongside_pure .nil
  | n + 1, [], _, _, _ => by
    simp only [List.map_nil, leave]
    exact alongside_pure .nil
  | n + 1, .loop _ _ :: rest, w, hl, h => by
    simp only [List.map_cons, Context.dotted, leave]
    exact (alongside_leave kind span n rest w hl.tail h).bind fun _ _ _ _ hc =>
      alongside_pure (.append (.step span _ trivial) hc)
  | n + 1, .region final :: rest, w, hl, h => by
    simp only [List.map_cons, Context.dotted, leave]
    exact (alongside_final { body := kind, contexts := rest } span final w hl.tail h).bind fun w₁ _ _ hw₁ hf =>
      (alongside_leave kind span n rest w₁ (hl.tail.mono hw₁) h.right).bind fun _ _ _ hw₂ hc =>
        alongside_pure ((Paired.append (.step span .tryEnd trivial) (hf.mono hw₂)).append hc)
  | n + 1, .pendingThrow :: rest, w, hl, h => by
    simp only [List.map_cons, Context.dotted, leave]
    exact (alongside_leave kind span n rest w hl.tail h).bind fun _ _ _ _ hc =>
      alongside_pure (.append (.step span _ trivial) hc)
termination_by _ contexts => weight contexts
decreasing_by
  all_goals
    simp only [Surroundings.weight, weight, Context.weight]
    omega

end

end Compile

end ScriptMachine
