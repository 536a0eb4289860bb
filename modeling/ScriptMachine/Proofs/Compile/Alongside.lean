import ScriptMachine.Proofs.Compile.Couples
import ScriptMachine.Proofs.Compile.Layout

/-!
# Alongside — the generator on two spellings of a script

The generator goes through a script and through the same script with dots side by side. The drafts stay in
step (`Ledger.Valid`): both have the same labels, functions, classes and problems, every constant of the one
is a constant of the other, and the codes they return are `Paired`. `Alongside` says so of two computations,
with rules for each thing the generator does to a draft.
-/

namespace ScriptMachine.Compile

/-! ### Drafts in step -/

/-- Bodies whose codes stand for each other. A body that is filled ends in a return. -/
structure Matching (w : Ledger) (b B : Body) : Prop where
  name : B.name = b.name
  params : B.params = b.params
  code : Paired w [] b.code B.code []
  ends : b.code = [] ∨ lastOp? b.code = some .ret

/-- Drafts that stand for each other. -/
structure Ledger.Valid (w : Ledger) : Prop where
  matched : ∀ {n : Nat} {lit : Literal}, w.dotted.constants[n]? = some lit →
    ∃ (n' : Nat) (lit' : Literal), w.bracketed.constants[n']? = some lit' ∧ lit'.key = lit.key
  labels : w.dotted.labels = w.labels.length
  sameLabels : w.bracketed.labels = w.dotted.labels
  lambdas : w.bracketed.lambdas = w.dotted.lambdas
  classes : w.bracketed.classes = w.dotted.classes
  problems : w.bracketed.problems = w.dotted.problems
  size : w.bracketed.bodies.size = w.dotted.bodies.size
  bodies : ∀ {i : Nat} {b B : Body}, w.dotted.bodies[i]? = some b → w.bracketed.bodies[i]? = some B → Matching w b B

theorem Matching.mono {w w' : Ledger} {b B : Body} (h : Matching w b B) (hw : w.Grows w') : Matching w' b B :=
  ⟨h.name, h.params, h.code.mono hw, h.ends⟩

theorem Ledger.valid_empty : Ledger.Valid ⟨{}, {}, []⟩ :=
  ⟨fun h => by simp at h, rfl, rfl, rfl, rfl, rfl, rfl, fun h => by simp at h⟩

/-- What two computations give side by side, from drafts in step. -/
def Alongside {α β : Type} (w : Ledger) (R : Ledger → α → β → Prop) (x : Gen α) (y : Gen β) : Prop :=
  w.Valid → ∃ labels, w.Grows ⟨(x w.dotted).2, (y w.bracketed).2, labels⟩ ∧
    Ledger.Valid ⟨(x w.dotted).2, (y w.bracketed).2, labels⟩ ∧
    R ⟨(x w.dotted).2, (y w.bracketed).2, labels⟩ (x w.dotted).1 (y w.bracketed).1

/-- The second computation gives something by itself. -/
def Ahead {β : Type} (w : Ledger) (R : Ledger → β → Prop) (y : Gen β) : Prop :=
  Alongside w (fun w' _ b => R w' b) (pure () : Gen Unit) y

/-- Codes between hidden scopes, as results. -/
def Codes (Γ Γ' : List Lodge) : Ledger → Code → Code → Prop := fun w code code' => Paired w Γ code code' Γ'

/-- Results that are the same. -/
def Same {α : Type} : Ledger → α → α → Prop := fun _ a b => b = a

variable {w w' : Ledger} {Γ Γ' : List Lodge} {span : Span}

section Rules

variable {α β γ δ : Type} {R : Ledger → α → β → Prop} {S : Ledger → γ → δ → Prop} {x : Gen α} {y : Gen β}
  {f : α → Gen γ} {g : β → Gen δ}

/-- One computation after another. The drafts in between are those that the first ones leave. -/
theorem Alongside.bindAt (hx : Alongside w R x y) (hf : ∀ w', w'.dotted = (x w.dotted).2 →
    w'.bracketed = (y w.bracketed).2 → w.Grows w' → R w' (x w.dotted).1 (y w.bracketed).1 →
    Alongside w' S (f (x w.dotted).1) (g (y w.bracketed).1)) : Alongside w S (x >>= f) (y >>= g) := by
  intro hw
  obtain ⟨labels, hgrows, hvalid, hR⟩ := hx hw
  obtain ⟨labels', hgrows', hvalid', hS⟩ := hf _ rfl rfl hgrows hR hvalid
  exact ⟨labels', hgrows.trans hgrows', hvalid', hS⟩

theorem Alongside.bind (hx : Alongside w R x y)
    (hf : ∀ w' a b, w.Grows w' → R w' a b → Alongside w' S (f a) (g b)) : Alongside w S (x >>= f) (y >>= g) :=
  hx.bindAt fun w' _ _ hgrows hR => hf w' _ _ hgrows hR

/-- Going on with a result that is the same. -/
theorem Alongside.onSame {x y : Gen α} {f : α → Gen γ} {g : α → Gen δ} (hx : Alongside w Same x y)
    (hf : ∀ w' a, w.Grows w' → Alongside w' S (f a) (g a)) : Alongside w S (x >>= f) (y >>= g) :=
  hx.bind fun w' a _ hgrows hab => (show _ = a from hab) ▸ hf w' a hgrows

/-- Only the second computation goes on. -/
theorem Ahead.bind {R : Ledger → β → Prop} {z : Gen γ} (hy : Ahead w R y)
    (hf : ∀ w' b, w.Grows w' → R w' b → Alongside w' S z (g b)) : Alongside w S z (y >>= g) :=
  Alongside.bind (f := fun _ => z) hy fun w' _ b hgrows hR => hf w' b hgrows hR

theorem alongside_pure {a : α} {b : β} (h : R w a b) : Alongside w R (pure a : Gen α) (pure b : Gen β) :=
  fun hw => ⟨w.labels, .refl w, hw, h⟩

end Rules

/-! ### Drafts -/

/-- A constant that is put into a pool, or found there. -/
structure PutInPool (lit : Literal) (d d' : Draft) (n : Nat) : Prop where
  draft : d' = { d with constants := d'.constants }
  kept : ∀ {k : Nat} {c : Literal}, d.constants[k]? = some c → d'.constants[k]? = some c
  found : ∃ c, d'.constants[n]? = some c ∧ c.key = lit.key
  only : ∀ {k : Nat} {c : Literal}, d'.constants[k]? = some c → d.constants[k]? = some c ∨ c = lit

theorem putInPool_poolIndex (lit : Literal) (d : Draft) : PutInPool lit d (poolIndex lit d).2 (poolIndex lit d).1 := by
  unfold poolIndex
  cases hfind : d.constants.findIdx? fun c => c.key == lit.key with
  | some i =>
    obtain ⟨hlt, hkey, -⟩ := Array.findIdx?_eq_some_iff_getElem.1 hfind
    exact ⟨rfl, id, ⟨_, Array.getElem?_eq_getElem hlt, by simpa using hkey⟩, .inl⟩
  | none =>
    refine ⟨rfl, fun {k c} hk => ?_, ⟨lit, by simp, rfl⟩, fun {k c} hk => ?_⟩
    · rw [Array.getElem?_push, if_neg (Nat.ne_of_lt (Array.getElem?_eq_some_iff.1 hk).1)]
      exact hk
    · rw [Array.getElem?_push] at hk
      split at hk
      · exact .inr (Option.some.inj hk).symm
      · exact .inl hk

/-- A ledger stays valid when its pools and its counters of hidden names go up. -/
theorem Ledger.Valid.update (hw : w.Valid) (hgrows : w.Grows w') (hlabels : w'.labels = w.labels)
    (hdotted : w'.dotted = { w.dotted with constants := w'.dotted.constants, parked := w'.dotted.parked })
    (hbracketed : w'.bracketed =
      { w.bracketed with constants := w'.bracketed.constants, parked := w'.bracketed.parked })
    (hmatched : ∀ {n : Nat} {lit : Literal}, w'.dotted.constants[n]? = some lit →
      ∃ (n' : Nat) (lit' : Literal), w'.bracketed.constants[n']? = some lit' ∧ lit'.key = lit.key) : w'.Valid := by
  refine ⟨hmatched, ?_, ?_, ?_, ?_, ?_, ?_, fun {i b B} hb hB => ?_⟩
  · rw [hdotted, hlabels]
    exact hw.labels
  · rw [hdotted, hbracketed]
    exact hw.sameLabels
  · rw [hdotted, hbracketed]
    exact hw.lambdas
  · rw [hdotted, hbracketed]
    exact hw.classes
  · rw [hdotted, hbracketed]
    exact hw.problems
  · rw [hdotted, hbracketed]
    exact hw.size
  · rw [hdotted] at hb
    rw [hbracketed] at hB
    exact (hw.bodies hb hB).mono hgrows

theorem alongside_poolIndex (lit : Literal) : Alongside w
    (fun w' n n' => ∃ c c', w'.dotted.constants[n]? = some c ∧ w'.bracketed.constants[n']? = some c' ∧ c'.key = c.key)
    (poolIndex lit) (poolIndex lit) := by
  intro hw
  have hd := putInPool_poolIndex lit w.dotted
  have hb := putInPool_poolIndex lit w.bracketed
  have hparked : ∀ {d d' : Draft} {n : Nat}, PutInPool lit d d' n → d.parked ≤ d'.parked := fun h => by
    rw [h.draft]
  obtain ⟨c, hc, hkey⟩ := hd.found
  obtain ⟨c', hc', hkey'⟩ := hb.found
  have hgrows : w.Grows ⟨(poolIndex lit w.dotted).2, (poolIndex lit w.bracketed).2, w.labels⟩ :=
    ⟨hd.kept, hb.kept, id, hparked hd, hparked hb⟩
  refine ⟨w.labels, hgrows, hw.update hgrows rfl ?_ ?_ fun {n a} ha => ?_, c, c', hc, hc', hkey'.trans hkey.symm⟩
  · rw [hd.draft]
  · rw [hb.draft]
  · rcases hd.only ha with ha | rfl
    · obtain ⟨n', a', ha', hkeys⟩ := hw.matched ha
      exact ⟨n', a', hb.kept ha', hkeys⟩
    · exact ⟨_, c', hc', hkey'⟩

theorem ahead_poolIndex (lit : Literal) : Ahead w
    (fun w' n => ∃ c, w'.bracketed.constants[n]? = some c ∧ c.key = lit.key) (poolIndex lit) := by
  intro hw
  have hb := putInPool_poolIndex lit w.bracketed
  have hgrows : w.Grows ⟨w.dotted, (poolIndex lit w.bracketed).2, w.labels⟩ :=
    ⟨id, hb.kept, id, Nat.le_refl _, by rw [hb.draft]⟩
  refine ⟨w.labels, hgrows, hw.update hgrows rfl rfl ?_ fun {n a} ha => ?_, hb.found⟩
  · show (poolIndex lit w.bracketed).2 = _
    rw [hb.draft]
  · obtain ⟨n', a', ha', hkeys⟩ := hw.matched ha
    exact ⟨n', a', hb.kept ha', hkeys⟩

/-- A new label, with the hidden scopes around it. -/
theorem Alongside.onLabel {γ δ : Type} {S : Ledger → γ → δ → Prop} {f : Nat → Gen γ} {g : Nat → Gen δ} (Γ : List Lodge)
    (hf : ∀ w' l, w.Grows w' → w'.labels[l]? = some Γ → Alongside w' S (f l) (g l)) :
    Alongside w S (newLabel >>= f) (newLabel >>= g) := by
  refine Alongside.bind (R := fun w' l l' => l' = l ∧ w'.labels[l]? = some Γ) (fun hw => ?_)
    fun w' l l' hgrows hl => hl.1 ▸ hf w' l hgrows hl.2
  have hgrows : w.Grows ⟨(newLabel w.dotted).2, (newLabel w.bracketed).2, w.labels ++ [Γ]⟩ :=
    ⟨id, id, fun h => by rw [List.getElem?_append_left (List.getElem?_eq_some_iff.1 h).1]; exact h, Nat.le_refl _,
      Nat.le_refl _⟩
  refine ⟨w.labels ++ [Γ], hgrows, ⟨hw.matched, ?_, ?_, hw.lambdas, hw.classes, hw.problems, hw.size,
    fun hb hB => (hw.bodies hb hB).mono hgrows⟩, hw.sameLabels, ?_⟩
  · simp [newLabel, hw.labels]
  · simp [newLabel, hw.sameLabels]
  · simp [newLabel, hw.labels]

theorem alongside_newLambda : Alongside w Same newLambda newLambda := by
  intro hw
  have hgrows : w.Grows ⟨(newLambda w.dotted).2, (newLambda w.bracketed).2, w.labels⟩ :=
    ⟨id, id, id, Nat.le_refl _, Nat.le_refl _⟩
  exact ⟨w.labels, hgrows, ⟨hw.matched, hw.labels, hw.sameLabels, congrArg (· + 1) hw.lambdas, hw.classes, hw.problems,
    hw.size, fun hb hB => (hw.bodies hb hB).mono hgrows⟩, hw.lambdas⟩

/-- Two hidden names, each the next one of its draft. -/
theorem alongside_newParked : Alongside w
    (fun w' x y => x = operandName w.dotted.parked ∧ y = operandName w.bracketed.parked ∧
      w.dotted.parked < w'.dotted.parked ∧ w.bracketed.parked < w'.bracketed.parked) newParked newParked := by
  intro hw
  have hgrows : w.Grows ⟨(newParked w.dotted).2, (newParked w.bracketed).2, w.labels⟩ :=
    ⟨id, id, id, Nat.le_succ _, Nat.le_succ _⟩
  exact ⟨w.labels, hgrows, hw.update hgrows rfl rfl rfl hw.matched, rfl, rfl, Nat.lt_succ_self _, Nat.lt_succ_self _⟩

theorem ahead_newParked : Ahead w (fun _ y => y = operandName w.bracketed.parked) newParked := by
  intro hw
  have hgrows : w.Grows ⟨w.dotted, (newParked w.bracketed).2, w.labels⟩ := ⟨id, id, id, Nat.le_refl _, Nat.le_succ _⟩
  exact ⟨w.labels, hgrows, hw.update hgrows rfl rfl rfl hw.matched, rfl⟩

theorem alongside_report (message : String) : Alongside w Same (report span message) (report span message) := by
  intro hw
  have hgrows : w.Grows ⟨(report span message w.dotted).2, (report span message w.bracketed).2, w.labels⟩ :=
    ⟨id, id, id, Nat.le_refl _, Nat.le_refl _⟩
  exact ⟨w.labels, hgrows, ⟨hw.matched, hw.labels, hw.sameLabels, hw.lambdas, hw.classes,
    congrArg (_ :: ·) hw.problems, hw.size, fun hb hB => (hw.bodies hb hB).mono hgrows⟩, rfl⟩

theorem alongside_openBody (name : String) (params : List String) :
    Alongside w Same (openBody name params) (openBody name params) := by
  intro hw
  have hgrows : w.Grows ⟨(openBody name params w.dotted).2, (openBody name params w.bracketed).2, w.labels⟩ :=
    ⟨id, id, id, Nat.le_refl _, Nat.le_refl _⟩
  refine ⟨w.labels, hgrows, ⟨hw.matched, hw.labels, hw.sameLabels, hw.lambdas, hw.classes, hw.problems,
    by simp [openBody, hw.size], fun {i b B} hb hB => ?_⟩, hw.size⟩
  simp only [openBody, Array.getElem?_push, hw.size] at hb hB
  split at hb
  · rename_i hi
    rw [if_pos hi] at hB
    cases hb
    cases hB
    exact ⟨rfl, rfl, .nil, .inl rfl⟩
  · rename_i hi
    rw [if_neg hi] at hB
    exact (hw.bodies hb hB).mono hgrows

/-- A body is filled with codes that stand for each other. -/
theorem alongside_closeBody (i : Nat) {code code' : Code} (hcode : Paired w [] code code' [])
    (hret : lastOp? code = some .ret) : Alongside w Same (closeBody i code) (closeBody i code') := by
  intro hw
  have hgrows : w.Grows ⟨(closeBody i code w.dotted).2, (closeBody i code' w.bracketed).2, w.labels⟩ :=
    ⟨id, id, id, Nat.le_refl _, Nat.le_refl _⟩
  refine ⟨w.labels, hgrows, ⟨hw.matched, hw.labels, hw.sameLabels, hw.lambdas, hw.classes, hw.problems,
    by simp [closeBody, hw.size], fun {j b B} hb hB => ?_⟩, rfl⟩
  simp only [closeBody, Array.getElem?_modify] at hb hB
  split at hb
  · rename_i hi
    rw [if_pos hi] at hB
    obtain ⟨b', hb', rfl⟩ := Option.map_eq_some_iff.1 hb
    obtain ⟨B', hB', rfl⟩ := Option.map_eq_some_iff.1 hB
    have hmatching := hw.bodies hb' hB'
    exact ⟨hmatching.name, hmatching.params, hcode.mono hgrows, .inr hret⟩
  · rename_i hi
    rw [if_neg hi] at hB
    exact (hw.bodies hb hB).mono hgrows

theorem alongside_classDeclared (name : String) : Alongside w Same (classDeclared name) (classDeclared name) := by
  intro hw
  exact ⟨w.labels, .refl w, hw, by simp [Same, classDeclared, hw.classes]⟩

theorem alongside_declareClass (name : String) (methods : List Nat) :
    Alongside w Same (declareClass name methods) (declareClass name methods) := by
  intro hw
  have hgrows : w.Grows ⟨(declareClass name methods w.dotted).2, (declareClass name methods w.bracketed).2, w.labels⟩ :=
    ⟨id, id, id, Nat.le_refl _, Nat.le_refl _⟩
  exact ⟨w.labels, hgrows, ⟨hw.matched, hw.labels, hw.sameLabels, hw.lambdas, congrArg (_ :: ·) hw.classes, hw.problems,
    hw.size, fun hb hB => (hw.bodies hb hB).mono hgrows⟩, rfl⟩

/-! ### Constants and ends of bodies -/

theorem alongside_constant (Γ : List Lodge) (lit : Literal) : Alongside w (Codes Γ Γ) (constant span lit) (constant span lit) :=
  (alongside_poolIndex lit).bind fun _ _ _ _ ⟨_, _, hc, hc', hkey⟩ => alongside_pure (.one (.const hc hc' hkey))

theorem eq_string_of_key {lit : Literal} {s : String} (h : lit.key = .string s) : lit = .string s := by
  cases lit <;> cases h
  rfl

/-- The code of a text that stands for a key. -/
theorem ahead_key (own : Span) (name : String) : Ahead w
    (fun w' code => ∃ n place, code = [⟨.const n, place, false⟩] ∧ w'.bracketed.constants[n]? = some (.string name))
    (expr span (.node own (.string name))) := by
  have hconstant : expr span (.node own (.string name)) = constant (span.refine own) (.string name) := by
    rw [expr, exprKind]
  rw [hconstant]
  refine Ahead.bind (z := pure ()) (ahead_poolIndex (.string name)) fun w' n _ hn => ?_
  obtain ⟨c, hc, hkey⟩ := hn
  rw [eq_string_of_key hkey] at hc
  exact alongside_pure ⟨n, _, rfl, hc⟩

theorem alongside_default (kind : BodyKind) :
    Alongside w (Codes [] []) (defaultResult kind span) (defaultResult kind span) := by
  cases kind with
  | constructor => exact alongside_pure (.same _ _ (by simp [Neutral]))
  | script | function => exact alongside_constant [] .undefined

/-- A body gets the return that it lacks. -/
theorem alongside_finish (kind : BodyKind) {code code' : Code} (hcode : Paired w [] code code' []) :
    Alongside w (fun w' c c' => Paired w' [] c c' [] ∧ lastOp? c = some .ret) (finishBody kind span code)
      (finishBody kind span code') := by
  unfold finishBody
  simp only [hcode.lastOp?_eq_ret]
  split
  · exact alongside_pure ⟨hcode, by assumption⟩
  · refine (alongside_default kind).bind fun w' c c' hgrows hc => alongside_pure ⟨?_, by simp [lastOp?, emit]⟩
    exact ((hcode.mono hgrows).append hc).append (.same _ _ (by simp [Neutral]))

end ScriptMachine.Compile
