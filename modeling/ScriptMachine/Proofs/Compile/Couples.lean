import ScriptMachine.Proofs.Compile.Naming
import ScriptMachine.Proofs.Script.Dotted

/-!
# Couples — code for dots beside code for brackets

Code for an access with a dot names the property, code for the same access with brackets pushes the name as
a key. Where the operands of a target are kept, the key is kept too, and the hidden names have other numbers.
`Couple` says which instructions of the one code stand for an instruction of the other, given what lies in
the hidden scopes around the place (`Lodge`); `Paired` says so of whole codes.
-/

namespace ScriptMachine.Compile

/-! ### Hidden scopes -/

/-- The hidden name of an operand. -/
def operandName (n : Nat) : String := s!"@parked#{n}"

/-- The hidden names of operands. -/
def IsOperand (name : String) : Prop := ∃ n, name = operandName n

theorem operandName_inj {n n' : Nat} (h : operandName n = operandName n') : n = n' :=
  @lambdaName_inj (some "parked") (some "parked") n n' h

/-- Only a function expression called `parked` has the name of an operand. -/
theorem not_isOperand_lambdaName {name : Option String} (h : name ≠ some "parked") (n : Nat) :
    ¬ IsOperand (lambdaName name n) := fun ⟨k, hk⟩ =>
  h (eq_parked_of_lambdaName (d := { parked := k }) hk)

theorem not_isOperand_of_not_reserved {name : String} (h : reserved name = false) : ¬ IsOperand name := by
  rintro ⟨n, rfl⟩
  have hreserved : reserved (operandName n) = true := reserved_lambdaName (some "parked") n
  rw [h] at hreserved
  cases hreserved

/-- The names under which one operand is kept by code for dots and by code for brackets. With the second goes
the name of a key, if the first has none, and the property. -/
structure Keep where
  dotted : String
  bracketed : String
  key : Option (String × String) := none

/-- The names that code for brackets uses. -/
def Keep.names (k : Keep) : List String := k.bracketed :: (k.key.map Prod.fst).toList

/-- Hidden names that do not clash. -/
structure Tidy (nook : List Keep) : Prop where
  dotted : ∀ k ∈ nook, IsOperand k.dotted
  bracketed : ∀ k ∈ nook, ∀ name ∈ k.names, IsOperand name
  key : ∀ k ∈ nook, ∀ slot property, k.key = some (slot, property) → slot ≠ k.bracketed ∧ property ≠ indexer
  apart : ∀ k ∈ nook, ∀ k' ∈ nook, k.dotted = k'.dotted ∨ (∃ name ∈ k.names, name ∈ k'.names) → k = k'

/-- A hidden scope at a place in code: what may be kept in it, what has been declared, and which keys are kept
as well. -/
structure Lodge where
  nook : List Keep
  declared : List Keep := []
  keyed : List Keep := []

/-! ### Instructions -/

/-- What is known of two drafts: the hidden scopes around each label. -/
structure Ledger where
  dotted : Draft
  bracketed : Draft
  labels : List (List Lodge) := []

/-- A ledger that knows more. -/
structure Ledger.Grows (w w' : Ledger) : Prop where
  dotted : ∀ {n : Nat} {lit : Literal}, w.dotted.constants[n]? = some lit → w'.dotted.constants[n]? = some lit
  bracketed : ∀ {n : Nat} {lit : Literal},
    w.bracketed.constants[n]? = some lit → w'.bracketed.constants[n]? = some lit
  labels : ∀ {l : Nat} {Γ : List Lodge}, w.labels[l]? = some Γ → w'.labels[l]? = some Γ
  parked : w.dotted.parked ≤ w'.dotted.parked ∧ w.bracketed.parked ≤ w'.bracketed.parked

theorem Ledger.Grows.refl (w : Ledger) : w.Grows w := ⟨id, id, id, Nat.le_refl _, Nat.le_refl _⟩

theorem Ledger.Grows.trans {w w' w'' : Ledger} (h : w.Grows w') (h' : w'.Grows w'') : w.Grows w'' :=
  ⟨fun hn => h'.dotted (h.dotted hn), fun hn => h'.bracketed (h.bracketed hn), fun hl => h'.labels (h.labels hl),
    Nat.le_trans h.parked.1 h'.parked.1, Nat.le_trans h.parked.2 h'.parked.2⟩

/-- An operation that does the same in both codes, inside the same hidden scopes. What looks up a name finds
no hidden one, and what works on scopes stands outside of hidden scopes. -/
def Neutral (w : Ledger) (Γ : List Lodge) : Opcode → Prop
  | .const _ => False
  | .fetch name | .store name => Γ = [] ∨ ¬ IsOperand name
  | .label l | .jump l | .jumpTrue l | .jumpFalse l => w.labels[l]? = some Γ
  | .loopExit l => Γ = [] ∧ w.labels[l]? = some []
  | .tryStart handler final _ =>
    Γ = [] ∧ w.labels[handler]? = some [] ∧ ∀ l, final = some l → w.labels[l]? = some []
  | .declare _ | .ret | .enterScope | .leaveScope | .loopStart | .debugger | .eof => Γ = []
  | _ => True

/-- The instructions of code for brackets that stand for an instruction of code for dots, with the hidden
scopes before and after. The last of them does what that instruction does. -/
inductive Couple (w : Ledger) : List Lodge → Instruction → Code → List Lodge → Prop where
  | same {Γ i} : Neutral w Γ i.op → Couple w Γ i [i] Γ
  | const {Γ span b n n' lit lit'} : w.dotted.constants[n]? = some lit → w.bracketed.constants[n']? = some lit' →
      lit'.key = lit.key → Couple w Γ ⟨.const n, span, b⟩ [⟨.const n', span, b⟩] Γ
  | property {Γ span span' b n name} : name ≠ indexer → w.bracketed.constants[n]? = some (.string name) →
      Couple w Γ ⟨.fetchProperty name, span, b⟩ [⟨.const n, span', b⟩, ⟨.fetchProperty indexer, span, false⟩] Γ
  | setProperty {Γ span span' b n name} : name ≠ indexer → w.bracketed.constants[n]? = some (.string name) →
      Couple w Γ ⟨.storeProperty name, span, b⟩ [⟨.const n, span', b⟩, ⟨.storeProperty indexer, span, false⟩] Γ
  | enter {Γ span b nook} : Tidy nook →
      Couple w Γ ⟨.enterScope, span, b⟩ [⟨.enterScope, span, b⟩] (⟨nook, [], []⟩ :: Γ)
  | declare {Γ span b nook declared keyed k} : k ∈ nook →
      Couple w (⟨nook, declared, keyed⟩ :: Γ) ⟨.declare k.dotted, span, b⟩ [⟨.declare k.bracketed, span, b⟩]
        (⟨nook, k :: declared, keyed⟩ :: Γ)
  | keep {Γ span b l k} : k ∈ l.nook → k ∈ l.declared →
      Couple w (l :: Γ) ⟨.store k.dotted, span, b⟩ [⟨.store k.bracketed, span, b⟩] (l :: Γ)
  | kept {Γ span b l k} : k ∈ l.nook → k ∈ l.declared →
      Couple w (l :: Γ) ⟨.fetch k.dotted, span, b⟩ [⟨.fetch k.bracketed, span, b⟩] (l :: Γ)
  /-- The key is kept before the operand is used for the first time. -/
  | keepKey {Γ span span' span'' b nook declared keyed k slot name n} : k ∈ nook → k ∈ declared →
      k.key = some (slot, name) → w.bracketed.constants[n]? = some (.string name) →
      Couple w (⟨nook, declared, keyed⟩ :: Γ) ⟨.fetch k.dotted, span, b⟩
        [⟨.const n, span', b⟩, ⟨.declare slot, span'', false⟩, ⟨.store slot, span'', false⟩,
          ⟨.fetch k.bracketed, span, false⟩] (⟨nook, declared, k :: keyed⟩ :: Γ)
  | keptProperty {Γ span span' b l k slot name} : k ∈ l.nook → k ∈ l.keyed → k.key = some (slot, name) →
      Couple w (l :: Γ) ⟨.fetchProperty name, span, b⟩
        [⟨.fetch slot, span', b⟩, ⟨.fetchProperty indexer, span, false⟩] (l :: Γ)
  | setKeptProperty {Γ span span' b l k slot name} : k ∈ l.nook → k ∈ l.keyed → k.key = some (slot, name) →
      Couple w (l :: Γ) ⟨.storeProperty name, span, b⟩
        [⟨.fetch slot, span', b⟩, ⟨.storeProperty indexer, span, false⟩] (l :: Γ)
  | leave {Γ span b l} : Couple w (l :: Γ) ⟨.leaveScope, span, b⟩ [⟨.leaveScope, span, b⟩] Γ

/-- An instruction with those that stand for it and the hidden scopes before it. -/
structure Cell where
  lodges : List Lodge
  instruction : Instruction
  twin : Code

/-- Each instruction leads from its hidden scopes to those of the next. No statement begins in a hidden scope. -/
inductive Strand (w : Ledger) : List Lodge → List Cell → List Lodge → Prop where
  | nil {Γ} : Strand w Γ [] Γ
  | cons {Γ i twin ρ W Γ'} : Couple w Γ i twin ρ → (i.boundary = true → Γ = []) → Strand w ρ W Γ' →
      Strand w Γ (⟨Γ, i, twin⟩ :: W) Γ'

variable {w w' : Ledger} {Γ Γ' ρ : List Lodge} {i : Instruction} {c code code' : Code} {op : Opcode}

theorem Neutral.mono (h : Neutral w Γ op) (hw : w.Grows w') : Neutral w' Γ op := by
  cases op with
  | label | jump | jumpTrue | jumpFalse => exact hw.labels h
  | loopExit => exact ⟨h.1, hw.labels h.2⟩
  | tryStart => exact ⟨h.1, hw.labels h.2.1, fun l hl => hw.labels (h.2.2 l hl)⟩
  | _ => exact h

theorem Couple.mono (h : Couple w Γ i c Γ') (hw : w.Grows w') : Couple w' Γ i c Γ' := by
  cases h with
  | same h => exact .same (h.mono hw)
  | const h h' hkey => exact .const (hw.dotted h) (hw.bracketed h') hkey
  | property hname h => exact .property hname (hw.bracketed h)
  | setProperty hname h => exact .setProperty hname (hw.bracketed h)
  | enter h => exact .enter h
  | declare h => exact .declare h
  | keep h h' => exact .keep h h'
  | kept h h' => exact .kept h h'
  | keepKey h h' hkey hn => exact .keepKey h h' hkey (hw.bracketed hn)
  | keptProperty h h' hkey => exact .keptProperty h h' hkey
  | setKeptProperty h h' hkey => exact .setKeptProperty h h' hkey
  | leave => exact .leave

/-- A boundary stands at the first of the instructions. -/
theorem Couple.mark (h : Couple w Γ i c Γ') : Couple w Γ { i with boundary := true } (markFirst c) Γ' := by
  cases h with
  | same h => exact .same h
  | const h h' hkey => exact .const h h' hkey
  | property hname h => exact .property hname h
  | setProperty hname h => exact .setProperty hname h
  | enter h => exact .enter h
  | declare h => exact .declare h
  | keep h h' => exact .keep h h'
  | kept h h' => exact .kept h h'
  | keepKey h h' hkey hn => exact .keepKey h h' hkey hn
  | keptProperty h h' hkey => exact .keptProperty h h' hkey
  | setKeptProperty h h' hkey => exact .setKeptProperty h h' hkey
  | leave => exact .leave

/-- The first of the instructions begins a statement where the first code does. -/
theorem Couple.first (h : Couple w Γ i c Γ') : ∃ j rest, c = j :: rest ∧ j.boundary = i.boundary := by
  cases h <;> exact ⟨_, _, rfl, rfl⟩

/-- The last of the instructions is a return, or names a label, where the first code has it. -/
theorem Couple.last (h : Couple w Γ i c Γ') : ∃ before i', c = before ++ [i'] ∧ (i'.op = .ret ↔ i.op = .ret) ∧
    (∀ l, i'.op = .label l ↔ i.op = .label l) ∧ ∀ j ∈ before, ∀ l, j.op ≠ .label l := by
  cases h with
  | same => exact ⟨[], _, rfl, .rfl, fun _ => .rfl, nofun⟩
  | property | setProperty | keptProperty | setKeptProperty =>
    exact ⟨[_], _, rfl, by simp, by simp, by simp⟩
  | keepKey => exact ⟨[_, _, _], _, rfl, by simp, by simp, by simp⟩
  | _ => exact ⟨[], _, rfl, by simp, by simp, nofun⟩

/-- A label stands for itself, inside the hidden scopes that are known of it. -/
theorem Couple.of_label (h : Couple w Γ i c Γ') {l : Nat} (hi : i.op = .label l) :
    c = [i] ∧ w.labels[l]? = some Γ := by
  cases h with
  | same h =>
    rw [hi] at h
    exact ⟨rfl, h⟩
  | _ => cases hi

/-- Where a script ends or pauses there are no hidden scopes. -/
theorem Couple.settled (h : Couple w Γ i c Γ') (hi : i.op = .eof ∨ i.op = .debugger) : Γ' = [] := by
  cases h with
  | same h => obtain hi | hi := hi <;> exact (hi ▸ h : Neutral w Γ _)
  | _ => simp at hi

/-! ### Codes -/

theorem Strand.append {W W' : List Cell} (h : Strand w Γ W ρ) (h' : Strand w ρ W' Γ') : Strand w Γ (W ++ W') Γ' := by
  induction h with
  | nil => exact h'
  | cons hc hb _ ih => exact .cons hc hb (ih h')

theorem Strand.mono {W : List Cell} (h : Strand w Γ W Γ') (hw : w.Grows w') : Strand w' Γ W Γ' := by
  induction h with
  | nil => exact .nil
  | cons hc hb _ ih => exact .cons (hc.mono hw) hb ih

/-- The code for brackets of some cells. -/
def bracketedCode (W : List Cell) : Code := W.flatMap Cell.twin

/-- Code for brackets stands for code for dots, between hidden scopes. -/
def Paired (w : Ledger) (Γ : List Lodge) (code code' : Code) (Γ' : List Lodge) : Prop :=
  ∃ W, Strand w Γ W Γ' ∧ W.map Cell.instruction = code ∧ bracketedCode W = code'

namespace Paired

variable {span : Span}

theorem nil : Paired w Γ [] [] Γ := ⟨[], .nil, rfl, rfl⟩

theorem mono (h : Paired w Γ code code' Γ') (hw : w.Grows w') : Paired w' Γ code code' Γ' := by
  obtain ⟨W, hW, hcode, hcode'⟩ := h
  exact ⟨W, hW.mono hw, hcode, hcode'⟩

theorem append {more more' : Code} (h : Paired w Γ code code' ρ) (h' : Paired w ρ more more' Γ') :
    Paired w Γ (code ++ more) (code' ++ more') Γ' := by
  obtain ⟨V, hV, rfl, rfl⟩ := h
  obtain ⟨W, hW, rfl, rfl⟩ := h'
  exact ⟨V ++ W, hV.append hW, by simp, by simp [bracketedCode]⟩

/-- One instruction that is no boundary. -/
theorem one (h : Couple w Γ ⟨op, span, false⟩ c Γ') : Paired w Γ (emit span [op]) c Γ' :=
  ⟨[⟨Γ, ⟨op, span, false⟩, c⟩], .cons h nofun .nil, rfl, by simp [bracketedCode]⟩

/-- Operations that do the same. -/
theorem same (span : Span) (ops : List Opcode) (h : ∀ op ∈ ops, Neutral w Γ op) :
    Paired w Γ (emit span ops) (emit span ops) Γ := by
  induction ops with
  | nil => exact nil
  | cons op rest ih =>
    have hfirst : Paired w Γ (emit span [op]) [⟨op, span, false⟩] Γ := one (.same (h op List.mem_cons_self))
    exact hfirst.append (ih fun op hop => h op (List.mem_cons_of_mem _ hop))

/-- An operation that does the same. -/
theorem step (span : Span) (op : Opcode) (h : Neutral w Γ op) : Paired w Γ (emit span [op]) (emit span [op]) Γ :=
  one (.same h)

/-- Two operations that do the same. -/
theorem steps (span : Span) (op next : Opcode) (h : Neutral w Γ op) (h' : Neutral w Γ next) :
    Paired w Γ (emit span [op, next]) (emit span [op, next]) Γ := (step span op h).append (step span next h')

/-- Code inside a scope that is not hidden. -/
theorem inScope (h : Paired w [] code code' []) : Paired w [] (inScope span code) (inScope span code') [] :=
  ((step span .enterScope rfl).append h).append (step span .leaveScope rfl)

/-- Code that goes on with one of two codes. -/
theorem branches {l l' : Nat} {test test' yes yes' no no' : Code} (op : Opcode) (hop : Neutral w Γ op)
    (hl : w.labels[l]? = some Γ) (hl' : w.labels[l']? = some Γ) (ht : Paired w Γ test test' Γ)
    (hy : Paired w Γ yes yes' Γ) (hn : Paired w Γ no no' Γ) :
    Paired w Γ (test ++ emit span [op] ++ yes ++ emit span [.jump l', .label l] ++ no ++ emit span [.label l'])
      (test' ++ emit span [op] ++ yes' ++ emit span [.jump l', .label l] ++ no' ++ emit span [.label l']) Γ :=
  ((((ht.append (step span op hop)).append hy).append (steps span (.jump l') (.label l) hl' hl)).append hn).append
    (step span (.label l') hl')

/-- The code of a statement. -/
theorem mark (h : Paired w [] code code' Γ') : Paired w [] (markFirst code) (markFirst code') Γ' := by
  obtain ⟨W, hW, rfl, rfl⟩ := h
  cases hW with
  | nil => exact nil
  | @cons _ i twin ρ W _ hc hb hW =>
    obtain ⟨before, i', rfl, -⟩ := hc.last
    have hmark : markFirst (before ++ [i'] ++ bracketedCode W) = markFirst (before ++ [i']) ++ bracketedCode W := by
      cases before <;> rfl
    exact ⟨⟨[], { i with boundary := true }, markFirst (before ++ [i'])⟩ :: W, .cons hc.mark (fun _ => rfl) hW, rfl,
      hmark.symm⟩

/-- Both codes end in a return, or neither does. -/
theorem lastOp?_eq_ret (h : Paired w Γ code code' Γ') : lastOp? code' = some .ret ↔ lastOp? code = some .ret := by
  obtain ⟨W, hW, rfl, rfl⟩ := h
  rcases List.eq_nil_or_concat W with rfl | ⟨W, cell, rfl⟩
  · exact .rfl
  · have hlast : ∀ {V : List Cell} {σ τ : List Lodge}, Strand w σ (V ++ [cell]) τ →
        ∃ ρ ρ', Couple w ρ cell.instruction cell.twin ρ' := by
      intro V σ τ hV
      induction V generalizing σ with
      | nil =>
        cases hV with
        | cons hc => exact ⟨_, _, hc⟩
      | cons _ V ih =>
        cases hV with
        | cons _ _ hV => exact ih hV
    rw [List.concat_eq_append] at hW ⊢
    obtain ⟨_, _, hc⟩ := hlast hW
    obtain ⟨before, i', htwin, hret, -⟩ := hc.last
    simp [lastOp?, bracketedCode, htwin, hret]

end Paired

end ScriptMachine.Compile
