import ScriptMachine.Proofs.Compile.Pool
import ScriptMachine.Proofs.Compile.Respelling
import ScriptMachine.Proofs.Compile.WellLaid
import ScriptMachine.Proofs.Value.Repooling

/-!
# Coupling — the program of a script and the program of the script with dots

Two programs are coupled when their sections are the two sides of one list of cells. The compiler gives
coupled programs for a script and for the script with dots, and it finds the same problems in both.
-/

namespace ScriptMachine

namespace Compile

variable {w : Ledger} {Γ Γ' : List Lodge} {W : List Cell} {cell : Cell} {pc : Nat}

/-! ### Places in cells -/

/-- Where the code for brackets of a cell begins. -/
def place (W : List Cell) (pc : Nat) : Nat := (bracketedCode (W.take pc)).length

/-- The hidden scopes at a place. -/
def lodges (W : List Cell) (pc : Nat) : List Lodge := (W[pc]?.map Cell.lodges).getD []

@[simp] theorem place_zero (W : List Cell) : place W 0 = 0 := rfl

theorem split_of_getElem? (h : W[pc]? = some cell) : W = W.take pc ++ cell :: W.drop (pc + 1) := by
  obtain ⟨hlt, rfl⟩ := List.getElem?_eq_some_iff.1 h
  rw [← List.drop_eq_getElem_cons hlt, List.take_append_drop]

theorem place_succ (h : W[pc]? = some cell) : place W (pc + 1) = place W pc + cell.twin.length := by
  simp [place, List.take_add_one, h, bracketedCode]

/-- The code for brackets of a cell stands at its place. -/
theorem getElem?_place (h : W[pc]? = some cell) {j : Nat} (hj : j < cell.twin.length) :
    (bracketedCode W)[place W pc + j]? = cell.twin[j]? := by
  have hcode : bracketedCode W = bracketedCode (W.take pc) ++ (cell.twin ++ bracketedCode (W.drop (pc + 1))) := by
    conv_lhs => rw [split_of_getElem? h]
    simp [bracketedCode]
  rw [hcode, place, List.getElem?_append_right (Nat.le_add_right _ _), Nat.add_sub_cancel_left,
    List.getElem?_append_left hj]

/-- A cell leads to the hidden scopes of the next one. -/
theorem Strand.get (hW : Strand w Γ W Γ') (h : W[pc]? = some cell) :
    Couple w cell.lodges cell.instruction cell.twin ((W[pc + 1]?.map Cell.lodges).getD Γ') ∧
      (cell.instruction.boundary = true → cell.lodges = []) := by
  induction hW generalizing pc with
  | nil => cases h
  | @cons Γ i twin ρ V Γ' hc hb hV ih =>
    cases pc with
    | zero =>
      cases h
      refine ⟨?_, hb⟩
      cases hV with
      | nil => exact hc
      | cons => exact hc
    | succ pc => exact ih h

theorem Strand.first (hW : Strand w [] W []) : lodges W 0 = [] := by
  cases hW <;> rfl

/-- A cell of a section: its instructions, from its hidden scopes to those of the next cell. -/
theorem Strand.couple (hW : Strand w [] W []) (h : W[pc]? = some cell) :
    Couple w (lodges W pc) cell.instruction cell.twin (lodges W (pc + 1)) := by
  have hpc : lodges W pc = cell.lodges := by rw [lodges, h]; rfl
  rw [hpc]
  exact (hW.get h).1

end Compile

open Compile

/-- Whether an instruction is the last one of a section. -/
def Opcode.isLast : Opcode → Bool
  | .ret | .eof => true
  | _ => false

/-- Two programs whose sections are the two sides of lists of cells. A constant of the one stands in the pool of
the other, at a place of its own. -/
structure Coupling (P Q : Program) where
  ledger : Ledger
  sheet : Nat → List Cell
  pool : Nat → Nat
  pool_injective : pool.Injective
  strand : ∀ x, Strand ledger [] (sheet x) []
  dotted : ∀ x pc, P.instruction? x pc = (sheet x)[pc]?.map Cell.instruction
  bracketed : ∀ x pc, Q.instruction? x pc = (bracketedCode (sheet x))[pc]?
  constant : ∀ {n : Nat} {lit : Literal}, ledger.dotted.constants[n]? = some lit → P.constants[n]? = some (lit.value n)
  constant' : ∀ {n : Nat} {lit : Literal},
    ledger.bracketed.constants[n]? = some lit → Q.constants[n]? = some (lit.value n)
  repooled : ∀ {n n' : Nat} {lit lit' : Literal}, ledger.dotted.constants[n]? = some lit →
    ledger.bracketed.constants[n']? = some lit' → lit'.key = lit.key → lit'.value n' = (lit.value n).repooled pool
  functions : Q.functions = P.functions
  classes : Q.classes = P.classes
  sectionName : ∀ x, Q.sectionName? x = P.sectionName? x
  target : ∀ {x pc l : Nat} {cell : Cell}, (sheet x)[pc]? = some cell → l ∈ cell.instruction.op.targets →
    ∃ t goal, P.jumpTarget? l = some t ∧ Q.jumpTarget? l = some (place (sheet x) t) ∧ (sheet x)[t]? = some goal ∧
      goal.instruction.op = .label l
  goesOn : ∀ {x pc : Nat} {cell : Cell}, (sheet x)[pc]? = some cell → cell.instruction.op.isLast = false →
    pc + 1 < (sheet x).length

/-! ### Drafts -/

namespace Script

variable {script : Script}

@[simp] theorem body_dotted (script : Script) : script.dotted.body = stmtsDotted script.body := rfl

@[simp] theorem diagnostics_dotted (script : Script) : script.dotted.diagnostics = script.diagnostics := rfl

/-- The drafts of a script with dots and of the script itself are in step. -/
theorem exists_ledger (hs : Every (·.SparesOperands) script.nodes) :
    ∃ w : Ledger, w.dotted = script.dotted.draft.2 ∧ w.bracketed = script.draft.2 ∧ w.Valid ∧
      Paired w [] script.dotted.draft.1 script.draft.1 [] := by
  obtain ⟨labels, -, hvalid, hcodes⟩ := alongside_stmts { body := .script } script.body ⟨{}, {}, []⟩ nofun
    (hs.append .nil) Ledger.valid_empty
  exact ⟨_, rfl, rfl, hvalid, hcodes.append (.same .unknown [.eof] (by simp [Neutral]))⟩

/-- **The compiler finds the same problems** in a script and in the script with dots. -/
theorem problems_dotted (hs : Every (·.SparesOperands) script.nodes) : script.dotted.problems = script.problems := by
  obtain ⟨w, hdotted, hbracketed, hw, -⟩ := exists_ledger hs
  rw [problems, problems, ← hdotted, ← hbracketed, hw.problems, diagnostics_dotted]

theorem interned_draft (script : Script) : Interned script.draft.2.constants := by
  obtain ⟨L, hL, -⟩ := emits_draft script
  exact hL.interned trivial .empty

/-- Where a constant of the one draft stands in the other. What is no constant goes behind all of them. -/
def poolMap (d e : Draft) (n : Nat) : Nat :=
  (d.constants[n]?.bind fun lit => e.constants.findIdx? fun c => c.key == lit.key).getD (n + e.constants.size)

theorem poolMap_eq {d e : Draft} (he : Interned e.constants) {n n' : Nat} {lit lit' : Literal}
    (hn : d.constants[n]? = some lit) (hn' : e.constants[n']? = some lit') (hkey : lit'.key = lit.key) :
    poolMap d e n = n' := by
  have hfound : e.constants.findIdx? (fun c => c.key == lit.key) = some n' := by
    obtain ⟨hlt, rfl⟩ := Array.getElem?_eq_some_iff.1 hn'
    refine Array.findIdx?_eq_some_iff_getElem.2 ⟨hlt, by simp [hkey], fun j hj => ?_⟩
    simp only [beq_iff_eq]
    intro hkey'
    exact Nat.ne_of_lt hj (he.distinct (Array.getElem?_eq_getElem (Nat.lt_trans hj hlt)) hn' (hkey'.trans hkey.symm))
  rw [poolMap, hn, Option.bind_some, hfound]
  rfl

theorem poolMap_injective {d e : Draft} (hd : Interned d.constants) (he : Interned e.constants)
    (hmatched : ∀ {n : Nat} {lit : Literal}, d.constants[n]? = some lit →
      ∃ (n' : Nat) (lit' : Literal), e.constants[n']? = some lit' ∧ lit'.key = lit.key) :
    (poolMap d e).Injective := by
  have hinside : ∀ {n : Nat} {lit : Literal}, d.constants[n]? = some lit →
      ∃ lit', e.constants[poolMap d e n]? = some lit' ∧ lit'.key = lit.key := fun hn => by
    obtain ⟨n', lit', hn', hkey⟩ := hmatched hn
    exact ⟨lit', by rwa [poolMap_eq he hn hn' hkey], hkey⟩
  have houtside : ∀ {n : Nat}, d.constants[n]? = none → poolMap d e n = n + e.constants.size := fun hn => by
    rw [poolMap, hn]
    rfl
  intro i j hij
  cases hi : d.constants[i]? with
  | some lit =>
    obtain ⟨a, ha, hkey⟩ := hinside hi
    have hlt := (Array.getElem?_eq_some_iff.1 ha).1
    cases hj : d.constants[j]? with
    | some lit' =>
      obtain ⟨b, hb, hkey'⟩ := hinside hj
      rw [← hij, ha] at hb
      cases hb
      exact hd.distinct hi hj (hkey.symm.trans hkey')
    | none =>
      rw [houtside hj] at hij
      omega
  | none =>
    cases hj : d.constants[j]? with
    | some lit' =>
      obtain ⟨b, hb, -⟩ := hinside hj
      have hlt := (Array.getElem?_eq_some_iff.1 hb).1
      rw [houtside hi] at hij
      omega
    | none =>
      rw [houtside hi, houtside hj] at hij
      omega

theorem value_repooled {d e : Draft} (hd : Interned d.constants) (he : Interned e.constants) {n n' : Nat}
    {lit lit' : Literal} (hn : d.constants[n]? = some lit) (hn' : e.constants[n']? = some lit')
    (hkey : lit'.key = lit.key) : lit'.value n' = (lit.value n).repooled (poolMap d e) := by
  obtain rfl := (he.genuine lit' (Array.mem_of_getElem? hn')).eq_of_key (hd.genuine lit (Array.mem_of_getElem? hn)) hkey
  have hpool := poolMap_eq he hn hn' hkey
  cases lit' with
  | regex pattern => exact (congrArg (fun k => Value.regex (.pooled k) pattern) hpool).symm
  | _ => rfl

/-! ### Programs -/

/-- The code of a section, up to the end of all sections. -/
def sectionCode (script : Script) : Nat → Code
  | 0 => script.draft.1
  | n + 1 => (script.draft.2.bodies[n]?.map Body.code).getD []

variable {p : Program}

theorem instruction?_of_compile (hc : script.compile = .ok p) (x pc : Nat) :
    p.instruction? x pc = (script.sectionCode x)[pc]? := by
  obtain ⟨hscript, hbodies⟩ := sections_of_compile hc
  cases x with
  | zero => simp [Program.instruction?, hscript, sectionCode]
  | succ n =>
    simp only [Program.instruction?, hbodies, sectionCode]
    cases script.draft.2.bodies[n]? <;> simp

/-- The two sides of every section. -/
theorem exists_strand {w : Ledger} (hdotted : w.dotted = script.dotted.draft.2) (hbracketed : w.bracketed = script.draft.2)
    (hw : w.Valid) (hcode : Paired w [] script.dotted.draft.1 script.draft.1 []) (x : Nat) :
    Paired w [] (script.dotted.sectionCode x) (script.sectionCode x) [] := by
  cases x with
  | zero => exact hcode
  | succ n =>
    have hsize := hw.size
    have hbodies := @hw.bodies n
    rw [hdotted, hbracketed] at hbodies hsize
    simp only [sectionCode]
    rcases Nat.lt_or_ge n script.draft.2.bodies.size with hlt | hge
    · rw [Array.getElem?_eq_getElem hlt, Array.getElem?_eq_getElem (hsize ▸ hlt)] at hbodies ⊢
      exact (hbodies rfl rfl).code
    · rw [Array.getElem?_eq_none hge, Array.getElem?_eq_none (hsize ▸ hge)]
      exact .nil

/-- A section has more code behind every instruction that is not its end. -/
theorem goes_on (hc : script.compile = .ok p) {x pc : Nat} {i : Instruction} (hi : p.instruction? x pc = some i)
    (hgoes : i.op.isLast = false) : pc + 1 < (script.sectionCode x).length := by
  have hlaid := wellLaid_of_compile hc
  obtain ⟨s, hs, hpc⟩ := Option.bind_eq_some_iff.1 hi
  have hlast : s.lastOp? = some .ret ∨ s.lastOp? = some .eof := by
    cases x with
    | zero =>
      obtain ⟨s', hs', hlast⟩ := hlaid.ending
      cases hs.symm.trans hs'
      exact .inr hlast
    | succ n => exact .inl (hlaid.returns hs)
  have hcode : ∀ k, s.code[k]? = (script.sectionCode x)[k]? := fun k => by
    rw [← instruction?_of_compile hc, Program.instruction?, hs]
    rfl
  have hsize : s.code.size = (script.sectionCode x).length := by
    have heq : s.code.toList = script.sectionCode x := List.ext_getElem? fun k => by
      rw [Array.getElem?_toList, hcode]
    rw [← heq, Array.length_toList]
  have hlt := (Array.getElem?_eq_some_iff.1 hpc).1
  rw [← hsize]
  by_contra hge
  have hend : pc = s.code.size - 1 := by omega
  have hback : s.code.back? = some i := by rw [Array.back?, ← hend, hpc]
  rw [CodeSection.lastOp?, hback] at hlast
  rcases hlast with hlast | hlast <;> rw [show i.op = _ from Option.some.inj hlast] at hgoes <;> cases hgoes

theorem classes_of_compile (hc : script.compile = .ok p) : p.classes = script.draft.2.classes := by
  obtain ⟨-, -, -, rfl⟩ := assemble_eq_ok (program_of_compile hc)
  rfl

/-- **Coupled programs.** The program of a script with dots and the program of the script itself are coupled. -/
theorem exists_coupling (hs : Every (·.SparesOperands) script.nodes) {P Q : Program}
    (hP : script.dotted.compile = .ok P) (hQ : script.compile = .ok Q) : Nonempty (Coupling P Q) := by
  obtain ⟨w, hdotted, hbracketed, hw, hcode⟩ := exists_ledger hs
  have hd : Interned w.dotted.constants := hdotted ▸ interned_draft script.dotted
  have he : Interned w.bracketed.constants := hbracketed ▸ interned_draft script
  choose sheet hstrand hside hside' using exists_strand hdotted hbracketed hw hcode
  have hdottedAt : ∀ x pc, P.instruction? x pc = (sheet x)[pc]?.map Cell.instruction := fun x pc => by
    rw [instruction?_of_compile hP, ← hside, List.getElem?_map]
  have hbracketedAt : ∀ x pc, Q.instruction? x pc = (bracketedCode (sheet x))[pc]? := fun x pc => by
    rw [instruction?_of_compile hQ, ← hside']
  have hbodies : ∀ i : Nat, (w.bracketed.bodies[i]?.map fun b => (b.name, b.params)) =
      w.dotted.bodies[i]?.map fun b => (b.name, b.params) := fun i => by
    have hmatching := @hw.bodies i
    rcases Nat.lt_or_ge i w.bracketed.bodies.size with hlt | hge
    · have hlt' : i < w.dotted.bodies.size := hw.size ▸ hlt
      rw [Array.getElem?_eq_getElem hlt, Array.getElem?_eq_getElem hlt'] at hmatching ⊢
      have hbody := hmatching rfl rfl
      simp [hbody.name, hbody.params]
    · have hge' : w.dotted.bodies.size ≤ i := hw.size ▸ hge
      rw [Array.getElem?_eq_none hge, Array.getElem?_eq_none hge']
  refine ⟨{
    ledger := w, sheet, pool := poolMap w.dotted w.bracketed
    pool_injective := poolMap_injective hd he hw.matched
    strand := hstrand, dotted := hdottedAt, bracketed := hbracketedAt
    constant := fun hn => ?_, constant' := fun hn => ?_, repooled := value_repooled hd he, functions := ?_
    classes := ?_, sectionName := fun x => ?_, target := fun {x pc l cell} hcell hl => ?_
    goesOn := fun {x pc cell} hcell hgoes => ?_ }⟩
  · rw [constants_eq hP, Array.getElem?_mapIdx, ← hdotted, hn]
    rfl
  · rw [constants_eq hQ, Array.getElem?_mapIdx, ← hbracketed, hn]
    rfl
  · rw [functions_eq hP, functions_eq hQ, ← hdotted, ← hbracketed]
    apply Array.ext_getElem?
    intro i
    have hbody := hbodies i
    simp only [Array.getElem?_mapIdx]
    cases hb : w.bracketed.bodies[i]? <;> cases hb' : w.dotted.bodies[i]? <;> rw [hb, hb'] at hbody <;>
      simp_all [Body.function]
  · rw [classes_of_compile hP, classes_of_compile hQ, ← hdotted, ← hbracketed, hw.classes]
  · obtain ⟨hscriptP, hbodiesP⟩ := sections_of_compile hP
    obtain ⟨hscriptQ, hbodiesQ⟩ := sections_of_compile hQ
    cases x with
    | zero => rw [Program.sectionName?, Program.sectionName?, hscriptP, hscriptQ]; rfl
    | succ n =>
      have hbody := congrArg (Option.map Prod.fst) (hbodies n)
      simpa [Program.sectionName?, hbodiesP, hbodiesQ, ← hdotted, ← hbracketed, Function.comp_def] using hbody
  · have hi : P.instruction? x pc = some cell.instruction := by rw [hdottedAt, hcell]; rfl
    obtain ⟨t, ht, hlabel⟩ := (Program.assembled_of_assemble (program_of_compile hP)).resolves hi hl
    obtain ⟨j, hj, hop⟩ := Program.labelAt_iff.1 hlabel
    rw [hdottedAt] at hj
    obtain ⟨goal, hgoal, rfl⟩ := Option.map_eq_some_iff.1 hj
    refine ⟨t, goal, ht, ?_, hgoal, hop⟩
    have hsingle := (((hstrand x).couple hgoal).of_label hop).1
    have hplace : Q.instruction? x (place (sheet x) t) = some goal.instruction := by
      have hget := getElem?_place hgoal (j := 0) (by rw [hsingle]; exact Nat.zero_lt_one)
      rw [Nat.add_zero, hsingle] at hget
      rw [hbracketedAt, hget]
      rfl
    exact (assemble_ok (program_of_compile hQ)).2.2.2 x _ _ l hplace hop
  · have hi : P.instruction? x pc = some cell.instruction := by rw [hdottedAt, hcell]; rfl
    have hlt := goes_on hP hi hgoes
    rwa [← hside, List.length_map] at hlt

end Script

end ScriptMachine
