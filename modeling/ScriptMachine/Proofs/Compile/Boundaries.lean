import ScriptMachine.Proofs.Compile.Provenance

/-!
# Boundaries — which instructions begin a statement

The boundaries of a program are where it may pause. The first instruction of each piece of code that a statement became
is one, once for each place the statement was compiled to, and there are no others (`Script.boundaries_exact`): what an
expression, an exit or the end of a body adds to the code is not marked, and a declaration, which has no code in line,
marks nothing around it.
-/

namespace ScriptMachine

open Compile Segment

variable {script : Script} {p : Program}

/-- A statement was compiled to so many instructions at a place. -/
def Script.StatementAt (script : Script) (x pc n : Nat) (s : Stmt) : Prop :=
  ∃ around e, script.Emitted x pc e ∧ e.piece = .stmt around s ∧ e.listing.code.length = n

/-- The code of a statement begins with a boundary. -/
theorem Script.StatementAt.boundary (hc : script.compile = .ok p) {x pc n : Nat} {s : Stmt}
    (h : script.StatementAt x pc n s) (hn : 0 < n) : ∃ i, p.instruction? x pc = some i ∧ i.boundary = true := by
  obtain ⟨around, ⟨_, d, L, d', hemits⟩, hplace, rfl, rfl⟩ := h
  cases hemits with
  | @stmt _ span k _ L _ hk =>
    cases hL : L.code with
    | nil => simp [hL, markFirst] at hn
    | cons i rest =>
      obtain ⟨j, hj, hij⟩ := hplace.lies hc 0 { i with boundary := true } (by simp [hL, markFirst])
      exact ⟨j, hj, hij.boundary rfl⟩

/-- A boundary is where the code of a statement begins: whatever a piece adds of its own is no boundary, until a
statement is marked. -/
theorem Script.exists_statementAt (hc : script.compile = .ok p) {x pc : Nat} {i : Instruction}
    (hi : p.instruction? x pc = some i) : i.boundary = true → ∃ n s, script.StatementAt x pc n s ∧ 0 < n := by
  refine forall_instruction (Q := fun x pc i => i.boundary = true → ∃ n s, script.StatementAt x pc n s ∧ 0 < n) hc
    ?_ ?_ nofun hi
  · intro x pc e before code bare after _ _ n i hn hbound
    have hfalse := bare i (List.mem_of_getElem? hn)
    rw [hbound] at hfalse
    cases hfalse
  · exact fun hplace hpiece hcode _ _ =>
      ⟨_, _, ⟨_, _, hplace, hpiece, rfl⟩, List.length_pos_iff.2 hcode⟩

/-- A statement that has no code in line. -/
def Stmt.isSilent : Stmt → Bool
  | .node _ (.function ..) | .node _ (.class ..) | .node _ .empty => true
  | _ => false

theorem Compile.length_markFirst (c : Code) : (markFirst c).length = c.length := by
  cases c <;> rfl

/-- Where nothing was objected to, declarations and empty statements have no code, and all others have some. -/
theorem Compile.Emits.silent {around : Surroundings} {s : Stmt} {d d' : Draft} {L : Listing}
    (h : Emits (.stmt around s) d L d') (hok : d'.problems = []) : L.code.length = 0 ↔ s.isSilent = true := by
  cases h with
  | stmt hk =>
    rw [Listing.code_stmt, length_markFirst]
    cases hk with
    | functionStmt | «class» | empty => exact ⟨fun _ => rfl, fun _ => rfl⟩
    | strayBreak | strayContinue | strayReturn | repeatedClass => cases hok
    | _ => simp [emit, inScope, Stmt.isSilent]

/-- What the code of a body ends with, behind its statements: the end of the script, or the return that they lack. -/
inductive Ending (own : Code) : BodyKind → Code → Prop where
  | script : Ending own .script (emit .unknown [.eof])
  | returned {kind : BodyKind} : lastOp? own = some .ret → Ending own kind []
  | undefined {kind : BodyKind} (span : Span) (n : Nat) : kind ≠ .constructor → lastOp? own ≠ some .ret →
      Ending own kind (emit span [.const n, .ret])
  | this (span : Span) : lastOp? own ≠ some .ret → Ending own .constructor (emit span [.fetch thisName, .ret])

theorem Ending.bare {own ending : Code} {kind : BodyKind} (h : Ending own kind ending) :
    ∀ i ∈ ending, i.boundary = false := by
  cases h with
  | returned => exact nofun
  | script | undefined | this => exact bare_emit _ _

/-- The end of a body. -/
theorem Compile.Emits.ending {kind : BodyKind} {span : Span} {L F : Listing} {d d' : Draft}
    (h : Emits (.finish kind span L) d F d') : ∃ ending, F.code = L.code ++ ending ∧ Ending L.code kind ending := by
  cases h with
  | finished hL => exact ⟨[], (List.append_nil _).symm, .returned hL⟩
  | unfinished hL hD =>
    cases hD with
    | defaultConstructor => exact ⟨_, by simp [emit], .this span hL⟩
    | defaultOther hk hlit =>
      cases hlit
      exact ⟨emit span [.const (poolIndex .undefined d).1, .ret], by simp [emit], .undefined span _ hk hL⟩

/-- Every section is the code of the statements of a body and an ending. -/
theorem Script.exists_ending (hc : script.compile = .ok p) {x : Nat} {s : CodeSection} (hs : p.sections[x]? = some s) :
    ∃ kind ss e ending, script.Emitted x 0 e ∧ e.piece = .stmts { body := kind } ss ∧
      s.code.toList = e.listing.code ++ ending ∧ Ending e.listing.code kind ending := by
  obtain ⟨hscript, hbodies⟩ := sections_of_compile hc
  cases x with
  | zero =>
    obtain ⟨L, hL, hcode⟩ := emits_draft script
    rw [hscript] at hs
    cases hs
    exact ⟨.script, _, _, _, .script hL hcode, rfl, hcode, .script⟩
  | succ n =>
    have hs' := hs
    rw [hbodies] at hs'
    obtain ⟨b, hb, -⟩ := Option.map_eq_some_iff.1 hs'
    obtain ⟨hL, hF, hplace⟩ := Script.hasBody (Array.getElem?_eq_some_iff.1 hb).1
    rw [hplace.section_kept hc hL hF] at hs
    cases hs
    obtain ⟨ending, hcode, hending⟩ := hF.ending
    exact ⟨_, _, _, ending, .body hL hF hplace, rfl, hcode, hending⟩

/-- **Boundaries are exact.** In a compiled script an instruction is a boundary exactly if the code of a statement begins
there, at any of the places that the statement was compiled to. Declarations and empty statements have no code, and all
other statements have some. What a section has behind its statements is no boundary. -/
theorem Script.boundaries_exact (hc : script.compile = .ok p) :
    (∀ x pc i, p.instruction? x pc = some i →
      (i.boundary = true ↔ ∃ n s, script.StatementAt x pc n s ∧ 0 < n)) ∧
    (∀ x pc n s, script.StatementAt x pc n s → (n = 0 ↔ s.isSilent = true)) ∧
    ∀ x s, p.sections[x]? = some s → ∃ kind ss e ending, script.Emitted x 0 e ∧ e.piece = .stmts { body := kind } ss ∧
      s.code.toList = e.listing.code ++ ending ∧ Ending e.listing.code kind ending ∧
      ∀ i ∈ ending, i.boundary = false := by
  refine ⟨fun x pc i hi => ⟨exists_statementAt hc hi, ?_⟩, ?_, fun x s hs => ?_⟩
  · rintro ⟨n, s, hs, hn⟩
    obtain ⟨j, hj, hbound⟩ := hs.boundary hc hn
    rw [hi] at hj
    cases hj
    exact hbound
  · rintro x pc n s ⟨around, ⟨_, d, L, d', hemits⟩, hplace, rfl, rfl⟩
    refine hemits.silent (List.length_eq_zero_iff.1 (Nat.le_zero.1 ?_))
    have hle := hplace.problems_le
    rwa [((compiles_iff_problems script).1 ⟨p, hc⟩).2] at hle
  · obtain ⟨kind, ss, e, ending, hplace, hpiece, hcode, hending⟩ := Script.exists_ending hc hs
    exact ⟨kind, ss, e, ending, hplace, hpiece, hcode, hending, hending.bare⟩

/-- Where the boundaries of a section are. -/
def CodeSection.boundaries (s : CodeSection) : List Nat :=
  (s.code.toList.zipIdx.filter fun (i, _) => i.boundary).map Prod.snd

/-- A return from a try statement, of a function without statements. The final part is compiled three times. -/
def Script.parting : Script :=
  { body := [.node .unknown (.function "part" [] [.node .unknown (.try
      [.node .unknown (.ret (some (.node .unknown (.function (some "empty") [] []))))] none
      (some [.node .unknown .debugger]))])] }

theorem Script.boundaries_exact_parting : ∃ p, parting.compile = .ok p ∧
    p.sections.toList.map CodeSection.boundaries = [[], [0, 2, 7, 21, 26], []] ∧
    (∃ n s, parting.StatementAt 1 7 n s ∧ 0 < n) ∧ ¬ ∃ n s, parting.StatementAt 1 28 n s ∧ 0 < n := by
  have hchecked : parting.compile.toOption.any (fun p =>
      p.sections.toList.map CodeSection.boundaries == [[], [0, 2, 7, 21, 26], []] &&
        ((p.instruction? 1 7).any (·.boundary) && (p.instruction? 1 28).any (!·.boundary))) = true := by
    decide +kernel
  cases hp : parting.compile with
  | error cause =>
    rw [hp] at hchecked
    cases hchecked
  | ok p =>
    rw [hp] at hchecked
    simp only [Except.toOption, Option.any_some, Bool.and_eq_true, beq_iff_eq, Option.any_eq_true,
      Bool.not_eq_true'] at hchecked
    obtain ⟨hsections, ⟨i, hi, hmarked⟩, j, hj, hplain⟩ := hchecked
    have hexact := (boundaries_exact hp).1
    refine ⟨p, rfl, hsections, (hexact 1 7 i hi).1 hmarked, fun hstmt => ?_⟩
    rw [(hexact 1 28 j hj).2 hstmt] at hplain
    cases hplain

end ScriptMachine
