import ScriptMachine.Proofs.Code.Assembly

/-!
# WellLaid — what every compiled program looks like

Labels, constants, functions and ends of sections of a program that the compiler hands out
(`Program.WellLaid`), for every script, whatever its names. That generated code refers only to constants
that are in the pool by then, and that nothing but the script has an end, is one induction over the rules
of the generator (`Emits.pooled`); labels come from `Assembly`.
-/

namespace ScriptMachine.Compile

open Listing

/-! ### Constants and ends in generated code -/

/-- Operations that neither end the script nor name a constant. -/
def isInner : Opcode → Bool
  | .eof => false
  | .const _ => false
  | _ => true

/-- An operation inside a section, whose constant is in a pool of the given size. -/
def Fair (pool : Nat) (op : Opcode) : Prop := op ≠ .eof ∧ ∀ n, op = .const n → n < pool

theorem Fair.mono {pool pool' : Nat} {op : Opcode} (h : Fair pool op) (hle : pool ≤ pool') :
    Fair pool' op := ⟨h.1, fun n hn => Nat.lt_of_lt_of_le (h.2 n hn) hle⟩

theorem fair_of_isInner {pool : Nat} {op : Opcode} (h : isInner op = true) : Fair pool op := by
  constructor
  · rintro rfl
    cases h
  · rintro n rfl
    cases h

/-- While the pool grows from one size to another, code is emitted that is fair, up to what was given. -/
structure Pooled (given ops : List Opcode) (n n' : Nat) : Prop where
  grows : n ≤ n'
  fair : ∀ op ∈ ops, op ∈ given ∨ Fair n' op

namespace Pooled

variable {x x' A B ops : List Opcode} {n n₁ n' : Nat}

theorem emit (ops : List Opcode) (n : Nat) : Pooled ops ops n n := ⟨Nat.le_refl n, fun _ h => .inl h⟩

theorem seq (hA : Pooled x A n n₁) (hB : Pooled x' B n₁ n') : Pooled (x ++ x') (A ++ B) n n' where
  grows := Nat.le_trans hA.grows hB.grows
  fair op hop := by
    rcases List.mem_append.1 hop with hop | hop
    · exact (hA.fair op hop).imp (List.mem_append_left _) (·.mono hB.grows)
    · exact (hB.fair op hop).imp_left (List.mem_append_right _)

/-- Of what was given nothing matters. -/
theorem plain (h : Pooled x ops n n') (hx : x.all isInner = true) : Pooled [] ops n n' :=
  ⟨h.grows, fun op hop => .inr ((h.fair op hop).elim
    (fun hmem => fair_of_isInner (List.all_eq_true.1 hx op hmem)) id)⟩

/-- Code that is not used. -/
theorem unused (h : Pooled x A n n₁) (h' : Pooled x' B n₁ n') : Pooled x' B n n' :=
  ⟨Nat.le_trans h.grows h'.grows, h'.fair⟩

theorem target (place : Target) (span : Span) (n : Nat) :
    Pooled [] (Listing.ops (place.load span)).opcodes n n ∧
      Pooled [] (Listing.ops (place.save span)).opcodes n n := by
  cases place <;> exact ⟨(emit _ _).plain rfl, (emit _ _).plain rfl⟩

/-- Code around the uses of a target. -/
theorem around {span : Span} {K U : Listing} {place : Target} (hK : Pooled [] K.opcodes n n₁)
    (hU : Pooled [] U.opcodes n₁ n') : Pooled [] (around span K U place).opcodes n n' := by
  have hwithin : Pooled [] (within span (K ++ U)).opcodes n n' := by
    simp only [opcodes_within, opcodes_append]
    exact (((emit [.enterScope] _).seq (hK.seq hU)).seq (emit [.leaveScope] _)).plain rfl
  cases place with
  | plain name => exact hK.unused hU
  | property | element => exact hwithin

end Pooled

/-- What stands in the code of a piece because it was handed in. -/
def Piece.given : Piece → List Opcode
  | .exprThen _ after _ => after
  | .finish _ _ L => L.opcodes
  | _ => []

/-- The code of a piece names constants that are in the pool when it is done, and it has no end. -/
theorem Emits.pooled {p : Piece} {d d' : Draft} {L : Listing} (h : Emits p d L d') :
    Pooled p.given L.opcodes d.constants.size d'.constants.size := by
  induction h with
  | @literal span lit d =>
    obtain ⟨hgrows, hlt⟩ := size_poolIndex lit d
    refine ⟨hgrows, fun op hop => .inr ?_⟩
    rw [opcodes_asm, List.mem_singleton] at hop
    subst hop
    exact ⟨nofun, fun n hn => by cases hn; exact hlt⟩
  | expr _ ih | constant _ _ ih | defaultOther _ _ ih | stmtSome _ ih | returnedNone _ ih
  | returnedSome _ ih | badPattern _ _ ih | badUpdate _ _ ih | badAssign _ _ ih => exact ih
  | ident | this | saveIdent | defaultConstructor | debugger | noHandler =>
    simp only [opcodes_asm]
    exact (Pooled.emit _ _).plain rfl
  | operandsIdent | exprsNil | fieldsNil | methodsNil | stmtNone | stmtsNil | empty | finalNone | leaveZero
  | leaveNil | strayBreak | strayContinue | strayReturn | repeatedClass =>
    exact (Pooled.emit [] _).plain rfl
  | exprThenNone => exact ⟨Nat.le_refl _, nofun⟩
  | exprThenSome _ ih =>
    simp only [opcodes_append, opcodes_asm]
    exact ih.seq (.emit _ _)
  | array _ ih | record _ ih | member _ ih | new _ ih | saveMember _ ih | calleeMember _ ih | calleeOther _ _ ih
  | exprStmt _ ih | throw _ ih | ret _ _ _ ih | «break» _ _ ih | «continue» _ _ ih =>
    simp only [opcodes_append, opcodes_asm]
    exact (ih.seq (.emit _ _)).plain rfl
  | var _ ih | leaveLoop _ ih | leavePending _ ih =>
    simp only [opcodes_append, opcodes_asm]
    exact ((Pooled.emit _ _).seq ih).plain rfl
  | index _ _ ih₁ ih₂ | binary _ _ ih₁ ih₂ | negate _ _ ih₁ ih₂ | saveIndex _ _ ih₁ ih₂ =>
    simp only [opcodes_append, opcodes_asm]
    exact ((ih₁.seq ih₂).seq (.emit _ _)).plain rfl
  | calleeIndex _ _ ih₁ ih₂ =>
    simp only [opcodes_append, opcodes_asm]
    exact (((ih₁.seq (.emit _ _)).seq ih₂).seq (.emit _ _)).plain rfl
  | assign _ _ ih₁ ih₂ =>
    simp only [opcodes_append, opcodes_asm]
    exact ((ih₁.seq (.emit _ _)).seq ih₂).plain rfl
  | exprsCons _ _ ih₁ ih₂ | fieldsCons _ _ ih₁ ih₂ | call _ _ ih₁ ih₂ | stmtsCons _ _ ih₁ ih₂ =>
    simp only [opcodes_append]
    exact (ih₁.seq ih₂).plain rfl
  | methodsCons _ _ ih₁ ih₂ => exact ih₁.unused (ih₂.unused (.emit [] _))
  | @update span op giveNew _ _ place d K d₁ N d' _ _ ih₁ ih₂ =>
    have hchange : Pooled [] (N ++ asm span [.binary (updateOp op)] ++ .ops (place.save span)).opcodes
        d₁.constants.size d'.constants.size := by
      simp only [opcodes_append, opcodes_asm]
      exact ((ih₂.seq (.emit _ _)).seq (Pooled.target _ _ _).2).plain rfl
    refine .around ih₁ ?_
    cases giveNew with
    | true =>
      rw [if_pos rfl, opcodes_append, opcodes_append]
      exact ((Pooled.target _ _ _).1.seq hchange).seq (Pooled.target _ _ _).1
    | false =>
      rw [if_neg Bool.false_ne_true, opcodes_append, opcodes_append]
      exact ((Pooled.target _ _ _).1.seq (Pooled.target _ _ _).1).seq hchange
  | assignOp _ _ ih₁ ih₂ =>
    refine .around ih₁ ?_
    simp only [opcodes_append, opcodes_asm]
    exact ((((Pooled.target _ _ _).1.seq ih₂).seq (.emit _ _)).seq (Pooled.target _ _ _).2).plain rfl
  | operandsMember _ ih =>
    simp only [opcodes_append, opcodes_keepAs]
    exact (ih.seq (.emit _ _)).plain rfl
  | operandsIndex _ _ ih₁ ih₂ =>
    simp only [opcodes_append, opcodes_keepAs]
    exact (((ih₁.seq (.emit _ _)).seq ih₂).seq (.emit _ _)).plain rfl
  | lambda _ ih =>
    simp only [opcodes_asm]
    exact (ih.unused (.emit _ _)).plain rfl
  | finished => exact .emit _ _
  | @unfinished _ _ L _ _ d' _ _ ih =>
    have hlast : Pooled [] [Opcode.ret] d'.constants.size d'.constants.size := (Pooled.emit _ _).plain rfl
    simp only [opcodes_append, opcodes_asm]
    simpa only [Piece.given, List.append_nil] using ((Pooled.emit L.opcodes _).seq ih).seq hlast
  | body _ _ ih₁ ih₂ => exact ⟨Nat.le_trans ih₁.grows ih₂.grows, nofun⟩
  | stmt _ ih =>
    rw [opcodes_stmt]
    exact ih
  | functionStmt _ ih => exact ih.unused (.emit [] _)
  | «class» _ _ ih => exact ih.unused (.emit [] _)
  | block _ ih | finalSome _ ih =>
    rw [opcodes_within]
    exact (((Pooled.emit _ _).seq ih).seq (.emit _ _)).plain rfl
  | handlerParam _ ih =>
    simp only [opcodes_within, opcodes_append, opcodes_keepAs]
    exact (((Pooled.emit _ _).seq ((Pooled.emit _ _).seq ih)).seq (.emit _ _)).plain rfl
  | handler _ ih =>
    simp only [opcodes_within, opcodes_append, opcodes_asm]
    exact ((Pooled.emit _ _).seq (((Pooled.emit _ _).seq ih).seq (.emit _ _))).plain rfl
  | retLeaving _ _ _ _ ih₁ ih₂ =>
    simp only [opcodes_append, opcodes_asm, opcodes_keepAs]
    exact (((ih₁.seq (.emit _ _)).seq ih₂).seq (.emit _ _)).plain rfl
  | leaveRegion _ _ ih₁ ih₂ =>
    simp only [opcodes_append, opcodes_asm]
    exact (((Pooled.emit _ _).seq ih₁).seq ih₂).plain rfl
  | not _ _ _ ih₁ ih₂ ih₃ | conditional _ _ _ ih₁ ih₂ ih₃ | cond _ _ _ ih₁ ih₂ ih₃ =>
    simp only [opcodes_append, opcodes_asm]
    exact ((((((ih₁.seq (.emit _ _)).seq ih₂).seq (.emit _ _)).seq ih₃).seq (.emit _ _))).plain rfl
  | @logical _ op _ _ _ _ _ _ _ _ _ _ _ _ ih₁ ih₂ ih₃ =>
    simp only [opcodes_append, opcodes_asm]
    exact ((((((ih₁.seq (.emit _ _)).seq ih₂).seq (.emit _ _)).seq ih₃).seq (.emit _ _))).plain
      (by cases op <;> rfl)
  | «while» _ _ ih₁ ih₂ =>
    simp only [opcodes_append, opcodes_asm]
    exact (((((Pooled.emit _ _).seq ih₁).seq (.emit _ _)).seq ih₂).seq (.emit _ _)).plain rfl
  | «for» _ _ _ _ ih₁ ih₂ ih₃ ih₄ =>
    simp only [opcodes_append, opcodes_asm, opcodes_within]
    exact (((Pooled.emit _ _).seq ((((((ih₁.seq (.emit _ _)).seq ih₂).seq ih₃).seq (.emit _ _)).seq ih₄).seq
      (.emit _ _))).seq (.emit _ _)).plain rfl
  | «try» _ _ _ _ ih₁ ih₂ ih₃ ih₄ =>
    simp only [opcodes_append, opcodes_asm, opcodes_within]
    exact ((((((((Pooled.emit _ _).seq (((Pooled.emit _ _).seq ih₁).seq (.emit _ _))).seq (.emit _ _)).seq
      ih₂).seq (.emit _ _)).seq ih₃).seq (.emit _ _)).seq ih₄).plain rfl

/-! ### Bodies -/

/-- A body ends with a return. -/
theorem Emits.last_finish {kind : BodyKind} {span : Span} {d d' : Draft} {L F : Listing}
    (hF : Emits (.finish kind span L) d F d') : lastOp? F.code = some .ret := by
  cases hF with
  | finished hlast => exact hlast
  | unfinished => simp [lastOp?, emit]

theorem Compiled.last {ok : Node → Prop} {kind : BodyKind} {ss : List Stmt} {e : Draft} {b : Body}
    (h : Compiled ok kind ss e b) : lastOp? b.code = some .ret := by
  obtain ⟨span, d, L, d₁, F, -, hF, hcode⟩ := h.emits
  exact hcode ▸ hF.last_finish

theorem Compiled.fair {ok : Node → Prop} {kind : BodyKind} {ss : List Stmt} {e : Draft} {b : Body}
    (h : Compiled ok kind ss e b) : ∀ op ∈ opsOf b.code, Fair e.constants.size op := by
  obtain ⟨span, d, L, d₁, F, hL, hF, hcode⟩ := h.emits
  intro op hop
  rw [← hcode] at hop
  rcases hF.pooled.fair op hop with hbefore | hfair
  · rcases hL.pooled.fair op hbefore with hnone | hfair
    · cases hnone
    · exact hfair.mono hF.pooled.grows
  · exact hfair

end ScriptMachine.Compile

namespace ScriptMachine

open Compile Listing

/-! ### Programs -/

/-- A section is the body of an entry of the table of functions. -/
def Program.OwnedBy (p : Program) (x n : Nat) : Prop := ∃ f, p.functions[n]? = some f ∧ f.sectionIndex = x

/-- How the compiler lays out a program. -/
structure Program.WellLaid (p : Program) : Prop where
  /-- A label stands at one place of the program. -/
  labels : ∀ {l x pc x' pc'}, LabelAt p.sections l x pc → LabelAt p.sections l x' pc' → x = x' ∧ pc = pc'
  /-- The labels that an instruction names stand in its own section. -/
  targets : ∀ {x pc i l}, p.instruction? x pc = some i → l ∈ i.op.targets → ∃ pc', LabelAt p.sections l x pc'
  /-- Constants are in the pool. -/
  constants : ∀ {x pc i n}, p.instruction? x pc = some i → i.op = .const n → n < p.constants.size
  /-- The table of functions lists the sections in order, all but the script. -/
  table : p.sections.size = p.functions.size + 1
  owner : ∀ {n f}, p.functions[n]? = some f → f.sectionIndex = n + 1
  /-- A function ends with a return. -/
  returns : ∀ {x s}, p.sections[x + 1]? = some s → s.lastOp? = some .ret
  /-- The script has an end. -/
  ending : ∃ s, p.sections[0]? = some s ∧ s.lastOp? = some .eof
  /-- Nothing else does. -/
  eof : ∀ {x pc i}, p.instruction? x pc = some i → i.op = .eof → x = 0 ∧ p.instruction? x (pc + 1) = none

/-- The code of a section, by its number. -/
theorem Script.code_of_compile {script : Script} {p : Program} (hc : script.compile = .ok p) {x pc : Nat}
    {i : Instruction} (hi : p.instruction? x pc = some i) :
    (x = 0 ∧ script.draft.1[pc]? = some i) ∨
      ∃ n b, x = n + 1 ∧ script.draft.2.bodies[n]? = some b ∧ b.code[pc]? = some i := by
  obtain ⟨hscript, hbodies⟩ := sections_of_compile hc
  obtain ⟨s, hs, hpc⟩ := Option.bind_eq_some_iff.1 hi
  cases x with
  | zero =>
    rw [hscript] at hs
    cases hs
    exact .inl ⟨rfl, by simpa using hpc⟩
  | succ n =>
    rw [hbodies] at hs
    obtain ⟨b, hb, rfl⟩ := Option.map_eq_some_iff.1 hs
    exact .inr ⟨n, b, rfl, hb, by simpa using hpc⟩

/-- The code of a body is fair. -/
theorem Script.fair_body {script : Script} {n : Nat} {b : Body} (hb : script.draft.2.bodies[n]? = some b)
    {op : Opcode} (hop : op ∈ opsOf b.code) : Fair script.draft.2.constants.size op := by
  have hevery : Every (fun _ => True) script.nodes := fun _ _ => trivial
  obtain ⟨kind, ss, e, hcompiled, hpool⟩ := Script.compiled_body hevery hb
  exact (hcompiled.fair op hop).mono hpool.length_le

/-- The code of the script is fair up to its end. -/
theorem Script.code_eq (script : Script) :
    ∃ code, script.draft.1 = code ++ emit .unknown [.eof] ∧
      ∀ op ∈ opsOf code, Fair script.draft.2.constants.size op := by
  obtain ⟨L, hL, cL⟩ := emits_draft script
  refine ⟨L.code, cL, fun op hop => ?_⟩
  rcases hL.pooled.fair op hop with hnone | hfair
  · cases hnone
  · exact hfair

theorem mem_opsOf {code : Code} {pc : Nat} {i : Instruction} (h : code[pc]? = some i) : i.op ∈ opsOf code :=
  List.mem_map_of_mem (List.mem_of_getElem? h)

/-- An instruction of the script is its end, or it is fair. -/
theorem Script.fair_script {script : Script} {pc : Nat} {i : Instruction} (hi : script.draft.1[pc]? = some i) :
    (i.op = .eof ∧ script.draft.1[pc + 1]? = none) ∨ Fair script.draft.2.constants.size i.op := by
  obtain ⟨code, hcode, hfair⟩ := script.code_eq
  rw [hcode] at hi ⊢
  rcases Nat.lt_or_ge pc code.length with hlt | hge
  · rw [List.getElem?_append_left hlt] at hi
    exact .inr (hfair _ (mem_opsOf hi))
  · rw [List.getElem?_append_right hge] at hi
    obtain ⟨hlast, -⟩ := List.getElem?_eq_some_iff.1 hi
    have hpc : pc = code.length := by
      simp only [emit, List.length_map, List.length_singleton] at hlast
      omega
    subst hpc
    rw [Nat.sub_self] at hi
    cases hi
    exact .inl ⟨rfl, by simp [emit]⟩

/-- A compiled program is well laid out. -/
theorem Script.wellLaid_of_compile {script : Script} {p : Program} (hc : script.compile = .ok p) :
    p.WellLaid := by
  have hp := program_of_compile hc
  have hlinked := linked_of_assemble (Program.assembled_of_assemble hp)
  obtain ⟨hsections, hconstants, hfunctions, -⟩ := assemble_ok hp
  obtain ⟨hscript, hbodies⟩ := sections_of_compile hc
  have hpool : p.constants.size = script.draft.2.constants.size := by rw [hconstants, Array.size_mapIdx]
  refine ⟨hlinked.once, fun {x pc i l} hi hl => ?_, fun {x pc i n} hi hn => ?_, ?_, fun {n f} hf => ?_,
    fun {x s} hs => ?_, ?_, fun {x pc i} hi he => ?_⟩
  · obtain ⟨s, hs, hpc⟩ := Option.bind_eq_some_iff.1 hi
    exact hlinked.own hs (Array.mem_of_getElem? hpc) hl
  · rw [hpool]
    rcases code_of_compile hc hi with ⟨-, hi⟩ | ⟨m, b, -, hb, hi⟩
    · rcases fair_script hi with ⟨he, -⟩ | hfair
      · rw [hn] at he
        cases he
      · exact hfair.2 n hn
    · exact (fair_body hb (mem_opsOf hi)).2 n hn
  · rw [hsections, hfunctions]
    simp
    omega
  · rw [hfunctions, Array.getElem?_mapIdx] at hf
    obtain ⟨b, -, rfl⟩ := Option.map_eq_some_iff.1 hf
    rfl
  · rw [hbodies] at hs
    obtain ⟨b, hb, rfl⟩ := Option.map_eq_some_iff.1 hs
    have hevery : Every (fun _ => True) script.nodes := fun _ _ => trivial
    obtain ⟨kind, ss, e, hcompiled, -⟩ := Script.compiled_body hevery hb
    simpa [CodeSection.lastOp?, lastOp?] using hcompiled.last
  · obtain ⟨code, hcode, -⟩ := script.code_eq
    refine ⟨_, hscript, ?_⟩
    simp [CodeSection.lastOp?, hcode, emit]
  · rcases code_of_compile hc hi with ⟨rfl, hpc⟩ | ⟨m, b, -, hb, hpc⟩
    · refine ⟨rfl, ?_⟩
      rcases fair_script hpc with ⟨-, hnone⟩ | hfair
      · rw [Program.instruction?, hscript]
        simpa using hnone
      · exact absurd he hfair.1
    · exact absurd he (fair_body hb (mem_opsOf hpc)).1

/-- A section other than the script belongs to one function. -/
theorem Program.WellLaid.existsUnique_owner {p : Program} (h : p.WellLaid) {x : Nat} (h0 : x ≠ 0)
    (hx : x < p.sections.size) : ∃! n, p.OwnedBy x n := by
  have htable := h.table
  have hlt : x - 1 < p.functions.size := by omega
  have hget := Array.getElem?_eq_getElem hlt
  refine ⟨x - 1, ⟨_, hget, ?_⟩, ?_⟩
  · have howner := h.owner hget
    omega
  · rintro n ⟨f, hf, hindex⟩
    have howner := h.owner hf
    omega

/-- **The compiler reports problems or hands out a program that is well laid out**: the assembler never
refuses what the generator made. -/
theorem Script.compile_wellLaid (script : Script) :
    (∃ ds, script.compile = .error (.compile ds) ∧ ds ≠ []) ∨
      ∃ p, script.compile = .ok p ∧ p.WellLaid ∧
        ∀ x, x ≠ 0 → x < p.sections.size → ∃! n, p.OwnedBy x n := by
  by_cases hproblems : script.problems.isEmpty = true
  · obtain ⟨p, hp⟩ := exists_program script
    have hc : script.compile = .ok p := by
      rw [Script.compile]
      exact (if_pos hproblems).trans hp
    have hlaid := wellLaid_of_compile hc
    exact .inr ⟨p, hc, hlaid, fun _ h0 hx => hlaid.existsUnique_owner h0 hx⟩
  · exact .inl ⟨script.problems, if_neg hproblems, by simpa using hproblems⟩

end ScriptMachine
