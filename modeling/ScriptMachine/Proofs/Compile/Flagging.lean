import ScriptMachine.Proofs.Compile.Boundaries

/-!
# Flagging — the boundary of a statement as a flag

`markFirst` marks the first instruction of a statement when all its code is there. Code that is written one instruction
after the other can be marked with a flag: a statement puts the flag up, the next instruction that is written takes it,
and the end of the statement takes it down (`Listing.flagged`). A body is written to a section of its own, with the flag
down at first, and leaves the flag as it was. Everything that is compiled is marked alike in both ways
(`Emits.flagged`): a statement that contains others writes an instruction of its own before them, so that none of them
can take the flag from it.
-/

namespace ScriptMachine

namespace Compile

open Listing

/-! ### Code that is written with a flag -/

/-- Instructions written with a flag: the first one takes it. -/
def flagFirst : Code → Bool → Code × Bool
  | [], up => ([], up)
  | i :: rest, up => ({ i with boundary := up } :: rest, false)

/-- A listing written with a flag. -/
def Listing.flagged : Listing → Bool → Code × Bool
  | .ops code, up => flagFirst code up
  | .append a b, up => ((a.flagged up).1 ++ (b.flagged (a.flagged up).2).1, (b.flagged (a.flagged up).2).2)
  | .stmt body, _ => ((body.flagged true).1, false)

namespace Listing

theorem flagged_append (a b : Listing) (up : Bool) : (a ++ b).flagged up =
    ((a.flagged up).1 ++ (b.flagged (a.flagged up).2).1, (b.flagged (a.flagged up).2).2) := rfl

/-- A listing whose first instruction takes the flag. Without instructions it leaves the flag alone. -/
def Plain (L : Listing) : Prop :=
  ∀ up, L.flagged up = (if up then markFirst L.code else L.code, up && L.code.isEmpty)

/-- A listing that can be written with the flag down, and leaves it down. -/
def Sealed (L : Listing) : Prop := L.flagged false = (L.code, false)

/-- A listing with instructions, the first of which takes the flag. -/
structure Leads (L : Listing) : Prop where
  plain : L.Plain
  written : L.code ≠ []

variable {a b L : Listing} {span : Span}

theorem Plain.sealed (h : L.Plain) : L.Sealed := h false

theorem Leads.sealed (h : L.Leads) : L.Sealed := h.plain.sealed

theorem Sealed.append (ha : a.Sealed) (hb : b.Sealed) : (a ++ b).Sealed := by
  have ha' : a.flagged false = (a.code, false) := ha
  have hb' : b.flagged false = (b.code, false) := hb
  rw [Sealed, flagged_append, ha', hb', code_append]

/-- Once the flag is taken, what follows is written with the flag down. -/
theorem Leads.append (ha : a.Leads) (hb : b.Sealed) : (a ++ b).Leads := by
  have hb' : b.flagged false = (b.code, false) := hb
  obtain ⟨hplain, hwritten⟩ := ha
  have htaken : ∀ up, a.flagged up = (if up then markFirst a.code else a.code, false) := fun up => by
    rw [hplain up, List.isEmpty_eq_false_iff.2 hwritten, Bool.and_false]
  refine ⟨fun up => ?_, by simp [hwritten]⟩
  rw [flagged_append, htaken up, hb', code_append]
  cases hcode : a.code with
  | nil => exact absurd hcode hwritten
  | cons i rest => cases up <;> rfl

theorem Plain.append (ha : a.Plain) (hb : b.Plain) : (a ++ b).Plain := by
  by_cases hwritten : a.code = []
  · intro up
    have ha' : a.flagged up = ([], up) := by
      rw [ha up, hwritten]
      cases up <;> rfl
    rw [flagged_append, ha', hb up, code_append, hwritten]
    rfl
  · exact (Leads.append ⟨ha, hwritten⟩ hb.sealed).plain

theorem Plain.leads (ha : a.Plain) (hb : b.Leads) : (a ++ b).Leads :=
  ⟨ha.append hb.plain, by simp [hb.written]⟩

/-- The first instruction of a statement takes the flag that the statement puts up. -/
theorem Plain.stmt (h : L.Plain) : (Listing.stmt L).Sealed := by
  rw [Sealed, flagged, h true]
  rfl

/-! ### Listings without statements -/

theorem plain_ops {code : Code} (hbare : ∀ i ∈ code, i.boundary = false) : (ops code).Plain := by
  intro up
  cases code with
  | nil => cases up <;> rfl
  | cons i rest =>
    cases up with
    | true => rfl
    | false =>
      have hi : { i with boundary := false } = i := by rw [← hbare i List.mem_cons_self]
      rw [flagged, flagFirst, hi]
      rfl

theorem plain_nil : (ops []).Plain := plain_ops nofun

theorem plain_asm (span : Span) (l : List Opcode) : (asm span l).Plain := plain_ops (Segment.bare_emit span l)

theorem sealed_asm (span : Span) (l : List Opcode) : (asm span l).Sealed := (plain_asm span l).sealed

theorem leads_asm (span : Span) (op : Opcode) (rest : List Opcode) : (asm span (op :: rest)).Leads :=
  ⟨plain_asm span _, by simp [emit]⟩

theorem plain_keepAs (span : Span) (name : String) : (ops (keepAs span name)).Plain := plain_asm span _

theorem plain_load (span : Span) (place : Target) : (ops (place.load span)).Plain :=
  plain_ops (Segment.bare_load span place)

theorem plain_save (span : Span) (place : Target) : (ops (place.save span)).Plain :=
  plain_ops (Segment.bare_save span place)

theorem leads_within (h : L.Sealed) : (within span L).Leads :=
  ((leads_asm span _ _).append h).append (sealed_asm span _)

theorem plain_around {keep uses : Listing} (hkeep : keep.Plain) (huses : uses.Plain) (place : Target) :
    (around span keep uses place).Plain := by
  cases place with
  | plain => exact huses
  | property | element => exact (leads_within (hkeep.append huses).sealed).plain

end Listing

/-! ### Everything that is compiled -/

/-- How the code of a piece is written: statements put the flag up for themselves, and all else takes it as it is. -/
def Piece.Flags (L : Listing) : Piece → Prop
  | .stmt _ _ | .stmtOption _ _ | .stmts _ _ => L.Sealed
  | .finish _ _ own => own.Sealed → L.Sealed
  | _ => L.Plain

/-- **Flag and first instruction.** What is compiled is marked alike in both ways. -/
theorem Emits.flagged {p : Piece} {d d' : Draft} {L : Listing} (h : Emits p d L d') : p.Flags L := by
  induction h with
  | literal | ident | this | lambda | saveIdent | defaultConstructor | noHandler | debugger => exact plain_asm _ _
  | exprsNil | fieldsNil | exprThenNone | operandsIdent | methodsNil | body | methodsCons | strayBreak | strayContinue
  | strayReturn | functionStmt | repeatedClass | «class» | empty | finalNone | leaveZero | leaveNil => exact plain_nil
  | expr _ ih | constant _ _ ih | badPattern _ _ ih | badUpdate _ _ ih | badAssign _ _ ih | defaultOther _ _ ih
  | returnedNone _ ih | returnedSome _ ih => exact ih
  | array _ ih | record _ ih | member _ ih | new _ ih | exprThenSome _ ih | saveMember _ ih | calleeMember _ ih
  | calleeOther _ _ ih | exprStmt _ ih | «break» _ _ ih | «continue» _ _ ih | ret _ _ _ ih | throw _ ih =>
    exact ih.append (plain_asm _ _)
  | index _ _ ih₁ ih₂ | binary _ _ ih₁ ih₂ | saveIndex _ _ ih₁ ih₂ | negate _ _ ih₁ ih₂ =>
    exact (ih₁.append ih₂).append (plain_asm _ _)
  | call _ _ ih₁ ih₂ | exprsCons _ _ ih₁ ih₂ | fieldsCons _ _ ih₁ ih₂ => exact ih₁.append ih₂
  | assign _ _ ih₁ ih₂ => exact (ih₁.append (plain_asm _ _)).append ih₂
  | calleeIndex _ _ ih₁ ih₂ => exact ((ih₁.append (plain_asm _ _)).append ih₂).append (plain_asm _ _)
  | not _ _ _ ih₁ ih₂ ih₃ | logical _ _ _ ih₁ ih₂ ih₃ | conditional _ _ _ ih₁ ih₂ ih₃ =>
    exact ((((ih₁.append (plain_asm _ _)).append ih₂).append (plain_asm _ _)).append ih₃).append (plain_asm _ _)
  | @update span op giveNew own k place d K d₁ N d' _ _ ih₁ ih₂ =>
    have hchange := (ih₂.append (plain_asm span [.binary (updateOp op)])).append (plain_save span place)
    have hload := plain_load (span.refine own) place
    cases giveNew with
    | true => exact plain_around ih₁ ((hload.append hchange).append hload) place
    | false => exact plain_around ih₁ ((hload.append hload).append hchange) place
  | @assignOp span op own k value place d K d₁ V d' _ _ ih₁ ih₂ =>
    have hload := plain_load (span.refine own) place
    exact plain_around ih₁ (((hload.append ih₂).append (plain_asm _ _)).append (plain_save span place)) place
  | operandsMember _ ih => exact ih.append (plain_keepAs _ _)
  | operandsIndex _ _ ih₁ ih₂ =>
    exact ((ih₁.append (plain_keepAs _ _)).append ih₂).append (plain_keepAs _ _)
  | finished => exact id
  | unfinished _ _ ih => exact fun hL => (hL.append ih.sealed).append (sealed_asm _ _)
  | stmt _ ih => exact ih.stmt
  | stmtNone | stmtsNil => exact plain_nil.sealed
  | stmtSome _ ih => exact ih
  | stmtsCons _ _ ih₁ ih₂ => exact ih₁.append ih₂
  | var _ ih => exact (plain_asm _ _).append ih
  | block _ ih | finalSome _ ih => exact (leads_within ih).plain
  -- a statement that contains others has written an instruction of its own before them
  | @cond _ span _ _ _ d _ _ _ _ _ _ _ _ _ ih₁ ih₂ ih₃ =>
    have htest := ih₁.leads (leads_asm span (.jumpFalse d.labels) [])
    exact ((((htest.append ih₂).append (sealed_asm _ _)).append ih₃).append (sealed_asm _ _)).plain
  | @«while» _ span _ _ d _ _ _ _ _ _ ih₁ ih₂ =>
    have hstart := (leads_asm span .loopStart [.label d.labels]).append ih₁.sealed
    exact (((hstart.append (sealed_asm _ _)).append ih₂).append (sealed_asm _ _)).plain
  | @«for» _ span _ _ _ _ d _ _ _ _ _ _ _ _ _ _ _ _ ih₁ ih₂ ih₃ ih₄ =>
    have hinit := ih₁.append (sealed_asm span [.loopStart, .label d.labels])
    have hbody := ((hinit.append ih₂.sealed).append ih₃).append (sealed_asm span [.label (d.labels + 1)])
    exact (leads_within ((hbody.append ih₄.sealed).append (sealed_asm _ _))).plain
  | retLeaving _ _ _ _ ih₁ ih₂ => exact ((ih₁.append (plain_keepAs _ _)).append ih₂).append (plain_asm _ _)
  | @«try» _ span _ _ final d _ _ _ _ _ _ _ _ _ _ _ _ ih₁ ih₂ ih₃ ih₄ =>
    have htry := leads_asm span (.tryStart d.labels (final.map fun _ => d.labels + 1) false) []
    have hbody : (_ ++ within span _ : Listing).Leads := htry.append (leads_within ih₁).sealed
    refine Leads.plain ?_
    exact (((((hbody.append (sealed_asm _ _)).append ih₂.sealed).append (sealed_asm _ _)).append
      ih₃.sealed).append (sealed_asm _ _)).append ih₄.sealed
  | handlerParam _ ih => exact (leads_within ((plain_keepAs _ _).sealed.append ih)).plain
  | handler _ ih => exact (plain_asm _ _).append (leads_within ih).plain
  | leaveLoop _ ih | leavePending _ ih => exact (plain_asm _ _).append ih
  | leaveRegion _ _ ih₁ ih₂ => exact ((plain_asm _ _).append ih₁).append ih₂

end Compile

open Compile

variable {script : Script} {p : Program}

/-- Every section of a compiled script is what is written with the flag down at first. -/
theorem Script.flagged_sections (hc : script.compile = .ok p) {x : Nat} {s : CodeSection}
    (hs : p.sections[x]? = some s) : ∃ kind ss e ending, script.Emitted x 0 e ∧ e.piece = .stmts { body := kind } ss ∧
      Ending e.listing.code kind ending ∧ (e.listing ++ .ops ending).flagged false = (s.code.toList, false) := by
  obtain ⟨kind, ss, e, ending, hplace, hpiece, hcode, hending⟩ := Script.exists_ending hc hs
  have hstmts : e.listing.Sealed := by
    have hflags := e.emits.flagged
    rw [hpiece] at hflags
    exact hflags
  refine ⟨kind, ss, e, ending, hplace, hpiece, hending, ?_⟩
  rw [hcode]
  exact hstmts.append (Listing.plain_ops hending.bare).sealed

end ScriptMachine
