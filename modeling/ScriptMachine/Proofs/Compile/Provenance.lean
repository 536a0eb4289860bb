import ScriptMachine.Proofs.Compile.Segments
import ScriptMachine.Proofs.Compile.Verdict

/-!
# Provenance — which piece of a script an instruction comes from

The drafts of the parts of a piece follow each other (`Links`), so what a part has put into the draft is still there at
the end. Every piece of a script has its places in the program (`Script.Emitted`): a final part has one for each exit
that runs it, and a body begins a section of its own. The code of a piece lies at each of its places
(`Script.Emitted.lies`), and there is no section without a piece (`Script.hasBody`).
-/

namespace ScriptMachine.Compile

open Segment

/-! ### Drafts between the parts -/

/-- What happens to a draft outside of the parts of a piece: constants are added at the end, counters and problems only
grow, and no body is added. -/
structure Drifts (d d' : Draft) : Prop where
  pool : d.constants.toList <+: d'.constants.toList
  bodies : d'.bodies = d.bodies := by rfl
  lambdas : d.lambdas ≤ d'.lambdas := by exact Nat.le_refl _
  problems : d.problems.length ≤ d'.problems.length := by exact Nat.le_refl _

theorem Drifts.refl (d : Draft) : Drifts d d where
  pool := List.prefix_refl _

/-- A constant is added. -/
theorem Drifts.literal (lit : Literal) (d : Draft) : Drifts d (poolIndex lit d).2 := by
  refine ⟨prefix_poolIndex lit d, bodies_poolIndex lit d, ?_, ?_⟩
  all_goals
    unfold poolIndex
    cases d.constants.findIdx? fun c => c.key == lit.key <;> exact Nat.le_refl _

/-- The drafts of the parts follow each other, with nothing but drift between them. -/
def Links (d : Draft) : List Segment → Draft → Prop
  | [], d' => Drifts d d'
  | .part e :: rest, d' => Drifts d e.before ∧ Links e.after rest d'
  | _ :: rest, d' => Links d rest d'

namespace Emission

theorem Splits.links {e : Emission} {segments : List Segment} (h : Splits e segments) :
    Links e.before segments e.after := by
  cases h with
  | literal => exact .literal _ _
  | strayBreak | strayContinue | strayReturn | repeatedClass =>
    exact ⟨List.prefix_refl _, rfl, Nat.le_refl _, Nat.le_succ _⟩
  | ident | this | exprsNil | fieldsNil | exprThenNone | operandsIdent | saveIdent | defaultConstructor | finished
  | methodsNil | stmtNone | stmtsNil | debugger | empty | noHandler | finalNone | leaveZero | leaveNil =>
    exact .refl _
  | badPattern | badUpdate | badAssign =>
    exact ⟨⟨List.prefix_refl _, rfl, Nat.le_refl _, Nat.le_succ _⟩, .refl _⟩
  | lambda => exact ⟨⟨List.prefix_refl _, rfl, Nat.le_succ _, Nat.le_refl _⟩, .refl _⟩
  | «class» => exact ⟨.refl _, ⟨List.prefix_refl _, rfl, Nat.le_refl _, Nat.le_refl _⟩⟩
  | expr | constant | array | record | member | new | exprThenSome | saveMember | calleeMember | calleeOther
  | defaultOther | unfinished | stmt | stmtSome | exprStmt | var | block | «break» | «continue» | ret | throw
  | functionStmt | returnedNone | returnedSome | handlerParam | handler | finalSome | leaveLoop | leavePending =>
    exact ⟨.refl _, .refl _⟩
  | index | negate | binary | assign | call | exprsCons | fieldsCons | saveIndex | calleeIndex | methodsCons | stmtsCons
  | retLeaving | leaveRegion => exact ⟨.refl _, .refl _, .refl _⟩
  | operandsMember => exact ⟨⟨List.prefix_refl _, rfl, Nat.le_refl _, Nat.le_refl _⟩, .refl _⟩
  | operandsIndex =>
    exact ⟨⟨List.prefix_refl _, rfl, Nat.le_refl _, Nat.le_refl _⟩,
      ⟨List.prefix_refl _, rfl, Nat.le_refl _, Nat.le_refl _⟩, .refl _⟩
  | «while» => exact ⟨⟨List.prefix_refl _, rfl, Nat.le_refl _, Nat.le_refl _⟩, .refl _, .refl _⟩
  | not | logical | conditional | cond =>
    exact ⟨⟨List.prefix_refl _, rfl, Nat.le_refl _, Nat.le_refl _⟩, .refl _, .refl _, .refl _⟩
  | «for» | «try» =>
    exact ⟨⟨List.prefix_refl _, rfl, Nat.le_refl _, Nat.le_refl _⟩, .refl _, .refl _, .refl _, .refl _⟩
  | @update _ _ _ _ place | @updateOld _ _ _ _ place | @assignOp _ _ _ _ _ place =>
    cases place <;> exact ⟨.refl _, .refl _, .refl _⟩

end Emission

/-- A draft grows: bodies and constants stay in their places, and counters and problems only get more. -/
structure Grows (d d' : Draft) : Prop where
  stays : Stays d d'
  lambdas : d.lambdas ≤ d'.lambdas
  problems : d.problems.length ≤ d'.problems.length

namespace Grows

variable {d d₁ d' : Draft}

theorem refl (d : Draft) : Grows d d := ⟨.of_eq (List.prefix_refl _) rfl, Nat.le_refl _, Nat.le_refl _⟩

theorem trans (h : Grows d d₁) (h' : Grows d₁ d') : Grows d d' :=
  ⟨h.stays.trans h'.stays, Nat.le_trans h.lambdas h'.lambdas, Nat.le_trans h.problems h'.problems⟩

end Grows

theorem Drifts.grows {d d' : Draft} (h : Drifts d d') : Grows d d' := ⟨.of_eq h.pool h.bodies, h.lambdas, h.problems⟩

theorem Links.grows {d d' : Draft} {segments : List Segment} (h : Links d segments d')
    (hparts : Parts (fun e => Grows e.before e.after) segments) : Grows d d' := by
  induction segments generalizing d with
  | nil => exact Drifts.grows h
  | cons s rest ih =>
    cases s with
    | own | given => exact ih h hparts
    | part e => exact (h.1.grows.trans hparts.1).trans (ih h.2 hparts.2)

/-- Whatever is compiled, the draft grows. -/
theorem Emission.grows (e : Emission) : Grows e.before e.after := by
  induction e using Emission.induct with
  | split e segments hsplit hparts => exact hsplit.links.grows hparts
  | body hL hF ihL ihF =>
    have h := ihL.trans ihF
    exact ⟨h.stays.body, h.lambdas, h.problems⟩

/-- A problem that was reported stays. -/
theorem Emits.problems_ne_nil {p : Piece} {d d' : Draft} {L : Listing} {span : Span} {message : String}
    (h : Emits p (d.report span message) L d') : d'.problems ≠ [] := by
  intro hnone
  have hle := (Emission.of h).grows.problems
  simp only [Emission.before_of, Emission.after_of, hnone] at hle
  exact absurd hle (Nat.not_succ_le_zero _)

/-- So it grows up to each part and from each part on. -/
theorem Links.part {d d' : Draft} {before after : List Segment} {e : Emission}
    (h : Links d (before ++ .part e :: after) d') : Grows d e.before ∧ Grows e.after d' := by
  induction before generalizing d with
  | nil =>
    refine ⟨h.1.grows, Links.grows h.2 ?_⟩
    clear h
    induction after with
    | nil => trivial
    | cons s rest ih => cases s <;> first | exact ih | exact ⟨Emission.grows _, ih⟩
  | cons s rest ih =>
    cases s with
    | own | given => exact ih h
    | part e₁ =>
      obtain ⟨hbefore, hafter⟩ := ih h.2
      exact ⟨(h.1.grows.trans e₁.grows).trans hbefore, hafter⟩

/-- The parts behind a part follow it. -/
theorem Links.suffix {d d' : Draft} {before after : List Segment} {e : Emission}
    (h : Links d (before ++ .part e :: after) d') : Links e.after after d' := by
  induction before generalizing d with
  | nil => exact h.2
  | cons s rest ih =>
    cases s with
    | own | given => exact ih h
    | part => exact ih h.2

/-- Bodies are added in the parts only. -/
theorem Links.cover {d d' : Draft} {segments : List Segment} (h : Links d segments d') {j : Nat}
    (hfrom : d.bodies.size ≤ j) (hto : j < d'.bodies.size) :
    ∃ before e after, segments = before ++ .part e :: after ∧ e.before.bodies.size ≤ j ∧ j < e.after.bodies.size := by
  induction segments generalizing d with
  | nil =>
    rw [Drifts.bodies h] at hto
    omega
  | cons s rest ih =>
    cases s with
    | own code bare =>
      obtain ⟨before, e, after, rfl, hj⟩ := ih h hfrom
      exact ⟨.own code bare :: before, e, after, rfl, hj⟩
    | given L =>
      obtain ⟨before, e, after, rfl, hj⟩ := ih h hfrom
      exact ⟨.given L :: before, e, after, rfl, hj⟩
    | part e =>
      rcases Nat.lt_or_ge j e.after.bodies.size with hlt | hge
      · exact ⟨[], e, rest, rfl, by rw [h.1.bodies]; exact hfrom, hlt⟩
      · obtain ⟨before, e', after, rfl, hj⟩ := ih h.2 hge
        exact ⟨.part e :: before, e', after, rfl, hj⟩

/-! ### Instructions of a piece -/

/-- The end of a body, which is handed the code of the statements. -/
def Piece.isFinish : Piece → Bool
  | .finish .. => true
  | _ => false

/-- A segment that is not the code handed to the end of a body, nor such an end. -/
def Segment.isPlain : Segment → Bool
  | .own .. => true
  | .given _ => false
  | .part e => !e.piece.isFinish

namespace Emission

/-- Only the end of a body is handed code, in front of everything else. -/
theorem Splits.plain {e : Emission} {segments : List Segment} (h : Splits e segments) :
    segments.all isPlain = true ∨
      ∃ kind span L rest, e.piece = .finish kind span L ∧ segments = .given L :: rest ∧ rest.all isPlain = true := by
  cases h with
  | finished => exact .inr ⟨_, _, _, [], rfl, rfl, rfl⟩
  | unfinished => exact .inr ⟨_, _, _, _, rfl, rfl, rfl⟩
  | @update _ _ _ _ place | @updateOld _ _ _ _ place | @assignOp _ _ _ _ _ place => cases place <;> exact .inl rfl
  | _ => exact .inl rfl

/-- Any other segment is the code that the end of a body was handed. -/
theorem Splits.handed {e : Emission} {before after : List Segment} {s : Segment} (h : e.Splits (before ++ s :: after))
    (hs : s.isPlain = false) : before = [] ∧ ∃ kind span L, e.piece = .finish kind span L ∧ s = .given L := by
  rcases h.plain with hplain | ⟨kind, span, L, rest, hpiece, hsegments, hplain⟩
  · simp [hs] at hplain
  · cases before with
    | nil =>
      cases hsegments
      exact ⟨rfl, kind, span, L, hpiece, rfl⟩
    | cons a before =>
      obtain ⟨-, rfl⟩ := List.cons_eq_cons.1 hsegments
      simp [hs] at hplain

end Emission

/-- An instruction in the code of segments is in one of them. -/
theorem exists_segment {segments : List Segment} {k : Nat} {i : Instruction} (h : (codes segments)[k]? = some i) :
    ∃ before s after n, segments = before ++ s :: after ∧ k = (codes before).length + n ∧ s.code[n]? = some i := by
  induction segments generalizing k with
  | nil => cases h
  | cons s rest ih =>
    rw [codes_cons] at h
    by_cases hk : k < s.code.length
    · rw [List.getElem?_append_left hk] at h
      exact ⟨[], s, rest, k, rfl, by simp, h⟩
    · rw [List.getElem?_append_right (by omega)] at h
      obtain ⟨before, s', after, n, rfl, hn, hs'⟩ := ih h
      refine ⟨s :: before, s', after, n, rfl, ?_, hs'⟩
      rw [codes_cons, List.length_append]
      omega

end ScriptMachine.Compile

namespace ScriptMachine

open Compile Segment

/-! ### Places -/

/-- A piece of a script was compiled, and its code begins at a place. -/
inductive Script.Emitted (script : Script) : Nat → Nat → Emission → Prop where
  | script {L : Listing} (h : Emits (.stmts { body := .script } script.body) {} L script.draft.2)
      (hcode : script.draft.1 = L.code ++ emit .unknown [.eof]) : Emitted script 0 0 (.of h)
  | part {x pc : Nat} {e e' : Emission} {before after : List Segment} (h : Emitted script x pc e)
      (hsplit : e.Splits (before ++ .part e' :: after)) : Emitted script x (pc + (codes before).length) e'
  /-- The statements of a body begin the section of the body. -/
  | body {x pc : Nat} {span : Span} {name : String} {params : List String} {kind : BodyKind} {ss : List Stmt}
      {d d₁ d₂ : Draft} {L F : Listing} (hL : Emits (.stmts { body := kind } ss) (openBody name params d).2 L d₁)
      (hF : Emits (.finish kind span L) d₁ F d₂) (h : Emitted script x pc (.of (.body hL hF))) :
      Emitted script (d.bodies.size + 1) 0 (.of hL)
  /-- So do the statements with the return they lack. -/
  | finish {x pc : Nat} {span : Span} {name : String} {params : List String} {kind : BodyKind} {ss : List Stmt}
      {d d₁ d₂ : Draft} {L F : Listing} (hL : Emits (.stmts { body := kind } ss) (openBody name params d).2 L d₁)
      (hF : Emits (.finish kind span L) d₁ F d₂) (h : Emitted script x pc (.of (.body hL hF))) :
      Emitted script (d.bodies.size + 1) 0 (.of hF)

/-- An instruction stands somewhere: the same one, and a boundary there if it was one before. -/
structure Instruction.Stands (i j : Instruction) : Prop where
  op : j.op = i.op
  span : j.span = i.span
  boundary : i.boundary = true → j.boundary = true

theorem Instruction.Stands.refl (i : Instruction) : i.Stands i := ⟨rfl, rfl, id⟩

theorem Instruction.Stands.trans {i j k : Instruction} (h : i.Stands j) (h' : j.Stands k) : i.Stands k :=
  ⟨h'.op.trans h.op, h'.span.trans h.span, fun hi => h'.boundary (h.boundary hi)⟩

namespace Compile

/-- Marking code as a statement changes nothing but the boundary of the first instruction. -/
theorem stands_markFirst {code : Code} {k : Nat} {i : Instruction} (h : code[k]? = some i) :
    ∃ j, (markFirst code)[k]? = some j ∧ i.Stands j := by
  cases code with
  | nil => cases h
  | cons a rest =>
    cases k with
    | zero =>
      cases h
      exact ⟨_, rfl, rfl, rfl, fun _ => rfl⟩
    | succ k => exact ⟨i, h, .refl i⟩

/-- The code of a part stands in the code of the whole. -/
theorem Emission.Splits.stands {e e' : Emission} {before after : List Segment}
    (h : e.Splits (before ++ .part e' :: after)) {k : Nat} {i : Instruction} (hi : e'.listing.code[k]? = some i) :
    ∃ j, e.listing.code[(codes before).length + k]? = some j ∧ i.Stands j := by
  have hk := (List.getElem?_eq_some_iff.1 hi).1
  have hcodes : (codes (before ++ .part e' :: after))[(codes before).length + k]? = some i := by
    rw [codes_append, List.getElem?_append_right (Nat.le_add_right _ _), Nat.add_sub_cancel_left, codes_cons, code_part,
      List.getElem?_append_left hk, hi]
  rw [h.code]
  split
  · exact stands_markFirst hcodes
  · exact ⟨i, hcodes, .refl i⟩

theorem getElem?_openBody (name : String) (params : List String) (d : Draft) :
    (openBody name params d).2.bodies.size = d.bodies.size + 1 ∧
      (openBody name params d).2.bodies[d.bodies.size]? = some { name, params } := by
  simp [openBody]

theorem getElem?_closeBody (i j : Nat) (code : Code) (d : Draft) : (closeBody i code d).2.bodies[j]? =
    if i = j then d.bodies[j]?.map fun b => { b with code } else d.bodies[j]? := Array.getElem?_modify

/-- The statements of a body stand at the beginning of what is made of them. -/
theorem Emits.prefix_finish {kind : BodyKind} {span : Span} {L F : Listing} {d d' : Draft}
    (h : Emits (.finish kind span L) d F d') : L.code <+: F.code := by
  cases h with
  | finished => exact List.prefix_refl _
  | unfinished => exact ⟨_, by rw [Listing.code_append, Listing.code_append, List.append_assoc]⟩

end Compile

namespace Script.Emitted

variable {script : Script} {x pc : Nat} {e : Emission}

/-- The first part begins where the whole begins. -/
theorem first {e' : Emission} {after : List Segment} (h : script.Emitted x pc e)
    (hsplit : e.Splits (.part e' :: after)) : script.Emitted x pc e' :=
  @Script.Emitted.part script x pc e e' [] after h hsplit

/-- What was compiled before a piece and in it is not changed any more. -/
theorem bodies_kept (h : script.Emitted x pc e) :
    ∀ j b, e.before.bodies.size ≤ j → e.after.bodies[j]? = some b → script.draft.2.bodies[j]? = some b := by
  induction h with
  | script => exact fun _ _ _ hb => hb
  | @part _ _ e e' before after _ hsplit ih =>
    intro j b hj hb
    obtain ⟨hfrom, hto⟩ := hsplit.links.part
    have hlt := (Array.getElem?_eq_some_iff.1 hb).1
    exact ih j b (Nat.le_trans hfrom.stays.size hj) ((hto.stays.kept j hlt).trans hb)
  | @body _ _ _ name params _ _ d d₁ d₂ _ F hL hF _ ih =>
    intro j b hj hb
    have hopen := (getElem?_openBody name params d).1
    have hlt := (Array.getElem?_eq_some_iff.1 hb).1
    simp only [Emission.before_of, Emission.after_of] at hj hb
    refine ih j b (by simp only [Emission.before_of]; omega) ?_
    rw [Emission.after_of, getElem?_closeBody, if_neg (by omega)]
    exact ((Emission.of hF).grows.stays.kept j hlt).trans hb
  | @finish _ _ _ name params _ _ d d₁ d₂ _ F hL hF _ ih =>
    intro j b hj hb
    have hopen := (getElem?_openBody name params d).1
    have hsize := (Emission.of hL).grows.stays.size
    simp only [Emission.before_of, Emission.after_of] at hj hb hsize
    refine ih j b (by simp only [Emission.before_of]; omega) ?_
    rw [Emission.after_of, getElem?_closeBody, if_neg (by omega)]
    exact hb

/-- Problems that were found stay. -/
theorem problems_le (h : script.Emitted x pc e) :
    e.after.problems.length ≤ script.draft.2.problems.length := by
  induction h with
  | script => exact Nat.le_refl _
  | part _ hsplit ih => exact Nat.le_trans hsplit.links.part.2.problems ih
  | body _ hF _ ih => exact Nat.le_trans (Emission.of hF).grows.problems ih
  | finish _ _ _ ih => exact ih

/-- The body of a piece is in the table, with the code of its section. -/
theorem body_kept {span : Span} {name : String} {params : List String} {kind : BodyKind} {ss : List Stmt}
    {d d₁ d₂ : Draft} {L F : Listing} (hL : Emits (.stmts { body := kind } ss) (openBody name params d).2 L d₁)
    (hF : Emits (.finish kind span L) d₁ F d₂) (h : script.Emitted x pc (.of (.body hL hF))) :
    script.draft.2.bodies[d.bodies.size]? = some { name, params, code := F.code } := by
  obtain ⟨hopen, hhere⟩ := getElem?_openBody name params d
  have hkept := ((Emission.of hL).grows.trans (Emission.of hF).grows).stays.kept d.bodies.size
    (by simp only [Emission.before_of]; omega)
  refine h.bodies_kept _ _ (Nat.le_refl _) ?_
  rw [Emission.after_of, getElem?_closeBody, if_pos rfl]
  simp only [Emission.after_of, Emission.before_of] at hkept
  rw [hkept, hhere]
  rfl

variable {p : Program}

/-- Whatever was compiled for a script that compiles, no problem was found in it. -/
theorem sound (hc : script.compile = .ok p) (h : script.Emitted x pc e) : e.after.problems = [] := by
  have hle := h.problems_le
  rw [((Script.compiles_iff_problems script).1 ⟨p, hc⟩).2] at hle
  exact List.eq_nil_of_length_eq_zero (Nat.le_zero.1 hle)

/-- The code of a body is that of a section. -/
theorem section_kept (hc : script.compile = .ok p) {span : Span} {name : String} {params : List String}
    {kind : BodyKind} {ss : List Stmt} {d d₁ d₂ : Draft} {L F : Listing}
    (hL : Emits (.stmts { body := kind } ss) (openBody name params d).2 L d₁)
    (hF : Emits (.finish kind span L) d₁ F d₂) (h : script.Emitted x pc (.of (.body hL hF))) :
    p.sections[d.bodies.size + 1]? = some ⟨name, F.code.toArray⟩ := by
  rw [(Script.sections_of_compile hc).2, h.body_kept hL hF]
  rfl

/-- **The code of a piece lies at its place.** -/
theorem lies (hc : script.compile = .ok p) (h : script.Emitted x pc e) :
    ∀ k i, e.listing.code[k]? = some i → ∃ j, p.instruction? x (pc + k) = some j ∧ i.Stands j := by
  induction h with
  | @script L _ hcode =>
    intro k i hi
    refine ⟨i, ?_, .refl i⟩
    have hk := (List.getElem?_eq_some_iff.1 hi).1
    rw [Program.instruction?, (Script.sections_of_compile hc).1, hcode, Nat.zero_add]
    simpa [List.getElem?_append_left (show k < L.code.length from hk)] using hi
  | part _ hsplit ih =>
    intro k i hi
    obtain ⟨j, hj, hij⟩ := hsplit.stands hi
    obtain ⟨i', hi', hji⟩ := ih _ j hj
    exact ⟨i', by rw [Nat.add_assoc]; exact hi', hij.trans hji⟩
  | @body _ _ _ _ _ _ _ d _ _ L F hL hF hbody =>
    intro k i hi
    refine ⟨i, ?_, .refl i⟩
    obtain ⟨rest, hrest⟩ := hF.prefix_finish
    have hk := (List.getElem?_eq_some_iff.1 hi).1
    rw [Program.instruction?, hbody.section_kept hc hL hF, Nat.zero_add, ← hrest]
    simpa [List.getElem?_append_left (show k < L.code.length from hk)] using hi
  | @finish _ _ _ _ _ _ _ _ _ _ _ _ hL hF hbody =>
    intro k i hi
    refine ⟨i, ?_, .refl i⟩
    rw [Program.instruction?, hbody.section_kept hc hL hF, Nat.zero_add]
    simpa using hi

end Script.Emitted

/-- A body of the table is that of a piece. -/
inductive Script.HasBody (script : Script) : Nat → Prop where
  | mk {x pc : Nat} {span : Span} {name : String} {params : List String} {kind : BodyKind} {ss : List Stmt}
      {d d₁ d₂ : Draft} {L F : Listing} (hL : Emits (.stmts { body := kind } ss) (openBody name params d).2 L d₁)
      (hF : Emits (.finish kind span L) d₁ F d₂) (h : script.Emitted x pc (.of (.body hL hF))) :
      HasBody script d.bodies.size

/-- Every body of the table is. -/
theorem Script.hasBody {script : Script} {j : Nat} (hj : j < script.draft.2.bodies.size) : script.HasBody j := by
  suffices hall : ∀ e : Emission, ∀ x pc, script.Emitted x pc e →
      ∀ j, e.before.bodies.size ≤ j → j < e.after.bodies.size → script.HasBody j by
    obtain ⟨L, hL, hcode⟩ := emits_draft script
    exact hall _ _ _ (.script hL hcode) j (Nat.zero_le _) hj
  intro e
  induction e using Emission.induct with
  | split e segments hsplit hparts =>
    intro x pc h j hfrom hto
    obtain ⟨before, e', after, rfl, hfrom', hto'⟩ := hsplit.links.cover hfrom hto
    exact Segment.Parts.of_part hparts _ _ (h.part hsplit) j hfrom' hto'
  | @body span name params kind ss d L d₁ F d₂ hL hF ihL ihF =>
    intro x pc h j hfrom hto
    have hopen := (getElem?_openBody name params d).1
    have hsize : (closeBody d.bodies.size F.code d₂).2.bodies.size = d₂.bodies.size := Array.size_modify
    simp only [Emission.before_of, Emission.after_of, hsize] at hfrom hto
    rcases Nat.lt_or_ge j d₁.bodies.size with hlt | hge
    · rcases Nat.eq_or_lt_of_le hfrom with heq | hlt'
      · exact heq ▸ .mk hL hF h
      · exact ihL _ _ (.body hL hF h) j (by simp only [Emission.before_of]; omega) hlt
    · exact ihF _ _ (.finish hL hF h) j hge hto

section Origin

variable {script : Script} {p : Program} {Q : Nat → Nat → Instruction → Prop}

/-- What holds of the instructions that pieces add of their own, and still holds when a statement is marked, holds of all
the code of a piece that it was not handed. -/
theorem Script.Emitted.forall_code
    (own : ∀ {x pc e before code bare after}, script.Emitted x pc e → e.Splits (before ++ .own code bare :: after) →
      ∀ n i, code[n]? = some i → Q x (pc + ((codes before).length + n)) i)
    (mark : ∀ {x pc e around s i}, script.Emitted x pc e → e.piece = .stmt around s → e.listing.code ≠ [] → Q x pc i →
      Q x pc { i with boundary := true }) {e : Emission} :
    ∀ {x pc k : Nat} {i : Instruction}, script.Emitted x pc e → e.listing.code[k]? = some i →
      Q x (pc + k) i ∨ ∃ kind span L, e.piece = .finish kind span L ∧ k < L.code.length := by
  induction e using Emission.induct with
  | body hL hF => exact fun _ hi => nomatch hi
  | split e segments hsplit hparts =>
    intro x pc k i h hi
    have hinner : ∀ i, (codes segments)[k]? = some i →
        Q x (pc + k) i ∨ ∃ kind span L, e.piece = .finish kind span L ∧ k < L.code.length := by
      intro i hk
      obtain ⟨before, s, after, n, rfl, rfl, hs⟩ := exists_segment hk
      have hn := (List.getElem?_eq_some_iff.1 hs).1
      cases s with
      | own code bare => exact .inl (own h hsplit n i hs)
      | given L =>
        obtain ⟨rfl, kind, span, L', hpiece, heq⟩ := hsplit.handed rfl
        cases heq
        exact .inr ⟨kind, span, L, hpiece, by simpa using hn⟩
      | part e' =>
        rcases Segment.Parts.of_part hparts (h.part hsplit) hs with hQ | ⟨kind, span, L, hpiece, -⟩
        · exact .inl (by rw [← Nat.add_assoc]; exact hQ)
        · obtain ⟨-, _, _, _, -, heq⟩ := hsplit.handed (by simp [isPlain, hpiece, Piece.isFinish])
          cases heq
    have hcode := hsplit.code
    split at hcode
    · rename_i around s hpiece
      rw [hcode] at hi
      cases hcodes : codes segments with
      | nil =>
        rw [hcodes] at hi
        cases hi
      | cons first rest =>
        rw [hcodes] at hi hinner
        cases k with
        | zero =>
          cases hi
          rcases hinner first rfl with hQ | ⟨kind, span, L, hfinish, -⟩
          · exact .inl (mark h hpiece (by rw [hcode, hcodes]; exact nofun) hQ)
          · rw [hpiece] at hfinish
            cases hfinish
        | succ k => exact hinner i hi
    · rw [hcode] at hi
      exact hinner i hi

/-- So it holds of every instruction of the program, if it holds of the end of the script. -/
theorem Script.forall_instruction (hc : script.compile = .ok p)
    (own : ∀ {x pc e before code bare after}, script.Emitted x pc e → e.Splits (before ++ .own code bare :: after) →
      ∀ n i, code[n]? = some i → Q x (pc + ((codes before).length + n)) i)
    (mark : ∀ {x pc e around s i}, script.Emitted x pc e → e.piece = .stmt around s → e.listing.code ≠ [] → Q x pc i →
      Q x pc { i with boundary := true })
    (eof : ∀ pc, Q 0 pc { op := .eof }) {x pc : Nat} {i : Instruction} (hi : p.instruction? x pc = some i) :
    Q x pc i := by
  obtain ⟨s, hs, hpc⟩ := Option.bind_eq_some_iff.1 hi
  obtain ⟨hscript, hbodies⟩ := sections_of_compile hc
  rw [← Array.getElem?_toList] at hpc
  have hstatements : ∀ {around ss d L d'} (hL : Emits (.stmts around ss) d L d'), script.Emitted x 0 (.of hL) →
      L.code[pc]? = some i → Q x pc i := by
    intro around ss d L d' hL hplace hcode
    rcases hplace.forall_code own mark hcode with hQ | ⟨kind, span, L', hpiece, -⟩
    · rwa [Nat.zero_add] at hQ
    · cases hpiece
  cases x with
  | zero =>
    obtain ⟨L, hL, hcode⟩ := emits_draft script
    rw [hscript] at hs
    cases hs
    simp only [hcode] at hpc
    by_cases hlt : pc < L.code.length
    · rw [List.getElem?_append_left hlt] at hpc
      exact hstatements hL (.script hL hcode) hpc
    · rw [List.getElem?_append_right (by omega)] at hpc
      cases hk : pc - L.code.length with
      | zero =>
        rw [hk] at hpc
        cases hpc
        exact eof pc
      | succ k =>
        rw [hk] at hpc
        cases hpc
  | succ n =>
    have hs' := hs
    rw [hbodies] at hs'
    obtain ⟨b, hb, -⟩ := Option.map_eq_some_iff.1 hs'
    obtain ⟨hL, hF, hplace⟩ := Script.hasBody (Array.getElem?_eq_some_iff.1 hb).1
    rw [hplace.section_kept hc hL hF] at hs
    cases hs
    rcases (hplace.finish hL hF).forall_code own mark hpc with hQ | ⟨kind, span, L, hpiece, hlt⟩
    · rwa [Nat.zero_add] at hQ
    · cases hpiece
      obtain ⟨rest, hrest⟩ := hF.prefix_finish
      simp only [← hrest] at hpc
      rw [List.getElem?_append_left hlt] at hpc
      exact hstatements hL (hplace.body hL hF) hpc

end Origin

end ScriptMachine
