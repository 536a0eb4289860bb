import ScriptMachine.Proofs.Compile.WellLaid

/-!
# TryCode — try statements in compiled code

An instruction that opens a try region never stands alone: it belongs to the code of a whole try statement of the
script (`Whole`), with the handler, the final part for an exception and the instruction that throws the exception again
at known places. All of these carry the place of the statement. So the labels of the two regions of a statement stand
where the statement has its handler and its final part (`Script.exists_try`).
-/

namespace ScriptMachine.Compile

open Listing

/-! ### Operations with their places -/

/-- The operations of a listing with the places they come from. -/
def Listing.sites (L : Listing) : List (Opcode × Span) := L.code.map fun i => (i.op, i.span)

/-- Operations at one place. -/
def sitesAt (span : Span) (ops : List Opcode) : List (Opcode × Span) := ops.map fun op => (op, span)

@[simp] theorem sites_append (A B : Listing) : (A ++ B).sites = A.sites ++ B.sites := List.map_append

@[simp] theorem sites_asm (span : Span) (ops : List Opcode) : (asm span ops).sites = sitesAt span ops := by
  simp [Listing.sites, sitesAt, emit]

/-- A boundary does not change what an instruction does. -/
@[simp] theorem sites_stmt (L : Listing) : (Listing.stmt L).sites = L.sites := by
  unfold Listing.sites
  rw [code_stmt]
  cases L.code <;> rfl

/-! ### Whole statements -/

/-- The code of a try statement: its body, its handler, and its final part for an exception. -/
def tryCode (l : Nat) (span : Span) (final : Option (List Stmt)) (B H F : List (Opcode × Span)) :
    List (Opcode × Span) :=
  sitesAt span [.tryStart l (final.map fun _ => l + 1) false] ++ B ++
    sitesAt span [.tryEnd, .jump (l + 2), .label l, .tryStart (l + 1) none true] ++ H ++
    sitesAt span [.tryEnd, .jump (l + 2), .label (l + 1)] ++ F ++ sitesAt span [.throw, .label (l + 2)]

/-- The code around a place is that of a try statement, which passes a test. The place is where the statement opens one
of its regions. -/
def InTry (ok : Node → Prop) (sites : List (Opcode × Span)) (pc l : Nat) (keep : Bool) (span : Span) : Prop :=
  ∃ body clause final n B H F before after, ok (.stmt (.try body clause final)) ∧
    sites = before ++ tryCode n span final B H F ++ after ∧ (clause = none → H = sitesAt span [.throw]) ∧
    (keep = false ∧ l = n ∧ pc = before.length ∨ keep = true ∧ l = n + 1 ∧ pc = before.length + B.length + 4)

/-- Every instruction that opens a region belongs to a try statement. -/
def Whole (ok : Node → Prop) (L : Listing) : Prop :=
  ∀ pc l f keep span, L.sites[pc]? = some (.tryStart l f keep, span) → InTry ok L.sites pc l keep span

theorem InTry.append_right {ok : Node → Prop} {sites : List (Opcode × Span)} {pc l : Nat} {keep : Bool} {span : Span}
    (h : InTry ok sites pc l keep span) (more : List (Opcode × Span)) : InTry ok (sites ++ more) pc l keep span := by
  obtain ⟨body, clause, final, n, B, H, F, before, after, hok, rfl, hH, hpc⟩ := h
  exact ⟨body, clause, final, n, B, H, F, before, after ++ more, hok, by simp, hH, hpc⟩

theorem InTry.append_left {ok : Node → Prop} {sites : List (Opcode × Span)} {pc l : Nat} {keep : Bool} {span : Span}
    (h : InTry ok sites pc l keep span) (first : List (Opcode × Span)) :
    InTry ok (first ++ sites) (first.length + pc) l keep span := by
  obtain ⟨body, clause, final, n, B, H, F, before, after, hok, rfl, hH, hpc⟩ := h
  refine ⟨body, clause, final, n, B, H, F, first ++ before, after, hok, by simp, hH, ?_⟩
  rw [List.length_append]
  refine hpc.imp (fun h => ⟨h.1, h.2.1, ?_⟩) fun h => ⟨h.1, h.2.1, ?_⟩
  · rw [h.2.2]
  · rw [h.2.2, Nat.add_assoc, Nat.add_assoc, Nat.add_assoc]

/-- Operations that open no region. -/
def opensNone : Opcode → Bool
  | .tryStart .. => false
  | _ => true

namespace Whole

variable {ok : Node → Prop} {A B : Listing}

theorem append (hA : Whole ok A) (hB : Whole ok B) : Whole ok (A ++ B) := by
  intro pc l f keep span h
  rw [sites_append] at h ⊢
  by_cases hpc : pc < A.sites.length
  · rw [List.getElem?_append_left hpc] at h
    exact (hA _ _ _ _ _ h).append_right _
  · rw [List.getElem?_append_right (by omega)] at h
    have hright := (hB _ _ _ _ _ h).append_left A.sites
    rwa [show A.sites.length + (pc - A.sites.length) = pc by omega] at hright

theorem stmt (hA : Whole ok A) : Whole ok (.stmt A) := by
  unfold Whole
  rw [sites_stmt]
  exact hA

/-- Code that opens no region. -/
theorem plain (h : A.sites.all (fun e => opensNone e.1) = true) : Whole ok A := by
  intro pc l f keep span hpc
  cases List.all_eq_true.1 h _ (List.mem_of_getElem? hpc)

theorem nil : Whole ok (.ops []) := plain rfl

theorem load (place : Target) (span : Span) : Whole ok (.ops (place.load span)) := by
  cases place <;> exact plain rfl

theorem save (place : Target) (span : Span) : Whole ok (.ops (place.save span)) := by
  cases place <;> exact plain rfl

theorem within (span : Span) (hA : Whole ok A) : Whole ok (Listing.within span A) :=
  Whole.append (Whole.append (plain rfl) hA) (plain rfl)

theorem around {span : Span} {place : Target} (hA : Whole ok A) (hB : Whole ok B) :
    Whole ok (Listing.around span A B place) := by
  cases place with
  | plain => exact hB
  | property | element => exact within span (hA.append hB)

end Whole

/-- What is handed to a piece opens no region, or only those of whole statements. -/
def Piece.Given (ok : Node → Prop) : Piece → Prop
  | .exprThen _ after _ => after.all opensNone = true
  | .finish _ _ L => Whole ok L
  | _ => True

/-- What an instruction at a place says, if it opens a region. -/
def Belongs (ok : Node → Prop) (sites : List (Opcode × Span)) (pc : Nat) (e : Opcode × Span) : Prop :=
  ∀ l f keep, e.1 = .tryStart l f keep → InTry ok sites pc l keep e.2

theorem forall_getElem?_append {α : Type} {A B : List α} {Q : Nat → α → Prop} (hA : ∀ pc e, A[pc]? = some e → Q pc e)
    (hB : ∀ pc e, B[pc]? = some e → Q (A.length + pc) e) : ∀ pc e, (A ++ B)[pc]? = some e → Q pc e := by
  intro pc e h
  by_cases hpc : pc < A.length
  · rw [List.getElem?_append_left hpc] at h
    exact hA pc e h
  · rw [List.getElem?_append_right (by omega)] at h
    have hright := hB _ e h
    rwa [show A.length + (pc - A.length) = pc by omega] at hright

theorem Whole.belongs {ok : Node → Prop} {L : Listing} {sites first : List (Opcode × Span)} (hL : Whole ok L)
    (hsites : first ++ L.sites <+: sites) :
    ∀ pc e, L.sites[pc]? = some e → Belongs ok sites (first.length + pc) e := by
  rintro pc ⟨op, span⟩ h l f keep rfl
  obtain ⟨last, rfl⟩ := hsites
  exact ((hL _ _ _ _ _ h).append_left first).append_right last

theorem belongs_plain {ok : Node → Prop} {sites : List (Opcode × Span)} {span : Span} {ops : List Opcode}
    (h : ops.all opensNone = true) (n : Nat) :
    ∀ pc e, (sitesAt span ops)[pc]? = some e → Belongs ok sites (n + pc) e := by
  rintro pc ⟨op, _⟩ hpc l f keep rfl
  obtain ⟨op, hop, he⟩ := List.mem_map.1 (List.mem_of_getElem? hpc)
  cases he
  cases List.all_eq_true.1 h _ hop

/-- A try statement is whole if its parts are. -/
theorem whole_try {ok : Node → Prop} {span : Span} {body : List Stmt} {clause : Option Handler}
    {final : Option (List Stmt)} {l : Nat} {B H F E : Listing} (hok : ok (.stmt (.try body clause final)))
    (hclause : clause = none → H.sites = sitesAt span [.throw]) (hB : Whole ok B) (hH : Whole ok H) (hF : Whole ok F)
    (hE : Whole ok E) :
    Whole ok (asm span [.tryStart l (final.map fun _ => l + 1) false] ++ B
      ++ asm span [.tryEnd, .jump (l + 2), .label l, .tryStart (l + 1) none true]
      ++ H ++ asm span [.tryEnd, .jump (l + 2), .label (l + 1)]
      ++ F ++ asm span [.throw, .label (l + 2)] ++ E) := by
  have hsites : ∀ sites, sites = tryCode l span final B.sites H.sites F.sites ++ E.sites →
      ∀ pc e, (tryCode l span final B.sites H.sites F.sites ++ E.sites)[pc]? = some e → Belongs ok sites pc e := by
    rintro sites hsites
    have hstart : ∀ pc e, (sitesAt span [.tryStart l (final.map fun _ => l + 1) false])[pc]? = some e →
        Belongs ok sites pc e := by
      rintro (_ | pc) e he
      · cases he
        rintro _ _ _ ⟨⟩
        exact ⟨body, clause, final, l, _, _, _, [], _, hok, hsites, hclause, .inl ⟨rfl, rfl, rfl⟩⟩
      · cases he
    have hkeep : ∀ pc e,
        (sitesAt span [.tryEnd, .jump (l + 2), .label l, .tryStart (l + 1) none true])[pc]? = some e →
        Belongs ok sites ((sitesAt span [.tryStart l (final.map fun _ => l + 1) false] ++ B.sites).length + pc) e := by
      rintro (_ | _ | _ | _ | pc) e he <;> cases he <;> rintro _ _ _ ⟨⟩
      refine ⟨body, clause, final, l, _, _, _, [], _, hok, hsites, hclause, .inr ⟨rfl, rfl, ?_⟩⟩
      simp [sitesAt]
    refine forall_getElem?_append (forall_getElem?_append (forall_getElem?_append (forall_getElem?_append
      (forall_getElem?_append (forall_getElem?_append (forall_getElem?_append hstart ?_) hkeep) ?_)
        (belongs_plain rfl _)) ?_) (belongs_plain rfl _)) ?_
    · exact hB.belongs (by rw [hsites]; simp [tryCode])
    · exact hH.belongs (by rw [hsites]; simp [tryCode])
    · exact hF.belongs (by rw [hsites]; simp [tryCode])
    · exact hE.belongs (hsites ▸ List.prefix_refl _)
  intro pc l' f keep span' h
  simp only [sites_append, sites_asm] at h ⊢
  exact hsites _ rfl pc _ h l' f keep rfl

/-- Every listing of the generator is whole. -/
theorem Emits.whole {ok : Node → Prop} {p : Piece} {d d' : Draft} {L : Listing} (h : Emits p d L d')
    (hp : Every ok p.nodes) (hgiven : p.Given ok) : Whole ok L := by
  induction h with
  | literal | ident | this | saveIdent | defaultConstructor | debugger | noHandler | lambda => exact .plain rfl
  | operandsIdent | exprsNil | fieldsNil | methodsNil | methodsCons | stmtNone | stmtsNil | empty | finalNone | leaveZero
  | leaveNil | strayBreak | strayContinue | strayReturn | repeatedClass | functionStmt | «class» | body
  | exprThenNone => exact .nil
  | constant _ _ ih | defaultOther _ _ ih | returnedNone _ ih | badPattern _ _ ih | badUpdate _ _ ih
  | badAssign _ _ ih => exact ih .nil trivial
  | expr _ ih | stmtSome _ ih | returnedSome _ ih => exact ih hp trivial
  | exprThenSome _ ih =>
    refine (ih hp trivial).append (.plain ?_)
    rw [sites_asm, sitesAt, List.all_map]
    exact hgiven
  | array _ ih | record _ ih | member _ ih | new _ ih | saveMember _ ih | calleeMember _ ih =>
    exact (ih hp.tail trivial).append (.plain rfl)
  | calleeOther _ _ ih => exact (ih hp trivial).append (.plain rfl)
  | operandsMember _ ih => exact (ih hp.tail trivial).append (.plain rfl)
  | index _ _ ih₁ ih₂ | binary _ _ ih₁ ih₂ | saveIndex _ _ ih₁ ih₂ =>
    exact ((ih₁ hp.tail.left trivial).append (ih₂ hp.tail.right trivial)).append (.plain rfl)
  | calleeIndex _ _ ih₁ ih₂ | operandsIndex _ _ ih₁ ih₂ =>
    exact (((ih₁ hp.tail.left trivial).append (.plain rfl)).append (ih₂ hp.tail.right trivial)).append (.plain rfl)
  | negate _ _ ih₁ ih₂ => exact ((ih₁ .nil trivial).append (ih₂ hp.tail trivial)).append (.plain rfl)
  | assign _ _ ih₁ ih₂ =>
    exact ((ih₁ hp.tail.right trivial).append (.plain rfl)).append (ih₂ hp.tail.left trivial)
  | call _ _ ih₁ ih₂ => exact (ih₁ hp.tail.right trivial).append (ih₂ hp.tail.left trivial)
  | exprsCons _ _ ih₁ ih₂ | fieldsCons _ _ ih₁ ih₂ => exact (ih₁ hp.left trivial).append (ih₂ hp.right trivial)
  | @update span op giveNew _ _ place _ K _ N _ _ _ ih₁ ih₂ =>
    have hchange : Whole ok (N ++ asm span [.binary (updateOp op)] ++ .ops (place.save span)) :=
      ((ih₂ .nil trivial).append (.plain rfl)).append (.save _ _)
    refine .around (ih₁ hp.tail trivial) ?_
    cases giveNew with
    | true => exact ((Whole.load _ _).append hchange).append (.load _ _)
    | false => exact ((Whole.load _ _).append (.load _ _)).append hchange
  | assignOp _ _ ih₁ ih₂ =>
    exact .around (ih₁ hp.tail.left trivial)
      ((((Whole.load _ _).append (ih₂ hp.tail.right trivial)).append (.plain rfl)).append (.save _ _))
  | not _ _ _ ih₁ ih₂ ih₃ =>
    exact (((((ih₁ hp.tail trivial).append (.plain rfl)).append (ih₂ .nil trivial)).append (.plain rfl)).append
      (ih₃ .nil trivial)).append (.plain rfl)
  | @logical _ op _ _ _ _ _ _ _ _ _ _ _ _ ih₁ ih₂ ih₃ =>
    exact (((((ih₁ hp.tail.left trivial).append (.plain (by cases op <;> rfl))).append (ih₂ hp.tail.right trivial)).append
      (.plain rfl)).append (ih₃ .nil trivial)).append (.plain rfl)
  | conditional _ _ _ ih₁ ih₂ ih₃ =>
    exact (((((ih₁ hp.tail.left.left trivial).append (.plain rfl)).append (ih₂ hp.tail.left.right trivial)).append
      (.plain rfl)).append (ih₃ hp.tail.right trivial)).append (.plain rfl)
  | finished => exact hgiven
  | unfinished _ _ ih => exact (hgiven.append (ih .nil trivial)).append (.plain rfl)
  | stmt _ ih => exact (ih hp trivial).stmt
  | stmtsCons _ _ ih₁ ih₂ =>
    exact (ih₁ (hp.left.left.append hp.right) trivial).append (ih₂ (hp.left.right.append hp.right) trivial)
  | exprStmt _ ih | throw _ ih | ret _ _ _ ih => exact (ih hp.left.tail trivial).append (.plain rfl)
  | var _ ih => exact Whole.append (.plain rfl) (ih hp.left.tail rfl)
  | block _ ih => exact .within _ (ih (hp.left.tail.append hp.right) trivial)
  | cond _ _ _ ih₁ ih₂ ih₃ =>
    have hparts := hp.left.tail
    exact (((((ih₁ hparts.left.left trivial).append (.plain rfl)).append
      (ih₂ (hparts.left.right.append hp.right) trivial)).append (.plain rfl)).append
        (ih₃ (hparts.right.append hp.right) trivial)).append (.plain rfl)
  | «while» _ _ ih₁ ih₂ =>
    exact (((Whole.append (.plain rfl) (ih₁ hp.left.tail.left trivial)).append (.plain rfl)).append
      (ih₂ (hp.left.tail.right.append hp.right) trivial)).append (.plain rfl)
  | «for» _ _ _ _ ih₁ ih₂ ih₃ ih₄ =>
    have hparts := hp.left.tail
    exact .within _ ((((((ih₁ (hparts.left.left.left.append hp.right) trivial).append (.plain rfl)).append
      (ih₂ hparts.left.left.right rfl)).append (ih₃ (hparts.right.append hp.right) trivial)).append
        (.plain rfl)).append (ih₄ hparts.left.right rfl) |>.append (.plain rfl))
  | «break» _ _ ih | «continue» _ _ ih => exact (ih hp.right trivial).append (.plain rfl)
  | retLeaving _ _ _ _ ih₁ ih₂ =>
    exact (((ih₁ hp.left.tail trivial).append (.plain rfl)).append (ih₂ hp.right trivial)).append (.plain rfl)
  | «try» _ hH _ _ ih₁ ih₂ ih₃ ih₄ =>
    have hfinal := hp.left.tail.right.append hp.right
    refine whole_try hp.left.head ?_ (.within _ (ih₁ (hp.left.tail.left.left.append hfinal) trivial))
      (ih₂ (hp.left.tail.left.right.append hfinal) trivial) (ih₃ hfinal trivial) (ih₄ hfinal trivial)
    rintro rfl
    cases hH
    exact sites_asm _ _
  | handlerParam _ ih => exact .within _ (Whole.append (.plain rfl) (ih hp trivial))
  | handler _ ih => exact Whole.append (.plain rfl) (.within _ (ih hp trivial))
  | finalSome _ ih => exact .within _ (ih hp trivial)
  | leaveLoop _ ih | leavePending _ ih => exact Whole.append (.plain rfl) (ih hp trivial)
  | leaveRegion _ _ ih₁ ih₂ =>
    exact (Whole.append (.plain rfl) (ih₁ hp trivial)).append (ih₂ hp.right trivial)

end ScriptMachine.Compile

namespace ScriptMachine

open Compile Listing

/-! ### Programs -/

/-- What an instruction of a program does, and the place it comes from. -/
def Program.site? (p : Program) (x pc : Nat) : Option (Opcode × Span) :=
  (p.instruction? x pc).map fun i => (i.op, i.span)

/-- Code lies in a section from a place on. -/
def Program.Lies (p : Program) (x pc : Nat) (code : List (Opcode × Span)) : Prop :=
  ∀ n e, code[n]? = some e → p.site? x (pc + n) = some e

namespace Program.Lies

variable {p : Program} {x pc : Nat} {A B : List (Opcode × Span)}

theorem left (h : p.Lies x pc (A ++ B)) : p.Lies x pc A := fun n e he =>
  h n e (by rw [List.getElem?_append_left (List.getElem?_eq_some_iff.1 he).1]; exact he)

theorem right (h : p.Lies x pc (A ++ B)) : p.Lies x (pc + A.length) B := fun n e he => by
  rw [Nat.add_assoc]
  refine h _ e ?_
  rw [List.getElem?_append_right (Nat.le_add_right _ _), Nat.add_sub_cancel_left]
  exact he

theorem site {pc' : Nat} {e : Opcode × Span} (h : p.Lies x pc A) (n : Nat) (he : A[n]? = some e) (hpc : pc' = pc + n) :
    p.site? x pc' = some e := hpc ▸ h n e he

end Program.Lies

/-- Where a try statement stands in a program: its section, its first label, its place in the script, and its first
instruction, its handler, its final part for an exception and the instruction that throws the exception again. -/
structure TrySite where
  sectionIndex : Nat
  label : Nat
  span : Span
  start : Nat
  handler : Nat
  rethrow : Nat
  last : Nat

/-- A program has a try statement at a site. All its own instructions carry the place of the statement. -/
structure Program.HasTry (p : Program) (t : TrySite) (clause : Option Handler) (final : Option (List Stmt)) : Prop where
  start : p.site? t.sectionIndex t.start = some (.tryStart t.label (final.map fun _ => t.label + 1) false, t.span)
  handler : p.site? t.sectionIndex t.handler = some (.label t.label, t.span)
  keeps : p.site? t.sectionIndex (t.handler + 1) = some (.tryStart (t.label + 1) none true, t.span)
  /-- Without a catch clause the exception is thrown on at once. -/
  bare : clause = none → p.site? t.sectionIndex (t.handler + 2) = some (.throw, t.span)
  rethrow : p.site? t.sectionIndex t.rethrow = some (.label (t.label + 1), t.span)
  last : p.site? t.sectionIndex t.last = some (.throw, t.span)
  behind : p.site? t.sectionIndex (t.last + 1) = some (.label (t.label + 2), t.span)

/-- The sections of a compiled script are whole. -/
theorem Script.exists_whole {script : Script} {p : Program} (hc : script.compile = .ok p) {x : Nat} {s : CodeSection}
    (hs : p.sections[x]? = some s) : ∃ L : Listing, L.code = s.code.toList ∧ Whole (· ∈ script.nodes) L := by
  obtain ⟨hscript, hbodies⟩ := sections_of_compile hc
  have hevery : Every (· ∈ script.nodes) script.nodes := fun _ h => h
  cases x with
  | zero =>
    obtain ⟨L, hL, hcode⟩ := emits_draft script
    rw [hscript] at hs
    cases hs
    exact ⟨L ++ asm .unknown [.eof], hcode.symm, (hL.whole (hevery.append .nil) trivial).append (.plain rfl)⟩
  | succ n =>
    rw [hbodies] at hs
    obtain ⟨b, hb, rfl⟩ := Option.map_eq_some_iff.1 hs
    obtain ⟨kind, ss, e, hcompiled, -⟩ := compiled_body hevery hb
    obtain ⟨span, d, L, d₁, F, hL, hF, hcode⟩ := hcompiled.emits
    exact ⟨F, hcode, hF.whole .nil (hL.whole (hcompiled.every.append .nil) trivial)⟩

/-- **An instruction that opens a region belongs to a try statement of the script**, whose handler or final part the
region leads to. -/
theorem Script.exists_try {script : Script} {p : Program} (hc : script.compile = .ok p) {x pc l : Nat}
    {f : Option Nat} {keep : Bool} {span : Span} (h : p.site? x pc = some (.tryStart l f keep, span)) :
    ∃ t body clause final, .stmt (.try body clause final) ∈ script.nodes ∧ p.HasTry t clause final ∧
      t.sectionIndex = x ∧ (l = t.label ∨ l = t.label + 1) := by
  obtain ⟨i, hi, hop⟩ := Option.map_eq_some_iff.1 h
  obtain ⟨s, hs, hpc⟩ := Option.bind_eq_some_iff.1 hi
  obtain ⟨L, hcode, hL⟩ := Script.exists_whole hc hs
  have hsite : ∀ n, p.site? x n = L.sites[n]? := by
    intro n
    rw [Program.site?, Program.instruction?, hs, Listing.sites, hcode, List.getElem?_map, Array.getElem?_toList]
    rfl
  rw [hsite] at h
  obtain ⟨body, clause, final, n, B, H, F, before, after, hnode, hsites, hbare, hplace⟩ := hL _ _ _ _ _ h
  have hlies : p.Lies x 0 (before ++ tryCode n span final B H F ++ after) := fun k e he => by
    rw [Nat.zero_add, hsite, hsites, he]
  have hcode := hlies.left.right
  have hstart := hcode.left.left.left.left.left.left
  have hfirst := hcode.left.left.left.left.right
  have hclause := hcode.left.left.left.right
  have hsecond := hcode.left.left.right
  have hlast := hcode.right
  let start := before.length
  let handler := start + B.length + 3
  let rethrow := handler + H.length + 4
  let last := rethrow + F.length + 1
  refine ⟨⟨x, n, span, start, handler, rethrow, last⟩, body, clause, final, hnode, ?_, rfl, ?_⟩
  · exact {
      start := hstart.site 0 rfl (by simp [start])
      handler := hfirst.site 2 rfl (by simp [start, handler, sitesAt]; omega)
      keeps := hfirst.site 3 rfl (by simp [start, handler, sitesAt]; omega)
      bare := fun hnone => hclause.site 0 (by rw [hbare hnone]; rfl) (by simp [start, handler, sitesAt]; omega)
      rethrow := hsecond.site 2 rfl (by simp [start, handler, rethrow, sitesAt]; omega)
      last := hlast.site 0 rfl (by simp [start, handler, rethrow, last, sitesAt]; omega)
      behind := hlast.site 1 rfl (by simp [start, handler, rethrow, last, sitesAt]; omega) }
  · exact hplace.imp (·.2.1) (·.2.1)

namespace Program.HasTry

variable {script : Script} {p : Program} {t : TrySite} {clause : Option Handler} {final : Option (List Stmt)}

theorem target {x pc l : Nat} {span : Span} (hc : script.compile = .ok p) (h : p.site? x pc = some (.label l, span)) :
    p.jumpTarget? l = some pc := by
  obtain ⟨-, -, -, hlabels⟩ := assemble_ok (Script.program_of_compile hc)
  obtain ⟨i, hi, he⟩ := Option.map_eq_some_iff.1 h
  exact hlabels x pc i l hi (congrArg Prod.fst he)

/-- The first region of a try statement leads to its handler. -/
theorem handler_target (h : p.HasTry t clause final) (hc : script.compile = .ok p) :
    p.jumpTarget? t.label = some t.handler := target hc h.handler

/-- The second one leads to its final part. -/
theorem rethrow_target (h : p.HasTry t clause final) (hc : script.compile = .ok p) :
    p.jumpTarget? (t.label + 1) = some t.rethrow := target hc h.rethrow

end Program.HasTry

end ScriptMachine
