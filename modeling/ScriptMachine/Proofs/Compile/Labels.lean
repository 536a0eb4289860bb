import ScriptMachine.Proofs.Compile.Expressions
import ScriptMachine.Proofs.Compile.Sections

/-!
# Labels — generated code passes the checks of the assembler

Every label is new when it is handed out and is defined once, so how often a label is defined can be
counted: a piece of code defines no label that existed before, and each of those handed out meanwhile at
most once, bodies included. Instructions name labels of the code around them or of the loops around it.
So `Program.assemble` accepts whatever the generator makes (`exists_program`).
-/

namespace ScriptMachine.Compile

open Listing

/-- The label that an operation defines. -/
def label? : Opcode → Option Nat
  | .label l => some l
  | _ => none

/-- The labels that operations define. -/
def labelsIn (ops : List Opcode) : List Nat := ops.filterMap label?

/-- The labels that operations name. -/
def targetsIn (ops : List Opcode) : List Nat := ops.flatMap Opcode.targets

@[simp] theorem labelsIn_append (a b : List Opcode) : labelsIn (a ++ b) = labelsIn a ++ labelsIn b :=
  List.filterMap_append

@[simp] theorem targetsIn_append (a b : List Opcode) : targetsIn (a ++ b) = targetsIn a ++ targetsIn b :=
  List.flatMap_append

@[simp] theorem labelsIn_cons (op : Opcode) (ops : List Opcode) :
    labelsIn (op :: ops) = (label? op).toList ++ labelsIn ops := by
  rw [labelsIn, List.filterMap_cons]
  cases label? op <;> rfl

@[simp] theorem targetsIn_cons (op : Opcode) (ops : List Opcode) :
    targetsIn (op :: ops) = op.targets ++ targetsIn ops := rfl

@[simp] theorem labelsIn_nil : labelsIn [] = [] := rfl

@[simp] theorem targetsIn_nil : targetsIn [] = [] := rfl

/-- The operations of some code. -/
def opsOf (code : Code) : List Opcode := code.map (·.op)

/-- The labels that the bodies of a draft define. -/
def Draft.bodyLabels (d : Draft) : List Nat := d.bodies.toList.flatMap fun b => labelsIn (opsOf b.code)

/-- A listing defines labels that were handed out meanwhile, and `extra` ones; what it names is defined
in it or is one of the `outer` labels. -/
structure Labelled (extra outer : List Nat) (ops : List Opcode) (d d' : Draft) : Prop where
  more : d.labels ≤ d'.labels
  count : ∀ l, (labelsIn ops).count l + d'.bodyLabels.count l ≤
    d.bodyLabels.count l + extra.count l + if d.labels ≤ l ∧ l < d'.labels then 1 else 0
  targets : ∀ t ∈ targetsIn ops, t ∈ labelsIn ops ∨ t ∈ outer

namespace Labelled

variable {x x' o o' : List Nat} {A B ops : List Opcode} {d d₁ d' : Draft}

/-- Operations that leave the draft alone. -/
theorem emit (ops : List Opcode) (d : Draft) : Labelled (labelsIn ops) (targetsIn ops) ops d d where
  more := Nat.le_refl _
  count l := by omega
  targets _ ht := .inr ht

/-- The draft changes in what does not matter. -/
theorem idle (hl : d'.labels = d.labels) (hb : d'.bodies = d.bodies) : Labelled [] [] [] d d' where
  more := Nat.le_of_eq hl.symm
  count l := by simp [Draft.bodyLabels, hb]
  targets _ ht := nomatch ht

theorem seq (hA : Labelled x o A d d₁) (hB : Labelled x' o' B d₁ d') :
    Labelled (x ++ x') (o ++ o') (A ++ B) d d' where
  more := Nat.le_trans hA.more hB.more
  count l := by
    have hcA := hA.count l
    have hcB := hB.count l
    have hmA := hA.more
    have hmB := hB.more
    rw [labelsIn_append, List.count_append, List.count_append]
    split at hcA <;> split at hcB <;> split <;> omega
  targets t ht := by
    rw [targetsIn_append, List.mem_append] at ht
    rw [labelsIn_append, List.mem_append, List.mem_append]
    rcases ht with ht | ht
    · rcases hA.targets t ht with ht | ht
      · exact .inl (.inl ht)
      · exact .inr (.inl ht)
    · rcases hB.targets t ht with ht | ht
      · exact .inl (.inr ht)
      · exact .inr (.inr ht)

/-- Labels that were handed out and defined. -/
theorem fresh {k : Nat} (h : Labelled x o ops (d.skip k) d') (hx : x.Nodup)
    (hr : ∀ l ∈ x, d.labels ≤ l ∧ l < d.labels + k) (ho : ∀ t ∈ o, t ∈ labelsIn ops ∨ t ∈ o') :
    Labelled [] o' ops d d' where
  more := Nat.le_trans (Nat.le_add_right _ _) h.more
  count l := by
    have hc := h.count l
    have hm : d.labels + k ≤ d'.labels := h.more
    have hone := List.nodup_iff_count_le_one.1 hx l
    have hs : (d.skip k).labels = d.labels + k := rfl
    have hb : (d.skip k).bodyLabels = d.bodyLabels := rfl
    rw [hs, hb] at hc
    rw [List.count_nil]
    by_cases hl : l ∈ x
    · have hrange := hr l hl
      split at hc <;> split <;> omega
    · rw [List.count_eq_zero_of_not_mem hl] at hc
      split at hc <;> split <;> omega
  targets t ht := by
    rcases h.targets t ht with ht | ht
    · exact .inl ht
    · exact ho t ht

/-- Nothing was handed out. -/
theorem plain (h : Labelled x o ops d d') (hx : x = []) (ho : ∀ t ∈ o, t ∈ labelsIn ops ∨ t ∈ o') :
    Labelled [] o' ops d d' := by
  subst hx
  exact fresh (k := 0) h List.nodup_nil nofun ho

/-- The same with fewer labels from around. -/
theorem inside (h : Labelled x o ops d d') (hx : x = []) (ho : o ⊆ o') : Labelled [] o' ops d d' :=
  h.plain hx fun _ ht => .inr (ho ht)

/-- Hidden names, numbers of functions and problems do not matter. -/
theorem parked (h : Labelled x o ops (newParked d).2 d') : Labelled x o ops d d' :=
  ⟨h.more, h.count, h.targets⟩

theorem lambda (h : Labelled x o ops (newLambda d).2 d') : Labelled x o ops d d' :=
  ⟨h.more, h.count, h.targets⟩

theorem report {span : Span} {message : String} (h : Labelled x o ops (d.report span message) d') :
    Labelled x o ops d d' := ⟨h.more, h.count, h.targets⟩

/-- Code that is not used. -/
theorem unused (h : Labelled [] o A d d₁) (h' : Labelled x o' B d₁ d') : Labelled x o' B d d' := by
  have hnone : Labelled [] [] [] d d₁ :=
    ⟨h.more, fun l => Nat.le_trans (Nat.add_le_add_right (Nat.zero_le _) _) (h.count l), nofun⟩
  exact hnone.seq h'

theorem target (place : Target) (span : Span) (d : Draft) :
    Labelled [] [] (Listing.ops (place.load span)).opcodes d d ∧
      Labelled [] [] (Listing.ops (place.save span)).opcodes d d := by
  cases place <;> exact ⟨(emit _ _).plain rfl nofun, (emit _ _).plain rfl nofun⟩

/-- Code around the uses of a target. -/
theorem around {span : Span} {K U : Listing} {place : Target} (hK : Labelled [] [] K.opcodes d d₁)
    (hU : Labelled [] [] U.opcodes d₁ d') : Labelled [] [] (around span K U place).opcodes d d' := by
  have hwithin : Labelled [] [] (within span (K ++ U)).opcodes d d' := by
    simp only [opcodes_within, opcodes_append]
    exact (((Labelled.emit [.enterScope] d).seq (hK.seq hU)).seq (.emit [.leaveScope] _)).plain rfl nofun
  cases place with
  | plain name => exact hK.unused hU
  | property | element => exact hwithin

end Labelled

/-! ### Pieces -/

/-- The labels of loops. -/
def loopLabels : List Context → List Nat
  | [] => []
  | .loop continueTo breakTo :: rest => continueTo :: breakTo :: loopLabels rest
  | .region _ :: rest => loopLabels rest
  | .pendingThrow :: rest => loopLabels rest

/-- The labels that the code of a piece defines because it contains other code. -/
def Piece.extra : Piece → List Nat
  | .exprThen _ after _ => labelsIn after
  | .finish _ _ L => labelsIn L.opcodes
  | _ => []

/-- The labels that the code of a piece may name without defining them. -/
def Piece.outer : Piece → List Nat
  | .exprThen _ after _ => targetsIn after
  | .finish _ _ L => targetsIn L.opcodes
  | .stmt around _ | .stmtOption around _ | .stmts around _ | .stmtKind around _ _
  | .handler around _ _ | .final around _ _ => loopLabels around.contexts
  | .leave _ _ _ contexts => loopLabels contexts
  | _ => []

theorem innermostLoop_mem {C : List Context} {n continueTo breakTo : Nat}
    (hn : innermostLoop? C = some (n, continueTo, breakTo)) :
    continueTo ∈ loopLabels C ∧ breakTo ∈ loopLabels C := by
  induction C generalizing n with
  | nil => cases hn
  | cons context rest ih =>
    cases context with
    | loop a z =>
      cases hn
      exact ⟨List.mem_cons_self, List.mem_cons_of_mem _ List.mem_cons_self⟩
    | region final | pendingThrow =>
      obtain ⟨⟨m, labels⟩, hm, he⟩ := Option.map_eq_some_iff.1 hn
      cases he
      exact ih hm

theorem labelled_pool (lit : Literal) (d : Draft) : Labelled [] [] [] d (poolIndex lit d).2 := by
  refine .idle ?_ (bodies_poolIndex lit d)
  unfold poolIndex
  cases d.constants.findIdx? fun c => c.key == lit.key <;> rfl

/-- One element of a list is replaced. -/
theorem count_flatMap_modify {α : Type} {g : α → List Nat} {f : α → α} {a : α} {l : List α} {i : Nat}
    (hi : l[i]? = some a) (x : Nat) :
    ((l.modify i f).flatMap g).count x + (g a).count x = (l.flatMap g).count x + (g (f a)).count x := by
  induction l generalizing i with
  | nil => cases hi
  | cons b rest ih =>
    cases i with
    | zero =>
      cases hi
      simp only [List.modify_zero_cons, List.flatMap_cons, List.count_append]
      omega
    | succ i =>
      have hrest := ih hi
      simp only [List.modify_succ_cons, List.flatMap_cons, List.count_append]
      omega

/-- A body that is opened and closed defines its labels. -/
theorem Labelled.body {name : String} {params : List String} {K F : Listing} {d d₁ d₂ : Draft}
    (hK : Labelled [] [] K.opcodes (openBody name params d).2 d₁)
    (hF : Labelled (labelsIn K.opcodes) (targetsIn K.opcodes) F.opcodes d₁ d₂)
    (hb : d₂.bodies[d.bodies.size]? = some { name, params }) :
    Labelled [] [] [] d (closeBody d.bodies.size F.code d₂).2 where
  more := Nat.le_trans hK.more hF.more
  count l := by
    have hcK := hK.count l
    have hcF := hF.count l
    have hmK := hK.more
    have hmF := hF.more
    have hopen : (openBody name params d).2.bodyLabels.count l = d.bodyLabels.count l := by
      simp [Draft.bodyLabels, openBody, opsOf]
    have hlabels : (openBody name params d).2.labels = d.labels := rfl
    have hmodify := count_flatMap_modify (f := fun b => { b with code := F.code })
      (g := fun b => labelsIn (opsOf b.code)) (Array.getElem?_toList.trans hb) l
    have hclose : (closeBody d.bodies.size F.code d₂).2.bodyLabels.count l =
        d₂.bodyLabels.count l + (labelsIn F.opcodes).count l := by
      rw [Draft.bodyLabels, closeBody, Array.toList_modify]
      exact hmodify
    have hlast : (closeBody d.bodies.size F.code d₂).2.labels = d₂.labels := rfl
    rw [hclose, hlast, labelsIn_nil, List.count_nil]
    rw [hopen, hlabels, List.count_nil] at hcK
    rw [hlabels] at hmK
    split at hcK <;> split at hcF <;> split <;> omega
  targets _ ht := nomatch ht

/-- The labels of a piece. -/
theorem Emits.labelled {p : Piece} {d d' : Draft} {L : Listing} (h : Emits p d L d') :
    Labelled p.extra p.outer L.opcodes d d' := by
  induction h with
  | literal =>
    simp only [opcodes_asm]
    exact ((labelled_pool _ _).seq (.emit _ _)).plain rfl nofun
  | expr _ ih | constant _ _ ih | defaultOther _ _ ih | stmtSome _ ih | returnedNone _ ih
  | returnedSome _ ih => exact ih
  | ident | this | saveIdent | defaultConstructor | debugger | noHandler =>
    simp only [opcodes_asm]
    exact (Labelled.emit _ _).plain rfl nofun
  | operandsIdent | exprsNil | fieldsNil | methodsNil | stmtNone | stmtsNil | empty | finalNone | leaveZero
  | leaveNil =>
    exact (Labelled.emit [] _).plain rfl nofun
  | badPattern _ _ ih | badUpdate _ _ ih | badAssign _ _ ih => exact .report ih
  | strayBreak | strayContinue | strayReturn | repeatedClass =>
    exact .report ((Labelled.emit [] _).inside rfl (List.nil_subset _))
  | exprThenNone => exact ⟨Nat.le_refl _, fun l => by rw [opcodes_nil, labelsIn_nil, List.count_nil]; omega, nofun⟩
  | exprThenSome _ ih =>
    simp only [opcodes_append, opcodes_asm]
    exact ih.seq (.emit _ _)
  | array _ ih | record _ ih | member _ ih | new _ ih | saveMember _ ih | calleeMember _ ih | calleeOther _ _ ih =>
    simp only [opcodes_append, opcodes_asm]
    exact (ih.seq (.emit _ _)).plain rfl nofun
  | index _ _ ih₁ ih₂ | binary _ _ ih₁ ih₂ | negate _ _ ih₁ ih₂ | saveIndex _ _ ih₁ ih₂ =>
    simp only [opcodes_append, opcodes_asm]
    exact ((ih₁.seq ih₂).seq (.emit _ _)).plain rfl nofun
  | calleeIndex _ _ ih₁ ih₂ =>
    simp only [opcodes_append, opcodes_asm]
    exact (((ih₁.seq (.emit _ _)).seq ih₂).seq (.emit _ _)).plain rfl nofun
  | assign _ _ ih₁ ih₂ =>
    simp only [opcodes_append, opcodes_asm]
    exact ((ih₁.seq (.emit _ _)).seq ih₂).plain rfl nofun
  | exprsCons _ _ ih₁ ih₂ | fieldsCons _ _ ih₁ ih₂ | call _ _ ih₁ ih₂ =>
    simp only [opcodes_append]
    exact (ih₁.seq ih₂).plain rfl nofun
  | methodsCons _ _ ih₁ ih₂ => exact ih₁.unused (ih₂.unused (.emit [] _))
  | @update span op giveNew _ _ place _ K d₁ N d' _ _ ih₁ ih₂ =>
    have hchange : Labelled [] [] (N ++ asm span [.binary (updateOp op)] ++ .ops (place.save span)).opcodes d₁ d' := by
      simp only [opcodes_append, opcodes_asm]
      exact ((ih₂.seq (.emit _ _)).seq (Labelled.target _ _ _).2).plain rfl nofun
    refine .around ih₁ ?_
    cases giveNew with
    | true =>
      rw [if_pos rfl, opcodes_append, opcodes_append]
      exact ((Labelled.target _ _ _).1.seq hchange).seq (Labelled.target _ _ _).1
    | false =>
      rw [if_neg Bool.false_ne_true, opcodes_append, opcodes_append]
      exact ((Labelled.target _ _ _).1.seq (Labelled.target _ _ _).1).seq hchange
  | assignOp _ _ ih₁ ih₂ => 
    refine .around ih₁ ?_
    simp only [opcodes_append, opcodes_asm]
    exact ((((Labelled.target _ _ _).1.seq ih₂).seq (.emit _ _)).seq (Labelled.target _ _ _).2).plain rfl nofun
  | operandsMember _ ih =>
    simp only [opcodes_append, opcodes_keepAs]
    exact .parked ((ih.seq (.emit _ _)).plain rfl nofun)
  | operandsIndex _ _ ih₁ ih₂ =>
    simp only [opcodes_append, opcodes_keepAs]
    exact .parked ((((ih₁.seq (.emit _ _)).seq (.parked ih₂)).seq (.emit _ _)).plain rfl nofun)
  | lambda _ ih =>
    simp only [opcodes_asm]
    exact .lambda ((ih.unused (.emit _ _)).plain rfl nofun)
  | finished => exact .emit _ _
  | @unfinished _ _ L _ _ _ _ _ ih =>
    have hseq := ((Labelled.emit L.opcodes _).seq ih).seq (.emit [.ret] _)
    simpa [Piece.extra, Piece.outer, label?, Opcode.targets, Opcode.jumpTarget?] using hseq
  | @body span name params kind ss d K d₁ F d₂ hK hF ih₁ ih₂ =>
    have hfills : Fills (fun _ => True) (openBody name params d).2 d₂ :=
      (hK.advance advances_fills (fun _ _ => trivial) trivial).trans
        (hF.advance advances_fills (fun _ _ => trivial) trivial)
    refine .body ih₁ ih₂ ((hfills.kept _ ?_).trans ?_) <;> simp [openBody]
  | stmt _ ih =>
    rw [opcodes_stmt]
    exact ih
  | stmtsCons _ _ ih₁ ih₂ =>
    rw [opcodes_append]
    exact (ih₁.seq ih₂).inside rfl (List.append_subset.2 ⟨List.Subset.refl _, List.Subset.refl _⟩)
  | exprStmt _ ih | throw _ ih =>
    simp only [opcodes_append, opcodes_asm]
    exact (ih.seq (.emit _ _)).plain rfl fun _ h => absurd h List.not_mem_nil
  | var _ ih =>
    simp only [opcodes_append, opcodes_asm]
    exact ((Labelled.emit _ _).seq ih).plain rfl fun _ h => absurd h List.not_mem_nil
  | functionStmt _ ih => exact (ih.unused (.emit [] _)).inside rfl (List.nil_subset _)
  | @«class» _ _ name _ indices _ _ d' _ _ ih =>
    have hdeclare : Labelled [] [] [] d' (declareClass name indices d').2 := .idle rfl rfl
    exact (ih.unused hdeclare).inside rfl (List.nil_subset _)
  | block _ ih | finalSome _ ih =>
    rw [opcodes_within]
    exact (((Labelled.emit _ _).seq ih).seq (.emit _ _)).inside rfl
      (by simp [Piece.outer, Opcode.targets, Opcode.jumpTarget?])
  | handlerParam _ ih =>
    simp only [opcodes_within, opcodes_append, opcodes_keepAs]
    exact (((Labelled.emit _ _).seq ((Labelled.emit _ _).seq ih)).seq (.emit _ _)).inside rfl
      (by simp [Piece.outer, Opcode.targets, Opcode.jumpTarget?])
  | handler _ ih =>
    simp only [opcodes_within, opcodes_append, opcodes_asm]
    exact ((Labelled.emit _ _).seq (((Labelled.emit _ _).seq ih).seq (.emit _ _))).inside rfl
      (by simp [Piece.outer, Opcode.targets, Opcode.jumpTarget?])
  | «break» hn _ ih | «continue» hn _ ih =>
    simp only [opcodes_append, opcodes_asm]
    exact (ih.seq (.emit _ _)).inside rfl
      (by simp [Piece.outer, Opcode.targets, Opcode.jumpTarget?, innermostLoop_mem hn])
  | ret _ _ _ ih =>
    simp only [opcodes_append, opcodes_asm]
    exact (ih.seq (.emit _ _)).plain rfl fun _ h => absurd h List.not_mem_nil
  | retLeaving _ _ _ _ ih₁ ih₂ =>
    simp only [opcodes_append, opcodes_asm, opcodes_keepAs]
    exact (((ih₁.seq (.emit _ _)).seq ih₂).seq (.emit _ _)).inside rfl
      (by simp [Piece.outer, Opcode.targets, Opcode.jumpTarget?])
  | leaveLoop _ ih | leavePending _ ih =>
    simp only [opcodes_append, opcodes_asm]
    exact ((Labelled.emit _ _).seq ih).inside rfl
      (by simp [Piece.outer, loopLabels, Opcode.targets, Opcode.jumpTarget?])
  | leaveRegion _ _ ih₁ ih₂ =>
    simp only [opcodes_append, opcodes_asm]
    exact (((Labelled.emit _ _).seq ih₁).seq ih₂).inside rfl
      (by simp [Piece.outer, loopLabels, Opcode.targets, Opcode.jumpTarget?])
  | not _ _ _ ih₁ ih₂ ih₃ | conditional _ _ _ ih₁ ih₂ ih₃ =>
    simp only [opcodes_append, opcodes_asm]
    refine ((((((ih₁.seq (.emit _ _)).seq ih₂).seq (.emit _ _)).seq ih₃).seq (.emit _ _))).fresh ?_ ?_ ?_
    · simp [Piece.extra, label?]
    · simp [Piece.extra, label?]
    · simp [Piece.outer, label?, Opcode.targets, Opcode.jumpTarget?]
  | cond _ _ _ ih₁ ih₂ ih₃ =>
    simp only [opcodes_append, opcodes_asm]
    refine ((((((ih₁.seq (.emit _ _)).seq ih₂).seq (.emit _ _)).seq ih₃).seq (.emit _ _))).fresh ?_ ?_ ?_
    · simp [Piece.extra, label?]
    · simp [Piece.extra, label?]
    · simp [Piece.outer, label?, Opcode.targets, Opcode.jumpTarget?]
      grind
  | @logical _ op _ _ _ _ _ _ _ _ _ _ _ _ ih₁ ih₂ ih₃ =>
    simp only [opcodes_append, opcodes_asm]
    refine ((((((ih₁.seq (.emit _ _)).seq ih₂).seq (.emit _ _)).seq ih₃).seq (.emit _ _))).fresh ?_ ?_ ?_ <;>
      cases op <;> simp [Piece.extra, Piece.outer, shortcut, label?, Opcode.targets, Opcode.jumpTarget?]
  | «while» _ _ ih₁ ih₂ =>
    simp only [opcodes_append, opcodes_asm]
    refine (((((Labelled.emit _ _).seq ih₁).seq (.emit _ _)).seq ih₂).seq (.emit _ _)).fresh ?_ ?_ ?_
    · simp [Piece.extra, label?]
    · simp [Piece.extra, label?]
    · simp [Piece.outer, Surroundings.inside, loopLabels, label?, Opcode.targets, Opcode.jumpTarget?]
      grind
  | «for» _ _ _ _ ih₁ ih₂ ih₃ ih₄ =>
    simp only [opcodes_append, opcodes_asm, opcodes_within]
    refine (((Labelled.emit _ _).seq ((((((ih₁.seq (.emit _ _)).seq ih₂).seq ih₃).seq (.emit _ _)).seq ih₄).seq
      (.emit _ _))).seq (.emit _ _)).fresh ?_ ?_ ?_
    · simp [Piece.extra, label?]
    · simp [Piece.extra, label?]
    · simp [Piece.outer, Surroundings.inside, loopLabels, label?, Opcode.targets, Opcode.jumpTarget?]
      grind
  | @«try» _ _ _ _ final _ _ _ _ _ _ _ _ _ _ _ _ _ ih₁ ih₂ ih₃ ih₄ =>
    simp only [opcodes_append, opcodes_asm, opcodes_within]
    refine ((((((((Labelled.emit _ _).seq (((Labelled.emit _ _).seq ih₁).seq (.emit _ _))).seq (.emit _ _)).seq ih₂).seq
      (.emit _ _)).seq ih₃).seq (.emit _ _)).seq ih₄).fresh ?_ ?_ ?_
    · simp [Piece.extra, label?]
    · simp [Piece.extra, label?]
    · cases final <;>
        simp [Piece.outer, Surroundings.inside, loopLabels, label?, Opcode.targets, Opcode.jumpTarget?] <;> grind

/-! ### The assembler -/

theorem repeatedLabel?_eq_none {seen : List Nat} {sites : List (Nat × LabelSite)}
    (hs : ∀ l ∈ sites.map Prod.fst, l ∉ seen) (hn : (sites.map Prod.fst).Nodup) :
    repeatedLabel? seen sites = none := by
  induction sites generalizing seen with
  | nil => rfl
  | cons site rest ih =>
    obtain ⟨l, place⟩ := site
    obtain ⟨hnot, hrest⟩ := List.nodup_cons.1 hn
    rw [repeatedLabel?, if_neg (by simpa using hs l List.mem_cons_self)]
    refine ih (fun l' hl' hmem => ?_) hrest
    rcases List.mem_cons.1 hmem with rfl | hmem
    · exact hnot hl'
    · exact hs l' (List.mem_cons_of_mem _ hl') hmem

/-- The labels of a section are those that its code defines. -/
theorem map_labelSites (s : CodeSection) (x : Nat) :
    (s.labelSites x).map Prod.fst = labelsIn (opsOf s.code.toList) := by
  rw [CodeSection.labelSites]
  generalize 0 = start
  induction s.code.toList generalizing start with
  | nil => rfl
  | cons i rest ih =>
    have hrest := ih (start + 1)
    obtain ⟨op⟩ := i
    rw [opsOf] at hrest ⊢
    rw [List.zipIdx_cons, List.filterMap_cons, List.map_cons, labelsIn_cons, ← hrest]
    cases op <;> rfl

theorem section_of_mem_labelSites {s : CodeSection} {x l : Nat} {site : LabelSite}
    (h : (l, site) ∈ s.labelSites x) : site.sectionIndex = x := by
  obtain ⟨⟨i, pc⟩, -, hsite⟩ := List.mem_filterMap.1 h
  simp only at hsite
  split at hsite
  · cases hsite
    rfl
  · cases hsite

theorem flatMap_zipIdx {α β : Type} (g : α → List β) (l : List α) (start : Nat) :
    (l.zipIdx start).flatMap (fun x => g x.1) = l.flatMap g := by
  induction l generalizing start with
  | nil => rfl
  | cons a rest ih => rw [List.zipIdx_cons, List.flatMap_cons, List.flatMap_cons, ih]

/-- Sections that define every label once and name only their own are accepted. -/
theorem assemble_accepts {sections : Array CodeSection} (constants : Array Value)
    (functions : Array ScriptFunction) (classes : List (String × List Nat))
    (hne : sections.isEmpty = false)
    (hn : (sections.toList.flatMap fun s => labelsIn (opsOf s.code.toList)).Nodup)
    (ht : ∀ s ∈ sections.toList, targetsIn (opsOf s.code.toList) ⊆ labelsIn (opsOf s.code.toList)) :
    ∃ p, Program.assemble sections constants functions classes = .ok p := by
  have hkeys : (sections.toList.zipIdx.flatMap fun x => x.1.labelSites x.2).map Prod.fst =
      sections.toList.flatMap fun s => labelsIn (opsOf s.code.toList) := by
    simp only [List.map_flatMap, map_labelSites]
    exact flatMap_zipIdx (fun s : CodeSection => labelsIn (opsOf s.code.toList)) _ _
  have hnodup := hkeys ▸ hn
  have hrepeat : repeatedLabel? [] (sections.toList.zipIdx.flatMap fun x => x.1.labelSites x.2) = none :=
    repeatedLabel?_eq_none (fun _ _ hm => nomatch hm) hnodup
  have hstray : sections.toList.zipIdx.findSome? (fun x => x.1.strayTarget?
      (sections.toList.zipIdx.flatMap fun x => x.1.labelSites x.2) x.2) = none := by
    rw [List.findSome?_eq_none_iff]
    rintro ⟨s, x⟩ hsx
    rw [CodeSection.strayTarget?, List.findSome?_eq_none_iff]
    intro i hi
    rw [Option.map_eq_none_iff, List.find?_eq_none]
    intro l hl
    have hs : s ∈ sections.toList := (List.mem_zipIdx' hsx).2 ▸ List.getElem_mem _
    have hdefined := ht s hs (List.mem_flatMap.2 ⟨i.op, List.mem_map.2 ⟨i, hi, rfl⟩, hl⟩)
    rw [← map_labelSites s x] at hdefined
    obtain ⟨⟨l', site⟩, hsite, rfl⟩ := List.mem_map.1 hdefined
    have hx : site.sectionIndex = x := section_of_mem_labelSites hsite
    rw [lookup_of_mem hnodup (List.mem_flatMap.2 ⟨_, hsx, hsite⟩)]
    simp [hx]
  simp only [Program.assemble, hne, Bool.false_eq_true, if_false, hrepeat, hstray]
  exact ⟨_, rfl⟩

/-- A body begins with its statements, and it has code. -/
theorem Emits.covers {kind : BodyKind} {span : Span} {d d' : Draft} {L F : Listing}
    (hF : Emits (.finish kind span L) d F d') :
    ∃ rest, F.opcodes = L.opcodes ++ rest ∧ 0 < F.opcodes.length := by
  cases hF with
  | finished hlast =>
    refine ⟨[], (List.append_nil _).symm, ?_⟩
    rw [Listing.opcodes, List.length_map, List.length_pos_iff]
    intro hnil
    rw [hnil] at hlast
    cases hlast
  | @unfinished _ _ _ _ D =>
    refine ⟨D.opcodes ++ [.ret], by simp, ?_⟩
    simp only [opcodes_append, opcodes_asm, List.length_append, List.length_singleton]
    omega

/-- What the code of a body names is defined in it. -/
theorem Compiled.targets {ok : Node → Prop} {kind : BodyKind} {ss : List Stmt} {e : Draft} {b : Body}
    (h : Compiled ok kind ss e b) : targetsIn (opsOf b.code) ⊆ labelsIn (opsOf b.code) := by
  obtain ⟨span, d, L, d₁, F, hL, hF, hcode⟩ := h.emits
  obtain ⟨rest, hcovers, -⟩ := hF.covers
  intro t ht
  rw [← hcode] at ht ⊢
  rcases hF.labelled.targets t ht with hlabel | hbefore
  · exact hlabel
  · rcases hL.labelled.targets t hbefore with hlabel | hnone
    · change t ∈ labelsIn F.opcodes
      rw [hcovers, labelsIn_append]
      exact List.mem_append_left _ hlabel
    · cases hnone

/-- **The generator makes programs that are accepted**: labels are defined once, and named only where
they are defined. -/
theorem exists_program (script : Script) : ∃ p, script.draft.2.program script.draft.1 = .ok p := by
  obtain ⟨L, hL, cL⟩ := emits_draft script
  have hops : opsOf script.draft.1 = L.opcodes ++ [.eof] := by
    rw [cL, opsOf, List.map_append]
    rfl
  refine assemble_accepts _ _ _ (by simp) ?_ ?_
  · rw [List.nodup_iff_count_le_one]
    intro l
    have hcount := hL.labelled.count l
    have hlabels : (#[CodeSection.mk CodeSection.scriptName script.draft.1.toArray] ++
        script.draft.2.bodies.map fun b => CodeSection.mk b.name b.code.toArray).toList.flatMap
          (fun s : CodeSection => labelsIn (opsOf s.code.toList)) =
        labelsIn L.opcodes ++ script.draft.2.bodyLabels := by
      simp [Draft.bodyLabels, List.flatMap_map, hops, label?]
    have hnone : ({} : Draft).bodyLabels.count l = 0 := rfl
    have hextra : (Piece.stmts { body := .script } script.body).extra.count l = 0 := rfl
    rw [hlabels, List.count_append]
    rw [hnone, hextra] at hcount
    split at hcount <;> omega
  · intro s hs
    rcases Array.mem_append.1 (Array.mem_toList_iff.1 hs) with hs | hs
    · rw [Array.mem_singleton.1 hs]
      intro t ht
      simp only [hops, targetsIn_append, labelsIn_append, List.mem_append] at ht ⊢
      rcases ht with ht | ht
      · rcases hL.labelled.targets t ht with hlabel | hnone
        · exact .inl hlabel
        · cases hnone
      · cases ht
    · obtain ⟨b, hb, rfl⟩ := Array.mem_map.1 hs
      obtain ⟨i, hi⟩ := Array.getElem?_of_mem hb
      have hevery : Every (fun _ => True) script.nodes := fun _ _ => trivial
      obtain ⟨kind, ss, e, hcompiled, -⟩ := Script.compiled_body hevery hi
      exact hcompiled.targets

end ScriptMachine.Compile
