import ScriptMachine.Proofs.Compile.Naming

/-!
# Classes — the methods that a program knows of a class

A class goes into the table when its methods have been compiled. So the table of a script that compiles has one entry
for each class, which is that of its outermost declaration: any other declaration of the class lies in a method of this
one (`Script.exists_entry`). The entry lists the functions that were compiled from the methods of the declaration, in
order (`Script.Emitted.installs`).
-/

namespace ScriptMachine

open Compile Segment

namespace Compile

theorem classes_poolIndex (lit : Literal) (d : Draft) : (poolIndex lit d).2.classes = d.classes := by
  unfold poolIndex
  cases d.constants.findIdx? fun c => c.key == lit.key <;> rfl

/-- What holds of the parts, knowing where they are among the segments. -/
theorem Segment.Parts.imp {P Q : Emission → Prop} {segments : List Segment} (h : Parts P segments)
    (himp : ∀ before e after, segments = before ++ .part e :: after → P e → Q e) : Parts Q segments := by
  induction segments with
  | nil => trivial
  | cons s rest ih =>
    have hrest : ∀ before e after, rest = before ++ .part e :: after → P e → Q e :=
      fun before e after heq => himp (s :: before) e after (congrArg (s :: ·) heq)
    cases s with
    | own | given => exact ih h hrest
    | part e => exact ⟨himp [] e rest rfl h.1, ih h.2 hrest⟩

/-- A class is in the table when its methods have been compiled. -/
theorem Emission.Splits.of_class {e : Emission} {segments : List Segment} (h : e.Splits segments)
    (hok : e.after.problems = []) {around : Surroundings} {span : Span} {name : String} {ms : List Method}
    (hpiece : e.piece = .stmtKind around span (.class name ms)) :
    ∃ e' indices, segments = [.part e'] ∧ e'.piece = .methods span name ms indices ∧ e'.before = e.before ∧
      e.before.classes.lookup name = none ∧ e.after.classes = (name, indices) :: e'.after.classes := by
  cases h with
  | repeatedClass => cases hok
  | «class» hnew hL =>
    cases hpiece
    exact ⟨_, _, rfl, rfl, rfl, by simpa using hnew, rfl⟩
  | _ => cases hpiece

end Compile

/-! ### The entry of a class -/

/-- The methods of a declaration were compiled to some bodies. -/
def Script.Declared (script : Script) (c : String) (ms : List Method) (indices : List Nat) : Prop :=
  .stmt (.class c ms) ∈ script.nodes ∧ ∃ x pc e span, script.Emitted x pc e ∧ e.piece = .methods span c ms indices

/-- What becomes of the entry of a class while some nodes are compiled. Without a declaration it stays as it is; else
the outermost declaration makes it, and any other lies in a method of this one. -/
inductive Outcome (script : Script) (c : String) (ns : List Node) (table table' : List (String × List Nat)) : Prop where
  | same (lookup : table'.lookup c = table.lookup c) (none : ∀ ms, .stmt (.class c ms) ∉ ns)
  | made {ms : List Method} {indices : List Nat} (fresh : table.lookup c = none)
      (entry : table'.lookup c = some indices) (declared : script.Declared c ms indices)
      (outermost : ∀ ms', .stmt (.class c ms') ∈ ns → ms' = ms ∨ .stmt (.class c ms') ∈ methodsNodes ms)

namespace Outcome

variable {script : Script} {c : String} {ns ns' : List Node} {t t₁ t' : List (String × List Nat)}

theorem idle (h : t'.lookup c = t.lookup c) : Outcome script c [] t t' := .same h fun _ => List.not_mem_nil

theorem refl : Outcome script c [] t t := idle rfl

/-- Only the declarations among the nodes matter. -/
theorem sub (h : Outcome script c ns t t') (hsub : ∀ n ∈ ns', n.className? ≠ none → n ∈ ns) :
    Outcome script c ns' t t' := by
  cases h with
  | same hlookup hnone => exact .same hlookup fun ms hmem => hnone ms (hsub _ hmem (Option.some_ne_none c))
  | made hfresh hentry hdeclared houtermost =>
    exact .made hfresh hentry hdeclared fun ms' hmem => houtermost ms' (hsub _ hmem (Option.some_ne_none c))

/-- A node that is no declaration. -/
theorem node {n : Node} (h : Outcome script c ns t t') (hn : n.className? = none := by rfl) :
    Outcome script c (n :: ns) t t' :=
  h.sub fun m hm hclass => by
    rcases List.mem_cons.1 hm with rfl | hm
    · exact absurd hn hclass
    · exact hm

/-- A class is not declared again once it is in the table. -/
theorem seq (h : Outcome script c ns t t₁) (h' : Outcome script c ns' t₁ t') : Outcome script c (ns ++ ns') t t' := by
  cases h with
  | same hlookup hnone =>
    cases h' with
    | same hlookup' hnone' =>
      exact .same (hlookup'.trans hlookup) fun ms hmem => (List.mem_append.1 hmem).elim (hnone ms) (hnone' ms)
    | made hfresh hentry hdeclared houtermost =>
      exact .made (hlookup.symm.trans hfresh) hentry hdeclared fun ms' hmem =>
        (List.mem_append.1 hmem).elim (fun hmem => absurd hmem (hnone ms')) (houtermost ms')
  | made hfresh hentry hdeclared houtermost =>
    cases h' with
    | same hlookup' hnone' =>
      exact .made hfresh (hlookup'.trans hentry) hdeclared fun ms' hmem =>
        (List.mem_append.1 hmem).elim (houtermost ms') fun hmem => absurd hmem (hnone' ms')
    | made hfresh' =>
      rw [hentry] at hfresh'
      cases hfresh'

theorem swap (h : Outcome script c (ns ++ ns') t t') : Outcome script c (ns' ++ ns) t t' :=
  h.sub fun _ hn _ => List.mem_append.2 (List.mem_append.1 hn).symm

theorem followed (h : Outcome script c ns t t₁) (h' : Outcome script c [] t₁ t') : Outcome script c ns t t' := by
  simpa using h.seq h'

/-- A class that is declared when its methods have been compiled. -/
theorem declare {name : String} {ms : List Method} {indices : List Nat} (h : Outcome script c (methodsNodes ms) t t')
    (hnew : t.lookup name = none) (hdeclared : script.Declared name ms indices) :
    Outcome script c (.stmt (.class name ms) :: methodsNodes ms) t ((name, indices) :: t') := by
  by_cases hname : c = name
  · subst hname
    refine .made hnew (by simp) hdeclared fun ms' hmem => ?_
    rcases List.mem_cons.1 hmem with heq | hmem
    · cases heq
      exact .inl rfl
    · exact .inr hmem
  · have hlookup : ((name, indices) :: t').lookup c = t'.lookup c := by
      rw [List.lookup_cons, beq_false_of_ne hname]
    have hmethods : ∀ ms', .stmt (.class c ms') ∈ .stmt (.class name ms) :: methodsNodes ms →
        .stmt (.class c ms') ∈ methodsNodes ms := by
      intro ms' hmem
      rcases List.mem_cons.1 hmem with heq | hmem
      · cases heq
        exact absurd rfl hname
      · exact hmem
    cases h with
    | same hsame hnone => exact .same (hlookup.trans hsame) fun ms' hmem => hnone ms' (hmethods ms' hmem)
    | made hfresh hentry hinner houtermost =>
      exact .made hfresh (hlookup.trans hentry) hinner fun ms' hmem => houtermost ms' (hmethods ms' hmem)

end Outcome

/-- What becomes of the entry of a class while a piece is compiled. -/
def Compile.Emission.Tells (script : Script) (c : String) (e : Emission) : Prop :=
  Outcome script c e.piece.own e.before.classes e.after.classes

/-- The parts of a piece that is no declaration tell what becomes of the entry. -/
theorem Compile.Emission.Splits.tells {script : Script} {c : String} {e : Emission} {segments : List Segment}
    (h : e.Splits segments) (hok : e.after.problems = [])
    (hclass : ∀ around span name ms, e.piece ≠ .stmtKind around span (.class name ms))
    (hparts : Parts (Emission.Tells script c) segments) : e.Tells script c := by
  cases h with
  | strayBreak | strayContinue | strayReturn => cases hok
  | badPattern _ h | badUpdate _ h | badAssign _ h => exact absurd hok h.problems_ne_nil
  | repeatedClass | «class» => exact absurd rfl (hclass _ _ _ _)
  | literal => exact .idle (by rw [Emission.after_of, classes_poolIndex]; rfl)
  | ident | this | operandsIdent | saveIdent | debugger | empty => exact Outcome.refl.node
  | exprsNil | fieldsNil | exprThenNone | defaultConstructor | finished | methodsNil | stmtNone | stmtsNil | noHandler
  | finalNone | leaveZero | leaveNil => exact .refl
  | constant hk =>
    refine (Outcome.sub hparts.1 fun n hn _ => ?_).node
    rwa [(sound_of_literal? hk).2.1] at hn
  | expr | exprThenSome | calleeOther | defaultOther | unfinished | stmt | stmtSome | returnedNone | returnedSome
  | handlerParam | handler | finalSome | leaveLoop | leavePending => exact hparts.1
  | array | record | member | new | lambda | saveMember | calleeMember | operandsMember | exprStmt | var | block | throw
  | functionStmt | ret | «break» | «continue» => exact Outcome.node hparts.1
  | index | binary | saveIndex | calleeIndex | operandsIndex | negate | «while» =>
    exact (Outcome.seq hparts.1 hparts.2.1).node
  | exprsCons | fieldsCons | methodsCons | stmtsCons => exact Outcome.seq hparts.1 hparts.2.1
  | assign | call => exact (Outcome.seq hparts.1 hparts.2.1).swap.node
  | retLeaving => exact (Outcome.followed hparts.1 hparts.2.1).node
  | leaveRegion => exact (Outcome.seq hparts.1 hparts.2.1).sub nofun
  | not => exact ((Outcome.followed hparts.1 hparts.2.1).followed hparts.2.2.1).node
  | logical => exact ((Outcome.seq hparts.1 hparts.2.1).followed hparts.2.2.1).node
  | conditional | cond => exact ((Outcome.seq hparts.1 hparts.2.1).seq hparts.2.2.1).node
  | «for» =>
    refine ((((Outcome.seq hparts.1 hparts.2.1).seq hparts.2.2.1).seq hparts.2.2.2.1).sub fun n hn _ => ?_).node
    -- the body is compiled before the update, and stands behind it in the tree
    rw [StmtKind.parts, List.mem_append, List.mem_append, or_right_comm, ← List.mem_append, ← List.mem_append] at hn
    exact hn
  | «try» =>
    refine ((((Outcome.seq hparts.1 hparts.2.1).seq hparts.2.2.1).seq hparts.2.2.2.1).sub fun n hn _ => ?_).node
    exact List.mem_append_left _ hn
  | @update _ _ _ _ place | @updateOld _ _ _ _ place =>
    cases place <;> exact (Outcome.followed hparts.1 hparts.2.1).node
  | @assignOp _ _ _ _ _ place => cases place <;> exact (Outcome.seq hparts.1 hparts.2.1).node

variable {script : Script} {p : Program}

/-- **What becomes of the entry of a class** while a piece of a script that compiles is compiled. -/
theorem Compile.Emission.tells (hc : script.compile = .ok p) (c : String) (e : Emission) :
    ∀ x pc, script.Emitted x pc e → e.Tells script c := by
  induction e using Emission.induct with
  | split e segments hsplit hparts =>
    intro x pc h
    have htold : Parts (Emission.Tells script c) segments := by
      refine hparts.imp fun before e' after heq htells => ?_
      subst heq
      exact htells _ _ (h.part hsplit)
    by_cases hclass : ∃ around span name ms, e.piece = .stmtKind around span (.class name ms)
    · obtain ⟨around, span, name, ms, hpiece⟩ := hclass
      have hnode : .stmt (.class name ms) ∈ script.nodes := by
        have hinside := h.inside.nodes
        rw [hpiece] at hinside
        exact hinside.left.head
      obtain ⟨e', indices, rfl, hmethods, hbefore, hnew, hafter⟩ := hsplit.of_class (h.sound hc) hpiece
      have hown := htold.1
      rw [Emission.Tells, hmethods, hbefore] at hown
      rw [Emission.Tells, hpiece, hafter]
      exact Outcome.declare hown hnew ⟨hnode, x, pc, e', span, h.first hsplit, hmethods⟩
    · exact hsplit.tells (h.sound hc) (fun around span name ms hpiece => hclass ⟨around, span, name, ms, hpiece⟩) htold
  | body hL hF ihL ihF =>
    intro x pc h
    exact Outcome.followed (ihL _ _ (h.body hL hF)) (ihF _ _ (h.finish hL hF))

theorem Compile.classes_of_assemble {sections : Array CodeSection} {constants : Array Value}
    {functions : Array ScriptFunction} {classes : List (String × List Nat)}
    (h : Program.assemble sections constants functions classes = .ok p) : p.classes = classes := by
  unfold Program.assemble at h
  split at h
  · cases h
  · simp only at h
    split at h
    · cases h
    · split at h <;> cases h
      rfl

/-- Where no class is declared twice, a class has one declaration. -/
theorem eq_of_nodup {ns : List Node} {c : String} {ms ms' : List Method} (h : (declaredClasses ns).Nodup)
    (hms : .stmt (.class c ms) ∈ ns) (hms' : .stmt (.class c ms') ∈ ns) : ms = ms' := by
  have hdeclared : ∀ {rest ms}, .stmt (.class c ms) ∈ rest → c ∈ declaredClasses rest := fun hmem =>
    List.mem_filterMap.2 ⟨_, hmem, rfl⟩
  induction ns with
  | nil => cases hms
  | cons n rest ih =>
    have hnodup : (declaredClasses rest).Nodup := by
      have hsub : (declaredClasses rest).Sublist (declaredClasses (n :: rest)) :=
        (List.sublist_cons_self n rest).filterMap _
      exact h.sublist hsub
    rcases List.mem_cons.1 hms with rfl | hrest <;> rcases List.mem_cons.1 hms' with heq | hrest'
    · cases heq
      rfl
    · exact absurd (hdeclared hrest') (List.nodup_cons.1 h).1
    · subst heq
      exact absurd (hdeclared hrest) (List.nodup_cons.1 h).1
    · exact ih hnodup hrest hrest'

/-- **A class has one entry**, that of its outermost declaration. -/
theorem Script.exists_entry (hc : script.compile = .ok p) {c : String} {ms₀ : List Method}
    (hnode : .stmt (.class c ms₀) ∈ script.nodes) :
    ∃ ms indices, p.classes.lookup c = some indices ∧ script.Declared c ms indices ∧
      ∀ ms', .stmt (.class c ms') ∈ script.nodes → ms' = ms ∨ .stmt (.class c ms') ∈ methodsNodes ms := by
  obtain ⟨L, hL, hcode⟩ := emits_draft script
  rw [classes_of_assemble (program_of_compile hc)]
  cases Emission.tells hc c (.of hL) 0 0 (.script hL hcode) with
  | same _ hnone => exact absurd hnode (hnone ms₀)
  | made _ hentry hdeclared houtermost => exact ⟨_, _, hentry, hdeclared, houtermost⟩

/-! ### The functions of an entry -/

/-- The name of a method. -/
def Method.name : Method → String
  | .node name _ _ => name

/-- The parameters of a method. -/
def Method.params : Method → List String
  | .node _ params _ => params

/-- The statements of a method. -/
def Method.body : Method → List Stmt
  | .node _ _ body => body

/-- The function that a method of a class is compiled to, at a place of the function table. -/
def Method.function (c : String) (i : Nat) (m : Method) : ScriptFunction :=
  ⟨ScriptFunction.methodName c m.name, i + 1, m.params.length, m.params⟩

/-- A method was compiled to a function of the table: its section begins with the statements of the method. -/
structure Script.Installs (script : Script) (p : Program) (c : String) (m : Method) (i : Nat) : Prop where
  function : p.functions[i]? = some (m.function c i)
  code : ∃ e, script.Emitted (i + 1) 0 e ∧ e.piece = .stmts { body := methodKind m.name } m.body

/-- Every method of a declaration is compiled to a function of its own. -/
theorem Script.Emitted.installs (hc : script.compile = .ok p) {c : String} {ms : List Method} {span : Span}
    {x pc : Nat} : ∀ {e : Emission} {indices : List Nat}, script.Emitted x pc e → e.piece = .methods span c ms indices →
      List.Forall₂ (script.Installs p c) ms indices := by
  induction ms generalizing pc with
  | nil =>
    rintro ⟨_, d, L, d', hemits⟩ indices h rfl
    cases hemits
    exact .nil
  | cons m rest ih =>
    rintro ⟨_, d, L, d', hemits⟩ indices h rfl
    cases hemits with
    | methodsCons hM hR =>
      have hmethod : script.Emitted x pc (.of hM) := h.first (.methodsCons hM hR)
      have hrest := @Script.Emitted.part script x pc _ _ [.part (.of hM)] [] h (.methodsCons hM hR)
      refine .cons ?_ (ih hrest rfl)
      cases hM with
      | body hS hF =>
        refine ⟨?_, _, hmethod.body hS hF, rfl⟩
        have hkept := hmethod.body_kept hS hF
        rw [(assemble_ok (program_of_compile hc)).2.2.1, Array.getElem?_mapIdx, hkept]
        rfl

end ScriptMachine
