import ScriptMachine.Proofs.Compile.Expressions
import ScriptMachine.Proofs.Compile.Provenance

/-!
# Naming — the names that code uses for itself

A function expression is found under a name made from its own name and a number. No two function expressions have the
same number, so the last function of that name is the one that was compiled from the expression, unless a method of a
class has a mangled name that reads the same (`Script.Emitted.functionIndex`). Code declares the names that the script
declares, the slot for a value that is being returned, and the operands it keeps; the names of function expressions are
among these only if one is called `parked` (`Script.declares`).
-/

namespace ScriptMachine.Compile

open Segment

/-! ### Texts of names -/

/-- Texts without a mark are told apart behind the last mark. -/
theorem append_mark_inj {α : Type} {mark : α} {a b u v : List α} (hu : mark ∉ u) (hv : mark ∉ v)
    (h : a ++ mark :: u = b ++ mark :: v) : a = b ∧ u = v := by
  rcases List.append_eq_append_iff.1 h with ⟨w, rfl, hw⟩ | ⟨w, rfl, hw⟩
  · cases w with
    | nil =>
      obtain ⟨-, rfl⟩ := List.cons_eq_cons.1 hw
      exact ⟨(List.append_nil a).symm, rfl⟩
    | cons x w =>
      obtain ⟨-, rfl⟩ := List.cons_eq_cons.1 hw
      exact absurd (List.mem_append_right w List.mem_cons_self) hu
  · cases w with
    | nil =>
      obtain ⟨-, rfl⟩ := List.cons_eq_cons.1 hw
      exact ⟨List.append_nil b, rfl⟩
    | cons x w =>
      obtain ⟨-, rfl⟩ := List.cons_eq_cons.1 hw
      exact absurd (List.mem_append_right w List.mem_cons_self) hv

/-- A number is written in digits. -/
theorem notMem_toDigits {c : Char} (hc : c.isDigit = false) (n : Nat) : c ∉ Nat.toDigits 10 n := by
  intro h
  have hdigit : c.isDigit = true := Nat.isDigit_of_mem_toDigits (Nat.succ_pos 9) (Nat.le_refl 10) h
  rw [hc] at hdigit
  cases hdigit

theorem toList_lambdaName (name : Option String) (n : Nat) :
    (lambdaName name n).toList = '@' :: (name.getD "lambda").toList ++ '#' :: Nat.toDigits 10 n := by
  simp [lambdaName, toString, Nat.toList_repr]

theorem toList_parked (d : Draft) :
    (newParked d).1.toList = '@' :: "parked".toList ++ '#' :: Nat.toDigits 10 d.parked := by
  simp [newParked, toString, Nat.toList_repr]

theorem reserved_lambdaName (name : Option String) (n : Nat) : reserved (lambdaName name n) = true := by
  simp [reserved, toList_lambdaName]

/-- Names with different numbers are different. -/
theorem lambdaName_inj {name name' : Option String} {n n' : Nat} (h : lambdaName name n = lambdaName name' n') :
    n = n' := by
  have hlist := congrArg String.toList h
  rw [toList_lambdaName, toList_lambdaName] at hlist
  have hdigits := (append_mark_inj (notMem_toDigits rfl n) (notMem_toDigits rfl n') hlist).2
  rw [← Nat.ofDigitChars_ten_toDigits (n := n), hdigits, Nat.ofDigitChars_ten_toDigits]

/-- Only a function expression called `parked` can have the name of an operand. -/
theorem eq_parked_of_lambdaName {name : Option String} {n : Nat} {d : Draft}
    (h : lambdaName name n = (newParked d).1) : name = some "parked" := by
  have hlist := congrArg String.toList h
  rw [toList_lambdaName, toList_parked] at hlist
  obtain ⟨-, hname⟩ := List.cons_eq_cons.1
    (append_mark_inj (notMem_toDigits rfl n) (notMem_toDigits rfl d.parked) hlist).1
  cases name with
  | none => exact absurd hname (by decide)
  | some name => exact congrArg some (String.toList_inj.1 hname)

theorem lambdaName_ne_returnSlot (name : Option String) (n : Nat) : lambdaName name n ≠ returnSlot := by
  intro h
  have hmark : '#' ∈ (lambdaName name n).toList := by simp [toList_lambdaName]
  rw [h] at hmark
  exact absurd hmark (by decide)

/-! ### Pieces of a tree -/

/-- Where a piece belongs, as far as its own nodes do not say so. -/
def Piece.Sits (ok : Node → Prop) : Piece → Prop
  | .body _ name params owner ss => ∃ n, ok n ∧ Bears n name params owner ss
  | .methods _ className ms _ => ∃ all, ok (.stmt (.class className all)) ∧ ms ⊆ all
  | .handler _ _ clause => ∃ body final, ok (.stmt (.try body clause final))
  | .exprThen _ after _ => ∀ name, .declare name ∉ after
  | _ => True

/-- A piece of a tree whose nodes pass a test. -/
structure Piece.Inside (ok : Node → Prop) (p : Piece) : Prop where
  nodes : Every ok p.nodes
  sits : p.Sits ok

variable {ok : Node → Prop}

/-- The parts of a piece belong to the same tree. -/
theorem Emission.Splits.inside {e : Emission} {segments : List Segment} (h : e.Splits segments)
    (hp : e.piece.Inside ok) : Parts (fun e' => e'.piece.Inside ok) segments := by
  obtain ⟨hp, hsits⟩ := hp
  cases h with
  | literal | ident | this | exprsNil | fieldsNil | exprThenNone | operandsIdent | saveIdent | defaultConstructor
  | finished | methodsNil | stmtNone | stmtsNil | strayBreak | strayContinue | strayReturn | repeatedClass | debugger
  | empty | noHandler | finalNone | leaveZero | leaveNil => trivial
  | constant | defaultOther | unfinished | returnedNone | badPattern | badUpdate | badAssign =>
    exact ⟨⟨.nil, trivial⟩, trivial⟩
  | expr | exprThenSome | calleeOther | stmt | stmtSome | returnedSome | handlerParam | handler | finalSome | leaveLoop
  | leavePending => exact ⟨⟨hp, trivial⟩, trivial⟩
  | array | record | member | new | saveMember | calleeMember | operandsMember => exact ⟨⟨hp.tail, trivial⟩, trivial⟩
  | lambda => exact ⟨⟨hp.tail, _, hp.head, .lambda _⟩, trivial⟩
  | exprStmt | ret | throw => exact ⟨⟨hp.left.tail, trivial⟩, trivial⟩
  | var => exact ⟨⟨hp.left.tail, by simp [Piece.Sits]⟩, trivial⟩
  | functionStmt => exact ⟨⟨hp.left.tail, _, hp.left.head, .function⟩, trivial⟩
  | «class» => exact ⟨⟨hp.left.tail, _, hp.left.head, List.Subset.refl _⟩, trivial⟩
  | «break» | «continue» => exact ⟨⟨hp.right, trivial⟩, trivial⟩
  | block => exact ⟨⟨hp.left.tail.append hp.right, trivial⟩, trivial⟩
  | index | binary | saveIndex | calleeIndex | operandsIndex =>
    exact ⟨⟨hp.tail.left, trivial⟩, ⟨hp.tail.right, trivial⟩, trivial⟩
  | assign | call => exact ⟨⟨hp.tail.right, trivial⟩, ⟨hp.tail.left, trivial⟩, trivial⟩
  | negate => exact ⟨⟨.nil, trivial⟩, ⟨hp.tail, trivial⟩, trivial⟩
  | exprsCons | fieldsCons => exact ⟨⟨hp.left, trivial⟩, ⟨hp.right, trivial⟩, trivial⟩
  | methodsCons =>
    obtain ⟨all, hclass, hms⟩ := hsits
    exact ⟨⟨hp.left, _, hclass, .method (hms List.mem_cons_self)⟩,
      ⟨hp.right, all, hclass, fun _ hm => hms (List.mem_cons_of_mem _ hm)⟩, trivial⟩
  | stmtsCons =>
    exact ⟨⟨hp.left.left.append hp.right, trivial⟩, ⟨hp.left.right.append hp.right, trivial⟩, trivial⟩
  | retLeaving => exact ⟨⟨hp.left.tail, trivial⟩, ⟨hp.right, trivial⟩, trivial⟩
  | leaveRegion => exact ⟨⟨hp, trivial⟩, ⟨hp.right, trivial⟩, trivial⟩
  | not => exact ⟨⟨hp.tail, trivial⟩, ⟨.nil, trivial⟩, ⟨.nil, trivial⟩, trivial⟩
  | logical => exact ⟨⟨hp.tail.left, trivial⟩, ⟨hp.tail.right, trivial⟩, ⟨.nil, trivial⟩, trivial⟩
  | conditional =>
    exact ⟨⟨hp.tail.left.left, trivial⟩, ⟨hp.tail.left.right, trivial⟩, ⟨hp.tail.right, trivial⟩, trivial⟩
  | cond =>
    have hparts := hp.left.tail
    exact ⟨⟨hparts.left.left, trivial⟩, ⟨hparts.left.right.append hp.right, trivial⟩,
      ⟨hparts.right.append hp.right, trivial⟩, trivial⟩
  | «while» =>
    exact ⟨⟨hp.left.tail.left, trivial⟩, ⟨hp.left.tail.right.append hp.right, trivial⟩, trivial⟩
  | «for» =>
    have hparts := hp.left.tail
    exact ⟨⟨hparts.left.left.left.append hp.right, trivial⟩, ⟨hparts.left.left.right, by simp [Piece.Sits]⟩,
      ⟨hparts.right.append hp.right, trivial⟩, ⟨hparts.left.right, by simp [Piece.Sits]⟩, trivial⟩
  | «try» =>
    have hfinal := hp.left.tail.right.append hp.right
    exact ⟨⟨hp.left.tail.left.left.append hfinal, trivial⟩,
      ⟨hp.left.tail.left.right.append hfinal, _, _, hp.left.head⟩, ⟨hfinal, trivial⟩, ⟨hfinal, trivial⟩, trivial⟩
  | @update _ _ _ _ place => cases place <;> exact ⟨⟨hp.tail, trivial⟩, ⟨.nil, trivial⟩, trivial⟩
  | @updateOld _ _ _ _ place => cases place <;> exact ⟨⟨hp.tail, trivial⟩, ⟨.nil, trivial⟩, trivial⟩
  | @assignOp _ _ _ _ _ place =>
    cases place <;> exact ⟨⟨hp.tail.left, trivial⟩, ⟨hp.tail.right, trivial⟩, trivial⟩

/-! ### Declarations -/

/-- The names that the own instructions of a piece declare. -/
def Piece.Declares : Piece → String → Prop
  | .operands .., name => ∃ d, name = (newParked d).1
  | .stmtKind _ _ (.var declared _), name => name = declared
  | .stmtKind _ _ (.ret _), name => name = returnSlot
  | .handler _ _ clause, name => name ∈ handlerParam clause
  | .exprThen _ after _, name => .declare name ∈ after
  | _, _ => False

/-- The operations that a piece adds of its own. -/
def Segment.ownOps (segments : List Segment) : List Opcode :=
  segments.flatMap fun
    | .own code _ => code.map (·.op)
    | _ => []

theorem Segment.mem_ownOps {segments : List Segment} {code : Code} {bare : ∀ i ∈ code, i.boundary = false}
    (hmem : .own code bare ∈ segments) {i : Instruction} (hi : i ∈ code) : i.op ∈ ownOps segments :=
  List.mem_flatMap.2 ⟨_, hmem, List.mem_map.2 ⟨i, hi, rfl⟩⟩

/-- Operations other than declarations. -/
def declaresNone (l : List Opcode) : Bool := l.all fun op => !(op matches .declare _)

theorem declare_notMem {l : List Opcode} (h : declaresNone l = true) (name : String) : .declare name ∉ l := fun hmem =>
  nomatch List.all_eq_true.1 h _ hmem

theorem Emission.Splits.declares {e : Emission} {segments : List Segment} (h : e.Splits segments) {name : String}
    (hmem : .declare name ∈ ownOps segments) : e.piece.Declares name := by
  cases h with
  | var | exprThenSome =>
    simpa [ownOps, ops, emit, Piece.Declares] using hmem
  | operandsMember =>
    exact ⟨_, by simpa [ownOps, Segment.keepAs, Compile.keepAs, emit] using hmem⟩
  | operandsIndex =>
    have hname := by simpa [ownOps, Segment.keepAs, Compile.keepAs, emit] using hmem
    exact hname.elim (fun h => ⟨_, h⟩) fun h => ⟨_, h⟩
  | retLeaving | handlerParam =>
    simpa [ownOps, ops, Segment.keepAs, Compile.keepAs, emit, Piece.Declares, ScriptMachine.handlerParam] using hmem
  | @update _ _ _ _ place | @updateOld _ _ _ _ place | @assignOp _ _ _ _ _ place =>
    cases place <;> exact absurd hmem (declare_notMem rfl name)
  | @logical _ op => cases op <;> exact absurd hmem (declare_notMem rfl name)
  | _ => exact absurd hmem (declare_notMem rfl name)

/-! ### Bodies with their names -/

/-- A segment that is a part. -/
def Segment.isPart : Segment → Bool
  | .part _ => true
  | _ => false

/-- A segment whose code is in line. -/
def Segment.isInline : Segment → Bool
  | .part e => !(e.piece matches .body ..)
  | _ => true

theorem Segment.not_inline {segments : List Segment} {e : Emission} (hmem : .part e ∈ segments) {span : Span}
    {name : String} {params : List String} {kind : BodyKind} {ss : List Stmt}
    (hbody : e.piece = .body span name params kind ss) : segments.all isInline ≠ true := by
  intro h
  have hinline := List.all_eq_true.1 h _ hmem
  rw [isInline, hbody] at hinline
  cases hinline

/-- A body that is part of a piece has the name of a function expression, with the number that is next, or it belongs to
a statement. -/
theorem Emission.Splits.titles {e : Emission} {segments : List Segment} (h : e.Splits segments)
    (hp : e.piece.Inside ok) {e' : Emission} (hmem : .part e' ∈ segments) {span : Span} {name : String}
    {params : List String} {kind : BodyKind} {ss : List Stmt} (hbody : e'.piece = .body span name params kind ss) :
    (∃ own code bare, name = lambdaName own e.before.lambdas ∧ segments = [.part e', .own code bare]) ∨
      ∃ k, ok (.stmt k) ∧ Bears (.stmt k) name params kind ss := by
  cases h with
  | lambda hL =>
    obtain rfl : e' = .of hL := by simpa [ops] using hmem
    cases hbody
    exact .inl ⟨_, _, _, rfl, rfl⟩
  | functionStmt hL =>
    obtain rfl : e' = .of hL := by simpa using hmem
    cases hbody
    exact .inr ⟨_, hp.nodes.left.head, .function⟩
  | methodsCons hL hR =>
    obtain rfl | rfl : e' = .of hL ∨ e' = .of hR := by simpa using hmem
    · cases hbody
      obtain ⟨all, hclass, hms⟩ := hp.sits
      exact .inr ⟨_, hclass, .method (hms List.mem_cons_self)⟩
    · cases hbody
  | @update _ _ _ _ place | @updateOld _ _ _ _ place | @assignOp _ _ _ _ _ place =>
    cases place <;> exact absurd rfl (not_inline hmem hbody)
  | _ => exact absurd rfl (not_inline hmem hbody)

/-- A name that no function expression with a number below a bound has, unless a statement has a body of that name. -/
def Above (ok : Node → Prop) (n : Nat) (name : String) : Prop :=
  ∀ own k, name = lambdaName own k → n ≤ k ∨ ∃ s params kind ss, ok (.stmt s) ∧ Bears (.stmt s) name params kind ss

theorem Above.mono {n n' : Nat} {name : String} (h : Above ok n name) (hn : n' ≤ n) : Above ok n' name :=
  fun own k hk => (h own k hk).imp_left (Nat.le_trans hn)

theorem name_closeBody {i j : Nat} {code : Code} {d : Draft} {b : Body} (h : (closeBody i code d).2.bodies[j]? = some b) :
    ∃ b', d.bodies[j]? = some b' ∧ b'.name = b.name := by
  rw [getElem?_closeBody] at h
  split at h
  · obtain ⟨b', hb', rfl⟩ := Option.map_eq_some_iff.1 h
    exact ⟨b', hb', rfl⟩
  · exact ⟨b, h, rfl⟩

/-- The bodies that a piece adds have names above the number that is next, other than its own body if it is one. -/
theorem Emission.above (e : Emission) : e.piece.Inside ok → ∀ j b, e.before.bodies.size ≤ j →
    e.after.bodies[j]? = some b → Above ok e.before.lambdas b.name ∨
      j = e.before.bodies.size ∧ ∃ span params kind ss, e.piece = .body span b.name params kind ss := by
  induction e using Emission.induct with
  | split e segments hsplit hparts =>
    intro hp j b hj hb
    have hlt := (Array.getElem?_eq_some_iff.1 hb).1
    obtain ⟨before, e', after, rfl, hfrom, hto⟩ := hsplit.links.cover hj hlt
    obtain ⟨hbefore, hafter⟩ := hsplit.links.part
    have hb' : e'.after.bodies[j]? = some b := by rw [← hafter.stays.kept j hto, hb]
    rcases Parts.of_part hparts (Parts.of_part (hsplit.inside hp)) j b hfrom hb' with
      habove | ⟨-, span, params, kind, ss, hbody⟩
    · exact .inl (habove.mono hbefore.lambdas)
    · refine .inl fun own k hk => ?_
      rcases hsplit.titles hp (List.mem_append_right _ List.mem_cons_self) hbody with
        ⟨own', code, bare, hname, -⟩ | ⟨s, hs, hbears⟩
      · exact .inl (Nat.le_of_eq (lambdaName_inj (hname.symm.trans hk)))
      · exact .inr ⟨s, params, kind, ss, hs, hbears⟩
  | @body span name params kind ss d L d₁ F d₂ hL hF ihL ihF =>
    intro hp j b hj hb
    obtain ⟨b', hb', hname⟩ := name_closeBody hb
    obtain ⟨hopen, hhere⟩ := getElem?_openBody name params d
    have hgrows := (Emission.of hL).grows
    simp only [before_of, after_of] at hj hgrows
    rw [← hname]
    rcases Nat.lt_or_ge j d₁.bodies.size with hlt | hge
    · have hb₁ : d₁.bodies[j]? = some b' := ((Emission.of hF).grows.stays.kept j hlt).symm.trans hb'
      rcases Nat.eq_or_lt_of_le hj with rfl | hlt'
      · have hkept := hgrows.stays.kept d.bodies.size (by omega)
        rw [hb₁, hhere] at hkept
        cases hkept
        exact .inr ⟨rfl, span, params, kind, ss, rfl⟩
      · rcases ihL ⟨hp.nodes.append .nil, trivial⟩ j b' (by simp only [before_of]; omega) hb₁ with
          habove | ⟨-, _, _, _, _, hbody⟩
        · exact .inl habove
        · cases hbody
    · rcases ihF ⟨.nil, trivial⟩ j b' hge hb' with habove | ⟨-, _, _, _, _, hbody⟩
      · exact .inl (habove.mono hgrows.lambdas)
      · cases hbody

end ScriptMachine.Compile

namespace ScriptMachine

open Compile Segment

/-- Every piece that stands somewhere in a script belongs to it. -/
theorem Script.Emitted.inside {script : Script} {x pc : Nat} {e : Emission} (h : script.Emitted x pc e) :
    e.piece.Inside (· ∈ script.nodes) := by
  induction h with
  | script => exact ⟨Every.append (fun _ hn => hn) .nil, trivial⟩
  | part _ hsplit ih => exact Segment.Parts.of_part (hsplit.inside ih)
  | body _ _ _ ih => exact ⟨ih.nodes.append .nil, trivial⟩
  | finish => exact ⟨.nil, trivial⟩

namespace Script.Emitted

variable {script : Script} {x pc : Nat} {e : Emission}

/-- The bodies that are added behind a piece have names above the number that is next then. -/
theorem above (h : script.Emitted x pc e) : ∀ j b, e.after.bodies.size ≤ j →
    script.draft.2.bodies[j]? = some b → Above (· ∈ script.nodes) e.after.lambdas b.name := by
  induction h with
  | script =>
    intro j b hj hb
    exact absurd (Array.getElem?_eq_some_iff.1 hb).1 (Nat.not_lt.2 hj)
  | @part _ _ e e' before after h hsplit ih =>
    intro j b hj hb
    obtain ⟨hbefore, hafter⟩ := hsplit.links.part
    rcases Nat.lt_or_ge j e.after.bodies.size with hlt | hge
    · have hinside := h.inside
      obtain ⟨first, e'', last, rfl, hfrom, hto⟩ := hsplit.links.suffix.cover hj hlt
      have hlinks := hsplit.links.suffix.part.1.lambdas
      have hlist : before ++ .part e' :: (first ++ .part e'' :: last) =
          (before ++ .part e' :: first) ++ .part e'' :: last := by simp
      rw [hlist] at hsplit
      have hb'' : e''.after.bodies[j]? = some b := by
        have hkept := (h.part hsplit).bodies_kept j _ hfrom (Array.getElem?_eq_getElem hto)
        rw [hb] at hkept
        rw [Array.getElem?_eq_getElem hto, hkept]
      rcases e''.above (h.part hsplit).inside j b hfrom hb'' with habove | ⟨-, span, params, kind, ss, hbody⟩
      · exact habove.mono hlinks
      · rcases hsplit.titles hinside (List.mem_append_right _ List.mem_cons_self) hbody with
          ⟨own, code, bare, -, honly⟩ | ⟨s, hs, hbears⟩
        -- next to a function expression there is no other part
        · have hcount := congrArg (List.countP Segment.isPart) honly
          simp [List.countP_cons, Segment.isPart] at hcount
          omega
        · exact fun _ _ _ => .inr ⟨s, params, kind, ss, hs, hbears⟩
    · exact (ih j b hge hb).mono hafter.lambdas
  | @body _ _ _ name params _ _ d d₁ d₂ _ F hL hF h ih =>
    intro j b hj hb
    have hsize : (closeBody d.bodies.size F.code d₂).2.bodies.size = d₂.bodies.size := Array.size_modify
    have hlambdas := (Emission.of hF).grows.lambdas
    rcases Nat.lt_or_ge j d₂.bodies.size with hlt | hge
    · have hplace := h.finish hL hF
      have hb₂ : d₂.bodies[j]? = some b := by
        have hkept := hplace.bodies_kept j _ hj (Array.getElem?_eq_getElem hlt)
        rw [hb] at hkept
        rw [Array.getElem?_eq_getElem hlt, hkept]
      rcases (Emission.of hF).above hplace.inside j b hj hb₂ with habove | ⟨-, _, _, _, _, hbody⟩
      · exact habove
      · cases hbody
    · exact (ih j b (by rw [Emission.after_of, hsize]; exact hge) hb).mono hlambdas
  | @finish _ _ _ _ _ _ _ d _ d₂ _ F _ hF _ ih =>
    intro j b hj hb
    have hsize : (closeBody d.bodies.size F.code d₂).2.bodies.size = d₂.bodies.size := Array.size_modify
    exact ih j b (by rw [Emission.after_of, hsize]; exact hj) hb

end Script.Emitted

/-! ### Programs -/

/-- The names under which a node puts something into a scope or into the function table: those of variables, of
parameters and of functions that it declares. -/
def Node.binds : Node → List String
  | .stmt (.var name _) => [name]
  | .stmt (.try _ handler _) => handlerParam handler
  | .stmt (.function name params _) => name :: params
  | .stmt (.class _ methods) => methods.flatMap fun | .node _ params _ => params
  | .expr (.function _ params _) => params
  | _ => []

/-- Whether no name that a script binds is reserved. -/
def Script.plainNames (script : Script) : Bool := script.nodes.all fun n => n.binds.all fun name => !reserved name

/-- The mangled names of the methods of a class. -/
def Node.methodNames : Node → List String
  | .stmt (.class className methods) => methods.map fun | .node name _ _ => ScriptFunction.methodName className name
  | _ => []

section Programs

variable {script : Script} {p : Program}

theorem Script.plainNames.not_reserved (h : script.plainNames = true) {n : Node} (hn : n ∈ script.nodes) {name : String}
    (hname : name ∈ n.binds) : reserved name = false := by
  have hall := List.all_eq_true.1 (List.all_eq_true.1 h n hn) name hname
  simpa using hall

/-- The parameters of a body are bound by its node. -/
theorem Compile.Bears.params {n : Node} {name : String} {params : List String} {kind : BodyKind} {ss : List Stmt}
    (h : Bears n name params kind ss) : params ⊆ n.binds := by
  cases h with
  | function => exact List.subset_cons_self _ _
  | lambda => exact List.Subset.refl _
  | method hm => exact fun x hx => List.mem_flatMap.2 ⟨_, hm, hx⟩

/-- No function of a program has a reserved parameter. -/
theorem Script.plain_params (hc : script.compile = .ok p) (h : script.plainNames = true) {f : ScriptFunction}
    (hf : f ∈ p.functions) : ∀ name ∈ f.params, reserved name = false := by
  rw [(assemble_ok (program_of_compile hc)).2.2.1] at hf
  obtain ⟨i, hi, rfl⟩ := Array.mem_mapIdx.1 hf
  obtain ⟨kind, ss, e, hcompiled, -⟩ := compiled_body (fun _ hn => hn) (Array.getElem?_eq_getElem hi)
  obtain ⟨n, hn, hbears⟩ := hcompiled.borne
  exact fun name hname => plainNames.not_reserved h hn (hbears.params hname)

/-- The names that a piece of a script declares. -/
theorem Compile.Piece.Inside.declares {piece : Piece} (hp : piece.Inside (· ∈ script.nodes)) {name : String}
    (h : piece.Declares name) :
    (∃ n ∈ script.nodes, name ∈ n.binds) ∨ name = returnSlot ∨ ∃ d, name = (newParked d).1 := by
  unfold Piece.Declares at h
  split at h
  · exact .inr (.inr h)
  · exact .inl ⟨_, hp.nodes.left.head, by simp [Node.binds, h]⟩
  · exact .inr (.inl h)
  · obtain ⟨body, final, hnode⟩ := hp.sits
    exact .inl ⟨_, hnode, h⟩
  · exact absurd h (hp.sits name)
  · exact h.elim

/-- **What code declares**: a name that the script declares, the slot for a value that is being returned, or an operand
that is kept. -/
theorem Script.declares (hc : script.compile = .ok p) {x pc : Nat} {i : Instruction}
    (hi : p.instruction? x pc = some i) {name : String} :
    i.op = .declare name →
      (∃ n ∈ script.nodes, name ∈ n.binds) ∨ name = returnSlot ∨ ∃ d, name = (newParked d).1 := by
  refine Script.forall_instruction (Q := fun _ _ i => i.op = .declare name → _) hc ?_ (fun _ _ _ h => h) nofun hi
  intro x pc e before code bare after h hsplit n i hn hop
  exact h.inside.declares
    (hsplit.declares (hop ▸ mem_ownOps (List.mem_append_right _ List.mem_cons_self) (List.mem_of_getElem? hn)))

/-- An entry of the function table behind which no other has its name. -/
theorem Program.functionIndex?_eq {name : String} {i : Nat} {f : ScriptFunction} (hf : p.functions[i]? = some f)
    (hname : f.name = name) (hlast : ∀ j g, i < j → p.functions[j]? = some g → g.name ≠ name) :
    p.functionIndex? name = some i := by
  have hi : p.functions.toList.zipIdx[i]? = some (f, i) := by simp [hf]
  obtain ⟨hlt, hget⟩ := List.getElem?_eq_some_iff.1 hi
  have hsplit := List.take_append_drop i p.functions.toList.zipIdx
  rw [List.drop_eq_getElem_cons hlt, hget] at hsplit
  have hfind : (p.functions.toList.zipIdx.reverse.find? (·.1.name == name)) = some (f, i) := by
    refine List.find?_eq_some_iff_append.2 ⟨by simp [hname], (p.functions.toList.zipIdx.drop (i + 1)).reverse,
      (p.functions.toList.zipIdx.take i).reverse, (congrArg List.reverse hsplit).symm.trans (by simp), ?_⟩
    rintro ⟨g, j⟩ hmem
    obtain ⟨k, hk, hgj⟩ := List.mem_drop_iff_getElem.1 (List.mem_reverse.1 hmem)
    rw [List.getElem_zipIdx] at hgj
    obtain ⟨hg, hj⟩ := Prod.mk.inj hgj
    have hat : p.functions[j]? = some g := by
      rw [← hg, ← hj, Nat.zero_add, ← Array.getElem?_toList]
      exact List.getElem?_eq_getElem _
    have hne := hlast j g (by omega) hat
    simpa using hne
  rw [Program.functionIndex?, hfind]
  rfl

/-- A function expression is compiled by a rule of its own. -/
theorem Compile.Emission.lambda {e : Emission} {span : Span} {name : Option String} {params : List String}
    {ss : List Stmt} (h : e.piece = .kind span (.function name params ss)) :
    ∃ d L d' hL, e = .of (@Emits.lambda span name params ss d L d' hL) := by
  obtain ⟨piece, d, listing, d', hemits⟩ := e
  cases h
  cases hemits with
  | constant hk => cases hk
  | lambda hL => exact ⟨_, _, _, hL, rfl⟩

/-- The function that was compiled from a function expression. -/
def Compile.Emission.compiled (e : Emission) (name : Option String) (params : List String) : ScriptFunction :=
  ⟨lambdaName name e.before.lambdas, e.before.bodies.size + 1, params.length, params⟩

namespace Script.Emitted

variable {x pc : Nat} {e : Emission} {span : Span} {name : Option String} {params : List String} {ss : List Stmt}

/-- The code of a function expression reads the name of its function, whose section begins with its own statements. -/
theorem lambda_section (hc : script.compile = .ok p) (h : script.Emitted x pc e)
    (hpiece : e.piece = .kind span (.function name params ss)) :
    (∃ i, p.instruction? x pc = some i ∧ i.op = .fetch (lambdaName name e.before.lambdas)) ∧
      p.functions[e.before.bodies.size]? = some (e.compiled name params) ∧
      ∃ e', script.Emitted (e.before.bodies.size + 1) 0 e' ∧ e'.piece = .stmts { body := .function } ss := by
  obtain ⟨d, L, d', hL, rfl⟩ := Emission.lambda hpiece
  have hbody : script.Emitted x pc (.of hL) := h.first (.lambda hL)
  cases hL with
  | body hS hF =>
    refine ⟨?_, ?_, _, hbody.body hS hF, rfl⟩
    · obtain ⟨i, hi, hstands⟩ := h.lies hc 0 _ rfl
      exact ⟨i, hi, hstands.op⟩
    · have hkept := hbody.body_kept hS hF
      rw [(assemble_ok (program_of_compile hc)).2.2.1, Array.getElem?_mapIdx]
      exact congrArg (Option.map _) hkept

/-- Behind the function of a function expression there is none with its name, except for bodies of statements. -/
theorem lambda_above (h : script.Emitted x pc e) (hpiece : e.piece = .kind span (.function name params ss)) {j : Nat}
    {b : Body} (hj : e.before.bodies.size < j) (hb : script.draft.2.bodies[j]? = some b) :
    Above (· ∈ script.nodes) (e.before.lambdas + 1) b.name := by
  obtain ⟨d, L, d', hL, rfl⟩ := Emission.lambda hpiece
  rcases Nat.lt_or_ge j d'.bodies.size with hlt | hge
  · have hkept := h.bodies_kept j _ (Nat.le_of_lt hj) (Array.getElem?_eq_getElem hlt)
    rw [hb] at hkept
    have hb' : d'.bodies[j]? = some b := by rw [Array.getElem?_eq_getElem hlt, hkept]
    have hbody : script.Emitted x pc (.of hL) := h.first (.lambda hL)
    rcases (Emission.of hL).above hbody.inside j b (Nat.le_of_lt hj) hb' with habove | ⟨heq, -⟩
    · exact habove
    · exact absurd heq (Nat.ne_of_gt hj)
  · exact (h.above j b hge hb).mono (Emission.of hL).grows.lambdas

/-- The last function with the name of a function expression is its own, unless a method has that name. -/
theorem functionIndex (hc : script.compile = .ok p) (hplain : script.plainNames = true) (h : script.Emitted x pc e)
    (hpiece : e.piece = .kind span (.function name params ss))
    (hmethods : ∀ n ∈ script.nodes, lambdaName name e.before.lambdas ∉ n.methodNames) :
    p.functionIndex? (lambdaName name e.before.lambdas) = some e.before.bodies.size := by
  refine Program.functionIndex?_eq (h.lambda_section hc hpiece).2.1 rfl fun j g hj hg hname => ?_
  rw [(assemble_ok (program_of_compile hc)).2.2.1, Array.getElem?_mapIdx] at hg
  obtain ⟨⟨own, _, _⟩, hb, rfl⟩ := Option.map_eq_some_iff.1 hg
  rcases h.lambda_above hpiece hj hb _ _ hname with hle | ⟨s, params', kind, ss', hs, hbears⟩
  · exact absurd hle (Nat.not_succ_le_self _)
  · have hown : own = lambdaName name e.before.lambdas := hname
    change Bears (.stmt s) own params' kind ss' at hbears
    cases hbears with
    | function =>
      have hfree := plainNames.not_reserved hplain hs List.mem_cons_self
      rw [hown, reserved_lambdaName] at hfree
      cases hfree
    | method hm => exact hmethods _ hs (hown ▸ List.mem_map.2 ⟨_, hm, rfl⟩)

end Script.Emitted

end Programs

end ScriptMachine
