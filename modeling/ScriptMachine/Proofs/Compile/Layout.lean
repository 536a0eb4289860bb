import ScriptMachine.Proofs.Compile.Shape
import ScriptMachine.Proofs.Script.Nodes

/-!
# Layout — the shapes of generated code

The code of an expression pushes one value and the code of a statement leaves the shape as it finds
it, whatever surrounds it. The contexts of a statement say what lies on the stack (`Held`): the
markers of loops and try statements and the exception of a final part that throws again. Exits take
these away one by one, so they meet the loop or the frame they look for. The induction is over the
rules of the generator, so copies of a final part need no argument of their own.
-/

namespace ScriptMachine.Compile

open Listing

/-! ### What the generator reads -/

/-- The nodes of the final parts that surround a statement. -/
def contextNodes : List Context → List Node
  | [] => []
  | .region final :: rest => finalNodes final ++ contextNodes rest
  | .loop _ _ :: rest => contextNodes rest
  | .pendingThrow :: rest => contextNodes rest

/-- The nodes of a piece. Those of the final parts around it are among them: an exit compiles them. -/
def Piece.nodes : Piece → List Node
  | .literal _ _ | .default _ _ | .finish _ _ _ => []
  | .expr _ e => e.nodes
  | .kind _ k => .expr k :: k.parts
  | .exprs _ es => exprsNodes es
  | .fields _ fs => fieldsNodes fs
  | .exprThen _ _ e => exprOptionNodes e
  | .operands _ k _ => .expr k :: k.parts
  | .save _ k => .expr k :: k.parts
  | .callee _ _ e => e.nodes
  | .body _ _ _ _ ss => stmtsNodes ss
  | .methods _ _ ms _ => methodsNodes ms
  | .stmt around s => s.nodes ++ contextNodes around.contexts
  | .stmtOption around s => stmtOptionNodes s ++ contextNodes around.contexts
  | .stmts around ss => stmtsNodes ss ++ contextNodes around.contexts
  | .stmtKind around _ k => (.stmt k :: k.parts) ++ contextNodes around.contexts
  | .returned _ _ value => exprOptionNodes value
  | .handler around _ clause => handlerNodes clause ++ contextNodes around.contexts
  | .final around _ part => finalNodes part ++ contextNodes around.contexts
  | .leave _ _ _ contexts => contextNodes contexts

/-- All of some nodes pass a test. -/
def Every (ok : Node → Prop) (ns : List Node) : Prop := ∀ n ∈ ns, ok n

namespace Every

variable {ok : Node → Prop} {n : Node} {a b : List Node}

theorem nil : Every ok [] := fun _ h => nomatch h

theorem head (h : Every ok (n :: a)) : ok n := h n List.mem_cons_self

theorem tail (h : Every ok (n :: a)) : Every ok a := fun m hm => h m (List.mem_cons_of_mem _ hm)

theorem left (h : Every ok (a ++ b)) : Every ok a := fun m hm => h m (List.mem_append_left _ hm)

theorem right (h : Every ok (a ++ b)) : Every ok b := fun m hm => h m (List.mem_append_right _ hm)

theorem append (ha : Every ok a) (hb : Every ok b) : Every ok (a ++ b) := fun m hm =>
  (List.mem_append.1 hm).elim (ha m) (hb m)

end Every

/-- A node has a body with a name in the function table: a function statement, a function expression
or a class with a method. -/
inductive Bears : Node → String → List String → BodyKind → List Stmt → Prop where
  | function {name params ss} : Bears (.stmt (.function name params ss)) name params .function ss
  | lambda {name params ss} (number : Nat) :
      Bears (.expr (.function name params ss)) (lambdaName name number) params .function ss
  | method {className methods name params ss} : .node name params ss ∈ methods →
      Bears (.stmt (.class className methods)) (ScriptFunction.methodName className name) params
        (methodKind name) ss

/-- The bodies of a piece belong to nodes that pass a test. -/
def Piece.Borne (ok : Node → Prop) : Piece → Prop
  | .body _ name params owner ss => ∃ n, ok n ∧ Bears n name params owner ss
  | .methods _ className ms _ => ∀ name params ss, .node name params ss ∈ ms →
      ∃ n, ok n ∧ Bears n (ScriptFunction.methodName className name) params (methodKind name) ss
  | _ => True

/-! ### Drafts grow -/

/-- A relation between drafts that holds across every step of the generator on a tree whose nodes pass
a test. -/
structure Advances (ok : Node → Prop) (R : Draft → Draft → Prop) : Prop where
  refl : ∀ d, R d d
  trans : ∀ {d₁ d₂ d₃}, R d₁ d₂ → R d₂ d₃ → R d₁ d₃
  pool : ∀ lit d, R d (poolIndex lit d).2
  /-- Labels, problems and classes do not matter, and hidden names are only added. -/
  aside : ∀ {d d'}, d'.constants = d.constants → d'.bodies = d.bodies → d.parked ≤ d'.parked → R d d'
  body : ∀ {span name params kind ss n d L d₁ F d₂}, ok n → Bears n name params kind ss →
    Every ok (stmtsNodes ss) → Emits (.stmts { body := kind } ss) (openBody name params d).2 L d₁ →
    Emits (.finish kind span L) d₁ F d₂ → R (openBody name params d).2 d₁ → R d₁ d₂ →
    R d (closeBody d.bodies.size F.code d₂).2

theorem Advances.after {ok : Node → Prop} {R : Draft → Draft → Prop} (hR : Advances ok R)
    {d d₁ d' : Draft} (h : R d₁ d') (hc : d₁.constants = d.constants) (hb : d₁.bodies = d.bodies)
    (hp : d.parked ≤ d₁.parked) : R d d' :=
  hR.trans (hR.aside hc hb hp) h

/-- What every step of the generator preserves, the generator preserves. -/
theorem Emits.advance {ok : Node → Prop} {R : Draft → Draft → Prop} (hR : Advances ok R) {p : Piece}
    {d d' : Draft} {L : Listing} (h : Emits p d L d') (hp : Every ok p.nodes) (hb : p.Borne ok) :
    R d d' := by
  induction h with
  | literal => exact hR.pool _ _
  | body hL hF ihL ihF =>
    obtain ⟨n, hn, hbears⟩ := hb
    exact hR.body hn hbears hp hL hF (ihL (hp.append .nil) trivial) (ihF .nil trivial)
  | ident | this | exprsNil | fieldsNil | exprThenNone | operandsIdent | saveIdent
  | defaultConstructor | finished | methodsNil | stmtNone | stmtsNil | debugger | empty | noHandler
  | finalNone | leaveZero | leaveNil => exact hR.refl _
  | strayBreak | strayContinue | strayReturn | repeatedClass => exact hR.aside rfl rfl (Nat.le_refl _)
  | constant _ _ ih | defaultOther _ _ ih | unfinished _ _ ih | returnedNone _ ih => exact ih .nil trivial
  | badPattern _ _ ih | badUpdate _ _ ih | badAssign _ _ ih => exact hR.after (ih .nil trivial) rfl rfl (Nat.le_refl _)
  | expr _ ih | exprThenSome _ ih | calleeOther _ _ ih | stmt _ ih | stmtSome _ ih
  | returnedSome _ ih | handlerParam _ ih | handler _ ih | finalSome _ ih | leaveLoop _ ih
  | leavePending _ ih => exact ih hp trivial
  | array _ ih | record _ ih | member _ ih | new _ ih | saveMember _ ih | calleeMember _ ih =>
    exact ih hp.tail trivial
  | lambda _ ih => exact hR.after (ih hp.tail ⟨_, hp.head, .lambda _⟩) rfl rfl (Nat.le_refl _)
  | operandsMember _ ih => exact hR.after (ih hp.tail trivial) rfl rfl (Nat.le_succ _)
  | exprStmt _ ih | var _ ih | ret _ _ _ ih | throw _ ih => exact ih hp.left.tail trivial
  | functionStmt _ ih => exact ih hp.left.tail ⟨_, hp.left.head, .function⟩
  | «class» _ _ ih =>
    exact hR.trans (ih hp.left.tail fun _ _ _ hm => ⟨_, hp.left.head, .method hm⟩)
      (hR.aside rfl rfl (Nat.le_refl _))
  | «break» _ _ ih | «continue» _ _ ih => exact ih hp.right trivial
  | block _ ih => exact ih (hp.left.tail.append hp.right) trivial
  | index _ _ ih₁ ih₂ | binary _ _ ih₁ ih₂ | assignOp _ _ ih₁ ih₂ | saveIndex _ _ ih₁ ih₂
  | calleeIndex _ _ ih₁ ih₂ => exact hR.trans (ih₁ hp.tail.left trivial) (ih₂ hp.tail.right trivial)
  | operandsIndex _ _ ih₁ ih₂ =>
    exact hR.after (hR.trans (ih₁ hp.tail.left trivial)
      (hR.after (ih₂ hp.tail.right trivial) rfl rfl (Nat.le_succ _))) rfl rfl (Nat.le_succ _)
  | assign _ _ ih₁ ih₂ | call _ _ ih₁ ih₂ => exact hR.trans (ih₁ hp.tail.right trivial) (ih₂ hp.tail.left trivial)
  | negate _ _ ih₁ ih₂ => exact hR.trans (ih₁ .nil trivial) (ih₂ hp.tail trivial)
  | update _ _ ih₁ ih₂ => exact hR.trans (ih₁ hp.tail trivial) (ih₂ .nil trivial)
  | exprsCons _ _ ih₁ ih₂ | fieldsCons _ _ ih₁ ih₂ =>
    exact hR.trans (ih₁ hp.left trivial) (ih₂ hp.right trivial)
  | methodsCons _ _ ih₁ ih₂ =>
    exact hR.trans (ih₁ hp.left (hb _ _ _ List.mem_cons_self))
      (ih₂ hp.right fun _ _ _ hm => hb _ _ _ (List.mem_cons_of_mem _ hm))
  | stmtsCons _ _ ih₁ ih₂ =>
    exact hR.trans (ih₁ (hp.left.left.append hp.right) trivial) (ih₂ (hp.left.right.append hp.right) trivial)
  | retLeaving _ _ _ _ ih₁ ih₂ => exact hR.trans (ih₁ hp.left.tail trivial) (ih₂ hp.right trivial)
  | leaveRegion _ _ ih₁ ih₂ => exact hR.trans (ih₁ hp trivial) (ih₂ hp.right trivial)
  | not _ _ _ ih₁ ih₂ ih₃ =>
    exact hR.after (hR.trans (ih₁ hp.tail trivial) (hR.trans (ih₂ .nil trivial) (ih₃ .nil trivial))) rfl rfl (Nat.le_refl _)
  | logical _ _ _ ih₁ ih₂ ih₃ =>
    exact hR.after (hR.trans (ih₁ hp.tail.left trivial) (hR.trans (ih₂ hp.tail.right trivial) (ih₃ .nil trivial))) rfl rfl (Nat.le_refl _)
  | conditional _ _ _ ih₁ ih₂ ih₃ =>
    exact hR.after (hR.trans (ih₁ hp.tail.left.left trivial)
      (hR.trans (ih₂ hp.tail.left.right trivial) (ih₃ hp.tail.right trivial))) rfl rfl (Nat.le_refl _)
  | cond _ _ _ ih₁ ih₂ ih₃ =>
    have hparts := hp.left.tail
    exact hR.after (hR.trans (ih₁ hparts.left.left trivial)
      (hR.trans (ih₂ (hparts.left.right.append hp.right) trivial) (ih₃ (hparts.right.append hp.right) trivial))) rfl rfl (Nat.le_refl _)
  | «while» _ _ ih₁ ih₂ =>
    exact hR.after (hR.trans (ih₁ hp.left.tail.left trivial) (ih₂ (hp.left.tail.right.append hp.right) trivial)) rfl rfl (Nat.le_refl _)
  | «for» _ _ _ _ ih₁ ih₂ ih₃ ih₄ =>
    have hparts := hp.left.tail
    exact hR.after (hR.trans (ih₁ (hparts.left.left.left.append hp.right) trivial)
      (hR.trans (ih₂ hparts.left.left.right trivial)
        (hR.trans (ih₃ (hparts.right.append hp.right) trivial) (ih₄ hparts.left.right trivial)))) rfl rfl (Nat.le_refl _)
  | «try» _ _ _ _ ih₁ ih₂ ih₃ ih₄ =>
    have hfinal := hp.left.tail.right.append hp.right
    exact hR.after (hR.trans (ih₁ (hp.left.tail.left.left.append hfinal) trivial)
      (hR.trans (ih₂ (hp.left.tail.left.right.append hfinal) trivial)
        (hR.trans (ih₃ hfinal trivial) (ih₄ hfinal trivial)))) rfl rfl (Nat.le_refl _)

theorem size_poolIndex (lit : Literal) (d : Draft) :
    d.constants.size ≤ (poolIndex lit d).2.constants.size ∧
      (poolIndex lit d).1 < (poolIndex lit d).2.constants.size := by
  unfold poolIndex
  cases h : d.constants.findIdx? fun c => c.key == lit.key with
  | some i =>
    obtain ⟨hi, -⟩ := Array.findIdx?_eq_some_iff_getElem.1 h
    exact ⟨Nat.le_refl _, hi⟩
  | none => simp

/-- A constant has its place in the pool, and what was there stays. -/
theorem prefix_poolIndex (lit : Literal) (d : Draft) :
    d.constants.toList <+: (poolIndex lit d).2.constants.toList := by
  unfold poolIndex
  cases d.constants.findIdx? fun c => c.key == lit.key with
  | some i => exact List.prefix_refl _
  | none => simp

theorem advances_pool :
    Advances (fun _ => True) fun d d' => d.constants.toList <+: d'.constants.toList where
  refl _ := List.prefix_refl _
  trans h h' := h.trans h'
  pool lit d := prefix_poolIndex lit d
  aside hc _ _ := hc ▸ List.prefix_refl _
  body _ _ _ _ _ h h' := h.trans h'

/-- The pool only grows at its end. -/
theorem Emits.pool_prefix {p : Piece} {d d' : Draft} {L : Listing} (h : Emits p d L d')
    (hb : p.Borne fun _ => True := by trivial) : d.constants.toList <+: d'.constants.toList :=
  h.advance advances_pool (fun _ _ => trivial) hb

theorem Emits.pool_le {p : Piece} {d d' : Draft} {L : Listing} (h : Emits p d L d')
    (hb : p.Borne fun _ => True := by trivial) : d.constants.size ≤ d'.constants.size :=
  (h.pool_prefix hb).length_le

theorem parked_poolIndex (lit : Literal) (d : Draft) : (poolIndex lit d).2.parked = d.parked := by
  unfold poolIndex
  cases d.constants.findIdx? fun c => c.key == lit.key <;> rfl

theorem advances_parked : Advances (fun _ => True) fun d d' => d.parked ≤ d'.parked where
  refl _ := Nat.le_refl _
  trans h h' := Nat.le_trans h h'
  pool lit d := Nat.le_of_eq (parked_poolIndex lit d).symm
  aside _ _ hp := hp
  body _ _ _ _ _ h h' := Nat.le_trans h h'

/-- Hidden names are never used again. -/
theorem Emits.parked_le {p : Piece} {d d' : Draft} {L : Listing} (h : Emits p d L d')
    (hb : p.Borne fun _ => True := by trivial) : d.parked ≤ d'.parked :=
  h.advance advances_parked (fun _ _ => trivial) hb

/-! ### What surrounds a statement -/

/-- The slots of the contexts around a statement. The labels of a loop stand right above its marker. -/
inductive Held (J : List (Nat × Shape)) : List Context → List Slot → Prop where
  | nil : Held J [] []
  | loop {continueTo breakTo j C s} :
      (continueTo, ⟨j, .loop j :: s⟩) ∈ J → (breakTo, ⟨j, .loop j :: s⟩) ∈ J → Held J C s →
      Held J (.loop continueTo breakTo :: C) (.loop j :: s)
  | region {final j C s} : Held J C s → Held J (.region final :: C) (.region j :: s)
  | pendingThrow {C s} : Held J C s → Held J (.pendingThrow :: C) (.value :: s)

theorem Held.mono {J K : List (Nat × Shape)} {C : List Context} {s : List Slot} (h : Held J C s)
    (hJ : J ⊆ K) : Held K C s := by
  induction h with
  | nil => exact .nil
  | loop hc hb _ ih => exact .loop (hJ hc) (hJ hb) ih
  | region _ ih => exact .region ih
  | pendingThrow _ ih => exact .pendingThrow ih

theorem Held.with {P : Plan} {more : List (Nat × Shape)} {C : List Context} {s : List Slot}
    (h : Held P.labels C s) : Held (P.with more).labels C s := h.mono (List.subset_append_right _ _)

theorem Held.length {J : List (Nat × Shape)} {C : List Context} {s : List Slot} (h : Held J C s) :
    C.length = s.length := by
  induction h with
  | nil => rfl
  | loop _ _ _ ih | region _ ih | pendingThrow _ ih => rw [List.length_cons, List.length_cons, ih]

/-- Below the contexts inside the innermost loop lies the marker of that loop. -/
theorem Held.innermostLoop {J : List (Nat × Shape)} {C : List Context} {s : List Slot} (h : Held J C s)
    {n continueTo breakTo : Nat} (hn : innermostLoop? C = some (n, continueTo, breakTo)) :
    ∃ j t, s.drop n = .loop j :: t ∧ (continueTo, ⟨j, .loop j :: t⟩) ∈ J ∧
      (breakTo, ⟨j, .loop j :: t⟩) ∈ J := by
  induction h generalizing n with
  | nil => cases hn
  | @loop c b j C s hc hb hC ih =>
    cases hn
    exact ⟨j, s, rfl, hc, hb⟩
  | region hC ih | pendingThrow hC ih =>
    obtain ⟨⟨m, labels⟩, hm, he⟩ := Option.map_eq_some_iff.1 hn
    cases he
    exact ih hm

/-! ### The shapes of every piece -/

/-- A listing pushes one value. -/
def Pushes (P : Plan) (L : Listing) : Prop := ∀ k s, Flow P [] ⟨k, s⟩ L ⟨k, .value :: s⟩

/-- A listing takes one value. -/
def Takes (P : Plan) (L : Listing) : Prop := ∀ k s, Flow P [] ⟨k, .value :: s⟩ L ⟨k, s⟩

/-- A listing leaves the shape as it is within some surroundings. Only the script itself may be
compiled as a script. -/
def Balanced (P : Plan) (around : Surroundings) (L : Listing) : Prop :=
  (P.script = true → around.body = .script) → ∀ k s, Held P.labels around.contexts s →
    Flow P [] ⟨k, s⟩ L ⟨k, s⟩

/-- How the listing of a piece changes the shape. -/
def Piece.Typed (P : Plan) (L : Listing) : Piece → Prop
  | .literal _ _ | .expr _ _ | .kind _ _ | .default _ _ | .returned _ _ _ => Pushes P L
  | .exprs _ es => ∀ k s, Flow P [] ⟨k, s⟩ L ⟨k, values es.length s⟩
  | .fields _ fs => ∀ k s, Flow P [] ⟨k, s⟩ L ⟨k, values fs.length s⟩
  | .exprThen span after _ => ∀ k s, Flow P [] ⟨k, .value :: s⟩ (asm span after) ⟨k, s⟩ →
      Flow P [] ⟨k, s⟩ L ⟨k, s⟩
  | .operands _ _ place => (∀ k s, Flow P [] ⟨k, s⟩ L ⟨k, s⟩) ∧
      ∀ span, Pushes P (.ops (place.load span)) ∧ Takes P (.ops (place.save span))
  | .save _ _ => Takes P L
  | .callee _ argc _ => ∀ k s, Flow P [] ⟨k, values argc s⟩ L ⟨k, .value :: s⟩
  | .body _ _ _ _ _ | .methods _ _ _ _ => True
  | .finish _ _ unfinished => P.script = false → Flow P [] .empty unfinished .empty →
      Flow P [] .empty L .empty ∧ lastOp? L.code = some .ret
  | .stmt around _ | .stmtOption around _ | .stmts around _ | .stmtKind around _ _
  | .final around _ _ => Balanced P around L
  | .handler around _ _ => (P.script = true → around.body = .script) →
      ∀ k s, Held P.labels around.contexts s → Flow P [] ⟨k, .value :: s⟩ L ⟨k, s⟩
  | .leave bodyKind _ n contexts => (P.script = true → bodyKind = .script) →
      ∀ k s, Held P.labels contexts s → Flow P [] ⟨k, s⟩ L ⟨k, s.drop n⟩

theorem takes_keepAs (P : Plan) (span : Span) (name : String) :
    Takes P (.ops (keepAs span name)) := fun _ _ => .op .declare (.op .store .nil)

theorem flow_append {P : Plan} {σ ρ τ : Shape} {A B : Listing} (hA : Flow P [] σ A ρ)
    (hB : Flow P [] ρ B τ) : Flow P [] σ (A ++ B) τ := hA.append hB

theorem flow_around {P : Plan} {K U : Listing} {place : Target} {span : Span}
    (hK : ∀ k s, Flow P [] ⟨k, s⟩ K ⟨k, s⟩) (hU : Pushes P U) : Pushes P (around span K U place) := by
  intro k s
  cases place with
  | plain name => exact hU k s
  | property object objectSpan name => exact .within (flow_append (hK _ _) (hU _ _))
  | element object objectSpan key keySpan => exact .within (flow_append (hK _ _) (hU _ _))

theorem typed_property (P : Plan) (object : String) (objectSpan : Span) {name : String}
    (hn : name ≠ indexer) (span : Span) :
    Pushes P (.ops ((Target.property object objectSpan name).load span)) ∧
      Takes P (.ops ((Target.property object objectSpan name).save span)) := by
  refine ⟨fun k s => ?_, fun k s => ?_⟩
  · have hload : Flow P [] ⟨k, s⟩ (asm (span.refine objectSpan) [.fetch object]
        ++ asm span [.fetchProperty name]) ⟨k, .value :: s⟩ :=
      flow_append (.op .fetch .nil) (.op (.fetchProperty hn) .nil)
    exact hload.code
  · have hsave : Flow P [] ⟨k, .value :: s⟩ (asm (span.refine objectSpan) [.fetch object]
        ++ asm span [.storeProperty name]) ⟨k, s⟩ :=
      flow_append (.op .fetch .nil) (.op (.storeProperty hn) .nil)
    exact hsave.code

theorem typed_element (P : Plan) (object : String) (objectSpan : Span) (key : String) (keySpan : Span)
    (span : Span) :
    Pushes P (.ops ((Target.element object objectSpan key keySpan).load span)) ∧
      Takes P (.ops ((Target.element object objectSpan key keySpan).save span)) := by
  refine ⟨fun k s => ?_, fun k s => ?_⟩
  · have hload : Flow P [] ⟨k, s⟩ (asm (span.refine objectSpan) [.fetch object]
        ++ asm (span.refine keySpan) [.fetch key] ++ asm span [.fetchProperty indexer])
        ⟨k, .value :: s⟩ :=
      flow_append (flow_append (.op .fetch .nil) (.op .fetch .nil)) (.op .fetchElement .nil)
    exact hload.code
  · have hsave : Flow P [] ⟨k, .value :: s⟩ (asm (span.refine objectSpan) [.fetch object]
        ++ asm (span.refine keySpan) [.fetch key] ++ asm span [.storeProperty indexer]) ⟨k, s⟩ :=
      flow_append (flow_append (.op .fetch .nil) (.op .fetch .nil)) (.op .storeElement .nil)
    exact hsave.code

/-- Two ways that meet again: what follows a conditional jump, and what it jumps to. -/
theorem flow_either {P : Plan} {l : Nat} {k : Nat} {s t : List Slot} {T Y N : Listing} {span : Span}
    {o : Opcode} (ho : o = .jumpTrue l ∨ o = .jumpFalse l)
    (hT : ∀ Q : Plan, Q.pool = P.pool → Q.script = P.script → P.labels ⊆ Q.labels →
      Flow Q [] ⟨k, s⟩ T ⟨k, .value :: s⟩ ∧ Flow Q [] ⟨k, s⟩ Y ⟨k, t⟩ ∧ Flow Q [] ⟨k, s⟩ N ⟨k, t⟩) :
    Flow P [] ⟨k, s⟩ (T ++ asm span [o] ++ Y ++ asm span [.jump (l + 1), .label l]
      ++ N ++ asm span [.label (l + 1)]) ⟨k, t⟩ := by
  obtain ⟨hT, hY, hN⟩ := hT (P.with [(l, ⟨k, s⟩), (l + 1, ⟨k, t⟩)]) rfl rfl
    (List.subset_append_right _ _)
  have ho : Step (P.with [(l, ⟨k, s⟩), (l + 1, ⟨k, t⟩)]) o ⟨k, .value :: s⟩ ⟨k, s⟩ := by
    obtain rfl | rfl := ho
    · exact .jumpTrue (by simp [Plan.with])
    · exact .jumpFalse (by simp [Plan.with])
  have hjump : (l + 1, ⟨k, t⟩) ∈ (P.with [(l, ⟨k, s⟩), (l + 1, ⟨k, t⟩)]).labels := by simp [Plan.with]
  refine Flow.close (((((hT.append (.op ho .nil)).append hY).append
    (.op (.jump hjump) (.op .label .nil))).append hN).append (.op .label .nil)) ?_
  simp [mark]

/-- Every listing of the generator has the shapes of its piece, if the pool of the plan holds what the
generator put there. -/
theorem Emits.typed {p : Piece} {d d' : Draft} {L : Listing} (h : Emits p d L d')
    (hp : Every (·.sparesIndexer) p.nodes) (P : Plan) (hP : d'.constants.size ≤ P.pool) : p.Typed P L := by
  induction h generalizing P with
  | @literal span lit d =>
    intro k s
    exact .op (.const (Nat.lt_of_lt_of_le (size_poolIndex lit d).2 hP)) .nil
  | constant _ _ ih | badPattern _ _ ih | badUpdate _ _ ih | badAssign _ _ ih
  | defaultOther _ _ ih => exact ih .nil P hP
  | expr _ ih | stmtSome _ ih | returnedNone _ ih | returnedSome _ ih => exact ih hp P hP
  | ident | this | defaultConstructor => exact fun k s => .op .fetch .nil
  | array _ ih => exact fun k s => flow_append (ih hp.tail P hP k s) (.op .createArray .nil)
  | @record span fields d L d' _ ih =>
    intro k s
    have hL : Flow P [] ⟨k, s⟩ L ⟨k, values (fields.map Prod.fst).length s⟩ := by
      rw [List.length_map]
      exact ih hp.tail P hP k s
    exact flow_append hL (.op .createRecord .nil)
  | member _ ih =>
    have hn := bne_iff_ne.1 hp.head
    exact fun k s => flow_append (ih hp.tail P hP k s) (.op (.fetchProperty hn) .nil)
  | index _ hK ihL ihK =>
    intro k s
    have hL := ihL hp.tail.left P (Nat.le_trans hK.pool_le hP) k s
    exact flow_append (flow_append hL (ihK hp.tail.right P hP _ _)) (.op .fetchElement .nil)
  | not _ hY hN ihL ihY ihN =>
    intro k s
    have hd₂ := Nat.le_trans hN.pool_le hP
    have hd₁ := Nat.le_trans hY.pool_le hd₂
    refine flow_either (.inl rfl) fun Q hpool _ _ => ?_
    rw [← hpool] at hd₁ hd₂ hP
    exact ⟨ihL hp.tail Q hd₁ k s, ihY .nil Q hd₂ k s, ihN .nil Q hP k s⟩
  | negate _ hL ihZ ihL =>
    intro k s
    have hZ := ihZ .nil P (Nat.le_trans hL.pool_le hP) k s
    exact flow_append (flow_append hZ (ihL hp.tail P hP _ _)) (.op .binary .nil)
  | @update span op giveNew own kind place d K d₁ N d' hK hN ihK ihN =>
    obtain ⟨hkeep, huse⟩ := ihK hp.tail P (Nat.le_trans hN.pool_le hP)
    have hload := (huse (span.refine own)).1
    have hsave := (huse span).2
    have hchange : ∀ k s, Flow P [] ⟨k, .value :: s⟩
        (N ++ asm span [.binary (updateOp op)] ++ .ops (place.save span)) ⟨k, s⟩ := fun k s =>
      flow_append (flow_append (ihN .nil P hP _ _) (.op .binary .nil)) (hsave k s)
    refine flow_around hkeep fun k s => ?_
    cases giveNew with
    | true => exact flow_append (flow_append (hload k s) (hchange k s)) (hload k s)
    | false => exact flow_append (flow_append (hload k s) (hload k _)) (hchange k _)
  | binary _ hR ihL ihR =>
    intro k s
    have hL := ihL hp.tail.left P (Nat.le_trans hR.pool_le hP) k s
    exact flow_append (flow_append hL (ihR hp.tail.right P hP _ _)) (.op .binary .nil)
  | @logical span op left right d L d₁ R d₂ O d' _ hR hO ihL ihR ihO =>
    intro k s
    have hd₂ := Nat.le_trans hO.pool_le hP
    have hd₁ := Nat.le_trans hR.pool_le hd₂
    have hjump : (shortcut d.labels op).1 = .jumpTrue d.labels ∨
        (shortcut d.labels op).1 = .jumpFalse d.labels := by
      cases op
      · exact .inr rfl
      · exact .inl rfl
    refine flow_either hjump fun Q hpool _ _ => ?_
    rw [← hpool] at hd₁ hd₂ hP
    exact ⟨ihL hp.tail.left Q hd₁ k s, ihR hp.tail.right Q hd₂ k s, ihO .nil Q hP k s⟩
  | @assignOp span op own kind value place d K d₁ V d' hK hV ihK ihV =>
    obtain ⟨hkeep, huse⟩ := ihK hp.tail.left P (Nat.le_trans hV.pool_le hP)
    have hload := (huse (span.refine own)).1
    have hsave := (huse span).2
    refine flow_around hkeep fun k s => ?_
    have hV := ihV hp.tail.right P hP k (.value :: s)
    exact flow_append (flow_append (flow_append (hload k s) hV) (.op .binary (.op .dup .nil)))
      (hsave k _)
  | assign _ hS ihV ihS =>
    intro k s
    have hV := ihV hp.tail.right P (Nat.le_trans hS.pool_le hP) k s
    exact flow_append (flow_append hV (.op .dup .nil)) (ihS hp.tail.left P hP _ _)
  | conditional _ hY hN ihT ihY ihN =>
    intro k s
    have hd₂ := Nat.le_trans hN.pool_le hP
    have hd₁ := Nat.le_trans hY.pool_le hd₂
    refine flow_either (.inr rfl) fun Q hpool _ _ => ?_
    rw [← hpool] at hd₁ hd₂ hP
    exact ⟨ihT hp.tail.left.left Q hd₁ k s, ihY hp.tail.left.right Q hd₂ k s,
      ihN hp.tail.right Q hP k s⟩
  | call _ hC ihA ihC =>
    intro k s
    have hA := ihA hp.tail.right P (Nat.le_trans hC.pool_le hP) k s
    exact flow_append hA (ihC hp.tail.left P hP k s)
  | new _ ih => exact fun k s => flow_append (ih hp.tail P hP k s) (.op .createObject .nil)
  | lambda => exact fun k s => .op .fetch .nil
  | exprsNil | fieldsNil => exact fun k s => .nil
  | @exprsCons span e rest d L d₁ R d' _ hR ihL ihR =>
    intro k s
    have hL := ihL hp.left P (Nat.le_trans hR.pool_le hP) k s
    have hR := ihR hp.right P hP k (.value :: s)
    rw [values_value] at hR
    exact flow_append hL hR
  | @fieldsCons span name e rest d L d₁ R d' _ hR ihL ihR =>
    intro k s
    have hL := ihL hp.left P (Nat.le_trans hR.pool_le hP) k s
    have hR := ihR hp.right P hP k (.value :: s)
    rw [values_value] at hR
    exact flow_append hL hR
  | exprThenNone => exact fun k s _ => .nil
  | exprThenSome _ ih => exact fun k s hafter => flow_append (ih hp P hP k s) hafter
  | operandsIdent => exact ⟨fun k s => .nil, fun span =>
      ⟨fun k s => .op .fetch .nil, fun k s => .op .store .nil⟩⟩
  | operandsMember _ ih =>
    have hn := bne_iff_ne.1 hp.head
    exact ⟨fun k s => flow_append (ih hp.tail P hP k s) (takes_keepAs _ _ _ _ _),
      typed_property P _ _ hn⟩
  | operandsIndex _ hK ihL ihK =>
    refine ⟨fun k s => ?_, typed_element P _ _ _ _⟩
    have hL := ihL hp.tail.left P (Nat.le_trans hK.pool_le hP) k s
    exact flow_append (flow_append (flow_append hL (takes_keepAs _ _ _ _ _))
      (ihK hp.tail.right P hP _ _)) (takes_keepAs _ _ _ _ _)
  | saveIdent => exact fun k s => .op .store .nil
  | saveMember _ ih =>
    have hn := bne_iff_ne.1 hp.head
    exact fun k s => flow_append (ih hp.tail P hP k _) (.op (.storeProperty hn) .nil)
  | saveIndex _ hK ihL ihK =>
    intro k s
    have hL := ihL hp.tail.left P (Nat.le_trans hK.pool_le hP) k (.value :: s)
    exact flow_append (flow_append hL (ihK hp.tail.right P hP _ _)) (.op .storeElement .nil)
  | calleeMember _ ih =>
    have hn := bne_iff_ne.1 hp.head
    exact fun k s => flow_append (ih hp.tail P hP k _)
      (.op .dup (.op (.fetchProperty hn) (.op .callMethod .nil)))
  | @calleeIndex span argc own object key d L d₁ K d' _ hK ihL ihK =>
    intro k s
    have hL := ihL hp.tail.left P (Nat.le_trans hK.pool_le hP) k (values argc s)
    exact flow_append (flow_append (flow_append hL (.op .dup .nil)) (ihK hp.tail.right P hP _ _))
      (.op .fetchElement (.op .callMethod .nil))
  | calleeOther _ _ ih => exact fun k s => flow_append (ih hp P hP k _) (.op .call .nil)
  | body | methodsNil | methodsCons => trivial
  | finished hlast => exact fun _ hL => ⟨hL, hlast⟩
  | unfinished hlast _ ih =>
    intro hscript hL
    refine ⟨flow_append (flow_append hL (ih .nil P hP _ _)) (.op (.ret hscript) .nil), ?_⟩
    simp [lastOp?, emit]
  | stmt _ ih => exact fun hb k s hs => (ih hp P hP hb k s hs).stmt
  | stmtNone | stmtsNil | strayBreak | strayContinue | strayReturn | functionStmt | repeatedClass
  | «class» | empty | finalNone => exact fun _ k s _ => .nil
  | stmtsCons _ hR ihL ihR =>
    intro hb k s hs
    have hL := ihL (hp.left.left.append hp.right) P (Nat.le_trans hR.pool_le hP) hb k s hs
    exact flow_append hL (ihR (hp.left.right.append hp.right) P hP hb k s hs)
  | exprStmt _ ih => exact fun _ k s _ => flow_append (ih hp.left.tail P hP k s) (.op .pop .nil)
  | var _ ih =>
    intro _ k s _
    exact flow_append (.op .declare .nil) (ih hp.left.tail P hP k s (.op .store .nil))
  | block _ ih =>
    exact fun hb k s hs => .within (ih (hp.left.tail.append hp.right) P hP hb (k + 1) s hs)
  | cond _ hY hN ihT ihY ihN =>
    intro hb k s hs
    have hd₂ := Nat.le_trans hN.pool_le hP
    have hd₁ := Nat.le_trans hY.pool_le hd₂
    refine flow_either (.inr rfl) fun Q hpool hscript hlabels => ?_
    rw [← hpool] at hd₁ hd₂ hP
    rw [← hscript] at hb
    have hs := hs.mono hlabels
    exact ⟨ihT hp.left.tail.left.left Q hd₁ k s,
      ihY (hp.left.tail.left.right.append hp.right) Q hd₂ hb k s hs,
      ihN (hp.left.tail.right.append hp.right) Q hP hb k s hs⟩
  | @«while» around span test body d T d₁ B d' _ hB ihT ihB =>
    intro hb k s hs
    -- both labels of the loop stand right above its marker
    let Q := P.with [(d.labels, ⟨k, .loop k :: s⟩), (d.labels + 1, ⟨k, .loop k :: s⟩)]
    have hstart : (d.labels, ⟨k, .loop k :: s⟩) ∈ Q.labels := by simp [Q, Plan.with]
    have hdone : (d.labels + 1, ⟨k, .loop k :: s⟩) ∈ Q.labels := by simp [Q, Plan.with]
    have hT := ihT hp.left.tail.left Q (Nat.le_trans hB.pool_le hP) k (.loop k :: s)
    have hB := ihB (hp.left.tail.right.append hp.right) Q hP hb k (.loop k :: s)
      (.loop hstart hdone hs.with)
    have hback : Step Q (.jump d.labels) ⟨k, .loop k :: s⟩ ⟨k, .loop k :: s⟩ := .jump hstart
    refine Flow.close ((((Flow.append (.op .loopStart (.op .label .nil)) hT).append
      (.op (.jumpFalse hdone) .nil)).append hB).append
        (.op hback (.op .label (.op .loopEnd .nil)))) ?_
    simp [mark]
  | @«for» around span init test update body d I d₁ T d₂ B d₃ U d' _ hT hB hU ihI ihT ihB ihU =>
    intro hb k s hs
    let σ : Shape := ⟨k + 1, .loop (k + 1) :: s⟩
    let Q := P.with [(d.labels, σ), (d.labels + 1, σ), (d.labels + 2, σ)]
    have hstart : (d.labels, σ) ∈ Q.labels := by simp [Q, Plan.with]
    have hnext : (d.labels + 1, σ) ∈ Q.labels := by simp [Q, Plan.with]
    have hdone : (d.labels + 2, σ) ∈ Q.labels := by simp [Q, Plan.with]
    have hd₃ := Nat.le_trans hU.pool_le hP
    have hd₂ := Nat.le_trans hB.pool_le hd₃
    have hd₁ := Nat.le_trans hT.pool_le hd₂
    have hparts := hp.left.tail
    have hI := ihI (hparts.left.left.left.append hp.right) Q hd₁ hb (k + 1) s hs.with
    have hT := ihT hparts.left.left.right Q hd₂ (k + 1) (.loop (k + 1) :: s)
      (.op (.jumpFalse hdone) .nil)
    have hB := ihB (hparts.right.append hp.right) Q hd₃ hb (k + 1) (.loop (k + 1) :: s)
      (.loop hnext hdone hs.with)
    have hU := ihU hparts.left.right Q hP (k + 1) (.loop (k + 1) :: s) (.op .pop .nil)
    have hback : Step Q (.jump d.labels) σ σ := .jump hstart
    refine .within (Flow.close ((((((hI.append (.op .loopStart (.op .label .nil))).append hT).append
      hB).append (.op .label .nil)).append hU).append
        (.op hback (.op .label (.op .loopEnd .nil)))) ?_)
    simp [mark, σ]
  | «break» hn _ ih =>
    intro hb k s hs
    obtain ⟨j, t, ht, -, hbreak⟩ := hs.innermostLoop hn
    have hL := ih hp.right P hP hb k s hs
    rw [ht] at hL
    exact flow_append hL (.op (.loopExit hbreak) .nil)
  | «continue» hn _ ih =>
    intro hb k s hs
    obtain ⟨j, t, ht, hcontinue, -⟩ := hs.innermostLoop hn
    have hL := ih hp.right P hP hb k s hs
    rw [ht] at hL
    exact flow_append hL (.op (.loopExit hcontinue) .nil)
  | ret hbody hempty _ ih =>
    intro hb k s hs
    have hscript : P.script = false := Bool.eq_false_iff.2 fun h => hbody (hb h)
    rw [hempty] at hs
    cases hs
    exact flow_append (ih hp.left.tail P hP k []) (.op (.ret hscript) .nil)
  | @retLeaving around span value d V d₁ L d' hbody _ _ hL ihV ihL =>
    intro hb k s hs
    have hscript : P.script = false := Bool.eq_false_iff.2 fun h => hbody (hb h)
    have hV := ihV hp.left.tail P (Nat.le_trans hL.pool_le hP) k s
    have hL := ihL hp.right P hP hb k s hs
    rw [hs.length, List.drop_length] at hL
    exact flow_append (flow_append (flow_append hV (takes_keepAs _ _ _ _ _)) hL)
      (.op .fetch (.op (.ret hscript) .nil))
  | throw _ ih => exact fun _ k s _ => flow_append (ih hp.left.tail P hP k s) (.op .throw .nil)
  | @«try» around span body handler final d B d₁ H d₂ F d₃ E d' _ hH hF hE ihB ihH ihF ihE =>
    intro hb k s hs
    let Q := P.with [(d.labels, ⟨k, .value :: s⟩), (d.labels + 1, ⟨k, .value :: s⟩),
      (d.labels + 2, ⟨k, s⟩)]
    have hcaught : (d.labels, ⟨k, .value :: s⟩) ∈ Q.labels := by simp [Q, Plan.with]
    have hrethrow : (d.labels + 1, ⟨k, .value :: s⟩) ∈ Q.labels := by simp [Q, Plan.with]
    have hdone : (d.labels + 2, ⟨k, s⟩) ∈ Q.labels := by simp [Q, Plan.with]
    have hd₃ := Nat.le_trans hE.pool_le hP
    have hd₂ := Nat.le_trans hF.pool_le hd₃
    have hd₁ := Nat.le_trans hH.pool_le hd₂
    have hparts := hp.left.tail
    have hs : Held Q.labels around.contexts s := hs.with
    have hB := ihB (hparts.left.left.append (hparts.right.append hp.right)) Q hd₁ hb (k + 1)
      (.region k :: s) (.region hs)
    have hH := ihH (hparts.left.right.append (hparts.right.append hp.right)) Q hd₂ hb k
      (.region k :: s) (.region hs)
    have hF := ihF (hparts.right.append hp.right) Q hd₃ hb k (.value :: s) (.pendingThrow hs)
    have hE := ihE (hparts.right.append hp.right) Q hP hb k s hs
    have hfinal : ∀ l, (final.map fun _ => d.labels + 1) = some l → (l, ⟨k, .value :: s⟩) ∈ Q.labels := by
      intro l hl
      obtain ⟨-, -, rfl⟩ := Option.map_eq_some_iff.1 hl
      exact hrethrow
    refine Flow.close ((((((((Flow.append (.op (.tryStart hcaught hfinal) .nil) (.within hB)).append
      (.op .tryEnd (.op (.jump hdone) (.op .label (.op (.tryKeep hrethrow) .nil))))).append hH).append
        (.op .tryEnd (.op (.jump hdone) (.op .label .nil)))).append hF).append
          (.op .throw (.op .label .nil))).append hE)) ?_
    simp [mark]
  | debugger => exact fun _ k s _ => .op .debugger .nil
  | noHandler => exact fun _ k s _ => .op .throw .nil
  | handlerParam _ ih =>
    exact fun hb k s hs => .within (flow_append (takes_keepAs _ _ _ _ _) (ih hp P hP hb (k + 1) s hs))
  | handler _ ih =>
    exact fun hb k s hs => flow_append (.op .pop .nil) (.within (ih hp P hP hb (k + 1) s hs))
  | finalSome _ ih => exact fun hb k s hs => .within (ih hp P hP hb (k + 1) s hs)
  | leaveZero => exact fun _ k s _ => .nil
  | leaveNil =>
    intro _ k s hs
    cases hs
    exact .nil
  | leaveLoop _ ih =>
    intro hb k s hs
    cases hs with
    | loop _ _ hs => exact flow_append (.op .loopEnd .nil) (ih hp P hP hb k _ hs)
  | leaveRegion _ hL ihF ihL =>
    intro hb k s hs
    cases hs with
    | region hs =>
      have hF := ihF hp P (Nat.le_trans hL.pool_le hP) hb k _ hs
      exact flow_append (flow_append (.op .tryEnd .nil) hF) (ihL hp.right P hP hb k _ hs)
  | leavePending _ ih =>
    intro hb k s hs
    cases hs with
    | pendingThrow hs => exact flow_append (.op .pop .nil) (ih hp P hP hb k _ hs)

end ScriptMachine.Compile
