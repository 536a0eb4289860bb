import ScriptMachine.Proofs.Compile.Layout
import ScriptMachine.Proofs.Machine.Does

/-!
# Expressions — the code of an expression computes its value

By induction over the rules of the generator, the code of an expression `Does` what the expression
means, whatever lies below it on the stack. Constants are found in the pool where the generator put
them. A target keeps its operands under hidden names in a scope of its own, so its uses see them
whatever they evaluate in between.
-/

namespace ScriptMachine.Compile

open Listing Heap Machine Meaning Stage

/-- The operations of a listing. -/
def Listing.opcodes (L : Listing) : List Opcode := L.code.map (·.op)

@[simp] theorem opcodes_append (A B : Listing) : (A ++ B).opcodes = A.opcodes ++ B.opcodes :=
  List.map_append

@[simp] theorem opcodes_asm (span : Span) (ops : List Opcode) : (asm span ops).opcodes = ops := by
  simp [opcodes, emit, Function.comp_def]

@[simp] theorem opcodes_stmt (L : Listing) : (Listing.stmt L).opcodes = L.opcodes := ops_markFirst L.code

@[simp] theorem opcodes_within (span : Span) (L : Listing) :
    (within span L).opcodes = [.enterScope] ++ L.opcodes ++ [.leaveScope] := by
  simp [within]

@[simp] theorem opcodes_nil : (ops []).opcodes = [] := rfl

@[simp] theorem opcodes_keepAs (span : Span) (name : String) :
    (ops (keepAs span name)).opcodes = [.declare name, .store name] := rfl

/-! ### Names and constants -/

/-- A node mentions only some names that are not reserved, and no property named like the `indexer`. -/
def Speaks (names : List String) (n : Node) : Prop :=
  n.sparesIndexer = true ∧ ∀ name ∈ n.mentions, name ∈ names ∧ reserved name = false

theorem reserved_parked (d : Draft) : reserved (newParked d).1 = true := by
  simp only [reserved, newParked, String.toList_append, List.head?_append, beq_iff_eq]
  rfl

/-- Hidden names with different numbers are different. -/
theorem parked_ne {d d' : Draft} (hd : d.parked < d'.parked) : (newParked d).1 ≠ (newParked d').1 := by
  intro he
  simp only [newParked] at he
  have hrepr := congrArg String.toList ((String.append_right_inj _).1 he)
  have hdigits : Nat.toDigits 10 d.parked = Nat.toDigits 10 d'.parked := by
    simpa [toString, Nat.toList_repr] using hrepr
  have heq := congrArg (Nat.ofDigitChars 10 · 0) hdigits
  simp only [Nat.ofDigitChars_ten_toDigits] at heq
  omega

/-- The place of a constant in a pool: the first one with its key. -/
structure First (pool : Array Literal) (lit : Literal) (i : Nat) : Prop where
  found : ∃ c, pool[i]? = some c ∧ c.key = lit.key
  before : ∀ j < i, ∀ c, pool[j]? = some c → c.key ≠ lit.key

theorem first_poolIndex {lit : Literal} {d : Draft} {pool : Array Literal}
    (hp : (poolIndex lit d).2.constants.toList <+: pool.toList) : First pool lit (poolIndex lit d).1 := by
  obtain ⟨rest, hrest⟩ := hp
  have hpool : pool = (poolIndex lit d).2.constants ++ rest.toArray := by
    apply Array.toList_inj.1
    rw [← hrest, Array.toList_append]
  subst hpool
  clear hrest
  unfold poolIndex
  cases hfind : d.constants.findIdx? fun c => c.key == lit.key with
  | some i =>
    obtain ⟨hi, hkey, hbefore⟩ := Array.findIdx?_eq_some_iff_getElem.1 hfind
    refine ⟨⟨d.constants[i], ?_, by simpa using hkey⟩, fun j hj c hc => ?_⟩
    · simp [Array.getElem?_append_left hi]
    · have hj : j < i := hj
      simp only at hc
      rw [Array.getElem?_append_left (by omega), Array.getElem?_eq_getElem (by omega)] at hc
      cases hc
      simpa using hbefore j hj
  | none =>
    have hnone := Array.findIdx?_eq_none_iff.1 hfind
    refine ⟨⟨lit, by simp, rfl⟩, fun j hj c hc => ?_⟩
    simp only at hj hc
    rw [Array.getElem?_append_left (by rw [Array.size_push]; omega), Array.getElem?_push_lt hj] at hc
    cases hc
    simpa using hnone _ (Array.getElem_mem hj)

/-- The key tells everything but the pattern itself. -/
theorem eq_of_key {c lit : Literal} (hk : c.key = lit.key) (hl : ∀ p, lit ≠ .regex p) : c = lit := by
  cases lit with
  | regex p => exact absurd rfl (hl p)
  | _ => cases c <;> simp_all [Literal.key]

variable {Z : Stage} {names : List String} {known : List (String × Value)} {env : ScopeId}
  {pre : List Value} {lit : Literal} {i : Nat}

theorem First.constant (hi : First Z.pool lit i) :
    ∃ c : Literal, c.key = lit.key ∧ Z.world.program.constants[i]? = some (c.value i) := by
  obtain ⟨c, hc, hkey⟩ := hi.found
  exact ⟨c, hkey, by rw [Z.constants, Array.getElem?_mapIdx, hc]; rfl⟩

theorem does_plain (hi : First Z.pool lit i) (hl : ∀ p, lit ≠ .regex p) :
    Z.Does names known env [.const i] pre (Pure.pure (lit.value 0) : Calc Value) fun a => a :: pre := by
  obtain ⟨c, hkey, hc⟩ := hi.constant
  have hvalue : c.value i = lit.value 0 := by
    rw [eq_of_key hkey hl]
    cases lit with
    | regex p => exact absurd rfl (hl p)
    | _ => rfl
  exact does_const (hvalue ▸ hc)

theorem isPattern_value (c : Literal) (j : Nat) (source : String) :
    isPattern source (c.value j) = (c.key == LiteralKey.regex source) := by
  cases c <;> simp [isPattern, Literal.value, Literal.key]

/-- The pattern with a given source is the constant that the pool holds for it. -/
theorem First.pattern {q : Pattern} (hi : First Z.pool (.regex q) i) : ∃ c : Literal,
    Z.world.program.constants[i]? = some (c.value i) ∧ pattern Z.world q.source = Pure.pure (c.value i) := by
  obtain ⟨c, hkey, hc⟩ := hi.constant
  have hfind : Z.world.program.constants.find? (isPattern q.source) = some (c.value i) := by
    obtain ⟨hlt, hget⟩ := Array.getElem?_eq_some_iff.1 hc
    refine Array.find?_eq_some_iff_getElem.2 ⟨?_, i, hlt, hget, fun j hj => ?_⟩
    · rw [isPattern_value, hkey]
      simp [Literal.key]
    · have hpool : j < Z.pool.size := by
        rw [Z.constants, Array.size_mapIdx] at hlt
        omega
      have hne := hi.before j hj _ (Array.getElem?_eq_getElem hpool)
      simp only [Z.constants, Array.getElem_mapIdx, isPattern_value]
      simpa [Literal.key] using hne
  refine ⟨c, hc, ?_⟩
  unfold Meaning.pattern
  rw [hfind]

theorem does_pattern {q : Pattern} (hi : First Z.pool (.regex q) i) :
    Z.Does names known env [.const i] pre (pattern Z.world q.source) fun a => a :: pre := by
  obtain ⟨c, hc, hmeans⟩ := hi.pattern
  rw [hmeans]
  exact does_const hc

theorem does_meaningless {α : Type} {ops : List Opcode} {post : α → List Value} :
    Z.Does names known env ops pre (meaningless : Calc α) post := fun _ _ _ _ _ _ _ _ _ hc => absurd rfl hc

/-! ### Targets -/

/-- A target stands for a place if its operands are kept under its hidden names. -/
inductive Stands (names : List String) (known : List (String × Value)) : Target → Place → Prop where
  | plain {name} : name ∈ names → reserved name = false → Stands names known (.plain name) (.plain name)
  | property {object span name o} : (object, o) ∈ known → name ≠ indexer →
      Stands names known (.property object span name) (.property o (.string name))
  | element {object span key keySpan o k} : (object, o) ∈ known → (key, k) ∈ known →
      Stands names known (.element object span key keySpan) (.property o k)

variable {place : Target} {P : Place} {span : Span}

theorem Stands.does_load (hs : Stands names known place P) :
    Z.Does names known env (ops (place.load span)).opcodes pre (P.read Z.world env) fun a => a :: pre := by
  cases hs with
  | plain hn hr => exact does_fetch hn hr
  | property ho hn => exact (does_fetchKnown ho).seq fun _ => does_fetchProperty hn
  | element ho hk => exact (does_fetchKnown ho).seq fun _ => (does_fetchKnown hk).seq fun _ => does_fetchElement

theorem Stands.does_save (hs : Stands names known place P) {w : Value} :
    Z.Does names known env (ops (place.save span)).opcodes (w :: pre) (P.write Z.world env w) fun _ => pre := by
  cases hs with
  | plain hn hr => exact does_store hn hr
  | property ho hn => exact (does_fetchKnown ho).seq fun _ => does_storeProperty hn
  | element ho hk => exact (does_fetchKnown ho).seq fun _ => (does_fetchKnown hk).seq fun _ => does_storeElement

/-! ### Pieces -/

/-- What the code of a piece does. Uses of a target come after the code that keeps its operands. -/
def Piece.Means (Z : Stage) (names : List String) (L : Listing) : Piece → Prop
  | .literal _ lit => ∃ i, L.opcodes = [.const i] ∧ First Z.pool lit i
  | .expr _ e => ∀ known env, Z.Does names known env L.opcodes [] (eval Z.world env e) fun a => [a]
  | .kind _ k => ∀ known env, Z.Does names known env L.opcodes [] (evalKind Z.world env k) fun a => [a]
  | .exprs _ es => ∀ known env pre,
      Z.Does names known env L.opcodes pre (evalAll Z.world env es) fun vs => vs.reverse ++ pre
  | .fields _ fs => ∀ known env pre,
      Z.Does names known env L.opcodes pre (evalFields Z.world env fs) fun vs => vs.reverse ++ pre
  | .operands span k place => ∀ (U : Listing) (f : ScopeId → Place → Calc Value),
      (∀ known env P, Stands names known place P →
        Z.Does names known env U.opcodes [] (f env P) fun a => [a]) →
      ∀ known env, Z.Does names known env (around span L U place).opcodes []
        (holding env k fun env => evalPlace Z.world env k >>= f env) fun a => [a]
  | .save _ k => (Expr.node .unknown k).isAssignable = true ∧ ∀ known env w pre,
      Z.Does names known env L.opcodes (w :: pre)
        (evalPlace Z.world env k >>= fun place => place.write Z.world env w) fun _ => pre
  | .default owner _ => (owner = .constructor → thisName ∈ names) → ∀ known env,
      Z.Does names known env L.opcodes [] (evalReturn Z.world env owner none) fun a => [a]
  | .returned owner _ value => (value = none → owner = .constructor → thisName ∈ names) → ∀ known env,
      Z.Does names known env L.opcodes [] (evalReturn Z.world env owner value) fun a => [a]
  | _ => True

theorem does_constant {k : ExprKind} (hk : literal? k = some lit) (hi : First Z.pool lit i) :
    Z.Does names known env [.const i] pre (evalKind Z.world env k) fun a => a :: pre := by
  cases k with
  | regex source =>
    simp only [literal?] at hk
    cases hs : Pattern.compile source with
    | error refusal => rw [hs] at hk; cases hk
    | ok q =>
      rw [hs] at hk
      cases hk
      simp only [evalKind, hs]
      exact does_pattern hi
  | undefined | null | bool | number | string =>
    cases hk
    simp only [evalKind]
    exact does_plain hi fun _ h => by cases h
  | _ => cases hk

theorem length_evalAll {m : Machine} {es : List Expr} {vs : List Value} {h h' : Heap}
    (he : evalAll m env es h = .ok vs h') : vs.length = es.length := by
  induction es generalizing vs h with
  | nil =>
    simp only [evalAll] at he
    cases he
    rfl
  | cons e rest ih =>
    simp only [evalAll] at he
    obtain ⟨v, h₁, -, he⟩ := bind_eq_ok he
    obtain ⟨vs', h₂, hrest, he⟩ := bind_eq_ok he
    cases he
    rw [List.length_cons, List.length_cons, ih hrest]

theorem length_evalFields {m : Machine} {fs : List (String × Expr)} {vs : List Value} {h h' : Heap}
    (he : evalFields m env fs h = .ok vs h') : vs.length = fs.length := by
  induction fs generalizing vs h with
  | nil =>
    simp only [evalFields] at he
    cases he
    rfl
  | cons field rest ih =>
    obtain ⟨name, e⟩ := field
    simp only [evalFields] at he
    obtain ⟨v, h₁, -, he⟩ := bind_eq_ok he
    obtain ⟨vs', h₂, hrest, he⟩ := bind_eq_ok he
    cases he
    rw [List.length_cons, List.length_cons, ih hrest]

/-- What is no target has no place. -/
theorem holding_meaningless {m : Machine} {k : ExprKind} {own : Span} {f : ScopeId → Place → Calc Value}
    (hk : (Expr.node own k).isAssignable = false) :
    (holding env k fun env => evalPlace m env k >>= f env) = meaningless := by
  cases k with
  | ident | member | index => cases hk
  | _ =>
    simp only [holding, evalPlace]
    rfl

/-- Reading a place twice gives the same twice. -/
theorem read_twice {m : Machine} {P : Place} {f : Value → Value → Calc Value} :
    (P.read m env >>= fun a => P.read m env >>= fun b => f a b) = P.read m env >>= fun a => f a a := by
  funext h
  cases hr : P.read m env h with
  | error c h' => rw [bind_error hr, bind_error hr]
  | ok a h' =>
    have hh : h' = h := by
      cases P <;> simp only [Place.read, look] at hr <;> split at hr <;> cases hr <;> rfl
    subst hh
    rw [bind_ok hr, bind_ok hr, bind_ok hr]

/-- **The code of an expression computes its value.** -/
theorem Emits.means {p : Piece} {d d' : Draft} {L : Listing} (h : Emits p d L d')
    (hp : Every (Speaks names) p.nodes) (hP : d'.constants.toList <+: Z.pool.toList) : p.Means Z names L := by
  induction h with
  | literal => exact ⟨_, opcodes_asm _ _, first_poolIndex hP⟩
  | expr _ ih =>
    intro known env
    simp only [eval]
    exact ih hp hP known env
  | constant hk _ ih =>
    intro known env
    obtain ⟨i, hops, hi⟩ := ih .nil hP
    rw [hops]
    exact does_constant hk hi
  | badPattern hs _ _ =>
    intro known env
    simp only [evalKind, hs]
    exact does_meaningless
  | array _ ih =>
    intro known env
    simp only [evalKind, opcodes_append, opcodes_asm]
    refine (ih hp.tail hP known env []).seqOf fun vs _ _ hvs => ?_
    rw [← length_evalAll hvs]
    exact does_createArray.map fun _ => rfl
  | record _ ih =>
    intro known env
    simp only [evalKind, opcodes_append, opcodes_asm]
    refine (ih hp.tail hP known env []).seqOf fun vs _ _ hvs => ?_
    have hlen := length_evalFields hvs
    exact (does_createRecord (by simpa using hlen.symm)).map fun _ => rfl
  | ident =>
    intro known env
    obtain ⟨hn, hr⟩ := hp.head.2 _ List.mem_cons_self
    simp only [evalKind, opcodes_asm]
    exact does_fetch hn hr
  | this =>
    intro known env
    obtain ⟨hn, hr⟩ := hp.head.2 _ List.mem_cons_self
    simp only [evalKind, opcodes_asm]
    exact does_fetch hn hr
  | @member span object property d L d' _ ih =>
    intro known env
    have hn : property ≠ indexer := by simpa [Node.sparesIndexer] using hp.head.1
    simp only [evalKind, opcodes_append, opcodes_asm]
    exact (ih hp.tail hP known env).seq fun o => does_fetchProperty hn
  | index hL hK ihL ihK =>
    intro known env
    have hobject := ihL hp.tail.left (hK.pool_prefix.trans hP) known env
    have hkey := ihK hp.tail.right hP known env
    simp only [evalKind, opcodes_append, opcodes_asm, List.append_assoc]
    exact hobject.seq fun o => (hkey.under [o]).seq fun k => does_fetchElement
  | not hL hY hN ihL ihY ihN =>
    intro known env
    obtain ⟨y, hy, hyes⟩ := ihY .nil (hN.pool_prefix.trans hP)
    obtain ⟨n, hn, hno⟩ := ihN .nil hP
    have htest := ihL hp.tail (hY.pool_prefix.trans (hN.pool_prefix.trans hP)) known env
    simp only [evalKind, opcodes_append, opcodes_asm, hy, hn]
    refine (Does.either (.inl ⟨rfl, rfl⟩) htest (does_plain hyes nofun) (does_plain hno nofun)).congr ?_
    congr 1
    funext w
    cases w.isTruthy <;> rfl
  | negate hZ hL ihZ ihL =>
    intro known env
    obtain ⟨z, hz, hzero⟩ := ihZ .nil (hL.pool_prefix.trans hP)
    have hoperand := ihL hp.tail hP known env
    simp only [evalKind, opcodes_append, opcodes_asm, hz, List.append_assoc]
    exact (does_plain hzero nofun).seq fun z => (hoperand.under [z]).seq fun w => does_binary
  | @badUpdate span op giveNew target d L d' ht _ _ =>
    intro known env
    obtain ⟨own, k⟩ := target
    simp only [evalKind]
    rw [holding_meaningless ht]
    exact does_meaningless
  | @update span op giveNew own k place d K d₁ N d' hK hN ihK ihN =>
    intro known env
    obtain ⟨n, hn, hone⟩ := ihN .nil hP
    have hkeep := ihK hp.tail (hN.pool_prefix.trans hP)
    simp only [evalKind]
    refine hkeep _ _ (fun known env P hs => ?_) known env
    cases giveNew with
    | true =>
      simp only [if_true, opcodes_append, opcodes_asm, hn, List.append_assoc]
      exact hs.does_load.seq fun old => (does_plain hone nofun).seq fun one => does_binary.seq fun new =>
        hs.does_save.seq fun _ => hs.does_load
    | false =>
      simp only [Bool.false_eq_true, if_false, opcodes_append, opcodes_asm, hn, List.append_assoc]
      refine Does.congr ?_ (read_twice (f := fun first old => do
        let new ← look Z.world env fun m => (updateOp op).apply m.heap old (Literal.one.value 0)
        P.write Z.world env new
        return first))
      have hsave : ∀ first new, Z.Does names known env (ops (place.save span)).opcodes [new, first]
          (do P.write Z.world env new; return first) fun a => [a] := fun _ _ => hs.does_save.map fun _ => rfl
      exact hs.does_load.seq fun first => hs.does_load.seq fun old => (does_plain hone nofun).seq fun one =>
        does_binary.seq fun new => hsave first new
  | binary hL hR ihL ihR =>
    intro known env
    have hleft := ihL hp.tail.left (hR.pool_prefix.trans hP) known env
    have hright := ihR hp.tail.right hP known env
    simp only [evalKind, opcodes_append, opcodes_asm, List.append_assoc]
    exact hleft.seq fun a => (hright.under [a]).seq fun b => does_binary
  | @logical span op left right d L d₁ R d₂ O d' hL hR hO ihL ihR ihO =>
    intro known env
    obtain ⟨o, ho, hother⟩ := ihO .nil hP
    have hright := ihR hp.tail.right (hO.pool_prefix.trans hP) known env
    have hleft := ihL hp.tail.left (hR.pool_prefix.trans (hO.pool_prefix.trans hP)) known env
    cases op with
    | and =>
      simp only [evalKind, opcodes_append, opcodes_asm, ho]
      refine (Does.either (.inr ⟨rfl, rfl⟩) hleft hright (does_plain hother nofun)).congr ?_
      congr 1
      funext w
      cases w.isTruthy <;> rfl
    | or =>
      simp only [evalKind, opcodes_append, opcodes_asm, ho]
      exact Does.either (.inl ⟨rfl, rfl⟩) hleft hright (does_plain hother nofun)
  | @badAssign span op target value d L d' ht _ _ =>
    intro known env
    obtain ⟨own, k⟩ := target
    cases op with
    | none =>
      simp only [evalKind, ht, Bool.false_eq_true, if_false]
      exact does_meaningless
    | some op =>
      simp only [evalKind]
      rw [holding_meaningless ht]
      exact does_meaningless
  | @assignOp span op own k value place d K d₁ V d' hK hV ihK ihV =>
    intro known env
    have hkeep := ihK hp.tail.left (hV.pool_prefix.trans hP)
    simp only [evalKind]
    refine hkeep _ _ (fun known env P hs => ?_) known env
    have hvalue := ihV hp.tail.right hP known env
    have hsave : ∀ new, Z.Does names known env (ops (place.save span)).opcodes [new, new]
        (do P.write Z.world env new; return new) fun a => [a] := fun _ => hs.does_save.map fun _ => rfl
    simp only [opcodes_append, opcodes_asm, List.append_assoc]
    exact hs.does_load.seq fun old => (hvalue.under [old]).seq fun w => does_binary.seq fun new =>
      does_dup.seq fun _ => hsave new
  | @assign span own k value d V d₁ S d' hV hS ihV ihS =>
    intro known env
    have hvalue := ihV hp.tail.right (hS.pool_prefix.trans hP) known env
    obtain ⟨hk, hstore⟩ := ihS hp.tail.left hP
    have hk : (Expr.node own k).isAssignable = true := hk
    have hlast : ∀ w, Z.Does names known env S.opcodes [w, w]
        (do let place ← evalPlace Z.world env k; place.write Z.world env w; return w) fun a => [a] := by
      intro w
      refine ((hstore known env w [w]).map (g := fun _ => w) fun _ => rfl).congr ?_
      rw [bind_assoc]
    simp only [evalKind, hk, if_true, opcodes_append, opcodes_asm, List.append_assoc]
    exact hvalue.seq fun w => does_dup.seq fun _ => hlast w
  | conditional hT hY hN ihT ihY ihN =>
    intro known env
    have hno := ihN hp.tail.right hP known env
    have hyes := ihY hp.tail.left.right (hN.pool_prefix.trans hP) known env
    have htest := ihT hp.tail.left.left (hY.pool_prefix.trans (hN.pool_prefix.trans hP)) known env
    simp only [evalKind, opcodes_append, opcodes_asm]
    refine (Does.either (.inr ⟨rfl, rfl⟩) htest hyes hno).congr ?_
    congr 1
    funext w
    cases w.isTruthy <;> rfl
  | call | new | lambda =>
    intro known env
    simp only [evalKind]
    exact does_meaningless
  | exprsNil =>
    intro known env pre
    simp only [evalAll]
    exact .pure [] rfl
  | exprsCons hL hR ihL ihR =>
    intro known env pre
    have hfirst := ihL hp.left (hR.pool_prefix.trans hP) known env
    simp only [evalAll, opcodes_append]
    refine (hfirst.under pre).seq fun a => ?_
    exact (ihR hp.right hP known env (a :: pre)).map fun vs => by simp
  | fieldsNil =>
    intro known env pre
    simp only [evalFields]
    exact .pure [] rfl
  | fieldsCons hL hR ihL ihR =>
    intro known env pre
    have hfirst := ihL hp.left (hR.pool_prefix.trans hP) known env
    simp only [evalFields, opcodes_append]
    refine (hfirst.under pre).seq fun a => ?_
    exact (ihR hp.right hP known env (a :: pre)).map fun vs => by simp
  | operandsIdent =>
    intro U f hU known env
    obtain ⟨hn, hr⟩ := hp.head.2 _ List.mem_cons_self
    simp only [holding, evalPlace]
    exact hU known env _ (.plain hn hr)
  | @operandsMember span object property d L d' hL ih =>
    intro U f hU known env
    have hn : property ≠ indexer := by simpa [Node.sparesIndexer] using hp.head.1
    simp only [holding, evalPlace, bind_assoc, pure_bind, around, opcodes_within, opcodes_append, opcodes_keepAs]
    refine DoesHiding.scope fun env' => ?_
    refine DoesHiding.keep (ih hp.tail hP [] env') (reserved_parked d) nofun fun o => ?_
    exact (hU _ env' _ (.property List.mem_cons_self hn)).hiding
  | @operandsIndex span object key d L d₁ K d' hL hK ihL ihK =>
    intro U f hU known env
    have hpool : d₁.constants.toList <+: Z.pool.toList := hK.pool_prefix.trans hP
    have hne : (newParked d).1 ≠ (newParked d₁).1 := parked_ne hL.parked_le
    simp only [holding, evalPlace, bind_assoc, pure_bind, around, opcodes_within, opcodes_append,
      opcodes_keepAs]
    refine DoesHiding.scope fun env' => ?_
    rw [List.append_assoc, List.append_assoc]
    refine DoesHiding.keep (ihL hp.tail.left hpool [] env') (reserved_parked d) nofun fun o => ?_
    rw [← List.append_assoc]
    refine DoesHiding.keep (ihK hp.tail.right hP _ env') (reserved_parked d₁) ?_ fun k => ?_
    · intro b hb
      rw [List.mem_singleton.1 hb]
      exact hne
    · exact (hU _ env' _ (.element (List.mem_cons_of_mem _ List.mem_cons_self) List.mem_cons_self)).hiding
  | saveIdent =>
    refine ⟨rfl, fun known env w pre => ?_⟩
    obtain ⟨hn, hr⟩ := hp.head.2 _ List.mem_cons_self
    simp only [evalPlace, opcodes_asm]
    exact does_store hn hr
  | @saveMember span object property d L d' _ ih =>
    refine ⟨rfl, fun known env w pre => ?_⟩
    have hn : property ≠ indexer := by simpa [Node.sparesIndexer] using hp.head.1
    have hobject := ih hp.tail hP known env
    simp only [evalPlace, bind_assoc, pure_bind, opcodes_append, opcodes_asm]
    exact (hobject.under (w :: pre)).seq fun o => does_storeProperty hn
  | saveIndex hL hK ihL ihK =>
    refine ⟨rfl, fun known env w pre => ?_⟩
    have hobject := ihL hp.tail.left (hK.pool_prefix.trans hP) known env
    have hkey := ihK hp.tail.right hP known env
    simp only [evalPlace, bind_assoc, pure_bind, opcodes_append, opcodes_asm, List.append_assoc]
    exact (hobject.under (w :: pre)).seq fun o => (hkey.under (o :: w :: pre)).seq fun k => does_storeElement
  | defaultConstructor =>
    intro hthis known env
    simp only [evalReturn, opcodes_asm]
    exact does_fetch (hthis rfl) rfl
  | @defaultOther owner span d L d' ho hL ih =>
    intro _ known env
    obtain ⟨i, hops, hi⟩ := ih .nil hP
    rw [hops]
    have hundefined : evalReturn Z.world env owner none = Pure.pure .undefined := by
      cases owner with
      | constructor => exact absurd rfl ho
      | _ => rfl
    rw [hundefined]
    exact does_plain hi nofun
  | returnedNone _ ih => exact fun hthis => ih .nil hP (hthis rfl)
  | @returnedSome owner span e d L d' _ ih =>
    intro _ known env
    have hvalue : evalReturn Z.world env owner (some e) = eval Z.world env e := by cases owner <;> rfl
    rw [hvalue]
    exact ih hp hP known env
  | _ => trivial

end ScriptMachine.Compile
