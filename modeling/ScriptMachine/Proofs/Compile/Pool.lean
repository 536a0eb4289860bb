import ScriptMachine.Proofs.Compile.Naming

/-!
# Pool — the constants of a program

Code names constants by their places in a pool. The pool holds no two constants of one type and payload, and every
constant that is compiled for a piece of the script is in the place that its instruction names, wherever in the script
the piece stands and whatever else goes into the pool (`Script.pool_faithful`).
-/

namespace ScriptMachine

open Compile Segment

/-- The type and the payload of a constant: a number by its bits, a pattern by its text. Other values are no
constants. -/
def Value.constantKey? : Value → Option LiteralKey
  | .undefined => some .undefined
  | .null => some .null
  | .bool b => some (.bool b)
  | .number bits => some (.number bits)
  | .string s => some (.string s)
  | .regex _ pattern => some (.regex pattern.source)
  | _ => none

namespace Compile

@[simp] theorem constantKey?_value (lit : Literal) (n : Nat) : (lit.value n).constantKey? = some lit.key := by
  cases lit <;> rfl

/-! ### Pools -/

/-- A pattern is the one that its text is compiled to. -/
def Literal.Genuine : Literal → Prop
  | .regex pattern => Pattern.compile pattern.source = .ok pattern
  | _ => True

/-- A genuine constant is known by its key. -/
theorem Literal.Genuine.eq_of_key {a b : Literal} (ha : a.Genuine) (hb : b.Genuine) (hkey : a.key = b.key) : a = b := by
  by_cases hregex : ∃ q, b = .regex q
  · obtain ⟨q, rfl⟩ := hregex
    cases a with
    | regex q' =>
      have hsource : q'.source = q.source := by simpa [Literal.key] using hkey
      have hq' : Pattern.compile q'.source = .ok q' := ha
      rw [hsource, show Pattern.compile q.source = .ok q from hb] at hq'
      rw [Except.ok.inj hq']
    | _ => cases hkey
  · exact Compile.eq_of_key hkey fun q hq => hregex ⟨q, hq⟩

theorem source_of_compile {source : String} {q : Pattern} (h : Pattern.compile source = .ok q) : q.source = source := by
  unfold Pattern.compile at h
  split at h
  · cases h
  · split at h
    · cases h
      rfl
    · cases h

theorem genuine_of_literal? {k : ExprKind} {lit : Literal} (h : literal? k = some lit) : lit.Genuine := by
  unfold literal? at h
  split at h <;> try (cases h; trivial)
  · split at h
    · rename_i source q hq
      cases h
      change Pattern.compile q.source = .ok q
      rw [source_of_compile hq, hq]
    · cases h
  · cases h

/-- A pool of genuine constants that are told apart by their keys. -/
structure Interned (pool : Array Literal) : Prop where
  genuine : ∀ lit ∈ pool, lit.Genuine
  distinct : ∀ {i j : Nat} {a b : Literal}, pool[i]? = some a → pool[j]? = some b → a.key = b.key → i = j

theorem Interned.empty : Interned #[] := ⟨nofun, fun ha => nomatch ha⟩

/-- A constant goes into the pool only if there is none of its key. -/
theorem Interned.poolIndex {d : Draft} {lit : Literal} (h : Interned d.constants) (hlit : lit.Genuine) :
    Interned (Compile.poolIndex lit d).2.constants := by
  unfold Compile.poolIndex
  cases hfind : d.constants.findIdx? fun c => c.key == lit.key with
  | some i => exact h
  | none =>
    have hnew : ∀ c ∈ d.constants, c.key ≠ lit.key := by
      simpa using Array.findIdx?_eq_none_iff.1 hfind
    refine ⟨fun c hc => ?_, fun {i j a b} ha hb hkey => ?_⟩
    · rcases Array.mem_push.1 hc with hc | rfl
      · exact h.genuine c hc
      · exact hlit
    · simp only [Array.getElem?_push] at ha hb
      split at ha <;> split at hb
      · omega
      · cases ha
        exact absurd hkey.symm (hnew b (Array.mem_of_getElem? hb))
      · cases hb
        exact absurd hkey (hnew a (Array.mem_of_getElem? ha))
      · exact h.distinct ha hb hkey

/-- A constant that is compiled by itself is genuine. -/
def Piece.Genuine : Piece → Prop
  | .literal _ lit => lit.Genuine
  | _ => True

/-- Whatever is compiled, the pool stays interned. -/
theorem Emits.interned {p : Piece} {d d' : Draft} {L : Listing} (h : Emits p d L d') (hp : p.Genuine)
    (hd : Interned d.constants) : Interned d'.constants := by
  induction h with
  | literal => exact hd.poolIndex hp
  | constant hk _ ih => exact ih (genuine_of_literal? hk) hd
  | ident | this | exprsNil | fieldsNil | exprThenNone | operandsIdent | saveIdent | defaultConstructor | finished
  | methodsNil | stmtNone | stmtsNil | strayBreak | strayContinue | strayReturn | repeatedClass | debugger | empty
  | noHandler | finalNone | leaveZero | leaveNil => exact hd
  | expr _ ih | badPattern _ _ ih | array _ ih | record _ ih | member _ ih | badUpdate _ _ ih | badAssign _ _ ih
  | new _ ih | lambda _ ih | exprThenSome _ ih | operandsMember _ ih | saveMember _ ih | calleeMember _ ih | calleeOther _ _ ih
  | defaultOther _ _ ih | unfinished _ _ ih | stmt _ ih | stmtSome _ ih | exprStmt _ ih | var _ ih | block _ ih
  | «break» _ _ ih | «continue» _ _ ih | ret _ _ _ ih | throw _ ih | functionStmt _ ih | «class» _ _ ih
  | returnedNone _ ih | returnedSome _ ih | handlerParam _ ih | handler _ ih | finalSome _ ih | leaveLoop _ ih
  | leavePending _ ih => exact ih trivial hd
  | index _ _ ih₁ ih₂ | negate _ _ ih₁ ih₂ | update _ _ ih₁ ih₂ | binary _ _ ih₁ ih₂ | assignOp _ _ ih₁ ih₂
  | assign _ _ ih₁ ih₂ | call _ _ ih₁ ih₂ | exprsCons _ _ ih₁ ih₂ | fieldsCons _ _ ih₁ ih₂ | operandsIndex _ _ ih₁ ih₂
  | saveIndex _ _ ih₁ ih₂ | calleeIndex _ _ ih₁ ih₂ | body _ _ ih₁ ih₂ | methodsCons _ _ ih₁ ih₂ | stmtsCons _ _ ih₁ ih₂
  | «while» _ _ ih₁ ih₂ | retLeaving _ _ _ _ ih₁ ih₂ | leaveRegion _ _ ih₁ ih₂ => exact ih₂ trivial (ih₁ trivial hd)
  | not _ _ _ ih₁ ih₂ ih₃ | logical _ _ _ ih₁ ih₂ ih₃ | conditional _ _ _ ih₁ ih₂ ih₃ | cond _ _ _ ih₁ ih₂ ih₃ =>
    exact ih₃ trivial (ih₂ trivial (ih₁ trivial hd))
  | «for» _ _ _ _ ih₁ ih₂ ih₃ ih₄ | «try» _ _ _ _ ih₁ ih₂ ih₃ ih₄ =>
    exact ih₄ trivial (ih₃ trivial (ih₂ trivial (ih₁ trivial hd)))

/-! ### Constants of a piece -/

/-- The constants that the code of an expression names by itself: its value if it is a literal, and those that stand in
for operations which have no instruction of their own. -/
def ownConstants : ExprKind → List Literal
  | .not _ => [.bool true, .bool false]
  | .negate _ => [.zero]
  | .update _ _ _ => [.one]
  | .logical .and _ _ => [.bool false]
  | .logical .or _ _ => [.bool true]
  | k => (literal? k).toList

/-- The constants that the code of a piece names by itself, in order. A body that is not a constructor returns
`undefined`. -/
def Piece.constants : Piece → List Literal
  | .kind _ k => ownConstants k
  | .default .constructor _ => []
  | .default _ _ => [.undefined]
  | _ => []

theorem ownConstants_of_literal? {k : ExprKind} {lit : Literal} (h : literal? k = some lit) :
    ownConstants k = [lit] := by
  cases k with
  | not | negate | update | logical => cases h
  | _ => exact (congrArg Option.toList h).trans rfl

/-- A constant that is part of a piece. -/
def Segment.constant? : Segment → Option Literal
  | .part e =>
    match e.piece with
    | .literal _ lit => some lit
    | _ => none
  | _ => none

/-- The constants of a piece are its parts. -/
theorem Emission.Splits.constants {e : Emission} {segments : List Segment} (h : e.Splits segments)
    (hok : e.after.problems = []) : segments.filterMap Segment.constant? = e.piece.constants := by
  cases h with
  | constant hk => exact (ownConstants_of_literal? hk).symm
  | badPattern _ h | badUpdate _ h | badAssign _ h => exact absurd hok h.problems_ne_nil
  | @update _ _ _ _ place | @updateOld _ _ _ _ place | @assignOp _ _ _ _ _ place => cases place <;> rfl
  | @logical _ op => cases op <;> rfl
  | @defaultOther kind => cases kind <;> first | contradiction | rfl
  | _ => rfl

/-- Operations other than constants. -/
def constsNone (l : List Opcode) : Bool := l.all fun op => !(op matches .const _)

theorem const_notMem {l : List Opcode} (h : constsNone l = true) (n : Nat) : .const n ∉ l := fun hmem =>
  nomatch List.all_eq_true.1 h _ hmem

/-- A piece whose own operations behind an expression, if there are any, are no constants. -/
def Piece.isMute : Piece → Bool
  | .exprThen _ after _ => constsNone after
  | _ => true

/-- Every part is such a piece. -/
theorem Emission.Splits.mute {e e' : Emission} {segments : List Segment} (h : e.Splits segments)
    (hmem : .part e' ∈ segments) : e'.piece.isMute = true := by
  suffices hall : segments.all (fun | .part e' => e'.piece.isMute | _ => true) = true from
    List.all_eq_true.1 hall _ hmem
  cases h with
  | @update _ _ _ _ place | @updateOld _ _ _ _ place | @assignOp _ _ _ _ _ place => cases place <;> rfl
  | _ => rfl

/-- Only the code of a constant names one. -/
theorem Emission.Splits.literal_of_const {e : Emission} {segments : List Segment} (h : e.Splits segments)
    (hmute : e.piece.isMute = true) {n : Nat} (hmem : .const n ∈ ownOps segments) :
    ∃ span lit, e.piece = .literal span lit := by
  cases h with
  | literal => exact ⟨_, _, rfl⟩
  | @exprThenSome _ after =>
    have hafter : .const n ∈ after := by simpa [ownOps, ops, emit] using hmem
    exact absurd hafter (const_notMem hmute n)
  | @update _ _ _ _ place | @updateOld _ _ _ _ place | @assignOp _ _ _ _ _ place =>
    cases place <;> exact absurd hmem (const_notMem rfl n)
  | @logical _ op => cases op <;> exact absurd hmem (const_notMem rfl n)
  | _ => exact absurd hmem (const_notMem rfl n)

/-- Constants of expressions are genuine. -/
theorem genuine_of_mem_constants {p : Piece} {lit : Literal} (h : lit ∈ p.constants) : lit.Genuine := by
  unfold Piece.constants at h
  split at h
  · unfold ownConstants at h
    split at h
    · rcases List.mem_pair.1 h with rfl | rfl <;> trivial
    · obtain rfl := List.mem_singleton.1 h
      trivial
    · obtain rfl := List.mem_singleton.1 h
      trivial
    · obtain rfl := List.mem_singleton.1 h
      trivial
    · obtain rfl := List.mem_singleton.1 h
      trivial
    · exact genuine_of_literal? (Option.mem_toList.1 h)
  · cases h
  · obtain rfl := List.mem_singleton.1 h
    trivial
  · cases h

/-- A constant is compiled by a rule of its own. -/
theorem Emission.literal {e : Emission} {span : Span} {lit : Literal} (h : e.piece = .literal span lit) :
    ∃ d, e = .of (@Emits.literal span lit d) := by
  obtain ⟨piece, d, listing, d', hemits⟩ := e
  cases h
  cases hemits
  exact ⟨d, rfl⟩

/-- A piece that names constants splits. -/
theorem Emission.exists_splits {e : Emission} {lit : Literal} (h : lit ∈ e.piece.constants) :
    ∃ segments, e.Splits segments := by
  induction e using Emission.induct with
  | split e segments hsplit => exact ⟨segments, hsplit⟩
  | body => cases h

end Compile

variable {script : Script} {p : Program} {x pc : Nat}

/-- The pool of a piece is the beginning of the pool of the script. -/
theorem Script.Emitted.pool_kept {e : Emission} (h : script.Emitted x pc e) :
    e.after.constants.toList <+: script.draft.2.constants.toList := by
  induction h with
  | script => exact List.prefix_refl _
  | part _ hsplit ih => exact hsplit.links.part.2.stays.pool.trans ih
  | body _ hF _ ih => exact (Emission.of hF).grows.stays.pool.trans ih
  | finish _ _ _ ih => exact ih

/-- Only operations that belong to a piece stand behind an expression. -/
theorem Script.Emitted.mute {e : Emission} (h : script.Emitted x pc e) : e.piece.isMute = true := by
  cases h with
  | part _ hsplit => exact hsplit.mute (List.mem_append_right _ List.mem_cons_self)
  | _ => rfl

/-- The code of a constant that a piece names begins at a place. -/
def Script.ConstantAt (script : Script) (x pc : Nat) (piece : Piece) (lit : Literal) : Prop :=
  ∃ start e before e' after span, script.Emitted x start e ∧ e.piece = piece ∧
    e.Splits (before ++ .part e' :: after) ∧ e'.piece = .literal span lit ∧ pc = start + (codes before).length

/-- A constant is part of a piece. -/
theorem Script.Emitted.constantAt {e : Emission} {span : Span} {lit : Literal} (h : script.Emitted x pc e)
    (hpiece : e.piece = .literal span lit) : ∃ piece, script.ConstantAt x pc piece lit := by
  cases h with
  | script | body | finish => cases hpiece
  | part h hsplit => exact ⟨_, _, _, _, _, _, span, h, rfl, hsplit, hpiece, rfl⟩

/-- Wherever an instruction pushes a constant, a piece names one. -/
theorem Script.exists_constantAt (hc : script.compile = .ok p) {i : Instruction} (hi : p.instruction? x pc = some i)
    {n : Nat} : i.op = .const n → ∃ piece lit, script.ConstantAt x pc piece lit := by
  refine forall_instruction (Q := fun x pc i => i.op = .const n → ∃ piece lit, script.ConstantAt x pc piece lit) hc
    ?_ (fun _ _ _ h => h) nofun hi
  intro x pc e before code bare after h hsplit k i hk hop
  have hmem : .const n ∈ ownOps (before ++ .own code bare :: after) :=
    hop ▸ mem_ownOps (List.mem_append_right _ List.mem_cons_self) (List.mem_of_getElem? hk)
  obtain ⟨span, lit, hpiece⟩ := hsplit.literal_of_const h.mute hmem
  obtain ⟨piece, hplace⟩ := h.constantAt hpiece
  -- the code of a constant is one instruction
  have hone : (codes before).length + k < 1 := by
    have hcode := hsplit.code
    obtain ⟨d, rfl⟩ := Emission.literal hpiece
    have hlength := congrArg List.length hcode
    have hlt := (List.getElem?_eq_some_iff.1 hk).1
    simp [emit, Segment.code] at hlength
    omega
  rw [Nat.lt_one_iff.1 hone]
  exact ⟨piece, lit, hplace⟩

namespace Script.ConstantAt

variable {piece : Piece} {lit : Literal}

/-- The constant is one that the piece names. -/
theorem mem (hc : script.compile = .ok p) (h : script.ConstantAt x pc piece lit) : lit ∈ piece.constants := by
  obtain ⟨start, e, before, e', after, span, hplace, rfl, hsplit, hpiece, rfl⟩ := h
  rw [← hsplit.constants (hplace.sound hc)]
  exact List.mem_filterMap.2 ⟨.part e', List.mem_append_right _ List.mem_cons_self, by rw [constant?, hpiece]⟩

/-- The instruction names the place of exactly this constant, which may have been put there long before, and is not
moved by what is put there later. -/
theorem names (hc : script.compile = .ok p) (h : script.ConstantAt x pc piece lit) :
    ∃ i n, p.instruction? x pc = some i ∧ i.op = .const n ∧ p.constants[n]? = some (lit.value n) := by
  have hgenuine : lit.Genuine := genuine_of_mem_constants (h.mem hc)
  obtain ⟨start, e, before, e', after, span, hplace, rfl, hsplit, hpiece, rfl⟩ := h
  have hpart := hplace.part hsplit
  obtain ⟨d, rfl⟩ := Emission.literal hpiece
  obtain ⟨i, hi, hstands⟩ := hpart.lies hc 0 _ rfl
  obtain ⟨c, hc', hkey⟩ := (first_poolIndex hpart.pool_kept).found
  obtain ⟨L, hL, -⟩ := emits_draft script
  have hpool := hL.interned trivial .empty
  obtain rfl : c = lit := (hpool.genuine c (Array.mem_of_getElem? hc')).eq_of_key hgenuine hkey
  refine ⟨i, (poolIndex c d).1, hi, hstands.op, ?_⟩
  rw [(assemble_ok (program_of_compile hc)).2.1, Array.getElem?_mapIdx, hc']
  rfl

end Script.ConstantAt

/-- **The pool is faithful.** Every constant of a compiled script is `undefined`, `null`, a boolean, a number, a text or
a pattern, and no two have one type and payload. An instruction pushes a constant exactly where a piece of the script
names one: each constant of a piece has its place in the code of the piece, wherever the piece was compiled to, and the
instruction there names an entry of exactly this type and payload. -/
theorem Script.pool_faithful (hc : script.compile = .ok p) :
    (∀ v ∈ p.constants, v.constantKey?.isSome) ∧
    (∀ (i j : Nat) (v w : Value), p.constants[i]? = some v → p.constants[j]? = some w →
      v.constantKey? = w.constantKey? → i = j) ∧
    (∀ x pc i n, p.instruction? x pc = some i → i.op = .const n → ∃ piece lit, script.ConstantAt x pc piece lit) ∧
    (∀ x pc e lit, script.Emitted x pc e → lit ∈ e.piece.constants →
      ∃ k, script.ConstantAt x (pc + k) e.piece lit) ∧
    ∀ x pc piece lit, script.ConstantAt x pc piece lit → lit ∈ piece.constants ∧
      ∃ i n, p.instruction? x pc = some i ∧ i.op = .const n ∧ p.constants[n]? = some (lit.value n) := by
  have hentry : ∀ {i : Nat} {v : Value}, p.constants[i]? = some v →
      ∃ c : Literal, script.draft.2.constants[i]? = some c ∧ v = c.value i := by
    intro i v hv
    rw [(assemble_ok (program_of_compile hc)).2.1, Array.getElem?_mapIdx] at hv
    obtain ⟨c, hc', rfl⟩ := Option.map_eq_some_iff.1 hv
    exact ⟨c, hc', rfl⟩
  refine ⟨fun v hv => ?_, fun i j v w hv hw hkey => ?_, fun x pc i n hi hop => exists_constantAt hc hi hop,
    fun x pc e lit hplace hmem => ?_, fun x pc piece lit hat => ⟨hat.mem hc, hat.names hc⟩⟩
  · obtain ⟨i, hi, rfl⟩ := Array.mem_iff_getElem.1 hv
    obtain ⟨c, -, hvalue⟩ := hentry (Array.getElem?_eq_getElem hi)
    rw [hvalue, constantKey?_value]
    rfl
  · obtain ⟨a, ha, rfl⟩ := hentry hv
    obtain ⟨b, hb, rfl⟩ := hentry hw
    rw [constantKey?_value, constantKey?_value] at hkey
    obtain ⟨L, hL, -⟩ := emits_draft script
    exact (hL.interned trivial .empty).distinct ha hb (Option.some.inj hkey)
  · obtain ⟨segments, hsplit⟩ := Emission.exists_splits hmem
    rw [← hsplit.constants (hplace.sound hc)] at hmem
    obtain ⟨s, hs, hconstant⟩ := List.mem_filterMap.1 hmem
    obtain ⟨before, after, rfl⟩ := List.append_of_mem hs
    cases s with
    | own | given => cases hconstant
    | part e' =>
      rw [constant?] at hconstant
      split at hconstant
      · rename_i span _ hpiece
        cases hconstant
        exact ⟨_, pc, e, before, e', after, span, hplace, rfl, hsplit, hpiece, rfl⟩
      · cases hconstant

/-- `[0, -0, NaN, "0", /a/]; function f() { return [NaN, /a/]; }` -/
def Script.pooling : Script :=
  { body := [
      .node .unknown (.expr (.node .unknown (.array [
        .node .unknown (.number 0), .node .unknown (.number 0x8000000000000000),
        .node .unknown (.number 0x7ff8000000000000), .node .unknown (.string "0"), .node .unknown (.regex "a")]))),
      .node .unknown (.function "f" [] [.node .unknown (.ret (some (.node .unknown (.array [
        .node .unknown (.number 0x7ff8000000000000), .node .unknown (.regex "a")]))))])] }

/-- Zeros of both signs stay apart, and the function names the constants of the script. -/
theorem Script.pool_faithful_pooling : ∃ p, pooling.compile = .ok p ∧
    p.constants.toList.map Value.constantKey? = [some (.number 0), some (.number 0x8000000000000000),
      some (.number 0x7ff8000000000000), some (.string "0"), some (.regex "a")] ∧
    ∃ piece lit, pooling.ConstantAt 1 1 piece lit ∧ lit.key = .regex "a" ∧ p.constants[4]? = some (lit.value 4) := by
  have hchecked : pooling.compile.toOption.any (fun p =>
      p.constants.toList.map Value.constantKey? == [some (.number 0), some (.number 0x8000000000000000),
        some (.number 0x7ff8000000000000), some (.string "0"), some (.regex "a")] &&
      (p.instruction? 1 1).any (·.op == .const 4)) = true := by
    decide +kernel
  cases hp : pooling.compile with
  | error cause =>
    rw [hp] at hchecked
    cases hchecked
  | ok p =>
    rw [hp] at hchecked
    simp only [Except.toOption, Option.any_some, Bool.and_eq_true, beq_iff_eq, Option.any_eq_true] at hchecked
    obtain ⟨hkeys, i, hi, hop⟩ := hchecked
    obtain ⟨-, -, hplaced, -, hnamed⟩ := pool_faithful hp
    obtain ⟨piece, lit, hat⟩ := hplaced 1 1 i 4 hi hop
    obtain ⟨-, j, n, hj, hn, hentry⟩ := hnamed 1 1 piece lit hat
    rw [hi] at hj
    cases hj
    rw [hop] at hn
    cases hn
    have hkey := congrArg (·[4]?) hkeys
    simp only [List.getElem?_map, Array.getElem?_toList, hentry, Option.map_some, constantKey?_value] at hkey
    exact ⟨p, rfl, hkeys, piece, lit, hat, Option.some.inj (Option.some.inj hkey), hentry⟩

end ScriptMachine
