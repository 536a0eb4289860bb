import ScriptMachine.Proofs.Compile.Pool

/-!
# Keys — finding constants without a search

`poolIndex` searches the pool for the key of a constant. A `KeyedPool` has a map from keys to places beside the pool and
need not search; it has room for so many constants, and refuses a new one when it is full. As long as there is room, map
and search give the same places and leave the same pool (`KeyedPool.add_eq`), so that the pool of a script can be kept
with a map from start to end (`Script.keyed`).
-/

namespace ScriptMachine

namespace Compile

/-- A pool and a map that knows the places of exactly the keys in it. -/
structure KeyedPool where
  constants : Array Literal
  places : List (LiteralKey × Nat)
  exact_places : ∀ key, places.lookup key = constants.findIdx? fun c => c.key == key

/-- The places that an instruction can name. -/
def maxConstants : Nat := 1 <<< 32

namespace KeyedPool

variable {k k' k'' : KeyedPool}

/-- A pool without constants. -/
def empty : KeyedPool := ⟨#[], [], fun _ => by simp⟩

/-- The map of a pool with one more constant, whose key is new. -/
theorem lookup_push (k : KeyedPool) {lit : Literal} (hnew : k.places.lookup lit.key = none) (key : LiteralKey) :
    ((lit.key, k.constants.size) :: k.places).lookup key = (k.constants.push lit).findIdx? fun c => c.key == key := by
  rw [Array.findIdx?_push, ← k.exact_places key, List.lookup_cons]
  by_cases hkey : key = lit.key
  · subst hkey
    simp [hnew]
  · simp [beq_eq_false_iff_ne.2 hkey, beq_eq_false_iff_ne.2 (Ne.symm hkey)]

/-- The place of a constant, where it is put if it is new and there is room. -/
def add (lit : Literal) (k : KeyedPool) : Option Nat × KeyedPool :=
  match hplace : k.places.lookup lit.key with
  | some i => (some i, k)
  | none =>
    if k.constants.size < maxConstants then
      (some k.constants.size, ⟨k.constants.push lit, (lit.key, k.constants.size) :: k.places, k.lookup_push hplace⟩)
    else (none, k)

/-- Map and search give the same place and leave the same pool. -/
theorem add_eq {d : Draft} (hk : k.constants = d.constants) (lit : Literal)
    (hroom : (poolIndex lit d).2.constants.size ≤ maxConstants) :
    (k.add lit).1 = some (poolIndex lit d).1 ∧ (k.add lit).2.constants = (poolIndex lit d).2.constants := by
  have hsearch := k.exact_places lit.key
  rw [hk] at hsearch
  unfold poolIndex at hroom ⊢
  unfold add
  split
  · rename_i i hplace
    rw [hplace] at hsearch
    rw [← hsearch]
    exact ⟨rfl, hk⟩
  · rename_i hplace
    rw [hplace] at hsearch
    rw [← hsearch] at hroom ⊢
    have hlt : k.constants.size < maxConstants := by
      rw [hk]
      exact Nat.lt_of_succ_le (by simpa using hroom)
    rw [if_pos hlt]
    exact ⟨congrArg (fun pool => some pool.size) hk, congrArg (·.push lit) hk⟩

/-- Constants are added one after the other, and none is refused. -/
inductive Fills : KeyedPool → KeyedPool → Prop where
  | refl (k : KeyedPool) : Fills k k
  | add {k k' : KeyedPool} {lit : Literal} {n : Nat} : Fills k k' → (k'.add lit).1 = some n → Fills k (k'.add lit).2

theorem Fills.trans (h : Fills k k') (h' : Fills k' k'') : Fills k k'' := by
  induction h' with
  | refl => exact h
  | add _ hn ih => exact ih.add hn

end KeyedPool

/-- A pool grows, and if there is room for what it becomes, it can be kept with a map. -/
structure Keyed (pool pool' : Array Literal) : Prop where
  size : pool.size ≤ pool'.size
  fills : pool'.size ≤ maxConstants → ∀ k : KeyedPool, k.constants = pool → ∃ k', k.Fills k' ∧ k'.constants = pool'

namespace Keyed

variable {pool pool' pool'' : Array Literal}

theorem refl (pool : Array Literal) : Keyed pool pool := ⟨Nat.le_refl _, fun _ k hk => ⟨k, .refl k, hk⟩⟩

theorem trans (h : Keyed pool pool') (h' : Keyed pool' pool'') : Keyed pool pool'' where
  size := Nat.le_trans h.size h'.size
  fills hroom k hk := by
    obtain ⟨k₁, hfills, hk₁⟩ := h.fills (Nat.le_trans h'.size hroom) k hk
    obtain ⟨k₂, hfills', hk₂⟩ := h'.fills hroom k₁ hk₁
    exact ⟨k₂, hfills.trans hfills', hk₂⟩

theorem literal (lit : Literal) (d : Draft) : Keyed d.constants (poolIndex lit d).2.constants where
  size := (prefix_poolIndex lit d).length_le
  fills hroom k hk := by
    obtain ⟨hplace, hpool⟩ := KeyedPool.add_eq hk lit hroom
    exact ⟨_, .add (.refl k) hplace, hpool⟩

end Keyed

/-- Whatever is compiled, the pool can be kept with a map. -/
theorem Emits.keyed {p : Piece} {d d' : Draft} {L : Listing} (h : Emits p d L d') :
    Keyed d.constants d'.constants := by
  induction h with
  | literal => exact .literal _ _
  | ident | this | exprsNil | fieldsNil | exprThenNone | operandsIdent | saveIdent | defaultConstructor | finished
  | methodsNil | stmtNone | stmtsNil | strayBreak | strayContinue | strayReturn | repeatedClass | debugger | empty
  | noHandler | finalNone | leaveZero | leaveNil => exact .refl _
  | expr _ ih | constant _ _ ih | badPattern _ _ ih | array _ ih | record _ ih | member _ ih | badUpdate _ _ ih
  | badAssign _ _ ih | new _ ih | lambda _ ih | exprThenSome _ ih | operandsMember _ ih | saveMember _ ih
  | calleeMember _ ih | calleeOther _ _ ih | defaultOther _ _ ih | unfinished _ _ ih | stmt _ ih | stmtSome _ ih
  | exprStmt _ ih | var _ ih | block _ ih | «break» _ _ ih | «continue» _ _ ih | ret _ _ _ ih | throw _ ih
  | functionStmt _ ih | «class» _ _ ih | returnedNone _ ih | returnedSome _ ih | handlerParam _ ih | handler _ ih
  | finalSome _ ih | leaveLoop _ ih | leavePending _ ih => exact ih
  | index _ _ ih₁ ih₂ | negate _ _ ih₁ ih₂ | update _ _ ih₁ ih₂ | binary _ _ ih₁ ih₂ | assignOp _ _ ih₁ ih₂
  | assign _ _ ih₁ ih₂ | call _ _ ih₁ ih₂ | exprsCons _ _ ih₁ ih₂ | fieldsCons _ _ ih₁ ih₂ | operandsIndex _ _ ih₁ ih₂
  | saveIndex _ _ ih₁ ih₂ | calleeIndex _ _ ih₁ ih₂ | body _ _ ih₁ ih₂ | methodsCons _ _ ih₁ ih₂ | stmtsCons _ _ ih₁ ih₂
  | «while» _ _ ih₁ ih₂ | retLeaving _ _ _ _ ih₁ ih₂ | leaveRegion _ _ ih₁ ih₂ => exact ih₁.trans ih₂
  | not _ _ _ ih₁ ih₂ ih₃ | logical _ _ _ ih₁ ih₂ ih₃ | conditional _ _ _ ih₁ ih₂ ih₃ | cond _ _ _ ih₁ ih₂ ih₃ =>
    exact ih₁.trans (ih₂.trans ih₃)
  | «for» _ _ _ _ ih₁ ih₂ ih₃ ih₄ | «try» _ _ _ _ ih₁ ih₂ ih₃ ih₄ => exact ih₁.trans (ih₂.trans (ih₃.trans ih₄))

end Compile

open Compile

/-- The pool of a script with no more constants than instructions can name, kept with a map. -/
theorem Script.keyed (script : Script) (hroom : script.draft.2.constants.size ≤ maxConstants) :
    ∃ k, KeyedPool.empty.Fills k ∧ k.constants = script.draft.2.constants := by
  obtain ⟨L, hL, -⟩ := emits_draft script
  exact hL.keyed.fills hroom .empty rfl

end ScriptMachine
