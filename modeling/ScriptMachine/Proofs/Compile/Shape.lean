import ScriptMachine.Proofs.Compile.Listing

/-!
# Shape — what lies on the stack at each instruction

The shape at an instruction says which entries lie above the frame of the running body, and how many
scopes the body has opened. `Step` gives the shape after an instruction and the shapes that its
labels must have; `Flow` puts these together along a listing. The labels inside a listing may be
reached from anywhere in it, so `Flow` asks that all of them be known and lets them be used freely.
-/

namespace ScriptMachine.Compile

open Listing

/-- An entry as far as the code knows it. A marker remembers the number of open scopes. -/
inductive Slot where
  | value
  | loop (scopes : Nat)
  | region (scopes : Nat)
  deriving DecidableEq, Repr

/-- The kind of the entry in a slot. -/
def Slot.kind : Slot → EntryKind
  | .value => .value
  | .loop _ => .loop
  | .region _ => .region

/-- The scopes that a body has opened, and its entries on the stack, the top first. -/
structure Shape where
  scopes : Nat
  slots : List Slot
  deriving DecidableEq, Repr

/-- Nothing opened and nothing on the stack. -/
def Shape.empty : Shape := ⟨0, []⟩

/-- Slots below a number of values. -/
def values (n : Nat) (s : List Slot) : List Slot := List.replicate n .value ++ s

theorem values_succ (n : Nat) (s : List Slot) : values (n + 1) s = .value :: values n s := rfl

theorem values_value (n : Nat) (s : List Slot) : values n (.value :: s) = .value :: values n s := by
  induction n with
  | zero => rfl
  | succ n ih => rw [values_succ, values_succ, ih]

/-- What is known of a section: the size of the pool, whether it is the script, and the shapes at
its labels. -/
structure Plan where
  pool : Nat
  script : Bool
  labels : List (Nat × Shape) := []

/-- A plan with more labels. -/
def Plan.with (P : Plan) (more : List (Nat × Shape)) : Plan := { P with labels := more ++ P.labels }

/-- The shape after an instruction. Where control never comes, any shape will do. -/
inductive Step (P : Plan) : Opcode → Shape → Shape → Prop where
  | nop {σ} : Step P .nop σ σ
  | label {l σ} : Step P (.label l) σ σ
  | const {i k s} : i < P.pool → Step P (.const i) ⟨k, s⟩ ⟨k, .value :: s⟩
  | dup {k s} : Step P .dup ⟨k, .value :: s⟩ ⟨k, .value :: .value :: s⟩
  | pop {k s} : Step P .pop ⟨k, .value :: s⟩ ⟨k, s⟩
  | fetch {name k s} : Step P (.fetch name) ⟨k, s⟩ ⟨k, .value :: s⟩
  | fetchProperty {name k s} : name ≠ indexer →
      Step P (.fetchProperty name) ⟨k, .value :: s⟩ ⟨k, .value :: s⟩
  | fetchElement {k s} : Step P (.fetchProperty indexer) ⟨k, .value :: .value :: s⟩ ⟨k, .value :: s⟩
  | store {name k s} : Step P (.store name) ⟨k, .value :: s⟩ ⟨k, s⟩
  | storeProperty {name k s} : name ≠ indexer →
      Step P (.storeProperty name) ⟨k, .value :: .value :: s⟩ ⟨k, s⟩
  | storeElement {k s} :
      Step P (.storeProperty indexer) ⟨k, .value :: .value :: .value :: s⟩ ⟨k, s⟩
  | declare {name σ} : Step P (.declare name) σ σ
  | binary {op k s} : Step P (.binary op) ⟨k, .value :: .value :: s⟩ ⟨k, .value :: s⟩
  | jump {l σ τ} : (l, σ) ∈ P.labels → Step P (.jump l) σ τ
  | jumpTrue {l k s} : (l, ⟨k, s⟩) ∈ P.labels → Step P (.jumpTrue l) ⟨k, .value :: s⟩ ⟨k, s⟩
  | jumpFalse {l k s} : (l, ⟨k, s⟩) ∈ P.labels → Step P (.jumpFalse l) ⟨k, .value :: s⟩ ⟨k, s⟩
  | call {n k s} : Step P (.call n false) ⟨k, .value :: values n s⟩ ⟨k, .value :: s⟩
  | callMethod {n k s} : Step P (.call n true) ⟨k, .value :: .value :: values n s⟩ ⟨k, .value :: s⟩
  | ret {k τ} : P.script = false → Step P .ret ⟨k, [.value]⟩ τ
  | enterScope {k s} : Step P .enterScope ⟨k, s⟩ ⟨k + 1, s⟩
  | leaveScope {k s} : Step P .leaveScope ⟨k + 1, s⟩ ⟨k, s⟩
  | loopStart {k s} : Step P .loopStart ⟨k, s⟩ ⟨k, .loop k :: s⟩
  | loopEnd {j k s} : Step P .loopEnd ⟨k, .loop j :: s⟩ ⟨k, s⟩
  | loopExit {l j k s τ} : (l, ⟨j, .loop j :: s⟩) ∈ P.labels →
      Step P (.loopExit l) ⟨k, .loop j :: s⟩ τ
  | tryStart {h f k s} : (h, ⟨k, .value :: s⟩) ∈ P.labels →
      (∀ l, f = some l → (l, ⟨k, .value :: s⟩) ∈ P.labels) →
      Step P (.tryStart h f false) ⟨k, s⟩ ⟨k, .region k :: s⟩
  | tryKeep {h k s} : (h, ⟨k, .value :: s⟩) ∈ P.labels →
      Step P (.tryStart h none true) ⟨k, .value :: s⟩ ⟨k, .value :: .region k :: s⟩
  | tryEnd {j k s} : Step P .tryEnd ⟨k, .region j :: s⟩ ⟨k, s⟩
  | throw {k s τ} : Step P .throw ⟨k, .value :: s⟩ τ
  | createObject {c n k s} : Step P (.createObject c n) ⟨k, values n s⟩ ⟨k, .value :: s⟩
  | createArray {n k s} : Step P (.createArray n) ⟨k, values n s⟩ ⟨k, .value :: s⟩
  | createRecord {keys k s} :
      Step P (.createRecord keys) ⟨k, values keys.length s⟩ ⟨k, .value :: s⟩
  | debugger {σ} : Step P .debugger σ σ
  | eof {k τ} : P.script = true → Step P .eof ⟨k, []⟩ τ

theorem Step.mono {P Q : Plan} {op : Opcode} {σ τ : Shape} (h : Step P op σ τ)
    (hpool : P.pool = Q.pool) (hscript : P.script = Q.script) (hlabels : P.labels ⊆ Q.labels) :
    Step Q op σ τ := by
  cases h with
  | const h => exact .const (hpool ▸ h)
  | fetchProperty h => exact .fetchProperty h
  | storeProperty h => exact .storeProperty h
  | jump h => exact .jump (hlabels h)
  | jumpTrue h => exact .jumpTrue (hlabels h)
  | jumpFalse h => exact .jumpFalse (hlabels h)
  | ret h => exact .ret (hscript ▸ h)
  | loopExit h => exact .loopExit (hlabels h)
  | tryStart h hf => exact .tryStart (hlabels h) fun l hl => hlabels (hf l hl)
  | tryKeep h => exact .tryKeep (hlabels h)
  | eof h => exact .eof (hscript ▸ h)
  | _ => constructor

/-! ### Code with shapes -/

/-- Instructions with the shapes at which they stand. -/
abbrev Sheet := List (Shape × Opcode)

/-- The label of an instruction, with the shape there. -/
def mark (σ : Shape) : Opcode → List (Nat × Shape)
  | .label l => [(l, σ)]
  | _ => []

/-- The labels of a sheet, with the shapes there. -/
def marks (W : Sheet) : List (Nat × Shape) := W.flatMap fun (σ, op) => mark σ op

theorem marks_append (V W : Sheet) : marks (V ++ W) = marks V ++ marks W := by
  simp [marks]

theorem mem_marks {W : Sheet} {l : Nat} {σ : Shape} : (l, σ) ∈ marks W ↔ (σ, .label l) ∈ W := by
  constructor
  · intro h
    obtain ⟨⟨ρ, op⟩, hW, hm⟩ := List.mem_flatMap.1 h
    cases op with
    | label l' =>
      obtain ⟨rfl, rfl⟩ := Prod.mk.inj (List.mem_singleton.1 hm)
      exact hW
    | _ => cases hm
  · exact fun h => List.mem_flatMap.2 ⟨_, h, List.mem_singleton.2 rfl⟩

/-- Each instruction of a sheet leads from its shape to the next. -/
inductive Chain (P : Plan) : Shape → Sheet → Shape → Prop where
  | nil {σ} : Chain P σ [] σ
  | cons {op σ ρ τ W} : Step P op σ ρ → Chain P ρ W τ → Chain P σ ((σ, op) :: W) τ

theorem Chain.append {P : Plan} {σ ρ τ : Shape} {V W : Sheet} (h : Chain P σ V ρ)
    (h' : Chain P ρ W τ) : Chain P σ (V ++ W) τ := by
  induction h with
  | nil => exact h'
  | cons hs _ ih => exact .cons hs (ih h')

/-- The shapes along a sheet, up to its end. -/
def shapes (W : Sheet) (τ : Shape) : List Shape := W.map Prod.fst ++ [τ]

theorem length_shapes (W : Sheet) (τ : Shape) : (shapes W τ).length = W.length + 1 := by
  simp [shapes]

theorem Chain.head {P : Plan} {σ τ : Shape} {W : Sheet} (h : Chain P σ W τ) :
    (shapes W τ)[0]? = some σ := by
  cases h <;> rfl

/-- An instruction of a sheet stands between two neighbouring shapes. -/
theorem Chain.step {P : Plan} {σ τ ρ : Shape} {W : Sheet} {op : Opcode} (h : Chain P σ W τ) {i : Nat}
    (hi : W[i]? = some (ρ, op)) :
    (shapes W τ)[i]? = some ρ ∧ ∃ ρ', (shapes W τ)[i + 1]? = some ρ' ∧ Step P op ρ ρ' := by
  induction h generalizing i with
  | nil => simp at hi
  | @cons op' σ ρ₁ τ W hs hW ih =>
    cases i with
    | zero =>
      obtain ⟨rfl, rfl⟩ := Prod.mk.inj (Option.some.inj hi)
      exact ⟨rfl, ρ₁, hW.head, hs⟩
    | succ i => exact ih hi

/-- A listing whose sheet leads from one shape to another. A statement ends at the shape at which it
begins. -/
inductive Flows (P : Plan) : Shape → Listing → Shape → Sheet → Prop where
  | ops {σ τ code W} : Chain P σ W τ → W.map Prod.snd = code.map (·.op) → Flows P σ (.ops code) τ W
  | append {σ ρ τ A B V W} :
      Flows P σ A ρ V → Flows P ρ B τ W → Flows P σ (A ++ B) τ (V ++ W)
  | stmt {σ L W} : Flows P σ L σ W → Flows P σ (.stmt L) σ W

theorem ops_markFirst (code : Code) : (markFirst code).map (·.op) = code.map (·.op) := by
  cases code <;> rfl

theorem Flows.chain {P : Plan} {σ τ : Shape} {L : Listing} {W : Sheet} (h : Flows P σ L τ W) :
    Chain P σ W τ ∧ W.map Prod.snd = L.code.map (·.op) := by
  induction h with
  | ops hW ho => exact ⟨hW, ho⟩
  | append _ _ ihA ihB =>
    exact ⟨ihA.1.append ihB.1, by rw [List.map_append, ihA.2, ihB.2, code_append, List.map_append]⟩
  | stmt _ ih => exact ⟨ih.1, by rw [ih.2, code_stmt, ops_markFirst]⟩

theorem Flows.length {P : Plan} {σ τ : Shape} {L : Listing} {W : Sheet} (h : Flows P σ L τ W) :
    W.length = L.code.length := by
  simpa using congrArg List.length h.chain.2

theorem getElem?_shapes_append {P : Plan} {ρ τ : Shape} {V W : Sheet} (h : Chain P ρ W τ) {i : Nat}
    (hi : i ≤ V.length) : (shapes (V ++ W) τ)[i]? = (shapes V ρ)[i]? := by
  unfold shapes
  rcases Nat.lt_or_eq_of_le hi with hi | rfl
  · rw [List.map_append, List.append_assoc, List.getElem?_append_left (by simpa using hi),
      List.getElem?_append_left (by simpa using hi)]
  · have h0 := h.head
    unfold shapes at h0
    rw [List.map_append, List.append_assoc, List.getElem?_append_right (by simp), List.length_map,
      Nat.sub_self, h0]
    simp

theorem getElem?_shapes_right (V W : Sheet) (τ : Shape) (i : Nat) :
    (shapes (V ++ W) τ)[V.length + i]? = (shapes W τ)[i]? := by
  unfold shapes
  rw [List.map_append, List.append_assoc, List.getElem?_append_right (by simp)]
  simp

/-- A statement ends at the shape at which it begins, wherever it stands in a listing. -/
theorem Flows.statements {P : Plan} {σ τ : Shape} {L : Listing} {W : Sheet} (h : Flows P σ L τ W) :
    ∀ start, ∀ r ∈ L.statements start, ∃ i j, r = (start + i, start + j) ∧ i ≤ j ∧ j ≤ W.length ∧
      (shapes W τ)[i]? = (shapes W τ)[j]? := by
  induction h with
  | ops => intro start r hr; cases hr
  | @append σ ρ τ A B V W hA hB ihA ihB =>
    intro start r hr
    rcases List.mem_append.1 hr with hr | hr
    · obtain ⟨i, j, rfl, hij, hj, he⟩ := ihA start r hr
      refine ⟨i, j, rfl, hij, by rw [List.length_append]; omega, ?_⟩
      rw [getElem?_shapes_append hB.chain.1 (Nat.le_trans hij hj), getElem?_shapes_append hB.chain.1 hj, he]
    · obtain ⟨i, j, rfl, hij, hj, he⟩ := ihB (start + A.code.length) r hr
      rw [← hA.length]
      refine ⟨V.length + i, V.length + j, by simp only [Nat.add_assoc], by omega,
        by rw [List.length_append]; omega, ?_⟩
      rw [getElem?_shapes_right, getElem?_shapes_right, he]
  | @stmt σ L W hL ih =>
    intro start r hr
    rcases List.mem_cons.1 hr with rfl | hr
    · refine ⟨0, W.length, by rw [Nat.add_zero, hL.length], by omega, by omega, ?_⟩
      rw [hL.chain.1.head]
      simp [shapes]
    · exact ih start r hr

/-! ### Putting listings together -/

/-- A listing leads from one shape to another, whatever else is known of labels, and has at least the
given labels. -/
def Flow (P : Plan) (given : List (Nat × Shape)) (σ : Shape) (L : Listing) (τ : Shape) : Prop :=
  ∃ W, given ⊆ marks W ∧
    ∀ J, P.labels ⊆ J → marks W ⊆ J → Flows { P with labels := J } σ L τ W

namespace Flow

variable {P : Plan} {σ ρ τ : Shape} {L A B : Listing} {g g₁ g₂ : List (Nat × Shape)} {span : Span}

theorem nil : Flow P [] σ (.ops []) σ := ⟨[], List.nil_subset _, fun _ _ _ => .ops .nil rfl⟩

theorem op {o : Opcode} {ops : List Opcode} (h : Step P o σ ρ) (hrest : Flow P g ρ (asm span ops) τ) :
    Flow P (mark σ o ++ g) σ (asm span (o :: ops)) τ := by
  obtain ⟨W, hg, hW⟩ := hrest
  have hm : marks ((σ, o) :: W) = mark σ o ++ marks W := rfl
  refine ⟨(σ, o) :: W, ?_, fun J hP hJ => ?_⟩
  · rw [hm]
    exact List.append_subset.2 ⟨List.subset_append_left _ _, List.subset_append_of_subset_right _ hg⟩
  · rw [hm] at hJ
    obtain ⟨hchain, hops⟩ := (hW J hP (fun x hx => hJ (List.mem_append_right _ hx))).chain
    exact .ops (.cons (h.mono rfl rfl hP) hchain) (by rw [List.map_cons, hops]; rfl)

theorem append (hA : Flow P g₁ σ A ρ) (hB : Flow P g₂ ρ B τ) : Flow P (g₁ ++ g₂) σ (A ++ B) τ := by
  obtain ⟨V, hg₁, hV⟩ := hA
  obtain ⟨W, hg₂, hW⟩ := hB
  refine ⟨V ++ W, ?_, fun J hP hJ => ?_⟩
  · rw [marks_append]
    exact List.append_subset.2
      ⟨List.subset_append_of_subset_left _ hg₁, List.subset_append_of_subset_right _ hg₂⟩
  · rw [marks_append] at hJ
    exact .append (hV J hP fun x hx => hJ (List.mem_append_left _ hx))
      (hW J hP fun x hx => hJ (List.mem_append_right _ hx))

theorem stmt (h : Flow P g σ L σ) : Flow P g σ (.stmt L) σ := by
  obtain ⟨W, hg, hW⟩ := h
  exact ⟨W, hg, fun J hP hJ => .stmt (hW J hP hJ)⟩

/-- Labels that a listing has itself need not be known before. -/
theorem close {ns : List (Nat × Shape)} (h : Flow (P.with ns) g σ L τ) (hns : ns ⊆ g) :
    Flow P [] σ L τ := by
  obtain ⟨W, hg, hW⟩ := h
  refine ⟨W, List.nil_subset _, fun J hP hJ => hW J ?_ hJ⟩
  exact List.append_subset.2 ⟨fun x hx => hJ (hg (hns hx)), hP⟩

/-- The same code as one listing of instructions. -/
theorem code (h : Flow P g σ L τ) : Flow P g σ (.ops L.code) τ := by
  obtain ⟨W, hg, hW⟩ := h
  refine ⟨W, hg, fun J hP hJ => ?_⟩
  obtain ⟨hchain, hops⟩ := (hW J hP hJ).chain
  exact .ops hchain hops

theorem within {k k' : Nat} {s s' : List Slot} (h : Flow P g ⟨k + 1, s⟩ L ⟨k' + 1, s'⟩) :
    Flow P g ⟨k, s⟩ (within span L) ⟨k', s'⟩ := by
  have h' : Flow P (([] ++ []) ++ g ++ ([] ++ [])) ⟨k, s⟩ (Listing.within span L) ⟨k', s'⟩ :=
    ((op .enterScope nil).append h).append (op .leaveScope nil)
  simpa using h'

end Flow

end ScriptMachine.Compile
