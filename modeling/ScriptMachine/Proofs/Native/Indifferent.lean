import ScriptMachine.Native.Samples
import ScriptMachine.Proofs.Machine.Regime
import ScriptMachine.Proofs.Value.Repooling

/-!
# Indifferent — host values that see neither numbers of constants nor hidden scopes

A host value sees the whole heap of the machine. An indifferent one does the same on heaps that are beside
each other: it gives the same up to the numbers of constants, logs the same lines, and leaves hidden scopes
alone. The builtins are all like that, and so is what works on values and on cells.
-/

namespace ScriptMachine

/-- Two replies that are related if they are no failures; a failure is the same up to the numbers of constants. -/
inductive Replies {α β : Type} (f : Nat → Nat) (R : α → β → Prop) : Except Cause α → Except Cause β → Prop where
  | ok {a b} : R a b → Replies f R (.ok a) (.ok b)
  | error (c : Cause) : Replies f R (.error c) (.error (c.repooled f))

/-- A value, and the same value with another numbering of constants. -/
def Value.Repools (f : Nat → Nat) (v w : Value) : Prop := w = v.repooled f

/-- What a call does on two heaps. -/
structure CallResult.Beside (f : Nat → Nat) (hidden : ScopeId → Prop) (h H : Heap) (r r' : CallResult) : Prop where
  heap : Heap.InStep f hidden h H r.heap r'.heap
  result : Replies f (Value.Repools f) r.result r'.result
  log : r'.log = r.log

/-- A host value that does not depend on the numbers of constants, as long as different ones stay different,
nor on hidden scopes. -/
structure Native.Indifferent (native : Native) : Prop where
  read : ∀ (f : Nat → Nat) (hidden : ScopeId → Prop) (h H : Heap) (name : String), f.Injective →
    Heap.Beside f hidden h H → Replies f (Value.Repools f) (native.read name h) (native.read name H)
  write : ∀ (f : Nat → Nat) (hidden : ScopeId → Prop) (h H : Heap) (name : String) (v : Value), f.Injective →
    Heap.Beside f hidden h H →
    Heap.InStep f hidden h H (native.write name v h).2 (native.write name (v.repooled f) H).2 ∧
      Replies f Eq (native.write name v h).1 (native.write name (v.repooled f) H).1
  call : ∀ (f : Nat → Nat) (hidden : ScopeId → Prop) (h H : Heap) (this : Option Value) (args : List Value),
    f.Injective → Heap.Beside f hidden h H →
    CallResult.Beside f hidden h H (native.call this args h)
      (native.call (this.map (·.repooled f)) (args.map (·.repooled f)) H)

/-- Host values that are all indifferent. -/
def Hosts.Indifferent (hosts : Hosts) : Prop := ∀ native ∈ hosts.table, native.Indifferent

variable {f : Nat → Nat} {hidden : ScopeId → Prop} {h H : Heap}

namespace Replies

variable {α β γ δ : Type} {R : α → β → Prop} {S : γ → δ → Prop}

/-- A failure that carries no value is the same everywhere. -/
theorem fails {c : Cause} (hc : c.repooled f = c) : Replies f R (.error c) (.error c) := by
  have h := Replies.error (f := f) (R := R) c
  rwa [hc] at h

theorem mono {R' : α → β → Prop} {x : Except Cause α} {y : Except Cause β} (hx : Replies f R x y)
    (hR : ∀ a b, R a b → R' a b) : Replies f R' x y := by
  cases hx with
  | ok h => exact .ok (hR _ _ h)
  | error c => exact .error c

theorem bind {x : Except Cause α} {y : Except Cause β} {p : α → Except Cause γ} {q : β → Except Cause δ}
    (hx : Replies f R x y) (hp : ∀ a b, R a b → Replies f S (p a) (q b)) : Replies f S (x >>= p) (y >>= q) := by
  cases hx with
  | ok hR => exact hp _ _ hR
  | error c => exact .error c

/-- An answer that says nothing about constants: if it is a failure, it is a message. -/
theorem of_complains {x : Except Cause α} (hx : Regime.Complains x) : Replies f Eq x x := by
  cases x with
  | ok a => exact .ok rfl
  | error c =>
    obtain ⟨text, rfl⟩ := hx c rfl
    exact .fails rfl

/-- Going on with an answer that says nothing about constants. -/
theorem onEq {x y : Except Cause α} {p : α → Except Cause γ} {q : α → Except Cause δ} (hx : Replies f Eq x y)
    (hp : ∀ a, Replies f S (p a) (q a)) : Replies f S (x >>= p) (y >>= q) :=
  hx.bind fun a _ hab => hab ▸ hp a

end Replies

theorem CallResult.Beside.pure {r r' : Except Cause Value} (hb : Heap.Beside f hidden h H)
    (hr : Replies f (Value.Repools f) r r') :
    CallResult.Beside f hidden h H (Native.pure r h) (Native.pure r' H) := ⟨.refl hb, hr, rfl⟩

namespace Native

theorem indifferent_refusing (typeName label : String) (callable : Bool) :
    Indifferent { typeName, label, callable } where
  read _ _ _ _ _ _ _ := .fails rfl
  write _ _ _ _ _ _ _ hb := ⟨.refl hb, .fails rfl⟩
  call _ _ _ _ _ _ _ hb := .pure hb (.fails rfl)

/-- A host function is as indifferent as its body. -/
theorem indifferent_function {name : String} {arity : Arity} {body : Option Value → List Value → Heap → CallResult}
    (hbody : ∀ (f : Nat → Nat) (hidden : ScopeId → Prop) (h H : Heap) (this : Option Value) (args : List Value),
      f.Injective → Heap.Beside f hidden h H →
      CallResult.Beside f hidden h H (body this args h) (body (this.map (·.repooled f)) (args.map (·.repooled f)) H)) :
    Indifferent (Native.function name arity body) where
  read _ _ _ _ _ _ _ := by
    refine .ok ?_
    split <;> rfl
  write _ _ _ _ _ _ _ hb := ⟨.refl hb, .fails rfl⟩
  call f hidden h H this args hf hb := by
    simp only [Native.function, List.length_map]
    split
    · exact hbody f hidden h H this args hf hb
    · exact .pure hb (.fails rfl)

theorem indifferent_echo (name : String) (arity : Arity) : Indifferent (echo name arity) :=
  indifferent_function fun f _ h H _ args _ hb => by
    have hitems : (args.map (·.repooled f)).toArray = args.toArray.map (·.repooled f) := by simp
    obtain ⟨hnew, hstep⟩ := hb.newArray args.toArray
    simp only [hitems]
    exact ⟨hstep, .ok (congrArg Value.array hnew), rfl⟩

/-- A host object that keeps a number in a cell. -/
theorem indifferent_thermostat (cell : Nat) : Indifferent (thermostat cell) where
  read f _ h H name _ hb := by
    have hcell : H.cell cell = (h.cell cell).repooled f := by
      simp only [Heap.cell, hb.cells, Array.getD_eq_getD_getElem?, Array.getElem?_map]
      cases h.cells[cell]? <;> rfl
    refine .ok ?_
    rw [hcell]
    split <;> rfl
  write f _ h H name v _ hb := by
    cases v with
    | number bits =>
      simp only [thermostat, Value.repooled_number]
      split
      · refine ⟨hb.aside rfl rfl rfl rfl hb.arrays ?_ hb.stamps, .ok rfl⟩
        simp [Heap.setCell, hb.cells]
      · exact ⟨.refl hb, .fails rfl⟩
    | _ => exact ⟨.refl hb, .fails rfl⟩
  call _ _ _ _ _ _ _ hb := .pure hb (.fails rfl)

end Native

namespace Builtin

/-! ### Receivers and arguments -/

theorem receiverError_repooled (b : Builtin) (kind : Kind) (this : Option Value) :
    b.receiverError kind (this.map (·.repooled f)) = b.receiverError kind this := by
  cases this with
  | none => rfl
  | some v => simp [receiverError]

theorem thisArray_repooled (b : Builtin) (this : Option Value) :
    b.thisArray (this.map (·.repooled f)) = b.thisArray this := by
  have herror := receiverError_repooled (f := f) b .array this
  cases this with
  | none => rfl
  | some v =>
    cases v with
    | array a => rfl
    | _ => exact congrArg Except.error herror

theorem thisString_repooled (b : Builtin) (this : Option Value) :
    b.thisString (this.map (·.repooled f)) = b.thisString this := by
  have herror := receiverError_repooled (f := f) b .string this
  cases this with
  | none => rfl
  | some v =>
    cases v with
    | string s => rfl
    | _ => exact congrArg Except.error herror

theorem thisRegex_repooled (b : Builtin) (this : Option Value) :
    b.thisRegex (this.map (·.repooled f)) = b.thisRegex this := by
  have herror := receiverError_repooled (f := f) b .regex this
  cases this with
  | none => rfl
  | some v =>
    cases v with
    | regex id p => rfl
    | _ => exact congrArg Except.error herror

theorem stringArg_repooled (b : Builtin) (arg : Option Value) :
    b.stringArg (arg.map (·.repooled f)) = b.stringArg arg := by
  cases arg with
  | none => rfl
  | some v => cases v <;> rfl

theorem positionArg_repooled (b : Builtin) (start : Nat) (arg : Option Value) :
    b.positionArg start (arg.map (·.repooled f)) = b.positionArg start arg := by
  cases arg with
  | none => rfl
  | some v => cases v <;> rfl

theorem parts_repooled (b : Builtin) (text : String) (arg : Option Value) :
    b.parts text (arg.map (·.repooled f)) = b.parts text arg := by
  cases arg with
  | none => rfl
  | some v => cases v <;> rfl

theorem substring_repooled (b : Builtin) (text : String) (args : List Value) :
    b.substring text (args.map (·.repooled f)) = b.substring text args := by
  simp only [substring, List.getElem?_map, positionArg_repooled]

theorem headD_repooled (args : List Value) :
    (args.map (·.repooled f)).headD .undefined = (args.headD .undefined).repooled f := by
  cases args <;> rfl

theorem positionValue_repooled (position : Option Nat) : (positionValue position).repooled f = positionValue position := by
  cases position <;> rfl

/-! ### Bodies -/

/-- A text that is read as a pattern. -/
theorem newRegex_beside (hb : Heap.Beside f hidden h H) (source : String) :
    CallResult.Beside f hidden h H (Native.pure (h.newRegex source).1 (h.newRegex source).2)
      (Native.pure (H.newRegex source).1 (H.newRegex source).2) := by
  unfold Heap.newRegex
  cases Pattern.compile source with
  | ok pattern =>
    refine ⟨hb.aside rfl rfl rfl rfl hb.arrays hb.cells (congrArg (· + 1) hb.stamps), .ok ?_, rfl⟩
    show Value.regex (.made H.stamps) pattern = .regex (.made h.stamps) pattern
    rw [hb.stamps]
  | error refusal => exact .pure hb (.fails rfl)

/-- **Every builtin is indifferent.** -/
theorem body_beside (b : Builtin) (f : Nat → Nat) (hidden : ScopeId → Prop) (h H : Heap) (this : Option Value)
    (args : List Value) (hf : f.Injective) (hb : Heap.Beside f hidden h H) :
    CallResult.Beside f hidden h H (b.body this args h)
      (b.body (this.map (·.repooled f)) (args.map (·.repooled f)) H) := by
  have hhead : (args.map (·.repooled f)).head? = args.head?.map (·.repooled f) := List.head?_map
  cases b with
  | print =>
    refine ⟨.refl hb, .ok rfl, ?_⟩
    simp only [body, List.map_map]
    exact congrArg (fun texts => [" ".intercalate texts]) (List.map_congr_left fun v _ => hb.text v)
  | makeError =>
    have hmessage : (((args.map (·.repooled f)).head?.map (·.message H)).getD "") =
        (args.head?.map (·.message h)).getD "" := by
      rw [hhead]
      cases args.head? <;> simp [hb.message]
    obtain ⟨hnew, hstep⟩ := hb.newError ((args.head?.map (·.message h)).getD "")
    simp only [body, hmessage]
    exact ⟨hstep, .ok hnew, rfl⟩
  | makeRegex =>
    simp only [body, headD_repooled]
    have htext := hb.text (args.headD .undefined)
    have hnew := newRegex_beside hb ((args.headD .undefined).text h)
    cases hfirst : args.headD .undefined with
    | regex id p => exact .pure hb (.ok rfl)
    | _ =>
      rw [hfirst] at htext hnew
      simp only [Value.repooled] at htext ⊢
      rw [htext]
      exact hnew
  | typeOf =>
    simp only [body, headD_repooled]
    refine .pure hb (.ok ?_)
    cases args.headD .undefined <;> rfl
  | arrayPush =>
    simp only [body, thisArray_repooled]
    cases ht : thisArray .arrayPush this with
    | error c =>
      obtain ⟨text, rfl⟩ := Regime.complains_thisArray _ _ c ht
      exact .pure hb (.fails rfl)
    | ok a =>
      have hstep : Heap.InStep f hidden h H (h.appendElements a args) (H.appendElements a (args.map (·.repooled f))) :=
        hb.modifyArray a fun items => by
          apply Array.ext'
          simp [Array.toList_appendList]
      refine ⟨hstep, .ok ?_, rfl⟩
      rw [hstep.beside.elements, Array.size_map]
      rfl
  | arrayPop =>
    simp only [body, thisArray_repooled]
    cases ht : thisArray .arrayPop this with
    | error c =>
      obtain ⟨text, rfl⟩ := Regime.complains_thisArray _ _ c ht
      exact .pure hb (.fails rfl)
    | ok a =>
      refine ⟨hb.modifyArray a fun items => Array.map_pop.symm, .ok ?_, rfl⟩
      simp only [Heap.popElement, hb.elements, Array.back?_map]
      cases (h.elements a).back? <;> rfl
  | arrayIndexOf =>
    simp only [body, thisArray_repooled, headD_repooled]
    refine .pure hb (.onEq (.of_complains (Regime.complains_thisArray _ _)) fun a => .ok ?_)
    rw [Value.Repools, positionValue_repooled, hb.elements, Array.findIdx?_map]
    congr 2
    exact funext fun v => Value.same_repooled hf v _
  | arrayJoin =>
    simp only [body, thisArray_repooled, hhead]
    refine .pure hb (.onEq (.of_complains (Regime.complains_thisArray _ _)) fun a => ?_)
    have hjoin : ∀ separator, H.join separator a = h.join separator a := fun separator => hb.joinFrom [] separator a
    simp only [hjoin]
    have hstring := stringArg_repooled (f := f) .arrayJoin args.head?
    cases hfirst : args.head? with
    | none => exact .ok rfl
    | some v =>
      rw [hfirst] at hstring
      cases v with
      | undefined => exact .ok rfl
      | _ =>
        simp only [Option.map_some, Value.repooled] at hstring ⊢
        exact .onEq (.of_complains (Regime.complains_stringArg _ _)) fun separator => .ok rfl
  | stringUpper | stringLower =>
    simp only [body, thisString_repooled]
    exact .pure hb (.onEq (.of_complains (Regime.complains_thisString _ _)) fun _ => .ok rfl)
  | stringIndexOf =>
    simp only [body, thisString_repooled, hhead, stringArg_repooled]
    exact .pure hb (.onEq (.of_complains (Regime.complains_thisString _ _)) fun _ =>
      .onEq (.of_complains (Regime.complains_stringArg _ _)) fun _ => .ok (positionValue_repooled _).symm)
  | stringSubstring =>
    simp only [body, thisString_repooled, substring_repooled]
    exact .pure hb (.onEq (.of_complains (Regime.complains_thisString _ _)) fun _ =>
      .onEq (.of_complains (Regime.complains_positionArg _ _ _)) fun _ =>
        .onEq (.of_complains (Regime.complains_positionArg _ _ _)) fun _ => .ok rfl)
  | stringSplit =>
    have hc : Regime.Complains (do parts .stringSplit (← thisString .stringSplit this) args.head? :
        Except Cause (List String)) :=
      (Regime.complains_thisString _ this).bind fun s => Regime.complains_parts _ _ _
    simp only [body, thisString_repooled, hhead, parts_repooled]
    cases hp : (do parts .stringSplit (← thisString .stringSplit this) args.head? :
        Except Cause (List String)) with
    | error c =>
      obtain ⟨text, rfl⟩ := hc c hp
      exact .pure hb (.fails rfl)
    | ok texts =>
      have hmap : (texts.map Value.string).toArray.map (·.repooled f) = (texts.map Value.string).toArray := by simp
      obtain ⟨hnew, hstep⟩ := hb.newArray (texts.map Value.string).toArray
      rw [hmap] at hnew hstep
      exact ⟨hstep, .ok (congrArg Value.array hnew), rfl⟩
  | regexTest =>
    simp only [body, thisRegex_repooled, hhead, stringArg_repooled]
    exact .pure hb (.onEq (.of_complains (Regime.complains_thisRegex _ _)) fun _ =>
      .onEq (.of_complains (Regime.complains_stringArg _ _)) fun _ => .ok rfl)
  | regexMatch =>
    simp only [body, thisRegex_repooled, hhead, stringArg_repooled]
    refine .pure hb (.onEq (.of_complains (Regime.complains_thisRegex _ _)) fun p =>
      .onEq (.of_complains (Regime.complains_stringArg _ _)) fun s => .ok ?_)
    cases p.find? s <;> rfl

theorem indifferent_native (b : Builtin) : b.native.Indifferent := Native.indifferent_function b.body_beside

end Builtin

theorem Hosts.Indifferent.find {hosts : Hosts} (hs : hosts.Indifferent) (handle : NativeHandle) :
    (hosts.find handle).Indifferent := by
  unfold Hosts.find
  split
  · exact Builtin.indifferent_native _
  · rename_i i _
    rw [Array.getD_eq_getD_getElem?]
    cases hi : hosts.table[i]? with
    | none => exact Native.indifferent_refusing _ _ _
    | some native => exact hs native (Array.mem_iff_getElem?.2 ⟨i, hi⟩)

end ScriptMachine
