import ScriptMachine.Native.Samples
import ScriptMachine.Proofs.Value.Relocation

/-!
# Stateless — host values that depend on their arguments alone

A host value sees the whole heap of the machine. One that is a function of its arguments does the same
when this heap lies above another: its result is the same above that heap, it makes the same things and
logs the same lines. The builtins are all like that.
-/

namespace ScriptMachine

/-- A value that leads to no object from the `n`-th on, and the same value above a heap. -/
def Value.Mirrors (b : Heap) (n : Nat) (v w : Value) : Prop := v.Within n ∧ w = v.above b

/-- Two answers that are related if they are no failures; a failure is the same above a heap. -/
inductive Alike {α : Type} (b : Heap) (n : Nat) (R : α → α → Prop) : Except Cause α → Except Cause α → Prop where
  | ok {a a'} : R a a' → Alike b n R (.ok a) (.ok a')
  | error {c : Cause} : c.Within n → Alike b n R (.error c) (.error (c.above b))

/-- What becomes of a closed heap, and of the same heap above another. -/
structure Heap.Carries (b h h' H' : Heap) : Prop where
  closed : h'.Closed
  size : h.objects.size ≤ h'.objects.size
  eq : H' = h'.above b

/-- What a call does with a closed heap, and with the same heap above another. -/
structure CallResult.Mirrors (b h : Heap) (r r' : CallResult) : Prop where
  heap : Heap.Carries b h r.heap r'.heap
  result : Alike b r.heap.objects.size (Value.Mirrors b r.heap.objects.size) r.result r'.result
  log : r'.log = r.log

/-- A host value that is a function of its arguments and of what they lead to: it remembers nothing, and
does not depend on where its heap lies. -/
structure Native.Stateless (native : Native) : Prop where
  read : ∀ (b h : Heap) (name : String), h.Closed →
    Alike b h.objects.size (Value.Mirrors b h.objects.size) (native.read name h) (native.read name (h.above b))
  write : ∀ (b h : Heap) (name : String) (v : Value), h.Closed → v.Within h.objects.size →
    Heap.Carries b h (native.write name v h).2 (native.write name (v.above b) (h.above b)).2 ∧
      Alike b (native.write name v h).2.objects.size (fun _ _ => True)
        (native.write name v h).1 (native.write name (v.above b) (h.above b)).1
  call : ∀ (b h : Heap) (this : Option Value) (args : List Value), h.Closed →
    (∀ v, this = some v → v.Within h.objects.size) → (∀ v ∈ args, v.Within h.objects.size) →
    CallResult.Mirrors b h (native.call this args h)
      (native.call (this.map (·.above b)) (args.map (·.above b)) (h.above b))

/-- Host values that are all stateless. -/
def Hosts.Stateless (hosts : Hosts) : Prop := ∀ native ∈ hosts.table, native.Stateless

variable {b h : Heap} {n : Nat} {v : Value}

theorem Heap.Carries.refl (hh : h.Closed) : Heap.Carries b h h (h.above b) := ⟨hh, Nat.le_refl _, rfl⟩

theorem Value.mirrors_of_portable (hv : v.isPortable = true) : Value.Mirrors b n v v :=
  ⟨Value.within_of_portable hv, (Value.above_of_portable hv).symm⟩

/-- A failure that carries no value is the same everywhere. -/
theorem Alike.fails {α : Type} {R : α → α → Prop} {c : Cause} (hc : ∀ v, c ≠ .thrown v) :
    Alike b n R (.error c) (.error c) := by
  have h := Alike.error (b := b) (R := R) (Cause.within_of (n := n) hc)
  rwa [Cause.above_of hc] at h

namespace Native

theorem stateless_refusing (typeName label : String) (callable : Bool) :
    Stateless { typeName, label, callable } where
  read _ _ _ _ := .fails nofun
  write _ _ _ _ hh _ := ⟨.refl hh, .fails nofun⟩
  call _ _ _ _ hh _ _ := ⟨.refl hh, .fails nofun, rfl⟩

/-- A host function is as stateless as its body. -/
theorem stateless_function {name : String} {arity : Arity} {body : Option Value → List Value → Heap → CallResult}
    (hbody : ∀ (b h : Heap) (this : Option Value) (args : List Value), h.Closed →
      (∀ v, this = some v → v.Within h.objects.size) → (∀ v ∈ args, v.Within h.objects.size) →
      CallResult.Mirrors b h (body this args h) (body (this.map (·.above b)) (args.map (·.above b)) (h.above b))) :
    Stateless (Native.function name arity body) where
  read b h property _ := by
    refine .ok (Value.mirrors_of_portable ?_)
    split <;> rfl
  write _ _ _ _ hh _ := ⟨.refl hh, .fails fun _ h => by cases h⟩
  call b h this args hh hthis hargs := by
    simp only [Native.function, List.length_map]
    split
    · exact hbody b h this args hh hthis hargs
    · exact ⟨.refl hh, .fails fun _ h => (by cases h), rfl⟩

theorem stateless_echo (name : String) (arity : Arity) : Stateless (echo name arity) :=
  stateless_function fun b h _ args hh _ hargs => by
    have hitems : (args.map (·.above b)).toArray = args.toArray.map (·.above b) := by simp
    simp only [hitems, Heap.newArray_above]
    exact ⟨⟨hh.newArray fun v hv => hargs v (List.mem_toArray.1 hv), Nat.le_refl _, rfl⟩,
      .ok ⟨Value.within_of nofun, rfl⟩, rfl⟩

end Native

/-! ### Answers that refer to nothing -/

/-- An answer that refers to nothing; its only failures are messages. -/
def Plain (r : Except Cause Value) : Prop := (∀ v, r = .ok v → v.isPortable = true) ∧ Regime.Complains r

theorem plain_ok (hv : v.isPortable = true) : Plain (.ok v) :=
  ⟨fun w hw => by cases hw; exact hv, Regime.complains_ok v⟩

theorem Plain.bind {α : Type} {r : Except Cause α} {f : α → Except Cause Value} (hr : Regime.Complains r)
    (hf : ∀ a, Plain (f a)) : Plain (r >>= f) := by
  cases r with
  | ok a => exact hf a
  | error c =>
    obtain ⟨text, rfl⟩ := hr c rfl
    exact ⟨nofun, Regime.complains_native text⟩

theorem Plain.alike {r : Except Cause Value} (hr : Plain r) : Alike b n (Value.Mirrors b n) r r := by
  cases r with
  | ok v => exact .ok (Value.mirrors_of_portable (hr.1 v rfl))
  | error c =>
    obtain ⟨text, rfl⟩ := hr.2 c rfl
    exact .fails nofun

/-- A call that leaves the heap alone and gives what refers to nothing. -/
theorem Plain.pure {r r' : Except Cause Value} (hr : Plain r) (hsame : r' = r) (hh : h.Closed) :
    CallResult.Mirrors b h (Native.pure r h) (Native.pure r' (h.above b)) := by
  subst hsame
  exact ⟨.refl hh, hr.alike, rfl⟩

namespace Builtin

/-! ### Receivers and arguments -/

theorem receiverError_above (f : Builtin) (kind : Kind) (this : Option Value) (b : Heap) :
    f.receiverError kind (this.map (·.above b)) = f.receiverError kind this := by
  cases this with
  | none => rfl
  | some v => simp [receiverError]

theorem thisArray_above (f : Builtin) (this : Option Value) (b : Heap) :
    f.thisArray (this.map (·.above b)) = (f.thisArray this).map (·.above b) := by
  have herror := receiverError_above f .array this b
  cases this with
  | none => rfl
  | some v =>
    cases v with
    | array a => rfl
    | _ => exact congrArg Except.error herror

theorem thisString_above (f : Builtin) (this : Option Value) (b : Heap) :
    f.thisString (this.map (·.above b)) = f.thisString this := by
  have herror := receiverError_above f .string this b
  cases this with
  | none => rfl
  | some v =>
    cases v with
    | string s => rfl
    | _ => exact congrArg Except.error herror

theorem thisRegex_above (f : Builtin) (this : Option Value) (b : Heap) :
    f.thisRegex (this.map (·.above b)) = f.thisRegex this := by
  have herror := receiverError_above f .regex this b
  cases this with
  | none => rfl
  | some v =>
    cases v with
    | regex id p => rfl
    | _ => exact congrArg Except.error herror

theorem stringArg_above (f : Builtin) (arg : Option Value) (b : Heap) :
    f.stringArg (arg.map (·.above b)) = f.stringArg arg := by
  cases arg with
  | none => rfl
  | some v => cases v <;> rfl

theorem positionArg_above (f : Builtin) (start : Nat) (arg : Option Value) (b : Heap) :
    f.positionArg start (arg.map (·.above b)) = f.positionArg start arg := by
  cases arg with
  | none => rfl
  | some v => cases v <;> rfl

theorem parts_above (f : Builtin) (text : String) (arg : Option Value) (b : Heap) :
    f.parts text (arg.map (·.above b)) = f.parts text arg := by
  cases arg with
  | none => rfl
  | some v => cases v <;> rfl

theorem substring_above (f : Builtin) (text : String) (args : List Value) (b : Heap) :
    f.substring text (args.map (·.above b)) = f.substring text args := by
  simp only [substring, List.getElem?_map, positionArg_above]

theorem headD_above (args : List Value) (b : Heap) :
    (args.map (·.above b)).headD .undefined = (args.headD .undefined).above b := by
  cases args <;> rfl

theorem plain_positionValue (position : Option Nat) : Plain (.ok (positionValue position)) := by
  cases position <;> exact plain_ok rfl

/-! ### Bodies -/

/-- A text that is read as a pattern. -/
theorem newRegex_alike (hh : h.Closed) (source : String) :
    CallResult.Mirrors b h (Native.pure (h.newRegex source).1 (h.newRegex source).2)
      (Native.pure ((h.above b).newRegex source).1 ((h.above b).newRegex source).2) := by
  unfold Heap.newRegex
  cases Pattern.compile source with
  | ok pattern => exact ⟨⟨⟨hh.elements, hh.vars, hh.owner⟩, Nat.le_refl _, rfl⟩, .ok ⟨Value.within_of nofun, rfl⟩, rfl⟩
  | error refusal => exact ⟨.refl hh, .fails nofun, rfl⟩

/-- **Every builtin is stateless.** -/
theorem body_alike (f : Builtin) (b h : Heap) (this : Option Value) (args : List Value) (hh : h.Closed)
    (hargs : ∀ v ∈ args, v.Within h.objects.size) :
    CallResult.Mirrors b h (f.body this args h)
      (f.body (this.map (·.above b)) (args.map (·.above b)) (h.above b)) := by
  have hhead : (args.map (·.above b)).head? = args.head?.map (·.above b) := List.head?_map
  cases f with
  | print =>
    refine ⟨.refl hh, .ok (Value.mirrors_of_portable rfl), ?_⟩
    simp only [body, List.map_map]
    refine congrArg (fun texts => [" ".intercalate texts]) (List.map_congr_left fun v _ => ?_)
    exact v.text_above h b
  | makeError =>
    have hmessage : (((args.map (·.above b)).head?.map (·.message (h.above b))).getD "") =
        (args.head?.map (·.message h)).getD "" := by
      rw [hhead]
      cases args.head? <;> simp
    simp only [body, hmessage, Heap.newError_above]
    exact ⟨⟨⟨hh.elements, hh.vars, hh.owner⟩, Nat.le_refl _, rfl⟩, .ok ⟨Value.within_of nofun, rfl⟩, rfl⟩
  | makeRegex =>
    simp only [body, headD_above]
    have htext := (args.headD .undefined).text_above h b
    have hnew := newRegex_alike (b := b) hh ((args.headD .undefined).text h)
    cases hfirst : args.headD .undefined with
    | regex id p => exact ⟨.refl hh, .ok ⟨Value.within_of nofun, rfl⟩, rfl⟩
    | _ =>
      rw [hfirst] at htext hnew
      simp only [Value.above] at htext ⊢
      rw [htext]
      exact hnew
  | typeOf =>
    simp only [body, headD_above]
    refine Plain.pure (plain_ok rfl) ?_ hh
    cases args.headD .undefined <;> rfl
  | arrayPush =>
    simp only [body, thisArray_above]
    cases ht : thisArray .arrayPush this with
    | error c =>
      obtain ⟨text, rfl⟩ := Regime.complains_thisArray _ _ c ht
      exact ⟨.refl hh, .fails nofun, rfl⟩
    | ok a =>
      simp only [Except.map, Heap.appendElements_above, Heap.elements_above, Array.size_map]
      exact ⟨⟨hh.appendElements a hargs, Nat.le_refl _, rfl⟩, .ok (Value.mirrors_of_portable rfl), rfl⟩
  | arrayPop =>
    simp only [body, thisArray_above]
    cases ht : thisArray .arrayPop this with
    | error c =>
      obtain ⟨text, rfl⟩ := Regime.complains_thisArray _ _ c ht
      exact ⟨.refl hh, .fails nofun, rfl⟩
    | ok a =>
      simp only [Except.map, Heap.popElement_above]
      refine ⟨⟨hh.popElement a, Nat.le_refl _, rfl⟩, .ok ?_, rfl⟩
      cases hb : (h.popElement a).1 with
      | none => exact Value.mirrors_of_portable rfl
      | some v => exact ⟨hh.elements a v (Array.mem_of_back? hb), rfl⟩
  | arrayIndexOf =>
    refine Plain.pure (.bind (Regime.complains_thisArray _ _) fun a => plain_positionValue _) ?_ hh
    simp only [thisArray_above, headD_above]
    cases thisArray .arrayIndexOf this with
    | error c => rfl
    | ok a =>
      simp only [Except.map, bind, Except.bind, Heap.elements_above, Array.findIdx?_map]
      congr 3
      funext v
      exact v.same_above _ b
  | arrayJoin =>
    refine Plain.pure (.bind (Regime.complains_thisArray _ _) fun a => ?_) ?_ hh
    · simp only
      split
      · exact plain_ok rfl
      · exact plain_ok rfl
      · exact .bind (Regime.complains_stringArg _ _) fun _ => plain_ok rfl
    · simp only [thisArray_above, hhead]
      cases thisArray .arrayJoin this with
      | error c => rfl
      | ok a =>
        simp only [Except.map, bind, Except.bind]
        cases args.head? with
        | none => simp only [Option.map_none, Heap.join_above]
        | some v => cases v <;> simp only [Option.map_some, Value.above, stringArg, Heap.join_above] <;> rfl
  | stringUpper =>
    refine Plain.pure (.bind (Regime.complains_thisString _ _) fun _ => plain_ok rfl) ?_ hh
    rw [thisString_above]
  | stringLower =>
    refine Plain.pure (.bind (Regime.complains_thisString _ _) fun _ => plain_ok rfl) ?_ hh
    rw [thisString_above]
  | stringIndexOf =>
    refine Plain.pure (.bind (Regime.complains_thisString _ _) fun _ =>
      .bind (Regime.complains_stringArg _ _) fun _ => plain_positionValue _) ?_ hh
    rw [thisString_above, hhead]
    simp only [stringArg_above]
  | stringSubstring =>
    refine Plain.pure (.bind (Regime.complains_thisString _ _) fun _ =>
      .bind (Regime.complains_positionArg _ _ _) fun _ =>
        .bind (Regime.complains_positionArg _ _ _) fun _ => plain_ok rfl) ?_ hh
    rw [thisString_above]
    simp only [substring_above]
  | stringSplit =>
    have hc : Regime.Complains (do parts .stringSplit (← thisString .stringSplit this) args.head? :
        Except Cause (List String)) :=
      (Regime.complains_thisString _ this).bind fun s => Regime.complains_parts _ _ _
    simp only [body, thisString_above, hhead, parts_above]
    cases hp : (do parts .stringSplit (← thisString .stringSplit this) args.head? :
        Except Cause (List String)) with
    | error c =>
      obtain ⟨text, rfl⟩ := hc c hp
      exact ⟨.refl hh, .fails nofun, rfl⟩
    | ok texts =>
      have hmap : (texts.map Value.string).toArray = (texts.map Value.string).toArray.map (·.above b) := by
        simp
      simp only
      rw [hmap, Heap.newArray_above, ← hmap]
      refine ⟨⟨hh.newArray fun v hv => ?_, Nat.le_refl _, rfl⟩, .ok ⟨Value.within_of nofun, rfl⟩, rfl⟩
      obtain ⟨s, -, rfl⟩ := List.mem_map.1 (List.mem_toArray.1 hv)
      exact Value.within_of nofun
  | regexTest =>
    refine Plain.pure (.bind (Regime.complains_thisRegex _ _) fun _ =>
      .bind (Regime.complains_stringArg _ _) fun _ => plain_ok rfl) ?_ hh
    rw [thisRegex_above, hhead]
    simp only [stringArg_above]
  | regexMatch =>
    refine Plain.pure (.bind (Regime.complains_thisRegex _ _) fun p =>
      .bind (Regime.complains_stringArg _ _) fun s => ?_) ?_ hh
    · cases hf : p.find? s <;> exact plain_ok rfl
    · rw [thisRegex_above, hhead]
      simp only [stringArg_above]

theorem stateless_native (f : Builtin) : f.native.Stateless :=
  Native.stateless_function fun b h this args hh _ hargs => body_alike f b h this args hh hargs

end Builtin

theorem Hosts.Stateless.find {hosts : Hosts} (hs : hosts.Stateless) (handle : NativeHandle) :
    (hosts.find handle).Stateless := by
  unfold Hosts.find
  split
  · exact Builtin.stateless_native _
  · rename_i i _
    rw [Array.getD_eq_getD_getElem?]
    cases hi : hosts.table[i]? with
    | none => exact Native.stateless_refusing _ _ _
    | some native => exact hs native (Array.mem_iff_getElem?.2 ⟨i, hi⟩)

end ScriptMachine
