import ScriptMachine.Proofs.Value.Growth

/-!
# Keeping — what a name means while something keeps the receiver

The fields of an object know it as `this`, but they do not keep it: once nothing else does, `this` means nothing there.
Values are kept by the host, by the scopes that define them, by arrays and by host objects; scopes are kept by the host,
by scopes inside them and by the objects whose fields they hold. A value that is written somewhere is kept by nothing
that has not been kept before (`Heap.Kept.of_define`).

`Scope.get?` takes every object for kept. `Heap.seen?` does not, and the two agree on all names but `this` and wherever
the object is kept (`Heap.seen?_of_ne`, `Heap.seen?_of_kept`).
-/

namespace ScriptMachine

/-- What the host has at hand: values, scopes, and what its own objects remember. -/
structure Host where
  values : Value → Prop
  scopes : ScopeId → Prop
  remembers : NativeHandle → Value → Prop

/-- A host with a value that it is about to hand over. -/
def Host.passing (host : Host) (v : Value) : Host := { host with values := fun w => w = v ∨ host.values w }

namespace Heap

variable {host : Host} {h : Heap} {s e : ScopeId} {n : String} {v w : Value}

/-! ### What is kept -/

/-- Values and scopes for each of which something that is itself among them, or the host, has a handle. -/
structure Keeping (host : Host) (h : Heap) (values : Value → Prop) (scopes : ScopeId → Prop) : Prop where
  value : ∀ w, values w → host.values w ∨ (∃ s n, scopes s ∧ (h.scope s).vars.lookup n = some w) ∨
    (∃ a, values (.array a) ∧ w ∈ h.elements a) ∨ ∃ handle, values (.native handle) ∧ host.remembers handle w
  scope : ∀ s, scopes s → host.scopes s ∨ (∃ t, scopes t ∧ h.parent? t = some s) ∨
    ∃ o, values (.object o) ∧ h.fields o = s

/-- A value is kept as long as there is a handle to it. Handles are counted, so values in a ring keep each other. -/
def Kept (host : Host) (h : Heap) (w : Value) : Prop :=
  ∃ values scopes, h.Keeping host values scopes ∧ values w

/-- What a scope at hand defines is kept. -/
theorem Kept.of_lookup (hs : host.scopes s) (hw : (h.scope s).vars.lookup n = some w) : h.Kept host w := by
  refine ⟨(· = w), host.scopes, ⟨fun w' hw' => ?_, fun t ht => .inl ht⟩, rfl⟩
  subst hw'
  exact .inr (.inl ⟨s, n, hs, hw⟩)

theorem Kept.passing (hw : h.Kept host w) (v : Value) : h.Kept (host.passing v) w := by
  obtain ⟨values, scopes, hk, hw⟩ := hw
  exact ⟨values, scopes, ⟨fun w hw => (hk.value w hw).imp_left .inr, hk.scope⟩, hw⟩

/-- What is kept after a value is written was kept while the host still had the value. -/
theorem Kept.of_define (hw : (h.define s n v).Kept host w) : h.Kept (host.passing v) w := by
  obtain ⟨values, scopes, hk, hw⟩ := hw
  refine ⟨values, scopes, ⟨fun w hw => ?_, fun t ht => ?_⟩, hw⟩
  · rcases hk.value w hw with hhost | ⟨t, m, ht, hlookup⟩ | harray | hhandle
    · exact .inl (.inr hhost)
    · rw [lookup_define] at hlookup
      split at hlookup
      · exact .inl (.inl (Option.some.inj hlookup).symm)
      · exact .inr (.inl ⟨t, m, ht, hlookup⟩)
    · exact .inr (.inr (.inl harray))
    · exact .inr (.inr (.inr hhandle))
  · rcases hk.scope t ht with hhost | ⟨u, hu, hparent⟩ | hobject
    · exact .inl hhost
    · exact .inr (.inl ⟨u, hu, (parent_define h s u n v).symm.trans hparent⟩)
    · exact .inr (.inr hobject)

/-! ### What is read -/

open Classical in
/-- The value of a name in one scope. The fields of an object know it as `this` as long as it is kept. -/
noncomputable def seen? (h : Heap) (host : Host) (s : ScopeId) (name : String) : Option Value :=
  ((h.scope s).vars.lookup name).or
    (if name = thisName then ((h.scope s).owner.filter fun o => h.Kept host (.object o)).map .object else none)

/-- The value of a name along the chain. -/
noncomputable def found? (h : Heap) (host : Host) (e : ScopeId) (name : String) : Option Value :=
  (h.chain e).findSome? (h.seen? host · name)

/-- In one scope every object is taken for kept. -/
theorem getLocal?_eq (h : Heap) (s : ScopeId) (n : String) : h.getLocal? s n =
    ((h.scope s).vars.lookup n).or (if n = thisName then (h.scope s).owner.map .object else none) := by
  rw [getLocal?, Scope.get?]
  cases (h.scope s).vars.lookup n <;> rfl

theorem seen?_of_lookup (hv : (h.scope s).vars.lookup n = some v) : h.seen? host s n = some v := by
  rw [seen?, hv, Option.some_or]

theorem seen?_of_ne (hn : n ≠ thisName) : h.seen? host s n = h.getLocal? s n := by
  rw [seen?, getLocal?_eq, if_neg hn, if_neg hn]

theorem seen?_of_getLocal?_eq_none (hnone : h.getLocal? s n = none) : h.seen? host s n = none := by
  rw [getLocal?_eq, Option.or_eq_none_iff] at hnone
  obtain ⟨hlookup, howner⟩ := hnone
  rw [seen?, hlookup, Option.none_or]
  by_cases hn : n = thisName
  · rw [if_pos hn, Option.map_eq_none_iff] at howner
    rw [if_pos hn, howner]
    rfl
  · exact if_neg hn

/-- A kept object is found by its fields. -/
theorem seen?_of_kept (hk : ∀ o, (h.scope s).owner = some o → h.Kept host (.object o)) :
    h.seen? host s n = h.getLocal? s n := by
  rw [seen?, getLocal?_eq]
  cases howner : (h.scope s).owner with
  | none => rfl
  | some o =>
    have hkept : h.Kept host (.object o) := hk o howner
    simp only [Option.filter_some, hkept, decide_true, if_true]

/-- An object that nothing keeps is not found by its fields. -/
theorem seen?_of_not_kept {o : ObjectId} (howner : (h.scope s).owner = some o)
    (hnone : (h.scope s).vars.lookup n = none) (hk : ¬ h.Kept host (.object o)) : h.seen? host s n = none := by
  rw [seen?, hnone, howner]
  simp [Option.filter_some, hk]

/-- A name means the same before and after a change that keeps its scope and the receiver. -/
theorem seen?_congr {h' : Heap} {host' : Host} (hvars : (h'.scope s).vars.lookup n = (h.scope s).vars.lookup n)
    (howner : (h'.scope s).owner = (h.scope s).owner)
    (hkept : n = thisName → (h.scope s).vars.lookup n = none → ∀ o, (h.scope s).owner = some o →
      (h'.Kept host' (.object o) ↔ h.Kept host (.object o))) : h'.seen? host' s n = h.seen? host s n := by
  rw [seen?, seen?, hvars, howner]
  cases hlookup : (h.scope s).vars.lookup n with
  | some w => rw [Option.some_or, Option.some_or]
  | none =>
    rw [Option.none_or, Option.none_or]
    split
    · rename_i hn
      cases ho : (h.scope s).owner with
      | none => rfl
      | some o =>
        have hiff := hkept hn hlookup o ho
        by_cases hk : h.Kept host (.object o)
        · simp only [Option.filter_some, hk, hiff.2 hk]
        · simp only [Option.filter_some, hk, mt hiff.1 hk]
    · rfl

theorem found?_of_ne (hn : n ≠ thisName) : h.found? host e n = h.resolve? e n := by
  rw [found?, resolve?]
  exact congrArg (fun f => List.findSome? f (h.chain e)) (funext fun s => seen?_of_ne hn)

end Heap

end ScriptMachine
