import ScriptMachine.Machine.Property

/-!
# Elements — array elements are read where they were written

A write asks whether its key is a position and so does a read, but they do not ask alike: a write accepts a text with a
plus sign before its digits, and a read does not. For all other keys the two agree (`Value.readPosition?_eq`), so that
an element is read back under the key it was written under. A text with a plus sign writes an element that the same
text does not find again (`Machine.elements_read_back`).
-/

namespace ScriptMachine

/-! ### Positions -/

/-- A text that begins with a plus sign. -/
def Value.isSigned : Value → Bool
  | .string s => s.toList.head? == some '+'
  | _ => false

/-- A text without a plus sign is a position if it is a run of digits. -/
theorem Number.readPosition?_unsigned {s : String} (h : s.toList.head? ≠ some '+') :
    readPosition? s = readDigits? s.toList := by
  unfold readPosition?
  split
  · rename_i digits hs
    exact absurd (by rw [hs]; rfl) h
  · rfl

/-- **Reads and writes agree on positions**, except that no text with a plus sign is a position to a read. -/
theorem Value.readPosition?_eq (key : Value) :
    key.readPosition? = if key.isSigned then none else key.toPosition? := by
  cases key with
  | string s =>
    simp only [readPosition?, toPosition?, isSigned, beq_iff_eq]
    by_cases hplus : s.toList.head? = some '+'
    · have hdigits : ¬ s.toList.all Char.isDigit = true := fun hall =>
        absurd (List.all_eq_true.1 hall _ (List.mem_of_mem_head? hplus)) (by decide)
      rw [if_neg hdigits, if_pos hplus]
    · rw [if_neg hplus, Number.readPosition?_unsigned hplus]
      by_cases hdigits : s.toList.all Char.isDigit = true
      · rw [if_pos hdigits]
      · rw [if_neg hdigits]
        simp [Number.readDigits?, Bool.eq_false_iff.2 hdigits]
  | _ => rfl

/-! ### Elements of arrays -/

namespace Heap

variable {h : Heap} {a b : ArrayId} {i : Nat} {v : Value}

theorem size_place (i : Nat) (v : Value) (items : Array Value) :
    (place i v items).size = max items.size (i + 1) := by
  unfold place
  split
  · rw [Array.size_setIfInBounds]
    omega
  · rw [Array.size_push, Array.size_append, Array.size_replicate]
    omega

/-- The written element, the elements that were there, and `undefined` in between. -/
theorem getElem?_place (i j : Nat) (v : Value) (items : Array Value) :
    (place i v items)[j]? =
      if j = i then some v else if items.size ≤ j ∧ j < i then some .undefined else items[j]? := by
  unfold place
  by_cases hi : i < items.size
  · rw [if_pos hi, Array.getElem?_setIfInBounds]
    by_cases hj : j = i
    · subst hj
      simp [hi]
    · rw [if_neg (Ne.symm hj), if_neg hj, if_neg (by omega)]
  · have hsize : (items ++ Array.replicate (i - items.size) Value.undefined).size = i := by
      rw [Array.size_append, Array.size_replicate]
      omega
    rw [if_neg hi, Array.getElem?_push, hsize]
    by_cases hj : j = i
    · rw [if_pos hj, if_pos hj]
    · rw [if_neg hj, if_neg hj, Array.getElem?_append]
      by_cases hold : j < items.size
      · rw [if_pos hold, if_neg (by omega)]
      · rw [if_neg hold, Array.getElem?_replicate]
        by_cases hgap : j < i
        · rw [if_pos (by omega), if_pos ⟨by omega, hgap⟩]
        · rw [if_neg (by omega), if_neg (fun hg => hgap hg.2), Array.getElem?_eq_none (by omega)]

theorem element?_modifyArray (ha : a.index < h.arrays.size) (i j : Nat) (v : Value) :
    (h.modifyArray a (place i v)).element? a j =
      if j = i then some v
      else if (h.elements a).size ≤ j ∧ j < i then some .undefined else h.element? a j := by
  rw [element?, elements_modifyArray h a a _ ha, if_pos rfl, getElem?_place]
  rfl

end Heap

/-! ### Reading and writing -/

namespace Machine

variable {m m' : Machine} {a : ArrayId} {key v : Value} {i : Nat}

/-- A text with a plus sign names neither the length nor a method. -/
theorem positional_signed (h : key.isSigned = true) (elementAt : Nat → Option Value) (length : Nat) :
    positional key elementAt length Builtin.arrayMethods = .undefined := by
  unfold positional
  rw [Value.readPosition?_eq, if_pos h]
  cases key with
  | string s =>
    have hplus : s.toList.head? = some '+' := by simpa [Value.isSigned] using h
    have hother : ∀ name : String, name.toList.head? ≠ some '+' → s ≠ name := fun name hn hs => hn (hs ▸ hplus)
    have hmethod : (Builtin.arrayMethods.find? fun b => b.name == s) = none := by
      refine List.find?_eq_none.2 fun b hb => ?_
      have hname : ∀ b ∈ Builtin.arrayMethods, b.name.toList.head? ≠ some '+' := by decide
      simpa using (hother _ (hname b hb)).symm
    simp only [Builtin.method, hmethod]
    rw [if_neg (hother "length" (by decide))]
  | _ => rfl

/-- Reading at a position gives the element there. -/
theorem property_position {j : Nat} (h : key.readPosition? = some j) (m : Machine) (a : ArrayId) :
    m.property (.array a) key = .ok ((m.heap.element? a j).getD .undefined) := by
  simp only [property, positional, h]

/-- The two ways an indexed write to an array goes. -/
theorem setProperty_array (m : Machine) (a : ArrayId) (key v : Value) :
    (∃ i, key.toPosition? = some i ∧ i ≤ Heap.maxIndex ∧
      m.setProperty (.array a) key v = (.ok (), m.mapHeap (·.modifyArray a (Heap.place i v)))) ∨
    ((∀ i, key.toPosition? = some i → Heap.maxIndex < i) ∧ ∃ c, m.setProperty (.array a) key v = (.error c, m)) := by
  unfold setProperty
  cases hkey : key.toPosition? with
  | none => exact .inr ⟨nofun, _, rfl⟩
  | some i =>
    by_cases hi : Heap.maxIndex < i
    · refine .inr ⟨fun j hj => Option.some.inj hj ▸ hi, .indexOutOfRange i, ?_⟩
      simp only [Heap.checkIndex, if_pos hi]
    · refine .inl ⟨i, rfl, Nat.le_of_not_lt hi, ?_⟩
      simp only [Heap.checkIndex, if_neg hi]

/-- What a write of an element leaves. -/
structure Wrote (m : Machine) (a : ArrayId) (i : Nat) (v : Value) (m' : Machine) : Prop where
  /-- Any key that names the position reads the value. -/
  here : ∀ key, key.readPosition? = some i → m'.property (.array a) key = .ok v
  /-- Every other position reads as before. -/
  elsewhere : ∀ key j, key.readPosition? = some j → j ≠ i →
    m'.property (.array a) key = m.property (.array a) key
  /-- The gap that the write filled holds `undefined`. -/
  gap : ∀ j, (m.heap.elements a).size ≤ j → j < i → m'.heap.element? a j = some .undefined
  size : (m'.heap.elements a).size = max (m.heap.elements a).size (i + 1)
  /-- All other arrays, and the machine apart from its arrays, stay. -/
  others : ∀ b, b ≠ a → m'.heap.elements b = m.heap.elements b
  rest : m' = { m with heap := { m.heap with arrays := m'.heap.arrays } }

theorem wrote_modifyArray (ha : a.index < m.heap.arrays.size) (i : Nat) (v : Value) :
    Wrote m a i v (m.mapHeap (·.modifyArray a (Heap.place i v))) := by
  have helements := fun b => Heap.elements_modifyArray m.heap a b (Heap.place i v) ha
  refine ⟨fun key hkey => ?_, fun key j hkey hj => ?_, fun j hold hgap => ?_, ?_, fun b hb => ?_, rfl⟩
  · rw [property_position hkey]
    exact congrArg (fun e : Option Value => Except.ok (e.getD .undefined))
      ((Heap.element?_modifyArray ha i i v).trans (if_pos rfl))
  · rw [property_position hkey, property_position hkey]
    have hread := Heap.element?_modifyArray ha i j v
    rw [if_neg hj] at hread
    refine congrArg Except.ok ?_
    refine (congrArg (·.getD Value.undefined) hread).trans ?_
    split
    · -- a position past the end read as `undefined` before
      rename_i hgap
      rw [Heap.element?, Array.getElem?_eq_none hgap.1]
      rfl
    · rfl
  · exact (Heap.element?_modifyArray ha i j v).trans (by rw [if_neg (by omega), if_pos ⟨hold, hgap⟩])
  · refine (congrArg Array.size (helements a)).trans ?_
    rw [if_pos rfl, Heap.size_place]
  · exact (helements b).trans (if_neg hb)

/-- **An element is read back under the key it was written under, unless the key has a plus sign.** For every machine,
array, key and value: the write succeeds exactly if the key is a position that is not too large, and a write that fails
changes nothing. After a write that succeeds, the key reads the value; only a text with a plus sign reads `undefined`
instead, although the element is there. Whatever other position is read gives what it gave before, and nothing but the
elements of this array has changed. -/
theorem elements_read_back (m : Machine) (a : ArrayId) (ha : a.index < m.heap.arrays.size) (key v : Value) :
    ((m.setProperty (.array a) key v).1 = .ok () ↔ ∃ i, key.toPosition? = some i ∧ i ≤ Heap.maxIndex) ∧
    (∀ c m', m.setProperty (.array a) key v = (.error c, m') → m' = m) ∧
    ∀ m', m.setProperty (.array a) key v = (.ok (), m') → ∃ i, key.toPosition? = some i ∧ Wrote m a i v m' ∧
      m'.property (.array a) key = .ok (if key.isSigned then .undefined else v) := by
  rcases setProperty_array m a key v with ⟨i, hkey, hi, hset⟩ | ⟨hlarge, c, hset⟩
  · rw [hset]
    refine ⟨⟨fun _ => ⟨i, hkey, hi⟩, fun _ => rfl⟩, fun c m' hm' => ?_, fun m' hm' => ⟨i, hkey, ?_⟩⟩
    · cases (Prod.mk.inj hm').1
    obtain rfl := (Prod.mk.inj hm').2
    have hwrote := wrote_modifyArray ha i v
    refine ⟨hwrote, ?_⟩
    by_cases hsigned : key.isSigned = true
    · rw [if_pos hsigned, property, positional_signed hsigned]
    · rw [if_neg hsigned]
      refine hwrote.here key ?_
      rw [Value.readPosition?_eq, if_neg hsigned, hkey]
  · rw [hset]
    refine ⟨⟨nofun, fun ⟨i, hkey, hi⟩ => absurd (hlarge i hkey) (Nat.not_lt.2 hi)⟩, fun c' m' hm' => ?_,
      fun m' hm' => ?_⟩
    · exact (Prod.mk.inj hm').2.symm
    · cases (Prod.mk.inj hm').1

/-- A machine with an array of one element. -/
def withElement (v : Value) : Machine := load { sections := #[] } {} { arrays := #[#[v]] } {}

/-- The third element is written under `2`, with a gap before it, and read under `2`; under `+2` it is written too, and
`+2` reads `undefined`. -/
theorem elements_read_back_gap :
    0 < (withElement .null).heap.arrays.size ∧
    (∃ m', (withElement .null).setProperty (.array ⟨0⟩) (.string "2") (.bool true) = (.ok (), m') ∧
      m'.property (.array ⟨0⟩) (.string "2") = .ok (.bool true) ∧ (m'.heap.elements ⟨0⟩).size = 3 ∧
      m'.heap.element? ⟨0⟩ 1 = some .undefined ∧ m'.property (.array ⟨0⟩) (.string "0") = .ok .null) ∧
    ∃ m', (withElement .null).setProperty (.array ⟨0⟩) (.string "+2") (.bool true) = (.ok (), m') ∧
      m'.property (.array ⟨0⟩) (.string "+2") = .ok .undefined ∧
      m'.property (.array ⟨0⟩) (.string "2") = .ok (.bool true) := by
  have hexists : (⟨0⟩ : ArrayId).index < (withElement .null).heap.arrays.size := by decide
  have hzero : (Value.string "0").readPosition? = some 0 := by decide +kernel
  have htwo : (Value.string "2").readPosition? = some 2 := by decide +kernel
  refine ⟨hexists, ?_, ?_⟩
  · obtain ⟨hok, -, hwrites⟩ := elements_read_back (withElement .null) ⟨0⟩ hexists (.string "2") (.bool true)
    have hposition : (Value.string "2").toPosition? = some 2 := by decide +kernel
    have hset := Prod.ext (hok.2 ⟨2, hposition, by decide⟩) rfl
    obtain ⟨i, hi, hwrote, hread⟩ := hwrites _ hset
    obtain rfl := Option.some.inj (hposition.symm.trans hi)
    refine ⟨_, hset, hread, hwrote.size, hwrote.gap 1 (by decide) (by decide), ?_⟩
    rw [hwrote.elsewhere _ 0 hzero (by decide), property_position hzero]
    rfl
  · obtain ⟨hok, -, hwrites⟩ := elements_read_back (withElement .null) ⟨0⟩ hexists (.string "+2") (.bool true)
    have hposition : (Value.string "+2").toPosition? = some 2 := by decide +kernel
    have hset := Prod.ext (hok.2 ⟨2, hposition, by decide⟩) rfl
    obtain ⟨i, hi, hwrote, hread⟩ := hwrites _ hset
    obtain rfl := Option.some.inj (hposition.symm.trans hi)
    exact ⟨_, hset, hread, hwrote.here _ htwo⟩

/-- A text with a plus sign does not find the element that it wrote. -/
theorem signed_lost : ¬ ∀ (m : Machine) (a : ArrayId) (key v : Value) (m' : Machine), a.index < m.heap.arrays.size →
    m.setProperty (.array a) key v = (.ok (), m') → m'.property (.array a) key = .ok v := by
  intro h
  have hposition : (Value.string "+2").toPosition? = some 2 := by decide +kernel
  rcases setProperty_array (withElement .null) ⟨0⟩ (.string "+2") (.bool true) with ⟨i, -, -, hset⟩ | ⟨hlarge, -⟩
  · have hread := h (withElement .null) ⟨0⟩ (.string "+2") (.bool true) _ (by decide) hset
    rw [property, positional_signed (by decide +kernel)] at hread
    cases hread
  · exact absurd (hlarge 2 hposition) (by decide)

end Machine

end ScriptMachine
