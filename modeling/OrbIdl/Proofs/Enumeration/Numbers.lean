import Mathlib.Data.List.Induction
import OrbIdl.Proofs.Enumeration.Bits

/-!
# The numbers of enumerators

An enumerator of C++ without an initializer is one more than the one before it, so that the numbers
of an enumeration hang on the order in which its enumerators are written.
-/

namespace OrbIdl.Cpp.Enum

open Model Xml

/-! ## Enumerators in C++ -/

/-- Enumerators in order, each with its number if it has one. -/
abbrev Scope := List (String × Option Int)

def numberOf? (scope : Scope) (name : String) : Option Int :=
  (scope.lookup name).join

def nextNumber (scope : Scope) : Option Int :=
  match scope.getLast? with
  | none => some 0
  | some (_, n) => n.map (· + 1)

section

-- What an expression comes to that is neither a literal nor a name.
variable (other : Scope → String → Option Int)

def expressionValue (scope : Scope) (text : String) : Option Int :=
  match hexadecimal? text with
  | some bits => some bits.toNat
  | none => (numberOf? scope text).or (other scope text)

def Initializer.value (scope : Scope) : Initializer → Option Int
  | expression text => expressionValue other scope text
  | number n => some n
  | bits mask => some mask.toNat
  | enumerator name => numberOf? scope name

def Enumerator.value (scope : Scope) (x : Enumerator) : Option Int :=
  match x.initializer with
  | some i => i.value other scope
  | none => nextNumber scope

/-- Each enumerator is seen by those after it. -/
def evaluate (scope : Scope) : List Enumerator → Scope
  | [] => scope
  | x :: xs => evaluate (scope ++ [(x.name, x.value other scope)]) xs

theorem evaluate_append (scope : Scope) (xs ys : List Enumerator) :
    evaluate other scope (xs ++ ys) = evaluate other (evaluate other scope xs) ys := by
  induction xs generalizing scope with
  | nil => rfl
  | cons x xs ih => simp [evaluate, ih]

theorem numberOf?_of_mem {scope : Scope} {name : String} {n : Option Int}
    (hnodup : (scope.map (·.1)).Nodup) (h : (name, n) ∈ scope) : numberOf? scope name = n := by
  unfold numberOf?
  induction scope with
  | nil => simp at h
  | cons x scope ih =>
    obtain ⟨key, m⟩ := x
    rw [List.map_cons, List.nodup_cons] at hnodup
    rcases List.mem_cons.mp h with heq | hmem
    · cases heq
      simp
    · have hne : name ≠ key := by
        rintro rfl
        exact hnodup.1 (List.mem_map.mpr ⟨_, hmem, rfl⟩)
      simp only [List.lookup_cons, beq_false_of_ne hne]
      exact ih hnodup.2 hmem

/-! ### Without initializers -/

theorem nextNumber_mapIdx {α : Type} (name : α → String) (xs : List α) :
    nextNumber (xs.mapIdx fun i x => (name x, some (i : Int))) = some (xs.length : Int) := by
  unfold nextNumber
  rw [List.getLast?_mapIdx]
  cases hlast : xs.getLast? with
  | none => simp [List.getLast?_eq_none_iff.mp hlast]
  | some y =>
    have hpos : 0 < xs.length := List.length_pos_of_mem (List.mem_of_getLast? hlast)
    simp
    omega

theorem evaluate_plain {values : List EnumValue} (h : ∀ v ∈ values, v.mask = none) :
    evaluate other [] (values.map valueEnumerator) =
      values.mapIdx fun i v => (v.name, some (i : Int)) := by
  induction values using List.reverseRecOn with
  | nil => rfl
  | append_singleton values v ih =>
    have hvalues := ih fun w hw => h w (List.mem_append_left _ hw)
    have hv := h v (by simp)
    rw [List.map_append, evaluate_append, hvalues, List.mapIdx_concat]
    simp [evaluate, Enumerator.value, valueEnumerator, hv, nextNumber_mapIdx]

/-! ### With expressions -/

/-- Expressions at the end change nothing before them, and each has what is before it for its
scope. -/
theorem evaluate_synonyms (scope : Scope) (synonyms : List Synonym) :
    ∃ tail : Scope, evaluate other scope (synonyms.map synonymEnumerator) = scope ++ tail ∧
      ∀ i, tail[i]? = synonyms[i]?.map fun s =>
        (s.name, expressionValue other (scope ++ tail.take i) s.value) := by
  induction synonyms generalizing scope with
  | nil => exact ⟨[], by simp [evaluate], by simp⟩
  | cons s synonyms ih =>
    let x : String × Option Int := (s.name, expressionValue other scope s.value)
    obtain ⟨tail, htail, hvalues⟩ := ih (scope ++ [x])
    refine ⟨x :: tail, ?_, ?_⟩
    · rw [List.append_assoc] at htail
      exact htail
    · intro i
      cases i with
      | zero => simp [x]
      | succ i => simpa using hvalues i

theorem evaluate_masks {values : List EnumValue} {ns : List Nat} (scope : Scope)
    (h : List.Forall₂ EnumValue.HasNumber values ns) :
    evaluate other scope (values.map valueEnumerator) =
      scope ++ List.zipWith (fun v n => (v.name, some (n : Int))) values ns := by
  induction h generalizing scope with
  | nil => simp [evaluate]
  | cons hv _ ih =>
    obtain ⟨m, hm, hnumber⟩ := hv
    obtain ⟨bits, hbits, rfl⟩ := exists_bits_of_isMask hnumber
    simp [evaluate, ih, Enumerator.value, valueEnumerator, hm, Initializer.value, expressionValue,
      hbits]

/-! ## The values and what closes them -/

/-- The values count from zero. -/
def standardNumbers (e : Enumeration) : Scope :=
  e.values.mapIdx (fun i v => (v.name, some (i : Int))) ++
    [("Count", some (e.values.length : Int)), ("Min", some 0),
      ("Max", some (e.values.length - 1 : Int))]

/-- Each value has the number of its literal. -/
def bitmapNumbers (e : Enumeration) (ns : List Nat) : Scope :=
  List.zipWith (fun v n => (v.name, some (n : Int))) e.values ns ++
    [("Count", some (e.values.length : Int)), ("None", some 0),
      ("AllBits", some ((ns.foldl (· ||| ·) 0 : Nat) : Int))]

/-- A value is found behind the sentinels that are written so far. -/
theorem numberOf?_counted {values : List EnumValue} {names : List String}
    (hdistinct : (values.map (·.name) ++ names).Nodup) (rest : Scope)
    (hrest : (rest.map (·.1)).Sublist names) {i : Nat} {v : EnumValue}
    (hv : values[i]? = some v) :
    numberOf? (values.mapIdx (fun i v => (v.name, some (i : Int))) ++ rest) v.name =
      some (i : Int) := by
  have hnames : (values.mapIdx fun i v => (v.name, some (i : Int))).map (·.1) =
      values.map (·.name) := by
    apply List.ext_getElem <;> simp
  apply numberOf?_of_mem
  · rw [List.map_append, hnames]
    exact hdistinct.sublist (hrest.append_left _)
  · apply List.mem_append_left
    apply List.mem_of_getElem? (i := i)
    simp [hv]

theorem evaluate_standard {e : Enumeration} (hshape : e.shape = .standard) (hne : e.values ≠ [])
    (hplain : ∀ v ∈ e.values, v.mask = none)
    (hdistinct : (e.values.map (·.name) ++ ["Count", "Min", "Max"]).Nodup) :
    evaluate other [] (e.values.map valueEnumerator ++ sentinels e) = standardNumbers e := by
  have hpos : 0 < e.values.length := List.length_pos_iff.mpr hne
  obtain ⟨first, hfirst⟩ : ∃ v, e.values[0]? = some v := ⟨_, List.getElem?_eq_getElem hpos⟩
  obtain ⟨last, hlast⟩ : ∃ v, e.values[e.values.length - 1]? = some v :=
    ⟨_, List.getElem?_eq_getElem (by omega)⟩
  have hmin := numberOf?_counted hdistinct
    [("Count", some (e.values.length : Int))] (by simp) hfirst
  have hmax := numberOf?_counted hdistinct
    [("Count", some (e.values.length : Int)), ("Min", some 0)] (by simp) hlast
  have hcount := nextNumber_mapIdx EnumValue.name e.values
  have hclosing : sentinels e = [⟨"Count", none⟩, ⟨"Min", some (.enumerator first.name)⟩,
      ⟨"Max", some (.enumerator last.name)⟩] := by
    simp [sentinels, hshape, List.head?_eq_getElem?, List.getLast?_eq_getElem?, hfirst, hlast]
  have hlength : ((e.values.length - 1 : Nat) : Int) = e.values.length - 1 := by omega
  rw [evaluate_append, evaluate_plain other hplain, hclosing]
  simp only [evaluate, Enumerator.value, Initializer.value, hcount]
  simp [standardNumbers, hmin, hmax, hlength]

theorem evaluate_bitmap {e : Enumeration} (hshape : e.shape = .bitmap) {ns : List Nat}
    (hnumbers : List.Forall₂ EnumValue.HasNumber e.values ns)
    (hunion : e.allBits.toNat = ns.foldl (· ||| ·) 0) :
    evaluate other [] (e.values.map valueEnumerator ++ sentinels e) = bitmapNumbers e ns := by
  rw [evaluate_append, evaluate_masks other [] hnumbers, sentinels, hshape]
  simp [evaluate, Enumerator.value, Initializer.value, hunion, bitmapNumbers]

end

def gears : Element :=
  let named (tag : String) (attributes : List (String × String)) : Element :=
    ⟨tag, .unknown, attributes.map fun (key, value) => ⟨key, value, .unknown, false⟩, "", []⟩
  { named Tag.enumeration [(Key.name, "EGear")] with
    children := [named Tag.enumValue [(Key.name, "Low")], named Tag.enumValue [(Key.name, "High")],
      named Tag.enumSynonym [(Key.name, "First"), (Key.value, "Low")]] }

def gearInfo : Enumeration where
  name := "EGear"
  shape := .standard
  base := none
  altTextSource := .off
  altPattern := ""
  altText2 := false
  altNumbers := false
  binaryStream := false
  increments := .off
  maps := ⟨.off, .off, .off, .off, .off, .off⟩
  span := .unknown
  values := [⟨"Low", none, none, "", "", 0, .unknown⟩, ⟨"High", none, none, "", "", 0, .unknown⟩]
  synonyms := [⟨"First", "Low"⟩]
  textSource := .off

end OrbIdl.Cpp.Enum
