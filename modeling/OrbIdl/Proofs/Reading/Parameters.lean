import OrbIdl.Cpp.Declarator
import OrbIdl.Proofs.Reading.Sections

/-!
# What a parameter is read from

A parameter is read just when its element is legal. It has the attributes of the element, and its
type has the arguments that it needs and no others, so that its text in C++ has no gaps.
-/

namespace OrbIdl

theorem Direction.ofName?_eq_some_iff {word : String} {d : Direction} :
    Direction.ofName? word = some d ↔ word = d.name := by
  constructor
  · intro h
    unfold Direction.ofName? at h
    split at h <;> cases h <;> rfl
  · rintro rfl
    cases d <;> rfl

theorem DataType.ofTag?_eq_some_iff {tag : String} {t : DataType} :
    DataType.ofTag? tag = some t ↔ tag = namePrefix ++ t.name := by
  constructor
  · intro h
    exact (DataType.tag_of_ofTag? h).symm
  · rintro rfl
    exact DataType.ofTag?_tag t

end OrbIdl

namespace OrbIdl.Model

open Xml

variable {e : Element}

/-! ## Types -/

/-- An argument that a type needs is an attribute of its element. -/
def TypeRef.Supplied (e : Element) (needed : TypeArgument × ArgumentForm)
    (given : TypeArgument × String) : Prop :=
  given.1 = needed.1 ∧ e.get? needed.1.key = some given.2

/-- The type is the one that an element at `position` names, with the arguments that it needs. -/
structure TypeRef.ReadFrom (t : TypeRef) (position : Position) (e : Element) : Prop where
  name : e.name = namePrefix ++ t.type.name
  stands : t.type.standsAt position = true
  arguments : List.Forall₂ (Supplied e) t.type.arguments t.arguments
  span : t.span = e.span

theorem TypeRef.ofElement_eq_ok_iff {position : Position} {t : TypeRef} :
    TypeRef.ofElement position e = .ok t ↔ t.ReadFrom position e := by
  have hargument (needed : TypeArgument × ArgumentForm) (given : TypeArgument × String) :
      (do return (needed.1, ← require e needed.1.key) : Except Fault _) = .ok given ↔
        Supplied e needed given := by
    rw [Supplied, ← require_eq_ok_iff]
    obtain ⟨argument, value⟩ := given
    cases require e needed.1.key <;> simp [Bind.bind, Except.bind, pure, Except.pure, eq_comm]
  unfold TypeRef.ofElement
  constructor
  · intro h
    split at h
    · cases h
    · rename_i type htype
      obtain ⟨hstands, h⟩ := guard_eq_ok_iff.mp h
      obtain ⟨arguments, harguments, h⟩ := bind_eq_ok_iff.mp h
      cases h
      refine ⟨DataType.ofTag?_eq_some_iff.mp htype, eq_true_of_ne_false hstands, ?_, rfl⟩
      exact (mapM_eq_ok_iff.mp harguments).imp fun needed given => (hargument needed given).mp
  · rintro ⟨hname, hstands, harguments, hspan⟩
    rw [DataType.ofTag?_eq_some_iff.mpr hname]
    apply guard_eq_ok_iff.mpr ⟨by simp [hstands], _⟩
    apply bind_eq_ok_iff.mpr ⟨t.arguments, mapM_eq_ok_iff.mpr _, _⟩
    · exact harguments.imp fun needed given => (hargument needed given).mpr
    · rw [← hspan]
      rfl

/-- An argument is looked up in the element, and found if it is needed. -/
theorem TypeRef.lookup_of_supplied {needed : List (TypeArgument × ArgumentForm)}
    {given : List (TypeArgument × String)} (h : List.Forall₂ (Supplied e) needed given)
    (a : TypeArgument) :
    given.lookup a = if a ∈ needed.map Prod.fst then e.get? a.key else none := by
  induction h with
  | nil => rfl
  | @cons first given' needed' rest hfirst hrest ih =>
    obtain ⟨name, value⟩ := given'
    obtain ⟨hname, hvalue⟩ := hfirst
    dsimp only at hname hvalue
    subst hname
    by_cases ha : a = first.1
    · simp [ha, hvalue]
    · rw [List.lookup_cons, beq_false_of_ne ha]
      simp only [ih, List.map_cons, List.mem_cons, ha, false_or]

namespace TypeRef.ReadFrom

variable {position : Position} {t : TypeRef} (h : t.ReadFrom position e) {a : TypeArgument}
include h

theorem argument?_eq_some (ha : a ∈ t.type.arguments.map Prod.fst) :
    t.argument? a = some (t.argument a) := by
  obtain ⟨needed, hneeded, rfl⟩ := List.mem_map.mp ha
  obtain ⟨given, -, -, hvalue⟩ := exists_of_forall₂ h.arguments hneeded
  have hgiven := lookup_of_supplied h.arguments needed.1
  rw [if_pos ha, hvalue] at hgiven
  rw [argument, argument?, hgiven]
  rfl

theorem argument?_eq_none (ha : a ∉ t.type.arguments.map Prod.fst) : t.argument? a = none := by
  rw [argument?, lookup_of_supplied h.arguments, if_neg ha]

theorem get?_eq_some (ha : a ∈ t.type.arguments.map Prod.fst) :
    e.get? a.key = some (t.argument a) := by
  rw [← h.argument?_eq_some ha, argument?, lookup_of_supplied h.arguments, if_pos ha]

theorem elementType_of_mem (ha : .elementType ∈ t.type.arguments.map Prod.fst) :
    t.elementType?.getD "" = t.argument .elementType := by
  rw [elementType?, h.argument?_eq_some ha]
  rfl

theorem elementType_of_not_mem (ha : .elementType ∉ t.type.arguments.map Prod.fst) :
    t.elementType?.getD "" = t.argument .type := by
  rw [elementType?, h.argument?_eq_none ha]
  rfl

end TypeRef.ReadFrom

/-! ## Parameters -/

theorem Param.moveRefusal?_eq_none_iff {direction : Direction} {type : DataType} :
    moveRefusal? direction type = none ↔ direction ≠ .output ∧ type.isMoveable = true := by
  unfold moveRefusal?
  by_cases hdirection : direction = .output
  · simp [hdirection]
  · cases type.isMoveable <;> simp [hdirection]

/-- Each part of a parameter comes from its own attribute, its type from the first child, and the
rules on how parts go together are kept. -/
structure Param.ReadFrom (p : Param) (e : Element) : Prop where
  name : e.get? Key.name = some p.name
  direction : e.get? Key.direction = some p.direction.name
  type : ∃ child, e.children.head? = some child ∧ p.type.ReadFrom .param child
  moveable : p.moveable = isYes e Key.moveable
  fallback : p.fallback = e.get? Key.defaultValue
  span : p.span = e.span
  moved : p.moveable = true → p.direction ≠ .output ∧ p.type.type.isMoveable = true
  received : p.type.type = .memBuf → p.direction = .input
  bare : p.type.type.isBuffer = true → p.fallback = none

/-- What the checks behind the type have to find. -/
theorem Param.readFrom_of_checks {name : String} {direction : Direction} {child : Element}
    {type : TypeRef} (hname : e.get? Key.name = some name)
    (hdirection : e.get? Key.direction = some direction.name)
    (hchild : e.children.head? = some child) (htype : type.ReadFrom .param child)
    (hmoved : isYes e Key.moveable = true → moveRefusal? direction type.type = none)
    (hreceived : ¬(type.type = .memBuf ∧ direction ≠ .input))
    (hbare : ¬((e.get? Key.defaultValue).isSome = true ∧ type.type.isBuffer = true)) :
    ReadFrom ⟨name, direction, e.get? Key.defaultValue, isYes e Key.moveable, type, e.span⟩ e where
  name := hname
  direction := hdirection
  type := ⟨child, hchild, htype⟩
  moveable := rfl
  fallback := rfl
  span := rfl
  moved := fun hyes => moveRefusal?_eq_none_iff.mp (hmoved hyes)
  received := fun hbuffer => by_contra fun hother => hreceived ⟨hbuffer, hother⟩
  bare := by
    intro hbuffer
    rw [← Option.not_isSome_iff_eq_none]
    exact fun hgiven => hbare ⟨hgiven, hbuffer⟩

theorem Param.ofElement_eq_ok_iff {method : String} {p : Param} :
    Param.ofElement method e = .ok p ↔ p.ReadFrom e := by
  unfold Param.ofElement
  constructor
  · intro h
    obtain ⟨name, hname, h⟩ := bind_eq_ok_iff.mp h
    obtain ⟨keyword, hkeyword, h⟩ := bind_eq_ok_iff.mp h
    split at h
    · rename_i direction hdirection
      split at h
      · rename_i child hchild
        obtain ⟨type, htype, h⟩ := bind_eq_ok_iff.mp h
        have hread := readFrom_of_checks (require_eq_ok_iff.mp hname)
          (Direction.ofName?_eq_some_iff.mp hdirection ▸ require_eq_ok_iff.mp hkeyword) hchild
          (TypeRef.ofElement_eq_ok_iff.mp htype)
        dsimp only at h
        split at h
        · split at h
          · cases h
          · rename_i hnone
            obtain ⟨hreceived, h⟩ := guard_eq_ok_iff.mp h
            obtain ⟨hbare, h⟩ := guard_eq_ok_iff.mp h
            cases h
            exact hread (fun _ => Option.eq_none_iff_forall_ne_some.mpr hnone) hreceived hbare
        · rename_i hno
          obtain ⟨hreceived, h⟩ := guard_eq_ok_iff.mp h
          obtain ⟨hbare, h⟩ := guard_eq_ok_iff.mp h
          cases h
          exact hread (fun hyes => absurd hyes hno) hreceived hbare
      · cases h
    · cases h
  · rintro ⟨hname, hdirection, ⟨child, hchild, htype⟩, hmoveable, hfallback, hspan, hmoved,
      hreceived, hbare⟩
    apply bind_eq_ok_iff.mpr ⟨_, require_eq_ok_iff.mpr hname, _⟩
    apply bind_eq_ok_iff.mpr ⟨_, require_eq_ok_iff.mpr hdirection, _⟩
    rw [Direction.ofName?_eq_some_iff.mpr rfl, hchild]
    apply bind_eq_ok_iff.mpr ⟨_, TypeRef.ofElement_eq_ok_iff.mpr htype, _⟩
    rw [← hmoveable, ← hfallback, ← hspan]
    have hreceived : ¬(p.type.type = .memBuf ∧ p.direction ≠ .input) := by
      rintro ⟨hbuffer, hother⟩
      exact hother (hreceived hbuffer)
    have hbare : ¬(p.fallback.isSome = true ∧ p.type.type.isBuffer = true) := by
      rintro ⟨hgiven, hbuffer⟩
      rw [hbare hbuffer] at hgiven
      cases hgiven
    dsimp only
    rw [if_neg hreceived, if_neg hbare]
    by_cases hyes : p.moveable = true
    · rw [if_pos hyes, moveRefusal?_eq_none_iff.mpr (hmoved hyes)]
      rfl
    · rw [if_neg hyes]
      rfl

/-- The element of a parameter is legal: it has a name and a direction, its first child names a type
for parameters and has all attributes that this needs, and the two go together. -/
structure Param.LegalAs (e child : Element) (direction : Direction) (type : DataType) : Prop where
  named : (e.get? Key.name).isSome = true
  directed : e.get? Key.direction = some direction.name
  first : e.children.head? = some child
  tag : child.name = namePrefix ++ type.name
  stands : type.standsAt .param = true
  complete : ∀ needed ∈ type.arguments, (child.get? needed.1.key).isSome = true
  moved : e.get? Key.moveable = some yes → direction ≠ .output ∧ type.isMoveable = true
  received : type = .memBuf → direction = .input
  bare : type.isBuffer = true → e.get? Key.defaultValue = none

def Param.Legal (e : Element) : Prop :=
  ∃ child direction type, LegalAs e child direction type

theorem isYes_iff {key : String} : isYes e key = true ↔ e.get? key = some yes := by
  simp [isYes]

theorem Param.exists_readFrom_iff : (∃ p : Param, p.ReadFrom e) ↔ Legal e := by
  constructor
  · rintro ⟨p, h⟩
    obtain ⟨child, hchild, htype⟩ := h.type
    refine ⟨child, p.direction, p.type.type, ?_, h.direction, hchild, htype.name, htype.stands,
      ?_, ?_, h.received, ?_⟩
    · rw [h.name]
      rfl
    · intro needed hneeded
      obtain ⟨given, -, -, hvalue⟩ := exists_of_forall₂ htype.arguments hneeded
      rw [hvalue]
      rfl
    · intro hyes
      exact h.moved (h.moveable.trans (isYes_iff.mpr hyes))
    · intro hbuffer
      rw [← h.fallback]
      exact h.bare hbuffer
  · rintro ⟨child, direction, type, h⟩
    obtain ⟨name, hname⟩ := Option.isSome_iff_exists.mp h.named
    have hsupplied : ∀ needed ∈ type.arguments, ∃ given, TypeRef.Supplied child needed given := by
      intro needed hneeded
      obtain ⟨value, hvalue⟩ := Option.isSome_iff_exists.mp (h.complete needed hneeded)
      exact ⟨(needed.1, value), rfl, hvalue⟩
    obtain ⟨arguments, harguments⟩ := exists_forall₂ hsupplied
    refine ⟨⟨name, direction, e.get? Key.defaultValue, isYes e Key.moveable,
      ⟨type, arguments, child.span⟩, e.span⟩, hname, h.directed, ?_, rfl, rfl, rfl, ?_,
      h.received, h.bare⟩
    · exact ⟨child, h.first, h.tag, h.stands, harguments, rfl⟩
    · intro hyes
      exact h.moved (isYes_iff.mp hyes)

end OrbIdl.Model

namespace OrbIdl.Cpp

open Model Xml

/-! ## The type in C++ -/

/-- The arguments that a type shows in C++, in their order there. -/
def shownArguments : DataType → List TypeArgument
  | .enumerated | .object => [.type]
  | .bag | .vector | .fundArray | .fundVector => [.elementType]
  | .hashSet => [.elementType, .keyOps]
  | .keyedHashSet => [.elementType, .keyType, .keyOps]
  | _ => []

/-- The C++ type with the values of the arguments that it shows. -/
def spelled (type : DataType) (shown : List String) : String :=
  if type.isFundamental || type == .void then "tCIDLib::" ++ type.name
  else if type == .enumerated || type == .object then String.join shown
  else if shown.isEmpty then type.name
  else type.name ++ "<" ++ String.intercalate ", " shown ++ ">"

theorem shownArguments_subset (type : DataType) :
    shownArguments type ⊆ type.arguments.map Prod.fst := by
  cases type <;> decide

/-- The text of a type that was read shows just these arguments. -/
theorem typeText_of_readFrom {position : Position} {t : TypeRef} {e : Element}
    (h : t.ReadFrom position e) :
    typeText t = spelled t.type ((shownArguments t.type).map t.argument) := by
  have hmem := h.elementType_of_mem
  have hnotMem := h.elementType_of_not_mem
  obtain ⟨type, arguments, span⟩ := t
  dsimp only at hmem hnotMem
  cases type
  case enumerated | object =>
    rw [typeText, hnotMem (by decide)]
    simp [shownArguments, spelled, DataType.isFundamental]
  case bag | vector | fundArray | fundVector =>
    rw [typeText, hmem (by decide)]
    rfl
  case hashSet | keyedHashSet =>
    rw [typeText, hmem (by decide)]
    rfl
  all_goals rfl

/-- A parameter is read just when its element is legal. What is read has the attributes of the
element and, for its type, those that the type needs; all that the C++ type shows is among them. -/
theorem param_read_iff_legal (method : String) (e : Element) :
    ((∃ p, Param.ofElement method e = .ok p) ↔ Param.Legal e) ∧
    ∀ p, Param.ofElement method e = .ok p → p.ReadFrom e ∧
      ∃ child, e.children.head? = some child ∧ p.type.ReadFrom .param child ∧
        (∀ a ∈ shownArguments p.type.type, child.get? a.key = some (p.type.argument a)) ∧
        typeText p.type =
          spelled p.type.type ((shownArguments p.type.type).map p.type.argument) := by
  constructor
  · rw [← Param.exists_readFrom_iff]
    exact exists_congr fun _ => Param.ofElement_eq_ok_iff
  · intro p hp
    have hread := Param.ofElement_eq_ok_iff.mp hp
    obtain ⟨child, hchild, htype⟩ := hread.type
    refine ⟨hread, child, hchild, htype, fun a ha => ?_, typeText_of_readFrom htype⟩
    exact htype.get?_eq_some (shownArguments_subset _ ha)

/-- A keyed set that goes both ways and may be moved. -/
theorem seats_read :
    let given (key value : String) : Attribute := ⟨key, value, .unknown, false⟩
    let set : Element := ⟨"CIDIDL:TKeyedHashSet", .unknown, [
      given Key.elementType "TSeat", given Key.keyType "tCIDLib::TCard4",
      given Key.keyOps "TSeatOps", given Key.keyExtract "SeatKey", given Key.modulus "29"], "", []⟩
    let seats : Element := ⟨Tag.param, .unknown, [
      given Key.name "seats", given Key.direction "InOut", given Key.moveable yes], "", [set]⟩
    ∃ p, Param.ofElement "Book" seats = .ok p ∧
      typeText p.type = "TKeyedHashSet<TSeat, tCIDLib::TCard4, TSeatOps>" := by
  intro given set seats
  have htype : (Param.ofElement "Book" seats).toOption.map (·.type.type) = some .keyedHashSet := by
    decide +kernel
  obtain ⟨p, hp, htype⟩ := Option.map_eq_some_iff.mp htype
  have hp := toOption_eq_some_iff.mp hp
  obtain ⟨-, child, hchild, -, hshown, htext⟩ := (param_read_iff_legal "Book" seats).2 p hp
  cases hchild
  rw [htype] at hshown htext
  have hargument (a : TypeArgument) (value : String) (ha : a ∈ shownArguments .keyedHashSet)
      (hvalue : set.get? a.key = some value) : p.type.argument a = value :=
    Option.some.inj ((hshown a ha).symm.trans hvalue)
  have helement := hargument .elementType "TSeat" (by decide) (by decide)
  have hkey := hargument .keyType "tCIDLib::TCard4" (by decide) (by decide)
  have hops := hargument .keyOps "TSeatOps" (by decide) (by decide)
  refine ⟨p, hp, ?_⟩
  simp only [htext, shownArguments, List.map_cons, List.map_nil, helement, hkey, hops]
  decide

end OrbIdl.Cpp
