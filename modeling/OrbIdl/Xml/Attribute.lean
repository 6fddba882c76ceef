import OrbIdl.Xml.Token

/-! # The attributes of a tag as written -/

namespace OrbIdl.Xml

/-- An attribute as written: its places count the bytes of the tag. -/
structure RawAttribute where
  key : List Char
  keyStart : Nat
  value : List Char
  valueStart : Nat
deriving DecidableEq

def RawAttribute.valueStop (a : RawAttribute) : Nat :=
  a.valueStart + Text.byteSize a.value

/-- The name of a tag: everything up to the first space. -/
def tagName (content : List Char) : List Char :=
  content.takeWhile (!isSpace ·)

/-- A value in quotes that begins at `place`, and what follows its closing quote. -/
def quotedValue (size place : Nat) : List Char →
    Except AttributeFault (List Char × Nat × List Char)
  | [] => .error (.noValue size)
  | c :: cs =>
    if c = '"' ∨ c = '\'' then
      match cs.dropWhile (· != c) with
      | [] => .error (.unclosed size c)
      | _ :: rest => .ok (cs.takeWhile (· != c), place + 1, rest)
    else .error (.unquoted place)

/-- What follows the equals sign after a key that ends at `place`. -/
def afterEquals (size place : Nat) (cs : List Char) :
    Except AttributeFault (Nat × List Char) :=
  let spaces := cs.takeWhile isSpace
  match cs.dropWhile isSpace with
  | '=' :: rest => .ok (place + spaces.length + 1, rest)
  | [] => .error (.noEquals size)
  | _ => .error (.noEquals (place + spaces.length))

/-- The place of an earlier attribute with the same key. -/
def earlier? (seen : List (List Char × Nat)) (key : List Char) : Option Nat :=
  (seen.find? (·.1 == key)).map (·.2)

/-- The attribute whose key begins with `c` at `place`, and what follows it. A key is one character
of any kind and all up to the next equals sign or space. -/
def readAttribute (seen : List (List Char × Nat)) (size place : Nat) (c : Char) (cs : List Char) :
    Except AttributeFault (RawAttribute × List Char) := do
  let key := c :: cs.takeWhile fun d => d != '=' && !isSpace d
  let (place', rest) ← afterEquals size (place + Text.byteSize key)
    (cs.dropWhile fun d => d != '=' && !isSpace d)
  match earlier? seen key with
  | some earlier => throw (.duplicated place earlier)
  | none =>
    let spaces := rest.takeWhile isSpace
    let (value, valueStart, rest) ← quotedValue size (place' + spaces.length)
      (rest.dropWhile isSpace)
    return (⟨key, place, value, valueStart⟩, rest)

theorem length_of_afterEquals {size place : Nat} {cs : List Char} {p : Nat × List Char}
    (h : afterEquals size place cs = .ok p) : p.2.length < cs.length := by
  unfold afterEquals at h
  have hle := (List.dropWhile_sublist (l := cs) isSpace).length_le
  split at h
  · rename_i rest hrest
    obtain rfl := Except.ok.inj h
    rw [hrest, List.length_cons] at hle
    exact hle
  all_goals simp at h

theorem length_of_quotedValue {size place : Nat} {cs : List Char}
    {p : List Char × Nat × List Char} (h : quotedValue size place cs = .ok p) :
    p.2.2.length < cs.length := by
  cases cs with
  | nil => simp [quotedValue] at h
  | cons c cs =>
    rw [quotedValue] at h
    split at h
    · have hle := (List.dropWhile_sublist (l := cs) (· != c)).length_le
      split at h
      · simp at h
      · rename_i rest hrest
        obtain rfl := Except.ok.inj h
        rw [hrest] at hle
        simp only [List.length_cons] at hle ⊢
        omega
    · simp at h

theorem length_of_readAttribute {seen : List (List Char × Nat)} {size place : Nat} {c : Char}
    {cs : List Char} {p : RawAttribute × List Char}
    (h : readAttribute seen size place c cs = .ok p) : p.2.length ≤ cs.length := by
  unfold readAttribute at h
  simp only [bind, Except.bind] at h
  split at h
  · simp at h
  · rename_i q hq
    have h₁ := length_of_afterEquals hq
    have h₂ := (List.dropWhile_sublist (l := cs) fun d => d != '=' && !isSpace d).length_le
    split at h
    · simp [throw, throwThe, MonadExceptOf.throw] at h
    · split at h
      · simp at h
      · rename_i r hr
        obtain ⟨value, valueStart, rest⟩ := r
        have h₃ := length_of_quotedValue hr
        have h₄ := (List.dropWhile_sublist (l := q.2) isSpace).length_le
        obtain rfl := Except.ok.inj h
        simp only at h₃ ⊢
        omega

/-- The attributes in a stretch of a tag of `size` bytes that begins at `place`. A key may come once;
the keys seen are not kept when `strict` is off. -/
def attributesFrom (strict : Bool) (size : Nat) (seen : List (List Char × Nat)) (place : Nat)
    (cs : List Char) : Reading AttributeFault RawAttribute :=
  let spaces := cs.takeWhile isSpace
  match _hcs : cs.dropWhile isSpace with
  | [] => .done
  | c :: rest =>
    match h : readAttribute seen size (place + spaces.length) c rest with
    | .error fault => .stop fault
    | .ok (a, after) =>
      let seen := if strict then (a.key, a.keyStart) :: seen else seen
      .cons a (attributesFrom strict size seen (a.valueStop + 1) after)
termination_by cs.length
decreasing_by
  have h₁ := length_of_readAttribute h
  have h₂ := (List.dropWhile_sublist (l := cs) isSpace).length_le
  rw [_hcs] at h₂
  simp only [List.length_cons] at h₁ h₂ ⊢
  omega

/-- The attributes of a tag, which follow its name. -/
def attributes (strict : Bool) (content : List Char) : Reading AttributeFault RawAttribute :=
  let name := tagName content
  attributesFrom strict (Text.byteSize content) [] (Text.byteSize name)
    (content.dropWhile (!isSpace ·))

end OrbIdl.Xml
