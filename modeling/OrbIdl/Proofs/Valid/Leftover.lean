import OrbIdl.Model.Document
import OrbIdl.Proofs.Conformance.Tree

/-! # What may be wrong with a document that its schema accepts -/

namespace OrbIdl.Model

open Xml

/-- A schema cannot state the rule: it is about attributes together, about text that may be
anything to the schema, or about other declarations. -/
def Rule.beyondSchema : Rule → Bool
  | valueRequired _ | valueNotUsed _ | patternLacksToken _ | bitmapBaseSigned _
  | textNotProvided .. | missingAttribute _ | badBitmapValue .. | badNumber .. | unknownStruct _
  | badRoot _ | bufferDefault _ => true
  | badEnumShape _ | badAltTextSource _ | badTextColumn .. | badKeyword .. | duplicateSection _
  | noValues | missingType | typeNotAllowed .. => false

def Fault.beyondSchema : Fault → Bool
  | malformed _ rule _ => rule.beyondSchema
  | moveRefused .. | wrongDirection .. => true
  | unknownType .. | unexpectedElement .. => false

/-- An attribute that is asked for where the schema lets it be absent: a text of a value whose
enumeration wants such texts, or the value of a synonym. -/
inductive Unrequired (root : Element) : MissingAttribute → Prop where
  | altText {path : List Nat} {e value : Element} (he : root.Under (fun _ => True) path e)
      (hname : e.name = Tag.enumeration) (hvalue : value ∈ e.children)
      (htag : value.name = Tag.enumValue) (h : e.get? Key.altTextSource = some "Inline") :
      Unrequired root ⟨value.name, Key.altText, value.span⟩
  | altText2 {path : List Nat} {e value : Element} (he : root.Under (fun _ => True) path e)
      (hname : e.name = Tag.enumeration) (hvalue : value ∈ e.children)
      (htag : value.name = Tag.enumValue) (h : e.get? Key.altText2 = some yes) :
      Unrequired root ⟨value.name, Key.altText2, value.span⟩
  | synonymValue {path : List Nat} {e : Element} (he : root.Under (fun _ => True) path e)
      (hname : e.name = Tag.enumSynonym) : Unrequired root ⟨e.name, Key.value, e.span⟩

/-- What is left to go wrong in a tree that follows the schema. -/
structure Leftover (root : Element) (f : Fault) : Prop where
  beyondSchema : f.beyondSchema = true
  missing : ∀ m, f = .ofMissing m → Unrequired root m

namespace Leftover

variable {root child : Element} {f : Fault}

theorem of_malformed (decl : String) {rule : Rule} (span : Span) (h : rule.beyondSchema = true)
    (hrule : ∀ key, rule ≠ .missingAttribute key) : Leftover root (.malformed decl rule span) where
  beyondSchema := h
  missing := by
    intro m hm
    exact absurd (Fault.malformed.inj hm).2.1 (hrule m.key)

theorem of_missing {m : MissingAttribute} (h : Unrequired root m) :
    Leftover root (.ofMissing m) where
  beyondSchema := rfl
  missing := by
    intro m' hm
    obtain ⟨helement, hkey, hspan⟩ := Fault.malformed.inj hm
    have heq : m = m' := by
      cases m
      cases m'
      cases helement
      cases hkey
      cases hspan
      rfl
    exact heq ▸ h

/-- What may go wrong in a part of the tree may go wrong in the tree. -/
theorem of_child (hchild : child ∈ root.children) (h : Leftover child f) : Leftover root f where
  beyondSchema := h.beyondSchema
  missing := by
    intro m hm
    obtain ⟨i, hi⟩ := List.getElem?_of_mem hchild
    cases h.missing m hm with
    | altText he hname hvalue htag h => exact .altText (.child trivial hi he) hname hvalue htag h
    | altText2 he hname hvalue htag h => exact .altText2 (.child trivial hi he) hname hvalue htag h
    | synonymValue he hname => exact .synonymValue (.child trivial hi he) hname

end Leftover

end OrbIdl.Model
