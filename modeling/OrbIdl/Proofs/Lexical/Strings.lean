import Mathlib.Algebra.Ring.Parity
import OrbIdl.Compile
import OrbIdl.Proofs.Enumeration.Table
import OrbIdl.Proofs.Generation.Pairs
import OrbIdl.Proofs.Lexical.Lines

/-!
# Text in string literals

Text of a document goes into wide string literals as it stands. A literal ends where its text does
when the text holds nothing that ends it before, and no backslash at its end escapes the quote.
-/

namespace OrbIdl.Cpp

open Model Emission

/-! ## Reading a literal -/

/-- A backslash escapes the next character, unless it is escaped itself. -/
def escapesNext (escaped : Bool) (c : Char) : Bool :=
  !escaped && c == '\\'

/-- Reads a string literal behind its opening quote: its characters up to the closing quote, and
what follows. `escaped` says that a backslash stands before. There is no literal of more than one
line. -/
def readString : (escaped : Bool) → List Char → Option (List Char × List Char)
  | _, [] => none
  | escaped, c :: cs =>
    if c = '\n' then none
    else if c = '"' ∧ escaped = false then some ([], cs)
    else (readString (escapesNext escaped c) cs).map fun (text, rest) => (c :: text, rest)

def readWide : List Char → Option (List Char × List Char)
  | 'L' :: '"' :: cs => readString false cs
  | _ => none

theorem forall_quote_cons {P : List Char → Prop} {c : Char} {cs : List Char} :
    (∀ before rest, c :: cs = before ++ '"' :: rest → P before) ↔
      (c = '"' → P []) ∧ ∀ before rest, cs = before ++ '"' :: rest → P (c :: before) := by
  constructor
  · intro h
    exact ⟨fun hc => h [] cs (by rw [hc, List.nil_append]),
      fun before rest hcs => h (c :: before) rest (by rw [hcs, List.cons_append])⟩
  · rintro ⟨hnil, hcons⟩ (_ | ⟨b, before⟩) rest hcs
    · exact hnil (List.cons.inj hcs).1
    · obtain ⟨rfl, htail⟩ := List.cons.inj hcs
      exact hcons before rest htail

/-- The closing quote is the first one that is not escaped. -/
theorem readString_iff (escaped : Bool) (cs after : List Char) :
    readString escaped (cs ++ '"' :: after) = some (cs, after) ↔
      '\n' ∉ cs ∧
      (∀ before rest, cs = before ++ '"' :: rest → before.foldl escapesNext escaped = true) ∧
      cs.foldl escapesNext escaped = false := by
  -- `escaped` is general, as each character may escape the one after it.
  induction cs generalizing escaped with
  | nil => cases escaped <;> simp [readString]
  | cons c cs ih =>
    rw [forall_quote_cons, List.cons_append, readString, List.foldl_cons, List.mem_cons, not_or,
      eq_comm (a := '\n')]
    by_cases hnewline : c = '\n'
    · simp [hnewline]
    by_cases hquote : c = '"' ∧ escaped = false
    · simp [hquote]
    · have hopen : c = '"' → escaped = true := by simpa using hquote
      rw [if_neg hnewline, if_neg hquote]
      simp [hnewline, iff_true_intro hopen, ih]

/-! ## Texts that a literal contains -/

def trailingBackslashes (cs : List Char) : Nat :=
  (cs.reverse.takeWhile (· == '\\')).length

/-- The text neither ends a literal around it nor swallows its closing quote. -/
structure Contained (cs : List Char) : Prop where
  newline : '\n' ∉ cs
  quotes : ∀ before after, cs = before ++ '"' :: after → Odd (trailingBackslashes before)
  backslashes : Even (trailingBackslashes cs)

theorem foldl_escapesNext (cs : List Char) :
    cs.foldl escapesNext false = true ↔ Odd (trailingBackslashes cs) := by
  induction cs using List.reverseRecOn with
  | nil => simp [trailingBackslashes]
  | append_singleton cs c ih =>
    rw [List.foldl_append, List.foldl_cons, List.foldl_nil]
    by_cases hc : c = '\\'
    · have hcount : trailingBackslashes (cs ++ [c]) = trailingBackslashes cs + 1 := by
        simp [trailingBackslashes, hc]
      rw [hcount, Nat.odd_add_one, ← ih, escapesNext, hc]
      simp
    · have hcount : trailingBackslashes (cs ++ [c]) = 0 := by
        simp [trailingBackslashes, hc]
      rw [hcount, escapesNext]
      simp [hc]

theorem readString_iff_contained (cs after : List Char) :
    readString false (cs ++ '"' :: after) = some (cs, after) ↔ Contained cs := by
  rw [readString_iff, ← Bool.not_eq_true, foldl_escapesNext, Nat.not_odd_iff_even]
  simp only [foldl_escapesNext]
  exact ⟨fun ⟨hnewline, hquotes, heven⟩ => ⟨hnewline, hquotes, heven⟩,
    fun h => ⟨h.newline, h.quotes, h.backslashes⟩⟩

theorem logical_wideLiteral (text : String) (after : List Char) :
    logical ((wideLiteral text).toList ++ after) =
      'L' :: '"' :: (logical text.toList ++ '"' :: logical after) := by
  have hliteral : (wideLiteral text).toList ++ after =
      'L' :: '"' :: (text.toList ++ '"' :: after) := by
    simp [wideLiteral]
  rw [hliteral, logical_cons (by decide) (by decide), logical_cons (by decide) (by decide),
    logical_append_cons _ (by decide) (by decide), logical_cons (by decide) (by decide)]

instance (cs : List Char) : Decidable (Contained cs) :=
  decidable_of_iff _ (readString_iff_contained cs [])

/-- A literal ends with its own text, whatever follows, exactly when the text is contained. -/
theorem readWide_iff (text : String) (after : List Char) :
    readWide (logical ((wideLiteral text).toList ++ after)) =
      some (logical text.toList, logical after) ↔ Contained (logical text.toList) := by
  rw [logical_wideLiteral]
  exact readString_iff_contained _ _

/-! ## Literals in code -/

/-- A text in which the literals of some texts follow one another, with any code between them. -/
inductive Holds : List String → String → Prop where
  | code (code : String) : Holds [] code
  | behind (code : String) {texts : List String} {rest : String} :
    Holds texts rest → Holds texts (code ++ rest)
  | literal (text : String) {texts : List String} {rest : String} :
    Holds texts rest → Holds (text :: texts) (wideLiteral text ++ rest)

namespace Holds

theorem append {texts texts' : List String} {a b : String} (h : Holds texts a)
    (h' : Holds texts' b) : Holds (texts ++ texts') (a ++ b) := by
  induction h with
  | code a => exact .behind a h'
  | behind a _ ih =>
    rw [String.append_assoc]
    exact .behind a ih
  | literal text _ ih =>
    rw [String.append_assoc]
    exact .literal text ih

theorem before {texts : List String} {a : String} (h : Holds texts a) (code : String) :
    Holds texts (a ++ code) := by
  have happend := h.append (.code code)
  rwa [List.append_nil] at happend

theorem single (text : String) : Holds [text] (wideLiteral text) := by
  have hliteral := Holds.literal text (.code "")
  rwa [String.append_empty] at hliteral

theorem join {α : Type} {texts : α → List String} {code : α → String} {xs : List α}
    (h : ∀ x ∈ xs, Holds (texts x) (code x)) :
    Holds (xs.flatMap texts) (String.join (xs.map code)) := by
  induction xs with
  | nil => exact .code _
  | cons x xs ih =>
    rw [List.forall_mem_cons] at h
    rw [List.flatMap_cons, List.map_cons, String.join_cons]
    exact h.1.append (ih h.2)

theorem intercalate (separator : String) (texts : List String) :
    Holds texts (String.intercalate separator (texts.map wideLiteral)) := by
  induction texts with
  | nil => exact .code _
  | cons text texts ih =>
    cases texts with
    | nil =>
      rw [List.map_singleton, String.intercalate_singleton]
      exact .single text
    | cons text' texts =>
      rw [List.map_cons, List.map_cons, String.intercalate_cons_cons, String.append_assoc]
      exact .literal text (.behind separator ih)

end Holds

/-! ## The texts of a document -/

def constantTexts (c : Constant) : List String :=
  if c.type = .string then [c.value] else []

/-- The texts of a mapping table, and the name that its map object has. -/
def enumTexts (e : Enumeration) : List String :=
  (Enum.table e).rows.flatMap (·.texts) ++ [e.name]

def typeTexts : TypeDecl → List String
  | .enumeration _ info => enumTexts info
  | .struct _ => []

def blockTexts : Block → List String
  | .constants cs => cs.flatMap constantTexts
  | .types ts => ts.flatMap typeTexts

/-- The id of an interface is the first of its texts. -/
def interfaceTexts (i : ClassInterface) : List String :=
  i.id :: i.constants.flatMap constantTexts ++ (i.types.getD []).flatMap typeTexts

/-- The texts that go into the literals of an output. -/
def literalTexts (d : Document) : TargetKind → List String
  | .client | .server => (d.classInterface.map interfaceTexts).getD []
  | .globals => d.globals.flatMap fun g => g.blocks.flatMap blockTexts

/-! ## The literals of a piece -/

def Piece.texts : Piece → List String
  | constant c => constantTexts c
  | enumeration _ info => enumTexts info
  | _ => []

theorem holds_constantDefinition (f : Frame) (c : Constant) :
    Holds (constantTexts c) (constantDefinition f c) := by
  unfold constantTexts constantDefinition
  split
  · have hdefinition : s!"const TString {f.scope}::{c.name}({wideLiteral c.value});\n" =
        s!"const TString {f.scope}::{c.name}(" ++ (wideLiteral c.value ++ ");\n") := by
      simp [toString, String.append_assoc]
    rw [hdefinition]
    exact .behind _ ((Holds.single c.value).before _)
  · exact .code _

namespace Enum

theorem holds_row (enclosing t : String) (r : Row) : Holds r.texts (r.render enclosing t) :=
  (Holds.behind _ (.intercalate ", " r.texts)).before _

theorem holds_renderRows (enclosing t : String) (rows : List Row) :
    Holds (rows.flatMap (·.texts)) (Table.renderRows enclosing t rows) := by
  cases rows with
  | nil => exact .code _
  | cons first rest =>
    rw [List.flatMap_cons]
    refine Holds.append (.behind _ (holds_row enclosing t first)) (.join fun r _ => ?_)
    exact .behind _ (holds_row enclosing t r)

theorem holds_itemArray (enclosing t : String) (count : Nat) (rows : List Row) :
    Holds (rows.flatMap (·.texts)) (itemArray t count (rows.map (Row.render enclosing t))) := by
  unfold itemArray
  rw [← renderRows_eq]
  exact (Holds.behind _ (holds_renderRows enclosing t rows)).before _

theorem holds_mapObject (enclosing : String) (m : Table) :
    Holds [m.name] (mapObject m.name (m.mapArguments enclosing)) := by
  -- The name is the first argument, and no other one is a literal.
  unfold mapObject Table.mapArguments
  rw [String.intercalate_cons_cons]
  exact (Holds.behind _ (((Holds.single m.name).before _).before _)).before _

theorem holds_implementation (enclosing : String) (e : Enumeration) :
    Holds (enumTexts e) (implementation enclosing e) := by
  rw [implementation, render_table]
  exact ((holds_itemArray enclosing _ _ _).append (holds_mapObject enclosing (table e))).before _

end Enum

theorem Piece.holds_implementation (f : Frame) (p : Piece) :
    Holds p.texts (p.implementation f) := by
  cases p with
  | constant c => exact holds_constantDefinition f c
  | enumeration doc info => exact Enum.holds_implementation f.scope info
  | _ => exact .code _

/-! ## The literals of a pair -/

namespace FilePair

def texts (p : FilePair) : List String :=
  p.pieces.flatMap Piece.texts

theorem texts_eq (p : FilePair) : p.texts = p.declarations.flatMap Piece.texts := by
  unfold texts declarations
  induction p.pieces with
  | nil => rfl
  | cons piece pieces ih =>
    rw [List.flatMap_cons, ih]
    cases piece <;> rfl

theorem holds_implementationText (p : FilePair) : Holds p.texts p.implementationText :=
  .join fun piece _ => piece.holds_implementation p.frame

end FilePair

theorem texts_blockPieces (b : Block) : (blockPieces b).flatMap Piece.texts = blockTexts b := by
  cases b with
  | constants cs => exact List.flatMap_map _ _ cs
  | types ts =>
    rw [blockPieces, List.flatMap_map]
    refine List.flatMap_congr fun t _ => ?_
    cases t <;> rfl

theorem texts_pair {o : Options} {d : Document} {kind : TargetKind} {p : FilePair}
    (h : pair? o d kind = some p) : p.texts = literalTexts d kind := by
  have hinterface : ((d.classInterface.map interfacePieces).getD []).flatMap Piece.texts =
      (d.classInterface.map interfaceTexts).getD [] := by
    cases d.classInterface with
    | none => rfl
    | some i =>
      rw [Option.map_some, Option.getD_some, interfacePieces, List.flatMap_append,
        texts_blockPieces, texts_blockPieces]
      rfl
  rw [FilePair.texts_eq, declarations_pair h]
  cases kind with
  | client => exact hinterface
  | server => exact hinterface
  | globals => simp only [documentPieces, literalTexts, List.flatMap_assoc, texts_blockPieces]

/-- The implementation of an output holds its texts in literals, each as it stands. A literal is
complete when its text has no line break, no quote that is not escaped, and no backslash at its end
that would escape the closing quote, and else it is not. -/
theorem literals_complete_iff {o : Options} {d : Document} {kind : TargetKind} {p : FilePair}
    (h : pair? o d kind = some p) :
    Holds (literalTexts d kind) p.implementationText ∧
      ∀ text ∈ literalTexts d kind, ∀ after,
        readWide (logical ((wideLiteral text).toList ++ after)) =
          some (logical text.toList, logical after) ↔ Contained (logical text.toList) := by
  rw [← texts_pair h]
  exact ⟨p.holds_implementationText, fun text _ after => readWide_iff text after⟩

/-- Globals with one string. -/
def separatorSource (value : String) : String :=
  "<CIDIDL:Interface><CIDIDL:Globals><CIDIDL:Constants><CIDIDL:Constant CIDIDL:Name='kSep' " ++
    s!"CIDIDL:Type='TString' CIDIDL:Value='{value}'/></CIDIDL:Constants></CIDIDL:Globals>" ++
    "</CIDIDL:Interface>"

def separatorOptions : Options := { globals := some ⟨"Fac", ⟨"out"⟩, some "Name"⟩ }

def separatorDocument (value : String) : Document :=
  let size := value.utf8ByteSize
  let constant : Constant := ⟨"kSep", .string, value, none, .ofBytes 52 (75 + size)⟩
  ⟨[⟨[.constants [constant]], .ofBytes 18 (145 + size)⟩], none⟩

def separatorPair (value : String) : FilePair :=
  globalsPair (separatorDocument value).globals ⟨⟨"Fac", ⟨"out"⟩, some "Name"⟩, "", false⟩

/-- The document escapes its quote itself. -/
theorem escaped_separator_complete :
    let text := "a\\\"b"
    let d := separatorDocument text
    (readDocument separatorOptions.mappings (separatorSource text)).result = .ok d ∧
      pair? separatorOptions d .globals = some (separatorPair text) ∧
      Holds [text] (separatorPair text).implementationText ∧
      ∀ after, readWide (logical ((wideLiteral text).toList ++ after)) =
        some (logical text.toList, logical after) := by
  intro text d
  have hread : (readDocument separatorOptions.mappings (separatorSource text)).result = .ok d := by
    rw [← toOption_eq_some_iff]
    decide +kernel
  have hpair : pair? separatorOptions d .globals = some (separatorPair text) := rfl
  obtain ⟨hholds, hcomplete⟩ := literals_complete_iff hpair
  refine ⟨hread, hpair, hholds, fun after => ?_⟩
  exact (hcomplete text List.mem_cons_self after).mpr (by decide)

/-- The literal ends at the quote in the text. -/
theorem quote_ends_separator :
    let text := "a\"b"
    let d := separatorDocument text
    (readDocument separatorOptions.mappings (separatorSource text)).result = .ok d ∧
      pair? separatorOptions d .globals = some (separatorPair text) ∧
      literalTexts d .globals = [text] ∧ ¬Contained (logical text.toList) ∧
      ∃ before after, (separatorPair text).implementationText =
          before ++ wideLiteral text ++ after ∧
        readWide (logical (wideLiteral text ++ after).toList) = some (['a'], "b\");\n".toList) := by
  intro text d
  have hread : (readDocument separatorOptions.mappings (separatorSource text)).result = .ok d := by
    rw [← toOption_eq_some_iff]
    decide +kernel
  let before := banner "Fac_Name.cpp" ++
    "#include \"Fac_.hpp\"\n#include \"Fac_Name.hpp\"\n\nconst TString tFac::kSep("
  refine ⟨hread, rfl, rfl, by decide, before, ");\n", ?_, by decide⟩
  decide +kernel

end OrbIdl.Cpp
