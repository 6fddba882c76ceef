import OrbIdl.Cpp.Piece
import OrbIdl.Proofs.Lexical.Lines
import OrbIdl.Proofs.Text.Indentation

/-!
# Documentation as comments

Documentation stands in front of a declaration in lines that are comments. One that ends in a
backslash takes the next line with it.
-/

namespace OrbIdl.Cpp

open Model Text Xml

/-! ## White space and comments -/

/-- The rest of a text behind white space and comments that run to the end of their line. `inside`
says that a comment has begun before. -/
def skipTrivia : (inside : Bool) → List Char → List Char
  | _, [] => []
  | true, c :: cs => skipTrivia (c != '\n') cs
  | false, '/' :: '/' :: cs => skipTrivia true cs
  | false, c :: cs => if c ∈ [' ', '\t', '\n', '\x0b', '\x0c'] then skipTrivia false cs else c :: cs

/-- The text from its first token on, as the compiler sees it. -/
def fromFirstToken (cs : List Char) : List Char :=
  skipTrivia false (logical cs)

theorem skipTrivia_spaces (width : Nat) (cs : List Char) :
    skipTrivia false (List.replicate width ' ' ++ cs) = skipTrivia false cs := by
  induction width with
  | zero => rfl
  | succ width ih => rw [List.replicate_succ, List.cons_append, ← ih]; rfl

theorem skipTrivia_inside {line : List Char} (h : '\n' ∉ line) (cs : List Char) :
    skipTrivia true (line ++ cs) = skipTrivia true cs := by
  induction line with
  | nil => rfl
  | cons c line ih =>
    rw [List.mem_cons, not_or] at h
    rw [List.cons_append, skipTrivia, bne_iff_ne.mpr (Ne.symm h.1), ih h.2]

/-! ## Comment lines -/

/-- A line that begins as a comment and is not more than one line of its file. -/
structure Opens (line : List Char) : Prop where
  slashes : ∃ width text, line = List.replicate width ' ' ++ '/' :: '/' :: text
  newline : '\n' ∉ line

/-- A comment that is complete at the end of its line. -/
structure IsComment (line : List Char) : Prop extends Opens line where
  carriageReturn : '\r' ∉ line
  backslash : line.getLast? ≠ some '\\'

theorem Opens.skipTrivia {line : List Char} (h : Opens line) (inside : Bool) (cs : List Char) :
    skipTrivia inside (line ++ cs) = skipTrivia true cs := by
  obtain ⟨⟨width, text, rfl⟩, hnewline⟩ := h
  cases inside with
  | true => exact skipTrivia_inside hnewline cs
  | false =>
    have htext : '\n' ∉ text := by simp_all
    rw [List.append_assoc, skipTrivia_spaces]
    exact skipTrivia_inside htext cs

/-- The backslash at the end of a line is no part of what makes it a comment. -/
theorem Opens.of_append {line : List Char} (h : Opens (line ++ ['\\'])) : Opens line := by
  obtain ⟨⟨width, text, htext⟩, hnewline⟩ := h
  rw [List.mem_append, not_or] at hnewline
  refine ⟨?_, hnewline.1⟩
  induction text using List.reverseRecOn with
  | nil =>
    have hlast := congrArg List.getLast? htext
    simp at hlast
  | append_singleton text c =>
    rw [← List.cons_append, ← List.cons_append, ← List.append_assoc] at htext
    exact ⟨width, text, (List.append_inj' htext rfl).1⟩

/-- One comment line more. The next line is inside of it after a backslash. -/
theorem skipTrivia_line {line : List Char} (h : Opens line) (hreturn : '\r' ∉ line)
    (inside : Bool) (cs : List Char) :
    skipTrivia inside (logical (line ++ '\n' :: cs)) =
      skipTrivia (line.getLast? == some '\\') (logical cs) := by
  unfold logical
  rw [withNewlines_append hreturn, withNewlines_cons (by decide)]
  by_cases hlast : line.getLast? = some '\\'
  · obtain ⟨start, rfl⟩ := List.getLast?_eq_some_iff.mp hlast
    rw [List.append_assoc, List.singleton_append, spliced_continued h.of_append.newline,
      h.of_append.skipTrivia, hlast, beq_self_eq_true]
  · rw [spliced_ended h.newline hlast, h.skipTrivia, beq_eq_false_iff_ne.mpr hlast, Cpp.skipTrivia,
      bne_self_eq_false]

/-- Comment lines, each with the end of its line. -/
def textOf (lines : List (List Char)) : List Char :=
  lines.flatMap (· ++ ['\n'])

theorem textOf_cons (line : List Char) (lines : List (List Char)) :
    textOf (line :: lines) = line ++ '\n' :: textOf lines := by
  simp [textOf]

/-- What follows comment lines is inside of the last one if that ends in a backslash. -/
theorem skipTrivia_lines {lines : List (List Char)} (h : ∀ line ∈ lines, Opens line ∧ '\r' ∉ line)
    (inside : Bool) (cs : List Char) :
    skipTrivia inside (logical (textOf lines ++ cs)) =
      skipTrivia ((lines.getLast?.map (·.getLast? == some '\\')).getD inside) (logical cs) := by
  induction lines generalizing inside with
  | nil => rfl
  | cons line lines ih =>
    rw [List.forall_mem_cons] at h
    rw [textOf_cons, List.append_assoc, List.cons_append, skipTrivia_line h.1.1 h.1.2, ih h.2,
      List.getLast?_cons]
    cases lines.getLast? <;> rfl

/-! ## Documentation -/

/-- What the lines of a documentation say, without the blanks around it. -/
def docTexts : Option String → List (List Char)
  | some text => (pieces text.toList).map trimChars
  | none => []

def slashed : List Char → List Char
  | [] => "//".toList
  | text => "//  ".toList ++ text

/-- The lines that documentation adds to a header. -/
def commentLines (width : Nat) (doc : Option String) : List (List Char) :=
  (docTexts doc).map fun text => List.replicate width ' ' ++ slashed text

theorem newline_not_mem_trimChars {cs piece : List Char} (h : piece ∈ pieces cs) :
    '\n' ∉ trimChars piece := by
  obtain ⟨line, hline, rfl | rfl⟩ := line_of_mem_pieces h
  · exact fun hmem => hline (trimChars_subset _ hmem)
  · rw [trimChars_append_blank line (by decide)]
    exact fun hmem => hline (trimChars_subset _ hmem)

theorem newline_not_mem_docTexts {doc : Option String} {text : List Char}
    (h : text ∈ docTexts doc) : '\n' ∉ text := by
  cases doc with
  | none => cases h
  | some doc =>
    obtain ⟨piece, hpiece, rfl⟩ := List.mem_map.mp h
    exact newline_not_mem_trimChars hpiece

theorem mem_slashed_iff {c : Char} (hslash : c ≠ '/') (hspace : c ≠ ' ') (text : List Char) :
    c ∈ slashed text ↔ c ∈ text := by
  cases text <;> simp [slashed, hslash, hspace]

theorem getLast?_slashed_iff (text : List Char) :
    (slashed text).getLast? = some '\\' ↔ text.getLast? = some '\\' := by
  cases text with
  | nil => simp [slashed]
  | cons c text => simp [slashed, List.getLast?_cons]

theorem slashed_eq (text : List Char) : ∃ rest, slashed text = '/' :: '/' :: rest := by
  cases text with
  | nil => exact ⟨[], rfl⟩
  | cons c text => exact ⟨_, rfl⟩

theorem toList_docComment (doc : Option String) :
    (docComment doc).toList = textOf ((docTexts doc).map slashed) := by
  have hline (line : List Char) : (docLine line).toList = slashed (trimChars line) := by
    unfold docLine
    cases trimChars line <;> simp [slashed]
  cases doc with
  | none => rfl
  | some text => simp [docComment, docLines, docTexts, textOf, List.flatMap_map, hline]

theorem putAll_textOf {lines : List (List Char)} (h : ∀ line ∈ lines, line ≠ [] ∧ '\n' ∉ line)
    (width : Nat) :
    Indenter.putAll ⟨width, true⟩ (textOf lines) =
      (textOf (lines.map (List.replicate width ' ' ++ ·)), ⟨width, true⟩) := by
  induction lines with
  | nil => rfl
  | cons line lines ih =>
    rw [List.forall_mem_cons] at h
    rw [textOf_cons, Indenter.putAll_append, Indenter.putAll_line _ h.1.1 h.1.2, List.map_cons,
      textOf_cons]
    simp [Indenter.andThen, Indenter.putAll, Indenter.put, ih h.2, padded, h.1.1]

/-- Documentation goes in front of what is written behind it, each line behind the spaces. -/
theorem toList_indent_docComment (width : Nat) (doc : Option String) (text : String) :
    (Text.indent width (docComment doc ++ text)).toList =
      textOf (commentLines width doc) ++ (Text.indent width text).toList := by
  have hlines : ∀ line ∈ (docTexts doc).map slashed, line ≠ [] ∧ '\n' ∉ line := by
    simp only [List.forall_mem_map]
    intro text htext
    obtain ⟨rest, hrest⟩ := slashed_eq text
    refine ⟨by simp [hrest], ?_⟩
    rw [mem_slashed_iff (by decide) (by decide)]
    exact newline_not_mem_docTexts htext
  simp [Text.indent, Indenter.flatten_write, Indenter.putAll_append, toList_docComment,
    putAll_textOf hlines, Indenter.andThen, commentLines, Function.comp_def]

namespace Piece

def doc? : Piece → Option String
  | constant c => c.doc
  | enumeration doc _ => doc
  | _ => none

def undocumented : Piece → Piece
  | constant c => constant { c with doc := none }
  | enumeration _ info => enumeration none info
  | p => p

theorem header_of_undocumented {f : Frame} {p : Piece} (hdoc : p.doc? = none)
    (hsame : p.undocumented = p) :
    (p.header f).toList =
      textOf (commentLines f.width p.doc?) ++ (p.undocumented.header f).toList := by
  rw [hdoc, hsame]
  rfl

theorem header_eq (f : Frame) (p : Piece) :
    (p.header f).toList =
      textOf (commentLines f.width p.doc?) ++ (p.undocumented.header f).toList := by
  cases p with
  | constant c =>
    have hbare : docComment none ++ constantDeclaration f c = constantDeclaration f c :=
      String.empty_append
    refine (toList_indent_docComment f.width c.doc (constantDeclaration f c)).trans ?_
    rw [← hbare]
    rfl
  | enumeration doc info =>
    have hempty : Text.indent f.width "" = "" := rfl
    have hindent := toList_indent_docComment f.width doc ""
    have hbare : docComment none = "" := rfl
    rw [String.append_empty, hempty, String.toList_empty, List.append_nil] at hindent
    simp only [header, undocumented, doc?, String.toList_append, hindent, hbare, hempty,
      String.toList_empty, List.nil_append]
  | _ =>
    apply header_of_undocumented
    · rfl
    · rfl

end Piece

/-! ## Complete comments -/

theorem return_mem_commentLine (width : Nat) (text : List Char) :
    '\r' ∈ List.replicate width ' ' ++ slashed text ↔ '\r' ∈ text := by
  rw [← mem_slashed_iff (c := '\r') (by decide) (by decide) text]
  simp

theorem getLast?_commentLine (width : Nat) (text : List Char) :
    (List.replicate width ' ' ++ slashed text).getLast? = some '\\' ↔
      text.getLast? = some '\\' := by
  have hspaces : (List.replicate width ' ' ++ slashed text).getLast? = (slashed text).getLast? := by
    obtain ⟨rest, hrest⟩ := slashed_eq text
    rw [hrest]
    simp [List.getLast?_append, List.getLast?_cons]
  rw [hspaces, getLast?_slashed_iff]

theorem opens_commentLine (width : Nat) {doc : Option String} {text : List Char}
    (htext : text ∈ docTexts doc) : Opens (List.replicate width ' ' ++ slashed text) := by
  obtain ⟨rest, hrest⟩ := slashed_eq text
  refine ⟨⟨width, rest, by rw [hrest]⟩, ?_⟩
  have hnewline := newline_not_mem_docTexts htext
  rw [← mem_slashed_iff (by decide) (by decide)] at hnewline
  simpa using hnewline

theorem isComment_commentLine_iff (width : Nat) {doc : Option String} {text : List Char}
    (htext : text ∈ docTexts doc) : IsComment (List.replicate width ' ' ++ slashed text) ↔
      '\r' ∉ text ∧ text.getLast? ≠ some '\\' := by
  rw [← return_mem_commentLine width, ne_eq, ← getLast?_commentLine width]
  exact ⟨fun h => ⟨h.carriageReturn, h.backslash⟩,
    fun h => ⟨opens_commentLine width htext, h.1, h.2⟩⟩

/-- Documentation without carriage returns leaves what follows as it is, or takes it into its last
line. -/
theorem skipTrivia_commentLines (width : Nat) {doc : Option String}
    (hreturn : ∀ text ∈ docTexts doc, '\r' ∉ text) (cs : List Char) :
    fromFirstToken (textOf (commentLines width doc) ++ cs) =
      skipTrivia (((docTexts doc).getLast?.map (·.getLast? == some '\\')).getD false)
        (logical cs) := by
  have hlines : ∀ line ∈ commentLines width doc, Opens line ∧ '\r' ∉ line := by
    refine List.forall_mem_map.mpr fun text htext => ⟨opens_commentLine width htext, ?_⟩
    rw [return_mem_commentLine]
    exact hreturn text htext
  have hlast (text : List Char) : ((List.replicate width ' ' ++ slashed text).getLast? ==
      some '\\') = (text.getLast? == some '\\') := by
    rw [Bool.eq_iff_iff, beq_iff_eq, beq_iff_eq, getLast?_commentLine]
  rw [fromFirstToken, skipTrivia_lines hlines, commentLines, List.getLast?_map, Option.map_map]
  simp only [Function.comp_def, hlast]

/-- Documentation goes in front of its declaration in lines that begin as comments. They are
complete comments when no line of the documentation has a carriage return or ends in a backslash.
Without carriage returns the declaration stands as if there were no documentation exactly when the
last line does not end in a backslash. -/
theorem documentation_commented_iff (f : Frame) (p : Piece) :
    let lines := commentLines f.width p.doc?
    let texts := docTexts p.doc?
    ((p.header f).toList = textOf lines ++ (p.undocumented.header f).toList ∧
      ∀ line ∈ lines, Opens line) ∧
    ((∀ line ∈ lines, IsComment line) ↔
      ∀ text ∈ texts, '\r' ∉ text ∧ text.getLast? ≠ some '\\') ∧
    ((∀ text ∈ texts, '\r' ∉ text) →
      ((∀ cs, fromFirstToken (textOf lines ++ cs) = fromFirstToken cs) ↔
        ∀ text, texts.getLast? = some text → text.getLast? ≠ some '\\')) := by
  intro lines texts
  have hopens : ∀ line ∈ lines, Opens line :=
    List.forall_mem_map.mpr fun text htext => opens_commentLine f.width htext
  refine ⟨⟨p.header_eq f, hopens⟩, ?_, fun hreturn => ?_⟩
  · refine List.forall_mem_map.trans ?_
    exact forall₂_congr fun text htext => isComment_commentLine_iff f.width htext
  · have hskip (cs : List Char) := skipTrivia_commentLines f.width hreturn cs
    constructor
    · intro h text hlast hbackslash
      -- A token behind the documentation is part of the comment.
      have htoken := (hskip ['a']).symm.trans (h ['a'])
      rw [show docTexts p.doc? = texts from rfl, hlast, Option.map_some, Option.getD_some,
        hbackslash, beq_self_eq_true] at htoken
      exact absurd htoken (by decide)
    · intro h cs
      refine (hskip cs).trans ?_
      cases hlast : (docTexts p.doc?).getLast? with
      | none => rfl
      | some text =>
        rw [Option.map_some, Option.getD_some, beq_eq_false_iff_ne.mpr (h text hlast)]
        rfl

/-- A constant with documentation, as a document has it. -/
def documented (text : String) : Element :=
  ⟨Tag.constant, .unknown,
    [⟨Key.name, "kMax", .unknown, false⟩, ⟨Key.type, "TCard4", .unknown, false⟩,
      ⟨Key.value, "10", .unknown, false⟩], "", [⟨Tag.docText, .unknown, [], text, []⟩]⟩

def documentedConstant (text : String) : Constant :=
  ⟨"kMax", .card4, "10", some text, .unknown⟩

def namespaceFrame : Frame := { scope := "tFac" }

theorem maximum_commented :
    let c := documentedConstant "The maximum"
    let lines := commentLines namespaceFrame.width c.doc
    Constant.ofElement (documented " The maximum\n") = .ok c ∧
      lines = ["    //  The maximum".toList] ∧ (∀ line ∈ lines, IsComment line) ∧
      ∀ cs, fromFirstToken (textOf lines ++ cs) = fromFirstToken cs := by
  intro c lines
  obtain ⟨-, hcomments, hskip⟩ := documentation_commented_iff namespaceFrame (.constant c)
  refine ⟨by decide, by decide, hcomments.mpr (by decide), (hskip (by decide)).mpr ?_⟩
  intro text htext
  obtain rfl : "The maximum".toList = text := Option.some.inj htext
  decide

/-- A directory at the end of the documentation takes the declaration away. -/
theorem directory_hides_constant :
    let c := documentedConstant "Written to C:\\LOGS\\"
    Constant.ofElement (documented "Written to C:\\LOGS\\") = .ok c ∧
      (∃ line ∈ commentLines namespaceFrame.width c.doc, ¬IsComment line) ∧
      fromFirstToken ((Piece.constant c).header namespaceFrame).toList = [] ∧
      fromFirstToken ((Piece.constant { c with doc := none }).header namespaceFrame).toList =
        "constexpr tCIDLib::TCard4 kMax = 10;\n".toList := by
  intro c
  refine ⟨by decide, ⟨_, List.mem_singleton.mpr rfl, ?_⟩, by decide, by decide⟩
  exact fun h => h.backslash (by decide)

end OrbIdl.Cpp
