import OrbIdl.Cpp.Frame
import OrbIdl.Cpp.MethodCode

/-! # The parts of a pair of generated files

A piece says what it adds to the header, to what follows the scope there, and to the implementation.
-/

namespace OrbIdl.Cpp

open Model

/-! ## Constants and structures -/

/-- Strings are declared here and defined in the implementation; other constants have their value
in the header. -/
def constantDeclaration (f : Frame) (c : Constant) : String :=
  if c.type = .string then
    if f.inClass then s!"static const TString {c.name};\n"
    else s!"{exportLead f.exportWord}extern const TString {c.name};\n"
  else
    let storage := if f.inClass then "static constexpr" else "constexpr"
    s!"{storage} tCIDLib::{c.type.name} {c.name} = {c.value};\n"

def constantDefinition (f : Frame) (c : Constant) : String :=
  if c.type = .string then s!"const TString {f.scope}::{c.name}({wideLiteral c.value});\n" else ""

def fieldType (type : DataType) : String :=
  if type = .string then "TString" else s!"tCIDLib::{type.name}"

def memberDeclaration : Member → String
  | .field name type _ => s!"    {fieldType type} {name};\n"
  | .sub name structName _ => s!"    {structName} {name};\n"

def structDefinition (s : Structure) : String :=
  s!"struct {s.name}\n\x7b\n" ++ String.join (s.members.map memberDeclaration) ++ "\x7d;\n\n"

/-! ## Constructors and destructors -/

/-- The constructor of a server hands its parameters on to its base class. -/
def constructorArguments (ps : List Param) : List Argument :=
  ps.map fun p => ⟨p.name, p.moveable⟩

/-- Without parameters of its own a server has the two constructors of its base class. -/
def serverConstructorDeclarations (name : String) (ps : List Param) : String :=
  if ps.isEmpty then s!"        {name}();\n        {name}(const TOrbObjId& ooidThis);\n"
  else s!"        {name}({Declarator.listWithDefaults (paramList ps)});\n"

def serverConstructorDefinitions (name base : String) (ps : List Param) : String :=
  if ps.isEmpty then
    s!"{name}::{name}() :\n\n    {base}()\n\x7b\n\x7d\n\n" ++
      s!"{name}::{name}(const TOrbObjId& ooidThis) :\n\n    {base}(ooidThis)\n\x7b\n\x7d\n\n"
  else
    s!"{name}::{name}({Declarator.listBare (paramList ps)}) :\n\n" ++
      s!"    {base}({Argument.list (constructorArguments ps)})\n\x7b\n\x7d\n\n"

def serverLifecycleDeclarations (name : String) (ps : List Param) : String :=
  s!"        ~{name}();\n\n    protected :\n" ++ serverConstructorDeclarations name ps ++
    "\n    public :\n"

def serverLifecycleDefinitions (name base : String) (ps : List Param) : String :=
  s!"{name}::~{name}()\n\x7b\n\x7d\n\n" ++ serverConstructorDefinitions name base ps

def clientLifecycleDeclarations (name : String) : String :=
  s!"        {name}();\n" ++
    s!"        {name}(const TOrbObjId& ooidSrc, const TString& strNSBinding);\n" ++
    s!"        {name}(const {name}&) = delete;\n        ~{name}();\n\n" ++
    s!"        {name}& operator=(const {name}&) = delete;\n\n"

def clientLifecycleDefinitions (name base : String) : String :=
  s!"{name}::{name}()\n\x7b\n\x7d\n\n" ++
    s!"{name}::{name}(const TOrbObjId& ooidSrc, const TString& strNSBinding) :\n\n" ++
    s!"    {base}(ooidSrc, strNSBinding)\n\x7b\n\x7d\n\n{name}::~{name}()\n\x7b\n\x7d\n\n"

/-! ## Methods -/

def clientMethodDeclaration (m : Method) : String :=
  let p := prototype m
  let overriding := if m.inBaseClass then " override" else ""
  s!"        {p.result} {p.name}({Declarator.listWithDefaults p.params}){overriding};\n"

def clientMethodDefinition (scope : String) (m : Method) : String :=
  let p := prototype m
  s!"{p.result} {scope}::{p.name}({Declarator.listBare p.params})\n\x7b\n" ++
    Text.indent 4 (Statement.renderAll (clientBody m)) ++ "\x7d\n\n"

/-- The method that a server has to supply, unless its base class has it. -/
def pureVirtual? (m : Method) : Option Prototype :=
  if m.inBaseClass then none else some (prototype m)

def Prototype.renderPureVirtual (p : Prototype) : String :=
  s!"        virtual {p.result} {p.name}({Declarator.listWithDefaults p.params}) = 0;\n"

/-! ## Dispatch -/

def dispatchDeclaration : String :=
  "        tCIDLib::TVoid Dispatch\n        (\n            const   tCIDLib::TCard4 c4MethodId\n" ++
    "            ,       TOrbCmd&        orbcToDispatch\n        ) override;\n"

/-- The switch over method ordinals: the cases, and a default that asks the base class. -/
def dispatchDefinition (scope base : String) (cases : List DispatchCase) : String :=
  s!"tCIDLib::TVoid\n{scope}::Dispatch(const tCIDLib::TCard4 c4MethodId, " ++
    "TOrbCmd& orbcToDispatch)\n\x7b\n    switch(c4MethodId)\n    \x7b\n" ++
    String.join (cases.map DispatchCase.render) ++
    s!"        default :\n            {base}::Dispatch(c4MethodId, orbcToDispatch);\n" ++
    "            break;\n    \x7d\n\x7d\n\n"

/-! ## Pieces -/

inductive Piece where
  | opening (facility : String) (names : FileNames)
  | heading (width : Nat) (title : String)
  | gap
  | constant (constant : Constant)
  | enumeration (doc : Option String) (info : Enumeration)
  | struct (info : Structure)
  | clientLifecycle
  | serverLifecycle (constructor : List Param)
  | clientMethod (method : Method)
  | serverMethod (method : Method)
  | dispatch (cases : List DispatchCase)
deriving DecidableEq

namespace Piece

/-- What the piece adds to the header. -/
def header (f : Frame) : Piece → String
  | opening _ names =>
    banner names.header ++ "#pragma once\n\n#pragma CIDLIB_PACK(CIDLIBPACK)\n\n" ++ f.opening
  | heading width title => Text.indent width (Cpp.heading title)
  | gap => "\n"
  | constant c => Text.indent f.width (docComment c.doc ++ constantDeclaration f c)
  | enumeration doc info =>
    Text.indent f.width (docComment doc) ++ Enum.header f.surroundings info
  | struct info => Text.indent f.width (structDefinition info)
  | clientLifecycle => clientLifecycleDeclarations f.scope
  | serverLifecycle ps => serverLifecycleDeclarations f.scope ps
  | clientMethod m => clientMethodDeclaration m
  | serverMethod m => ((pureVirtual? m).map Prototype.renderPureVirtual).getD ""
  | dispatch _ => dispatchDeclaration

/-- What the piece adds after the scope of the header. -/
def trailer (f : Frame) : Piece → String
  | enumeration _ info => Enum.trailer f.surroundings info
  | _ => ""

/-- What the piece adds to the implementation. -/
def implementation (f : Frame) : Piece → String
  | opening facility names =>
    banner names.implementation ++
      s!"#include \"{facility}_.hpp\"\n#include \"{names.header}\"\n\n"
  | constant c => constantDefinition f c
  | enumeration _ info => Enum.implementation f.scope info
  | clientLifecycle => clientLifecycleDefinitions f.scope f.base
  | serverLifecycle ps => serverLifecycleDefinitions f.scope f.base ps
  | clientMethod m => clientMethodDefinition f.scope m
  | dispatch cases => dispatchDefinition f.scope f.base cases
  | heading .. | gap | struct _ | serverMethod _ => ""

/-- The case that the piece adds to the dispatch of its server. -/
def case? : Piece → Option DispatchCase
  | serverMethod m => some (dispatchCase m)
  | _ => none

end Piece

end OrbIdl.Cpp
