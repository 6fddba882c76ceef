import OrbIdl.Schema.Declaration

/-! # The schema of interface documents -/

namespace OrbIdl.Schema

open Particle

/-! ## Types that stand as elements -/

/-- The empty element of a type, with the attributes that complete it. -/
def typeElement (t : DataType) : ElementDeclaration where
  name := namePrefix ++ t.name
  content := .empty
  attributes := t.arguments.map fun (argument, form) => ⟨argument.key, .ofForm form, .required⟩

def typeElements : List ElementDeclaration :=
  (DataType.all.filter fun t => t.standsAt .param || t.standsAt .result).map typeElement

def typeEntities : List Entity :=
  Position.all.map fun p => ⟨p.entity, p.names⟩

/-! ## Methods -/

def paramElement : ElementDeclaration where
  name := Tag.param
  content := .children (choice [entity Position.param.entity])
  attributes := [
    ⟨Key.name, .token, .required⟩,
    ⟨Key.direction, .oneOf ["In", "Out", "InOut"], .required⟩,
    ⟨Key.defaultValue, .text, .implied⟩,
    ⟨Key.moveable, .oneOf [yes, no], .value no⟩]

def resultElement : ElementDeclaration where
  name := Tag.result
  content := .children (choice [entity Position.result.entity])
  attributes := []

def constructorElement : ElementDeclaration where
  name := Tag.constructor
  content := .children (plus (element Tag.param))
  attributes := []

def methodElement (name timeout : String) : ElementDeclaration where
  name := name
  content := .children (sequence [element Tag.result, star (element Tag.param)])
  attributes := [
    ⟨Key.timeout, .text, .value timeout⟩,
    ⟨Key.name, .token, .required⟩,
    ⟨Key.inBaseClass, .oneOf [yes, no], .value no⟩]

/-! ## Constants and types -/

def docTextElement : ElementDeclaration where
  name := Tag.docText
  content := .characterData
  attributes := []

def constantElement : ElementDeclaration where
  name := Tag.constant
  content := .children (optional (element Tag.docText))
  attributes := [
    ⟨Key.name, .token, .required⟩,
    ⟨Key.type, .oneOfEntity Position.constant.entity, .required⟩,
    ⟨Key.value, .text, .required⟩]

def constantsElement : ElementDeclaration where
  name := Tag.constants
  content := .children (plus (element Tag.constant))
  attributes := []

def memberElement : ElementDeclaration where
  name := Tag.member
  content := .empty
  attributes := [
    ⟨Key.name, .token, .required⟩,
    ⟨Key.type, .oneOfEntity Position.constant.entity, .required⟩]

def subStructElement : ElementDeclaration where
  name := Tag.subStruct
  content := .empty
  attributes := [⟨Key.name, .token, .required⟩, ⟨Key.type, .token, .required⟩]

def structElement : ElementDeclaration where
  name := Tag.struct
  content := .children (star (choice [element Tag.member, element Tag.subStruct]))
  attributes := [⟨Key.type, .token, .required⟩]

def enumValueElement : ElementDeclaration where
  name := Tag.enumValue
  content := .empty
  attributes := [
    ⟨Key.name, .token, .required⟩,
    ⟨Key.altText, .text, .implied⟩,
    ⟨Key.altText2, .text, .implied⟩,
    ⟨Key.text, .text, .implied⟩,
    ⟨Key.value, .text, .implied⟩,
    ⟨Key.altNumber, .text, .implied⟩]

def enumSynonymElement : ElementDeclaration where
  name := Tag.enumSynonym
  content := .empty
  attributes := [⟨Key.name, .token, .required⟩, ⟨Key.value, .text, .implied⟩]

/-- The texts of a value that a mapping may lead to. -/
def textColumns : List String :=
  ["No", "AltText", "AltText2", "BaseName", "Name", "Text"]

def mappingKeys : List String :=
  [Key.altMap, Key.altMap2, Key.formatMap, Key.loadMap, Key.translateMap, Key.textStreamMap]

def enumerationElement : ElementDeclaration where
  name := Tag.enumeration
  content := .children (sequence [
    optional (element Tag.docText), plus (element Tag.enumValue), star (element Tag.enumSynonym)])
  attributes := [
    ⟨Key.name, .token, .required⟩,
    ⟨Key.baseType, .oneOfEntity Position.enumBase.entity, .implied⟩,
    ⟨Key.type, .oneOf ["Std", "Bmp"], .value "Std"⟩,
    ⟨Key.altNumber, .oneOf [yes, no], .value no⟩,
    ⟨Key.altTextSource, .oneOf ["No", "Inline", "Pattern"], .value no⟩,
    ⟨Key.altText2, .oneOf [no, yes], .value no⟩,
    ⟨Key.altPattern, .text, .value ""⟩,
    ⟨Key.binaryStream, .oneOf [no, yes], .value no⟩,
    ⟨Key.increments, .oneOf ["No", "Inc", "Both"], .value no⟩,
    ⟨Key.messageFacility, .text, .implied⟩,
    ⟨Key.messageNamespace, .text, .implied⟩] ++
    mappingKeys.map fun key => ⟨key, .oneOf textColumns, .value no⟩

def typesElement : ElementDeclaration where
  name := Tag.types
  content := .children (star (choice [element Tag.enumeration, element Tag.struct]))
  attributes := []

/-! ## Sections -/

def globalsElement : ElementDeclaration where
  name := Tag.globals
  content := .children (sequence [optional (element Tag.constants), optional (element Tag.types)])
  attributes := []

def methodsElement : ElementDeclaration where
  name := Tag.methods
  content := .children (star (choice [element Tag.pollMethod, element Tag.method]))
  attributes := []

def classInterfaceElement : ElementDeclaration where
  name := Tag.classInterface
  content := .children (sequence [
    optional (element Tag.constants), optional (element Tag.types),
    optional (element Tag.constructor), element Tag.methods])
  attributes := [
    ⟨Key.name, .token, .required⟩,
    ⟨Key.interfaceId, .text, .required⟩,
    ⟨Key.clientBase, .token, .value "TOrbClientBase"⟩,
    ⟨Key.serverBase, .token, .value "TOrbServerBase"⟩]

def interfaceElement : ElementDeclaration where
  name := Tag.interface
  content := .children (sequence [
    star (element Tag.globals), optional (element Tag.classInterface)])
  attributes := []

/-- The schema that every interface document follows. -/
def interfaceDocument : Schema where
  publicId := "urn:charmedquark.com:XML-CIDIDL.Dtd"
  systemId := "CIDIDL.DTD"
  entities := typeEntities
  elements := typeElements ++ [
    paramElement, resultElement, constructorElement, methodElement Tag.method "30000",
    methodElement Tag.pollMethod "10000", docTextElement, constantElement, constantsElement,
    memberElement, subStructElement, structElement, enumValueElement, enumSynonymElement,
    enumerationElement, typesElement, globalsElement, methodsElement, classInterfaceElement,
    interfaceElement]

end OrbIdl.Schema
