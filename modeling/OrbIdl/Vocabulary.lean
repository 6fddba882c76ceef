/-! # The names of the interface language -/

namespace OrbIdl

/-- Every name of the language begins with this. -/
def namePrefix : String := "CIDIDL:"

/-! ## Elements -/

namespace Tag

def interface : String := "CIDIDL:Interface"
def globals : String := "CIDIDL:Globals"
def classInterface : String := "CIDIDL:ClassIntf"
def constants : String := "CIDIDL:Constants"
def constant : String := "CIDIDL:Constant"
def types : String := "CIDIDL:Types"
def enumeration : String := "CIDIDL:Enum"
def enumValue : String := "CIDIDL:EnumVal"
def enumSynonym : String := "CIDIDL:EnumSyn"
def struct : String := "CIDIDL:Struct"
def member : String := "CIDIDL:Member"
def subStruct : String := "CIDIDL:SubStruct"
def constructor : String := "CIDIDL:Ctor"
def methods : String := "CIDIDL:Methods"
def method : String := "CIDIDL:Method"
def pollMethod : String := "CIDIDL:PollMethod"
def result : String := "CIDIDL:RetType"
def param : String := "CIDIDL:Param"
def docText : String := "CIDIDL:DocText"

end Tag

/-! ## Attributes -/

namespace Key

def name : String := "CIDIDL:Name"
def type : String := "CIDIDL:Type"
def value : String := "CIDIDL:Value"
def direction : String := "CIDIDL:Dir"
def defaultValue : String := "CIDIDL:DefVal"
def moveable : String := "CIDIDL:Moveable"
def timeout : String := "CIDIDL:TimeOut"
def inBaseClass : String := "CIDIDL:InBaseClass"
def interfaceId : String := "CIDIDL:InterfaceId"
def clientBase : String := "CIDIDL:ClientBase"
def serverBase : String := "CIDIDL:ServerBase"
def baseType : String := "CIDIDL:BaseType"
def altNumber : String := "CIDIDL:AltNumVal"
def altTextSource : String := "CIDIDL:AltTextSrc"
def altText : String := "CIDIDL:AltText"
def altText2 : String := "CIDIDL:AltText2"
def altMap : String := "CIDIDL:AltMap"
def altMap2 : String := "CIDIDL:AltMap2"
def altPattern : String := "CIDIDL:AltPattern"
def formatMap : String := "CIDIDL:FormatMap"
def loadMap : String := "CIDIDL:LoadMap"
def translateMap : String := "CIDIDL:XlatMap"
def textStreamMap : String := "CIDIDL:TextStreamMap"
def binaryStream : String := "CIDIDL:BinStream"
def increments : String := "CIDIDL:IncDec"
def messageFacility : String := "CIDIDL:MsgFac"
def messageNamespace : String := "CIDIDL:MsgNS"
def text : String := "CIDIDL:Text"
def elementType : String := "CIDIDL:ElemType"
def keyType : String := "CIDIDL:KeyType"
def keyOps : String := "CIDIDL:KeyOps"
def keyExtract : String := "CIDIDL:KeyExtract"
def modulus : String := "CIDIDL:Modulus"

end Key

/-! ## Values of attributes -/

/-- The two values of a switch. -/
def yes : String := "Yes"

def no : String := "No"

end OrbIdl
