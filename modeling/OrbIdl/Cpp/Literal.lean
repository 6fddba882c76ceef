/-! # Literals in C++ -/

namespace OrbIdl.Cpp

/-- A wide string literal around a text, which goes in as it is. -/
def wideLiteral (text : String) : String :=
  "L\"" ++ text ++ "\""

end OrbIdl.Cpp
