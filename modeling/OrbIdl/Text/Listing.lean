/-! # Names listed in a sentence -/

namespace OrbIdl.Text

def quoted (s : String) : String :=
  s!"`{s}`"

/-- Each name with its comma, and the last one after the word. -/
def listed (word : String) : List String → String
  | [] => ""
  | [last] => s!"{word} `{last}`"
  | item :: items => s!"`{item}`, " ++ listed word items

/-- One name stands alone, two are joined by the word, and more have a comma after each. -/
def joined (word : String) : List String → String
  | [] => ""
  | [only] => quoted only
  | [first, second] => s!"`{first}` {word} `{second}`"
  | items => listed word items

def alternatives (items : List String) : String := joined "or" items

def conjunction (items : List String) : String := joined "and" items

end OrbIdl.Text
